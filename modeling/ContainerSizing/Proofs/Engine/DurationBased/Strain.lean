import ContainerSizing.Proofs.Binary64.Ceiling
import ContainerSizing.Proofs.Engine.DurationBased.Headroom

namespace ContainerSizing

open Binary64 Statistics

namespace Interval

-- Metrics whose highest and lowest values tell how much memory may be needed.
def memoryMetrics : List Metric :=
  [.memoryUsage, .memoryRss]

-- One interval with all values of another, except that memory climbs higher or falls lower in it.
structure Strained (i j : Interval) : Prop where
  same    : ∀ m s, m ∉ memoryMetrics ∨ s = .average ∨ s = .total → j.value m s = i.value m s
  maximum : ∀ m ∈ memoryMetrics, i.value m .maximum ≤ j.value m .maximum
  minimum : ∀ m ∈ memoryMetrics, j.value m .minimum ≤ i.value m .minimum

variable {i : Interval} {t : Timestamp} {m : Metric} {a : Aggregate}

theorem value_withMetric (m' : Metric) (s : Statistic) :
    (i.withMetric m a).value m' s = if m' = m then a.value s else i.value m' s := by
  simp only [value, withMetric]
  split_ifs <;> rfl

theorem Strained.refl (h : i.fault? t = none) : i.Strained i where
  same    := fun _ _ _ => rfl
  maximum := fun m _ => Binary64.le_refl (isNonneg_value h m _).isNumber
  minimum := fun m _ => Binary64.le_refl (isNonneg_value h m _).isNumber

theorem strained_withMetric (h : i.fault? t = none) (hm : m ∈ memoryMetrics)
    (haverage : a.average = i.value m .average) (htotal : a.total = i.value m .total)
    (hmaximum : i.value m .maximum ≤ a.maximum) (hminimum : a.minimum ≤ i.value m .minimum) :
    i.Strained (i.withMetric m a) where
  same m' s hs := by
    rw [value_withMetric]
    split_ifs with he
    case pos =>
      subst he
      rcases hs with hs | rfl | rfl
      · exact absurd hm hs
      · exact haverage
      · exact htotal
    case neg => rfl
  maximum m' _ := by
    rw [value_withMetric]
    split_ifs with he
    case pos => exact he ▸ hmaximum
    case neg => exact Binary64.le_refl (isNonneg_value h m' _).isNumber
  minimum m' _ := by
    rw [value_withMetric]
    split_ifs with he
    case pos => exact he ▸ hminimum
    case neg => exact Binary64.le_refl (isNonneg_value h m' _).isNumber

end Interval

-- Intervals at the same instants, each of them strained.
def Window.Strained (v w : Window) : Prop :=
  List.Forall₂ (fun e f => e.1 = f.1 ∧ e.2.Strained f.2) v.intervals w.intervals

namespace DurationBased

variable {tuning : Tuning} {v w : Window} {signals signals' : MemorySignals} {t : Timestamp}
variable {i j : Interval}

section Intervals

theorem memoryPods_strained (h : i.Strained j) : memoryPods j = memoryPods i := by
  have hcpu (s : Statistic) := h.same .cpuUsage s (.inl (by decide))
  have hpods : Window.intervalPods j = Window.intervalPods i := by
    rw [Window.intervalPods, Window.intervalPods, hcpu, hcpu]
  rw [memoryPods, memoryPods, hpods, h.same .memoryUsage .average (.inr (.inl rfl)),
    h.same .memoryUsage .total (.inr (.inr rfl))]

theorem memoryShare_strained (h : i.Strained j) : memoryShare j = memoryShare i := by
  rw [memoryShare, memoryShare, memoryPods_strained h, h.same .memoryUsage .total (.inr (.inr rfl))]

variable (hi : i.fault? t = none) (hj : j.fault? t = none) (h : i.Strained j)
include hi hj h

theorem memoryUsageSignal_strained : memoryUsageSignal i ≤ memoryUsageSignal j := by
  have hmaximum := value_le_of_le (h.maximum .memoryUsage (by decide))
  rw [le_iff_value_le (isNonneg_memoryUsageSignal hi).isNumber (isNonneg_memoryUsageSignal hj).isNumber,
    value_memoryUsageSignal hi, value_memoryUsageSignal hj, memoryShare_strained h]
  exact max_le_max le_rfl hmaximum

-- Neither the rounding of the difference nor that of the swing turns the order around.
theorem swing_strained {m : Metric} (hm : m ∈ Interval.memoryMetrics) :
    IsNumber (swing i m) ∧ IsNumber (swing j m) ∧ value (swing i m) ≤ value (swing j m) := by
  have isFinite_sub {i : Interval} (h : i.fault? t = none) :
      (i.value m .maximum - i.value m .minimum).isFinite :=
    (Interval.isNonneg_value h m _).isFinite_sub (Interval.isFinite_value h m _)
      (Interval.isNonneg_value h m _) (Interval.isFinite_value h m _)
  have value_sub {i : Interval} (h : i.fault? t = none) :=
    value_sub (Interval.isFinite_value h m .maximum) (Interval.isFinite_value h m .minimum)
  have hmaximum := value_le_of_le (h.maximum m hm)
  have hminimum := value_le_of_le (h.minimum m hm)
  refine ⟨isNumber_ceil (isFinite_sub hi), isNumber_ceil (isFinite_sub hj),
    value_ceil_mono (isFinite_sub hi) (isFinite_sub hj) ?_⟩
  rw [value_sub hi, value_sub hj]
  exact rounded_monotone (sub_le_sub hmaximum hminimum)

theorem memorySpikeSignal_strained : memorySpikeSignal i ≤ memorySpikeSignal j := by
  have ⟨hu, hu', hule⟩ := swing_strained hi hj h (m := .memoryUsage) (by decide)
  have ⟨hr, hr', hrle⟩ := swing_strained hi hj h (m := .memoryRss) (by decide)
  have hn {x y : Float} : IsNumber (larger (larger x y) 0.0) := isNonneg_zero.larger.isNumber
  rw [memorySpikeSignal, memorySpikeSignal, le_iff_value_le hn hn,
    value_larger (isNumber_larger hu hr) isNumber_zero, value_larger hu hr,
    value_larger (isNumber_larger hu' hr') isNumber_zero, value_larger hu' hr']
  exact max_le_max (max_le_max hule hrle) le_rfl

end Intervals

section Windows

variable (hv : v.IsSound) (hw : w.IsSound) (h : v.Strained w)
include hv hw h

theorem percentile_strained {f : Interval → Float} {p x y : Float}
    (hn : ∀ t i, i.fault? t = none → IsNumber (f i))
    (hf : ∀ t i j, i.fault? t = none → j.fault? t = none → i.Strained j → f i ≤ f j)
    (hx : percentile p (v.values f) = .ok x) (hy : percentile p (w.values f) = .ok y) : x ≤ y := by
  obtain ⟨hlength, hpairs⟩ := List.forall₂_iff_zip.mp h
  have hle : List.Forall₂ (· ≤ ·) (v.values f) (w.values f) := by
    rw [Window.values, Window.values, List.forall₂_map_left_iff, List.forall₂_map_right_iff,
      List.forall₂_iff_zip]
    refine ⟨hlength, ?_⟩
    rintro ⟨t, i⟩ ⟨t', j⟩ hm
    obtain ⟨hi, hj⟩ := List.of_mem_zip hm
    obtain ⟨rfl, hs⟩ := hpairs hm
    exact hf _ i j (hv _ i hi) (hw _ j hj) hs
  exact percentile_mono (Window.forall_values hv hn) (Window.forall_values hw hn) hle hx hy

theorem signals_strained (hs : MemorySignals.ofWindow tuning v = .ok signals)
    (hs' : MemorySignals.ofWindow tuning w = .ok signals') :
    signals.usage ≤ signals'.usage ∧ signals.spike ≤ signals'.spike := by
  rw [signals_eq_ok_iff] at hs hs'
  constructor
  case left =>
    exact percentile_strained hv hw h (fun _ _ hi => (isNonneg_memoryUsageSignal hi).isNumber)
      (fun _ _ _ => memoryUsageSignal_strained) hs.left hs'.left
  case right =>
    exact percentile_strained hv hw h (fun _ _ _ => isNonneg_zero.larger.isNumber)
      (fun _ _ _ => memorySpikeSignal_strained) hs.right hs'.right

end Windows

theorem recommend_memory_strain (term : Term) (ht : tuning.fault? = none) (hv : v.IsSound)
    (hw : w.IsSound) (hne : v.intervals ≠ []) (h : v.Strained w) :
    ∃ r r', recommend tuning term v = .ok r ∧ recommend tuning term w = .ok r' ∧
      r.requested .memory ≤ r'.requested .memory ∧
      ∀ q, r.config.get? .requests .memory = some q →
        ∃ q', r'.config.get? .requests .memory = some q' ∧ q.amount ≤ q'.amount := by
  have hne' : w.intervals ≠ [] := by
    intro hnil
    rw [Window.Strained, hnil, List.forall₂_nil_right_iff] at h
    exact hne h
  have ⟨r, hr⟩ := exists_recommend tuning term hne
  have ⟨r', hr'⟩ := exists_recommend tuning term hne'
  have ⟨signals, hs, hn, hvalue⟩ := requested_memory ht hv hr
  have ⟨signals', hs', hn', hvalue'⟩ := requested_memory ht hw hr'
  have ⟨hu, hsp⟩ := isNonneg_signals hv hs
  have ⟨hu', hsp'⟩ := isNonneg_signals hw hs'
  have ⟨hle, hle'⟩ := signals_strained hv hw h hs hs'
  have hmono := value_request_mono ht hu hsp hu' hsp' (value_le_of_le hle) (value_le_of_le hle')
  refine ⟨r, r', hr, hr', ?requested, ?kept⟩
  case requested =>
    rw [← hvalue, ← hvalue'] at hmono
    exact (le_iff_value_le hn.isNumber hn'.isNumber).mpr hmono
  case kept =>
    intro q hq
    exact config_memory_mono_of_signals ht hv hw hr hr' hs hs' (value_le_of_le hle)
      (value_le_of_le hle') hq

-- The loaded hour with a higher peak and a lower trough.
def strainedHour : Interval :=
  loadedHour.withMetric .memoryUsage ⟨8.0, 12.0, 4.0, 16.0, "MiB"⟩

def strainedWindow : Window :=
  { loadedWindow with intervals := [(Engine.hourBefore, quietHour), (default, strainedHour)] }

theorem isSound_strainedWindow : strainedWindow.IsSound :=
  Window.isSound_iff.mpr (by decide +kernel)

theorem strained_loadedWindow : loadedWindow.Strained strainedWindow := by
  have hquiet : quietHour.fault? Engine.hourBefore = none := by decide +kernel
  have hloaded : loadedHour.fault? default = none := by decide +kernel
  have hstrained : loadedHour.Strained strainedHour :=
    Interval.strained_withMetric hloaded (by decide) rfl rfl (by decide +kernel) (by decide +kernel)
  exact .cons ⟨rfl, .refl hquiet⟩ (.cons ⟨rfl, hstrained⟩ .nil)

theorem recommend_memory_strain_strainedWindow :
    (default : Tuning).fault? = none ∧ loadedWindow.IsSound ∧ strainedWindow.IsSound ∧
    loadedWindow.intervals ≠ [] ∧ loadedWindow.Strained strainedWindow ∧
    ∃ r r', recommend default ⟨"short_term", 1, 30.0⟩ loadedWindow = .ok r ∧
      recommend default ⟨"short_term", 1, 30.0⟩ strainedWindow = .ok r' ∧
      r.requested .memory ≤ r'.requested .memory := by
  have ⟨r, r', hr, hr', hle, _⟩ := recommend_memory_strain ⟨"short_term", 1, 30.0⟩
    Tuning.fault?_standard isSound_loadedWindow isSound_strainedWindow intervals_loadedWindow
    strained_loadedWindow
  exact ⟨Tuning.fault?_standard, isSound_loadedWindow, isSound_strainedWindow, intervals_loadedWindow,
    strained_loadedWindow, r, r', hr, hr', hle⟩

end DurationBased

end ContainerSizing
