import ContainerSizing.Proofs.Engine.CapacityBased.Outcome
import ContainerSizing.Proofs.Engine.DurationBased.Headroom
import ContainerSizing.Proofs.Engine.RequestsAndLimits

namespace ContainerSizing

open Binary64 Statistics

namespace Window

variable {series : Series} {v w : Window} {stop : Timestamp}

theorem intervals_subset (hv : ofSeries series v.start stop = .ok v)
    (hw : ofSeries series w.start stop = .ok w) (hle : w.start ≤ v.start) (hstop : v.start ≤ stop) :
    v.intervals ⊆ w.intervals := by
  intro ⟨t, i⟩ hm
  rw [intervals_of_ofSeries hv, Series.mem_range_iff hstop] at hm
  rw [intervals_of_ofSeries hw, Series.mem_range_iff (Timestamp.le_trans hle hstop)]
  exact ⟨hm.left, Timestamp.le_trans hle hm.right.left, hm.right.right⟩

theorem values_subset (f : Interval → Float) (h : v.intervals ⊆ w.intervals) :
    v.values f ⊆ w.values f :=
  List.map_subset _ h

end Window

namespace DurationBased

variable {tuning : Tuning} {v w : Window} {signals signals' : MemorySignals} {term : Term}
variable {r : Recommendation} {s : Setting}

-- Taken at the hundredth percentile, both signals are peaks.
theorem value_signals_mono (hw : w.IsSound) (h : v.intervals ⊆ w.intervals) (hv : v.size ≤ 2 ^ 53)
    (hn : w.size ≤ 2 ^ 53) (hp : tuning.memoryPercentile = 100.0)
    (hs : MemorySignals.ofWindow tuning v = .ok signals)
    (hs' : MemorySignals.ofWindow tuning w = .ok signals') :
    value signals.usage ≤ value signals'.usage ∧ value signals.spike ≤ value signals'.spike := by
  rw [signals_eq_ok_iff, hp] at hs hs'
  have value_le {f : Interval → Float} {x y : Float} (hf : ∀ t i, i.fault? t = none → IsNumber (f i))
      (hx : percentile 100.0 (v.values f) = .ok x) (hy : percentile 100.0 (w.values f) = .ok y) :
      value x ≤ value y :=
    (Window.isHighest_of_percentile hv hx).value_le (Window.isHighest_of_percentile hn hy)
      (Window.values_subset f h) (Window.forall_values hw hf)
  exact ⟨value_le (fun _ _ h => (isNonneg_memoryUsageSignal h).isNumber) hs.left hs'.left,
    value_le (fun _ _ _ => isNonneg_zero.larger.isNumber) hs.right hs'.right⟩

theorem config_memory_mono (ht : tuning.fault? = none) {term' : Term} {r' : Recommendation}
    {q : Quantity} (hv : v.IsSound) (hw : w.IsSound) (h : v.intervals ⊆ w.intervals)
    (hnv : v.size ≤ 2 ^ 53) (hnw : w.size ≤ 2 ^ 53) (hp : tuning.memoryPercentile = 100.0)
    (hr : recommend tuning term v = .ok r) (hr' : recommend tuning term' w = .ok r')
    (hq : r.config.get? s .memory = some q) :
    ∃ q', r'.config.get? s .memory = some q' ∧ q.amount ≤ q'.amount := by
  have ⟨_, hs, _⟩ := recommend_memory_cases ht hv hr
  have ⟨_, hs', _⟩ := recommend_memory_cases ht hw hr'
  have ⟨hle, hle'⟩ := value_signals_mono hw h hnv hnw hp hs hs'
  exact config_memory_mono_of_signals ht hv hw hr hr' hs hs' hle hle' hq

end DurationBased

namespace CapacityBased

variable {tuning : Tuning} {v w : Window} {r : Recommendation} {s : Setting} {res : Resource}
variable {d d' : Demand} {q : Quantity}

theorem not_isNone_of_pos {zero : Float} (hz : zero == 0.0) (hp : d.amount s > 0.0) :
    ¬d.isNone zero := by
  intro hn
  have hle : d.amount s ≤ zero := amount_le_of_isNone hn
  obtain ⟨hn, hzero⟩ := isNumber_of_le hle
  rw [beq_iff_value_eq hzero isNumber_zero, value_zero] at hz
  rw [pos_iff_value_pos hn] at hp
  linarith [value_le_of_le hle]

-- Usage that is above zero is enough for a resource to be sized.
theorem exists_config_of_pos (hz : tuning.zeroCpu == 0.0) (h : recommend tuning w = .ok r)
    (hd : Demand.ofResource tuning w res = .ok d) (hp : d.amount s > 0.0) :
    ∃ q, r.config.get? s res = some q := by
  have hzero : threshold tuning res == 0.0 := by
    cases res <;> rw [threshold]
    · exact hz
    · rfl
  exact exists_config_of_not_isNone h hd (not_isNone_of_pos hzero hp) hp

-- Zero times infinity is no number, but no factor of a positive product is zero.
theorem value_most_mono (hv : v.IsSound) (hw : w.IsSound) (h : v.intervals ⊆ w.intervals)
    (hd : Demand.ofResource tuning v res = .ok d) (hd' : Demand.ofResource tuning w res = .ok d')
    (hp : d.most > 0.0) : IsNumber d'.most ∧ value d.most ≤ value d'.most := by
  obtain ⟨_, _, peak, hpeak, pods, hpods, rfl⟩ := Demand.ofResource_eq_ok_iff.mp hd
  obtain ⟨_, _, peak', hpeak', pods', hpods', rfl⟩ := Demand.ofResource_eq_ok_iff.mp hd'
  have value_le {f : Interval → Float} {x y : Float} (hf : ∀ t i, i.fault? t = none → IsNonneg (f i))
      (hx : largest (v.values f) = .ok x) (hy : largest (w.values f) = .ok y) :
      IsNonneg x ∧ IsNonneg y ∧ value x ≤ value y :=
    ⟨Window.forall_values hv hf x (mem_of_largest hx), Window.forall_values hw hf y (mem_of_largest hy),
      (isHighest_of_largest hx).value_le (isHighest_of_largest hy) (Window.values_subset f h)
        (Window.forall_values hw fun t i hi => (hf t i hi).isNumber)⟩
  have ⟨hn, hn', hle⟩ := value_le (fun _ _ => Demand.isNonneg_peak) hpeak hpeak'
  have ⟨hm, hm', hle'⟩ := value_le (fun _ _ => Demand.isNonneg_podRatio) hpods hpods'
  have ⟨hpos, hpos'⟩ := hn.pos_of_mul_pos hm ((pos_iff_value_pos (isNumber_of_lt hp).right).mp hp)
  have hnumber := hn'.isNumber_mul hm' (hpos.trans_le hle) (hpos'.trans_le hle')
  exact ⟨hnumber, hn.value_mul_le_mul hm hn' hm' hle hle' hnumber⟩

theorem config_limits_mono (hz : tuning.zeroCpu == 0.0) {r' : Recommendation} (hv : v.IsSound)
    (hw : w.IsSound) (h : v.intervals ⊆ w.intervals) (hr : recommend tuning v = .ok r)
    (hr' : recommend tuning w = .ok r') (hq : r.config.get? .limits res = some q) :
    ∃ q', r'.config.get? .limits res = some q' ∧ q.amount ≤ q'.amount := by
  have ⟨d, hd⟩ := exists_ofResource hr res
  have ⟨d', hd'⟩ := exists_ofResource hr' res
  have ⟨ha, hp⟩ := amount_of_config hr hd hq
  have ⟨hn, hle⟩ := value_most_mono hv hw h hd hd' hp
  have hm : IsNumber d.most := (isNumber_of_lt hp).right
  have hp' : d'.most > 0.0 := (pos_iff_value_pos hn).mpr (((pos_iff_value_pos hm).mp hp).trans_le hle)
  have ⟨q', hq'⟩ := exists_config_of_pos (s := .limits) hz hr' hd' hp'
  have ⟨ha', _⟩ := amount_of_config hr' hd' hq'
  refine ⟨q', hq', ?_⟩
  rw [ha, ha']
  exact (le_iff_value_le hm hn).mpr hle

end CapacityBased

namespace Engine

variable {engine : Engine} {series : Series} {stop start start' : Timestamp} {narrow wide : Term}
variable {r r' : Recommendation}

theorem evaluate_of_entry {term : Term} (hl : engine.policy.last? term.label = some term)
    (hr : (engine.recommend series stop).get? term.label = some r) (hs : r.start = some start) :
    engine.evaluate series term stop = .ok r := by
  rw [get?_recommend_eq, hl] at hr
  injection hr with ho
  exact evaluate_of_outcome ho (hs ▸ rfl)

theorem recommend_widening (ht : engine.tuning.fault? = none) (hn : series.size ≤ 2 ^ 53)
    (hl : engine.policy.last? narrow.label = some narrow)
    (hl' : engine.policy.last? wide.label = some wide)
    (hr : (engine.recommend series stop).get? narrow.label = some r)
    (hr' : (engine.recommend series stop).get? wide.label = some r')
    (hs : r.start = some start) (hs' : r'.start = some start') :
    (engine.kind = .durationBased → engine.tuning.memoryPercentile = 100.0 → start' ≤ start →
      r.pods ≤ r'.pods ∧
      ∀ s q, r.config.get? s .memory = some q →
        ∃ q', r'.config.get? s .memory = some q' ∧ q.amount ≤ q'.amount) ∧
    (engine.kind = .capacityBased → engine.tuning.zeroCpu == 0.0 → narrow.days ≤ wide.days →
      r.pods ≤ r'.pods ∧
      ∀ res q, r.config.get? .limits res = some q →
        ∃ q', r'.config.get? .limits res = some q' ∧ q.amount ≤ q'.amount) := by
  have he := evaluate_of_entry hl hr hs
  have he' := evaluate_of_entry hl' hr' hs'
  constructor
  case left =>
    intro hk hp hle
    rw [evaluate_durationBased hk] at he he'
    have ⟨v, hstop, hv, hrec⟩ := DurationBased.exists_window_of_evaluate he (hs ▸ rfl)
    have ⟨w, _, hw, hrec'⟩ := DurationBased.exists_window_of_evaluate he' (hs' ▸ rfl)
    have ⟨hstart, _, _, hpods⟩ := DurationBased.recommend_bounds hrec
    have ⟨hstart', _, _, hpods'⟩ := DurationBased.recommend_bounds hrec'
    obtain rfl := Option.some.inj (hs.symm.trans hstart)
    obtain rfl := Option.some.inj (hs'.symm.trans hstart')
    have hsub := Window.intervals_subset hv hw hle hstop
    refine ⟨hpods ▸ hpods' ▸ Window.pods_mono hsub, ?_⟩
    intro s q hq
    exact DurationBased.config_memory_mono ht (Window.isSound_of_ofSeries hv)
      (Window.isSound_of_ofSeries hw) hsub ((Window.size_le hv).trans hn) ((Window.size_le hw).trans hn)
      hp hrec hrec' hq
  case right =>
    intro hk hz hle
    rw [evaluate_capacityBased hk] at he he'
    have ⟨v, hb, hv, hrec⟩ := CapacityBased.exists_days_of_evaluate he (hs ▸ rfl)
    have ⟨w, hb', hw, hrec'⟩ := CapacityBased.exists_days_of_evaluate he' (hs' ▸ rfl)
    have ⟨_, _, _, hpods, _⟩ := CapacityBased.recommend_bounds hrec
    have ⟨_, _, _, hpods', _⟩ := CapacityBased.recommend_bounds hrec'
    have hstop := CapacityBased.start_le (CapacityBased.start_eq_ok_iff.mpr hb)
    have hsub := Window.intervals_subset hv hw (Timestamp.daysBefore?_antitone hle hb hb') hstop
    refine ⟨hpods ▸ hpods' ▸ Window.pods_mono hsub, ?_⟩
    intro res q hq
    exact CapacityBased.config_limits_mono hz (Window.isSound_of_ofSeries hv)
      (Window.isSound_of_ofSeries hw) hsub hrec hrec' hq

section Week

-- A series that is a week old, with most of its minutes at the beginning.

def weekBefore : Timestamp :=
  ⟨-604800, 0, by decide +kernel⟩

def twoDays : Interval :=
  (Interval.bare 2880.0).withMetric .memoryUsage ⟨2.0, 6.0, 2.0, 4.0, "MiB"⟩

def weekSeries : Series :=
  SortedMap.ofList [(weekBefore, twoDays), (default, usedHour)]

def mediumTerm : Term :=
  ⟨"medium_term", 7, 2880.0⟩

theorem mediumTerm_mem_standard (kind : EngineKind) : mediumTerm ∈ (standard kind).policy.terms :=
  List.mem_cons_of_mem _ List.mem_cons_self

theorem fault?_weekSeries : ∀ t i, (t, i) ∈ weekSeries.entries → i.fault? t = none := by
  have h : ∀ e ∈ weekSeries.entries, e.2.fault? e.1 = none := by decide +kernel
  exact fun t i => h (t, i)

-- The window of the shortest term holds one interval, so that it can be sized by evaluation.
def isNarrow (r : Recommendation) : Bool :=
  r.start.any fun start => weekBefore ≤ start ∧ (r.config.get? .limits .memory).isSome

theorem exists_narrow_weekSeries (kind : EngineKind) :
    ∃ r start q, ((standard kind).recommend weekSeries default).get? "short_term" = some r ∧
      r.start = some start ∧ weekBefore ≤ start ∧ r.config.get? .limits .memory = some q := by
  have h : (((standard kind).recommend weekSeries default).get? "short_term").any isNarrow := by
    cases kind <;> decide +kernel
  simp only [Option.any_eq_true, isNarrow, decide_eq_true_eq] at h
  obtain ⟨r, hr, start, hs, hle, hq⟩ := h
  obtain ⟨q, hq⟩ := Option.isSome_iff_exists.mp hq
  exact ⟨r, start, q, hr, hs, hle, hq⟩

theorem exists_wide_weekSeries (kind : EngineKind) :
    ∃ r start, ((standard kind).recommend weekSeries default).get? mediumTerm.label = some r ∧
      r.start = some start ∧ start ≤ weekBefore := by
  have hget : ((standard kind).recommend weekSeries default).get? mediumTerm.label =
      some ((standard kind).outcome weekSeries default mediumTerm) :=
    get?_recommend (hasDistinctLabels_standard kind) (mediumTerm_mem_standard kind)
  cases kind
  case durationBased =>
    obtain ⟨start, hs, hle⟩ : ∃ start,
        (Walk.ofTerm weekSeries mediumTerm default).start? = .ok (some start) ∧ start ≤ weekBefore :=
      ⟨⟨-777600, 0, by decide +kernel⟩, eq_ok_of_toOption (by decide +kernel), by decide +kernel⟩
    have ⟨w, r, hw, hr, he⟩ := DurationBased.exists_evaluate_of_start? (standard .durationBased).tuning
      hs fun t i hm _ _ => fault?_weekSeries t i hm
    have ⟨hstart, _⟩ := DurationBased.recommend_bounds hr
    have ⟨hw, _⟩ := Window.bounds_of_ofSeries hw
    exact ⟨r, start, hget.trans (congrArg some (outcome_of_ok he)), hw ▸ hstart, hle⟩
  case capacityBased =>
    have hb : (default : Timestamp).daysBefore? mediumTerm.days.toNat = some weekBefore := by
      decide +kernel
    have hl : ¬CapacityBased.Lacks weekSeries mediumTerm default weekBefore := by
      intro hl
      cases hl
      case age he h _ =>
        injection he with he
        exact absurd (he ▸ h) (by decide +kernel)
      case intervals h => exact h _ _ List.mem_cons_self (by decide +kernel) (by decide +kernel)
    have ⟨r, he, hr⟩ := CapacityBased.evaluate_of_not_spoiled (standard .capacityBased).tuning hb hl (by
      rintro ⟨t, i, hm, _, _, hf⟩
      rw [fault?_weekSeries t i hm] at hf
      cases hf)
    have ⟨hstart, _⟩ := CapacityBased.recommend_bounds hr
    exact ⟨r, weekBefore, hget.trans (congrArg some (outcome_of_ok he)), hstart, Timestamp.le_rfl⟩

theorem recommend_widening_weekSeries :
    (default : Tuning).fault? = none ∧ weekSeries.size ≤ 2 ^ 53 ∧
    ∀ kind, ∃ r r' start start' q q',
      ((standard kind).recommend weekSeries default).get? "short_term" = some r ∧
      ((standard kind).recommend weekSeries default).get? "medium_term" = some r' ∧
      r.start = some start ∧ r'.start = some start' ∧ start' ≤ start ∧ r.pods ≤ r'.pods ∧
      r.config.get? .limits .memory = some q ∧ r'.config.get? .limits .memory = some q' ∧
      q.amount ≤ q'.amount := by
  refine ⟨Tuning.fault?_standard, by decide +kernel, ?_⟩
  intro kind
  have ⟨r, start, q, hr, hs, hle, hq⟩ := exists_narrow_weekSeries kind
  have ⟨r', start', hr', hs', hle'⟩ := exists_wide_weekSeries kind
  have hd := hasDistinctLabels_standard kind
  have hlast := Policy.last?_of_mem hd (shortTerm_mem_standard kind)
  have hlast' := Policy.last?_of_mem hd (mediumTerm_mem_standard kind)
  have ⟨hduration, hcapacity⟩ := recommend_widening Tuning.fault?_standard
    (show weekSeries.size ≤ 2 ^ 53 by decide +kernel) hlast hlast' hr hr' hs hs'
  obtain ⟨hpods, q', hq', ha⟩ : r.pods ≤ r'.pods ∧
      ∃ q', r'.config.get? .limits .memory = some q' ∧ q.amount ≤ q'.amount := by
    cases kind
    case durationBased =>
      have ⟨hpods, h⟩ := hduration rfl rfl (Timestamp.le_trans hle' hle)
      exact ⟨hpods, h _ _ hq⟩
    case capacityBased =>
      have ⟨hpods, h⟩ := hcapacity rfl rfl (by decide)
      exact ⟨hpods, h _ _ hq⟩
  exact ⟨r, r', start, start', q, q', hr, hr', hs, hs', Timestamp.le_trans hle' hle, hpods, hq, hq', ha⟩

end Week

end Engine

end ContainerSizing
