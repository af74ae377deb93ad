import ContainerSizing.Proofs.Engine.CapacityBased
import ContainerSizing.Proofs.Engine.DurationBased.Accounting

namespace ContainerSizing

open Binary64 Statistics

namespace CapacityBased

namespace Demand

variable {res : Resource} {i : Interval} {t : Timestamp}

theorem isNonneg_peak (h : i.fault? t = none) : IsNonneg (peak res i) := by
  cases res
  case cpu => exact (Interval.isNonneg_value h _ _).add (Interval.isNonneg_value h _ _)
  case memory => exact Interval.isNonneg_value h _ _

theorem isNonneg_podRatio (h : i.fault? t = none) : IsNonneg (podRatio res i) := by
  have hn (s : Statistic) := Interval.isNonneg_value h (podMetric res) s
  have hf (s : Statistic) := Interval.isFinite_value h (podMetric res) s
  rw [podRatio, ratio]
  split
  case isTrue => exact isNonneg_zero
  case isFalse hz =>
    rw [beq_iff_value_eq (hn .average).isNumber isNumber_zero, value_zero] at hz
    exact (hn .total).div (hf .total) (hn .average) (hf .average) hz

end Demand

open Demand

variable {tuning : Tuning} {w : Window} {r : Recommendation} {s : Setting} {res : Resource} {d : Demand}
variable {q l : Quantity}

-- What is recommended for a slot is the amount that is called for, whatever the thresholds.
theorem amount_of_config (h : recommend tuning w = .ok r) (hd : ofResource tuning w res = .ok d)
    (hq : r.config.get? s res = some q) : q.amount = d.amount s ∧ d.amount s > 0.0 := by
  have ⟨cpu, memory, hc, hm, _, _, hr, _⟩ := recommend_eq_ok h
  rw [hr] at hq
  cases res
  case cpu =>
    obtain rfl : cpu = d := Except.ok.inj (hc.symm.trans hd)
    have ⟨hp, hq⟩ : cpu.amount s > 0.0 ∧ ⟨cpu.amount s, w.firstUnit [.cpuUsage]⟩ = q := by
      split_ifs at hq <;> simp [get?_place] at hq <;> exact hq
    exact ⟨hq ▸ rfl, hp⟩
  case memory =>
    obtain rfl : memory = d := Except.ok.inj (hm.symm.trans hd)
    have ⟨hp, hq⟩ : memory.amount s > 0.0 ∧
        ⟨memory.amount s, w.firstUnit [.memoryUsage, .memoryRss]⟩ = q := by
      split_ifs at hq <;> simp [get?_place] at hq <;> exact hq
    exact ⟨hq ▸ rfl, hp⟩

-- Usage up to this threshold is no usage.
def threshold (tuning : Tuning) : Resource → Float
  | .cpu    => tuning.zeroCpu
  | .memory => 0.0

-- A resource that calls for something has a place for every amount above zero.
theorem exists_config_of_not_isNone (h : recommend tuning w = .ok r)
    (hd : ofResource tuning w res = .ok d) (hn : ¬d.isNone (threshold tuning res))
    (hp : d.amount s > 0.0) : ∃ q, r.config.get? s res = some q := by
  have ⟨cpu, memory, hc, hm, _, _, hr, _⟩ := recommend_eq_ok h
  rw [hr]
  cases res
  case cpu =>
    obtain rfl : cpu = d := Except.ok.inj (hc.symm.trans hd)
    simp only [if_neg (show ¬cpu.isNone tuning.zeroCpu from hn)]
    split_ifs <;> simp [get?_place, hp]
  case memory =>
    obtain rfl : memory = d := Except.ok.inj (hm.symm.trans hd)
    simp only [if_neg (show ¬memory.isNone 0.0 from hn)]
    split_ifs <;> simp [get?_place, hp]

theorem amount_le_of_isNone {zero : Float} (h : d.isNone zero) : d.amount s ≤ zero := by
  simp only [isNone, Bool.and_eq_true, decide_eq_true_eq] at h
  cases s
  · exact h.left
  · exact h.right

section Comparison

variable (hw : w.IsSound) (hd : ofResource tuning w res = .ok d)
include hw hd

theorem capacity_le_most_iff :
    d.capacity ≤ d.most ↔
      nearestRank tuning.capacityPercentile w.size <
        w.intervals.countP fun e => used res e.2 ≤ d.most := by
  obtain ⟨_, hc, _, _, _, _, rfl⟩ := ofResource_eq_ok_iff.mp hd
  exact Window.percentile_le_iff
    (Window.forall_values hw fun _ _ h => (isNonneg_used h).isNumber) hc

theorem capacity_le_most (hn : IsNumber d.most)
    (h : ∀ e ∈ w.intervals, used res e.2 ≤ peak res e.2 * podRatio res e.2) :
    d.capacity ≤ d.most := by
  obtain ⟨capacity, hc, most, hm, pods, hp, rfl⟩ := ofResource_eq_ok_iff.mp hd
  obtain ⟨e, he, hcap⟩ := List.mem_map.mp (mem_of_percentile hc)
  have hf := hw e.1 e.2 he
  have hpeaks : ∀ y ∈ w.values (peak res), IsNonneg y :=
    Window.forall_values hw fun _ _ => isNonneg_peak
  have hpods : ∀ y ∈ w.values (podRatio res), IsNonneg y :=
    Window.forall_values hw fun _ _ => isNonneg_podRatio
  have hpeak := value_le_of_le <|
    le_of_largest (fun y hy => (hpeaks y hy).isNumber) hm _ (Window.mem_values _ he)
  have hpod := value_le_of_le <|
    le_of_largest (fun y hy => (hpods y hy).isNumber) hp _ (Window.mem_values _ he)
  have hmul := (isNonneg_peak hf).value_mul_le_mul (isNonneg_podRatio hf)
    (hpeaks most (mem_of_largest hm)) (hpods pods (mem_of_largest hp)) hpeak hpod hn
  have hle := h e he
  have ⟨hused, hprod⟩ := isNumber_of_le hle
  exact hcap ▸ Binary64.le_trans hle ((le_iff_value_le hprod hn).mpr hmul)

end Comparison

end CapacityBased

namespace Engine

variable {engine : Engine} {kind : EngineKind} {tuning : Tuning} {policy : Policy} {series : Series}
variable {stop : Timestamp} {label : String} {r : Recommendation} {s : Setting} {res : Resource}
variable {q l : Quantity}

-- A recommendation without a window says that there is too little data, or that something failed.
theorem cases_of_recommend (hr : (engine.recommend series stop).get? label = some r) :
    r = .notEnoughData ∨ (∃ error, r = .calculationFailed error) ∨ r.start.isSome := by
  have ⟨term, _, _, ho⟩ := exists_outcome hr
  cases he : engine.evaluate series term stop
  case error error =>
    rw [outcome_of_error he] at ho
    exact .inr (.inl ⟨error, ho.symm⟩)
  case ok r' =>
    obtain rfl := (outcome_of_ok he).symm.trans ho
    cases hk : engine.kind
    case durationBased =>
      rw [evaluate_durationBased hk] at he
      refine (DurationBased.evaluate_cases he).imp_right fun ⟨w, _, _, h⟩ => .inr ?_
      rw [(DurationBased.recommend_bounds h).left]
      rfl
    case capacityBased =>
      rw [evaluate_capacityBased hk] at he
      refine (CapacityBased.evaluate_cases he).imp_right fun ⟨w, _, h⟩ => .inr ?_
      rw [(CapacityBased.recommend_bounds h).left]
      rfl

theorem isSome_start_of_config (hr : (engine.recommend series stop).get? label = some r)
    (hq : r.config.get? s res = some q) : r.start.isSome := by
  rcases cases_of_recommend hr with rfl | ⟨error, rfl⟩ | hs
  case inr.inr => exact hs
  all_goals
    have hn : (∅ : Allocation).get? s res = some q := hq
    rw [Allocation.get?_empty] at hn
    cases hn

open CapacityBased.Demand in
theorem recommend_requests_le_limits (he : build kind tuning policy = .ok engine)
    (hr : (engine.recommend series stop).get? label = some r)
    (hq : r.config.get? .requests res = some q) (hl : r.config.get? .limits res = some l) :
    (kind = .durationBased → q.amount ≤ l.amount) ∧
    (kind = .capacityBased → ∃ start, r.start = some start ∧
      (q.amount ≤ l.amount ↔
        nearestRank tuning.capacityPercentile (series.range start stop).length <
          (series.range start stop).countP fun e => used res e.2 ≤ l.amount) ∧
      ((∀ e ∈ series.range start stop, used res e.2 ≤ peak res e.2 * podRatio res e.2) →
        q.amount ≤ l.amount)) := by
  have hs := isSome_start_of_config hr hq
  have ⟨ht, hp, he⟩ := build_eq_ok_iff.mp he
  have hd := Policy.hasDistinctLabels_of_fault? hp
  have hk : engine.kind = kind := he ▸ rfl
  have htuning : engine.tuning = tuning := he ▸ rfl
  have ⟨term, _, _, hev⟩ := exists_evaluate (he ▸ hd) hr hs
  constructor
  case left =>
    intro hd
    rw [evaluate_durationBased (hk.trans hd), htuning] at hev
    have ha := DurationBased.accounted_of_evaluate ht hev hs
    obtain rfl : l = q := Option.some.inj (hl.symm.trans ((ha.limits_eq res).trans hq))
    have hn := (isNumber_of_lt (ha.amount_pos _ _ _ hq)).right
    exact (le_iff_value_le hn hn).mpr le_rfl
  case right =>
    intro hc
    rw [evaluate_capacityBased (hk.trans hc), htuning] at hev
    have ⟨w, hw, hr⟩ := CapacityBased.exists_window_of_evaluate hev hs
    have ⟨_, _, _, _, hstart, _⟩ := CapacityBased.recommend_eq_ok hr
    have ⟨d, hd⟩ := CapacityBased.exists_ofResource hr res
    have ⟨hqa, _⟩ := CapacityBased.amount_of_config hr hd hq
    have ⟨hla, hpos⟩ := CapacityBased.amount_of_config hr hd hl
    have hsound := Window.isSound_of_ofSeries hw
    have hn : IsNumber d.most := (isNumber_of_lt hpos).right
    refine ⟨w.start, hstart, ?_⟩
    rw [hqa, hla, ← Window.intervals_of_ofSeries hw]
    exact ⟨CapacityBased.capacity_le_most_iff hsound hd, CapacityBased.capacity_le_most hsound hd hn⟩

section OneHour

-- A container that uses its memory, and one that keeps more of it resident than it uses.

def usedHour : Interval :=
  ((Interval.bare 60.0).withMetric .memoryUsage ⟨2.0, 2.0, 2.0, 2.0, "MiB"⟩).withMetric .memoryRss
    ⟨1.0, 1.0, 1.0, 1.0, "MiB"⟩

def keptHour : Interval :=
  ((Interval.bare 60.0).withMetric .memoryUsage ⟨1.0, 1.0, 1.0, 1.0, "MiB"⟩).withMetric .memoryRss
    ⟨2.0, 2.0, 2.0, 2.0, "MiB"⟩

def hourSeries (i : Interval) : Series :=
  SortedMap.ofList [(default, i)]

-- The memory that is recommended for an hour passes a test.
def memoryPasses (i : Interval) (kind : EngineKind) (test : Quantity → Quantity → Bool) : Bool :=
  (((standard kind).recommend (hourSeries i) default).get? "short_term").any fun r =>
    (r.config.get? .requests .memory).any fun q => (r.config.get? .limits .memory).any (test q)

theorem exists_of_memoryPasses (i : Interval) (kind : EngineKind) (test : Quantity → Quantity → Bool)
    (h : memoryPasses i kind test) :
    ∃ r q l, ((standard kind).recommend (hourSeries i) default).get? "short_term" = some r ∧
      r.config.get? .requests .memory = some q ∧ r.config.get? .limits .memory = some l ∧ test q l := by
  simp only [memoryPasses, Option.any_eq_true] at h
  obtain ⟨r, hr, q, hq, l, hl, ht⟩ := h
  exact ⟨r, q, l, hr, hq, hl, ht⟩

theorem used_le_usedHour {start : Timestamp} :
    ∀ e ∈ (hourSeries usedHour).range start default, CapacityBased.Demand.used .memory e.2 ≤
      CapacityBased.Demand.peak .memory e.2 * CapacityBased.Demand.podRatio .memory e.2 := by
  intro e he
  obtain rfl := List.mem_singleton.mp (Series.mem_range he).left
  decide +kernel

theorem recommend_requests_le_limits_usedHour :
    build .durationBased default .standard = .ok (standard .durationBased) ∧
    build .capacityBased default .standard = .ok (standard .capacityBased) ∧
    ∀ kind, ∃ r q l,
      ((standard kind).recommend (hourSeries usedHour) default).get? "short_term" = some r ∧
      r.config.get? .requests .memory = some q ∧ r.config.get? .limits .memory = some l ∧
      q.amount ≤ l.amount := by
  refine ⟨build_standard _, build_standard _, ?_⟩
  intro kind
  cases kind
  case durationBased =>
    obtain ⟨r, q, l, hr, hq, hl, _⟩ := exists_of_memoryPasses usedHour .durationBased
      (fun _ _ => true) (by decide +kernel)
    have hle := (recommend_requests_le_limits (build_standard _) hr hq hl).left rfl
    exact ⟨r, q, l, hr, hq, hl, hle⟩
  case capacityBased =>
    obtain ⟨r, q, l, hr, hq, hl, _⟩ := exists_of_memoryPasses usedHour .capacityBased
      (fun _ _ => true) (by decide +kernel)
    have ⟨_, _, _, hle⟩ := (recommend_requests_le_limits (build_standard _) hr hq hl).right rfl
    exact ⟨r, q, l, hr, hq, hl, hle used_le_usedHour⟩

theorem not_forall_requests_le_limits :
    ¬∀ (kind : EngineKind) (tuning : Tuning) (policy : Policy) (engine : Engine) (series : Series)
      (stop : Timestamp) (label : String) (r : Recommendation) (res : Resource) (q l : Quantity),
      build kind tuning policy = .ok engine →
      (engine.recommend series stop).get? label = some r →
      r.config.get? .requests res = some q → r.config.get? .limits res = some l →
      q.amount ≤ l.amount := by
  intro h
  obtain ⟨r, q, l, hr, hq, hl, ht⟩ := exists_of_memoryPasses keptHour .capacityBased
    (fun q l => ¬q.amount ≤ l.amount) (by decide +kernel)
  exact of_decide_eq_true ht (h _ _ _ _ _ _ _ r _ q l (build_standard _) hr hq hl)

end OneHour

end Engine

end ContainerSizing
