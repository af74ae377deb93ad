import ContainerSizing.Proofs.Binary64.Nonnegative
import ContainerSizing.Tuning

namespace ContainerSizing.Tuning

open Binary64

variable {t : Tuning}

theorem fault?_eq_none_iff_forall :
    t.fault? = none ↔ (∀ e ∈ t.percentiles, isPercentile e.2) ∧ ∀ e ∈ t.thresholds, isMeasure e.2 := by
  rw [fault?]
  split
  case h_1 name x h =>
    have hx : ¬isPercentile x := by simpa using List.find?_some h
    exact iff_of_false nofun fun hall => hx (hall.left (name, x) (List.mem_of_find?_eq_some h))
  case h_2 hp =>
    have hp : ∀ e ∈ t.percentiles, isPercentile e.2 := by simpa using List.find?_eq_none.mp hp
    split
    case h_1 name x h =>
      have hx : ¬isMeasure x := by simpa using List.find?_some h
      exact iff_of_false nofun fun hall => hx (hall.right (name, x) (List.mem_of_find?_eq_some h))
    case h_2 ht => exact iff_of_true rfl ⟨hp, by simpa using List.find?_eq_none.mp ht⟩

-- The thresholds and buffers of a tuning that has passed its check.
structure IsMeasured (t : Tuning) : Prop where
  oneCore      : isMeasure t.oneCore
  oneMillicore : isMeasure t.oneMillicore
  zeroCpu      : isMeasure t.zeroCpu
  usageBuffer  : isMeasure t.usageBuffer
  spikeBuffer  : isMeasure t.spikeBuffer

theorem isMeasured_of_fault? (h : t.fault? = none) : t.IsMeasured := by
  have ⟨_, hm⟩ := fault?_eq_none_iff_forall.mp h
  simp only [thresholds, List.forall_mem_cons] at hm
  obtain ⟨hcore, hmillicore, hzero, husage, hspike, -⟩ := hm
  exact ⟨hcore, hmillicore, hzero, husage, hspike⟩

theorem isPercentile_iff {x : Float} : isPercentile x ↔ 0.0 ≤ x ∧ x ≤ 100.0 := by
  simp [isPercentile]

structure IsUsable (t : Tuning) : Prop where
  percentiles : ∀ x ∈ [t.cpuPercentile, t.memoryPercentile, t.capacityPercentile], 0.0 ≤ x ∧ x ≤ 100.0
  thresholds  : ∀ x ∈ [t.oneCore, t.oneMillicore, t.zeroCpu, t.usageBuffer, t.spikeBuffer],
    x.isFinite ∧ 0.0 ≤ x

theorem fault?_eq_none_iff : t.fault? = none ↔ t.IsUsable := by
  have hp : (∀ e ∈ t.percentiles, isPercentile e.2) ↔
      ∀ x ∈ [t.cpuPercentile, t.memoryPercentile, t.capacityPercentile], 0.0 ≤ x ∧ x ≤ 100.0 := by
    rw [show [_, _, _] = t.percentiles.map (·.2) from rfl, List.forall_mem_map]
    simp only [isPercentile_iff]
  have hm : (∀ e ∈ t.thresholds, isMeasure e.2) ↔
      ∀ x ∈ [t.oneCore, t.oneMillicore, t.zeroCpu, t.usageBuffer, t.spikeBuffer],
        x.isFinite ∧ 0.0 ≤ x := by
    rw [show [_, _, _, _, _] = t.thresholds.map (·.2) from rfl, List.forall_mem_map]
    simp only [isMeasure_iff_le]
  rw [fault?_eq_none_iff_forall, hp, hm]
  exact ⟨fun ⟨hp, hm⟩ => ⟨hp, hm⟩, fun ⟨hp, hm⟩ => ⟨hp, hm⟩⟩

end ContainerSizing.Tuning
