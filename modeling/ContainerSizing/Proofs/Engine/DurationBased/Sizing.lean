import ContainerSizing.Proofs.Engine.DurationBased.Outcome

namespace ContainerSizing

open Binary64 Statistics

namespace DurationBased

variable {tuning : Tuning} {w : Window} {t : Timestamp} {i : Interval} {x : Float} {z : Sizing}

section Cases

-- All that a sizing can come to.

theorem cpuUsage_cases (h : cpuUsage tuning w = .ok x) :
    ∃ most, largest (w.values (cpuCandidate tuning)) = .ok most ∧
      (most < tuning.oneCore ∧ x = most ∨
        ¬most < tuning.oneCore ∧
          percentile tuning.cpuPercentile (w.values (cpuCandidate tuning)) = .ok x) := by
  have ⟨most, hm, h⟩ := bind_eq_ok_iff.mp h
  refine ⟨most, hm, ?_⟩
  split_ifs at h with hlt
  · injection h with h
    exact .inl ⟨hlt, h.symm⟩
  · exact .inr ⟨hlt, h⟩

theorem mem_of_cpuUsage (h : cpuUsage tuning w = .ok x) : x ∈ w.values (cpuCandidate tuning) := by
  obtain ⟨most, hm, ⟨_, rfl⟩ | ⟨_, hp⟩⟩ := cpuUsage_cases h
  · exact mem_of_largest hm
  · exact mem_of_percentile hp

theorem sizeCpu_cases (h : sizeCpu tuning w = .ok z) :
    ∃ usage, cpuUsage tuning w = .ok usage ∧
      (usage == tuning.zeroCpu ∧ z = .error .cpuRecordsAreZero ∨
        ¬usage == tuning.zeroCpu ∧ usage ≤ tuning.oneMillicore ∧ z = .error .cpuRecordsAreIdle ∨
        ¬usage == tuning.zeroCpu ∧ ¬usage ≤ tuning.oneMillicore ∧
          z = .ok ⟨usage, w.firstUnit [.cpuUsage]⟩) := by
  have ⟨usage, hu, h⟩ := bind_eq_ok_iff.mp h
  refine ⟨usage, hu, ?_⟩
  split_ifs at h with hzero hidle <;> injection h with h
  · exact .inl ⟨hzero, h.symm⟩
  · exact .inr (.inl ⟨hzero, hidle, h.symm⟩)
  · exact .inr (.inr ⟨hzero, hidle, h.symm⟩)

theorem sizeMemory_cases (h : sizeMemory tuning w = .ok z) :
    ∃ signals, MemorySignals.ofWindow tuning w = .ok signals ∧
      (signals.request tuning == 0.0 ∧ z = .error .memoryRecordsAreZero ∨
        ¬signals.request tuning == 0.0 ∧
          z = .ok ⟨signals.request tuning, w.firstUnit [.memoryUsage]⟩) := by
  have ⟨signals, hs, h⟩ := bind_eq_ok_iff.mp h
  refine ⟨signals, hs, ?_⟩
  simp only at h
  split_ifs at h with hzero <;> injection h with h
  · exact .inl ⟨hzero, h.symm⟩
  · exact .inr ⟨hzero, h.symm⟩

end Cases

section Nonneg

theorem isNonneg_peak (h : i.fault? t = none) (m : Metric) : IsNonneg (peak i m) := by
  simp only [peak]
  split
  · exact (Interval.isNonneg_value h m .average).larger
  · exact Interval.isNonneg_value h m .average

theorem isNonneg_cpuCandidate (h : i.fault? t = none) : IsNonneg (cpuCandidate tuning i) := by
  have hp : IsNonneg (peakTotal i) := (isNonneg_peak h _).add (isNonneg_peak h _)
  simp only [cpuCandidate]
  split
  · exact hp
  · exact hp.larger

theorem isNonneg_candidates (hw : w.IsSound) : ∀ y ∈ w.values (cpuCandidate tuning), IsNonneg y :=
  Window.forall_values hw fun _ _ => isNonneg_cpuCandidate

theorem isNumber_candidates (hw : w.IsSound) : ∀ y ∈ w.values (cpuCandidate tuning), IsNumber y :=
  fun y hy => (isNonneg_candidates hw y hy).isNumber

theorem isNonneg_cpuUsage (hw : w.IsSound) (h : cpuUsage tuning w = .ok x) : IsNonneg x :=
  isNonneg_candidates hw x (mem_of_cpuUsage h)

theorem isNonneg_buffered {buffer : Float} (hb : isMeasure buffer) (hx : IsNonneg x) :
    IsNonneg (x * (1.0 + buffer)) :=
  have ⟨hf, hp⟩ := isFinite_one_add hb
  hx.mul hf hp

theorem signals_eq_ok_iff {s : MemorySignals} :
    MemorySignals.ofWindow tuning w = .ok s ↔
      percentile tuning.memoryPercentile (w.values memoryUsageSignal) = .ok s.usage ∧
        percentile tuning.memoryPercentile (w.values memorySpikeSignal) = .ok s.spike := by
  obtain ⟨usage, spike⟩ := s
  simp [MemorySignals.ofWindow, bind_eq_ok_iff, pure, Except.pure]

theorem isNonneg_signals {s : MemorySignals} (hw : w.IsSound)
    (h : MemorySignals.ofWindow tuning w = .ok s) : IsNonneg s.usage ∧ IsNonneg s.spike :=
  have ⟨hu, hs⟩ := signals_eq_ok_iff.mp h
  ⟨Window.forall_values hw (fun _ _ h => (Interval.isNonneg_value h _ _).larger) _ (mem_of_percentile hu),
    Window.forall_values hw (fun _ _ _ => isNonneg_zero.larger) _ (mem_of_percentile hs)⟩

theorem isNonneg_spiked {s : MemorySignals} (ht : tuning.fault? = none) (hu : IsNonneg s.usage)
    (hs : IsNonneg s.spike) : IsNonneg (s.spiked tuning) :=
  hu.add (isNonneg_buffered (Tuning.isMeasured_of_fault? ht).spikeBuffer hs)

theorem isNonneg_request {s : MemorySignals} (ht : tuning.fault? = none) (hw : w.IsSound)
    (h : MemorySignals.ofWindow tuning w = .ok s) : IsNonneg (s.request tuning) :=
  have ⟨hu, hs⟩ := isNonneg_signals hw h
  have hb := (Tuning.isMeasured_of_fault? ht).usageBuffer
  (isNonneg_buffered hb hu).smaller (isNonneg_spiked ht hu hs)

end Nonneg

-- What is known of a sizing, whatever it was made of.
structure IsSizing (reasons : List NotificationKind) (z : Sizing) : Prop where
  amount : ∀ q, z = .ok q → IsNonneg q.amount ∧ q.amount > 0.0
  reason : ∀ kind, z = .error kind → kind ∈ reasons

theorem IsSizing.ok {reasons : List NotificationKind} {q : Quantity} (hn : IsNonneg q.amount)
    (hp : q.amount > 0.0) : IsSizing reasons (.ok q) where
  amount := by
    rintro _ ⟨⟩
    exact ⟨hn, hp⟩
  reason := nofun

theorem IsSizing.error {reasons : List NotificationKind} {kind : NotificationKind}
    (h : kind ∈ reasons) : IsSizing reasons (.error kind) where
  amount := nofun
  reason := by
    rintro _ ⟨⟩
    exact h

theorem isSizing_cpu (ht : tuning.fault? = none) (hw : w.IsSound) (h : sizeCpu tuning w = .ok z) :
    IsSizing [.cpuRecordsAreZero, .cpuRecordsAreIdle] z := by
  obtain ⟨usage, hu, ⟨_, rfl⟩ | ⟨_, _, rfl⟩ | ⟨_, hidle, rfl⟩⟩ := sizeCpu_cases h
  · exact .error (by simp)
  · exact .error (by simp)
  · have hn := isNonneg_cpuUsage hw hu
    have hone := IsNonneg.of_isMeasure (Tuning.isMeasured_of_fault? ht).oneMillicore
    rw [le_iff_value_le hn.isNumber hone.isNumber, not_le] at hidle
    exact .ok hn ((pos_iff_value_pos hn.isNumber).mpr (hone.nonneg.trans_lt hidle))

theorem isSizing_memory (ht : tuning.fault? = none) (hw : w.IsSound)
    (h : sizeMemory tuning w = .ok z) : IsSizing [.memoryRecordsAreZero] z := by
  obtain ⟨signals, hs, ⟨_, rfl⟩ | ⟨hzero, rfl⟩⟩ := sizeMemory_cases h
  · exact .error (by simp)
  · have hn := isNonneg_request ht hw hs
    rw [beq_iff_value_eq hn.isNumber isNumber_zero, value_zero] at hzero
    exact .ok hn ((pos_iff_value_pos hn.isNumber).mpr (hn.nonneg.lt_of_ne (Ne.symm hzero)))

end DurationBased

end ContainerSizing
