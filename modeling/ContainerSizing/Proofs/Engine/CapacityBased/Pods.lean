import ContainerSizing.Proofs.Binary64.Truncation
import ContainerSizing.Proofs.Engine.Widening

namespace ContainerSizing

open Binary64 Statistics

-- An average of zero is the one case that is told apart, and it comes to the same.
theorem Statistics.pods_eq (sum average : Float) :
    pods sum average = (ceil (ratio sum average)).toUInt32 := by
  have hzero : (ceil 0.0).toUInt32 = 0 := by decide +kernel
  rw [pods, ratio]
  split
  · exact hzero.symm
  · rfl

namespace Window

open CapacityBased.Demand

variable {w : Window} {i : Interval} {t : Timestamp} {most : Float}

theorem intervalPods_eq (i : Interval) : intervalPods i = (ceil (podRatio .cpu i)).toUInt32 :=
  pods_eq _ _

theorem toNat_intervalPods (h : i.fault? t = none) :
    (intervalPods i).toNat = min ⌈value (podRatio .cpu i)⌉₊ (UInt32.size - 1) := by
  rw [intervalPods_eq, (isNonneg_podRatio h).toNat_toUInt32_ceil]

-- The pods of the interval with the largest ratio are in the window, and no interval has more.
theorem pods_eq_of_largest (hw : w.IsSound) (h : largest (w.values (podRatio .cpu)) = .ok most) :
    w.pods = (ceil most).toUInt32 := by
  obtain ⟨e, he, rfl⟩ := List.mem_map.mp (mem_of_largest h)
  have hn : ∀ a ∈ w.values (podRatio .cpu), IsNumber a :=
    forall_values hw fun _ _ hi => (isNonneg_podRatio hi).isNumber
  rw [← intervalPods_eq]
  apply UInt32.le_antisymm
  · refine pods_le_iff.mpr fun d hd => ?_
    have hle := value_le_of_le (le_of_largest hn h _ (mem_values _ hd))
    rw [UInt32.le_iff_toNat_le, toNat_intervalPods (hw d.1 d.2 hd), toNat_intervalPods (hw e.1 e.2 he)]
    exact min_le_min_right _ (Nat.ceil_mono hle)
  · exact pods_le_iff.mp UInt32.le_rfl e he

theorem toNat_pods_of_largest (hw : w.IsSound) (h : largest (w.values (podRatio .cpu)) = .ok most) :
    w.pods.toNat = min ⌈value most⌉₊ (UInt32.size - 1) := by
  rw [pods_eq_of_largest hw h]
  exact IsNonneg.toNat_toUInt32_ceil <|
    forall_values hw (fun _ _ hi => isNonneg_podRatio hi) _ (mem_of_largest h)

end Window

open CapacityBased CapacityBased.Demand

namespace Engine

theorem recommend_pods (engine : Engine) (series : Series) (stop : Timestamp) (label : String) :
    (∀ w : Window, w.IsSound → w.intervals ≠ [] →
      ∃ ratio, largest (w.values (podRatio .cpu)) = .ok ratio ∧ w.pods = (ceil ratio).toUInt32 ∧
        w.pods.toNat = min ⌈value ratio⌉₊ (UInt32.size - 1)) ∧
    (engine.kind = .capacityBased → ∀ r start,
      (engine.recommend series stop).get? label = some r → r.start = some start →
      ∃ w most ratio, Window.ofSeries series start stop = .ok w ∧
        largest (w.values (peak .cpu)) = .ok most ∧
        largest (w.values (podRatio .cpu)) = .ok ratio ∧
        r.pods = (ceil ratio).toUInt32 ∧ r.pods.toNat = min ⌈value ratio⌉₊ (UInt32.size - 1) ∧
        ∀ q, r.config.get? .limits .cpu = some q → q.amount = most * ratio) := by
  constructor
  case left =>
    intro w hw hne
    have ⟨ratio, h⟩ := exists_largest (Window.values_ne_nil hne (podRatio .cpu))
    exact ⟨ratio, h, Window.pods_eq_of_largest hw h, Window.toNat_pods_of_largest hw h⟩
  case right =>
    intro hk r start hr hs
    have ⟨term, _, _, ho⟩ := exists_outcome hr
    have he := evaluate_of_outcome ho (hs ▸ rfl)
    rw [evaluate_capacityBased hk] at he
    have ⟨w, hw, hrec⟩ := exists_window_of_evaluate he (hs ▸ rfl)
    have ⟨hstart, _, _, hpods, _⟩ := recommend_bounds hrec
    obtain rfl := Option.some.inj (hs.symm.trans hstart)
    have hsound := Window.isSound_of_ofSeries hw
    have ⟨d, hd⟩ := exists_ofResource hrec .cpu
    obtain ⟨_, _, most, hm, ratio, hratio, rfl⟩ := ofResource_eq_ok_iff.mp hd
    refine ⟨w, most, ratio, hw, hm, hratio, ?_, ?_, fun q hq => (amount_of_config hrec hd hq).left⟩
    · rw [hpods, Window.pods_eq_of_largest hsound hratio]
    · rw [hpods, Window.toNat_pods_of_largest hsound hratio]

section TwoHours

-- An hour with nothing in it, and one in which the average is so small that the ratio is infinite.

def sparseHour : Interval :=
  (Interval.bare 60.0).withMetric .cpuUsage ⟨1e-300, 1.0, 0.0, 1e300, "cores"⟩

def sparseSeries : Series :=
  SortedMap.ofList [(hourBefore, .bare 60.0), (default, sparseHour)]

theorem fault?_sparseSeries : ∀ t i, (t, i) ∈ sparseSeries.entries → i.fault? t = none := by
  have h : ∀ e ∈ sparseSeries.entries, e.2.fault? e.1 = none := by decide +kernel
  exact fun t i => h (t, i)

-- A series without faults that has an interval on its last day is sized by that day.
theorem exists_recommend_day {series : Series} {i : Interval} (hm : (default, i) ∈ series.entries)
    (hf : ∀ t i, (t, i) ∈ series.entries → i.fault? t = none) :
    ∃ r, ((standard .capacityBased).recommend series default).get? "short_term" = some r ∧
      r.start = some dayBefore := by
  have hb := start_eq_ok_iff.mp start_shortTerm
  have hl : ¬Lacks series ⟨"short_term", 1, 30.0⟩ default dayBefore := by
    intro hl
    cases hl
    case age hd => exact hd rfl
    case intervals h => exact h _ _ hm (by decide +kernel) (by decide +kernel)
  have hs : ¬IsSpoiled series default dayBefore := by
    rintro ⟨t, i, hi, _, _, hi'⟩
    rw [hf t i hi] at hi'
    cases hi'
  have ⟨r, hev, hrec⟩ := evaluate_of_not_spoiled (standard .capacityBased).tuning hb hl hs
  have ⟨hstart, _⟩ := recommend_bounds hrec
  refine ⟨r, ?_, hstart⟩
  exact (get?_recommend (hasDistinctLabels_standard _) (shortTerm_mem_standard _)).trans
    (congrArg some (outcome_of_ok hev))

theorem recommend_pods_sparseSeries :
    (standard .capacityBased).kind = .capacityBased ∧
    ∃ r, ((standard .capacityBased).recommend sparseSeries default).get? "short_term" = some r ∧
      r.start = some dayBefore ∧ r.pods = 4294967295 := by
  have hm : (default, sparseHour) ∈ sparseSeries.entries :=
    List.mem_cons_of_mem _ (List.mem_singleton_self _)
  have ⟨r, hr, hs⟩ := exists_recommend_day hm fault?_sparseSeries
  have ⟨_, hday⟩ := recommend_pods (standard .capacityBased) sparseSeries default "short_term"
  have ⟨w, _, ratio, hw, _, hratio, hpods, _⟩ := hday rfl r dayBefore hr hs
  rw [Window.values, Window.intervals_of_ofSeries hw] at hratio
  have hmost : largest ((sparseSeries.range dayBefore default).map fun e => podRatio .cpu e.2) =
      .ok (1e300 / 1e-300) := eq_ok_of_toOption (by decide +kernel)
  obtain rfl := Except.ok.inj (hratio.symm.trans hmost)
  refine ⟨rfl, r, hr, hs, ?_⟩
  rw [hpods]
  decide +kernel

end TwoHours

end Engine

end ContainerSizing
