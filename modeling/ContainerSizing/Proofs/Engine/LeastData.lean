import ContainerSizing.Proofs.Binary64.Sum
import ContainerSizing.Proofs.Engine.DurationBased.Outcome

namespace ContainerSizing

open Binary64

section Loops

variable {goal collected : Float} {is : List Interval} {es : List (Timestamp × Interval)}

-- Collecting stops early, but no later number takes away from what has been collected.
theorem Engine.collects_iff (hc : IsNonneg collected) (h : ¬goal ≤ collected) :
    collects goal collected is ↔
      goal ≤ accumulate collected ((is.map Interval.minutes).filter isMeasure) := by
  induction is generalizing collected
  case nil => simpa [collects] using h
  case cons i is hi =>
    rw [collects, List.map_cons]
    by_cases hm : isMeasure i.minutes
    case neg =>
      rw [if_neg hm, List.filter_cons_of_neg hm]
      exact hi hc h
    case pos =>
      have hadd := hc.add (IsNonneg.of_isMeasure hm)
      rw [if_pos hm, List.filter_cons_of_pos hm, accumulate_cons]
      by_cases hge : goal ≤ collected + i.minutes
      case pos => exact iff_of_true (by simp [hge]) (le_accumulate hadd IsNonneg.of_mem_filter hge)
      case neg => simpa [hge] using hi hadd hge

-- A walk without bad durations stops where the minutes are complete, if they ever are.
theorem Walk.exists_stops_iff (hc : IsNonneg collected) (h : ¬goal ≤ collected)
    (hm : ∀ e ∈ es, isMeasure e.2.minutes) :
    (∃ e n, Stops goal collected es n e) ↔
      goal ≤ accumulate collected (es.map fun e => e.2.minutes) := by
  induction es generalizing collected
  case nil =>
    refine iff_of_false ?_ (by simpa using h)
    exact fun ⟨_, _, hs⟩ => Stops.not_nil hs
  case cons d es hi =>
    have ⟨hd, hes⟩ := List.forall_mem_cons.mp hm
    have hadd := hc.add (IsNonneg.of_isMeasure hd)
    have hrest : ∀ x ∈ es.map fun e => e.2.minutes, IsNonneg x :=
      List.forall_mem_map.mpr fun e he => .of_isMeasure (hes e he)
    rw [List.map_cons, accumulate_cons]
    by_cases hge : goal ≤ collected + d.2.minutes
    case pos => exact iff_of_true ⟨d, 0, .zero (.inr hge)⟩ (le_accumulate hadd hrest hge)
    case neg =>
      have hends : ¬EndsAt goal collected [] d := not_or.mpr ⟨not_not.mpr hd, hge⟩
      rw [exists_congr fun e => Stops.exists_cons_iff hends]
      exact hi hadd hge hes

end Loops

namespace Series

variable {series : Series} {stop latest t : Timestamp} {i : Interval}

-- The durations of all intervals in chronological order.
def durations (series : Series) : List Float :=
  series.values.map Interval.minutes

theorem le_of_latest? (h : series.latest? = some latest) (hm : (t, i) ∈ series.entries) :
    t ≤ latest :=
  (latest?_eq_some_iff.mp h).right t (List.mem_map.mpr ⟨(t, i), hm, rfl⟩)

-- A new instant leaves all durations where they are, and puts one between them.
theorem sublist_durations_insert (h : series.get? t = none) :
    series.durations.Sublist (durations (series.insert t i)) :=
  ((SortedMap.sublist_entries_insert h).map _).map _

theorem untilDesc_eq_reverse (h : ∀ t i, (t, i) ∈ series.entries → t ≤ stop) :
    series.untilDesc stop = series.entries.reverse := by
  rw [untilDesc, List.filter_eq_self.mpr fun e he => decide_eq_true (h e.1 e.2 he)]

theorem map_minutes_untilDesc (h : ∀ t i, (t, i) ∈ series.entries → t ≤ stop) :
    (series.untilDesc stop).map (fun e => e.2.minutes) = series.durations.reverse := by
  rw [untilDesc_eq_reverse h, durations, SortedMap.values, List.map_map, List.map_reverse]
  rfl

end Series

namespace Engine

variable {engine : Engine} {series : Series} {stop : Timestamp} {term : Term} {least : Float}

-- The walk of some term finds enough minutes for it, or a reason to fail.
def FindsData (engine : Engine) (series : Series) (stop : Timestamp) : Prop :=
  ∃ term ∈ engine.policy.terms, (Walk.ofTerm series term stop).start? ≠ .ok none

theorem not_le_zero_of_pos {x : Float} (h : x > 0.0) : ¬x ≤ 0.0 := by
  have hn := (isNumber_of_lt h).right
  exact mt (not_pos_iff_le_zero hn).mpr (not_not.mpr h)

theorem hasLeastData_iff (hb : engine.policy.leastBound? = some least) (hpos : least > 0.0) :
    engine.hasLeastData series ↔ least ≤ accumulate 0.0 (series.durations.filter isMeasure) := by
  rw [hasLeastData, hb]
  exact collects_iff isNonneg_zero (not_le_zero_of_pos hpos)

theorem start?_ne_none_iff (hm : ∀ t i, (t, i) ∈ series.entries → isMeasure i.minutes)
    (hs : ∀ t i, (t, i) ∈ series.entries → t ≤ stop) (hpos : term.leastMinutes > 0.0) :
    (Walk.ofTerm series term stop).start? ≠ .ok none ↔
      term.leastMinutes ≤ accumulate 0.0 series.durations.reverse := by
  have hm : ∀ e ∈ series.untilDesc stop, isMeasure e.2.minutes :=
    fun e he => hm e.1 e.2 (Series.mem_untilDesc.mp he).left
  have hiff := Walk.exists_stops_iff isNonneg_zero (not_le_zero_of_pos hpos) hm
  rw [Series.map_minutes_untilDesc hs] at hiff
  rw [ne_eq, DurationBased.start?_eq_none_iff, not_forall, ← hiff]
  simp only [not_not]
  rfl

section Sums

variable {xs ys : List Float}

theorem le_accumulate_iff (hn : IsNumber least) (hx : ∀ x ∈ xs, IsNonneg x) :
    least ≤ accumulate 0.0 xs ↔ least ≤ sum xs := by
  rw [le_iff_value_le hn (isNonneg_accumulate isNonneg_zero hx).isNumber,
    le_iff_value_le hn (isNonneg_sum hx).isNumber, value_sum hx]

-- A bound that is clear of the rounding errors is on the same side of all sums of the same numbers.

theorem le_sum_of_le (hn : IsNumber least) (hx : ∀ x ∈ xs, IsNonneg x)
    (h : value least ≤ (1 - roundoff) ^ xs.length * (xs.map value).sum) : least ≤ sum xs := by
  rw [le_iff_value_le hn (isNonneg_sum hx).isNumber]
  exact (le_min (value_le_limit least) h).trans (le_value_sum hx)

theorem not_le_sum_of_lt (hn : IsNumber least) (hx : ∀ x ∈ xs, IsNonneg x)
    (h : (1 + roundoff) ^ xs.length * (xs.map value).sum < value least) : ¬least ≤ sum xs := by
  rw [le_iff_value_le hn (isNonneg_sum hx).isNumber, not_le]
  exact (value_sum_le hx).trans_lt h

end Sums

section Growth

variable {t : Timestamp} {i : Interval}
variable (hb : engine.policy.leastBound? = some least) (hpos : least > 0.0)
include hb hpos

theorem hasLeastData_iff_sum :
    engine.hasLeastData series ↔ least ≤ sum (series.durations.filter isMeasure) := by
  rw [hasLeastData_iff hb hpos]
  exact le_accumulate_iff (isNumber_of_lt hpos).right IsNonneg.of_mem_filter

theorem hasLeastData_iff_totalMinutes (hm : ∀ x ∈ series.durations, isMeasure x) :
    engine.hasLeastData series ↔ least ≤ series.totalMinutes := by
  rw [hasLeastData_iff_sum hb hpos, List.filter_eq_self.mpr hm]
  rfl

theorem not_hasLeastData_empty : ¬engine.hasLeastData ∅ := by
  rw [hasLeastData_iff hb hpos]
  exact not_le_zero_of_pos hpos

-- The new duration is rounded into every later sum, but takes away from none of them.
theorem hasLeastData_insert (h : series.get? t = none) (hd : engine.hasLeastData series) :
    engine.hasLeastData (series.insert t i) := by
  have hn : IsNumber least := (isNumber_of_lt hpos).right
  have hsub := (Series.sublist_durations_insert (i := i) h).filter isMeasure
  have hnumber (xs : List Float) : IsNumber (accumulate 0.0 (xs.filter isMeasure)) :=
    (isNonneg_accumulate isNonneg_zero IsNonneg.of_mem_filter).isNumber
  rw [hasLeastData_iff hb hpos, le_iff_value_le hn (hnumber _)] at hd ⊢
  exact hd.trans (value_accumulate_le_of_sublist hsub isNonneg_zero IsNonneg.of_mem_filter)

end Growth

-- The check stops early and passes over bad durations, and yet compares the least bound with the sum of
-- all the others. It never fails for having more data.
theorem hasLeastData_compares_sum (hp : engine.policy.fault? = none) :
    ∃ least, engine.policy.leastBound? = some least ∧
      (∃ t ∈ engine.policy.terms, t.leastMinutes = least) ∧
      (∀ t ∈ engine.policy.terms, least ≤ t.leastMinutes) ∧
      (∀ series, engine.hasLeastData series ↔ least ≤ sum (series.durations.filter isMeasure)) ∧
      (∀ series : Series, (∀ x ∈ series.durations, isMeasure x) →
        (engine.hasLeastData series ↔ least ≤ series.totalMinutes)) ∧
      ¬engine.hasLeastData ∅ ∧
      ∀ (series : Series) (t : Timestamp) (i : Interval), series.get? t = none →
        engine.hasLeastData series → engine.hasLeastData (series.insert t i) := by
  have ⟨least, hb, hpos, hmem, hle⟩ := Policy.exists_leastBound hp
  exact ⟨least, hb, hmem, hle, fun _ => hasLeastData_iff_sum hb hpos,
    fun _ => hasLeastData_iff_totalMinutes hb hpos, not_hasLeastData_empty hb hpos,
    fun _ _ _ => hasLeastData_insert hb hpos⟩

-- An hour whose length is no number.
def unmeasuredHour : Interval :=
  .bare (0.0 / 0.0)

theorem hasLeastData_compares_sum_unmeasuredHour :
    (standard .durationBased).policy.fault? = none ∧ measuredSeries.get? nextHour = none ∧
    (standard .durationBased).hasLeastData measuredSeries ∧
    (standard .durationBased).hasLeastData (measuredSeries.insert nextHour unmeasuredHour) ∧
    (∃ least, least ≤ measuredSeries.totalMinutes) ∧ ¬(standard .durationBased).hasLeastData ∅ := by
  have hp : (standard .durationBased).policy.fault? = none := Policy.fault?_standard
  have hnone : measuredSeries.get? nextHour = none := by decide +kernel
  have hm : ∀ x ∈ measuredSeries.durations, isMeasure x := by decide +kernel
  have hdata : (standard .durationBased).hasLeastData measuredSeries := by decide +kernel
  have ⟨least, _, _, _, _, htotal, hempty, hinsert⟩ := hasLeastData_compares_sum hp
  exact ⟨hp, hnone, hdata, hinsert _ _ _ hnone hdata, ⟨least, (htotal _ hm).mp hdata⟩, hempty⟩

theorem hasLeastData_iff_findsData (hp : engine.policy.fault? = none)
    (hm : ∀ t i, (t, i) ∈ series.entries → isMeasure i.minutes)
    (hs : ∀ latest, series.latest? = some latest → latest ≤ stop) :
    ∃ least, engine.policy.leastBound? = some least ∧
      (engine.hasLeastData series ↔ least ≤ series.totalMinutes) ∧
      (engine.FindsData series stop ↔ least ≤ sum series.durations.reverse) ∧
      (value least ≤ (1 - roundoff) ^ series.size * (series.durations.map value).sum ∨
          (1 + roundoff) ^ series.size * (series.durations.map value).sum < value least →
        (engine.hasLeastData series ↔ engine.FindsData series stop)) ∧
      ∀ e : ℤ, -1074 ≤ e → e ≤ 971 → (∀ x ∈ series.durations, ∃ n : ℕ, value x = n * 2 ^ e) →
        (series.durations.map value).sum ≤ 2 ^ (e + 53) →
        (engine.hasLeastData series ↔ engine.FindsData series stop) := by
  have ⟨least, hb, hpos, ⟨term, ht, hterm⟩, hle⟩ := Policy.exists_leastBound hp
  have hn : IsNumber least := (isNumber_of_lt hpos).right
  have hmeasure : ∀ x ∈ series.durations, isMeasure x := by
    intro x hx
    obtain ⟨i, hi, rfl⟩ := List.mem_map.mp hx
    obtain ⟨⟨t, i⟩, he, rfl⟩ := List.mem_map.mp hi
    exact hm t i he
  have hx : ∀ x ∈ series.durations, IsNonneg x := fun x hx => .of_isMeasure (hmeasure x hx)
  have hx' : ∀ x ∈ series.durations.reverse, IsNonneg x := fun x h => hx x (List.mem_reverse.mp h)
  have hstop : ∀ t i, (t, i) ∈ series.entries → t ≤ stop := by
    intro t i he
    obtain ⟨latest, hl⟩ : ∃ latest, series.latest? = some latest := by
      refine Option.isSome_iff_exists.mp (List.getLast?_isSome.mpr ?_)
      exact List.ne_nil_of_mem (List.mem_map.mpr ⟨(t, i), he, rfl⟩)
    exact Timestamp.le_trans (Series.le_of_latest? hl he) (hs latest hl)
  have hascending : engine.hasLeastData series ↔ least ≤ series.totalMinutes :=
    hasLeastData_iff_totalMinutes hb hpos hmeasure
  have hdescending : engine.FindsData series stop ↔ least ≤ sum series.durations.reverse := by
    rw [← le_accumulate_iff hn hx']
    constructor
    · rintro ⟨t, ht, hw⟩
      rw [start?_ne_none_iff hm hstop (Policy.bound_pos_of_fault? hp |>.right t ht)] at hw
      exact Binary64.le_trans (hle t ht) hw
    · intro h
      refine ⟨term, ht, ?_⟩
      rwa [start?_ne_none_iff hm hstop (hterm ▸ hpos), hterm]
  have hsize : series.durations.length = series.size := by
    simp [Series.durations, SortedMap.values, SortedMap.size]
  refine ⟨least, hb, hascending, hdescending, ?clear, ?exact⟩
  case clear =>
    rw [hascending, hdescending, ← hsize]
    rintro (h | h)
    · exact iff_of_true (le_sum_of_le hn hx h) (le_sum_of_le hn hx' (by simpa using h))
    · exact iff_of_false (not_le_sum_of_lt hn hx h) (not_le_sum_of_lt hn hx' (by simpa using h))
  case exact =>
    intro e he he' hm hsum
    have hv : value (sum series.durations.reverse) = value (sum series.durations) := by
      rw [value_sum_eq hx he he' hm hsum, value_sum_eq hx' he he' (by simpa using hm) (by simpa using hsum)]
      simp
    rw [hascending, hdescending, le_iff_value_le hn (isNonneg_sum hx').isNumber, hv,
      ← le_iff_value_le hn (isNonneg_sum hx).isNumber]
    rfl

theorem hasLeastData_iff_findsData_measuredSeries :
    (standard .durationBased).policy.fault? = none ∧
    (∀ t i, (t, i) ∈ measuredSeries.entries → isMeasure i.minutes) ∧
    (∀ latest, measuredSeries.latest? = some latest → latest ≤ default) ∧
    (standard .durationBased).hasLeastData measuredSeries ∧
    (standard .durationBased).FindsData measuredSeries default := by
  have hm : ∀ t i, (t, i) ∈ measuredSeries.entries → isMeasure i.minutes := by
    intro t i hm
    obtain ⟨rfl, rfl⟩ := Prod.mk.inj (List.mem_singleton.mp hm)
    rfl
  have hs : ∀ latest, measuredSeries.latest? = some latest → latest ≤ default := by
    intro latest hl
    obtain rfl : default = latest := Option.some.inj hl
    exact Timestamp.le_rfl
  have hp : (standard .durationBased).policy.fault? = none := Policy.fault?_standard
  have ⟨_, _, hascending, hdescending, _⟩ := hasLeastData_iff_findsData hp hm hs
  have hdata : (standard .durationBased).hasLeastData measuredSeries := by decide +kernel
  exact ⟨hp, hm, hs, hdata, hdescending.mpr (hascending.mp hdata)⟩

section Tenths

-- The sum of these minutes is rounded up from the left, and down from the right.

def tenthsSeries : Series :=
  SortedMap.ofList [(hourBefore, .bare 0.1), (default, .bare 0.2), (nextHour, .bare 0.3)]

def tenthsEngine : Engine :=
  ⟨.durationBased, default, ⟨[⟨"short_term", 1, 0.6000000000000001⟩]⟩⟩

theorem not_forall_hasLeastData_iff_findsData :
    ¬∀ (engine : Engine) (series : Series) (stop : Timestamp), engine.policy.fault? = none →
      (∀ t i, (t, i) ∈ series.entries → isMeasure i.minutes) →
      (∀ latest, series.latest? = some latest → latest ≤ stop) →
      (engine.hasLeastData series ↔ engine.FindsData series stop) := by
  intro h
  have hm : ∀ e ∈ tenthsSeries.entries, isMeasure e.2.minutes := by decide +kernel
  have hs : ∀ latest, tenthsSeries.latest? = some latest → latest ≤ nextHour := by
    intro latest hl
    obtain rfl : nextHour = latest := Option.some.inj hl
    exact Timestamp.le_rfl
  obtain ⟨term, ht, hw⟩ := (h tenthsEngine tenthsSeries nextHour (by decide +kernel)
    (fun t i => hm (t, i)) hs).mp (by decide +kernel)
  obtain rfl := List.mem_singleton.mp ht
  exact hw (eq_ok_of_toOption (by decide +kernel))

end Tenths

end Engine

end ContainerSizing
