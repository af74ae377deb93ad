import ContainerSizing.Proofs.Timestamp.Shift
import ContainerSizing.Proofs.Window

namespace ContainerSizing

-- An interval, and the same interval at another time.
structure Series.EntryMoves (span : ℤ) (e e' : Timestamp × Interval) : Prop where
  stop     : e.1.Moves span e'.1
  interval : e.2 = e'.2

-- The same cause at another time.
inductive EvaluationError.Moves (span : ℤ) : EvaluationError → EvaluationError → Prop
  | emptyWindow (h : start.Moves span start') (h' : stop.Moves span stop') :
    Moves span (.emptyWindow start stop) (.emptyWindow start' stop')
  | invalidAggregate (metric : Metric) (statistic : Statistic) (value : Float)
    (h : t.Moves span t') :
    Moves span (.invalidAggregate t metric statistic value)
      (.invalidAggregate t' metric statistic value)
  | invalidDuration (minutes : Float) (h : t.Moves span t') :
    Moves span (.invalidDuration t minutes) (.invalidDuration t' minutes)
  | windowOutOfRange (minutes : Float) (h : t.Moves span t') :
    Moves span (.windowOutOfRange t minutes) (.windowOutOfRange t' minutes)

-- Walks that end in the same way at another time.
inductive Walk.Moves (span : ℤ) : Walk → Walk → Prop
  | exhausted (minutes : Float) : Moves span (.exhausted minutes) (.exhausted minutes)
  | invalid (i : Interval) (h : t.Moves span t') : Moves span (.invalid t i) (.invalid t' i)
  | reached (i : Interval) (minutes : Float) (h : t.Moves span t') :
    Moves span (.reached t i minutes) (.reached t' i minutes)

-- Both fail for the same cause, or both succeed with results that belong together.
inductive MovesAs (span : ℤ) (R : α → β → Prop) :
    Except EvaluationError α → Except EvaluationError β → Prop
  | error (h : e.Moves span e') : MovesAs span R (.error e) (.error e')
  | ok (h : R a b) : MovesAs span R (.ok a) (.ok b)

theorem MovesAs.bind {span : ℤ} {R : α → β → Prop} {S : γ → δ → Prop} {f : α → Except EvaluationError γ}
    {g : β → Except EvaluationError δ} {x : Except EvaluationError α} {y : Except EvaluationError β}
    (h : MovesAs span R x y) (hf : ∀ a b, R a b → MovesAs span S (f a) (g b)) :
    MovesAs span S (x >>= f) (y >>= g) := by
  cases h
  case error h => exact .error h
  case ok a b h => exact hf a b h

-- What lies a number of minutes before `t` is in range, or else it is not, both before `t` has moved
-- and after that.
def Timestamp.StaysInRange (span : ℤ) (t : Timestamp) (minutes : Float) : Prop :=
  ∀ t', t.addNanos? span = some t' →
    (t.minutesBefore? minutes).isSome = (t'.minutesBefore? minutes).isSome

variable {span : ℤ} {series series' : Series} {start start' stop stop' t t' : Timestamp}
variable {es es' : List (Timestamp × Interval)} {i : Interval} {w w' : Window}

theorem Interval.start_moves (h : t.Moves span t') (hr : t.StaysInRange span i.minutes) :
    MovesAs span (Timestamp.Moves span) (i.start t) (i.start t') := by
  have hr := hr t' (Timestamp.moves_iff.mp h).right
  rw [Interval.start, Interval.start]
  cases hs : t.minutesBefore? i.minutes <;> cases hs' : t'.minutesBefore? i.minutes <;>
    simp only [hs, hs', Option.isSome_none, Option.isSome_some, reduceCtorEq] at hr
  case none.none => exact .error (.windowOutOfRange _ h)
  case some.some => exact .ok (h.minutesBefore? hs hs')

namespace Series

-- The same intervals, all of them `span` nanoseconds later.
def shift? (series : Series) (span : ℤ) : Option Series :=
  SortedMap.ofList <$> series.entries.mapM fun (t, i) => (·, i) <$> t.addNanos? span

theorem forall₂_of_mapM {f : α → Option β} {xs : List α} {ys : List β} (h : xs.mapM f = some ys) :
    List.Forall₂ (fun x y => f x = some y) xs ys := by
  induction xs generalizing ys
  case nil =>
    injection h with h
    exact h ▸ .nil
  case cons x xs hi =>
    rw [List.mapM_cons] at h
    obtain ⟨y, hy, h⟩ := Option.bind_eq_some_iff.mp h
    obtain ⟨ys, hys, h⟩ := Option.bind_eq_some_iff.mp h
    injection h with h
    exact h ▸ .cons hy (hi hys)

theorem pairwise_of_moves (h : List.Forall₂ (EntryMoves span) es es')
    (hp : es.Pairwise fun a b => a.1 < b.1) : es'.Pairwise fun a b => a.1 < b.1 := by
  obtain ⟨hlen, h⟩ := List.forall₂_iff_get.mp h
  rw [List.pairwise_iff_getElem] at hp ⊢
  intro i j hi hj hij
  exact ((h i (by omega) hi).stop.lt_iff (h j (by omega) hj).stop).mp (hp i j _ _ hij)

-- Moving keeps the order, so no interval takes the place of another one.
theorem moves_of_shift? (hl : ∀ t ∈ series.keys, ¬t.IsLeap) (h : series.shift? span = some series') :
    List.Forall₂ (EntryMoves span) series.entries series'.entries := by
  obtain ⟨es, he, rfl⟩ := Option.map_eq_some_iff.mp h
  have hm : List.Forall₂ (EntryMoves span) series.entries es := by
    have hl : ∀ e ∈ series.entries, ¬e.1.IsLeap := fun e he => hl e.1 (List.mem_map_of_mem he)
    refine ((List.forall₂_and_left _ _).mpr ⟨hl, forall₂_of_mapM he⟩).imp ?_
    rintro ⟨t, i⟩ e' ⟨ht, he⟩
    obtain ⟨t', ht', rfl⟩ := Option.map_eq_some_iff.mp he
    exact ⟨Timestamp.moves_iff.mpr ⟨ht, ht'⟩, rfl⟩
  have hs := pairwise_of_moves hm series.sorted
  have he : (SortedMap.ofList es).entries = es :=
    congrArg SortedMap.entries (SortedMap.ofList_entries ⟨es, hs⟩)
  exact he.symm ▸ hm

variable (hs : List.Forall₂ (EntryMoves span) series.entries series'.entries)
include hs

theorem untilDesc_moves (h : stop.Moves span stop') :
    List.Forall₂ (EntryMoves span) (series.untilDesc stop) (series'.untilDesc stop') := by
  refine List.forall₂_reverse_iff.mpr (List.rel_filter ?_ hs)
  intro e e' he
  simp only [decide_eq_true_eq]
  exact he.stop.le_iff h

theorem range_moves (h : start.Moves span start') (h' : stop.Moves span stop') :
    List.Forall₂ (EntryMoves span) (series.range start stop) (series'.range start' stop') := by
  have hstop : (if stop < start then start else stop).Moves span
      (if stop' < start' then start' else stop') := by
    simp only [← h'.lt_iff h]
    split
    · exact h
    · exact h'
  refine List.rel_filter ?_ hs
  intro e e' he
  simp only [decide_eq_true_eq, h.le_iff he.stop, he.stop.le_iff hstop]

theorem earliest?_moves : Option.Rel (Timestamp.Moves span) series.earliest? series'.earliest? := by
  rw [earliest?, earliest?, SortedMap.keys, SortedMap.keys]
  revert hs
  generalize series.entries = es, series'.entries = es'
  rintro (_ | ⟨h, _⟩)
  · exact .none
  · exact .some h.stop

end Series

namespace Walk

theorem run_moves {goal collected : Float} (h : List.Forall₂ (Series.EntryMoves span) es es') :
    Moves span (run goal collected es) (run goal collected es') := by
  induction h generalizing collected
  case nil => exact .exhausted collected
  case cons e e' es es' he _ hi =>
    obtain ⟨t, i⟩ := e
    obtain ⟨t', i'⟩ := e'
    obtain ⟨ht, hi'⟩ := he
    obtain rfl : i = i' := hi'
    simp only [run]
    split
    case isFalse => exact .invalid i ht
    case isTrue =>
      split
      case isTrue => exact .reached i _ ht
      case isFalse => exact hi

theorem start?_moves {walk walk' : Walk} (h : Moves span walk walk')
    (hr : ∀ t i m, walk = .reached t i m → t.StaysInRange span i.minutes) :
    MovesAs span (Option.Rel (Timestamp.Moves span)) walk.start? walk'.start? := by
  cases h
  case exhausted => exact .ok .none
  case invalid i h => exact .error (.invalidDuration i.minutes h)
  case reached t t' i m h =>
    exact (Interval.start_moves h (hr t i m rfl)).bind fun _ _ h => .ok (.some h)

end Walk

section Faults

theorem eq_of_rel {R : α → β → Prop} {a : Option α} {b : Option β} (h : Option.Rel R a b) :
    a = none ∧ b = none ∨ ∃ x y, a = some x ∧ b = some y ∧ R x y := by
  cases h
  case none => exact .inl ⟨rfl, rfl⟩
  case some x y h => exact .inr ⟨x, y, rfl, rfl, h⟩

theorem findSome?_rel {R : γ → δ → Prop} {f : α → Option γ} {g : β → Option δ} {xs : List α}
    {ys : List β} (h : List.Forall₂ (fun x y => Option.Rel R (f x) (g y)) xs ys) :
    Option.Rel R (xs.findSome? f) (ys.findSome? g) := by
  induction h
  case nil => exact .none
  case cons x y _ _ h _ hi =>
    rw [List.findSome?_cons, List.findSome?_cons]
    cases hf : f x <;> cases hg : g y <;> rw [hf, hg] at h <;> cases h
    case none.none => exact hi
    case some.some h => exact .some h

-- The fault of an interval is found in the same place.
theorem Interval.fault?_moves (h : t.Moves span t') :
    Option.Rel (EvaluationError.Moves span) (i.fault? t) (i.fault? t') := by
  rw [fault?, fault?]
  split
  case isFalse => exact .some (.invalidDuration i.minutes h)
  case isTrue =>
    refine findSome?_rel (List.forall₂_same.mpr fun m _ => ?_)
    cases i.metrics m
    case none => exact .none
    case some a =>
      refine findSome?_rel (List.forall₂_same.mpr fun s _ => ?_)
      split
      · exact .none
      · exact .some (.invalidAggregate m s (a.value s) h)

end Faults

namespace Window

-- The same intervals in windows at different times.
structure Moves (span : ℤ) (w w' : Window) : Prop where
  start     : w.start.Moves span w'.start
  stop      : w.stop.Moves span w'.stop
  intervals : List.Forall₂ (Series.EntryMoves span) w.intervals w'.intervals
  ne_nil    : w.intervals ≠ []

theorem ofSeries_moves (hs : List.Forall₂ (Series.EntryMoves span) series.entries series'.entries)
    (h : start.Moves span start') (h' : stop.Moves span stop') :
    MovesAs span (Moves span) (ofSeries series start stop) (ofSeries series' start' stop') := by
  have hr := Series.range_moves hs h h'
  have hf : Option.Rel (EvaluationError.Moves span)
      ((series.range start stop).findSome? fun (t, i) => i.fault? t)
      ((series'.range start' stop').findSome? fun (t, i) => i.fault? t) := by
    refine findSome?_rel (hr.imp ?_)
    rintro ⟨t, i⟩ ⟨t', i'⟩ ⟨ht, hi⟩
    obtain rfl : i = i' := hi
    exact Interval.fault?_moves ht
  have he : (series.range start stop).isEmpty = (series'.range start' stop').isEmpty := by
    rw [Bool.eq_iff_iff, List.isEmpty_iff_length_eq_zero, List.isEmpty_iff_length_eq_zero,
      hr.length_eq]
  simp only [ofSeries, he]
  rcases eq_of_rel hf with ⟨hn, hn'⟩ | ⟨e, e', he, he', hm⟩
  case inl =>
    rw [hn, hn']
    simp only
    split
    case isTrue => exact .error (.emptyWindow h h')
    case isFalse hne => exact .ok ⟨h, h', hr, by simpa [← he] using hne⟩
  case inr =>
    rw [he, he']
    exact .error hm

namespace Moves

variable (h : w.Moves span w')
include h

theorem map_intervals_eq : w.intervals.map (·.2) = w'.intervals.map (·.2) := by
  have := h.intervals.imp fun _ _ h => h.interval
  rwa [← List.forall₂_map_right_iff, ← List.forall₂_map_left_iff, List.forall₂_eq_eq_eq] at this

theorem values_eq (f : Interval → Float) : w.values f = w'.values f := by
  have (w : Window) : w.values f = (w.intervals.map (·.2)).map f := (List.map_map ..).symm
  rw [this, this, h.map_intervals_eq]

theorem pods_eq : w.pods = w'.pods := by
  have (w : Window) : w.pods = (w.intervals.map (·.2)).foldl (fun n i => max n (intervalPods i)) 0 := by
    rw [pods, List.foldl_map, List.foldl_map]
  rw [this, this, h.map_intervals_eq]

theorem firstUnit_eq (metrics : List Metric) : w.firstUnit metrics = w'.firstUnit metrics := by
  have (w : Window) (m : Metric) : (w.intervals.filterMap fun e => (e.2.metrics m).map Aggregate.unit) =
      (w.intervals.map (·.2)).filterMap fun i => (i.metrics m).map Aggregate.unit := by
    rw [List.filterMap_map]
    rfl
  simp only [firstUnit, this, h.map_intervals_eq]

theorem totalMinutes_eq : w.totalMinutes = w'.totalMinutes := by
  rw [totalMinutes, totalMinutes, h.values_eq]

theorem get?_eq (ht : t.Moves span t') : w.get? t = w'.get? t' := by
  have hi := h.intervals
  rw [get?, get?]
  generalize w.intervals = es, w'.intervals = es' at hi
  induction hi
  case nil => rfl
  case cons e e' _ _ he _ hi =>
    have hiff := he.stop.eq_iff ht
    by_cases hd : e.1 = t
    · simp [hd, hiff.mp hd, he.interval]
    · simpa [hd, mt hiff.mpr hd] using hi

end Moves

end Window

end ContainerSizing
