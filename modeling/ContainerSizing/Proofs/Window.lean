import ContainerSizing.Proofs.Series
import ContainerSizing.Proofs.Statistics
import ContainerSizing.Window

namespace ContainerSizing

open Binary64

namespace Walk

def total (collected : Float) (es : List (Timestamp × Interval)) : Float :=
  es.foldl (fun c e => c + e.2.minutes) collected

-- A walk over `walked` goes no further than `e`.
def EndsAt (goal collected : Float) (walked : List (Timestamp × Interval))
    (e : Timestamp × Interval) : Prop :=
  ¬isMeasure e.2.minutes ∨ total collected (walked ++ [e]) ≥ goal

structure Stops (goal collected : Float) (es : List (Timestamp × Interval)) (n : ℕ)
    (e : Timestamp × Interval) : Prop where
  entry : es[n]? = some e
  ends  : EndsAt goal collected (es.take n) e
  first : ∀ k < n, ∀ d, es[k]? = some d → ¬EndsAt goal collected (es.take k) d

variable {goal collected : Float} {es : List (Timestamp × Interval)} {d e : Timestamp × Interval}
variable {k n : ℕ}

namespace Stops

theorem mem (h : Stops goal collected es n e) : e ∈ es :=
  List.mem_of_getElem? h.entry

theorem unique (h : Stops goal collected es n e) (h' : Stops goal collected es k d) :
    n = k ∧ e = d := by
  rcases lt_trichotomy n k with hlt | rfl | hgt
  · exact absurd h.ends (h'.first n hlt e h.entry)
  · exact ⟨rfl, Option.some.inj (h.entry.symm.trans h'.entry)⟩
  · exact absurd h'.ends (h.first k hgt d h'.entry)

theorem not_nil : ¬Stops goal collected [] n e :=
  fun h => nomatch h.entry

theorem zero (h : EndsAt goal collected [] e) : Stops goal collected (e :: es) 0 e where
  entry := rfl
  ends  := h
  first := nofun

-- An entry at which the walk does not end adds its minutes to those collected.
theorem succ_iff (h : ¬EndsAt goal collected [] d) :
    Stops goal collected (d :: es) (n + 1) e ↔ Stops goal (collected + d.2.minutes) es n e := by
  have ends_iff (k : ℕ) (e : Timestamp × Interval) :
      EndsAt goal collected ((d :: es).take (k + 1)) e ↔
        EndsAt goal (collected + d.2.minutes) (es.take k) e :=
    Iff.rfl
  constructor
  case mp =>
    intro hs
    refine ⟨hs.entry, (ends_iff n e).mp hs.ends, ?_⟩
    intro k hk f hf
    rw [← ends_iff]
    exact hs.first (k + 1) (Nat.succ_lt_succ hk) f hf
  case mpr =>
    intro hs
    refine ⟨hs.entry, (ends_iff n e).mpr hs.ends, ?_⟩
    intro k hk f hf
    cases k
    case zero =>
      injection hf with hf
      exact hf ▸ h
    case succ k =>
      rw [ends_iff]
      exact hs.first k (Nat.lt_of_succ_lt_succ hk) f hf

theorem exists_cons_iff (h : ¬EndsAt goal collected [] d) :
    (∃ n, Stops goal collected (d :: es) n e) ↔ ∃ n, Stops goal (collected + d.2.minutes) es n e := by
  constructor
  case mp =>
    intro ⟨n, hs⟩
    cases n
    case zero =>
      obtain rfl : d = e := Option.some.inj hs.entry
      exact absurd hs.ends h
    case succ n => exact ⟨n, (succ_iff h).mp hs⟩
  case mpr => exact fun ⟨n, hs⟩ => ⟨n + 1, (succ_iff h).mpr hs⟩

-- Of all entries at which a walk could end, it stops at the first.
theorem exists_le (he : es[n]? = some e) (h : EndsAt goal collected (es.take n) e) :
    ∃ k ≤ n, ∃ d, Stops goal collected es k d := by
  classical
  have hex : ∃ k, ∃ d, es[k]? = some d ∧ EndsAt goal collected (es.take k) d := ⟨n, e, he, h⟩
  obtain ⟨d, hd, hends⟩ := Nat.find_spec hex
  refine ⟨Nat.find hex, Nat.find_min' hex ⟨e, he, h⟩, d, hd, hends, ?_⟩
  intro k hk c hc hn
  exact Nat.find_min hex hk ⟨c, hc, hn⟩

-- A walk with a lower goal stops no later.
theorem exists_of_le {goal' : Float} (hle : goal ≤ goal') (h : Stops goal' collected es n e) :
    ∃ k ≤ n, ∃ d, Stops goal collected es k d :=
  exists_le h.entry <| h.ends.imp_right fun ht => Binary64.le_trans hle ht

-- What lies behind the entry at which a walk stops has no part in it.
theorem append_iff {rest : List (Timestamp × Interval)} (hn : n < es.length) :
    Stops goal collected (es ++ rest) n e ↔ Stops goal collected es n e := by
  have entry_eq {k : ℕ} (hk : k ≤ n) : (es ++ rest)[k]? = es[k]? :=
    List.getElem?_append_left (by omega)
  have take_eq {k : ℕ} (hk : k ≤ n) : (es ++ rest).take k = es.take k :=
    List.take_append_of_le_length (by omega)
  constructor
  case mp =>
    intro h
    refine ⟨entry_eq le_rfl ▸ h.entry, take_eq le_rfl ▸ h.ends, ?_⟩
    intro k hk d hd
    rw [← take_eq hk.le]
    exact h.first k hk d (entry_eq hk.le ▸ hd)
  case mpr =>
    intro h
    refine ⟨(entry_eq le_rfl).symm ▸ h.entry, (take_eq le_rfl).symm ▸ h.ends, ?_⟩
    intro k hk d hd
    rw [take_eq hk.le]
    exact h.first k hk d (entry_eq hk.le ▸ hd)

end Stops

-- The induction follows the walk: the minutes collected so far are the only state.
theorem run_spec (goal collected : Float) (es : List (Timestamp × Interval)) :
    match run goal collected es with
    | .exhausted _ => ∀ n e, ¬Stops goal collected es n e
    | .invalid t i => (∃ n, Stops goal collected es n (t, i)) ∧ ¬isMeasure i.minutes
    | .reached t i _ => (∃ n, Stops goal collected es n (t, i)) ∧ isMeasure i.minutes := by
  induction es generalizing collected
  case nil => exact fun _ _ => Stops.not_nil
  case cons d es hi =>
    obtain ⟨t, i⟩ := d
    by_cases hm : isMeasure i.minutes
    case neg =>
      have hr : run goal collected ((t, i) :: es) = .invalid t i := if_neg hm
      rw [hr]
      exact ⟨⟨0, .zero (.inl hm)⟩, hm⟩
    case pos =>
      by_cases hg : collected + i.minutes ≥ goal
      case pos =>
        have hr : run goal collected ((t, i) :: es) = .reached t i (collected + i.minutes) :=
          (if_pos hm).trans (if_pos hg)
        rw [hr]
        exact ⟨⟨0, .zero (.inr hg)⟩, hm⟩
      case neg =>
        have hr : run goal collected ((t, i) :: es) = run goal (collected + i.minutes) es :=
          (if_pos hm).trans (if_neg hg)
        have hn : ¬EndsAt goal collected [] (t, i) := not_or.mpr ⟨not_not.mpr hm, hg⟩
        have := hi (collected + i.minutes)
        rw [hr]
        split at this
        case h_1 =>
          intro n e hs
          have ⟨k, hk⟩ := (Stops.exists_cons_iff hn).mp ⟨n, hs⟩
          exact this k e hk
        all_goals exact ⟨(Stops.exists_cons_iff hn).mpr this.left, this.right⟩

end Walk

namespace Window

variable {series : Series} {start stop t : Timestamp} {i : Interval} {w : Window}

-- One faulty interval is enough to spoil a window.
theorem ofSeries_of_fault? (h : start ≤ stop) (hm : (t, i) ∈ series.entries) (hs : start ≤ t)
    (ht : t ≤ stop) (hf : (i.fault? t).isSome) : ∃ e, ofSeries series start stop = .error e := by
  have hr := (Series.mem_range_iff h).mpr ⟨hm, hs, ht⟩
  rw [ofSeries]
  simp only
  split
  case h_1 e _ => exact ⟨e, rfl⟩
  case h_2 hn =>
    have := List.findSome?_eq_none_iff.mp hn _ hr
    simp only at this
    rw [this] at hf
    cases hf

theorem ofSeries_eq_ok (h : start ≤ stop) (hm : (t, i) ∈ series.entries) (hs : start ≤ t)
    (ht : t ≤ stop)
    (hf : ∀ t i, (t, i) ∈ series.entries → start ≤ t → t ≤ stop → i.fault? t = none) :
    ofSeries series start stop = .ok ⟨start, stop, series.range start stop⟩ := by
  have hr := (Series.mem_range_iff h).mpr ⟨hm, hs, ht⟩
  simp only [ofSeries]
  split
  case h_1 error he =>
    obtain ⟨⟨u, j⟩, hu, he⟩ := List.exists_of_findSome?_eq_some he
    obtain ⟨hu, hsu, hut⟩ := (Series.mem_range_iff h).mp hu
    simp [hf u j hu hsu hut] at he
  case h_2 =>
    have he : (series.range start stop).isEmpty = false := List.isEmpty_eq_false_iff_exists_mem.mpr ⟨_, hr⟩
    simp [he]

-- A window fails because nothing is in it, or for the fault of something that is.
theorem ofSeries_error_cases {error : EvaluationError}
    (h : ofSeries series start stop = .error error) :
    series.range start stop = [] ∧ error = .emptyWindow start stop ∨
      ∃ d ∈ series.range start stop, d.2.fault? d.1 = some error := by
  simp only [ofSeries] at h
  split at h
  case h_1 e he =>
    injection h with h
    exact .inr (h ▸ List.exists_of_findSome?_eq_some he)
  case h_2 =>
    split at h
    case isTrue hn =>
      injection h with h
      exact .inl ⟨List.isEmpty_iff.mp hn, h.symm⟩
    case isFalse => cases h

def IsSound (w : Window) : Prop :=
  ∀ t i, (t, i) ∈ w.intervals → i.fault? t = none

theorem isSound_iff : w.IsSound ↔ ∀ e ∈ w.intervals, e.2.fault? e.1 = none :=
  ⟨fun h e => h e.1 e.2, fun h t i => h (t, i)⟩

-- What a window holds has been checked.
theorem isSound_of_ofSeries (h : ofSeries series start stop = .ok w) : w.IsSound := by
  intro t i hm
  have hi := intervals_of_ofSeries h
  simp only [ofSeries] at h
  split at h
  case h_1 => cases h
  case h_2 hn =>
    rw [hi] at hm
    have := List.findSome?_eq_none_iff.mp hn (t, i) hm
    exact this

theorem bounds_of_ofSeries (h : ofSeries series start stop = .ok w) :
    w.start = start ∧ w.stop = stop := by
  simp only [ofSeries] at h
  split at h
  case h_1 => cases h
  case h_2 =>
    split at h <;> cases h
    exact ⟨rfl, rfl⟩

theorem size_le (hw : ofSeries series start stop = .ok w) : w.size ≤ series.size := by
  rw [size, intervals_of_ofSeries hw]
  exact List.length_filter_le _ _

theorem forall_values {f : Interval → Float} {P : Float → Prop} (hw : w.IsSound)
    (h : ∀ t i, i.fault? t = none → P (f i)) : ∀ x ∈ w.values f, P x := by
  intro x hx
  obtain ⟨⟨t, i⟩, hi, rfl⟩ := List.mem_map.mp hx
  exact h t i (hw t i hi)

theorem values_ne_nil (h : w.intervals ≠ []) (f : Interval → Float) : w.values f ≠ [] := by
  simpa [values] using h

theorem mem_values {e : Timestamp × Interval} (f : Interval → Float) (h : e ∈ w.intervals) :
    f e.2 ∈ w.values f :=
  List.mem_map.mpr ⟨e, h, rfl⟩

theorem percentile_le_iff {f : Interval → Float} {p x y : Float} (hn : ∀ a ∈ w.values f, IsNumber a)
    (h : Statistics.percentile p (w.values f) = .ok x) :
    x ≤ y ↔ Statistics.nearestRank p w.size < w.intervals.countP fun e => f e.2 ≤ y := by
  have := Statistics.percentile_le_iff (y := y) hn h
  rwa [values, List.length_map, List.countP_map] at this

theorem sub_nearestRank_le_countP {f : Interval → Float} {p x : Float}
    (hn : ∀ a ∈ w.values f, IsNumber a) (h : Statistics.percentile p (w.values f) = .ok x) :
    w.size - Statistics.nearestRank p w.size ≤ w.intervals.countP fun e => x ≤ f e.2 := by
  have := Statistics.sub_nearestRank_le_countP hn h
  rwa [values, List.length_map, List.countP_map] at this

theorem isHighest_of_percentile {f : Interval → Float} {x : Float} (hn : w.size ≤ 2 ^ 53)
    (h : Statistics.percentile 100.0 (w.values f) = .ok x) : Statistics.IsHighest (w.values f) x :=
  Statistics.isHighest_of_percentile h (by rwa [values, List.length_map])

theorem isFinite_percentile_iff {f : Interval → Float} {p x : Float}
    (hn : ∀ a ∈ w.values f, IsNonneg a) (h : Statistics.percentile p (w.values f) = .ok x) :
    x.isFinite ↔
      Statistics.nearestRank p w.size < w.intervals.countP fun e => (f e.2).isFinite := by
  have := Statistics.isFinite_percentile_iff hn h
  rwa [values, List.length_map, List.countP_map] at this

section Pods

variable {v : Window} {k m n : UInt32} {ns : List UInt32}

theorem max_le_iff : max k m ≤ n ↔ k ≤ n ∧ m ≤ n := by
  change (if k ≤ m then m else k) ≤ n ↔ _
  simp only [UInt32.le_iff_toNat_le]
  split <;> omega

theorem foldl_max_le_iff : ns.foldl max m ≤ n ↔ m ≤ n ∧ ∀ k ∈ ns, k ≤ n := by
  induction ns generalizing m
  case nil => simp
  case cons k ks hi =>
    rw [List.foldl_cons, hi, max_le_iff]
    simp [and_assoc]

theorem foldl_max_mem : ns.foldl max m ∈ m :: ns := by
  induction ns generalizing m
  case nil => exact List.mem_singleton_self _
  case cons k ks hi =>
    have hmax : max m k = m ∨ max m k = k := by
      change (if m ≤ k then k else m) = m ∨ (if m ≤ k then k else m) = k
      split <;> simp
    rw [List.foldl_cons]
    rcases List.mem_cons.mp (hi (m := max m k)) with h | h
    · rw [h]
      rcases hmax with h | h <;> simp [h]
    · exact List.mem_cons_of_mem _ (List.mem_cons_of_mem _ h)

theorem pods_le_iff : w.pods ≤ n ↔ ∀ e ∈ w.intervals, intervalPods e.2 ≤ n := by
  rw [pods, foldl_max_le_iff, List.forall_mem_map]
  simp

theorem pods_mono (h : v.intervals ⊆ w.intervals) : v.pods ≤ w.pods :=
  pods_le_iff.mpr fun e he => pods_le_iff.mp UInt32.le_rfl e (h he)

theorem isGreatest_pods (h : w.intervals ≠ []) :
    IsGreatest {n | ∃ e ∈ w.intervals, intervalPods e.2 = n} w.pods := by
  have hle := pods_le_iff.mp (UInt32.le_refl w.pods)
  refine ⟨?attained, ?bound⟩
  case attained =>
    have hmem : w.pods ∈ 0 :: w.intervals.map fun e => intervalPods e.2 := foldl_max_mem
    rcases List.mem_cons.mp hmem with hz | hm
    case inl =>
      -- no interval has pods, so that any of them has the most
      obtain ⟨e, he⟩ := List.exists_mem_of_ne_nil _ h
      exact ⟨e, he, hz ▸ UInt32.le_zero_iff.mp (hz ▸ hle e he)⟩
    case inr =>
      obtain ⟨e, he, hn⟩ := List.mem_map.mp hm
      exact ⟨e, he, hn⟩
  case bound =>
    rintro _ ⟨e, he, rfl⟩
    exact hle e he

end Pods

end Window

end ContainerSizing
