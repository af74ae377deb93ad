import ContainerSizing.Proofs.Engine.Report
import ContainerSizing.Service.Counter
import Mathlib.Algebra.BigOperators.Group.List.Basic

namespace ContainerSizing.Counter

variable {seconds bound : Float} {n : Notification} {ns : List Notification} {rs : RecommendationSet}
variable {engine engine' label : String} {kind : NotificationKind} {c : Counter}

theorem sum_map_ite_one (p : α → Bool) (l : List α) :
    (l.map fun a => if p a then 1 else 0).sum = l.countP p := by
  induction l
  case nil => rfl
  case cons a l hi => rw [List.map_cons, List.sum_cons, hi, List.countP_cons, Nat.add_comm]

section Latency

theorem count_evaluations_ofLatency : (ofLatency seconds).count evaluations = 1 := by
  simp [ofLatency, List.count_eq_zero]

theorem count_evaluationsWithin_ofLatency :
    (ofLatency seconds).count (evaluationsWithin bound) =
      latencyBounds.countP fun b => seconds ≤ b ∧ b = bound := by
  rw [ofLatency, List.count_cons_of_ne (by simp), List.count_eq_countP, List.countP_map,
    List.countP_filter]
  apply List.countP_congr
  intro b _
  simp [and_comm]

-- Latencies are counted by no other counters.
theorem count_ofLatency_eq_zero (h : c ≠ evaluations) (hw : ∀ bound, c ≠ evaluationsWithin bound) :
    (ofLatency seconds).count c = 0 := by
  rw [ofLatency, List.count_cons_of_ne h.symm, List.count_eq_zero]
  intro hc
  obtain ⟨bound, _, rfl⟩ := List.mem_map.mp hc
  exact hw bound rfl

end Latency

section Notifications

theorem count_notifications_flatMap :
    (ns.flatMap ofNotification).count (notifications kind) = ns.countP fun n => n.kind = kind := by
  rw [List.count_flatMap, ← sum_map_ite_one]
  congr 2
  funext n
  by_cases hk : n.kind = kind <;> by_cases hs : n.severity = .error <;>
    simp [ofNotification, hk, hs]

theorem count_evaluationFailures_flatMap :
    (ns.flatMap ofNotification).count evaluationFailures = ns.countP fun n => n.severity = .error := by
  rw [List.count_flatMap, ← sum_map_ite_one]
  congr 2
  funext n
  by_cases hs : n.severity = .error <;> simp [ofNotification, hs]

theorem count_flatMap_eq_zero (h : ∀ kind, c ≠ notifications kind) (hf : c ≠ evaluationFailures) :
    (ns.flatMap ofNotification).count c = 0 := by
  rw [List.count_eq_zero]
  intro hc
  obtain ⟨n, _, hc⟩ := List.mem_flatMap.mp hc
  rcases List.mem_cons.mp hc with rfl | hc
  case inl => exact h _ rfl
  case inr =>
    split at hc
    case isTrue => exact hf (List.mem_singleton.mp hc)
    case isFalse => cases hc

end Notifications

section Severity

theorem severity_eq_error_iff : kind.severity = .error ↔ kind = .calculationFailed := by
  cases kind <;> decide

-- Failures by severity are failures by kind, and there is one for each recommendation that failed.
theorem count_evaluationFailures_of_isReport {r : Recommendation} (h : r.IsReport) :
    (r.notifications.flatMap ofNotification).count evaluationFailures =
      if r.has .calculationFailed then 1 else 0 := by
  rw [count_evaluationFailures_flatMap, ← h.countP_failures]
  apply List.countP_congr
  intro n hn
  rw [h.severity n hn]
  simp [severity_eq_error_iff]

end Severity

section Recommendations

theorem count_ofRecommendations :
    (ofRecommendations engine rs).count c = (rs.entries.map fun e =>
      [recommendations engine e.1].count c + (e.2.notifications.flatMap ofNotification).count c).sum := by
  rw [ofRecommendations, List.count_flatMap]
  congr 2
  funext e
  rw [Function.comp, ← List.count_append, List.singleton_append]

-- No label stands in a set twice.
theorem count_recommendations :
    (ofRecommendations engine rs).count (recommendations engine' label) =
      if engine' = engine ∧ label ∈ rs.keys then 1 else 0 := by
  have hc (e : String × Recommendation) :
      [recommendations engine e.1].count (recommendations engine' label) +
        (e.2.notifications.flatMap ofNotification).count (recommendations engine' label) =
          if engine = engine' ∧ e.1 = label then 1 else 0 := by
    rw [count_flatMap_eq_zero (by simp) (by simp), List.count_singleton]
    simp
  simp only [count_ofRecommendations, hc]
  by_cases he : engine' = engine
  case neg => simp [he, Ne.symm he]
  case pos =>
    have := sum_map_ite_one (fun e => decide (e.1 = label)) rs.entries
    simp only [decide_eq_true_eq] at this
    simp only [he, true_and, this]
    rw [← SortedMap.nodup_keys.count, SortedMap.keys, List.count_eq_countP, List.countP_map]
    rfl

theorem count_notifications :
    (ofRecommendations engine rs).count (notifications kind) =
      (rs.entries.map fun e => e.2.notifications.countP fun n => n.kind = kind).sum := by
  simp [count_ofRecommendations, count_notifications_flatMap]

theorem count_evaluationFailures (h : ∀ e ∈ rs.entries, e.2.IsReport) :
    (ofRecommendations engine rs).count evaluationFailures =
      rs.entries.countP fun e => e.2.has .calculationFailed := by
  rw [count_ofRecommendations, ← sum_map_ite_one]
  congr 1
  apply List.map_congr_left
  intro e he
  rw [count_evaluationFailures_of_isReport (h e he)]
  simp

-- A set counts neither evaluations nor series that hold too little data.
theorem count_ofRecommendations_eq_zero (h : ∀ engine label, c ≠ recommendations engine label)
    (hn : ∀ kind, c ≠ notifications kind) (hf : c ≠ evaluationFailures) :
    (ofRecommendations engine rs).count c = 0 := by
  rw [count_ofRecommendations]
  apply List.sum_eq_zero
  intro k hk
  obtain ⟨e, _, rfl⟩ := List.mem_map.mp hk
  have hl : c ∉ [recommendations engine e.1] := fun hm => h _ _ (List.mem_singleton.mp hm)
  rw [count_flatMap_eq_zero hn hf, List.count_eq_zero.mpr hl, Nat.add_zero]

end Recommendations

end ContainerSizing.Counter
