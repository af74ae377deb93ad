import ContainerSizing.Engine.Basic
import ContainerSizing.Proofs.Policy
import ContainerSizing.Proofs.SortedMap
import ContainerSizing.Proofs.Tuning

namespace ContainerSizing

namespace Policy

variable {p : Policy}

-- Of several terms with one label, the last one makes the entry.
def last? (p : Policy) (label : String) : Option Term :=
  p.terms.reverse.find? fun t => t.label = label

theorem last?_of_mem {term : Term} (hd : p.HasDistinctLabels)
    (h : term ∈ p.terms) : p.last? term.label = some term := by
  cases hl : p.last? term.label
  case none =>
    have := List.find?_eq_none.mp hl term (List.mem_reverse.mpr h)
    simp at this
  case some t =>
    have ht := List.mem_reverse.mp (List.mem_of_find?_eq_some hl)
    have hlabel : t.label = term.label := by simpa using List.find?_some hl
    rw [List.inj_on_of_nodup_map hd ht h hlabel]

end Policy

namespace Engine

variable {engine : Engine} {kind : EngineKind} {tuning : Tuning} {policy : Policy} {series : Series}
variable {stop : Timestamp} {term : Term} {label : String} {r : Recommendation}

theorem build_eq_ok_iff :
    build kind tuning policy = .ok engine ↔
      tuning.fault? = none ∧ policy.fault? = none ∧ ⟨kind, tuning, policy⟩ = engine := by
  rw [build]
  cases tuning.fault? <;> cases policy.fault? <;> simp

-- The labels of the recommendations that are inserted.
theorem map_outcome_labels (engine : Engine) (series : Series) (stop : Timestamp) :
    (engine.policy.terms.map fun t => (t.label, engine.outcome series stop t)).map (·.1) =
      engine.policy.labels := by
  simp [Policy.labels]

theorem keys_recommend (h : engine.policy.HasDistinctLabels) :
    (engine.recommend series stop).keys.Perm engine.policy.labels := by
  have := map_outcome_labels engine series stop
  rw [← this]
  exact SortedMap.keys_ofList_perm (this ▸ h)

theorem get?_recommend_iff (h : engine.policy.HasDistinctLabels) :
    (engine.recommend series stop).get? label = some r ↔
      ∃ t ∈ engine.policy.terms, t.label = label ∧ engine.outcome series stop t = r := by
  have := map_outcome_labels engine series stop
  rw [recommend, SortedMap.get?_ofList_eq_some_iff (this ▸ h)]
  simp

theorem get?_recommend_eq :
    (engine.recommend series stop).get? label =
      (engine.policy.last? label).map (engine.outcome series stop) := by
  rw [recommend, SortedMap.get?_ofList, ← List.map_reverse, List.find?_map, Option.map_map,
    Policy.last?]
  congr 2
  funext t
  have he : (compare label t.label == .eq) ↔ t.label = label := by
    rw [beq_iff_eq, Std.LawfulEqCmp.compare_eq_iff_eq, eq_comm]
  exact Bool.eq_iff_iff.mpr (he.trans decide_eq_true_iff.symm)

theorem exists_outcome (hr : (engine.recommend series stop).get? label = some r) :
    ∃ term ∈ engine.policy.terms, term.label = label ∧ engine.outcome series stop term = r := by
  rw [get?_recommend_eq] at hr
  obtain ⟨term, hl, ho⟩ := Option.map_eq_some_iff.mp hr
  have hlabel : term.label = label := by simpa using List.find?_some hl
  exact ⟨term, List.mem_reverse.mp (List.mem_of_find?_eq_some hl), hlabel, ho⟩

theorem get?_recommend (h : engine.policy.HasDistinctLabels) (ht : term ∈ engine.policy.terms) :
    (engine.recommend series stop).get? term.label = some (engine.outcome series stop term) :=
  (get?_recommend_iff h).mpr ⟨term, ht, rfl, rfl⟩

-- The standard policy has passed its check.
theorem hasDistinctLabels_standard (kind : EngineKind) : (standard kind).policy.HasDistinctLabels :=
  Policy.hasDistinctLabels_of_fault? Policy.fault?_standard

theorem shortTerm_mem_standard (kind : EngineKind) :
    ⟨"short_term", 1, 30.0⟩ ∈ (standard kind).policy.terms :=
  List.mem_cons_self

section Outcome

theorem evaluate_durationBased (h : engine.kind = .durationBased) :
    engine.evaluate series term stop = DurationBased.evaluate engine.tuning series term stop := by
  rw [evaluate, h]

theorem evaluate_capacityBased (h : engine.kind = .capacityBased) :
    engine.evaluate series term stop = CapacityBased.evaluate engine.tuning series term stop := by
  rw [evaluate, h]

theorem outcome_of_ok (h : engine.evaluate series term stop = .ok r) :
    engine.outcome series stop term = r := by
  rw [outcome, h]

theorem outcome_of_error {error : EvaluationError}
    (h : engine.evaluate series term stop = .error error) :
    engine.outcome series stop term = .calculationFailed error := by
  rw [outcome, h]

-- Only an evaluation that succeeds has a window.
theorem evaluate_of_outcome (ho : engine.outcome series stop term = r) (hs : r.start.isSome) :
    engine.evaluate series term stop = .ok r := by
  cases h : engine.evaluate series term stop
  case ok r' => rw [← ho, outcome_of_ok h]
  case error error =>
    rw [outcome_of_error h] at ho
    subst ho
    cases hs

theorem exists_evaluate (hd : engine.policy.HasDistinctLabels)
    (hr : (engine.recommend series stop).get? label = some r) (hs : r.start.isSome) :
    ∃ term ∈ engine.policy.terms, term.label = label ∧ engine.evaluate series term stop = .ok r := by
  have ⟨term, ht, hl, ho⟩ := (get?_recommend_iff hd).mp hr
  exact ⟨term, ht, hl, evaluate_of_outcome ho hs⟩

end Outcome

end Engine

end ContainerSizing
