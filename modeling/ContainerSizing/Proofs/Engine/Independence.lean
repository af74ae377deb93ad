import ContainerSizing.Proofs.Engine.DurationBased.Outcome

namespace ContainerSizing.Engine

-- The same engine with another policy.
def withPolicy (engine : Engine) (p : Policy) : Engine :=
  { engine with policy := p }

def alone (engine : Engine) (term : Term) : Engine :=
  engine.withPolicy ⟨[term]⟩

variable {engine : Engine} {series : Series} {stop : Timestamp} {term : Term}

theorem outcome_withPolicy (p : Policy) :
    (engine.withPolicy p).outcome series stop term = engine.outcome series stop term :=
  rfl

-- Terms can be added, removed, reordered and broken without any effect on the entry of another one.
theorem recommend_independent (engine : Engine) (series : Series) (stop : Timestamp)
    (h : engine.policy.HasDistinctLabels) :
    (engine.recommend series stop).keys.Perm engine.policy.labels ∧
    (∀ t ∈ engine.policy.terms, ∃ r,
      (engine.recommend series stop).get? t.label = some r ∧
      ((engine.alone t).recommend series stop).entries = [(t.label, r)]) ∧
    (∀ p : Policy, p.HasDistinctLabels → ∀ t ∈ p.terms, t ∈ engine.policy.terms →
      ((engine.withPolicy p).recommend series stop).get? t.label =
        (engine.recommend series stop).get? t.label) ∧
    (∀ p : Policy, p.terms.Perm engine.policy.terms →
      (engine.withPolicy p).recommend series stop = engine.recommend series stop) := by
  refine ⟨keys_recommend h, ?alone, ?shared, ?perm⟩
  case alone =>
    intro t ht
    exact ⟨_, get?_recommend h ht, rfl⟩
  case shared =>
    intro p hp t ht ht'
    have hp : (engine.withPolicy p).policy.HasDistinctLabels := hp
    rw [get?_recommend h ht', get?_recommend hp ht, outcome_withPolicy]
  case perm =>
    intro p hp
    have hd : (engine.withPolicy p).policy.HasDistinctLabels := (hp.map _).nodup_iff.mpr h
    apply SortedMap.ofList_eq_of_perm (map_outcome_labels _ series stop ▸ hd)
    exact hp.map _

section Patchy

-- An hour that is sized by the shortest term, behind one that lasts less than no time. The longer terms
-- come upon that one and fail.

def twoHoursBefore : Timestamp :=
  ⟨-7200, 0, by decide +kernel⟩

def patchySeries : Series :=
  SortedMap.ofList [(twoHoursBefore, .bare (-1.0)), (default, measuredHour)]

theorem recommend_independent_standard :
    (standard .durationBased).policy.HasDistinctLabels ∧
    ((standard .durationBased).recommend patchySeries default).keys.Perm
      ["short_term", "medium_term", "long_term"] ∧
    (∃ r, r.start = some hourBefore ∧
      ((standard .durationBased).recommend patchySeries default).get? "short_term" = some r ∧
      (((standard .durationBased).alone ⟨"short_term", 1, 30.0⟩).recommend
        patchySeries default).entries = [("short_term", r)] ∧
      (((standard .durationBased).withPolicy ⟨[⟨"week", 7, 90.0⟩, ⟨"short_term", 1, 30.0⟩]⟩).recommend
        patchySeries default).get? "short_term" = some r) ∧
    (∃ r, r.has .calculationFailed ∧
      ((standard .durationBased).recommend patchySeries default).get? "medium_term" = some r ∧
      (((standard .durationBased).alone ⟨"medium_term", 7, 2880.0⟩).recommend
        patchySeries default).entries = [("medium_term", r)]) ∧
    ((standard .durationBased).withPolicy ⟨Policy.standard.terms.reverse⟩).recommend
      patchySeries default = (standard .durationBased).recommend patchySeries default := by
  have hd := hasDistinctLabels_standard .durationBased
  have hshort := shortTerm_mem_standard .durationBased
  have ⟨hkeys, halone, hshared, hperm⟩ :=
    recommend_independent (standard .durationBased) patchySeries default hd
  have ⟨r, hr, hone⟩ := halone ⟨"short_term", 1, 30.0⟩ hshort
  have ⟨r', hr', hone'⟩ := halone ⟨"medium_term", 7, 2880.0⟩ (by decide)
  have hsized : (((standard .durationBased).recommend patchySeries default).get? "short_term").any
      fun r => r.start = some hourBefore := by decide +kernel
  have hfailed : (((standard .durationBased).recommend patchySeries default).get? "medium_term").any
      fun r => r.has .calculationFailed := by decide +kernel
  rw [hr, Option.any_some, decide_eq_true_eq] at hsized
  rw [hr', Option.any_some] at hfailed
  refine ⟨hd, hkeys, ⟨r, hsized, hr, hone, ?_⟩, ⟨r', hfailed, hr', hone'⟩, hperm _ ?_⟩
  · have hp := Policy.hasDistinctLabels_of_fault?
      (p := ⟨[⟨"week", 7, 90.0⟩, ⟨"short_term", 1, 30.0⟩]⟩) (by decide +kernel)
    exact (hshared _ hp ⟨"short_term", 1, 30.0⟩ (by decide) hshort).trans hr
  · exact List.reverse_perm _

end Patchy

end ContainerSizing.Engine
