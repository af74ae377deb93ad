import ContainerSizing.Proofs.Engine.CapacityBased.Outcome
import ContainerSizing.Proofs.Engine.DurationBased.Accounting

namespace ContainerSizing

-- Notifications as engines make them: each is as severe as its kind, and one failure at most.
structure Recommendation.IsReport (r : Recommendation) : Prop where
  severity : ∀ n ∈ r.notifications, n.severity = n.kind.severity
  failures : (r.notifications.countP fun n => n.kind = .calculationFailed) ≤ 1

namespace Recommendation

variable {r : Recommendation}

theorem isReport_calculationFailed (error : EvaluationError) : (calculationFailed error).IsReport where
  severity n hn := by
    obtain rfl := List.mem_singleton.mp hn
    rfl
  failures := by simp [calculationFailed, Notification.withMessage]

theorem isReport_of_kinds {kinds : List NotificationKind} (h : r.notifications = kinds.map .ofKind)
    (hk : .calculationFailed ∉ kinds) : r.IsReport where
  severity n hn := by
    obtain ⟨kind, _, rfl⟩ := List.mem_map.mp (h ▸ hn)
    rfl
  failures := by
    rw [h, List.countP_map, List.countP_eq_zero.mpr]
    · exact Nat.zero_le 1
    · intro kind hkind
      have hne : kind ≠ .calculationFailed := fun he => hk (he ▸ hkind)
      simp [Notification.ofKind, Notification.withMessage, hne]

-- So it says whether it failed by as many notifications.
theorem IsReport.countP_failures (h : r.IsReport) :
    (r.notifications.countP fun n => n.kind = .calculationFailed) =
      if r.has .calculationFailed then 1 else 0 := by
  split
  case isTrue hf => exact Nat.le_antisymm h.failures (List.countP_pos_iff.mpr (List.any_eq_true.mp hf))
  case isFalse hf =>
    rw [List.countP_eq_zero]
    exact fun n hn he => hf (List.any_eq_true.mpr ⟨n, hn, he⟩)

end Recommendation

namespace Engine

variable {engine : Engine} {series : Series} {stop stop' : Timestamp} {term : Term} {label : String}
variable {r : Recommendation}

-- Evaluations that succeed have other things to say than that they failed.
theorem exists_kinds_of_evaluate (ht : engine.tuning.fault? = none)
    (h : engine.evaluate series term stop = .ok r) :
    ∃ kinds : List NotificationKind, r.notifications = kinds.map .ofKind ∧
      .calculationFailed ∉ kinds := by
  have hn : Recommendation.notEnoughData.notifications = [NotificationKind.notEnoughData].map .ofKind := rfl
  cases hk : engine.kind
  case durationBased =>
    rw [evaluate_durationBased hk] at h
    rcases DurationBased.evaluate_cases h with rfl | ⟨w, _, _, hr⟩
    case inl => exact ⟨_, hn, by decide⟩
    case inr =>
      have hs : r.start.isSome := (DurationBased.recommend_bounds hr).left ▸ rfl
      have ⟨kinds, hkinds, _, hsub⟩ := (DurationBased.accounted_of_evaluate ht h hs).notifications
      exact ⟨kinds, hkinds, fun hm => absurd (hsub.subset hm) (by decide)⟩
  case capacityBased =>
    rw [evaluate_capacityBased hk] at h
    rcases CapacityBased.evaluate_cases h with rfl | ⟨w, _, hr⟩
    case inl => exact ⟨_, hn, by decide⟩
    case inr =>
      have hsub := (CapacityBased.isSized_of_recommend hr).notifications
      have hmap : [Notification.ofKind .cpuRecordsAreZero, .ofKind .memoryRecordsAreZero] =
        [NotificationKind.cpuRecordsAreZero, .memoryRecordsAreZero].map .ofKind := rfl
      obtain ⟨kinds, hsub, hkinds⟩ := List.sublist_map_iff.mp (hmap ▸ hsub)
      exact ⟨kinds, hkinds, fun hm => absurd (hsub.subset hm) (by decide)⟩

theorem isReport_outcome (ht : engine.tuning.fault? = none) (series : Series) (stop : Timestamp)
    (term : Term) : (engine.outcome series stop term).IsReport := by
  cases he : engine.evaluate series term stop
  case error error =>
    rw [outcome_of_error he]
    exact Recommendation.isReport_calculationFailed error
  case ok r =>
    have ⟨kinds, hkinds, hf⟩ := exists_kinds_of_evaluate ht he
    rw [outcome_of_ok he]
    exact Recommendation.isReport_of_kinds hkinds hf

theorem isReport_of_mem (ht : engine.tuning.fault? = none)
    (h : (label, r) ∈ (engine.recommend series stop).entries) : r.IsReport := by
  have ⟨term, _, _, ho⟩ := exists_outcome (SortedMap.mem_entries_iff.mp h)
  exact ho ▸ isReport_outcome ht series stop term

-- Without intervals there is too little data, whenever one asks.
theorem outcome_of_empty (h : series.entries = []) :
    engine.outcome series stop term = .notEnoughData := by
  apply outcome_of_ok
  cases hk : engine.kind
  case durationBased =>
    rw [evaluate_durationBased hk]
    apply DurationBased.evaluate_of_not_stopsAt
    intro e he
    have hm := he.mem.left
    rw [h] at hm
    cases hm
  case capacityBased =>
    rw [evaluate_capacityBased hk]
    exact CapacityBased.evaluate_of_empty _ h

theorem recommend_of_empty (h : series.entries = []) :
    engine.recommend series stop = engine.recommend series stop' := by
  simp only [recommend, outcome_of_empty h]

end Engine

-- An event without a name, as engines log them; the events of a service have one.
def Event.IsNameless (e : Event) : Prop :=
  ∀ f ∈ e.fields, f.1 ≠ "event"

namespace DurationBased

variable {tuning : Tuning} {series : Series} {term : Term} {stop : Timestamp} {w : Window} {e : Event}

theorem isNameless_walkEvents {walk : Walk} (h : e ∈ walkEvents term stop walk) : e.IsNameless := by
  unfold walkEvents at h
  split at h
  case h_3 => cases h
  all_goals
    obtain rfl := List.mem_singleton.mp h
    simp [Event.IsNameless]

theorem isNameless_memoryEvents (h : e ∈ memoryEvents tuning w) : e.IsNameless := by
  rw [memoryEvents] at h
  split at h
  case h_2 => cases h
  case h_1 =>
    obtain rfl := List.mem_singleton.mp h
    simp [Event.IsNameless]

theorem isNameless_windowEvents (h : e ∈ windowEvents tuning term w) : e.IsNameless := by
  rw [windowEvents] at h
  split at h
  case h_2 => cases h
  case h_1 =>
    rcases List.mem_append.mp h with h | h
    case inl => exact isNameless_memoryEvents h
    case inr =>
      obtain rfl := List.mem_singleton.mp h
      simp [Event.IsNameless]

theorem isNameless_events (h : e ∈ events tuning series term stop) : e.IsNameless := by
  rcases List.mem_append.mp h with h | h
  case inl => exact isNameless_walkEvents h
  case inr =>
    split at h
    case h_2 => cases h
    case h_1 =>
      split at h
      case h_1 => exact isNameless_windowEvents h
      case h_2 => cases h

end DurationBased

theorem CapacityBased.isNameless_events {tuning : Tuning} {series : Series} {term : Term}
    {stop : Timestamp} {e : Event} (h : e ∈ events tuning series term stop) : e.IsNameless := by
  rw [events] at h
  split at h
  case h_2 => cases h
  case h_1 =>
    split at h
    case h_2 => cases h
    case h_1 =>
      obtain rfl := List.mem_singleton.mp h
      simp [Event.IsNameless]

namespace Engine

variable {engine : Engine} {series : Series} {stop : Timestamp} {term : Term} {e : Event}

theorem isNameless_termEvents (h : e ∈ engine.termEvents series stop term) : e.IsNameless := by
  rw [termEvents] at h
  split at h
  case h_1 =>
    split at h
    exacts [DurationBased.isNameless_events h, CapacityBased.isNameless_events h]
  case h_2 =>
    rcases List.mem_append.mp h with h | h
    case inl =>
      split at h
      exacts [DurationBased.isNameless_events h, CapacityBased.isNameless_events h]
    case inr =>
      obtain rfl := List.mem_singleton.mp h
      simp [Event.IsNameless]

theorem isNameless_events (h : e ∈ engine.events series stop) : e.IsNameless := by
  rcases List.mem_append.mp h with h | h
  case inl =>
    obtain ⟨term, _, h⟩ := List.mem_flatMap.mp h
    exact isNameless_termEvents h
  case inr =>
    obtain rfl := List.mem_singleton.mp h
    cases engine.kind <;> simp [Event.IsNameless]

end Engine

end ContainerSizing
