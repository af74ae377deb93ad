import ContainerSizing.Proofs.Json.Reader
import ContainerSizing.Proofs.SortedMap
import ContainerSizing.Recommendation.Basic

namespace ContainerSizing

open Reader

theorem Setting.ofName?_name (s : Setting) : ofName? s.name = some s := by
  cases s <;> rfl

theorem Resource.ofName?_name (r : Resource) : ofName? r.name = some r := by
  cases r <;> rfl

variable {P : Float → Prop}

-- `Each P` holds of the values whose numbers all have `P`. Numbers that are not finite are written as
-- `null`.

namespace Quantity

def Each (P : Float → Prop) (q : Quantity) : Prop :=
  P q.amount

def IsFinite : Quantity → Prop :=
  Each fun x => x.isFinite

instance [DecidablePred P] (q : Quantity) : Decidable (q.Each P) :=
  inferInstanceAs (Decidable (P q.amount))

theorem holdsNull_toJson (q : Quantity) : q.toJson.holdsNull = false ↔ q.IsFinite := by
  simp [toJson, IsFinite, Each]

end Quantity

namespace Quantities

def Each (P : Float → Prop) (qs : Quantities) : Prop :=
  ∀ r q, qs.get? r = some q → q.Each P

def IsFinite : Quantities → Prop :=
  Each fun x => x.isFinite

theorem each_none : Quantities.none.Each P := by
  intro r q h
  rw [get?_none] at h
  cases h

theorem Each.set {qs : Quantities} {r : Resource} {q : Quantity}
    (h : qs.Each P) (hq : q.Each P) : (qs.set r q).Each P := by
  intro r' q' h'
  rw [get?_set] at h'
  split at h'
  case isTrue =>
    cases h'
    exact hq
  case isFalse => exact h r' q' h'

-- The members of the object.
def entries (qs : Quantities) : List (Resource × Quantity) :=
  [.cpu, .memory].filterMap fun r => (qs.get? r).map fun q => (r, q)

theorem toJson_eq (qs : Quantities) :
    qs.toJson = .record (qs.entries.map fun (r, q) => (r.name, q.toJson)) := by
  obtain ⟨_ | _, _ | _⟩ := qs <;> rfl

theorem foldl_entries (qs : Quantities) :
    qs.entries.foldl (fun qs (r, q) => qs.set r q) none = qs := by
  obtain ⟨_ | _, _ | _⟩ := qs <;> rfl

theorem mem_entries {qs : Quantities} {r : Resource} {q : Quantity} :
    (r, q) ∈ qs.entries ↔ qs.get? r = some q := by
  simp only [entries, List.mem_filterMap, Option.map_eq_some_iff, Prod.mk.injEq]
  constructor
  · rintro ⟨_, -, _, h, rfl, rfl⟩
    exact h
  · intro h
    exact ⟨r, by cases r <;> simp, q, h, rfl, rfl⟩

theorem forall_mem_entries (qs : Quantities) : (∀ e ∈ qs.entries, e.2.Each P) ↔ qs.Each P := by
  constructor
  · intro h r q hq
    exact h (r, q) (mem_entries.mpr hq)
  · intro h e he
    exact h e.1 e.2 (mem_entries.mp he)

instance [DecidablePred P] (qs : Quantities) : Decidable (qs.Each P) :=
  decidable_of_iff _ qs.forall_mem_entries

theorem holdsNull_toJson (qs : Quantities) : qs.toJson.holdsNull = false ↔ qs.IsFinite := by
  rw [toJson_eq, IsFinite, ← forall_mem_entries]
  exact Json.holdsNull_record_map Quantity.holdsNull_toJson _

end Quantities

namespace Allocation

def Each (P : Float → Prop) (a : Allocation) : Prop :=
  ∀ s r q, a.get? s r = some q → q.Each P

def IsFinite : Allocation → Prop :=
  Each fun x => x.isFinite

theorem each_empty : (∅ : Allocation).Each P := by
  intro s r q h
  rw [get?_empty] at h
  cases h

theorem group?_setGroup (a : Allocation) (s s' : Setting) (qs : Quantities) :
    (a.setGroup s qs).group? s' = if s' = s then some qs else a.group? s' := by
  cases s <;> cases s' <;> rfl

theorem Each.setGroup {a : Allocation} {s : Setting} {qs : Quantities}
    (h : a.Each P) (hqs : qs.Each P) : (a.setGroup s qs).Each P := by
  intro s' r q h'
  rw [get?, group?_setGroup] at h'
  split at h'
  case isTrue => exact hqs r q h'
  case isFalse => exact h s' r q h'

def entries (a : Allocation) : List (Setting × Quantities) :=
  [.requests, .limits].filterMap fun s => (a.group? s).map fun qs => (s, qs)

theorem toJson_eq (a : Allocation) :
    a.toJson = .record (a.entries.map fun (s, qs) => (s.name, qs.toJson)) := by
  obtain ⟨_ | _, _ | _⟩ := a <;> rfl

theorem foldl_entries (a : Allocation) :
    a.entries.foldl (fun a (s, qs) => a.setGroup s qs) ∅ = a := by
  obtain ⟨_ | _, _ | _⟩ := a <;> rfl

theorem mem_entries {a : Allocation} {s : Setting} {qs : Quantities} :
    (s, qs) ∈ a.entries ↔ a.group? s = some qs := by
  simp only [entries, List.mem_filterMap, Option.map_eq_some_iff, Prod.mk.injEq]
  constructor
  · rintro ⟨_, -, _, h, rfl, rfl⟩
    exact h
  · intro h
    exact ⟨s, by cases s <;> simp, qs, h, rfl, rfl⟩

theorem forall_mem_entries (a : Allocation) : (∀ e ∈ a.entries, e.2.Each P) ↔ a.Each P := by
  constructor
  · intro h s r q hq
    obtain ⟨qs, hqs, hq⟩ := Option.bind_eq_some_iff.mp hq
    exact h _ (mem_entries.mpr hqs) r q hq
  · intro h e he r q hq
    exact h e.1 r q (Option.bind_eq_some_iff.mpr ⟨_, mem_entries.mp he, hq⟩)

instance [DecidablePred P] (a : Allocation) : Decidable (a.Each P) :=
  decidable_of_iff _ a.forall_mem_entries

theorem holdsNull_toJson (a : Allocation) : a.toJson.holdsNull = false ↔ a.IsFinite := by
  rw [toJson_eq, IsFinite, ← forall_mem_entries]
  exact Json.holdsNull_record_map Quantities.holdsNull_toJson _

theorem isEmpty_iff {a : Allocation} : a.isEmpty ↔ a = ∅ := by
  obtain ⟨_ | _, _ | _⟩ := a <;> simp [isEmpty, EmptyCollection.emptyCollection, empty]

end Allocation

namespace Notification

theorem holdsNull_toJson (n : Notification) : n.toJson.holdsNull = false := by
  simp [toJson]

end Notification

namespace Recommendation

structure Each (P : Float → Prop) (r : Recommendation) : Prop where
  hours     : P r.hours
  config    : r.config.Each P
  variation : r.variation.Each P

def IsFinite : Recommendation → Prop :=
  Each fun x => x.isFinite

theorem each_iff {r : Recommendation} :
    r.Each P ↔ (P r.hours ∧ r.config.Each P) ∧ r.variation.Each P :=
  ⟨fun h => ⟨⟨h.hours, h.config⟩, h.variation⟩, fun h => ⟨h.left.left, h.left.right, h.right⟩⟩

instance [DecidablePred P] (r : Recommendation) : Decidable (r.Each P) :=
  decidable_of_iff _ each_iff.symm

def members (r : Recommendation) : List (String × Json) :=
  Members.member "monitoring_start_time" (r.start.map fun t => .text t.isoText) ++
    Members.member "monitoring_end_time" (r.stop.map fun t => .text t.isoText) ++
    Members.member "duration_in_hours" (some (.float r.hours)) ++
    Members.member "pods_count" (some (.natural r.pods.toNat)) ++
    Members.member "config" (if r.config.isEmpty then none else some r.config.toJson) ++
    Members.member "variation" (if r.variation.isEmpty then none else some r.variation.toJson) ++
    Members.member "notifications" (if r.notifications.isEmpty then none
      else some (.array (r.notifications.map Notification.toJson)))

theorem toJson_eq (r : Recommendation) : r.toJson = .record r.members := by
  simp only [toJson, members, Members.member_ite]
  simp [Members.member, Option.toList_map, Function.comp_def]

theorem holdsNull_allocation (name : String) (a : Allocation) :
    ((Members.member name (if a.isEmpty then none else some a.toJson)).any fun f => f.2.holdsNull) =
      false ↔ a.IsFinite := by
  split
  case isTrue he =>
    rw [Allocation.isEmpty_iff.mp he]
    simp [Members.member, Allocation.IsFinite, Allocation.each_empty]
  case isFalse => simp [Allocation.holdsNull_toJson]

theorem holdsNull_toJson (r : Recommendation) : r.toJson.holdsNull = false ↔ r.IsFinite := by
  have hinstant (name : String) (t : Option Timestamp) :
      ((Members.member name (t.map fun t => .text t.isoText)).any fun f => f.2.holdsNull) = false := by
    cases t <;> simp [Members.member]
  have hnotifications : ((Members.member "notifications" (if r.notifications.isEmpty then none
      else some (.array (r.notifications.map Notification.toJson)))).any
        fun f => f.2.holdsNull) = false := by
    split <;> simp [Members.member, Notification.holdsNull_toJson]
  rw [toJson_eq, Json.holdsNull_record]
  simp only [members, List.any_append, hinstant, hnotifications, Bool.or_eq_false_iff,
    holdsNull_allocation, Members.member_some, List.any_cons, List.any_nil, Json.holdsNull_float,
    Json.holdsNull_natural, Bool.not_eq_false', true_and, and_true]
  exact (each_iff (P := fun x => x.isFinite)).symm

end Recommendation

namespace RecommendationSet

def Each (P : Float → Prop) (rs : RecommendationSet) : Prop :=
  ∀ label r, rs.get? label = some r → r.Each P

theorem forall_mem_entries (rs : RecommendationSet) :
    (∀ e ∈ rs.entries, e.2.Each P) ↔ rs.Each P := by
  simp only [Each, Prod.forall, SortedMap.mem_entries_iff]

instance [DecidablePred P] (rs : RecommendationSet) : Decidable (rs.Each P) :=
  decidable_of_iff _ rs.forall_mem_entries

end RecommendationSet

end ContainerSizing
