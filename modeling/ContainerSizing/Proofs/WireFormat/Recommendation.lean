import ContainerSizing.Proofs.Json.Lossless
import ContainerSizing.Proofs.Recommendation
import ContainerSizing.Proofs.Timestamp.Text

namespace ContainerSizing

open Reader

variable [Json.Conversion]

namespace Quantity

theorem inverts_reader : Inverts reader toJson Each := by
  intro q
  let fields := [("amount", Json.float q.amount), ("format", Json.text q.unit)]
  let ms := Members.ofFields fields
  have hamount : Yields (ms.required "amount" number) _ _ q.amount :=
    Members.yields_required inverts_number rfl
  have hunit : Yields (ms.required "format" text) _ _ q.unit :=
    Members.yields_required inverts_text rfl
  have hnames : ∀ f ∈ fields, f.1 ∈ ["amount", "format"] := by simp [fields]
  rw [reader, toJson]
  refine (Members.yields_record hnames (hamount.map.seq hunit)).congr ?_ ?_
  all_goals simp only [Each, and_true]

theorem lossless_reader : Lossless reader toJson Each := by
  refine lossless_record inverts_reader ?written ?sound
  case written => simp [Json.isWritten_float, Json.isWritten_text]
  case sound =>
    intro ms q hq
    simp only [Scan.seq_eq_ok_iff, Scan.map_eq_ok_iff] at hq
    obtain ⟨_, _, ⟨x, hx, rfl⟩, -, rfl⟩ := hq
    exact Members.isFinite_of_required hx

end Quantity

namespace Quantities

theorem lossless_reader : Lossless reader toJson Each := by
  have h := (lossless_mapping Resource.ofName?_name Quantity.lossless_reader).map foldl_entries
    (fun _ => forall_mem_entries) fun es he => List.foldlRecOn es _ each_none fun qs hqs e hm =>
      hqs.set (he e hm)
  simp only [← toJson_eq] at h
  exact h

end Quantities

namespace Allocation

theorem lossless_reader : Lossless reader toJson Each := by
  have h := (lossless_mapping Setting.ofName?_name Quantities.lossless_reader).map foldl_entries
    (fun _ => forall_mem_entries) fun es he => List.foldlRecOn es _ each_empty fun a ha e hm =>
      ha.setGroup (he e hm)
  simp only [← toJson_eq] at h
  exact h

end Allocation

namespace Notification

theorem inverts_reader : Inverts reader toJson fun _ _ => True := by
  intro n
  let fields := [("type", Json.text n.severity.name), ("code", Json.natural n.code.toNat),
    ("kind", Json.text n.kind.name), ("message", Json.text n.message)]
  let ms := Members.ofFields fields
  have hseverity : Yields (ms.required "type" (choice Severity.ofName?)) _ _ n.severity :=
    Members.yields_required (inverts_choice Severity.ofName?_name) rfl
  have hcode : Yields (ms.required "code" uint32) _ _ n.code :=
    Members.yields_required inverts_uint32 rfl
  have hkind : Yields (ms.required "kind" (choice NotificationKind.ofName?)) _ _ n.kind :=
    Members.yields_required (inverts_choice NotificationKind.ofName?_name) rfl
  have hmessage : Yields (ms.required "message" text) _ _ n.message :=
    Members.yields_required inverts_text rfl
  have hnames : ∀ f ∈ fields, f.1 ∈ ["type", "code", "kind", "message"] := by simp [fields]
  rw [reader, toJson]
  refine (Members.yields_record hnames (((hseverity.map.seq hcode).seq hkind).seq
    hmessage)).congr ?_ ?_
  all_goals simp only [and_true]

theorem lossless_reader : Lossless reader toJson fun _ _ => True := by
  refine lossless_record inverts_reader ?written fun _ _ _ => trivial
  simp [Json.isWritten_natural, Json.isWritten_text]

end Notification

namespace Recommendation

section Members

variable {r : Recommendation} {name : String} {t : Option Timestamp} {a : Allocation}

theorem yields_instant
    (h : (r.members.filter fun f => f.1 = name) =
      Members.member name (t.map fun t => .text t.isoText)) :
    Yields ((Members.ofFields r.members).optional name (nullable (parsed Timestamp.ofText?)) none)
      True True t := by
  cases t
  case none => exact Members.yields_optional_of_absent h
  case some t =>
    refine Members.yields_of_filter (.of_eq ?_) h
    simp [nullable, Json.text, parsed, text, Timestamp.ofText?_isoText, Functor.map, Except.map]

theorem yields_allocation
    (h : (r.members.filter fun f => f.1 = name) =
      Members.member name (if a.isEmpty then none else some a.toJson)) :
    Yields ((Members.ofFields r.members).optional name Allocation.reader ∅) (a.Each ReadsBack)
      a.IsFinite a := by
  split at h
  case isTrue he =>
    rw [Allocation.isEmpty_iff.mp he]
    have hempty : Yields ((Members.ofFields r.members).optional name Allocation.reader ∅) _ _ ∅ :=
      Members.yields_optional_of_absent h
    exact ⟨fun _ => Allocation.each_empty, fun _ _ => hempty.back trivial trivial⟩
  case isFalse => exact Members.yields_optional Allocation.lossless_reader.inverts h

theorem yields_notifications :
    Yields ((Members.ofFields r.members).optional "notifications" (list Notification.reader) [])
      True True r.notifications := by
  have h : (r.members.filter fun f => f.1 = "notifications") = Members.member "notifications"
      (if r.notifications.isEmpty then none
        else some (.array (r.notifications.map Notification.toJson))) := by simp [members]
  split at h
  case isTrue he =>
    rw [List.isEmpty_iff.mp he]
    exact Members.yields_optional_of_absent h
  case isFalse =>
    have hlist : Yields ((Members.ofFields r.members).optional "notifications"
        (list Notification.reader) []) _ _ r.notifications :=
      Members.yields_optional (inverts_list Notification.inverts_reader) h
    simpa using hlist

end Members

theorem inverts_reader : Inverts reader toJson Each := by
  intro r
  let ms := Members.ofFields r.members
  let instant := nullable (parsed Timestamp.ofText?)
  have hstart : Yields (ms.optional "monitoring_start_time" instant none) _ _ r.start :=
    yields_instant (by simp [members])
  have hstop : Yields (ms.optional "monitoring_end_time" instant none) _ _ r.stop :=
    yields_instant (by simp [members])
  have hhours : Yields (ms.optional "duration_in_hours" number 0.0) _ _ r.hours :=
    Members.yields_optional inverts_number (by simp [members])
  have hpods : Yields (ms.optional "pods_count" uint32 0) _ _ r.pods :=
    Members.yields_optional inverts_uint32 (by simp [members])
  have hconfig : Yields (ms.optional "config" Allocation.reader ∅) _ _ r.config :=
    yields_allocation (by simp [members])
  have hvariation : Yields (ms.optional "variation" Allocation.reader ∅) _ _ r.variation :=
    yields_allocation (by simp [members])
  have hnotifications : Yields (ms.optional "notifications" (list Notification.reader) []) _ _
      r.notifications := yields_notifications
  have hnames : ∀ f ∈ r.members, f.1 ∈ ["monitoring_start_time", "monitoring_end_time",
      "duration_in_hours", "pods_count", "config", "variation", "notifications"] := by
    intro f hf
    simp only [members, List.mem_append] at hf
    rcases hf with (((((h | h) | h) | h) | h) | h) | h <;> simp [Members.fst_of_mem_member h]
  rw [reader, toJson_eq]
  refine (Members.yields_record hnames ((((((hstart.map.seq hstop).seq hhours).seq hpods).seq
    hconfig).seq hvariation).seq hnotifications)).congr ?_ ?_
  all_goals simp only [each_iff, Allocation.IsFinite, true_and, and_true]

theorem lossless_reader : Lossless reader toJson Each := by
  have h := inverts_reader
  simp only [funext toJson_eq] at h ⊢
  rw [reader] at h ⊢
  refine lossless_record h ?written ?sound
  case written =>
    intro r
    have hinstant (t : Option Timestamp) :
        ∀ v ∈ t.map fun t => Json.text t.isoText, v.IsWritten := by
      cases t <;> simp [Json.isWritten_text]
    have hallocation (a : Allocation) :
        ∀ v ∈ if a.isEmpty then none else some a.toJson, v.IsWritten := by
      split <;> simp [Allocation.lossless_reader.written]
    have hnotifications : ∀ v ∈ if r.notifications.isEmpty then none
        else some (Json.array (r.notifications.map Notification.toJson)), v.IsWritten := by
      split <;> simp [(lossless_list Notification.lossless_reader).written]
    simp only [members, List.forall_mem_append, Members.isWritten_member]
    refine ⟨⟨⟨⟨⟨⟨hinstant _, hinstant _⟩, ?_⟩, ?_⟩, hallocation _⟩, hallocation _⟩, hnotifications⟩
    · simp [Json.isWritten_float]
    · simp [Json.isWritten_natural]
  case sound =>
    intro ms r hr
    simp only [Scan.seq_eq_ok_iff, Scan.map_eq_ok_iff] at hr
    obtain ⟨_, _, ⟨_, _, ⟨_, _, ⟨_, _, ⟨_, _, ⟨_, _, ⟨_, _, rfl⟩, _, rfl⟩, hh, rfl⟩, _, rfl⟩, hc, rfl⟩,
      hv, rfl⟩, _, rfl⟩ := hr
    have hhours := Members.isFinite_of_optional rfl hh
    have hconfig := Members.sound_optional Allocation.lossless_reader Allocation.each_empty hc
    have hvariation := Members.sound_optional Allocation.lossless_reader Allocation.each_empty hv
    exact ⟨hhours, hconfig, hvariation⟩

end Recommendation

namespace RecommendationSet

theorem lossless_reader : Lossless reader toJson Each :=
  (lossless_mapping (fun _ => rfl) Recommendation.lossless_reader).map SortedMap.ofList_entries
    (fun _ => forall_mem_entries) fun _ he _ _ h => he _ (SortedMap.mem_of_get?_ofList h)

end RecommendationSet

end ContainerSizing
