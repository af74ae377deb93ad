import ContainerSizing.Proofs.Json.Reader

namespace ContainerSizing

namespace Reader

variable [Json.Conversion] {α β κ : Type} {read : Reader α} {write : α → Json}
variable {each : (Float → Prop) → α → Prop}

-- Nothing gets lost between `read` and `write`, and no value that is read from anything holds a number
-- that is not finite. What readers have in common is proved for each kind of them once.
structure Lossless (read : Reader α) (write : α → Json) (each : (Float → Prop) → α → Prop) :
    Prop where
  inverts : Inverts read write each
  written : ∀ x, (write x).IsWritten
  sound   : ∀ v x, read v = .ok x → each (fun y => y.isFinite) x

-- On one line or indented, `x` comes back from its text.
def ComesBack (read : Reader α) (write : α → Json) (x : α) : Prop :=
  decode read (write x).render = some x ∧ decode read (write x).renderIndented = some x

namespace Lossless

variable {s : String} {x y : α}

theorem of_decode (h : Lossless read write each) (hx : decode read s = some x) :
    each (fun y => y.isFinite) x := by
  obtain ⟨v, -, hv⟩ := Option.bind_eq_some_iff.mp hx
  exact h.sound v x (toOption_eq_some_iff.mp hv)

theorem of_decode_render (h : Lossless read write each)
    (hy : decode read (write x).render = some y) : each (fun y => y.isFinite) x :=
  (h.inverts x).only ((decode_render (h.written x)).mp hy)

theorem comesBack (h : Lossless read write each) (hx : each (fun y => y.isFinite) x)
    (hback : each ReadsBack x) : ComesBack read write x := by
  have hread := (h.inverts x).back hback hx
  exact ⟨(decode_render (h.written x)).mpr hread, (decode_renderIndented (h.written x)).mpr hread⟩

end Lossless

theorem lossless_number : Lossless number Json.float fun P x => P x where
  inverts := inverts_number
  written := Json.isWritten_float
  sound   := by
    intro v x h
    cases v
    case number n =>
      rw [number] at h
      split at h <;> cases h
      exact Json.Conversion.isFinite_of_float? ‹_›
    all_goals cases h

theorem lossless_list (h : Lossless read write each) :
    Lossless (list read) (fun xs => .array (xs.map write)) fun P xs => ∀ x ∈ xs, each P x where
  inverts := inverts_list h.inverts
  written xs := by
    refine .array fun v hv => ?_
    obtain ⟨x, _, rfl⟩ := List.mem_map.mp hv
    exact h.written x
  sound   := by
    intro v xs hx
    cases v
    case array vs =>
      change items read vs = .ok xs at hx
      induction vs generalizing xs
      case nil =>
        cases hx
        simp
      case cons v vs hi =>
        obtain ⟨_, _, hy, hys, rfl⟩ := items_cons_eq_ok_iff.mp hx
        exact List.forall_mem_cons.mpr ⟨h.sound v _ hy, hi _ hys⟩
    all_goals cases hx

theorem lossless_mapping {key : String → Option κ} {name : κ → String}
    (hk : ∀ k, key (name k) = some k) (h : Lossless read write each) :
    Lossless (mapping key read) (fun es => Json.record (es.map fun (k, x) => (name k, write x)))
      fun P es => ∀ e ∈ es, each P e.2 where
  inverts := inverts_mapping hk h.inverts
  written es := by
    refine Json.isWritten_record fun f hf => ?_
    obtain ⟨e, _, rfl⟩ := List.mem_map.mp hf
    exact h.written e.2
  sound   := by
    intro v es he
    cases v
    case object ms =>
      change entries key read ms = .ok es at he
      induction ms generalizing es
      case nil =>
        cases he
        simp
      case cons m ms hi =>
        obtain ⟨_ | name, v⟩ := m
        case none => cases he
        case some =>
          obtain ⟨_, _, _, -, hy, hds, rfl⟩ := entries_cons_eq_ok_iff.mp he
          exact List.forall_mem_cons.mpr ⟨h.sound v _ hy, hi _ hds⟩
    all_goals cases he

-- A view of the values that are read; every value has one that it is seen in.
theorem Lossless.map {f : α → β} {g : β → α} {each' : (Float → Prop) → β → Prop}
    (h : Lossless read write each) (hfg : ∀ y, f (g y) = y) (heq : ∀ P y, each P (g y) ↔ each' P y)
    (hf : ∀ x, each (fun y => y.isFinite) x → each' (fun y => y.isFinite) (f x)) :
    Lossless (fun v => f <$> read v) (fun y => write (g y)) each' where
  inverts y := by
    have hy := h.inverts.map hfg y
    simp only [heq] at hy
    exact hy
  written y := h.written (g y)
  sound v y hy := by
    obtain ⟨x, hx, rfl⟩ := map_eq_ok_iff.mp hy
    exact hf x (h.sound v x hx)

section Records

variable {names : List String} {fields : Members → Scan α} {ms : Members} {name : String} {v : Json}
variable {x default : α} {absent : Except Json.Fault α}

-- A record that is read has members that are.
theorem exists_fields (h : record names fields v = .ok x) : ∃ ms, fields ms = .ok x := by
  have hread (ms : Members)
      (hs : ((fun a _ => a) <$> fields ms <*> ms.others names : Scan α) = .ok x) :
      fields ms = .ok x := by
    obtain ⟨_, _, hf, -, rfl⟩ := Scan.seq_eq_ok_iff.mp hs
    obtain ⟨_, hx, rfl⟩ := Scan.map_eq_ok_iff.mp hf
    exact hx
  cases v
  case object | array =>
    rw [record] at h
    simp only at h
    split at h
    case h_1 ha =>
      cases h
      exact ⟨_, hread _ ha⟩
    case h_2 => cases h
  all_goals cases h

namespace Members

theorem sound_required (h : Lossless read write each) (hx : ms.required name read = .ok x) :
    each (fun y => y.isFinite) x := by
  rcases exists_read hx with ⟨v, hv⟩ | hd
  case inl => exact h.sound v x hv
  case inr => cases hd

theorem sound_optional (h : Lossless read write each) (hd : each (fun y => y.isFinite) default)
    (hx : ms.optional name read default = .ok x) : each (fun y => y.isFinite) x := by
  rcases exists_read hx with ⟨v, hv⟩ | hx
  case inl => exact h.sound v x hv
  case inr =>
    cases hx
    exact hd

theorem isFinite_of_required {x : Float} (hx : ms.required name number = .ok x) : x.isFinite :=
  (sound_required lossless_number hx :)

theorem isFinite_of_optional {x default : Float} (hd : default.isFinite)
    (hx : ms.optional name number default = .ok x) : x.isFinite :=
  (sound_optional lossless_number hd hx :)

end Members

-- What is left to show of a record, once it inverts its writer, is about its members.
theorem lossless_record {write : α → List (String × Json)}
    (hi : Inverts (record names fields) (fun x => Json.record (write x)) each)
    (hw : ∀ x, ∀ f ∈ write x, f.2.IsWritten)
    (hf : ∀ ms x, fields ms = .ok x → each (fun y => y.isFinite) x) :
    Lossless (record names fields) (fun x => Json.record (write x)) each where
  inverts := hi
  written x := Json.isWritten_record (hw x)
  sound v x hx := by
    obtain ⟨ms, hms⟩ := exists_fields hx
    exact hf ms x hms

end Records

end Reader

end ContainerSizing
