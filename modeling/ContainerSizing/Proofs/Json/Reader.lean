import ContainerSizing.Json.Reader
import ContainerSizing.Proofs.Decimal.Shortest
import ContainerSizing.Proofs.Json.Printer

namespace ContainerSizing

namespace Json

mutual

-- `null` stands somewhere in the value.
def holdsNull : Json → Bool
  | .null => true
  | .array items => anyHoldsNull items
  | .object members => anyMemberHoldsNull members
  | _ => false

def anyHoldsNull : List Json → Bool
  | [] => false
  | value :: rest => holdsNull value || anyHoldsNull rest

def anyMemberHoldsNull : List (Option String × Json) → Bool
  | [] => false
  | (_, value) :: rest => holdsNull value || anyMemberHoldsNull rest

end

variable {fields : List (String × Json)} {items : List Json}

@[simp] theorem holdsNull_text (s : String) : (text s).holdsNull = false := rfl

@[simp] theorem holdsNull_natural (n : ℕ) : (natural n).holdsNull = false := rfl

@[simp] theorem holdsNull_float (x : Float) : (float x).holdsNull = !x.isFinite := by
  rw [float]
  split <;> simp_all [holdsNull]

@[simp] theorem holdsNull_array : (array items).holdsNull = items.any holdsNull := by
  rw [holdsNull]
  induction items
  case nil => rfl
  case cons hi => rw [anyHoldsNull, hi, List.any_cons]

@[simp] theorem holdsNull_record :
    (record fields).holdsNull = fields.any fun (_, value) => value.holdsNull := by
  rw [record, holdsNull]
  induction fields
  case nil => rfl
  case cons hi => rw [List.map_cons, anyMemberHoldsNull, hi, List.any_cons]

theorem holdsNull_record_map {α κ : Type} {write : α → Json} {p : α → Prop} {name : κ → String}
    (h : ∀ x, (write x).holdsNull = false ↔ p x) (es : List (κ × α)) :
    (record (es.map fun (k, x) => (name k, write x))).holdsNull = false ↔ ∀ e ∈ es, p e.2 := by
  rw [holdsNull_record, List.any_map, List.any_eq_false]
  simp only [Function.comp, Bool.not_eq_true, h]

end Json

namespace Reader

open Json (Conversion Fault)

variable {α β κ ε : Type}

section Texts

variable {read : Reader α} {v : Json} {x : α}

-- What is read from a text that holds one value and nothing else.
def decode (read : Reader α) (s : String) : Option α :=
  (Json.parse? s).bind fun v => (read v).toOption

theorem toOption_eq_some_iff {e : Except ε α} : e.toOption = some x ↔ e = .ok x := by
  cases e <;> simp [Except.toOption]

theorem decode_render (h : v.IsWritten) : decode read v.render = some x ↔ read v = .ok x := by
  rw [decode, Json.parse?_render h, Option.bind_some, toOption_eq_some_iff]

theorem decode_renderIndented (h : v.IsWritten) :
    decode read v.renderIndented = some x ↔ read v = .ok x := by
  rw [decode, Json.parse?_renderIndented h, Option.bind_some, toOption_eq_some_iff]

end Texts

section Numbers

variable [Conversion] {x : Float}

-- The text of a finite number is read as that number.
def ReadsBack (x : Float) : Prop :=
  x.isFinite → decode number (Json.float x).render = some x

instance : DecidablePred ReadsBack :=
  fun x => inferInstanceAs (Decidable (x.isFinite → decode number (Json.float x).render = some x))

theorem readsBack_iff :
    ReadsBack x ↔ (x.isFinite → Conversion.float? (Numeral.ofFloat x) = some x) := by
  rw [ReadsBack]
  refine forall_congr' fun h => ?_
  rw [decode_render (Json.isWritten_float x), Json.float, if_pos h, number]
  cases Conversion.float? (Numeral.ofFloat x) <;> simp

end Numbers

-- Every number reads back where numerals are read to the nearest number.
theorem readsBack_nearest (x : Float) : @ReadsBack .nearest x := by
  let _ : Conversion := .nearest
  refine readsBack_iff.mpr fun h => Option.filter_eq_some_iff.mpr ?_
  rw [Numeral.toFloat_ofFloat h]
  exact ⟨rfl, h⟩

-- Seven minutes in hours: scaling leads to the number above.
example : ¬@ReadsBack .stepwise (7.0 / 60.0) := by
  decide +kernel

-- A result that is there under the condition `q` only; it is `x` then, if `k` holds as well.
structure Yields (e : Except ε α) (k q : Prop) (x : α) : Prop where
  only : ∀ {y}, e = .ok y → q
  back : k → q → e = .ok x

theorem Yields.of_eq {e : Except ε α} {x : α} (h : e = .ok x) : Yields e True True x :=
  ⟨fun _ => trivial, fun _ _ => h⟩

theorem Yields.congr {e : Except ε α} {k k' q q' : Prop} {x : α} (h : Yields e k q x)
    (hk : k ↔ k') (hq : q ↔ q') : Yields e k' q' x :=
  ⟨fun he => hq.mp (h.only he), fun hk' hq' => h.back (hk.mpr hk') (hq.mpr hq')⟩

theorem map_eq_ok_iff {e : Except Fault α} {f : α → β} {b : β} :
    f <$> e = .ok b ↔ ∃ a, e = .ok a ∧ f a = b := by
  cases e <;> simp [Functor.map, Except.map]

section Items

variable {read : Reader α} {v : Json} {vs : List Json} {ms : List (Option String × Json)}

-- One value that is read in front of others that are.

theorem items_cons_eq_ok_iff {xs : List α} : items read (v :: vs) = .ok xs ↔
    ∃ y ys, read v = .ok y ∧ items read vs = .ok ys ∧ y :: ys = xs := by
  rw [items]
  cases read v <;> simp [map_eq_ok_iff]

theorem entries_cons_eq_ok_iff {key : String → Option κ} {name : String} {es : List (κ × α)} :
    entries key read ((some name, v) :: ms) = .ok es ↔
      ∃ k y ds, key name = some k ∧ read v = .ok y ∧ entries key read ms = .ok ds ∧
        (k, y) :: ds = es := by
  rw [entries]
  cases key name <;> cases read v <;> simp [map_eq_ok_iff]

end Items

section Inverts

variable [Conversion] {read : Reader α} {write : α → Json} {each : (Float → Prop) → α → Prop}

-- What is written for a value is refused if one of its numbers is not finite. Otherwise the value is
-- read from it again, as long as its numbers read back. `each` tells what holds of all numbers.
def Inverts (read : Reader α) (write : α → Json) (each : (Float → Prop) → α → Prop) : Prop :=
  ∀ x, Yields (read (write x)) (each ReadsBack x) (each (fun y => y.isFinite) x) x

theorem inverts_number : Inverts number Json.float fun P x => P x := by
  refine fun x => ⟨fun {y} h => ?only, fun hk hx => ?back⟩
  case only =>
    by_contra hx
    rw [Json.float, if_neg hx] at h
    cases h
  case back => exact (decode_render (Json.isWritten_float x)).mp (hk hx)

theorem inverts_text : Inverts text Json.text fun _ _ => True :=
  fun _ => .of_eq rfl

theorem inverts_uint32 : Inverts uint32 (fun n => Json.natural n.toNat) fun _ _ => True := by
  intro x
  have hx : x.toNat ≤ 4294967295 := Nat.le_of_lt_succ x.toNat_lt
  have hread : natural (UInt32.size - 1) (Json.natural x.toNat) = .ok x.toNat := by
    simp [natural, Json.natural, hx]
  refine .of_eq ?_
  rw [uint32, hread]
  change Except.ok (UInt32.ofNat x.toNat) = .ok x
  rw [UInt32.ofNat_toNat]

theorem inverts_parsed {parse : String → Option α} {print : α → String}
    (h : ∀ x, parse (print x) = some x) :
    Inverts (parsed parse) (fun x => Json.text (print x)) fun _ _ => True :=
  fun x => .of_eq (by simp [parsed, text, Json.text, h])

theorem inverts_choice {parse : String → Option α} {print : α → String}
    (h : ∀ x, parse (print x) = some x) :
    Inverts (choice parse) (fun x => Json.text (print x)) fun _ _ => True :=
  inverts_parsed h

theorem Inverts.map {f : α → β} {g : β → α} (h : Inverts read write each) (hfg : ∀ y, f (g y) = y) :
    Inverts (fun v => f <$> read v) (fun y => write (g y)) fun P y => each P (g y) := by
  refine fun y => ⟨fun {z} hz => ?only, fun hk hq => ?back⟩
  case only =>
    obtain ⟨_, hx, -⟩ := map_eq_ok_iff.mp hz
    exact (h (g y)).only hx
  case back => exact map_eq_ok_iff.mpr ⟨g y, (h (g y)).back hk hq, hfg y⟩

theorem inverts_list (h : Inverts read write each) :
    Inverts (list read) (fun xs => .array (xs.map write)) fun P xs => ∀ x ∈ xs, each P x := by
  intro xs
  induction xs
  case nil => exact ⟨by simp, fun _ _ => rfl⟩
  case cons x xs hi =>
    simp only [List.forall_mem_cons]
    refine ⟨fun {zs} hz => ?only, fun hk hq => ?back⟩
    case only =>
      obtain ⟨_, _, hy, hys, -⟩ := items_cons_eq_ok_iff.mp hz
      exact ⟨(h x).only hy, hi.only hys⟩
    case back =>
      exact items_cons_eq_ok_iff.mpr
        ⟨x, xs, (h x).back hk.left hq.left, hi.back hk.right hq.right, rfl⟩

-- The members of an object whose names are read by `key`.
theorem inverts_mapping {key : String → Option κ} {name : κ → String}
    (hname : ∀ k, key (name k) = some k) (h : Inverts read write each) :
    Inverts (mapping key read) (fun es => Json.record (es.map fun (k, x) => (name k, write x)))
      fun P es => ∀ e ∈ es, each P e.2 := by
  intro es
  induction es
  case nil => exact ⟨by simp, fun _ _ => rfl⟩
  case cons e es hi =>
    simp only [List.forall_mem_cons]
    refine ⟨fun {zs} hz => ?only, fun hk hq => ?back⟩
    case only =>
      obtain ⟨_, _, _, -, hy, hds, -⟩ := entries_cons_eq_ok_iff.mp hz
      exact ⟨(h e.2).only hy, hi.only hds⟩
    case back =>
      exact entries_cons_eq_ok_iff.mpr ⟨e.1, e.2, es, hname e.1, (h e.2).back hk.left hq.left,
        hi.back hk.right hq.right, rfl⟩

end Inverts

-- Members are read on their own, and the record is there if all of them are.

namespace Scan

variable {f : α → β} {f' : Scan (α → β)} {a : Scan α} {b : β}

theorem map_eq_ok_iff : (f <$> a : Scan β) = .ok b ↔ ∃ x, a = .ok x ∧ f x = b := by
  cases a <;> simp [Functor.map, Except.map]

theorem seq_eq_ok_iff : (f' <*> a : Scan β) = .ok b ↔ ∃ g x, f' = .ok g ∧ a = .ok x ∧ g x = b := by
  change Scan.both f' a = .ok b ↔ _
  cases f' <;> cases a <;> simp [Scan.both]

end Scan

namespace Yields

variable {f : α → β} {f' : Scan (α → β)} {a : Scan α} {x : α} {k k' q q' : Prop}

theorem map (h : Yields a k q x) : Yields (f <$> a : Scan β) k q (f x) := by
  refine ⟨fun {y} hy => ?only, fun hk hq => ?back⟩
  case only =>
    obtain ⟨_, ha, -⟩ := Scan.map_eq_ok_iff.mp hy
    exact h.only ha
  case back => exact Scan.map_eq_ok_iff.mpr ⟨x, h.back hk hq, rfl⟩

theorem seq (h : Yields f' k q f) (h' : Yields a k' q' x) :
    Yields (f' <*> a : Scan β) (k ∧ k') (q ∧ q') (f x) := by
  refine ⟨fun {y} hy => ?only, fun hk hq => ?back⟩
  case only =>
    obtain ⟨_, _, hf, ha, -⟩ := Scan.seq_eq_ok_iff.mp hy
    exact ⟨h.only hf, h'.only ha⟩
  case back =>
    exact Scan.seq_eq_ok_iff.mpr ⟨f, x, h.back hk.left hq.left, h'.back hk.right hq.right, rfl⟩

end Yields

namespace Members

variable {fields : List (String × Json)} {name : String} {names : List String} {v : Json} {a : α}
variable {absent : Except Fault α} {read : Reader α} {write : α → Json}
variable {each : (Float → Prop) → α → Prop}

-- The members of a written record.
def ofFields (fields : List (String × Json)) : Members :=
  ⟨fields.map fun (n, v) => (some n, v), false⟩

theorem map_snd_numbered (ms : Members) : ms.numbered.map (·.2) = ms.members := by
  rw [numbered, List.map_map]
  exact List.zipIdx_map_fst ..

theorem map_snd_filter_numbered (fields : List (String × Json)) (name : String) :
    ((ofFields fields).numbered.filter fun e => e.2.1 = some name).map (·.2) =
      (fields.filter fun f => f.1 = name).map fun (n, v) => (some n, v) := by
  have hp : (fun e : ℕ × Option String × Json => decide (e.2.1 = some name)) =
      (fun m : Option String × Json => decide (m.1 = some name)) ∘ fun e => e.2 := rfl
  rw [hp, ← List.filter_map, map_snd_numbered, ofFields, List.filter_map]
  congr 2
  ext f
  simp

theorem exists_read {ms : Members} {x : α} (h : ms.field name read absent = .ok x) :
    (∃ v, read v = .ok x) ∨ absent = .ok x := by
  rw [field.eq_def] at h
  split at h
  case h_1 =>
    cases absent
    case error => cases h
    case ok =>
      cases h
      exact .inr rfl
  case h_2 v _ _ =>
    -- neither a fault nor a second member of the name leaves a value
    split at h
    case h_2 hr _ =>
      cases h
      exact .inl ⟨v, hr⟩
    all_goals cases h

-- A member that is there once is read, and one that is not there has the value of its absence.

theorem field_eq_ok_iff (h : (fields.filter fun f => f.1 = name) = [(name, v)]) :
    (ofFields fields).field name read absent = .ok a ↔ read v = .ok a := by
  have hm := map_snd_filter_numbered fields name
  rw [h, List.map_singleton, List.map_eq_singleton_iff] at hm
  obtain ⟨⟨i, m⟩, hi, rfl⟩ := hm
  rw [field.eq_def]
  simp only [hi]
  cases read v <;> simp

theorem field_eq_ok_iff_of_absent (h : (fields.filter fun f => f.1 = name) = []) :
    (ofFields fields).field name read absent = .ok a ↔ absent = .ok a := by
  have hm := map_snd_filter_numbered fields name
  rw [h, List.map_nil, List.map_eq_nil_iff] at hm
  rw [field.eq_def]
  simp only [hm]
  cases absent <;> simp

theorem yields_of_filter {k q : Prop} {x : α} (hr : Yields (read v) k q x)
    (h : (fields.filter fun f => f.1 = name) = [(name, v)]) :
    Yields ((ofFields fields).field name read absent) k q x :=
  ⟨fun hy => hr.only ((field_eq_ok_iff h).mp hy),
    fun hk hq => (field_eq_ok_iff h).mpr (hr.back hk hq)⟩

theorem yields_optional_of_absent {default : α} (h : (fields.filter fun f => f.1 = name) = []) :
    Yields ((ofFields fields).optional name read default) True True default :=
  .of_eq ((field_eq_ok_iff_of_absent h).mpr rfl)

section Inverts

variable [Conversion] {x : α}

theorem yields_required (hr : Inverts read write each)
    (h : (fields.filter fun f => f.1 = name) = [(name, write x)]) :
    Yields ((ofFields fields).required name read) (each ReadsBack x)
      (each (fun y => y.isFinite) x) x :=
  yields_of_filter (hr x) h

theorem yields_optional (hr : Inverts read write each) {default : α}
    (h : (fields.filter fun f => f.1 = name) = [(name, write x)]) :
    Yields ((ofFields fields).optional name read default) (each ReadsBack x)
      (each (fun y => y.isFinite) x) x :=
  yields_of_filter (hr x) h

end Inverts

-- A member that may be left out.
def member (name : String) (value : Option Json) : List (String × Json) :=
  value.toList.map fun v => (name, v)

@[simp] theorem member_some : member name (some v) = [(name, v)] := rfl

theorem member_ite {c : Prop} [Decidable c] :
    member name (if c then none else some v) = if c then [] else [(name, v)] := by
  split <;> rfl

theorem fst_of_mem_member {f : String × Json} {value : Option Json} (h : f ∈ member name value) :
    f.1 = name := by
  obtain ⟨v, -, rfl⟩ := List.mem_map.mp h
  rfl

@[simp] theorem filter_member {other : String} {value : Option Json} :
    ((member other value).filter fun f => f.1 = name) =
      if other = name then member other value else [] := by
  split
  case isTrue h =>
    exact List.filter_eq_self.mpr fun f hf => decide_eq_true ((fst_of_mem_member hf).trans h)
  case isFalse h =>
    refine List.filter_eq_nil_iff.mpr fun f hf => ?_
    simpa [fst_of_mem_member hf] using h

theorem isWritten_member {value : Option Json} :
    (∀ f ∈ member name value, f.2.IsWritten) ↔ ∀ v ∈ value, v.IsWritten := by
  cases value <;> simp [member]

theorem others_eq_ok (h : ∀ f ∈ fields, f.1 ∈ names) : (ofFields fields).others names = .ok () := by
  rw [others.eq_def]
  split
  case h_1 i m hfind =>
    have hmem : m ∈ (ofFields fields).members := by
      rw [← map_snd_numbered]
      exact List.mem_map_of_mem (List.mem_of_find?_eq_some hfind)
    obtain ⟨f, hf, rfl⟩ := List.mem_map.mp hmem
    have hother := List.find?_some hfind
    simp [h f hf] at hother
  case h_2 => rfl

theorem record_eq_ok_iff [Conversion] {scan : Members → Scan α} (h : ∀ f ∈ fields, f.1 ∈ names) :
    Reader.record names scan (Json.record fields) = .ok a ↔ scan (ofFields fields) = .ok a := by
  have ho : Members.others ⟨fields.map fun (n, v) => (some n, v), false⟩ names = .ok () :=
    others_eq_ok h
  rw [Json.record, Reader.record, ofFields]
  simp only [ho]
  cases scan ⟨fields.map fun (n, v) => (some n, v), false⟩
  case ok => simp [Functor.map, Except.map, Seq.seq, Scan.both]
  case error => simp [Functor.map, Except.map, Seq.seq, Scan.both]

theorem yields_record [Conversion] {scan : Members → Scan α} {k q : Prop} {x : α}
    (h : ∀ f ∈ fields, f.1 ∈ names) (hs : Yields (scan (ofFields fields)) k q x) :
    Yields (Reader.record names scan (Json.record fields)) k q x :=
  ⟨fun hy => hs.only ((record_eq_ok_iff h).mp hy),
    fun hk hq => (record_eq_ok_iff h).mpr (hs.back hk hq)⟩

end Members

end Reader

end ContainerSizing
