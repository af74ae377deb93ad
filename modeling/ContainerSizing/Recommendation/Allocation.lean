import ContainerSizing.Recommendation.Notification

namespace ContainerSizing

structure Quantity where
  amount : Float
  unit : String
deriving DecidableEq

namespace Quantity

def toJson (q : Quantity) : Json :=
  .record [("amount", .float q.amount), ("format", .text q.unit)]

def reader [Json.Conversion] : Reader Quantity :=
  Reader.record ["amount", "format"] fun ms =>
    Quantity.mk <$> ms.required "amount" Reader.number <*> ms.required "format" Reader.text

end Quantity

-- The quantities of one setting.
structure Quantities where
  cpu : Option Quantity
  memory : Option Quantity
deriving DecidableEq

namespace Quantities

def none : Quantities :=
  ⟨.none, .none⟩

def get? (qs : Quantities) : Resource → Option Quantity
  | .cpu => qs.cpu
  | .memory => qs.memory

def set (qs : Quantities) (resource : Resource) (q : Quantity) : Quantities :=
  match resource with
  | .cpu => { qs with cpu := some q }
  | .memory => { qs with memory := some q }

@[simp] theorem get?_none (r : Resource) : none.get? r = .none := by
  cases r <;> rfl

theorem get?_set (qs : Quantities) (r r' : Resource) (q : Quantity) :
    (qs.set r q).get? r' = if r' = r then some q else qs.get? r' := by
  cases r <;> cases r' <;> rfl

def toJson (qs : Quantities) : Json :=
  .record (([.cpu, .memory] : List Resource).filterMap fun r =>
    (qs.get? r).map fun q => (r.name, q.toJson))

def reader [Json.Conversion] : Reader Quantities := fun v =>
  (·.foldl (fun qs (r, q) => qs.set r q) none) <$> Reader.mapping Resource.ofName? Quantity.reader v

end Quantities

-- The quantities of both settings.
structure Allocation where
  requests : Option Quantities
  limits : Option Quantities
deriving DecidableEq

namespace Allocation

def empty : Allocation :=
  ⟨none, none⟩

instance : EmptyCollection Allocation := ⟨empty⟩

def isEmpty (a : Allocation) : Bool :=
  a.requests.isNone && a.limits.isNone

def group? (a : Allocation) : Setting → Option Quantities
  | .requests => a.requests
  | .limits => a.limits

def setGroup (a : Allocation) (setting : Setting) (qs : Quantities) : Allocation :=
  match setting with
  | .requests => { a with requests := some qs }
  | .limits => { a with limits := some qs }

def get? (a : Allocation) (setting : Setting) (resource : Resource) : Option Quantity :=
  (a.group? setting).bind fun qs => qs.get? resource

def set (a : Allocation) (setting : Setting) (resource : Resource) (q : Quantity) : Allocation :=
  a.setGroup setting (((a.group? setting).getD .none).set resource q)

@[simp] theorem get?_empty (s : Setting) (r : Resource) : (∅ : Allocation).get? s r = none := by
  cases s <;> rfl

theorem get?_set (a : Allocation) (s s' : Setting) (r r' : Resource) (q : Quantity) :
    (a.set s r q).get? s' r' = if s' = s ∧ r' = r then some q else a.get? s' r' := by
  obtain ⟨_ | x, _ | y⟩ := a <;> cases s <;> cases s' <;> cases r <;> cases r' <;> rfl

def toJson (a : Allocation) : Json :=
  .record (([.requests, .limits] : List Setting).filterMap fun s =>
    (a.group? s).map fun qs => (s.name, qs.toJson))

-- The last group given for a setting stays.
def reader [Json.Conversion] : Reader Allocation := fun v =>
  (·.foldl (fun a (s, qs) => a.setGroup s qs) ∅) <$>
    Reader.mapping Setting.ofName? Quantities.reader v

end Allocation

end ContainerSizing
