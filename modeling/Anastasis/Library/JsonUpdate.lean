import Anastasis.Library.Json

/-! Setting a field of an object in place, and of an object in a list of objects. -/

set_option autoImplicit false

namespace Library.Json

def setField (value : Json) (name : String) (field : Json) : Json :=
  match value with
  | object members => object (setMember members name field)
  | other => other

def itemsAt (value : Json) (name : String) : List Json :=
  ((value.member? name).bind array?).getD []

def setItemField (value : Json) (name : String) (place : Nat) (key : String) (field : Json) :
    Json :=
  value.setField name
    (array ((value.itemsAt name).modify place fun item => item.setField key field))

private theorem find?_setMember_ne (members : List (String × Json)) {name other : String}
    (different : other ≠ name) (field : Json) :
    ((setMember members name field).find? fun member => member.1 = other).map Prod.snd =
      (members.find? fun member => member.1 = other).map Prod.snd := by
  induction members with
  | nil => simp [setMember, different.symm]
  | cons member rest ih =>
    obtain ⟨found, old⟩ := member
    unfold setMember
    by_cases same : found = name
    · simp [same, different.symm]
    rw [if_neg same]
    by_cases here : found = other
    · simp [here]
    · simpa [here] using ih

private theorem find?_setMember_self (members : List (String × Json)) (name : String)
    (field : Json) :
    ((setMember members name field).find? fun member => member.1 = name).map Prod.snd =
      some field := by
  induction members with
  | nil => simp [setMember]
  | cons member rest ih =>
    obtain ⟨found, old⟩ := member
    unfold setMember
    by_cases same : found = name
    · simp [same]
    · rw [if_neg same]
      simpa [same] using ih

private theorem setMember_setMember (members : List (String × Json)) (name : String)
    (old new : Json) : setMember (setMember members name old) name new =
      setMember members name new := by
  induction members with
  | nil => simp [setMember]
  | cons member rest ih =>
    obtain ⟨found, held⟩ := member
    by_cases same : found = name
    · simp [setMember, same]
    · simp [setMember, same, ih]

theorem setField_setField (value : Json) (name : String) (old new : Json) :
    (value.setField name old).setField name new = value.setField name new := by
  cases value with
  | object members => exact congrArg object (setMember_setMember members name old new)
  | _ => rfl

theorem member?_setField_ne (value : Json) {name other : String} (different : other ≠ name)
    (field : Json) : (value.setField name field).member? other = value.member? other := by
  cases value with
  | object members => exact find?_setMember_ne members different field
  | _ => rfl

theorem member?_setField_object (members : List (String × Json)) (name : String) (field : Json) :
    ((object members).setField name field).member? name = some field :=
  find?_setMember_self members name field

theorem member?_setField_self {value found : Json} {other : String}
    (present : value.member? other = some found) (name : String) (field : Json) :
    (value.setField name field).member? name = some field := by
  cases value with
  | object members => exact member?_setField_object members name field
  | _ => cases present

theorem itemsAt_setItemField {value : Json} {name : String} {place : Nat}
    (inside : place < (value.itemsAt name).length) (key : String) (field : Json) :
    (value.setItemField name place key field).itemsAt name =
      (value.itemsAt name).modify place fun item => item.setField key field := by
  cases present : value.member? name with
  | none => simp [itemsAt, present] at inside
  | some found =>
    unfold setItemField
    rw [itemsAt, member?_setField_self present]
    rfl

end Library.Json
