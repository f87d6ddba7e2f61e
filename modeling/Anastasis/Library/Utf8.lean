import Mathlib.Data.List.Basic

/-! UTF-8 with the replacement character standing for whatever does not decode. -/

set_option autoImplicit false

namespace Library.Utf8

open List

def encode (text : String) : List UInt8 := text.toList.flatMap String.utf8EncodeChar

/-- How many continuation bytes follow a first byte, and between which bounds the
first of them must lie. -/
def expected (first : UInt8) : Option (Nat × UInt8 × UInt8) :=
  if 0xC2 ≤ first ∧ first ≤ 0xDF then some (1, 0x80, 0xBF)
  else if first = 0xE0 then some (2, 0xA0, 0xBF)
  else if first = 0xED then some (2, 0x80, 0x9F)
  else if 0xE1 ≤ first ∧ first ≤ 0xEF then some (2, 0x80, 0xBF)
  else if first = 0xF0 then some (3, 0x90, 0xBF)
  else if first = 0xF4 then some (3, 0x80, 0x8F)
  else if 0xF1 ≤ first ∧ first ≤ 0xF3 then some (3, 0x80, 0xBF)
  else none

def continuations : Nat → UInt8 → UInt8 → List UInt8 → Nat
  | 0, _, _, _ => 0
  | _ + 1, _, _, [] => 0
  | more + 1, lower, upper, byte :: rest =>
    if lower ≤ byte ∧ byte ≤ upper then 1 + continuations more 0x80 0xBF rest else 0

def malformedLength : List UInt8 → Nat
  | [] => 0
  | first :: rest =>
    match expected first with
    | none => 1
    | some (more, lower, upper) => 1 + continuations more lower upper rest

def decodeLoop : Nat → List UInt8 → List Char
  | 0, _ => []
  | fuel + 1, bytes =>
    if bytes.isEmpty then []
    else
      match bytes.toByteArray.utf8DecodeChar? 0 with
      | some found => found :: decodeLoop fuel (bytes.drop found.utf8Size)
      | none => Char.ofNat 0xFFFD :: decodeLoop fuel (bytes.drop (malformedLength bytes))

def decode (bytes : List UInt8) : String := String.ofList (decodeLoop bytes.length bytes)

private theorem decodeLoop_encode (chars : List Char) (fuel : Nat) (enough : chars.length ≤ fuel) :
    decodeLoop fuel (chars.flatMap String.utf8EncodeChar) = chars := by
  induction chars generalizing fuel with
  | nil => cases fuel <;> simp [decodeLoop]
  | cons first rest ih =>
    cases fuel with
    | zero => simp at enough
    | succ fuel =>
      have decoded : ((first :: rest).flatMap String.utf8EncodeChar).toByteArray.utf8DecodeChar? 0 =
          some first := by
        rw [flatMap_cons, toByteArray_append]
        exact ByteArray.utf8DecodeChar?_utf8EncodeChar_append
      have nonempty : ((first :: rest).flatMap String.utf8EncodeChar).isEmpty = false := by
        simp [String.utf8EncodeChar_ne_nil]
      simp only [decodeLoop, nonempty, decoded, Bool.false_eq_true, if_false]
      rw [flatMap_cons, drop_left' (String.length_utf8EncodeChar first),
        ih fuel (by simpa using enough)]

theorem length_le_encode (text : String) : text.toList.length ≤ (encode text).length := by
  unfold encode
  induction text.toList with
  | nil => simp
  | cons first rest ih =>
    simp only [flatMap_cons, length_append, length_cons, String.length_utf8EncodeChar]
    have positive := first.utf8Size_pos
    omega

@[simp] theorem decode_encode (text : String) : decode (encode text) = text := by
  have decoded := decodeLoop_encode text.toList _ (length_le_encode text)
  change String.ofList (decodeLoop (encode text).length
    (text.toList.flatMap String.utf8EncodeChar)) = text
  rw [decoded, String.ofList_toList]

theorem encode_injective {left right : String} (same : encode left = encode right) :
    left = right := by
  have decoded := congrArg decode same
  simpa using decoded

end Library.Utf8
