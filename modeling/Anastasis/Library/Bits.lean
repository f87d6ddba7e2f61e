import Mathlib.Data.List.Basic
import Mathlib.Data.Nat.Bitwise

/-! Fixed-width binary digits, most significant first, and the regrouping facts
that codecs between digit sizes rest on. -/

set_option autoImplicit false

namespace Library

abbrev Bytes := List UInt8

abbrev Block (size : Nat) := { bytes : Bytes // bytes.length = size }

def zeroBlock (size : Nat) : Block size := ⟨List.replicate size 0, List.length_replicate⟩

def firstBytes (size : Nat) (data : Bytes) : Block size :=
  ⟨(data ++ List.replicate size 0).take size, by simp⟩

namespace Bits

/-- The `width` low bits of a number, most significant first. -/
def ofNat : Nat → Nat → List Bool
  | 0, _ => []
  | width + 1, value => value.testBit width :: ofNat width value

@[simp] theorem ofNat_zero (value : Nat) : ofNat 0 value = [] := rfl

@[simp] theorem length_ofNat (width value : Nat) : (ofNat width value).length = width := by
  induction width with
  | zero => rfl
  | succ width ih => simp [ofNat, ih]

theorem ofNat_congr {width left right : Nat}
    (eq : ∀ idx < width, left.testBit idx = right.testBit idx) :
    ofNat width left = ofNat width right := by
  induction width with
  | zero => rfl
  | succ width ih =>
    simp only [ofNat, eq width (Nat.lt_succ_self width)]
    rw [ih fun idx below => eq idx (Nat.lt_succ_of_lt below)]

theorem testBit_eq_of_ofNat_eq {width left right : Nat}
    (eq : ofNat width left = ofNat width right) :
    ∀ index < width, left.testBit index = right.testBit index := by
  induction width with
  | zero => intro index below; omega
  | succ width ih =>
    intro index below
    simp only [ofNat, List.cons.injEq] at eq
    rcases Nat.lt_succ_iff_lt_or_eq.mp below with lower | rfl
    · exact ih eq.2 index lower
    · exact eq.1

theorem ofNat_injective {width left right : Nat} (leftSmall : left < 2 ^ width)
    (rightSmall : right < 2 ^ width) (eq : ofNat width left = ofNat width right) :
    left = right := by
  apply Nat.eq_of_testBit_eq
  intro index
  by_cases below : index < width
  · exact testBit_eq_of_ofNat_eq eq index below
  · have wide : 2 ^ width ≤ 2 ^ index := Nat.pow_le_pow_right (by omega) (by omega)
    rw [Nat.testBit_lt_two_pow (by omega), Nat.testBit_lt_two_pow (by omega)]

theorem ofNat_add (high low value : Nat) :
    ofNat (high + low) value = ofNat high (value >>> low) ++ ofNat low value := by
  induction high with
  | zero => simp
  | succ high ih =>
    rw [Nat.succ_add]
    simp only [ofNat, ih, List.cons_append, Nat.testBit_shiftRight]
    rw [Nat.add_comm low high]

@[simp] theorem ofNat_width_zero (width : Nat) : ofNat width 0 = List.replicate width false := by
  induction width with
  | zero => rfl
  | succ width ih => simp [ofNat, ih, List.replicate_succ]

theorem ofNat_shift_or (held width size register digit : Nat)
    (small : digit < 2 ^ width) (fits : held + width ≤ size) :
    ofNat (held + width) ((register <<< width) % 2 ^ size ||| digit) =
      ofNat held register ++ ofNat width digit := by
  rw [ofNat_add]
  congr 1
  · apply ofNat_congr
    intro idx below
    have high : digit.testBit (width + idx) = false :=
      Nat.testBit_lt_two_pow (lt_of_lt_of_le small (Nat.pow_le_pow_right (by omega) (by omega)))
    simp only [Nat.testBit_shiftRight, Nat.testBit_or, Nat.testBit_mod_two_pow,
      Nat.testBit_shiftLeft, high, Bool.or_false]
    simp [show width + idx < size by omega]
  · apply ofNat_congr
    intro idx below
    simp only [Nat.testBit_or, Nat.testBit_mod_two_pow, Nat.testBit_shiftLeft]
    simp [show ¬ idx ≥ width by omega]

theorem flatMap_ofNat_injective {width : Nat} (positive : 0 < width)
    (left right : List Nat) (leftSmall : ∀ value ∈ left, value < 2 ^ width)
    (rightSmall : ∀ value ∈ right, value < 2 ^ width)
    (eq : left.flatMap (ofNat width) = right.flatMap (ofNat width)) : left = right := by
  induction left generalizing right with
  | nil =>
    cases right with
    | nil => rfl
    | cons value rest =>
      have lengths := congrArg List.length eq
      simp at lengths
      omega
  | cons value rest ih =>
    cases right with
    | nil =>
      have lengths := congrArg List.length eq
      simp at lengths
      omega
    | cons other others =>
      simp only [List.flatMap_cons] at eq
      obtain ⟨head, tail⟩ := List.append_inj eq (by simp)
      have equal := ofNat_injective (leftSmall value (by simp))
        (rightSmall other (by simp)) head
      rw [equal, ih others (fun value mem => leftSmall value (by simp [mem]))
        (fun value mem => rightSmall value (by simp [mem])) tail]

theorem length_flatMap_ofNat (width : Nat) (values : List Nat) :
    (values.flatMap (ofNat width)).length = width * values.length := by
  induction values with
  | nil => simp
  | cons value rest ih => simp [ih, Nat.mul_succ, Nat.add_comm]

end Bits

end Library
