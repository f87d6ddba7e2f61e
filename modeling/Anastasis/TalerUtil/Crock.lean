import Anastasis.Library.Bits
import Mathlib.Data.List.Forall2

/-! The Crockford base32 codec of the TypeScript utilities. Bit buffers are
JavaScript 32-bit integers, so shifts to the left are taken modulo `2 ^ 32`. -/

set_option autoImplicit false

namespace Anastasis.TalerUtil

open Library List Option

def encTable : List Char := "0123456789ABCDEFGHJKMNPQRSTVWXYZ".toList

private def encodeRefill (rest : Bytes) (bitBuf numBits : Nat) : Bytes × Nat × Nat :=
  match rest with
  | [] => ([], bitBuf, numBits)
  | d :: tail =>
    if numBits < 5 then (tail, (bitBuf <<< 8) % 2 ^ 32 ||| d.toNat, numBits + 8)
    else (d :: tail, bitBuf, numBits)

private def encodePad (bitBuf numBits : Nat) : Nat × Nat :=
  if numBits < 5 then ((bitBuf <<< (5 - numBits)) % 2 ^ 32, 5) else (bitBuf, numBits)

/-- The digits that the loop of `encodeCrock` looks up, one for each round; every
round uses up five bits, so `fuel` rounds suffice for `5 * fuel` bits. -/
private def encodeDigits : Nat → Bytes → Nat → Nat → List Nat
  | 0, _, _, _ => []
  | fuel + 1, rest, bitBuf, numBits =>
    if rest.isEmpty && numBits = 0 then []
    else
      let (rest, bitBuf, numBits) := encodeRefill rest bitBuf numBits
      let (bitBuf, numBits) := encodePad bitBuf numBits
      ((bitBuf >>> (numBits - 5)) &&& 31) ::
        encodeDigits fuel rest bitBuf (numBits - 5)

private def encodeDigit (digit : Nat) : Char := encTable.getD digit '0'

def encodeCrock (data : Bytes) : String :=
  String.ofList ((encodeDigits (2 * data.length) data 0 0).map encodeDigit)

/-- The value of one character; letters that look like digits are read as these. -/
def getValue (chr : Char) : Option Nat :=
  let a :=
    if chr = 'O' ∨ chr = 'o' then '0'
    else if chr = 'i' ∨ chr = 'I' ∨ chr = 'l' ∨ chr = 'L' then '1'
    else if chr = 'u' ∨ chr = 'U' then 'V'
    else chr
  if '0' ≤ a ∧ a ≤ '9' then some (a.toNat - '0'.toNat)
  else
    let a := if 'a' ≤ a ∧ a ≤ 'z' then a.toUpper else a
    if 'A' ≤ a ∧ a ≤ 'Z' then
      let dec := (if 'I' < a then 1 else 0) + (if 'L' < a then 1 else 0) +
        (if 'O' < a then 1 else 0) + (if 'U' < a then 1 else 0)
      some (a.toNat - 'A'.toNat + 10 - dec)
    else none

/-- The bytes written by the loop of `decodeCrock`. After the last character the
bits that are left over make one more byte unless they are all zero. -/
private def decodeLoop : List Char → Nat → Nat → Option Bytes
  | [], _, _ => some []
  | chr :: rest, bitbuf, bitpos => do
      let v ← getValue chr
      let bitbuf := (bitbuf <<< 5) % 2 ^ 32 ||| v
      let bitpos := bitpos + 5
      let out := if bitpos ≥ 8 then
          [UInt8.ofNat ((bitbuf >>> (bitpos - 8)) &&& 255)] else []
      let bitpos := if bitpos ≥ 8 then bitpos - 8 else bitpos
      let more ←
        if rest.isEmpty then
          let flushed := (bitbuf <<< (8 - bitpos)) % 2 ^ 32 &&& 255
          if bitpos = 0 ∨ flushed = 0 then some [] else some [UInt8.ofNat flushed]
        else decodeLoop rest bitbuf bitpos
      return out ++ more

def decodeCrock (encoded : String) : Option Bytes :=
  (decodeLoop encoded.toList 0 0).map
    (fun out => out.take (encoded.toList.length * 5 / 8))

private def byteBits (bytes : Bytes) : List Bool :=
  (bytes.map UInt8.toNat).flatMap (Bits.ofNat 8)

private theorem byteBits_cons (byte : UInt8) (rest : Bytes) :
    byteBits (byte :: rest) = Bits.ofNat 8 byte.toNat ++ byteBits rest := by
  simp [byteBits]

private theorem length_byteBits (bytes : Bytes) : (byteBits bytes).length = 8 * bytes.length := by
  rw [byteBits, Bits.length_flatMap_ofNat, length_map]

private theorem and_31 (v : Nat) : v &&& 31 = v % 2 ^ 5 := by
  simpa using Nat.and_two_pow_sub_one_eq_mod v 5

private theorem and_255 (v : Nat) : v &&& 255 = v % 2 ^ 8 := by
  simpa using Nat.and_two_pow_sub_one_eq_mod v 8

private theorem ofNat_mod (width value : Nat) :
    Bits.ofNat width (value % 2 ^ width) = Bits.ofNat width value := by
  apply Bits.ofNat_congr
  intro idx below
  simp [Nat.testBit_mod_two_pow, below]

private theorem encodeRefill_spec (rest : Bytes) (bitBuf numBits : Nat) (small : numBits < 8) :
    ∃ rest' bitBuf' numBits', encodeRefill rest bitBuf numBits = (rest', bitBuf', numBits') ∧
      numBits' ≤ 12 ∧ (numBits' < 5 → rest' = []) ∧ Bits.ofNat numBits' bitBuf' ++ byteBits rest' =
        Bits.ofNat numBits bitBuf ++ byteBits rest := by
  cases rest with
  | nil => exact ⟨[], bitBuf, numBits, rfl, by omega, fun _ => rfl, rfl⟩
  | cons d tail =>
    by_cases few : numBits < 5
    · refine ⟨tail, (bitBuf <<< 8) % 2 ^ 32 ||| d.toNat, numBits + 8,
        by simp [encodeRefill, few], by omega, fun no => by omega, ?_⟩
      rw [Bits.ofNat_shift_or _ _ _ _ _ d.toNat_lt (by omega), byteBits_cons, append_assoc]
    · exact ⟨d :: tail, bitBuf, numBits, by simp [encodeRefill, few], by omega,
        fun no => absurd no few, rfl⟩

private theorem encodePad_spec (bitBuf numBits : Nat) (small : numBits ≤ 12) :
    ∃ bitBuf' numBits' zeros, encodePad bitBuf numBits = (bitBuf', numBits') ∧
      5 ≤ numBits' ∧ numBits' = numBits + zeros ∧ (zeros = 0 ∨ numBits' = 5) ∧
      Bits.ofNat numBits' bitBuf' = Bits.ofNat numBits bitBuf ++ List.replicate zeros false := by
  by_cases few : numBits < 5
  · refine ⟨(bitBuf <<< (5 - numBits)) % 2 ^ 32, 5, 5 - numBits,
      by simp [encodePad, few], by omega, by omega, .inr rfl, ?_⟩
    have shifted := Bits.ofNat_shift_or numBits (5 - numBits) 32 bitBuf 0 (Nat.two_pow_pos _)
      (by omega)
    simpa [show numBits + (5 - numBits) = 5 by omega] using shifted
  · exact ⟨bitBuf, numBits, 0, by simp [encodePad, few], by omega, by omega, .inl rfl,
      by simp⟩

/-- The digits spell the held bits and those of the remaining bytes, filled up
with zeros to a multiple of five. -/
private theorem encodeDigits_bits (fuel : Nat) (rest : Bytes) (bitBuf numBits : Nat)
    (small : numBits < 8) (enough : 8 * rest.length + numBits ≤ 5 * fuel) :
    (∀ digit ∈ encodeDigits fuel rest bitBuf numBits, digit < 32) ∧
      ∃ zeros < 5, (encodeDigits fuel rest bitBuf numBits).flatMap (Bits.ofNat 5) =
        Bits.ofNat numBits bitBuf ++ byteBits rest ++ List.replicate zeros false := by
  induction fuel generalizing rest bitBuf numBits with
  | zero =>
    have none : rest = [] := eq_nil_of_length_eq_zero (by omega)
    have zero : numBits = 0 := by omega
    subst none zero
    exact ⟨by simp [encodeDigits], 0, by omega, by simp [encodeDigits, byteBits]⟩
  | succ fuel ih =>
    by_cases finished : rest = [] ∧ numBits = 0
    · obtain ⟨rfl, rfl⟩ := finished
      exact ⟨by simp [encodeDigits], 0, by omega, by simp [encodeDigits, byteBits]⟩
    obtain ⟨rest', bitBuf', numBits', refilled, atMost, drained, refillBits⟩ :=
      encodeRefill_spec rest bitBuf numBits small
    obtain ⟨bitBuf'', numBits'', zeros, padded, atLeast, grown, exact5, padBits⟩ :=
      encodePad_spec bitBuf' numBits' atMost
    have nonempty : (rest.isEmpty && decide (numBits = 0)) = false := by
      cases rest <;> simp_all
    have step : encodeDigits (fuel + 1) rest bitBuf numBits =
        ((bitBuf'' >>> (numBits'' - 5)) &&& 31) ::
          encodeDigits fuel rest' bitBuf'' (numBits'' - 5) := by
      simp [encodeDigits, nonempty, refilled, padded]
    have lengths : numBits' + 8 * rest'.length = numBits + 8 * rest.length := by
      simpa [length_byteBits] using congrArg List.length refillBits
    have left : 8 * rest'.length + (numBits'' - 5) ≤ 5 * fuel := by
      rcases exact5 with rfl | five
      · omega
      by_cases empty : rest' = []
      · subst empty
        simp [five]
      · have held : ¬ numBits' < 5 := fun few => empty (drained few)
        omega
    obtain ⟨below, more, moreSmall, tailBits⟩ :=
      ih rest' bitBuf'' (numBits'' - 5) (by omega) left
    have digitBits : Bits.ofNat numBits'' bitBuf'' =
        Bits.ofNat 5 (bitBuf'' >>> (numBits'' - 5)) ++ Bits.ofNat (numBits'' - 5) bitBuf'' := by
      rw [← Bits.ofNat_add, show 5 + (numBits'' - 5) = numBits'' by omega]
    rw [step]
    constructor
    · intro digit mem
      rcases mem_cons.mp mem with rfl | mem
      · rw [and_31]
        exact Nat.mod_lt _ (by omega)
      · exact below digit mem
    simp only [flatMap_cons, and_31, ofNat_mod, tailBits]
    by_cases zero : zeros = 0
    · subst zero
      refine ⟨more, moreSmall, ?_⟩
      rw [← refillBits, show Bits.ofNat numBits' bitBuf' = Bits.ofNat numBits'' bitBuf''
        by simpa using padBits.symm, digitBits]
      simp [append_assoc]
    have five : numBits'' = 5 := exact5.resolve_left zero
    have empty : rest' = [] := drained (by omega)
    subst empty
    have none : encodeDigits fuel [] bitBuf'' (numBits'' - 5) = [] := by
      rw [five]
      cases fuel <;> simp [encodeDigits]
    have done : more = 0 := by
      have bits := congrArg List.length tailBits
      rw [none, five] at bits
      simpa [byteBits] using bits.symm
    have held : numBits' ≠ 0 := by
      intro emptied
      rw [length_nil, emptied] at lengths
      exact finished ⟨eq_nil_of_length_eq_zero (by omega), by omega⟩
    refine ⟨zeros, by omega, ?_⟩
    rw [← refillBits, done]
    simp only [five] at digitBits padBits ⊢
    have noBytes : byteBits [] = [] := rfl
    rw [noBytes, append_nil, append_nil, ← padBits, digitBits]
    simp

private theorem getValue_encodeDigit : ∀ digit < 32, getValue (encodeDigit digit) = some digit := by
  decide

/-- Decoding digits writes the bytes that their bits spell, and at most one more. -/
private theorem decodeLoop_bits (digits : List Nat) (bitbuf bitpos : Nat)
    (small : bitpos < 8) (below : ∀ digit ∈ digits, digit < 32) :
    ∃ out extra left, decodeLoop (digits.map encodeDigit) bitbuf bitpos = some (out ++ extra) ∧
      left.length < 8 ∧
      byteBits out ++ left = Bits.ofNat bitpos bitbuf ++ digits.flatMap (Bits.ofNat 5) := by
  induction digits generalizing bitbuf bitpos with
  | nil => exact ⟨[], [], Bits.ofNat bitpos bitbuf, rfl, by simpa using small, by simp [byteBits]⟩
  | cons digit rest ih =>
    have digitSmall : digit < 2 ^ 5 := below digit (by simp)
    have restSmall : ∀ v ∈ rest, v < 32 := fun v mem =>
      below v (by simp [mem])
    have appended := Bits.ofNat_shift_or bitpos 5 32 bitbuf digit digitSmall (by omega)
    simp only [map_cons, decodeLoop, getValue_encodeDigit digit (by simpa using digitSmall),
      bind_eq_bind, bind_some, flatMap_cons]
    rw [← append_assoc, ← appended]
    generalize ((bitbuf <<< 5) % 2 ^ 32 ||| digit) = next
    by_cases full : bitpos + 5 ≥ 8
    · have split : Bits.ofNat (bitpos + 5) next =
          byteBits [UInt8.ofNat ((next >>> (bitpos + 5 - 8)) &&& 255)] ++
            Bits.ofNat (bitpos + 5 - 8) next := by
        simp only [byteBits, map_cons, map_nil, flatMap_cons,
          flatMap_nil, append_nil, and_255, UInt8.toNat_ofNat', Nat.mod_mod, ofNat_mod]
        rw [← Bits.ofNat_add, show 8 + (bitpos + 5 - 8) = bitpos + 5 by omega]
      simp only [full, if_true, split]
      cases rest with
      | nil =>
        simp only [map_nil, isEmpty_nil, if_true]
        split <;>
          exact ⟨_, _, Bits.ofNat (bitpos + 5 - 8) next, rfl, by simp; omega, by simp⟩
      | cons y more =>
        obtain ⟨out, extra, left, r, short, bits⟩ := ih next (bitpos + 5 - 8) (by omega) restSmall
        refine ⟨UInt8.ofNat ((next >>> (bitpos + 5 - 8)) &&& 255) :: out, extra, left, ?_,
          short, ?_⟩
        · rw [map_cons] at r ⊢
          simp only [isEmpty_cons, Bool.false_eq_true, if_false, r, bind_some]
          rfl
        · rw [byteBits_cons, append_assoc, bits, ← append_assoc]
          simp [byteBits]
    · simp only [full, if_false]
      cases rest with
      | nil =>
        simp only [map_nil, isEmpty_nil, if_true]
        split
        · exact ⟨[], [], Bits.ofNat (bitpos + 5) next, rfl, by simp; omega, by simp [byteBits]⟩
        · exact ⟨[], _, Bits.ofNat (bitpos + 5) next, rfl, by simp; omega, by simp [byteBits]⟩
      | cons y more =>
        obtain ⟨out, extra, left, r, short, bits⟩ := ih next (bitpos + 5) (by omega) restSmall
        refine ⟨out, extra, left, ?_, short, bits⟩
        rw [map_cons] at r ⊢
        simp only [isEmpty_cons, Bool.false_eq_true, if_false, r, bind_some]
        rfl

@[simp] theorem decodeCrock_encodeCrock (data : Bytes) :
    decodeCrock (encodeCrock data) = some data := by
  obtain ⟨below, zeros, zerosSmall, bits⟩ :=
    encodeDigits_bits (2 * data.length) data 0 0 (by omega) (by omega)
  generalize digitsShape : encodeDigits (2 * data.length) data 0 0 = digits at below bits
  obtain ⟨out, extra, left, r, short, spelled⟩ := decodeLoop_bits digits 0 0 (by omega) below
  simp only [Bits.ofNat_zero, nil_append] at bits spelled
  rw [bits] at spelled
  have lengths := congrArg List.length spelled
  have cnt := congrArg List.length bits
  simp only [length_append, length_byteBits, length_replicate,
    Bits.length_flatMap_ofNat] at lengths cnt
  have sameLength : out.length = data.length := by omega
  have eq : byteBits out = byteBits data :=
    (append_inj spelled (by simp [length_byteBits, sameLength])).1
  have outData : out = data := by
    have values := Bits.flatMap_ofNat_injective (by omega : 0 < 8)
      (out.map UInt8.toNat) (data.map UInt8.toNat)
      (by simp only [List.mem_map]; rintro _ ⟨byte, _, rfl⟩; exact byte.toNat_lt)
      (by simp only [List.mem_map]; rintro _ ⟨byte, _, rfl⟩; exact byte.toNat_lt) eq
    exact (map_injective_iff.mpr fun _ _ => UInt8.toNat_inj.mp) values
  simp only [decodeCrock, encodeCrock, digitsShape, String.toList_ofList, r, length_map,
    map_some, Option.some.injEq]
  rw [show digits.length * 5 / 8 = out.length by omega, take_left, outData]

theorem encodeCrock_ends {fuel : Nat} (data : Bytes) (enough : 2 * data.length ≤ fuel) :
    encodeDigits fuel data 0 0 = encodeDigits (2 * data.length) data 0 0 ∧
      (encodeDigits fuel data 0 0).length = (8 * data.length + 4) / 5 := by
  obtain ⟨below, zeros, few, bits⟩ := encodeDigits_bits fuel data 0 0 (by omega) (by omega)
  obtain ⟨below', zeros', few', bits'⟩ :=
    encodeDigits_bits (2 * data.length) data 0 0 (by omega) (by omega)
  have cnt := congrArg List.length bits
  have counted' := congrArg List.length bits'
  simp only [Bits.ofNat_zero, nil_append, length_append, length_byteBits, length_replicate,
    Bits.length_flatMap_ofNat] at cnt counted'
  have same : zeros = zeros' := by omega
  rw [same] at bits
  exact ⟨Bits.flatMap_ofNat_injective (by omega : 0 < 5) _ _ below below' (bits.trans bits'.symm),
    by omega⟩

def aliases : List (Char × Char) :=
  "abcdefghijklmnopqrstuvwxyz".toList.zip "ABCDEFGHIJKLMNOPQRSTUVWXYZ".toList ++
    [('O', '0'), ('I', '1'), ('L', '1'), ('U', 'V')]

/-- The characters are equal, or cases of one letter, or one may be written for the other. -/
def SameDigit (c d : Char) : Prop := c = d ∨ (c, d) ∈ aliases ∨ (d, c) ∈ aliases

theorem getValue_sameDigit {c d : Char} (same : SameDigit c d) : getValue c = getValue d := by
  have read : ∀ pair ∈ aliases, getValue pair.1 = getValue pair.2 := by decide
  rcases same with rfl | mem | mem
  · rfl
  · exact read _ mem
  · exact (read _ mem).symm

private theorem decodeLoop_sameDigit {first second : List Char} (same : Forall₂ SameDigit first second)
    (bitbuf bitpos : Nat) : decodeLoop first bitbuf bitpos = decodeLoop second bitbuf bitpos := by
  induction same generalizing bitbuf bitpos with
  | nil => rfl
  | @cons c d rest ys same tail ih =>
    have ended : rest.isEmpty = ys.isEmpty := by cases tail <;> rfl
    simp only [decodeLoop, getValue_sameDigit same, ended, ih]

/-- Decoding undoes encoding and does not tell characters of the same digit apart; the text has as
many characters as the bytes need, however many rounds the loop is given beyond its last one. -/
theorem crock_round_trip (data : Bytes) : decodeCrock (encodeCrock data) = some data ∧
    (encodeCrock data).toList.length = (8 * data.length + 4) / 5 ∧
    (encodeCrock data).toList.length * 5 / 8 = data.length ∧ (∀ fuel, 2 * data.length ≤ fuel →
      encodeDigits fuel data 0 0 = encodeDigits (2 * data.length) data 0 0) ∧
    ∀ first second : String, Forall₂ SameDigit first.toList second.toList →
      decodeCrock first = decodeCrock second := by
  have length : (encodeCrock data).toList.length = (8 * data.length + 4) / 5 := by
    rw [encodeCrock, String.toList_ofList, length_map, (encodeCrock_ends data le_rfl).2]
  refine ⟨decodeCrock_encodeCrock data, length, by omega, fun fuel enough =>
    (encodeCrock_ends data enough).1, ?_⟩
  intro first second same
  rw [decodeCrock, decodeCrock, decodeLoop_sameDigit same, same.length_eq]

theorem encodeCrock_injective {left right : Bytes}
    (eq : encodeCrock left = encodeCrock right) : left = right := by
  have decoded := congrArg decodeCrock eq
  simpa using decoded

end Anastasis.TalerUtil
