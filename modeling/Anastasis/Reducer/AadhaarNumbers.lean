import Mathlib.GroupTheory.SpecificGroups.Dihedral
import Mathlib.Data.List.Iterate

/-! Indian Aadhaar numbers, whose last digit is the check digit of Verhoeff's scheme. -/

set_option autoImplicit false

namespace Anastasis.Reducer.Aadhaar

open List DihedralGroup

/-- The multiplication table. -/
def m : List (List (Fin 10)) := [
  [0, 1, 2, 3, 4, 5, 6, 7, 8, 9],
  [1, 2, 3, 4, 0, 6, 7, 8, 9, 5],
  [2, 3, 4, 0, 1, 7, 8, 9, 5, 6],
  [3, 4, 0, 1, 2, 8, 9, 5, 6, 7],
  [4, 0, 1, 2, 3, 9, 5, 6, 7, 8],
  [5, 9, 8, 7, 6, 0, 4, 3, 2, 1],
  [6, 5, 9, 8, 7, 1, 0, 4, 3, 2],
  [7, 6, 5, 9, 8, 2, 1, 0, 4, 3],
  [8, 7, 6, 5, 9, 3, 2, 1, 0, 4],
  [9, 8, 7, 6, 5, 4, 3, 2, 1, 0]]

/-- The permutation table. -/
def p : List (List (Fin 10)) := [
  [0, 1, 2, 3, 4, 5, 6, 7, 8, 9],
  [1, 5, 7, 6, 2, 8, 3, 0, 9, 4],
  [5, 8, 0, 3, 7, 9, 6, 1, 4, 2],
  [8, 9, 1, 6, 0, 4, 3, 5, 2, 7],
  [9, 4, 5, 3, 1, 2, 6, 8, 7, 0],
  [4, 2, 8, 6, 5, 7, 3, 9, 0, 1],
  [2, 7, 9, 3, 8, 0, 6, 4, 1, 5],
  [7, 0, 4, 6, 9, 1, 3, 2, 5, 8],
  replicate 10 0,
  replicate 10 0]

def entry (table : List (List (Fin 10))) (row : Nat) (column : Fin 10) : Fin 10 :=
  (table.getD row []).getD column 0

def isspace (c : Char) : Bool := c = ' ' || '\t' ≤ c && c ≤ '\r'

def isdigit (c : Char) : Bool := '0' ≤ c && c ≤ '9'

def digit (c : Char) : Fin 10 := Fin.ofNat 10 (c.toNat - '0'.toNat)

/-- The values of the digits that are still to come, written before those already read. -/
def stringToVals : Nat → List Char → List (Fin 10) → Option (List (Fin 10))
  | 0, rest, output => if rest = [] then some output else none
  | _ + 1, [], _ => none
  | i + 1, c :: rest, output =>
    if isspace c then stringToVals (i + 1) rest output
    else if !isdigit c then none
    else stringToVals i rest (digit c :: output)

def checksum : Nat → Fin 10 → List (Fin 10) → Fin 10
  | _, c, [] => c
  | i, c, val :: vals => checksum (i + 1) (entry m c (entry p (i % 8) val)) vals

def check (aadharNumber : String) : Bool :=
  match stringToVals 12 aadharNumber.toList [] with
  | none => false
  | some vals => checksum 0 0 vals = 0

/-! ## Verhoeff's scheme

The digits number the symmetries of a pentagon. The digit at a place counts as its image under as
many steps of a permutation as there are digits after it. -/

def symmetry (d : Fin 10) : DihedralGroup 5 := if d < 5 then r d.val else sr (-d.val)

def permute (d : Fin 10) : Fin 10 := entry p 1 d

def product : Nat → List (Fin 10) → DihedralGroup 5
  | _, [] => 1
  | i, d :: rest => symmetry (permute^[i] d) * product (i + 1) rest

theorem symmetry_injective : Function.Injective symmetry := by decide

theorem permute_injective : Function.Injective permute := by decide

theorem symmetry_m : ∀ a b : Fin 10, symmetry (entry m a b) = symmetry a * symmetry b := by
  decide

theorem permute_period (i : Nat) (d : Fin 10) : permute^[i] d = entry p (i % 8) d := by
  have period : permute^[8] = id := funext (by decide)
  have rows : ∀ i < 8, ∀ d, permute^[i] d = entry p i d := by decide
  rw [← rows (i % 8) (Nat.mod_lt _ (by decide))]
  conv_lhs => rw [← Nat.mod_add_div i 8, Function.iterate_add, Function.iterate_mul, period,
    Function.iterate_id]
  rfl

theorem symmetry_checksum (i : Nat) (c : Fin 10) (vals : List (Fin 10)) :
    symmetry (checksum i c vals) = symmetry c * product i vals := by
  induction vals generalizing i c with
  | nil => exact (mul_one _).symm
  | cons val vals ih => rw [checksum, ih, symmetry_m, product, permute_period, mul_assoc]

theorem product_append (i : Nat) (x second : List (Fin 10)) :
    product i (x ++ second) = product i x * product (i + x.length) second := by
  induction x generalizing i with
  | nil => simp [product]
  | cons d rest ih =>
    rw [cons_append, product, ih, product, mul_assoc, length_cons, Nat.add_right_comm i,
      Nat.add_assoc]

theorem product_replaced {i : Nat} {x rest : List (Fin 10)} {a b : Fin 10}
    (eq : product i (x ++ a :: rest) = product i (x ++ b :: rest)) : a = b := by
  rw [product_append, product_append] at eq
  have images := mul_right_cancel (mul_left_cancel eq)
  exact permute_injective.iterate _ (symmetry_injective images)

theorem product_exchanged {i : Nat} {x rest : List (Fin 10)} {a b : Fin 10}
    (eq : product i (x ++ a :: b :: rest) = product i (x ++ b :: a :: rest)) : a = b := by
  have tells : ∀ a b : Fin 10,
      symmetry a * symmetry (permute b) = symmetry b * symmetry (permute a) → a = b := by decide
  rw [product_append, product_append] at eq
  have images := mul_left_cancel eq
  simp only [product, ← mul_assoc] at images
  have here := mul_right_cancel images
  rw [Function.iterate_succ_apply', Function.iterate_succ_apply'] at here
  exact permute_injective.iterate _ (tells _ _ here)

/-! ## The check -/

def withoutSpace (text : List Char) : List Char := text.filter fun c => !isspace c

/-- Twelve digits, the last of which is the check digit of the others. -/
structure Valid (text : List Char) : Prop where
  length : text.length = 12
  digits : ∀ c ∈ text, isdigit c
  checked : product 0 (text.map digit).reverse = 1

def EndsInSpace (text : List Char) : Prop := ∃ c ∈ text.getLast?, isspace c

theorem endsInSpace_cons {c : Char} {rest : List Char} :
    EndsInSpace (c :: rest) ↔ (rest = [] ∧ isspace c) ∨ EndsInSpace rest := by
  cases rest with
  | nil => simp [EndsInSpace]
  | cons next rest => simp [EndsInSpace, getLast?_cons_cons]

theorem endsInSpace_of_blank {text : List Char} (nonempty : text ≠ [])
    (blank : withoutSpace text = []) : EndsInSpace text := by
  refine ⟨text.getLast nonempty, getLast?_eq_some_getLast nonempty, ?_⟩
  simpa using filter_eq_nil_iff.mp blank _ (getLast_mem nonempty)

theorem stringToVals_iff {i : Nat} {text : List Char} {output vals : List (Fin 10)} :
    stringToVals i text output = some vals ↔ ¬ EndsInSpace text ∧
      (withoutSpace text).length = i ∧ (∀ c ∈ withoutSpace text, isdigit c) ∧
        vals = ((withoutSpace text).map digit).reverse ++ output := by
  induction text generalizing i output with
  | nil =>
    cases i with
    | zero => exact ⟨fun read => ⟨nofun, rfl, nofun, (Option.some.inj read).symm⟩,
        fun read => congrArg some read.2.2.2.symm⟩
    | succ i => exact ⟨nofun, fun read => nomatch read.2.1⟩
  | cons c rest ih =>
    cases i with
    | zero =>
      have ended : (withoutSpace (c :: rest)).length = 0 → EndsInSpace (c :: rest) :=
        fun none => endsInSpace_of_blank (cons_ne_nil _ _) (eq_nil_of_length_eq_zero none)
      simp only [stringToVals, reduceCtorEq, if_false, false_iff]
      exact fun ⟨proper, blank, _⟩ => proper (ended blank)
    | succ i =>
      unfold stringToVals
      rw [endsInSpace_cons]
      cases space : isspace c with
      | true =>
        have skipped : withoutSpace (c :: rest) = withoutSpace rest := by simp [withoutSpace, space]
        rw [if_pos rfl, ih, skipped]
        cases rest with
        | nil => simp [withoutSpace]
        | cons next rest => simp
      | false =>
        have kept : withoutSpace (c :: rest) = c :: withoutSpace rest := by
          simp [withoutSpace, space]
        rw [if_neg Bool.false_ne_true, kept]
        cases isDigit : isdigit c with
        | false => simp [isDigit]
        | true => simp [isDigit, ih]

theorem check_iff (s : String) :
    check s = true ↔ ¬ EndsInSpace s.toList ∧ Valid (withoutSpace s.toList) := by
  have verdict (vals : List (Fin 10)) : checksum 0 0 vals = 0 ↔ product 0 vals = 1 := by
    rw [← symmetry_injective.eq_iff, symmetry_checksum]
    exact iff_of_eq (congrArg (· = _) (one_mul _))
  unfold check
  cases read : stringToVals 12 s.toList [] with
  | none =>
    refine iff_of_false Bool.false_ne_true ?_
    rintro ⟨proper, valid⟩
    rw [stringToVals_iff.mpr ⟨proper, valid.length, valid.digits, rfl⟩] at read
    cases read
  | some vals =>
    obtain ⟨proper, length, digits, isVals⟩ := stringToVals_iff.mp read
    rw [append_nil] at isVals
    constructor
    · intro checked
      exact ⟨proper, length, digits, isVals ▸ (verdict vals).mp (of_decide_eq_true checked)⟩
    · rintro ⟨_, valid⟩
      exact decide_eq_true ((verdict vals).mpr (isVals ▸ valid.checked))

theorem digit_injective {a b : Char} (isA : isdigit a) (isB : isdigit b)
    (eq : digit a = digit b) : a = b := by
  have decoded {c : Char} (isC : isdigit c) : c = Char.ofNat ('0'.toNat + (digit c).val) := by
    simp only [isdigit, Bool.and_eq_true, decide_eq_true_eq] at isC
    have bounds : '0'.toNat ≤ c.toNat ∧ c.toNat ≤ '9'.toNat := isC
    rw [digit, Fin.val_ofNat, Nat.mod_eq_of_lt (by simp at bounds ⊢; omega),
      Nat.add_sub_cancel' bounds.1, Char.ofNat_toNat]
  rw [decoded isA, decoded isB, eq]

theorem isdigit_not_space {c : Char} (isC : isdigit c) : isspace c = false := by
  have late : '0'.toNat ≤ c.toNat := of_decide_eq_true (Bool.and_eq_true_iff.mp isC).1
  rw [Bool.eq_false_iff]
  intro space
  rcases Bool.or_eq_true_iff.mp space with blank | control
  · rw [of_decide_eq_true blank] at late
    exact absurd late (by decide)
  · have early : c.toNat ≤ '\r'.toNat := of_decide_eq_true (Bool.and_eq_true_iff.mp control).2
    exact absurd (late.trans early) (by decide)

theorem withoutSpace_digit {pre after : List Char} {c : Char} (isC : isdigit c) :
    withoutSpace (pre ++ c :: after) = withoutSpace pre ++ c :: withoutSpace after := by
  simp [withoutSpace, isdigit_not_space isC]

/-- The check tells texts only by what they are without white space, accepts twelve digits, and
finds a digit replaced and two neighbours exchanged. -/
structure Reliable (s : String) : Prop where
  blanks : check (String.ofList (withoutSpace s.toList)) = check s
  twelve : check s → (withoutSpace s.toList).length = 12 ∧ ∀ c ∈ withoutSpace s.toList, isdigit c
  replaced : ∀ before after a b, s.toList = before ++ a :: after → check s →
    isdigit a → isdigit b → a ≠ b → check (String.ofList (before ++ b :: after)) = false
  exchanged : ∀ before between after a b, s.toList = before ++ a :: (between ++ b :: after) →
    withoutSpace between = [] → check s → isdigit a → isdigit b → a ≠ b →
    check (String.ofList (before ++ b :: (between ++ a :: after))) = false

theorem withoutSpace_idem (text : List Char) : withoutSpace (withoutSpace text) =
    withoutSpace text := by
  simp [withoutSpace]

theorem not_endsInSpace_withoutSpace (text : List Char) : ¬ EndsInSpace (withoutSpace text) := by
  rintro ⟨c, last, space⟩
  have kept := (mem_filter.mp (mem_of_getLast? last)).2
  simp [space] at kept

/-- A text is checked reliably unless white space follows a valid number. -/
theorem check_reliable (s : String) :
    Reliable s ↔ ¬ (EndsInSpace s.toList ∧ Valid (withoutSpace s.toList)) := by
  have bare : check (String.ofList (withoutSpace s.toList)) = true ↔
      Valid (withoutSpace s.toList) := by
    rw [check_iff, String.toList_ofList, withoutSpace_idem]
    exact and_iff_right (not_endsInSpace_withoutSpace _)
  constructor
  · rintro reliable ⟨blank, valid⟩
    have checked := reliable.blanks.symm.trans (bare.mpr valid)
    exact ((check_iff s).mp checked).1 blank
  · intro proper
    constructor
    · rw [Bool.eq_iff_iff, bare, check_iff]
      tauto
    · intro checked
      have valid := ((check_iff s).mp checked).2
      exact ⟨valid.length, valid.digits⟩
    · intro before after a b text checked isA isB ne
      have valid := ((check_iff s).mp checked).2.checked
      rw [Bool.eq_false_iff]
      intro other
      have valid' := ((check_iff _).mp other).2.checked
      rw [text, withoutSpace_digit isA] at valid
      rw [String.toList_ofList, withoutSpace_digit isB] at valid'
      simp only [map_append, map_cons, reverse_append, reverse_cons, append_assoc, cons_append,
        nil_append] at valid valid'
      exact ne (digit_injective isA isB (product_replaced (valid.trans valid'.symm)))
    · intro before between after a b text blank checked isA isB ne
      have valid := ((check_iff s).mp checked).2.checked
      rw [Bool.eq_false_iff]
      intro other
      have valid' := ((check_iff _).mp other).2.checked
      rw [text, withoutSpace_digit isA, withoutSpace_digit isB, blank] at valid
      rw [String.toList_ofList, withoutSpace_digit isB, withoutSpace_digit isA, blank] at valid'
      simp only [map_append, map_cons, reverse_append, reverse_cons, append_assoc, cons_append,
        nil_append] at valid valid'
      exact ne (digit_injective isA isB (product_exchanged (valid'.trans valid.symm)))

theorem trailing_space_unreliable : ¬ Reliable "234123412346 " := by
  intro reliable
  have told := reliable.blanks
  revert told
  decide

theorem product_solved (i : Nat) (x rest : List (Fin 10)) :
    ∃ d, product i (x ++ d :: rest) = 1 := by
  have images : Function.Surjective symmetry := by decide
  have permuted : Function.Surjective permute := by decide
  obtain ⟨image, isImage⟩ := images ((product i x)⁻¹ * (product (i + x.length + 1) rest)⁻¹)
  obtain ⟨d, rfl⟩ := permuted.iterate (i + x.length) image
  refine ⟨d, ?_⟩
  rw [product_append, product, isImage, mul_assoc, inv_mul_cancel, mul_one, mul_inv_cancel]

theorem check_digits {text : List Char} (twelve : text.length = 12)
    (digits : ∀ c ∈ text, isdigit c) :
    check (String.ofList text) = true ↔ product 0 (text.map digit).reverse = 1 := by
  have bare : withoutSpace text = text :=
    filter_eq_self.mpr fun c mem => by simp [isdigit_not_space (digits c mem)]
  rw [check_iff, String.toList_ofList, bare]
  constructor
  · exact fun valid => valid.2.checked
  intro checked
  refine ⟨?_, twelve, digits, checked⟩
  rintro ⟨c, last, space⟩
  rw [isdigit_not_space (digits c (mem_of_getLast? last))] at space
  cases space

/-- A digit that is not known, at any place of a number, follows from the eleven others. -/
theorem erased_digit_recovered {before after : List Char}
    (eleven : before.length + after.length = 11) (digits : ∀ c ∈ before ++ after, isdigit c) :
    ∃! c, isdigit c ∧ check (String.ofList (before ++ c :: after)) = true := by
  have verdict : ∀ c, isdigit c → (check (String.ofList (before ++ c :: after)) = true ↔
      product 0 ((before ++ c :: after).map digit).reverse = 1) := by
    intro c isC
    refine check_digits (by simp; omega) fun other mem => ?_
    rw [mem_append, mem_cons, or_left_comm] at mem
    rcases mem with rfl | mem
    · exact isC
    · exact digits other (mem_append.mpr mem)
  simp only [map_append, map_cons, reverse_append, reverse_cons, append_assoc, cons_append,
    nil_append] at verdict
  obtain ⟨d, solved⟩ := product_solved 0 (after.map digit).reverse (before.map digit).reverse
  have shown : ∀ d : Fin 10, ∃ c, isdigit c ∧ digit c = d := fun d =>
    ⟨Char.ofNat ('0'.toNat + d.val), by revert d; decide⟩
  obtain ⟨c, isC, rfl⟩ := shown d
  refine ⟨c, ⟨isC, (verdict c isC).mpr solved⟩, ?_⟩
  rintro other ⟨isOther, checked⟩
  have solved' := (verdict other isOther).mp checked
  exact digit_injective isOther isC (product_replaced (solved'.trans solved.symm))

theorem check_digit_recovered :
    ∃! c, isdigit c ∧ check (String.ofList ("23412341234".toList ++ c :: [])) = true :=
  erased_digit_recovered (by decide) (all_eq_true.mp (by decide))

end Anastasis.Reducer.Aadhaar
