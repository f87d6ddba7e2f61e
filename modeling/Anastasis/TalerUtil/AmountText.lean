import Anastasis.TalerUtil.Amounts
import Mathlib.Tactic.Ring

/-! The text of an amount: how it is read, and how the loop over the digits of the fraction
prints it. -/

set_option autoImplicit false

namespace Anastasis.TalerUtil.Amounts

def amountFractionalLength : Nat := 8

def isCurrencyChar (c : Char) : Bool := c.isAlphanum || c = '_' || c = '*' || c = '-'

/-- The groups of `^([a-zA-Z0-9_*-]+):([0-9]+)([.][0-9]+)?$`, the last one without its point and
empty where it does not take part. -/
def matchAmount (s : List Char) : Option (List Char × List Char × List Char) :=
  let currency := s.takeWhile isCurrencyChar
  match s.dropWhile isCurrencyChar with
  | ':' :: rest =>
    let whole := rest.takeWhile Char.isDigit
    if currency = [] ∨ whole = [] then none
    else match rest.dropWhile Char.isDigit with
      | [] => some (currency, whole, [])
      | '.' :: digits =>
        if digits ≠ [] ∧ digits.all Char.isDigit then some (currency, whole, digits) else none
      | _ => none
  | _ => none

/-- The nearest integer, halves upwards. -/
def mathRound (numerator denominator : Nat) : Nat :=
  (2 * numerator + denominator) / (2 * denominator)

def parse (s : String) : Option AmountJson :=
  match matchAmount s.toList with
  | none => none
  | some (currency, whole, decimals) =>
    let tail := if decimals = [] then ['0'] else decimals
    if amountFractionalLength < tail.length then none
    else
      let value := Nat.ofDigitChars 10 whole 0
      if amountMaxValue < value then none
      else some
        { currency := String.ofList currency
          fraction :=
            mathRound (amountFractionalBase * Nat.ofDigitChars 10 tail 0) (10 ^ tail.length)
          value := value }

/-- The rounds of the loop that are left, with what is left of the fraction. -/
def fractionLoop (minFractional : Nat) : Nat → Nat → List Char
  | 0, _ => []
  | left + 1, n =>
    if n = 0 ∧ minFractional ≤ amountFractionalLength - (left + 1) then []
    else
      Nat.toDigits 10 (n * 10 / amountFractionalBase) ++
        fractionLoop minFractional left (n * 10 % amountFractionalBase)

def stringifyValue (a : AmountJson) (minFractional : Nat) : String :=
  let av := a.value + a.fraction / amountFractionalBase
  let af := a.fraction % amountFractionalBase
  if af ≠ 0 then
    Nat.repr av ++ "." ++ String.ofList (fractionLoop minFractional amountFractionalLength af)
  else Nat.repr av

def stringify (a : AmountJson) : String := a.currency ++ ":" ++ stringifyValue a 0

/-! ## What the texts say -/

/-- A whole part and the digits behind the point, which is there if they are. -/
def pointed (whole decimals : List Char) : List Char :=
  whole ++ if decimals = [] then [] else '.' :: decimals

/-- An amount that needs no carrying, in a currency that can be written. -/
structure Normal (a : AmountJson) : Prop where
  named : a.currency.toList ≠ []
  currency : a.currency.toList.all isCurrencyChar
  fits : a.value ≤ amountMaxValue
  small : a.fraction < amountFractionalBase

/-- The text denotes the amount with at least `k` digits behind the point, and the last one of any
more is needed. -/
def ShowsValue (text : String) (a : AmountJson) (k : Nat) : Prop :=
  ∃ decimals : List Char, text.toList = pointed (Nat.toDigits 10 a.value) decimals ∧
    decimals.all Char.isDigit ∧
    Nat.ofDigitChars 10 decimals 0 * amountFractionalBase = a.fraction * 10 ^ decimals.length ∧
    k ≤ decimals.length ∧ (k < decimals.length → decimals.getLast? ≠ some '0')

/-- No zeros in front, and none at the end of the fraction. -/
def Canonical (text : String) : Prop :=
  ∃ currency value decimals, text.toList = currency ++ ':' :: pointed (Nat.toDigits 10 value) decimals ∧
    currency.all isCurrencyChar ∧ decimals.all Char.isDigit ∧ decimals.getLast? ≠ some '0'

theorem mathRound_mul {denominator : Nat} (pos : 0 < denominator) (x : Nat) :
    mathRound (x * denominator) denominator = x := by
  have split : 2 * (x * denominator) + denominator = denominator + x * (2 * denominator) := by ring
  rw [mathRound, split, Nat.add_mul_div_right _ _ (by omega), Nat.div_eq_of_lt (by omega),
    Nat.zero_add]

theorem ofDigitChars_lt {digits : List Char} (isDecimal : digits.all Char.isDigit) (initial : Nat) :
    Nat.ofDigitChars 10 digits initial < (initial + 1) * 10 ^ digits.length := by
  induction digits generalizing initial with
  | nil => simp
  | cons digit rest ih =>
    simp only [List.all_cons, Bool.and_eq_true] at isDecimal
    have bound := ih isDecimal.2 (10 * initial + (digit.toNat - '0'.toNat))
    have isNine : digit.toNat - '0'.toNat ≤ 9 := by
      have := Char.isDigit_iff_toNat.mp isDecimal.1
      simp only [Char.reduceToNat] at *
      omega
    rw [Nat.ofDigitChars_cons, List.length_cons, pow_succ, mul_comm (10 ^ _) 10, ← mul_assoc]
    exact bound.trans_le (Nat.mul_le_mul_right _ (by omega))

section Loop

variable {minFractional left n : Nat}

theorem fractionLoop_next (goes : ¬ (n = 0 ∧ minFractional ≤ amountFractionalLength - (left + 1)))
    (small : n < amountFractionalBase) :
    fractionLoop minFractional (left + 1) n = (n * 10 / amountFractionalBase).digitChar ::
      fractionLoop minFractional left (n * 10 % amountFractionalBase) := by
  have isDigit : n * 10 / amountFractionalBase < 10 :=
    (Nat.div_lt_iff_lt_mul (by decide)).mpr (by omega)
  rw [fractionLoop, if_neg goes, Nat.toDigits_of_lt_base isDigit]
  rfl

theorem fractionLoop_isDigit (small : n < amountFractionalBase) :
    (fractionLoop minFractional left n).all Char.isDigit := by
  induction left generalizing n with
  | zero => rfl
  | succ left ih =>
    unfold fractionLoop
    split
    · rfl
    · rw [List.all_append, ih (Nat.mod_lt _ (by decide)), Bool.and_true, List.all_eq_true]
      exact fun _ mem => Nat.isDigit_of_mem_toDigits (by omega) (by omega) mem

theorem fractionLoop_length (small : n < amountFractionalBase) :
    (fractionLoop minFractional left n).length ≤ left := by
  induction left generalizing n with
  | zero => rfl
  | succ left ih =>
    by_cases goes : n = 0 ∧ minFractional ≤ amountFractionalLength - (left + 1)
    · rw [fractionLoop, if_pos goes]
      exact Nat.zero_le _
    · rw [fractionLoop_next goes small, List.length_cons]
      exact Nat.succ_le_succ (ih (Nat.mod_lt _ (by decide)))

/-- What is left is a multiple of the rounds that are over. -/
theorem aligned_next (fits : left + 1 ≤ amountFractionalLength)
    (aligned : 10 ^ (amountFractionalLength - (left + 1)) ∣ n) :
    10 ^ (amountFractionalLength - left) ∣ n * 10 % amountFractionalBase := by
  have rounds : amountFractionalLength - left = amountFractionalLength - (left + 1) + 1 := by omega
  refine (Nat.dvd_mod_iff ?_).mpr ?_
  · exact (pow_dvd_pow 10 (Nat.sub_le _ _)).trans (by decide)
  · rw [rounds, pow_succ]
    exact Nat.mul_dvd_mul_right aligned 10

theorem fractionLoop_value (fits : left ≤ amountFractionalLength)
    (small : n < amountFractionalBase) (aligned : 10 ^ (amountFractionalLength - left) ∣ n) :
    Nat.ofDigitChars 10 (fractionLoop minFractional left n) 0 * amountFractionalBase =
      n * 10 ^ (fractionLoop minFractional left n).length := by
  induction left generalizing n with
  | zero =>
    have nothing : n = 0 := Nat.eq_zero_of_dvd_of_lt aligned small
    simp [fractionLoop, nothing]
  | succ left ih =>
    by_cases goes : n = 0 ∧ minFractional ≤ amountFractionalLength - (left + 1)
    · simp [fractionLoop, goes]
    have split : amountFractionalBase * (n * 10 / amountFractionalBase) +
        n * 10 % amountFractionalBase = n * 10 := Nat.div_add_mod _ _
    have digit : n * 10 / amountFractionalBase < 10 :=
      (Nat.div_lt_iff_lt_mul (by decide)).mpr (by omega)
    have rest := ih (by omega) (Nat.mod_lt _ (by decide)) (aligned_next fits aligned)
    rw [fractionLoop_next goes small, Nat.ofDigitChars_cons_digitChar_of_lt_ten digit,
      Nat.ofDigitChars_eq_ofDigitChars_zero, List.length_cons]
    generalize fractionLoop minFractional left (n * 10 % amountFractionalBase) = later at rest ⊢
    calc (10 ^ later.length * (10 * 0 + n * 10 / amountFractionalBase) +
          Nat.ofDigitChars 10 later 0) * amountFractionalBase
        = 10 ^ later.length * (amountFractionalBase * (n * 10 / amountFractionalBase)) +
          Nat.ofDigitChars 10 later 0 * amountFractionalBase := by ring
      _ = 10 ^ later.length * (amountFractionalBase * (n * 10 / amountFractionalBase) +
          n * 10 % amountFractionalBase) := by rw [rest]; ring
      _ = n * 10 ^ (later.length + 1) := by rw [split]; ring

/-- The loop goes on behind the digits asked for only while something is left. -/
theorem fractionLoop_ends (fits : left ≤ amountFractionalLength) (asked : minFractional ≤ 8)
    (small : n < amountFractionalBase) (aligned : 10 ^ (amountFractionalLength - left) ∣ n) :
    minFractional ≤ amountFractionalLength - left + (fractionLoop minFractional left n).length ∧
      (minFractional < amountFractionalLength - left + (fractionLoop minFractional left n).length →
        (fractionLoop minFractional left n).getLast? ≠ some '0') := by
  induction left generalizing n with
  | zero => exact ⟨asked, fun _ => nofun⟩
  | succ left ih =>
    by_cases goes : n = 0 ∧ minFractional ≤ amountFractionalLength - (left + 1)
    · rw [fractionLoop, if_pos goes]
      exact ⟨goes.2, fun _ => nofun⟩
    have below : n * 10 % amountFractionalBase < amountFractionalBase := Nat.mod_lt _ (by decide)
    have next := aligned_next fits aligned
    have pre : left ≤ amountFractionalLength := by omega
    have value := @fractionLoop_value minFractional _ _ pre below next
    have rest := ih pre below next
    rw [fractionLoop_next goes small]
    generalize fractionLoop minFractional left (n * 10 % amountFractionalBase) = later at rest value ⊢
    rw [List.length_cons]
    refine ⟨by omega, fun more => ?_⟩
    cases later with
    | nil =>
      have digit : n * 10 / amountFractionalBase < 10 :=
        (Nat.div_lt_iff_lt_mul (by decide)).mpr (by omega)
      intro isZero
      have quotient := Nat.toNat_digitChar_sub_48_of_lt_ten digit
      have zero : (n * 10 / amountFractionalBase).digitChar = '0' := Option.some.inj isZero
      rw [zero] at quotient
      have split := Nat.div_add_mod (n * 10) amountFractionalBase
      simp only [Nat.ofDigitChars_nil, List.length_nil, pow_zero, mul_one, zero_mul] at value
      rw [← value, ← quotient] at split
      simp only [Char.reduceToNat, List.length_nil] at split more
      omega
    | cons digit others =>
      rw [List.getLast?_cons_cons]
      exact rest.2 (by omega)

end Loop

section Texts

variable {currency whole decimals : List Char} {a : AmountJson} {k : Nat}

theorem matchAmount_text (named : currency ≠ []) (isCurrency : currency.all isCurrencyChar)
    (cnt : whole ≠ []) (isWhole : whole.all Char.isDigit)
    (isDecimal : decimals.all Char.isDigit) :
    matchAmount (currency ++ ':' :: pointed whole decimals) = some (currency, whole, decimals) := by
  have colon : isCurrencyChar ':' = false := by decide
  have point : Char.isDigit '.' = false := by decide
  have takes : (pointed whole decimals).takeWhile Char.isDigit = whole ∧
      (pointed whole decimals).dropWhile Char.isDigit =
        if decimals = [] then [] else '.' :: decimals := by
    rw [pointed, List.takeWhile_append_of_pos (List.all_eq_true.mp isWhole),
      List.dropWhile_append_of_pos (List.all_eq_true.mp isWhole)]
    split <;> simp [point]
  rw [matchAmount, List.takeWhile_append_of_pos (List.all_eq_true.mp isCurrency),
    List.dropWhile_append_of_pos (List.all_eq_true.mp isCurrency),
    List.takeWhile_cons_of_neg (by simp [colon]), List.dropWhile_cons_of_neg (by simp [colon]),
    List.append_nil]
  simp only [takes.1, takes.2]
  rw [if_neg (by simp [named, cnt])]
  cases decimals with
  | nil => rfl
  | cons digit rest =>
    rw [if_neg (List.cons_ne_nil _ _)]
    exact if_pos ⟨List.cons_ne_nil _ _, isDecimal⟩

theorem matchAmount_valid {s : List Char} (got : matchAmount s = some (currency, whole, decimals)) :
    currency ≠ [] ∧ currency.all isCurrencyChar ∧ decimals.all Char.isDigit := by
  have taken : ∀ c ∈ s.takeWhile isCurrencyChar, isCurrencyChar c := fun _ => List.mem_takeWhile_imp
  unfold matchAmount at got
  split at got
  · dsimp only at got
    split at got
    · cases got
    rename_i rest _ parts
    rw [not_or] at parts
    split at got
    · cases got
      exact ⟨parts.1, List.all_eq_true.mpr taken, rfl⟩
    · split at got
      · rename_i digits
        cases got
        exact ⟨parts.1, List.all_eq_true.mpr taken, digits.2⟩
      · cases got
    · cases got
  · cases got

/-- The digits that the loop prints, if it is reached. -/
def fractionText (a : AmountJson) (k : Nat) : List Char :=
  if a.fraction = 0 then [] else fractionLoop k amountFractionalLength a.fraction

theorem stringifyValue_text (normal : Normal a) :
    (stringifyValue a k).toList = pointed (Nat.toDigits 10 a.value) (fractionText a k) := by
  unfold stringifyValue fractionText pointed
  rw [Nat.div_eq_of_lt normal.small, Nat.mod_eq_of_lt normal.small, Nat.add_zero]
  by_cases whole : a.fraction = 0
  · simp [whole, Nat.toList_repr]
  have goes : ¬ (a.fraction = 0 ∧ k ≤ amountFractionalLength - (7 + 1)) := fun stops => whole stops.1
  have shown : fractionLoop k amountFractionalLength a.fraction ≠ [] := by
    rw [amountFractionalLength, fractionLoop_next goes normal.small]
    exact List.cons_ne_nil _ _
  simp [whole, shown, Nat.toList_repr]

theorem fractionText_value (normal : Normal a) :
    (fractionText a k).all Char.isDigit ∧ (fractionText a k).length ≤ amountFractionalLength ∧
      Nat.ofDigitChars 10 (fractionText a k) 0 * amountFractionalBase =
        a.fraction * 10 ^ (fractionText a k).length := by
  unfold fractionText
  split
  · next whole => simp [whole]
  · exact ⟨fractionLoop_isDigit normal.small, fractionLoop_length normal.small,
      fractionLoop_value (le_refl _) normal.small (by simp)⟩

theorem fractionText_ends (normal : Normal a) (asked : k ≤ 8) :
    (k < (fractionText a k).length → (fractionText a k).getLast? ≠ some '0') ∧
      (a.fraction ≠ 0 → k ≤ (fractionText a k).length) := by
  unfold fractionText
  split
  · next whole => simp [whole]
  have ends := fractionLoop_ends (le_refl amountFractionalLength) asked normal.small (by simp)
  simp only [Nat.sub_self, Nat.zero_add] at ends
  exact ⟨ends.2, fun _ => ends.1⟩

theorem stringify_text (normal : Normal a) : (stringify a).toList =
    a.currency.toList ++ ':' :: pointed (Nat.toDigits 10 a.value) (fractionText a 0) := by
  simp [stringify, String.toList_append, stringifyValue_text normal]

theorem canonical_stringify (normal : Normal a) : Canonical (stringify a) := by
  refine ⟨_, _, _, stringify_text normal, normal.currency, (fractionText_value normal).1, ?_⟩
  cases shown : fractionText a 0 with
  | nil => exact nofun
  | cons digit rest =>
    have ends := (@fractionText_ends a 0 normal (by decide)).1
    rw [shown] at ends
    exact ends (Nat.zero_lt_succ _)

theorem parse_stringify (normal : Normal a) : parse (stringify a) = some a := by
  obtain ⟨isDecimal, fits, value⟩ := @fractionText_value a 0 normal
  have isWhole : (Nat.toDigits 10 a.value).all Char.isDigit := List.all_eq_true.mpr fun _ =>
    Nat.isDigit_of_mem_toDigits (by omega) (by omega)
  unfold parse
  rw [stringify_text normal,
    matchAmount_text normal.named normal.currency Nat.toDigits_ne_nil isWhole isDecimal]
  generalize fractionText a 0 = decimals at fits value
  have isTail : (if decimals = [] then ['0'] else decimals).length ≤ amountFractionalLength ∧
      mathRound (amountFractionalBase *
          Nat.ofDigitChars 10 (if decimals = [] then ['0'] else decimals) 0)
        (10 ^ (if decimals = [] then ['0'] else decimals).length) = a.fraction := by
    cases decimals with
    | nil =>
      simp only [Nat.ofDigitChars_nil, zero_mul, List.length_nil, pow_zero, mul_one] at value
      exact ⟨by decide, value ▸ rfl⟩
    | cons digit rest =>
      rw [if_neg (List.cons_ne_nil _ _), mul_comm, value]
      exact ⟨fits, mathRound_mul (Nat.pow_pos (by decide)) _⟩
  dsimp only
  rw [if_neg isTail.1.not_gt, isTail.2, Nat.ofDigitChars_ten_toDigits, if_neg normal.fits.not_gt,
    String.ofList_toList]

theorem parse_normal {s : String} (parsed : parse s = some a) : Normal a := by
  unfold parse at parsed
  split at parsed
  · cases parsed
  rename_i currency whole decimals got
  obtain ⟨named, isCurrency, isDecimal⟩ := matchAmount_valid got
  have isTail : (if decimals = [] then ['0'] else decimals).all Char.isDigit := by
    split
    · rfl
    · exact isDecimal
  dsimp only at parsed
  generalize (if decimals = [] then ['0'] else decimals) = tail at parsed isTail
  split_ifs at parsed with long large
  cases parsed
  have isBase : amountFractionalBase =
      10 ^ (amountFractionalLength - tail.length) * 10 ^ tail.length := by
    rw [← pow_add, Nat.sub_add_cancel (not_lt.mp long)]
    rfl
  refine ⟨by simpa using named, by simpa using isCurrency, not_lt.mp large, ?_⟩
  have digits := ofDigitChars_lt isTail 0
  rw [zero_add, one_mul] at digits
  calc mathRound (amountFractionalBase * Nat.ofDigitChars 10 tail 0) (10 ^ tail.length)
      = mathRound (10 ^ (amountFractionalLength - tail.length) * Nat.ofDigitChars 10 tail 0 *
          10 ^ tail.length) (10 ^ tail.length) := by rw [isBase]; ring_nf
    _ = 10 ^ (amountFractionalLength - tail.length) * Nat.ofDigitChars 10 tail 0 :=
      mathRound_mul (Nat.pow_pos (by decide)) _
    _ < 10 ^ (amountFractionalLength - tail.length) * 10 ^ tail.length :=
      Nat.mul_lt_mul_of_pos_left digits (Nat.pow_pos (by decide))
    _ = amountFractionalBase := isBase.symm

/-- A whole amount is printed without the digits asked for, as the loop is not reached. -/
theorem showsValue_iff (normal : Normal a) (asked : k ≤ 8) :
    ShowsValue (stringifyValue a k) a k ↔ a.fraction ≠ 0 ∨ k = 0 := by
  obtain ⟨isDecimal, _, value⟩ := @fractionText_value a k normal
  obtain ⟨ends, enough⟩ := fractionText_ends normal asked
  constructor
  · rintro ⟨decimals, text, _, _, atLeast, _⟩
    by_cases whole : a.fraction = 0
    · rw [stringifyValue_text normal, fractionText, if_pos whole, pointed, pointed] at text
      cases decimals with
      | nil => exact .inr (Nat.le_zero.mp atLeast)
      | cons => simp at text
    · exact .inl whole
  · intro condition
    refine ⟨_, stringifyValue_text normal, isDecimal, value, ?_, ends⟩
    exact condition.elim enough fun none => none ▸ Nat.zero_le _

/-- Both ways round the texts are right. A number of digits behind the point is kept unless the
amount is whole. -/
theorem amount_text_iff (normal : Normal a) (asked : k ≤ 8) :
    parse (stringify a) = some a ∧
        (∀ s b, parse s = some b → Canonical (stringify b) ∧ parse (stringify b) = some b) ∧
        ShowsValue (stringifyValue a k) a k ↔
      a.fraction ≠ 0 ∨ k = 0 := by
  rw [← showsValue_iff normal asked]
  refine ⟨fun all => all.2.2, fun shows => ⟨parse_stringify normal, fun s b parsed => ?_, shows⟩⟩
  exact ⟨canonical_stringify (parse_normal parsed), parse_stringify (parse_normal parsed)⟩

end Texts

theorem euros_normal {value fraction : Nat} (fits : value ≤ amountMaxValue)
    (small : fraction < amountFractionalBase) : Normal (euros value fraction) where
  named := by simp [euros]
  currency := show "EUR".toList.all isCurrencyChar by decide
  fits := fits
  small := small

theorem half_text : parse (stringify (euros 4 50000000)) = some (euros 4 50000000) ∧
    (∀ s b, parse s = some b → Canonical (stringify b) ∧ parse (stringify b) = some b) ∧
    ShowsValue (stringifyValue (euros 4 50000000) 2) (euros 4 50000000) 2 :=
  (amount_text_iff (euros_normal (by decide) (by decide)) (by decide)).mpr (.inl (by decide))

theorem whole_text : Normal (euros 5 0) ∧
    ¬ ShowsValue (stringifyValue (euros 5 0) 2) (euros 5 0) 2 := by
  have normal : Normal (euros 5 0) := euros_normal (by decide) (by decide)
  refine ⟨normal, ?_⟩
  rw [showsValue_iff normal (by decide)]
  decide

end Anastasis.TalerUtil.Amounts
