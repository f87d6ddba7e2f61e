import Mathlib.Data.PNat.Basic
import Mathlib.Algebra.BigOperators.Group.List.Basic
import Mathlib.Tactic.Ring

/-! Amounts of one currency, as the wallet calculates with them, and what they come to in the
smallest units of the currency. -/

set_option autoImplicit false

namespace Anastasis.Wallet

def amountFractionalBase : Nat := 100000000

def amountMaxValue : Nat := 2 ^ 52

structure AmountJson where
  value : Nat
  fraction : Nat
  normalized : fraction < amountFractionalBase
deriving DecidableEq

/-- The amount that an operation came to, and whether it would have been out of range. -/
structure AmountResult where
  amount : AmountJson
  saturated : Bool

namespace AmountJson

def units (amount : AmountJson) : Nat := amount.value * amountFractionalBase + amount.fraction

def limit : Nat := (amountMaxValue + 1) * amountFractionalBase

theorem base_pos : 0 < amountFractionalBase := by decide

def ofValue (value : Nat) : AmountJson := ⟨value, 0, base_pos⟩

theorem ofValue_inRange {v : Nat} (small : v ≤ amountMaxValue) : (ofValue v).units < limit := by
  rw [ofValue, units, Nat.add_zero]
  exact Nat.mul_lt_mul_of_pos_right (Nat.lt_succ_of_le small) base_pos

theorem units_injective {x second : AmountJson} (eq : x.units = second.units) : x = second := by
  obtain ⟨v, fraction, normalized⟩ := x
  obtain ⟨value', fraction', normalized'⟩ := second
  simp only [units, amountFractionalBase] at eq normalized normalized'
  have values : v = value' := by omega
  have fractions : fraction = fraction' := by omega
  subst values
  subst fractions
  rfl

end AmountJson

namespace Amounts

open AmountJson

variable {first x second y : AmountJson}

def getZero : AmountJson := ⟨0, 0, base_pos⟩

def saturated : AmountResult where
  amount := ⟨amountMaxValue, amountFractionalBase - 1, Nat.sub_lt base_pos Nat.one_pos⟩
  saturated := true

def addRest : AmountJson → List AmountJson → AmountResult
  | sum, [] => ⟨sum, false⟩
  | sum, summand :: rest =>
    let value := sum.value + summand.value +
      (sum.fraction + summand.fraction) / amountFractionalBase
    if amountMaxValue < value then saturated
    else addRest ⟨value, (sum.fraction + summand.fraction) % amountFractionalBase,
      Nat.mod_lt _ base_pos⟩ rest

def add (first : AmountJson) (rest : List AmountJson) : AmountResult :=
  if amountMaxValue < first.value then saturated else addRest first rest

def sub (first second : AmountJson) : AmountResult :=
  if borrows : first.fraction < second.fraction then
    if first.value < 1 then ⟨getZero, true⟩
    else if first.value - 1 < second.value then ⟨getZero, true⟩
    else ⟨⟨first.value - 1 - second.value,
      first.fraction + amountFractionalBase - second.fraction, by
        have := second.normalized
        omega⟩, false⟩
  else if first.value < second.value then ⟨getZero, true⟩
  else ⟨⟨first.value - second.value, first.fraction - second.fraction, by
    have := first.normalized
    omega⟩, false⟩

def cmp (first second : AmountJson) : Ordering :=
  if first.value < second.value then .lt
  else if second.value < first.value then .gt
  else if first.fraction < second.fraction then .lt
  else if second.fraction < first.fraction then .gt
  else .eq

def min (first second : AmountJson) : AmountJson :=
  if cmp first second = .lt then first else second

def max (first second : AmountJson) : AmountJson :=
  if cmp first second = .lt then second else first

theorem divide_normalized (amount : AmountJson) (divisor : ℕ+) :
    (amount.value % divisor * amountFractionalBase + amount.fraction) / divisor <
      amountFractionalBase := by
  have small : amount.value % divisor < (divisor : Nat) := Nat.mod_lt _ divisor.pos
  have fraction := amount.normalized
  rw [Nat.div_lt_iff_lt_mul divisor.pos]
  calc amount.value % divisor * amountFractionalBase + amount.fraction
      < (amount.value % divisor + 1) * amountFractionalBase := by
        rw [Nat.add_mul, Nat.one_mul]
        exact Nat.add_lt_add_left fraction _
    _ ≤ divisor * amountFractionalBase := Nat.mul_le_mul_right _ small
    _ = amountFractionalBase * divisor := Nat.mul_comm _ _

def divide (amount : AmountJson) (divisor : ℕ+) : AmountJson :=
  if divisor = 1 then amount
  else ⟨amount.value / divisor,
    (amount.value % divisor * amountFractionalBase + amount.fraction) / divisor,
    divide_normalized amount divisor⟩

def multLoop : Nat → Nat → AmountJson → AmountJson → AmountResult
  | 0, _, x, acc => add acc [x]
  | fuel + 1, n, x, acc =>
    if 1 < n then
      let sum := if n % 2 = 0 then ⟨acc, false⟩ else add acc [x]
      if sum.saturated then sum
      else
        let double := add x [x]
        if double.saturated then double else multLoop fuel (n / 2) double.amount sum.amount
    else add acc [x]

def mult (amount : AmountJson) (n : Nat) : AmountResult :=
  if n = 0 then ⟨getZero, false⟩ else multLoop n n amount getZero

def isZero (amount : AmountJson) : Bool := amount.value = 0 && amount.fraction = 0

@[simp] theorem getZero_units : getZero.units = 0 := by
  simp only [units, getZero, Nat.zero_mul, Nat.add_zero]

theorem addRest_units {sum : AmountJson} {rest : List AmountJson}
    (fits : sum.units + (rest.map units).sum < limit) : (addRest sum rest).saturated = false ∧
      (addRest sum rest).amount.units = sum.units + (rest.map units).sum := by
  induction rest generalizing sum with
  | nil => simp [addRest]
  | cons summand rest ih =>
    have step : (sum.value + summand.value +
        (sum.fraction + summand.fraction) / amountFractionalBase) * amountFractionalBase +
        (sum.fraction + summand.fraction) % amountFractionalBase = sum.units + summand.units := by
      simp only [units, amountFractionalBase]
      omega
    rw [List.map_cons, List.sum_cons] at fits ⊢
    have small : ¬ amountMaxValue < sum.value + summand.value +
        (sum.fraction + summand.fraction) / amountFractionalBase := by
      simp only [limit, amountFractionalBase, amountMaxValue] at fits step ⊢
      omega
    unfold addRest
    simp only [if_neg small]
    have next := @ih ⟨sum.value + summand.value +
        (sum.fraction + summand.fraction) / amountFractionalBase,
      (sum.fraction + summand.fraction) % amountFractionalBase, Nat.mod_lt _ base_pos⟩
    rw [show units ⟨_, _, _⟩ = sum.units + summand.units from step, Nat.add_assoc] at next
    exact next fits

theorem add_units {rest : List AmountJson} (fits : x.units + (rest.map units).sum < limit) :
    (add x rest).saturated = false ∧
      (add x rest).amount.units = x.units + (rest.map units).sum := by
  have small : ¬ amountMaxValue < x.value := by
    simp only [units, limit, amountFractionalBase, amountMaxValue] at fits ⊢
    omega
  unfold add
  rw [if_neg small]
  exact addRest_units fits

theorem add_one_units (fits : x.units + y.units < limit) :
    (add x [y]).amount.units = x.units + y.units := by
  have sum := (@add_units x [y] (by simpa using fits)).2
  simpa using sum

theorem add_exact (inRange : (add x [y]).saturated = false) :
    (add x [y]).amount.units = x.units + y.units := by
  simp only [add, addRest] at inRange ⊢
  split at inRange
  · cases inRange
  split at inRange
  · cases inRange
  rename_i small smaller
  rw [if_neg small, if_neg smaller]
  simp only [units, amountFractionalBase]
  omega

theorem add_saturates (small : x.units < limit) :
    (add x [y]).amount.units = Nat.min (x.units + y.units) (limit - 1) := by
  have bound := x.normalized
  have bound' := y.normalized
  simp only [units, limit, amountFractionalBase, amountMaxValue] at small bound bound'
  have startFits : ¬ amountMaxValue < x.value := by
    simp only [amountMaxValue]
    omega
  simp only [add, addRest, if_neg startFits]
  split
  · next large =>
    have most : saturated.amount.units = limit - 1 := by
      simp only [saturated, units, limit, amountFractionalBase, amountMaxValue]
      omega
    rw [most]
    refine (Nat.min_eq_right ?_).symm
    simp only [units, limit, amountFractionalBase, amountMaxValue] at large ⊢
    omega
  · next fits =>
    have exact : x.units + y.units ≤ limit - 1 := by
      simp only [units, limit, amountFractionalBase, amountMaxValue] at fits ⊢
      omega
    refine Eq.trans ?_ (Nat.min_eq_left exact).symm
    simp only [units, amountFractionalBase]
    omega

theorem multLoop_units (fuel : Nat) : ∀ (n : Nat) (x acc : AmountJson), 0 < n → n ≤ fuel →
    acc.units + x.units * n < limit → (multLoop fuel n x acc).saturated = false ∧
      (multLoop fuel n x acc).amount.units = acc.units + x.units * n := by
  induction fuel with
  | zero => exact fun n x acc positive enough => absurd positive (by omega)
  | succ fuel ih =>
    intro n x acc positive enough fits
    unfold multLoop
    by_cases large : 1 < n
    · rw [if_pos large]
      have halves := Nat.div_add_mod n 2
      have product : x.units * n = (x.units + x.units) * (n / 2) + x.units * (n % 2) := by
        calc x.units * n = x.units * (2 * (n / 2) + n % 2) := by rw [halves]
          _ = _ := by ring
      have half : x.units + x.units ≤ (x.units + x.units) * (n / 2) :=
        Nat.le_mul_of_pos_right _ (by omega)
      obtain ⟨exact, double⟩ := @add_units x [x] (by simp; omega)
      rw [List.map_singleton, List.sum_singleton] at double
      have rest : ∀ sum : AmountJson, sum.units = acc.units + x.units * (n % 2) →
          (multLoop fuel (n / 2) (add x [x]).amount sum).saturated = false ∧
            (multLoop fuel (n / 2) (add x [x]).amount sum).amount.units =
              acc.units + x.units * n := by
        intro sum isSum
        have next := ih (n / 2) (add x [x]).amount sum (by omega) (by omega)
          (by rw [double]; omega)
        rw [double] at next
        refine ⟨next.1, next.2.trans ?_⟩
        omega
      by_cases even : n % 2 = 0
      · simp only [if_pos even, exact, Bool.false_eq_true, if_false]
        exact rest acc (by rw [even]; omega)
      have odd : n % 2 = 1 := by omega
      rw [odd] at product
      obtain ⟨sums, sum⟩ := @add_units acc [x] (by simp; omega)
      rw [List.map_singleton, List.sum_singleton] at sum
      simp only [if_neg even, sums, exact, Bool.false_eq_true, if_false]
      exact rest _ (by rw [odd, sum]; omega)
    · have one : n = 1 := by omega
      rw [if_neg large]
      subst one
      have sum := @add_units acc [x] (by simpa using fits)
      simpa using sum

theorem mult_units {amount : AmountJson} {n : Nat} (fits : amount.units * n < limit) :
    (mult amount n).amount.units = amount.units * n := by
  unfold mult
  by_cases none : n = 0
  · rw [if_pos none, none, getZero_units, Nat.mul_zero]
  rw [if_neg none]
  have product := multLoop_units n n amount getZero (Nat.pos_of_ne_zero none) (Nat.le_refl _)
    (by rw [getZero_units]; omega)
  rw [product.2, getZero_units, Nat.zero_add]

@[simp] theorem sub_units (x y : AmountJson) : (sub x y).amount.units = x.units - y.units := by
  have bound := x.normalized
  have bound' := y.normalized
  unfold sub
  split
  · split
    · rw [getZero_units]
      simp only [units, amountFractionalBase] at bound bound' ⊢
      omega
    split
    · rw [getZero_units]
      simp only [units, amountFractionalBase] at bound bound' ⊢
      omega
    · simp only [units, amountFractionalBase] at bound bound' ⊢
      omega
  · split
    · rw [getZero_units]
      simp only [units, amountFractionalBase] at bound bound' ⊢
      omega
    · simp only [units, amountFractionalBase] at bound bound' ⊢
      omega

theorem sub_saturated_iff (x y : AmountJson) : (sub x y).saturated = true ↔ x.units < y.units := by
  have bound := x.normalized
  have bound' := y.normalized
  unfold sub
  simp only [units, amountFractionalBase] at bound bound' ⊢
  repeat' split
  all_goals
    simp only [Bool.false_eq_true, true_iff, false_iff]
    omega

theorem cmp_eq_compare (x y : AmountJson) : cmp x y = compare x.units y.units := by
  have bound := x.normalized
  have bound' := y.normalized
  simp only [amountFractionalBase] at bound bound'
  unfold cmp
  repeat' split
  · exact (Nat.compare_eq_lt.mpr (by simp only [units, amountFractionalBase]; omega)).symm
  · exact (Nat.compare_eq_gt.mpr (by simp only [units, amountFractionalBase]; omega)).symm
  · exact (Nat.compare_eq_lt.mpr (by simp only [units, amountFractionalBase]; omega)).symm
  · exact (Nat.compare_eq_gt.mpr (by simp only [units, amountFractionalBase]; omega)).symm
  · exact (Nat.compare_eq_eq.mpr (by simp only [units, amountFractionalBase]; omega)).symm

theorem cmp_lt_iff : cmp x y = .lt ↔ x.units < y.units := by
  rw [cmp_eq_compare, Nat.compare_eq_lt]

theorem cmp_gt_iff : cmp x y = .gt ↔ y.units < x.units := by
  rw [cmp_eq_compare, Nat.compare_eq_gt]

@[simp] theorem min_units (x y : AmountJson) : (min x y).units = Nat.min x.units y.units := by
  unfold min
  split
  · next less => exact (Nat.min_eq_left (Nat.le_of_lt (cmp_lt_iff.mp less))).symm
  · next more => exact (Nat.min_eq_right (Nat.le_of_not_lt fun less => more (cmp_lt_iff.mpr less))).symm

@[simp] theorem max_units (x y : AmountJson) : (max x y).units = Nat.max x.units y.units := by
  unfold max
  split
  · next less => exact (Nat.max_eq_right (Nat.le_of_lt (cmp_lt_iff.mp less))).symm
  · next more => exact (Nat.max_eq_left (Nat.le_of_not_lt fun less => more (cmp_lt_iff.mpr less))).symm

@[simp] theorem divide_units (amount : AmountJson) (divisor : ℕ+) :
    (divide amount divisor).units = amount.units / divisor := by
  unfold divide
  split
  · next one => simp [one]
  have split_value : amount.units = amount.value % divisor * amountFractionalBase +
      amount.fraction + divisor * (amount.value / divisor * amountFractionalBase) := by
    have parts := Nat.mod_add_div amount.value divisor
    calc amount.units
        = (amount.value % divisor + divisor * (amount.value / divisor)) * amountFractionalBase +
            amount.fraction := by rw [parts, units]
      _ = _ := by ring
  rw [split_value, Nat.add_mul_div_left _ _ divisor.pos]
  exact Nat.add_comm _ _

@[simp] theorem isZero_iff (amount : AmountJson) : isZero amount = true ↔ amount.units = 0 := by
  simp only [isZero, units, amountFractionalBase, Bool.and_eq_true, decide_eq_true_eq]
  omega

end Amounts

end Anastasis.Wallet
