import Mathlib.Algebra.Group.Nat.Defs
import Mathlib.Order.Defs.LinearOrder
import Mathlib.Tactic.SplitIfs
import Mathlib.Data.List.TakeWhile
import Mathlib.Tactic.Push

/-! The amounts of the wallet with their currencies, whose fractions may come to whole units. -/

set_option autoImplicit false

namespace Anastasis.TalerUtil.Amounts

def amountFractionalBase : Nat := 100000000

def amountMaxValue : Nat := 2 ^ 52

structure AmountJson where
  value : Nat
  fraction : Nat
  currency : String

/-- An amount that an operation came to, whose fraction may have become negative. -/
structure ResultAmount where
  value : Nat
  fraction : Int
  currency : String
deriving DecidableEq

structure Result where
  amount : ResultAmount
  saturated : Bool
deriving DecidableEq

def mismatched (x currency : String) : String :=
  "Mismatched currency: " ++ x ++ " and " ++ currency

def maximum (currency : String) : Result where
  amount := ⟨amountMaxValue, amountFractionalBase - 1, currency⟩
  saturated := true

def addLoop (currency : String) : Nat → Nat → List AmountJson → Except String Result
  | value, fraction, [] => .ok ⟨⟨value, fraction, currency⟩, false⟩
  | value, fraction, x :: rest =>
    if x.currency ≠ currency then .error (mismatched x.currency currency)
    else
      let value' := value + x.value + (fraction + x.fraction) / amountFractionalBase
      if amountMaxValue < value' then .ok (maximum currency)
      else addLoop currency value' ((fraction + x.fraction) % amountFractionalBase) rest

def add (first : AmountJson) (rest : List AmountJson) : Except String Result :=
  let value := first.value + first.fraction / amountFractionalBase
  if amountMaxValue < value then .ok (maximum first.currency)
  else addLoop first.currency value (first.fraction % amountFractionalBase) rest

def nothing (currency : String) : Result where
  amount := ⟨0, 0, currency⟩
  saturated := true

def subLoop (currency : String) : Nat → Int → List AmountJson → Except String Result
  | value, fraction, [] => .ok ⟨⟨value, fraction, currency⟩, false⟩
  | value, fraction, b :: rest =>
    if b.currency ≠ currency then .error (mismatched b.currency currency)
    else if fraction < b.fraction then
      if value < 1 then .ok (nothing currency)
      else if value - 1 < b.value then .ok (nothing currency)
      else subLoop currency (value - 1 - b.value) (fraction + amountFractionalBase - b.fraction) rest
    else if value < b.value then .ok (nothing currency)
    else subLoop currency (value - b.value) (fraction - b.fraction) rest

def sub (a : AmountJson) (rest : List AmountJson) : Except String Result :=
  subLoop a.currency a.value a.fraction rest

def cmp (a b : AmountJson) : Except String Ordering :=
  if a.currency ≠ b.currency then .error (mismatched a.currency b.currency)
  else
    let av := a.value + a.fraction / amountFractionalBase
    let af := a.fraction % amountFractionalBase
    let bv := b.value + b.fraction / amountFractionalBase
    let bf := b.fraction % amountFractionalBase
    if av < bv then .ok .lt
    else if bv < av then .ok .gt
    else if af < bf then .ok .lt
    else if bf < af then .ok .gt
    else .ok .eq

/-! ## What the operations come to -/

def units (value fraction : Nat) : Nat := value * amountFractionalBase + fraction

def val (a : AmountJson) : Nat := units a.value a.fraction

def total (amounts : List AmountJson) : Nat := amounts.foldr (fun a sum => val a + sum) 0

/-- The normalised amount of so many smallest units. -/
def exactly (units : Nat) (currency : String) : Result where
  amount := ⟨units / amountFractionalBase, (units % amountFractionalBase : Nat), currency⟩
  saturated := false

/-- The amounts before the first one of another currency. -/
def sameCurrency (currency : String) (rest : List AmountJson) : List AmountJson :=
  rest.takeWhile fun x => x.currency = currency

section Loops

variable {currency : String} {value v fraction : Nat} {x : AmountJson} {rest : List AmountJson}

end Loops

def euros (value fraction : Nat) : AmountJson := ⟨value, fraction, "EUR"⟩

end Anastasis.TalerUtil.Amounts
