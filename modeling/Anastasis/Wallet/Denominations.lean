import Anastasis.Wallet.Amounts
import Mathlib.Data.List.Sort
import Mathlib.Algebra.Order.BigOperators.Group.List
import Mathlib.Algebra.Order.Group.Nat

/-! Denominations, and which coins an amount can be turned into. -/

set_option autoImplicit false

namespace Anastasis.Wallet

open AmountJson List

inductive Timestamp where
  | at (milliseconds : Nat)
  | never
deriving DecidableEq

def Timestamp.cmp : Timestamp → Timestamp → Ordering
  | .never, .never => .eq
  | .never, .at _ => .gt
  | .at _, .never => .lt
  | .at first, .at second => compare first second

def Timestamp.subtractDuration : Timestamp → Nat → Timestamp
  | .never, _ => .never
  | .at time, duration => .at (time - duration)

structure Surroundings where
  now : Nat
  denomselAllowLate : Bool

inductive DenominationVerificationStatus where
  | unverified
  | verifiedGood
  | verifiedBad
deriving DecidableEq

structure DenominationRecord where
  exchangeBaseUrl : String
  denomPubHash : String
  currency : String
  value : AmountJson
  feeWithdraw : AmountJson
  feeRefresh : AmountJson
  feeRefund : AmountJson
  stampStart : Timestamp
  stampExpireWithdraw : Timestamp
  isOffered : Bool
  isRevoked : Bool
  verificationStatus : DenominationVerificationStatus
  valueInRange : value.units < limit

def stillWithdrawable (now : Nat) : Timestamp → Bool
  | .never => true
  | .at deadline => now < deadline

def isWithdrawableDenom (surroundings : Surroundings) (d : DenominationRecord) : Bool :=
  let started := Timestamp.cmp (.at surroundings.now) d.stampStart ≠ .lt
  let lastPossibleWithdraw :=
    if surroundings.denomselAllowLate then d.stampExpireWithdraw
    -- withdrawing takes up to five minutes
    else d.stampExpireWithdraw.subtractDuration (5 * 60 * 1000)
  started && stillWithdrawable surroundings.now lastPossibleWithdraw && !d.isRevoked && d.isOffered

structure DenominationSelectionInfo where
  selectedDenoms : List (Nat × DenominationRecord)
  totalCoinValue : AmountJson
  totalWithdrawCost : AmountJson

/-- How often a cost can be taken from an amount, and what then remains. A cost of zero can be
taken without an end. -/
def countWithin (cost : AmountJson) : Nat → AmountJson → Option (Nat × AmountJson)
  | 0, _ => none
  | fuel + 1, remaining =>
    if Amounts.cmp remaining cost = .lt then some (0, remaining)
    else do
      let (count, rest) ← countWithin cost fuel (Amounts.sub remaining cost).amount
      pure (count + 1, rest)

def DenominationSelectionInfo.take (selection : DenominationSelectionInfo) (d : DenominationRecord)
    (cost : AmountJson) (count : Nat) : DenominationSelectionInfo :=
  if 0 < count then
    { selectedDenoms := selection.selectedDenoms ++ [(count, d)]
      totalCoinValue :=
        (Amounts.add selection.totalCoinValue [(Amounts.mult d.value count).amount]).amount
      totalWithdrawCost :=
        (Amounts.add selection.totalWithdrawCost [(Amounts.mult cost count).amount]).amount }
  else selection

/-- The loop over the denominations; every round but the last lowers what remains. -/
def selectDenoms : List DenominationRecord → AmountJson → DenominationSelectionInfo →
    Option DenominationSelectionInfo
  | [], _, selection => some selection
  | d :: rest, remaining, selection => do
      let cost := (Amounts.add d.value [d.feeWithdraw]).amount
      let (count, remaining) ← countWithin cost (remaining.units + 1) remaining
      let selection := selection.take d cost count
      if Amounts.isZero remaining then pure selection else selectDenoms rest remaining selection

/-- Takes the largest denominations first. Amounts of different currencies cannot be compared. -/
def selectWithdrawalDenominations (surroundings : Surroundings) (currency : String)
    (amountAvailable : AmountJson) (denoms : List DenominationRecord) :
    Option DenominationSelectionInfo :=
  let denoms := denoms.filter (isWithdrawableDenom surroundings)
  if ∀ d ∈ denoms, d.currency = currency then
    selectDenoms (denoms.insertionSort fun d1 d2 => Amounts.cmp d2.value d1.value ≠ .gt)
      amountAvailable ⟨[], Amounts.getZero, Amounts.getZero⟩
  else none

def DenominationSelectionInfo.resultingAmount (selection : DenominationSelectionInfo) :
    AmountJson :=
  (Amounts.add Amounts.getZero
    (selection.selectedDenoms.map fun d => (Amounts.mult d.2.value d.1).amount)).amount

def getTotalRefreshCost (surroundings : Surroundings) (denoms : List DenominationRecord)
    (refreshedDenom : DenominationRecord) (amountLeft : AmountJson) : Option AmountJson := do
  let withdrawAmount := (Amounts.sub amountLeft refreshedDenom.feeRefresh).amount
  let withdrawDenoms ← selectWithdrawalDenominations surroundings refreshedDenom.currency
    withdrawAmount denoms
  pure (Amounts.sub amountLeft withdrawDenoms.resultingAmount).amount

def DenominationSelectionInfo.worth (selection : DenominationSelectionInfo) : Nat :=
  (selection.selectedDenoms.map fun d => d.2.value.units * d.1).sum

theorem countWithin_exact {cost : AmountJson} {fuel : Nat} : ∀ {remaining rest : AmountJson}
    {count : Nat}, countWithin cost fuel remaining = some (count, rest) →
      remaining.units = cost.units * count + rest.units := by
  induction fuel with
  | zero => exact nofun
  | succ fuel ih =>
    intro remaining rest count counted
    unfold countWithin at counted
    split at counted
    · cases counted
      simp
    rename_i enough
    obtain ⟨⟨fewer, rest'⟩, inner, last⟩ := Option.bind_eq_some_iff.mp counted
    cases last
    have next := ih inner
    rw [Amounts.sub_units] at next
    have atLeast : cost.units ≤ remaining.units :=
      Nat.le_of_not_lt fun less => enough (Amounts.cmp_lt_iff.mpr less)
    rw [Nat.mul_succ]
    omega

theorem value_le_cost (d : DenominationRecord) :
    d.value.units ≤ (Amounts.add d.value [d.feeWithdraw]).amount.units := by
  have small := d.valueInRange
  rw [Amounts.add_saturates small]
  apply Nat.le_min.mpr
  constructor <;> omega

variable {denoms ds : List DenominationRecord}

/-- The total value is exact, and with what remains it does not exceed the amount. -/
theorem selectDenoms_worth : ∀ {remaining : AmountJson} {sel fin : DenominationSelectionInfo},
      sel.totalCoinValue.units = sel.worth → sel.worth + remaining.units < limit →
      selectDenoms ds remaining sel = some fin → fin.totalCoinValue.units = fin.worth ∧
        fin.worth ≤ sel.worth + remaining.units := by
  induction ds with
  | nil =>
    intro remaining sel fin total _ r
    cases r
    exact ⟨total, Nat.le_add_right _ _⟩
  | cons d rest ih =>
    intro remaining sel fin total fits r
    obtain ⟨⟨count, remaining'⟩, counted, continued⟩ := Option.bind_eq_some_iff.mp r
    have exact := countWithin_exact counted
    have least := Nat.mul_le_mul_right count (value_le_cost d)
    have taken : (sel.take d (Amounts.add d.value [d.feeWithdraw]).amount count).worth =
        sel.worth + d.value.units * count := by
      unfold DenominationSelectionInfo.take
      split
      · simp [DenominationSelectionInfo.worth]
      rename_i none
      have zero : count = 0 := by omega
      rw [zero, Nat.mul_zero, Nat.add_zero]
    have takenTotal : (sel.take d (Amounts.add d.value [d.feeWithdraw]).amount
        count).totalCoinValue.units = sel.worth + d.value.units * count := by
      unfold DenominationSelectionInfo.take
      split
      · have product : (Amounts.mult d.value count).amount.units = d.value.units * count :=
          Amounts.mult_units (by omega)
        rw [Amounts.add_one_units (by rw [total, product]; omega), total, product]
      rename_i none
      have zero : count = 0 := by omega
      rw [zero, Nat.mul_zero, Nat.add_zero, total]
    dsimp only at continued
    split at continued
    · cases continued
      exact ⟨takenTotal.trans taken.symm, by omega⟩
    · obtain ⟨eq, bound⟩ := ih (takenTotal.trans taken.symm) (by omega) continued
      exact ⟨eq, by omega⟩

variable {selection sel : DenominationSelectionInfo}

theorem selectWithdrawalDenominations_worth {env : Surroundings} {cur : String}
    {amountAvailable : AmountJson} (fits : amountAvailable.units < limit)
    (r : selectWithdrawalDenominations env cur amountAvailable ds = some sel) :
    sel.totalCoinValue.units = sel.worth ∧ sel.worth ≤ amountAvailable.units := by
  unfold selectWithdrawalDenominations at r
  dsimp only at r
  split at r
  · have bounds := selectDenoms_worth (by simp [DenominationSelectionInfo.worth])
      (by simpa [DenominationSelectionInfo.worth] using fits) r
    simpa [DenominationSelectionInfo.worth] using bounds
  · cases r

theorem resultingAmount_units (fits : sel.worth < limit) :
    sel.resultingAmount.units = sel.worth := by
  have products : (sel.selectedDenoms.map fun d =>
      (Amounts.mult d.2.value d.1).amount).map units =
        sel.selectedDenoms.map fun d => d.2.value.units * d.1 := by
    rw [List.map_map]
    apply map_congr_left
    intro d mem
    apply Amounts.mult_units
    have part : d.2.value.units * d.1 ≤ sel.worth :=
      single_le_sum (fun _ _ => Nat.zero_le _) _ (List.mem_map.mpr ⟨d, mem, rfl⟩)
    omega
  have sum := (@Amounts.add_units Amounts.getZero (sel.selectedDenoms.map
    fun d => (Amounts.mult d.2.value d.1).amount) (by
      rw [products, Amounts.getZero_units, Nat.zero_add]
      exact fits)).2
  rw [products, Amounts.getZero_units, Nat.zero_add] at sum
  exact sum

theorem selectDenoms_mem : ∀ {remaining : AmountJson} {sel fin : DenominationSelectionInfo},
      selectDenoms denoms remaining sel = some fin → ∀ selected ∈ fin.selectedDenoms,
        selected ∈ sel.selectedDenoms ∨ selected.2 ∈ denoms := by
  induction denoms with
  | nil =>
    intro remaining sel fin r selected mem
    cases r
    exact .inl mem
  | cons d rest ih =>
    intro remaining sel fin r selected mem
    obtain ⟨⟨count, remaining'⟩, -, continued⟩ := Option.bind_eq_some_iff.mp r
    have taken : ∀ selected ∈ (sel.take d (Amounts.add d.value [d.feeWithdraw]).amount
        count).selectedDenoms, selected ∈ sel.selectedDenoms ∨ selected.2 = d := by
      intro selected mem
      unfold DenominationSelectionInfo.take at mem
      split at mem
      · cases mem_append.mp mem with
        | inl old => exact .inl old
        | inr new => exact .inr (congrArg Prod.snd (mem_singleton.mp new))
      · exact .inl mem
    have now : selected ∈ (sel.take d (Amounts.add d.value [d.feeWithdraw]).amount
        count).selectedDenoms ∨ selected.2 ∈ rest := by
      dsimp only at continued
      split at continued
      · cases continued
        exact .inl mem
      · exact ih continued selected mem
    cases now with
    | inl now =>
      cases taken selected now with
      | inl old => exact .inl old
      | inr new => exact .inr (new ▸ mem_cons_self)
    | inr later => exact .inr (mem_cons_of_mem _ later)

theorem selectWithdrawalDenominations_mem {env : Surroundings} {currency : String}
    {amountAvailable : AmountJson}
    (r : selectWithdrawalDenominations env currency amountAvailable ds = some sel) :
    ∀ d ∈ sel.selectedDenoms, d.2 ∈ ds ∧ d.2.currency = currency := by
  intro d mem
  unfold selectWithdrawalDenominations at r
  dsimp only at r
  split at r
  · next sameCurrency =>
    cases selectDenoms_mem r d mem with
    | inl none => cases none
    | inr sorted =>
      have filtered := (mem_insertionSort _).mp sorted
      exact ⟨(mem_filter.mp filtered).1, sameCurrency _ filtered⟩
  · cases r

end Anastasis.Wallet
