import Anastasis.Wallet.PaymentCost

/-! What is selected for a withdrawal: the totals, the denominations and the rest. -/

set_option autoImplicit false

namespace Anastasis.Wallet

open AmountJson List

def DenominationRecord.price (d : DenominationRecord) : Nat :=
  d.value.units + d.feeWithdraw.units

def DenominationSelectionInfo.spent (selection : DenominationSelectionInfo) : Nat :=
  (selection.selectedDenoms.map fun d => d.2.price * d.1).sum

/-- The totals are the sums over the selected denominations, each record of the list is selected
at most once, and nothing more can be withdrawn from the rest. -/
structure WithdrawalSelected (surroundings : Surroundings) (amountAvailable : AmountJson)
    (denoms : List DenominationRecord) (selection : DenominationSelectionInfo) : Prop where
  value : selection.totalCoinValue.units = selection.worth
  cost : selection.totalWithdrawCost.units = selection.spent
  within : selection.totalWithdrawCost.units ≤ amountAvailable.units
  counted : ∀ d ∈ selection.selectedDenoms, 1 ≤ d.1 ∧ isWithdrawableDenom surroundings d.2
  once : (selection.selectedDenoms.map Prod.snd).Subperm denoms
  rest : ∀ d ∈ denoms, isWithdrawableDenom surroundings d →
    amountAvailable.units - selection.totalWithdrawCost.units < d.price

section Loops

variable {cost remaining : AmountJson} {fuel total : Nat} {d : DenominationRecord}
  {denoms ds : List DenominationRecord} {selection sel : DenominationSelectionInfo}

theorem countWithin_terminates (positive : 0 < cost.units) (enough : remaining.units < fuel) :
    ∃ count rest, countWithin cost fuel remaining = some (count, rest) ∧
      rest.units < cost.units := by
  induction fuel generalizing remaining with
  | zero => exact absurd enough (Nat.not_lt_zero _)
  | succ fuel ih =>
    unfold countWithin
    split
    next less => exact ⟨0, remaining, rfl, Amounts.cmp_lt_iff.mp less⟩
    next notLess =>
      have atLeast : cost.units ≤ remaining.units :=
        Nat.le_of_not_lt fun less => notLess (Amounts.cmp_lt_iff.mpr less)
      have shrinks : (Amounts.sub remaining cost).amount.units < fuel := by
        rw [Amounts.sub_units]
        omega
      obtain ⟨count, rest, counted, below⟩ := ih shrinks
      rw [counted]
      exact ⟨count + 1, rest, rfl, below⟩

theorem price_units (small : d.price < limit) :
    (Amounts.add d.value [d.feeWithdraw]).amount.units = d.price := Amounts.add_one_units small

/-- What the loop has selected so far, and what remains of the amount. -/
structure Withdrawing (total : Nat) (selection : DenominationSelectionInfo)
    (remaining : AmountJson) : Prop where
  value : selection.totalCoinValue.units = selection.worth
  cost : selection.totalWithdrawCost.units = selection.spent
  exhausts : selection.spent + remaining.units = total

theorem worth_le_spent (sel : DenominationSelectionInfo) : sel.worth ≤ sel.spent := by
  apply sum_le_sum
  intro e _
  exact Nat.mul_le_mul_right _ (Nat.le_add_right _ _)

theorem Withdrawing.take (withdrawing : Withdrawing total sel remaining) (inRange : total < limit)
    (small : d.price < limit) {count : Nat} {rest : AmountJson}
    (exact : remaining.units = d.price * count + rest.units) :
    Withdrawing total (sel.take d (Amounts.add d.value [d.feeWithdraw]).amount count)
      rest := by
  have bound := worth_le_spent sel
  have exhausts := withdrawing.exhausts
  have price := price_units small
  have least : d.value.units * count ≤ d.price * count :=
    Nat.mul_le_mul_right count (Nat.le_add_right _ _)
  unfold DenominationSelectionInfo.take
  split
  next =>
    have worth : (Amounts.mult d.value count).amount.units = d.value.units * count :=
      Amounts.mult_units (by omega)
    have spent : (Amounts.mult (Amounts.add d.value [d.feeWithdraw]).amount count).amount.units =
        d.price * count := by
      rw [Amounts.mult_units (by rw [price]; omega), price]
    constructor
    · rw [Amounts.add_one_units (by rw [withdrawing.value, worth]; omega), withdrawing.value, worth]
      simp [DenominationSelectionInfo.worth]
    · rw [Amounts.add_one_units (by rw [withdrawing.cost, spent]; omega), withdrawing.cost, spent]
      simp [DenominationSelectionInfo.spent]
    simp only [DenominationSelectionInfo.spent, map_append, map_cons, map_nil,
      sum_append, sum_cons, sum_nil, Nat.add_zero] at exhausts ⊢
    omega
  next none =>
    have zero : count = 0 := by omega
    rw [zero, Nat.mul_zero, Nat.zero_add] at exact
    exact ⟨withdrawing.value, withdrawing.cost, exact ▸ exhausts⟩

/-- What the rest of the loop adds to a selection. -/
structure Completed (total : Nat) (denoms : List DenominationRecord)
    (selection final : DenominationSelectionInfo) : Prop where
  withdrawing : ∃ remaining, Withdrawing total final remaining ∧ ∀ d ∈ denoms, remaining.units < d.price
  taken : ∃ taken, final.selectedDenoms = selection.selectedDenoms ++ taken ∧
    (taken.map Prod.snd).Sublist denoms ∧ ∀ entry ∈ taken, 1 ≤ entry.1

theorem take_selectedDenoms (cost : AmountJson) (count : Nat) : ∃ taken,
    (sel.take d cost count).selectedDenoms = sel.selectedDenoms ++ taken ∧
      (taken.map Prod.snd).Sublist [d] ∧ ∀ e ∈ taken, 1 ≤ e.1 := by
  unfold DenominationSelectionInfo.take
  split
  next some =>
    refine ⟨[(count, d)], rfl, .refl _, ?_⟩
    intro e mem
    rw [mem_singleton.mp mem]
    exact some
  next => exact ⟨[], (append_nil _).symm, nil_sublist _, by simp⟩

theorem selectDenoms_completes (withdrawing : Withdrawing total selection remaining)
    (inRange : total < limit) (small : ∀ d ∈ denoms, d.price < limit)
    (positive : ∀ d ∈ denoms, 0 < d.price) :
    ∃ final, selectDenoms denoms remaining selection = some final ∧
      Completed total denoms selection final := by
  induction denoms generalizing selection remaining with
  | nil =>
    refine ⟨selection, rfl, ⟨remaining, withdrawing, by simp⟩, [], ?_, .refl _, by simp⟩
    rw [append_nil]
  | cons d rest ih =>
    have smallHere := small d mem_cons_self
    have price := price_units smallHere
    have positiveHere := price ▸ positive d mem_cons_self
    obtain ⟨count, left, counted, below⟩ :=
      countWithin_terminates positiveHere (Nat.lt_succ_self remaining.units)
    have exact := countWithin_exact counted
    rw [price] at exact below
    have now := withdrawing.take inRange smallHere exact
    obtain ⟨taken, appended, sublist, counts⟩ :=
      @take_selectedDenoms d selection (Amounts.add d.value [d.feeWithdraw]).amount count
    simp only [selectDenoms, counted, Option.bind_eq_bind, Option.bind_some]
    split
    next isZero =>
      have none : left.units = 0 := by
        simp only [Amounts.isZero, Bool.and_eq_true, decide_eq_true_eq] at isZero
        rw [units, isZero.1, isZero.2, Nat.zero_mul]
      refine ⟨_, rfl, ⟨left, now, ?_⟩, taken, appended, sublist.trans ?_, counts⟩
      · intro y mem
        rw [none]
        exact positive y mem
      · exact singleton_sublist.mpr mem_cons_self
    next =>
      obtain ⟨final, r, ⟨remaining', done, rests⟩, later, appended', sublist', counts'⟩ :=
        ih now (fun y mem => small y (mem_cons_of_mem _ mem))
          (fun y mem => positive y (mem_cons_of_mem _ mem))
      refine ⟨final, r, ⟨remaining', done, ?_⟩, taken ++ later, ?_, ?_, ?_⟩
      · intro y mem
        cases mem_cons.mp mem with
        | inl here =>
          have total := now.exhausts.trans done.exhausts.symm
          have grows : (selection.take d (Amounts.add d.value [d.feeWithdraw]).amount
              count).spent ≤ final.spent := by
            simp [DenominationSelectionInfo.spent, appended']
          rw [here]
          omega
        | inr there => exact rests y there
      · rw [appended', appended, append_assoc]
      · rw [map_append]
        exact sublist.append sublist'
      · intro e mem
        exact (mem_append.mp mem).elim (counts e) (counts' e)

end Loops

variable {surroundings : Surroundings} {currency : String} {amountAvailable : AmountJson}
  {denoms ds : List DenominationRecord}

/-- The selection ends and is right when and only when no denomination that can be withdrawn is
for free. -/
theorem selectWithdrawalDenominations_selects_iff (inRange : amountAvailable.units < limit)
    (small : ∀ d ∈ denoms, d.price < limit) (oneCurrency : ∀ d ∈ denoms, d.currency = currency) :
    (∃ selection, selectWithdrawalDenominations surroundings currency amountAvailable denoms =
        some selection ∧ WithdrawalSelected surroundings amountAvailable denoms selection) ↔
      ∀ d ∈ denoms, isWithdrawableDenom surroundings d → 0 < d.price := by
  constructor
  · intro selects d member withdrawable
    obtain ⟨selection, -, selects⟩ := selects
    exact Nat.zero_lt_of_lt (selects.rest d member withdrawable)
  · intro positive
    have sorted : ∀ d, d ∈ (denoms.filter (isWithdrawableDenom surroundings)).insertionSort
        (fun d1 d2 => Amounts.cmp d2.value d1.value ≠ .gt) ↔
          d ∈ denoms ∧ isWithdrawableDenom surroundings d := by
      intro d
      rw [mem_insertionSort, mem_filter]
    have start : Withdrawing amountAvailable.units ⟨[], Amounts.getZero, Amounts.getZero⟩
        amountAvailable := by
      constructor <;> simp [DenominationSelectionInfo.worth, DenominationSelectionInfo.spent]
    obtain ⟨final, selected, ⟨remaining, done, rests⟩, taken, appended, sublist, counts⟩ :=
      selectDenoms_completes start inRange (fun d member => small d ((sorted d).mp member).1)
        (fun d member => positive d ((sorted d).mp member).1 ((sorted d).mp member).2)
    rw [nil_append] at appended
    have exhausts := done.exhausts
    refine ⟨final, ?_, done.value, done.cost, ?_, ?_, ?_, ?_⟩
    · unfold selectWithdrawalDenominations
      dsimp only
      rw [if_pos, selected]
      intro d member
      exact oneCurrency d (mem_filter.mp member).1
    · rw [done.cost]
      omega
    · intro entry member
      rw [appended] at member
      have listed := sublist.subset (List.mem_map_of_mem member)
      exact ⟨counts entry member, ((sorted entry.2).mp listed).2⟩
    · rw [appended]
      exact sublist.subperm.trans
        ((perm_insertionSort _ _).subperm.trans List.filter_sublist.subperm)
    · intro d member withdrawable
      have below := rests d ((sorted d).mpr ⟨member, withdrawable⟩)
      rw [done.cost]
      omega

def free : DenominationRecord := exampleDenomination "https://a/" "free" 0 (by decide)

/-- A denomination without value and fee can be taken from nothing at all, without an end. -/
theorem free_denomination_unselectable :
    ¬ ∀ (surroundings : Surroundings) (currency : String) (amountAvailable : AmountJson)
      (denoms : List DenominationRecord), amountAvailable.units < limit →
      (∀ d ∈ denoms, d.price < limit) → (∀ d ∈ denoms, d.currency = currency) →
      ∃ selection, selectWithdrawalDenominations surroundings currency amountAvailable denoms =
        some selection ∧ WithdrawalSelected surroundings amountAvailable denoms selection := by
  intro selects
  obtain ⟨selection, selected, -⟩ := selects exampleSurroundings "KUDOS" Amounts.getZero [free]
    (by decide) (by decide) (by decide)
  have stuck : (selectWithdrawalDenominations exampleSurroundings "KUDOS" Amounts.getZero
    [free]).isSome = false := by decide
  rw [selected] at stuck
  cases stuck

theorem ten_selectable :
    ∃ selection, selectWithdrawalDenominations exampleSurroundings "KUDOS" (.ofValue 25) [ten] =
      some selection ∧ WithdrawalSelected exampleSurroundings (.ofValue 25) [ten] selection :=
  (selectWithdrawalDenominations_selects_iff (by decide) (by decide) (by decide)).mpr (by decide)

end Anastasis.Wallet
