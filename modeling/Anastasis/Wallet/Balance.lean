import Anastasis.Wallet.Database

/-! The balances that the wallet reports, and what they are made of. -/

set_option autoImplicit false

namespace Anastasis.Wallet

open Library AmountJson

structure WalletBalance where
  available : AmountJson
  pendingIncoming : AmountJson
deriving DecidableEq

abbrev BalanceStore := Record String WalletBalance

namespace BalanceStore

def none : WalletBalance := ⟨Amounts.getZero, Amounts.getZero⟩

def balance (balanceStore : BalanceStore) (currency : String) : WalletBalance :=
  (balanceStore.get? currency).getD none

def initBalance (balanceStore : BalanceStore) (currency : String) : BalanceStore :=
  balanceStore.set currency (balanceStore.balance currency)

def addAvailable (balanceStore : BalanceStore) (currency : String) (amount : AmountJson) :
    BalanceStore :=
  let b := balanceStore.balance currency
  balanceStore.set currency { b with available := (Amounts.add b.available [amount]).amount }

def addPending (balanceStore : BalanceStore) (currency : String) (amount : AmountJson) :
    BalanceStore :=
  let b := balanceStore.balance currency
  balanceStore.set currency
    { b with pendingIncoming := (Amounts.add b.pendingIncoming [amount]).amount }

def countReserve (balanceStore : BalanceStore) (r : ReserveRecord) : BalanceStore :=
  let balanceStore := balanceStore.initBalance r.currency
  if !r.initialWithdrawalStarted then
    balanceStore.addPending r.currency r.initialTotalCoinValue
  else balanceStore

def countCoin (balanceStore : BalanceStore) (c : CoinRecord) : BalanceStore :=
  -- dormant coins are in a refresh session already
  if c.status = .fresh then balanceStore.addAvailable c.currency c.currentAmount
  else balanceStore

def countRefreshingCoin (balanceStore : BalanceStore) (r : RefreshingCoin) : BalanceStore :=
  match r.refreshSession with
  -- the refresh is assumed to succeed
  | some session => balanceStore.addAvailable r.currency session.amountRefreshOutput
  | .none => balanceStore.addAvailable r.currency r.estimatedOutput

def countRefreshGroup (balanceStore : BalanceStore) (r : RefreshGroupRecord) : BalanceStore :=
  if r.timestampFinished.isSome then balanceStore
  else r.coins.foldl countRefreshingCoin balanceStore

def countWithdrawalGroup (balanceStore : BalanceStore) (wds : WithdrawalGroupRecord) :
    BalanceStore :=
  if wds.timestampFinish.isSome then balanceStore
  else balanceStore.addPending wds.currency wds.totalCoinValue

end BalanceStore

def getBalances (wallet : WalletStores) : BalanceStore :=
  let balanceStore := wallet.reserves.values.foldl BalanceStore.countReserve .empty
  let balanceStore := wallet.coins.values.foldl BalanceStore.countCoin balanceStore
  let balanceStore :=
    wallet.refreshGroups.values.foldl BalanceStore.countRefreshGroup balanceStore
  wallet.withdrawalGroups.values.foldl BalanceStore.countWithdrawalGroup balanceStore

def available (wallet : WalletStores) (currency : String) : Nat :=
  ((getBalances wallet).balance currency).available.units

def pendingIncoming (wallet : WalletStores) (currency : String) : Nat :=
  ((getBalances wallet).balance currency).pendingIncoming.units

section Weights

variable (currency cur : String)

def inCurrency (other : String) (amount : AmountJson) : Nat :=
  if other = currency then amount.units else 0

def CoinRecord.freshAmount (coin : CoinRecord) : Nat :=
  if coin.status = .fresh then inCurrency currency coin.currency coin.currentAmount else 0

def RefreshingCoin.output (refreshing : RefreshingCoin) : AmountJson :=
  match refreshing.refreshSession with
  | some session => session.amountRefreshOutput
  | none => refreshing.estimatedOutput

def RefreshingCoin.expected (refreshing : RefreshingCoin) : Nat :=
  inCurrency currency refreshing.currency refreshing.output

def RefreshGroupRecord.counted (group : RefreshGroupRecord) : Nat :=
  if group.timestampFinished.isSome then 0
  else (group.coins.map (RefreshingCoin.expected currency)).sum

def ReserveRecord.promised (reserve : ReserveRecord) : Nat :=
  if reserve.initialWithdrawalStarted then 0
  else inCurrency currency reserve.currency reserve.initialTotalCoinValue

def WithdrawalGroupRecord.promised (group : WithdrawalGroupRecord) : Nat :=
  if group.timestampFinish.isSome then 0
  else inCurrency currency group.currency group.totalCoinValue

end Weights

namespace BalanceStore

/-- The balances of a currency grow by the given weights, up to the largest amount. -/
structure Grows (currency : String) (before after : BalanceStore) (moreAvailable morePending : Nat) :
    Prop where
  available : (after.balance currency).available.units =
    Nat.min ((before.balance currency).available.units + moreAvailable) (limit - 1)
  pending : (after.balance currency).pendingIncoming.units =
    Nat.min ((before.balance currency).pendingIncoming.units + morePending) (limit - 1)

variable {currency cur : String} {balanceStore : BalanceStore}

def InRange (currency : String) (balanceStore : BalanceStore) : Prop :=
  (balanceStore.balance currency).available.units < limit ∧
    (balanceStore.balance currency).pendingIncoming.units < limit

theorem balance_set (y : String) (b : WalletBalance) :
    BalanceStore.balance (balanceStore.set y b) currency =
      if currency = y then b else balanceStore.balance currency := by
  unfold balance
  rw [Record.get?_set]
  split <;> rfl

theorem limit_pos : 0 < limit := Nat.mul_pos (Nat.succ_pos _) base_pos

theorem Grows.inRange {after : BalanceStore} {moreAvailable morePending : Nat}
    (grows : Grows currency balanceStore after moreAvailable morePending) :
    InRange currency after := by
  have positive := limit_pos
  constructor
  · rw [grows.available]
    exact Nat.lt_of_le_of_lt (Nat.min_le_right _ _) (by omega)
  · rw [grows.pending]
    exact Nat.lt_of_le_of_lt (Nat.min_le_right _ _) (by omega)

theorem Grows.none (inRange : InRange currency balanceStore) :
    Grows currency balanceStore balanceStore 0 0 := by
  constructor
  · rw [Nat.add_zero]
    exact (Nat.min_eq_left (Nat.le_sub_one_of_lt inRange.1)).symm
  · rw [Nat.add_zero]
    exact (Nat.min_eq_left (Nat.le_sub_one_of_lt inRange.2)).symm

theorem min_add_min (x y third most : Nat) : Nat.min (Nat.min (x + y) most + third) most =
      Nat.min (x + (y + third)) most := by
  rcases Nat.le_total (x + y) most with small | large
  · rw [show Nat.min (x + y) most = x + y from Nat.min_eq_left small, Nat.add_assoc]
  · rw [show Nat.min (x + y) most = most from Nat.min_eq_right large]
    exact (Nat.min_eq_right (by omega)).trans (Nat.min_eq_right (by omega)).symm

theorem Grows.trans {mid after : BalanceStore} {available available' pending pending' : Nat}
    (x : Grows cur balanceStore mid available pending)
    (y : Grows cur mid after available' pending') :
    Grows cur balanceStore after (available + available') (pending + pending') := by
  constructor
  · rw [y.available, x.available, min_add_min]
  · rw [y.pending, x.pending, min_add_min]

theorem Grows.foldl {Value : Type} {count : BalanceStore → Value → BalanceStore}
    {available pending : Value → Nat} (each : ∀ balanceStore v, InRange cur balanceStore →
      Grows cur balanceStore (count balanceStore v) (available v) (pending v))
    (values : List Value) (inRange : InRange cur balanceStore) :
    Grows cur balanceStore (values.foldl count balanceStore) (values.map available).sum
      (values.map pending).sum := by
  induction values generalizing balanceStore with
  | nil => exact .none inRange
  | cons v rest ih =>
    have x := each balanceStore v inRange
    rw [List.foldl_cons, List.map_cons, List.map_cons, List.sum_cons, List.sum_cons]
    exact x.trans (ih x.inRange)

theorem addAvailable_grows (y : String) (amount : AmountJson) (inRange : InRange cur balanceStore) :
    Grows cur balanceStore (balanceStore.addAvailable y amount) (inCurrency cur y amount) 0 := by
  have eq := Grows.none inRange
  unfold addAvailable inCurrency
  by_cases hit : cur = y
  · subst hit
    constructor
    · simp only [balance_set, if_true]
      exact Amounts.add_saturates inRange.1
    · simp only [balance_set, if_true]
      exact eq.pending
  rw [if_neg (Ne.symm hit)]
  constructor
  · simp only [balance_set, if_neg hit]
    exact eq.available
  · simp only [balance_set, if_neg hit]
    exact eq.pending

theorem addPending_grows (y : String) (amount : AmountJson) (inRange : InRange cur balanceStore) :
    Grows cur balanceStore (balanceStore.addPending y amount) 0 (inCurrency cur y amount) := by
  have eq := Grows.none inRange
  unfold addPending inCurrency
  by_cases hit : cur = y
  · subst hit
    constructor
    · simp only [balance_set, if_true]
      exact eq.available
    · simp only [balance_set, if_true]
      exact Amounts.add_saturates inRange.2
  rw [if_neg (Ne.symm hit)]
  constructor
  · simp only [balance_set, if_neg hit]
    exact eq.available
  · simp only [balance_set, if_neg hit]
    exact eq.pending

theorem initBalance_balance (y : String) :
    (balanceStore.initBalance y).balance currency = balanceStore.balance currency := by
  rw [initBalance, balance_set]
  split
  · next eq => rw [eq]
  · rfl

theorem countReserve_grows (r : ReserveRecord) (inRange : InRange cur balanceStore) :
    Grows cur balanceStore (balanceStore.countReserve r) 0 (r.promised cur) := by
  have initialised : InRange cur (balanceStore.initBalance r.currency) := by
    rw [InRange, initBalance_balance]
    exact inRange
  unfold countReserve ReserveRecord.promised
  cases r.initialWithdrawalStarted with
  | true =>
    have eq := Grows.none initialised
    simp only [Bool.not_true, Bool.false_eq_true, if_false, if_true]
    constructor
    · rw [eq.available, initBalance_balance]
    · rw [eq.pending, initBalance_balance]
  | false =>
    have grows := addPending_grows r.currency r.initialTotalCoinValue initialised
    simp only [Bool.not_false, if_true, Bool.false_eq_true, if_false]
    constructor
    · rw [grows.available, initBalance_balance]
    · rw [grows.pending, initBalance_balance]

theorem countCoin_grows (c : CoinRecord) (inRange : InRange cur balanceStore) :
    Grows cur balanceStore (balanceStore.countCoin c) (c.freshAmount cur) 0 := by
  unfold countCoin CoinRecord.freshAmount
  split
  · exact addAvailable_grows _ _ inRange
  · exact .none inRange

theorem countRefreshingCoin_grows (r : RefreshingCoin) (inRange : InRange cur balanceStore) :
    Grows cur balanceStore (balanceStore.countRefreshingCoin r) (r.expected cur) 0 := by
  unfold countRefreshingCoin RefreshingCoin.expected RefreshingCoin.output
  cases r.refreshSession with
  | none => exact addAvailable_grows _ _ inRange
  | some ses => exact addAvailable_grows _ _ inRange

theorem sum_map_zero {Value : Type} (values : List Value) : (values.map fun _ => 0).sum = 0 := by
  simp

theorem countRefreshGroup_grows (r : RefreshGroupRecord) (inRange : InRange cur balanceStore) :
    Grows cur balanceStore (balanceStore.countRefreshGroup r) (r.counted cur) 0 := by
  unfold countRefreshGroup RefreshGroupRecord.counted
  split
  · exact .none inRange
  · have grows := Grows.foldl (fun _ r => countRefreshingCoin_grows r) r.coins inRange
    rwa [sum_map_zero] at grows

theorem countWithdrawalGroup_grows (wds : WithdrawalGroupRecord)
    (inRange : InRange cur balanceStore) :
    Grows cur balanceStore (balanceStore.countWithdrawalGroup wds) 0 (wds.promised cur) := by
  unfold countWithdrawalGroup WithdrawalGroupRecord.promised
  split
  · exact .none inRange
  · exact addPending_grows _ _ inRange

end BalanceStore

def countedAvailable (wallet : WalletStores) (currency : String) : Nat :=
  wallet.coins.total (CoinRecord.freshAmount currency) +
    wallet.refreshGroups.total (RefreshGroupRecord.counted currency)

def countedPending (wallet : WalletStores) (currency : String) : Nat :=
  wallet.reserves.total (ReserveRecord.promised currency) +
    wallet.withdrawalGroups.total (WithdrawalGroupRecord.promised currency)

theorem balances_units (w : WalletStores) (cur : String) :
    available w cur = Nat.min (countedAvailable w cur) (limit - 1) ∧
      pendingIncoming w cur = Nat.min (countedPending w cur) (limit - 1) := by
  have empty : BalanceStore.InRange cur .empty := ⟨getZero_inRange, getZero_inRange⟩
  have reserves := BalanceStore.Grows.foldl (fun _ r => BalanceStore.countReserve_grows r)
    w.reserves.values empty
  have cs := BalanceStore.Grows.foldl (fun _ c => BalanceStore.countCoin_grows c)
    w.coins.values reserves.inRange
  have groups := BalanceStore.Grows.foldl (fun _ r => BalanceStore.countRefreshGroup_grows r)
    w.refreshGroups.values cs.inRange
  have withdrawals := BalanceStore.Grows.foldl
    (fun _ wds => BalanceStore.countWithdrawalGroup_grows wds)
    w.withdrawalGroups.values groups.inRange
  have all := ((reserves.trans cs).trans groups).trans withdrawals
  have start : (BalanceStore.balance .empty cur) = BalanceStore.none := rfl
  simp only [BalanceStore.sum_map_zero, Nat.zero_add, Nat.add_zero] at all
  constructor
  · have sum := all.available
    rw [start, BalanceStore.none, Amounts.getZero_units, Nat.zero_add] at sum
    exact sum
  have sum := all.pending
  rw [start, BalanceStore.none, Amounts.getZero_units, Nat.zero_add] at sum
  exact sum

end Anastasis.Wallet
