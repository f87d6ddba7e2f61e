import Anastasis.Wallet.Refresh

/-! What the balances should count, and what they count twice. -/

set_option autoImplicit false

namespace Anastasis.Wallet

open Library AmountJson

section Parts

variable (currency cur : String)

def RefreshingCoin.stillExpected (refreshing : RefreshingCoin) : Nat :=
  if refreshing.status = .finished then 0 else refreshing.expected currency

/-- What a finished coin adds although its new coins are in the wallet already. -/
def RefreshingCoin.expectedAgain (refreshing : RefreshingCoin) : Nat :=
  if refreshing.status = .finished then refreshing.expected currency else 0

def RefreshGroupRecord.stillExpected (group : RefreshGroupRecord) : Nat :=
  if group.timestampFinished.isSome then 0
  else (group.coins.map (RefreshingCoin.stillExpected currency)).sum

def RefreshGroupRecord.countedTwice (group : RefreshGroupRecord) : Nat :=
  if group.timestampFinished.isSome then 0
  else (group.coins.map (RefreshingCoin.expectedAgain currency)).sum

end Parts

namespace WalletStores

variable (wallet : WalletStores) (currency cur : String)

/-- The fresh coins, and the outputs of the coins that are still being refreshed. -/
def expectedAvailable : Nat :=
  wallet.coins.total (CoinRecord.freshAmount currency) +
    wallet.refreshGroups.total (RefreshGroupRecord.stillExpected currency)

def countedTwice : Nat :=
  wallet.refreshGroups.total (RefreshGroupRecord.countedTwice currency)

def withdrawn (group : WithdrawalGroupRecord) : Nat :=
  wallet.planchets.total fun p =>
    if p.withdrawalGroupId = group.withdrawalGroupId ∧ p.withdrawalDone then p.coinValue.units
    else 0

/-- The coins of started and coming withdrawals that are not withdrawn yet. -/
def expectedPending : Nat :=
  wallet.reserves.total (ReserveRecord.promised currency) +
    wallet.withdrawalGroups.total fun group => group.promised currency - wallet.withdrawn group

def pendingTwice : Nat :=
  wallet.withdrawalGroups.total fun group =>
    Nat.min (group.promised currency) (wallet.withdrawn group)

end WalletStores

theorem RefreshGroupRecord.counted_parts (currency : String) (group : RefreshGroupRecord) :
    group.counted currency = group.stillExpected currency + group.countedTwice currency := by
  unfold counted stillExpected countedTwice
  split
  · rfl
  rw [← List.sum_map_add]
  apply congrArg List.sum
  apply List.map_congr_left
  intro refreshing _
  unfold RefreshingCoin.stillExpected RefreshingCoin.expectedAgain
  split
  · exact (Nat.zero_add _).symm
  · exact (Nat.add_zero _).symm

theorem countedAvailable_parts (w : WalletStores) (currency : String) :
    countedAvailable w currency = w.expectedAvailable currency + w.countedTwice currency := by
  have parts := w.refreshGroups.total_add (RefreshGroupRecord.stillExpected currency)
    (RefreshGroupRecord.countedTwice currency)
  rw [Record.total_congr fun group _ => (group.counted_parts currency).symm] at parts
  unfold countedAvailable WalletStores.expectedAvailable WalletStores.countedTwice
  omega

theorem countedPending_parts (w : WalletStores) (currency : String) : countedPending w currency =
      w.expectedPending currency + w.pendingTwice currency := by
  have parts := w.withdrawalGroups.total_add
    (fun group => group.promised currency - w.withdrawn group)
    (fun group => Nat.min (group.promised currency) (w.withdrawn group))
  have each : w.withdrawalGroups.total (fun group =>
      (group.promised currency - w.withdrawn group) +
        Nat.min (group.promised currency) (w.withdrawn group)) =
      w.withdrawalGroups.total (WithdrawalGroupRecord.promised currency) := by
    apply Record.total_congr
    intro group _
    exact Nat.sub_add_min_cancel _ _
  rw [each] at parts
  unfold countedPending WalletStores.expectedPending WalletStores.pendingTwice
  omega

/-- A sum that ends at the largest amount is a part of itself only if the rest is nothing. -/
theorem min_add_eq_iff (part rest most : Nat) :
    Nat.min (part + rest) most = part ↔ part ≤ most ∧ (rest = 0 ∨ part = most) := by
  rcases Nat.le_total (part + rest) most with small | large
  · rw [show Nat.min (part + rest) most = part + rest from Nat.min_eq_left small]
    omega
  · rw [show Nat.min (part + rest) most = most from Nat.min_eq_right large]
    omega

theorem available_eq_expected_iff (w : WalletStores) (cur : String) :
    available w cur = w.expectedAvailable cur ↔ w.expectedAvailable cur ≤ limit - 1 ∧
        (w.countedTwice cur = 0 ∨ w.expectedAvailable cur = limit - 1) := by
  rw [(balances_units w cur).1, countedAvailable_parts]
  exact min_add_eq_iff _ _ _

theorem pendingIncoming_eq_expected_iff (w : WalletStores) (cur : String) :
    pendingIncoming w cur = w.expectedPending cur ↔ w.expectedPending cur ≤ limit - 1 ∧
        (w.pendingTwice cur = 0 ∨ w.expectedPending cur = limit - 1) := by
  rw [(balances_units w cur).2, countedPending_parts]
  exact min_add_eq_iff _ _ _

end Anastasis.Wallet
