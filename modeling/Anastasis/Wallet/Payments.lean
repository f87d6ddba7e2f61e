import Anastasis.Wallet.Balance

/-! What a payment is announced to cost, and how its coins are spent. -/

set_option autoImplicit false

namespace Anastasis.Wallet

open Library AmountJson

def PayCoinSelection.contributions : List String → List AmountJson →
    Option (List (String × AmountJson))
  | [], _ => some []
  | _ :: _, [] => none
  | coinPub :: rest, contribution :: more => do
      let contributions ← PayCoinSelection.contributions rest more
      pure ((coinPub, contribution) :: contributions)

/-- What one coin of a selection costs: its contribution and the refresh of the rest. -/
def coinCosts (surroundings : Surroundings) (wallet : WalletStores) (currency : String)
    (coinPub : String) (contribution : AmountJson) : Option (List AmountJson) := do
  let coin ← wallet.coins.get? coinPub
  let denom ← wallet.denominations.get? (coin.exchangeBaseUrl, coin.denomPubHash)
  guard (denom.currency = currency)
  -- these are the denominations of all exchanges
  let allDenoms := wallet.denominations.values
  let amountLeft := (Amounts.sub denom.value contribution).amount
  let refreshCost ← getTotalRefreshCost surroundings allDenoms denom amountLeft
  pure [contribution, refreshCost]

def selectionCosts (surroundings : Surroundings) (wallet : WalletStores) (currency : String) :
    List (String × AmountJson) → Option (List AmountJson)
  | [] => some []
  | (coinPub, contribution) :: rest => do
      let costs ← coinCosts surroundings wallet currency coinPub contribution
      let more ← selectionCosts surroundings wallet currency rest
      pure (costs ++ more)

def getTotalPaymentCost (surroundings : Surroundings) (wallet : WalletStores) (currency : String)
    (pcs : PayCoinSelection) : Option AmountJson := do
  let contributions ← PayCoinSelection.contributions pcs.coinPubs pcs.coinContributions
  let costs ← selectionCosts surroundings wallet currency contributions
  pure (Amounts.add Amounts.getZero costs).amount

def CoinRecord.spend (coin : CoinRecord) (allocationId : String) (contrib : AmountJson) :
    CoinRecord :=
  { coin with
    status := .dormant
    allocation := some ⟨allocationId, contrib⟩
    currentAmount := (Amounts.sub coin.currentAmount contrib).amount
    amountInRange := by
      rw [Amounts.sub_units]
      exact Nat.lt_of_le_of_lt (Nat.sub_le _ _) coin.amountInRange }

/-- Spends one coin. A coin that is not fresh stays as it is, unless its mark is in conflict. -/
def spendSelectedCoin (currency allocationId : String) (coinPub : String) (contrib : AmountJson)
    (wallet : WalletStores) : Option WalletStores := do
  let coin ← wallet.coins.get? coinPub
  if coin.status ≠ .fresh then
    match coin.allocation with
    | none => pure wallet
    | some alloc =>
      guard (alloc.id = allocationId)
      guard (Amounts.cmp alloc.amount contrib = .eq)
      pure wallet
  else
    guard (coin.currency = currency)
    guard ((Amounts.sub coin.currentAmount contrib).saturated = false)
    pure { wallet with coins := wallet.coins.set coinPub (coin.spend allocationId contrib) }

def spendSelected (currency allocationId : String) :
    List (String × AmountJson) → WalletStores → Option WalletStores
  | [], wallet => some wallet
  | (coinPub, contrib) :: rest, wallet => do
      let wallet ← spendSelectedCoin currency allocationId coinPub contrib wallet
      spendSelected currency allocationId rest wallet

def applyCoinSpend (surroundings : Surroundings) (currency allocationId refreshGroupId : String)
    (coinSelection : PayCoinSelection) (wallet : WalletStores) : Option WalletStores := do
  let contributions ← PayCoinSelection.contributions coinSelection.coinPubs
    coinSelection.coinContributions
  let wallet ← spendSelected currency allocationId contributions wallet
  createRefreshGroup surroundings refreshGroupId coinSelection.coinPubs wallet

end Anastasis.Wallet
