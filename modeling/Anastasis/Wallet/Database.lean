import Anastasis.Library.RecordTotals
import Anastasis.Wallet.CoinSelection
import Anastasis.Wallet.Denominations

/-! The wallet's database, and how coins enter a refresh group. -/

set_option autoImplicit false

namespace Anastasis.Wallet

open Library AmountJson

inductive CoinStatus where
  | fresh
  | dormant
deriving DecidableEq

structure CoinAllocation where
  id : String
  amount : AmountJson
deriving DecidableEq

structure CoinRecord where
  coinPub : String
  exchangeBaseUrl : String
  denomPubHash : String
  currency : String
  currentAmount : AmountJson
  status : CoinStatus
  suspended : Bool
  allocation : Option CoinAllocation
  amountInRange : currentAmount.units < limit

inductive RefreshCoinStatus where
  | pending
  | finished
  | frozen
deriving DecidableEq

structure RefreshSessionRecord where
  newDenoms : List (Nat × String)
  amountRefreshOutput : AmountJson
  norevealIndex : Option Nat
deriving DecidableEq

structure RefreshingCoin where
  oldCoinPub : String
  currency : String
  status : RefreshCoinStatus
  refreshSession : Option RefreshSessionRecord
  input : AmountJson
  estimatedOutput : AmountJson
  inputInRange : input.units < limit
deriving DecidableEq

structure RefreshGroupRecord where
  coins : List RefreshingCoin
  timestampFinished : Option Nat
  frozen : Bool
deriving DecidableEq

structure WithdrawalGroupRecord where
  withdrawalGroupId : String
  exchangeBaseUrl : String
  currency : String
  selectedDenoms : List (Nat × String)
  totalCoinValue : AmountJson
  timestampFinish : Option Nat

structure PlanchetRecord where
  withdrawalGroupId : String
  coinIdx : Nat
  denomPubHash : String
  coinValue : AmountJson
  withdrawalDone : Bool
  valueInRange : coinValue.units < limit

structure ReserveRecord where
  currency : String
  initialWithdrawalStarted : Bool
  initialTotalCoinValue : AmountJson

structure WalletStores where
  coins : Record String CoinRecord
  denominations : Record (String × String) DenominationRecord
  refreshGroups : Record String RefreshGroupRecord
  withdrawalGroups : Record String WithdrawalGroupRecord
  planchets : Record String PlanchetRecord
  reserves : Record String ReserveRecord

def WalletStores.denominationsOf (wallet : WalletStores) (exchangeBaseUrl : String) :
    List DenominationRecord :=
  wallet.denominations.values.filter fun d => d.exchangeBaseUrl = exchangeBaseUrl

theorem getZero_inRange : Amounts.getZero.units < limit := by
  rw [Amounts.getZero_units]
  exact Nat.mul_pos (Nat.succ_pos _) base_pos

def CoinRecord.putToSleep (coin : CoinRecord) : CoinRecord :=
  { coin with
    currentAmount := Amounts.getZero
    status := .dormant
    amountInRange := getZero_inRange }

def refreshCoin (surroundings : Surroundings) (wallet : WalletStores) (coinPub : String) :
    Option (RefreshingCoin × WalletStores) := do
  let coin ← wallet.coins.get? coinPub
  let denom ← wallet.denominations.get? (coin.exchangeBaseUrl, coin.denomPubHash)
  guard (coin.currency = denom.currency)
  let denoms := (wallet.denominationsOf coin.exchangeBaseUrl).filter
    (isWithdrawableDenom surroundings)
  let cost ← getTotalRefreshCost surroundings denoms denom coin.currentAmount
  pure
    ({ oldCoinPub := coinPub
       currency := coin.currency
       status := .pending
       refreshSession := none
       input := coin.currentAmount
       estimatedOutput := (Amounts.sub coin.currentAmount cost).amount
       inputInRange := coin.amountInRange },
     { wallet with coins := wallet.coins.set coinPub coin.putToSleep })

def refreshCoins (surroundings : Surroundings) :
    List String → WalletStores → Option (List RefreshingCoin × WalletStores)
  | [], wallet => some ([], wallet)
  | coinPub :: rest, wallet => do
      let (refreshing, wallet) ← refreshCoin surroundings wallet coinPub
      let (more, wallet) ← refreshCoins surroundings rest wallet
      pure (refreshing :: more, wallet)

def createRefreshGroup (surroundings : Surroundings) (refreshGroupId : String)
    (oldCoinPubs : List String) (wallet : WalletStores) : Option WalletStores := do
  let (coins, wallet) ← refreshCoins surroundings oldCoinPubs wallet
  let group : RefreshGroupRecord :=
    { coins := coins
      timestampFinished := if oldCoinPubs.isEmpty then some surroundings.now else none
      frozen := false }
  pure { wallet with refreshGroups := wallet.refreshGroups.set refreshGroupId group }

def refreshYield (surroundings : Surroundings) (denoms : List DenominationRecord)
    (refreshedDenom : DenominationRecord) (amountLeft : AmountJson) : Nat :=
  match selectWithdrawalDenominations surroundings refreshedDenom.currency
      (Amounts.sub amountLeft refreshedDenom.feeRefresh).amount denoms with
  | some selection => selection.worth
  | none => 0

theorem getTotalRefreshCost_units {env : Surroundings}
    {denoms : List DenominationRecord} {refreshedDenom : DenominationRecord}
    {amountLeft cost : AmountJson} (fits : amountLeft.units < limit)
    (ran : getTotalRefreshCost env denoms refreshedDenom amountLeft = some cost) :
    cost.units + refreshYield env denoms refreshedDenom amountLeft = amountLeft.units := by
  obtain ⟨selection, selected, isCost⟩ := Option.bind_eq_some_iff.mp ran
  cases isCost
  have less : (Amounts.sub amountLeft refreshedDenom.feeRefresh).amount.units ≤
      amountLeft.units := by
    rw [Amounts.sub_units]
    exact Nat.sub_le _ _
  have bound := (selectWithdrawalDenominations_worth (Nat.lt_of_le_of_lt less fits) selected).2
  rw [Amounts.sub_units, resultingAmount_units (by omega), refreshYield, selected]
  dsimp only
  omega

structure CoinTaken (surroundings : Surroundings) (wallet : WalletStores) (coinPub : String)
    (refreshing : RefreshingCoin) (wallet' : WalletStores) : Prop where
  found : ∃ coin denom, wallet.coins.get? coinPub = some coin ∧
    wallet.denominations.get? (coin.exchangeBaseUrl, coin.denomPubHash) = some denom ∧
    coin.currency = denom.currency ∧
    refreshing.currency = coin.currency ∧
    refreshing.input = coin.currentAmount ∧
    refreshing.estimatedOutput.units = refreshYield surroundings
      ((wallet.denominationsOf coin.exchangeBaseUrl).filter (isWithdrawableDenom surroundings))
      denom coin.currentAmount ∧
    wallet' = { wallet with coins := wallet.coins.set coinPub coin.putToSleep }
  oldCoinPub : refreshing.oldCoinPub = coinPub
  pending : refreshing.status = .pending
  unstarted : refreshing.refreshSession = none

theorem refreshCoin_taken {env : Surroundings} {w wallet' : WalletStores}
    {pub : String} {refreshing : RefreshingCoin}
    (ran : refreshCoin env w pub = some (refreshing, wallet')) :
    CoinTaken env w pub refreshing wallet' := by
  obtain ⟨coin, isCoin, ran⟩ := Option.bind_eq_some_iff.mp ran
  obtain ⟨denom, isDenom, ran⟩ := Option.bind_eq_some_iff.mp ran
  obtain ⟨_, sameCurrency, ran⟩ := Option.bind_eq_some_iff.mp ran
  obtain ⟨cost, isCost, ran⟩ := Option.bind_eq_some_iff.mp ran
  cases ran
  have yield := getTotalRefreshCost_units coin.amountInRange isCost
  have cur : coin.currency = denom.currency := by
    by_contra ne
    simp [guard, ne] at sameCurrency
  constructor
  · refine ⟨coin, denom, isCoin, isDenom, cur, rfl, rfl, ?_, rfl⟩
    rw [Amounts.sub_units]
    omega
  · rfl
  · rfl
  · rfl

end Anastasis.Wallet
