import Anastasis.Wallet.BalanceRuns
import Anastasis.Wallet.Payments

/-! The transactions that spend coins and those that put value back on them. -/

set_option autoImplicit false

namespace Anastasis.Wallet

open Library AmountJson

inductive AbortStatus where
  | none
  | abortRefund
  | abortFinished
deriving DecidableEq

inductive RefundState where
  | failed
  | applied
  | pending
deriving DecidableEq

structure WalletRefundItem where
  type : RefundState
  refundAmount : AmountJson
  refundFee : AmountJson
  totalRefreshCostBound : AmountJson
  coinPub : String
  rtransactionId : Nat

structure PurchaseRecord where
  payCoinSelection : PayCoinSelection
  currency : String
  abortStatus : AbortStatus
  refunds : Record String WalletRefundItem

structure RecoupingCoin where
  coinPub : String
  recoupFinished : Bool
  oldAmount : Option AmountJson

structure RecoupGroupRecord where
  coins : List RecoupingCoin
  scheduleRefreshCoins : List String
  timestampFinished : Option Nat

/-- The wallet with its payments, and a record of what was put back on its coins. Purchases and
deposit groups are found under the identifiers of their allocations. -/
structure PaymentStores where
  wallet : WalletStores
  payments : Record String PurchaseRecord
  recoupGroups : Record String RecoupGroupRecord
  credits : List (String × AmountJson)

section Payments

variable (surroundings : Surroundings)

def recordConfirmPay (currency allocationId refreshGroupId : String)
    (coinSelection : PayCoinSelection) (db : PaymentStores) : Option PaymentStores := do
  let payment : PurchaseRecord :=
    { payCoinSelection := coinSelection
      currency := currency
      abortStatus := .none
      refunds := .empty }
  let wallet ← applyCoinSpend surroundings currency allocationId refreshGroupId coinSelection
    db.wallet
  pure { db with wallet := wallet, payments := db.payments.set allocationId payment }

def reselectCoins (allocationId refreshGroupId : String) (res : PayCoinSelection)
    (db : PaymentStores) : Option PaymentStores :=
  match db.payments.get? allocationId with
  | none => some db
  | some p => do
      let wallet ← applyCoinSpend surroundings p.currency allocationId refreshGroupId res db.wallet
      pure
        { db with
          wallet := wallet
          payments := db.payments.set allocationId { p with payCoinSelection := res } }

def abortFailedPayWithRefund (allocationId : String) (db : PaymentStores) :
    Option PaymentStores := do
  let purchase ← db.payments.get? allocationId
  if purchase.abortStatus ≠ .none then pure db
  else
    pure
      { db with
        payments := db.payments.set allocationId { purchase with abortStatus := .abortRefund } }

end Payments

structure MerchantCoinRefundStatus where
  coinPub : String
  rtransactionId : Nat
  refundCurrency : String
  refundAmount : AmountJson
  -- status and error code of the exchange
  failure : Option (Nat × Option Nat)

namespace MerchantCoinRefundStatus

def getRefundKey (d : MerchantCoinRefundStatus) : String :=
  d.coinPub ++ "-" ++ toString d.rtransactionId

def isPermanentFailure (d : MerchantCoinRefundStatus) : Bool :=
  match d.failure with
  | none => false
  | some (exchangeStatus, _) => 400 ≤ exchangeStatus && exchangeStatus < 500

end MerchantCoinRefundStatus

def exchangeRefundDepositNotFound : Nat := 1502

structure RefundProgress where
  purchase : PurchaseRecord
  refreshCoins : List String
  db : PaymentStores

theorem add_one_inRange {x y : AmountJson} (fits : x.units < limit) :
    (Amounts.add x [y]).amount.units < limit := by
  rw [Amounts.add_saturates fits]
  have positive : 0 < limit := Nat.mul_pos (Nat.succ_pos _) base_pos
  exact Nat.lt_of_le_of_lt (Nat.min_le_right _ _) (by omega)

def CoinRecord.credit (coin : CoinRecord) (amount fee : AmountJson) : CoinRecord :=
  { coin with
    currentAmount := (Amounts.sub (Amounts.add coin.currentAmount [amount]).amount fee).amount
    amountInRange := by
      rw [Amounts.sub_units]
      exact Nat.lt_of_le_of_lt (Nat.sub_le _ _) (add_one_inRange coin.amountInRange) }

def CoinRecord.asleep (coin : CoinRecord) : CoinRecord := { coin with status := .dormant }

def CoinRecord.withoutAmount (coin : CoinRecord) : CoinRecord :=
  { coin with currentAmount := Amounts.getZero, amountInRange := getZero_inRange }

namespace PaymentStores

def putCoin (db : PaymentStores) (coinPub : String) (coin : CoinRecord) : PaymentStores :=
  { db with wallet := { db.wallet with coins := db.wallet.coins.set coinPub coin } }

def addCredit (db : PaymentStores) (coinPub : String) (amount : AmountJson) : PaymentStores :=
  { db with credits := db.credits ++ [(coinPub, amount)] }

def coinWithDenom (db : PaymentStores) (coinPub : String) :
    Option (CoinRecord × DenominationRecord) := do
  let coin ← db.wallet.coins.get? coinPub
  let denom ← db.wallet.denominations.get? (coin.exchangeBaseUrl, coin.denomPubHash)
  guard (coin.currency = denom.currency)
  pure (coin, denom)

end PaymentStores

namespace RefundProgress

variable (surroundings : Surroundings)

def willRefresh (progress : RefundProgress) (coinPub : String) : RefundProgress :=
  if coinPub ∈ progress.refreshCoins then progress
  else { progress with refreshCoins := progress.refreshCoins ++ [coinPub] }

def putRefund (progress : RefundProgress) (refundKey : String) (item : WalletRefundItem) :
    RefundProgress :=
  { progress with
    purchase := { progress.purchase with
      refunds := progress.purchase.refunds.set refundKey item } }

/-- The record of a refund, with a bound for the cost of refreshing what it leaves. -/
def refundItem (progress : RefundProgress) (type : RefundState) (coin : CoinRecord)
    (denom : DenominationRecord) (r : MerchantCoinRefundStatus) : Option WalletRefundItem := do
  let allDenoms := progress.db.wallet.denominationsOf coin.exchangeBaseUrl
  let amountLeft := (Amounts.sub (Amounts.add coin.currentAmount [r.refundAmount]).amount
    denom.feeRefund).amount
  let totalRefreshCostBound ← getTotalRefreshCost surroundings allDenoms denom amountLeft
  pure
    { type := type
      refundAmount := r.refundAmount
      refundFee := denom.feeRefund
      totalRefreshCostBound := totalRefreshCostBound
      coinPub := r.coinPub
      rtransactionId := r.rtransactionId }

def applySuccessfulRefund (r : MerchantCoinRefundStatus) (progress : RefundProgress) :
    Option RefundProgress :=
  if (progress.db.wallet.coins.get? r.coinPub).isNone then some progress
  else do
    let (coin, denom) ← progress.db.coinWithDenom r.coinPub
    guard (r.refundCurrency = coin.currency)
    let coin := (coin.credit r.refundAmount denom.feeRefund).asleep
    let item ← progress.refundItem surroundings .applied coin denom r
    pure
      { (progress.willRefresh r.coinPub).putRefund r.getRefundKey item with
        db := (progress.db.putCoin r.coinPub coin).addCredit r.coinPub r.refundAmount }

def storePendingRefund (r : MerchantCoinRefundStatus) (progress : RefundProgress) :
    Option RefundProgress :=
  if (progress.db.wallet.coins.get? r.coinPub).isNone then some progress
  else do
    let (coin, denom) ← progress.db.coinWithDenom r.coinPub
    guard (r.refundCurrency = coin.currency)
    let item ← progress.refundItem surroundings .pending coin denom r
    pure (progress.putRefund r.getRefundKey item)

end RefundProgress

def PayCoinSelection.contributionOf (selection : PayCoinSelection) (coinPub : String) :
    Option AmountJson :=
  ((selection.coinPubs.zip selection.coinContributions).reverse.find? fun x =>
    x.1 = coinPub).map Prod.snd

namespace RefundProgress

variable (surroundings : Surroundings)

/-- When the merchant never deposited the coin of an aborted payment, its contribution is put
back. -/
def storeFailedRefund (r : MerchantCoinRefundStatus) (exchangeCode : Option Nat)
    (progress : RefundProgress) : Option RefundProgress :=
  if (progress.db.wallet.coins.get? r.coinPub).isNone then some progress
  else do
    let (coin, denom) ← progress.db.coinWithDenom r.coinPub
    guard (r.refundCurrency = coin.currency)
    let item ← progress.refundItem surroundings .failed coin denom r
    let progress := progress.putRefund r.getRefundKey item
    if progress.purchase.abortStatus = .abortRefund ∧
        exchangeCode = some exchangeRefundDepositNotFound then
      match progress.purchase.payCoinSelection.contributionOf r.coinPub with
      | none => pure (progress.willRefresh r.coinPub)
      | some contrib => do
          guard (progress.purchase.currency = coin.currency)
          pure
            { progress.willRefresh r.coinPub with
              db := (progress.db.putCoin r.coinPub
                (coin.credit contrib denom.feeRefund)).addCredit r.coinPub contrib }
    else pure progress

def acceptRefund (progress : RefundProgress) (refundStatus : MerchantCoinRefundStatus) :
    Option RefundProgress :=
  let existing := (progress.purchase.refunds.get? refundStatus.getRefundKey).map
    WalletRefundItem.type
  if existing = some .failed || existing = some .applied then some progress
  else
    match refundStatus.failure with
    | none => progress.applySuccessfulRefund surroundings refundStatus
    | some (_, exchangeCode) =>
      if refundStatus.isPermanentFailure then
        progress.storeFailedRefund surroundings refundStatus exchangeCode
      else if existing = some .pending then some progress
      else progress.storePendingRefund surroundings refundStatus

def acceptEach : List MerchantCoinRefundStatus → RefundProgress → Option RefundProgress
  | [], progress => some progress
  | refundStatus :: rest, progress => do
      let progress ← progress.acceptRefund surroundings refundStatus
      acceptEach rest progress

end RefundProgress

def PaymentStores.createRefreshGroup (surroundings : Surroundings) (refreshGroupId : String)
    (oldCoinPubs : List String) (db : PaymentStores) : Option PaymentStores := do
  let wallet ← Wallet.createRefreshGroup surroundings refreshGroupId oldCoinPubs db.wallet
  pure { db with wallet := wallet }

def PaymentStores.refreshAny (surroundings : Surroundings) (refreshGroupId : String)
    (oldCoinPubs : List String) (db : PaymentStores) : Option PaymentStores :=
  if oldCoinPubs.isEmpty then some db
  else db.createRefreshGroup surroundings refreshGroupId oldCoinPubs

/-- A query for refunds is done when none is pending and no automatic one is expected. -/
def PurchaseRecord.afterRefundQuery (p : PurchaseRecord) (autoRefundExpected : Bool) :
    PurchaseRecord :=
  let numPendingRefunds := (p.refunds.values.filter fun ri => ri.type = .pending).length
  let queryDone := !autoRefundExpected && numPendingRefunds = 0
  if queryDone && p.abortStatus = .abortRefund then { p with abortStatus := .abortFinished }
  else p

def acceptRefunds (surroundings : Surroundings) (allocationId refreshGroupId : String)
    (autoRefundExpected : Bool) (refunds : List MerchantCoinRefundStatus) (db : PaymentStores) :
    Option PaymentStores :=
  match db.payments.get? allocationId with
  | none => some db
  | some p => do
      let progress ← RefundProgress.acceptEach surroundings refunds ⟨p, [], db⟩
      let db ← progress.db.refreshAny surroundings refreshGroupId progress.refreshCoins
      pure
        { db with
          payments := db.payments.set allocationId
            (progress.purchase.afterRefundQuery autoRefundExpected) }

namespace RecoupGroupRecord

def setFinished (group : RecoupGroupRecord) (coinIdx : Nat) : RecoupGroupRecord :=
  { group with
    coins := group.coins.modify coinIdx fun coin => { coin with recoupFinished := true } }

def allFinished (group : RecoupGroupRecord) : Bool :=
  group.coins.all RecoupingCoin.recoupFinished

end RecoupGroupRecord

section Recoups

variable (surroundings : Surroundings)

def PaymentStores.putRecoupGroup (db : PaymentStores) (recoupGroupId : String)
    (group : RecoupGroupRecord) : PaymentStores :=
  { db with recoupGroups := db.recoupGroups.set recoupGroupId group }

/-- With the last coin of the group, the coins that got something back are refreshed. -/
def putGroupAsFinished (recoupGroupId refreshGroupId : String) (recoupGroup : RecoupGroupRecord)
    (coinIdx : Nat) (db : PaymentStores) : Option (RecoupGroupRecord × PaymentStores) :=
  if recoupGroup.timestampFinished.isSome then some (recoupGroup, db)
  else do
    let recoupGroup := recoupGroup.setFinished coinIdx
    if recoupGroup.allFinished then
      let recoupGroup := { recoupGroup with timestampFinished := some surroundings.now }
      let db ← db.refreshAny surroundings refreshGroupId recoupGroup.scheduleRefreshCoins
      pure (recoupGroup, db.putRecoupGroup recoupGroupId recoupGroup)
    else pure (recoupGroup, db.putRecoupGroup recoupGroupId recoupGroup)

def RecoupGroupRecord.setOldAmount (group : RecoupGroupRecord) (coinIdx : Nat)
    (amount : AmountJson) : RecoupGroupRecord :=
  { group with
    coins := group.coins.modify coinIdx fun coin => { coin with oldAmount := some amount } }

/-- Takes what is left on the revoked coins; their status stays as it is. -/
def recoupCoins (recoupGroupId refreshGroupId : String) :
    Nat → List String → RecoupGroupRecord → PaymentStores →
      Option (RecoupGroupRecord × PaymentStores)
  | _, [], group, db => some (group, db)
  | coinIdx, coinPub :: rest, group, db =>
    match db.wallet.coins.get? coinPub with
    | none => do
        let (group, db) ← putGroupAsFinished surroundings recoupGroupId refreshGroupId group
          coinIdx db
        recoupCoins recoupGroupId refreshGroupId (coinIdx + 1) rest group db
    | some coin =>
      if Amounts.isZero coin.currentAmount then do
        let (group, db) ← putGroupAsFinished surroundings recoupGroupId refreshGroupId group
          coinIdx db
        recoupCoins recoupGroupId refreshGroupId (coinIdx + 1) rest group db
      else
        recoupCoins recoupGroupId refreshGroupId (coinIdx + 1) rest
          (group.setOldAmount coinIdx coin.currentAmount)
          (db.putCoin coinPub coin.withoutAmount)

def createRecoupGroup (recoupGroupId refreshGroupId : String) (coinPubs : List String)
    (db : PaymentStores) : Option PaymentStores := do
  let group : RecoupGroupRecord :=
    { coins := coinPubs.map fun coinPub => ⟨coinPub, false, none⟩
      scheduleRefreshCoins := []
      timestampFinished := none }
  let (group, db) ← recoupCoins surroundings recoupGroupId refreshGroupId 0 coinPubs group db
  pure (db.putRecoupGroup recoupGroupId group)

def PaymentStores.recouping (db : PaymentStores) (recoupGroupId : String) (coinIdx : Nat) :
    Option (RecoupGroupRecord × RecoupingCoin) := do
  let group ← db.recoupGroups.get? recoupGroupId
  let coin ← group.coins[coinIdx]?
  if coin.recoupFinished then none else pure (group, coin)

def recoupTipCoin (recoupGroupId refreshGroupId : String) (coinIdx : Nat) (db : PaymentStores) :
    Option PaymentStores :=
  match db.recouping recoupGroupId coinIdx with
  | none => some db
  | some (group, _) => do
      let (_, db) ← putGroupAsFinished surroundings recoupGroupId refreshGroupId group coinIdx db
      pure db

def recoupWithdrawCoin (recoupGroupId refreshGroupId reservePub : String) (coinIdx : Nat)
    (db : PaymentStores) : Option PaymentStores :=
  match db.recouping recoupGroupId coinIdx with
  | none => some db
  | some (group, recouping) =>
    match db.wallet.coins.get? recouping.coinPub, db.wallet.reserves.get? reservePub with
    | some coin, some _ => do
        let (_, db) ← putGroupAsFinished surroundings recoupGroupId refreshGroupId group coinIdx
          (db.putCoin recouping.coinPub coin.asleep.withoutAmount)
        pure db
    | _, _ => some db

/-- The exchange has put the value of the coin back on the coin it was refreshed from. -/
def recoupRefreshCoin (recoupGroupId refreshGroupId oldCoinPub : String) (coinIdx : Nat)
    (db : PaymentStores) : Option PaymentStores :=
  match db.recouping recoupGroupId coinIdx with
  | none => some db
  | some (group, recouping) =>
    match db.wallet.coins.get? oldCoinPub, db.wallet.coins.get? recouping.coinPub with
    | some oldCoin, some revokedCoin => do
        let oldAmount ← recouping.oldAmount
        guard (oldCoin.currency = revokedCoin.currency)
        let db := (((db.putCoin recouping.coinPub revokedCoin.asleep).putCoin oldCoinPub
          (oldCoin.credit oldAmount Amounts.getZero))).addCredit oldCoinPub oldAmount
        let (_, db) ← putGroupAsFinished surroundings recoupGroupId refreshGroupId
          { group with scheduleRefreshCoins := group.scheduleRefreshCoins ++ [oldCoinPub] }
          coinIdx db
        pure db
    | _, _ => some db

end Recoups

end Anastasis.Wallet
