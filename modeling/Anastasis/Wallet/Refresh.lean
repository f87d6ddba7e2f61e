import Anastasis.Wallet.Balance

/-! The transactions by which the coins of a refresh group are refreshed, one by one. -/

set_option autoImplicit false

namespace Anastasis.Wallet

open Library AmountJson

def RefreshCoinStatus.isDone (status : RefreshCoinStatus) : Bool :=
  status = .finished || status = .frozen

namespace RefreshGroupRecord

def updateGroupStatus (now : Nat) (rg : RefreshGroupRecord) : RefreshGroupRecord :=
  let allDone := rg.coins.all fun x => x.status.isDone
  let anyFrozen := rg.coins.any fun x => x.status = .frozen
  if allDone then
    if anyFrozen then { rg with frozen := true }
    else { rg with timestampFinished := some now }
  else rg

def changeCoin (rg : RefreshGroupRecord) (coinIndex : Nat)
    (change : RefreshingCoin → RefreshingCoin) : RefreshGroupRecord :=
  { rg with coins := rg.coins.modify coinIndex change }

def setStatus (rg : RefreshGroupRecord) (coinIndex : Nat) (status : RefreshCoinStatus) :
    RefreshGroupRecord :=
  rg.changeCoin coinIndex fun coin => { coin with status := status }

def setSession (rg : RefreshGroupRecord) (coinIndex : Nat) (session : RefreshSessionRecord) :
    RefreshGroupRecord :=
  rg.changeCoin coinIndex fun coin => { coin with refreshSession := some session }

end RefreshGroupRecord

def WalletStores.putGroup (wallet : WalletStores) (refreshGroupId : String)
    (rg : RefreshGroupRecord) : WalletStores :=
  { wallet with refreshGroups := wallet.refreshGroups.set refreshGroupId rg }

def WalletStores.refreshing (wallet : WalletStores) (refreshGroupId : String) (coinIndex : Nat) :
    Option (RefreshGroupRecord × RefreshingCoin) := do
  let rg ← wallet.refreshGroups.get? refreshGroupId
  let coin ← rg.coins[coinIndex]?
  pure (rg, coin)

def newSession (selection : DenominationSelectionInfo) : RefreshSessionRecord where
  newDenoms := selection.selectedDenoms.map fun x => (x.1, x.2.denomPubHash)
  amountRefreshOutput := selection.totalCoinValue
  norevealIndex := none

/-- Chooses the new coins for one coin. When the amount is too small for any, the coin is
finished without a session. -/
def refreshCreateSession (surroundings : Surroundings) (refreshGroupId : String)
    (coinIndex : Nat) (wallet : WalletStores) : Option WalletStores := do
  let (rg, refreshing) ← wallet.refreshing refreshGroupId coinIndex
  if refreshing.status = .finished || refreshing.refreshSession.isSome then pure wallet
  else
    let coin ← wallet.coins.get? refreshing.oldCoinPub
    let oldDenom ← wallet.denominations.get? (coin.exchangeBaseUrl, coin.denomPubHash)
    guard (oldDenom.currency = refreshing.currency)
    let availableAmount := (Amounts.sub refreshing.input oldDenom.feeRefresh).amount
    let newCoinDenoms ← selectWithdrawalDenominations surroundings refreshing.currency
      availableAmount (wallet.denominationsOf coin.exchangeBaseUrl)
    if newCoinDenoms.selectedDenoms.isEmpty then
      pure (wallet.putGroup refreshGroupId
        ((rg.setStatus coinIndex .finished).updateGroupStatus surroundings.now))
    else pure (wallet.putGroup refreshGroupId (rg.setSession coinIndex (newSession newCoinDenoms)))

def freezeCoin (now : Nat) (refreshGroupId : String) (coinIndex : Nat) (wallet : WalletStores) :
    Option WalletStores := do
  let (rg, refreshing) ← wallet.refreshing refreshGroupId coinIndex
  if rg.timestampFinished.isSome || refreshing.status ≠ .pending then pure wallet
  else pure (wallet.putGroup refreshGroupId
    ((rg.setStatus coinIndex .frozen).updateGroupStatus now))

def storeNorevealIndex (norevealIndex : Nat) (refreshGroupId : String) (coinIndex : Nat)
    (wallet : WalletStores) : Option WalletStores := do
  let (rg, refreshing) ← wallet.refreshing refreshGroupId coinIndex
  match refreshing.refreshSession with
  | none => pure wallet
  | some rs =>
    if rg.timestampFinished.isSome || rs.norevealIndex.isSome then pure wallet
    else pure (wallet.putGroup refreshGroupId
      (rg.setSession coinIndex { rs with norevealIndex := some norevealIndex }))

/-- The denominations of the new coins, one for each coin; unknown ones are left out. -/
def revealedDenoms (wallet : WalletStores) (exchangeBaseUrl : String)
    (newDenoms : List (Nat × String)) : List DenominationRecord :=
  (newDenoms.flatMap fun d => List.replicate d.1 d.2).filterMap fun denomPubHash =>
    wallet.denominations.get? (exchangeBaseUrl, denomPubHash)

def newCoin (exchangeBaseUrl coinPub : String) (denom : DenominationRecord) : CoinRecord where
  coinPub := coinPub
  exchangeBaseUrl := exchangeBaseUrl
  denomPubHash := denom.denomPubHash
  currency := denom.currency
  currentAmount := denom.value
  status := .fresh
  suspended := false
  allocation := none
  amountInRange := denom.valueInRange

/-- Puts coins with the public keys of the planchets from the given one on. -/
def putCoins (exchangeBaseUrl : String) (coinPubs : Nat → String) :
    Nat → List DenominationRecord → Record String CoinRecord → Record String CoinRecord
  | _, [], coins => coins
  | index, denom :: rest, coins =>
    putCoins exchangeBaseUrl coinPubs (index + 1) rest
      (coins.set (coinPubs index) (newCoin exchangeBaseUrl (coinPubs index) denom))

/-- The last transaction of a refresh: the coin is finished and the new coins are stored. -/
def refreshReveal (now : Nat) (coinPubs : Nat → String) (refreshGroupId : String)
    (coinIndex : Nat) (wallet : WalletStores) : Option WalletStores := do
  let (rg, refreshing) ← wallet.refreshing refreshGroupId coinIndex
  let rs ← refreshing.refreshSession
  let oldCoin ← wallet.coins.get? refreshing.oldCoinPub
  let denoms := revealedDenoms wallet oldCoin.exchangeBaseUrl rs.newDenoms
  pure
    { wallet with
      coins := putCoins oldCoin.exchangeBaseUrl coinPubs 0 denoms wallet.coins
      refreshGroups := wallet.refreshGroups.set refreshGroupId
        ((rg.setStatus coinIndex .finished).updateGroupStatus now) }

def withdrawnCoin (group : WithdrawalGroupRecord) (coinPub : String) (planchet : PlanchetRecord) :
    CoinRecord where
  coinPub := coinPub
  exchangeBaseUrl := group.exchangeBaseUrl
  denomPubHash := planchet.denomPubHash
  currency := group.currency
  currentAmount := planchet.coinValue
  status := .fresh
  suspended := false
  allocation := none
  amountInRange := planchet.valueInRange

/-- The last transaction for a withdrawn coin; adding a coin that exists fails. -/
def storeWithdrawnCoin (planchetCoinPub : String) (wallet : WalletStores) :
    Option WalletStores := do
  let p ← wallet.planchets.get? planchetCoinPub
  let group ← wallet.withdrawalGroups.get? p.withdrawalGroupId
  if p.withdrawalDone then pure wallet
  else
    guard (wallet.coins.get? planchetCoinPub).isNone
    let coin := withdrawnCoin group planchetCoinPub p
    pure
      { wallet with
        planchets := wallet.planchets.set planchetCoinPub { p with withdrawalDone := true }
        coins := wallet.coins.set planchetCoinPub coin }

def WithdrawalGroupRecord.numTotalCoins (group : WithdrawalGroupRecord) : Nat :=
  (group.selectedDenoms.map Prod.fst).sum

def finishWithdrawalGroup (now : Nat) (withdrawalGroupId : String) (wallet : WalletStores) :
    Option WalletStores := do
  let wg ← wallet.withdrawalGroups.get? withdrawalGroupId
  let numFinished := wallet.planchets.values.countP fun p =>
    p.withdrawalGroupId = withdrawalGroupId && p.withdrawalDone
  if wg.timestampFinish = none ∧ numFinished = wg.numTotalCoins then
    let finished := { wg with timestampFinish := some now }
    pure
      { wallet with
        withdrawalGroups := wallet.withdrawalGroups.set withdrawalGroupId finished }
  else pure wallet

end Anastasis.Wallet
