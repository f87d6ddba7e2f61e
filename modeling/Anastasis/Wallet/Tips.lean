import Anastasis.Library.Transition
import Anastasis.Wallet.Planchets

/-! How a tip is prepared, accepted and picked up from the merchant. -/

set_option autoImplicit false

namespace Anastasis.Wallet.Tips

open Library Library.Transition AmountJson Planchets

structure TipUri where
  merchantTipId : String
  merchantBaseUrl : String
deriving DecidableEq

structure DenomSelectionState where
  totalCoinValue : AmountJson
  totalWithdrawCost : AmountJson
  selectedDenoms : List (Nat × String)
deriving DecidableEq

structure TipRecord where
  walletTipId : String
  merchantTipId : String
  merchantBaseUrl : String
  exchangeBaseUrl : String
  currency : String
  tipAmountRaw : AmountJson
  tipAmountEffective : AmountJson
  tipExpiration : Timestamp
  createdTimestamp : Nat
  acceptedTimestamp : Option Nat
  pickedUpTimestamp : Option Nat
  denomsSel : DenomSelectionState
  denomSelUid : String
  secretSeed : String
  retryCounter : Nat
  lastError : Option String
deriving DecidableEq

namespace TipRecord

variable (tip : TipRecord)

def uri : TipUri := ⟨tip.merchantTipId, tip.merchantBaseUrl⟩

def origin : String × String × List (Nat × String) :=
  (tip.exchangeBaseUrl, tip.secretSeed, tip.denomsSel.selectedDenoms)

def accept (now : Nat) : TipRecord := { tip with acceptedTimestamp := some now }

def resetRetry : TipRecord := { tip with retryCounter := 0 }

def incrementRetry (err : String) : TipRecord :=
  { tip with retryCounter := tip.retryCounter + 1, lastError := some err }

def fail (err : String) : TipRecord := { tip with lastError := some err }

def pickUp (now : Nat) : TipRecord :=
  { tip with pickedUpTimestamp := some now, lastError := none, retryCounter := 0 }

end TipRecord

structure TipPickupStatus where
  currency : String
  tipAmount : AmountJson
  exchangeUrl : String
  expiration : Timestamp

structure TipDraw where
  walletTipId : String
  secretSeed : String
  denomSelUid : String

structure PrepareTipResult where
  accepted : Bool
  tipAmountRaw : AmountJson
  exchangeBaseUrl : String
  merchantBaseUrl : String
  expirationTimestamp : Timestamp
  tipAmountEffective : AmountJson
  walletTipId : String

def TipRecord.result (tip : TipRecord) : PrepareTipResult where
  accepted := tip.acceptedTimestamp.isSome
  tipAmountRaw := tip.tipAmountRaw
  exchangeBaseUrl := tip.exchangeBaseUrl
  merchantBaseUrl := tip.merchantBaseUrl
  expirationTimestamp := tip.tipExpiration
  tipAmountEffective := tip.tipAmountEffective
  walletTipId := tip.walletTipId

structure TipHost where
  setupTipPlanchet : String → Nat → FreshCoin
  rsaBlind : String → String → String → String
  hash : String → String
  rsaUnblind : String → String → String → String
  rsaVerify : String → String → String → Bool

section Planchets

variable (host : TipHost)

def createTipPlanchet (secretSeed denomPub : String) (planchetIndex : Nat) : Planchet :=
  let fc := host.setupTipPlanchet secretSeed planchetIndex
  let ev := host.rsaBlind (host.hash fc.coinPub) fc.bks denomPub
  { publicKey := fc.coinPub
    privateKey := fc.coinPriv
    blindingKey := fc.bks
    coinEv := ev
    coinEvHash := host.hash ev }

/-- The planchets of one entry of the selection, which follow those before it. -/
def addPlanchets (secretSeed : String) (denom : Denomination) (count : Nat)
    (planchets : List (Planchet × Denomination)) : List (Planchet × Denomination) :=
  planchets ++ (List.range count).map fun i =>
    (createTipPlanchet host secretSeed denom.denomPub (planchets.length + i), denom)

/-- Unblinds the signatures in their order, and fails at the first one that is not valid. -/
def newCoinRecords (tip : TipRecord) :
    Nat → List String → List (Planchet × Denomination) → Option (List Coin)
  | coinIndex, blindedSig :: blindSigs, (planchet, denom) :: planchets => do
      let denomSigRsa := host.rsaUnblind blindedSig planchet.blindingKey denom.denomPub
      guard (host.rsaVerify planchet.publicKey denomSigRsa denom.denomPub)
      let coins ← newCoinRecords tip (coinIndex + 1) blindSigs planchets
      pure
        (planchet.coin denom denomSigRsa tip.exchangeBaseUrl (.tip tip.walletTipId coinIndex)
          planchet.coinEvHash :: coins)
  | _, _, _ => some []

end Planchets

structure TipPlanchetDetail where
  coinEv : String
  denomPubHash : String
deriving DecidableEq

def planchetsDetail (planchets : List (Planchet × Denomination)) : List TipPlanchetDetail :=
  planchets.map fun p => ⟨p.1.coinEv, p.2.denomPubHash⟩

inductive Point where
  | prepareTip (uri : TipUri)
  | tipStatusRequest (uri : TipUri)
  | withdrawDetails (uri : TipUri) (status : TipPickupStatus)
  | selectDenominations (uri : TipUri) (status : TipPickupStatus) (costs : AmountJson)
  | storeTip (uri : TipUri) (status : TipPickupStatus) (costs : AmountJson)
      (denomsSel : DenomSelectionState)
  | prepared (result : PrepareTipResult)
  | acceptTip (walletTipId : String)
  | resetTipRetry (walletTipId : String)
  | processTipImpl (walletTipId : String)
  | readDenoms (tip : TipRecord) (rest : List (Nat × String))
      (planchets : List (Planchet × Denomination))
  | pickupRequest (tip : TipRecord) (planchets : List (Planchet × Denomination))
  | pickupAnswer (tip : TipRecord) (planchets : List (Planchet × Denomination))
  | signatureInvalid (walletTipId : String)
  | storeCoins (walletTipId : String) (coins : List Coin)
  | incrementTipRetry (walletTipId err : String)
  | finished

/-- What comes back from outside, or the time and random values. -/
inductive Answer where
  | proceed (surroundings : Surroundings) (draw : TipDraw)
  | tipStatus (status : TipPickupStatus)
  -- the overhead and the fees of the withdrawal
  | withdrawalInfo (costs : AmountJson)
  | blindSigs (blindSigs : List String)
  | httpStatus (status : Nat)
  | failure (err : String)

/-- Tips and requests, and the coins that are stored for a tip. -/
inductive Trace where
  | created (tip : TipRecord)
  | pickup (walletTipId : String) (planchets : List TipPlanchetDetail)
  | newCoins (walletTipId : String) (coins : List Coin)

structure TipWallet where
  coins : Record String Coin
  denominations : Record (String × String) Denomination
  tips : Record String TipRecord
  calls : List Point
  log : List Trace

structure Effect where
  point : Point
  tip : Option TipRecord
  coins : List Coin
  trace : List Trace

def Effect.goto (point : Point) : Effect := ⟨point, none, [], []⟩

def Effect.put (tip : Option TipRecord) (point : Point) : Effect := ⟨point, tip, [], []⟩

def denomSelectionInfoToState (dsi : DenominationSelectionInfo) : DenomSelectionState where
  totalCoinValue := dsi.totalCoinValue
  totalWithdrawCost := dsi.totalWithdrawCost
  selectedDenoms := dsi.selectedDenoms.map fun x => (x.1, x.2.denomPubHash)

def newTip (now : Nat) (draw : TipDraw) (uri : TipUri) (status : TipPickupStatus)
    (costs : AmountJson) (denomsSel : DenomSelectionState) : TipRecord where
  walletTipId := draw.walletTipId
  merchantTipId := uri.merchantTipId
  merchantBaseUrl := uri.merchantBaseUrl
  exchangeBaseUrl := status.exchangeUrl
  currency := status.currency
  tipAmountRaw := status.tipAmount
  tipAmountEffective := (Amounts.sub status.tipAmount costs).amount
  tipExpiration := status.expiration
  createdTimestamp := now
  acceptedTimestamp := none
  pickedUpTimestamp := none
  denomsSel := denomsSel
  denomSelUid := draw.denomSelUid
  secretSeed := draw.secretSeed
  retryCounter := 0
  lastError := none

/-- Where a call goes on that has thrown; a call that processes a tip stores the error. -/
def Point.throws (err : String) : Point → Point
  | .resetTipRetry walletTipId | .processTipImpl walletTipId | .signatureInvalid walletTipId
  | .storeCoins walletTipId _ => .incrementTipRetry walletTipId err
  | .readDenoms tip _ _ | .pickupRequest tip _ | .pickupAnswer tip _ =>
    .incrementTipRetry tip.walletTipId err
  | _ => .finished

def TipRecord.isTransient (tip : TipRecord) (status : Nat) : Bool :=
  tip.retryCounter < 5 ∧ ((500 ≤ status ∧ status ≤ 599) ∨ status = 424)

def denominationsOf (denominations : Record (String × String) Denomination)
    (exchangeBaseUrl : String) : List DenominationRecord :=
  (denominations.values.filter fun d => d.exchangeBaseUrl = exchangeBaseUrl).map
    Denomination.toDenominationRecord

section Steps

variable (host : TipHost) (wallet : TipWallet)

def TipWallet.byUri (uri : TipUri) : Option TipRecord :=
  wallet.tips.values.find? fun tip => tip.uri = uri

/-- The candidates are selected from, which may fail on several currencies. -/
def selectDenominations (surroundings : Surroundings) (uri : TipUri) (status : TipPickupStatus)
    (costs : AmountJson) : Point :=
  let denoms := (denominationsOf wallet.denominations status.exchangeUrl).filter
    (isWithdrawableDenom surroundings)
  match selectWithdrawalDenominations surroundings status.currency status.tipAmount denoms with
  | none => .finished
  | some selectedDenoms => .storeTip uri status costs (denomSelectionInfoToState selectedDenoms)

def readDenom (tip : TipRecord) (count : Nat) (denomPubHash : String)
    (rest : List (Nat × String)) (planchets : List (Planchet × Denomination)) : Point :=
  match wallet.denominations.get? (tip.exchangeBaseUrl, denomPubHash) with
  | none => .incrementTipRetry tip.walletTipId "denomination should be in database"
  | some denom => .readDenoms tip rest (addPlanchets host tip.secretSeed denom count planchets)

def unblind (tip : TipRecord) (planchets : List (Planchet × Denomination))
    (blindSigs : List String) : Point :=
  if blindSigs.length ≠ planchets.length then
    .incrementTipRetry tip.walletTipId
      "number of tip responses does not match requested planchets"
  else
    match newCoinRecords host tip 0 blindSigs planchets with
    | none => .signatureInvalid tip.walletTipId
    | some coins => .storeCoins tip.walletTipId coins

def advance (point : Point) (answer : Answer) : Option Effect :=
  match answer with
  | .failure err =>
    match point with
    | .prepared _ | .finished | .incrementTipRetry _ _ => none
    | _ => some (.goto (point.throws err))
  | .tipStatus status =>
    match point with
    | .tipStatusRequest uri => some (.goto (.withdrawDetails uri status))
    | _ => none
  | .withdrawalInfo costs =>
    match point with
    | .withdrawDetails uri status => some (.goto (.selectDenominations uri status costs))
    | _ => none
  | .blindSigs blindSigs =>
    match point with
    | .pickupAnswer tip planchets => some (.goto (unblind host tip planchets blindSigs))
    | _ => none
  | .httpStatus status =>
    match point with
    | .pickupAnswer tip _ =>
      some (.goto (.incrementTipRetry tip.walletTipId
        (if tip.isTransient status then "tip pickup failed (transient)"
        else "unexpected request error")))
    | _ => none
  | .proceed surroundings draw =>
    match point with
    | .prepareTip uri =>
      some (.goto ((wallet.byUri uri).elim (.tipStatusRequest uri) fun tip =>
        .prepared tip.result))
    | .selectDenominations uri status costs =>
      some (.goto (selectDenominations wallet surroundings uri status costs))
    | .storeTip uri status costs denomsSel =>
      let tip := newTip surroundings.now draw uri status costs denomsSel
      some ⟨.prepared tip.result, some tip, [], [.created tip]⟩
    | .acceptTip walletTipId =>
      match wallet.tips.get? walletTipId with
      | none => some (.goto .finished)
      | some tip =>
        some (.put (some (tip.accept surroundings.now)) (.processTipImpl walletTipId))
    | .resetTipRetry walletTipId =>
      some (.put ((wallet.tips.get? walletTipId).map TipRecord.resetRetry)
        (.processTipImpl walletTipId))
    | .processTipImpl walletTipId =>
      match wallet.tips.get? walletTipId with
      | none => some (.goto .finished)
      | some tip =>
        if tip.pickedUpTimestamp.isSome then some (.goto .finished)
        else some (.goto (.readDenoms tip tip.denomsSel.selectedDenoms []))
    | .readDenoms tip [] planchets => some (.goto (.pickupRequest tip planchets))
    | .readDenoms tip ((count, denomPubHash) :: rest) planchets =>
      some (.goto (readDenom host wallet tip count denomPubHash rest planchets))
    | .pickupRequest tip planchets =>
      some
        ⟨.pickupAnswer tip planchets, none, [],
          [.pickup tip.walletTipId (planchetsDetail planchets)]⟩
    | .signatureInvalid walletTipId =>
      some (.put ((wallet.tips.get? walletTipId).map fun tip => tip.fail "invalid signature")
        .finished)
    | .storeCoins walletTipId coins =>
      match wallet.tips.get? walletTipId with
      | none => some (.goto .finished)
      | some tr =>
        if tr.pickedUpTimestamp.isSome then some (.goto .finished)
        else
          some
            ⟨.finished, some (tr.pickUp surroundings.now), coins,
              [.newCoins walletTipId coins]⟩
    | .incrementTipRetry walletTipId err =>
      some (.put ((wallet.tips.get? walletTipId).map fun tip => tip.incrementRetry err) .finished)
    | _ => none

end Steps

/-- What goes on in the wallet; other operations put coins and denominations. -/
inductive TipEvent where
  | prepareTip (uri : TipUri)
  | acceptTip (walletTipId : String)
  | processTip (walletTipId : String) (forceNow : Bool)
  | call (index : Nat) (answer : Answer)
  | deleteTip (walletTipId : String)
  | putCoin (coin : Coin)
  | putDenomination (denom : Denomination)
  | restarted

namespace TipWallet

def start : TipWallet where
  coins := .empty
  denominations := .empty
  tips := .empty
  calls := []
  log := []

variable (wallet : TipWallet)

def begin (point : Point) : TipWallet := { wallet with calls := wallet.calls ++ [point] }

def putCoins (coins : List Coin) (stored : Record String Coin) : Record String Coin :=
  coins.foldl (fun stored coin => stored.set coin.coinPub coin) stored

def apply (index : Nat) (effect : Effect) : TipWallet :=
  { wallet with
    coins := putCoins effect.coins wallet.coins
    tips := effect.tip.elim wallet.tips fun tip => wallet.tips.set tip.walletTipId tip
    calls := wallet.calls.set index effect.point
    log := wallet.log ++ effect.trace }

def perform (host : TipHost) : TipEvent → Option TipWallet
  | .prepareTip uri => some (wallet.begin (.prepareTip uri))
  | .acceptTip walletTipId => some (wallet.begin (.acceptTip walletTipId))
  | .processTip walletTipId forceNow =>
    some (wallet.begin
      (if forceNow then .resetTipRetry walletTipId else .processTipImpl walletTipId))
  | .call index answer => do
      let point ← wallet.calls[index]?
      let effect ← advance host wallet point answer
      pure (wallet.apply index effect)
  | .deleteTip walletTipId => some { wallet with tips := wallet.tips.erase walletTipId }
  | .putCoin coin => some { wallet with coins := wallet.coins.set coin.coinPub coin }
  | .putDenomination denom =>
    some { wallet with denominations := wallet.denominations.set denom.key denom }
  | .restarted => some { wallet with calls := [] }

end TipWallet

def Trace.creates (walletTipId : String) : Trace → Bool
  | .created tip => tip.walletTipId = walletTipId
  | _ => false

/-- Random identifiers are new, and a denomination is found under the hash of its key. -/
def TipStep (host : TipHost) (wallet : TipWallet) (event : TipEvent) (next : TipWallet) : Prop :=
  wallet.perform host event = some next ∧
    match event with
    | .call _ (.proceed _ draw) =>
      wallet.log.any (Trace.creates draw.walletTipId) = false
    | .putDenomination denom =>
      ∀ old, wallet.denominations.get? denom.key = some old → old.denomPub = denom.denomPub
    | _ => True

end Anastasis.Wallet.Tips
