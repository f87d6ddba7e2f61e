import Anastasis.Library.Transition
import Anastasis.Wallet.Planchets
import Anastasis.Wallet.Refresh

/-! The sessions by which the coins of refresh groups are melted and revealed. -/

set_option autoImplicit false

namespace Anastasis.Wallet.Refreshing

open Library Library.Transition AmountJson Planchets

structure RefreshSession where
  sessionSecretSeed : String
  newDenoms : List (Nat × String)
  amountRefreshOutput : AmountJson
  norevealIndex : Option Nat
deriving DecidableEq

structure RefreshCoin where
  oldCoinPub : String
  currency : String
  input : AmountJson
  estimatedOutput : AmountJson
  status : RefreshCoinStatus
  refreshSession : Option RefreshSession
  lastError : Option String
deriving DecidableEq

structure RefreshGroup where
  coins : List RefreshCoin
  timestampFinished : Option Nat
  frozen : Bool
  retryCounter : Nat
  lastError : Option String
deriving DecidableEq

namespace RefreshGroup

variable (now coinIndex : Nat) (rg : RefreshGroup)

def updateGroupStatus : RefreshGroup :=
  let allDone := rg.coins.all fun x => x.status.isDone
  let anyFrozen := rg.coins.any fun x => x.status = .frozen
  if allDone then
    if anyFrozen then { rg with frozen := true, retryCounter := 0 }
    else { rg with timestampFinished := some now, retryCounter := 0 }
  else rg

def changeCoin (change : RefreshCoin → RefreshCoin) : RefreshGroup :=
  { rg with coins := rg.coins.modify coinIndex change }

def session : Option RefreshSession :=
  rg.coins[coinIndex]?.bind RefreshCoin.refreshSession

def finishCoin : RefreshGroup :=
  (rg.changeCoin coinIndex fun coin => { coin with status := .finished }).updateGroupStatus now

def storeSession (session : RefreshSession) : Option RefreshGroup :=
  if (rg.session coinIndex).isSome then none
  else some (rg.changeCoin coinIndex fun coin => { coin with refreshSession := some session })

def freezeCoin (err : String) : Option RefreshGroup :=
  if rg.timestampFinished.isSome then none
  else if rg.coins[coinIndex]?.map RefreshCoin.status ≠ some .pending then none
  else
    some ((rg.changeCoin coinIndex fun coin =>
      { coin with status := .frozen, lastError := some err }).updateGroupStatus now)

def storeNorevealIndex (norevealIndex : Nat) : Option RefreshGroup :=
  if rg.timestampFinished.isSome then none
  else
    match rg.session coinIndex with
    | none => none
    | some rs =>
      if rs.norevealIndex.isSome then none
      else
        some (rg.changeCoin coinIndex fun coin =>
          { coin with refreshSession := some { rs with norevealIndex := some norevealIndex } })

def resetRetry : RefreshGroup := { rg with retryCounter := 0 }

def incrementRetry (err : String) : RefreshGroup :=
  { rg with retryCounter := rg.retryCounter + 1, lastError := some err }

end RefreshGroup

structure RefreshHost where
  setupRefreshTransferPub : String → Nat → String × String
  keyExchange : String → String → String
  setupRefreshPlanchet : String → Nat → FreshCoin
  rsaBlind : String → String → String → String
  hash : String → String
  sessionHash : List String → List String → String → AmountJson → List String → String
  signMelt : String → String → String → AmountJson → AmountJson → String → String
  signCoinLink : String → String → String → String → String → String
  rsaUnblind : String → String → String → String

structure SessionRead where
  oldCoin : Coin
  oldDenom : Denomination
  newCoinDenoms : List (Nat × Denomination)
  session : RefreshSession

structure DerivedRefreshSession where
  confirmSig : String
  hash : String
  meltValueWithFee : AmountJson
  transferPrivs : List String
  transferPubs : List String
  planchetsForGammas : List (List Planchet)

section Derivation

variable (host : RefreshHost)

def refreshPlanchet (transferSecret : String) (coinIndex : Nat) (denom : Denomination) :
    Planchet :=
  let fresh := host.setupRefreshPlanchet transferSecret coinIndex
  let ev := host.rsaBlind (host.hash fresh.coinPub) fresh.bks denom.denomPub
  { publicKey := fresh.coinPub
    privateKey := fresh.coinPriv
    blindingKey := fresh.bks
    coinEv := ev
    coinEvHash := host.hash ev }

/-- The planchets of one transfer key, numbered over all the new coins. -/
def planchetsForGamma (meltCoinPub transferPriv : String)
    (newCoinDenoms : List (Nat × Denomination)) : List Planchet :=
  (units newCoinDenoms).mapIdx
    (refreshPlanchet host (host.keyExchange transferPriv meltCoinPub))

def meltValueWithFee (newCoinDenoms : List (Nat × Denomination)) (meltFee : AmountJson) :
    AmountJson :=
  let value := newCoinDenoms.foldl (fun valueWithFee ncd =>
    let t := (Amounts.add ncd.2.value [ncd.2.feeWithdraw]).amount
    (Amounts.add valueWithFee [(Amounts.mult t ncd.1).amount]).amount) Amounts.getZero
  (Amounts.add value [meltFee]).amount

/-- There are three transfer keys. Amounts of several currencies cannot be added. -/
def SessionRead.derive (d : SessionRead) : Option DerivedRefreshSession := do
  let first ← d.newCoinDenoms.head?
  guard (d.oldDenom.currency = first.2.currency ∧
    ∀ ncd ∈ d.newCoinDenoms, ncd.2.currency = first.2.currency)
  let transferKeys := (List.range 3).map
    (host.setupRefreshTransferPub d.session.sessionSecretSeed)
  let valueWithFee := meltValueWithFee d.newCoinDenoms d.oldDenom.feeRefresh
  let planchetsForGammas := transferKeys.map fun keys =>
    planchetsForGamma host d.oldCoin.coinPub keys.1 d.newCoinDenoms
  let sessionHash := host.sessionHash (transferKeys.map Prod.snd)
    ((units d.newCoinDenoms).map Denomination.denomPub) d.oldCoin.coinPub valueWithFee
    (planchetsForGammas.flatten.map Planchet.coinEv)
  pure
    { confirmSig := host.signMelt d.oldCoin.coinPriv sessionHash d.oldCoin.denomPubHash
        valueWithFee d.oldDenom.feeRefresh d.oldCoin.coinPub
      hash := sessionHash
      meltValueWithFee := valueWithFee
      transferPrivs := transferKeys.map Prod.fst
      transferPubs := transferKeys.map Prod.snd
      planchetsForGammas := planchetsForGammas }

end Derivation

structure MeltRequest where
  coinPub : String
  confirmSig : String
  denomPubHash : String
  denomSig : String
  rc : String
  valueWithFee : AmountJson
deriving DecidableEq

def SessionRead.meltRequest (d : SessionRead) (derived : DerivedRefreshSession) : MeltRequest where
  coinPub := d.oldCoin.coinPub
  confirmSig := derived.confirmSig
  denomPubHash := d.oldCoin.denomPubHash
  denomSig := d.oldCoin.denomSig
  rc := derived.hash
  valueWithFee := derived.meltValueWithFee

structure RevealRequest where
  coinEvs : List String
  newDenomsH : List String
  rc : String
  transferPrivs : List String
  transferPub : String
  linkSigs : List String
deriving DecidableEq

/-- A session that is revealed, with the planchets that the exchange signs. -/
structure Reveal where
  d : SessionRead
  oldCoinPub : String
  norevealIndex : Nat
  planchets : List Planchet
  request : RevealRequest

def SessionRead.reveal (host : RefreshHost) (d : SessionRead) (oldCoinPub : String)
    (norevealIndex : Nat) : Option Reveal := do
  let derived ← d.derive host
  let planchets ← derived.planchetsForGammas[norevealIndex]?
  let transferPub ← derived.transferPubs[norevealIndex]?
  let newDenomsFlat := units d.session.newDenoms
  pure
    { d := d
      oldCoinPub := oldCoinPub
      norevealIndex := norevealIndex
      planchets := planchets
      request :=
        { coinEvs := planchets.map Planchet.coinEv
          newDenomsH := newDenomsFlat
          rc := derived.hash
          transferPrivs := derived.transferPrivs.eraseIdx norevealIndex
          transferPub := transferPub
          linkSigs := List.zipWith (fun denomPubHash planchet =>
            host.signCoinLink d.oldCoin.coinPriv denomPubHash d.oldCoin.coinPub transferPub
              planchet.coinEv) newDenomsFlat planchets } }

inductive Point where
  | processRefreshSession
  | refreshCreateSession
  | updateExchange (coin : Coin) (refreshing : RefreshCoin)
  | selectDenominations (coin : Coin) (refreshing : RefreshCoin) (exchangeBaseUrl : String)
  | finishUnwarranted
  | storeSession (session : RefreshSession)
  | sessionCreated
  | refreshMelt
  | meltRequest (request : MeltRequest)
  | meltAnswer
  | freezeCoin (err : String)
  | storeNorevealIndex (norevealIndex : Nat)
  | refreshReveal
  | revealRequest (reveal : Reveal)
  | revealAnswer (reveal : Reveal)
  -- the new coins whose denominations are still looked up
  | revealCoins (reveal : Reveal) (evSigs rest : List String) (coins : List Coin)
  | storeCoins (reveal : Reveal) (coins : List Coin)
  | failed (err : String)
  | finished

def Point.error : Point → Option String
  | .failed err => some err
  | _ => none

def Point.isFinished : Point → Bool
  | .finished => true
  | _ => false

/-- What comes back from outside, or the time and a random value. -/
inductive Answer where
  | proceed (surroundings : Surroundings) (random : String)
  | exchangeUpdated (exchangeBaseUrl : String)
  | notFound (err : String)
  | melted (norevealIndex : Nat)
  | revealed (evSigs : List String)
  | failure (err : String)

inductive Trace where
  | created (refreshGroupId : String)
  | melt (refreshGroupId : String) (coinIndex : Nat) (request : MeltRequest)
  | reveal (refreshGroupId : String) (coinIndex : Nat) (request : RevealRequest)
  | newCoins (refreshGroupId : String) (coinIndex : Nat) (coins : List Coin)

structure Session where
  refreshGroupId : String
  coinIndex : Nat
  point : Point

/-- What a call of `processRefreshGroup` does next. -/
inductive CallPoint where
  | resetRefreshGroupRetry
  | processRefreshGroupImpl
  | waiting (sessions : List Nat)
  | failed (err : String)
  | finished
deriving DecidableEq

structure Call where
  refreshGroupId : String
  point : CallPoint

structure RefreshWallet where
  coins : Record String Coin
  denominations : Record (String × String) Denomination
  refreshGroups : Record String RefreshGroup
  sessions : List Session
  calls : List Call
  log : List Trace

def RefreshWallet.denominationsOf (wallet : RefreshWallet) (exchangeBaseUrl : String) :
    List DenominationRecord :=
  (wallet.denominations.values.filter fun d => d.exchangeBaseUrl = exchangeBaseUrl).map
    Denomination.toDenominationRecord

structure Effect where
  point : Point
  group : Option RefreshGroup
  coins : List Coin
  trace : List Trace

def Effect.goto (point : Point) : Effect := ⟨point, none, [], []⟩

def Effect.throws (err : String) : Effect := .goto (.failed err)

def Effect.put (rg : RefreshGroup) (point : Point) : Effect := ⟨point, some rg, [], []⟩

def Effect.change (group : Option RefreshGroup) (point : Point) : Effect := ⟨point, group, [], []⟩

def RefreshCoin.continue (refreshing : RefreshCoin) : Point :=
  match refreshing.refreshSession with
  | none =>
    if refreshing.status = .finished then .finished
    else .failed "BUG: refresh session was not created and coin not marked as finished"
  | some refreshSession =>
    if refreshSession.norevealIndex.isNone then .refreshMelt else .refreshReveal

def newSession (sessionSecretSeed : String) (selection : DenominationSelectionInfo) :
    RefreshSession where
  sessionSecretSeed := sessionSecretSeed
  newDenoms := selection.selectedDenoms.map fun x => (x.1, x.2.denomPubHash)
  amountRefreshOutput := selection.totalCoinValue
  norevealIndex := none

section Steps

variable (host : RefreshHost) (wallet : RefreshWallet) (refreshGroupId : String) (coinIndex : Nat)

def readDenoms (exchangeBaseUrl : String) (newDenoms : List (Nat × String)) :
    Option (List (Nat × Denomination)) :=
  newDenoms.mapM fun dh =>
    (wallet.denominations.get? (exchangeBaseUrl, dh.2)).map fun newDenom => (dh.1, newDenom)

def readSession (refreshing : RefreshCoin) (session : RefreshSession) : Option SessionRead := do
  let oldCoin ← wallet.coins.get? refreshing.oldCoinPub
  let oldDenom ← wallet.denominations.get? (oldCoin.exchangeBaseUrl, oldCoin.denomPubHash)
  let newCoinDenoms ← readDenoms wallet oldCoin.exchangeBaseUrl session.newDenoms
  pure
    { oldCoin := oldCoin
      oldDenom := oldDenom
      newCoinDenoms := newCoinDenoms
      session := session }

def processRefreshSession (refreshing : RefreshCoin) : Point :=
  if refreshing.status = .finished then .finished
  else if refreshing.refreshSession.isNone then .refreshCreateSession
  else refreshing.continue

def refreshCreateSession (refreshing : RefreshCoin) : Point :=
  if refreshing.status = .finished ∨ refreshing.refreshSession.isSome then .sessionCreated
  else
    match wallet.coins.get? refreshing.oldCoinPub with
    | none => .failed "Can't refresh, coin not found"
    | some coin => .updateExchange coin refreshing

def selectDenominations (surroundings : Surroundings) (sessionSecretSeed : String) (coin : Coin)
    (refreshing : RefreshCoin) (exchangeBaseUrl : String) : Point :=
  match wallet.denominations.get? (exchangeBaseUrl, coin.denomPubHash) with
  | none => .failed "db inconsistent: denomination for coin not found"
  | some oldDenom =>
    if oldDenom.currency ≠ refreshing.currency then .failed "incompatible currencies"
    else
      let availableAmount := (Amounts.sub refreshing.input oldDenom.feeRefresh).amount
      match selectWithdrawalDenominations surroundings refreshing.currency availableAmount
          (wallet.denominationsOf exchangeBaseUrl) with
      | none => .failed "no denominations can be selected"
      | some newCoinDenoms =>
        if newCoinDenoms.selectedDenoms.isEmpty then .finishUnwarranted
        else .storeSession (newSession sessionSecretSeed newCoinDenoms)

def refreshMelt (refreshing : RefreshCoin) : Point :=
  match refreshing.refreshSession with
  | none => .refreshReveal
  | some refreshSession =>
    if refreshSession.norevealIndex.isSome then .refreshReveal
    else
      match readSession wallet refreshing refreshSession with
      | none => .failed "invariant failed"
      | some d =>
        match d.derive host with
        | none => .failed "incompatible currencies"
        | some derived => .meltRequest (d.meltRequest derived)

def refreshReveal (refreshing : RefreshCoin) : Point :=
  match refreshing.refreshSession with
  | none => .finished
  | some refreshSession =>
    match refreshSession.norevealIndex with
    | none => .failed "can't reveal without melting first"
    | some norevealIndex =>
      match readSession wallet refreshing refreshSession with
      | none => .failed "invariant failed"
      | some d =>
        match d.reveal host refreshing.oldCoinPub norevealIndex with
        | none => .failed "refresh index error"
        | some reveal => .revealRequest reveal

def revealCoin (reveal : Reveal) (evSigs : List String) (denomPubHash : String)
    (rest : List String) (coins : List Coin) : Point :=
  match wallet.denominations.get? (reveal.d.oldCoin.exchangeBaseUrl, denomPubHash) with
  -- the denomination is unknown, and the next one gets the planchet
  | none => .revealCoins reveal evSigs rest coins
  | some denom =>
    match reveal.planchets[coins.length]?, evSigs[coins.length]? with
    | some pc, some evSig =>
      .revealCoins reveal evSigs rest
        (coins ++
          [pc.coin denom (host.rsaUnblind evSig pc.blindingKey denom.denomPub)
            reveal.d.oldCoin.exchangeBaseUrl (.refresh reveal.oldCoinPub) pc.coinEv])
    | _, _ => .failed "undefined is not an object"

def advance (point : Point) (answer : Answer) : Option Effect :=
  let group := wallet.refreshGroups.get? refreshGroupId
  let refreshing := group.bind fun rg => rg.coins[coinIndex]?
  match answer with
  | .failure err =>
    match point with
    | .failed _ | .finished => none
    | _ => some (.throws err)
  | .exchangeUpdated exchangeBaseUrl =>
    match point with
    | .updateExchange coin refreshing =>
      some (.goto (.selectDenominations coin refreshing exchangeBaseUrl))
    | _ => none
  | .notFound err =>
    match point with
    | .meltAnswer => some (.goto (.freezeCoin err))
    | _ => none
  | .melted norevealIndex =>
    match point with
    | .meltAnswer => some (.goto (.storeNorevealIndex norevealIndex))
    | _ => none
  | .revealed evSigs =>
    match point with
    | .revealAnswer reveal =>
      some (.goto (.revealCoins reveal evSigs (units reveal.d.session.newDenoms) []))
    | _ => none
  | .proceed surroundings random =>
    match point with
    | .processRefreshSession =>
      some (.goto (refreshing.elim .finished processRefreshSession))
    | .refreshCreateSession =>
      some (.goto (refreshing.elim .sessionCreated (refreshCreateSession wallet)))
    | .selectDenominations coin refreshing exchangeBaseUrl =>
      some (.goto
        (selectDenominations wallet surroundings random coin refreshing exchangeBaseUrl))
    | .finishUnwarranted =>
      some (.change (group.map fun rg => rg.finishCoin surroundings.now coinIndex)
        .sessionCreated)
    | .storeSession session =>
      some (.change (group.bind fun rg => rg.storeSession coinIndex session) .sessionCreated)
    | .sessionCreated => some (.goto (refreshing.elim .finished RefreshCoin.continue))
    | .refreshMelt => some (.goto (refreshing.elim .refreshReveal (refreshMelt host wallet)))
    | .meltRequest request =>
      some ⟨.meltAnswer, none, [], [.melt refreshGroupId coinIndex request]⟩
    | .freezeCoin err =>
      some (.change (group.bind fun rg => rg.freezeCoin surroundings.now coinIndex err)
        .refreshReveal)
    | .storeNorevealIndex norevealIndex =>
      some (.change (group.bind fun rg => rg.storeNorevealIndex coinIndex norevealIndex)
        .refreshReveal)
    | .refreshReveal => some (.goto (refreshing.elim .finished (refreshReveal host wallet)))
    | .revealRequest reveal =>
      some ⟨.revealAnswer reveal, none, [], [.reveal refreshGroupId coinIndex reveal.request]⟩
    | .revealCoins reveal _ [] coins => some (.goto (.storeCoins reveal coins))
    | .revealCoins reveal evSigs (denomPubHash :: rest) coins =>
      some (.goto (revealCoin host wallet reveal evSigs denomPubHash rest coins))
    | .storeCoins _ coins =>
      match group with
      | none => some (.goto .finished)
      | some rg =>
        if (rg.session coinIndex).isNone then some (.goto .finished)
        else
          some
            { point := .finished
              group := some (rg.finishCoin surroundings.now coinIndex)
              coins := coins
              trace := [.newCoins refreshGroupId coinIndex coins] }
    | _ => none

end Steps

/-- What goes on in the wallet; other operations put coins and denominations. -/
inductive RefreshEvent where
  | createRefreshGroup (surroundings : Surroundings) (refreshGroupId : String)
      (oldCoinPubs : List String)
  | processRefreshGroup (refreshGroupId : String) (forceNow : Bool)
  | call (index : Nat)
  | session (index : Nat) (answer : Answer)
  | deleteRefreshGroup (refreshGroupId : String)
  | putCoin (coin : Coin)
  | putDenomination (denom : Denomination)
  | restarted

def takeCoin (surroundings : Surroundings) (wallet : RefreshWallet) (coinPub : String) :
    Option (RefreshCoin × RefreshWallet) := do
  let coin ← wallet.coins.get? coinPub
  let denom ← wallet.denominations.get? (coin.exchangeBaseUrl, coin.denomPubHash)
  guard (coin.currency = denom.currency)
  let denoms := (wallet.denominationsOf coin.exchangeBaseUrl).filter
    (isWithdrawableDenom surroundings)
  let cost ← getTotalRefreshCost surroundings denoms denom.toDenominationRecord coin.currentAmount
  let dormant := { coin with toCoinRecord := coin.toCoinRecord.putToSleep }
  pure
    ({ oldCoinPub := coinPub
       currency := coin.currency
       input := coin.currentAmount
       estimatedOutput := (Amounts.sub coin.currentAmount cost).amount
       status := .pending
       refreshSession := none
       lastError := none },
     { wallet with coins := wallet.coins.set coinPub dormant })

def takeCoins (surroundings : Surroundings) :
    List String → RefreshWallet → Option (List RefreshCoin × RefreshWallet)
  | [], wallet => some ([], wallet)
  | coinPub :: rest, wallet => do
      let (refreshing, wallet) ← takeCoin surroundings wallet coinPub
      let (more, wallet) ← takeCoins surroundings rest wallet
      pure (refreshing :: more, wallet)

namespace RefreshWallet

def start : RefreshWallet where
  coins := .empty
  denominations := .empty
  refreshGroups := .empty
  sessions := []
  calls := []
  log := []

variable (wallet : RefreshWallet)

/-- A call for a group that is being processed joins the one under way. -/
def process (refreshGroupId : String) (forceNow : Bool) : RefreshWallet :=
  if wallet.calls.any fun call =>
      call.refreshGroupId = refreshGroupId ∧ call.point ≠ .finished then wallet
  else
    { wallet with
      calls := wallet.calls ++
        [{ refreshGroupId := refreshGroupId
           point := if forceNow then .resetRefreshGroupRetry else .processRefreshGroupImpl }] }

def putCoins (coins : List Coin) (stored : Record String Coin) : Record String Coin :=
  coins.foldl (fun stored coin => stored.set coin.coinPub coin) stored

def changeGroup (refreshGroupId : String) (change : RefreshGroup → RefreshGroup) :
    RefreshWallet :=
  match wallet.refreshGroups.get? refreshGroupId with
  | none => wallet
  | some rg =>
    { wallet with refreshGroups := wallet.refreshGroups.set refreshGroupId (change rg) }

def setCall (index : Nat) (call : Call) (point : CallPoint) : RefreshWallet :=
  { wallet with calls := wallet.calls.set index { call with point := point } }

/-- All sessions of a group run at once, and the first one that throws ends the call. -/
def advanceCall (index : Nat) (call : Call) : Option RefreshWallet :=
  match call.point with
  | .resetRefreshGroupRetry =>
    some ((wallet.changeGroup call.refreshGroupId RefreshGroup.resetRetry).setCall index call
      .processRefreshGroupImpl)
  | .processRefreshGroupImpl =>
    match wallet.refreshGroups.get? call.refreshGroupId with
    | none => some (wallet.setCall index call .finished)
    | some rg =>
      if rg.timestampFinished.isSome then some (wallet.setCall index call .finished)
      else
        let sessions := (List.range rg.coins.length).map fun coinIndex =>
          { refreshGroupId := call.refreshGroupId
            coinIndex := coinIndex
            point := .processRefreshSession }
        let waiting := (List.range rg.coins.length).map (wallet.sessions.length + ·)
        some
          (({ wallet with sessions := wallet.sessions ++ sessions } : RefreshWallet).setCall
            index call (.waiting waiting))
  | .waiting sessions =>
    let points := sessions.filterMap fun index => wallet.sessions[index]?.map Session.point
    match points.findSome? Point.error with
    | some err => some (wallet.setCall index call (.failed err))
    | none =>
      if points.all Point.isFinished then some (wallet.setCall index call .finished) else none
  | .failed err =>
    some ((wallet.changeGroup call.refreshGroupId fun rg => rg.incrementRetry err).setCall index
      call .finished)
  | .finished => none

def apply (index : Nat) (session : Session) (effect : Effect) : RefreshWallet :=
  { wallet with
    coins := putCoins effect.coins wallet.coins
    refreshGroups := match effect.group with
      | none => wallet.refreshGroups
      | some rg => wallet.refreshGroups.set session.refreshGroupId rg
    sessions := wallet.sessions.set index { session with point := effect.point }
    log := wallet.log ++ effect.trace }

def createRefreshGroup (surroundings : Surroundings) (refreshGroupId : String)
    (oldCoinPubs : List String) : Option RefreshWallet := do
  let (coins, wallet) ← takeCoins surroundings oldCoinPubs wallet
  let group : RefreshGroup :=
    { coins := coins
      timestampFinished := if oldCoinPubs.isEmpty then some surroundings.now else none
      frozen := false
      retryCounter := 0
      lastError := none }
  let created : RefreshWallet :=
    { wallet with
      refreshGroups := wallet.refreshGroups.set refreshGroupId group
      log := wallet.log ++ [.created refreshGroupId] }
  pure (created.process refreshGroupId false)

def perform (host : RefreshHost) : RefreshEvent → Option RefreshWallet
  | .createRefreshGroup surroundings refreshGroupId oldCoinPubs =>
    wallet.createRefreshGroup surroundings refreshGroupId oldCoinPubs
  | .processRefreshGroup refreshGroupId forceNow => some (wallet.process refreshGroupId forceNow)
  | .call index => do
      let call ← wallet.calls[index]?
      wallet.advanceCall index call
  | .session index answer => do
      let session ← wallet.sessions[index]?
      let effect ← advance host wallet session.refreshGroupId session.coinIndex session.point answer
      pure (wallet.apply index session effect)
  | .deleteRefreshGroup refreshGroupId =>
    some { wallet with refreshGroups := wallet.refreshGroups.erase refreshGroupId }
  | .putCoin coin => some { wallet with coins := wallet.coins.set coin.coinPub coin }
  | .putDenomination denom =>
    some { wallet with denominations := wallet.denominations.set denom.key denom }
  | .restarted => some { wallet with sessions := [], calls := [] }

end RefreshWallet

def RefreshStep (host : RefreshHost) (wallet : RefreshWallet) (event : RefreshEvent)
    (next : RefreshWallet) : Prop :=
  wallet.perform host event = some next ∧
    match event with
    | .createRefreshGroup _ refreshGroupId _ => .created refreshGroupId ∉ wallet.log
    | _ => True

end Anastasis.Wallet.Refreshing
