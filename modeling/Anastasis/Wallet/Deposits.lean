import Anastasis.Wallet.BalanceRuns
import Anastasis.Wallet.Purchases

/-! How a deposit group is created, and how its coins are deposited one by one. -/

set_option autoImplicit false

namespace Anastasis.Wallet.Deposits

open Library Library.Transition AmountJson Purchasing

abbrev CurrencyAmount := Backup.CurrencyAmount

structure WireFee where
  currency : String
  wireFee : AmountJson
  startStamp : Timestamp
  endStamp : Timestamp

structure ExchangeDetails where
  masterPublicKey : String
  feesForType : List (String × List WireFee)

structure DepositHost extends PayHost where
  -- the target type of an URI, if it is valid
  parsePaytoUri : String → Option String
  hashWire : (paytoUri salt : String) → String
  hashContractTerms : List (String × String) → CurrencyAmount → List String → Nat → String

structure CreateDepositGroupRequest where
  depositPaytoUri : String
  amount : CurrencyAmount

structure DepositKeys where
  noncePriv : String
  noncePub : String
  merchantPriv : String
  merchantPub : String
  wireSalt : String

structure ContractTerms where
  exchanges : List (String × String)
  amount : CurrencyAmount
  wireMethod : String
  timestamp : Nat
  nonce : String
  wireTransferDeadline : Nat
  hWire : String
  payDeadline : Nat
  merchantPub : String
  refundDeadline : Nat

def timestampTruncateToSecond (now : Nat) : Nat := now / 1000 * 1000

def contractTerms (host : DepositHost) (now : Nat) (keys : DepositKeys)
    (exchangeInfos : List (String × String)) (targetType : String)
    (req : CreateDepositGroupRequest) : ContractTerms where
  exchanges := exchangeInfos
  amount := req.amount
  wireMethod := targetType
  timestamp := timestampTruncateToSecond now
  nonce := keys.noncePub
  wireTransferDeadline := timestampTruncateToSecond now
  hWire := host.hashWire req.depositPaytoUri keys.wireSalt
  payDeadline := timestampTruncateToSecond now + 60 * 60 * 1000
  merchantPub := keys.merchantPub
  refundDeadline := 0

def ContractTerms.hash (host : DepositHost) (terms : ContractTerms) : String :=
  host.hashContractTerms terms.exchanges terms.amount
    [terms.wireMethod, terms.nonce, terms.hWire, terms.merchantPub] terms.timestamp

def ContractTerms.extractContractData (terms : ContractTerms) (contractTermsHash : String) :
    ContractData where
  products := none
  summaryI18n := none
  fulfillmentUrl := ""
  contractTermsHash := contractTermsHash
  merchantSig := ""
  merchantPub := terms.merchantPub
  merchant := .object [("name", .string "")]
  amount := terms.amount
  orderId := ""
  merchantBaseUrl := ""
  summary := ""
  autoRefund := none
  maxWireFee := terms.amount
  wireFeeAmortization := 1
  payDeadline := .at terms.payDeadline
  refundDeadline := .at terms.refundDeadline
  allowedAuditors := []
  allowedExchanges := terms.exchanges.map fun info => ⟨info.1, info.2⟩
  timestamp := .at terms.timestamp
  wireMethod := terms.wireMethod
  wireInfoHash := terms.hWire
  maxDepositFee := terms.amount

structure DepositGroup where
  depositGroupId : String
  keys : DepositKeys
  paytoUri : String
  contractTerms : ContractTerms
  contractTermsHash : String
  payCoinSelection : PayCoinSelection
  payCoinSelectionUid : String
  totalPayCost : AmountJson
  effectiveDepositAmount : AmountJson
  depositedPerCoin : List Bool
  timestampCreated : Nat
  timestampFinished : Option Nat
  retryCounter : Option Nat
  lastError : Option String

namespace DepositGroup

variable (dg : DepositGroup)

def allocationId : String := "deposit-group:" ++ dg.depositGroupId

def contractData : ContractData := dg.contractTerms.extractContractData dg.contractTermsHash

def allDeposited : Bool := dg.depositedPerCoin.all id

def resetRetry : DepositGroup := { dg with retryCounter := some 0 }

def incrementRetry (err : String) : DepositGroup :=
  match dg.retryCounter with
  | none => dg
  | some retryCounter => { dg with retryCounter := some (retryCounter + 1), lastError := some err }

def markDeposited (index : Nat) : DepositGroup :=
  { dg with depositedPerCoin := dg.depositedPerCoin.set index true }

def finish (now : Nat) : DepositGroup :=
  { dg with timestampFinished := some now, lastError := none, retryCounter := none }

end DepositGroup

structure Draft where
  req : CreateDepositGroupRequest
  keys : DepositKeys
  contractTerms : ContractTerms
  contractTermsHash : String
  timestampCreated : Nat

def Draft.contractData (draft : Draft) : ContractData :=
  draft.contractTerms.extractContractData draft.contractTermsHash

def Draft.group (draft : Draft) (depositGroupId payCoinSelectionUid : String)
    (payCoinSelection : PayCoinSelection) (totalPayCost effectiveDepositAmount : AmountJson) :
    DepositGroup where
  depositGroupId := depositGroupId
  keys := draft.keys
  paytoUri := draft.req.depositPaytoUri
  contractTerms := draft.contractTerms
  contractTermsHash := draft.contractTermsHash
  payCoinSelection := payCoinSelection
  payCoinSelectionUid := payCoinSelectionUid
  totalPayCost := totalPayCost
  effectiveDepositAmount := effectiveDepositAmount
  depositedPerCoin := payCoinSelection.coinPubs.map fun _ => false
  timestampCreated := draft.timestampCreated
  timestampFinished := none
  retryCounter := some 0
  lastError := none

structure DepositRequest where
  coinPub : String
  exchangeUrl : String
  contribution : AmountJson
  merchantPaytoUri : String
  wireSalt : String
  hContractTerms : String
  ubSig : String
  timestamp : Nat
  wireTransferDeadline : Nat
  refundDeadline : Nat
  coinSig : String
  denomPubHash : String
  merchantPub : String
deriving DecidableEq

def DepositGroup.request (dg : DepositGroup) (perm : CoinDepositPermission) : DepositRequest where
  coinPub := perm.coinPub
  exchangeUrl := perm.exchangeUrl
  contribution := perm.contribution
  merchantPaytoUri := dg.paytoUri
  wireSalt := dg.keys.wireSalt
  hContractTerms := dg.contractTermsHash
  ubSig := perm.ubSig
  timestamp := dg.contractTerms.timestamp
  wireTransferDeadline := dg.contractTerms.wireTransferDeadline
  refundDeadline := dg.contractTerms.refundDeadline
  coinSig := perm.coinSig
  denomPubHash := perm.hDenom
  merchantPub := dg.keys.merchantPub

/-- What a call does next; a run over the coins works on the group that it has read. -/
inductive Point where
  | createDepositGroup (req : CreateDepositGroupRequest)
  | selectCoins (draft : Draft)
  | getTotalPaymentCost (draft : Draft) (payCoinSel : PayCoinSelection)
  | getEffectiveDepositAmount (draft : Draft) (payCoinSel : PayCoinSelection)
      (totalDepositCost : AmountJson)
  | storeGroup (draft : Draft) (payCoinSel : PayCoinSelection)
      (totalDepositCost effectiveDepositAmount : AmountJson)
  | created (depositGroupId : String)
  | resetDepositGroupRetry (depositGroupId : String)
  | processDepositGroupImpl (depositGroupId : String)
  | generateDepositPermissions (dg : DepositGroup)
  | deposit (dg : DepositGroup) (perms : List CoinDepositPermission) (index : Nat)
  | depositAnswer (dg : DepositGroup) (perms : List CoinDepositPermission) (index : Nat)
  | markDeposited (dg : DepositGroup) (perms : List CoinDepositPermission) (index : Nat)
  | finishGroup (dg : DepositGroup)
  | incrementDepositRetry (depositGroupId err : String)
  | threw
  | finished

/-- What comes back from outside, or the time and random values. -/
inductive Answer where
  | proceed (surroundings : Surroundings) (random uid refreshGroupId : String)
  | keys (now : Nat) (keys : DepositKeys)
  | accepted
  | failure (err : String)

/-- Effective amounts with the time and the type of account, groups, and deposits. -/
inductive Trace where
  | priced (payCoinSel : PayCoinSelection) (effectiveDepositAmount : AmountJson) (now : Nat)
      (wireType : String)
  | stored (depositGroupId : String)
  | deposit (depositGroupId : String) (index : Nat) (request : DepositRequest)
  | accepted (depositGroupId : String) (index : Nat)
  | ended (depositGroupId : String)

structure DepositWallet where
  stores : WalletStores
  exchanges : Record String ExchangeDetails
  depositGroups : Record String DepositGroup
  calls : List Point
  log : List Trace

/-! ## The effective amount -/

def WireFee.isCurrent (now : Nat) (fee : WireFee) : Bool :=
  Timestamp.cmp (.at now) fee.startStamp ≠ .lt && Timestamp.cmp (.at now) fee.endStamp ≠ .gt

/-- The exchanges of coins, each once, in the order in which they are first met. -/
def exchangeSet (coins : List CoinRecord) : List String :=
  coins.foldl (fun urls coin =>
    if coin.exchangeBaseUrl ∈ urls then urls else urls ++ [coin.exchangeBaseUrl]) []

def currentWireFee (now : Nat) (wireType : String) (details : ExchangeDetails) :
    Option (Option WireFee) :=
  (details.feesForType.lookup wireType).map fun fees => fees.find? fun fee => fee.isCurrent now

def currentWireFees (now : Nat) (wireType currency : String)
    (exchanges : Record String ExchangeDetails) :
    List String → Option (List (String × AmountJson))
  | [] => some []
  | exchangeUrl :: rest => do
      let more ← currentWireFees now wireType currency exchanges rest
      match exchanges.get? exchangeUrl with
      | none => pure more
      | some details => do
          let fee ← currentWireFee now wireType details
          match fee with
          | none => pure more
          | some fee => do
              guard (fee.currency = currency)
              pure ((exchangeUrl, fee.wireFee) :: more)

def selectedCoins (wallet : WalletStores) (currency : String) :
    List String → Option (List CoinRecord)
  | [] => some []
  | coinPub :: rest => do
      let coin ← wallet.coins.get? coinPub
      let denom ← wallet.denominations.get? (coin.exchangeBaseUrl, coin.denomPubHash)
      guard (denom.currency = currency)
      let more ← selectedCoins wallet currency rest
      pure (coin :: more)

/-- The contributions, the deposit fees and the wire fees of a selection. -/
structure EffectiveParts where
  amt : List AmountJson
  fees : List AmountJson
  wireFees : List (String × AmountJson)

def EffectiveParts.allFees (parts : EffectiveParts) : List AmountJson :=
  parts.fees ++ parts.wireFees.map Prod.snd

def effectiveParts (host : DepositHost) (now : Nat) (wireType currency : String)
    (exchanges : Record String ExchangeDetails) (wallet : WalletStores)
    (pcs : PayCoinSelection) : Option EffectiveParts := do
  let contributions ← PayCoinSelection.contributions pcs.coinPubs pcs.coinContributions
  let coins ← selectedCoins wallet currency pcs.coinPubs
  let wireFees ← currentWireFees now wireType currency exchanges (exchangeSet coins)
  pure
    { amt := contributions.map Prod.snd
      fees := coins.map fun coin => host.feeDeposit coin.denomPubHash
      wireFees := wireFees }

def sum : List AmountJson → Option AmountJson
  | [] => none
  | first :: rest => some (Amounts.add first rest).amount

def EffectiveParts.amount (parts : EffectiveParts) : Option AmountJson := do
  let amt ← sum parts.amt
  let fees ← sum parts.allFees
  pure (Amounts.sub amt fees).amount

/-! ## The steps of a call -/

structure Effect where
  point : Point
  stores : WalletStores
  group : Option DepositGroup
  trace : List Trace

section Steps

variable (host : DepositHost) (wallet : DepositWallet)

def Effect.goto (point : Point) : Effect := ⟨point, wallet.stores, none, []⟩

def Effect.put (group : Option DepositGroup) (point : Point) (trace : List Trace) : Effect :=
  ⟨point, wallet.stores, group, trace⟩

def allowedExchanges (contractData : ContractData) : List (String × ExchangeDetails) :=
  wallet.exchanges.entries.filter fun exchange =>
    contractData.allowedExchanges.any fun allowed =>
      allowed.exchangePub = exchange.2.masterPublicKey

/-- Timestamps are compared as objects here, so that the first fee is taken. -/
def candidateWireFees (contractData : ContractData) : List (String × AmountJson) :=
  (allowedExchanges wallet contractData).filterMap fun exchange => do
    let fees ← exchange.2.feesForType.lookup contractData.wireMethod
    let fee ← fees.head?
    pure (exchange.1, fee.wireFee)

def selectCoins (surroundings : Surroundings) (draft : Draft) : Point :=
  let contractData := draft.contractData
  match getCandidatePayCoins host.toPayHost surroundings wallet.stores
      ((allowedExchanges wallet contractData).map Prod.fst) with
  | none => .threw
  | some candidateCoins =>
    match selected (selectionRequest contractData candidateCoins
        (candidateWireFees wallet contractData) []) with
    | none => .threw
    | some payCoinSel => .getTotalPaymentCost draft payCoinSel

/-- The next coin that is not marked as deposited, or the end of the run. -/
def nextDeposit (dg : DepositGroup) (perms : List CoinDepositPermission) (index : Nat) : Point :=
  if index < perms.length then .deposit dg perms index else .finishGroup dg

def storeGroup (surroundings : Surroundings) (random uid refreshGroupId : String) (draft : Draft)
    (payCoinSel : PayCoinSelection) (totalDepositCost effectiveDepositAmount : AmountJson) :
    Effect :=
  let dg := draft.group random uid payCoinSel totalDepositCost effectiveDepositAmount
  match applyCoinSpend surroundings draft.req.amount.currency dg.allocationId refreshGroupId
      payCoinSel wallet.stores with
  -- the transaction is rolled back
  | none => .goto wallet .threw
  | some stores => ⟨.created dg.depositGroupId, stores, some dg, [.stored dg.depositGroupId]⟩

/-- The last transaction of a run looks at the flags that the run has read at its start. -/
def finishGroup (now : Nat) (dg current : DepositGroup) : Effect :=
  .put wallet (if dg.allDeposited then some (current.finish now) else none) .finished
    [.ended dg.depositGroupId]

def Point.throws (err : String) : Point → Point
  | .resetDepositGroupRetry depositGroupId | .processDepositGroupImpl depositGroupId =>
    .incrementDepositRetry depositGroupId err
  | .generateDepositPermissions dg | .deposit dg _ _ | .depositAnswer dg _ _
  | .markDeposited dg _ _ | .finishGroup dg => .incrementDepositRetry dg.depositGroupId err
  | _ => .threw

def advance (point : Point) (answer : Answer) : Option Effect :=
  match answer with
  | .failure err =>
    match point with
    | .created _ | .incrementDepositRetry _ _ | .threw | .finished => none
    | _ => some (.goto wallet (point.throws err))
  | .keys now keys =>
    match point with
    | .createDepositGroup req =>
      match host.parsePaytoUri req.depositPaytoUri with
      | none => some (.goto wallet .threw)
      | some targetType =>
        let exchangeInfos := wallet.exchanges.entries.map fun exchange =>
          (exchange.1, exchange.2.masterPublicKey)
        let terms := contractTerms host now keys exchangeInfos targetType req
        some (.goto wallet
          (.selectCoins
            { req := req
              keys := keys
              contractTerms := terms
              contractTermsHash := terms.hash host
              timestampCreated := now }))
    | _ => none
  | .accepted =>
    match point with
    | .depositAnswer dg perms index =>
      some (.put wallet none (.markDeposited dg perms index)
        [.accepted dg.depositGroupId index])
    | _ => none
  | .proceed surroundings random uid refreshGroupId =>
    match point with
    | .selectCoins draft => some (.goto wallet (selectCoins host wallet surroundings draft))
    | .getTotalPaymentCost draft payCoinSel =>
      match Wallet.getTotalPaymentCost surroundings wallet.stores draft.req.amount.currency
          payCoinSel with
      | none => some (.goto wallet .threw)
      | some totalDepositCost =>
        some (.goto wallet (.getEffectiveDepositAmount draft payCoinSel totalDepositCost))
    | .getEffectiveDepositAmount draft payCoinSel totalDepositCost =>
      match effectiveParts host surroundings.now draft.contractTerms.wireMethod
          draft.req.amount.currency wallet.exchanges wallet.stores payCoinSel with
      | none => some (.goto wallet .threw)
      | some parts =>
        match parts.amount with
        | none => some (.goto wallet .threw)
        | some effectiveDepositAmount =>
          some (.put wallet none
            (.storeGroup draft payCoinSel totalDepositCost effectiveDepositAmount)
            [.priced payCoinSel effectiveDepositAmount surroundings.now
              draft.contractTerms.wireMethod])
    | .storeGroup draft payCoinSel totalDepositCost effectiveDepositAmount =>
      some (storeGroup wallet surroundings random uid refreshGroupId draft payCoinSel
        totalDepositCost effectiveDepositAmount)
    | .resetDepositGroupRetry depositGroupId =>
      some (.put wallet ((wallet.depositGroups.get? depositGroupId).map fun dg =>
        dg.resetRetry) (.processDepositGroupImpl depositGroupId) [])
    | .processDepositGroupImpl depositGroupId =>
      match wallet.depositGroups.get? depositGroupId with
      | none => some (.goto wallet .finished)
      | some dg =>
        if dg.timestampFinished.isSome then some (.goto wallet .finished)
        else some (.goto wallet (.generateDepositPermissions dg))
    | .generateDepositPermissions dg =>
      match generateDepositPermissions host.toPayHost wallet.stores dg.payCoinSelection
          dg.contractData with
      | none => some (.goto wallet (.incrementDepositRetry dg.depositGroupId "coin not found"))
      | some perms => some (.goto wallet (nextDeposit dg perms 0))
    | .deposit dg perms index =>
      if dg.depositedPerCoin[index]? = some true then
        some (.goto wallet (nextDeposit dg perms (index + 1)))
      else
        match perms[index]? with
        | none => none
        | some perm =>
          some (.put wallet none (.depositAnswer dg perms index)
            [.deposit dg.depositGroupId index (dg.request perm)])
    | .markDeposited dg perms index =>
      some (.put wallet ((wallet.depositGroups.get? dg.depositGroupId).map fun dg =>
        dg.markDeposited index) (nextDeposit dg perms (index + 1)) [])
    | .finishGroup dg =>
      match wallet.depositGroups.get? dg.depositGroupId with
      | none => some (.goto wallet .finished)
      | some current => some (finishGroup wallet surroundings.now dg current)
    | .incrementDepositRetry depositGroupId err =>
      some (.put wallet ((wallet.depositGroups.get? depositGroupId).map fun dg =>
        dg.incrementRetry err) .finished [])
    | _ => none

end Steps

def Point.processes : Point → Option String
  | .resetDepositGroupRetry depositGroupId | .processDepositGroupImpl depositGroupId
  | .incrementDepositRetry depositGroupId _ => some depositGroupId
  | .generateDepositPermissions dg | .deposit dg _ _ | .depositAnswer dg _ _
  | .markDeposited dg _ _ | .finishGroup dg => some dg.depositGroupId
  | _ => none

/-- What goes on in the wallet; other operations change the other stores in any way. -/
inductive DepositEvent where
  | createDepositGroup (req : CreateDepositGroupRequest)
  | processDepositGroup (depositGroupId : String) (forceNow : Bool)
  | call (index : Nat) (answer : Answer)
  | deleteDepositGroup (depositGroupId : String)
  | others (stores : WalletStores) (exchanges : Record String ExchangeDetails)
  | restarted

namespace DepositWallet

def start : DepositWallet where
  stores := .empty
  exchanges := .empty
  depositGroups := .empty
  calls := []
  log := []

variable (wallet : DepositWallet)

def begin (point : Point) : DepositWallet := { wallet with calls := wallet.calls ++ [point] }

/-- A call for a group that is being processed joins the one under way. -/
def process (depositGroupId : String) (forceNow : Bool) : DepositWallet :=
  if wallet.calls.any fun point => point.processes = some depositGroupId then wallet
  else
    wallet.begin
      (if forceNow then .resetDepositGroupRetry depositGroupId
      else .processDepositGroupImpl depositGroupId)

def apply (index : Nat) (effect : Effect) : DepositWallet :=
  { wallet with
    stores := effect.stores
    depositGroups := effect.group.elim wallet.depositGroups fun dg =>
      wallet.depositGroups.set dg.depositGroupId dg
    calls := wallet.calls.set index effect.point
    log := wallet.log ++ effect.trace }

def perform (host : DepositHost) : DepositEvent → Option DepositWallet
  | .createDepositGroup req => some (wallet.begin (.createDepositGroup req))
  | .processDepositGroup depositGroupId forceNow => some (wallet.process depositGroupId forceNow)
  | .call index answer => do
      let point ← wallet.calls[index]?
      let effect ← advance host wallet point answer
      pure (wallet.apply index effect)
  | .deleteDepositGroup depositGroupId =>
    some { wallet with depositGroups := wallet.depositGroups.erase depositGroupId }
  | .others stores exchanges => some { wallet with stores := stores, exchanges := exchanges }
  | .restarted => some { wallet with calls := [] }

end DepositWallet

def Trace.isStored (depositGroupId : String) : Trace → Bool
  | .stored found => found = depositGroupId
  | _ => false

/-- Random identifiers are new, and coins are stored under their public keys. -/
def DepositStep (host : DepositHost) (wallet : DepositWallet) (event : DepositEvent)
    (next : DepositWallet) : Prop :=
  wallet.perform host event = some next ∧
    match event with
    | .call _ (.proceed _ random _ _) => wallet.log.any (Trace.isStored random) = false
    | .others stores _ =>
      ∀ coinPub coin, stores.coins.get? coinPub = some coin → coin.coinPub = coinPub
    | _ => True

end Anastasis.Wallet.Deposits
