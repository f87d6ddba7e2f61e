import Anastasis.Wallet.Payments
import Anastasis.Wallet.ProposalDownloads

/-! How proposals are bought: the coins are selected and signed, the payment is submitted to the
merchant, and coins are selected again after one of them was refused. -/

set_option autoImplicit false

namespace Anastasis.Wallet.Purchasing

open Library Library.Transition

abbrev Proposal := Backup.ProposalRecord

abbrev ContractData := Backup.WalletContractData

structure CoinDepositPermission where
  coinSig : String
  coinPub : String
  ubSig : String
  contribution : AmountJson
  hDenom : String
  exchangeUrl : String
deriving DecidableEq

/-- What the records of the stores do not say about denominations, and the signatures. -/
structure PayHost where
  denomPub : (denomPubHash : String) → DenominationPubKey
  feeDeposit : (denomPubHash : String) → AmountJson
  depositExpired : (now : Nat) → (denomPubHash : String) → Bool
  denomSig : (coinPub : String) → String
  coinSig : ContractData → CoinRecord → (spendAmount : AmountJson) → String
  isValidPaymentSignature : (sig contractTermsHash merchantPub : String) → Bool

structure PurchaseRecord where
  proposalId : String
  noncePriv : String
  noncePub : Option String
  download : Backup.ProposalDownload
  payCoinSelection : PayCoinSelection
  payCoinSelectionUid : String
  totalPayCost : AmountJson
  coinDepositPermissions : Option (List CoinDepositPermission)
  timestampAccept : Nat
  timestampFirstSuccessfulPay : Option Nat
  merchantPaySig : Option String
  lastSessionId : Option String
  paymentSubmitPending : Bool
  refundQueryRequested : Bool
  abortStatus : Backup.AbortStatus
  payRetryInfo : Option RetryInfo
  payFrozen : Bool
  lastPayError : Option String
  autoRefundDeadline : Option Timestamp

def PurchaseRecord.contractData (purchase : PurchaseRecord) : ContractData :=
  purchase.download.contractData

/-! ## The selection of coins, and its signatures -/

section Coins

variable (host : PayHost) (surroundings env : Surroundings) (wallet : WalletStores)

def isSpendableCoin (coin : CoinRecord) (denom : DenominationRecord) : Bool :=
  !coin.suspended && !denom.isRevoked && denom.isOffered && coin.status = .fresh &&
    !host.depositExpired surroundings.now denom.denomPubHash

/-- The spendable ones of an exchange's coins; it throws without a denomination. -/
def candidatesOf (currency : String) : List CoinRecord → Option (List AvailableCoinInfo)
  | [] => some []
  | coin :: rest => do
      let denom ← wallet.denominations.get? (coin.exchangeBaseUrl, coin.denomPubHash)
      let more ← candidatesOf currency rest
      if denom.currency = currency ∧ isSpendableCoin host surroundings coin denom then
        pure
          ({ coinPub := coin.coinPub
             denomPub := host.denomPub coin.denomPubHash
             availableAmount := coin.currentAmount
             feeDeposit := host.feeDeposit coin.denomPubHash
             exchangeBaseUrl := denom.exchangeBaseUrl } :: more)
      else pure more

def exchangeCandidates (exchangeBaseUrl : String) : Option (List AvailableCoinInfo) :=
  match wallet.coins.values.filter fun coin => coin.exchangeBaseUrl = exchangeBaseUrl with
  | [] => some []
  | first :: rest => do
      let firstDenom ← wallet.denominations.get? (exchangeBaseUrl, first.denomPubHash)
      candidatesOf host surroundings wallet firstDenom.currency (first :: rest)

def getCandidatePayCoins : List String → Option (List AvailableCoinInfo)
  | [] => some []
  | exchangeBaseUrl :: rest => do
      let candidates ← exchangeCandidates host surroundings wallet exchangeBaseUrl
      let more ← getCandidatePayCoins rest
      pure (candidates ++ more)

/-- The coins of the recorded selection, less the broken one and those that are not found. -/
def previousPayCoins (brokenCoinPub : String) (selection : PayCoinSelection) :
    List PreviousPayCoin :=
  (selection.coinPubs.zip selection.coinContributions).filterMap fun (coinPub, contrib) => do
    guard (coinPub ≠ brokenCoinPub)
    let coin ← wallet.coins.get? coinPub
    let _ ← wallet.denominations.get? (coin.exchangeBaseUrl, coin.denomPubHash)
    pure
      { coinPub := coinPub
        contribution := contrib
        feeDeposit := host.feeDeposit coin.denomPubHash
        exchangeBaseUrl := coin.exchangeBaseUrl }

/-- The permissions for coins with their contributions; it throws when a coin is not found. -/
def signCoins (contractData : ContractData) :
    List (String × AmountJson) → Option (List CoinDepositPermission)
  | [] => some []
  | (coinPub, contrib) :: rest => do
      let coin ← wallet.coins.get? coinPub
      let _ ← wallet.denominations.get? (coin.exchangeBaseUrl, coin.denomPubHash)
      let more ← signCoins contractData rest
      pure
        ({ coinSig := host.coinSig contractData coin contrib
           coinPub := coin.coinPub
           ubSig := host.denomSig coin.coinPub
           contribution := contrib
           hDenom := coin.denomPubHash
           exchangeUrl := coin.exchangeBaseUrl } :: more)

def generateDepositPermissions (payCoinSel : PayCoinSelection) (contractData : ContractData) :
    Option (List CoinDepositPermission) := do
  let contributions ← PayCoinSelection.contributions payCoinSel.coinPubs
    payCoinSel.coinContributions
  signCoins host wallet contractData contributions

end Coins

def selectionRequest (contractData : ContractData) (candidateCoins : List AvailableCoinInfo)
    (wireFees : List (String × AmountJson)) (prevPayCoins : List PreviousPayCoin) :
    SelectPayCoinRequest where
  candidateCoins := candidateCoins
  wireFeesPerExchange := fun exchangeBaseUrl =>
    (wireFees.find? fun fee => fee.1 = exchangeBaseUrl).map Prod.snd
  contractTermsAmount := contractData.amount.amount
  depositFeeLimit := contractData.maxDepositFee.amount
  wireFeeLimit := contractData.maxWireFee.amount
  wireFeeAmortization := contractData.wireFeeAmortization.toPNat'
  prevPayCoins := prevPayCoins

/-- The selection, unless there is none or two candidates cannot be put in order. -/
def selected (request : SelectPayCoinRequest) : Option PayCoinSelection :=
  match selectPayCoins request with
  | .ok selection => selection
  | .error _ => none

/-! ## The transactions that write -/

structure PurchaseStores where
  wallet : WalletStores
  proposals : Record String Proposal
  purchases : Record String PurchaseRecord

namespace PurchaseRecord

variable (now : Nat) (purchase pu : PurchaseRecord)

def changeSession (sessionId : Option String) (submit : Bool) : PurchaseRecord :=
  { purchase with
    lastSessionId := sessionId
    paymentSubmitPending := purchase.paymentSubmitPending || submit }

def resetRetry : PurchaseRecord := { purchase with payRetryInfo := some (initRetryInfo now) }

def incrementRetry (err : Option String) : PurchaseRecord :=
  let payRetryInfo := purchase.payRetryInfo.getD (initRetryInfo now)
  { purchase with
    payRetryInfo := some { payRetryInfo with retryCounter := payRetryInfo.retryCounter + 1 }
    lastPayError := err }

def freeze (err : String) : PurchaseRecord :=
  { purchase with
    payFrozen := true
    lastPayError := some err
    payRetryInfo := none }

def autoRefundEnd (duration : Backup.Duration) : Timestamp :=
  match duration with
  | .milliseconds d => .at (now + d)
  | .forever => .never

/-- The first success of a payment is stored with the session of its request. -/
def firstPaySuccess (sessionId : Option String) (paySig : String) : PurchaseRecord :=
  if purchase.timestampFirstSuccessfulPay.isSome then purchase
  else
    let paid :=
      { purchase with
        timestampFirstSuccessfulPay := some now
        paymentSubmitPending := false
        lastPayError := none
        lastSessionId := sessionId
        payRetryInfo := some (initRetryInfo now)
        merchantPaySig := some paySig }
    match purchase.contractData.autoRefund with
    | none => paid
    | some ar =>
      { paid with
        refundQueryRequested := true
        autoRefundDeadline := some (autoRefundEnd now ar) }

def payReplaySuccess (sessionId : Option String) : Option PurchaseRecord :=
  if purchase.timestampFirstSuccessfulPay.isNone then none
  else
    some
      { purchase with
        paymentSubmitPending := false
        lastPayError := none
        payRetryInfo := some (initRetryInfo now)
        lastSessionId := sessionId }

def reselect (payCoinSelectionUid : String) (res : PayCoinSelection) : PurchaseRecord :=
  { purchase with
    payCoinSelection := res
    payCoinSelectionUid := payCoinSelectionUid
    coinDepositPermissions := none }

def abortable : Bool :=
  purchase.timestampFirstSuccessfulPay.isNone && purchase.abortStatus = .none

def abort : PurchaseRecord :=
  if purchase.abortable then
    { purchase with
      refundQueryRequested := true
      paymentSubmitPending := false
      abortStatus := .abortRefund
      lastPayError := none
      payRetryInfo := some (initRetryInfo now) }
  else purchase

end PurchaseRecord

/-- Transactions, each with what it gets from the call that makes it. -/
inductive Transaction where
  -- `submit` in `confirmPay`, and not in `checkPaymentByProposalId`
  | changeSession (proposalId : String) (sessionId : Option String) (submit : Bool)
  | recordConfirmPay (refreshGroupId : String) (purchase : PurchaseRecord)
  | resetPurchasePayRetry (proposalId : String)
  | incrementPurchasePayRetry (proposalId : String) (err : Option String)
  | freeze (proposalId err : String)
  | storeFirstPaySuccess (proposalId : String) (sessionId : Option String) (paySig : String)
  | storePayReplaySuccess (proposalId : String) (sessionId : Option String)
  | reselect (proposalId payCoinSelectionUid refreshGroupId : String) (res : PayCoinSelection)
  | abort (proposalId : String)

def allocationId (proposalId : String) : String := "proposal:" ++ proposalId

namespace PurchaseStores

variable (surroundings env : Surroundings) (stores : PurchaseStores)

def modifyPurchase (proposalId : String) (change : PurchaseRecord → PurchaseRecord) :
    PurchaseStores :=
  match stores.purchases.get? proposalId with
  | none => stores
  | some purchase =>
    { stores with purchases := stores.purchases.set proposalId (change purchase) }

def acceptProposal (proposalId : String) : PurchaseStores :=
  match stores.proposals.get? proposalId with
  | none => stores
  | some p =>
    { stores with
      proposals := stores.proposals.set proposalId
        (Downloads.Proposal.accept surroundings.now p) }

def putPurchase (purchase : PurchaseRecord) : PurchaseStores :=
  { stores with purchases := stores.purchases.set purchase.proposalId purchase }

def spendFor (refreshGroupId : String) (purchase : PurchaseRecord) : Option PurchaseStores := do
  let wallet ← applyCoinSpend surroundings purchase.contractData.amount.currency
    (allocationId purchase.proposalId) refreshGroupId purchase.payCoinSelection stores.wallet
  pure { stores with wallet := wallet }

def run : Transaction → Option PurchaseStores
  | .changeSession proposalId sessionId submit =>
    some (stores.modifyPurchase proposalId fun p => p.changeSession sessionId submit)
  | .recordConfirmPay refreshGroupId purchase =>
    ((stores.acceptProposal surroundings purchase.proposalId).putPurchase purchase).spendFor
      surroundings refreshGroupId purchase
  | .resetPurchasePayRetry proposalId =>
    some (stores.modifyPurchase proposalId fun p => p.resetRetry surroundings.now)
  | .incrementPurchasePayRetry proposalId err =>
    some (stores.modifyPurchase proposalId fun p => p.incrementRetry surroundings.now err)
  | .freeze proposalId err => some (stores.modifyPurchase proposalId fun p => p.freeze err)
  | .storeFirstPaySuccess proposalId sessionId paySig =>
    some (stores.modifyPurchase proposalId fun p =>
      p.firstPaySuccess surroundings.now sessionId paySig)
  | .storePayReplaySuccess proposalId sessionId =>
    match stores.purchases.get? proposalId with
    | none => some stores
    | some purchase => do
        let paid ← purchase.payReplaySuccess surroundings.now sessionId
        pure { stores with purchases := stores.purchases.set proposalId paid }
  | .reselect proposalId payCoinSelectionUid refreshGroupId res =>
    match stores.purchases.get? proposalId with
    | none => some stores
    | some p =>
      let p := p.reselect payCoinSelectionUid res
      (stores.putPurchase p).spendFor surroundings refreshGroupId p
  | .abort proposalId => some (stores.modifyPurchase proposalId fun p => p.abort surroundings.now)

end PurchaseStores

inductive Changed (proposalId : String) (p : PurchaseRecord) : Transaction → PurchaseRecord → Prop
  | changeSession (sessionId : Option String) (submit : Bool) :
      Changed proposalId p (.changeSession proposalId sessionId submit)
        (p.changeSession sessionId submit)
  | resetRetry (now : Nat) :
      Changed proposalId p (.resetPurchasePayRetry proposalId) (p.resetRetry now)
  | incrementRetry (now : Nat) (err : Option String) :
      Changed proposalId p (.incrementPurchasePayRetry proposalId err) (p.incrementRetry now err)
  | freeze (err : String) : Changed proposalId p (.freeze proposalId err) (p.freeze err)
  | firstPaySuccess (now : Nat) (sessionId : Option String) (paySig : String) :
      Changed proposalId p (.storeFirstPaySuccess proposalId sessionId paySig)
        (p.firstPaySuccess now sessionId paySig)
  | payReplaySuccess {p' : PurchaseRecord} (now : Nat) (sessionId : Option String)
      (paid : p.payReplaySuccess now sessionId = some p') :
      Changed proposalId p (.storePayReplaySuccess proposalId sessionId) p'
  | reselect (payCoinSelectionUid refreshGroupId : String) (res : PayCoinSelection) :
      Changed proposalId p (.reselect proposalId payCoinSelectionUid refreshGroupId res)
        (p.reselect payCoinSelectionUid res)
  | abort (now : Nat) : Changed proposalId p (.abort proposalId) (p.abort now)

inductive Stored (purchases : Record String PurchaseRecord) (transaction : Transaction) :
    Record String PurchaseRecord → Prop
  | same : Stored purchases transaction purchases
  | changed {proposalId : String} {p p' : PurchaseRecord}
      (found : purchases.get? proposalId = some p) (changed : Changed proposalId p transaction p') :
      Stored purchases transaction (purchases.set proposalId p')
  | recorded (refreshGroupId : String) (purchase : PurchaseRecord)
      (isTransaction : transaction = .recordConfirmPay refreshGroupId purchase) :
      Stored purchases transaction (purchases.set purchase.proposalId purchase)

theorem Changed.proposalId {pid : String} {p p' : PurchaseRecord}
    {tx : Transaction} (changed : Changed pid p tx p') : p'.proposalId = p.proposalId := by
  cases changed with
  | firstPaySuccess =>
    unfold PurchaseRecord.firstPaySuccess
    split
    · rfl
    · dsimp only
      split <;> rfl
  | payReplaySuccess now sid paid =>
    unfold PurchaseRecord.payReplaySuccess at paid
    split at paid
    · cases paid
    · cases paid
      rfl
  | abort =>
    unfold PurchaseRecord.abort
    split <;> rfl
  | _ => rfl

namespace PurchaseStores

variable {surroundings env : Surroundings} {stores stores' : PurchaseStores}

theorem modifyPurchase_stored {pid : String} {change : PurchaseRecord → PurchaseRecord}
    {tx : Transaction} (changed : ∀ p, Changed pid p tx (change p)) :
    Stored stores.purchases tx (stores.modifyPurchase pid change).purchases := by
  unfold modifyPurchase
  split
  next => exact .same
  next p h => exact .changed h (changed p)

theorem spendFor_purchases {gid : String} {pu : PurchaseRecord}
    (r : stores.spendFor env gid pu = some stores') : stores'.purchases = stores.purchases := by
  obtain ⟨w, _, isStores⟩ := Option.bind_eq_some_iff.mp r
  cases isStores
  rfl

theorem acceptProposal_purchases (pid : String) :
    (stores.acceptProposal env pid).purchases = stores.purchases := by
  unfold acceptProposal
  split <;> rfl

def Keyed (stores : PurchaseStores) : Prop :=
  ∀ proposalId p, stores.purchases.get? proposalId = some p → p.proposalId = proposalId

theorem run_stored (keyed : stores.Keyed) {tx : Transaction}
    (r : stores.run env tx = some stores') : Stored stores.purchases tx stores'.purchases := by
  cases tx with
  | changeSession proposalId sid submit =>
    cases r
    exact modifyPurchase_stored fun p => .changeSession sid submit
  | recordConfirmPay gid pu =>
    rw [spendFor_purchases r, putPurchase, acceptProposal_purchases]
    exact .recorded gid pu rfl
  | resetPurchasePayRetry proposalId =>
    cases r
    exact modifyPurchase_stored fun p => .resetRetry env.now
  | incrementPurchasePayRetry proposalId err =>
    cases r
    exact modifyPurchase_stored fun p => .incrementRetry env.now err
  | freeze proposalId err =>
    cases r
    exact modifyPurchase_stored fun p => .freeze err
  | storeFirstPaySuccess proposalId sid paySig =>
    cases r
    exact modifyPurchase_stored fun p => .firstPaySuccess env.now sid paySig
  | storePayReplaySuccess proposalId sid =>
    simp only [run] at r
    split at r
    next =>
      cases r
      exact .same
    next p h =>
      obtain ⟨paid, isPaid, isStores⟩ := Option.bind_eq_some_iff.mp r
      cases isStores
      exact .changed h (.payReplaySuccess env.now sid isPaid)
  | reselect proposalId payCoinSelectionUid gid res =>
    simp only [run] at r
    split at r
    next =>
      cases r
      exact .same
    next p h =>
      rw [spendFor_purchases r, putPurchase]
      have sameKey : (p.reselect payCoinSelectionUid res).proposalId = proposalId :=
        keyed proposalId p h
      rw [sameKey]
      exact .changed h (.reselect payCoinSelectionUid gid res)
  | abort proposalId =>
    cases r
    exact modifyPurchase_stored fun p => .abort env.now

theorem Keyed.stored (keyed : stores.Keyed) {tx : Transaction}
    (stored : Stored stores.purchases tx stores'.purchases) : stores'.Keyed := by
  intro y q foundOther
  generalize stores'.purchases = buys at stored foundOther
  cases stored with
  | same => exact keyed y q foundOther
  | @changed id p p' got changed =>
    rw [Record.get?_set] at foundOther
    split at foundOther
    next same =>
      cases foundOther
      exact changed.proposalId.trans (same ▸ keyed id p got)
    next => exact keyed y q foundOther
  | recorded groupId pu isTransaction =>
    rw [Record.get?_set] at foundOther
    split at foundOther
    next same =>
      cases foundOther
      exact same.symm
    next => exact keyed y q foundOther

end PurchaseStores

end Anastasis.Wallet.Purchasing
