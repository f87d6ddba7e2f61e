import Anastasis.Wallet.Backup.Import

/-! How the contract of an order is downloaded, while other calls for the same order are made. -/

set_option autoImplicit false

namespace Anastasis.Wallet.Downloads

open Library Library.Transition

abbrev Proposal := Backup.ProposalRecord

abbrev ProposalDownload := Backup.ProposalDownload

structure PayUriResult where
  merchantBaseUrl : String
  orderId : String
  sessionId : Option String
  claimToken : Option String
  noncePriv : Option String

structure ContractTerms extends Backup.ContractTerms where
  wireFeeAmortization : Option Nat

def extractContractData (parsedContractTerms : ContractTerms)
    (contractTermsHash merchantSig : String) : Backup.WalletContractData where
  products := parsedContractTerms.products
  summaryI18n := parsedContractTerms.summaryI18n
  fulfillmentUrl := parsedContractTerms.fulfillmentUrl.getD ""
  contractTermsHash := contractTermsHash
  merchantSig := merchantSig
  merchantPub := parsedContractTerms.merchantPub
  merchant := parsedContractTerms.merchant
  amount := parsedContractTerms.amount
  orderId := parsedContractTerms.orderId
  merchantBaseUrl := parsedContractTerms.merchantBaseUrl
  summary := parsedContractTerms.summary
  autoRefund := parsedContractTerms.autoRefund
  maxWireFee :=
    parsedContractTerms.maxWireFee.getD
      (Backup.CurrencyAmount.getZero parsedContractTerms.amount.currency)
  wireFeeAmortization :=
    match parsedContractTerms.wireFeeAmortization with
    | none | some 0 => 1
    | some amortization => amortization
  payDeadline := parsedContractTerms.payDeadline
  refundDeadline := parsedContractTerms.refundDeadline
  allowedAuditors := parsedContractTerms.auditors.map fun x => ⟨x.url, x.auditorPub⟩
  allowedExchanges := parsedContractTerms.exchanges.map fun x => ⟨x.url, x.masterPub⟩
  timestamp := parsedContractTerms.timestamp
  wireMethod := parsedContractTerms.wireMethod
  wireInfoHash := parsedContractTerms.hWire
  maxDepositFee := parsedContractTerms.maxFee

structure ContractReader where
  validateForgettable : Json → Bool
  hashContractTerms : Json → String
  codecForContractTerms : Json → Option ContractTerms
  isValidContractTermsSignature : (contractTermsHash sig merchantPub : String) → Bool

namespace ContractReader

/-- The checks of a merchant's answer, with the errors after which a proposal has failed. -/
def read (reader : ContractReader) (baseUrlForDownload : String) (contractTermsRaw : Json)
    (sig : String) : Except String ProposalDownload :=
  if ¬ reader.validateForgettable contractTermsRaw then
    .error "validation for well-formedness failed"
  else
    match reader.codecForContractTerms contractTermsRaw with
    | none => .error "schema validation failed"
    | some parsedContractTerms =>
      let contractTermsHash := reader.hashContractTerms contractTermsRaw
      if ¬ reader.isValidContractTermsSignature contractTermsHash sig
          parsedContractTerms.merchantPub then
        .error "merchant's signature on contract terms is invalid"
      else if baseUrlForDownload ≠ parsedContractTerms.merchantBaseUrl then
        .error "merchant base URL mismatch"
      else
        .ok
          { contractTermsRaw := contractTermsRaw
            contractData := extractContractData parsedContractTerms contractTermsHash sig }

end ContractReader

/-- The keys and the identifier that are drawn for a new proposal. -/
structure ProposalDraw where
  proposalId : String
  noncePriv : String
  noncePub : String

namespace Proposal

variable (now : Nat) (p : Proposal)

/-- The record that `startDownloadProposal` makes; a nonce that is given is used. -/
def create (draw : ProposalDraw) (uri : PayUriResult) : Proposal where
  orderId := uri.orderId
  merchantBaseUrl := uri.merchantBaseUrl
  download := none
  proposalId := draw.proposalId
  timestamp := .at now
  noncePriv := (uri.noncePriv.filter (· ≠ "")).getD draw.noncePriv
  noncePub := some draw.noncePub
  claimToken := uri.claimToken
  proposalStatus := .downloading
  repurchaseProposalId := none
  downloadSessionId := uri.sessionId
  retryInfo := some (initRetryInfo now)
  lastError := none

/-- The proposal has been claimed with the same session, nonce and claim token. -/
def reusable (uri : PayUriResult) : Bool :=
  p.downloadSessionId = uri.sessionId ∧
    (uri.noncePriv.all fun noncePriv => noncePriv = "" ∨ p.noncePriv = noncePriv) ∧
    p.claimToken = uri.claimToken

def resetRetry : Proposal := { p with retryInfo := none }

def incrementRetry (err : String) : Proposal :=
  match p.retryInfo with
  | none => p
  | some retryInfo =>
    { p with
      retryInfo := some { retryInfo with retryCounter := retryInfo.retryCounter + 1 }
      lastError := some err }

def failPermanently (err : String) : Proposal :=
  { p with
    retryInfo := none
    lastError := some err
    proposalStatus := .permanentlyFailed }

/-- The last transaction of a download, which found this other purchase. -/
def storeDownload (download : ProposalDownload) (differentPurchase : Option String) : Proposal :=
  if p.proposalStatus ≠ .downloading then p
  else
    match differentPurchase with
    | some repurchaseProposalId =>
      { p with
        download := some download
        proposalStatus := .repurchase
        repurchaseProposalId := some repurchaseProposalId }
    | none =>
      { p with
        download := some download
        proposalStatus := .proposed }

def accept : Proposal :=
  { p with
    proposalStatus := .accepted
    lastError := none
    retryInfo := some (initRetryInfo now) }

def refuse : Proposal :=
  if p.proposalStatus = .proposed then { p with proposalStatus := .refused } else p

end Proposal

inductive Point where
  | startDownloadProposal (uri : PayUriResult)
  | createProposal (uri : PayUriResult)
  | resetDownloadProposalRetry (proposalId : String)
  | processDownloadProposal (proposalId : String)
  | claimRequest (proposalId : String) (proposal : Proposal)
  | failProposalPermanently (proposalId err : String)
  | storeProposal (proposalId : String) (download : ProposalDownload)
  | incrementProposalRetry (proposalId err : String)
  | checkPaymentByProposalId (proposalId : String)
  | existingProposal (existingProposalId : String)
  | confirmPay (proposalId : String)
  | existingPurchase (proposalId : String) (download : ProposalDownload)
  | recordConfirmPay (proposalId : String) (download : ProposalDownload)
  | threw
  | finished

inductive Answer where
  | proceed (now : Nat)
  | drawn (now : Nat) (draw : ProposalDraw)
  | claimed (contractTermsRaw : Json) (sig : String)
  -- a request, or something else that may throw, has failed
  | failure (err : String)

/-- The stores, with the proposals whose contract has been written. Of a purchase its
contract is kept here. -/
structure ProposalStores where
  proposals : SortedMap String Proposal
  purchases : SortedMap String ProposalDownload
  written : List String

namespace ProposalStores

variable (stores : ProposalStores)

def byUrlAndOrderId (merchantBaseUrl orderId : String) : Option Proposal :=
  stores.proposals.values.find? fun proposal =>
    proposal.merchantBaseUrl = merchantBaseUrl ∧ proposal.orderId = orderId

def byFulfillmentUrl (fulfillmentUrl : String) : Option String :=
  (stores.purchases.entries.find? fun entry =>
    entry.2.contractData.fulfillmentUrl = fulfillmentUrl).map Prod.fst

def modifyProposal (proposalId : String) (change : Proposal → Proposal) : ProposalStores :=
  match stores.proposals.get? proposalId with
  | none => stores
  | some p => { stores with proposals := stores.proposals.insert proposalId (change p) }

def addProposal (proposalRecord : Proposal) : ProposalStores :=
  match stores.byUrlAndOrderId proposalRecord.merchantBaseUrl proposalRecord.orderId with
  | some _ => stores
  | none =>
    { stores with
      proposals := stores.proposals.insert proposalRecord.proposalId proposalRecord }

def differentPurchase (download : ProposalDownload) : Option String :=
  let fulfillmentUrl := download.contractData.fulfillmentUrl
  if "http://".toList.isPrefixOf fulfillmentUrl.toList ∨
      "https://".toList.isPrefixOf fulfillmentUrl.toList then
    stores.byFulfillmentUrl fulfillmentUrl
  else none

def storeDownload (proposalId : String) (download : ProposalDownload) : ProposalStores :=
  match stores.proposals.get? proposalId with
  | none => stores
  | some p =>
    { stores with
      proposals := stores.proposals.insert proposalId
        (Proposal.storeDownload p download (stores.differentPurchase download))
      written :=
        if p.proposalStatus = .downloading then stores.written ++ [proposalId]
        else stores.written }

def recordPurchase (now : Nat) (proposalId : String) (download : ProposalDownload) :
    ProposalStores :=
  { stores.modifyProposal proposalId (Proposal.accept now) with
    purchases := stores.purchases.insert proposalId download }

end ProposalStores

/-- Where a call goes on after the download of the proposal, made for a payment or not. -/
def Point.processed (preparing : Bool) (proposalId : String) : Point :=
  if preparing then .checkPaymentByProposalId proposalId else .finished

def Point.checked (proposal : Proposal) : Point :=
  match proposal.download with
  | none => .threw
  | some download => if download.contractData.merchantSig = "" then .threw else .finished

def advance (reader : ContractReader) (stores : ProposalStores) (preparing : Bool) (point : Point)
    (answer : Answer) : Option (ProposalStores × Point) :=
  match answer with
  | .drawn now draw =>
    match point with
    | .createProposal uri =>
      some (stores.addProposal (Proposal.create now draw uri),
        .processDownloadProposal draw.proposalId)
    | _ => none
  | .claimed contractTermsRaw sig =>
    match point with
    | .claimRequest proposalId proposal =>
      match reader.read proposal.merchantBaseUrl contractTermsRaw sig with
      | .error err => some (stores, .failProposalPermanently proposalId err)
      | .ok download => some (stores, .storeProposal proposalId download)
    | _ => none
  | .failure err =>
    match point with
    | .claimRequest proposalId _ => some (stores, .incrementProposalRetry proposalId err)
    | .createProposal _ | .recordConfirmPay _ _ => some (stores, .threw)
    | _ => none
  | .proceed now =>
    match point with
    | .startDownloadProposal uri =>
      match stores.byUrlAndOrderId uri.merchantBaseUrl uri.orderId with
      | none => some (stores, .createProposal uri)
      | some oldProposal =>
        if Proposal.reusable oldProposal uri then
          some (stores, .processDownloadProposal oldProposal.proposalId)
        else some (stores, .createProposal uri)
    | .resetDownloadProposalRetry proposalId =>
      some (stores.modifyProposal proposalId Proposal.resetRetry,
        .processDownloadProposal proposalId)
    | .processDownloadProposal proposalId =>
      match stores.proposals.get? proposalId with
      | none => some (stores, .processed preparing proposalId)
      | some proposal =>
        if proposal.proposalStatus = .downloading then
          some (stores, .claimRequest proposalId proposal)
        else some (stores, .processed preparing proposalId)
    | .failProposalPermanently proposalId err =>
      some (stores.modifyProposal proposalId fun p => Proposal.failPermanently p err, .threw)
    | .storeProposal proposalId download =>
      some (stores.storeDownload proposalId download, .processed preparing proposalId)
    | .incrementProposalRetry proposalId err =>
      some (stores.modifyProposal proposalId fun p => Proposal.incrementRetry p err, .threw)
    | .checkPaymentByProposalId proposalId =>
      match stores.proposals.get? proposalId with
      | none => some (stores, .threw)
      | some proposal =>
        if proposal.proposalStatus = .repurchase then
          match proposal.repurchaseProposalId with
          | none => some (stores, .threw)
          | some existingProposalId => some (stores, .existingProposal existingProposalId)
        else some (stores, .checked proposal)
    | .existingProposal existingProposalId =>
      match stores.proposals.get? existingProposalId with
      | none => some (stores, .threw)
      | some proposal => some (stores, .checked proposal)
    | .confirmPay proposalId =>
      match (stores.proposals.get? proposalId).bind Backup.ProposalRecord.download with
      | none => some (stores, .threw)
      | some download => some (stores, .existingPurchase proposalId download)
    | .existingPurchase proposalId download =>
      match stores.purchases.get? proposalId with
      | some _ => some (stores, .finished)
      | none => some (stores, .recordConfirmPay proposalId download)
    | .recordConfirmPay proposalId download =>
      some (stores.recordPurchase now proposalId download, .finished)
    | _ => none

/-- A call under way; `preparing` is that of a payment's page. -/
structure Call where
  preparing : Bool
  point : Point

structure ProposalWallet where
  stores : ProposalStores
  calls : List Call

inductive ProposalEvent where
  | preparePayForUri (uri : PayUriResult)
  | processDownloadProposal (proposalId : String) (forceNow : Bool)
  | confirmPay (proposalId : String)
  | refuseProposal (proposalId : String)
  | advance (index : Nat) (answer : Answer)

namespace ProposalWallet

def start : ProposalWallet where
  stores :=
    { proposals := .empty
      purchases := .empty
      written := [] }
  calls := []

variable (reader : ContractReader) (wallet : ProposalWallet)

def begin (preparing : Bool) (point : Point) : ProposalWallet :=
  { wallet with
    calls := wallet.calls ++
      [{ preparing := preparing
         point := point }] }

def perform : ProposalEvent → Option ProposalWallet
  | .preparePayForUri uri => some (wallet.begin true (.startDownloadProposal uri))
  | .processDownloadProposal proposalId forceNow =>
    some (wallet.begin false
      (if forceNow then .resetDownloadProposalRetry proposalId
      else .processDownloadProposal proposalId))
  | .confirmPay proposalId => some (wallet.begin false (.confirmPay proposalId))
  | .refuseProposal proposalId =>
    some
      { wallet with
        stores := wallet.stores.modifyProposal proposalId Proposal.refuse }
  | .advance index answer => do
      let call ← wallet.calls[index]?
      let (stores, point) ← advance reader wallet.stores call.preparing call.point answer
      pure
        { stores := stores
          calls := wallet.calls.set index { call with point := point } }

def New : ProposalEvent → Prop
  | .advance _ (.drawn _ draw) => wallet.stores.proposals.get? draw.proposalId = none
  | _ => True

end ProposalWallet

def ProposalStep (reader : ContractReader) (wallet : ProposalWallet) (event : ProposalEvent)
    (next : ProposalWallet) : Prop :=
  wallet.New event ∧ wallet.perform reader event = some next

end Anastasis.Wallet.Downloads
