import Anastasis.Wallet.Purchases

/-! The calls that buy proposals, from their first read to their last transaction. -/

set_option autoImplicit false

namespace Anastasis.Wallet.Purchasing

open Library Library.Transition

inductive Point where
  | confirmPay (proposalId : String) (sessionIdOverride : Option String)
  | existingPurchase (proposal : Proposal) (download : Backup.ProposalDownload)
      (sessionIdOverride : Option String)
  | selectCoins (proposal : Proposal) (download : Backup.ProposalDownload)
      (sessionIdOverride : Option String)
  | generateDepositPermissions (proposal : Proposal) (download : Backup.ProposalDownload)
      (sessionIdOverride : Option String) (res : PayCoinSelection)
  | getTotalPaymentCost (proposal : Proposal) (download : Backup.ProposalDownload)
      (sessionIdOverride : Option String) (res : PayCoinSelection)
      (depositPermissions : List CoinDepositPermission)
  | recordConfirmPay (purchase : PurchaseRecord)
  | checkPaymentByProposalId (proposalId : String) (sessionId : Option String)
  | existingProposal (existingProposalId : String) (sessionId : Option String)
  | checkPurchase (proposalId : String) (sessionId : Option String)
  | changeSession (proposalId : String) (sessionId : Option String)
  | resetPurchasePayRetry (proposalId : String)
  | processPurchasePay (proposalId : String)
  | submitPay (proposalId : String)
  | submitPermissions (proposalId : String) (purchase : PurchaseRecord)
  -- the request waits for its lock
  | payRequest (proposalId : String) (purchase : PurchaseRecord)
      (depositPermissions : List CoinDepositPermission)
  | paidRequest (proposalId : String) (purchase : PurchaseRecord)
  -- the request has been sent
  | payResponse (proposalId : String) (purchase : PurchaseRecord)
  | paidResponse (proposalId : String) (purchase : PurchaseRecord)
  | storeFirstPaySuccess (proposalId : String) (sessionId : Option String) (paySig : String)
  | storePayReplaySuccess (proposalId : String) (sessionId : Option String)
  | freeze (proposalId err : String)
  | incrementPurchasePayRetry (proposalId : String) (err : Option String)
  | handleInsufficientFunds (proposalId brokenCoinPub : String) (insufficientFunds : Bool)
  | reselectCandidates (proposalId brokenCoinPub : String) (purchase : PurchaseRecord)
  | reselectPrevious (proposalId brokenCoinPub : String) (purchase : PurchaseRecord)
      (candidateCoins : List AvailableCoinInfo) (wireFees : List (String × AmountJson))
  | reselect (proposalId : String) (purchase : PurchaseRecord) (res : PayCoinSelection)
  | threw
  | finished

inductive PayResponse where
  | paid (sig : String)
  | noContent
  | badRequest (err : String)
  -- what the error names, and whether it is that of a deposit with insufficient funds
  | conflict (brokenCoinPub : String) (insufficientFunds : Bool)
  | serverError
  | unexpected (err : String)

inductive Answer where
  | proceed (surroundings : Surroundings)
  | drawn (surroundings : Surroundings) (uid refreshGroupId : String)
  -- the exchanges that the contract allows, with their wire fees
  | exchanges (surroundings : Surroundings) (allowed : List String)
      (wireFees : List (String × AmountJson))
  | response (response : PayResponse)
  | failure (err : String)

/-- The transaction of a step, and where the call goes on when it is done or has thrown. -/
structure Next where
  transaction : Option Transaction
  point : Point
  thrown : Point

def Next.reads (point : Point) : Next := ⟨none, point, point⟩

def Next.writes (transaction : Transaction) (point : Point) : Next :=
  ⟨some transaction, point, point⟩

def given (text : Option String) : Option String := text.filter (· ≠ "")

def Point.checked (proposal : Proposal) (sessionId : Option String) : Point :=
  match proposal.download with
  | none => .threw
  | some download =>
    if download.contractData.merchantSig = "" then .threw
    else .checkPurchase proposal.proposalId sessionId

/-- The record that `recordConfirmPay` makes. -/
def newPurchase (now : Nat) (uid : String) (proposal : Proposal)
    (download : Backup.ProposalDownload) (sessionIdOverride : Option String)
    (coinSelection : PayCoinSelection) (depositPermissions : List CoinDepositPermission)
    (payCostInfo : AmountJson) : PurchaseRecord where
  proposalId := proposal.proposalId
  noncePriv := proposal.noncePriv
  noncePub := proposal.noncePub
  download := download
  payCoinSelection := coinSelection
  payCoinSelectionUid := uid
  totalPayCost := payCostInfo
  coinDepositPermissions := some depositPermissions
  timestampAccept := now
  timestampFirstSuccessfulPay := none
  merchantPaySig := none
  lastSessionId := (given sessionIdOverride).or proposal.downloadSessionId
  paymentSubmitPending := true
  refundQueryRequested := false
  abortStatus := .none
  payRetryInfo := some (initRetryInfo now)
  payFrozen := false
  lastPayError := none
  autoRefundDeadline := none

def PurchaseRecord.hidesServerError (purchase : PurchaseRecord) : Bool :=
  (purchase.payRetryInfo.map RetryInfo.retryCounter).getD 0 ≤ 5

section Steps

variable (host : PayHost) (stores : PurchaseStores)

/-- The first transaction of `submitPay`. -/
def submit (proposalId : String) : Next :=
  match stores.purchases.get? proposalId with
  | none => .reads (.incrementPurchasePayRetry proposalId (some "Purchase not found"))
  | some purchase =>
    if purchase.abortStatus ≠ .none then
      .reads (.incrementPurchasePayRetry proposalId
        (some "not submitting payment for aborted purchase"))
    else
      match given purchase.merchantPaySig, purchase.coinDepositPermissions with
      | some _, _ => .reads (.paidRequest proposalId purchase)
      | none, some depositPermissions =>
        .reads (.payRequest proposalId purchase depositPermissions)
      | none, none => .reads (.submitPermissions proposalId purchase)

def payResponded (proposalId : String) (purchase : PurchaseRecord) : PayResponse → Point
  | .paid sig =>
    if host.isValidPaymentSignature sig purchase.contractData.contractTermsHash
        purchase.contractData.merchantPub then
      .storeFirstPaySuccess proposalId purchase.lastSessionId sig
    else .incrementPurchasePayRetry proposalId (some "merchant payment signature invalid")
  | .noContent => .incrementPurchasePayRetry proposalId (some "unexpected response")
  | .badRequest err => .freeze proposalId err
  | .conflict brokenCoinPub insufficientFunds =>
    .handleInsufficientFunds proposalId brokenCoinPub insufficientFunds
  | .serverError =>
    .incrementPurchasePayRetry proposalId
      (if purchase.hidesServerError then none else some "/pay failed")
  | .unexpected err => .incrementPurchasePayRetry proposalId (some err)

def paidResponded (proposalId : String) (purchase : PurchaseRecord) : PayResponse → Point
  | .noContent => .storePayReplaySuccess proposalId purchase.lastSessionId
  | .serverError =>
    .incrementPurchasePayRetry proposalId
      (if purchase.hidesServerError then none else some "/paid failed")
  | _ => .incrementPurchasePayRetry proposalId (some "/paid failed")

def proceed : Point → Option Next
  | .confirmPay proposalId sessionIdOverride =>
    match stores.proposals.get? proposalId with
    | none => some (.reads .threw)
    | some proposal =>
      match proposal.download with
      | none => some (.reads .threw)
      | some download => some (.reads (.existingPurchase proposal download sessionIdOverride))
  | .existingPurchase proposal download sessionIdOverride =>
    match stores.purchases.get? proposal.proposalId with
    | none => some (.reads (.selectCoins proposal download sessionIdOverride))
    | some purchase =>
      if sessionIdOverride.isSome ∧ sessionIdOverride ≠ purchase.lastSessionId then
        some (.writes (.changeSession proposal.proposalId sessionIdOverride true)
          (.submitPay proposal.proposalId))
      else some (.reads (.submitPay proposal.proposalId))
  | .generateDepositPermissions proposal download sessionIdOverride res =>
    match generateDepositPermissions host stores.wallet res download.contractData with
    | none => some (.reads .threw)
    | some depositPermissions =>
      some (.reads (.getTotalPaymentCost proposal download sessionIdOverride res
        depositPermissions))
  | .checkPaymentByProposalId proposalId sessionId =>
    match stores.proposals.get? proposalId with
    | none => some (.reads .threw)
    | some proposal =>
      if proposal.proposalStatus = .repurchase then
        match proposal.repurchaseProposalId with
        | none => some (.reads .threw)
        | some existingProposalId => some (.reads (.existingProposal existingProposalId sessionId))
      else some (.reads (.checked proposal sessionId))
  | .existingProposal existingProposalId sessionId =>
    match stores.proposals.get? existingProposalId with
    | none => some (.reads .threw)
    | some proposal => some (.reads (.checked proposal sessionId))
  | .checkPurchase proposalId sessionId =>
    match stores.purchases.get? proposalId with
    | none => some (.reads .finished)
    | some purchase =>
      if purchase.lastSessionId ≠ sessionId then
        some (.reads (.changeSession proposalId sessionId))
      else some (.reads .finished)
  | .changeSession proposalId sessionId =>
    some (.writes (.changeSession proposalId sessionId false) (.submitPay proposalId))
  | .resetPurchasePayRetry proposalId =>
    some (.writes (.resetPurchasePayRetry proposalId) (.processPurchasePay proposalId))
  | .processPurchasePay proposalId =>
    match stores.purchases.get? proposalId with
    | none => some (.reads .finished)
    | some purchase =>
      if purchase.paymentSubmitPending then some (.reads (.submitPay proposalId))
      else some (.reads .finished)
  | .submitPay proposalId => some (submit stores proposalId)
  | .submitPermissions proposalId purchase =>
    match generateDepositPermissions host stores.wallet purchase.payCoinSelection
        purchase.contractData with
    | none =>
      some (.reads (.incrementPurchasePayRetry proposalId
        (some "can't pay, allocated coin not found anymore")))
    | some depositPermissions =>
      some (.reads (.payRequest proposalId purchase depositPermissions))
  | .payRequest proposalId purchase _ => some (.reads (.payResponse proposalId purchase))
  | .paidRequest proposalId purchase => some (.reads (.paidResponse proposalId purchase))
  | .storeFirstPaySuccess proposalId sessionId paySig =>
    some (.writes (.storeFirstPaySuccess proposalId sessionId paySig) .finished)
  | .storePayReplaySuccess proposalId sessionId =>
    some
      { transaction := some (.storePayReplaySuccess proposalId sessionId)
        point := .finished
        thrown := .incrementPurchasePayRetry proposalId (some "invalid payment state") }
  | .freeze proposalId err => some (.writes (.freeze proposalId err) .threw)
  | .incrementPurchasePayRetry proposalId err =>
    some (.writes (.incrementPurchasePayRetry proposalId err) .finished)
  | .handleInsufficientFunds proposalId brokenCoinPub insufficientFunds =>
    match stores.purchases.get? proposalId with
    | none => some (.reads .finished)
    | some purchase =>
      if insufficientFunds then
        some (.reads (.reselectCandidates proposalId brokenCoinPub purchase))
      else some (.reads .threw)
  | .reselectPrevious proposalId brokenCoinPub purchase candidateCoins wireFees =>
    let prevPayCoins := previousPayCoins host stores.wallet brokenCoinPub
      purchase.payCoinSelection
    match selected (selectionRequest purchase.contractData candidateCoins wireFees
        prevPayCoins) with
    | none => some (.reads .finished)
    | some res => some (.reads (.reselect proposalId purchase res))
  | _ => none

def advance (point : Point) : Answer → Option Next
  | .proceed _ => proceed host stores point
  | .drawn surroundings uid refreshGroupId =>
    match point with
    | .getTotalPaymentCost proposal download sessionIdOverride res depositPermissions =>
      match Wallet.getTotalPaymentCost surroundings stores.wallet
          download.contractData.amount.currency res with
      | none => some (.reads .threw)
      | some payCostInfo =>
        some (.reads (.recordConfirmPay (newPurchase surroundings.now uid proposal download
          sessionIdOverride res depositPermissions payCostInfo)))
    | .recordConfirmPay purchase =>
      some
        { transaction := some (.recordConfirmPay refreshGroupId purchase)
          point := .submitPay purchase.proposalId
          thrown := .threw }
    | .reselect proposalId _ res =>
      some
        { transaction := some (.reselect proposalId uid refreshGroupId res)
          point := .finished
          thrown := .threw }
    | _ => none
  | .exchanges surroundings allowed wireFees =>
    match point with
    | .selectCoins proposal download sessionIdOverride =>
      match getCandidatePayCoins host surroundings stores.wallet allowed with
      | none => some (.reads .threw)
      | some candidateCoins =>
        match selected (selectionRequest download.contractData candidateCoins wireFees []) with
        | none => some (.reads .threw)
        | some res =>
          some (.reads (.generateDepositPermissions proposal download sessionIdOverride res))
    | .reselectCandidates proposalId brokenCoinPub purchase =>
      match getCandidatePayCoins host surroundings stores.wallet allowed with
      | none => some (.reads .threw)
      | some candidateCoins =>
        some (.reads (.reselectPrevious proposalId brokenCoinPub purchase candidateCoins
          wireFees))
    | _ => none
  | .response response =>
    match point with
    | .payResponse proposalId purchase =>
      some (.reads (payResponded host proposalId purchase response))
    | .paidResponse proposalId purchase =>
      some (.reads (paidResponded proposalId purchase response))
    | _ => none
  | .failure err =>
    match point with
    | .payResponse proposalId _ | .paidResponse proposalId _ =>
      some (.reads (.incrementPurchasePayRetry proposalId (some err)))
    | _ => none

end Steps

/-- The stores and the calls, and what has been recorded: the purchases that `confirmPay` stored,
the coins that the merchant reported, the requests that it accepted, the aborts, and the calls
during whose request the session of their purchase was changed. -/
structure PurchaseWallet where
  stores : PurchaseStores
  calls : List Point
  recorded : List String
  broken : List (String × String)
  accepted : List (String × Option String)
  aborted : List String
  overtaken : List Nat

inductive PurchaseEvent where
  | confirmPay (proposalId : String) (sessionIdOverride : Option String)
  | checkPaymentByProposalId (proposalId : String) (sessionId : Option String)
  | processPurchasePay (proposalId : String) (forceNow : Bool)
  | abortFailedPayWithRefund (surroundings : Surroundings) (proposalId : String)
  | advance (index : Nat) (answer : Answer)
  -- what other operations store
  | proposal (proposal : Proposal)
  | denomination (denom : DenominationRecord)
  | coin (coin : CoinRecord)

def Point.reports : Point → Answer → List (String × String)
  | .payResponse proposalId _, .response (.conflict brokenCoinPub _) =>
    [(proposalId, brokenCoinPub)]
  | _, _ => []

def Point.accepts : Point → Answer → List (String × Option String)
  | .payResponse proposalId purchase, .response (.paid _) => [(proposalId, purchase.lastSessionId)]
  | .paidResponse proposalId purchase, .response .noContent =>
    [(proposalId, purchase.lastSessionId)]
  | _, _ => []

/-- The purchase of a request that has been sent, until its response has been stored. -/
def Point.inFlight : Point → Option String
  | .payResponse proposalId _ | .paidResponse proposalId _ | .storeFirstPaySuccess proposalId _ _ |
    .storePayReplaySuccess proposalId _ => some proposalId
  | _ => none

def Transaction.records : Transaction → List String
  | .recordConfirmPay _ purchase => [purchase.proposalId]
  | _ => []

def Answer.surroundings : Answer → Surroundings
  | .proceed surroundings | .drawn surroundings _ _ | .exchanges surroundings _ _ => surroundings
  | .response _ | .failure _ => ⟨0, false⟩

namespace PurchaseWallet

def start : PurchaseWallet where
  stores :=
    { wallet :=
        { coins := .empty
          denominations := .empty
          refreshGroups := .empty
          withdrawalGroups := .empty
          planchets := .empty
          reserves := .empty }
      proposals := .empty
      purchases := .empty }
  calls := []
  recorded := []
  broken := []
  accepted := []
  aborted := []
  overtaken := []

variable (host : PayHost) (wallet : PurchaseWallet)

def call (point : Point) : PurchaseWallet := { wallet with calls := wallet.calls ++ [point] }

/-- The calls whose requests are in flight when the transaction changes the session. -/
def overtakes : Transaction → List Nat
  | .changeSession proposalId sessionId _ =>
    match wallet.stores.purchases.get? proposalId with
    | none => []
    | some purchase =>
      if purchase.lastSessionId = sessionId then []
      else
        (List.range wallet.calls.length).filter fun index =>
          wallet.calls[index]?.bind Point.inFlight = some proposalId
  | _ => []

def step (index : Nat) (point : Point) (answer : Answer) (next : Next) : PurchaseWallet :=
  let wallet :=
    { wallet with
      broken := wallet.broken ++ point.reports answer
      accepted := wallet.accepted ++ point.accepts answer }
  match next.transaction with
  | none => { wallet with calls := wallet.calls.set index next.point }
  | some transaction =>
    match wallet.stores.run answer.surroundings transaction with
    | none => { wallet with calls := wallet.calls.set index next.thrown }
    | some stores =>
      { wallet with
        stores := stores
        calls := wallet.calls.set index next.point
        recorded := wallet.recorded ++ transaction.records
        overtaken := wallet.overtaken ++ wallet.overtakes transaction }

def abort (surroundings : Surroundings) (proposalId : String) : PurchaseWallet :=
  match wallet.stores.purchases.get? proposalId with
  | none => wallet
  | some purchase =>
    { wallet with
      stores := wallet.stores.modifyPurchase proposalId fun p => p.abort surroundings.now
      aborted := if purchase.abortable then wallet.aborted ++ [proposalId] else wallet.aborted }

def putCoin (coin : CoinRecord) : PurchaseWallet :=
  { wallet with
    stores :=
      { wallet.stores with
        wallet :=
          { wallet.stores.wallet with
            coins := wallet.stores.wallet.coins.set coin.coinPub coin } } }

def perform : PurchaseEvent → Option PurchaseWallet
  | .confirmPay proposalId sessionIdOverride =>
    some (wallet.call (.confirmPay proposalId sessionIdOverride))
  | .checkPaymentByProposalId proposalId sessionId =>
    some (wallet.call (.checkPaymentByProposalId proposalId sessionId))
  | .processPurchasePay proposalId forceNow =>
    some (wallet.call
      (if forceNow then .resetPurchasePayRetry proposalId else .processPurchasePay proposalId))
  | .abortFailedPayWithRefund surroundings proposalId => some (wallet.abort surroundings proposalId)
  | .advance index answer => do
      let point ← wallet.calls[index]?
      let next ← advance host wallet.stores point answer
      pure (wallet.step index point answer next)
  | .proposal proposal =>
    some
      { wallet with
        stores :=
          { wallet.stores with
            proposals := wallet.stores.proposals.set proposal.proposalId proposal } }
  | .denomination denom =>
    some
      { wallet with
        stores :=
          { wallet.stores with
            wallet :=
              { wallet.stores.wallet with
                denominations := wallet.stores.wallet.denominations.set
                  (denom.exchangeBaseUrl, denom.denomPubHash) denom } } }
  | .coin coin => some (wallet.putCoin coin)

/-- Coins of other operations are new; fresh ones have no mark, and none has that of a
proposal. -/
def Foreign : PurchaseEvent → Prop
  | .coin coin => wallet.stores.wallet.coins.get? coin.coinPub = none ∧
      (coin.status = .fresh → coin.allocation = none) ∧
      ∀ proposalId, coin.allocation.map CoinAllocation.id ≠ some (allocationId proposalId)
  | _ => True

end PurchaseWallet

def PurchaseStep (host : PayHost) (wallet : PurchaseWallet) (event : PurchaseEvent)
    (next : PurchaseWallet) : Prop :=
  wallet.Foreign event ∧ wallet.perform host event = some next

end Anastasis.Wallet.Purchasing
