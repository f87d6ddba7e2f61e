import Anastasis.Wallet.PaymentCost
import Anastasis.Wallet.PurchaseCalls

/-! Which sessions a payment has been submitted for. -/

set_option autoImplicit false

namespace Anastasis.Wallet.Purchasing

open Library Library.Transition List Option

/-! ## The calls -/

/-- The session that is stored with the next transaction, after a success. -/
def Point.storing : Point → Option (String × Option String)
  | .storeFirstPaySuccess proposalId sessionId _ | .storePayReplaySuccess proposalId sessionId =>
    some (proposalId, sessionId)
  | _ => none

/-- The purchase that has been read for a request that is not sent yet. -/
def Point.unsent : Point → Option String
  | .submitPermissions proposalId _ | .payRequest proposalId _ _ | .paidRequest proposalId _ =>
    some proposalId
  | _ => none

def Point.recording : Point → Option PurchaseRecord
  | .recordConfirmPay purchase => some purchase
  | _ => none

def Point.Sent : Point → Prop
  | .payResponse _ _ | .paidResponse _ _ | .storeFirstPaySuccess _ _ _ |
    .storePayReplaySuccess _ _ | .freeze _ _ | .incrementPurchasePayRetry _ _ |
    .handleInsufficientFunds _ _ _ | .reselectCandidates _ _ _ | .reselectPrevious _ _ _ _ _ |
    .reselect _ _ _ | .threw | .finished => True
  | _ => False

def Transaction.From (point : Point) : Transaction → Prop
  | .changeSession proposalId sessionId submit =>
    (point = .changeSession proposalId sessionId ∧ submit = false) ∨
      ∃ proposal download, point = .existingPurchase proposal download sessionId ∧
        proposalId = proposal.proposalId ∧ submit = true ∧ sessionId.isSome = true
  | .recordConfirmPay _ purchase => point = .recordConfirmPay purchase
  | .storeFirstPaySuccess proposalId sessionId paySig =>
    point = .storeFirstPaySuccess proposalId sessionId paySig
  | .storePayReplaySuccess proposalId sessionId =>
    point = .storePayReplaySuccess proposalId sessionId
  | .reselect proposalId _ _ res => ∃ purchase, point = .reselect proposalId purchase res
  | .abort _ => False
  | _ => True

/-- What is common to the points after a step, whether its transaction is done or has thrown. -/
structure Follows (stores : PurchaseStores) (point : Point) (answer : Answer) (next : Point) :
    Prop where
  storing : ∀ request, next.storing = some request → request ∈ point.accepts answer
  unsent : ∀ proposalId, next.unsent = some proposalId → point.unsent = some proposalId ∨
    ∃ p, stores.purchases.get? proposalId = some p ∧ p.abortStatus = .none
  sent : point.Sent → next.Sent
  recording : ∀ purchase, next.recording = some purchase → purchase.paymentSubmitPending = true

structure Advanced (stores : PurchaseStores) (point : Point) (answer : Answer) (next : Next) :
    Prop where
  done : Follows stores point answer next.point
  thrown : Follows stores point answer next.thrown
  transaction : ∀ transaction, next.transaction = some transaction → transaction.From point

variable {host : PayHost} {stores : PurchaseStores} {point : Point} {answer ans : Answer}

variable {next : Point}

theorem Follows.plain (storing : next.storing = none) (unsent : next.unsent = none)
    (recording : next.recording = none) (sent : point.Sent → next.Sent) :
    Follows stores point answer next := by
  constructor
  · intro req isRequest
    cases storing.symm.trans isRequest
  · intro propId isUnsent
    cases unsent.symm.trans isUnsent
  · exact sent
  · intro purchase isRecording
    cases recording.symm.trans isRecording

theorem Follows.reading {propId : String} (storing : next.storing = none)
    (recording : next.recording = none) (isUnsent : next.unsent = some propId)
    (read : point.unsent = some propId ∨ ∃ p, stores.purchases.get? propId = some p ∧
      p.abortStatus = .none) (sent : point.Sent → next.Sent) :
    Follows stores point answer next := by
  constructor
  · intro req isRequest
    cases storing.symm.trans isRequest
  · intro y unsent
    cases isUnsent.symm.trans unsent
    exact read
  · exact sent
  · intro purchase isRecording
    cases recording.symm.trans isRecording

theorem Follows.success {req : String × Option String}
    (isRequest : next.storing = some req) (unsent : next.unsent = none)
    (recording : next.recording = none) (ok : req ∈ point.accepts answer)
    (sent : next.Sent) : Follows stores point answer next := by
  constructor
  · intro y storing
    cases isRequest.symm.trans storing
    exact ok
  · intro propId isUnsent
    cases unsent.symm.trans isUnsent
  · exact fun _ => sent
  · intro purchase isRecording
    cases recording.symm.trans isRecording

theorem Follows.making {purchase : PurchaseRecord} (storing : next.storing = none)
    (unsent : next.unsent = none) (isRecording : next.recording = some purchase)
    (due : purchase.paymentSubmitPending = true) (sent : point.Sent → next.Sent) :
    Follows stores point answer next := by
  constructor
  · intro req isRequest
    cases storing.symm.trans isRequest
  · intro propId isUnsent
    cases unsent.symm.trans isUnsent
  · exact sent
  intro y recording
  cases isRecording.symm.trans recording
  exact due

theorem Advanced.reads {next : Point} (follows : Follows stores point ans next) :
    Advanced stores point ans (.reads next) := by
  refine ⟨follows, follows, ?_⟩
  intro transaction eq
  have absent : (none : Option Transaction) = some transaction := eq
  exact absurd absent (some_ne_none transaction).symm

theorem Advanced.writes {tx : Transaction} (follows : Follows stores point ans next)
    (isFrom : tx.From point) : Advanced stores point ans (.writes tx next) := by
  refine ⟨follows, follows, ?_⟩
  intro y eq
  cases eq
  exact isFrom

theorem submit_advanced (ans : Answer) (propId : String) :
    Advanced stores (.submitPay propId) ans (submit stores propId) := by
  unfold submit
  split
  next => exact .reads (.plain rfl rfl rfl nofun)
  next purchase h =>
    split
    next => exact .reads (.plain rfl rfl rfl nofun)
    next notAborted =>
      have isRead : ∃ p, stores.purchases.get? propId = some p ∧ p.abortStatus = .none :=
        ⟨purchase, h, not_not.mp notAborted⟩
      split
      · exact .reads (.reading rfl rfl rfl (.inr isRead) nofun)
      · exact .reads (.reading rfl rfl rfl (.inr isRead) nofun)
      · exact .reads (.reading rfl rfl rfl (.inr isRead) nofun)

variable {sessionId : Option String}

theorem checked_advanced {prop : Proposal} (unsent : ¬ point.Sent) :
    Advanced stores point ans (.reads (.checked prop sessionId)) := by
  apply Advanced.reads
  unfold Point.checked
  split
  · exact .plain rfl rfl rfl fun sent => absurd sent unsent
  split
  · exact .plain rfl rfl rfl fun sent => absurd sent unsent
  · exact .plain rfl rfl rfl fun sent => absurd sent unsent

theorem proceed_advanced {env : Surroundings} {next : Next}
    (r : proceed host stores point = some next) : Advanced stores point (.proceed env) next := by
  have reads : ∀ {goal : Point}, some (Next.reads goal) = some next →
      Follows stores point (.proceed env) goal → Advanced stores point (.proceed env) next := by
    intro goal eq follows
    cases eq
    exact .reads follows
  cases point with
  | confirmPay propId sessionIdOverride =>
    simp only [proceed] at r
    split at r
    · exact reads r (.plain rfl rfl rfl (by rintro ⟨⟩))
    split at r
    · exact reads r (.plain rfl rfl rfl (by rintro ⟨⟩))
    · exact reads r (.plain rfl rfl rfl (by rintro ⟨⟩))
  | existingPurchase prop download sessionIdOverride =>
    simp only [proceed] at r
    split at r
    · exact reads r (.plain rfl rfl rfl (by rintro ⟨⟩))
    split at r
    next overrides =>
      cases r
      exact .writes (.plain rfl rfl rfl (by rintro ⟨⟩))
        (.inr ⟨prop, download, rfl, rfl, rfl, overrides.1⟩)
    next => exact reads r (.plain rfl rfl rfl (by rintro ⟨⟩))
  | generateDepositPermissions prop download sessionIdOverride res =>
    simp only [proceed] at r
    split at r
    · exact reads r (.plain rfl rfl rfl (by rintro ⟨⟩))
    · exact reads r (.plain rfl rfl rfl (by rintro ⟨⟩))
  | checkPaymentByProposalId propId sessionId =>
    simp only [proceed] at r
    split at r
    · exact reads r (.plain rfl rfl rfl (by rintro ⟨⟩))
    split at r
    · split at r
      · exact reads r (.plain rfl rfl rfl (by rintro ⟨⟩))
      · exact reads r (.plain rfl rfl rfl (by rintro ⟨⟩))
    · cases r
      exact checked_advanced (by rintro ⟨⟩)
  | existingProposal existingProposalId sessionId =>
    simp only [proceed] at r
    split at r
    · exact reads r (.plain rfl rfl rfl (by rintro ⟨⟩))
    · cases r
      exact checked_advanced (by rintro ⟨⟩)
  | checkPurchase propId sessionId =>
    simp only [proceed] at r
    split at r
    · exact reads r (.plain rfl rfl rfl (by rintro ⟨⟩))
    split at r
    · exact reads r (.plain rfl rfl rfl (by rintro ⟨⟩))
    · exact reads r (.plain rfl rfl rfl (by rintro ⟨⟩))
  | changeSession propId sessionId =>
    cases r
    exact .writes (.plain rfl rfl rfl (by rintro ⟨⟩)) (.inl ⟨rfl, rfl⟩)
  | resetPurchasePayRetry propId =>
    cases r
    exact .writes (.plain rfl rfl rfl (by rintro ⟨⟩)) trivial
  | processPurchasePay propId =>
    simp only [proceed] at r
    split at r
    · exact reads r (.plain rfl rfl rfl (by rintro ⟨⟩))
    split at r
    · exact reads r (.plain rfl rfl rfl (by rintro ⟨⟩))
    · exact reads r (.plain rfl rfl rfl (by rintro ⟨⟩))
  | submitPay propId =>
    cases r
    exact submit_advanced _ propId
  | submitPermissions propId purchase =>
    simp only [proceed] at r
    split at r
    · exact reads r (.plain rfl rfl rfl (by rintro ⟨⟩))
    · exact reads r (.reading rfl rfl rfl (.inl rfl) (by rintro ⟨⟩))
  | payRequest propId purchase depositPermissions =>
    exact reads r (.plain rfl rfl rfl (by rintro ⟨⟩))
  | paidRequest propId purchase => exact reads r (.plain rfl rfl rfl (by rintro ⟨⟩))
  | storeFirstPaySuccess propId sessionId paySig =>
    cases r
    exact .writes (.plain rfl rfl rfl fun _ => trivial) rfl
  | storePayReplaySuccess propId sessionId =>
    cases r
    refine ⟨.plain rfl rfl rfl fun _ => trivial, .plain rfl rfl rfl fun _ => trivial, ?_⟩
    intro tx eq
    cases eq
    rfl
  | freeze propId err =>
    cases r
    exact .writes (.plain rfl rfl rfl fun _ => trivial) trivial
  | incrementPurchasePayRetry propId err =>
    cases r
    exact .writes (.plain rfl rfl rfl fun _ => trivial) trivial
  | handleInsufficientFunds propId brokenCoinPub insufficientFunds =>
    simp only [proceed] at r
    split at r
    · exact reads r (.plain rfl rfl rfl fun _ => trivial)
    split at r
    · exact reads r (.plain rfl rfl rfl fun _ => trivial)
    · exact reads r (.plain rfl rfl rfl fun _ => trivial)
  | reselectPrevious propId brokenCoinPub purchase candidateCoins wireFees =>
    simp only [proceed] at r
    split at r
    · exact reads r (.plain rfl rfl rfl fun _ => trivial)
    · exact reads r (.plain rfl rfl rfl fun _ => trivial)
  | _ => cases r

theorem payResponded_follows (propId : String) (purchase : PurchaseRecord)
    (resp : PayResponse) : Follows stores (.payResponse propId purchase)
      (.response resp) (payResponded host propId purchase resp) := by
  cases resp with
  | paid sig =>
    simp only [payResponded]
    split
    · exact .success rfl rfl rfl (mem_singleton_self _) trivial
    · exact .plain rfl rfl rfl fun _ => trivial
  | _ => exact .plain rfl rfl rfl fun _ => trivial

theorem paidResponded_follows (propId : String) (purchase : PurchaseRecord)
    (resp : PayResponse) : Follows stores (.paidResponse propId purchase)
      (.response resp) (paidResponded propId purchase resp) := by
  cases resp with
  | noContent =>
    exact .success rfl rfl rfl (mem_singleton_self _) trivial
  | _ => exact .plain rfl rfl rfl fun _ => trivial

theorem advance_advanced {next : Next} (ran : advance host stores point answer = some next) :
    Advanced stores point answer next := by
  have reads : ∀ {goal : Point}, some (Next.reads goal) = some next →
      Follows stores point answer goal → Advanced stores point answer next := by
    intro goal eq follows
    cases eq
    exact .reads follows
  cases answer with
  | proceed env => exact proceed_advanced ran
  | drawn env uid groupId =>
    cases point with
    | getTotalPaymentCost prop download sessionIdOverride res depositPermissions =>
      simp only [advance] at ran
      split at ran
      · exact reads ran (.plain rfl rfl rfl nofun)
      · exact reads ran (.making rfl rfl rfl rfl nofun)
    | recordConfirmPay purchase =>
      cases ran
      refine ⟨.plain rfl rfl rfl nofun, .plain rfl rfl rfl nofun, ?_⟩
      intro tx eq
      cases eq
      rfl
    | reselect propId purchase res =>
      cases ran
      refine ⟨.plain rfl rfl rfl fun _ => trivial, .plain rfl rfl rfl fun _ => trivial, ?_⟩
      intro tx eq
      cases eq
      exact ⟨purchase, rfl⟩
    | _ => cases ran
  | exchanges env allowed wireFees =>
    cases point with
    | selectCoins prop download sessionIdOverride =>
      simp only [advance] at ran
      split at ran
      · exact reads ran (.plain rfl rfl rfl nofun)
      split at ran
      · exact reads ran (.plain rfl rfl rfl nofun)
      · exact reads ran (.plain rfl rfl rfl nofun)
    | reselectCandidates propId brokenCoinPub purchase =>
      simp only [advance] at ran
      split at ran
      · exact reads ran (.plain rfl rfl rfl fun _ => trivial)
      · exact reads ran (.plain rfl rfl rfl fun _ => trivial)
    | _ => cases ran
  | response response =>
    cases point with
    | payResponse propId purchase =>
      exact reads ran (payResponded_follows propId purchase response)
    | paidResponse propId purchase =>
      exact reads ran (paidResponded_follows propId purchase response)
    | _ => cases ran
  | failure err =>
    cases point with
    | payResponse propId purchase =>
      exact reads ran (.plain rfl rfl rfl fun _ => trivial)
    | paidResponse propId purchase =>
      exact reads ran (.plain rfl rfl rfl fun _ => trivial)
    | _ => cases ran

/-! ## The purchases -/

/-- A paid purchase that is not to be submitted has been accepted with its session. -/
def PurchaseRecord.Submitted (accepted : List (String × Option String)) (proposalId : String)
    (p : PurchaseRecord) : Prop :=
  p.paymentSubmitPending = false → p.timestampFirstSuccessfulPay.isSome = true →
    (proposalId, p.lastSessionId) ∈ accepted

variable {accepted ok : List (String × Option String)} {proposalId id propId : String} {p p' : PurchaseRecord}
  {transaction : Transaction}

theorem firstPaySuccess_submitted (now : Nat) (paySig : String)
    (pre : p.Submitted accepted proposalId) (isAccepted : (proposalId, sessionId) ∈ accepted) :
    (p.firstPaySuccess now sessionId paySig).Submitted accepted proposalId := by
  unfold PurchaseRecord.firstPaySuccess
  split
  · exact pre
  dsimp only
  split
  · exact fun _ _ => isAccepted
  · exact fun _ _ => isAccepted

theorem payReplaySuccess_submitted {now : Nat} (paid : p.payReplaySuccess now sessionId = some p')
    (isAccepted : (proposalId, sessionId) ∈ accepted) : p'.Submitted accepted proposalId := by
  unfold PurchaseRecord.payReplaySuccess at paid
  split at paid
  · cases paid
  · cases paid
    exact fun _ _ => isAccepted

theorem abort_submitted (now : Nat) (pre : p.Submitted accepted proposalId) :
    (p.abort now).Submitted accepted proposalId := by
  unfold PurchaseRecord.abort
  split
  next abortable =>
    intro _ paid
    have unpaid : p.timestampFirstSuccessfulPay.isNone = true :=
      (Bool.and_eq_true_iff.mp abortable).1
    rw [isNone_iff_eq_none.mp unpaid] at paid
    cases paid
  next => exact pre

/-- A change of the session without a new submission is fine before the first success, while a
submission is pending, and for a session that has been accepted. -/
def PurchaseRecord.MayChange (accepted : List (String × Option String)) (proposalId : String)
    (sessionId : Option String) (p : PurchaseRecord) : Prop :=
  p.paymentSubmitPending = true ∨ p.timestampFirstSuccessfulPay = none ∨
    (proposalId, sessionId) ∈ accepted

theorem Changed.submitted (changed : Changed proposalId p transaction p')
    (pre : p.Submitted accepted proposalId)
    (x : ∀ sessionId paySig, transaction = .storeFirstPaySuccess proposalId sessionId paySig →
      (proposalId, sessionId) ∈ accepted)
    (replay : ∀ sessionId, transaction = .storePayReplaySuccess proposalId sessionId →
      (proposalId, sessionId) ∈ accepted)
    (ses : ∀ sessionId, transaction = .changeSession proposalId sessionId false →
      p.lastSessionId ≠ sessionId → p.MayChange accepted proposalId sessionId) :
    p'.Submitted accepted proposalId := by
  cases changed with
  | changeSession sessionId submit =>
    intro done paid
    have notPending : (p.paymentSubmitPending || submit) = false := done
    obtain ⟨notPending, notSubmit⟩ := Bool.or_eq_false_iff.mp notPending
    by_cases eq : p.lastSessionId = sessionId
    · have isAccepted := pre notPending paid
      rw [eq] at isAccepted
      exact isAccepted
    rcases ses sessionId (by rw [notSubmit]) eq with due | unpaid | isAccepted
    · cases due.symm.trans notPending
    · have isPaid : p.timestampFirstSuccessfulPay.isSome = true := paid
      rw [unpaid] at isPaid
      cases isPaid
    · exact isAccepted
  | firstPaySuccess now sessionId paySig =>
    exact firstPaySuccess_submitted now paySig pre (x sessionId paySig rfl)
  | payReplaySuccess now sessionId paid =>
    exact payReplaySuccess_submitted paid (replay sessionId rfl)
  | abort now => exact abort_submitted now pre
  | _ => exact pre

theorem Changed.lastSessionId (changed : Changed propId p transaction p')
    (x : ∀ sessionId paySig, transaction ≠ .storeFirstPaySuccess propId sessionId paySig)
    (replay : ∀ sessionId, transaction ≠ .storePayReplaySuccess propId sessionId)
    (ses : ∀ sessionId submit, transaction ≠ .changeSession propId sessionId submit) :
    p'.lastSessionId = p.lastSessionId := by
  cases changed with
  | changeSession sessionId submit => exact absurd rfl (ses sessionId submit)
  | firstPaySuccess now sessionId paySig => exact absurd rfl (x sessionId paySig)
  | payReplaySuccess now sessionId paid => exact absurd rfl (replay sessionId)
  | abort now =>
    unfold PurchaseRecord.abort
    split <;> rfl
  | _ => rfl

theorem Changed.aborted (changed : Changed propId p transaction p')
    (aborted : p.abortStatus ≠ .none) : p'.abortStatus ≠ .none := by
  cases changed with
  | firstPaySuccess now sessionId paySig =>
    unfold PurchaseRecord.firstPaySuccess
    split
    · exact aborted
    dsimp only
    split
    · exact aborted
    · exact aborted
  | payReplaySuccess now sessionId paid =>
    unfold PurchaseRecord.payReplaySuccess at paid
    split at paid
    · cases paid
    · cases paid
      exact aborted
  | abort now =>
    unfold PurchaseRecord.abort
    split
    · nofun
    · exact aborted
  | _ => exact aborted

/-! ## Runs -/

namespace PurchaseWallet

variable (wallet : PurchaseWallet)

structure SessionsSound : Prop where
  keyed : wallet.stores.Keyed
  submitted : ∀ proposalId p, wallet.stores.purchases.get? proposalId = some p →
    p.Submitted wallet.accepted proposalId
  storing : ∀ point ∈ wallet.calls, ∀ request, point.storing = some request →
    request ∈ wallet.accepted
  aborted : ∀ proposalId ∈ wallet.aborted,
    ∃ p, wallet.stores.purchases.get? proposalId = some p ∧ p.abortStatus ≠ .none
  unsent : ∀ point ∈ wallet.calls, ∀ proposalId, point.unsent = some proposalId →
    proposalId ∉ wallet.aborted
  recording : ∀ point ∈ wallet.calls, ∀ purchase, point.recording = some purchase →
    purchase.paymentSubmitPending = true
  overtaken : ∀ index ∈ wallet.overtaken,
    ∃ point, wallet.calls[index]? = some point ∧ point.Sent ∧ point.storing = none

/-- A success has come back for the purchase, and is about to be stored. -/
def Storing (proposalId : String) : Prop :=
  ∃ point ∈ wallet.calls, ∃ sessionId, point.storing = some (proposalId, sessionId)

/-- A purchase is recorded once; its session is changed without a submission only where it may be,
and not while a success is stored; no success comes back for a request during which the session
was changed; and no purchase is aborted between its last check and the request. -/
def SessionCondition : PurchaseEvent → Prop
  | .abortFailedPayWithRefund _ proposalId =>
    ∀ p, wallet.stores.purchases.get? proposalId = some p → p.abortable = true →
      ∀ point ∈ wallet.calls, point.unsent ≠ some proposalId
  | .advance index answer => ∀ point, wallet.calls[index]? = some point →
      (point.accepts answer ≠ [] → index ∉ wallet.overtaken) ∧
        (∀ purchase, point = .recordConfirmPay purchase →
          wallet.stores.purchases.get? purchase.proposalId = none) ∧
        (∀ proposalId sessionId p, point = .changeSession proposalId sessionId →
          wallet.stores.purchases.get? proposalId = some p → p.lastSessionId ≠ sessionId →
            ¬ wallet.Storing proposalId ∧ p.MayChange wallet.accepted proposalId sessionId) ∧
        (∀ proposal download sessionId p, point = .existingPurchase proposal download sessionId →
          wallet.stores.purchases.get? proposal.proposalId = some p → sessionId.isSome = true →
            p.lastSessionId ≠ sessionId → ¬ wallet.Storing proposal.proposalId)
  | _ => True

variable {wallet}

theorem start_sessionsSound : start.SessionsSound := by
  constructor
  · exact fun _ _ h => nomatch h
  · exact fun _ _ h => nomatch h
  · exact fun _ mem => nomatch mem
  · exact fun _ mem => nomatch mem
  · exact fun _ mem => nomatch mem
  · exact fun _ mem => nomatch mem
  · exact fun _ mem => nomatch mem

theorem inFlight_sent {point : Point} {propId : String}
    (inFlight : point.inFlight = some propId) : point.Sent := by
  cases point with
  | payResponse => exact trivial
  | paidResponse => exact trivial
  | storeFirstPaySuccess => exact trivial
  | storePayReplaySuccess => exact trivial
  | _ => cases inFlight

theorem storing_inFlight {point : Point} {req : String × Option String}
    (storing : point.storing = some req) : point.inFlight = some req.1 := by
  cases point with
  | storeFirstPaySuccess =>
    cases storing
    rfl
  | storePayReplaySuccess =>
    cases storing
    rfl
  | _ => cases storing

def goesOn (wallet : PurchaseWallet) (index : Nat) (point : Point) (answer : Answer)
    (goal : Point) : PurchaseWallet :=
  { wallet with
    broken := wallet.broken ++ point.reports answer
    accepted := wallet.accepted ++ point.accepts answer
    calls := wallet.calls.set index goal }

variable {index idx : Nat}

theorem goesOn_sessionsSound (sound : wallet.SessionsSound) {point goal : Point} {ans : Answer}
    (isPoint : wallet.calls[idx]? = some point) (follows : Follows wallet.stores point ans goal)
    (accepts : point.accepts ans ≠ [] → idx ∉ wallet.overtaken) :
    (wallet.goesOn idx point ans goal).SessionsSound := by
  have mem := mem_of_getElem? isPoint
  constructor
  · exact sound.keyed
  · intro propId p h done paid
    exact mem_append_left _ (sound.submitted propId p h done paid)
  · intro y isOther req storing
    rcases mem_or_eq_of_mem_set isOther with pre | eq
    · exact mem_append_left _ (sound.storing y pre req storing)
    · exact mem_append_right _ (follows.storing req (eq ▸ storing))
  · exact sound.aborted
  · intro y isOther propId unsent
    rcases mem_or_eq_of_mem_set isOther with pre | eq
    · exact sound.unsent y pre propId unsent
    rcases follows.unsent propId (eq ▸ unsent) with pre | ⟨p, h, notAborted⟩
    · exact sound.unsent point mem propId pre
    intro aborted
    obtain ⟨q, got, isAborted⟩ := sound.aborted propId aborted
    cases h.symm.trans got
    exact isAborted notAborted
  · intro y isOther purchase recording
    rcases mem_or_eq_of_mem_set isOther with pre | eq
    · exact sound.recording y pre purchase recording
    · exact follows.recording purchase (eq ▸ recording)
  · intro y isOvertaken
    obtain ⟨overtaken, isCall, sent, notStoring⟩ := sound.overtaken y isOvertaken
    by_cases eq : idx = y
    · cases eq
      cases isPoint.symm.trans isCall
      refine ⟨goal, getElem?_set_self (List.getElem?_eq_some_iff.mp isPoint).1,
        follows.sent sent, ?_⟩
      cases storing : goal.storing with
      | none => rfl
      | some req =>
        have isAccepted := follows.storing req storing
        exact absurd isOvertaken (accepts (ne_nil_of_mem isAccepted))
    · exact ⟨overtaken, (getElem?_set_ne eq).trans isCall, sent, notStoring⟩

structure Transacts (wallet : PurchaseWallet) (transaction : Transaction) : Prop where
  first : ∀ proposalId sessionId paySig,
    transaction = .storeFirstPaySuccess proposalId sessionId paySig →
      (proposalId, sessionId) ∈ wallet.accepted
  replay : ∀ proposalId sessionId, transaction = .storePayReplaySuccess proposalId sessionId →
    (proposalId, sessionId) ∈ wallet.accepted
  session : ∀ proposalId sessionId p, transaction = .changeSession proposalId sessionId false →
    wallet.stores.purchases.get? proposalId = some p → p.lastSessionId ≠ sessionId →
      p.MayChange wallet.accepted proposalId sessionId
  recorded : ∀ refreshGroupId purchase, transaction = .recordConfirmPay refreshGroupId purchase →
    wallet.stores.purchases.get? purchase.proposalId = none ∧
      purchase.paymentSubmitPending = true

theorem stored_submitted (sound : wallet.SessionsSound) {transaction : Transaction}
    {buys : Record String PurchaseRecord} (transacts : wallet.Transacts transaction)
    (stored : Stored wallet.stores.purchases transaction buys) :
    (∀ id p, buys.get? id = some p → p.Submitted wallet.accepted id) ∧
    ∀ id ∈ wallet.aborted,
      ∃ p, buys.get? id = some p ∧ p.abortStatus ≠ .none := by
  cases stored with
  | same => exact ⟨sound.submitted, sound.aborted⟩
  | @changed id p p' got changed =>
    constructor
    · intro y q foundOther
      rw [Record.get?_set] at foundOther
      split at foundOther
      next same =>
        cases same
        cases foundOther
        exact changed.submitted (sound.submitted id p got)
          (transacts.first id) (transacts.replay id)
          fun sessionId isSession => transacts.session id sessionId p isSession got
      next => exact sound.submitted y q foundOther
    · intro y aborted
      obtain ⟨q, foundOther, isAborted⟩ := sound.aborted y aborted
      rw [Record.get?_set]
      split
      next same =>
        cases same
        cases got.symm.trans foundOther
        exact ⟨p', rfl, changed.aborted isAborted⟩
      next => exact ⟨q, foundOther, isAborted⟩
  | recorded groupId purchase isTransaction =>
    obtain ⟨absent, pending⟩ := transacts.recorded groupId purchase isTransaction
    constructor
    · intro y q foundOther
      rw [Record.get?_set] at foundOther
      split at foundOther
      next same =>
        cases foundOther
        intro done
        cases pending.symm.trans done
      next => exact sound.submitted y q foundOther
    · intro y aborted
      obtain ⟨q, foundOther, isAborted⟩ := sound.aborted y aborted
      rw [Record.get?_set]
      split
      next same =>
        cases same
        cases absent.symm.trans foundOther
      next => exact ⟨q, foundOther, isAborted⟩

theorem overtakes_spec {transaction : Transaction} (mem : idx ∈ wallet.overtakes transaction) :
    ∃ proposalId sessionId submit p, transaction = .changeSession proposalId sessionId submit ∧
      wallet.stores.purchases.get? proposalId = some p ∧ p.lastSessionId ≠ sessionId ∧
      ∃ point, wallet.calls[idx]? = some point ∧ point.inFlight = some proposalId := by
  cases transaction with
  | changeSession proposalId sessionId submit =>
    simp only [overtakes] at mem
    split at mem
    next => cases mem
    next p h =>
      split at mem
      next => cases mem
      next ne =>
        have inFlight := of_decide_eq_true (mem_filter.mp mem).2
        obtain ⟨point, isPoint, isInFlight⟩ := bind_eq_some_iff.mp inFlight
        exact ⟨proposalId, sessionId, submit, p, rfl, h, ne, point, isPoint, isInFlight⟩
  | _ => cases mem

theorem transacts_of_condition (sound : wallet.SessionsSound) {point : Point} {ans : Answer}
    (isPoint : wallet.calls[idx]? = some point)
    (cond : wallet.SessionCondition (.advance idx ans)) {transaction : Transaction}
    (isFrom : transaction.From point) : wallet.Transacts transaction := by
  have mem := mem_of_getElem? isPoint
  obtain ⟨_, records, changes, _⟩ := cond point isPoint
  constructor
  · intro propId sessionId paySig eq
    cases eq
    cases isFrom
    exact sound.storing _ mem _ rfl
  · intro propId sessionId eq
    cases eq
    cases isFrom
    exact sound.storing _ mem _ rfl
  · intro propId sessionId p eq h ne
    cases eq
    rcases isFrom with ⟨isChange, _⟩ | ⟨_, _, _, _, isSubmit, _⟩
    · exact (changes propId sessionId p isChange h ne).2
    · cases isSubmit
  intro rgId purchase eq
  cases eq
  exact ⟨records purchase isFrom, sound.recording point mem purchase (isFrom ▸ rfl)⟩

theorem overtaken_of_condition {point : Point} {ans : Answer}
    (isPoint : wallet.calls[idx]? = some point)
    (cond : wallet.SessionCondition (.advance idx ans)) {transaction : Transaction}
    (isFrom : transaction.From point) {y : Nat}
    (overtaken : y ∈ wallet.overtakes transaction) : idx ≠ y ∧
      ∃ call, wallet.calls[y]? = some call ∧ call.Sent ∧ call.storing = none := by
  obtain ⟨proposalId, sessionId, submit, p, eq, h, ne, call, isCall, inFlight⟩ :=
    overtakes_spec overtaken
  obtain ⟨_, _, changes, overrides⟩ := cond point isPoint
  cases eq
  have notStoring : ¬ wallet.Storing proposalId := by
    rcases isFrom with ⟨isChange, _⟩ | ⟨prop, download, isOverride, isProp, _, given⟩
    · exact (changes proposalId sessionId p isChange h ne).1
    · cases isProp
      exact overrides prop download sessionId p isOverride h given ne
  refine ⟨?_, call, isCall, inFlight_sent inFlight, ?_⟩
  · intro eq
    cases eq
    cases isPoint.symm.trans isCall
    rcases isFrom with ⟨isChange, _⟩ | ⟨_, _, isOverride, _⟩
    · rw [isChange] at inFlight
      cases inFlight
    · rw [isOverride] at inFlight
      cases inFlight
  · cases storing : call.storing with
    | none => rfl
    | some req =>
      obtain ⟨storingId, storedSession⟩ := req
      cases (storing_inFlight storing).symm.trans inFlight
      exact absurd ⟨call, mem_of_getElem? isCall, storedSession, storing⟩ notStoring

theorem call_sessionsSound (sound : wallet.SessionsSound) {point : Point}
    (storing : point.storing = none) (unsent : point.unsent = none)
    (recording : point.recording = none) : (wallet.call point).SessionsSound := by
  have cases' : ∀ {y : Point}, y ∈ wallet.calls ++ [point] →
      y ∈ wallet.calls ∨ y = point := fun member =>
    (mem_append.mp member).imp_right mem_singleton.mp
  constructor
  · exact sound.keyed
  · exact sound.submitted
  · intro y isOther req isStoring
    rcases cases' isOther with pre | eq
    · exact sound.storing y pre req isStoring
    · cases (eq ▸ storing).symm.trans isStoring
  · exact sound.aborted
  · intro y isOther propId isUnsent
    rcases cases' isOther with pre | eq
    · exact sound.unsent y pre propId isUnsent
    · cases (eq ▸ unsent).symm.trans isUnsent
  · intro y isOther purchase isRecording
    rcases cases' isOther with pre | eq
    · exact sound.recording y pre purchase isRecording
    · cases (eq ▸ recording).symm.trans isRecording
  intro idx isOvertaken
  obtain ⟨overtaken, isCall, rest⟩ := sound.overtaken idx isOvertaken
  have mem : idx < wallet.calls.length := (List.getElem?_eq_some_iff.mp isCall).1
  exact ⟨overtaken, (getElem?_append_left mem).trans isCall, rest⟩

theorem abort_transacts (propId : String) : wallet.Transacts (.abort propId) := by
  constructor
  · intro _ _ _ eq
    cases eq
  · intro _ _ eq
    cases eq
  · intro _ _ _ eq
    cases eq
  · intro _ _ eq
    cases eq

theorem abort_sessionsSound (sound : wallet.SessionsSound) {env : Surroundings} {propId : String}
    (cond : wallet.SessionCondition (.abortFailedPayWithRefund env propId)) :
    (wallet.abort env propId).SessionsSound := by
  unfold abort
  split
  next => exact sound
  next p h =>
    have isStored : (wallet.stores.modifyPurchase propId fun p =>
        p.abort env.now).purchases =
        wallet.stores.purchases.set propId (p.abort env.now) := by
      simp only [PurchaseStores.modifyPurchase, h]
    have kept : Stored wallet.stores.purchases (.abort propId)
        (wallet.stores.modifyPurchase propId fun p => p.abort env.now).purchases :=
      PurchaseStores.modifyPurchase_stored fun p => .abort env.now
    obtain ⟨submitted, aborted⟩ := stored_submitted sound (abort_transacts propId) kept
    constructor
    · exact sound.keyed.stored kept
    · exact submitted
    · exact sound.storing
    · intro y isAborted
      split at isAborted
      next abortable =>
        rcases mem_append.mp isAborted with pre | last
        · exact aborted y pre
        cases mem_singleton.mp last
        refine ⟨p.abort env.now, ?_, ?_⟩
        · exact isStored ▸ Record.get?_set_self _ _ _
        · rw [PurchaseRecord.abort, if_pos abortable]
          rintro ⟨⟩
      next => exact aborted y isAborted
    · intro point mem y unsent isAborted
      split at isAborted
      next abortable =>
        rcases mem_append.mp isAborted with pre | last
        · exact sound.unsent point mem y unsent pre
        · cases mem_singleton.mp last
          exact cond p h abortable point mem unsent
      next => exact sound.unsent point mem y unsent isAborted
    · exact sound.recording
    · exact sound.overtaken

theorem stored_sessionsSound {stores' : PurchaseStores} (sound : wallet.SessionsSound)
    {point goal : Point} {ans : Answer} (isPoint : wallet.calls[idx]? = some point)
    (cond : wallet.SessionCondition (.advance idx ans))
    (follows : Follows wallet.stores point ans goal) {transaction : Transaction}
    (isFrom : transaction.From point) {env : Surroundings}
    (r : wallet.stores.run env transaction = some stores') :
    { wallet.goesOn idx point ans goal with
      stores := stores'
      recorded := wallet.recorded ++ transaction.records
      overtaken := wallet.overtaken ++ wallet.overtakes transaction }.SessionsSound := by
  have went := goesOn_sessionsSound sound isPoint follows (cond point isPoint).1
  have kept := PurchaseStores.run_stored sound.keyed r
  obtain ⟨submitted, aborted⟩ :=
    stored_submitted sound (transacts_of_condition sound isPoint cond isFrom) kept
  constructor
  · exact sound.keyed.stored kept
  · intro propId p h done paid
    exact mem_append_left _ (submitted propId p h done paid)
  · exact went.storing
  · exact aborted
  · exact went.unsent
  · exact went.recording
  intro y isOvertaken
  rcases mem_append.mp isOvertaken with pre | isNew
  · exact went.overtaken y pre
  · obtain ⟨ne, call, isCall, rest⟩ := overtaken_of_condition isPoint cond isFrom isNew
    exact ⟨call, (getElem?_set_ne ne).trans isCall, rest⟩

theorem step_sessionsSound {next : PurchaseWallet} {ev : PurchaseEvent}
    (sound : wallet.SessionsSound)
    (step : Guarded SessionCondition (PurchaseStep host) wallet ev next) :
    next.SessionsSound := by
  obtain ⟨cond, _, did⟩ := step
  cases ev with
  | confirmPay propId sessionIdOverride =>
    cases did
    exact call_sessionsSound sound rfl rfl rfl
  | checkPaymentByProposalId propId sessionId =>
    cases did
    exact call_sessionsSound sound rfl rfl rfl
  | processPurchasePay propId forceNow =>
    cases did
    cases forceNow with
    | false => exact call_sessionsSound sound rfl rfl rfl
    | true => exact call_sessionsSound sound rfl rfl rfl
  | abortFailedPayWithRefund env propId =>
    cases did
    exact abort_sessionsSound sound cond
  | advance idx answer =>
    obtain ⟨point, isPoint, did⟩ := bind_eq_some_iff.mp did
    obtain ⟨step, advanced, isNext⟩ := bind_eq_some_iff.mp did
    cases isNext
    obtain ⟨done, thrown, transacts⟩ := advance_advanced advanced
    have accepts := (cond point isPoint).1
    cases isTransaction : step.transaction with
    | none =>
      simp only [PurchaseWallet.step, isTransaction]
      exact goesOn_sessionsSound sound isPoint done accepts
    | some transaction =>
      simp only [PurchaseWallet.step, isTransaction]
      split
      next => exact goesOn_sessionsSound sound isPoint thrown accepts
      next stores' ran =>
        exact stored_sessionsSound sound isPoint cond done (transacts transaction isTransaction) ran
  | proposal proposal =>
    cases did
    exact ⟨sound.keyed, sound.submitted, sound.storing, sound.aborted, sound.unsent,
      sound.recording, sound.overtaken⟩
  | denomination denom =>
    cases did
    exact ⟨sound.keyed, sound.submitted, sound.storing, sound.aborted, sound.unsent,
      sound.recording, sound.overtaken⟩
  | coin coin =>
    cases did
    exact ⟨sound.keyed, sound.submitted, sound.storing, sound.aborted, sound.unsent,
      sound.recording, sound.overtaken⟩

def sessionOf (wallet : PurchaseWallet) (proposalId : String) : Option (Option String) :=
  (wallet.stores.purchases.get? proposalId).map PurchaseRecord.lastSessionId

def sends (wallet : PurchaseWallet) (index : Nat) : Option String :=
  match wallet.calls[index]? with
  | some (.payRequest proposalId _ _) | some (.paidRequest proposalId _) => some proposalId
  | _ => none

/-- Sessions are not taken as paid for before they were submitted. -/
structure SessionsKept (host : PayHost) (wallet : PurchaseWallet) : Prop where
  submitted : ∀ proposalId p, wallet.stores.purchases.get? proposalId = some p →
    p.paymentSubmitPending = false → p.timestampFirstSuccessfulPay.isSome = true →
      (proposalId, p.lastSessionId) ∈ wallet.accepted
  overtaken : ∀ index answer next, index ∈ wallet.overtaken →
    PurchaseStep host wallet (.advance index answer) next →
      ∀ proposalId, next.sessionOf proposalId = wallet.sessionOf proposalId
  unaborted : ∀ index answer next proposalId, wallet.sends index = some proposalId →
    PurchaseStep host wallet (.advance index answer) next → proposalId ∉ wallet.aborted

theorem overtaken_sessionOf {next : PurchaseWallet} (sound : wallet.SessionsSound)
    {ans : Answer} (isOvertaken : index ∈ wallet.overtaken)
    (step : PurchaseStep host wallet (.advance index ans) next) (proposalId : String) :
    next.sessionOf proposalId = wallet.sessionOf proposalId := by
  obtain ⟨_, performed⟩ := step
  obtain ⟨point, isPoint, performed⟩ := bind_eq_some_iff.mp performed
  obtain ⟨step, advanced, isNext⟩ := bind_eq_some_iff.mp performed
  cases isNext
  obtain ⟨call, isCall, sent, notStoring⟩ := sound.overtaken index isOvertaken
  cases isPoint.symm.trans isCall
  cases isTransaction : step.transaction with
  | none => simp only [PurchaseWallet.step, isTransaction, sessionOf]
  | some transaction =>
    have isFrom := (advance_advanced advanced).transaction transaction isTransaction
    simp only [PurchaseWallet.step, isTransaction]
    split
    next => rfl
    next stores' r =>
      have stored := PurchaseStores.run_stored sound.keyed r
      simp only [sessionOf]
      generalize stores'.purchases = buys at stored
      cases stored with
      | same => rfl
      | @changed changedId p p' got changed =>
        rw [Record.get?_set]
        split
        next same =>
          cases same
          rw [got]
          refine congrArg some (changed.lastSessionId ?_ ?_ ?_)
          · intro sessionId paySig same
            cases same
            cases isFrom
            cases notStoring
          · intro sessionId same
            cases same
            cases isFrom
            cases notStoring
          intro sessionId submit same
          cases same
          rcases isFrom with ⟨isChange, _⟩ | ⟨_, _, isOverride, _⟩
          · exact absurd sent (isChange ▸ (by rintro ⟨⟩))
          · exact absurd sent (isOverride ▸ (by rintro ⟨⟩))
        next => rfl
      | recorded groupId purchase same =>
        cases same
        cases isFrom
        cases sent

theorem sends_unsent {proposalId : String} (sends : wallet.sends idx = some proposalId) :
    ∃ point ∈ wallet.calls, point.unsent = some proposalId := by
  unfold PurchaseWallet.sends at sends
  split at sends
  next isPoint => exact ⟨_, mem_of_getElem? isPoint, sends⟩
  next isPoint => exact ⟨_, mem_of_getElem? isPoint, sends⟩
  next => cases sends

end PurchaseWallet

/-- In runs that meet the condition, a purchase whose submission is not pending was accepted with
its session, no request stores its session over a later one, and no request follows an abort. -/
theorem sessions_submitted {host : PayHost} {events : List PurchaseEvent} {wallet : PurchaseWallet}
    (run : Run (Guarded PurchaseWallet.SessionCondition (PurchaseStep host)) .start events wallet) :
    wallet.SessionsKept host := by
  have sound : wallet.SessionsSound := by
    apply run.invariant PurchaseWallet.SessionsSound
    · exact PurchaseWallet.start_sessionsSound
    · exact fun _ _ _ sound step => PurchaseWallet.step_sessionsSound sound step
  constructor
  · exact sound.submitted
  · exact fun index answer next isOvertaken step =>
    PurchaseWallet.overtaken_sessionOf sound isOvertaken step
  · intro index answer next proposalId sends _
    obtain ⟨point, member, unsent⟩ := PurchaseWallet.sends_unsent sends
    exact sound.unsent point member proposalId unsent

/-! ## Examples -/

section Examples

def exampleHost : PayHost where
  denomPub := .rsa
  feeDeposit := fun _ => Amounts.getZero
  depositExpired := fun _ _ => false
  denomSig := fun coinPub => "signed " ++ coinPub
  coinSig := fun _ _ _ => "C"
  isValidPaymentSignature := fun sig _ _ => sig = "S"

def exampleContract : ContractData where
  products := none
  summaryI18n := none
  fulfillmentUrl := ""
  contractTermsHash := "H"
  merchantSig := "M"
  merchantPub := "shop"
  merchant := .null
  amount := ⟨"KUDOS", .ofValue 3⟩
  orderId := "1"
  merchantBaseUrl := "https://shop/"
  summary := "article"
  autoRefund := none
  maxWireFee := .getZero "KUDOS"
  wireFeeAmortization := 1
  payDeadline := .never
  refundDeadline := .never
  allowedAuditors := []
  allowedExchanges := [⟨"https://a/", "E"⟩]
  timestamp := .at 0
  wireMethod := "iban"
  wireInfoHash := "W"
  maxDepositFee := .getZero "KUDOS"

def exampleProposal : Proposal where
  orderId := "1"
  merchantBaseUrl := "https://shop/"
  download := some ⟨.null, exampleContract⟩
  proposalId := "P"
  timestamp := .at 0
  noncePriv := "n"
  noncePub := some "N"
  claimToken := none
  proposalStatus := .proposed
  repurchaseProposalId := none
  downloadSessionId := none
  retryInfo := none
  lastError := none

def step? (wallet : PurchaseWallet) (event : PurchaseEvent) : Option PurchaseWallet :=
  match event with
  | .coin coin =>
    if (wallet.stores.wallet.coins.get? coin.coinPub).isNone ∧ coin.allocation = none then
      wallet.perform exampleHost (.coin coin)
    else none
  | event => wallet.perform exampleHost event

theorem step?_step {wallet next : PurchaseWallet} {ev : PurchaseEvent}
    (ran : step? wallet ev = some next) : PurchaseStep exampleHost wallet ev next := by
  cases ev with
  | coin coin =>
    simp only [step?] at ran
    split at ran
    next foreign =>
      refine ⟨⟨isNone_iff_eq_none.mp foreign.1, fun _ => foreign.2, ?_⟩, ran⟩
      intro propId
      rw [foreign.2]
      rintro ⟨⟩
    next => cases ran
  | _ => exact ⟨trivial, ran⟩

def proceeds (index : Nat) : PurchaseEvent := .advance index (.proceed exampleSurroundings)

/-- What `confirmPay` does until the purchase is recorded. -/
def confirms (index : Nat) (sessionIdOverride : Option String) : List PurchaseEvent :=
  [.confirmPay "P" sessionIdOverride, proceeds index, proceeds index,
    .advance index (.exchanges exampleSurroundings ["https://a/"] []), proceeds index,
    .advance index (.drawn exampleSurroundings "U" "G"),
    .advance index (.drawn exampleSurroundings "U" "G")]

/-- A coin of ten pays for an order of three, and the request with the first session waits. -/
def waitingEvents : List PurchaseEvent :=
  [.proposal exampleProposal, .denomination ten, .denomination (one "https://a/"),
    .coin exampleCoin] ++ confirms 0 (some "s") ++ [proceeds 0]

def paidEvents : List PurchaseEvent :=
  waitingEvents ++ [proceeds 0, .advance 0 (.response (.paid "S")), proceeds 0]

def revisitEvents : List PurchaseEvent :=
  paidEvents ++ [.checkPaymentByProposalId "P" (some "t"), proceeds 1, proceeds 1, proceeds 1]

def PurchaseWallet.unsubmitted (wallet : PurchaseWallet) (proposalId : String) : Bool :=
  match wallet.stores.purchases.get? proposalId with
  | none => false
  | some p =>
    p.paymentSubmitPending = false ∧ p.timestampFirstSuccessfulPay.isSome ∧
      (proposalId, p.lastSessionId) ∉ wallet.accepted

theorem PurchaseWallet.SessionsKept.not_unsubmitted {host : PayHost} {w : PurchaseWallet}
    (kept : w.SessionsKept host) (propId : String) : w.unsubmitted propId = false := by
  unfold PurchaseWallet.unsubmitted
  split
  next => rfl
  next p h =>
    apply decide_eq_false
    rintro ⟨done, paid, absent⟩
    exact absent (kept.submitted propId p h done paid)

/-- The session is changed while the request is in flight, and the success comes back. -/
def overtakenEvents : List PurchaseEvent :=
  waitingEvents ++ [proceeds 0, .confirmPay "P" (some "t"), proceeds 1, proceeds 1,
    .advance 0 (.response (.paid "S"))]

def abortedEvents : List PurchaseEvent :=
  waitingEvents ++ [.abortFailedPayWithRefund exampleSurroundings "P"]

/-- A session counts as paid for without a request, an answer is stored over a later session, and
a request is sent after the abort. -/
theorem sessions_not_submitted :
    (∃ events wallet, Run (PurchaseStep exampleHost) .start events wallet ∧
      ¬ wallet.SessionsKept exampleHost) ∧
    (∃ events wallet, Run (PurchaseStep exampleHost) .start events wallet ∧
      0 ∈ wallet.overtaken ∧ ∃ answer next,
        PurchaseStep exampleHost wallet (.advance 0 answer) next ∧
          next.sessionOf "P" ≠ wallet.sessionOf "P") ∧
    (∃ events wallet, Run (PurchaseStep exampleHost) .start events wallet ∧
      wallet.sends 0 = some "P" ∧ "P" ∈ wallet.aborted ∧ ∃ answer next,
        PurchaseStep exampleHost wallet (.advance 0 answer) next) := by
  refine ⟨?_, ?_, ?_⟩
  · have reaches : (revisitEvents.foldlM step? .start).map
        (fun wallet => wallet.unsubmitted "P") = some true := by decide +kernel
    obtain ⟨wallet, isWallet, unsubmitted⟩ := map_eq_some_iff.mp reaches
    refine ⟨_, wallet, Run.ofFoldlM (fun _ _ _ => step?_step) isWallet, ?_⟩
    intro kept
    cases (kept.not_unsubmitted "P").symm.trans unsubmitted
  · have reaches : ((overtakenEvents.foldlM step? .start).bind fun wallet =>
        (step? wallet (proceeds 0)).map fun next =>
          (wallet.overtaken, wallet.sessionOf "P", next.sessionOf "P")) =
        some ([0], some (some "t"), some (some "s")) := by decide +kernel
    obtain ⟨wallet, isWallet, stores⟩ := bind_eq_some_iff.mp reaches
    obtain ⟨next, isNext, isState⟩ := map_eq_some_iff.mp stores
    obtain ⟨isOvertaken, isSessions⟩ := Prod.mk.inj isState
    obtain ⟨before, after⟩ := Prod.mk.inj isSessions
    refine ⟨_, wallet, Run.ofFoldlM (fun _ _ _ => step?_step) isWallet, ?_, _, next,
      step?_step isNext, ?_⟩
    · rw [isOvertaken]
      exact mem_singleton_self 0
    · rw [before, after]
      decide
  · have reaches : ((abortedEvents.foldlM step? .start).bind fun wallet =>
        (step? wallet (proceeds 0)).map fun _ => (wallet.sends 0, wallet.aborted)) =
        some (some "P", ["P"]) := by decide +kernel
    obtain ⟨wallet, isWallet, sends⟩ := bind_eq_some_iff.mp reaches
    obtain ⟨next, isNext, isState⟩ := map_eq_some_iff.mp sends
    obtain ⟨isSent, isAborted⟩ := Prod.mk.inj isState
    refine ⟨_, wallet, Run.ofFoldlM (fun _ _ _ => step?_step) isWallet, isSent, ?_, _, next,
      step?_step isNext⟩
    rw [isAborted]
    exact mem_singleton_self "P"

def PurchaseWallet.careful (wallet : PurchaseWallet) : PurchaseEvent → Bool
  | .abortFailedPayWithRefund _ _ => false
  | .advance index _ =>
    wallet.overtaken.isEmpty &&
      match wallet.calls[index]? with
      | none => false
      | some (.recordConfirmPay purchase) =>
        (wallet.stores.purchases.get? purchase.proposalId).isNone
      | some (.changeSession _ _) => false
      | some (.existingPurchase _ _ _) =>
        wallet.calls.all fun point => point.storing.isNone
      | some _ => true
  | _ => true

theorem PurchaseWallet.careful_condition {w : PurchaseWallet} {event : PurchaseEvent}
    (careful : w.careful event = true) : w.SessionCondition event := by
  cases event with
  | abortFailedPayWithRefund env propId => cases careful
  | advance idx ans =>
    intro point isPoint
    obtain ⟨noneOvertaken, allowed⟩ := Bool.and_eq_true_iff.mp careful
    rw [isPoint] at allowed
    refine ⟨?_, ?_, ?_, ?_⟩
    · intro _ mem
      rw [List.isEmpty_iff.mp noneOvertaken] at mem
      cases mem
    · rintro purchase rfl
      exact isNone_iff_eq_none.mp allowed
    · rintro propId sessionId p rfl
      cases allowed
    rintro prop download sessionId p rfl _ _ _ ⟨y, mem, ses, storing⟩
    have notStoring := List.all_eq_true.mp allowed y mem
    rw [storing] at notStoring
    cases notStoring
  | _ => exact trivial

def carefulStep? (wallet : PurchaseWallet) (event : PurchaseEvent) : Option PurchaseWallet :=
  if wallet.careful event then step? wallet event else none

theorem carefulStep?_guarded {wallet next : PurchaseWallet} {ev : PurchaseEvent}
    (r : carefulStep? wallet ev = some next) :
    Guarded PurchaseWallet.SessionCondition (PurchaseStep exampleHost) wallet ev next := by
  unfold carefulStep? at r
  split at r
  next careful => exact ⟨PurchaseWallet.careful_condition careful, step?_step r⟩
  next => cases r

/-- The payment is confirmed again with a second session, and submitted for it. -/
def resubmitEvents : List PurchaseEvent :=
  paidEvents ++ [.confirmPay "P" (some "t"), proceeds 1, proceeds 1, proceeds 1, proceeds 1,
    .advance 1 (.response .noContent), proceeds 1]

theorem session_resubmitted : ∃ events wallet,
    Run (Guarded PurchaseWallet.SessionCondition (PurchaseStep exampleHost)) .start events wallet ∧
      wallet.accepted = [("P", some "s"), ("P", some "t")] ∧
      wallet.sessionOf "P" = some (some "t") ∧ wallet.SessionsKept exampleHost := by
  have reaches : (resubmitEvents.foldlM carefulStep? .start).map
      (fun wallet => (wallet.accepted, wallet.sessionOf "P")) =
      some ([("P", some "s"), ("P", some "t")], some (some "t")) := by decide +kernel
  obtain ⟨wallet, isWallet, isState⟩ := map_eq_some_iff.mp reaches
  obtain ⟨isAccepted, isSession⟩ := Prod.mk.inj isState
  have run : Run (Guarded PurchaseWallet.SessionCondition (PurchaseStep exampleHost)) .start
      resubmitEvents wallet := Run.ofFoldlM (fun _ _ _ => carefulStep?_guarded) isWallet
  exact ⟨_, wallet, run, isAccepted, isSession, sessions_submitted run⟩

end Examples

end Anastasis.Wallet.Purchasing
