import Anastasis.Server.TruthChallenge
import Anastasis.Server.Turns

/-! Requests for key shares over time: they are suspended for the merchant and for authorization
plugins, resumed, answered and forgotten. -/

set_option autoImplicit false

namespace Anastasis.Server

open Library Stasis

structure RefundEntry where
  paymentIdentifier : Option PaymentSecret
  truthUuid : TruthUuid
deriving DecidableEq

inductive TruthAction where
  | paymentBegun (gc : Address)
  | orderCreated (gc : Address) (paymentIdentifier : PaymentSecret)
  | paymentRecorded (gc : Address) (truthUuid : TruthUuid) (paymentIdentifier : PaymentSecret)
  | challengeServed (gc : Address) (truthUuid : TruthUuid) (paymentIdentifier : PaymentSecret)
  | refundBegun (gc : Address) (truthUuid : TruthUuid) (paymentIdentifier : Option PaymentSecret)
  | freed (gc : Address)
  | connectionSuspended (gc : Address)
  | connectionResumed (gc : Address)
  | challengeSent (gc : Address) (truthUuid : TruthUuid) (code : Nat) (retransmissionDate : Time)
deriving DecidableEq

structure TimeoutNode where
  gc : Address
  timeout : Time
deriving DecidableEq

def earliest (timeouts : List TimeoutNode) : Option Time := (timeouts.map (·.timeout)).min?

/-- What all requests share: the tables, the refunds that are under way, the heap of timeouts and
the time that its task is scheduled for. -/
structure TruthShared where
  payments : ChallengePayments
  codes : ChallengeCodes
  refunds : List RefundEntry
  timeouts : List TimeoutNode
  task : Option Time
  actions : List TruthAction

abbrev TruthTurn := Turn GetContext TruthShared

abbrev TruthServed := Served GetContext TruthShared

open Served

def act (action : Address → TruthAction) : TruthServed Unit :=
  Effect.modify fun turn => { turn with
    shared := { turn.shared with actions := turn.shared.actions ++ [action turn.address] } }

def setCodes (codes : ChallengeCodes) : TruthServed Unit :=
  share fun shared => { shared with codes := codes }

def setPayments (payments : ChallengePayments) : TruthServed Unit :=
  share fun shared => { shared with payments := payments }

section Rules

variable {turn : TruthTurn} {normal : Unit → TruthTurn → Prop}
  {exceptional : Abort → TruthTurn → Prop}

@[simp] theorem ensures_act (action : Address → TruthAction) :
    Effect.Ensures (act action) turn normal exceptional ↔ normal () { turn with
        shared := { turn.shared with actions := turn.shared.actions ++ [action turn.address] } } :=
  Iff.rfl

@[simp] theorem ensures_setCodes (codes : ChallengeCodes) :
    Effect.Ensures (setCodes codes) turn normal exceptional ↔
      normal () { turn with shared := { turn.shared with codes := codes } } := Iff.rfl

@[simp] theorem ensures_setPayments (payments : ChallengePayments) :
    Effect.Ensures (setPayments payments) turn normal exceptional ↔
      normal () { turn with shared := { turn.shared with payments := payments } } := Iff.rfl

end Rules

def queueResponse (reply : TruthReply) : TruthServed Unit :=
  update fun context => { context with connection := .replied reply }

/-- The handler returns `MHD_NO`. -/
def hangUp : TruthServed Unit := update fun context => { context with connection := .hungUp }

def suspendConnection : TruthServed Unit := do
  update fun context => { context with connection := .suspended }
  act .connectionSuspended

def resumeConnection : TruthServed Unit := do
  update fun context => { context with connection := .active }
  act .connectionResumed

section Rules

variable {turn : TruthTurn} {normal : Unit → TruthTurn → Prop}
  {exceptional : Abort → TruthTurn → Prop}

@[simp] theorem ensures_suspendConnection :
    Effect.Ensures suspendConnection turn normal exceptional ↔ normal () { turn with
        context := { turn.context with connection := .suspended }
        shared := { turn.shared with
          actions := turn.shared.actions ++ [.connectionSuspended turn.address] } } := Iff.rfl

@[simp] theorem ensures_resumeConnection : Effect.Ensures resumeConnection turn normal exceptional ↔
      normal () { turn with
        context := { turn.context with connection := .active }
        shared := { turn.shared with
          actions := turn.shared.actions ++ [.connectionResumed turn.address] } } := Iff.rfl

end Rules

def awaitMerchant : TruthServed Unit := do
  assert (!(← load).inList)
  update fun context => { context with inList := true }
  link .insertSwapped
  assert (!(← load).suspended)
  update fun context => { context with suspended := true }
  suspendConnection

/-- Looks for an order that is still to be paid, or sets up another one. -/
def beginPayment (calls : Calls) : TruthServed Unit := do
  act .paymentBegun
  let context ← load
  match lookupChallengePayment calls.looking context.truthUuid calls.now (← shared).payments with
  | .failed _ =>
    queueResponse (.error ⟨500, .genericDbFetchFailed, some "lookup challenge payment"⟩)
  | .oneResult payment => do
      awaitMerchant
      update fun context => { context with
        paymentIdentifier := some payment.paymentIdentifier
        cpo := true }
  | .noResults => do
      awaitMerchant
      update fun context => { context with
        paymentIdentifier := some calls.freshIdentifier
        po := true }
      act (.orderCreated · calls.freshIdentifier)

def resume : TruthServed Unit := do
  let context ← load
  assert context.inList
  link .remove
  update fun context => { context with inList := false }
  assert context.suspended
  update fun context => { context with suspended := false }
  resumeConnection

def answerLater (reply : TruthReply) : TruthServed Unit :=
  update fun context => { context with resp := some reply }

/-- The callbacks only run for requests that an order was set up or found for. -/
def orderIdentifier : TruthServed PaymentSecret := do
  match (← load).paymentIdentifier with
  | some paymentIdentifier => return paymentIdentifier
  | none => Effect.throw .assertion

def makePaymentRequest : TruthServed Unit := do
  let paymentIdentifier ← orderIdentifier
  answerLater (.paymentRequired paymentIdentifier)

/-- The merchant was asked for an order; `created` tells whether it set one up. -/
def proposalCb (created : Bool) (now : Time) (recording : Option Failure) : TruthServed Unit := do
  update fun context => { context with po := false }
  resume
  if created = false then
    answerLater (.error ⟨502, .truthPaymentCreateBackendError,
      some "Failed to setup order with merchant backend"⟩)
  else do
    let context ← load
    let paymentIdentifier ← orderIdentifier
    let (recorded, payments) := recordChallengePayment recording context.truthUuid
      paymentIdentifier context.challengeCost now (← shared).payments
    setPayments payments
    match recorded with
    | .failed _ | .rows 0 =>
      answerLater (.error ⟨500, .genericDbStoreFailed, some "record challenge payment"⟩)
    | .rows _ => makePaymentRequest

inductive OrderStatus where
  | notFound
  | badGateway
  | gatewayTimeout
  | unexpected (httpStatus : Nat)
  | paid
  | claimed
  | unpaid
deriving DecidableEq

def checkPaymentCb (status : OrderStatus) (updating : Option Failure) : TruthServed Unit := do
  update fun context => { context with cpo := false }
  resume
  match status with
  | .notFound => answerLater (.error ⟨502, .truthOrderDisappeared, none⟩)
  | .badGateway => answerLater (.error ⟨502, .truthBackendExchangeBad, none⟩)
  | .gatewayTimeout =>
    answerLater (.error ⟨504, .genericBackendTimeout, some "Timeout check payment status"⟩)
  | .unexpected httpStatus =>
    answerLater (.error ⟨500, .truthUnexpectedPaymentStatus, some (toString httpStatus)⟩)
  | .claimed | .unpaid => makePaymentRequest
  | .paid => do
      let context ← load
      let paymentIdentifier ← orderIdentifier
      let (updated, payments) := updateChallengePayment updating context.truthUuid
        paymentIdentifier (← shared).payments
      setPayments payments
      match updated with
      | .failed _ =>
        answerLater (.error ⟨500, .genericDbStoreFailed, some "update challenge payment"⟩)
      | .rows 0 => return ()
      | .rows _ => act (.paymentRecorded · context.truthUuid paymentIdentifier)

def insertNode : TruthServed Unit :=
  Effect.modify fun turn => { turn with shared := { turn.shared with
    timeouts := ⟨turn.address, turn.context.timeout⟩ :: turn.shared.timeouts } }

def removeNode : TruthServed Unit :=
  Effect.modify fun turn => { turn with shared := { turn.shared with
    timeouts := turn.shared.timeouts.erase ⟨turn.address, turn.context.timeout⟩ } }

def scheduleTimeout : TruthServed Unit :=
  share fun shared => { shared with task := earliest shared.timeouts }

def gcSuspended : TruthServed Unit := do
  update fun context => { context with suspended := true, hn := true }
  insertNode
  scheduleTimeout

def awaitPlugin : TruthServed Unit := do
  suspendConnection
  gcSuspended

def beginRefund (context : GetContext) (refundStarts : Bool) : TruthServed Unit := do
  act (.refundBegun · context.truthUuid context.paymentIdentifier)
  share fun shared =>
    if refundStarts then
      { shared with refunds := ⟨context.paymentIdentifier, context.truthUuid⟩ :: shared.refunds }
    else shared

def zeroPaymentIdentifier : PaymentSecret := zeroBlock 32

def TruthShared.charge (context : GetContext) (calls : Calls) (gc : Address)
    (shared : TruthShared) : TruthShared :=
  let (marked, codes) := markCodeSent calls.marking context.truthUuid context.code calls.now
    shared.codes
  { shared with
    codes := codes
    payments := markChallengeSent marked calls.charging
      (context.paymentIdentifier.getD zeroPaymentIdentifier) context.truthUuid shared.payments
    actions := shared.actions ++
      if Change.succeeds marked then
        [.challengeSent gc context.truthUuid context.code (column (roundAbs calls.now))]
      else [] }

def chargePayment (context : GetContext) (calls : Calls) : TruthServed Unit :=
  Effect.modify fun turn => { turn with shared := turn.shared.charge context calls turn.address }

def satisfyCode (context : GetContext) (code : Nat) (calls : Calls) : TruthServed Bool := do
  let (marked, codes) := markChallengeCodeSatisfied calls.satisfying context.truthUuid code
    (← shared).codes
  setCodes codes
  return Change.succeeds marked

def endAuthorization : TruthServed Unit := update fun context => { context with authorizing := false }

def leaveList : TruthServed Unit := do
  link .remove
  update fun context => { context with inList := false }

section Rules

variable {turn : TruthTurn} {normal : Unit → TruthTurn → Prop}
  {exceptional : Abort → TruthTurn → Prop} {context ctx : GetContext} {calls : Calls}

@[simp] theorem ensures_removeNode : Effect.Ensures removeNode turn normal exceptional ↔
      normal () { turn with shared := { turn.shared with
        timeouts := turn.shared.timeouts.erase ⟨turn.address, turn.context.timeout⟩ } } := Iff.rfl

@[simp] theorem ensures_scheduleTimeout : Effect.Ensures scheduleTimeout turn normal exceptional ↔
      normal () { turn with shared := { turn.shared with
        task := earliest turn.shared.timeouts } } := Iff.rfl

@[simp] theorem ensures_chargePayment :
    Effect.Ensures (chargePayment ctx calls) turn normal exceptional ↔
      normal () { turn with shared := turn.shared.charge ctx calls turn.address } := Iff.rfl

@[simp] theorem ensures_satisfyCode {code : Nat} {normal : Bool → TruthTurn → Prop} :
    Effect.Ensures (satisfyCode ctx code calls) turn normal exceptional ↔ normal (Change.succeeds
          (markChallengeCodeSatisfied calls.satisfying ctx.truthUuid code turn.shared.codes).1)
        { turn with shared := { turn.shared with codes :=
          (markChallengeCodeSatisfied calls.satisfying ctx.truthUuid code
            turn.shared.codes).2 } } := Iff.rfl

end Rules

def runAuthorizationProcess (calls : Calls) : TruthServed Unit := do
  let context ← load
  assert (!context.suspended)
  match calls.process with
  | .success => do
      chargePayment context calls
      endAuthorization
      queueResponse .plugin
  | .failed => do
      if context.paymentIdentifierProvided then beginRefund context calls.refundStarts
      endAuthorization
      queueResponse .plugin
  | .suspended => awaitPlugin
  | .successReplyFailed => do
      chargePayment context calls
      endAuthorization
      hangUp
  | .failedReplyFailed => do
      endAuthorization
      hangUp
  | .finished => do
      if calls.satisfies then
        let _ ← satisfyCode context context.code calls
      endAuthorization
      if context.inList then leaveList

def startFailed : TruthReply := .error ⟨500, .truthAuthorizationStartFailed, none⟩

/-- The state of the plugin is set up, unless the plugin is not content. -/
def startPlugin (calls : Calls) (code : Nat) : TruthServed Bool := do
  let context ← load
  match context.authorization with
  | none => Effect.throw .assertion
  | some authorization =>
    match authorization.start with
    | .checksAnswers => do
        assert (code == 0)
        return calls.starts
    | .satisfies => do
        let satisfied ← satisfyCode context code calls
        return satisfied && calls.starts
    | .keeps => return calls.starts

theorem startPlugin_ensures {calls : Calls} {code : Nat} {turn : TruthTurn} :
    Effect.Ensures (startPlugin calls code) turn
      (fun _ fin => ∃ codes, fin = { turn with shared := { turn.shared with codes := codes } })
      (fun _ _ => True) := by
  unfold startPlugin
  simp only [Effect.ensures_bind, ensures_load]
  split
  · trivial
  split
  · simp only [Effect.ensures_bind, ensures_assert]
    split
    · exact ⟨_, rfl⟩
    · trivial
  · simp only [Effect.ensures_bind, ensures_satisfyCode]
    exact ⟨_, rfl⟩
  · exact ⟨_, rfl⟩

/-- The plugin judges the answer; while it does, the request is in no list. -/
def directValidation (calls : Calls) : TruthServed Unit := do
  let started ← startPlugin calls 0
  if started = false then queueResponse startFailed
  else do
    update fun context => { context with authorizing := true }
    match calls.process with
    | .success | .failed => queueResponse .plugin
    | .suspended => awaitPlugin
    | .successReplyFailed | .failedReplyFailed => hangUp
    | .finished => queueResponse (returnKeyShare calls.keyShare)

def startAuthorization (calls : Calls) : TruthServed Unit := do
  let started ← startPlugin calls (← load).code
  if started = false then queueResponse startFailed
  else do
    update fun context => { context with authorizing := true }
    let context ← load
    if context.inList = false then do
      update fun context => { context with inList := true }
      link .insert
    assert (!context.suspended)
    runAuthorizationProcess calls

def serveChallenge (service : ChallengeService) (calls : Calls) (method : ChallengeMethod)
    (encryptedTruth : Bytes) : TruthServed Unit := do
  let (course, context, codes) :=
    challenge service calls (← load) method encryptedTruth (← shared).codes
  update fun _ => context
  setCodes codes
  match course with
  | .reply reply => queueResponse reply
  | .hangUp => hangUp
  | .abort => Effect.throw .assertion
  | .validateDirectly => directValidation calls
  | .authorize => startAuthorization calls

def continueTruthGet (service : ChallengeService) (calls : Calls) : TruthServed Unit :=
  match calls.escrow with
  | .failed _ => queueResponse (.error ⟨500, .genericDbFetchFailed, some "get escrow challenge"⟩)
  | .noResults => queueResponse (.error ⟨404, .truthUnknown, none⟩)
  | .oneResult escrow =>
    match service.load escrow.methodName with
    | none => do
        update fun context => { context with authorization := none }
        queueResponse (.error ⟨500, .truthAuthorizationMethodNoLongerSupported,
          some escrow.methodName⟩)
    | some method => do
        update (·.withMethod service method)
        let context ← load
        match admission calls context method (← shared).payments with
        | .refused reply => queueResponse (.error reply)
        | .beginPayment => beginPayment calls
        | .free => serveChallenge service calls method escrow.encryptedTruth
        | .paid payment => do
            act (.challengeServed · context.truthUuid payment.paymentIdentifier)
            serveChallenge service calls method escrow.encryptedTruth

structure TruthRequest where
  truthUuid : TruthUuid
  paymentIdentifier : Header PaymentSecret
  truthDecryptionKey : Header TruthKey
  response : Header HashCode
  timeoutMs : Header Nat

def freshContext (truthUuid : TruthUuid) : GetContext where
  paymentIdentifier := none
  truthUuid := truthUuid
  truthKey := zeroBlock 32
  challengeCost := 0
  connection := .active
  authorization := none
  authorizing := false
  po := false
  cpo := false
  resp := none
  hn := false
  challengeResponse := none
  timeout := 0
  code := 0
  paymentIdentifierProvided := false
  inList := false
  suspended := false

/-- A parameter of a request that is written into its context if it is there. -/
def setup {Content : Type} (parameter : String) (set : Content → GetContext → GetContext) :
    Header Content → GetContext → Except ErrorReply GetContext
  | .absent, context => .ok context
  | .malformed, _ => .error ⟨400, .genericParameterMalformed, some parameter⟩
  | .value content, context => .ok (set content context)

def paymentIdentifierHeader : String := "Anastasis-Payment-Identifier"

def truthDecryptionKeyHeader : String := "Anastasis-Truth-Decryption-Key"

def TruthRequest.setup (request : TruthRequest) (now : Time) : Except ErrorReply GetContext := do
  let context ← Server.setup paymentIdentifierHeader (fun paymentIdentifier context => { context with
      paymentIdentifier := some paymentIdentifier
      paymentIdentifierProvided := true })
    request.paymentIdentifier (freshContext request.truthUuid)
  let truthKey ← request.truthDecryptionKey.required truthDecryptionKeyHeader
  let context ← Server.setup truthDecryptionKeyHeader
    (fun truthKey context => { context with truthKey := truthKey }) truthKey context
  let context ← Server.setup "response"
    (fun response context => { context with challengeResponse := some response })
    request.response context
  Server.setup "timeout_ms (must be non-negative number)" (fun timeoutMs context => { context with
      timeout := relativeToAbsolute now (relativeMultiply 1000 timeoutMs) })
    request.timeoutMs { context with timeout := relativeToAbsolute now seconds }

/-- What a request brings along; a payment identifier is there if the client provided one. -/
theorem TruthRequest.setup_eq {req : TruthRequest} {now : Time} {ctx : GetContext}
    (read : req.setup now = .ok ctx) : ∃ paymentIdentifier truthKey challengeResponse timeout,
      ctx = { freshContext req.truthUuid with
        paymentIdentifier := paymentIdentifier
        paymentIdentifierProvided := paymentIdentifier.isSome
        truthKey := truthKey
        challengeResponse := challengeResponse
        timeout := timeout } := by
  obtain ⟨uuid, paymentIdentifier, truthDecryptionKey, resp, timeoutMs⟩ := req
  cases paymentIdentifier <;> cases truthDecryptionKey <;> cases resp <;> cases timeoutMs <;>
    cases read <;> exact ⟨_, _, _, _, rfl⟩

def truthGet (service : ChallengeService) (request : TruthRequest) (calls : Calls) : TruthServed Unit :=
  match request.setup calls.now with
  | .error reply => queueResponse (.error reply)
  | .ok context => do
      update fun _ => context
      continueTruthGet service calls

def truthGetAgain (service : ChallengeService) (calls : Calls) : TruthServed Unit := do
  update fun context => { context with suspended := false }
  let context ← load
  match context.resp with
  | some reply => do
      queueResponse reply
      update fun context => { context with resp := none }
  | none =>
    if context.authorizing then do
      assert context.authorization.isSome
      runAuthorizationProcess calls
    else continueTruthGet service calls

def wakeUp : TruthServed Unit := resumeConnection

/-- One round of the loop over the nodes that are due, for the root of the heap. -/
def doTimeout : TruthServed Unit := do
  let context ← load
  if context.suspended then
    update fun context => { context with suspended := false }
    resumeConnection
  assert context.hn
  update fun context => { context with hn := false }
  removeNode
  scheduleTimeout

def requestDone : TruthServed Unit := do
  let context ← load
  assert (!context.suspended)
  if context.inList then leaveList
  if context.hn then removeNode
  act .freed

def refundCb (refund : RefundEntry) (granted : Bool) (recording : Option Failure)
    (shared : TruthShared) : TruthShared :=
  { shared with
    refunds := shared.refunds.erase refund
    payments := match granted, refund.paymentIdentifier with
      | true, some paymentIdentifier =>
        (recordChallengeRefund recording refund.truthUuid paymentIdentifier shared.payments).2
      | _, _ => shared.payments }

/-- What the shutdown does to each request that it takes out of the list. -/
def GetContext.shutDown (context : GetContext) : GetContext :=
  { context with
    inList := false
    cpo := false
    po := false
    suspended := false
    connection := if context.suspended then .active else context.connection
    authorizing := false
    authorization := if context.authorizing then none else context.authorization }

abbrev TruthServer := RequestServer GetContext TruthShared

def TruthServer.start : TruthServer where
  requests := .empty
  shared := ⟨[], [], [], [], none, []⟩
  stopped := false

inductive TruthEvent where
  | arrives (gc : Address) (request : TruthRequest) (calls : Calls)
  | turn (gc : Address) (calls : Calls)
  | proposal (gc : Address) (created : Bool) (now : Time) (recording : Option Failure)
  | orderChecked (gc : Address) (status : OrderStatus) (updating : Option Failure)
  | wokenUp (gc : Address)
  | timedOut (gc : Address) (now : Time)
  | done (gc : Address)
  | refunded (refund : RefundEntry) (granted : Bool) (recording : Option Failure)

/-- Which events may come next: connections are served while they are not suspended, the merchant
and the plugins only answer when they were asked, and the task takes the root of the heap. -/
def TruthServer.Awaits (server : TruthServer) : TruthEvent → Prop
  | .arrives gc _ _ => server.stopped = false ∧ server.requests.get gc = none
  | .turn gc _ => server.stopped = false ∧
      ∃ context, server.requests.get gc = some context ∧ context.connection = .active
  | .proposal gc _ _ _ => ∃ context, server.requests.get gc = some context ∧ context.po
  | .orderChecked gc _ _ => ∃ context, server.requests.get gc = some context ∧ context.cpo
  | .wokenUp gc => ∃ context, server.requests.get gc = some context ∧ context.authorizing ∧
      (context.connection = .suspended ∨ context.connection = .active)
  | .timedOut gc now => server.stopped = false ∧
      (∃ scheduled ≤ now, server.shared.task = some scheduled) ∧
      ∃ timeout ≤ now, earliest server.shared.timeouts = some timeout ∧
        ⟨gc, timeout⟩ ∈ server.shared.timeouts
  | .done gc => ∃ context, server.requests.get gc = some context ∧ context.connection ≠ .suspended
  | .refunded refund _ _ => refund ∈ server.shared.refunds

def TruthServer.handle (service : ChallengeService) (server : TruthServer) :
    TruthEvent → Except Fault TruthServer
  | .arrives gc request calls =>
    (server.allocate gc (freshContext request.truthUuid)).serve gc
      (truthGet service request calls)
  | .turn gc calls => server.serve gc (truthGetAgain service calls)
  | .proposal gc created now recording => server.serve gc (proposalCb created now recording)
  | .orderChecked gc status updating => server.serve gc (checkPaymentCb status updating)
  | .wokenUp gc => server.serve gc wakeUp
  | .timedOut gc _ => server.serve gc doTimeout
  | .done gc => do
      let server ← server.serve gc requestDone
      return server.free gc
  | .refunded refund granted recording =>
    .ok { server with shared := refundCb refund granted recording server.shared }

def TruthServer.isSuspended (server : TruthServer) (gc : Address) : Bool :=
  (server.requests.get gc).any (·.suspended)

/-- Refunds are given up, and everybody in the list is taken out of it. -/
def TruthServer.shutDown (server : TruthServer) (fuel : Nat) : Option (List Address × TruthServer) :=
  (server.requests.close GetContext.shutDown fuel).map fun (visited, requests) =>
    (visited, { server with
      requests := requests
      shared := { server.shared with
        refunds := []
        task := none
        actions := server.shared.actions ++
          (visited.filter server.isSuspended).map .connectionResumed }
      stopped := true })

inductive TruthLabel where
  | handled (event : TruthEvent)
  | shutDown (visited : List Address)

inductive TruthStep (service : ChallengeService) :
    TruthServer → TruthLabel → TruthServer → Prop where
  | handled {server next : TruthServer} {event : TruthEvent} :
      server.Awaits event → server.handle service event = .ok next →
      TruthStep service server (.handled event) next
  | shutDown {server next : TruthServer} {visited : List Address} {fuel : Nat} :
      server.stopped = false → server.shutDown fuel = some (visited, next) →
      TruthStep service server (.shutDown visited) next

end Anastasis.Server
