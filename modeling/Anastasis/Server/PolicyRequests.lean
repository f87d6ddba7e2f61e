import Anastasis.Server.TruthUpload
import Anastasis.Server.Turns
import Anastasis.Stasis.Accounts
import Anastasis.Stasis.RecoveryDocuments

/-! Uploads of recovery documents over time: they wait for their payment, are received in pieces and
stored. -/

set_option autoImplicit false

namespace Anastasis.Server.PolicyPost

open Library Stasis

/-- The configuration of a provider, the arithmetic of amounts and the cryptography that it uses. -/
structure PolicyService where
  annualFee : Amount
  postCounter : Nat
  uploadLimitMb : Nat
  amountMultiply : Amount → Nat → Option Amount
  amountDivide2 : Amount → Amount → Nat
  eddsaVerify : AccountPublicKey → AccountSignature → HashCode → Bool
  hash : Bytes → HashCode

inductive PolicyReply where
  | error (reply : ErrorReply)
  | paymentRequired (paymentIdentifier : PaymentSecret)
  | notModified (version : UInt32)
  | noContent (version : UInt32) (expiration : Nat)
deriving DecidableEq

inductive PolicyConnection where
  | active
  | suspended
  | replied (reply : PolicyReply)
deriving DecidableEq

structure PolicyOrder where
  orderId : PaymentSecret
  amount : Amount
  quantity : Nat
deriving DecidableEq

structure PolicyUploadContext where
  accountSig : AccountSignature
  account : AccountPublicKey
  newPolicyUploadHash : HashCode
  /-- The hash of the upload is still being computed. -/
  hashing : Bool
  con : PolicyConnection
  /-- As many bytes as were received so far. -/
  upload : Bytes
  /-- The order that the merchant was asked to set up. -/
  po : Option PolicyOrder
  /-- Waiting for the merchant to check an order. -/
  cpo : Bool
  resp : Option PolicyReply
  paymentIdentifier : PaymentSecret
  existingPiTimestamp : Time
  timeout : Time
  endDate : Time
  paidUntil : Time
  uploadSize : Nat
  yearsToPay : Nat
  paymentIdentifierProvided : Bool

inductive PolicyAction where
  | orderCreated (order : PolicyOrder)
  | orderPaid (orderId : PaymentSecret) (amount : Amount)
  | documentStored (account : AccountPublicKey) (paymentIdentifier : PaymentSecret)
deriving DecidableEq

structure PolicyShared where
  tables : Tables
  actions : List PolicyAction

/-- What the calls come back with that a function of the handler makes: the readings of the clock, the
random numbers, the failures of the database, and what its variables hold before they are set. -/
structure PolicyCalls where
  allocates : Bool
  timing : Time
  desired : Time
  remaining : Time
  recorded : Time
  paying : Time
  now : Time
  checking : Option Failure
  unset : PaymentState
  freshIdentifier : PaymentSecret
  nonce : PaymentSecret
  recording : Nat → Option Failure
  updating : Nat → Option Failure
  incrementing : Nat → Option Failure
  looking : Nat → Option Failure
  storing : Nat → Option Failure

abbrev PolicyTurn := Turn PolicyUploadContext PolicyShared

abbrev PolicyServed := Served PolicyUploadContext PolicyShared

open Served

def act (action : PolicyAction) : PolicyServed Unit :=
  share fun shared => { shared with actions := shared.actions ++ [action] }

def database {Status : Type} (call : Connection Tables → Status × Connection Tables)
    (failures : Nat → Option Failure) : PolicyServed Status := do
  let answer := call (.opened (← shared).tables failures)
  share fun shared => { shared with tables := answer.2.committed }
  return answer.1

section Rules

variable {turn : PolicyTurn} {exceptional : Abort → PolicyTurn → Prop}

@[simp] theorem ensures_act {normal : Unit → PolicyTurn → Prop} (action : PolicyAction) :
    Effect.Ensures (act action) turn normal exceptional ↔ normal () { turn with
        shared := { turn.shared with actions := turn.shared.actions ++ [action] } } := Iff.rfl

@[simp] theorem ensures_database {Status : Type} {normal : Status → PolicyTurn → Prop}
    (call : Connection Tables → Status × Connection Tables) (failures : Nat → Option Failure) :
    Effect.Ensures (database call failures) turn normal exceptional ↔
      normal (call (.opened turn.shared.tables failures)).1 { turn with
        shared := { turn.shared with
          tables := (call (.opened turn.shared.tables failures)).2.committed } } := Iff.rfl

end Rules

def queueResponse (reply : PolicyReply) : PolicyServed Unit :=
  update fun puc => { puc with con := .replied reply }

def queueError (status : Nat) (code : ErrorCode) (hint : Option String) : PolicyServed Unit :=
  queueResponse (.error ⟨status, code, hint⟩)

def answerLater (reply : PolicyReply) : PolicyServed Unit :=
  update fun puc => { puc with resp := some reply }

/-- The request is in the list before it turns out whether it has to wait. -/
def beginPayment (service : PolicyService) : PolicyServed Unit := do
  link .insert
  let puc ← load
  match service.amountMultiply service.annualFee puc.yearsToPay with
  | none => queueError 400 .genericParameterMalformed (some "storage_duration_years")
  | some uploadFee =>
    update fun puc => { puc with
      con := .suspended
      po := some ⟨puc.paymentIdentifier, uploadFee, puc.yearsToPay⟩ }

def awaitPayment : PolicyServed Unit := do
  link .insert
  update fun puc => { puc with con := .suspended, cpo := true }

def preparePayment (service : PolicyService) (calls : PolicyCalls) : PolicyServed Unit := do
  if (← load).paymentIdentifierProvided then awaitPayment
  else do
    update fun puc => { puc with
      paymentIdentifier := calls.nonce
      paymentIdentifierProvided := true }
    beginPayment service

def databaseFetchFailed : PolicyServed Unit := queueError 500 .genericDbFetchFailed none

/-- Whether there is something to upload at all, and whether the account is paid for long enough. -/
def checkAccount (service : PolicyService) (calls : PolicyCalls) : PolicyServed Unit := do
  let account := lookupAccount calls.looking (← load).account (← shared).tables
  update fun puc => { puc with paidUntil := max (account.2.getD puc.paidUntil) calls.now }
  update fun puc => { puc with
    yearsToPay := yearsIn (absoluteGetDifference puc.paidUntil puc.endDate) }
  let puc ← load
  match account.1 with
  | .paymentRequired => preparePayment service calls
  | .hardError => databaseFetchFailed
  | .noResults => return ()
  | .validHashReturned recoveryDataHash version =>
    if puc.yearsToPay ≠ 0 then preparePayment service calls
    else if recoveryDataHash = puc.newPolicyUploadHash then queueResponse (.notModified version)
    else return ()

/-- The payment that the client refers to. If it is unknown, its state is what the variables happen to
hold. -/
def checkPayment (service : PolicyService) (calls : PolicyCalls) : PolicyServed Unit := do
  let puc ← load
  let goOn (state : PaymentState) : PolicyServed Unit :=
    if state.paid && state.validCounter then checkAccount service calls
    else if state.validCounter then preparePayment service calls
    else do
      update fun puc => { puc with
        paymentIdentifierProvided := false
        yearsToPay := if puc.yearsToPay = 0 then 1 else puc.yearsToPay }
      preparePayment service calls
  match checkPaymentIdentifier calls.checking puc.paymentIdentifier (← shared).tables with
  | .failed _ => databaseFetchFailed
  | .noResults => goOn calls.unset
  | .oneResult state => goOn state

def recordFreePayment (service : PolicyService) (calls : PolicyCalls) : PolicyServed Unit := do
  let puc ← load
  match ← database (recordRecdocPayment calls.recorded puc.account service.postCounter
      puc.paymentIdentifier service.annualFee) calls.recording with
  | .oneResult => do
      update fun puc => { puc with
        paidUntil := relativeToAbsolute calls.paying (relativeMultiply years maxYearsStorage) }
      let puc ← load
      match ← database (updateLifetime puc.account puc.paymentIdentifier puc.paidUntil)
          calls.updating with
      | .oneResult => checkAccount service calls
      | _ => databaseFetchFailed
  | _ => databaseFetchFailed

structure PolicyRequest where
  accountPub : AccountPublicKey
  paymentIdentifier : Header PaymentSecret
  contentLength : Header Nat
  policySignature : Header AccountSignature
  ifNoneMatch : Header HashCode
  timeoutMs : Header Nat
  storageDuration : Header Nat

def checkPaymentGenericTimeout : Time := 30 * 60 * 1000000

def zeroPaymentSecret : PaymentSecret := zeroBlock 32

def PolicyRequest.setup (service : PolicyService) (calls : PolicyCalls) (request : PolicyRequest) :
    Except ErrorReply PolicyUploadContext := do
  let paymentIdentifier ← request.paymentIdentifier.optional ⟨400, .genericParameterMalformed,
    some "Anastasis-Payment-Identifier header must be a base32-encoded Payment-Secret"⟩
  let uploadSize ← request.contentLength.mandatory ⟨400, .genericMissingContentLength, none⟩
    ⟨400, .genericMalformedContentLength, none⟩
  if service.uploadLimitMb ≤ uploadSize / 1024 / 1024 then
    .error ⟨413, .syncMalformedContentLength, some "Content-length value not acceptable"⟩
  if calls.allocates = false then
    .error ⟨413, .policyOutOfMemoryOnContentLength, none⟩
  let badSignature : ErrorReply := ⟨400, .policyBadSignature,
    some "Anastasis-Policy-Signature header must include a base32-encoded EdDSA signature"⟩
  let accountSig ← request.policySignature.mandatory badSignature badSignature
  let badIfMatch : ErrorReply := ⟨400, .policyBadIfMatch,
    some "If-None-Match header must include a base32-encoded SHA-512 hash"⟩
  let newPolicyUploadHash ← request.ifNoneMatch.mandatory badIfMatch badIfMatch
  if service.eddsaVerify request.accountPub accountSig newPolicyUploadHash = false then
    .error ⟨403, .policyBadSignature, some "Anastasis-Policy-Signature"⟩
  let timeoutMs ← request.timeoutMs.optional ⟨400, .genericParameterMalformed,
    some "timeout_ms (must be non-negative number)"⟩
  let storageDuration ← request.storageDuration.optional ⟨400, .genericParameterMalformed,
    some "storage_duration (must be non-negative number)"⟩
  return {
    accountSig := accountSig
    account := request.accountPub
    newPolicyUploadHash := newPolicyUploadHash
    hashing := true
    con := .active
    upload := []
    po := none
    cpo := false
    resp := none
    paymentIdentifier := paymentIdentifier.getD zeroPaymentSecret
    existingPiTimestamp := 0
    timeout := relativeToAbsolute calls.timing (match timeoutMs with
      | some timeoutMs => relativeMultiply 1000 timeoutMs
      | none => checkPaymentGenericTimeout)
    endDate := relativeToAbsolute calls.desired (relativeMultiply years (storageDuration.getD 0))
    paidUntil := 0
    uploadSize := uploadSize
    yearsToPay := 0
    paymentIdentifierProvided := paymentIdentifier.isSome }

def policyPost (service : PolicyService) (request : PolicyRequest) (calls : PolicyCalls) :
    PolicyServed Unit :=
  match request.setup service calls with
  | .error reply => queueResponse (.error reply)
  | .ok puc => do
      update fun _ => { puc with
        yearsToPay := yearsIn (absoluteGetRemaining calls.remaining puc.endDate) }
      if puc.paymentIdentifierProvided then checkPayment service calls
      else do
        update fun puc => { puc with paymentIdentifier := calls.freshIdentifier }
        if service.annualFee ≠ 0 then beginPayment service
        else recordFreePayment service calls

def PolicyUploadContext.document (puc : PolicyUploadContext) : DocumentUpload where
  accountPub := puc.account
  accountSig := puc.accountSig
  recoveryDataHash := puc.newPolicyUploadHash
  recoveryData := puc.upload ++ List.replicate (puc.uploadSize - puc.upload.length) 0
  paymentSecret := puc.paymentIdentifier

def payAgain (service : PolicyService) (calls : PolicyCalls) : PolicyServed Unit := do
  if (← load).paymentIdentifierProvided then beginPayment service
  else do
    update fun puc => { puc with
      paymentIdentifier := calls.freshIdentifier
      paymentIdentifierProvided := true }
    beginPayment service

def storeBackup (service : PolicyService) (calls : PolicyCalls) : PolicyServed Unit := do
  let puc ← load
  match ← database (storeRecoveryDocument puc.document) calls.storing with
  | .storeLimitExceeded | .paymentRequired => payAgain service calls
  | .hardError | .softError => databaseFetchFailed
  | .noResults version => queueResponse (.notModified version)
  | .success version => do
      act (.documentStored puc.account puc.paymentIdentifier)
      queueResponse (.noContent version (puc.paidUntil / 1000000))

def policyPostAgain (service : PolicyService) (recoveryData : Bytes) (calls : PolicyCalls) :
    PolicyServed Unit := do
  let puc ← load
  match puc.resp with
  | some reply => do
      queueResponse reply
      update fun puc => { puc with resp := none }
  | none =>
    if recoveryData ≠ [] then do
      assert (puc.upload.length + recoveryData.length ≤ puc.uploadSize)
      assert puc.hashing
      update fun puc => { puc with upload := puc.upload ++ recoveryData }
    else if puc.upload = [] ∧ puc.uploadSize ≠ 0 then return ()
    else if puc.hashing then do
      update fun puc => { puc with hashing := false }
      if service.hash puc.upload ≠ puc.newPolicyUploadHash then
        queueError 400 .policyInvalidUpload (some "Data uploaded does not match Etag promise")
      else storeBackup service calls
    else storeBackup service calls

def resume : PolicyServed Unit := do
  link .remove
  update fun puc => { puc with con := .active }

def proposalCb (service : PolicyService) (created : Bool) (calls : PolicyCalls) :
    PolicyServed Unit := do
  let order := (← load).po
  update fun puc => { puc with po := none }
  resume
  if created = false then
    answerLater (.error ⟨502, .syncPaymentCreateBackendError,
      some "Failed to setup order with merchant backend"⟩)
  else do
    if let some order := order then act (.orderCreated order)
    let puc ← load
    match ← database (recordRecdocPayment calls.recorded puc.account service.postCounter
        puc.paymentIdentifier service.annualFee) calls.recording with
    | .oneResult => answerLater (.paymentRequired puc.paymentIdentifier)
    | _ => answerLater (.error ⟨500, .genericDbStoreFailed, some "record recdoc payment"⟩)

inductive PolicyOrderStatus where
  | unauthorized
  | unavailable
  | paid (amount : Option Amount)
  | claimed
  | unpaid

def paidLifetime (service : PolicyService) (amount : Amount) : Time :=
  absoluteAdd (relativeMultiply years (service.amountDivide2 amount service.annualFee)) Stasis.weeks

def confirmPayment (service : PolicyService) (amount : Amount) (calls : PolicyCalls) :
    PolicyServed Unit := do
  let puc ← load
  act (.orderPaid puc.paymentIdentifier amount)
  match ← database (incrementLifetime calls.paying puc.account puc.paymentIdentifier
      (paidLifetime service amount)) calls.incrementing with
  | .oneResult paidUntil | .noResults paidUntil =>
    update fun puc => { puc with paidUntil := paidUntil }
  | .hardError | .softError =>
    answerLater (.error ⟨500, .genericDbFetchFailed, some "increment lifetime"⟩)

def checkPaymentCb (service : PolicyService) (status : PolicyOrderStatus) (calls : PolicyCalls) :
    PolicyServed Unit := do
  update fun puc => { puc with cpo := false }
  resume
  match status with
  | .unauthorized => answerLater (.error ⟨500, .genericPaymentCheckUnauthorized, none⟩)
  | .unavailable =>
    answerLater (.error ⟨502, .genericBackendError, some "failed to initiate payment"⟩)
  | .paid none =>
    answerLater (.error ⟨500, .merchantContractContentInvalid, some "no amount given"⟩)
  | .paid (some amount) => confirmPayment service amount calls
  | .claimed | .unpaid => do
      let puc ← load
      if puc.existingPiTimestamp ≠ 0 then answerLater (.paymentRequired puc.paymentIdentifier)
      else
        answerLater (.error ⟨408, .syncPaymentGenericTimeout,
          some "Timeout awaiting promised payment"⟩)

/-- What the shutdown does to each request that it takes out of the list. -/
def PolicyUploadContext.shutDown (puc : PolicyUploadContext) : PolicyUploadContext :=
  { puc with po := none, cpo := false, con := .active }

abbrev PolicyServer := RequestServer PolicyUploadContext PolicyShared

def PolicyServer.start : PolicyServer where
  requests := .empty
  shared := ⟨emptyTables, []⟩
  stopped := false

inductive PolicyEvent where
  | arrives (puc : Address) (request : PolicyRequest) (calls : PolicyCalls)
  | turn (puc : Address) (recoveryData : Bytes) (calls : PolicyCalls)
  | proposal (puc : Address) (created : Bool) (calls : PolicyCalls)
  | orderChecked (puc : Address) (status : PolicyOrderStatus) (calls : PolicyCalls)
  | done (puc : Address)

def newContext : PolicyUploadContext where
  accountSig := zeroBlock 64
  account := zeroPaymentSecret
  newPolicyUploadHash := zeroBlock 64
  hashing := false
  con := .active
  upload := []
  po := none
  cpo := false
  resp := none
  paymentIdentifier := zeroPaymentSecret
  existingPiTimestamp := 0
  timeout := 0
  endDate := 0
  paidUntil := 0
  uploadSize := 0
  yearsToPay := 0
  paymentIdentifierProvided := false

/-- Which events may come next: connections are served while they are not suspended, and the
merchant only answers when it was asked. -/
def PolicyServer.Awaits (server : PolicyServer) : PolicyEvent → Prop
  | .arrives puc _ _ => server.stopped = false ∧ server.requests.get puc = none
  | .turn puc _ _ => server.stopped = false ∧
      ∃ context, server.requests.get puc = some context ∧ context.con = .active
  | .proposal puc _ _ => ∃ context, server.requests.get puc = some context ∧ context.po ≠ none
  | .orderChecked puc _ _ => ∃ context, server.requests.get puc = some context ∧ context.cpo
  | .done puc => ∃ context, server.requests.get puc = some context ∧ context.con ≠ .suspended

def PolicyServer.handle (service : PolicyService) (server : PolicyServer) :
    PolicyEvent → Except Fault PolicyServer
  | .arrives puc request calls =>
    (server.allocate puc newContext).serve puc (policyPost service request calls)
  | .turn puc recoveryData calls => server.serve puc (policyPostAgain service recoveryData calls)
  | .proposal puc created calls => server.serve puc (proposalCb service created calls)
  | .orderChecked puc status calls => server.serve puc (checkPaymentCb service status calls)
  | .done puc => .ok (server.free puc)

def PolicyServer.shutDown (server : PolicyServer) (fuel : Nat) :
    Option (List Address × PolicyServer) :=
  (server.requests.close PolicyUploadContext.shutDown fuel).map fun (visited, requests) =>
    (visited, { server with requests := requests, stopped := true })

inductive PolicyLabel where
  | handled (event : PolicyEvent)
  | shutDown (visited : List Address)

inductive PolicyStep (service : PolicyService) :
    PolicyServer → PolicyLabel → PolicyServer → Prop where
  | handled {server next : PolicyServer} {event : PolicyEvent} :
      server.Awaits event → server.handle service event = .ok next →
      PolicyStep service server (.handled event) next
  | shutDown {server next : PolicyServer} {visited : List Address} {fuel : Nat} :
      server.stopped = false → server.shutDown fuel = some (visited, next) →
      PolicyStep service server (.shutDown visited) next

end Anastasis.Server.PolicyPost
