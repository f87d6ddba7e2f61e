import Anastasis.Server.RateLimit
import Anastasis.Stasis.ChallengePayments

/-! Requests for the key share of a truth: who has to pay first, and which challenge is to be
solved. -/

set_option autoImplicit false

namespace Anastasis.Server

open Library Stasis

abbrev TruthKey := Block 32

inductive PluginStart where
  /-- The plugin checks answers itself and insists on the code 0. -/
  | checksAnswers
  /-- Whoever knows the code has solved the challenge. -/
  | satisfies
  | keeps
deriving DecidableEq

structure AuthorizationPlugin where
  cost : Amount
  start : PluginStart
  paymentPluginManaged : Bool
  userProvidedCode : Bool
  settings : ChallengeSettings
  codeRetransmissionFrequency : Time

/-- The configuration of a provider, and the cryptography that it uses. -/
structure ChallengeService where
  questionCost : Amount
  pluginLoad : String → Option AuthorizationPlugin
  truthDecrypt : TruthKey → Bytes → Option Bytes
  hashAnswer : Nat → HashCode

inductive TruthReply where
  | error (reply : ErrorReply)
  | paymentRequired (paymentIdentifier : PaymentSecret)
  | keyShare (encryptedKeyShare : EncryptedKeyShare)
  /-- A reply that the authorization plugin queued. -/
  | plugin
deriving DecidableEq

inductive ConnectionState where
  | active
  | suspended
  | replied (reply : TruthReply)
  | hungUp
deriving DecidableEq

/-- `paymentIdentifier` and `authorization` are missing while they still are what they were when
the context was allocated. -/
structure GetContext where
  paymentIdentifier : Option PaymentSecret
  truthUuid : TruthUuid
  truthKey : TruthKey
  challengeCost : Amount
  connection : ConnectionState
  authorization : Option AuthorizationPlugin
  /-- The authorization process is running. -/
  authorizing : Bool
  /-- Waiting for the merchant to create an order. -/
  po : Bool
  /-- Waiting for the merchant to check an order. -/
  cpo : Bool
  resp : Option TruthReply
  /-- The node in the heap of timeouts. -/
  hn : Bool
  challengeResponse : Option HashCode
  timeout : Time
  code : Nat
  paymentIdentifierProvided : Bool
  inList : Bool
  suspended : Bool

structure EscrowChallenge where
  encryptedTruth : Bytes
  methodName : String

inductive Validation where
  | valid
  | replied
  | hungUp

inductive AuthorizationResult where
  | success
  | failed
  | suspended
  | successReplyFailed
  | failedReplyFailed
  | finished
deriving DecidableEq

/-- What the calls come back with that the handler makes in one of its turns. -/
structure Calls where
  now : Time
  escrow : Selection EscrowChallenge
  checking : Option Failure
  looking : Option Failure
  freshIdentifier : PaymentSecret
  keyShare : Selection EncryptedKeyShare
  rateLimit : RateLimitCall
  verifying : Nat → Option Failure
  validation : Validation
  random : Nat → Nat
  creating : Nat → Option Failure
  satisfying : Option Failure
  starts : Bool
  process : AuthorizationResult
  /-- The plugin has found what it waited for, and marks the code. -/
  satisfies : Bool
  marking : Option Failure
  charging : Option Failure
  refundStarts : Bool

inductive ChallengeMethod where
  | question
  | plugin (authorization : AuthorizationPlugin)

def ChallengeMethod.charged : ChallengeMethod → Bool
  | .question => true
  | .plugin authorization => !authorization.paymentPluginManaged

def ChallengeService.load (service : ChallengeService) (methodName : String) :
    Option ChallengeMethod :=
  if methodName = "question" then some .question
  else (service.pluginLoad methodName).map .plugin

def GetContext.withMethod (service : ChallengeService) (context : GetContext) :
    ChallengeMethod → GetContext
  | .question => { context with challengeCost := service.questionCost }
  | .plugin authorization =>
    { context with authorization := some authorization, challengeCost := authorization.cost }

namespace GetContext

variable {service svc : ChallengeService} {context ctx : GetContext} {method m : ChallengeMethod}

@[simp] theorem withMethod_truthUuid :
    (ctx.withMethod svc m).truthUuid = ctx.truthUuid := by cases m <;> rfl

@[simp] theorem withMethod_connection :
    (ctx.withMethod svc m).connection = ctx.connection := by cases m <;> rfl

@[simp] theorem withMethod_authorizing :
    (ctx.withMethod svc m).authorizing = ctx.authorizing := by cases m <;> rfl

@[simp] theorem withMethod_challengeResponse :
    (ctx.withMethod svc m).challengeResponse = ctx.challengeResponse := by cases m <;> rfl

@[simp] theorem withMethod_inList : (ctx.withMethod svc m).inList = ctx.inList := by cases m <;> rfl

end GetContext

/-- What the handler finds out about a request before it turns to the challenge. -/
inductive Admission where
  | refused (reply : ErrorReply)
  | beginPayment
  | free
  | paid (payment : ChallengePayment)

def checkPaid (calls : Calls) (context : GetContext) (payments : ChallengePayments) : Admission :=
  match context.paymentIdentifierProvided, context.paymentIdentifier with
  | true, some paymentIdentifier =>
    match checkChallengePayment calls.checking paymentIdentifier context.truthUuid payments with
    | .failed _ => .refused ⟨500, .genericDbFetchFailed, some "check challenge payment"⟩
    | .noResults => .beginPayment
    | .oneResult payment => if payment.paid then .paid payment else .beginPayment
  | _, _ => .beginPayment

def admission (calls : Calls) (context : GetContext) (method : ChallengeMethod)
    (payments : ChallengePayments) : Admission :=
  if method.charged ∧ context.challengeCost ≠ 0 then checkPaid calls context payments else .free

inductive Course where
  | reply (reply : TruthReply)
  | hangUp
  | abort
  | validateDirectly
  | authorize

def Course.error (status : Nat) (code : ErrorCode) (hint : Option String) : Course :=
  .reply (.error ⟨status, code, hint⟩)

def returnKeyShare : Selection EncryptedKeyShare → TruthReply
  | .failed _ => .error ⟨500, .genericDbFetchFailed, some "get key share"⟩
  | .noResults => .error ⟨404, .truthKeyShareGone, none⟩
  | .oneResult encryptedKeyShare => .keyShare encryptedKeyShare

def absoluteGetDuration (now past : Time) : Time := now - past

def createChallenge (calls : Calls) (authorization : AuthorizationPlugin) (context : GetContext)
    (codes : ChallengeCodes) : Course × GetContext × ChallengeCodes :=
  match calls.validation with
  | .replied => (.reply .plugin, context, codes)
  | .hungUp => (.hangUp, context, codes)
  | .valid =>
    match createChallengeCode authorization.settings context.truthUuid calls.now calls.random
        (.opened codes calls.creating) with
    | (.hardError, final) | (.softError, final) =>
      (.error 500 .genericDbFetchFailed (some "create_challenge_code"), context, final.committed)
    | (.noResults, final) => (.error 429 .truthRateLimited none, context, final.committed)
    | (.oneResult transmissionDate code, final) =>
      if absoluteGetDuration calls.now transmissionDate <
          authorization.codeRetransmissionFrequency then
        (.error 208 .truthChallengeActive none, { context with code := code }, final.committed)
      else (.authorize, { context with code := code }, final.committed)

/-- An answer is for the plugin to judge, or it is compared with the codes of the challenge. -/
def checkAnswer (service : ChallengeService) (calls : Calls) (authorization : AuthorizationPlugin)
    (context : GetContext) (response : HashCode) (codes : ChallengeCodes) :
    Course × GetContext × ChallengeCodes :=
  if authorization.userProvidedCode then
    match rateLimit service.hashAnswer context.truthUuid calls.rateLimit codes with
    | (.passed, final) => (.validateDirectly, context, final)
    | (.replied reply, final) => (.reply (.error reply), context, final)
    | (.aborted, final) => (.abort, context, final)
  else
    match verifyChallengeCode service.hashAnswer context.truthUuid calls.now response
        (.opened codes calls.verifying) with
    | (.challengeCodeMismatch, final) =>
      (.error 403 .truthChallengeFailed none, context, final.committed)
    | (.hardError, final) =>
      (.error 500 .genericDbFetchFailed (some "verify_challenge_code"), context, final.committed)
    | (.noResults, final) =>
      createChallenge calls authorization { context with challengeResponse := none } final.committed
    | (.validCodeStored code satisfied, final) =>
      if satisfied then (.reply (returnKeyShare calls.keyShare), context, final.committed)
      else (.authorize, { context with code := code }, final.committed)

def challenge (service : ChallengeService) (calls : Calls) (context : GetContext)
    (method : ChallengeMethod) (encryptedTruth : Bytes) (codes : ChallengeCodes) :
    Course × GetContext × ChallengeCodes :=
  match service.truthDecrypt context.truthKey encryptedTruth, method with
  | none, _ => (.error 417 .truthDecryptionFailed none, context, codes)
  | some decryptedTruth, .question =>
    match handleSecurityQuestion service.hashAnswer context.truthUuid calls.rateLimit
        context.challengeResponse decryptedTruth codes with
    | (.keyShare, final) => (.reply (returnKeyShare calls.keyShare), context, final)
    | (.error reply, final) => (.reply (.error reply), context, final)
    | (.aborted, final) => (.abort, context, final)
  | some _, .plugin authorization =>
    match context.challengeResponse with
    | some response => checkAnswer service calls authorization context response codes
    | none => createChallenge calls authorization context codes

section Kept

variable {service svc : ChallengeService} {calls : Calls} {authorization auth : AuthorizationPlugin}
  {context ctx : GetContext} {method m : ChallengeMethod} {codes : ChallengeCodes}

/-- Looking at the challenge only settles which code is asked for and whether it was answered. -/
def GetContext.Follows (context next : GetContext) : Prop :=
  ∃ code response, next = { context with code := code, challengeResponse := response }

theorem createChallenge_follows : ctx.Follows (createChallenge calls auth ctx codes).2.1 := by
  unfold createChallenge
  repeat' split
  all_goals exact ⟨_, _, rfl⟩

theorem createChallenge_authorizes :
    (createChallenge calls auth ctx codes).1 ≠ .validateDirectly := by
  unfold createChallenge Course.error
  repeat' split
  all_goals simp

theorem checkAnswer_follows (resp : HashCode) :
    ctx.Follows (checkAnswer service calls authorization ctx resp codes).2.1 := by
  unfold checkAnswer
  repeat' split
  all_goals first | exact ⟨_, _, rfl⟩ | exact createChallenge_follows

theorem checkAnswer_validates {resp : HashCode}
    (directly : (checkAnswer service calls authorization ctx resp codes).1 =
      .validateDirectly) : authorization.userProvidedCode = true := by
  by_contra generated
  unfold checkAnswer at directly
  rw [if_neg generated] at directly
  repeat' split at directly
  all_goals first | cases directly | exact createChallenge_authorizes directly

theorem challenge_follows (encryptedTruth : Bytes) :
    ctx.Follows (challenge service calls ctx m encryptedTruth codes).2.1 := by
  unfold challenge
  repeat' split
  all_goals first
    | exact ⟨_, _, rfl⟩
    | exact checkAnswer_follows _
    | exact createChallenge_follows

theorem challenge_validates {encryptedTruth : Bytes}
    (directly : (challenge svc calls ctx m encryptedTruth codes).1 = .validateDirectly) :
    ctx.challengeResponse ≠ none ∧ ∃ auth, m = .plugin auth ∧ auth.userProvidedCode = true := by
  unfold challenge at directly
  split at directly
  · cases directly
  · split at directly <;> cases directly
  split at directly
  · next answered => exact ⟨by simp [answered], _, rfl, checkAnswer_validates directly⟩
  · exact absurd directly createChallenge_authorizes

end Kept

end Anastasis.Server
