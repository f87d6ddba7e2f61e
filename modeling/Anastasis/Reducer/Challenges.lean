import Anastasis.Library.JsonUpdate
import Anastasis.Reducer.PolicyDiscovery

/-! Solving challenges: an action of the recovery reducer from its start to its callback, with the
lookups and tasks that it leaves behind. -/

set_option autoImplicit false

namespace Anastasis.Reducer.Challenges

open Library Client
open Discovery (RecoveryStates abortFaults stateInvalid)

/-- A secret is read as JSON whose objects have no member twice; the other is the error code for an
authentication that timed out. -/
structure RecoveryHost extends Host where
  rejectDuplicates : Bytes → Option Json
  truthAuthTimeout : ErrorCode

def actionInvalid : ErrorCode := 8400
def inputInvalid : ErrorCode := 8402
def inputInvalidForState : ErrorCode := 8404
def secretMalformed : ErrorCode := 8415
def internalInvariantFailure : ErrorCode := 60
def truthUnknown : ErrorCode := 8108
def truthRateLimited : ErrorCode := 8121

/-- A challenge as it is listed for the user. An identifier that cannot be parsed is `none`. -/
structure InfoChallenge where
  uuid : Option TruthUuid
  paymentSecret : Option Json
  answer : Option Json

structure RecoveryState where
  recoveryState : RecoveryStates
  recoveryInformation : Option (List InfoChallenge)
  recoveryDocument : Option Json
  selectedChallengeUuid : Option Json
  challengeFeedback : List (String × Json)
  coreSecret : Option Json

inductive Field (Value : Type) where
  | missing
  | malformed
  | given (value : Value)

structure Arguments where
  uuid : Field TruthUuid
  timeout : Field Nat
  paymentSecret : Field PaymentSecret
  answer : Option Json
  pin : Option Json
  hash : Field HashCode

/-- What the action callback is told. A lookup that failed is reported by its status. -/
inductive Outcome where
  | failed (code : ErrorCode) (detail : Option String)
  | lookupFailed (status : RecoveryStatus)
  | next (code : ErrorCode) (state : RecoveryState)

inductive PolicyCallback where
  | selectChallenge
  | solveChallenge
  | payChallenge
deriving DecidableEq

/-- The recovery of a context waits for `doAsync`, or for its lookups. -/
structure SelectChallengeContext where
  pc : PolicyCallback
  uuid : TruthUuid
  timeout : Nat
  ps : PaymentSecret
  pollOnly : Bool
  args : Option Arguments
  state : RecoveryState
  r : Recovery
  doAsync : Bool
  delayedReport : Option Nat

inductive Reply where
  | await (sctx : SelectChallengeContext)
  | delay (sctx : SelectChallengeContext)
  | report (outcome : Outcome) (sctx : SelectChallengeContext)
  | finish (outcome : Outcome)

/-! ## The state -/

section State

variable (host : Host)

def RecoveryState.csItems (state : RecoveryState) : List Json :=
  (state.recoveryDocument.map fun rd => rd.itemsAt "cs").getD []

def findChallengeInCs (state : RecoveryState) (uuid : TruthUuid) : Option Nat :=
  state.csItems.findIdx? fun c => parseFixed host 32 c "uuid" = some uuid

def RecoveryState.csField (state : RecoveryState) (place : Nat) (name : String) : Option Json :=
  state.csItems[place]?.bind fun c => c.member? name

def RecoveryState.setInCs (state : RecoveryState) (place : Nat) (name : String) (field : Json) :
    RecoveryState :=
  { state with
    recoveryDocument := state.recoveryDocument.map fun rd =>
      rd.setItemField "cs" place name field }

def findInfo (uuid : TruthUuid) : List InfoChallenge → Option (Nat × InfoChallenge)
  | [] => none
  | challenge :: rest =>
    match challenge.uuid with
    | none => none
    | some u =>
      if u = uuid then some (0, challenge)
      else (findInfo uuid rest).map fun found => (found.1 + 1, found.2)

def findChallengeInRi (state : RecoveryState) (uuid : TruthUuid) : Option (Nat × InfoChallenge) :=
  state.recoveryInformation.bind (findInfo uuid)

def RecoveryState.setPaymentSecret (state : RecoveryState) (place : Nat) (ps : PaymentSecret) :
    RecoveryState :=
  { state with
    recoveryInformation := state.recoveryInformation.map fun challenges =>
      challenges.modify place fun challenge =>
        { challenge with paymentSecret := packData host ps.val } }

def parsePaymentSecret (value : Json) : Option PaymentSecret :=
  value.string?.bind (host.stringToData 32)

def RecoveryState.setFeedback (state : RecoveryState) (uuid : TruthUuid) (feedback : Json) :
    RecoveryState :=
  { state with
    challengeFeedback :=
      Json.setMember state.challengeFeedback (host.dataToString uuid.val) feedback }

def RecoveryState.enter (state : RecoveryState) (next : RecoveryStates) : RecoveryState :=
  { state with recoveryState := next }

def RecoveryState.selectedUuid (state : RecoveryState) : Option TruthUuid :=
  (state.selectedChallengeUuid.bind Json.string?).bind (host.stringToData 32)

end State

/-! ## Starting lookups -/

section Starting

variable (host : Host)

def unsigned (value : Int) : Nat := (value % 2 ^ 64).toNat

def SelectChallengeContext.setChallenge (sctx : SelectChallengeContext) (place : Nat)
    (c : Challenge) : SelectChallengeContext :=
  { sctx with r := { sctx.r with cs := sctx.r.cs.set place c } }

/-- Nothing is started for a challenge that is solved or already has a lookup. -/
def SelectChallengeContext.start (sctx : SelectChallengeContext) (place : Nat)
    (operation : Challenge → Challenge) : Option SelectChallengeContext :=
  match sctx.r.cs[place]? with
  | none => none
  | some c =>
    if c.solved || c.kslo.isSome then none
    else if (operation c).kslo.isSome then some (sctx.setChallenge place (operation c))
    else none

def SelectChallengeContext.begin (sctx : SelectChallengeContext) (place : Nat)
    (operation : Challenge → Challenge) : Reply :=
  match sctx.start place operation with
  | none => .finish (.failed internalInvariantFailure (some "Failed to begin answering challenge"))
  | some sctx => .await sctx

def SelectChallengeContext.setInCs (sctx : SelectChallengeContext) (entry : Nat) (name : String)
    (field : Json) : SelectChallengeContext :=
  { sctx with state := sctx.state.setInCs entry name field }

/-- The first challenge of the recovery that meets a condition, and its place. -/
def SelectChallengeContext.find (sctx : SelectChallengeContext) (condition : Challenge → Bool) :
    Option (Challenge × Nat) :=
  sctx.r.cs.zipIdx.find? fun entry => condition entry.1

def SelectChallengeContext.paymentSecretArgument (sctx : SelectChallengeContext) :
    Field PaymentSecret :=
  (sctx.args.map Arguments.paymentSecret).getD .missing

def parseTimeout : Field Nat → Option Nat
  | .missing => some 0
  | .malformed => none
  | .given timeout => some timeout

def SelectChallengeContext.timeoutArgument (sctx : SelectChallengeContext) : Option Nat :=
  parseTimeout ((sctx.args.map Arguments.timeout).getD .missing)

def listedPaymentSecret (code : ErrorCode) (info : InfoChallenge) :
    Except Outcome (Option PaymentSecret) :=
  match info.paymentSecret with
  | none => .ok none
  | some value =>
    match parsePaymentSecret host value with
    | none => .error (.failed code (some "'payment_secret' malformed"))
    | some ps => .ok (some ps)

/-- All asynchronous challenges that are not solved are resumed; the flag says if there were any. -/
def resumeAsync (timeout : Nat) : List Nat → SelectChallengeContext → Bool →
    Except Outcome (SelectChallengeContext × Bool)
  | [], sctx, pollStarted => .ok (sctx, pollStarted)
  | place :: rest, sctx, pollStarted =>
    match sctx.r.cs[place]? with
    | none => resumeAsync timeout rest sctx pollStarted
    | some c =>
      if c.solved || !c.async then resumeAsync timeout rest sctx pollStarted
      else
        match findChallengeInCs host sctx.state c.uuid with
        | none => .error (.failed stateInvalid (some "challenge not found"))
        | some entry =>
          match (sctx.state.csField entry "answer-pin").bind Json.number? with
          | none =>
            .error (.failed stateInvalid
              (some "async challenge 'answer-pin' not found"))
          | some pin =>
            match sctx.start place fun c =>
                challengeAnswer2 host c none timeout (unsigned pin) with
            | none =>
              .error (.failed internalInvariantFailure
                (some "Failed to begin answering asynchronous challenge"))
            | some sctx => resumeAsync timeout rest sctx true

def answerSelected (sctx : SelectChallengeContext) (timeout : Nat) (psp : Option PaymentSecret)
    (c : Challenge) (place entry : Nat) : Reply :=
  if c.type = "question" then
    match (sctx.args.bind Arguments.answer).bind Json.string? with
    | none => .finish (.failed inputInvalid (some "'answer' missing"))
    | some answer =>
      (sctx.setInCs entry "answer" (.string answer)).begin place fun c =>
        challengeAnswer host c psp timeout (Utf8.encode answer)
  else
    match (sctx.args.bind Arguments.pin).bind Json.number? with
    | some pin =>
      (sctx.setInCs entry "answer-pin" (.number pin)).begin place fun c =>
        challengeAnswer2 host c psp timeout (unsigned pin)
    | none =>
      match (sctx.args.map Arguments.hash).getD .missing with
      | .given hashedAnswer =>
        sctx.begin place fun c => challengeStart host c psp timeout (some hashedAnswer)
      | .malformed => .finish (.failed inputInvalid (some "'answer' malformed"))
      | .missing => sctx.begin place fun c => challengeStart host c psp timeout none

/-- The selected challenge is started or solved, unless it is an asynchronous one. -/
def solveSelected (sctx : SelectChallengeContext) (timeout : Nat) : Except Fault Reply :=
  match findChallengeInRi sctx.state sctx.uuid with
  | none => .ok (.finish (.failed stateInvalid (some "challenge not found")))
  | some (_, info) =>
    let psp : Except Outcome (Option PaymentSecret) := match sctx.paymentSecretArgument with
      | .given ps => .ok (some ps)
      | .malformed => .error (.failed inputInvalid (some "'payment_secret' malformed"))
      | .missing => listedPaymentSecret host stateInvalid info
    match psp with
    | .error outcome => .ok (.finish outcome)
    | .ok psp =>
      match sctx.find fun c => !c.async && c.uuid = sctx.uuid with
      | none => .ok (.finish (.failed inputInvalid (some "'uuid' not in list of challenges")))
      | some (c, place) =>
        if c.solved then
          .ok (.finish (.failed inputInvalid (some "Selected challenge already solved")))
        else
          match findChallengeInCs host sctx.state c.uuid with
          | none => .error .assertion
          | some entry => .ok (answerSelected host sctx timeout psp c place entry)

def solveChallengeCb (sctx : SelectChallengeContext) : Except Fault Reply :=
  match sctx.timeoutArgument with
  | none => .ok (.finish (.failed inputInvalid (some "'timeout' malformed")))
  | some timeout =>
    match resumeAsync host timeout (List.range sctx.r.cs.length) sctx false with
    | .error outcome => .ok (.finish outcome)
    | .ok (sctx, pollStarted) =>
      if sctx.pollOnly then
        if pollStarted then .ok (.await sctx)
        else
          .ok (.report
            (.failed actionInvalid (some "no challenge available for polling")) sctx)
      else solveSelected host sctx timeout

def payChallengeCb (sctx : SelectChallengeContext) : Reply :=
  match findChallengeInRi sctx.state sctx.uuid with
  | none => .finish (.failed stateInvalid (some "challenge not found"))
  | some (listed, info) =>
    let sctx := { sctx with state := sctx.state.setPaymentSecret host listed sctx.ps }
    match sctx.find fun c => c.uuid = sctx.uuid with
    | none => .finish (.failed inputInvalid (some "'uuid' not in list of challenges"))
    | some (c, place) =>
      if c.solved then
        .finish (.failed inputInvalid (some "Selected challenge already solved"))
      else if c.type = "question" then
        match info.answer.bind Json.string? with
        | none => .finish (.failed inputInvalid (some "'answer' missing"))
        | some answer =>
          sctx.begin place fun c =>
            challengeAnswer host c (some sctx.ps) sctx.timeout (Utf8.encode answer)
      else
        sctx.begin place fun c => challengeStart host c (some sctx.ps) sctx.timeout none

/-- A question is asked at once; other challenges are started, with the PIN that is known. -/
def triggerSelected (sctx : SelectChallengeContext) (timeout : Nat) (psp : Option PaymentSecret)
    (c : Challenge) (place : Nat) : Reply :=
  let sctx := { sctx with
    state := { sctx.state with selectedChallengeUuid := packData host c.uuid.val } }
  if c.type = "question" ∨ c.type = "totp" then
    .finish (.next ErrorCode.none (sctx.state.enter .challengeSolving))
  else
    match (findChallengeInCs host sctx.state c.uuid).bind fun entry =>
        sctx.state.csField entry "answer-pin" with
    | some pin =>
      sctx.begin place fun c =>
        challengeAnswer2 host c psp timeout (unsigned (pin.number?.getD 0))
    | none => sctx.begin place fun c => challengeStart host c psp timeout none

def selectChallengeCb (sctx : SelectChallengeContext) : Reply :=
  match sctx.timeoutArgument with
  | none => .finish (.failed inputInvalid (some "'timeout' malformed"))
  | some timeout =>
    let psp : Except Outcome (Option PaymentSecret) := match sctx.paymentSecretArgument with
      | .given ps => .ok (some ps)
      | .malformed => .error (.failed inputInvalid (some "'payment_secret' malformed"))
      | .missing =>
        match findChallengeInRi sctx.state sctx.uuid with
        | none => .error (.failed stateInvalid (some "challenge not found"))
        | some (_, info) => listedPaymentSecret host inputInvalid info
    match psp with
    | .error outcome => .finish outcome
    | .ok psp =>
      match sctx.find fun c => c.uuid = sctx.uuid with
      | none => .finish (.failed inputInvalid (some "'uuid' not in list of challenges"))
      | some (c, place) =>
        if c.solved then
          .finish (.failed inputInvalid (some "Selected challenge already solved"))
        else triggerSelected host sctx timeout psp c place

def policyCallback (sctx : SelectChallengeContext) : Except Fault Reply :=
  match sctx.pc with
  | .selectChallenge => .ok (selectChallengeCb host sctx)
  | .solveChallenge => solveChallengeCb host sctx
  | .payChallenge => .ok (payChallengeCb host sctx)

end Starting

/-! ## Callbacks -/

section Callbacks

variable (host : RecoveryHost)

def bodyText (body : Bytes) : Option String :=
  let text := Utf8.decode (body.takeWhile (· ≠ 0))
  if Utf8.encode text = body.takeWhile (· ≠ 0) then some text else none

def packState (name : String) (fields : List (String × Option Json)) : Json :=
  packObject (("state", packString name) :: fields)

def packNumber (value : Nat) : Option Json := some (.number value)

def packInstructions (httpStatus : Nat) (body : Bytes) (contentType : Option String) :
    Except Fault Json :=
  let plain := packState "body"
    [("body", packData host.toHost body), ("http_status", packNumber httpStatus)]
  match contentType with
  | none => .ok plain
  | some mime =>
    if mime.toLower = "text/plain" ∨ mime.toLower = "text/utf8" then
      match bodyText body with
      | none => .error .assertion
      | some hint =>
        .ok (packState "hint"
          [("hint", packString hint), ("http_status", packNumber httpStatus)])
    else if mime.toLower = "application/json" then
      match host.rejectDuplicates body with
      | none => .ok plain
      | some details =>
        match packObjectIncref details with
        | none => .error .assertion
        | some details =>
          .ok (packState "details"
            [("details", some details), ("http_status", packNumber httpStatus)])
    else .ok plain

structure ExternalInstructions where
  method : String
  isAsync : Bool
  code : Int
  details : Json

def parseExternalInstructions (body : Json) : Option ExternalInstructions := do
  let method ← parseString body "method"
  let isAsync ← parseOptional Json.boolean? body "async"
  let code ← parseOptional Json.number? body "answer_code"
  let details ← body.member? "details"
  return {
    method := method, isAsync := isAsync.getD false, code := code.getD 0, details := details }

def externalReply (instructions : ExternalInstructions) : Except Fault Json :=
  match packObjectIncref instructions.details with
  | none => .error .assertion
  | some details =>
    .ok (packState "external-instructions"
      [("method", packString instructions.method), ("details", some details)])

def SelectChallengeContext.setFeedback (sctx : SelectChallengeContext) (c : Challenge)
    (feedback : Json) : SelectChallengeContext :=
  { sctx with state := sctx.state.setFeedback host.toHost c.uuid feedback }

/-- An asynchronous challenge is marked in the document, with the PIN that will answer it. -/
def SelectChallengeContext.markAsync (sctx : SelectChallengeContext) (entry : Nat) (code : Int) :
    SelectChallengeContext :=
  (sctx.setInCs entry "async" (.boolean true)).setInCs entry "answer-pin" (.number code)

def SelectChallengeContext.proceed (sctx : SelectChallengeContext) (code : ErrorCode)
    (next : RecoveryStates) : Reply :=
  .finish (.next code (sctx.state.enter next))

def answerFailed (sctx : SelectChallengeContext) (c : Challenge) (name : String)
    (httpStatus : Option Nat) (feedbackCode code : ErrorCode) : Reply :=
  (sctx.setFeedback host c (packState name
    [("http_status", httpStatus.bind packNumber), ("error_code", packNumber feedbackCode)])).proceed
    code .challengeSelecting

/-- What instructions for an external challenge lead to. Malformed ones are only noted. -/
def externalFeedback (sctx : SelectChallengeContext) (c : Challenge) (body : Json) :
    Except Fault Reply :=
  match parseExternalInstructions body with
  | none =>
    .ok (.await (sctx.setFeedback host c
      (packState "server-failure" [("error_code", packNumber ErrorCode.genericReplyMalformed)])))
  | some instructions =>
    let marked := if instructions.isAsync then
        (findChallengeInCs host.toHost sctx.state c.uuid).map fun entry =>
          sctx.markAsync entry instructions.code
      else some sctx
    match marked with
    | none => .ok (.finish (.failed internalInvariantFailure none))
    | some sctx =>
      match externalReply instructions with
      | .error fault => .error fault
      | .ok reply =>
        let sctx := sctx.setFeedback host c reply
        .ok (({ sctx with
          state := { sctx.state with
            selectedChallengeUuid := packData host.toHost c.uuid.val } }).proceed
          ErrorCode.none .challengeSolving)

/-- The payment secret is kept with the challenge as it is listed for the user. -/
def paymentFeedback (sctx : SelectChallengeContext) (c : Challenge) (talerPayUri : String)
    (paymentSecret : PaymentSecret) : Except Fault Reply :=
  let sctx := sctx.setFeedback host c (packState "payment"
    [("taler_pay_uri", packString talerPayUri), ("provider", packString c.url),
      ("payment_secret", packData host.toHost paymentSecret.val)])
  match findChallengeInRi sctx.state c.uuid with
  | none => .error .assertion
  | some (listed, _) =>
    .ok (({ sctx with
      state := sctx.state.setPaymentSecret host.toHost listed paymentSecret }).proceed
      ErrorCode.none .challengePaying)

def solvedFeedback (sctx : SelectChallengeContext) (c : Challenge) : Except Fault Reply :=
  match recoverySerialize host.toHost sctx.r with
  | .error fault => .error fault
  | .ok rd =>
    .ok (.delay (({ sctx with state := { sctx.state with
      recoveryDocument := some rd } }).setFeedback host c (packState "solved" [])))

def answerFeedbackCb (sctx : SelectChallengeContext) (c : Challenge) :
    ChallengeStartResponse → Except Fault Reply
  | .solved => solvedFeedback host sctx c
  | .instructions httpStatus body contentType =>
    match packInstructions host httpStatus body contentType with
    | .error fault => .error fault
    | .ok instructions =>
      .ok ((sctx.setFeedback host c instructions).proceed ErrorCode.none .challengeSolving)
  | .redirectForAuthentication redirectUrl =>
    match redirectUrl with
    | none => .error .assertion
    | some redirectUrl =>
      .ok ((sctx.setFeedback host c
        (packState "redirect" [("redirect_url", packString redirectUrl)])).proceed
        ErrorCode.none .challengeSolving)
  | .paymentRequired talerPayUri paymentSecret =>
    paymentFeedback host sctx c talerPayUri paymentSecret
  | .serverFailure httpStatus ec =>
    .ok (answerFailed host sctx c "server-failure" (some httpStatus) ec ec)
  | .truthUnknown => .ok (answerFailed host sctx c "truth-unknown" none truthUnknown truthUnknown)
  | .rateLimitExceeded =>
    .ok (answerFailed host sctx c "rate-limit-exceeded" none truthRateLimited truthRateLimited)
  | .authTimeout _ _ =>
    .ok (answerFailed host sctx c "authentication-timeout" none host.truthAuthTimeout
      host.truthAuthTimeout)
  | .externalInstructions externalChallenge => externalFeedback host sctx c externalChallenge

def coreSecretCb (sctx : SelectChallengeContext) : CoreSecretReport → Reply
  | .failure status => .finish (.lookupFailed status)
  | .success coreSecret _ =>
    match coreSecret.bind host.rejectDuplicates with
    | none => .finish (.failed secretMalformed none)
    | some jsecret =>
      ({ sctx with state := { sctx.state with coreSecret := some jsecret } }).proceed
        ErrorCode.none .recoveryFinished

end Callbacks

/-! ## The action -/

inductive Context where
  | live (sctx : SelectChallengeContext)
  | freed
  | crashed (fault : Fault)

/-- The tasks are the reports that are scheduled, each of them for the context of the action. -/
structure Action where
  context : Context
  tasks : List Nat
  nextTask : Nat
  calls : List Outcome

inductive Event where
  | runAsyncPc
  | policyLookup (httpStatus : Nat) (dd : Option DownloadDetails)
  | keyshareLookup (position : Nat) (dd : KeyShareDownloadDetails)
  | reportSolved (task : Nat)

def Action.crash (action : Action) (fault : Fault) : Action :=
  { action with context := .crashed fault }

def Action.remaining (action : Action) : List Nat :=
  match action.context with
  | .live sctx => action.tasks.filter fun task => sctx.delayedReport ≠ some task
  | _ => action.tasks

def Action.apply (action : Action) : Except Fault Reply → Action
  | .error fault => action.crash fault
  | .ok (.await sctx) => { action with context := .live sctx }
  | .ok (.delay sctx) =>
    { action with
      context := .live { sctx with delayedReport := some action.nextTask }
      tasks := action.tasks ++ [action.nextTask]
      nextTask := action.nextTask + 1 }
  | .ok (.report outcome sctx) =>
    { action with context := .live sctx, calls := action.calls ++ [outcome] }
  | .ok (.finish outcome) =>
    { action with
      context := .freed, tasks := action.remaining, calls := action.calls ++ [outcome] }

section Actions

variable (host : RecoveryHost)

/-- When the challenges solved so far complete a policy, the core secret is recovered. -/
def Action.checkPolicies (action : Action) : Action :=
  match action.context with
  | .live sctx =>
    match sctx.r.dps.find? fun dps => satisfied sctx.r.solvedChallenges dps.challenges with
    | none => action
    | some rdps =>
      match recoverCoreSecret host.toHost sctx.r rdps with
      | .error fault => action.crash fault
      | .ok report => action.apply (.ok (coreSecretCb host sctx report))
  | _ => action

def returned (c : Challenge) (dd : KeyShareDownloadDetails) : Challenge :=
  { c with kslo := none, async := c.async || isAuthenticationTimeout dd }

def Action.keyshareLookupCb (action : Action) (sctx : SelectChallengeContext) (position : Nat)
    (c : Challenge) : KeyShareDownloadDetails → Action
  | .success eks =>
    match Client.solveChallenge host.toHost sctx.r position c eks with
    | .error fault => action.crash fault
    | .ok r =>
      (action.apply (answerFeedbackCb host { sctx with r := r } c .solved)).checkPolicies host
  | dd =>
    action.apply (answerFeedbackCb host (sctx.setChallenge position (returned c dd))
      (returned c dd) (feedback dd))

/-- The challenges that were solved before a document is downloaded are forgotten, but still
counted: their places name no challenge. -/
def forgetSolved (old new : Recovery) : Recovery :=
  { new with
    solvedChallenges := List.replicate old.solvedChallenges.length new.cs.length }

/-- A recovery whose document was rejected is aborted, which may fault. -/
def Action.policyLookupCb (action : Action) (sctx : SelectChallengeContext) (httpStatus : Nat)
    (dd : Option DownloadDetails) : Action :=
  match Client.policyLookupCb host.toHost sctx.r httpStatus dd with
  | .error fault => action.crash fault
  | .ok (.rejected status) =>
    let reported := action.apply (.ok (coreSecretCb host sctx (.failure status)))
    if abortFaults host.toHost sctx.r.id httpStatus dd then reported.crash .nullPointer
    else reported
  | .ok (.accepted r) =>
    action.apply (policyCallback host.toHost { sctx with r := forgetSolved sctx.r r })

/-- The report of a context that has been freed reads what is not there any more. -/
def Action.reportSolved (action : Action) (task : Nat) : Action :=
  let action := { action with tasks := action.tasks.filter (· ≠ task) }
  match action.context with
  | .live sctx =>
    let sctx := { sctx with delayedReport := none }
    ({ action with context := .live sctx }).apply
      (.ok (sctx.proceed ErrorCode.none .challengeSelecting))
  | _ => action.crash .wildPointer

def Action.deliver (action : Action) (event : Event) : Option Action :=
  match event, action.context with
  | .runAsyncPc, .live sctx =>
    if sctx.doAsync then
      some (action.apply (policyCallback host.toHost { sctx with doAsync := false }))
    else none
  | .policyLookup httpStatus dd, .live sctx =>
    if sctx.r.plo.isSome then some (action.policyLookupCb host sctx httpStatus dd) else none
  | .keyshareLookup position dd, .live sctx =>
    match sctx.r.cs[position]? with
    | none => none
    | some c =>
      if c.kslo.isSome then some (action.keyshareLookupCb host sctx position c dd) else none
  | .reportSolved _, .crashed _ => none
  | .reportSolved task, _ =>
    if task ∈ action.tasks then some (action.reportSolved task) else none
  | _, _ => none

/-! ## Starting an action -/

inductive Command where
  | selectChallenge (arguments : Option Arguments)
  | solveChallenge (arguments : Option Arguments)
  | poll (arguments : Option Arguments)
  | pay (arguments : Option Arguments)

/-- What a context is filled with beside the state and its recovery. The name is reported when the
state has no document. -/
structure Request where
  pc : PolicyCallback
  name : String
  uuid : TruthUuid
  timeout : Nat
  ps : PaymentSecret
  pollOnly : Bool
  args : Option Arguments

def argumentsMissing : Outcome := .failed inputInvalid (some "arguments missing")

def selectionMissing : Outcome :=
  .failed stateInvalid (some "'selected_challenge_uuid' missing")

def selectChallenge : Option Arguments → Except Outcome Request
  | none => .error argumentsMissing
  | some arguments =>
    match arguments.uuid with
    | .given uuid =>
      .ok { pc := .selectChallenge, name := "select_challenge", uuid := uuid, timeout := 0
            ps := zeroBlock 32, pollOnly := false, args := some arguments }
    | _ => .error (.failed inputInvalid (some "'uuid' missing"))

def solveChallenge (state : RecoveryState) : Option Arguments → Except Outcome Request
  | none => .error argumentsMissing
  | some arguments =>
    match state.selectedUuid host.toHost with
    | none => .error selectionMissing
    | some uuid =>
      .ok { pc := .solveChallenge, name := "solve_challenge", uuid := uuid, timeout := 0
            ps := zeroBlock 32, pollOnly := false, args := some arguments }

def pollChallenges (arguments : Option Arguments) : Request where
  pc := .solveChallenge
  name := "poll_challenges"
  uuid := zeroBlock 32
  timeout := 0
  ps := zeroBlock 32
  pollOnly := true
  args := arguments

def payChallenge (state : RecoveryState) : Option Arguments → Except Outcome Request
  | none => .error argumentsMissing
  | some arguments =>
    match parseTimeout arguments.timeout, arguments.paymentSecret with
    | some timeout, .given ps =>
      match state.selectedUuid host.toHost with
      | none => .error selectionMissing
      | some uuid =>
        .ok { pc := .payChallenge, name := "pay_challenge", uuid := uuid, timeout := timeout
              ps := ps, pollOnly := false, args := some arguments }
    | _, _ => .error (.failed inputInvalid (some "'payment_secret' missing"))

def Command.request (state : RecoveryState) : Command → Except Outcome Request
  | .selectChallenge arguments => Challenges.selectChallenge arguments
  | .solveChallenge arguments => Challenges.solveChallenge host state arguments
  | .poll arguments => .ok (pollChallenges arguments)
  | .pay arguments => payChallenge host state arguments

def Action.refused (outcome : Outcome) : Action where
  context := .freed
  tasks := []
  nextTask := 0
  calls := [outcome]

def Action.faulted (fault : Fault) : Action where
  context := .crashed fault
  tasks := []
  nextTask := 0
  calls := []

def documentFields (rd : Json) : Option (Option String × Json × Json) := do
  let _ ← parseFixed host.toHost 64 rd "id"
  let _ ← parseString rd "provider_url"
  let secretName ← parseOptional Json.string? rd "secret_name"
  let _ ← parseUint32 rd "version"
  let dpsArr ← rd.member? "dps"
  let csArr ← rd.member? "cs"
  let _ ← rd.member? "id_data"
  let _ ← parseVarsize host.toHost rd "core_secret"
  return (secretName, dpsArr, csArr)

/-- A challenge of the document that cannot be parsed leaves those after it unset, and then the
recovery cannot be aborted. -/
def unsetChallenges (rd : Json) : Bool :=
  match (documentFields host rd).bind fun fields => fields.2.2.array? with
  | none => false
  | some cs => 1 < (cs.dropWhile fun c => (deserializeChallenge host.toHost c).isSome).length

def Action.start (stack : Uninitialised) (state : RecoveryState) (request : Request) : Action :=
  match state.recoveryDocument with
  | none => .refused (.failed stateInvalid (some request.name))
  | some rd =>
    match recoveryDeserialize host.toHost stack rd with
    | .error fault => .faulted fault
    | .ok none =>
      if unsetChallenges host rd then .faulted .nullPointer
      else .refused (.failed stateInvalid (some "'recovery_document' invalid"))
    | .ok (some r) =>
      { context := .live
          { pc := request.pc
            uuid := request.uuid
            timeout := request.timeout
            ps := request.ps
            pollOnly := request.pollOnly
            args := request.args
            state := state
            r := r
            doAsync := !r.dps.isEmpty
            delayedReport := none }
        tasks := []
        nextTask := 0
        calls := [] }

def Action.begin (stack : Uninitialised) (state : RecoveryState) (command : Command) : Action :=
  match command.request host state with
  | .error outcome => .refused outcome
  | .ok request => .start host stack state request

def Delivers (action : Action) (event : Event) (next : Action) : Prop :=
  action.deliver host event = some next

end Actions

end Anastasis.Reducer.Challenges
