import Anastasis.Server.KeyShares

/-! Key shares are only handed out to those who have earned them, in every run of the server and
whatever else becomes of the codes in the meantime. -/

set_option autoImplicit false

namespace Anastasis.Server

open Library Library.Effect Library.DoublyLinked Library.Transition Stasis

inductive KeyShareLabel where
  | served (label : TruthLabel)
  | codesChanged

/-- Steps of the server, and between them anything that others do to the codes: plugins, other
servers and the collection of old codes. -/
inductive KeyShareStep (service : ChallengeService) :
    TruthServer → KeyShareLabel → TruthServer → Prop where
  | served {server next : TruthServer} {label : TruthLabel} :
      TruthStep service server label next → KeyShareStep service server (.served label) next
  | codesChanged {server : TruthServer} (codes : ChallengeCodes) :
      KeyShareStep service server .codesChanged
        { server with shared := { server.shared with codes := codes } }

def KeyShareLabel.arriving : KeyShareLabel → Option (Address × TruthRequest)
  | .served (.handled (.arrives gc request _)) => some (gc, request)
  | _ => none

def arrival (gc : Address) (labels : List KeyShareLabel) : Option TruthRequest :=
  labels.foldl (fun latest label =>
    match label.arriving with
    | some (address, request) => if address = gc then some request else latest
    | none => latest) none

/-- A context holds what its request has brought along, or the request was refused at once. -/
inductive TruthRequest.Owns (request : TruthRequest) (context : GetContext) : Prop where
  | refused {error : ErrorReply} : error.code ≠ .truthChallengeFailed →
      context = { freshContext request.truthUuid with connection := .replied (.error error) } →
      Owns request context
  | admitted :
      context.truthUuid = request.truthUuid →
      request.truthDecryptionKey = .value context.truthKey →
      (∀ response, context.challengeResponse = some response →
        request.response = .value response) →
      (∀ reply, context.resp = some reply → reply.AboutPayment) →
      Owns request context

variable {service svc : ChallengeService} {server next : TruthServer} {event ev : TruthEvent}
  {request req : TruthRequest} {before pre after : GetContext} {gc : Address} {calls : Calls}
  {labels : List KeyShareLabel}

theorem TruthRequest.setup_owns {now : Time} (read : req.setup now = .ok before) :
    req.Owns before := by
  obtain ⟨uuid, payId, truthDecryptionKey, resp, timeoutMs⟩ := req
  cases payId <;> cases truthDecryptionKey <;> cases resp <;> cases timeoutMs <;>
    cases read <;> exact .admitted rfl rfl (by simp [freshContext]) (by simp [freshContext])

theorem TruthRequest.Owns.continues (uuid : pre.truthUuid = req.truthUuid)
    (key : req.truthDecryptionKey = .value pre.truthKey)
    (response : ∀ response, pre.challengeResponse = some response → req.response = .value response)
    (resp : ∀ reply, pre.resp = some reply → reply.AboutPayment)
    (continues : pre.Continues after) : req.Owns after := by
  apply Owns.admitted
  · exact continues.truthUuid.trans uuid
  · rw [continues.truthKey, key]
  · intro ans answered
    rcases continues.response with eq | dropped
    · exact response ans (eq ▸ answered)
    · rw [dropped] at answered
      cases answered
  intro reply waits
  rcases continues.resp reply waits with eq | pay
  · exact resp reply eq
  · exact pay

/-- A turn of an admitted request leaves it admitted, and the contexts of others as they are. -/
theorem serve_continues {program : TruthServed Unit} (continuing : Continuing program)
    (r : server.serve gc program = .ok next) :
    ∃ pre after, server.requests.get gc = some pre ∧ pre.Continues after ∧
      ∀ other, next.requests.get other =
        if other = gc then some after else server.requests.get other := by
  obtain ⟨pre, fin, h, returned, _, _, ys⟩ := RequestServer.serve_ok r
  exact ⟨pre, fin.context, h, ((continuing _).of_run returned).context, ys⟩

theorem TruthRequest.Owns.shutDown (owns : req.Owns pre) : req.Owns pre.shutDown := by
  cases owns with
  | refused y eq =>
    rw [eq]
    exact .refused y rfl
  | admitted uuid key response resp => exact .admitted uuid key response resp

theorem arrival_append (label : KeyShareLabel) : arrival gc (labels ++ [label]) =
      match label.arriving with
      | some (addr, req) => if addr = gc then some req else arrival gc labels
      | none => arrival gc labels := by
  unfold arrival
  rw [List.foldl_append, List.foldl_cons, List.foldl_nil]

theorem arrival_of_other {label : KeyShareLabel} (y : label.arriving = none) :
    arrival gc (labels ++ [label]) = arrival gc labels := by
  rw [arrival_append, y]

def TruthServer.Owned (labels : List KeyShareLabel) (server : TruthServer) : Prop :=
  ∀ gc context, server.requests.get gc = some context →
    ∃ request, arrival gc labels = some request ∧ request.Owns context

theorem TruthServer.Owned.serve {program : TruthServed Unit} {label : KeyShareLabel}
    (owned : server.Owned labels) (continuing : Continuing program)
    (r : server.serve gc program = .ok next) (y : label.arriving = none)
    (alive : ∀ ctx, server.requests.get gc = some ctx → ∀ truthUuid error,
      ctx ≠ { freshContext truthUuid with connection := .replied (.error error) }) :
    next.Owned (labels ++ [label]) := by
  obtain ⟨pre, after, h, continues, ys⟩ := serve_continues continuing r
  intro addr ctx present
  rw [ys] at present
  rw [arrival_of_other y]
  split at present
  · next eq =>
    cases present
    rw [eq]
    obtain ⟨req, arrived, owns⟩ := owned gc pre h
    refine ⟨req, arrived, ?_⟩
    cases owns with
    | refused _ eq => exact absurd eq (alive pre h req.truthUuid _)
    | admitted truthUuid key response resp => exact .continues truthUuid key response resp continues
  · exact owned addr ctx present

theorem doTimeout_flagged {turn : TruthTurn} :
    Ensures doTimeout turn (fun _ _ => turn.context.hn = true) (fun _ _ => True) := by
  unfold doTimeout
  simp only [ensures_bind, Served.ensures_load]
  split
  · simp only [ensures_bind, Served.ensures_update, ensures_resumeConnection, Served.ensures_assert]
    split
    · next flagged => exact flagged
    · trivial
  simp only [ensures_bind, Served.ensures_assert]
  split
  · next flagged => exact flagged
  · trivial

theorem truthGet_owns {turn : TruthTurn} (fresh : turn.context = freshContext req.truthUuid) :
    Ensures (truthGet svc req calls) turn
      (fun _ fin => req.Owns fin.context) (fun _ _ => True) := by
  refine truthGet_answered.mono ?_ fun _ _ _ => trivial
  rintro _ fin (⟨error, refused, eq⟩ | ⟨ctx, read, continues, _⟩)
  · rw [eq, fresh]
    exact .refused (TruthRequest.setup_refused refused) rfl
  have owns := TruthRequest.setup_owns read
  cases owns with
  | refused _ eq =>
    obtain ⟨payId, truthKey, challengeResponse, timeout, rfl⟩ := req.setup_eq read
    cases congrArg GetContext.connection eq
  | admitted uuid key response resp => exact .continues uuid key response resp continues

theorem handle_owned (owned : server.Owned labels) (awaits : server.Awaits ev)
    (r : server.handle svc ev = .ok next) :
    next.Owned (labels ++ [.served (.handled ev)]) := by
  cases ev with
  | arrives gc req calls =>
    obtain ⟨pre, fin, h, returned, _, _, ys⟩ := RequestServer.serve_ok r
    rw [RequestServer.allocate, Register.get_allocate, if_pos rfl] at h
    cases h
    intro addr ctx present
    rw [ys] at present
    split at present
    · next eq =>
      cases present
      rw [eq]
      refine ⟨req, ?_, (truthGet_owns rfl).of_run returned⟩
      rw [arrival_append]
      exact if_pos rfl
    rename_i ne
    rw [RequestServer.allocate, Register.get_allocate, if_neg ne] at present
    obtain ⟨request', arrived, owns⟩ := owned addr ctx present
    refine ⟨request', ?_, owns⟩
    rw [arrival_append, ← arrived]
    exact if_neg fun eq => ne eq.symm
  | turn gc calls =>
    obtain ⟨_, ctx, h, active⟩ := awaits
    refine owned.serve truthGetAgain_continues r rfl ?_
    intro y eq uuid error refused
    rw [h] at eq
    cases eq
    rw [refused] at active
    cases active
  | proposal gc created now recording =>
    obtain ⟨ctx, h, asked⟩ := awaits
    refine owned.serve proposalCb_continues r rfl ?_
    intro y eq uuid error refused
    rw [h] at eq
    cases eq
    rw [refused] at asked
    cases asked
  | orderChecked gc status updating =>
    obtain ⟨ctx, h, asked⟩ := awaits
    refine owned.serve checkPaymentCb_continues r rfl ?_
    intro y eq uuid error refused
    rw [h] at eq
    cases eq
    rw [refused] at asked
    cases asked
  | wokenUp gc =>
    obtain ⟨ctx, h, running, _⟩ := awaits
    refine owned.serve wakeUp_continues r rfl ?_
    intro y eq uuid error refused
    rw [h] at eq
    cases eq
    rw [refused] at running
    cases running
  | timedOut gc now =>
    obtain ⟨ctx, fin, h, returned, _⟩ := RequestServer.serve_ok r
    have flagged := doTimeout_flagged.of_run returned
    refine owned.serve doTimeout_continues r rfl ?_
    intro y eq uuid error refused
    rw [h] at eq
    cases eq
    rw [refused] at flagged
    cases flagged
  | done gc =>
    obtain ⟨mid, served, rfl⟩ := TruthServer.handle_done r
    obtain ⟨_, _, _, _, _, _, ys⟩ := RequestServer.serve_ok served
    intro addr ctx present
    rw [RequestServer.free, Register.get_free] at present
    split at present
    · cases present
    rename_i ne
    rw [ys, if_neg ne] at present
    rw [arrival_of_other rfl]
    exact owned addr ctx present
  | refunded refund granted recording =>
    cases r
    intro addr ctx present
    rw [arrival_of_other rfl]
    exact owned addr ctx present

theorem keyShareStep_owned {label : KeyShareLabel} (owned : server.Owned labels)
    (step : KeyShareStep svc server label next) : next.Owned (labels ++ [label]) := by
  cases step with
  | codesChanged codes =>
    intro gc ctx present
    rw [arrival_of_other rfl]
    exact owned gc ctx present
  | served step =>
    cases step with
    | handled awaits handled => exact handle_owned owned awaits handled
    | shutDown _ ended =>
      intro gc after present
      rw [arrival_of_other rfl]
      obtain ⟨⟨visited, requests⟩, closed, eq⟩ := Option.map_eq_some_iff.mp ended
      cases eq
      have related := @Register.close_keeps _ _ _ _ _
        (fun before after => ∀ request : TruthRequest, request.Owns before → request.Owns after)
        (fun _ _ owns => owns) (fun _ _ later request owns => later request owns.shutDown)
        _ _ _ closed gc
      rw [show requests.get gc = some after from present] at related
      generalize h : server.requests.get gc = held at related
      cases related with
      | some kept =>
        obtain ⟨request, arrived, owns⟩ := owned gc _ h
        exact ⟨request, arrived, kept request owns⟩

theorem keyShareRun_owned
    (run : Run (KeyShareStep svc) .start labels server) : server.Owned labels := by
  refine run.invariantWithHistory (fun labels server => server.Owned labels) ?_ ?_
  · intro gc ctx h
    cases h
  · exact fun _ _ _ _ owned step => keyShareStep_owned owned step

def TruthEvent.turnOf : TruthEvent → Option (Address × Calls)
  | .arrives gc _ calls | .turn gc calls => some (gc, calls)
  | _ => none

/-- A request answers to the truth that the database holds for it, with the key to decrypt it. -/
structure TruthRequest.Answers (service : ChallengeService) (calls : Calls)
    (request : TruthRequest) (method : ChallengeMethod) (decryptedTruth : Bytes)
    (response : HashCode) : Prop where
  truth : ∃ escrow key, calls.escrow = .oneResult escrow ∧
    service.load escrow.methodName = some method ∧
    request.truthDecryptionKey = .value key ∧
    service.truthDecrypt key escrow.encryptedTruth = some decryptedTruth
  response : request.response = .value response

/-- Whoever gets a key share has earned it, and no right answer is called wrong. -/
structure TruthRequest.Treated (service : ChallengeService) (calls : Calls)
    (codes : ChallengeCodes) (request : TruthRequest) (context : GetContext) : Prop where
  released : ∀ share, context.connection = .replied (.keyShare share) →
    calls.keyShare = .oneResult share ∧ ∃ method decryptedTruth response,
      request.Answers service calls method decryptedTruth response ∧
      Earned service calls request.truthUuid codes decryptedTruth response method
  fair : ∀ method decryptedTruth response,
    request.Answers service calls method decryptedTruth response →
    RightAnswer service calls request.truthUuid codes decryptedTruth response method →
    ¬ context.AnsweredWrong method

theorem Answered.treated {codes : ChallengeCodes} (uuid : pre.truthUuid = req.truthUuid)
    (key : req.truthDecryptionKey = .value pre.truthKey)
    (resp : ∀ resp, pre.challengeResponse = some resp → req.response = .value resp)
    (answered : Answered service calls codes pre after) :
    req.Treated service calls codes after := by
  constructor
  · intro share replied
    obtain ⟨shared, escrow, m, truth, ans, h, loaded, decrypted, given,
      earned⟩ := answered.released share replied
    refine ⟨shared, m, truth, ans, ⟨⟨escrow, _, h, loaded, key, decrypted⟩,
      resp ans given⟩, ?_⟩
    rw [← uuid]
    exact earned
  · rintro m truth ans ⟨⟨escrow, key', h, loaded, same_key, decrypted⟩, given⟩ right wrong
    rw [key] at same_key
    cases same_key
    obtain ⟨answer', given', refuted⟩ := answered.fair escrow m h loaded wrong
    have eq := resp answer' given'
    rw [given] at eq
    cases eq
    rw [← uuid] at right
    exact refuted truth decrypted right

/-- In every run, whatever becomes of the codes in between, the handler hands out key shares to
requests that have earned them only, and it never calls a right answer wrong. -/
theorem keyShare_released {context : GetContext}
    (run : Run (KeyShareStep service) .start labels server)
    (turn : event.turnOf = some (gc, calls)) (awaits : server.Awaits event)
    (handled : server.handle service event = .ok next)
    (found : next.requests.get gc = some context) :
    ∃ request, arrival gc (labels ++ [.served (.handled event)]) = some request ∧
      request.Treated service calls server.shared.codes context := by
  have owned := keyShareRun_owned run
  cases event with
  | arrives address request calls' =>
    cases turn
    refine ⟨request, by rw [arrival_append]; exact if_pos rfl, ?_⟩
    obtain ⟨before, final, allocated, returned, _, _, others⟩ := RequestServer.serve_ok handled
    rw [RequestServer.allocate, Register.get_allocate, if_pos rfl] at allocated
    cases allocated
    rw [others, if_pos rfl] at found
    cases found
    rcases truthGet_answered.of_run returned with ⟨error, refused, same⟩ | ⟨middle, read, _, answered⟩
    · have other := TruthRequest.setup_refused refused
      rw [same]
      refine ⟨nofun, ?_⟩
      rintro method decryptedTruth response _ _ (⟨status, hint, wrong⟩ | ⟨silent, _⟩)
      · cases wrong
        exact other rfl
      · cases silent
    · cases TruthRequest.setup_owns read with
      | refused _ same =>
        obtain ⟨paymentIdentifier, truthKey, challengeResponse, timeout, rfl⟩ :=
          request.setup_eq read
        cases congrArg GetContext.connection same
      | admitted truthUuid key response resp => exact answered.treated truthUuid key response
  | turn address calls' =>
    cases turn
    obtain ⟨_, before, held, active⟩ := awaits
    obtain ⟨context', final, found', returned, _, _, others⟩ := RequestServer.serve_ok handled
    rw [held] at found'
    cases found'
    rw [others, if_pos rfl] at found
    cases found
    obtain ⟨request, arrived, owns⟩ := owned gc before held
    refine ⟨request, by rw [arrival_of_other rfl, arrived], ?_⟩
    cases owns with
    | refused _ same =>
      rw [same] at active
      cases active
    | admitted truthUuid key response resp =>
      have answers := @truthGetAgain_answered service calls ⟨gc, before, [], server.shared⟩
      exact ((answers active resp).of_run returned).treated truthUuid key response
  | proposal gc created now recording => cases turn
  | orderChecked gc status updating => cases turn
  | wokenUp gc => cases turn
  | timedOut gc now => cases turn
  | done gc => cases turn
  | refunded refund granted recording => cases turn

def quizService : ChallengeService where
  questionCost := 0
  pluginLoad _ := none
  truthDecrypt _ encryptedTruth := some encryptedTruth
  hashAnswer := sampleHash

def quizRequest : TruthRequest where
  truthUuid := zeroBlock 32
  paymentIdentifier := .absent
  truthDecryptionKey := .value (zeroBlock 32)
  response := .value (sampleHash 9)
  timeoutMs := .absent

def quizCalls : Calls where
  now := 100 * seconds
  escrow := .oneResult ⟨(sampleHash 9).val, "question"⟩
  checking := none
  looking := none
  freshIdentifier := zeroBlock 32
  keyShare := .oneResult (zeroBlock 72)
  rateLimit := ⟨100 * seconds, 100 * seconds, fun _ => 5, fun _ => none, fun _ => none⟩
  verifying _ := none
  validation := .valid
  random _ := 0
  creating _ := none
  satisfying := none
  starts := true
  process := .finished
  satisfies := false
  marking := none
  charging := none
  refundStarts := true

def quizServed : TruthServer :=
  match TruthServer.start.handle quizService (.arrives 0 quizRequest quizCalls) with
  | .ok next => next
  | .error _ => .start

theorem keyShare_released_quiz : ∃ context, quizServed.requests.get 0 = some context ∧
    context.connection = .replied (.keyShare (zeroBlock 72)) ∧
    ∃ request, arrival 0 [.served (.handled (.arrives 0 quizRequest quizCalls))] = some request ∧
      request.Treated quizService quizCalls [] context :=
  ⟨_, rfl, rfl, keyShare_released .start rfl ⟨rfl, rfl⟩ rfl rfl⟩

end Anastasis.Server
