import Anastasis.Server.TruthRequests

/-! What the context of a request keeps from one turn to the next: everything that the request
has brought along, except that an answer may be dropped. Replies that wait for the next turn only
ever tell about the payment. -/

set_option autoImplicit false

namespace Anastasis.Server

open Library Library.Effect Stasis Served

def TruthReply.AboutPayment : TruthReply → Prop
  | .error reply => reply.code ≠ .truthChallengeFailed
  | .paymentRequired _ => True
  | .keyShare _ | .plugin => False

structure GetContext.Continues (before after : GetContext) : Prop where
  truthUuid : after.truthUuid = before.truthUuid
  truthKey : after.truthKey = before.truthKey
  provided : after.paymentIdentifierProvided = before.paymentIdentifierProvided
  timeout : after.timeout = before.timeout
  response : after.challengeResponse = before.challengeResponse ∨ after.challengeResponse = none
  resp : ∀ reply, after.resp = some reply → before.resp = some reply ∨ reply.AboutPayment

theorem GetContext.Continues.refl (context : GetContext) : context.Continues context :=
  ⟨rfl, rfl, rfl, rfl, .inl rfl, fun _ => .inl⟩

theorem GetContext.Continues.trans {x y third : GetContext}
    (earlier : x.Continues y) (later : y.Continues third) : x.Continues third where
  truthUuid := later.truthUuid.trans earlier.truthUuid
  truthKey := later.truthKey.trans earlier.truthKey
  provided := later.provided.trans earlier.provided
  timeout := later.timeout.trans earlier.timeout
  response := by
    rcases later.response with eq | dropped
    · rw [eq]
      exact earlier.response
    · exact .inr dropped
  resp reply waits := by
    rcases later.resp reply waits with eq | pay
    · exact earlier.resp reply eq
    · exact .inr pay

structure TruthTurn.Continues (before after : TruthTurn) : Prop where
  address : after.address = before.address
  context : before.context.Continues after.context

instance : Std.Refl TruthTurn.Continues where
  refl turn := ⟨rfl, .refl turn.context⟩

instance : IsTrans TruthTurn TruthTurn.Continues where
  trans _ _ _ earlier later :=
    ⟨later.address.trans earlier.address, earlier.context.trans later.context⟩

abbrev Continuing {Value : Type} (program : TruthServed Value) : Prop :=
  Keeps TruthTurn.Continues program

section Parts

variable {calls : Calls} {service svc : ChallengeService}

theorem load_continues : Continuing load := Keeps.bind .get fun turn => .pure turn.context

theorem shared_continues : Continuing (shared : TruthServed TruthShared) :=
  Keeps.bind .get fun turn => .pure turn.shared

theorem update_continues {change : GetContext → GetContext}
    (continues : ∀ ctx : GetContext, ctx.Continues (change ctx)) :
    Continuing (update change) := Keeps.modify fun turn => ⟨rfl, continues turn.context⟩

theorem share_continues (change : TruthShared → TruthShared) : Continuing (share change) :=
  Keeps.modify fun turn => ⟨rfl, .refl turn.context⟩

theorem link_continues (operation : ListOperation) :
    Continuing (link operation : TruthServed Unit) :=
  Keeps.modify fun turn => ⟨rfl, .refl turn.context⟩

theorem act_continues (action : Address → TruthAction) : Continuing (act action) :=
  Keeps.modify fun turn => ⟨rfl, .refl turn.context⟩

theorem assert_continues (cond : Bool) : Continuing (assert cond : TruthServed Unit) := by
  unfold assert
  split
  · exact .pure ()
  · exact .throw Abort.assertion

theorem queueResponse_continues (reply : TruthReply) : Continuing (queueResponse reply) :=
  update_continues fun _ => ⟨rfl, rfl, rfl, rfl, .inl rfl, fun _ => .inl⟩

theorem hangUp_continues : Continuing hangUp :=
  update_continues fun _ => ⟨rfl, rfl, rfl, rfl, .inl rfl, fun _ => .inl⟩

theorem answerLater_continues {reply : TruthReply} (pay : reply.AboutPayment) :
    Continuing (answerLater reply) := by
  apply update_continues
  intro ctx
  refine ⟨rfl, rfl, rfl, rfl, .inl rfl, ?_⟩
  intro waiting eq
  cases eq
  exact .inr pay

theorem endAuthorization_continues : Continuing endAuthorization :=
  update_continues fun _ => ⟨rfl, rfl, rfl, rfl, .inl rfl, fun _ => .inl⟩

theorem suspendConnection_continues : Continuing suspendConnection :=
  .bind (update_continues fun _ => ⟨rfl, rfl, rfl, rfl, .inl rfl, fun _ => .inl⟩) fun _ => act_continues _

theorem resumeConnection_continues : Continuing resumeConnection :=
  .bind (update_continues fun _ => ⟨rfl, rfl, rfl, rfl, .inl rfl, fun _ => .inl⟩) fun _ => act_continues _

theorem awaitMerchant_continues : Continuing awaitMerchant := by
  unfold awaitMerchant
  refine .bind load_continues fun _ => .bind (assert_continues _) fun _ => ?_
  refine .bind (update_continues ?_) fun _ => .bind (link_continues _) fun _ => ?_
  · exact fun _ => ⟨rfl, rfl, rfl, rfl, .inl rfl, fun _ => .inl⟩
  refine .bind load_continues fun _ => .bind (assert_continues _) fun _ => ?_
  refine .bind (update_continues ?_) fun _ => suspendConnection_continues
  exact fun _ => ⟨rfl, rfl, rfl, rfl, .inl rfl, fun _ => .inl⟩

theorem beginPayment_continues : Continuing (beginPayment calls) := by
  unfold beginPayment
  refine .bind (act_continues _) fun _ => .bind load_continues fun _ => ?_
  refine .bind shared_continues fun _ => ?_
  split
  · exact queueResponse_continues _
  · refine .bind awaitMerchant_continues fun _ => update_continues ?_
    exact fun _ => ⟨rfl, rfl, rfl, rfl, .inl rfl, fun _ => .inl⟩
  refine .bind awaitMerchant_continues fun _ => .bind (update_continues ?_) fun _ =>
    act_continues _
  exact fun _ => ⟨rfl, rfl, rfl, rfl, .inl rfl, fun _ => .inl⟩

theorem resume_continues : Continuing resume := by
  unfold resume
  refine .bind load_continues fun _ => .bind (assert_continues _) fun _ => ?_
  refine .bind (link_continues _) fun _ => .bind (update_continues ?_) fun _ => ?_
  · exact fun _ => ⟨rfl, rfl, rfl, rfl, .inl rfl, fun _ => .inl⟩
  refine .bind (assert_continues _) fun _ => .bind (update_continues ?_) fun _ =>
    resumeConnection_continues
  exact fun _ => ⟨rfl, rfl, rfl, rfl, .inl rfl, fun _ => .inl⟩

theorem orderIdentifier_continues : Continuing orderIdentifier := by
  unfold orderIdentifier
  refine .bind load_continues fun ctx => ?_
  split
  · exact .pure _
  · exact .throw _

theorem makePaymentRequest_continues : Continuing makePaymentRequest :=
  .bind orderIdentifier_continues fun _ => answerLater_continues (by simp [TruthReply.AboutPayment])

theorem proposalCb_continues {made : Bool} {now : Time} {recording : Option Failure} :
    Continuing (proposalCb made now recording) := by
  unfold proposalCb
  refine .bind (update_continues ?_) fun _ => .bind resume_continues fun _ => ?_
  · exact fun _ => ⟨rfl, rfl, rfl, rfl, .inl rfl, fun _ => .inl⟩
  split
  · exact answerLater_continues (by simp [TruthReply.AboutPayment])
  refine .bind load_continues fun _ => .bind orderIdentifier_continues fun _ => ?_
  refine .bind shared_continues fun _ => ?_
  dsimp only
  refine .bind (share_continues _) fun _ => ?_
  split
  · exact answerLater_continues (by simp [TruthReply.AboutPayment])
  · exact answerLater_continues (by simp [TruthReply.AboutPayment])
  · exact makePaymentRequest_continues

theorem checkPaymentCb_continues {status : OrderStatus} {updating : Option Failure} :
    Continuing (checkPaymentCb status updating) := by
  unfold checkPaymentCb
  refine .bind (update_continues ?_) fun _ => .bind resume_continues fun _ => ?_
  · exact fun _ => ⟨rfl, rfl, rfl, rfl, .inl rfl, fun _ => .inl⟩
  cases status with
  | notFound => exact answerLater_continues (by simp [TruthReply.AboutPayment])
  | badGateway => exact answerLater_continues (by simp [TruthReply.AboutPayment])
  | gatewayTimeout => exact answerLater_continues (by simp [TruthReply.AboutPayment])
  | unexpected httpStatus => exact answerLater_continues (by simp [TruthReply.AboutPayment])
  | claimed => exact makePaymentRequest_continues
  | unpaid => exact makePaymentRequest_continues
  | paid =>
    refine .bind load_continues fun _ => .bind orderIdentifier_continues fun _ => ?_
    refine .bind shared_continues fun _ => ?_
    dsimp only
    refine .bind (share_continues _) fun _ => ?_
    split
    · exact answerLater_continues (by simp [TruthReply.AboutPayment])
    · exact .pure _
    · exact act_continues _

theorem awaitPlugin_continues : Continuing awaitPlugin := by
  unfold awaitPlugin gcSuspended
  refine .bind suspendConnection_continues fun _ => .bind (update_continues ?_) fun _ => ?_
  · exact fun _ => ⟨rfl, rfl, rfl, rfl, .inl rfl, fun _ => .inl⟩
  exact .bind (.modify fun turn => ⟨rfl, .refl turn.context⟩) fun _ => share_continues _

theorem beginRefund_continues (ctx : GetContext) (refundStarts : Bool) :
    Continuing (beginRefund ctx refundStarts) := .bind (act_continues _) fun _ => share_continues _

theorem chargePayment_continues (ctx : GetContext) : Continuing (chargePayment ctx calls) :=
  Keeps.modify fun turn => ⟨rfl, .refl turn.context⟩

theorem satisfyCode_continues (ctx : GetContext) (code : Nat) :
    Continuing (satisfyCode ctx code calls) := by
  unfold satisfyCode
  refine .bind shared_continues fun _ => ?_
  dsimp only
  exact .bind (share_continues _) fun _ => .pure _

theorem leaveList_continues : Continuing leaveList := .bind (link_continues _) fun _ =>
    update_continues fun _ => ⟨rfl, rfl, rfl, rfl, .inl rfl, fun _ => .inl⟩

theorem runAuthorizationProcess_continues : Continuing (runAuthorizationProcess calls) := by
  unfold runAuthorizationProcess
  refine .bind load_continues fun _ => .bind (assert_continues _) fun _ => ?_
  cases calls.process with
  | success =>
    exact .bind (chargePayment_continues _) fun _ => .bind endAuthorization_continues fun _ =>
      queueResponse_continues _
  | failed =>
    have ended : Continuing (do endAuthorization; queueResponse .plugin) :=
      .bind endAuthorization_continues fun _ => queueResponse_continues _
    dsimp only
    split
    · exact .bind (beginRefund_continues _ _) fun _ => ended
    · exact ended
  | suspended => exact awaitPlugin_continues
  | successReplyFailed =>
    exact .bind (chargePayment_continues _) fun _ => .bind endAuthorization_continues fun _ =>
      hangUp_continues
  | failedReplyFailed => exact .bind endAuthorization_continues fun _ => hangUp_continues
  | finished =>
    have left : ∀ mem : Bool, Continuing (do
        endAuthorization
        if mem then leaveList) := by
      intro mem
      refine .bind endAuthorization_continues fun _ => ?_
      split
      · exact leaveList_continues
      · exact .pure _
    dsimp only
    split
    · exact .bind (satisfyCode_continues _ _) fun _ => left _
    · exact left _

theorem startPlugin_continues (code : Nat) : Continuing (startPlugin calls code) := by
  unfold startPlugin
  refine .bind load_continues fun _ => ?_
  split
  · exact .throw _
  split
  · exact .bind (assert_continues _) fun _ => .pure _
  · exact .bind (satisfyCode_continues _ _) fun _ => .pure _
  · exact .pure _

theorem directValidation_continues : Continuing (directValidation calls) := by
  unfold directValidation
  refine .bind (startPlugin_continues _) fun _ => ?_
  split
  · exact queueResponse_continues _
  refine .bind (update_continues ?_) fun _ => ?_
  · exact fun _ => ⟨rfl, rfl, rfl, rfl, .inl rfl, fun _ => .inl⟩
  split
  · exact queueResponse_continues _
  · exact queueResponse_continues _
  · exact awaitPlugin_continues
  · exact hangUp_continues
  · exact hangUp_continues
  · exact queueResponse_continues _

theorem startAuthorization_continues : Continuing (startAuthorization calls) := by
  unfold startAuthorization
  refine .bind load_continues fun _ => .bind (startPlugin_continues _) fun _ => ?_
  split
  · exact queueResponse_continues _
  refine .bind (update_continues ?_) fun _ => .bind load_continues fun _ => ?_
  · exact fun _ => ⟨rfl, rfl, rfl, rfl, .inl rfl, fun _ => .inl⟩
  have processed : ∀ suspended : Bool, Continuing (do
      assert (!suspended)
      runAuthorizationProcess calls) :=
    fun _ => .bind (assert_continues _) fun _ => runAuthorizationProcess_continues
  dsimp only
  split
  · refine .bind (update_continues ?_) fun _ => .bind (link_continues _) fun _ => processed _
    exact fun _ => ⟨rfl, rfl, rfl, rfl, .inl rfl, fun _ => .inl⟩
  · exact processed _

theorem wakeUp_continues : Continuing wakeUp := resumeConnection_continues

theorem doTimeout_continues : Continuing doTimeout := by
  have removed : ∀ hn : Bool, Continuing (do
      assert hn
      update fun context => { context with hn := false }
      removeNode
      scheduleTimeout) := by
    intro hn
    refine .bind (assert_continues _) fun _ => .bind (update_continues ?_) fun _ => ?_
    · exact fun _ => ⟨rfl, rfl, rfl, rfl, .inl rfl, fun _ => .inl⟩
    exact .bind (.modify fun turn => ⟨rfl, .refl turn.context⟩) fun _ => share_continues _
  unfold doTimeout
  refine .bind load_continues fun _ => ?_
  split
  · refine .bind (update_continues ?_) fun _ => .bind resumeConnection_continues fun _ => removed _
    exact fun _ => ⟨rfl, rfl, rfl, rfl, .inl rfl, fun _ => .inl⟩
  · exact removed _

theorem createChallenge_continues (auth : AuthorizationPlugin) (ctx : GetContext)
    (codes : ChallengeCodes) : ctx.Continues (createChallenge calls auth ctx codes).2.1 := by
  unfold createChallenge
  repeat' split
  all_goals exact ⟨rfl, rfl, rfl, rfl, .inl rfl, fun _ => .inl⟩

theorem checkAnswer_continues (authorization : AuthorizationPlugin) (context : GetContext)
    (resp : HashCode) (codes : ChallengeCodes) :
    context.Continues (checkAnswer service calls authorization context resp codes).2.1 := by
  have unanswered : context.Continues { context with challengeResponse := none } :=
    ⟨rfl, rfl, rfl, rfl, .inr rfl, fun _ => .inl⟩
  unfold checkAnswer
  repeat' split
  all_goals first
    | exact ⟨rfl, rfl, rfl, rfl, .inl rfl, fun _ => .inl⟩
    | exact unanswered.trans (createChallenge_continues _ _ _)

theorem challenge_continues (ctx : GetContext) (m : ChallengeMethod)
    (encryptedTruth : Bytes) (codes : ChallengeCodes) :
    ctx.Continues (challenge service calls ctx m encryptedTruth codes).2.1 := by
  unfold challenge
  repeat' split
  all_goals first
    | exact ⟨rfl, rfl, rfl, rfl, .inl rfl, fun _ => .inl⟩
    | exact checkAnswer_continues _ _ _ _
    | exact createChallenge_continues _ _ _

theorem serveChallenge_continues (m : ChallengeMethod) (encryptedTruth : Bytes) :
    Continuing (serveChallenge svc calls m encryptedTruth) := by
  intro turn
  have looked := @challenge_continues calls svc turn.context m encryptedTruth turn.shared.codes
  unfold serveChallenge
  simp only [ensures_bind, ensures_load, ensures_shared]
  generalize challenge svc calls turn.context m encryptedTruth turn.shared.codes =
    result at looked ⊢
  obtain ⟨course, context, codes⟩ := result
  simp only [ensures_update, ensures_setCodes]
  have onwards : ∀ {program : TruthServed Unit}, Continuing program →
      Ensures program { turn with context := context, shared := { turn.shared with codes := codes } }
        (fun _ fin => turn.Continues fin) (fun _ fin => turn.Continues fin) := by
    intro program continuing
    have x : turn.Continues
        { turn with context := context, shared := { turn.shared with codes := codes } } :=
      ⟨rfl, looked⟩
    exact (continuing _).mono (fun _ _ later => IsTrans.trans _ _ _ x later)
      fun _ _ later => IsTrans.trans _ _ _ x later
  cases course with
  | reply reply => exact onwards (queueResponse_continues reply)
  | hangUp => exact onwards hangUp_continues
  | abort => exact onwards (.throw Abort.assertion)
  | validateDirectly => exact onwards directValidation_continues
  | authorize => exact onwards startAuthorization_continues

theorem withMethod_continues (m : ChallengeMethod) (ctx : GetContext) :
    ctx.Continues (ctx.withMethod svc m) := by
  cases m <;> exact ⟨rfl, rfl, rfl, rfl, .inl rfl, fun _ => .inl⟩

theorem continueTruthGet_continues : Continuing (continueTruthGet svc calls) := by
  unfold continueTruthGet
  split
  · exact queueResponse_continues _
  · exact queueResponse_continues _
  split
  · refine .bind (update_continues ?_) fun _ => queueResponse_continues _
    exact fun _ => ⟨rfl, rfl, rfl, rfl, .inl rfl, fun _ => .inl⟩
  refine .bind (update_continues (withMethod_continues _)) fun _ => ?_
  refine .bind load_continues fun _ => .bind shared_continues fun _ => ?_
  split
  · exact queueResponse_continues _
  · exact beginPayment_continues
  · exact serveChallenge_continues _ _
  · exact .bind (act_continues _) fun _ => serveChallenge_continues _ _

theorem truthGetAgain_continues : Continuing (truthGetAgain svc calls) := by
  unfold truthGetAgain
  refine .bind (update_continues ?_) fun _ => .bind load_continues fun _ => ?_
  · exact fun _ => ⟨rfl, rfl, rfl, rfl, .inl rfl, fun _ => .inl⟩
  split
  · refine .bind (queueResponse_continues _) fun _ => update_continues ?_
    exact fun _ => ⟨rfl, rfl, rfl, rfl, .inl rfl, fun _ => nofun⟩
  split
  · exact .bind (assert_continues _) fun _ => runAuthorizationProcess_continues
  · exact continueTruthGet_continues

end Parts

theorem TruthServer.handle_done {svc : ChallengeService} {server next : TruthServer}
    {gc : Address} (r : server.handle svc (.done gc) = .ok next) :
    ∃ mid, server.serve gc requestDone = .ok mid ∧ next = mid.free gc := by
  simp only [TruthServer.handle] at r
  cases served : server.serve gc requestDone with
  | error fault =>
    rw [served] at r
    cases r
  | ok mid =>
    rw [served] at r
    cases r
    exact ⟨mid, rfl, rfl⟩

end Anastasis.Server
