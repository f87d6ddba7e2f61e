import Anastasis.Server.TruthRequests
import Anastasis.Server.TurnOrder

/-! The list of the requests that wait: it stays in order as long as nobody enters it the wrong
way round. -/

set_option autoImplicit false

namespace Anastasis.Server

open Library Library.DoublyLinked Library.Transition Library.Effect Stasis Served

/-- The request begins a payment in its turn and gets so far as to wait for the merchant. -/
def GetContext.Pays (service : ChallengeService) (calls : Calls) (payments : ChallengePayments)
    (context : GetContext) : Prop :=
  ∃ escrow method, calls.escrow = .oneResult escrow ∧
    service.load escrow.methodName = some method ∧
    admission calls (context.withMethod service method) method payments = .beginPayment ∧
    ∀ failure, lookupChallengePayment calls.looking context.truthUuid calls.now payments ≠
      .failed failure

/-- The request leaves the judgement of its answer to a plugin that takes its time. -/
def GetContext.Lingers (service : ChallengeService) (calls : Calls) (context : GetContext) : Prop :=
  context.challengeResponse ≠ none ∧ calls.process = .suspended ∧
    ∃ escrow authorization, calls.escrow = .oneResult escrow ∧
      service.load escrow.methodName = some (.plugin authorization) ∧
      authorization.userProvidedCode = true

/-- What the flags of a request say about each other between its turns. -/
structure GetContext.Settled (context : GetContext) : Prop where
  flagged : context.suspended = true → context.inList = true
  held : context.connection = .suspended → context.suspended = true
  authorizing : context.authorizing = true → context.connection = .active → context.inList = true
  merchant : context.po = true ∨ context.cpo = true →
    context.connection = .suspended ∧ context.authorizing = false
  single : ¬ (context.po = true ∧ context.cpo = true)

def truthDiscipline : Discipline GetContext where
  listed := (·.inList)
  settled := GetContext.Settled

/-- A turn of a request that was or was not in the list when it started. -/
abbrev TidyTruth (alone : Prop) (listed : Bool) (turn : TruthTurn) : Prop :=
  Tidy truthDiscipline alone listed turn

variable {alone : Prop} {listed mem : Bool} {gc : Address} {context ctx : GetContext}
  {shared : TruthShared} {turn : TruthTurn} {calls : Calls} {service svc : ChallengeService} {reply : TruthReply}

theorem GetContext.Settled.unasked (met : ctx.Settled) (active : ctx.connection = .active) :
    ctx.po = false ∧ ctx.cpo = false := by
  have refuted : ¬ (ctx.po = true ∨ ctx.cpo = true) := by
    intro waiting
    have suspended := (met.merchant waiting).1
    rw [active] at suspended
    cases suspended
  simpa using refuted

theorem GetContext.Settled.ended (met : context.Settled) (active : context.connection = .active)
    {connection : ConnectionState} (r : connection ≠ .active) (resumed : connection ≠ .suspended)
    (authorizing : Bool) :
    GetContext.Settled { context with authorizing := authorizing, connection := connection } := by
  obtain ⟨no_po, no_cpo⟩ := met.unasked active
  constructor
  · exact met.flagged
  · exact fun held => absurd held resumed
  · exact fun _ again => absurd again r
  · simp [no_po, no_cpo]
  · exact met.single

theorem GetContext.Settled.suspending (met : context.Settled)
    (active : context.connection = .active) (mem : context.inList = true) :
    GetContext.Settled { context with connection := .suspended, suspended := true, hn := true } := by
  obtain ⟨no_po, no_cpo⟩ := met.unasked active
  constructor <;> simp [no_po, no_cpo, mem]

theorem Tidy.replied (tidy : TidyTruth alone mem turn) (active : turn.context.connection = .active)
    (reply : TruthReply) : TidyTruth alone mem
      { turn with context := { turn.context with connection := .replied reply } } where
  settled := tidy.settled.ended active (by simp) (by simp) turn.context.authorizing
  legal := tidy.legal

theorem Tidy.hungUp (tidy : TidyTruth alone mem turn) (active : turn.context.connection = .active) :
    TidyTruth alone mem { turn with context := { turn.context with connection := .hungUp } } where
  settled := tidy.settled.ended active (by simp) (by simp) turn.context.authorizing
  legal := tidy.legal

theorem awaitMerchant_ensures : Ensures awaitMerchant ⟨gc, context, [], shared⟩
      (fun _ fin => context.inList = false ∧ fin =
        ⟨gc, { context with inList := true, suspended := true, connection := .suspended },
          [.insertSwapped], { shared with actions := shared.actions ++ [.connectionSuspended gc] }⟩)
      (fun _ _ => True) := by
  unfold awaitMerchant
  simp only [ensures_suspendConnection, ensures_bind, ensures_assert, ensures_load, ensures_update, ensures_link]
  split
  · next gone =>
    split
    · exact ⟨by simpa using gone, rfl⟩
    · trivial
  · trivial

theorem beginPayment_tidy (met : ctx.Settled) (idle : ctx.authorizing = false)
    (active : ctx.connection = .active)
    (empty : (∀ failure, lookupChallengePayment calls.looking ctx.truthUuid calls.now
      shared.payments ≠ .failed failure) → alone) :
    Ensures (beginPayment calls) ⟨gc, ctx, [], shared⟩
      (fun _ fin => TidyTruth alone ctx.inList fin) (fun _ _ => True) := by
  obtain ⟨no_po, no_cpo⟩ := met.unasked active
  unfold beginPayment
  simp only [ensures_bind, ensures_act, ensures_load, ensures_shared]
  cases h : lookupChallengePayment calls.looking ctx.truthUuid calls.now shared.payments with
  | failed failure =>
    have looked : ∀ shared : TruthShared, TidyTruth alone ctx.inList ⟨gc, ctx, [], shared⟩ :=
      fun _ => ⟨met, .nothing _⟩
    exact (looked _).replied active _
  | noResults =>
    have allowed : alone := empty (by rw [h]; intro failure; simp)
    refine ensures_bind.mpr (awaitMerchant_ensures.mono ?_ fun _ _ _ => trivial)
    rintro _ _ ⟨outside, rfl⟩
    simp only [ensures_bind, ensures_update, ensures_act, outside]
    constructor
    · constructor <;> simp [no_cpo, idle]
    · exact .insertSwapped allowed
  | oneResult pay =>
    have allowed : alone := empty (by rw [h]; intro failure; simp)
    refine ensures_bind.mpr (awaitMerchant_ensures.mono ?_ fun _ _ _ => trivial)
    rintro _ _ ⟨outside, rfl⟩
    simp only [ensures_update, outside]
    constructor
    · constructor <;> simp [no_po, idle]
    · exact .insertSwapped allowed

theorem runAuthorizationProcess_tidy (tidy : TidyTruth alone listed turn)
    (mem : turn.context.inList = true) (active : turn.context.connection = .active)
    (ordered : .insertSwapped ∉ turn.operations) :
    Ensures (runAuthorizationProcess calls) turn (fun _ fin => TidyTruth alone listed fin)
      (fun _ _ => True) := by
  have legal : Legal alone turn.operations listed turn.context.inList := tidy.legal
  unfold runAuthorizationProcess endAuthorization queueResponse hangUp
  simp only [ensures_bind, ensures_load, ensures_assert]
  split
  · next awake =>
    have awake : turn.context.suspended = false := by simpa using awake
    cases calls.process with
    | success =>
      exact ⟨tidy.settled.ended active (by simp) (by simp) false, legal⟩
    | failed =>
      simp only [beginRefund]
      split
      · simp only [ensures_bind, ensures_act, ensures_share]
        exact ⟨tidy.settled.ended active (by simp) (by simp) false, legal⟩
      · exact ⟨tidy.settled.ended active (by simp) (by simp) false, legal⟩
    | suspended => exact ⟨tidy.settled.suspending active mem, legal⟩
    | successReplyFailed =>
      exact ⟨tidy.settled.ended active (by simp) (by simp) false, legal⟩
    | failedReplyFailed => exact ⟨tidy.settled.ended active (by simp) (by simp) false, legal⟩
    | finished =>
      obtain ⟨no_po, no_cpo⟩ := tidy.settled.unasked active
      have left : ∀ shared, TidyTruth alone listed
          ⟨turn.address, { turn.context with authorizing := false, inList := false },
            turn.operations ++ [.remove], shared⟩ := by
        intro shared
        constructor
        · constructor <;> simp [no_po, no_cpo, awake, active]
        · rw [mem] at legal
          exact legal.removed ordered
      dsimp only [leaveList]
      split
      · exact left _
      · exact left _
  · trivial

theorem directValidation_tidy (tidy : TidyTruth alone mem turn)
    (active : turn.context.connection = .active) (prompt : calls.process ≠ .suspended) :
    Ensures (directValidation calls) turn (fun _ fin => TidyTruth alone mem fin)
      (fun _ _ => True) := by
  refine startPlugin_ensures.bind ?_
  rintro st _ ⟨codes, rfl⟩
  replace tidy : TidyTruth alone mem { turn with
      shared := { turn.shared with codes := codes } } := ⟨tidy.settled, tidy.legal⟩
  split
  · exact tidy.replied active startFailed
  simp only [ensures_bind, ensures_update]
  have judged : ∀ connection : ConnectionState, connection ≠ .active → connection ≠ .suspended →
      TidyTruth alone mem { turn with
        context := { turn.context with authorizing := true, connection := connection }
        shared := { turn.shared with codes := codes } } := by
    intro connection r resumed
    exact ⟨tidy.settled.ended active r resumed true, tidy.legal⟩
  cases result : calls.process with
  | suspended => exact absurd result prompt
  | success => exact judged _ (by simp) (by simp)
  | failed => exact judged _ (by simp) (by simp)
  | successReplyFailed => exact judged _ (by simp) (by simp)
  | failedReplyFailed => exact judged _ (by simp) (by simp)
  | finished => exact judged _ (by simp) (by simp)

theorem startAuthorization_tidy (tidy : TidyTruth alone listed turn)
    (active : turn.context.connection = .active) (x : turn.operations = []) :
    Ensures (startAuthorization calls) turn (fun _ fin => TidyTruth alone listed fin)
      (fun _ _ => True) := by
  obtain ⟨no_po, no_cpo⟩ := tidy.settled.unasked active
  have legal : Legal alone turn.operations listed turn.context.inList := tidy.legal
  rw [x] at legal
  unfold startAuthorization
  simp only [ensures_bind, ensures_load]
  refine startPlugin_ensures.mono ?_ fun _ _ _ => trivial
  rintro st _ ⟨codes, rfl⟩
  replace tidy : TidyTruth alone listed { turn with
      shared := { turn.shared with codes := codes } } := ⟨tidy.settled, tidy.legal⟩
  split
  · exact tidy.replied active startFailed
  simp only [ensures_bind, ensures_update, ensures_load]
  have runs : GetContext.Settled { turn.context with authorizing := true, inList := true } := by
    constructor <;> simp [no_po, no_cpo, active]
  split
  · next outside =>
    simp only [ensures_bind, ensures_update, ensures_link, ensures_assert]
    split
    · apply runAuthorizationProcess_tidy
      · refine ⟨runs, ?_⟩
        rw [outside] at legal
        cases legal
        simp only [x]
        exact .insert
      · rfl
      · exact active
      · simp [x]
    · trivial
  · next mem =>
    have mem : turn.context.inList = true := by simpa using mem
    simp only [ensures_bind, ensures_assert]
    split
    · apply runAuthorizationProcess_tidy
      · refine ⟨?_, tidy.legal⟩
        constructor <;> simp [no_po, no_cpo, mem, active]
      · exact mem
      · exact active
      · simp [x]
    · trivial

theorem GetContext.Settled.follows {next : GetContext} (met : ctx.Settled)
    (follows : ctx.Follows next) : next.Settled := by
  obtain ⟨code, resp, rfl⟩ := follows
  exact ⟨met.flagged, met.held, met.authorizing, met.merchant, met.single⟩

theorem serveChallenge_tidy {m : ChallengeMethod} {encryptedTruth : Bytes}
    (tidy : TidyTruth alone listed turn) (active : turn.context.connection = .active)
    (x : turn.operations = []) (prompt : turn.context.challengeResponse ≠ none → ∀ auth,
      m = .plugin auth → auth.userProvidedCode = true → calls.process ≠ .suspended) :
    Ensures (serveChallenge svc calls m encryptedTruth) turn
      (fun _ fin => TidyTruth alone listed fin) (fun _ _ => True) := by
  unfold serveChallenge
  simp only [ensures_bind, ensures_load, ensures_shared]
  have follows := @challenge_follows svc calls turn.context m turn.shared.codes encryptedTruth
  have validates := @challenge_validates svc calls turn.context m turn.shared.codes encryptedTruth
  generalize challenge svc calls turn.context m encryptedTruth turn.shared.codes =
    res at follows validates ⊢
  obtain ⟨course, next, codes⟩ := res
  have followed := tidy.settled.follows follows
  obtain ⟨code, resp, rfl⟩ := follows
  have looked : TidyTruth alone listed { turn with
      context := { turn.context with code := code, challengeResponse := resp }
      shared := { turn.shared with codes := codes } } := ⟨followed, tidy.legal⟩
  cases course with
  | reply reply => exact looked.replied active reply
  | hangUp => exact looked.hungUp active
  | abort => trivial
  | validateDirectly =>
    obtain ⟨told, auth, eq, provided⟩ := validates rfl
    exact directValidation_tidy looked active (prompt told auth eq provided)
  | authorize => exact startAuthorization_tidy looked active x

theorem GetContext.Settled.withMethod (met : ctx.Settled) (svc : ChallengeService)
    (m : ChallengeMethod) : (ctx.withMethod svc m).Settled := by
  cases m <;>
    exact ⟨met.flagged, met.held, met.authorizing, met.merchant, met.single⟩

theorem continueTruthGet_tidy (met : context.Settled) (idle : context.authorizing = false)
    (active : context.connection = .active) (empty : context.Pays svc calls shared.payments → alone)
    (prompt : ¬ context.Lingers svc calls) :
    Ensures (continueTruthGet svc calls) ⟨gc, context, [], shared⟩
      (fun _ fin => TidyTruth alone context.inList fin) (fun _ _ => True) := by
  have untouched : TidyTruth alone context.inList ⟨gc, context, [], shared⟩ := ⟨met, .nothing _⟩
  unfold continueTruthGet
  cases h : calls.escrow with
  | failed failure => exact untouched.replied active _
  | noResults => exact untouched.replied active _
  | oneResult escrow =>
    simp only
    cases loaded : svc.load escrow.methodName with
    | none =>
      have unloaded : TidyTruth alone context.inList
          ⟨gc, { context with authorization := none }, [], shared⟩ :=
        ⟨⟨met.flagged, met.held, met.authorizing, met.merchant, met.single⟩,
          .nothing _⟩
      exact unloaded.replied active _
    | some m =>
      simp only [ensures_bind, ensures_update, ensures_load, ensures_shared]
      have equipped := met.withMethod svc m
      have r : TidyTruth alone context.inList ⟨gc, context.withMethod svc m, [], shared⟩ := by
        refine ⟨equipped, ?_⟩
        change Legal alone [] context.inList (context.withMethod svc m).inList
        rw [GetContext.withMethod_inList]
        exact .nothing _
      have active : (context.withMethod svc m).connection = .active := by
        rw [GetContext.withMethod_connection, active]
      have fast : (context.withMethod svc m).challengeResponse ≠ none →
          ∀ authorization, m = .plugin authorization →
            authorization.userProvidedCode = true → calls.process ≠ .suspended := by
        rintro answered authorization rfl provided slow
        exact prompt ⟨answered, slow, escrow, authorization, h, loaded, provided⟩
      cases admitted : admission calls (context.withMethod svc m) m shared.payments with
      | refused error => exact r.replied active _
      | beginPayment =>
        have empty := fun looked => empty ⟨escrow, m, h, loaded, admitted, looked⟩
        have mem := @GetContext.withMethod_inList svc context m
        rw [← mem]
        apply beginPayment_tidy equipped _ active
        · rw [GetContext.withMethod_truthUuid]
          exact empty
        · rw [GetContext.withMethod_authorizing]
          exact idle
      | free => exact serveChallenge_tidy r active rfl fast
      | paid pay =>
        exact serveChallenge_tidy ⟨r.settled, r.legal⟩ active rfl fast

theorem resume_ensures : Ensures resume ⟨gc, context, [], shared⟩
      (fun _ fin => context.inList = true ∧ context.suspended = true ∧ fin =
        ⟨gc, { context with inList := false, suspended := false, connection := .active },
          [.remove], { shared with actions := shared.actions ++ [.connectionResumed gc] }⟩)
      (fun _ _ => True) := by
  unfold resume
  simp only [ensures_bind, ensures_assert, ensures_load, ensures_update, ensures_link,
    ensures_resumeConnection]
  split
  · next mem =>
    split
    · next waiting => exact ⟨mem, waiting, rfl⟩
    · trivial
  · trivial

theorem Tidy.answered (tidy : TidyTruth alone mem turn) (resp : Option TruthReply) :
    TidyTruth alone mem { turn with context := { turn.context with resp := resp } } where
  settled := ⟨tidy.settled.flagged, tidy.settled.held, tidy.settled.authorizing,
    tidy.settled.merchant, tidy.settled.single⟩
  legal := tidy.legal

theorem makePaymentRequest_tidy (tidy : TidyTruth alone mem turn) :
    Ensures makePaymentRequest turn (fun _ fin => TidyTruth alone mem fin) (fun _ _ => True) := by
  unfold makePaymentRequest orderIdentifier
  simp only [ensures_bind, ensures_load]
  split
  · exact tidy.answered _
  · trivial

theorem resumed_tidy (context : GetContext) (shared : TruthShared) (idle : context.authorizing = false) (no_po : context.po = false)
    (no_cpo : context.cpo = false) : TidyTruth alone true
      ⟨gc, { context with inList := false, suspended := false, connection := .active },
        [.remove], shared⟩ where
  settled := by constructor <;> simp [idle, no_po, no_cpo]
  legal := .remove

theorem proposalCb_tidy {made : Bool} {now : Time} {recording : Option Failure}
    (met : context.Settled) (asked : context.po = true) :
    Ensures (proposalCb made now recording) ⟨gc, context, [], shared⟩
      (fun _ fin => TidyTruth alone context.inList fin) (fun _ _ => True) := by
  have idle := (met.merchant (.inl asked)).2
  have no_cpo : context.cpo = false := by simpa [asked] using met.single
  unfold proposalCb
  simp only [ensures_bind, ensures_update]
  refine resume_ensures.mono ?_ fun _ _ _ => trivial
  rintro _ _ ⟨mem, _, rfl⟩
  rw [mem]
  have resumed : ∀ shared, TidyTruth alone true ⟨gc, { context with
      po := false, inList := false, suspended := false, connection := .active }, [.remove], shared⟩ :=
    fun shared => resumed_tidy { context with po := false } shared idle rfl no_cpo
  split
  · exact (resumed _).answered _
  unfold orderIdentifier
  simp only [ensures_bind, ensures_load, ensures_shared]
  split
  · simp only [ensures_pure, ensures_setPayments]
    split
    · exact (resumed _).answered _
    · exact (resumed _).answered _
    · exact makePaymentRequest_tidy (resumed _)
  · trivial

theorem checkPaymentCb_tidy {st : OrderStatus} {updating : Option Failure}
    (met : context.Settled) (asked : context.cpo = true) :
    Ensures (checkPaymentCb st updating) ⟨gc, context, [], shared⟩
      (fun _ fin => TidyTruth alone context.inList fin) (fun _ _ => True) := by
  have idle := (met.merchant (.inr asked)).2
  have no_po : context.po = false := by simpa [asked] using met.single
  unfold checkPaymentCb
  simp only [ensures_bind, ensures_update]
  refine resume_ensures.mono ?_ fun _ _ _ => trivial
  rintro _ _ ⟨mem, _, rfl⟩
  rw [mem]
  have resumed : ∀ shared, TidyTruth alone true ⟨gc, { context with
      cpo := false, inList := false, suspended := false, connection := .active }, [.remove], shared⟩ :=
    fun shared => resumed_tidy { context with cpo := false } shared idle no_po rfl
  cases st with
  | notFound => exact (resumed _).answered _
  | badGateway => exact (resumed _).answered _
  | gatewayTimeout => exact (resumed _).answered _
  | unexpected httpStatus => exact (resumed _).answered _
  | claimed => exact makePaymentRequest_tidy (resumed _)
  | unpaid => exact makePaymentRequest_tidy (resumed _)
  | paid =>
    unfold orderIdentifier
    simp only [ensures_bind, ensures_load]
    split
    · simp only [ensures_pure, ensures_shared, ensures_setPayments]
      split
      · exact (resumed _).answered _
      · exact resumed _
      · exact ⟨(resumed _).settled, (resumed _).legal⟩
    · trivial

theorem wakeUp_tidy (met : ctx.Settled) (runs : ctx.authorizing = true)
    (r : ctx.connection = .suspended ∨ ctx.connection = .active) :
    Ensures wakeUp ⟨gc, ctx, [], shared⟩
      (fun _ fin => TidyTruth alone ctx.inList fin) (fun _ _ => True) := by
  have unasked : ¬ (ctx.po = true ∨ ctx.cpo = true) := by
    intro waiting
    have idle := (met.merchant waiting).2
    rw [runs] at idle
    cases idle
  constructor
  · constructor
    · exact met.flagged
    · simp
    · rintro _ _
      cases r with
      | inl held => exact met.flagged (met.held held)
      | inr active => exact met.authorizing runs active
    · exact fun waiting => absurd waiting unasked
    · exact met.single
  · exact .nothing _

theorem doTimeout_tidy (met : ctx.Settled)
    (unasked : ctx.suspended = true → ¬ (ctx.po = true ∨ ctx.cpo = true)) :
    Ensures doTimeout ⟨gc, ctx, [], shared⟩
      (fun _ fin => TidyTruth alone ctx.inList fin) (fun _ _ => True) := by
  unfold doTimeout
  simp only [ensures_bind, ensures_load]
  by_cases waiting : ctx.suspended = true
  · simp only [waiting, if_true, ensures_bind, ensures_update, ensures_assert,
      ensures_resumeConnection, ensures_removeNode, ensures_scheduleTimeout]
    split
    · constructor
      · constructor
        · simp
        · simp
        · exact fun _ _ => met.flagged waiting
        · exact fun asked => absurd asked (unasked waiting)
        · exact met.single
      · exact .nothing _
    · trivial
  · rw [if_neg waiting]
    simp only [ensures_bind, ensures_update, ensures_assert, ensures_removeNode,
      ensures_scheduleTimeout]
    split
    · exact ⟨⟨met.flagged, met.held, met.authorizing, met.merchant, met.single⟩,
        .nothing _⟩
    · trivial

theorem requestDone_leaves : Ensures requestDone ⟨gc, ctx, [], shared⟩
      (fun _ fin => fin.context.inList = false ∧
        Legal alone fin.operations ctx.inList fin.context.inList) (fun _ _ => True) := by
  unfold requestDone leaveList
  simp only [ensures_bind, ensures_load, ensures_assert]
  split
  · by_cases mem : ctx.inList = true
    · rw [if_pos mem, mem]
      split
      · exact ⟨rfl, .remove⟩
      · exact ⟨rfl, .remove⟩
    have outside : ctx.inList = false := by simpa using mem
    rw [if_neg mem]
    split
    · exact ⟨outside, .nothing _⟩
    · exact ⟨outside, .nothing _⟩
  · trivial

theorem freshContext_settled (uuid : TruthUuid) : (freshContext uuid).Settled := by
  constructor <;> simp [freshContext]

theorem truthGet_tidy {req : TruthRequest} (empty : ∀ ctx, req.setup calls.now = .ok ctx →
      ctx.Pays svc calls shared.payments → alone)
    (prompt : ∀ ctx, req.setup calls.now = .ok ctx → ¬ ctx.Lingers svc calls) :
    Ensures (truthGet svc req calls) ⟨gc, freshContext req.truthUuid, [], shared⟩
      (fun _ fin => TidyTruth alone false fin) (fun _ _ => True) := by
  unfold truthGet
  cases read : req.setup calls.now with
  | error reply =>
    have allocated : TidyTruth alone false ⟨gc, freshContext req.truthUuid, [], shared⟩ :=
      ⟨freshContext_settled _, .nothing _⟩
    exact allocated.replied rfl _
  | ok ctx =>
    have paid := empty ctx read
    have prompt := prompt ctx read
    obtain ⟨payId, truthKey, challengeResponse, timeout, rfl⟩ := req.setup_eq read
    have met := freshContext_settled req.truthUuid
    apply continueTruthGet_tidy _ rfl rfl paid prompt
    exact ⟨met.flagged, met.held, met.authorizing, met.merchant, met.single⟩

theorem GetContext.Pays.resumed {payments : ChallengePayments}
    (pays : GetContext.Pays service calls payments { context with suspended := false }) :
    context.Pays service calls payments := by
  obtain ⟨escrow, m, h, loaded, admitted, looked⟩ := pays
  refine ⟨escrow, m, h, loaded, ?_, looked⟩
  cases m <;> exact admitted

theorem truthGetAgain_tidy (met : context.Settled) (active : context.connection = .active)
    (empty : context.resp = none → context.authorizing = false →
      context.Pays svc calls shared.payments → alone)
    (prompt : context.resp = none → context.authorizing = false → ¬ context.Lingers svc calls) :
    Ensures (truthGetAgain svc calls) ⟨gc, context, [], shared⟩
      (fun _ fin => TidyTruth alone context.inList fin) (fun _ _ => True) := by
  have awake : GetContext.Settled { context with suspended := false } := by
    refine ⟨?_, ?_, met.authorizing, met.merchant, met.single⟩
    · simp
    · simp [active]
  have st : TidyTruth alone context.inList ⟨gc, { context with suspended := false }, [], shared⟩ :=
    ⟨awake, .nothing _⟩
  unfold truthGetAgain
  simp only [ensures_bind, ensures_update, ensures_load]
  split
  · exact (st.replied active _).answered none
  rename_i told
  by_cases runs : context.authorizing = true
  · rw [if_pos runs]
    simp only [ensures_bind, ensures_assert]
    split
    · apply runAuthorizationProcess_tidy st (met.authorizing runs active) active
      simp
    · trivial
  have idle : context.authorizing = false := by simpa using runs
  rw [if_neg runs]
  exact continueTruthGet_tidy awake idle active
    (fun pays => empty told idle pays.resumed) (prompt told idle)

variable {server next : TruthServer} {event ev : TruthEvent}

/-- Nobody begins a payment while others wait, no plugin takes its time over an answer that it
judges itself, and no timeout cuts in while the merchant is being asked. -/
def TruthServer.Careful (service : ChallengeService) (server : TruthServer) : TruthEvent → Prop
  | .arrives _ request calls => ∀ context, request.setup calls.now = .ok context →
      (context.Pays service calls server.shared.payments → server.requests.members = []) ∧
        ¬ context.Lingers service calls
  | .turn gc calls => ∀ context, server.requests.get gc = some context →
      context.resp = none → context.authorizing = false →
      (context.Pays service calls server.shared.payments → server.requests.members = []) ∧
        ¬ context.Lingers service calls
  | .timedOut gc _ => ∀ context, server.requests.get gc = some context →
      context.suspended = true → ¬ (context.po = true ∨ context.cpo = true)
  | _ => True

theorem handle_inOrder (order : server.InOrder truthDiscipline) (awaits : server.Awaits ev)
    (careful : server.Careful svc ev) : server.handle svc ev ≠ .error .brokenList ∧
      ∀ next, server.handle svc ev = .ok next → next.InOrder truthDiscipline := by
  cases ev with
  | arrives gc req calls =>
    obtain ⟨_, fresh⟩ := awaits
    have allocated := order.allocate fresh rfl (freshContext_settled req.truthUuid)
    have h : (server.allocate gc (freshContext req.truthUuid)).requests.get gc =
        some (freshContext req.truthUuid) := by
      rw [RequestServer.allocate, Register.get_allocate, if_pos rfl]
    apply allocated.tidy h
    exact truthGet_tidy (fun ctx read => (careful ctx read).1) fun ctx read => (careful ctx read).2
  | turn gc calls =>
    obtain ⟨_, ctx, h, active⟩ := awaits
    apply order.tidy h
    apply truthGetAgain_tidy (order.settled gc ctx h) active
    · exact fun unanswered idle => (careful ctx h unanswered idle).1
    · exact fun unanswered idle => (careful ctx h unanswered idle).2
  | proposal gc created now recording =>
    obtain ⟨ctx, h, asked⟩ := awaits
    exact order.tidy h (proposalCb_tidy (order.settled gc ctx h) asked)
  | orderChecked gc st updating =>
    obtain ⟨ctx, h, asked⟩ := awaits
    exact order.tidy h (checkPaymentCb_tidy (order.settled gc ctx h) asked)
  | wokenUp gc =>
    obtain ⟨ctx, h, running, served⟩ := awaits
    exact order.tidy h (wakeUp_tidy (order.settled gc ctx h) running served)
  | timedOut gc now =>
    cases h : server.requests.get gc with
    | none => simp [TruthServer.handle, RequestServer.serve, h]
    | some ctx =>
      exact order.tidy h (doTimeout_tidy (order.settled gc ctx h) (careful ctx h))
  | done gc =>
    obtain ⟨ctx, h, _⟩ := awaits
    obtain ⟨unbroken, after⟩ := @RequestServer.InOrder.serve GetContext TruthShared
      truthDiscipline gc ctx server requestDone (fun fin => fin.inList = false) order h
      requestDone_leaves
    simp only [TruthServer.handle]
    cases served : server.serve gc requestDone with
    | error fault =>
      rw [served] at unbroken
      exact ⟨unbroken, (by simp)⟩
    | ok next =>
      obtain ⟨fin, gone, carried⟩ := after next served
      refine ⟨(by simp), ?_⟩
      intro freed done
      cases done
      exact order.free gone carried
  | refunded refund granted recording =>
    refine ⟨by simp [TruthServer.handle], ?_⟩
    intro next r
    cases r
    exact ⟨order.intact, order.member, order.settled⟩

theorem GetContext.Settled.shutDown (met : ctx.Settled) : ctx.shutDown.Settled := by
  constructor <;> simp only [GetContext.shutDown] <;> try simp
  by_cases waiting : ctx.suspended = true
  · simp [waiting]
  · rw [if_neg waiting]
    exact fun held => waiting (met.held held)

theorem shutDown_inOrder {fuel : Nat} (order : server.InOrder truthDiscipline)
    (enough : server.requests.members.length < fuel) :
    ∃ next, server.shutDown fuel = some (server.requests.members, next) ∧
      next.InOrder truthDiscipline ∧ next.requests.members = [] := by
  obtain ⟨requests, closed, emptied, closed_order⟩ :=
    order.close enough (fun ctx met => ⟨met.shutDown, rfl⟩) { server.shared with
        refunds := []
        task := none
        actions := server.shared.actions ++
          (server.requests.members.filter server.isSuspended).map .connectionResumed } true
  exact ⟨_, by rw [TruthServer.shutDown, closed]; rfl, closed_order, emptied⟩

theorem shutDown_ends {fuel : Nat} {visited : List Address} (order : server.InOrder truthDiscipline)
    (ended : server.shutDown fuel = some (visited, next)) :
    visited = server.requests.members ∧ next.InOrder truthDiscipline := by
  obtain ⟨again, shutDown, closed_order, _⟩ :=
    shutDown_inOrder order (Nat.lt_of_lt_of_le (Nat.lt_succ_self _)
      (Nat.le_add_left (server.requests.members.length + 1) fuel))
  obtain ⟨closed, close, eq⟩ := Option.map_eq_some_iff.mp ended
  have more := Register.close_mono (server.requests.members.length + 1) close
  rw [TruthServer.shutDown, more, Option.map_some, eq] at shutDown
  cases shutDown
  exact ⟨rfl, closed_order⟩

/-- The condition on the steps of a server; a shutdown may happen at any time. -/
def TruthServer.CarefulStep (service : ChallengeService) (server : TruthServer) :
    TruthLabel → Prop
  | .handled event => server.Careful service event
  | .shutDown _ => True

theorem start_inOrder : TruthServer.start.InOrder truthDiscipline where
  intact := Register.empty_intact
  member gc context found := by cases found
  settled gc context found := by cases found

theorem truthStep_inOrder {label : TruthLabel} (order : server.InOrder truthDiscipline)
    (step : Guarded (TruthServer.CarefulStep svc) (TruthStep svc) server label next) :
    next.InOrder truthDiscipline := by
  obtain ⟨careful, step⟩ := step
  cases step with
  | handled awaits handled => exact (handle_inOrder order awaits careful).2 next handled
  | shutDown _ ended => exact (shutDown_ends order ended).2

theorem truthRun_inOrder {labels : List TruthLabel}
    (run : Run (Guarded (TruthServer.CarefulStep svc) (TruthStep svc)) TruthServer.start
      labels server) : server.InOrder truthDiscipline :=
  run.invariant (fun server => server.InOrder truthDiscipline) start_inOrder
    fun _ _ _ order step => truthStep_inOrder order step

end Anastasis.Server
