import Anastasis.Server.AuthorizationPlugins
import Anastasis.Server.KeyShareRuns
import Anastasis.Server.TruthRequestList

/-! Requests that abort the server: the answer that the rate limiter takes for a wrong one is
right, or a plugin that judges answers itself is to send a code. All other requests are served. -/

set_option autoImplicit false

namespace Anastasis.Server

open Library Library.Effect Library.DoublyLinked Library.Transition Stasis Served

/-- The successor of the code that the rate limiter is given is a code of the truth as well. -/
def RateLimitCall.Collides (hashAnswer : Nat → HashCode) (truthUuid : TruthUuid)
    (call : RateLimitCall) (codes : ChallengeCodes) : Prop :=
  ∃ date code middle,
    createChallengeCode questionSettings truthUuid call.created call.random
      (.opened codes call.creating) = (.oneResult date code, middle) ∧
    ∃ row ∈ challengecodeSelect truthUuid (roundAbs call.verified) middle.committed,
      hashAnswer row.code = hashAnswer (code + 1)

/-- Answers are not compared with codes, and codes only limit how many of them there may be. -/
def ChallengeMethod.limitsAnswers : ChallengeMethod → Bool
  | .question => true
  | .plugin authorization => authorization.userProvidedCode

structure GetContext.Reaches (service : ChallengeService) (calls : Calls)
    (payments : ChallengePayments) (context : GetContext) (method : ChallengeMethod) : Prop where
  truth : ∃ escrow decryptedTruth, calls.escrow = .oneResult escrow ∧
    service.load escrow.methodName = some method ∧
    service.truthDecrypt context.truthKey escrow.encryptedTruth = some decryptedTruth
  admitted : admission calls (context.withMethod service method) method payments = .free ∨
    ∃ payment, admission calls (context.withMethod service method) method payments = .paid payment

inductive GetContext.Offends (service : ChallengeService) (calls : Calls) (shared : TruthShared)
    (context : GetContext) : Prop where
  | collision {method : ChallengeMethod} :
      context.Reaches service calls shared.payments method → method.limitsAnswers = true →
      context.challengeResponse ≠ none →
      calls.rateLimit.Collides service.hashAnswer context.truthUuid shared.codes →
      Offends service calls shared context
  | unanswered {authorization : AuthorizationPlugin} {date : Time} {code : Nat}
      {final : Connection ChallengeCodes} :
      context.Reaches service calls shared.payments (.plugin authorization) →
      authorization.start = .checksAnswers → context.challengeResponse = none →
      calls.validation = .valid →
      createChallengeCode authorization.settings context.truthUuid calls.now calls.random
        (.opened shared.codes calls.creating) = (.oneResult date code, final) →
      authorization.codeRetransmissionFrequency ≤ absoluteGetDuration calls.now date → code ≠ 0 →
      Offends service calls shared context

/-- What the flags say about each other while the connection is not closed. -/
structure GetContext.Attended (context : GetContext) : Prop where
  equipped : context.authorizing = true → context.authorization.isSome = true
  outside : context.connection = .active → context.authorizing = false → context.inList = false
  awaited : context.suspended = true →
    context.authorizing = true ∨ context.po = true ∨ context.cpo = true

/-- The connection has been replied to or is suspended, unless the reply could not be queued. -/
def Calls.Closes (calls : Calls) : ConnectionState → Prop
  | .replied _ | .suspended => True
  | .hungUp => calls.validation = .hungUp ∨ calls.process = .successReplyFailed ∨
      calls.process = .failedReplyFailed
  | .active => False

/-- After an authorization that is finished the handler is called again. -/
def Calls.Ends (calls : Calls) (context : GetContext) : Prop :=
  calls.Closes context.connection ∨
    (context.connection = .active ∧ calls.process = .finished ∧ context.authorizing = false)

structure Calls.Serves (calls : Calls) (turn : TruthTurn) : Prop where
  attended : turn.context.Attended
  ends : calls.Ends turn.context

variable {service svc : ChallengeService} {calls : Calls} {context ctx : GetContext}
  {shared : TruthShared} {turn : TruthTurn} {gc : Address}

section Courses

variable {method m : ChallengeMethod} {codes : ChallengeCodes} {encryptedTruth : Bytes}
  {authorization auth : AuthorizationPlugin} {response resp : HashCode}

theorem rateLimit_aborted {call : RateLimitCall} {hashAnswer : Nat → HashCode}
    {truthUuid : TruthUuid} (aborted : (rateLimit hashAnswer truthUuid call codes).1 = .aborted) :
    call.Collides hashAnswer truthUuid codes := by
  unfold rateLimit rateLimited at aborted
  split at aborted
  · cases aborted
  · cases aborted
  · cases aborted
  rename_i date code mid issued
  have verifies := verifyChallengeCode_verifies hashAnswer truthUuid call.verified
    (hashAnswer (code + 1)) mid.committed call.verifying
  refine ⟨date, code, mid, issued, ?_⟩
  split at aborted
  · cases aborted
  · cases aborted
  · cases aborted
  rename_i h satisfied _ verified
  rw [verified] at verifies
  obtain ⟨row, mem, matched, _⟩ := verifies.valid h satisfied rfl
  exact ⟨row, mem, matched⟩

theorem createChallenge_goesOn : (createChallenge calls auth ctx codes).1 ≠ .abort := by
  unfold createChallenge Course.error
  repeat' split
  all_goals nofun

theorem createChallenge_sends (sends : (createChallenge calls auth ctx codes).1 = .authorize) :
    calls.validation = .valid ∧ ∃ date fin,
      createChallengeCode auth.settings ctx.truthUuid calls.now calls.random
        (.opened codes calls.creating) =
          (.oneResult date (createChallenge calls auth ctx codes).2.1.code, fin) ∧
      auth.codeRetransmissionFrequency ≤ absoluteGetDuration calls.now date := by
  unfold createChallenge Course.error at sends ⊢
  cases validated : calls.validation with
  | replied =>
    rw [validated] at sends
    cases sends
  | hungUp =>
    rw [validated] at sends
    cases sends
  | valid =>
    rw [validated] at sends
    dsimp only at sends ⊢
    refine ⟨rfl, ?_⟩
    split at sends
    · cases sends
    · cases sends
    · cases sends
    rename_i date code fin issued
    split at sends
    · cases sends
    rename_i late
    rw [if_neg late]
    exact ⟨date, fin, issued, Nat.le_of_not_lt late⟩

theorem challenge_aborts (aborts : (challenge svc calls ctx m encryptedTruth codes).1 = .abort) :
    (∃ truth, svc.truthDecrypt ctx.truthKey encryptedTruth = some truth) ∧
      m.limitsAnswers = true ∧ ctx.challengeResponse ≠ none ∧
      calls.rateLimit.Collides svc.hashAnswer ctx.truthUuid codes := by
  unfold challenge Course.error at aborts
  split at aborts
  · cases aborts
  · next decrypted =>
    unfold handleSecurityQuestion at aborts
    split at aborts
    · cases aborts
    · cases aborts
    rename_i aborted
    split at aborted
    · cases aborted
    rename_i told
    refine ⟨⟨_, decrypted⟩, rfl, by simp [told], ?_⟩
    apply rateLimit_aborted
    split at aborted
    · cases aborted
    · next limited => rw [limited]
    · split at aborted <;> cases aborted
  · next decrypted =>
    split at aborts
    · next told =>
      unfold checkAnswer Course.error at aborts
      split at aborts
      · next provided =>
        refine ⟨⟨_, decrypted⟩, provided, by simp [told], ?_⟩
        apply rateLimit_aborted
        split at aborts
        · cases aborts
        · cases aborts
        · next limited => rw [limited]
      · split at aborts
        · cases aborts
        · cases aborts
        · exact absurd aborts createChallenge_goesOn
        · split at aborts <;> cases aborts
    · exact absurd aborts createChallenge_goesOn

theorem challenge_starts
    (starts : (challenge svc calls ctx m encryptedTruth codes).1 = .authorize) :
    (∃ truth, svc.truthDecrypt ctx.truthKey encryptedTruth = some truth) ∧
      ∃ auth, m = .plugin auth ∧ (auth.userProvidedCode = true → ctx.challengeResponse = none ∧
        calls.validation = .valid ∧ ∃ date fin,
          createChallengeCode auth.settings ctx.truthUuid calls.now calls.random
            (.opened codes calls.creating) = (.oneResult date
              (challenge svc calls ctx m encryptedTruth codes).2.1.code, fin) ∧
          auth.codeRetransmissionFrequency ≤ absoluteGetDuration calls.now date) := by
  unfold challenge Course.error at starts ⊢
  split at starts
  · cases starts
  · split at starts <;> cases starts
  rename_i auth decrypted
  refine ⟨⟨_, decrypted⟩, auth, rfl, ?_⟩
  intro provided
  cases told : ctx.challengeResponse with
  | some resp =>
    rw [told] at starts
    dsimp only at starts
    unfold checkAnswer at starts
    rw [if_pos provided] at starts
    split at starts <;> cases starts
  | none =>
    rw [told] at starts
    exact ⟨rfl, createChallenge_sends starts⟩

theorem createChallenge_hangsUp (hangsUp : (createChallenge calls auth ctx codes).1 = .hangUp) :
    calls.validation = .hungUp := by
  unfold createChallenge Course.error at hangsUp
  split at hangsUp
  · cases hangsUp
  · assumption
  split at hangsUp
  · cases hangsUp
  · cases hangsUp
  · cases hangsUp
  · split at hangsUp <;> cases hangsUp

theorem challenge_hangsUp (hangsUp : (challenge svc calls ctx m encryptedTruth codes).1 = .hangUp) :
    calls.validation = .hungUp := by
  unfold challenge Course.error at hangsUp
  split at hangsUp
  · cases hangsUp
  · split at hangsUp <;> cases hangsUp
  split at hangsUp
  · unfold checkAnswer Course.error at hangsUp
    split at hangsUp
    · split at hangsUp <;> cases hangsUp
    split at hangsUp
    · cases hangsUp
    · cases hangsUp
    · exact createChallenge_hangsUp hangsUp
    · split at hangsUp <;> cases hangsUp
  · exact createChallenge_hangsUp hangsUp

end Courses

section Programs

theorem runAuthorizationProcess_served (active : turn.context.connection = .active)
    (runs : turn.context.authorizing = true) (awake : turn.context.suspended = false)
    (equipped : turn.context.authorization.isSome = true) :
    Ensures (runAuthorizationProcess calls) turn (fun _ fin => calls.Serves fin)
      (fun _ _ => False) := by
  unfold runAuthorizationProcess
  simp only [ensures_bind, ensures_load, ensures_assert, awake, Bool.not_false, if_true]
  cases processed : calls.process with
  | success =>
    refine ⟨⟨(by simp), (by simp), ?_⟩, .inl trivial⟩
    exact fun flagged => absurd (awake.symm.trans flagged) Bool.false_ne_true
  | failed =>
    have ended : ∀ shared, calls.Serves ⟨turn.address, { turn.context with
        authorizing := false, connection := .replied .plugin }, turn.operations, shared⟩ := by
      intro shared
      refine ⟨⟨(by simp), (by simp), ?_⟩, .inl trivial⟩
      exact fun flagged => absurd (awake.symm.trans flagged) Bool.false_ne_true
    dsimp only
    split
    · exact ended _
    · exact ended _
  | suspended => exact ⟨⟨fun _ => equipped, (by simp), fun _ => .inl runs⟩, .inl trivial⟩
  | successReplyFailed =>
    refine ⟨⟨(by simp), (by simp), ?_⟩, .inl (.inr (.inl processed))⟩
    exact fun flagged => absurd (awake.symm.trans flagged) Bool.false_ne_true
  | failedReplyFailed =>
    refine ⟨⟨(by simp), (by simp), ?_⟩, .inl (.inr (.inr processed))⟩
    exact fun flagged => absurd (awake.symm.trans flagged) Bool.false_ne_true
  | finished =>
    have finishes : ∀ operations shared, calls.Serves ⟨turn.address, { turn.context with
        authorizing := false, inList := false }, operations, shared⟩ := by
      intro operations shared
      refine ⟨⟨(by simp), fun _ _ => rfl, ?_⟩, .inr ⟨active, processed, rfl⟩⟩
      exact fun flagged => absurd (awake.symm.trans flagged) Bool.false_ne_true
    have left : ∀ shared, Ensures (do
        endAuthorization
        if turn.context.inList then leaveList) { turn with shared := shared }
        (fun _ fin => calls.Serves fin) (fun _ _ => False) := by
      intro shared
      cases mem : turn.context.inList with
      | true => exact finishes _ _
      | false =>
        have eq : { turn.context with authorizing := false, inList := false } =
            { turn.context with authorizing := false } := by rw [← mem]
        have r := finishes turn.operations shared
        rw [eq] at r
        exact r
    dsimp only
    split
    · exact left _
    · exact left turn.shared

theorem startPlugin_starts {code : Nat} {offence : Prop}
    (equipped : turn.context.authorization.isSome = true)
    (nonzero : ∀ auth, turn.context.authorization = some auth →
      auth.start = .checksAnswers → code ≠ 0 → offence) : Ensures (startPlugin calls code) turn
      (fun _ fin => ∃ codes, fin = { turn with shared := { turn.shared with codes := codes } })
      (fun _ _ => offence) := by
  unfold startPlugin
  simp only [ensures_bind, ensures_load]
  cases loaded : turn.context.authorization with
  | none =>
    rw [loaded] at equipped
    cases equipped
  | some auth =>
    dsimp only
    split
    · next checks =>
      simp only [ensures_bind, ensures_assert]
      split
      · exact ⟨_, rfl⟩
      rename_i y
      apply nonzero auth loaded checks
      simpa using y
    · simp only [ensures_bind, ensures_satisfyCode]
      exact ⟨_, rfl⟩
    · exact ⟨_, rfl⟩

structure GetContext.Idle (context : GetContext) : Prop where
  active : context.connection = .active
  resting : context.authorizing = false
  outside : context.inList = false
  awake : context.suspended = false

theorem GetContext.Idle.closed (idle : context.Idle) {connection : ConnectionState}
    (closes : calls.Closes connection) (authorizing : Bool)
    (equipped : authorizing = true → context.authorization.isSome = true)
    (operations : List ListOperation) (shared : TruthShared) :
    calls.Serves ⟨gc, { context with authorizing := authorizing, connection := connection },
      operations, shared⟩ := by
  refine ⟨⟨equipped, ?_, ?_⟩, .inl closes⟩
  · intro active
    rw [show connection = .active from active] at closes
    exact closes.elim
  · exact fun flagged => absurd (idle.awake.symm.trans flagged) Bool.false_ne_true

theorem GetContext.Idle.replied (idle : context.Idle) (reply : TruthReply)
    (operations : List ListOperation) (shared : TruthShared) :
    calls.Serves ⟨gc, { context with connection := .replied reply }, operations, shared⟩ := by
  have closes : calls.Closes (.replied reply) := trivial
  refine idle.closed closes context.authorizing ?_ operations shared
  exact fun runs => absurd (idle.resting.symm.trans runs) Bool.false_ne_true

theorem directValidation_served (idle : turn.context.Idle)
    (equipped : turn.context.authorization.isSome = true) :
    Ensures (directValidation calls) turn (fun _ fin => calls.Serves fin) (fun _ _ => False) := by
  refine (startPlugin_starts equipped fun _ _ _ y => absurd rfl y).bind ?_
  rintro st _ ⟨codes, rfl⟩
  split
  · exact idle.replied startFailed _ _
  simp only [ensures_bind, ensures_update]
  have judged : ∀ connection, calls.Closes connection → ∀ shared,
      calls.Serves ⟨turn.address, { turn.context with
        authorizing := true, connection := connection }, turn.operations, shared⟩ :=
    fun connection closes shared => idle.closed closes true (fun _ => equipped) _ shared
  cases processed : calls.process with
  | success => exact judged (.replied .plugin) trivial _
  | failed => exact judged (.replied .plugin) trivial _
  | suspended => exact ⟨⟨fun _ => equipped, (by simp), fun _ => .inl rfl⟩, .inl trivial⟩
  | successReplyFailed => exact judged .hungUp (.inr (.inl processed)) _
  | failedReplyFailed => exact judged .hungUp (.inr (.inr processed)) _
  | finished => exact judged (.replied _) trivial _

theorem startAuthorization_served {offence : Prop} (idle : turn.context.Idle)
    (equipped : turn.context.authorization.isSome = true)
    (nonzero : ∀ auth, turn.context.authorization = some auth →
      auth.start = .checksAnswers → turn.context.code ≠ 0 → offence) :
    Ensures (startAuthorization calls) turn (fun _ fin => calls.Serves fin)
      (fun _ _ => offence) := by
  unfold startAuthorization queueResponse
  simp only [ensures_bind, ensures_load]
  refine (startPlugin_starts equipped nonzero).mono ?_ fun _ _ thrown => thrown
  rintro st _ ⟨codes, rfl⟩
  split
  · exact idle.replied startFailed _ _
  simp only [ensures_bind, ensures_update, ensures_load, idle.outside, if_true, ensures_link,
    ensures_assert, idle.awake, Bool.not_false]
  refine Ensures.mono (runAuthorizationProcess_served ?_ ?_ ?_ ?_) (fun _ _ r => r)
    fun _ _ thrown => thrown.elim
  · exact idle.active
  · rfl
  · rfl
  · exact equipped

theorem serveChallenge_served {m : ChallengeMethod} {encryptedTruth : Bytes} {offence : Prop}
    (idle : turn.context.Idle) (equipped : ∀ auth, m = .plugin auth →
      turn.context.authorization = some auth) (checks : ∀ auth, m = .plugin auth →
      auth.start = .checksAnswers → auth.userProvidedCode = true) (collision : ∀ truth,
      svc.truthDecrypt turn.context.truthKey encryptedTruth = some truth →
      m.limitsAnswers = true → turn.context.challengeResponse ≠ none →
      calls.rateLimit.Collides svc.hashAnswer turn.context.truthUuid turn.shared.codes → offence)
    (unanswered : ∀ truth auth date code fin,
      svc.truthDecrypt turn.context.truthKey encryptedTruth = some truth →
      m = .plugin auth → auth.start = .checksAnswers →
      turn.context.challengeResponse = none → calls.validation = .valid →
      createChallengeCode auth.settings turn.context.truthUuid calls.now calls.random
        (.opened turn.shared.codes calls.creating) = (.oneResult date code, fin) →
      auth.codeRetransmissionFrequency ≤ absoluteGetDuration calls.now date → code ≠ 0 → offence) :
    Ensures (serveChallenge svc calls m encryptedTruth) turn
      (fun _ fin => calls.Serves fin) (fun _ _ => offence) := by
  unfold serveChallenge
  simp only [ensures_bind, ensures_load, ensures_shared]
  have follows := @challenge_follows svc calls turn.context m turn.shared.codes encryptedTruth
  have aborts := @challenge_aborts svc calls turn.context m turn.shared.codes encryptedTruth
  have starts := @challenge_starts svc calls turn.context m turn.shared.codes encryptedTruth
  have hangsUp := @challenge_hangsUp svc calls turn.context m turn.shared.codes encryptedTruth
  have validates := @challenge_validates svc calls turn.context m turn.shared.codes encryptedTruth
  generalize challenge svc calls turn.context m encryptedTruth turn.shared.codes =
    res at follows aborts starts hangsUp validates ⊢
  obtain ⟨course, next, codes⟩ := res
  obtain ⟨code, resp, rfl⟩ := follows
  have looked : GetContext.Idle { turn.context with code := code, challengeResponse := resp } :=
    ⟨idle.active, idle.resting, idle.outside, idle.awake⟩
  cases course with
  | reply reply => exact looked.replied reply _ _
  | hangUp =>
    have closes : calls.Closes .hungUp := .inl (hangsUp rfl)
    refine looked.closed closes turn.context.authorizing ?_ _ _
    exact fun running => absurd (idle.resting.symm.trans running) Bool.false_ne_true
  | abort =>
    obtain ⟨⟨truth, decrypted⟩, limits, told, collides⟩ := aborts rfl
    exact collision truth decrypted limits told collides
  | validateDirectly =>
    obtain ⟨_, auth, eq, _⟩ := validates rfl
    refine (directValidation_served looked ?_).mono (fun _ _ r => r) fun _ _ thrown => thrown.elim
    exact Option.isSome_iff_exists.mpr ⟨auth, equipped auth eq⟩
  | authorize =>
    obtain ⟨⟨truth, decrypted⟩, auth, eq, sends⟩ := starts rfl
    have loaded := equipped auth eq
    refine startAuthorization_served looked ?_ ?_
    · exact Option.isSome_iff_exists.mpr ⟨auth, loaded⟩
    intro y h checked nonzero
    cases Option.some.inj (loaded.symm.trans h)
    obtain ⟨silent, valid, date, fin, issued, late⟩ := sends (checks auth eq checked)
    exact unanswered truth auth date code fin decrypted eq checked silent valid issued late nonzero

theorem awaitMerchant_waits (idle : turn.context.Idle) : Ensures awaitMerchant turn
      (fun _ fin => fin.context = { turn.context with
        inList := true, suspended := true, connection := .suspended }) (fun _ _ => False) := by
  unfold awaitMerchant
  simp only [ensures_suspendConnection, ensures_bind, ensures_assert, ensures_load, ensures_update,
    ensures_link, idle.outside, idle.awake, Bool.not_false, if_true]

theorem beginPayment_served (idle : turn.context.Idle) :
    Ensures (beginPayment calls) turn (fun _ fin => calls.Serves fin) (fun _ _ => False) := by
  have resting : ∀ {auth : Option AuthorizationPlugin}, turn.context.authorizing = true →
      auth.isSome = true :=
    fun runs => absurd (idle.resting.symm.trans runs) Bool.false_ne_true
  unfold beginPayment queueResponse
  simp only [ensures_bind, ensures_act, ensures_load, ensures_shared]
  cases lookupChallengePayment calls.looking turn.context.truthUuid calls.now
      turn.shared.payments with
  | failed failure => exact idle.replied _ _ _
  | oneResult pay =>
    have waits := @awaitMerchant_waits { turn with shared := { turn.shared with
      actions := turn.shared.actions ++ [.paymentBegun turn.address] } } idle
    refine ensures_bind.mpr (waits.mono ?_ fun _ _ thrown => thrown)
    intro _ fin eq
    simp only [ensures_update]
    refine ⟨⟨?_, ?_, fun _ => .inr (.inr rfl)⟩, .inl ?_⟩
    · rw [eq]
      exact resting
    · rw [eq]
      rintro ⟨⟩
    · rw [eq]
      trivial
  | noResults =>
    have waits := @awaitMerchant_waits { turn with shared := { turn.shared with
      actions := turn.shared.actions ++ [.paymentBegun turn.address] } } idle
    refine ensures_bind.mpr (waits.mono ?_ fun _ _ thrown => thrown)
    intro _ fin eq
    simp only [ensures_bind, ensures_update, ensures_act]
    refine ⟨⟨?_, ?_, fun _ => .inr (.inl rfl)⟩, .inl ?_⟩
    · rw [eq]
      exact resting
    · rw [eq]
      simp
    · rw [eq]
      trivial

theorem GetContext.Idle.withMethod (idle : ctx.Idle) (m : ChallengeMethod) :
    (ctx.withMethod svc m).Idle := by
  cases m <;> exact ⟨idle.active, idle.resting, idle.outside, idle.awake⟩

@[simp] theorem GetContext.withMethod_truthKey (m : ChallengeMethod) :
    (ctx.withMethod svc m).truthKey = ctx.truthKey := by cases m <;> rfl

theorem continueTruthGet_served (installed : svc.Installed) (idle : context.Idle) :
    Ensures (continueTruthGet svc calls) ⟨gc, context, [], shared⟩
      (fun _ fin => calls.Serves fin) (fun _ _ => context.Offends svc calls shared) := by
  unfold continueTruthGet
  cases h : calls.escrow with
  | failed failure => exact idle.replied _ _ _
  | noResults => exact idle.replied _ _ _
  | oneResult escrow =>
    dsimp only
    cases loaded : svc.load escrow.methodName with
    | none =>
      have unloaded : GetContext.Idle { context with authorization := none } :=
        ⟨idle.active, idle.resting, idle.outside, idle.awake⟩
      exact unloaded.replied _ _ _
    | some m =>
      simp only [ensures_bind, ensures_update, ensures_load, ensures_shared]
      have ready := @GetContext.Idle.withMethod svc context idle m
      have serves : ∀ actions : List TruthAction,
          (admission calls (context.withMethod svc m) m shared.payments = .free ∨
            ∃ pay, admission calls (context.withMethod svc m) m shared.payments = .paid pay) →
          Ensures (serveChallenge svc calls m escrow.encryptedTruth)
            ⟨gc, context.withMethod svc m, [], { shared with actions := actions }⟩
            (fun _ fin => calls.Serves fin) (fun _ _ => context.Offends svc calls shared) := by
        intro actions admitted
        apply serveChallenge_served ready
        · rintro authorization rfl
          rfl
        · rintro authorization rfl checks
          obtain ⟨plugin, cost, _, rfl⟩ := installed.plugin loaded
          exact AuthorizationMethod.init_userProvidedCode checks
        · intro truth decrypted limits told collides
          simp only [GetContext.withMethod_truthKey, GetContext.withMethod_challengeResponse,
            GetContext.withMethod_truthUuid] at decrypted told collides
          exact .collision ⟨⟨escrow, truth, h, loaded, decrypted⟩, admitted⟩ limits
            told collides
        rintro truth authorization date code fin decrypted rfl checks silent valid
          issued late nonzero
        exact .unanswered ⟨⟨escrow, truth, h, loaded, decrypted⟩, admitted⟩
          checks silent valid issued late nonzero
      split
      · exact ready.replied _ _ _
      · exact (beginPayment_served ready).mono (fun _ _ r => r) fun _ _ thrown => thrown.elim
      · next free => exact serves _ (.inl free)
      · next pay paid =>
        exact serves _ (.inr ⟨pay, paid⟩)

theorem truthGet_served (installed : svc.Installed) {req : TruthRequest} :
    Ensures (truthGet svc req calls) ⟨gc, freshContext req.truthUuid, [], shared⟩
      (fun _ fin => calls.Serves fin) (fun _ _ => ∃ ctx, req.setup calls.now = .ok ctx ∧
        ctx.Offends svc calls shared) := by
  unfold truthGet
  cases read : req.setup calls.now with
  | error reply =>
    have idle : (freshContext req.truthUuid).Idle := ⟨rfl, rfl, rfl, rfl⟩
    exact idle.replied (.error reply) [] shared
  | ok ctx =>
    have idle : ctx.Idle := by
      obtain ⟨payId, truthKey, challengeResponse, timeout, rfl⟩ := req.setup_eq read
      exact ⟨rfl, rfl, rfl, rfl⟩
    exact (continueTruthGet_served installed idle).mono (fun _ _ r => r)
      fun _ _ offends => ⟨ctx, rfl, offends⟩

theorem GetContext.Offends.resumed
    (offends : GetContext.Offends service calls shared { context with suspended := false }) :
    context.Offends service calls shared := by
  have reaches : ∀ method, GetContext.Reaches service calls shared.payments
      { context with suspended := false } method → context.Reaches service calls shared.payments method := by
    rintro method ⟨truth, admitted⟩
    refine ⟨truth, ?_⟩
    cases method <;> exact admitted
  cases offends with
  | collision reached limits told collides =>
    exact .collision (reaches _ reached) limits told collides
  | unanswered reached checks silent valid issued late nonzero =>
    exact .unanswered (reaches _ reached) checks silent valid issued late nonzero

theorem truthGetAgain_served (installed : svc.Installed) (attended : context.Attended)
    (active : context.connection = .active) :
    Ensures (truthGetAgain svc calls) ⟨gc, context, [], shared⟩ (fun _ fin => calls.Serves fin)
      (fun _ _ => context.resp = none ∧ context.authorizing = false ∧
        context.Offends svc calls shared) := by
  unfold truthGetAgain
  simp only [ensures_bind, ensures_update, ensures_load]
  split
  · exact ⟨⟨attended.equipped, (by simp), (by simp)⟩, .inl trivial⟩
  rename_i silent
  by_cases runs : context.authorizing = true
  · have equipped := attended.equipped runs
    rw [if_pos runs]
    simp only [ensures_bind, ensures_assert, equipped, if_true]
    refine Ensures.mono (runAuthorizationProcess_served ?_ ?_ ?_ ?_) (fun _ _ r => r)
      fun _ _ thrown => thrown.elim
    · exact active
    · exact runs
    · rfl
    · exact equipped
  · have resting : context.authorizing = false := by simpa using runs
    have idle : GetContext.Idle { context with suspended := false } :=
      ⟨active, resting, attended.outside active resting, rfl⟩
    rw [if_neg runs]
    exact (continueTruthGet_served installed idle).mono (fun _ _ r => r)
      fun _ _ offends => ⟨silent, resting, offends.resumed⟩

end Programs

section Callbacks

theorem GetContext.Attended.answered (attended : context.Attended) (resp : Option TruthReply) :
    GetContext.Attended { context with resp := resp } :=
  ⟨attended.equipped, attended.outside, attended.awaited⟩

theorem makePaymentRequest_attended (attended : turn.context.Attended) :
    Ensures makePaymentRequest turn (fun _ fin => fin.context.Attended) (fun _ _ => True) := by
  unfold makePaymentRequest orderIdentifier
  simp only [ensures_bind, ensures_load]
  split
  · exact attended.answered _
  · trivial

theorem proposalCb_attended {made : Bool} {now : Time} {recording : Option Failure}
    (attended : ctx.Attended) : Ensures (proposalCb made now recording) ⟨gc, ctx, [], shared⟩
      (fun _ fin => fin.context.Attended) (fun _ _ => True) := by
  unfold proposalCb
  simp only [ensures_bind, ensures_update]
  refine resume_ensures.mono ?_ fun _ _ _ => trivial
  rintro _ _ ⟨_, _, rfl⟩
  have resumed : GetContext.Attended { ctx with
      po := false, inList := false, suspended := false, connection := .active } :=
    ⟨attended.equipped, fun _ _ => rfl, (by simp)⟩
  split
  · exact resumed.answered _
  unfold orderIdentifier
  simp only [ensures_bind, ensures_load, ensures_shared]
  split
  · simp only [ensures_pure, ensures_setPayments]
    split
    · exact resumed.answered _
    · exact resumed.answered _
    · exact makePaymentRequest_attended resumed
  · trivial

theorem checkPaymentCb_attended {st : OrderStatus} {updating : Option Failure}
    (attended : ctx.Attended) : Ensures (checkPaymentCb st updating) ⟨gc, ctx, [], shared⟩
      (fun _ fin => fin.context.Attended) (fun _ _ => True) := by
  unfold checkPaymentCb
  simp only [ensures_bind, ensures_update]
  refine resume_ensures.mono ?_ fun _ _ _ => trivial
  rintro _ _ ⟨_, _, rfl⟩
  have resumed : GetContext.Attended { ctx with
      cpo := false, inList := false, suspended := false, connection := .active } :=
    ⟨attended.equipped, fun _ _ => rfl, (by simp)⟩
  cases st with
  | notFound => exact resumed.answered _
  | badGateway => exact resumed.answered _
  | gatewayTimeout => exact resumed.answered _
  | unexpected httpStatus => exact resumed.answered _
  | claimed => exact makePaymentRequest_attended resumed
  | unpaid => exact makePaymentRequest_attended resumed
  | paid =>
    unfold orderIdentifier
    simp only [ensures_bind, ensures_load]
    split
    · simp only [ensures_pure, ensures_shared, ensures_setPayments]
      split
      · exact resumed.answered _
      · exact resumed
      · exact resumed
    · trivial

theorem wakeUp_attended (attended : ctx.Attended) (runs : ctx.authorizing = true) :
    Ensures wakeUp ⟨gc, ctx, [], shared⟩ (fun _ fin => fin.context.Attended) (fun _ _ => True) := by
  refine ⟨attended.equipped, ?_, attended.awaited⟩
  exact fun _ resting => absurd (resting.symm.trans runs) Bool.false_ne_true

theorem doTimeout_attended (attended : ctx.Attended)
    (unasked : ctx.suspended = true → ¬ (ctx.po = true ∨ ctx.cpo = true)) :
    Ensures doTimeout ⟨gc, ctx, [], shared⟩ (fun _ fin => fin.context.Attended)
      (fun _ _ => True) := by
  unfold doTimeout
  simp only [ensures_bind, ensures_load]
  by_cases waiting : ctx.suspended = true
  · have runs : ctx.authorizing = true :=
      (attended.awaited waiting).resolve_right (unasked waiting)
    simp only [waiting, if_true, ensures_bind, ensures_update, ensures_assert,
      ensures_resumeConnection, ensures_removeNode, ensures_scheduleTimeout]
    split
    · refine ⟨attended.equipped, ?_, (by simp)⟩
      exact fun _ resting => absurd (resting.symm.trans runs) Bool.false_ne_true
    · trivial
  · rw [if_neg waiting]
    simp only [ensures_bind, ensures_update, ensures_assert, ensures_removeNode,
      ensures_scheduleTimeout]
    split
    · exact ⟨attended.equipped, attended.outside, attended.awaited⟩
    · trivial

theorem GetContext.Attended.shutDown (ctx : GetContext) : ctx.shutDown.Attended :=
  ⟨nofun, fun _ _ => rfl, nofun⟩

end Callbacks

def TruthServer.Attends (server : TruthServer) : Prop :=
  ∀ gc context, server.requests.get gc = some context → context.Attended

def TruthServer.Harmless (service : ChallengeService) (server : TruthServer) : TruthEvent → Prop
  | .arrives _ request calls => ∀ context, request.setup calls.now = .ok context →
      ¬ context.Offends service calls server.shared
  | .turn gc calls => ∀ context, server.requests.get gc = some context → context.resp = none →
      context.authorizing = false → ¬ context.Offends service calls server.shared
  | _ => True

/-- The condition on lists and timeouts, while others change the codes at will. -/
def TruthServer.CarefulServing (service : ChallengeService) (server : TruthServer) :
    KeyShareLabel → Prop
  | .served label => server.CarefulStep service label
  | .codesChanged => True

variable {server next : TruthServer} {event ev : TruthEvent} {labels : List KeyShareLabel}

theorem TruthServer.Attends.serve {program : TruthServed Unit} (attends : server.Attends)
    (ensures : ∀ ctx, server.requests.get gc = some ctx →
      Ensures program ⟨gc, ctx, [], server.shared⟩ (fun _ fin => fin.context.Attended)
        (fun _ _ => True)) (r : server.serve gc program = .ok next) : next.Attends := by
  obtain ⟨ctx, fin, h, ret, _, _, ys⟩ := RequestServer.serve_ok r
  intro addr after has
  rw [ys] at has
  split at has
  · cases has
    exact (ensures ctx h).of_run ret
  · exact attends addr after has

theorem freshContext_attended (uuid : TruthUuid) : (freshContext uuid).Attended :=
  ⟨nofun, fun _ _ => rfl, nofun⟩

theorem handle_attends (installed : svc.Installed) (attends : server.Attends)
    (awaits : server.Awaits ev) (careful : server.Careful svc ev)
    (r : server.handle svc ev = .ok next) : next.Attends := by
  have weaken : ∀ {program : TruthServed Unit} {turn : TruthTurn} {calls : Calls}
      {offends : Abort → TruthTurn → Prop},
      Ensures program turn (fun _ fin => calls.Serves fin) offends →
      Ensures program turn (fun _ fin => fin.context.Attended) (fun _ _ => True) :=
    fun ensures => ensures.mono (fun _ _ served => served.attended) fun _ _ _ => trivial
  cases ev with
  | arrives gc req calls =>
    have allocated : TruthServer.Attends (server.allocate gc (freshContext req.truthUuid)) := by
      intro addr ctx has
      rw [RequestServer.allocate, Register.get_allocate] at has
      split at has
      · cases has
        exact freshContext_attended req.truthUuid
      · exact attends addr ctx has
    refine allocated.serve ?_ r
    intro ctx h
    rw [RequestServer.allocate, Register.get_allocate, if_pos rfl] at h
    cases h
    exact weaken (truthGet_served installed)
  | turn gc calls =>
    obtain ⟨_, held, has, active⟩ := awaits
    refine attends.serve ?_ r
    intro ctx h
    cases Option.some.inj (has.symm.trans h)
    exact weaken (truthGetAgain_served installed (attends gc held has) active)
  | proposal gc created now recording =>
    exact attends.serve (fun ctx h => proposalCb_attended (attends gc ctx h)) r
  | orderChecked gc st updating =>
    exact attends.serve (fun ctx h => checkPaymentCb_attended (attends gc ctx h)) r
  | wokenUp gc =>
    obtain ⟨held, has, running, _⟩ := awaits
    have served : server.serve gc wakeUp = .ok next := r
    refine attends.serve ?_ served
    intro ctx h
    cases Option.some.inj (has.symm.trans h)
    exact wakeUp_attended (attends gc held has) running
  | timedOut gc now =>
    exact attends.serve (fun ctx h =>
      doTimeout_attended (attends gc ctx h) (careful ctx h)) r
  | done gc =>
    obtain ⟨mid, served, rfl⟩ := TruthServer.handle_done r
    obtain ⟨_, _, _, _, _, _, ys⟩ := RequestServer.serve_ok served
    intro addr ctx has
    rw [RequestServer.free, Register.get_free] at has
    split at has
    · cases has
    rename_i ne
    rw [ys, if_neg ne] at has
    exact attends addr ctx has
  | refunded refund granted recording =>
    cases r
    exact attends

theorem shutDown_attends {fuel : Nat} {visited : List Address} (attends : server.Attends)
    (ended : server.shutDown fuel = some (visited, next)) : next.Attends := by
  obtain ⟨⟨_, requests⟩, closed, eq⟩ := Option.map_eq_some_iff.mp ended
  cases eq
  intro gc after has
  have related := @Register.close_keeps _ _ _ _ _
    (fun pre after : GetContext => pre.Attended → after.Attended)
    (fun _ attended => attended) (fun _ _ later _ => later (GetContext.Attended.shutDown _))
    _ _ _ closed gc
  rw [show requests.get gc = some after from has] at related
  generalize h : server.requests.get gc = held at related
  cases related with
  | some kept => exact kept (attends gc _ h)

/-- The list is in order and all requests are attended to, whatever others do to the codes. -/
theorem carefulRun_attends (installed : svc.Installed)
    (run : Run (Guarded (TruthServer.CarefulServing svc) (KeyShareStep svc)) .start labels
      server) : server.InOrder truthDiscipline ∧ server.Attends := by
  refine run.invariant (fun server => server.InOrder truthDiscipline ∧ server.Attends) ?_ ?_
  · refine ⟨start_inOrder, ?_⟩
    intro gc ctx h
    cases h
  rintro server label next ⟨order, attends⟩ ⟨careful, step⟩
  cases step with
  | codesChanged codes => exact ⟨⟨order.intact, order.member, order.settled⟩, attends⟩
  | served step =>
    refine ⟨truthStep_inOrder order ⟨careful, step⟩, ?_⟩
    cases step with
    | handled awaits handled => exact handle_attends installed attends awaits careful handled
    | shutDown _ ended => exact shutDown_attends attends ended

/-- A turn that nothing stops leaves its request with the context that it ended with. -/
theorem RequestServer.serve_serves {Context Shared : Type}
    {server : RequestServer Context Shared} {addr : Address} {ctx : Context}
    {program : Served Context Shared Unit} {post : Turn Context Shared → Prop}
    (h : server.requests.get addr = some ctx)
    (unbroken : server.serve addr program ≠ .error .brokenList)
    (ensures : Ensures program ⟨addr, ctx, [], server.shared⟩ (fun _ fin => post fin)
      (fun _ _ => False)) : ∃ next fin, server.serve addr program = .ok next ∧ post fin ∧
      next.requests.get addr = some fin.context := by
  obtain ⟨_, fin, ret, holds⟩ := ensures.returns
  cases r : server.serve addr program with
  | ok next =>
    obtain ⟨context', final', got, returned', _, _, ys⟩ := RequestServer.serve_ok r
    cases Option.some.inj (h.symm.trans got)
    cases ret.symm.trans returned'
    exact ⟨next, fin, rfl, holds, by rw [ys, if_pos rfl]⟩
  | error fault =>
    rw [r] at unbroken
    unfold RequestServer.serve at r
    rw [h] at r
    dsimp only at r
    rw [ret] at r
    dsimp only at r
    split at r
    · cases r
      exact absurd rfl unbroken
    · cases r

/-- No request aborts the server, in any run of careful steps and whatever becomes of the codes
meanwhile, unless it offends: each of its turns comes to an end with a reply or a suspension. -/
theorem truth_requests_served (installed : service.Installed)
    (run : Run (Guarded (TruthServer.CarefulServing service) (KeyShareStep service)) .start labels
      server) (turn : event.turnOf = some (gc, calls)) (awaits : server.Awaits event)
    (careful : server.Careful service event) (harmless : server.Harmless service event) :
    ∃ next context, server.handle service event = .ok next ∧
      next.requests.get gc = some context ∧ calls.Ends context := by
  obtain ⟨order, attends⟩ := carefulRun_attends installed run
  have unbroken := (handle_inOrder order awaits careful).1
  cases event with
  | arrives address request calls' =>
    cases turn
    have found : (server.allocate gc (freshContext request.truthUuid)).requests.get gc =
        some (freshContext request.truthUuid) := by
      rw [RequestServer.allocate, Register.get_allocate, if_pos rfl]
    have ensures := @truthGet_served service calls server.shared gc installed request
    obtain ⟨next, final, served, serves, present⟩ := RequestServer.serve_serves found unbroken
      (ensures.mono (fun _ _ served => served) (by
          rintro _ _ ⟨context, read, offends⟩
          exact harmless context read offends))
    exact ⟨next, final.context, served, present, serves.ends⟩
  | turn address calls' =>
    cases turn
    obtain ⟨_, context, found, active⟩ := awaits
    have ensures := @truthGetAgain_served service calls context server.shared gc installed
      (attends gc context found) active
    obtain ⟨next, final, served, serves, present⟩ := RequestServer.serve_serves found unbroken
      (ensures.mono (fun _ _ served => served) (by
          rintro _ _ ⟨silent, resting, offends⟩
          exact harmless context found silent resting offends))
    exact ⟨next, final.context, served, present, serves.ends⟩
  | proposal gc created now recording => cases turn
  | orderChecked gc status updating => cases turn
  | wokenUp gc => cases turn
  | timedOut gc now => cases turn
  | done gc => cases turn
  | refunded refund granted recording => cases turn

/-- The provider offers security questions and one-time passwords, for free. -/
def totpService : ChallengeService where
  questionCost := 0
  pluginLoad methodName := if methodName = "totp" then some (AuthorizationMethod.totp.init 0) else none
  truthDecrypt _ encryptedTruth := some encryptedTruth
  hashAnswer := sampleHash

theorem totpService_installed : totpService.Installed := by
  intro methodName auth loaded
  unfold totpService at loaded
  dsimp only at loaded
  split at loaded
  · next eq =>
    cases loaded
    exact ⟨.totp, 0, eq, rfl⟩
  · cases loaded

def totpRequest : TruthRequest := { quizRequest with response := .absent }

def totpCalls (code : Nat) : Calls :=
  { quizCalls with escrow := .oneResult ⟨zeroBlock 32, "totp"⟩, random := fun _ => code }

def quizCallsAt (second code : Nat) : Calls :=
  { quizCalls with
    now := second * seconds
    rateLimit := ⟨second * seconds, second * seconds, fun _ => code, fun _ => none, fun _ => none⟩ }

def firstQuiz : TruthEvent := .arrives 0 quizRequest (quizCallsAt 100 5)

def secondQuiz : TruthEvent := .arrives 1 quizRequest (quizCallsAt 131 4)

def quizAnswered : TruthServer :=
  match TruthServer.start.handle totpService firstQuiz with
  | .ok next => next
  | .error _ => .start

theorem firstQuiz_careful : TruthServer.start.Careful totpService firstQuiz := by
  intro ctx read
  constructor
  · exact fun _ => rfl
  · rintro ⟨_, lingers, _⟩
    cases lingers

theorem firstQuiz_harmless : TruthServer.start.Harmless totpService firstQuiz := by
  intro ctx read offends
  cases read
  cases offends with
  | collision _ _ _ collides =>
    obtain ⟨date, code, mid, issued, row, mem, eq⟩ := collides
    cases issued
    have only : row = sampleCode 5 100 3 := by
      have r : challengecodeSelect (zeroBlock 32) (roundAbs (100 * seconds))
          [sampleCode 5 100 3] = [sampleCode 5 100 3] := by decide +kernel
      exact List.mem_singleton.mp (r ▸ mem)
    rw [only] at eq
    revert eq
    decide
  | unanswered _ _ silent => cases silent

theorem truth_requests_served_quiz : ∃ next context,
    TruthServer.start.handle totpService firstQuiz = .ok next ∧
      next.requests.get 0 = some context ∧ (quizCallsAt 100 5).Ends context :=
  truth_requests_served totpService_installed .start rfl ⟨rfl, rfl⟩ firstQuiz_careful
    firstQuiz_harmless

/-- A one-time password is not asked for without aborting, and neither is a question answered when
the new code is one less than another that is still valid. -/
theorem truth_requests_abort : (totpService.Installed ∧
      TruthServer.start.Awaits (.arrives 0 totpRequest (totpCalls 7)) ∧
      TruthServer.start.handle totpService (.arrives 0 totpRequest (totpCalls 7)) =
        .error .assertion) ∧ Run (TruthStep totpService) .start [.handled firstQuiz] quizAnswered ∧
      quizAnswered.Awaits secondQuiz ∧
      quizAnswered.handle totpService secondQuiz = .error .assertion := by
  refine ⟨⟨totpService_installed, ⟨rfl, rfl⟩, ?_⟩, ?_, ⟨rfl, rfl⟩, ?_⟩
  · rfl
  · exact .next .start (.handled ⟨rfl, rfl⟩ rfl)
  · rfl

end Anastasis.Server
