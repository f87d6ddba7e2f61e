import Anastasis.Server.TruthFrames
import Anastasis.Stasis.ChallengeCodeCalls

/-! Which requests a key share is handed out to. -/

set_option autoImplicit false

namespace Anastasis.Server

open Library Library.Effect Library.Transition Stasis Served

/-- The answer to a question, an answer that the plugin of the method accepts, or an unexpired code
of the truth that has tries left. -/
def RightAnswer (service : ChallengeService) (calls : Calls) (truthUuid : TruthUuid)
    (codes : ChallengeCodes) (decryptedTruth : Bytes) (response : HashCode) :
    ChallengeMethod → Prop
  | .question => response.val = decryptedTruth
  | .plugin authorization =>
    if authorization.userProvidedCode then calls.process = .finished
    else ∃ row ∈ codes, active truthUuid (roundAbs calls.now) row = true ∧
      service.hashAnswer row.code = response

/-- A right answer; the plugin of a code must have found the challenge satisfied. -/
def Earned (service : ChallengeService) (calls : Calls) (truthUuid : TruthUuid)
    (codes : ChallengeCodes) (decryptedTruth : Bytes) (response : HashCode) :
    ChallengeMethod → Prop
  | .question => response.val = decryptedTruth
  | .plugin authorization =>
    if authorization.userProvidedCode then calls.process = .finished
    else ∃ row ∈ codes, active truthUuid (roundAbs calls.now) row = true ∧
      service.hashAnswer row.code = response ∧ row.satisfied = true

/-- Replies that call an answer wrong; a plugin that judges answers replies to the others itself. -/
def GetContext.AnsweredWrong (method : ChallengeMethod) (context : GetContext) : Prop :=
  (∃ status hint, context.connection =
    .replied (.error ⟨status, .truthChallengeFailed, hint⟩)) ∨
  context.connection = .replied .plugin ∧ context.challengeResponse ≠ none ∧
    ∃ authorization, method = .plugin authorization ∧ authorization.userProvidedCode = true

variable {service svc : ChallengeService} {calls : Calls} {context ctx : GetContext}
  {method m : ChallengeMethod} {codes : ChallengeCodes} {authorization auth : AuthorizationPlugin}
  {truthUuid uuid : TruthUuid} {response resp : HashCode} {reply : TruthReply}

theorem returnKeyShare_eq {share : EncryptedKeyShare}
    (ret : returnKeyShare calls.keyShare = .keyShare share) :
    calls.keyShare = .oneResult share := by
  cases r : calls.keyShare with
  | failed failure => simp [returnKeyShare, r] at ret
  | noResults => simp [returnKeyShare, r] at ret
  | oneResult h =>
    rw [r] at ret
    cases ret
    rfl

def TruthReply.Neutral (reply : TruthReply) : Prop :=
  (∀ share, reply ≠ .keyShare share) ∧ reply ≠ .plugin ∧
    ∀ status hint, reply ≠ .error ⟨status, .truthChallengeFailed, hint⟩

theorem TruthReply.Neutral.error {error : ErrorReply} (y : error.code ≠ .truthChallengeFailed) :
    (TruthReply.error error).Neutral := by
  refine ⟨nofun, nofun, ?_⟩
  rintro st hint eq
  cases eq
  exact y rfl

theorem TruthReply.AboutPayment.neutral (pay : reply.AboutPayment) : reply.Neutral := by
  cases reply with
  | error error => exact .error pay
  | paymentRequired payId => exact ⟨nofun, nofun, nofun⟩
  | keyShare encryptedKeyShare => cases pay
  | plugin => cases pay

theorem rateLimit_replied {call : RateLimitCall} {error : ErrorReply} {fin : ChallengeCodes}
    (limited : rateLimit svc.hashAnswer uuid call codes = (.replied error, fin)) :
    error.code ≠ .truthChallengeFailed := by
  unfold rateLimit rateLimited at limited
  split at limited
  · cases limited
    simp
  · cases limited
    simp
  · cases limited
    simp
  split at limited
  · cases limited
  · cases limited
    simp
  · cases limited
    simp
  · cases limited

theorem handleSecurityQuestion_keyShare {call : RateLimitCall} {challengeResponse : Option HashCode}
    {decryptedTruth : Bytes} {fin : ChallengeCodes}
    (released : handleSecurityQuestion svc.hashAnswer uuid call challengeResponse
      decryptedTruth codes = (.keyShare, fin)) :
    ∃ resp, challengeResponse = some resp ∧ resp.val = decryptedTruth := by
  unfold handleSecurityQuestion at released
  split at released
  · cases released
  rename_i resp
  split at released
  · cases released
  · cases released
  split at released
  · cases released
  rename_i eq
  refine ⟨resp, rfl, ?_⟩
  by_contra ne
  exact eq (.inr ne)

theorem handleSecurityQuestion_error {call : RateLimitCall} {challengeResponse : Option HashCode}
    {decryptedTruth : Bytes} {fin : ChallengeCodes} {error : ErrorReply}
    (fails : handleSecurityQuestion svc.hashAnswer uuid call challengeResponse
      decryptedTruth codes = (.error error, fin)) : error.code ≠ .truthChallengeFailed ∨
      ∃ resp, challengeResponse = some resp ∧ resp.val ≠ decryptedTruth := by
  unfold handleSecurityQuestion at fails
  split at fails
  · cases fails
    exact .inl (by simp)
  rename_i resp
  split at fails
  · next limited =>
    cases fails
    exact .inl (rateLimit_replied limited)
  · cases fails
  split at fails
  · next wrong =>
    refine .inr ⟨resp, rfl, ?_⟩
    intro eq
    rcases wrong with short | ne
    · rw [← eq, resp.property] at short
      exact short rfl
    · exact ne eq
  · cases fails

/-- What a reply to a challenge tells about the answer in `before`, if the context is `after` then. -/
structure Judged (service : ChallengeService) (calls : Calls) (method : ChallengeMethod)
    (decryptedTruth : Bytes) (codes : ChallengeCodes) (before after : GetContext)
    (reply : TruthReply) : Prop where
  released : ∀ share, reply = .keyShare share → calls.keyShare = .oneResult share ∧
    ∃ response, before.challengeResponse = some response ∧
      Earned service calls before.truthUuid codes decryptedTruth response method
  fair : (∃ status hint, reply = .error ⟨status, .truthChallengeFailed, hint⟩) →
    ∃ response, before.challengeResponse = some response ∧
      ¬ RightAnswer service calls before.truthUuid codes decryptedTruth response method
  silent : reply = .plugin → after.challengeResponse = none

theorem Judged.neutral {truth : Bytes} {after : GetContext} (neutral : reply.Neutral) :
    Judged svc calls m truth codes ctx after reply where
  released share same := absurd same (neutral.1 share)
  fair := by
    rintro ⟨st, hint, same⟩
    exact absurd same (neutral.2.2 st hint)
  silent same := absurd same neutral.2.1

theorem Judged.keyShare {truth : Bytes} {after : GetContext}
    (told : ctx.challengeResponse = some resp)
    (earned : Earned svc calls ctx.truthUuid codes truth resp m) :
    Judged svc calls m truth codes ctx after (returnKeyShare calls.keyShare) where
  released share returned := ⟨returnKeyShare_eq returned, resp, told, earned⟩
  fair := by
    rintro ⟨st, hint, same⟩
    unfold returnKeyShare at same
    split at same <;> cases same
  silent same := by
    unfold returnKeyShare at same
    split at same <;> cases same

theorem createChallenge_judged {decryptedTruth : Bytes} {before : GetContext}
    {fin : ChallengeCodes} {after : GetContext} (unanswered : ctx.challengeResponse = none)
    (made : createChallenge calls auth ctx codes = (.reply reply, after, fin))
    (start : ChallengeCodes) :
    Judged service calls method decryptedTruth start before after reply := by
  have neutral : ∀ st code hint, code ≠ .truthChallengeFailed →
      Judged service calls method decryptedTruth start before after (.error ⟨st, code, hint⟩) :=
    fun st code hint y => .neutral (.error y)
  unfold createChallenge Course.error at made
  split at made
  · cases made
    exact ⟨nofun, nofun, fun _ => unanswered⟩
  · cases made
  split at made
  · cases made
    exact neutral _ _ _ (by simp)
  · cases made
    exact neutral _ _ _ (by simp)
  · cases made
    exact neutral _ _ _ (by simp)
  split at made
  · cases made
    exact neutral _ _ _ (by simp)
  · cases made

theorem checkAnswer_judged {decryptedTruth : Bytes} {fin : ChallengeCodes} {after : GetContext}
    (told : context.challengeResponse = some resp)
    (checked : checkAnswer svc calls auth context resp codes = (.reply reply, after, fin)) :
    Judged svc calls (.plugin auth) decryptedTruth codes context after reply := by
  have neutral : ∀ {error : ErrorReply}, error.code ≠ .truthChallengeFailed →
      Judged svc calls (.plugin auth) decryptedTruth codes context after (.error error) :=
    fun y => .neutral (.error y)
  unfold checkAnswer Course.error at checked
  by_cases direct : auth.userProvidedCode = true
  · rw [if_pos direct] at checked
    split at checked
    · cases checked
    · next limited =>
      cases checked
      exact neutral (rateLimit_replied limited)
    · cases checked
  · rw [if_neg direct] at checked
    have verifies := verifyChallengeCode_verifies svc.hashAnswer context.truthUuid calls.now
      resp codes calls.verifying
    generalize verifyChallengeCode svc.hashAnswer context.truthUuid calls.now resp
      (.opened codes calls.verifying) = res at verifies checked
    obtain ⟨st, conn⟩ := res
    cases st with
    | challengeCodeMismatch =>
      cases checked
      refine ⟨nofun, fun _ => ⟨resp, told, ?_⟩, nofun⟩
      simp only [RightAnswer, direct]
      rintro ⟨row, mem, open_now, matched⟩
      exact verifies.invalid (.inl rfl) row (mem_challengecodeSelect.mpr ⟨mem, open_now⟩) matched
    | hardError =>
      cases checked
      exact neutral (by simp)
    | noResults => exact createChallenge_judged rfl checked codes
    | validCodeStored code satisfied =>
      dsimp only at checked
      split at checked
      · next marked =>
        cases checked
        obtain ⟨row, r, matched, _, eq⟩ := verifies.valid code satisfied rfl
        obtain ⟨mem, open_now⟩ := mem_challengecodeSelect.mp r
        apply Judged.keyShare told
        simp only [Earned, direct]
        exact ⟨row, mem, open_now, matched, eq.trans marked⟩
      · cases checked

theorem challenge_judged {encryptedTruth : Bytes} {fin : ChallengeCodes} {after : GetContext}
    (looked : challenge service calls context method encryptedTruth codes =
      (.reply reply, after, fin)) :
    (service.truthDecrypt context.truthKey encryptedTruth = none ∧ reply.Neutral) ∨
      ∃ decryptedTruth, service.truthDecrypt context.truthKey encryptedTruth = some decryptedTruth ∧
        Judged service calls method decryptedTruth codes context after reply := by
  unfold challenge Course.error at looked
  split at looked
  · next undecrypted =>
    cases looked
    exact .inl ⟨undecrypted, .error (by simp)⟩
  · next decryptedTruth decrypted =>
    refine .inr ⟨decryptedTruth, decrypted, ?_⟩
    split at looked
    · next released =>
      cases looked
      obtain ⟨resp, told, eq⟩ := handleSecurityQuestion_keyShare released
      exact .keyShare told eq
    · next fails =>
      cases looked
      rcases handleSecurityQuestion_error fails with y | ⟨resp, told, ne⟩
      · exact .neutral (.error y)
      · exact ⟨nofun, fun _ => ⟨resp, told, ne⟩, nofun⟩
    · cases looked
  · next decryptedTruth _ decrypted =>
    refine .inr ⟨decryptedTruth, decrypted, ?_⟩
    split at looked
    · next resp told => exact checkAnswer_judged told looked
    · next unanswered => exact createChallenge_judged unanswered looked codes

/-- What a turn replies is in accordance with the answer that its request had when it began. -/
structure Answered (service : ChallengeService) (calls : Calls) (codes : ChallengeCodes)
    (before final : GetContext) : Prop where
  released : ∀ share, final.connection = .replied (.keyShare share) →
    calls.keyShare = .oneResult share ∧ ∃ escrow method decryptedTruth response,
      calls.escrow = .oneResult escrow ∧ service.load escrow.methodName = some method ∧
      service.truthDecrypt before.truthKey escrow.encryptedTruth = some decryptedTruth ∧
      before.challengeResponse = some response ∧
      Earned service calls before.truthUuid codes decryptedTruth response method
  fair : ∀ escrow method, calls.escrow = .oneResult escrow →
    service.load escrow.methodName = some method → final.AnsweredWrong method →
    ∃ response, before.challengeResponse = some response ∧ ∀ decryptedTruth,
      service.truthDecrypt before.truthKey escrow.encryptedTruth = some decryptedTruth →
      ¬ RightAnswer service calls before.truthUuid codes decryptedTruth response method

theorem Answered.neutral {pre fin : GetContext}
    (neutral : ∀ reply, fin.connection = .replied reply → reply.Neutral) :
    Answered svc calls codes pre fin where
  released share replied := absurd rfl ((neutral _ replied).1 share)
  fair escrow method _ _ wrong := by
    rcases wrong with ⟨st, hint, replied⟩ | ⟨replied, _⟩
    · exact absurd rfl ((neutral _ replied).2.2 st hint)
    · exact absurd rfl (neutral _ replied).2.1

theorem Answered.plugin {pre fin : GetContext}
    (kept : fin.challengeResponse = pre.challengeResponse ∨ fin.challengeResponse = none)
    (replied : fin.connection = .replied .plugin) (fails : calls.process ≠ .finished) :
    Answered svc calls codes pre fin where
  released share shared := by
    rw [replied] at shared
    cases shared
  fair escrow method _ _ wrong := by
    rcases wrong with ⟨st, hint, y⟩ | ⟨_, told, auth, isPlugin, direct⟩
    · rw [replied] at y
      cases y
    rcases kept with eq | dropped
    · rw [eq] at told
      obtain ⟨resp, h⟩ := Option.ne_none_iff_exists'.mp told
      refine ⟨resp, h, ?_⟩
      intro truth _ right
      rw [isPlugin, RightAnswer, if_pos direct] at right
      exact fails right
    · exact absurd dropped told

/-- A plugin that goes on either replies or leaves the connection without a reply. -/
theorem runAuthorizationProcess_answered {turn : TruthTurn} {before : GetContext}
    (kept : turn.context.challengeResponse = before.challengeResponse ∨
      turn.context.challengeResponse = none) (active : turn.context.connection = .active) :
    Ensures (runAuthorizationProcess calls) turn
      (fun _ final => Answered service calls codes before final.context) (fun _ _ => True) := by
  have unreplied : ∀ {final : GetContext}, (∀ reply, final.connection ≠ .replied reply) →
      Answered service calls codes before final :=
    fun silent => .neutral fun reply replied => absurd replied (silent reply)
  unfold runAuthorizationProcess endAuthorization queueResponse hangUp
  simp only [ensures_bind, ensures_load, ensures_assert]
  split
  · cases result : calls.process with
    | success =>
      exact .plugin kept rfl (by simp [result])
    | failed =>
      simp only [beginRefund]
      split
      · simp only [ensures_bind, ensures_act, ensures_share, ensures_update]
        exact .plugin kept rfl (by simp [result])
      · simp only [ensures_bind, ensures_update]
        exact .plugin kept rfl (by simp [result])
    | suspended => exact unreplied (by simp)
    | successReplyFailed =>
      exact unreplied (by simp)
    | failedReplyFailed => exact unreplied (by simp)
    | finished =>
      have left : ∀ inList, Answered service calls codes before
          { turn.context with authorizing := false, inList := inList } := by
        intro inList
        apply unreplied
        intro reply replied
        rw [active] at replied
        cases replied
      dsimp only [leaveList]
      split
      · simp only [ensures_bind, ensures_satisfyCode, ensures_update]
        split
        · exact left false
        · exact left turn.context.inList
      simp only [ensures_bind, ensures_update]
      split
      · exact left false
      · exact left turn.context.inList
  · trivial

theorem startAuthorization_answered {turn : TruthTurn} {pre : GetContext}
    (kept : turn.context.challengeResponse = pre.challengeResponse ∨
      turn.context.challengeResponse = none) (active : turn.context.connection = .active) :
    Ensures (startAuthorization calls) turn
      (fun _ fin => Answered svc calls codes pre fin.context) (fun _ _ => True) := by
  unfold startAuthorization
  simp only [ensures_bind, ensures_load]
  refine startPlugin_ensures.mono ?_ fun _ _ _ => trivial
  rintro st _ ⟨codes, rfl⟩
  split
  · apply Answered.neutral
    intro reply replied
    cases replied
    exact .error (by simp)
  simp only [ensures_bind, ensures_update, ensures_load]
  split
  · simp only [ensures_bind, ensures_update, ensures_link, ensures_assert]
    split
    · exact runAuthorizationProcess_answered kept active
    · trivial
  simp only [ensures_bind, ensures_assert]
  split
  · exact runAuthorizationProcess_answered kept active
  · trivial

variable {escrow : EscrowChallenge} {decryptedTruth truth : Bytes} {before pre final fin : GetContext}

theorem Answered.judged {after : GetContext} (h : calls.escrow = .oneResult escrow)
    (loaded : svc.load escrow.methodName = some m)
    (decrypted : svc.truthDecrypt pre.truthKey escrow.encryptedTruth = some truth)
    (judged : Judged svc calls m truth codes pre after reply)
    (eq : fin.challengeResponse = after.challengeResponse)
    (replied : fin.connection = .replied reply) : Answered svc calls codes pre fin where
  released share shared := by
    have reply_eq : reply = .keyShare share :=
      ConnectionState.replied.inj (replied.symm.trans shared)
    obtain ⟨shared, resp, told, earned⟩ := judged.released share reply_eq
    exact ⟨shared, escrow, m, truth, resp, h, loaded, decrypted, told, earned⟩
  fair y method' got loaded' wrong := by
    rw [h] at got
    cases got
    rw [loaded] at loaded'
    cases loaded'
    rcases wrong with ⟨st, hint, wrong⟩ | ⟨silent, told, _⟩
    · have reply_eq := ConnectionState.replied.inj (replied.symm.trans wrong)
      obtain ⟨resp, told, refuted⟩ := judged.fair ⟨st, hint, reply_eq⟩
      refine ⟨resp, told, ?_⟩
      intro decryptedTruth' decrypted'
      rw [decrypted] at decrypted'
      cases decrypted'
      exact refuted
    · have reply_eq := ConnectionState.replied.inj (replied.symm.trans silent)
      rw [eq] at told
      exact absurd (judged.silent reply_eq) told

theorem directValidation_answered {turn : TruthTurn} (h : calls.escrow = .oneResult escrow)
    (loaded : service.load escrow.methodName = some (.plugin auth))
    (decrypted : service.truthDecrypt before.truthKey escrow.encryptedTruth = some truth)
    (direct : auth.userProvidedCode = true) (answered : before.challengeResponse = some resp)
    (kept : turn.context.challengeResponse = before.challengeResponse ∨
      turn.context.challengeResponse = none) : Ensures (directValidation calls) turn
      (fun _ final => Answered service calls codes before final.context) (fun _ _ => True) := by
  have unreplied : ∀ {final : GetContext}, (∀ reply, final.connection ≠ .replied reply) →
      Answered service calls codes before final :=
    fun silent => .neutral fun reply replied => absurd replied (silent reply)
  refine startPlugin_ensures.bind ?_
  rintro st _ ⟨marked, rfl⟩
  split
  · apply Answered.neutral
    intro reply replied
    cases replied
    exact .error (by simp)
  simp only [ensures_bind, ensures_update]
  cases result : calls.process with
  | success => exact .plugin kept rfl (by simp [result])
  | failed => exact .plugin kept rfl (by simp [result])
  | suspended => exact unreplied (by simp)
  | successReplyFailed => exact unreplied (by simp)
  | failedReplyFailed => exact unreplied (by simp)
  | finished =>
    have earned : Earned service calls before.truthUuid codes truth resp (.plugin auth) := by
      rw [Earned, if_pos direct]
      exact result
    exact .judged h loaded decrypted (.keyShare answered earned) rfl rfl

theorem challenge_decrypts {encryptedTruth : Bytes}
    (directly : (challenge svc calls ctx m encryptedTruth codes).1 = .validateDirectly) :
    ∃ decryptedTruth, svc.truthDecrypt ctx.truthKey encryptedTruth = some decryptedTruth := by
  cases decrypted : svc.truthDecrypt ctx.truthKey encryptedTruth with
  | none =>
    unfold challenge at directly
    split at directly
    · cases directly
    · next eq => exact absurd (decrypted.symm.trans eq) nofun
    · next eq => exact absurd (decrypted.symm.trans eq) nofun
  | some decryptedTruth => exact ⟨decryptedTruth, rfl⟩

theorem serveChallenge_answered {turn : TruthTurn} (h : calls.escrow = .oneResult escrow)
    (loaded : svc.load escrow.methodName = some m) (active : turn.context.connection = .active) :
    Ensures (serveChallenge svc calls m escrow.encryptedTruth) turn
      (fun _ fin => Answered svc calls turn.shared.codes turn.context fin.context)
      (fun _ _ => True) := by
  unfold serveChallenge
  simp only [ensures_bind, ensures_load, ensures_shared]
  have continues := @challenge_continues calls svc turn.context m escrow.encryptedTruth
    turn.shared.codes
  have follows := @challenge_follows svc calls turn.context m turn.shared.codes
    escrow.encryptedTruth
  have validates := @challenge_validates svc calls turn.context m turn.shared.codes
    escrow.encryptedTruth
  have decrypts := @challenge_decrypts svc calls turn.context m turn.shared.codes
    escrow.encryptedTruth
  have judges : ∀ reply after fin, challenge svc calls turn.context m
      escrow.encryptedTruth turn.shared.codes = (.reply reply, after, fin) → _ :=
    fun reply after fin => challenge_judged
  generalize challenge svc calls turn.context m escrow.encryptedTruth turn.shared.codes =
    res at continues follows validates decrypts judges ⊢
  obtain ⟨course, after, codes⟩ := res
  obtain ⟨code, kept, rfl⟩ := follows
  cases course with
  | reply reply =>
    rcases judges reply _ codes rfl with ⟨_, neutral⟩ | ⟨truth, decrypted, judged⟩
    · apply Answered.neutral
      intro y replied
      cases replied
      exact neutral
    · exact .judged h loaded decrypted judged rfl rfl
  | hangUp =>
    apply Answered.neutral
    rintro _ ⟨⟩
  | abort => trivial
  | validateDirectly =>
    obtain ⟨told, auth, rfl, direct⟩ := validates rfl
    obtain ⟨truth, decrypted⟩ := decrypts rfl
    obtain ⟨resp, told⟩ := Option.ne_none_iff_exists'.mp told
    exact directValidation_answered h loaded decrypted direct told continues.response
  | authorize => exact startAuthorization_answered continues.response active

theorem admission_refused {payments : ChallengePayments} {error : ErrorReply}
    (fails : admission calls ctx m payments = .refused error) :
    error.code ≠ .truthChallengeFailed := by
  unfold admission checkPaid at fails
  split at fails
  · split at fails
    · split at fails
      · cases fails
        simp
      · cases fails
      · split at fails <;> cases fails
    · cases fails
  · cases fails

theorem beginPayment_answered {turn : TruthTurn} : Ensures (beginPayment calls) turn
      (fun _ final => Answered service calls codes before final.context) (fun _ _ => True) := by
  have awaited : Ensures awaitMerchant { turn with shared := { turn.shared with
      actions := turn.shared.actions ++ [.paymentBegun turn.address] } }
      (fun _ mid => mid.context.connection = .suspended) (fun _ _ => True) := by
    unfold awaitMerchant
    simp only [ensures_bind, ensures_load, ensures_assert, ensures_update, ensures_link,
      ensures_suspendConnection]
    split
    · split <;> trivial
    · trivial
  have waits : ∀ {final : GetContext}, final.connection = .suspended →
      Answered service calls codes before final := by
    intro final suspended
    apply Answered.neutral
    intro reply replied
    rw [suspended] at replied
    cases replied
  unfold beginPayment
  simp only [ensures_bind, ensures_act, ensures_load, ensures_shared]
  split
  · apply Answered.neutral
    intro reply replied
    cases replied
    exact .error (by simp)
  · exact ensures_bind.mpr (awaited.mono (fun _ _ suspended => waits suspended) fun _ _ _ => trivial)
  refine ensures_bind.mpr (awaited.mono ?_ fun _ _ _ => trivial)
  intro _ mid suspended
  exact waits suspended

theorem continueTruthGet_answered {turn : TruthTurn} (active : turn.context.connection = .active) :
    Ensures (continueTruthGet svc calls) turn
      (fun _ final => Answered svc calls turn.shared.codes turn.context final.context)
      (fun _ _ => True) := by
  have refused : ∀ {error : ErrorReply}, error.code ≠ .truthChallengeFailed →
      ∀ {final : GetContext}, final.connection = .replied (.error error) →
        Answered svc calls turn.shared.codes turn.context final := by
    intro error y final replied
    apply Answered.neutral
    intro reply eq
    rw [replied] at eq
    cases eq
    exact .error y
  unfold continueTruthGet
  cases h : calls.escrow with
  | failed failure => exact refused (by simp) rfl
  | noResults => exact refused (by simp) rfl
  | oneResult escrow =>
    dsimp only
    cases loaded : svc.load escrow.methodName with
    | none =>
      exact refused (by simp) rfl
    | some m =>
      simp only [ensures_bind, ensures_update, ensures_load, ensures_shared]
      have r : ∀ actions, Ensures (serveChallenge svc calls m escrow.encryptedTruth) { turn with
            context := turn.context.withMethod svc m
            shared := { turn.shared with actions := actions } }
          (fun _ final => Answered svc calls turn.shared.codes turn.context final.context)
          (fun _ _ => True) := by
        intro actions
        have equipped : (turn.context.withMethod svc m).connection = .active := by
          rw [GetContext.withMethod_connection, active]
        refine (serveChallenge_answered h loaded equipped).mono ?_ fun _ _ _ => trivial
        intro _ final answered
        cases m <;> exact ⟨answered.released, answered.fair⟩
      cases admitted : admission calls (turn.context.withMethod svc m) m turn.shared.payments with
      | refused error => exact refused (admission_refused admitted) rfl
      | beginPayment => exact beginPayment_answered
      | free => exact r turn.shared.actions
      | paid pay =>
        exact r _

theorem truthGetAgain_answered {turn : TruthTurn} (active : turn.context.connection = .active)
    (pay : ∀ reply, turn.context.resp = some reply → reply.AboutPayment) :
    Ensures (truthGetAgain svc calls) turn
      (fun _ fin => Answered svc calls turn.shared.codes turn.context fin.context)
      (fun _ _ => True) := by
  unfold truthGetAgain
  simp only [ensures_bind, ensures_update, ensures_load]
  split
  · next reply waiting =>
    apply Answered.neutral
    intro y replied
    cases replied
    exact (pay reply waiting).neutral
  split
  · simp only [ensures_bind, ensures_assert]
    split
    · exact runAuthorizationProcess_answered (.inl rfl) active
    · trivial
  have answers := @continueTruthGet_answered svc calls
    { turn with context := { turn.context with suspended := false } } active
  refine answers.mono ?_ fun _ _ _ => trivial
  intro _ fin told
  exact ⟨told.released, told.fair⟩

theorem TruthRequest.setup_refused {req : TruthRequest} {now : Time} {error : ErrorReply}
    (fails : req.setup now = .error error) : error.code ≠ .truthChallengeFailed := by
  obtain ⟨uuid, payId, truthDecryptionKey, resp, timeoutMs⟩ := req
  cases payId <;> cases truthDecryptionKey <;> cases resp <;> cases timeoutMs <;>
    cases fails <;> simp

theorem truthGet_answered {req : TruthRequest} {turn : TruthTurn} :
    Ensures (truthGet svc req calls) turn
      (fun _ fin => (∃ error, req.setup calls.now = .error error ∧
          fin.context = { turn.context with connection := .replied (.error error) }) ∨
        ∃ context, req.setup calls.now = .ok context ∧ context.Continues fin.context ∧
          Answered svc calls turn.shared.codes context fin.context) (fun _ _ => True) := by
  unfold truthGet
  cases read : req.setup calls.now with
  | error error => exact .inl ⟨error, rfl, rfl⟩
  | ok context =>
    have active : context.connection = .active := by
      obtain ⟨payId, truthKey, challengeResponse, timeout, rfl⟩ := req.setup_eq read
      rfl
    have continues := @continueTruthGet_continues calls svc { turn with context := context }
    have told := @continueTruthGet_answered svc calls { turn with context := context } active
    refine (continues.and told).mono ?_ fun _ _ _ => trivial
    rintro _ fin ⟨continued, told⟩
    exact .inr ⟨context, rfl, continued.context, told⟩

end Anastasis.Server
