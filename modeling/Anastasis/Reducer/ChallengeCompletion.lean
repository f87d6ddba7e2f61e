import Anastasis.Client.HostileData
import Anastasis.Reducer.ChallengeReplies
import Mathlib.Data.List.TakeWhile

/-! An action of the recovery reducer calls back exactly once, and does not use its context
after that. -/

set_option autoImplicit false

namespace Anastasis.Reducer.Challenges

open Library Library.Transition Client List Option

variable (host : RecoveryHost)

/-! ## What an action promises -/

def SelectChallengeContext.Awaits (sctx : SelectChallengeContext) : Prop :=
  sctx.doAsync = true ∨ sctx.r.plo.isSome ∨ ∃ c ∈ sctx.r.cs, c.kslo.isSome

def Action.Pending (action : Action) : Prop :=
  action.tasks ≠ [] ∨ ∃ sctx, action.context = .live sctx ∧ sctx.Awaits

structure Completes (action : Action) : Prop where
  intact : ∀ fault, action.context ≠ .crashed fault
  once : action.calls.length ≤ 1
  called : ¬ action.Pending → action.calls.length = 1

/-! ## What the events have to be like -/

/-- A policy that is reached while a document is read has a master key. -/
def MasterKeysPresent (cs : List Challenge) (items : List Json) : Prop :=
  ∀ before dps after, items = before ++ dps :: after →
    (∀ earlier ∈ before, ∃ dp, deserializePolicy host.toHost cs earlier = .ok (some dp)) →
    ¬ (parseVarsize host.toHost dps "emk" = some [] ∧
      (parseFixed host.toHost 64 dps "salt").isSome ∧ (dps.member? "challenges").isSome)

/-- When the document is read, no challenge that cannot be parsed stands before another one, every
policy that is reached has a master key, and the name of the secret is there. -/
structure DocumentIntact (stack : Uninitialised) (rd : Json) : Prop where
  challenges : unsetChallenges host rd = false
  policies : ∀ secretName dpsArr csArr cs items,
    documentFields host rd = some (secretName, dpsArr, csArr) →
    parseCsArray host.toHost csArr = some cs → dpsArr.array? = some items →
    MasterKeysPresent host cs items
  named : ∀ dpsArr csArr, documentFields host rd = some (none, dpsArr, csArr) → stack ≠ .wild

/-- The keys of a policy that has just been completed are long enough, and a master key that is not
empty authenticates. -/
def KeysReadable (r : Recovery) (rdps : DecryptionPolicy) (keyShares : List KeyShare) : Prop :=
  24 + 16 ≤ rdps.emk.length ∧ 24 + 16 ≤ (r.encCoreSecret.getD []).length ∧
    (rdps.emk.length = 24 + 16 ∨ ∃ masterKey,
      Opens host.toHost (policyKeyDerive host.toHost keyShares rdps.salt).val rdps.emk
        (ascii "emk") masterKey)

/-- No report is scheduled yet, there is room for another solved challenge, the recovery can be
written, and the key share and the keys of a policy that it completes can be read. -/
structure SuccessCareful (sctx : SelectChallengeContext) (position : Nat) (c : Challenge)
    (eks : EncryptedKeyShare) : Prop where
  unreported : sctx.delayedReport = none
  room : sctx.r.solvedChallenges.length < sctx.r.cs.length
  idData : ∃ attributes, sctx.r.idData = .object attributes
  secret : sctx.r.encCoreSecret.isSome
  keyShare : ∃ keyShare : KeyShare,
    Opens host.toHost (userIdentifierDerive host.toHost sctx.r.idData c.providerSalt).val eks.val
        (c.answer.getD (ascii "eks")) keyShare.val ∧
      ∀ rdps, sctx.r.dps.find? (fun dps => satisfied (sctx.r.solvedChallenges ++ [position])
        dps.challenges) = some rdps →
          KeysReadable host sctx.r rdps (sharesWith sctx.r position keyShare rdps.challenges)

/-- Instructions in plain text are UTF-8, and those in JSON are an object. -/
def InstructionsCareful (body : Bytes) : Option String → Prop
  | none => True
  | some mime =>
    if mime.toLower = "text/plain" ∨ mime.toLower = "text/utf8" then
      (bodyText body).isSome = true
    else if mime.toLower = "application/json" then
      ∀ details, host.rejectDuplicates body = some details →
        ∃ members, details = .object members
    else True

/-- Malformed instructions for an external challenge come while something else is pending; the
details of others are an object, unless the document does not list their challenge. -/
def ExternalCareful (sctx : SelectChallengeContext) (position : Nat) (c : Challenge) (body : Json) :
    Prop :=
  match parseExternalInstructions body with
  | none => sctx.delayedReport.isSome ∨
      ∃ other c', other ≠ position ∧ sctx.r.cs[other]? = some c' ∧ c'.kslo.isSome
  | some instructions =>
    (instructions.isAsync = true → some c.uuid ∈ sctx.state.listed host.toHost) →
      ∃ members, instructions.details = .object members

def AnswerCareful (sctx : SelectChallengeContext) (position : Nat) (c : Challenge) :
    KeyShareDownloadDetails → Prop
  | .success eks => SuccessCareful host sctx position c eks
  | .invalidAnswer _ body contentType => InstructionsCareful host body contentType
  | .redirectForAuthentication redirectUrl => redirectUrl.isSome
  | .paymentRequired _ _ => (findChallengeInRi sctx.state c.uuid).isSome
  | .externalChallengeInstructions body => ExternalCareful host sctx position c body
  | _ => True

/-- A document that is downloaded can be read, and when it has the challenge to be solved, so
does the document of the state. -/
def DownloadCareful (sctx : SelectChallengeContext) (httpStatus : Nat)
    (dd : Option DownloadDetails) : Prop :=
  DownloadReadable host.toHost sctx.r httpStatus dd ∧
    ∀ r, Client.policyLookupCb host.toHost sctx.r httpStatus dd = .ok (.accepted r) →
      sctx.pc = .solveChallenge → sctx.pollOnly = false → sctx.uuid ∈ uuids r →
        some sctx.uuid ∈ sctx.state.listed host.toHost

def Careful (action : Action) : Event → Prop
  | .policyLookup httpStatus dd =>
    ∀ sctx, action.context = .live sctx → DownloadCareful host sctx httpStatus dd
  | .keyshareLookup position dd =>
    ∀ sctx c, action.context = .live sctx → sctx.r.cs[position]? = some c →
      AnswerCareful host sctx position c dd
  | _ => True

/-! ## Reading the document -/

section Documents

variable {host} {stack : Uninitialised} {rd : Json}

theorem deserializePolicy_isOk {cs : List Challenge} {dps : Json}
    (has : ¬ (parseVarsize host.toHost dps "emk" = some [] ∧
      (parseFixed host.toHost 64 dps "salt").isSome ∧ (dps.member? "challenges").isSome)) :
    ∃ read, deserializePolicy host.toHost cs dps = .ok read := by
  unfold deserializePolicy
  cases isKey : parseVarsize host.toHost dps "emk" with
  | none => exact ⟨none, rfl⟩
  | some emk =>
    cases isSalt : parseFixed host.toHost 64 dps "salt" with
    | none => exact ⟨none, rfl⟩
    | some salt =>
      cases isChallenges : dps.member? "challenges" with
      | none => exact ⟨none, rfl⟩
      | some challenges =>
        cases emk with
        | nil => exact absurd ⟨isKey, by rw [isSalt]; rfl, by rw [isChallenges]; rfl⟩ has
        | cons byte rest => exact ⟨_, rfl⟩

theorem parseDpsArray_isOk {cs : List Challenge} {dpsArr : Json}
    (has : ∀ items, dpsArr.array? = some items → MasterKeysPresent host cs items) :
    ∃ read, parseDpsArray host.toHost cs dpsArr = .ok read := by
  unfold parseDpsArray
  cases isArray : dpsArr.array? with
  | none => exact ⟨none, rfl⟩
  | some items =>
    apply collect_isOk_iff.mpr
    intro pre dps after shape old
    exact deserializePolicy_isOk (has items isArray pre dps after shape old)

theorem DocumentIntact.isOk (intact : DocumentIntact host stack rd) :
    ∃ read, recoveryDeserialize host.toHost stack rd = .ok read := by
  unfold recoveryDeserialize
  dsimp only
  split
  next => exact ⟨none, rfl⟩
  next parsed =>
    simp only [bind_eq_bind, bind_eq_some_iff, Option.pure_def, Option.some.injEq,
      Prod.mk.injEq] at parsed
    obtain ⟨id, isId, url, isUrl, secretName, isName, ver, isVersion, dpsArr, isDps, csArr,
      isCs, idData, isData, ecs, isSecret, cs, parsedCs, rfl, rfl, rfl, rfl, rfl, rfl, rfl,
      rfl⟩ := parsed
    have fields : documentFields host rd = some (secretName, dpsArr, csArr) := by
      simp only [documentFields, isId, isUrl, isName, isVersion, isDps, isCs, isData, isSecret,
        bind_eq_bind, bind_some, Option.pure_def]
    obtain ⟨read, isRead⟩ := @parseDpsArray_isOk host cs dpsArr
      fun items isArray => intact.policies _ _ _ cs items fields parsedCs isArray
    rw [isRead]
    cases read with
    | none => exact ⟨none, rfl⟩
    | some dps =>
      cases secretName with
      | some secretName => exact ⟨_, rfl⟩
      | none =>
        have harmless := intact.named _ _ fields
        cases stack with
        | null => exact ⟨_, rfl⟩
        | text v => exact ⟨_, rfl⟩
        | wild => exact absurd rfl harmless

theorem written_intact {r : Recovery} (written : recoverySerialize host.toHost r = .ok rd)
    (sealed : ∀ dp ∈ r.dps, dp.emk ≠ []) (named : r.secretName.isSome) :
    DocumentIntact host stack rd := by
  obtain ⟨dps, attrs, encCoreSecret, policies, _, _, rfl⟩ := recoverySerialize_eq_ok written
  obtain ⟨id, dpsArr, csArr, ver, idData, providerUrl, secretName, ecs⟩ :=
    member?_packRecovery host.toHost r dps (.object attrs)
      (.string (host.dataToString encCoreSecret))
  generalize packRecovery host.toHost r dps (.object attrs)
    (.string (host.dataToString encCoreSecret)) = rd at *
  have fields : documentFields host rd = some (r.secretName, .array dps,
      .array (r.cs.map (serializeChallenge host.toHost))) := by
    have parsedName : parseOptional Json.string? rd "secret_name" = some r.secretName := by
      rw [parseOptional, secretName]
      cases r.secretName
      · rfl
      · rfl
    simp [documentFields, parseFixed, parseString, parseVarsize, id, providerUrl, ecs, packData,
      Json.string?, host.stringToData_dataToString, host.stringToVarsize_dataToString, parsedName,
      parseUint32_packed ver, dpsArr, csArr, idData]
  constructor
  · unfold unsetChallenges
    rw [fields]
    have all : ((r.cs.map (serializeChallenge host.toHost)).dropWhile fun c =>
        (deserializeChallenge host.toHost c).isSome) = [] := by
      rw [dropWhile_eq_nil_iff]
      intro item mem
      obtain ⟨c, _, rfl⟩ := List.mem_map.mp mem
      rw [deserializeChallenge_serializeChallenge]
      rfl
    simp [Json.array?, all]
  · intro _ _ _ cs items isFields _ isItems pre json after shape _ empty
    rw [fields] at isFields
    cases isFields
    cases isItems
    have mem : json ∈ dps := by
      rw [shape]
      simp
    obtain ⟨dp, listed, packed⟩ := forall₂_mem_right (mapM_eq_ok_iff.mp policies) mem
    have isKey : parseVarsize host.toHost json "emk" = some dp.emk := by
      simp only [serializePolicy, bind, Except.bind] at packed
      split at packed
      next => cases packed
      next =>
        cases packed
        simp [packPolicy, parseVarsize, parseString, packObject, packData, packArray,
          Json.member?_ofFields, Json.string?, host.stringToVarsize_dataToString]
    exact sealed dp listed (Option.some.inj (isKey.symm.trans empty.1))
  · intro _ _ isFields
    rw [fields] at isFields
    have gone := (Prod.mk.inj (Option.some.inj isFields)).1
    rw [gone] at named
    cases named

end Documents

/-! ## Answers -/

section Answers

variable {host} {sctx now : SelectChallengeContext} {position pos : Nat} {c answered told : Challenge}

theorem packInstructions_isOk {httpStatus : Nat} {body : Bytes} {contentType : Option String}
    (careful : InstructionsCareful host body contentType) :
    ∃ instructions, packInstructions host httpStatus body contentType = .ok instructions := by
  unfold packInstructions
  unfold InstructionsCareful at careful
  cases contentType with
  | none => exact ⟨_, rfl⟩
  | some mime =>
    dsimp only at careful ⊢
    split
    next isText =>
      rw [if_pos isText] at careful
      obtain ⟨hint, isHint⟩ := isSome_iff_exists.mp careful
      rw [isHint]
      exact ⟨_, rfl⟩
    next notText =>
      rw [if_neg notText] at careful
      split
      next isJson =>
        rw [if_pos isJson] at careful
        cases loaded : host.rejectDuplicates body with
        | none => exact ⟨_, rfl⟩
        | some dt =>
          obtain ⟨members, rfl⟩ := careful dt loaded
          exact ⟨_, rfl⟩
      next => exact ⟨_, rfl⟩

theorem externalFeedback_isOk {body : Json} (careful : ExternalCareful host sctx pos c body)
    (sameState : now.state = sctx.state) (sameUuid : told.uuid = c.uuid) :
    ∃ reply, externalFeedback host now told body = .ok reply := by
  unfold ExternalCareful at careful
  unfold externalFeedback
  cases parsed : parseExternalInstructions body with
  | none => exact ⟨_, rfl⟩
  | some instructions =>
    rw [parsed] at careful
    dsimp only at careful ⊢
    rw [sameState, sameUuid]
    have replies : (instructions.isAsync = true → some c.uuid ∈ sctx.state.listed host.toHost) →
        ∃ reply, externalReply instructions = .ok reply := by
      intro mem
      obtain ⟨members, isObject⟩ := careful mem
      rw [externalReply, isObject]
      exact ⟨_, rfl⟩
    split
    next => exact ⟨_, rfl⟩
    next marked isMarked =>
      obtain ⟨reply, isReply⟩ := replies fun isAsync => by
        rw [if_pos isAsync] at isMarked
        obtain ⟨e, h, _⟩ := map_eq_some_iff.mp isMarked
        rw [← findChallengeInCs_isSome_iff, h]
        rfl
      rw [isReply]
      exact ⟨_, rfl⟩

theorem answerFeedbackCb_isOk {dd : KeyShareDownloadDetails}
    (careful : AnswerCareful host sctx pos c dd) (unsuccessful : ∀ eks, dd ≠ .success eks)
    (sameState : now.state = sctx.state) (sameUuid : answered.uuid = c.uuid) :
    ∃ reply, answerFeedbackCb host now answered (feedback dd) = .ok reply := by
  cases dd with
  | success eks => exact absurd rfl (unsuccessful eks)
  | paymentRequired talerPayUri paymentSecret =>
    have got : (findChallengeInRi sctx.state c.uuid).isSome := careful
    obtain ⟨entry, isEntry⟩ := isSome_iff_exists.mp got
    have same : findChallengeInRi (now.setFeedback host answered (packState "payment"
        [("taler_pay_uri", packString talerPayUri), ("provider", packString answered.url),
          ("payment_secret", packData host.toHost paymentSecret.val)])).state answered.uuid =
        some entry := by
      rw [sameUuid, ← isEntry, ← sameState]
      rfl
    simp only [feedback, answerFeedbackCb, paymentFeedback, same]
    exact ⟨_, rfl⟩
  | invalidAnswer httpStatus body contentType =>
    obtain ⟨instructions, isInstructions⟩ := @packInstructions_isOk host httpStatus _ _ careful
    simp only [feedback, answerFeedbackCb, isInstructions]
    exact ⟨_, rfl⟩
  | redirectForAuthentication redirectUrl =>
    cases redirectUrl with
    | none => cases careful
    | some redirectUrl => exact ⟨_, rfl⟩
  | externalChallengeInstructions body => exact externalFeedback_isOk careful sameState sameUuid
  | _ => exact ⟨_, rfl⟩

theorem recoverCoreSecret_isOk {r : Recovery} {rdps : DecryptionPolicy} {keyShares : List KeyShare}
    (shares : rdps.challenges.mapM (solvedKeyShare r) = .ok keyShares)
    (readable : KeysReadable host r rdps keyShares) :
    ∃ report, recoverCoreSecret host.toHost r rdps = .ok report := by
  obtain ⟨masterLong, coreLong, opens⟩ := readable
  have has : rdps.emk.isEmpty = false := by
    apply isEmpty_eq_false_iff.mpr
    intro empty
    rw [empty, length_nil] at masterLong
    omega
  have short : ¬ (r.encCoreSecret.getD []).length < 24 + 16 := Nat.not_lt.mpr coreLong
  have buffer : ∃ masterKey, readBuffer ((envelope host.toHost).decrypt
      (policyKeyDerive host.toHost keyShares rdps.salt).val rdps.emk (ascii "emk"))
      (rdps.emk.length - (24 + 16)) = .ok masterKey := by
    cases opened : (envelope host.toHost).decrypt
        (policyKeyDerive host.toHost keyShares rdps.salt).val rdps.emk (ascii "emk") with
    | some masterKey => exact ⟨masterKey, rfl⟩
    | none =>
      cases opens with
      | inl bare =>
        rw [bare]
        exact ⟨[], rfl⟩
      | inr opens =>
        obtain ⟨masterKey, opens⟩ := opens
        rw [Opens, opened] at opens
        cases opens
  obtain ⟨masterKey, isMaster⟩ := buffer
  unfold recoverCoreSecret
  rw [shares]
  simp only [bind, Except.bind, has, Bool.false_eq_true, if_false, coreSecretRecover,
    anastasisDecrypt_eq host.toHost masterLong, short, isMaster,
    anastasisDecrypt_eq host.toHost coreLong, pure, Except.pure]
  exact ⟨_, rfl⟩

end Answers

/-! ## The invariant -/

/-- An action that has not called back: what it waits for, and what it has scheduled. -/
structure Waiting (action : Action) (sctx : SelectChallengeContext) : Prop where
  current : action.context = .live sctx
  silent : action.calls = []
  scheduled : action.tasks = sctx.delayedReport.toList
  pending : sctx.Awaits ∨ sctx.delayedReport.isSome
  policies : ∀ dp ∈ sctx.r.dps, dp.emk ≠ [] ∧ ∀ position ∈ dp.challenges,
    position < sctx.r.cs.length
  early : sctx.doAsync = true ∨ sctx.r.plo.isSome → sctx.delayedReport = none ∧ ¬ sctx.Looking
  exclusive : sctx.doAsync = true → sctx.r.plo = none
  listed : sctx.doAsync = true → sctx.state.listed host.toHost = (uuids sctx.r).map some

/-- After a poll that had nothing to resume, the context is left. -/
inductive Settled (action : Action) : Prop where
  | waiting {sctx : SelectChallengeContext} (waits : Waiting host action sctx) : Settled action
  | left {sctx : SelectChallengeContext} (current : action.context = .live sctx)
      (idle : ¬ sctx.Awaits) (unscheduled : action.tasks = []) (called : action.calls.length = 1) :
      Settled action
  | freed (current : action.context = .freed) (unscheduled : action.tasks = [])
      (called : action.calls.length = 1) : Settled action

section Steps

variable {host} {action next : Action} {sctx : SelectChallengeContext}

theorem Settled.completes (met : Settled host action) : Completes action := by
  cases met with
  | waiting waits =>
    constructor
    · intro fault crashed
      rw [waits.current] at crashed
      cases crashed
    · rw [waits.silent]
      exact Nat.zero_le 1
    intro ends
    cases waits.pending with
    | inl awaits => exact absurd (.inr ⟨_, waits.current, awaits⟩) ends
    | inr reports =>
      apply absurd (Or.inl _) ends
      rw [waits.scheduled]
      obtain ⟨task, isTask⟩ := isSome_iff_exists.mp reports
      simp [isTask]
  | left cur idle unscheduled called =>
    constructor
    · intro fault crashed
      rw [cur] at crashed
      cases crashed
    · exact called.le
    · exact fun _ => called
  | freed cur unscheduled called =>
    constructor
    · intro fault crashed
      rw [cur] at crashed
      cases crashed
    · exact called.le
    · exact fun _ => called

/-- A context that is freed leaves no report behind when it knows of the only one. -/
theorem finish_settled (cur : action.context = .live sctx)
    (scheduled : action.tasks = sctx.delayedReport.toList) (silent : action.calls = [])
    (out : Outcome) : Settled host (action.apply (.ok (.finish out))) := by
  apply Settled.freed
  · rfl
  · change action.remaining = []
    unfold Action.remaining
    rw [cur, scheduled]
    cases told : sctx.delayedReport with
    | none => rfl
    | some task => simp [told]
  change (action.calls ++ [out]).length = 1
  rw [silent]
  rfl

theorem handed_settled {before : SelectChallengeContext} {reply : Except Fault Reply}
    (current : action.context = .live before) (silent : action.calls = [])
    (unscheduled : action.tasks = []) (unreported : before.delayedReport = none)
    (noReport : sctx.delayedReport = none) (handedOver : sctx.doAsync = false)
    (downloaded : sctx.r.plo = none) (idle : ¬ sctx.Looking)
    (policies : ∀ dp ∈ sctx.r.dps, dp.emk ≠ [] ∧ ∀ pos ∈ dp.challenges, pos < sctx.r.cs.length)
    (mem : sctx.pc = .solveChallenge → sctx.pollOnly = false → sctx.uuid ∈ uuids sctx.r →
      some sctx.uuid ∈ sctx.state.listed host.toHost)
    (handed : Handed host sctx reply) : Settled host (action.apply reply) := by
  have finished : ∀ outcome, Settled host (action.apply (.ok (.finish outcome))) := by
    apply finish_settled current _ silent
    rw [unscheduled, unreported]
    rfl
  cases handed with
  | failed => exact finished _
  | selected => exact finished _
  | @await st eq _ looking =>
    have sameLength : st.r.cs.length = sctx.r.cs.length := by
      rw [← length_map mark, eq.marks, length_map]
    have isHanded : st.doAsync = false := eq.doAsync.trans handedOver
    apply @Settled.waiting _ _ st
    constructor
    · rfl
    · exact silent
    · rw [eq.delayedReport, noReport]
      exact unscheduled
    · exact .inl (.inr (.inr looking))
    · rw [eq.dps, sameLength]
      exact policies
    · intro early
      rw [isHanded, eq.plo, downloaded] at early
      simp at early
    · intro early
      rw [isHanded] at early
      cases early
    intro early
    rw [isHanded] at early
    cases early
  | fault fault solving asked has unlisted => exact absurd (mem solving asked has) unlisted
  | @idle outcome =>
    apply @Settled.left _ _ sctx
    · rfl
    · intro awaits
      unfold SelectChallengeContext.Awaits at awaits
      rw [handedOver, downloaded] at awaits
      simp only [Bool.false_eq_true, isSome_none, false_or] at awaits
      exact idle awaits
    · exact unscheduled
    change (action.calls ++ [outcome]).length = 1
    rw [silent]
    rfl

theorem begin_settled {stack : Uninitialised} {st : RecoveryState} {command : Command}
    (intact : ∀ req rd, command.request host st = .ok req →
      st.recoveryDocument = some rd → DocumentIntact host stack rd) :
    Settled host (Action.begin host stack st command) := by
  unfold Action.begin
  split
  next => exact .freed rfl rfl rfl
  next req isRequest =>
    unfold Action.start
    split
    next => exact .freed rfl rfl rfl
    next rd isDocument =>
      have whole := intact req rd isRequest isDocument
      obtain ⟨read, isRead⟩ := whole.isOk
      rw [isRead]
      cases read with
      | none =>
        rw [whole.challenges]
        exact .freed rfl rfl rfl
      | some r =>
        have readFrom := recoveryDeserialize_readFrom isRead
        have idle : ∀ c ∈ r.cs, c.kslo = none := by
          intro c mem
          obtain ⟨item, _, parsed⟩ := forall₂_mem_right readFrom.items mem
          exact (deserializeChallenge_fields parsed).2.2.1
        refine .waiting ⟨rfl, rfl, rfl, .inl ?_, readFrom.policies, ?_, ?_, ?_⟩
        · cases empty : r.dps.isEmpty with
          | false => exact .inl (by simp)
          | true => exact .inr (.inl (by rw [readFrom.lookup, empty]))
        · intro _
          refine ⟨rfl, fun looking => ?_⟩
          obtain ⟨c, mem, runs⟩ := looking
          rw [idle c mem] at runs
          cases runs
        · intro handing
          have nonempty : r.dps.isEmpty = false := by simpa using handing
          have nothing : r.plo.isSome = false := readFrom.lookup.trans nonempty
          exact not_isSome_iff_eq_none.mp (Bool.eq_false_iff.mp nothing)
        · exact fun _ => readFrom.listed isDocument

theorem policyLookupCb_settled (waits : Waiting host action sctx) {httpStatus : Nat}
    {dd : Option DownloadDetails} (loading : sctx.r.plo.isSome)
    (careful : DownloadCareful host sctx httpStatus dd) :
    Settled host (action.policyLookupCb host sctx httpStatus dd) := by
  obtain ⟨readable, listed⟩ := careful
  obtain ⟨⟨lookup, looked⟩, harmless⟩ := (downloadReadable_iff host.toHost).mp readable
  obtain ⟨unreported, idle⟩ := waits.early (.inr loading)
  unfold Action.policyLookupCb
  rw [looked]
  cases lookup with
  | rejected status =>
    dsimp only
    rw [harmless]
    exact finish_settled waits.current waits.scheduled waits.silent _
  | accepted r =>
    have fresh := policyLookupCb_fresh host.toHost looked
    have handedOver : sctx.doAsync = false := by
      apply Bool.eq_false_iff.mpr
      intro handing
      rw [waits.exclusive handing] at loading
      cases loading
    have unscheduled : action.tasks = [] := by
      rw [waits.scheduled, unreported]
      rfl
    apply @handed_settled host action { sctx with r := forgetSolved sctx.r r } sctx _
      waits.current waits.silent unscheduled unreported unreported handedOver fresh.downloaded
    · intro looking
      obtain ⟨c, mem, runs⟩ := looking
      rw [(fresh.fresh c mem).2] at runs
      cases runs
    · exact (policyLookupCb_policies host.toHost looked).2
    · exact listed r looked
    · exact policyCallback_handed _

theorem runAsyncPc_settled (waits : Waiting host action sctx) (handing : sctx.doAsync = true) :
    Settled host (action.apply (policyCallback host.toHost { sctx with doAsync := false })) := by
  obtain ⟨unreported, idle⟩ := waits.early (.inl handing)
  have unscheduled : action.tasks = [] := by
    rw [waits.scheduled, unreported]
    rfl
  apply @handed_settled host action { sctx with doAsync := false } sctx _ waits.current
    waits.silent unscheduled unreported unreported rfl (waits.exclusive handing) idle waits.policies
  · intro _ _ mem
    change some sctx.uuid ∈ sctx.state.listed host.toHost
    rw [waits.listed handing]
    exact List.mem_map_of_mem mem
  · exact policyCallback_handed _

theorem unsolved_settled (waits : Waiting host action sctx) {position : Nat} {c : Challenge}
    {dd : KeyShareDownloadDetails} (h : sctx.r.cs[position]? = some c)
    (runs : c.kslo.isSome) (careful : AnswerCareful host sctx position c dd)
    (unsuccessful : ∀ eks, dd ≠ .success eks) :
    Settled host (action.keyshareLookupCb host sctx position c dd) := by
  have looking : sctx.Looking := ⟨c, mem_of_getElem? h, runs⟩
  have settledDown : ¬ (sctx.doAsync = true ∨ sctx.r.plo.isSome) :=
    fun early => (waits.early early).2 looking
  obtain ⟨reply, isReply⟩ := @answerFeedbackCb_isOk host sctx
    (sctx.setChallenge position (returned c dd)) position c (returned c dd) dd careful unsuccessful
    rfl rfl
  have replies := @answerFeedbackCb_replies host (sctx.setChallenge position (returned c dd))
    (returned c dd) dd unsuccessful
  rw [keyshareLookupCb_unsuccessful unsuccessful]
  rw [isReply] at replies ⊢
  cases replies with
  | malformed isBody malformed feedback =>
    have later : sctx.delayedReport.isSome ∨
        ∃ y c', y ≠ position ∧ sctx.r.cs[y]? = some c' ∧ c'.kslo.isSome := by
      rw [isBody] at careful
      have fine : ExternalCareful host sctx position c _ := careful
      unfold ExternalCareful at fine
      rw [malformed] at fine
      exact fine
    refine .waiting ⟨rfl, waits.silent, waits.scheduled, ?_, ?_, ?_, ?_, ?_⟩
    · cases later with
      | inl reports => exact .inr reports
      | inr elsewhere =>
        obtain ⟨y, c', ne, present, lookup⟩ := elsewhere
        refine .inl (.inr (.inr ⟨c', ?_, lookup⟩))
        apply mem_of_getElem?
        exact (getElem?_set_ne ne.symm).trans present
    · intro dp mem
      refine ⟨(waits.policies dp mem).1, fun place listed => ?_⟩
      exact ((waits.policies dp mem).2 place listed).trans_eq length_set.symm
    · exact fun early => absurd early settledDown
    · exact fun early => absurd (Or.inl early) settledDown
    · exact fun early => absurd (Or.inl early) settledDown
  | _ => exact finish_settled waits.current waits.scheduled waits.silent _

theorem solveChallenge_isOk {pos : Nat} {c : Challenge} {eks : EncryptedKeyShare}
    (careful : SuccessCareful host sctx pos c eks) :
    ∃ keyShare, Client.solveChallenge host.toHost sctx.r pos c eks =
        .ok (solvedWith sctx.r pos c keyShare) ∧
      ∀ rdps, sctx.r.dps.find? (fun dps => satisfied (sctx.r.solvedChallenges ++ [pos])
        dps.challenges) = some rdps →
          KeysReadable host sctx.r rdps (sharesWith sctx.r pos keyShare rdps.challenges) := by
  obtain ⟨keyShare, opens, keys⟩ := careful.keyShare
  refine ⟨keyShare, ?_, keys⟩
  have opened := (keyshareDecrypt_eq_ok_iff host.toHost).mpr opens
  simp only [Client.solveChallenge, opened, careful.room, if_true, bind, Except.bind, pure,
    Except.pure, solvedWith]

theorem coreSecretCb_finishes (sctx : SelectChallengeContext) (report : CoreSecretReport) :
    ∃ outcome, coreSecretCb host sctx report = .finish outcome := by
  unfold coreSecretCb
  split
  next => exact ⟨_, rfl⟩
  next =>
    split
    next => exact ⟨_, rfl⟩
    next => exact ⟨_, rfl⟩

/-- A core secret that is recovered ends the action, together with the report it has scheduled. -/
theorem checkPolicies_settled (waits : Waiting host action sctx)
    (recovers : ∀ rdps, sctx.r.dps.find? (fun dps =>
      satisfied sctx.r.solvedChallenges dps.challenges) = some rdps →
        ∃ report, recoverCoreSecret host.toHost sctx.r rdps = .ok report) :
    Settled host (action.checkPolicies host) := by
  unfold Action.checkPolicies
  rw [waits.current]
  dsimp only
  split
  next => exact .waiting waits
  next rdps search =>
    obtain ⟨report, recovered⟩ := recovers rdps search
    obtain ⟨out, ends⟩ := @coreSecretCb_finishes host sctx report
    rw [recovered]
    dsimp only
    rw [ends]
    exact finish_settled waits.current waits.scheduled waits.silent out

/-- A challenge that is solved is reported soon, unless the core secret is reported at once. -/
theorem success_settled (waits : Waiting host action sctx) {pos : Nat} {c : Challenge}
    {eks : EncryptedKeyShare} (h : sctx.r.cs[pos]? = some c) (runs : c.kslo.isSome)
    (careful : SuccessCareful host sctx pos c eks) :
    Settled host (action.keyshareLookupCb host sctx pos c (.success eks)) := by
  obtain ⟨keyShare, solved, keys⟩ := solveChallenge_isOk careful
  obtain ⟨attrs, isObject⟩ := careful.idData
  have settledDown : ¬ (sctx.doAsync = true ∨ sctx.r.plo.isSome) :=
    fun early => (waits.early early).2 ⟨c, mem_of_getElem? h, runs⟩
  have unscheduled : action.tasks = [] := by
    rw [waits.scheduled, careful.unreported]
    rfl
  have policies : ∀ dp ∈ sctx.r.dps, dp.emk ≠ [] ∧ ∀ place ∈ dp.challenges,
      place < (solvedWith sctx.r pos c keyShare).cs.length := by
    intro dp mem
    refine ⟨(waits.policies dp mem).1, fun place listed => ?_⟩
    exact ((waits.policies dp mem).2 place listed).trans_eq length_set.symm
  obtain ⟨rd, written⟩ := @recoverySerialize_isOk host.toHost
    (solvedWith sctx.r pos c keyShare) attrs (fun dp mem => (policies dp mem).2)
    isObject careful.secret
  simp only [Action.keyshareLookupCb, solved, answerFeedbackCb, solvedFeedback, written]
  refine checkPolicies_settled ⟨rfl, waits.silent, ?_, .inr rfl, policies, ?_, ?_, ?_⟩ ?_
  · change action.tasks ++ [action.nextTask] = [action.nextTask]
    rw [unscheduled, nil_append]
  · exact fun early => absurd early settledDown
  · exact fun early => absurd (Or.inl early) settledDown
  · exact fun early => absurd (Or.inl early) settledDown
  intro rdps search
  have complete := find?_some search
  have listed := mem_of_find?_eq_some search
  have shares := @mapM_solvedKeyShare sctx.r pos c keyShare rdps.challenges h
    (waits.policies rdps listed).2 complete
  exact @recoverCoreSecret_isOk host (solvedWith sctx.r pos c keyShare) rdps _ shares
    (keys rdps search)

theorem reportSolved_settled (waits : Waiting host action sctx) {task : Nat}
    (scheduled : task ∈ action.tasks) : Settled host (action.reportSolved task) := by
  have has : sctx.delayedReport = some task := by
    rw [waits.scheduled] at scheduled
    exact mem_toList.mp scheduled
  have unscheduled : action.tasks.filter (· ≠ task) = [] := by
    rw [waits.scheduled, has]
    simp
  unfold Action.reportSolved
  rw [waits.current]
  apply @finish_settled host _ { sctx with delayedReport := none }
  · rfl
  · exact unscheduled
  · exact waits.silent

theorem Settled.overrun (met : Settled host action) (called : action.calls ≠ []) {ev : Event}
    (step : Delivers host action ev next) : False := by
  cases met with
  | waiting waits => exact called waits.silent
  | left current idle unscheduled _ =>
    cases step.delivered with
    | handed current' handing =>
      cases current.symm.trans current'
      exact idle (.inl handing)
    | downloaded current' loading =>
      cases current.symm.trans current'
      exact idle (.inr (.inl loading))
    | answered current' h runs =>
      cases current.symm.trans current'
      exact idle (.inr (.inr ⟨_, mem_of_getElem? h, runs⟩))
    | reported _ scheduled =>
      rw [unscheduled] at scheduled
      cases scheduled
  | freed current unscheduled _ =>
    cases step.delivered with
    | handed current' _ => cases current.symm.trans current'
    | downloaded current' _ => cases current.symm.trans current'
    | answered current' _ _ => cases current.symm.trans current'
    | reported _ scheduled =>
      rw [unscheduled] at scheduled
      cases scheduled

theorem deliver_settled {ev : Event} (met : Settled host action)
    (careful : Careful host action ev) (step : Delivers host action ev next) :
    Settled host next := by
  by_cases called : action.calls = []
  · cases met with
    | waiting waits =>
      cases step.delivered with
      | handed current handing =>
        cases waits.current.symm.trans current
        exact runAsyncPc_settled waits handing
      | downloaded current loading =>
        cases waits.current.symm.trans current
        exact policyLookupCb_settled waits loading (careful _ current)
      | @answered _ pos c dd current h runs =>
        cases waits.current.symm.trans current
        have answered := careful _ c current h
        cases dd with
        | success eks => exact success_settled waits h runs answered
        | _ => exact unsolved_settled waits h runs answered (by simp)
      | reported _ scheduled => exact reportSolved_settled waits scheduled
    | left _ _ _ once => simp [called] at once
    | freed _ _ once => simp [called] at once
  · exact absurd step fun step => met.overrun called step

end Steps

/-! ## The end of an action -/

def SelectChallengeContext.handovers (sctx : SelectChallengeContext) : Nat :=
  (if sctx.doAsync then 1 else 0) + if sctx.r.plo.isSome then 1 else 0

def Action.measure (action : Action) : Nat × Nat :=
  match action.context with
  | .live sctx =>
    (sctx.handovers,
      2 * sctx.r.cs.countP (fun c => c.kslo.isSome) + action.tasks.length)
  | _ => (0, action.tasks.length)

section Ending

variable {host} {action next : Action} {sctx : SelectChallengeContext}

theorem remaining_length : action.remaining.length ≤ action.tasks.length := by
  unfold Action.remaining
  split
  next => exact length_filter_le _ _
  next => exact le_rfl

/-- Fewer policies have to be handed over, or as many and there is less to wait for. -/
def Shrinks (next action : Action) : Prop :=
  next.measure.1 < action.measure.1 ∨
    next.measure.1 = action.measure.1 ∧ next.measure.2 < action.measure.2

theorem shrinks_wellFounded : WellFounded Shrinks := by
  have ordered : Shrinks = InvImage (Prod.Lex (· < ·) (· < ·)) Action.measure := by
    funext next action
    exact propext (Prod.lex_def).symm
  rw [ordered]
  exact InvImage.wf _ (WellFounded.prod_lex wellFounded_lt wellFounded_lt)

theorem measure_live (cur : action.context = .live sctx) : action.measure = (sctx.handovers,
      2 * sctx.r.cs.countP (fun c => c.kslo.isSome) + action.tasks.length) := by
  unfold Action.measure
  rw [cur]

theorem lookups_set {cs : List Challenge} {pos : Nat} {c replacement : Challenge}
    (h : cs[pos]? = some c) (runs : c.kslo.isSome) (idle : replacement.kslo = none) :
    (cs.set pos replacement).countP (fun c => c.kslo.isSome) + 1 =
      cs.countP fun c => c.kslo.isSome := by
  obtain ⟨mem, rfl⟩ := List.getElem?_eq_some_iff.mp h
  have positive : 0 < cs.countP fun c => c.kslo.isSome :=
    countP_pos_iff.mpr ⟨_, getElem_mem mem, runs⟩
  rw [countP_set mem, idle, if_pos runs]
  simp only [isSome_none, Bool.false_eq_true, if_false]
  omega

theorem handed_shrinks {before : SelectChallengeContext}
    (current : action.context = .live before) (fewer : sctx.handovers < before.handovers)
    {reply : Except Fault Reply} (handed : Handed host sctx reply) :
    Shrinks (action.apply reply) action := by
  apply Or.inl
  rw [measure_live current]
  cases handed with
  | failed => exact Nat.zero_lt_of_lt fewer
  | selected => exact Nat.zero_lt_of_lt fewer
  | fault => exact Nat.zero_lt_of_lt fewer
  | idle => exact fewer
  | @await st eq _ _ =>
    change st.handovers < before.handovers
    unfold SelectChallengeContext.handovers at *
    rw [eq.doAsync, eq.plo]
    exact fewer

theorem over_shrinks (cur : action.context = .live sctx)
    (ended : ∀ sctx, next.context ≠ .live sctx) (fewer : next.tasks.length <
      2 * sctx.r.cs.countP (fun c => c.kslo.isSome) + action.tasks.length) :
    Shrinks next action := by
  have measured : next.measure = (0, next.tasks.length) := by
    unfold Action.measure
    split
    next sctx alive => exact absurd alive (ended sctx)
    next => rfl
  unfold Shrinks
  rw [measured, measure_live cur]
  omega

theorem checkPolicies_shrinks (cur : next.context = .live sctx)
    {pre : SelectChallengeContext} (live : action.context = .live pre)
    (eq : sctx.handovers = pre.handovers)
    (fewer : 2 * sctx.r.cs.countP (fun c => c.kslo.isSome) + next.tasks.length <
      2 * pre.r.cs.countP (fun c => c.kslo.isSome) + action.tasks.length) :
    Shrinks (next.checkPolicies host) action := by
  unfold Action.checkPolicies
  rw [cur]
  dsimp only
  split
  next =>
    apply Or.inr
    rw [measure_live cur, measure_live live]
    exact ⟨eq, fewer⟩
  next rdps _ =>
    split
    next fault _ =>
      apply over_shrinks live
      · intro sctx alive
        cases alive
      · change next.tasks.length < _
        omega
    next report _ =>
      obtain ⟨out, ends⟩ := @coreSecretCb_finishes host sctx report
      rw [ends]
      apply over_shrinks live
      · intro sctx alive
        cases alive
      have shorter := @remaining_length next
      change next.remaining.length < _
      omega

theorem keyshareLookupCb_shrinks (current : action.context = .live sctx) {pos : Nat}
    {c : Challenge} (h : sctx.r.cs[pos]? = some c) (runs : c.kslo.isSome)
    (dd : KeyShareDownloadDetails) :
    Shrinks (action.keyshareLookupCb host sctx pos c dd) action := by
  have positive : 0 < sctx.r.cs.countP fun c => c.kslo.isSome :=
    countP_pos_iff.mpr ⟨c, mem_of_getElem? h, runs⟩
  have crashes : ∀ fault, Shrinks (action.crash fault) action := by
    intro fault
    apply over_shrinks current
    · intro sctx alive
      cases alive
    · change action.tasks.length < _
      omega
  by_cases ran : ∃ eks, dd = .success eks
  · obtain ⟨eks, rfl⟩ := ran
    simp only [Action.keyshareLookupCb]
    split
    next fault _ => exact crashes fault
    next r solved =>
      obtain ⟨keyShare, rfl⟩ := solveChallenge_solved solved
      have fewer := @lookups_set _ _ c
        { c with kslo := none, keyShare := keyShare, solved := true } h runs rfl
      simp only [answerFeedbackCb, solvedFeedback]
      split
      next fault _ => exact crashes fault
      next rd _ =>
        refine checkPolicies_shrinks rfl current rfl ?_
        change 2 * (sctx.r.cs.set pos
          { c with kslo := none, keyShare := keyShare, solved := true }).countP
            (fun c => c.kslo.isSome) + (action.tasks ++ [action.nextTask]).length < _
        rw [length_append, length_singleton]
        omega
  · have unsuccessful : ∀ eks, dd ≠ .success eks := fun eks eq => ran ⟨eks, eq⟩
    have replies := @answerFeedbackCb_replies host (sctx.setChallenge pos (returned c dd))
      (returned c dd) dd unsuccessful
    rw [keyshareLookupCb_unsuccessful unsuccessful]
    generalize answerFeedbackCb host (sctx.setChallenge pos (returned c dd)) (returned c dd)
      (feedback dd) = reply at replies
    cases replies with
    | fault fault => exact crashes fault
    | malformed _ _ feedback =>
      have fewer := @lookups_set _ _ c (returned c dd) h runs rfl
      apply Or.inr
      rw [measure_live current]
      refine ⟨rfl, ?_⟩
      change 2 * (sctx.r.cs.set pos (returned c dd)).countP (fun c => c.kslo.isSome) +
        action.tasks.length < _
      omega
    | _ =>
      apply over_shrinks current
      · intro sctx alive
        cases alive
      have shorter := @remaining_length action
      change action.remaining.length < _
      omega

theorem policyLookupCb_shrinks (cur : action.context = .live sctx)
    (loading : sctx.r.plo.isSome) (httpStatus : Nat) (dd : Option DownloadDetails) :
    Shrinks (action.policyLookupCb host sctx httpStatus dd) action := by
  have waits : 0 < sctx.handovers := by
    unfold SelectChallengeContext.handovers
    rw [if_pos loading]
    exact Nat.succ_pos _
  unfold Action.policyLookupCb
  split
  next fault _ => exact .inl (by rw [measure_live cur]; exact waits)
  next st _ =>
    split
    next => exact .inl (by rw [measure_live cur]; exact waits)
    next => exact .inl (by rw [measure_live cur]; exact waits)
  next r looked =>
    apply handed_shrinks cur _ (policyCallback_handed _)
    have downloaded : (forgetSolved sctx.r r).plo = none :=
      (policyLookupCb_fresh host.toHost looked).downloaded
    unfold SelectChallengeContext.handovers
    rw [if_pos loading, downloaded]
    exact Nat.lt_succ_self _

theorem reportSolved_shrinks {task : Nat} (scheduled : task ∈ action.tasks) :
    Shrinks (action.reportSolved task) action := by
  have shorter : (action.tasks.filter (· ≠ task)).length < action.tasks.length :=
    length_filter_lt_length_iff_exists.mpr ⟨task, scheduled, by simp⟩
  unfold Action.reportSolved
  dsimp only
  split
  next sctx cur =>
    apply over_shrinks cur
    · intro sctx alive
      cases alive
    have cancelled := @remaining_length { action with
      context := .live { sctx with delayedReport := none }
      tasks := action.tasks.filter (· ≠ task) }
    exact Nat.lt_of_le_of_lt cancelled (Nat.lt_of_lt_of_le shorter (Nat.le_add_left _ _))
  next dead =>
    have measured : action.measure = (0, action.tasks.length) := by
      unfold Action.measure
      split
      next sctx alive => exact absurd alive (dead sctx)
      next => rfl
    apply Or.inr
    rw [measured]
    exact ⟨rfl, shorter⟩

theorem delivers_shrinks {ev : Event} (step : Delivers host action ev next) :
    Shrinks next action := by
  cases step.delivered with
  | @handed sctx current handing =>
    apply handed_shrinks current _ (policyCallback_handed _)
    unfold SelectChallengeContext.handovers
    rw [if_pos handing]
    simp
  | downloaded current loading => exact policyLookupCb_shrinks current loading _ _
  | answered current h runs => exact keyshareLookupCb_shrinks current h runs _
  | reported _ scheduled => exact reportSolved_shrinks scheduled

end Ending

def Continues (next action : Action) : Prop := ∃ event, Delivers host action event next

theorem continues_wellFounded : WellFounded (Continues host) := by
  apply Subrelation.wf _ shrinks_wellFounded
  intro next action continues
  obtain ⟨ev, step⟩ := continues
  exact delivers_shrinks step

/-- Every action comes to its end, and by then it has called back exactly once. -/
theorem action_completes {stack : Uninitialised} {state : RecoveryState} {command : Command}
    {events : List Event} {action : Action}
    (intact : ∀ request rd, command.request host state = .ok request →
      state.recoveryDocument = some rd → DocumentIntact host stack rd)
    (run : Run (Guarded (Careful host) (Delivers host)) (Action.begin host stack state command)
      events action) : Completes action ∧ Acc (Continues host) action := by
  have settled : Settled host action := by
    apply run.invariant (Settled host) (begin_settled intact)
    intro action event next settled step
    exact deliver_settled settled step.1 step.2
  exact ⟨settled.completes, (continues_wellFounded host).apply action⟩

/-! ## A challenge that is selected -/

def exampleDocument (type : String) : Json :=
  match recoverySerialize Host.plain (exampleRecovery type) with
  | .ok rd => rd
  | .error _ => .null

def exampleAction : Action :=
  Action.begin plainHost .null (exampleState (exampleDocument "sms"))
    (.selectChallenge (some exampleArguments))

def exampleAnswered (dd : KeyShareDownloadDetails) : Option Action :=
  (exampleAction.deliver plainHost .runAsyncPc).bind fun action =>
    action.deliver plainHost (.keyshareLookup 0 dd)

/-- An action that is told about an unknown truth has called back. -/
theorem unknown_truth_completes : ∃ events action,
    Run (Guarded (Careful plainHost) (Delivers plainHost)) exampleAction events action ∧
      Completes action ∧ Acc (Continues plainHost) action := by
  have answers : (exampleAnswered .truthUnknown).isSome = true := by decide +kernel
  obtain ⟨action, isAction⟩ := isSome_iff_exists.mp answers
  obtain ⟨middle, first, second⟩ := bind_eq_some_iff.mp isAction
  have begun : Guarded (Careful plainHost) (Delivers plainHost) _ .runAsyncPc _ := ⟨trivial, first⟩
  have answered : Guarded (Careful plainHost) (Delivers plainHost) _
      (.keyshareLookup 0 .truthUnknown) _ := ⟨fun _ _ _ _ => trivial, second⟩
  have run := (Run.start.next begun).next answered
  refine ⟨_, action, run, action_completes plainHost ?_ run⟩
  intro _ rd _ isDocument
  cases isDocument
  have sound := example_sound "sms"
  obtain ⟨rd, written⟩ := @recoverySerialize_isOk Host.plain _ [] sound.inside sound.idData rfl
  apply written_intact _ sound.sealed rfl
  rw [exampleDocument, written]
  exact written

def Action.abandoned (action : Action) : Bool :=
  match action.context with
  | .live sctx => !sctx.doAsync && sctx.r.plo.isNone && sctx.r.cs.all (fun c => c.kslo.isNone) &&
      action.tasks.isEmpty && action.calls.isEmpty
  | _ => false

theorem Action.abandoned_incomplete {action : Action} (abandoned : action.abandoned = true) :
    ¬ Completes action := by
  intro completes
  unfold Action.abandoned at abandoned
  split at abandoned
  next sctx cur =>
    simp only [Bool.and_eq_true, Bool.not_eq_true', isNone_iff_eq_none, List.all_eq_true,
      List.isEmpty_iff] at abandoned
    obtain ⟨⟨⟨⟨handed, downloaded⟩, idle⟩, unscheduled⟩, silent⟩ := abandoned
    have called := completes.called fun due => by
      cases due with
      | inl scheduled => exact scheduled unscheduled
      | inr waiting =>
        obtain ⟨_, eq, awaits⟩ := waiting
        cases cur.symm.trans eq
        rcases awaits with handing | loading | ⟨c, mem, runs⟩
        · exact Bool.false_ne_true (handed.symm.trans handing)
        · rw [downloaded] at loading
          cases loading
        · rw [idle c mem] at runs
          cases runs
    rw [silent] at called
    cases called
  next => cases abandoned

/-- Malformed instructions for the only lookup are never reported. -/
theorem malformed_instructions_unreported : ¬ ∀ host stack state command events action,
    Run (Delivers host) (Action.begin host stack state command) events action →
      Completes action := by
  intro all
  have answers : (exampleAnswered (.externalChallengeInstructions .null)).map Action.abandoned =
      some true := by decide +kernel
  obtain ⟨action, isAction, abandoned⟩ := map_eq_some_iff.mp answers
  obtain ⟨middle, first, second⟩ := bind_eq_some_iff.mp isAction
  exact action.abandoned_incomplete abandoned
    (all plainHost .null _ _ _ action ((Run.start.next first).next second))

end Anastasis.Reducer.Challenges
