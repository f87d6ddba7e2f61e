import Anastasis.Client.Recovery
import Mathlib.Data.List.Perm.Subperm

/-! The accounting of solved challenges, in every run of a recovery. -/

set_option autoImplicit false

namespace Anastasis.Client

open Library List Option

variable (host : Host)

def RecoveryEvent.solves : RecoveryEvent → Option Nat
  | .keyshareLookup challenge (.success _) => some challenge
  | _ => none

/-- The challenges that were solved, in the order in which their lookups came back. -/
def successes (events : List RecoveryEvent) : List Nat := events.filterMap RecoveryEvent.solves

theorem successes_append (events : List RecoveryEvent) (ev : RecoveryEvent) :
    successes (events ++ [ev]) = successes events ++ ev.solves.toList := by
  rw [successes, filterMap_append, ← successes]
  cases solves : ev.solves <;> simp [solves]

def Complete (dps : List (List Nat)) (solved : List Nat) : Prop :=
  ∃ challenges ∈ dps, ∀ challenge ∈ challenges, challenge ∈ solved

def Early (dps : List (List Nat)) (solved : List Nat) : Prop :=
  ∀ earlier, earlier <+: solved → earlier ≠ [] → earlier ≠ solved → ¬ Complete dps earlier

/-- The challenges of a recovery that is under way, compared with those that were solved. -/
structure Ledger (solved : List Nat) (r : Recovery) : Prop where
  listed : r.solvedChallenges = solved
  inside : ∀ position ∈ solved, position < r.cs.length
  flagged : ∀ (position : Nat) (c : Challenge), r.cs[position]? = some c →
    (c.solved = true ↔ position ∈ solved)
  idle : ∀ c ∈ r.cs, c.solved = true → c.kslo = none

structure Underway (solved : List Nat) (process : RecoveryProcess) (r : Recovery) : Prop where
  silent : process.reported = []
  faultless : process.fault = none
  ledger : Ledger solved r
  downloading : r.plo.isSome → r.cs = []
  information : ∀ info ∈ process.announced,
    info.dps = r.dps.map DecryptionPolicy.challenges ∧ info.csLen = r.cs.length
  blank : process.announced = none → r.cs = []

/-- Every success counts once, and the core secret is reported once, at the first success
that completes a policy. -/
structure Accounted (solved : List Nat) (process : RecoveryProcess) : Prop where
  distinct : solved.Nodup
  bounded : ∀ position ∈ solved, ∃ info ∈ process.announced, position < info.csLen
  once : process.reported.length ≤ 1
  inBounds : process.fault ≠ some .outOfBounds
  early : ∀ info ∈ process.announced, Early info.dps solved
  fires : process.fault = none →
    ((∃ coreSecret size, CoreSecretReport.success coreSecret size ∈ process.reported) ↔
      solved ≠ [] ∧ ∃ info ∈ process.announced, Complete info.dps solved)
  current : ∀ r ∈ process.recovery, Underway solved process r

variable {solved : List Nat}

theorem satisfied_iff {challenges : List Nat} :
    satisfied solved challenges = true ↔ ∀ chal ∈ challenges, chal ∈ solved := by
  simp [satisfied]

theorem complete_iff {dps : List DecryptionPolicy} :
    Complete (dps.map DecryptionPolicy.challenges) solved ↔
      ∃ dp ∈ dps, satisfied solved dp.challenges = true := by
  simp only [Complete, List.mem_map, satisfied_iff]
  constructor
  · rintro ⟨_, ⟨dp, mem, rfl⟩, all⟩
    exact ⟨dp, mem, all⟩
  · rintro ⟨dp, mem, all⟩
    exact ⟨_, ⟨dp, mem, rfl⟩, all⟩

private theorem Early.append {dps : List (List Nat)} (early : Early dps solved)
    (incomplete : solved ≠ [] → ¬ Complete dps solved) (pos : Nat) :
    Early dps (solved ++ [pos]) := by
  intro old pre nonempty ne
  rcases prefix_concat_iff.mp pre with whole | pre
  · exact absurd whole ne
  cases decEq old solved with
  | isTrue eq => exact eq ▸ incomplete (eq ▸ nonempty)
  | isFalse y => exact early old pre nonempty y

/-- A challenge that is as solved as before, and of the same truth. -/
structure Operated (c replacement : Challenge) : Prop where
  uuid : replacement.uuid = c.uuid
  keyShare : replacement.keyShare = c.keyShare
  solved : replacement.solved = c.solved
  idle : c.solved = true → c.kslo = none → replacement.kslo = none

inductive RecoveryStep (process : RecoveryProcess) (r : Recovery) :
    RecoveryEvent → RecoveryProcess → Prop where
  | crashed {httpStatus : Nat} {dd : Option DownloadDetails} {fault : Fault}
      (downloading : r.plo.isSome)
      (looked : policyLookupCb host r httpStatus dd = .error fault) :
      RecoveryStep process r (.policyLookup httpStatus dd) (process.crash fault)
  | rejected {httpStatus : Nat} {dd : Option DownloadDetails} {status : RecoveryStatus}
      (downloading : r.plo.isSome)
      (looked : policyLookupCb host r httpStatus dd = .ok (.rejected status)) :
      RecoveryStep process r (.policyLookup httpStatus dd)
        { process with recovery := none, reported := process.reported ++ [.failure status] }
  | accepted {httpStatus : Nat} {dd : Option DownloadDetails} {opened : Recovery}
      (downloading : r.plo.isSome)
      (looked : policyLookupCb host r httpStatus dd = .ok (.accepted opened)) :
      RecoveryStep process r (.policyLookup httpStatus dd)
        { process with recovery := some opened, announced := some (recoveryInformation opened) }
  | replaced {event : RecoveryEvent} {position : Nat} {c replacement : Challenge}
      {told : List (Nat × ChallengeStartResponse)} (unsolving : event.solves = none)
      (found : r.cs[position]? = some c) (operated : Operated c replacement) :
      RecoveryStep process r event { process with
        recovery := some { r with cs := r.cs.set position replacement }, feedback := told }
  | succeeded {position : Nat} {c : Challenge} {eks : EncryptedKeyShare}
      (found : r.cs[position]? = some c) (started : c.kslo.isSome) :
      RecoveryStep process r (.keyshareLookup position (.success eks))
        (process.succeed host r position c eks)
  | aborted : RecoveryStep process r .abort { process with recovery := none }

theorem challengeStart_operated (c : Challenge) (psp : Option PaymentSecret)
    (timeout : Nat) (hashedAnswer : Option HashCode) :
    Operated c (challengeStart host c psp timeout hashedAnswer) := by
  unfold challengeStart
  split
  · exact ⟨rfl, rfl, rfl, fun _ idle => idle⟩
  rename_i startable
  refine ⟨rfl, rfl, rfl, fun solved => ?_⟩
  simp [solved] at startable

theorem challengeAnswer_operated (c : Challenge) (psp : Option PaymentSecret)
    (timeout : Nat) (answerStr : Bytes) :
    Operated c (challengeAnswer host c psp timeout answerStr) := by
  have st := challengeStart_operated host { c with answer := some answerStr } psp timeout
    (some (secureAnswerHash host answerStr c.uuid c.salt))
  exact ⟨st.uuid, st.keyShare, st.solved, st.idle⟩

variable {process next : RecoveryProcess} {r : Recovery}

private theorem update_step {event : RecoveryEvent} (unsolving : event.solves = none)
    {chal : Nat} {operation : Challenge → Challenge} (operated : ∀ c, Operated c (operation c))
    (step : process.update r chal operation = some next) :
    RecoveryStep host process r event next := by
  obtain ⟨c, h, rfl⟩ := map_eq_some_iff.mp step
  exact .replaced unsolving h (operated c)

variable {dd : Option DownloadDetails}

private theorem policyLookup_step (cur : process.recovery = some r) {httpStatus : Nat}
    (step : process.deliver host (.policyLookup httpStatus dd) = some next) :
    RecoveryStep host process r (.policyLookup httpStatus dd) next := by
  simp only [RecoveryProcess.deliver, cur, bind_eq_bind, bind_some,
    bind_eq_some_iff, Option.pure_def] at step
  obtain ⟨plo, loading, step⟩ := step
  have loading : r.plo.isSome := loading ▸ rfl
  cases looked : policyLookupCb host r httpStatus dd with
  | error fault =>
    simp only [looked, Option.some.injEq] at step
    exact step ▸ .crashed loading looked
  | ok res =>
    cases res with
    | rejected st =>
      simp only [looked, Option.some.injEq] at step
      exact step ▸ .rejected loading looked
    | accepted opened =>
      simp only [looked, Option.some.injEq] at step
      exact step ▸ .accepted loading looked

theorem recovers_step {event : RecoveryEvent} (step : Recovers host process event next) :
    ∃ r, process.recovery = some r ∧ RecoveryStep host process r event next := by
  unfold Recovers at step
  cases current : process.recovery with
  | none => simp [RecoveryProcess.deliver, current] at step
  | some r =>
    refine ⟨r, rfl, ?_⟩
    cases event with
    | policyLookup httpStatus dd => exact policyLookup_step host current step
    | start challenge psp timeout hashedAnswer =>
      rw [RecoveryProcess.deliver, current] at step
      exact update_step host rfl (fun c => challengeStart_operated host c _ _ _) step
    | answer challenge psp timeout answerStr =>
      rw [RecoveryProcess.deliver, current] at step
      exact update_step host rfl (fun c => challengeAnswer_operated host c _ _ _) step
    | answer2 challenge psp timeout answer =>
      rw [RecoveryProcess.deliver, current] at step
      exact update_step host rfl (fun c => challengeStart_operated host c _ _ _) step
    | challengeAbort challenge =>
      rw [RecoveryProcess.deliver, current] at step
      have aborted : ∀ c, Operated c (Client.challengeAbort c) :=
        fun c => ⟨rfl, rfl, rfl, fun _ _ => rfl⟩
      exact update_step host rfl aborted step
    | abort =>
      rw [RecoveryProcess.deliver, current] at step
      exact Option.some.inj step ▸ .aborted
    | keyshareLookup challenge dd =>
      simp only [RecoveryProcess.deliver, current, bind_eq_bind, bind_some,
        bind_eq_some_iff, Option.pure_def, Option.some.injEq] at step
      obtain ⟨c, h, operation, st, rfl⟩ := step
      cases dd with
      | success eks => exact .succeeded h (st ▸ rfl)
      | _ => exact .replaced rfl h ⟨rfl, rfl, rfl, fun _ _ => rfl⟩

theorem beginRecovery_accounted (idData : Json) (ver : UInt32) (providerUrl : String)
    (providerSalt : ProviderSalt) :
    Accounted [] (beginRecovery host idData ver providerUrl providerSalt) := by
  refine ⟨nodup_nil, by simp, by simp [beginRecovery], by simp [beginRecovery],
    by simp [beginRecovery], by simp [beginRecovery], ?_⟩
  intro r begun
  cases Option.some.inj begun
  exact ⟨rfl, rfl, ⟨rfl, by simp, by simp [recoveryBegin], by simp [recoveryBegin]⟩,
    fun _ => rfl, by simp [beginRecovery], fun _ => rfl⟩

/-- A document that was read has challenges that nobody has started. -/
structure Unsolved (r : Recovery) : Prop where
  listed : r.solvedChallenges = []
  downloaded : r.plo = none
  fresh : ∀ c ∈ r.cs, c.solved = false ∧ c.kslo = none

variable {c : Challenge}

private theorem parseChallenge_fresh {cs : Json} (parsed : parseChallenge host cs = some c) :
    c.solved = false ∧ c.kslo = none := by
  simp only [parseChallenge, bind_eq_bind, bind_eq_some_iff, Option.pure_def,
    Option.some.injEq] at parsed
  obtain ⟨_, _, _, _, _, _, _, _, _, _, _, _, _, _, rfl⟩ := parsed
  exact ⟨rfl, rfl⟩

variable {version ver : UInt32}

theorem readDocument_eq_ok {next : Recovery} {document : Json}
    (read : readDocument host r version document = .ok (some next)) :
    ∃ escMethods decPolicies cs dps secretName encCoreSecret,
      (arrayItems escMethods).mapM (parseChallenge host) = some cs ∧
      parsePolicies host cs (arrayItems decPolicies) = .ok (some dps) ∧
      next = { r with
        plo := none, version := version, secretName := secretName, encCoreSecret := some encCoreSecret
        cs := cs, dps := dps, solvedChallenges := [] } := by
  unfold readDocument at read
  simp only at read
  split at read
  · cases read
  rename_i decPolicies secretName encCoreSecret cs parsed
  simp only [bind_eq_bind, bind_eq_some_iff, Option.pure_def, Option.some.injEq,
    Prod.mk.injEq] at parsed
  obtain ⟨policyArray, _, _, _, _, _, _, _, challenges, parsed, rfl, rfl, rfl, rfl⟩ := parsed
  cases policies : parsePolicies host challenges (arrayItems policyArray) with
  | error fault => simp [policies, bind, Except.bind] at read
  | ok h =>
    cases h with
    | none => simp [policies, bind, Except.bind, pure, Except.pure] at read
    | some dps =>
      simp only [policies, bind, Except.bind, pure, Except.pure, Except.ok.injEq,
        Option.some.injEq] at read
      exact ⟨_, _, challenges, dps, _, _, parsed, policies, read.symm⟩

private theorem readDocument_fresh {next : Recovery} {document : Json}
    (read : readDocument host r ver document = .ok (some next)) : Unsolved next := by
  obtain ⟨_, _, cs, dps, _, _, challenges, _, rfl⟩ := readDocument_eq_ok host read
  refine ⟨rfl, rfl, fun c mem => ?_⟩
  obtain ⟨_, _, h⟩ := mapM_eq_some_mem challenges mem
  exact parseChallenge_fresh host h

theorem openDocument_accepted {next : Recovery} {policy : Bytes}
    (opened : openDocument host r ver policy = .ok (.accepted next)) :
    ∃ plaintext size data pt document,
      recoveryDocumentDecrypt host r.id policy = .ok (plaintext, size) ∧
      readBuffer plaintext size = .ok data ∧
      host.uncompress (ntohl (data.take 4)) (data.drop 4) = some pt ∧
      host.jsonLoadb pt = some document ∧ readDocument host r ver document = .ok (some next) := by
  unfold openDocument at opened
  cases decrypted : recoveryDocumentDecrypt host r.id policy with
  | error fault => simp [decrypted, bind, Except.bind] at opened
  | ok plain =>
    obtain ⟨plaintext, size⟩ := plain
    simp only [decrypted, bind, Except.bind] at opened
    split_ifs at opened with short
    · cases opened
    cases buffer : readBuffer plaintext size with
    | error fault => simp [buffer] at opened
    | ok data =>
      simp only [buffer] at opened
      split_ifs at opened with big
      · cases opened
      cases uncompressed : host.uncompress (ntohl (data.take 4)) (data.drop 4) with
      | none => simp [uncompressed, pure, Except.pure] at opened
      | some pt =>
        cases loaded : host.jsonLoadb pt with
        | none => simp [uncompressed, loaded, pure, Except.pure] at opened
        | some document =>
          cases read : readDocument host r ver document with
          | error fault => simp [uncompressed, loaded, read] at opened
          | ok h =>
            cases h with
            | none =>
              simp [uncompressed, loaded, read, pure, Except.pure] at opened
            | some h =>
              simp only [uncompressed, loaded, read, pure, Except.pure,
                Except.ok.injEq, PolicyLookup.accepted.injEq] at opened
              exact ⟨plaintext, size, data, pt, document, rfl, buffer,
                uncompressed, loaded, opened ▸ read⟩

theorem policyLookupCb_accepted {next : Recovery} {httpStatus : Nat}
    (accepted : policyLookupCb host r httpStatus dd = .ok (.accepted next)) :
    ∃ dt policy, dd = some dt ∧ dt.policy = some policy ∧
      openDocument host r dt.version policy = .ok (.accepted next) := by
  unfold policyLookupCb at accepted
  split_ifs at accepted <;> try cases accepted
  split at accepted
  · cases accepted
  rename_i dt
  split at accepted
  · cases accepted
  · rename_i policy h
    exact ⟨dt, policy, rfl, h, accepted⟩

theorem policyLookupCb_fresh {next : Recovery} {httpStatus : Nat}
    (accepted : policyLookupCb host r httpStatus dd = .ok (.accepted next)) : Unsolved next := by
  obtain ⟨_, _, _, _, opened⟩ := policyLookupCb_accepted host accepted
  obtain ⟨_, _, _, _, _, _, _, _, _, read⟩ := openDocument_accepted host opened
  exact readDocument_fresh host read

/-! Only the list of solved challenges could be written beyond its bounds. -/

private def InBounds {Value : Type} (computation : Except Fault Value) : Prop :=
  computation ≠ .error .outOfBounds

private theorem InBounds.bind {First Second : Type} {x : Except Fault First}
    {y : First → Except Fault Second} (left : InBounds x)
    (right : ∀ v, InBounds (y v)) : InBounds (x >>= y) := by
  cases x with
  | error fault =>
    intro outOfBounds
    cases outOfBounds
    exact left rfl
  | ok v => exact right v

private theorem InBounds.pure {Value : Type} (v : Value) : InBounds (Pure.pure v) := nofun

private theorem InBounds.ite {Value : Type} {cond : Prop} [Decidable cond]
    {x y : Except Fault Value} (left : InBounds x) (right : InBounds y) :
    InBounds (if cond then x else y) := by
  split
  · exact left
  · exact right

private theorem InBounds.mapM {First Second : Type} {function : First → Except Fault Second}
    (each : ∀ v, InBounds (function v)) (src : List First) : InBounds (src.mapM function) := by
  induction src with
  | nil => exact .pure _
  | cons x rest ih =>
    rw [mapM_cons]
    exact (each x).bind fun _ => ih.bind fun _ => .pure _

private theorem readBuffer_inBounds (pointer : Option Bytes) (size : Nat) :
    InBounds (readBuffer pointer size) := by
  unfold readBuffer
  split <;> nofun

private theorem anastasisDecrypt_inBounds (key data salt : Bytes) :
    InBounds (anastasisDecrypt host key data salt) := by
  exact .ite nofun nofun

private theorem keyshareDecrypt_inBounds (sealed : EncryptedKeyShare) (id : UserIdentifier)
    (xsalt : Option Bytes) : InBounds (keyshareDecrypt host sealed id xsalt) := by
  refine .bind (anastasisDecrypt_inBounds host _ _ _) fun opened => ?_
  refine .bind (readBuffer_inBounds _ _) fun data => ?_
  split <;> nofun

private theorem coreSecretRecover_inBounds (emk : Bytes) (policyKey : PolicyKey)
    (encCoreSecret : Bytes) : InBounds (coreSecretRecover host emk policyKey encCoreSecret) := by
  refine .bind (anastasisDecrypt_inBounds host _ _ _) fun masterKey => .ite nofun ?_
  exact .bind (readBuffer_inBounds _ _) fun _ => anastasisDecrypt_inBounds host _ _ _

private theorem recoverCoreSecret_inBounds (r : Recovery) (rdps : DecryptionPolicy) :
    InBounds (recoverCoreSecret host r rdps) := by
  refine .bind (.mapM (fun chal => ?_) _) fun keyShares => .ite nofun ?_
  · unfold solvedKeyShare
    split <;> nofun
  · exact .bind (coreSecretRecover_inBounds host _ _ _) fun _ => .pure _

private theorem InBounds.collect {First Second : Type}
    {function : First → Except Fault (Option Second)} (each : ∀ v, InBounds (function v))
    (src : List First) : InBounds (collect function src) := by
  induction src with
  | nil => exact nofun
  | cons x rest ih =>
    refine (each x).bind fun h => ?_
    cases h with
    | none => exact .pure _
    | some y => exact ih.bind fun ys => by cases ys <;> exact .pure _

private theorem parsePolicy_inBounds (cs : List Challenge) (policy : Json) :
    InBounds (parsePolicy host cs policy) := by
  unfold parsePolicy
  simp only
  split
  · exact nofun
  · exact .ite nofun nofun

private theorem readDocument_inBounds (r : Recovery) (ver : UInt32) (document : Json) :
    InBounds (readDocument host r ver document) := by
  unfold readDocument
  simp only
  split
  · exact nofun
  · refine .bind (.collect (parsePolicy_inBounds host _) _) fun h => ?_
    cases h <;> exact .pure _

private theorem openDocument_inBounds (r : Recovery) (ver : UInt32) (policy : Bytes) :
    InBounds (openDocument host r ver policy) := by
  refine .bind (anastasisDecrypt_inBounds host _ _ _) fun plain => .ite (.pure _) ?_
  refine .bind (readBuffer_inBounds _ _) fun data => .ite (.pure _) ?_
  split
  · exact .pure _
  split
  · exact .pure _
  · refine .bind (readDocument_inBounds host _ _ _) fun h => ?_
    cases h <;> exact .pure _

private theorem policyLookupCb_inBounds (r : Recovery) (httpStatus : Nat)
    (dd : Option DownloadDetails) : InBounds (policyLookupCb host r httpStatus dd) := by
  refine .ite ?_ (.ite nofun (.ite nofun (.ite nofun nofun)))
  split
  · exact nofun
  split
  · exact nofun
  · exact openDocument_inBounds host r _ _

variable {position pos : Nat}

private theorem Ledger.replace (ledger : Ledger solved r) (h : r.cs[pos]? = some c)
    (replacement : Challenge) (eq : replacement.solved = c.solved)
    (idle : replacement.solved = true → replacement.kslo = none) :
    Ledger solved { r with cs := r.cs.set pos replacement } := by
  refine ⟨ledger.listed, fun place mem => ?_, fun place y got => ?_, fun y mem => ?_⟩
  · rw [length_set]
    exact ledger.inside place mem
  · rw [getElem?_set] at got
    split_ifs at got with here below
    · cases got
      rw [eq, ← here]
      exact ledger.flagged pos c h
    · exact ledger.flagged place y got
  cases mem_or_eq_of_mem_set mem with
  | inl old => exact ledger.idle y old
  | inr new => exact new ▸ idle

private theorem Underway.replace (underway : Underway solved process r)
    (h : r.cs[pos]? = some c) (replacement : Challenge) (eq : replacement.solved = c.solved)
    (idle : replacement.solved = true → replacement.kslo = none)
    (told : next.reported = process.reported) (fault : next.fault = process.fault)
    (announced : next.announced = process.announced) :
    Underway solved next { r with cs := r.cs.set pos replacement } := by
  refine ⟨told.trans underway.silent, fault.trans underway.faultless,
    underway.ledger.replace h replacement eq idle, ?_, ?_, ?_⟩
  · intro loading
    have empty := underway.downloading loading
    simp [empty] at h
  · intro info mem
    rw [length_set]
    exact underway.information info (announced ▸ mem)
  intro nothing
  have empty := underway.blank (announced ▸ nothing)
  simp [empty] at h

private theorem Accounted.carry (accounted : Accounted solved process)
    (announced : next.announced = process.announced) (told : next.reported = process.reported)
    (fault : next.fault = process.fault) (current : ∀ r ∈ next.recovery, Underway solved next r) :
    Accounted solved next where
  distinct := accounted.distinct
  bounded := announced ▸ accounted.bounded
  once := told ▸ accounted.once
  inBounds := fault ▸ accounted.inBounds
  early := announced ▸ accounted.early
  fires := by
    rw [announced, told, fault]
    exact accounted.fires
  current := current

private theorem Accounted.crash (accounted : Accounted solved process) {fault : Fault}
    (inBounds : fault ≠ .outOfBounds) : Accounted solved (process.crash fault) where
  distinct := accounted.distinct
  bounded := accounted.bounded
  once := accounted.once
  inBounds := fun eq => inBounds (Option.some.inj eq)
  early := accounted.early
  fires := nofun
  current := nofun

private theorem Underway.unsolved (underway : Underway solved process r)
    (loading : r.plo.isSome) : solved = [] := by
  have empty := underway.downloading loading
  refine eq_nil_iff_forall_not_mem.mpr fun pos mem => ?_
  have below := underway.ledger.inside pos mem
  simp [empty] at below

private theorem Accounted.rejected (accounted : Accounted solved process)
    (current : process.recovery = some r) (loading : r.plo.isSome) (st : RecoveryStatus) :
    Accounted solved { process with
      recovery := none, reported := process.reported ++ [.failure st] } := by
  have underway := accounted.current r current
  cases underway.unsolved loading
  exact {
    distinct := nodup_nil
    bounded := nofun
    once := by simp [underway.silent]
    inBounds := accounted.inBounds
    early := accounted.early
    fires := by simp [underway.silent]
    current := nofun }

private theorem Accounted.accepted {opened : Recovery} (accounted : Accounted solved process)
    (cur : process.recovery = some r) (loading : r.plo.isSome)
    (unsolved : Unsolved opened) : Accounted solved { process with
      recovery := some opened, announced := some (recoveryInformation opened) } := by
  have underway := accounted.current r cur
  cases underway.unsolved loading
  refine ⟨nodup_nil, nofun, accounted.once, accounted.inBounds, ?_, ?_, ?_⟩
  · intro info _ old pre nonempty
    exact absurd (prefix_nil.mp pre) nonempty
  · simp [underway.silent]
  intro r' current'
  cases Option.some.inj current'
  refine ⟨underway.silent, underway.faultless, ⟨unsolved.listed, nofun, ?_, ?_⟩,
    by simp [unsolved.downloaded], ?_, nofun⟩
  · intro pos c h
    simp [(unsolved.fresh c (mem_of_getElem? h)).1]
  · intro c mem _
    exact (unsolved.fresh c mem).2
  intro info eq
  cases Option.some.inj eq
  exact ⟨rfl, rfl⟩

private theorem Accounted.replaced (accounted : Accounted solved process)
    (cur : process.recovery = some r) {replacement : Challenge}
    (h : r.cs[pos]? = some c) (operated : Operated c replacement)
    (told : List (Nat × ChallengeStartResponse)) : Accounted solved { process with
      recovery := some { r with cs := r.cs.set pos replacement }, feedback := told } := by
  have underway := accounted.current r cur
  refine accounted.carry rfl rfl rfl fun r' current' => ?_
  cases Option.some.inj current'
  refine underway.replace h replacement operated.solved (fun solved => ?_) rfl rfl rfl
  have pre := operated.solved ▸ solved
  exact operated.idle pre (underway.ledger.idle c (mem_of_getElem? h) pre)

private theorem Accounted.count (accounted : Accounted solved process)
    (cur : process.recovery = some r) (h : r.cs[pos]? = some c) (st : c.kslo.isSome) :
    (solved ++ [pos]).Nodup ∧
      (∀ place ∈ solved ++ [pos], ∃ info ∈ process.announced, place < info.csLen) ∧
      ∀ info ∈ process.announced, Early info.dps (solved ++ [pos]) := by
  have underway := accounted.current r cur
  have below : pos < r.cs.length := (List.getElem?_eq_some_iff.mp h).1
  have fresh : pos ∉ solved := by
    intro mem
    have already := (underway.ledger.flagged pos c h).mpr mem
    have idle := underway.ledger.idle c (mem_of_getElem? h) already
    simp [idle] at st
  refine ⟨?_, ?_, ?_⟩
  · rw [nodup_append]
    refine ⟨accounted.distinct, by simp, ?_⟩
    intro place mem y single
    rw [mem_singleton.mp single]
    exact fun eq => fresh (eq ▸ mem)
  · intro place mem
    cases mem_append.mp mem with
    | inl old => exact accounted.bounded place old
    | inr new =>
      cases announced : process.announced with
      | none =>
        have empty := underway.blank announced
        simp [empty] at below
      | some info =>
        have sized := (underway.information info announced).2
        exact ⟨info, rfl, by rw [mem_singleton.mp new, sized]; exact below⟩
  · intro info announced
    refine (accounted.early info announced).append (fun nonempty complete => ?_) pos
    obtain ⟨_, _, told⟩ :=
      (accounted.fires underway.faultless).mpr ⟨nonempty, info, announced, complete⟩
    simp [underway.silent] at told

/-- What `solveChallenge` leaves, when it does not fail. -/
theorem solveChallenge_eq_ok {next : Recovery} {eks : EncryptedKeyShare}
    (solve : solveChallenge host r pos c eks = .ok next) : ∃ keyShare,
      keyshareDecrypt host eks (userIdentifierDerive host r.idData c.providerSalt) c.answer =
        .ok keyShare ∧
      next = { r with
        cs := r.cs.set pos { c with kslo := none, keyShare := keyShare, solved := true }
        solvedChallenges := r.solvedChallenges ++ [pos] } := by
  unfold solveChallenge at solve
  cases opened : keyshareDecrypt host eks (userIdentifierDerive host r.idData c.providerSalt)
      c.answer with
  | error fault => simp [opened, bind, Except.bind] at solve
  | ok keyShare =>
    simp only [opened, bind, Except.bind, pure, Except.pure] at solve
    split at solve
    · exact ⟨keyShare, rfl, (Except.ok.inj solve).symm⟩
    · cases solve

private theorem solveChallenge_inBounds (room : r.solvedChallenges.length < r.cs.length)
    (pos : Nat) (c : Challenge) (eks : EncryptedKeyShare) :
    InBounds (solveChallenge host r pos c eks) := by
  refine .bind (keyshareDecrypt_inBounds host _ _ _) fun keyShare => ?_
  rw [if_pos room]
  exact .pure _

/-- Distinct places below a bound, one of which is missing, are fewer than the bound. -/
private theorem Ledger.room (ledger : Ledger solved r) (apart : (solved ++ [pos]).Nodup)
    (below : pos < r.cs.length) : r.solvedChallenges.length < r.cs.length := by
  have inside : solved ++ [pos] ⊆ List.range r.cs.length := by
    intro place mem
    rw [mem_range]
    cases mem_append.mp mem with
    | inl old => exact ledger.inside place old
    | inr new => exact mem_singleton.mp new ▸ below
  have bound := (subperm_of_subset apart inside).length_le
  rw [length_append, length_range] at bound
  rw [ledger.listed]
  exact bound

theorem Accounted.room (accounted : Accounted solved process)
    (cur : process.recovery = some r) (h : r.cs[pos]? = some c)
    (st : c.kslo.isSome) : r.solvedChallenges.length < r.cs.length := by
  obtain ⟨apart, _, _⟩ := accounted.count cur h st
  exact (accounted.current r cur).ledger.room apart (List.getElem?_eq_some_iff.mp h).1

private theorem Ledger.solve (ledger : Ledger solved r) (below : pos < r.cs.length)
    {replacement : Challenge} (nowSolved : replacement.solved = true)
    (idle : replacement.kslo = none) : Ledger (solved ++ [pos]) { r with
      cs := r.cs.set pos replacement
      solvedChallenges := r.solvedChallenges ++ [pos] } := by
  refine ⟨congrArg (· ++ [pos]) ledger.listed, fun place mem => ?_,
    fun place y h => ?_, fun y mem => ?_⟩
  · rw [length_set]
    cases mem_append.mp mem with
    | inl old => exact ledger.inside place old
    | inr new => exact mem_singleton.mp new ▸ below
  · rw [getElem?_set] at h
    split_ifs at h with here
    · cases h
      simp [nowSolved, here]
    · rw [ledger.flagged place y h, mem_append, mem_singleton]
      simp [Ne.symm here]
  cases mem_or_eq_of_mem_set mem with
  | inl old => exact ledger.idle y old
  | inr new => exact fun _ => new ▸ idle

private theorem recoverCoreSecret_success {rdps : DecryptionPolicy} {report : CoreSecretReport}
    (recovered : recoverCoreSecret host r rdps = .ok report) :
    ∃ coreSecret size, report = .success coreSecret size := by
  unfold recoverCoreSecret at recovered
  cases shares : rdps.challenges.mapM (solvedKeyShare r) with
  | error fault => simp [shares, bind, Except.bind] at recovered
  | ok keyShares =>
    simp only [shares, bind, Except.bind] at recovered
    split at recovered
    · cases recovered
    split at recovered
    · cases recovered
    · exact ⟨_, _, (Except.ok.inj recovered).symm⟩

private theorem Underway.solve (underway : Underway solved process r)
    (below : pos < r.cs.length) {replacement : Challenge}
    (nowSolved : replacement.solved = true) (idle : replacement.kslo = none)
    (told : next.reported = process.reported) (fault : next.fault = process.fault)
    (announced : next.announced = process.announced) : Underway (solved ++ [pos]) next { r with
      cs := r.cs.set pos replacement
      solvedChallenges := r.solvedChallenges ++ [pos] } := by
  refine ⟨told.trans underway.silent, fault.trans underway.faultless,
    underway.ledger.solve below nowSolved idle, fun loading => ?_, fun info mem => ?_,
    fun nothing => ?_⟩
  · have empty := underway.downloading loading
    simp [empty] at below
  · rw [length_set]
    exact underway.information info (announced ▸ mem)
  · have empty := underway.blank (announced ▸ nothing)
    simp [empty] at below

theorem succeed_recovery {next : Recovery} {eks : EncryptedKeyShare}
    (cur : (process.succeed host r pos c eks).recovery = some next) :
    next.idData = r.idData ∧ next.dps = r.dps ∧ next.cs.length = r.cs.length := by
  unfold RecoveryProcess.succeed at cur
  cases solve : solveChallenge host r pos c eks with
  | error fault => simp [solve, RecoveryProcess.crash] at cur
  | ok after =>
    obtain ⟨_, _, rfl⟩ := solveChallenge_eq_ok host solve
    simp only [solve] at cur
    split at cur
    · cases Option.some.inj cur
      exact ⟨rfl, rfl, length_set⟩
    · split at cur <;> cases cur

/-- A success counts once; the process reports the secret when a policy is complete. -/
private theorem Accounted.succeed (accounted : Accounted solved process)
    (cur : process.recovery = some r) (h : r.cs[pos]? = some c)
    (st : c.kslo.isSome) (eks : EncryptedKeyShare) :
    Accounted (solved ++ [pos]) (process.succeed host r pos c eks) := by
  have underway := accounted.current r cur
  have below : pos < r.cs.length := (List.getElem?_eq_some_iff.mp h).1
  obtain ⟨apart, bounded, early⟩ := accounted.count cur h st
  have room := accounted.room cur h st
  have crash : ∀ fault told, fault ≠ .outOfBounds → Accounted (solved ++ [pos])
      { process with recovery := none, feedback := told, fault := some fault } :=
    fun fault told inBounds => ⟨apart, bounded, accounted.once,
      fun eq => inBounds (Option.some.inj eq), early, nofun, nofun⟩
  unfold RecoveryProcess.succeed
  cases solve : solveChallenge host r pos c eks with
  | error fault =>
    exact crash fault _ fun eq =>
      solveChallenge_inBounds host room pos c eks (eq ▸ solve)
  | ok after =>
    have later : Underway (solved ++ [pos]) { process with
        recovery := some after, feedback := process.feedback ++ [(pos, .solved)] } after := by
      obtain ⟨keyShare, _, rfl⟩ := solveChallenge_eq_ok host solve
      exact underway.solve below rfl rfl rfl rfl rfl
    have completes : ∀ info ∈ process.announced, (Complete info.dps (solved ++ [pos]) ↔
        ∃ dp ∈ after.dps, satisfied after.solvedChallenges dp.challenges = true) := by
      intro info announced
      rw [(later.information info announced).1, complete_iff, later.ledger.listed]
    dsimp only
    cases search : after.dps.find? fun dps => satisfied after.solvedChallenges dps.challenges with
    | none =>
      refine ⟨apart, bounded, accounted.once, accounted.inBounds, early,
        fun _ => ⟨fun reported => ?_, fun complete => ?_⟩, fun r' current' => ?_⟩
      · simp [underway.silent] at reported
      · obtain ⟨_, info, announced, complete⟩ := complete
        obtain ⟨dp, mem, satisfied⟩ := (completes info announced).mp complete
        exact absurd satisfied (find?_eq_none.mp search dp mem)
      · cases Option.some.inj current'
        exact later
    | some rdps =>
      have complete := find?_some search
      have mem := mem_of_find?_eq_some search
      dsimp only
      cases recovered : recoverCoreSecret host after rdps with
      | error fault =>
        exact crash fault _ fun eq =>
          recoverCoreSecret_inBounds host after rdps (eq ▸ recovered)
      | ok report =>
        obtain ⟨coreSecret, size, rfl⟩ := recoverCoreSecret_success host recovered
        obtain ⟨info, announced, _⟩ := bounded pos (by simp)
        refine ⟨apart, bounded, by simp [underway.silent], accounted.inBounds, early,
          fun _ => ⟨fun _ => ⟨by simp, info, announced, ?_⟩, fun _ => ?_⟩, nofun⟩
        · exact (completes info announced).mpr ⟨rdps, mem, complete⟩
        · exact ⟨coreSecret, size, mem_append_right _ (mem_singleton.mpr rfl)⟩

theorem Accounted.step {history : List RecoveryEvent} {ev : RecoveryEvent}
    (accounted : Accounted (successes history) process) (step : Recovers host process ev next) :
    Accounted (successes (history ++ [ev])) next := by
  rw [successes_append]
  obtain ⟨r, current, step⟩ := recovers_step host step
  cases step with
  | crashed loading looked =>
    simp only [RecoveryEvent.solves, toList_none, append_nil]
    exact accounted.crash fun eq => policyLookupCb_inBounds host _ _ _ (eq ▸ looked)
  | rejected loading looked =>
    simp only [RecoveryEvent.solves, toList_none, append_nil]
    exact accounted.rejected current loading _
  | accepted loading looked =>
    simp only [RecoveryEvent.solves, toList_none, append_nil]
    exact accounted.accepted current loading (policyLookupCb_fresh host looked)
  | replaced unsolving h operated =>
    rw [unsolving, toList_none, append_nil]
    exact accounted.replaced current h operated _
  | succeeded h st => exact accounted.succeed host current h st _
  | aborted =>
    simp only [RecoveryEvent.solves, toList_none, append_nil]
    exact accounted.carry rfl rfl rfl fun _ => nofun

theorem accounted_run {idData : Json} {providerUrl : String} {providerSalt : ProviderSalt}
    {events : List RecoveryEvent}
    (run : Transition.Run (Recovers host) (beginRecovery host idData ver providerUrl
      providerSalt) events process) : Accounted (successes events) process :=
  run.invariantWithHistory (fun history process => Accounted (successes history) process)
    (beginRecovery_accounted host _ _ _ _) fun _ _ _ _ accounted step => accounted.step host step

theorem Accounted.length_le (accounted : Accounted solved process) {info : RecoveryInformation}
    (announced : info ∈ process.announced) : solved.length ≤ info.csLen := by
  have inside : solved ⊆ List.range info.csLen := by
    intro pos mem
    obtain ⟨h, announced', below⟩ := accounted.bounded pos mem
    cases mem_unique announced announced'
    exact mem_range.mpr below
  have bound := (subperm_of_subset accounted.distinct inside).length_le
  rwa [length_range] at bound

end Anastasis.Client
