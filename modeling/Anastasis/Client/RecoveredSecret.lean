import Anastasis.Client.RecoveryDocument
import Anastasis.Client.RecoveryProperties

/-! A recovery of a document that was shared, from providers that answer with the key shares
they were given, reports the core secret of that share. -/

set_option autoImplicit false

namespace Anastasis.Client

open Library List Option

variable (host : Host)

def Holds (request : ShareRequest) (uuid : TruthUuid) (keyShare : KeyShare) : Prop :=
  ∀ policy ∈ request.policies, ∀ pt ∈ policy.truths, pt.uuid = uuid → pt.keyShare = keyShare

def Names (cs : List Challenge) (position : Nat) (pt : Truth) : Prop :=
  ∃ c, cs[position]? = some c ∧ c.uuid = pt.uuid

structure Shared (request : ShareRequest) (random : ShareRandomness) (r : Recovery) : Prop where
  downloaded : r.plo = none
  idData : r.idData = request.idData
  secret : r.encCoreSecret = some (sealedSecret host request random).encCoreSecret
  policies : ∀ dp ∈ r.dps, ∃ (index : Nat) (policy : Policy),
    request.policies[index]? = some policy ∧
      (sealedSecret host request random).encMasterKeys[index]? = some dp.emk ∧
      dp.salt = policy.salt ∧ List.Forall₂ (Names r.cs) dp.challenges policy.truths
  shares : ∀ position ∈ r.solvedChallenges, ∀ c ∈ r.cs[position]?,
    Holds request c.uuid c.keyShare

/-- The answers of the providers are the document that was stored and the key shares that
were sealed for the challenges. -/
def Honest (request : ShareRequest) (policy : Bytes) (process : RecoveryProcess) :
    RecoveryEvent → Prop
  | .policyLookup httpStatus dd =>
    httpStatus = 200 → ∃ details ∈ dd, ∀ downloaded ∈ details.policy, downloaded = policy
  | .keyshareLookup challenge (.success eks) =>
    ∀ r ∈ process.recovery, ∀ c ∈ r.cs[challenge]?, ∃ nonce keyShare,
      eks.val = keyshareEncrypt host nonce keyShare
          (userIdentifierDerive host request.idData c.providerSalt) c.answer ∧
        Holds request c.uuid keyShare
  | _ => True

theorem sharedRecovery_shared (req : ShareRequest) (rnd : ShareRandomness) (ver : UInt32)
    {r : Recovery} (eq : r.idData = req.idData) :
    Shared host req rnd (sharedRecovery host req rnd ver r) := by
  refine ⟨rfl, eq, rfl, fun dp mem => ?_, nofun⟩
  obtain ⟨idx, below, rfl⟩ := mem_iff_getElem.mp mem
  simp only [sharedRecovery, length_zipWith, Nat.lt_min] at below
  refine ⟨idx, req.policies[idx], getElem?_eq_getElem below.1, ?_, ?_, ?_⟩
  · simp [sharedRecovery, sharedPolicy]
  · simp [sharedRecovery, sharedPolicy]
  simp only [sharedRecovery, getElem_zipWith, sharedPolicy, List.forall₂_map_left_iff]
  refine List.forall₂_same.mpr fun pt own => ?_
  obtain ⟨listed, h, eq⟩ := getElem?_placeOf (escTruths_lists (getElem_mem below.1) pt own)
  exact ⟨sharedChallenge listed, by rw [getElem?_map, h]; rfl, eq⟩

theorem recoverCoreSecret_shared {req : ShareRequest} {rnd : ShareRandomness}
    {r : Recovery} (shared : Shared host req rnd r)
    (made : ∀ policy ∈ req.policies, ∃ truths salt, policy = policyCreate host truths salt)
    {rdps : DecryptionPolicy} (mem : rdps ∈ r.dps)
    (complete : satisfied r.solvedChallenges rdps.challenges = true) :
    recoverCoreSecret host r rdps = .ok (.success (some req.coreSecret) req.coreSecret.length) := by
  obtain ⟨idx, policy, h, emk, salt, names⟩ := shared.policies rdps mem
  have among : policy ∈ req.policies := mem_of_getElem? h
  have shares : rdps.challenges.mapM (solvedKeyShare r) =
      .ok (policy.truths.map Truth.keyShare) := by
    rw [mapM_eq_ok_iff, List.forall₂_map_right_iff]
    refine forall₂_imp_of_mem names fun pos named pt own place => ?_
    obtain ⟨c, at_position, eq⟩ := place
    have solved := satisfied_iff.mp complete pos named
    have share := shared.shares pos solved c at_position policy among pt own eq.symm
    obtain ⟨listed, search⟩ : ∃ listed,
        r.solvedChallenges.find? (fun solved => pos = solved) = some listed :=
      isSome_iff_exists.mp (by simpa using solved)
    have h := find?_some search
    obtain rfl : pos = listed := of_decide_eq_true h
    simp [solvedKeyShare, search, at_position, share]
  obtain ⟨truths, masterSalt, rfl⟩ := made policy among
  have key : (req.policies.map Policy.policyKey)[idx]? =
      some (policyKeyDerive host (truths.map Truth.keyShare) masterSalt) := by
    rw [getElem?_map, h]
    rfl
  have opened := coreSecretRecover_coreSecretEncrypt host key emk
  have nonempty : rdps.emk.isEmpty = false :=
    isEmpty_eq_false_iff.mpr (sealedSecret_nonempty host (mem_of_getElem? emk))
  have recovered : coreSecretRecover host rdps.emk (policyKeyDerive host
      ((policyCreate host truths masterSalt).truths.map Truth.keyShare) rdps.salt)
      (r.encCoreSecret.getD []) = .ok (some req.coreSecret, req.coreSecret.length) := by
    rw [salt, shared.secret]
    exact opened
  simp only [recoverCoreSecret, shares, bind, Except.bind, nonempty, recovered]
  rfl

/-- Replacing a challenge by one of the same truth, whose key share is right if it counts. -/
private theorem Shared.replace {req : ShareRequest} {rnd : ShareRandomness} {r : Recovery}
    (shared : Shared host req rnd r) {pos : Nat} {c : Challenge}
    (h : r.cs[pos]? = some c) {replacement : Challenge}
    (eq : replacement.uuid = c.uuid) {solvedChallenges : List Nat}
    (right : ∀ place ∈ solvedChallenges,
      (place = pos → Holds req replacement.uuid replacement.keyShare) ∧
        (place ≠ pos → place ∈ r.solvedChallenges)) : Shared host req rnd { r with
      cs := r.cs.set pos replacement, solvedChallenges := solvedChallenges } := by
  refine ⟨shared.downloaded, shared.idData, shared.secret, fun dp mem => ?_,
    fun place listed y got => ?_⟩
  · obtain ⟨idx, policy, among, emk, salt, names⟩ := shared.policies dp mem
    refine ⟨idx, policy, among, emk, salt, names.imp fun place pt named => ?_⟩
    obtain ⟨old, at_place, uuid⟩ := named
    by_cases here : pos = place
    · subst here
      cases h.symm.trans at_place
      have below := (List.getElem?_eq_some_iff.mp h).1
      exact ⟨replacement, getElem?_set_self below, eq.trans uuid⟩
    · exact ⟨old, (getElem?_set_ne here).trans at_place, uuid⟩
  · simp only [getElem?_set] at got
    by_cases here : pos = place
    · rw [if_pos here] at got
      split_ifs at got with below
      · cases got
        exact (right place listed).1 here.symm
      · cases got
    · rw [if_neg here] at got
      exact shared.shares place ((right place listed).2 (Ne.symm here)) y got

structure Awaiting (request : ShareRequest) (id : UserIdentifier) (r : Recovery) : Prop where
  downloading : r.plo.isSome
  id : r.id = id
  idData : r.idData = request.idData
  blank : r.cs = []

/-- Nothing went wrong, and nothing but the shared secret was reported as a success. -/
structure Faithful (request : ShareRequest) (random : ShareRandomness) (id : UserIdentifier)
    (process : RecoveryProcess) : Prop where
  faultless : process.fault = none
  truthful : ∀ coreSecret size, CoreSecretReport.success coreSecret size ∈ process.reported →
    coreSecret = some request.coreSecret ∧ size = request.coreSecret.length
  current : ∀ r ∈ process.recovery, Awaiting request id r ∨ Shared host request random r

section Steps

variable {host} {request req : ShareRequest} {random rnd : ShareRandomness} {id : UserIdentifier}
  {process next : RecoveryProcess} {r : Recovery}

private theorem Faithful.onward (faithful : Faithful host req rnd id process)
    (told : next.reported = process.reported) (fault : next.fault = process.fault)
    (current : ∀ r ∈ next.recovery, Awaiting req id r ∨ Shared host req rnd r) :
    Faithful host req rnd id next where
  faultless := fault ▸ faithful.faultless
  truthful := told ▸ faithful.truthful
  current := current

private theorem Faithful.shared (faithful : Faithful host request random id process)
    (cur : process.recovery = some r) {pos : Nat} {c : Challenge}
    (h : r.cs[pos]? = some c) : Shared host request random r := by
  cases faithful.current r cur with
  | inl awaiting => simp [awaiting.blank] at h
  | inr shared => exact shared

private theorem Faithful.replaced (faithful : Faithful host req rnd id process)
    (cur : process.recovery = some r) {pos : Nat} {c replacement : Challenge}
    (h : r.cs[pos]? = some c) (operated : Operated c replacement)
    (told : List (Nat × ChallengeStartResponse)) : Faithful host req rnd id { process with
      recovery := some { r with cs := r.cs.set pos replacement }, feedback := told } := by
  have shared := faithful.shared cur h
  refine faithful.onward rfl rfl fun r' current' => .inr ?_
  cases Option.some.inj current'
  refine shared.replace host h operated.uuid fun place mem => ⟨?_, fun _ => mem⟩
  rintro rfl
  rw [operated.uuid, operated.keyShare]
  exact shared.shares place mem c h

private theorem Faithful.succeed (faithful : Faithful host request random id process)
    (cur : process.recovery = some r) {pos : Nat} {c : Challenge}
    (h : r.cs[pos]? = some c) (room : r.solvedChallenges.length < r.cs.length)
    (made : ∀ policy ∈ request.policies, ∃ truths salt, policy = policyCreate host truths salt)
    {eks : EncryptedKeyShare} {nonce : Nonce} {keyShare : KeyShare}
    (sealed : eks.val = keyshareEncrypt host nonce keyShare
      (userIdentifierDerive host request.idData c.providerSalt) c.answer)
    (holds : Holds request c.uuid keyShare) :
    Faithful host request random id (process.succeed host r pos c eks) := by
  have shared := faithful.shared cur h
  have opened := keyshareDecrypt_keyshareEncrypt host nonce keyShare _ _ eks sealed
  obtain ⟨after, solve, later⟩ : ∃ after, solveChallenge host r pos c eks = .ok after ∧
      Shared host request random after := by
    refine ⟨{ r with
      cs := r.cs.set pos { c with kslo := none, keyShare := keyShare, solved := true }
      solvedChallenges := r.solvedChallenges ++ [pos] }, ?_, ?_⟩
    · simp [solveChallenge, shared.idData, opened, room, bind, Except.bind, pure, Except.pure]
    refine shared.replace host h ?_ fun place mem => ⟨fun _ => holds, fun y => ?_⟩
    · rfl
    · simpa [y] using mem
  simp only [RecoveryProcess.succeed, solve]
  cases search : after.dps.find? fun dps => satisfied after.solvedChallenges dps.challenges with
  | none =>
    refine faithful.onward rfl rfl fun r' current' => .inr ?_
    cases Option.some.inj current'
    exact later
  | some rdps =>
    have complete := find?_some search
    have recovered := recoverCoreSecret_shared host later made
      (mem_of_find?_eq_some search) complete
    simp only [recovered]
    refine ⟨faithful.faultless, fun coreSecret size told => ?_, nofun⟩
    cases mem_append.mp told with
    | inl old => exact faithful.truthful coreSecret size old
    | inr new =>
      cases mem_singleton.mp new
      exact ⟨rfl, rfl⟩

private theorem policyLookupCb_honest (idSame : r.id = id) {nonce : Nonce} {document : Bytes}
    (packed : packDocument host (recoveryDocument host req rnd) = some document)
    {httpStatus : Nat} {dd : Option DownloadDetails}
    (honest : Honest host req (recoveryDocumentEncrypt host nonce id document) process
      (.policyLookup httpStatus dd)) : (∃ ver, policyLookupCb host r httpStatus dd =
        .ok (.accepted (sharedRecovery host req rnd ver r))) ∨
      ∃ st, policyLookupCb host r httpStatus dd = .ok (.rejected st) := by
  by_cases ran : httpStatus = 200
  · obtain ⟨dt, delivered, eq⟩ := honest ran
    cases downloaded : dt.policy with
    | none =>
      refine .inr ⟨.policyDownloadNoPolicy, ?_⟩
      simp [policyLookupCb, ran, mem_def.mp delivered, downloaded]
    | some policy =>
      simp only [policyLookupCb, ran, mem_def.mp delivered, downloaded, if_true]
      rw [eq policy downloaded, ← idSame]
      cases openDocument_stored_cases host dt.version packed with
      | inl accepted => exact .inl ⟨dt.version, accepted⟩
      | inr rejected => exact .inr rejected
  · simp only [policyLookupCb, if_neg ran]
    refine .inr ?_
    split_ifs <;> exact ⟨_, rfl⟩

theorem Faithful.step {solved : List Nat} {ev : RecoveryEvent}
    (faithful : Faithful host request random id process) (accounted : Accounted solved process)
    (made : ∀ policy ∈ request.policies, ∃ truths salt, policy = policyCreate host truths salt)
    {nonce : Nonce} {document : Bytes}
    (packed : packDocument host (recoveryDocument host request random) = some document)
    (step : Transition.Guarded (Honest host request (recoveryDocumentEncrypt host nonce id document))
      (Recovers host) process ev next) : Faithful host request random id next := by
  obtain ⟨honest, step⟩ := step
  obtain ⟨r, current, step⟩ := recovers_step host step
  have awaiting : r.plo.isSome → Awaiting request id r := by
    intro loading
    cases faithful.current r current with
    | inl awaiting => exact awaiting
    | inr shared => simp [shared.downloaded] at loading
  cases step with
  | crashed loading looked =>
    cases policyLookupCb_honest (awaiting loading).id packed honest with
    | inl accepted => simp [looked] at accepted
    | inr rejected => simp [looked] at rejected
  | rejected loading looked =>
    refine ⟨faithful.faultless, fun coreSecret size reported => ?_, nofun⟩
    cases mem_append.mp reported with
    | inl old => exact faithful.truthful coreSecret size old
    | inr new => cases mem_singleton.mp new
  | accepted loading looked =>
    have eq := (awaiting loading).idData
    cases policyLookupCb_honest (awaiting loading).id packed honest with
    | inl accepted =>
      obtain ⟨ver, accepted⟩ := accepted
      cases looked.symm.trans accepted
      refine faithful.onward rfl rfl fun r' current' => .inr ?_
      cases Option.some.inj current'
      exact sharedRecovery_shared host request random ver eq
    | inr rejected => simp [looked] at rejected
  | replaced unsolving h operated => exact faithful.replaced current h operated _
  | succeeded h st =>
    obtain ⟨nonce, keyShare, sealed, holds⟩ := honest r current _ h
    exact faithful.succeed current h (accounted.room current h st) made sealed holds
  | aborted => exact faithful.onward rfl rfl fun _ => nofun

end Steps

variable {pso : PolicyStoreOperation}

/-- What a share has uploaded to a provider is its document, sealed for the account there. -/
theorem secretShare_stored {req : ShareRequest} {rnd : ShareRandomness}
    {share : SecretShare} (ret : secretShare host req rnd = some share)
    {pss : PolicyStoreState} (mem : pss ∈ share.pss) (storing : pss.pso = some pso) :
    ∃ nonce document, packDocument host (recoveryDocument host req rnd) = some document ∧
      pso.postcopy = recoveryDocumentEncrypt host nonce
        (userIdentifierDerive host req.idData pss.serverSalt) document := by
  unfold secretShare at ret
  split at ret
  · cases ret
  simp only [bind_eq_bind, bind_eq_some_iff, Option.pure_def, Option.some.injEq] at ret
  obtain ⟨document, packed, states, started, rfl⟩ := ret
  suffices kept : ∃ nonce, pso.postcopy = recoveryDocumentEncrypt host nonce
      (userIdentifierDerive host req.idData pss.serverSalt) document by
    obtain ⟨nonce, kept⟩ := kept
    exact ⟨nonce, document, packed, kept⟩
  generalize req.providers = ps, 0 = x at started
  induction ps generalizing x states with
  | nil =>
    cases Option.some.inj started
    cases mem
  | cons prov rest ih =>
    simp only [startStores, bind_eq_bind, bind_eq_some_iff, Option.pure_def,
      Option.some.injEq] at started
    obtain ⟨st, startedState, ys, startedOthers, rfl⟩ := started
    cases mem_cons.mp mem with
    | inl eq =>
      subst eq
      obtain ⟨operation, kept, rfl⟩ := map_eq_some_iff.mp startedState
      cases Option.some.inj storing
      exact ⟨rnd.documentNonces x, (policyStore_document host kept).2.1⟩
    | inr later => exact ih ys later (x + 1) startedOthers

def downloaded (r : Recovery) : RecoveryProcess where
  recovery := some r
  announced := some (recoveryInformation r)
  feedback := []
  reported := []
  fault := none

theorem recovers_shared {req : ShareRequest} {rnd : ShareRandomness} {share : SecretShare}
    (ret : secretShare host req rnd = some share) {pss : PolicyStoreState}
    (mem : pss ∈ share.pss) (storing : pss.pso = some pso)
    (small : (host.jsonDumps (recoveryDocument host req rnd)).length < 2 ^ 32)
    (memory : host.mallocLarge (host.jsonDumps (recoveryDocument host req rnd)).length)
    (version : UInt32) :
    Recovers host (beginRecovery host req.idData version pss.anastasisUrl pss.serverSalt)
      (.policyLookup 200 (some { policy := some pso.postcopy, version := version }))
      (downloaded (sharedRecovery host req rnd version
        (recoveryBegin host req.idData version pss.anastasisUrl pss.serverSalt))) := by
  obtain ⟨nonce, document, packed, kept⟩ := secretShare_stored host ret mem storing
  have looked : policyLookupCb host
      (recoveryBegin host req.idData version pss.anastasisUrl pss.serverSalt) 200
      (some { policy := some pso.postcopy, version := version }) =
        .ok (.accepted (sharedRecovery host req rnd version
          (recoveryBegin host req.idData version pss.anastasisUrl pss.serverSalt))) := by
    rw [kept]
    exact openDocument_stored host version packed small memory
  simp only [Recovers, RecoveryProcess.deliver, beginRecovery, bind_eq_bind, bind_some, looked]
  rfl

private theorem jsonDumps_plain {v : Json} (canonical : v.Canonical) :
    Host.plain.jsonDumps v = (v.print (jansson .upper)).flatMap String.utf8EncodeChar := by
  change janssonDumps .upper _ = _
  rw [janssonDumps, Json.arrange_of_canonical canonical, Utf8.encode, String.toList_ofList]

theorem secretShare_plain (policies : List Policy) : ∃ share pss pso,
      secretShare .plain { singleShare with policies := policies } zeroRandomness = some share ∧
        pss ∈ share.pss ∧ pss.pso = some pso := by
  obtain ⟨share, ret⟩ : ∃ share,
      secretShare .plain { singleShare with policies := policies } zeroRandomness = some share :=
    isSome_iff_exists.mp rfl
  have fresh := secretShare_fresh .plain ret
  obtain ⟨pss, mem⟩ := exists_mem_of_ne_nil _ fresh.nonempty
  obtain ⟨l, h⟩ := getElem?_of_mem mem
  obtain ⟨pso, storing, _⟩ := fresh.each l pss h
  exact ⟨share, pss, pso, ret, mem, storing⟩

def questionTruth : Truth where
  uuid := zeroBlock 32
  keyShare := zeroBlock 32
  nonce := zeroBlock 24
  truthKey := zeroBlock 64
  providerSalt := zeroBlock 16
  salt := zeroBlock 16
  url := "http://provider.example/"
  type := "question"
  instructions := "Name?"
  mimeType := none

def questionShare : ShareRequest :=
  { singleShare with policies := [policyCreate .plain [questionTruth] (zeroBlock 64)] }

theorem questionShare_small :
    (Host.plain.jsonDumps (recoveryDocument .plain questionShare zeroRandomness)).length <
      2 ^ 32 := by
  rw [jsonDumps_plain (canonical_recoveryDocument _ _ _)]
  decide +kernel

end Anastasis.Client
