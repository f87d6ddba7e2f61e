import Anastasis.Client.RecoveredSecret
import Anastasis.Client.RecoveryState

/-! What comes back when a recovery is written as JSON and read again. -/

set_option autoImplicit false

namespace Anastasis.Client

open Library List Option

variable (host : Host)

/-- The place in one list names the same truth as the place in the other. -/
def SameTruth (cs restored : List Challenge) (position place : Nat) : Prop :=
  ∃ c other, cs[position]? = some c ∧ restored[place]? = some other ∧ other.uuid = c.uuid

structure SamePolicy (cs restored : List Challenge) (dp other : DecryptionPolicy) : Prop where
  emk : other.emk = dp.emk
  salt : other.salt = dp.salt
  challenges : List.Forall₂ (SameTruth cs restored) dp.challenges other.challenges

structure SameChallenge (c other : Challenge) : Prop where
  uuid : other.uuid = c.uuid
  truthKey : other.truthKey = c.truthKey
  salt : other.salt = c.salt
  providerSalt : other.providerSalt = c.providerSalt
  url : other.url = c.url
  type : other.type = c.type
  instructions : other.instructions = c.instructions
  solved : other.solved = c.solved
  async : other.async = c.async
  keyShare : c.solved = true → other.keyShare = c.keyShare

structure Restores (r restored : Recovery) : Prop where
  id : restored.id = r.id
  idData : restored.idData = r.idData
  providerUrl : restored.providerUrl = r.providerUrl
  secretName : restored.secretName = r.secretName
  version : restored.version = r.version
  policies : List.Forall₂ (SamePolicy r.cs restored.cs) r.dps restored.dps
  challenges : List.Forall₂ SameChallenge r.cs restored.cs
  solvedPos : restored.solvedChallenges.length = r.solvedChallenges.length
  solved : ∀ position, position ∈ restored.solvedChallenges ↔ position ∈ r.solvedChallenges

def RoundTrips (stack : Uninitialised) (r : Recovery) : Prop :=
  ∃ input restored, recoverySerialize host r = .ok input ∧
    recoveryDeserialize host stack input = .ok (some restored) ∧ Restores r restored

structure Sound (attributes : List (String × Json)) (r : Recovery) : Prop where
  idData : r.idData = .object attributes
  sealed : ∀ dp ∈ r.dps, dp.emk ≠ []
  inside : ∀ dp ∈ r.dps, ∀ position ∈ dp.challenges, position < r.cs.length

def restoredChallenge (c : Challenge) : Challenge :=
  { c with keyShare := if c.solved then c.keyShare else zeroBlock 32, answer := none, kslo := none }

theorem deserializeChallenge_serializeChallenge (c : Challenge) :
    deserializeChallenge host (serializeChallenge host c) = some (restoredChallenge c) := by
  cases solved : c.solved <;>
    simp [deserializeChallenge, serializeChallenge, parseFixed, parseString, parseOptional,
      packObject, packData, packString, packBool, Json.member?_ofFields, Json.string?,
      Json.boolean?, host.stringToData_dataToString, restoredChallenge, solved]

theorem restoredChallenge_same (c : Challenge) : SameChallenge c (restoredChallenge c) :=
  ⟨rfl, rfl, rfl, rfl, rfl, rfl, rfl, rfl, rfl, fun solved => if_pos solved⟩

variable {cs : List Challenge}

private theorem lastChallenge_found {uuid : TruthUuid} {i : Nat} {h : Option Nat}
    {place : Nat} (last : lastChallenge uuid i cs h = some place) :
    h = some place ∨ i ≤ place ∧ ∃ c, cs[place - i]? = some c ∧ c.uuid = uuid := by
  induction cs generalizing i h with
  | nil => exact .inl last
  | cons c rest ih =>
    cases ih last with
    | inl here =>
      split at here
      · rename_i eq
        cases here
        exact .inr ⟨le_rfl, c, by simp, eq⟩
      · exact .inl here
    | inr later =>
      obtain ⟨after, y, at_place, eq⟩ := later
      refine .inr ⟨by omega, y, ?_, eq⟩
      rw [show place - i = (place - (i + 1)) + 1 by omega, getElem?_cons_succ]
      exact at_place

private theorem lastChallenge_isSome {uuid : TruthUuid} {i : Nat} {h : Option Nat}
    (has : h.isSome ∨ ∃ c ∈ cs, c.uuid = uuid) : (lastChallenge uuid i cs h).isSome := by
  induction cs generalizing i h with
  | nil =>
    cases has with
    | inl h => exact h
    | inr listed =>
      obtain ⟨_, no, _⟩ := listed
      cases no
  | cons c rest ih =>
    refine ih ?_
    cases has with
    | inl h => exact .inl (by split <;> simp [h])
    | inr listed =>
      obtain ⟨y, mem, eq⟩ := listed
      cases mem_cons.mp mem with
      | inl here => exact .inl (by simp [here ▸ eq])
      | inr later => exact .inr ⟨y, later, eq⟩

private theorem reference_roundTrip {position : Nat} (mem : position < cs.length) :
    ∃ json place, serializeReference host cs position = .ok json ∧
      deserializeReference host (cs.map restoredChallenge) json = some place ∧
      SameTruth cs (cs.map restoredChallenge) position place := by
  have at_position := getElem?_eq_getElem mem
  generalize cs[position] = c at at_position
  have listed : ∃ y ∈ cs.map restoredChallenge, y.uuid = c.uuid :=
    ⟨restoredChallenge c, List.mem_map_of_mem (mem_of_getElem? at_position), rfl⟩
  have h : (lastChallenge c.uuid 0 (cs.map restoredChallenge) none).isSome :=
    lastChallenge_isSome (.inr listed)
  obtain ⟨place, last⟩ := isSome_iff_exists.mp h
  refine ⟨packObject [("uuid", packData host c.uuid.val)], place, ?_, ?_, ?_⟩
  · rw [serializeReference, at_position]
  · simp [deserializeReference, parseFixed, parseString, packObject, packData,
      Json.member?_ofFields, Json.string?, host.stringToData_dataToString, last]
  cases lastChallenge_found last with
  | inl no => cases no
  | inr h =>
    obtain ⟨_, y, at_place, eq⟩ := h
    exact ⟨c, y, at_position, at_place, eq⟩

private theorem policy_roundTrip {dp : DecryptionPolicy} (sealed : dp.emk ≠ [])
    (inside : ∀ pos ∈ dp.challenges, pos < cs.length) :
    ∃ json other, serializePolicy host cs dp = .ok json ∧
      deserializePolicy host (cs.map restoredChallenge) json = .ok (some other) ∧
      SamePolicy cs (cs.map restoredChallenge) dp other := by
  have each : ∀ pos ∈ dp.challenges, ∃ pair : Json × Nat,
      serializeReference host cs pos = .ok pair.1 ∧
        deserializeReference host (cs.map restoredChallenge) pair.1 = some pair.2 ∧
        SameTruth cs (cs.map restoredChallenge) pos pair.2 := by
    intro pos mem
    obtain ⟨json, place, h⟩ := reference_roundTrip host (inside pos mem)
    exact ⟨(json, place), h⟩
  obtain ⟨pairs, paired⟩ := exists_forall₂ each
  have written : dp.challenges.mapM (serializeReference host cs) = .ok (pairs.map Prod.fst) := by
    rw [mapM_eq_ok_iff, List.forall₂_map_right_iff]
    exact paired.imp fun _ _ h => h.1
  have read : (pairs.map Prod.fst).mapM (deserializeReference host (cs.map restoredChallenge)) =
      some (pairs.map Prod.snd) := by
    rw [mapM_eq_some_iff, List.forall₂_map_left_iff, List.forall₂_map_right_iff]
    refine List.forall₂_same.mpr fun pair mem => ?_
    obtain ⟨_, _, h⟩ := forall₂_mem_right paired mem
    exact h.2.1
  refine ⟨packPolicy host dp (pairs.map Prod.fst),
    { challenges := pairs.map Prod.snd, emk := dp.emk, salt := dp.salt }, ?_, ?_, rfl, rfl, ?_⟩
  · rw [serializePolicy, written]
    rfl
  · simp [deserializePolicy, packPolicy, parseVarsize, parseFixed, parseString, packObject,
      packData, packArray, Json.member?_ofFields, Json.string?, Json.array?,
      host.stringToData_dataToString, host.stringToVarsize_dataToString, sealed, read]
  · rw [List.forall₂_map_right_iff]
    exact paired.imp fun _ _ h => h.2.2

variable {attributes attrs : List (String × Json)} {r : Recovery}

private theorem policies_roundTrip (sound : Sound attrs r) :
    ∃ json dps, r.dps.mapM (serializePolicy host r.cs) = .ok json ∧
      collect (deserializePolicy host (r.cs.map restoredChallenge)) json = .ok (some dps) ∧
      List.Forall₂ (SamePolicy r.cs (r.cs.map restoredChallenge)) r.dps dps := by
  have each : ∀ dp ∈ r.dps, ∃ pair : Json × DecryptionPolicy,
      serializePolicy host r.cs dp = .ok pair.1 ∧
        deserializePolicy host (r.cs.map restoredChallenge) pair.1 = .ok (some pair.2) ∧
        SamePolicy r.cs (r.cs.map restoredChallenge) dp pair.2 := by
    intro dp mem
    obtain ⟨json, y, h⟩ := policy_roundTrip host (sound.sealed dp mem) (sound.inside dp mem)
    exact ⟨(json, y), h⟩
  obtain ⟨pairs, paired⟩ := exists_forall₂ each
  refine ⟨pairs.map Prod.fst, pairs.map Prod.snd, ?_, ?_, ?_⟩
  · rw [mapM_eq_ok_iff, List.forall₂_map_right_iff]
    exact paired.imp fun _ _ h => h.1
  · rw [collect_eq_ok_iff, List.forall₂_map_left_iff, List.forall₂_map_right_iff]
    refine List.forall₂_same.mpr fun pair mem => ?_
    obtain ⟨_, _, h⟩ := forall₂_mem_right paired mem
    exact h.2.1
  · rw [List.forall₂_map_right_iff]
    exact paired.imp fun _ _ h => h.2.2

theorem parseUint32_packed {object : Json} {field : String} {value : UInt32}
    (packed : object.member? field = some (.number value.toNat)) :
    parseUint32 object field = some value := by
  simp only [parseUint32, packed, bind_eq_bind, bind_some, Json.number?]
  rw [if_pos value.toNat_lt_size, UInt32.ofNat_toNat]

theorem member?_packRecovery (r : Recovery) (dps : List Json) (idData coreSecret : Json) :
    let input := packRecovery host r dps idData coreSecret
    input.member? "id" = packData host r.id.val ∧ input.member? "dps" = some (.array dps) ∧
      input.member? "cs" = some (.array (r.cs.map (serializeChallenge host))) ∧
      input.member? "version" = some (.number r.version.toNat) ∧
      input.member? "id_data" = some idData ∧
      input.member? "provider_url" = some (.string r.providerUrl) ∧
      input.member? "secret_name" = r.secretName.map Json.string ∧
      input.member? "core_secret" = some coreSecret := by
  cases named : r.secretName <;>
    simp [packRecovery, packObject, packArray, packData, packString, packUint,
      Json.member?_ofFields, named]

/-- The name that is read: a name that is absent is whatever the variable holds. -/
def readName (stack : Uninitialised) : Option String → Except Fault (Option String)
  | some name => .ok (some name)
  | none => stack.duplicate

/-- Writing succeeds once the document is there, and everything but the name is read as it
was written. -/
theorem recoveryDeserialize_recoverySerialize (sound : Sound attributes r) {encCoreSecret : Bytes}
    (downloaded : r.encCoreSecret = some encCoreSecret) :
    ∃ (input : Json) (restored : Option String → Recovery), recoverySerialize host r = .ok input ∧
      (∀ stack, recoveryDeserialize host stack input =
        (readName stack r.secretName).map fun name => some (restored name)) ∧
      ∀ name, (restored name).id = r.id ∧ (restored name).idData = r.idData ∧
        (restored name).providerUrl = r.providerUrl ∧ (restored name).secretName = name ∧
        (restored name).version = r.version ∧ (restored name).cs = r.cs.map restoredChallenge ∧
        (restored name).solvedChallenges = solvedPlaces (r.cs.map restoredChallenge) ∧
        List.Forall₂ (SamePolicy r.cs (r.cs.map restoredChallenge)) r.dps (restored name).dps := by
  obtain ⟨json, dps, written, read, eq⟩ := policies_roundTrip host sound
  have challenges : (r.cs.map (serializeChallenge host)).mapM (deserializeChallenge host) =
      some (r.cs.map restoredChallenge) := by
    rw [mapM_eq_some_iff, List.forall₂_map_left_iff, List.forall₂_map_right_iff]
    exact List.forall₂_same.mpr fun c _ => deserializeChallenge_serializeChallenge host c
  refine ⟨packRecovery host r json (.object attributes) (.string (host.dataToString encCoreSecret)),
    fun name => {
      id := r.id, idData := r.idData, providerUrl := r.providerUrl, secretName := name
      version := r.version, dps := dps, cs := r.cs.map restoredChallenge
      solvedChallenges := solvedPlaces (r.cs.map restoredChallenge)
      encCoreSecret := if encCoreSecret.isEmpty then none else some encCoreSecret
      plo := if dps.isEmpty then some (policyLookup host r.providerUrl
        (host.eddsaKeyGetPublic (accountPrivateKeyDerive host r.id)) r.version) else none }, ?_,
    fun stack => ?_, fun name => ⟨rfl, rfl, rfl, rfl, rfl, rfl, rfl, eq⟩⟩
  · rw [recoverySerialize, written, sound.idData, downloaded]
    rfl
  obtain ⟨id, dpsArr, csArr, version, idData, providerUrl, secretName, ecs⟩ :=
    member?_packRecovery host r json (.object attributes)
      (.string (host.dataToString encCoreSecret))
  generalize packRecovery host r json (.object attributes)
    (.string (host.dataToString encCoreSecret)) = input at *
  have parsedName : parseOptional Json.string? input "secret_name" = some r.secretName := by
    rw [parseOptional, secretName]
    cases r.secretName <;> rfl
  have parsedVersion := parseUint32_packed version
  have parsed : parseFixed host 64 input "id" = some r.id ∧
      parseString input "provider_url" = some r.providerUrl ∧
      parseVarsize host input "core_secret" = some encCoreSecret ∧
      parseCsArray host (.array (r.cs.map (serializeChallenge host))) =
        some (r.cs.map restoredChallenge) := by
    simp [parseFixed, parseString, parseVarsize, id, providerUrl, ecs, packData, Json.string?,
      host.stringToData_dataToString, host.stringToVarsize_dataToString, parseCsArray,
      Json.array?, challenges]
  obtain ⟨parsedId, parsedUrl, parsedSecret, parsedChallenges⟩ := parsed
  simp only [recoveryDeserialize, parsedId, parsedUrl, parsedName, parsedVersion, dpsArr, csArr,
    idData, parsedSecret, parsedChallenges, parseDpsArray, Json.array?, read, sound.idData,
    bind_eq_bind, bind_some, Option.pure_def]
  cases r.secretName with
  | some name => rfl
  | none =>
    rw [readName]
    cases stack.duplicate <;> rfl

private theorem findChallenge_inside {uuid : Json} {place : Nat}
    (h : findChallenge host cs uuid = some place) : place < cs.length := by
  simp only [findChallenge, bind_eq_bind, bind_eq_some_iff] at h
  obtain ⟨_, _, _, _, h⟩ := h
  exact (findIdx?_eq_some_iff_findIdx_eq.mp h).1

private theorem parsePolicy_sound {policy : Json} {dp : DecryptionPolicy}
    (parsed : parsePolicy host cs policy = .ok (some dp)) :
    dp.emk ≠ [] ∧ ∀ pos ∈ dp.challenges, pos < cs.length := by
  unfold parsePolicy at parsed
  simp only at parsed
  split at parsed
  · cases parsed
  split at parsed
  · cases parsed
  rename_i nonempty
  obtain ⟨challenges, mapped, rfl⟩ := map_eq_some_iff.mp (Except.ok.inj parsed)
  refine ⟨fun empty => nonempty (List.isEmpty_iff.mpr empty), fun pos mem => ?_⟩
  obtain ⟨_, _, h⟩ := mapM_eq_some_mem mapped mem
  exact findChallenge_inside host h

theorem policyLookupCb_policies {next : Recovery} {httpStatus : Nat} {dd : Option DownloadDetails}
    (accepted : policyLookupCb host r httpStatus dd = .ok (.accepted next)) :
    next.idData = r.idData ∧ ∀ dp ∈ next.dps,
      dp.emk ≠ [] ∧ ∀ pos ∈ dp.challenges, pos < next.cs.length := by
  obtain ⟨_, _, _, _, opened⟩ := policyLookupCb_accepted host accepted
  obtain ⟨_, _, _, _, _, _, _, _, _, read⟩ := openDocument_accepted host opened
  obtain ⟨_, _, cs, dps, _, _, _, policies, rfl⟩ := readDocument_eq_ok host read
  refine ⟨rfl, fun dp mem => ?_⟩
  obtain ⟨_, _, parsed⟩ := forall₂_mem_right (collect_eq_ok_iff.mp policies) mem
  exact parsePolicy_sound host parsed

theorem sound_run {ver : UInt32} {providerUrl : String} {providerSalt : ProviderSalt}
    {events : List RecoveryEvent} {process : RecoveryProcess}
    (run : Transition.Run (Recovers host) (beginRecovery host (.object attributes) ver
      providerUrl providerSalt) events process) : ∀ r ∈ process.recovery, Sound attributes r := by
  refine run.invariant (fun process => ∀ r ∈ process.recovery, Sound attributes r) ?_
    fun process ev next sound step => ?_
  · intro r begun
    cases Option.some.inj begun
    exact ⟨rfl, nofun, nofun⟩
  obtain ⟨r, current, step⟩ := recovers_step host step
  have pre := sound r current
  intro r' current'
  cases step with
  | crashed loading looked => cases current'
  | rejected loading looked => cases current'
  | aborted => cases current'
  | accepted loading looked =>
    cases Option.some.inj current'
    obtain ⟨idData, each⟩ := policyLookupCb_policies host looked
    exact ⟨idData.trans pre.idData, fun dp mem => (each dp mem).1, fun dp mem => (each dp mem).2⟩
  | replaced unsolving h operated =>
    cases Option.some.inj current'
    exact ⟨pre.idData, pre.sealed, by simpa using pre.inside⟩
  | succeeded h st =>
    obtain ⟨idData, dps, length⟩ := succeed_recovery host current'
    refine ⟨idData.trans pre.idData, fun dp mem => ?_, fun dp mem => ?_⟩
    · exact pre.sealed dp (dps ▸ mem)
    · rw [length]
      exact pre.inside dp (dps ▸ mem)

private theorem solvedPlaces_perm {solved : List Nat} (ledger : Ledger solved r)
    (apart : solved.Nodup) :
    (solvedPlaces (r.cs.map restoredChallenge)).Perm r.solvedChallenges := by
  rw [ledger.listed]
  refine (perm_ext_iff_of_nodup nodup_findIdxs apart).mpr fun pos => ?_
  rw [mem_findIdxs_iff_exists_getElem_pos]
  constructor
  · rintro ⟨below, flagged⟩
    rw [length_map] at below
    rw [getElem_map] at flagged
    exact (ledger.flagged pos _ (getElem?_eq_getElem below)).mp flagged
  intro mem
  have below := ledger.inside pos mem
  refine ⟨by rwa [length_map], ?_⟩
  rw [getElem_map]
  exact (ledger.flagged pos _ (getElem?_eq_getElem below)).mpr mem

private theorem roundTrips_iff_readName {solved : List Nat} (sound : Sound attrs r)
    (ledger : Ledger solved r) (apart : solved.Nodup) (downloaded : r.encCoreSecret.isSome)
    (stack : Uninitialised) :
    RoundTrips host stack r ↔ readName stack r.secretName = .ok r.secretName := by
  obtain ⟨encCoreSecret, downloaded⟩ := isSome_iff_exists.mp downloaded
  obtain ⟨input, restored, written, read, fields⟩ :=
    recoveryDeserialize_recoverySerialize host sound downloaded
  constructor
  · intro roundTrips
    obtain ⟨input', restored', written', read', restores⟩ := roundTrips
    cases written.symm.trans written'
    rw [read] at read'
    cases held : readName stack r.secretName with
    | error fault => simp [held, Except.map] at read'
    | ok name =>
      simp only [held, Except.map, Except.ok.injEq, Option.some.injEq] at read'
      subst read'
      rw [← restores.secretName, (fields name).2.2.2.1]
  · intro name
    obtain ⟨id, idData, providerUrl, secretName, ver, cs, places, policies⟩ := fields r.secretName
    have perm := solvedPlaces_perm ledger apart
    refine ⟨input, restored r.secretName, written, by rw [read, name]; rfl, id, idData,
      providerUrl, secretName, ver, by rwa [cs], ?_, ?_, fun pos => ?_⟩
    · rw [cs, List.forall₂_map_right_iff]
      exact List.forall₂_same.mpr fun c _ => restoredChallenge_same c
    · rw [places]
      exact perm.length_eq
    · rw [places]
      exact perm.mem_iff

/-- A recovery round trips exactly when its document was downloaded and has a name for the
secret, or the variable for the name happens to hold a null pointer. -/
theorem roundTrips_iff {attributes : List (String × Json)} {version : UInt32}
    {providerUrl : String} {providerSalt : ProviderSalt} {events : List RecoveryEvent}
    {process : RecoveryProcess} (run : Transition.Run (Recovers host)
      (beginRecovery host (.object attributes) version providerUrl providerSalt) events process)
    {r : Recovery} (current : process.recovery = some r) (stack : Uninitialised) :
    RoundTrips host stack r ↔ r.encCoreSecret.isSome ∧ (r.secretName.isSome ∨ stack = .null) := by
  have sound := sound_run host run r current
  have accounted := accounted_run host run
  have ledger := (accounted.current r current).ledger
  cases downloaded : r.encCoreSecret with
  | none =>
    refine iff_of_false (fun roundTrips => ?_) (fun condition => by simp at condition)
    obtain ⟨input, _, written, _, _⟩ := roundTrips
    obtain ⟨json, _, policies, _, _⟩ := policies_roundTrip host sound
    rw [recoverySerialize, policies, sound.idData, downloaded] at written
    cases written
  | some encCoreSecret =>
    rw [roundTrips_iff_readName host sound ledger accounted.distinct (downloaded ▸ rfl)]
    cases r.secretName with
    | some name => simp [readName]
    | none => cases stack <;> simp [readName, Uninitialised.duplicate]

def questionRecovery (pss : PolicyStoreState) : Recovery :=
  sharedRecovery .plain questionShare zeroRandomness 0
    (recoveryBegin .plain questionShare.idData 0 pss.anastasisUrl pss.serverSalt)

/-- With a null pointer in the variable, a recovery whose secret has no name round trips. -/
theorem roundTrips_iff_question :
    ∃ share pss, secretShare .plain questionShare zeroRandomness = some share ∧ pss ∈ share.pss ∧
      RoundTrips .plain .null (questionRecovery pss) := by
  obtain ⟨share, pss, pso, returned, member, storing⟩ := secretShare_plain
    [policyCreate .plain [questionTruth] (zeroBlock 64)]
  have downloads := recovers_shared .plain returned member storing questionShare_small rfl 0
  exact ⟨share, pss, returned, member,
    (roundTrips_iff .plain (.next .start downloads) rfl .null).mpr ⟨rfl, .inr rfl⟩⟩

/-- With anything else in the variable, the secret gets that as its name. -/
theorem nameless_secret_named :
    ∃ share pss process, secretShare .plain questionShare zeroRandomness = some share ∧
      pss ∈ share.pss ∧ (∃ events, Transition.Run (Recovers .plain)
        (beginRecovery .plain questionShare.idData 0 pss.anastasisUrl pss.serverSalt) events
          process) ∧ process.recovery = some (questionRecovery pss) ∧
      ¬ RoundTrips .plain (.text "core_secret") (questionRecovery pss) := by
  obtain ⟨share, pss, pso, returned, member, storing⟩ := secretShare_plain
    [policyCreate .plain [questionTruth] (zeroBlock 64)]
  have downloads := recovers_shared .plain returned member storing questionShare_small rfl 0
  have run := Transition.Run.next .start downloads
  have sound := sound_run .plain run _ rfl
  have accounted := accounted_run .plain run
  refine ⟨share, pss, _, returned, member, ⟨_, run⟩, rfl, fun roundTrips => ?_⟩
  have named := (roundTrips_iff_readName .plain sound (accounted.current _ rfl).ledger
    accounted.distinct rfl (.text "core_secret")).mp roundTrips
  cases named

end Anastasis.Client
