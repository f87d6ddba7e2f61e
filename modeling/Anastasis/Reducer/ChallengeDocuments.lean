import Anastasis.Reducer.Challenges

/-! The challenges that the document of a state lists, and what reading and writing the document
does to them. -/

set_option autoImplicit false

namespace Anastasis.Reducer.Challenges

open Library Client List Option

variable (host : Host)

def RecoveryState.listed (state : RecoveryState) : List (Option TruthUuid) :=
  state.csItems.map fun c => parseFixed host 32 c "uuid"

def uuids (r : Recovery) : List TruthUuid := r.cs.map Challenge.uuid

section Search

variable {host} {state st : RecoveryState} {uuid y : TruthUuid} {place : Nat}

theorem findChallengeInCs_isSome_iff :
    (findChallengeInCs host st uuid).isSome ↔ some uuid ∈ st.listed host := by
  unfold findChallengeInCs RecoveryState.listed
  rw [findIdx?_isSome, List.any_eq_true, List.mem_map]
  simp only [decide_eq_true_eq]

theorem findChallengeInCs_found (h : findChallengeInCs host st uuid = some place) :
    ∃ c, st.csItems[place]? = some c ∧ parseFixed host 32 c "uuid" = some uuid := by
  unfold findChallengeInCs at h
  obtain ⟨mem, eq, _⟩ := findIdx?_eq_some_iff_getElem.mp h
  exact ⟨_, getElem?_eq_getElem mem, of_decide_eq_true eq⟩

theorem findChallengeInCs_inside (h : findChallengeInCs host st uuid = some place) :
    place < st.csItems.length := by
  obtain ⟨_, present, _⟩ := findChallengeInCs_found h
  exact (List.getElem?_eq_some_iff.mp present).1

end Search

/-! ## Setting a field -/

section Setting

variable {host} {state st : RecoveryState} {place : Nat} {name : String} {field : Json}

theorem csItems_setInCs (mem : place < st.csItems.length) : (st.setInCs place name field).csItems =
      st.csItems.modify place fun item => item.setField name field := by
  unfold RecoveryState.csItems RecoveryState.setInCs at *
  cases isDocument : st.recoveryDocument with
  | none => simp [isDocument] at mem
  | some rd =>
    rw [isDocument] at mem
    exact Json.itemsAt_setItemField mem name field

theorem listed_setInCs (mem : place < st.csItems.length) (ne : name ≠ "uuid") :
    (st.setInCs place name field).listed host = st.listed host := by
  unfold RecoveryState.listed
  rw [csItems_setInCs mem]
  apply ext_getElem?
  intro idx
  rw [getElem?_map, getElem?_map, getElem?_modify]
  cases st.csItems[idx]? with
  | none => rfl
  | some item =>
    by_cases here : place = idx
    · simp [here, parseFixed, parseString, Json.member?_setField_ne item ne.symm field]
    · simp [here]

end Setting

/-! ## Reading and writing the document -/

section Documents

variable {host} {stack : Uninitialised} {rd : Json} {r : Recovery} {state st : RecoveryState}

theorem deserializeChallenge_fields {item : Json} {c : Challenge}
    (parsed : deserializeChallenge host item = some c) :
    parseFixed host 32 item "uuid" = some c.uuid ∧
      (parseOptional Json.boolean? item "async").map (·.getD false) = some c.async ∧ c.kslo = none ∧
      ∃ keyShare, parseOptional (fun v => v.string?.bind (host.stringToData 32)) item
        "key_share" = some keyShare ∧ c.solved = keyShare.isSome := by
  simp only [deserializeChallenge, bind_eq_bind, bind_eq_some_iff, Option.pure_def,
    Option.some.injEq] at parsed
  obtain ⟨uuid, isUuid, _, _, _, _, _, _, _, _, _, _, _, _, async, isAsync, keyShare, isShare,
    rfl⟩ := parsed
  exact ⟨isUuid, by rw [isAsync]; rfl, rfl, keyShare, isShare, rfl⟩

theorem lastChallenge_inside {uuid : TruthUuid} {i : Nat} {cs : List Challenge}
    {h : Option Nat} {place : Nat} (last : lastChallenge uuid i cs h = some place)
    (pre : ∀ place ∈ h, place < i) : place < i + cs.length := by
  induction cs generalizing i h with
  | nil => exact pre place last
  | cons c rest ih =>
    have below := ih last
    rw [length_cons]
    rw [Nat.add_right_comm, Nat.add_assoc] at below
    apply below
    intro y isO
    split at isO
    · cases isO
      exact Nat.lt_succ_self _
    · exact Nat.lt_succ_of_lt (pre y isO)

theorem deserializePolicy_sound {cs : List Challenge} {dps : Json} {dp : DecryptionPolicy}
    (parsed : deserializePolicy host cs dps = .ok (some dp)) :
    dp.emk ≠ [] ∧ ∀ pos ∈ dp.challenges, pos < cs.length := by
  unfold deserializePolicy at parsed
  dsimp only at parsed
  split at parsed
  next => cases parsed
  next =>
    split at parsed
    next => cases parsed
    next nonempty =>
      have inside := Except.ok.inj parsed
      simp only [bind_eq_bind, bind_eq_some_iff, Option.pure_def, Option.some.injEq] at inside
      obtain ⟨items, _, challenges, mapped, rfl⟩ := inside
      constructor
      · exact fun empty => nonempty (List.isEmpty_iff.mpr empty)
      intro pos mem
      obtain ⟨item, _, h⟩ := mapM_eq_some_mem mapped mem
      simp only [deserializeReference, bind_eq_bind, bind_eq_some_iff] at h
      obtain ⟨uuid, _, last⟩ := h
      simpa using lastChallenge_inside last (by simp)

/-- What a recovery that was read from a document has in common with it. -/
structure ReadFrom (host : Host) (rd : Json) (r : Recovery) : Prop where
  items : List.Forall₂ (fun item c => deserializeChallenge host item = some c)
    (rd.itemsAt "cs") r.cs
  policies : ∀ dp ∈ r.dps, dp.emk ≠ [] ∧ ∀ position ∈ dp.challenges, position < r.cs.length
  solved : r.solvedChallenges = solvedPlaces r.cs
  lookup : r.plo.isSome = r.dps.isEmpty

theorem recoveryDeserialize_readFrom
    (read : recoveryDeserialize host stack rd = .ok (some r)) : ReadFrom host rd r := by
  unfold recoveryDeserialize at read
  dsimp only at read
  split at read
  next => cases read
  next parsed =>
    simp only [bind_eq_bind, bind_eq_some_iff, Option.pure_def, Option.some.injEq,
      Prod.mk.injEq] at parsed
    obtain ⟨_, _, _, _, _, _, _, _, dpsArr, _, csArr, isCs, _, _, _, _, cs, parsedCs, rfl, rfl,
      rfl, rfl, rfl, rfl, rfl, rfl⟩ := parsed
    unfold parseCsArray at parsedCs
    simp only [bind_eq_bind, bind_eq_some_iff] at parsedCs
    obtain ⟨items, isItems, mapped⟩ := parsedCs
    have listed : rd.itemsAt "cs" = items := by
      rw [Json.itemsAt, isCs, bind_some, isItems]
      rfl
    cases parsedDps : parseDpsArray host cs dpsArr with
    | error fault =>
      rw [parsedDps] at read
      cases read
    | ok dps =>
      rw [parsedDps] at read
      cases dps with
      | none => cases read
      | some dps =>
        have policies : ∀ dp ∈ dps, dp.emk ≠ [] ∧ ∀ pos ∈ dp.challenges, pos < cs.length := by
          intro dp mem
          unfold parseDpsArray at parsedDps
          split at parsedDps
          next => cases parsedDps
          next items isArray =>
            obtain ⟨item, _, h⟩ := forall₂_mem_right (collect_eq_ok_iff.mp parsedDps) mem
            exact deserializePolicy_sound h
        have shape : r.cs = cs ∧ r.dps = dps ∧ r.solvedChallenges = solvedPlaces cs ∧
            r.plo.isSome = dps.isEmpty := by
          have lookup : ∀ plo : String,
              (if dps.isEmpty then some plo else none).isSome = dps.isEmpty := by
            intro plo
            cases dps.isEmpty
            · rfl
            · rfl
          simp only [bind, Except.bind] at read
          split at read
          next =>
            cases read
            exact ⟨rfl, rfl, rfl, lookup _⟩
          next =>
            split at read
            next => cases read
            next =>
              cases read
              exact ⟨rfl, rfl, rfl, lookup _⟩
        obtain ⟨rfl, rfl, solved, lookup⟩ := shape
        constructor
        · rw [listed]
          exact mapM_eq_some_iff.mp mapped
        · exact policies
        · exact solved
        · exact lookup

theorem ReadFrom.listed (readFrom : ReadFrom host rd r)
    (isDocument : st.recoveryDocument = some rd) : st.listed host = (uuids r).map some := by
  unfold RecoveryState.listed uuids
  rw [RecoveryState.csItems, isDocument, map_some, getD_some, List.map_map]
  apply List.forall₂_eq_eq_eq ▸ List.forall₂_map_left_iff.mpr (List.forall₂_map_right_iff.mpr _)
  exact readFrom.items.imp fun item c parsed => (deserializeChallenge_fields parsed).1

theorem recoverySerialize_eq_ok (written : recoverySerialize host r = .ok rd) :
    ∃ dps attrs encCoreSecret, r.dps.mapM (serializePolicy host r.cs) = .ok dps ∧
      r.idData = .object attrs ∧ r.encCoreSecret = some encCoreSecret ∧
      rd = packRecovery host r dps (.object attrs) (.string (host.dataToString encCoreSecret)) := by
  unfold recoverySerialize at written
  cases policies : r.dps.mapM (serializePolicy host r.cs) with
  | error fault =>
    rw [policies] at written
    cases written
  | ok dps =>
    rw [policies] at written
    cases isData : r.idData with
    | object attrs =>
      cases isSecret : r.encCoreSecret with
      | none =>
        rw [isData, isSecret] at written
        cases written
      | some encCoreSecret =>
        rw [isData, isSecret] at written
        cases written
        exact ⟨dps, attrs, encCoreSecret, rfl, rfl, rfl, rfl⟩
    | _ =>
      rw [isData] at written
      cases written

theorem recoverySerialize_items (written : recoverySerialize host r = .ok rd) :
    rd.itemsAt "cs" = r.cs.map (serializeChallenge host) := by
  obtain ⟨dps, attrs, encCoreSecret, _, _, _, rfl⟩ := recoverySerialize_eq_ok written
  obtain ⟨_, _, isCs, _⟩ := member?_packRecovery host r dps (.object attrs)
    (.string (host.dataToString encCoreSecret))
  rw [Json.itemsAt, isCs]
  rfl

theorem parseFixed_serializeChallenge (c : Challenge) :
    parseFixed host 32 (serializeChallenge host c) "uuid" = some c.uuid :=
  (deserializeChallenge_fields (deserializeChallenge_serializeChallenge host c)).1

theorem listed_serialized (written : recoverySerialize host r = .ok rd)
    (isDocument : st.recoveryDocument = some rd) : st.listed host = (uuids r).map some := by
  unfold RecoveryState.listed uuids
  rw [RecoveryState.csItems, isDocument, map_some, getD_some,
    recoverySerialize_items written, List.map_map, List.map_map]
  apply map_congr_left
  intro c _
  exact parseFixed_serializeChallenge c

/-- A recovery is written when it has identity data and a core secret, and its policies name
challenges that are there. -/
theorem recoverySerialize_isOk {attrs : List (String × Json)}
    (inside : ∀ dp ∈ r.dps, ∀ pos ∈ dp.challenges, pos < r.cs.length)
    (isObject : r.idData = .object attrs) (secret : r.encCoreSecret.isSome) :
    ∃ rd, recoverySerialize host r = .ok rd := by
  have policies : ∃ dps, r.dps.mapM (serializePolicy host r.cs) = .ok dps := by
    have each : ∀ dp ∈ r.dps, ∃ json, serializePolicy host r.cs dp = .ok json := by
      intro dp mem
      have references : ∀ pos ∈ dp.challenges,
          ∃ json, serializeReference host r.cs pos = .ok json := by
        intro pos listed
        unfold serializeReference
        rw [getElem?_eq_getElem (inside dp mem pos listed)]
        exact ⟨_, rfl⟩
      obtain ⟨json, written⟩ := exists_forall₂ references
      unfold serializePolicy
      rw [mapM_eq_ok_iff.mpr written]
      exact ⟨_, rfl⟩
    obtain ⟨dps, written⟩ := exists_forall₂ each
    exact ⟨dps, mapM_eq_ok_iff.mpr written⟩
  obtain ⟨dps, written⟩ := policies
  obtain ⟨encCoreSecret, isSecret⟩ := isSome_iff_exists.mp secret
  rw [recoverySerialize, written, isObject, isSecret]
  exact ⟨_, rfl⟩

def solvedWith (r : Recovery) (position : Nat) (c : Challenge) (keyShare : KeyShare) : Recovery :=
  { r with
    cs := r.cs.set position { c with kslo := none, keyShare := keyShare, solved := true }
    solvedChallenges := r.solvedChallenges ++ [position] }

theorem solveChallenge_solved {r next : Recovery} {position : Nat} {c : Challenge}
    {eks : EncryptedKeyShare} (solved : Client.solveChallenge host r position c eks = .ok next) :
    ∃ keyShare, next = solvedWith r position c keyShare := by
  obtain ⟨keyShare, _, eq⟩ := solveChallenge_eq_ok host solved
  exact ⟨keyShare, eq⟩

end Documents

/-! ## What an event does -/

inductive Delivered (host : RecoveryHost) (action : Action) : Event → Action → Prop where
  | handed {sctx : SelectChallengeContext} (current : action.context = .live sctx)
      (handing : sctx.doAsync = true) :
      Delivered host action .runAsyncPc
        (action.apply (policyCallback host.toHost { sctx with doAsync := false }))
  | downloaded {sctx : SelectChallengeContext} {httpStatus : Nat} {dd : Option DownloadDetails}
      (current : action.context = .live sctx) (downloading : sctx.r.plo.isSome) :
      Delivered host action (.policyLookup httpStatus dd)
        (action.policyLookupCb host sctx httpStatus dd)
  | answered {sctx : SelectChallengeContext} {position : Nat} {c : Challenge}
      {dd : KeyShareDownloadDetails} (current : action.context = .live sctx)
      (found : sctx.r.cs[position]? = some c) (running : c.kslo.isSome) :
      Delivered host action (.keyshareLookup position dd)
        (action.keyshareLookupCb host sctx position c dd)
  | reported {task : Nat} (intact : ∀ fault, action.context ≠ .crashed fault)
      (scheduled : task ∈ action.tasks) :
      Delivered host action (.reportSolved task) (action.reportSolved task)

theorem Delivers.delivered {host : RecoveryHost} {action next : Action} {event : Event}
    (step : Delivers host action event next) : Delivered host action event next := by
  unfold Delivers Action.deliver at step
  split at step
  next sctx current =>
    obtain ⟨handing, eq⟩ := ite_none_right_eq_some.mp step
    cases eq
    exact .handed current handing
  next httpStatus dd sctx current =>
    obtain ⟨loading, eq⟩ := ite_none_right_eq_some.mp step
    cases eq
    exact .downloaded current loading
  next pos dd sctx current =>
    split at step
    next => cases step
    next c h =>
      obtain ⟨runs, eq⟩ := ite_none_right_eq_some.mp step
      cases eq
      exact .answered current h runs
  next => cases step
  next task intact =>
    obtain ⟨scheduled, eq⟩ := ite_none_right_eq_some.mp step
    cases eq
    exact .reported intact scheduled
  next => cases step

/-! ## A document with one challenge -/

def plainHost : RecoveryHost where
  toHost := .plain
  rejectDuplicates := Host.plain.jsonLoadb
  truthAuthTimeout := 8122

def exampleChallenge (type : String) : Challenge where
  uuid := zeroBlock 32
  truthKey := zeroBlock 64
  salt := zeroBlock 16
  providerSalt := zeroBlock 16
  keyShare := zeroBlock 32
  url := "https://provider/"
  type := type
  instructions := ""
  solved := false
  async := false
  answer := none
  kslo := none

def exampleRecovery (type : String) : Recovery where
  id := zeroBlock 64
  idData := .object []
  providerUrl := "https://provider/"
  secretName := some "secret"
  version := 1
  dps := [{ challenges := [0], emk := [0], salt := zeroBlock 64 }]
  cs := [exampleChallenge type]
  solvedChallenges := []
  encCoreSecret := some [0]
  plo := none

theorem example_sound (type : String) : Client.Sound [] (exampleRecovery type) where
  idData := rfl
  sealed dp member := by
    cases mem_singleton.mp member
    exact cons_ne_nil _ _
  inside dp member position listed := by
    cases mem_singleton.mp member
    cases mem_singleton.mp listed
    exact Nat.one_pos

def exampleState (rd : Json) : RecoveryState where
  recoveryState := .challengeSelecting
  recoveryInformation :=
    some [{ uuid := some (zeroBlock 32), paymentSecret := none, answer := none }]
  recoveryDocument := some rd
  selectedChallengeUuid := none
  challengeFeedback := []
  coreSecret := none

def exampleArguments : Arguments where
  uuid := .given (zeroBlock 32)
  timeout := .missing
  paymentSecret := .missing
  answer := none
  pin := none
  hash := .missing

end Anastasis.Reducer.Challenges
