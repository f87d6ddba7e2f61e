import Anastasis.Client.Recovery

/-! What a recovery reads from the document that a share has written. -/

set_option autoImplicit false

namespace Anastasis.Client

open Library List Option

variable (host : Host)

theorem canonical_packObject {fields : List (String × Option Json)}
    (each : ∀ field ∈ fields, ∀ v ∈ field.2, v.Canonical) : (packObject fields).Canonical := by
  refine Json.canonical_ofFields fun e mem => ?_
  obtain ⟨field, present, h⟩ := mem_filterMap.mp mem
  obtain ⟨v, given, rfl⟩ := map_eq_some_iff.mp h
  exact each field present v given

def sharedChallenge (pt : Truth) : Challenge where
  uuid := pt.uuid
  truthKey := pt.truthKey
  salt := pt.salt
  providerSalt := pt.providerSalt
  keyShare := zeroBlock 32
  url := pt.url
  type := pt.type
  instructions := pt.instructions
  solved := false
  async := false
  answer := none
  kslo := none

theorem parseChallenge_escMethod (pt : Truth) :
    parseChallenge host (escMethod host pt) = some (sharedChallenge pt) := by
  simp [parseChallenge, escMethod, parseFixed, parseString, packObject, packData, packString,
    Json.member?_ofFields, Json.string?, host.stringToData_dataToString, sharedChallenge]

def placeOf (truths : List Truth) (pt : Truth) : Nat :=
  truths.findIdx fun listed => listed.uuid = pt.uuid

def sharedPolicy (truths : List Truth) (policy : Policy) (emk : Bytes) : DecryptionPolicy where
  challenges := policy.truths.map (placeOf truths)
  emk := emk
  salt := policy.salt

def Lists (truths : List Truth) (policy : Policy) : Prop :=
  ∀ pt ∈ policy.truths, ∃ listed ∈ truths, listed.uuid = pt.uuid

theorem getElem?_placeOf {truths : List Truth} {pt : Truth}
    (mem : ∃ mem ∈ truths, mem.uuid = pt.uuid) :
    ∃ h, truths[placeOf truths pt]? = some h ∧ h.uuid = pt.uuid := by
  have below : placeOf truths pt < truths.length := findIdx_lt_length.mpr (by simpa using mem)
  have h := getElem?_eq_getElem below
  have eq := findIdx_of_getElem?_eq_some h
  exact ⟨_, h, of_decide_eq_true eq⟩

theorem findChallenge_shared {truths : List Truth} {pt : Truth}
    (mem : ∃ mem ∈ truths, mem.uuid = pt.uuid) :
    findChallenge host (truths.map sharedChallenge) (.string (host.dataToString pt.uuid.val)) =
      some (placeOf truths pt) := by
  have below : placeOf truths pt < truths.length := findIdx_lt_length.mpr (by simpa using mem)
  simp only [findChallenge, Json.string?, host.stringToData_dataToString, bind_eq_bind,
    bind_some, findIdx?_map]
  rw [findIdx?_eq_some_iff_findIdx_eq]
  exact ⟨below, rfl⟩

theorem parsePolicy_decPolicy {truths : List Truth} {policy : Policy} {emk : Bytes}
    (lists : Lists truths policy) (nonempty : emk ≠ []) :
    parsePolicy host (truths.map sharedChallenge) (decPolicy host policy emk) =
      .ok (some (sharedPolicy truths policy emk)) := by
  have places : (policy.truths.map fun pt => Json.string (host.dataToString pt.uuid.val)).mapM
      (findChallenge host (truths.map sharedChallenge)) =
        some (policy.truths.map (placeOf truths)) := by
    rw [mapM_eq_some_iff, List.forall₂_map_left_iff, List.forall₂_map_right_iff]
    refine List.forall₂_same.mpr fun pt mem => ?_
    exact findChallenge_shared host (lists pt mem)
  simp [parsePolicy, decPolicy, parseVarsize, parseFixed, parseString, packObject, packData,
    packArray, Json.member?_ofFields, Json.string?, Json.array?, host.stringToData_dataToString,
    host.stringToVarsize_dataToString, nonempty, places, sharedPolicy]

private theorem escTruths_covers (earlier policies : List Policy) {policy : Policy}
    (mem : policy ∈ policies) {pt : Truth} (own : pt ∈ policy.truths) :
    (∃ listed ∈ escTruths earlier policies, listed.uuid = pt.uuid) ∨
      ∃ p2 ∈ earlier, ∃ y ∈ p2.truths, y.uuid = pt.uuid := by
  induction policies generalizing earlier pt policy with
  | nil => cases mem
  | cons x later ih =>
    have here : ∀ pt ∈ x.truths,
        (∃ listed ∈ escTruths earlier (x :: later), listed.uuid = pt.uuid) ∨
          ∃ p2 ∈ earlier, ∃ y ∈ p2.truths, y.uuid = pt.uuid := by
      intro pt own
      by_cases has : ∃ p2 ∈ earlier, ∃ y ∈ p2.truths, y.uuid = pt.uuid
      · exact .inr has
      refine .inl ⟨pt, ?_, rfl⟩
      rw [escTruths, mem_append, mem_filter]
      exact .inl ⟨own, by simpa using has⟩
    cases mem_cons.mp mem with
    | inl eq => exact here pt (eq ▸ own)
    | inr rest =>
      cases ih (earlier ++ [x]) rest own with
      | inl listed =>
        obtain ⟨listed, present, eq⟩ := listed
        exact .inl ⟨listed, mem_append_right _ present, eq⟩
      | inr has =>
        obtain ⟨p2, present, y, among, eq⟩ := has
        cases mem_append.mp present with
        | inl old => exact .inr ⟨p2, old, y, among, eq⟩
        | inr new =>
          have same' := here y (mem_singleton.mp new ▸ among)
          rwa [eq] at same'

theorem escTruths_lists {policies : List Policy} {policy : Policy} (mem : policy ∈ policies) :
    Lists (escTruths [] policies) policy := by
  intro pt own
  cases escTruths_covers [] policies mem own with
  | inl listed => exact listed
  | inr has =>
    obtain ⟨_, no, _⟩ := has
    cases no

theorem canonical_recoveryDocument (request : ShareRequest) (rnd : ShareRandomness) :
    (recoveryDocument host request rnd).Canonical := by
  have data : ∀ data : Bytes, ∀ v ∈ packData host data, v.Canonical := by
    intro data v packed
    cases Option.some.inj packed
    exact .string _
  have text : ∀ text : String, ∀ v ∈ packString text, v.Canonical := by
    intro text v packed
    cases Option.some.inj packed
    exact .string _
  have policy : ∀ policy emk, (decPolicy host policy emk).Canonical := by
    intro policy emk
    refine canonical_packObject fun field mem v packed => ?_
    simp only [mem_cons, not_mem_nil, or_false] at mem
    rcases mem with rfl | rfl | rfl
    · exact data _ v packed
    · cases Option.some.inj packed
      refine .array fun item listed => ?_
      obtain ⟨truth, _, rfl⟩ := List.mem_map.mp listed
      exact .string _
    · exact data _ v packed
  have m : ∀ pt, (escMethod host pt).Canonical := by
    intro pt
    refine canonical_packObject fun field mem v packed => ?_
    simp only [mem_cons, not_mem_nil, or_false] at mem
    rcases mem with rfl | rfl | rfl | rfl | rfl | rfl | rfl
    all_goals first | exact data _ v packed | exact text _ v packed
  refine canonical_packObject fun field mem v packed => ?_
  simp only [mem_cons, not_mem_nil, or_false] at mem
  rcases mem with rfl | rfl | rfl | rfl
  · obtain ⟨name, _, rfl⟩ := map_eq_some_iff.mp packed
    exact .string _
  · cases Option.some.inj packed
    refine .array fun item listed => ?_
    obtain ⟨index, below, rfl⟩ := mem_iff_getElem.mp listed
    rw [getElem_zipWith]
    exact policy _ _
  · cases Option.some.inj packed
    refine .array fun item listed => ?_
    obtain ⟨truth, _, rfl⟩ := List.mem_map.mp listed
    exact m truth
  · exact data _ v packed

def sealedSecret (request : ShareRequest) (random : ShareRandomness) :
    CoreSecretEncryptionResult :=
  coreSecretEncrypt host (request.policies.map Policy.policyKey) request.coreSecret
    random.masterKey random.nonce random.masterKeyNonces

variable {random rnd : ShareRandomness}

theorem sealedSecret_nonempty {req : ShareRequest} {emk : Bytes}
    (mem : emk ∈ (sealedSecret host req rnd).encMasterKeys) : emk ≠ [] := by
  rintro rfl
  obtain ⟨idx, below, empty⟩ := mem_iff_getElem.mp mem
  have long := congrArg List.length empty
  simp [sealedSecret, coreSecretEncrypt] at long

def sharedRecovery (request : ShareRequest) (random : ShareRandomness) (version : UInt32)
    (r : Recovery) : Recovery :=
  let truths := escTruths [] request.policies
  { r with
    plo := none
    version := version
    secretName := request.secretName.or r.secretName
    encCoreSecret := some (sealedSecret host request random).encCoreSecret
    cs := truths.map sharedChallenge
    dps := request.policies.zipWith (sharedPolicy truths)
      (sealedSecret host request random).encMasterKeys
    solvedChallenges := [] }

theorem readDocument_recoveryDocument (req : ShareRequest) (rnd : ShareRandomness)
    (ver : UInt32) (r : Recovery) : readDocument host r ver (recoveryDocument host req rnd) =
      .ok (some (sharedRecovery host req rnd ver r)) := by
  have challenges : ((escTruths [] req.policies).map (escMethod host)).mapM
      (parseChallenge host) = some ((escTruths [] req.policies).map sharedChallenge) := by
    rw [mapM_eq_some_iff, List.forall₂_map_left_iff, List.forall₂_map_right_iff]
    exact List.forall₂_same.mpr fun pt _ => parseChallenge_escMethod host pt
  have policies : parsePolicies host ((escTruths [] req.policies).map sharedChallenge)
      (req.policies.zipWith (decPolicy host) (sealedSecret host req rnd).encMasterKeys) =
        .ok (some (req.policies.zipWith (sharedPolicy (escTruths [] req.policies))
          (sealedSecret host req rnd).encMasterKeys)) := by
    refine collect_eq_ok_iff.mpr (List.forall₂_iff_get.mpr ⟨by simp, fun idx _ below => ?_⟩)
    simp only [get_eq_getElem, getElem_zipWith]
    exact parsePolicy_decPolicy host (escTruths_lists (getElem_mem _))
      (sealedSecret_nonempty host (getElem_mem _))
  have name : parseOptional Json.string? (recoveryDocument host req rnd) "secret_name" =
      some req.secretName := by
    cases named : req.secretName <;>
      simp [parseOptional, recoveryDocument, packObject, packArray, packData,
        Json.member?_ofFields, named, Json.string?]
  have decPolicies : (recoveryDocument host req rnd).member? "policies" =
      some (.array (req.policies.zipWith (decPolicy host)
        (sealedSecret host req rnd).encMasterKeys)) := by
    cases named : req.secretName <;>
      simp [recoveryDocument, packObject, packArray, packData, Json.member?_ofFields, named,
        sealedSecret]
  have escMethods : (recoveryDocument host req rnd).member? "escrow_methods" =
      some (.array ((escTruths [] req.policies).map (escMethod host))) := by
    cases named : req.secretName <;>
      simp [recoveryDocument, packObject, packArray, packData, Json.member?_ofFields, named]
  have secret : parseVarsize host (recoveryDocument host req rnd) "encrypted_core_secret" =
      some (sealedSecret host req rnd).encCoreSecret := by
    cases named : req.secretName <;>
      simp [recoveryDocument, packObject, packArray, packData, Json.member?_ofFields, named,
        parseVarsize, parseString, Json.string?, host.stringToVarsize_dataToString, sealedSecret]
  simp only [readDocument, decPolicies, escMethods, name, secret, arrayItems, Json.array?,
    getD_some, challenges, bind_eq_bind, bind_some, Option.pure_def]
  rw [policies]
  rfl

theorem ntohl_htonl (v : Nat) : ntohl (htonl v) = v % 2 ^ 32 := by
  simp only [ntohl, htonl, foldl_cons, foldl_nil, UInt8.toNat_ofNat']
  omega

/-- A stored document whose size fits into 32 bits is read when there is memory for it. -/
theorem openDocument_stored {req : ShareRequest} {r : Recovery} {nonce : Nonce}
    {document : Bytes} (ver : UInt32)
    (packed : packDocument host (recoveryDocument host req rnd) = some document)
    (small : (host.jsonDumps (recoveryDocument host req rnd)).length < 2 ^ 32)
    (memory : host.mallocLarge (host.jsonDumps (recoveryDocument host req rnd)).length) :
    openDocument host r ver (recoveryDocumentEncrypt host nonce r.id document) =
      .ok (.accepted (sharedRecovery host req rnd ver r)) := by
  obtain ⟨cbuf, compressed, rfl⟩ := map_eq_some_iff.mp packed
  have loaded := host.jsonLoadb_jsonDumps _ (canonical_recoveryDocument host req rnd)
  have text := host.uncompress_compress _ _ compressed
  generalize (host.jsonDumps (recoveryDocument host req rnd)) = rdStr at *
  have front : (htonl rdStr.length ++ cbuf).take 4 = htonl rdStr.length := take_left' rfl
  have back : (htonl rdStr.length ++ cbuf).drop 4 = cbuf := drop_left' rfl
  have long : ¬ (htonl rdStr.length ++ cbuf).length < 4 := by simp [htonl]
  have size : ntohl (htonl rdStr.length) = rdStr.length := by
    rw [ntohl_htonl, Nat.mod_eq_of_lt small]
  simp only [openDocument, recoveryDocumentDecrypt, recoveryDocumentEncrypt,
    anastasisDecrypt_anastasisEncrypt, bind, Except.bind, if_neg long, readBuffer, front, back,
    size, memory, text, loaded, readDocument_recoveryDocument]
  rfl

theorem openDocument_stored_cases {req : ShareRequest} {r : Recovery} {nonce : Nonce}
    {document : Bytes} (ver : UInt32)
    (packed : packDocument host (recoveryDocument host req rnd) = some document) :
    openDocument host r ver (recoveryDocumentEncrypt host nonce r.id document) =
        .ok (.accepted (sharedRecovery host req rnd ver r)) ∨
      ∃ status, openDocument host r ver (recoveryDocumentEncrypt host nonce r.id document) =
        .ok (.rejected status) := by
  by_cases fits : (host.jsonDumps (recoveryDocument host req rnd)).length < 2 ^ 32 ∧
      host.mallocLarge (host.jsonDumps (recoveryDocument host req rnd)).length
  · exact .inl (openDocument_stored host ver packed fits.1 fits.2)
  refine .inr ?_
  obtain ⟨cbuf, compressed, rfl⟩ := map_eq_some_iff.mp packed
  have short := host.uncompress_short _ _
    ((host.jsonDumps (recoveryDocument host req rnd)).length % 2 ^ 32) compressed
  generalize (host.jsonDumps (recoveryDocument host req rnd)) = rdStr at *
  have front : (htonl rdStr.length ++ cbuf).take 4 = htonl rdStr.length := take_left' rfl
  have back : (htonl rdStr.length ++ cbuf).drop 4 = cbuf := drop_left' rfl
  have long : ¬ (htonl rdStr.length ++ cbuf).length < 4 := by simp [htonl]
  simp only [openDocument, recoveryDocumentDecrypt, recoveryDocumentEncrypt,
    anastasisDecrypt_anastasisEncrypt, bind, Except.bind, if_neg long, readBuffer, front, back,
    ntohl_htonl]
  cases memory : host.mallocLarge (rdStr.length % 2 ^ 32) with
  | false => exact ⟨_, rfl⟩
  | true =>
    -- A size that was cut off asks for too little room.
    have cut : rdStr.length % 2 ^ 32 < rdStr.length := by
      have large : ¬ rdStr.length < 2 ^ 32 := fun small =>
        fits ⟨small, Nat.mod_eq_of_lt small ▸ memory⟩
      omega
    rw [short cut]
    exact ⟨_, rfl⟩

end Anastasis.Client
