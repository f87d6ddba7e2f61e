import Anastasis.Reducer.PolicyDiscovery

/-! When the data that a provider returns is handled without a fault. -/

set_option autoImplicit false

namespace Anastasis.Client

open Library Reducer.Discovery List Option

variable (host : Host)

/-! ## What the data has to be like -/

def Opens (key data salt message : Bytes) : Prop :=
  (envelope host).decrypt key data salt = some message

def PolicyFields (policy : Json) (emk : Bytes) : Prop :=
  parseVarsize host policy "master_key" = some emk ∧
    (∃ salt, parseFixed host 64 policy "salt" = some salt) ∧
    ∃ uuids, (policy.member? "uuids").bind Json.array? = some uuids

def KnowsTruths (cs : List Challenge) (policy : Json) : Prop :=
  ∀ uuids, (policy.member? "uuids").bind Json.array? = some uuids →
    ∃ places, uuids.mapM (findChallenge host cs) = some places

def PoliciesGiven (cs : List Challenge) (policies : List Json) : Prop :=
  ∀ before policy after, policies = before ++ policy :: after →
    (∀ earlier ∈ before, (∃ emk, emk ≠ [] ∧ PolicyFields host earlier emk) ∧
      KnowsTruths host cs earlier) →
    ¬ PolicyFields host policy []

/-- When the other fields of the document can be parsed, its policies have master keys. -/
def MasterKeysGiven (document : Json) : Prop :=
  ∀ decPolicies escMethods cs, document.member? "policies" = some decPolicies →
    document.member? "escrow_methods" = some escMethods →
    (parseOptional Json.string? document "secret_name").isSome →
    (parseVarsize host document "encrypted_core_secret").isSome →
    (arrayItems escMethods).mapM (parseChallenge host) = some cs →
    PoliciesGiven host cs (arrayItems decPolicies)

/-- When a JSON value can be taken out of the text, its policies have master keys. -/
def TextReadable (plaintext : Bytes) : Prop :=
  host.mallocLarge (ntohl (plaintext.take 4)) = true →
    ∀ pt, host.uncompress (ntohl (plaintext.take 4)) (plaintext.drop 4) = some pt →
    ∀ document, host.jsonLoadb pt = some document → MasterKeysGiven host document

/-- The document is as long as a nonce and a code at least; and unless there are at most three
bytes in it, it authenticates and its text is readable. -/
def DocumentReadable (id : UserIdentifier) (policy : Bytes) : Prop :=
  24 + 16 ≤ policy.length ∧ (policy.length < 24 + 16 + 4 ∨
    ∃ plaintext, Opens host id.val policy (ascii "erd") plaintext ∧ TextReadable host plaintext)

/-- No method of the document that cannot be parsed stands before another one. -/
def MethodsReadable (id : UserIdentifier) (policy : Bytes) : Prop :=
  ∀ document, documentJson host id policy = some document →
    unsetChallenges host document = false

/-- A download that succeeded comes with details, and with a readable document if any. -/
def DownloadReadable (r : Recovery) (httpStatus : Nat) (dd : Option DownloadDetails) : Prop :=
  httpStatus = 200 → ∃ details, dd = some details ∧
    ∀ policy, details.policy = some policy →
      DocumentReadable host r.id policy ∧ MethodsReadable host r.id policy

def sharesWith (r : Recovery) (position : Nat) (keyShare : KeyShare) (challenges : List Nat) :
    List KeyShare :=
  challenges.map fun challenge =>
    if challenge = position then keyShare
    else ((r.cs[challenge]?).map Challenge.keyShare).getD (zeroBlock 32)

def SecretReadable (r : Recovery) (rdps : DecryptionPolicy) (keyShares : List KeyShare) : Prop :=
  ∃ masterKey coreSecret,
    Opens host (policyKeyDerive host keyShares rdps.salt).val rdps.emk (ascii "emk") masterKey ∧
      Opens host masterKey (r.encCoreSecret.getD []) (ascii "cse") coreSecret

/-- The key share authenticates, and if it completes a policy, so does what the policy opens. -/
def KeyShareReadable (r : Recovery) (position : Nat) (c : Challenge) (eks : EncryptedKeyShare) :
    Prop :=
  ∃ keyShare : KeyShare,
    Opens host (userIdentifierDerive host r.idData c.providerSalt).val eks.val
        (c.answer.getD (ascii "eks")) keyShare.val ∧
      ∀ rdps, r.dps.find? (fun dps => satisfied (r.solvedChallenges ++ [position])
        dps.challenges) = some rdps →
          SecretReadable host r rdps (sharesWith r position keyShare rdps.challenges)

def Readable (r : Recovery) : RecoveryEvent → Prop
  | .policyLookup httpStatus dd => DownloadReadable host r httpStatus dd
  | .keyshareLookup position (.success eks) =>
    ∀ c, r.cs[position]? = some c → KeyShareReadable host r position c eks
  | _ => True

/-! ## What the callbacks have to do -/

theorem anastasisDecrypt_eq {key data salt : Bytes} (long : 24 + 16 ≤ data.length) :
    anastasisDecrypt host key data salt =
      .ok ((envelope host).decrypt key data salt, data.length - (24 + 16)) := by
  unfold anastasisDecrypt
  rw [if_neg (Nat.not_lt.mpr long)]
  rfl

theorem Opens.length_eq {key data salt message : Bytes} (opens : Opens host key data salt message) :
    data.length = 24 + 16 + message.length := by
  have long := host.length_secretboxOpenEasy _ _ _ _ opens
  rw [length_drop] at long
  have nonce : (envelope host).nonceLength = 24 := rfl
  omega

/-- A policy with all its fields only fails for an empty master key, and is only malformed for an
unknown truth. -/
theorem parsePolicy_outcome (cs : List Challenge) (policy : Json) :
    ((∃ parsed, parsePolicy host cs policy = .ok parsed) ↔ ¬ PolicyFields host policy []) ∧
      ((∃ dp, parsePolicy host cs policy = .ok (some dp)) ↔
        (∃ emk, emk ≠ [] ∧ PolicyFields host policy emk) ∧ KnowsTruths host cs policy) := by
  unfold parsePolicy PolicyFields KnowsTruths
  cases isKey : parseVarsize host policy "master_key" with
  | none => simp
  | some emk =>
    cases isSalt : parseFixed host 64 policy "salt" with
    | none => simp
    | some salt =>
      cases isUuids : policy.member? "uuids" with
      | none => simp
      | some uuids =>
        cases isArray : uuids.array? with
        | none => simp [isArray]
        | some items =>
          cases emk with
          | nil => simp [isArray]
          | cons byte rest => simp [isArray]

theorem parsePolicies_isOk_iff {cs : List Challenge} {policies : List Json} :
    (∃ dps, parsePolicies host cs policies = .ok dps) ↔ PoliciesGiven host cs policies := by
  have reached := @collect_isOk_iff _ _ _ (parsePolicy host cs) policies
  simp only [(parsePolicy_outcome host cs _).1, (parsePolicy_outcome host cs _).2] at reached
  exact reached

/-- The document is read without a fault when no policy that is reached has an empty master key. -/
theorem readDocument_isOk_iff {r : Recovery} {ver : UInt32} {document : Json} :
    (∃ read, readDocument host r ver document = .ok read) ↔ MasterKeysGiven host document := by
  unfold readDocument
  cases isPolicies : document.member? "policies" with
  | none => simp [MasterKeysGiven, isPolicies]
  | some decPolicies =>
    cases isMethods : document.member? "escrow_methods" with
    | none => simp [MasterKeysGiven, isMethods]
    | some escMethods =>
      cases isName : parseOptional Json.string? document "secret_name" with
      | none => simp [MasterKeysGiven, isName]
      | some secretName =>
        cases isSecret : parseVarsize host document "encrypted_core_secret" with
        | none => simp [MasterKeysGiven, isSecret]
        | some encCoreSecret =>
          cases isChallenges : (arrayItems escMethods).mapM (parseChallenge host) with
          | none =>
            apply iff_of_true ⟨none, by simp [isChallenges]⟩
            intro _ methods cs _ eq _ _ challenges
            rw [isMethods] at eq
            cases eq
            rw [isChallenges] at challenges
            cases challenges
          | some cs =>
            have given : MasterKeysGiven host document ↔
                PoliciesGiven host cs (arrayItems decPolicies) := by
              constructor
              · intro all
                exact all _ _ cs isPolicies isMethods (isName ▸ rfl) (isSecret ▸ rfl) isChallenges
              intro all _ _ challenges samePolicies sameMethods _ _ parsed
              rw [isPolicies] at samePolicies
              rw [isMethods] at sameMethods
              cases samePolicies
              cases sameMethods
              rw [isChallenges] at parsed
              cases parsed
              exact all
            rw [given, ← parsePolicies_isOk_iff]
            simp only [bind_eq_bind, bind_some, isChallenges, Option.pure_def]
            cases parsePolicies host cs (arrayItems decPolicies) with
            | error fault => simp [bind, Except.bind]
            | ok dps =>
              cases dps with
              | none => simp [bind, Except.bind, pure, Except.pure]
              | some dps => simp [bind, Except.bind, pure, Except.pure]

theorem openDocument_isOk_iff {r : Recovery} {ver : UInt32} {policy : Bytes} :
    (∃ lookup, openDocument host r ver policy = .ok lookup) ↔
      DocumentReadable host r.id policy := by
  unfold openDocument DocumentReadable recoveryDocumentDecrypt
  by_cases long : 24 + 16 ≤ policy.length
  · rw [and_iff_right long, anastasisDecrypt_eq host long]
    by_cases short : policy.length < 24 + 16 + 4
    · have size : policy.length - (24 + 16) < 4 := by omega
      apply iff_of_true _ (.inl short)
      simp [bind, Except.bind, size, pure, Except.pure]
    have size : ¬ policy.length - (24 + 16) < 4 := by omega
    rw [or_iff_right short]
    cases opened : (envelope host).decrypt r.id.val policy (ascii "erd") with
    | none =>
      obtain ⟨more, isMore⟩ := Nat.exists_eq_add_one_of_ne_zero
        (show policy.length - (24 + 16) ≠ 0 by omega)
      rw [isMore] at size ⊢
      apply iff_of_false
      · simp [bind, Except.bind, size, readBuffer]
      intro readable
      obtain ⟨plaintext, opens, _⟩ := readable
      rw [Opens, opened] at opens
      cases opens
    | some plaintext =>
      have only : (∃ y, Opens host r.id.val policy (ascii "erd") y ∧
          TextReadable host y) ↔ TextReadable host plaintext := by
        simp [Opens, opened]
      rw [only]
      unfold TextReadable
      simp only [bind, Except.bind, size, readBuffer, if_false]
      cases memory : host.mallocLarge (ntohl (plaintext.take 4)) with
      | false => simp [pure, Except.pure]
      | true =>
        cases text : host.uncompress (ntohl (plaintext.take 4)) (plaintext.drop 4) with
        | none => simp [pure, Except.pure]
        | some pt =>
          cases loaded : host.jsonLoadb pt with
          | none => simp [pure, Except.pure, loaded]
          | some document =>
            have read := @readDocument_isOk_iff host r ver document
            simp only [Bool.not_true, Bool.false_eq_true, if_false, loaded,
              forall_const, Option.some.injEq, forall_eq']
            rw [← read]
            cases readDocument host r ver document with
            | error fault => simp
            | ok opened =>
              cases opened with
              | none => simp [pure, Except.pure]
              | some opened => simp [pure, Except.pure]
  · have fault : anastasisDecrypt host r.id.val policy (ascii "erd") = .error .assertion := by
      unfold anastasisDecrypt
      rw [if_pos (Nat.not_le.mp long)]
    rw [fault]
    apply iff_of_false
    · simp [bind, Except.bind]
    · exact fun readable => long readable.1

variable {dd : Option DownloadDetails}

theorem policyLookupCb_isOk_iff {r : Recovery} {httpStatus : Nat} :
    (∃ lookup, policyLookupCb host r httpStatus dd = .ok lookup) ↔
      (httpStatus = 200 → ∃ dt, dd = some dt ∧
        ∀ policy, dt.policy = some policy → DocumentReadable host r.id policy) := by
  unfold policyLookupCb
  by_cases ran : httpStatus = 200
  · rw [if_pos ran]
    cases dd with
    | none => simp [ran]
    | some dt =>
      cases isPolicy : dt.policy with
      | none => simp [ran, isPolicy]
      | some policy => simp [ran, isPolicy, openDocument_isOk_iff]
  · rw [if_neg ran]
    apply iff_of_true _ (absurd · ran)
    split
    · exact ⟨_, rfl⟩
    split
    · exact ⟨_, rfl⟩
    split
    · exact ⟨_, rfl⟩
    · exact ⟨_, rfl⟩

theorem abortFaults_eq_false_iff {id : UserIdentifier} {httpStatus : Nat} :
    abortFaults host id httpStatus dd = false ↔
      (httpStatus = 200 → ∀ dt, dd = some dt → ∀ policy, dt.policy = some policy →
        MethodsReadable host id policy) := by
  unfold abortFaults MethodsReadable
  cases dd with
  | none => simp
  | some dt =>
    cases isPolicy : dt.policy with
    | none => simp [isPolicy]
    | some policy =>
      cases isDocument : documentJson host id policy with
      | none => simp [isPolicy, isDocument]
      | some document => simp [isPolicy, isDocument]

theorem downloadReadable_iff {r : Recovery} {httpStatus : Nat} :
    DownloadReadable host r httpStatus dd ↔
      (∃ lookup, policyLookupCb host r httpStatus dd = .ok lookup) ∧
        abortFaults host r.id httpStatus dd = false := by
  rw [policyLookupCb_isOk_iff, abortFaults_eq_false_iff]
  constructor
  · intro readable
    constructor
    · intro ran
      obtain ⟨dt, isDetails, documents⟩ := readable ran
      exact ⟨dt, isDetails, fun policy isPolicy => (documents policy isPolicy).1⟩
    intro ran y isO policy isPolicy
    obtain ⟨dt, isDetails, documents⟩ := readable ran
    cases isDetails.symm.trans isO
    exact (documents policy isPolicy).2
  · intro parts ran
    obtain ⟨dt, isDetails, documents⟩ := parts.1 ran
    exact ⟨dt, isDetails, fun policy isPolicy =>
      ⟨documents policy isPolicy, parts.2 ran dt isDetails policy isPolicy⟩⟩

/-! ## The key share -/

theorem keyshareDecrypt_eq_ok_iff {eks : EncryptedKeyShare} {id : UserIdentifier}
    {ans : Option Bytes} {keyShare : KeyShare} :
    keyshareDecrypt host eks id ans = .ok keyShare ↔
      Opens host id.val eks.val (ans.getD (ascii "eks")) keyShare.val := by
  have long : 24 + 16 ≤ eks.val.length := by
    omega
  have size : eks.val.length - (24 + 16) = 31 + 1 := by rw [eks.property]
  unfold keyshareDecrypt Opens
  rw [anastasisDecrypt_eq host long, size]
  cases opened : (envelope host).decrypt id.val eks.val (ans.getD (ascii "eks")) with
  | none => simp [bind, Except.bind, readBuffer]
  | some data =>
    have sized : data.length = 32 := by
      have whole := @Opens.length_eq host _ _ _ _ opened
      omega
    simp only [bind, Except.bind, readBuffer, sized, dif_pos, pure, Except.pure,
      Except.ok.injEq, Option.some.injEq]
    exact Subtype.ext_iff

theorem mapM_solvedKeyShare {r : Recovery} {pos : Nat} {c : Challenge} {keyShare : KeyShare}
    {challenges : List Nat} (h : r.cs[pos]? = some c)
    (inside : ∀ chal ∈ challenges, chal < r.cs.length)
    (complete : satisfied (r.solvedChallenges ++ [pos]) challenges = true) :
    challenges.mapM (solvedKeyShare { r with
      cs := r.cs.set pos { c with kslo := none, keyShare := keyShare, solved := true }
      solvedChallenges := r.solvedChallenges ++ [pos] }) =
      .ok (sharesWith r pos keyShare challenges) := by
  unfold sharesWith
  rw [mapM_eq_ok_iff, List.forall₂_map_right_iff, List.forall₂_same]
  intro chal mem
  have listed := satisfied_iff.mp complete chal mem
  obtain ⟨place, search⟩ : ∃ place, (r.solvedChallenges ++ [pos]).find?
      (fun solved => chal = solved) = some place :=
    isSome_iff_exists.mp (by simpa using listed)
  have eq := find?_some search
  obtain rfl : chal = place := of_decide_eq_true eq
  unfold solvedKeyShare
  rw [search, bind_some]
  have below : pos < r.cs.length := (List.getElem?_eq_some_iff.mp h).1
  by_cases new : chal = pos
  · rw [if_pos new, new, getElem?_set_self below]
  have there := getElem?_eq_getElem (inside chal mem)
  rw [if_neg new, getElem?_set_ne (Ne.symm new), there]
  rfl

section Steps

variable {process next : RecoveryProcess} {r : Recovery}

end Steps

def exampleRecovery : Recovery :=
  recoveryBegin Host.plain .null 0 "https://provider/" (zeroBlock 16)

end Anastasis.Client
