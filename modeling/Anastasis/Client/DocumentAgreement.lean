import Anastasis.Client.RecoveryDocument

/-! When a recovery reads the policies and the truths that a share has written. -/

set_option autoImplicit false

namespace Anastasis.Client

open Library List

variable (host : Host)

structure Describes (pt : Truth) (c : Challenge) : Prop where
  uuid : c.uuid = pt.uuid
  truthKey : c.truthKey = pt.truthKey
  salt : c.salt = pt.salt
  url : c.url = pt.url
  providerSalt : c.providerSalt = pt.providerSalt
  type : c.type = pt.type
  instructions : c.instructions = pt.instructions

/-- The recovery has the policies in their order, each with its truths in their order. -/
def ReadsPolicies (policies : List Policy) (r : Recovery) : Prop :=
  List.Forall₂ (fun policy dp => dp.salt = policy.salt ∧
    List.Forall₂ (fun pt place => ∃ c, r.cs[place]? = some c ∧ Describes pt c)
      policy.truths dp.challenges) policies r.dps

def listings (document : Json) (uuid : TruthUuid) : Nat :=
  (((document.member? "escrow_methods").map arrayItems).getD []).countP fun method =>
    parseFixed host 32 method "uuid" = some uuid

/-- The document is accepted and gives the policies back, and lists each of their truths once. -/
structure Agrees (request : ShareRequest) (random : ShareRandomness) (version : UInt32)
    (r : Recovery) : Prop where
  accepted : ∃ restored,
    readDocument host r version (recoveryDocument host request random) = .ok (some restored) ∧
      ReadsPolicies request.policies restored
  once : ∀ policy ∈ request.policies, ∀ pt ∈ policy.truths,
    listings host (recoveryDocument host request random) pt.uuid = 1

def Policy.uses (policy : Policy) (uuid : TruthUuid) : Bool :=
  policy.truths.any fun pt => pt.uuid = uuid

/-- A uuid stands for one truth only, and the first policy that uses it uses it once. -/
structure Unambiguous (policies : List Policy) : Prop where
  same : ∀ policy ∈ policies, ∀ pt ∈ policy.truths, ∀ p2 ∈ policies, ∀ other ∈ p2.truths,
    other.uuid = pt.uuid → Describes pt (sharedChallenge other)
  single : ∀ uuid policy, policies.find? (Policy.uses · uuid) = some policy →
    (policy.truths.countP fun pt => pt.uuid = uuid) = 1

section Listed

variable {policies earlier : List Policy} {uuid : TruthUuid}

theorem escTruths_mem {pt : Truth} (listed : pt ∈ escTruths earlier policies) :
    ∃ policy ∈ policies, pt ∈ policy.truths := by
  induction policies generalizing earlier with
  | nil => cases listed
  | cons policy later ih =>
    rw [escTruths, mem_append] at listed
    cases listed with
    | inl own => exact ⟨policy, mem_cons_self, mem_of_mem_filter own⟩
    | inr rest =>
      obtain ⟨y, mem, own⟩ := ih rest
      exact ⟨y, mem_cons_of_mem _ mem, own⟩

theorem escTruths_countP : ((escTruths earlier policies).countP fun pt => pt.uuid = uuid) =
      if earlier.any (Policy.uses · uuid) then 0
      else
        match policies.find? (Policy.uses · uuid) with
        | none => 0
        | some policy => policy.truths.countP fun pt => pt.uuid = uuid := by
  induction policies generalizing earlier with
  | nil => simp [escTruths]
  | cons policy later ih =>
    have fresh : (policy.truths.filter fun pt =>
        !earlier.any fun p2 => p2.truths.any fun y => y.uuid = pt.uuid).countP
          (fun pt => pt.uuid = uuid) =
        if earlier.any (Policy.uses · uuid) then 0
        else policy.truths.countP fun pt => pt.uuid = uuid := by
      rw [countP_filter]
      cases known : earlier.any (Policy.uses · uuid) with
      | true =>
        rw [if_pos rfl, countP_eq_zero]
        intro pt _ both
        obtain ⟨isUuid, unknown⟩ := Bool.and_eq_true_iff.mp both
        rw [of_decide_eq_true isUuid] at unknown
        have contradiction : (!earlier.any (Policy.uses · uuid)) = true := unknown
        rw [known] at contradiction
        cases contradiction
      | false =>
        rw [if_neg Bool.false_ne_true]
        apply countP_congr
        intro pt _
        constructor
        · exact fun both => (Bool.and_eq_true_iff.mp both).1
        intro isUuid
        refine Bool.and_eq_true_iff.mpr ⟨isUuid, ?_⟩
        rw [of_decide_eq_true isUuid]
        exact congrArg not known
    rw [escTruths, countP_append, fresh, ih, any_append, find?_cons]
    cases known : earlier.any (Policy.uses · uuid) with
    | true => simp
    | false =>
      cases used : policy.uses uuid with
      | true => simp [used]
      | false =>
        have unused : (policy.truths.countP fun pt => pt.uuid = uuid) = 0 := by
          rw [countP_eq_zero]
          exact List.any_eq_false.mp used
        simp [used, unused]

theorem parseFixed_escMethod (pt : Truth) :
    parseFixed host 32 (escMethod host pt) "uuid" = some pt.uuid := by
  simp [escMethod, parseFixed, parseString, packObject, packData, packString,
    Json.member?_ofFields, Json.string?, host.stringToData_dataToString]

theorem listings_recoveryDocument (req : ShareRequest) (rnd : ShareRandomness) :
    listings host (recoveryDocument host req rnd) uuid =
      (escTruths [] req.policies).countP fun pt => pt.uuid = uuid := by
  have methods : (recoveryDocument host req rnd).member? "escrow_methods" =
      some (.array ((escTruths [] req.policies).map (escMethod host))) := by
    cases named : req.secretName with
    | none =>
      simp [recoveryDocument, packObject, packArray, packData, Json.member?_ofFields, named]
    | some name =>
      simp [recoveryDocument, packObject, packArray, packData, Json.member?_ofFields, named]
  rw [listings, methods, Option.map_some, Option.getD_some, arrayItems, Json.array?,
    Option.getD_some, countP_map]
  apply countP_congr
  intro pt _
  rw [Function.comp_apply, parseFixed_escMethod]
  simp

/-- Every truth is listed once, when and only when its first policy uses it once. -/
theorem listed_once_iff : (∀ policy ∈ policies, ∀ pt ∈ policy.truths,
      ((escTruths [] policies).countP fun listed => listed.uuid = pt.uuid) = 1) ↔
      ∀ uuid policy, policies.find? (Policy.uses · uuid) = some policy →
        (policy.truths.countP fun pt => pt.uuid = uuid) = 1 := by
  constructor
  · intro once uuid policy x
    have uses := find?_some x
    obtain ⟨pt, mem, isUuid⟩ := List.any_eq_true.mp uses
    have count := once policy (mem_of_find?_eq_some x) pt mem
    rw [of_decide_eq_true isUuid, escTruths_countP, x] at count
    exact count
  intro single policy mem pt own
  have used : policy.uses pt.uuid = true := List.any_eq_true.mpr ⟨pt, own, decide_eq_true rfl⟩
  rw [escTruths_countP]
  cases x : policies.find? (Policy.uses · pt.uuid) with
  | none => exact absurd used (find?_eq_none.mp x policy mem)
  | some y => exact single pt.uuid y x

end Listed

section Reading

variable {truths : List Truth}

theorem Describes.trans {pt other : Truth} {c : Challenge} (x : Describes pt c)
    (y : Describes other c) : Describes pt (sharedChallenge other) where
  uuid := y.uuid.symm.trans x.uuid
  truthKey := y.truthKey.symm.trans x.truthKey
  salt := y.salt.symm.trans x.salt
  url := y.url.symm.trans x.url
  providerSalt := y.providerSalt.symm.trans x.providerSalt
  type := y.type.symm.trans x.type
  instructions := y.instructions.symm.trans x.instructions

/-- The recovery that has read the document has the policies when every truth is described by the
one that is listed for it. -/
theorem sharedRecovery_reads_iff (req : ShareRequest) (rnd : ShareRandomness)
    (ver : UInt32) (r : Recovery) : ReadsPolicies req.policies (sharedRecovery host req rnd ver r) ↔
      ∀ policy ∈ req.policies, ∀ pt ∈ policy.truths, ∀ listed,
        (escTruths [] req.policies)[placeOf (escTruths [] req.policies) pt]? =
          some listed → Describes pt (sharedChallenge listed) := by
  have long : req.policies.length = (sealedSecret host req rnd).encMasterKeys.length := by
    simp [sealedSecret, coreSecretEncrypt]
  unfold ReadsPolicies sharedRecovery
  dsimp only
  rw [List.forall₂_iff_get]
  constructor
  · intro reads policy mem pt own listed isListed
    obtain ⟨_, each⟩ := reads
    obtain ⟨idx, below, isPolicy⟩ := mem_iff_getElem.mp mem
    have there : idx < (req.policies.zipWith (sharedPolicy (escTruths [] req.policies))
        (sealedSecret host req rnd).encMasterKeys).length := by
      rw [length_zipWith, ← long, Nat.min_self]
      exact below
    obtain ⟨_, challenges⟩ := each idx below there
    rw [get_eq_getElem, get_eq_getElem, getElem_zipWith, isPolicy] at challenges
    unfold sharedPolicy at challenges
    rw [List.forall₂_map_right_iff, List.forall₂_same] at challenges
    obtain ⟨c, isChallenge, describes⟩ := challenges pt own
    rw [getElem?_map, isListed] at isChallenge
    cases isChallenge
    exact describes
  · intro described
    constructor
    · rw [length_zipWith, ← long, Nat.min_self]
    intro idx below _
    rw [get_eq_getElem, get_eq_getElem, getElem_zipWith]
    refine ⟨rfl, ?_⟩
    unfold sharedPolicy
    rw [List.forall₂_map_right_iff, List.forall₂_same]
    intro pt own
    have mem := getElem_mem below
    obtain ⟨listed, isListed, _⟩ := getElem?_placeOf (escTruths_lists mem pt own)
    refine ⟨sharedChallenge listed, ?_, described _ mem pt own listed isListed⟩
    rw [getElem?_map, isListed]
    rfl

end Reading

/-- The reader agrees with the writer when and only when a uuid stands for one truth and its first
policy uses it once. -/
theorem recoveryDocument_agrees_iff (request : ShareRequest) (random : ShareRandomness)
    (version : UInt32) (r : Recovery) :
    Agrees host request random version r ↔ Unambiguous request.policies := by
  have reads := readDocument_recoveryDocument host request random version r
  have described := sharedRecovery_reads_iff host request random version r
  constructor
  · intro agrees
    obtain ⟨⟨restored, isRestored, policies⟩, once⟩ := agrees
    rw [reads] at isRestored
    cases isRestored
    constructor
    · intro policy member pt own p2 member2 other own2 sameUuid
      obtain ⟨listed, isListed, _⟩ := getElem?_placeOf (escTruths_lists member pt own)
      have samePlace : placeOf (escTruths [] request.policies) other =
          placeOf (escTruths [] request.policies) pt := by
        unfold placeOf
        rw [sameUuid]
      have first := described.mp policies policy member pt own listed isListed
      have second := described.mp policies p2 member2 other own2 listed (samePlace ▸ isListed)
      exact first.trans second
    · apply listed_once_iff.mp
      intro policy member pt own
      rw [← listings_recoveryDocument host request random]
      exact once policy member pt own
  · intro unambiguous
    constructor
    · refine ⟨_, reads, described.mpr ?_⟩
      intro policy member pt own listed isListed
      obtain ⟨found, isFound, sameUuid⟩ := getElem?_placeOf (escTruths_lists member pt own)
      rw [isListed] at isFound
      cases isFound
      obtain ⟨p2, member2, own2⟩ := escTruths_mem (mem_of_getElem? isListed)
      exact unambiguous.same policy member pt own p2 member2 listed own2 sameUuid
    · intro policy member pt own
      rw [listings_recoveryDocument]
      exact listed_once_iff.mpr unambiguous.single policy member pt own

def repeatedTruth : Truth where
  uuid := zeroBlock 32
  keyShare := zeroBlock 32
  nonce := zeroBlock 24
  truthKey := zeroBlock 64
  providerSalt := zeroBlock 16
  salt := zeroBlock 16
  url := "https://provider/"
  type := "question"
  instructions := "name?"
  mimeType := none

def repeatingShare : ShareRequest :=
  { singleShare with
    policies := [policyCreate Host.plain [repeatedTruth, repeatedTruth] (zeroBlock 64)] }

/-- A truth that stands twice in the first policy is listed twice. -/
theorem repeated_truth_listed_twice : ¬ Agrees Host.plain repeatingShare zeroRandomness 1
      (recoveryBegin Host.plain .null 0 "https://provider/" (zeroBlock 16)) := by
  intro agrees
  have once := agrees.once _ mem_cons_self repeatedTruth mem_cons_self
  rw [listings_recoveryDocument, escTruths_countP] at once
  have twice := Nat.succ.inj once
  cases twice

end Anastasis.Client
