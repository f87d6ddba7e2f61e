import Anastasis.Client.PolicyStore
import Anastasis.Library.Transition

/-! Sharing a secret: the recovery document is built once, sealed for every provider
and uploaded to all of them at the same time. -/

set_option autoImplicit false

namespace Anastasis.Client

open Library List Option

structure Truth where
  uuid : TruthUuid
  keyShare : KeyShare
  nonce : Nonce
  truthKey : TruthKey
  providerSalt : ProviderSalt
  salt : QuestionSalt
  url : String
  type : String
  instructions : String
  mimeType : Option String

structure Policy where
  policyKey : PolicyKey
  salt : MasterSalt
  truths : List Truth

structure ProviderDetails where
  providerUrl : String
  paymentSecret : PaymentSecret
  providerSalt : ProviderSalt

variable (host : Host)

def policyCreate (truths : List Truth) (salt : MasterSalt) : Policy where
  policyKey := policyKeyDerive host (truths.map Truth.keyShare) salt
  salt := salt
  truths := truths

structure ShareRequest where
  idData : Json
  providers : List ProviderDetails
  policies : List Policy
  paymentYearsRequested : Nat
  payTimeout : Nat
  secretName : Option String
  coreSecret : Bytes

structure ShareRandomness where
  masterKey : HashCode
  nonce : Nonce
  masterKeyNonces : Nat → Nonce
  documentNonces : Nat → Nonce

def decPolicy (policy : Policy) (encMasterKey : Bytes) : Json :=
  packObject [
    ("master_key", packData host encMasterKey),
    ("uuids", packArray (policy.truths.map fun truth =>
      Json.string (host.dataToString truth.uuid.val))),
    ("salt", packData host policy.salt.val)]

def escMethod (pt : Truth) : Json :=
  packObject [
    ("uuid", packData host pt.uuid.val),
    ("url", packString pt.url),
    ("instructions", packString pt.instructions),
    ("truth_key", packData host pt.truthKey.val),
    ("truth_salt", packData host pt.salt.val),
    ("provider_salt", packData host pt.providerSalt.val),
    ("escrow_type", packString pt.type)]

/-- The truths of all policies without those that an earlier policy lists already. -/
def escTruths : List Policy → List Policy → List Truth
  | _, [] => []
  | earlier, policy :: later =>
    policy.truths.filter (fun pt =>
      !earlier.any fun p2 => p2.truths.any fun other => other.uuid = pt.uuid) ++
    escTruths (earlier ++ [policy]) later

def recoveryDocument (request : ShareRequest) (random : ShareRandomness) : Json :=
  let cser := coreSecretEncrypt host (request.policies.map Policy.policyKey) request.coreSecret
    random.masterKey random.nonce random.masterKeyNonces
  packObject [
    ("secret_name", request.secretName.map Json.string),
    ("policies", packArray (request.policies.zipWith (decPolicy host) cser.encMasterKeys)),
    ("escrow_methods", packArray ((escTruths [] request.policies).map (escMethod host))),
    ("encrypted_core_secret", packData host cser.encCoreSecret)]

def htonl (value : Nat) : Bytes :=
  [UInt8.ofNat (value / 2 ^ 24), UInt8.ofNat (value / 2 ^ 16), UInt8.ofNat (value / 2 ^ 8),
    UInt8.ofNat value]

def packDocument (document : Json) : Option Bytes :=
  let rdStr := host.jsonDumps document
  (host.compress rdStr).map fun cbuf => htonl rdStr.length ++ cbuf

structure PolicyStoreState where
  id : UserIdentifier
  currHash : HashCode
  paymentSecret : PaymentSecret
  serverSalt : ProviderSalt
  pso : Option PolicyStoreOperation
  anastasisUrl : String
  paymentRequest : Option String
  policyVersion : Nat
  policyExpiration : Nat

structure SecretShare where
  pss : List PolicyStoreState

def isZero (secret : PaymentSecret) : Bool := secret.val.all (· = 0)

/-- The upload to the provider at position `l`. -/
def startStore (request : ShareRequest) (random : ShareRandomness) (document : Bytes) (l : Nat)
    (provider : ProviderDetails) : Option PolicyStoreState :=
  let id := userIdentifierDerive host request.idData provider.providerSalt
  let anastasisPriv := accountPrivateKeyDerive host id
  let recoveryData := recoveryDocumentEncrypt host (random.documentNonces l) id document
  let paymentSecret := if isZero provider.paymentSecret then none else some provider.paymentSecret
  (policyStore host provider.providerUrl anastasisPriv recoveryData
    request.paymentYearsRequested paymentSecret request.payTimeout).map fun pso =>
      { id := id, currHash := host.hash recoveryData, paymentSecret := provider.paymentSecret
        serverSalt := provider.providerSalt, pso := some pso
        anastasisUrl := provider.providerUrl, paymentRequest := none
        policyVersion := 0, policyExpiration := 0 }

def startStores (request : ShareRequest) (random : ShareRandomness) (document : Bytes) :
    Nat → List ProviderDetails → Option (List PolicyStoreState)
  | _, [] => some []
  | l, provider :: rest => do
      let pss ← startStore host request random document l provider
      let others ← startStores request random document (l + 1) rest
      return pss :: others

/-- No share is returned without providers, or when compressing the document or setting
up a request fails. -/
def secretShare (request : ShareRequest) (random : ShareRandomness) : Option SecretShare :=
  if request.providers.isEmpty then none
  else do
    let document ← packDocument host (recoveryDocument host request random)
    let pss ← startStores host request random document 0 request.providers
    return { pss := pss }

structure ProviderSuccessStatus where
  policyVersion : Nat
  providerUrl : String
  policyExpiration : Nat

structure SharePaymentRequest where
  paymentRequestUrl : String
  providerUrl : String
  paymentSecret : PaymentSecret

inductive ShareResult where
  | success (pss : List ProviderSuccessStatus)
  | paymentRequired (paymentRequests : List SharePaymentRequest)
  | providerFailed (providerUrl : String) (httpStatus : Nat) (ec : ErrorCode)

/-- What the callback of one upload leaves behind: uploads still to wait for, or the
result that was reported before the share was freed. -/
inductive StoreStep where
  | waiting (ss : SecretShare)
  | reported (sr : ShareResult)

/-- The status of an upload once the hash it came with has been compared. -/
def checkedStatus (pss : PolicyStoreState) (ud : UploadDetails) : Except Fault UploadStatus :=
  if ud.us = .success then
    match ud.details.currBackupHash with
    | none => .error .nullPointer
    | some hash => .ok (if hash = pss.currHash then .success else .serverError)
  else .ok ud.us

/-- A provider without a payment request counts as one that stored the document. -/
def shareResult (ss : SecretShare) : ShareResult :=
  let spr := ss.pss.filterMap fun pssi => pssi.paymentRequest.map fun request =>
    { paymentRequestUrl := request, providerUrl := pssi.anastasisUrl
      paymentSecret := pssi.paymentSecret : SharePaymentRequest }
  let apss := ss.pss.filterMap fun pssi =>
    if pssi.paymentRequest.isNone then
      some { policyVersion := pssi.policyVersion, providerUrl := pssi.anastasisUrl
             policyExpiration := pssi.policyExpiration : ProviderSuccessStatus }
    else none
  if spr.isEmpty then .success apss else .paymentRequired spr

def stillPending (ss : SecretShare) : Bool := ss.pss.any fun pssi => pssi.pso.isSome

/-- The upload at position `l` is over: note its outcome, and report when it was the
last one. -/
def recordStore (ss : SecretShare) (l : Nat) (pss : PolicyStoreState) : StoreStep :=
  let ss := { ss with pss := ss.pss.set l pss }
  if stillPending ss then .waiting ss else .reported (shareResult ss)

def policyStoreCb (ss : SecretShare) (l : Nat) (pss : PolicyStoreState) (ud : UploadDetails) :
    Except Fault StoreStep := do
  let pss := { pss with pso := none }
  match ← checkedStatus pss ud with
  | .success =>
    match ud.details with
    | .success _ expiration version =>
      return recordStore ss l
        { pss with policyVersion := version, policyExpiration := expiration }
    | _ => return recordStore ss l pss
  | .paymentRequired =>
    match ud.details with
    | .payment request ps =>
      return recordStore ss l { pss with paymentRequest := some request, paymentSecret := ps }
    | _ => .error .nullPointer
  | .httpError | .clientError | .serverError =>
    return .reported (.providerFailed pss.anastasisUrl ud.httpStatus ud.ec)
  | .conflictingTruth => return recordStore ss l pss

/-- A share with the results its callback has been called with; the share is gone once
it is cancelled or the process has ended with a fault. -/
structure ShareProcess where
  share : Option SecretShare
  reported : List ShareResult
  fault : Option Fault

def shareBegin (request : ShareRequest) (random : ShareRandomness) : ShareProcess :=
  { share := secretShare host request random, reported := [], fault := none }

/-- The answer of one provider arrives. Only uploads that are under way get answers. -/
def ShareProcess.deliver (process : ShareProcess) (l : Nat) (response : Response) :
    Option ShareProcess := do
  let ss ← process.share
  let pss ← ss.pss[l]?
  let pso ← pss.pso
  match (answer host pso response).bind (policyStoreCb ss l pss) with
  | .error fault => return { process with share := none, fault := some fault }
  | .ok (.waiting ss) => return { process with share := some ss }
  | .ok (.reported sr) => return { process with share := none, reported := process.reported ++ [sr] }

def Completes (process : ShareProcess) (event : Nat × Response) (next : ShareProcess) : Prop :=
  process.deliver host event.1 event.2 = some next

def ShareProcess.Complete (process : ShareProcess) : Prop :=
  ∀ l response, process.deliver host l response = none

def answerOf (events : List (Nat × Response)) (l : Nat) : Option Response :=
  (events.find? fun event => event.1 = l).map Prod.snd

def Stores (pso : PolicyStoreOperation) (response : Response) : Prop :=
  ∃ ud, answer host pso response = .ok ud ∧ ud.us = .success ∧
    ud.details.currBackupHash = some (host.hash pso.postcopy)

def Demands (pso : PolicyStoreOperation) (response : Response) (request : String)
    (secret : PaymentSecret) : Prop :=
  ∃ ud, answer host pso response = .ok ud ∧ ud.us = .paymentRequired ∧
    ud.details = .payment request secret

def Fails (pso : PolicyStoreOperation) (response : Response) (httpStatus : Nat)
    (ec : ErrorCode) : Prop :=
  ∃ ud, answer host pso response = .ok ud ∧ (ud.us = .clientError ∨ ud.us = .serverError) ∧
    ud.httpStatus = httpStatus ∧ ud.ec = ec

/-- The upload that was started at a position and the answer that it got. -/
structure Uploaded (started : SecretShare) (events : List (Nat × Response)) (l : Nat)
    (pss : PolicyStoreState) (pso : PolicyStoreOperation) (response : Response) : Prop where
  provider : started.pss[l]? = some pss
  upload : pss.pso = some pso
  answered : (l, response) ∈ events

/-- A reported result says what the providers answered: success only when all of them
stored the document, a list of exactly the demanded payments when none of them failed,
and a failure only of a provider that failed. -/
def Truthful (started : SecretShare) (events : List (Nat × Response)) : ShareResult → Prop
  | .success _ =>
    ∀ l pss, started.pss[l]? = some pss →
      ∃ pso response, Uploaded started events l pss pso response ∧ Stores host pso response
  | .paymentRequired requests =>
    requests ≠ [] ∧
    (∀ l pss, started.pss[l]? = some pss →
      ∃ pso response, Uploaded started events l pss pso response ∧
        ∀ httpStatus ec, ¬ Fails host pso response httpStatus ec) ∧
    ∀ request, request ∈ requests ↔
      ∃ l pss pso response, Uploaded started events l pss pso response ∧
        Demands host pso response request.paymentRequestUrl request.paymentSecret ∧
        request.providerUrl = pss.anastasisUrl
  | .providerFailed providerUrl httpStatus ec =>
    ∃ l pss pso response, Uploaded started events l pss pso response ∧
      Fails host pso response httpStatus ec ∧ providerUrl = pss.anastasisUrl

/-- What the callback of a share is owed once nothing is under way: no fault, and one
result, which is truthful. -/
structure Settled (started : SecretShare) (events : List (Nat × Response))
    (final : ShareProcess) : Prop where
  noFault : final.fault = none
  reportedOnce : ∃ sr, final.reported = [sr] ∧ Truthful host started events sr

def Guarded (events : List (Nat × Response)) : Prop :=
  ∀ event ∈ events, ¬ Unguarded host event.2

inductive SlotState (pss : PolicyStoreState) : Option Response → PolicyStoreState → Prop where
  | pending : SlotState pss none pss
  | stored (pso : PolicyStoreOperation) (upload : pss.pso = some pso) (response : Response)
      (stores : Stores host pso response) (version expiration : Nat) :
      SlotState pss (some response)
        { pss with pso := none, policyVersion := version, policyExpiration := expiration }
  | demanded (pso : PolicyStoreOperation) (upload : pss.pso = some pso) (response : Response)
      (request : String) (secret : PaymentSecret)
      (demands : Demands host pso response request secret) :
      SlotState pss (some response)
        { pss with pso := none, paymentRequest := some request, paymentSecret := secret }

structure Slots (started : SecretShare) (events : List (Nat × Response)) (ss : SecretShare) :
    Prop where
  length : ss.pss.length = started.pss.length
  once : ∀ l response, (l, response) ∈ events → answerOf events l = some response
  each : ∀ l pss, started.pss[l]? = some pss →
    ∃ now, ss.pss[l]? = some now ∧ SlotState host pss (answerOf events l) now

/-- A share as it is started: an upload is under way at every provider. -/
structure Fresh (started : SecretShare) : Prop where
  nonempty : started.pss ≠ []
  each : ∀ (l : Nat) (pss : PolicyStoreState), started.pss[l]? = some pss →
    ∃ pso : PolicyStoreOperation, pss.pso = some pso ∧ pso.toPolicyStoreHeaders = noHeaders ∧
    pss.currHash = pso.newUploadHash ∧ pso.newUploadHash = host.hash pso.postcopy ∧
    pss.paymentRequest = none

inductive Stage (started : SecretShare) (events : List (Nat × Response)) :
    ShareProcess → Prop where
  | running (ss : SecretShare) (guarded : Guarded host events)
      (slots : Slots host started events ss) (pending : stillPending ss = true) :
      Stage started events { share := some ss, reported := [], fault := none }
  | reported (sr : ShareResult) (guarded : Guarded host events)
      (truthful : Truthful host started events sr) :
      Stage started events { share := none, reported := [sr], fault := none }
  | faulted (fault : Fault) (unguarded : ¬ Guarded host events) :
      Stage started events { share := none, reported := [], fault := some fault }

private theorem answerOf_append (events : List (Nat × Response)) (l other : Nat)
    (response : Response) (fresh : answerOf events l = none) :
    answerOf (events ++ [(l, response)]) other =
      if other = l then some response else answerOf events other := by
  simp only [answerOf, map_eq_none_iff] at fresh
  simp only [answerOf, find?_append]
  by_cases eq : other = l
  · subst eq
    simp [fresh]
  · simp [eq, Ne.symm eq]

variable {events : List (Nat × Response)} {response resp : Response}

private theorem answerOf_mem {l : Nat} (told : answerOf events l = some resp) :
    (l, resp) ∈ events := by
  simp only [answerOf, map_eq_some_iff] at told
  obtain ⟨⟨pos, given⟩, h, rfl⟩ := told
  have eq : pos = l := by simpa using find?_some h
  subst eq
  exact mem_of_find?_eq_some h

private theorem answerOf_none {l : Nat} (unanswered : answerOf events l = none)
    (resp : Response) : (l, resp) ∉ events := by
  simp only [answerOf, map_eq_none_iff, find?_eq_none] at unanswered
  intro mem
  simpa using unanswered (l, resp) mem

private theorem startStores_each (req : ShareRequest) (rnd : ShareRandomness)
    (document : Bytes) {x : Nat} {ps : List ProviderDetails} {pss : List PolicyStoreState}
    (started : startStores host req rnd document x ps = some pss) :
    pss.length = ps.length ∧ ∀ st ∈ pss, ∃ pso, st.pso = some pso ∧ pso.toPolicyStoreHeaders = noHeaders ∧
      st.currHash = pso.newUploadHash ∧ pso.newUploadHash = host.hash pso.postcopy ∧
      st.paymentRequest = none := by
  induction ps generalizing x pss with
  | nil =>
    simp only [startStores, Option.some.injEq] at started
    subst started
    simp
  | cons prov rest ih =>
    simp only [startStores, bind_eq_bind, bind_eq_some_iff, Option.pure_def,
      Option.some.injEq] at started
    obtain ⟨st, startedState, ys, startedOthers, rfl⟩ := started
    obtain ⟨length, each⟩ := ih startedOthers
    refine ⟨by simp [length], ?_⟩
    intro cand mem
    rcases mem_cons.mp mem with rfl | later
    · simp only [startStore, map_eq_some_iff] at startedState
      obtain ⟨pso, kept, rfl⟩ := startedState
      obtain ⟨waiting, posted, hashed⟩ := policyStore_document host kept
      exact ⟨pso, rfl, waiting, by simp [hashed], by simp [posted, hashed], rfl⟩
    · exact each cand later

variable {started st : SecretShare}

theorem secretShare_fresh {req : ShareRequest} {rnd : ShareRandomness}
    (ret : secretShare host req rnd = some started) : Fresh host started := by
  unfold secretShare at ret
  cases ps : req.providers with
  | nil => simp [ps] at ret
  | cons prov rest =>
    simp only [ps, isEmpty_cons, Bool.false_eq_true, if_false,
      bind_eq_bind, bind_eq_some_iff, Option.pure_def, Option.some.injEq] at ret
    obtain ⟨document, _, pss, startedStores, rfl⟩ := ret
    obtain ⟨length, each⟩ := startStores_each host req rnd document startedStores
    refine ⟨?_, fun l st h => each st (mem_of_getElem? h)⟩
    rintro rfl
    simp at length

private theorem slots_fresh (started : SecretShare) : Slots host started [] started :=
  ⟨rfl, fun _ _ mem => by simp at mem, fun _ pss h => ⟨pss, h, .pending⟩⟩

private theorem Slots.answered {started ss : SecretShare} {events : List (Nat × Response)}
    (slots : Slots host started events ss) {l : Nat} {pss : PolicyStoreState}
    (h : started.pss[l]? = some pss) (waiting : answerOf events l = none)
    {resp : Response} {now : PolicyStoreState} (told : SlotState host pss (some resp) now) :
    Slots host started (events ++ [(l, resp)]) { pss := ss.pss.set l now } := by
  have inside : l < ss.pss.length := by
    rw [slots.length]
    exact (List.getElem?_eq_some_iff.mp h).1
  refine ⟨by simp [slots.length], ?_, ?_⟩
  · intro y given mem
    rw [answerOf_append events l y resp waiting]
    rcases mem_append.mp mem with old | last
    · have has := slots.once y given old
      have ne : y ≠ l := by
        rintro rfl
        simp [waiting] at has
      simp [ne, has]
    · simp_all
  intro y otherPss otherFound
  rw [answerOf_append events l y resp waiting]
  cases decEq y l with
  | isTrue eq =>
    subst eq
    have samePss : otherPss = pss := Option.some.inj (otherFound.symm.trans h)
    subst samePss
    exact ⟨now, by simp [inside], by simpa using told⟩
  | isFalse ne =>
    obtain ⟨st, stateFound, slot⟩ := slots.each y otherPss otherFound
    exact ⟨st, by simpa [getElem?_set, Ne.symm ne] using stateFound,
      by simpa [ne] using slot⟩

variable {ss : SecretShare}

/-- Once nothing is pending every upload has been stored or a payment demanded for it. -/
private theorem Slots.settled (fresh : Fresh host st) (slots : Slots host st events ss)
    (quiet : stillPending ss = false) {l : Nat} {pss : PolicyStoreState}
    (h : st.pss[l]? = some pss) :
    ∃ now pso resp, ss.pss[l]? = some now ∧ Uploaded st events l pss pso resp ∧
      now.anastasisUrl = pss.anastasisUrl ∧ (Stores host pso resp ∧ now.paymentRequest = none ∨
        ∃ req, now.paymentRequest = some req ∧ Demands host pso resp req now.paymentSecret) := by
  obtain ⟨now, nowFound, slot⟩ := slots.each l pss h
  obtain ⟨pso, upload, _, _, _, unpaid⟩ := fresh.each l pss h
  have idle : now.pso = none := by
    simp only [stillPending, List.any_eq_false] at quiet
    simpa using quiet now (mem_of_getElem? nowFound)
  generalize given : answerOf events l = recorded at slot
  cases slot with
  | pending => simp [upload] at idle
  | stored pso' upload' resp stores =>
    cases upload.symm.trans upload'
    exact ⟨_, pso, resp, nowFound, ⟨h, upload, answerOf_mem given⟩, rfl, .inl ⟨stores, unpaid⟩⟩
  | demanded pso' upload' resp req secret demands =>
    cases upload.symm.trans upload'
    exact ⟨_, pso, resp, nowFound, ⟨h, upload, answerOf_mem given⟩, rfl, .inr ⟨req, rfl, demands⟩⟩

variable {pso : PolicyStoreOperation}

private theorem Stores.not_demands (stores : Stores host pso response) {request : String}
    {secret : PaymentSecret} : ¬ Demands host pso response request secret := by
  rintro ⟨ud, told, st, _⟩
  obtain ⟨kept, storedAnswer, storedStatus, _⟩ := stores
  cases storedAnswer.symm.trans told
  rw [storedStatus] at st
  cases st

private theorem Stores.not_fails (stores : Stores host pso response) {httpStatus : Nat}
    {ec : ErrorCode} : ¬ Fails host pso response httpStatus ec := by
  rintro ⟨ud, told, st, _⟩
  obtain ⟨kept, storedAnswer, storedStatus, _⟩ := stores
  cases storedAnswer.symm.trans told
  rw [storedStatus] at st
  rcases st with st | st <;> cases st

private theorem Demands.not_fails {req : String} {secret : PaymentSecret}
    (demands : Demands host pso response req secret) {httpStatus : Nat} {ec : ErrorCode} :
    ¬ Fails host pso response httpStatus ec := by
  rintro ⟨ud, told, st, _⟩
  obtain ⟨demanded, demandedAnswer, demandedStatus, _⟩ := demands
  cases demandedAnswer.symm.trans told
  rw [demandedStatus] at st
  rcases st with st | st <;> cases st

private theorem Demands.unique {req y : String} {secret otherSecret : PaymentSecret}
    (demands : Demands host pso resp req secret)
    (again : Demands host pso resp y otherSecret) : req = y ∧ secret = otherSecret := by
  obtain ⟨ud, told, _, dt⟩ := demands
  obtain ⟨ud', answered', _, details'⟩ := again
  cases told.symm.trans answered'
  cases dt.symm.trans details'
  exact ⟨rfl, rfl⟩

private theorem Slots.response_unique (slots : Slots host st events ss) {l : Nat}
    {pss pss' : PolicyStoreState} {pso' : PolicyStoreOperation} {response' : Response}
    (x : Uploaded st events l pss pso resp) (y : Uploaded st events l pss' pso' response') :
    pss = pss' ∧ pso = pso' ∧ resp = response' := by
  have samePss : pss = pss' := Option.some.inj (x.provider.symm.trans y.provider)
  subst samePss
  exact ⟨rfl, Option.some.inj (x.upload.symm.trans y.upload), Option.some.inj
    ((slots.once _ _ x.answered).symm.trans (slots.once _ _ y.answered))⟩

/-- The result computed once nothing is pending tells what the providers answered. -/
theorem shareResult_truthful (fresh : Fresh host st) (slots : Slots host st events ss)
    (quiet : stillPending ss = false) : Truthful host st events (shareResult ss) := by
  unfold shareResult
  generalize requestsShape : (ss.pss.filterMap fun pssi => pssi.paymentRequest.map fun req =>
    ({ paymentRequestUrl := req, providerUrl := pssi.anastasisUrl
       paymentSecret := pssi.paymentSecret } : SharePaymentRequest)) = requests
  cases requests with
  | nil =>
    intro l pss h
    obtain ⟨now, pso, resp, nowFound, uploaded, _, kept | ⟨req, demanded, _⟩⟩ :=
      slots.settled host fresh quiet h
    · exact ⟨pso, resp, uploaded, kept.1⟩
    · rw [filterMap_eq_nil_iff] at requestsShape
      simpa [demanded] using requestsShape now (mem_of_getElem? nowFound)
  | cons x rest =>
    simp only [isEmpty_cons, Bool.false_eq_true, if_false]
    rw [← requestsShape]
    refine ⟨by simp [requestsShape], ?_, ?_⟩
    · intro l pss h
      obtain ⟨now, pso, resp, _, uploaded, _, kept | ⟨req, _, demands⟩⟩ :=
        slots.settled host fresh quiet h
      · exact ⟨pso, resp, uploaded, fun _ _ => kept.1.not_fails⟩
      · exact ⟨pso, resp, uploaded, fun _ _ => demands.not_fails⟩
    intro req
    rw [mem_filterMap]
    constructor
    · rintro ⟨now, mem, made⟩
      obtain ⟨l, nowFound⟩ := mem_iff_getElem?.mp mem
      have inside : l < st.pss.length := by
        rw [← slots.length]
        exact (List.getElem?_eq_some_iff.mp nowFound).1
      obtain ⟨now', pso, resp, nowFound', uploaded, sameUrl,
          kept | ⟨paymentRequest, demanded, demands⟩⟩ :=
        slots.settled host fresh quiet (getElem?_eq_getElem inside)
      · cases nowFound.symm.trans nowFound'
        simp [kept.2] at made
      cases nowFound.symm.trans nowFound'
      simp only [demanded, map_some, Option.some.injEq] at made
      subst made
      exact ⟨l, _, pso, resp, uploaded, demands, sameUrl⟩
    · rintro ⟨l, pss, pso, resp, uploaded, demands, sameUrl⟩
      obtain ⟨now, pso', response', nowFound, uploaded', nowUrl,
          kept | ⟨paymentRequest, demanded, demands'⟩⟩ :=
        slots.settled host fresh quiet uploaded.provider
      · obtain ⟨_, rfl, rfl⟩ := slots.response_unique host uploaded uploaded'
        exact absurd demands kept.1.not_demands
      obtain ⟨_, rfl, rfl⟩ := slots.response_unique host uploaded uploaded'
      obtain ⟨sameRequest, sameSecret⟩ := demands.unique host demands'
      refine ⟨now, mem_of_getElem? nowFound, ?_⟩
      rw [demanded, map_some, nowUrl, ← sameUrl, ← sameRequest, ← sameSecret]

private theorem guarded_append (guarded : Guarded host events) (l : Nat)
    (safe : ¬ Unguarded host resp) : Guarded host (events ++ [(l, resp)]) := by
  intro ev mem
  rcases mem_append.mp mem with old | last
  · exact guarded ev old
  · rw [mem_singleton.mp last]
    exact safe

private theorem recordStore_stage (fresh : Fresh host st) {l : Nat} {now : PolicyStoreState}
    (guarded : Guarded host events) (slots : Slots host st events { pss := ss.pss.set l now }) :
    (∃ later, recordStore ss l now = .waiting later ∧
      Stage host st events { share := some later, reported := [], fault := none }) ∨
    ∃ sr, recordStore ss l now = .reported sr ∧
      Stage host st events { share := none, reported := [sr], fault := none } := by
  cases due : stillPending { pss := ss.pss.set l now } with
  | true => exact .inl ⟨_, if_pos due, .running _ guarded slots due⟩
  | false =>
    exact .inr ⟨_, if_neg (by simp [due]),
      .reported _ guarded (shareResult_truthful host fresh slots due)⟩

private theorem policyStoreCb_stored (ss : SecretShare) (l : Nat) (pss : PolicyStoreState)
    (st : Nat) (hash : HashCode) (exp ver : Nat) (eq : pss.currHash = hash) :
    policyStoreCb ss l pss { us := .success, httpStatus := st, ec := .none
                             details := .success hash exp ver } = .ok (recordStore ss l { pss with
        pso := none, policyVersion := ver, policyExpiration := exp }) := by
  have checked : checkedStatus { pss with pso := none }
      { us := .success, httpStatus := st, ec := .none
        details := .success hash exp ver } = .ok .success := by
    simp [checkedStatus, UploadUnion.currBackupHash, eq]
  simp only [policyStoreCb, checked]
  rfl

private theorem policyStoreCb_payment (ss : SecretShare) (l : Nat) (pss : PolicyStoreState)
    (st : Nat) (req : String) (secret : PaymentSecret) :
    policyStoreCb ss l pss { us := .paymentRequired, httpStatus := st, ec := .none
                             details := .payment req secret } = .ok (recordStore ss l { pss with
        pso := none, paymentRequest := some req, paymentSecret := secret }) := rfl

private theorem policyStoreCb_failed (ss : SecretShare) (l : Nat) (pss : PolicyStoreState)
    (us : UploadStatus) (st : Nat) (ec : ErrorCode)
    (failure : us = .clientError ∨ us = .serverError) :
    policyStoreCb ss l pss (bareDetails us st ec) =
      .ok (.reported (.providerFailed pss.anastasisUrl st ec)) := by
  rcases failure with rfl | rfl <;> rfl

theorem deliver_stage (fresh : Fresh host started) {process next : ShareProcess}
    (stage : Stage host started events process) {l : Nat}
    (delivered : process.deliver host l response = some next) :
    Stage host started (events ++ [(l, response)]) next := by
  cases stage with
  | reported sr guarded truthful => simp [ShareProcess.deliver] at delivered
  | faulted fault unguarded => simp [ShareProcess.deliver] at delivered
  | running ss guarded slots pending =>
    simp only [ShareProcess.deliver, bind_eq_bind, bind_some, bind_eq_some_iff] at delivered
    obtain ⟨now, nowFound, pso, upload, delivered⟩ := delivered
    have mem : l < started.pss.length := by
      rw [← slots.length]
      exact (List.getElem?_eq_some_iff.mp nowFound).1
    obtain ⟨pss, got⟩ : ∃ pss, started.pss[l]? = some pss := ⟨_, getElem?_eq_getElem mem⟩
    obtain ⟨now', nowFound', slot⟩ := slots.each l pss got
    cases nowFound.symm.trans nowFound'
    generalize recorded : answerOf events l = given at slot
    cases slot with
    | stored => simp at upload
    | demanded => simp at upload
    | pending =>
      obtain ⟨pso', upload', waiting, sameHash, hashed, _⟩ := fresh.each l now got
      cases upload.symm.trans upload'
      have uploaded : Uploaded started (events ++ [(l, response)]) l now pso response :=
        ⟨got, upload, by simp⟩
      have cases := answer_cases host waiting response
      generalize out : answer host pso response = result at cases delivered
      cases cases with
      | fault unguarded =>
        cases delivered
        exact .faulted _ fun all => all (l, response) (by simp) unguarded
      | unset unguarded status ec =>
        cases delivered
        exact .faulted _ fun all => all (l, response) (by simp) unguarded
      | stored safe status exp ver =>
        have guarded' := guarded_append host guarded l safe
        have stores : Stores host pso response :=
          ⟨_, out, rfl, by simp [UploadUnion.currBackupHash, hashed]⟩
        have slots' := slots.answered host got recorded (.stored pso upload response stores ver exp)
        simp only [Except.bind,
          policyStoreCb_stored ss l now status _ exp ver sameHash] at delivered
        rcases recordStore_stage host fresh guarded' slots' with
          ⟨later, result, stage⟩ | ⟨sr, result, stage⟩
        all_goals
          rw [result] at delivered
          cases delivered
          exact stage
      | payment safe status req secret =>
        have guarded' := guarded_append host guarded l safe
        have slots' := slots.answered host got recorded
          (.demanded pso upload response req secret ⟨_, out, rfl, rfl⟩)
        simp only [Except.bind, policyStoreCb_payment] at delivered
        rcases recordStore_stage host fresh guarded' slots' with
          ⟨later, result, stage⟩ | ⟨sr, result, stage⟩
        all_goals
          rw [result] at delivered
          cases delivered
          exact stage
      | failed safe us status ec failure =>
        have guarded' := guarded_append host guarded l safe
        have truthful : Truthful host started (events ++ [(l, response)])
            (.providerFailed now.anastasisUrl status ec) :=
          ⟨l, now, pso, response, uploaded, ⟨_, out, failure, rfl, rfl⟩, rfl⟩
        simp only [Except.bind, policyStoreCb_failed ss l now us status ec failure] at delivered
        cases delivered
        exact .reported _ guarded' truthful

private theorem fresh_pending (fresh : Fresh host st) : stillPending st = true := by
  obtain ⟨pss, rest, shape⟩ := exists_cons_of_ne_nil fresh.nonempty
  obtain ⟨pso, upload, _⟩ := fresh.each 0 pss (by simp [shape])
  simp [stillPending, shape, upload]

theorem run_stage (fresh : Fresh host started) {final : ShareProcess}
    (run : Transition.Run (Completes host)
      { share := some started, reported := [], fault := none } events final) :
    Stage host started events final := by
  refine run.invariantWithHistory (Stage host started) ?_ ?_
  · exact .running started (fun _ mem => by simp at mem)
      (slots_fresh host started) (fresh_pending host fresh)
  · intro history process ev next stage completes
    exact deliver_stage host fresh stage completes

def SetUp (request : ShareRequest) (random : ShareRandomness) : Prop :=
  ∃ document, packDocument host (recoveryDocument host request random) = some document ∧
    ∀ l provider, request.providers[l]? = some provider →
      (startStore host request random document l provider).isSome

private theorem startStores_isSome_iff (req : ShareRequest) (rnd : ShareRandomness)
    (document : Bytes) (x : Nat) (ps : List ProviderDetails) :
    (startStores host req rnd document x ps).isSome ↔ ∀ l prov, ps[l]? = some prov →
        (startStore host req rnd document (x + l) prov).isSome := by
  induction ps generalizing x with
  | nil => simp [startStores]
  | cons prov rest ih =>
    have tail := ih (x + 1)
    constructor
    · intro started l cand h
      obtain ⟨pss, startedAll⟩ := isSome_iff_exists.mp started
      simp only [startStores, bind_eq_bind, bind_eq_some_iff, Option.pure_def,
        Option.some.injEq] at startedAll
      obtain ⟨st, startedState, ys, startedOthers, _⟩ := startedAll
      cases l with
      | zero =>
        cases h
        simp [startedState]
      | succ l =>
        have later := tail.mp (by simp [startedOthers]) l cand (by simpa using h)
        rwa [Nat.add_assoc, Nat.add_comm 1 l] at later
    · intro each
      obtain ⟨st, startedState⟩ := isSome_iff_exists.mp (each 0 prov (by simp))
      obtain ⟨ys, startedOthers⟩ := isSome_iff_exists.mp (tail.mpr fun l cand h => by
        have later := each (l + 1) cand (by simpa using h)
        rwa [Nat.add_comm l 1, ← Nat.add_assoc] at later)
      rw [Nat.add_zero] at startedState
      simp [startStores, startedState, startedOthers]

theorem secretShare_isSome_iff (request : ShareRequest) (random : ShareRandomness) :
    (secretShare host request random).isSome ↔
      request.providers ≠ [] ∧ SetUp host request random := by
  unfold secretShare SetUp
  cases ps : request.providers with
  | nil => simp
  | cons prov rest =>
    cases packed : packDocument host (recoveryDocument host request random) with
    | none => simp
    | some document =>
      have each := startStores_isSome_iff host request random document 0 (prov :: rest)
      simp only [Nat.zero_add] at each
      simp [← each, isSome_bind]

private theorem running_not_complete (due : stillPending ss = true) :
    ¬ ShareProcess.Complete host { share := some ss, reported := [], fault := none } := by
  intro complete
  obtain ⟨pss, mem, uploading⟩ := List.any_eq_true.mp due
  obtain ⟨l, h⟩ := mem_iff_getElem?.mp mem
  obtain ⟨pso, upload⟩ := isSome_iff_exists.mp uploading
  have nothing := complete l { responseCode := 0, headers := [], data := [] }
  simp only [ShareProcess.deliver, bind_eq_bind, bind_some, h, upload] at nothing
  split at nothing <;> cases nothing

/-- In every run until nothing is under way the callback of a share gets its one
truthful result exactly if there is a provider, the requests can be set up, and no
answer demands a payment without a usable request or reports a stored document without
the headers for its version and expiration. -/
theorem secretShare_settled_iff {request : ShareRequest} {random : ShareRandomness}
    {events : List (Nat × Response)} {final : ShareProcess}
    (run : Transition.Run (Completes host) (shareBegin host request random) events final)
    (complete : final.Complete host) : (∃ started, secretShare host request random = some started ∧
        Settled host started events final) ↔
      request.providers ≠ [] ∧ SetUp host request random ∧ Guarded host events := by
  rw [← and_assoc, ← secretShare_isSome_iff]
  cases shared : secretShare host request random with
  | none => simp
  | some started =>
    have fresh := secretShare_fresh host shared
    rw [shareBegin, shared] at run
    simp only [Option.some.injEq, exists_eq_left', isSome_some, true_and]
    cases run_stage host fresh run with
    | running ss guarded slots pending =>
      exact absurd complete (running_not_complete host pending)
    | reported sr guarded truthful =>
      exact ⟨fun _ => guarded, fun _ => ⟨rfl, sr, rfl, truthful⟩⟩
    | faulted fault unguarded =>
      refine ⟨fun settled => ?_, fun guarded => absurd guarded unguarded⟩
      cases settled.noFault

def singleShare : ShareRequest where
  idData := .object [("name", .string "Max")]
  providers := [{
    providerUrl := "http://provider.example/"
    paymentSecret := zeroBlock 32
    providerSalt := zeroBlock 16 }]
  policies := []
  paymentYearsRequested := 1
  payTimeout := 0
  secretName := none
  coreSecret := [1, 2, 3]

def zeroRandomness : ShareRandomness where
  masterKey := zeroBlock 64
  nonce := zeroBlock 24
  masterKeyNonces _ := zeroBlock 24
  documentNonces _ := zeroBlock 24

/-- A provider that is out of order: the failure is reported once. -/
theorem secretShare_settled_out_of_order :
    (∃ started, secretShare .plain singleShare zeroRandomness = some started ∧
        Settled .plain started [(0, { responseCode := 500, headers := [], data := [] })]
          { share := none
            reported := [.providerFailed "http://provider.example/" 500 0]
            fault := none }) ↔
      singleShare.providers ≠ [] ∧ SetUp .plain singleShare zeroRandomness ∧
        Guarded .plain [(0, { responseCode := 500, headers := [], data := [] })] :=
  secretShare_settled_iff .plain (.next .start rfl) fun _ _ => rfl

/-- A provider demands a payment but names no payment request: the null pointer in the
place of the backup hash is read, and the callback is never called. -/
theorem payment_without_request_faults : ∃ final : ShareProcess,
      Transition.Run (Completes .plain) (shareBegin .plain singleShare zeroRandomness)
        [(0, { responseCode := 402, headers := [], data := [] })] final ∧
      final.Complete .plain ∧ final.reported = [] ∧
      ¬ ∃ started, secretShare .plain singleShare zeroRandomness = some started ∧
        Settled .plain started [(0, { responseCode := 402, headers := [], data := [] })] final := by
  refine ⟨{ share := none, reported := [], fault := some .nullPointer }, .next .start rfl,
    fun _ _ => rfl, rfl, ?_⟩
  rintro ⟨_, _, settled⟩
  cases settled.noFault

end Anastasis.Client
