import Anastasis.Client.TruthStore
import Anastasis.Library.Record

/-! The upload of a backup by the C reducer: all truths are uploaded at the same time,
and when the last of them is done the secret is shared. -/

set_option autoImplicit false

namespace Anastasis.Reducer

open Library
open Anastasis.Client

structure AuthenticationMethod where
  type : String
  mimeType : Option String
  instructions : String
  challenge : Option Bytes

/-- The `upload_status` of a truth in the state. -/
inductive StatusField where
  | absent
  | number (value : Nat)
  | malformed
deriving DecidableEq

/-- A truth in the state; the object it is read from may be incomplete. -/
structure StoredTruth where
  uploadStatus : StatusField
  truth : Option Truth

structure PolicyMethod where
  provider : String
  authenticationMethod : Nat
  truth : Option StoredTruth

structure AuthenticationProvider where
  disabled : Bool
  salt : Option ProviderSalt

structure PolicyProvider where
  providerUrl : String
  paymentSecret : Option PaymentSecret

structure BackupState where
  identityAttributes : Json
  authenticationMethods : List AuthenticationMethod
  policies : List (List PolicyMethod)
  authenticationProviders : Record String AuthenticationProvider
  policyProviders : List PolicyProvider
  coreSecret : Json
  secretName : Option String
  years : Nat
  timeout : Nat

structure PolicyMethodReference where
  policyIndex : Nat
  methodIndex : Nat
deriving DecidableEq

structure TruthUpload where
  tu : Option TruthUploadOperation
  t : Option Truth
  paymentRequest : Option String
  policies : List PolicyMethodReference
  providerUrl : String
  amIdx : Nat
  us : UploadStatus
  ec : ErrorCode

structure UploadContext where
  state : BackupState
  tues : List TruthUpload

/-- The random blocks of an upload, by the place of the method they are drawn for. -/
structure UploadRandomness where
  truths : PolicyMethodReference → TruthRandomness
  keyshareNonces : PolicyMethodReference → Nonce
  policySalts : Nat → MasterSalt
  share : ShareRandomness

def reducerStateInvalid : ErrorCode := 8401
def internalInvariantFailure : ErrorCode := 60

def lookupSalt (state : BackupState) (providerUrl : String) : Option ProviderSalt := do
  let cfg ← state.authenticationProviders.get? providerUrl
  if cfg.disabled then none else cfg.salt

def isObject : Json → Bool
  | .object _ => true
  | _ => false

variable (host : Host)

def matchesKey (providerUrl : String) (amIdx : Nat) (tue : TruthUpload) : Bool :=
  tue.providerUrl = providerUrl && amIdx = tue.amIdx

def replaceFirst {Element : Type} (test : Element → Bool) (element : Element) :
    List Element → List Element
  | [] => []
  | first :: rest =>
    if test first then element :: rest else first :: replaceFirst test element rest

/-- Where the preparation of a truth leaves the context. After a rejection the uploads
that were started before may go on. -/
inductive Prepared where
  | ok (uc : UploadContext) (asyncTruth : Nat)
  | rejected (uc : Option UploadContext)

def blankTruthUpload (pmr : PolicyMethodReference) (providerUrl : String) (amIdx : Nat) :
    TruthUpload where
  tu := none
  t := none
  paymentRequest := none
  policies := [pmr]
  providerUrl := providerUrl
  amIdx := amIdx
  us := .success
  ec := .none

def truthUploadFor (tues : List TruthUpload) (pmr : PolicyMethodReference)
    (providerUrl : String) (amIdx : Nat) : TruthUpload :=
  match tues.find? (matchesKey providerUrl amIdx) with
  | none => blankTruthUpload pmr providerUrl amIdx
  | some tue => { tue with policies := tue.policies ++ [pmr] }

/-- A truth upload takes the place of the one at its key, or is added at the head. -/
def putTruthUpload (tues : List TruthUpload) (tue : TruthUpload) : List TruthUpload :=
  if tues.any (matchesKey tue.providerUrl tue.amIdx) then
    replaceFirst (matchesKey tue.providerUrl tue.amIdx) tue tues
  else tue :: tues

/-- What becomes of a truth upload when a truth is found in the state, with the change
in the number of running uploads. -/
inductive Refreshed where
  | ok (tue : TruthUpload) (asyncTruth : Nat)
  | rejected (tue : TruthUpload)

/-- A running upload is cancelled once the truth turns out to be stored; a truth that is
not stored is uploaded unless it already is; and a truth is not kept beside its upload. -/
def refreshTruth (state : BackupState) (random : UploadRandomness) (pmr : PolicyMethodReference)
    (tue : TruthUpload) (truth : StoredTruth) (asyncTruth : Nat)
    (authMethod : AuthenticationMethod) : Refreshed :=
  if truth.uploadStatus = .malformed then .rejected tue
  else
    let mustUpload := truth.uploadStatus ≠ .number 0
    match tue.t.or truth.truth with
    | none => .rejected tue
    | some t =>
      let tue := { tue with t := some t }
      match tue.tu, decide mustUpload with
      | some _, false => .ok { tue with tu := none } (asyncTruth - 1)
      | none, true =>
        match lookupSalt state tue.providerUrl, authMethod.challenge with
        | some salt, some truthData =>
          if isObject state.identityAttributes then
            let id := userIdentifierDerive host state.identityAttributes salt
            let tu := truthUpload3 host id t truthData state.years state.timeout
              (random.keyshareNonces pmr)
            .ok { tue with tu := some tu, t := none } (asyncTruth + 1)
          else .rejected tue
        | _, _ => .rejected tue
      | some _, true => .ok { tue with t := none } asyncTruth
      | none, false => .ok tue asyncTruth

def addTruthObject (uc : UploadContext) (random : UploadRandomness)
    (pmr : PolicyMethodReference) (providerUrl : String) (amIdx : Nat) (truth : StoredTruth)
    (asyncTruth : Nat) (authMethod : AuthenticationMethod) : Prepared :=
  match refreshTruth host uc.state random pmr
      (truthUploadFor uc.tues pmr providerUrl amIdx) truth asyncTruth authMethod with
  | .ok tue asyncTruth => .ok { uc with tues := putTruthUpload uc.tues tue } asyncTruth
  | .rejected tue => .rejected (some { uc with tues := putTruthUpload uc.tues tue })

/-- The method has no truth in the state: one is made up unless its key has one. -/
def checkTruthUpload (uc : UploadContext) (random : UploadRandomness)
    (pmr : PolicyMethodReference) (providerUrl : String) (amIdx : Nat) (asyncTruth : Nat)
    (authMethod : AuthenticationMethod) : Prepared :=
  if !isObject uc.state.identityAttributes then .rejected (some uc)
  else if uc.tues.any (matchesKey providerUrl amIdx) then
    .ok { uc with tues :=
      putTruthUpload uc.tues (truthUploadFor uc.tues pmr providerUrl amIdx) } asyncTruth
  else
    match authMethod.challenge with
    | none => .rejected (some uc)
    | some truthData =>
      match lookupSalt uc.state providerUrl with
      | none => .rejected none
      | some providerSalt =>
        let id := userIdentifierDerive host uc.state.identityAttributes providerSalt
        let tu := truthUpload host id providerUrl authMethod.type authMethod.instructions
          authMethod.mimeType providerSalt truthData uc.state.years uc.state.timeout
          (random.truths pmr) (random.keyshareNonces pmr)
        let tue := { blankTruthUpload pmr providerUrl amIdx with tu := some tu }
        .ok { uc with tues := putTruthUpload uc.tues tue } (asyncTruth + 1)

/-- All methods of all policies with their places, in the order of the loops. -/
def placedMethods (policies : List (List PolicyMethod)) :
    List (PolicyMethodReference × PolicyMethod) :=
  policies.zipIdx.flatMap fun (methods, policyIndex) =>
    methods.zipIdx.map fun (method, methodIndex) => (⟨policyIndex, methodIndex⟩, method)

def prepareMethod (random : UploadRandomness) (uc : UploadContext) (asyncTruth : Nat)
    (place : PolicyMethodReference) (method : PolicyMethod) : Prepared :=
  match uc.state.authenticationMethods[method.authenticationMethod]? with
  | none => .rejected none
  | some amj =>
    match method.truth with
    | none => checkTruthUpload host uc random place method.provider
        method.authenticationMethod asyncTruth amj
    | some truth => addTruthObject host uc random place method.provider
        method.authenticationMethod truth asyncTruth amj

def prepareMethods (random : UploadRandomness) :
    List (PolicyMethodReference × PolicyMethod) → UploadContext → Nat → Prepared
  | [], uc, asyncTruth => .ok uc asyncTruth
  | (place, method) :: rest, uc, asyncTruth =>
    match prepareMethod host random uc asyncTruth place method with
    | .rejected left => .rejected left
    | .ok uc asyncTruth => prepareMethods random rest uc asyncTruth

def prepare (state : BackupState) (random : UploadRandomness) : Prepared :=
  if state.authenticationMethods.isEmpty || state.policies.isEmpty then .rejected none
  else prepareMethods host random (placedMethods state.policies) { state := state, tues := [] } 0

/-- The truth that a policy gets for a method: the one of the state, or else the one of
the truth upload at the same key. -/
def methodTruth (uc : UploadContext) (method : PolicyMethod) : Except Fault (Option Truth) :=
  match method.truth with
  | some stored => .ok stored.truth
  | none =>
    match uc.tues.find? (matchesKey method.provider method.authenticationMethod) with
    | none => .ok none
    | some tue =>
      match tue.t with
      | none => .error .nullPointer
      | some t => .ok (some t)

def methodTruths (uc : UploadContext) : List PolicyMethod → Except Fault (Option (List Truth))
  | [] => .ok (some [])
  | method :: rest => do
      match ← methodTruth uc method with
      | none => return none
      | some truth =>
        match ← methodTruths uc rest with
        | none => return none
        | some truths => return some (truth :: truths)

def sharePolicies (uc : UploadContext) (random : UploadRandomness) :
    Nat → List (List PolicyMethod) → Except Fault (Option (List Policy))
  | _, [] => .ok (some [])
  | index, methods :: rest => do
      if methods.isEmpty then return none
      match ← methodTruths uc methods with
      | none => return none
      | some truths =>
        match ← sharePolicies uc random (index + 1) rest with
        | none => return none
        | some policies =>
          return some (policyCreate host truths (random.policySalts index) :: policies)

def providerDetails (state : BackupState) (provider : PolicyProvider) :
    Option Client.ProviderDetails :=
  (lookupSalt state provider.providerUrl).map fun salt =>
    { providerUrl := provider.providerUrl
      paymentSecret := provider.paymentSecret.getD (zeroBlock 32)
      providerSalt := salt }

inductive ShareOutcome where
  | failed (ec : ErrorCode)
  | started (request : ShareRequest) (ss : SecretShare)

def shareSecret (uc : UploadContext) (random : UploadRandomness) : Except Fault ShareOutcome := do
  let state := uc.state
  if !isObject state.identityAttributes || state.policies.isEmpty ||
      state.policyProviders.isEmpty then
    return .failed reducerStateInvalid
  match ← sharePolicies host uc random 0 state.policies with
  | none => return .failed reducerStateInvalid
  | some policies =>
    match state.policyProviders.mapM (providerDetails state) with
    | none => return .failed reducerStateInvalid
    | some pds =>
      let request : ShareRequest := {
        idData := state.identityAttributes, providers := pds, policies := policies
        paymentYearsRequested := state.years, payTimeout := state.timeout
        secretName := state.secretName, coreSecret := host.jsonDumps state.coreSecret }
      match secretShare host request random.share with
      | none => return .failed internalInvariantFailure
      | some ss => return .started request ss

/-- The method with the truth of a truth upload, if that has its place. -/
def takeTruth (place : PolicyMethodReference) (method : PolicyMethod) (tue : TruthUpload) :
    PolicyMethod :=
  match tue.t with
  | none => method
  | some t =>
    if place ∈ tue.policies then
      { method with truth := some { uploadStatus := .number tue.us.ctorIdx, truth := some t } }
    else method

def serializedTruth (tues : List TruthUpload) (place : PolicyMethodReference)
    (method : PolicyMethod) : PolicyMethod :=
  tues.foldl (takeTruth place) method

def serializeTruth (uc : UploadContext) : BackupState :=
  { uc.state with
    policies := uc.state.policies.mapIdx fun policyIndex methods =>
      methods.mapIdx fun methodIndex method =>
        serializedTruth uc.tues ⟨policyIndex, methodIndex⟩ method }

inductive Report where
  | failed (ec : ErrorCode)
  | truthsPaying (state : BackupState) (payments : List String)

/-- An upload: its context until it is cancelled, the secret share once it is started,
and what was reported. -/
structure UploadProcess where
  context : Option UploadContext
  shared : Option (ShareRequest × SecretShare)
  reported : List Report
  fault : Option Fault

def beginShare (uc : UploadContext) (random : UploadRandomness) (reported : List Report) :
    UploadProcess :=
  match shareSecret host uc random with
  | .error fault => { context := none, shared := none, reported := reported, fault := some fault }
  | .ok (.failed ec) =>
    { context := none, shared := none, reported := reported ++ [.failed ec], fault := none }
  | .ok (.started request ss) =>
    { context := some uc, shared := some (request, ss), reported := reported, fault := none }

def checkUploadFinished (uc : UploadContext) (random : UploadRandomness)
    (reported : List Report) : UploadProcess :=
  match uc.tues.find? fun tue => tue.ec ≠ .none with
  | some tue =>
    { context := none, shared := none, reported := reported ++ [.failed tue.ec], fault := none }
  | none =>
    if uc.tues.any fun tue => tue.tu.isSome then
      { context := some uc, shared := none, reported := reported, fault := none }
    else if uc.tues.any fun tue => tue.paymentRequest.isSome then
      { context := none, shared := none
        reported := reported ++
          [.truthsPaying (serializeTruth uc) (uc.tues.filterMap TruthUpload.paymentRequest)]
        fault := none }
    else beginShare host uc random reported

def paymentRequestOf (ud : UploadDetails) : Option String :=
  match ud.us, ud.details with
  | .paymentRequired, .payment request _ => some request
  | _, _ => none

def truthUploadCb (tue : TruthUpload) (tu : TruthUploadOperation) (ud : UploadDetails) :
    TruthUpload :=
  { tue with
    tu := none, t := some tu.t, ec := ud.ec, us := ud.us
    paymentRequest := (paymentRequestOf ud).or tue.paymentRequest }

def UploadProcess.deliver (random : UploadRandomness) (process : UploadProcess)
    (position : Nat) (response : Response) : Option UploadProcess := do
  let uc ← process.context
  let tue ← uc.tues[position]?
  let tu ← tue.tu
  let tue := truthUploadCb tue tu (truthAnswer host tu.tso response)
  return checkUploadFinished host { uc with tues := uc.tues.set position tue } random
    process.reported

def Delivers (random : UploadRandomness) (process : UploadProcess) (event : Nat × Response)
    (next : UploadProcess) : Prop :=
  process.deliver host random event.1 event.2 = some next

def upload (state : BackupState) (random : UploadRandomness) : UploadProcess :=
  match prepare host state random with
  | .rejected left =>
    { context := left, shared := none, reported := [.failed reducerStateInvalid], fault := none }
  | .ok uc asyncTruth =>
    if asyncTruth > 0 then
      { context := some uc, shared := none, reported := [], fault := none }
    else beginShare host uc random []

end Anastasis.Reducer
