import Anastasis.Client.RecoveryRoundTrip
import Anastasis.Core.UploadFees

/-! Discovering a policy: the recovery document is looked up at all providers, and the first one
that can be read is used. -/

set_option autoImplicit false

namespace Anastasis.Reducer.Discovery

open Library Library.Transition Client

structure ProviderMethod where
  type : String
  usageFee : Core.Fee

/-- What the state says about a provider. Methods that cannot be parsed are `none`, and so is a
mark for disabled providers that is not a truth value. -/
structure ProviderConfig where
  disabled : Option Bool
  httpStatus : Option Nat
  salt : Option ProviderSalt
  methods : Option (List (Option ProviderMethod))

inductive RecoveryStates where
  | continentSelecting
  | countrySelecting
  | userAttributesCollecting
  | secretSelecting
  | challengeSelecting
  | challengePaying
  | challengeSolving
  | recoveryFinished
deriving DecidableEq

structure ChallengeInfo where
  uuid : TruthUuid
  cost : Core.Fee
  type : String
  uuidDisplay : String
  instructions : String

structure RecoveryInfo where
  challenges : List ChallengeInfo
  policies : List (List TruthUuid)
  secretName : Option String
  providerUrl : String
  version : UInt32

/-- The parts of a recovery state that the discovery reads or sets. -/
structure RecoveryState where
  authenticationProviders : Record String ProviderConfig
  recoveryState : RecoveryStates
  recoveryInformation : Option RecoveryInfo
  recoveryDocument : Option Json

inductive Report where
  | failed (code : ErrorCode) (detail : String)
  | succeeded (state : RecoveryState)

def stateInvalid : ErrorCode := 8401
def policyLookupFailed : ErrorCode := 8410
def backupProviderFailed : ErrorCode := 8411
def policyMalformed : ErrorCode := 8413
def networkFailed : ErrorCode := 8414

def failByError : RecoveryStatus → Report
  | .policyDownloadFailed =>
    .failed networkFailed "download failed due to unexpected network issue"
  | .policyDownloadNoPolicy => .failed policyMalformed "policy document returned was malformed"
  | .policyDownloadTooBig =>
    .failed policyMalformed "policy document too large for client memory"
  | .policyDownloadInvalidCompression =>
    .failed policyMalformed "failed to decompress policy document"
  | .policyDownloadNoJson =>
    .failed policyMalformed "policy document returned was not in JSON format"
  | .policyMalformedJson =>
    .failed policyMalformed "policy document returned was not in required JSON format"
  | .policyServerError =>
    .failed backupProviderFailed "Anastasis server reported transient internal error"
  | .policyGone => .failed policyLookupFailed "policy document no longer exists"
  | .policyUnknown => .failed policyLookupFailed "account unknown to Anastasis server"

def returnNoPolicy : Report := .failed networkFailed "could not contact provider (offline)"

/-! ## Costs -/

inductive CostLookup where
  | found (cost : Core.Fee)
  | notFound
  | sysErr

def lookupCost (providers : Record String ProviderConfig) (providerUrl type : String) :
    CostLookup :=
  match (providers.get? providerUrl).bind ProviderConfig.methods with
  | none => .sysErr
  | some methods =>
    match (methods.filterMap id).find? fun method => method.type = type with
    | none => .notFound
    | some method => .found method.usageFee

/-- The state of one search, with the entry that was added last at the head. -/
structure PolicyDownloadEntry where
  backendUrl : String
  recovery : Recovery

structure RecoverSecretState where
  state : RecoveryState
  entries : List PolicyDownloadEntry

def RecoverSecretState.urls (rss : RecoverSecretState) : List String :=
  rss.entries.map PolicyDownloadEntry.backendUrl

section Found

variable (host : Host) (providers : Record String ProviderConfig)

def uuidDisplay (uuid : TruthUuid) : String :=
  String.ofList ((host.dataToString uuid.val).toList.take 6)

def challengeInfo (c : Challenge) : Except Fault (Option ChallengeInfo) :=
  match lookupCost providers c.url c.type with
  | .sysErr => .ok none
  | .notFound => .error .assertion
  | .found cost =>
    .ok (some
      { uuid := c.uuid
        cost := cost
        type := c.type
        uuidDisplay := uuidDisplay host c.uuid
        instructions := c.instructions })

def policyUuids (r : Recovery) (dp : DecryptionPolicy) : List TruthUuid :=
  dp.challenges.filterMap fun place => r.cs[place]?.map Challenge.uuid

def recoveryInfo (backendUrl : String) (r : Recovery) : Except Fault (Option RecoveryInfo) :=
  match collect (challengeInfo host providers) r.cs with
  | .error fault => .error fault
  | .ok none => .ok none
  | .ok (some challenges) =>
    .ok (some
      { challenges := challenges
        policies := r.dps.map (policyUuids r)
        secretName := r.secretName
        providerUrl := backendUrl
        version := r.version })

def RecoveryState.select (state : RecoveryState) (info : RecoveryInfo) (document : Json) :
    RecoveryState :=
  { state with
    recoveryInformation := some info
    recoveryDocument := some document
    recoveryState := .secretSelecting }

def policyFound (state : RecoveryState) (backendUrl : String) (r : Recovery) :
    Except Fault Report :=
  match recoveryInfo host state.authenticationProviders backendUrl r with
  | .error fault => .error fault
  | .ok none => .ok (.failed stateInvalid "failed to 'lookup_cost'")
  | .ok (some info) => do
      let document ← recoverySerialize host r
      pure (.succeeded (state.select info document))

end Found

/-! ## Aborting a recovery whose document could not be read -/

section Documents

variable (host : Host)

def documentText (id : UserIdentifier) (policy : Bytes) : Option Bytes :=
  let nonce := policy.take 24
  host.secretboxOpenEasy (policy.drop 24) nonce (deriveKey host id.val nonce (ascii "erd"))

def documentJson (id : UserIdentifier) (policy : Bytes) : Option Json := do
  let plaintext ← documentText host id policy
  let ptSize := ntohl (plaintext.take 4)
  guard (4 ≤ plaintext.length ∧ host.mallocLarge ptSize = true)
  let pt ← host.uncompress ptSize (plaintext.drop 4)
  host.jsonLoadb pt

def escrowMethods (document : Json) : Option (List Json) := do
  let _ ← document.member? "policies"
  let escMethods ← document.member? "escrow_methods"
  let _ ← parseOptional Json.string? document "secret_name"
  let _ ← parseVarsize host document "encrypted_core_secret"
  pure (arrayItems escMethods)

/-- A method that cannot be parsed leaves the challenges after it unset. -/
def unsetChallenges (document : Json) : Bool :=
  match escrowMethods host document with
  | none => false
  | some methods =>
    1 < (methods.dropWhile fun method => (parseChallenge host method).isSome).length

def abortFaults (id : UserIdentifier) (httpStatus : Nat) (dd : Option DownloadDetails) : Bool :=
  httpStatus = 200 &&
    ((dd.bind DownloadDetails.policy).bind (documentJson host id)).any (unsetChallenges host)

end Documents

/-! ## The search -/

inductive Context where
  | live (rss : RecoverSecretState)
  | freed
  | crashed (fault : Fault)

inductive Trace where
  | answered (url : String) (lookup : PolicyLookup)
  | cancelled (url : String)
  | released (url : String)
  | called (report : Report)

/-- The context, the requests under way, and what has happened. -/
structure Search where
  context : Context
  jobs : List String
  log : List Trace

structure RecoveryRequest where
  attributes : List (String × Json)
  version : Option UInt32
  providerUrl : Option String

section Searching

variable (host : Host)

def launchRecovery (request : RecoveryRequest) (providerUrl : String) (cfg : ProviderConfig) :
    Option PolicyDownloadEntry :=
  if cfg.httpStatus = some 200 then
    cfg.salt.map fun salt =>
      { backendUrl := providerUrl
        recovery := recoveryBegin host (.object request.attributes) (request.version.getD 0)
          providerUrl salt }
  else none

def candidates (request : RecoveryRequest) (state : RecoveryState) :
    List (String × ProviderConfig) :=
  match request.providerUrl with
  | none => state.authenticationProviders.entries
  | some url =>
    (state.authenticationProviders.get? url).elim [] fun cfg => [(url, cfg)]

def launchedEntries (request : RecoveryRequest) (state : RecoveryState) :
    List PolicyDownloadEntry :=
  ((candidates request state).filterMap fun provider =>
    launchRecovery host request provider.1 provider.2).reverse

def beginDownloads (request : RecoveryRequest) (state : RecoveryState) : Search :=
  let rss : RecoverSecretState := ⟨state, launchedEntries host request state⟩
  if rss.entries.isEmpty then ⟨.freed, [], [.called returnNoPolicy]⟩
  else ⟨.live rss, rss.urls, []⟩

/-- The entries are released, and the requests are cancelled that have no answer yet. -/
def freeRss (answered : String) (entries : List PolicyDownloadEntry) : List Trace :=
  entries.flatMap fun pd =>
    if pd.backendUrl = answered then [.released pd.backendUrl]
    else [.cancelled pd.backendUrl, .released pd.backendUrl]

namespace Search

variable (search : Search)

def crash (fault : Fault) : Search := { search with context := .crashed fault }

def coreEarlySecretCb (rss : RecoverSecretState) (url : String) (status : RecoveryStatus) :
    Search :=
  let entries := rss.entries.filter fun pd => pd.backendUrl ≠ url
  let log := search.log ++ [.answered url (.rejected status), .released url]
  if entries.isEmpty then
    { search with context := .freed, log := log ++ [.called (failByError status)] }
  else { search with context := .live { rss with entries := entries }, log := log }

/-- A request has brought a document that can be read, which ends the search. -/
def policyLookupCb (rss : RecoverSecretState) (url : String) (r : Recovery) : Search :=
  match policyFound host rss.state url r with
  | .error fault => search.crash fault
  | .ok report =>
    { context := .freed
      jobs := search.jobs.filter fun job => !rss.urls.contains job
      log := search.log ++ [.answered url (.accepted r), .called report] ++
        freeRss url rss.entries }

def finish (rss : RecoverSecretState) (pd : PolicyDownloadEntry) (httpStatus : Nat)
    (dd : Option DownloadDetails) : Search :=
  match Client.policyLookupCb host pd.recovery httpStatus dd with
  | .error fault => search.crash fault
  | .ok (.rejected status) =>
    let next := search.coreEarlySecretCb rss pd.backendUrl status
    if abortFaults host pd.recovery.id httpStatus dd then next.crash .nullPointer else next
  | .ok (.accepted r) => search.policyLookupCb host rss pd.backendUrl r

def lookupFinished (url : String) (httpStatus : Nat) (dd : Option DownloadDetails) : Search :=
  let search := { search with jobs := search.jobs.erase url }
  match search.context with
  | .live rss =>
    match rss.entries.find? fun pd => pd.backendUrl = url with
    | none => search.crash .wildPointer
    | some pd => search.finish host rss pd httpStatus dd
  | _ => search.crash .wildPointer

end Search

structure LookupEvent where
  url : String
  httpStatus : Nat
  dd : Option DownloadDetails

def Search.perform (search : Search) (event : LookupEvent) : Option Search :=
  if event.url ∈ search.jobs ∧ (event.httpStatus = 200 → event.dd.isSome = true) then
    some (search.lookupFinished host event.url event.httpStatus event.dd)
  else none

def DiscoveryStep (search : Search) (event : LookupEvent) (next : Search) : Prop :=
  (∀ fault, search.context ≠ .crashed fault) ∧ search.perform host event = some next

end Searching

end Anastasis.Reducer.Discovery
