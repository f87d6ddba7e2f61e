import Anastasis.Client.SecretShare
import Anastasis.Library.Traverse

/-! Recovering a secret: the recovery document is downloaded, the challenges are solved
in any order, and the first policy that is complete opens the core secret. -/

set_option autoImplicit false

namespace Anastasis.Client

open Library

structure KeyShareLookupOperation where
  url : String
  displayUrl : String
  headers : List String

inductive KeyShareDownloadDetails where
  | success (eks : EncryptedKeyShare)
  | paymentRequired (talerPayUri : String) (paymentSecret : PaymentSecret)
  | invalidAnswer (httpStatus : Nat) (body : Bytes) (contentType : Option String)
  | redirectForAuthentication (redirectUrl : Option String)
  | serverError (httpStatus : Nat) (ec : ErrorCode)
  | clientFailure (httpStatus : Nat) (ec : ErrorCode)
  | truthUnknown
  | rateLimitExceeded
  | authenticationTimeout (httpStatus : Nat) (ec : ErrorCode)
  | externalChallengeInstructions (externalChallenge : Json)

inductive ChallengeStartResponse where
  | solved
  | instructions (httpStatus : Nat) (body : Bytes) (contentType : Option String)
  | redirectForAuthentication (redirectUrl : Option String)
  | truthUnknown
  | rateLimitExceeded
  | serverFailure (httpStatus : Nat) (ec : ErrorCode)
  | authTimeout (httpStatus : Nat) (ec : ErrorCode)
  | paymentRequired (talerPayUri : String) (paymentSecret : PaymentSecret)
  | externalInstructions (externalChallenge : Json)

structure Challenge where
  uuid : TruthUuid
  truthKey : TruthKey
  salt : QuestionSalt
  providerSalt : ProviderSalt
  keyShare : KeyShare
  url : String
  type : String
  instructions : String
  solved : Bool
  async : Bool
  answer : Option Bytes
  kslo : Option KeyShareLookupOperation

structure DecryptionPolicy where
  challenges : List Nat
  emk : Bytes
  salt : MasterSalt

/-- The solved challenges are listed by their places, in the order in which they were
solved. -/
structure Recovery where
  id : UserIdentifier
  idData : Json
  providerUrl : String
  secretName : Option String
  version : UInt32
  dps : List DecryptionPolicy
  cs : List Challenge
  solvedChallenges : List Nat
  encCoreSecret : Option Bytes
  plo : Option String

inductive RecoveryStatus where
  | policyDownloadFailed
  | policyDownloadNoPolicy
  | policyDownloadTooBig
  | policyDownloadInvalidCompression
  | policyDownloadNoJson
  | policyMalformedJson
  | policyServerError
  | policyGone
  | policyUnknown
deriving DecidableEq

/-- What the core secret callback is told; the secret is a null pointer when it could
not be decrypted. -/
inductive CoreSecretReport where
  | success (coreSecret : Option Bytes) (coreSecretSize : Nat)
  | failure (status : RecoveryStatus)
deriving DecidableEq

/-- What the policy callback is told about the policies and the challenges. -/
structure RecoveryInformation where
  dps : List (List Nat)
  csLen : Nat
  version : UInt32
  secretName : Option String

structure DownloadDetails where
  policy : Option Bytes
  version : UInt32

variable (host : Host)

def hashAnswer (code : Nat) : HashCode := host.hash (ascii (toString code))

def keyshareLookup (backendUrl : String) (truthUuid : TruthUuid) (truthKey : TruthKey)
    (paymentSecret : Option PaymentSecret) (timeout : Nat) (hashedAnswer : Option HashCode) :
    Option KeyShareLookupOperation := do
  let tms := timeout / 1000
  let jobHeaders ← host.slistAppend []
    ("Anastasis-Truth-Decryption-Key: " ++ host.dataToString truthKey.val)
  let jobHeaders ← paymentHeader host jobHeaders paymentSecret
  let path := "truth/" ++ host.dataToString truthUuid.val
  let timeoutMs := ("timeout_ms", if timeout ≠ 0 then some (toString tms) else none)
  return {
    url := host.urlJoin backendUrl path
      (match hashedAnswer with
      | some hashedAnswer => [("response", some (host.dataToString hashedAnswer.val)), timeoutMs]
      | none => [timeoutMs])
    displayUrl := host.urlJoin backendUrl path []
    headers := jobHeaders }

def policyLookup (backendUrl : String) (pub : Block 32) (version : UInt32) : String :=
  host.urlJoin backendUrl ("policy/" ++ host.dataToString pub.val)
    (if version ≠ 0 then [("version", some (toString version))] else [])

def recoveryBegin (idData : Json) (version : UInt32) (providerUrl : String)
    (providerSalt : ProviderSalt) : Recovery :=
  let id := userIdentifierDerive host idData providerSalt
  let pubKey := host.eddsaKeyGetPublic (accountPrivateKeyDerive host id)
  { id := id, idData := idData, providerUrl := providerUrl, secretName := none
    version := version, dps := [], cs := [], solvedChallenges := [], encCoreSecret := none
    plo := some (policyLookup host providerUrl pubKey version) }

/-! The fields of a JSON object. -/

def parseString (object : Json) (field : String) : Option String :=
  (object.member? field).bind Json.string?

def parseFixed (size : Nat) (object : Json) (field : String) : Option (Block size) :=
  (parseString object field).bind (host.stringToData size)

def parseVarsize (object : Json) (field : String) : Option Bytes :=
  (parseString object field).bind host.stringToVarsize

/-- A field that may be absent or null; the outer option says whether it could be parsed. -/
def parseOptional {Value : Type} (parse : Json → Option Value) (object : Json)
    (field : String) : Option (Option Value) :=
  match object.member? field with
  | none => some none
  | some .null => some none
  | some value => (parse value).map some

def arrayItems (value : Json) : List Json := value.array?.getD []

def parseChallenge (cs : Json) : Option Challenge := do
  let uuid ← parseFixed host 32 cs "uuid"
  let url ← parseString cs "url"
  let instructions ← parseString cs "instructions"
  let truthKey ← parseFixed host 64 cs "truth_key"
  let salt ← parseFixed host 16 cs "truth_salt"
  let providerSalt ← parseFixed host 16 cs "provider_salt"
  let escrowType ← parseString cs "escrow_type"
  return {
    uuid := uuid, truthKey := truthKey, salt := salt, providerSalt := providerSalt
    keyShare := zeroBlock 32, url := url, type := escrowType, instructions := instructions
    solved := false, async := false, answer := none, kslo := none }

def findChallenge (cs : List Challenge) (uuid : Json) : Option Nat := do
  let uuidStr ← uuid.string?
  let uuid ← host.stringToData 32 uuidStr
  cs.findIdx? fun challenge => challenge.uuid = uuid

def parsePolicy (cs : List Challenge) (policy : Json) :
    Except Fault (Option DecryptionPolicy) :=
  let parsed := do
    let emk ← parseVarsize host policy "master_key"
    let salt ← parseFixed host 64 policy "salt"
    let uuids ← policy.member? "uuids"
    let uuids ← uuids.array?
    return (emk, salt, uuids)
  match parsed with
  | none => .ok none
  | some (emk, salt, uuids) =>
    if emk.isEmpty then .error .assertion
    else .ok ((uuids.mapM (findChallenge host cs)).map fun challenges =>
      { challenges := challenges, emk := emk, salt := salt })

def parsePolicies (cs : List Challenge) (policies : List Json) :
    Except Fault (Option (List DecryptionPolicy)) :=
  collect (parsePolicy host cs) policies

def readDocument (r : Recovery) (version : UInt32) (document : Json) :
    Except Fault (Option Recovery) :=
  let parsed := do
    let decPolicies ← document.member? "policies"
    let escMethods ← document.member? "escrow_methods"
    let secretName ← parseOptional Json.string? document "secret_name"
    let encCoreSecret ← parseVarsize host document "encrypted_core_secret"
    let cs ← (arrayItems escMethods).mapM (parseChallenge host)
    return (decPolicies, secretName, encCoreSecret, cs)
  match parsed with
  | none => .ok none
  | some (decPolicies, secretName, encCoreSecret, cs) => do
      match ← parsePolicies host cs (arrayItems decPolicies) with
      | none => return none
      | some dps =>
        return some { r with
          plo := none, version := version, secretName := secretName.or r.secretName
          encCoreSecret := some encCoreSecret, cs := cs, dps := dps, solvedChallenges := [] }

def ntohl (data : Bytes) : Nat := data.foldl (fun value byte => value * 256 + byte.toNat) 0

inductive PolicyLookup where
  | rejected (status : RecoveryStatus)
  | accepted (r : Recovery)

def openDocument (r : Recovery) (version : UInt32) (policy : Bytes) : Except Fault PolicyLookup := do
  let (plaintext, sizePlaintext) ← recoveryDocumentDecrypt host r.id policy
  if sizePlaintext < 4 then return .rejected .policyDownloadInvalidCompression
  let plaintext ← readBuffer plaintext sizePlaintext
  let ptSize := ntohl (plaintext.take 4)
  if !host.mallocLarge ptSize then return .rejected .policyDownloadTooBig
  match host.uncompress ptSize (plaintext.drop 4) with
  | none => return .rejected .policyDownloadInvalidCompression
  | some pt =>
    match host.jsonLoadb pt with
    | none => return .rejected .policyDownloadNoJson
    | some document =>
      match ← readDocument host r version document with
      | none => return .rejected .policyMalformedJson
      | some r => return .accepted r

def policyLookupCb (r : Recovery) (httpStatus : Nat) (dd : Option DownloadDetails) :
    Except Fault PolicyLookup :=
  if httpStatus = 200 then
    match dd with
    | none => .error .nullPointer
    | some dd =>
      match dd.policy with
      | none => .ok (.rejected .policyDownloadNoPolicy)
      | some policy => openDocument host r dd.version policy
  else if httpStatus = 404 then .ok (.rejected .policyUnknown)
  else if httpStatus = 204 then .ok (.rejected .policyGone)
  else if httpStatus = 500 then .ok (.rejected .policyServerError)
  else .ok (.rejected .policyDownloadFailed)

def challengeStart (c : Challenge) (psp : Option PaymentSecret) (timeout : Nat)
    (hashedAnswer : Option HashCode) : Challenge :=
  if c.solved || c.kslo.isSome then c
  else { c with kslo := keyshareLookup host c.url c.uuid c.truthKey psp timeout hashedAnswer }

def challengeAnswer (c : Challenge) (psp : Option PaymentSecret) (timeout : Nat)
    (answerStr : Bytes) : Challenge :=
  let c := { c with answer := some answerStr }
  challengeStart host c psp timeout (some (secureAnswerHash host answerStr c.uuid c.salt))

def challengeAnswer2 (c : Challenge) (psp : Option PaymentSecret) (timeout : Nat)
    (answer : Nat) : Challenge :=
  challengeStart host c psp timeout (some (hashAnswer host answer))

def challengeAbort (c : Challenge) : Challenge := { c with kslo := none }

/-- What the callback of a challenge is told about a lookup that did not succeed. -/
def feedback : KeyShareDownloadDetails → ChallengeStartResponse
  | .success _ => .solved
  | .paymentRequired talerPayUri paymentSecret => .paymentRequired talerPayUri paymentSecret
  | .invalidAnswer httpStatus body contentType => .instructions httpStatus body contentType
  | .redirectForAuthentication redirectUrl => .redirectForAuthentication redirectUrl
  | .serverError httpStatus ec => .serverFailure httpStatus ec
  | .clientFailure httpStatus ec => .serverFailure httpStatus ec
  | .truthUnknown => .truthUnknown
  | .rateLimitExceeded => .rateLimitExceeded
  | .authenticationTimeout httpStatus ec => .authTimeout httpStatus ec
  | .externalChallengeInstructions externalChallenge => .externalInstructions externalChallenge

def isAuthenticationTimeout : KeyShareDownloadDetails → Bool
  | .authenticationTimeout _ _ => true
  | _ => false

def satisfied (solved : List Nat) (challenges : List Nat) : Bool :=
  challenges.all fun challenge => solved.contains challenge

def solvedKeyShare (r : Recovery) (challenge : Nat) : Except Fault KeyShare :=
  match (r.solvedChallenges.find? fun solved => challenge = solved).bind (r.cs[·]?) with
  | none => .error .nullPointer
  | some c => .ok c.keyShare

def recoverCoreSecret (r : Recovery) (rdps : DecryptionPolicy) :
    Except Fault CoreSecretReport := do
  let keyShares ← rdps.challenges.mapM (solvedKeyShare r)
  let policyKey := policyKeyDerive host keyShares rdps.salt
  if rdps.emk.isEmpty then .error .assertion
  else
    let (coreSecret, coreSecretSize) ←
      coreSecretRecover host rdps.emk policyKey (r.encCoreSecret.getD [])
    return .success coreSecret coreSecretSize

def solveChallenge (r : Recovery) (position : Nat) (c : Challenge) (eks : EncryptedKeyShare) :
    Except Fault Recovery := do
  let id := userIdentifierDerive host r.idData c.providerSalt
  let keyShare ← keyshareDecrypt host eks id c.answer
  if r.solvedChallenges.length < r.cs.length then
    return { r with
      cs := r.cs.set position { c with kslo := none, keyShare := keyShare, solved := true }
      solvedChallenges := r.solvedChallenges ++ [position] }
  else .error .outOfBounds

structure RecoveryProcess where
  recovery : Option Recovery
  announced : Option RecoveryInformation
  feedback : List (Nat × ChallengeStartResponse)
  reported : List CoreSecretReport
  fault : Option Fault

inductive RecoveryEvent where
  | policyLookup (httpStatus : Nat) (dd : Option DownloadDetails)
  | start (challenge : Nat) (psp : Option PaymentSecret) (timeout : Nat)
      (hashedAnswer : Option HashCode)
  | answer (challenge : Nat) (psp : Option PaymentSecret) (timeout : Nat) (answerStr : Bytes)
  | answer2 (challenge : Nat) (psp : Option PaymentSecret) (timeout : Nat) (answer : Nat)
  | challengeAbort (challenge : Nat)
  | keyshareLookup (challenge : Nat) (dd : KeyShareDownloadDetails)
  | abort

def RecoveryProcess.crash (process : RecoveryProcess) (fault : Fault) : RecoveryProcess :=
  { process with recovery := none, fault := some fault }

def recoveryInformation (r : Recovery) : RecoveryInformation where
  dps := r.dps.map DecryptionPolicy.challenges
  csLen := r.cs.length
  version := r.version
  secretName := r.secretName

def RecoveryProcess.update (process : RecoveryProcess) (r : Recovery) (challenge : Nat)
    (operation : Challenge → Challenge) : Option RecoveryProcess :=
  r.cs[challenge]?.map fun c =>
    { process with recovery := some { r with cs := r.cs.set challenge (operation c) } }

/-- A lookup that succeeded: the challenge is solved, and the first policy that is
complete ends the recovery. -/
def RecoveryProcess.succeed (process : RecoveryProcess) (r : Recovery) (position : Nat)
    (c : Challenge) (eks : EncryptedKeyShare) : RecoveryProcess :=
  match solveChallenge host r position c eks with
  | .error fault => process.crash fault
  | .ok r =>
    let process := { process with
      recovery := some r, feedback := process.feedback ++ [(position, .solved)] }
    match r.dps.find? fun dps => satisfied r.solvedChallenges dps.challenges with
    | none => process
    | some rdps =>
      match recoverCoreSecret host r rdps with
      | .error fault => process.crash fault
      | .ok report =>
        { process with recovery := none, reported := process.reported ++ [report] }

def RecoveryProcess.keyshareLookupCb (process : RecoveryProcess) (r : Recovery)
    (position : Nat) (c : Challenge) : KeyShareDownloadDetails → RecoveryProcess
  | .success eks => process.succeed host r position c eks
  | dd =>
    { process with
      recovery := some { r with cs := r.cs.set position { c with
        kslo := none, async := c.async || isAuthenticationTimeout dd } }
      feedback := process.feedback ++ [(position, Client.feedback dd)] }

def RecoveryProcess.deliver (process : RecoveryProcess) (event : RecoveryEvent) :
    Option RecoveryProcess := do
  let r ← process.recovery
  match event with
  | .policyLookup httpStatus dd =>
    let _ ← r.plo
    match policyLookupCb host r httpStatus dd with
    | .error fault => return process.crash fault
    | .ok (.rejected status) =>
      return { process with
        recovery := none, reported := process.reported ++ [.failure status] }
    | .ok (.accepted r) =>
      return { process with recovery := some r, announced := some (recoveryInformation r) }
  | .start challenge psp timeout hashedAnswer =>
    process.update r challenge fun c => challengeStart host c psp timeout hashedAnswer
  | .answer challenge psp timeout answerStr =>
    process.update r challenge fun c => challengeAnswer host c psp timeout answerStr
  | .answer2 challenge psp timeout answer =>
    process.update r challenge fun c => challengeAnswer2 host c psp timeout answer
  | .challengeAbort challenge => process.update r challenge Client.challengeAbort
  | .keyshareLookup challenge dd =>
    let c ← r.cs[challenge]?
    let _ ← c.kslo
    return process.keyshareLookupCb host r challenge c dd
  | .abort => return { process with recovery := none }

def Recovers (process : RecoveryProcess) (event : RecoveryEvent) (next : RecoveryProcess) : Prop :=
  process.deliver host event = some next

def beginRecovery (idData : Json) (version : UInt32) (providerUrl : String)
    (providerSalt : ProviderSalt) : RecoveryProcess where
  recovery := some (recoveryBegin host idData version providerUrl providerSalt)
  announced := none
  feedback := []
  reported := []
  fault := none

end Anastasis.Client
