import Anastasis.Client.RecoveryDocument

/-! The recovery as a JSON object, in which the reducer keeps it between its steps. -/

set_option autoImplicit false

namespace Anastasis.Client

open Library

variable (host : Host)

/-- What a local variable of a pointer type holds that was never set. -/
inductive Uninitialised where
  | null
  | text (value : String)
  | wild
deriving DecidableEq

/-- Copying the text that the variable points to, unless it is a null pointer. -/
def Uninitialised.duplicate : Uninitialised → Except Fault (Option String)
  | .null => .ok none
  | .text value => .ok (some value)
  | .wild => .error .wildPointer

def packBool (value : Bool) : Option Json := some (.boolean value)

def packUint (value : UInt32) : Option Json := some (.number value.toNat)

def packObjectIncref : Json → Option Json
  | .object members => some (.object members)
  | _ => none

def required (field : Option Json) : Except Fault Json :=
  match field with
  | none => .error .assertion
  | some value => .ok value

def serializeChallenge (c : Challenge) : Json :=
  packObject [
    ("uuid", packData host c.uuid.val),
    ("truth_key", packData host c.truthKey.val),
    ("salt", packData host c.salt.val),
    ("provider_salt", packData host c.providerSalt.val),
    ("key_share", if c.solved then packData host c.keyShare.val else none),
    ("url", packString c.url),
    ("type", packString c.type),
    ("instructions", packString c.instructions),
    ("solved", packBool c.solved),
    ("async", packBool c.async)]

def serializeReference (cs : List Challenge) (challenge : Nat) : Except Fault Json :=
  match cs[challenge]? with
  | none => .error .nullPointer
  | some c => .ok (packObject [("uuid", packData host c.uuid.val)])

def packPolicy (dp : DecryptionPolicy) (challenges : List Json) : Json :=
  packObject [
    ("emk", packData host dp.emk),
    ("salt", packData host dp.salt.val),
    ("challenges", packArray challenges)]

def serializePolicy (cs : List Challenge) (dp : DecryptionPolicy) : Except Fault Json := do
  let challenges ← dp.challenges.mapM (serializeReference host cs)
  return packPolicy host dp challenges

def packRecovery (r : Recovery) (dps : List Json) (idData coreSecret : Json) : Json :=
  packObject [
    ("id", packData host r.id.val),
    ("dps", packArray dps),
    ("cs", packArray (r.cs.map (serializeChallenge host))),
    ("version", packUint r.version),
    ("id_data", some idData),
    ("provider_url", packString r.providerUrl),
    ("secret_name", r.secretName.map Json.string),
    ("core_secret", some coreSecret)]

def recoverySerialize (r : Recovery) : Except Fault Json := do
  let dps ← r.dps.mapM (serializePolicy host r.cs)
  let idData ← required (packObjectIncref r.idData)
  let coreSecret ← required (r.encCoreSecret.bind (packData host))
  return packRecovery host r dps idData coreSecret

def parseUint32 (object : Json) (field : String) : Option UInt32 := do
  let value ← object.member? field
  match ← value.number? with
  | .ofNat number => if number < UInt32.size then some (UInt32.ofNat number) else none
  | .negSucc _ => none

/-- A challenge is solved when it comes with a key share; the flag is not read. -/
def deserializeChallenge (cs : Json) : Option Challenge := do
  let uuid ← parseFixed host 32 cs "uuid"
  let url ← parseString cs "url"
  let instructions ← parseString cs "instructions"
  let truthKey ← parseFixed host 64 cs "truth_key"
  let salt ← parseFixed host 16 cs "salt"
  let providerSalt ← parseFixed host 16 cs "provider_salt"
  let escrowType ← parseString cs "type"
  let async ← parseOptional Json.boolean? cs "async"
  let keyShare ← parseOptional (fun value => value.string?.bind (host.stringToData 32)) cs
    "key_share"
  return {
    uuid := uuid, truthKey := truthKey, salt := salt, providerSalt := providerSalt
    keyShare := keyShare.getD (zeroBlock 32), url := url, type := escrowType
    instructions := instructions, solved := keyShare.isSome, async := async.getD false
    answer := none, kslo := none }

def parseCsArray (csArr : Json) : Option (List Challenge) := do
  let cs ← csArr.array?
  cs.mapM (deserializeChallenge host)

def solvedPlaces (cs : List Challenge) : List Nat :=
  cs.findIdxs Challenge.solved

/-- The last of the challenges with that identifier, from the place `i` on. -/
def lastChallenge (uuid : TruthUuid) : Nat → List Challenge → Option Nat → Option Nat
  | _, [], found => found
  | i, c :: rest, found => lastChallenge uuid (i + 1) rest (if c.uuid = uuid then some i else found)

def deserializeReference (cs : List Challenge) (challenge : Json) : Option Nat := do
  let uuid ← parseFixed host 32 challenge "uuid"
  lastChallenge uuid 0 cs none

def deserializePolicy (cs : List Challenge) (dps : Json) :
    Except Fault (Option DecryptionPolicy) :=
  let parsed := do
    let emk ← parseVarsize host dps "emk"
    let salt ← parseFixed host 64 dps "salt"
    let challenges ← dps.member? "challenges"
    return (emk, salt, challenges)
  match parsed with
  | none => .ok none
  | some (emk, salt, challenges) =>
    if emk.isEmpty then .error .assertion
    else .ok do
      let challenges ← challenges.array?
      let challenges ← challenges.mapM (deserializeReference host cs)
      return { challenges := challenges, emk := emk, salt := salt }

def parseDpsArray (cs : List Challenge) (dpsArr : Json) :
    Except Fault (Option (List DecryptionPolicy)) :=
  match dpsArr.array? with
  | none => .ok none
  | some dps => collect (deserializePolicy host cs) dps

/-- The name of the secret is optional, and the variable that receives it holds `stack`
until then. A recovery without policies looks them up again. -/
def recoveryDeserialize (stack : Uninitialised) (input : Json) :
    Except Fault (Option Recovery) :=
  let parsed := do
    let id ← parseFixed host 64 input "id"
    let providerUrl ← parseString input "provider_url"
    let secretName ← parseOptional Json.string? input "secret_name"
    let version ← parseUint32 input "version"
    let dpsArr ← input.member? "dps"
    let csArr ← input.member? "cs"
    let idData ← input.member? "id_data"
    let ecs ← parseVarsize host input "core_secret"
    let cs ← parseCsArray host csArr
    return (id, providerUrl, secretName, version, dpsArr, idData, ecs, cs)
  match parsed with
  | none => .ok none
  | some (id, providerUrl, secretName, version, dpsArr, idData, ecs, cs) => do
      match ← parseDpsArray host cs dpsArr with
      | none => return none
      | some dps =>
        let secretName ← match secretName with
          | some secretName => pure (some secretName)
          | none => stack.duplicate
        let pubKey := host.eddsaKeyGetPublic (accountPrivateKeyDerive host id)
        return some {
          id := id, idData := idData, providerUrl := providerUrl, secretName := secretName
          version := version, dps := dps, cs := cs, solvedChallenges := solvedPlaces cs
          encCoreSecret := if ecs.isEmpty then none else some ecs
          plo := if dps.isEmpty then some (policyLookup host providerUrl pubKey version)
            else none }

end Anastasis.Client
