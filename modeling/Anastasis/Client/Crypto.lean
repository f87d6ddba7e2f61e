import Anastasis.Client.Host

/-! The cryptographic utilities of the C client. A random block is an argument under
the name of the variable that receives it. -/

set_option autoImplicit false

namespace Anastasis.Client

open Library

variable (host : Host)

def ascii (text : String) : Bytes := Utf8.encode text

def deriveKey (keyMaterial nonce salt : Bytes) : Bytes :=
  (host.kdf 32 nonce keyMaterial salt).val

def envelope : Envelope where
  nonceLength := 24
  derive := deriveKey host
  lock := host.secretboxEasy
  unlock := host.secretboxOpenEasy
  unlock_lock := host.secretboxOpenEasy_secretboxEasy

def anastasisEncrypt (nonce : Nonce) (key data salt : Bytes) : Bytes :=
  nonce.val ++ host.secretboxEasy data nonce.val (deriveKey host key nonce.val salt)

/-- The result is a null pointer when the data does not open; its size is set even so. -/
def anastasisDecrypt (key data salt : Bytes) : Except Fault (Option Bytes × Nat) :=
  if data.length < 24 + 16 then .error .assertion
  else
    let nonce := data.take 24
    let skey := deriveKey host key nonce salt
    .ok (host.secretboxOpenEasy (data.drop 24) nonce skey, data.length - (24 + 16))

def readBuffer (pointer : Option Bytes) (size : Nat) : Except Fault Bytes :=
  match pointer, size with
  | some data, _ => .ok data
  | none, 0 => .ok []
  | none, _ + 1 => .error .nullPointer

def userIdentifierDerive (idData : Json) (serverSalt : ProviderSalt) : UserIdentifier :=
  host.powHash serverSalt (host.jsonDumps idData)

def accountPrivateKeyDerive (id : UserIdentifier) : AccountPrivateKey :=
  host.kdf 32 [] id.val (ascii "ver")

def secureAnswerHash (answer : Bytes) (uuid : TruthUuid) (salt : QuestionSalt) : HashCode :=
  host.kdf 64 uuid.val (host.powHash salt answer).val
    (ascii "anastasis-secure-question-hashing")

def recoveryDocumentEncrypt (nonce : Nonce) (id : UserIdentifier) (recDoc : Bytes) : Bytes :=
  anastasisEncrypt host nonce id.val recDoc (ascii "erd")

def recoveryDocumentDecrypt (id : UserIdentifier) (encRecDoc : Bytes) :
    Except Fault (Option Bytes × Nat) :=
  anastasisDecrypt host id.val encRecDoc (ascii "erd")

def keyshareEncrypt (nonce : Nonce) (keyShare : KeyShare) (id : UserIdentifier)
    (xsalt : Option Bytes) : Bytes :=
  anastasisEncrypt host nonce id.val keyShare.val (xsalt.getD (ascii "eks"))

def keyshareDecrypt (encKeyShare : EncryptedKeyShare) (id : UserIdentifier)
    (xsalt : Option Bytes) : Except Fault KeyShare := do
  let (ks, ksSize) ← anastasisDecrypt host id.val encKeyShare.val (xsalt.getD (ascii "eks"))
  let data ← readBuffer ks ksSize
  if sized : data.length = 32 then return ⟨data, sized⟩ else .error .assertion

def truthEncrypt (nonce : Nonce) (truthEncKey : TruthKey) (truth : Bytes) : Bytes :=
  anastasisEncrypt host nonce truthEncKey.val truth (ascii "ect")

def policyKeyDerive (keyShares : List KeyShare) (salt : MasterSalt) : PolicyKey :=
  host.kdf 64 salt.val (keyShares.flatMap Subtype.val)
    (ascii "anastasis-policy-key-derive")

structure CoreSecretEncryptionResult where
  encCoreSecret : Bytes
  encMasterKeys : List Bytes

def coreSecretEncrypt (policyKeys : List PolicyKey) (coreSecret : Bytes)
    (masterKey : HashCode) (nonce : Nonce) (nonces : Nat → Nonce) :
    CoreSecretEncryptionResult where
  encCoreSecret := anastasisEncrypt host nonce masterKey.val coreSecret (ascii "cse")
  encMasterKeys := policyKeys.mapIdx fun i policyKey =>
    anastasisEncrypt host (nonces i) policyKey.val masterKey.val (ascii "emk")

def coreSecretRecover (encryptedMasterKey : Bytes) (policyKey : PolicyKey)
    (encryptedCoreSecret : Bytes) : Except Fault (Option Bytes × Nat) := do
  let (masterKey, masterKeySize) ←
    anastasisDecrypt host policyKey.val encryptedMasterKey (ascii "emk")
  if encryptedCoreSecret.length < 24 + 16 then .error .assertion
  else
    let masterKey ← readBuffer masterKey masterKeySize
    anastasisDecrypt host masterKey encryptedCoreSecret (ascii "cse")

@[simp] theorem length_anastasisEncrypt (nonce : Nonce) (key data salt : Bytes) :
    (anastasisEncrypt host nonce key data salt).length = 24 + 16 + data.length := by
  simp only [anastasisEncrypt, List.length_append, nonce.property, host.length_secretboxEasy]
  omega

@[simp] theorem anastasisDecrypt_anastasisEncrypt (nonce : Nonce) (key data salt : Bytes) :
    anastasisDecrypt host key (anastasisEncrypt host nonce key data salt) salt =
      .ok (some data, data.length) := by
  have long : ¬ (anastasisEncrypt host nonce key data salt).length < 24 + 16 := by simp
  have opened := (envelope host).decrypt_encrypt nonce.property key data salt
  simp only [Envelope.decrypt, envelope, Envelope.encrypt] at opened
  rw [anastasisDecrypt, if_neg long]
  simp only [anastasisEncrypt] at opened ⊢
  simp only [opened, List.length_append, nonce.property, host.length_secretboxEasy]
  congr 2
  omega

/-- A key share comes back under the user identifier and the salt it was sealed with. -/
theorem keyshareDecrypt_keyshareEncrypt (nonce : Nonce) (keyShare : KeyShare)
    (id : UserIdentifier) (xsalt : Option Bytes) (sealed : EncryptedKeyShare)
    (isSealed : sealed.val = keyshareEncrypt host nonce keyShare id xsalt) :
    keyshareDecrypt host sealed id xsalt = .ok keyShare := by
  simp [keyshareDecrypt, isSealed, keyshareEncrypt, readBuffer, keyShare.property, bind,
    Except.bind, pure, Except.pure]

/-- Every policy key recovers the core secret through its own encrypted master key. -/
theorem coreSecretRecover_coreSecretEncrypt {policyKeys : List PolicyKey} {coreSecret : Bytes}
    {masterKey : HashCode} {nonce : Nonce} {nonces : Nat → Nonce} {idx : Nat}
    {policyKey : PolicyKey} {encMasterKey : Bytes} (keyed : policyKeys[idx]? = some policyKey)
    (encrypted : (coreSecretEncrypt host policyKeys coreSecret masterKey nonce
      nonces).encMasterKeys[idx]? = some encMasterKey) :
    coreSecretRecover host encMasterKey policyKey
        (coreSecretEncrypt host policyKeys coreSecret masterKey nonce nonces).encCoreSecret =
      .ok (some coreSecret, coreSecret.length) := by
  have own : encMasterKey =
      anastasisEncrypt host (nonces idx) policyKey.val masterKey.val (ascii "emk") := by
    simpa [coreSecretEncrypt, keyed] using encrypted.symm
  simp [coreSecretRecover, own, coreSecretEncrypt, readBuffer, bind, Except.bind]

end Anastasis.Client
