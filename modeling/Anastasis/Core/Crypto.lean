import Anastasis.Core.Platform
import Anastasis.TalerUtil.CanonicalJson

/-! The cryptographic functions of the TypeScript client. All data between them is text
in Crockford's base 32. -/

set_option autoImplicit false

namespace Anastasis.Core

open Library

variable (platform : Platform)

def userIdentifierDerive (idData : Json) (serverSalt : String) : Except Thrown String := do
  let hashInput := stringToBytes (TalerUtil.canonicalJson idData)
  let salt ← decodeCrock serverSalt
  let result ← platform.argon2id hashInput salt
  return encodeCrock result

structure AccountKeyPair where
  priv : String
  pub : String

def accountKeypairDerive (userId : String) : Except Thrown AccountKeyPair := do
  let ikm ← decodeCrock userId
  let d := platform.kdf 32 ikm (List.replicate 64 0) (stringToBytes "ver")
  return { priv := encodeCrock d.val, pub := encodeCrock (platform.publicKeyFromSeed d).val }

def policyKeyDerive (keyShares : List String) (policySalt : String) : Except Thrown String := do
  let chunks ← keyShares.mapM decodeCrock
  let salt ← decodeCrock policySalt
  return encodeCrock
    (platform.kdf 64 chunks.flatten salt (stringToBytes "anastasis-policy-key-derive")).val

def deriveKey (keySeed nonce salt : String) : Except Thrown (Block 32) := do
  let nonce ← decodeCrock nonce
  let ikm ← decodeCrock keySeed
  return platform.kdf 32 ikm nonce (stringToBytes salt)

def checkNonce (nonce : Bytes) : Except Thrown (Block 24) :=
  if sized : nonce.length = 24 then .ok ⟨nonce, sized⟩ else fail "bad nonce size"

def anastasisEncrypt (nonce keySeed plaintext salt : String) : Except Thrown String := do
  let key ← deriveKey platform keySeed nonce salt
  let nonceBuf ← decodeCrock nonce
  let message ← decodeCrock plaintext
  let boxNonce ← checkNonce nonceBuf
  return encodeCrock (nonceBuf ++ platform.secretbox message boxNonce key)

def anastasisDecrypt (keySeed ciphertext salt : String) : Except Thrown String := do
  let ctBuf ← decodeCrock ciphertext
  let nonceBuf := ctBuf.take 24
  let enc := ctBuf.drop 24
  let key ← deriveKey platform keySeed (encodeCrock nonceBuf) salt
  let boxNonce ← checkNonce nonceBuf
  match platform.secretboxOpen enc boxNonce key with
  | none => fail "could not decrypt"
  | some cipherText => return encodeCrock cipherText

def randomCrock (size : Nat) : Task String := do
  let data ← getRandomBytes size
  return encodeCrock data.val

def encryptRecoveryDocument (userId recoveryDocData : String) : Task String := do
  let nonce ← randomCrock 24
  .ofExcept (anastasisEncrypt platform nonce userId recoveryDocData "erd")

def decryptRecoveryDocument (userId recoveryDocData : String) : Except Thrown String :=
  anastasisDecrypt platform userId recoveryDocData "erd"

def encryptKeyshare (keyShare userId : String) (answerSalt : Option String) : Task String := do
  let nonce ← randomCrock 24
  .ofExcept (anastasisEncrypt platform nonce userId keyShare (answerSalt.getD "eks"))

def decryptKeyShare (encKeyShare userId : String) (answerSalt : Option String) :
    Except Thrown String :=
  anastasisDecrypt platform userId encKeyShare (answerSalt.getD "eks")

def encryptTruth (nonce truthEncKey truth : String) : Except Thrown String :=
  anastasisEncrypt platform nonce truthEncKey truth "ect"

structure CoreSecretEncResult where
  encCoreSecret : String
  encMasterKeys : List String

def coreSecretRecover (encryptedMasterKey policyKey encryptedCoreSecret : String) :
    Except Thrown String := do
  let masterKey ← anastasisDecrypt platform policyKey encryptedMasterKey "emk"
  anastasisDecrypt platform masterKey encryptedCoreSecret "cse"

/-- One encrypted master key for each policy key, with a nonce of its own. -/
def encryptMasterKeys (masterKey : String) : List String → Task (List String)
  | [] => pure []
  | policyKey :: rest => do
      let polNonce ← randomCrock 24
      let encMasterKey ← .ofExcept (anastasisEncrypt platform polNonce policyKey masterKey "emk")
      let others ← encryptMasterKeys masterKey rest
      return encMasterKey :: others

def coreSecretEncrypt (policyKeys : List String) (coreSecret : String) :
    Task CoreSecretEncResult := do
  let masterKey ← randomCrock 64
  let nonce ← randomCrock 24
  let encCoreSecret ← .ofExcept (anastasisEncrypt platform nonce masterKey coreSecret "cse")
  let encMasterKeys ← encryptMasterKeys platform masterKey policyKeys
  return { encCoreSecret := encCoreSecret, encMasterKeys := encMasterKeys }

def pinAnswerHash (pin : Int) : String :=
  encodeCrock (platform.hash (stringToBytes (toString pin))).val

def secureAnswerHash (answer truthUuid questionSalt : String) : Except Thrown String := do
  let salt ← decodeCrock questionSalt
  let powResult ← platform.argon2id (stringToBytes answer) salt
  let kdfSalt ← decodeCrock truthUuid
  return encodeCrock (platform.kdf 64 powResult kdfSalt
    (stringToBytes "anastasis-secure-question-hashing")).val

end Anastasis.Core
