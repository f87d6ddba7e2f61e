import Anastasis.Library.Effect
import Anastasis.Library.Json
import Anastasis.TalerUtil.Crock

/-! What the TypeScript client takes from its platform: cryptography, compression, URLs,
random bytes and the answers of the providers. -/

set_option autoImplicit false

namespace Anastasis.Core

open Library

/-- What a handler throws; only a reducer error is turned into a result. -/
inductive Thrown where
  | exception (message : String)
  | reducerError (code : Nat) (hint : String)
deriving DecidableEq

structure Platform where
  argon2id : (password salt : Bytes) → Except Thrown Bytes
  kdf : (outputLength : Nat) → (ikm salt info : Bytes) → Block outputLength
  secretbox : Bytes → Block 24 → Block 32 → Bytes
  secretboxOpen : Bytes → Block 24 → Block 32 → Option Bytes
  secretboxOpen_secretbox : ∀ message nonce key,
    secretboxOpen (secretbox message nonce key) nonce key = some message
  hash : Bytes → Block 64
  publicKeyFromSeed : Block 32 → Block 32
  eddsaSign : Bytes → Block 32 → Block 64
  zlibSync : Bytes → Bytes
  unzlibSync : Bytes → Except Thrown Bytes
  unzlibSync_zlibSync : ∀ data, unzlibSync (zlibSync data) = .ok data
  url : (path base : String) → Option String

/-- A platform that hides nothing, with every property that the client relies on. -/
def Platform.plain : Platform where
  argon2id password salt := .ok (firstBytes 64 (password ++ salt)).val
  kdf outputLength ikm salt info := firstBytes outputLength (ikm ++ salt ++ info)
  secretbox message _ _ := List.replicate 16 0 ++ message
  secretboxOpen box _ _ :=
    if box.take 16 = List.replicate 16 0 then some (box.drop 16) else none
  secretboxOpen_secretbox message _ _ := by
    rw [List.take_left' (by simp), if_pos rfl, List.drop_left' (by simp)]
  hash data := firstBytes 64 data
  publicKeyFromSeed seed := seed
  eddsaSign data priv := firstBytes 64 (priv.val ++ data)
  zlibSync data := data
  unzlibSync data := .ok data
  unzlibSync_zlibSync _ := rfl
  url path base := some (base ++ path)

structure Response where
  status : Nat
  header : String → Option String
  arrayBuffer : Bytes
  json : Option Json

structure Request where
  method : String
  url : String
  searchParams : List (String × String)
  headers : List (String × String)
  body : Bytes

/-- The random bytes and the answers that are still to come, and the requests that were
sent. A request without an answer fails. -/
structure World where
  random : Nat → UInt8
  drawn : Nat
  answers : Nat → Option Response
  sent : List Request

abbrev Task := Effect Thrown World

def fail {Value : Type} (message : String) : Except Thrown Value := .error (.exception message)

def randomBlock (random : Nat → UInt8) (drawn size : Nat) : Block size :=
  ⟨(List.range size).map fun index => random (drawn + index), by simp⟩

def getRandomBytes (size : Nat) : Task (Block size) := fun world =>
  (.ok (randomBlock world.random world.drawn size), { world with drawn := world.drawn + size })

def fetch (request : Request) : Task Response := fun world =>
  let next := { world with sent := world.sent ++ [request] }
  match world.answers world.sent.length with
  | none => (fail "fetch failed", next)
  | some response => (.ok response, next)

def stringToBytes (text : String) : Bytes := Utf8.encode text

def bytesToString (data : Bytes) : String :=
  Utf8.decode (if data.take 3 = [0xEF, 0xBB, 0xBF] then data.drop 3 else data)

def encodeCrock (data : Bytes) : String := TalerUtil.encodeCrock data

def decodeCrock (encoded : String) : Except Thrown Bytes :=
  match TalerUtil.decodeCrock encoded with
  | some data => .ok data
  | none => fail "Encoding error"

@[simp] theorem decodeCrock_encodeCrock (data : Bytes) :
    decodeCrock (encodeCrock data) = .ok data := by
  simp [decodeCrock, encodeCrock]

end Anastasis.Core
