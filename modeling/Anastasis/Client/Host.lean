import Anastasis.Library.Envelope
import Anastasis.Library.JsonLayout
import Anastasis.TalerUtil.Crock

/-! What the C client takes from GNUnet, libsodium, Taler, jansson, zlib and curl,
together with what it relies on when it uses them. -/

set_option autoImplicit false

namespace Anastasis.Client

open Library List

abbrev HashCode := Block 64
abbrev TruthUuid := Block 32
abbrev TruthKey := Block 64
abbrev MasterSalt := Block 64
abbrev QuestionSalt := Block 16
abbrev ProviderSalt := Block 16
abbrev PolicyKey := Block 64
abbrev Nonce := Block 24
abbrev KeyShare := Block 32
abbrev EncryptedKeyShare := Block 72
abbrev UserIdentifier := Block 64
abbrev AccountPrivateKey := Block 32
abbrev PaymentSecret := Block 32

/-- Ways in which a call ends the process instead of returning. -/
inductive Fault where
  | assertion
  | nullPointer
  | outOfBounds
  | wildPointer
deriving DecidableEq

/-- The Taler error codes that the client produces itself; all others are numbers
found in the answers of a provider. -/
abbrev ErrorCode := Nat

namespace ErrorCode

def none : ErrorCode := 0
def genericInvalidResponse : ErrorCode := 10
def genericReplyMalformed : ErrorCode := 13
def genericUploadExceedsLimit : ErrorCode := 32
def anastasisGenericInvalidPaymentRequest : ErrorCode := 8001

end ErrorCode

structure Host where
  kdf : (size : Nat) → (salt ikm context : Bytes) → Block size
  powHash : Block 16 → Bytes → HashCode
  hash : Bytes → HashCode
  eddsaKeyGetPublic : AccountPrivateKey → Block 32
  eddsaSign : AccountPrivateKey → HashCode → Block 64
  dataToString : Bytes → String
  stringToData : (size : Nat) → String → Option (Block size)
  stringToData_dataToString : ∀ (size : Nat) (data : Block size),
    stringToData size (dataToString data.val) = some data
  stringToVarsize : String → Option Bytes
  stringToVarsize_dataToString : ∀ data, stringToVarsize (dataToString data) = some data
  secretboxEasy : (message nonce key : Bytes) → Bytes
  secretboxOpenEasy : (box nonce key : Bytes) → Option Bytes
  secretboxOpenEasy_secretboxEasy : ∀ message nonce key,
    secretboxOpenEasy (secretboxEasy message nonce key) nonce key = some message
  length_secretboxEasy : ∀ message nonce key,
    (secretboxEasy message nonce key).length = 16 + message.length
  length_secretboxOpenEasy : ∀ box nonce key message,
    secretboxOpenEasy box nonce key = some message → box.length = 16 + message.length
  jsonDumps : Json → Bytes
  jsonLoadb : Bytes → Option Json
  jsonLoadb_jsonDumps : ∀ value, value.Canonical → jsonLoadb (jsonDumps value) = some value
  compress : Bytes → Option Bytes
  uncompress : (size : Nat) → Bytes → Option Bytes
  uncompress_compress : ∀ data compressed, compress data = some compressed →
    uncompress data.length compressed = some data
  uncompress_short : ∀ data compressed size, compress data = some compressed →
    size < data.length → uncompress size compressed = none
  parsePayUri : String → Option String
  mallocLarge : Nat → Bool
  getErrorCode : Bytes → ErrorCode
  urlJoin : (base path : String) → List (String × Option String) → String
  slistAppend : List String → String → Option (List String)

/-- The digits of `\u` sequences. -/
structure HexDigits where
  digit : Nat → Char
  readable : ∀ value < 16, Json.hexValue? (digit value) = some value

def HexDigits.upper : HexDigits := ⟨Json.upperDigit, by decide⟩

/-- Texts in UTF-8 in which only control characters are written as `\u` sequences. -/
def jansson (hex : HexDigits) : Json.Layout :=
  let escaping : Json.Escaping :=
    { escaped := fun _ => false, digit := hex.digit, readable := hex.readable }
  { names := escaping, values := escaping }

def janssonDumps (hex : HexDigits) (value : Json) : Bytes :=
  Utf8.encode (String.ofList ((value.arrange Json.bytewise).print (jansson hex)))

/-- A host that hides nothing: ciphertexts are the messages behind a constant code, and
digests are prefixes. It has every property that the client relies on. -/
def Host.plain : Host where
  kdf size salt ikm context := firstBytes size (ikm ++ salt ++ context)
  powHash salt data := firstBytes 64 (data ++ salt.val)
  hash data := firstBytes 64 data
  eddsaKeyGetPublic priv := priv
  eddsaSign priv digest := firstBytes 64 (priv.val ++ digest.val)
  dataToString := TalerUtil.encodeCrock
  stringToData size text :=
    (TalerUtil.decodeCrock text).bind fun data =>
      if sized : data.length = size then some ⟨data, sized⟩ else none
  stringToData_dataToString size data := by
    simp [data.property]
  stringToVarsize := TalerUtil.decodeCrock
  stringToVarsize_dataToString := TalerUtil.decodeCrock_encodeCrock
  secretboxEasy message _ _ := List.replicate 16 0 ++ message
  secretboxOpenEasy box _ _ :=
    if box.take 16 = List.replicate 16 0 then some (box.drop 16) else none
  secretboxOpenEasy_secretboxEasy message _ _ := by
    rw [take_left' (by simp), if_pos rfl, drop_left' (by simp)]
  length_secretboxEasy message _ _ := by rw [length_append, length_replicate]
  length_secretboxOpenEasy box _ _ message opened := by
    split at opened
    · rename_i code
      cases opened
      have atLeast := congrArg List.length code
      simp only [length_take, length_replicate] at atLeast
      simp only [length_drop]
      omega
    · cases opened
  jsonDumps := janssonDumps .upper
  jsonLoadb data := Json.read (Utf8.decode data).toList
  jsonLoadb_jsonDumps value canonical := by
    rw [janssonDumps, Utf8.decode_encode, String.toList_ofList,
      Json.arrange_of_canonical canonical, Json.read_print _ canonical.distinct]
  compress data := some data
  uncompress size data := if data.length = size then some data else none
  uncompress_compress data compressed packed := by
    cases packed
    exact if_pos rfl
  uncompress_short data compressed size packed short := by
    cases packed
    exact if_neg short.ne'
  parsePayUri uri := if uri.isEmpty then none else some uri
  mallocLarge _ := true
  getErrorCode data := data.length
  urlJoin base path _ := base ++ path
  slistAppend headers header := some (headers ++ [header])

def packObject (fields : List (String × Option Json)) : Json :=
  Json.ofFields (fields.filterMap fun field => field.2.map fun value => (field.1, value))

def packData (host : Host) (data : Bytes) : Option Json :=
  some (.string (host.dataToString data))

def packString (text : String) : Option Json := some (.string text)

def packArray (items : List Json) : Option Json := some (.array items)

end Anastasis.Client
