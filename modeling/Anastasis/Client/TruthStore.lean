import Anastasis.Client.SecretShare

/-! Uploading one truth: the REST client of `POST /truth` and the library call that
seals a truth for its provider. -/

set_option autoImplicit false

namespace Anastasis.Client

open Library

structure TruthStoreOperation where
  url : String
  data : Json
  payUri : Option String

def handleTruthHeader (payUri : Option String) (buffer : String) : Option String :=
  match splitHeader buffer with
  | none => payUri
  | some (hdrType, hdrVal) => if sameName hdrType "Taler" then some hdrVal else payUri

variable (host : Host)

/-- The status keeps the value zero of `success` wherever the source does not set it. -/
def handleTruthStoreFinished (payUri : Option String) (responseCode : Nat) (data : Bytes) :
    UploadDetails :=
  if responseCode = 0 then bareDetails .success responseCode .none
  else if responseCode = 204 ∨ responseCode = 304 then bareDetails .success responseCode .none
  else if responseCode = 402 then
    match paymentOf host payUri with
    | none => bareDetails .success responseCode .anastasisGenericInvalidPaymentRequest
    | some (uri, ps) =>
      { us := .paymentRequired, httpStatus := responseCode, ec := .none
        details := .payment uri ps }
  else if responseCode = 409 then bareDetails .conflictingTruth responseCode .none
  else if responseCode = 411 then bareDetails .success responseCode .none
  else bareDetails .success responseCode (host.getErrorCode data)

def truthAnswer (tso : TruthStoreOperation) (response : Response) : UploadDetails :=
  handleTruthStoreFinished host (response.headers.foldl handleTruthHeader tso.payUri)
    response.responseCode response.data

def truthStore (backendUrl : String) (uuid : TruthUuid) (type : String)
    (encryptedKeyshare : Bytes) (truthMime : Option String) (encryptedTruth : Bytes)
    (paymentYearsRequested paymentTimeout : Nat) : TruthStoreOperation where
  url := host.urlJoin backendUrl ("truth/" ++ host.dataToString uuid.val)
    [("timeout_ms",
      if paymentTimeout ≠ 0 then some (toString (paymentTimeout / 1000)) else none)]
  data := packObject [
    ("key_share_data", packData host encryptedKeyshare),
    ("type", packString type),
    ("encrypted_truth", packData host encryptedTruth),
    ("truth_mime", truthMime.map Json.string),
    ("storage_duration_years", some (.number paymentYearsRequested))]
  payUri := none

structure TruthUploadOperation where
  id : UserIdentifier
  tso : TruthStoreOperation
  t : Truth

/-- For a question the hash of the answer is uploaded, and the answer also seals the
key share. -/
def truthUpload3 (userId : UserIdentifier) (t : Truth) (truthData : Bytes)
    (paymentYearsRequested payTimeout : Nat) (nonce : Nonce) : TruthUploadOperation :=
  let answer := truthData.takeWhile (· ≠ 0)
  let question := t.type = "question"
  let encryptedKeyShare := keyshareEncrypt host nonce t.keyShare userId
    (if question then some answer else none)
  let truthData := if question then (secureAnswerHash host answer t.uuid t.salt).val else truthData
  { id := userId
    tso := truthStore host t.url t.uuid t.type encryptedKeyShare t.mimeType
      (truthEncrypt host t.nonce t.truthKey truthData) paymentYearsRequested payTimeout
    t := t }

structure TruthRandomness where
  nonce : Nonce
  questionSalt : QuestionSalt
  uuid : TruthUuid
  truthKey : TruthKey
  keyShare : KeyShare

def truthUpload (userId : UserIdentifier) (providerUrl type instructions : String)
    (mimeType : Option String) (providerSalt : ProviderSalt) (truthData : Bytes)
    (paymentYearsRequested payTimeout : Nat) (random : TruthRandomness) (nonce : Nonce) :
    TruthUploadOperation :=
  truthUpload3 host userId
    { uuid := random.uuid, keyShare := random.keyShare, nonce := random.nonce
      truthKey := random.truthKey, providerSalt := providerSalt, salt := random.questionSalt
      url := providerUrl, type := type, instructions := instructions, mimeType := mimeType }
    truthData paymentYearsRequested payTimeout nonce

def StoresTruth (response : Response) : Prop :=
  response.responseCode = 204 ∨ response.responseCode = 304

/-- A failure that is turned into details without an error: no connection, a conflict, a
missing length, or an error whose body names the code of no error. -/
def Silent (response : Response) : Prop :=
  ¬ StoresTruth response ∧ response.responseCode ≠ 402 ∧
    (response.responseCode = 0 ∨ response.responseCode = 409 ∨ response.responseCode = 411 ∨
      host.getErrorCode response.data = .none)

instance (response : Response) : Decidable (Silent host response) := by
  unfold Silent StoresTruth
  infer_instance

theorem truthAnswer_cases (tso : TruthStoreOperation) {response : Response}
    (loud : ¬ Silent host response) :
    StoresTruth response ∨ (truthAnswer host tso response).ec ≠ .none ∨
      ((truthAnswer host tso response).us = .paymentRequired ∧
        ∃ uri ps, (truthAnswer host tso response).details = .payment uri ps) := by
  unfold truthAnswer handleTruthStoreFinished
  split_ifs with failed stored payment conflict length
  · exact absurd ⟨by simp [StoresTruth, failed], by omega, .inl failed⟩ loud
  · exact .inl stored
  · cases paymentOf host (response.headers.foldl handleTruthHeader tso.payUri) with
    | none =>
      have invalid : ErrorCode.anastasisGenericInvalidPaymentRequest ≠ .none := by decide
      exact .inr (.inl invalid)
    | some req => exact .inr (.inr ⟨rfl, _, _, rfl⟩)
  · exact absurd ⟨by simp [StoresTruth, conflict], by omega, .inr (.inl conflict)⟩ loud
  · exact absurd ⟨by simp [StoresTruth, length], by omega, .inr (.inr (.inl length))⟩ loud
  · refine .inr (.inl fun code => loud ⟨stored, payment, .inr (.inr (.inr code))⟩)

end Anastasis.Client
