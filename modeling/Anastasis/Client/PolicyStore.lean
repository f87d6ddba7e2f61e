import Anastasis.Client.Crypto

/-! The REST client of `POST /policy`: headers and status of an answer become the
details that the upload callback gets. -/

set_option autoImplicit false

namespace Anastasis.Client

open Library

/-- `ANASTASIS_UploadStatus`; `success` is the value zero. -/
inductive UploadStatus where
  | success
  | paymentRequired
  | httpError
  | clientError
  | serverError
  | conflictingTruth
deriving DecidableEq, Repr

/-- The union of the upload details, all zero until one of its parts is written. -/
inductive UploadUnion where
  | zero
  | success (currBackupHash : HashCode) (policyExpiration policyVersion : Nat)
  | payment (paymentRequest : String) (ps : PaymentSecret)

structure UploadDetails where
  us : UploadStatus
  httpStatus : Nat
  ec : ErrorCode
  details : UploadUnion

/-- The pointer at the place of the backup hash; it is null in a union of zeros. -/
def UploadUnion.currBackupHash : UploadUnion → Option HashCode
  | .success hash _ _ => some hash
  | _ => none

/-- What a provider sends back, or status zero when the connection failed. -/
structure Response where
  responseCode : Nat
  headers : List String
  data : Bytes

structure PolicyStoreHeaders where
  payUri : Option String
  policyVersion : Option String
  policyExpiration : Option String

def noHeaders : PolicyStoreHeaders :=
  { payUri := none, policyVersion := none, policyExpiration := none }

structure PolicyStoreOperation extends PolicyStoreHeaders where
  url : String
  requestHeaders : List String
  postcopy : Bytes
  newUploadHash : HashCode

def lineEnd (char : Char) : Bool := char = '\n' || char = '\r'

/-- One header line cut at its first colon, the value without one leading blank. -/
def splitHeader (buffer : String) : Option (String × String) :=
  let line := (buffer.toList.takeWhile (· ≠ '\x00')).dropWhile (· = ':')
  let hdrType := line.takeWhile (· ≠ ':')
  let hdrVal := (line.dropWhile (· ≠ ':')).drop 1
  if hdrType.isEmpty || hdrVal.isEmpty then none
  else
    let hdrVal := if hdrVal.head? = some ' ' then hdrVal.drop 1 else hdrVal
    some (String.ofList hdrType, String.ofList (hdrVal.reverse.dropWhile lineEnd).reverse)

def lowered (name : String) : List Char := name.toList.map Char.toLower

/-- `strcasecmp` finds no difference. -/
def sameName (left right : String) : Bool := lowered left = lowered right

def handleHeader (pso : PolicyStoreHeaders) (buffer : String) : PolicyStoreHeaders :=
  match splitHeader buffer with
  | none => pso
  | some (hdrType, hdrVal) =>
    let pso := if sameName hdrType "Taler" then { pso with payUri := some hdrVal } else pso
    let pso := if sameName hdrType "Anastasis-Version" then
      { pso with policyVersion := some hdrVal } else pso
    if sameName hdrType "Anastasis-Policy-Expiration" then
      { pso with policyExpiration := some hdrVal } else pso

def isSpace (char : Char) : Bool :=
  char = ' ' || ('\t' ≤ char && char ≤ '\r')

/-- `sscanf (text, "%llu%c", ..)` when it converts one item and no more: a number
behind optional blanks and a sign, with nothing after it. -/
def scanNumber (text : String) : Option Nat :=
  let rest := text.toList.dropWhile isSpace
  let negative := rest.head? = some '-'
  let digits := if rest.head? = some '-' || rest.head? = some '+' then rest.drop 1 else rest
  if digits.isEmpty || !digits.all Char.isDigit then none
  else
    let value := Nat.ofDigitChars 10 digits 0
    if value ≥ 2 ^ 64 then some (2 ^ 64 - 1)
    else if negative then some ((2 ^ 64 - value) % 2 ^ 64)
    else some value

/-- `sscanf` applied to a header that may not have come. -/
def scanHeader (header : Option String) : Except Fault (Option Nat) :=
  match header with
  | none => .error .nullPointer
  | some text => .ok (scanNumber text)

def forever : Nat := 2 ^ 64 - 1

def absoluteTime (seconds : Nat) : Nat :=
  if seconds * 1000000 ≥ forever then forever else seconds * 1000000

variable (host : Host)

def bareDetails (us : UploadStatus) (status : Nat) (ec : ErrorCode) : UploadDetails :=
  { us := us, httpStatus := status, ec := ec, details := .zero }

def storedDetails (pso : PolicyStoreOperation) (status : Nat) : Except Fault UploadDetails := do
  match ← scanHeader pso.policyVersion with
  | none => return bareDetails .serverError status .genericReplyMalformed
  | some version =>
    match ← scanHeader pso.policyExpiration with
    | none => return bareDetails .serverError status .genericReplyMalformed
    | some expiration =>
      return {
        us := .success, httpStatus := status, ec := .none
        details := .success pso.newUploadHash (absoluteTime expiration) version }

def paymentOf (payUri : Option String) : Option (String × PaymentSecret) := do
  let uri ← payUri
  let orderId ← host.parsePayUri uri
  let ps ← host.stringToData 32 orderId
  return (uri, ps)

/-- The case of a demanded payment. Without a usable payment request the status keeps
the value zero that the details start with. -/
def paymentDetails (pso : PolicyStoreOperation) (status : Nat) : UploadDetails :=
  match paymentOf host pso.payUri with
  | none => bareDetails .success status .anastasisGenericInvalidPaymentRequest
  | some (uri, ps) =>
    { us := .paymentRequired, httpStatus := status, ec := .none, details := .payment uri ps }

def handlePolicyStoreFinished (pso : PolicyStoreOperation) (responseCode : Nat) (data : Bytes) :
    Except Fault UploadDetails :=
  if responseCode = 0 then
    .ok (bareDetails .serverError responseCode .genericInvalidResponse)
  else if responseCode = 204 ∨ responseCode = 304 then storedDetails pso responseCode
  else if responseCode = 400 then
    .ok (bareDetails .clientError responseCode (host.getErrorCode data))
  else if responseCode = 402 then .ok (paymentDetails host pso responseCode)
  else if responseCode = 413 then
    .ok (bareDetails .clientError responseCode .genericUploadExceedsLimit)
  else .ok (bareDetails .serverError responseCode (host.getErrorCode data))

def receive (pso : PolicyStoreOperation) (headers : List String) : PolicyStoreOperation :=
  { pso with toPolicyStoreHeaders := headers.foldl handleHeader pso.toPolicyStoreHeaders }

/-- The whole answer to one upload: first its headers, then its status. -/
def answer (pso : PolicyStoreOperation) (response : Response) : Except Fault UploadDetails :=
  handlePolicyStoreFinished host (receive pso response.headers) response.responseCode
    response.data

def paymentHeader (jobHeaders : List String) : Option PaymentSecret → Option (List String)
  | none => some jobHeaders
  | some paymentSecret => host.slistAppend jobHeaders
      ("Anastasis-Payment-Identifier: " ++ host.dataToString paymentSecret.val)

def policyStore (backendUrl : String) (anastasisPriv : AccountPrivateKey)
    (recoveryData : Bytes) (paymentYearsRequested : Nat)
    (paymentSecret : Option PaymentSecret) (paymentTimeout : Nat) :
    Option PolicyStoreOperation := do
  let tms := paymentTimeout / 1000
  let newRecoveryDataHash := host.hash recoveryData
  let accountSig := host.eddsaSign anastasisPriv newRecoveryDataHash
  let jobHeaders ← host.slistAppend []
    ("Anastasis-Policy-Signature: " ++ host.dataToString accountSig.val)
  let jobHeaders ← host.slistAppend jobHeaders
    ("If-None-Match: " ++ host.dataToString newRecoveryDataHash.val)
  let jobHeaders ← paymentHeader host jobHeaders paymentSecret
  let pub := host.eddsaKeyGetPublic anastasisPriv
  return {
    url := host.urlJoin backendUrl ("policy/" ++ host.dataToString pub.val)
      [("storage_duration",
          if paymentYearsRequested ≠ 0 then some (toString paymentYearsRequested) else none),
        ("timeout_ms", if paymentTimeout ≠ 0 then some (toString tms) else none)]
    requestHeaders := jobHeaders
    toPolicyStoreHeaders := noHeaders
    postcopy := recoveryData
    newUploadHash := newRecoveryDataHash }

variable {pso : PolicyStoreOperation}

/-- The request that is set up carries the document and its hash, and no answer yet. -/
theorem policyStore_document {backendUrl : String} {anastasisPriv : AccountPrivateKey}
    {recoveryData : Bytes} {paymentYearsRequested paymentTimeout : Nat}
    {paymentSecret : Option PaymentSecret}
    (st : policyStore host backendUrl anastasisPriv recoveryData paymentYearsRequested
      paymentSecret paymentTimeout = some pso) :
    pso.toPolicyStoreHeaders = noHeaders ∧ pso.postcopy = recoveryData ∧
      pso.newUploadHash = host.hash recoveryData := by
  simp only [policyStore, Option.bind_eq_bind, Option.bind_eq_some_iff, Option.pure_def,
    Option.some.injEq] at st
  obtain ⟨_, _, _, _, _, _, rfl⟩ := st
  exact ⟨rfl, rfl, rfl⟩

/-- An answer that the REST client does not turn into a status with all its details:
a demanded payment without a usable payment request, or a stored document without
the headers that are scanned. -/
def Unguarded (response : Response) : Prop :=
  let received := response.headers.foldl handleHeader noHeaders
  (response.responseCode = 402 ∧ paymentOf host received.payUri = none) ∨
    ((response.responseCode = 204 ∨ response.responseCode = 304) ∧
      (received.policyVersion = none ∨
        (received.policyVersion.bind scanNumber ≠ none ∧ received.policyExpiration = none)))

inductive Answered (pso : PolicyStoreOperation) (response : Response) :
    Except Fault UploadDetails → Prop where
  | fault (unguarded : Unguarded host response) : Answered pso response (.error .nullPointer)
  | unset (unguarded : Unguarded host response) (status : Nat) (ec : ErrorCode) :
      Answered pso response (.ok (bareDetails .success status ec))
  | stored (guarded : ¬ Unguarded host response) (status expiration version : Nat) :
      Answered pso response (.ok {
        us := .success, httpStatus := status, ec := .none
        details := .success pso.newUploadHash expiration version })
  | payment (guarded : ¬ Unguarded host response) (status : Nat) (request : String)
      (secret : PaymentSecret) :
      Answered pso response (.ok {
        us := .paymentRequired, httpStatus := status, ec := .none
        details := .payment request secret })
  | failed (guarded : ¬ Unguarded host response) (us : UploadStatus) (status : Nat)
      (ec : ErrorCode) (failure : us = .clientError ∨ us = .serverError) :
      Answered pso response (.ok (bareDetails us status ec))

private theorem answered_stored {response : Response}
    (waiting : pso.toPolicyStoreHeaders = noHeaders)
    (responded : response.responseCode = 204 ∨ response.responseCode = 304) :
    Answered host pso response
      (storedDetails (receive pso response.headers) response.responseCode) := by
  have sameHash : (receive pso response.headers).newUploadHash = pso.newUploadHash := rfl
  have unguarded : Unguarded host response ↔ (receive pso response.headers).policyVersion = none ∨
        ((receive pso response.headers).policyVersion.bind scanNumber ≠ none ∧
          (receive pso response.headers).policyExpiration = none) := by
    have notPayment : response.responseCode ≠ 402 := by omega
    simp only [Unguarded, notPayment, false_and, false_or, responded, true_and, receive, waiting]
  generalize receive pso response.headers = received at sameHash unguarded ⊢
  cases ver : received.policyVersion with
  | none =>
    have fault : storedDetails received response.responseCode = .error .nullPointer := by
      simp only [storedDetails, ver, scanHeader]
      rfl
    rw [fault]
    exact .fault (unguarded.mpr (.inl ver))
  | some text =>
    cases scanned : scanNumber text with
    | none =>
      have malformed : storedDetails received response.responseCode =
          .ok (bareDetails .serverError response.responseCode .genericReplyMalformed) := by
        simp only [storedDetails, ver, scanHeader, scanned]
        rfl
      rw [malformed]
      exact .failed (by simp [unguarded, ver, scanned]) _ _ _ (.inr rfl)
    | some number =>
      cases exp : received.policyExpiration with
      | none =>
        have fault : storedDetails received response.responseCode = .error .nullPointer := by
          simp only [storedDetails, ver, exp, scanHeader, scanned]
          rfl
        rw [fault]
        exact .fault (unguarded.mpr (.inr ⟨by simp [ver, scanned], exp⟩))
      | some limit =>
        have guarded : ¬ Unguarded host response := by
          simp [unguarded, ver, exp]
        cases limited : scanNumber limit with
        | none =>
          have malformed : storedDetails received response.responseCode =
              .ok (bareDetails .serverError response.responseCode .genericReplyMalformed) := by
            simp only [storedDetails, ver, exp, scanHeader, scanned, limited]
            rfl
          rw [malformed]
          exact .failed guarded _ _ _ (.inr rfl)
        | some seconds =>
          have stored : storedDetails received response.responseCode = .ok {
              us := .success, httpStatus := response.responseCode, ec := .none
              details := .success pso.newUploadHash (absoluteTime seconds) number } := by
            simp only [storedDetails, ver, exp, scanHeader, scanned, limited, ← sameHash]
            rfl
          rw [stored]
          exact .stored guarded _ _ _

private theorem answered_payment {resp : Response}
    (waiting : pso.toPolicyStoreHeaders = noHeaders) (responded : resp.responseCode = 402) :
    Answered host pso resp
      (.ok (paymentDetails host (receive pso resp.headers) resp.responseCode)) := by
  have received : (receive pso resp.headers).payUri =
      (resp.headers.foldl handleHeader noHeaders).payUri := by
    simp only [receive, waiting]
  cases pay : paymentOf host (resp.headers.foldl handleHeader noHeaders).payUri with
  | none =>
    simp only [paymentDetails, received, pay]
    exact .unset (.inl ⟨responded, pay⟩) _ _
  | some req =>
    simp only [paymentDetails, received, pay]
    refine .payment ?_ _ _ _
    rintro (⟨_, missing⟩ | ⟨stored, _⟩)
    · simp [pay] at missing
    · omega

theorem answer_cases (waiting : pso.toPolicyStoreHeaders = noHeaders) (response : Response) :
    Answered host pso response (answer host pso response) := by
  have guardedBy : response.responseCode ≠ 402 → response.responseCode ≠ 204 →
      response.responseCode ≠ 304 → ¬ Unguarded host response := by
    rintro notPayment notStored notSame (⟨pay, _⟩ | ⟨stored | eq, _⟩)
    · exact notPayment pay
    · exact notStored stored
    · exact notSame eq
  unfold answer handlePolicyStoreFinished
  split_ifs with failed stored malformed pay large
  · exact .failed (guardedBy (by omega) (by omega) (by omega)) _ _ _ (.inr rfl)
  · exact answered_stored host waiting stored
  · exact .failed (guardedBy (by omega) (by omega) (by omega)) _ _ _ (.inl rfl)
  · exact answered_payment host waiting pay
  · exact .failed (guardedBy (by omega) (by omega) (by omega)) _ _ _ (.inl rfl)
  · exact .failed (guardedBy (by omega) (by omega) (by omega)) _ _ _ (.inr rfl)

end Anastasis.Client
