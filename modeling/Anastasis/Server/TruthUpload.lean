import Anastasis.Server.Reply
import Anastasis.Stasis.Tables

/-! Uploads of truths: what is still to be paid for them, and how they are stored. -/

set_option autoImplicit false

namespace Anastasis.Server

open Library Library.Statements Stasis

def maxYearsStorage : Nat := 5

/-- The truth upload fee, the amount arithmetic and the authorization plugins of a provider. -/
structure TruthService where
  truthUploadFee : Amount
  amountMultiply : Amount → Nat → Option Amount
  pluginLoad : String → Bool

structure TruthUpload where
  truthUuid : TruthUuid
  keyShareData : EncryptedKeyShare
  method : String
  encryptedTruth : Bytes
  truthMime : Option String
  storageYears : Nat
deriving DecidableEq

/-- The readings of the clock during an upload, in the order in which they are made. -/
structure UploadClock where
  desired : Time
  lookup : Time
  start : Time
  remaining : Time
  storing : Time

inductive TruthAnswer where
  | noContent
  | error (reply : ErrorReply)
  | beginPayment (yearsToPay : Nat) (uploadFee : Amount)
deriving DecidableEq

def yearsIn (rem : Time) : Nat := rem / years + if rem % years = 0 then 0 else 1

def truthPaymentSelect (truthUuid : TruthUuid) (now : Time) (tables : Tables) : List Time :=
  (tables.truthPayments.filter fun payment =>
    payment.truthUuid = truthUuid ∧ now < payment.expiration).map (·.expiration)

def truthSelect (truthUuid : TruthUuid) (tables : Tables) : List Truth :=
  tables.truths.filter (·.truthUuid = truthUuid)

def truthInsert (truth : Truth) (tables : Tables) : Except Failure (Nat × Tables) :=
  if tables.truths.any (·.truthUuid = truth.truthUuid) then .ok (0, tables)
  else .ok (1, { tables with truths := tables.truths ++ [truth] })

def TruthUpload.years (upload : TruthUpload) : Nat :=
  if upload.storageYears = 0 then 1 else upload.storageYears

def TruthUpload.desiredUntil (upload : TruthUpload) (clock : UploadClock) : Time :=
  relativeToAbsolute clock.desired (relativeMultiply Stasis.years upload.years)

inductive Payment where
  | refused (reply : ErrorReply)
  | due (yearsToPay : Nat) (uploadFee : Amount)
  | paid (paidUntil : Time)
deriving DecidableEq

def outstanding (service : TruthService) (clock : UploadClock) (upload : TruthUpload)
    (paidUntil : Time) : Payment :=
  let start := if paidUntil < clock.start then clock.start else paidUntil
  let yearsToPay := yearsIn (absoluteGetDifference start (upload.desiredUntil clock))
  match service.amountMultiply service.truthUploadFee yearsToPay with
  | none => .refused ⟨400, .genericParameterMalformed, some "storage_duration_years"⟩
  | some uploadFee => if uploadFee = 0 then .paid start else .due yearsToPay uploadFee

/-- Without a payment in the database, `unset` is what the variable for its end happens to
hold. -/
def assess (service : TruthService) (clock : UploadClock) (upload : TruthUpload) (unset : Time) :
    Selection Time → Payment
  | .failed _ => .refused ⟨500, .genericDbFetchFailed, none⟩
  | .noResults => outstanding service clock upload unset
  | .oneResult paidUntil =>
    if paidUntil < upload.desiredUntil clock then outstanding service clock upload paidUntil
    else .paid paidUntil

def checkPayment (service : TruthService) (clock : UploadClock) (upload : TruthUpload)
    (unset : Time) : Statements Tables TruthAnswer Payment :=
  if service.truthUploadFee = 0 then
    return .paid (relativeToAbsolute clock.desired (relativeMultiply years maxYearsStorage))
  else do
    let found ← select (truthPaymentSelect upload.truthUuid clock.lookup)
    return assess service clock upload unset found

def TruthUpload.truth (upload : TruthUpload) (clock : UploadClock) (paidUntil : Time) : Truth where
  truthUuid := upload.truthUuid
  keyShareData := upload.keyShareData
  methodName := upload.method
  encryptedTruth := upload.encryptedTruth
  truthMime := upload.truthMime.getD ""
  expiration := column (roundAbs (absoluteAdd clock.storing
    (absoluteGetRemaining clock.remaining paidUntil)))

def TruthUpload.sameChallenge (upload : TruthUpload) (truth : Truth) : Bool :=
  truth.encryptedTruth.length = upload.encryptedTruth.length ∧ truth.methodName = upload.method ∧
    upload.truthMime.getD "" = truth.truthMime ∧
    truth.encryptedTruth = upload.encryptedTruth

def uuidExists : ErrorReply := ⟨409, .truthUploadUuidExists, none⟩

def storeTruth (upload : TruthUpload) (clock : UploadClock) (paidUntil : Time) :
    Statements Tables TruthAnswer TruthAnswer := do
  match ← change (truthInsert (upload.truth clock paidUntil)) with
  | .failed _ => leave (.error ⟨500, .genericDbInvariantFailure, some "store_truth"⟩)
  | .rows 0 =>
    match ← select (truthSelect upload.truthUuid) with
    | .oneResult truth =>
      if upload.sameChallenge truth then return .noContent
      else leave (.error uuidExists)
    | _ => leave (.error uuidExists)
  | .rows _ => return .noContent

def TruthService.supports (service : TruthService) (method : String) : Bool :=
  method = "question" || service.pluginLoad method

def handlerTruthPost (service : TruthService) (clock : UploadClock) (unset : Time)
    (upload : TruthUpload) : Statements Tables TruthAnswer TruthAnswer :=
  if service.supports upload.method = false then
    leave (.error ⟨400, .truthUploadMethodNotSupported, some upload.method⟩)
  else if upload.storageYears > maxYearsStorage then
    leave (.error ⟨400, .genericParameterMalformed, some "storage_duration_years"⟩)
  else do
    match ← checkPayment service clock upload unset with
    | .refused reply => leave (.error reply)
    | .due yearsToPay uploadFee => leave (.beginPayment yearsToPay uploadFee)
    | .paid paidUntil => storeTruth upload clock paidUntil

def truthPost (service : TruthService) (clock : UploadClock) (unset : Time) (upload : TruthUpload)
    (connection : Connection Tables) : TruthAnswer × Connection Tables :=
  transact (.error ⟨500, .genericDbInvariantFailure, none⟩)
    (handlerTruthPost service clock unset upload) 1 connection

end Anastasis.Server
