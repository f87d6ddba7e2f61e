import Mathlib.Data.List.MinMax
import Anastasis.Library.Bits
import Anastasis.Library.Transaction

/-! The tables of the provider's database and the prepared statements over them. -/

set_option autoImplicit false

namespace Anastasis.Stasis

open Library

abbrev AccountPublicKey := Block 32
abbrev AccountSignature := Block 64
abbrev HashCode := Block 64
abbrev PaymentSecret := Block 32
abbrev TruthUuid := Block 32
abbrev EncryptedKeyShare := Block 72

/-- Points in time and durations are microseconds; the greatest 64-bit number stands for
"forever". -/
abbrev Time := Nat

def forever : Time := UInt64.size - 1

def absoluteAdd (start duration : Time) : Time := min (start + duration) forever

def relativeToAbsolute (now duration : Time) : Time := absoluteAdd now duration

def absoluteSubtract (start duration : Time) : Time :=
  if start = forever then forever else start - duration

def absoluteGetDifference (start final : Time) : Time :=
  if final = forever then forever else final - start

def absoluteGetRemaining (now future : Time) : Time := absoluteGetDifference now future

def relativeMultiply (duration : Time) (factor : Nat) : Time := min (duration * factor) forever

def roundAbs (time : Time) : Time := if time = forever then forever else time - time % 1000000

def column (time : Time) : Time := if time < 2 ^ 63 - 1 then time else forever

theorem absoluteAdd_bounded (start duration : Time) : absoluteAdd start duration ≤ forever :=
  Nat.min_le_right (start + duration) forever

theorem column_column (time : Time) : column (column time) = column time := by
  unfold column
  by_cases small : time < 2 ^ 63 - 1
  · simp only [small, if_true]
  · have big : ¬ forever < 2 ^ 63 - 1 := by decide
    simp only [small, if_false, big]

theorem limit_le_forever : 2 ^ 63 - 1 ≤ forever := by decide

theorem column_bounded (time : Time) : column time ≤ forever := by
  have limit := limit_le_forever
  unfold column
  split
  · next small => exact Nat.le_of_lt (Nat.lt_of_lt_of_le small limit)
  · exact Nat.le_refl forever

theorem column_mono {earlier later : Time} (ordered : earlier ≤ later) : column earlier ≤ column later := by
  by_cases small : later < 2 ^ 63 - 1
  · have also : earlier < 2 ^ 63 - 1 := Nat.lt_of_le_of_lt ordered small
    rw [column, column, if_pos small, if_pos also]
    exact ordered
  have top : column later = forever := by rw [column, if_neg small]
  rw [top]
  exact column_bounded earlier

theorem absoluteAdd_mono {earlier later duration : Time} (ordered : earlier ≤ later) :
    absoluteAdd earlier duration ≤ absoluteAdd later duration :=
  min_le_min_right forever (Nat.add_le_add_right ordered duration)

def weeks : Time := 7 * 24 * 60 * 60 * 1000000

def years : Time := 365 * 24 * 60 * 60 * 1000000

abbrev Amount := Nat

def maxRetries : Nat := 3

structure User where
  userId : AccountPublicKey
  expirationDate : Time
deriving DecidableEq

structure RecdocPayment where
  userId : AccountPublicKey
  postCounter : Nat
  amount : Amount
  paymentIdentifier : PaymentSecret
  creationDate : Time
  paid : Bool
deriving DecidableEq

structure RecoveryDocument where
  userId : AccountPublicKey
  version : UInt32
  accountSig : AccountSignature
  recoveryDataHash : HashCode
  recoveryData : Bytes
deriving DecidableEq

structure TruthPayment where
  truthUuid : TruthUuid
  amount : Amount
  expiration : Time
deriving DecidableEq

structure Truth where
  truthUuid : TruthUuid
  keyShareData : EncryptedKeyShare
  methodName : String
  encryptedTruth : Bytes
  truthMime : String
  expiration : Time
deriving DecidableEq

structure Tables where
  users : List User
  recdocPayments : List RecdocPayment
  recoveryDocuments : List RecoveryDocument
  truthPayments : List TruthPayment
  truths : List Truth
deriving DecidableEq

def emptyTables : Tables where
  users := []
  recdocPayments := []
  recoveryDocuments := []
  truthPayments := []
  truths := []

def int4 (value : UInt32) : Int := value.toBitVec.toInt

namespace Tables

def hasUser (tables : Tables) (userId : AccountPublicKey) : Bool :=
  tables.users.any (·.userId = userId)

def documentsOf (tables : Tables) (userId : AccountPublicKey) : List RecoveryDocument :=
  tables.recoveryDocuments.filter (·.userId = userId)

end Tables

def userInsert (userId : AccountPublicKey) (expirationDate : Time) (tables : Tables) :
    Except Failure (Nat × Tables) :=
  if tables.hasUser userId then .ok (0, tables)
  else .ok (1, { tables with
    users := tables.users ++ [{ userId := userId, expirationDate := column expirationDate }] })

def userSelect (userId : AccountPublicKey) (tables : Tables) : List Time :=
  (tables.users.filter (·.userId = userId)).map (·.expirationDate)

def userUpdate (expirationDate : Time) (userId : AccountPublicKey) (tables : Tables) :
    Except Failure (Nat × Tables) :=
  .ok (tables.users.countP (·.userId = userId), { tables with
    users := tables.users.map fun user =>
      if user.userId = userId then { user with expirationDate := column expirationDate }
      else user })

/-- Payments belong to users that exist, and their counters are not negative. -/
def recdocPaymentInsert (payment : RecdocPayment) (tables : Tables) :
    Except Failure (Nat × Tables) :=
  if tables.hasUser payment.userId ∧ payment.postCounter < 2 ^ 31 then
    .ok (1, { tables with recdocPayments := tables.recdocPayments ++ [payment] })
  else .error .hard

def recdocPaymentDone (paymentIdentifier : PaymentSecret) (userId : AccountPublicKey)
    (tables : Tables) : Except Failure (Nat × Tables) :=
  let pending := fun payment : RecdocPayment =>
    payment.paymentIdentifier = paymentIdentifier ∧ payment.userId = userId ∧
      payment.paid = false
  .ok (tables.recdocPayments.countP pending, { tables with
    recdocPayments := tables.recdocPayments.map fun payment =>
      if pending payment then { payment with paid := true } else payment })

def recdocPaymentSelect (paymentIdentifier : PaymentSecret) (tables : Tables) :
    List RecdocPayment :=
  tables.recdocPayments.filter (·.paymentIdentifier = paymentIdentifier)

def postcounterSelect (userId : AccountPublicKey) (paymentIdentifier : PaymentSecret)
    (tables : Tables) : List Nat :=
  (tables.recdocPayments.filter fun payment =>
    payment.userId = userId ∧ payment.paymentIdentifier = paymentIdentifier).map (·.postCounter)

def postcounterUpdate (postCounter : Nat) (userId : AccountPublicKey)
    (paymentIdentifier : PaymentSecret) (tables : Tables) : Except Failure (Nat × Tables) :=
  let charged := fun payment : RecdocPayment =>
    payment.userId = userId ∧ payment.paymentIdentifier = paymentIdentifier
  .ok (tables.recdocPayments.countP charged, { tables with
    recdocPayments := tables.recdocPayments.map fun payment =>
      if charged payment then { payment with postCounter := postCounter } else payment })

def greatestVersion (documents : List RecoveryDocument) : Option RecoveryDocument :=
  @List.argmax _ Int Int.instLinearOrder.toPreorder Int.decLt
    (fun document => int4 document.version) documents

def latestRecoveryVersionSelect (userId : AccountPublicKey) (tables : Tables) :
    List RecoveryDocument :=
  if tables.hasUser userId then
    (greatestVersion (tables.documentsOf userId)).toList
  else []

def recoveryDocumentInsert (document : RecoveryDocument) (tables : Tables) :
    Except Failure (Nat × Tables) :=
  if tables.hasUser document.userId = false then .error .hard
  else if (tables.documentsOf document.userId).any (·.version = document.version) then
    .ok (0, tables)
  else .ok (1, { tables with recoveryDocuments := tables.recoveryDocuments ++ [document] })

end Anastasis.Stasis
