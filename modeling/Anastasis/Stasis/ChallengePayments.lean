import Anastasis.Stasis.ChallengeCodes

/-! Payments for challenges. -/

set_option autoImplicit false

namespace Anastasis.Stasis

open Library

structure ChallengePayment where
  truthUuid : TruthUuid
  amount : Amount
  paymentIdentifier : PaymentSecret
  creationDate : Time
  counter : Nat
  paid : Bool
  refunded : Bool
deriving DecidableEq

abbrev ChallengePayments := List ChallengePayment

def execute {Rows : Type} (failure : Option Failure) (statement : Rows → Nat × Rows) (rows : Rows) :
    Change × Rows :=
  match failure with
  | some failure => (.failed failure, rows)
  | none => (.rows (statement rows).1, (statement rows).2)

def challengePaymentInsert (truthUuid : TruthUuid) (amount : Amount)
    (paymentIdentifier : PaymentSecret) (creationDate : Time) (payments : ChallengePayments) :
    Nat × ChallengePayments :=
  (1, payments ++ [{
    truthUuid := truthUuid
    amount := amount
    paymentIdentifier := paymentIdentifier
    creationDate := column creationDate
    counter := 3
    paid := false
    refunded := false }])

def updateWhere {Row : Type} (concerns : Row → Bool) (update : Row → Row) (rows : List Row) :
    Nat × List Row :=
  (rows.countP concerns, rows.map fun row => if concerns row then update row else row)

def ChallengePayment.isFor (paymentIdentifier : PaymentSecret) (truthUuid : TruthUuid)
    (payment : ChallengePayment) : Bool :=
  payment.paymentIdentifier = paymentIdentifier ∧ payment.truthUuid = truthUuid

def challengeRefundUpdate (paymentIdentifier : PaymentSecret) (truthUuid : TruthUuid) :
    ChallengePayments → Nat × ChallengePayments :=
  updateWhere (fun payment => payment.isFor paymentIdentifier truthUuid ∧ payment.paid)
    fun payment => { payment with refunded := true }

def challengePaymentDone (paymentIdentifier : PaymentSecret) (truthUuid : TruthUuid) :
    ChallengePayments → Nat × ChallengePayments :=
  updateWhere (fun payment => payment.isFor paymentIdentifier truthUuid ∧
      payment.refunded = false ∧ payment.paid = false)
    fun payment => { payment with paid := true }

def challengepaymentDecCounter (truthUuid : TruthUuid) (paymentIdentifier : PaymentSecret) :
    ChallengePayments → Nat × ChallengePayments :=
  updateWhere (fun payment => payment.isFor paymentIdentifier truthUuid ∧ 0 < payment.counter)
    fun payment => { payment with counter := payment.counter - 1 }

def challengePaymentSelect (paymentIdentifier : PaymentSecret) (truthUuid : TruthUuid)
    (payments : ChallengePayments) : List ChallengePayment :=
  payments.filter fun payment => payment.isFor paymentIdentifier truthUuid ∧
    payment.refunded = false ∧ 0 < payment.counter

def challengePendingPaymentSelect (truthUuid : TruthUuid) (recent : Time)
    (payments : ChallengePayments) : List ChallengePayment :=
  payments.filter fun payment => payment.paid = false ∧ payment.refunded = false ∧
    payment.truthUuid = truthUuid ∧ recent < payment.creationDate

def challengeOfferLifetime : Time := 3600 * 1000000

/-! The calls of the plugin, each of them a single statement that meets `failure` or succeeds. -/

def recordChallengePayment (failure : Option Failure) (truthUuid : TruthUuid)
    (paymentSecret : PaymentSecret) (amount : Amount) (now : Time) (payments : ChallengePayments) :
    Change × ChallengePayments :=
  execute failure (challengePaymentInsert truthUuid amount paymentSecret now) payments

def recordChallengeRefund (failure : Option Failure) (truthUuid : TruthUuid)
    (paymentSecret : PaymentSecret) (payments : ChallengePayments) : Change × ChallengePayments :=
  execute failure (challengeRefundUpdate paymentSecret truthUuid) payments

def checkChallengePayment (failure : Option Failure) (paymentSecret : PaymentSecret)
    (truthUuid : TruthUuid) (payments : ChallengePayments) : Selection ChallengePayment :=
  .of failure (challengePaymentSelect paymentSecret truthUuid payments)

def lookupChallengePayment (failure : Option Failure) (truthUuid : TruthUuid) (now : Time)
    (payments : ChallengePayments) : Selection ChallengePayment :=
  .of failure (challengePendingPaymentSelect truthUuid
    (absoluteSubtract now challengeOfferLifetime) payments)

def updateChallengePayment (failure : Option Failure) (truthUuid : TruthUuid)
    (paymentIdentifier : PaymentSecret) (payments : ChallengePayments) :
    Change × ChallengePayments :=
  execute failure (challengePaymentDone paymentIdentifier truthUuid) payments

/-- The rows that a statement means which asks for the newest row of a code. -/
def ChallengeCode.isNewest (truthUuid : TruthUuid) (code : Nat) (codes : ChallengeCodes)
    (row : ChallengeCode) : Bool :=
  row.truthUuid = truthUuid ∧ row.code = code ∧
    codes.all fun other => !(other.truthUuid = truthUuid ∧ other.code = code) ||
      other.creationDate ≤ row.creationDate

def challengecodeSetSatisfied (truthUuid : TruthUuid) (code : Nat) (codes : ChallengeCodes) :
    Nat × ChallengeCodes :=
  updateWhere (·.isNewest truthUuid code codes) (fun row => { row with satisfied := true }) codes

def challengecodeMarkSent (truthUuid : TruthUuid) (code : Nat) (now : Time)
    (codes : ChallengeCodes) : Nat × ChallengeCodes :=
  updateWhere (·.isNewest truthUuid code codes)
    (fun row => { row with retransmissionDate := column now }) codes

def markChallengeCodeSatisfied (failure : Option Failure) (truthUuid : TruthUuid) (code : Nat)
    (codes : ChallengeCodes) : Change × ChallengeCodes :=
  execute failure (challengecodeSetSatisfied truthUuid code) codes

def markCodeSent (failure : Option Failure) (truthUuid : TruthUuid) (code : Nat) (now : Time)
    (codes : ChallengeCodes) : Change × ChallengeCodes :=
  execute failure (challengecodeMarkSent truthUuid code (roundAbs now)) codes

/-- `marked` is what the change of the challenge's code came to; without a row there, the payment
is not charged. -/
def markChallengeSent (marked : Change) (failure : Option Failure) (paymentSecret : PaymentSecret)
    (truthUuid : TruthUuid) (payments : ChallengePayments) : ChallengePayments :=
  match marked with
  | .failed _ | .rows 0 => payments
  | .rows _ => (execute failure (challengepaymentDecCounter truthUuid paymentSecret) payments).2

end Anastasis.Stasis
