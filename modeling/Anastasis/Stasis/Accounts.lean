import Anastasis.Stasis.Lifetime

/-! What the provider looks up before an upload: the account, and the payment that the client
refers to. -/

set_option autoImplicit false

namespace Anastasis.Stasis

open Library

inductive AccountStatus where
  | paymentRequired
  | hardError
  | noResults
  | validHashReturned (recoveryDataHash : HashCode) (version : UInt32)
deriving DecidableEq

/-- The end of the lifetime comes with the status unless nothing was found. -/
def lookupAccount (failures : Nat → Option Failure) (accountPub : AccountPublicKey)
    (tables : Tables) : AccountStatus × Option Time :=
  match Selection.of (failures 0) (latestRecoveryVersionSelect accountPub tables) with
  | .failed _ => (.hardError, none)
  | .oneResult latest =>
    (.validHashReturned latest.recoveryDataHash latest.version,
      (userSelect accountPub tables).head?)
  | .noResults =>
    match Selection.of (failures 1) (userSelect accountPub tables) with
    | .failed _ => (.hardError, none)
    | .noResults => (.paymentRequired, none)
    | .oneResult paidUntil => (.noResults, some paidUntil)

structure PaymentState where
  paid : Bool
  validCounter : Bool
deriving DecidableEq

def checkPaymentIdentifier (failure : Option Failure) (paymentSecret : PaymentSecret)
    (tables : Tables) : Selection PaymentState :=
  .of failure ((recdocPaymentSelect paymentSecret tables).map fun payment =>
    { paid := payment.paid, validCounter := 0 < payment.postCounter })

end Anastasis.Stasis
