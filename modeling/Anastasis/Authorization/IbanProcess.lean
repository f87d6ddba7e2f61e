import Anastasis.Authorization.WireTransfers
import Anastasis.Server.AuthorizationPlugins

/-! The authorization by a wire transfer: what the user is told to send, and which transfers
satisfy a challenge. -/

set_option autoImplicit false

namespace Anastasis.Authorization

open Library Stasis

def codeValidityPeriod : Time := Server.months

structure IbanContext where
  businessIban : String
  businessName : String
  expectedAmount : Amount
  -- the message for users without a program, with the code filled in
  instructions : Nat → String

structure IbanState where
  truthUuid : TruthUuid
  code : Nat
  ibanNumber : String
  -- whether the state is subscribed to the events of transfers
  listening : Bool

def wireTransferSubject (code : Nat) : String := "Anastasis " ++ Nat.repr code

inductive AuthorizationResult where
  | success
  | successReplyFailed
  | suspended
  | failed
  | failedReplyFailed
  | finished
deriving DecidableEq

/-- What the calls of the database and of the web server come to. -/
structure IbanCalls where
  testSatisfied : Option Failure
  testPayment : Option Failure
  markSatisfied : Option Failure
  replyQueued : Bool

section Process

variable (context ctx : IbanContext) (state st : IbanState)

end Process

/-! ## The subject that the user was told to send -/

def lowered (text : String) : List Char := text.toList.map Char.toLower

/-- The text contains the subject of the code, which no further digit follows. -/
def Sent (code : Nat) (text : String) : Prop :=
  ∃ before after, lowered text = before ++ lowered (wireTransferSubject code) ++ after ∧
    ∀ char, after.head? = some char → char.isDigit = false

def Named (text : String) : Prop := "anastasis".toList <:+: lowered text

instance (text : String) : Decidable (Named text) :=
  inferInstanceAs (Decidable ("anastasis".toList <:+: lowered text))

theorem lowered_subject (code : Nat) : lowered (wireTransferSubject code) =
    "anastasis ".toList ++ (Nat.toDigits 10 code).map Char.toLower := by
  rw [lowered, wireTransferSubject, String.toList_append, List.map_append, Nat.toList_repr]
  rfl

theorem Sent.named {code : Nat} {text : String} (sent : Sent code text) : Named text := by
  obtain ⟨pre, after, isText, _⟩ := sent
  rw [Named, isText, lowered_subject]
  exact ⟨pre, ' ' :: (Nat.toDigits 10 code).map Char.toLower ++ after, by simp⟩

/-! ## Which transfers are accepted -/

/-- A transfer from the account, of the expected amount at least. -/
structure AuthIbanIn.Pays (row : AuthIbanIn) (context : IbanContext) (state : IbanState) : Prop where
  account : row.debitAccountDetails = state.ibanNumber
  amount : context.expectedAmount ≤ row.credit

theorem roundAbs_le (time : Time) : roundAbs time ≤ time := by
  unfold roundAbs
  split
  next eq => exact Nat.le_of_eq eq.symm
  next => exact Nat.sub_le _ _

section Acceptance

variable {context ctx : IbanContext} {state st : IbanState} {now : Time} {row : AuthIbanIn}

end Acceptance

def exampleState : IbanState where
  truthUuid := zeroBlock 32
  code := 42
  ibanNumber := "DE1"
  listening := false

def undisturbed : IbanCalls := ⟨none, none, none, true⟩

end Anastasis.Authorization
