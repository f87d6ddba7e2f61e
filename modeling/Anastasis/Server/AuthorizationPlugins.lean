import Anastasis.Server.TruthChallenge

/-! The authorization plugins that a provider can install. -/

set_option autoImplicit false

namespace Anastasis.Server

open Stasis

def minutes : Time := 60 * seconds

def hours : Time := 60 * minutes

def days : Time := 24 * hours

def weeks : Time := 7 * days

def months : Time := 30 * days

def initialRetryCounter : Nat := 3

def totpValidityPeriod : Time := 30 * seconds

inductive AuthorizationMethod where
  | email
  | file
  | iban
  | post
  | sms
  | totp
deriving DecidableEq

namespace AuthorizationMethod

def name : AuthorizationMethod → String
  | .email => "email"
  | .file => "file"
  | .iban => "iban"
  | .post => "post"
  | .sms => "sms"
  | .totp => "totp"

/-- A plugin that sends a code, which is all that is asked for afterwards. -/
def sending (cost : Amount) (codeValidityPeriod codeRotationPeriod codeRetransmissionFrequency : Time) :
    AuthorizationPlugin where
  cost := cost
  start := .satisfies
  paymentPluginManaged := false
  userProvidedCode := false
  settings := ⟨codeRotationPeriod, codeValidityPeriod, initialRetryCounter⟩
  codeRetransmissionFrequency := codeRetransmissionFrequency

def emailInit (cost : Amount) : AuthorizationPlugin := sending cost days hours minutes

def fileInit (cost : Amount) : AuthorizationPlugin := sending cost minutes minutes minutes

def postInit (cost : Amount) : AuthorizationPlugin :=
  sending cost months weeks (relativeMultiply days 2)

def smsInit (cost : Amount) : AuthorizationPlugin := sending cost days hours minutes

/-- Waits for a transfer with the code, and asks for the code in the end. -/
def ibanInit (cost : Amount) : AuthorizationPlugin where
  cost := cost
  start := .keeps
  paymentPluginManaged := true
  userProvidedCode := false
  settings := ⟨0, months, UInt32.size - 1⟩
  codeRetransmissionFrequency := 0

def totpInit (cost : Amount) : AuthorizationPlugin where
  cost := cost
  start := .checksAnswers
  paymentPluginManaged := false
  userProvidedCode := true
  settings := ⟨totpValidityPeriod, totpValidityPeriod, initialRetryCounter⟩
  codeRetransmissionFrequency := totpValidityPeriod

def init (cost : Amount) : AuthorizationMethod → AuthorizationPlugin
  | .email => emailInit cost
  | .file => fileInit cost
  | .iban => ibanInit cost
  | .post => postInit cost
  | .sms => smsInit cost
  | .totp => totpInit cost

/-- The plugin that insists on the code 0 never gets answers that are compared with a code. -/
theorem init_userProvidedCode {cost : Amount} {method : AuthorizationMethod}
    (checks : (init cost method).start = .checksAnswers) :
    (init cost method).userProvidedCode = true := by
  cases method with
  | totp => rfl
  | email => cases checks
  | file => cases checks
  | iban => cases checks
  | post => cases checks
  | sms => cases checks

end AuthorizationMethod

def ChallengeService.Installed (service : ChallengeService) : Prop :=
  ∀ methodName authorization, service.pluginLoad methodName = some authorization →
    ∃ (method : AuthorizationMethod) (cost : Amount),
      methodName = method.name ∧ authorization = method.init cost

theorem ChallengeService.Installed.plugin {service : ChallengeService} (installed : service.Installed)
    {methodName : String} {authorization : AuthorizationPlugin}
    (loaded : service.load methodName = some (.plugin authorization)) :
    ∃ (method : AuthorizationMethod) (cost : Amount),
      methodName = method.name ∧ authorization = method.init cost := by
  unfold ChallengeService.load at loaded
  split at loaded
  · cases loaded
  obtain ⟨found, isFound, same⟩ := Option.map_eq_some_iff.mp loaded
  cases same
  exact installed methodName authorization isFound

end Anastasis.Server
