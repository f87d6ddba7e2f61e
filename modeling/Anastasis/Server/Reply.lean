import Mathlib.Logic.Basic

/-! What all kinds of requests have in common: their headers and the errors they are answered with. -/

set_option autoImplicit false

namespace Anastasis.Server

inductive ErrorCode where
  | genericParameterMissing
  | genericParameterMalformed
  | genericDbFetchFailed
  | genericDbStoreFailed
  | genericDbInvariantFailure
  | genericBackendTimeout
  | genericMissingContentLength
  | genericMalformedContentLength
  | genericPaymentCheckUnauthorized
  | genericPaymentCheckStartFailed
  | genericOrderCreateBackendError
  | genericBackendError
  | merchantContractContentInvalid
  | syncMalformedContentLength
  | syncPaymentCreateBackendError
  | syncPaymentGenericTimeout
  | policyOutOfMemoryOnContentLength
  | policyBadSignature
  | policyBadIfMatch
  | policyInvalidUpload
  | truthUnknown
  | truthAuthorizationMethodNoLongerSupported
  | truthPaymentCreateBackendError
  | truthOrderDisappeared
  | truthBackendExchangeBad
  | truthUnexpectedPaymentStatus
  | truthDecryptionFailed
  | truthChallengeFailed
  | truthChallengeResponseRequired
  | truthChallengeActive
  | truthRateLimited
  | truthAuthorizationStartFailed
  | truthKeyShareGone
  | truthUploadMethodNotSupported
  | truthUploadUuidExists
deriving DecidableEq

structure ErrorReply where
  status : Nat
  code : ErrorCode
  hint : Option String
deriving DecidableEq

inductive Header (Content : Type) where
  | absent
  | malformed
  | value (content : Content)

namespace Header

variable {Content : Type}

def required (parameter : String) : Header Content → Except ErrorReply (Header Content)
  | .absent => .error ⟨400, .genericParameterMissing, some parameter⟩
  | present => .ok present

def optional (malformed : ErrorReply) : Header Content → Except ErrorReply (Option Content)
  | .absent => .ok none
  | .malformed => .error malformed
  | .value content => .ok (some content)

def mandatory (absent malformed : ErrorReply) : Header Content → Except ErrorReply Content
  | .absent => .error absent
  | .malformed => .error malformed
  | .value content => .ok content

end Header

end Anastasis.Server
