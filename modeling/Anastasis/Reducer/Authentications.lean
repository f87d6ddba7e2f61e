import Anastasis.Library.JsonUpdate
import Anastasis.Client.Recovery
import Mathlib.Data.List.Perm.Basic

/-! Adding an authentication method: the providers of the state are searched for one that offers
the method and takes a challenge of its size. -/

set_option autoImplicit false

namespace Anastasis.Reducer.Authentications

open Library Client

def stateInvalid : ErrorCode := 8401
def inputInvalid : ErrorCode := 8402
def authenticationMethodNotSupported : ErrorCode := 8403
def challengeDataTooBig : ErrorCode := 8416

inductive Outcome where
  | failed (code : ErrorCode) (detail : String)
  | next (state : Json)

def uint32? (value : Json) : Option Nat :=
  value.number?.bind fun number =>
    if 0 ≤ number ∧ number < 4294967296 then some number.toNat else none

structure AuthProvider where
  sizeLimitInMb : Nat
  httpStatus : Nat
  disabled : Bool
  methods : Option Json

def parseProvider (details : Json) : Option AuthProvider := do
  let sizeLimitInMb ← parseOptional uint32? details "storage_limit_in_megabytes"
  let httpStatus ← parseOptional uint32? details "http_status"
  let disabled ← parseOptional Json.boolean? details "disabled"
  let methods ← parseOptional some details "methods"
  return {
    sizeLimitInMb := sizeLimitInMb.getD 0, httpStatus := httpStatus.getD 0
    disabled := disabled.getD false, methods := methods }

/-- The encrypted challenge has some additional headers. -/
def challengeSizeOk (sizeLimitInMb challengeSize : Nat) : Bool :=
  challengeSize + 1024 ≤ sizeLimitInMb * 1024 * 1024

def offers (methods : Json) (methodType : String) : Bool :=
  (arrayItems methods).any fun method => parseString method "type" = some methodType

def search (methodType : String) (challengeSize : Nat) :
    List (String × Json) → (found tooBig : Bool) → Bool × Bool
  | [], found, tooBig => (found, tooBig)
  | (_, details) :: rest, found, tooBig =>
    match parseProvider details with
    | none => search methodType challengeSize rest found tooBig
    | some provider =>
      if provider.disabled then search methodType challengeSize rest found tooBig
      else if provider.httpStatus ≠ 200 then search methodType challengeSize rest found tooBig
      else
        match provider.methods with
        | none => search methodType challengeSize rest found tooBig
        | some methods =>
          if provider.sizeLimitInMb = 0 then
            search methodType challengeSize rest found tooBig
          else
            let offered := found || offers methods methodType
            if challengeSizeOk provider.sizeLimitInMb challengeSize then
              if offered then (true, tooBig)
              else search methodType challengeSize rest offered tooBig
            else search methodType challengeSize rest false true

def members (value : Json) : List (String × Json) :=
  match value with
  | .object members => members
  | _ => []

def addAuthentication (host : Host) (state arguments : Json) : Outcome :=
  match state.member? "authentication_providers" with
  | none => .failed stateInvalid "'authentication_providers' missing"
  | some authProviders =>
    match arguments.member? "authentication_method" with
    | none => .failed inputInvalid "'authentication_method' required"
    | some method =>
      match parseString method "type", parseVarsize host method "challenge" with
      | some methodType, some challenge =>
        match search methodType challenge.length (members authProviders) false false with
        | (false, true) => .failed challengeDataTooBig methodType
        | (false, false) => .failed authenticationMethodNotSupported methodType
        | (true, _) =>
          match state.member? "authentication_methods" with
          | none => .next (state.setField "authentication_methods" (.array [method]))
          | some (.array methods) =>
            .next (state.setField "authentication_methods" (.array (methods ++ [method])))
          | some _ => .failed stateInvalid "'authentication_methods' must be an array"
      | _, _ => .failed inputInvalid "'authentication_method' content malformed"

/-! ## The search -/

section Search

variable (methodType : String) (challengeSize : Nat)

def working? (details : Json) : Option AuthProvider :=
  (parseProvider details).filter fun provider =>
    !provider.disabled && provider.httpStatus = 200

def offersType (details : Json) : Bool :=
  (working? details).any fun provider => provider.methods.any fun methods =>
    offers methods methodType

def supports (details : Json) : Bool :=
  (working? details).any fun provider =>
    (provider.methods.any fun methods => offers methods methodType) &&
      challengeSizeOk provider.sizeLimitInMb challengeSize

/-- Methods are listed, and the limit is neither missing nor large enough. -/
def tooSmall (details : Json) : Bool :=
  (working? details).any fun provider =>
    provider.methods.isSome && (decide (provider.sizeLimitInMb ≠ 0) &&
      !challengeSizeOk provider.sizeLimitInMb challengeSize)

end Search

/-! ## The action -/

/-- A request that the search decides. -/
structure Requested (host : Host) (state arguments : Json) (providers : List (String × Json))
    (method : Json) (methodType : String) (challenge : Bytes) : Prop where
  provided : state.member? "authentication_providers" = some (.object providers)
  given : arguments.member? "authentication_method" = some method
  typed : parseString method "type" = some methodType
  sized : parseVarsize host method "challenge" = some challenge
  listed : ∀ methods, state.member? "authentication_methods" = some methods →
    ∃ items, methods = .array items

section Action

variable {host : Host} {state st arguments method m : Json} {providers ps : List (String × Json)}
  {methodType : String} {challenge chal : Bytes}
  (requested : Requested host state arguments providers method methodType challenge)

include requested

/-- A provider that is enabled and answered offers methods of the type. -/
def Offered (providers : List (String × Json)) (methodType : String) : Prop :=
  ∃ provider ∈ providers, offersType methodType provider.2 = true

def Supported (providers : List (String × Json)) (methodType : String) (size : Nat) : Prop :=
  ∃ provider ∈ providers, supports methodType size provider.2 = true

/-- What is told about the method. -/
def Outcome.code : Outcome → Option ErrorCode
  | .failed code _ => some code
  | .next _ => none

structure Decides (host : Host) (state arguments : Json) (providers : List (String × Json))
    (method : Json) (methodType : String) (size : Nat) : Prop where
  accepted : (addAuthentication host state arguments).code = none ↔
    Supported providers methodType size
  tooBig : addAuthentication host state arguments = .failed challengeDataTooBig methodType ↔
    Offered providers methodType ∧ ¬ Supported providers methodType size
  ordered : ∀ providers', providers'.Perm providers →
    (addAuthentication host (state.setField "authentication_providers" (.object providers'))
      arguments).code = (addAuthentication host state arguments).code
  appended : ∀ next, addAuthentication host state arguments = .next next →
    next.member? "authentication_methods" =
        some (.array (state.itemsAt "authentication_methods" ++ [method])) ∧
      ∀ name, name ≠ "authentication_methods" → next.member? name = state.member? name

end Action

/-! A provider that takes at most one megabyte and offers nothing. -/

def exampleProviders : List (String × Json) :=
  [("https://provider.example/", .object
    [("http_status", .number 200), ("storage_limit_in_megabytes", .number 1),
      ("methods", .array [])])]

def exampleState : Json := .object [("authentication_providers", .object exampleProviders)]

end Anastasis.Reducer.Authentications
