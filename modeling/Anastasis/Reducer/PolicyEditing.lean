import Anastasis.Reducer.Authentications
import Mathlib.Data.List.InsertIdx

/-! Adding a policy and replacing one while the policies of a backup are under review. -/

set_option autoImplicit false

namespace Anastasis.Reducer.PolicyEditing

open Library Client Authentications

def inputInvalidForState : ErrorCode := 8404

/-- An action fails through its callback, ends the process, goes on with released memory or
hands out the next state. -/
inductive Outcome where
  | failed (code : ErrorCode) (detail : String)
  | aborted
  | undefined
  | next (state : Json)

/-- What becomes of an entry of the new policy. -/
inductive Verdict where
  | appended
  | skipped
  | rejected (code : ErrorCode) (detail : String)

def Verdict.isAppended : Verdict → Bool
  | appended => true
  | _ => false

structure ProviderConfig where
  disabled : Bool
  httpStatus : Nat
  limit : Nat
  methods : Json

def parseProviderConfig (provCfg : Json) : Option ProviderConfig := do
  let disabled ← parseOptional Json.boolean? provCfg "disabled"
  let httpStatus ← parseOptional uint32? provCfg "http_status"
  let limit ← (provCfg.member? "storage_limit_in_megabytes").bind uint32?
  let methods ← provCfg.member? "methods"
  return {
    disabled := disabled.getD false, httpStatus := httpStatus.getD 0
    limit := limit, methods := methods }

section Actions

-- Which values read as amounts of any currency is up to the library.
variable (isAmount : Json → Bool)

/-- Whether the method is among those of the provider; the ones behind it are not looked at. -/
def findMethod (methodType : String) : List Json → Option Bool
  | [] => some false
  | pm :: rest =>
    match parseString pm "type", (pm.member? "usage_fee").any isAmount with
    | some type, true => if type = methodType then some true else findMethod methodType rest
    | _, _ => none

def checkMethod (authProviders : Json) (authMethods : List Json) (method : Json) : Verdict :=
  match parseString method "provider", (method.member? "authentication_method").bind uint32? with
  | some providerUrl, some methodIdx =>
    match authProviders.member? providerUrl with
    | none => .rejected inputInvalid "provider URL unknown"
    | some provCfg =>
      match parseProviderConfig provCfg with
      | none => .skipped
      | some cfg =>
        if cfg.httpStatus ≠ 200 ∨ cfg.disabled then .skipped
        else
          match cfg.methods with
          | .array provMethods =>
            match authMethods[methodIdx]? with
            | none => .rejected inputInvalid "authentication method unknown"
            | some authMethod =>
              match parseString authMethod "type" with
              | none => .rejected inputInvalid "authentication method must be a string"
              | some methodType =>
                match findMethod isAmount methodType provMethods with
                | none =>
                  .rejected stateInvalid "provider authentication method specification invalid"
                | some false =>
                  .rejected stateInvalid "selected provider does not support authentication method"
                | some true => .appended
          | _ => .rejected inputInvalid "provider lacks authentication methods"
  | _, _ => .rejected inputInvalid "'method' details malformed"

/-- The array of methods is released where an entry is skipped, and the loop goes on with it. -/
def addMethods (authProviders : Json) (authMethods : List Json) :
    List Json → Option (List Json) → Except Outcome (List Json)
  | [], some methods => .ok methods
  | method :: rest, some methods =>
    match checkMethod isAmount authProviders authMethods method with
    | .rejected code detail => .error (.failed code detail)
    | .skipped => addMethods authProviders authMethods rest none
    | .appended => addMethods authProviders authMethods rest (some (methods ++ [method]))
  | _, none => .error .undefined

/-- A negative index becomes one past the end of every array. -/
def inside (index : Int) (length : Nat) : Bool := 0 ≤ index ∧ index < length

def insertNew (array : List Json) (index : Int) (value : Json) : Option (List Json) :=
  if inside index (array.length + 1) then some (array.insertIdx index.toNat value) else none

def remove (array : List Json) (index : Int) : Option (List Json) :=
  if inside index array.length then some (array.eraseIdx index.toNat) else none

def addPolicy (state : Json) (arguments : Option Json) : Outcome :=
  match arguments with
  | none => .failed inputInvalid "arguments missing"
  | some arguments =>
    match arguments.member? "policy" with
    | some (.array argArray) =>
      match state.member? "policies" with
      | some (.array policies) =>
        match state.member? "authentication_providers" with
        | some (.object providers) =>
          match state.member? "authentication_methods" with
          | some (.array authMethods) =>
            match addMethods isAmount (.object providers) authMethods argArray (some []) with
            | .error outcome => outcome
            | .ok methods =>
              let policy := Json.object [("methods", .array methods)]
              match (arguments.member? "policy_index").bind Json.number? with
              | none => .next (state.setField "policies" (.array (policies ++ [policy])))
              | some idx =>
                match insertNew policies idx policy with
                | none => .aborted
                | some policies => .next (state.setField "policies" (.array policies))
          | _ => .failed stateInvalid "'auth_methods' not an array"
        | _ => .failed stateInvalid "'auth_providers' not an object"
      | _ => .failed stateInvalid "'policies' not an array"
    | _ => .failed inputInvalid "'policy' not an array"

def updatePolicy (state : Json) (arguments : Option Json) : Outcome :=
  match arguments with
  | none => .failed inputInvalid "arguments missing"
  | some args =>
    match (args.member? "policy_index").bind Json.number? with
    | none => .failed inputInvalid "'policy_index' must be an integer"
    | some index =>
      match state.member? "policies" with
      | some (.array policyArr) =>
        match remove policyArr index with
        | none => .failed inputInvalidForState "removal failed"
        | some policies =>
          addPolicy isAmount (state.setField "policies" (.array policies)) (some args)
      | _ => .failed stateInvalid "'policies' must be an array"

/-! ## What the actions are for -/

/-- The provider of an entry is up and enabled, and offers the method that the entry names. -/
def Offered (state entry : Json) : Prop :=
  ∃ providers authMethods provMethods providerUrl methodIdx provCfg cfg authMethod methodType pm,
    state.member? "authentication_providers" = some providers ∧
    state.member? "authentication_methods" = some (.array authMethods) ∧
    parseString entry "provider" = some providerUrl ∧
    (entry.member? "authentication_method").bind uint32? = some methodIdx ∧
    providers.member? providerUrl = some provCfg ∧ parseProviderConfig provCfg = some cfg ∧
    cfg.httpStatus = 200 ∧ cfg.disabled = false ∧ authMethods[methodIdx]? = some authMethod ∧
    parseString authMethod "type" = some methodType ∧ cfg.methods = .array provMethods ∧
    pm ∈ provMethods ∧ parseString pm "type" = some methodType

/-- An error is reported, or only the policies change, as the edit says for the new policy. -/
def Edits (state : Json) (arguments : Option Json) (edit : List Json → Json → List Json)
    (outcome : Outcome) : Prop :=
  match outcome with
  | .failed _ _ => True
  | .aborted | .undefined => False
  | .next next => ∃ args entries policies, arguments = some args ∧
      args.member? "policy" = some (.array entries) ∧
      state.member? "policies" = some (.array policies) ∧ (∀ entry ∈ entries, Offered state entry) ∧
      next = state.setField "policies"
        (.array (edit policies (.object [("methods", .array entries)])))

def requestedIndex (arguments : Option Json) : Option Int :=
  arguments.bind fun args => (args.member? "policy_index").bind Json.number?

/-- The fields that both actions read. -/
structure Inputs where
  args : Json
  entries : List Json
  policies : List Json
  providers : List (String × Json)
  authMethods : List Json

structure Ready (state : Json) (arguments : Option Json) (inp : Inputs) : Prop where
  arguments : arguments = some inp.args
  policy : inp.args.member? "policy" = some (.array inp.entries)
  policies : state.member? "policies" = some (.array inp.policies)
  providers : state.member? "authentication_providers" = some (.object inp.providers)
  authMethods : state.member? "authentication_methods" = some (.array inp.authMethods)

/-- The first entry that is not appended. -/
def firstProblem (inp : Inputs) : Option Verdict :=
  (inp.entries.map (checkMethod isAmount (.object inp.providers) inp.authMethods)).find?
    fun verdict => !verdict.isAppended

/-- No provider that is down or disabled is met before an entry that is refused, and where
nothing is refused an index is at most the number of policies. -/
def AddsSafely (state : Json) (arguments : Option Json) : Prop :=
  ∀ inp, Ready state arguments inp → firstProblem isAmount inp ≠ some .skipped ∧
    (firstProblem isAmount inp = none →
      ∀ index, requestedIndex arguments = some index → inside index (inp.policies.length + 1))

def UpdatesSafely (state : Json) (arguments : Option Json) : Prop :=
  ∀ inp index, Ready state arguments inp → requestedIndex arguments = some index →
    inside index inp.policies.length → firstProblem isAmount inp ≠ some .skipped

variable {isAmount : Json → Bool} {state entry : Json} {arguments : Option Json}
  {authMethods done : List Json} {providers : List (String × Json)} {inp again : Inputs}

theorem addMethods_released {entries : List Json} :
    addMethods isAmount (.object providers) authMethods entries none = .error .undefined := by
  cases entries <;> rfl

/-- The first entry that is not appended decides. -/
theorem addMethods_eq :
    addMethods isAmount (.object inp.providers) inp.authMethods inp.entries (some done) =
      match firstProblem isAmount inp with
      | none => .ok (done ++ inp.entries)
      | some (.rejected code detail) => .error (.failed code detail)
      | some _ => .error .undefined := by
  obtain ⟨args, entries, policies, providers, authMethods⟩ := inp
  dsimp only
  induction entries generalizing done with
  | nil => simp [addMethods, firstProblem]
  | cons entry rest ih =>
    rw [addMethods, firstProblem, List.map_cons]
    cases checkMethod isAmount (.object providers) authMethods entry with
    | appended =>
      rw [List.find?_cons_of_neg (by simp [Verdict.isAppended])]
      simpa [firstProblem] using @ih (done ++ [entry])
    | skipped => exact addMethods_released
    | rejected code detail => rfl

theorem findMethod_offers {methodType : String} {provMethods : List Json}
    (got : findMethod isAmount methodType provMethods = some true) :
    ∃ pm ∈ provMethods, parseString pm "type" = some methodType := by
  induction provMethods with
  | nil => cases got
  | cons pm rest ih =>
    rw [findMethod] at got
    split at got
    · next type isType _ =>
      by_cases same : type = methodType
      · exact ⟨pm, List.mem_cons_self, same ▸ isType⟩
      rw [if_neg same] at got
      obtain ⟨pm, mem, offers⟩ := ih got
      exact ⟨pm, List.mem_cons_of_mem _ mem, offers⟩
    · cases got

theorem checkMethod_offered
    (isProviders : state.member? "authentication_providers" = some (.object providers))
    (isMethods : state.member? "authentication_methods" = some (.array authMethods))
    (appended : (checkMethod isAmount (.object providers) authMethods entry).isAppended) :
    Offered state entry := by
  unfold checkMethod at appended
  split at appended
  · next providerUrl methodIdx isUrl isIdx =>
    split at appended
    · cases appended
    rename_i provCfg has
    split at appended
    · cases appended
    rename_i cfg parsed
    split at appended
    · cases appended
    rename_i up
    rw [not_or, not_not, Bool.not_eq_true] at up
    split at appended
    · next provMethods lists =>
      split at appended
      · cases appended
      rename_i authMethod isMethod
      split at appended
      · cases appended
      rename_i methodType isType
      split at appended
      · cases appended
      · cases appended
      rename_i got
      obtain ⟨pm, mem, offers⟩ := findMethod_offers got
      exact ⟨_, authMethods, provMethods, providerUrl, methodIdx, provCfg, cfg,
        authMethod, methodType, pm, isProviders, isMethods, isUrl, isIdx, has,
        parsed, up.1, up.2, isMethod, isType, lists, mem, offers⟩
    · cases appended
  · cases appended

theorem Ready.offered (ready : Ready state arguments inp) (fine : firstProblem isAmount inp = none) :
    ∀ entry ∈ inp.entries, Offered state entry := by
  intro entry mem
  have appended := List.find?_eq_none.mp fine _ (List.mem_map_of_mem mem)
  exact checkMethod_offered ready.providers ready.authMethods (by simpa using appended)

theorem Ready.unique (ready : Ready state arguments inp) (same : Ready state arguments again) :
    inp = again := by
  obtain ⟨args, entries, policies, providers, authMethods⟩ := inp
  cases ready.arguments.symm.trans same.arguments
  cases ready.policy.symm.trans same.policy
  cases ready.policies.symm.trans same.policies
  cases ready.providers.symm.trans same.providers
  cases ready.authMethods.symm.trans same.authMethods
  rfl

/-- The policies with the new one at the index, or behind them if none is asked for. -/
def insertAt (index : Option Int) (policies : List Json) (policy : Json) : List Json :=
  match index with
  | none => policies ++ [policy]
  | some index => policies.insertIdx index.toNat policy

theorem addPolicy_eq (ready : Ready state arguments inp) : addPolicy isAmount state arguments =
      match firstProblem isAmount inp with
      | none =>
        if (requestedIndex arguments).all fun index => inside index (inp.policies.length + 1) then
          .next (state.setField "policies" (.array (insertAt (requestedIndex arguments)
            inp.policies (.object [("methods", .array inp.entries)]))))
        else .aborted
      | some (.rejected code detail) => .failed code detail
      | some _ => .undefined := by
  obtain ⟨rfl, isPolicy, isPolicies, isProviders, isMethods⟩ := ready
  simp only [addPolicy, isPolicy, isPolicies, isProviders, isMethods, addMethods_eq]
  cases firstProblem isAmount inp with
  | none =>
    simp only [List.nil_append, requestedIndex, Option.bind_some]
    split
    · next isNone => simp only [isNone, insertAt, Option.all_none, if_true]
    rename_i index isIndex
    simp only [isIndex, insertNew, Option.all_some, insertAt]
    by_cases fits : inside index (inp.policies.length + 1) <;> simp [fits]
  | some verdict => cases verdict <;> rfl

theorem addPolicy_unready (unready : ∀ inp, ¬ Ready state arguments inp) :
    ∃ code detail, addPolicy isAmount state arguments = .failed code detail := by
  unfold addPolicy
  split
  · exact ⟨_, _, rfl⟩
  split
  · next isPolicy =>
    split
    · next isPolicies =>
      split
      · next isProviders =>
        split
        · next isMethods =>
          exact absurd ⟨rfl, isPolicy, isPolicies, isProviders, isMethods⟩ (unready ⟨_, _, _, _, _⟩)
        · exact ⟨_, _, rfl⟩
      · exact ⟨_, _, rfl⟩
    · exact ⟨_, _, rfl⟩
  · exact ⟨_, _, rfl⟩

theorem addPolicy_edits_iff : Edits state arguments (insertAt (requestedIndex arguments))
        (addPolicy isAmount state arguments) ↔ AddsSafely isAmount state arguments := by
  by_cases exist : ∃ inp, Ready state arguments inp
  · obtain ⟨inp, ready⟩ := exist
    have safely : AddsSafely isAmount state arguments ↔ firstProblem isAmount inp ≠ some .skipped ∧
        (firstProblem isAmount inp = none → (requestedIndex arguments).all fun index =>
          inside index (inp.policies.length + 1)) := by
      rw [Option.all_eq_true]
      exact ⟨fun safe => safe _ ready, fun fine _ again => ready.unique again ▸ fine⟩
    rw [addPolicy_eq ready, safely]
    cases problem : firstProblem isAmount inp with
    | none =>
      dsimp only
      split
      · next fits =>
        exact ⟨fun _ => ⟨nofun, fun _ => fits⟩, fun _ => ⟨_, _, _, ready.arguments, ready.policy,
          ready.policies, ready.offered problem, rfl⟩⟩
      · next outside => exact ⟨False.elim, fun fine => outside (fine.2 rfl)⟩
    | some verdict =>
      cases verdict with
      | appended => exact absurd (List.find?_some problem) (by simp [Verdict.isAppended])
      | skipped => exact ⟨False.elim, fun fine => fine.1 rfl⟩
      | rejected code detail => exact ⟨fun _ => ⟨nofun, nofun⟩, fun _ => trivial⟩
  · have unready : ∀ inp, ¬ Ready state arguments inp := fun inp ready => exist ⟨inp, ready⟩
    obtain ⟨code, detail, failed⟩ := @addPolicy_unready isAmount _ _ unready
    rw [failed]
    exact ⟨fun _ _ ready => absurd ready (unready _), fun _ => trivial⟩

theorem Ready.replaced (ready : Ready state arguments inp) (new : List Json) :
    Ready (state.setField "policies" (.array new)) arguments { inp with policies := new } where
  arguments := ready.arguments
  policy := ready.policy
  policies := Json.member?_setField_self ready.policies _ _
  providers := (Json.member?_setField_ne _ (by decide) _).trans ready.providers
  authMethods := (Json.member?_setField_ne _ (by decide) _).trans ready.authMethods

theorem updatePolicy_eq {index : Int} (ready : Ready state arguments inp)
    (requested : requestedIndex arguments = some index)
    (within : inside index inp.policies.length) : updatePolicy isAmount state arguments =
      match firstProblem isAmount inp with
      | none => .next (state.setField "policies" (.array (inp.policies.set index.toNat
          (.object [("methods", .array inp.entries)]))))
      | some (.rejected code detail) => .failed code detail
      | some _ => .undefined := by
  have bounds : 0 ≤ index ∧ index < inp.policies.length := by simpa [inside] using within
  have before : index.toNat < inp.policies.length := by omega
  have fits : inside index ((inp.policies.eraseIdx index.toNat).length + 1) := by
    rw [List.length_eraseIdx_of_lt before]
    simp only [inside, decide_eq_true_eq]
    omega
  have isIndex : (inp.args.member? "policy_index").bind Json.number? = some index := by
    rw [← requested, ready.arguments]
    rfl
  rw [ready.arguments, updatePolicy]
  simp only [isIndex, ready.policies, remove, within, if_true]
  rw [← ready.arguments, addPolicy_eq (ready.replaced _), requested, Option.all_some, if_pos fits,
    Json.setField_setField, insertAt, List.insertIdx_eraseIdx_self before.ne]
  rfl

theorem updatePolicy_unready
    (unready : ∀ inp index, Ready state arguments inp → requestedIndex arguments = some index →
      ¬ inside index inp.policies.length) :
    ∃ code detail, updatePolicy isAmount state arguments = .failed code detail := by
  unfold updatePolicy
  split
  · exact ⟨_, _, rfl⟩
  rename_i args
  split
  · exact ⟨_, _, rfl⟩
  rename_i index isIndex
  split
  · next policies isPolicies =>
    unfold remove
    split_ifs with within
    · refine addPolicy_unready fun inp ready => ?_
      have before : Ready state (some args) { inp with policies := policies } :=
        { arguments := ready.arguments, policy := ready.policy, policies := isPolicies
          providers := (Json.member?_setField_ne _ (by decide) _).symm.trans ready.providers
          authMethods := (Json.member?_setField_ne _ (by decide) _).symm.trans ready.authMethods }
      exact unready _ index before isIndex within
    · exact ⟨_, _, rfl⟩
  · exact ⟨_, _, rfl⟩

/-- The policies with the one at the index replaced. -/
def replaceAt (index : Option Int) (policies : List Json) (policy : Json) : List Json :=
  policies.set (index.getD 0).toNat policy

theorem updatePolicy_edits_iff : Edits state arguments (replaceAt (requestedIndex arguments))
        (updatePolicy isAmount state arguments) ↔ UpdatesSafely isAmount state arguments := by
  by_cases exist : ∃ inp index, Ready state arguments inp ∧
      requestedIndex arguments = some index ∧ inside index inp.policies.length
  · obtain ⟨inp, index, ready, requested, within⟩ := exist
    have safely : UpdatesSafely isAmount state arguments ↔
        firstProblem isAmount inp ≠ some .skipped := ⟨fun safe => safe _ _ ready requested within,
        fun fine _ _ again _ _ => ready.unique again ▸ fine⟩
    rw [updatePolicy_eq ready requested within, safely]
    cases problem : firstProblem isAmount inp with
    | none =>
      refine ⟨fun _ => nofun, fun _ => ⟨_, _, _, ready.arguments, ready.policy, ready.policies,
        ready.offered problem, ?_⟩⟩
      rw [requested]
      rfl
    | some verdict =>
      cases verdict with
      | appended => exact absurd (List.find?_some problem) (by simp [Verdict.isAppended])
      | skipped => exact ⟨False.elim, fun fine => fine rfl⟩
      | rejected code detail => exact ⟨fun _ => nofun, fun _ => trivial⟩
  · have unready : ∀ inp index, Ready state arguments inp →
        requestedIndex arguments = some index → ¬ inside index inp.policies.length :=
      fun _ _ ready requested within => exist ⟨_, _, ready, requested, within⟩
    obtain ⟨code, detail, failed⟩ := @updatePolicy_unready isAmount _ _ unready
    rw [failed]
    exact ⟨fun _ _ _ ready requested within => absurd within (unready _ _ ready requested),
      fun _ => trivial⟩

/-- Policy editing reports an error or edits one policy, unless it meets a provider that is down,
or inserts past the end. -/
theorem editing_iff (isAmount : Json → Bool) (state : Json) (arguments : Option Json) :
    (Edits state arguments (insertAt (requestedIndex arguments))
        (addPolicy isAmount state arguments) ↔
      AddsSafely isAmount state arguments) ∧
    (Edits state arguments (replaceAt (requestedIndex arguments))
        (updatePolicy isAmount state arguments) ↔
      UpdatesSafely isAmount state arguments) :=
  ⟨addPolicy_edits_iff, updatePolicy_edits_iff⟩

end Actions

def exampleState : Json :=
  .object [
    ("backup_state", .string "POLICIES_REVIEWING"),
    ("authentication_providers", .object [("https://down.example/", .object [
      ("error_code", .number 8412), ("http_status", .number 0)])]),
    ("authentication_methods", .array [.object [("type", .string "question")]]),
    ("policies", .array [])]

def pastTheEnd : Json := .object [("policy", .array []), ("policy_index", .number 1)]

def namesDown : Json :=
  .object [("policy", .array [.object [
    ("provider", .string "https://down.example/"), ("authentication_method", .number 0)]])]

/-- An index past the end aborts, and a provider that is down leaves a released array in use. -/
theorem editing_not_total :
    ¬ Edits exampleState (some pastTheEnd) (insertAt (requestedIndex (some pastTheEnd)))
        (addPolicy (fun _ => true) exampleState (some pastTheEnd)) ∧
      ¬ Edits exampleState (some namesDown) (insertAt (requestedIndex (some namesDown)))
        (addPolicy (fun _ => true) exampleState (some namesDown)) := by
  have aborted : addPolicy (fun _ => true) exampleState (some pastTheEnd) = .aborted := rfl
  have undefined : addPolicy (fun _ => true) exampleState (some namesDown) = .undefined := rfl
  rw [aborted, undefined]
  exact ⟨id, id⟩

end Anastasis.Reducer.PolicyEditing
