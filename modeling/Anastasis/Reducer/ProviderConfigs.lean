import Anastasis.Library.JsonUpdate
import Anastasis.Library.Transition
import Anastasis.Client.Host

/-! The requests for the configuration of one provider, and what those who wait for the answer are
told. The record of a request is used again for the next one. -/

set_option autoImplicit false

namespace Anastasis.Reducer.ProviderConfigs

open Library Library.Transition Client

def genericTimeout : ErrorCode := 11
def providerConfigFailed : ErrorCode := 8412
def providerInvalidConfig : ErrorCode := 8418

structure AuthorizationMethodConfig where
  type : String
  usageFee : Json

/-- A configuration as it is handed to the callback, with amounts and the salt as they are packed. -/
structure Config where
  currency : String
  businessName : String
  methods : List AuthorizationMethodConfig
  storageLimitInMegabytes : Nat
  annualFee : Json
  truthUploadFee : Json
  liabilityLimit : Json
  salt : Json

/-- Somebody who waits, with the providers of the state to be updated. -/
structure ConfigReduxWaiting where
  ra : Nat
  authenticationProviders : List (String × Json)

/-- `config` holds what the last accepted configuration left in the fields, if there was one. -/
structure ConfigRequest where
  url : String
  waiting : List ConfigReduxWaiting
  httpStatus : Nat
  co : Bool
  config : Option Config
  ec : ErrorCode

structure Notification where
  ra : Nat
  ec : ErrorCode
  authenticationProviders : List (String × Json)

def failedEntry (ec : ErrorCode) (httpStatus : Nat) : Json :=
  .object [("error_code", .number ec), ("http_status", .number httpStatus)]

def configEntry (config : Config) (httpStatus : Nat) : Json :=
  .object [
    ("methods", .array (config.methods.map fun method =>
      .object [("type", .string method.type), ("usage_fee", method.usageFee)])),
    ("annual_fee", config.annualFee),
    ("truth_upload_fee", config.truthUploadFee),
    ("liability_limit", config.liabilityLimit),
    ("currency", .string config.currency),
    ("business_name", .string config.businessName),
    ("storage_limit_in_megabytes", .number config.storageLimitInMegabytes),
    ("salt", config.salt),
    ("http_status", .number httpStatus)]

/-- Packing fields that were never set aborts. -/
def ConfigRequest.entry (cr : ConfigRequest) : Option Json :=
  if cr.ec ≠ ErrorCode.none then some (failedEntry cr.ec cr.httpStatus)
  else cr.config.map (configEntry · cr.httpStatus)

def notify (url : String) (ec : ErrorCode) (prov : Json) (w : ConfigReduxWaiting) :
    Notification where
  ra := w.ra
  ec := ec
  authenticationProviders := Json.setMember w.authenticationProviders url prov

def notifyWaiting (cr : ConfigRequest) : Option (ConfigRequest × List Notification) :=
  if cr.waiting = [] then some (cr, [])
  else cr.entry.map fun prov =>
    ({ cr with waiting := [] }, cr.waiting.map (notify cr.url cr.ec prov))

def configCb (cr : ConfigRequest) (httpStatus : Nat) (acfg : Option Config) : ConfigRequest :=
  let cr := { cr with co := false, httpStatus := httpStatus }
  let cr := if httpStatus ≠ 200 then { cr with ec := providerConfigFailed } else cr
  match acfg with
  | none =>
    if httpStatus = 200 then { cr with httpStatus := 404, ec := providerConfigFailed } else cr
  | some acfg =>
    if acfg.storageLimitInMegabytes = 0 then
      { cr with httpStatus := 0, ec := providerInvalidConfig }
    else { cr with config := some acfg }

def configRequestTimeout (cr : ConfigRequest) : ConfigRequest :=
  { cr with co := false, httpStatus := 0, ec := genericTimeout }

/-- A request that is under way is not started again. -/
def checkConfig (cr : ConfigRequest) : ConfigRequest := { cr with co := true }

def addProviderToState (cr : ConfigRequest) (w : ConfigReduxWaiting) : ConfigRequest :=
  let cr := checkConfig cr
  { cr with waiting := w :: cr.waiting }

def abortProviderConfigCb (cr : ConfigRequest) (ra : Nat) : ConfigRequest :=
  { cr with waiting := cr.waiting.filter fun w => w.ra ≠ ra }

inductive ConfigEvent where
  | check
  | add (w : ConfigReduxWaiting)
  | abort (ra : Nat)
  | answer (httpStatus : Nat) (acfg : Option Config)
  | timeout

/-- What happens at an event, if it can happen. -/
def perform (cr : ConfigRequest) : ConfigEvent → Option (ConfigRequest × List Notification)
  | .check => some (checkConfig cr, [])
  | .add w => some (addProviderToState cr w, [])
  | .abort ra => some (abortProviderConfigCb cr ra, [])
  | .answer httpStatus acfg =>
    if cr.co then notifyWaiting (configCb cr httpStatus acfg) else none
  | .timeout => if cr.co then notifyWaiting (configRequestTimeout cr) else none

def configStep (cr : ConfigRequest) (event : ConfigEvent) (next : ConfigRequest) : Prop :=
  ∃ notifications, perform cr event = some (next, notifications)

def newRequest (url : String) : ConfigRequest where
  url := url
  waiting := []
  httpStatus := 0
  co := false
  config := none
  ec := ErrorCode.none

/-! ## What those who wait are told -/

inductive Outcome where
  | failed (ec : ErrorCode) (httpStatus : Nat)
  | configured (config : Config)

/-- What the latest response comes to, whatever came before it. -/
def ConfigEvent.outcome : ConfigEvent → Option Outcome
  | .answer httpStatus none =>
    some (.failed providerConfigFailed (if httpStatus = 200 then 404 else httpStatus))
  | .answer httpStatus (some acfg) =>
    if acfg.storageLimitInMegabytes = 0 then some (.failed providerInvalidConfig 0)
    else if httpStatus = 200 then some (.configured acfg)
    else some (.failed providerConfigFailed httpStatus)
  | .timeout => some (.failed genericTimeout 0)
  | _ => none

def Outcome.code : Outcome → ErrorCode
  | .failed ec _ => ec
  | .configured _ => ErrorCode.none

def Outcome.entry : Outcome → Json
  | .failed ec httpStatus => failedEntry ec httpStatus
  | .configured config => configEntry config 200

/-- Everybody who waits is told once, and told the latest response. -/
def Reflects (cr : ConfigRequest) (event : ConfigEvent) (outcome : Outcome) : Prop :=
  ∃ next, next.waiting = [] ∧
    perform cr event = some (next, cr.waiting.map (notify cr.url outcome.code outcome.entry))

def ConfigEvent.Fails (event : ConfigEvent) : Prop :=
  ∃ ec httpStatus, event.outcome = some (.failed ec httpStatus)

variable {url : String} {events : List ConfigEvent} {event : ConfigEvent}
  {cr next : ConfigRequest} {outcome : Outcome} {httpStatus : Nat} {acfg : Option Config}

@[simp] theorem configCb_waiting : (configCb cr httpStatus acfg).waiting = cr.waiting := by
  unfold configCb
  cases acfg <;> dsimp only <;> split_ifs <;> rfl

@[simp] theorem configCb_url : (configCb cr httpStatus acfg).url = cr.url := by
  unfold configCb
  cases acfg <;> dsimp only <;> split_ifs <;> rfl

/-- A request after its latest response, which was a failure or set the configuration. -/
theorem configCb_failed {ec : ErrorCode} {shown : Nat}
    (failed : ConfigEvent.outcome (.answer httpStatus acfg) = some (.failed ec shown)) :
    (configCb cr httpStatus acfg).ec = ec ∧ (configCb cr httpStatus acfg).httpStatus = shown ∧
      ec ≠ ErrorCode.none := by
  cases acfg with
  | none =>
    by_cases ok : httpStatus = 200 <;>
      simp_all [ConfigEvent.outcome, configCb, providerConfigFailed, ErrorCode.none] <;>
      (obtain ⟨rfl, rfl⟩ := failed; decide)
  | some config =>
    by_cases empty : config.storageLimitInMegabytes = 0 <;> by_cases ok : httpStatus = 200 <;>
      simp_all [ConfigEvent.outcome, configCb, providerConfigFailed, providerInvalidConfig,
        ErrorCode.none] <;> (obtain ⟨rfl, rfl⟩ := failed; decide)

theorem configCb_configured {config : Config}
    (configured : ConfigEvent.outcome (.answer httpStatus acfg) = some (.configured config)) :
    configCb cr httpStatus acfg =
      { cr with co := false, httpStatus := 200, config := some config } := by
  cases acfg with
  | none => cases configured
  | some got =>
    by_cases empty : got.storageLimitInMegabytes = 0 <;> by_cases ok : httpStatus = 200 <;>
      simp_all [ConfigEvent.outcome, configCb]

theorem notifyWaiting_eq {prov : Json} (packs : cr.entry = some prov) : notifyWaiting cr =
      some ({ cr with waiting := [] }, cr.waiting.map (notify cr.url cr.ec prov)) := by
  unfold notifyWaiting
  split
  · next nobody =>
    obtain ⟨_, waiting, _, _, _, _⟩ := cr
    subst nobody
    rfl
  · rw [packs]
    rfl

/-- What a failure writes is right, whatever the request went through before. -/
theorem reflects_failed {ec : ErrorCode} {shown : Nat} (waits : cr.co = true)
    (failed : event.outcome = some (.failed ec shown)) : ∃ next, perform cr event =
        some (next, cr.waiting.map (notify cr.url ec (failedEntry ec shown))) ∧
      next.waiting = [] ∧ next.url = cr.url ∧ next.ec = ec ∧ ec ≠ ErrorCode.none := by
  cases event with
  | answer httpStatus acfg =>
    obtain ⟨isCode, isShown, code⟩ := @configCb_failed cr _ _ _ _ failed
    have packs : (configCb cr httpStatus acfg).entry = some (failedEntry ec shown) := by
      rw [ConfigRequest.entry, isCode, if_pos code, isShown]
    refine ⟨{ configCb cr httpStatus acfg with waiting := [] }, ?_, rfl, configCb_url, isCode, code⟩
    rw [perform, if_pos waits, notifyWaiting_eq packs]
    simp only [configCb_waiting, configCb_url, isCode]
  | timeout =>
    cases failed
    have packs : (configRequestTimeout cr).entry = some (failedEntry genericTimeout 0) := rfl
    refine ⟨{ configRequestTimeout cr with waiting := [] }, ?_, rfl, rfl, rfl, by decide⟩
    rw [perform, if_pos waits, notifyWaiting_eq packs]
    rfl
  | _ => cases failed

/-- A configuration comes with the code that the request had before. -/
theorem perform_configured {config : Config} (waits : cr.co = true)
    (configured : event.outcome = some (.configured config)) :
    ∃ next, perform cr event = some (next, cr.waiting.map (notify cr.url cr.ec
        (if cr.ec ≠ ErrorCode.none then failedEntry cr.ec 200 else configEntry config 200))) ∧
      next.waiting = [] ∧ next.url = cr.url ∧ next.ec = cr.ec := by
  cases event with
  | answer httpStatus acfg =>
    rw [perform, if_pos waits, configCb_configured configured]
    refine ⟨_, notifyWaiting_eq ?_, rfl, rfl, rfl⟩
    unfold ConfigRequest.entry
    split_ifs <;> rfl
  | timeout => cases configured
  | _ => cases configured

theorem perform_other (noOutcome : event.outcome = none) (did : configStep cr event next) :
    next.url = cr.url ∧ next.ec = cr.ec := by
  obtain ⟨notifications, did⟩ := did
  cases event with
  | answer httpStatus acfg =>
    cases acfg <;> simp only [ConfigEvent.outcome] at noOutcome
    · cases noOutcome
    · split_ifs at noOutcome
  | timeout => cases noOutcome
  | _ =>
    cases did
    exact ⟨rfl, rfl⟩

/-- Nothing sets the code back after a failure. -/
theorem configStep_ec (did : configStep cr event next) :
    next.url = cr.url ∧ (next.ec = ErrorCode.none ↔ cr.ec = ErrorCode.none ∧ ¬ event.Fails) := by
  cases result : event.outcome with
  | none =>
    obtain ⟨sameUrl, sameCode⟩ := perform_other result did
    simp [ConfigEvent.Fails, result, sameUrl, sameCode]
  | some outcome =>
    obtain ⟨notifications, did⟩ := did
    have waits : cr.co = true := by
      by_contra closed
      cases event with
      | answer | timeout => simp [perform, closed] at did
      | _ => cases result
    cases outcome with
    | failed ec shown =>
      obtain ⟨_, isNext, _, sameUrl, isCode, code⟩ := reflects_failed waits result
      cases did.symm.trans isNext
      exact ⟨sameUrl, fun isNone => absurd (isCode ▸ isNone) code,
        fun ⟨_, fine⟩ => absurd ⟨ec, shown, result⟩ fine⟩
    | configured config =>
      obtain ⟨_, isNext, _, sameUrl, sameCode⟩ := perform_configured waits result
      cases did.symm.trans isNext
      simp [ConfigEvent.Fails, result, sameUrl, sameCode]

/-- The code is none as long as nothing has failed. -/
theorem run_ec (run : Run configStep (newRequest url) events cr) :
    cr.ec = ErrorCode.none ↔ ∀ earlier ∈ events, ¬ earlier.Fails := by
  refine run.invariantWithHistory
    (fun history state => state.ec = ErrorCode.none ↔ ∀ earlier ∈ history, ¬ earlier.Fails)
    (by simp [newRequest]) fun history state event next has did => ?_
  rw [(configStep_ec did).2, has, List.forall_mem_append, List.forall_mem_singleton]

/-- A failure is always told. A configuration is told unless somebody waits for it after an
earlier request failed: the old code of the request then stands for the new response. -/
theorem reflects_iff (run : Run configStep (newRequest url) events cr) (waits : cr.co = true)
    (completes : event.outcome = some outcome) :
    Reflects cr event outcome ↔
      ∀ config, outcome = .configured config →
        cr.waiting = [] ∨ ∀ earlier ∈ events, ¬ earlier.Fails := by
  rw [← run_ec run]
  cases outcome with
  | failed ec shown =>
    obtain ⟨next, performed, emptied, _⟩ := reflects_failed waits completes
    refine ⟨fun _ _ wrong => ?_, fun _ => ⟨next, emptied, performed⟩⟩
    cases wrong
  | configured config =>
    obtain ⟨next, performed, emptied, _⟩ := perform_configured waits completes
    constructor
    · rintro ⟨told, _, shown⟩ _ _
      rw [performed] at shown
      cases queue : cr.waiting with
      | nil => exact .inl rfl
      | cons first rest =>
        rw [queue] at shown
        simp only [List.map_cons, Option.some.injEq, Prod.mk.injEq, List.cons.injEq] at shown
        exact .inr (congrArg Notification.ec shown.2.1)
    · intro condition
      refine ⟨next, emptied, performed.trans ?_⟩
      obtain nobody | isNone := condition config rfl
      · rw [nobody]
        rfl
      · rw [isNone]
        rfl

def exampleConfig : Config where
  currency := "EUR"
  businessName := "Data Loss Inc."
  methods := [⟨"question", .string "EUR:0.001"⟩]
  storageLimitInMegabytes := 16
  annualFee := .string "EUR:4.99"
  truthUploadFee := .string "EUR:0.01"
  liabilityLimit := .string "EUR:1"
  salt := .string "91GPRV3F5GWKJ"

def exampleRequest : ConfigRequest where
  url := "https://provider.example/"
  waiting := [⟨7, []⟩]
  httpStatus := 0
  co := true
  config := none
  ec := ErrorCode.none

theorem reflects_first :
    Reflects exampleRequest (.answer 200 (some exampleConfig)) (.configured exampleConfig) := by
  have run : Run configStep (newRequest "https://provider.example/") [.add ⟨7, []⟩]
      exampleRequest := .next .start ⟨[], rfl⟩
  exact (reflects_iff run rfl rfl).mpr fun _ _ => .inr fun _ member failed => by
    cases List.mem_singleton.mp member
    obtain ⟨_, _, wrong⟩ := failed
    cases wrong

/-- After a timeout the answer to the next request is not told. -/
theorem configuration_hidden :
    ∃ events cr, Run configStep (newRequest "https://provider.example/") events cr ∧
      cr.co = true ∧ ¬ Reflects cr (.answer 200 (some exampleConfig)) (.configured exampleConfig)
      := by
  have first : Run configStep (newRequest "https://provider.example/") [.add ⟨7, []⟩]
      exampleRequest := .next .start ⟨[], rfl⟩
  have failed : Run configStep (newRequest "https://provider.example/")
      ([.add ⟨7, []⟩] ++ [.timeout])
      { exampleRequest with waiting := [], co := false, ec := genericTimeout } :=
    .next first ⟨_, rfl⟩
  have again : Run configStep (newRequest "https://provider.example/")
      ([.add ⟨7, []⟩] ++ [.timeout] ++ [.add ⟨8, []⟩])
      { exampleRequest with waiting := [⟨8, []⟩], ec := genericTimeout } :=
    .next failed ⟨_, rfl⟩
  refine ⟨_, _, again, rfl, fun ⟨_, _, shown⟩ => ?_⟩
  have code : some [genericTimeout] = some [ErrorCode.none] :=
    congrArg (fun result => result.map fun pair => pair.2.map Notification.ec) shown
  exact absurd code (by decide)

end Anastasis.Reducer.ProviderConfigs
