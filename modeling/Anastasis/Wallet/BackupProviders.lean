import Anastasis.Library.Record
import Anastasis.Library.Transition
import Anastasis.Wallet.Denominations
import Mathlib.Data.List.Dedup

/-! The records of backup providers, and who writes them. -/

set_option autoImplicit false

namespace Anastasis.Wallet

open Library Library.Transition List Option

/-- Without the time of the next try, which nothing here reads. -/
structure RetryInfo where
  firstTry : Timestamp
  retryCounter : Nat

def initRetryInfo (now : Nat) : RetryInfo where
  firstTry := .at now
  retryCounter := 0

inductive BackupProviderState where
  | provisional
  | ready (nextBackupTimestamp : Timestamp)
  | retrying (retryInfo : RetryInfo) (lastError : Option String)

structure BackupProviderTerms where
  supportedProtocolVersion : String
  annualFee : String
  storageLimitInMegabytes : Nat

structure BackupProviderRecord where
  baseUrl : String
  name : String
  terms : Option BackupProviderTerms
  lastBackupHash : Option String
  lastBackupCycleTimestamp : Option Timestamp
  currentPaymentProposalId : Option String
  paymentProposalIds : List String
  state : BackupProviderState
  uids : List String

abbrev BackupProviders := Record String BackupProviderRecord

namespace BackupProviders

def put (providers : BackupProviders) (provider : BackupProviderRecord) : BackupProviders :=
  providers.set provider.baseUrl provider

def KeyPaths (providers : BackupProviders) : Prop :=
  ∀ baseUrl provider, providers.get? baseUrl = some provider → provider.baseUrl = baseUrl

def modify (providers : BackupProviders) (baseUrl : String)
    (change : BackupProviderRecord → BackupProviderRecord) : BackupProviders :=
  match providers.get? baseUrl with
  | none => providers
  | some provider => providers.put (change provider)

end BackupProviders

def getNextBackupTimestamp (now : Nat) : Timestamp :=
  .at (now + 5 * 60 * 1000)

def BackupProviderRecord.incrementRetry (now : Nat) (err : Option String)
    (pr : BackupProviderRecord) : BackupProviderRecord :=
  match pr.state with
  | .retrying retryInfo _ =>
    { pr with
      state := .retrying { retryInfo with retryCounter := retryInfo.retryCounter + 1 } err }
  | .ready _ => { pr with state := .retrying (initRetryInfo now) err }
  | .provisional => pr

def incrementBackupRetryInTx (now : Nat) (backupProviderBaseUrl : String) (err : Option String)
    (providers : BackupProviders) : BackupProviders :=
  providers.modify backupProviderBaseUrl (BackupProviderRecord.incrementRetry now err)

structure AddBackupProviderRequest where
  canonUrl : String
  name : String
  activate : Bool

/-- The first transaction. It ends early for a provider that is known, but not the function. -/
def activateKnown (now : Nat) (req : AddBackupProviderRequest) (providers : BackupProviders) :
    BackupProviders :=
  providers.modify req.canonUrl fun oldProv =>
    if req.activate then { oldProv with state := .ready (.at now) } else oldProv

def putProvider (now : Nat) (uid : String) (terms : BackupProviderTerms)
    (req : AddBackupProviderRequest) (providers : BackupProviders) : BackupProviders :=
  providers.put
    { baseUrl := req.canonUrl
      name := req.name
      terms := some terms
      lastBackupHash := none
      lastBackupCycleTimestamp := none
      currentPaymentProposalId := none
      paymentProposalIds := []
      state := if req.activate then .ready (.at now) else .provisional
      uids := [uid] }

/-- The cursor over the index by proposal yields copies, and what is set in them is not put. -/
def unblockBackup (_proposalId : String) (providers : BackupProviders) : BackupProviders :=
  providers

def addProposalId (ids : List String) (proposalId : String) : List String :=
  (proposalId :: ids).dedup.insertionSort (· ≤ ·)

variable {Blob : Type}

/-- What a cycle makes of the answer of the provider; a payment is prepared before it is stored. -/
inductive BackupResponse (Blob : Type) where
  | notModified
  | paymentRequired (proposalId : String)
  | noContent
  | conflict (backupEnc : Blob)
  | error (err : String)

structure BackupRequest (Blob : Type) where
  encBackup : Blob
  ifMatch : Option String

inductive CycleStage (Blob : Type) where
  | starting
  | posted (request : BackupRequest Blob)
  | answered (request : BackupRequest Blob) (response : BackupResponse Blob)

structure BackupCycle (Blob : Type) where
  backupProviderBaseUrl : String
  retryAfterPayment : Bool
  stage : CycleStage Blob

def BackupCycle.again (cycle : BackupCycle Blob) : BackupCycle Blob :=
  { cycle with retryAfterPayment := false, stage := .starting }

def storeResponse (blobHash : Blob → String) (now : Nat) (cycle : BackupCycle Blob)
    (request : BackupRequest Blob) (response : BackupResponse Blob)
    (providers : BackupProviders) : Option (BackupProviders × List (BackupCycle Blob)) :=
  match response with
  | .notModified =>
    some (providers.modify cycle.backupProviderBaseUrl fun prov =>
      { prov with
        lastBackupCycleTimestamp := some (.at now)
        state := .ready (getNextBackupTimestamp now) }, [])
  | .paymentRequired proposalId => do
      let provRec ← providers.get? cycle.backupProviderBaseUrl
      let stored := providers.put
        { provRec with
          paymentProposalIds := addProposalId provRec.paymentProposalIds proposalId
          currentPaymentProposalId := some proposalId }
      pure (incrementBackupRetryInTx now cycle.backupProviderBaseUrl none stored,
        if cycle.retryAfterPayment then [cycle.again] else [])
  | .noContent =>
    some (providers.modify cycle.backupProviderBaseUrl fun prov =>
      { prov with
        lastBackupHash := some (blobHash request.encBackup)
        lastBackupCycleTimestamp := some (.at now)
        state := .ready (getNextBackupTimestamp now) }, [])
  | .conflict backupEnc =>
    some (providers.modify cycle.backupProviderBaseUrl fun prov =>
      { prov with
        lastBackupHash := some (blobHash backupEnc)
        state := .retrying (initRetryInfo now) none }, [cycle.again])
  | .error err =>
    some (incrementBackupRetryInTx now cycle.backupProviderBaseUrl (some err) providers, [])

/-- The wallet, the operations that are under way, and what the providers have confirmed. -/
structure BackupSystem (Blob : Type) where
  providers : BackupProviders
  adding : List AddBackupProviderRequest
  cycles : List (BackupCycle Blob)
  confirmed : List (String × Blob)

def confirms (request : BackupRequest Blob) : BackupResponse Blob → List Blob
  | .notModified => [request.encBackup]
  | .noContent => [request.encBackup]
  | .conflict backupEnc => [backupEnc]
  | _ => []

inductive BackupEvent (Blob : Type) where
  | add (now : Nat) (req : AddBackupProviderRequest)
  | terms (index now : Nat) (uid : String) (terms : BackupProviderTerms)
  | cycle (baseUrl : String) (retryAfterPayment : Bool)
  | post (index : Nat) (encBackup : Blob)
  | answer (index : Nat) (response : BackupResponse Blob)
  | store (index now : Nat)
  -- an operation throws, and its caller may store the error
  | throw (index now : Nat) (err : Option String)
  | addThrows (index : Nat)
  | paid (proposalId : String)

def BackupSystem.perform (blobHash : Blob → String) (state : BackupSystem Blob) :
    BackupEvent Blob → Option (BackupSystem Blob)
  | .add now req =>
    some
      { state with
        providers := activateKnown now req state.providers
        adding := state.adding ++ [req] }
  | .terms index now uid terms => do
      let req ← state.adding[index]?
      pure
        { state with
          providers := putProvider now uid terms req state.providers
          adding := state.adding.eraseIdx index }
  | .cycle baseUrl retryAfterPayment =>
    some { state with cycles := state.cycles ++ [⟨baseUrl, retryAfterPayment, .starting⟩] }
  | .post index encBackup => do
      let cycle ← state.cycles[index]?
      match cycle.stage, state.providers.get? cycle.backupProviderBaseUrl with
      | .starting, some provider =>
        some
          { state with
            cycles := state.cycles.set index
              { cycle with stage := .posted ⟨encBackup, provider.lastBackupHash⟩ } }
      | .starting, none => some { state with cycles := state.cycles.eraseIdx index }
      | _, _ => none
  | .answer index response => do
      let cycle ← state.cycles[index]?
      match cycle.stage with
      | .posted request =>
        some
          { state with
            cycles := state.cycles.set index { cycle with stage := .answered request response }
            confirmed := state.confirmed ++
              (confirms request response).map (cycle.backupProviderBaseUrl, ·) }
      | _ => none
  | .store index now => do
      let cycle ← state.cycles[index]?
      match cycle.stage with
      | .answered request response => do
          let (providers, following) ←
            storeResponse blobHash now cycle request response state.providers
          pure
            { state with
              providers := providers
              cycles := state.cycles.eraseIdx index ++ following }
      | _ => none
  | .throw index now err => do
      let cycle ← state.cycles[index]?
      pure
        { state with
          providers := match err with
            | none => state.providers
            | some err =>
              incrementBackupRetryInTx now cycle.backupProviderBaseUrl (some err) state.providers
          cycles := state.cycles.eraseIdx index }
  | .addThrows index => some { state with adding := state.adding.eraseIdx index }
  | .paid proposalId =>
    some { state with providers := unblockBackup proposalId state.providers }

def BackupStep (blobHash : Blob → String) (state : BackupSystem Blob) (event : BackupEvent Blob)
    (next : BackupSystem Blob) : Prop :=
  state.perform blobHash event = some next

def BackupProviderRecord.isProvisional (provider : BackupProviderRecord) : Bool :=
  match provider.state with
  | .provisional => true
  | _ => false

def BackupProviderRecord.isRetrying (provider : BackupProviderRecord) : Bool :=
  match provider.state with
  | .retrying _ _ => true
  | _ => false

structure RecordKept (blobHash : Blob → String) (confirmed : List (String × Blob))
    (before after : BackupProviderRecord) : Prop where
  baseUrl : after.baseUrl = before.baseUrl
  proposals : before.paymentProposalIds ⊆ after.paymentProposalIds
  active : after.isProvisional → before.isProvisional
  hash : after.lastBackupHash = before.lastBackupHash ∨
    ∃ blob, (before.baseUrl, blob) ∈ confirmed ∧ after.lastBackupHash = some (blobHash blob)

def ProvidersKept (blobHash : Blob → String) (confirmed : List (String × Blob))
    (providers next : BackupProviders) : Prop :=
  ∀ baseUrl before, providers.get? baseUrl = some before →
    ∃ after, next.get? baseUrl = some after ∧ RecordKept blobHash confirmed before after

/-- A step keeps the history of every provider, and a payment makes the provider ready again. -/
structure BackupStepKept (blobHash : Blob → String) (state : BackupSystem Blob)
    (event : BackupEvent Blob) (next : BackupSystem Blob) : Prop where
  records : ProvidersKept blobHash next.confirmed state.providers next.providers
  paid : ∀ proposalId, event = .paid proposalId →
    ∀ baseUrl provider, next.providers.get? baseUrl = some provider →
      proposalId ∈ provider.paymentProposalIds → provider.isRetrying = false

/-- A known provider is not added over its history, and none waits for what has been paid. -/
def BackupCondition (state : BackupSystem Blob) : BackupEvent Blob → Prop
  | .terms index _ _ _ => ∀ req, state.adding[index]? = some req →
      ∀ provider, state.providers.get? req.canonUrl = some provider →
        provider.paymentProposalIds = [] ∧ provider.lastBackupHash = none ∧
          (req.activate = true ∨ provider.isProvisional = true)
  | .paid proposalId => ∀ baseUrl provider, state.providers.get? baseUrl = some provider →
      proposalId ∈ provider.paymentProposalIds → provider.isRetrying = false
  | _ => True

structure BackupInvariant (state : BackupSystem Blob) : Prop where
  keyPaths : state.providers.KeyPaths
  confirmed : ∀ cycle ∈ state.cycles, ∀ request response,
    cycle.stage = .answered request response → ∀ blob ∈ confirms request response,
      (cycle.backupProviderBaseUrl, blob) ∈ state.confirmed

section Records

variable {blobHash : Blob → String} {confirmed : List (String × Blob)}
  {providers ps next : BackupProviders}

theorem RecordKept.refl (provider : BackupProviderRecord) :
    RecordKept blobHash confirmed provider provider := by
  constructor
  · rfl
  · exact List.Subset.refl _
  · exact id
  · exact .inl rfl

theorem RecordKept.trans {first y third : BackupProviderRecord}
    (pre : RecordKept blobHash confirmed first y) (after : RecordKept blobHash confirmed y third) :
    RecordKept blobHash confirmed first third := by
  constructor
  · exact after.baseUrl.trans pre.baseUrl
  · exact List.Subset.trans pre.proposals after.proposals
  · exact fun provisional => pre.active (after.active provisional)
  rcases after.hash with eq | ⟨blob, isConfirmed, isHash⟩
  · rw [eq]
    exact pre.hash
  · rw [pre.baseUrl] at isConfirmed
    exact .inr ⟨blob, isConfirmed, isHash⟩

theorem ProvidersKept.refl (providers : BackupProviders) :
    ProvidersKept blobHash confirmed providers providers := fun _ pre h => ⟨pre, h, .refl pre⟩

theorem ProvidersKept.trans {last : BackupProviders}
    (x : ProvidersKept blobHash confirmed providers next)
    (y : ProvidersKept blobHash confirmed next last) :
    ProvidersKept blobHash confirmed providers last := by
  intro url pre h
  obtain ⟨mid, isMiddle, toMiddle⟩ := x url pre h
  obtain ⟨after, isAfter, fromMiddle⟩ := y url mid isMiddle
  exact ⟨after, isAfter, toMiddle.trans fromMiddle⟩

theorem put_keyPaths (keyPaths : ps.KeyPaths) (prov : BackupProviderRecord) :
    (ps.put prov).KeyPaths := by
  intro url h isF
  unfold BackupProviders.put at isF
  rw [Record.get?_set] at isF
  split at isF
  next eq =>
    cases isF
    exact eq.symm
  next => exact keyPaths url h isF

theorem modify_keyPaths (keyPaths : ps.KeyPaths) (url : String)
    (change : BackupProviderRecord → BackupProviderRecord) : (ps.modify url change).KeyPaths := by
  unfold BackupProviders.modify
  split
  next => exact keyPaths
  next => exact put_keyPaths keyPaths _

theorem put_kept {prov changed : BackupProviderRecord} {baseUrl : String}
    (keyPaths : ps.KeyPaths) (h : ps.get? baseUrl = some prov)
    (kept : RecordKept blobHash confirmed prov changed) :
    ProvidersKept blobHash confirmed ps (ps.put changed) := by
  have key : changed.baseUrl = baseUrl := kept.baseUrl.trans (keyPaths baseUrl prov h)
  intro y pre isBefore
  unfold BackupProviders.put
  rw [key, Record.get?_set]
  by_cases eq : y = baseUrl
  · subst eq
    cases h.symm.trans isBefore
    exact ⟨changed, if_pos rfl, kept⟩
  · exact ⟨pre, (if_neg eq).trans isBefore, .refl pre⟩

theorem modify_kept {url : String} {change : BackupProviderRecord → BackupProviderRecord}
    (keyPaths : ps.KeyPaths) (kept : ∀ prov, ps.get? url = some prov →
      RecordKept blobHash confirmed prov (change prov)) :
    ProvidersKept blobHash confirmed ps (ps.modify url change) := by
  unfold BackupProviders.modify
  split
  next => exact .refl ps
  next prov h => exact put_kept keyPaths h (kept prov h)

theorem incrementRetry_kept (now : Nat) (err : Option String) (prov : BackupProviderRecord) :
    RecordKept blobHash confirmed prov (prov.incrementRetry now err) := by
  unfold BackupProviderRecord.incrementRetry
  split
  next => exact ⟨rfl, List.Subset.refl _, nofun, .inl rfl⟩
  next => exact ⟨rfl, List.Subset.refl _, nofun, .inl rfl⟩
  next => exact .refl prov

theorem incrementBackupRetryInTx_kept {url : String} {err : Option String} (now : Nat)
    (keyPaths : ps.KeyPaths) : ProvidersKept blobHash confirmed ps
      (incrementBackupRetryInTx now url err ps) :=
  modify_kept keyPaths fun prov _ => incrementRetry_kept now err prov

variable {req : AddBackupProviderRequest}

theorem activateKnown_kept {now : Nat} (keyPaths : ps.KeyPaths) :
    ProvidersKept blobHash confirmed ps (activateKnown now req ps) := by
  apply modify_kept keyPaths
  intro prov _
  split
  next => exact ⟨rfl, List.Subset.refl _, nofun, .inl rfl⟩
  next => exact .refl prov

theorem mem_addProposalId {ids : List String} {pid id : String} :
    id ∈ addProposalId ids pid ↔ id = pid ∨ id ∈ ids := by
  rw [addProposalId, mem_insertionSort, mem_dedup, mem_cons]

theorem putProvider_kept {now : Nat} {uid : String} {terms : BackupProviderTerms} :
    ProvidersKept blobHash confirmed ps (putProvider now uid terms req ps) ↔
      ∀ prov, ps.get? req.canonUrl = some prov → RecordKept blobHash confirmed prov
          { baseUrl := req.canonUrl
            name := req.name
            terms := some terms
            lastBackupHash := none
            lastBackupCycleTimestamp := none
            currentPaymentProposalId := none
            paymentProposalIds := []
            state := if req.activate then .ready (.at now) else .provisional
            uids := [uid] } := by
  constructor
  · intro kept prov h
    obtain ⟨after, isAfter, isKept⟩ := kept req.canonUrl prov h
    cases (Record.get?_set_self _ _ _).symm.trans isAfter
    exact isKept
  intro kept y pre isBefore
  unfold putProvider BackupProviders.put
  rw [Record.get?_set]
  by_cases eq : y = req.canonUrl
  · subst eq
    exact ⟨_, if_pos rfl, kept pre isBefore⟩
  · exact ⟨pre, (if_neg eq).trans isBefore, .refl pre⟩

theorem newRecord_kept {now : Nat} {uid : String} {terms : BackupProviderTerms}
    {prov : BackupProviderRecord} (key : prov.baseUrl = req.canonUrl) :
    RecordKept blobHash confirmed prov
      { baseUrl := req.canonUrl
        name := req.name
        terms := some terms
        lastBackupHash := none
        lastBackupCycleTimestamp := none
        currentPaymentProposalId := none
        paymentProposalIds := []
        state := if req.activate then .ready (.at now) else .provisional
        uids := [uid] } ↔
      prov.paymentProposalIds = [] ∧ prov.lastBackupHash = none ∧
        (req.activate = true ∨ prov.isProvisional = true) := by
  constructor
  · intro kept
    refine ⟨subset_nil.mp kept.proposals, ?_, ?_⟩
    · rcases kept.hash with eq | ⟨blob, -, isHash⟩
      · exact eq.symm
      · cases isHash
    · by_cases activate : req.activate
      · exact .inl activate
      · apply Or.inr
        apply kept.active
        unfold BackupProviderRecord.isProvisional
        rw [if_neg activate]
  · rintro ⟨noProposal, noHash, activated⟩
    constructor
    · exact key.symm
    · rw [noProposal]
      exact nil_subset _
    · intro provisional
      rcases activated with activate | already
      · unfold BackupProviderRecord.isProvisional at provisional
        rw [if_pos activate] at provisional
        cases provisional
      · exact already
    · exact .inl noHash.symm

theorem storeResponse_kept {now : Nat} {cycle : BackupCycle Blob} {req : BackupRequest Blob}
    {resp : BackupResponse Blob} {following : List (BackupCycle Blob)}
    (keyPaths : providers.KeyPaths) (isConfirmed : ∀ blob ∈ confirms req resp,
      (cycle.backupProviderBaseUrl, blob) ∈ confirmed)
    (kept : storeResponse blobHash now cycle req resp providers = some (next, following)) :
    next.KeyPaths ∧ ProvidersKept blobHash confirmed providers next := by
  cases resp with
  | notModified =>
    cases kept
    refine ⟨modify_keyPaths keyPaths _ _, modify_kept keyPaths fun prov _ => ?_⟩
    exact ⟨rfl, List.Subset.refl _, nofun, .inl rfl⟩
  | paymentRequired pid =>
    obtain ⟨provRec, h, kept⟩ := bind_eq_some_iff.mp kept
    cases kept
    have withProposal := put_keyPaths keyPaths { provRec with
        paymentProposalIds := addProposalId provRec.paymentProposalIds pid
        currentPaymentProposalId := some pid }
    refine ⟨modify_keyPaths withProposal _ _, ?_⟩
    apply ProvidersKept.trans (put_kept keyPaths h _)
      (incrementBackupRetryInTx_kept now withProposal)
    refine ⟨rfl, ?_, id, .inl rfl⟩
    intro id mem
    exact mem_addProposalId.mpr (.inr mem)
  | noContent =>
    cases kept
    refine ⟨modify_keyPaths keyPaths _ _, modify_kept keyPaths fun prov h => ?_⟩
    have blob := isConfirmed req.encBackup (mem_singleton_self _)
    rw [← keyPaths _ _ h] at blob
    exact ⟨rfl, List.Subset.refl _, nofun, .inr ⟨_, blob, rfl⟩⟩
  | conflict backupEnc =>
    cases kept
    refine ⟨modify_keyPaths keyPaths _ _, modify_kept keyPaths fun prov h => ?_⟩
    have blob := isConfirmed backupEnc (mem_singleton_self _)
    rw [← keyPaths _ _ h] at blob
    exact ⟨rfl, List.Subset.refl _, nofun, .inr ⟨_, blob, rfl⟩⟩
  | error err =>
    cases kept
    exact ⟨modify_keyPaths keyPaths _ _, incrementBackupRetryInTx_kept now keyPaths⟩

end Records

section Steps

variable {blobHash : Blob → String} {state st next : BackupSystem Blob} {event ev : BackupEvent Blob}

theorem BackupInvariant.cyclesSubset (invariant : BackupInvariant st)
    {ps : BackupProviders} (keyPaths : ps.KeyPaths)
    {adding : List AddBackupProviderRequest} {cycles : List (BackupCycle Blob)}
    (fewer : ∀ cycle ∈ cycles, cycle ∈ st.cycles ∨ ∀ req resp, cycle.stage ≠ .answered req resp) :
    BackupInvariant ⟨ps, adding, cycles, st.confirmed⟩ := by
  constructor
  · exact keyPaths
  intro cycle mem req resp told blob isBlob
  rcases fewer cycle mem with old | waiting
  · exact invariant.confirmed cycle old req resp told blob isBlob
  · exact absurd told (waiting req resp)

theorem cycle_again_waiting (cycle : BackupCycle Blob) (request : BackupRequest Blob)
    (response : BackupResponse Blob) : cycle.again.stage ≠ .answered request response := nofun

theorem storeResponse_following {now : Nat} {cycle later : BackupCycle Blob}
    {req : BackupRequest Blob} {resp : BackupResponse Blob}
    {ps : BackupProviders} {following : List (BackupCycle Blob)} {kept : BackupProviders}
    (r : storeResponse blobHash now cycle req resp ps =
      some (kept, following)) (mem : later ∈ following) : later = cycle.again := by
  cases resp with
  | notModified =>
    cases r
    cases mem
  | paymentRequired pid =>
    obtain ⟨provRec, h, r⟩ := bind_eq_some_iff.mp r
    cases r
    split at mem
    next => exact mem_singleton.mp mem
    next => cases mem
  | noContent =>
    cases r
    cases mem
  | conflict backupEnc =>
    cases r
    exact mem_singleton.mp mem
  | error err =>
    cases r
    cases mem

/-- One step: the invariant goes on, and the records are kept under the condition only. -/
theorem backupStep_kept (invariant : BackupInvariant st) (step : BackupStep blobHash st ev next) :
    BackupInvariant next ∧ (BackupStepKept blobHash st ev next ↔ BackupCondition st ev) := by
  have always : ∀ {ev : BackupEvent Blob} {next : BackupSystem Blob}, (∀ pid, ev ≠ .paid pid) →
      ProvidersKept blobHash next.confirmed st.providers next.providers → BackupCondition st ev →
      (BackupStepKept blobHash st ev next ↔ BackupCondition st ev) := by
    intro ev next y kept cond
    constructor
    · exact fun _ => cond
    · intro _
      exact ⟨kept, fun pid isPaid => absurd isPaid (y pid)⟩
  have keyPaths := invariant.keyPaths
  cases ev with
  | add now req =>
    cases step
    refine ⟨invariant.cyclesSubset (modify_keyPaths keyPaths _ _) fun _ => .inl, ?_⟩
    exact always nofun (activateKnown_kept keyPaths) trivial
  | terms idx now uid terms =>
    obtain ⟨req, isReq, step⟩ := bind_eq_some_iff.mp step
    cases step
    refine ⟨invariant.cyclesSubset (put_keyPaths keyPaths _) fun _ => .inl, ?_⟩
    constructor
    · intro kept y isO prov h
      cases isReq.symm.trans isO
      exact (newRecord_kept (keyPaths _ _ h)).mp (putProvider_kept.mp kept.records prov h)
    intro cond
    refine ⟨putProvider_kept.mpr fun prov h => ?_, nofun⟩
    exact (newRecord_kept (keyPaths _ _ h)).mpr (cond req isReq prov h)
  | cycle url retryAfterPayment =>
    cases step
    refine ⟨invariant.cyclesSubset keyPaths fun cycle mem => ?_, ?_⟩
    · rcases mem_append.mp mem with old | new
      · exact .inl old
      · cases mem_singleton.mp new
        exact .inr nofun
    · exact always nofun (.refl _) trivial
  | post idx encBackup =>
    obtain ⟨cycle, isCycle, step⟩ := bind_eq_some_iff.mp step
    split at step
    next =>
      cases step
      refine ⟨invariant.cyclesSubset keyPaths fun cycle mem => ?_, ?_⟩
      · rcases mem_or_eq_of_mem_set mem with old | rfl
        · exact .inl old
        · exact .inr nofun
      · exact always nofun (.refl _) trivial
    next =>
      cases step
      refine ⟨invariant.cyclesSubset keyPaths fun _ mem => ?_, ?_⟩
      · exact .inl (mem_of_mem_eraseIdx mem)
      · exact always nofun (.refl _) trivial
    next => cases step
  | answer idx resp =>
    obtain ⟨cycle, isCycle, step⟩ := bind_eq_some_iff.mp step
    split at step
    next request _ =>
      cases step
      refine ⟨⟨keyPaths, ?_⟩, always nofun (.refl _) trivial⟩
      intro y mem otherRequest otherResponse told blob isBlob
      rcases mem_or_eq_of_mem_set mem with old | rfl
      · exact mem_append_left _
          (invariant.confirmed y old otherRequest otherResponse told blob isBlob)
      · cases told
        exact mem_append_right _ (List.mem_map.mpr ⟨blob, isBlob, rfl⟩)
    next => cases step
  | store idx now =>
    obtain ⟨cycle, isCycle, step⟩ := bind_eq_some_iff.mp step
    split at step
    next request resp told =>
      obtain ⟨⟨stored, following⟩, r, step⟩ := bind_eq_some_iff.mp step
      cases step
      have isConfirmed := invariant.confirmed cycle (mem_of_getElem? isCycle) request resp told
      obtain ⟨storedKeys, kept⟩ := storeResponse_kept keyPaths isConfirmed r
      refine ⟨invariant.cyclesSubset storedKeys fun later mem => ?_, always nofun kept trivial⟩
      rcases mem_append.mp mem with old | new
      · exact .inl (mem_of_mem_eraseIdx old)
      · rw [storeResponse_following r new]
        exact .inr (cycle_again_waiting cycle)
    next => cases step
  | throw idx now err =>
    obtain ⟨cycle, isCycle, step⟩ := bind_eq_some_iff.mp step
    cases step
    cases err with
    | none =>
      refine ⟨invariant.cyclesSubset keyPaths fun _ mem => ?_, ?_⟩
      · exact .inl (mem_of_mem_eraseIdx mem)
      · exact always nofun (.refl _) trivial
    | some err =>
      refine ⟨invariant.cyclesSubset (modify_keyPaths keyPaths _ _) fun _ mem => ?_, ?_⟩
      · exact .inl (mem_of_mem_eraseIdx mem)
      · exact always nofun (incrementBackupRetryInTx_kept now keyPaths) trivial
  | addThrows idx =>
    cases step
    refine ⟨invariant.cyclesSubset keyPaths fun _ => .inl, ?_⟩
    exact always nofun (.refl _) trivial
  | paid pid =>
    cases step
    refine ⟨invariant.cyclesSubset keyPaths fun _ => .inl, ?_⟩
    constructor
    · exact fun kept => kept.paid pid rfl
    intro cond
    refine ⟨.refl _, ?_⟩
    rintro _ eq
    cases eq
    exact cond

end Steps

/-- In every run, a step keeps the histories of the providers and makes those ready that a payment
was for, unless it adds a known provider over its history or a provider waits for the payment. -/
theorem backup_providers_kept {blobHash : Blob → String} {start state : BackupSystem Blob}
    {events : List (BackupEvent Blob)} (keyPaths : start.providers.KeyPaths)
    (idle : start.cycles = [])
    (run : Run (BackupStep blobHash) start events state) (event : BackupEvent Blob)
    (next : BackupSystem Blob) (step : BackupStep blobHash state event next) :
    BackupStepKept blobHash state event next ↔ BackupCondition state event := by
  have initial : BackupInvariant start := by
    refine ⟨keyPaths, ?_⟩
    rw [idle]
    exact nofun
  have reached := run.invariant BackupInvariant initial
    fun _ _ _ invariant step => (backupStep_kept invariant step).1
  exact (backupStep_kept reached step).2

section Examples

def exampleProvider : BackupProviderRecord where
  baseUrl := "https://sync/"
  name := "sync"
  terms := none
  lastBackupHash := none
  lastBackupCycleTimestamp := none
  currentPaymentProposalId := some "proposal"
  paymentProposalIds := ["proposal"]
  state := .retrying (initRetryInfo 0) none
  uids := []

def exampleTerms : BackupProviderTerms where
  supportedProtocolVersion := "0.0"
  annualFee := "KUDOS:1"
  storageLimitInMegabytes := 16

def exampleRequest : AddBackupProviderRequest where
  canonUrl := "https://sync/"
  name := "sync"
  activate := false

def exampleBackup : BackupSystem String where
  providers := Record.empty.set "https://sync/" exampleProvider
  adding := []
  cycles := []
  confirmed := []

theorem exampleBackup_keyPaths : exampleBackup.providers.KeyPaths := by
  intro url prov h
  unfold exampleBackup at h
  rw [Record.get?_set] at h
  split at h
  next eq =>
    cases h
    exact eq.symm
  next => cases (Record.get?_empty _).symm.trans h

/-- Adding a known provider again forgets its payments, and a payment makes no provider ready. -/
theorem backup_provider_forgotten :
    ¬ (∀ (blobHash : String → String) (start state next : BackupSystem String)
      (events : List (BackupEvent String)) (event : BackupEvent String),
      start.providers.KeyPaths → start.cycles = [] →
      Run (BackupStep blobHash) start events state → BackupStep blobHash state event next →
      ProvidersKept blobHash next.confirmed state.providers next.providers) ∧
    ¬ (∀ (blobHash : String → String) (start state next : BackupSystem String)
      (events : List (BackupEvent String)) (proposalId : String),
      start.providers.KeyPaths → start.cycles = [] → Run (BackupStep blobHash) start events state →
      BackupStep blobHash state (.paid proposalId) next →
      ∀ baseUrl provider, next.providers.get? baseUrl = some provider →
        proposalId ∈ provider.paymentProposalIds → provider.isRetrying = false) := by
  constructor
  · intro claim
    have kept := claim id exampleBackup _ _ [.add 0 exampleRequest] (.terms 0 0 "uid" exampleTerms)
      exampleBackup_keyPaths rfl (Run.next .start rfl) rfl
    obtain ⟨after, isAfter, isKept⟩ := kept "https://sync/" exampleProvider rfl
    cases isAfter
    cases isKept.proposals (mem_singleton_self _)
  · intro claim
    have ready := claim id exampleBackup _ _ [] "proposal" exampleBackup_keyPaths rfl .start rfl
      "https://sync/" exampleProvider rfl (mem_singleton_self _)
    cases ready

/-- An upload that the provider acknowledges keeps the history. -/
theorem backup_providers_kept_upload : ∃ state next, Run (BackupStep id) exampleBackup
      [.cycle "https://sync/" true, .post 0 "blob", .answer 0 .noContent] state ∧
    BackupStep id state (.store 0 0) next ∧ BackupStepKept id state (.store 0 0) next := by
  have run := Run.ofFoldlM (fun _ _ _ (performed : BackupStep id _ _ _) => performed)
    (show [.cycle "https://sync/" true, .post 0 "blob", .answer 0 .noContent].foldlM
      (BackupSystem.perform id) exampleBackup = some _ from rfl)
  exact ⟨_, _, run, rfl,
    (backup_providers_kept exampleBackup_keyPaths rfl run (.store 0 0) _ rfl).mpr trivial⟩

end Examples

end Anastasis.Wallet
