import Anastasis.Wallet.Backup.Synchronization

/-! What synchronization keeps: an upload covers the blob that its hash was read for. -/

set_option autoImplicit false

namespace Anastasis.Wallet.Backup

open Library Library.Transition List Option

section Upholds

variable {keys : BackupKeys} {first x second y third : Stores}

theorem Upholds.refl (stores : Stores) : Upholds keys stores stores :=
  ⟨fun _ exports => .inl exports, fun _ buried => buried⟩

theorem Upholds.trans (early : Upholds keys first y) (late : Upholds keys y third) :
    Upholds keys first third := by
  refine ⟨?_, fun object buried => late.buried object (early.buried object buried)⟩
  intro object exports
  rcases early.objects object exports with exports | buried
  · exact late.objects object exports
  · exact .inr (late.buried object buried)

end Upholds

namespace Stores

variable {keys : BackupKeys} {stores : Stores} {config : Option WalletBackupConfState}
  {backupProviders : SortedMap String BackupProviderRecord}

theorem Consistent.ofProviders (consistent : stores.Consistent keys) :
    { stores with config := config, backupProviders := backupProviders }.Consistent keys where
  exchanges := consistent.exchanges
  exchangeDetails := consistent.exchangeDetails
  denominations := consistent.denominations
  coins := consistent.coins
  reserves := consistent.reserves
  withdrawalGroups := consistent.withdrawalGroups
  proposals := consistent.proposals
  purchases := consistent.purchases
  refreshGroups := consistent.refreshGroups
  tips := consistent.tips
  absent := by
    intro tag id dead
    have absent := consistent.absent tag id dead
    cases tag <;> exact absent
  plain := consistent.plain

theorem upholds_ofProviders (ps : ∀ url, stores.Exports keys (.backupProvider url) →
      ∃ key bp, backupProviders.get? key = some bp ∧ bp.baseUrl = url) :
    Upholds keys stores { stores with config := config, backupProviders := backupProviders } := by
  constructor
  · intro object exports
    left
    cases object with
    | backupProvider url => exact ps url exports
    | _ => exact exports
  · intro object buried
    cases object <;> exact buried

theorem withConfig_upholds (provided : WalletBackupConfState) :
    Upholds keys stores (stores.withConfig provided) := upholds_ofProviders fun _ exports => exports

theorem Takes.withConfig {content : WalletBackupContentV1} (takes : stores.Takes keys content)
    (provided : WalletBackupConfState) : (stores.withConfig provided).Takes keys content where
  objects := by
    intro object has
    have either := takes.objects object has
    cases object <;> exact either
  withdrawalGroups := takes.withdrawalGroups
  proposals := takes.proposals
  purchases := takes.purchases

theorem backupContent_regular (consistent : stores.Consistent keys) (bs : WalletBackupConfState)
    (timestamp : Timestamp) : (stores.backupContent bs timestamp).Regular where
  tombstones := rfl
  unrestricted := by
    intro dt mem denom inDetails
    obtain ⟨key, ex, _, rfl⟩ := mem_backupExchangeDetails_iff.mp mem
    obtain ⟨denomKey, dn, h, _, rfl⟩ := mem_backupDenominations_iff.mp inDetails
    exact (consistent.denominations denomKey dn h).2.2
  nonces := by
    intro proposal mem
    obtain ⟨key, prop, _, _, exported⟩ := mem_backupProposals_iff.mp mem
    obtain ⟨_, isId, isNonce⟩ := exportProposal_eq exported
    exact isId.trans isNonce.symm

end Stores

variable {Enc : Type} (crypto : SyncCrypto Enc)

def Covers (stores : Stores) (enc : Enc) : Prop :=
  ∀ content, crypto.decryptBackup enc = some content → ∀ object, content.Has crypto.keys object →
    stores.Exports crypto.keys object ∨ stores.Buried object

def Covered (history : List Enc) (stores : Stores) (hash : String) : Prop :=
  ∃ enc ∈ history, crypto.hash enc = hash ∧ Covers crypto stores enc

/-- A content that has been exported, and from stores that cover the blob with the old hash. -/
structure Exported (history : List Enc) (stores : Stores) (oldHash : Option String)
    (content : WalletBackupContentV1) (origin : Stores) : Prop where
  regular : content.Regular
  has : ∀ object, content.Has crypto.keys object ↔ origin.Exports crypto.keys object
  upholds : Upholds crypto.keys origin stores
  covered : ∀ hash, oldHash = some hash → Covered crypto history origin hash

def Requested (history : List Enc) (stores : Stores) (request : SyncRequest Enc) : Prop :=
  ∃ content, crypto.decryptBackup request.encBackup = some content ∧
    Exported crypto history stores request.ifMatch content request.origin

/-- The blob that a provider acknowledges or returns is one that it has acknowledged. -/
def Acknowledged (history : List Enc) (request : SyncRequest Enc) : BackupResponse Enc → Prop
  | .noContent => request.encBackup ∈ history
  | .conflict backupEnc => backupEnc ∈ history
  | _ => True

def StageKept (history : List Enc) (stores : Stores) : SyncStage Enc → Prop
  | .starting => True
  | .read oldHash => ∀ hash, oldHash = some hash → Covered crypto history stores hash
  | .exported oldHash content origin => Exported crypto history stores oldHash content origin
  | .posted request => Requested crypto history stores request
  | .answered request response =>
    Requested crypto history stores request ∧ Acknowledged history request response
  | .merged backupEnc => backupEnc ∈ history ∧ Covers crypto stores backupEnc

structure StoresKept (history : List Enc) (stores : Stores) : Prop where
  consistent : stores.Consistent crypto.keys
  hashes : ∀ baseUrl prov hash, stores.backupProviders.get? baseUrl = some prov →
    prov.lastBackupHash = some hash → Covered crypto history stores hash

structure SyncKept (state : SyncSystem Enc) : Prop where
  wallets : ∀ wallet ∈ state.wallets, StoresKept crypto state.history wallet.stores
  cycles : ∀ wallet ∈ state.wallets, ∀ cycle ∈ wallet.cycles,
    StageKept crypto state.history wallet.stores cycle.stage
  remote : ∀ baseUrl enc, state.remote.get? baseUrl = some enc → enc ∈ state.history
  regular : ∀ enc ∈ state.history, ∃ content, crypto.decryptBackup enc = some content ∧
    content.Regular
  lossless : ∀ upload ∈ state.uploads, Lossless crypto upload

variable {crypto} {history later : List Enc} {stores after : Stores}

theorem Covers.mono {enc : Enc} (covers : Covers crypto stores enc)
    (upholds : Upholds crypto.keys stores after) : Covers crypto after enc := by
  intro content isContent object has
  rcases covers content isContent object has with exports | buried
  · exact upholds.objects object exports
  · exact .inr (upholds.buried object buried)

theorem Covered.mono {hash : String} (covered : Covered crypto history stores hash)
    (grown : history ⊆ later) (upholds : Upholds crypto.keys stores after) :
    Covered crypto later after hash := by
  obtain ⟨enc, mem, eq, covers⟩ := covered
  exact ⟨enc, grown mem, eq, covers.mono upholds⟩

theorem Exported.mono {oldHash : Option String} {content : WalletBackupContentV1} {origin : Stores}
    (exported : Exported crypto history stores oldHash content origin) (grown : history ⊆ later)
    (upholds : Upholds crypto.keys stores after) :
    Exported crypto later after oldHash content origin := by
  refine ⟨exported.regular, exported.has, exported.upholds.trans upholds, ?_⟩
  intro hash eq
  exact (exported.covered hash eq).mono grown (.refl origin)

variable {request req : SyncRequest Enc}

theorem Requested.mono (requested : Requested crypto history stores request)
    (grown : history ⊆ later) (upholds : Upholds crypto.keys stores after) :
    Requested crypto later after request := by
  obtain ⟨content, isContent, exported⟩ := requested
  exact ⟨content, isContent, exported.mono grown upholds⟩

variable {response resp : BackupResponse Enc}

theorem Acknowledged.mono (acked : Acknowledged history request response)
    (grown : history ⊆ later) : Acknowledged later request response := by
  cases response with
  | noContent => exact grown acked
  | conflict backupEnc => exact grown acked
  | _ => trivial

theorem StageKept.mono {stage : SyncStage Enc} (kept : StageKept crypto history stores stage)
    (grown : history ⊆ later) (upholds : Upholds crypto.keys stores after) :
    StageKept crypto later after stage := by
  cases stage with
  | starting => trivial
  | read oldHash => exact fun hash eq => (kept hash eq).mono grown upholds
  | exported oldHash content origin => exact Exported.mono kept grown upholds
  | posted req => exact Requested.mono kept grown upholds
  | answered req resp =>
    exact ⟨kept.1.mono grown upholds, kept.2.mono grown⟩
  | merged backupEnc => exact ⟨grown kept.1, kept.2.mono upholds⟩

theorem StoresKept.mono (kept : StoresKept crypto history stores) (grown : history ⊆ later) :
    StoresKept crypto later stores := ⟨kept.consistent, fun url prov hash h eq =>
    (kept.hashes url prov hash h eq).mono grown (.refl stores)⟩

/-- A change of a provider keeps the objects, and the stores if its hash is that of a blob that
they cover. -/
theorem modifyProvider_kept (kept : StoresKept crypto history stores) {baseUrl : String}
    {change : BackupProviderRecord → BackupProviderRecord}
    (sameUrl : ∀ prov, (change prov).baseUrl = prov.baseUrl)
    (hash : ∀ prov hash, (change prov).lastBackupHash = some hash →
      prov.lastBackupHash = some hash ∨ Covered crypto history stores hash) :
    StoresKept crypto history (stores.modifyProvider baseUrl change) ∧
      Upholds crypto.keys stores (stores.modifyProvider baseUrl change) := by
  rw [Stores.modifyProvider]
  split
  next => exact ⟨kept, .refl stores⟩
  next prov isProv =>
    have upholds : Upholds crypto.keys stores
        { stores with backupProviders := stores.backupProviders.insert baseUrl (change prov) } := by
      apply Stores.upholds_ofProviders
      rintro url ⟨key, bp, found, eq⟩
      by_cases sameKey : key = baseUrl
      · subst sameKey
        cases isProv.symm.trans found
        exact ⟨key, change prov, SortedMap.get?_insert_self _ _ _, (sameUrl prov).trans eq⟩
      · exact ⟨key, bp, (SortedMap.get?_insert_of_ne _ _ sameKey).trans found, eq⟩
    refine ⟨⟨kept.consistent.ofProviders, ?_⟩, upholds⟩
    intro url bp found h isHash
    have covered : Covered crypto history stores found := by
      rw [SortedMap.get?_insert] at h
      split at h
      next =>
        cases h
        rcases hash prov found isHash with old | covered
        · exact kept.hashes baseUrl prov found isProv old
        · exact covered
      next => exact kept.hashes url bp found h isHash
    exact covered.mono (List.Subset.refl _) upholds

theorem incrementRetry_baseUrl (now : Nat) (err : Option String) (prov : BackupProviderRecord) :
    (prov.incrementRetry now err).baseUrl = prov.baseUrl := by
  rw [BackupProviderRecord.incrementRetry]
  split <;> rfl

theorem incrementRetry_lastBackupHash (now : Nat) (err : Option String)
    (prov : BackupProviderRecord) :
    (prov.incrementRetry now err).lastBackupHash = prov.lastBackupHash := by
  rw [BackupProviderRecord.incrementRetry]
  split <;> rfl

variable {cycle : SyncCycle Enc}

theorem Requested.covers (requested : Requested crypto history stores req) :
    Covers crypto stores req.encBackup := by
  obtain ⟨content, isContent, exported⟩ := requested
  intro y isO object has
  cases isContent.symm.trans isO
  exact exported.upholds.objects object ((exported.has object).mp has)

theorem storeAnswer_kept (kept : StoresKept crypto history stores)
    (requested : Requested crypto history stores req)
    (acked : Acknowledged history req resp) {now : Nat} {next : Option (SyncCycle Enc)}
    (r : cycle.storeAnswer crypto stores now req resp = some (after, next)) :
    StoresKept crypto history after ∧ Upholds crypto.keys stores after ∧
      ∀ cycle, next = some cycle → StageKept crypto history after cycle.stage := by
  cases resp with
  | notModified =>
    obtain ⟨rfl, rfl⟩ := Prod.mk.inj (Option.some.inj r)
    refine and_assoc.mp ⟨modifyProvider_kept kept (fun _ => rfl) fun _ _ eq => .inl eq, ?_⟩
    exact fun _ isNext => absurd isNext.symm (some_ne_none _)
  | paymentRequired pid =>
    rw [SyncCycle.storeAnswer] at r
    split at r
    next =>
      obtain ⟨rfl, rfl⟩ := Prod.mk.inj (Option.some.inj r)
      refine and_assoc.mp ⟨modifyProvider_kept kept ?_ ?_, ?_⟩
      · exact fun prov => incrementRetry_baseUrl now none _
      · intro prov hash eq
        rw [incrementRetry_lastBackupHash] at eq
        exact .inl eq
      intro cycle isNext
      split at isNext
      next =>
        cases isNext
        trivial
      next => cases isNext
    next => cases r
  | noContent =>
    obtain ⟨rfl, rfl⟩ := Prod.mk.inj (Option.some.inj r)
    refine and_assoc.mp ⟨modifyProvider_kept kept (fun _ => rfl) ?_, ?_⟩
    · intro prov hash eq
      exact .inr ⟨req.encBackup, acked, Option.some.inj eq, requested.covers⟩
    · exact fun _ isNext => absurd isNext.symm (some_ne_none _)
  | conflict backupEnc => cases r
  | error err =>
    obtain ⟨rfl, rfl⟩ := Prod.mk.inj (Option.some.inj r)
    refine and_assoc.mp ⟨modifyProvider_kept kept ?_ ?_, ?_⟩
    · exact fun prov => incrementRetry_baseUrl now (some err) prov
    · intro prov hash eq
      rw [incrementRetry_lastBackupHash] at eq
      exact .inl eq
    · exact fun _ isNext => absurd isNext.symm (some_ne_none _)

theorem merge_kept (kept : StoresKept crypto history stores) {content : WalletBackupContentV1}
    {cryptoData : BackupCryptoPrecomputedData} (takes : stores.Takes crypto.keys content)
    (regular : content.Regular)
    (computed : computeBackupCryptoData crypto.keys content = some cryptoData)
    (provided : WalletBackupConfState) (env : ImportSurroundings) {ended : Bool}
    (ran : stores.importBackup provided env cryptoData content = (after, ended)) :
    StoresKept crypto history after ∧ Upholds crypto.keys stores after ∧
      (ended = true → ∀ object, content.Has crypto.keys object →
        after.Exports crypto.keys object ∨ after.Buried object) := by
  have upholdsConfig : Upholds crypto.keys stores (stores.withConfig provided) :=
    Stores.withConfig_upholds provided
  have keptConfig : StoresKept crypto history (stores.withConfig provided) := by
    refine ⟨kept.consistent.ofProviders, ?_⟩
    intro url prov hash got eq
    exact (kept.hashes url prov hash got eq).mono (List.Subset.refl _) upholdsConfig
  let call : ImportCall := ⟨provided, env, cryptoData, content⟩
  have isCall : call.perform stores = (after, ended) := ran
  rcases Stores.perform_cases stores call with thrown | ⟨merged, tx, done⟩
  · cases thrown.symm.trans isCall
    exact ⟨keptConfig, upholdsConfig, nofun⟩
  cases done.symm.trans isCall
  obtain ⟨consistent, grown, sameProviders, keeps, takesAll⟩ := Stores.importTransaction_adopts
    keptConfig.consistent (takes.withConfig provided) regular computed tx
  have buried : ∀ object, (stores.withConfig provided).Buried object → after.Buried object := by
    intro object buried
    cases object with
    | exchange | denomination | coin | recoupGroup | backupProvider => exact buried
    | reserve | withdrawalGroup | proposal | purchase | refreshGroup | tip =>
      exact Grown.isTombstoned _ _ grown buried
  have upholds : Upholds crypto.keys (stores.withConfig provided) after :=
    ⟨fun object exports => .inl (keeps object exports), buried⟩
  refine ⟨⟨consistent, ?_⟩, upholdsConfig.trans upholds, ?_⟩
  · intro url prov hash got eq
    rw [sameProviders] at got
    exact (keptConfig.hashes url prov hash got eq).mono (List.Subset.refl _) upholds
  · intro _ object has
    exact (takesAll object has).imp_right (buried object)

theorem act_kept (laws : crypto.Laws) (kept : StoresKept crypto history stores)
    (regular : ∀ enc ∈ history, ∃ content, crypto.decryptBackup enc = some content ∧
      content.Regular)
    (stageKept : StageKept crypto history stores cycle.stage) {action : CycleAction}
    (takes : ∀ provided env req backupEnc content,
      action = .merge provided env → cycle.stage = .answered req (.conflict backupEnc) →
        crypto.decryptBackup backupEnc = some content → stores.Takes crypto.keys content)
    {next : Option (SyncCycle Enc)} (r : cycle.act crypto stores action = some (after, next)) :
    StoresKept crypto history after ∧ Upholds crypto.keys stores after ∧
      ∀ cycle, next = some cycle → StageKept crypto history after cycle.stage := by
  obtain ⟨baseUrl, retryAfterPayment, stage⟩ := cycle
  cases action with
  | read =>
    cases stage with
    | starting =>
      obtain ⟨rfl, rfl⟩ := Prod.mk.inj (Option.some.inj r)
      refine ⟨kept, .refl _, ?_⟩
      intro cycle isNext
      obtain ⟨provider, isProvider, rfl⟩ := map_eq_some_iff.mp isNext
      intro hash eq
      exact kept.hashes _ provider hash isProvider eq
    | _ => cases r
  | «export» provided timestamp =>
    cases stage with
    | read oldHash =>
      obtain ⟨rfl, rfl⟩ := Prod.mk.inj (Option.some.inj r)
      have upholds : Upholds crypto.keys stores (stores.withConfig provided) :=
        Stores.withConfig_upholds provided
      have keptConfig : StoresKept crypto history (stores.withConfig provided) := by
        refine ⟨kept.consistent.ofProviders, ?_⟩
        intro url prov hash h eq
        exact (kept.hashes url prov hash h eq).mono (List.Subset.refl _) upholds
      refine ⟨keptConfig, upholds, ?_⟩
      intro cycle isNext
      cases isNext
      constructor
      · exact Stores.backupContent_regular keptConfig.consistent _ _
      · exact fun object => has_backupContent_iff
      · exact .refl _
      · exact fun hash eq => (stageKept hash eq).mono (List.Subset.refl _) upholds
    | _ => cases r
  | post nonce =>
    cases stage with
    | exported oldHash backupJson origin =>
      obtain ⟨rfl, rfl⟩ := Prod.mk.inj (Option.some.inj r)
      refine ⟨kept, .refl _, ?_⟩
      intro cycle isNext
      cases isNext
      exact ⟨backupJson, laws backupJson nonce, stageKept⟩
    | _ => cases r
  | merge provided env =>
    cases stage with
    | answered req resp =>
      cases resp with
      | conflict backupEnc =>
        obtain ⟨content, isContent, r⟩ := bind_eq_some_iff.mp r
        obtain ⟨cryptoData, computed, r⟩ := bind_eq_some_iff.mp r
        obtain ⟨y, isO, isRegular⟩ := regular backupEnc stageKept.2
        cases isContent.symm.trans isO
        generalize result : stores.importBackup provided env cryptoData content = imported at r
        obtain ⟨rfl, rfl⟩ := Prod.mk.inj (Option.some.inj r)
        obtain ⟨keptAfter, upholds, covers⟩ := merge_kept kept
          (takes provided env req backupEnc content rfl rfl isContent) isRegular
          computed provided env result
        refine ⟨keptAfter, upholds, ?_⟩
        intro cycle isNext
        split at isNext
        next isFinished =>
          cases isNext
          refine ⟨stageKept.2, ?_⟩
          intro y isO
          cases isContent.symm.trans isO
          exact covers isFinished
        next => cases isNext
      | _ => cases r
    | _ => cases r
  | store now =>
    cases stage with
    | answered req resp => exact storeAnswer_kept kept stageKept.1 stageKept.2 r
    | merged backupEnc =>
      obtain ⟨rfl, rfl⟩ := Prod.mk.inj (Option.some.inj r)
      refine and_assoc.mp ⟨modifyProvider_kept kept (fun _ => rfl) ?_, ?_⟩
      · intro prov hash eq
        exact .inr ⟨backupEnc, stageKept.1, Option.some.inj eq, stageKept.2⟩
      intro cycle isNext
      cases isNext
      trivial
    | _ => cases r
  | throw now err =>
    cases err with
    | none =>
      obtain ⟨rfl, rfl⟩ := Prod.mk.inj (Option.some.inj r)
      exact ⟨kept, .refl _, fun _ isNext => absurd isNext.symm (some_ne_none _)⟩
    | some err =>
      obtain ⟨rfl, rfl⟩ := Prod.mk.inj (Option.some.inj r)
      refine and_assoc.mp ⟨modifyProvider_kept kept ?_ ?_, ?_⟩
      · exact fun prov => incrementRetry_baseUrl now (some err) prov
      · intro prov hash eq
        rw [incrementRetry_lastBackupHash] at eq
        exact .inl eq
      · exact fun _ isNext => absurd isNext.symm (some_ne_none _)

/-- A provider acknowledges what covers its blob, and returns a blob that it has acknowledged. -/
theorem serveUpload_kept {remote r : Record String Enc} {baseUrl : String}
    {upload : Option (Upload Enc)} (requested : Requested crypto history stores req)
    (remoteKept : ∀ baseUrl enc, remote.get? baseUrl = some enc → enc ∈ history)
    (apart : ∀ x ∈ history, ∀ y ∈ history, crypto.hash x = crypto.hash y → x = y)
    (regular : ∀ enc ∈ history, ∃ content, crypto.decryptBackup enc = some content ∧
      content.Regular) (isServed : serveUpload crypto remote baseUrl req = (r, resp, upload)) :
    (∀ added ∈ upload, added.request = req ∧ Lossless crypto added) ∧
      Acknowledged (history ++ upload.toList.map fun upload => upload.request.encBackup) req
        resp ∧ ∀ baseUrl enc, r.get? baseUrl = some enc →
        enc ∈ history ++ upload.toList.map fun upload => upload.request.encBackup := by
  have setKept : ∀ {later : List Enc}, history ⊆ later → req.encBackup ∈ later →
      ∀ url enc, (remote.set baseUrl req.encBackup).get? url = some enc → enc ∈ later := by
    intro later grown mem url enc h
    rw [Record.get?_set] at h
    split at h
    next =>
      cases h
      exact mem
    next => exact grown (remoteKept url enc h)
  rw [serveUpload] at isServed
  split at isServed
  next =>
    cases isServed
    refine ⟨?_, ?_, ?_⟩
    · intro added isAdded
      cases isAdded
      exact ⟨rfl, (by rintro _ _ _ ⟨⟩)⟩
    · exact mem_append_right _ (mem_singleton_self _)
    · exact setKept (subset_append_left _ _) (mem_append_right _ (mem_singleton_self _))
  next cur isCurrent =>
  split at isServed
  next =>
    cases isServed
    refine ⟨(by simp), trivial, ?_⟩
    intro url enc h
    exact mem_append_left _ (remoteKept url enc h)
  next =>
  split at isServed
  next matches_ =>
    cases isServed
    refine ⟨?_, ?_, ?_⟩
    · intro added isAdded
      cases isAdded
      refine ⟨rfl, ?_⟩
      intro replaced old new isReplaced isOld isNew
      cases isReplaced
      obtain ⟨content, isContent, exported⟩ := requested
      cases isContent.symm.trans isNew
      obtain ⟨known, isKnown, sameHash, covers⟩ := exported.covered _ matches_
      have eq := apart known isKnown _ (remoteKept _ _ isCurrent) sameHash
      subst eq
      refine ⟨?_, ?_⟩
      · intro object has
        exact (covers old isOld object has).imp_left (exported.has object).mpr
      obtain ⟨other, isO, isRegular⟩ := regular known isKnown
      cases isOld.symm.trans isO
      rw [isRegular.tombstones]
      simp
    · exact mem_append_right _ (mem_singleton_self _)
    · exact setKept (subset_append_left _ _) (mem_append_right _ (mem_singleton_self _))
  next =>
    cases isServed
    refine ⟨(by simp), mem_append_left _ (remoteKept _ _ isCurrent), ?_⟩
    intro url enc h
    exact mem_append_left _ (remoteKept url enc h)

section Steps

variable {state st next : SyncSystem Enc} {idx : Nat} {wallet w changed : SyncWallet Enc}

theorem SyncKept.set (kept : SyncKept crypto st)
    (isNext : next.wallets = st.wallets.set idx changed) (grown : st.history ⊆ next.history)
    (stores : StoresKept crypto next.history changed.stores) (cycles : ∀ cycle ∈ changed.cycles,
      StageKept crypto next.history changed.stores cycle.stage)
    (remote : ∀ url enc, next.remote.get? url = some enc → enc ∈ next.history)
    (regular : ∀ enc ∈ next.history, ∃ content, crypto.decryptBackup enc = some content ∧
      content.Regular)
    (lossless : ∀ upload ∈ next.uploads, Lossless crypto upload) : SyncKept crypto next := by
  refine ⟨?_, ?_, remote, regular, lossless⟩
  · intro y mem
    rw [isNext] at mem
    rcases mem_or_eq_of_mem_set mem with old | rfl
    · exact (kept.wallets y old).mono grown
    · exact stores
  intro y mem
  rw [isNext] at mem
  rcases mem_or_eq_of_mem_set mem with old | rfl
  · exact fun cycle inWallet => (kept.cycles y old cycle inWallet).mono grown (.refl _)
  · exact cycles

theorem SyncKept.setWallet (kept : SyncKept crypto st)
    (stores : StoresKept crypto st.history changed.stores) (cycles : ∀ cycle ∈ changed.cycles,
      StageKept crypto st.history changed.stores cycle.stage) :
    SyncKept crypto (st.setWallet idx changed) :=
  kept.set rfl (List.Subset.refl _) stores cycles kept.remote kept.regular kept.lossless

theorem LocalChange.upholds {before : Stores} (change : LocalChange crypto.keys before after)
    (keeps : ∀ object, before.Exports crypto.keys object →
      after.Exports crypto.keys object ∨ after.Buried object) :
    Upholds crypto.keys before after := by
  refine ⟨keeps, ?_⟩
  intro object buried
  cases object with
  | exchange | denomination | coin | recoupGroup | backupProvider => exact buried
  | reserve | withdrawalGroup | proposal | purchase | refreshGroup | tip =>
    exact change.tombstones _ buried

theorem answered_kept (kept : SyncKept crypto st) (mem : w ∈ st.wallets)
    {pos : Nat} {cycle : SyncCycle Enc} (isCycle : w.cycles[pos]? = some cycle)
    {req : SyncRequest Enc} (isStage : cycle.stage = .posted req)
    {resp : BackupResponse Enc} (acked : Acknowledged st.history req resp) :
    SyncKept crypto (st.setWallet idx { w with
        cycles := w.cycles.set pos (cycle.toStage (.answered req resp)) }) := by
  refine kept.setWallet (kept.wallets w mem :) ?_
  intro y inWallet
  rcases mem_or_eq_of_mem_set inWallet with old | rfl
  · exact kept.cycles w mem y old
  have posted := kept.cycles w mem cycle (mem_of_getElem? isCycle)
  rw [isStage] at posted
  exact ⟨posted, acked⟩

theorem syncStep_kept (laws : crypto.Laws) (kept : SyncKept crypto st) {ev : SyncEvent}
    (cond : SyncCondition crypto st ev) (step : SyncStep crypto st ev next) :
    SyncKept crypto next := by
  obtain ⟨r, apart, promised⟩ := step
  cases ev with
  | change idx stores =>
    obtain ⟨w, isWallet, isNext⟩ := bind_eq_some_iff.mp r
    cases isNext
    have mem := mem_of_getElem? isWallet
    have change := promised w isWallet
    have upholds := change.upholds (cond w isWallet)
    apply kept.setWallet
    · refine ⟨change.consistent, ?_⟩
      intro url prov hash h eq
      obtain ⟨old, isOld, oldHash⟩ := change.hashes url prov hash h eq
      exact ((kept.wallets w mem).hashes url old hash isOld oldHash).mono
        (List.Subset.refl _) upholds
    · exact fun cycle inWallet =>
      (kept.cycles w mem cycle inWallet).mono (List.Subset.refl _) upholds
  | start idx url retryAfterPayment =>
    obtain ⟨w, isWallet, isNext⟩ := bind_eq_some_iff.mp r
    cases isNext
    have mem := mem_of_getElem? isWallet
    refine kept.setWallet (kept.wallets w mem :) ?_
    intro cycle inWallet
    rcases mem_append.mp inWallet with old | new
    · exact kept.cycles w mem cycle old
    · cases mem_singleton.mp new
      trivial
  | act idx pos action =>
    obtain ⟨w, isWallet, r⟩ := bind_eq_some_iff.mp r
    obtain ⟨cycle, isCycle, r⟩ := bind_eq_some_iff.mp r
    obtain ⟨⟨stores, following⟩, isAct, isNext⟩ := bind_eq_some_iff.mp r
    cases isNext
    have mem := mem_of_getElem? isWallet
    have stageKept := kept.cycles w mem cycle (mem_of_getElem? isCycle)
    obtain ⟨storesKept, upholds, nextKept⟩ := act_kept laws (kept.wallets w mem)
      kept.regular stageKept (by
        rintro provided env req backupEnc content rfl isStage isContent
        exact cond w cycle req backupEnc content isWallet isCycle isStage isContent)
      isAct
    apply kept.setWallet storesKept
    intro y inWallet
    have old : ∀ y ∈ w.cycles, StageKept crypto st.history stores y.stage := fun y inWallet =>
        (kept.cycles w mem y inWallet).mono (List.Subset.refl _) upholds
    cases following with
    | none => exact old y (mem_of_mem_eraseIdx inWallet)
    | some following =>
      rcases mem_or_eq_of_mem_set inWallet with inWallet | rfl
      · exact old y inWallet
      · exact nextKept y rfl
  | serve idx pos =>
    obtain ⟨w, isWallet, r⟩ := bind_eq_some_iff.mp r
    obtain ⟨cycle, isCycle, r⟩ := bind_eq_some_iff.mp r
    have mem := mem_of_getElem? isWallet
    have stageKept := kept.cycles w mem cycle (mem_of_getElem? isCycle)
    split at r
    next req isStage =>
      rw [isStage] at stageKept
      generalize served : serveUpload crypto st.remote cycle.backupProviderBaseUrl req = res at r
      obtain ⟨remote, resp, upload⟩ := res
      have isNext := Option.some.inj r
      have isHistory : next.history = st.history ++
          upload.toList.map fun upload => upload.request.encBackup := by
        rw [← isNext]
        exact map_append
      have grown : st.history ⊆ next.history := by
        rw [isHistory]
        exact subset_append_left _ _
      have oldDistinct : ∀ x ∈ st.history, ∀ second ∈ st.history,
          crypto.hash x = crypto.hash second → x = second :=
        fun x isFirst second isSecond => apart x (grown isFirst) second (grown isSecond)
      obtain ⟨added, acked, remoteKept⟩ := serveUpload_kept stageKept kept.remote
        oldDistinct kept.regular served
      rw [← isHistory] at acked remoteKept
      have isWallets := congrArg SyncSystem.wallets isNext.symm
      refine kept.set isWallets grown ?_ ?_ ?_ ?_ ?_
      · exact (kept.wallets w mem).mono grown
      · intro y inWallet
        rcases mem_or_eq_of_mem_set inWallet with old | rfl
        · exact (kept.cycles w mem y old).mono grown (.refl _)
        · exact ⟨stageKept.mono grown (.refl _), acked⟩
      · rw [← isNext]
        rw [← isNext] at remoteKept
        exact remoteKept
      · intro enc inHistory
        rw [isHistory] at inHistory
        rcases mem_append.mp inHistory with old | new
        · exact kept.regular enc old
        obtain ⟨upload, isUpload, rfl⟩ := List.mem_map.mp new
        obtain ⟨content, isContent, exported⟩ := stageKept
        refine ⟨content, ?_, exported.regular⟩
        rw [(added upload (mem_toList.mp isUpload)).1]
        exact isContent
      · intro upload inUploads
        rw [← isNext] at inUploads
        rcases mem_append.mp inUploads with old | new
        · exact kept.lossless upload old
        · exact (added upload (mem_toList.mp new)).2
    next => cases r
  | demandPayment idx pos pid =>
    obtain ⟨w, isWallet, r⟩ := bind_eq_some_iff.mp r
    obtain ⟨cycle, isCycle, r⟩ := bind_eq_some_iff.mp r
    split at r
    next req isStage =>
      cases r
      exact answered_kept kept (mem_of_getElem? isWallet) isCycle isStage trivial
    next => cases r
  | refuse idx pos err =>
    obtain ⟨w, isWallet, r⟩ := bind_eq_some_iff.mp r
    obtain ⟨cycle, isCycle, r⟩ := bind_eq_some_iff.mp r
    split at r
    next req isStage =>
      cases r
      exact answered_kept kept (mem_of_getElem? isWallet) isCycle isStage trivial
    next => cases r

/-- In every run in which other operations take nothing out of the export without a tombstone and
every blob to be merged can be taken, no acknowledged upload loses an object. -/
theorem uploads_lossless (laws : crypto.Laws) {start : SyncSystem Enc}
    (fresh : Unsynchronized crypto start) {events : List SyncEvent}
    (run : Run (Guarded (SyncCondition crypto) (SyncStep crypto)) start events state) :
    ∀ upload ∈ state.uploads, Lossless crypto upload := by
  have initial : SyncKept crypto start := by
    have noHistory : start.history = [] := by
      rw [SyncSystem.history, fresh.uploads]
      rfl
    refine ⟨?_, ?_, ?_, ?_, ?_⟩
    · intro wallet member
      refine ⟨fresh.consistent wallet member, ?_⟩
      intro baseUrl prov hash found same
      rw [fresh.hashes wallet member baseUrl prov found] at same
      cases same
    · intro wallet member cycle inWallet
      rw [fresh.cycles wallet member] at inWallet
      cases inWallet
    · intro baseUrl enc found
      rw [fresh.remote] at found
      cases (Record.get?_empty baseUrl).symm.trans found
    · rw [noHistory]
      simp
    · rw [fresh.uploads]
      simp
  have reached := run.invariant (SyncKept crypto) initial
    fun _ _ _ kept guarded => syncStep_kept laws kept guarded.1 guarded.2
  exact reached.lossless

end Steps

section Examples

/-- Blobs are contents with their nonces, and no coin, reserve or denomination is ever decoded. -/
def exampleCrypto : SyncCrypto (WalletBackupContentV1 × String) where
  keys := ⟨fun _ => none, fun _ _ _ => none, fun _ => none, id⟩
  encryptBackup := Prod.mk
  decryptBackup := fun blob => some blob.1
  hash := Prod.snd

theorem exampleCrypto_laws : exampleCrypto.Laws := fun _ _ => rfl

def exampleSyncProvider : BackupProviderRecord where
  baseUrl := "https://sync/"
  name := "sync"
  terms := none
  lastBackupHash := none
  lastBackupCycleTimestamp := none
  currentPaymentProposalId := none
  paymentProposalIds := []
  state := .ready (.at 0)
  uids := ["uid"]

def exampleRecoup : RecoupGroupRecord where
  recoupGroupId := "R"
  timestampStarted := .at 0
  timestampFinished := none
  coins := []

def plainWallet : Stores :=
  { Stores.empty with
    config := some Stores.exampleConf
    backupProviders := SortedMap.empty.insert "https://sync/" exampleSyncProvider }

def recoupWallet : Stores :=
  { plainWallet with recoupGroups := SortedMap.empty.insert "R" exampleRecoup }

def exampleSync : SyncSystem (WalletBackupContentV1 × String) where
  wallets := [⟨recoupWallet, []⟩, ⟨plainWallet, []⟩]
  remote := .empty
  uploads := []

theorem plainWallet_consistent : plainWallet.Consistent exampleCrypto.keys where
  exchanges := SortedMap.all_empty
  exchangeDetails := SortedMap.all_empty
  denominations := SortedMap.all_empty
  coins := SortedMap.all_empty
  reserves := SortedMap.all_empty
  withdrawalGroups := SortedMap.all_empty
  proposals := SortedMap.all_empty
  purchases := SortedMap.all_empty
  refreshGroups := SortedMap.all_empty
  tips := SortedMap.all_empty
  absent := by
    rintro tag id ⟨tomb, mem, _⟩
    cases mem
  plain := by
    rintro tag id ⟨tomb, mem, _⟩
    cases mem

theorem recoupWallet_consistent : recoupWallet.Consistent exampleCrypto.keys where
  exchanges := SortedMap.all_empty
  exchangeDetails := SortedMap.all_empty
  denominations := SortedMap.all_empty
  coins := SortedMap.all_empty
  reserves := SortedMap.all_empty
  withdrawalGroups := SortedMap.all_empty
  proposals := SortedMap.all_empty
  purchases := SortedMap.all_empty
  refreshGroups := SortedMap.all_empty
  tips := SortedMap.all_empty
  absent := by
    rintro tag id ⟨tomb, mem, _⟩
    cases mem
  plain := by
    rintro tag id ⟨tomb, mem, _⟩
    cases mem

theorem exampleSync_unsynchronized : Unsynchronized exampleCrypto exampleSync := by
  have hashes : SortedMap.All (fun _ prov => prov.lastBackupHash = none)
      (SortedMap.empty.insert "https://sync/" exampleSyncProvider) :=
    SortedMap.All.insert SortedMap.all_empty rfl
  constructor
  · intro w mem
    rcases mem_pair.mp mem with rfl | rfl
    · exact recoupWallet_consistent
    · exact plainWallet_consistent
  · intro w mem
    rcases mem_pair.mp mem with rfl | rfl <;> rfl
  · intro w mem
    rcases mem_pair.mp mem with rfl | rfl <;> exact hashes
  · rfl
  · rfl

/-- A step of cycles and providers after which all blobs have nonces of their own. -/
def exampleStep? (allowed : SyncEvent → Bool) (state : SyncSystem (WalletBackupContentV1 × String))
    (event : SyncEvent) : Option (SyncSystem (WalletBackupContentV1 × String)) :=
  if allowed event then
    (state.perform exampleCrypto event).filter fun next => (next.history.map Prod.snd).Nodup
  else none

def isCycleEvent : SyncEvent → Bool
  | .change _ _ => false
  | _ => true

def mergesNothing : SyncEvent → Bool
  | .change _ _ => false
  | .act _ _ (.merge _ _) => false
  | _ => true

theorem exampleStep?_step {allowed : SyncEvent → Bool}
    (local_ : ∀ event, allowed event = true → isCycleEvent event = true)
    {state next : SyncSystem (WalletBackupContentV1 × String)} {event : SyncEvent}
    (r : exampleStep? allowed state event = some next) :
    SyncStep exampleCrypto state event next := by
  rw [exampleStep?] at r
  split at r
  next isAllowed =>
    obtain ⟨r, nodup⟩ := filter_eq_some_iff.mp r
    refine ⟨r, ?_, ?_⟩
    · intro x isFirst y isSecond eq
      exact inj_on_of_nodup_map (of_decide_eq_true nodup) isFirst isSecond eq
    have isCycle := local_ event isAllowed
    cases event with
    | change => cases isCycle
    | _ => trivial
  next => cases r

theorem exampleStep?_guarded {state next : SyncSystem (WalletBackupContentV1 × String)}
    {event : SyncEvent} (r : exampleStep? mergesNothing state event = some next) :
    Guarded (SyncCondition exampleCrypto) (SyncStep exampleCrypto) state event next := by
  refine ⟨?_, exampleStep?_step ?_ r⟩
  · rw [exampleStep?] at r
    split at r
    next isAllowed =>
      cases event with
      | change => cases isAllowed
      | act idx pos action =>
        cases action with
        | merge => cases isAllowed
        | _ => trivial
      | _ => trivial
    next => cases r
  · intro event isAllowed
    cases event with
    | change => cases isAllowed
    | _ => rfl

/-- An export by the only cycle of the wallet, until the provider has answered. -/
def uploadEvents (wallet : Nat) (nonce : String) : List SyncEvent :=
  [.act wallet 0 .read, .act wallet 0 (.export Stores.exampleConf .never),
    .act wallet 0 (.post nonce), .serve wallet 0]

/-- A wallet uploads a recoup group, and another wallet merges it and uploads. -/
def mergeEvents : List SyncEvent :=
  .start 0 "https://sync/" false :: uploadEvents 0 "a" ++
    .start 1 "https://sync/" false :: uploadEvents 1 "b" ++
    [.act 1 0 (.merge Stores.exampleConf ⟨0, fun _ => none⟩), .act 1 0 (.store 0)] ++
    uploadEvents 1 "c"

def repeatEvents : List SyncEvent :=
  .start 0 "https://sync/" false :: uploadEvents 0 "a" ++
    .act 0 0 (.store 0) :: .start 0 "https://sync/" false :: uploadEvents 0 "b"

/-- An import leaves recoup groups out, and the next upload replaces them by nothing. -/
theorem upload_loses_recoupGroup : ¬ ∀ (Enc : Type) (crypto : SyncCrypto Enc), crypto.Laws →
      ∀ (start : SyncSystem Enc) (events : List SyncEvent) (state : SyncSystem Enc),
        Unsynchronized crypto start → Run (SyncStep crypto) start events state →
          ∀ upload ∈ state.uploads, Lossless crypto upload := by
  intro claim
  have reaches : (mergeEvents.foldlM (exampleStep? isCycleEvent) exampleSync).map (fun state =>
      state.uploads.map fun upload =>
        (upload.replaced.map fun enc => enc.1.recoupGroups.map fun group => group.recoupGroupId,
          upload.request.encBackup.1.recoupGroups.map fun group => group.recoupGroupId)) =
      some [(none, ["R"]), (some ["R"], [])] := by decide
  obtain ⟨state, isState, isUploads⟩ := map_eq_some_iff.mp reaches
  have performs : ∀ state event next, exampleStep? isCycleEvent state event = some next →
      SyncStep exampleCrypto state event next :=
    fun _ _ _ performed => exampleStep?_step (fun _ isCycle => isCycle) performed
  have run := Run.ofFoldlM performs isState
  have lossless := claim _ exampleCrypto exampleCrypto_laws exampleSync mergeEvents state
    exampleSync_unsynchronized run
  have last : (some ["R"], []) ∈ state.uploads.map fun upload =>
      (upload.replaced.map fun enc => enc.1.recoupGroups.map fun group => group.recoupGroupId,
        upload.request.encBackup.1.recoupGroups.map fun group => group.recoupGroupId) := by
    rw [isUploads]
    exact mem_cons_of_mem _ (mem_singleton_self _)
  obtain ⟨upload, member, isUpload⟩ := List.mem_map.mp last
  obtain ⟨isReplaced, isNew⟩ := Prod.mk.inj isUpload
  obtain ⟨replaced, isReplaced, isOld⟩ := map_eq_some_iff.mp isReplaced
  have old : replaced.1.Has exampleCrypto.keys (.recoupGroup "R") := by
    have group : "R" ∈ replaced.1.recoupGroups.map fun group => group.recoupGroupId := by
      rw [isOld]
      exact mem_singleton_self _
    exact List.mem_map.mp group
  rcases (lossless upload member replaced _ _ isReplaced rfl rfl).1 _ old with new | buried
  · have group := List.mem_map.mpr new
    rw [isNew] at group
    cases group
  · exact buried

theorem uploads_lossless_again : ∃ state,
    Run (SyncStep exampleCrypto) exampleSync repeatEvents state ∧ state.uploads.length = 2 ∧
      ∀ upload ∈ state.uploads, Lossless exampleCrypto upload := by
  have reaches : (repeatEvents.foldlM (exampleStep? mergesNothing) exampleSync).map
      (fun state => state.uploads.length) = some 2 := by decide
  obtain ⟨state, isState, isLength⟩ := map_eq_some_iff.mp reaches
  have performs : ∀ state event next, exampleStep? mergesNothing state event = some next →
      Guarded (SyncCondition exampleCrypto) (SyncStep exampleCrypto) state event next :=
    fun _ _ _ performed => exampleStep?_guarded performed
  have run := Run.ofFoldlM performs isState
  exact ⟨state, run.unguarded, isLength,
    uploads_lossless exampleCrypto_laws exampleSync_unsynchronized run⟩

end Examples

end Anastasis.Wallet.Backup
