import Anastasis.Library.Transition
import Anastasis.TalerUtil.CanonicalJson
import Anastasis.TalerUtil.Crock
import Anastasis.Wallet.Denominations
import Mathlib.Data.List.Pairwise

/-! Exporting a backup and encrypting it: two transactions, one nonce. -/

set_option autoImplicit false

namespace Anastasis.Wallet

open Library Library.Transition TalerUtil List Option

structure WalletBackupConfState where
  deviceId : String
  walletRootPub : String
  walletRootPriv : String
  lastBackupPlainHash : Option String
  lastBackupTimestamp : Option Timestamp
  lastBackupNonce : Option String

abbrev JsValue := { value : Json // Json.Distinct value }

structure BackupObjects where
  exchanges : JsValue
  exchangeDetails : JsValue
  backupProviders : JsValue
  proposals : JsValue
  purchases : JsValue
  recoupGroups : JsValue
  refreshGroups : JsValue
  tips : JsValue

def Timestamp.toJson : Timestamp → Json
  | .at milliseconds => .object [("t_ms", .number milliseconds)]
  | .never => .object [("t_ms", .string "never")]

def backupBlob (objects : BackupObjects) (bs : WalletBackupConfState) (timestamp : Timestamp) :
    Json :=
  .object
    [("schema_id", .string "gnu-taler-wallet-backup-content"),
      ("schema_version", .number 1),
      ("exchanges", objects.exchanges),
      ("exchange_details", objects.exchangeDetails),
      ("wallet_root_pub", .string bs.walletRootPub),
      ("backup_providers", objects.backupProviders),
      ("current_device_id", .string bs.deviceId),
      ("proposals", objects.proposals),
      ("purchases", objects.purchases),
      ("recoup_groups", objects.recoupGroups),
      ("refresh_groups", objects.refreshGroups),
      ("tips", objects.tips),
      ("timestamp", timestamp.toJson),
      ("trusted_auditors", .object []),
      ("trusted_exchanges", .object []),
      ("intern_table", .object []),
      ("error_reports", .array []),
      ("tombstones", .array [])]

/-- The functions of the cryptographic and compression libraries. -/
structure BackupCrypto where
  hash : Bytes → Bytes
  kdf : Nat → Bytes → Bytes → Bytes → Bytes
  gzipSync : Bytes → Bytes
  gunzipSync : Bytes → Option Bytes
  secretbox : Bytes → Bytes → Bytes → Bytes
  secretboxOpen : Bytes → Bytes → Bytes → Option Bytes

structure BackupCrypto.Laws (crypto : BackupCrypto) : Prop where
  hash_injective : Function.Injective crypto.hash
  gunzip_gzip : ∀ data, crypto.gunzipSync (crypto.gzipSync data) = some data
  open_secretbox : ∀ msg nonce key, nonce.length = 24 →
    crypto.secretboxOpen (crypto.secretbox msg nonce key) nonce key = some msg

variable (crypto : BackupCrypto)

def plainHash (backup : Json) : String :=
  encodeCrock (crypto.hash (Utf8.encode (canonicalJson backup)))

/-- The transaction of an export. If the backup changed, so do the nonce and the timestamp. -/
def exportBackup (now : Nat) (random : Bytes) (objects : BackupObjects)
    (bs : WalletBackupConfState) : WalletBackupConfState × Json :=
  let ts := Timestamp.at now
  let blob := backupBlob objects bs (bs.lastBackupTimestamp.getD ts)
  if some (plainHash crypto blob) ≠ bs.lastBackupPlainHash then
    let blob := backupBlob objects bs ts
    ({ bs with
        lastBackupTimestamp := some ts
        lastBackupPlainHash := some (plainHash crypto blob)
        lastBackupNonce := some (encodeCrock random) }, blob)
  else (bs, blob)

def magic : Bytes := Utf8.encode "TLRWBK01"

def deriveBlobSecret (bc : WalletBackupConfState) : Option Bytes := do
  let walletRootPriv ← decodeCrock bc.walletRootPriv
  pure (crypto.kdf 32 walletRootPriv (Utf8.encode "taler-sync-blob-secret-salt")
    (Utf8.encode "taler-sync-blob-secret-info"))

structure EncryptedBackup where
  nonce : Bytes
  secret : Bytes
  content : Json
  data : Bytes

def encryptBackup (config : WalletBackupConfState) (blob : Json) : Option EncryptedBackup := do
  let nonceStr ← config.lastBackupNonce
  let decoded ← decodeCrock nonceStr
  let nonce := decoded.take 24
  let secret ← deriveBlobSecret crypto config
  let compressedContent := crypto.gzipSync (Utf8.encode (canonicalJson blob))
  pure
    { nonce := nonce
      secret := secret
      content := blob
      data := magic ++ nonce ++ crypto.secretbox compressedContent nonce secret }

def decryptBackup (backupConfig : WalletBackupConfState) (data : Bytes) : Option Json := do
  if Utf8.decode (data.take 8) ≠ "TLRWBK01" then none
  else
    let nonce := (data.drop 8).take 24
    let box := data.drop (8 + 24)
    let secret ← deriveBlobSecret crypto backupConfig
    let dataCompressed ← crypto.secretboxOpen box nonce secret
    let content ← crypto.gunzipSync dataCompressed
    Json.read (Utf8.decode content).toList

/-- One wallet with the exports that have returned and wait to be encrypted. The random nonces
are remembered with the contents they were drawn for. -/
structure NonceSystem where
  config : Option WalletBackupConfState
  objects : BackupObjects
  exported : List Json
  chosen : List (Bytes × String)
  encrypted : List EncryptedBackup

inductive NonceEvent where
  | change (objects : BackupObjects)
  | provideBackupState (deviceId walletRootPub walletRootPriv : String)
  | setWalletDeviceId (deviceId : String)
  | backupRecoveryTheirs (walletRootPub walletRootPriv : String)
  | exportBackup (now : Nat) (random : Bytes)
  -- the configuration is read, and the content encrypted with it
  | encryptBackup (index : Nat)

namespace NonceSystem

def afterExport (state : NonceSystem) (bs : WalletBackupConfState) (random : Bytes)
    (exported : WalletBackupConfState × Json) : NonceSystem :=
  { state with
    config := some exported.1
    exported := state.exported ++ [exported.2]
    chosen :=
      if exported.1.lastBackupNonce = bs.lastBackupNonce then state.chosen
      else state.chosen ++ [(random.take 24, plainHash crypto exported.2)] }

def perform (state : NonceSystem) : NonceEvent → Option NonceSystem
  | .change objects => some { state with objects := objects }
  | .provideBackupState deviceId walletRootPub walletRootPriv =>
    match state.config with
    | some _ => some state
    | none =>
      some
        { state with
          config := some
            { deviceId := deviceId
              walletRootPub := walletRootPub
              walletRootPriv := walletRootPriv
              lastBackupPlainHash := none
              lastBackupTimestamp := none
              lastBackupNonce := none } }
  | .setWalletDeviceId deviceId => do
      let bs ← state.config
      pure { state with config := some { bs with deviceId := deviceId } }
  | .backupRecoveryTheirs walletRootPub walletRootPriv => do
      let bs ← state.config
      pure
        { state with
          config := some
            { bs with
              lastBackupNonce := none
              lastBackupTimestamp := none
              lastBackupPlainHash := none
              walletRootPriv := walletRootPriv
              walletRootPub := walletRootPub } }
  | .exportBackup now random => do
      let bs ← state.config
      pure (state.afterExport crypto bs random (exportBackup crypto now random state.objects bs))
  | .encryptBackup index => do
      let bs ← state.config
      let blob ← state.exported[index]?
      let backup ← Wallet.encryptBackup crypto bs blob
      pure
        { state with
          exported := state.exported.eraseIdx index
          encrypted := state.encrypted ++ [backup] }

end NonceSystem

def NonceStep (state : NonceSystem) (event : NonceEvent) (next : NonceSystem) : Prop :=
  state.perform crypto event = some next ∧
    match event with
    | .exportBackup _ random =>
      random.length = 32 ∧ ∀ entry ∈ state.chosen, entry.1 ≠ random.take 24
    | _ => True

def NonceCondition (state : NonceSystem) : NonceEvent → Prop
  | .encryptBackup index => ∀ bs blob, state.config = some bs → state.exported[index]? = some blob →
      bs.lastBackupPlainHash = some (plainHash crypto blob)
  | _ => True

structure FreshWallet (state : NonceSystem) : Prop where
  config : state.config = none
  exported : state.exported = []
  chosen : state.chosen = []
  encrypted : state.encrypted = []

structure EncryptedBackup.WellFormed (backup : EncryptedBackup) : Prop where
  distinct : Json.Distinct backup.content
  nonce : backup.nonce.length = 24
  data : backup.data = magic ++ backup.nonce ++
    crypto.secretbox (crypto.gzipSync (Utf8.encode (canonicalJson backup.content))) backup.nonce
      backup.secret

/-- The configuration of a wallet: its nonce was drawn for the content that it has the hash of. -/
structure ConfigKept (chosen : List (Bytes × String)) (bs : WalletBackupConfState) : Prop where
  nonce : ∀ nonceStr, bs.lastBackupNonce = some nonceStr →
    ∃ random contentHash, nonceStr = encodeCrock random ∧ random.length = 32 ∧
      (random.take 24, contentHash) ∈ chosen ∧ bs.lastBackupPlainHash = some contentHash
  timestamp : ∀ contentHash, bs.lastBackupPlainHash = some contentHash →
    ∃ timestamp, bs.lastBackupTimestamp = some timestamp

structure NonceKept (state : NonceSystem) : Prop where
  chosen : state.chosen.Pairwise fun earlier later => earlier.1 ≠ later.1
  config : ∀ bs, state.config = some bs → ConfigKept state.chosen bs
  exported : ∀ blob ∈ state.exported, Json.Distinct blob
  encrypted : ∀ backup ∈ state.encrypted, backup.WellFormed crypto

def ContentsKept (state : NonceSystem) : Prop :=
  ∀ backup ∈ state.encrypted, (backup.nonce, plainHash crypto backup.content) ∈ state.chosen

section Exports

variable {crypto} {now : Nat} {random rnd : Bytes} {objects : BackupObjects}
  {bs : WalletBackupConfState}

theorem timestamp_distinct (timestamp : Timestamp) : Json.Distinct timestamp.toJson := by
  cases timestamp with
  | «at» milliseconds =>
    apply Json.Distinct.object
    · exact nodup_singleton "t_ms"
    intro mem inside
    cases mem_singleton.mp inside
    exact .number _
  | never =>
    apply Json.Distinct.object
    · exact nodup_singleton "t_ms"
    intro mem inside
    cases mem_singleton.mp inside
    exact .string _

theorem backupBlob_distinct (timestamp : Timestamp) :
    Json.Distinct (backupBlob objects bs timestamp) := by
  have noMember : Json.Distinct (.object []) := .object nodup_nil nofun
  have noItem : Json.Distinct (.array []) := .array nofun
  apply Json.Distinct.object
  · simp only [map_cons, map_nil]
    decide
  simp only [forall_mem_cons, not_mem_nil, false_implies, implies_true, and_true]
  exact ⟨.string _, .number _, objects.exchanges.2, objects.exchangeDetails.2, .string _,
    objects.backupProviders.2, .string _, objects.proposals.2, objects.purchases.2,
    objects.recoupGroups.2, objects.refreshGroups.2, objects.tips.2,
    timestamp_distinct timestamp, noMember, noMember, noMember, noItem, noItem⟩

/-- An export keeps the configuration of an unchanged content, and draws a nonce for another. -/
theorem exportBackup_cases : (exportBackup crypto now rnd objects bs).1 = bs ∧
      (exportBackup crypto now rnd objects bs).2 =
        backupBlob objects bs (bs.lastBackupTimestamp.getD (.at now)) ∧ bs.lastBackupPlainHash =
        some (plainHash crypto (exportBackup crypto now rnd objects bs).2) ∨
    (exportBackup crypto now rnd objects bs).1 = { bs with
          lastBackupTimestamp := some (.at now)
          lastBackupPlainHash := some (plainHash crypto (exportBackup crypto now rnd objects bs).2)
          lastBackupNonce := some (encodeCrock rnd) } ∧
      (exportBackup crypto now rnd objects bs).2 = backupBlob objects bs (.at now) := by
  unfold exportBackup
  dsimp only
  split
  next => exact .inr ⟨rfl, rfl⟩
  next eq => exact .inl ⟨rfl, rfl, (not_not.mp eq).symm⟩

theorem exportBackup_distinct : Json.Distinct (exportBackup crypto now rnd objects bs).2 := by
  rcases exportBackup_cases with ⟨-, isBlob, -⟩ | ⟨-, isBlob⟩
  · rw [isBlob]
    exact backupBlob_distinct _
  · rw [isBlob]
    exact backupBlob_distinct _

theorem backupBlob_exchanges {ys : BackupObjects} {y : WalletBackupConfState}
    {timestamp later : Timestamp} (eq : canonicalJson (backupBlob objects bs timestamp) =
      canonicalJson (backupBlob ys y later)) :
    Json.arrange utf16 objects.exchanges = Json.arrange utf16 ys.exchanges := by
  have readFirst := read_canonicalJson (@backupBlob_distinct objects bs timestamp)
  rw [eq, read_canonicalJson (@backupBlob_distinct ys y later)] at readFirst
  obtain ⟨exchanges, isMember, arranged⟩ := Json.arrange_member (Option.some.inj readFirst).symm
    (show ("exchanges", objects.exchanges.1) ∈ _ by simp only [mem_cons, true_or, or_true])
  have isExchanges : exchanges = ys.exchanges.1 := by simpa using isMember
  rw [← arranged, isExchanges]

theorem backupBlob_congr {y : WalletBackupConfState} {timestamp : Timestamp}
    (sameKey : y.walletRootPub = bs.walletRootPub) (sameDevice : y.deviceId = bs.deviceId) :
    backupBlob objects y timestamp = backupBlob objects bs timestamp := by
  rw [backupBlob, backupBlob, sameKey, sameDevice]

/-- The configuration has the hash of what was exported, and the time of it. -/
structure ExportedAs (crypto : BackupCrypto) (objects : BackupObjects)
    (bs : WalletBackupConfState) (blob : Json) : Prop where
  hash : bs.lastBackupPlainHash = some (plainHash crypto blob)
  timestamp : ∃ timestamp, bs.lastBackupTimestamp = some timestamp ∧
    blob = backupBlob objects bs timestamp

theorem exportBackup_exportedAs {chosen : List (Bytes × String)} (kept : ConfigKept chosen bs) :
    ExportedAs crypto objects (exportBackup crypto now rnd objects bs).1
      (exportBackup crypto now rnd objects bs).2 := by
  rcases exportBackup_cases with ⟨sameConfig, isBlob, isHash⟩ | ⟨isConfig, isBlob⟩
  · rw [sameConfig]
    obtain ⟨timestamp, has⟩ := kept.timestamp _ isHash
    refine ⟨isHash, timestamp, has, ?_⟩
    rw [isBlob, has]
    rfl
  · rw [isConfig]
    exact ⟨rfl, .at now, rfl, isBlob.trans (backupBlob_congr rfl rfl)⟩

theorem ExportedAs.again {blob : Json} (exported : ExportedAs crypto objects bs blob) :
    exportBackup crypto now rnd objects bs = (bs, blob) := by
  obtain ⟨isHash, timestamp, has, rfl⟩ := exported
  unfold exportBackup
  dsimp only
  rw [has, getD_some, if_neg (not_not.mpr isHash.symm)]

end Exports

section Encryption

variable {crypto} {bs : WalletBackupConfState} {blob : Json} {backup : EncryptedBackup}

theorem encryptBackup_some (encrypted : encryptBackup crypto bs blob = some backup) :
    ∃ nonceStr decoded, bs.lastBackupNonce = some nonceStr ∧
      decodeCrock nonceStr = some decoded ∧ backup.nonce = decoded.take 24 ∧
      deriveBlobSecret crypto bs = some backup.secret ∧ backup.content = blob ∧
      backup.data = magic ++ backup.nonce ++
        crypto.secretbox (crypto.gzipSync (Utf8.encode (canonicalJson backup.content)))
          backup.nonce backup.secret := by
  obtain ⟨nonceStr, isNonce, encrypted⟩ := bind_eq_some_iff.mp encrypted
  obtain ⟨decoded, isDecoded, encrypted⟩ := bind_eq_some_iff.mp encrypted
  obtain ⟨secret, isSecret, encrypted⟩ := bind_eq_some_iff.mp encrypted
  cases encrypted
  exact ⟨nonceStr, decoded, isNonce, isDecoded, rfl, isSecret, rfl, rfl⟩

theorem ConfigKept.encrypts {chosen : List (Bytes × String)} (kept : ConfigKept chosen bs)
    (encrypted : encryptBackup crypto bs blob = some backup) :
    backup.nonce.length = 24 ∧ backup.content = blob ∧
      deriveBlobSecret crypto bs = some backup.secret ∧ backup.data = magic ++ backup.nonce ++
        crypto.secretbox (crypto.gzipSync (Utf8.encode (canonicalJson backup.content)))
          backup.nonce backup.secret ∧ ∃ contentHash, (backup.nonce, contentHash) ∈ chosen ∧
        bs.lastBackupPlainHash = some contentHash := by
  obtain ⟨nonceStr, decoded, isNonce, isDecoded, isPart, isSecret, isContent, isData⟩ :=
    encryptBackup_some encrypted
  obtain ⟨rnd, contentHash, rfl, length, isChosen, isHash⟩ := kept.nonce nonceStr isNonce
  rw [decodeCrock_encodeCrock] at isDecoded
  cases isDecoded
  rw [← isPart] at isChosen
  refine ⟨?_, isContent, isSecret, isData, contentHash, isChosen, isHash⟩
  rw [isPart, length_take, length]
  rfl

theorem magic_length : magic.length = 8 := by decide

theorem magic_read : Utf8.decode magic = "TLRWBK01" := Utf8.decode_encode _

/-- What was encrypted under a key is decrypted under it, with the members in order. -/
theorem decryptBackup_encrypted (laws : crypto.Laws) (wellFormed : backup.WellFormed crypto)
    (secret : deriveBlobSecret crypto bs = some backup.secret) :
    decryptBackup crypto bs backup.data = some (Json.arrange utf16 backup.content) := by
  obtain ⟨apart, nonce, data⟩ := wellFormed
  have tag : backup.data.take 8 = magic := by
    rw [data, append_assoc, ← magic_length, take_left]
  have afterMagic : backup.data.drop 8 = backup.nonce ++
      crypto.secretbox (crypto.gzipSync (Utf8.encode (canonicalJson backup.content)))
        backup.nonce backup.secret := by
    rw [data, append_assoc, ← magic_length, drop_left]
  have isNonce : (backup.data.drop 8).take 24 = backup.nonce := by
    rw [afterMagic, ← nonce, take_left]
  have box : backup.data.drop (8 + 24) =
      crypto.secretbox (crypto.gzipSync (Utf8.encode (canonicalJson backup.content)))
        backup.nonce backup.secret := by
    rw [← drop_drop, afterMagic, ← nonce, drop_left]
  unfold decryptBackup
  rw [tag, magic_read]
  rw [isNonce, box, secret, bind_eq_bind, bind_some, laws.open_secretbox _ _ _ nonce]
  dsimp only [bind_eq_bind, bind_some]
  rw [laws.gunzip_gzip, bind_some, Utf8.decode_encode]
  exact read_canonicalJson apart

end Encryption

section Steps

variable {crypto} {state st next : NonceSystem} {event ev : NonceEvent}

theorem ConfigKept.of {chosen : List (Bytes × String)} {bs other : WalletBackupConfState}
    (kept : ConfigKept chosen bs) (nonce : other.lastBackupNonce = bs.lastBackupNonce)
    (contentHash : other.lastBackupPlainHash = bs.lastBackupPlainHash)
    (timestamp : other.lastBackupTimestamp = bs.lastBackupTimestamp) : ConfigKept chosen other := by
  constructor
  · rw [nonce, contentHash]
    exact kept.nonce
  · rw [contentHash, timestamp]
    exact kept.timestamp

theorem ConfigKept.empty {chosen : List (Bytes × String)} {bs : WalletBackupConfState}
    (noNonce : bs.lastBackupNonce = none) (noHash : bs.lastBackupPlainHash = none) :
    ConfigKept chosen bs := by
  constructor
  · rw [noNonce]
    exact nofun
  · rw [noHash]
    exact nofun

theorem afterExport_chosen {now : Nat} {rnd : Bytes} {bs : WalletBackupConfState}
    (kept : ConfigKept st.chosen bs) (length : rnd.length = 32)
    (isNew : ∀ e ∈ st.chosen, e.1 ≠ rnd.take 24) :
    let exported := exportBackup crypto now rnd st.objects bs
    let after := st.afterExport crypto bs rnd exported
    ConfigKept after.chosen exported.1 ∧ (after.chosen = st.chosen ∨
        after.chosen = st.chosen ++ [(rnd.take 24, plainHash crypto exported.2)]) := by
  intro exported after
  rcases exportBackup_cases with ⟨isConfig, -, -⟩ | ⟨isConfig, -⟩
  · have eq : after.chosen = st.chosen := if_pos (congrArg _ isConfig)
    rw [eq]
    refine ⟨?_, .inl rfl⟩
    rw [isConfig]
    exact kept
  have differs : exported.1.lastBackupNonce ≠ bs.lastBackupNonce := by
    rw [isConfig]
    intro eq
    obtain ⟨old, contentHash, sameNonce, -, isChosen, -⟩ := kept.nonce _ eq.symm
    apply isNew _ isChosen
    rw [encodeCrock_injective sameNonce]
  have grown : after.chosen =
      st.chosen ++ [(rnd.take 24, plainHash crypto exported.2)] := if_neg differs
  rw [grown]
  refine ⟨?_, .inr rfl⟩
  rw [isConfig]
  constructor
  · intro nonceStr isNonce
    cases isNonce
    exact ⟨rnd, _, rfl, length, mem_append_right _ (mem_singleton_self _), rfl⟩
  · intro contentHash _
    exact ⟨_, rfl⟩

theorem nonceStep_kept (kept : NonceKept crypto st) (step : NonceStep crypto st ev next) :
    NonceKept crypto next ∧ st.chosen ⊆ next.chosen := by
  obtain ⟨r, drawn⟩ := step
  cases ev with
  | change objects =>
    cases r
    exact ⟨⟨kept.chosen, kept.config, kept.exported, kept.encrypted⟩, List.Subset.refl _⟩
  | provideBackupState deviceId walletRootPub walletRootPriv =>
    unfold NonceSystem.perform at r
    dsimp only at r
    split at r
    next =>
      cases r
      exact ⟨kept, List.Subset.refl _⟩
    next =>
      cases r
      refine ⟨⟨kept.chosen, ?_, kept.exported, kept.encrypted⟩, List.Subset.refl _⟩
      intro bs isConfig
      cases isConfig
      exact .empty rfl rfl
  | setWalletDeviceId deviceId =>
    obtain ⟨bs, isConfig, r⟩ := bind_eq_some_iff.mp r
    cases r
    refine ⟨⟨kept.chosen, ?_, kept.exported, kept.encrypted⟩, List.Subset.refl _⟩
    intro y isO
    cases isO
    exact (kept.config bs isConfig).of rfl rfl rfl
  | backupRecoveryTheirs walletRootPub walletRootPriv =>
    obtain ⟨bs, isConfig, r⟩ := bind_eq_some_iff.mp r
    cases r
    refine ⟨⟨kept.chosen, ?_, kept.exported, kept.encrypted⟩, List.Subset.refl _⟩
    intro y isO
    cases isO
    exact .empty rfl rfl
  | exportBackup now rnd =>
    obtain ⟨length, isNew⟩ := drawn
    obtain ⟨bs, isConfig, r⟩ := bind_eq_some_iff.mp r
    obtain ⟨configKept, chosen⟩ := afterExport_chosen (kept.config bs isConfig) length isNew
    have after := Option.some.inj r
    rw [after] at configKept chosen
    refine ⟨⟨?_, ?_, ?_, ?_⟩, ?_⟩
    · rcases chosen with eq | grown
      · rw [eq]
        exact kept.chosen
      rw [grown, pairwise_append]
      refine ⟨kept.chosen, pairwise_singleton _ _, ?_⟩
      intro earlier isEarlier later isLater
      rw [mem_singleton.mp isLater]
      exact isNew earlier isEarlier
    · intro y isO
      rw [← after] at isO
      cases isO
      exact configKept
    · intro blob mem
      rw [← after] at mem
      rcases mem_append.mp mem with old | new
      · exact kept.exported blob old
      · rw [mem_singleton.mp new]
        exact exportBackup_distinct
    · rw [← after]
      exact kept.encrypted
    · rcases chosen with eq | grown
      · rw [eq]
        exact List.Subset.refl _
      · rw [grown]
        exact subset_append_left _ _
  | encryptBackup idx =>
    obtain ⟨bs, isConfig, r⟩ := bind_eq_some_iff.mp r
    obtain ⟨blob, isBlob, r⟩ := bind_eq_some_iff.mp r
    obtain ⟨backup, isBackup, r⟩ := bind_eq_some_iff.mp r
    cases r
    refine ⟨⟨kept.chosen, kept.config, ?_, ?_⟩, List.Subset.refl _⟩
    · intro y mem
      exact kept.exported y (mem_of_mem_eraseIdx mem)
    intro y mem
    rcases mem_append.mp mem with old | new
    · exact kept.encrypted y old
    rw [mem_singleton.mp new]
    obtain ⟨length, isContent, -, isData, -⟩ := (kept.config bs isConfig).encrypts isBackup
    refine ⟨?_, length, isData⟩
    rw [isContent]
    exact kept.exported blob (mem_of_getElem? isBlob)

theorem nonceStep_contents (kept : NonceKept crypto st) (contents : ContentsKept crypto st)
    (cond : NonceCondition crypto st ev) (step : NonceStep crypto st ev next) :
    ContentsKept crypto next := by
  have grows := (nonceStep_kept kept step).2
  have eq : next.encrypted = st.encrypted → ContentsKept crypto next := by
    intro eq backup mem
    rw [eq] at mem
    exact grows (contents backup mem)
  cases ev with
  | encryptBackup idx =>
    obtain ⟨bs, isConfig, r⟩ := bind_eq_some_iff.mp step.1
    obtain ⟨blob, isBlob, r⟩ := bind_eq_some_iff.mp r
    obtain ⟨backup, isBackup, r⟩ := bind_eq_some_iff.mp r
    cases r
    intro y mem
    rcases mem_append.mp mem with old | new
    · exact contents y old
    rw [mem_singleton.mp new]
    obtain ⟨-, isContent, -, -, contentHash, isChosen, isHash⟩ :=
      (kept.config bs isConfig).encrypts isBackup
    cases isHash.symm.trans (cond bs blob isConfig isBlob)
    rw [isContent]
    exact isChosen
  | change objects =>
    cases step.1
    exact eq rfl
  | provideBackupState deviceId walletRootPub walletRootPriv =>
    have r := step.1
    unfold NonceSystem.perform at r
    dsimp only at r
    split at r
    next =>
      cases r
      exact eq rfl
    next =>
      cases r
      exact eq rfl
  | setWalletDeviceId deviceId =>
    obtain ⟨bs, isConfig, r⟩ := bind_eq_some_iff.mp step.1
    cases r
    exact eq rfl
  | backupRecoveryTheirs walletRootPub walletRootPriv =>
    obtain ⟨bs, isConfig, r⟩ := bind_eq_some_iff.mp step.1
    cases r
    exact eq rfl
  | exportBackup now rnd =>
    obtain ⟨bs, isConfig, r⟩ := bind_eq_some_iff.mp step.1
    apply eq
    rw [← Option.some.inj r]
    rfl

end Steps

section Runs

variable {crypto} {start state st : NonceSystem} {events : List NonceEvent}

theorem FreshWallet.kept (fresh : FreshWallet start) :
    NonceKept crypto start ∧ ContentsKept crypto start := by
  refine ⟨⟨?_, ?_, ?_, ?_⟩, ?_⟩
  · rw [fresh.chosen]
    exact .nil
  · rw [fresh.config]
    exact nofun
  · rw [fresh.exported]
    exact nofun
  · rw [fresh.encrypted]
    exact nofun
  unfold ContentsKept
  rw [fresh.encrypted]
  exact nofun

theorem nonce_run_kept (fresh : FreshWallet start)
    (run : Run (NonceStep crypto) start events state) : NonceKept crypto state :=
  run.invariant (NonceKept crypto) fresh.kept.1 fun _ _ _ kept step => (nonceStep_kept kept step).1

theorem nonce_run_contents (fresh : FreshWallet start)
    (run : Run (Guarded (NonceCondition crypto) (NonceStep crypto)) start events state) :
    NonceKept crypto state ∧ ContentsKept crypto state := by
  apply run.invariant (fun state => NonceKept crypto state ∧ ContentsKept crypto state) fresh.kept
  intro state ev next kept step
  exact ⟨(nonceStep_kept kept.1 step.2).1, nonceStep_contents kept.1 kept.2 step.1 step.2⟩

theorem NonceKept.drawn_once (kept : NonceKept crypto st) {nonce : Bytes} {x second : String}
    (isFirst : (nonce, x) ∈ st.chosen) (isSecond : (nonce, second) ∈ st.chosen) : x = second := by
  by_contra ne
  have apart : (nonce, x) ≠ (nonce, second) := fun eq => ne (congrArg Prod.snd eq)
  have symmetric : Std.Symm fun old later : Bytes × String => old.1 ≠ later.1 :=
    ⟨fun _ _ differ eq => differ eq.symm⟩
  exact kept.chosen.forall isFirst isSecond apart rfl

theorem plainHash_injective (laws : crypto.Laws) {x second : Json}
    (eq : plainHash crypto x = plainHash crypto second) : canonicalJson x = canonicalJson second :=
  Utf8.encode_injective (laws.hash_injective (encodeCrock_injective eq))

/-- Only exports and encryptions, and neither the stores nor the configuration are set. -/
def NonceEvent.unchanging : NonceEvent → Prop
  | .exportBackup _ _ => True
  | .encryptBackup _ => True
  | .provideBackupState _ _ _ => True
  | _ => False

def StandsExported (crypto : BackupCrypto) (objects : BackupObjects) (bs : WalletBackupConfState)
    (blob : Json) (state : NonceSystem) : Prop :=
  state.config = some bs ∧ state.objects = objects ∧ ExportedAs crypto objects bs blob

theorem StandsExported.exports {objects : BackupObjects} {bs : WalletBackupConfState} {blob : Json}
    (stands : StandsExported crypto objects bs blob st) {now : Nat} {rnd : Bytes}
    {next : NonceSystem} (step : NonceStep crypto st (.exportBackup now rnd) next) :
    next.config = some bs ∧ next.objects = objects ∧ next.exported = st.exported ++ [blob] := by
  obtain ⟨isConfig, isObjects, exported⟩ := stands
  obtain ⟨y, isO, r⟩ := bind_eq_some_iff.mp step.1
  cases isConfig.symm.trans isO
  rw [isObjects, exported.again] at r
  rw [← Option.some.inj r]
  exact ⟨rfl, isObjects, rfl⟩

theorem StandsExported.step {objects : BackupObjects} {bs : WalletBackupConfState} {blob : Json}
    (stands : StandsExported crypto objects bs blob st) {ev : NonceEvent}
    {next : NonceSystem} (unchanging : ev.unchanging)
    (step : NonceStep crypto st ev next) : StandsExported crypto objects bs blob next := by
  cases ev with
  | change objects => cases unchanging
  | setWalletDeviceId deviceId => cases unchanging
  | backupRecoveryTheirs walletRootPub walletRootPriv => cases unchanging
  | provideBackupState deviceId walletRootPub walletRootPriv =>
    have r := step.1
    unfold NonceSystem.perform at r
    rw [stands.1] at r
    cases r
    exact stands
  | exportBackup now rnd =>
    obtain ⟨isConfig, isObjects, -⟩ := stands.exports step
    exact ⟨isConfig, isObjects, stands.2.2⟩
  | encryptBackup idx =>
    obtain ⟨y, isO, r⟩ := bind_eq_some_iff.mp step.1
    obtain ⟨content, isContent, r⟩ := bind_eq_some_iff.mp r
    obtain ⟨backup, isBackup, r⟩ := bind_eq_some_iff.mp r
    cases r
    exact stands

theorem NonceKept.stands {now : Nat} {rnd : Bytes} {next : NonceSystem}
    (kept : NonceKept crypto st) (step : NonceStep crypto st (.exportBackup now rnd) next) :
    ∃ bs blob, StandsExported crypto st.objects bs blob next ∧
      next.exported = st.exported ++ [blob] := by
  obtain ⟨old, isOld, r⟩ := bind_eq_some_iff.mp step.1
  rw [← Option.some.inj r]
  exact ⟨_, _, ⟨rfl, rfl, exportBackup_exportedAs (kept.config old isOld)⟩, rfl⟩

end Runs

/-- When each export is encrypted before the next one changes the nonce, no nonce is used for two
contents. In any run what is encrypted can be decrypted, and while nothing changes, all exports have
the same content and are encrypted with the same configuration. -/
theorem backup_nonces {crypto : BackupCrypto} (laws : crypto.Laws) {start : NonceSystem}
    (fresh : FreshWallet start) :
    (∀ events state, Run (Guarded (NonceCondition crypto) (NonceStep crypto)) start events state →
      ∀ first ∈ state.encrypted, ∀ second ∈ state.encrypted, first.nonce = second.nonce →
        first.secret = second.secret →
        canonicalJson first.content = canonicalJson second.content) ∧
    ∀ events state, Run (NonceStep crypto) start events state →
      (∀ backup ∈ state.encrypted, ∀ bs, deriveBlobSecret crypto bs = some backup.secret →
        decryptBackup crypto bs backup.data = some (Json.arrange utf16 backup.content)) ∧
      ∀ now random next, NonceStep crypto state (.exportBackup now random) next →
        ∃ bs blob, next.config = some bs ∧ next.exported = state.exported ++ [blob] ∧ ∀ later final,
            Run (Guarded (fun _ event => event.unchanging) (NonceStep crypto)) next later final →
            final.config = some bs ∧
            ∀ now random after, NonceStep crypto final (.exportBackup now random) after →
              after.config = some bs ∧ after.exported = final.exported ++ [blob] := by
  constructor
  · intro events state run first isFirst second isSecond sameNonce _
    obtain ⟨kept, contents⟩ := nonce_run_contents fresh run
    have drawnFirst := contents first isFirst
    have drawnSecond := contents second isSecond
    rw [sameNonce] at drawnFirst
    exact plainHash_injective laws (kept.drawn_once drawnFirst drawnSecond)
  · intro events state run
    have kept := nonce_run_kept fresh run
    constructor
    · intro backup member bs secret
      exact decryptBackup_encrypted laws (kept.encrypted backup member) secret
    · intro now random next step
      obtain ⟨bs, blob, stands, grown⟩ := kept.stands step
      refine ⟨bs, blob, stands.1, grown, ?_⟩
      intro later final following
      have still := following.invariant (StandsExported crypto state.objects bs blob) stands
        fun _ _ _ stands step => stands.step step.1 step.2
      refine ⟨still.1, ?_⟩
      intro now random after exporting
      obtain ⟨isConfig, -, exported⟩ := still.exports exporting
      exact ⟨isConfig, exported⟩

section Examples

def exampleCrypto : BackupCrypto where
  hash := id
  kdf _ _ _ _ := []
  gzipSync := id
  gunzipSync := some
  secretbox msg _ _ := msg
  secretboxOpen box _ _ := some box

theorem exampleCrypto_laws : exampleCrypto.Laws where
  hash_injective := Function.injective_id
  gunzip_gzip _ := rfl
  open_secretbox _ _ _ _ := rfl

def exampleObjects (exchanges : JsValue) : BackupObjects where
  exchanges := exchanges
  exchangeDetails := ⟨.null, .null⟩
  backupProviders := ⟨.null, .null⟩
  proposals := ⟨.null, .null⟩
  purchases := ⟨.null, .null⟩
  recoupGroups := ⟨.null, .null⟩
  refreshGroups := ⟨.null, .null⟩
  tips := ⟨.null, .null⟩

def exampleWalletStart : NonceSystem where
  config := none
  objects := exampleObjects ⟨.null, .null⟩
  exported := []
  chosen := []
  encrypted := []

theorem exampleWalletStart_fresh : FreshWallet exampleWalletStart := ⟨rfl, rfl, rfl, rfl⟩

def exampleConfig : WalletBackupConfState where
  deviceId := "device"
  walletRootPub := ""
  walletRootPriv := ""
  lastBackupPlainHash := none
  lastBackupTimestamp := none
  lastBackupNonce := none

theorem exampleConfig_secret {bs : WalletBackupConfState} (empty : bs.walletRootPriv = "") :
    deriveBlobSecret exampleCrypto bs = some [] := by
  rw [deriveBlobSecret, empty]
  rfl

theorem encryptBackup_drawn {bs : WalletBackupConfState} {rnd : Bytes}
    (empty : bs.walletRootPriv = "") (nonce : bs.lastBackupNonce = some (encodeCrock rnd))
    (blob : Json) : ∃ backup, encryptBackup exampleCrypto bs blob = some backup ∧
      backup.nonce = rnd.take 24 ∧ backup.secret = [] ∧ backup.content = blob := by
  unfold encryptBackup
  rw [nonce, exampleConfig_secret empty, bind_eq_bind, bind_some, decodeCrock_encodeCrock]
  exact ⟨_, rfl, rfl, rfl, rfl⟩

theorem encryptBackup_step {state : NonceSystem} {bs : WalletBackupConfState} {blob : Json}
    {waiting : List Json} {backup : EncryptedBackup} (isConfig : state.config = some bs)
    (isExported : state.exported = blob :: waiting)
    (encrypts : encryptBackup exampleCrypto bs blob = some backup) :
    NonceStep exampleCrypto state (.encryptBackup 0)
      { state with exported := waiting, encrypted := state.encrypted ++ [backup] } := by
  refine ⟨?_, trivial⟩
  unfold NonceSystem.perform
  dsimp only
  rw [isConfig, isExported, bind_eq_bind, bind_some, getElem?_cons_zero,
    bind_eq_bind, bind_some, encrypts]
  rfl

def firstRandom : Bytes := List.replicate 32 0

def secondRandom : Bytes := List.replicate 32 1

def firstExport : WalletBackupConfState × Json :=
  exportBackup exampleCrypto 1 firstRandom (exampleObjects ⟨.null, .null⟩) exampleConfig

def secondExport : WalletBackupConfState × Json :=
  exportBackup exampleCrypto 2 secondRandom (exampleObjects ⟨.boolean true, .boolean true⟩)
    firstExport.1

def exampleExported : NonceSystem :=
  { exampleWalletStart with config := some exampleConfig }.afterExport exampleCrypto exampleConfig
    firstRandom firstExport

def exampleOverlapping : NonceSystem :=
  { exampleExported with objects := exampleObjects ⟨.boolean true, .boolean true⟩ }.afterExport
    exampleCrypto firstExport.1 secondRandom secondExport

theorem firstExport_changed : firstExport.1 = { exampleConfig with
          lastBackupTimestamp := some (.at 1)
          lastBackupPlainHash := some (plainHash exampleCrypto firstExport.2)
          lastBackupNonce := some (encodeCrock firstRandom) } ∧
      firstExport.2 = backupBlob (exampleObjects ⟨.null, .null⟩) exampleConfig (.at 1) := by
  rcases @exportBackup_cases exampleCrypto 1 firstRandom (exampleObjects ⟨.null, .null⟩)
    exampleConfig with ⟨-, -, isHash⟩ | changed
  · cases isHash
  · exact changed

theorem contents_differ {timestamp : Timestamp} {bs : WalletBackupConfState} :
    canonicalJson firstExport.2 ≠
      canonicalJson (backupBlob (exampleObjects ⟨.boolean true, .boolean true⟩) bs timestamp) := by
  intro eq
  cases backupBlob_exchanges eq

theorem secondExport_changed : secondExport.1 = { firstExport.1 with
          lastBackupTimestamp := some (.at 2)
          lastBackupPlainHash := some (plainHash exampleCrypto secondExport.2)
          lastBackupNonce := some (encodeCrock secondRandom) } ∧
      secondExport.2 =
        backupBlob (exampleObjects ⟨.boolean true, .boolean true⟩) firstExport.1 (.at 2) := by
  rcases @exportBackup_cases exampleCrypto 2 secondRandom
    (exampleObjects ⟨.boolean true, .boolean true⟩) firstExport.1 with
      ⟨-, isBlob, isHash⟩ | changed
  · rw [isBlob, firstExport_changed.1] at isHash
    have eq := plainHash_injective exampleCrypto_laws (Option.some.inj isHash)
    exact absurd eq contents_differ
  · exact changed

theorem exampleExported_run : Run (NonceStep exampleCrypto) exampleWalletStart
    [.provideBackupState "device" "" "", .exportBackup 1 firstRandom] exampleExported := by
  apply Run.next (Run.next .start ⟨rfl, trivial⟩)
  exact ⟨rfl, rfl, nofun⟩

theorem exampleOverlapping_run : Run (NonceStep exampleCrypto) exampleWalletStart
    [.provideBackupState "device" "" "", .exportBackup 1 firstRandom,
      .change (exampleObjects ⟨.boolean true, .boolean true⟩), .exportBackup 2 secondRandom]
    exampleOverlapping := by
  apply Run.next (exampleExported_run.next ⟨rfl, trivial⟩)
  refine ⟨rfl, rfl, ?_⟩
  intro e mem
  have isFirst : e.1 = firstRandom.take 24 := by
    unfold exampleExported NonceSystem.afterExport at mem
    split at mem
    next => cases mem
    next => rw [mem_singleton.mp mem]
  rw [isFirst]
  decide

/-- Two exports, and the second changes the nonce before the first one is encrypted. -/
theorem nonce_reused : ¬ ∀ (crypto : BackupCrypto) (start state : NonceSystem)
    (events : List NonceEvent), crypto.Laws → FreshWallet start →
    Run (NonceStep crypto) start events state →
    ∀ first ∈ state.encrypted, ∀ second ∈ state.encrypted, first.nonce = second.nonce →
      first.secret = second.secret →
      canonicalJson first.content = canonicalJson second.content := by
  intro claim
  have empty : secondExport.1.walletRootPriv = "" := by
    rw [secondExport_changed.1]
    rfl
  have nonce : secondExport.1.lastBackupNonce = some (encodeCrock secondRandom) := by
    rw [secondExport_changed.1]
  obtain ⟨first, encryptsFirst, firstNonce, firstSecret, isFirst⟩ :=
    encryptBackup_drawn empty nonce firstExport.2
  obtain ⟨second, encryptsSecond, secondNonce, secondSecret, isSecond⟩ :=
    encryptBackup_drawn empty nonce secondExport.2
  have config : exampleOverlapping.config = some secondExport.1 := rfl
  have exported : exampleOverlapping.exported = [firstExport.2, secondExport.2] := rfl
  have stepFirst := encryptBackup_step config exported encryptsFirst
  have stepSecond := encryptBackup_step (show { exampleOverlapping with
        exported := [secondExport.2]
        encrypted := exampleOverlapping.encrypted ++ [first] : NonceSystem }.config =
      some secondExport.1 from config) rfl encryptsSecond
  have same := claim exampleCrypto exampleWalletStart _ _ exampleCrypto_laws exampleWalletStart_fresh
    ((exampleOverlapping_run.next stepFirst).next stepSecond) first mem_cons_self second
    (mem_cons_of_mem _ mem_cons_self) (firstNonce.trans secondNonce.symm)
    (firstSecret.trans secondSecret.symm)
  rw [isFirst, isSecond, secondExport_changed.2] at same
  exact contents_differ same

/-- An export that is encrypted at once can be decrypted. -/
theorem backup_nonces_export : ∃ state backup,
    Run (Guarded (NonceCondition exampleCrypto) (NonceStep exampleCrypto)) exampleWalletStart
      [.provideBackupState "device" "" "", .exportBackup 1 firstRandom, .encryptBackup 0] state ∧
    state.encrypted = [backup] ∧ backup.content = firstExport.2 ∧
    decryptBackup exampleCrypto firstExport.1 backup.data =
      some (Json.arrange utf16 backup.content) := by
  have empty : firstExport.1.walletRootPriv = "" := by
    rfl
  have nonce : firstExport.1.lastBackupNonce = some (encodeCrock firstRandom) := by
    rw [firstExport_changed.1]
  obtain ⟨backup, encrypts, -, secret, isContent⟩ := encryptBackup_drawn empty nonce firstExport.2
  have step : NonceStep exampleCrypto exampleExported (.encryptBackup 0)
      { exampleExported with exported := [], encrypted := [backup] } := by
    exact encryptBackup_step rfl rfl encrypts
  have condition : NonceCondition exampleCrypto exampleExported (.encryptBackup 0) := by
    intro bs blob isConfig isBlob
    cases isConfig
    cases isBlob
    rw [firstExport_changed.1]
  have guarded : Run (Guarded (NonceCondition exampleCrypto) (NonceStep exampleCrypto))
      exampleWalletStart [.provideBackupState "device" "" "", .exportBackup 1 firstRandom]
      exampleExported := (Run.start.next ⟨trivial, rfl, trivial⟩).next ⟨trivial, rfl, rfl, nofun⟩
  have facts := (backup_nonces exampleCrypto_laws exampleWalletStart_fresh).2 _ _
    (exampleExported_run.next step)
  refine ⟨_, backup, guarded.next ⟨condition, step⟩, rfl, isContent, ?_⟩
  apply facts.1 backup (mem_singleton_self _)
  rw [secret]
  exact exampleConfig_secret empty

end Examples

end Anastasis.Wallet
