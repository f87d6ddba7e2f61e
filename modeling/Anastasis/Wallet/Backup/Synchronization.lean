import Anastasis.Wallet.Backup.Adoption

/-! Several wallets that synchronize their backups through the same providers. -/

set_option autoImplicit false

namespace Anastasis.Wallet.Backup

open Library Library.Transition

/-- The functions of the libraries, for the root key that the wallets share. -/
structure SyncCrypto (Enc : Type) where
  keys : BackupKeys
  encryptBackup : WalletBackupContentV1 → (nonce : String) → Enc
  decryptBackup : Enc → Option WalletBackupContentV1
  hash : Enc → String

def SyncCrypto.Laws {Enc : Type} (crypto : SyncCrypto Enc) : Prop :=
  ∀ content nonce, crypto.decryptBackup (crypto.encryptBackup content nonce) = some content

variable {Enc : Type}

structure SyncRequest (Enc : Type) where
  encBackup : Enc
  ifMatch : Option String
  origin : Stores

inductive SyncStage (Enc : Type) where
  | starting
  | read (oldHash : Option String)
  | exported (oldHash : Option String) (backupJson : WalletBackupContentV1) (origin : Stores)
  | posted (request : SyncRequest Enc)
  | answered (request : SyncRequest Enc) (response : BackupResponse Enc)
  | merged (backupEnc : Enc)

/-- A call of `runBackupCycleForProvider` that is under way. -/
structure SyncCycle (Enc : Type) where
  backupProviderBaseUrl : String
  retryAfterPayment : Bool
  stage : SyncStage Enc

structure SyncWallet (Enc : Type) where
  stores : Stores
  cycles : List (SyncCycle Enc)

/-- An upload that the provider has acknowledged, with what it has replaced. -/
structure Upload (Enc : Type) where
  baseUrl : String
  replaced : Option Enc
  request : SyncRequest Enc

structure SyncSystem (Enc : Type) where
  wallets : List (SyncWallet Enc)
  remote : Record String Enc
  uploads : List (Upload Enc)

inductive CycleAction where
  | read
  | export (provided : WalletBackupConfState) (timestamp : Timestamp)
  | post (nonce : String)
  | merge (provided : WalletBackupConfState) (surroundings : ImportSurroundings)
  | store (now : Nat)
  -- the operation throws, and its caller may store the error
  | throw (now : Nat) (err : Option String)

inductive SyncEvent where
  -- any other operation of the wallet
  | change (wallet : Nat) (stores : Stores)
  | start (wallet : Nat) (baseUrl : String) (retryAfterPayment : Bool)
  | act (wallet cycle : Nat) (action : CycleAction)
  | serve (wallet cycle : Nat)
  -- an answer that replaces nothing
  | demandPayment (wallet cycle : Nat) (proposalId : String)
  | refuse (wallet cycle : Nat) (err : String)

namespace Stores

/-- A transaction that rewrites the record of a provider, if it is there. -/
def modifyProvider (stores : Stores) (baseUrl : String)
    (change : BackupProviderRecord → BackupProviderRecord) : Stores :=
  match stores.backupProviders.get? baseUrl with
  | none => stores
  | some prov =>
    { stores with backupProviders := stores.backupProviders.insert baseUrl (change prov) }

end Stores

namespace SyncCycle

variable (crypto : SyncCrypto Enc) (cycle : SyncCycle Enc)

def toStage (stage : SyncStage Enc) : SyncCycle Enc := { cycle with stage := stage }

def again : SyncCycle Enc :=
  { cycle with retryAfterPayment := false, stage := .starting }

/-- The transaction for an answer other than a conflict, and the cycle that follows on it. -/
def storeAnswer (stores : Stores) (now : Nat) (request : SyncRequest Enc) :
    BackupResponse Enc → Option (Stores × Option (SyncCycle Enc))
  | .notModified =>
    some (stores.modifyProvider cycle.backupProviderBaseUrl fun prov =>
      { prov with
        lastBackupCycleTimestamp := some (.at now)
        state := .ready (getNextBackupTimestamp now) }, none)
  | .paymentRequired proposalId =>
    if stores.backupProviders.contains cycle.backupProviderBaseUrl then
      some (stores.modifyProvider cycle.backupProviderBaseUrl fun provRec =>
        BackupProviderRecord.incrementRetry now none
          { provRec with
            paymentProposalIds := addProposalId provRec.paymentProposalIds proposalId
            currentPaymentProposalId := some proposalId },
        if cycle.retryAfterPayment then some cycle.again else none)
    else none
  | .noContent =>
    some (stores.modifyProvider cycle.backupProviderBaseUrl fun prov =>
      { prov with
        lastBackupHash := some (crypto.hash request.encBackup)
        lastBackupCycleTimestamp := some (.at now)
        state := .ready (getNextBackupTimestamp now) }, none)
  | .error err =>
    some (stores.modifyProvider cycle.backupProviderBaseUrl
      (BackupProviderRecord.incrementRetry now (some err)), none)
  | .conflict _ => none

/-- The next step of the wallet in the cycle: the stores, and the cycle if it goes on. -/
def act (stores : Stores) : CycleAction → Option (Stores × Option (SyncCycle Enc))
  | .read =>
    match cycle.stage with
    | .starting =>
      some (stores, (stores.backupProviders.get? cycle.backupProviderBaseUrl).map
        fun provider => cycle.toStage (.read provider.lastBackupHash))
    | _ => none
  | .export provided timestamp =>
    match cycle.stage with
    | .read oldHash =>
      let stores := stores.withConfig provided
      let bs := stores.config.getD provided
      some (stores,
        some (cycle.toStage (.exported oldHash (stores.backupContent bs timestamp) stores)))
    | _ => none
  | .post nonce =>
    match cycle.stage with
    | .exported oldHash backupJson origin =>
      some (stores,
        some (cycle.toStage (.posted ⟨crypto.encryptBackup backupJson nonce, oldHash, origin⟩)))
    | _ => none
  | .merge provided surroundings =>
    match cycle.stage with
    | .answered _ (.conflict backupEnc) => do
        let blob ← crypto.decryptBackup backupEnc
        let cryptoData ← computeBackupCryptoData crypto.keys blob
        let (merged, finished) := stores.importBackup provided surroundings cryptoData blob
        pure (merged, if finished then some (cycle.toStage (.merged backupEnc)) else none)
    | _ => none
  | .store now =>
    match cycle.stage with
    | .answered request response => cycle.storeAnswer crypto stores now request response
    | .merged backupEnc =>
      some (stores.modifyProvider cycle.backupProviderBaseUrl fun prov =>
        { prov with
          lastBackupHash := some (crypto.hash backupEnc)
          state := .retrying (initRetryInfo now) none }, some cycle.again)
    | _ => none
  | .throw _ none => some (stores, none)
  | .throw now (some err) =>
    some (stores.modifyProvider cycle.backupProviderBaseUrl
      (BackupProviderRecord.incrementRetry now (some err)), none)

end SyncCycle

/-- The provider replaces its blob when the request names the one it has. -/
def serveUpload (crypto : SyncCrypto Enc) (remote : Record String Enc) (baseUrl : String)
    (request : SyncRequest Enc) :
    Record String Enc × BackupResponse Enc × Option (Upload Enc) :=
  match remote.get? baseUrl with
  | none => (remote.set baseUrl request.encBackup, .noContent, some ⟨baseUrl, none, request⟩)
  | some current =>
    if crypto.hash current = crypto.hash request.encBackup then (remote, .notModified, none)
    else if request.ifMatch = some (crypto.hash current) then
      (remote.set baseUrl request.encBackup, .noContent, some ⟨baseUrl, some current, request⟩)
    else (remote, .conflict current, none)

namespace SyncSystem

variable (crypto : SyncCrypto Enc) (state : SyncSystem Enc)

def setWallet (wallet : Nat) (changed : SyncWallet Enc) : SyncSystem Enc :=
  { state with wallets := state.wallets.set wallet changed }

def perform : SyncEvent → Option (SyncSystem Enc)
  | .change index stores => do
      let wallet ← state.wallets[index]?
      pure (state.setWallet index { wallet with stores := stores })
  | .start index baseUrl retryAfterPayment => do
      let wallet ← state.wallets[index]?
      pure (state.setWallet index
        { wallet with cycles := wallet.cycles ++ [⟨baseUrl, retryAfterPayment, .starting⟩] })
  | .act index position action => do
      let wallet ← state.wallets[index]?
      let cycle ← wallet.cycles[position]?
      let (stores, next) ← cycle.act crypto wallet.stores action
      pure (state.setWallet index
        { stores := stores
          cycles := match next with
            | none => wallet.cycles.eraseIdx position
            | some next => wallet.cycles.set position next })
  | .serve index position => do
      let wallet ← state.wallets[index]?
      let cycle ← wallet.cycles[position]?
      match cycle.stage with
      | .posted request =>
        let (remote, response, upload) :=
          serveUpload crypto state.remote cycle.backupProviderBaseUrl request
        some
          { wallets := state.wallets.set index
              { wallet with
                cycles := wallet.cycles.set position (cycle.toStage (.answered request response)) }
            remote := remote
            uploads := state.uploads ++ upload.toList }
      | _ => none
  | .demandPayment index position proposalId => do
      let wallet ← state.wallets[index]?
      let cycle ← wallet.cycles[position]?
      match cycle.stage with
      | .posted request =>
        some (state.setWallet index
          { wallet with
            cycles := wallet.cycles.set position
              (cycle.toStage (.answered request (.paymentRequired proposalId))) })
      | _ => none
  | .refuse index position err => do
      let wallet ← state.wallets[index]?
      let cycle ← wallet.cycles[position]?
      match cycle.stage with
      | .posted request =>
        some (state.setWallet index
          { wallet with
            cycles := wallet.cycles.set position
              (cycle.toStage (.answered request (.error err))) })
      | _ => none

def history : List Enc := state.uploads.map fun upload => upload.request.encBackup

end SyncSystem

/-- What every other operation of a wallet does: its stores stay consistent, tombstones stay, and
no hash of a backup is made up. -/
structure LocalChange (keys : BackupKeys) (before after : Stores) : Prop where
  consistent : after.Consistent keys
  tombstones : ∀ tombstone, before.tombstones.contains tombstone →
    after.tombstones.contains tombstone
  hashes : ∀ baseUrl prov hash, after.backupProviders.get? baseUrl = some prov →
    prov.lastBackupHash = some hash →
      ∃ old, before.backupProviders.get? baseUrl = some old ∧ old.lastBackupHash = some hash

def SyncStep (crypto : SyncCrypto Enc) (state : SyncSystem Enc) (event : SyncEvent)
    (next : SyncSystem Enc) : Prop :=
  state.perform crypto event = some next ∧
    (∀ first ∈ next.history, ∀ second ∈ next.history,
      crypto.hash first = crypto.hash second → first = second) ∧
    match event with
    | .change index stores => ∀ wallet, state.wallets[index]? = some wallet →
        LocalChange crypto.keys wallet.stores stores
    | _ => True

/-- Objects that have been exported still are, or are tombstoned; tombstones stay. -/
structure Upholds (keys : BackupKeys) (before after : Stores) : Prop where
  objects : ∀ object, before.Exports keys object →
    after.Exports keys object ∨ after.Buried object
  buried : ∀ object, before.Buried object → after.Buried object

/-- Other operations do not take objects out of the export without a tombstone, and all that is
in a blob to be merged can be taken from it. -/
def SyncCondition (crypto : SyncCrypto Enc) (state : SyncSystem Enc) : SyncEvent → Prop
  | .change index stores => ∀ wallet, state.wallets[index]? = some wallet →
      ∀ object, wallet.stores.Exports crypto.keys object →
        stores.Exports crypto.keys object ∨ stores.Buried object
  | .act index position (.merge _ _) => ∀ wallet cycle request backupEnc content,
      state.wallets[index]? = some wallet → wallet.cycles[position]? = some cycle →
        cycle.stage = .answered request (.conflict backupEnc) →
          crypto.decryptBackup backupEnc = some content →
            wallet.stores.Takes crypto.keys content
  | _ => True

structure Unsynchronized (crypto : SyncCrypto Enc) (state : SyncSystem Enc) : Prop where
  consistent : ∀ wallet ∈ state.wallets, wallet.stores.Consistent crypto.keys
  cycles : ∀ wallet ∈ state.wallets, wallet.cycles = []
  hashes : ∀ wallet ∈ state.wallets, ∀ baseUrl prov,
    wallet.stores.backupProviders.get? baseUrl = some prov → prov.lastBackupHash = none
  remote : state.remote = .empty
  uploads : state.uploads = []

/-- The blob of the upload has every object of the blob that it replaces, unless the wallet knew
a tombstone for it, and every tombstone. -/
def Lossless (crypto : SyncCrypto Enc) (upload : Upload Enc) : Prop :=
  ∀ replaced old new, upload.replaced = some replaced →
    crypto.decryptBackup replaced = some old →
    crypto.decryptBackup upload.request.encBackup = some new →
      (∀ object, old.Has crypto.keys object →
        new.Has crypto.keys object ∨ upload.request.origin.Buried object) ∧
      ∀ tombstone ∈ old.tombstones, tombstone ∈ new.tombstones

end Anastasis.Wallet.Backup
