import Anastasis.Wallet.Backup.Merge

/-! The merge laws of an import. -/

set_option autoImplicit false

namespace Anastasis.Wallet.Backup

open Library Option

namespace Stores

variable {dead : TombstoneTag → String → Prop}

/-! What each kind of object puts. -/

theorem importExchange_once (now : Nat) (backupExchange : BackupExchange) :
    PutsOnce Stores.exchanges (fun stores exchanges => { stores with exchanges := exchanges })
      (fun _ => false) backupExchange.baseUrl
      (fun stores => some (stores.importExchange now backupExchange)) := by
  intro pre after r
  dsimp only [importExchange] at r
  split at r
  next has =>
    cases r
    exact .inl ⟨rfl, .inr has⟩
  next gone =>
    cases r
    exact .inr ⟨nofun, not_isSome_iff_eq_none.mp gone, _, rfl⟩

theorem importExchangeDetails_once (backup : BackupExchangeDetails) :
    PutsOnce Stores.exchangeDetails
      (fun stores exchangeDetails => { stores with exchangeDetails := exchangeDetails })
      (fun _ => false) (exchangeDetailsKey backup.baseUrl backup.currency backup.masterPublicKey)
      (fun stores => some (stores.importExchangeDetails backup)) := by
  intro pre after r
  dsimp only [importExchangeDetails] at r
  split at r
  next has =>
    cases r
    exact .inl ⟨rfl, .inr has⟩
  next gone =>
    cases r
    exact .inr ⟨nofun, not_isSome_iff_eq_none.mp gone, _, rfl⟩

theorem importDenomination_once (dt : BackupExchangeDetails) (hash : String)
    (backupDenomination : BackupDenomination) : PutsOnce Stores.denominations
      (fun stores denominations => { stores with denominations := denominations })
      (fun _ => false) (denominationKey dt.baseUrl hash)
      (fun stores => some (stores.importDenomination dt hash backupDenomination)) := by
  intro pre after r
  dsimp only [importDenomination] at r
  split at r
  next has =>
    cases r
    exact .inl ⟨rfl, .inr has⟩
  next gone =>
    cases r
    exact .inr ⟨nofun, not_isSome_iff_eq_none.mp gone, _, rfl⟩

theorem importCoin_once (url : String) (denomPub : DenominationPubKey)
    (hash : String) (compCoin : CompletedCoin) (backupCoin : BackupCoin) :
    PutsOnce Stores.coins (fun stores coins => { stores with coins := coins })
      (fun _ => false) compCoin.coinPub (fun stores =>
        some (stores.importCoin url denomPub hash compCoin backupCoin)) := by
  intro pre after r
  dsimp only [importCoin] at r
  split at r
  next has =>
    cases r
    exact .inl ⟨rfl, .inr has⟩
  next gone =>
    cases r
    exact .inr ⟨nofun, not_isSome_iff_eq_none.mp gone, _, rfl⟩

theorem importWithdrawalGroup_once (now : Nat) (url pub : String)
    (backupWg : BackupWithdrawalGroup) : PutsOnce Stores.withdrawalGroups
      (fun stores withdrawalGroups => { stores with withdrawalGroups := withdrawalGroups })
      (fun stores => stores.isTombstoned .deleteWithdrawalGroup backupWg.withdrawalGroupId)
      backupWg.withdrawalGroupId
      (fun stores => stores.importWithdrawalGroup now url pub backupWg) := by
  intro pre after r
  dsimp only [importWithdrawalGroup] at r
  split at r
  next dead =>
    cases r
    exact .inl ⟨rfl, .inl dead⟩
  next alive =>
  split at r
  next has =>
    cases r
    exact .inl ⟨rfl, .inr has⟩
  next gone =>
    obtain ⟨denomsSel, _, put⟩ := bind_eq_some_iff.mp r
    cases put
    exact .inr ⟨alive, not_isSome_iff_eq_none.mp gone, _, rfl⟩

theorem importReserveRecord_once (now : Nat) (url pub : String) (backupReserve : BackupReserve) :
    PutsOnce Stores.reserves (fun stores reserves => { stores with reserves := reserves })
      (fun _ => false) pub
      (fun stores => stores.importReserveRecord now url pub backupReserve) := by
  intro pre after r
  dsimp only [importReserveRecord] at r
  split at r
  next has =>
    cases r
    exact .inl ⟨rfl, .inr has⟩
  next gone =>
    obtain ⟨initialDenomSel, _, put⟩ := bind_eq_some_iff.mp r
    cases put
    exact .inr ⟨nofun, not_isSome_iff_eq_none.mp gone, _, rfl⟩

theorem importProposal_once (env : ImportSurroundings)
    (cryptoComp : BackupCryptoPrecomputedData) (backupProposal : BackupProposal) :
    PutsOnce Stores.proposals (fun stores proposals => { stores with proposals := proposals })
      (fun stores => stores.isTombstoned .deletePayment backupProposal.proposalId)
      backupProposal.proposalId
      (fun stores => stores.importProposal env cryptoComp backupProposal) := by
  intro pre after r
  dsimp only [importProposal] at r
  split at r
  next dead =>
    cases r
    exact .inl ⟨rfl, .inl dead⟩
  next alive =>
  split at r
  next has =>
    cases r
    exact .inl ⟨rfl, .inr has⟩
  next gone =>
    obtain ⟨download, _, put⟩ := bind_eq_some_iff.mp r
    cases put
    exact .inr ⟨alive, not_isSome_iff_eq_none.mp gone, _, rfl⟩

theorem importPurchase_once (env : ImportSurroundings)
    (cryptoComp : BackupCryptoPrecomputedData) (backupPurchase : BackupPurchase) :
    PutsOnce Stores.purchases (fun stores purchases => { stores with purchases := purchases })
      (fun stores => stores.isTombstoned .deletePayment backupPurchase.proposalId)
      backupPurchase.proposalId
      (fun stores => stores.importPurchase env cryptoComp backupPurchase) := by
  intro pre after r
  dsimp only [importPurchase] at r
  split at r
  next dead =>
    cases r
    exact .inl ⟨rfl, .inl dead⟩
  next alive =>
  split at r
  next has =>
    cases r
    exact .inl ⟨rfl, .inr has⟩
  next gone =>
    obtain ⟨refunds, _, r⟩ := bind_eq_some_iff.mp r
    obtain ⟨download, _, r⟩ := bind_eq_some_iff.mp r
    obtain ⟨payCoinSelection, _, put⟩ := bind_eq_some_iff.mp r
    cases put
    exact .inr ⟨alive, not_isSome_iff_eq_none.mp gone, _, rfl⟩

theorem importRefreshGroup_once (now : Nat) (backupRefreshGroup : BackupRefreshGroup) :
    PutsOnce Stores.refreshGroups
      (fun stores refreshGroups => { stores with refreshGroups := refreshGroups })
      (fun stores => stores.isTombstoned .deleteRefreshGroup backupRefreshGroup.refreshGroupId)
      backupRefreshGroup.refreshGroupId
      (fun stores => stores.importRefreshGroup now backupRefreshGroup) := by
  intro pre after r
  dsimp only [importRefreshGroup] at r
  split at r
  next dead =>
    cases r
    exact .inl ⟨rfl, .inl dead⟩
  next alive =>
  split at r
  next has =>
    cases r
    exact .inl ⟨rfl, .inr has⟩
  next gone =>
    obtain ⟨oldCoins, _, put⟩ := bind_eq_some_iff.mp r
    cases put
    exact .inr ⟨alive, not_isSome_iff_eq_none.mp gone, _, rfl⟩

theorem importTip_once (now : Nat) (backupTip : BackupTip) :
    PutsOnce Stores.tips (fun stores tips => { stores with tips := tips })
      (fun stores => stores.isTombstoned .deleteTip backupTip.walletTipId) backupTip.walletTipId
      (fun stores => stores.importTip now backupTip) := by
  intro pre after r
  dsimp only [importTip] at r
  split at r
  next dead =>
    cases r
    exact .inl ⟨rfl, .inl dead⟩
  next alive =>
  split at r
  next has =>
    cases r
    exact .inl ⟨rfl, .inr has⟩
  next gone =>
    obtain ⟨denomsSel, _, put⟩ := bind_eq_some_iff.mp r
    cases put
    exact .inr ⟨alive, not_isSome_iff_eq_none.mp gone, _, rfl⟩

/-! Two imports of the same object, at any two times. -/

theorem importExchange_settles (now later : Nat) (backupExchange : BackupExchange) :
    Settles (Grown dead) (fun stores => some (stores.importExchange now backupExchange))
      (fun stores => some (stores.importExchange later backupExchange)) :=
  PutsOnce.settles Grown.exchangesPart (importExchange_once now _) (importExchange_once later _)
    nofun

theorem importCoins_settles (cryptoComp : BackupCryptoPrecomputedData) (url : String)
    (denomPub : DenominationPubKey) (hash : String) (backupCoin : BackupCoin) : Settles (Grown dead)
      (fun stores => (cryptoComp.coinPrivToCompletedCoin.get? backupCoin.coinPriv).bind fun compCoin =>
        some (importCoin stores url denomPub hash compCoin backupCoin))
      (fun stores => (cryptoComp.coinPrivToCompletedCoin.get? backupCoin.coinPriv).bind fun compCoin =>
        some (importCoin stores url denomPub hash compCoin backupCoin)) := by
  apply Settles.withValue
  intro compCoin
  exact PutsOnce.settles Grown.coinsPart (importCoin_once _ _ _ compCoin backupCoin)
    (importCoin_once _ _ _ compCoin backupCoin) nofun

theorem importDenominationWithCoins_settles (cryptoComp : BackupCryptoPrecomputedData)
    (dt : BackupExchangeDetails) (backupDenomination : BackupDenomination) : Settles (Grown dead)
      (fun stores => stores.importDenominationWithCoins cryptoComp dt backupDenomination)
      (fun stores => stores.importDenominationWithCoins cryptoComp dt backupDenomination) := by
  by_cases otherCipher : backupDenomination.denomPub.cipher ≠ 1
  · simp only [importDenominationWithCoins, if_pos otherCipher]
    exact .never
  simp only [importDenominationWithCoins, if_neg otherCipher]
  apply Settles.withValue
  intro hash
  have denom := PutsOnce.settles (@Grown.denominationsPart dead)
    (importDenomination_once dt hash backupDenomination)
    (importDenomination_once dt hash backupDenomination) (by simp)
  exact denom.bind (.foldlM backupDenomination.coins fun backupCoin =>
    importCoins_settles cryptoComp dt.baseUrl backupDenomination.denomPub hash backupCoin)

theorem importReserve_settles (now later : Nat) (cryptoComp : BackupCryptoPrecomputedData)
    (url : String) (backupReserve : BackupReserve) : Settles (Grown dead)
      (fun stores => stores.importReserve now cryptoComp url backupReserve)
      (fun stores => stores.importReserve later cryptoComp url backupReserve) := by
  refine Settles.ofSkip ?_ (Grown.isTombstoned _ _)
  apply Settles.withValue
  intro pub
  have rv := PutsOnce.settles (@Grown.reservesPart dead)
    (importReserveRecord_once now url pub backupReserve)
    (importReserveRecord_once later url pub backupReserve) nofun
  exact rv.bind (.foldlM backupReserve.withdrawalGroups fun backupWg =>
    PutsOnce.settles Grown.withdrawalGroupsPart (importWithdrawalGroup_once now url pub backupWg)
      (importWithdrawalGroup_once later url pub backupWg) (Grown.isTombstoned _ _))

theorem importExchangeDetailsWithContents_settles (now later : Nat)
    (cryptoComp : BackupCryptoPrecomputedData) (backup : BackupExchangeDetails) :
    Settles (Grown dead)
      (fun stores => stores.importExchangeDetailsWithContents now cryptoComp backup)
      (fun stores => stores.importExchangeDetailsWithContents later cryptoComp backup) := by
  have dt := PutsOnce.settles (@Grown.exchangeDetailsPart dead)
    (importExchangeDetails_once backup) (importExchangeDetails_once backup) nofun
  have ds := dt.bind (.foldlM backup.denominations fun denom =>
    importDenominationWithCoins_settles cryptoComp backup denom)
  exact ds.bind (.foldlM backup.reserves fun rv =>
    importReserve_settles now later cryptoComp backup.baseUrl rv)

theorem importObjects_settles (env later : ImportSurroundings)
    (cryptoComp : BackupCryptoPrecomputedData) (backupBlob : WalletBackupContentV1) :
    Settles (Grown dead) (fun stores => stores.importObjects env cryptoComp backupBlob)
      (fun stores => stores.importObjects later cryptoComp backupBlob) := by
  have exs := Settles.foldl backupBlob.exchanges fun backupExchange =>
    @importExchange_settles dead env.now later.now backupExchange
  have dt := exs.bind (.foldlM backupBlob.exchangeDetails fun backup =>
    importExchangeDetailsWithContents_settles env.now later.now cryptoComp backup)
  have proposals := dt.bind (.foldlM backupBlob.proposals fun prop =>
    PutsOnce.settles Grown.proposalsPart (importProposal_once env cryptoComp prop)
      (importProposal_once later cryptoComp prop) (Grown.isTombstoned _ _))
  have buys := proposals.bind (.foldlM backupBlob.purchases fun pu =>
    PutsOnce.settles Grown.purchasesPart (importPurchase_once env cryptoComp pu)
      (importPurchase_once later cryptoComp pu) (Grown.isTombstoned _ _))
  have groups := buys.bind (.foldlM backupBlob.refreshGroups fun refreshGroup =>
    PutsOnce.settles Grown.refreshGroupsPart (importRefreshGroup_once env.now refreshGroup)
      (importRefreshGroup_once later.now refreshGroup) (Grown.isTombstoned _ _))
  have tips := groups.bind (.foldlM backupBlob.tips fun tip =>
    PutsOnce.settles Grown.tipsPart (importTip_once env.now tip)
      (importTip_once later.now tip) (Grown.isTombstoned _ _))
  convert tips using 2 <;> simp [importObjects, bind_assoc]

/-! Tombstones are only ever added. -/

def Tombstoned (stores : Stores) (tag : TombstoneTag) (id : String) : Prop :=
  ∃ tombstone ∈ stores.tombstones.keys, Names tombstone tag id

theorem mem_putTombstone_iff (stores : Stores) (tomb y : String) :
    y ∈ (stores.putTombstone tomb).tombstones.keys ↔ y = tomb ∨ y ∈ stores.tombstones.keys := by
  rw [← SortedMap.contains_iff, ← SortedMap.contains_iff, SortedMap.contains, SortedMap.contains,
    putTombstone, SortedMap.get?_insert]
  split
  next eq => simp [eq]
  next ne => simp [ne]

theorem mem_putTombstones_iff (tombstones : List String) (stores : Stores) (y : String) :
    y ∈ (tombstones.foldl putTombstone stores).tombstones.keys ↔
      y ∈ stores.tombstones.keys ∨ y ∈ tombstones := by
  induction tombstones generalizing stores with
  | nil => simp
  | cons tomb rest ih =>
    rw [List.foldl_cons, ih, mem_putTombstone_iff, List.mem_cons]
    tauto

theorem putTombstone_keeps (stores : Stores) (tomb : String) :
    KeptUnless dead stores (stores.putTombstone tomb) := by
  have kept : Kept (fun _ => False) stores.tombstones (stores.tombstones.insert tomb ()) := by
    cases h : stores.tombstones.get? tomb with
    | none => exact .insertAbsent h ()
    | some has =>
      rw [SortedMap.insert_same h]
      exact .refl _
  exact { KeptUnless.refl stores with tombstones := kept }

theorem putTombstones_keep (tombstones : List String) (stores : Stores) :
    KeptUnless dead stores (tombstones.foldl putTombstone stores) := by
  induction tombstones generalizing stores with
  | nil => exact .refl stores
  | cons tomb rest ih => exact (putTombstone_keeps stores tomb).trans (ih _)

variable {stores : Stores}

theorem putTombstones_known {tombstones : List String}
    (known : ∀ tomb ∈ tombstones, tomb ∈ stores.tombstones.keys) :
    tombstones.foldl putTombstone stores = stores := by
  induction tombstones with
  | nil => rfl
  | cons tomb rest ih =>
    have x : stores.putTombstone tomb = stores := by
      have has := (SortedMap.contains_iff _ _).mpr (known tomb List.mem_cons_self)
      obtain ⟨v, h⟩ := isSome_iff_exists.mp has
      rw [putTombstone, SortedMap.insert_same h]
    rw [List.foldl_cons, x]
    exact ih fun y mem => known y (List.mem_cons_of_mem _ mem)

variable {surroundings env : ImportSurroundings} {cryptoComp : BackupCryptoPrecomputedData}
  {backupBlob : WalletBackupContentV1}

/-- The transaction puts the tombstones and the objects, and deletes what the tombstones name. -/
theorem importTransaction_passes {after : Stores}
    (r : stores.importTransaction env cryptoComp backupBlob = some after) :
    ∃ marked imported, marked = backupBlob.tombstones.foldl putTombstone stores ∧
      marked.importObjects env cryptoComp backupBlob = some imported ∧
      marked.tombstones.keys.foldlM processTombstone imported = some after := by
  obtain ⟨imported, objects, deletions⟩ := bind_eq_some_iff.mp r
  exact ⟨_, imported, rfl, objects, deletions⟩

theorem tombstoned_of_keys : ∀ tomb ∈ stores.tombstones.keys, ∀ tag id, Names tomb tag id →
      stores.Tombstoned tag id := fun tomb mem _ _ names => ⟨tomb, mem, names⟩

theorem importTransaction_spec {after : Stores}
    (r : stores.importTransaction env cryptoComp backupBlob = some after) :
    KeptUnless after.Tombstoned stores after ∧ (∀ tomb, tomb ∈ after.tombstones.keys ↔
        tomb ∈ stores.tombstones.keys ∨ tomb ∈ backupBlob.tombstones) ∧
      ∀ tag id, after.Tombstoned tag id → after.Absent tag id := by
  obtain ⟨marked, imported, isMarked, objects, deletions⟩ := importTransaction_passes r
  have settles := @importObjects_settles marked.Tombstoned env env cryptoComp backupBlob
  have grown : Grown marked.Tombstoned marked after := by
    apply IsTrans.trans _ imported
    · exact settles.firstGrows objects
    · exact processTombstones_keep tombstoned_of_keys deletions
  have sameTombstoned : after.Tombstoned = marked.Tombstoned := by
    funext tag id
    rw [Tombstoned, Tombstoned, grown.tombstones]
  refine ⟨?_, ?_, ?_⟩
  · rw [sameTombstoned]
    refine KeptUnless.trans ?_ grown.kept
    rw [isMarked]
    exact putTombstones_keep _ stores
  · intro tomb
    rw [grown.tombstones, isMarked]
    exact mem_putTombstones_iff _ stores tomb
  rintro tag id ⟨tomb, mem, names⟩
  rw [grown.tombstones] at mem
  exact processTombstones_absent deletions mem names

theorem importTransaction_twice {once twice : Stores} {later : ImportSurroundings}
    (x : stores.importTransaction env cryptoComp backupBlob = some once)
    (y : once.importTransaction later cryptoComp backupBlob = some twice) : twice = once := by
  have onceSpec := importTransaction_spec x
  have twiceSpec := importTransaction_spec y
  obtain ⟨marked, imported, isMarked, objects, deletions⟩ := importTransaction_passes x
  obtain ⟨marked', imported', isMarked', objects', deletions'⟩ := importTransaction_passes y
  -- the second run finds the tombstones that the first one has put
  have known := putTombstones_known fun tomb mem =>
    (onceSpec.2.1 tomb).mpr (.inr mem)
  rw [known] at isMarked'
  cases isMarked'
  have settles := @importObjects_settles once.Tombstoned env later cryptoComp backupBlob
  have markedGrown : Grown once.Tombstoned marked imported := settles.firstGrows objects
  have shrunk : Grown once.Tombstoned once imported := processTombstones_shrink deletions
  have sameTombstones : marked.tombstones = once.tombstones :=
    markedGrown.tombstones.symm.trans shrunk.tombstones
  have kept : Grown once.Tombstoned imported once := by
    rw [sameTombstones] at deletions
    exact processTombstones_keep tombstoned_of_keys deletions
  -- so that its first pass adds only what its second pass deletes
  have back : Grown once.Tombstoned imported' once := settles.stable objects kept objects'
  have forth : Grown once.Tombstoned once imported' := settles.secondGrows objects'
  have shrunk' : Grown once.Tombstoned twice imported' := processTombstones_shrink deletions'
  have kept' : Grown once.Tombstoned imported' twice :=
    processTombstones_keep tombstoned_of_keys deletions'
  have toOnce : Grown once.Tombstoned twice once := IsTrans.trans _ _ _ shrunk' back
  have toTwice : Grown once.Tombstoned once twice := IsTrans.trans _ _ _ forth kept'
  apply toOnce.kept.antisymm toTwice.kept
  · rintro tag id ⟨tomb, mem, names⟩
    rw [← toTwice.tombstones] at mem
    exact twiceSpec.2.2 tag id ⟨tomb, mem, names⟩
  · exact onceSpec.2.2

end Stores

/-! Imports of any blobs, one after the other. -/

structure ImportCall where
  provided : WalletBackupConfState
  surroundings : ImportSurroundings
  cryptoComp : BackupCryptoPrecomputedData
  backupBlob : WalletBackupContentV1

def ImportCall.perform (call : ImportCall) (stores : Stores) : Stores × Bool :=
  stores.importBackup call.provided call.surroundings call.cryptoComp call.backupBlob

namespace Stores

def importAll (stores : Stores) (calls : List ImportCall) : Stores :=
  calls.foldl (fun stores call => (call.perform stores).1) stores

def withConfig (stores : Stores) (provided : WalletBackupConfState) : Stores :=
  { stores with config := some (stores.config.getD provided) }

theorem withConfig_keeps {dead : TombstoneTag → String → Prop} (stores : Stores)
    (provided : WalletBackupConfState) : KeptUnless dead stores (stores.withConfig provided) := by
  have config : ∀ conf, stores.config = some conf →
      (stores.withConfig provided).config = some conf := by
    intro conf eq
    rw [withConfig, eq]
    rfl
  exact { KeptUnless.refl stores with config := config }

theorem withConfig_same {stores : Stores} (provided : WalletBackupConfState)
    (has : stores.config.isSome) : stores.withConfig provided = stores := by
  obtain ⟨conf, eq⟩ := isSome_iff_exists.mp has
  have kept : some (stores.config.getD provided) = stores.config := by
    rw [eq]
    rfl
  rw [withConfig, kept]

/-- An import has thrown and left the stores as it has found them, or its transaction is done. -/
theorem perform_cases (stores : Stores) (call : ImportCall) :
    call.perform stores = (stores.withConfig call.provided, false) ∨
      ∃ after, (stores.withConfig call.provided).importTransaction call.surroundings call.cryptoComp
        call.backupBlob = some after ∧ call.perform stores = (after, true) := by
  cases r : (stores.withConfig call.provided).importTransaction call.surroundings
      call.cryptoComp call.backupBlob with
  | none =>
    left
    dsimp only [withConfig] at r
    simp only [ImportCall.perform, importBackup, r]
    rfl
  | some after =>
    right
    refine ⟨after, rfl, ?_⟩
    dsimp only [withConfig] at r
    simp only [ImportCall.perform, importBackup, r]

theorem perform_keeps (stores : Stores) (call : ImportCall) :
    KeptUnless (call.perform stores).1.Tombstoned stores (call.perform stores).1 := by
  rcases perform_cases stores call with thrown | ⟨after, r, done⟩
  · rw [thrown]
    exact withConfig_keeps stores call.provided
  · rw [done]
    exact (withConfig_keeps stores call.provided).trans (importTransaction_spec r).1

theorem perform_absent {stores : Stores} (call : ImportCall) {tomb : String}
    (mem : tomb ∈ stores.tombstones.keys) {tag : TombstoneTag} {id : String}
    (names : Names tomb tag id) (gone : stores.Absent tag id) :
    tomb ∈ (call.perform stores).1.tombstones.keys ∧ (call.perform stores).1.Absent tag id := by
  rcases perform_cases stores call with thrown | ⟨after, r, done⟩
  · rw [thrown]
    exact ⟨mem, by cases tag <;> exact gone⟩
  rw [done]
  obtain ⟨_, keys, clean⟩ := importTransaction_spec r
  have later : tomb ∈ after.tombstones.keys := (keys tomb).mpr (.inl mem)
  exact ⟨later, clean tag id ⟨tomb, later, names⟩⟩

theorem importAll_absent {stores : Stores} (calls : List ImportCall) {tomb : String}
    (mem : tomb ∈ stores.tombstones.keys) {tag : TombstoneTag} {id : String}
    (names : Names tomb tag id) (gone : stores.Absent tag id) :
    (stores.importAll calls).Absent tag id := by
  induction calls generalizing stores with
  | nil => exact gone
  | cons call rest ih =>
    obtain ⟨mem, gone⟩ := perform_absent call mem names gone
    exact ih mem gone

/-- An import keeps all that is not tombstoned; when it has not thrown, what a known or an
imported tombstone names is gone for this and every later import, and importing the blob again
changes nothing; when it has thrown, at most a configuration has been provided. -/
theorem importBackup_merges (stores : Stores) (call : ImportCall) :
    KeptUnless (call.perform stores).1.Tombstoned stores (call.perform stores).1 ∧
      ((call.perform stores).2 = true →
        (∀ tombstone, tombstone ∈ stores.tombstones.keys ∨ tombstone ∈ call.backupBlob.tombstones →
          ∀ tag id, Names tombstone tag id →
            ∀ later, ((call.perform stores).1.importAll later).Absent tag id) ∧
        ∀ provided surroundings,
          (({ call with provided, surroundings } : ImportCall).perform (call.perform stores).1).1 =
            (call.perform stores).1) ∧ ((call.perform stores).2 = false → (call.perform stores).1 =
          { stores with config := some (stores.config.getD call.provided) }) := by
  refine ⟨perform_keeps stores call, ?_, ?_⟩
  · intro finished
    rcases perform_cases stores call with thrown | ⟨once, performed, done⟩
    · rw [thrown] at finished
      cases finished
    · rw [done]
      obtain ⟨kept, keys, clean⟩ := importTransaction_spec performed
      refine ⟨?_, ?_⟩
      · intro tombstone known tag id names later
        have member : tombstone ∈ once.tombstones.keys := (keys tombstone).mpr known
        exact importAll_absent later member names (clean tag id ⟨tombstone, member, names⟩)
      · intro provided surroundings
        have present : once.config.isSome := by
          rw [kept.config _ rfl]
          rfl
        rcases perform_cases once { call with provided, surroundings } with thrown | second
        · rw [thrown]
          exact withConfig_same provided present
        · obtain ⟨twice, performed', done'⟩ := second
          rw [done']
          rw [withConfig_same provided present] at performed'
          exact importTransaction_twice performed performed'
  · intro thrown
    rcases perform_cases stores call with left | ⟨after, _, done⟩
    · rw [left]
      rfl
    · rw [done] at thrown
      cases thrown

/-! A wallet with a tip, as it is after a restore. -/

def exampleConf : WalletBackupConfState where
  deviceId := "D"
  walletRootPub := "P"
  walletRootPriv := "S"
  lastBackupPlainHash := none
  lastBackupTimestamp := none
  lastBackupNonce := none

def exampleTip : TipRecord where
  lastError := none
  acceptedTimestamp := none
  tipAmountRaw := .getZero "KUDOS"
  tipAmountEffective := .getZero "KUDOS"
  tipExpiration := .never
  exchangeBaseUrl := "https://exchange/"
  merchantBaseUrl := "https://merchant/"
  denomsSel := ⟨.getZero "KUDOS", .getZero "KUDOS", []⟩
  denomSelUid := "U"
  walletTipId := "T"
  secretSeed := "SEED"
  merchantTipId := "M"
  createdTimestamp := .at 0
  pickedUpTimestamp := none
  retryInfo := initRetryInfo 0

def tipWallet : Stores :=
  { Stores.empty with
    config := some exampleConf
    tips := SortedMap.empty.insert "T" exampleTip }

def exampleCryptoComp : BackupCryptoPrecomputedData where
  rsaDenomPubToHash := .empty
  coinPrivToCompletedCoin := .empty
  proposalNoncePrivToPub := .empty
  proposalIdToContractTermsHash := .empty
  reservePrivToPub := .empty

def tipImport : ImportCall where
  provided := exampleConf
  surroundings := ⟨0, fun _ => none⟩
  cryptoComp := exampleCryptoComp
  backupBlob := tipWallet.backupContent exampleConf .never

def deletedTip : Stores := (tipWallet.delete .deleteTip "T").putTombstone "delete-tip:T"

theorem importBackup_merges_deletedTip : (tipImport.perform deletedTip).2 = true ∧
      ∀ later, ((tipImport.perform deletedTip).1.importAll later).Absent .deleteTip "T" := by
  have finished : (tipImport.perform deletedTip).2 = true := by decide
  have names : Names "delete-tip:T" .deleteTip "T" := by
    rw [Names]
    decide
  exact ⟨finished, ((importBackup_merges deletedTip tipImport).2.1 finished).1 "delete-tip:T"
    (.inl (by decide)) .deleteTip "T" names⟩

/-- The import of an exported blob into an unused wallet throws, and leaves a configuration. -/
theorem importBackup_leaves_config : (tipImport.perform Stores.empty).2 = false ∧
      (tipImport.perform Stores.empty).1 ≠ Stores.empty := by
  refine ⟨by decide, ?_⟩
  intro same
  have config := congrArg Stores.config same
  cases config

end Stores

end Anastasis.Wallet.Backup
