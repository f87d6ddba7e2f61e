import Anastasis.Wallet.Backup.Contents
import Anastasis.Wallet.Backup.MergeLaws

/-! The first pass of an import as a chain of single puts. -/

set_option autoImplicit false

namespace Anastasis.Wallet.Backup

open Library Relation Option

structure WalletBackupContentV1.Regular (content : WalletBackupContentV1) : Prop where
  tombstones : content.tombstones = []
  unrestricted : content.Unrestricted
  nonces : ∀ proposal ∈ content.proposals, proposal.proposalId = proposal.noncePriv

/-- An object of the content that is absent and not tombstoned is put. -/
inductive Puts (keys : BackupKeys) (content : WalletBackupContentV1) : Stores → Stores → Prop where
  | exchange {stores : Stores} {record : ExchangeRecord} {key} :
      key = record.baseUrl →
      stores.exchanges.get? key = none → record.detailsPointer.isSome →
      Puts keys content stores
        { stores with exchanges := stores.exchanges.insert key record }
  | exchangeDetails {stores : Stores} {record : ExchangeDetailsRecord} {key} :
      key = exchangeDetailsKey record.exchangeBaseUrl record.currency record.masterPublicKey →
      stores.exchangeDetails.get? key = none →
      Puts keys content stores
        { stores with exchangeDetails := stores.exchangeDetails.insert key record }
  | denomination {stores : Stores} {record : DenominationRecord} {key} :
      key = denominationKey record.exchangeBaseUrl record.denomPubHash →
      stores.denominations.get? key = none →
      keys.hashDenomPub record.denomPub = some record.denomPubHash →
      record.denomPub.ageMask = none →
      Puts keys content stores
        { stores with denominations := stores.denominations.insert key record }
  | coin {stores : Stores} {record : CoinRecord} {currency masterPublicKey : String} {key} :
      key = record.coinPub →
      stores.coins.get? key = none →
      keys.eddsaGetPublic record.coinPriv = some record.coinPub →
      stores.denominations.contains
        (denominationKey record.exchangeBaseUrl record.denomPubHash) →
      stores.exchangeDetails.contains
        (exchangeDetailsKey record.exchangeBaseUrl currency masterPublicKey) →
      Puts keys content stores
        { stores with coins := stores.coins.insert key record }
  | reserve {stores : Stores} {record : ReserveRecord} {currency masterPublicKey : String} {key} :
      key = record.reservePub →
      stores.reserves.get? key = none →
      ¬ stores.isTombstoned .deleteReserve record.reservePub →
      keys.eddsaGetPublic record.reservePriv = some record.reservePub →
      stores.exchangeDetails.contains
        (exchangeDetailsKey record.exchangeBaseUrl currency masterPublicKey) →
      Puts keys content stores
        { stores with reserves := stores.reserves.insert key record }
  | withdrawalGroup {stores : Stores} {record : WithdrawalGroupRecord} {key} :
      key = record.withdrawalGroupId →
      stores.withdrawalGroups.get? key = none →
      ¬ stores.isTombstoned .deleteWithdrawalGroup record.withdrawalGroupId →
      ¬ stores.isTombstoned .deleteReserve record.reservePub →
      stores.reserves.contains record.reservePub →
      content.Has keys (.reserve record.reservePub) →
      Puts keys content stores
        { stores with
          withdrawalGroups := stores.withdrawalGroups.insert key record }
  | proposal {stores : Stores} {record : ProposalRecord} {key} :
      key = record.proposalId →
      stores.proposals.get? key = none →
      ¬ stores.isTombstoned .deletePayment record.proposalId →
      record.noncePriv = record.proposalId → record.proposalStatus ≠ .accepted →
      Puts keys content stores
        { stores with proposals := stores.proposals.insert key record }
  | purchase {stores : Stores} {record : PurchaseRecord} {key} :
      key = record.proposalId →
      stores.purchases.get? key = none →
      ¬ stores.isTombstoned .deletePayment record.proposalId →
      content.Has keys (.purchase record.proposalId) →
      Puts keys content stores
        { stores with purchases := stores.purchases.insert key record }
  | refreshGroup {stores : Stores} {record : RefreshGroupRecord} {key} :
      key = record.refreshGroupId →
      stores.refreshGroups.get? key = none →
      ¬ stores.isTombstoned .deleteRefreshGroup record.refreshGroupId →
      Puts keys content stores
        { stores with
          refreshGroups := stores.refreshGroups.insert key record }
  | tip {stores : Stores} {record : TipRecord} {key} :
      key = record.walletTipId →
      stores.tips.get? key = none →
      ¬ stores.isTombstoned .deleteTip record.walletTipId →
      Puts keys content stores
        { stores with tips := stores.tips.insert key record }

variable {keys : BackupKeys} {content : WalletBackupContentV1}

theorem Puts.grows {dead : TombstoneTag → String → Prop} {before after : Stores}
    (put : Puts keys content before after) : Grown dead before after := by
  cases put with
  | exchange _ absent => exact Grown.exchangesPart.grow (.insertAbsent absent _)
  | exchangeDetails _ absent => exact Grown.exchangeDetailsPart.grow (.insertAbsent absent _)
  | denomination _ absent => exact Grown.denominationsPart.grow (.insertAbsent absent _)
  | coin _ absent => exact Grown.coinsPart.grow (.insertAbsent absent _)
  | reserve _ absent => exact Grown.reservesPart.grow (.insertAbsent absent _)
  | withdrawalGroup _ absent => exact Grown.withdrawalGroupsPart.grow (.insertAbsent absent _)
  | proposal _ absent => exact Grown.proposalsPart.grow (.insertAbsent absent _)
  | purchase _ absent => exact Grown.purchasesPart.grow (.insertAbsent absent _)
  | refreshGroup _ absent => exact Grown.refreshGroupsPart.grow (.insertAbsent absent _)
  | tip _ absent => exact Grown.tipsPart.grow (.insertAbsent absent _)

theorem puts_grow {dead : TombstoneTag → String → Prop} {before after : Stores}
    (puts : ReflTransGen (Puts keys content) before after) : Grown dead before after := by
  induction puts with
  | refl => exact refl_of (Grown dead) before
  | tail _ last ih => exact IsTrans.trans _ _ _ ih last.grows

theorem puts_backupProviders {pre after : Stores}
    (puts : ReflTransGen (Puts keys content) pre after) :
    after.backupProviders = pre.backupProviders := by
  induction puts with
  | refl => rfl
  | tail _ last ih =>
    rw [← ih]
    cases last <;> rfl

namespace Stores

theorem importExchange_puts (stores : Stores) (now : Nat) (backupExchange : BackupExchange) :
    ReflTransGen (Puts keys content) stores (stores.importExchange now backupExchange) := by
  rw [importExchange]
  split
  next => exact .refl
  next gone =>
    apply ReflTransGen.single
    apply Puts.exchange
    · rfl
    · exact not_isSome_iff_eq_none.mp gone
    · rfl

theorem importExchangeDetails_puts (stores : Stores) (backup : BackupExchangeDetails) :
    ReflTransGen (Puts keys content) stores (stores.importExchangeDetails backup) := by
  rw [importExchangeDetails]
  split
  next => exact .refl
  next gone =>
    apply ReflTransGen.single
    apply Puts.exchangeDetails
    · rfl
    · exact not_isSome_iff_eq_none.mp gone

theorem importDenomination_puts (stores : Stores) (dt : BackupExchangeDetails)
    {hash : String} {backupDenomination : BackupDenomination}
    (isHash : keys.hashDenomPub backupDenomination.denomPub = some hash)
    (unrestricted : backupDenomination.denomPub.ageMask = none) :
    ReflTransGen (Puts keys content) stores
      (stores.importDenomination dt hash backupDenomination) := by
  rw [importDenomination]
  split
  next => exact .refl
  next gone =>
    apply ReflTransGen.single
    apply Puts.denomination
    · rfl
    · exact not_isSome_iff_eq_none.mp gone
    · exact isHash
    · exact unrestricted

variable {url : String}

theorem importCoin_puts {stores : Stores} {cur masterPublicKey : String}
    {denomPub : DenominationPubKey} {hash : String} {compCoin : CompletedCoin}
    {backupCoin : BackupCoin}
    (isPub : keys.eddsaGetPublic backupCoin.coinPriv = some compCoin.coinPub)
    (denom : stores.denominations.contains (denominationKey url hash))
    (dt : stores.exchangeDetails.contains (exchangeDetailsKey url cur masterPublicKey)) :
    ReflTransGen (Puts keys content) stores
      (stores.importCoin url denomPub hash compCoin backupCoin) := by
  rw [importCoin]
  split
  next => exact .refl
  next gone =>
    apply ReflTransGen.single
    apply Puts.coin
    · rfl
    · exact not_isSome_iff_eq_none.mp gone
    · exact isPub
    · exact denom
    · exact dt

theorem importDenominationWithCoins_puts {stores after : Stores}
    {cryptoComp : BackupCryptoPrecomputedData} {dt : BackupExchangeDetails}
    {backupDenomination : BackupDenomination} (sound : cryptoComp.Sound keys)
    (unrestricted : backupDenomination.denomPub.ageMask = none)
    (has : stores.exchangeDetails.contains
      (exchangeDetailsKey dt.baseUrl dt.currency dt.masterPublicKey))
    (r : stores.importDenominationWithCoins cryptoComp dt backupDenomination =
      some after) : ReflTransGen (Puts keys content) stores after := by
  rw [importDenominationWithCoins] at r
  split at r
  next => cases r
  next rsa =>
    obtain ⟨denomPubHash, isHash, cs⟩ := bind_eq_some_iff.mp r
    have isKey : backupDenomination.denomPub =
        ⟨1, backupDenomination.denomPub.rsaPublicKey, none⟩ := by
      rw [← unrestricted, ← not_not.mp rsa]
    have hashes : keys.hashDenomPub backupDenomination.denomPub = some denomPubHash := by
      rw [isKey]
      exact sound.denominations _ _ isHash
    let start := stores.importDenomination dt denomPubHash backupDenomination
    have x : ReflTransGen (Puts keys content) stores start :=
      importDenomination_puts stores dt hashes unrestricted
    have denom : start.denominations.contains (denominationKey dt.baseUrl denomPubHash) := by
      have done := PutsOnce.done (@Grown.denominationsPart fun _ _ => False)
        (importDenomination_once dt denomPubHash backupDenomination)
        (show some (stores.importDenomination dt denomPubHash backupDenomination) =
          some start from rfl)
      exact done.resolve_left (by simp)
    refine x.trans (foldlM_preserves (fun backupCoin _ before after one before_puts => ?_) cs .refl)
    obtain ⟨compCoin, isComp, isAfter⟩ := bind_eq_some_iff.mp one
    cases isAfter
    have grownStart : Grown (fun _ _ => False) start before := puts_grow before_puts
    have grown : Grown (fun _ _ => False) stores before :=
      IsTrans.trans _ _ _ (puts_grow x) grownStart
    exact before_puts.trans (importCoin_puts (sound.coins _ _ isComp)
      (grownStart.kept.denominations.contains denom)
      (grown.kept.exchangeDetails.contains has))

variable {now : Nat}

theorem importWithdrawalGroup_puts {stores after : Stores} {pub : String}
    {backupWg : BackupWithdrawalGroup} (alive : ¬ stores.isTombstoned .deleteReserve pub)
    (rv : stores.reserves.contains pub) (inContent : content.Has keys (.reserve pub))
    (r : stores.importWithdrawalGroup now url pub backupWg = some after) :
    ReflTransGen (Puts keys content) stores after := by
  rw [importWithdrawalGroup] at r
  split at r
  next =>
    cases r
    exact .refl
  next notTombstoned =>
  split at r
  next =>
    cases r
    exact .refl
  next gone =>
    obtain ⟨denomsSel, _, put⟩ := bind_eq_some_iff.mp r
    cases put
    apply ReflTransGen.single
    apply Puts.withdrawalGroup
    · rfl
    · exact not_isSome_iff_eq_none.mp gone
    · exact notTombstoned
    · exact alive
    · exact rv
    · exact inContent

theorem importReserveRecord_puts {stores after : Stores}
    {cur masterPublicKey pub : String} {backupReserve : BackupReserve}
    (alive : ¬ stores.isTombstoned .deleteReserve pub)
    (isPub : keys.eddsaGetPublic backupReserve.reservePriv = some pub)
    (dt : stores.exchangeDetails.contains (exchangeDetailsKey url cur masterPublicKey))
    (r : stores.importReserveRecord now url pub backupReserve = some after) :
    ReflTransGen (Puts keys content) stores after := by
  rw [importReserveRecord] at r
  split at r
  next =>
    cases r
    exact .refl
  next gone =>
    obtain ⟨initialDenomSel, _, put⟩ := bind_eq_some_iff.mp r
    cases put
    apply ReflTransGen.single
    apply Puts.reserve
    · rfl
    · exact not_isSome_iff_eq_none.mp gone
    · exact alive
    · exact isPub
    · exact dt

theorem importReserve_puts {stores after : Stores} {cryptoComp : BackupCryptoPrecomputedData}
    {dt : BackupExchangeDetails} {backupReserve : BackupReserve}
    (sound : cryptoComp.Sound keys) (inContent : dt ∈ content.exchangeDetails)
    (inDetails : backupReserve ∈ dt.reserves)
    (has : stores.exchangeDetails.contains (exchangeDetailsKey dt.baseUrl dt.currency
      dt.masterPublicKey))
    (ran : stores.importReserve now cryptoComp dt.baseUrl backupReserve = some after) :
    ReflTransGen (Puts keys content) stores after := by
  rw [importReserve] at ran
  split at ran
  next =>
    cases ran
    exact .refl
  next alive =>
    obtain ⟨reservePub, isReserve, ran⟩ := bind_eq_some_iff.mp ran
    obtain ⟨start, r, groups⟩ := bind_eq_some_iff.mp ran
    rw [isReserve] at alive
    have isPub := sound.reserves _ _ isReserve
    have x : ReflTransGen (Puts keys content) stores start :=
      importReserveRecord_puts alive isPub has r
    have rv : start.reserves.contains reservePub := by
      have done := PutsOnce.done (@Grown.reservesPart fun _ _ => False)
        (importReserveRecord_once now dt.baseUrl reservePub backupReserve) r
      exact done.resolve_left (by simp)
    refine x.trans (foldlM_preserves (fun backupWg _ before after one before_puts => ?_)
      groups .refl)
    have grownStart : Grown (fun _ _ => False) start before := puts_grow before_puts
    have grown : Grown (fun _ _ => False) stores before :=
      IsTrans.trans _ _ _ (puts_grow x) grownStart
    have aliveBefore : ¬ before.isTombstoned .deleteReserve reservePub := by
      rw [isTombstoned, grown.tombstones]
      exact alive
    exact before_puts.trans (importWithdrawalGroup_puts aliveBefore
      (grownStart.kept.reserves.contains rv) ⟨dt, inContent, backupReserve, inDetails, isPub⟩ one)

theorem importExchangeDetailsWithContents_puts {stores after : Stores}
    {cryptoComp : BackupCryptoPrecomputedData} {dt : BackupExchangeDetails}
    (sound : cryptoComp.Sound keys) (regular : content.Regular)
    (inContent : dt ∈ content.exchangeDetails)
    (r : stores.importExchangeDetailsWithContents now cryptoComp dt = some after) :
    ReflTransGen (Puts keys content) stores after := by
  obtain ⟨between, ds, reserves⟩ := bind_eq_some_iff.mp r
  let start := stores.importExchangeDetails dt
  have x : ReflTransGen (Puts keys content) stores start := importExchangeDetails_puts stores dt
  have has : start.exchangeDetails.contains
      (exchangeDetailsKey dt.baseUrl dt.currency dt.masterPublicKey) := by
    have done := PutsOnce.done (@Grown.exchangeDetailsPart fun _ _ => False)
      (importExchangeDetails_once dt)
      (show some (stores.importExchangeDetails dt) = some start from rfl)
    exact done.resolve_left nofun
  have stays : ∀ {later : Stores}, ReflTransGen (Puts keys content) start later →
      later.exchangeDetails.contains
        (exchangeDetailsKey dt.baseUrl dt.currency dt.masterPublicKey) := by
    intro later puts
    have grown : Grown (fun _ _ => False) start later := puts_grow puts
    exact grown.kept.exchangeDetails.contains has
  have y : ReflTransGen (Puts keys content) start between :=
    foldlM_preserves (fun denom mem pre after one puts => puts.trans
      (importDenominationWithCoins_puts sound (regular.unrestricted dt inContent denom
        mem) (stays puts) one)) ds .refl
  have third : ReflTransGen (Puts keys content) start after :=
    foldlM_preserves (fun rv mem pre after one puts => puts.trans
      (importReserve_puts sound inContent mem (stays puts) one)) reserves y
  exact x.trans third

theorem importProposalStatus_notAccepted (st : BackupProposalStatus) (hasContractTerms : Bool) :
    importProposalStatus st hasContractTerms ≠ .accepted := by
  cases st <;> cases hasContractTerms <;> nofun

theorem importProposal_puts {stores after : Stores} {env : ImportSurroundings}
    {cryptoComp : BackupCryptoPrecomputedData} {backupProposal : BackupProposal}
    (nonce : backupProposal.proposalId = backupProposal.noncePriv)
    (r : stores.importProposal env cryptoComp backupProposal = some after) :
    ReflTransGen (Puts keys content) stores after := by
  rw [importProposal] at r
  split at r
  next =>
    cases r
    exact .refl
  next alive =>
  split at r
  next =>
    cases r
    exact .refl
  next gone =>
    obtain ⟨download, _, put⟩ := bind_eq_some_iff.mp r
    cases put
    apply ReflTransGen.single
    apply Puts.proposal
    · rfl
    · exact not_isSome_iff_eq_none.mp gone
    · exact alive
    · exact nonce.symm
    · exact importProposalStatus_notAccepted _ _

theorem importPurchase_puts {stores after : Stores} {env : ImportSurroundings}
    {cryptoComp : BackupCryptoPrecomputedData} {backupPurchase : BackupPurchase}
    (inContent : backupPurchase ∈ content.purchases)
    (r : stores.importPurchase env cryptoComp backupPurchase = some after) :
    ReflTransGen (Puts keys content) stores after := by
  rw [importPurchase] at r
  split at r
  next =>
    cases r
    exact .refl
  next alive =>
  split at r
  next =>
    cases r
    exact .refl
  next gone =>
    obtain ⟨refunds, _, r⟩ := bind_eq_some_iff.mp r
    obtain ⟨download, _, r⟩ := bind_eq_some_iff.mp r
    obtain ⟨payCoinSelection, _, put⟩ := bind_eq_some_iff.mp r
    cases put
    apply ReflTransGen.single
    apply Puts.purchase
    · rfl
    · exact not_isSome_iff_eq_none.mp gone
    · exact alive
    · exact ⟨backupPurchase, inContent, rfl⟩

theorem importRefreshGroup_puts {stores after : Stores} {backupRefreshGroup : BackupRefreshGroup}
    (r : stores.importRefreshGroup now backupRefreshGroup = some after) :
    ReflTransGen (Puts keys content) stores after := by
  rw [importRefreshGroup] at r
  split at r
  next =>
    cases r
    exact .refl
  next alive =>
  split at r
  next =>
    cases r
    exact .refl
  next gone =>
    obtain ⟨oldCoins, _, put⟩ := bind_eq_some_iff.mp r
    cases put
    apply ReflTransGen.single
    apply Puts.refreshGroup
    · rfl
    · exact not_isSome_iff_eq_none.mp gone
    · exact alive

theorem importTip_puts {stores after : Stores} {backupTip : BackupTip}
    (r : stores.importTip now backupTip = some after) :
    ReflTransGen (Puts keys content) stores after := by
  rw [importTip] at r
  split at r
  next =>
    cases r
    exact .refl
  next alive =>
  split at r
  next =>
    cases r
    exact .refl
  next gone =>
    obtain ⟨denomsSel, _, put⟩ := bind_eq_some_iff.mp r
    cases put
    apply ReflTransGen.single
    apply Puts.tip
    · rfl
    · exact not_isSome_iff_eq_none.mp gone
    · exact alive

structure ImportStages (content : WalletBackupContentV1) (surroundings : ImportSurroundings)
    (cryptoComp : BackupCryptoPrecomputedData)
    (stores exchanges details proposals purchases refreshGroups after : Stores) : Prop where
  isExchanges : content.exchanges.foldl (importExchange · surroundings.now) stores = exchanges
  isDetails : content.exchangeDetails.foldlM (fun stores details =>
    stores.importExchangeDetailsWithContents surroundings.now cryptoComp details) exchanges =
      some details
  isProposals : content.proposals.foldlM (fun stores proposal =>
    stores.importProposal surroundings cryptoComp proposal) details = some proposals
  isPurchases : content.purchases.foldlM (fun stores purchase =>
    stores.importPurchase surroundings cryptoComp purchase) proposals = some purchases
  isRefreshGroups : content.refreshGroups.foldlM (fun stores refreshGroup =>
    stores.importRefreshGroup surroundings.now refreshGroup) purchases = some refreshGroups
  isTips : content.tips.foldlM (fun stores tip => stores.importTip surroundings.now tip)
    refreshGroups = some after

theorem importObjects_stages {stores after : Stores} {env : ImportSurroundings}
    {cryptoComp : BackupCryptoPrecomputedData}
    (r : stores.importObjects env cryptoComp content = some after) :
    ∃ exchanges details proposals purchases refreshGroups, ImportStages content env
      cryptoComp stores exchanges details proposals purchases refreshGroups after := by
  obtain ⟨details, isDetails, r⟩ := bind_eq_some_iff.mp r
  obtain ⟨proposals, isProposals, r⟩ := bind_eq_some_iff.mp r
  obtain ⟨purchases, isPurchases, r⟩ := bind_eq_some_iff.mp r
  obtain ⟨refreshGroups, isRefreshGroups, tips⟩ := bind_eq_some_iff.mp r
  exact ⟨_, details, proposals, purchases, refreshGroups, rfl, isDetails, isProposals, isPurchases,
    isRefreshGroups, tips⟩

theorem importExchanges_puts (exs : List BackupExchange) (now : Nat) (stores : Stores) :
    ReflTransGen (Puts keys content) stores (exs.foldl (importExchange · now) stores) := by
  induction exs generalizing stores with
  | nil => exact .refl
  | cons exchange rest ih => exact (importExchange_puts stores now exchange).trans (ih _)

section Stages

variable {stores exchanges exs details dt proposals purchases buys refreshGroups groups after : Stores}
  {surroundings env : ImportSurroundings} {cryptoComp : BackupCryptoPrecomputedData}

namespace ImportStages

variable (stages : ImportStages content surroundings cryptoComp stores exchanges details proposals
  purchases refreshGroups after)

include stages

theorem putsExchanges : ReflTransGen (Puts keys content) stores exchanges := by
  rw [← stages.isExchanges]
  exact importExchanges_puts _ _ _

theorem putsDetails (sound : cryptoComp.Sound keys) (regular : content.Regular) :
    ReflTransGen (Puts keys content) exchanges details :=
  foldlM_preserves (fun _ mem _ _ one puts => puts.trans
    (importExchangeDetailsWithContents_puts sound regular mem one)) stages.isDetails .refl

theorem putsProposals (regular : content.Regular) :
    ReflTransGen (Puts keys content) details proposals :=
  foldlM_preserves (fun prop mem _ _ one puts => puts.trans
    (importProposal_puts (regular.nonces prop mem) one)) stages.isProposals .refl

theorem putsPurchases : ReflTransGen (Puts keys content) proposals purchases :=
  foldlM_preserves (fun _ mem _ _ one puts => puts.trans (importPurchase_puts mem one))
    stages.isPurchases .refl

theorem putsRefreshGroups : ReflTransGen (Puts keys content) purchases refreshGroups :=
  foldlM_preserves (fun _ _ _ _ one puts => puts.trans (importRefreshGroup_puts one))
    stages.isRefreshGroups .refl

theorem putsTips : ReflTransGen (Puts keys content) refreshGroups after :=
  foldlM_preserves (fun _ _ _ _ one puts => puts.trans (importTip_puts one)) stages.isTips .refl

theorem puts (sound : cryptoComp.Sound keys) (regular : content.Regular) :
    ReflTransGen (Puts keys content) stores after :=
  stages.putsExchanges.trans <| (stages.putsDetails sound regular).trans <|
    (stages.putsProposals regular).trans <| stages.putsPurchases.trans <|
      stages.putsRefreshGroups.trans stages.putsTips

end ImportStages

end Stages

end Stores

end Anastasis.Wallet.Backup
