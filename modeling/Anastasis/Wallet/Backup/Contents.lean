import Anastasis.Wallet.Backup.CryptoData
import Anastasis.Wallet.Backup.Merge

/-! The objects of a backup, and which objects of the stores an export contains. -/

set_option autoImplicit false

namespace Anastasis.Wallet.Backup

open Library Option

inductive BackupObject where
  | exchange (baseUrl : String)
  | denomination (exchangeBaseUrl denomPubHash : String)
  | coin (coinPub : String)
  | reserve (reservePub : String)
  | withdrawalGroup (withdrawalGroupId : String)
  | proposal (proposalId : String)
  | purchase (proposalId : String)
  | refreshGroup (refreshGroupId : String)
  | recoupGroup (recoupGroupId : String)
  | tip (walletTipId : String)
  | backupProvider (baseUrl : String)

variable (keys : BackupKeys)

def WalletBackupContentV1.Has (content : WalletBackupContentV1) : BackupObject → Prop
  | .exchange baseUrl => ∃ exchange ∈ content.exchanges, exchange.baseUrl = baseUrl
  | .denomination exchangeBaseUrl denomPubHash =>
    ∃ details ∈ content.exchangeDetails, details.baseUrl = exchangeBaseUrl ∧
      ∃ denomination ∈ details.denominations,
        keys.hashDenomPub denomination.denomPub = some denomPubHash
  | .coin coinPub =>
    ∃ details ∈ content.exchangeDetails, ∃ denomination ∈ details.denominations,
      ∃ coin ∈ denomination.coins, keys.eddsaGetPublic coin.coinPriv = some coinPub
  | .reserve reservePub =>
    ∃ details ∈ content.exchangeDetails, ∃ reserve ∈ details.reserves,
      keys.eddsaGetPublic reserve.reservePriv = some reservePub
  | .withdrawalGroup withdrawalGroupId =>
    ∃ details ∈ content.exchangeDetails, ∃ reserve ∈ details.reserves,
      ∃ wg ∈ reserve.withdrawalGroups, wg.withdrawalGroupId = withdrawalGroupId
  | .proposal proposalId => ∃ proposal ∈ content.proposals, proposal.proposalId = proposalId
  | .purchase proposalId => ∃ purchase ∈ content.purchases, purchase.proposalId = proposalId
  | .refreshGroup refreshGroupId =>
    ∃ refreshGroup ∈ content.refreshGroups, refreshGroup.refreshGroupId = refreshGroupId
  | .recoupGroup recoupGroupId =>
    ∃ recoupGroup ∈ content.recoupGroups, recoupGroup.recoupGroupId = recoupGroupId
  | .tip walletTipId => ∃ tip ∈ content.tips, tip.walletTipId = walletTipId
  | .backupProvider baseUrl => ∃ provider ∈ content.backupProviders, provider.baseUrl = baseUrl

namespace Stores

variable (stores : Stores)

/-- Denominations and reserves are exported with the details of their exchange. -/
def HasDetails (exchangeBaseUrl : String) : Prop :=
  ∃ key details, stores.exchangeDetails.get? key = some details ∧
    details.exchangeBaseUrl = exchangeBaseUrl

def HasDenomination (denomPubHash : String) : Prop :=
  ∃ key denom, stores.denominations.get? key = some denom ∧ denom.denomPubHash = denomPubHash ∧
    stores.HasDetails denom.exchangeBaseUrl

def HasReserve (reservePub : String) : Prop :=
  ∃ key reserve, stores.reserves.get? key = some reserve ∧ reserve.reservePub = reservePub ∧
    stores.HasDetails reserve.exchangeBaseUrl

def Exports : BackupObject → Prop
  | .exchange baseUrl => ∃ key record, stores.exchanges.get? key = some record ∧
      record.baseUrl = baseUrl ∧ record.detailsPointer.isSome
  | .denomination exchangeBaseUrl denomPubHash => stores.HasDetails exchangeBaseUrl ∧
      ∃ key denom, stores.denominations.get? key = some denom ∧
        denom.exchangeBaseUrl = exchangeBaseUrl ∧
        keys.hashDenomPub denom.denomPub = some denomPubHash
  | .coin coinPub => ∃ key coin, stores.coins.get? key = some coin ∧
      keys.eddsaGetPublic coin.coinPriv = some coinPub ∧ stores.HasDenomination coin.denomPubHash
  | .reserve reservePub => ∃ key reserve, stores.reserves.get? key = some reserve ∧
      keys.eddsaGetPublic reserve.reservePriv = some reservePub ∧
      stores.HasDetails reserve.exchangeBaseUrl
  | .withdrawalGroup withdrawalGroupId => ∃ key wg, stores.withdrawalGroups.get? key = some wg ∧
      wg.withdrawalGroupId = withdrawalGroupId ∧ stores.HasReserve wg.reservePub
  | .proposal proposalId => ∃ key prop, stores.proposals.get? key = some prop ∧
      prop.noncePriv = proposalId ∧ prop.proposalStatus ≠ .accepted ∧
      ∀ key purch, stores.purchases.get? key = some purch → purch.proposalId ≠ prop.proposalId
  | .purchase proposalId => ∃ key purch, stores.purchases.get? key = some purch ∧
      purch.proposalId = proposalId
  | .refreshGroup refreshGroupId => ∃ key rg, stores.refreshGroups.get? key = some rg ∧
      rg.refreshGroupId = refreshGroupId
  | .recoupGroup recoupGroupId => ∃ key recoupGroup,
      stores.recoupGroups.get? key = some recoupGroup ∧ recoupGroup.recoupGroupId = recoupGroupId
  | .tip walletTipId => ∃ key tip, stores.tips.get? key = some tip ∧ tip.walletTipId = walletTipId
  | .backupProvider baseUrl => ∃ key bp, stores.backupProviders.get? key = some bp ∧
      bp.baseUrl = baseUrl

end Stores

section

variable {keys} {stores : Stores} {bs : WalletBackupConfState} {timestamp : Timestamp}

theorem mem_backupExchangeDetails_iff {details : BackupExchangeDetails} :
    details ∈ (stores.backupContent bs timestamp).exchangeDetails ↔
      ∃ key ex, stores.exchangeDetails.get? key = some ex ∧
        exportExchangeDetails (stores.backupDenominations ex.exchangeBaseUrl)
          (stores.backupReserves ex.exchangeBaseUrl) ex = details := by
  rw [← @exists_eq_right _ (· ∈ (stores.backupContent bs timestamp).exchangeDetails)]
  exact SortedMap.exists_map_values_iff

theorem mem_backupDenominations_iff {url : String} {denomination : BackupDenomination} :
    denomination ∈ stores.backupDenominations url ↔
      ∃ key dn, stores.denominations.get? key = some dn ∧ dn.exchangeBaseUrl = url ∧
        exportDenomination (stores.backupCoins dn.denomPubHash) dn = denomination :=
  SortedMap.mem_selected_iff

theorem mem_backupCoins_iff {hash : String} {coin : BackupCoin} : coin ∈ stores.backupCoins hash ↔
      ∃ key r, stores.coins.get? key = some r ∧ r.denomPubHash = hash ∧
        exportCoin r = coin := SortedMap.mem_selected_iff

theorem mem_backupReserves_iff {url : String} {reserve : BackupReserve} :
    reserve ∈ stores.backupReserves url ↔ ∃ key r, stores.reserves.get? key = some r ∧
        r.exchangeBaseUrl = url ∧
        exportReserve (stores.backupWithdrawalGroups r.reservePub) r = reserve :=
  SortedMap.mem_selected_iff

theorem mem_backupWithdrawalGroups_iff {pub : String} {wg : BackupWithdrawalGroup} :
    wg ∈ stores.backupWithdrawalGroups pub ↔ ∃ key r, stores.withdrawalGroups.get? key = some r ∧
        r.reservePub = pub ∧ exportWithdrawalGroup r = wg := SortedMap.mem_selected_iff

theorem mem_backupProposals_iff {proposal : BackupProposal} : proposal ∈ stores.backupProposals ↔
      ∃ key prop, stores.proposals.get? key = some prop ∧
        (∀ key purch, stores.purchases.get? key = some purch →
          purch.proposalId ≠ prop.proposalId) ∧ exportProposal prop = some proposal := by
  have r : ∀ prop : ProposalRecord,
      (stores.purchases.values.all fun purch => purch.proposalId ≠ prop.proposalId) = true ↔
        ∀ key purch, stores.purchases.get? key = some purch →
          purch.proposalId ≠ prop.proposalId := by
    intro prop
    rw [List.all_eq_true]
    constructor
    · intro each key purch h
      exact of_decide_eq_true (each purch (SortedMap.mem_values_iff.mpr ⟨key, h⟩))
    intro each purch mem
    obtain ⟨key, h⟩ := SortedMap.mem_values_iff.mp mem
    exact decide_eq_true (each key purch h)
  constructor
  · intro mem
    obtain ⟨prop, isProp, exported⟩ := List.mem_filterMap.mp mem
    obtain ⟨isProp, unpaid⟩ := List.mem_filter.mp isProp
    obtain ⟨key, h⟩ := SortedMap.mem_values_iff.mp isProp
    exact ⟨key, prop, h, (r prop).mp unpaid, exported⟩
  rintro ⟨key, prop, h, unpaid, exported⟩
  exact List.mem_filterMap.mpr ⟨prop, List.mem_filter.mpr
    ⟨SortedMap.mem_values_iff.mpr ⟨key, h⟩, (r prop).mpr unpaid⟩, exported⟩

theorem exportProposal_isSome {prop : ProposalRecord} (notAccepted : prop.proposalStatus ≠ .accepted) :
    ∃ proposal, exportProposal prop = some proposal ∧ proposal.proposalId = prop.noncePriv := by
  cases status : prop.proposalStatus with
  | accepted => exact absurd status notAccepted
  | downloading => exact ⟨_, by rw [exportProposal, status]; rfl, rfl⟩
  | proposed => exact ⟨_, by rw [exportProposal, status]; rfl, rfl⟩
  | refused => exact ⟨_, by rw [exportProposal, status]; rfl, rfl⟩
  | permanentlyFailed => exact ⟨_, by rw [exportProposal, status]; rfl, rfl⟩
  | repurchase => exact ⟨_, by rw [exportProposal, status]; rfl, rfl⟩

theorem exportProposal_eq {prop : ProposalRecord} {proposal : BackupProposal}
    (exported : exportProposal prop = some proposal) :
    prop.proposalStatus ≠ .accepted ∧ proposal.proposalId = prop.noncePriv ∧
      proposal.noncePriv = prop.noncePriv := by
  obtain ⟨status, isStatus, rfl⟩ := map_eq_some_iff.mp exported
  refine ⟨?_, rfl, rfl⟩
  intro accepted
  rw [accepted] at isStatus
  cases isStatus

/-- The objects of an export are those that the stores have in the places it looks at. -/
theorem has_backupContent_iff {object : BackupObject} :
    (stores.backupContent bs timestamp).Has keys object ↔ stores.Exports keys object := by
  cases object with
  | exchange baseUrl =>
    constructor
    · rintro ⟨exchange, mem, rfl⟩
      obtain ⟨record, isRecord, exported⟩ := List.mem_filterMap.mp mem
      obtain ⟨key, got⟩ := SortedMap.mem_values_iff.mp isRecord
      obtain ⟨pointer, isPointer, rfl⟩ := map_eq_some_iff.mp exported
      exact ⟨key, record, got, rfl, isSome_of_mem isPointer⟩
    rintro ⟨key, record, got, rfl, hasPointer⟩
    obtain ⟨pointer, isPointer⟩ := isSome_iff_exists.mp hasPointer
    exact ⟨_, List.mem_filterMap.mpr ⟨record, SortedMap.mem_values_iff.mpr ⟨key, got⟩,
      map_eq_some_iff.mpr ⟨pointer, isPointer, rfl⟩⟩, rfl⟩
  | denomination url hash =>
    constructor
    · rintro ⟨details, mem, rfl, denomination, isDenomination, isHash⟩
      obtain ⟨key, ex, got, rfl⟩ := mem_backupExchangeDetails_iff.mp mem
      obtain ⟨denomKey, denom, isDenom, atExchange, rfl⟩ :=
        mem_backupDenominations_iff.mp isDenomination
      exact ⟨⟨key, ex, got, rfl⟩, denomKey, denom, isDenom, atExchange, isHash⟩
    rintro ⟨⟨key, ex, got, rfl⟩, denomKey, denom, isDenom, atExchange, isHash⟩
    exact ⟨_, mem_backupExchangeDetails_iff.mpr ⟨key, ex, got, rfl⟩, rfl, _,
      mem_backupDenominations_iff.mpr ⟨denomKey, denom, isDenom, atExchange, rfl⟩, isHash⟩
  | coin pub =>
    constructor
    · rintro ⟨details, mem, denomination, isDenomination, coin, isCoin, isPub⟩
      obtain ⟨key, ex, got, rfl⟩ := mem_backupExchangeDetails_iff.mp mem
      obtain ⟨denomKey, denom, isDenom, atExchange, rfl⟩ :=
        mem_backupDenominations_iff.mp isDenomination
      obtain ⟨coinKey, record, isRecord, ofDenomination, rfl⟩ := mem_backupCoins_iff.mp isCoin
      exact ⟨coinKey, record, isRecord, isPub, denomKey, denom, isDenom, ofDenomination.symm, key,
        ex, got, atExchange.symm⟩
    · rintro ⟨coinKey, record, isRecord, isPub, denomKey, denom, isDenom, ofDenomination, key, ex,
        got, atExchange⟩
      exact ⟨_, mem_backupExchangeDetails_iff.mpr ⟨key, ex, got, rfl⟩, _,
        mem_backupDenominations_iff.mpr ⟨denomKey, denom, isDenom, atExchange.symm, rfl⟩, _,
        mem_backupCoins_iff.mpr ⟨coinKey, record, isRecord, ofDenomination.symm, rfl⟩, isPub⟩
  | reserve reservePub =>
    constructor
    · rintro ⟨details, mem, reserve, isReserve, isPub⟩
      obtain ⟨key, ex, got, rfl⟩ := mem_backupExchangeDetails_iff.mp mem
      obtain ⟨reserveKey, record, isRecord, atExchange, rfl⟩ := mem_backupReserves_iff.mp isReserve
      exact ⟨reserveKey, record, isRecord, isPub, key, ex, got, atExchange.symm⟩
    rintro ⟨reserveKey, record, isRecord, isPub, key, ex, got, atExchange⟩
    exact ⟨_, mem_backupExchangeDetails_iff.mpr ⟨key, ex, got, rfl⟩, _,
      mem_backupReserves_iff.mpr ⟨reserveKey, record, isRecord, atExchange.symm, rfl⟩, isPub⟩
  | withdrawalGroup wgId =>
    constructor
    · rintro ⟨details, mem, reserve, isReserve, wg, isWg, rfl⟩
      obtain ⟨key, ex, got, rfl⟩ := mem_backupExchangeDetails_iff.mp mem
      obtain ⟨reserveKey, record, isRecord, atExchange, rfl⟩ := mem_backupReserves_iff.mp isReserve
      obtain ⟨wgKey, wgRecord, isWgRecord, ofReserve, rfl⟩ := mem_backupWithdrawalGroups_iff.mp isWg
      exact ⟨wgKey, wgRecord, isWgRecord, rfl, reserveKey, record, isRecord, ofReserve.symm, key,
        ex, got, atExchange.symm⟩
    rintro ⟨wgKey, wgRecord, isWgRecord, rfl, reserveKey, record, isRecord, ofReserve, key, ex,
      got, atExchange⟩
    exact ⟨_, mem_backupExchangeDetails_iff.mpr ⟨key, ex, got, rfl⟩, _,
      mem_backupReserves_iff.mpr ⟨reserveKey, record, isRecord, atExchange.symm, rfl⟩, _,
      mem_backupWithdrawalGroups_iff.mpr ⟨wgKey, wgRecord, isWgRecord, ofReserve.symm, rfl⟩, rfl⟩
  | proposal propId =>
    constructor
    · rintro ⟨proposal, mem, rfl⟩
      obtain ⟨key, prop, got, unpaid, exported⟩ := mem_backupProposals_iff.mp mem
      obtain ⟨notAccepted, isId, _⟩ := exportProposal_eq exported
      exact ⟨key, prop, got, isId.symm, notAccepted, unpaid⟩
    rintro ⟨key, prop, got, rfl, notAccepted, unpaid⟩
    obtain ⟨proposal, exported, isId⟩ := exportProposal_isSome notAccepted
    exact ⟨proposal, mem_backupProposals_iff.mpr ⟨key, prop, got, unpaid, exported⟩, isId⟩
  | purchase propId => exact SortedMap.exists_map_values_iff
  | refreshGroup groupId => exact SortedMap.exists_map_values_iff
  | recoupGroup cgId => exact SortedMap.exists_map_values_iff
  | tip tipId => exact SortedMap.exists_map_values_iff
  | backupProvider baseUrl => exact SortedMap.exists_map_values_iff

end

end Anastasis.Wallet.Backup
