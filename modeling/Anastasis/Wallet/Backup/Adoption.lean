import Anastasis.Wallet.Backup.ImportPuts

/-! When an import takes all objects of a backup, so that the next export has them again. -/

set_option autoImplicit false

namespace Anastasis.Wallet.Backup

open Library Relation Option

variable (keys : BackupKeys)

namespace Stores

variable (stores : Stores)

def Buried : BackupObject → Prop
  | .reserve reservePub => stores.isTombstoned .deleteReserve reservePub
  | .withdrawalGroup withdrawalGroupId =>
    stores.isTombstoned .deleteWithdrawalGroup withdrawalGroupId
  | .proposal proposalId => stores.isTombstoned .deletePayment proposalId
  | .purchase proposalId => stores.isTombstoned .deletePayment proposalId
  | .refreshGroup refreshGroupId => stores.isTombstoned .deleteRefreshGroup refreshGroupId
  | .tip walletTipId => stores.isTombstoned .deleteTip walletTipId
  | _ => False

def Misses : BackupObject → Prop
  | .exchange baseUrl => stores.exchanges.get? baseUrl = none
  | .denomination exchangeBaseUrl denomPubHash =>
    stores.denominations.get? (denominationKey exchangeBaseUrl denomPubHash) = none
  | .coin coinPub => stores.coins.get? coinPub = none
  | .reserve reservePub => stores.reserves.get? reservePub = none
  | .withdrawalGroup withdrawalGroupId => stores.withdrawalGroups.get? withdrawalGroupId = none
  | .proposal proposalId =>
    stores.proposals.get? proposalId = none ∧ stores.purchases.get? proposalId = none
  | .purchase proposalId => stores.purchases.get? proposalId = none
  | .refreshGroup refreshGroupId => stores.refreshGroups.get? refreshGroupId = none
  | .recoupGroup _ => False
  | .tip walletTipId => stores.tips.get? walletTipId = none
  | .backupProvider _ => False

/-- Nothing of the content is lost by an import: what is stored already is exported, no recoup
group and no provider is new, no withdrawal group lies under a reserve that is skipped, and no
payment hides a proposal. -/
structure Takes (content : WalletBackupContentV1) : Prop where
  objects : ∀ object, content.Has keys object →
    stores.Misses object ∨ stores.Exports keys object ∨ stores.Buried object
  withdrawalGroups : ∀ details ∈ content.exchangeDetails, ∀ reserve ∈ details.reserves,
    ∀ reservePub, keys.eddsaGetPublic reserve.reservePriv = some reservePub →
      stores.isTombstoned .deleteReserve reservePub → ∀ wg ∈ reserve.withdrawalGroups,
        stores.Exports keys (.withdrawalGroup wg.withdrawalGroupId) ∨
          stores.Buried (.withdrawalGroup wg.withdrawalGroupId)
  proposals : ∀ proposal ∈ content.proposals, ∀ purchase ∈ content.purchases,
    purchase.proposalId ≠ proposal.proposalId
  purchases : ∀ purchase ∈ content.purchases, stores.purchases.get? purchase.proposalId = none →
    ∀ prop, stores.proposals.get? purchase.proposalId = some prop → prop.proposalStatus = .accepted

/-- What holds of the stores of every wallet: records have their keys and are what their hashes
and public keys say, and what a tombstone names has been deleted. -/
structure Consistent : Prop where
  exchanges : stores.exchanges.All fun key record => record.baseUrl = key
  exchangeDetails : stores.exchangeDetails.All fun key record =>
    exchangeDetailsKey record.exchangeBaseUrl record.currency record.masterPublicKey = key
  denominations : stores.denominations.All fun key record =>
    denominationKey record.exchangeBaseUrl record.denomPubHash = key ∧
      keys.hashDenomPub record.denomPub = some record.denomPubHash ∧
      record.denomPub.ageMask = none
  coins : stores.coins.All fun key record => keys.eddsaGetPublic record.coinPriv = some key
  reserves : stores.reserves.All fun key record =>
    record.reservePub = key ∧ keys.eddsaGetPublic record.reservePriv = some key
  withdrawalGroups : stores.withdrawalGroups.All fun key record => record.withdrawalGroupId = key
  proposals : stores.proposals.All fun key record => record.proposalId = key
  purchases : stores.purchases.All fun key record => record.proposalId = key
  refreshGroups : stores.refreshGroups.All fun key record => record.refreshGroupId = key
  tips : stores.tips.All fun key record => record.walletTipId = key
  absent : ∀ tag id, stores.Tombstoned tag id → stores.Absent tag id
  plain : ∀ tag id, stores.Tombstoned tag id → stores.isTombstoned tag id

end Stores

variable {keys} {content : WalletBackupContentV1}

theorem denominationKey_injective {url otherUrl hash otherHash : String}
    (eq : denominationKey url hash = denominationKey otherUrl otherHash) :
    url = otherUrl ∧ hash = otherHash := Prod.mk.inj (toLex.injective eq)

theorem exchangeDetailsKey_baseUrl {url otherUrl cur otherCurrency
    masterPublicKey otherKey : String} (eq : exchangeDetailsKey url cur masterPublicKey =
      exchangeDetailsKey otherUrl otherCurrency otherKey) : url = otherUrl :=
  (Prod.mk.inj (toLex.injective eq)).1

namespace Stores

theorem Consistent.hasDetails {stores : Stores} (consistent : stores.Consistent keys)
    {exchangeBaseUrl cur masterPublicKey : String} (has : stores.exchangeDetails.contains
      (exchangeDetailsKey exchangeBaseUrl cur masterPublicKey)) :
    stores.HasDetails exchangeBaseUrl := by
  obtain ⟨r, h⟩ := isSome_iff_exists.mp has
  exact ⟨_, r, h, exchangeDetailsKey_baseUrl (consistent.exchangeDetails _ r h)⟩

section Growth

variable {before pre after : Stores}

theorem HasDetails.grow {exchangeBaseUrl : String} (has : pre.HasDetails exchangeBaseUrl)
    (grown : Grown (fun _ _ => False) pre after) : after.HasDetails exchangeBaseUrl := by
  obtain ⟨key, dt, h, eq⟩ := has
  exact ⟨key, dt, grown.kept.exchangeDetails.found not_false h, eq⟩

theorem HasDenomination.grow {denomPubHash : String} (has : pre.HasDenomination denomPubHash)
    (grown : Grown (fun _ _ => False) pre after) : after.HasDenomination denomPubHash := by
  obtain ⟨key, dn, h, eq, dt⟩ := has
  exact ⟨key, dn, grown.kept.denominations.found not_false h, eq, dt.grow grown⟩

theorem HasReserve.grow {reservePub : String} (has : pre.HasReserve reservePub)
    (grown : Grown (fun _ _ => False) pre after) : after.HasReserve reservePub := by
  obtain ⟨key, rv, h, eq, dt⟩ := has
  exact ⟨key, rv, grown.kept.reserves.found not_false h, eq, dt.grow grown⟩

theorem isTombstoned_grown (grown : Grown (fun _ _ => False) pre after)
    (tag : TombstoneTag) (id : String) : after.isTombstoned tag id = pre.isTombstoned tag id := by
  rw [isTombstoned, isTombstoned, grown.tombstones]

theorem Exports.grow {object : BackupObject} (exports : pre.Exports keys object)
    (grown : Grown (fun _ _ => False) pre after)
    (unhidden : ∀ key prop, pre.proposals.get? key = some prop → prop.proposalStatus ≠ .accepted →
        (∀ key purch, pre.purchases.get? key = some purch → purch.proposalId ≠ prop.proposalId) →
        ∀ key purch, after.purchases.get? key = some purch → purch.proposalId ≠ prop.proposalId) :
    after.Exports keys object := by
  cases object with
  | exchange baseUrl =>
    obtain ⟨key, row, got, rest⟩ := exports
    exact ⟨key, row, grown.kept.exchanges.found not_false got, rest⟩
  | denomination url hash =>
    obtain ⟨details, key, denom, got, rest⟩ := exports
    exact ⟨details.grow grown, key, denom, grown.kept.denominations.found not_false got, rest⟩
  | coin pub =>
    obtain ⟨key, coin, got, isPub, denomination⟩ := exports
    exact ⟨key, coin, grown.kept.coins.found not_false got, isPub, denomination.grow grown⟩
  | reserve reservePub =>
    obtain ⟨key, reserve, got, isPub, details⟩ := exports
    exact ⟨key, reserve, grown.kept.reserves.found not_false got, isPub, details.grow grown⟩
  | withdrawalGroup wgId =>
    obtain ⟨key, wg, got, eq, reserve⟩ := exports
    exact ⟨key, wg, grown.kept.withdrawalGroups.found not_false got, eq, reserve.grow grown⟩
  | proposal propId =>
    obtain ⟨key, prop, got, eq, notAccepted, unpaid⟩ := exports
    exact ⟨key, prop, grown.kept.proposals.found not_false got, eq, notAccepted,
      unhidden key prop got notAccepted unpaid⟩
  | purchase propId =>
    obtain ⟨key, purch, got, rest⟩ := exports
    exact ⟨key, purch, grown.kept.purchases.found not_false got, rest⟩
  | refreshGroup groupId =>
    obtain ⟨key, rg, got, rest⟩ := exports
    exact ⟨key, rg, grown.kept.refreshGroups.found not_false got, rest⟩
  | recoupGroup cgId =>
    obtain ⟨key, recoupGroup, got, rest⟩ := exports
    exact ⟨key, recoupGroup, grown.kept.recoupGroups.found not_false got, rest⟩
  | tip tipId =>
    obtain ⟨key, tip, got, rest⟩ := exports
    exact ⟨key, tip, grown.kept.tips.found not_false got, rest⟩
  | backupProvider baseUrl =>
    obtain ⟨key, bp, got, rest⟩ := exports
    exact ⟨key, bp, grown.kept.backupProviders.found not_false got, rest⟩

end Growth

/-! Puts keep the stores consistent. -/

theorem tombstoned_grown {pre after : Stores} (grown : Grown (fun _ _ => False) pre after) :
    after.Tombstoned = pre.Tombstoned := by
  funext tag id
  rw [Tombstoned, Tombstoned, grown.tombstones]

theorem get?_insert_alive {Value : Type} {stores : Stores} {map : SortedMap String Value}
    {tag : TombstoneTag} {id key : String} {v : Value} (gone : map.get? id = none)
    (dead : stores.isTombstoned tag id) (alive : ¬ stores.isTombstoned tag key) :
    (map.insert key v).get? id = none := by
  rw [SortedMap.get?_insert, if_neg]
  · exact gone
  · rintro rfl
    exact alive dead

theorem Consistent.put {before after : Stores} (consistent : before.Consistent keys)
    (put : Puts keys content before after) : after.Consistent keys := by
  have grown : Grown (fun _ _ => False) before after := put.grows
  have plain : ∀ tag id, after.Tombstoned tag id → after.isTombstoned tag id := by
    intro tag id dead
    rw [tombstoned_grown grown] at dead
    rw [isTombstoned_grown grown]
    exact consistent.plain tag id dead
  have absent : ∀ tag id, after.Tombstoned tag id → before.Absent tag id ∧
      before.isTombstoned tag id := by
    intro tag id dead
    rw [tombstoned_grown grown] at dead
    exact ⟨consistent.absent tag id dead, consistent.plain tag id dead⟩
  have eq : (∀ tag id, before.Absent tag id → after.Absent tag id) →
      ∀ tag id, after.Tombstoned tag id → after.Absent tag id :=
    fun keeps tag id dead => keeps tag id (absent tag id dead).1
  cases put with
  | exchange isKey =>
    exact { consistent with
      exchanges := consistent.exchanges.insert isKey.symm
      absent := eq fun tag _ before => by cases tag <;> exact before
      plain }
  | exchangeDetails isKey =>
    exact { consistent with
      exchangeDetails := consistent.exchangeDetails.insert isKey.symm
      absent := eq fun tag _ before => by cases tag <;> exact before
      plain }
  | denomination isKey _ isHash unrestricted =>
    exact { consistent with
      denominations := consistent.denominations.insert ⟨isKey.symm, isHash, unrestricted⟩
      absent := eq fun tag _ before => by cases tag <;> exact before
      plain }
  | coin isKey _ isPub =>
    subst isKey
    exact { consistent with
      coins := consistent.coins.insert isPub
      absent := eq fun tag _ before => by cases tag <;> exact before
      plain }
  | reserve isKey _ alive isPub =>
    subst isKey
    refine { consistent with
      reserves := consistent.reserves.insert ⟨rfl, isPub⟩, absent := ?_, plain }
    intro tag id dead
    obtain ⟨before, buried⟩ := absent tag id dead
    cases tag with
    | deleteReserve => exact get?_insert_alive before buried alive
    | _ => exact before
  | withdrawalGroup isKey _ alive =>
    subst isKey
    refine { consistent with
      withdrawalGroups := consistent.withdrawalGroups.insert rfl, absent := ?_, plain }
    intro tag id dead
    obtain ⟨before, buried⟩ := absent tag id dead
    cases tag with
    | deleteWithdrawalGroup => exact get?_insert_alive before buried alive
    | _ => exact before
  | proposal isKey _ alive =>
    subst isKey
    refine { consistent with
      proposals := consistent.proposals.insert rfl, absent := ?_, plain }
    intro tag id dead
    obtain ⟨before, buried⟩ := absent tag id dead
    cases tag with
    | deletePayment => exact ⟨before.1, get?_insert_alive before.2 buried alive⟩
    | _ => exact before
  | purchase isKey _ alive =>
    subst isKey
    refine { consistent with
      purchases := consistent.purchases.insert rfl, absent := ?_, plain }
    intro tag id dead
    obtain ⟨before, buried⟩ := absent tag id dead
    cases tag with
    | deletePayment => exact ⟨get?_insert_alive before.1 buried alive, before.2⟩
    | _ => exact before
  | refreshGroup isKey _ alive =>
    subst isKey
    refine { consistent with
      refreshGroups := consistent.refreshGroups.insert rfl, absent := ?_, plain }
    intro tag id dead
    obtain ⟨before, buried⟩ := absent tag id dead
    cases tag with
    | deleteRefreshGroup => exact get?_insert_alive before buried alive
    | _ => exact before
  | tip isKey _ alive =>
    subst isKey
    refine { consistent with tips := consistent.tips.insert rfl, absent := ?_, plain }
    intro tag id dead
    obtain ⟨before, buried⟩ := absent tag id dead
    cases tag with
    | deleteTip => exact get?_insert_alive before buried alive
    | _ => exact before

theorem Consistent.puts {pre after : Stores} (consistent : pre.Consistent keys)
    (puts : ReflTransGen (Puts keys content) pre after) : after.Consistent keys := by
  induction puts with
  | refl => exact consistent
  | tail _ last ih => exact ih.put last

/-- What is not from the start is stored in a way that it is exported. -/
structure Attached (keys : BackupKeys) (content : WalletBackupContentV1) (start stores : Stores) :
    Prop where
  exchanges : stores.exchanges.All fun key record =>
    start.exchanges.contains key ∨ record.detailsPointer.isSome
  coins : stores.coins.All fun key record =>
    start.coins.contains key ∨ stores.HasDenomination record.denomPubHash
  reserves : stores.reserves.All fun key record =>
    start.reserves.contains key ∨ stores.HasDetails record.exchangeBaseUrl
  withdrawalGroups : stores.withdrawalGroups.All fun key record =>
    start.withdrawalGroups.contains key ∨ stores.HasReserve record.reservePub
  proposals : stores.proposals.All fun key record =>
    start.proposals.contains key ∨ record.noncePriv = key ∧ record.proposalStatus ≠ .accepted
  purchases : stores.purchases.All fun key _ =>
    start.purchases.contains key ∨ content.Has keys (.purchase key)

namespace Attached

variable {start before pre after : Stores}

theorem refl (stores : Stores) : Attached keys content stores stores where
  exchanges := stores.exchanges.all_contains.imp .inl
  coins := stores.coins.all_contains.imp .inl
  reserves := stores.reserves.all_contains.imp .inl
  withdrawalGroups := stores.withdrawalGroups.all_contains.imp .inl
  proposals := stores.proposals.all_contains.imp .inl
  purchases := stores.purchases.all_contains.imp .inl

theorem hasReserve (attached : Attached keys content start pre)
    (startConsistent : start.Consistent keys) (takes : start.Takes keys content)
    (consistent : pre.Consistent keys) (grown : Grown (fun _ _ => False) start pre)
    {reservePub : String} (present : pre.reserves.contains reservePub)
    (alive : ¬ pre.isTombstoned .deleteReserve reservePub)
    (inContent : content.Has keys (.reserve reservePub)) : pre.HasReserve reservePub := by
  rcases takes.objects _ inContent with missing | exported | buried
  · obtain ⟨r, h⟩ := isSome_iff_exists.mp present
    rcases attached.reserves _ _ h with old | dt
    · have missing : start.reserves.get? reservePub = none := missing
      rw [SortedMap.contains, missing] at old
      cases old
    · exact ⟨reservePub, r, h, (consistent.reserves _ _ h).1, dt⟩
  · obtain ⟨key, r, h, isPub, dt⟩ := exported
    obtain ⟨isKey, keyIsPub⟩ := startConsistent.reserves key r h
    have eq : r.reservePub = reservePub := isKey.trans (Option.some.inj (keyIsPub.symm.trans isPub))
    have has : start.HasReserve reservePub := ⟨key, r, h, eq, dt⟩
    exact has.grow grown
  · rw [isTombstoned_grown grown] at alive
    exact absurd buried alive

theorem put (attached : Attached keys content start before)
    (startConsistent : start.Consistent keys) (takes : start.Takes keys content)
    (consistent : before.Consistent keys) (startGrown : Grown (fun _ _ => False) start before)
    (put : Puts keys content before after) : Attached keys content start after := by
  have grown : Grown (fun _ _ => False) before after := put.grows
  have coins : before.coins.All fun key row =>
      start.coins.contains key ∨ after.HasDenomination row.denomPubHash :=
    attached.coins.imp fun either => either.imp_right (HasDenomination.grow · grown)
  have reserves : before.reserves.All fun key row =>
      start.reserves.contains key ∨ after.HasDetails row.exchangeBaseUrl :=
    attached.reserves.imp fun either => either.imp_right (HasDetails.grow · grown)
  have withdrawalGroups : before.withdrawalGroups.All fun key row =>
      start.withdrawalGroups.contains key ∨ after.HasReserve row.reservePub :=
    attached.withdrawalGroups.imp fun either => either.imp_right (HasReserve.grow · grown)
  have exchanges := attached.exchanges
  have proposals := attached.proposals
  have purchases := attached.purchases
  cases put with
  | exchange _ _ pointer =>
    exact ⟨exchanges.insert (.inr pointer), coins, reserves, withdrawalGroups, proposals, purchases⟩
  | exchangeDetails => exact ⟨exchanges, coins, reserves, withdrawalGroups, proposals, purchases⟩
  | denomination => exact ⟨exchanges, coins, reserves, withdrawalGroups, proposals, purchases⟩
  | @coin row cur masterPublicKey key _ _ _ denomination details =>
    have hasDenomination : before.HasDenomination row.denomPubHash := by
      obtain ⟨denom, got⟩ := isSome_iff_exists.mp denomination
      obtain ⟨sameUrl, sameHash⟩ := denominationKey_injective (consistent.denominations _ _ got).1
      refine ⟨_, denom, got, sameHash, ?_⟩
      rw [sameUrl]
      exact consistent.hasDetails details
    exact ⟨exchanges, coins.insert (.inr (hasDenomination.grow grown)), reserves,
      withdrawalGroups, proposals, purchases⟩
  | reserve _ _ _ _ details =>
    exact ⟨exchanges, coins,
      reserves.insert (.inr ((consistent.hasDetails details).grow grown)), withdrawalGroups,
      proposals, purchases⟩
  | withdrawalGroup _ _ _ aliveReserve has inContent =>
    have hasReserve := attached.hasReserve startConsistent takes consistent startGrown has
      aliveReserve inContent
    exact ⟨exchanges, coins, reserves, withdrawalGroups.insert (.inr (hasReserve.grow grown)),
      proposals, purchases⟩
  | proposal isKey _ _ nonce notAccepted =>
    subst isKey
    exact ⟨exchanges, coins, reserves, withdrawalGroups,
      proposals.insert (.inr ⟨nonce, notAccepted⟩), purchases⟩
  | purchase isKey _ _ inContent =>
    subst isKey
    exact ⟨exchanges, coins, reserves, withdrawalGroups, proposals,
      purchases.insert (.inr inContent)⟩
  | refreshGroup => exact ⟨exchanges, coins, reserves, withdrawalGroups, proposals, purchases⟩
  | tip => exact ⟨exchanges, coins, reserves, withdrawalGroups, proposals, purchases⟩

theorem puts (startConsistent : start.Consistent keys) (takes : start.Takes keys content)
    (puts : ReflTransGen (Puts keys content) start after) : Attached keys content start after := by
  induction puts with
  | refl => exact refl start
  | tail old last ih =>
    exact ih.put startConsistent takes (startConsistent.puts old) (puts_grow old) last

end Attached

/-! What the passes over the content leave in the stores. -/

section Found

variable {before pre after : Stores} {now : Nat} {env : ImportSurroundings}
  {cryptoComp : BackupCryptoPrecomputedData}

theorem found_exchange {exs : List BackupExchange} {exchange : BackupExchange}
    (mem : exchange ∈ exs) (stores : Stores) :
    (exs.foldl (importExchange · now) stores).exchanges.contains exchange.baseUrl := by
  induction exs generalizing stores with
  | nil => cases mem
  | cons head rest ih =>
    rcases List.mem_cons.mp mem with rfl | mem
    · have done := PutsOnce.done (@Grown.exchangesPart fun _ _ => False)
        (importExchange_once now exchange)
        (show some (stores.importExchange now exchange) = some _ from rfl)
      have grown : Grown (fun _ _ => False) (stores.importExchange now exchange) _ :=
        (Settles.foldl rest fun y => importExchange_settles now now y).firstGrows rfl
      exact grown.kept.exchanges.contains (done.resolve_left nofun)
    · exact ih mem _

variable {details dt : BackupExchangeDetails}

theorem found_details (r : pre.importExchangeDetailsWithContents now cryptoComp dt = some after) :
    after.exchangeDetails.contains
      (exchangeDetailsKey dt.baseUrl dt.currency dt.masterPublicKey) := by
  obtain ⟨between, ds, reserves⟩ := bind_eq_some_iff.mp r
  have done := PutsOnce.done (@Grown.exchangeDetailsPart fun _ _ => False)
    (importExchangeDetails_once dt) (show some (pre.importExchangeDetails dt) = some _ from rfl)
  have x : Grown (fun _ _ => False) (pre.importExchangeDetails dt) between :=
    (Settles.foldlM dt.denominations fun denom =>
      importDenominationWithCoins_settles cryptoComp dt denom).firstGrows ds
  have y : Grown (fun _ _ => False) between after := (Settles.foldlM dt.reserves fun rv =>
      importReserve_settles now now cryptoComp dt.baseUrl rv).firstGrows reserves
  exact y.kept.exchangeDetails.contains (x.kept.exchangeDetails.contains (done.resolve_left nofun))

variable {denomination denom : BackupDenomination}

/-- What the import of one denomination leaves there is there after all of the details. -/
theorem found_denominations (mem : denom ∈ dt.denominations) (holds : Stores → Prop)
    (grows : ∀ {pre after}, Grown (fun _ _ => False) pre after → holds pre → holds after)
    (reaches : ∀ {pre after : Stores}, pre.importDenominationWithCoins cryptoComp dt
      denom = some after → holds after)
    (r : pre.importExchangeDetailsWithContents now cryptoComp dt = some after) : holds after := by
  obtain ⟨between, ds, reserves⟩ := bind_eq_some_iff.mp r
  have h : holds between := foldlM_reaches (fun y _ _ _ one => grows
      ((importDenominationWithCoins_settles cryptoComp dt y).firstGrows one)) mem reaches ds
  exact grows ((Settles.foldlM dt.reserves fun rv =>
    importReserve_settles now now cryptoComp dt.baseUrl rv).firstGrows reserves) h

theorem found_reserves {rv : BackupReserve} (mem : rv ∈ dt.reserves) (holds : Stores → Prop)
    (grows : ∀ {pre after}, Grown (fun _ _ => False) pre after → holds pre → holds after)
    (reaches : ∀ {pre after : Stores}, pre.importReserve now cryptoComp dt.baseUrl
      rv = some after → holds after)
    (r : pre.importExchangeDetailsWithContents now cryptoComp dt = some after) : holds after := by
  obtain ⟨between, ds, reserves⟩ := bind_eq_some_iff.mp r
  exact foldlM_reaches (fun y _ _ _ one => grows
      ((importReserve_settles now now cryptoComp dt.baseUrl y).firstGrows one)) mem reaches reserves

theorem found_denomination (sound : cryptoComp.Sound keys)
    (unrestricted : denom.denomPub.ageMask = none)
    (r : pre.importDenominationWithCoins cryptoComp dt denom = some after) :
    ∃ hash, keys.hashDenomPub denom.denomPub = some hash ∧
      after.denominations.contains (denominationKey dt.baseUrl hash) := by
  rw [importDenominationWithCoins] at r
  split at r
  next => cases r
  next rsa =>
    obtain ⟨hash, isHash, cs⟩ := bind_eq_some_iff.mp r
    have isKey : denom.denomPub = ⟨1, denom.denomPub.rsaPublicKey, none⟩ := by
      rw [← unrestricted, ← not_not.mp rsa]
    refine ⟨hash, ?_, ?_⟩
    · rw [isKey]
      exact sound.denominations _ _ isHash
    have done := PutsOnce.done (@Grown.denominationsPart fun _ _ => False)
      (importDenomination_once dt hash denom)
      (show some (pre.importDenomination dt hash denom) = some _ from rfl)
    have grown : Grown (fun _ _ => False) (pre.importDenomination dt hash denom) after :=
      (Settles.foldlM denom.coins fun backupCoin => importCoins_settles cryptoComp
        dt.baseUrl denom.denomPub hash backupCoin).firstGrows cs
    exact grown.kept.denominations.contains (done.resolve_left (by simp))

theorem found_coin {c : BackupCoin} (sound : cryptoComp.Sound keys) (mem : c ∈ denom.coins)
    (r : before.importDenominationWithCoins cryptoComp dt denom = some after) :
    ∃ coinPub, keys.eddsaGetPublic c.coinPriv = some coinPub ∧ after.coins.contains coinPub := by
  rw [importDenominationWithCoins] at r
  split at r
  next => cases r
  next =>
    obtain ⟨hash, _, cs⟩ := bind_eq_some_iff.mp r
    refine @foldlM_reaches _ _ _ (fun stores => ∃ coinPub,
      keys.eddsaGetPublic c.coinPriv = some coinPub ∧ stores.coins.contains coinPub) _ ?_ _
      mem ?_ _ _ cs
    · rintro y _ before after one ⟨coinPub, isPub, has⟩
      have grown : Grown (fun _ _ => False) before after := (importCoins_settles cryptoComp
        dt.baseUrl denom.denomPub hash y).firstGrows one
      exact ⟨coinPub, isPub, grown.kept.coins.contains has⟩
    intro before after one
    obtain ⟨compCoin, isComp, put⟩ := bind_eq_some_iff.mp one
    have done := PutsOnce.done (@Grown.coinsPart fun _ _ => False)
      (importCoin_once dt.baseUrl denom.denomPub hash compCoin c) put
    exact ⟨compCoin.coinPub, sound.coins _ _ isComp, done.resolve_left (by simp)⟩

theorem found_reserve {rv : BackupReserve} {url reservePub : String}
    (has : cryptoComp.reservePrivToPub.get? rv.reservePriv = some reservePub)
    (ran : pre.importReserve now cryptoComp url rv = some after) :
    after.isTombstoned .deleteReserve reservePub ∨ after.reserves.contains reservePub := by
  rw [importReserve, has] at ran
  split at ran
  next dead =>
    cases ran
    exact .inl dead
  next =>
    obtain ⟨between, r, groups⟩ := bind_eq_some_iff.mp ((bind_some _ _).symm.trans ran)
    have done := PutsOnce.done (@Grown.reservesPart fun _ _ => False)
      (importReserveRecord_once now url reservePub rv) r
    have grown : Grown (fun _ _ => False) between after :=
      (Settles.foldlM rv.withdrawalGroups fun wg => PutsOnce.settles
        Grown.withdrawalGroupsPart (importWithdrawalGroup_once now url reservePub wg)
        (importWithdrawalGroup_once now url reservePub wg)
        (Grown.isTombstoned _ _)).firstGrows groups
    exact .inr (grown.kept.reserves.contains (done.resolve_left (by simp)))

theorem found_withdrawalGroup {rv : BackupReserve} {wg : BackupWithdrawalGroup}
    {url pub : String} (mem : wg ∈ rv.withdrawalGroups)
    (has : cryptoComp.reservePrivToPub.get? rv.reservePriv = some pub)
    (ran : pre.importReserve now cryptoComp url rv = some after) :
    after.isTombstoned .deleteReserve pub ∨
      after.isTombstoned .deleteWithdrawalGroup wg.withdrawalGroupId ∨
      after.withdrawalGroups.contains wg.withdrawalGroupId := by
  rw [importReserve, has] at ran
  split at ran
  next dead =>
    cases ran
    exact .inl dead
  next =>
    obtain ⟨between, r, groups⟩ := bind_eq_some_iff.mp ((bind_some _ _).symm.trans ran)
    exact .inr (PutsOnce.foldlM_done (@Grown.withdrawalGroupsPart fun _ _ => False)
      (fun y => importWithdrawalGroup_once now url pub y)
      (fun _ => Grown.isTombstoned _ _) (fun grown => grown.kept.withdrawalGroups.contains)
      mem groups)

end Found

section Adopts

variable {stores after : Stores} {env : ImportSurroundings}
  {cryptoComp : BackupCryptoPrecomputedData}

theorem unhidden (consistent : stores.Consistent keys) (takes : stores.Takes keys content)
    (puts : ReflTransGen (Puts keys content) stores after) (key : String) (prop : ProposalRecord)
    (h : stores.proposals.get? key = some prop) (notAccepted : prop.proposalStatus ≠ .accepted)
    (unpaid : ∀ key purch, stores.purchases.get? key = some purch →
      purch.proposalId ≠ prop.proposalId) (paidKey : String) (purch : PurchaseRecord)
    (paid : after.purchases.get? paidKey = some purch) : purch.proposalId ≠ prop.proposalId := by
  have isPaid : purch.proposalId = paidKey := (consistent.puts puts).purchases paidKey purch paid
  have isKey : prop.proposalId = key := consistent.proposals key prop h
  intro eq
  have sameKey : paidKey = key := isPaid.symm.trans (eq.trans isKey)
  cases old : stores.purchases.get? paidKey with
  | some oldPurch =>
    have oldKey := consistent.purchases paidKey oldPurch old
    exact unpaid paidKey oldPurch old (oldKey.trans (sameKey.trans isKey.symm))
  | none =>
    rcases (Attached.puts consistent takes puts).purchases paidKey purch paid with has | new
    · rw [SortedMap.contains, old] at has
      cases has
    obtain ⟨pu, inContent, isId⟩ := new
    apply notAccepted
    apply takes.purchases pu inContent
    · rw [isId]
      exact old
    · rw [isId, sameKey]
      exact h

theorem contains_of_missing {Key Value : Type} [LinearOrder Key] {map : SortedMap Key Value}
    {key : Key} (missing : map.get? key = none) : ¬ map.contains key := by
  rw [SortedMap.contains, missing]
  exact Bool.false_ne_true

/-- All that was exported still is, and so is all of the content that is not tombstoned. -/
theorem importObjects_adopts (consistent : stores.Consistent keys)
    (takes : stores.Takes keys content) (regular : content.Regular)
    (computed : computeBackupCryptoData keys content = some cryptoComp)
    (ran : stores.importObjects env cryptoComp content = some after) :
    (∀ object, stores.Exports keys object → after.Exports keys object) ∧
      ∀ object, content.Has keys object → after.Exports keys object ∨ stores.Buried object := by
  have sound := computeBackupCryptoData_sound regular.unrestricted computed
  obtain ⟨exchanges, details, proposals, purchases, refreshGroups, stages⟩ :=
    importObjects_stages ran
  have puts : ReflTransGen (Puts keys content) stores after := stages.puts sound regular
  have afterConsistent := consistent.puts puts
  have attached := Attached.puts consistent takes puts
  have grown : Grown (fun _ _ => False) stores after := puts_grow puts
  have keeps : ∀ object, stores.Exports keys object → after.Exports keys object :=
    fun object exports => exports.grow grown (unhidden consistent takes puts)
  refine ⟨keeps, ?_⟩
  intro object has
  rcases takes.objects object has with missing | exported | buried
  rotate_left
  · exact .inl (keeps object exported)
  · exact .inr buried
  -- the stages that are still to come only add objects
  have putsTips : ReflTransGen (Puts keys content) refreshGroups after := stages.putsTips
  have putsRefreshGroups := stages.putsRefreshGroups.trans putsTips
  have putsPurchases := stages.putsPurchases.trans putsRefreshGroups
  have putsProposals := (stages.putsProposals regular).trans putsPurchases
  have fromExchanges : Grown (fun _ _ => False) exchanges after :=
    puts_grow ((stages.putsDetails sound regular).trans putsProposals)
  have fromDetails : Grown (fun _ _ => False) details after := puts_grow putsProposals
  have fromProposals : Grown (fun _ _ => False) proposals after := puts_grow putsPurchases
  have fromPurchases : Grown (fun _ _ => False) purchases after := puts_grow putsRefreshGroups
  have fromRefreshGroups : Grown (fun _ _ => False) refreshGroups after := puts_grow putsTips
  have contents : ∀ {backup : BackupExchangeDetails} (holds : Stores → Prop),
      backup ∈ content.exchangeDetails →
      (∀ {pre after}, Grown (fun _ _ => False) pre after → holds pre → holds after) →
      (∀ {pre after : Stores}, pre.importExchangeDetailsWithContents env.now
        cryptoComp backup = some after → holds after) → holds after := by
    intro backup holds mem grows reaches
    exact grows fromDetails (foldlM_reaches (fun other _ _ _ one => grows
      ((importExchangeDetailsWithContents_settles env.now env.now cryptoComp
        other).firstGrows one)) mem reaches stages.isDetails)
  cases object with
  | exchange baseUrl =>
    obtain ⟨exchange, mem, rfl⟩ := has
    have got : after.exchanges.contains exchange.baseUrl := by
      apply fromExchanges.kept.exchanges.contains
      rw [← stages.isExchanges]
      exact found_exchange mem stores
    obtain ⟨row, isRecord⟩ := isSome_iff_exists.mp got
    left
    refine ⟨_, row, isRecord, afterConsistent.exchanges _ _ isRecord, ?_⟩
    exact (attached.exchanges _ _ isRecord).resolve_left (contains_of_missing missing)
  | denomination url hash =>
    obtain ⟨backup, mem, rfl, denomination, inDetails, isHash⟩ := has
    have known := contents (fun stores => stores.exchangeDetails.contains
      (exchangeDetailsKey backup.baseUrl backup.currency backup.masterPublicKey)) mem
      (fun grown => grown.kept.exchangeDetails.contains) found_details
    have got := contents (fun stores => ∃ hash,
      keys.hashDenomPub denomination.denomPub = some hash ∧
        stores.denominations.contains (denominationKey backup.baseUrl hash)) mem
      (fun grown ⟨_, isHash, present⟩ =>
        ⟨_, isHash, grown.kept.denominations.contains present⟩)
      (found_denominations inDetails _ (fun grown ⟨_, isHash, present⟩ =>
          ⟨_, isHash, grown.kept.denominations.contains present⟩)
        (found_denomination sound (regular.unrestricted backup mem denomination inDetails)))
    obtain ⟨foundHash, isFound, present⟩ := got
    cases isHash.symm.trans isFound
    obtain ⟨row, isRecord⟩ := isSome_iff_exists.mp present
    obtain ⟨isKey, hashes, _⟩ := afterConsistent.denominations _ row isRecord
    obtain ⟨sameUrl, sameHash⟩ := denominationKey_injective isKey
    left
    refine ⟨afterConsistent.hasDetails known, _, row, isRecord, sameUrl, ?_⟩
    rw [hashes, sameHash]
  | coin pub =>
    obtain ⟨backup, mem, denomination, inDetails, coin, inDenomination, isPub⟩ := has
    have got := contents (fun stores => ∃ pub,
      keys.eddsaGetPublic coin.coinPriv = some pub ∧ stores.coins.contains pub) mem
      (fun grown ⟨_, isPub, present⟩ => ⟨_, isPub, grown.kept.coins.contains present⟩)
      (found_denominations inDetails _
        (fun grown ⟨_, isPub, present⟩ => ⟨_, isPub, grown.kept.coins.contains present⟩)
        (found_coin sound inDenomination))
    obtain ⟨foundPub, isFound, present⟩ := got
    cases isPub.symm.trans isFound
    obtain ⟨row, isRecord⟩ := isSome_iff_exists.mp present
    left
    exact ⟨_, row, isRecord, afterConsistent.coins _ _ isRecord,
      (attached.coins _ _ isRecord).resolve_left (contains_of_missing missing)⟩
  | reserve reservePub =>
    obtain ⟨backup, mem, reserve, inDetails, isPub⟩ := has
    obtain ⟨foundPub, known⟩ := isSome_iff_exists.mp
      (computeBackupCryptoData_reserves computed mem inDetails)
    cases isPub.symm.trans (sound.reserves _ _ known)
    have grows : ∀ {pre after : Stores}, Grown (fun _ _ => False) pre after →
        (pre.isTombstoned .deleteReserve reservePub ∨ pre.reserves.contains reservePub) →
        (after.isTombstoned .deleteReserve reservePub ∨ after.reserves.contains reservePub) :=
      fun grown got => got.imp (Grown.isTombstoned _ _ grown) grown.kept.reserves.contains
    have got := contents _ mem grows (found_reserves inDetails _ grows (found_reserve known))
    rcases got with dead | present
    · right
      rw [isTombstoned_grown grown] at dead
      exact dead
    obtain ⟨row, isRecord⟩ := isSome_iff_exists.mp present
    left
    exact ⟨_, row, isRecord, (afterConsistent.reserves _ _ isRecord).2,
      (attached.reserves _ _ isRecord).resolve_left (contains_of_missing missing)⟩
  | withdrawalGroup wgId =>
    obtain ⟨backup, mem, reserve, inDetails, wg, inReserve, rfl⟩ := has
    obtain ⟨reservePub, known⟩ := isSome_iff_exists.mp
      (computeBackupCryptoData_reserves computed mem inDetails)
    have grows : ∀ {pre after : Stores}, Grown (fun _ _ => False) pre after →
        (pre.isTombstoned .deleteReserve reservePub ∨
          pre.isTombstoned .deleteWithdrawalGroup wg.withdrawalGroupId ∨
          pre.withdrawalGroups.contains wg.withdrawalGroupId) →
        (after.isTombstoned .deleteReserve reservePub ∨
          after.isTombstoned .deleteWithdrawalGroup wg.withdrawalGroupId ∨
          after.withdrawalGroups.contains wg.withdrawalGroupId) :=
      fun grown got => got.imp (Grown.isTombstoned _ _ grown)
        (Or.imp (Grown.isTombstoned _ _ grown) grown.kept.withdrawalGroups.contains)
    have got := contents _ mem grows
      (found_reserves inDetails _ grows (found_withdrawalGroup inReserve known))
    rw [isTombstoned_grown grown, isTombstoned_grown grown] at got
    rcases got with reserveTombstoned | dead | present
    · exact (takes.withdrawalGroups backup mem reserve inDetails reservePub
        (sound.reserves _ _ known) reserveTombstoned wg inReserve).imp_left (keeps _)
    · exact .inr dead
    obtain ⟨row, isRecord⟩ := isSome_iff_exists.mp present
    left
    exact ⟨_, row, isRecord, afterConsistent.withdrawalGroups _ _ isRecord,
      (attached.withdrawalGroups _ _ isRecord).resolve_left (contains_of_missing missing)⟩
  | proposal propId =>
    obtain ⟨proposal, mem, rfl⟩ := has
    have got := PutsOnce.foldlM_done (@Grown.proposalsPart fun _ _ => False)
      (importProposal_once env cryptoComp) (fun _ => Grown.isTombstoned _ _)
      (fun grown => grown.kept.proposals.contains) mem stages.isProposals
    rcases got with dead | present
    · right
      rw [← isTombstoned_grown fromProposals, isTombstoned_grown grown] at dead
      exact dead
    obtain ⟨row, isRecord⟩ := isSome_iff_exists.mp
      (fromProposals.kept.proposals.contains present)
    obtain ⟨isNonce, notAccepted⟩ :=
      (attached.proposals _ _ isRecord).resolve_left (contains_of_missing missing.1)
    left
    refine ⟨_, row, isRecord, isNonce, notAccepted, ?_⟩
    intro key purch paid eq
    have isPaid := afterConsistent.purchases key purch paid
    have isKey := afterConsistent.proposals _ row isRecord
    have sameKey : key = proposal.proposalId := isPaid.symm.trans (eq.trans isKey)
    rcases attached.purchases key purch paid with known | new
    · rw [sameKey] at known
      exact contains_of_missing missing.2 known
    · obtain ⟨purchase, inContent, isId⟩ := new
      exact takes.proposals proposal mem purchase inContent (isId.trans sameKey)
  | purchase propId =>
    obtain ⟨purchase, mem, rfl⟩ := has
    have got := PutsOnce.foldlM_done (@Grown.purchasesPart fun _ _ => False)
      (importPurchase_once env cryptoComp) (fun _ => Grown.isTombstoned _ _)
      (fun grown => grown.kept.purchases.contains) mem stages.isPurchases
    rcases got with dead | present
    · right
      rw [← isTombstoned_grown fromPurchases, isTombstoned_grown grown] at dead
      exact dead
    obtain ⟨row, isRecord⟩ := isSome_iff_exists.mp
      (fromPurchases.kept.purchases.contains present)
    exact .inl ⟨_, row, isRecord, afterConsistent.purchases _ _ isRecord⟩
  | refreshGroup groupId =>
    obtain ⟨refreshGroup, mem, rfl⟩ := has
    have got := PutsOnce.foldlM_done (@Grown.refreshGroupsPart fun _ _ => False)
      (importRefreshGroup_once env.now) (fun _ => Grown.isTombstoned _ _)
      (fun grown => grown.kept.refreshGroups.contains) mem stages.isRefreshGroups
    rcases got with dead | present
    · right
      rw [← isTombstoned_grown fromRefreshGroups, isTombstoned_grown grown] at dead
      exact dead
    obtain ⟨row, isRecord⟩ := isSome_iff_exists.mp
      (fromRefreshGroups.kept.refreshGroups.contains present)
    exact .inl ⟨_, row, isRecord, afterConsistent.refreshGroups _ _ isRecord⟩
  | recoupGroup cgId => cases missing
  | tip tipId =>
    obtain ⟨tip, mem, rfl⟩ := has
    have got := PutsOnce.foldlM_done (@Grown.tipsPart fun _ _ => False)
      (importTip_once env.now) (fun _ => Grown.isTombstoned _ _)
      (fun grown => grown.kept.tips.contains) mem stages.isTips
    rcases got with dead | present
    · right
      rw [isTombstoned_grown grown] at dead
      exact dead
    · obtain ⟨row, isRecord⟩ := isSome_iff_exists.mp present
      exact .inl ⟨_, row, isRecord, afterConsistent.tips _ _ isRecord⟩
  | backupProvider baseUrl => cases missing

/-- The whole transaction: on consistent stores the second pass finds nothing to delete. -/
theorem importTransaction_adopts (consistent : stores.Consistent keys)
    (takes : stores.Takes keys content) (regular : content.Regular)
    (computed : computeBackupCryptoData keys content = some cryptoComp)
    (r : stores.importTransaction env cryptoComp content = some after) :
    after.Consistent keys ∧ Grown (fun _ _ => False) stores after ∧
      after.backupProviders = stores.backupProviders ∧
      (∀ object, stores.Exports keys object → after.Exports keys object) ∧
      ∀ object, content.Has keys object → after.Exports keys object ∨ stores.Buried object := by
  obtain ⟨marked, imported, isMarked, objects, deletions⟩ := importTransaction_passes r
  rw [regular.tombstones] at isMarked
  cases isMarked
  have sound := computeBackupCryptoData_sound regular.unrestricted computed
  obtain ⟨exs, dt, proposals, buys, groups, stages⟩ := importObjects_stages objects
  have puts : ReflTransGen (Puts keys content) stores imported := stages.puts sound regular
  have importedConsistent := consistent.puts puts
  have grown : Grown (fun _ _ => False) stores imported := puts_grow puts
  have eq : after = imported := by
    have kept : Grown stores.Tombstoned imported after :=
      processTombstones_keep tombstoned_of_keys deletions
    have shrunk : Grown stores.Tombstoned after imported := processTombstones_shrink deletions
    apply shrunk.kept.antisymm kept.kept
    · rintro tag id ⟨tomb, mem, names⟩
      exact processTombstones_absent deletions mem names
    intro tag id dead
    rw [← tombstoned_grown grown] at dead
    exact importedConsistent.absent tag id dead
  rw [eq]
  exact ⟨importedConsistent, grown, puts_backupProviders puts,
    importObjects_adopts consistent takes regular computed objects⟩

end Adopts

end Stores

end Anastasis.Wallet.Backup
