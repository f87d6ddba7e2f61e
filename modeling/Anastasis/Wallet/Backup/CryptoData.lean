import Anastasis.Library.Merge
import Anastasis.Wallet.Backup.Import

/-! The keys and hashes that are computed from a backup before its import. -/

set_option autoImplicit false

namespace Anastasis.Wallet.Backup

open Library TalerUtil Option

/-- Functions of the cryptographic library, on the texts of their arguments; they throw on texts
that cannot be decoded. -/
structure BackupKeys where
  eddsaGetPublic : String → Option String
  coinEvHash : (coinPriv blindingKey rsaPublicKey : String) → Option String
  hashDenomPub : DenominationPubKey → Option String
  hashString : String → String

namespace BackupCryptoPrecomputedData

def empty : BackupCryptoPrecomputedData where
  rsaDenomPubToHash := .empty
  coinPrivToCompletedCoin := .empty
  proposalNoncePrivToPub := .empty
  proposalIdToContractTermsHash := .empty
  reservePrivToPub := .empty

variable (keys : BackupKeys) (cryptoData : BackupCryptoPrecomputedData)

def addCoin (rsaPublicKey : String) (backupCoin : BackupCoin) :
    Option BackupCryptoPrecomputedData := do
  let coinPub ← keys.eddsaGetPublic backupCoin.coinPriv
  let coinEvHash ← keys.coinEvHash backupCoin.coinPriv backupCoin.blindingKey rsaPublicKey
  pure
    { cryptoData with
      coinPrivToCompletedCoin := cryptoData.coinPrivToCompletedCoin.set backupCoin.coinPriv
        { coinPub := coinPub
          coinEvHash := coinEvHash } }

def addDenomination (backupDenom : BackupDenomination) : Option BackupCryptoPrecomputedData := do
  if backupDenom.denomPub.cipher ≠ 1 then none
  else
    let cryptoData ← backupDenom.coins.foldlM
      (fun cryptoData backupCoin =>
        addCoin keys cryptoData backupDenom.denomPub.rsaPublicKey backupCoin)
      cryptoData
    let denomPubHash ← keys.hashDenomPub backupDenom.denomPub
    pure
      { cryptoData with
        rsaDenomPubToHash :=
          cryptoData.rsaDenomPubToHash.set backupDenom.denomPub.rsaPublicKey denomPubHash }

def addReserve (backupReserve : BackupReserve) : Option BackupCryptoPrecomputedData := do
  let reservePub ← keys.eddsaGetPublic backupReserve.reservePriv
  pure
    { cryptoData with
      reservePrivToPub := cryptoData.reservePrivToPub.set backupReserve.reservePriv reservePub }

def addExchangeDetails (backupExchangeDetails : BackupExchangeDetails) :
    Option BackupCryptoPrecomputedData := do
  let cryptoData ← backupExchangeDetails.denominations.foldlM (addDenomination keys) cryptoData
  backupExchangeDetails.reserves.foldlM (addReserve keys) cryptoData

def addContractTerms (proposalId noncePriv : String) (contractTermsRaw : Option Json) :
    Option BackupCryptoPrecomputedData := do
  let contractTermsRaw ← contractTermsRaw
  let contractTermsHash := keys.hashString (canonicalJson contractTermsRaw)
  let noncePub ← keys.eddsaGetPublic noncePriv
  pure
    { cryptoData with
      proposalNoncePrivToPub := cryptoData.proposalNoncePrivToPub.set noncePriv noncePub
      proposalIdToContractTermsHash :=
        cryptoData.proposalIdToContractTermsHash.set proposalId contractTermsHash }

end BackupCryptoPrecomputedData

def computeBackupCryptoData (keys : BackupKeys) (backupContent : WalletBackupContentV1) :
    Option BackupCryptoPrecomputedData := do
  let cryptoData ← backupContent.exchangeDetails.foldlM
    (BackupCryptoPrecomputedData.addExchangeDetails keys) .empty
  let cryptoData ← backupContent.proposals.foldlM
    (fun cryptoData prop =>
      cryptoData.addContractTerms keys prop.proposalId prop.noncePriv prop.contractTermsRaw)
    cryptoData
  backupContent.purchases.foldlM
    (fun cryptoData purch =>
      cryptoData.addContractTerms keys purch.proposalId purch.noncePriv (some purch.contractTermsRaw))
    cryptoData

/-- Every key and hash of a coin, a reserve or a denomination is the one of its text. -/
structure BackupCryptoPrecomputedData.Sound (keys : BackupKeys)
    (cryptoData : BackupCryptoPrecomputedData) : Prop where
  coins : ∀ coinPriv compCoin, cryptoData.coinPrivToCompletedCoin.get? coinPriv = some compCoin →
    keys.eddsaGetPublic coinPriv = some compCoin.coinPub
  reserves : ∀ reservePriv reservePub, cryptoData.reservePrivToPub.get? reservePriv = some reservePub →
    keys.eddsaGetPublic reservePriv = some reservePub
  denominations : ∀ rsaPublicKey denomPubHash,
    cryptoData.rsaDenomPubToHash.get? rsaPublicKey = some denomPubHash →
      keys.hashDenomPub ⟨1, rsaPublicKey, none⟩ = some denomPubHash

def WalletBackupContentV1.Unrestricted (backupContent : WalletBackupContentV1) : Prop :=
  ∀ details ∈ backupContent.exchangeDetails, ∀ denomination ∈ details.denominations,
    denomination.denomPub.ageMask = none

namespace BackupCryptoPrecomputedData

variable {keys : BackupKeys} {cryptoData after : BackupCryptoPrecomputedData}

theorem Sound.addCoin {rsaPublicKey : String} {backupCoin : BackupCoin}
    (r : cryptoData.addCoin keys rsaPublicKey backupCoin = some after)
    (sound : cryptoData.Sound keys) : after.Sound keys := by
  obtain ⟨pub, isPub, r⟩ := bind_eq_some_iff.mp r
  obtain ⟨coinEvHash, _, isAfter⟩ := bind_eq_some_iff.mp r
  cases isAfter
  refine ⟨?_, sound.reserves, sound.denominations⟩
  intro coinPriv compCoin h
  rw [Record.get?_set] at h
  split at h
  next eq =>
    cases h
    rw [eq]
    exact isPub
  next => exact sound.coins coinPriv compCoin h

theorem Sound.addDenomination {backupDenom : BackupDenomination}
    (unrestricted : backupDenom.denomPub.ageMask = none)
    (r : cryptoData.addDenomination keys backupDenom = some after)
    (sound : cryptoData.Sound keys) : after.Sound keys := by
  rw [BackupCryptoPrecomputedData.addDenomination] at r
  split at r
  next => cases r
  next rsa =>
    obtain ⟨withCoins, cs, r⟩ := bind_eq_some_iff.mp r
    obtain ⟨hash, isHash, isAfter⟩ := bind_eq_some_iff.mp r
    cases isAfter
    have soundCoins : withCoins.Sound keys :=
      foldlM_preserves (fun _ _ _ _ one sound => Sound.addCoin one sound) cs sound
    refine ⟨soundCoins.coins, soundCoins.reserves, ?_⟩
    intro rsaPublicKey h isF
    rw [Record.get?_set] at isF
    split at isF
    next eq =>
      cases isF
      have isKey : backupDenom.denomPub = ⟨1, rsaPublicKey, none⟩ := by
        rw [eq, ← unrestricted, ← not_not.mp rsa]
      rw [← isKey]
      exact isHash
    next => exact soundCoins.denominations rsaPublicKey h isF

theorem Sound.addReserve {backupReserve : BackupReserve}
    (r : cryptoData.addReserve keys backupReserve = some after)
    (sound : cryptoData.Sound keys) : after.Sound keys := by
  obtain ⟨pub, isPub, isAfter⟩ := bind_eq_some_iff.mp r
  cases isAfter
  refine ⟨sound.coins, ?_, sound.denominations⟩
  intro reservePriv h isF
  rw [Record.get?_set] at isF
  split at isF
  next eq =>
    cases isF
    rw [eq]
    exact isPub
  next => exact sound.reserves reservePriv h isF

theorem Sound.addExchangeDetails {dt : BackupExchangeDetails}
    (unrestricted : ∀ denom ∈ dt.denominations, denom.denomPub.ageMask = none)
    (r : cryptoData.addExchangeDetails keys dt = some after)
    (sound : cryptoData.Sound keys) : after.Sound keys := by
  obtain ⟨between, ds, reserves⟩ := bind_eq_some_iff.mp r
  have soundBetween : between.Sound keys := foldlM_preserves (fun denom mem _ _ one sound =>
      Sound.addDenomination (unrestricted denom mem) one sound)
    ds sound
  exact foldlM_preserves (fun _ _ _ _ one sound => Sound.addReserve one sound) reserves soundBetween

theorem Sound.addContractTerms {pid noncePriv : String} {contractTermsRaw : Option Json}
    (r : cryptoData.addContractTerms keys pid noncePriv contractTermsRaw = some after)
    (sound : cryptoData.Sound keys) : after.Sound keys := by
  obtain ⟨raw, _, r⟩ := bind_eq_some_iff.mp r
  obtain ⟨noncePub, _, isAfter⟩ := bind_eq_some_iff.mp r
  cases isAfter
  exact ⟨sound.coins, sound.reserves, sound.denominations⟩

end BackupCryptoPrecomputedData

theorem computeBackupCryptoData_sound {keys : BackupKeys} {backupContent : WalletBackupContentV1}
    {cryptoData : BackupCryptoPrecomputedData} (unrestricted : backupContent.Unrestricted)
    (computed : computeBackupCryptoData keys backupContent = some cryptoData) :
    cryptoData.Sound keys := by
  obtain ⟨withDetails, dt, computed⟩ := bind_eq_some_iff.mp computed
  obtain ⟨withProposals, proposals, buys⟩ := bind_eq_some_iff.mp computed
  have initial : BackupCryptoPrecomputedData.empty.Sound keys := by
    refine ⟨?_, ?_, ?_⟩
    · intro coinPriv compCoin h
      cases (Record.get?_empty coinPriv).symm.trans h
    · intro reservePriv pub h
      cases (Record.get?_empty reservePriv).symm.trans h
    · intro rsaPublicKey hash h
      cases (Record.get?_empty rsaPublicKey).symm.trans h
  have soundDetails : withDetails.Sound keys := foldlM_preserves (fun dt mem _ _ one sound =>
      BackupCryptoPrecomputedData.Sound.addExchangeDetails (unrestricted dt mem) one sound)
    dt initial
  have soundProposals : withProposals.Sound keys := foldlM_preserves
    (fun _ _ _ _ one sound => BackupCryptoPrecomputedData.Sound.addContractTerms one sound)
    proposals soundDetails
  exact foldlM_preserves
    (fun _ _ _ _ one sound => BackupCryptoPrecomputedData.Sound.addContractTerms one sound)
    buys soundProposals

namespace BackupCryptoPrecomputedData

structure Extended (before after : BackupCryptoPrecomputedData) : Prop where
  denominations : ∀ {rsaPublicKey}, (before.rsaDenomPubToHash.get? rsaPublicKey).isSome →
    (after.rsaDenomPubToHash.get? rsaPublicKey).isSome
  coins : ∀ {coinPriv}, (before.coinPrivToCompletedCoin.get? coinPriv).isSome →
    (after.coinPrivToCompletedCoin.get? coinPriv).isSome
  reserves : ∀ {reservePriv}, (before.reservePrivToPub.get? reservePriv).isSome →
    (after.reservePrivToPub.get? reservePriv).isSome

theorem isSome_set {Value : Type} {r : Record String Value} {key y : String} {v : Value}
    (present : (r.get? y).isSome) : ((r.set key v).get? y).isSome := by
  rw [Record.get?_set]
  split
  next => rfl
  next => exact present

namespace Extended

theorem refl (cryptoData : BackupCryptoPrecomputedData) : Extended cryptoData cryptoData :=
  ⟨id, id, id⟩

theorem trans {first y third : BackupCryptoPrecomputedData} (early : Extended first y)
    (late : Extended y third) : Extended first third :=
  ⟨late.denominations ∘ early.denominations, late.coins ∘ early.coins,
    late.reserves ∘ early.reserves⟩

variable {before pre : BackupCryptoPrecomputedData}

theorem foldlM {Item : Type}
    {step : BackupCryptoPrecomputedData → Item → Option BackupCryptoPrecomputedData}
    (each : ∀ {item before after}, step before item = some after → Extended before after)
    {items : List Item} {after : BackupCryptoPrecomputedData}
    (r : items.foldlM step before = some after) : Extended before after :=
  foldlM_preserves (fun _ _ _ _ one extended => extended.trans (each one)) r (refl before)

theorem addCoin {keys : BackupKeys} {after : BackupCryptoPrecomputedData} {rsaPublicKey : String}
    {backupCoin : BackupCoin} (r : before.addCoin keys rsaPublicKey backupCoin = some after) :
    Extended before after := by
  obtain ⟨pub, _, r⟩ := bind_eq_some_iff.mp r
  obtain ⟨coinEvHash, _, isAfter⟩ := bind_eq_some_iff.mp r
  cases isAfter
  exact ⟨id, isSome_set, id⟩

theorem addDenomination {keys : BackupKeys} {after : BackupCryptoPrecomputedData}
    {backupDenom : BackupDenomination}
    (r : before.addDenomination keys backupDenom = some after) : Extended before after := by
  rw [BackupCryptoPrecomputedData.addDenomination] at r
  split at r
  next => cases r
  next =>
    obtain ⟨withCoins, cs, r⟩ := bind_eq_some_iff.mp r
    obtain ⟨hash, _, isAfter⟩ := bind_eq_some_iff.mp r
    cases isAfter
    exact (foldlM addCoin cs).trans ⟨isSome_set, id, id⟩

theorem addReserve {keys : BackupKeys} {after : BackupCryptoPrecomputedData}
    {backupReserve : BackupReserve}
    (r : before.addReserve keys backupReserve = some after) : Extended before after := by
  obtain ⟨pub, _, isAfter⟩ := bind_eq_some_iff.mp r
  cases isAfter
  exact ⟨id, id, isSome_set⟩

theorem addExchangeDetails {keys : BackupKeys} {after : BackupCryptoPrecomputedData}
    {dt : BackupExchangeDetails}
    (r : before.addExchangeDetails keys dt = some after) : Extended before after := by
  obtain ⟨between, ds, reserves⟩ := bind_eq_some_iff.mp r
  exact (foldlM addDenomination ds).trans (foldlM addReserve reserves)

theorem addContractTerms {keys : BackupKeys} {after : BackupCryptoPrecomputedData}
    {pid noncePriv : String} {contractTermsRaw : Option Json}
    (r : before.addContractTerms keys pid noncePriv contractTermsRaw = some after) :
    Extended before after := by
  obtain ⟨raw, _, r⟩ := bind_eq_some_iff.mp r
  obtain ⟨noncePub, _, isAfter⟩ := bind_eq_some_iff.mp r
  cases isAfter
  exact ⟨id, id, id⟩

end Extended

end BackupCryptoPrecomputedData

theorem computeBackupCryptoData_reserves {keys : BackupKeys} {backupContent : WalletBackupContentV1}
    {cryptoData : BackupCryptoPrecomputedData}
    (computed : computeBackupCryptoData keys backupContent = some cryptoData)
    {dt : BackupExchangeDetails} (inContent : dt ∈ backupContent.exchangeDetails)
    {rv : BackupReserve} (inDetails : rv ∈ dt.reserves) :
    (cryptoData.reservePrivToPub.get? rv.reservePriv).isSome := by
  obtain ⟨withDetails, isDetails, computed⟩ := bind_eq_some_iff.mp computed
  obtain ⟨withProposals, proposals, buys⟩ := bind_eq_some_iff.mp computed
  have has : (withDetails.reservePrivToPub.get? rv.reservePriv).isSome := by
    refine @foldlM_reaches _ _ _ (fun data : BackupCryptoPrecomputedData =>
      (data.reservePrivToPub.get? rv.reservePriv).isSome) _ ?_ _ inContent ?_ _ _ isDetails
    · intro _ _ pre after one present
      exact (BackupCryptoPrecomputedData.Extended.addExchangeDetails one).reserves present
    intro pre after one
    obtain ⟨between, _, reserves⟩ := bind_eq_some_iff.mp one
    refine @foldlM_reaches _ _ _ (fun data : BackupCryptoPrecomputedData =>
      (data.reservePrivToPub.get? rv.reservePriv).isSome) _ ?_ _ inDetails ?_ _ _ reserves
    · intro _ _ pre after one present
      exact (BackupCryptoPrecomputedData.Extended.addReserve one).reserves present
    intro pre after one
    obtain ⟨pub, _, isAfter⟩ := bind_eq_some_iff.mp one
    cases isAfter
    dsimp only
    rw [Record.get?_set_self]
    rfl
  have extended := (BackupCryptoPrecomputedData.Extended.foldlM
    BackupCryptoPrecomputedData.Extended.addContractTerms proposals).trans
      (BackupCryptoPrecomputedData.Extended.foldlM
        BackupCryptoPrecomputedData.Extended.addContractTerms buys)
  exact extended.reserves has

end Anastasis.Wallet.Backup
