import Anastasis.Wallet.ProposalDownloads

/-! What holds of proposals and of the calls that download them, after any steps. -/

set_option autoImplicit false

namespace Anastasis.Wallet.Downloads

open Library Library.Transition List Option

/-! ## How a record may change -/

structure Follow (p p' : Proposal) : Prop where
  proposalId : p'.proposalId = p.proposalId
  merchantBaseUrl : p'.merchantBaseUrl = p.merchantBaseUrl
  orderId : p'.orderId = p.orderId
  download : ∀ download, p.download = some download →
    p.proposalStatus ≠ .downloading → p'.download = some download
  downloading : p'.proposalStatus = .downloading →
    p.proposalStatus = .downloading ∧ p'.download = p.download
  leaves : p.proposalStatus = .downloading → p'.proposalStatus = .downloading ∨
    p'.proposalStatus = .proposed ∨ p'.proposalStatus = .repurchase ∨
    p'.proposalStatus = .permanentlyFailed

/-- A change after which a proposal is no repurchase that it was not before. -/
structure Keep (p p' : Proposal) : Prop extends Follow p p' where
  repurchase : p'.proposalStatus = .repurchase → p.proposalStatus = .repurchase ∧
    p'.repurchaseProposalId = p.repurchaseProposalId ∧ p'.download = p.download

variable {p p' : Proposal}

theorem Keep.ofStatus (propId : p'.proposalId = p.proposalId)
    (merchantBaseUrl : p'.merchantBaseUrl = p.merchantBaseUrl) (orderId : p'.orderId = p.orderId)
    (download : p'.download = p.download)
    (repurchaseProposalId : p'.repurchaseProposalId = p.repurchaseProposalId)
    (leaves : p'.proposalStatus = p.proposalStatus ∨ p'.proposalStatus = .permanentlyFailed ∨
      (p.proposalStatus ≠ .downloading ∧ p'.proposalStatus ≠ .downloading ∧
        p'.proposalStatus ≠ .repurchase)) : Keep p p' := by
  constructor
  · constructor
    · exact propId
    · exact merchantBaseUrl
    · exact orderId
    · exact fun _ h _ => download.trans h
    · intro still
      rcases leaves with eq | failed | ⟨_, y, _⟩
      · exact ⟨eq ▸ still, download⟩
      · exact absurd (still.symm.trans failed) (by decide)
      · exact absurd still y
    intro pre
    rcases leaves with eq | failed | ⟨y, _⟩
    · exact .inl (eq.trans pre)
    · exact .inr (.inr (.inr failed))
    · exact absurd pre y
  · intro after
    rcases leaves with eq | failed | ⟨_, _, y⟩
    · exact ⟨eq ▸ after, repurchaseProposalId, download⟩
    · exact absurd (after.symm.trans failed) (by decide)
    · exact absurd after y

namespace Proposal

theorem keep_resetRetry (p : Proposal) : Keep p (resetRetry p) :=
  .ofStatus rfl rfl rfl rfl rfl (.inl rfl)

theorem keep_incrementRetry (p : Proposal) (err : String) : Keep p (incrementRetry p err) := by
  unfold incrementRetry
  split
  · exact .ofStatus rfl rfl rfl rfl rfl (.inl rfl)
  · exact .ofStatus rfl rfl rfl rfl rfl (.inl rfl)

theorem keep_failPermanently (p : Proposal) (err : String) : Keep p (failPermanently p err) :=
  .ofStatus rfl rfl rfl rfl rfl (.inr (.inl rfl))

theorem keep_refuse (p : Proposal) : Keep p (refuse p) := by
  unfold refuse
  split
  next proposed =>
    have y : p.proposalStatus ≠ .downloading := by
      rw [proposed]
      decide
    exact .ofStatus rfl rfl rfl rfl rfl (.inr (.inr ⟨y, nofun, nofun⟩))
  next => exact .ofStatus rfl rfl rfl rfl rfl (.inl rfl)

theorem keep_accept (now : Nat) (past : p.proposalStatus ≠ .downloading) : Keep p (accept now p) :=
  .ofStatus rfl rfl rfl rfl rfl (.inr (.inr ⟨past, nofun, nofun⟩))

theorem follow_storeDownload (p : Proposal) (download : ProposalDownload)
    (differentPurchase : Option String) :
    Follow p (storeDownload p download differentPurchase) := by
  unfold storeDownload
  split
  next => exact ⟨rfl, rfl, rfl, fun _ h _ => h, fun still => ⟨still, rfl⟩, .inl⟩
  next loading =>
    have pre : p.proposalStatus = .downloading := not_not.mp loading
    cases differentPurchase with
    | none => exact ⟨rfl, rfl, rfl, fun _ _ past => absurd pre past, nofun, fun _ => .inr (.inl rfl)⟩
    | some y =>
      exact ⟨rfl, rfl, rfl, fun _ _ past => absurd pre past, nofun, fun _ => .inr (.inr (.inl rfl))⟩

end Proposal

/-! ## The stores -/

namespace ProposalStores

variable (stores : ProposalStores)

def Downloaded (proposalId : String) (download : ProposalDownload) : Prop :=
  ∃ p, stores.proposals.get? proposalId = some p ∧ p.proposalStatus ≠ .downloading ∧
    p.download = some download

def Unique : Prop :=
  ∀ first second p q, stores.proposals.get? first = some p →
    stores.proposals.get? second = some q → p.merchantBaseUrl = q.merchantBaseUrl →
    p.orderId = q.orderId → first = second

/-- A repurchase names another proposal, with a purchase for the same page. -/
def Repurchased : Prop :=
  ∀ proposalId p, stores.proposals.get? proposalId = some p → p.proposalStatus = .repurchase →
    ∃ other otherProposal purchase download,
      p.repurchaseProposalId = some other ∧ other ≠ proposalId ∧
      stores.proposals.get? other = some otherProposal ∧
      stores.purchases.get? other = some purchase ∧ p.download = some download ∧
      purchase.contractData.fulfillmentUrl = download.contractData.fulfillmentUrl

def Repurchases (purchases : SortedMap String ProposalDownload) (proposalId : String)
    (p : Proposal) : Prop :=
  p.proposalStatus = .repurchase → ∃ other purchase download,
    p.repurchaseProposalId = some other ∧ other ≠ proposalId ∧
    purchases.get? other = some purchase ∧ p.download = some download ∧
    purchase.contractData.fulfillmentUrl = download.contractData.fulfillmentUrl

structure Sound : Prop where
  keyed : ∀ proposalId p, stores.proposals.get? proposalId = some p → p.proposalId = proposalId
  unique : stores.Unique
  downloading : ∀ proposalId p, stores.proposals.get? proposalId = some p →
    p.proposalStatus = .downloading → p.download = none ∧ proposalId ∉ stores.written
  purchased : ∀ proposalId download, stores.purchases.get? proposalId = some download →
    stores.Downloaded proposalId download
  written : stores.written.Nodup
  writtenStored : ∀ proposalId ∈ stores.written, stores.proposals.contains proposalId = true
  repurchases : ∀ proposalId p, stores.proposals.get? proposalId = some p →
    Repurchases stores.purchases proposalId p

def Grown (stores' : ProposalStores) : Prop :=
  ∀ proposalId p, stores.proposals.get? proposalId = some p →
    ∃ p', stores'.proposals.get? proposalId = some p' ∧ Follow p p'

variable {stores} {stores' : ProposalStores}

theorem Grown.refl : stores.Grown stores := fun _ p h =>
  ⟨p, h, rfl, rfl, rfl, fun _ isDownload _ => isDownload, fun still => ⟨still, rfl⟩, .inl⟩

theorem Grown.downloaded (grown : stores.Grown stores') {proposalId : String}
    {download : ProposalDownload} (downloaded : stores.Downloaded proposalId download) :
    stores'.Downloaded proposalId download := by
  obtain ⟨p, h, past, isDownload⟩ := downloaded
  obtain ⟨p', got, follow⟩ := grown proposalId p h
  exact ⟨p', got, fun still => past (follow.downloading still).1,
    follow.download download isDownload past⟩

theorem Sound.downloaded (sound : stores.Sound) {proposalId : String} {p : Proposal}
    {download : ProposalDownload} (h : stores.proposals.get? proposalId = some p)
    (isDownload : p.download = some download) : stores.Downloaded proposalId download := by
  refine ⟨p, h, ?_, isDownload⟩
  intro still
  rw [(sound.downloading proposalId p h still).1] at isDownload
  cases isDownload

variable {proposalId id propId : String}

theorem grown_insert {p p' : Proposal} (h : stores.proposals.get? propId = some p)
    (follow : Follow p p') (isStores' : stores'.proposals = stores.proposals.insert propId p') :
    stores.Grown stores' := by
  intro y q foundOther
  rw [isStores', SortedMap.get?_insert]
  split
  next eq =>
    cases eq
    cases h.symm.trans foundOther
    exact ⟨p', rfl, follow⟩
  next => exact Grown.refl y q foundOther

theorem replaced_cases {y : String} {p p' q : Proposal} (h : stores.proposals.get? propId = some p)
    (foundOther : (stores.proposals.insert propId p').get? y = some q) :
    ∃ q₀, stores.proposals.get? y = some q₀ ∧ (q = q₀ ∨ (y = propId ∧ q₀ = p ∧ q = p')) := by
  rw [SortedMap.get?_insert] at foundOther
  split at foundOther
  next eq =>
    cases eq
    cases foundOther
    exact ⟨p, h, .inr ⟨rfl, rfl, rfl⟩⟩
  next => exact ⟨q, foundOther, .inl rfl⟩

theorem unique_insert (unique : stores.Unique) {p p' : Proposal}
    (h : stores.proposals.get? propId = some p) (follow : Follow p p')
    (isStores' : stores'.proposals = stores.proposals.insert propId p') : stores'.Unique := by
  intro x y q r isFirst isSecond sameUrl sameOrder
  rw [isStores'] at isFirst isSecond
  obtain ⟨q₀, isFirst₀, changedFirst⟩ := replaced_cases h isFirst
  obtain ⟨r₀, isSecond₀, changedSecond⟩ := replaced_cases h isSecond
  have firstKept : q.merchantBaseUrl = q₀.merchantBaseUrl ∧ q.orderId = q₀.orderId := by
    rcases changedFirst with eq | ⟨_, isBefore, isAfter⟩
    · exact eq ▸ ⟨rfl, rfl⟩
    · exact isBefore ▸ isAfter ▸ ⟨follow.merchantBaseUrl, follow.orderId⟩
  have secondKept : r.merchantBaseUrl = r₀.merchantBaseUrl ∧ r.orderId = r₀.orderId := by
    rcases changedSecond with eq | ⟨_, isBefore, isAfter⟩
    · exact eq ▸ ⟨rfl, rfl⟩
    · exact isBefore ▸ isAfter ▸ ⟨follow.merchantBaseUrl, follow.orderId⟩
  exact unique x y q₀ r₀ isFirst₀ isSecond₀ (firstKept.1.symm.trans (sameUrl.trans secondKept.1))
    (firstKept.2.symm.trans (sameOrder.trans secondKept.2))

theorem Sound.repurchased (sound : stores.Sound) : stores.Repurchased := by
  intro propId p h repurchase
  obtain ⟨y, purchase, download, isOther, ne, isBuy, isDownload, eq⟩ :=
    sound.repurchases propId p h repurchase
  obtain ⟨otherProposal, isProp, _⟩ := sound.purchased y purchase isBuy
  exact ⟨y, otherProposal, purchase, download, isOther, ne, isProp, isBuy, isDownload, eq⟩

theorem Repurchases.purchases {buys purchases' : SortedMap String ProposalDownload}
    {p : Proposal} (repurchases : Repurchases buys proposalId p)
    (kept : ∀ y download, buys.get? y = some download → purchases'.get? y =
      some download) : Repurchases purchases' proposalId p := by
  intro repurchase
  obtain ⟨y, purchase, download, isOther, ne, isBuy, rest⟩ := repurchases repurchase
  exact ⟨y, purchase, download, isOther, ne, kept y purchase isBuy, rest⟩

theorem Repurchases.keep {buys : SortedMap String ProposalDownload} {p p' : Proposal}
    (repurchases : Repurchases buys propId p) (keep : Keep p p') :
    Repurchases buys propId p' := by
  intro after
  obtain ⟨pre, sameOther, sameDownload⟩ := keep.repurchase after
  obtain ⟨y, purchase, download, isOther, ne, isBuy, isDownload, eq⟩ := repurchases pre
  exact ⟨y, purchase, download, sameOther.trans isOther, ne, isBuy,
    sameDownload.trans isDownload, eq⟩

/-- One record is replaced, and purchases may be added for proposals that have been downloaded. -/
theorem Sound.replace (sound : stores.Sound) {p p' : Proposal}
    (h : stores.proposals.get? propId = some p) (follow : Follow p p')
    (isProposals : stores'.proposals = stores.proposals.insert propId p')
    (kept : ∀ other download, stores.purchases.get? other = some download →
      stores'.purchases.get? other = some download)
    (purchased : ∀ other download, stores'.purchases.get? other = some download →
      stores.Downloaded other download) (written : stores'.written = stores.written ∨
      (stores'.written = stores.written ++ [propId] ∧ p.proposalStatus = .downloading ∧
      p'.proposalStatus ≠ .downloading)) (repurchases : Repurchases stores'.purchases propId p') :
    stores'.Sound := by
  have grown : stores.Grown stores' := grown_insert h follow isProposals
  constructor
  · intro other q foundOther
    rw [isProposals] at foundOther
    obtain ⟨q₀, found₀, eq | ⟨_, isBefore, isAfter⟩⟩ := replaced_cases h foundOther
    · exact eq ▸ sound.keyed other q₀ found₀
    · have pre := sound.keyed other q₀ found₀
      exact isAfter ▸ follow.proposalId.trans (isBefore ▸ pre)
  · exact unique_insert sound.unique h follow isProposals
  · intro other q foundOther still
    rw [isProposals] at foundOther
    obtain ⟨q₀, found₀, changed⟩ := replaced_cases h foundOther
    have pre : q₀.proposalStatus = .downloading ∧ q.download = q₀.download := by
      rcases changed with eq | ⟨_, isBefore, isAfter⟩
      · exact eq ▸ ⟨eq ▸ still, rfl⟩
      · exact isBefore ▸ isAfter ▸ follow.downloading (isAfter ▸ still)
    obtain ⟨isNone, unwritten⟩ := sound.downloading other q₀ found₀ pre.1
    refine ⟨pre.2.trans isNone, ?_⟩
    rcases written with eq | ⟨isWritten, _, past⟩
    · exact eq ▸ unwritten
    rw [isWritten]
    intro mem
    rcases mem_append.mp mem with old | last
    · exact unwritten old
    cases mem_singleton.mp last
    rw [SortedMap.get?_insert_self] at foundOther
    cases foundOther
    exact past still
  · intro other download isBuy
    exact grown.downloaded (purchased other download isBuy)
  · rcases written with eq | ⟨isWritten, pre, _⟩
    · exact eq ▸ sound.written
    rw [isWritten]
    exact nodup_append.mpr ⟨sound.written, nodup_singleton _, fun x isFirst y
      isSecond eq => (sound.downloading propId p h pre).2
        (mem_singleton.mp isSecond ▸ eq ▸ isFirst)⟩
  · intro other isWritten
    have stored : ∀ q, stores.proposals.get? other = some q →
        stores'.proposals.contains other = true := by
      intro q isBefore
      obtain ⟨q', isAfter, _⟩ := grown other q isBefore
      exact isSome_iff_exists.mpr ⟨q', isAfter⟩
    rcases written with eq | ⟨isWritten', _, _⟩
    · rw [eq] at isWritten
      obtain ⟨q, isBefore⟩ := isSome_iff_exists.mp (sound.writtenStored other isWritten)
      exact stored q isBefore
    rw [isWritten'] at isWritten
    rcases mem_append.mp isWritten with old | last
    · obtain ⟨q, isBefore⟩ := isSome_iff_exists.mp (sound.writtenStored other old)
      exact stored q isBefore
    · exact stored p (mem_singleton.mp last ▸ h)
  · intro other q foundOther
    rw [isProposals] at foundOther
    obtain ⟨q₀, found₀, eq | ⟨isSame, _, isAfter⟩⟩ := replaced_cases h foundOther
    · exact eq ▸ (sound.repurchases other q₀ found₀).purchases kept
    · exact isSame ▸ isAfter ▸ repurchases

def Kept (stores stores' : ProposalStores) : Prop := stores'.Sound ∧ stores.Grown stores'

theorem Sound.modifyProposal (sound : stores.Sound) {change : Proposal → Proposal}
    (keep : ∀ p, stores.proposals.get? propId = some p → Keep p (change p)) :
    stores.Kept (stores.modifyProposal propId change) := by
  unfold ProposalStores.modifyProposal
  split
  next => exact ⟨sound, .refl⟩
  next p h =>
    refine ⟨?_, grown_insert h (keep p h).toFollow rfl⟩
    exact sound.replace h (keep p h).toFollow rfl (fun _ _ eq => eq)
      sound.purchased (.inl rfl) ((sound.repurchases propId p h).keep (keep p h))

theorem byUrlAndOrderId_none {merchantBaseUrl orderId : String}
    (absent : stores.byUrlAndOrderId merchantBaseUrl orderId = none) {p : Proposal}
    (h : stores.proposals.get? propId = some p)
    (sameUrl : p.merchantBaseUrl = merchantBaseUrl) : p.orderId ≠ orderId := by
  intro sameOrder
  have mem : p ∈ stores.proposals.values := SortedMap.mem_values_iff.mpr ⟨propId, h⟩
  exact absurd (decide_eq_true ⟨sameUrl, sameOrder⟩) (find?_eq_none.mp absent p mem)

theorem byUrlAndOrderId_some (sound : stores.Sound) {merchantBaseUrl orderId : String}
    {p : Proposal} (h : stores.byUrlAndOrderId merchantBaseUrl orderId = some p) :
    stores.proposals.get? p.proposalId = some p := by
  obtain ⟨propId, isKey⟩ := SortedMap.mem_values_iff.mp (mem_of_find?_eq_some h)
  rw [sound.keyed propId p isKey]
  exact isKey

theorem Sound.addProposal (sound : stores.Sound) {proposalRecord : Proposal}
    (isNew : stores.proposals.get? proposalRecord.proposalId = none)
    (isCreated : proposalRecord.proposalStatus = .downloading ∧ proposalRecord.download = none) :
    stores.Kept (stores.addProposal proposalRecord) := by
  unfold ProposalStores.addProposal
  split
  next => exact ⟨sound, .refl⟩
  next absent =>
    have grown : stores.Grown { stores with
          proposals := stores.proposals.insert proposalRecord.proposalId proposalRecord } := by
      intro other q h
      obtain ⟨q', got, follow⟩ := Grown.refl other q h
      refine ⟨q', ?_, follow⟩
      rw [SortedMap.get?_insert_of_ne]
      · exact got
      · intro eq
        cases (eq ▸ h).symm.trans isNew
    have cases' : ∀ {other : String} {q : Proposal},
        (stores.proposals.insert proposalRecord.proposalId proposalRecord).get? other = some q →
        (other = proposalRecord.proposalId ∧ q = proposalRecord) ∨
          stores.proposals.get? other = some q := by
      intro other q h
      rw [SortedMap.get?_insert] at h
      split at h
      next eq => exact .inl ⟨eq, (Option.some.inj h).symm⟩
      next => exact .inr h
    refine ⟨?_, grown⟩
    constructor
    · intro other q h
      rcases cases' h with ⟨eq, isRecord⟩ | pre
      · exact isRecord ▸ eq.symm
      · exact sound.keyed other q pre
    · intro x y q r isFirst isSecond sameUrl sameOrder
      rcases cases' isFirst with ⟨eq, isRecord⟩ | pre <;>
        rcases cases' isSecond with ⟨same', isRecord'⟩ | before'
      · exact eq.trans same'.symm
      · cases isRecord
        exact absurd sameOrder.symm (byUrlAndOrderId_none absent before' sameUrl.symm)
      · cases isRecord'
        exact absurd sameOrder (byUrlAndOrderId_none absent pre sameUrl)
      · exact sound.unique x y q r pre before' sameUrl sameOrder
    · intro other q h still
      rcases cases' h with ⟨eq, isRecord⟩ | pre
      · refine ⟨isRecord ▸ isCreated.2, fun isWritten => ?_⟩
        obtain ⟨_, isStored⟩ := isSome_iff_exists.mp (sound.writtenStored other isWritten)
        cases (eq ▸ isStored).symm.trans isNew
      · exact sound.downloading other q pre still
    · exact fun other download isBuy =>
      grown.downloaded (sound.purchased other download isBuy)
    · exact sound.written
    · intro other isWritten
      obtain ⟨q, isStored⟩ := isSome_iff_exists.mp (sound.writtenStored other isWritten)
      obtain ⟨q', isStored', _⟩ := grown other q isStored
      exact isSome_iff_exists.mpr ⟨q', isStored'⟩
    · intro other q h
      rcases cases' h with ⟨_, isRecord⟩ | pre
      · intro repurchase
        rw [isRecord, isCreated.1] at repurchase
        cases repurchase
      · exact sound.repurchases other q pre

theorem byFulfillmentUrl_some {fulfillmentUrl y : String}
    (h : stores.byFulfillmentUrl fulfillmentUrl = some y) :
    ∃ purchase, stores.purchases.get? y = some purchase ∧
      purchase.contractData.fulfillmentUrl = fulfillmentUrl := by
  obtain ⟨e, isEntry, isOther⟩ := map_eq_some_iff.mp h
  have mem := mem_of_find?_eq_some isEntry
  have sameUrl : e.2.contractData.fulfillmentUrl = fulfillmentUrl := by
    simpa using find?_some isEntry
  cases isOther
  exact ⟨e.2, (SortedMap.get?_eq_some_iff _ _ _).mpr mem, sameUrl⟩

theorem differentPurchase_some {download : ProposalDownload} {y : String}
    (h : stores.differentPurchase download = some y) :
    ∃ purchase, stores.purchases.get? y = some purchase ∧
      purchase.contractData.fulfillmentUrl = download.contractData.fulfillmentUrl := by
  simp only [differentPurchase] at h
  split at h
  next => exact byFulfillmentUrl_some h
  next => cases h

theorem Sound.storeDownload (sound : stores.Sound) (propId : String)
    (download : ProposalDownload) : stores.Kept (stores.storeDownload propId download) := by
  unfold ProposalStores.storeDownload
  split
  next => exact ⟨sound, .refl⟩
  next p h =>
    have follow := Proposal.follow_storeDownload p download (stores.differentPurchase download)
    refine ⟨sound.replace h follow rfl (fun _ _ eq => eq) sound.purchased ?_ ?_,
      grown_insert h follow rfl⟩
    · by_cases pre : p.proposalStatus = .downloading
      · refine .inr ⟨if_pos pre, pre, ?_⟩
        cases ne : stores.differentPurchase download <;>
          simp [Proposal.storeDownload, pre]
      · exact .inl (if_neg pre)
    by_cases pre : p.proposalStatus = .downloading
    · intro repurchase
      cases ne : stores.differentPurchase download with
      | none => simp [Proposal.storeDownload, pre, ne] at repurchase
      | some y =>
        obtain ⟨purchase, isBuy, sameUrl⟩ := differentPurchase_some ne
        refine ⟨y, purchase, download, ?_, ?_, isBuy, ?_, sameUrl⟩
        · simp [Proposal.storeDownload, pre]
        · -- the proposal itself has no purchase before its download
          intro eq
          obtain ⟨q, isStored, past, _⟩ := sound.purchased y purchase isBuy
          cases (eq ▸ isStored).symm.trans h
          exact past pre
        · simp [Proposal.storeDownload, pre]
    · rw [show Proposal.storeDownload p download _ = p from if_pos pre]
      exact sound.repurchases propId p h

theorem Downloaded.unique {x second : ProposalDownload} (isFirst : stores.Downloaded propId x)
    (isSecond : stores.Downloaded propId second) : x = second := by
  obtain ⟨p, h, _, isDownload⟩ := isFirst
  obtain ⟨q, got, _, isDownload'⟩ := isSecond
  cases h.symm.trans got
  exact Option.some.inj (isDownload.symm.trans isDownload')

theorem Sound.recordPurchase (sound : stores.Sound) (now : Nat) {download : ProposalDownload}
    (downloaded : stores.Downloaded propId download) :
    stores.Kept (stores.recordPurchase now propId download) := by
  obtain ⟨p, h, past, isDownload⟩ := downloaded
  have keep := Proposal.keep_accept now past
  have isProposals : (stores.recordPurchase now propId download).proposals =
      stores.proposals.insert propId (Proposal.accept now p) := by
    simp only [ProposalStores.recordPurchase, ProposalStores.modifyProposal, h]
  have isWritten : (stores.recordPurchase now propId download).written = stores.written := by
    simp only [ProposalStores.recordPurchase, ProposalStores.modifyProposal, h]
  have kept : ∀ y purchase, stores.purchases.get? y = some purchase →
      (stores.recordPurchase now propId download).purchases.get? y = some purchase := by
    intro y purchase isBuy
    simp only [ProposalStores.recordPurchase, SortedMap.get?_insert]
    split
    next eq =>
      have pre := sound.purchased y purchase isBuy
      exact congrArg some (Downloaded.unique ⟨p, h, past, isDownload⟩ (eq ▸ pre))
    next => exact isBuy
  refine ⟨sound.replace h keep.toFollow isProposals kept ?_ (.inl isWritten) ?_,
    grown_insert h keep.toFollow isProposals⟩
  · intro y purchase isBuy
    simp only [ProposalStores.recordPurchase, SortedMap.get?_insert] at isBuy
    split at isBuy
    next eq =>
      cases isBuy
      exact eq ▸ ⟨p, h, past, isDownload⟩
    next => exact sound.purchased y purchase isBuy
  · exact ((sound.repurchases propId p h).keep keep).purchases kept

theorem Grown.contains (grown : stores.Grown stores')
    (kept : stores.proposals.contains propId = true) :
    stores'.proposals.contains propId = true := by
  obtain ⟨p, h⟩ := isSome_iff_exists.mp kept
  obtain ⟨p', got, _⟩ := grown propId p h
  exact isSome_iff_exists.mpr ⟨p', got⟩

end ProposalStores

/-! ## The calls -/

def Point.Known (stores : ProposalStores) : Point → Prop
  | .existingPurchase proposalId download | .recordConfirmPay proposalId download =>
    stores.Downloaded proposalId download
  | _ => True

/-- The proposal whose identifier `startDownloadProposal` returns or is about to return. -/
def Point.returns : Point → Option String
  | .resetDownloadProposalRetry proposalId | .processDownloadProposal proposalId |
    .claimRequest proposalId _ | .storeProposal proposalId _ |
    .checkPaymentByProposalId proposalId => some proposalId
  | _ => none

/-- What `startDownloadProposal` has returned to a call. -/
def Call.returned (call : Call) : Option String :=
  match call.preparing, call.point with
  | true, .checkPaymentByProposalId proposalId => some proposalId
  | _, _ => none

theorem Call.returns_of_returned {call : Call} {proposalId : String}
    (ret : call.returned = some proposalId) :
    call.preparing = true ∧ call.point.returns = some proposalId := by
  obtain ⟨preparing, point⟩ := call
  cases preparing with
  | false => cases ret
  | true =>
    cases point with
    | checkPaymentByProposalId => exact ⟨rfl, ret⟩
    | _ => cases ret

theorem Point.Known.grown {stores stores' : ProposalStores} {point : Point}
    (has : point.Known stores) (grown : stores.Grown stores') : point.Known stores' := by
  cases point with
  | existingPurchase => exact grown.downloaded has
  | recordConfirmPay => exact grown.downloaded has
  | _ => exact trivial

theorem Point.processed_known (stores : ProposalStores) (preparing : Bool) (propId : String) :
    (Point.processed preparing propId).Known stores := by
  cases preparing <;> exact trivial

theorem Point.checked_known (stores : ProposalStores) (prop : Proposal) :
    (Point.checked prop).Known stores := by
  unfold Point.checked
  split
  · exact trivial
  · split <;> exact trivial

variable {reader : ContractReader} {stores stores' : ProposalStores} {preparing : Bool}
  {point point' : Point} {ans : Answer}

theorem advance_kept (sound : stores.Sound) (has : point.Known stores)
    (isNew : ∀ now draw, ans = .drawn now draw → stores.proposals.get? draw.proposalId = none)
    (r : advance reader stores preparing point ans = some (stores', point')) :
    stores.Kept stores' ∧ point'.Known stores' := by
  have reads : ∀ {next : Point}, some (stores, next) = some (stores', point') →
      next.Known stores → stores.Kept stores' ∧ point'.Known stores' := by
    intro next eq nextKnown
    cases eq
    exact ⟨⟨sound, .refl⟩, nextKnown⟩
  cases ans with
  | drawn now draw =>
    cases point with
    | createProposal uri =>
      cases r
      exact ⟨sound.addProposal (isNew now draw rfl) ⟨rfl, rfl⟩, trivial⟩
    | _ => cases r
  | claimed contractTermsRaw sig =>
    cases point with
    | claimRequest propId prop =>
      simp only [advance] at r
      split at r
      · exact reads r trivial
      · exact reads r trivial
    | _ => cases r
  | failure err =>
    cases point with
    | claimRequest propId prop => exact reads r trivial
    | createProposal uri => exact reads r trivial
    | recordConfirmPay propId download => exact reads r trivial
    | _ => cases r
  | proceed now =>
    cases point with
    | startDownloadProposal uri =>
      simp only [advance] at r
      split at r
      · exact reads r trivial
      split at r
      · exact reads r trivial
      · exact reads r trivial
    | resetDownloadProposalRetry propId =>
      cases r
      exact ⟨sound.modifyProposal fun p _ => Proposal.keep_resetRetry p, trivial⟩
    | processDownloadProposal propId =>
      simp only [advance] at r
      split at r
      · exact reads r (Point.processed_known _ _ _)
      split at r
      · exact reads r trivial
      · exact reads r (Point.processed_known _ _ _)
    | failProposalPermanently propId err =>
      cases r
      exact ⟨sound.modifyProposal fun p _ => Proposal.keep_failPermanently p err, trivial⟩
    | storeProposal propId download =>
      cases r
      exact ⟨sound.storeDownload propId download, Point.processed_known _ _ _⟩
    | incrementProposalRetry propId err =>
      cases r
      exact ⟨sound.modifyProposal fun p _ => Proposal.keep_incrementRetry p err, trivial⟩
    | checkPaymentByProposalId propId =>
      simp only [advance] at r
      split at r
      · exact reads r trivial
      split at r
      · split at r
        · exact reads r trivial
        · exact reads r trivial
      · exact reads r (Point.checked_known _ _)
    | existingProposal existingProposalId =>
      simp only [advance] at r
      split at r
      · exact reads r trivial
      · exact reads r (Point.checked_known _ _)
    | confirmPay propId =>
      simp only [advance] at r
      split at r
      next => exact reads r trivial
      next download h =>
        obtain ⟨p, isStored, isDownload⟩ := bind_eq_some_iff.mp h
        exact reads r (sound.downloaded isStored isDownload)
    | existingPurchase propId download =>
      simp only [advance] at r
      split at r
      · exact reads r trivial
      · exact reads r has
    | recordConfirmPay propId download =>
      cases r
      exact ⟨sound.recordPurchase now has, trivial⟩
    | _ => cases r

/-- A call that prepares a payment stays with a stored proposal, unless it draws an identifier
for an order that has a proposal. -/
theorem advance_returns (sound : stores.Sound) (returns : ∀ propId, point.returns = some propId →
      stores.proposals.contains propId = true)
    (careful : ∀ now draw uri, ans = .drawn now draw → point = .createProposal uri →
      stores.byUrlAndOrderId uri.merchantBaseUrl uri.orderId = none) (grown : stores.Grown stores')
    (r : advance reader stores true point ans = some (stores', point'))
    {propId : String} (ret : point'.returns = some propId) :
    stores'.proposals.contains propId = true := by
  have none_ : ∀ {next : Point}, next.returns = none → some (stores, next) = some (stores', point') →
      stores'.proposals.contains propId = true := by
    intro next nothing eq
    cases eq
    cases nothing.symm.trans ret
  have stays : ∀ {next : Point} {cur : String}, next.returns = some cur →
      stores.proposals.contains cur = true → some (stores, next) = some (stores', point') →
      stores'.proposals.contains propId = true := by
    intro next cur isCurrent kept eq
    cases eq
    cases isCurrent.symm.trans ret
    exact kept
  have checked : ∀ prop, (Point.checked prop).returns = none := by
    intro prop
    unfold Point.checked
    split
    · rfl
    · split <;> rfl
  cases ans with
  | drawn now draw =>
    cases point with
    | createProposal uri =>
      cases r
      cases ret
      have absent := careful now draw uri rfl rfl
      simp only [ProposalStores.addProposal, Proposal.create, absent]
      exact isSome_iff_exists.mpr ⟨_, SortedMap.get?_insert_self _ _ _⟩
    | _ => cases r
  | claimed contractTermsRaw sig =>
    cases point with
    | claimRequest cur prop =>
      simp only [advance] at r
      split at r
      · exact none_ rfl r
      · exact stays rfl (returns cur rfl) r
    | _ => cases r
  | failure err =>
    cases point with
    | claimRequest cur prop => exact none_ rfl r
    | createProposal uri => exact none_ rfl r
    | recordConfirmPay cur download => exact none_ rfl r
    | _ => cases r
  | proceed now =>
    cases point with
    | startDownloadProposal uri =>
      simp only [advance] at r
      split at r
      next => exact none_ rfl r
      next old h =>
        split at r
        · have kept := ProposalStores.byUrlAndOrderId_some sound h
          exact stays rfl (isSome_iff_exists.mpr ⟨old, kept⟩) r
        · exact none_ rfl r
    | resetDownloadProposalRetry cur =>
      cases r
      cases ret
      exact grown.contains (returns propId rfl)
    | processDownloadProposal cur =>
      simp only [advance] at r
      split at r
      · exact stays rfl (returns cur rfl) r
      split at r
      · exact stays rfl (returns cur rfl) r
      · exact stays rfl (returns cur rfl) r
    | failProposalPermanently cur err =>
      cases r
      cases ret
    | storeProposal cur download =>
      cases r
      cases ret
      exact grown.contains (returns propId rfl)
    | incrementProposalRetry cur err =>
      cases r
      cases ret
    | checkPaymentByProposalId cur =>
      simp only [advance] at r
      split at r
      · exact none_ rfl r
      split at r
      · split at r
        · exact none_ rfl r
        · exact none_ rfl r
      · exact none_ (checked _) r
    | existingProposal cur =>
      simp only [advance] at r
      split at r
      · exact none_ rfl r
      · exact none_ (checked _) r
    | confirmPay cur =>
      simp only [advance] at r
      split at r
      · exact none_ rfl r
      · exact none_ rfl r
    | existingPurchase cur download =>
      simp only [advance] at r
      split at r
      · exact none_ rfl r
      · exact none_ rfl r
    | recordConfirmPay cur download =>
      cases r
      cases ret
    | _ => cases r

/-! ## Runs -/

namespace ProposalWallet

variable (wallet : ProposalWallet)

structure Sound : Prop where
  stores : wallet.stores.Sound
  calls : ∀ call ∈ wallet.calls, call.point.Known wallet.stores

/-- What has been returned for a payment, or is about to be, is the identifier of a proposal. -/
def Returning : Prop :=
  ∀ call ∈ wallet.calls, call.preparing = true → ∀ proposalId,
    call.point.returns = some proposalId → wallet.stores.proposals.contains proposalId = true

/-- What `startDownloadProposal` has returned is the identifier of a proposal. -/
def Returned : Prop :=
  ∀ call ∈ wallet.calls, ∀ proposalId, call.returned = some proposalId →
    wallet.stores.proposals.contains proposalId = true

def creates : ProposalEvent → Option PayUriResult
  | .advance index (.drawn _ _) =>
    match wallet.calls[index]?.map Call.point with
    | some (.createProposal uri) => some uri
    | _ => none
  | _ => none

def Careful (event : ProposalEvent) : Prop :=
  ∀ uri, wallet.creates event = some uri →
    wallet.stores.byUrlAndOrderId uri.merchantBaseUrl uri.orderId = none

variable {wallet}

theorem start_sound : start.Sound := by
  refine ⟨⟨?_, ?_, ?_, ?_, nodup_nil, ?_, ?_⟩, ?_⟩
  · exact fun _ _ h => nomatch h
  · exact fun _ _ _ _ h => nomatch h
  · exact fun _ _ h => nomatch h
  · exact fun _ _ h => nomatch h
  · exact fun _ mem => nomatch mem
  · exact fun _ _ h => nomatch h
  · exact fun _ mem => nomatch mem

theorem begin_sound (sound : wallet.Sound) {preparing : Bool} {point : Point}
    (has : point.Known wallet.stores) : (wallet.begin preparing point).Sound := by
  refine ⟨sound.stores, ?_⟩
  intro call mem
  rcases mem_append.mp mem with pre | isNew
  · exact sound.calls call pre
  · cases mem_singleton.mp isNew
    exact has

theorem begin_returning (returning : wallet.Returning) {preparing : Bool} {point : Point}
    (nothing : preparing = true → point.returns = none) :
    (wallet.begin preparing point).Returning := by
  intro call mem prepares propId returns
  rcases mem_append.mp mem with pre | isNew
  · exact returning call pre prepares propId returns
  · cases mem_singleton.mp isNew
    cases (nothing prepares).symm.trans returns

end ProposalWallet

variable {wallet next : ProposalWallet} {event ev : ProposalEvent} {events : List ProposalEvent}

theorem step_kept (sound : wallet.Sound) (step : ProposalStep reader wallet ev next) :
    next.Sound ∧ wallet.stores.Grown next.stores := by
  obtain ⟨isNew, did⟩ := step
  cases ev with
  | preparePayForUri uri =>
    cases did
    exact ⟨ProposalWallet.begin_sound sound trivial, .refl⟩
  | processDownloadProposal propId forceNow =>
    cases did
    refine ⟨ProposalWallet.begin_sound sound ?_, .refl⟩
    split <;> exact trivial
  | confirmPay propId =>
    cases did
    exact ⟨ProposalWallet.begin_sound sound trivial, .refl⟩
  | refuseProposal propId =>
    cases did
    have kept : wallet.stores.Kept (wallet.stores.modifyProposal propId Proposal.refuse) :=
      sound.stores.modifyProposal fun p _ => Proposal.keep_refuse p
    obtain ⟨stores, grown⟩ := kept
    exact ⟨⟨stores, fun call mem => (sound.calls call mem).grown grown⟩, grown⟩
  | advance idx ans =>
    obtain ⟨call, isCall, did⟩ := bind_eq_some_iff.mp did
    obtain ⟨⟨stores', point'⟩, advanced, isNext⟩ := bind_eq_some_iff.mp did
    cases isNext
    have drawnNew : ∀ now draw, ans = .drawn now draw →
        wallet.stores.proposals.get? draw.proposalId = none := by
      intro now draw isDraw
      cases isDraw
      exact isNew
    obtain ⟨⟨kept, grown⟩, has⟩ := advance_kept sound.stores
      (sound.calls call (mem_of_getElem? isCall)) drawnNew advanced
    refine ⟨⟨kept, ?_⟩, grown⟩
    intro y mem
    rcases mem_or_eq_of_mem_set mem with pre | eq
    · exact (sound.calls y pre).grown grown
    · cases eq
      exact has

theorem step_returning (sound : wallet.Sound) (returning : wallet.Returning)
    (step : Guarded ProposalWallet.Careful (ProposalStep reader) wallet ev next) :
    next.Returning := by
  obtain ⟨careful, step⟩ := step
  have grown := (step_kept sound step).2
  obtain ⟨isNew, did⟩ := step
  cases ev with
  | preparePayForUri uri =>
    cases did
    exact ProposalWallet.begin_returning returning fun _ => rfl
  | processDownloadProposal propId forceNow =>
    cases did
    exact ProposalWallet.begin_returning returning nofun
  | confirmPay propId =>
    cases did
    exact ProposalWallet.begin_returning returning nofun
  | refuseProposal propId =>
    cases did
    intro call mem prepares cur returns
    exact grown.contains (returning call mem prepares cur returns)
  | advance idx ans =>
    obtain ⟨call, isCall, did⟩ := bind_eq_some_iff.mp did
    obtain ⟨⟨stores', point'⟩, advanced, isNext⟩ := bind_eq_some_iff.mp did
    cases isNext
    have called := mem_of_getElem? isCall
    intro y mem prepares cur returns
    rcases mem_or_eq_of_mem_set mem with pre | eq
    · exact grown.contains (returning y pre prepares cur returns)
    cases eq
    have prepares' : call.preparing = true := prepares
    rw [prepares'] at advanced
    refine advance_returns sound.stores (returning call called prepares') ?_ grown advanced returns
    intro now draw uri isDraw isPoint
    apply careful uri
    cases isDraw
    simp only [ProposalWallet.creates, isCall, map_some, isPoint]

def ProposalStores.Proceeds (stores stores' : ProposalStores) : Prop :=
  ∀ proposalId p, stores.proposals.get? proposalId = some p →
    ∃ p', stores'.proposals.get? proposalId = some p' ∧
      (p.proposalStatus = .downloading → p'.proposalStatus = .downloading ∨
        p'.proposalStatus = .proposed ∨ p'.proposalStatus = .repurchase ∨
        p'.proposalStatus = .permanentlyFailed) ∧
      ∀ download, p.download = some download → p'.download = some download

theorem run_sound (run : Run (ProposalStep reader) .start events wallet) : wallet.Sound :=
  run.invariant ProposalWallet.Sound ProposalWallet.start_sound
    fun _ _ _ sound step => (step_kept sound step).1

/-- After any steps there is at most one proposal for an order, a contract is written once, and a
repurchase names the other proposal; the identifier that is returned for a payment is that of a
proposal when proposals are created only for orders that have none. -/
theorem proposals_downloaded (run : Run (ProposalStep reader) .start events wallet) :
    wallet.stores.Unique ∧ wallet.stores.Repurchased ∧ wallet.stores.written.Nodup ∧
      (∀ event next, ProposalStep reader wallet event next → wallet.stores.Proceeds next.stores) ∧
      (Run (Guarded ProposalWallet.Careful (ProposalStep reader)) .start events wallet →
        wallet.Returned) := by
  have sound := run_sound run
  refine ⟨sound.stores.unique, sound.stores.repurchased, sound.stores.written, ?_, ?_⟩
  · intro event next step proposalId p found
    obtain ⟨p', found', follow⟩ := (step_kept sound step).2 proposalId p found
    refine ⟨p', found', follow.leaves, ?_⟩
    intro download isDownload
    obtain ⟨q, isStored, past, _⟩ := sound.stores.downloaded found isDownload
    cases found.symm.trans isStored
    exact follow.download download isDownload past
  · intro careful
    have returning : wallet.Sound ∧ wallet.Returning := by
      apply careful.invariant fun state => state.Sound ∧ state.Returning
      · exact ⟨ProposalWallet.start_sound, fun _ member => nomatch member⟩
      · intro state event next before step
        exact ⟨(step_kept before.1 step.2).1, step_returning before.1 before.2 step⟩
    intro call member proposalId returned
    obtain ⟨prepares, returns⟩ := Call.returns_of_returned returned
    exact returning.2 call member prepares proposalId returns

/-! ## Examples -/

section Examples

def exampleTerms (orderId : String) : Json :=
  .object
    [("order_id", .string orderId), ("fulfillment_url", .string "https://shop/article"),
      ("merchant_base_url", .string "https://shop/")]

def decodeExample (json : Json) : Option ContractTerms := do
  let .string orderId ← json.member? "order_id" | none
  let .string fulfillmentUrl ← json.member? "fulfillment_url" | none
  let .string merchantBaseUrl ← json.member? "merchant_base_url" | none
  pure
    { orderId := orderId
      fulfillmentUrl := some fulfillmentUrl
      merchantBaseUrl := merchantBaseUrl
      hWire := "W"
      autoRefund := none
      wireMethod := "iban"
      summary := "article"
      summaryI18n := none
      amount := .getZero "KUDOS"
      auditors := []
      payDeadline := .never
      refundDeadline := .never
      timestamp := .at 0
      maxFee := .getZero "KUDOS"
      maxWireFee := none
      merchant := .null
      merchantPub := "M"
      exchanges := []
      products := none
      wireFeeAmortization := none }

def exampleReader : ContractReader where
  validateForgettable := fun _ => true
  hashContractTerms := fun _ => "H"
  codecForContractTerms := decodeExample
  isValidContractTermsSignature := fun _ sig _ => sig = "S"

def exampleUri (orderId sessionId : String) : PayUriResult where
  merchantBaseUrl := "https://shop/"
  orderId := orderId
  sessionId := some sessionId
  claimToken := none
  noncePriv := none

/-- Identifiers are new, and with `careful` proposals are created for new orders only. -/
def step? (careful : Bool) (wallet : ProposalWallet) (event : ProposalEvent) :
    Option ProposalWallet :=
  match event with
  | .advance index (.drawn now draw) =>
    if (wallet.stores.proposals.get? draw.proposalId).isNone ∧
        (careful → (wallet.creates (.advance index (.drawn now draw))).all fun uri =>
          (wallet.stores.byUrlAndOrderId uri.merchantBaseUrl uri.orderId).isNone) then
      wallet.perform exampleReader (.advance index (.drawn now draw))
    else none
  | event => wallet.perform exampleReader event

theorem step?_spec {careful : Bool} (did : step? careful wallet ev = some next) :
    ProposalStep exampleReader wallet ev next ∧ (careful = true → wallet.Careful ev) := by
  have y : wallet.creates ev = none → wallet.New ev → wallet.perform exampleReader ev = some next →
      ProposalStep exampleReader wallet ev next ∧ (careful = true → wallet.Careful ev) := by
    intro nothing isNew did
    refine ⟨⟨isNew, did⟩, ?_⟩
    intro _ uri creates
    cases nothing.symm.trans creates
  cases ev with
  | advance idx ans =>
    cases ans with
    | drawn now draw =>
      simp only [step?] at did
      split at did
      next allowed =>
        refine ⟨⟨isNone_iff_eq_none.mp allowed.1, did⟩, ?_⟩
        intro isCareful uri creates
        have all := allowed.2 isCareful
        rw [creates] at all
        exact isNone_iff_eq_none.mp all
      next => cases did
    | _ => exact y rfl trivial did
  | _ => exact y rfl trivial did

def sessionEvents : List ProposalEvent :=
  [.preparePayForUri (exampleUri "1" "s"), .advance 0 (.proceed 0),
    .advance 0 (.drawn 0 ⟨"P", "n", "N"⟩), .preparePayForUri (exampleUri "1" "t"),
    .advance 1 (.proceed 0), .advance 1 (.drawn 0 ⟨"Q", "m", "M"⟩), .advance 1 (.proceed 0)]

/-- With another session the identifier is returned of a proposal that has been dropped. -/
theorem proposal_dropped : ¬ ∀ (events : List ProposalEvent) (wallet : ProposalWallet),
    Run (ProposalStep exampleReader) .start events wallet → wallet.Returned := by
  intro claim
  have reaches : (sessionEvents.foldlM (step? false) .start).map (fun wallet =>
      (wallet.calls.map Call.returned, wallet.stores.proposals.contains "Q")) =
      some ([none, some "Q"], false) := by decide
  obtain ⟨wallet, isWallet, isState⟩ := map_eq_some_iff.mp reaches
  obtain ⟨isCalls, absent⟩ := Prod.mk.inj isState
  have member : some "Q" ∈ wallet.calls.map Call.returned := by
    rw [isCalls]
    decide
  obtain ⟨call, isCall, returned⟩ := List.mem_map.mp member
  have stored := claim _ wallet (Run.ofFoldlM (fun _ _ _ same => (step?_spec same).1) isWallet)
    call isCall "Q" returned
  cases absent.symm.trans stored

/-- Two orders for one page: the first is bought, and the second is a repurchase. -/
def repurchaseEvents : List ProposalEvent :=
  [.preparePayForUri (exampleUri "1" "s"), .advance 0 (.proceed 0),
    .advance 0 (.drawn 0 ⟨"P", "n", "N"⟩), .advance 0 (.proceed 0),
    .advance 0 (.claimed (exampleTerms "1") "S"), .advance 0 (.proceed 0), .confirmPay "P",
    .advance 1 (.proceed 0), .advance 1 (.proceed 0), .advance 1 (.proceed 0),
    .preparePayForUri (exampleUri "2" "s"), .advance 2 (.proceed 0),
    .advance 2 (.drawn 0 ⟨"Q", "m", "M"⟩), .advance 2 (.proceed 0),
    .advance 2 (.claimed (exampleTerms "2") "S"), .advance 2 (.proceed 0)]

theorem repurchase_downloaded : ∃ events wallet,
    Run (Guarded ProposalWallet.Careful (ProposalStep exampleReader)) .start events wallet ∧
      wallet.calls.map Call.returned = [some "P", none, some "Q"] ∧
      wallet.stores.written = ["P", "Q"] ∧ wallet.stores.Unique ∧ wallet.stores.Repurchased ∧
      wallet.Returned := by
  have reaches : (repurchaseEvents.foldlM (step? true) .start).map (fun wallet =>
      (wallet.calls.map Call.returned, wallet.stores.written)) =
      some ([some "P", none, some "Q"], ["P", "Q"]) := by decide
  obtain ⟨wallet, isWallet, isState⟩ := map_eq_some_iff.mp reaches
  obtain ⟨isCalls, isWritten⟩ := Prod.mk.inj isState
  have run : Run (Guarded ProposalWallet.Careful (ProposalStep exampleReader)) .start
      repurchaseEvents wallet :=
    Run.ofFoldlM (fun _ _ _ same => ⟨(step?_spec same).2 rfl, (step?_spec same).1⟩) isWallet
  obtain ⟨unique, repurchased, _, _, returned⟩ := proposals_downloaded run.unguarded
  exact ⟨_, wallet, run, isCalls, isWritten, unique, repurchased, returned run⟩

end Examples

end Anastasis.Wallet.Downloads
