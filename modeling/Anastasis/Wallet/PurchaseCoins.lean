import Anastasis.Wallet.CoinSelectionProperties
import Anastasis.Wallet.PromiseMoves
import Anastasis.Wallet.PurchaseSessions

/-! Which coins carry the mark of a proposal, and what has been signed for it. -/

set_option autoImplicit false

namespace Anastasis.Wallet.Purchasing

open Library Library.Transition List

/-! ## What a payment does to the coins -/

section Spending

def Named (wallet : WalletStores) (allocation coinPub : String) : Prop :=
  ∃ coin alloc, wallet.coins.get? coinPub = some coin ∧ coin.allocation = some alloc ∧
    alloc.id = allocation

def Held (wallet : WalletStores) (coinPub : String) : Prop :=
  ∃ coin denom, wallet.coins.get? coinPub = some coin ∧
    wallet.denominations.get? (coin.exchangeBaseUrl, coin.denomPubHash) = some denom ∧
    (coin.status = .fresh ∨ coin.allocation.isSome = true)

/-- Fresh coins have no mark, and coins are found under their public keys. -/
structure Unmarked (wallet : WalletStores) : Prop where
  fresh : ∀ coinPub coin, wallet.coins.get? coinPub = some coin → coin.status = .fresh →
    coin.allocation = none
  keyed : ∀ coinPub coin, wallet.coins.get? coinPub = some coin → coin.coinPub = coinPub

/-- What a payment may make of a coin: it becomes dormant, and gets the mark when it was fresh. -/
structure MarksCoin (allocation : String) (spent : Prop) (coin coin' : CoinRecord) : Prop where
  coinPub : coin'.coinPub = coin.coinPub
  exchangeBaseUrl : coin'.exchangeBaseUrl = coin.exchangeBaseUrl
  denomPubHash : coin'.denomPubHash = coin.denomPubHash
  fresh : coin'.status = .fresh → coin' = coin
  marked : ∀ alloc, coin.allocation = some alloc → coin.status ≠ .fresh →
    coin'.allocation = some alloc ∧ coin'.status ≠ .fresh
  mark : ∀ alloc, coin'.allocation = some alloc → coin.allocation = some alloc ∨
    (spent ∧ alloc.id = allocation)
  unspent : ¬ spent → coin' = coin

variable {allocation alloc : String} {spent : Prop} {first x second y third : CoinRecord}

theorem MarksCoin.refl (coin : CoinRecord) : MarksCoin allocation spent coin coin :=
  ⟨rfl, rfl, rfl, fun _ => rfl, fun _ marked asleep => ⟨marked, asleep⟩, fun _ => .inl,
    fun _ => rfl⟩

theorem MarksCoin.trans (pre : MarksCoin allocation spent first y)
    (after : MarksCoin allocation spent y third) : MarksCoin allocation spent first third := by
  constructor
  · exact after.coinPub.trans pre.coinPub
  · exact after.exchangeBaseUrl.trans pre.exchangeBaseUrl
  · exact after.denomPubHash.trans pre.denomPubHash
  · intro fresh
    have eq := after.fresh fresh
    exact eq.trans (pre.fresh (eq ▸ fresh))
  · intro alloc marked asleep
    obtain ⟨marked', asleep'⟩ := pre.marked alloc marked asleep
    exact after.marked alloc marked' asleep'
  · intro alloc marked
    rcases after.mark alloc marked with old | isNew
    · exact pre.mark alloc old
    · exact .inr isNew
  · intro notSpent
    exact (after.unspent notSpent).trans (pre.unspent notSpent)

theorem spend_marksCoin (coin : CoinRecord) (contrib : AmountJson) (isSpent : spent)
    (fresh : coin.status = .fresh) : MarksCoin allocation spent coin (coin.spend allocation contrib) := by
  constructor
  · rfl
  · rfl
  · rfl
  · intro still
    cases still
  · intro _ _ asleep
    exact absurd fresh asleep
  · intro alloc marked
    cases marked
    exact .inr ⟨isSpent, rfl⟩
  · exact fun notSpent => absurd isSpent notSpent

theorem putToSleep_marksCoin (coin : CoinRecord) (isSpent : spent) :
    MarksCoin allocation spent coin coin.putToSleep := by
  constructor
  · rfl
  · rfl
  · rfl
  · intro still
    cases still
  · exact fun alloc marked _ => ⟨marked, nofun⟩
  · exact fun alloc marked => .inl marked
  · exact fun notSpent => absurd isSpent notSpent

structure SpentFor (allocation : String) (coinPubs : List String)
    (wallet wallet' : WalletStores) : Prop where
  denominations : wallet'.denominations = wallet.denominations
  coins : ∀ coinPub coin, wallet.coins.get? coinPub = some coin →
    ∃ coin', wallet'.coins.get? coinPub = some coin' ∧
      MarksCoin allocation (coinPub ∈ coinPubs) coin coin'
  found : ∀ coinPub coin', wallet'.coins.get? coinPub = some coin' →
    ∃ coin, wallet.coins.get? coinPub = some coin

variable {coinPubs : List String} {wallet middle mid wallet' : WalletStores}

theorem SpentFor.refl : SpentFor allocation coinPubs wallet wallet :=
  ⟨rfl, fun _ coin h => ⟨coin, h, .refl coin⟩, fun _ coin h => ⟨coin, h⟩⟩

theorem SpentFor.trans (pre : SpentFor alloc coinPubs wallet mid)
    (after : SpentFor alloc coinPubs mid wallet') : SpentFor alloc coinPubs wallet wallet' := by
  constructor
  · exact after.denominations.trans pre.denominations
  · intro pub coin h
    obtain ⟨between, foundBetween, marksFirst⟩ := pre.coins pub coin h
    obtain ⟨coin', got, marksSecond⟩ := after.coins pub between foundBetween
    exact ⟨coin', got, marksFirst.trans marksSecond⟩
  intro pub coin' got
  obtain ⟨between, foundBetween⟩ := after.found pub coin' got
  exact pre.found pub between foundBetween

variable {coinPub pub : String}

theorem SpentFor.set {coin coin' : CoinRecord} (h : wallet.coins.get? pub = some coin)
    (marks : MarksCoin alloc (pub ∈ coinPubs) coin coin') : SpentFor alloc coinPubs wallet
      { wallet with coins := wallet.coins.set pub coin' } := by
  refine ⟨rfl, ?_, ?_⟩
  · intro y old isOld
    rw [Record.get?_set]
    split
    next eq =>
      cases eq
      cases h.symm.trans isOld
      exact ⟨coin', rfl, marks⟩
    next => exact ⟨old, isOld, .refl old⟩
  · intro y new isNew
    rw [Record.get?_set] at isNew
    split at isNew
    next eq => exact ⟨coin, eq ▸ h⟩
    next => exact ⟨new, isNew⟩

theorem SpentFor.spentCoin {contrib : AmountJson}
    (spends : SpentCoin wallet alloc pub contrib wallet') (mem : pub ∈ coinPubs) :
    SpentFor alloc coinPubs wallet wallet' := by
  cases spends with
  | fresh h fresh enough => exact .set h (spend_marksCoin _ contrib mem fresh)
  | marked => exact .refl
  | unmarked => exact .refl

theorem SpentFor.unmarked (spends : SpentFor alloc coinPubs wallet wallet')
    (unmarked : Unmarked wallet) : Unmarked wallet' := by
  constructor
  · intro pub coin' got fresh
    obtain ⟨coin, h⟩ := spends.found pub coin' got
    obtain ⟨eq, isSame, marks⟩ := spends.coins pub coin h
    cases got.symm.trans isSame
    have same := marks.fresh fresh
    exact same ▸ unmarked.fresh pub coin h (same ▸ fresh)
  intro pub coin' got
  obtain ⟨coin, h⟩ := spends.found pub coin' got
  obtain ⟨eq, isSame, marks⟩ := spends.coins pub coin h
  cases got.symm.trans isSame
  exact marks.coinPub.trans (unmarked.keyed pub coin h)

theorem SpentFor.named (spends : SpentFor allocation coinPubs wallet wallet')
    (unmarked : Unmarked wallet) {y : String} (named : Named wallet y coinPub) :
    Named wallet' y coinPub := by
  obtain ⟨coin, alloc, h, marked, isOther⟩ := named
  obtain ⟨coin', got, marks⟩ := spends.coins coinPub coin h
  have asleep : coin.status ≠ .fresh := by
    intro fresh
    cases marked.symm.trans (unmarked.fresh coinPub coin h fresh)
  exact ⟨coin', alloc, got, (marks.marked alloc marked asleep).1, isOther⟩

theorem SpentFor.named_cases (spends : SpentFor allocation coinPubs wallet wallet')
    {y : String} (named : Named wallet' y pub) :
    Named wallet y pub ∨ (pub ∈ coinPubs ∧ y = allocation) := by
  obtain ⟨coin', alloc, got, marked, isOther⟩ := named
  obtain ⟨coin, h⟩ := spends.found pub coin' got
  obtain ⟨eq, isSame, marks⟩ := spends.coins pub coin h
  cases got.symm.trans isSame
  rcases marks.mark alloc marked with old | ⟨mem, isAllocation⟩
  · exact .inl ⟨coin, alloc, h, old, isOther⟩
  · exact .inr ⟨mem, isOther.symm.trans isAllocation⟩

variable {env : Surroundings} {cur groupId rgId : String}

theorem MarkedFor.toNamed {r : String × AmountJson}
    (marked : MarkedFor wallet allocation r) : Named wallet allocation r.1 := by
  obtain ⟨coin, alloc, h, _, marked, isAllocation, _⟩ := marked
  exact ⟨coin, alloc, h, marked, isAllocation⟩

theorem spendSelected_spentFor {parts : List (String × AmountJson)} :
    ∀ {w : WalletStores}, Unmarked w → (∀ sel ∈ parts, sel.1 ∈ coinPubs) →
      spendSelected cur allocation parts w = some wallet' →
      SpentFor allocation coinPubs w wallet' ∧ ∀ sel ∈ parts, Usable w sel.1 →
          Named wallet' allocation sel.1 := by
  induction parts with
  | nil =>
    intro w _ _ r
    cases r
    exact ⟨.refl, fun _ mem => nomatch mem⟩
  | cons sel rest ih =>
    intro w unmarked inside r
    rw [forall_mem_cons] at inside
    obtain ⟨middle, x, r⟩ := Option.bind_eq_some_iff.mp r
    have spends := spendSelectedCoin_cases x
    have spent : SpentFor allocation coinPubs w middle := .spentCoin spends inside.1
    have unmarkedMiddle := spent.unmarked unmarked
    obtain ⟨ys, named⟩ := ih unmarkedMiddle inside.2 r
    refine ⟨spent.trans ys, ?_⟩
    rw [forall_mem_cons]
    constructor
    · intro usable
      exact ys.named unmarkedMiddle (MarkedFor.toNamed (spends.markedFor usable))
    · intro y mem usable
      exact named y mem (spends.usable usable)

theorem refreshCoins_spentFor {oldCoinPubs : List String} :
    ∀ {w : WalletStores} {coins : List RefreshingCoin}, (∀ pub ∈ oldCoinPubs, pub ∈ coinPubs) →
      refreshCoins env oldCoinPubs w = some (coins, wallet') →
      SpentFor allocation coinPubs w wallet' := by
  induction oldCoinPubs with
  | nil =>
    intro w coins _ r
    cases r
    exact .refl
  | cons pub rest ih =>
    intro w coins mem r
    rw [forall_mem_cons] at mem
    obtain ⟨⟨busy, middle⟩, x, r⟩ := Option.bind_eq_some_iff.mp r
    obtain ⟨⟨more, fin⟩, ys, r⟩ := Option.bind_eq_some_iff.mp r
    cases r
    obtain ⟨coin, dn, h, _, _, _, _, _, isMiddle⟩ := (refreshCoin_taken x).found
    have slept : SpentFor allocation coinPubs w middle :=
      isMiddle ▸ .set h (putToSleep_marksCoin coin mem.1)
    exact slept.trans (ih mem.2 ys)

theorem applyCoinSpend_spentFor {selection : PayCoinSelection} (unmarked : Unmarked wallet)
    (won : applyCoinSpend env cur alloc rgId selection wallet =
      some wallet') :
    SpentFor alloc selection.coinPubs wallet wallet' ∧
      (∀ pub ∈ selection.coinPubs, Held wallet pub → Named wallet' alloc pub) ∧
      (PayCoinSelection.contributions selection.coinPubs selection.coinContributions).isSome := by
  obtain ⟨parts, listed, won⟩ := Option.bind_eq_some_iff.mp won
  obtain ⟨mid, spent, made⟩ := Option.bind_eq_some_iff.mp won
  obtain ⟨⟨coins, final⟩, refreshed, made⟩ := Option.bind_eq_some_iff.mp made
  cases made
  have isCoinPubs := contributions_coinPubs listed
  obtain ⟨spends, named⟩ : SpentFor alloc selection.coinPubs wallet mid ∧ _ :=
    spendSelected_spentFor unmarked
      (fun r mem => isCoinPubs ▸ List.mem_map_of_mem mem) spent
  have sleeps : SpentFor alloc selection.coinPubs mid final :=
    refreshCoins_spentFor (fun _ mem => mem) refreshed
  have eq : SpentFor alloc selection.coinPubs final
      { final with
        refreshGroups := final.refreshGroups.set rgId
          { coins := coins
            timestampFinished :=
              if selection.coinPubs.isEmpty then some env.now else none
            frozen := false } } :=
    ⟨rfl, fun _ coin h => ⟨coin, h, .refl coin⟩, fun _ coin h => ⟨coin, h⟩⟩
  refine ⟨spends.trans (sleeps.trans eq), ?_, by rw [listed]; rfl⟩
  intro pub mem held
  rw [← isCoinPubs] at mem
  obtain ⟨r, isSelected, isC⟩ := List.mem_map.mp mem
  have usable : Usable wallet r.1 := by
    intro coin h
    obtain ⟨held, _, foundHeld, _, st⟩ := held
    rw [isC] at h
    cases h.symm.trans foundHeld
    exact st
  exact isC ▸ (sleeps.trans eq).named (spends.unmarked unmarked)
    (named r isSelected usable)

theorem SpentFor.held (spends : SpentFor allocation coinPubs wallet wallet')
    (named : ∀ pub ∈ coinPubs, Held wallet pub → Named wallet' allocation pub)
    (held : Held wallet pub) : Held wallet' pub := by
  have pre := held
  obtain ⟨coin, dn, h, isDenom, st⟩ := held
  obtain ⟨coin', got, marks⟩ := spends.coins pub coin h
  refine ⟨coin', dn, got, ?_, ?_⟩
  · rw [spends.denominations, marks.exchangeBaseUrl, marks.denomPubHash]
    exact isDenom
  by_cases mem : pub ∈ coinPubs
  · obtain ⟨eq, alloc, isSame, marked, _⟩ := named pub mem pre
    cases got.symm.trans isSame
    exact .inr (marked ▸ rfl)
  · exact marks.unspent mem ▸ st

end Spending

/-! ## What is selected and signed -/

section Selections

variable {host : PayHost} {env : Surroundings} {wallet : WalletStores}

theorem candidatesOf_held {cur : String} {coins : List CoinRecord} :
    ∀ {candidates : List AvailableCoinInfo},
      (∀ coin ∈ coins, wallet.coins.get? coin.coinPub = some coin) →
      candidatesOf host env wallet cur coins = some candidates →
      ∀ cand ∈ candidates, Held wallet cand.coinPub := by
  induction coins with
  | nil =>
    intro candidates _ won
    cases won
    exact fun _ mem => nomatch mem
  | cons coin rest ih =>
    intro candidates kept won
    rw [forall_mem_cons] at kept
    obtain ⟨dn, isDenom, won⟩ := Option.bind_eq_some_iff.mp won
    obtain ⟨more, isMore, won⟩ := Option.bind_eq_some_iff.mp won
    have ys := ih kept.2 isMore
    split at won
    next spendable =>
      cases won
      rw [forall_mem_cons]
      refine ⟨⟨coin, dn, kept.1, isDenom, ?_⟩, ys⟩
      have checks := spendable.2
      simp only [isSpendableCoin, Bool.and_eq_true] at checks
      exact .inl (of_decide_eq_true checks.1.2)
    next =>
      cases won
      exact ys

theorem exchangeCandidates_held (unmarked : Unmarked wallet) {url : String}
    {candidates : List AvailableCoinInfo}
    (won : exchangeCandidates host env wallet url = some candidates) :
    ∀ cand ∈ candidates, Held wallet cand.coinPub := by
  have kept : ∀ coin ∈ wallet.coins.values.filter fun coin =>
      coin.exchangeBaseUrl = url, wallet.coins.get? coin.coinPub = some coin := by
    intro coin mem
    obtain ⟨pub, h⟩ := Record.mem_values_iff.mp (mem_filter.mp mem).1
    rw [unmarked.keyed pub coin h]
    exact h
  simp only [exchangeCandidates] at won
  split at won
  next =>
    cases won
    intro _ mem
    cases mem
  next x rest isCoins =>
    obtain ⟨firstDenom, _, won⟩ := Option.bind_eq_some_iff.mp won
    exact candidatesOf_held (isCoins ▸ kept) won

theorem getCandidatePayCoins_held (unmarked : Unmarked wallet) {allowed : List String} :
    ∀ {candidates : List AvailableCoinInfo},
      getCandidatePayCoins host env wallet allowed = some candidates →
      ∀ cand ∈ candidates, Held wallet cand.coinPub := by
  induction allowed with
  | nil =>
    intro candidates won
    cases won
    exact fun _ mem => nomatch mem
  | cons url rest ih =>
    intro candidates won
    obtain ⟨own, isOwn, won⟩ := Option.bind_eq_some_iff.mp won
    obtain ⟨more, isMore, won⟩ := Option.bind_eq_some_iff.mp won
    cases won
    intro cand mem
    rcases mem_append.mp mem with x | ys
    · exact exchangeCandidates_held unmarked isOwn cand x
    · exact ih isMore cand ys

theorem spendCoins_coinPubs (req : SelectPayCoinRequest) (prevCoinPubs : List String)
    (candidates : List AvailableCoinInfo) : ∀ sel : Selecting,
    ∃ chosen, (spendCoins req prevCoinPubs candidates sel).coinPubs = sel.coinPubs ++ chosen ∧
      ∀ coinPub ∈ chosen, ∃ cand ∈ candidates, cand.coinPub = coinPub := by
  induction candidates with
  | nil => exact fun sel => ⟨[], (append_nil _).symm, fun _ mem => nomatch mem⟩
  | cons cand rest ih =>
    intro sel
    have skips : ∃ chosen, (spendCoins req prevCoinPubs rest sel).coinPubs =
        sel.coinPubs ++ chosen ∧ ∀ coinPub ∈ chosen, ∃ y ∈ cand :: rest, y.coinPub = coinPub := by
      obtain ⟨chosen, isChosen, inside⟩ := ih sel
      refine ⟨chosen, isChosen, ?_⟩
      intro coinPub mem
      obtain ⟨y, isOther, eq⟩ := inside coinPub mem
      exact ⟨y, mem_cons_of_mem _ isOther, eq⟩
    unfold spendCoins
    split
    · exact skips
    split
    · exact ⟨[], (append_nil _).symm, fun _ mem => nomatch mem⟩
    split
    · exact skips
    obtain ⟨chosen, isChosen, inside⟩ := ih (sel.spendCoin req cand)
    refine ⟨cand.coinPub :: chosen, ?_, ?_⟩
    · rw [isChosen]
      simp [Selecting.spendCoin, Selecting.contribute]
    rw [forall_mem_cons]
    refine ⟨⟨cand, mem_cons_self, rfl⟩, ?_⟩
    intro coinPub mem
    obtain ⟨y, isOther, eq⟩ := inside coinPub mem
    exact ⟨y, mem_cons_of_mem _ isOther, eq⟩

theorem repeatPrevious_coinPubs (request : SelectPayCoinRequest) :
    (repeatPrevious request).coinPubs = prevCoinPubs request := by
  have folded : ∀ (previous : List PreviousPayCoin) (sel : Selecting),
      (previous.foldl (Selecting.repeatCoin request) sel).coinPubs =
        sel.coinPubs ++ previous.map PreviousPayCoin.coinPub := by
    intro previous
    induction previous with
    | nil => exact fun sel => (append_nil _).symm
    | cons prev rest ih =>
      intro sel
      rw [foldl_cons, ih]
      simp [Selecting.repeatCoin, Selecting.contribute]
  exact folded request.prevPayCoins (.start request)

theorem selected_coinPubs {req : SelectPayCoinRequest} {res : PayCoinSelection}
    (isSelected : selected req = some res) : ∃ chosen, res.coinPubs = prevCoinPubs req ++ chosen ∧
      ∀ coinPub ∈ chosen, ∃ cand ∈ req.candidateCoins, cand.coinPub = coinPub := by
  unfold selected at isSelected
  split at isSelected
  next selection r =>
    cases isSelected
    unfold selectPayCoins at r
    split at r
    next => cases r
    next =>
      cases order : sortCandidates req.candidateCoins with
      | error message =>
        rw [order] at r
        cases r
      | ok sorted =>
        rw [order] at r
        have isRes : (spendCoins req (prevCoinPubs req) sorted
            (repeatPrevious req)).selection req = some res := Except.ok.inj r
        obtain ⟨chosen, isChosen, inside⟩ :=
          spendCoins_coinPubs req (prevCoinPubs req) sorted (repeatPrevious req)
        refine ⟨chosen, ?_, ?_⟩
        · rw [(selection_some isRes.symm).2.1, isChosen, repeatPrevious_coinPubs]
        intro coinPub mem
        obtain ⟨cand, isCandidate, eq⟩ := inside coinPub mem
        exact ⟨cand, (sortCandidates_perm order).mem_iff.mp isCandidate, eq⟩
  next => cases isSelected

variable {selection : PayCoinSelection}

theorem mem_previousPayCoins {brokenCoinPub : String}
    (whole : (PayCoinSelection.contributions selection.coinPubs selection.coinContributions).isSome)
    {pub : String} (mem : pub ∈ selection.coinPubs) (held : Held wallet pub) :
    pub = brokenCoinPub ∨ ∃ prev ∈ previousPayCoins host wallet brokenCoinPub selection,
      prev.coinPub = pub := by
  by_cases broken : pub = brokenCoinPub
  · exact .inl broken
  obtain ⟨parts, listed⟩ := Option.isSome_iff_exists.mp whole
  have isZip := contributions_eq_zip listed
  rw [← contributions_coinPubs listed, isZip] at mem
  obtain ⟨⟨zipped, contrib⟩, isZipped, eq⟩ := List.mem_map.mp mem
  have isCoinPub : zipped = pub := eq
  rw [isCoinPub] at isZipped
  obtain ⟨coin, dn, h, isDenom, _⟩ := held
  refine .inr ⟨⟨pub, contrib, host.feeDeposit coin.denomPubHash, coin.exchangeBaseUrl⟩,
    mem_filterMap.mpr ⟨(pub, contrib), isZipped, ?_⟩, rfl⟩
  simp [guard, broken, h, isDenom]

theorem previousPayCoins_mem {brokenCoinPub : String} {prev : PreviousPayCoin}
    (mem : prev ∈ previousPayCoins host wallet brokenCoinPub selection) :
    prev.coinPub ∈ selection.coinPubs := by
  obtain ⟨⟨pub, contrib⟩, isZipped, made⟩ := mem_filterMap.mp mem
  obtain ⟨_, _, made⟩ := Option.bind_eq_some_iff.mp made
  obtain ⟨coin, _, made⟩ := Option.bind_eq_some_iff.mp made
  obtain ⟨_, _, made⟩ := Option.bind_eq_some_iff.mp made
  cases made
  exact (of_mem_zip isZipped).1

/-- One permission for each coin of the selection, in its order and with its contribution. -/
def Permitted (selection : PayCoinSelection) (permissions : List CoinDepositPermission) : Prop :=
  permissions.map (fun permission => (permission.coinPub, permission.contribution)) =
      selection.coinPubs.zip selection.coinContributions ∧
    permissions.length = selection.coinPubs.length

theorem signCoins_contributions {data : ContractData} (unmarked : Unmarked wallet)
    {contributions : List (String × AmountJson)} : ∀ {permissions : List CoinDepositPermission},
      signCoins host wallet data contributions = some permissions →
      permissions.map (fun permission => (permission.coinPub, permission.contribution)) =
        contributions := by
  induction contributions with
  | nil =>
    intro permissions won
    cases won
    rfl
  | cons r rest ih =>
    intro permissions won
    obtain ⟨coin, h, won⟩ := Option.bind_eq_some_iff.mp won
    obtain ⟨dn, _, won⟩ := Option.bind_eq_some_iff.mp won
    obtain ⟨more, isMore, won⟩ := Option.bind_eq_some_iff.mp won
    cases won
    rw [map_cons, ih isMore, unmarked.keyed r.1 coin h]

theorem generateDepositPermissions_permitted {data : ContractData}
    (unmarked : Unmarked wallet) {permissions : List CoinDepositPermission}
    (won : generateDepositPermissions host wallet selection data = some permissions) :
    Permitted selection permissions := by
  obtain ⟨parts, mem, won⟩ := Option.bind_eq_some_iff.mp won
  have signed := signCoins_contributions unmarked won
  constructor
  · exact signed.trans (contributions_eq_zip mem)
  have sameLength := congrArg List.length (contributions_coinPubs mem)
  have signedLength := congrArg List.length signed
  rw [length_map] at sameLength signedLength
  exact signedLength.trans sameLength

end Selections

/-! ## The transactions -/

def Transaction.pays : Transaction → Option (String × PayCoinSelection)
  | .recordConfirmPay _ purchase => some (purchase.proposalId, purchase.payCoinSelection)
  | .reselect proposalId _ _ res => some (proposalId, res)
  | _ => none

structure Pays (proposalId : String) (selection : PayCoinSelection)
    (wallet wallet' : WalletStores) : Prop where
  spends : SpentFor (allocationId proposalId) selection.coinPubs wallet wallet'
  named : ∀ coinPub ∈ selection.coinPubs, Held wallet coinPub →
    Named wallet' (allocationId proposalId) coinPub
  whole : (PayCoinSelection.contributions selection.coinPubs
    selection.coinContributions).isSome

namespace PurchaseStores

variable {env : Surroundings} {stores stores' : PurchaseStores}

theorem spendFor_pays (unmarked : Unmarked stores.wallet) {gid : String}
    {purchase : PurchaseRecord} (r : stores.spendFor env gid purchase = some stores') :
    Pays purchase.proposalId purchase.payCoinSelection stores.wallet stores'.wallet := by
  obtain ⟨w, applied, isStores⟩ := Option.bind_eq_some_iff.mp r
  cases isStores
  obtain ⟨spends, named, whole⟩ := applyCoinSpend_spentFor unmarked applied
  exact ⟨spends, named, whole⟩

theorem modifyPurchase_wallet (pid : String) (change : PurchaseRecord → PurchaseRecord) :
    (stores.modifyPurchase pid change).wallet = stores.wallet := by
  unfold modifyPurchase
  split <;> rfl

theorem acceptProposal_wallet (pid : String) :
    (stores.acceptProposal env pid).wallet = stores.wallet := by
  unfold acceptProposal
  split <;> rfl

theorem recordConfirmPay_stored {gid : String} {purchase : PurchaseRecord}
    (r : stores.run env (.recordConfirmPay gid purchase) = some stores') :
    stores'.purchases.get? purchase.proposalId = some purchase := by
  rw [spendFor_purchases r]
  exact Record.get?_set_self _ _ _

theorem run_wallet (keyed : stores.Keyed) (unmarked : Unmarked stores.wallet) {tx : Transaction}
    (r : stores.run env tx = some stores') : stores'.wallet = stores.wallet ∧
        (∀ proposalId selection, tx.pays = some (proposalId, selection) →
          stores'.purchases = stores.purchases ∧ stores.purchases.get? proposalId = none) ∨
      ∃ proposalId selection, tx.pays = some (proposalId, selection) ∧
        Pays proposalId selection stores.wallet stores'.wallet ∧
        ∃ q, stores'.purchases.get? proposalId = some q ∧ q.payCoinSelection = selection := by
  cases tx with
  | recordConfirmPay gid purchase =>
    refine .inr ⟨_, _, rfl, ?_, purchase, recordConfirmPay_stored r, rfl⟩
    have sameWallet := @acceptProposal_wallet env stores purchase.proposalId
    have pays := spendFor_pays (sameWallet ▸ unmarked) r
    rw [putPurchase, sameWallet] at pays
    exact pays
  | reselect proposalId payCoinSelectionUid gid res =>
    simp only [run] at r
    split at r
    next absent =>
      cases r
      refine .inl ⟨rfl, ?_⟩
      intro y selection eq
      cases eq
      exact ⟨rfl, absent⟩
    next p h =>
      have sameKey : (p.reselect payCoinSelectionUid res).proposalId = proposalId :=
        keyed proposalId p h
      have pays := @spendFor_pays env
        (stores.putPurchase (p.reselect payCoinSelectionUid res)) stores' unmarked _ _ r
      rw [sameKey] at pays
      refine .inr ⟨proposalId, res, rfl, pays, p.reselect payCoinSelectionUid res, ?_, rfl⟩
      rw [spendFor_purchases r, putPurchase, sameKey]
      exact Record.get?_set_self _ _ _
  | storePayReplaySuccess proposalId sessionId =>
    refine .inl ⟨?_, (by rintro _ _ ⟨⟩)⟩
    simp only [run] at r
    split at r
    next =>
      cases r
      rfl
    next =>
      obtain ⟨paid, _, isStores⟩ := Option.bind_eq_some_iff.mp r
      cases isStores
      rfl
  | _ =>
    cases r
    exact .inl ⟨modifyPurchase_wallet _ _, (by rintro _ _ ⟨⟩)⟩

end PurchaseStores

theorem Changed.selection {pid : String} {p p' : PurchaseRecord}
    {tx : Transaction} (changed : Changed pid p tx p')
    (pays : tx.pays = none) : p'.payCoinSelection = p.payCoinSelection ∧
      p'.coinDepositPermissions = p.coinDepositPermissions := by
  cases changed with
  | firstPaySuccess now sessionId paySig =>
    unfold PurchaseRecord.firstPaySuccess
    split
    · exact ⟨rfl, rfl⟩
    dsimp only
    split
    · exact ⟨rfl, rfl⟩
    · exact ⟨rfl, rfl⟩
  | payReplaySuccess now sessionId paid =>
    unfold PurchaseRecord.payReplaySuccess at paid
    split at paid
    · cases paid
    · cases paid
      exact ⟨rfl, rfl⟩
  | abort now =>
    unfold PurchaseRecord.abort
    split
    · exact ⟨rfl, rfl⟩
    · exact ⟨rfl, rfl⟩
  | reselect => cases pays
  | _ => exact ⟨rfl, rfl⟩

/-! ## The calls -/

def Point.Knows (wallet : WalletStores) (broken : List (String × String)) : Point → Prop
  | .generateDepositPermissions _ _ _ res => ∀ coinPub ∈ res.coinPubs, Held wallet coinPub
  | .getTotalPaymentCost _ _ _ res depositPermissions =>
    (∀ coinPub ∈ res.coinPubs, Held wallet coinPub) ∧ Permitted res depositPermissions
  | .recordConfirmPay purchase =>
    (∀ coinPub ∈ purchase.payCoinSelection.coinPubs, Held wallet coinPub) ∧
      ∃ depositPermissions, purchase.coinDepositPermissions = some depositPermissions ∧
        Permitted purchase.payCoinSelection depositPermissions
  | .handleInsufficientFunds proposalId brokenCoinPub _ => (proposalId, brokenCoinPub) ∈ broken
  | .reselectCandidates proposalId brokenCoinPub purchase =>
    (proposalId, brokenCoinPub) ∈ broken ∧
      (PayCoinSelection.contributions purchase.payCoinSelection.coinPubs
        purchase.payCoinSelection.coinContributions).isSome ∧
      ∀ coinPub ∈ purchase.payCoinSelection.coinPubs, Held wallet coinPub
  | .reselectPrevious proposalId brokenCoinPub purchase candidateCoins _ =>
    (proposalId, brokenCoinPub) ∈ broken ∧
      (PayCoinSelection.contributions purchase.payCoinSelection.coinPubs
        purchase.payCoinSelection.coinContributions).isSome ∧
      (∀ coinPub ∈ purchase.payCoinSelection.coinPubs, Held wallet coinPub) ∧
      ∀ candidate ∈ candidateCoins, Held wallet candidate.coinPub
  | .reselect proposalId purchase res =>
    (∀ coinPub ∈ res.coinPubs, Held wallet coinPub) ∧
      ∀ coinPub ∈ purchase.payCoinSelection.coinPubs,
        coinPub ∈ res.coinPubs ∨ (proposalId, coinPub) ∈ broken
  | _ => True

theorem Point.Knows.mono {w wallet' : WalletStores} {broken broken' : List (String × String)}
    {point : Point} (knows : point.Knows w broken) (held : ∀ pub, Held w pub → Held wallet' pub)
    (told : ∀ report ∈ broken, report ∈ broken') : point.Knows wallet' broken' := by
  cases point with
  | generateDepositPermissions prop download sessionIdOverride res =>
    exact fun pub mem => held pub (knows pub mem)
  | getTotalPaymentCost prop download sessionIdOverride res depositPermissions =>
    exact ⟨fun pub mem => held pub (knows.1 pub mem), knows.2⟩
  | recordConfirmPay purchase =>
    exact ⟨fun pub mem => held pub (knows.1 pub mem), knows.2⟩
  | handleInsufficientFunds pid brokenCoinPub insufficientFunds =>
    exact told _ knows
  | reselectCandidates pid brokenCoinPub purchase =>
    exact ⟨told _ knows.1, knows.2.1, fun pub mem => held pub (knows.2.2 pub mem)⟩
  | reselectPrevious pid brokenCoinPub purchase candidateCoins wireFees =>
    exact ⟨told _ knows.1, knows.2.1, fun pub mem => held pub (knows.2.2.1 pub mem),
      fun cand mem => held _ (knows.2.2.2 cand mem)⟩
  | reselect pid purchase res =>
    exact ⟨fun pub mem => held pub (knows.1 pub mem),
      fun pub mem => (knows.2 pub mem).imp_right (told _)⟩
  | _ => exact trivial

def PurchaseStores.Selects (stores : PurchaseStores) : Prop :=
  ∀ proposalId p, stores.purchases.get? proposalId = some p →
    (PayCoinSelection.contributions p.payCoinSelection.coinPubs
      p.payCoinSelection.coinContributions).isSome ∧
    ∀ coinPub ∈ p.payCoinSelection.coinPubs, Held stores.wallet coinPub

variable {host : PayHost} {stores : PurchaseStores} {broken : List (String × String)}
  {point : Point} {answer ans : Answer} {next : Next}

/-- A call knows what it has to know, whether its transaction is done or has thrown. -/
def Next.Knows (next : Next) (wallet : WalletStores) (broken : List (String × String)) : Prop :=
  next.point.Knows wallet broken ∧ next.thrown.Knows wallet broken

theorem reads_knows {goal : Point} (reads : some (Next.reads goal) = some next)
    (knows : goal.Knows stores.wallet broken) : next.Knows stores.wallet broken := by
  cases reads
  exact ⟨knows, knows⟩

theorem checked_knows (prop : Proposal) (sessionId : Option String) :
    (Point.checked prop sessionId).Knows stores.wallet broken := by
  unfold Point.checked
  split
  · exact trivial
  split
  · exact trivial
  · exact trivial

theorem submit_knows (pid : String) : (submit stores pid).Knows stores.wallet broken := by
  unfold submit
  split
  · exact ⟨trivial, trivial⟩
  split
  · exact ⟨trivial, trivial⟩
  split
  · exact ⟨trivial, trivial⟩
  · exact ⟨trivial, trivial⟩
  · exact ⟨trivial, trivial⟩

theorem reselected_knows {id brokenCoinPub : String} {purchase : PurchaseRecord}
    {candidateCoins : List AvailableCoinInfo} {wireFees : List (String × AmountJson)}
    {res : PayCoinSelection}
    (knows : (Point.reselectPrevious id brokenCoinPub purchase candidateCoins
      wireFees).Knows stores.wallet broken)
    (isSelected : selected (selectionRequest purchase.contractData candidateCoins wireFees
      (previousPayCoins host stores.wallet brokenCoinPub purchase.payCoinSelection)) = some res) :
    (Point.reselect id purchase res).Knows stores.wallet broken := by
  obtain ⟨reported, whole, held, candidatesHeld⟩ := knows
  obtain ⟨chosen, isCoinPubs, inside⟩ := selected_coinPubs isSelected
  constructor
  · intro pub mem
    rw [isCoinPubs] at mem
    rcases mem_append.mp mem with previous | isChosen
    · obtain ⟨prev, isPrev, eq⟩ := List.mem_map.mp previous
      exact eq ▸ held _ (previousPayCoins_mem isPrev)
    · obtain ⟨candidate, isCandidate, eq⟩ := inside pub isChosen
      exact eq ▸ candidatesHeld candidate isCandidate
  · intro pub mem
    rcases mem_previousPayCoins whole mem (held pub mem) with eq | ⟨prev, isPrev, eq⟩
    · exact .inr (eq ▸ reported)
    left
    rw [isCoinPubs]
    exact mem_append_left _ (List.mem_map.mpr ⟨prev, isPrev, eq⟩)

theorem proceed_knows (unmarked : Unmarked stores.wallet) (selects : stores.Selects)
    (knows : point.Knows stores.wallet broken) (r : proceed host stores point = some next) :
    next.Knows stores.wallet broken := by
  cases point with
  | confirmPay pid sessionIdOverride =>
    simp only [proceed] at r
    split at r
    · exact reads_knows r trivial
    split at r
    · exact reads_knows r trivial
    · exact reads_knows r trivial
  | existingPurchase prop download sessionIdOverride =>
    simp only [proceed] at r
    split at r
    · exact reads_knows r trivial
    split at r
    · cases r
      exact ⟨trivial, trivial⟩
    · exact reads_knows r trivial
  | generateDepositPermissions prop download sessionIdOverride res =>
    simp only [proceed] at r
    split at r
    next => exact reads_knows r trivial
    next depositPermissions signed =>
      exact reads_knows r ⟨knows, generateDepositPermissions_permitted unmarked signed⟩
  | checkPaymentByProposalId pid sessionId =>
    simp only [proceed] at r
    split at r
    · exact reads_knows r trivial
    split at r
    · split at r
      · exact reads_knows r trivial
      · exact reads_knows r trivial
    · exact reads_knows r (checked_knows _ _)
  | existingProposal existingProposalId sessionId =>
    simp only [proceed] at r
    split at r
    · exact reads_knows r trivial
    · exact reads_knows r (checked_knows _ _)
  | checkPurchase pid sessionId =>
    simp only [proceed] at r
    split at r
    · exact reads_knows r trivial
    split at r
    · exact reads_knows r trivial
    · exact reads_knows r trivial
  | processPurchasePay pid =>
    simp only [proceed] at r
    split at r
    · exact reads_knows r trivial
    split at r
    · exact reads_knows r trivial
    · exact reads_knows r trivial
  | submitPay pid =>
    cases r
    exact submit_knows pid
  | submitPermissions pid purchase =>
    simp only [proceed] at r
    split at r
    · exact reads_knows r trivial
    · exact reads_knows r trivial
  | handleInsufficientFunds pid brokenCoinPub insufficientFunds =>
    simp only [proceed] at r
    split at r
    next => exact reads_knows r trivial
    next purchase h =>
      split at r
      · exact reads_knows r ⟨knows, selects pid purchase h⟩
      · exact reads_knows r trivial
  | reselectPrevious pid brokenCoinPub purchase candidateCoins wireFees =>
    simp only [proceed] at r
    split at r
    next => exact reads_knows r trivial
    next res isSelected => exact reads_knows r (reselected_knows knows isSelected)
  | payRequest => exact reads_knows r trivial
  | paidRequest => exact reads_knows r trivial
  | selectCoins => cases r
  | getTotalPaymentCost => cases r
  | recordConfirmPay => cases r
  | payResponse => cases r
  | paidResponse => cases r
  | reselectCandidates => cases r
  | reselect => cases r
  | threw => cases r
  | finished => cases r
  | _ =>
    cases r
    exact ⟨trivial, trivial⟩

theorem advance_knows (unmarked : Unmarked stores.wallet) (selects : stores.Selects)
    (knows : point.Knows stores.wallet broken)
    (ran : advance host stores point answer = some next) :
    next.Knows stores.wallet (broken ++ point.reports answer) := by
  have grown : ∀ report ∈ broken, report ∈ broken ++ point.reports answer :=
    fun _ => mem_append_left _
  have knows := knows.mono (fun _ held => held) grown
  cases answer with
  | proceed env => exact proceed_knows unmarked selects knows ran
  | drawn env uid groupId =>
    cases point with
    | getTotalPaymentCost prop download sessionIdOverride res depositPermissions =>
      simp only [advance] at ran
      split at ran
      · exact reads_knows ran trivial
      · exact reads_knows ran ⟨knows.1, depositPermissions, rfl, knows.2⟩
    | recordConfirmPay purchase =>
      cases ran
      exact ⟨trivial, trivial⟩
    | reselect propId purchase res =>
      cases ran
      exact ⟨trivial, trivial⟩
    | _ => cases ran
  | exchanges env allowed wireFees =>
    cases point with
    | selectCoins prop download sessionIdOverride =>
      simp only [advance] at ran
      split at ran
      next => exact reads_knows ran trivial
      next candidateCoins isCandidates =>
        split at ran
        next => exact reads_knows ran trivial
        next res isSelected =>
          apply reads_knows ran
          obtain ⟨chosen, isCoinPubs, inside⟩ := selected_coinPubs isSelected
          intro pub mem
          rw [isCoinPubs] at mem
          obtain ⟨cand, isCandidate, eq⟩ := inside pub mem
          exact eq ▸ getCandidatePayCoins_held unmarked isCandidates cand isCandidate
    | reselectCandidates propId brokenCoinPub purchase =>
      simp only [advance] at ran
      split at ran
      next => exact reads_knows ran trivial
      next candidateCoins isCandidates =>
        exact reads_knows ran ⟨knows.1, knows.2.1, knows.2.2,
          getCandidatePayCoins_held unmarked isCandidates⟩
    | _ => cases ran
  | response response =>
    cases point with
    | payResponse propId purchase =>
      apply reads_knows ran
      cases response with
      | paid sig =>
        simp only [payResponded]
        split
        · exact trivial
        · exact trivial
      | conflict brokenCoinPub insufficientFunds =>
        exact mem_append_right _ (mem_singleton_self _)
      | _ => exact trivial
    | paidResponse propId purchase =>
      apply reads_knows ran
      cases response with
      | _ => exact trivial
    | _ => cases ran
  | failure err =>
    cases point with
    | payResponse => exact reads_knows ran trivial
    | paidResponse => exact reads_knows ran trivial
    | _ => cases ran

/-! ## Runs -/

theorem Stored.selection {buys purchases' : Record String PurchaseRecord}
    {transaction : Transaction} (stored : Stored buys transaction purchases')
    {id : String} {q : PurchaseRecord} (got : purchases'.get? id = some q) :
    (∃ p, buys.get? id = some p ∧ q.payCoinSelection = p.payCoinSelection ∧
        q.coinDepositPermissions = p.coinDepositPermissions) ∨
      (transaction.pays = some (id, q.payCoinSelection) ∧ (q.coinDepositPermissions = none ∨
          ∃ groupId, transaction = .recordConfirmPay groupId q)) := by
  cases stored with
  | same => exact .inl ⟨q, got, rfl, rfl⟩
  | @changed changedId p p' isBuy changed =>
    rw [Record.get?_set] at got
    split at got
    next same =>
      cases same
      cases got
      cases pays : transaction.pays with
      | none =>
        obtain ⟨sameSelection, samePermissions⟩ := changed.selection pays
        exact .inl ⟨p, isBuy, sameSelection, samePermissions⟩
      | some pay =>
        cases changed with
        | reselect payCoinSelectionUid groupId res =>
          cases pays
          exact .inr ⟨rfl, .inl rfl⟩
        | _ => cases pays
    next => exact .inl ⟨q, got, rfl, rfl⟩
  | recorded groupId purchase isTransaction =>
    cases isTransaction
    rw [Record.get?_set] at got
    split at got
    next same =>
      cases same
      cases got
      exact .inr ⟨rfl, .inr ⟨groupId, rfl⟩⟩
    next => exact .inl ⟨q, got, rfl, rfl⟩

/-- The coins of a payment are stored, and its permissions are those of its coins. -/
theorem held_of_pays {wallet : WalletStores} {broken : List (String × String)} {point : Point}
    {tx : Transaction} (isFrom : tx.From point)
    (knows : point.Knows wallet broken) {pid : String} {selection : PayCoinSelection}
    (pays : tx.pays = some (pid, selection)) : ∀ pub ∈ selection.coinPubs, Held wallet pub := by
  cases tx with
  | recordConfirmPay gid purchase =>
    cases pays
    cases isFrom
    exact knows.1
  | reselect payId payCoinSelectionUid gid res =>
    cases pays
    obtain ⟨purchase, isPoint⟩ := isFrom
    cases isPoint
    exact knows.1
  | _ => cases pays

namespace PurchaseStores

/-- What holds of the purchases and of the coins that they name. -/
structure CoinsSound (stores : PurchaseStores) : Prop where
  keyed : stores.Keyed
  unmarked : Unmarked stores.wallet
  selects : stores.Selects
  named : ∀ proposalId p, stores.purchases.get? proposalId = some p →
    ∀ coinPub ∈ p.payCoinSelection.coinPubs,
      Named stores.wallet (allocationId proposalId) coinPub
  permitted : ∀ proposalId p depositPermissions, stores.purchases.get? proposalId = some p →
    p.coinDepositPermissions = some depositPermissions →
      Permitted p.payCoinSelection depositPermissions

variable {stores stores' : PurchaseStores} {env : Surroundings}
  {broken : List (String × String)} {point : Point} {transaction : Transaction}

theorem CoinsSound.leaves (sound : stores.CoinsSound)
    (kept : Stored stores.purchases transaction stores'.purchases)
    (sameWallet : stores'.wallet = stores.wallet)
    (pays : ∀ pid selection, transaction.pays = some (pid, selection) →
      stores'.purchases = stores.purchases) : stores'.CoinsSound := by
  have old : ∀ {pid : String} {q : PurchaseRecord}, stores'.purchases.get? pid = some q →
      ∃ p, stores.purchases.get? pid = some p ∧ q.payCoinSelection = p.payCoinSelection ∧
        q.coinDepositPermissions = p.coinDepositPermissions := by
    intro pid q h
    rcases kept.selection h with pre | ⟨isPayment, _⟩
    · exact pre
    · rw [pays _ _ isPayment] at h
      exact ⟨q, h, rfl, rfl⟩
  constructor
  · exact sound.keyed.stored kept
  · exact sameWallet ▸ sound.unmarked
  · intro pid q h
    obtain ⟨p, isBuy, sameSelection, _⟩ := old h
    rw [sameWallet, sameSelection]
    exact sound.selects pid p isBuy
  · intro pid q h
    obtain ⟨p, isBuy, sameSelection, _⟩ := old h
    rw [sameWallet, sameSelection]
    exact sound.named pid p isBuy
  intro pid q depositPermissions h isPermissions
  obtain ⟨p, isBuy, sameSelection, samePermissions⟩ := old h
  rw [sameSelection]
  exact sound.permitted pid p depositPermissions isBuy (samePermissions ▸ isPermissions)

theorem CoinsSound.pays (sound : stores.CoinsSound)
    (kept : Stored stores.purchases transaction stores'.purchases) {pid : String}
    {selection : PayCoinSelection} (isPayment : transaction.pays = some (pid, selection))
    (pays : Pays pid selection stores.wallet stores'.wallet)
    (held : ∀ pub ∈ selection.coinPubs, Held stores.wallet pub)
    (signed : ∀ rgId purchase, transaction = .recordConfirmPay rgId purchase →
      ∃ depositPermissions, purchase.coinDepositPermissions = some depositPermissions ∧
        Permitted purchase.payCoinSelection depositPermissions) : stores'.CoinsSound := by
  have keeps : ∀ pub, Held stores.wallet pub → Held stores'.wallet pub :=
    fun _ pre => pays.spends.held pays.named pre
  constructor
  · exact sound.keyed.stored kept
  · exact pays.spends.unmarked sound.unmarked
  · intro y q h
    rcases kept.selection h with ⟨p, isBuy, eq, _⟩ | ⟨isOther, _⟩
    · obtain ⟨whole, pre⟩ := sound.selects y p isBuy
      rw [eq]
      exact ⟨whole, fun pub mem => keeps pub (pre pub mem)⟩
    obtain ⟨_, eq⟩ := Prod.mk.inj (Option.some.inj (isPayment.symm.trans isOther))
    rw [← eq]
    exact ⟨pays.whole, fun pub mem => keeps pub (held pub mem)⟩
  · intro y q h pub mem
    rcases kept.selection h with ⟨p, isBuy, eq, _⟩ | ⟨isOther, _⟩
    · rw [eq] at mem
      exact pays.spends.named sound.unmarked (sound.named y p isBuy pub mem)
    obtain ⟨sameId, eq⟩ := Prod.mk.inj (Option.some.inj (isPayment.symm.trans isOther))
    rw [← eq] at mem
    exact sameId ▸ pays.named pub mem (held pub mem)
  · intro y q depositPermissions h isPermissions
    rcases kept.selection h with
      ⟨p, isBuy, eq, samePermissions⟩ | ⟨_, absent | ⟨rgId, isRecord⟩⟩
    · rw [eq]
      exact sound.permitted y p depositPermissions isBuy (samePermissions ▸ isPermissions)
    · cases absent.symm.trans isPermissions
    obtain ⟨own, isOwn, permitted⟩ := signed rgId q isRecord
    cases isPermissions.symm.trans isOwn
    exact permitted

theorem CoinsSound.run (sound : stores.CoinsSound) (isFrom : transaction.From point)
    (knows : point.Knows stores.wallet broken) (r : stores.run env transaction = some stores') :
    stores'.CoinsSound ∧ ∀ pub, Held stores.wallet pub → Held stores'.wallet pub := by
  have kept := run_stored sound.keyed r
  rcases run_wallet sound.keyed sound.unmarked r with
    ⟨sameWallet, absent⟩ | ⟨pid, selection, isPayment, pays, _⟩
  · refine ⟨sound.leaves kept sameWallet fun _ _ isPayment => (absent _ _ isPayment).1, ?_⟩
    exact fun pub held => sameWallet ▸ held
  have held := held_of_pays isFrom knows isPayment
  refine ⟨sound.pays kept isPayment pays held ?_, fun _ pre =>
    pays.spends.held pays.named pre⟩
  intro rgId purchase eq
  cases eq
  cases isFrom
  exact knows.2

end PurchaseStores

theorem allocationId_injective {x second : String}
    (eq : allocationId x = allocationId second) : x = second := by
  have chars := congrArg String.toList eq
  simp only [allocationId, String.toList_append] at chars
  exact String.toList_inj.mp (append_cancel_left chars)

theorem Stored.persists {buys purchases' : Record String PurchaseRecord}
    {transaction : Transaction} (stored : Stored buys transaction purchases')
    {id : String} {p : PurchaseRecord} (got : buys.get? id = some p) :
    ∃ q, purchases'.get? id = some q := by
  cases stored with
  | same => exact ⟨p, got⟩
  | changed =>
    rw [Record.get?_set]
    split
    · exact ⟨_, rfl⟩
    · exact ⟨p, got⟩
  | recorded =>
    rw [Record.get?_set]
    split
    · exact ⟨_, rfl⟩
    · exact ⟨p, got⟩

namespace PurchaseWallet

variable (wallet : PurchaseWallet)

structure CoinsSound : Prop where
  stores : wallet.stores.CoinsSound
  calls : ∀ point ∈ wallet.calls, point.Knows wallet.stores.wallet wallet.broken

/-- A purchase is recorded once, and the coins with its mark are those of its selection and
broken ones. -/
structure BoughtOnce : Prop where
  recorded : wallet.recorded.Nodup
  stored : ∀ proposalId ∈ wallet.recorded,
    ∃ p, wallet.stores.purchases.get? proposalId = some p
  owned : ∀ proposalId coinPub,
    Named wallet.stores.wallet (allocationId proposalId) coinPub →
      ∃ p, wallet.stores.purchases.get? proposalId = some p ∧
        (coinPub ∈ p.payCoinSelection.coinPubs ∨ (proposalId, coinPub) ∈ wallet.broken)

/-- A purchase is recorded when there is none for the proposal, and a selection is replaced that
is still the one that was read. -/
def CoinCondition : PurchaseEvent → Prop
  | .advance index _ => ∀ point, wallet.calls[index]? = some point →
      (∀ purchase, point = .recordConfirmPay purchase →
        wallet.stores.purchases.get? purchase.proposalId = none) ∧
      (∀ proposalId purchase res p, point = .reselect proposalId purchase res →
        wallet.stores.purchases.get? proposalId = some p →
          p.payCoinSelection = purchase.payCoinSelection)
  | _ => True

variable {wallet}

theorem start_coinsSound : start.CoinsSound := by
  refine ⟨⟨?_, ⟨?_, ?_⟩, ?_, ?_, ?_⟩, ?_⟩
  · exact fun _ _ h => nomatch h
  · exact fun _ _ h => nomatch h
  · exact fun _ _ h => nomatch h
  · exact fun _ _ h => nomatch h
  · exact fun _ _ h => nomatch h
  · exact fun _ _ _ h => nomatch h
  · exact fun _ mem => nomatch mem

theorem start_boughtOnce : start.BoughtOnce := by
  constructor
  · exact nodup_nil
  · exact fun _ mem => nomatch mem
  · rintro _ _ ⟨_, _, h, _⟩
    cases h

theorem call_coinsSound (sound : wallet.CoinsSound) {point : Point}
    (knows : point.Knows wallet.stores.wallet wallet.broken) : (wallet.call point).CoinsSound := by
  refine ⟨sound.stores, ?_⟩
  intro y mem
  rcases mem_append.mp mem with pre | isNew
  · exact sound.calls y pre
  · exact mem_singleton.mp isNew ▸ knows

theorem abort_stored (env : Surroundings) (pid : String) :
    (wallet.abort env pid).stores.wallet = wallet.stores.wallet ∧
      Stored wallet.stores.purchases (.abort pid) (wallet.abort env pid).stores.purchases := by
  unfold abort
  split
  next => exact ⟨rfl, .same⟩
  next =>
    exact ⟨PurchaseStores.modifyPurchase_wallet _ _,
      PurchaseStores.modifyPurchase_stored fun p => .abort env.now⟩

theorem abort_broken (env : Surroundings) (pid : String) :
    (wallet.abort env pid).broken = wallet.broken ∧ (wallet.abort env pid).calls = wallet.calls ∧
      (wallet.abort env pid).recorded = wallet.recorded := by
  unfold abort
  split <;> exact ⟨rfl, rfl, rfl⟩

theorem abort_coinsSound (sound : wallet.CoinsSound) (env : Surroundings)
    (pid : String) : (wallet.abort env pid).CoinsSound := by
  obtain ⟨sameWallet, kept⟩ := wallet.abort_stored env pid
  obtain ⟨sameBroken, sameCalls, _⟩ := wallet.abort_broken env pid
  refine ⟨sound.stores.leaves kept sameWallet nofun, ?_⟩
  rw [sameWallet, sameBroken, sameCalls]
  exact sound.calls

variable {coins : WalletStores}

theorem foreign_coinsSound (sound : wallet.CoinsSound) (unmarked : Unmarked coins)
    (held : ∀ pub, Held wallet.stores.wallet pub → Held coins pub)
    (named : ∀ alloc pub, Named wallet.stores.wallet alloc pub → Named coins alloc pub) :
    { wallet with stores := { wallet.stores with wallet := coins } }.CoinsSound := by
  constructor
  · constructor
    · exact sound.stores.keyed
    · exact unmarked
    · intro pid p h
      obtain ⟨whole, pre⟩ := sound.stores.selects pid p h
      exact ⟨whole, fun pub mem => held pub (pre pub mem)⟩
    · exact fun pid p h pub mem =>
      named _ pub (sound.stores.named pid p h pub mem)
    · exact sound.stores.permitted
  · exact fun point mem => (sound.calls point mem).mono held fun _ told => told

variable {coinPub pub : String}

theorem denomination_held (key : String × String) (dn : DenominationRecord)
    (held : Held coins coinPub) :
    Held { coins with denominations := coins.denominations.set key dn } coinPub := by
  obtain ⟨coin, old, h, isDenom, st⟩ := held
  have stays : ∃ new, (coins.denominations.set key dn).get?
      (coin.exchangeBaseUrl, coin.denomPubHash) = some new := by
    rw [Record.get?_set]
    split
    · exact ⟨dn, rfl⟩
    · exact ⟨old, isDenom⟩
  obtain ⟨new, isNew⟩ := stays
  exact ⟨coin, new, h, isNew, st⟩

variable {coin : CoinRecord}

theorem coin_found (isNew : coins.coins.get? coin.coinPub = none) {old : CoinRecord}
    (h : coins.coins.get? pub = some old) :
    (coins.coins.set coin.coinPub coin).get? pub = some old := by
  rw [Record.get?_set_of_ne]
  · exact h
  · intro eq
    cases (eq ▸ h).symm.trans isNew

theorem coin_held (isNew : coins.coins.get? coin.coinPub = none) (held : Held coins coinPub) :
    Held { coins with coins := coins.coins.set coin.coinPub coin } coinPub := by
  obtain ⟨old, dn, h, isDenom, st⟩ := held
  exact ⟨old, dn, coin_found isNew h, isDenom, st⟩

theorem coin_named (isNew : coins.coins.get? coin.coinPub = none) {allocation : String}
    (named : Named coins allocation coinPub) :
    Named { coins with coins := coins.coins.set coin.coinPub coin } allocation coinPub := by
  obtain ⟨old, alloc, h, marked, isAllocation⟩ := named
  exact ⟨old, alloc, coin_found isNew h, marked, isAllocation⟩

theorem coin_unmarked (unmarked : Unmarked coins)
    (unallocated : coin.status = .fresh → coin.allocation = none) :
    Unmarked { coins with coins := coins.coins.set coin.coinPub coin } := by
  constructor
  · intro pub old h fresh
    rw [Record.get?_set] at h
    split at h
    next =>
      cases h
      exact unallocated fresh
    next => exact unmarked.fresh pub old h fresh
  · intro pub old h
    rw [Record.get?_set] at h
    split at h
    next eq =>
      cases h
      exact eq.symm
    next => exact unmarked.keyed pub old h

variable {index idx : Nat}

theorem goesOn_coinsSound (sound : wallet.CoinsSound) {point goal : Point} {ans : Answer}
    (knows : goal.Knows wallet.stores.wallet (wallet.broken ++ point.reports ans)) :
    (wallet.goesOn idx point ans goal).CoinsSound := by
  refine ⟨sound.stores, ?_⟩
  intro y mem
  rcases mem_or_eq_of_mem_set mem with pre | eq
  · exact (sound.calls y pre).mono (fun _ held => held) fun _ told => mem_append_left _ told
  · exact eq ▸ knows

variable {host : PayHost} {next : PurchaseWallet} {event ev : PurchaseEvent}

theorem step_coinsSound (sound : wallet.CoinsSound) (step : PurchaseStep host wallet ev next) :
    next.CoinsSound := by
  obtain ⟨foreign, did⟩ := step
  cases ev with
  | confirmPay pid sessionIdOverride =>
    cases did
    exact call_coinsSound sound trivial
  | checkPaymentByProposalId pid sessionId =>
    cases did
    exact call_coinsSound sound trivial
  | processPurchasePay pid forceNow =>
    cases did
    apply call_coinsSound sound
    split <;> exact trivial
  | abortFailedPayWithRefund env pid =>
    cases did
    exact abort_coinsSound sound env pid
  | advance idx answer =>
    obtain ⟨point, isPoint, did⟩ := Option.bind_eq_some_iff.mp did
    obtain ⟨step, advanced, isNext⟩ := Option.bind_eq_some_iff.mp did
    cases isNext
    have knows := sound.calls point (mem_of_getElem? isPoint)
    obtain ⟨done, thrown⟩ := advance_knows sound.stores.unmarked sound.stores.selects knows advanced
    cases isTransaction : step.transaction with
    | none =>
      simp only [PurchaseWallet.step, isTransaction]
      exact goesOn_coinsSound sound done
    | some transaction =>
      have isFrom := (advance_advanced advanced).transaction transaction isTransaction
      simp only [PurchaseWallet.step, isTransaction]
      split
      next => exact goesOn_coinsSound sound thrown
      next stores' r =>
        obtain ⟨storesSound, held⟩ := sound.stores.run isFrom knows r
        refine ⟨storesSound, ?_⟩
        intro y mem
        exact ((goesOn_coinsSound sound done).calls y mem).mono held fun _ told => told
  | proposal proposal =>
    cases did
    exact ⟨⟨sound.stores.keyed, sound.stores.unmarked, sound.stores.selects, sound.stores.named,
      sound.stores.permitted⟩, sound.calls⟩
  | denomination dn =>
    cases did
    exact foreign_coinsSound sound ⟨sound.stores.unmarked.fresh, sound.stores.unmarked.keyed⟩
      (fun _ => denomination_held _ dn) fun _ _ named => named
  | coin coin =>
    cases did
    exact foreign_coinsSound sound (coin_unmarked sound.stores.unmarked foreign.2.1)
      (fun _ => coin_held foreign.1) fun _ _ => coin_named foreign.1

/-- Under the condition, a payment keeps the coins of the purchase that are not broken. -/
theorem replaced_of_condition {point : Point} {ans : Answer} {transaction : Transaction}
    (cond : wallet.CoinCondition (.advance idx ans))
    (isPoint : wallet.calls[idx]? = some point) (isFrom : transaction.From point)
    (knows : point.Knows wallet.stores.wallet wallet.broken) {pid : String}
    {selection : PayCoinSelection} (isPayment : transaction.pays = some (pid, selection))
    {p : PurchaseRecord} (h : wallet.stores.purchases.get? pid = some p)
    (mem : pub ∈ p.payCoinSelection.coinPubs) :
    pub ∈ selection.coinPubs ∨ (pid, pub) ∈ wallet.broken := by
  obtain ⟨unrecorded, cur⟩ := cond point isPoint
  cases transaction with
  | recordConfirmPay rgId purchase =>
    cases isPayment
    cases h.symm.trans (unrecorded purchase isFrom)
  | reselect payId payCoinSelectionUid rgId res =>
    cases isPayment
    obtain ⟨purchase, isReselect⟩ := isFrom
    rw [cur pid purchase selection p isReselect h] at mem
    cases isReselect
    exact knows.2 pub mem
  | _ => cases isPayment

theorem mem_records {tx : Transaction} {proposalId : String}
    (mem : proposalId ∈ tx.records) : ∃ gid purchase, tx = .recordConfirmPay gid purchase ∧
        purchase.proposalId = proposalId := by
  cases tx with
  | recordConfirmPay gid purchase =>
    exact ⟨gid, purchase, rfl, (mem_singleton.mp mem).symm⟩
  | _ => cases mem

theorem owned_of_run (sound : wallet.CoinsSound) (once : wallet.BoughtOnce) {point : Point}
    {ans : Answer} {transaction : Transaction} {stores' : PurchaseStores}
    (cond : wallet.CoinCondition (.advance idx ans))
    (isPoint : wallet.calls[idx]? = some point) (isFrom : transaction.From point)
    (r : wallet.stores.run ans.surroundings transaction = some stores') {pid : String}
    (named : Named stores'.wallet (allocationId pid) pub) :
    ∃ q, stores'.purchases.get? pid = some q ∧
      (pub ∈ q.payCoinSelection.coinPubs ∨ (pid, pub) ∈ wallet.broken) := by
  have kept := PurchaseStores.run_stored sound.stores.keyed r
  have knows := sound.calls point (mem_of_getElem? isPoint)
  -- a coin that had the mark before
  have old : Named wallet.stores.wallet (allocationId pid) pub →
      (∀ selection, transaction.pays = some (pid, selection) →
        stores'.purchases = wallet.stores.purchases ∨
          ∃ q, stores'.purchases.get? pid = some q ∧ q.payCoinSelection = selection) →
      ∃ q, stores'.purchases.get? pid = some q ∧
        (pub ∈ q.payCoinSelection.coinPubs ∨ (pid, pub) ∈ wallet.broken) := by
    intro pre paid
    obtain ⟨p, h, owned⟩ := once.owned pid pub pre
    obtain ⟨q, got⟩ := kept.persists h
    refine ⟨q, got, ?_⟩
    rcases owned with mem | told
    · rcases kept.selection got with ⟨eq, isSame, sameSelection, _⟩ | ⟨isPayment, _⟩
      · cases h.symm.trans isSame
        exact .inl (sameSelection ▸ mem)
      · exact replaced_of_condition cond isPoint isFrom knows isPayment h mem
    · exact .inr told
  rcases PurchaseStores.run_wallet sound.stores.keyed sound.stores.unmarked r with
    ⟨sameWallet, absent⟩ | ⟨paidId, selection, isPayment, pays, isStored⟩
  · exact old (sameWallet ▸ named) fun _ isPayment => .inl (absent _ _ isPayment).1
  rcases pays.spends.named_cases named with pre | ⟨mem, sameAllocation⟩
  · apply old pre
    intro y isOther
    cases isPayment.symm.trans isOther
    exact .inr isStored
  cases allocationId_injective sameAllocation
  obtain ⟨q, h, sameSelection⟩ := isStored
  exact ⟨q, h, .inl (sameSelection ▸ mem)⟩

theorem stored_boughtOnce (sound : wallet.CoinsSound) (once : wallet.BoughtOnce) {point : Point}
    {ans : Answer} {transaction : Transaction} {stores' : PurchaseStores}
    (cond : wallet.CoinCondition (.advance idx ans))
    (isPoint : wallet.calls[idx]? = some point) (isFrom : transaction.From point)
    (r : wallet.stores.run ans.surroundings transaction = some stores') (goal : Point) :
    { wallet with
      stores := stores'
      calls := wallet.calls.set idx goal
      recorded := wallet.recorded ++ transaction.records
      broken := wallet.broken ++ point.reports ans
      accepted := wallet.accepted ++ point.accepts ans
      overtaken := wallet.overtaken ++ wallet.overtakes transaction }.BoughtOnce := by
  constructor
  · refine nodup_append.mpr ⟨once.recorded, ?_, ?_⟩
    · cases transaction with
      | recordConfirmPay rgId purchase => exact nodup_singleton _
      | _ => exact nodup_nil
    intro old pre y isNew eq
    obtain ⟨rgId, purchase, isRecord, isId⟩ := mem_records isNew
    cases isRecord
    obtain ⟨p, h⟩ := once.stored old pre
    rw [eq, ← isId] at h
    cases h.symm.trans ((cond point isPoint).1 purchase isFrom)
  · intro pid mem
    rcases mem_append.mp mem with pre | isNew
    · obtain ⟨p, h⟩ := once.stored pid pre
      exact (PurchaseStores.run_stored sound.stores.keyed r).persists h
    obtain ⟨rgId, purchase, isRecord, isId⟩ := mem_records isNew
    cases isRecord
    exact ⟨purchase, isId ▸ PurchaseStores.recordConfirmPay_stored r⟩
  · intro pid pub named
    obtain ⟨q, h, owned⟩ := owned_of_run sound once cond isPoint isFrom r named
    exact ⟨q, h, owned.imp_right (mem_append_left _)⟩

theorem goesOn_boughtOnce (once : wallet.BoughtOnce) {point goal : Point} {ans : Answer} :
    (wallet.goesOn idx point ans goal).BoughtOnce := by
  refine ⟨once.recorded, once.stored, ?_⟩
  intro pid pub named
  obtain ⟨p, h, owned⟩ := once.owned pid pub named
  exact ⟨p, h, owned.imp_right (mem_append_left _)⟩

theorem abort_boughtOnce (once : wallet.BoughtOnce) (env : Surroundings)
    (pid : String) : (wallet.abort env pid).BoughtOnce := by
  obtain ⟨sameWallet, kept⟩ := wallet.abort_stored env pid
  obtain ⟨sameBroken, _, sameRecorded⟩ := wallet.abort_broken env pid
  constructor
  · exact sameRecorded ▸ once.recorded
  · intro y mem
    rw [sameRecorded] at mem
    obtain ⟨p, h⟩ := once.stored y mem
    exact kept.persists h
  intro y pub named
  rw [sameWallet] at named
  obtain ⟨p, h, owned⟩ := once.owned y pub named
  obtain ⟨q, got⟩ := kept.persists h
  rcases kept.selection got with ⟨eq, isSame, sameSelection, _⟩ | ⟨isPayment, _⟩
  · cases h.symm.trans isSame
    rw [sameBroken]
    exact ⟨q, got, sameSelection ▸ owned⟩
  · cases isPayment

theorem coin_boughtOnce (once : wallet.BoughtOnce)
    (unmarked : ∀ pid, coin.allocation.map CoinAllocation.id ≠ some (allocationId pid)) :
    (wallet.putCoin coin).BoughtOnce := by
  refine ⟨once.recorded, once.stored, ?_⟩
  rintro pid pub ⟨named, alloc, h, marked, isAllocation⟩
  dsimp only [putCoin] at h
  rw [Record.get?_set] at h
  split at h
  next =>
    cases h
    refine absurd ?_ (unmarked pid)
    rw [marked, Option.map_some, isAllocation]
  next => exact once.owned pid pub ⟨named, alloc, h, marked, isAllocation⟩

theorem step_boughtOnce (sound : wallet.CoinsSound) (once : wallet.BoughtOnce)
    (step : Guarded CoinCondition (PurchaseStep host) wallet ev next) : next.BoughtOnce := by
  obtain ⟨cond, foreign, did⟩ := step
  cases ev with
  | abortFailedPayWithRefund env pid =>
    cases did
    exact abort_boughtOnce once env pid
  | advance idx ans =>
    obtain ⟨point, isPoint, did⟩ := Option.bind_eq_some_iff.mp did
    obtain ⟨step, advanced, isNext⟩ := Option.bind_eq_some_iff.mp did
    cases isNext
    cases isTransaction : step.transaction with
    | none =>
      simp only [PurchaseWallet.step, isTransaction]
      exact goesOn_boughtOnce once
    | some transaction =>
      have isFrom := (advance_advanced advanced).transaction transaction isTransaction
      simp only [PurchaseWallet.step, isTransaction]
      split
      next => exact goesOn_boughtOnce once
      next stores' r =>
        exact stored_boughtOnce sound once cond isPoint isFrom r step.point
  | coin coin =>
    cases did
    exact coin_boughtOnce once foreign.2.2
  | _ =>
    cases did
    exact ⟨once.recorded, once.stored, once.owned⟩

/-- Proposals are bought once, with the coins that have their marks, and signed for these. -/
structure Bought (wallet : PurchaseWallet) : Prop where
  recorded : wallet.recorded.Nodup
  owned : ∀ proposalId coinPub,
    Named wallet.stores.wallet (allocationId proposalId) coinPub →
      ∃ p, wallet.stores.purchases.get? proposalId = some p ∧
        (coinPub ∈ p.payCoinSelection.coinPubs ∨ (proposalId, coinPub) ∈ wallet.broken)
  selected : ∀ proposalId p, wallet.stores.purchases.get? proposalId = some p →
    ∀ coinPub ∈ p.payCoinSelection.coinPubs,
      Named wallet.stores.wallet (allocationId proposalId) coinPub
  permitted : ∀ proposalId p depositPermissions,
    wallet.stores.purchases.get? proposalId = some p →
      p.coinDepositPermissions = some depositPermissions →
        Permitted p.payCoinSelection depositPermissions

end PurchaseWallet

/-- In runs that meet the condition a proposal is bought once, with the coins of its selection. -/
theorem proposals_bought_once {host : PayHost} {events : List PurchaseEvent}
    {wallet : PurchaseWallet}
    (run : Run (Guarded PurchaseWallet.CoinCondition (PurchaseStep host)) .start events wallet) :
    wallet.Bought := by
  obtain ⟨sound, once⟩ : wallet.CoinsSound ∧ wallet.BoughtOnce := by
    apply run.invariant fun wallet => wallet.CoinsSound ∧ wallet.BoughtOnce
    · exact ⟨PurchaseWallet.start_coinsSound, PurchaseWallet.start_boughtOnce⟩
    · intro _ _ _ ⟨sound, once⟩ step
      exact ⟨PurchaseWallet.step_coinsSound sound step.2,
        PurchaseWallet.step_boughtOnce sound once step⟩
  exact ⟨once.recorded, once.owned, sound.stores.named, sound.stores.permitted⟩

/-! ## Examples -/

section Examples

def spareCoin (coinPub : String) : CoinRecord := { exampleCoin with coinPub := coinPub }

/-- The calls have read that there is no purchase when the first one records its own. -/
def twiceEvents : List PurchaseEvent :=
  [.proposal exampleProposal, .denomination ten, .denomination (one "https://a/"),
    .coin exampleCoin, .coin (spareCoin "spare"), .confirmPay "P" none, proceeds 0, proceeds 0,
    .confirmPay "P" none, proceeds 1, proceeds 1] ++
  (confirms 0 none).drop 3 ++ (confirms 1 none).drop 3

/-- What a call does to replace a selection, before its last transaction. -/
def reselects (index : Nat) : List PurchaseEvent :=
  [.advance index (.response (.conflict "coin" true)), proceeds index,
    .advance index (.exchanges exampleSurroundings ["https://a/"] []), proceeds index]

/-- Two requests for the purchase are refused, and both calls have read the first selection. -/
def refusedEvents : List PurchaseEvent :=
  waitingEvents ++
  [.coin (spareCoin "spare"), .coin (spareCoin "third"), proceeds 0,
    .processPurchasePay "P" true, proceeds 1, proceeds 1, proceeds 1, proceeds 1,
    .advance 0 (.response (.conflict "coin" true)), proceeds 0,
    .advance 1 (.response (.conflict "coin" true)), proceeds 1] ++
  (reselects 0).drop 2 ++ [.advance 0 (.drawn exampleSurroundings "V" "H")] ++
  (reselects 1).drop 2 ++ [.advance 1 (.drawn exampleSurroundings "W" "I")]

/-- The coin has the mark of the proposal, without being selected or reported. -/
def PurchaseWallet.strays (wallet : PurchaseWallet) (proposalId coinPub : String) : Bool :=
  ((wallet.stores.wallet.coins.get? coinPub).bind CoinRecord.allocation).map CoinAllocation.id =
      some (allocationId proposalId) &&
    ((wallet.stores.purchases.get? proposalId).all fun p =>
      coinPub ∉ p.payCoinSelection.coinPubs) &&
    (proposalId, coinPub) ∉ wallet.broken

theorem PurchaseWallet.Bought.not_strays {w : PurchaseWallet} (bought : w.Bought)
    (pid pub : String) : w.strays pid pub = false := by
  apply Bool.eq_false_iff.mpr
  intro isStray
  simp only [PurchaseWallet.strays, Bool.and_eq_true, decide_eq_true_eq] at isStray
  obtain ⟨⟨marked, unselected⟩, unreported⟩ := isStray
  obtain ⟨alloc, isAlloc, isAllocation⟩ := Option.map_eq_some_iff.mp marked
  obtain ⟨coin, h, isMark⟩ := Option.bind_eq_some_iff.mp isAlloc
  obtain ⟨p, isBuy, owned⟩ := bought.owned pid pub ⟨coin, alloc, h, isMark, isAllocation⟩
  rw [isBuy] at unselected
  rcases owned with mem | told
  · exact absurd mem (of_decide_eq_true unselected)
  · exact unreported told

/-- A purchase is recorded twice, and a selection is replaced from an outdated one. -/
theorem proposal_bought_twice :
    (∃ events wallet, Run (PurchaseStep exampleHost) .start events wallet ∧
      wallet.recorded = ["P", "P"] ∧ ¬ wallet.Bought) ∧
    (∃ events wallet, Run (PurchaseStep exampleHost) .start events wallet ∧
      wallet.recorded = ["P"] ∧ ¬ wallet.Bought) := by
  constructor
  · have reaches : (twiceEvents.foldlM step? .start).map
        (fun wallet => (wallet.recorded, wallet.strays "P" "coin")) = some (["P", "P"], true) := by
      decide +kernel
    obtain ⟨wallet, isWallet, isState⟩ := Option.map_eq_some_iff.mp reaches
    obtain ⟨isRecorded, strays⟩ := Prod.mk.inj isState
    refine ⟨_, wallet, Run.ofFoldlM (fun _ _ _ => step?_step) isWallet, isRecorded, ?_⟩
    intro bought
    cases (bought.not_strays "P" "coin").symm.trans strays
  · have reaches : (refusedEvents.foldlM step? .start).map
        (fun wallet => (wallet.recorded, wallet.strays "P" "spare")) = some (["P"], true) := by
      decide +kernel
    obtain ⟨wallet, isWallet, isState⟩ := Option.map_eq_some_iff.mp reaches
    obtain ⟨isRecorded, strays⟩ := Prod.mk.inj isState
    refine ⟨_, wallet, Run.ofFoldlM (fun _ _ _ => step?_step) isWallet, isRecorded, ?_⟩
    intro bought
    cases (bought.not_strays "P" "spare").symm.trans strays

def PurchaseWallet.carefulCoins (wallet : PurchaseWallet) : PurchaseEvent → Bool
  | .advance index _ =>
    match wallet.calls[index]? with
    | some (.recordConfirmPay purchase) =>
      (wallet.stores.purchases.get? purchase.proposalId).isNone
    | some (.reselect proposalId purchase _) =>
      (wallet.stores.purchases.get? proposalId).all fun p =>
        p.payCoinSelection = purchase.payCoinSelection
    | _ => true
  | _ => true

theorem PurchaseWallet.carefulCoins_condition {w : PurchaseWallet} {event : PurchaseEvent}
    (careful : w.carefulCoins event = true) : w.CoinCondition event := by
  cases event with
  | advance idx ans =>
    intro point isPoint
    simp only [carefulCoins, isPoint] at careful
    constructor
    · rintro purchase rfl
      exact Option.isNone_iff_eq_none.mp careful
    rintro pid purchase res p rfl h
    have eq : decide (p.payCoinSelection = purchase.payCoinSelection) = true := by
      simpa only [h, Option.all_some] using careful
    exact of_decide_eq_true eq
  | _ => exact trivial

def carefulCoinStep? (wallet : PurchaseWallet) (event : PurchaseEvent) : Option PurchaseWallet :=
  if wallet.carefulCoins event then step? wallet event else none

theorem carefulCoinStep?_guarded {wallet next : PurchaseWallet} {ev : PurchaseEvent}
    (r : carefulCoinStep? wallet ev = some next) :
    Guarded PurchaseWallet.CoinCondition (PurchaseStep exampleHost) wallet ev next := by
  unfold carefulCoinStep? at r
  split at r
  next careful => exact ⟨PurchaseWallet.carefulCoins_condition careful, step?_step r⟩
  next => cases r

/-- The first coin is refused, and the payment goes on with a spare one. -/
def sparedEvents : List PurchaseEvent :=
  waitingEvents ++ [.coin (spareCoin "spare"), proceeds 0] ++ reselects 0 ++
    [.advance 0 (.drawn exampleSurroundings "V" "H")]

theorem proposal_bought_with_spare_coin : ∃ events wallet,
    Run (Guarded PurchaseWallet.CoinCondition (PurchaseStep exampleHost)) .start events wallet ∧
      wallet.recorded = ["P"] ∧ wallet.broken = [("P", "coin")] ∧
      (wallet.stores.purchases.get? "P").map (fun p => p.payCoinSelection.coinPubs) =
        some ["spare"] ∧ wallet.Bought := by
  have reaches : (sparedEvents.foldlM carefulCoinStep? .start).map
      (fun wallet => (wallet.recorded, wallet.broken,
        (wallet.stores.purchases.get? "P").map fun p => p.payCoinSelection.coinPubs)) =
      some (["P"], [("P", "coin")], some ["spare"]) := by decide +kernel
  obtain ⟨wallet, isWallet, isState⟩ := Option.map_eq_some_iff.mp reaches
  obtain ⟨isRecorded, isState⟩ := Prod.mk.inj isState
  obtain ⟨isBroken, isSelection⟩ := Prod.mk.inj isState
  have run : Run (Guarded PurchaseWallet.CoinCondition (PurchaseStep exampleHost)) .start
      sparedEvents wallet := Run.ofFoldlM (fun _ _ _ => carefulCoinStep?_guarded) isWallet
  exact ⟨_, wallet, run, isRecorded, isBroken, isSelection, proposals_bought_once run⟩

end Examples

end Anastasis.Wallet.Purchasing
