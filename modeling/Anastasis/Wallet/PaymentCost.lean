import Anastasis.Wallet.Payments
import Anastasis.Library.Traverse

/-! The announced cost of a payment, and what the payment takes from the available balance. -/

set_option autoImplicit false

namespace Anastasis.Wallet

open Library AmountJson List

variable {surroundings env : Surroundings} {wallet w wallet' w' : WalletStores}
  {currency cur allocationId refreshGroupId groupId gid : String}

/-- What the refresh of the rest of a selected coin yields, with the given denominations. -/
def leftoverYield (surroundings : Surroundings) (wallet : WalletStores)
    (denoms : CoinRecord → List DenominationRecord) (selected : String × AmountJson) : Nat :=
  match wallet.coins.get? selected.1 with
  | none => 0
  | some coin =>
    match wallet.denominations.get? (coin.exchangeBaseUrl, coin.denomPubHash) with
    | none => 0
    | some denom => refreshYield surroundings (denoms coin) denom
        (Amounts.sub denom.value selected.2).amount

def WalletStores.allDenoms (wallet : WalletStores) (_ : CoinRecord) : List DenominationRecord :=
  wallet.denominations.values

def WalletStores.ownDenoms (surroundings : Surroundings) (wallet : WalletStores)
    (coin : CoinRecord) : List DenominationRecord :=
  (wallet.denominationsOf coin.exchangeBaseUrl).filter (isWithdrawableDenom surroundings)

def Untouched (wallet : WalletStores) (coinPub : String) : Prop :=
  ∃ coin denom, wallet.coins.get? coinPub = some coin ∧
    wallet.denominations.get? (coin.exchangeBaseUrl, coin.denomPubHash) = some denom ∧
    coin.status = .fresh ∧ coin.currentAmount = denom.value

def coinValue (wallet : WalletStores) (selected : String × AmountJson) : Nat :=
  wallet.coins.weightAt (fun coin => coin.currentAmount.units) selected.1

theorem leftoverYield_eq {ds : CoinRecord → List DenominationRecord} {c : CoinRecord}
    {dn : DenominationRecord} {r : String × AmountJson} (isC : w.coins.get? r.1 = some c)
    (isDenom : w.denominations.get? (c.exchangeBaseUrl, c.denomPubHash) = some dn) :
    leftoverYield env w ds r = refreshYield env (ds c) dn (Amounts.sub dn.value r.2).amount := by
  simp only [leftoverYield, isC, isDenom]

variable {contributions parts : List (String × AmountJson)}

/-- The announced costs and the yields they assume make up the value of the coins. -/
theorem selectionCosts_units : ∀ {costs : List AmountJson},
      (∀ sel ∈ parts, Untouched w sel.1) →
      (∀ sel ∈ parts, sel.2.units ≤ coinValue w sel) →
      selectionCosts env w cur parts = some costs → (costs.map units).sum +
          (parts.map (leftoverYield env w w.allDenoms)).sum =
        (parts.map (coinValue w)).sum := by
  induction parts with
  | nil =>
    intro costs _ _ r
    cases r
    simp
  | cons sel rest ih =>
    intro costs untouched covered r
    obtain ⟨pub, contribution⟩ := sel
    obtain ⟨own, isOwn, r⟩ := Option.bind_eq_some_iff.mp r
    obtain ⟨more, isMore, r⟩ := Option.bind_eq_some_iff.mp r
    cases r
    rw [forall_mem_cons] at untouched covered
    obtain ⟨c, dn, isC, isDenom, -, full⟩ := untouched.1
    simp only [coinCosts, isC, isDenom, Option.bind_eq_bind, Option.bind_some] at isOwn
    obtain ⟨_, -, isOwn⟩ := Option.bind_eq_some_iff.mp isOwn
    obtain ⟨cost, isCost, isOwn⟩ := Option.bind_eq_some_iff.mp isOwn
    cases isOwn
    have v : coinValue w (pub, contribution) = dn.value.units := by
      rw [coinValue, Record.weightAt_some isC, full]
    have fits : (Amounts.sub dn.value contribution).amount.units < limit := by
      rw [Amounts.sub_units]
      exact Nat.lt_of_le_of_lt (Nat.sub_le _ _) dn.valueInRange
    have exact := getTotalRefreshCost_units fits isCost
    have yield : leftoverYield env w w.allDenoms (pub, contribution) =
        refreshYield env w.denominations.values dn
          (Amounts.sub dn.value contribution).amount := leftoverYield_eq isC isDenom
    have next := ih untouched.2 covered.2 isMore
    have small : contribution.units ≤ dn.value.units := by
      rw [← v]
      exact covered.1
    rw [Amounts.sub_units] at exact
    have split : (([contribution, cost] ++ more).map units).sum =
        contribution.units + cost.units + (more.map units).sum := by
      rw [map_append, sum_append, map_cons, map_cons, map_nil,
        sum_cons, sum_cons, sum_nil, Nat.add_zero]
    rw [map_cons, sum_cons, map_cons, sum_cons]
    omega

structure SameButCoins (wallet wallet' : WalletStores) : Prop where
  denominations : wallet'.denominations = wallet.denominations
  refreshGroups : wallet'.refreshGroups = wallet.refreshGroups

theorem SameButCoins.trans {wallet'' : WalletStores} (x : SameButCoins w w')
    (y : SameButCoins w' wallet'') : SameButCoins w wallet'' :=
  ⟨y.denominations.trans x.denominations, y.refreshGroups.trans x.refreshGroups⟩

theorem guard_eq_some {condition : Prop} [Decidable condition] {token : Unit}
    (passed : (guard condition : Option Unit) = some token) : condition := by
  by_contra fails
  rw [guard, if_neg fails] at passed
  cases passed

theorem spendSelectedCoin_fresh {pub : String} {contrib : AmountJson} {c : CoinRecord}
    (isC : wallet.coins.get? pub = some c) (fresh : c.status = .fresh)
    (r : spendSelectedCoin cur allocationId pub contrib wallet = some w') :
    c.currency = cur ∧ contrib.units ≤ c.currentAmount.units ∧ w' =
        { wallet with coins := wallet.coins.set pub (c.spend allocationId contrib) } := by
  simp only [spendSelectedCoin, isC, Option.bind_eq_bind, Option.bind_some, fresh, ne_eq,
    not_true_eq_false, if_false] at r
  obtain ⟨_, same, r⟩ := Option.bind_eq_some_iff.mp r
  obtain ⟨_, enough, r⟩ := Option.bind_eq_some_iff.mp r
  cases r
  refine ⟨guard_eq_some same, ?_, rfl⟩
  apply Nat.le_of_not_lt
  intro less
  have saturated := (Amounts.sub_saturated_iff _ _).mpr less
  rw [guard_eq_some enough] at saturated
  cases saturated

/-- Spending takes the coins out of the fresh ones and leaves the rest on them. -/
structure Spent (currency allocationId : String) (contributions : List (String × AmountJson))
    (wallet wallet' : WalletStores) : Prop where
  same : SameButCoins wallet wallet'
  others : ∀ coinPub ∉ contributions.map Prod.fst,
    wallet'.coins.get? coinPub = wallet.coins.get? coinPub
  coins : ∀ selected ∈ contributions, ∃ coin,
    wallet.coins.get? selected.1 = some coin ∧ coin.currency = currency ∧
    selected.2.units ≤ coin.currentAmount.units ∧
    wallet'.coins.get? selected.1 = some (coin.spend allocationId selected.2)
  total : wallet'.coins.total (CoinRecord.freshAmount currency) +
      (contributions.map (coinValue wallet)).sum =
    wallet.coins.total (CoinRecord.freshAmount currency)

theorem spendSelected_spent : ∀ {w : WalletStores}, (parts.map Prod.fst).Nodup →
      (∀ sel ∈ parts, ∃ c, w.coins.get? sel.1 = some c ∧
        c.status = .fresh) → spendSelected cur allocationId parts w = some wallet' →
      Spent cur allocationId parts w wallet' := by
  induction parts with
  | nil =>
    intro w _ _ r
    cases r
    exact ⟨⟨rfl, rfl⟩, fun _ _ => rfl, by simp, by simp⟩
  | cons sel rest ih =>
    intro w distinct fresh r
    obtain ⟨pub, contrib⟩ := sel
    rw [map_cons, nodup_cons] at distinct
    rw [forall_mem_cons] at fresh
    obtain ⟨mid, x, r⟩ := Option.bind_eq_some_iff.mp r
    obtain ⟨c, isC, isFresh⟩ := fresh.1
    obtain ⟨sameCurrency, enough, isMiddle⟩ := spendSelectedCoin_fresh isC isFresh x
    have kept : ∀ other ≠ pub, mid.coins.get? other = w.coins.get? other := by
      intro other ne
      rw [isMiddle]
      exact Record.get?_set_of_ne _ _ ne
    have apart : ∀ sel ∈ rest, sel.1 ≠ pub := by
      intro sel mem eq
      apply distinct.1
      rw [← eq]
      exact List.mem_map.mpr ⟨sel, mem, rfl⟩
    have spent := ih distinct.2 (by
      intro sel mem
      rw [kept sel.1 (apart sel mem)]
      exact fresh.2 sel mem) r
    have values : rest.map (coinValue mid) = rest.map (coinValue w) := by
      apply map_congr_left
      intro sel mem
      rw [coinValue, Record.weightAt, kept sel.1 (apart sel mem)]
      rfl
    constructor
    · exact SameButCoins.trans ⟨by rw [isMiddle], by rw [isMiddle]⟩ spent.same
    · intro other unselected
      rw [map_cons, mem_cons, not_or] at unselected
      rw [spent.others other unselected.2, kept other unselected.1]
    · rw [forall_mem_cons]
      constructor
      · refine ⟨c, isC, sameCurrency, enough, ?_⟩
        rw [spent.others pub distinct.1, isMiddle]
        exact Record.get?_set_self _ _ _
      intro sel mem
      obtain ⟨other, isO, sameCurrency, enough, after⟩ := spent.coins sel mem
      rw [kept sel.1 (apart sel mem)] at isO
      exact ⟨other, isO, sameCurrency, enough, after⟩
    · have exchanged := w.coins.total_set (CoinRecord.freshAmount cur) pub
        (c.spend allocationId contrib)
      have pre : w.coins.weightAt (CoinRecord.freshAmount cur) pub =
          coinValue w (pub, contrib) := by
        rw [coinValue, Record.weightAt_some isC, Record.weightAt_some isC]
        simp [CoinRecord.freshAmount, inCurrency, isFresh, sameCurrency]
      have after : (c.spend allocationId contrib).freshAmount cur = 0 := rfl
      have middleTotal : mid.coins.total (CoinRecord.freshAmount cur) =
          (w.coins.set pub (c.spend allocationId contrib)).total
            (CoinRecord.freshAmount cur) := by rw [isMiddle]
      have later := spent.total
      rw [values] at later
      simp only [map_cons, sum_cons]
      omega

/-- Taking dormant coins into a refresh group keeps the fresh ones. -/
structure Refreshed (surroundings : Surroundings) (currency : String) (coinPubs : List String)
    (refreshing : List RefreshingCoin) (wallet wallet' : WalletStores) : Prop where
  same : SameButCoins wallet wallet'
  total : wallet'.coins.total (CoinRecord.freshAmount currency) =
    wallet.coins.total (CoinRecord.freshAmount currency)
  outputs : List.Forall₂ (fun coinPub refreshing => ∃ coin denom,
    wallet.coins.get? coinPub = some coin ∧
    wallet.denominations.get? (coin.exchangeBaseUrl, coin.denomPubHash) = some denom ∧
    refreshing.currency = coin.currency ∧
    refreshing.output.units = refreshYield surroundings
      (wallet.ownDenoms surroundings coin) denom coin.currentAmount) coinPubs refreshing

theorem refreshCoins_refreshed {cps : List String} :
    ∀ {w : WalletStores} {busy : List RefreshingCoin}, cps.Nodup →
      (∀ pub ∈ cps, ∃ coin, w.coins.get? pub = some coin ∧ coin.status = .dormant) →
      refreshCoins surroundings cps w = some (busy, wallet') →
      Refreshed surroundings cur cps busy w wallet' := by
  induction cps with
  | nil =>
    intro w busy _ _ r
    cases r
    exact ⟨⟨rfl, rfl⟩, rfl, .nil⟩
  | cons pub rest ih =>
    intro w busy apart dormant r
    rw [nodup_cons] at apart
    rw [forall_mem_cons] at dormant
    obtain ⟨⟨x, middle⟩, isFirst, r⟩ := Option.bind_eq_some_iff.mp r
    obtain ⟨⟨more, fin⟩, isMore, r⟩ := Option.bind_eq_some_iff.mp r
    cases r
    have taken := refreshCoin_taken isFirst
    obtain ⟨coin, dn, isC, isDenom, -, sameCurrency, -, yield, isMiddle⟩ := taken.found
    obtain ⟨coin', isCoin', asleep⟩ := dormant.1
    rw [isC] at isCoin'
    cases isCoin'
    have kept : ∀ other ∈ rest, middle.coins.get? other = w.coins.get? other := by
      intro other mem
      rw [isMiddle]
      apply Record.get?_set_of_ne
      intro eq
      exact apart.1 (eq ▸ mem)
    have refreshed := ih apart.2 (by
      intro other mem
      rw [kept other mem]
      exact dormant.2 other mem) isMore
    have unchanged : SameButCoins w middle := ⟨by rw [isMiddle], by rw [isMiddle]⟩
    constructor
    · exact unchanged.trans refreshed.same
    · have exchanged := w.coins.total_set (CoinRecord.freshAmount cur) pub coin.putToSleep
      rw [Record.weightAt_some isC] at exchanged
      have pre : coin.freshAmount cur = 0 := by
        rw [CoinRecord.freshAmount, asleep]
        rfl
      have after : coin.putToSleep.freshAmount cur = 0 := rfl
      have middleTotal : middle.coins.total (CoinRecord.freshAmount cur) =
          (w.coins.set pub coin.putToSleep).total (CoinRecord.freshAmount cur) := by rw [isMiddle]
      rw [refreshed.total]
      omega
    · constructor
      · refine ⟨coin, dn, isC, isDenom, sameCurrency, ?_⟩
        rw [RefreshingCoin.output, taken.unstarted]
        exact yield
      have own : ∀ coin, middle.ownDenoms surroundings coin = w.ownDenoms surroundings coin := by
        intro coin
        rw [WalletStores.ownDenoms, WalletStores.denominationsOf, unchanged.denominations]
        rfl
      apply Library.forall₂_imp_of_mem refreshed.outputs
      rintro other mem busy - ⟨coin, dn, isC, isDenom, sameCurrency, yield⟩
      rw [kept other mem] at isC
      rw [unchanged.denominations] at isDenom
      rw [own] at yield
      exact ⟨coin, dn, isC, isDenom, sameCurrency, yield⟩

theorem contributions_coinPubs {coinPubs : List String} : ∀ {amounts : List AmountJson}
    {parts : List (String × AmountJson)},
    PayCoinSelection.contributions coinPubs amounts = some parts →
      parts.map Prod.fst = coinPubs := by
  induction coinPubs with
  | nil =>
    intro amounts parts r
    cases r
    rfl
  | cons pub rest ih =>
    intro amounts parts r
    cases amounts with
    | nil => cases r
    | cons amount more =>
      obtain ⟨tail, isTail, r⟩ := Option.bind_eq_some_iff.mp r
      cases r
      rw [map_cons, ih isTail]

theorem refreshed_expected {cps : List String} {refreshing : List RefreshingCoin}
    {wallet₁ wallet₂ : WalletStores} (pubs : contributions.map Prod.fst = cps)
    (untouched : ∀ r ∈ contributions, Untouched w r.1)
    (spent : Spent cur allocationId contributions w wallet₁)
    (refreshed : Refreshed surroundings cur cps refreshing wallet₁ wallet₂) :
    (refreshing.map (RefreshingCoin.expected cur)).sum = (contributions.map
        (leftoverYield surroundings w (w.ownDenoms surroundings))).sum := by
  have own : ∀ coin, wallet₁.ownDenoms surroundings coin = w.ownDenoms surroundings coin := by
    intro coin
    rw [WalletStores.ownDenoms, WalletStores.denominationsOf, spent.same.denominations]
    rfl
  subst pubs
  have outputs := List.forall₂_map_left_iff.mp refreshed.outputs
  have each : List.Forall₂ (fun r refreshing => RefreshingCoin.expected cur refreshing =
      leftoverYield surroundings w (w.ownDenoms surroundings) r) contributions refreshing := by
    apply Library.forall₂_imp_of_mem outputs
    rintro ⟨pub, contribution⟩ mem refreshing - ⟨coin₁, dn, isCoin₁, isDenom, currency₁, yield⟩
    obtain ⟨coin, isC, sameCurrency, -, after⟩ := spent.coins _ mem
    obtain ⟨coin', denom', isCoin', isDenom', -, full⟩ := untouched _ mem
    rw [after] at isCoin₁
    cases isCoin₁
    rw [isC] at isCoin'
    cases isCoin'
    rw [spent.same.denominations] at isDenom
    rw [show (coin.spend allocationId contribution).exchangeBaseUrl = coin.exchangeBaseUrl from rfl,
      show (coin.spend allocationId contribution).denomPubHash = coin.denomPubHash from rfl,
      isDenom'] at isDenom
    cases isDenom
    have left : (coin.spend allocationId contribution).currentAmount =
        (Amounts.sub dn.value contribution).amount := by
      rw [← full]
      rfl
    rw [leftoverYield_eq isC isDenom', RefreshingCoin.expected, inCurrency,
      if_pos (currency₁.trans sameCurrency), yield, left, own]
    rfl
  clear outputs refreshed untouched spent
  induction each with
  | nil => rfl
  | cons eq _ ih => rw [map_cons, map_cons, sum_cons, sum_cons, eq, ih]

theorem refreshYield_le {ds : List DenominationRecord} {dn : DenominationRecord}
    {amountLeft : AmountJson} (fits : amountLeft.units < limit) :
    refreshYield env ds dn amountLeft ≤ amountLeft.units := by
  unfold refreshYield
  split
  · next sel r =>
    have less : (Amounts.sub amountLeft dn.feeRefresh).amount.units ≤ amountLeft.units := by
      rw [Amounts.sub_units]
      exact Nat.sub_le _ _
    exact (selectWithdrawalDenominations_worth (Nat.lt_of_le_of_lt less fits) r).2.trans less
  · exact Nat.zero_le _

theorem leftoverYield_le {ds : CoinRecord → List DenominationRecord}
    {r : String × AmountJson} (untouched : Untouched wallet r.1) :
    leftoverYield env wallet ds r ≤ coinValue wallet r := by
  obtain ⟨c, dn, isC, isDenom, -, full⟩ := untouched
  rw [leftoverYield_eq isC isDenom, coinValue, Record.weightAt_some isC, full]
  have less : (Amounts.sub dn.value r.2).amount.units ≤ dn.value.units := by
    rw [Amounts.sub_units]
    exact Nat.sub_le _ _
  exact (refreshYield_le (Nat.lt_of_le_of_lt less dn.valueInRange)).trans less

/-- Spending a selection of untouched coins exchanges their value for what their rests yield. -/
theorem applyCoinSpend_counted {coinSelection : PayCoinSelection}
    (newGroup : wallet.refreshGroups.get? gid = none)
    (sel : PayCoinSelection.contributions coinSelection.coinPubs
      coinSelection.coinContributions = some parts)
    (apart : coinSelection.coinPubs.Nodup)
    (untouched : ∀ sel ∈ parts, Untouched wallet sel.1)
    (r : applyCoinSpend env cur allocationId gid coinSelection wallet
      = some w') :
    countedAvailable w' cur + (parts.map (coinValue wallet)).sum =
        countedAvailable wallet cur + (parts.map
          (leftoverYield env wallet (wallet.ownDenoms env))).sum ∧
      (parts.map (coinValue wallet)).sum ≤ countedAvailable wallet cur ∧
      ∀ sel ∈ parts, sel.2.units ≤ coinValue wallet sel := by
  have pubs := contributions_coinPubs sel
  simp only [applyCoinSpend, sel, Option.bind_eq_bind, Option.bind_some] at r
  obtain ⟨wallet₁, isWallet₁, r⟩ := Option.bind_eq_some_iff.mp r
  obtain ⟨⟨busy, wallet₂⟩, isWallet₂, r⟩ := Option.bind_eq_some_iff.mp r
  cases r
  have spent := spendSelected_spent (pubs ▸ apart) (by
    intro sel mem
    obtain ⟨c, -, isC, -, fresh, -⟩ := untouched sel mem
    exact ⟨c, isC, fresh⟩) isWallet₁
  have refreshed : Refreshed env cur coinSelection.coinPubs busy wallet₁
      wallet₂ := by
    apply refreshCoins_refreshed apart ?_ isWallet₂
    intro pub mem
    rw [← pubs] at mem
    obtain ⟨sel, isSelected, rfl⟩ := List.mem_map.mp mem
    obtain ⟨c, -, -, -, after⟩ := spent.coins sel isSelected
    exact ⟨_, after, rfl⟩
  have outputs := refreshed_expected pubs untouched spent refreshed
  have group := wallet₂.refreshGroups.total_set (RefreshGroupRecord.counted cur)
    gid
    { coins := busy
      timestampFinished :=
        if coinSelection.coinPubs.isEmpty then some env.now else none
      frozen := false }
  have absent : wallet₂.refreshGroups.get? gid = none := by
    rw [refreshed.same.refreshGroups, spent.same.refreshGroups]
    exact newGroup
  rw [Record.weightAt_none absent, refreshed.same.refreshGroups, spent.same.refreshGroups]
    at group
  have cnt : RefreshGroupRecord.counted cur
      { coins := busy
        timestampFinished :=
          if coinSelection.coinPubs.isEmpty then some env.now else none
        frozen := false } =
      (busy.map (RefreshingCoin.expected cur)).sum := by
    cases empty : coinSelection.coinPubs with
    | nil =>
      have outputs := refreshed.outputs
      rw [empty] at outputs
      cases outputs
      rfl
    | cons pub rest => rfl
  have coins := spent.total
  have total := refreshed.total
  refine ⟨?_, ?_, ?_⟩
  · unfold countedAvailable
    dsimp only
    rw [refreshed.same.refreshGroups, spent.same.refreshGroups]
    omega
  · unfold countedAvailable
    omega
  · intro sel mem
    obtain ⟨c, isC, -, enough, -⟩ := spent.coins sel mem
    rw [coinValue, Record.weightAt_some isC]
    exact enough

/-- The announced cost is the drop of the available balance exactly if the denominations of all
exchanges yield as much for the rests of the coins as those of the coins' own exchanges. -/
theorem payment_cost_iff {coinSelection : PayCoinSelection}
    {contributions : List (String × AmountJson)} {totalPayCost : AmountJson}
    (newGroup : wallet.refreshGroups.get? refreshGroupId = none)
    (selected : PayCoinSelection.contributions coinSelection.coinPubs
      coinSelection.coinContributions = some contributions)
    (distinct : coinSelection.coinPubs.Nodup)
    (untouched : ∀ selected ∈ contributions, Untouched wallet selected.1)
    (inRange : countedAvailable wallet currency < limit)
    (announced : getTotalPaymentCost surroundings wallet currency coinSelection = some totalPayCost)
    (applied : applyCoinSpend surroundings currency allocationId refreshGroupId coinSelection
      wallet = some wallet') :
    (totalPayCost.units + available wallet' currency = available wallet currency ↔
      (contributions.map (leftoverYield surroundings wallet wallet.allDenoms)).sum =
        (contributions.map
          (leftoverYield surroundings wallet (wallet.ownDenoms surroundings))).sum) ∧
    ((∀ coinPub ∈ coinSelection.coinPubs, ∀ coin, wallet.coins.get? coinPub = some coin →
        ∀ d ∈ wallet.denominations.values, isWithdrawableDenom surroundings d →
          d.exchangeBaseUrl = coin.exchangeBaseUrl) →
      totalPayCost.units + available wallet' currency = available wallet currency) := by
  obtain ⟨moved, within, covered⟩ :=
    applyCoinSpend_counted newGroup selected distinct untouched applied
  simp only [getTotalPaymentCost, selected, Option.bind_eq_bind, Option.bind_some] at announced
  obtain ⟨costs, isCosts, announced⟩ := Option.bind_eq_some_iff.mp announced
  cases announced
  have made := selectionCosts_units untouched covered isCosts
  have total := (@Amounts.add_units Amounts.getZero costs (by
    rw [Amounts.getZero_units]
    omega)).2
  rw [Amounts.getZero_units] at total
  have yields : (contributions.map
      (leftoverYield surroundings wallet (wallet.ownDenoms surroundings))).sum ≤
        (contributions.map (coinValue wallet)).sum :=
    sum_le_sum fun selected member => leftoverYield_le (untouched selected member)
  have before : available wallet currency = countedAvailable wallet currency :=
    (balances_units wallet currency).1.trans (Nat.min_eq_left (by omega))
  have after : available wallet' currency = countedAvailable wallet' currency :=
    (balances_units wallet' currency).1.trans (Nat.min_eq_left (by omega))
  have drop : (Amounts.add Amounts.getZero costs).amount.units + available wallet' currency =
        available wallet currency ↔
      (contributions.map (leftoverYield surroundings wallet wallet.allDenoms)).sum =
        (contributions.map
          (leftoverYield surroundings wallet (wallet.ownDenoms surroundings))).sum := by
    omega
  refine ⟨drop, fun same => drop.mpr ?_⟩
  apply congrArg List.sum
  apply map_congr_left
  intro chosen member
  obtain ⟨coin, denom, isCoin, isDenom, -, -⟩ := untouched chosen member
  have isSelected : chosen.1 ∈ coinSelection.coinPubs := by
    rw [← contributions_coinPubs selected]
    exact List.mem_map.mpr ⟨chosen, member, rfl⟩
  rw [leftoverYield_eq isCoin isDenom, leftoverYield_eq isCoin isDenom]
  have denoms : wallet.denominations.values.filter (isWithdrawableDenom surroundings) =
      (wallet.ownDenoms surroundings coin).filter (isWithdrawableDenom surroundings) := by
    rw [WalletStores.ownDenoms, WalletStores.denominationsOf, List.filter_filter,
      List.filter_filter]
    apply filter_congr
    intro d isDenomination
    by_cases withdrawable : isWithdrawableDenom surroundings d
    · simp [withdrawable, same chosen.1 isSelected coin isCoin d isDenomination withdrawable]
    · simp [withdrawable]
  unfold refreshYield selectWithdrawalDenominations WalletStores.allDenoms
  rw [denoms]

section Examples

def exampleSurroundings : Surroundings := ⟨1000, false⟩

def exampleDenomination (exchangeBaseUrl denomPubHash : String) (value : Nat)
    (small : value ≤ amountMaxValue) : DenominationRecord where
  exchangeBaseUrl := exchangeBaseUrl
  denomPubHash := denomPubHash
  currency := "KUDOS"
  value := .ofValue value
  feeWithdraw := Amounts.getZero
  feeRefresh := Amounts.getZero
  feeRefund := Amounts.getZero
  stampStart := .at 0
  stampExpireWithdraw := .never
  isOffered := true
  isRevoked := false
  verificationStatus := .unverified
  valueInRange := ofValue_inRange small

def exampleCoin : CoinRecord where
  coinPub := "coin"
  exchangeBaseUrl := "https://a/"
  denomPubHash := "ten"
  currency := "KUDOS"
  currentAmount := .ofValue 10
  status := .fresh
  suspended := false
  allocation := none
  amountInRange := ofValue_inRange (by decide)

def exampleWallet (denominations : List DenominationRecord) : WalletStores where
  coins := .ofList [("coin", exampleCoin)]
  denominations :=
    .ofList (denominations.map fun d => ((d.exchangeBaseUrl, d.denomPubHash), d))
  refreshGroups := .empty
  withdrawalGroups := .empty
  planchets := .empty
  reserves := .empty

def ten : DenominationRecord := exampleDenomination "https://a/" "ten" 10 (by decide)

def one (exchangeBaseUrl : String) : DenominationRecord :=
  exampleDenomination exchangeBaseUrl "one" 1 (by decide)

def exampleSelection : PayCoinSelection where
  paymentAmount := .ofValue 3
  coinPubs := ["coin"]
  coinContributions := [.ofValue 3]
  customerWireFees := Amounts.getZero
  customerDepositFees := Amounts.getZero

theorem payment_cost_one_exchange : ∃ totalPayCost wallet',
    getTotalPaymentCost exampleSurroundings (exampleWallet [ten, one "https://a/"]) "KUDOS"
        exampleSelection = some totalPayCost ∧
      applyCoinSpend exampleSurroundings "KUDOS" "proposal:a" "group" exampleSelection
        (exampleWallet [ten, one "https://a/"]) = some wallet' ∧
      totalPayCost.units + available wallet' "KUDOS" =
        available (exampleWallet [ten, one "https://a/"]) "KUDOS" := by
  have applies : (applyCoinSpend exampleSurroundings "KUDOS" "proposal:a" "group" exampleSelection
      (exampleWallet [ten, one "https://a/"])).isSome := by decide +kernel
  obtain ⟨wallet', applied⟩ := Option.isSome_iff_exists.mp applies
  have announced : getTotalPaymentCost exampleSurroundings (exampleWallet [ten, one "https://a/"])
      "KUDOS" exampleSelection = some (.ofValue 3) := by decide +kernel
  refine ⟨_, _, announced, applied, ?_⟩
  have untouched : ∀ selected ∈ [("coin", AmountJson.ofValue 3)],
      Untouched (exampleWallet [ten, one "https://a/"]) selected.1 := by
    intro selected member
    rw [mem_singleton.mp member]
    exact ⟨exampleCoin, ten, rfl, rfl, rfl, rfl⟩
  apply (payment_cost_iff (by decide) rfl (by decide) untouched (by decide +kernel) announced
    applied).1.mpr
  decide +kernel

/-- The denominations of another exchange make the announced cost too low. -/
theorem announced_cost_too_low : ∃ totalPayCost wallet',
    (exampleWallet [ten, one "https://b/"]).refreshGroups.get? "group" = none ∧
      Untouched (exampleWallet [ten, one "https://b/"]) "coin" ∧
      getTotalPaymentCost exampleSurroundings (exampleWallet [ten, one "https://b/"]) "KUDOS"
        exampleSelection = some totalPayCost ∧
      applyCoinSpend exampleSurroundings "KUDOS" "proposal:a" "group" exampleSelection
        (exampleWallet [ten, one "https://b/"]) = some wallet' ∧
      totalPayCost.units + available wallet' "KUDOS" ≠
        available (exampleWallet [ten, one "https://b/"]) "KUDOS" := by
  have drops : (applyCoinSpend exampleSurroundings "KUDOS" "proposal:a" "group" exampleSelection
      (exampleWallet [ten, one "https://b/"])).map (available · "KUDOS") = some 0 := by
    decide +kernel
  obtain ⟨wallet', applied, left⟩ := Option.map_eq_some_iff.mp drops
  refine ⟨.ofValue 3, wallet', rfl, ⟨exampleCoin, ten, rfl, rfl, rfl, rfl⟩, by decide +kernel,
    applied, ?_⟩
  rw [left]
  decide +kernel

end Examples

end Anastasis.Wallet
