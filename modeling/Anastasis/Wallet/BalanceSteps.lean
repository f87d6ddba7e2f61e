import Anastasis.Wallet.BalanceRuns
import Anastasis.Wallet.PaymentCost

/-! What each transaction does to the refresh groups and the planchets. -/

set_option autoImplicit false

namespace Anastasis.Wallet

open Library AmountJson List Option

variable {wallet w wallet' w' : WalletStores}

def NewGroup (rg : RefreshGroupRecord) : Prop :=
  (∀ refreshing ∈ rg.coins, refreshing.status = .pending ∧ refreshing.refreshSession = none) ∧
    (rg.timestampFinished.isSome → rg.coins = [])

variable {rg : RefreshGroupRecord}

theorem NewGroup.sound (new : NewGroup rg) : GroupSound wallet rg := by
  constructor
  · intro busy mem ses st
    rw [(new.1 busy mem).2] at st
    cases st
  intro closed busy mem
  rw [new.2 closed] at mem
  cases mem

theorem NewGroup.nothingTwice (new : NewGroup rg) : NothingTwice rg := by
  intro _ busy mem ended
  rw [(new.1 busy mem).1] at ended
  cases ended

/-- What a transaction does to the groups and planchets, and what it keeps. -/
structure Effects (careful : Prop) (wallet wallet' : WalletStores) : Prop where
  keeps : Keeps wallet wallet'
  keyed : Keyed wallet'
  groups : ∀ refreshGroupId rg', wallet'.refreshGroups.get? refreshGroupId = some rg' →
    wallet.refreshGroups.get? refreshGroupId = some rg' ∨ NewGroup rg' ∨
      ∃ rg, wallet.refreshGroups.get? refreshGroupId = some rg ∧ GroupStep wallet careful rg rg'
  planchets : ∀ coinPub p', wallet'.planchets.get? coinPub = some p' → p'.withdrawalDone →
    wallet.planchets.get? coinPub = some p' ∨ (careful → p'.coinValue.units = 0)

theorem Effects.ofGroups {careful : Prop} (keyed : Keyed w)
    (cs : wallet'.coins = w.coins) (ds : wallet'.denominations =
      w.denominations) (planchets : wallet'.planchets = w.planchets)
    (groups : ∀ gid rg', wallet'.refreshGroups.get? gid = some rg' →
      w.refreshGroups.get? gid = some rg' ∨ NewGroup rg' ∨
        ∃ rg, w.refreshGroups.get? gid = some rg ∧
          GroupStep w careful rg rg') : Effects careful w wallet' := by
  refine ⟨.same cs ds, ?_, groups, ?_⟩
  · rw [Keyed, ds]
    exact keyed
  · rw [planchets]
    exact fun _ _ h _ => .inl h

theorem Effects.none {careful : Prop} (keyed : Keyed w) : Effects careful w w :=
  .ofGroups keyed rfl rfl rfl fun _ _ h => .inl h

variable {refreshGroupId groupId gid : String}

theorem refreshing_found {idx : Nat} {refreshing : RefreshingCoin}
    (h : w.refreshing gid idx = some (rg, refreshing)) :
    w.refreshGroups.get? gid = some rg ∧ rg.coins[idx]? = some refreshing := by
  obtain ⟨group, isGroup, h⟩ := bind_eq_some_iff.mp h
  obtain ⟨c, isC, h⟩ := bind_eq_some_iff.mp h
  cases h
  exact ⟨isGroup, isC⟩

theorem Effects.putGroup {careful : Prop} {rg' : RefreshGroupRecord} (keyed : Keyed w)
    (h : w.refreshGroups.get? gid = some rg) (step : GroupStep w careful rg rg') :
    Effects careful w (w.putGroup gid rg') := by
  refine Effects.ofGroups keyed ?_ ?_ ?_ ?_
  · rfl
  · rfl
  · rfl
  intro y changed isChanged
  rw [WalletStores.putGroup, Record.get?_set] at isChanged
  split at isChanged
  · next eq =>
    subst eq
    cases isChanged
    exact .inr (.inr ⟨rg, h, step⟩)
  · exact .inl isChanged

variable {surroundings env : Surroundings}

theorem refreshCoins_effects {cps : List String} :
    ∀ {w : WalletStores} {coins : List RefreshingCoin}, refreshCoins env cps w = some (coins, w') →
      (∀ busy ∈ coins, busy.status = .pending ∧ busy.refreshSession = none) ∧
        coins.length = cps.length ∧ Keeps w w' ∧ w'.denominations = w.denominations ∧
        w'.refreshGroups = w.refreshGroups ∧ w'.planchets = w.planchets := by
  induction cps with
  | nil =>
    intro w coins r
    cases r
    exact ⟨by simp, rfl, .refl _, rfl, rfl, rfl⟩
  | cons pub rest ih =>
    intro w coins r
    obtain ⟨⟨x, mid⟩, isFirst, r⟩ := bind_eq_some_iff.mp r
    obtain ⟨⟨more, fin⟩, isMore, r⟩ := bind_eq_some_iff.mp r
    cases r
    have taken := refreshCoin_taken isFirst
    obtain ⟨c, dn, isC, -, -, -, -, -, rfl⟩ := taken.found
    obtain ⟨due, length, keeps, ds, groups, planchets⟩ := ih isMore
    have keepsFirst : Keeps w { w with coins := w.coins.set pub c.putToSleep } := by
      refine Keeps.setCoin ?_ rfl rfl
      intro old isOld
      rw [isC] at isOld
      cases isOld
      rfl
    refine ⟨?_, by simp [length], keepsFirst.trans keeps, ds, groups, planchets⟩
    rw [forall_mem_cons]
    exact ⟨⟨taken.pending, taken.unstarted⟩, due⟩

theorem createRefreshGroup_effects {careful : Prop} {oldCoinPubs : List String} (keyed : Keyed w)
    (r : createRefreshGroup env gid oldCoinPubs w = some wallet') : Effects careful w wallet' := by
  obtain ⟨⟨cs, mid⟩, isMiddle, r⟩ := bind_eq_some_iff.mp r
  cases r
  obtain ⟨due, length, keeps, ds, groups, planchets⟩ := refreshCoins_effects isMiddle
  constructor
  · exact keeps.trans (.same rfl rfl)
  · intro key d h
    exact keyed key d (ds ▸ h)
  · intro y rg' h
    dsimp only at h
    rw [Record.get?_set, groups] at h
    split at h
    · cases h
      refine .inr (.inl ⟨due, ?_⟩)
      intro closed
      cases oldCoinPubs with
      | nil => exact eq_nil_of_length_eq_zero length
      | cons _ _ => cases closed
    · exact .inl h
  · intro pub p' h _
    exact .inl (planchets ▸ h)

def EnoughForACoin (surroundings : Surroundings) (wallet : WalletStores)
    (refreshing : RefreshingCoin) : Prop :=
  ∃ coin oldDenom selection, wallet.coins.get? refreshing.oldCoinPub = some coin ∧
    wallet.denominations.get? (coin.exchangeBaseUrl, coin.denomPubHash) = some oldDenom ∧
    selectWithdrawalDenominations surroundings refreshing.currency
      (Amounts.sub refreshing.input oldDenom.feeRefresh).amount
      (wallet.denominationsOf coin.exchangeBaseUrl) = some selection ∧
    selection.selectedDenoms ≠ []

/-- The steps that do not count anything twice: a coin is finished when all others of its group
are, or when nothing is counted for it, and no coin of any value is withdrawn. -/
def Careful (wallet : WalletStores) (event : BalanceEvent) : Prop :=
  match event with
  | .createSession surroundings refreshGroupId coinIndex =>
    ∀ rg refreshing, wallet.refreshing refreshGroupId coinIndex = some (rg, refreshing) →
      LastOrWorthless rg coinIndex refreshing ∨ EnoughForACoin surroundings wallet refreshing
  | .reveal _ _ refreshGroupId coinIndex =>
    ∀ rg refreshing, wallet.refreshing refreshGroupId coinIndex = some (rg, refreshing) →
      LastOrWorthless rg coinIndex refreshing
  | .storeCoin planchetCoinPub =>
    ∀ p, wallet.planchets.get? planchetCoinPub = some p → p.coinValue.units = 0
  | _ => True

theorem freezeCoin_effects {careful : Prop} {now : Nat} {idx : Nat} (keyed : Keyed w)
    (r : freezeCoin now gid idx w = some wallet') : Effects careful w wallet' := by
  obtain ⟨⟨rg, busy⟩, h, r⟩ := bind_eq_some_iff.mp r
  obtain ⟨isGroup, isC⟩ := refreshing_found h
  dsimp only at r
  split at r
  · cases r
    exact .none keyed
  rename_i goes
  cases r
  simp only [Bool.or_eq_true, decide_eq_true_eq, not_or, not_not] at goes
  exact .putGroup keyed isGroup (.frozen isC goes.2)

theorem storeNorevealIndex_effects {careful : Prop} {norevealIndex : Nat} {idx : Nat}
    (keyed : Keyed w) (r : storeNorevealIndex norevealIndex gid idx w = some wallet') :
    Effects careful w wallet' := by
  obtain ⟨⟨rg, busy⟩, h, r⟩ := bind_eq_some_iff.mp r
  obtain ⟨isGroup, isC⟩ := refreshing_found h
  dsimp only at r
  cases st : busy.refreshSession with
  | none =>
    rw [st] at r
    cases r
    exact .none keyed
  | some rs =>
    rw [st] at r
    dsimp only at r
    split at r
    · cases r
      exact .none keyed
    · cases r
      exact .putGroup keyed isGroup (.melted isC st)

theorem refreshCreateSession_effects {idx : Nat} (keyed : Keyed w)
    (r : refreshCreateSession env gid idx w = some wallet') :
    Effects (Careful w (.createSession env gid idx)) w
      wallet' := by
  obtain ⟨⟨rg, busy⟩, h, r⟩ := bind_eq_some_iff.mp r
  obtain ⟨isGroup, isC⟩ := refreshing_found h
  dsimp only at r
  split at r
  · cases r
    exact .none keyed
  rename_i goes
  simp only [Bool.or_eq_true, decide_eq_true_eq, not_or] at goes
  obtain ⟨c, isOld, r⟩ := bind_eq_some_iff.mp r
  obtain ⟨oldDenom, isDenom, r⟩ := bind_eq_some_iff.mp r
  obtain ⟨_, -, r⟩ := bind_eq_some_iff.mp r
  obtain ⟨sel, selected, r⟩ := bind_eq_some_iff.mp r
  split at r
  · next tooSmall =>
    cases r
    apply Effects.putGroup keyed isGroup (.finished isC goes.1 ?_)
    intro isCareful
    cases isCareful rg busy h with
    | inl last => exact last
    | inr enough =>
      obtain ⟨coin', oldDenom', selection', isOld', isDenom', selected', some⟩ := enough
      rw [isOld] at isOld'
      cases isOld'
      rw [isDenom] at isDenom'
      cases isDenom'
      rw [selected] at selected'
      cases selected'
      exact absurd (List.isEmpty_iff.mp tooSmall) some
  · cases r
    have less : (Amounts.sub busy.input oldDenom.feeRefresh).amount.units < limit := by
      rw [Amounts.sub_units]
      exact Nat.lt_of_le_of_lt (Nat.sub_le _ _) busy.inputInRange
    exact .putGroup keyed isGroup (.session isC goes.1 (newSession_sound keyed isOld less selected))

section Reveal

variable {url : String} {coinPubs cps : Nat → String}

theorem putCoins_get {coinPub : String} (ds : List DenominationRecord) :
    ∀ {idx : Nat} {cs : Record String CoinRecord}, (∀ n ≥ idx, cps n ≠ coinPub) →
      (putCoins url cps idx ds cs).get? coinPub = cs.get? coinPub := by
  induction ds with
  | nil => exact fun _ => rfl
  | cons dn rest ih =>
    intro idx cs apart
    rw [putCoins, ih fun n later => apart n (by omega)]
    exact Record.get?_set_of_ne _ _ (Ne.symm (apart idx (Nat.le_refl _)))

theorem putCoins_total (cur : String) (ds : List DenominationRecord)
    (apart : Function.Injective cps) : ∀ {idx : Nat} {cs : Record String CoinRecord},
      (∀ n ≥ idx, cs.get? (cps n) = none) → (putCoins url cps idx ds cs).total
          (CoinRecord.freshAmount cur) = cs.total (CoinRecord.freshAmount cur) +
          (ds.map fun d => inCurrency cur d.currency d.value).sum := by
  induction ds with
  | nil => exact fun _ => rfl
  | cons dn rest ih =>
    intro idx cs gone
    have later : ∀ n ≥ idx + 1, (cs.set (cps idx)
        (newCoin url (cps idx) dn)).get? (cps n) = none := by
      intro n isLater
      rw [Record.get?_set_of_ne]
      · exact gone n (by omega)
      intro eq
      have := apart eq
      omega
    have added := cs.total_set (CoinRecord.freshAmount cur) (cps idx) (newCoin url (cps idx) dn)
    rw [Record.weightAt_none (gone idx (Nat.le_refl _)), Nat.add_zero] at added
    have worth : (newCoin url (cps idx) dn).freshAmount cur =
        inCurrency cur dn.currency dn.value := rfl
    rw [putCoins, ih later, added, worth, map_cons, sum_cons, Nat.add_assoc]

theorem revealedDenoms_sum {cur : String} {busy : RefreshingCoin}
    {ses : RefreshSessionRecord} {old : CoinRecord} (has : ∀ hash ∈ coinHashes ses.newDenoms, ∃ d,
      w.denominations.get? (old.exchangeBaseUrl, hash) = some d ∧ d.currency = busy.currency)
    (worth : ((coinHashes ses.newDenoms).map (knownValue w old.exchangeBaseUrl)).sum =
      ses.amountRefreshOutput.units) : ((revealedDenoms w old.exchangeBaseUrl ses.newDenoms).map
      fun d => inCurrency cur d.currency d.value).sum =
        inCurrency cur busy.currency ses.amountRefreshOutput := by
  have general : ∀ hashes : List String, (∀ hash ∈ hashes, ∃ d,
        w.denominations.get? (old.exchangeBaseUrl, hash) = some d ∧
          d.currency = busy.currency) → ((hashes.filterMap fun hash =>
        w.denominations.get? (old.exchangeBaseUrl, hash)).map
          fun d => inCurrency cur d.currency d.value).sum =
        if busy.currency = cur then
          (hashes.map (knownValue w old.exchangeBaseUrl)).sum else 0 := by
    intro hashes
    induction hashes with
    | nil =>
      intro _
      simp
    | cons hash rest ih =>
      intro has
      rw [forall_mem_cons] at has
      obtain ⟨⟨d, isDenom, same⟩, has⟩ := has
      have v : knownValue w old.exchangeBaseUrl hash = d.value.units := Record.weightAt_some isDenom
      simp only [filterMap_cons, isDenom]
      rw [map_cons, sum_cons, ih has, map_cons, sum_cons, v, inCurrency, same]
      split
      · rfl
      · rfl
  rw [inCurrency, ← worth]
  exact general _ has

structure Revealed (now : Nat) (coinPubs : Nat → String) (refreshGroupId : String)
    (coinIndex : Nat) (wallet wallet' : WalletStores) (rg : RefreshGroupRecord)
    (refreshing : RefreshingCoin) (session : RefreshSessionRecord) (old : CoinRecord) : Prop where
  group : wallet.refreshGroups.get? refreshGroupId = some rg
  coin : rg.coins[coinIndex]? = some refreshing
  started : refreshing.refreshSession = some session
  oldCoin : wallet.coins.get? refreshing.oldCoinPub = some old
  after : wallet' =
    { wallet with
      coins := putCoins old.exchangeBaseUrl coinPubs 0
        (revealedDenoms wallet old.exchangeBaseUrl session.newDenoms) wallet.coins
      refreshGroups := wallet.refreshGroups.set refreshGroupId
        ((rg.setStatus coinIndex .finished).updateGroupStatus now) }

theorem refreshReveal_revealed {now : Nat} {gid : String} {idx : Nat}
    (r : refreshReveal now cps gid idx w = some wallet') :
    ∃ rg refreshing session old, w.refreshing gid idx = some (rg, refreshing) ∧
      Revealed now cps gid idx w wallet' rg refreshing session old := by
  obtain ⟨⟨rg, refreshing⟩, h, r⟩ := bind_eq_some_iff.mp r
  obtain ⟨session, st, r⟩ := bind_eq_some_iff.mp r
  obtain ⟨old, isOld, r⟩ := bind_eq_some_iff.mp r
  cases r
  obtain ⟨isGroup, isC⟩ := refreshing_found h
  exact ⟨rg, refreshing, session, old, h, isGroup, isC, st, isOld, rfl⟩

theorem refreshReveal_effects {now : Nat} {gid : String} {idx : Nat}
    {rg : RefreshGroupRecord} {busy : RefreshingCoin} {ses : RefreshSessionRecord}
    {old : CoinRecord} (keyed : Keyed w) (h : w.refreshing gid idx = some (rg, busy))
    (todo : busy.status ≠ .finished) (gone : ∀ index, w.coins.get? (cps index) = none)
    (revealed : Revealed now cps gid idx w wallet' rg busy ses old) :
    Effects (Careful w (.reveal now cps gid idx)) w wallet' := by
  rw [revealed.after]
  constructor
  · constructor
    · intro pub c isC
      refine ⟨c, ?_, rfl⟩
      dsimp only
      rw [putCoins_get]
      · exact isC
      intro n _ eq
      rw [← eq, gone n] at isC
      cases isC
    · exact fun key d isDenom => ⟨d, isDenom, rfl, rfl⟩
  · exact keyed
  · intro y changed isChanged
    dsimp only at isChanged
    rw [Record.get?_set] at isChanged
    split at isChanged
    · next eq =>
      subst eq
      cases isChanged
      exact .inr (.inr ⟨rg, revealed.group, .finished revealed.coin todo
        fun isCareful => isCareful rg busy h⟩)
    · exact .inl isChanged
  · exact fun pub p' isPlan _ => .inl isPlan

end Reveal

theorem storeWithdrawnCoin_effects {planchetCoinPub : String} (keyed : Keyed w)
    (r : storeWithdrawnCoin planchetCoinPub w = some wallet') :
    Effects (Careful w (.storeCoin planchetCoinPub)) w wallet' := by
  obtain ⟨p, isPlan, r⟩ := bind_eq_some_iff.mp r
  obtain ⟨group, -, r⟩ := bind_eq_some_iff.mp r
  split at r
  · cases r
    exact .none keyed
  obtain ⟨_, gone, r⟩ := bind_eq_some_iff.mp r
  cases r
  constructor
  · refine Keeps.setCoin ?_ rfl rfl
    intro old isOld
    have none := guard_eq_some gone
    rw [isOld] at none
    cases none
  · exact keyed
  · exact fun _ _ h => .inl h
  intro pub p' h done
  dsimp only at h
  rw [Record.get?_set] at h
  split at h
  · cases h
    exact .inr fun isCareful => isCareful p isPlan
  · exact .inl h

theorem finishWithdrawalGroup_effects {careful : Prop} {now : Nat} {gid : String}
    (keyed : Keyed w) (r : finishWithdrawalGroup now gid w = some wallet') :
    Effects careful w wallet' := by
  obtain ⟨wg, -, r⟩ := bind_eq_some_iff.mp r
  dsimp only at r
  split at r
  · cases r
    exact .ofGroups keyed rfl rfl rfl fun _ _ h => .inl h
  · cases r
    exact .none keyed

theorem balanceStep_effects {ev : BalanceEvent} (keyed : Keyed w)
    (step : BalanceStep w ev wallet') : Effects (Careful w ev) w wallet' := by
  cases ev with
  | createRefreshGroup env groupId oldCoinPubs =>
    exact createRefreshGroup_effects keyed step.2
  | createSession env groupId idx =>
    exact refreshCreateSession_effects keyed step
  | freeze now groupId idx => exact freezeCoin_effects keyed step
  | melt norevealIndex groupId idx => exact storeNorevealIndex_effects keyed step
  | reveal now coinPubs groupId idx =>
    obtain ⟨⟨rg, busy, session, got, unfinished, -⟩, absent, -, ran⟩ := step
    obtain ⟨rg', refreshing', session', old, found', revealed⟩ := refreshReveal_revealed ran
    rw [got] at found'
    cases found'
    exact refreshReveal_effects keyed got unfinished absent revealed
  | deleteRefreshGroup groupId =>
    cases step
    refine Effects.ofGroups keyed rfl rfl rfl ?_
    intro other rg' got
    dsimp only at got
    rw [Record.get?_erase] at got
    split at got
    · cases got
    · exact .inl got
  | storeCoin planchetCoinPub => exact storeWithdrawnCoin_effects keyed step
  | finishWithdrawal now wgId => exact finishWithdrawalGroup_effects keyed step
  | startWithdrawal group =>
    obtain ⟨-, rfl⟩ := step
    exact .ofGroups keyed rfl rfl rfl fun _ _ got => .inl got
  | deleteWithdrawalGroup wgId =>
    cases step
    exact .ofGroups keyed rfl rfl rfl fun _ _ got => .inl got
  | planchet pub planchet =>
    obtain ⟨-, notDone, rfl⟩ := step
    refine ⟨.same rfl rfl, keyed, fun _ _ got => .inl got, ?_⟩
    intro other p' got done
    dsimp only at got
    rw [Record.get?_set] at got
    split at got
    · cases got
      rw [notDone] at done
      cases done
    · exact .inl got
  | reserve reservePub reserve =>
    cases step
    exact .ofGroups keyed rfl rfl rfl fun _ _ got => .inl got
  | coin coin =>
    obtain ⟨stays, rfl⟩ := step
    exact ⟨.setCoin stays rfl rfl, keyed, fun _ _ got => .inl got, fun _ _ got _ => .inl got⟩
  | denomination d =>
    obtain ⟨stays, rfl⟩ := step
    refine ⟨⟨fun _ coin got => ⟨coin, got, rfl⟩, ?_⟩, ?_, fun _ _ got => .inl got,
      fun _ _ got _ => .inl got⟩
    · intro key old got
      dsimp only
      rw [Record.get?_set]
      split
      · next eq =>
        subst eq
        exact ⟨d, rfl, stays old got⟩
      · exact ⟨old, got, rfl, rfl⟩
    · intro key got isFound
      dsimp only at isFound
      rw [Record.get?_set] at isFound
      split at isFound
      · next eq =>
        cases isFound
        exact eq
      · exact keyed key got isFound

end Anastasis.Wallet
