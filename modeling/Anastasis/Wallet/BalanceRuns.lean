import Anastasis.Wallet.BalanceParts
import Anastasis.Library.Transition

/-! The transactions that move value between coins, refresh groups and withdrawals. -/

set_option autoImplicit false

namespace Anastasis.Wallet

open Library AmountJson List

inductive BalanceEvent where
  | createRefreshGroup (surroundings : Surroundings) (refreshGroupId : String)
      (oldCoinPubs : List String)
  | createSession (surroundings : Surroundings) (refreshGroupId : String) (coinIndex : Nat)
  | freeze (now : Nat) (refreshGroupId : String) (coinIndex : Nat)
  | melt (norevealIndex : Nat) (refreshGroupId : String) (coinIndex : Nat)
  | reveal (now : Nat) (coinPubs : Nat → String) (refreshGroupId : String) (coinIndex : Nat)
  | deleteRefreshGroup (refreshGroupId : String)
  | storeCoin (planchetCoinPub : String)
  | finishWithdrawal (now : Nat) (withdrawalGroupId : String)
  | startWithdrawal (group : WithdrawalGroupRecord)
  | deleteWithdrawalGroup (withdrawalGroupId : String)
  | planchet (coinPub : String) (planchet : PlanchetRecord)
  | reserve (reservePub : String) (reserve : ReserveRecord)
  -- payments, refunds, recoups and tips change coins or add new ones
  | coin (coin : CoinRecord)
  | denomination (denomination : DenominationRecord)

/-- Public keys of coins and identifiers of groups are new when they are chosen. A coin stays
with its exchange, and a denomination keeps its value. A coin is revealed after it was melted and
before it is finished. -/
def BalanceStep (wallet : WalletStores) (event : BalanceEvent) (wallet' : WalletStores) : Prop :=
  match event with
  | .createRefreshGroup surroundings refreshGroupId oldCoinPubs =>
    wallet.refreshGroups.get? refreshGroupId = none ∧
      createRefreshGroup surroundings refreshGroupId oldCoinPubs wallet = some wallet'
  | .createSession surroundings refreshGroupId coinIndex =>
    refreshCreateSession surroundings refreshGroupId coinIndex wallet = some wallet'
  | .freeze now refreshGroupId coinIndex =>
    freezeCoin now refreshGroupId coinIndex wallet = some wallet'
  | .melt norevealIndex refreshGroupId coinIndex =>
    storeNorevealIndex norevealIndex refreshGroupId coinIndex wallet = some wallet'
  | .reveal now coinPubs refreshGroupId coinIndex =>
    (∃ rg refreshing session, wallet.refreshing refreshGroupId coinIndex = some (rg, refreshing) ∧
      refreshing.status ≠ .finished ∧ refreshing.refreshSession = some session ∧
      session.norevealIndex.isSome) ∧
    (∀ index, wallet.coins.get? (coinPubs index) = none) ∧ Function.Injective coinPubs ∧
    refreshReveal now coinPubs refreshGroupId coinIndex wallet = some wallet'
  | .deleteRefreshGroup refreshGroupId =>
    wallet' = { wallet with refreshGroups := wallet.refreshGroups.erase refreshGroupId }
  | .storeCoin planchetCoinPub => storeWithdrawnCoin planchetCoinPub wallet = some wallet'
  | .finishWithdrawal now withdrawalGroupId =>
    finishWithdrawalGroup now withdrawalGroupId wallet = some wallet'
  | .startWithdrawal group =>
    wallet.withdrawalGroups.get? group.withdrawalGroupId = none ∧
      wallet' = { wallet with
        withdrawalGroups := wallet.withdrawalGroups.set group.withdrawalGroupId group }
  | .deleteWithdrawalGroup withdrawalGroupId =>
    wallet' = { wallet with withdrawalGroups := wallet.withdrawalGroups.erase withdrawalGroupId }
  | .planchet coinPub planchet =>
    wallet.planchets.get? coinPub = none ∧ planchet.withdrawalDone = false ∧
      wallet' = { wallet with planchets := wallet.planchets.set coinPub planchet }
  | .reserve reservePub reserve =>
    wallet' = { wallet with reserves := wallet.reserves.set reservePub reserve }
  | .coin coin =>
    (∀ old, wallet.coins.get? coin.coinPub = some old →
      coin.exchangeBaseUrl = old.exchangeBaseUrl) ∧
      wallet' = { wallet with coins := wallet.coins.set coin.coinPub coin }
  | .denomination d =>
    (∀ old, wallet.denominations.get? (d.exchangeBaseUrl, d.denomPubHash) = some old →
      d.value = old.value ∧ d.currency = old.currency) ∧
      wallet' = { wallet with denominations :=
        wallet.denominations.set (d.exchangeBaseUrl, d.denomPubHash) d }

def WalletStores.empty : WalletStores :=
  ⟨.empty, .empty, .empty, .empty, .empty, .empty⟩

structure Keeps (wallet wallet' : WalletStores) : Prop where
  coins : ∀ coinPub coin, wallet.coins.get? coinPub = some coin → ∃ coin',
    wallet'.coins.get? coinPub = some coin' ∧ coin'.exchangeBaseUrl = coin.exchangeBaseUrl
  denominations : ∀ key d, wallet.denominations.get? key = some d → ∃ d',
    wallet'.denominations.get? key = some d' ∧ d'.value = d.value ∧ d'.currency = d.currency

theorem Keeps.refl (w : WalletStores) : Keeps w w :=
  ⟨fun _ c h => ⟨c, h, rfl⟩, fun _ d h => ⟨d, h, rfl, rfl⟩⟩

theorem Keeps.trans {first y third : WalletStores} (pre : Keeps first y)
    (after : Keeps y third) : Keeps first third := by
  constructor
  · intro pub c h
    obtain ⟨coin', got, eq⟩ := pre.coins pub c h
    obtain ⟨coin'', found'', same'⟩ := after.coins pub coin' got
    exact ⟨coin'', found'', same'.trans eq⟩
  intro key d h
  obtain ⟨d', got, v, cur⟩ := pre.denominations key d h
  obtain ⟨d'', found'', value', currency'⟩ := after.denominations key d' got
  exact ⟨d'', found'', value'.trans v, currency'.trans cur⟩

theorem Keeps.setCoin {w wallet' : WalletStores} {pub : String} {c : CoinRecord}
    (stays : ∀ old, w.coins.get? pub = some old → c.exchangeBaseUrl = old.exchangeBaseUrl)
    (cs : wallet'.coins = w.coins.set pub c)
    (ds : wallet'.denominations = w.denominations) : Keeps w wallet' := by
  constructor
  · intro y old h
    rw [cs, Record.get?_set]
    split
    · next eq =>
      subst eq
      exact ⟨c, rfl, stays old h⟩
    · exact ⟨old, h, rfl⟩
  · intro key d h
    rw [ds]
    exact ⟨d, h, rfl, rfl⟩

theorem Keeps.same {w wallet' : WalletStores} (cs : wallet'.coins = w.coins)
    (ds : wallet'.denominations = w.denominations) : Keeps w wallet' := by
  constructor
  · intro pub c h
    rw [cs]
    exact ⟨c, h, rfl⟩
  intro key d h
  rw [ds]
  exact ⟨d, h, rfl, rfl⟩

section Sessions

def coinHashes (newDenoms : List (Nat × String)) : List String :=
  newDenoms.flatMap fun d => List.replicate d.1 d.2

def knownValue (wallet : WalletStores) (exchangeBaseUrl denomPubHash : String) : Nat :=
  wallet.denominations.weightAt (fun d => d.value.units) (exchangeBaseUrl, denomPubHash)

def SessionSound (wallet : WalletStores) (refreshing : RefreshingCoin)
    (session : RefreshSessionRecord) : Prop :=
  ∃ old, wallet.coins.get? refreshing.oldCoinPub = some old ∧
    (∀ denomPubHash ∈ coinHashes session.newDenoms, ∃ d,
      wallet.denominations.get? (old.exchangeBaseUrl, denomPubHash) = some d ∧
        d.currency = refreshing.currency) ∧
    ((coinHashes session.newDenoms).map (knownValue wallet old.exchangeBaseUrl)).sum =
      session.amountRefreshOutput.units

variable {wallet w wallet' w' : WalletStores} {refreshing busy refreshing' : RefreshingCoin}
  {session ses session' : RefreshSessionRecord}

theorem SessionSound.keeps (sound : SessionSound w refreshing session)
    (keeps : Keeps w wallet') : SessionSound wallet' refreshing session := by
  obtain ⟨old, isOld, has, worth⟩ := sound
  obtain ⟨old', isOld', sameExchange⟩ := keeps.coins _ old isOld
  refine ⟨old', isOld', ?_, ?_⟩
  · intro hash mem
    obtain ⟨d, isDenom, cur⟩ := has hash mem
    obtain ⟨d', isDenom', -, currency'⟩ := keeps.denominations _ d isDenom
    rw [sameExchange]
    exact ⟨d', isDenom', currency'.trans cur⟩
  rw [← worth]
  apply congrArg List.sum
  apply map_congr_left
  intro hash mem
  obtain ⟨d, isDenom, -⟩ := has hash mem
  obtain ⟨d', isDenom', v, -⟩ := keeps.denominations _ d isDenom
  rw [sameExchange, knownValue, knownValue, Record.weightAt_some isDenom,
    Record.weightAt_some isDenom', v]

theorem SessionSound.of_same (sound : SessionSound w busy ses)
    (oldCoin : refreshing'.oldCoinPub = busy.oldCoinPub)
    (cur : refreshing'.currency = busy.currency)
    (newDenoms : session'.newDenoms = ses.newDenoms)
    (output : session'.amountRefreshOutput = ses.amountRefreshOutput) :
    SessionSound w refreshing' session' := by
  unfold SessionSound
  rw [oldCoin, cur, newDenoms, output]
  exact sound

def Keyed (wallet : WalletStores) : Prop :=
  ∀ key d, wallet.denominations.get? key = some d → key = (d.exchangeBaseUrl, d.denomPubHash)

theorem knownValue_sum {url : String} {r : List (Nat × DenominationRecord)} (has : ∀ d ∈ r,
      w.denominations.get? (url, d.2.denomPubHash) = some d.2) :
    ((coinHashes (r.map fun x => (x.1, x.2.denomPubHash))).map (knownValue w url)).sum =
        (r.map fun d => d.2.value.units * d.1).sum := by
  induction r with
  | nil => rfl
  | cons d rest ih =>
    rw [forall_mem_cons] at has
    have worth : knownValue w url d.2.denomPubHash = d.2.value.units := Record.weightAt_some has.1
    have tail := ih has.2
    unfold coinHashes at tail ⊢
    rw [map_cons, flatMap_cons, map_append, sum_append, tail,
      map_replicate, sum_replicate_nat, worth, map_cons, sum_cons, Nat.mul_comm]

theorem newSession_sound {env : Surroundings} {c : CoinRecord}
    {amountAvailable : AmountJson} {sel : DenominationSelectionInfo} (keyed : Keyed w)
    (isC : w.coins.get? refreshing.oldCoinPub = some c) (fits : amountAvailable.units < limit)
    (r : selectWithdrawalDenominations env refreshing.currency amountAvailable
      (w.denominationsOf c.exchangeBaseUrl) = some sel) :
    SessionSound w refreshing (newSession sel) := by
  have has : ∀ d ∈ sel.selectedDenoms,
      w.denominations.get? (c.exchangeBaseUrl, d.2.denomPubHash) = some d.2 ∧
        d.2.currency = refreshing.currency := by
    intro d mem
    obtain ⟨isDenom, cur⟩ := selectWithdrawalDenominations_mem r d mem
    obtain ⟨isValue, sameExchange⟩ := mem_filter.mp isDenom
    obtain ⟨key, h⟩ := Record.mem_values_iff.mp isValue
    have isKey := keyed key d.2 h
    rw [of_decide_eq_true sameExchange] at isKey
    exact ⟨isKey ▸ h, cur⟩
  refine ⟨c, isC, ?_, ?_⟩
  · intro hash mem
    obtain ⟨new, isNew, isHash⟩ := mem_flatMap.mp mem
    obtain ⟨d, isSelected, rfl⟩ := List.mem_map.mp isNew
    rw [eq_of_mem_replicate isHash]
    exact ⟨d.2, has d isSelected⟩
  · rw [newSession, (selectWithdrawalDenominations_worth fits r).1]
    exact knownValue_sum fun d mem => (has d mem).1

end Sessions

section Groups

/-- All other coins of the group are finished, or the coin is counted with nothing. -/
def LastOrWorthless (rg : RefreshGroupRecord) (coinIndex : Nat) (refreshing : RefreshingCoin) :
    Prop :=
  refreshing.output.units = 0 ∨
    ∀ index other, index ≠ coinIndex → rg.coins[index]? = some other → other.status = .finished

/-- How a transaction can change a group, where coins may be finished only under a condition. -/
inductive GroupStep (wallet : WalletStores) (careful : Prop) (rg : RefreshGroupRecord) :
    RefreshGroupRecord → Prop where
  | session {coinIndex : Nat} {refreshing : RefreshingCoin} {session : RefreshSessionRecord}
      (found : rg.coins[coinIndex]? = some refreshing) (unfinished : refreshing.status ≠ .finished)
      (sound : SessionSound wallet refreshing session) :
      GroupStep wallet careful rg (rg.setSession coinIndex session)
  | melted {coinIndex : Nat} {refreshing : RefreshingCoin} {session : RefreshSessionRecord}
      {norevealIndex : Option Nat} (found : rg.coins[coinIndex]? = some refreshing)
      (started : refreshing.refreshSession = some session) :
      GroupStep wallet careful rg
        (rg.setSession coinIndex { session with norevealIndex := norevealIndex })
  | frozen {coinIndex now : Nat} {refreshing : RefreshingCoin}
      (found : rg.coins[coinIndex]? = some refreshing) (pending : refreshing.status = .pending) :
      GroupStep wallet careful rg ((rg.setStatus coinIndex .frozen).updateGroupStatus now)
  | finished {coinIndex now : Nat} {refreshing : RefreshingCoin}
      (found : rg.coins[coinIndex]? = some refreshing) (unfinished : refreshing.status ≠ .finished)
      (last : careful → LastOrWorthless rg coinIndex refreshing) :
      GroupStep wallet careful rg ((rg.setStatus coinIndex .finished).updateGroupStatus now)

structure GroupSound (wallet : WalletStores) (rg : RefreshGroupRecord) : Prop where
  sessions : ∀ refreshing ∈ rg.coins, ∀ session, refreshing.refreshSession = some session →
    SessionSound wallet refreshing session
  closed : rg.timestampFinished.isSome → ∀ refreshing ∈ rg.coins, refreshing.status = .finished

def NothingTwice (rg : RefreshGroupRecord) : Prop :=
  rg.timestampFinished = none →
    ∀ refreshing ∈ rg.coins, refreshing.status = .finished → refreshing.output.units = 0

theorem mem_modify {Value : Type} {values : List Value} {pos : Nat} {change : Value → Value}
    {value : Value} (mem : value ∈ values.modify pos change) :
    (∃ old, values[pos]? = some old ∧ value = change old) ∨
      ∃ idx, idx ≠ pos ∧ values[idx]? = some value := by
  obtain ⟨idx, h⟩ := mem_iff_getElem?.mp mem
  by_cases eq : pos = idx
  · subst eq
    rw [getElem?_modify_eq] at h
    obtain ⟨old, isOld, isValue⟩ := Option.map_eq_some_iff.mp h
    exact .inl ⟨old, isOld, isValue.symm⟩
  · rw [getElem?_modify_ne _ _ eq] at h
    exact .inr ⟨idx, Ne.symm eq, h⟩

@[simp] theorem updateGroupStatus_coins (now : Nat) (rg : RefreshGroupRecord) :
    (rg.updateGroupStatus now).coins = rg.coins := by
  unfold RefreshGroupRecord.updateGroupStatus
  dsimp only
  split
  · split <;> rfl
  · rfl

theorem updateGroupStatus_timestamp (now : Nat) (rg : RefreshGroupRecord) :
    (rg.updateGroupStatus now).timestampFinished =
      if ∀ busy ∈ rg.coins, busy.status = .finished then some now
      else rg.timestampFinished := by
  have isDone : ∀ st : RefreshCoinStatus, st.isDone = true ∧ st ≠ .frozen ↔
      st = .finished := by
    intro st
    cases st <;> simp [RefreshCoinStatus.isDone]
  unfold RefreshGroupRecord.updateGroupStatus
  dsimp only
  split
  · next allDone =>
    rw [List.all_eq_true] at allDone
    split
    · next anyFrozen =>
      obtain ⟨busy, mem, frozen⟩ := List.any_eq_true.mp anyFrozen
      rw [if_neg]
      intro all
      have ended := all busy mem
      rw [of_decide_eq_true frozen] at ended
      cases ended
    · next noneFrozen =>
      rw [if_pos]
      intro busy mem
      apply (isDone _).mp
      refine ⟨allDone busy mem, fun frozen => noneFrozen ?_⟩
      exact List.any_eq_true.mpr ⟨busy, mem, decide_eq_true frozen⟩
  · next notDone =>
    rw [if_neg]
    intro all
    apply notDone
    rw [List.all_eq_true]
    intro busy mem
    exact ((isDone _).mpr (all busy mem)).1

variable {wallet w wallet' w' : WalletStores} {careful : Prop} {rg rg' : RefreshGroupRecord}

theorem GroupSound.keeps (sound : GroupSound w rg) (keeps : Keeps w wallet') :
    GroupSound wallet' rg := ⟨fun busy mem ses st =>
    (sound.sessions busy mem ses st).keeps keeps, sound.closed⟩

theorem GroupSound.setStatus {idx now : Nat} {busy : RefreshingCoin}
    {status : RefreshCoinStatus} (sound : GroupSound w rg)
    (h : rg.coins[idx]? = some busy) (todo : busy.status ≠ .finished) :
    GroupSound w ((rg.setStatus idx status).updateGroupStatus now) := by
  have isOpen : ¬ rg.timestampFinished.isSome := fun closed =>
    todo (sound.closed closed busy (mem_iff_getElem?.mpr ⟨_, h⟩))
  constructor
  · intro changed mem ses st
    rw [updateGroupStatus_coins] at mem
    rcases mem_modify mem with ⟨old, isOld, rfl⟩ | ⟨index, -, isO⟩
    · exact (sound.sessions old (mem_iff_getElem?.mpr ⟨_, isOld⟩) ses st).of_same
        rfl rfl rfl rfl
    · exact sound.sessions changed (mem_iff_getElem?.mpr ⟨_, isO⟩) ses st
  intro closed
  rw [updateGroupStatus_timestamp] at closed
  rw [updateGroupStatus_coins]
  split at closed
  · next all => exact all
  · exact absurd closed isOpen

theorem GroupSound.step (sound : GroupSound w rg) (step : GroupStep w careful rg rg') :
    GroupSound w rg' := by
  cases step with
  | @session idx refreshing session got todo new =>
    constructor
    · intro changed mem session' st
      rcases mem_modify mem with ⟨old, isOld, rfl⟩ | ⟨index, -, isO⟩
      · cases st
        rw [got] at isOld
        cases isOld
        exact new.of_same rfl rfl rfl rfl
      · exact sound.sessions changed (mem_iff_getElem?.mpr ⟨_, isO⟩) session' st
    · intro closed
      exact absurd (sound.closed closed refreshing (mem_iff_getElem?.mpr ⟨_, got⟩)) todo
  | @melted idx refreshing session norevealIndex got st =>
    constructor
    · intro changed mem session' started'
      rcases mem_modify mem with ⟨old, isOld, rfl⟩ | ⟨index, -, isO⟩
      · cases started'
        rw [got] at isOld
        cases isOld
        exact (sound.sessions refreshing (mem_iff_getElem?.mpr ⟨_, got⟩) session
          st).of_same rfl rfl rfl rfl
      · exact sound.sessions changed (mem_iff_getElem?.mpr ⟨_, isO⟩) session' started'
    · intro closed changed mem
      rcases mem_modify mem with ⟨old, isOld, rfl⟩ | ⟨index, -, isO⟩
      · exact sound.closed closed old (mem_iff_getElem?.mpr ⟨_, isOld⟩)
      · exact sound.closed closed changed (mem_iff_getElem?.mpr ⟨_, isO⟩)
  | frozen got pending => exact sound.setStatus got (by rw [pending]; nofun)
  | finished got todo _ => exact sound.setStatus got todo

theorem NothingTwice.step (nothing : NothingTwice rg)
    (step : GroupStep w careful rg rg') (isCareful : careful) : NothingTwice rg' := by
  cases step with
  | @session idx refreshing session got todo new =>
    intro isOpen changed mem finished
    rcases mem_modify mem with ⟨old, isOld, rfl⟩ | ⟨index, -, isO⟩
    · rw [got] at isOld
      cases isOld
      exact absurd finished todo
    · exact nothing isOpen changed (mem_iff_getElem?.mpr ⟨_, isO⟩) finished
  | @melted idx refreshing session norevealIndex got st =>
    intro isOpen changed mem finished
    rcases mem_modify mem with ⟨old, isOld, rfl⟩ | ⟨index, -, isO⟩
    · rw [got] at isOld
      cases isOld
      have none := nothing isOpen refreshing (mem_iff_getElem?.mpr ⟨_, got⟩) finished
      rw [RefreshingCoin.output, st] at none
      exact none
    · exact nothing isOpen changed (mem_iff_getElem?.mpr ⟨_, isO⟩) finished
  | @frozen idx now refreshing got pending =>
    intro isOpen changed mem finished
    rw [updateGroupStatus_timestamp] at isOpen
    rw [updateGroupStatus_coins] at mem
    split at isOpen
    · cases isOpen
    rcases mem_modify mem with ⟨old, isOld, rfl⟩ | ⟨index, -, isO⟩
    · cases finished
    · exact nothing isOpen changed (mem_iff_getElem?.mpr ⟨_, isO⟩) finished
  | @finished idx now refreshing got todo last =>
    intro isOpen changed mem finished
    rw [updateGroupStatus_timestamp] at isOpen
    rw [updateGroupStatus_coins] at mem
    split at isOpen
    · cases isOpen
    rename_i someUnfinished
    rcases mem_modify mem with ⟨old, isOld, rfl⟩ | ⟨index, -, isO⟩
    · rw [got] at isOld
      cases isOld
      cases last isCareful with
      | inl worthless => exact worthless
      | inr ys =>
        exfalso
        apply someUnfinished
        intro coin isC
        rcases mem_modify isC with ⟨old, -, rfl⟩ | ⟨index, ne, isO⟩
        · rfl
        · exact ys index coin ne isO
    · exact nothing isOpen changed (mem_iff_getElem?.mpr ⟨_, isO⟩) finished

end Groups

end Anastasis.Wallet
