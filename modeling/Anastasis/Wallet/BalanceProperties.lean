import Anastasis.Wallet.BalanceSteps

/-! When the balances count every coin once. -/

set_option autoImplicit false

namespace Anastasis.Wallet

open Library Library.Transition AmountJson List Option

/-- What holds of the stores in every state that can be reached. -/
structure WalletStores.Sound (wallet : WalletStores) : Prop where
  keyed : Keyed wallet
  groups : ∀ refreshGroupId rg, wallet.refreshGroups.get? refreshGroupId = some rg →
    GroupSound wallet rg

structure WalletStores.Settled (wallet : WalletStores) : Prop where
  groups : ∀ refreshGroupId rg, wallet.refreshGroups.get? refreshGroupId = some rg →
    NothingTwice rg
  planchets : ∀ coinPub p, wallet.planchets.get? coinPub = some p → p.withdrawalDone →
    p.coinValue.units = 0

variable {wallet w wallet' w' : WalletStores} {ev : BalanceEvent} {events : List BalanceEvent}

theorem WalletStores.Sound.step (sound : w.Sound) (step : BalanceStep w ev w') :
    w'.Sound := by
  have effects := balanceStep_effects sound.keyed step
  refine ⟨effects.keyed, ?_⟩
  intro gid rg' h
  rcases effects.groups gid rg' h with eq | new | ⟨rg, isGroup, change⟩
  · exact (sound.groups gid rg' eq).keeps effects.keeps
  · exact new.sound
  · exact ((sound.groups gid rg isGroup).step change).keeps effects.keeps

theorem WalletStores.Sound.empty : WalletStores.empty.Sound := by
  constructor
  · intro key d h
    cases (Record.get?_empty key).symm.trans h
  · intro gid rg h
    cases (Record.get?_empty gid).symm.trans h

theorem WalletStores.Settled.empty : WalletStores.empty.Settled := by
  constructor
  · intro gid rg h
    cases (Record.get?_empty gid).symm.trans h
  · intro pub p h
    cases (Record.get?_empty pub).symm.trans h

theorem balanceRun_sound (run : Run BalanceStep .empty events w) : w.Sound := by
  apply run.invariant WalletStores.Sound
  · exact .empty
  · exact fun _ _ _ sound step => sound.step step

theorem WalletStores.Settled.step (met : w.Settled) (sound : w.Sound)
    (careful : Careful w ev) (step : BalanceStep w ev w') :
    w'.Settled := by
  have effects := balanceStep_effects sound.keyed step
  constructor
  · intro gid rg' h
    rcases effects.groups gid rg' h with eq | new | ⟨rg, isGroup, change⟩
    · exact met.groups gid rg' eq
    · exact new.nothingTwice
    · exact (met.groups gid rg isGroup).step change careful
  intro pub p' h done
  cases effects.planchets pub p' h done with
  | inl eq => exact met.planchets pub p' eq done
  | inr worthless => exact worthless careful

theorem carefulRun_settled (run : Run (Guarded Careful BalanceStep) .empty events w) :
    w.Settled := by
  have both : w.Sound ∧ w.Settled := by
    apply run.invariant fun w => w.Sound ∧ w.Settled
    · exact ⟨.empty, .empty⟩
    · intro st ev next holds step
      exact ⟨holds.1.step step.2, holds.2.step holds.1 step.1 step.2⟩
  exact both.2

theorem WalletStores.Settled.countedTwice (met : w.Settled) (cur : String) :
    w.countedTwice cur = 0 := by
  unfold WalletStores.countedTwice
  rw [Record.total_eq_zero_iff]
  intro rg mem
  obtain ⟨gid, h⟩ := Record.mem_values_iff.mp mem
  unfold RefreshGroupRecord.countedTwice
  split
  · rfl
  rename_i isOpen
  have nothing := met.groups gid rg h (by simpa using isOpen)
  rw [sum_eq_zero_iff, List.forall_mem_map]
  intro busy isC
  unfold RefreshingCoin.expectedAgain RefreshingCoin.expected inCurrency
  split
  · next ended =>
    rw [nothing busy isC ended, ite_self]
  · rfl

theorem WalletStores.Settled.pendingTwice (met : w.Settled) (cur : String) :
    w.pendingTwice cur = 0 := by
  unfold WalletStores.pendingTwice
  rw [Record.total_eq_zero_iff]
  intro group _
  have none : w.withdrawn group = 0 := by
    unfold WalletStores.withdrawn
    rw [Record.total_eq_zero_iff]
    intro p mem
    obtain ⟨pub, h⟩ := Record.mem_values_iff.mp mem
    split
    · next done => exact met.planchets pub p h done.2
    · rfl
  rw [none]
  exact Nat.min_zero _

def OthersFinished (rg : RefreshGroupRecord) (coinIndex : Nat) : Prop :=
  ∀ index other, index ≠ coinIndex → rg.coins[index]? = some other → other.status = .finished

/-- The group vanishes with its last coin, for which then nothing else may be counted; before
that, nothing may be counted for the coin itself. -/
def RevealNeutral (currency : String) (rg : RefreshGroupRecord) (coinIndex : Nat)
    (refreshing : RefreshingCoin) : Prop :=
  (OthersFinished rg coinIndex ∧ rg.counted currency = refreshing.expected currency) ∨
    (¬ OthersFinished rg coinIndex ∧ refreshing.expected currency = 0)

theorem setStatus_expected (cur : String) (rg : RefreshGroupRecord) (idx : Nat)
    (st : RefreshCoinStatus) :
    (rg.setStatus idx st).coins.map (RefreshingCoin.expected cur) =
      rg.coins.map (RefreshingCoin.expected cur) := by
  unfold RefreshGroupRecord.setStatus RefreshGroupRecord.changeCoin
  apply ext_getElem?
  intro index
  rw [getElem?_map, getElem?_map]
  by_cases eq : idx = index
  · subst eq
    rw [getElem?_modify_eq]
    cases rg.coins[idx]? with
    | none => rfl
    | some busy => rfl
  · rw [getElem?_modify_ne _ _ eq]

theorem allFinished_iff {rg : RefreshGroupRecord} {coinIndex : Nat} :
    (∀ c ∈ (rg.setStatus coinIndex .finished).coins, c.status = .finished) ↔
      OthersFinished rg coinIndex := by
  constructor
  · intro all idx y ne isO
    apply all
    apply mem_iff_getElem?.mpr
    refine ⟨idx, ?_⟩
    unfold RefreshGroupRecord.setStatus RefreshGroupRecord.changeCoin
    rw [getElem?_modify_ne _ _ (Ne.symm ne)]
    exact isO
  · intro ys c mem
    rcases mem_modify mem with ⟨old, -, rfl⟩ | ⟨idx, ne, isO⟩
    · rfl
    · exact ys idx c ne isO

/-- A reveal adds the new coins, and takes away the group if the coin was its last one. -/
theorem reveal_counted {now : Nat} {cps : Nat → String} {gid : String}
    {idx : Nat} {rg : RefreshGroupRecord} {busy : RefreshingCoin} (currency : String)
    (sound : w.Sound) (h : w.refreshing gid idx = some (rg, busy))
    (step : BalanceStep w (.reveal now cps gid idx) w') : (OthersFinished rg idx →
      countedAvailable w' currency + rg.counted currency =
        countedAvailable w currency + busy.expected currency) ∧
    (¬ OthersFinished rg idx → countedAvailable w' currency =
      countedAvailable w currency + busy.expected currency) := by
  obtain ⟨⟨rg', refreshing', session', got, todo, -⟩, gone, apart, r⟩ := step
  rw [h] at got
  cases got
  obtain ⟨rg', refreshing', ses, old, got, revealed⟩ := refreshReveal_revealed r
  rw [h] at got
  cases got
  have groupSound := sound.groups gid rg revealed.group
  have isMember : busy ∈ rg.coins := mem_iff_getElem?.mpr ⟨_, revealed.coin⟩
  have isOpen : rg.timestampFinished = none := by
    cases closed : rg.timestampFinished with
    | none => rfl
    | some time =>
      exact absurd (groupSound.closed (by rw [closed]; rfl) busy isMember) todo
  obtain ⟨old', isOld', has, worth⟩ :=
    groupSound.sessions busy isMember ses revealed.started
  rw [revealed.oldCoin] at isOld'
  cases isOld'
  have expected : inCurrency currency busy.currency ses.amountRefreshOutput =
      busy.expected currency := by
    rw [RefreshingCoin.expected, RefreshingCoin.output, revealed.started]
  have cs := @putCoins_total old.exchangeBaseUrl cps currency
    (revealedDenoms w old.exchangeBaseUrl ses.newDenoms) apart 0 w.coins fun n _ => gone n
  rw [revealedDenoms_sum has worth, expected] at cs
  have groups := w.refreshGroups.total_set (RefreshGroupRecord.counted currency)
    gid ((rg.setStatus idx .finished).updateGroupStatus now)
  rw [Record.weightAt_some revealed.group] at groups
  have cnt : rg.counted currency = (rg.coins.map (RefreshingCoin.expected currency)).sum := by
    rw [RefreshGroupRecord.counted, isOpen]
    rfl
  have countedAfter : ((rg.setStatus idx .finished).updateGroupStatus now).counted currency =
      if ((rg.setStatus idx .finished).updateGroupStatus now).timestampFinished.isSome then 0
      else rg.counted currency := by
    rw [RefreshGroupRecord.counted, updateGroupStatus_coins, setStatus_expected, cnt]
  have timestamp := updateGroupStatus_timestamp now (rg.setStatus idx .finished)
  unfold countedAvailable
  rw [revealed.after]
  dsimp only
  constructor
  · intro ys
    rw [if_pos (allFinished_iff.mpr ys)] at timestamp
    rw [timestamp, isSome_some, if_pos rfl] at countedAfter
    omega
  intro ys
  rw [if_neg (fun all => ys (allFinished_iff.mp all))] at timestamp
  have stillOpen : (rg.setStatus idx .finished).timestampFinished = none := isOpen
  rw [timestamp, stillOpen, isSome_none, if_neg Bool.false_ne_true] at countedAfter
  omega

theorem min_eq_min_iff (x y most : Nat) : Nat.min x most = Nat.min y most ↔
      x = y ∨ (most ≤ x ∧ most ≤ y) := by
  rcases Nat.le_total x most with small | large
  · rw [show Nat.min x most = x from Nat.min_eq_left small]
    rcases Nat.le_total y most with small' | large'
    · rw [show Nat.min y most = y from Nat.min_eq_left small']
      omega
    · rw [show Nat.min y most = most from Nat.min_eq_right large']
      omega
  rw [show Nat.min x most = most from Nat.min_eq_right large]
  rcases Nat.le_total y most with small' | large'
  · rw [show Nat.min y most = y from Nat.min_eq_left small']
    omega
  · rw [show Nat.min y most = most from Nat.min_eq_right large']
    omega

theorem reveal_available_iff {now : Nat} {cps : Nat → String} {gid : String}
    {idx : Nat} {rg : RefreshGroupRecord} {refreshing : RefreshingCoin} (cur : String)
    (sound : w.Sound) (h : w.refreshing gid idx = some (rg, refreshing))
    (step : BalanceStep w (.reveal now cps gid idx) w') :
    available w' cur = available w cur ↔ RevealNeutral cur rg idx refreshing ∨
        (limit - 1 ≤ countedAvailable w' cur ∧ limit - 1 ≤ countedAvailable w cur) := by
  obtain ⟨last, notLast⟩ := reveal_counted cur sound h step
  rw [(balances_units w cur).1, (balances_units w' cur).1, min_eq_min_iff]
  apply or_congr_left
  unfold RevealNeutral
  by_cases ys : OthersFinished rg idx
  · have moved := last ys
    constructor
    · exact fun eq => .inl ⟨ys, by omega⟩
    rintro (⟨-, alone⟩ | ⟨notOthers, -⟩)
    · omega
    · exact absurd ys notOthers
  have added := notLast ys
  constructor
  · exact fun eq => .inr ⟨ys, by omega⟩
  rintro (⟨isOthers, -⟩ | ⟨-, worthless⟩)
  · exact absurd isOthers ys
  · omega

/-- Storing a withdrawn coin adds it to the available balance, and leaves the pending one. -/
theorem storeCoin_counted {planchetCoinPub : String} {p : PlanchetRecord}
    {group : WithdrawalGroupRecord} (cur : String)
    (isPlan : wallet.planchets.get? planchetCoinPub = some p)
    (isGroup : wallet.withdrawalGroups.get? p.withdrawalGroupId = some group)
    (notDone : p.withdrawalDone = false)
    (step : BalanceStep wallet (.storeCoin planchetCoinPub) w') : countedAvailable w' cur =
        countedAvailable wallet cur + inCurrency cur group.currency p.coinValue ∧
      countedPending w' cur = countedPending wallet cur := by
  change storeWithdrawnCoin planchetCoinPub wallet = some w' at step
  simp only [storeWithdrawnCoin, isPlan, isGroup, notDone, bind_eq_bind,
    bind_some, Bool.false_eq_true, if_false] at step
  obtain ⟨_, gone, step⟩ := bind_eq_some_iff.mp step
  cases step
  have new : wallet.coins.get? planchetCoinPub = none := isNone_iff_eq_none.mp (guard_eq_some gone)
  have cs := wallet.coins.total_set (CoinRecord.freshAmount cur) planchetCoinPub
    (withdrawnCoin group planchetCoinPub p)
  rw [Record.weightAt_none new] at cs
  have worth : (withdrawnCoin group planchetCoinPub p).freshAmount cur =
      inCurrency cur group.currency p.coinValue := rfl
  constructor
  · unfold countedAvailable
    dsimp only
    omega
  · rfl

theorem storeCoin_balance_iff {planchetCoinPub : String} {p : PlanchetRecord}
    {group : WithdrawalGroupRecord} (cur : String)
    (isPlan : wallet.planchets.get? planchetCoinPub = some p)
    (isGroup : wallet.withdrawalGroups.get? p.withdrawalGroupId = some group)
    (notDone : p.withdrawalDone = false)
    (step : BalanceStep wallet (.storeCoin planchetCoinPub) w') :
    available w' cur + pendingIncoming w' cur = available wallet cur + pendingIncoming wallet cur ↔
      inCurrency cur group.currency p.coinValue = 0 ∨ limit - 1 ≤ countedAvailable wallet cur := by
  obtain ⟨added, pending⟩ := storeCoin_counted cur isPlan isGroup notDone step
  rw [(balances_units wallet cur).2, (balances_units w' cur).2, pending,
    Nat.add_right_cancel_iff, (balances_units wallet cur).1,
    (balances_units w' cur).1, min_eq_min_iff]
  omega

/-- When every coin is counted once: in any state, across the steps that move a coin, and in the
runs that never finish a coin of any value before the others of its group, nor withdraw one. -/
theorem balance_counts_once (currency : String) : (∀ wallet,
      (available wallet currency = wallet.expectedAvailable currency ↔
        wallet.expectedAvailable currency ≤ limit - 1 ∧
          (wallet.countedTwice currency = 0 ∨ wallet.expectedAvailable currency = limit - 1)) ∧
      (pendingIncoming wallet currency = wallet.expectedPending currency ↔
        wallet.expectedPending currency ≤ limit - 1 ∧
          (wallet.pendingTwice currency = 0 ∨ wallet.expectedPending currency = limit - 1))) ∧
    (∀ events wallet, Run BalanceStep .empty events wallet →
      ∀ now coinPubs refreshGroupId coinIndex wallet' rg refreshing,
        wallet.refreshing refreshGroupId coinIndex = some (rg, refreshing) →
        BalanceStep wallet (.reveal now coinPubs refreshGroupId coinIndex) wallet' →
        (available wallet' currency = available wallet currency ↔
          RevealNeutral currency rg coinIndex refreshing ∨
            (limit - 1 ≤ countedAvailable wallet' currency ∧
              limit - 1 ≤ countedAvailable wallet currency))) ∧
    (∀ wallet planchetCoinPub wallet' p group, wallet.planchets.get? planchetCoinPub = some p →
      wallet.withdrawalGroups.get? p.withdrawalGroupId = some group → p.withdrawalDone = false →
      BalanceStep wallet (.storeCoin planchetCoinPub) wallet' →
      (available wallet' currency + pendingIncoming wallet' currency =
          available wallet currency + pendingIncoming wallet currency ↔
        inCurrency currency group.currency p.coinValue = 0 ∨
          limit - 1 ≤ countedAvailable wallet currency)) ∧
    (∀ events wallet, Run (Guarded Careful BalanceStep) .empty events wallet →
      (wallet.expectedAvailable currency < limit →
        available wallet currency = wallet.expectedAvailable currency) ∧
      (wallet.expectedPending currency < limit →
        pendingIncoming wallet currency = wallet.expectedPending currency)) := by
  refine ⟨?_, ?_, ?_, ?_⟩
  · intro wallet
    exact ⟨available_eq_expected_iff wallet currency,
      pendingIncoming_eq_expected_iff wallet currency⟩
  · intro events wallet run now coinPubs refreshGroupId coinIndex wallet' rg refreshing found step
    exact reveal_available_iff currency (balanceRun_sound run) found step
  · intro wallet planchetCoinPub wallet' p group isPlanchet isGroup notDone step
    exact storeCoin_balance_iff currency isPlanchet isGroup notDone step
  · intro events wallet run
    have settled := carefulRun_settled run
    constructor
    · intro inRange
      exact (available_eq_expected_iff wallet currency).mpr
        ⟨Nat.le_sub_one_of_lt inRange, .inl (settled.countedTwice currency)⟩
    · intro inRange
      exact (pendingIncoming_eq_expected_iff wallet currency).mpr
        ⟨Nat.le_sub_one_of_lt inRange, .inl (settled.pendingTwice currency)⟩

section Example

def exampleNamed (coinPub : String) : CoinRecord := { exampleCoin with coinPub := coinPub }

def exampleGroupWallet : WalletStores where
  coins := .ofList [("first", exampleNamed "first"), ("second", exampleNamed "second")]
  denominations := .ofList [(("https://a/", "ten"), ten)]
  refreshGroups := .empty
  withdrawalGroups := .empty
  planchets := .empty
  reserves := .empty

def exampleGrouped : Option WalletStores :=
  createRefreshGroup exampleSurroundings "group" ["first", "second"] exampleGroupWallet

def exampleStarted : Option WalletStores :=
  exampleGrouped.bind (refreshCreateSession exampleSurroundings "group" 0)

def exampleMelted : Option WalletStores := exampleStarted.bind (storeNorevealIndex 0 "group" 0)

def examplePubs (index : Nat) : String := String.ofList (List.replicate index 'x')

def exampleRevealed : Option WalletStores :=
  exampleMelted.bind (refreshReveal 2000 examplePubs "group" 0)

theorem examplePubs_injective : Function.Injective examplePubs := by
  intro x y eq
  have lists := congrArg String.toList eq
  rw [examplePubs, examplePubs, String.toList_ofList, String.toList_ofList] at lists
  have lengths := congrArg List.length lists
  rwa [length_replicate, length_replicate] at lengths

theorem exampleGroupWallet_run : Run BalanceStep .empty
    [.denomination ten, .coin (exampleNamed "first"), .coin (exampleNamed "second")]
    exampleGroupWallet := by
  have denom : BalanceStep .empty (.denomination ten)
      { WalletStores.empty with denominations := .ofList [(("https://a/", "ten"), ten)] } := by
    refine ⟨?_, rfl⟩
    intro old h
    cases (Record.get?_empty _).symm.trans h
  have first : BalanceStep
      { WalletStores.empty with denominations := .ofList [(("https://a/", "ten"), ten)] }
      (.coin (exampleNamed "first")) { WalletStores.empty with
        denominations := .ofList [(("https://a/", "ten"), ten)]
        coins := .ofList [("first", exampleNamed "first")] } := by
    refine ⟨?_, rfl⟩
    intro old h
    cases (Record.get?_empty _).symm.trans h
  have second : BalanceStep { WalletStores.empty with
        denominations := .ofList [(("https://a/", "ten"), ten)]
        coins := .ofList [("first", exampleNamed "first")] }
      (.coin (exampleNamed "second")) exampleGroupWallet := by
    refine ⟨?_, rfl⟩
    intro old h
    have gone : (Record.ofList [("first", exampleNamed "first")]).get? "second" = none := by
      decide +kernel
    cases gone.symm.trans h
  exact ((Run.start.next denom).next first).next second

theorem examplePubs_absent {cs : Record String CoinRecord}
    (keys : cs.keys = ["first", "second"]) (index : Nat) : cs.get? (examplePubs index) = none := by
  cases h : cs.get? (examplePubs index) with
  | none => rfl
  | some c =>
    have mem := (Record.mem_keys_iff cs _).mpr ⟨c, h⟩
    rw [keys] at mem
    have letters : ∀ letter ∈ (examplePubs index).toList, letter = 'x' := by
      rw [examplePubs, String.toList_ofList]
      exact fun letter isLetter => eq_of_mem_replicate isLetter
    rcases mem_cons.mp mem with isFirst | isSecond
    · rw [isFirst] at letters
      cases letters 'f' (by decide)
    · rw [mem_singleton.mp isSecond] at letters
      cases letters 's' (by decide)

/-- One coin of the group is refreshed, and counted again with its group. -/
theorem refreshed_coin_counted_twice : ∃ events wallet, Run BalanceStep .empty events wallet ∧
      wallet.expectedAvailable "KUDOS" = (AmountJson.ofValue 20).units ∧
      available wallet "KUDOS" = (AmountJson.ofValue 30).units := by
  have reveals : exampleRevealed.isSome := by decide +kernel
  obtain ⟨revealed, isRevealed⟩ := isSome_iff_exists.mp reveals
  obtain ⟨melted, isMelted, reveal⟩ := bind_eq_some_iff.mp isRevealed
  obtain ⟨started, isStarted, melt⟩ := bind_eq_some_iff.mp isMelted
  obtain ⟨grouped, isGrouped, start⟩ := bind_eq_some_iff.mp isStarted
  have ready : exampleMelted.map (fun wallet => (wallet.coins.keys,
      (wallet.refreshing "group" 0).map fun found =>
        (found.2.status, found.2.refreshSession.bind RefreshSessionRecord.norevealIndex))) =
        some (["first", "second"], some (.pending, some 0)) := by decide +kernel
  have balances : exampleRevealed.map (fun wallet =>
      (wallet.expectedAvailable "KUDOS", available wallet "KUDOS")) =
        some ((AmountJson.ofValue 20).units, (AmountJson.ofValue 30).units) := by decide +kernel
  rw [isMelted] at ready
  rw [isRevealed] at balances
  obtain ⟨keys, ready⟩ := Prod.mk.inj (Option.some.inj ready)
  obtain ⟨expected, isAvailable⟩ := Prod.mk.inj (Option.some.inj balances)
  obtain ⟨⟨rg, refreshing⟩, found, ready⟩ := map_eq_some_iff.mp ready
  obtain ⟨pending, melted'⟩ := Prod.mk.inj ready
  obtain ⟨session, isSession, index⟩ := bind_eq_some_iff.mp melted'
  have groups : BalanceStep exampleGroupWallet
      (.createRefreshGroup exampleSurroundings "group" ["first", "second"]) grouped :=
    ⟨rfl, isGrouped⟩
  have starts : BalanceStep grouped (.createSession exampleSurroundings "group" 0) started := start
  have melts : BalanceStep started (.melt 0 "group" 0) melted := melt
  have reveals : BalanceStep melted (.reveal 2000 examplePubs "group" 0) revealed := by
    refine ⟨⟨rg, refreshing, session, found, ?_, isSession, ?_⟩, ?_, examplePubs_injective, reveal⟩
    · rw [pending]
      exact nofun
    · rw [index]
      rfl
    · exact examplePubs_absent keys
  exact ⟨_, revealed, (((exampleGroupWallet_run.next groups).next starts).next melts).next reveals,
    expected, isAvailable⟩

end Example

end Anastasis.Wallet
