import Anastasis.Wallet.RefreshSessions

/-! Refresh groups over whole runs: their sessions are kept and their coins are written once. -/

set_option autoImplicit false

namespace Anastasis.Wallet.Refreshing

open Library Library.Transition AmountJson Planchets List Option

def RefreshGroup.TimestampSound (rg : RefreshGroup) : Prop :=
  rg.timestampFinished.isSome ↔ ∀ coin ∈ rg.coins, coin.status = .finished

def SessionKept (before after : Option RefreshSession) : Prop :=
  ∀ session, before = some session → ∃ session', after = some session' ∧
    session'.sessionSecretSeed = session.sessionSecretSeed ∧
    session'.newDenoms = session.newDenoms

theorem SessionKept.refl (session : Option RefreshSession) : SessionKept session session := by
  intro h isF
  exact ⟨h, isF, rfl, rfl⟩

theorem SessionKept.trans {first y third : Option RefreshSession}
    (early : SessionKept first y) (late : SessionKept y third) : SessionKept first third := by
  intro ses isFirst
  obtain ⟨session', isSecond, seed, ds⟩ := early ses isFirst
  obtain ⟨session'', isThird, seed', denoms'⟩ := late session' isSecond
  exact ⟨session'', isThird, seed'.trans seed, denoms'.trans ds⟩

structure GroupMove (coinIndex : Nat) (rg rg' : RefreshGroup)
    (change : RefreshCoin → RefreshCoin) : Prop where
  coins : rg'.coins = rg.coins.modify coinIndex change
  kept : ∀ coin, rg.coins[coinIndex]? = some coin →
    SessionKept coin.refreshSession (change coin).refreshSession
  timestamp : rg.TimestampSound → rg'.TimestampSound

namespace RefreshGroup

variable {now coinIndex idx : Nat} {rg rg' : RefreshGroup}

@[simp] theorem updateGroupStatus_coins : (rg.updateGroupStatus now).coins = rg.coins := by
  unfold updateGroupStatus
  dsimp only
  split
  · split <;> rfl
  · rfl

theorem updateGroupStatus_timestamp
    (early : rg.timestampFinished.isSome → ∀ c ∈ rg.coins, c.status = .finished) :
    (rg.updateGroupStatus now).TimestampSound := by
  have todo : (¬ ∀ c ∈ rg.coins, c.status = .finished) → rg.TimestampSound := by
    intro some'
    exact ⟨early, fun all => absurd all some'⟩
  unfold updateGroupStatus
  dsimp only
  split
  next allDone =>
    have done := List.all_eq_true.mp allDone
    split
    next anyFrozen =>
      obtain ⟨c, mem, frozen⟩ := List.any_eq_true.mp anyFrozen
      apply todo
      intro all
      have isFrozen := of_decide_eq_true frozen
      rw [all c mem] at isFrozen
      cases isFrozen
    next noFrozen =>
      constructor
      · intro _ c mem
        have isDone := done c mem
        cases status : c.status with
        | finished => rfl
        | pending =>
          rw [status] at isDone
          cases isDone
        | frozen =>
          exact absurd (List.any_eq_true.mpr ⟨c, mem, by simp [status]⟩) noFrozen
      · intro _
        rfl
  next notDone =>
    apply todo
    intro all
    apply notDone
    apply List.all_eq_true.mpr
    intro c mem
    rw [all c mem]
    rfl

theorem mem_modify {change : RefreshCoin → RefreshCoin} {cs : List RefreshCoin}
    {coin' : RefreshCoin} (mem : coin' ∈ cs.modify idx change) :
    coin' ∈ cs ∨ ∃ coin, cs[idx]? = some coin ∧ coin' = change coin := by
  obtain ⟨index, h⟩ := mem_iff_getElem?.mp mem
  rw [getElem?_modify] at h
  obtain ⟨coin, isC, changed⟩ := map_eq_some_iff.mp h
  split at changed
  next eq =>
    subst eq
    exact .inr ⟨coin, isC, changed.symm⟩
  next =>
    cases changed
    exact .inl (mem_of_getElem? isC)

theorem finishCoin_move : GroupMove idx rg (rg.finishCoin now idx)
    fun coin => { coin with status := .finished } := by
  constructor
  · rw [finishCoin, updateGroupStatus_coins]
    rfl
  · intro coin _
    exact .refl _
  intro sound
  apply updateGroupStatus_timestamp
  intro ended coin mem
  cases mem_modify mem with
  | inl old => exact sound.mp ended coin old
  | inr changed =>
    obtain ⟨_, -, isChanged⟩ := changed
    rw [isChanged]

theorem changeCoin_move {change : RefreshCoin → RefreshCoin} (kept : ∀ c, rg.coins[idx]? = some c →
      SessionKept c.refreshSession (change c).refreshSession)
    (st : ∀ c, (change c).status = c.status) :
    GroupMove idx rg (rg.changeCoin idx change) change := by
  refine ⟨rfl, kept, ?_⟩
  intro sound
  refine Iff.trans sound ?_
  have statuses : (rg.coins.modify idx change).map RefreshCoin.status =
      rg.coins.map RefreshCoin.status := by
    apply ext_getElem?
    intro index
    rw [getElem?_map, getElem?_map, getElem?_modify, Option.map_eq_map, Option.map_map]
    congr 1
    funext c
    by_cases eq : idx = index <;> simp [eq, st]
  have all : ∀ cs : List RefreshCoin, (∀ c ∈ cs, c.status = .finished) ↔
      ∀ st ∈ cs.map RefreshCoin.status, st = .finished := by
    simp
  rw [all, all, changeCoin, statuses]

theorem storeSession_move {ses : RefreshSession} (kept : rg.storeSession idx ses = some rg') :
    GroupMove idx rg rg' fun coin => { coin with refreshSession := some ses } := by
  unfold storeSession at kept
  split at kept
  next => cases kept
  next none =>
    cases kept
    apply changeCoin_move
    · intro coin isC old isOld
      apply absurd _ none
      rw [RefreshGroup.session, isC, bind_some, isOld]
      rfl
    · intro coin
      rfl

theorem freezeCoin_move {err : String} (frozen : rg.freezeCoin now idx err = some rg') :
    GroupMove idx rg rg' fun coin => { coin with status := .frozen, lastError := some err } := by
  unfold freezeCoin at frozen
  split at frozen
  next => cases frozen
  next todo =>
    split at frozen
    next => cases frozen
    next =>
      cases frozen
      constructor
      · rw [updateGroupStatus_coins]
        rfl
      · intro coin _
        exact .refl _
      intro _
      apply updateGroupStatus_timestamp
      intro ended
      exact absurd ended todo

theorem storeNorevealIndex_move {norevealIndex : Nat}
    (kept : rg.storeNorevealIndex idx norevealIndex = some rg') : ∃ rs, rg.session idx = some rs ∧
      GroupMove idx rg rg' fun coin =>
        { coin with refreshSession := some { rs with norevealIndex := some norevealIndex } } := by
  unfold storeNorevealIndex at kept
  split at kept
  next => cases kept
  next =>
    cases isSession : rg.session idx with
    | none =>
      rw [isSession] at kept
      cases kept
    | some rs =>
      rw [isSession] at kept
      dsimp only at kept
      split at kept
      next => cases kept
      next =>
        cases kept
        refine ⟨rs, rfl, ?_⟩
        apply changeCoin_move
        · intro coin isC old isOld
          rw [RefreshGroup.session, isC, bind_some, isOld] at isSession
          cases isSession
          exact ⟨_, rfl, rfl, rfl⟩
        · intro coin
          rfl

end RefreshGroup

def RefreshCoin.isWritten (coin : RefreshCoin) : Bool :=
  coin.status = .finished ∧ coin.refreshSession.isSome

def Point.Knows (coin : RefreshCoin) : Point → Prop
  | .refreshCreateSession | .updateExchange _ _ | .selectDenominations _ _ _
  | .finishUnwarranted | .storeSession _ => coin.status = .pending ∧ coin.refreshSession = none
  | .sessionCreated =>
    coin.status = .pending ∨ coin.status = .finished ∧ coin.refreshSession = none
  | .refreshMelt | .meltRequest _ | .meltAnswer | .freezeCoin _ | .storeNorevealIndex _ =>
    coin.status = .pending ∧ ∃ rs, coin.refreshSession = some rs ∧ rs.norevealIndex = none
  | .refreshReveal =>
    ∃ rs, coin.refreshSession = some rs ∧
      (coin.status = .pending ∨ coin.status = .frozen ∧ rs.norevealIndex = none)
  | .revealRequest reveal | .revealAnswer reveal | .revealCoins reveal _ _ _
  | .storeCoins reveal _ =>
    coin.status = .pending ∧ coin.refreshSession = some reveal.d.session
  | .processRefreshSession | .failed _ | .finished => True

/-- Each new coin has the denomination and the planchet of its place. -/
structure CoinsMatch (host : RefreshHost) (planchets : List Planchet) (denoms : List String)
    (coins : List Coin) : Prop where
  length : coins.length = denoms.length
  matching : ∀ (index : Nat) (coin : Coin), coins[index]? = some coin →
    denoms[index]? = some coin.denomPubHash ∧
    ∃ planchet evSig, planchets[index]? = some planchet ∧
      coin.coinPub = planchet.publicKey ∧ coin.coinPriv = planchet.privateKey ∧
      coin.blindingKey = planchet.blindingKey ∧
      coin.denomSig = host.rsaUnblind evSig planchet.blindingKey coin.denomPub

/-- The data of a session that is revealed come from the session itself. -/
structure Reveal.Sound (host : RefreshHost) (reveal : Reveal) : Prop where
  melted : reveal.d.session.norevealIndex = some reveal.norevealIndex
  derived : ∃ derived, reveal.d.derive host = some derived ∧
    derived.planchetsForGammas[reveal.norevealIndex]? = some reveal.planchets
  denoms : reveal.d.newCoinDenoms.map (fun d => (d.1, d.2.denomPubHash)) =
    reveal.d.session.newDenoms

def Known (denominations : Record (String × String) Denomination) (exchangeBaseUrl : String)
    (denoms : List String) : Prop :=
  ∀ denomPubHash ∈ denoms, (denominations.get? (exchangeBaseUrl, denomPubHash)).isSome

def Point.Sound (host : RefreshHost) (denominations : Record (String × String) Denomination) :
    Point → Prop
  | .revealRequest reveal | .revealAnswer reveal =>
    reveal.Sound host ∧ Known denominations reveal.d.oldCoin.exchangeBaseUrl
      (units reveal.d.session.newDenoms)
  | .revealCoins reveal _ rest coins =>
    reveal.Sound host ∧ ∃ denoms, units reveal.d.session.newDenoms = denoms ++ rest ∧
      CoinsMatch host reveal.planchets denoms coins ∧
      Known denominations reveal.d.oldCoin.exchangeBaseUrl rest
  | .storeCoins reveal coins =>
    reveal.Sound host ∧
      CoinsMatch host reveal.planchets (units reveal.d.session.newDenoms) coins
  | _ => True

def Keyed (denominations : Record (String × String) Denomination) : Prop :=
  ∀ key denom, denominations.get? key = some denom → denom.key = key

def RefreshWallet.coinOf (wallet : RefreshWallet) (refreshGroupId : String) (coinIndex : Nat) :
    Option RefreshCoin :=
  (wallet.refreshGroups.get? refreshGroupId).bind fun rg => rg.coins[coinIndex]?

inductive Move (host : RefreshHost) (wallet : RefreshWallet) (refreshGroupId : String)
    (coinIndex : Nat) : Effect → Prop where
  | goes {next : Point}
      (knows : ∀ coin, wallet.coinOf refreshGroupId coinIndex = some coin → next.Knows coin)
      (sound : next.Sound host wallet.denominations) :
      Move host wallet refreshGroupId coinIndex (.goto next)
  | changes {next : Point} {rg rg' : RefreshGroup} {change : RefreshCoin → RefreshCoin}
      (found : wallet.refreshGroups.get? refreshGroupId = some rg)
      (moved : GroupMove coinIndex rg rg' change)
      (knows : ∀ coin, rg.coins[coinIndex]? = some coin → next.Knows (change coin))
      (unwritten : ∀ coin, rg.coins[coinIndex]? = some coin →
        coin.isWritten = false ∧ (change coin).isWritten = false)
      (sound : next.Sound host wallet.denominations) :
      Move host wallet refreshGroupId coinIndex (.put rg' next)
  | melts {request : MeltRequest}
      (knows : ∀ coin, wallet.coinOf refreshGroupId coinIndex = some coin →
        Point.meltAnswer.Knows coin) :
      Move host wallet refreshGroupId coinIndex
        ⟨.meltAnswer, none, [], [.melt refreshGroupId coinIndex request]⟩
  | reveals {reveal : Reveal}
      (knows : ∀ coin, wallet.coinOf refreshGroupId coinIndex = some coin →
        (Point.revealAnswer reveal).Knows coin)
      (sound : (Point.revealAnswer reveal).Sound host wallet.denominations) :
      Move host wallet refreshGroupId coinIndex
        ⟨.revealAnswer reveal, none, [], [.reveal refreshGroupId coinIndex reveal.request]⟩
  | stores {rg : RefreshGroup} {now : Nat} {reveal : Reveal} {coins : List Coin}
      (found : wallet.refreshGroups.get? refreshGroupId = some rg)
      (knows : ∀ coin, rg.coins[coinIndex]? = some coin → (Point.storeCoins reveal coins).Knows coin)
      (session : rg.session coinIndex = some reveal.d.session)
      (sound : (Point.storeCoins reveal coins).Sound host wallet.denominations) :
      Move host wallet refreshGroupId coinIndex
        ⟨.finished, some (rg.finishCoin now coinIndex), coins,
          [.newCoins refreshGroupId coinIndex coins]⟩

section Moves

variable {host : RefreshHost} {wallet w : RefreshWallet} {refreshGroupId groupId rgId gid : String}
  {coinIndex idx : Nat} {coin c : RefreshCoin}

theorem continue_knows (has : coin.status = .pending ∨
    coin.status = .finished ∧ coin.refreshSession = none) : coin.continue.Knows coin := by
  unfold RefreshCoin.continue
  cases ses : coin.refreshSession with
  | none =>
    dsimp only
    split <;> trivial
  | some rs =>
    have due : coin.status = .pending := by
      cases has with
      | inl due => exact due
      | inr ended =>
        rw [ses] at ended
        cases ended.2
    dsimp only
    split
    next unmelted => exact ⟨due, rs, ses, isNone_iff_eq_none.mp unmelted⟩
    next => exact ⟨rs, ses, .inl due⟩

theorem continue_sound {denominations : Record (String × String) Denomination} :
    c.continue.Sound host denominations := by
  unfold RefreshCoin.continue
  split
  · split <;> trivial
  · split <;> trivial

theorem processRefreshSession_knows (unfrozen : coin.status ≠ .frozen) :
    (processRefreshSession coin).Knows coin := by
  unfold processRefreshSession
  split
  next => trivial
  next todo =>
    have pending : coin.status = .pending := by
      cases status : coin.status with
      | pending => rfl
      | finished => exact absurd status todo
      | frozen => exact absurd status unfrozen
    split
    next unstarted => exact ⟨pending, isNone_iff_eq_none.mp unstarted⟩
    next => exact continue_knows (.inl pending)

theorem refreshCreateSession_knows (has : coin.status = .pending ∧ coin.refreshSession = none) :
    (refreshCreateSession w coin).Knows coin := by
  unfold refreshCreateSession
  split
  next => exact .inl has.1
  next =>
    split
    next => trivial
    next => exact has

variable {exchangeBaseUrl url baseUrl : String}

theorem selectDenominations_knows {env : Surroundings} {rnd : String} {oldCoin : Coin}
    {busy : RefreshCoin} (has : coin.status = .pending ∧ coin.refreshSession = none) :
    (selectDenominations w env rnd oldCoin busy url).Knows coin := by
  unfold selectDenominations
  split
  next => trivial
  next =>
    split
    next => trivial
    next =>
      dsimp only
      split
      next => trivial
      next =>
        split
        next => exact has
        next => exact has

theorem refreshMelt_knows (has : coin.status = .pending ∧
    ∃ rs, coin.refreshSession = some rs ∧ rs.norevealIndex = none) :
    (refreshMelt host w coin).Knows coin := by
  obtain ⟨due, rs, isSession, unmelted⟩ := has
  have again : coin.status = .pending ∧
      ∃ rs, coin.refreshSession = some rs ∧ rs.norevealIndex = none :=
    ⟨due, rs, isSession, unmelted⟩
  unfold refreshMelt
  rw [isSession]
  dsimp only
  split
  next => exact ⟨rs, isSession, .inl due⟩
  next =>
    split
    next => trivial
    next =>
      split
      next => trivial
      next => exact again

theorem readDenoms_spec {newDenoms : List (Nat × String)}
    {newCoinDenoms : List (Nat × Denomination)} (keyed : Keyed w.denominations)
    (read : readDenoms w url newDenoms = some newCoinDenoms) :
    newCoinDenoms.map (fun d => (d.1, d.2.denomPubHash)) = newDenoms ∧
      Known w.denominations url (units newDenoms) := by
  unfold readDenoms at read
  induction newDenoms generalizing newCoinDenoms with
  | nil =>
    cases read
    exact ⟨rfl, by simp [Known]⟩
  | cons dh rest ih =>
    rw [mapM_cons] at read
    obtain ⟨x, isFirst, read⟩ := bind_eq_some_iff.mp read
    obtain ⟨ys, areOthers, read⟩ := bind_eq_some_iff.mp read
    cases read
    obtain ⟨newDenom, isDenom, isFirst⟩ := map_eq_some_iff.mp isFirst
    cases isFirst
    obtain ⟨eq, has⟩ := ih areOthers
    have hash : newDenom.denomPubHash = dh.2 := congrArg Prod.snd (keyed _ _ isDenom)
    constructor
    · rw [map_cons, eq, hash]
    intro denomPubHash mem
    rw [units_cons, mem_append] at mem
    cases mem with
    | inl x =>
      rw [eq_of_mem_replicate x, isDenom]
      rfl
    | inr later => exact has denomPubHash later

theorem readSession_spec {ses : RefreshSession} {d : SessionRead}
    (keyed : Keyed w.denominations) (read : readSession w c ses = some d) : d.session = ses ∧
      d.newCoinDenoms.map (fun d => (d.1, d.2.denomPubHash)) = ses.newDenoms ∧
      Known w.denominations d.oldCoin.exchangeBaseUrl (units ses.newDenoms) := by
  obtain ⟨oldCoin, -, read⟩ := bind_eq_some_iff.mp read
  obtain ⟨oldDenom, -, read⟩ := bind_eq_some_iff.mp read
  obtain ⟨newCoinDenoms, isRead, read⟩ := bind_eq_some_iff.mp read
  cases read
  exact ⟨rfl, readDenoms_spec keyed isRead⟩

theorem refreshReveal_knows (keyed : Keyed w.denominations) (has : ∃ rs,
    c.refreshSession = some rs ∧
      (c.status = .pending ∨ c.status = .frozen ∧ rs.norevealIndex = none)) :
    (refreshReveal host w c).Knows c ∧ (refreshReveal host w c).Sound host w.denominations := by
  obtain ⟨rs, isSession, has⟩ := has
  unfold refreshReveal
  rw [isSession]
  dsimp only
  cases melted : rs.norevealIndex with
  | none => exact ⟨trivial, trivial⟩
  | some norevealIndex =>
    have due : c.status = .pending := by
      cases has with
      | inl due => exact due
      | inr frozen =>
        rw [melted] at frozen
        cases frozen.2
    dsimp only
    split
    next => exact ⟨trivial, trivial⟩
    next d isRead =>
      split
      next => exact ⟨trivial, trivial⟩
      next reveal isReveal =>
        obtain ⟨eq, ds, has⟩ := readSession_spec keyed isRead
        obtain ⟨derived, isDerived, isReveal⟩ := bind_eq_some_iff.mp isReveal
        obtain ⟨planchets, arePlanchets, isReveal⟩ := bind_eq_some_iff.mp isReveal
        obtain ⟨transferPub, -, isReveal⟩ := bind_eq_some_iff.mp isReveal
        cases isReveal
        refine ⟨⟨due, isSession.trans (congrArg some eq.symm)⟩, ?_, ?_⟩
        · refine ⟨?_, ⟨derived, isDerived, arePlanchets⟩, ?_⟩
          · dsimp only
            rw [eq, melted]
          · dsimp only
            rw [eq, ds]
        dsimp only
        rw [eq]
        exact has

theorem CoinsMatch.append {planchets : List Planchet} {ds : List String} {cs : List Coin}
    {dn : Denomination} {plan : Planchet} {evSig coinEvHash : String}
    {coinSource : CoinSource} (matching : CoinsMatch host planchets ds cs)
    (isPlan : planchets[cs.length]? = some plan) :
    CoinsMatch host planchets (ds ++ [dn.denomPubHash])
      (cs ++ [plan.coin dn (host.rsaUnblind evSig plan.blindingKey dn.denomPub)
        url coinSource coinEvHash]) := by
  constructor
  · simp [matching.length]
  intro idx c isC
  by_cases old : idx < cs.length
  · rw [getElem?_append_left old] at isC
    rw [getElem?_append_left (matching.length ▸ old)]
    exact matching.matching idx c isC
  rw [getElem?_append_right (Nat.le_of_not_lt old)] at isC
  have last : idx = cs.length := by
    have bound := (List.getElem?_eq_some_iff.mp isC).1
    rw [length_singleton] at bound
    omega
  subst last
  rw [Nat.sub_self] at isC
  cases isC
  refine ⟨?_, plan, evSig, isPlan, rfl, rfl, rfl, rfl⟩
  rw [matching.length, getElem?_concat_length]
  rfl

theorem revealCoin_sound {reveal : Reveal} {evSigs rest : List String} {denomPubHash : String}
    {cs : List Coin} (keyed : Keyed w.denominations)
    (sound : (Point.revealCoins reveal evSigs (denomPubHash :: rest) cs).Sound host
      w.denominations) : (revealCoin host w reveal evSigs denomPubHash rest cs).Sound host
      w.denominations := by
  obtain ⟨revealed, ds, split', matching, kept⟩ := sound
  have isStored := kept denomPubHash mem_cons_self
  unfold revealCoin
  cases h : w.denominations.get? (reveal.d.oldCoin.exchangeBaseUrl, denomPubHash) with
  | none =>
    rw [h] at isStored
    cases isStored
  | some dn =>
    dsimp only
    split
    next plan evSig isPlan _ =>
      have hash : dn.denomPubHash = denomPubHash := congrArg Prod.snd (keyed _ _ h)
      refine ⟨revealed, ds ++ [denomPubHash], ?_, ?_, ?_⟩
      · rw [split', append_assoc, singleton_append]
      · rw [← hash]
        exact matching.append isPlan
      · intro later mem
        exact kept later (mem_cons_of_mem _ mem)
    next => trivial

theorem revealCoin_knows {reveal : Reveal} {evSigs rest : List String} {hash : String}
    {cs : List Coin}
    (has : coin.status = .pending ∧ coin.refreshSession = some reveal.d.session) :
    (revealCoin host w reveal evSigs hash rest cs).Knows coin := by
  unfold revealCoin
  split
  · exact has
  split
  · exact has
  · trivial

end Moves

section Advance

variable {host : RefreshHost} {wallet w : RefreshWallet} {refreshGroupId groupId rgId gid : String}
  {coinIndex idx : Nat}

theorem coinOf_eq {rg : RefreshGroup} (h : w.refreshGroups.get? gid = some rg) :
    w.coinOf gid idx = rg.coins[idx]? := by
  rw [RefreshWallet.coinOf, h, bind_some]

theorem Move.reads {missing : Point} {next : RefreshCoin → Point}
    (absentSound : missing.Sound host w.denominations) (knows : ∀ c, w.coinOf gid idx = some c →
      (next c).Knows c ∧ (next c).Sound host w.denominations) : Move host w gid idx
      (.goto ((w.coinOf gid idx).elim missing next)) := by
  cases isC : w.coinOf gid idx with
  | none =>
    apply Move.goes
    · intro c h
      rw [isC] at h
      cases h
    · exact absentSound
  | some c =>
    have has := knows c isC
    apply Move.goes
    · intro h isF
      rw [isC] at isF
      cases isF
      exact has.1
    · exact has.2

theorem Move.changed {next : Point} {change : RefreshGroup → Option RefreshGroup}
    (knows : ∀ c, w.coinOf gid idx = some c →
      next.Knows c ∨ ∀ rg, w.refreshGroups.get? gid = some rg → (change rg).isSome)
    (sound : next.Sound host w.denominations)
    (moved : ∀ rg rg', w.refreshGroups.get? gid = some rg →
      change rg = some rg' → ∃ f, GroupMove idx rg rg' f ∧
        ∀ c, rg.coins[idx]? = some c → next.Knows (f c) ∧
          c.isWritten = false ∧ (f c).isWritten = false) :
    Move host w gid idx (.change ((w.refreshGroups.get? gid).bind change) next) := by
  cases h : w.refreshGroups.get? gid with
  | none =>
    apply Move.goes
    · intro c isC
      rw [RefreshWallet.coinOf, h] at isC
      cases isC
    · exact sound
  | some rg =>
    rw [bind_some]
    cases changed : change rg with
    | none =>
      apply Move.goes
      · intro c isC
        cases knows c isC with
        | inl has => exact has
        | inr always =>
          have isSome := always rg h
          rw [changed] at isSome
          cases isSome
      · exact sound
    | some rg' =>
      obtain ⟨f, groupMove, cs⟩ := moved rg rg' h changed
      exact .changes h groupMove (fun c isC => (cs c isC).1) (fun c isC => (cs c isC).2) sound

theorem advance_move {pt : Point} {ans : Answer} {effect : Effect}
    (keyed : Keyed wallet.denominations)
    (knows : ∀ coin, wallet.coinOf gid coinIndex = some coin → pt.Knows coin)
    (sound : pt.Sound host wallet.denominations)
    (unfrozen : ∀ coin, wallet.coinOf gid coinIndex = some coin →
      pt = .processRefreshSession → coin.status ≠ .frozen)
    (r : advance host wallet gid coinIndex pt ans = some effect) :
    Move host wallet gid coinIndex effect := by
  cases ans with
  | failure err =>
    have thrown : effect = .throws err := by
      cases pt with
      | failed err => cases r
      | finished => cases r
      | _ =>
        cases r
        rfl
    rw [thrown]
    exact .goes (fun _ _ => trivial) trivial
  | exchangeUpdated url =>
    cases pt with
    | updateExchange coin refreshing =>
      cases r
      exact .goes knows trivial
    | _ => cases r
  | notFound err =>
    cases pt with
    | meltAnswer =>
      cases r
      exact .goes knows trivial
    | _ => cases r
  | melted norevealIndex =>
    cases pt with
    | meltAnswer =>
      cases r
      exact .goes knows trivial
    | _ => cases r
  | revealed evSigs =>
    cases pt with
    | revealAnswer reveal =>
      cases r
      exact .goes knows ⟨sound.1, [], rfl, ⟨rfl, by simp⟩, sound.2⟩
    | _ => cases r
  | proceed env rnd =>
    cases pt with
    | processRefreshSession =>
      cases r
      refine @Move.reads host wallet gid coinIndex .finished _ trivial ?_
      intro coin isC
      refine ⟨processRefreshSession_knows (unfrozen coin isC rfl), ?_⟩
      unfold processRefreshSession
      split
      · trivial
      split
      · trivial
      · exact continue_sound
    | refreshCreateSession =>
      cases r
      refine @Move.reads host wallet gid coinIndex .sessionCreated _ trivial ?_
      intro coin isC
      refine ⟨refreshCreateSession_knows (knows coin isC), ?_⟩
      unfold refreshCreateSession
      split
      · trivial
      · split <;> trivial
    | selectDenominations coin refreshing url =>
      cases r
      apply Move.goes
      · intro h isF
        exact selectDenominations_knows (knows h isF)
      unfold selectDenominations
      split
      · trivial
      split
      · trivial
      dsimp only
      split
      · trivial
      · split <;> trivial
    | finishUnwarranted =>
      cases r
      rw [map_eq_bind]
      apply Move.changed
      · intro coin _
        exact .inr fun rg _ => rfl
      · trivial
      intro rg rg' h changed
      cases changed
      refine ⟨_, RefreshGroup.finishCoin_move, ?_⟩
      intro coin isC
      obtain ⟨pending, unstarted⟩ := knows coin ((coinOf_eq h).trans isC)
      exact ⟨.inr ⟨rfl, unstarted⟩, by simp [RefreshCoin.isWritten, unstarted],
        by simp [RefreshCoin.isWritten, unstarted]⟩
    | storeSession ses =>
      cases r
      apply Move.changed
      · intro coin isC
        exact .inl (.inl (knows coin isC).1)
      · trivial
      intro rg rg' h changed
      refine ⟨_, RefreshGroup.storeSession_move changed, ?_⟩
      intro coin isC
      obtain ⟨pending, unstarted⟩ := knows coin ((coinOf_eq h).trans isC)
      exact ⟨.inl pending, by simp [RefreshCoin.isWritten, pending],
        by simp [RefreshCoin.isWritten, pending]⟩
    | sessionCreated =>
      cases r
      refine @Move.reads host wallet gid coinIndex .finished _ trivial ?_
      intro coin isC
      exact ⟨continue_knows (knows coin isC), continue_sound⟩
    | refreshMelt =>
      cases r
      refine @Move.reads host wallet gid coinIndex .refreshReveal _ trivial ?_
      intro coin isC
      refine ⟨refreshMelt_knows (knows coin isC), ?_⟩
      unfold refreshMelt
      split
      · trivial
      split
      · trivial
      split
      · trivial
      · split <;> trivial
    | meltRequest req =>
      cases r
      exact .melts knows
    | freezeCoin err =>
      cases r
      apply Move.changed
      · intro coin isC
        obtain ⟨pending, rs, isSession, unmelted⟩ := knows coin isC
        exact .inl ⟨rs, isSession, .inl pending⟩
      · trivial
      intro rg rg' h changed
      refine ⟨_, RefreshGroup.freezeCoin_move changed, ?_⟩
      intro coin isC
      obtain ⟨pending, rs, isSession, unmelted⟩ := knows coin ((coinOf_eq h).trans isC)
      exact ⟨⟨rs, isSession, .inr ⟨rfl, unmelted⟩⟩, by simp [RefreshCoin.isWritten, pending],
        by simp [RefreshCoin.isWritten]⟩
    | storeNorevealIndex norevealIndex =>
      cases r
      apply Move.changed
      · intro coin isC
        obtain ⟨pending, rs, isSession, unmelted⟩ := knows coin isC
        exact .inl ⟨rs, isSession, .inl pending⟩
      · trivial
      intro rg rg' h changed
      obtain ⟨rs, -, moved⟩ := RefreshGroup.storeNorevealIndex_move changed
      refine ⟨_, moved, ?_⟩
      intro coin isC
      obtain ⟨pending, -⟩ := knows coin ((coinOf_eq h).trans isC)
      exact ⟨⟨_, rfl, .inl pending⟩, by simp [RefreshCoin.isWritten, pending],
        by simp [RefreshCoin.isWritten, pending]⟩
    | refreshReveal =>
      cases r
      refine @Move.reads host wallet gid coinIndex .finished _ trivial ?_
      intro coin isC
      exact refreshReveal_knows keyed (knows coin isC)
    | revealRequest reveal =>
      cases r
      exact .reveals knows sound
    | revealCoins reveal evSigs rest cs =>
      cases rest with
      | nil =>
        cases r
        obtain ⟨revealed, ds, split', matching, -⟩ := sound
        rw [append_nil] at split'
        subst split'
        exact .goes knows ⟨revealed, matching⟩
      | cons hash rest =>
        cases r
        apply Move.goes
        · intro coin isC
          exact revealCoin_knows (knows coin isC)
        · exact revealCoin_sound keyed sound
    | storeCoins reveal cs =>
      unfold advance at r
      cases h : wallet.refreshGroups.get? gid with
      | none =>
        rw [h] at r
        cases r
        exact .goes (fun _ _ => trivial) trivial
      | some rg =>
        rw [h] at r
        dsimp only at r
        split at r
        next =>
          cases r
          exact .goes (fun _ _ => trivial) trivial
        next st =>
          cases r
          have has : ∀ coin, rg.coins[coinIndex]? = some coin →
              (Point.storeCoins reveal cs).Knows coin := by
            intro coin isC
            exact knows coin ((coinOf_eq h).trans isC)
          apply Move.stores h has
          · cases isC : rg.coins[coinIndex]? with
            | none => simp [RefreshGroup.session, isC] at st
            | some coin =>
              rw [RefreshGroup.session, isC]
              exact (has coin isC).2
          · exact sound
    | _ => cases r

end Advance

def Point.isStart : Point → Bool
  | .processRefreshSession => true
  | _ => false

def Point.atWork : Point → Bool
  | .processRefreshSession | .failed _ | .finished => false
  | _ => true

def Session.sameCoin (session other : Session) : Prop :=
  session.refreshGroupId = other.refreshGroupId ∧ session.coinIndex = other.coinIndex

/-- A session is started on a coin that is not finished only when the coin is not frozen and no
other session is at work on it. -/
def Careful (wallet : RefreshWallet) : RefreshEvent → Prop
  | .session index _ =>
    ∀ session coin, wallet.sessions[index]? = some session → session.point.isStart →
      wallet.coinOf session.refreshGroupId session.coinIndex = some coin →
      coin.status ≠ .finished →
      coin.status ≠ .frozen ∧
        ∀ other ∈ wallet.sessions, other.point.atWork → ¬ other.sameCoin session
  | _ => True

def Trace.writes (refreshGroupId : String) (coinIndex : Nat) : Trace → Bool
  | .newCoins found index _ => found = refreshGroupId ∧ index = coinIndex
  | _ => false

def RefreshWallet.writes (wallet : RefreshWallet) (refreshGroupId : String) (coinIndex : Nat) :
    Nat :=
  wallet.log.countP (Trace.writes refreshGroupId coinIndex)

def NewCoinsMatch (host : RefreshHost) (session : RefreshSession) (coins : List Coin) : Prop :=
  ∃ (d : SessionRead) (norevealIndex : Nat) (derived : DerivedRefreshSession)
    (planchets : List Planchet),
    d.session = session ∧ session.norevealIndex = some norevealIndex ∧
    d.newCoinDenoms.map (fun d => (d.1, d.2.denomPubHash)) = session.newDenoms ∧
    d.derive host = some derived ∧
    derived.planchetsForGammas[norevealIndex]? = some planchets ∧
    CoinsMatch host planchets (units session.newDenoms) coins

def Trace.Sound (host : RefreshHost) (wallet next : RefreshWallet) : Trace → Prop
  | .created _ => True
  | .melt refreshGroupId coinIndex _ | .reveal refreshGroupId coinIndex _ =>
    ∀ coin, wallet.coinOf refreshGroupId coinIndex = some coin → coin.status = .pending
  | .newCoins refreshGroupId coinIndex coins =>
    next.coins = RefreshWallet.putCoins coins wallet.coins ∧
    ∃ coin coin' session, wallet.coinOf refreshGroupId coinIndex = some coin ∧
      next.coinOf refreshGroupId coinIndex = some coin' ∧
      coin.status = .pending ∧ coin'.status = .finished ∧
      coin.refreshSession = some session ∧ coin'.refreshSession = some session ∧
      NewCoinsMatch host session coins

/-- Refresh groups are processed as they should be, in a wallet and from it on. -/
structure ProcessedSafely (host : RefreshHost)
    (step : RefreshWallet → RefreshEvent → RefreshWallet → Prop) (wallet : RefreshWallet) :
    Prop where
  sessions : ∀ events later refreshGroupId rg rg', Run step wallet events later →
    wallet.refreshGroups.get? refreshGroupId = some rg →
    later.refreshGroups.get? refreshGroupId = some rg' →
    ∀ coinIndex, SessionKept (rg.session coinIndex) (rg'.session coinIndex)
  once : ∀ refreshGroupId coinIndex, wallet.writes refreshGroupId coinIndex ≤ 1
  written : ∀ refreshGroupId coinIndex coin,
    wallet.coinOf refreshGroupId coinIndex = some coin →
    wallet.writes refreshGroupId coinIndex = if coin.isWritten then 1 else 0
  timestamps : ∀ refreshGroupId rg, wallet.refreshGroups.get? refreshGroupId = some rg →
    rg.TimestampSound
  entries : ∀ event next, step wallet event next →
    ∃ added, next.log = wallet.log ++ added ∧ ∀ entry ∈ added, entry.Sound host wallet next

structure Settled (host : RefreshHost) (wallet : RefreshWallet) : Prop where
  keyed : Keyed wallet.denominations
  created : ∀ refreshGroupId rg, wallet.refreshGroups.get? refreshGroupId = some rg →
    .created refreshGroupId ∈ wallet.log
  logged : ∀ refreshGroupId coinIndex coins, .newCoins refreshGroupId coinIndex coins ∈ wallet.log →
    .created refreshGroupId ∈ wallet.log
  timestamps : ∀ refreshGroupId rg, wallet.refreshGroups.get? refreshGroupId = some rg →
    rg.TimestampSound
  once : ∀ refreshGroupId coinIndex, wallet.writes refreshGroupId coinIndex ≤ 1
  written : ∀ refreshGroupId coinIndex coin,
    wallet.coinOf refreshGroupId coinIndex = some coin →
    wallet.writes refreshGroupId coinIndex = if coin.isWritten then 1 else 0
  started : ∀ session ∈ wallet.sessions, .created session.refreshGroupId ∈ wallet.log
  knows : ∀ session ∈ wallet.sessions, ∀ coin,
    wallet.coinOf session.refreshGroupId session.coinIndex = some coin → session.point.Knows coin
  sound : ∀ session ∈ wallet.sessions, session.point.Sound host wallet.denominations
  alone : ∀ (index other : Nat) (session session' : Session),
    wallet.sessions[index]? = some session → wallet.sessions[other]? = some session' →
    session.point.atWork → session'.point.atWork → session.sameCoin session' → index = other

theorem Point.Knows.idle {pt : Point} (idle : pt.atWork = false) (coin : RefreshCoin) :
    pt.Knows coin := by
  cases pt with
  | processRefreshSession => trivial
  | failed err => trivial
  | finished => trivial
  | _ => cases idle

theorem Known.mono {dns denominations' : Record (String × String) Denomination}
    {exchangeBaseUrl : String} {denoms : List String}
    (grown : ∀ key, (dns.get? key).isSome → (denominations'.get? key).isSome)
    (has : Known dns exchangeBaseUrl denoms) : Known denominations' exchangeBaseUrl denoms := by
  intro hash mem
  exact grown _ (has hash mem)

theorem Point.Sound.mono {host : RefreshHost} {pt : Point}
    {dns denominations' : Record (String × String) Denomination}
    (grown : ∀ key, (dns.get? key).isSome → (denominations'.get? key).isSome)
    (sound : pt.Sound host dns) : pt.Sound host denominations' := by
  cases pt with
  | revealRequest reveal => exact ⟨sound.1, sound.2.mono grown⟩
  | revealAnswer reveal => exact ⟨sound.1, sound.2.mono grown⟩
  | revealCoins reveal evSigs rest cs =>
    obtain ⟨revealed, ds, parts, matching, has⟩ := sound
    exact ⟨revealed, ds, parts, matching, has.mono grown⟩
  | storeCoins reveal cs => exact sound
  | _ => trivial

section Settled

variable {host : RefreshHost} {wallet w next : RefreshWallet}

theorem settled_start : Settled host .start := by
  constructor
  · intro key dn h
    cases h
  · intro gid rg h
    cases h
  · intro gid idx cs mem
    cases mem
  · intro gid rg h
    cases h
  · intro gid idx
    exact Nat.zero_le 1
  · intro gid idx c h
    cases h
  · intro ses mem
    cases mem
  · intro ses mem
    cases mem
  · intro ses mem
    cases mem
  · intro index y ses session' h
    cases h

/-- No step of a session: sessions may be started or lost, and groups deleted. -/
structure CoinsKept (wallet next : RefreshWallet) : Prop where
  denominations : next.denominations = wallet.denominations
  log : next.log = wallet.log
  sessions : ∀ (index : Nat) (session : Session), next.sessions[index]? = some session →
    wallet.sessions[index]? = some session ∨ session.point = .processRefreshSession ∧
      ∃ rg, wallet.refreshGroups.get? session.refreshGroupId = some rg
  groups : ∀ refreshGroupId rg', next.refreshGroups.get? refreshGroupId = some rg' →
    ∃ rg, wallet.refreshGroups.get? refreshGroupId = some rg ∧ rg'.coins = rg.coins ∧
      rg'.timestampFinished = rg.timestampFinished

theorem CoinsKept.refl (w : RefreshWallet) : CoinsKept w w := by
  constructor
  · rfl
  · rfl
  · intro idx ses h
    exact .inl h
  · intro gid rg h
    exact ⟨rg, h, rfl, rfl⟩

theorem Settled.kept (met : Settled host w) (kept : CoinsKept w next) : Settled host next := by
  obtain ⟨ds, log, sessions, groups⟩ := kept
  have cs : ∀ refreshGroupId coinIndex coin,
      next.coinOf refreshGroupId coinIndex = some coin →
      w.coinOf refreshGroupId coinIndex = some coin := by
    intro refreshGroupId coinIndex coin h
    obtain ⟨rg', isGroup, isC⟩ := bind_eq_some_iff.mp h
    obtain ⟨rg, wasGroup, eq, -⟩ := groups refreshGroupId rg' isGroup
    rw [coinOf_eq wasGroup, ← eq]
    exact isC
  have writes : ∀ refreshGroupId coinIndex,
      next.writes refreshGroupId coinIndex = w.writes refreshGroupId coinIndex := by
    intro refreshGroupId coinIndex
    rw [RefreshWallet.writes, log, RefreshWallet.writes]
  constructor
  · rw [ds]
    exact met.keyed
  · intro refreshGroupId rg' h
    obtain ⟨rg, wasGroup, -⟩ := groups refreshGroupId rg' h
    rw [log]
    exact met.created refreshGroupId rg wasGroup
  · rw [log]
    exact met.logged
  · intro refreshGroupId rg' h
    obtain ⟨rg, wasGroup, sameCoins, sameTime⟩ := groups refreshGroupId rg' h
    rw [RefreshGroup.TimestampSound, sameCoins, sameTime]
    exact met.timestamps refreshGroupId rg wasGroup
  · intro refreshGroupId coinIndex
    rw [writes]
    exact met.once refreshGroupId coinIndex
  · intro refreshGroupId coinIndex coin h
    rw [writes]
    exact met.written refreshGroupId coinIndex coin (cs _ _ _ h)
  · intro session mem
    obtain ⟨idx, isSession⟩ := mem_iff_getElem?.mp mem
    rw [log]
    cases sessions idx session isSession with
    | inl old => exact met.started session (mem_of_getElem? old)
    | inr start =>
      obtain ⟨-, rg, isGroup⟩ := start
      exact met.created session.refreshGroupId rg isGroup
  · intro session mem coin h
    obtain ⟨idx, isSession⟩ := mem_iff_getElem?.mp mem
    cases sessions idx session isSession with
    | inl old =>
      exact met.knows session (mem_of_getElem? old) coin (cs _ _ _ h)
    | inr start =>
      rw [start.1]
      trivial
  · intro session mem
    obtain ⟨idx, isSession⟩ := mem_iff_getElem?.mp mem
    rw [ds]
    cases sessions idx session isSession with
    | inl old => exact met.sound session (mem_of_getElem? old)
    | inr start =>
      rw [start.1]
      trivial
  · intro idx y session session' isSession isO working otherWorking
    have old : w.sessions[idx]? = some session := by
      cases sessions idx session isSession with
      | inl old => exact old
      | inr start =>
        rw [start.1] at working
        cases working
    have otherOld : w.sessions[y]? = some session' := by
      cases sessions y session' isO with
      | inl old => exact old
      | inr start =>
        rw [start.1] at otherWorking
        cases otherWorking
    exact met.alone idx y session session' old otherOld working otherWorking

theorem changeGroup_coins {gid : String} {change : RefreshGroup → RefreshGroup}
    (cs : ∀ rg, (change rg).coins = rg.coins)
    (timestamp : ∀ rg, (change rg).timestampFinished = rg.timestampFinished)
    (otherGroupId : String) (rg' : RefreshGroup)
    (h : (w.changeGroup gid change).refreshGroups.get? otherGroupId = some rg') :
    ∃ rg, w.refreshGroups.get? otherGroupId = some rg ∧ rg'.coins = rg.coins ∧
      rg'.timestampFinished = rg.timestampFinished := by
  unfold RefreshWallet.changeGroup at h
  cases isGroup : w.refreshGroups.get? gid with
  | none =>
    rw [isGroup] at h
    exact ⟨rg', h, rfl, rfl⟩
  | some rg =>
    rw [isGroup] at h
    rw [Record.get?_set] at h
    split at h
    next eq =>
      cases h
      exact ⟨rg, eq ▸ isGroup, cs rg, timestamp rg⟩
    next => exact ⟨rg', h, rfl, rfl⟩

theorem changeGroup_rest (gid : String) (change : RefreshGroup → RefreshGroup) :
    (w.changeGroup gid change).denominations = w.denominations ∧
    (w.changeGroup gid change).log = w.log ∧ (w.changeGroup gid change).sessions = w.sessions := by
  unfold RefreshWallet.changeGroup
  split
  · exact ⟨rfl, rfl, rfl⟩
  · exact ⟨rfl, rfl, rfl⟩

theorem process_kept {gid : String} {forceNow : Bool} : CoinsKept w (w.process gid forceNow) := by
  unfold RefreshWallet.process
  split
  · exact .refl w
  · have eq := CoinsKept.refl w
    exact ⟨rfl, rfl, eq.sessions, eq.groups⟩

theorem changeGroup_kept {gid : String} {change : RefreshGroup → RefreshGroup}
    {idx : Nat} {call : Call} {pt : CallPoint} (cs : ∀ rg, (change rg).coins = rg.coins)
    (timestamp : ∀ rg, (change rg).timestampFinished = rg.timestampFinished) :
    CoinsKept w ((w.changeGroup gid change).setCall idx call pt) := by
  obtain ⟨ds, log, sessions⟩ := @changeGroup_rest w gid change
  constructor
  · exact ds
  · exact log
  · intro idx ses h
    rw [RefreshWallet.setCall, sessions] at h
    exact .inl h
  · intro otherGroupId rg' h
    exact changeGroup_coins cs timestamp otherGroupId rg' h

theorem advanceCall_kept {index : Nat} {call : Call}
    (r : wallet.advanceCall index call = some next) : CoinsKept wallet next := by
  have setCall : ∀ pt, CoinsKept wallet (wallet.setCall index call pt) := by
    intro pt
    have eq := CoinsKept.refl wallet
    exact ⟨rfl, rfl, eq.sessions, eq.groups⟩
  unfold RefreshWallet.advanceCall at r
  cases isPoint : call.point with
  | resetRefreshGroupRetry =>
    rw [isPoint] at r
    cases r
    exact changeGroup_kept (fun _ => rfl) fun _ => rfl
  | processRefreshGroupImpl =>
    rw [isPoint] at r
    dsimp only at r
    split at r
    next =>
      cases r
      exact setCall .finished
    next rg isGroup =>
      split at r
      next =>
        cases r
        exact setCall .finished
      next =>
        cases r
        have eq := CoinsKept.refl wallet
        refine ⟨rfl, rfl, ?_, eq.groups⟩
        intro index ses h
        rw [RefreshWallet.setCall] at h
        by_cases earlier : index < wallet.sessions.length
        · rw [getElem?_append_left earlier] at h
          exact .inl h
        rw [getElem?_append_right (Nat.le_of_not_lt earlier)] at h
        obtain ⟨idx, -, isSession⟩ := List.mem_map.mp (mem_of_getElem? h)
        exact .inr ⟨isSession ▸ rfl, rg, isSession ▸ isGroup⟩
  | waiting sessions =>
    rw [isPoint] at r
    dsimp only at r
    split at r
    next err _ =>
      cases r
      exact setCall (.failed err)
    next =>
      split at r
      next =>
        cases r
        exact setCall .finished
      next => cases r
  | failed err =>
    rw [isPoint] at r
    cases r
    exact changeGroup_kept (fun _ => rfl) fun _ => rfl
  | finished =>
    rw [isPoint] at r
    cases r

theorem takeCoins_spec {env : Surroundings} : ∀ {oldCoinPubs : List String}
    {wallet next : RefreshWallet} {coins : List RefreshCoin},
    takeCoins env oldCoinPubs wallet = some (coins, next) →
    (∃ kept, next = { wallet with coins := kept }) ∧ coins.length = oldCoinPubs.length ∧
      ∀ c ∈ coins, c.status = .pending ∧ c.refreshSession = none := by
  intro oldCoinPubs
  induction oldCoinPubs with
  | nil =>
    intro wallet next coins r
    cases r
    exact ⟨⟨_, rfl⟩, rfl, by simp⟩
  | cons pub rest ih =>
    intro wallet next coins r
    obtain ⟨⟨busy, mid⟩, taken, r⟩ := bind_eq_some_iff.mp r
    obtain ⟨⟨more, last⟩, ys, r⟩ := bind_eq_some_iff.mp r
    cases r
    obtain ⟨⟨kept, isNext⟩, length, due⟩ := ih ys
    obtain ⟨c, -, taken⟩ := bind_eq_some_iff.mp taken
    obtain ⟨dn, -, taken⟩ := bind_eq_some_iff.mp taken
    obtain ⟨_, -, taken⟩ := bind_eq_some_iff.mp taken
    obtain ⟨cost, -, taken⟩ := bind_eq_some_iff.mp taken
    cases taken
    refine ⟨⟨kept, isNext⟩, congrArg Nat.succ length, ?_⟩
    intro h mem
    cases mem_cons.mp mem with
    | inl x =>
      rw [x]
      exact ⟨rfl, rfl⟩
    | inr later => exact due h later

theorem Settled.putDenomination (met : Settled host wallet) (dn : Denomination) :
    Settled host { wallet with denominations := wallet.denominations.set dn.key dn } := by
  obtain ⟨keyed, made, logged, timestamps, once, written, st, knows, sound, alone⟩ := met
  refine ⟨?_, made, logged, timestamps, once, written, st, knows, ?_, alone⟩
  · intro key h isF
    rw [Record.get?_set] at isF
    split at isF
    next eq =>
      cases isF
      exact eq.symm
    next => exact keyed key h isF
  · intro ses mem
    refine (sound ses mem).mono ?_
    intro key isKnown
    rw [Record.get?_set]
    split
    · rfl
    · exact isKnown

theorem restarted_kept : CoinsKept wallet { wallet with sessions := [], calls := [] } := by
  refine ⟨rfl, rfl, ?_, (CoinsKept.refl wallet).groups⟩
  intro idx ses h
  cases h

theorem deleted_kept (gid : String) : CoinsKept wallet
      { wallet with refreshGroups := wallet.refreshGroups.erase gid } := by
  refine ⟨rfl, rfl, (CoinsKept.refl wallet).sessions, ?_⟩
  intro otherGroupId rg h
  rw [Record.get?_erase] at h
  split at h
  next => cases h
  next => exact ⟨rg, h, rfl, rfl⟩

theorem stored_kept (kept : Record String Coin) :
    CoinsKept wallet { wallet with coins := kept } := by
  have eq := CoinsKept.refl wallet
  exact ⟨rfl, rfl, eq.sessions, eq.groups⟩

theorem Settled.created_group (met : Settled host w) {gid : String}
    {kept : Record String Coin} {rg : RefreshGroup}
    (unused : .created gid ∉ w.log) (timestamp : rg.TimestampSound)
    (due : ∀ c ∈ rg.coins, c.status = .pending ∧ c.refreshSession = none) :
    Settled host { w with
        coins := kept
        refreshGroups := w.refreshGroups.set gid rg
        log := w.log ++ [.created gid] } := by
  have unwritten : ∀ coinIndex, w.writes gid coinIndex = 0 := by
    intro coinIndex
    apply countP_eq_zero.mpr
    intro e mem isEntry
    cases e with
    | newCoins h idx coins =>
      obtain ⟨eq, -⟩ := of_decide_eq_true isEntry
      subst eq
      exact unused (met.logged h idx coins mem)
    | _ => cases isEntry
  have writes : ∀ otherGroupId coinIndex,
      (w.log ++ [Trace.created gid]).countP (Trace.writes otherGroupId coinIndex) =
        w.writes otherGroupId coinIndex := by
    intro otherGroupId coinIndex
    rw [countP_append]
    rfl
  constructor
  · exact met.keyed
  · intro otherGroupId h isF
    rw [Record.get?_set] at isF
    rw [mem_append]
    split at isF
    next eq =>
      rw [eq]
      exact .inr mem_cons_self
    next => exact .inl (met.created otherGroupId h isF)
  · intro otherGroupId coinIndex coins mem
    rw [mem_append] at mem ⊢
    cases mem with
    | inl old => exact .inl (met.logged otherGroupId coinIndex coins old)
    | inr new => cases mem_singleton.mp new
  · intro otherGroupId h isF
    rw [Record.get?_set] at isF
    split at isF
    next =>
      cases isF
      exact timestamp
    next => exact met.timestamps otherGroupId h isF
  · intro otherGroupId coinIndex
    rw [RefreshWallet.writes, writes]
    exact met.once otherGroupId coinIndex
  · intro otherGroupId coinIndex c isC
    rw [RefreshWallet.writes, writes]
    rw [RefreshWallet.coinOf] at isC
    rw [Record.get?_set] at isC
    split at isC
    next eq =>
      rw [eq, unwritten]
      have unstarted := (due c (mem_of_getElem? isC)).2
      rw [if_neg (by simp [RefreshCoin.isWritten, unstarted])]
    next => exact met.written otherGroupId coinIndex c isC
  · intro ses mem
    exact mem_append_left _ (met.started ses mem)
  · intro ses mem c isC
    rw [RefreshWallet.coinOf] at isC
    rw [Record.get?_set] at isC
    split at isC
    next eq => exact absurd (eq ▸ met.started ses mem) unused
    next => exact met.knows ses mem c isC
  · exact met.sound
  · exact met.alone

end Settled

structure Applied (host : RefreshHost) (wallet next : RefreshWallet) (index : Nat)
    (session : Session) (point : Point) (added : List Trace) : Prop where
  denominations : next.denominations = wallet.denominations
  log : next.log = wallet.log ++ added
  sessions : next.sessions = wallet.sessions.set index { session with point := point }
  others : ∀ refreshGroupId coinIndex coin',
    ¬(refreshGroupId = session.refreshGroupId ∧ coinIndex = session.coinIndex) →
    next.coinOf refreshGroupId coinIndex = some coin' →
    wallet.coinOf refreshGroupId coinIndex = some coin'
  coin : ∀ coin', next.coinOf session.refreshGroupId session.coinIndex = some coin' →
    point.Knows coin' ∧ ∃ coin,
      wallet.coinOf session.refreshGroupId session.coinIndex = some coin ∧
      SessionKept coin.refreshSession coin'.refreshSession ∧
      (if coin'.isWritten then 1 else 0) = (if coin.isWritten then 1 else 0) +
        added.countP (Trace.writes session.refreshGroupId session.coinIndex)
  apart : ∀ refreshGroupId coinIndex,
    ¬(refreshGroupId = session.refreshGroupId ∧ coinIndex = session.coinIndex) →
    added.countP (Trace.writes refreshGroupId coinIndex) = 0
  fresh : added.countP (Trace.writes session.refreshGroupId session.coinIndex) = 0 ∨
    added.countP (Trace.writes session.refreshGroupId session.coinIndex) = 1 ∧
      ∃ coin, wallet.coinOf session.refreshGroupId session.coinIndex = some coin ∧
        coin.isWritten = false
  groups : ∀ refreshGroupId rg', next.refreshGroups.get? refreshGroupId = some rg' →
    ∃ rg, wallet.refreshGroups.get? refreshGroupId = some rg ∧
      (rg.TimestampSound → rg'.TimestampSound)
  ofSession : ∀ refreshGroupId coinIndex coins,
    .newCoins refreshGroupId coinIndex coins ∈ added → refreshGroupId = session.refreshGroupId
  sound : point.Sound host wallet.denominations
  entries : ∀ entry ∈ added, entry.Sound host wallet next

section Applied

variable {host : RefreshHost} {wallet w next : RefreshWallet} {index : Nat} {session ses : Session}
  {point pt : Point} {added : List Trace}

theorem apply_ungrouped (knows : ∀ c,
      w.coinOf ses.refreshGroupId ses.coinIndex = some c → pt.Knows c)
    (sound : pt.Sound host w.denominations) (unwritten : ∀ e ∈ added, ∀ gid idx,
      e.writes gid idx = false) (entries : ∀ e ∈ added,
      e.Sound host w (w.apply index ses ⟨pt, none, [], added⟩)) :
    Applied host w (w.apply index ses ⟨pt, none, [], added⟩) index ses pt
      added := by
  have none : ∀ gid idx, added.countP (Trace.writes gid idx) = 0 := by
    intro gid idx
    apply countP_eq_zero.mpr
    intro e mem isEntry
    rw [unwritten e mem] at isEntry
    cases isEntry
  constructor
  · rfl
  · rfl
  · rfl
  · intro gid idx coin' _ h
    exact h
  · intro coin' h
    refine ⟨knows coin' h, coin', h, .refl _, ?_⟩
    rw [none, Nat.add_zero]
  · intro gid idx _
    exact none gid idx
  · exact .inl (none _ _)
  · intro gid rg' h
    exact ⟨rg', h, id⟩
  · intro gid idx cs mem
    have isEntry := unwritten _ mem gid idx
    simp [Trace.writes] at isEntry
  · exact sound
  · exact entries

theorem apply_grouped {rg rg' : RefreshGroup} {change : RefreshCoin → RefreshCoin}
    {cs : List Coin} (h : w.refreshGroups.get? ses.refreshGroupId = some rg)
    (moved : GroupMove ses.coinIndex rg rg' change)
    (knows : ∀ c, rg.coins[ses.coinIndex]? = some c → point.Knows (change c))
    (sound : point.Sound host w.denominations) (writes : ∀ c, rg.coins[ses.coinIndex]? = some c →
      (if (change c).isWritten then 1 else 0) = (if c.isWritten then 1 else 0) +
        added.countP (Trace.writes ses.refreshGroupId ses.coinIndex)) (apart : ∀ gid coinIndex,
      ¬(gid = ses.refreshGroupId ∧ coinIndex = ses.coinIndex) →
      added.countP (Trace.writes gid coinIndex) = 0)
    (fresh : added.countP (Trace.writes ses.refreshGroupId ses.coinIndex) = 0 ∨
      added.countP (Trace.writes ses.refreshGroupId ses.coinIndex) = 1 ∧
        ∃ c, w.coinOf ses.refreshGroupId ses.coinIndex = some c ∧
          c.isWritten = false) (ofSession : ∀ gid coinIndex cs,
      .newCoins gid coinIndex cs ∈ added → gid = ses.refreshGroupId) (entries : ∀ e ∈ added,
      e.Sound host w (w.apply index ses ⟨point, some rg', cs, added⟩)) :
    Applied host w (w.apply index ses ⟨point, some rg', cs, added⟩) index ses point added := by
  constructor
  · rfl
  · rfl
  · rfl
  · intro gid coinIndex coin' ne isC
    rw [RefreshWallet.coinOf, RefreshWallet.apply] at isC
    rw [Record.get?_set] at isC
    split at isC
    next eq =>
      rw [bind_some, moved.coins] at isC
      rw [eq, coinOf_eq h]
      have y : ses.coinIndex ≠ coinIndex := fun index => ne ⟨eq, index.symm⟩
      simpa [y] using isC
    next => exact isC
  · intro coin' isC
    rw [RefreshWallet.coinOf, RefreshWallet.apply] at isC
    rw [Record.get?_set, if_pos rfl, bind_some, moved.coins, getElem?_modify] at isC
    obtain ⟨c, wasCoin, changed⟩ := map_eq_some_iff.mp isC
    rw [if_pos rfl] at changed
    subst changed
    exact ⟨knows c wasCoin, c, (coinOf_eq h).trans wasCoin, moved.kept c wasCoin, writes c wasCoin⟩
  · exact apart
  · exact fresh
  · intro gid after isGroup
    rw [RefreshWallet.apply] at isGroup
    rw [Record.get?_set] at isGroup
    split at isGroup
    next eq =>
      cases isGroup
      exact ⟨rg, eq ▸ h, moved.timestamp⟩
    next => exact ⟨after, isGroup, id⟩
  · exact ofSession
  · exact sound
  · exact entries

theorem Move.applied {effect : Effect}
    (move : Move host w ses.refreshGroupId ses.coinIndex effect) :
    Applied host w (w.apply index ses effect) index ses effect.point
      effect.trace := by
  cases move with
  | goes knows sound =>
    apply apply_ungrouped knows sound
    · intro e mem
      cases mem
    · intro e mem
      cases mem
  | changes h moved knows unwritten sound =>
    apply apply_grouped h moved knows sound
    · intro coin isC
      obtain ⟨pre, after⟩ := unwritten coin isC
      rw [pre, after]
      rfl
    · intro gid idx _
      rfl
    · exact .inl rfl
    · intro gid idx cs mem
      cases mem
    · intro e mem
      cases mem
  | melts knows =>
    apply apply_ungrouped knows trivial
    · intro e mem gid idx
      rw [mem_singleton.mp mem]
      rfl
    intro e mem
    rw [mem_singleton.mp mem]
    intro coin isC
    exact (knows coin isC).1
  | reveals knows sound =>
    apply apply_ungrouped knows sound
    · intro e mem gid idx
      rw [mem_singleton.mp mem]
      rfl
    intro e mem
    rw [mem_singleton.mp mem]
    intro coin isC
    exact (knows coin isC).1
  | @stores rg now reveal cs h knows st sound =>
    have own : [Trace.newCoins ses.refreshGroupId ses.coinIndex cs].countP
        (Trace.writes ses.refreshGroupId ses.coinIndex) = 1 := by
      simp [Trace.writes]
    obtain ⟨coin, isC, isSession⟩ := bind_eq_some_iff.mp st
    obtain ⟨due, -⟩ := knows coin isC
    have moved := @RefreshGroup.finishCoin_move now ses.coinIndex rg
    have has : ∀ coin, rg.coins[ses.coinIndex]? = some coin →
        Point.finished.Knows { coin with status := .finished } := fun _ _ => trivial
    apply apply_grouped h moved has trivial
    · intro coin isC
      obtain ⟨due, isSession⟩ := knows coin isC
      rw [own]
      simp [RefreshCoin.isWritten, due, isSession]
    · intro gid idx ne
      apply countP_eq_zero.mpr
      intro e mem
      rw [mem_singleton.mp mem]
      intro isEntry
      obtain ⟨sameGroup, sameIndex⟩ := of_decide_eq_true isEntry
      exact ne ⟨sameGroup.symm, sameIndex.symm⟩
    · exact .inr ⟨own, coin, (coinOf_eq h).trans isC,
        by simp [RefreshCoin.isWritten, due]⟩
    · intro gid idx ys mem
      cases mem_singleton.mp mem
      rfl
    · intro e mem
      rw [mem_singleton.mp mem]
      refine ⟨rfl, coin, { coin with status := .finished }, reveal.d.session,
        (coinOf_eq h).trans isC, ?_, due, rfl, isSession, isSession, ?_⟩
      · rw [RefreshWallet.coinOf, RefreshWallet.apply]
        rw [Record.get?_set, if_pos rfl, bind_some, moved.coins, getElem?_modify, isC]
        simp
      obtain ⟨⟨melted, derived, ds⟩, matching⟩ := sound
      obtain ⟨derived, isDerived, arePlanchets⟩ := derived
      exact ⟨reveal.d, reveal.norevealIndex, derived, reveal.planchets, rfl, melted, ds,
        isDerived, arePlanchets, matching⟩

theorem Applied.writes (applied : Applied host w next index ses pt added)
    (gid : String) (idx : Nat) :
    next.writes gid idx = w.writes gid idx + added.countP (Trace.writes gid idx) := by
  rw [RefreshWallet.writes, applied.log, countP_append]
  rfl

theorem Settled.applied (met : Settled host w) (isSession : w.sessions[index]? = some session)
    (applied : Applied host w next index session point added)
    (apart : ∀ (other : Nat) (session' : Session), other ≠ index →
      w.sessions[other]? = some session' → session'.point.atWork → session'.sameCoin session →
      point.atWork = false ∧ next.coinOf session.refreshGroupId session.coinIndex =
        w.coinOf session.refreshGroupId session.coinIndex) : Settled host next := by
  have sessions : ∀ (other : Nat) (session' : Session), next.sessions[other]? = some session' →
      other = index ∧ session' = { session with point := point } ∨
        other ≠ index ∧ w.sessions[other]? = some session' := by
    intro other session' h
    rw [applied.sessions, getElem?_set] at h
    split at h
    next eq =>
      have bound := (List.getElem?_eq_some_iff.mp isSession).1
      rw [if_pos bound] at h
      cases h
      exact .inl ⟨eq.symm, rfl⟩
    next ne => exact .inr ⟨fun eq => ne eq.symm, h⟩
  have mem : session ∈ w.sessions := mem_of_getElem? isSession
  constructor
  · rw [applied.denominations]
    exact met.keyed
  · intro gid rg' h
    obtain ⟨rg, wasGroup, -⟩ := applied.groups gid rg' h
    rw [applied.log]
    exact mem_append_left _ (met.created gid rg wasGroup)
  · intro gid idx cs isEntry
    rw [applied.log, mem_append] at isEntry
    rw [applied.log]
    apply mem_append_left
    cases isEntry with
    | inl old => exact met.logged gid idx cs old
    | inr new =>
      rw [applied.ofSession gid idx cs new]
      exact met.started session mem
  · intro gid rg' h
    obtain ⟨rg, wasGroup, timestamp⟩ := applied.groups gid rg' h
    exact timestamp (met.timestamps gid rg wasGroup)
  · intro gid idx
    have pre := met.once gid idx
    rw [applied.writes]
    by_cases own : gid = session.refreshGroupId ∧ idx = session.coinIndex
    · obtain ⟨sameGroup, sameIndex⟩ := own
      subst sameGroup sameIndex
      cases applied.fresh with
      | inl none =>
        rw [none]
        exact pre
      | inr fresh =>
        obtain ⟨one, c, isC, unwritten⟩ := fresh
        have written := met.written _ _ c isC
        rw [unwritten] at written
        rw [one, written]
        decide
    · rw [applied.apart gid idx own]
      exact pre
  · intro gid idx coin' h
    rw [applied.writes]
    by_cases own : gid = session.refreshGroupId ∧ idx = session.coinIndex
    · obtain ⟨sameGroup, sameIndex⟩ := own
      subst sameGroup sameIndex
      obtain ⟨-, c, wasCoin, -, written⟩ := applied.coin coin' h
      rw [written, met.written _ _ c wasCoin]
    · rw [applied.apart gid idx own, Nat.add_zero]
      exact met.written _ _ coin' (applied.others _ _ coin' own h)
  · intro session' isMember
    obtain ⟨other, h⟩ := mem_iff_getElem?.mp isMember
    rw [applied.log]
    apply mem_append_left
    cases sessions other session' h with
    | inl own =>
      rw [own.2]
      exact met.started session mem
    | inr old => exact met.started session' (mem_of_getElem? old.2)
  · intro session' isMember coin' isC
    obtain ⟨other, h⟩ := mem_iff_getElem?.mp isMember
    cases sessions other session' h with
    | inl own =>
      rw [own.2] at isC ⊢
      exact (applied.coin coin' isC).1
    | inr old =>
      obtain ⟨ne, wasSession⟩ := old
      have wasMember := mem_of_getElem? wasSession
      cases working : session'.point.atWork with
      | false => exact .idle working coin'
      | true =>
        by_cases own : session'.sameCoin session
        · obtain ⟨-, eq⟩ := apart other session' ne wasSession working own
          rw [own.1, own.2] at isC
          apply met.knows session' wasMember coin'
          rw [own.1, own.2, ← eq]
          exact isC
        · exact met.knows session' wasMember coin' (applied.others _ _ coin' own isC)
  · intro session' isMember
    obtain ⟨other, h⟩ := mem_iff_getElem?.mp isMember
    rw [applied.denominations]
    cases sessions other session' h with
    | inl own =>
      rw [own.2]
      exact applied.sound
    | inr old => exact met.sound session' (mem_of_getElem? old.2)
  · intro x y session' session'' isFirst isSecond working working' eq
    cases sessions x session' isFirst with
    | inl own =>
      cases sessions y session'' isSecond with
      | inl own' => exact own.1.trans own'.1.symm
      | inr old =>
        rw [own.2] at working eq
        have ended := (apart y session'' old.1 old.2 working' ⟨eq.1.symm, eq.2.symm⟩).1
        rw [ended] at working
        cases working
    | inr old =>
      cases sessions y session'' isSecond with
      | inl own =>
        rw [own.2] at working' eq
        have ended := (apart x session' old.1 old.2 working eq).1
        rw [ended] at working'
        cases working'
      | inr old' =>
        exact met.alone x y session' session'' old.2 old'.2 working working' eq

end Applied

section Runs

variable {host : RefreshHost} {wallet w next : RefreshWallet}

theorem advance_started {gid : String} {idx : Nat} {pt : Point}
    {ans : Answer} {effect : Effect} (idle : pt.atWork = false)
    (r : advance host w gid idx pt ans = some effect) :
    pt = .processRefreshSession ∧ effect.group = none ∧ (effect.point.atWork = false ∨
        ∃ c, w.coinOf gid idx = some c ∧ c.status ≠ .finished) := by
  cases pt with
  | processRefreshSession =>
    refine ⟨rfl, ?_⟩
    cases ans with
    | proceed env rnd =>
      cases r
      refine ⟨rfl, ?_⟩
      cases isC : w.coinOf gid idx with
      | none =>
        rw [RefreshWallet.coinOf] at isC
        rw [isC]
        exact .inl rfl
      | some c =>
        by_cases finished : c.status = .finished
        · rw [RefreshWallet.coinOf] at isC
          rw [isC]
          dsimp only [elim_some]
          rw [processRefreshSession, if_pos finished]
          exact .inl rfl
        · exact .inr ⟨c, rfl, finished⟩
    | failure err =>
      cases r
      exact ⟨rfl, .inl rfl⟩
    | _ => cases r
  | failed err => cases ans <;> cases r
  | finished => cases ans <;> cases r
  | _ => cases idle

theorem session_applied {idx : Nat} {ans : Answer} {ses : Session} {effect : Effect}
    (met : Settled host w) (careful : Careful w (.session idx ans))
    (isSession : w.sessions[idx]? = some ses)
    (r : advance host w ses.refreshGroupId ses.coinIndex ses.point ans =
      some effect) : Move host w ses.refreshGroupId ses.coinIndex effect ∧
      Applied host w (w.apply idx ses effect) idx ses effect.point effect.trace ∧
      Settled host (w.apply idx ses effect) := by
  have mem := mem_of_getElem? isSession
  have unfrozen : ∀ c, w.coinOf ses.refreshGroupId ses.coinIndex = some c →
      ses.point = .processRefreshSession → c.status ≠ .frozen := by
    intro c isC start frozen
    have todo : c.status ≠ .finished := by
      rw [frozen]
      decide
    exact (careful ses c isSession (start ▸ rfl) isC todo).1 frozen
  have move := advance_move met.keyed (met.knows ses mem) (met.sound ses mem) unfrozen r
  have applied : Applied host w (w.apply idx ses effect) idx ses
      effect.point effect.trace := move.applied
  refine ⟨move, applied, met.applied isSession applied ?_⟩
  intro y session' ne isO working eq
  cases isWorking : ses.point.atWork with
  | true =>
    exact absurd (met.alone y idx session' ses isO isSession working isWorking eq) ne
  | false =>
    obtain ⟨start, ungrouped, ended⟩ := advance_started isWorking r
    cases ended with
    | inl ended =>
      refine ⟨ended, ?_⟩
      rw [RefreshWallet.apply, ungrouped]
      rfl
    | inr st =>
      obtain ⟨c, isC, todo⟩ := st
      have ys := (careful ses c isSession (start ▸ rfl) isC todo).2
      exact absurd eq (ys session' (mem_of_getElem? isO) working)

def CarefulStep (host : RefreshHost) : RefreshWallet → RefreshEvent → RefreshWallet → Prop :=
  Guarded Careful (RefreshStep host)

/-- What a step does to the sessions of the groups and to the log. -/
structure Continues (host : RefreshHost) (wallet next : RefreshWallet) : Prop where
  log : ∃ added, next.log = wallet.log ++ added ∧ ∀ entry ∈ added, entry.Sound host wallet next
  sessions : ∀ refreshGroupId rg', next.refreshGroups.get? refreshGroupId = some rg' →
    .created refreshGroupId ∉ wallet.log ∨
      ∃ rg, wallet.refreshGroups.get? refreshGroupId = some rg ∧
        ∀ coinIndex, SessionKept (rg.session coinIndex) (rg'.session coinIndex)

theorem CoinsKept.continues (kept : CoinsKept wallet next) : Continues host wallet next := by
  constructor
  · exact ⟨[], by rw [kept.log, append_nil], by simp⟩
  intro gid rg' h
  obtain ⟨rg, wasGroup, cs, -⟩ := kept.groups gid rg' h
  refine .inr ⟨rg, wasGroup, ?_⟩
  intro idx
  rw [RefreshGroup.session, RefreshGroup.session, cs]
  exact .refl _

theorem Move.session_kept {index : Nat} {ses : Session} {effect : Effect}
    {gid : String} {rg' : RefreshGroup} (move : Move host w ses.refreshGroupId ses.coinIndex effect)
    (h : (w.apply index ses effect).refreshGroups.get? gid = some rg') :
    ∃ rg, w.refreshGroups.get? gid = some rg ∧
      ∀ idx, SessionKept (rg.session idx) (rg'.session idx) := by
  have same : ∀ rg', w.refreshGroups.get? gid = some rg' →
      ∃ rg, w.refreshGroups.get? gid = some rg ∧
        ∀ idx, SessionKept (rg.session idx) (rg'.session idx) := by
    intro rg' eq
    exact ⟨rg', eq, fun _ => .refl _⟩
  have changed : ∀ {rg after : RefreshGroup} {change : RefreshCoin → RefreshCoin},
      w.refreshGroups.get? ses.refreshGroupId = some rg → GroupMove ses.coinIndex rg after change →
      (w.refreshGroups.set ses.refreshGroupId after).get? gid = some rg' →
      ∃ rg, w.refreshGroups.get? gid = some rg ∧
        ∀ idx, SessionKept (rg.session idx) (rg'.session idx) := by
    intro rg after change isGroup moved isAfter
    rw [Record.get?_set] at isAfter
    split at isAfter
    next eq =>
      cases isAfter
      refine ⟨rg, eq ▸ isGroup, ?_⟩
      intro idx
      rw [RefreshGroup.session, RefreshGroup.session, moved.coins, getElem?_modify]
      cases isC : rg.coins[idx]? with
      | none =>
        intro ses none
        cases none
      | some c =>
        by_cases own : ses.coinIndex = idx
        · subst own
          simpa using moved.kept c isC
        · simpa [own] using SessionKept.refl c.refreshSession
    next => exact same rg' isAfter
  cases move with
  | goes => exact same rg' h
  | melts => exact same rg' h
  | reveals => exact same rg' h
  | changes isGroup moved => exact changed isGroup moved h
  | stores isGroup => exact changed isGroup RefreshGroup.finishCoin_move h

theorem created_settled {env : Surroundings} {gid : String}
    {oldCoinPubs : List String} {coins : List RefreshCoin} {stored : Record String Coin}
    (met : Settled host w) (fresh : .created gid ∉ w.log)
    (length : coins.length = oldCoinPubs.length)
    (due : ∀ c ∈ coins, c.status = .pending ∧ c.refreshSession = none) :
    let group : RefreshGroup :=
      { coins := coins
        timestampFinished := if oldCoinPubs.isEmpty then some env.now else none
        frozen := false
        retryCounter := 0
        lastError := none }
    let made : RefreshWallet :=
      { w with
        coins := stored
        refreshGroups := w.refreshGroups.set gid group
        log := w.log ++ [.created gid] }
    Settled host (made.process gid false) ∧
      Continues host w (made.process gid false) := by
  intro group made
  have timestamp : group.TimestampSound := by
    unfold RefreshGroup.TimestampSound
    dsimp only [group]
    cases oldCoinPubs with
    | nil =>
      rw [length_eq_zero_iff.mp length]
      simp
    | cons pub rest =>
      constructor
      · intro ended
        cases ended
      · intro all
        cases coins with
        | nil => cases length
        | cons c ys =>
          have isPending := (due c mem_cons_self).1
          rw [all c mem_cons_self] at isPending
          cases isPending
  have kept : CoinsKept made (made.process gid false) := process_kept
  refine ⟨(met.created_group fresh timestamp due).kept kept, ?_, ?_⟩
  · refine ⟨[.created gid], kept.log, ?_⟩
    intro e mem
    rw [mem_singleton.mp mem]
    trivial
  · intro otherGroupId rg' h
    obtain ⟨rg, isGroup, coinsSame, -⟩ := kept.groups otherGroupId rg' h
    rw [Record.get?_set] at isGroup
    split at isGroup
    next eq => exact .inl (eq ▸ fresh)
    next =>
      refine .inr ⟨rg, isGroup, ?_⟩
      intro idx
      rw [RefreshGroup.session, RefreshGroup.session, coinsSame]
      exact .refl _

theorem step_settled {ev : RefreshEvent} (met : Settled host wallet)
    (step : CarefulStep host wallet ev next) : Settled host next ∧ Continues host wallet next := by
  obtain ⟨careful, ran, fresh⟩ := step
  cases ev with
  | createRefreshGroup env gid oldCoinPubs =>
    obtain ⟨⟨cs, taken⟩, isTaken, ran⟩ := bind_eq_some_iff.mp ran
    cases ran
    obtain ⟨⟨stored, isWallet⟩, length, due⟩ := takeCoins_spec isTaken
    subst isWallet
    exact created_settled met fresh length due
  | processRefreshGroup gid forceNow =>
    cases ran
    exact ⟨met.kept process_kept, process_kept.continues⟩
  | call idx =>
    obtain ⟨call, isCall, ran⟩ := bind_eq_some_iff.mp ran
    have kept := advanceCall_kept ran
    exact ⟨met.kept kept, kept.continues⟩
  | session idx ans =>
    obtain ⟨session, isSession, ran⟩ := bind_eq_some_iff.mp ran
    obtain ⟨effect, advanced, ran⟩ := bind_eq_some_iff.mp ran
    cases ran
    obtain ⟨move, applied, settled'⟩ := session_applied met careful isSession advanced
    exact ⟨settled', ⟨_, applied.log, applied.entries⟩,
      fun gid rg' got => .inr (move.session_kept got)⟩
  | deleteRefreshGroup gid =>
    cases ran
    exact ⟨met.kept (deleted_kept gid), (deleted_kept gid).continues⟩
  | putCoin coin =>
    cases ran
    exact ⟨met.kept (stored_kept _), (stored_kept _).continues⟩
  | putDenomination dn =>
    cases ran
    refine ⟨met.putDenomination dn, ⟨[], by simp, by simp⟩, ?_⟩
    intro gid rg' got
    exact .inr ⟨rg', got, fun _ => .refl _⟩
  | restarted =>
    cases ran
    exact ⟨met.kept restarted_kept, restarted_kept.continues⟩

theorem run_settled {events : List RefreshEvent}
    (run : Run (CarefulStep host) .start events wallet) : Settled host wallet :=
  run.invariant (Settled host) settled_start fun _ _ _ met step => (step_settled met step).1

/-- The sessions of groups that exist are kept by later runs, and no identifier is used again. -/
theorem run_sessions {events : List RefreshEvent} {later : RefreshWallet}
    (met : Settled host w) (run : Run (CarefulStep host) w events later) :
    Settled host later ∧ w.log ⊆ later.log ∧
      ∀ gid rg', later.refreshGroups.get? gid = some rg' → .created gid ∈ w.log →
        ∃ rg, w.refreshGroups.get? gid = some rg ∧
          ∀ idx, SessionKept (rg.session idx) (rg'.session idx) := by
  induction run with
  | start =>
    refine ⟨met, List.Subset.refl _, ?_⟩
    intro gid rg' h _
    exact ⟨rg', h, fun _ => .refl _⟩
  | next _ last ih =>
    obtain ⟨mid, grown, kept⟩ := ih
    obtain ⟨settled', ⟨added, log, -⟩, sessions⟩ := step_settled mid last
    refine ⟨settled', ?_, ?_⟩
    · rw [log]
      exact subset_append_of_subset_left _ grown
    intro gid rg'' h made
    cases sessions gid rg'' h with
    | inl unused => exact absurd (grown made) unused
    | inr has =>
      obtain ⟨rg', isGroup, kept'⟩ := has
      obtain ⟨rg, wasGroup, kept⟩ := kept gid rg' isGroup made
      exact ⟨rg, wasGroup, fun idx => (kept idx).trans (kept' idx)⟩

/-- Careful runs process their refresh groups safely. -/
theorem refresh_processedSafely {events : List RefreshEvent}
    (run : Run (CarefulStep host) .start events wallet) :
    ProcessedSafely host (CarefulStep host) wallet := by
  have settled := run_settled run
  constructor
  · intro later final refreshGroupId rg rg' laterRun isGroup isGroup' coinIndex
    obtain ⟨-, -, kept⟩ := run_sessions settled laterRun
    obtain ⟨found, isFound, kept⟩ := kept refreshGroupId rg' isGroup'
      (settled.created refreshGroupId rg isGroup)
    rw [isGroup] at isFound
    cases isFound
    exact kept coinIndex
  · exact settled.once
  · exact settled.written
  · exact settled.timestamps
  · intro event next step
    exact (step_settled settled step).2.log

end Runs

section Example

def exampleHost : RefreshHost where
  setupRefreshTransferPub seed index := (seed, seed ++ String.ofList (List.replicate index 'T'))
  keyExchange transferPriv coinPub := transferPriv ++ coinPub
  setupRefreshPlanchet secret index :=
    { coinPub := secret ++ String.ofList (List.replicate index 'P')
      coinPriv := secret
      bks := secret }
  rsaBlind coinPubHash _ denomPub := coinPubHash ++ denomPub
  hash data := data
  sessionHash _ _ _ _ _ := "rc"
  signMelt _ _ _ _ _ _ := "signature"
  signCoinLink _ _ _ _ _ := "link"
  rsaUnblind evSig _ _ := evSig

def exampleNow : Surroundings := ⟨1000, true⟩

theorem one_inRange : (AmountJson.ofValue 1).units < limit := by decide

def exampleDenom : Denomination where
  exchangeBaseUrl := "https://exchange/"
  denomPubHash := "one"
  currency := "KUDOS"
  value := .ofValue 1
  feeWithdraw := Amounts.getZero
  feeRefresh := Amounts.getZero
  feeRefund := Amounts.getZero
  stampStart := .at 0
  stampExpireWithdraw := .never
  isOffered := true
  isRevoked := false
  verificationStatus := .unverified
  valueInRange := one_inRange
  denomPub := "key"

def exampleCoin (coinPub : String) : Coin where
  coinPub := coinPub
  exchangeBaseUrl := "https://exchange/"
  denomPubHash := "one"
  currency := "KUDOS"
  currentAmount := .ofValue 1
  status := .fresh
  suspended := false
  allocation := none
  amountInRange := one_inRange
  coinPriv := "priv"
  blindingKey := "blinding"
  denomPub := "key"
  denomSig := "signature"
  coinSource := .withdraw "withdrawal" 0 "reserve"
  coinEvHash := "hash"

def exampleProceed (index : Nat) : RefreshEvent := .session index (.proceed exampleNow "seed")

def step? (wallet : RefreshWallet) (event : RefreshEvent) : Option RefreshWallet :=
  match event with
  | .createRefreshGroup _ _ _ => if wallet.log.isEmpty then wallet.perform exampleHost event else none
  | _ => wallet.perform exampleHost event

theorem step?_step (wallet : RefreshWallet) (ev : RefreshEvent) (next : RefreshWallet)
    (r : step? wallet ev = some next) : RefreshStep exampleHost wallet ev next := by
  cases ev with
  | createRefreshGroup env gid oldCoinPubs =>
    rw [step?] at r
    split at r
    next unused =>
      refine ⟨r, ?_⟩
      rw [List.isEmpty_iff.mp unused]
      exact not_mem_nil
    next => cases r
  | _ => exact ⟨r, trivial⟩

/-- The exchange does not know the first of two coins, and the second one cannot be refreshed. -/
def exampleFrozen : List RefreshEvent :=
  [.putDenomination exampleDenom, .putCoin (exampleCoin "first"), .putCoin (exampleCoin "second"),
    .createRefreshGroup exampleNow "group" ["first", "second"], .call 0,
    exampleProceed 0, exampleProceed 0, .session 0 (.exchangeUpdated "https://exchange/"),
    exampleProceed 0, exampleProceed 0, exampleProceed 0, exampleProceed 0, exampleProceed 0,
    .session 0 (.notFound "unknown coin"), exampleProceed 0, exampleProceed 0,
    .session 1 (.failure "network"), .call 0, .call 0]

def exampleAgain : List RefreshEvent :=
  exampleFrozen ++ [.processRefreshGroup "group" false, .call 1, exampleProceed 2, exampleProceed 2]

def Point.isMeltRequest : Point → Bool
  | .meltRequest _ => true
  | _ => false

theorem frozen_coin_melted_again : ¬ ∀ host events wallet,
    Run (RefreshStep host) .start events wallet →
      ProcessedSafely host (RefreshStep host) wallet := by
  intro processed
  have facts : (exampleAgain.foldlM step? .start).map (fun wallet =>
      (wallet.sessions[2]?.map fun session =>
        (session.refreshGroupId, session.coinIndex, session.point.isMeltRequest),
      (wallet.coinOf "group" 0).map RefreshCoin.status)) =
        some (some ("group", 0, true), some .frozen) := by decide +kernel
  obtain ⟨wallet, isWallet, facts⟩ := map_eq_some_iff.mp facts
  obtain ⟨isSession, isStatus⟩ := Prod.mk.inj facts
  obtain ⟨⟨refreshGroupId, coinIndex, point⟩, found, isSession⟩ := map_eq_some_iff.mp isSession
  obtain ⟨isGroup, isIndex, isRequest⟩ := by simpa using isSession
  subst isGroup isIndex
  obtain ⟨coin, isCoin, frozen⟩ := map_eq_some_iff.mp isStatus
  cases point with
  | meltRequest request =>
    have run := Run.ofFoldlM step?_step isWallet
    have step : RefreshStep exampleHost wallet (exampleProceed 2)
        (wallet.apply 2 ⟨"group", 0, .meltRequest request⟩
          ⟨.meltAnswer, none, [], [.melt "group" 0 request]⟩) := by
      refine ⟨?_, trivial⟩
      simp only [exampleProceed, RefreshWallet.perform, found, bind_eq_bind, bind_some]
      rfl
    obtain ⟨added, log, sound⟩ := (processed exampleHost _ wallet run).entries _ _ step
    have isAdded : added = [.melt "group" 0 request] := (append_cancel_left log).symm
    have pending := sound (.melt "group" 0 request) (isAdded ▸ mem_cons_self) coin isCoin
    rw [frozen] at pending
    cases pending
  | _ => cases isRequest

def exampleRefreshed : List RefreshEvent :=
  [.putDenomination exampleDenom, .putCoin (exampleCoin "first"),
    .createRefreshGroup exampleNow "group" ["first"], .call 0,
    exampleProceed 0, exampleProceed 0, .session 0 (.exchangeUpdated "https://exchange/"),
    exampleProceed 0, exampleProceed 0, exampleProceed 0, exampleProceed 0, exampleProceed 0,
    .session 0 (.melted 1), exampleProceed 0, exampleProceed 0, exampleProceed 0,
    .session 0 (.revealed ["blind"]), exampleProceed 0, exampleProceed 0, exampleProceed 0,
    .call 0]

def carefulStep? (wallet : RefreshWallet) (event : RefreshEvent) : Option RefreshWallet :=
  match event with
  | .session index _ =>
    let rushed := wallet.sessions[index]?.any fun session =>
      session.point.isStart &&
        (wallet.sessions.any (fun other => other.point.atWork) ||
          (wallet.coinOf session.refreshGroupId session.coinIndex).any fun coin =>
            coin.status = .frozen)
    if rushed then none else step? wallet event
  | _ => step? wallet event

theorem carefulStep?_step (wallet : RefreshWallet) (ev : RefreshEvent) (next : RefreshWallet)
    (ran : carefulStep? wallet ev = some next) : CarefulStep exampleHost wallet ev next := by
  cases ev with
  | session idx ans =>
    rw [carefulStep?] at ran
    split at ran
    next => cases ran
    next careful =>
      refine ⟨?_, step?_step _ _ _ ran⟩
      intro session coin isSession start isC _
      simp only [isSession, start, isC, any_some, Bool.true_and, Bool.or_eq_true,
        not_or, decide_eq_true_eq] at careful
      refine ⟨careful.2, ?_⟩
      intro y mem working _
      exact careful.1 (List.any_eq_true.mpr ⟨y, mem, working⟩)
  | _ => exact ⟨trivial, step?_step _ _ _ ran⟩

theorem refreshed_processedSafely : ∃ wallet,
    Run (CarefulStep exampleHost) .start exampleRefreshed wallet ∧ wallet.writes "group" 0 = 1 ∧
      (wallet.refreshGroups.get? "group").any (fun rg => rg.timestampFinished.isSome) ∧
      ProcessedSafely exampleHost (CarefulStep exampleHost) wallet := by
  have facts : (exampleRefreshed.foldlM carefulStep? .start).map (fun wallet =>
      (wallet.writes "group" 0,
      (wallet.refreshGroups.get? "group").any fun rg => rg.timestampFinished.isSome)) =
        some (1, true) := by decide +kernel
  obtain ⟨wallet, isWallet, facts⟩ := map_eq_some_iff.mp facts
  obtain ⟨written, finished⟩ := Prod.mk.inj facts
  have run := Run.ofFoldlM carefulStep?_step isWallet
  exact ⟨wallet, run, written, finished, refresh_processedSafely run⟩

end Example

end Anastasis.Wallet.Refreshing
