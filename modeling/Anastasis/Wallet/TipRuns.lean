import Anastasis.Wallet.Tips

/-! Tips over whole runs: a tip is known once, asked for in one way, and its coins stored once. -/

set_option autoImplicit false

namespace Anastasis.Wallet.Tips

open Library Library.Transition AmountJson Planchets List

structure Derived (host : TipHost) (denominations : Record (String × String) Denomination)
    (exchangeBaseUrl secretSeed : String) (denoms : List String)
    (planchets : List (Planchet × Denomination)) : Prop where
  length : planchets.length = denoms.length
  derived : ∀ (index : Nat) (p : Planchet × Denomination), planchets[index]? = some p →
    p.1 = createTipPlanchet host secretSeed p.2.denomPub index ∧
    denoms[index]? = some p.2.denomPubHash ∧
    ∃ stored, denominations.get? (exchangeBaseUrl, p.2.denomPubHash) = some stored ∧
      stored.denomPub = p.2.denomPub

/-- Each coin has the denomination, the planchet and the signature of its place. -/
structure CoinsMatch (host : TipHost) (walletTipId secretSeed : String) (denoms : List String)
    (coins : List Coin) : Prop where
  length : coins.length = denoms.length
  matching : ∃ blindSigs : List String, blindSigs.length = coins.length ∧
    ∀ (index : Nat) (coin : Coin), coins[index]? = some coin →
      denoms[index]? = some coin.denomPubHash ∧
      coin.coinSource = .tip walletTipId index ∧
      ∃ planchet blindedSig, planchet = createTipPlanchet host secretSeed coin.denomPub index ∧
        blindSigs[index]? = some blindedSig ∧
        coin.coinPub = planchet.publicKey ∧ coin.coinPriv = planchet.privateKey ∧
        coin.blindingKey = planchet.blindingKey ∧ coin.coinEvHash = planchet.coinEvHash ∧
        coin.denomSig = host.rsaUnblind blindedSig planchet.blindingKey coin.denomPub ∧
        host.rsaVerify coin.coinPub coin.denomSig coin.denomPub = true

def TipRecord.denoms (tip : TipRecord) : List String := units tip.denomsSel.selectedDenoms

/-- A record of the tip has been made with the same seed and selection. -/
def Known (log : List Trace) (tip : TipRecord) : Prop :=
  ∃ made, .created made ∈ log ∧ made.walletTipId = tip.walletTipId ∧ made.origin = tip.origin

def Point.Sound (host : TipHost) (denominations : Record (String × String) Denomination)
    (log : List Trace) : Point → Prop
  | .readDenoms tip rest planchets =>
    Known log tip ∧ ∃ denoms, tip.denoms = denoms ++ units rest ∧
      Derived host denominations tip.exchangeBaseUrl tip.secretSeed denoms planchets
  | .pickupRequest tip planchets | .pickupAnswer tip planchets =>
    Known log tip ∧
      Derived host denominations tip.exchangeBaseUrl tip.secretSeed tip.denoms planchets
  | .storeCoins walletTipId coins =>
    ∃ made, .created made ∈ log ∧ made.walletTipId = walletTipId ∧
      CoinsMatch host walletTipId made.secretSeed made.denoms coins
  | _ => True

def Trace.writes (walletTipId : String) : Trace → Bool
  | .newCoins found _ => found = walletTipId
  | _ => false

def TipWallet.writes (wallet : TipWallet) (walletTipId : String) : Nat :=
  wallet.log.countP (Trace.writes walletTipId)

structure Settled (host : TipHost) (wallet : TipWallet) : Prop where
  keyed : ∀ walletTipId tip, wallet.tips.get? walletTipId = some tip →
    tip.walletTipId = walletTipId
  denomsKeyed : ∀ key denom, wallet.denominations.get? key = some denom → denom.key = key
  created : ∀ walletTipId tip, wallet.tips.get? walletTipId = some tip → Known wallet.log tip
  unique : ∀ tip tip', .created tip ∈ wallet.log → .created tip' ∈ wallet.log →
    tip.walletTipId = tip'.walletTipId → tip = tip'
  single : ∀ first second tip tip', wallet.tips.get? first = some tip →
    wallet.tips.get? second = some tip' → tip.uri = tip'.uri → first = second
  logged : ∀ walletTipId coins, .newCoins walletTipId coins ∈ wallet.log →
    ∃ made, .created made ∈ wallet.log ∧ made.walletTipId = walletTipId
  once : ∀ walletTipId, wallet.writes walletTipId ≤ 1
  written : ∀ walletTipId tip, wallet.tips.get? walletTipId = some tip →
    wallet.writes walletTipId = if tip.pickedUpTimestamp.isSome then 1 else 0
  requests : ∀ walletTipId request, .pickup walletTipId request ∈ wallet.log →
    ∃ made planchets, .created made ∈ wallet.log ∧ made.walletTipId = walletTipId ∧
      Derived host wallet.denominations made.exchangeBaseUrl made.secretSeed made.denoms
        planchets ∧
      request = planchetsDetail planchets
  calls : ∀ point ∈ wallet.calls, point.Sound host wallet.denominations wallet.log

section Growth

variable {host : TipHost} {denominations dns denoms ds denominations' : Record (String × String) Denomination}
  {log log' : List Trace}

def Grown (denominations denominations' : Record (String × String) Denomination) : Prop :=
  ∀ key denom, denominations.get? key = some denom →
    ∃ denom', denominations'.get? key = some denom' ∧ denom'.denomPub = denom.denomPub

theorem Grown.refl (denominations : Record (String × String) Denomination) :
    Grown denominations denominations := by
  intro key dn h
  exact ⟨dn, h, rfl⟩

theorem Derived.mono {exchangeBaseUrl secretSeed : String} {denoms : List String}
    {planchets : List (Planchet × Denomination)} (grown : Grown dns denominations')
    (derived : Derived host dns exchangeBaseUrl secretSeed denoms planchets) :
    Derived host denominations' exchangeBaseUrl secretSeed denoms planchets := by
  refine ⟨derived.length, ?_⟩
  intro idx p isPlan
  obtain ⟨isDerived, isDenom, kept, isStored, eq⟩ := derived.derived idx p isPlan
  obtain ⟨stored', isStored', same'⟩ := grown _ kept isStored
  exact ⟨isDerived, isDenom, stored', isStored', same'.trans eq⟩

theorem Known.mono {tip : TipRecord} (longer : log ⊆ log') (has : Known log tip) :
    Known log' tip := by
  obtain ⟨made, isMade, eq⟩ := has
  exact ⟨made, longer isMade, eq⟩

theorem Point.Sound.mono {pt : Point} (grown : Grown dns denominations')
    (longer : log ⊆ log') (sound : pt.Sound host dns log) : pt.Sound host denominations' log' := by
  cases pt with
  | readDenoms tip rest planchets =>
    obtain ⟨has, ds, parts, derived⟩ := sound
    exact ⟨has.mono longer, ds, parts, derived.mono grown⟩
  | pickupRequest tip planchets => exact ⟨sound.1.mono longer, sound.2.mono grown⟩
  | pickupAnswer tip planchets => exact ⟨sound.1.mono longer, sound.2.mono grown⟩
  | storeCoins tipId cs =>
    obtain ⟨made, isMade, matching⟩ := sound
    exact ⟨made, longer isMade, matching⟩
  | _ => trivial

end Growth

section Planchets

variable {host : TipHost} {denominations dns denoms ds : Record (String × String) Denomination}
  {exchangeBaseUrl url baseUrl secretSeed : String}

variable {planchets : List (Planchet × Denomination)}

theorem addPlanchets_derived {dn : Denomination} {count : Nat} {ds : List String}
    (kept : dns.get? (url, dn.denomPubHash) = some dn)
    (derived : Derived host dns url secretSeed ds planchets) :
    Derived host dns url secretSeed (ds ++ List.replicate count dn.denomPubHash)
      (addPlanchets host secretSeed dn count planchets) := by
  unfold addPlanchets
  constructor
  · simp [derived.length]
  intro index p isPlan
  by_cases old : index < planchets.length
  · rw [getElem?_append_left old] at isPlan
    rw [getElem?_append_left (derived.length ▸ old)]
    exact derived.derived index p isPlan
  have late := Nat.le_of_not_lt old
  rw [getElem?_append_right late, getElem?_map] at isPlan
  obtain ⟨offset, isOffset, isPlan⟩ := Option.map_eq_some_iff.mp isPlan
  obtain ⟨small, eq⟩ := List.getElem?_eq_some_iff.mp isOffset
  rw [length_range] at small
  rw [getElem_range] at eq
  subst isPlan
  refine ⟨?_, ?_, dn, kept, rfl⟩
  · dsimp only
    rw [← eq, Nat.add_sub_cancel' late]
  have beyond : ds.length ≤ index := by
    rw [← derived.length]
    exact late
  rw [getElem?_append_right beyond, ← derived.length]
  exact getElem?_replicate_of_lt small

theorem Derived.detail_eq {ds : List String} {planchets' : List (Planchet × Denomination)}
    (x : Derived host dns url secretSeed ds planchets)
    (y : Derived host dns url secretSeed ds planchets') :
    planchetsDetail planchets = planchetsDetail planchets' := by
  apply ext_getElem?
  intro idx
  rw [planchetsDetail, planchetsDetail, getElem?_map, getElem?_map]
  cases isFirst : planchets[idx]? with
  | none =>
    have short := List.getElem?_eq_none_iff.mp isFirst
    rw [x.length, ← y.length] at short
    exact congrArg (Option.map _) (List.getElem?_eq_none_iff.mpr short).symm
  | some p =>
    have bound := (List.getElem?_eq_some_iff.mp isFirst).1
    rw [x.length, ← y.length] at bound
    have isSecond := getElem?_eq_getElem bound
    obtain ⟨isDerived, isDenom, kept, isStored, eq⟩ := x.derived idx p isFirst
    obtain ⟨isDerived', isDenom', stored', isStored', same'⟩ := y.derived idx _ isSecond
    rw [isSecond]
    have hash : p.2.denomPubHash = planchets'[idx].2.denomPubHash :=
      Option.some.inj (isDenom.symm.trans isDenom')
    rw [hash] at isStored
    rw [isStored] at isStored'
    cases isStored'
    rw [Option.map_some, Option.map_some, isDerived, isDerived', ← eq, ← same', hash]

theorem newCoinRecords_spec {tip : TipRecord} : ∀ {blindSigs : List String}
    {planchets : List (Planchet × Denomination)} {idx : Nat} {cs : List Coin},
    blindSigs.length = planchets.length →
    newCoinRecords host tip idx blindSigs planchets = some cs → cs.length = planchets.length ∧
      ∀ (index : Nat) (c : Coin), cs[index]? = some c →
        c.coinSource = .tip tip.walletTipId (idx + index) ∧
        ∃ plan dn blindedSig, planchets[index]? = some (plan, dn) ∧
          blindSigs[index]? = some blindedSig ∧
          c.denomPubHash = dn.denomPubHash ∧ c.denomPub = dn.denomPub ∧
          c.coinPub = plan.publicKey ∧ c.coinPriv = plan.privateKey ∧
          c.blindingKey = plan.blindingKey ∧ c.coinEvHash = plan.coinEvHash ∧
          c.denomSig = host.rsaUnblind blindedSig plan.blindingKey dn.denomPub ∧
          host.rsaVerify c.coinPub c.denomSig dn.denomPub = true := by
  intro blindSigs
  induction blindSigs with
  | nil =>
    intro planchets idx cs lengths made
    have none : planchets = [] := length_eq_zero_iff.mp lengths.symm
    subst none
    cases made
    refine ⟨rfl, ?_⟩
    intro index c h
    cases h
  | cons blindedSig blindSigs ih =>
    intro planchets idx cs lengths made
    cases planchets with
    | nil => cases lengths
    | cons p planchets =>
      obtain ⟨plan, dn⟩ := p
      obtain ⟨_, valid, made⟩ := Option.bind_eq_some_iff.mp made
      obtain ⟨ys, areOthers, made⟩ := Option.bind_eq_some_iff.mp made
      cases made
      obtain ⟨length, matching⟩ := ih (Nat.succ.inj lengths) areOthers
      have isValid : host.rsaVerify plan.publicKey
          (host.rsaUnblind blindedSig plan.blindingKey dn.denomPub) dn.denomPub =
            true := by
        by_contra invalid
        simp [guard, invalid] at valid
      refine ⟨congrArg Nat.succ length, ?_⟩
      intro index c h
      cases index with
      | zero =>
        cases h
        exact ⟨rfl, plan, dn, blindedSig, rfl, rfl, rfl, rfl, rfl, rfl, rfl, rfl, rfl, isValid⟩
      | succ index =>
        obtain ⟨src, later⟩ := matching index c h
        refine ⟨?_, later⟩
        rw [src]
        congr 1
        omega

theorem newCoinRecords_match {tip : TipRecord} {denoms blindSigs : List String}
    {coins : List Coin} (derived : Derived host dns url secretSeed denoms planchets)
    (lengths : blindSigs.length = planchets.length)
    (made : newCoinRecords host tip 0 blindSigs planchets = some coins) :
    CoinsMatch host tip.walletTipId secretSeed denoms coins := by
  obtain ⟨length, matching⟩ := newCoinRecords_spec lengths made
  refine ⟨length.trans derived.length, blindSigs, lengths.trans length.symm, ?_⟩
  intro idx c h
  obtain ⟨src, plan, dn, blindedSig, isPlan, isSig, hash, pub, cp, coinPriv,
    blindingKey, coinEvHash, denomSig, valid⟩ := matching idx c h
  obtain ⟨isDerived, isDenom, -⟩ := derived.derived idx _ isPlan
  rw [Nat.zero_add] at src
  refine ⟨hash ▸ isDenom, src, plan, blindedSig, ?_, isSig, cp, coinPriv, blindingKey,
    coinEvHash, ?_, ?_⟩
  · rw [pub]
    exact isDerived
  · rw [pub]
    exact denomSig
  · rw [pub]
    exact valid

end Planchets

structure SameTip (tip tip' : TipRecord) : Prop where
  walletTipId : tip'.walletTipId = tip.walletTipId
  uri : tip'.uri = tip.uri
  origin : tip'.origin = tip.origin

inductive Move (host : TipHost) (wallet : TipWallet) : Effect → Prop where
  | goes {next : Point} (sound : next.Sound host wallet.denominations wallet.log) :
      Move host wallet (.goto next)
  | changes {walletTipId : String} {tip tip' : TipRecord} {next : Point}
      (found : wallet.tips.get? walletTipId = some tip) (same : SameTip tip tip')
      (pickedUp : tip'.pickedUpTimestamp = tip.pickedUpTimestamp)
      (sound : next.Sound host wallet.denominations wallet.log) :
      Move host wallet (.put (some tip') next)
  | creates {tip : TipRecord} {result : PrepareTipResult}
      (fresh : wallet.log.any (Trace.creates tip.walletTipId) = false)
      (unknown : ∀ walletTipId old, wallet.tips.get? walletTipId = some old → old.uri ≠ tip.uri)
      (new : tip.pickedUpTimestamp = none) :
      Move host wallet ⟨.prepared result, some tip, [], [.created tip]⟩
  | asks {tip : TipRecord} {planchets : List (Planchet × Denomination)}
      (known : Known wallet.log tip)
      (derived : Derived host wallet.denominations tip.exchangeBaseUrl tip.secretSeed tip.denoms
        planchets) :
      Move host wallet
        ⟨.pickupAnswer tip planchets, none, [],
          [.pickup tip.walletTipId (planchetsDetail planchets)]⟩
  | stores {walletTipId : String} {tip : TipRecord} {now : Nat} {coins : List Coin}
      (found : wallet.tips.get? walletTipId = some tip) (waiting : tip.pickedUpTimestamp = none)
      (sound : (Point.storeCoins walletTipId coins).Sound host wallet.denominations wallet.log) :
      Move host wallet
        ⟨.finished, some (tip.pickUp now), coins, [.newCoins walletTipId coins]⟩

section Moves

variable {host : TipHost} {wallet w : TipWallet}

theorem throws_sound {denominations : Record (String × String) Denomination} {log : List Trace}
    (pt : Point) (err : String) : (pt.throws err).Sound host denominations log := by
  cases pt <;> trivial

theorem Move.maps {tipId : String} {change : TipRecord → TipRecord} {next : Point}
    (eq : ∀ tip, SameTip tip (change tip))
    (pickedUp : ∀ tip, (change tip).pickedUpTimestamp = tip.pickedUpTimestamp)
    (sound : next.Sound host w.denominations w.log) :
    Move host w (.put ((w.tips.get? tipId).map change) next) := by
  cases h : w.tips.get? tipId with
  | none => exact .goes sound
  | some tip => exact .changes h (eq tip) (pickedUp tip) sound

theorem byUri_none {uri : TipUri} (none : w.byUri uri = none) (tipId : String)
    (tip : TipRecord) (h : w.tips.get? tipId = some tip) : tip.uri ≠ uri := by
  have ne := find?_eq_none.mp none tip (Record.get?_mem_values h)
  simpa using ne

theorem selectDenominations_sound {env : Surroundings} {uri : TipUri}
    {st : TipPickupStatus} {costs : AmountJson} :
    (selectDenominations w env uri st costs).Sound host w.denominations
      w.log := by
  unfold selectDenominations
  dsimp only
  split <;> trivial

theorem readDenom_sound {tip : TipRecord} {count : Nat} {denomPubHash : String}
    {rest : List (Nat × String)} {planchets : List (Planchet × Denomination)}
    (met : Settled host w)
    (sound : (Point.readDenoms tip ((count, denomPubHash) :: rest) planchets).Sound host
      w.denominations w.log) :
    (readDenom host w tip count denomPubHash rest planchets).Sound host w.denominations
      w.log := by
  obtain ⟨has, ds, parts, derived⟩ := sound
  unfold readDenom
  cases h : w.denominations.get? (tip.exchangeBaseUrl, denomPubHash) with
  | none => trivial
  | some dn =>
    have hash : dn.denomPubHash = denomPubHash := congrArg Prod.snd (met.denomsKeyed _ _ h)
    refine ⟨has, ds ++ List.replicate count denomPubHash, ?_, ?_⟩
    · rw [parts, units_cons, append_assoc]
    · subst hash
      exact addPlanchets_derived h derived

theorem unblind_sound {tip : TipRecord} {planchets : List (Planchet × Denomination)}
    {blindSigs : List String}
    (sound : (Point.pickupAnswer tip planchets).Sound host w.denominations w.log) :
    (unblind host tip planchets blindSigs).Sound host w.denominations w.log := by
  obtain ⟨⟨made, isMade, sameId, sameOrigin⟩, derived⟩ := sound
  unfold unblind
  split
  next => trivial
  next lengths =>
    split
    next => trivial
    next cs areCoins =>
      refine ⟨made, isMade, sameId, ?_⟩
      obtain ⟨-, sameRest⟩ := Prod.mk.inj sameOrigin
      obtain ⟨sameSeed, sameDenoms⟩ := Prod.mk.inj sameRest
      rw [sameSeed, TipRecord.denoms, sameDenoms]
      exact newCoinRecords_match derived (by omega) areCoins

theorem advance_move {pt : Point} {ans : Answer} {effect : Effect}
    (met : Settled host wallet) (sound : pt.Sound host wallet.denominations wallet.log)
    (fresh : ∀ env draw, ans = .proceed env draw →
      wallet.log.any (Trace.creates draw.walletTipId) = false)
    (unknown : ∀ env draw uri status costs denomsSel,
      ans = .proceed env draw → pt = .storeTip uri status costs denomsSel →
      wallet.byUri uri = none)
    (r : advance host wallet pt ans = some effect) : Move host wallet effect := by
  cases ans with
  | failure err =>
    have thrown : effect = .goto (pt.throws err) := by
      cases pt with
      | prepared result => cases r
      | finished => cases r
      | incrementTipRetry tipId err => cases r
      | _ =>
        cases r
        rfl
    rw [thrown]
    exact .goes (throws_sound pt err)
  | tipStatus status =>
    cases pt with
    | tipStatusRequest uri =>
      cases r
      exact .goes trivial
    | _ => cases r
  | withdrawalInfo costs =>
    cases pt with
    | withdrawDetails uri status =>
      cases r
      exact .goes trivial
    | _ => cases r
  | blindSigs blindSigs =>
    cases pt with
    | pickupAnswer tip planchets =>
      cases r
      exact .goes (unblind_sound sound)
    | _ => cases r
  | httpStatus status =>
    cases pt with
    | pickupAnswer tip planchets =>
      cases r
      exact .goes trivial
    | _ => cases r
  | proceed env draw =>
    cases pt with
    | prepareTip uri =>
      cases r
      cases wallet.byUri uri with
      | none => exact .goes trivial
      | some tip => exact .goes trivial
    | selectDenominations uri status costs =>
      cases r
      exact .goes selectDenominations_sound
    | storeTip uri status costs denomsSel =>
      cases r
      exact .creates (fresh env draw rfl)
        (byUri_none (unknown env draw uri status costs denomsSel rfl rfl)) rfl
    | acceptTip tipId =>
      unfold advance at r
      dsimp only at r
      cases h : wallet.tips.get? tipId with
      | none =>
        rw [h] at r
        cases r
        exact .goes trivial
      | some tip =>
        rw [h] at r
        cases r
        exact .changes h ⟨rfl, rfl, rfl⟩ rfl trivial
    | resetTipRetry tipId =>
      cases r
      exact Move.maps (fun _ => ⟨rfl, rfl, rfl⟩) (fun _ => rfl) trivial
    | processTipImpl tipId =>
      unfold advance at r
      dsimp only at r
      cases h : wallet.tips.get? tipId with
      | none =>
        rw [h] at r
        cases r
        exact .goes trivial
      | some tip =>
        rw [h] at r
        dsimp only at r
        split at r
        next =>
          cases r
          exact .goes trivial
        next =>
          cases r
          exact .goes ⟨met.created tipId tip h, [], rfl, rfl, by simp⟩
    | readDenoms tip rest planchets =>
      cases rest with
      | nil =>
        cases r
        obtain ⟨has, ds, parts, derived⟩ := sound
        rw [units_nil, append_nil] at parts
        subst parts
        exact .goes ⟨has, derived⟩
      | cons dh rest =>
        cases r
        exact .goes (readDenom_sound met sound)
    | pickupRequest tip planchets =>
      cases r
      exact .asks sound.1 sound.2
    | signatureInvalid tipId =>
      cases r
      exact Move.maps (fun _ => ⟨rfl, rfl, rfl⟩) (fun _ => rfl) trivial
    | storeCoins tipId cs =>
      unfold advance at r
      dsimp only at r
      cases h : wallet.tips.get? tipId with
      | none =>
        rw [h] at r
        cases r
        exact .goes trivial
      | some tip =>
        rw [h] at r
        dsimp only at r
        split at r
        next =>
          cases r
          exact .goes trivial
        next waiting =>
          cases r
          exact .stores h (by simpa using waiting) sound
    | incrementTipRetry tipId err =>
      cases r
      exact Move.maps (fun _ => ⟨rfl, rfl, rfl⟩) (fun _ => rfl) trivial
    | _ => cases r

end Moves

def Careful (wallet : TipWallet) : TipEvent → Prop
  | .call index (.proceed _ _) =>
    ∀ uri status costs denomsSel,
      wallet.calls[index]? = some (.storeTip uri status costs denomsSel) →
      wallet.byUri uri = none
  | _ => True

def Trace.Sound (host : TipHost) (wallet next : TipWallet) : Trace → Prop
  | .newCoins walletTipId coins =>
    next.coins = TipWallet.putCoins coins wallet.coins ∧
    ∃ tip tip', wallet.tips.get? walletTipId = some tip ∧
      next.tips.get? walletTipId = some tip' ∧
      tip.pickedUpTimestamp = none ∧ tip'.pickedUpTimestamp.isSome ∧
      CoinsMatch host walletTipId tip.secretSeed tip.denoms coins
  | _ => True

/-- Tips are received once, in a wallet and in the steps from it. -/
structure ReceivedOnce (host : TipHost) (step : TipWallet → TipEvent → TipWallet → Prop)
    (wallet : TipWallet) : Prop where
  single : ∀ first second tip tip', wallet.tips.get? first = some tip →
    wallet.tips.get? second = some tip' → tip.uri = tip'.uri → first = second
  once : ∀ walletTipId, wallet.writes walletTipId ≤ 1
  written : ∀ walletTipId tip, wallet.tips.get? walletTipId = some tip →
    wallet.writes walletTipId = if tip.pickedUpTimestamp.isSome then 1 else 0
  requests : ∀ walletTipId request request', .pickup walletTipId request ∈ wallet.log →
    .pickup walletTipId request' ∈ wallet.log → request = request'
  entries : ∀ event next, step wallet event next →
    ∃ added, next.log = wallet.log ++ added ∧ ∀ entry ∈ added, entry.Sound host wallet next

section Steps

variable {host : TipHost} {wallet w next : TipWallet}

theorem settled_start : Settled host .start := by
  constructor
  · intro tipId tip h
    cases h
  · intro key dn h
    cases h
  · intro tipId tip h
    cases h
  · intro tip tip' mem
    cases mem
  · intro x y tip tip' h
    cases h
  · intro tipId cs mem
    cases mem
  · intro tipId
    exact Nat.zero_le 1
  · intro tipId tip h
    cases h
  · intro tipId req mem
    cases mem
  · intro pt mem
    cases mem

/-- The step adds entries to the log that make no tip, and changes tips at most as they say. -/
theorem Settled.follows (met : Settled host w) {entries : List Trace}
    (grown : Grown w.denominations next.denominations)
    (denomsKeyed : ∀ key dn, next.denominations.get? key = some dn → dn.key = key)
    (log : next.log = w.log ++ entries) (noTip : ∀ made, .created made ∉ entries)
    (tips : ∀ walletTipId tip', next.tips.get? walletTipId = some tip' →
      ∃ tip, w.tips.get? walletTipId = some tip ∧ SameTip tip tip' ∧
        (if tip'.pickedUpTimestamp.isSome then 1 else 0) =
          (if tip.pickedUpTimestamp.isSome then 1 else 0) +
            entries.countP (Trace.writes walletTipId))
    (logged : ∀ walletTipId cs, .newCoins walletTipId cs ∈ entries →
      ∃ made, .created made ∈ w.log ∧ made.walletTipId = walletTipId) (once : ∀ walletTipId,
      w.writes walletTipId + entries.countP (Trace.writes walletTipId) ≤ 1)
    (requests : ∀ walletTipId req, .pickup walletTipId req ∈ entries →
      ∃ made planchets, .created made ∈ w.log ∧ made.walletTipId = walletTipId ∧
        Derived host w.denominations made.exchangeBaseUrl made.secretSeed made.denoms
          planchets ∧ req = planchetsDetail planchets)
    (calls : ∀ pt ∈ next.calls, pt.Sound host next.denominations next.log) : Settled host next := by
  have longer : w.log ⊆ next.log := by
    rw [log]
    exact subset_append_left _ _
  have created : ∀ made, .created made ∈ next.log → .created made ∈ w.log := by
    intro made mem
    rw [log] at mem
    exact (mem_append.mp mem).resolve_right (noTip made)
  have writes : ∀ walletTipId, next.writes walletTipId =
      w.writes walletTipId + entries.countP (Trace.writes walletTipId) := by
    intro walletTipId
    rw [TipWallet.writes, log, countP_append, TipWallet.writes]
  constructor
  · intro walletTipId tip' h
    obtain ⟨tip, wasTip, eq, -⟩ := tips walletTipId tip' h
    exact eq.walletTipId.trans (met.keyed walletTipId tip wasTip)
  · exact denomsKeyed
  · intro walletTipId tip' h
    obtain ⟨tip, wasTip, eq, -⟩ := tips walletTipId tip' h
    obtain ⟨made, isMade, sameId, sameOrigin⟩ := met.created walletTipId tip wasTip
    exact ⟨made, longer isMade, sameId.trans eq.walletTipId.symm, sameOrigin.trans eq.origin.symm⟩
  · intro made made' isMade isMade' eq
    exact met.unique made made' (created made isMade) (created made' isMade') eq
  · intro x y tip tip' isFirst isSecond sameUri
    obtain ⟨old, wasFirst, eq, -⟩ := tips x tip isFirst
    obtain ⟨old', wasSecond, same', -⟩ := tips y tip' isSecond
    exact met.single x y old old' wasFirst wasSecond
      (eq.uri.symm.trans (sameUri.trans same'.uri))
  · intro walletTipId cs mem
    rw [log] at mem
    obtain ⟨made, isMade, eq⟩ : ∃ made, .created made ∈ w.log ∧ made.walletTipId = walletTipId :=
      (mem_append.mp mem).elim (met.logged walletTipId cs) (logged walletTipId cs)
    exact ⟨made, longer isMade, eq⟩
  · intro walletTipId
    rw [writes]
    exact once walletTipId
  · intro walletTipId tip' h
    obtain ⟨tip, wasTip, -, pickedUp⟩ := tips walletTipId tip' h
    rw [writes, pickedUp, met.written walletTipId tip wasTip]
  · intro walletTipId req mem
    rw [log] at mem
    obtain ⟨made, planchets, isMade, sameId, derived, isRequest⟩ :=
      (mem_append.mp mem).elim (met.requests walletTipId req) (requests walletTipId req)
    exact ⟨made, planchets, longer isMade, sameId, derived.mono grown, isRequest⟩
  · exact calls

theorem Settled.quiet (met : Settled host w) (grown : Grown w.denominations next.denominations)
    (denomsKeyed : ∀ key dn, next.denominations.get? key = some dn → dn.key = key)
    (log : next.log = w.log) (tips : ∀ tipId tip', next.tips.get? tipId = some tip' →
      ∃ tip, w.tips.get? tipId = some tip ∧ SameTip tip tip' ∧
        tip'.pickedUpTimestamp = tip.pickedUpTimestamp)
    (calls : ∀ pt ∈ next.calls, pt.Sound host next.denominations next.log) : Settled host next := by
  refine met.follows grown denomsKeyed (log.trans (append_nil _).symm)
    (fun _ => not_mem_nil) ?_ (fun _ _ mem => absurd mem not_mem_nil)
    met.once (fun _ _ mem => absurd mem not_mem_nil) calls
  intro tipId tip' h
  obtain ⟨tip, wasTip, eq, pickedUp⟩ := tips tipId tip' h
  exact ⟨tip, wasTip, eq, by rw [pickedUp]; rfl⟩

variable {index idx : Nat}

theorem set_calls {pt : Point} {log : List Trace} (met : Settled host w)
    (longer : w.log ⊆ log) (sound : pt.Sound host w.denominations log) :
    ∀ y ∈ w.calls.set idx pt, y.Sound host w.denominations log := by
  intro y mem
  cases mem_or_eq_of_mem_set mem with
  | inl old => exact (met.calls y old).mono (Grown.refl _) longer
  | inr new =>
    rw [new]
    exact sound

theorem tips_refl (tipId : String) (tip : TipRecord) (h : w.tips.get? tipId = some tip) :
    ∃ old, w.tips.get? tipId = some old ∧ SameTip old tip ∧
      tip.pickedUpTimestamp = old.pickedUpTimestamp := ⟨tip, h, ⟨rfl, rfl, rfl⟩, rfl⟩

theorem Settled.creates (met : Settled host w) {tip : TipRecord}
    {res : PrepareTipResult} (fresh : w.log.any (Trace.creates tip.walletTipId) = false)
    (unknown : ∀ walletTipId old, w.tips.get? walletTipId = some old → old.uri ≠ tip.uri)
    (new : tip.pickedUpTimestamp = none) :
    Settled host (w.apply idx ⟨.prepared res, some tip, [], [.created tip]⟩) := by
  have unused : ∀ made, .created made ∈ w.log → made.walletTipId ≠ tip.walletTipId := by
    intro made mem eq
    have creates := List.any_eq_false.mp fresh _ mem
    exact creates (decide_eq_true eq)
  have unwritten : w.writes tip.walletTipId = 0 := by
    apply countP_eq_zero.mpr
    intro e mem isEntry
    cases e with
    | newCoins found cs =>
      obtain ⟨made, isMade, eq⟩ := met.logged found cs mem
      exact unused made isMade (eq.trans (of_decide_eq_true isEntry))
    | _ => cases isEntry
  have longer : w.log ⊆ w.log ++ [Trace.created tip] := subset_append_left _ _
  have writes : ∀ walletTipId, (w.log ++ [Trace.created tip]).countP (Trace.writes walletTipId) =
        w.writes walletTipId := by
    intro walletTipId
    rw [countP_append]
    rfl
  have tips : ∀ walletTipId found, (w.tips.set tip.walletTipId tip).get? walletTipId = some found →
      walletTipId = tip.walletTipId ∧ found = tip ∨ w.tips.get? walletTipId = some found := by
    intro walletTipId found h
    rw [Record.get?_set] at h
    split at h
    next eq =>
      cases h
      exact .inl ⟨eq, rfl⟩
    next => exact .inr h
  constructor
  · intro walletTipId found h
    cases tips walletTipId found h with
    | inl own => rw [own.2, own.1]
    | inr old => exact met.keyed walletTipId found old
  · exact met.denomsKeyed
  · intro walletTipId found h
    cases tips walletTipId found h with
    | inl own =>
      rw [own.2]
      exact ⟨tip, mem_append_right _ mem_cons_self, rfl, rfl⟩
    | inr old => exact (met.created walletTipId found old).mono longer
  · intro made made' isMade isMade' eq
    cases mem_append.mp isMade with
    | inl old =>
      cases mem_append.mp isMade' with
      | inl old' => exact met.unique made made' old old' eq
      | inr last =>
        cases mem_singleton.mp last
        exact absurd eq (unused made old)
    | inr x =>
      cases mem_singleton.mp x
      cases mem_append.mp isMade' with
      | inl old' => exact absurd eq.symm (unused made' old')
      | inr last =>
        cases mem_singleton.mp last
        rfl
  · intro x y found got h isFound' sameUri
    cases tips x found h with
    | inl own =>
      cases tips y got isFound' with
      | inl own' => exact own.1.trans own'.1.symm
      | inr old' =>
        rw [own.2] at sameUri
        exact absurd sameUri.symm (unknown y got old')
    | inr old =>
      cases tips y got isFound' with
      | inl own' =>
        rw [own'.2] at sameUri
        exact absurd sameUri (unknown x found old)
      | inr old' => exact met.single x y found got old old' sameUri
  · intro walletTipId cs mem
    cases mem_append.mp mem with
    | inl old =>
      obtain ⟨made, isMade, eq⟩ := met.logged walletTipId cs old
      exact ⟨made, longer isMade, eq⟩
    | inr last => cases mem_singleton.mp last
  · intro walletTipId
    rw [TipWallet.writes, TipWallet.apply, writes]
    exact met.once walletTipId
  · intro walletTipId found h
    rw [TipWallet.writes, TipWallet.apply, writes]
    cases tips walletTipId found h with
    | inl own =>
      rw [own.2, own.1, unwritten, new]
      rfl
    | inr old => exact met.written walletTipId found old
  · intro walletTipId req mem
    cases mem_append.mp mem with
    | inl old =>
      obtain ⟨made, planchets, isMade, rest⟩ := met.requests walletTipId req old
      exact ⟨made, planchets, longer isMade, rest⟩
    | inr last => cases mem_singleton.mp last
  · exact set_calls met longer trivial

theorem set_tips (met : Settled host w) {tipId : String} {tip tip' : TipRecord}
    (h : w.tips.get? tipId = some tip) (eq : SameTip tip tip')
    (otherId : String) (after : TipRecord)
    (isAfter : (w.tips.set tip'.walletTipId tip').get? otherId = some after) :
    otherId = tipId ∧ after = tip' ∨ otherId ≠ tipId ∧ w.tips.get? otherId = some after := by
  rw [eq.walletTipId, met.keyed tipId tip h, Record.get?_set] at isAfter
  split at isAfter
  next sameId =>
    cases isAfter
    exact .inl ⟨sameId, rfl⟩
  next ne => exact .inr ⟨ne, isAfter⟩

theorem Move.settled {effect : Effect} (met : Settled host w)
    (move : Move host w effect) : Settled host (w.apply idx effect) := by
  have longer : w.log ⊆ w.log ++ effect.trace := subset_append_left _ _
  cases move with
  | goes sound =>
    refine met.quiet (Grown.refl _) met.denomsKeyed ?_ ?_ ?_
    · exact append_nil _
    · exact tips_refl
    · exact set_calls met longer (sound.mono (Grown.refl _) longer)
  | changes h eq pickedUp sound =>
    refine met.quiet (Grown.refl _) met.denomsKeyed ?_ ?_ ?_
    · exact append_nil _
    · intro otherId after isAfter
      cases set_tips met h eq otherId after isAfter with
      | inl own =>
        rw [own.1, own.2]
        exact ⟨_, h, eq, pickedUp⟩
      | inr y => exact tips_refl otherId after y.2
    · exact set_calls met longer (sound.mono (Grown.refl _) longer)
  | creates fresh unknown new => exact met.creates fresh unknown new
  | @asks tip planchets has derived =>
    refine met.follows (Grown.refl _) met.denomsKeyed rfl (by simp) ?_ (by simp)
      met.once ?_ (set_calls met longer ?_)
    · intro tipId tip' h
      exact ⟨tip', h, ⟨rfl, rfl, rfl⟩, rfl⟩
    · intro tipId req isEntry
      cases mem_singleton.mp isEntry
      obtain ⟨made, isMade, sameId, sameOrigin⟩ := has
      obtain ⟨sameExchange, sameRest⟩ := Prod.mk.inj sameOrigin
      obtain ⟨sameSeed, sameDenoms⟩ := Prod.mk.inj sameRest
      refine ⟨made, planchets, isMade, sameId, ?_, rfl⟩
      rw [sameExchange, sameSeed, TipRecord.denoms, sameDenoms]
      exact derived
    · exact Point.Sound.mono (Grown.refl _) longer ⟨has, derived⟩
  | @stores tipId tip now cs h waiting sound =>
    have unwritten := met.written tipId tip h
    rw [waiting] at unwritten
    have own : [Trace.newCoins tipId cs].countP (Trace.writes tipId) = 1 := by
      simp [Trace.writes]
    have apart : ∀ otherId, otherId ≠ tipId →
        [Trace.newCoins tipId cs].countP (Trace.writes otherId) = 0 := by
      intro otherId ne
      simp [Trace.writes, ne.symm]
    have eq : SameTip tip (tip.pickUp now) := ⟨rfl, rfl, rfl⟩
    refine met.follows (Grown.refl _) met.denomsKeyed rfl (by simp) ?_ ?_ ?_ (by simp)
      (set_calls met longer trivial)
    · intro otherId after isAfter
      cases set_tips met h eq otherId after isAfter with
      | inl changed =>
        rw [changed.1, changed.2, own]
        refine ⟨tip, h, eq, ?_⟩
        rw [waiting]
        rfl
      | inr y =>
        refine ⟨after, y.2, ⟨rfl, rfl, rfl⟩, ?_⟩
        rw [apart otherId y.1, Nat.add_zero]
    · intro otherId ys isEntry
      cases mem_singleton.mp isEntry
      obtain ⟨made, isMade, sameId, -⟩ := sound
      exact ⟨made, isMade, sameId⟩
    · intro otherId
      by_cases changed : otherId = tipId
      · rw [changed, own, unwritten]
        decide
      · rw [apart otherId changed]
        exact met.once otherId

theorem Move.entries {effect : Effect} (met : Settled host w) (move : Move host w effect) :
    ∀ e ∈ effect.trace, e.Sound host w (w.apply idx effect) := by
  intro e mem
  cases move with
  | goes => cases mem
  | changes => cases mem
  | creates =>
    rw [mem_singleton.mp mem]
    trivial
  | asks =>
    rw [mem_singleton.mp mem]
    trivial
  | @stores tipId tip now cs h waiting sound =>
    rw [mem_singleton.mp mem]
    refine ⟨rfl, tip, tip.pickUp now, h, ?_, waiting, rfl, ?_⟩
    · change (w.tips.set tip.walletTipId (tip.pickUp now)).get? tipId = _
      rw [met.keyed tipId tip h, Record.get?_set, if_pos rfl]
    obtain ⟨made, isMade, sameId, matching⟩ := sound
    obtain ⟨made', isMade', sameId', sameOrigin⟩ := met.created tipId tip h
    have sameMade : made = made' := by
      apply met.unique made made' isMade isMade'
      rw [sameId, sameId', met.keyed tipId tip h]
    subst sameMade
    obtain ⟨-, sameRest⟩ := Prod.mk.inj sameOrigin
    obtain ⟨sameSeed, sameDenoms⟩ := Prod.mk.inj sameRest
    rw [sameSeed, TipRecord.denoms, sameDenoms] at matching
    exact matching

def CarefulStep (host : TipHost) : TipWallet → TipEvent → TipWallet → Prop :=
  Guarded Careful (TipStep host)

theorem step_settled {ev : TipEvent} (met : Settled host wallet)
    (step : CarefulStep host wallet ev next) : Settled host next ∧
      ∃ added, next.log = wallet.log ++ added ∧ ∀ e ∈ added, e.Sound host wallet next := by
  obtain ⟨careful, r, fresh⟩ := step
  have begins : ∀ pt : Point, pt.Sound host wallet.denominations wallet.log →
      Settled host (wallet.begin pt) := by
    intro pt sound
    refine met.quiet (Grown.refl _) met.denomsKeyed rfl tips_refl ?_
    intro y mem
    cases mem_append.mp mem with
    | inl old => exact met.calls y old
    | inr last =>
      rw [mem_singleton.mp last]
      exact sound
  have silent : wallet.log = wallet.log ++ [] := (append_nil _).symm
  have noEntries : ∀ next : TipWallet, ∀ e ∈ ([] : List Trace), e.Sound host wallet next := by
    intro next e mem
    cases mem
  cases ev with
  | prepareTip uri =>
    cases r
    exact ⟨begins _ trivial, [], silent, noEntries _⟩
  | acceptTip tipId =>
    cases r
    exact ⟨begins _ trivial, [], silent, noEntries _⟩
  | processTip tipId forceNow =>
    cases r
    refine ⟨begins _ ?_, [], silent, noEntries _⟩
    split <;> trivial
  | call idx ans =>
    obtain ⟨pt, isPoint, r⟩ := Option.bind_eq_some_iff.mp r
    obtain ⟨effect, advanced, r⟩ := Option.bind_eq_some_iff.mp r
    cases r
    have sound := met.calls pt (mem_of_getElem? isPoint)
    have move : Move host wallet effect := by
      apply advance_move met sound _ _ advanced
      · intro env draw isAnswer
        subst isAnswer
        exact fresh
      intro env draw uri st costs denomsSel isAnswer isStore
      subst isAnswer isStore
      exact careful uri st costs denomsSel isPoint
    exact ⟨move.settled met, effect.trace, rfl, move.entries met⟩
  | deleteTip tipId =>
    cases r
    refine ⟨?_, [], silent, noEntries _⟩
    refine met.quiet (Grown.refl _) met.denomsKeyed rfl ?_ met.calls
    intro otherId tip h
    rw [Record.get?_erase] at h
    split at h
    next => cases h
    next => exact tips_refl otherId tip h
  | putCoin c =>
    cases r
    refine ⟨?_, [], silent, noEntries _⟩
    exact met.quiet (Grown.refl _) met.denomsKeyed rfl tips_refl met.calls
  | putDenomination dn =>
    cases r
    refine ⟨?_, [], silent, noEntries _⟩
    have grown : Grown wallet.denominations (wallet.denominations.set dn.key dn) := by
      intro key old h
      rw [Record.get?_set]
      split
      next eq =>
        subst eq
        exact ⟨dn, rfl, (fresh old h).symm⟩
      next => exact ⟨old, h, rfl⟩
    refine met.quiet grown ?_ rfl tips_refl ?_
    · intro key h isF
      rw [Record.get?_set] at isF
      split at isF
      next eq =>
        cases isF
        exact eq.symm
      next => exact met.denomsKeyed key h isF
    · intro pt mem
      exact (met.calls pt mem).mono grown (List.Subset.refl _)
  | restarted =>
    cases r
    refine ⟨?_, [], silent, noEntries _⟩
    refine met.quiet (Grown.refl _) met.denomsKeyed rfl tips_refl ?_
    intro pt mem
    cases mem

/-- Careful runs receive their tips once. -/
theorem tips_receivedOnce {events : List TipEvent}
    (run : Run (CarefulStep host) .start events wallet) :
    ReceivedOnce host (CarefulStep host) wallet := by
  have settled : Settled host wallet := run.invariant (Settled host) settled_start
      fun _ _ _ settled step => (step_settled settled step).1
  constructor
  · exact settled.single
  · exact settled.once
  · exact settled.written
  · intro walletTipId request request' member member'
    obtain ⟨made, planchets, isMade, sameId, derived, isRequest⟩ :=
      settled.requests walletTipId request member
    obtain ⟨made', planchets', isMade', sameId', derived', isRequest'⟩ :=
      settled.requests walletTipId request' member'
    have same := settled.unique made made' isMade isMade' (sameId.trans sameId'.symm)
    subst same
    rw [isRequest, isRequest']
    exact derived.detail_eq derived'
  · intro event next step
    exact (step_settled settled step).2

end Steps

section Example

def exampleHost : TipHost where
  setupTipPlanchet secretSeed index :=
    { coinPub := secretSeed ++ String.ofList (List.replicate index 'P')
      coinPriv := secretSeed
      bks := secretSeed }
  rsaBlind coinPubHash _ denomPub := coinPubHash ++ denomPub
  hash data := data
  rsaUnblind blindedSig _ _ := blindedSig
  rsaVerify _ _ _ := true

def exampleNow : Surroundings := ⟨1000, true⟩

def exampleUri : TipUri := ⟨"tip", "https://merchant/"⟩

theorem one_inRange : (AmountJson.ofValue 1).units < limit := by decide

def exampleDenom : Denomination where
  exchangeBaseUrl := "https://exchange/"
  denomPubHash := "one"
  currency := "KUDOS"
  value := .ofValue 1
  feeWithdraw := Amounts.getZero
  feeRefresh := Amounts.getZero
  feeRefund := Amounts.getZero
  stampStart := .at 0
  stampExpireWithdraw := .never
  isOffered := true
  isRevoked := false
  verificationStatus := .verifiedGood
  valueInRange := one_inRange
  denomPub := "key"

def exampleStatus : TipPickupStatus := ⟨"KUDOS", .ofValue 1, "https://exchange/", .never⟩

def exampleProceed (index : Nat) (walletTipId : String) : TipEvent :=
  .call index (.proceed exampleNow ⟨walletTipId, walletTipId ++ "seed", "uid"⟩)

def step? (wallet : TipWallet) (event : TipEvent) : Option TipWallet :=
  match event with
  | .call _ (.proceed _ draw) =>
    if wallet.log.any (Trace.creates draw.walletTipId) then none
    else wallet.perform exampleHost event
  | .putDenomination denom =>
    if (wallet.denominations.get? denom.key).isSome then none
    else wallet.perform exampleHost event
  | _ => wallet.perform exampleHost event

theorem step?_step (wallet : TipWallet) (ev : TipEvent) (next : TipWallet)
    (r : step? wallet ev = some next) : TipStep exampleHost wallet ev next := by
  cases ev with
  | call idx ans =>
    cases ans with
    | proceed env draw =>
      rw [step?] at r
      split at r
      next => cases r
      next fresh => exact ⟨r, by simpa using fresh⟩
    | _ => exact ⟨r, trivial⟩
  | putDenomination dn =>
    rw [step?] at r
    split at r
    next => cases r
    next gone =>
      refine ⟨r, ?_⟩
      intro old h
      rw [h] at gone
      exact absurd rfl gone
  | _ => exact ⟨r, trivial⟩

def exampleTwice : List TipEvent :=
  [.prepareTip exampleUri, .prepareTip exampleUri, exampleProceed 0 "a", exampleProceed 1 "b",
    .call 0 (.tipStatus exampleStatus), .call 0 (.withdrawalInfo Amounts.getZero),
    exampleProceed 0 "a", exampleProceed 0 "a",
    .call 1 (.tipStatus exampleStatus), .call 1 (.withdrawalInfo Amounts.getZero),
    exampleProceed 1 "b", exampleProceed 1 "b"]

theorem tip_known_twice : ¬ ∀ host events wallet,
    Run (TipStep host) .start events wallet → ReceivedOnce host (TipStep host) wallet := by
  intro receivedOnce
  have facts : (exampleTwice.foldlM step? .start).map (fun wallet =>
      ((wallet.tips.get? "a").map TipRecord.uri, (wallet.tips.get? "b").map TipRecord.uri)) =
        some (some exampleUri, some exampleUri) := by decide +kernel
  obtain ⟨wallet, isWallet, facts⟩ := Option.map_eq_some_iff.mp facts
  obtain ⟨first, second⟩ := Prod.mk.inj facts
  obtain ⟨tip, isTip, sameUri⟩ := Option.map_eq_some_iff.mp first
  obtain ⟨tip', isTip', sameUri'⟩ := Option.map_eq_some_iff.mp second
  have run := Run.ofFoldlM step?_step isWallet
  have same := (receivedOnce exampleHost _ wallet run).single "a" "b" tip tip' isTip isTip'
    (sameUri.trans sameUri'.symm)
  exact absurd same (by decide)

def exampleAccepted : List TipEvent :=
  [.putDenomination exampleDenom, .prepareTip exampleUri, exampleProceed 0 "a",
    .call 0 (.tipStatus exampleStatus), .call 0 (.withdrawalInfo Amounts.getZero),
    exampleProceed 0 "a", exampleProceed 0 "a", .acceptTip "a", exampleProceed 1 "b",
    exampleProceed 1 "b", exampleProceed 1 "b", exampleProceed 1 "b", exampleProceed 1 "b",
    .call 1 (.failure "timeout"), exampleProceed 1 "b", .processTip "a" true,
    exampleProceed 2 "b", exampleProceed 2 "b", exampleProceed 2 "b", exampleProceed 2 "b",
    exampleProceed 2 "b", .call 2 (.blindSigs ["blind"]), exampleProceed 2 "b"]

def carefulStep? (wallet : TipWallet) (event : TipEvent) : Option TipWallet :=
  if wallet.tips.values.isEmpty then step? wallet event
  else
    match event with
    | .call index (.proceed _ _) =>
      match wallet.calls[index]? with
      | some (.storeTip _ _ _ _) => none
      | _ => step? wallet event
    | _ => step? wallet event

theorem carefulStep?_step (wallet : TipWallet) (ev : TipEvent) (next : TipWallet)
    (r : carefulStep? wallet ev = some next) : CarefulStep exampleHost wallet ev next := by
  unfold carefulStep? at r
  split at r
  next empty =>
    refine ⟨?_, step?_step _ _ _ r⟩
    have unknown : ∀ uri, wallet.byUri uri = none := by
      intro uri
      rw [TipWallet.byUri, List.isEmpty_iff.mp empty]
      rfl
    cases ev with
    | call idx ans =>
      cases ans with
      | proceed env draw =>
        intro uri st costs denomsSel _
        exact unknown uri
      | _ => trivial
    | _ => trivial
  next =>
    cases ev with
    | call idx ans =>
      cases ans with
      | proceed env draw =>
        dsimp only at r
        split at r
        next => cases r
        next y =>
          refine ⟨?_, step?_step _ _ _ r⟩
          intro uri st costs denomsSel isStore
          exact absurd isStore (y uri st costs denomsSel)
      | _ => exact ⟨trivial, step?_step _ _ _ r⟩
    | _ => exact ⟨trivial, step?_step _ _ _ r⟩

def Trace.asks : Trace → Bool
  | .pickup _ _ => true
  | _ => false

theorem accepted_receivedOnce : ∃ wallet,
    Run (CarefulStep exampleHost) .start exampleAccepted wallet ∧
      wallet.log.countP Trace.asks = 2 ∧ wallet.writes "a" = 1 ∧
      ReceivedOnce exampleHost (CarefulStep exampleHost) wallet := by
  have facts : (exampleAccepted.foldlM carefulStep? .start).map (fun wallet =>
      (wallet.log.countP Trace.asks, wallet.writes "a")) = some (2, 1) := by decide +kernel
  obtain ⟨wallet, isWallet, facts⟩ := Option.map_eq_some_iff.mp facts
  obtain ⟨asked, written⟩ := Prod.mk.inj facts
  have run := Run.ofFoldlM carefulStep?_step isWallet
  exact ⟨wallet, run, asked, written, tips_receivedOnce run⟩

end Example

end Anastasis.Wallet.Tips
