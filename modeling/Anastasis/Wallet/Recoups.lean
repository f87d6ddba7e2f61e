import Anastasis.Wallet.Refunds

/-! Recoup groups: what is taken from revoked coins, and where it is put back. -/

set_option autoImplicit false

namespace Anastasis.Wallet

open Library Library.Transition AmountJson List Option

inductive CoinSource where
  | withdraw (reservePub : String)
  | refresh (oldCoinPub : String)
  | tip

/-- The recoup of one coin of a group, after the exchange has confirmed it. -/
def processRecoup (surroundings : Surroundings) (coinSource : String → CoinSource)
    (recoupGroupId refreshGroupId : String) (coinIdx : Nat) (db : PaymentStores) :
    Option PaymentStores :=
  match db.recouping recoupGroupId coinIdx with
  | none => some db
  | some (_, recouping) => do
      let _ ← db.wallet.coins.get? recouping.coinPub
      match coinSource recouping.coinPub with
      | .tip => recoupTipCoin surroundings recoupGroupId refreshGroupId coinIdx db
      | .withdraw reservePub =>
        recoupWithdrawCoin surroundings recoupGroupId refreshGroupId reservePub coinIdx db
      | .refresh oldCoinPub =>
        recoupRefreshCoin surroundings recoupGroupId refreshGroupId oldCoinPub coinIdx db

section Lists

variable {Item Found : Type} {pick : Item → Option Found} {change : Item → Item}

theorem filterMap_modify_same {items : List Item} :
    ∀ {idx : Nat} {item : Item}, items[idx]? = some item → pick (change item) = pick item →
      (items.modify idx change).filterMap pick = items.filterMap pick := by
  induction items with
  | nil =>
    intro idx item h
    cases h
  | cons x rest ih =>
    intro idx item h eq
    cases idx with
    | zero =>
      cases h
      rw [modify_zero_cons, filterMap_cons, filterMap_cons, eq]
    | succ idx =>
      rw [modify_succ_cons, filterMap_cons, filterMap_cons]
      rw [ih (by simpa using h) eq]

theorem filterMap_modify_new {items : List Item} {v : Found} :
    ∀ {idx : Nat} {item : Item}, items[idx]? = some item → pick item = none →
      pick (change item) = some v →
      ((items.modify idx change).filterMap pick).Perm (items.filterMap pick ++ [v]) := by
  induction items with
  | nil =>
    intro idx item h
    cases h
  | cons x rest ih =>
    intro idx item h pre after
    cases idx with
    | zero =>
      cases h
      rw [modify_zero_cons, filterMap_cons_some after, filterMap_cons_none pre]
      exact (perm_append_singleton _ _).symm
    | succ idx =>
      have later := ih (by simpa using h) pre after
      rw [modify_succ_cons, filterMap_cons, filterMap_cons]
      cases pick x with
      | none => exact later
      | some kept => exact later.cons kept

end Lists

/-- What the group has put back on old coins, one credit for each recouped coin. -/
def RecoupGroupRecord.creditsOf (coinSource : String → CoinSource) (group : RecoupGroupRecord) :
    List (String × AmountJson) :=
  group.coins.filterMap fun coin =>
    if coin.recoupFinished then
      match coinSource coin.coinPub, coin.oldAmount with
      | .refresh oldCoinPub, some oldAmount => some (oldCoinPub, oldAmount)
      | _, _ => none
    else none

def RecoupGroupRecord.parked (group : RecoupGroupRecord) : List (String × AmountJson) :=
  group.coins.filterMap fun coin => coin.oldAmount.map fun oldAmount => (coin.coinPub, oldAmount)

def totalOf (coinPub : String) (amounts : List (String × AmountJson)) : Nat :=
  ((amounts.filter fun entry => entry.1 = coinPub).map fun entry => entry.2.units).sum

theorem totalOf_append (coinPub : String) (x second : List (String × AmountJson)) :
    totalOf coinPub (x ++ second) = totalOf coinPub x + totalOf coinPub second := by
  rw [totalOf, filter_append, map_append, sum_append]
  rfl

theorem totalOf_perm {coinPub : String} {x second : List (String × AmountJson)}
    (eq : x.Perm second) : totalOf coinPub x = totalOf coinPub second :=
  ((eq.filter _).map _).sum_eq

theorem totalOf_self (pub : String) (amount : AmountJson) :
    totalOf pub [(pub, amount)] = amount.units := by
  simp [totalOf]

theorem totalOf_other {pub y : String} (ne : y ≠ pub)
    (amount : AmountJson) : totalOf pub [(y, amount)] = 0 := by
  simp [totalOf, ne]

section Finishing

variable {surroundings env : Surroundings} {recoupGroupId groupId cgId refreshGroupId gid : String}
  {group group' : RecoupGroupRecord} {coinIdx : Nat} {db db' : PaymentStores}

structure CoinFinished (recoupGroupId refreshGroupId : String) (group : RecoupGroupRecord)
    (coinIdx : Nat) (db : PaymentStores) (group' : RecoupGroupRecord) (db' : PaymentStores) :
    Prop where
  coins : group'.coins = (group.setFinished coinIdx).coins
  scheduled : group'.scheduleRefreshCoins = group.scheduleRefreshCoins
  finished : group'.timestampFinished.isSome ↔ group'.allFinished
  stored : db'.recoupGroups.get? recoupGroupId = some group'
  credits : db'.credits = db.credits
  unfinished : group'.timestampFinished = none → db'.wallet = db.wallet
  nothing : group.scheduleRefreshCoins = [] → db'.wallet = db.wallet
  refreshed : group'.timestampFinished.isSome → group.scheduleRefreshCoins ≠ [] →
    GroupOver refreshGroupId group.scheduleRefreshCoins db.wallet db'.wallet

theorem putGroupAsFinished_finished (todo : group.timestampFinished = none)
    (r : putGroupAsFinished env cgId gid group coinIdx db = some (group', db')) :
    CoinFinished cgId gid group coinIdx db group' db' := by
  unfold putGroupAsFinished at r
  rw [todo] at r
  rw [if_neg (by simp)] at r
  dsimp only at r
  split at r
  next all =>
    obtain ⟨mid, busy, r⟩ := bind_eq_some_iff.mp r
    cases r
    unfold PaymentStores.refreshAny at busy
    split at busy
    next none =>
      cases busy
      have empty : group.scheduleRefreshCoins = [] := List.isEmpty_iff.mp none
      constructor
      · rfl
      · rfl
      · exact ⟨fun _ => all, fun _ => rfl⟩
      · exact Record.get?_set_self _ _ _
      · rfl
      · nofun
      · exact fun _ => rfl
      · exact fun _ some => absurd empty some
    next some =>
      obtain ⟨w, made, busy⟩ := bind_eq_some_iff.mp busy
      cases busy
      constructor
      · rfl
      · rfl
      · exact ⟨fun _ => all, fun _ => rfl⟩
      · exact Record.get?_set_self _ _ _
      · rfl
      · nofun
      · intro none
        exact absurd (List.isEmpty_iff.mpr none) some
      · exact fun _ _ => createRefreshGroup_over made
  next left =>
    cases r
    constructor
    · rfl
    · rfl
    · constructor
      · intro ended
        rw [RecoupGroupRecord.setFinished, todo] at ended
        cases ended
      · exact fun all => absurd all left
    · exact Record.get?_set_self _ _ _
    · rfl
    · exact fun _ => rfl
    · exact fun _ => rfl
    intro ended
    rw [RecoupGroupRecord.setFinished, todo] at ended
    cases ended

end Finishing

section Creating

def Parks (parked : Nat) (coin coin' : CoinRecord) : Prop :=
  coin'.currentAmount.units + parked = coin.currentAmount.units

structure Parking (coinPubs : List String) (start : PaymentStores) (coinIdx : Nat)
    (group : RecoupGroupRecord) (db : PaymentStores) : Prop where
  listed : group.coins.map RecoupingCoin.coinPub = coinPubs
  later : ∀ index : Nat, coinIdx ≤ index → ∀ coin, group.coins[index]? = some coin →
    coin.recoupFinished = false ∧ coin.oldAmount = none
  earlier : ∀ index : Nat, index < coinIdx → ∀ coin, group.coins[index]? = some coin →
    (coin.recoupFinished = true ↔ coin.oldAmount = none)
  parked : ∀ coinPub, Option.Rel (Parks (totalOf coinPub group.parked))
    (start.wallet.coins.get? coinPub) (db.wallet.coins.get? coinPub)
  empty : ∀ index : Nat, index < coinIdx → ∀ coinPub, coinPubs[index]? = some coinPub →
    ∀ coin, db.wallet.coins.get? coinPub = some coin → coin.currentAmount.units = 0
  finished : group.timestampFinished.isSome ↔ group.allFinished
  unscheduled : group.scheduleRefreshCoins = []
  credits : db.credits = start.credits
  same : db.wallet = { start.wallet with coins := db.wallet.coins }

variable {surroundings env : Surroundings} {recoupGroupId groupId cgId refreshGroupId gid : String}
  {group group' : RecoupGroupRecord} {coinIdx : Nat} {start db db' : PaymentStores}
  {coinPubs cps : List String} {coinPub cp pub : String}

theorem unfinished_of_coin {c : RecoupingCoin} (h : group.coins[coinIdx]? = some c)
    (left : c.recoupFinished = false) : ¬ group.allFinished := by
  intro all
  have ended := List.all_eq_true.mp all c (mem_of_getElem? h)
  rw [left] at ended
  cases ended

theorem Parking.coin (parking : Parking cps start coinIdx group db)
    (isPub : cps[coinIdx]? = some pub) : ∃ c, group.coins[coinIdx]? = some c ∧ c.coinPub = pub ∧
      c.recoupFinished = false ∧ c.oldAmount = none := by
  rw [← parking.listed, getElem?_map] at isPub
  obtain ⟨c, h, eq⟩ := map_eq_some_iff.mp isPub
  exact ⟨c, h, eq, parking.later coinIdx le_rfl c h⟩

theorem Parking.unfinished (parking : Parking cps start coinIdx group db)
    (isPub : cps[coinIdx]? = some pub) : group.timestampFinished = none := by
  obtain ⟨c, h, -, left, -⟩ := parking.coin isPub
  rw [← not_isSome_iff_eq_none, parking.finished]
  exact unfinished_of_coin h left

theorem setFinished_parked (group : RecoupGroupRecord) (coinIdx : Nat) :
    (group.setFinished coinIdx).parked = group.parked := by
  unfold RecoupGroupRecord.parked RecoupGroupRecord.setFinished
  cases h : group.coins[coinIdx]? with
  | none => rw [modify_eq_self (List.getElem?_eq_none_iff.mp h)]
  | some c => exact filterMap_modify_same h rfl

theorem Parking.finish (parking : Parking cps start coinIdx group db)
    (isPub : cps[coinIdx]? = some pub)
    (none : ∀ c, db.wallet.coins.get? pub = some c → c.currentAmount.units = 0)
    (ended : CoinFinished cgId gid group coinIdx db group' db') :
    Parking cps start (coinIdx + 1) group' db' := by
  have w := ended.nothing parking.unscheduled
  have cs : ∀ idx : Nat, group'.coins[idx]? = (group.setFinished coinIdx).coins[idx]? := by
    intro idx
    rw [ended.coins]
  have apart : ∀ idx : Nat, idx ≠ coinIdx → group'.coins[idx]? = group.coins[idx]? := by
    intro idx ne
    rw [cs]
    exact getElem?_modify_ne _ _ (Ne.symm ne)
  obtain ⟨recouping, h, -, -, noAmount⟩ := parking.coin isPub
  constructor
  · rw [ended.coins, ← parking.listed]
    apply map_modify_same
    exact fun _ => rfl
  · intro idx after c isC
    rw [apart idx (by omega)] at isC
    exact parking.later idx (by omega) c isC
  · intro idx pre c isC
    by_cases eq : idx = coinIdx
    · subst eq
      rw [cs, RecoupGroupRecord.setFinished, getElem?_modify_eq, h] at isC
      cases isC
      exact ⟨fun _ => noAmount, fun _ => rfl⟩
    · rw [apart idx eq] at isC
      exact parking.earlier idx (by omega) c isC
  · intro y
    have parked : group'.parked = group.parked := by
      rw [RecoupGroupRecord.parked, ended.coins]
      exact setFinished_parked group coinIdx
    rw [parked, w]
    exact parking.parked y
  · intro idx pre y isO c isC
    rw [w] at isC
    by_cases eq : idx = coinIdx
    · subst eq
      cases isPub.symm.trans isO
      exact none c isC
    · exact parking.empty idx (by omega) y isO c isC
  · exact ended.finished
  · rw [ended.scheduled, parking.unscheduled]
  · rw [ended.credits, parking.credits]
  · rw [w, parking.same]

theorem setOldAmount_parked {c : RecoupingCoin} (h : group.coins[coinIdx]? = some c)
    (noAmount : c.oldAmount = none) (amount : AmountJson) :
    (group.setOldAmount coinIdx amount).parked.Perm (group.parked ++ [(c.coinPub, amount)]) := by
  apply filterMap_modify_new h
  · rw [noAmount]
    rfl
  · rfl

theorem Parking.park (parking : Parking cps start coinIdx group db)
    (isPub : cps[coinIdx]? = some pub) {c : CoinRecord} (isC : db.wallet.coins.get? pub = some c) :
    Parking cps start (coinIdx + 1) (group.setOldAmount coinIdx c.currentAmount)
      (db.putCoin pub c.withoutAmount) := by
  obtain ⟨recouping, h, samePub, left, noAmount⟩ := parking.coin isPub
  have apart : ∀ idx : Nat, idx ≠ coinIdx →
      (group.setOldAmount coinIdx c.currentAmount).coins[idx]? = group.coins[idx]? :=
    fun idx ne => getElem?_modify_ne _ _ (Ne.symm ne)
  have self : (db.putCoin pub c.withoutAmount).wallet.coins.get? pub =
      some c.withoutAmount := Record.get?_set_self _ _ _
  have ys : ∀ other, other ≠ pub → (db.putCoin pub c.withoutAmount).wallet.coins.get? other =
        db.wallet.coins.get? other := fun other ne => Record.get?_set_of_ne _ _ ne
  have parked := setOldAmount_parked h noAmount c.currentAmount
  rw [samePub] at parked
  constructor
  · rw [← parking.listed]
    apply map_modify_same
    exact fun _ => rfl
  · intro idx after item isItem
    rw [apart idx (by omega)] at isItem
    exact parking.later idx (by omega) item isItem
  · intro idx pre item isItem
    by_cases eq : idx = coinIdx
    · subst eq
      rw [RecoupGroupRecord.setOldAmount, getElem?_modify_eq, h] at isItem
      cases isItem
      rw [left]
      simp
    · rw [apart idx eq] at isItem
      exact parking.earlier idx (by omega) item isItem
  · intro other
    rw [totalOf_perm parked, totalOf_append]
    have pre := parking.parked other
    by_cases eq : other = pub
    · subst eq
      rw [totalOf_self, self]
      rw [isC] at pre
      generalize start.wallet.coins.get? other = x at pre
      cases pre with
      | some parks =>
        apply Option.Rel.some
        unfold Parks at parks ⊢
        rw [CoinRecord.withoutAmount, Amounts.getZero_units]
        omega
    · rw [totalOf_other (Ne.symm eq), Nat.add_zero, ys other eq]
      exact pre
  · intro idx pre other isO h isF
    by_cases eq : other = pub
    · subst eq
      cases self.symm.trans isF
      exact Amounts.getZero_units
    rw [ys other eq] at isF
    have old : idx ≠ coinIdx := by
      rintro rfl
      cases isPub.symm.trans isO
      exact eq rfl
    exact parking.empty idx (by omega) other isO h isF
  · have all : (group.setOldAmount coinIdx c.currentAmount).allFinished = group.allFinished := by
      unfold RecoupGroupRecord.allFinished RecoupGroupRecord.setOldAmount
      have flags := @map_modify_same _ _ RecoupingCoin.recoupFinished
        (fun item => { item with oldAmount := some c.currentAmount }) (fun _ => rfl)
        group.coins coinIdx
      have flags' := congrArg (fun flags => flags.all id) flags
      simpa [List.all_map] using flags'
    rw [all]
    exact parking.finished
  · exact parking.unscheduled
  · exact parking.credits
  · rw [PaymentStores.putCoin, parking.same]

theorem recoupCoins_parking {rest : List String} :
    ∀ {coinIdx : Nat} {group : RecoupGroupRecord} {db : PaymentStores},
      coinIdx ≤ cps.length → cps.drop coinIdx = rest →
      Parking cps start coinIdx group db → recoupCoins env cgId gid coinIdx rest group db =
        some (group', db') → Parking cps start cps.length group' db' := by
  induction rest with
  | nil =>
    intro coinIdx group db within left parking r
    cases r
    have all : coinIdx = cps.length := Nat.le_antisymm within (drop_eq_nil_iff.mp left)
    rw [← all]
    exact parking
  | cons coinPub rest ih =>
    intro coinIdx group db within left parking r
    have isPub : cps[coinIdx]? = some coinPub := by
      rw [← head?_drop, left]
      rfl
    have further : coinIdx + 1 ≤ cps.length := (List.getElem?_eq_some_iff.mp isPub).1
    have remaining' : cps.drop (coinIdx + 1) = rest := by
      rw [← tail_drop, left]
      rfl
    have todo := parking.unfinished isPub
    unfold recoupCoins at r
    cases isC : db.wallet.coins.get? coinPub with
    | none =>
      rw [isC] at r
      obtain ⟨⟨mid, middleDb⟩, finishes, r⟩ := bind_eq_some_iff.mp r
      apply ih further remaining' _ r
      apply parking.finish isPub _ (putGroupAsFinished_finished todo finishes)
      intro c h
      cases isC.symm.trans h
    | some c =>
      rw [isC] at r
      dsimp only at r
      split at r
      next isZero =>
        obtain ⟨⟨mid, middleDb⟩, finishes, r⟩ := bind_eq_some_iff.mp r
        apply ih further remaining' _ r
        apply parking.finish isPub _ (putGroupAsFinished_finished todo finishes)
        intro h isF
        cases isC.symm.trans isF
        exact (Amounts.isZero_iff _).mp isZero
      next => exact ih further remaining' (parking.park isPub isC) r

structure RecoupCreated (coinPubs : List String) (start db : PaymentStores)
    (group : RecoupGroupRecord) : Prop where
  listed : group.coins.map RecoupingCoin.coinPub = coinPubs
  finished : ∀ coin ∈ group.coins, coin.recoupFinished = true ↔ coin.oldAmount = none
  parked : ∀ coinPub, Option.Rel (Parks (totalOf coinPub group.parked))
    (start.wallet.coins.get? coinPub) (db.wallet.coins.get? coinPub)
  empty : ∀ coinPub ∈ coinPubs, ∀ coin, db.wallet.coins.get? coinPub = some coin →
    coin.currentAmount.units = 0
  allFinished : group.timestampFinished.isSome ↔ group.allFinished
  unscheduled : group.scheduleRefreshCoins = []
  credits : db.credits = start.credits
  same : db.wallet = { start.wallet with coins := db.wallet.coins }

theorem createRecoupGroup_created (some : coinPubs ≠ [])
    (r : createRecoupGroup env cgId gid coinPubs start =
      Option.some db) :
    ∃ group, db.recoupGroups.get? cgId = Option.some group ∧
      RecoupCreated coinPubs start db group := by
  obtain ⟨⟨group, mid⟩, recouped, r⟩ := bind_eq_some_iff.mp r
  cases r
  refine ⟨group, Record.get?_set_self _ _ _, ?_⟩
  have initial : Parking coinPubs start 0
      { coins := coinPubs.map fun pub => ⟨pub, false, none⟩
        scheduleRefreshCoins := []
        timestampFinished := none } start := by
    constructor
    · rw [List.map_map]
      exact List.map_id _
    · intro idx _ c isC
      rw [getElem?_map] at isC
      obtain ⟨pub, -, rfl⟩ := map_eq_some_iff.mp isC
      exact ⟨rfl, rfl⟩
    · intro idx pre
      cases pre
    · intro pub
      have nothing : totalOf pub (RecoupGroupRecord.parked
          ⟨coinPubs.map fun pub => ⟨pub, false, none⟩, [], none⟩) = 0 := by
        unfold RecoupGroupRecord.parked
        rw [filterMap_eq_nil_iff.mpr]
        · rfl
        · intro c mem
          obtain ⟨_, -, rfl⟩ := List.mem_map.mp mem
          rfl
      rw [nothing]
      cases start.wallet.coins.get? pub with
      | none => exact .none
      | some c =>
        apply Option.Rel.some
        exact Nat.add_zero _
    · intro idx pre
      cases pre
    · constructor
      · nofun
      · intro all
        cases coinPubs with
        | nil => exact absurd rfl some
        | cons => cases all
    · rfl
    · rfl
    · rfl
  have parking := recoupCoins_parking (Nat.zero_le _) (drop_zero) initial recouped
  have within : ∀ {idx : Nat} {c}, group.coins[idx]? = Option.some c →
      idx < coinPubs.length := by
    intro idx c isC
    have length := congrArg List.length parking.listed
    rw [length_map] at length
    rw [← length]
    exact (List.getElem?_eq_some_iff.mp isC).1
  constructor
  · exact parking.listed
  · intro c mem
    obtain ⟨idx, isC⟩ := mem_iff_getElem?.mp mem
    exact parking.earlier idx (within isC) c isC
  · exact parking.parked
  · intro pub mem c isC
    obtain ⟨idx, isPub⟩ := mem_iff_getElem?.mp mem
    exact parking.empty idx (List.getElem?_eq_some_iff.mp isPub).1 pub isPub c isC
  · exact parking.finished
  · exact parking.unscheduled
  · exact parking.credits
  · exact parking.same

end Creating

section Recouping

variable {surroundings env : Surroundings} {coinSource : String → CoinSource}
  {recoupGroupId groupId cgId refreshGroupId gid : String} {group group' : RecoupGroupRecord} {coinIdx : Nat}
  {coin c : RecoupingCoin} {db db' : PaymentStores}

/-- What happens to the coins and to the group before the coin is finished. -/
inductive RecoupCase (coinSource : String → CoinSource) (coin : RecoupingCoin)
    (group : RecoupGroupRecord) (db : PaymentStores) :
    RecoupGroupRecord → PaymentStores → Prop where
  | tip : coinSource coin.coinPub = .tip → RecoupCase coinSource coin group db group db
  | withdraw {reservePub : String} {revokedCoin : CoinRecord} :
      coinSource coin.coinPub = .withdraw reservePub →
      db.wallet.coins.get? coin.coinPub = some revokedCoin →
      RecoupCase coinSource coin group db group
        (db.putCoin coin.coinPub revokedCoin.asleep.withoutAmount)
  | refresh {oldCoinPub : String} {oldCoin revokedCoin : CoinRecord} {oldAmount : AmountJson} :
      coinSource coin.coinPub = .refresh oldCoinPub →
      db.wallet.coins.get? oldCoinPub = some oldCoin →
      db.wallet.coins.get? coin.coinPub = some revokedCoin →
      coin.oldAmount = some oldAmount →
      RecoupCase coinSource coin group db
        { group with scheduleRefreshCoins := group.scheduleRefreshCoins ++ [oldCoinPub] }
        (((db.putCoin coin.coinPub revokedCoin.asleep).putCoin oldCoinPub
          (oldCoin.credit oldAmount Amounts.getZero)).addCredit oldCoinPub oldAmount)

theorem processRecoup_cases (r : processRecoup env coinSource cgId gid coinIdx db =
      some db') : db' = db ∨ ∃ group c scheduled mid group',
      db.recouping cgId coinIdx = some (group, c) ∧ RecoupCase coinSource c group db scheduled mid ∧
      putGroupAsFinished env cgId gid scheduled coinIdx mid = some (group', db') := by
  unfold processRecoup at r
  split at r
  next =>
    cases r
    exact .inl rfl
  next group c isRecouping =>
    obtain ⟨h, isF, r⟩ := bind_eq_some_iff.mp r
    cases src : coinSource c.coinPub with
    | tip =>
      rw [src] at r
      dsimp only [recoupTipCoin] at r
      rw [isRecouping] at r
      obtain ⟨⟨group', ended⟩, finishes, r⟩ := bind_eq_some_iff.mp r
      cases r
      exact .inr ⟨group, c, group, db, group', isRecouping, .tip src, finishes⟩
    | withdraw pub =>
      rw [src] at r
      dsimp only [recoupWithdrawCoin] at r
      rw [isRecouping] at r
      dsimp only at r
      rw [isF] at r
      cases rv : db.wallet.reserves.get? pub with
      | none =>
        rw [rv] at r
        cases r
        exact .inl rfl
      | some _ =>
        rw [rv] at r
        obtain ⟨⟨group', ended⟩, finishes, r⟩ := bind_eq_some_iff.mp r
        cases r
        exact .inr ⟨group, c, group, _, group', isRecouping, .withdraw src isF, finishes⟩
    | refresh oldCoinPub =>
      rw [src] at r
      dsimp only [recoupRefreshCoin] at r
      rw [isRecouping] at r
      dsimp only at r
      rw [isF] at r
      cases isOld : db.wallet.coins.get? oldCoinPub with
      | none =>
        rw [isOld] at r
        cases r
        exact .inl rfl
      | some oldCoin =>
        rw [isOld] at r
        obtain ⟨oldAmount, isAmount, r⟩ := bind_eq_some_iff.mp r
        obtain ⟨-, -, r⟩ := bind_eq_some_iff.mp r
        obtain ⟨⟨group', ended⟩, finishes, r⟩ := bind_eq_some_iff.mp r
        cases r
        exact .inr ⟨group, c, _, _, group', isRecouping, .refresh src isOld isF isAmount, finishes⟩

theorem recouping_found (h : db.recouping gid coinIdx = some (group, c)) :
    db.recoupGroups.get? gid = some group ∧ group.coins[coinIdx]? = some c ∧
      c.recoupFinished = false := by
  obtain ⟨group', isGroup, h⟩ := bind_eq_some_iff.mp h
  obtain ⟨coin', isC, h⟩ := bind_eq_some_iff.mp h
  split at h
  next => cases h
  next left =>
    cases h
    exact ⟨isGroup, isC, by simpa using left⟩

def Credited (total : Nat) (coin coin' : CoinRecord) : Prop :=
  coin'.currentAmount.units = coin.currentAmount.units + total

structure Recouping (coinSource : String → CoinSource) (recoupGroupId : String)
    (start : PaymentStores) (first : RecoupGroupRecord) (db : PaymentStores)
    (group : RecoupGroupRecord) : Prop where
  stored : db.recoupGroups.get? recoupGroupId = some group
  parked : group.coins.map (fun coin => (coin.coinPub, coin.oldAmount)) =
    first.coins.map fun coin => (coin.coinPub, coin.oldAmount)
  finished : group.timestampFinished.isSome ↔ group.allFinished
  credits : ∃ credits, db.credits = start.credits ++ credits ∧
    credits.Perm (group.creditsOf coinSource) ∧
    group.scheduleRefreshCoins = credits.map Prod.fst
  amounts : group.timestampFinished = none → ∀ coinPub,
    Option.Rel (Credited (totalOf coinPub (group.creditsOf coinSource)))
      (start.wallet.coins.get? coinPub) (db.wallet.coins.get? coinPub)

structure RecoupRefreshed (coinSource : String → CoinSource) (refreshGroupId : String)
    (start : PaymentStores) (group' : RecoupGroupRecord) (db db' : PaymentStores) : Prop where
  none : group'.scheduleRefreshCoins = [] → db'.wallet.refreshGroups = db.wallet.refreshGroups
  one : group'.scheduleRefreshCoins ≠ [] → ∃ refreshGroup,
    db'.wallet.refreshGroups = db.wallet.refreshGroups.set refreshGroupId refreshGroup ∧
    refreshGroup.coins.map RefreshingCoin.oldCoinPub = group'.scheduleRefreshCoins ∧
    ∀ coinPub ∈ group'.scheduleRefreshCoins, ∃ coin,
      start.wallet.coins.get? coinPub = some coin ∧
      inputsOf coinPub refreshGroup.coins =
        coin.currentAmount.units + totalOf coinPub (group'.creditsOf coinSource)

theorem recouping_start {cps : List String} {start : PaymentStores}
    (made : RecoupCreated cps start db group)
    (kept : db.recoupGroups.get? recoupGroupId = some group) :
    Recouping coinSource recoupGroupId db group db group := by
  have nothing : group.creditsOf coinSource = [] := by
    apply filterMap_eq_nil_iff.mpr
    intro c mem
    split
    next ended =>
      rw [(made.finished c mem).mp ended]
      split
      next no => cases no
      next => rfl
    next => rfl
  constructor
  · exact kept
  · rfl
  · exact made.allFinished
  · exact ⟨[], (append_nil _).symm, by rw [nothing], made.unscheduled⟩
  intro _ pub
  rw [nothing]
  cases db.wallet.coins.get? pub with
  | none => exact .none
  | some c =>
    apply Option.Rel.some
    exact (Nat.add_zero _).symm

/-- A withdrawn coin has not been credited by the group, and credits do not reach the largest
amount. -/
def RecoupInRange (coinSource : String → CoinSource) (group : RecoupGroupRecord)
    (coin : RecoupingCoin) (db : PaymentStores) : Prop :=
  match coinSource coin.coinPub with
  | .tip => True
  | .withdraw _ => coin.coinPub ∉ group.scheduleRefreshCoins
  | .refresh oldCoinPub => ∀ oldCoin oldAmount,
      db.wallet.coins.get? oldCoinPub = some oldCoin → coin.oldAmount = some oldAmount →
      oldCoin.currentAmount.units + oldAmount.units < limit

structure BeforeFinish (coinSource : String → CoinSource) (start : PaymentStores)
    (group : RecoupGroupRecord) (coinIdx : Nat) (db : PaymentStores)
    (scheduled : RecoupGroupRecord) (middle : PaymentStores)
    (added : List (String × AmountJson)) : Prop where
  coins : scheduled.coins = group.coins
  timestampFinished : scheduled.timestampFinished = group.timestampFinished
  schedule : scheduled.scheduleRefreshCoins = group.scheduleRefreshCoins ++ added.map Prod.fst
  credits : middle.credits = db.credits ++ added
  credited : ((group.setFinished coinIdx).creditsOf coinSource).Perm
    (group.creditsOf coinSource ++ added)
  refreshGroups : middle.wallet.refreshGroups = db.wallet.refreshGroups
  amounts : ∀ coinPub,
    Option.Rel (Credited (totalOf coinPub (group.creditsOf coinSource ++ added)))
      (start.wallet.coins.get? coinPub) (middle.wallet.coins.get? coinPub)

variable {start : PaymentStores} {first x scheduled : RecoupGroupRecord} {middle mid : PaymentStores}

theorem totalOf_unscheduled {amounts : List (String × AmountJson)} {pub : String}
    (gone : pub ∉ amounts.map Prod.fst) : totalOf pub amounts = 0 := by
  have none : amounts.filter (fun e => e.1 = pub) = [] := by
    apply filter_eq_nil_iff.mpr
    intro e mem eq
    exact gone (List.mem_map.mpr ⟨e, mem, by simpa using eq⟩)
  rw [totalOf, none]
  rfl

theorem Recouping.unscheduled (recouping : Recouping coinSource gid start x db group)
    {pub : String} (gone : pub ∉ group.scheduleRefreshCoins) :
    totalOf pub (group.creditsOf coinSource) = 0 := by
  obtain ⟨credits, -, eq, schedule⟩ := recouping.credits
  rw [schedule] at gone
  rw [← totalOf_perm eq]
  exact totalOf_unscheduled gone

theorem setFinished_quiet (h : group.coins[coinIdx]? = some c) (left : c.recoupFinished = false)
    (src : ∀ oldCoinPub, coinSource c.coinPub ≠ .refresh oldCoinPub) :
    (group.setFinished coinIdx).creditsOf coinSource = group.creditsOf coinSource := by
  apply filterMap_modify_same h
  rw [left]
  cases kind : coinSource c.coinPub with
  | tip => rfl
  | withdraw => rfl
  | refresh oldCoinPub => exact absurd kind (src oldCoinPub)

theorem beforeFinish (recouping : Recouping coinSource gid start x db group)
    (todo : group.timestampFinished = none)
    (h : group.coins[coinIdx]? = some c) (left : c.recoupFinished = false)
    (parked : ∀ revokedCoin, start.wallet.coins.get? c.coinPub = some revokedCoin →
      revokedCoin.currentAmount.units = 0) (inRange : RecoupInRange coinSource group c db)
    (recoup : RecoupCase coinSource c group db scheduled middle) :
    ∃ added, BeforeFinish coinSource start group coinIdx db scheduled middle added := by
  have amounts := recouping.amounts todo
  cases recoup with
  | tip src =>
    have quiet : (group.setFinished coinIdx).creditsOf coinSource = group.creditsOf coinSource :=
      setFinished_quiet h left (by simp [src])
    refine ⟨[], rfl, rfl, (append_nil _).symm, (append_nil _).symm, ?_, rfl, ?_⟩
    · rw [quiet, append_nil]
    · rw [append_nil]
      exact amounts
  | @withdraw _ revokedCoin src isRevoked =>
    have quiet : (group.setFinished coinIdx).creditsOf coinSource = group.creditsOf coinSource :=
      setFinished_quiet h left (by simp [src])
    unfold RecoupInRange at inRange
    rw [src] at inRange
    have nothing := recouping.unscheduled inRange
    refine ⟨[], rfl, rfl, (append_nil _).symm, (append_nil _).symm, ?_, rfl, ?_⟩
    · rw [quiet, append_nil]
    rw [append_nil]
    intro coinPub
    by_cases eq : coinPub = c.coinPub
    · subst eq
      have self : (db.putCoin c.coinPub revokedCoin.asleep.withoutAmount).wallet.coins.get?
          c.coinPub = some revokedCoin.asleep.withoutAmount := Record.get?_set_self _ _ _
      have pre := amounts c.coinPub
      rw [self, nothing]
      rw [isRevoked] at pre
      generalize isStart : start.wallet.coins.get? c.coinPub = x at pre
      cases pre with
      | some =>
        apply Option.Rel.some
        rw [Credited, parked _ isStart, CoinRecord.withoutAmount, Amounts.getZero_units]
    · have y : (db.putCoin c.coinPub revokedCoin.asleep.withoutAmount).wallet.coins.get?
          coinPub = db.wallet.coins.get? coinPub := Record.get?_set_of_ne _ _ eq
      rw [y]
      exact amounts coinPub
  | @refresh oldCoinPub oldCoin revokedCoin oldAmount src isOld isRevoked isAmount =>
    unfold RecoupInRange at inRange
    rw [src] at inRange
    have below := inRange oldCoin oldAmount isOld isAmount
    refine ⟨[(oldCoinPub, oldAmount)], rfl, rfl, rfl, rfl, ?_, rfl, ?_⟩
    · unfold RecoupGroupRecord.creditsOf RecoupGroupRecord.setFinished
      apply filterMap_modify_new h
      · rw [left]
        rfl
      dsimp only
      rw [src, isAmount]
      rfl
    · intro coinPub
      rw [totalOf_append]
      have pre := amounts coinPub
      dsimp only [PaymentStores.addCredit, PaymentStores.putCoin]
      by_cases eq : coinPub = oldCoinPub
      · subst eq
        rw [totalOf_self, Record.get?_set_self]
        rw [isOld] at pre
        generalize start.wallet.coins.get? coinPub = x at pre
        cases pre with
        | some credited =>
          apply Option.Rel.some
          unfold Credited at credited ⊢
          rw [CoinRecord.credit, Amounts.sub_units, Amounts.add_one_units below,
            Amounts.getZero_units]
          omega
      · rw [totalOf_other (Ne.symm eq), Nat.add_zero, Record.get?_set_of_ne _ _ eq]
        by_cases revoked : coinPub = c.coinPub
        · subst revoked
          rw [Record.get?_set_self]
          rw [isRevoked] at pre
          generalize start.wallet.coins.get? c.coinPub = x at pre
          cases pre with
          | some credited =>
            apply Option.Rel.some
            exact credited
        · rw [Record.get?_set_of_ne _ _ revoked]
          exact pre

/-- The last step of a recoup: the group goes on, or its refresh takes everything. -/
theorem Recouping.finish (recouping : Recouping coinSource cgId start x db group)
    {added : List (String × AmountJson)}
    (pre : BeforeFinish coinSource start group coinIdx db scheduled mid added)
    (ended : CoinFinished cgId gid scheduled coinIdx mid group' db') :
    Recouping coinSource cgId start x db' group' ∧
      (group'.timestampFinished = none → db'.wallet.refreshGroups = db.wallet.refreshGroups) ∧
      (group'.timestampFinished.isSome → RecoupRefreshed coinSource gid start group' db db') := by
  have cs : group'.coins = (group.setFinished coinIdx).coins := by
    rw [ended.coins, RecoupGroupRecord.setFinished, RecoupGroupRecord.setFinished, pre.coins]
  have credits : group'.creditsOf coinSource = (group.setFinished coinIdx).creditsOf coinSource := by
    rw [RecoupGroupRecord.creditsOf, cs]
    rfl
  have total : ∀ pub, totalOf pub (group'.creditsOf coinSource) =
      totalOf pub (group.creditsOf coinSource ++ added) := by
    intro pub
    rw [credits]
    exact totalOf_perm pre.credited
  refine ⟨?_, ?_, ?_⟩
  · constructor
    · exact ended.stored
    · rw [← recouping.parked, cs]
      apply map_modify_same
      exact fun _ => rfl
    · exact ended.finished
    · obtain ⟨old, isCredits, eq, schedule⟩ := recouping.credits
      refine ⟨old ++ added, ?_, ?_, ?_⟩
      · rw [ended.credits, pre.credits, isCredits, append_assoc]
      · rw [credits]
        exact (eq.append_right added).trans pre.credited.symm
      · rw [ended.scheduled, pre.schedule, schedule, map_append]
    intro todo pub
    rw [ended.unfinished todo, total]
    exact pre.amounts pub
  · intro todo
    rw [ended.unfinished todo, pre.refreshGroups]
  · intro isFinished
    constructor
    · intro none
      rw [ended.scheduled] at none
      rw [ended.nothing none, pre.refreshGroups]
    intro some
    rw [ended.scheduled] at some ⊢
    have refreshed := ended.refreshed isFinished some
    obtain ⟨refreshGroup, isGroup, listed, taken⟩ := refreshed.group
    refine ⟨refreshGroup, by rw [isGroup, pre.refreshGroups], listed, ?_⟩
    intro pub mem
    obtain ⟨c, isC, inputs⟩ := taken pub mem
    have credited := pre.amounts pub
    rw [isC] at credited
    generalize start.wallet.coins.get? pub = x at credited
    cases credited with
    | some credited => exact ⟨_, rfl, by rw [inputs, total, credited]⟩

end Recouping

section Runs

/-- A recoup that the exchange has confirmed, or an attempt that failed. -/
inductive RecoupEvent where
  | recoup (surroundings : Surroundings) (refreshGroupId : String) (coinIdx : Nat)
  | failure

def RecoupStep (coinSource : String → CoinSource) (recoupGroupId : String) (db : PaymentStores)
    (event : RecoupEvent) (db' : PaymentStores) : Prop :=
  match event with
  | .recoup surroundings refreshGroupId coinIdx =>
    processRecoup surroundings coinSource recoupGroupId refreshGroupId coinIdx db = some db'
  | .failure => db' = db

def RecoupCondition (coinSource : String → CoinSource) (recoupGroupId : String)
    (db : PaymentStores) (event : RecoupEvent) : Prop :=
  match event with
  | .recoup _ _ coinIdx => ∀ group coin,
      db.recouping recoupGroupId coinIdx = some (group, coin) →
      RecoupInRange coinSource group coin db
  | .failure => True

structure RecoupNext (coinSource : String → CoinSource) (recoupGroupId : String)
    (start : PaymentStores) (group : RecoupGroupRecord) (db : PaymentStores)
    (event : RecoupEvent) (group' : RecoupGroupRecord) (db' : PaymentStores) : Prop where
  stored : db'.recoupGroups.get? recoupGroupId = some group'
  finishedStays : ∀ (coinIdx : Nat) coin, group.coins[coinIdx]? = some coin →
    coin.recoupFinished → group'.coins[coinIdx]? = some coin
  finishedOnce : ∀ surroundings refreshGroupId coinIdx,
    event = .recoup surroundings refreshGroupId coinIdx → ∀ coin,
    group.coins[coinIdx]? = some coin → coin.recoupFinished → db' = db
  refreshed : group.timestampFinished = none → group'.timestampFinished.isSome →
    ∃ surroundings refreshGroupId coinIdx, event = .recoup surroundings refreshGroupId coinIdx ∧
      RecoupRefreshed coinSource refreshGroupId start group' db db'
  noOther : (group.timestampFinished.isSome ∨ group'.timestampFinished = none) →
    db'.wallet.refreshGroups = db.wallet.refreshGroups

variable {coinSource : String → CoinSource} {recoupGroupId groupId cgId : String}
  {start : PaymentStores} {first x group : RecoupGroupRecord} {db db' : PaymentStores}
  {event ev : RecoupEvent}

theorem RecoupNext.idle (kept : db.recoupGroups.get? recoupGroupId = some group) :
    RecoupNext coinSource recoupGroupId start group db event group db := by
  constructor
  · exact kept
  · exact fun _ _ h _ => h
  · exact fun _ _ _ _ _ _ _ => rfl
  · intro none some
    rw [none] at some
    cases some
  · exact fun _ => rfl

theorem recoupStep_next (parked : ∀ c ∈ group.coins, ∀ revokedCoin,
      start.wallet.coins.get? c.coinPub = some revokedCoin → revokedCoin.currentAmount.units = 0)
    (recouping : Recouping coinSource cgId start x db group)
    (cond : RecoupCondition coinSource cgId db ev) (step : RecoupStep coinSource cgId db ev db') :
    ∃ group', Recouping coinSource cgId start x db' group' ∧
      RecoupNext coinSource cgId start group db ev group' db' := by
  cases ev with
  | failure =>
    cases step
    exact ⟨group, recouping, .idle recouping.stored⟩
  | recoup env gid coinIdx =>
    rcases processRecoup_cases step with
      rfl | ⟨kept, c, scheduled, mid, group', isRecouping, recoup, finishes⟩
    · exact ⟨group, recouping, .idle recouping.stored⟩
    obtain ⟨isStored, h, left⟩ := recouping_found isRecouping
    cases recouping.stored.symm.trans isStored
    have todo : group.timestampFinished = none := by
      rw [← not_isSome_iff_eq_none, recouping.finished]
      exact unfinished_of_coin h left
    obtain ⟨added, pre⟩ := beforeFinish recouping todo h left
      (parked c (mem_of_getElem? h)) (cond group c isRecouping) recoup
    have ended := putGroupAsFinished_finished (pre.timestampFinished.trans todo) finishes
    obtain ⟨later, quiet, refreshed⟩ := recouping.finish pre ended
    refine ⟨group', later, ?_⟩
    have apart : ∀ idx : Nat, idx ≠ coinIdx → group'.coins[idx]? = group.coins[idx]? := by
      intro idx ne
      rw [ended.coins, RecoupGroupRecord.setFinished, pre.coins]
      exact getElem?_modify_ne _ _ (Ne.symm ne)
    have isLeft : ∀ y, group.coins[coinIdx]? = some y → ¬ y.recoupFinished = true := by
      intro y isO ended
      cases h.symm.trans isO
      rw [left] at ended
      cases ended
    constructor
    · exact ended.stored
    · intro idx y isO isFinished
      rw [apart idx]
      · exact isO
      · rintro rfl
        exact isLeft y isO isFinished
    · intro _ _ idx eq y isO isFinished
      cases eq
      exact absurd isFinished (isLeft y isO)
    · intro _ isFinished
      exact ⟨env, gid, coinIdx, rfl, refreshed isFinished⟩
    rintro (some | none)
    · rw [todo] at some
      cases some
    · exact quiet none

/-- In runs where no withdrawn coin is recouped after the group has credited it, the group keeps
the value of its coins. -/
theorem recoup_group_conserves {surroundings : Surroundings} {refreshGroupId : String}
    {coinPubs : List String} {final : PaymentStores} {events : List RecoupEvent}
    (some : coinPubs ≠ [])
    (created : createRecoupGroup surroundings recoupGroupId refreshGroupId coinPubs db =
      Option.some start) (careful : Run (Guarded (RecoupCondition coinSource recoupGroupId)
      (RecoupStep coinSource recoupGroupId)) start events final) :
    ∃ first group, RecoupCreated coinPubs db start first ∧
      Recouping coinSource recoupGroupId start first final group ∧
      ∀ event next, RecoupCondition coinSource recoupGroupId final event →
        RecoupStep coinSource recoupGroupId final event next →
        ∃ group', RecoupNext coinSource recoupGroupId start group final event group' next := by
  obtain ⟨first, stored, isCreated⟩ := createRecoupGroup_created some created
  have parked : ∀ {db group}, Recouping coinSource recoupGroupId start first db group →
      ∀ coin ∈ group.coins, ∀ revokedCoin,
      start.wallet.coins.get? coin.coinPub = Option.some revokedCoin →
      revokedCoin.currentAmount.units = 0 := by
    intro db group recouping coin member
    apply isCreated.empty
    have pubs := congrArg (List.map Prod.fst) recouping.parked
    rw [List.map_map, List.map_map] at pubs
    rw [← isCreated.listed]
    exact pubs ▸ List.mem_map.mpr ⟨coin, member, rfl⟩
  have reached : ∃ group, Recouping coinSource recoupGroupId start first final group := by
    apply careful.invariant
      (fun db => ∃ group, Recouping coinSource recoupGroupId start first db group)
    · exact ⟨first, recouping_start isCreated stored⟩
    · rintro db event db' ⟨group, recouping⟩ ⟨condition, step⟩
      obtain ⟨group', later, -⟩ := recoupStep_next (parked recouping) recouping condition step
      exact ⟨group', later⟩
  obtain ⟨group, recouping⟩ := reached
  refine ⟨first, group, isCreated, recouping, ?_⟩
  intro event next condition step
  obtain ⟨group', -, facts⟩ := recoupStep_next (parked recouping) recouping condition step
  exact ⟨group', facts⟩

end Runs

section Examples

/-- A withdrawn coin of ten and a coin of one that it was refreshed to. -/
def exampleRevoked : PaymentStores :=
  { exampleStored with
    wallet := { exampleStored.wallet with
      coins := exampleStored.wallet.coins.set "change"
        { exampleCoin with
          coinPub := "change"
          denomPubHash := "one"
          currentAmount := .ofValue 1
          amountInRange := ofValue_inRange (by decide) }
      reserves := Record.empty.set "reserve" ⟨"KUDOS", true, .ofValue 11⟩ } }

def exampleSource (coinPub : String) : CoinSource :=
  if coinPub = "change" then .refresh "coin" else .withdraw "reserve"

def recoupStep? (db : PaymentStores) : RecoupEvent → Option PaymentStores
  | .recoup surroundings refreshGroupId coinIdx =>
    processRecoup surroundings exampleSource "group" refreshGroupId coinIdx db
  | .failure => some db

theorem recoupStep?_step (db : PaymentStores) (ev : RecoupEvent) (db' : PaymentStores)
    (r : recoupStep? db ev = some db') : RecoupStep exampleSource "group" db ev db' := by
  cases ev with
  | recoup => exact r
  | failure => exact (Option.some.inj r).symm

/-- What the refresh groups take of the withdrawn coin, and what its recoup group has put back. -/
def takenAndCredited (db : PaymentStores) : List Nat × Option (Bool × List String × Nat) :=
  (db.wallet.refreshGroups.values.map fun refreshGroup => inputsOf "coin" refreshGroup.coins,
    (db.recoupGroups.get? "group").map fun group =>
      (group.timestampFinished.isSome, group.scheduleRefreshCoins,
        totalOf "coin" (group.creditsOf exampleSource)))

/-- The change is recouped first; the recoup of the withdrawn coin drops what it was credited. -/
theorem recouped_credit_lost : ¬ ∀ coinSource surroundings recoupGroupId refreshGroupId coinPubs db
    start events final group, coinPubs ≠ [] →
    createRecoupGroup surroundings recoupGroupId refreshGroupId coinPubs db = some start →
    Run (RecoupStep coinSource recoupGroupId) start events final →
    final.recoupGroups.get? recoupGroupId = some group → group.timestampFinished.isSome →
    ∀ coinPub ∈ group.scheduleRefreshCoins, ∃ refreshGroupId refreshGroup,
      final.wallet.refreshGroups.get? refreshGroupId = some refreshGroup ∧
      totalOf coinPub (group.creditsOf coinSource) ≤ inputsOf coinPub refreshGroup.coins := by
  intro claim
  have outcome : (createRecoupGroup exampleSurroundings "group" "none" ["coin", "change"]
      exampleRevoked).bind (fun start => ([.recoup exampleSurroundings "refresh" 1,
        .recoup exampleSurroundings "refresh" 0].foldlM recoupStep? start).map takenAndCredited) =
      some ([0], some (true, ["coin"], 100000000)) := by decide +kernel
  obtain ⟨start, created, outcome⟩ := bind_eq_some_iff.mp outcome
  obtain ⟨final, recouped, amounts⟩ := map_eq_some_iff.mp outcome
  obtain ⟨taken, credited⟩ := Prod.mk.inj amounts
  obtain ⟨group, isGroup, facts⟩ := map_eq_some_iff.mp credited
  obtain ⟨finished, rest⟩ := Prod.mk.inj facts
  obtain ⟨schedule, total⟩ := Prod.mk.inj rest
  obtain ⟨id, refreshGroup, isRefresh, enough⟩ := claim exampleSource _ _ _ _ _ start _ final group
    (by simp) created (Run.ofFoldlM recoupStep?_step recouped) isGroup finished "coin"
    (by simp [schedule])
  have inputs : inputsOf "coin" refreshGroup.coins ∈ [0] := by
    rw [← taken]
    exact List.mem_map.mpr ⟨refreshGroup, Record.get?_mem_values isRefresh, rfl⟩
  rw [mem_singleton.mp inputs, total] at enough
  cases enough

theorem change_inRange {start : PaymentStores}
    (made : createRecoupGroup exampleSurroundings "group" "none" ["change"] exampleRevoked =
      some start) :
    RecoupCondition exampleSource "group" start (.recoup exampleSurroundings "refresh" 0) := by
  have amounts : (createRecoupGroup exampleSurroundings "group" "none" ["change"]
      exampleRevoked).map (fun start =>
        ((start.recouping "group" 0).map fun got =>
          (got.2.coinPub, got.2.oldAmount.map units),
        (start.wallet.coins.get? "coin").map fun coin => coin.currentAmount.units)) =
      some (some ("change", some 100000000), some 1000000000) := by decide +kernel
  rw [made] at amounts
  obtain ⟨parked, old⟩ := Prod.mk.inj (Option.some.inj amounts)
  intro group coin got
  rw [got] at parked
  obtain ⟨pub, oldAmount⟩ := Prod.mk.inj (Option.some.inj parked)
  have src : exampleSource coin.coinPub = .refresh "coin" := by rw [pub]; rfl
  unfold RecoupInRange
  rw [src]
  intro oldCoin amount isOld isAmount
  rw [isOld, map_some] at old
  rw [isAmount] at oldAmount
  rw [Option.some.inj old, Option.some.inj oldAmount]
  decide +kernel

/-- The change alone: its value is refreshed with the coin it came from. -/
theorem recoup_group_conserves_change : ∃ start final first group,
    Run (Guarded (RecoupCondition exampleSource "group") (RecoupStep exampleSource "group")) start
      [.recoup exampleSurroundings "refresh" 0] final ∧
    RecoupCreated ["change"] exampleRevoked start first ∧
    Recouping exampleSource "group" start first final group := by
  have outcome : ((createRecoupGroup exampleSurroundings "group" "none" ["change"]
      exampleRevoked).bind fun start =>
        recoupStep? start (.recoup exampleSurroundings "refresh" 0)).isSome := by decide +kernel
  obtain ⟨final, outcome⟩ := isSome_iff_exists.mp outcome
  obtain ⟨start, created, recouped⟩ := bind_eq_some_iff.mp outcome
  have run : Run (Guarded (RecoupCondition exampleSource "group")
      (RecoupStep exampleSource "group")) start [.recoup exampleSurroundings "refresh" 0] final :=
    Run.start.next ⟨change_inRange created, recouped⟩
  obtain ⟨first, group, isCreated, recouping, -⟩ := recoup_group_conserves (by simp) created run
  exact ⟨start, final, first, group, run, isCreated, recouping⟩

end Examples

end Anastasis.Wallet
