import Anastasis.Wallet.BalanceSteps
import Anastasis.Wallet.PromiseTransactions

/-! What the transactions take from a coin and what they put back on it. -/

set_option autoImplicit false

namespace Anastasis.Wallet

open Library AmountJson List Option

def amountFor (coinPub : String) (amounts : List (String × AmountJson)) : Nat :=
  (amounts.map fun x => if x.1 = coinPub then x.2.units else 0).sum

theorem amountFor_nil (pub : String) : amountFor pub [] = 0 := rfl

theorem amountFor_cons (coinPub : String) (x : String × AmountJson)
    (rest : List (String × AmountJson)) : amountFor coinPub (x :: rest) =
      (if x.1 = coinPub then x.2.units else 0) + amountFor coinPub rest := by
  rfl

theorem amountFor_append (coinPub : String) (x second : List (String × AmountJson)) :
    amountFor coinPub (x ++ second) = amountFor coinPub x + amountFor coinPub second := by
  rw [amountFor, map_append, sum_append]
  rfl

def CoinRecord.allocated (coin : CoinRecord) : Nat :=
  match coin.allocation with
  | none => 0
  | some allocation => allocation.amount.units

def RefreshGroupRecord.inputOf (coinPub : String) (group : RefreshGroupRecord) : Nat :=
  amountFor coinPub (group.coins.map fun refreshing => (refreshing.oldCoinPub, refreshing.input))

def PurchaseRecord.contributionOf (coinPub : String) (p : PurchaseRecord) : Nat :=
  amountFor coinPub (p.payCoinSelection.coinPubs.zip p.payCoinSelection.coinContributions)

namespace PaymentStores

variable (db : PaymentStores) (coinPub cp pub : String)

def allocated : Nat := db.wallet.coins.weightAt CoinRecord.allocated coinPub

def left : Nat := db.wallet.coins.weightAt (fun coin => coin.currentAmount.units) coinPub

def refreshInputs : Nat := db.wallet.refreshGroups.total (RefreshGroupRecord.inputOf coinPub)

def credited : Nat := amountFor coinPub db.credits

def contributed : Nat := db.payments.total (PurchaseRecord.contributionOf coinPub)

def value : Nat :=
  db.wallet.coins.weightAt
    (fun coin => knownValue db.wallet coin.exchangeBaseUrl coin.denomPubHash) coinPub

def held : Nat := db.allocated coinPub + db.refreshInputs coinPub + db.left coinPub

end PaymentStores

/-- Fresh coins have no mark, and denominations are stored under their own keys. -/
structure Unspent (db : PaymentStores) : Prop where
  unmarked : ∀ coinPub coin, db.wallet.coins.get? coinPub = some coin → coin.status = .fresh →
    coin.allocation = none
  keyed : Keyed db.wallet

/-- Marks stay, and a coin holds no more than before and what was put on it. -/
structure Moves (db db' : PaymentStores) : Prop where
  unspent : Unspent db'
  marks : ∀ coinPub coin, db.wallet.coins.get? coinPub = some coin → coin.status ≠ .fresh →
    ∃ coin', db'.wallet.coins.get? coinPub = some coin' ∧ coin'.status ≠ .fresh ∧
      coin'.allocation = coin.allocation
  held : ∀ coinPub, db'.held coinPub + db.value coinPub + db.credited coinPub ≤
    db.held coinPub + db'.value coinPub + db'.credited coinPub

section Moves

variable {db db' db'' : PaymentStores}

theorem Moves.refl (unspent : Unspent db) : Moves db db :=
  ⟨unspent, fun _ c h asleep => ⟨c, h, asleep, rfl⟩, fun _ => le_rfl⟩

theorem Moves.trans (x : Moves db db') (y : Moves db' db'') : Moves db db'' := by
  constructor
  · exact y.unspent
  · intro pub c h asleep
    obtain ⟨coin', got, asleep', eq⟩ := x.marks pub c h asleep
    obtain ⟨coin'', found'', asleep'', same'⟩ := y.marks pub coin' got asleep'
    exact ⟨coin'', found'', asleep'', same'.trans eq⟩
  intro pub
  have pre := x.held pub
  have after := y.held pub
  omega

theorem Moves.ofSame (unspent : Unspent db) (cs : db'.wallet.coins = db.wallet.coins)
    (ds : db'.wallet.denominations = db.wallet.denominations)
    (inputs : ∀ coinPub, db'.refreshInputs coinPub ≤ db.refreshInputs coinPub)
    (credits : db'.credits = db.credits) : Moves db db' := by
  constructor
  · constructor
    · rw [cs]
      exact unspent.unmarked
    · rw [Keyed, ds]
      exact unspent.keyed
  · rw [cs]
    intro coinPub c h asleep
    exact ⟨c, h, asleep, rfl⟩
  intro coinPub
  have fewer := inputs coinPub
  have v : db'.value coinPub = db.value coinPub := by
    unfold PaymentStores.value knownValue
    rw [cs, ds]
  simp only [PaymentStores.held, PaymentStores.allocated, PaymentStores.left,
    PaymentStores.credited, cs, credits, v]
  omega

structure CoinMoves (coin coin' : CoinRecord) (before after : Nat) : Prop where
  exchangeBaseUrl : coin'.exchangeBaseUrl = coin.exchangeBaseUrl
  denomPubHash : coin'.denomPubHash = coin.denomPubHash
  unmarked : coin'.status = .fresh → coin'.allocation = coin.allocation ∧ coin.status = .fresh
  marks : coin.status ≠ .fresh → coin'.allocation = coin.allocation
  held : coin'.allocated + coin'.currentAmount.units + before ≤
    coin.allocated + coin.currentAmount.units + after

variable {coin c : CoinRecord}

theorem Moves.ofCoin {pub : String} {coin' : CoinRecord} (unspent : Unspent db)
    (h : db.wallet.coins.get? pub = some c)
    (changed : CoinMoves c coin' (db.credited pub) (db'.credited pub))
    (ys : ∀ y ≠ pub, db.credited y ≤ db'.credited y)
    (cs : db'.wallet.coins = db.wallet.coins.set pub coin')
    (ds : db'.wallet.denominations = db.wallet.denominations)
    (groups : db'.wallet.refreshGroups = db.wallet.refreshGroups) : Moves db db' := by
  have has : knownValue db'.wallet = knownValue db.wallet := by
    unfold knownValue
    rw [ds]
  constructor
  · constructor
    · intro y changedCoin isChanged fresh
      rw [cs, Record.get?_set] at isChanged
      split at isChanged
      · cases isChanged
        obtain ⟨eq, wasFresh⟩ := changed.unmarked fresh
        rw [eq]
        exact unspent.unmarked pub c h wasFresh
      · exact unspent.unmarked y changedCoin isChanged fresh
    · rw [Keyed, ds]
      exact unspent.keyed
  · intro y old isOld asleep
    rw [cs, Record.get?_set]
    split
    · next eq =>
      subst eq
      rw [h] at isOld
      cases isOld
      refine ⟨coin', rfl, ?_, changed.marks asleep⟩
      intro fresh
      exact asleep (changed.unmarked fresh).2
    · exact ⟨old, isOld, asleep, rfl⟩
  · intro y
    simp only [PaymentStores.held, PaymentStores.allocated, PaymentStores.left,
      PaymentStores.value, PaymentStores.refreshInputs, cs, groups, has, Record.weightAt_set]
    by_cases eq : y = pub
    · subst eq
      have amounts := changed.held
      simp only [if_true, Record.weightAt_some h, changed.exchangeBaseUrl, changed.denomPubHash]
      omega
    have more := ys y eq
    simp only [if_neg eq]
    omega

theorem Moves.putCoin {coinPub : String} {coin' : CoinRecord} (unspent : Unspent db)
    (h : db.wallet.coins.get? coinPub = some c) (changed : CoinMoves c coin' 0 0) :
    Moves db (db.putCoin coinPub coin') := by
  refine Moves.ofCoin unspent h ?_ (fun _ _ => le_rfl) rfl rfl rfl
  have amounts := changed.held
  have credits : (db.putCoin coinPub coin').credited coinPub = db.credited coinPub := rfl
  refine ⟨changed.exchangeBaseUrl, changed.denomPubHash, changed.unmarked, changed.marks, ?_⟩
  omega

theorem PaymentStores.credited_addCredit (pub y : String) (amount : AmountJson) :
    (db.addCredit pub amount).credited y = db.credited y + if pub = y then amount.units else 0 := by
  rw [PaymentStores.credited, PaymentStores.addCredit, amountFor_append]
  rfl

theorem Moves.credit {pub : String} {coin' : CoinRecord} {amount : AmountJson}
    (unspent : Unspent db) (h : db.wallet.coins.get? pub = some c)
    (changed : CoinMoves c coin' 0 amount.units) :
    Moves db ((db.putCoin pub coin').addCredit pub amount) := by
  have credits : ∀ y, ((db.putCoin pub coin').addCredit pub amount).credited y =
      db.credited y + if pub = y then amount.units else 0 :=
    fun y => PaymentStores.credited_addCredit pub y amount
  refine Moves.ofCoin unspent h ?_ ?_ rfl rfl rfl
  · have amounts := changed.held
    refine ⟨changed.exchangeBaseUrl, changed.denomPubHash, changed.unmarked, changed.marks, ?_⟩
    rw [credits, if_pos rfl]
    omega
  intro y _
  rw [credits]
  exact Nat.le_add_right _ _

theorem Moves.newCoin {pub : String} (unspent : Unspent db)
    (gone : db.wallet.coins.get? pub = none) (unmarked : c.allocation = none)
    (full : c.currentAmount.units ≤ knownValue db.wallet c.exchangeBaseUrl c.denomPubHash)
    (cs : db'.wallet.coins = db.wallet.coins.set pub c)
    (ds : db'.wallet.denominations = db.wallet.denominations)
    (groups : db'.wallet.refreshGroups = db.wallet.refreshGroups)
    (credits : db'.credits = db.credits) : Moves db db' := by
  have has : knownValue db'.wallet = knownValue db.wallet := by
    unfold knownValue
    rw [ds]
  constructor
  · constructor
    · intro y old isOld fresh
      rw [cs, Record.get?_set] at isOld
      split at isOld
      · cases isOld
        exact unmarked
      · exact unspent.unmarked y old isOld fresh
    · rw [Keyed, ds]
      exact unspent.keyed
  · intro y old isOld asleep
    rw [cs, Record.get?_set]
    split
    · next eq =>
      subst eq
      rw [gone] at isOld
      cases isOld
    · exact ⟨old, isOld, asleep, rfl⟩
  · intro y
    simp only [PaymentStores.held, PaymentStores.allocated, PaymentStores.left,
      PaymentStores.value, PaymentStores.refreshInputs, PaymentStores.credited, cs, groups,
      credits, has, Record.weightAt_set]
    by_cases eq : y = pub
    · subst eq
      have nothing : c.allocated = 0 := by
        rw [CoinRecord.allocated, unmarked]
      simp only [if_true, Record.weightAt_none gone, nothing]
      omega
    · simp only [if_neg eq]
      omega

end Moves

section Refreshes

variable {env : Surroundings} {db db' : PaymentStores} {wallet' w' : WalletStores}

theorem CoinMoves.ofUnspent {c coin' : CoinRecord} {amount : Nat}
    (url : coin'.exchangeBaseUrl = c.exchangeBaseUrl)
    (hash : coin'.denomPubHash = c.denomPubHash) (alloc : coin'.allocation = c.allocation)
    (st : coin'.status = .fresh → c.status = .fresh)
    (left : coin'.currentAmount.units ≤ c.currentAmount.units + amount) :
    CoinMoves c coin' 0 amount := by
  refine ⟨url, hash, ?_, fun _ => alloc, ?_⟩
  · intro fresh
    exact ⟨alloc, st fresh⟩
  · simp only [CoinRecord.allocated, alloc]
    omega

theorem putToSleep_moves (c : CoinRecord) : CoinMoves c c.putToSleep 0 0 := by
  apply CoinMoves.ofUnspent
  · rfl
  · rfl
  · rfl
  · intro fresh
    cases fresh
  · rw [CoinRecord.putToSleep, Amounts.getZero_units]
    exact Nat.zero_le _

structure TakenOff (db : PaymentStores) (coins : List RefreshingCoin) (db' : PaymentStores) :
    Prop where
  moves : Moves db db'
  groups : db'.wallet.refreshGroups = db.wallet.refreshGroups
  credits : db'.credits = db.credits
  allocated : ∀ coinPub, db'.allocated coinPub = db.allocated coinPub
  value : ∀ coinPub, db'.value coinPub = db.value coinPub
  left : ∀ coinPub, db'.left coinPub +
    amountFor coinPub (coins.map fun refreshing => (refreshing.oldCoinPub, refreshing.input)) =
      db.left coinPub

theorem refreshCoin_takenOff {pub : String} {busy : RefreshingCoin} (unspent : Unspent db)
    (r : refreshCoin env db.wallet pub = some (busy, w')) :
    TakenOff db [busy] { db with wallet := w' } := by
  have taken := refreshCoin_taken r
  obtain ⟨c, dn, h, -, -, -, input, -, rfl⟩ := taken.found
  have has : c.putToSleep.allocated = c.allocated := rfl
  have zero : c.putToSleep.currentAmount.units = 0 := Amounts.getZero_units
  have moves := Moves.putCoin unspent h (putToSleep_moves c)
  refine ⟨moves, rfl, rfl, ?_, ?_, ?_⟩
  · intro y
    rw [PaymentStores.allocated, Record.weightAt_set]
    split
    · next eq =>
      rw [eq, PaymentStores.allocated, Record.weightAt_some h, has]
    · rfl
  · intro y
    rw [PaymentStores.value, Record.weightAt_set]
    split
    · next eq =>
      rw [eq, PaymentStores.value, Record.weightAt_some h]
      rfl
    · rfl
  · intro y
    rw [PaymentStores.left, Record.weightAt_set, map_cons, map_nil, amountFor_cons,
      amountFor_nil, taken.oldCoinPub, input, Nat.add_zero]
    by_cases eq : y = pub
    · rw [if_pos eq, if_pos eq.symm, zero, eq, PaymentStores.left, Record.weightAt_some h]
      exact Nat.zero_add _
    · rw [if_neg eq, if_neg (Ne.symm eq)]
      rfl

theorem refreshCoins_takenOff {cps : List String} :
    ∀ {db : PaymentStores} {cs : List RefreshingCoin}, Unspent db →
      refreshCoins env cps db.wallet = some (cs, w') → TakenOff db cs { db with wallet := w' } := by
  induction cps with
  | nil =>
    intro db cs unspent r
    cases r
    exact ⟨.refl unspent, rfl, rfl, fun _ => rfl, fun _ => rfl, fun _ => rfl⟩
  | cons pub rest ih =>
    intro db cs unspent r
    obtain ⟨⟨busy, mid⟩, isFirst, r⟩ := bind_eq_some_iff.mp r
    obtain ⟨⟨more, fin⟩, isMore, r⟩ := bind_eq_some_iff.mp r
    cases r
    have x := refreshCoin_takenOff unspent isFirst
    have y := @ih { db with wallet := mid } _ x.moves.unspent isMore
    constructor
    · exact x.moves.trans y.moves
    · exact y.groups.trans x.groups
    · exact y.credits.trans x.credits
    · exact fun other => (y.allocated other).trans (x.allocated other)
    · exact fun other => (y.value other).trans (x.value other)
    intro other
    have one := x.left other
    have ys := y.left other
    rw [map_cons, amountFor_cons] at one ⊢
    rw [map_nil, amountFor_nil] at one
    dsimp only at one ys ⊢
    omega

theorem createRefreshGroup_moves {gid : String} {oldCoinPubs : List String}
    (unspent : Unspent db)
    (r : Wallet.createRefreshGroup env gid oldCoinPubs db.wallet =
      some w') : Moves db { db with wallet := w' } := by
  obtain ⟨⟨coins, mid⟩, isMiddle, r⟩ := bind_eq_some_iff.mp r
  cases r
  have taken := refreshCoins_takenOff unspent isMiddle
  constructor
  · exact ⟨taken.moves.unspent.unmarked, taken.moves.unspent.keyed⟩
  · exact taken.moves.marks
  · intro pub
    have left := taken.left pub
    have allocated := taken.allocated pub
    have v := taken.value pub
    have groups := mid.refreshGroups.total_set (RefreshGroupRecord.inputOf pub)
      gid
      { coins := coins
        timestampFinished := if oldCoinPubs.isEmpty then some env.now else none
        frozen := false }
    have eq : mid.refreshGroups = db.wallet.refreshGroups := taken.groups
    have input : RefreshGroupRecord.inputOf pub
        { coins := coins
          timestampFinished := if oldCoinPubs.isEmpty then some env.now else none
          frozen := false } =
        amountFor pub
          (coins.map fun busy => (busy.oldCoinPub, busy.input)) := rfl
    rw [eq] at groups
    simp only [PaymentStores.held, PaymentStores.refreshInputs, PaymentStores.allocated,
      PaymentStores.left, PaymentStores.value, PaymentStores.credited] at left allocated v ⊢
    unfold knownValue at v ⊢
    dsimp only at left allocated v ⊢
    rw [eq]
    omega

theorem PaymentStores.createRefreshGroup_moves {gid : String}
    {oldCoinPubs : List String} (unspent : Unspent db)
    (r : db.createRefreshGroup env gid oldCoinPubs = some db') : Moves db db' := by
  obtain ⟨w, made, r⟩ := bind_eq_some_iff.mp r
  cases r
  exact Wallet.createRefreshGroup_moves unspent made

end Refreshes

section Spending

variable {env : Surroundings} {cur allocationId gid : String}
  {db db' : PaymentStores} {wallet w wallet' w' : WalletStores}

variable {contrib : AmountJson}

theorem spend_moves {c : CoinRecord} (fresh : c.status = .fresh)
    (enough : contrib.units ≤ c.currentAmount.units) :
    CoinMoves c (c.spend allocationId contrib) 0 0 := by
  constructor
  · rfl
  · rfl
  · intro still
    cases still
  · intro asleep
    exact absurd fresh asleep
  have marked : (c.spend allocationId contrib).allocated = contrib.units := rfl
  have left : (c.spend allocationId contrib).currentAmount.units =
      c.currentAmount.units - contrib.units := Amounts.sub_units _ _
  omega

inductive SpentCoin (wallet : WalletStores) (allocationId coinPub : String)
    (contrib : AmountJson) : WalletStores → Prop where
  | fresh {coin : CoinRecord} (found : wallet.coins.get? coinPub = some coin)
      (fresh : coin.status = .fresh) (enough : contrib.units ≤ coin.currentAmount.units) :
      SpentCoin wallet allocationId coinPub contrib
        { wallet with coins := wallet.coins.set coinPub (coin.spend allocationId contrib) }
  | marked {coin : CoinRecord} {alloc : CoinAllocation}
      (found : wallet.coins.get? coinPub = some coin) (asleep : coin.status ≠ .fresh)
      (allocation : coin.allocation = some alloc) (id : alloc.id = allocationId)
      (amount : alloc.amount.units = contrib.units) :
      SpentCoin wallet allocationId coinPub contrib wallet
  | unmarked {coin : CoinRecord} (found : wallet.coins.get? coinPub = some coin)
      (asleep : coin.status ≠ .fresh) (allocation : coin.allocation = none) :
      SpentCoin wallet allocationId coinPub contrib wallet

theorem spendSelectedCoin_cases {pub : String}
    (r : spendSelectedCoin cur allocationId pub contrib w = some wallet') :
    SpentCoin w allocationId pub contrib wallet' := by
  have opened := r
  obtain ⟨c, h, r⟩ := bind_eq_some_iff.mp r
  by_cases fresh : c.status = .fresh
  · obtain ⟨-, enough, isWallet⟩ := spendSelectedCoin_fresh h fresh opened
    rw [isWallet]
    exact .fresh h fresh enough
  rw [if_pos fresh] at r
  cases allocation : c.allocation with
  | none =>
    rw [allocation] at r
    cases r
    exact .unmarked h fresh allocation
  | some alloc =>
    rw [allocation] at r
    obtain ⟨_, sameId, r⟩ := bind_eq_some_iff.mp r
    obtain ⟨_, sameAmount, r⟩ := bind_eq_some_iff.mp r
    cases r
    apply SpentCoin.marked h fresh allocation (guard_eq_some sameId)
    have equal := guard_eq_some sameAmount
    rw [Amounts.cmp_eq_compare, Nat.compare_eq_eq] at equal
    exact equal

theorem SpentCoin.moves {pub : String} (unspent : Unspent db)
    (spent : SpentCoin db.wallet allocationId pub contrib w') :
    Moves db { db with wallet := w' } := by
  cases spent with
  | fresh h fresh enough => exact .putCoin unspent h (spend_moves fresh enough)
  | marked => exact .refl unspent
  | unmarked => exact .refl unspent

def MarkedFor (wallet : WalletStores) (allocationId : String) (selected : String × AmountJson) :
    Prop :=
  ∃ coin alloc, wallet.coins.get? selected.1 = some coin ∧ coin.status ≠ .fresh ∧
    coin.allocation = some alloc ∧ alloc.id = allocationId ∧
    alloc.amount.units = selected.2.units

theorem MarkedFor.moves {selected : String × AmountJson}
    (marked : MarkedFor db.wallet allocationId selected) (moves : Moves db db') :
    MarkedFor db'.wallet allocationId selected := by
  obtain ⟨c, alloc, h, asleep, allocation, id, amount⟩ := marked
  obtain ⟨coin', got, asleep', eq⟩ := moves.marks selected.1 c h asleep
  exact ⟨coin', alloc, got, asleep', eq.trans allocation, id, amount⟩

def Usable (wallet : WalletStores) (coinPub : String) : Prop :=
  ∀ coin, wallet.coins.get? coinPub = some coin → coin.status = .fresh ∨ coin.allocation.isSome

theorem SpentCoin.usable {pub other : String}
    (spent : SpentCoin w allocationId pub contrib wallet') (usable : Usable w other) :
    Usable wallet' other := by
  cases spent with
  | fresh h fresh enough =>
    intro c isC
    rw [Record.get?_set] at isC
    split at isC
    · cases isC
      exact .inr rfl
    · exact usable c isC
  | marked => exact usable
  | unmarked => exact usable

theorem SpentCoin.markedFor {pub : String} (spent : SpentCoin w allocationId pub contrib w')
    (usable : Usable w pub) : MarkedFor w' allocationId (pub, contrib) := by
  cases spent with
  | fresh h fresh enough =>
    exact ⟨_, _, Record.get?_set_self _ _ _, nofun, rfl, rfl, rfl⟩
  | marked h asleep alloc id amount =>
    exact ⟨_, _, h, asleep, alloc, id, amount⟩
  | unmarked h asleep alloc =>
    cases usable _ h with
    | inl fresh => exact absurd fresh asleep
    | inr marked =>
      rw [alloc] at marked
      cases marked

theorem spendSelected_moves {parts : List (String × AmountJson)} :
    ∀ {db : PaymentStores}, Unspent db →
      spendSelected cur allocationId parts db.wallet = some w' →
      Moves db { db with wallet := w' } ∧
        ((∀ sel ∈ parts, Usable db.wallet sel.1) →
          ∀ sel ∈ parts, MarkedFor w' allocationId sel) := by
  induction parts with
  | nil =>
    intro db unspent r
    cases r
    exact ⟨.refl unspent, fun _ => by simp⟩
  | cons sel rest ih =>
    intro db unspent r
    obtain ⟨mid, x, r⟩ := bind_eq_some_iff.mp r
    have spent := spendSelectedCoin_cases x
    have moves := spent.moves unspent
    obtain ⟨ys, marked⟩ := @ih { db with wallet := mid } moves.unspent r
    refine ⟨moves.trans ys, ?_⟩
    intro usable
    rw [forall_mem_cons] at usable ⊢
    constructor
    · exact (spent.markedFor usable.1).moves ys
    apply marked
    intro y mem
    exact spent.usable (usable.2 y mem)

theorem contributions_eq_zip {cps : List String} : ∀ {amounts : List AmountJson}
    {parts : List (String × AmountJson)},
    PayCoinSelection.contributions cps amounts = some parts →
      parts = cps.zip amounts := by
  induction cps with
  | nil =>
    intro amounts parts r
    cases r
    rfl
  | cons pub rest ih =>
    intro amounts parts r
    cases amounts with
    | nil => cases r
    | cons amount more =>
      obtain ⟨tail, isTail, r⟩ := bind_eq_some_iff.mp r
      cases r
      rw [ih isTail]
      rfl

/-- A payment only moves amounts, and marks its coins when they are fresh or marked. -/
theorem applyCoinSpend_moves {coinSelection : PayCoinSelection} (unspent : Unspent db)
    (r : applyCoinSpend env cur allocationId gid coinSelection db.wallet = some w') :
    Moves db { db with wallet := w' } ∧ ((∀ pub ∈ coinSelection.coinPubs, Usable db.wallet pub) →
        ∀ sel ∈ coinSelection.coinPubs.zip coinSelection.coinContributions,
          MarkedFor w' allocationId sel) := by
  obtain ⟨parts, listed, r⟩ := bind_eq_some_iff.mp r
  obtain ⟨mid, spent, made⟩ := bind_eq_some_iff.mp r
  obtain ⟨moves, marked⟩ := spendSelected_moves unspent spent
  have refreshed := @createRefreshGroup_moves _ { db with wallet := mid } _ _ _ moves.unspent
    made
  refine ⟨moves.trans refreshed, ?_⟩
  intro usable sel mem
  rw [← contributions_eq_zip listed] at mem
  have isMarked := marked (by
    intro y isO
    apply usable
    rw [← contributions_coinPubs listed]
    exact List.mem_map.mpr ⟨y, isO, rfl⟩) sel mem
  exact MarkedFor.moves isMarked refreshed

end Spending

section Refunds

variable {env : Surroundings} {db db' : PaymentStores}

theorem credit_units (c : CoinRecord) (amount fee : AmountJson) :
    (c.credit amount fee).currentAmount.units ≤ c.currentAmount.units + amount.units := by
  rw [CoinRecord.credit, Amounts.sub_units, Amounts.add_saturates c.amountInRange]
  exact (Nat.sub_le _ _).trans (Nat.min_le_left _ _)

theorem credit_moves (c : CoinRecord) (amount fee : AmountJson) :
    CoinMoves c (c.credit amount fee) 0 amount.units := by
  apply CoinMoves.ofUnspent
  · rfl
  · rfl
  · rfl
  · exact id
  · exact credit_units c amount fee

theorem refunded_moves (c : CoinRecord) (amount fee : AmountJson) :
    CoinMoves c (c.credit amount fee).asleep 0 amount.units := by
  apply CoinMoves.ofUnspent
  · rfl
  · rfl
  · rfl
  · intro fresh
    cases fresh
  · exact credit_units c amount fee

theorem coinWithDenom_found {pub : String} {coin : CoinRecord} {dn : DenominationRecord}
    (r : db.coinWithDenom pub = some (coin, dn)) : db.wallet.coins.get? pub = some coin := by
  obtain ⟨h, isC, r⟩ := bind_eq_some_iff.mp r
  obtain ⟨_, -, r⟩ := bind_eq_some_iff.mp r
  obtain ⟨_, -, r⟩ := bind_eq_some_iff.mp r
  cases r
  exact isC

/-- The loop over the refunds leaves the stored payments and the selection as they are. -/
structure RefundMoves (progress progress' : RefundProgress) : Prop where
  moves : Moves progress.db progress'.db
  payments : progress'.db.payments = progress.db.payments
  selection : progress'.purchase.payCoinSelection = progress.purchase.payCoinSelection

variable {progress pg progress' progress'' : RefundProgress} {r : MerchantCoinRefundStatus}

theorem RefundMoves.refl (unspent : Unspent progress.db) : RefundMoves progress progress :=
  ⟨.refl unspent, rfl, rfl⟩

theorem RefundMoves.trans (x : RefundMoves pg progress')
    (y : RefundMoves progress' progress'') : RefundMoves pg progress'' :=
  ⟨x.moves.trans y.moves, y.payments.trans x.payments, y.selection.trans x.selection⟩

theorem willRefresh_same (pg : RefundProgress) (pub : String) : (pg.willRefresh pub).db = pg.db ∧
      (pg.willRefresh pub).purchase = pg.purchase := by
  unfold RefundProgress.willRefresh
  split
  · exact ⟨rfl, rfl⟩
  · exact ⟨rfl, rfl⟩

theorem applySuccessfulRefund_moves (unspent : Unspent pg.db)
    (ran : pg.applySuccessfulRefund env r = some progress') : RefundMoves pg progress' := by
  unfold RefundProgress.applySuccessfulRefund at ran
  split at ran
  · cases ran
    exact .refl unspent
  obtain ⟨⟨c, dn⟩, isC, ran⟩ := bind_eq_some_iff.mp ran
  obtain ⟨_, -, ran⟩ := bind_eq_some_iff.mp ran
  obtain ⟨item, -, ran⟩ := bind_eq_some_iff.mp ran
  cases ran
  refine ⟨?_, rfl, ?_⟩
  · exact Moves.credit unspent (coinWithDenom_found isC) (refunded_moves _ _ _)
  · have eq := congrArg PurchaseRecord.payCoinSelection (willRefresh_same pg r.coinPub).2
    exact eq

theorem storePendingRefund_moves (unspent : Unspent pg.db)
    (ran : pg.storePendingRefund env r = some progress') : RefundMoves pg progress' := by
  unfold RefundProgress.storePendingRefund at ran
  split at ran
  · cases ran
    exact .refl unspent
  obtain ⟨⟨c, dn⟩, -, ran⟩ := bind_eq_some_iff.mp ran
  obtain ⟨_, -, ran⟩ := bind_eq_some_iff.mp ran
  obtain ⟨item, -, ran⟩ := bind_eq_some_iff.mp ran
  cases ran
  exact ⟨.refl unspent, rfl, rfl⟩

theorem storeFailedRefund_moves {exchangeCode : Option Nat} (unspent : Unspent pg.db)
    (ran : pg.storeFailedRefund env r exchangeCode = some progress') :
    RefundMoves pg progress' := by
  unfold RefundProgress.storeFailedRefund at ran
  split at ran
  · cases ran
    exact .refl unspent
  obtain ⟨⟨c, dn⟩, isC, ran⟩ := bind_eq_some_iff.mp ran
  obtain ⟨_, -, ran⟩ := bind_eq_some_iff.mp ran
  obtain ⟨item, -, ran⟩ := bind_eq_some_iff.mp ran
  dsimp only at ran
  split at ran
  · split at ran
    · cases ran
      obtain ⟨sameDb, samePurchase⟩ := willRefresh_same (pg.putRefund r.getRefundKey item) r.coinPub
      refine ⟨?_, ?_, ?_⟩
      · rw [sameDb]
        exact .refl unspent
      · rw [sameDb]
        rfl
      · rw [samePurchase]
        rfl
    · obtain ⟨_, -, ran⟩ := bind_eq_some_iff.mp ran
      cases ran
      refine ⟨?_, rfl, ?_⟩
      · exact Moves.credit unspent (coinWithDenom_found isC) (credit_moves _ _ _)
      have eq := congrArg PurchaseRecord.payCoinSelection
        (willRefresh_same (pg.putRefund r.getRefundKey item) r.coinPub).2
      exact eq
  · cases ran
    exact ⟨.refl unspent, rfl, rfl⟩

theorem acceptRefund_moves (unspent : Unspent pg.db)
    (ran : pg.acceptRefund env r = some progress') : RefundMoves pg progress' := by
  unfold RefundProgress.acceptRefund at ran
  dsimp only at ran
  split at ran
  · cases ran
    exact .refl unspent
  split at ran
  · exact applySuccessfulRefund_moves unspent ran
  split at ran
  · exact storeFailedRefund_moves unspent ran
  split at ran
  · cases ran
    exact .refl unspent
  · exact storePendingRefund_moves unspent ran

theorem acceptEach_moves {refunds : List MerchantCoinRefundStatus} :
    ∀ {pg : RefundProgress}, Unspent pg.db →
      RefundProgress.acceptEach env refunds pg = some progress' → RefundMoves pg progress' := by
  induction refunds with
  | nil =>
    intro pg unspent r
    cases r
    exact .refl unspent
  | cons refundStatus rest ih =>
    intro pg unspent r
    obtain ⟨mid, x, r⟩ := bind_eq_some_iff.mp r
    have moved := acceptRefund_moves unspent x
    exact moved.trans (ih moved.moves.unspent r)

def SamePayments (db db' : PaymentStores) : Prop :=
  ∀ allocationId p', db'.payments.get? allocationId = some p' →
    ∃ p, db.payments.get? allocationId = some p ∧ p'.payCoinSelection = p.payCoinSelection

theorem SamePayments.ofEq (eq : db'.payments = db.payments) : SamePayments db db' := by
  intro allocationId p' h
  rw [eq] at h
  exact ⟨p', h, rfl⟩

theorem SamePayments.ofSet {allocationId : String} {p p' : PurchaseRecord}
    (h : db.payments.get? allocationId = some p) (sel : p'.payCoinSelection = p.payCoinSelection)
    (payments : db'.payments = db.payments.set allocationId p') : SamePayments db db' := by
  intro y q isPayment
  rw [payments, Record.get?_set] at isPayment
  split at isPayment
  · next eq =>
    subst eq
    cases isPayment
    exact ⟨p, h, sel⟩
  · exact ⟨q, isPayment, rfl⟩

theorem afterRefundQuery_selection (p : PurchaseRecord) (autoRefundExpected : Bool) :
    (p.afterRefundQuery autoRefundExpected).payCoinSelection = p.payCoinSelection := by
  unfold PurchaseRecord.afterRefundQuery
  dsimp only
  split
  · rfl
  · rfl

theorem refreshAny_moves {gid : String} {oldCoinPubs : List String} (unspent : Unspent db)
    (r : db.refreshAny env gid oldCoinPubs = some db') :
    Moves db db' ∧ db'.payments = db.payments := by
  unfold PaymentStores.refreshAny at r
  split at r
  · cases r
    exact ⟨.refl unspent, rfl⟩
  refine ⟨PaymentStores.createRefreshGroup_moves unspent r, ?_⟩
  obtain ⟨w, -, r⟩ := bind_eq_some_iff.mp r
  cases r
  rfl

theorem acceptRefunds_moves {allocationId gid : String} {autoRefundExpected : Bool}
    {refunds : List MerchantCoinRefundStatus} (unspent : Unspent db)
    (r : acceptRefunds env allocationId gid autoRefundExpected refunds
      db = some db') : Moves db db' ∧ SamePayments db db' := by
  unfold acceptRefunds at r
  split at r
  · cases r
    exact ⟨.refl unspent, .ofEq rfl⟩
  rename_i p h
  obtain ⟨pg, ok, r⟩ := bind_eq_some_iff.mp r
  obtain ⟨refreshed, isRefreshed, r⟩ := bind_eq_some_iff.mp r
  cases r
  have moved := @acceptEach_moves _ _ refunds ⟨p, [], db⟩ unspent ok
  have both := refreshAny_moves moved.moves.unspent isRefreshed
  constructor
  · have all := moved.moves.trans both.1
    exact ⟨⟨all.unspent.unmarked, all.unspent.keyed⟩, all.marks, all.held⟩
  have sel : (pg.purchase.afterRefundQuery autoRefundExpected).payCoinSelection =
      p.payCoinSelection := (afterRefundQuery_selection _ _).trans moved.selection
  have payments : refreshed.payments = db.payments := both.2.trans moved.payments
  apply SamePayments.ofSet h sel
  rw [payments]

end Refunds

section Recoups

variable {env : Surroundings} {db db' : PaymentStores}
  {cgId gid : String} {coinIdx : Nat} {group group' : RecoupGroupRecord}

structure QuietMoves (db db' : PaymentStores) : Prop where
  moves : Moves db db'
  payments : db'.payments = db.payments

theorem QuietMoves.trans {db'' : PaymentStores} (x : QuietMoves db db')
    (y : QuietMoves db' db'') : QuietMoves db db'' :=
  ⟨x.moves.trans y.moves, y.payments.trans x.payments⟩

theorem QuietMoves.refl (unspent : Unspent db) : QuietMoves db db := ⟨.refl unspent, rfl⟩

theorem putRecoupGroup_moves (unspent : Unspent db) : QuietMoves db (db.putRecoupGroup gid group) :=
  ⟨⟨⟨unspent.unmarked, unspent.keyed⟩, fun _ c h asleep => ⟨c, h, asleep, rfl⟩,
    fun _ => le_rfl⟩, rfl⟩

theorem putGroupAsFinished_moves (unspent : Unspent db)
    (r : putGroupAsFinished env cgId gid group coinIdx db =
      some (group', db')) : QuietMoves db db' := by
  unfold putGroupAsFinished at r
  split at r
  · cases r
    exact .refl unspent
  dsimp only at r
  split at r
  · obtain ⟨refreshed, isRefreshed, r⟩ := bind_eq_some_iff.mp r
    cases r
    obtain ⟨moves, payments⟩ := refreshAny_moves unspent isRefreshed
    exact QuietMoves.trans ⟨moves, payments⟩ (putRecoupGroup_moves moves.unspent)
  · cases r
    exact putRecoupGroup_moves unspent

theorem withoutAmount_moves (c : CoinRecord) : CoinMoves c c.withoutAmount 0 0 := by
  apply CoinMoves.ofUnspent
  · rfl
  · rfl
  · rfl
  · exact id
  · rw [CoinRecord.withoutAmount, Amounts.getZero_units]
    exact Nat.zero_le _

theorem asleep_moves (c : CoinRecord) : CoinMoves c c.asleep 0 0 := by
  apply CoinMoves.ofUnspent
  · rfl
  · rfl
  · rfl
  · intro fresh
    cases fresh
  · have eq : c.asleep.currentAmount = c.currentAmount := rfl
    exact Nat.le_add_right _ _

theorem recoupCoins_moves {cps : List String} :
    ∀ {coinIdx : Nat} {group : RecoupGroupRecord} {db : PaymentStores}, Unspent db →
      recoupCoins env cgId gid coinIdx cps group db = some (group', db') → QuietMoves db db' := by
  induction cps with
  | nil =>
    intro coinIdx group db unspent r
    cases r
    exact .refl unspent
  | cons pub rest ih =>
    intro coinIdx group db unspent r
    unfold recoupCoins at r
    split at r
    · obtain ⟨⟨ended, mid⟩, isFinished, r⟩ := bind_eq_some_iff.mp r
      have x := putGroupAsFinished_moves unspent isFinished
      exact x.trans (ih x.moves.unspent r)
    rename_i c h
    split at r
    · obtain ⟨⟨ended, mid⟩, isFinished, r⟩ := bind_eq_some_iff.mp r
      have x := putGroupAsFinished_moves unspent isFinished
      exact x.trans (ih x.moves.unspent r)
    · have x := Moves.putCoin unspent h (withoutAmount_moves c)
      exact QuietMoves.trans ⟨x, rfl⟩ (ih x.unspent r)

theorem createRecoupGroup_moves {cps : List String} (unspent : Unspent db)
    (r : createRecoupGroup env cgId gid cps db = some db') : QuietMoves db db' := by
  obtain ⟨⟨group, mid⟩, isMiddle, r⟩ := bind_eq_some_iff.mp r
  cases r
  have moved := recoupCoins_moves unspent isMiddle
  exact moved.trans (putRecoupGroup_moves moved.moves.unspent)

theorem recoupTipCoin_moves (unspent : Unspent db)
    (r : recoupTipCoin env cgId gid coinIdx db = some db') : QuietMoves db db' := by
  unfold recoupTipCoin at r
  split at r
  · cases r
    exact .refl unspent
  obtain ⟨⟨group, mid⟩, isMiddle, r⟩ := bind_eq_some_iff.mp r
  cases r
  exact putGroupAsFinished_moves unspent isMiddle

theorem recoupWithdrawCoin_moves {pub : String} (unspent : Unspent db)
    (r : recoupWithdrawCoin env cgId gid pub coinIdx db = some db') : QuietMoves db db' := by
  unfold recoupWithdrawCoin at r
  split at r
  · cases r
    exact .refl unspent
  rename_i group recouping _
  split at r
  · next c rv h _ =>
    obtain ⟨⟨ended, mid⟩, isMiddle, r⟩ := bind_eq_some_iff.mp r
    cases r
    have slept : CoinMoves c c.asleep.withoutAmount 0 0 := by
      apply CoinMoves.ofUnspent
      · rfl
      · rfl
      · rfl
      · intro fresh
        cases fresh
      · rw [CoinRecord.withoutAmount, Amounts.getZero_units]
        exact Nat.zero_le _
    have x := Moves.putCoin unspent h slept
    exact QuietMoves.trans ⟨x, rfl⟩ (putGroupAsFinished_moves x.unspent isMiddle)
  · cases r
    exact .refl unspent

theorem recoupRefreshCoin_moves {oldCoinPub : String} (unspent : Unspent db)
    (r : recoupRefreshCoin env cgId gid oldCoinPub coinIdx db = some db') : QuietMoves db db' := by
  unfold recoupRefreshCoin at r
  split at r
  · cases r
    exact .refl unspent
  rename_i group recouping _
  split at r
  · next oldCoin revokedCoin isOld isRevoked =>
    obtain ⟨oldAmount, -, r⟩ := bind_eq_some_iff.mp r
    obtain ⟨_, -, r⟩ := bind_eq_some_iff.mp r
    obtain ⟨⟨ended, mid⟩, isMiddle, r⟩ := bind_eq_some_iff.mp r
    cases r
    have paid := credit_moves oldCoin oldAmount Amounts.getZero
    have moves : Moves db (((db.putCoin recouping.coinPub revokedCoin.asleep).putCoin oldCoinPub
        (oldCoin.credit oldAmount Amounts.getZero)).addCredit oldCoinPub oldAmount) := by
      by_cases eq : recouping.coinPub = oldCoinPub
      · have once := Moves.credit unspent isOld paid
        rw [eq]
        simp only [PaymentStores.putCoin, Record.set_set]
        exact once
      have x := Moves.putCoin unspent isRevoked (asleep_moves revokedCoin)
      have kept : (db.putCoin recouping.coinPub revokedCoin.asleep).wallet.coins.get? oldCoinPub
          = some oldCoin := (Record.get?_set_of_ne _ _ (Ne.symm eq)).trans isOld
      exact x.trans (Moves.credit x.unspent kept paid)
    exact QuietMoves.trans ⟨moves, rfl⟩ (putGroupAsFinished_moves moves.unspent isMiddle)
  · cases r
    exact .refl unspent

end Recoups

end Anastasis.Wallet
