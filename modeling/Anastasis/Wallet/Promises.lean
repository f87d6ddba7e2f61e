import Anastasis.Wallet.PromiseMoves

/-! No coin is promised twice. -/

set_option autoImplicit false

namespace Anastasis.Wallet

open Library AmountJson Transition List Option

section OwnTransactions

variable {db db' : PaymentStores} {wallet w wallet' w' : WalletStores}

theorem map_modify_same {First Second : Type} {read : First → Second} {change : First → First}
    (eq : ∀ v, read (change v) = read v) (values : List First) :
    ∀ idx, (values.modify idx change).map read = values.map read := by
  induction values with
  | nil =>
    intro idx
    rw [modify_nil]
  | cons v rest ih =>
    intro idx
    cases idx with
    | zero =>
      rw [modify_zero_cons, map_cons, map_cons, eq]
    | succ idx =>
      rw [modify_succ_cons, map_cons, map_cons, ih]

structure SameInputs (rg rg' : RefreshGroupRecord) : Prop where
  inputs : rg'.coins.map (fun refreshing => (refreshing.oldCoinPub, refreshing.input)) =
    rg.coins.map fun refreshing => (refreshing.oldCoinPub, refreshing.input)

theorem SameInputs.inputOf {rg rg' : RefreshGroupRecord} (eq : SameInputs rg rg')
    (coinPub : String) : rg'.inputOf coinPub = rg.inputOf coinPub := by
  rw [RefreshGroupRecord.inputOf, eq.inputs]
  rfl

theorem setSession_inputs (rg : RefreshGroupRecord) (idx : Nat)
    (ses : RefreshSessionRecord) : SameInputs rg (rg.setSession idx ses) := by
  constructor
  apply map_modify_same
  intro _
  rfl

theorem setStatus_inputs (rg : RefreshGroupRecord) (idx now : Nat) (st : RefreshCoinStatus) :
    SameInputs rg ((rg.setStatus idx st).updateGroupStatus now) := by
  constructor
  rw [updateGroupStatus_coins]
  apply map_modify_same
  intro _
  rfl

/-- A transaction that at most puts a group back with the same inputs. -/
inductive GroupProgress (wallet : WalletStores) : WalletStores → Prop where
  | none : GroupProgress wallet wallet
  | putGroup {refreshGroupId : String} {rg rg' : RefreshGroupRecord}
      (found : wallet.refreshGroups.get? refreshGroupId = some rg) (same : SameInputs rg rg') :
      GroupProgress wallet (wallet.putGroup refreshGroupId rg')

theorem setGroup_inputs {gid : String} {rg rg' : RefreshGroupRecord}
    (h : w.refreshGroups.get? gid = some rg) (eq : SameInputs rg rg') (pub : String) :
    (w.refreshGroups.set gid rg').total (RefreshGroupRecord.inputOf pub) =
      w.refreshGroups.total (RefreshGroupRecord.inputOf pub) := by
  have exchanged := w.refreshGroups.total_set (RefreshGroupRecord.inputOf pub) gid rg'
  rw [Record.weightAt_some h, eq.inputOf] at exchanged
  exact Nat.add_right_cancel exchanged

theorem GroupProgress.moves (unspent : Unspent db) (progress : GroupProgress db.wallet wallet') :
    Moves db { db with wallet := wallet' } := by
  cases progress with
  | none => exact .refl unspent
  | putGroup got eq =>
    apply Moves.ofSame unspent
    · rfl
    · rfl
    · intro pub
      exact le_of_eq (setGroup_inputs got eq pub)
    · rfl

theorem refreshCreateSession_progress {env : Surroundings} {gid : String} {idx : Nat}
    (r : refreshCreateSession env gid idx w = some wallet') : GroupProgress w wallet' := by
  obtain ⟨⟨rg, busy⟩, h, r⟩ := bind_eq_some_iff.mp r
  obtain ⟨isGroup, -⟩ := refreshing_found h
  dsimp only at r
  split at r
  · cases r
    exact .none
  obtain ⟨c, -, r⟩ := bind_eq_some_iff.mp r
  obtain ⟨oldDenom, -, r⟩ := bind_eq_some_iff.mp r
  obtain ⟨_, -, r⟩ := bind_eq_some_iff.mp r
  obtain ⟨sel, -, r⟩ := bind_eq_some_iff.mp r
  split at r
  · cases r
    exact .putGroup isGroup (setStatus_inputs _ _ _ _)
  · cases r
    exact .putGroup isGroup (setSession_inputs _ _ _)

theorem freezeCoin_progress {now : Nat} {gid : String} {idx : Nat}
    (r : freezeCoin now gid idx w = some wallet') : GroupProgress w wallet' := by
  obtain ⟨⟨rg, busy⟩, h, r⟩ := bind_eq_some_iff.mp r
  obtain ⟨isGroup, -⟩ := refreshing_found h
  dsimp only at r
  split at r
  · cases r
    exact .none
  · cases r
    exact .putGroup isGroup (setStatus_inputs _ _ _ _)

theorem storeNorevealIndex_progress {norevealIndex : Nat} {gid : String} {idx : Nat}
    (r : storeNorevealIndex norevealIndex gid idx w = some wallet') : GroupProgress w wallet' := by
  obtain ⟨⟨rg, busy⟩, h, r⟩ := bind_eq_some_iff.mp r
  obtain ⟨isGroup, -⟩ := refreshing_found h
  dsimp only at r
  cases st : busy.refreshSession with
  | none =>
    rw [st] at r
    cases r
    exact .none
  | some rs =>
    rw [st] at r
    dsimp only at r
    split at r
    · cases r
      exact .none
    · cases r
      exact .putGroup isGroup (setSession_inputs _ _ _)

theorem putCoins_moves {url : String} {coinPubs : Nat → String}
    {ds : List DenominationRecord} (distinct : Function.Injective coinPubs) :
    ∀ {index : Nat} {db : PaymentStores}, Unspent db → (∀ d ∈ ds, ∃ hash,
        db.wallet.denominations.get? (url, hash) = some d) →
      (∀ n ≥ index, db.wallet.coins.get? (coinPubs n) = none) →
      Moves db { db with wallet := { db.wallet with
        coins := putCoins url coinPubs index ds db.wallet.coins } } := by
  induction ds with
  | nil =>
    intro index db unspent _ _
    exact .refl unspent
  | cons dn rest ih =>
    intro index db unspent known gone
    rw [forall_mem_cons] at known
    obtain ⟨hash, h⟩ := known.1
    have key := unspent.keyed _ _ h
    cases key
    have full : (newCoin dn.exchangeBaseUrl (coinPubs index) dn).currentAmount.units ≤
        knownValue db.wallet dn.exchangeBaseUrl dn.denomPubHash := by
      rw [knownValue, Record.weightAt_some h]
      exact Nat.le_of_eq rfl
    have x : Moves db (db.putCoin (coinPubs index)
        (newCoin dn.exchangeBaseUrl (coinPubs index) dn)) :=
      .newCoin unspent (gone index (Nat.le_refl _)) rfl full rfl rfl rfl rfl
    refine x.trans (ih x.unspent known.2 ?_)
    intro n later
    have apart : coinPubs n ≠ coinPubs index := by
      intro eq
      have := distinct eq
      omega
    exact (Record.get?_set_of_ne _ _ apart).trans (gone n (by omega))

theorem revealedDenoms_known {url : String} {newDenoms : List (Nat × String)} :
    ∀ d ∈ revealedDenoms w url newDenoms, ∃ hash, w.denominations.get? (url, hash) = some d := by
  intro d mem
  obtain ⟨hash, -, h⟩ := mem_filterMap.mp mem
  exact ⟨hash, h⟩

/-- The transactions of refreshes, withdrawals and tips; new coins have at most the value of
their denomination. -/
def OwnTransaction (wallet : WalletStores) : BalanceEvent → Prop
  | .storeCoin planchetCoinPub =>
    ∀ p group, wallet.planchets.get? planchetCoinPub = some p →
      wallet.withdrawalGroups.get? p.withdrawalGroupId = some group →
        p.coinValue.units ≤ knownValue wallet group.exchangeBaseUrl p.denomPubHash
  | .coin coin =>
    wallet.coins.get? coin.coinPub = none ∧ coin.allocation = none ∧
      coin.currentAmount.units ≤ knownValue wallet coin.exchangeBaseUrl coin.denomPubHash
  | _ => True

theorem Moves.denomination {d : DenominationRecord} (unspent : Unspent db)
    (stays : ∀ old, db.wallet.denominations.get? (d.exchangeBaseUrl, d.denomPubHash) = some old →
      d.value = old.value) (ds : db'.wallet.denominations =
      db.wallet.denominations.set (d.exchangeBaseUrl, d.denomPubHash) d)
    (cs : db'.wallet.coins = db.wallet.coins)
    (groups : db'.wallet.refreshGroups = db.wallet.refreshGroups)
    (credits : db'.credits = db.credits) : Moves db db' := by
  constructor
  · constructor
    · rw [cs]
      exact unspent.unmarked
    intro key y h
    rw [ds, Record.get?_set] at h
    split at h
    · next eq =>
      cases h
      exact eq
    · exact unspent.keyed key y h
  · rw [cs]
    intro coinPub c h asleep
    exact ⟨c, h, asleep, rfl⟩
  · intro coinPub
    have grows : db.value coinPub ≤ db'.value coinPub := by
      unfold PaymentStores.value knownValue
      rw [cs, ds]
      cases h : db.wallet.coins.get? coinPub with
      | none =>
        rw [Record.weightAt_none h]
        exact Nat.zero_le _
      | some c =>
        rw [Record.weightAt_some h, Record.weightAt_some h, Record.weightAt_set]
        split
        · next eq =>
          rw [eq]
          cases old : db.wallet.denominations.get? (d.exchangeBaseUrl, d.denomPubHash) with
          | none =>
            rw [Record.weightAt_none old]
            exact Nat.zero_le _
          | some pre => rw [Record.weightAt_some old, stays pre old]
        · exact Nat.le_refl _
    simp only [PaymentStores.held, PaymentStores.allocated, PaymentStores.left,
      PaymentStores.refreshInputs, PaymentStores.credited, cs, groups, credits]
    omega

theorem balanceStep_moves {ev : BalanceEvent} (unspent : Unspent db)
    (own : OwnTransaction db.wallet ev) (step : BalanceStep db.wallet ev wallet') :
    Moves db { db with wallet := wallet' } := by
  cases ev with
  | createRefreshGroup env rgId oldCoinPubs =>
    exact createRefreshGroup_moves unspent step.2
  | createSession env rgId coinIndex =>
    exact (refreshCreateSession_progress step).moves unspent
  | freeze now rgId coinIndex => exact (freezeCoin_progress step).moves unspent
  | melt norevealIndex rgId coinIndex =>
    exact (storeNorevealIndex_progress step).moves unspent
  | reveal now coinPubs rgId coinIndex =>
    obtain ⟨-, absent, apart, won⟩ := step
    obtain ⟨rg, busy, session, old, -, revealed⟩ := refreshReveal_revealed won
    rw [revealed.after]
    have known := @revealedDenoms_known db.wallet old.exchangeBaseUrl session.newDenoms
    have x := @putCoins_moves _ _ _ apart 0 db unspent known fun n _ => absent n
    apply x.trans
    apply Moves.ofSame x.unspent
    · rfl
    · rfl
    · intro pub
      exact le_of_eq (setGroup_inputs revealed.group (setStatus_inputs _ _ _ _) pub)
    · rfl
  | deleteRefreshGroup rgId =>
    cases step
    exact .ofSame unspent rfl rfl (fun pub => Record.total_erase_le _ _ _) rfl
  | storeCoin planchetCoinPub =>
    obtain ⟨p, isPlanchet, won⟩ := bind_eq_some_iff.mp step
    obtain ⟨group, isGroup, won⟩ := bind_eq_some_iff.mp won
    split at won
    · cases won
      exact .refl unspent
    obtain ⟨_, absent, won⟩ := bind_eq_some_iff.mp won
    cases won
    have new := isNone_iff_eq_none.mp (guard_eq_some absent)
    have full : (withdrawnCoin group planchetCoinPub p).currentAmount.units ≤
        knownValue db.wallet group.exchangeBaseUrl p.denomPubHash := own p group isPlanchet isGroup
    exact Moves.newCoin unspent new rfl full rfl rfl rfl rfl
  | finishWithdrawal now wgId =>
    obtain ⟨wg, -, won⟩ := bind_eq_some_iff.mp step
    dsimp only at won
    split at won
    · cases won
      exact .ofSame unspent rfl rfl (fun _ => le_rfl) rfl
    · cases won
      exact .refl unspent
  | startWithdrawal group =>
    obtain ⟨-, rfl⟩ := step
    exact .ofSame unspent rfl rfl (fun _ => le_rfl) rfl
  | deleteWithdrawalGroup wgId =>
    cases step
    exact .ofSame unspent rfl rfl (fun _ => le_rfl) rfl
  | planchet pub planchet =>
    obtain ⟨-, -, rfl⟩ := step
    exact .ofSame unspent rfl rfl (fun _ => le_rfl) rfl
  | reserve reservePub reserve =>
    cases step
    exact .ofSame unspent rfl rfl (fun _ => le_rfl) rfl
  | coin coin =>
    obtain ⟨-, rfl⟩ := step
    obtain ⟨absent, unmarked, full⟩ := own
    exact .newCoin unspent absent unmarked full rfl rfl rfl rfl
  | denomination d =>
    obtain ⟨stays, rfl⟩ := step
    exact .denomination unspent (fun old got => (stays old got).1) rfl rfl rfl rfl

end OwnTransactions

inductive PaymentEvent where
  | own (event : BalanceEvent)
  -- recordConfirmPay, and the creation of a deposit group
  | confirmPay (surroundings : Surroundings) (currency allocationId refreshGroupId : String)
      (coinSelection : PayCoinSelection)
  | reselect (surroundings : Surroundings) (allocationId refreshGroupId : String)
      (res : PayCoinSelection)
  | abort (allocationId : String)
  | acceptRefunds (surroundings : Surroundings) (allocationId refreshGroupId : String)
      (autoRefundExpected : Bool) (refunds : List MerchantCoinRefundStatus)
  | createRecoupGroup (surroundings : Surroundings) (recoupGroupId refreshGroupId : String)
      (coinPubs : List String)
  | recoupTip (surroundings : Surroundings) (recoupGroupId refreshGroupId : String)
      (coinIdx : Nat)
  | recoupWithdraw (surroundings : Surroundings)
      (recoupGroupId refreshGroupId reservePub : String) (coinIdx : Nat)
  | recoupRefresh (surroundings : Surroundings)
      (recoupGroupId refreshGroupId oldCoinPub : String) (coinIdx : Nat)
  | deletePayment (allocationId : String)

/-- The transactions in any order. The coins of a selection are different. -/
def PaymentStep (db : PaymentStores) (event : PaymentEvent) (db' : PaymentStores) : Prop :=
  match event with
  | .own event =>
    OwnTransaction db.wallet event ∧
      ∃ wallet', BalanceStep db.wallet event wallet' ∧ db' = { db with wallet := wallet' }
  | .confirmPay surroundings currency allocationId refreshGroupId coinSelection =>
    coinSelection.coinPubs.Nodup ∧
      recordConfirmPay surroundings currency allocationId refreshGroupId coinSelection db =
        some db'
  | .reselect surroundings allocationId refreshGroupId res =>
    res.coinPubs.Nodup ∧
      reselectCoins surroundings allocationId refreshGroupId res db = some db'
  | .abort allocationId => abortFailedPayWithRefund allocationId db = some db'
  | .acceptRefunds surroundings allocationId refreshGroupId autoRefundExpected refunds =>
    acceptRefunds surroundings allocationId refreshGroupId autoRefundExpected refunds db =
      some db'
  | .createRecoupGroup surroundings recoupGroupId refreshGroupId coinPubs =>
    createRecoupGroup surroundings recoupGroupId refreshGroupId coinPubs db = some db'
  | .recoupTip surroundings recoupGroupId refreshGroupId coinIdx =>
    recoupTipCoin surroundings recoupGroupId refreshGroupId coinIdx db = some db'
  | .recoupWithdraw surroundings recoupGroupId refreshGroupId reservePub coinIdx =>
    recoupWithdrawCoin surroundings recoupGroupId refreshGroupId reservePub coinIdx db = some db'
  | .recoupRefresh surroundings recoupGroupId refreshGroupId oldCoinPub coinIdx =>
    recoupRefreshCoin surroundings recoupGroupId refreshGroupId oldCoinPub coinIdx db = some db'
  | .deletePayment allocationId => db' = { db with payments := db.payments.erase allocationId }

def PaymentStores.empty : PaymentStores := ⟨.empty, .empty, .empty, []⟩

def NoSleepingCoin (db : PaymentStores) (event : PaymentEvent) : Prop :=
  match event with
  | .confirmPay _ _ _ _ selection | .reselect _ _ _ selection =>
    ∀ coinPub ∈ selection.coinPubs, Usable db.wallet coinPub
  | _ => True

/-- The coins of a payment are marked with their contributions. -/
structure Pledged (wallet : WalletStores) (allocationId : String) (selection : PayCoinSelection) :
    Prop where
  distinct : selection.coinPubs.Nodup
  marked : ∀ selected ∈ selection.coinPubs.zip selection.coinContributions,
    MarkedFor wallet allocationId selected

structure PromisesKept (db : PaymentStores) : Prop where
  unspent : Unspent db
  held : ∀ coinPub, db.held coinPub ≤ db.value coinPub + db.credited coinPub
  pledged : ∀ allocationId p, db.payments.get? allocationId = some p →
    Pledged db.wallet allocationId p.payCoinSelection

section Invariant

variable {surroundings env : Surroundings} {currency cur allocationId refreshGroupId rgId gid : String}
  {db db' : PaymentStores}

theorem Pledged.moves {selection : PayCoinSelection}
    (pledged : Pledged db.wallet allocationId selection) (moves : Moves db db') :
    Pledged db'.wallet allocationId selection :=
  ⟨pledged.distinct, fun r mem => (pledged.marked r mem).moves moves⟩

theorem PromisesKept.moves (kept : PromisesKept db) (moves : Moves db db')
    (payments : SamePayments db db') : PromisesKept db' := by
  constructor
  · exact moves.unspent
  · intro pub
    have pre := kept.held pub
    have change := moves.held pub
    omega
  intro allocationId p' h
  obtain ⟨p, isPayment, eq⟩ := payments allocationId p' h
  rw [eq]
  exact (kept.pledged allocationId p isPayment).moves moves

theorem PromisesKept.quiet (kept : PromisesKept db) (quiet : QuietMoves db db') :
    PromisesKept db' := kept.moves quiet.moves (.ofEq quiet.payments)

theorem PromisesKept.pay {coinSelection : PayCoinSelection} {p : PurchaseRecord}
    {w' : WalletStores} (kept : PromisesKept db) (apart : coinSelection.coinPubs.Nodup)
    (usable : ∀ pub ∈ coinSelection.coinPubs, Usable db.wallet pub)
    (applied : applyCoinSpend env cur allocationId gid coinSelection
      db.wallet = some w') (sel : p.payCoinSelection = coinSelection) : PromisesKept
      { db with wallet := w', payments := db.payments.set allocationId p } := by
  obtain ⟨moves, marked⟩ := applyCoinSpend_moves kept.unspent applied
  have after := kept.moves moves (.ofEq rfl)
  constructor
  · exact ⟨after.unspent.unmarked, after.unspent.keyed⟩
  · exact after.held
  intro y q h
  rw [Record.get?_set] at h
  split at h
  · next eq =>
    cases h
    rw [eq, sel]
    exact ⟨apart, marked usable⟩
  · exact after.pledged y q h

theorem reselectCoins_kept {res : PayCoinSelection} (kept : PromisesKept db)
    (apart : res.coinPubs.Nodup) (usable : ∀ pub ∈ res.coinPubs, Usable db.wallet pub)
    (r : reselectCoins env allocationId gid res db = some db') : PromisesKept db' := by
  unfold reselectCoins at r
  split at r
  · cases r
    exact kept
  obtain ⟨w', applied, r⟩ := bind_eq_some_iff.mp r
  cases r
  exact kept.pay apart usable applied rfl

theorem abort_kept (kept : PromisesKept db)
    (r : abortFailedPayWithRefund allocationId db = some db') : PromisesKept db' := by
  obtain ⟨p, h, r⟩ := bind_eq_some_iff.mp r
  split at r
  · cases r
    exact kept
  cases r
  have unspent : Unspent
      { db with payments := db.payments.set allocationId { p with abortStatus := .abortRefund } } :=
    ⟨kept.unspent.unmarked, kept.unspent.keyed⟩
  apply kept.moves
  · exact ⟨unspent, fun _ c h asleep => ⟨c, h, asleep, rfl⟩, fun _ => le_rfl⟩
  · refine SamePayments.ofSet h ?_ rfl
    rfl

theorem paymentStep_kept {ev : PaymentEvent} (kept : PromisesKept db)
    (careful : NoSleepingCoin db ev) (step : PaymentStep db ev db') : PromisesKept db' := by
  cases ev with
  | own ev =>
    obtain ⟨own, w', change, rfl⟩ := step
    exact kept.moves (balanceStep_moves kept.unspent own change) (.ofEq rfl)
  | confirmPay env cur allocationId gid coinSelection =>
    obtain ⟨apart, r⟩ := step
    obtain ⟨w', applied, r⟩ := bind_eq_some_iff.mp r
    cases r
    exact kept.pay apart careful applied rfl
  | reselect env allocationId gid res =>
    exact reselectCoins_kept kept step.1 careful step.2
  | abort allocationId => exact abort_kept kept step
  | acceptRefunds env allocationId gid autoRefundExpected refunds =>
    obtain ⟨moves, payments⟩ := acceptRefunds_moves kept.unspent step
    exact kept.moves moves payments
  | createRecoupGroup env cgId gid cps =>
    exact kept.quiet (createRecoupGroup_moves kept.unspent step)
  | recoupTip env cgId gid coinIdx =>
    exact kept.quiet (recoupTipCoin_moves kept.unspent step)
  | recoupWithdraw env cgId gid pub coinIdx =>
    exact kept.quiet (recoupWithdrawCoin_moves kept.unspent step)
  | recoupRefresh env cgId gid oldCoinPub coinIdx =>
    exact kept.quiet (recoupRefreshCoin_moves kept.unspent step)
  | deletePayment allocationId =>
    cases step
    constructor
    · exact ⟨kept.unspent.unmarked, kept.unspent.keyed⟩
    · exact kept.held
    intro y p h
    rw [Record.get?_erase] at h
    split at h
    · cases h
    · exact kept.pledged y p h

theorem promisesKept_empty : PromisesKept .empty := by
  constructor
  · constructor
    · intro pub c h
      cases (Record.get?_empty _).symm.trans h
    · intro key d h
      cases (Record.get?_empty _).symm.trans h
  · intro pub
    exact Nat.le_refl 0
  · intro allocationId p h
    cases (Record.get?_empty _).symm.trans h

theorem amountFor_le {pub : String} {most : Nat} {cps : List String} :
    ∀ {amounts : List AmountJson}, cps.Nodup →
      (∀ r ∈ cps.zip amounts, r.1 = pub → r.2.units ≤ most) →
      amountFor pub (cps.zip amounts) ≤ most := by
  induction cps with
  | nil =>
    intro amounts _ _
    exact Nat.zero_le _
  | cons x rest ih =>
    intro amounts apart small
    cases amounts with
    | nil => exact Nat.zero_le _
    | cons amount more =>
      rw [nodup_cons] at apart
      rw [zip_cons_cons, forall_mem_cons] at small
      rw [zip_cons_cons, amountFor_cons]
      by_cases eq : x = pub
      · have ys : amountFor pub (rest.zip more) = 0 := by
          rw [amountFor, sum_eq_zero_iff, List.forall_mem_map]
          intro r mem
          have listed := of_mem_zip mem
          rw [if_neg]
          intro again
          apply apart.1
          rw [eq, ← again]
          exact listed.1
        rw [if_pos eq, ys, Nat.add_zero]
        exact small.1 eq
      · rw [if_neg eq, Nat.zero_add]
        exact ih apart.2 small.2

theorem contributed_le (kept : PromisesKept db) (coinPub : String) :
    db.contributed coinPub ≤ db.allocated coinPub := by
  have pay : ∀ allocationId p, db.payments.get? allocationId = some p →
      p.contributionOf coinPub ≤ db.allocated coinPub ∧ (p.contributionOf coinPub ≠ 0 → ∃ c alloc,
          db.wallet.coins.get? coinPub = some c ∧ c.allocation = some alloc ∧
            alloc.id = allocationId) := by
    intro allocationId p h
    have pledged := kept.pledged allocationId p h
    constructor
    · apply amountFor_le pledged.distinct
      rintro ⟨_, amount⟩ mem rfl
      obtain ⟨c, alloc, isC, -, allocation, -, equal⟩ := pledged.marked _ mem
      rw [PaymentStores.allocated, Record.weightAt_some isC, CoinRecord.allocated, allocation]
      exact Nat.le_of_eq equal.symm
    intro pos
    by_contra unlisted
    apply pos
    rw [PurchaseRecord.contributionOf, amountFor, sum_eq_zero_iff, List.forall_mem_map]
    intro r mem
    rw [if_neg]
    intro eq
    obtain ⟨c, alloc, isC, -, allocation, id, -⟩ := pledged.marked r mem
    rw [eq] at isC
    exact unlisted ⟨c, alloc, isC, allocation, id⟩
  by_cases some : ∃ c alloc, db.wallet.coins.get? coinPub = some c ∧ c.allocation = some alloc
  · obtain ⟨c, alloc, isC, allocation⟩ := some
    have one := @Record.total_eq_weightAt _ _ _ db.payments
      (PurchaseRecord.contributionOf coinPub) alloc.id (by
        intro key p h ne
        by_contra pos
        obtain ⟨coin', alloc', isCoin', allocation', id⟩ := (pay key p h).2 pos
        rw [isC] at isCoin'
        cases isCoin'
        rw [allocation] at allocation'
        cases allocation'
        exact ne id.symm)
    rw [PaymentStores.contributed, one]
    cases h : db.payments.get? alloc.id with
    | none =>
      rw [Record.weightAt_none h]
      exact Nat.zero_le _
    | some p =>
      rw [Record.weightAt_some h]
      exact (pay _ p h).1
  · have none : db.contributed coinPub = 0 := by
      rw [PaymentStores.contributed, Record.total_eq_zero_iff]
      intro p mem
      obtain ⟨key, h⟩ := Record.mem_values_iff.mp mem
      by_contra pos
      obtain ⟨c, alloc, isC, allocation, -⟩ := (pay key p h).2 pos
      exact some ⟨c, alloc, isC, allocation⟩
    rw [none]
    exact Nat.zero_le _

end Invariant

section Again

variable {surroundings env : Surroundings} {currency cur allocationId refreshGroupId rgId gid : String}
  {wallet w wallet' w' : WalletStores}

def Asleep (wallet : WalletStores) (coinPub : String) : Prop :=
  ∃ coin, wallet.coins.get? coinPub = some coin ∧ coin.putToSleep = coin

theorem refreshCoin_asleep {pub : String} {busy : RefreshingCoin}
    (r : refreshCoin env w pub = some (busy, w')) :
    Asleep w' pub ∧ ∀ other, other ≠ pub ∨ Asleep w other →
      w'.coins.get? other = w.coins.get? other := by
  obtain ⟨c, dn, h, -, -, -, -, -, rfl⟩ := (refreshCoin_taken r).found
  constructor
  · exact ⟨c.putToSleep, Record.get?_set_self _ _ _, rfl⟩
  intro other same
  rw [Record.get?_set]
  split
  · next equal =>
    cases same with
    | inl ne => exact absurd equal ne
    | inr asleep =>
      obtain ⟨old, isOld, eq⟩ := asleep
      rw [equal, h] at isOld
      cases isOld
      rw [equal, h, eq]
  · rfl

theorem refreshCoins_asleep {cps : List String} : ∀ {w : WalletStores} {cs : List RefreshingCoin},
      refreshCoins env cps w = some (cs, w') → (∀ pub ∈ cps, Asleep w' pub) ∧
        ∀ other, other ∉ cps ∨ Asleep w other → w'.coins.get? other = w.coins.get? other := by
  induction cps with
  | nil =>
    intro w cs r
    cases r
    exact ⟨by simp, fun _ _ => rfl⟩
  | cons pub rest ih =>
    intro w cs r
    obtain ⟨⟨busy, middle⟩, isFirst, r⟩ := bind_eq_some_iff.mp r
    obtain ⟨⟨more, fin⟩, isMore, r⟩ := bind_eq_some_iff.mp r
    cases r
    obtain ⟨x, pre⟩ := refreshCoin_asleep isFirst
    obtain ⟨ys, after⟩ := ih isMore
    have stays : ∀ other, Asleep w other → Asleep middle other := by
      rintro other ⟨c, h, eq⟩
      exact ⟨c, (pre other (.inr ⟨c, h, eq⟩)).trans h, eq⟩
    constructor
    · rw [forall_mem_cons]
      refine ⟨?_, ys⟩
      obtain ⟨c, h, eq⟩ := x
      exact ⟨c, (after pub (.inr ⟨c, h, eq⟩)).trans h, eq⟩
    intro other same
    rw [mem_cons, not_or] at same
    cases same with
    | inl unlisted =>
      exact (after other (.inl unlisted.2)).trans (pre other (.inl unlisted.1))
    | inr asleep =>
      exact (after other (.inr (stays other asleep))).trans (pre other (.inr asleep))

theorem spendSelected_asleep {contributions : List (String × AmountJson)} :
    ∀ {wallet : WalletStores}, (∀ sel ∈ contributions, Asleep wallet sel.1) →
      spendSelected cur allocationId contributions wallet = some w' → w' = wallet := by
  induction contributions with
  | nil =>
    intro wallet _ r
    cases r
    rfl
  | cons sel rest ih =>
    intro wallet asleep r
    rw [forall_mem_cons] at asleep
    obtain ⟨mid, x, r⟩ := bind_eq_some_iff.mp r
    have same : mid = wallet := by
      cases spendSelectedCoin_cases x with
      | fresh h fresh enough =>
        obtain ⟨c, isC, eq⟩ := asleep.1
        rw [h] at isC
        cases isC
        rw [← eq] at fresh
        cases fresh
      | marked => rfl
      | unmarked => rfl
    rw [same] at r
    exact ih asleep.2 r

theorem applyCoinSpend_again {again : String} {coinSelection : PayCoinSelection}
    {wallet'' : WalletStores} (x : applyCoinSpend env cur allocationId gid coinSelection w =
      some w') (y : applyCoinSpend env cur allocationId again coinSelection w' =
      some wallet'') (coinPub : String) : wallet''.coins.get? coinPub = w'.coins.get? coinPub := by
  obtain ⟨contributions, listed, x⟩ := bind_eq_some_iff.mp x
  obtain ⟨spent, -, x⟩ := bind_eq_some_iff.mp x
  obtain ⟨⟨cs, mid⟩, isMiddle, x⟩ := bind_eq_some_iff.mp x
  cases x
  have asleep := (refreshCoins_asleep isMiddle).1
  obtain ⟨contributions', listed', y⟩ := bind_eq_some_iff.mp y
  obtain ⟨spent', isSpent', y⟩ := bind_eq_some_iff.mp y
  obtain ⟨⟨coins', middle'⟩, isMiddle', y⟩ := bind_eq_some_iff.mp y
  cases y
  have same := spendSelected_asleep (by
    intro r mem
    apply asleep
    rw [← contributions_coinPubs listed']
    exact List.mem_map.mpr ⟨r, mem, rfl⟩) isSpent'
  rw [same] at isMiddle'
  apply (refreshCoins_asleep isMiddle').2
  by_cases r : coinPub ∈ coinSelection.coinPubs
  · exact .inr (asleep coinPub r)
  · exact .inl r

end Again

theorem spendSelected_found {cur allocationId : String}
    {contributions : List (String × AmountJson)} :
    ∀ {w w' : WalletStores}, (contributions.map Prod.fst).Nodup →
      spendSelected cur allocationId contributions w = some w' →
      ∀ sel ∈ contributions, ∃ c, w.coins.get? sel.1 = some c ∧
        (c.status = .fresh → sel.2.units ≤ c.currentAmount.units) ∧
        (c.status ≠ .fresh → ∀ alloc, c.allocation = some alloc →
          alloc.id = allocationId ∧ alloc.amount.units = sel.2.units) := by
  induction contributions with
  | nil => simp
  | cons sel rest ih =>
    intro w w' distinct r
    obtain ⟨coinPub, contrib⟩ := sel
    obtain ⟨mid, x, r⟩ := bind_eq_some_iff.mp r
    have spent := spendSelectedCoin_cases x
    rw [map_cons, nodup_cons] at distinct
    rw [forall_mem_cons]
    constructor
    · cases spent with
      | fresh h fresh enough =>
        exact ⟨_, h, fun _ => enough, fun asleep => absurd fresh asleep⟩
      | marked h asleep allocation id amount =>
        refine ⟨_, h, fun fresh => absurd fresh asleep, ?_⟩
        intro _ alloc eq
        rw [allocation] at eq
        cases eq
        exact ⟨id, amount⟩
      | unmarked h asleep allocation =>
        refine ⟨_, h, fun fresh => absurd fresh asleep, ?_⟩
        intro _ alloc eq
        rw [allocation] at eq
        cases eq
    · intro y mem
      obtain ⟨c, h, rest⟩ := ih distinct.2 r y mem
      refine ⟨c, ?_, rest⟩
      have apart : y.1 ≠ coinPub := by
        intro eq
        apply distinct.1
        rw [← eq]
        exact List.mem_map.mpr ⟨y, mem, rfl⟩
      cases spent with
      | fresh => exact (Record.get?_set_of_ne _ _ apart).symm.trans h
      | marked => exact h
      | unmarked => exact h

/-- Refunds and recoups put value back on coins, and so it can be promised again. -/
theorem coins_not_promised_twice :
    (∀ surroundings currency allocationId refreshGroupId coinSelection db db',
      coinSelection.coinPubs.Nodup →
      recordConfirmPay surroundings currency allocationId refreshGroupId coinSelection db =
        some db' → coinSelection.coinPubs.length ≤ coinSelection.coinContributions.length ∧
      ∀ selected ∈ coinSelection.coinPubs.zip coinSelection.coinContributions, ∃ coin,
        db.wallet.coins.get? selected.1 = some coin ∧
        (coin.status = .fresh → selected.2.units ≤ coin.currentAmount.units) ∧
        (coin.status ≠ .fresh → ∀ alloc, coin.allocation = some alloc →
          alloc.id = allocationId ∧ alloc.amount.units = selected.2.units)) ∧
    (∀ events db, Run (Guarded NoSleepingCoin PaymentStep) .empty events db → ∀ coinPub,
      db.contributed coinPub + db.refreshInputs coinPub + db.left coinPub ≤
        db.value coinPub + db.credited coinPub) ∧
    (∀ surroundings currency allocationId refreshGroupId again coinSelection wallet wallet' wallet'',
      applyCoinSpend surroundings currency allocationId refreshGroupId coinSelection wallet =
        some wallet' →
      applyCoinSpend surroundings currency allocationId again coinSelection wallet' =
        some wallet'' → ∀ coinPub, wallet''.coins.get? coinPub = wallet'.coins.get? coinPub) := by
  refine ⟨?_, ?_, ?_⟩
  · intro surroundings currency allocationId refreshGroupId coinSelection db db' distinct success
    obtain ⟨wallet', applied, -⟩ := bind_eq_some_iff.mp success
    obtain ⟨contributions, listed, applied⟩ := bind_eq_some_iff.mp applied
    obtain ⟨spent, isSpent, -⟩ := bind_eq_some_iff.mp applied
    have pubs := contributions_coinPubs listed
    have zipped := contributions_eq_zip listed
    constructor
    · have length := congrArg List.length pubs
      rw [zipped, length_map, length_zip] at length
      omega
    · rw [← zipped]
      exact spendSelected_found (by rw [pubs]; exact distinct) isSpent
  · intro events db careful coinPub
    have kept : PromisesKept db := careful.invariant PromisesKept promisesKept_empty
      fun _ _ _ kept step => paymentStep_kept kept step.1 step.2
    have promised := contributed_le kept coinPub
    have held := kept.held coinPub
    unfold PaymentStores.held at held
    omega
  · intro surroundings currency allocationId refreshGroupId again coinSelection wallet wallet'
      wallet'' first second
    exact applyCoinSpend_again first second

section Examples

def exampleTen : WalletStores :=
  { WalletStores.empty with
    denominations := Record.empty.set ("https://a/", "ten") ten }

def exampleOne : WalletStores :=
  { exampleTen with
    denominations := exampleTen.denominations.set ("https://a/", "one") (one "https://a/") }

def exampleStored : PaymentStores :=
  { PaymentStores.empty with
    wallet := { exampleOne with coins := exampleOne.coins.set "coin" exampleCoin } }

def exampleRefund : MerchantCoinRefundStatus where
  coinPub := "coin"
  rtransactionId := 1
  refundCurrency := "KUDOS"
  refundAmount := .ofValue 3
  failure := none

theorem exampleStored_run : Run (Guarded NoSleepingCoin PaymentStep) .empty
    [.own (.denomination ten), .own (.denomination (one "https://a/")), .own (.coin exampleCoin)]
    exampleStored := by
  have x : BalanceStep .empty (.denomination ten) exampleTen := by
    refine ⟨?_, rfl⟩
    intro old h
    cases (Record.get?_empty _).symm.trans h
  have y : BalanceStep exampleTen (.denomination (one "https://a/")) exampleOne := by
    refine ⟨?_, rfl⟩
    intro old h
    have new : (exampleTen.denominations.get? ("https://a/", "one")).isNone := by decide +kernel
    cases (isNone_iff_eq_none.mp new).symm.trans h
  have third : BalanceStep exampleOne (.coin exampleCoin) exampleStored.wallet := by
    refine ⟨?_, rfl⟩
    intro old h
    cases (Record.get?_empty _).symm.trans h
  have own : OwnTransaction exampleOne (.coin exampleCoin) := ⟨rfl, rfl, by decide +kernel⟩
  have storesTen : Guarded NoSleepingCoin PaymentStep .empty (.own (.denomination ten))
      { PaymentStores.empty with wallet := exampleTen } := ⟨trivial, trivial, _, x, rfl⟩
  have storesOne : Guarded NoSleepingCoin PaymentStep
      { PaymentStores.empty with wallet := exampleTen } (.own (.denomination (one "https://a/")))
      { PaymentStores.empty with wallet := exampleOne } := ⟨trivial, trivial, _, y, rfl⟩
  have storesCoin : Guarded NoSleepingCoin PaymentStep
      { PaymentStores.empty with wallet := exampleOne } (.own (.coin exampleCoin))
      exampleStored := ⟨trivial, own, _, third, rfl⟩
  exact ((Run.next .start storesTen).next storesOne).next storesCoin

theorem exampleStored_pays : ∃ db,
    Guarded NoSleepingCoin PaymentStep exampleStored (.confirmPay exampleSurroundings "KUDOS"
      "proposal:a" "group" exampleSelection) db ∧
    recordConfirmPay exampleSurroundings "KUDOS" "proposal:a" "group" exampleSelection
      exampleStored = some db := by
  have pays : (recordConfirmPay exampleSurroundings "KUDOS" "proposal:a" "group" exampleSelection
      exampleStored).isSome := by decide +kernel
  obtain ⟨db, paid⟩ := isSome_iff_exists.mp pays
  refine ⟨db, ⟨?_, by decide, paid⟩, paid⟩
  intro pub mem coin got
  rw [mem_singleton.mp mem] at got
  have isC : exampleStored.wallet.coins.get? "coin" = some exampleCoin := rfl
  cases got
  exact .inl rfl

theorem coins_not_promised_twice_paid : ∃ events db,
    Run (Guarded NoSleepingCoin PaymentStep) .empty events db ∧ db.contributed "coin" = 300000000 ∧
      db.contributed "coin" + db.refreshInputs "coin" + db.left "coin" ≤
        db.value "coin" + db.credited "coin" := by
  obtain ⟨db, pays, paid⟩ := exampleStored_pays
  have run := exampleStored_run.next pays
  have contributed : (recordConfirmPay exampleSurroundings "KUDOS" "proposal:a" "group"
      exampleSelection exampleStored).map (fun db => db.contributed "coin") = some 300000000 := by
    decide +kernel
  rw [paid] at contributed
  exact ⟨_, db, run, Option.some.inj contributed, coins_not_promised_twice.2.1 _ db run "coin"⟩

/-- A refund is refreshed again, while the payment keeps its contribution. -/
theorem refunded_coin_promised_again : ¬ ∀ events db, Run PaymentStep .empty events db →
    ∀ coinPub, db.contributed coinPub + db.refreshInputs coinPub ≤ db.value coinPub := by
  intro claim
  obtain ⟨db, pays, paid⟩ := exampleStored_pays
  have refunds : ((recordConfirmPay exampleSurroundings "KUDOS" "proposal:a" "group"
      exampleSelection exampleStored).bind (acceptRefunds exampleSurroundings "proposal:a"
        "refund" false [exampleRefund])).map
      (fun db => (db.contributed "coin" + db.refreshInputs "coin", db.value "coin")) =
        some (1300000000, 1000000000) := by decide +kernel
  rw [paid] at refunds
  obtain ⟨db', refunded, amounts⟩ := map_eq_some_iff.mp refunds
  have step : PaymentStep db (.acceptRefunds exampleSurroundings "proposal:a" "refund" false
      [exampleRefund]) db' := refunded
  have bound := claim _ db' ((exampleStored_run.next pays).unguarded.next step) "coin"
  obtain ⟨promised, value⟩ := Prod.mk.inj amounts
  omega

end Examples

end Anastasis.Wallet
