import Anastasis.Wallet.Promises

/-! What the answers about refunds change, over any sequence of them. -/

set_option autoImplicit false

namespace Anastasis.Wallet

open Library Library.Transition AmountJson List Option

section Groups

def inputsOf (coinPub : String) (coins : List RefreshingCoin) : Nat :=
  ((coins.filter fun refreshing => refreshing.oldCoinPub = coinPub).map
    fun refreshing => refreshing.input.units).sum

/-- The group takes all that is left on the coins, and nothing else. -/
structure Takes (coinPubs : List String) (coins : List RefreshingCoin)
    (wallet wallet' : WalletStores) : Prop where
  listed : coins.map RefreshingCoin.oldCoinPub = coinPubs
  taken : ∀ coinPub ∈ coinPubs, ∃ coin, wallet.coins.get? coinPub = some coin ∧
    inputsOf coinPub coins = coin.currentAmount.units
  emptied : ∀ coinPub ∈ coinPubs, ∃ coin, wallet'.coins.get? coinPub = some coin ∧
    coin.currentAmount = Amounts.getZero ∧ coin.status = .dormant
  others : ∀ coinPub, coinPub ∉ coinPubs →
    wallet'.coins.get? coinPub = wallet.coins.get? coinPub
  same : wallet' = { wallet with coins := wallet'.coins }

theorem inputsOf_none {pub : String} {cs : List RefreshingCoin}
    (gone : pub ∉ cs.map RefreshingCoin.oldCoinPub) : inputsOf pub cs = 0 := by
  have none : cs.filter (fun busy => busy.oldCoinPub = pub) = [] := by
    apply filter_eq_nil_iff.mpr
    intro busy mem eq
    apply gone
    exact List.mem_map.mpr ⟨busy, mem, by simpa using eq⟩
  rw [inputsOf, none]
  rfl

variable {surroundings env : Surroundings}

theorem refreshCoins_takes {cps : List String} :
    ∀ {w wallet' : WalletStores} {cs : List RefreshingCoin},
      refreshCoins env cps w = some (cs, wallet') → Takes cps cs w wallet' := by
  induction cps with
  | nil =>
    intro w wallet' cs r
    cases r
    exact ⟨rfl, by simp, by simp, fun _ _ => rfl, rfl⟩
  | cons pub rest ih =>
    intro w wallet' cs r
    obtain ⟨⟨x, mid⟩, isFirst, r⟩ := bind_eq_some_iff.mp r
    obtain ⟨⟨more, fin⟩, isMore, r⟩ := bind_eq_some_iff.mp r
    cases r
    have later := ih isMore
    have taken := refreshCoin_taken isFirst
    obtain ⟨c, dn, isC, -, -, -, input, -, rfl⟩ := taken.found
    have asleep : (w.coins.set pub c.putToSleep).get? pub =
        some c.putToSleep := Record.get?_set_self _ _ _
    have apart : ∀ other, other ≠ pub →
        (w.coins.set pub c.putToSleep).get? other = w.coins.get? other :=
      fun other ne => Record.get?_set_of_ne _ _ ne
    constructor
    · rw [map_cons, taken.oldCoinPub, later.listed]
    · intro other mem
      by_cases eq : other = pub
      · subst eq
        refine ⟨c, isC, ?_⟩
        have rest0 : inputsOf other more = 0 := by
          by_cases again : other ∈ rest
          · obtain ⟨h, isF, amount⟩ := later.taken other again
            rw [asleep] at isF
            cases isF
            rw [amount]
            exact Amounts.getZero_units
          · exact inputsOf_none (later.listed ▸ again)
        rw [inputsOf, filter_cons_of_pos (by simpa using taken.oldCoinPub), map_cons,
          sum_cons, input]
        unfold inputsOf at rest0
        rw [rest0, Nat.add_zero]
      · have inRest : other ∈ rest := by simpa [eq] using mem
        obtain ⟨h, isF, amount⟩ := later.taken other inRest
        rw [apart other eq] at isF
        refine ⟨h, isF, ?_⟩
        rw [inputsOf, filter_cons_of_neg (by
          rw [taken.oldCoinPub]
          simpa using Ne.symm eq)]
        exact amount
    · intro other mem
      by_cases again : other ∈ rest
      · exact later.emptied other again
      have eq : other = pub := by simpa [again] using mem
      subst eq
      refine ⟨c.putToSleep, ?_, rfl, rfl⟩
      rw [later.others other again, asleep]
    · intro other gone
      rw [mem_cons, not_or] at gone
      rw [later.others other gone.2, apart other gone.1]
    · rw [later.same]

structure GroupOver (refreshGroupId : String) (coinPubs : List String)
    (wallet wallet' : WalletStores) : Prop where
  group : ∃ group, wallet'.refreshGroups = wallet.refreshGroups.set refreshGroupId group ∧
    group.coins.map RefreshingCoin.oldCoinPub = coinPubs ∧
    ∀ coinPub ∈ coinPubs, ∃ coin, wallet.coins.get? coinPub = some coin ∧
      inputsOf coinPub group.coins = coin.currentAmount.units
  emptied : ∀ coinPub ∈ coinPubs, ∃ coin, wallet'.coins.get? coinPub = some coin ∧
    coin.currentAmount = Amounts.getZero ∧ coin.status = .dormant
  others : ∀ coinPub, coinPub ∉ coinPubs →
    wallet'.coins.get? coinPub = wallet.coins.get? coinPub
  denominations : wallet'.denominations = wallet.denominations

theorem createRefreshGroup_over {gid : String} {cps : List String}
    {w wallet' : WalletStores} (r : createRefreshGroup env gid cps w = some wallet') :
    GroupOver gid cps w wallet' := by
  obtain ⟨⟨cs, mid⟩, isMiddle, r⟩ := bind_eq_some_iff.mp r
  cases r
  have takes := refreshCoins_takes isMiddle
  have groups : mid.refreshGroups = w.refreshGroups := by rw [takes.same]
  have ds : mid.denominations = w.denominations := by rw [takes.same]
  constructor
  · exact ⟨_, by rw [groups], takes.listed, takes.taken⟩
  · exact takes.emptied
  · exact takes.others
  · exact ds

end Groups

/-- An answer of the merchant that settled a refund, with the fee for it. -/
structure RefundDecision where
  status : MerchantCoinRefundStatus
  refundFee : AmountJson

def RefundDecision.refundKey (decision : RefundDecision) : String :=
  decision.status.getRefundKey

def WalletRefundItem.settled (item : WalletRefundItem) : Prop :=
  item.type = .applied ∨ item.type = .failed

/-- What a refund puts back on its coin: the refund, or the contribution of a coin that was
never deposited for an aborted payment. -/
def PurchaseRecord.refundValue (p : PurchaseRecord) (r : MerchantCoinRefundStatus) :
    Option AmountJson :=
  match r.failure with
  | none => some r.refundAmount
  | some (_, exchangeCode) =>
    if p.abortStatus = .abortRefund ∧ exchangeCode = some exchangeRefundDepositNotFound then
      p.payCoinSelection.contributionOf r.coinPub
    else none

/-- What the decisions put back on a coin, and the fees they take off, in their order. -/
def PurchaseRecord.refundsOf (p : PurchaseRecord) (decisions : List RefundDecision)
    (coinPub : String) : List (AmountJson × AmountJson) :=
  decisions.filterMap fun decision =>
    if decision.status.coinPub = coinPub then
      (p.refundValue decision.status).map fun value => (value, decision.refundFee)
    else none

def refunded (amount : AmountJson) (refunds : List (AmountJson × AmountJson)) : AmountJson :=
  refunds.foldl
    (fun amount refund => (Amounts.sub (Amounts.add amount [refund.1]).amount refund.2).amount)
    amount

theorem refunded_append (amount : AmountJson) (x second : List (AmountJson × AmountJson)) :
    refunded amount (x ++ second) = refunded (refunded amount x) second := foldl_append

section Loop

structure RefundedCoin (refunds : List (AmountJson × AmountJson)) (coin coin' : CoinRecord) :
    Prop where
  amount : coin'.currentAmount = refunded coin.currentAmount refunds
  exchangeBaseUrl : coin'.exchangeBaseUrl = coin.exchangeBaseUrl
  denomPubHash : coin'.denomPubHash = coin.denomPubHash

theorem RefundedCoin.refl (coin : CoinRecord) : RefundedCoin [] coin coin := ⟨rfl, rfl, rfl⟩

theorem RefundedCoin.trans {x y : List (AmountJson × AmountJson)}
    {c mid coin' : CoinRecord} (early : RefundedCoin x c mid)
    (late : RefundedCoin y mid coin') : RefundedCoin (x ++ y) c coin' := by
  constructor
  · rw [refunded_append, late.amount, early.amount]
  · exact late.exchangeBaseUrl.trans early.exchangeBaseUrl
  · exact late.denomPubHash.trans early.denomPubHash

def WalletStores.HasRefundFee (wallet : WalletStores) (coinPub : String)
    (refundFee : AmountJson) : Prop :=
  ∃ coin denom, wallet.coins.get? coinPub = some coin ∧
    wallet.denominations.get? (coin.exchangeBaseUrl, coin.denomPubHash) = some denom ∧
    refundFee = denom.feeRefund

/-- The decisions of a call, and what they have made of the purchase and the wallet that the
call has found. -/
structure Decided (p : PurchaseRecord) (wallet : WalletStores) (decisions : List RefundDecision)
    (progress : RefundProgress) : Prop where
  purchase : progress.purchase = { p with refunds := progress.purchase.refunds }
  kept : ∀ key item, p.refunds.get? key = some item → item.settled →
    progress.purchase.refunds.get? key = some item
  distinct : (decisions.map RefundDecision.refundKey).Nodup
  unsettled : ∀ decision ∈ decisions, ∀ item,
    p.refunds.get? decision.refundKey = some item → ¬ item.settled
  recorded : ∀ decision ∈ decisions, ∃ item,
    progress.purchase.refunds.get? decision.refundKey = some item ∧
    item.type = (if decision.status.failure = none then .applied else .failed) ∧
    item.coinPub = decision.status.coinPub ∧
    item.refundAmount = decision.status.refundAmount ∧ item.refundFee = decision.refundFee
  complete : ∀ key item, progress.purchase.refunds.get? key = some item → item.settled →
    p.refunds.get? key = some item ∨ ∃ decision ∈ decisions, decision.refundKey = key
  fees : ∀ decision ∈ decisions,
    wallet.HasRefundFee decision.status.coinPub decision.refundFee
  coins : ∀ coinPub, Option.Rel (RefundedCoin (p.refundsOf decisions coinPub))
    (wallet.coins.get? coinPub) (progress.db.wallet.coins.get? coinPub)
  touched : ∀ decision ∈ decisions, (p.refundValue decision.status).isSome →
    decision.status.coinPub ∈ progress.refreshCoins
  untouched : ∀ coinPub, coinPub ∉ progress.refreshCoins →
    progress.db.wallet.coins.get? coinPub = wallet.coins.get? coinPub
  refreshOnce : progress.refreshCoins.Nodup
  wallet : progress.db.wallet = { wallet with coins := progress.db.wallet.coins }

variable {p : PurchaseRecord} {wallet w : WalletStores} {decisions : List RefundDecision}
  {progress pg progress' : RefundProgress} {surroundings env : Surroundings}

theorem Decided.start (p : PurchaseRecord) (db : PaymentStores) :
    Decided p db.wallet [] ⟨p, [], db⟩ := by
  constructor
  · rfl
  · exact fun _ _ h _ => h
  · exact nodup_nil
  · simp
  · simp
  · exact fun _ _ h _ => .inl h
  · simp
  · intro pub
    cases db.wallet.coins.get? pub with
    | none => exact .none
    | some c => exact .some (.refl c)
  · simp
  · exact fun _ _ => rfl
  · exact nodup_nil
  · rfl

def RefundProgress.Open (progress : RefundProgress) (r : MerchantCoinRefundStatus) : Prop :=
  ∀ item, progress.purchase.refunds.get? r.getRefundKey = some item → ¬ item.settled

variable {r : MerchantCoinRefundStatus}

theorem refundsOf_append (p : PurchaseRecord) (x second : List RefundDecision) (coinPub : String) :
    p.refundsOf (x ++ second) coinPub = p.refundsOf x coinPub ++ p.refundsOf second coinPub :=
  filterMap_append

variable {decision : RefundDecision} {coinPub cp pub : String}

theorem refundsOf_other (p : PurchaseRecord) (ne : pub ≠ decision.status.coinPub) :
    p.refundsOf [decision] pub = [] := by
  simp [PurchaseRecord.refundsOf, Ne.symm ne]

structure Settles (p : PurchaseRecord) (decision : RefundDecision)
    (progress progress' : RefundProgress) : Prop where
  isOpen : progress.Open decision.status
  item : ∃ item, progress'.purchase =
      { progress.purchase with
        refunds := progress.purchase.refunds.set decision.refundKey item } ∧
    item.type = (if decision.status.failure = none then .applied else .failed) ∧
    item.coinPub = decision.status.coinPub ∧
    item.refundAmount = decision.status.refundAmount ∧ item.refundFee = decision.refundFee
  fee : progress.db.wallet.HasRefundFee decision.status.coinPub decision.refundFee
  coin : Option.Rel (RefundedCoin (p.refundsOf [decision] decision.status.coinPub))
    (progress.db.wallet.coins.get? decision.status.coinPub)
    (progress'.db.wallet.coins.get? decision.status.coinPub)
  others : ∀ coinPub, coinPub ≠ decision.status.coinPub →
    progress'.db.wallet.coins.get? coinPub = progress.db.wallet.coins.get? coinPub
  refresh : progress'.refreshCoins = (progress.willRefresh decision.status.coinPub).refreshCoins ∨
    progress'.refreshCoins = progress.refreshCoins ∧
      progress'.db.wallet = progress.db.wallet ∧ p.refundValue decision.status = none
  wallet : progress'.db.wallet =
    { progress.db.wallet with coins := progress'.db.wallet.coins }

theorem mem_willRefresh (pg : RefundProgress) (coinPub y : String) :
    y ∈ (pg.willRefresh coinPub).refreshCoins ↔ y ∈ pg.refreshCoins ∨ y = coinPub := by
  unfold RefundProgress.willRefresh
  split
  next listed =>
    constructor
    · exact .inl
    rintro (mem | rfl)
    · exact mem
    · exact listed
  next => simp

theorem willRefresh_nodup {pg : RefundProgress} (apart : pg.refreshCoins.Nodup)
    (pub : String) : (pg.willRefresh pub).refreshCoins.Nodup := by
  unfold RefundProgress.willRefresh
  split
  next => exact apart
  next gone => exact nodup_append.mpr ⟨apart, nodup_singleton _, by
      intro y mem last listed
      cases mem_singleton.mp listed
      rintro rfl
      exact gone mem⟩

theorem optionRel_trans {x y : List (AmountJson × AmountJson)}
    {c mid coin' : Option CoinRecord} (early : Option.Rel (RefundedCoin x) c mid)
    (late : Option.Rel (RefundedCoin y) mid coin') :
    Option.Rel (RefundedCoin (x ++ y)) c coin' := by
  cases early with
  | none =>
    cases late
    exact .none
  | some early =>
    cases late with
    | some late => exact .some (early.trans late)

theorem optionRel_same {c coin' : Option CoinRecord} (eq : coin' = c) :
    Option.Rel (RefundedCoin []) c coin' := by
  subst eq
  cases coin' with
  | none => exact .none
  | some c => exact .some (.refl c)

theorem Decided.hasRefundFee (decided : Decided p w decisions pg)
    {refundFee : AmountJson} (fee : pg.db.wallet.HasRefundFee coinPub refundFee) :
    w.HasRefundFee coinPub refundFee := by
  obtain ⟨c, dn, isC, isDenom, isFee⟩ := fee
  have related := decided.coins coinPub
  rw [isC] at related
  generalize h : w.coins.get? coinPub = pre at related
  cases related with
  | some eq =>
    refine ⟨_, dn, h, ?_, isFee⟩
    rw [← eq.exchangeBaseUrl, ← eq.denomPubHash]
    rw [decided.wallet] at isDenom
    exact isDenom

theorem Settles.refundKey_put (settles : Settles p decision pg progress') {key : String}
    (ne : key ≠ decision.refundKey) :
    progress'.purchase.refunds.get? key = pg.purchase.refunds.get? key := by
  obtain ⟨item, pu, -⟩ := settles.item
  rw [pu]
  exact Record.get?_set_of_ne _ _ ne

theorem Settles.refreshed (settles : Settles p decision pg progress')
    (mem : pub ∈ pg.refreshCoins) : pub ∈ progress'.refreshCoins := by
  rcases settles.refresh with refresh | ⟨refresh, -, -⟩
  · rw [refresh, mem_willRefresh]
    exact .inl mem
  · rw [refresh]
    exact mem

theorem Decided.settle (decided : Decided p w decisions pg)
    (settles : Settles p decision pg progress') :
    Decided p w (decisions ++ [decision]) progress' := by
  obtain ⟨item, pu, type, facts⟩ := settles.item
  have self : progress'.purchase.refunds.get? decision.refundKey = some item := by
    rw [pu]
    exact Record.get?_set_self _ _ _
  have differs : ∀ key item, pg.purchase.refunds.get? key = some item → item.settled →
      key ≠ decision.refundKey := by
    intro key item h met eq
    rw [eq] at h
    exact settles.isOpen item h met
  have recordedSettled : ∀ old ∈ decisions, old.refundKey ≠ decision.refundKey := by
    intro old mem
    obtain ⟨item, h, type, -⟩ := decided.recorded old mem
    apply differs _ item h
    unfold WalletRefundItem.settled
    rw [type]
    split <;> simp
  constructor
  · rw [pu, decided.purchase]
  · intro key old h met
    have pre := decided.kept key old h met
    rw [settles.refundKey_put (differs key old pre met)]
    exact pre
  · rw [map_append, nodup_append]
    refine ⟨decided.distinct, nodup_singleton _, ?_⟩
    intro key mem last listed
    obtain ⟨old, isOld, rfl⟩ := List.mem_map.mp mem
    cases mem_singleton.mp listed
    exact recordedSettled old isOld
  · intro old mem
    rcases mem_append.mp mem with mem | mem
    · exact decided.unsettled old mem
    cases mem_singleton.mp mem
    intro item h met
    exact settles.isOpen item (decided.kept _ item h met) met
  · intro old mem
    rcases mem_append.mp mem with mem | mem
    · obtain ⟨item, h, rest⟩ := decided.recorded old mem
      refine ⟨item, ?_, rest⟩
      rw [settles.refundKey_put (recordedSettled old mem)]
      exact h
    · cases mem_singleton.mp mem
      exact ⟨item, self, type, facts⟩
  · intro key new h met
    by_cases eq : key = decision.refundKey
    · exact .inr ⟨decision, by simp, eq.symm⟩
    rw [settles.refundKey_put eq] at h
    rcases decided.complete key new h met with pre | ⟨old, mem, isKey⟩
    · exact .inl pre
    · exact .inr ⟨old, mem_append_left _ mem, isKey⟩
  · intro old mem
    rcases mem_append.mp mem with mem | mem
    · exact decided.fees old mem
    · cases mem_singleton.mp mem
      exact decided.hasRefundFee settles.fee
  · intro pub
    rw [refundsOf_append]
    apply optionRel_trans (decided.coins pub)
    by_cases eq : pub = decision.status.coinPub
    · subst eq
      exact settles.coin
    · rw [refundsOf_other p eq]
      exact optionRel_same (settles.others pub eq)
  · intro old mem hasValue
    rcases mem_append.mp mem with mem | mem
    · exact settles.refreshed (decided.touched old mem hasValue)
    cases mem_singleton.mp mem
    rcases settles.refresh with refresh | ⟨-, -, nothing⟩
    · rw [refresh, mem_willRefresh]
      exact .inr rfl
    · rw [nothing] at hasValue
      cases hasValue
  · intro pub gone
    have pre : pub ∉ pg.refreshCoins := fun mem =>
      gone (settles.refreshed mem)
    rw [← decided.untouched pub pre]
    rcases settles.refresh with refresh | ⟨-, eq, -⟩
    · apply settles.others
      rintro rfl
      apply gone
      rw [refresh, mem_willRefresh]
      exact .inr rfl
    · rw [eq]
  · rcases settles.refresh with refresh | ⟨refresh, -, -⟩
    · rw [refresh]
      exact willRefresh_nodup decided.refreshOnce _
    · rw [refresh]
      exact decided.refreshOnce
  · rw [settles.wallet, decided.wallet]

end Loop

section Calls

/-- Where the value of refunds goes: all coins that got something back, with what they had, are
taken by one refresh group. -/
structure RefundsRefreshed (refreshGroupId : String) (touched : List String)
    (received : String → List (AmountJson × AmountJson)) (wallet wallet' : WalletStores) :
    Prop where
  group : touched ≠ [] → ∃ group,
    wallet'.refreshGroups = wallet.refreshGroups.set refreshGroupId group ∧
    group.coins.map RefreshingCoin.oldCoinPub = touched ∧
    ∀ coinPub ∈ touched, ∃ coin, wallet.coins.get? coinPub = some coin ∧
      inputsOf coinPub group.coins = (refunded coin.currentAmount (received coinPub)).units
  noGroup : touched = [] → wallet'.refreshGroups = wallet.refreshGroups
  emptied : ∀ coinPub ∈ touched, ∃ coin, wallet'.coins.get? coinPub = some coin ∧
    coin.currentAmount = Amounts.getZero ∧ coin.status = .dormant
  others : ∀ coinPub, coinPub ∉ touched → received coinPub = [] ∧
    wallet'.coins.get? coinPub = wallet.coins.get? coinPub

structure AcceptedRefunds (refreshGroupId : String) (p p' : PurchaseRecord)
    (wallet wallet' : WalletStores) (decisions : List RefundDecision) : Prop where
  kept : ∀ key item, p.refunds.get? key = some item → item.settled →
    p'.refunds.get? key = some item
  distinct : (decisions.map RefundDecision.refundKey).Nodup
  unsettled : ∀ decision ∈ decisions, ∀ item,
    p.refunds.get? decision.refundKey = some item → ¬ item.settled
  recorded : ∀ decision ∈ decisions, ∃ item,
    p'.refunds.get? decision.refundKey = some item ∧
    item.type = (if decision.status.failure = none then .applied else .failed) ∧
    item.coinPub = decision.status.coinPub ∧
    item.refundAmount = decision.status.refundAmount ∧ item.refundFee = decision.refundFee
  complete : ∀ key item, p'.refunds.get? key = some item → item.settled →
    p.refunds.get? key = some item ∨ ∃ decision ∈ decisions, decision.refundKey = key
  fees : ∀ decision ∈ decisions,
    wallet.HasRefundFee decision.status.coinPub decision.refundFee
  refreshed : ∃ touched : List String, touched.Nodup ∧
    RefundsRefreshed refreshGroupId touched (p.refundsOf decisions) wallet wallet'

variable {p : PurchaseRecord} {wallet w : WalletStores} {decisions : List RefundDecision}
  {progress pg : RefundProgress} {surroundings env : Surroundings} {refreshGroupId groupId gid : String}
  {db db' : PaymentStores}

theorem Decided.received_none (decided : Decided p w decisions pg) {pub : String}
    (gone : pub ∉ pg.refreshCoins) : p.refundsOf decisions pub = [] := by
  apply filterMap_eq_nil_iff.mpr
  intro decision mem
  split
  next eq =>
    cases v : p.refundValue decision.status with
    | none => rfl
    | some amount =>
      have touched := decided.touched decision mem (by rw [v]; rfl)
      exact absurd (eq ▸ touched) gone
  next => rfl

theorem Decided.refreshed (decided : Decided p w decisions pg)
    (r : pg.db.refreshAny env gid pg.refreshCoins = some db') :
    RefundsRefreshed gid pg.refreshCoins (p.refundsOf decisions) w
      db'.wallet := by
  have groups : pg.db.wallet.refreshGroups = w.refreshGroups := by
    rw [decided.wallet]
  unfold PaymentStores.refreshAny at r
  split at r
  next empty =>
    cases r
    have none : pg.refreshCoins = [] := List.isEmpty_iff.mp empty
    constructor
    · exact fun some => absurd none some
    · exact fun _ => groups
    · rw [none]
      simp
    · intro pub gone
      exact ⟨decided.received_none gone, decided.untouched pub gone⟩
  next some =>
    obtain ⟨w', made, r⟩ := bind_eq_some_iff.mp r
    cases r
    have refreshed := createRefreshGroup_over made
    constructor
    · intro _
      obtain ⟨group, isGroup, listed, taken⟩ := refreshed.group
      refine ⟨group, by rw [isGroup, groups], listed, ?_⟩
      intro pub mem
      obtain ⟨coin', isCoin', inputs⟩ := taken pub mem
      have related := decided.coins pub
      rw [isCoin'] at related
      generalize h : w.coins.get? pub = pre at related
      cases related with
      | some eq => exact ⟨_, rfl, by rw [inputs, eq.amount]⟩
    · intro none
      rw [none] at some
      exact absurd rfl some
    · exact refreshed.emptied
    · intro pub gone
      refine ⟨decided.received_none gone, ?_⟩
      rw [refreshed.others pub gone]
      exact decided.untouched pub gone

end Calls

section Runs

/-- Answers about the refunds of a payment, with other transactions between them. -/
inductive RefundEvent where
  | accept (surroundings : Surroundings) (refreshGroupId : String) (autoRefundExpected : Bool)
      (refunds : List MerchantCoinRefundStatus)
  | other

def PaymentStores.refundsOf? (db : PaymentStores) (allocationId : String) :
    Option (Record String WalletRefundItem) :=
  (db.payments.get? allocationId).map PurchaseRecord.refunds

def DecidedStep (allocationId : String) (db : PaymentStores)
    (event : RefundEvent × List RefundDecision) (db' : PaymentStores) : Prop :=
  match event with
  | (.other, decisions) =>
    decisions = [] ∧ db'.refundsOf? allocationId = db.refundsOf? allocationId
  | (.accept _ refreshGroupId _ _, decisions) =>
    (db.payments.get? allocationId = none ∧ db' = db ∧ decisions = []) ∨
    ∃ p p', db.payments.get? allocationId = some p ∧
      db'.payments.get? allocationId = some p' ∧
      AcceptedRefunds refreshGroupId p p' db.wallet db'.wallet decisions

def PaymentStores.Settled (db : PaymentStores) (allocationId key : String)
    (item : WalletRefundItem) : Prop :=
  ∃ refunds, db.refundsOf? allocationId = some refunds ∧ refunds.get? key = some item ∧
    item.settled

def decidedKeys (history : List (RefundEvent × List RefundDecision)) : List String :=
  (history.flatMap Prod.snd).map RefundDecision.refundKey

variable {allocationId : String} {start db db' : PaymentStores}

theorem refunds_found {p : PurchaseRecord} (h : db.payments.get? allocationId = some p) :
    db.refundsOf? allocationId = some p.refunds := by
  rw [PaymentStores.refundsOf?, h, map_some]

theorem decidedStep_settled {ev : RefundEvent} {decisions : List RefundDecision} {key : String}
    {item : WalletRefundItem} (step : DecidedStep allocationId db (ev, decisions) db')
    (met : db.Settled allocationId key item) : db'.Settled allocationId key item := by
  obtain ⟨refunds, isRefunds, got, isSettled⟩ := met
  cases ev with
  | other => exact ⟨refunds, step.2.trans isRefunds, got, isSettled⟩
  | accept env groupId autoRefundExpected refunds =>
    rcases step with ⟨-, rfl, -⟩ | ⟨p, p', isPayment, isPayment', ok⟩
    · exact ⟨_, isRefunds, got, isSettled⟩
    have eq := (refunds_found isPayment).symm.trans isRefunds
    cases eq
    exact ⟨p'.refunds, refunds_found isPayment', ok.kept key item got isSettled, isSettled⟩

theorem decidedStep_decides {ev : RefundEvent} {decisions : List RefundDecision}
    (step : DecidedStep allocationId db (ev, decisions) db') :
    (decisions.map RefundDecision.refundKey).Nodup ∧
    ∀ decision ∈ decisions, (∀ item, ¬ db.Settled allocationId decision.refundKey item) ∧
      ∃ item, db'.Settled allocationId decision.refundKey item := by
  cases ev with
  | other =>
    obtain ⟨none, -⟩ := step
    subst none
    simp
  | accept env groupId autoRefundExpected refunds =>
    rcases step with ⟨-, -, rfl⟩ | ⟨p, p', isPayment, isPayment', ok⟩
    · simp
    refine ⟨ok.distinct, ?_⟩
    intro decision mem
    constructor
    · rintro item ⟨refunds, isRefunds, got, met⟩
      have eq := (refunds_found isPayment).symm.trans isRefunds
      cases eq
      exact ok.unsettled decision mem item got met
    obtain ⟨item, got, type, -⟩ := ok.recorded decision mem
    refine ⟨item, p'.refunds, refunds_found isPayment', got, ?_⟩
    unfold WalletRefundItem.settled
    rw [type]
    split <;> simp

structure DecidedOnce (allocationId : String) (start : PaymentStores)
    (history : List (RefundEvent × List RefundDecision)) (db : PaymentStores) : Prop where
  distinct : (decidedKeys history).Nodup
  settled : ∀ key ∈ decidedKeys history, ∃ item, db.Settled allocationId key item
  kept : ∀ key item, start.Settled allocationId key item →
    db.Settled allocationId key item ∧ key ∉ decidedKeys history

theorem DecidedOnce.next {history : List (RefundEvent × List RefundDecision)}
    {ev : RefundEvent × List RefundDecision} (pre : DecidedOnce allocationId start history db)
    (step : DecidedStep allocationId db ev db') :
    DecidedOnce allocationId start (history ++ [ev]) db' := by
  obtain ⟨ev, decisions⟩ := ev
  obtain ⟨apart, decides⟩ := decidedStep_decides step
  have keys : decidedKeys (history ++ [(ev, decisions)]) =
      decidedKeys history ++ decisions.map RefundDecision.refundKey := by
    simp [decidedKeys]
  have isNew : ∀ key item, db.Settled allocationId key item →
      key ∉ decisions.map RefundDecision.refundKey := by
    intro key item met mem
    obtain ⟨decision, isDecision, rfl⟩ := List.mem_map.mp mem
    exact (decides decision isDecision).1 item met
  constructor
  · rw [keys]
    refine nodup_append.mpr ⟨pre.distinct, apart, ?_⟩
    intro key mem y isO
    obtain ⟨item, met⟩ := pre.settled key mem
    rintro rfl
    exact isNew key item met isO
  · intro key mem
    rw [keys, mem_append] at mem
    rcases mem with mem | mem
    · obtain ⟨item, met⟩ := pre.settled key mem
      exact ⟨item, decidedStep_settled step met⟩
    · obtain ⟨decision, isDecision, rfl⟩ := List.mem_map.mp mem
      exact (decides decision isDecision).2
  · intro key item met
    obtain ⟨still, gone⟩ := pre.kept key item met
    refine ⟨decidedStep_settled step still, ?_⟩
    rw [keys, mem_append, not_or]
    exact ⟨gone, isNew key item still⟩

end Runs

section Examples

end Examples

end Anastasis.Wallet
