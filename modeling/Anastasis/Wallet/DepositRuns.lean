import Mathlib.Algebra.BigOperators.Group.Finset.Basic
import Anastasis.Wallet.Deposits
import Anastasis.Wallet.PurchaseCoins

/-! Deposit groups over whole runs: their coins are spent and deposited as the groups say. -/

set_option autoImplicit false

namespace Anastasis.Wallet.Deposits

open Library Library.Transition AmountJson Purchasing List Option

/-! ## How coins are allocated -/

section Spending

variable {surroundings env : Surroundings} {currency cur allocation alloc rgId : String}
  {coinPubs : List String} {wallet wallet' : WalletStores}

theorem markedFor_kept {selected : String × AmountJson}
    (spent : SpentFor allocation coinPubs wallet wallet')
    (marked : MarkedFor wallet allocation selected) : MarkedFor wallet' allocation selected := by
  obtain ⟨c, alloc, h, asleep, allocated, id, amount⟩ := marked
  obtain ⟨coin', got, marks⟩ := spent.coins selected.1 c h
  obtain ⟨allocated', asleep'⟩ := marks.marked alloc allocated asleep
  exact ⟨coin', alloc, got, asleep', allocated', id, amount⟩

theorem spendSelected_marks {parts : List (String × AmountJson)} :
    ∀ {w : WalletStores}, (∀ sel ∈ parts, sel.1 ∈ coinPubs) →
      spendSelected cur allocation parts w = some wallet' →
      SpentFor allocation coinPubs w wallet' ∧ ((∀ sel ∈ parts, Usable w sel.1) →
          ∀ sel ∈ parts, MarkedFor wallet' allocation sel) := by
  induction parts with
  | nil =>
    intro w inside r
    cases r
    exact ⟨.refl, fun _ => by simp⟩
  | cons sel rest ih =>
    intro w inside r
    rw [forall_mem_cons] at inside
    obtain ⟨middle, x, r⟩ := bind_eq_some_iff.mp r
    have spends := spendSelectedCoin_cases x
    have spent : SpentFor allocation coinPubs w middle := .spentCoin spends inside.1
    obtain ⟨ys, marked⟩ := ih inside.2 r
    refine ⟨spent.trans ys, ?_⟩
    intro usable
    rw [forall_mem_cons] at usable ⊢
    constructor
    · exact markedFor_kept ys (spends.markedFor usable.1)
    apply marked
    intro y mem
    exact spends.usable (usable.2 y mem)

/-- Only coins of the selection change, and they are all marked when each is fresh or marked. -/
theorem applyCoinSpend_marks {sel : PayCoinSelection}
    (won : applyCoinSpend env cur alloc rgId sel wallet =
      some wallet') :
    SpentFor alloc sel.coinPubs wallet wallet' ∧
      sel.coinPubs.length ≤ sel.coinContributions.length ∧
      ((∀ pub ∈ sel.coinPubs, Usable wallet pub) →
        ∀ r ∈ sel.coinPubs.zip sel.coinContributions,
          MarkedFor wallet' alloc r) := by
  obtain ⟨parts, listed, won⟩ := bind_eq_some_iff.mp won
  obtain ⟨mid, spent, made⟩ := bind_eq_some_iff.mp won
  obtain ⟨⟨coins, final⟩, refreshed, made⟩ := bind_eq_some_iff.mp made
  cases made
  have isCoinPubs := contributions_coinPubs listed
  obtain ⟨spends, marked⟩ : SpentFor alloc sel.coinPubs wallet mid ∧ _ :=
    spendSelected_marks (fun r mem => isCoinPubs ▸ List.mem_map_of_mem mem) spent
  have sleeps : SpentFor alloc sel.coinPubs mid final :=
    refreshCoins_spentFor (fun _ mem => mem) refreshed
  have eq : SpentFor alloc sel.coinPubs final
      { final with
        refreshGroups := final.refreshGroups.set rgId
          { coins := coins
            timestampFinished :=
              if sel.coinPubs.isEmpty then some env.now else none
            frozen := false } } :=
    ⟨rfl, fun _ c h => ⟨c, h, .refl c⟩, fun _ c h => ⟨c, h⟩⟩
  refine ⟨spends.trans (sleeps.trans eq), ?_, ?_⟩
  · have lengths := congrArg List.length isCoinPubs
    rw [length_map, contributions_eq_zip listed, length_zip] at lengths
    omega
  intro usable r mem
  rw [← contributions_eq_zip listed] at mem
  apply markedFor_kept (sleeps.trans eq)
  apply marked _ r mem
  intro y isOther
  apply usable
  rw [← isCoinPubs]
  exact List.mem_map_of_mem isOther

theorem spentFor_unselected (spent : SpentFor alloc coinPubs wallet wallet')
    {coinPub : String} (outside : coinPub ∉ coinPubs) :
    wallet'.coins.get? coinPub = wallet.coins.get? coinPub := by
  cases h : wallet.coins.get? coinPub with
  | some c =>
    obtain ⟨coin', got, marks⟩ := spent.coins coinPub c h
    rw [got, marks.unspent outside]
  | none =>
    apply eq_none_iff_forall_ne_some.mpr
    intro coin' got
    obtain ⟨c, wasCoin⟩ := spent.found coinPub coin' got
    rw [h] at wasCoin
    cases wasCoin

end Spending

/-! ## What a selection is worth -/

section Worth

variable (host : DepositHost) (now : Nat) (wireType : String)
  (exchanges : Record String ExchangeDetails) (wallet : WalletStores) (coinPubs : List String)

def contributed (selection : PayCoinSelection) : Nat :=
  ((selection.coinPubs.zip selection.coinContributions).map fun x => x.2.units).sum

def coinsOf : List CoinRecord := coinPubs.filterMap wallet.coins.get?

def depositFees : Nat :=
  ((coinsOf wallet coinPubs).map fun coin => (host.feeDeposit coin.denomPubHash).units).sum

def wireFeeOf (exchangeUrl : String) : Nat :=
  ((exchanges.get? exchangeUrl).bind fun details =>
    (details.feesForType.lookup wireType).bind fun fees =>
      fees.find? fun fee => fee.isCurrent now).elim 0 fun fee => fee.wireFee.units

def wireFees : Nat :=
  ∑ exchangeUrl ∈ ((coinsOf wallet coinPubs).map CoinRecord.exchangeBaseUrl).toFinset,
    wireFeeOf now wireType exchanges exchangeUrl

variable {host now wireType exchanges wallet coinPubs}

theorem sum_units {amounts : List AmountJson} {total : AmountJson}
    (r : sum amounts = some total) (fits : (amounts.map units).sum < limit) :
    total.units = (amounts.map units).sum := by
  cases amounts with
  | nil => cases r
  | cons x rest =>
    cases r
    exact (Amounts.add_units fits).2

theorem selectedCoins_eq {cur : String} : ∀ {coinPubs : List String}
    {coins : List CoinRecord}, selectedCoins wallet cur coinPubs = some coins →
      coins = coinsOf wallet coinPubs := by
  intro coinPubs
  induction coinPubs with
  | nil =>
    intro coins r
    cases r
    rfl
  | cons pub rest ih =>
    intro coins r
    obtain ⟨c, h, r⟩ := bind_eq_some_iff.mp r
    obtain ⟨dn, -, r⟩ := bind_eq_some_iff.mp r
    obtain ⟨_, -, r⟩ := bind_eq_some_iff.mp r
    obtain ⟨more, isMore, r⟩ := bind_eq_some_iff.mp r
    cases r
    rw [coinsOf, filterMap_cons_some h, ih isMore]
    rfl

theorem exchangeSet_spec (coins : List CoinRecord) : (exchangeSet coins).Nodup ∧
      (exchangeSet coins).toFinset = (coins.map CoinRecord.exchangeBaseUrl).toFinset := by
  induction coins using List.reverseRecOn with
  | nil => exact ⟨nodup_nil, rfl⟩
  | append_singleton coins c ih =>
    have last : exchangeSet (coins ++ [c]) =
        if c.exchangeBaseUrl ∈ exchangeSet coins then exchangeSet coins
        else exchangeSet coins ++ [c.exchangeBaseUrl] := by
      rw [exchangeSet, foldl_append]
      rfl
    rw [last, map_append, toFinset_append, ← ih.2]
    split
    next has =>
      refine ⟨ih.1, ?_⟩
      ext exchangeUrl
      simp only [map_cons, map_nil, Finset.mem_union, List.mem_toFinset, mem_singleton]
      constructor
      · exact .inl
      intro either
      cases either with
      | inl old => exact old
      | inr new => exact new ▸ has
    next new =>
      constructor
      · apply List.Nodup.append ih.1 (nodup_singleton _)
        rw [disjoint_singleton]
        exact new
      · rw [toFinset_append]
        rfl

theorem currentWireFees_sum {cur : String} : ∀ {urls : List String}
    {fees : List (String × AmountJson)},
    currentWireFees now wireType cur exchanges urls = some fees →
      (fees.map fun fee => fee.2.units).sum =
        (urls.map (wireFeeOf now wireType exchanges)).sum := by
  intro urls
  induction urls with
  | nil =>
    intro fees r
    cases r
    rfl
  | cons exchangeUrl rest ih =>
    intro fees r
    obtain ⟨more, isMore, r⟩ := bind_eq_some_iff.mp r
    rw [map_cons, sum_cons, ← ih isMore, wireFeeOf]
    cases has : exchanges.get? exchangeUrl with
    | none =>
      rw [has] at r
      cases r
      exact (Nat.zero_add _).symm
    | some dt =>
      rw [has] at r
      obtain ⟨fee, isFee, r⟩ := bind_eq_some_iff.mp r
      obtain ⟨fees, isType, isFee⟩ := map_eq_some_iff.mp isFee
      rw [bind_some, isType, bind_some, isFee]
      cases fee with
      | none =>
        cases r
        exact (Nat.zero_add _).symm
      | some fee =>
        obtain ⟨_, -, r⟩ := bind_eq_some_iff.mp r
        cases r
        rfl

theorem amount_worth {cur : String} {sel : PayCoinSelection} {parts : EffectiveParts}
    {amount : AmountJson}
    (success : effectiveParts host now wireType cur exchanges wallet sel = some parts)
    (isAmount : parts.amount = some amount) (fits : contributed sel < limit)
    (covered : depositFees host wallet sel.coinPubs +
      wireFees now wireType exchanges wallet sel.coinPubs ≤ contributed sel) :
    amount.units + depositFees host wallet sel.coinPubs +
      wireFees now wireType exchanges wallet sel.coinPubs = contributed sel := by
  obtain ⟨contributions, mem, success⟩ := bind_eq_some_iff.mp success
  obtain ⟨coins, areCoins, success⟩ := bind_eq_some_iff.mp success
  obtain ⟨fees, areFees, success⟩ := bind_eq_some_iff.mp success
  cases success
  obtain ⟨amt, isAmt, isAmount⟩ := bind_eq_some_iff.mp isAmount
  obtain ⟨allFees, isAllFees, isAmount⟩ := bind_eq_some_iff.mp isAmount
  cases isAmount
  have isCoins := selectedCoins_eq areCoins
  obtain ⟨nodup, eq⟩ := exchangeSet_spec coins
  have wire : (fees.map fun fee => fee.2.units).sum =
      wireFees now wireType exchanges wallet sel.coinPubs := by
    rw [currentWireFees_sum areFees, wireFees, ← isCoins, ← eq, sum_toFinset _ nodup]
  have deposit : (coins.map fun c => (host.feeDeposit c.denomPubHash).units).sum =
      depositFees host wallet sel.coinPubs := by
    rw [depositFees, ← isCoins]
  have whole : ((contributions.map Prod.snd).map units).sum = contributed sel := by
    rw [contributed, ← contributions_eq_zip mem, List.map_map]
    rfl
  have all : (((coins.map fun c => host.feeDeposit c.denomPubHash) ++
      fees.map Prod.snd).map units).sum = depositFees host wallet sel.coinPubs +
        wireFees now wireType exchanges wallet sel.coinPubs := by
    rw [map_append, sum_append, List.map_map, List.map_map, ← wire, ← deposit]
    rfl
  have amtUnits := sum_units isAmt (whole ▸ fits)
  have feeUnits := sum_units isAllFees
    (by rw [EffectiveParts.allFees, all]; exact Nat.lt_of_le_of_lt covered fits)
  rw [whole] at amtUnits
  rw [EffectiveParts.allFees, all] at feeUnits
  rw [Amounts.sub_units]
  omega

end Worth

/-! ## What holds of calls and groups -/

/-- The group that a run works on has its flags set before the given coin, and is as the run has
read it from there on. -/
def Follows (groups : Record String DepositGroup) (dg : DepositGroup) (index : Nat) : Prop :=
  ∀ current, groups.get? dg.depositGroupId = some current →
    current.payCoinSelection = dg.payCoinSelection ∧
    (∀ j < index, j < current.depositedPerCoin.length →
      current.depositedPerCoin[j]? = some true) ∧
    ∀ j, index ≤ j → current.depositedPerCoin[j]? = dg.depositedPerCoin[j]?

/-- A run over the coins has their permissions, in their order. -/
structure Underway (groups : Record String DepositGroup) (log : List Trace) (dg : DepositGroup)
    (perms : List CoinDepositPermission) (index : Nat) : Prop where
  stored : .stored dg.depositGroupId ∈ log
  follows : Follows groups dg index
  coinPubs : perms.map CoinDepositPermission.coinPub = dg.payCoinSelection.coinPubs

def Point.Sound (groups : Record String DepositGroup) (log : List Trace) : Point → Prop
  | .storeGroup draft payCoinSel _ effectiveDepositAmount =>
    ∃ now, .priced payCoinSel effectiveDepositAmount now draft.contractTerms.wireMethod ∈ log
  | .generateDepositPermissions dg => .stored dg.depositGroupId ∈ log ∧ Follows groups dg 0
  | .deposit dg perms index => Underway groups log dg perms index
  | .depositAnswer dg perms index =>
    Underway groups log dg perms index ∧
      ∃ request, .deposit dg.depositGroupId index request ∈ log
  | .markDeposited dg perms index =>
    Underway groups log dg perms index ∧ .accepted dg.depositGroupId index ∈ log
  | .finishGroup dg =>
    .stored dg.depositGroupId ∈ log ∧ ∀ current,
      groups.get? dg.depositGroupId = some current → current.allDeposited = true
  | _ => True

structure GroupSound (log : List Trace) (depositGroupId : String) (dg : DepositGroup) : Prop where
  keyed : dg.depositGroupId = depositGroupId
  stored : .stored depositGroupId ∈ log
  lengths : dg.depositedPerCoin.length = dg.payCoinSelection.coinPubs.length
  accepted : ∀ index : Nat, dg.depositedPerCoin[index]? = some true →
    .accepted depositGroupId index ∈ log
  finished : dg.timestampFinished.isSome = true → dg.allDeposited = true
  priced : ∃ now, .priced dg.payCoinSelection dg.effectiveDepositAmount now
    dg.contractTerms.wireMethod ∈ log

structure Settled (wallet : DepositWallet) : Prop where
  coinsKeyed : ∀ coinPub coin, wallet.stores.coins.get? coinPub = some coin →
    coin.coinPub = coinPub
  groups : ∀ depositGroupId dg, wallet.depositGroups.get? depositGroupId = some dg →
    GroupSound wallet.log depositGroupId dg
  single : ∀ (first second : Nat) (point point' : Point) (depositGroupId : String),
    wallet.calls[first]? = some point → wallet.calls[second]? = some point' →
    point.processes = some depositGroupId → point'.processes = some depositGroupId →
    first = second
  calls : ∀ point ∈ wallet.calls, point.Sound wallet.depositGroups wallet.log

/-- What the transactions of a run leave as it is, besides the flags and the end. -/
structure SameGroup (dg dg' : DepositGroup) : Prop where
  depositGroupId : dg'.depositGroupId = dg.depositGroupId
  payCoinSelection : dg'.payCoinSelection = dg.payCoinSelection
  effectiveDepositAmount : dg'.effectiveDepositAmount = dg.effectiveDepositAmount
  contractTerms : dg'.contractTerms = dg.contractTerms

def Continues (point next : Point) : Prop :=
  next.processes = none ∨ next.processes = point.processes

/-- The coins of a new group are fresh or marked, its fees are covered by the contributions, and a
run ends only when it has found all coins deposited. -/
def Point.Ready (host : DepositHost) (wallet : DepositWallet) (now : Nat) : Point → Prop
  | .getEffectiveDepositAmount draft payCoinSel _ =>
    contributed payCoinSel < limit ∧
      depositFees host wallet.stores payCoinSel.coinPubs +
        wireFees now draft.contractTerms.wireMethod wallet.exchanges wallet.stores
          payCoinSel.coinPubs ≤ contributed payCoinSel
  | .storeGroup _ payCoinSel _ _ =>
    ∀ coinPub ∈ payCoinSel.coinPubs, Usable wallet.stores coinPub
  | .finishGroup dg =>
    (wallet.depositGroups.get? dg.depositGroupId).isSome → dg.allDeposited = true
  | _ => True

def Careful (host : DepositHost) (wallet : DepositWallet) : DepositEvent → Prop
  | .call index (.proceed surroundings _ _ _) =>
    ∀ point, wallet.calls[index]? = some point → point.Ready host wallet surroundings.now
  | _ => True

inductive Move (host : DepositHost) (wallet : DepositWallet) (point : Point) : Effect → Prop where
  | goes {next : Point} (sound : next.Sound wallet.depositGroups wallet.log)
      (continues : Continues point next) :
      Move host wallet point (.goto wallet next)
  | changes {depositGroupId : String} {dg dg' : DepositGroup} {next : Point}
      (found : wallet.depositGroups.get? depositGroupId = some dg) (same : SameGroup dg dg')
      (flags : dg'.depositedPerCoin = dg.depositedPerCoin)
      (finished : dg'.timestampFinished = dg.timestampFinished)
      (plain : ∀ groups log, next.Sound groups log) (continues : Continues point next) :
      Move host wallet point (.put wallet (some dg') next [])
  | prices {draft : Draft} {payCoinSel : PayCoinSelection}
      {totalDepositCost effectiveDepositAmount : AmountJson} {now : Nat}
      (worth : effectiveDepositAmount.units +
        depositFees host wallet.stores payCoinSel.coinPubs +
        wireFees now draft.contractTerms.wireMethod wallet.exchanges wallet.stores
          payCoinSel.coinPubs = contributed payCoinSel) :
      Move host wallet point
        (.put wallet none (.storeGroup draft payCoinSel totalDepositCost effectiveDepositAmount)
          [.priced payCoinSel effectiveDepositAmount now draft.contractTerms.wireMethod])
  | stores {dg : DepositGroup} {stores : WalletStores} {now : Nat}
      (fresh : wallet.log.any (Trace.isStored dg.depositGroupId) = false)
      (flags : dg.depositedPerCoin = dg.payCoinSelection.coinPubs.map fun _ => false)
      (finished : dg.timestampFinished = none)
      (priced : .priced dg.payCoinSelection dg.effectiveDepositAmount now
        dg.contractTerms.wireMethod ∈ wallet.log)
      (spent : SpentFor dg.allocationId dg.payCoinSelection.coinPubs wallet.stores stores)
      (covered : dg.payCoinSelection.coinPubs.length ≤ dg.payCoinSelection.coinContributions.length)
      (marked : ∀ selected ∈ dg.payCoinSelection.coinPubs.zip
        dg.payCoinSelection.coinContributions, MarkedFor stores dg.allocationId selected) :
      Move host wallet point
        ⟨.created dg.depositGroupId, stores, some dg, [.stored dg.depositGroupId]⟩
  | sends {dg : DepositGroup} {perms : List CoinDepositPermission} {index : Nat}
      {perm : CoinDepositPermission} (isPoint : point = .deposit dg perms index)
      (underway : Underway wallet.depositGroups wallet.log dg perms index)
      (unmarked : dg.depositedPerCoin[index]? ≠ some true) (isPerm : perms[index]? = some perm) :
      Move host wallet point
        (.put wallet none (.depositAnswer dg perms index)
          [.deposit dg.depositGroupId index (dg.request perm)])
  | accepts {dg : DepositGroup} {perms : List CoinDepositPermission} {index : Nat}
      {request : DepositRequest} (isPoint : point = .depositAnswer dg perms index)
      (underway : Underway wallet.depositGroups wallet.log dg perms index)
      (sent : .deposit dg.depositGroupId index request ∈ wallet.log) :
      Move host wallet point
        (.put wallet none (.markDeposited dg perms index) [.accepted dg.depositGroupId index])
  | marks {dg current : DepositGroup} {perms : List CoinDepositPermission} {index : Nat}
      (isPoint : point = .markDeposited dg perms index)
      (underway : Underway wallet.depositGroups wallet.log dg perms index)
      (accepted : .accepted dg.depositGroupId index ∈ wallet.log)
      (found : wallet.depositGroups.get? dg.depositGroupId = some current) :
      Move host wallet point
        (.put wallet (some (current.markDeposited index)) (nextDeposit dg perms (index + 1)) [])
  | ends {dg current : DepositGroup} {now : Nat}
      (found : wallet.depositGroups.get? dg.depositGroupId = some current)
      (all : current.allDeposited = true) :
      Move host wallet point
        (.put wallet (some (current.finish now)) .finished [.ended dg.depositGroupId])

section Moves

variable {host : DepositHost} {wallet : DepositWallet} {groups groups' : Record String DepositGroup}
  {log log' : List Trace}

theorem throws_sound (point : Point) (err : String) : (point.throws err).Sound groups log := by
  cases point <;> trivial

theorem throws_continues (point : Point) (err : String) : Continues point (point.throws err) := by
  cases point <;> first | exact .inl rfl | exact .inr rfl

theorem allDeposited_of {dg : DepositGroup}
    (all : ∀ j < dg.depositedPerCoin.length, dg.depositedPerCoin[j]? = some true) :
    dg.allDeposited = true := by
  apply List.all_eq_true.mpr
  intro flag mem
  obtain ⟨j, h⟩ := getElem?_of_mem mem
  have bound := (List.getElem?_eq_some_iff.mp h).1
  rw [all j bound] at h
  cases h
  rfl

/-- The coins of a selection and the permissions for them have the same number. -/
def Measured (groups : Record String DepositGroup) : Prop :=
  ∀ depositGroupId dg, groups.get? depositGroupId = some dg →
    dg.depositedPerCoin.length = dg.payCoinSelection.coinPubs.length

variable {perms : List CoinDepositPermission}

theorem nextDeposit_sound {dg : DepositGroup} {idx : Nat} (measured : Measured groups)
    (underway : Underway groups log dg perms idx) :
    (nextDeposit dg perms idx).Sound groups log := by
  unfold nextDeposit
  split
  next => exact underway
  next last =>
    refine ⟨underway.stored, ?_⟩
    intro cur h
    obtain ⟨eq, set, -⟩ := underway.follows cur h
    apply allDeposited_of
    intro j bound
    apply set j _ bound
    have lengths := measured _ cur h
    rw [eq, ← underway.coinPubs, length_map] at lengths
    omega

theorem nextDeposit_processes (dg : DepositGroup) (perms : List CoinDepositPermission)
    (idx : Nat) : (nextDeposit dg perms idx).processes = some dg.depositGroupId := by
  unfold nextDeposit
  split
  next => rfl
  next => rfl

theorem Underway.passes {dg : DepositGroup} {idx : Nat}
    (underway : Underway groups log dg perms idx) (marked : dg.depositedPerCoin[idx]? = some true) :
    Underway groups log dg perms (idx + 1) := by
  refine ⟨underway.stored, ?_, underway.coinPubs⟩
  intro cur h
  obtain ⟨eq, set, rest⟩ := underway.follows cur h
  refine ⟨eq, ?_, fun j later => rest j (Nat.le_of_succ_le later)⟩
  intro j old bound
  by_cases last : j = idx
  · rw [last, rest idx (Nat.le_refl idx)]
    exact marked
  · exact set j (by omega) bound

theorem Underway.marks {dg cur : DepositGroup} {perms : List CoinDepositPermission}
    {idx : Nat} (underway : Underway groups log dg perms idx)
    (h : groups.get? dg.depositGroupId = some cur)
    (keyed : cur.depositGroupId = dg.depositGroupId) :
    Underway (groups.set cur.depositGroupId (cur.markDeposited idx)) log dg perms
      (idx + 1) := by
  refine ⟨underway.stored, ?_, underway.coinPubs⟩
  intro marked isMarked
  rw [keyed, Record.get?_set_self] at isMarked
  cases isMarked
  obtain ⟨eq, set, rest⟩ := underway.follows cur h
  refine ⟨eq, ?_, ?_⟩
  · intro j old bound
    rw [DepositGroup.markDeposited, length_set] at bound
    rw [DepositGroup.markDeposited, getElem?_set]
    by_cases last : idx = j
    · rw [if_pos last, if_pos (last ▸ bound)]
    · rw [if_neg last]
      exact set j (by omega) bound
  · intro j later
    rw [DepositGroup.markDeposited, getElem?_set_ne (by omega)]
    exact rest j (Nat.le_of_succ_le later)

theorem Point.Sound.mono {point : Point} (longer : log ⊆ log')
    (kept : ∀ gid current', point.processes = some gid →
      .stored gid ∈ log → groups'.get? gid = some current' →
      ∃ cur, groups.get? gid = some cur ∧
        current'.payCoinSelection = cur.payCoinSelection ∧
        current'.depositedPerCoin = cur.depositedPerCoin)
    (sound : point.Sound groups log) : point.Sound groups' log' := by
  have follows : ∀ (dg : DepositGroup) (index : Nat),
      point.processes = some dg.depositGroupId → .stored dg.depositGroupId ∈ log →
      Follows groups dg index → Follows groups' dg index := by
    intro dg index processes stored follows current' got
    obtain ⟨cur, h, sel, flags⟩ := kept _ current' processes stored got
    rw [sel, flags]
    exact follows cur h
  cases point with
  | storeGroup draft payCoinSel totalDepositCost effectiveDepositAmount =>
    obtain ⟨now, mem⟩ := sound
    exact ⟨now, longer mem⟩
  | generateDepositPermissions dg =>
    exact ⟨longer sound.1, follows dg 0 rfl sound.1 sound.2⟩
  | deposit dg perms index =>
    exact ⟨longer sound.stored, follows dg index rfl sound.stored sound.follows, sound.coinPubs⟩
  | depositAnswer dg perms index =>
    obtain ⟨underway, req, sent⟩ := sound
    exact ⟨⟨longer underway.stored, follows dg index rfl underway.stored underway.follows,
      underway.coinPubs⟩, req, longer sent⟩
  | markDeposited dg perms index =>
    obtain ⟨underway, ok⟩ := sound
    exact ⟨⟨longer underway.stored, follows dg index rfl underway.stored underway.follows,
      underway.coinPubs⟩, longer ok⟩
  | finishGroup dg =>
    refine ⟨longer sound.1, ?_⟩
    intro current' got
    obtain ⟨cur, h, -, flags⟩ := kept _ current' rfl sound.1 got
    rw [DepositGroup.allDeposited, flags]
    exact sound.2 cur h
  | _ => trivial

theorem signCoins_coinPubs {data : ContractData} {stores : WalletStores}
    (keyed : ∀ pub c, stores.coins.get? pub = some c → c.coinPub = pub) :
    ∀ {parts : List (String × AmountJson)} {perms : List CoinDepositPermission},
      signCoins host.toPayHost stores data parts = some perms →
      perms.map CoinDepositPermission.coinPub = parts.map Prod.fst := by
  intro parts
  induction parts with
  | nil =>
    intro perms r
    cases r
    rfl
  | cons sel rest ih =>
    intro perms r
    obtain ⟨c, h, r⟩ := bind_eq_some_iff.mp r
    obtain ⟨dn, -, r⟩ := bind_eq_some_iff.mp r
    obtain ⟨more, isMore, r⟩ := bind_eq_some_iff.mp r
    cases r
    rw [map_cons, map_cons, ih isMore, keyed _ c h]

theorem generateDepositPermissions_coinPubs {data : ContractData} {stores : WalletStores}
    {payCoinSel : PayCoinSelection}
    (keyed : ∀ pub c, stores.coins.get? pub = some c → c.coinPub = pub)
    (r : generateDepositPermissions host.toPayHost stores payCoinSel data = some perms) :
    perms.map CoinDepositPermission.coinPub = payCoinSel.coinPubs := by
  obtain ⟨parts, mem, r⟩ := bind_eq_some_iff.mp r
  rw [signCoins_coinPubs keyed r, contributions_coinPubs mem]

theorem Move.maps {point next : Point} {dgId : String}
    {change : DepositGroup → DepositGroup} (eq : ∀ dg, SameGroup dg (change dg))
    (flags : ∀ dg, (change dg).depositedPerCoin = dg.depositedPerCoin)
    (ended : ∀ dg, (change dg).timestampFinished = dg.timestampFinished)
    (plain : ∀ groups log, next.Sound groups log) (continues : Continues point next) :
    Move host wallet point (.put wallet ((wallet.depositGroups.get? dgId).map change) next []) := by
  cases h : wallet.depositGroups.get? dgId with
  | none => exact .goes (plain _ _) continues
  | some dg => exact .changes h (eq dg) (flags dg) (ended dg) plain continues

theorem sameGroup_incrementRetry (err : String) (dg : DepositGroup) :
    SameGroup dg (dg.incrementRetry err) := by
  unfold DepositGroup.incrementRetry
  split
  next => exact ⟨rfl, rfl, rfl, rfl⟩
  next => exact ⟨rfl, rfl, rfl, rfl⟩

theorem incrementRetry_flags (err : String) (dg : DepositGroup) :
    (dg.incrementRetry err).depositedPerCoin = dg.depositedPerCoin ∧
      (dg.incrementRetry err).timestampFinished = dg.timestampFinished := by
  unfold DepositGroup.incrementRetry
  split
  next => exact ⟨rfl, rfl⟩
  next => exact ⟨rfl, rfl⟩

theorem selectCoins_plain {env : Surroundings} {draft : Draft} :
    (∀ groups log, (selectCoins host wallet env draft).Sound groups log) ∧
      (selectCoins host wallet env draft).processes = none := by
  unfold selectCoins
  dsimp only
  split
  next => exact ⟨fun _ _ => trivial, rfl⟩
  next =>
    split
    next => exact ⟨fun _ _ => trivial, rfl⟩
    next => exact ⟨fun _ _ => trivial, rfl⟩

theorem Settled.measured (met : Settled wallet) : Measured wallet.depositGroups := by
  intro dgId dg h
  exact (met.groups dgId dg h).lengths

theorem advance_move {point : Point} {answer : Answer} {effect : Effect}
    (settled : Settled wallet) (sound : point.Sound wallet.depositGroups wallet.log)
    (fresh : ∀ env random uid rgId, answer = .proceed env random uid rgId →
      wallet.log.any (Trace.isStored random) = false) (ready : ∀ env random uid rgId,
      answer = .proceed env random uid rgId → point.Ready host wallet env.now)
    (success : advance host wallet point answer = some effect) : Move host wallet point effect := by
  cases answer with
  | failure err =>
    have thrown : effect = .goto wallet (point.throws err) := by
      cases point with
      | created dgId => cases success
      | incrementDepositRetry dgId err => cases success
      | threw => cases success
      | finished => cases success
      | _ =>
        cases success
        rfl
    rw [thrown]
    exact .goes (throws_sound point err) (throws_continues point err)
  | keys now keys =>
    cases point with
    | createDepositGroup req =>
      unfold advance at success
      dsimp only at success
      split at success
      next =>
        cases success
        exact .goes trivial (.inl rfl)
      next =>
        cases success
        exact .goes trivial (.inl rfl)
    | _ => cases success
  | accepted =>
    cases point with
    | depositAnswer dg perms idx =>
      cases success
      obtain ⟨underway, request, sent⟩ := sound
      exact .accepts rfl underway sent
    | _ => cases success
  | proceed env random uid rgId =>
    have isReady := ready env random uid rgId rfl
    have isFresh := fresh env random uid rgId rfl
    cases point with
    | selectCoins draft =>
      cases success
      exact .goes (selectCoins_plain.1 _ _) (.inl selectCoins_plain.2)
    | getTotalPaymentCost draft payCoinSel =>
      unfold advance at success
      dsimp only at success
      split at success
      next =>
        cases success
        exact .goes trivial (.inl rfl)
      next =>
        cases success
        exact .goes trivial (.inl rfl)
    | getEffectiveDepositAmount draft payCoinSel totalDepositCost =>
      unfold advance at success
      dsimp only at success
      split at success
      next =>
        cases success
        exact .goes trivial (.inl rfl)
      next parts areParts =>
        split at success
        next =>
          cases success
          exact .goes trivial (.inl rfl)
        next effectiveDepositAmount isAmount =>
          cases success
          exact .prices (amount_worth areParts isAmount isReady.1 isReady.2)
    | storeGroup draft payCoinSel totalDepositCost effectiveDepositAmount =>
      cases success
      obtain ⟨now, priced⟩ := sound
      unfold storeGroup
      dsimp only
      split
      next => exact .goes trivial (.inl rfl)
      next stores spends =>
        obtain ⟨spent, covered, marked⟩ := applyCoinSpend_marks spends
        exact Move.stores isFresh rfl rfl priced spent covered (marked isReady)
    | resetDepositGroupRetry dgId =>
      cases success
      exact Move.maps (fun _ => ⟨rfl, rfl, rfl, rfl⟩) (fun _ => rfl) (fun _ => rfl)
        (fun _ _ => trivial) (.inr rfl)
    | processDepositGroupImpl dgId =>
      unfold advance at success
      dsimp only at success
      cases h : wallet.depositGroups.get? dgId with
      | none =>
        rw [h] at success
        cases success
        exact .goes trivial (.inl rfl)
      | some dg =>
        rw [h] at success
        dsimp only at success
        split at success
        next =>
          cases success
          exact .goes trivial (.inl rfl)
        next =>
          cases success
          have isId := (settled.groups dgId dg h).keyed
          refine .goes ⟨?_, ?_⟩ (.inr ?_)
          · rw [isId]
            exact (settled.groups dgId dg h).stored
          · intro current isCurrent
            rw [isId, h] at isCurrent
            cases isCurrent
            exact ⟨rfl, fun j negative => absurd negative (Nat.not_lt_zero j), fun _ _ => rfl⟩
          · exact congrArg some isId
    | generateDepositPermissions dg =>
      unfold advance at success
      dsimp only at success
      split at success
      next =>
        cases success
        exact .goes trivial (.inr rfl)
      next perms arePerms =>
        cases success
        have underway : Underway wallet.depositGroups wallet.log dg perms 0 := ⟨sound.1, sound.2,
            generateDepositPermissions_coinPubs settled.coinsKeyed arePerms⟩
        exact .goes (nextDeposit_sound settled.measured underway)
          (.inr (nextDeposit_processes dg perms 0))
    | deposit dg perms idx =>
      unfold advance at success
      dsimp only at success
      split at success
      next marked =>
        cases success
        exact .goes (nextDeposit_sound settled.measured (Underway.passes sound marked))
          (.inr (nextDeposit_processes dg perms (idx + 1)))
      next unmarked =>
        cases isPerm : perms[idx]? with
        | none =>
          rw [isPerm] at success
          cases success
        | some perm =>
          rw [isPerm] at success
          cases success
          exact .sends rfl sound unmarked isPerm
    | markDeposited dg perms idx =>
      cases success
      obtain ⟨underway, accepted⟩ := sound
      cases h : wallet.depositGroups.get? dg.depositGroupId with
      | none =>
        have later : Underway wallet.depositGroups wallet.log dg perms (idx + 1) := by
          refine ⟨underway.stored, ?_, underway.coinPubs⟩
          intro current isCurrent
          rw [h] at isCurrent
          cases isCurrent
        exact .goes (nextDeposit_sound settled.measured later)
          (.inr (nextDeposit_processes dg perms (idx + 1)))
      | some current => exact .marks rfl underway accepted h
    | finishGroup dg =>
      unfold advance at success
      dsimp only at success
      cases h : wallet.depositGroups.get? dg.depositGroupId with
      | none =>
        rw [h] at success
        cases success
        exact .goes trivial (.inl rfl)
      | some current =>
        rw [h] at success
        cases success
        have all : dg.allDeposited = true := isReady (by rw [h]; rfl)
        rw [finishGroup, if_pos all]
        exact .ends h (sound.2 current h)
    | incrementDepositRetry dgId err =>
      cases success
      exact Move.maps (sameGroup_incrementRetry err) (fun dg => (incrementRetry_flags err dg).1)
        (fun dg => (incrementRetry_flags err dg).2) (fun _ _ => trivial) (.inl rfl)
    | _ => cases success

end Moves

/-! ## What steps preserve -/

section Steps

variable {host : DepositHost} {wallet next : DepositWallet}

theorem settled_start : Settled .start := by
  constructor
  · intro pub c h
    cases h
  · intro gid dg h
    cases h
  · intro x y point point' gid isFirst
    cases isFirst
  · intro point mem
    cases mem

variable {depositGroupId groupId dgId : String} {dg : DepositGroup}

theorem GroupSound.mono {log log' : List Trace} (longer : log ⊆ log')
    (sound : GroupSound log depositGroupId dg) : GroupSound log' depositGroupId dg := by
  obtain ⟨now, priced⟩ := sound.priced
  exact ⟨sound.keyed, longer sound.stored, sound.lengths,
    fun idx marked => longer (sound.accepted idx marked), sound.finished, now, longer priced⟩

theorem GroupSound.changes {log log' : List Trace} {dg' : DepositGroup} (longer : log ⊆ log')
    (sound : GroupSound log dgId dg) (eq : SameGroup dg dg')
    (lengths : dg'.depositedPerCoin.length = dg.depositedPerCoin.length)
    (flags : ∀ idx : Nat, dg'.depositedPerCoin[idx]? = some true → dg.depositedPerCoin[idx]? =
      some true ∨ .accepted dgId idx ∈ log)
    (ended : dg'.timestampFinished.isSome = true → dg'.allDeposited = true) :
    GroupSound log' dgId dg' := by
  constructor
  · exact eq.depositGroupId.trans sound.keyed
  · exact longer sound.stored
  · rw [lengths, eq.payCoinSelection]
    exact sound.lengths
  · intro idx marked
    cases flags idx marked with
    | inl was => exact longer (sound.accepted idx was)
    | inr ok => exact longer ok
  · exact ended
  obtain ⟨now, priced⟩ := sound.priced
  rw [eq.payCoinSelection, eq.effectiveDepositAmount, eq.contractTerms]
  exact ⟨now, longer priced⟩

variable {index idx : Nat}

theorem Settled.advances {point : Point} {effect : Effect} (met : Settled wallet)
    (isPoint : wallet.calls[idx]? = some point) (continues : Continues point effect.point)
    (coinsKeyed : ∀ pub c, effect.stores.coins.get? pub = some c → c.coinPub = pub)
    (groups : ∀ depositGroupId dg, (wallet.apply idx effect).depositGroups.get? depositGroupId =
      some dg → GroupSound (wallet.log ++ effect.trace) depositGroupId dg)
    (kept : ∀ depositGroupId current', point.processes ≠ some depositGroupId →
      .stored depositGroupId ∈ wallet.log → (wallet.apply idx effect).depositGroups.get?
      depositGroupId = some current' → ∃ cur, wallet.depositGroups.get? depositGroupId =
      some cur ∧ current'.payCoinSelection = cur.payCoinSelection ∧
      current'.depositedPerCoin = cur.depositedPerCoin)
    (sound : effect.point.Sound (wallet.apply idx effect).depositGroups (wallet.log ++
      effect.trace)) : Settled (wallet.apply idx effect) := by
  have processed : ∀ (pos : Nat) (got : Point) (depositGroupId : String),
      (wallet.apply idx effect).calls[pos]? = some got →
      got.processes = some depositGroupId →
      ∃ old, wallet.calls[pos]? = some old ∧ old.processes = some depositGroupId := by
    intro pos got depositGroupId h processes
    rw [DepositWallet.apply, getElem?_set] at h
    split at h
    next eq =>
      split at h
      next =>
        cases h
        cases continues with
        | inl stops =>
          rw [stops] at processes
          cases processes
        | inr goesOn => exact ⟨point, eq ▸ isPoint, goesOn ▸ processes⟩
      next => cases h
    next => exact ⟨got, h, processes⟩
  constructor
  · exact coinsKeyed
  · exact groups
  · intro x y point' point'' depositGroupId isFirst isSecond processes processes'
    obtain ⟨old, wasFirst, was⟩ := processed x point' depositGroupId isFirst processes
    obtain ⟨old', wasSecond, was'⟩ := processed y point'' depositGroupId isSecond processes'
    exact met.single x y old old' depositGroupId wasFirst wasSecond was was'
  intro other mem
  obtain ⟨pos, isOther⟩ := getElem?_of_mem mem
  rw [DepositWallet.apply, getElem?_set] at isOther
  split at isOther
  next =>
    split at isOther
    next =>
      cases isOther
      exact sound
    next => cases isOther
  next ne =>
    have old := met.calls other (mem_of_getElem? isOther)
    refine old.mono (subset_append_left _ _) ?_
    intro depositGroupId current' processes stored got
    refine kept depositGroupId current' ?_ stored got
    intro own
    exact ne (met.single idx pos point other depositGroupId isPoint isOther own processes)

theorem put_groups {groups : Record String DepositGroup} {y : String}
    {dg' after : DepositGroup} {log : List Trace} (sound : GroupSound log dgId dg)
    (eq : SameGroup dg dg') (h : (groups.set dg'.depositGroupId dg').get? y = some after) :
    y = dgId ∧ after = dg' ∨ y ≠ dgId ∧ groups.get? y = some after := by
  rw [eq.depositGroupId, sound.keyed, Record.get?_set] at h
  split at h
  next own =>
    cases h
    exact .inl ⟨own, rfl⟩
  next ne => exact .inr ⟨ne, h⟩

theorem unstored {log : List Trace} (fresh : log.any (Trace.isStored dgId) = false) :
    .stored dgId ∉ log := by
  intro mem
  have isStored := List.any_eq_false.mp fresh _ mem
  exact isStored (decide_eq_true rfl)

theorem Settled.stores {idx : Nat} {point : Point} {dg : DepositGroup} {stores : WalletStores}
    {now : Nat} (met : Settled wallet) (isPoint : wallet.calls[idx]? = some point)
    (fresh : wallet.log.any (Trace.isStored dg.depositGroupId) = false)
    (flags : dg.depositedPerCoin = dg.payCoinSelection.coinPubs.map fun _ => false)
    (finished : dg.timestampFinished = none)
    (priced : .priced dg.payCoinSelection dg.effectiveDepositAmount now
      dg.contractTerms.wireMethod ∈ wallet.log)
    (spent : SpentFor dg.allocationId dg.payCoinSelection.coinPubs wallet.stores stores) :
    Settled (wallet.apply idx
      ⟨.created dg.depositGroupId, stores, some dg, [.stored dg.depositGroupId]⟩) := by
  apply met.advances isPoint (.inl rfl)
  · intro pub coin' got
    obtain ⟨c, h⟩ := spent.found pub coin' got
    obtain ⟨eq, isSame, marks⟩ := spent.coins pub c h
    rw [got] at isSame
    cases isSame
    exact marks.coinPub.trans (met.coinsKeyed pub c h)
  · intro y after h
    change (wallet.depositGroups.set dg.depositGroupId dg).get? y = some after at h
    rw [Record.get?_set] at h
    split at h
    next own =>
      cases h
      constructor
      · exact own.symm
      · rw [own]
        exact mem_append_right _ mem_cons_self
      · rw [flags, length_map]
      · intro pos marked
        rw [flags, getElem?_map] at marked
        obtain ⟨_, -, no⟩ := map_eq_some_iff.mp marked
        cases no
      · intro ended
        rw [finished] at ended
        cases ended
      · exact ⟨now, mem_append_left _ priced⟩
    next => exact (met.groups y after h).mono (subset_append_left _ _)
  · intro y current' ne kept h
    change (wallet.depositGroups.set dg.depositGroupId dg).get? y = some current' at h
    rw [Record.get?_set] at h
    split at h
    next own =>
      rw [own] at kept
      exact absurd kept (unstored fresh)
    next => exact ⟨current', h, rfl, rfl⟩
  · trivial

theorem Settled.logs {point next : Point} {added : List Trace} (met : Settled wallet)
    (isPoint : wallet.calls[idx]? = some point) (continues : Continues point next)
    (sound : next.Sound wallet.depositGroups (wallet.log ++ added)) :
    Settled (wallet.apply idx (.put wallet none next added)) := by
  apply met.advances isPoint continues met.coinsKeyed
  · intro dgId dg h
    exact (met.groups dgId dg h).mono (subset_append_left _ _)
  · intro dgId current' ne kept h
    exact ⟨current', h, rfl, rfl⟩
  · exact sound

/-- A transaction on a group that is there; others work on it only if it keeps its flags. -/
theorem Settled.changes {point next : Point} {dg' : DepositGroup} {added : List Trace}
    (met : Settled wallet) (isPoint : wallet.calls[idx]? = some point)
    (continues : Continues point next)
    (h : wallet.depositGroups.get? dgId = some dg) (eq : SameGroup dg dg')
    (after : GroupSound (wallet.log ++ added) dgId dg')
    (flags : point.processes = some dgId ∨ dg'.depositedPerCoin = dg.depositedPerCoin)
    (sound : next.Sound (wallet.depositGroups.set dg'.depositGroupId dg') (wallet.log ++ added)) :
    Settled (wallet.apply idx (.put wallet (some dg') next added)) := by
  have pre := met.groups dgId dg h
  apply met.advances isPoint continues met.coinsKeyed
  · intro y current' isCurrent
    cases put_groups pre eq isCurrent with
    | inl own =>
      rw [own.1, own.2]
      exact after
    | inr old => exact (met.groups y current' old.2).mono (subset_append_left _ _)
  · intro y current' ne stored isCurrent
    cases put_groups pre eq isCurrent with
    | inl own =>
      rw [own.1] at ne ⊢
      rw [own.2]
      refine ⟨dg, h, eq.payCoinSelection, ?_⟩
      cases flags with
      | inl processed => exact absurd processed ne
      | inr kept => exact kept
    | inr old => exact ⟨current', old.2, rfl, rfl⟩
  · exact sound

theorem Underway.mono {groups : Record String DepositGroup} {log log' : List Trace}
    {perms : List CoinDepositPermission} (longer : log ⊆ log')
    (underway : Underway groups log dg perms index) : Underway groups log' dg perms index :=
  ⟨longer underway.stored, underway.follows, underway.coinPubs⟩

theorem markDeposited_flags {pos : Nat}
    (marked : (dg.markDeposited idx).depositedPerCoin[pos]? = some true) :
    pos = idx ∨ dg.depositedPerCoin[pos]? = some true := by
  by_cases own : pos = idx
  · exact .inl own
  · rw [DepositGroup.markDeposited, getElem?_set_ne (Ne.symm own)] at marked
    exact .inr marked

theorem markDeposited_keeps {pos : Nat} (marked : dg.depositedPerCoin[pos]? = some true) :
    (dg.markDeposited idx).depositedPerCoin[pos]? = some true := by
  have bound := (List.getElem?_eq_some_iff.mp marked).1
  rw [DepositGroup.markDeposited, getElem?_set]
  split
  next own => rw [if_pos (own ▸ bound)]
  next => exact marked

theorem markDeposited_allDeposited (idx : Nat) (all : dg.allDeposited = true) :
    (dg.markDeposited idx).allDeposited = true := by
  apply allDeposited_of
  intro pos bound
  rw [DepositGroup.markDeposited, length_set] at bound
  apply markDeposited_keeps
  rw [getElem?_eq_getElem bound]
  exact congrArg some (List.all_eq_true.mp all _ (getElem_mem bound))

theorem Move.settled {effect : Effect} {point : Point} (met : Settled wallet)
    (isPoint : wallet.calls[idx]? = some point) (move : Move host wallet point effect) :
    Settled (wallet.apply idx effect) := by
  have longer : ∀ added : List Trace, wallet.log ⊆ wallet.log ++ added :=
    fun added => subset_append_left _ _
  cases move with
  | goes sound continues =>
    apply met.logs isPoint continues
    rw [append_nil]
    exact sound
  | changes h eq flags finished plain continues =>
    have pre := met.groups _ _ h
    apply met.changes isPoint continues h eq _ (.inr flags) (plain _ _)
    apply pre.changes (longer []) eq
    · rw [flags]
    · intro pos marked
      rw [flags] at marked
      exact .inl marked
    · rw [finished, DepositGroup.allDeposited, flags]
      exact pre.finished
  | prices worth =>
    exact met.logs isPoint (.inl rfl) ⟨_, mem_append_right _ mem_cons_self⟩
  | stores fresh flags finished priced spent covered marked =>
    exact met.stores isPoint fresh flags finished priced spent
  | sends isSends underway unmarked isPerm =>
    subst isSends
    exact met.logs isPoint (.inr rfl)
      ⟨underway.mono (longer _), _, mem_append_right _ mem_cons_self⟩
  | accepts isAnswer underway sent =>
    subst isAnswer
    exact met.logs isPoint (.inr rfl)
      ⟨underway.mono (longer _), mem_append_right _ mem_cons_self⟩
  | @marks dg cur perms pos isMarks underway ok h =>
    subst isMarks
    have pre := met.groups _ _ h
    have eq : SameGroup cur (cur.markDeposited pos) := ⟨rfl, rfl, rfl, rfl⟩
    have after : GroupSound (wallet.log ++ []) dg.depositGroupId
        (cur.markDeposited pos) := by
      apply pre.changes (longer []) eq
      · exact length_set
      · intro y marked
        cases markDeposited_flags marked with
        | inl own =>
          rw [own]
          exact .inr ok
        | inr was => exact .inl was
      · exact fun ended => markDeposited_allDeposited pos (pre.finished ended)
    apply met.changes isPoint (.inr (nextDeposit_processes dg perms (pos + 1))) h
      eq after (.inl rfl)
    apply nextDeposit_sound
    · intro y group isGroup
      cases put_groups pre eq isGroup with
      | inl own =>
        rw [own.2]
        exact after.lengths
      | inr old => exact met.measured y group old.2
    · exact (underway.marks h pre.keyed).mono (longer [])
  | @ends dg cur now h all =>
    have pre := met.groups _ _ h
    have eq : SameGroup cur (cur.finish now) := ⟨rfl, rfl, rfl, rfl⟩
    refine met.changes isPoint (.inl rfl) h eq ?_ (.inr rfl) trivial
    exact pre.changes (longer _) eq rfl (fun _ marked => .inl marked) fun _ => all

end Steps

/-! ## Safe deposits -/

def Trace.Sound (host : DepositHost) (wallet next : DepositWallet) : Trace → Prop
  | .priced payCoinSel effectiveDepositAmount now wireType =>
    effectiveDepositAmount.units + depositFees host wallet.stores payCoinSel.coinPubs +
      wireFees now wireType wallet.exchanges wallet.stores payCoinSel.coinPubs =
        contributed payCoinSel
  | .stored _ => True
  | .deposit depositGroupId index request =>
    ∀ dg, wallet.depositGroups.get? depositGroupId = some dg →
      dg.depositedPerCoin[index]? ≠ some true ∧
      dg.payCoinSelection.coinPubs[index]? = some request.coinPub
  | .accepted depositGroupId index =>
    ∃ request, .deposit depositGroupId index request ∈ wallet.log
  | .ended depositGroupId =>
    ∃ dg, next.depositGroups.get? depositGroupId = some dg ∧ dg.allDeposited = true ∧
      dg.timestampFinished.isSome = true

/-- A new group is stored, and its coins are allocated to it, each with its contribution. -/
structure StoredTogether (wallet next : DepositWallet) (dg : DepositGroup) : Prop where
  new : wallet.depositGroups.get? dg.depositGroupId = none
  stored : next.depositGroups = wallet.depositGroups.set dg.depositGroupId dg
  covered : dg.payCoinSelection.coinPubs.length ≤ dg.payCoinSelection.coinContributions.length
  allocated : ∀ selected ∈ dg.payCoinSelection.coinPubs.zip dg.payCoinSelection.coinContributions,
    MarkedFor next.stores dg.allocationId selected
  others : ∀ coinPub, coinPub ∉ dg.payCoinSelection.coinPubs →
    next.stores.coins.get? coinPub = wallet.stores.coins.get? coinPub

structure StepSafe (host : DepositHost) (wallet next : DepositWallet) : Prop where
  flags : ∀ depositGroupId dg dg', wallet.depositGroups.get? depositGroupId = some dg →
    next.depositGroups.get? depositGroupId = some dg' →
    ∀ index : Nat, dg.depositedPerCoin[index]? = some true →
      dg'.depositedPerCoin[index]? = some true
  created : (∀ depositGroupId, wallet.depositGroups.get? depositGroupId = none →
    next.depositGroups.get? depositGroupId = none) ∨ ∃ dg, StoredTogether wallet next dg
  gone : ∀ depositGroupId, .stored depositGroupId ∈ wallet.log →
    wallet.depositGroups.get? depositGroupId = none →
    next.depositGroups.get? depositGroupId = none
  entries : ∃ added, next.log = wallet.log ++ added ∧
    (∀ entry ∈ added, entry.Sound host wallet next) ∧
    ∀ depositGroupId dg dg', wallet.depositGroups.get? depositGroupId = some dg →
      next.depositGroups.get? depositGroupId = some dg' → dg.timestampFinished = none →
      dg'.timestampFinished.isSome = true → .ended depositGroupId ∈ added

/-- Coins are deposited as their groups say, in a wallet and in the steps from it. -/
structure DepositedSafely (host : DepositHost)
    (step : DepositWallet → DepositEvent → DepositWallet → Prop) (wallet : DepositWallet) :
    Prop where
  accepted : ∀ depositGroupId dg (index : Nat),
    wallet.depositGroups.get? depositGroupId = some dg →
    dg.depositedPerCoin[index]? = some true → .accepted depositGroupId index ∈ wallet.log
  finished : ∀ depositGroupId dg, wallet.depositGroups.get? depositGroupId = some dg →
    dg.timestampFinished.isSome = true → dg.allDeposited = true
  priced : ∀ depositGroupId dg, wallet.depositGroups.get? depositGroupId = some dg →
    ∃ now, .priced dg.payCoinSelection dg.effectiveDepositAmount now dg.contractTerms.wireMethod ∈
      wallet.log
  steps : ∀ event next, step wallet event next → StepSafe host wallet next
  together : ∀ index answer next, step wallet (.call index answer) next →
    next.stores = wallet.stores ∨ ∃ dg, StoredTogether wallet next dg

section Runs

variable {host : DepositHost} {wallet next : DepositWallet}

theorem StepSafe.same {added : List Trace}
    (groups : next.depositGroups = wallet.depositGroups) (log : next.log = wallet.log ++ added)
    (entries : ∀ e ∈ added, e.Sound host wallet next) : StepSafe host wallet next := by
  constructor
  · intro gid dg dg' h got idx marked
    rw [groups, h] at got
    cases got
    exact marked
  · rw [groups]
    exact .inl fun _ missing => missing
  · rw [groups]
    exact fun _ _ missing => missing
  refine ⟨added, log, entries, ?_⟩
  intro gid dg dg' h got todo ended
  rw [groups, h] at got
  cases got
  rw [todo] at ended
  cases ended

theorem StepSafe.changes {added : List Trace} {depositGroupId : String} {dg dg' : DepositGroup}
    (met : Settled wallet) (h : wallet.depositGroups.get? depositGroupId = some dg)
    (eq : SameGroup dg dg')
    (groups : next.depositGroups = wallet.depositGroups.set dg'.depositGroupId dg')
    (flags : ∀ idx : Nat, dg.depositedPerCoin[idx]? = some true →
      dg'.depositedPerCoin[idx]? = some true)
    (finished : dg.timestampFinished = none → dg'.timestampFinished.isSome = true →
      .ended depositGroupId ∈ added) (log : next.log = wallet.log ++ added)
    (entries : ∀ e ∈ added, e.Sound host wallet next) : StepSafe host wallet next := by
  have pre := met.groups depositGroupId dg h
  have isId : dg'.depositGroupId = depositGroupId := eq.depositGroupId.trans pre.keyed
  have absent : ∀ y, wallet.depositGroups.get? y = none →
      next.depositGroups.get? y = none := by
    intro y missing
    rw [groups, isId, Record.get?_set]
    split
    next own =>
      rw [own, h] at missing
      cases missing
    next => exact missing
  constructor
  · intro y was after wasFound isFound idx marked
    rw [groups] at isFound
    cases put_groups pre eq isFound with
    | inl own =>
      rw [own.1, h] at wasFound
      cases wasFound
      rw [own.2]
      exact flags idx marked
    | inr old =>
      rw [old.2] at wasFound
      cases wasFound
      exact marked
  · exact .inl absent
  · exact fun y _ missing => absent y missing
  · refine ⟨added, log, entries, ?_⟩
    intro y was after wasFound isFound todo ended
    rw [groups] at isFound
    cases put_groups pre eq isFound with
    | inl own =>
      rw [own.1] at wasFound ⊢
      rw [h] at wasFound
      cases wasFound
      rw [own.2] at ended
      exact finished todo ended
    | inr old =>
      rw [old.2] at wasFound
      cases wasFound
      rw [todo] at ended
      cases ended

theorem Move.storedTogether (idx : Nat) {dg : DepositGroup} {stores : WalletStores}
    (met : Settled wallet) (fresh : wallet.log.any (Trace.isStored dg.depositGroupId) = false)
    (spent : SpentFor dg.allocationId dg.payCoinSelection.coinPubs wallet.stores stores)
    (covered : dg.payCoinSelection.coinPubs.length ≤ dg.payCoinSelection.coinContributions.length)
    (marked : ∀ r ∈ dg.payCoinSelection.coinPubs.zip
      dg.payCoinSelection.coinContributions, MarkedFor stores dg.allocationId r) :
    StoredTogether wallet (wallet.apply idx
      ⟨.created dg.depositGroupId, stores, some dg, [.stored dg.depositGroupId]⟩) dg := by
  refine ⟨?_, rfl, covered, marked, fun pub outside => spentFor_unselected spent outside⟩
  apply eq_none_iff_forall_ne_some.mpr
  intro old h
  exact unstored fresh (met.groups _ old h).stored

theorem StepSafe.stores {idx : Nat} {dg : DepositGroup} {stores : WalletStores}
    (fresh : wallet.log.any (Trace.isStored dg.depositGroupId) = false)
    (together : StoredTogether wallet (wallet.apply idx
      ⟨.created dg.depositGroupId, stores, some dg, [.stored dg.depositGroupId]⟩) dg) :
    StepSafe host wallet (wallet.apply idx
      ⟨.created dg.depositGroupId, stores, some dg, [.stored dg.depositGroupId]⟩) := by
  have old : ∀ y was, wallet.depositGroups.get? y = some was →
      (wallet.depositGroups.set dg.depositGroupId dg).get? y = some was := by
    intro y was wasFound
    rw [Record.get?_set]
    split
    next own =>
      rw [own, together.new] at wasFound
      cases wasFound
    next => exact wasFound
  constructor
  · intro y was after wasFound h pos marked
    rw [together.stored, old y was wasFound] at h
    cases h
    exact marked
  · exact .inr ⟨dg, together⟩
  · intro y kept missing
    rw [together.stored, Record.get?_set]
    split
    next own =>
      rw [own] at kept
      exact absurd kept (unstored fresh)
    next => exact missing
  · refine ⟨[.stored dg.depositGroupId], rfl, ?_, ?_⟩
    · intro e mem
      rw [mem_singleton.mp mem]
      trivial
    intro y was after wasFound h todo ended
    rw [together.stored, old y was wasFound] at h
    cases h
    rw [todo] at ended
    cases ended

theorem Move.safe {effect : Effect} {idx : Nat} {point : Point} (met : Settled wallet)
    (move : Move host wallet point effect) : StepSafe host wallet (wallet.apply idx effect) ∧
      (effect.stores = wallet.stores ∨ ∃ dg, StoredTogether wallet (wallet.apply idx effect) dg) := by
  cases move with
  | goes sound continues =>
    refine ⟨StepSafe.same rfl rfl ?_, .inl rfl⟩
    intro e mem
    cases mem
  | changes h eq flags finished plain continues =>
    refine ⟨StepSafe.changes met h eq rfl ?_ ?_ rfl ?_, .inl rfl⟩
    · intro pos marked
      rw [flags]
      exact marked
    · intro todo ended
      rw [finished, todo] at ended
      cases ended
    · intro e mem
      cases mem
  | prices worth =>
    refine ⟨StepSafe.same rfl rfl ?_, .inl rfl⟩
    intro e mem
    rw [mem_singleton.mp mem]
    exact worth
  | stores fresh flags finished priced spent covered marked =>
    have together := Move.storedTogether idx met fresh spent covered marked
    exact ⟨StepSafe.stores fresh together, .inr ⟨_, together⟩⟩
  | @sends dg perms pos perm isSends underway unmarked isPerm =>
    refine ⟨StepSafe.same rfl rfl ?_, .inl rfl⟩
    intro e mem
    rw [mem_singleton.mp mem]
    intro cur h
    obtain ⟨eq, -, rest⟩ := underway.follows cur h
    constructor
    · rw [rest pos (Nat.le_refl pos)]
      exact unmarked
    · rw [eq, ← underway.coinPubs, getElem?_map, isPerm]
      rfl
  | accepts isAnswer underway sent =>
    refine ⟨StepSafe.same rfl rfl ?_, .inl rfl⟩
    intro e mem
    rw [mem_singleton.mp mem]
    exact ⟨_, sent⟩
  | @marks dg cur perms pos isMarks underway ok h =>
    have eq : SameGroup cur (cur.markDeposited pos) := ⟨rfl, rfl, rfl, rfl⟩
    refine ⟨StepSafe.changes met h eq rfl ?_ ?_ rfl ?_, .inl rfl⟩
    · exact fun y marked => markDeposited_keeps marked
    · intro todo ended
      change cur.timestampFinished.isSome = true at ended
      rw [todo] at ended
      cases ended
    · intro e mem
      cases mem
  | @ends dg cur now h all =>
    have pre := met.groups _ _ h
    have eq : SameGroup cur (cur.finish now) := ⟨rfl, rfl, rfl, rfl⟩
    refine ⟨StepSafe.changes met h eq rfl ?_ ?_ rfl ?_, .inl rfl⟩
    · exact fun y marked => marked
    · exact fun _ _ => mem_singleton_self _
    intro e mem
    rw [mem_singleton.mp mem]
    refine ⟨cur.finish now, ?_, all, rfl⟩
    change (wallet.depositGroups.set cur.depositGroupId (cur.finish now)).get? _ = _
    rw [pre.keyed]
    exact Record.get?_set_self _ _ _

def CarefulStep (host : DepositHost) : DepositWallet → DepositEvent → DepositWallet → Prop :=
  Guarded (Careful host) (DepositStep host)

theorem Settled.begins {point : Point} (met : Settled wallet)
    (alone : ∀ dgId, point.processes = some dgId →
      ∀ other ∈ wallet.calls, other.processes ≠ some dgId)
    (plain : point.Sound wallet.depositGroups wallet.log) : Settled (wallet.begin point) := by
  constructor
  · exact met.coinsKeyed
  · exact met.groups
  · intro x y point' point'' dgId isFirst isSecond processes processes'
    rw [DepositWallet.begin, getElem?_append] at isFirst isSecond
    split at isFirst
    next early =>
      split at isSecond
      next early' =>
        exact met.single x y point' point'' dgId isFirst isSecond processes processes'
      next late' =>
        cases mem_singleton.mp (mem_of_getElem? isSecond)
        exact absurd processes (alone dgId processes' point' (mem_of_getElem? isFirst))
    next late =>
      have isLast := (List.getElem?_eq_some_iff.mp isFirst).1
      cases mem_singleton.mp (mem_of_getElem? isFirst)
      split at isSecond
      next early' =>
        exact absurd processes' (alone dgId processes point'' (mem_of_getElem? isSecond))
      next late' =>
        have isLast' := (List.getElem?_eq_some_iff.mp isSecond).1
        rw [length_singleton] at isLast isLast'
        omega
  · intro other mem
    cases mem_append.mp mem with
    | inl old => exact met.calls other old
    | inr last =>
      rw [mem_singleton.mp last]
      exact plain

theorem Settled.process (met : Settled wallet) (depositGroupId : String) (forceNow : Bool) :
    Settled (wallet.process depositGroupId forceNow) := by
  unfold DepositWallet.process
  split
  next => exact met
  next notProcessed =>
    have alone : ∀ y ∈ wallet.calls, y.processes ≠ some depositGroupId := by
      intro y mem processes
      exact notProcessed (List.any_eq_true.mpr ⟨y, mem, decide_eq_true processes⟩)
    apply met.begins
    · intro own processes
      have eq : own = depositGroupId := by
        cases forceNow with
        | true => exact (Option.some.inj processes).symm
        | false => exact (Option.some.inj processes).symm
      rw [eq]
      exact alone
    · cases forceNow <;> trivial

theorem step_settled {ev : DepositEvent} (met : Settled wallet)
    (step : CarefulStep host wallet ev next) : Settled next ∧ StepSafe host wallet next ∧
      ∀ idx ans, ev = .call idx ans →
        next.stores = wallet.stores ∨ ∃ dg, StoredTogether wallet next dg := by
  obtain ⟨careful, won, promised⟩ := step
  have silent : wallet.log = wallet.log ++ [] := (append_nil _).symm
  have noEntries : ∀ next : DepositWallet, ∀ entry ∈ ([] : List Trace),
      entry.Sound host wallet next := by
    intro next entry mem
    cases mem
  cases ev with
  | createDepositGroup req =>
    cases won
    refine ⟨met.begins ?_ trivial, StepSafe.same rfl silent (noEntries _), ?_⟩
    · intro dgId processes
      cases processes
    · intro idx ans isCall
      cases isCall
  | processDepositGroup dgId forceNow =>
    cases won
    refine ⟨met.process dgId forceNow, ?_, ?_⟩
    · unfold DepositWallet.process
      split
      next => exact StepSafe.same rfl silent (noEntries _)
      next => exact StepSafe.same rfl silent (noEntries _)
    · intro idx ans isCall
      cases isCall
  | call idx ans =>
    obtain ⟨point, isPoint, won⟩ := bind_eq_some_iff.mp won
    obtain ⟨effect, advanced, won⟩ := bind_eq_some_iff.mp won
    cases won
    have sound := met.calls point (mem_of_getElem? isPoint)
    have move : Move host wallet point effect := by
      apply advance_move met sound _ _ advanced
      · intro env random uid rgId isAnswer
        subst isAnswer
        exact promised
      intro env random uid rgId isAnswer
      subst isAnswer
      exact careful point isPoint
    obtain ⟨safe, together⟩ := move.safe met
    exact ⟨move.settled met isPoint, safe, fun _ _ _ => together⟩
  | deleteDepositGroup dgId =>
    cases won
    have left : ∀ other dg, (wallet.depositGroups.erase dgId).get? other = some dg →
        wallet.depositGroups.get? other = some dg := by
      intro other dg got
      rw [Record.get?_erase] at got
      split at got
      next => cases got
      next => exact got
    have absent : ∀ other, wallet.depositGroups.get? other = none →
        (wallet.depositGroups.erase dgId).get? other = none := by
      intro other missing
      rw [Record.get?_erase, missing, ite_self]
    refine ⟨⟨met.coinsKeyed, ?_, met.single, ?_⟩, ⟨?_, ?_, ?_, [], silent,
      noEntries _, ?_⟩, ?_⟩
    · intro other dg got
      exact met.groups other dg (left other dg got)
    · intro point mem
      refine (met.calls point mem).mono (List.Subset.refl _) ?_
      intro other cur processes kept got
      exact ⟨cur, left other cur got, rfl, rfl⟩
    · intro other dg dg' got found' idx marked
      rw [left other dg' found'] at got
      cases got
      exact marked
    · exact .inl absent
    · exact fun other _ missing => absent other missing
    · intro other dg dg' got found' todo ended
      rw [left other dg' found'] at got
      cases got
      rw [todo] at ended
      cases ended
    · intro idx ans isCall
      cases isCall
  | others stores exchanges =>
    cases won
    refine ⟨⟨promised, met.groups, met.single, met.calls⟩,
      StepSafe.same rfl silent (noEntries _), ?_⟩
    intro idx ans isCall
    cases isCall
  | restarted =>
    cases won
    refine ⟨⟨met.coinsKeyed, met.groups, ?_, ?_⟩,
      StepSafe.same rfl silent (noEntries _), ?_⟩
    · intro x y point point' dgId isFirst
      cases isFirst
    · intro point mem
      cases mem
    · intro idx ans isCall
      cases isCall

/-- Careful runs deposit coins safely. -/
theorem deposits_safely {events : List DepositEvent}
    (run : Run (CarefulStep host) .start events wallet) :
    DepositedSafely host (CarefulStep host) wallet := by
  have settled : Settled wallet :=
    run.invariant Settled settled_start fun _ _ _ settled step => (step_settled settled step).1
  constructor
  · intro depositGroupId dg index found marked
    exact (settled.groups depositGroupId dg found).accepted index marked
  · intro depositGroupId dg found ended
    exact (settled.groups depositGroupId dg found).finished ended
  · intro depositGroupId dg found
    exact (settled.groups depositGroupId dg found).priced
  · intro event next step
    exact (step_settled settled step).2.1
  · intro index answer next step
    exact (step_settled settled step).2.2 index answer rfl

end Runs

section Example

def exampleHost : DepositHost where
  denomPub denomPubHash := .rsa denomPubHash
  feeDeposit _ := .ofValue 1
  depositExpired _ _ := false
  denomSig coinPub := coinPub
  coinSig _ coin _ := coin.coinPub
  isValidPaymentSignature _ _ _ := true
  parsePaytoUri _ := some "iban"
  hashWire paytoUri salt := paytoUri ++ salt
  hashContractTerms _ _ texts _ := String.intercalate "," texts

theorem ten_inRange : (AmountJson.ofValue 10).units < limit := by decide

def exampleDenom : DenominationRecord where
  exchangeBaseUrl := "https://exchange/"
  denomPubHash := "ten"
  currency := "KUDOS"
  value := .ofValue 10
  feeWithdraw := Amounts.getZero
  feeRefresh := Amounts.getZero
  feeRefund := Amounts.getZero
  stampStart := .at 0
  stampExpireWithdraw := .never
  isOffered := true
  isRevoked := false
  verificationStatus := .verifiedGood
  valueInRange := ten_inRange

def exampleCoin : CoinRecord where
  coinPub := "coin"
  exchangeBaseUrl := "https://exchange/"
  denomPubHash := "ten"
  currency := "KUDOS"
  currentAmount := .ofValue 10
  status := .fresh
  suspended := false
  allocation := none
  amountInRange := ten_inRange

def exampleStores : WalletStores :=
  { WalletStores.empty with
    coins := Record.empty.set "coin" exampleCoin
    denominations := Record.empty.set ("https://exchange/", "ten") exampleDenom }

def exampleDetails : ExchangeDetails where
  masterPublicKey := "master"
  feesForType := [("iban", [⟨"KUDOS", .ofValue 1, .at 0, .never⟩])]

def exampleProceed (index : Nat) (random : String) : DepositEvent :=
  .call index (.proceed ⟨1000, true⟩ random "uid" "refresh")

/-- A group for one coin, up to the answer of the exchange to its deposit. -/
def exampleDeposit : List DepositEvent :=
  [.others exampleStores (Record.empty.set "https://exchange/" exampleDetails),
    .createDepositGroup ⟨"payto://iban/me", ⟨"KUDOS", .ofValue 8⟩⟩,
    .call 0 (.keys 1000 ⟨"noncePriv", "noncePub", "merchantPriv", "merchantPub", "salt"⟩),
    exampleProceed 0 "group", exampleProceed 0 "group", exampleProceed 0 "group",
    exampleProceed 0 "group", .processDepositGroup "group" false, exampleProceed 1 "b",
    exampleProceed 1 "b", exampleProceed 1 "b", .call 1 .accepted, exampleProceed 1 "b"]

def step? (wallet : DepositWallet) (event : DepositEvent) : Option DepositWallet :=
  match event with
  | .call _ (.proceed _ random _ _) =>
    if wallet.log.any (Trace.isStored random) then none else wallet.perform exampleHost event
  | .others stores _ =>
    if stores.coins.keys.all fun coinPub =>
        (stores.coins.get? coinPub).all fun coin => coin.coinPub = coinPub then
      wallet.perform exampleHost event
    else none
  | _ => wallet.perform exampleHost event

theorem step?_step (wallet : DepositWallet) (ev : DepositEvent) (next : DepositWallet)
    (ran : step? wallet ev = some next) : DepositStep exampleHost wallet ev next := by
  cases ev with
  | call idx ans =>
    cases ans with
    | proceed env random uid groupId =>
      rw [step?] at ran
      split at ran
      next => cases ran
      next fresh => exact ⟨ran, by simpa using fresh⟩
    | _ => exact ⟨ran, trivial⟩
  | others stores exchanges =>
    rw [step?] at ran
    split at ran
    next keyed =>
      refine ⟨ran, ?_⟩
      intro pub coin got
      have isKey := (Record.mem_keys_iff stores.coins pub).mpr ⟨coin, got⟩
      have isKeyed := List.all_eq_true.mp keyed pub isKey
      rw [got] at isKeyed
      exact of_decide_eq_true isKeyed
    next => cases ran
  | _ => exact ⟨ran, trivial⟩

def Trace.ends (depositGroupId : String) : Trace → Bool
  | .ended found => found = depositGroupId
  | _ => false

/-- The run that deposits the only coin of a group ends without finishing the group. -/
theorem last_coin_unfinished : ¬ ∀ host events wallet,
    Run (DepositStep host) .start events wallet → DepositedSafely host (DepositStep host) wallet := by
  intro safely
  have facts : (exampleDeposit.foldlM step? .start).bind (fun wallet =>
      (step? wallet (exampleProceed 1 "b")).map fun next =>
        (next.log.any (Trace.ends "group"), wallet.log.any (Trace.ends "group"),
          (next.depositGroups.get? "group").map DepositGroup.timestampFinished)) =
        some (true, false, some none) := by decide +kernel
  obtain ⟨wallet, isWallet, facts⟩ := bind_eq_some_iff.mp facts
  obtain ⟨next, isNext, facts⟩ := map_eq_some_iff.mp facts
  obtain ⟨ended, facts⟩ := Prod.mk.inj facts
  obtain ⟨notEnded, unfinished⟩ := Prod.mk.inj facts
  have run := Run.ofFoldlM step?_step isWallet
  have safe := (safely exampleHost _ wallet run).steps _ next (step?_step _ _ _ isNext)
  obtain ⟨added, isLog, sound, -⟩ := safe.entries
  obtain ⟨entry, member, isEnd⟩ := List.any_eq_true.mp ended
  rw [isLog] at member
  have new : entry ∈ added := by
    cases mem_append.mp member with
    | inl old => exact absurd isEnd (List.any_eq_false.mp notEnded entry old)
    | inr new => exact new
  have isSound := sound entry new
  cases entry with
  | ended depositGroupId =>
    obtain ⟨dg, found, -, finished⟩ := isSound
    rw [of_decide_eq_true isEnd] at found
    rw [found] at unfinished
    have none : dg.timestampFinished = none := Option.some.inj unfinished
    rw [none] at finished
    cases finished
  | _ => cases isEnd

/-- The wallet is restarted before the run ends, and a second run finds the coin deposited. -/
def exampleFinished : List DepositEvent :=
  exampleDeposit ++ [.restarted, .processDepositGroup "group" false, exampleProceed 0 "b",
    exampleProceed 0 "b", exampleProceed 0 "b", exampleProceed 0 "b"]

def carefulStep? (wallet : DepositWallet) (event : DepositEvent) : Option DepositWallet :=
  match event with
  | .call index (.proceed surroundings _ _ _) =>
    match wallet.calls[index]? with
    | some (.getEffectiveDepositAmount draft payCoinSel _) =>
      if contributed payCoinSel < limit ∧
          depositFees exampleHost wallet.stores payCoinSel.coinPubs +
            wireFees surroundings.now draft.contractTerms.wireMethod wallet.exchanges
              wallet.stores payCoinSel.coinPubs ≤ contributed payCoinSel then
        step? wallet event
      else none
    | some (.storeGroup _ payCoinSel _ _) =>
      if payCoinSel.coinPubs.all fun coinPub =>
          (wallet.stores.coins.get? coinPub).all fun coin => coin.status = .fresh then
        step? wallet event
      else none
    | some (.finishGroup dg) => if dg.allDeposited then step? wallet event else none
    | _ => step? wallet event
  | _ => step? wallet event

theorem carefulStep?_step (wallet : DepositWallet) (ev : DepositEvent) (next : DepositWallet)
    (r : carefulStep? wallet ev = some next) : CarefulStep exampleHost wallet ev next := by
  cases ev with
  | call idx ans =>
    cases ans with
    | proceed env random uid gid =>
      unfold carefulStep? at r
      dsimp only at r
      split at r
      next draft payCoinSel totalDepositCost isPoint =>
        split at r
        next covered =>
          refine ⟨?_, step?_step _ _ _ r⟩
          intro point h
          rw [isPoint] at h
          cases h
          exact covered
        next => cases r
      next draft payCoinSel totalDepositCost effectiveDepositAmount isPoint =>
        split at r
        next fresh =>
          refine ⟨?_, step?_step _ _ _ r⟩
          intro point h
          rw [isPoint] at h
          cases h
          intro pub mem c isC
          have isFresh := List.all_eq_true.mp fresh pub mem
          rw [isC] at isFresh
          exact .inl (of_decide_eq_true isFresh)
        next => cases r
      next dg isPoint =>
        split at r
        next all =>
          refine ⟨?_, step?_step _ _ _ r⟩
          intro point h
          rw [isPoint] at h
          cases h
          exact fun _ => all
        next => cases r
      next pricing storing finishing =>
        refine ⟨?_, step?_step _ _ _ r⟩
        intro point h
        cases point with
        | getEffectiveDepositAmount draft payCoinSel totalDepositCost =>
          exact absurd h (pricing draft payCoinSel totalDepositCost)
        | storeGroup draft payCoinSel totalDepositCost effectiveDepositAmount =>
          exact absurd h (storing draft payCoinSel totalDepositCost effectiveDepositAmount)
        | finishGroup dg => exact absurd h (finishing dg)
        | _ => trivial
    | _ => exact ⟨trivial, step?_step _ _ _ r⟩
  | _ => exact ⟨trivial, step?_step _ _ _ r⟩

theorem finished_safely : ∃ wallet, Run (CarefulStep exampleHost) .start exampleFinished wallet ∧
      (wallet.depositGroups.get? "group").map (fun dg =>
        (dg.depositedPerCoin, dg.timestampFinished)) = some ([true], some 1000) ∧
      DepositedSafely exampleHost (CarefulStep exampleHost) wallet := by
  have facts : (exampleFinished.foldlM carefulStep? .start).map (fun wallet =>
      (wallet.depositGroups.get? "group").map fun dg =>
        (dg.depositedPerCoin, dg.timestampFinished)) = some (some ([true], some 1000)) := by
    decide +kernel
  obtain ⟨wallet, isWallet, finished⟩ := map_eq_some_iff.mp facts
  have run := Run.ofFoldlM carefulStep?_step isWallet
  exact ⟨wallet, run, finished, deposits_safely run⟩

end Example

end Anastasis.Wallet.Deposits
