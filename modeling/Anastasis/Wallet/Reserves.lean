import Anastasis.Wallet.Validation

/-! What is left in a reserve, according to the exchange and to the wallet. -/

set_option autoImplicit false

namespace Anastasis.Wallet

open Library Library.Transition AmountJson List Option

inductive ReserveTransaction where
  | credit (amount : AmountJson)
  | recoup (amount : AmountJson)
  | closing (amount : AmountJson)
  | withdraw (amount : AmountJson) (hCoinEnvelope : String)

structure DenomSelectionState where
  selectedDenoms : List (Nat × String)
  totalCoinValue : AmountJson
  totalWithdrawCost : AmountJson

def denomSelectionInfoToState (dsi : DenominationSelectionInfo) : DenomSelectionState where
  selectedDenoms := dsi.selectedDenoms.map fun x => (x.1, x.2.denomPubHash)
  totalCoinValue := dsi.totalCoinValue
  totalWithdrawCost := dsi.totalWithdrawCost

structure ReserveWithdrawal where
  reservePub : String
  rawWithdrawalAmount : AmountJson
  denomsSel : DenomSelectionState

inductive ReserveRecordStatus where
  | queryingStatus
  | dormant
deriving DecidableEq

structure ReserveState where
  reserveStatus : ReserveRecordStatus
  initialWithdrawalGroupId : String
  initialWithdrawalStarted : Bool

structure EnvelopedPlanchet where
  withdrawalGroupId : String
  coinEvHash : String

/-- The stores that the query of a reserve reads; of coins it reads the hash of the envelope. -/
structure ReserveStores where
  reserves : Record String ReserveState
  withdrawalGroups : Record String ReserveWithdrawal
  planchets : Record String EnvelopedPlanchet
  coins : Record String String

namespace ReserveStores

def isAccounted (stores : ReserveStores) (hCoinEnvelope : String) : Bool :=
  stores.planchets.values.any (fun planchet => planchet.coinEvHash = hCoinEnvelope) ||
    stores.coins.values.any fun coinEvHash => coinEvHash = hCoinEnvelope

def groupsOf (stores : ReserveStores) (reservePub : String) : List ReserveWithdrawal :=
  stores.withdrawalGroups.values.filter fun wg => wg.reservePub = reservePub

end ReserveStores

def addAll (start : AmountJson) (amounts : List AmountJson) : AmountJson :=
  amounts.foldl (fun sum amount => (Amounts.add sum [amount]).amount) start

def ReserveTransaction.plus : ReserveTransaction → Option AmountJson
  | .credit amount => some amount
  | .recoup amount => some amount
  | _ => none

def ReserveTransaction.minus (stores : ReserveStores) : ReserveTransaction → Option AmountJson
  | .closing amount => some amount
  | .withdraw amount hCoinEnvelope =>
    if stores.isAccounted hCoinEnvelope then none else some amount
  | _ => none

def amountReservePlus (history : List ReserveTransaction) : AmountJson :=
  addAll Amounts.getZero (history.filterMap ReserveTransaction.plus)

/-- The groups of the wallet come first, then what the history adds to them. -/
def amountReserveMinus (stores : ReserveStores) (reservePub : String)
    (history : List ReserveTransaction) : AmountJson :=
  addAll
    (addAll Amounts.getZero
      ((stores.groupsOf reservePub).map fun wg => wg.denomsSel.totalWithdrawCost))
    (history.filterMap (ReserveTransaction.minus stores))

def remainingAmount (stores : ReserveStores) (reservePub : String)
    (history : List ReserveTransaction) : AmountJson :=
  (Amounts.sub (amountReservePlus history) (amountReserveMinus stores reservePub history)).amount

def ReserveState.withdrawalGroupId (reserve : ReserveState) (randomId : String) : String :=
  if reserve.initialWithdrawalStarted then randomId else reserve.initialWithdrawalGroupId

/-- The transaction of a query: a new group takes what remains, if there are coins for it. -/
def updateReserve (surroundings : Surroundings) (currency reservePub : String)
    (denoms : List DenominationRecord) (history : List ReserveTransaction) (randomId : String)
    (stores : ReserveStores) : Option ReserveStores :=
  match stores.reserves.get? reservePub with
  | none => some stores
  | some newReserve => do
      let remaining := remainingAmount stores reservePub history
      let denomSelInfo ← selectWithdrawalDenominations surroundings currency remaining denoms
      if denomSelInfo.selectedDenoms.isEmpty then
        pure
          { stores with
            reserves := stores.reserves.set reservePub
              { newReserve with reserveStatus := .dormant } }
      else
        pure
          { stores with
            reserves := stores.reserves.set reservePub
              { newReserve with
                reserveStatus := .dormant
                initialWithdrawalStarted := true }
            withdrawalGroups := stores.withdrawalGroups.set (newReserve.withdrawalGroupId randomId)
              { reservePub := reservePub
                rawWithdrawalAmount := remaining
                denomsSel := denomSelectionInfoToState denomSelInfo } }

section Sums

theorem min_add_min (x y largest : Nat) :
    Nat.min (Nat.min x largest + y) largest = Nat.min (x + y) largest := by
  simp only [Nat.min_def]
  split_ifs <;> omega

theorem addAll_units {amounts : List AmountJson} : ∀ {start : AmountJson}, start.units < limit →
      (addAll start amounts).units =
        Nat.min (start.units + (amounts.map units).sum) (limit - 1) := by
  induction amounts with
  | nil =>
    intro start small
    have isLast : start.units ≤ limit - 1 := by omega
    rw [map_nil, sum_nil, Nat.add_zero]
    exact (Nat.min_eq_left isLast).symm
  | cons amount rest ih =>
    intro start small
    have next : (Amounts.add start [amount]).amount.units =
        Nat.min (start.units + amount.units) (limit - 1) := Amounts.add_saturates small
    have inRange : (Amounts.add start [amount]).amount.units < limit := add_one_inRange small
    have later := ih inRange
    rw [next] at later
    have unfolded : addAll start (amount :: rest) =
        addAll (Amounts.add start [amount]).amount rest := rfl
    rw [unfolded, later, map_cons, sum_cons, min_add_min, Nat.add_assoc]

def credited (history : List ReserveTransaction) : Nat :=
  ((history.filterMap ReserveTransaction.plus).map units).sum

/-- The closings of a history, and the withdrawals that the wallet knows nothing of. -/
def claimedByOthers (stores : ReserveStores) (history : List ReserveTransaction) : Nat :=
  ((history.filterMap (ReserveTransaction.minus stores)).map units).sum

def ReserveStores.groupCosts (stores : ReserveStores) (reservePub : String) : Nat :=
  ((stores.groupsOf reservePub).map fun wg => wg.denomsSel.totalWithdrawCost.units).sum

variable {stores : ReserveStores} {reservePub : String} {history : List ReserveTransaction}

theorem amountReservePlus_units :
    (amountReservePlus history).units = Nat.min (credited history) (limit - 1) := by
  rw [amountReservePlus, addAll_units getZero_inRange, Amounts.getZero_units, Nat.zero_add]
  rfl

theorem amountReserveMinus_units : (amountReserveMinus stores reservePub history).units =
      Nat.min (stores.groupCosts reservePub + claimedByOthers stores history) (limit - 1) := by
  have groups : (addAll Amounts.getZero
      ((stores.groupsOf reservePub).map fun wg => wg.denomsSel.totalWithdrawCost)).units =
        Nat.min (stores.groupCosts reservePub) (limit - 1) := by
    rw [addAll_units getZero_inRange, Amounts.getZero_units, Nat.zero_add, List.map_map]
    rfl
  have small : (addAll Amounts.getZero
      ((stores.groupsOf reservePub).map fun wg => wg.denomsSel.totalWithdrawCost)).units < limit := by
    rw [groups]
    have pos : 0 < limit := Nat.mul_pos (Nat.succ_pos _) base_pos
    exact Nat.lt_of_le_of_lt (Nat.min_le_right _ _) (by omega)
  rw [amountReserveMinus, addAll_units small, groups, min_add_min]
  rfl

/-- What can be taken from the remaining amount is not claimed yet, in exact amounts. -/
theorem remainingAmount_covers {cost : Nat} (pos : 0 < cost)
    (covered : cost ≤ (remainingAmount stores reservePub history).units) :
    stores.groupCosts reservePub + claimedByOthers stores history + cost ≤ credited history := by
  rw [remainingAmount, Amounts.sub_units, amountReservePlus_units, amountReserveMinus_units] at covered
  simp only [Nat.min_def] at covered
  split at covered <;> split at covered <;> omega

theorem remainingAmount_inRange : (remainingAmount stores reservePub history).units < limit := by
  rw [remainingAmount, Amounts.sub_units, amountReservePlus_units]
  have pos : 0 < limit := Nat.mul_pos (Nat.succ_pos _) base_pos
  have bound := Nat.min_le_right (credited history) (limit - 1)
  exact Nat.lt_of_le_of_lt (Nat.sub_le _ _)
    (Nat.lt_of_le_of_lt bound (Nat.sub_lt pos Nat.one_pos))

end Sums

section Selection

variable {surroundings env : Surroundings}

def DenominationRecord.cost (d : DenominationRecord) : Nat :=
  (Amounts.add d.value [d.feeWithdraw]).amount.units

theorem countWithin_positive {cost : AmountJson} {fuel : Nat} :
    ∀ {left : AmountJson} {res : Nat × AmountJson},
      countWithin cost fuel left = some res → 0 < cost.units := by
  induction fuel with
  | zero => exact nofun
  | succ fuel ih =>
    intro left res cnt
    unfold countWithin at cnt
    split at cnt
    next less =>
      have smaller := Amounts.cmp_lt_iff.mp less
      omega
    next enough =>
      obtain ⟨inner, counts, -⟩ := bind_eq_some_iff.mp cnt
      exact ih counts

theorem selectDenoms_cost {denoms : List DenominationRecord} :
    ∀ {left : AmountJson} {selection final : DenominationSelectionInfo},
      selection.totalWithdrawCost.units + left.units < limit →
      selectDenoms denoms left selection = some final →
      final.totalWithdrawCost.units ≤ selection.totalWithdrawCost.units + left.units ∧
      selection.totalWithdrawCost.units ≤ final.totalWithdrawCost.units ∧
      ∀ d ∈ final.selectedDenoms, d ∈ selection.selectedDenoms ∨
        (d.2 ∈ denoms ∧ 0 < d.2.cost ∧ d.2.cost ≤ left.units ∧
          d.2.cost ≤ final.totalWithdrawCost.units) := by
  induction denoms with
  | nil =>
    intro left selection final _ ran
    cases ran
    exact ⟨Nat.le_add_right _ _, le_rfl, fun _ mem => .inl mem⟩
  | cons d rest ih =>
    intro left selection final fits ran
    obtain ⟨⟨count, remaining'⟩, cnt, continued⟩ := bind_eq_some_iff.mp ran
    have exact := countWithin_exact cnt
    have positive := countWithin_positive cnt
    have isCost : (Amounts.add d.value [d.feeWithdraw]).amount.units = d.cost := rfl
    rw [isCost] at exact positive
    have product : (Amounts.mult (Amounts.add d.value [d.feeWithdraw]).amount count).amount.units =
        d.cost * count := Amounts.mult_units (by rw [isCost]; omega)
    have total : (selection.take d (Amounts.add d.value [d.feeWithdraw]).amount
        count).totalWithdrawCost.units = selection.totalWithdrawCost.units + d.cost * count := by
      unfold DenominationSelectionInfo.take
      split
      next => rw [Amounts.add_one_units (by rw [product]; omega), product]
      next none =>
        have zero : count = 0 := by omega
        rw [zero, Nat.mul_zero, Nat.add_zero]
    have taken : ∀ x ∈ (selection.take d (Amounts.add d.value [d.feeWithdraw]).amount
        count).selectedDenoms, x ∈ selection.selectedDenoms ∨ (x.2 = d ∧ 0 < count) := by
      intro x mem
      unfold DenominationSelectionInfo.take at mem
      split at mem
      next some =>
        rcases mem_append.mp mem with old | new
        · exact .inl old
        · exact .inr ⟨congrArg Prod.snd (mem_singleton.mp new), some⟩
      next => exact .inl mem
    have once : 0 < count → d.cost ≤ d.cost * count := Nat.le_mul_of_pos_right _
    dsimp only at continued
    split at continued
    next =>
      cases continued
      refine ⟨by omega, by omega, ?_⟩
      intro x mem
      rcases taken x mem with old | ⟨rfl, some⟩
      · exact .inl old
      · have least := once some
        exact .inr ⟨mem_cons_self, positive, by omega, by omega⟩
    next =>
      obtain ⟨bound, grows, members⟩ := ih (by omega) continued
      refine ⟨by omega, by omega, ?_⟩
      intro x mem
      rcases members x mem with now | ⟨later, more, within, least⟩
      · rcases taken x now with old | ⟨rfl, some⟩
        · exact .inl old
        · have least := once some
          exact .inr ⟨mem_cons_self, positive, by omega, by omega⟩
      · exact .inr ⟨mem_cons_of_mem _ later, more, by omega, least⟩

theorem selectWithdrawalDenominations_cost {cur : String} {amountAvailable : AmountJson}
    {denoms : List DenominationRecord} {selection : DenominationSelectionInfo}
    (fits : amountAvailable.units < limit)
    (ran : selectWithdrawalDenominations env cur amountAvailable denoms = some selection) :
    selection.totalWithdrawCost.units ≤ amountAvailable.units ∧
      ∀ d ∈ selection.selectedDenoms, d.2 ∈ denoms ∧ isWithdrawableDenom env d.2 ∧
        0 < d.2.cost ∧ d.2.cost ≤ amountAvailable.units ∧
        d.2.cost ≤ selection.totalWithdrawCost.units := by
  have able := selected_withdrawable ran
  unfold selectWithdrawalDenominations at ran
  dsimp only at ran
  split at ran
  next =>
    have start : (DenominationSelectionInfo.mk [] Amounts.getZero
        Amounts.getZero).totalWithdrawCost.units + amountAvailable.units < limit := by
      rw [Amounts.getZero_units, Nat.zero_add]
      exact fits
    obtain ⟨bound, -, members⟩ := selectDenoms_cost start ran
    rw [Amounts.getZero_units, Nat.zero_add] at bound
    refine ⟨bound, ?_⟩
    intro d mem
    obtain ⟨given, isWithdrawable⟩ := able d mem
    rcases members d mem with none | ⟨-, pos, within, least⟩
    · cases none
    · exact ⟨given, isWithdrawable, pos, within, least⟩
  next => cases ran

end Selection

/-- The wallet and the exchange; every query has fetched a report and the denominations. -/
structure ReserveSystem where
  stores : ReserveStores
  history : List ReserveTransaction
  queries : List (List ReserveTransaction × List DenominationRecord)
  -- the report that the last group was created with
  basis : List ReserveTransaction

inductive ReserveEvent where
  | report (entry : ReserveTransaction)
  | requery
  | fetch (denoms : List DenominationRecord)
  | update (surroundings : Surroundings) (currency : String) (index : Nat) (randomId : String)
  | planchet (coinPub : String) (planchet : EnvelopedPlanchet)
  | coin (coinPub : String)

def ReserveStores.setStatus (stores : ReserveStores) (reservePub : String)
    (reserve : ReserveState) (status : ReserveRecordStatus) : ReserveStores :=
  { stores with
    reserves := stores.reserves.set reservePub { reserve with reserveStatus := status } }

def ReserveStep (reservePub : String) (state : ReserveSystem) (event : ReserveEvent)
    (next : ReserveSystem) : Prop :=
  match event with
  | .report entry => next = { state with history := state.history ++ [entry] }
  | .requery => ∃ reserve, state.stores.reserves.get? reservePub = some reserve ∧
      next = { state with stores := state.stores.setStatus reservePub reserve .queryingStatus }
  | .fetch denoms => ∃ reserve, state.stores.reserves.get? reservePub = some reserve ∧
      reserve.reserveStatus = .queryingStatus ∧
      next = { state with queries := state.queries ++ [(state.history, denoms)] }
  | .update surroundings currency index randomId => ∃ report denoms,
      state.queries[index]? = some (report, denoms) ∧
      updateReserve surroundings currency reservePub denoms report randomId state.stores =
        some next.stores ∧
      state.stores.withdrawalGroups.get? randomId = none ∧
      (∀ reserve, state.stores.reserves.get? reservePub = some reserve →
        randomId ≠ reserve.initialWithdrawalGroupId) ∧
      next.history = state.history ∧ next.queries = state.queries.eraseIdx index ∧
      (next.stores.withdrawalGroups = state.stores.withdrawalGroups ∧ next.basis = state.basis ∨
        next.stores.withdrawalGroups ≠ state.stores.withdrawalGroups ∧ next.basis = report)
  | .planchet coinPub planchet =>
    state.stores.planchets.get? coinPub = none ∧
    state.stores.isAccounted planchet.coinEvHash = false ∧
    (∃ wg, state.stores.withdrawalGroups.get? planchet.withdrawalGroupId = some wg ∧
      wg.reservePub = reservePub) ∧
    next = { state with stores := { state.stores with
      planchets := state.stores.planchets.set coinPub planchet } }
  | .coin coinPub => ∃ planchet, state.stores.planchets.get? coinPub = some planchet ∧
      state.stores.coins.get? coinPub = none ∧
      next = { state with stores := { state.stores with
        coins := state.stores.coins.set coinPub planchet.coinEvHash } }

structure FreshReserve (reservePub : String) (state : ReserveSystem) : Prop where
  noGroup : state.stores.groupsOf reservePub = []
  initialFree : ∀ reserve, state.stores.reserves.get? reservePub = some reserve →
    state.stores.withdrawalGroups.get? reserve.initialWithdrawalGroupId = none
  noQuery : state.queries = []
  basis : state.basis = []
  envelopes : ∀ first second p q, state.stores.planchets.get? first = some p →
    state.stores.planchets.get? second = some q → p.coinEvHash = q.coinEvHash → first = second

structure ReserveKept (reservePub : String) (state : ReserveSystem) : Prop where
  bounded : state.stores.groupCosts reservePub + claimedByOthers state.stores state.basis ≤
    credited state.basis
  basisReported : state.basis <+: state.history
  queriesReported : ∀ query ∈ state.queries, query.1 <+: state.history
  initialFree : ∀ reserve, state.stores.reserves.get? reservePub = some reserve →
    reserve.initialWithdrawalStarted = false →
    state.stores.withdrawalGroups.get? reserve.initialWithdrawalGroupId = none
  envelopes : ∀ first second p q, state.stores.planchets.get? first = some p →
    state.stores.planchets.get? second = some q → p.coinEvHash = q.coinEvHash → first = second

section Steps

variable {reservePub : String} {state st next : ReserveSystem} {stores stores' : ReserveStores}

structure GroupCreated (surroundings : Surroundings) (reservePub : String)
    (denoms : List DenominationRecord) (report : List ReserveTransaction) (randomId : String)
    (stores stores' : ReserveStores) (reserve : ReserveState) (wg : ReserveWithdrawal) :
    Prop where
  found : stores.reserves.get? reservePub = some reserve
  reserves : stores'.reserves = stores.reserves.set reservePub
    { reserve with reserveStatus := .dormant, initialWithdrawalStarted := true }
  groups : stores'.withdrawalGroups =
    stores.withdrawalGroups.set (reserve.withdrawalGroupId randomId) wg
  ofReserve : wg.reservePub = reservePub
  planchets : stores'.planchets = stores.planchets
  coins : stores'.coins = stores.coins
  -- the amount covers a denomination
  covers : ∃ d ∈ denoms, isWithdrawableDenom surroundings d ∧ 0 < d.cost ∧
    d.cost ≤ wg.denomsSel.totalWithdrawCost.units
  unclaimed : stores.groupCosts reservePub + claimedByOthers stores report +
    wg.denomsSel.totalWithdrawCost.units ≤ credited report

variable {denoms : List DenominationRecord} {report : List ReserveTransaction}

theorem updateReserve_cases {surroundings : Surroundings} {cur randomId : String}
    (ran : updateReserve surroundings cur reservePub denoms report randomId stores = some stores') :
    (stores'.withdrawalGroups = stores.withdrawalGroups ∧ stores'.planchets = stores.planchets ∧
      stores'.coins = stores.coins ∧
      (stores' = stores ∨ ∃ reserve, stores.reserves.get? reservePub = some reserve ∧
        stores' = stores.setStatus reservePub reserve .dormant)) ∨
    ∃ reserve wg, GroupCreated surroundings reservePub denoms report randomId stores stores'
      reserve wg := by
  unfold updateReserve at ran
  split at ran
  next =>
    cases ran
    exact .inl ⟨rfl, rfl, rfl, .inl rfl⟩
  next reserve isReserve =>
    obtain ⟨selection, sel, ran⟩ := bind_eq_some_iff.mp ran
    have costs := selectWithdrawalDenominations_cost remainingAmount_inRange sel
    split at ran
    next =>
      cases ran
      exact .inl ⟨rfl, rfl, rfl, .inr ⟨reserve, isReserve, rfl⟩⟩
    next some =>
      cases ran
      right
      obtain ⟨d, mem⟩ := exists_mem_of_ne_nil selection.selectedDenoms
        (fun none => some (List.isEmpty_iff.mpr none))
      obtain ⟨given, withdrawable, pos, -, least⟩ := costs.2 d mem
      refine ⟨reserve, _, isReserve, rfl, rfl, rfl, rfl, rfl, ?_, ?_⟩
      · exact ⟨d.2, given, withdrawable, pos, least⟩
      · exact remainingAmount_covers (Nat.lt_of_lt_of_le pos least) costs.1

theorem isAccounted_mono {hCoinEnvelope : String}
    (planchets : ∀ pub p, stores.planchets.get? pub = some p → stores'.planchets.get? pub = some p)
    (coins : ∀ pub hash, stores.coins.get? pub = some hash →
      ∃ other, stores'.coins.get? other = some hash ∨
        ∃ p, stores'.planchets.get? other = some p ∧ p.coinEvHash = hash)
    (accounted : stores.isAccounted hCoinEnvelope) : stores'.isAccounted hCoinEnvelope := by
  unfold ReserveStores.isAccounted at accounted ⊢
  rw [Bool.or_eq_true, List.any_eq_true, List.any_eq_true] at accounted ⊢
  rcases accounted with ⟨p, mem, eq⟩ | ⟨hash, mem, eq⟩
  · obtain ⟨pub, got⟩ := Record.mem_values_iff.mp mem
    exact .inl ⟨p, Record.mem_values_iff.mpr ⟨pub, planchets pub p got⟩, eq⟩
  obtain ⟨pub, got⟩ := Record.mem_values_iff.mp mem
  obtain ⟨other, isCoin | ⟨p, isPlan, isHash⟩⟩ := coins pub hash got
  · exact .inr ⟨hash, Record.mem_values_iff.mpr ⟨other, isCoin⟩, eq⟩
  refine .inl ⟨p, Record.mem_values_iff.mpr ⟨other, isPlan⟩, ?_⟩
  rw [isHash]
  exact eq

def ReserveTransaction.claimed (stores : ReserveStores) (entry : ReserveTransaction) : Nat :=
  ((entry.minus stores).map units).getD 0

theorem claimedByOthers_eq (history : List ReserveTransaction) :
    claimedByOthers stores history = (history.map (ReserveTransaction.claimed stores)).sum := by
  induction history with
  | nil => rfl
  | cons entry rest ih =>
    unfold claimedByOthers at ih ⊢
    rw [filterMap_cons, map_cons, sum_cons, ← ih, ReserveTransaction.claimed]
    cases entry.minus stores with
    | none => exact (Nat.zero_add _).symm
    | some amount => rfl

theorem claimedByOthers_anti {history : List ReserveTransaction}
    (grows : ∀ hCoinEnvelope, stores.isAccounted hCoinEnvelope →
      stores'.isAccounted hCoinEnvelope) :
    claimedByOthers stores' history ≤ claimedByOthers stores history := by
  rw [claimedByOthers_eq, claimedByOthers_eq]
  apply sum_le_sum
  intro entry _
  cases entry with
  | credit amount => exact le_rfl
  | recoup amount => exact le_rfl
  | closing amount => exact le_rfl
  | withdraw amount hCoinEnvelope =>
    unfold ReserveTransaction.claimed ReserveTransaction.minus
    dsimp only
    by_cases has : stores.isAccounted hCoinEnvelope
    · rw [if_pos has, if_pos (grows hCoinEnvelope has)]
    rw [if_neg has]
    split
    next => exact Nat.zero_le _
    next => exact le_rfl

theorem claimedByOthers_congr {history : List ReserveTransaction}
    (planchets : stores'.planchets = stores.planchets) (coins : stores'.coins = stores.coins) :
    claimedByOthers stores' history = claimedByOthers stores history := by
  have eq : ∀ hCoinEnvelope,
      stores'.isAccounted hCoinEnvelope = stores.isAccounted hCoinEnvelope := by
    intro hCoinEnvelope
    rw [ReserveStores.isAccounted, ReserveStores.isAccounted, planchets, coins]
  apply Nat.le_antisymm
  · apply claimedByOthers_anti
    intro hCoinEnvelope has
    rw [eq]
    exact has
  apply claimedByOthers_anti
  intro hCoinEnvelope has
  rw [← eq]
  exact has

theorem groupCosts_total : stores.groupCosts reservePub = stores.withdrawalGroups.total
    (fun wg => if wg.reservePub = reservePub then wg.denomsSel.totalWithdrawCost.units else 0) := by
  unfold ReserveStores.groupCosts ReserveStores.groupsOf Record.total
  induction stores.withdrawalGroups.values with
  | nil => rfl
  | cons wg rest ih =>
    rw [filter_cons, map_cons, sum_cons]
    by_cases eq : wg.reservePub = reservePub
    · rw [if_pos (decide_eq_true eq), if_pos eq, map_cons, sum_cons, ih]
    · rw [if_neg (by rw [decide_eq_true_iff]; exact eq), if_neg eq, ih, Nat.zero_add]

variable {wg : ReserveWithdrawal}

theorem groupCosts_set {id : String} (isNew : stores.withdrawalGroups.get? id = none)
    (groups : stores'.withdrawalGroups = stores.withdrawalGroups.set id wg)
    (ofReserve : wg.reservePub = reservePub) : stores'.groupCosts reservePub =
      stores.groupCosts reservePub + wg.denomsSel.totalWithdrawCost.units := by
  have total := stores.withdrawalGroups.total_set (fun wg =>
    if wg.reservePub = reservePub then wg.denomsSel.totalWithdrawCost.units else 0) id wg
  rw [Record.weightAt_none isNew, Nat.add_zero, if_pos ofReserve] at total
  rw [groupCosts_total, groups, groupCosts_total, total]

theorem GroupCreated.isNew {surroundings : Surroundings} {randomId : String}
    {reserve : ReserveState}
    (created : GroupCreated surroundings reservePub denoms report randomId stores stores' reserve
      wg) (random : stores.withdrawalGroups.get? randomId = none)
    (initialFree : ∀ reserve, stores.reserves.get? reservePub = some reserve →
      reserve.initialWithdrawalStarted = false → stores.withdrawalGroups.get?
      reserve.initialWithdrawalGroupId = none) :
    stores.withdrawalGroups.get? (reserve.withdrawalGroupId randomId) = none := by
  unfold ReserveState.withdrawalGroupId
  split
  next => exact random
  next notStarted =>
    exact initialFree reserve created.found (Bool.eq_false_iff.mpr notStarted)

theorem FreshReserve.kept (fresh : FreshReserve reservePub state) :
    ReserveKept reservePub state := by
  constructor
  · rw [fresh.basis, ReserveStores.groupCosts, fresh.noGroup]
    exact Nat.le_refl 0
  · rw [fresh.basis]
    exact nil_prefix
  · rw [fresh.noQuery]
    exact nofun
  · intro reserve isReserve _
    exact fresh.initialFree reserve isReserve
  · exact fresh.envelopes

variable {coinPub pub : String}

theorem isAccounted_planchet {p : EnvelopedPlanchet} {hCoinEnvelope : String}
    (absent : stores.planchets.get? pub = none) (accounted : stores.isAccounted hCoinEnvelope) :
    ReserveStores.isAccounted { stores with planchets := stores.planchets.set pub p }
      hCoinEnvelope := by
  apply isAccounted_mono _ _ accounted
  · intro other q got
    have ne : other ≠ pub := by
      rintro rfl
      cases absent.symm.trans got
    exact (stores.planchets.get?_set_of_ne p ne).trans got
  · intro other hash got
    exact ⟨other, .inl got⟩

theorem isAccounted_coin {hash hCoinEnvelope : String} (absent : stores.coins.get? pub = none)
    (accounted : stores.isAccounted hCoinEnvelope) :
    ReserveStores.isAccounted { stores with coins := stores.coins.set pub hash }
      hCoinEnvelope := by
  apply isAccounted_mono _ _ accounted
  · intro other q got
    exact got
  intro other old got
  have ne : other ≠ pub := by
    rintro rfl
    cases absent.symm.trans got
  exact ⟨other, .inl ((stores.coins.get?_set_of_ne hash ne).trans got)⟩

theorem accounted_of_planchet {p : EnvelopedPlanchet}
    (got : stores.planchets.get? pub = some p) : stores.isAccounted p.coinEvHash := by
  unfold ReserveStores.isAccounted
  rw [Bool.or_eq_true, List.any_eq_true]
  exact .inl ⟨p, Record.mem_values_iff.mpr ⟨pub, got⟩, decide_eq_true rfl⟩

theorem ReserveKept.unchanged (kept : ReserveKept reservePub st)
    (groups : next.stores.withdrawalGroups = st.stores.withdrawalGroups)
    (planchets : next.stores.planchets = st.stores.planchets)
    (coins : next.stores.coins = st.stores.coins)
    (reserves : ∀ reserve, next.stores.reserves.get? reservePub = some reserve →
      ∃ old, st.stores.reserves.get? reservePub = some old ∧
        old.initialWithdrawalGroupId = reserve.initialWithdrawalGroupId ∧
        old.initialWithdrawalStarted = reserve.initialWithdrawalStarted)
    (history : st.history <+: next.history) (basis : next.basis = st.basis)
    (queries : ∀ query ∈ next.queries, query ∈ st.queries ∨ query.1 = st.history) :
    ReserveKept reservePub next := by
  constructor
  · have costs : next.stores.groupCosts reservePub = st.stores.groupCosts reservePub := by
      rw [groupCosts_total, groups, ← groupCosts_total]
    rw [basis, claimedByOthers_congr planchets coins, costs]
    exact kept.bounded
  · rw [basis]
    exact kept.basisReported.trans history
  · intro query mem
    rcases queries query mem with old | now
    · exact (kept.queriesReported query old).trans history
    · rw [now]
      exact history
  · intro reserve isReserve notStarted
    obtain ⟨old, isOld, sameId, sameStarted⟩ := reserves reserve isReserve
    rw [groups, ← sameId]
    exact kept.initialFree old isOld (sameStarted.trans notStarted)
  · rw [planchets]
    exact kept.envelopes

theorem setStatus_reserves {reserve got : ReserveState} {st : ReserveRecordStatus}
    (isReserve : stores.reserves.get? pub = some reserve)
    (isFound : (stores.setStatus pub reserve st).reserves.get? pub = some got) :
    ∃ old, stores.reserves.get? pub = some old ∧
      old.initialWithdrawalGroupId = got.initialWithdrawalGroupId ∧
      old.initialWithdrawalStarted = got.initialWithdrawalStarted := by
  have updated : (stores.setStatus pub reserve st).reserves.get? pub =
    some { reserve with reserveStatus := st } := Record.get?_set_self _ _ _
  cases updated.symm.trans isFound
  exact ⟨reserve, isReserve, rfl, rfl⟩

theorem ReserveKept.created (kept : ReserveKept reservePub st) {env : Surroundings}
    {randomId : String} {reserve : ReserveState}
    (isGroup : GroupCreated env reservePub denoms report randomId st.stores next.stores reserve wg)
    (isNew : st.stores.withdrawalGroups.get? (reserve.withdrawalGroupId randomId) = none)
    (told : report <+: st.history) (history : next.history = st.history)
    (basis : next.basis = report) (queries : ∀ query ∈ next.queries, query ∈ st.queries) :
    ReserveKept reservePub next := by
  constructor
  · rw [basis, claimedByOthers_congr isGroup.planchets isGroup.coins,
      groupCosts_set isNew isGroup.groups isGroup.ofReserve]
    have unclaimed := isGroup.unclaimed
    omega
  · rw [basis, history]
    exact told
  · intro query mem
    rw [history]
    exact kept.queriesReported query (queries query mem)
  · intro got isFound notStarted
    rw [isGroup.reserves, Record.get?_set_self] at isFound
    cases isFound
    cases notStarted
  · rw [isGroup.planchets]
    exact kept.envelopes

theorem ReserveKept.known (kept : ReserveKept reservePub state)
    (groups : stores'.withdrawalGroups = state.stores.withdrawalGroups)
    (reserves : stores'.reserves = state.stores.reserves)
    (grows : ∀ hCoinEnvelope, state.stores.isAccounted hCoinEnvelope →
      stores'.isAccounted hCoinEnvelope) (envelopes : ∀ x y p q, stores'.planchets.get? x = some p →
      stores'.planchets.get? y = some q → p.coinEvHash = q.coinEvHash → x = y) :
    ReserveKept reservePub { state with stores := stores' } := by
  constructor
  · have less : claimedByOthers stores' state.basis ≤ claimedByOthers state.stores state.basis :=
      claimedByOthers_anti grows
    have costs : stores'.groupCosts reservePub = state.stores.groupCosts reservePub := by
      rw [groupCosts_total, groups, ← groupCosts_total]
    rw [costs]
    exact (Nat.add_le_add_left less _).trans kept.bounded
  · exact kept.basisReported
  · exact kept.queriesReported
  · dsimp only
    rw [groups, reserves]
    exact kept.initialFree
  · exact envelopes

theorem ReserveKept.envelopes_set (kept : ReserveKept reservePub st) {p : EnvelopedPlanchet}
    (isNew : st.stores.isAccounted p.coinEvHash = false) :
    ∀ x second q r, (st.stores.planchets.set pub p).get? x = some q →
      (st.stores.planchets.set pub p).get? second = some r →
      q.coinEvHash = r.coinEvHash → x = second := by
  have differs : ∀ other q, st.stores.planchets.get? other = some q →
      q.coinEvHash ≠ p.coinEvHash := by
    intro other q got eq
    have has := accounted_of_planchet got
    rw [eq, isNew] at has
    cases has
  intro x second q r isFirst isSecond eq
  rw [Record.get?_set] at isFirst isSecond
  split at isFirst
  next onFirst =>
    cases isFirst
    split at isSecond
    next onSecond => exact onFirst.trans onSecond.symm
    next => exact absurd eq.symm (differs second r isSecond)
  next =>
    split at isSecond
    next =>
      cases isSecond
      exact absurd eq (differs x q isFirst)
    next => exact kept.envelopes x second q r isFirst isSecond eq

theorem ReserveStep.kept {ev : ReserveEvent} (step : ReserveStep reservePub st ev next)
    (kept : ReserveKept reservePub st) : ReserveKept reservePub next := by
  cases ev with
  | report entry =>
    cases step
    refine kept.unchanged rfl rfl rfl ?_ (prefix_append _ _) rfl ?_
    · intro reserve isReserve
      exact ⟨reserve, isReserve, rfl, rfl⟩
    · intro query mem
      exact .inl mem
  | requery =>
    obtain ⟨reserve, isReserve, rfl⟩ := step
    refine kept.unchanged rfl rfl rfl ?_ (prefix_refl _) rfl ?_
    · intro got isFound
      exact setStatus_reserves isReserve isFound
    · intro query mem
      exact .inl mem
  | fetch denoms =>
    obtain ⟨reserve, isReserve, querying, rfl⟩ := step
    refine kept.unchanged rfl rfl rfl ?_ (prefix_refl _) rfl ?_
    · intro got isFound
      exact ⟨got, isFound, rfl, rfl⟩
    intro query mem
    rcases mem_append.mp mem with old | new
    · exact .inl old
    · cases mem_singleton.mp new
      exact .inr rfl
  | update env cur idx randomId =>
    obtain ⟨report, denoms, isQuery, ran, random, -, history, queries, basis⟩ := step
    have fewer : ∀ query ∈ next.queries, query ∈ st.queries := by
      rw [queries]
      exact fun _ => mem_of_mem_eraseIdx
    have told := kept.queriesReported _ (mem_of_getElem? isQuery)
    rcases updateReserve_cases ran with
      ⟨groups, planchets, coins, status⟩ | ⟨reserve, wg, isGroup⟩
    · have sameBasis : next.basis = st.basis := by
        rcases basis with ⟨-, eq⟩ | ⟨changed, -⟩
        · exact eq
        · exact absurd groups changed
      refine kept.unchanged groups planchets coins ?_ ?_ sameBasis ?_
      · intro got isFound
        rcases status with eq | ⟨reserve, isReserve, eq⟩
        · rw [eq] at isFound
          exact ⟨got, isFound, rfl, rfl⟩
        · rw [eq] at isFound
          exact setStatus_reserves isReserve isFound
      · exact history ▸ prefix_refl _
      · exact fun query mem => .inl (fewer query mem)
    · have isNew := isGroup.isNew random kept.initialFree
      have changed : next.basis = report := by
        rcases basis with ⟨eq, -⟩ | ⟨-, isReport⟩
        · rw [isGroup.groups] at eq
          have has := Record.get?_set_self st.stores.withdrawalGroups
            (reserve.withdrawalGroupId randomId) wg
          rw [eq, isNew] at has
          cases has
        · exact isReport
      exact kept.created isGroup isNew told history changed fewer
  | planchet pub p =>
    obtain ⟨absent, isNew, -, rfl⟩ := step
    exact kept.known rfl rfl (fun _ known => isAccounted_planchet absent known)
      (kept.envelopes_set isNew)
  | coin pub =>
    obtain ⟨p, -, absent, rfl⟩ := step
    exact kept.known rfl rfl (fun _ known => isAccounted_coin absent known) kept.envelopes

theorem ReserveStep.creates {ev : ReserveEvent}
    (step : ReserveStep reservePub st ev next) (kept : ReserveKept reservePub st) :
    next.stores.withdrawalGroups = st.stores.withdrawalGroups ∨
    ∃ env denoms report randomId reserve wg,
      GroupCreated env reservePub denoms report randomId st.stores next.stores reserve wg ∧
      next.basis = report ∧
      st.stores.withdrawalGroups.get? (reserve.withdrawalGroupId randomId) = none := by
  cases ev with
  | report entry =>
    cases step
    exact .inl rfl
  | requery =>
    obtain ⟨reserve, isReserve, rfl⟩ := step
    exact .inl rfl
  | fetch denoms =>
    obtain ⟨reserve, isReserve, querying, rfl⟩ := step
    exact .inl rfl
  | update env cur idx randomId =>
    obtain ⟨report, denoms, isQuery, ran, random, -, -, -, basis⟩ := step
    rcases updateReserve_cases ran with ⟨groups, -⟩ | ⟨reserve, wg, isGroup⟩
    · exact .inl groups
    have isNew := isGroup.isNew random kept.initialFree
    rcases basis with ⟨eq, -⟩ | ⟨-, isReport⟩
    · exact .inl eq
    · exact .inr ⟨env, denoms, report, randomId, reserve, wg, isGroup, isReport, isNew⟩
  | planchet pub p =>
    obtain ⟨absent, isNew, -, rfl⟩ := step
    exact .inl rfl
  | coin pub =>
    obtain ⟨p, -, absent, rfl⟩ := step
    exact .inl rfl

theorem reserve_run_kept {start : ReserveSystem} {events : List ReserveEvent}
    (fresh : FreshReserve reservePub start)
    (run : Run (ReserveStep reservePub) start events state) : ReserveKept reservePub state :=
  run.invariant (ReserveKept reservePub) fresh.kept fun _ _ _ kept step => step.kept kept

theorem ReserveStep.groups_kept {ev : ReserveEvent} {id : String}
    (step : ReserveStep reservePub st ev next) (kept : ReserveKept reservePub st)
    (got : st.stores.withdrawalGroups.get? id = some wg) :
    next.stores.withdrawalGroups.get? id = some wg := by
  cases ev with
  | report entry =>
    cases step
    exact got
  | requery =>
    obtain ⟨reserve, isReserve, rfl⟩ := step
    exact got
  | fetch denoms =>
    obtain ⟨reserve, isReserve, querying, rfl⟩ := step
    exact got
  | update env cur idx randomId =>
    obtain ⟨report, denoms, isQuery, ran, random, -⟩ := step
    rcases updateReserve_cases ran with ⟨groups, -⟩ | ⟨reserve, other, isGroup⟩
    · rw [groups]
      exact got
    have isNew := isGroup.isNew random kept.initialFree
    have ne : id ≠ reserve.withdrawalGroupId randomId := by
      rintro rfl
      cases isNew.symm.trans got
    rw [isGroup.groups, Record.get?_set_of_ne _ _ ne]
    exact got
  | planchet pub p =>
    obtain ⟨absent, isNew, -, rfl⟩ := step
    exact got
  | coin pub =>
    obtain ⟨p, -, absent, rfl⟩ := step
    exact got

theorem groups_run_kept {start : ReserveSystem} {events : List ReserveEvent} {id : String}
    (kept : ReserveKept pub start) (got : start.stores.withdrawalGroups.get? id = some wg)
    (run : Run (ReserveStep pub) start events st) :
    st.stores.withdrawalGroups.get? id = some wg := by
  have both := run.invariant (fun st => ReserveKept pub st ∧
      st.stores.withdrawalGroups.get? id = some wg) ⟨kept, got⟩
    (fun _ _ _ holds step => ⟨step.kept holds.1, step.groups_kept holds.1 holds.2⟩)
  exact both.2

end Steps

section Visibility

def ReserveStores.owns (stores : ReserveStores) (id hCoinEnvelope : String) : Bool :=
  stores.planchets.values.any fun planchet =>
    planchet.withdrawalGroupId = id && planchet.coinEvHash = hCoinEnvelope

def ReserveTransaction.withdrawn : ReserveTransaction → Nat
  | .withdraw amount _ => amount.units
  | _ => 0

def ReserveTransaction.closed : ReserveTransaction → Nat
  | .closing amount => amount.units
  | _ => 0

def ReserveTransaction.shows (stores : ReserveStores) (id : String) : ReserveTransaction → Nat
  | .withdraw amount hCoinEnvelope => if stores.owns id hCoinEnvelope then amount.units else 0
  | _ => 0

def visible (stores : ReserveStores) (id : String) (history : List ReserveTransaction) : Nat :=
  (history.map (ReserveTransaction.shows stores id)).sum

def withdrawnAndClosed (history : List ReserveTransaction) : Nat :=
  (history.map fun entry => entry.withdrawn + entry.closed).sum

def ReserveStores.ownGroups (stores : ReserveStores) (reservePub : String) :
    List (String × ReserveWithdrawal) :=
  stores.withdrawalGroups.entries.filter fun entry => entry.2.reservePub = reservePub

/-- What the groups of the wallet cost beyond what a history shows of them. -/
def notVisible (stores : ReserveStores) (reservePub : String)
    (history : List ReserveTransaction) : Nat :=
  ((stores.ownGroups reservePub).map fun entry =>
    entry.2.denomsSel.totalWithdrawCost.units - visible stores entry.1 history).sum

/-- An exchange reports the coins of a group, and for no more than they cost. -/
structure OwnReported (stores : ReserveStores) (reservePub : String)
    (history : List ReserveTransaction) : Prop where
  ofGroup : ∀ amount hCoinEnvelope, .withdraw amount hCoinEnvelope ∈ history →
    stores.isAccounted hCoinEnvelope →
    ∃ entry ∈ stores.ownGroups reservePub, stores.owns entry.1 hCoinEnvelope
  within : ∀ entry ∈ stores.ownGroups reservePub,
    visible stores entry.1 history ≤ entry.2.denomsSel.totalWithdrawCost.units

variable {stores : ReserveStores} {reservePub : String} {history : List ReserveTransaction}

theorem owns_iff {id hCoinEnvelope : String} : stores.owns id hCoinEnvelope ↔
    ∃ pub plan, stores.planchets.get? pub = some plan ∧
      plan.withdrawalGroupId = id ∧ plan.coinEvHash = hCoinEnvelope := by
  unfold ReserveStores.owns
  rw [List.any_eq_true]
  constructor
  · rintro ⟨plan, mem, eq⟩
    obtain ⟨pub, got⟩ := Record.mem_values_iff.mp mem
    rw [Bool.and_eq_true, decide_eq_true_iff, decide_eq_true_iff] at eq
    exact ⟨pub, plan, got, eq⟩
  rintro ⟨pub, plan, got, eq⟩
  refine ⟨plan, Record.mem_values_iff.mpr ⟨pub, got⟩, ?_⟩
  rw [Bool.and_eq_true, decide_eq_true_iff, decide_eq_true_iff]
  exact eq

theorem owns_unique {x second hCoinEnvelope : String}
    (envelopes : ∀ x second p q, stores.planchets.get? x = some p →
      stores.planchets.get? second = some q → p.coinEvHash = q.coinEvHash → x = second)
    (ofFirst : stores.owns x hCoinEnvelope) (ofSecond : stores.owns second hCoinEnvelope) :
    x = second := by
  obtain ⟨pub, p, isP, rfl, eq⟩ := owns_iff.mp ofFirst
  obtain ⟨other, q, isQ, rfl, sameQ⟩ := owns_iff.mp ofSecond
  cases envelopes pub other p q isP isQ (eq.trans sameQ.symm)
  cases isP.symm.trans isQ
  rfl

theorem sum_of_one {Value : Type} {amount : Nat} {owner : String → Bool} :
    ∀ {entries : List (String × Value)}, (entries.map Prod.fst).Nodup →
      (∀ x y, owner x → owner y → x = y) → (∃ entry ∈ entries, owner entry.1) →
      (entries.map fun entry => if owner entry.1 then amount else 0).sum = amount := by
  intro entries
  induction entries with
  | nil =>
    rintro - - ⟨_, mem, -⟩
    cases mem
  | cons entry rest ih =>
    intro apart unique some
    rw [map_cons, nodup_cons] at apart
    rw [map_cons, sum_cons]
    by_cases here : owner entry.1
    · have others : (rest.map fun entry => if owner entry.1 then amount else 0).sum = 0 := by
        rw [sum_eq_zero_iff, List.forall_mem_map]
        intro other mem
        apply if_neg
        intro again
        apply apart.1
        rw [unique entry.1 other.1 here again]
        exact List.mem_map.mpr ⟨other, mem, rfl⟩
      rw [if_pos here, others, Nat.add_zero]
    · obtain ⟨other, mem, isOwner⟩ := some
      rw [if_neg here, Nat.zero_add]
      apply ih apart.2 unique
      rcases mem_cons.mp mem with rfl | later
      · exact absurd isOwner here
      · exact ⟨other, later, isOwner⟩

theorem ownGroups_distinct : ((stores.ownGroups reservePub).map Prod.fst).Nodup :=
  stores.withdrawalGroups.distinct.sublist (List.filter_sublist.map Prod.fst)

theorem accounted_of_owns {id hCoinEnvelope : String} (own : stores.owns id hCoinEnvelope) :
    stores.isAccounted hCoinEnvelope := by
  obtain ⟨pub, p, got, -, rfl⟩ := owns_iff.mp own
  exact accounted_of_planchet got

theorem entry_counted_once {entry : ReserveTransaction}
    (envelopes : ∀ x y p q, stores.planchets.get? x = some p →
      stores.planchets.get? y = some q → p.coinEvHash = q.coinEvHash → x = y)
    (ofGroup : ∀ amount hCoinEnvelope, entry = .withdraw amount hCoinEnvelope →
      stores.isAccounted hCoinEnvelope →
      ∃ group ∈ stores.ownGroups reservePub, stores.owns group.1 hCoinEnvelope) :
    ((stores.ownGroups reservePub).map fun group => entry.shows stores group.1).sum +
      entry.claimed stores = entry.withdrawn + entry.closed := by
  have nothing : ((stores.ownGroups reservePub).map fun _ => 0).sum = 0 := by
    rw [sum_eq_zero_iff, List.forall_mem_map]
    exact fun _ _ => rfl
  cases entry with
  | credit amount => exact congrArg (· + 0) nothing
  | recoup amount => exact congrArg (· + 0) nothing
  | closing amount => exact congrArg (· + amount.units) nothing
  | withdraw amount hCoinEnvelope =>
    unfold ReserveTransaction.shows ReserveTransaction.claimed ReserveTransaction.minus
      ReserveTransaction.withdrawn ReserveTransaction.closed
    dsimp only
    by_cases known : stores.isAccounted hCoinEnvelope
    · have once := @sum_of_one ReserveWithdrawal amount.units
        (fun id => stores.owns id hCoinEnvelope) (stores.ownGroups reservePub) ownGroups_distinct
        (fun _ _ => owns_unique envelopes) (ofGroup amount hCoinEnvelope rfl known)
      rw [if_pos known, once, map_none, getD_none]
    have foreign : ∀ id, stores.owns id hCoinEnvelope = false := by
      intro id
      apply Bool.eq_false_iff.mpr
      intro own
      exact known (accounted_of_owns own)
    simp only [foreign, Bool.false_eq_true, if_false]
    rw [nothing, if_neg known, Nat.zero_add, map_some, getD_some, Nat.add_zero]

theorem visible_and_claimed (envelopes : ∀ x y p q, stores.planchets.get? x = some p →
      stores.planchets.get? y = some q → p.coinEvHash = q.coinEvHash → x = y)
    (ofGroup : ∀ amount hCoinEnvelope, .withdraw amount hCoinEnvelope ∈ history →
      stores.isAccounted hCoinEnvelope →
      ∃ group ∈ stores.ownGroups reservePub, stores.owns group.1 hCoinEnvelope) :
    ((stores.ownGroups reservePub).map fun group => visible stores group.1 history).sum +
      claimedByOthers stores history = withdrawnAndClosed history := by
  rw [claimedByOthers_eq]
  induction history with
  | nil =>
    apply Nat.add_eq_zero_iff.mpr
    refine ⟨?_, rfl⟩
    rw [sum_eq_zero_iff, List.forall_mem_map]
    exact fun _ _ => rfl
  | cons entry rest ih =>
    have later := ih fun amount hCoinEnvelope mem =>
      ofGroup amount hCoinEnvelope (mem_cons_of_mem _ mem)
    have now : ((stores.ownGroups reservePub).map fun group =>
        entry.shows stores group.1).sum + entry.claimed stores =
        entry.withdrawn + entry.closed := by
      apply entry_counted_once envelopes
      rintro amount hCoinEnvelope rfl
      exact ofGroup amount hCoinEnvelope mem_cons_self
    have both : ((stores.ownGroups reservePub).map fun group =>
        visible stores group.1 (entry :: rest)).sum =
        ((stores.ownGroups reservePub).map fun group => entry.shows stores group.1).sum +
          ((stores.ownGroups reservePub).map fun group => visible stores group.1 rest).sum := by
      rw [← sum_map_add]
      rfl
    unfold withdrawnAndClosed at later ⊢
    rw [map_cons, sum_cons, map_cons, sum_cons]
    omega

theorem groupCosts_ownGroups : stores.groupCosts reservePub =
    ((stores.ownGroups reservePub).map fun group =>
      group.2.denomsSel.totalWithdrawCost.units).sum := by
  unfold ReserveStores.groupCosts ReserveStores.groupsOf ReserveStores.ownGroups Record.values
  rw [List.filter_map, List.map_map]
  rfl

theorem notVisible_and_withdrawn (envelopes : ∀ x y p q, stores.planchets.get? x = some p →
      stores.planchets.get? y = some q → p.coinEvHash = q.coinEvHash → x = y)
    (told : OwnReported stores reservePub history) :
    notVisible stores reservePub history + withdrawnAndClosed history =
      stores.groupCosts reservePub + claimedByOthers stores history := by
  have split : notVisible stores reservePub history +
      ((stores.ownGroups reservePub).map fun group => visible stores group.1 history).sum =
        stores.groupCosts reservePub := by
    rw [notVisible, ← sum_map_add, groupCosts_ownGroups]
    apply congrArg List.sum
    apply map_congr_left
    intro group mem
    exact Nat.sub_add_cancel (told.within group mem)
  have cnt := visible_and_claimed envelopes told.ofGroup
  omega

theorem credited_append (history later : List ReserveTransaction) :
    credited (history ++ later) = credited history + credited later := by
  rw [credited, filterMap_append, map_append, sum_append]
  rfl

theorem claimedByOthers_append (history later : List ReserveTransaction) :
    claimedByOthers stores (history ++ later) =
      claimedByOthers stores history + claimedByOthers stores later := by
  rw [claimedByOthers, filterMap_append, map_append, sum_append]
  rfl

/-- What others claim after the report of the last group is all that can be missing. -/
theorem ReserveKept.notVisible_le {state : ReserveSystem} (kept : ReserveKept reservePub state)
    (later : List ReserveTransaction)
    (told : OwnReported state.stores reservePub (state.basis ++ later)) :
    notVisible state.stores reservePub (state.basis ++ later) +
        withdrawnAndClosed (state.basis ++ later) ≤
      credited (state.basis ++ later) + claimedByOthers state.stores later := by
  rw [notVisible_and_withdrawn kept.envelopes told, credited_append, claimedByOthers_append]
  have bounded := kept.bounded
  omega

end Visibility

/-- For every run and every report of the exchange, what the groups of the wallet do not yet show
in the report, with all withdrawals and closings, exceeds the credits at most by what others
claimed after the last group was created. -/
theorem reserve_accounted {reservePub : String} {start state : ReserveSystem}
    {events : List ReserveEvent} (fresh : FreshReserve reservePub start)
    (run : Run (ReserveStep reservePub) start events state) :
    (∃ since, state.history = state.basis ++ since) ∧
    (∀ later, OwnReported state.stores reservePub (state.basis ++ later) →
      notVisible state.stores reservePub (state.basis ++ later) +
          withdrawnAndClosed (state.basis ++ later) ≤
        credited (state.basis ++ later) + claimedByOthers state.stores later) ∧
    (∀ first second hCoinEnvelope, state.stores.owns first hCoinEnvelope →
      state.stores.owns second hCoinEnvelope → first = second) ∧
    (∀ event next, ReserveStep reservePub state event next →
      next.stores.withdrawalGroups = state.stores.withdrawalGroups ∨
      ∃ surroundings denoms report randomId reserve wg,
        GroupCreated surroundings reservePub denoms report randomId state.stores next.stores
          reserve wg ∧
        next.basis = report ∧
        state.stores.withdrawalGroups.get? (reserve.withdrawalGroupId randomId) = none) ∧
    (∀ later final id wg, state.stores.withdrawalGroups.get? id = some wg →
      Run (ReserveStep reservePub) state later final →
      final.stores.withdrawalGroups.get? id = some wg) := by
  have kept := reserve_run_kept fresh run
  refine ⟨?_, fun later reported => kept.notVisible_le later reported, ?_, ?_, ?_⟩
  · obtain ⟨since, same⟩ := kept.basisReported
    exact ⟨since, same.symm⟩
  · intro first second hCoinEnvelope
    exact owns_unique kept.envelopes
  · intro event next step
    exact step.creates kept
  · intro later final id wg found following
    exact groups_run_kept kept found following

section Examples

def exampleReserve : ReserveState where
  reserveStatus := .queryingStatus
  initialWithdrawalGroupId := "initial"
  initialWithdrawalStarted := false

def exampleReserveStart : ReserveSystem where
  stores := ⟨Record.empty.set "reserve" exampleReserve, .empty, .empty, .empty⟩
  history := [.credit (.ofValue 10)]
  queries := []
  basis := []

theorem exampleReserveStart_fresh : FreshReserve "reserve" exampleReserveStart := by
  constructor
  · rfl
  · exact fun _ _ => rfl
  · rfl
  · rfl
  · exact fun _ _ _ _ got => nomatch got

theorem example_group : ∃ stores, Run (ReserveStep "reserve") exampleReserveStart
      [.fetch [ten], .update exampleSurroundings "KUDOS" 0 "random"]
      ⟨stores, [.credit (.ofValue 10)], [], [.credit (.ofValue 10)]⟩ ∧
    stores.planchets = .empty ∧ stores.coins = .empty ∧
    notVisible stores "reserve" [.credit (.ofValue 10), .withdraw (.ofValue 10) "foreign"] =
      (AmountJson.ofValue 10).units := by
  have evaluated : (updateReserve exampleSurroundings "KUDOS" "reserve" [ten]
      [.credit (.ofValue 10)] "random" exampleReserveStart.stores).map (fun stores =>
        (stores.planchets.entries.length, stores.coins.entries.length,
          stores.withdrawalGroups.entries.length, notVisible stores "reserve"
            [.credit (.ofValue 10), .withdraw (.ofValue 10) "foreign"])) =
      some (0, 0, 1, (AmountJson.ofValue 10).units) := by decide +kernel
  obtain ⟨stores, ran, facts⟩ := map_eq_some_iff.mp evaluated
  obtain ⟨planchets, coins, groups, cost⟩ := by simpa only [Prod.mk.injEq] using facts
  refine ⟨stores, ?_, ?_, ?_, cost⟩
  · apply Run.next (Run.next .start ⟨exampleReserve, rfl, rfl, rfl⟩)
    refine ⟨[.credit (.ofValue 10)], [ten], rfl, ran, rfl, ?_, rfl, rfl, .inr ⟨?_, rfl⟩⟩
    · intro reserve got
      cases got
      decide
    intro eq
    rw [eq] at groups
    cases groups
  · exact Record.ext (length_eq_zero_iff.mp planchets)
  · exact Record.ext (length_eq_zero_iff.mp coins)

/-- Another owner of the reserve withdraws before the wallet does. -/
theorem reserve_overdrawn : ¬ ∀ (reservePub : String) (start state : ReserveSystem) events,
    FreshReserve reservePub start → Run (ReserveStep reservePub) start events state →
    OwnReported state.stores reservePub state.history →
    withdrawnAndClosed state.history ≤ credited state.history →
    notVisible state.stores reservePub state.history + withdrawnAndClosed state.history ≤
      credited state.history := by
  intro claim
  obtain ⟨stores, run, planchets, coins, cost⟩ := example_group
  have unknown : ∀ hCoinEnvelope, stores.isAccounted hCoinEnvelope = false := by
    intro hCoinEnvelope
    rw [ReserveStores.isAccounted, planchets, coins]
    rfl
  have own : OwnReported stores "reserve"
      [.credit (.ofValue 10), .withdraw (.ofValue 10) "foreign"] := by
    constructor
    · intro amount hCoinEnvelope _ known
      rw [unknown] at known
      cases known
    · intro group _
      have notOwned : stores.owns group.1 "foreign" = false := by
        rw [ReserveStores.owns, planchets]
        rfl
      have none : visible stores group.1
          [.credit (.ofValue 10), .withdraw (.ofValue 10) "foreign"] = 0 := by
        simp only [visible, map_cons, map_nil, ReserveTransaction.shows, notOwned,
          Bool.false_eq_true, if_false, sum_cons, sum_nil, Nat.add_zero]
      rw [none]
      exact Nat.zero_le _
  have reported : ReserveStep "reserve"
      ⟨stores, [.credit (.ofValue 10)], [], [.credit (.ofValue 10)]⟩
      (.report (.withdraw (.ofValue 10) "foreign"))
      ⟨stores, [.credit (.ofValue 10), .withdraw (.ofValue 10) "foreign"], [],
        [.credit (.ofValue 10)]⟩ := rfl
  have honest : withdrawnAndClosed [.credit (.ofValue 10), .withdraw (.ofValue 10) "foreign"] ≤
        credited [.credit (.ofValue 10), .withdraw (.ofValue 10) "foreign"] := by decide +kernel
  have tooMuch : ¬ (AmountJson.ofValue 10).units + withdrawnAndClosed
      [.credit (.ofValue 10), .withdraw (.ofValue 10) "foreign"] ≤
        credited [.credit (.ofValue 10), .withdraw (.ofValue 10) "foreign"] := by decide +kernel
  have bounded := claim "reserve" exampleReserveStart _ _ exampleReserveStart_fresh
    (run.next reported) own honest
  rw [cost] at bounded
  exact tooMuch bounded

/-- For the report that the group was created with, the bound holds. -/
theorem reserve_accounted_group : ∃ stores, Run (ReserveStep "reserve") exampleReserveStart
      [.fetch [ten], .update exampleSurroundings "KUDOS" 0 "random"]
      ⟨stores, [.credit (.ofValue 10)], [], [.credit (.ofValue 10)]⟩ ∧
    ∀ later, OwnReported stores "reserve" (.credit (.ofValue 10) :: later) →
      notVisible stores "reserve" (.credit (.ofValue 10) :: later) +
          withdrawnAndClosed (.credit (.ofValue 10) :: later) ≤
        credited (.credit (.ofValue 10) :: later) + claimedByOthers stores later := by
  obtain ⟨stores, run, -⟩ := example_group
  exact ⟨stores, run, (reserve_accounted exampleReserveStart_fresh run).2.1⟩

end Examples

end Anastasis.Wallet
