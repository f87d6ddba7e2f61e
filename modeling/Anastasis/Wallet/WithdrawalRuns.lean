import Anastasis.Wallet.Withdrawals

/-! What holds of a withdrawal group, whatever its runs have done. -/

set_option autoImplicit false

namespace Anastasis.Wallet

open Library Library.Transition AmountJson List Option

section Planchets

variable {withdrawalGroupId groupId wgId gid : String} {wallet w wallet' w' : WalletStores} {coinIdx : Nat}
  {coinPub cp pub : String} {p : PlanchetRecord}

theorem get?_mem_entries {Key Value : Type} [DecidableEq Key] {entries : List (Key × Value)}
    {key : Key} {v : Value} (h : Record.lookup entries key = some v) : (key, v) ∈ entries := by
  induction entries with
  | nil => cases h
  | cons e rest ih =>
    obtain ⟨x, old⟩ := e
    by_cases eq : x = key
    · rw [Record.lookup, if_pos eq] at h
      cases h
      subst eq
      exact mem_cons_self
    · rw [Record.lookup, if_neg eq] at h
      exact mem_cons_of_mem _ (ih h)

theorem planchetAt_found (h : w.planchetAt gid coinIdx = some (pub, p)) :
    w.planchets.get? pub = some p ∧ p.withdrawalGroupId = gid ∧ p.coinIdx = coinIdx := by
  have mem := mem_of_find?_eq_some h
  have matching := find?_some h
  simp only [Bool.and_eq_true, decide_eq_true_eq] at matching
  exact ⟨Record.lookup_of_mem w.planchets.distinct mem, matching⟩

theorem planchetAt_isSome (h : w.planchets.get? pub = some p)
    (ofGroup : p.withdrawalGroupId = gid) : (w.planchetAt gid p.coinIdx).isSome := by
  rw [WalletStores.planchetAt, find?_isSome]
  exact ⟨(pub, p), get?_mem_entries h, by simp [ofGroup]⟩

def plannedDenoms (selectedDenoms : List (Nat × String)) : List String :=
  selectedDenoms.flatMap fun d => List.replicate d.1 d.2

theorem plannedDenoms_length (group : WithdrawalGroupRecord) :
    (plannedDenoms group.selectedDenoms).length = group.numTotalCoins := by
  rw [plannedDenoms, WithdrawalGroupRecord.numTotalCoins]
  simp

theorem denomOfCoin_planned {selectedDenoms : List (Nat × String)} : ∀ {ci : Nat}, ci ≤ coinIdx →
      denomOfCoin coinIdx ci selectedDenoms = (plannedDenoms selectedDenoms)[coinIdx - ci]? := by
  induction selectedDenoms with
  | nil => exact fun _ => rfl
  | cons d rest ih =>
    intro ci reached
    have split : plannedDenoms (d :: rest) =
        List.replicate d.1 d.2 ++ plannedDenoms rest := flatMap_cons
    rw [denomOfCoin, split]
    by_cases within : coinIdx < ci + d.1
    · rw [if_pos ⟨reached, within⟩, getElem?_append_left (by rw [length_replicate]; omega)]
      rw [getElem?_replicate, if_pos (by omega)]
    rw [if_neg (fun both => within both.2), ih (by omega),
      getElem?_append_right (by rw [length_replicate]; omega), length_replicate]
    congr 1
    omega

end Planchets

structure FreshGroup (withdrawalGroupId : String) (coinPubOf : Nat → String)
    (group : WithdrawalGroupRecord) (wallet : WalletStores) : Prop where
  stored : wallet.withdrawalGroups.get? withdrawalGroupId = some group
  unfinished : group.timestampFinish = none
  keyPaths : wallet.KeyPaths
  different : ∀ i j, i < group.numTotalCoins → j < group.numTotalCoins →
    coinPubOf i = coinPubOf j → i = j
  noPlanchet : ∀ coinPub p, wallet.planchets.get? coinPub = some p →
    p.withdrawalGroupId ≠ withdrawalGroupId
  noKey : ∀ i, i < group.numTotalCoins → wallet.planchets.get? (coinPubOf i) = none ∧
    wallet.coins.get? (coinPubOf i) = none

structure Planned (withdrawalGroupId : String) (coinPubOf : Nat → String)
    (group : WithdrawalGroupRecord) (coinPub : String) (p : PlanchetRecord) : Prop where
  ofGroup : p.withdrawalGroupId = withdrawalGroupId
  within : p.coinIdx < group.numTotalCoins
  coinPub : coinPub = coinPubOf p.coinIdx
  denomination : (plannedDenoms group.selectedDenoms)[p.coinIdx]? = some p.denomPubHash

def coinOf (group : WithdrawalGroupRecord) (coinPub : String) (p : PlanchetRecord) :
    Option CoinRecord :=
  if p.withdrawalDone then some (withdrawnCoin group coinPub p) else none

structure WithdrawalKept (withdrawalGroupId : String) (coinPubOf : Nat → String)
    (group : WithdrawalGroupRecord) (wallet : WalletStores) : Prop where
  stored : ∃ timestampFinish, wallet.withdrawalGroups.get? withdrawalGroupId =
    some { group with timestampFinish := timestampFinish }
  keyPaths : wallet.KeyPaths
  planchets : ∀ coinPub p, wallet.planchets.get? coinPub = some p →
    p.withdrawalGroupId = withdrawalGroupId →
    Planned withdrawalGroupId coinPubOf group coinPub p
  own : ∀ i, i < group.numTotalCoins → ∀ p, wallet.planchets.get? (coinPubOf i) = some p →
    p.withdrawalGroupId = withdrawalGroupId
  coins : ∀ i, i < group.numTotalCoins → wallet.coins.get? (coinPubOf i) =
    (wallet.planchets.get? (coinPubOf i)).bind (coinOf group (coinPubOf i))
  finished : ∀ wg, wallet.withdrawalGroups.get? withdrawalGroupId = some wg →
    wg.timestampFinish.isSome → ∀ i, i < group.numTotalCoins →
    (wallet.coins.get? (coinPubOf i)).isSome

structure RunKept (withdrawalGroupId : String) (coinPubOf : Nat → String)
    (group : WithdrawalGroupRecord) (wallet : WalletStores) (run : WithdrawRun) : Prop where
  total : run.numTotalCoins = group.numTotalCoins
  tasks : ∀ task ∈ run.generating, task.coinIdx < group.numTotalCoins
  created : ∀ task ∈ run.generating, ∀ coinPub p, task.created = some (coinPub, p) →
    Planned withdrawalGroupId coinPubOf group coinPub p ∧ p.coinIdx = task.coinIdx ∧
      p.withdrawalDone = false
  complete : run.ended = false → ∀ i, i < group.numTotalCoins →
    (wallet.planchetAt withdrawalGroupId i).isSome ∨ ∃ task ∈ run.generating, task.coinIdx = i
  verified : ∀ coin, .store coin ∈ run.verifying → ∃ i p, i < group.numTotalCoins ∧
    wallet.planchets.get? (coinPubOf i) = some p ∧ coin = withdrawnCoin group (coinPubOf i) p

def PlanchetsGrow (wallet wallet' : WalletStores) : Prop :=
  ∀ coinPub p, wallet.planchets.get? coinPub = some p → ∃ p',
    wallet'.planchets.get? coinPub = some p' ∧
    p' = { p with withdrawalDone := p'.withdrawalDone } ∧
    (p.withdrawalDone → p'.withdrawalDone)

section Kept

variable {withdrawalGroupId groupId wgId gid : String} {coinPubOf : Nat → String} {group : WithdrawalGroupRecord}
  {wallet w wallet' w' wallet'' : WalletStores} {run run' : WithdrawRun}

theorem PlanchetsGrow.refl (w : WalletStores) : PlanchetsGrow w w := fun _ p h => ⟨p, h, rfl, id⟩

theorem PlanchetsGrow.planchetAt (grows : PlanchetsGrow w w') {coinIdx : Nat}
    (h : (w.planchetAt gid coinIdx).isSome) : (w'.planchetAt gid coinIdx).isSome := by
  obtain ⟨⟨pub, p⟩, isF⟩ := isSome_iff_exists.mp h
  obtain ⟨kept, ofGroup, idx⟩ := planchetAt_found isF
  obtain ⟨p', stored', eq, -⟩ := grows pub p kept
  have facts : p'.withdrawalGroupId = gid ∧ p'.coinIdx = coinIdx := by
    rw [eq]
    exact ⟨ofGroup, idx⟩
  rw [← facts.2]
  exact planchetAt_isSome stored' facts.1

theorem RunKept.grow (kept : RunKept gid coinPubOf group w run)
    (grows : PlanchetsGrow w wallet') : RunKept gid coinPubOf group wallet' run := by
  constructor
  · exact kept.total
  · exact kept.tasks
  · exact kept.created
  · intro going i within
    rcases kept.complete going i within with h | task
    · exact .inl (grows.planchetAt h)
    · exact .inr task
  intro c mem
  obtain ⟨i, p, within, h, isC⟩ := kept.verified c mem
  obtain ⟨p', got, eq, -⟩ := grows _ p h
  refine ⟨i, p', within, got, ?_⟩
  rw [isC, eq]
  rfl

theorem WithdrawalKept.start (fresh : FreshGroup withdrawalGroupId coinPubOf group wallet) :
    WithdrawalKept withdrawalGroupId coinPubOf group wallet := by
  constructor
  · exact ⟨group.timestampFinish, fresh.stored⟩
  · exact fresh.keyPaths
  · intro pub p h ofGroup
    exact absurd ofGroup (fresh.noPlanchet pub p h)
  · intro i within p h
    cases (fresh.noKey i within).1.symm.trans h
  · intro i within
    rw [(fresh.noKey i within).1, (fresh.noKey i within).2]
    rfl
  intro wg h ended
  cases fresh.stored.symm.trans h
  rw [fresh.unfinished] at ended
  cases ended

theorem RunKept.start : RunKept gid coinPubOf group w (.start group.numTotalCoins) := by
  have isTask : ∀ task ∈ (WithdrawRun.start group.numTotalCoins).generating,
      task.coinIdx < group.numTotalCoins ∧ task.created = none := by
    intro task mem
    obtain ⟨coinIdx, inRange, rfl⟩ := List.mem_map.mp mem
    exact ⟨mem_range.mp inRange, rfl⟩
  constructor
  · rfl
  · exact fun task mem => (isTask task mem).1
  · intro task mem pub p made
    rw [(isTask task mem).2] at made
    cases made
  · intro _ i within
    exact .inr ⟨⟨i, none⟩, List.mem_map.mpr ⟨i, mem_range.mpr within, rfl⟩, rfl⟩
  · intro c mem
    cases mem

theorem RunKept.endGenerate (kept : RunKept gid coinPubOf group w run)
    {idx : Nat} {task : GenerateTask} (isTask : run.generating[idx]? = some task)
    (h : (w.planchetAt gid task.coinIdx).isSome) :
    RunKept gid coinPubOf group w (run.endGenerate idx) := by
  have still : ∀ y ∈ (run.endGenerate idx).generating, y ∈ run.generating :=
    fun y mem => mem_of_mem_eraseIdx mem
  constructor
  · exact kept.total
  · exact fun y mem => kept.tasks y (still y mem)
  · exact fun y mem => kept.created y (still y mem)
  · intro going i within
    rcases kept.complete going i within with done | ⟨y, mem, isIndex⟩
    · exact .inl done
    by_cases eq : i = task.coinIdx
    · subst eq
      exact .inl h
    right
    obtain ⟨pos, isO⟩ := mem_iff_getElem?.mp mem
    refine ⟨y, mem_eraseIdx_iff_getElem?.mpr ⟨pos, ?_, isO⟩, isIndex⟩
    rintro rfl
    cases isTask.symm.trans isO
    exact eq isIndex.symm
  · exact kept.verified

theorem RunKept.keep (kept : RunKept gid coinPubOf group w run)
    (total : run'.numTotalCoins = run.numTotalCoins) (generating : run'.generating = run.generating)
    (ended : run'.ended = false → run.ended = false)
    (verifying : ∀ c, .store c ∈ run'.verifying → .store c ∈ run.verifying) :
    RunKept gid coinPubOf group w run' := by
  constructor
  · rw [total, kept.total]
  · rw [generating]
    exact kept.tasks
  · rw [generating]
    exact kept.created
  · rw [generating]
    exact fun going => kept.complete (ended going)
  · exact fun c mem => kept.verified c (verifying c mem)

theorem RunKept.nextCoin (kept : RunKept gid coinPubOf group w run) :
    RunKept gid coinPubOf group w run.nextCoin := kept.keep rfl rfl id fun _ mem => mem

theorem RunKept.endVerify (kept : RunKept gid coinPubOf group w run)
    (idx : Nat) : RunKept gid coinPubOf group w (run.endVerify idx) :=
  kept.keep rfl rfl id fun _ mem => mem_of_mem_eraseIdx mem

theorem storePlanchet_kept (kept : WithdrawalKept gid coinPubOf group w)
    (ne : ∀ i j, i < group.numTotalCoins → j < group.numTotalCoins →
      coinPubOf i = coinPubOf j → i = j) {pub : String} {p : PlanchetRecord}
    (planned : Planned gid coinPubOf group pub p) (waiting : p.withdrawalDone = false) :
    WithdrawalKept gid coinPubOf group (storePlanchet gid pub p w) ∧
      PlanchetsGrow w (storePlanchet gid pub p w) ∧
      ((storePlanchet gid pub p w).planchetAt gid p.coinIdx).isSome := by
  unfold storePlanchet
  split
  next h => exact ⟨kept, .refl w, h⟩
  next gone =>
    have isPub := planned.coinPub
    subst isPub
    have noPlanchet : w.planchets.get? (coinPubOf p.coinIdx) = none := by
      cases h : w.planchets.get? (coinPubOf p.coinIdx) with
      | none => rfl
      | some old =>
        have ofGroup := kept.own _ planned.within old h
        have isOld := kept.planchets _ old h ofGroup
        have sameIndex := ne _ _ planned.within isOld.within isOld.coinPub
        rw [sameIndex] at gone
        exact absurd (planchetAt_isSome h ofGroup) gone
    have noCoin : w.coins.get? (coinPubOf p.coinIdx) = none := by
      rw [kept.coins _ planned.within, noPlanchet]
      rfl
    have self : (w.planchets.set (coinPubOf p.coinIdx) p).get? (coinPubOf p.coinIdx) =
        some p := Record.get?_set_self _ _ _
    have ys : ∀ other, other ≠ coinPubOf p.coinIdx →
        (w.planchets.set (coinPubOf p.coinIdx) p).get? other =
          w.planchets.get? other := fun other apart => Record.get?_set_of_ne _ _ apart
    refine ⟨?_, ?_, ?_⟩
    · constructor
      · exact kept.stored
      · exact kept.keyPaths
      · intro other q h ofGroup
        by_cases eq : other = coinPubOf p.coinIdx
        · subst eq
          cases self.symm.trans h
          exact planned
        · exact kept.planchets other q ((ys other eq).symm.trans h) ofGroup
      · intro i within q h
        by_cases eq : coinPubOf i = coinPubOf p.coinIdx
        · rw [eq] at h
          cases self.symm.trans h
          exact planned.ofGroup
        · exact kept.own i within q ((ys _ eq).symm.trans h)
      · intro i within
        by_cases eq : coinPubOf i = coinPubOf p.coinIdx
        · rw [eq, self, noCoin, bind_some, coinOf, waiting]
          rfl
        · rw [ys _ eq]
          exact kept.coins i within
      · exact kept.finished
    · intro other q h
      refine ⟨q, ?_, rfl, id⟩
      have apart : other ≠ coinPubOf p.coinIdx := by
        rintro rfl
        cases noPlanchet.symm.trans h
      exact (ys other apart).trans h
    · exact planchetAt_isSome self planned.ofGroup

theorem storeVerifiedCoin_kept (kept : WithdrawalKept gid coinPubOf group w)
    {i : Nat} {p : PlanchetRecord} (within : i < group.numTotalCoins)
    (h : w.planchets.get? (coinPubOf i) = some p)
    (r : storeVerifiedCoin gid (withdrawnCoin group (coinPubOf i) p) w = some wallet') :
    WithdrawalKept gid coinPubOf group wallet' ∧ PlanchetsGrow w wallet' := by
  unfold storeVerifiedCoin at r
  obtain ⟨timestampFinish, stored⟩ := kept.stored
  have got : w.planchets.get? (withdrawnCoin group (coinPubOf i) p).coinPub = some p := h
  rw [stored, got] at r
  dsimp only at r
  split at r
  next =>
    cases r
    exact ⟨kept, .refl w⟩
  next waiting =>
    split at r
    next => cases r
    next =>
      cases r
      have isCoinPub : (withdrawnCoin group (coinPubOf i) p).coinPub = coinPubOf i := rfl
      rw [isCoinPub]
      have self : (w.planchets.set (coinPubOf i) { p with withdrawalDone := true }).get?
          (coinPubOf i) = some { p with withdrawalDone := true } := Record.get?_set_self _ _ _
      have ys : ∀ other, other ≠ coinPubOf i →
          (w.planchets.set (coinPubOf i) { p with withdrawalDone := true }).get? other =
            w.planchets.get? other := fun other apart => Record.get?_set_of_ne _ _ apart
      have coinSelf : (w.coins.set (coinPubOf i)
          (withdrawnCoin group (coinPubOf i) p)).get? (coinPubOf i) =
            some (withdrawnCoin group (coinPubOf i) p) := Record.get?_set_self _ _ _
      have ofGroup := kept.own i within p h
      have planned := kept.planchets _ p h ofGroup
      constructor
      · constructor
        · exact ⟨timestampFinish, stored⟩
        · exact kept.keyPaths
        · intro other q isPlan inGroup
          by_cases eq : other = coinPubOf i
          · subst eq
            cases self.symm.trans isPlan
            exact ⟨planned.ofGroup, planned.within, planned.coinPub, planned.denomination⟩
          · exact kept.planchets other q ((ys other eq).symm.trans isPlan) inGroup
        · intro j inRange q isPlan
          by_cases eq : coinPubOf j = coinPubOf i
          · rw [eq] at isPlan
            cases self.symm.trans isPlan
            exact ofGroup
          · exact kept.own j inRange q ((ys _ eq).symm.trans isPlan)
        · intro j inRange
          by_cases eq : coinPubOf j = coinPubOf i
          · rw [eq, self, coinSelf]
            rfl
          · rw [ys _ eq, Record.get?_set_of_ne _ _ eq]
            exact kept.coins j inRange
        intro wg isGroup ended j inRange
        rw [Record.get?_set]
        split
        next => rfl
        next => exact kept.finished wg isGroup ended j inRange
      · intro other q isPlan
        by_cases eq : other = coinPubOf i
        · subst eq
          cases h.symm.trans isPlan
          exact ⟨_, self, rfl, fun _ => rfl⟩
        · exact ⟨q, (ys other eq).trans isPlan, rfl, id⟩

/-- The planchets of the group, all of them or those that are withdrawn. -/
def planchetsOf (withdrawalGroupId : String) (onlyDone : Bool) (wallet : WalletStores) :
    List PlanchetRecord :=
  wallet.planchets.values.filter fun p =>
    p.withdrawalGroupId = withdrawalGroupId && (p.withdrawalDone || !onlyDone)

theorem mem_planchetsOf {onlyDone : Bool} {p : PlanchetRecord} :
    p ∈ planchetsOf gid onlyDone w ↔ (∃ pub, w.planchets.get? pub = some p) ∧
        p.withdrawalGroupId = gid ∧ (onlyDone → p.withdrawalDone) := by
  rw [planchetsOf, mem_filter, Record.mem_values_iff]
  cases onlyDone <;> simp

theorem planchetsOf_nodup (kept : WithdrawalKept withdrawalGroupId coinPubOf group w)
    (onlyDone : Bool) :
    ((planchetsOf withdrawalGroupId onlyDone w).map PlanchetRecord.coinIdx).Nodup := by
  have apart := w.planchets.distinct
  rw [planchetsOf, Record.values, List.filter_map, List.map_map]
  apply List.Nodup.of_map coinPubOf
  rw [List.map_map]
  have keys : (w.planchets.entries.filter
      ((fun p : PlanchetRecord => decide (p.withdrawalGroupId = withdrawalGroupId) &&
        (p.withdrawalDone || !onlyDone)) ∘ Prod.snd)).map
          (coinPubOf ∘ PlanchetRecord.coinIdx ∘ Prod.snd) = (w.planchets.entries.filter
        ((fun p : PlanchetRecord => decide (p.withdrawalGroupId = withdrawalGroupId) &&
          (p.withdrawalDone || !onlyDone)) ∘ Prod.snd)).map Prod.fst := by
    apply map_congr_left
    rintro ⟨pub, p⟩ mem
    obtain ⟨isEntry, matching⟩ := mem_filter.mp mem
    have ofGroup : p.withdrawalGroupId = withdrawalGroupId := by
      simp only [Function.comp_apply, Bool.and_eq_true, decide_eq_true_eq] at matching
      exact matching.1
    have h := Record.lookup_of_mem apart isEntry
    exact (kept.planchets pub p h ofGroup).coinPub.symm
  rw [keys]
  exact (List.filter_sublist.map Prod.fst).nodup apart

theorem planchetsOf_within (kept : WithdrawalKept gid coinPubOf group w) {onlyDone : Bool} {i : Nat}
    (mem : i ∈ (planchetsOf gid onlyDone w).map PlanchetRecord.coinIdx) :
    i < group.numTotalCoins := by
  obtain ⟨p, isPlan, rfl⟩ := List.mem_map.mp mem
  obtain ⟨⟨pub, h⟩, ofGroup, -⟩ := mem_planchetsOf.mp isPlan
  exact (kept.planchets pub p h ofGroup).within

theorem indexes_perm_range {indexes : List Nat} {count : Nat} (apart : indexes.Nodup)
    (within : ∀ i ∈ indexes, i < count) (enough : count ≤ indexes.length) :
    indexes.Perm (List.range count) := by
  have subset : indexes ⊆ List.range count := fun i mem => mem_range.mpr (within i mem)
  have subperm := subperm_of_subset apart subset
  apply subperm.perm_of_length_le
  rw [length_range]
  exact enough

theorem coin_stored_iff (kept : WithdrawalKept gid coinPubOf group w) {i : Nat}
    (within : i < group.numTotalCoins) : (w.coins.get? (coinPubOf i)).isSome ↔
      ∃ p, w.planchets.get? (coinPubOf i) = some p ∧ p.withdrawalDone := by
  rw [kept.coins i within]
  cases h : w.planchets.get? (coinPubOf i) with
  | none => simp
  | some p =>
    rw [bind_some, coinOf]
    cases done : p.withdrawalDone with
    | false => simp [done]
    | true => simp [done]

theorem allStored_iff (kept : WithdrawalKept gid coinPubOf group w)
    (ne : ∀ i j, i < group.numTotalCoins → j < group.numTotalCoins →
      coinPubOf i = coinPubOf j → i = j) : (planchetsOf gid true w).length = group.numTotalCoins ↔
      ∀ i, i < group.numTotalCoins → (w.coins.get? (coinPubOf i)).isSome := by
  have apart := planchetsOf_nodup kept true
  have within := fun i => @planchetsOf_within _ _ _ _ kept true i
  constructor
  · intro count i inRange
    have all := indexes_perm_range apart within (by rw [length_map, count])
    have mem := all.mem_iff.mpr (mem_range.mpr inRange)
    obtain ⟨p, isPlan, isIndex⟩ := List.mem_map.mp mem
    obtain ⟨⟨pub, h⟩, ofGroup, done⟩ := mem_planchetsOf.mp isPlan
    have planned := kept.planchets pub p h ofGroup
    rw [coin_stored_iff kept inRange]
    rw [planned.coinPub, isIndex] at h
    exact ⟨p, h, done rfl⟩
  · intro all
    have perm : ((planchetsOf gid true w).map PlanchetRecord.coinIdx).Perm
        (List.range group.numTotalCoins) := by
      apply (perm_ext_iff_of_nodup apart nodup_range).mpr
      intro i
      constructor
      · exact fun mem => mem_range.mpr (within i mem)
      intro inRange
      have isIndex := mem_range.mp inRange
      obtain ⟨p, h, done⟩ := (coin_stored_iff kept isIndex).mp (all i isIndex)
      have ofGroup := kept.own i isIndex p h
      have planned := kept.planchets _ p h ofGroup
      have eq := ne i p.coinIdx isIndex planned.within planned.coinPub
      exact List.mem_map.mpr ⟨p, mem_planchetsOf.mpr ⟨⟨_, h⟩, ofGroup, fun _ => done⟩, eq.symm⟩
    have length := perm.length_eq
    rw [length_map, length_range] at length
    exact length

theorem finishRun_kept (kept : WithdrawalKept gid coinPubOf group w)
    (ne : ∀ i j, i < group.numTotalCoins → j < group.numTotalCoins →
      coinPubOf i = coinPubOf j → i = j) (now : Nat) : WithdrawalKept gid coinPubOf group
        (finishRun now gid group.numTotalCoins w) ∧
      PlanchetsGrow w (finishRun now gid group.numTotalCoins w) ∧
      ((∀ i, i < group.numTotalCoins → (w.coins.get? (coinPubOf i)).isSome) →
        ∃ wg, (finishRun now gid group.numTotalCoins
          w).withdrawalGroups.get? gid = some wg ∧ wg.timestampFinish.isSome) := by
  obtain ⟨timestampFinish, stored⟩ := kept.stored
  have cnt : (w.planchets.values.countP fun p =>
      p.withdrawalGroupId = gid && p.withdrawalDone) = (planchetsOf gid true w).length := by
    rw [planchetsOf, countP_eq_length_filter]
    simp
  unfold finishRun
  rw [stored]
  dsimp only
  have isAll := allStored_iff kept ne
  rw [cnt]
  split
  next all =>
    rw [isAll] at all
    have self : (w.withdrawalGroups.set gid { group with timestampFinish := some now }).get? gid =
          some { group with timestampFinish := some now } := Record.get?_set_self _ _ _
    refine ⟨?_, .refl _, fun _ => ⟨_, self, rfl⟩⟩
    constructor
    · exact ⟨some now, self⟩
    · exact kept.keyPaths
    · exact kept.planchets
    · exact kept.own
    · exact kept.coins
    · exact fun _ _ _ => all.2
  next left =>
    refine ⟨kept, .refl _, ?_⟩
    intro all
    refine ⟨_, stored, ?_⟩
    cases timestampFinish with
    | none => exact absurd ⟨rfl, isAll.mpr all⟩ left
    | some _ => rfl

end Kept

section Steps

variable {withdrawalGroupId groupId wgId gid : String} {coinPubOf : Nat → String} {group : WithdrawalGroupRecord}
  {wallet w wallet' w' : WalletStores} {run run' : WithdrawRun}

structure ActionKept (withdrawalGroupId : String) (coinPubOf : Nat → String)
    (group : WithdrawalGroupRecord) (wallet wallet' : WalletStores) (run' : WithdrawRun) :
    Prop where
  database : WithdrawalKept withdrawalGroupId coinPubOf group wallet'
  process : RunKept withdrawalGroupId coinPubOf group wallet' run'
  grows : PlanchetsGrow wallet wallet'

theorem ActionKept.read (kept : WithdrawalKept gid coinPubOf group w)
    (run : RunKept gid coinPubOf group w run') :
    ActionKept gid coinPubOf group w w run' := ⟨kept, run, .refl w⟩

theorem lookForPlanchet_kept (kept : WithdrawalKept gid coinPubOf group w)
    (runKept : RunKept gid coinPubOf group w run) {idx : Nat}
    (r : lookForPlanchet gid coinPubOf w run idx = some (w', run')) :
    ActionKept gid coinPubOf group w w' run' := by
  obtain ⟨timestampFinish, stored⟩ := kept.stored
  unfold lookForPlanchet at r
  split at r
  next coinIdx isTask =>
    rw [stored] at r
    dsimp only at r
    split at r
    next h =>
      cases r
      exact .read kept (runKept.endGenerate isTask h)
    next =>
      obtain ⟨hash, isHash, r⟩ := bind_eq_some_iff.mp r
      obtain ⟨_, -, r⟩ := bind_eq_some_iff.mp r
      obtain ⟨dn, isDenom, r⟩ := bind_eq_some_iff.mp r
      cases r
      have within := runKept.tasks _ (mem_of_getElem? isTask)
      have isKey := congrArg Prod.snd (kept.keyPaths _ _ isDenom)
      have planned : Planned gid coinPubOf group (coinPubOf coinIdx)
          (newPlanchet gid coinIdx dn) := by
        refine ⟨rfl, within, rfl, ?_⟩
        rw [denomOfCoin_planned (Nat.zero_le _)] at isHash
        exact isHash.trans (congrArg some isKey)
      apply ActionKept.read kept
      constructor
      · exact runKept.total
      · intro task mem
        rcases mem_or_eq_of_mem_set mem with old | rfl
        · exact runKept.tasks task old
        · exact within
      · intro task mem pub p made
        rcases mem_or_eq_of_mem_set mem with old | rfl
        · exact runKept.created task old pub p made
        · cases made
          exact ⟨planned, rfl, rfl⟩
      · intro going i inRange
        rcases runKept.complete going i inRange with done | ⟨task, mem, isIndex⟩
        · exact .inl done
        right
        obtain ⟨pos, isO⟩ := mem_iff_getElem?.mp mem
        by_cases eq : pos = idx
        · subst eq
          cases isTask.symm.trans isO
          exact ⟨_, mem_set (List.getElem?_eq_some_iff.mp isTask).1 _, isIndex⟩
        refine ⟨task, mem_iff_getElem?.mpr ⟨pos, ?_⟩, isIndex⟩
        rw [getElem?_set_ne (Ne.symm eq)]
        exact isO
      · exact runKept.verified
  next => cases r

theorem readForRequest_kept (kept : WithdrawalKept gid coinPubOf group w)
    (runKept : RunKept gid coinPubOf group w run) {exchangeKnown : Bool}
    (r : readForRequest gid w run exchangeKnown = some (w', run')) :
    ActionKept gid coinPubOf group w w' run' := by
  unfold readForRequest at r
  split at r
  next => cases r
  next =>
    split at r
    next =>
      dsimp only at r
      split at r
      next =>
        cases r
        exact .read kept runKept.nextCoin
      next =>
        cases r
        exact .read kept (runKept.keep rfl rfl id fun _ mem => mem)
    next =>
      cases r
      exact .read kept runKept.nextCoin

theorem readForStore_kept (kept : WithdrawalKept gid coinPubOf group w)
    (runKept : RunKept gid coinPubOf group w run) {idx : Nat}
    (r : readForStore gid w run idx = some (w', run')) :
    ActionKept gid coinPubOf group w w' run' := by
  obtain ⟨timestampFinish, stored⟩ := kept.stored
  unfold readForStore at r
  split at r
  next coinIdx isValid isTask =>
    rw [stored] at r
    cases h : w.planchetAt gid coinIdx with
    | none =>
      rw [h] at r
      cases r
      exact .read kept (runKept.endVerify idx)
    | some plan =>
      obtain ⟨pub, p⟩ := plan
      rw [h] at r
      dsimp only at r
      split at r
      next =>
        cases r
        exact .read kept (runKept.endVerify idx)
      next =>
        cases r
        obtain ⟨isPlan, ofGroup, -⟩ := planchetAt_found h
        have planned := kept.planchets pub p isPlan ofGroup
        apply ActionKept.read kept
        constructor
        · exact runKept.total
        · exact runKept.tasks
        · exact runKept.created
        · exact runKept.complete
        intro c mem
        rcases mem_or_eq_of_mem_set mem with old | new
        · exact runKept.verified c old
        cases isValid with
        | false => cases new
        | true =>
          cases new
          refine ⟨p.coinIdx, p, planned.within, planned.coinPub ▸ isPlan, ?_⟩
          rw [← planned.coinPub]
          rfl
  next => cases r

theorem action_kept {action : RunAction}
    (ne : ∀ i j, i < group.numTotalCoins → j < group.numTotalCoins →
      coinPubOf i = coinPubOf j → i = j) (kept : WithdrawalKept gid coinPubOf group w)
    (runKept : RunKept gid coinPubOf group w run)
    (r : action.perform gid coinPubOf w run = some (w', run')) :
    ActionKept gid coinPubOf group w w' run' := by
  cases action with
  | lookForPlanchet idx => exact lookForPlanchet_kept kept runKept r
  | readForRequest exchangeKnown => exact readForRequest_kept kept runKept r
  | readForStore idx => exact readForStore_kept kept runKept r
  | storePlanchet idx =>
    dsimp only [RunAction.perform] at r
    split at r
    next coinIdx pub p isTask =>
      cases r
      obtain ⟨planned, sameIndex, waiting⟩ := runKept.created _ (mem_of_getElem? isTask) pub p rfl
      obtain ⟨after, grows, h⟩ := storePlanchet_kept kept ne planned waiting
      rw [sameIndex] at h
      exact ⟨after, (runKept.grow grows).endGenerate isTask h, grows⟩
    next => cases r
  | answer isValid =>
    dsimp only [RunAction.perform] at r
    split at r
    next =>
      cases r
      refine .read kept (runKept.keep rfl rfl id ?_)
      intro c mem
      rcases mem_append.mp mem with old | new
      · exact old
      · cases mem_singleton.mp new
    next => cases r
  | requestFailed =>
    dsimp only [RunAction.perform] at r
    split at r
    next =>
      cases r
      exact .read kept runKept.nextCoin
    next => cases r
  | recordInvalid idx =>
    dsimp only [RunAction.perform] at r
    split at r
    next =>
      cases r
      exact .read kept (runKept.endVerify idx)
    next => cases r
  | storeCoin idx =>
    dsimp only [RunAction.perform] at r
    split at r
    next c isTask =>
      obtain ⟨stored, isStored, r⟩ := bind_eq_some_iff.mp r
      cases r
      obtain ⟨i, p, within, h, rfl⟩ := runKept.verified c (mem_of_getElem? isTask)
      obtain ⟨after, grows⟩ := storeVerifiedCoin_kept kept within h isStored
      exact ⟨after, (runKept.grow grows).endVerify idx, grows⟩
    next => cases r
  | finish now =>
    dsimp only [RunAction.perform] at r
    split at r
    next =>
      cases r
      have ended := finishRun_kept kept ne now
      rw [← runKept.total] at ended
      obtain ⟨after, grows, -⟩ := ended
      exact ⟨after, (runKept.grow grows).keep rfl rfl nofun fun _ mem => mem, grows⟩
    next => cases r
  | fail =>
    cases r
    exact .read kept (runKept.keep rfl rfl nofun fun _ mem => mem)

def WithdrawStep (withdrawalGroupId : String) (coinPubOf : Nat → String) (state : Withdrawal)
    (event : WithdrawEvent) (next : Withdrawal) : Prop :=
  withdrawStep withdrawalGroupId coinPubOf state event = some next

structure AllKept (withdrawalGroupId : String) (coinPubOf : Nat → String)
    (group : WithdrawalGroupRecord) (state : Withdrawal) : Prop where
  wallet : WithdrawalKept withdrawalGroupId coinPubOf group state.wallet
  runs : ∀ run ∈ state.runs, RunKept withdrawalGroupId coinPubOf group state.wallet run

theorem withdrawStep_kept {st next : Withdrawal} {ev : WithdrawEvent}
    (ne : ∀ i j, i < group.numTotalCoins → j < group.numTotalCoins →
      coinPubOf i = coinPubOf j → i = j) (kept : AllKept gid coinPubOf group st)
    (step : WithdrawStep gid coinPubOf st ev next) :
    AllKept gid coinPubOf group next ∧ PlanchetsGrow st.wallet next.wallet := by
  cases ev with
  | start =>
    obtain ⟨wg, isGroup, won⟩ := bind_eq_some_iff.mp step
    cases won
    obtain ⟨timestampFinish, stored⟩ := kept.wallet.stored
    cases stored.symm.trans isGroup
    refine ⟨⟨kept.wallet, ?_⟩, .refl _⟩
    intro run mem
    rcases mem_append.mp mem with old | new
    · exact kept.runs run old
    · cases mem_singleton.mp new
      exact RunKept.start
  | run idx action =>
    obtain ⟨run, isRun, won⟩ := bind_eq_some_iff.mp step
    obtain ⟨⟨w', run'⟩, r, won⟩ := bind_eq_some_iff.mp won
    cases won
    have after := action_kept ne kept.wallet (kept.runs run (mem_of_getElem? isRun)) r
    refine ⟨⟨after.database, ?_⟩, after.grows⟩
    intro y mem
    rcases mem_or_eq_of_mem_set mem with old | rfl
    · exact (kept.runs y old).grow after.grows
    · exact after.process

end Steps

section Runs

variable {withdrawalGroupId groupId wgId gid : String} {coinPubOf : Nat → String} {group : WithdrawalGroupRecord}
  {wallet w : WalletStores} {state st next : Withdrawal} {event ev : WithdrawEvent}

structure GroupProcessed (withdrawalGroupId : String) (group : WithdrawalGroupRecord)
    (state : Withdrawal) : Prop where
  onePlanchet : ∀ first second p q, state.wallet.planchets.get? first = some p →
    state.wallet.planchets.get? second = some q → p.withdrawalGroupId = withdrawalGroupId →
    q.withdrawalGroupId = withdrawalGroupId → p.coinIdx = q.coinIdx → first = second
  planned : ∀ p ∈ planchetsOf withdrawalGroupId false state.wallet,
    (plannedDenoms group.selectedDenoms)[p.coinIdx]? = some p.denomPubHash
  enumerated : (∃ run ∈ state.runs, run.ended = false ∧ run.generating = []) →
    ((planchetsOf withdrawalGroupId false state.wallet).map PlanchetRecord.denomPubHash).Perm
      (plannedDenoms group.selectedDenoms)
  coins : ∀ coinPub p, state.wallet.planchets.get? coinPub = some p →
    p.withdrawalGroupId = withdrawalGroupId →
    state.wallet.coins.get? coinPub = coinOf group coinPub p
  finished : ∀ wg, state.wallet.withdrawalGroups.get? withdrawalGroupId = some wg →
    wg.timestampFinish.isSome →
    (planchetsOf withdrawalGroupId true state.wallet).length = group.numTotalCoins

structure WithdrawalStepped (withdrawalGroupId : String) (group : WithdrawalGroupRecord)
    (state : Withdrawal) (event : WithdrawEvent) (next : Withdrawal) : Prop where
  planchetsStay : PlanchetsGrow state.wallet next.wallet
  coinsStay : ∀ coinPub p coin, state.wallet.planchets.get? coinPub = some p →
    p.withdrawalGroupId = withdrawalGroupId → state.wallet.coins.get? coinPub = some coin →
    next.wallet.coins.get? coinPub = some coin
  finishes : ∀ index now, event = .run index (.finish now) →
    (planchetsOf withdrawalGroupId true state.wallet).length = group.numTotalCoins →
    ∃ wg, next.wallet.withdrawalGroups.get? withdrawalGroupId = some wg ∧
      wg.timestampFinish.isSome

theorem WithdrawalKept.coin (kept : WithdrawalKept gid coinPubOf group w)
    {coinPub : String} {p : PlanchetRecord} (h : w.planchets.get? coinPub = some p)
    (ofGroup : p.withdrawalGroupId = gid) : w.coins.get? coinPub = coinOf group coinPub p := by
  have planned := kept.planchets coinPub p h ofGroup
  have isPub := planned.coinPub
  subst isPub
  rw [kept.coins _ planned.within, h, bind_some]

theorem planchetsOf_planned (kept : WithdrawalKept gid coinPubOf group w)
    (complete : ∀ i, i < group.numTotalCoins → (w.planchetAt gid i).isSome) :
    ((planchetsOf gid false w).map PlanchetRecord.denomPubHash).Perm
      (plannedDenoms group.selectedDenoms) := by
  have perm : ((planchetsOf gid false w).map PlanchetRecord.coinIdx).Perm
      (List.range group.numTotalCoins) := by
    apply (perm_ext_iff_of_nodup (planchetsOf_nodup kept false) nodup_range).mpr
    intro i
    constructor
    · exact fun mem => mem_range.mpr (planchetsOf_within kept mem)
    intro inRange
    obtain ⟨⟨pub, p⟩, isPlan⟩ := isSome_iff_exists.mp (complete i (mem_range.mp inRange))
    obtain ⟨h, ofGroup, idx⟩ := planchetAt_found isPlan
    exact List.mem_map.mpr ⟨p, mem_planchetsOf.mpr ⟨⟨pub, h⟩, ofGroup, nofun⟩, idx⟩
  have looked := (perm.map fun i => (plannedDenoms group.selectedDenoms)[i]?).filterMap id
  have h : ((planchetsOf gid false w).map PlanchetRecord.coinIdx).map
      (fun i => (plannedDenoms group.selectedDenoms)[i]?) =
        (planchetsOf gid false w).map (some ∘ PlanchetRecord.denomPubHash) := by
    rw [List.map_map]
    apply map_congr_left
    intro p mem
    obtain ⟨⟨pub, isPlan⟩, ofGroup, -⟩ := mem_planchetsOf.mp mem
    exact (kept.planchets pub p isPlan ofGroup).denomination
  have all : (List.range group.numTotalCoins).map
      (fun i => (plannedDenoms group.selectedDenoms)[i]?) =
        (plannedDenoms group.selectedDenoms).map some := by
    rw [← plannedDenoms_length]
    apply ext_getElem?
    intro i
    rw [getElem?_map, getElem?_map]
    by_cases inRange : i < (plannedDenoms group.selectedDenoms).length
    · rw [getElem?_range inRange, map_some, getElem?_eq_getElem inRange, map_some]
    rw [List.getElem?_eq_none_iff.mpr (by rw [length_range]; omega),
      List.getElem?_eq_none_iff.mpr (by omega)]
    rfl
  rw [h, all] at looked
  simpa [filterMap_map] using looked

theorem allKept_processed (ne : ∀ i j, i < group.numTotalCoins → j < group.numTotalCoins →
      coinPubOf i = coinPubOf j → i = j) (kept : AllKept withdrawalGroupId coinPubOf group state) :
    GroupProcessed withdrawalGroupId group state := by
  constructor
  · intro x y p q isFirst isSecond ofGroup inGroup eq
    rw [(kept.wallet.planchets x p isFirst ofGroup).coinPub,
      (kept.wallet.planchets y q isSecond inGroup).coinPub, eq]
  · intro p mem
    obtain ⟨⟨pub, h⟩, ofGroup, -⟩ := mem_planchetsOf.mp mem
    exact (kept.wallet.planchets pub p h ofGroup).denomination
  · rintro ⟨run, mem, going, generated⟩
    apply planchetsOf_planned kept.wallet
    intro i within
    rcases (kept.runs run mem).complete going i within with done | ⟨task, isTask, -⟩
    · exact done
    · rw [generated] at isTask
      cases isTask
  · exact fun pub p => kept.wallet.coin
  · intro wg isGroup ended
    exact (allStored_iff kept.wallet ne).mpr (kept.wallet.finished wg isGroup ended)

/-- Whatever the runs do and however they fail, every planned coin is stored at most once, with
its planchet; the end of a run finishes the group when it finds all of them stored. -/
theorem withdrawal_group_processed {start : WalletStores} {events : List WithdrawEvent}
    (fresh : FreshGroup withdrawalGroupId coinPubOf group start)
    (run : Run (WithdrawStep withdrawalGroupId coinPubOf) ⟨start, []⟩ events state) :
    GroupProcessed withdrawalGroupId group state ∧
      ∀ event next, WithdrawStep withdrawalGroupId coinPubOf state event next →
        WithdrawalStepped withdrawalGroupId group state event next := by
  have kept : AllKept withdrawalGroupId coinPubOf group state := by
    apply run.invariant (AllKept withdrawalGroupId coinPubOf group)
    · exact ⟨.start fresh, nofun⟩
    · exact fun _ _ _ kept step => (withdrawStep_kept fresh.different kept step).1
  refine ⟨allKept_processed fresh.different kept, ?_⟩
  intro event next step
  obtain ⟨after, grows⟩ := withdrawStep_kept fresh.different kept step
  constructor
  · exact grows
  · intro coinPub p coin found ofGroup isCoin
    obtain ⟨p', found', same, stays⟩ := grows coinPub p found
    have ofGroup' : p'.withdrawalGroupId = withdrawalGroupId := by
      rw [same]
      exact ofGroup
    rw [kept.wallet.coin found ofGroup] at isCoin
    rw [after.wallet.coin found' ofGroup']
    unfold coinOf at isCoin ⊢
    split at isCoin
    next done =>
      rw [if_pos (stays done), ← isCoin, same]
      rfl
    next => cases isCoin
  · rintro index now rfl all
    obtain ⟨other, isRun, success⟩ := bind_eq_some_iff.mp step
    obtain ⟨⟨wallet', run'⟩, performed, success⟩ := bind_eq_some_iff.mp success
    cases success
    dsimp only [RunAction.perform] at performed
    split at performed
    next =>
      cases performed
      rw [(kept.runs other (mem_of_getElem? isRun)).total]
      exact (finishRun_kept kept.wallet fresh.different now).2.2
        ((allStored_iff kept.wallet fresh.different).mp all)
    next => cases performed

end Runs

section Examples

def exampleWithdrawal : WithdrawalGroupRecord where
  withdrawalGroupId := "group"
  exchangeBaseUrl := "https://a/"
  currency := "KUDOS"
  selectedDenoms := [(1, "ten")]
  totalCoinValue := .ofValue 10
  timestampFinish := none

def exampleWithdrawing : WalletStores :=
  { exampleTen with
    withdrawalGroups := Record.empty.set "group" exampleWithdrawal }

def exampleCoinPub (coinIdx : Nat) : String := "coin" ++ toString coinIdx

def coinStored : List WithdrawEvent :=
  [.start, .run 0 (.lookForPlanchet 0), .run 0 (.storePlanchet 0), .run 0 (.readForRequest true),
    .run 0 (.answer true), .run 0 (.readForStore 0), .run 0 (.storeCoin 0)]

theorem exampleWithdrawing_fresh :
    FreshGroup "group" exampleCoinPub exampleWithdrawal exampleWithdrawing := by
  constructor
  · exact Record.get?_set_self _ _ _
  · rfl
  · exact exampleTen_keyPaths
  · intro i j x y _
    have total : exampleWithdrawal.numTotalCoins = 1 := rfl
    omega
  · intro pub p h
    cases (Record.get?_empty _).symm.trans h
  · exact fun i _ => ⟨Record.get?_empty _, Record.get?_empty _⟩

/-- The group is only finished by a transaction of its own. -/
theorem stored_before_finished : ¬ ∀ withdrawalGroupId coinPubOf group start events state,
    FreshGroup withdrawalGroupId coinPubOf group start → group.selectedDenoms ≠ [] →
    Run (WithdrawStep withdrawalGroupId coinPubOf) ⟨start, []⟩ events state →
    ((planchetsOf withdrawalGroupId true state.wallet).length = group.numTotalCoins ↔
      ∃ wg, state.wallet.withdrawalGroups.get? withdrawalGroupId = some wg ∧
        wg.timestampFinish.isSome) := by
  intro claim
  have outcome : (coinStored.foldlM (withdrawStep "group" exampleCoinPub)
      ⟨exampleWithdrawing, []⟩).map (fun state =>
        ((planchetsOf "group" true state.wallet).length,
          (state.wallet.withdrawalGroups.get? "group").map fun wg => wg.timestampFinish)) =
      some (1, some none) := by decide +kernel
  obtain ⟨state, isState, outcome⟩ := map_eq_some_iff.mp outcome
  obtain ⟨all, unfinished⟩ := Prod.mk.inj outcome
  have run : Run (WithdrawStep "group" exampleCoinPub) ⟨exampleWithdrawing, []⟩ coinStored state :=
    Run.ofFoldlM (fun _ _ _ success => success) isState
  obtain ⟨wg, isGroup, finished⟩ := (claim _ _ _ _ _ _ exampleWithdrawing_fresh
    (by simp [exampleWithdrawal]) run).mp all
  rw [isGroup, map_some] at unfinished
  rw [Option.some.inj unfinished] at finished
  cases finished

theorem withdrawal_group_processed_stored : ∃ state,
    Run (WithdrawStep "group" exampleCoinPub) ⟨exampleWithdrawing, []⟩
      (coinStored ++ [WithdrawEvent.run 0 (.finish 1000)]) state ∧
    GroupProcessed "group" exampleWithdrawal state := by
  have outcome : ((coinStored ++ [WithdrawEvent.run 0 (.finish 1000)]).foldlM
      (withdrawStep "group" exampleCoinPub) ⟨exampleWithdrawing, []⟩).isSome := by decide +kernel
  obtain ⟨state, isState⟩ := isSome_iff_exists.mp outcome
  have run : Run (WithdrawStep "group" exampleCoinPub) ⟨exampleWithdrawing, []⟩
      (coinStored ++ [WithdrawEvent.run 0 (.finish 1000)]) state :=
    Run.ofFoldlM (fun _ _ _ success => success) isState
  exact ⟨state, run, (withdrawal_group_processed exampleWithdrawing_fresh run).1⟩

end Examples

end Anastasis.Wallet
