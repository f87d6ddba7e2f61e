import Anastasis.Idb.RangeDeletion
import Mathlib.Data.List.TakeWhile

/-! When the deletion of a key range removes exactly the records of the range. -/

set_option autoImplicit false

namespace Anastasis.Idb

open Library List Option

variable {Key Value : Type} [LinearOrder Key]

/-! ## The indexes -/

section Indexes

variable {isNullish : Value → Bool} {indexes : List (StoreIndex Key Value)}
  {index idx : StoreIndex Key Value} {primaryKey key pk : Key} {value v : Value}

theorem deleteFromIndexes_none_iff : (deleteFromIndexes isNullish pk value indexes).2 = none ↔
      ∀ idx ∈ indexes, idx.Finds isNullish value := by
  induction indexes with
  | nil => simp [deleteFromIndexes]
  | cons idx rest ih =>
    have x := @deleteFromIndex_none_iff _ _ _ isNullish idx pk value
    unfold deleteFromIndexes
    rw [forall_mem_cons, ← x, ← ih]
    obtain ⟨changed, thrown⟩ := deleteFromIndex isNullish pk value idx
    cases thrown with
    | some thrown => simp
    | none => simp

theorem deleteFromIndexes_eq (finds : (deleteFromIndexes isNullish pk v indexes).2 = none) :
    (deleteFromIndexes isNullish pk v indexes).1 =
      indexes.map fun idx => (deleteFromIndex isNullish pk v idx).1 := by
  induction indexes with
  | nil => rfl
  | cons idx rest ih =>
    unfold deleteFromIndexes at finds ⊢
    rw [map_cons]
    generalize deleteFromIndex isNullish pk v idx = x at finds ⊢
    obtain ⟨changed, thrown⟩ := x
    cases thrown with
    | some thrown => cases finds
    | none => exact congrArg (changed :: ·) (ih finds)

theorem deleteFromIndex_name : (deleteFromIndex isNullish pk v idx).1.name = idx.name := by
  unfold deleteFromIndex
  split
  · rfl
  split
  · rfl
  split
  · rfl
  · rfl

theorem deletedLast_mem {indexData : SortedMap Key (List Key)} {indexKeys : List Key}
    {indexKey y : Key} (ne : y ≠ primaryKey)
    (h : ∀ indexKey ∈ indexKeys, ∃ primaryKeys, indexData.get? indexKey = some primaryKeys) :
    (∃ primaryKeys, (deletedLast indexData primaryKey indexKeys).get? indexKey =
        some primaryKeys ∧ y ∈ primaryKeys) ↔
      ∃ primaryKeys, indexData.get? indexKey = some primaryKeys ∧ y ∈ primaryKeys := by
  unfold deletedLast
  cases last : indexKeys.getLast? with
  | none => exact Iff.rfl
  | some lastKey =>
    rw [deletePrimaryKey_get?]
    split
    next eq =>
      subst eq
      obtain ⟨primaryKeys, isEntry⟩ := h indexKey (mem_of_getLast? last)
      rw [isEntry]
      constructor
      · intro refers
        obtain ⟨left, isRemaining, mem⟩ := refers
        split at isRemaining
        next => cases isRemaining
        next =>
          cases isRemaining
          exact ⟨primaryKeys, rfl, mem_of_mem_filter mem⟩
      · intro refers
        obtain ⟨all, isAll, mem⟩ := refers
        cases isAll
        have kept : y ∈ primaryKeys.filter fun x => x ≠ primaryKey :=
          mem_filter.mpr ⟨mem, decide_eq_true ne⟩
        exact ⟨_, if_neg (ne_nil_of_mem kept), kept⟩
    next => exact Iff.rfl

theorem deleteFromIndex_keepsOthers (finds : idx.Finds isNullish v) :
    idx.KeepsOthers (fun key => key = pk) (deleteFromIndex isNullish pk v idx).1 := by
  obtain ⟨has, data, indexKeys, isData, keys, h⟩ := finds
  refine ⟨deleteFromIndex_name, deleteFromIndex_getIndexKeys, ?_⟩
  intro indexKey y ne
  have after := @deleteFromIndex_data _ _ _ isNullish idx pk v data indexKeys isData has keys h
  have eq := @deletedLast_mem _ _ pk data indexKeys indexKey y ne h
  constructor
  · intro refers
    obtain ⟨changed, pks, isChanged, isEntry, mem⟩ := refers
    rw [after] at isChanged
    cases isChanged
    obtain ⟨old, isOld, isMember⟩ := eq.mp ⟨pks, isEntry, mem⟩
    exact ⟨data, old, isData, isOld, isMember⟩
  intro refers
  obtain ⟨pre, pks, isBefore, isEntry, mem⟩ := refers
  rw [isData] at isBefore
  cases isBefore
  obtain ⟨new, isNew, isMember⟩ := eq.mpr ⟨pks, isEntry, mem⟩
  exact ⟨_, new, after, isNew, isMember⟩

variable (isNullish) in
def StoreIndex.deleteEach (entries : List (Key × Value)) (index : StoreIndex Key Value) :
    StoreIndex Key Value :=
  entries.foldl (fun index entry => (deleteFromIndex isNullish entry.1 entry.2 index).1) index

theorem deleteEach_keepsOthers {entries : List (Key × Value)}
    (finds : StoreIndex.FindsAll isNullish entries idx) :
    idx.KeepsOthers (fun key => key ∈ entries.map Prod.fst) (idx.deleteEach isNullish entries) := by
  induction entries generalizing idx with
  | nil => exact ⟨rfl, rfl, fun _ _ _ => Iff.rfl⟩
  | cons e rest ih =>
    obtain ⟨x, later⟩ := finds
    have step := @deleteFromIndex_keepsOthers _ _ _ isNullish idx e.1 e.2 x
    have steps := ih later
    refine ⟨steps.name.trans step.name, steps.getIndexKeys.trans step.getIndexKeys, ?_⟩
    intro indexKey pk kept
    rw [map_cons, mem_cons, not_or] at kept
    exact (steps.refers indexKey pk kept.2).trans (step.refers indexKey pk kept.1)

end Indexes

/-! ## The records -/

section Walk

variable {isNullish : Value → Bool} {range rg : IDBKeyRange Key} {data : SortedMap Key Value}
  {before pre rest : List (Key × Value)} {fuel : Nat} {indexes : List (StoreIndex Key Value)}

def IDBKeyRange.passed (range : IDBKeyRange Key) (entries : List (Key × Value)) :
    List (Key × Value) :=
  entries.takeWhile fun entry => !range.stops entry.1

def IDBKeyRange.unpassed (range : IDBKeyRange Key) (entries : List (Key × Value)) :
    List (Key × Value) :=
  entries.dropWhile fun entry => !range.stops entry.1

variable {entry e : Key × Value}

theorem erase_split (split : data.entries = pre ++ e :: rest) :
    (data.erase e.1).entries = pre ++ rest := by
  have sorted := data.sorted
  rw [split] at sorted
  have apart := pairwise_append.mp sorted
  have later := (pairwise_cons.mp apart.2.1).1
  unfold SortedMap.erase
  dsimp only
  rw [split, filter_append, filter_cons_of_neg (by simp)]
  congr 1
  · apply filter_eq_self.mpr
    intro old mem
    exact decide_eq_true (ne_of_lt (apart.2.2 old mem e mem_cons_self))
  apply filter_eq_self.mpr
  intro y mem
  exact decide_eq_true (ne_of_gt (later y mem))

theorem erase_nextHigherKey (split : data.entries = pre ++ e :: rest) :
    (data.erase e.1).nextHigherKey e.1 = rest.head?.map Prod.fst := by
  have walk : Walk true (pre ++ e :: rest) := by
    rw [← split]
    exact data.ordered_walk true
  have next := walk.find?_after
  simp only [before_forward] at next
  rw [find?_append, find?_cons_of_neg (by simp), ← find?_append] at next
  rw [SortedMap.nextHigherKey, SortedMap.nextHigherPair, erase_split split, next]

section Rounds

variable {currKey : Key} {value v : Value} {remaining left : List (StoreIndex Key Value)}

theorem deleteLoop_stops (stops : rg.stops currKey = true) :
    deleteLoop isNullish rg (fuel + 1) (some currKey) data indexes = (data, indexes, none) := by
  simp [deleteLoop, stops]

theorem deleteLoop_throws {thrown : BackendError} (goesOn : rg.stops currKey = false)
    (isValue : data.get? currKey = some v)
    (throws : deleteFromIndexes isNullish currKey v indexes = (left, some thrown)) :
    deleteLoop isNullish rg (fuel + 1) (some currKey) data indexes =
      (data, left, some thrown) := by
  simp [deleteLoop, goesOn, isValue, throws]

theorem deleteLoop_deletes (goesOn : rg.stops currKey = false)
    (isValue : data.get? currKey = some v)
    (deletes : deleteFromIndexes isNullish currKey v indexes = (remaining, none)) :
    deleteLoop isNullish rg (fuel + 1) (some currKey) data indexes =
      deleteLoop isNullish rg fuel ((data.erase currKey).nextHigherKey currKey)
        (data.erase currKey) remaining := by
  simp [deleteLoop, goesOn, isValue, deletes]

end Rounds

theorem passed_stops (stops : rg.stops e.1 = true) :
    rg.passed (e :: rest) = [] ∧ rg.unpassed (e :: rest) = e :: rest := by
  constructor
  · exact takeWhile_cons_of_neg (by simp [stops])
  · exact dropWhile_cons_of_neg (by simp [stops])

theorem passed_cons (goesOn : rg.stops e.1 = false) : rg.passed (e :: rest) = e :: rg.passed rest ∧
      rg.unpassed (e :: rest) = rg.unpassed rest := by
  constructor
  · exact takeWhile_cons_of_pos (by simp [goesOn])
  · exact dropWhile_cons_of_pos (by simp [goesOn])

theorem deleteLoop_none_iff (split : data.entries = pre ++ rest) (enough : rest.length < fuel) :
    (deleteLoop isNullish rg fuel (rest.head?.map Prod.fst) data indexes).2.2 = none ↔
      ∀ index ∈ indexes, StoreIndex.FindsAll isNullish (rg.passed rest) index := by
  obtain ⟨fuel, rfl⟩ := Nat.exists_eq_add_one_of_ne_zero (Nat.ne_of_gt (Nat.zero_lt_of_lt enough))
  induction rest generalizing data indexes fuel with
  | nil => exact iff_of_true rfl fun _ _ => trivial
  | cons e rest ih =>
    have isValue := @SortedMap.get?_of_ordered _ _ _ data true pre rest e split
    rw [head?_cons, map_some]
    cases stops : rg.stops e.1 with
    | true =>
      rw [deleteLoop_stops stops, (passed_stops stops).1]
      exact iff_of_true rfl fun _ _ => trivial
    | false =>
      have x := @deleteFromIndexes_none_iff _ _ _ isNullish indexes e.1 e.2
      have changed := @deleteFromIndexes_eq _ _ _ isNullish indexes e.1 e.2
      rw [(passed_cons stops).1]
      cases out : deleteFromIndexes isNullish e.1 e.2 indexes with
      | mk left thrown =>
        rw [out] at x changed
        cases thrown with
        | some thrown =>
          rw [deleteLoop_throws stops isValue out]
          apply iff_of_false (some_ne_none thrown)
          intro finds
          cases x.mpr fun index mem => (finds index mem).1
        | none =>
          have finds := x.mp rfl
          have isRemaining : left = _ := changed rfl
          obtain ⟨fuel, rfl⟩ := Nat.exists_eq_add_one_of_ne_zero
            (Nat.ne_of_gt (Nat.zero_lt_of_lt (Nat.lt_of_succ_lt_succ enough)))
          have later := @ih (data.erase e.1) left (erase_split split) fuel
            (Nat.lt_of_succ_lt_succ enough)
          rw [deleteLoop_deletes stops isValue out, erase_nextHigherKey split, later,
            isRemaining, List.forall_mem_map]
          constructor
          · exact fun all index mem => ⟨finds index mem, all index mem⟩
          · exact fun all index mem => (all index mem).2

theorem deleteLoop_eq (split : data.entries = pre ++ rest) (enough : rest.length < fuel) (succeeds :
      (deleteLoop isNullish rg fuel (rest.head?.map Prod.fst) data indexes).2.2 = none) :
    (deleteLoop isNullish rg fuel (rest.head?.map Prod.fst) data indexes).1.entries =
        pre ++ rg.unpassed rest ∧
      (deleteLoop isNullish rg fuel (rest.head?.map Prod.fst) data indexes).2.1 =
        indexes.map (StoreIndex.deleteEach isNullish (rg.passed rest)) := by
  obtain ⟨fuel, rfl⟩ := Nat.exists_eq_add_one_of_ne_zero (Nat.ne_of_gt (Nat.zero_lt_of_lt enough))
  induction rest generalizing data indexes fuel with
  | nil => exact ⟨split, (List.map_id indexes).symm⟩
  | cons e rest ih =>
    have isValue := @SortedMap.get?_of_ordered _ _ _ data true pre rest e split
    rw [head?_cons, map_some] at succeeds ⊢
    cases stops : rg.stops e.1 with
    | true =>
      rw [deleteLoop_stops stops, (passed_stops stops).1, (passed_stops stops).2]
      exact ⟨split, (List.map_id indexes).symm⟩
    | false =>
      have changed := @deleteFromIndexes_eq _ _ _ isNullish indexes e.1 e.2
      cases out : deleteFromIndexes isNullish e.1 e.2 indexes with
      | mk left thrown =>
        rw [out] at changed
        cases thrown with
        | some thrown =>
          rw [deleteLoop_throws stops isValue out] at succeeds
          cases succeeds
        | none =>
          have isRemaining : left = _ := changed rfl
          obtain ⟨fuel, rfl⟩ := Nat.exists_eq_add_one_of_ne_zero
            (Nat.ne_of_gt (Nat.zero_lt_of_lt (Nat.lt_of_succ_lt_succ enough)))
          rw [deleteLoop_deletes stops isValue out, erase_nextHigherKey split] at succeeds ⊢
          obtain ⟨records, ys⟩ := ih (erase_split split) fuel
            (Nat.lt_of_succ_lt_succ enough) succeeds
          rw [(passed_cons stops).1, (passed_cons stops).2]
          refine ⟨records, ?_⟩
          rw [ys, isRemaining, List.map_map]
          rfl

end Walk

/-! ## Where the walk starts and ends -/

section Bounds

variable {range rg : IDBKeyRange Key} {data : SortedMap Key Value}

def IDBKeyRange.reached (range : IDBKeyRange Key) (data : SortedMap Key Value) :
    List (Key × Value) :=
  data.entries.filter fun entry => range.lowerIncludes entry.1

theorem entries_eq_append_reached (range : IDBKeyRange Key) (data : SortedMap Key Value) :
    data.entries =
      data.entries.takeWhile (fun entry => !range.lowerIncludes entry.1) ++ range.reached data := by
  have walk := data.ordered_walk true
  have reached := @dropWhile_not_eq_filter _ _ data.entries walk
    (fun entry => range.lowerIncludes entry.1) fun x y early included =>
      @startIncludes_mono _ _ range true x.1 y.1 early included
  rw [IDBKeyRange.reached, ← reached, takeWhile_append_dropWhile]

theorem lowerIncludes_eq {lower : Key} (isLower : rg.lower = some lower) (key : Key) :
    rg.lowerIncludes key =
      if rg.lowerOpen then decide (lower < key) else decide (¬ key < lower) := by
  rw [Bool.eq_iff_iff, lowerIncludes_iff, isLower]
  cases rg.lowerOpen with
  | true => simp
  | false => simp [le_iff_lt_or_eq]

theorem startKey_first {currKey : Key} (start : rg.startKey data = some currKey) :
    (if data.contains currKey then some currKey else data.nextHigherKey currKey) =
      (rg.reached data).head?.map Prod.fst := by
  unfold IDBKeyRange.startKey at start
  cases isLower : rg.lower with
  | none =>
    rw [isLower] at start
    have all : rg.reached data = data.entries := by
      apply filter_eq_self.mpr
      simp [IDBKeyRange.lowerIncludes, isLower]
    obtain ⟨e, isFirst, isKey⟩ := map_eq_some_iff.mp start
    have kept : data.contains currKey = true := by
      apply (data.contains_iff currKey).mpr
      exact isKey ▸ List.mem_map_of_mem (mem_of_mem_head? isFirst)
    rw [if_pos kept, all, ← start]
    rfl
  | some lower =>
    have reached := funext (lowerIncludes_eq isLower)
    rw [isLower] at start
    dsimp only at start
    unfold IDBKeyRange.reached
    rw [reached, head?_filter]
    cases isOpen : rg.lowerOpen with
    | true =>
      rw [isOpen] at start
      have kept := (data.contains_iff currKey).mpr (nextHigherKey_spec start).2
      rw [if_pos kept, ← start]
      rfl
    | false =>
      rw [isOpen] at start
      cases start
      have x := @from_position _ _ _ data true currKey
      have block := (data.ordered_walk true).filter_from currKey
      rw [← block, head?_filter] at x
      simp only [Bool.false_eq_true, if_false, decide_not]
      exact x

/-- There is a first key unless nothing is there or nothing is above an open lower bound. -/
theorem startKey_isSome_iff : (∃ currKey, rg.startKey data = some currKey) ↔
    (rg.lower = none → ∃ key, key ∈ data.keys) ∧
      ∀ lower, rg.lower = some lower → rg.lowerOpen = true → ∃ key ∈ data.keys, lower < key := by
  unfold IDBKeyRange.startKey
  cases isLower : rg.lower with
  | none =>
    unfold SortedMap.minKey SortedMap.keys
    cases data.entries with
    | nil => simp
    | cons e rest => simp
  | some lower =>
    cases isOpen : rg.lowerOpen with
    | false => simp
    | true =>
      simp only [if_true]
      constructor
      · intro start
        obtain ⟨currKey, isNext⟩ := start
        obtain ⟨above, kept⟩ := nextHigherKey_spec isNext
        refine ⟨nofun, ?_⟩
        intro bound isBound _
        cases isBound
        exact ⟨currKey, kept, above⟩
      · intro there
        obtain ⟨key, kept, above⟩ := there.2 lower rfl trivial
        obtain ⟨higher, isNext, _⟩ := nextHigherKey_le kept above
        exact ⟨higher, isNext⟩

theorem takeWhile_agree {Item : Type} {x second : Item → Bool} {items : List Item}
    (agree : ∀ item ∈ items, x item = second item) :
    items.takeWhile x = items.takeWhile second := by
  induction items with
  | nil => rfl
  | cons item rest ih =>
    rw [takeWhile_cons, takeWhile_cons, agree item mem_cons_self,
      ih fun y mem => agree y (mem_cons_of_mem item mem)]

theorem mem_reached {e : Key × Value} (mem : e ∈ rg.reached data) :
    e ∈ data.entries ∧ rg.lowerIncludes e.1 = true := mem_filter.mp mem

theorem stops_eq {upper : Key} (isUpper : rg.upper = some upper) (key : Key) : rg.stops key =
      if rg.upperOpen then decide (key = upper) else decide (upper < key) := by
  unfold IDBKeyRange.stops
  rw [isUpper, Bool.eq_iff_iff]
  cases rg.upperOpen with
  | true => simp [compareKeys_eq_iff]
  | false => simp [compareKeys_gt_iff]

theorem upperIncludes_eq {upper : Key} (isUpper : rg.upper = some upper) (key : Key) :
    rg.upperIncludes key =
      if rg.upperOpen then decide (key < upper) else !decide (upper < key) := by
  rw [Bool.eq_iff_iff, upperIncludes_iff, isUpper]
  cases rg.upperOpen with
  | true => simp
  | false =>
    simp only [mem_def, Option.some.injEq, forall_eq', and_true, Bool.false_eq_true,
      if_false, Bool.not_eq_true', decide_eq_false_iff_not, not_lt, le_iff_lt_or_eq]
    rw [eq_comm]

def IDBKeyRange.Stops (range : IDBKeyRange Key) (data : SortedMap Key Value) : Prop :=
  ∀ upper, range.upper = some upper → range.upperOpen = true →
    (upper ∈ data.keys ∧ range.lowerIncludes upper = true) ∨
      ∀ key ∈ data.keys, range.lowerIncludes key = true → key < upper

theorem passed_eq_includes (stops : range.Stops data) : range.passed (range.reached data) =
      data.entries.filter fun entry => range.includes entry.1 := by
  have walk : Walk true (range.reached data) := (data.ordered_walk true).filter _
  have inRange : (range.reached data).filter (fun entry => range.includes entry.1) =
      data.entries.filter fun entry => range.includes entry.1 := by
    rw [IDBKeyRange.reached, List.filter_filter]
    apply filter_congr
    intro entry _
    unfold IDBKeyRange.includes
    cases range.lowerIncludes entry.1 with
    | true => simp
    | false => simp
  rw [← inRange, ← takeWhile_includes walk fun entry mem => (mem_reached mem).2]
  have agree (eq : ∀ entry ∈ range.reached data,
      (!range.stops entry.1) = range.upperIncludes entry.1) : range.passed (range.reached data) =
        (range.reached data).takeWhile fun entry => range.includes entry.1 := by
    apply takeWhile_agree
    intro entry mem
    rw [eq entry mem, IDBKeyRange.includes, (mem_reached mem).2, Bool.true_and]
  cases isUpper : range.upper with
  | none =>
    apply agree
    simp [IDBKeyRange.stops, IDBKeyRange.upperIncludes, isUpper]
  | some upper =>
    cases isOpen : range.upperOpen with
    | false =>
      apply agree
      intro entry _
      rw [stops_eq isUpper, upperIncludes_eq isUpper, isOpen]
      rfl
    | true =>
      rcases stops upper isUpper isOpen with met | below
      · -- everything before the bound is below it, and the walk ends there
        obtain ⟨⟨key, value⟩, kept, isBound⟩ := List.mem_map.mp met.1
        cases isBound
        have mem : (key, value) ∈ range.reached data := mem_filter.mpr ⟨kept, met.2⟩
        obtain ⟨pre, rest, split⟩ := append_of_mem mem
        have old : ∀ entry ∈ pre, entry.1 < key := by
          intro entry isEarlier
          rw [split] at walk
          simpa using walk.before_of_append entry isEarlier (key, value) mem_cons_self
        have included : ∀ entry ∈ pre, range.lowerIncludes entry.1 = true := by
          intro entry isEarlier
          refine (@mem_reached _ _ _ range data entry ?_).2
          rw [split]
          exact mem_append_left _ isEarlier
        unfold IDBKeyRange.passed
        rw [split, takeWhile_append_of_pos, takeWhile_append_of_pos, takeWhile_cons_of_neg]
        · simp [IDBKeyRange.includes, upperIncludes_eq isUpper, isOpen]
        · simp [stops_eq isUpper, isOpen]
        · intro entry isEarlier
          simp [IDBKeyRange.includes, upperIncludes_eq isUpper, isOpen,
            included entry isEarlier, old entry isEarlier]
        · intro entry isEarlier
          simp [stops_eq isUpper, isOpen, (old entry isEarlier).ne]
      · apply agree
        intro entry mem
        obtain ⟨kept, included⟩ := mem_reached mem
        have less := below entry.1 (List.mem_map_of_mem kept) included
        simp [stops_eq isUpper, upperIncludes_eq isUpper, isOpen, less, less.ne]

theorem passed_beyond (misses : ¬ rg.Stops data) :
    ∃ e ∈ rg.passed (rg.reached data), rg.includes e.1 = false := by
  unfold IDBKeyRange.Stops at misses
  simp only [not_forall, not_or, not_and] at misses
  obtain ⟨upper, isUpper, isOpen, unmet, key, kept, included, above⟩ := misses
  obtain ⟨e, isEntry, rfl⟩ := List.mem_map.mp kept
  have all : rg.passed (rg.reached data) = rg.reached data := by
    apply takeWhile_eq_self_iff.mpr
    intro y mem
    obtain ⟨isO, otherIncluded⟩ := mem_reached mem
    have ne : y.1 ≠ upper := fun eq =>
      unmet (eq ▸ List.mem_map_of_mem isO) (eq ▸ otherIncluded)
    simp [stops_eq isUpper, isOpen, ne]
  refine ⟨e, ?_, ?_⟩
  · rw [all]
    exact mem_filter.mpr ⟨isEntry, included⟩
  · simp only [IDBKeyRange.includes, upperIncludes_eq isUpper, isOpen, if_true, above,
      decide_false, Bool.and_false]

end Bounds

/-! ## The deletion -/

section Deletion

variable {isNullish : Value → Bool} {range rg : IDBKeyRange Key} {store : StoreState Key Value}

theorem deleteRecord_none_iff : (deleteRecord isNullish range store).2 = none ↔
      (∃ currKey, range.startKey store.records = some currKey) ∧
        ∀ index ∈ store.indexes, StoreIndex.FindsAll isNullish
          (range.passed (range.reached store.records)) index := by
  unfold deleteRecord
  cases start : range.startKey store.records with
  | none => simp
  | some currKey =>
    have enough : (range.reached store.records).length < store.records.entries.length + 1 :=
      Nat.lt_add_one_of_le (length_filter_le _ _)
    have loop := @deleteLoop_none_iff _ _ _ isNullish range store.records _ _ _ store.indexes
      (entries_eq_append_reached range store.records) enough
    dsimp only
    rw [startKey_first start, ← loop]
    generalize deleteLoop isNullish range _ _ store.records store.indexes = out
    obtain ⟨data, indexes, thrown⟩ := out
    cases thrown with
    | none => simp
    | some thrown => simp

theorem deleteRecord_eq (succeeds : (deleteRecord isNullish range store).2 = none) :
    (deleteRecord isNullish range store).1.records.entries =
        store.records.entries.takeWhile (fun entry => !range.lowerIncludes entry.1) ++
          range.unpassed (range.reached store.records) ∧
      (deleteRecord isNullish range store).1.indexes = store.indexes.map
        (StoreIndex.deleteEach isNullish (range.passed (range.reached store.records))) := by
  unfold deleteRecord at succeeds ⊢
  cases start : range.startKey store.records with
  | none =>
    rw [start] at succeeds
    cases succeeds
  | some currKey =>
    have enough : (range.reached store.records).length < store.records.entries.length + 1 :=
      Nat.lt_add_one_of_le (length_filter_le _ _)
    have loop := @deleteLoop_eq _ _ _ isNullish range store.records _ _ _ store.indexes
      (entries_eq_append_reached range store.records) enough
    rw [start] at succeeds
    dsimp only at succeeds ⊢
    rw [startKey_first start] at succeeds ⊢
    generalize deleteLoop isNullish range _ _ store.records store.indexes = out at loop succeeds ⊢
    obtain ⟨data, indexes, thrown⟩ := out
    cases thrown with
    | none => exact loop rfl
    | some thrown => cases succeeds

theorem deleteRecord_get? (succeeds : (deleteRecord isNullish range store).2 = none) (key : Key) :
    (deleteRecord isNullish range store).1.records.get? key =
      if key ∈ (range.passed (range.reached store.records)).map Prod.fst then none
      else store.records.get? key := by
  obtain ⟨left, _⟩ := deleteRecord_eq succeeds
  have parts := entries_eq_append_reached range store.records
  have walked : range.passed (range.reached store.records) ++
      range.unpassed (range.reached store.records) = range.reached store.records :=
    takeWhile_append_dropWhile
  have sorted := store.records.sorted
  generalize store.records.entries.takeWhile (fun entry => !range.lowerIncludes entry.1) = skipped
    at left parts
  rw [← walked] at parts
  rw [parts] at sorted
  obtain ⟨_, laterSorted, skippedBefore⟩ := pairwise_append.mp sorted
  obtain ⟨_, _, passedBefore⟩ := pairwise_append.mp laterSorted
  apply Option.ext
  intro value
  have kept : (deleteRecord isNullish range store).1.records.get? key = some value ↔
      store.records.get? key = some value ∧
        key ∉ (range.passed (range.reached store.records)).map Prod.fst := by
    rw [SortedMap.get?_eq_some_iff, SortedMap.get?_eq_some_iff, left, parts]
    simp only [mem_append]
    constructor
    · intro either
      refine ⟨either.imp_right .inr, ?_⟩
      intro isPassed
      obtain ⟨entry, mem, eq⟩ := List.mem_map.mp isPassed
      rcases either with isSkipped | unpassed
      · exact (skippedBefore _ isSkipped entry (mem_append_left _ mem)).ne eq.symm
      · exact (passedBefore entry mem _ unpassed).ne eq
    · intro there
      obtain ⟨isSkipped | passed | unpassed, notPassed⟩ := there
      · exact .inl isSkipped
      · exact absurd (List.mem_map_of_mem passed) notPassed
      · exact .inr unpassed
  rw [kept]
  split
  next isPassed => simp [isPassed]
  next notPassed => simp [notPassed]

theorem StoreIndex.KeepsOthers.mono {idx after : StoreIndex Key Value} {fewer more : Key → Prop}
    (keeps : idx.KeepsOthers fewer after) (subset : ∀ key, fewer key → more key) :
    idx.KeepsOthers more after := ⟨keeps.name, keeps.getIndexKeys, fun indexKey pk kept =>
    keeps.refers indexKey pk fun isFewer => kept (subset pk isFewer)⟩

/-- The deletion ends without error and removes exactly the records of the range, when and only
when nothing stands in its way. -/
theorem deleteRecord_range_iff (isNullish : Value → Bool) (range : IDBKeyRange Key)
    (store : StoreState Key Value) : ((deleteRecord isNullish range store).2 = none ∧
        RangeDeleted range store (deleteRecord isNullish range store).1) ↔
      Deletable isNullish range store := by
  constructor
  · intro deletes
    obtain ⟨succeeds, deleted⟩ := deletes
    obtain ⟨start, finds⟩ := deleteRecord_none_iff.mp succeeds
    obtain ⟨nonempty, above⟩ := startKey_isSome_iff.mp start
    have stops : range.Stops store.records := by
      by_contra misses
      obtain ⟨entry, passed, outside⟩ := passed_beyond misses
      have stored : entry ∈ store.records.entries := (mem_reached (takeWhile_subset _ passed)).1
      have gone := deleteRecord_get? succeeds entry.1
      rw [if_pos (List.mem_map_of_mem passed), deleted.records, if_neg (by simp [outside]),
        (store.records.get?_eq_some_iff entry.1 entry.2).mpr stored] at gone
      cases gone
    refine ⟨nonempty, above, stops, ?_⟩
    intro index member
    have ready := findsAll_iff_ready.mp (finds index member)
    rwa [passed_eq_includes stops] at ready
  · intro deletable
    have passed := passed_eq_includes deletable.upper
    have succeeds : (deleteRecord isNullish range store).2 = none := by
      apply deleteRecord_none_iff.mpr
      refine ⟨startKey_isSome_iff.mpr ⟨deletable.nonempty, deletable.above⟩, ?_⟩
      intro index member
      rw [passed]
      exact findsAll_iff_ready.mpr (deletable.indexes index member)
    refine ⟨succeeds, ?_, ?_⟩
    · intro key
      rw [deleteRecord_get? succeeds, passed]
      by_cases stored : key ∈ store.records.keys
      · obtain ⟨entry, isEntry, rfl⟩ := List.mem_map.mp stored
        congr 1
        rw [eq_iff_iff]
        constructor
        · intro isDeleted
          obtain ⟨other, isOther, same⟩ := List.mem_map.mp isDeleted
          rw [← same]
          exact (mem_filter.mp isOther).2
        · intro included
          exact List.mem_map_of_mem (mem_filter.mpr ⟨isEntry, included⟩)
      · have absent : store.records.get? key = none := by
          rw [← not_isSome_iff_eq_none]
          exact fun isSome => stored ((store.records.contains_iff key).mp isSome)
        rw [absent, ite_self, ite_self]
    · rw [(deleteRecord_eq succeeds).2, passed, List.forall₂_map_right_iff, List.forall₂_same]
      intro index member
      have finds := findsAll_iff_ready.mpr (deletable.indexes index member)
      apply (deleteEach_keepsOthers finds).mono
      intro key isDeleted
      obtain ⟨entry, isEntry, rfl⟩ := List.mem_map.mp isDeleted
      obtain ⟨stored, included⟩ := mem_filter.mp isEntry
      exact ⟨included, List.mem_map_of_mem stored⟩

def exampleStore : StoreState Nat Nat :=
  ⟨(SortedMap.empty.insert 1 10).insert 5 50, []⟩

/-- Below 3 there is only one record, but both are deleted. -/
theorem open_bound_passed :
    ¬ ((deleteRecord (fun _ => false) ⟨some 1, some 3, false, true⟩ exampleStore).2 = none ∧
      RangeDeleted ⟨some 1, some 3, false, true⟩ exampleStore
        (deleteRecord (fun _ => false) ⟨some 1, some 3, false, true⟩ exampleStore).1) := by
  intro deletes
  have kept := deletes.2.records 5
  have gone : (deleteRecord (fun _ => false) ⟨some 1, some 3, false, true⟩
      exampleStore).1.records.get? 5 = none := by decide
  exact absurd kept (by decide)

end Deletion

end Anastasis.Idb
