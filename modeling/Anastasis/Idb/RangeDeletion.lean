import Anastasis.Idb.StoreQueries
import Anastasis.Library.SortedMapUpdates
import Mathlib.Data.List.Lex

/-! Deleting the records of a key range, with their entries in the indexes. -/

set_option autoImplicit false

namespace Anastasis.Idb

open Library List

variable {Key Value : Type}

/-- An index of a store: how it finds its keys in a value, and its entries, unless it is missing. -/
structure StoreIndex (Key Value : Type) [LinearOrder Key] where
  name : String
  getIndexKeys : Value → Except BackendError (List Key)
  data : Option (SortedMap Key (List Key))

/-- The records of an object store and its indexes, in the order of the schema. -/
structure StoreState (Key Value : Type) [LinearOrder Key] where
  records : SortedMap Key Value
  indexes : List (StoreIndex Key Value)

variable [LinearOrder Key]

/-- An entry without a primary key; the entry itself goes with its last one. -/
def deletePrimaryKey (indexData : SortedMap Key (List Key)) (primaryKey indexKey : Key)
    (primaryKeys : List Key) : SortedMap Key (List Key) :=
  let newPrimaryKeys := primaryKeys.filter fun x => compareKeys x primaryKey != .eq
  if newPrimaryKeys.isEmpty then indexData.erase indexKey
  else indexData.insert indexKey newPrimaryKeys

/-- The loop over the index keys. Every round changes the entries from before the loop. -/
def deleteIndexKeys (indexData : SortedMap Key (List Key)) (primaryKey : Key) :
    List Key → SortedMap Key (List Key) → SortedMap Key (List Key) × Option BackendError
  | [], modifiedData => (modifiedData, none)
  | indexKey :: rest, modifiedData =>
    match indexData.get? indexKey with
    | none => (modifiedData, some (.error "db inconsistent: expected index entry missing"))
    | some primaryKeys =>
      deleteIndexKeys indexData primaryKey rest
        (deletePrimaryKey indexData primaryKey indexKey primaryKeys)

section Deletion

variable (isNullish : Value → Bool)

def deleteFromIndex (primaryKey : Key) (value : Value) (index : StoreIndex Key Value) :
    StoreIndex Key Value × Option BackendError :=
  match index.data with
  | none => (index, some (.error "index referenced by object store does not exist"))
  | some indexData =>
    if isNullish value then
      (index, some (.error "cannot delete null/undefined value from index"))
    else
      match index.getIndexKeys value with
      | .error thrown => (index, some thrown)
      | .ok indexKeys =>
        let deleted := deleteIndexKeys indexData primaryKey indexKeys indexData
        ({ index with data := some deleted.1 }, deleted.2)

def deleteFromIndexes (primaryKey : Key) (value : Value) :
    List (StoreIndex Key Value) → List (StoreIndex Key Value) × Option BackendError
  | [] => ([], none)
  | index :: rest =>
    match deleteFromIndex isNullish primaryKey value index with
    | (index, some thrown) => (index :: rest, some thrown)
    | (index, none) =>
      let deleted := deleteFromIndexes primaryKey value rest
      (index :: deleted.1, deleted.2)

/-- The walk ends before a key. An open upper bound is only compared for equality. -/
def IDBKeyRange.stops (range : IDBKeyRange Key) (currKey : Key) : Bool :=
  match range.upper with
  | none => false
  | some upper =>
    (range.upperOpen && compareKeys currKey upper == .eq) ||
      (!range.upperOpen && compareKeys currKey upper == .gt)

def IDBKeyRange.startKey (range : IDBKeyRange Key) (data : SortedMap Key Value) : Option Key :=
  match range.lower with
  | none => data.minKey
  | some lower => if range.lowerOpen then data.nextHigherKey lower else some lower

def deleteLoop (range : IDBKeyRange Key) :
    Nat → Option Key → SortedMap Key Value → List (StoreIndex Key Value) →
      SortedMap Key Value × List (StoreIndex Key Value) × Option BackendError
  | 0, _, data, indexes => (data, indexes, some .doesNotReturn)
  | _ + 1, none, data, indexes => (data, indexes, none)
  | fuel + 1, some currKey, data, indexes =>
    if range.stops currKey then (data, indexes, none)
    else
      match data.get? currKey with
      | none => (data, indexes, some (.error "assertion failed"))
      | some value =>
        match deleteFromIndexes isNullish currKey value indexes with
        | (indexes, some thrown) => (data, indexes, some thrown)
        | (indexes, none) =>
          let data := data.erase currKey
          deleteLoop range fuel (data.nextHigherKey currKey) data indexes

def deleteRecord (range : IDBKeyRange Key) (store : StoreState Key Value) :
    StoreState Key Value × Option BackendError :=
  match range.startKey store.records with
  | none => (store, some (.error "invariant violated"))
  | some currKey =>
    let first :=
      if store.records.contains currKey then some currKey
      else store.records.nextHigherKey currKey
    match deleteLoop isNullish range (store.records.entries.length + 1) first store.records
        store.indexes with
    | (data, indexes, none) => (⟨data, indexes⟩, none)
    | (_, indexes, some thrown) => (⟨store.records, indexes⟩, some thrown)

end Deletion

/-! ## What a deletion should do -/

def StoreIndex.Refers (index : StoreIndex Key Value) (indexKey primaryKey : Key) : Prop :=
  ∃ data primaryKeys, index.data = some data ∧ data.get? indexKey = some primaryKeys ∧
    primaryKey ∈ primaryKeys

/-- The index is the same but for the primary keys that are deleted. -/
structure StoreIndex.KeepsOthers (deleted : Key → Prop) (before after : StoreIndex Key Value) :
    Prop where
  name : after.name = before.name
  getIndexKeys : after.getIndexKeys = before.getIndexKeys
  refers : ∀ indexKey primaryKey, ¬ deleted primaryKey →
    (after.Refers indexKey primaryKey ↔ before.Refers indexKey primaryKey)

/-- Exactly the records of the range are gone, and the indexes still have all other ones. -/
structure RangeDeleted (range : IDBKeyRange Key) (before after : StoreState Key Value) : Prop where
  records : ∀ key, after.records.get? key =
    if range.includes key then none else before.records.get? key
  indexes : List.Forall₂
    (StoreIndex.KeepsOthers fun key => range.includes key = true ∧ key ∈ before.records.keys)
    before.indexes after.indexes

/-! ## What stands in its way -/

/-- The primary keys of the records that have an index key as their last one. -/
def StoreIndex.filedUnder (index : StoreIndex Key Value) (indexKey : Key)
    (entries : List (Key × Value)) : List Key :=
  (entries.filter fun entry =>
    (index.getIndexKeys entry.2).toOption.any fun indexKeys =>
      indexKeys.getLast? == some indexKey).map Prod.fst

def Outlasts (data : SortedMap Key (List Key)) (indexKey : Key) (deleted : List Key) : Prop :=
  ∃ primaryKeys, data.get? indexKey = some primaryKeys ∧
    (deleted = [] ∨ ∃ primaryKey ∈ primaryKeys, primaryKey ∉ deleted)

/-- When the records are deleted one after the other, the index has an entry for each of their
index keys. -/
def StoreIndex.Ready (isNullish : Value → Bool) (index : StoreIndex Key Value)
    (entries : List (Key × Value)) : Prop :=
  ∀ before entry after, entries = before ++ entry :: after →
    isNullish entry.2 = false ∧ ∃ data indexKeys, index.data = some data ∧
      index.getIndexKeys entry.2 = .ok indexKeys ∧
      ∀ indexKey ∈ indexKeys, Outlasts data indexKey (index.filedUnder indexKey before)

def StoreState.recordsIn (store : StoreState Key Value) (range : IDBKeyRange Key) :
    List (Key × Value) :=
  store.records.entries.filter fun entry => range.includes entry.1

/-- There is a key to start from; an open upper bound is met, or no record is above it; and the
indexes are ready. -/
structure Deletable (isNullish : Value → Bool) (range : IDBKeyRange Key)
    (store : StoreState Key Value) : Prop where
  nonempty : range.lower = none → ∃ key, key ∈ store.records.keys
  above : ∀ lower, range.lower = some lower → range.lowerOpen = true →
    ∃ key ∈ store.records.keys, lower < key
  upper : ∀ upper, range.upper = some upper → range.upperOpen = true →
    (upper ∈ store.records.keys ∧ range.lowerIncludes upper = true) ∨
      ∀ key ∈ store.records.keys, range.lowerIncludes key = true → key < upper
  indexes : ∀ index ∈ store.indexes, index.Ready isNullish (store.recordsIn range)

/-! ## Deleting from one index -/

section Index

variable {indexData modifiedData : SortedMap Key (List Key)} {primaryKey pk indexKey : Key}
  {primaryKeys pks : List Key}

theorem compareKeys_bne (x y : Key) : (compareKeys x y != .eq) = decide (x ≠ y) := by
  by_cases same : x = y
  · simp [compareKeys, same]
  have ne : compareKeys x y ≠ .eq := fun equal =>
    same (compare_eq_iff_eq.mp equal)
  simp [same, ne]

theorem deletePrimaryKey_get? (other : Key) :
    (deletePrimaryKey indexData primaryKey indexKey pks).get? other = if other = indexKey then
        if pks.filter (fun x => x ≠ primaryKey) = [] then none
        else some (pks.filter fun x => x ≠ primaryKey)
      else indexData.get? other := by
  have same : (pks.filter fun x => compareKeys x primaryKey != .eq) =
      pks.filter fun x => x ≠ primaryKey := by
    congr 1
    funext x
    exact compareKeys_bne x primaryKey
  rw [deletePrimaryKey, same]
  simp only [List.isEmpty_iff]
  split
  next => rw [SortedMap.get?_erase]
  next => rw [SortedMap.get?_insert]

def deletedLast (indexData : SortedMap Key (List Key)) (primaryKey : Key)
    (indexKeys : List Key) : SortedMap Key (List Key) :=
  match indexKeys.getLast? with
  | none => indexData
  | some indexKey =>
    deletePrimaryKey indexData primaryKey indexKey ((indexData.get? indexKey).getD [])

theorem deleteIndexKeys_none_iff {indexKeys : List Key} :
    (deleteIndexKeys indexData pk indexKeys modifiedData).2 = none ↔
      ∀ indexKey ∈ indexKeys, ∃ primaryKeys, indexData.get? indexKey = some primaryKeys := by
  induction indexKeys generalizing modifiedData with
  | nil => simp [deleteIndexKeys]
  | cons indexKey rest ih =>
    unfold deleteIndexKeys
    cases h : indexData.get? indexKey with
    | none => simp [h]
    | some primaryKeys =>
      rw [forall_mem_cons, ih]
      exact (and_iff_right ⟨primaryKeys, h⟩).symm

theorem deleteIndexKeys_eq {indexKeys : List Key}
    (h : ∀ indexKey ∈ indexKeys, ∃ pks, indexData.get? indexKey = some pks) :
    (deleteIndexKeys indexData primaryKey indexKeys modifiedData).1 =
      if indexKeys = [] then modifiedData else deletedLast indexData primaryKey indexKeys := by
  induction indexKeys generalizing modifiedData with
  | nil => rfl
  | cons indexKey rest ih =>
    obtain ⟨pks, isEntry⟩ := h indexKey mem_cons_self
    have later := @ih (deletePrimaryKey indexData primaryKey indexKey pks)
      fun other mem => h other (mem_cons_of_mem indexKey mem)
    rw [deleteIndexKeys, isEntry]
    dsimp only
    rw [later, if_neg (cons_ne_nil indexKey rest)]
    cases rest with
    | nil =>
      rw [if_pos rfl, deletedLast, getLast?_singleton]
      simp only [isEntry, Option.getD_some]
    | cons y ys =>
      rw [if_neg (cons_ne_nil y ys), deletedLast, deletedLast, getLast?_cons_cons]

/-- An entry outlasts a deletion under its key as it outlasts one more primary key. -/
theorem outlasts_deletedLast {indexKeys deleted : List Key}
    (h : ∀ indexKey ∈ indexKeys, ∃ pks, indexData.get? indexKey = some pks) :
    Outlasts (deletedLast indexData primaryKey indexKeys) indexKey deleted ↔
      Outlasts indexData indexKey
        (if indexKeys.getLast? = some indexKey then primaryKey :: deleted else deleted) := by
  unfold deletedLast
  cases last : indexKeys.getLast? with
  | none => simp
  | some lastKey =>
    dsimp only
    by_cases eq : indexKey = lastKey
    · subst eq
      obtain ⟨pks, isEntry⟩ := h indexKey (mem_of_getLast? last)
      rw [if_pos rfl]
      unfold Outlasts
      rw [deletePrimaryKey_get?, if_pos rfl, isEntry, Option.getD_some]
      constructor
      · intro outlasts
        obtain ⟨remaining, isRemaining, either⟩ := outlasts
        split at isRemaining
        next => cases isRemaining
        next some =>
          cases isRemaining
          refine ⟨pks, rfl, .inr ?_⟩
          rcases either with rfl | ys
          · obtain ⟨kept, isKept⟩ := exists_mem_of_ne_nil _ some
            obtain ⟨mem, ne⟩ := mem_filter.mp isKept
            exact ⟨kept, mem, by simpa using ne⟩
          obtain ⟨kept, isKept, notDeleted⟩ := ys
          obtain ⟨mem, ne⟩ := mem_filter.mp isKept
          refine ⟨kept, mem, ?_⟩
          intro isDeleted
          rcases mem_cons.mp isDeleted with isSame | later
          · exact of_decide_eq_true ne isSame
          · exact notDeleted later
      · intro outlasts
        obtain ⟨all, isAll, either⟩ := outlasts
        cases isAll
        rcases either with empty | ys
        · cases empty
        obtain ⟨kept, mem, notDeleted⟩ := ys
        have isKept : kept ∈ pks.filter fun x => x ≠ primaryKey := by
          apply mem_filter.mpr
          refine ⟨mem, decide_eq_true ?_⟩
          intro eq
          exact notDeleted (eq ▸ mem_cons_self)
        refine ⟨_, if_neg (ne_nil_of_mem isKept), .inr ⟨kept, isKept, ?_⟩⟩
        exact fun later => notDeleted (mem_cons_of_mem _ later)
    · have y : ¬ some lastKey = some indexKey := fun equal =>
        eq (Option.some.inj equal).symm
      rw [if_neg y]
      unfold Outlasts
      rw [deletePrimaryKey_get?, if_neg eq]

end Index

section OneIndex

variable {isNullish : Value → Bool} {index idx : StoreIndex Key Value} {primaryKey pk : Key}
  {value v : Value}

variable (isNullish) in
def StoreIndex.Finds (value : Value) (index : StoreIndex Key Value) : Prop :=
  isNullish value = false ∧ ∃ data indexKeys, index.data = some data ∧
    index.getIndexKeys value = .ok indexKeys ∧
    ∀ indexKey ∈ indexKeys, ∃ primaryKeys, data.get? indexKey = some primaryKeys

theorem deleteFromIndex_none_iff :
    (deleteFromIndex isNullish pk value idx).2 = none ↔ idx.Finds isNullish value := by
  unfold deleteFromIndex StoreIndex.Finds
  cases isData : idx.data with
  | none => simp
  | some data =>
    cases nullish : isNullish value with
    | true => simp
    | false =>
      cases keys : idx.getIndexKeys value with
      | error thrown => simp
      | ok indexKeys => simp [deleteIndexKeys_none_iff]

theorem deleteFromIndex_getIndexKeys :
    (deleteFromIndex isNullish pk v idx).1.getIndexKeys = idx.getIndexKeys := by
  unfold deleteFromIndex
  split
  · rfl
  split
  · rfl
  split
  · rfl
  · rfl

theorem deleteFromIndex_data {data : SortedMap Key (List Key)} {indexKeys : List Key}
    (isData : idx.data = some data) (has : isNullish v = false)
    (keys : idx.getIndexKeys v = .ok indexKeys)
    (h : ∀ indexKey ∈ indexKeys, ∃ pks, data.get? indexKey = some pks) :
    (deleteFromIndex isNullish pk v idx).1.data = some (deletedLast data pk indexKeys) := by
  unfold deleteFromIndex
  simp only [isData, has, Bool.false_eq_true, if_false, keys]
  rw [deleteIndexKeys_eq h]
  split
  next empty => rw [empty]; rfl
  next => rfl

variable (isNullish) in
def StoreIndex.FindsAll : List (Key × Value) → StoreIndex Key Value → Prop
  | [], _ => True
  | entry :: rest, index => index.Finds isNullish entry.2 ∧
      StoreIndex.FindsAll rest (deleteFromIndex isNullish entry.1 entry.2 index).1

theorem findsAll_iff_ready {entries : List (Key × Value)} :
    StoreIndex.FindsAll isNullish entries idx ↔ idx.Ready isNullish entries := by
  induction entries generalizing idx with
  | nil =>
    apply iff_of_true trivial
    intro before e after shape
    exact absurd shape (by simp)
  | cons x rest ih =>
    have filed : ∀ indexKeys, idx.getIndexKeys x.2 = .ok indexKeys →
        ∀ (indexKey : Key) (before : List (Key × Value)), idx.filedUnder indexKey (x :: before) =
            if indexKeys.getLast? = some indexKey then
              x.1 :: idx.filedUnder indexKey before
            else idx.filedUnder indexKey before := by
      intro indexKeys keys indexKey before
      unfold StoreIndex.filedUnder
      rw [filter_cons, keys]
      simp only [Except.toOption, Option.any_some, beq_iff_eq]
      split
      next => rfl
      next => rfl
    unfold StoreIndex.FindsAll
    rw [ih]
    constructor
    · intro finds
      obtain ⟨⟨has, data, indexKeys, isData, keys, h⟩, later⟩ := finds
      intro before e after shape
      cases before with
      | nil =>
        cases shape
        refine ⟨has, data, indexKeys, isData, keys, ?_⟩
        intro indexKey mem
        obtain ⟨primaryKeys, isEntry⟩ := h indexKey mem
        exact ⟨primaryKeys, isEntry, .inl rfl⟩
      | cons head before =>
        cases shape
        obtain ⟨present', data', indexKeys', isData', keys', outlast⟩ := later before e after rfl
        rw [deleteFromIndex_data isData has keys h] at isData'
        cases isData'
        rw [deleteFromIndex_getIndexKeys] at keys'
        refine ⟨present', data, indexKeys', isData, keys', ?_⟩
        intro indexKey mem
        have lasts := outlast indexKey mem
        rw [outlasts_deletedLast h] at lasts
        rw [filed indexKeys keys]
        have eq : (deleteFromIndex isNullish x.1 x.2 idx).1.filedUnder indexKey
            before = idx.filedUnder indexKey before := by
          unfold StoreIndex.filedUnder
          rw [deleteFromIndex_getIndexKeys]
        rw [eq] at lasts
        exact lasts
    · intro ready
      obtain ⟨has, data, indexKeys, isData, keys, outlast⟩ := ready [] x rest rfl
      have h : ∀ indexKey ∈ indexKeys, ∃ primaryKeys, data.get? indexKey = some primaryKeys := by
        intro indexKey mem
        obtain ⟨primaryKeys, isEntry, _⟩ := outlast indexKey mem
        exact ⟨primaryKeys, isEntry⟩
      refine ⟨⟨has, data, indexKeys, isData, keys, h⟩, ?_⟩
      intro before e after shape
      obtain ⟨present', data', indexKeys', isData', keys', outlast'⟩ :=
        ready (x :: before) e after (by rw [shape, cons_append])
      rw [isData] at isData'
      cases isData'
      refine ⟨present', _, indexKeys', deleteFromIndex_data isData has keys h, ?_, ?_⟩
      · rw [deleteFromIndex_getIndexKeys]
        exact keys'
      intro indexKey mem
      have lasts := outlast' indexKey mem
      rw [filed indexKeys keys] at lasts
      rw [outlasts_deletedLast h]
      have eq : (deleteFromIndex isNullish x.1 x.2 idx).1.filedUnder indexKey
          before = idx.filedUnder indexKey before := by
        unfold StoreIndex.filedUnder
        rw [deleteFromIndex_getIndexKeys]
      rw [eq]
      exact lasts

end OneIndex

end Anastasis.Idb
