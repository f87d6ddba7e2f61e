import Anastasis.Idb.QueryReads

/-! What a query is to answer, and where reads of stores and of indexes start. -/

set_option autoImplicit false

namespace Anastasis.Idb

open Library List

variable {Key Value : Type} [LinearOrder Key]

/-- The content of a store and of the index a query goes through, if it does. -/
structure View (Key Value : Type) [LinearOrder Key] where
  store : SortedMap Key Value
  index : Option (SortedMap Key (List Key))
  nonempty : ∀ data ∈ index, ∀ entry ∈ data.entries, entry.2 ≠ []
  ascending : ∀ data ∈ index, ∀ entry ∈ data.entries, entry.2.Pairwise (· < ·)
  stored : ∀ data ∈ index, ∀ entry ∈ data.entries, ∀ primaryKey ∈ entry.2,
    store.contains primaryKey = true

def entryRecords (direction : IDBCursorDirection) (entry : Key × List Key) :
    List (Key × Key) :=
  if direction.unique then firstPair entry else pairsOf direction.forward entry

/-- All records, as index key and primary key, in the order of the direction. -/
def View.records (view : View Key Value) (direction : IDBCursorDirection) :
    List (Key × Key) :=
  match view.index with
  | none => (view.store.ordered direction.forward).map fun entry => (entry.1, entry.1)
  | some data => (data.ordered direction.forward).flatMap (entryRecords direction)

def View.enumeration (view : View Key Value) (direction : IDBCursorDirection)
    (range : IDBKeyRange Key) : List (Key × Key) :=
  (view.records direction).filter fun record => range.includes record.1

def RecordBefore (forward : Bool) (first second : Key × Key) : Prop :=
  Before forward first.1 second.1 ∨ first.1 = second.1 ∧ Before forward first.2 second.2

instance (forward : Bool) (first second : Key × Key) :
    Decidable (RecordBefore forward first second) :=
  inferInstanceAs (Decidable (_ ∨ _))

def BeforeAdvance (forward : Bool) (record : Key × Key) (advance : Key × Option Key) : Prop :=
  Before forward record.1 advance.1 ∨
    record.1 = advance.1 ∧ ∃ primaryKey ∈ advance.2, Before forward record.2 primaryKey

instance (forward : Bool) (record : Key × Key) (advance : Key × Option Key) :
    Decidable (BeforeAdvance forward record advance) :=
  inferInstanceAs (Decidable (_ ∨ _ ∧ ∃ primaryKey ∈ advance.2, _))

/-- Where a cursor stands: the last record it returned and the key it is to
advance to. -/
structure CursorPosition (Key : Type) where
  last : Option (Key × Key)
  advance : Option (Key × Option Key)

def View.expected (view : View Key Value) (direction : IDBCursorDirection)
    (range : IDBKeyRange Key) (position : CursorPosition Key) : List (Key × Key) :=
  (view.enumeration direction range).filter fun record =>
    position.last.all (fun last => decide (RecordBefore direction.forward last record)) &&
      position.advance.all fun advance =>
        !decide (BeforeAdvance direction.forward record advance)

/-- The cursor stands at a record of its range, and advances only beyond it. -/
structure View.Stands (view : View Key Value) (direction : IDBCursorDirection)
    (range : IDBKeyRange Key) (position : CursorPosition Key) : Prop where
  last : ∀ last ∈ position.last, last ∈ view.enumeration direction range
  beyond : ∀ advance ∈ position.advance, ∃ last ∈ position.last,
    Before direction.forward last.1 advance.1 ∨
      last.1 = advance.1 ∧ ∃ primaryKey ∈ advance.2, Before direction.forward last.2 primaryKey
  primary : ∀ advance ∈ position.advance, advance.2.isSome = true →
    view.index.isSome = true ∧ direction.unique = false

def View.request (view : View Key Value) (direction : IDBCursorDirection)
    (range : Option (IDBKeyRange Key)) (position : CursorPosition Key) (limit : Int)
    (level : ResultLevel) : RecordGetRequest Key :=
  let isIndex := view.index.isSome
  { direction := direction
    range := range
    lastIndexPosition := if isIndex then position.last.map Prod.fst else none
    lastObjectStorePosition := position.last.map Prod.snd
    advanceIndexKey := if isIndex then position.advance.map Prod.fst else none
    advancePrimaryKey :=
      if isIndex then position.advance.bind Prod.snd else position.advance.map Prod.fst
    limit := limit
    resultLevel := level }

def fullRange (range : Option (IDBKeyRange Key)) : IDBKeyRange Key :=
  range.getD ⟨none, none, true, true⟩

def View.response (view : View Key Value) (level : ResultLevel)
    (records : List (Key × Key)) : RecordGetResponse Key Value :=
  { values :=
      if level = .full then some (records.filterMap fun record => view.store.get? record.2)
      else none
    indexKeys :=
      if level ≠ .onlyCount ∧ view.index.isSome then some (records.map Prod.fst) else none
    primaryKeys := if level ≠ .onlyCount then some (records.map Prod.snd) else none
    count := records.length }

/-- A call returns exactly the first records yet to come, at every result level. -/
def View.Answers (view : View Key Value) (direction : IDBCursorDirection)
    (range : Option (IDBKeyRange Key)) (position : CursorPosition Key) (limit : Int) : Prop :=
  ∀ level, getRecords view.store view.index
      (view.request direction range position limit level) =
    .ok (view.response level
      (limited limit (view.expected direction (fullRange range) position)))

theorem View.expected_first (view : View Key Value) (direction : IDBCursorDirection)
    (range : IDBKeyRange Key) :
    view.expected direction range ⟨none, none⟩ = view.enumeration direction range := by
  simp [View.expected]

section Responses

variable (view : View Key Value)

theorem readValues_eq {pks : List Key} (stored : ∀ pk ∈ pks, view.store.contains pk = true) :
    readValues view.store pks = .ok (pks.filterMap view.store.get?) := by
  induction pks with
  | nil => rfl
  | cons pk rest ih =>
    obtain ⟨v, h⟩ := Option.isSome_iff_exists.mp (stored pk mem_cons_self)
    have later := ih fun key mem => stored key (mem_cons_of_mem _ mem)
    simp [readValues, h, later]

theorem respond_eq (level : ResultLevel) {records : List (Key × Key)}
    (stored : ∀ record ∈ records, view.store.contains record.2 = true) :
    respond view.store view.index.isSome level records = .ok (view.response level records) := by
  have storedKeys : ∀ pk ∈ records.map Prod.snd, view.store.contains pk = true := by
    intro pk mem
    obtain ⟨record, present, rfl⟩ := List.mem_map.mp mem
    exact stored record present
  cases level with
  | onlyCount => simp [respond, View.response]
  | onlyKeys => simp [respond, View.response]
  | full =>
    simp [respond, View.response, readValues_eq view storedKeys, filterMap_map]

theorem response_injective {x second : List (Key × Key)}
    (diagonal : view.index = none → ∀ record ∈ x ++ second, record.1 = record.2)
    (eq : view.response .onlyKeys x = view.response .onlyKeys second) : x = second := by
  have pks : x.map Prod.snd = second.map Prod.snd := by
    simpa [View.response] using congrArg RecordGetResponse.primaryKeys eq
  have keys : x.map Prod.fst = second.map Prod.fst := by
    cases source : view.index with
    | none =>
      have firstSame : x.map Prod.fst = x.map Prod.snd := map_congr_left fun record mem =>
          diagonal source record (mem_append_left _ mem)
      have secondSame : second.map Prod.fst = second.map Prod.snd :=
        map_congr_left fun record mem =>
          diagonal source record (mem_append_right _ mem)
      rw [firstSame, secondSame, pks]
    | some data =>
      simpa [View.response, source] using congrArg RecordGetResponse.indexKeys eq
  have zipped := congrArg₂ List.zip keys pks
  rwa [← unzip_fst, ← unzip_snd, ← unzip_fst, ← unzip_snd, zip_unzip, zip_unzip] at zipped

end Responses

section Ranges

variable (range : IDBKeyRange Key)

def IDBKeyRange.startBound (forward : Bool) : Option Key :=
  if forward then range.lower else range.upper

def IDBKeyRange.startOpen (forward : Bool) : Bool :=
  if forward then range.lowerOpen else range.upperOpen

def IDBKeyRange.startIncludes (forward : Bool) (key : Key) : Bool :=
  if forward then range.lowerIncludes key else range.upperIncludes key

def IDBKeyRange.endIncludes (forward : Bool) (key : Key) : Bool :=
  if forward then range.upperIncludes key else range.lowerIncludes key

theorem includes_eq (forward : Bool) (key : Key) :
    range.includes key = (range.startIncludes forward key && range.endIncludes forward key) := by
  cases forward with
  | true => rfl
  | false => exact Bool.and_comm _ _

theorem lowerIncludes_iff (key : Key) : range.lowerIncludes key = true ↔
    ∀ lower ∈ range.lower, lower < key ∨ lower = key ∧ range.lowerOpen = false := by
  cases bound : range.lower with
  | none => simp [IDBKeyRange.lowerIncludes, bound]
  | some lower =>
    rcases lt_trichotomy lower key with less | eq | more
    · simp [IDBKeyRange.lowerIncludes, bound, (compareKeys_lt_iff lower key).mpr less, less]
    · cases eq
      simp [IDBKeyRange.lowerIncludes, bound, (compareKeys_eq_iff key key).mpr rfl]
    · simp [IDBKeyRange.lowerIncludes, bound, (compareKeys_gt_iff lower key).mpr more,
        more.not_gt, more.ne']

theorem upperIncludes_iff (key : Key) : range.upperIncludes key = true ↔
    ∀ upper ∈ range.upper, key < upper ∨ upper = key ∧ range.upperOpen = false := by
  cases bound : range.upper with
  | none => simp [IDBKeyRange.upperIncludes, bound]
  | some upper =>
    rcases lt_trichotomy upper key with less | eq | more
    · simp [IDBKeyRange.upperIncludes, bound, (compareKeys_lt_iff upper key).mpr less,
        less.not_gt, less.ne]
    · cases eq
      simp [IDBKeyRange.upperIncludes, bound, (compareKeys_eq_iff key key).mpr rfl]
    · simp [IDBKeyRange.upperIncludes, bound, (compareKeys_gt_iff upper key).mpr more, more]

theorem startIncludes_iff (forward : Bool) (key : Key) :
    range.startIncludes forward key = true ↔ ∀ bound ∈ range.startBound forward,
      Before forward bound key ∨ bound = key ∧ range.startOpen forward = false := by
  cases forward with
  | true => simpa [IDBKeyRange.startIncludes, IDBKeyRange.startBound, IDBKeyRange.startOpen]
      using lowerIncludes_iff range key
  | false => simpa [IDBKeyRange.startIncludes, IDBKeyRange.startBound, IDBKeyRange.startOpen]
      using upperIncludes_iff range key

variable {range}

theorem startIncludes_mono {forward : Bool} {x y : Key} (early : Before forward x y)
    (included : range.startIncludes forward x = true) : range.startIncludes forward y = true := by
  apply (startIncludes_iff range forward y).mpr
  intro bound isBound
  rcases (startIncludes_iff range forward x).mp included bound isBound with between | eq
  · exact .inl (between.trans early)
  · exact .inl (eq.1 ▸ early)

theorem endIncludes_closed (forward : Bool) (first second : Key)
    (early : Before forward first second) (included : range.endIncludes forward second = true) :
    range.endIncludes forward first = true := by
  have flipped : Before (!forward) second first := by
    cases forward <;> simpa using early
  have started : range.startIncludes (!forward) second = true := by
    cases forward <;> exact included
  have result := startIncludes_mono flipped started
  cases forward <;> exact result

theorem includes_between {x y third : Key} (early : x < y)
    (late : y ≤ third) (firstInside : range.includes x = true)
    (thirdInside : range.includes third = true) : range.includes y = true := by
  rcases late.eq_or_lt with rfl | late
  · exact thirdInside
  rw [includes_eq range true, Bool.and_eq_true] at firstInside thirdInside ⊢
  exact ⟨startIncludes_mono (by simpa using early) firstInside.1,
    endIncludes_closed true y third (by simpa using late) thirdInside.2⟩

/-- Beyond the start of the range a walk passes the records of the range in one
block. -/
theorem takeWhile_includes {Item : Type} {forward : Bool} {entries : List (Key × Item)}
    (walk : Walk forward entries)
    (started : ∀ e ∈ entries, range.startIncludes forward e.1 = true) :
    entries.takeWhile (fun e => range.includes e.1) =
      entries.filter fun e => range.includes e.1 := by
  apply walk.takeWhile_eq_filter
  intro x firstMember y _ early included
  rw [includes_eq range forward, Bool.and_eq_true] at included ⊢
  exact ⟨started x firstMember, endIncludes_closed forward _ _ early included.2⟩

variable {Item : Type} {data : SortedMap Key Item} {forward : Bool} {bound : Key}

theorem block_beginning (noBound : range.startBound forward = none) :
    (data.ordered forward).takeWhile (fun e => range.includes e.1) =
      (data.ordered forward).filter fun e => range.includes e.1 := by
  apply takeWhile_includes (data.ordered_walk forward)
  intro e _
  apply (startIncludes_iff range forward e.1).mpr
  simp [noBound]

theorem block_bound (isBound : range.startBound forward = some bound)
    (closed : bound ∈ data.keys → range.startOpen forward = false) :
    ((data.ordered forward).dropWhile fun e =>
      decide (Before forward e.1 bound)).takeWhile (fun e => range.includes e.1) =
      (data.ordered forward).filter fun e => range.includes e.1 := by
  have walk := data.ordered_walk forward
  rw [takeWhile_includes (walk.sublist (dropWhile_sublist _)), ← walk.filter_from,
    List.filter_filter]
  · apply filter_congr
    intro e _
    cases inside : range.includes e.1 with
    | false => rfl
    | true =>
      rw [includes_eq range forward, Bool.and_eq_true] at inside
      rcases (startIncludes_iff _ _ _).mp inside.1 bound isBound with late | ⟨eq, _⟩
      · simp [late.asymm]
      · simp [← eq, Before.irrefl]
  · intro e mem
    rw [← walk.filter_from] at mem
    obtain ⟨present, late⟩ := mem_filter.mp mem
    apply (startIncludes_iff _ _ _).mpr
    intro eq isSame
    rw [isBound] at isSame
    cases isSame
    by_cases equal : bound = e.1
    · have stored : bound ∈ data.keys := by
        rw [equal]
        exact List.mem_map.mpr ⟨e, (data.mem_ordered _ e).mp present, rfl⟩
      exact .inr ⟨equal, closed stored⟩
    · exact .inl (before_of_not_before_ne (by simpa using late) equal)

theorem not_includes_bound (isBound : range.startBound forward = some bound)
    (isOpen : range.startOpen forward = true) : range.includes bound = false := by
  cases mem : range.includes bound with
  | false => rfl
  | true =>
    rw [includes_eq range forward, Bool.and_eq_true] at mem
    rcases (startIncludes_iff _ _ _).mp mem.1 bound isBound with late | ⟨_, closed⟩
    · exact absurd late (Before.irrefl _ _)
    · simp [isOpen] at closed

theorem block_open (isBound : range.startBound forward = some bound)
    (stored : bound ∈ data.keys) (isOpen : range.startOpen forward = true) :
    ((data.ordered forward).dropWhile fun e =>
      decide (Before forward e.1 bound)).takeWhile (fun e => range.includes e.1) = [] := by
  obtain ⟨e, present, isEntry⟩ := List.mem_map.mp stored
  obtain ⟨pre, rest, split⟩ := append_of_mem ((data.mem_ordered forward e).mpr present)
  have walk := data.ordered_walk forward
  rw [split] at walk
  rw [split, ← isEntry, walk.dropWhile_at]
  apply takeWhile_cons_of_neg
  rw [isEntry, not_includes_bound isBound isOpen]
  exact Bool.false_ne_true

theorem block_advance {last advance : Key} (beyond : Before forward last advance)
    (inside : range.includes last = true) : ((data.ordered forward).dropWhile fun e =>
      decide (Before forward e.1 advance)).takeWhile (fun e => range.includes e.1) =
      (data.ordered forward).filter fun e =>
        range.includes e.1 && !decide (Before forward e.1 advance) := by
  have walk := data.ordered_walk forward
  rw [takeWhile_includes (walk.sublist (dropWhile_sublist _)), ← walk.filter_from,
    List.filter_filter]
  intro e mem
  rw [← walk.filter_from] at mem
  have late : ¬ Before forward e.1 advance := by simpa using (mem_filter.mp mem).2
  rw [includes_eq range forward, Bool.and_eq_true] at inside
  exact startIncludes_mono (beyond.of_not_before late) inside.1

theorem block_after {pre rest : List (Key × Item)} {e : Key × Item}
    (split : data.ordered forward = pre ++ e :: rest) (inside : range.includes e.1 = true) :
    rest.takeWhile (fun e => range.includes e.1) = rest.filter fun e => range.includes e.1 := by
  have walk := data.ordered_walk forward
  rw [split] at walk
  apply takeWhile_includes walk.of_append.tail
  intro later mem
  rw [includes_eq range forward, Bool.and_eq_true] at inside
  exact startIncludes_mono (walk.of_append.head_before later mem) inside.1

end Ranges

end Anastasis.Idb
