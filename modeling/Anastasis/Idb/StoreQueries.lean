import Anastasis.Idb.QueryAnswers

/-! Reads of a store without an index. -/

set_option autoImplicit false

namespace Anastasis.Idb

open Library List

variable {Key Value : Type} [LinearOrder Key]

section Reads

variable {data : SortedMap Key Value} {req : RecordGetRequest Key}

theorem storeRead_from {pre rest : List (Key × Value)} (noIndex : req.advanceIndexKey = none)
    (split : data.ordered req.forward = pre ++ rest)
    (start : storeStart data req = rest.head?.map Prod.fst) :
    storeRead data req = .ok (limited req.limit
      ((rest.takeWhile fun e => req.keyRange.includes e.1).map Prod.fst)) := by
  have enough : rest.length < data.entries.length + 1 := by
    rw [← data.length_ordered req.forward, split, length_append]
    omega
  have walk := storeLoop_walk data req split enough (Room.nil req.limit)
  simp [storeRead, noIndex, start, walk]

theorem storeRead_outside (noIndex : req.advanceIndexKey = none) {pos : Key}
    (start : storeStart data req = some pos) (outside : req.keyRange.includes pos = false) :
    storeRead data req = .ok [] := by
  have loop := @storeLoop_outside _ _ _ data req data.entries.length pos (.inl outside)
  simp [storeRead, noIndex, start, loop]

theorem storeRead_none (noIndex : req.advanceIndexKey = none)
    (start : storeStart data req = none) : storeRead data req = .ok [] := by
  have walk := @storeRead_from _ _ _ data req (data.ordered req.forward) [] noIndex
    (by simp) (by simpa using start)
  simpa [limited_nil] using walk

theorem from_position (forward : Bool) (pos : Key) : (if data.contains pos then some pos
      else (data.nextPair forward pos).map Prod.fst) =
      ((data.ordered forward).dropWhile fun e =>
        decide (Before forward e.1 pos)).head?.map Prod.fst := by
  rw [← data.pair_or_nextPair]
  cases h : data.get? pos with
  | none => simp [SortedMap.contains, h]
  | some v => simp [SortedMap.contains, h]

theorem storeStart_bound (noLast : req.lastObjectStorePosition = none)
    (noAdvance : req.advancePrimaryKey = none) : storeStart data req = match req.startBound with
      | none => (data.ordered req.forward).head?.map Prod.fst
      | some bound => if data.contains bound then some bound else data.nextHigherKey bound := by
  rw [storeStart, noLast, noAdvance, SortedMap.head?_ordered]
  cases req.startBound with
  | none => simp [furthestKey]
  | some bound =>
    cases kept : data.contains bound <;> simp [furthestKey, kept]

theorem storeStart_last {last : Key} (isLast : req.lastObjectStorePosition = some last)
    (noAdvance : req.advancePrimaryKey = none) : storeStart data req = data.nextHigherKey last := by
  simp [storeStart, isLast, noAdvance, furthestKey, compareKeys_beq_eq]

theorem furthestKey_beyond {forward : Bool} {last advance : Key}
    (beyond : Before forward last advance) :
    furthestKey forward (some advance) (some last) = some advance := by
  cases forward with
  | true =>
    have more := (compareKeys_gt_iff advance last).mpr (by simpa using beyond)
    simp [furthestKey, more]
  | false =>
    have less := (compareKeys_lt_iff advance last).mpr (by simpa using beyond)
    simp [furthestKey, less]

theorem storeStart_advance {last advance : Key} (isLast : req.lastObjectStorePosition = some last)
    (isAdvance : req.advancePrimaryKey = some advance) (beyond : Before req.forward last advance) :
    storeStart data req =
      if data.contains advance then some advance else data.nextHigherKey advance := by
  have different := beyond.ne
  cases kept : data.contains advance <;>
    simp [storeStart, isLast, isAdvance, furthestKey_beyond beyond, kept,
      compareKeys_beq_eq, different]

theorem storeRead_position (noIndex : req.advanceIndexKey = none) {pos : Key}
    (start : storeStart data req = if data.contains pos then some pos else data.nextHigherKey pos)
    (usual : req.forward = true ∨ data.contains pos = true) :
    storeRead data req = .ok (limited req.limit ((((data.ordered req.forward).dropWhile fun e =>
        decide (Before req.forward e.1 pos)).takeWhile fun e =>
          req.keyRange.includes e.1).map Prod.fst)) := by
  apply storeRead_from noIndex (takeWhile_append_dropWhile).symm
  rw [start, ← from_position]
  rcases usual with forward | kept
  · simp [SortedMap.nextHigherKey, SortedMap.nextPair, forward]
  · simp [kept]

end Reads

theorem nextHigherKey_spec {data : SortedMap Key Value} {key higher : Key}
    (next : data.nextHigherKey key = some higher) : key < higher ∧ higher ∈ data.keys := by
  obtain ⟨e, isEntry, rfl⟩ := Option.map_eq_some_iff.mp next
  have more := find?_some isEntry
  exact ⟨by simpa using more,
    List.mem_map.mpr ⟨e, mem_of_find?_eq_some isEntry, rfl⟩⟩

theorem nextHigherKey_le {data : SortedMap Key Value} {key other : Key}
    (mem : other ∈ data.keys) (above : key < other) :
    ∃ higher, data.nextHigherKey key = some higher ∧ higher ≤ other := by
  obtain ⟨e, has, rfl⟩ := List.mem_map.mp mem
  cases h : data.entries.find? (fun e => decide (key < e.1)) with
  | none =>
    have gone := find?_eq_none.mp h e has
    simp [above] at gone
  | some next =>
    refine ⟨next.1, by simp [SortedMap.nextHigherKey, SortedMap.nextHigherPair, h], ?_⟩
    obtain ⟨isNext, pre, after, split, skipped⟩ := find?_eq_some_iff_append.mp h
    rw [split] at has
    rcases mem_append.mp has with old | later
    · have notAbove := skipped e old
      simp [above] at notAbove
    rcases mem_cons.mp later with rfl | further
    · exact le_rfl
    have sorted := data.sorted
    rw [split] at sorted
    exact ((pairwise_cons.mp (pairwise_append.mp sorted).2.1).1 e further).le

/-- When a read of a store is right: a forward one does not start at a stored
key that its range leaves out; a backward one, which always goes on with the
next higher key, starts at a stored key of its range or has nothing to return. -/
def StoreMeets (view : View Key Value) (direction : IDBCursorDirection)
    (range : IDBKeyRange Key) (position : CursorPosition Key) : Prop :=
  match direction.forward, position.last, position.advance with
  | true, none, _ =>
    ∀ lower ∈ range.lower, range.lowerOpen = true → lower ∈ view.store.keys →
      view.enumeration direction range = []
  | true, some _, _ => True
  | false, none, _ =>
    ∀ upper ∈ range.upper, upper ∈ view.store.keys ∧ range.upperOpen = false ∨
      view.enumeration direction range = []
  | false, some last, none => ∀ key ∈ view.store.keys, range.includes key = true → key = last.2
  | false, some _, some advance =>
    advance.1 ∈ view.store.keys ∨
      ∀ higher ∈ view.store.nextHigherKey advance.1, range.includes higher = false

def keyRecord (entry : Key × Value) : Key × Key := (entry.1, entry.1)

section Expected

variable {view : View Key Value} {direction dir : IDBCursorDirection} {range rg : IDBKeyRange Key}
  {position pos : CursorPosition Key}

theorem enumeration_store (src : view.index = none) : view.enumeration dir rg =
      ((view.store.ordered dir.forward).filter fun e =>
        rg.includes e.1).map keyRecord := by
  simp only [View.enumeration, View.records, src]
  rw [List.filter_map]
  rfl

theorem mem_enumeration_store (src : view.index = none) {r : Key × Key} :
    r ∈ view.enumeration dir rg ↔ r.1 = r.2 ∧ r.1 ∈ view.store.keys ∧ rg.includes r.1 = true := by
  rw [enumeration_store src, List.mem_map]
  constructor
  · rintro ⟨e, mem, rfl⟩
    obtain ⟨has, inside⟩ := mem_filter.mp mem
    exact ⟨rfl, List.mem_map.mpr ⟨e, (view.store.mem_ordered _ e).mp has, rfl⟩, inside⟩
  rintro ⟨eq, has, inside⟩
  obtain ⟨e, mem, isKey⟩ := List.mem_map.mp has
  refine ⟨e, mem_filter.mpr ⟨(view.store.mem_ordered _ e).mpr mem,
    by simpa [isKey] using inside⟩, ?_⟩
  exact Prod.ext isKey (isKey.trans eq)

theorem recordBefore_diagonal {forward : Bool} {first second : Key} :
    RecordBefore forward (first, first) (second, second) ↔ Before forward first second := by
  constructor
  · rintro (early | ⟨_, early⟩) <;> exact early
  · exact .inl

theorem expected_store (src : view.index = none) (stands : view.Stands dir rg pos) :
    view.expected dir rg pos = ((view.store.ordered dir.forward).filter fun e =>
        (rg.includes e.1 && pos.last.all fun last => decide (Before dir.forward last.2 e.1)) &&
        pos.advance.all fun advance =>
          !decide (Before dir.forward e.1 advance.1)).map keyRecord := by
  rw [View.expected, enumeration_store src, List.filter_map, List.filter_filter]
  congr 1
  apply filter_congr
  intro e _
  have lastSame : (pos.last.all fun last =>
        decide (RecordBefore dir.forward last (keyRecord e))) =
      pos.last.all fun last => decide (Before dir.forward last.2 e.1) := by
    cases isLast : pos.last with
    | none => rfl
    | some last =>
      have diagonal := ((mem_enumeration_store src).mp (stands.last last isLast)).1
      obtain ⟨key, pk⟩ := last
      cases diagonal
      simp [keyRecord, recordBefore_diagonal]
  have advanceSame : (pos.advance.all fun advance =>
        !decide (BeforeAdvance dir.forward (keyRecord e) advance)) =
      pos.advance.all fun advance =>
        !decide (Before dir.forward e.1 advance.1) := by
    cases isAdvance : pos.advance with
    | none => rfl
    | some advance =>
      have noPrimary : advance.2 = none := by
        cases primary : advance.2 with
        | none => rfl
        | some pk =>
          have indexed := (stands.primary advance isAdvance (by simp [primary])).1
          simp [src] at indexed
      simp [keyRecord, BeforeAdvance, noPrimary]
  simp only [Function.comp_apply, lastSame, advanceSame]
  ac_rfl

end Expected

/-- What was found is what was expected just when the condition holds; else they
differ from their first record on. -/
structure Decides {Item : Type} (condition : Prop) (found expected : List Item) : Prop where
  right : condition → found = expected
  wrong : ¬ condition → found.head? ≠ expected.head?

theorem Decides.limited_iff {Item : Type} {condition : Prop} {h expected : List Item}
    (decides : Decides condition h expected) (cap : Int) :
    limited cap h = limited cap expected ↔ condition := by
  constructor
  · intro eq
    by_contra fails
    apply decides.wrong fails
    rw [← head?_limited cap h, eq, head?_limited]
  · intro holds
    rw [decides.right holds]

theorem Decides.of_eq {Item : Type} {condition : Prop} {found expected : List Item}
    (holds : condition) (eq : found = expected) : Decides condition found expected :=
  ⟨fun _ => eq, fun fails => absurd holds fails⟩

theorem Decides.of_nil {Item : Type} {cond : Prop} {expected : List Item}
    (eq : cond ↔ expected = []) : Decides cond [] expected := by
  constructor
  · intro holds
    exact (eq.mp holds).symm
  intro fails headSame
  apply fails
  exact eq.mpr (head?_eq_none_iff.mp headSame.symm)

def DecidesFirst {Item : Type} (condition : Prop) (found expected : List Item) : Prop :=
  (condition ∧ found = expected) ∨ (found = [] ∧ (condition ↔ expected = []))

theorem DecidesFirst.decides {Item : Type} {condition : Prop} {found expected : List Item}
    (decides : DecidesFirst condition found expected) : Decides condition found expected := by
  rcases decides with ⟨holds, eq⟩ | ⟨rfl, eq⟩
  · exact .of_eq holds eq
  · exact .of_nil eq

section Decision

variable {view : View Key Value} {direction dir : IDBCursorDirection}
  {range rg : Option (IDBKeyRange Key)} {position pos : CursorPosition Key}

/-- A read that finds the keys whatever its limit and result level are. -/
def StoreReads (view : View Key Value) (direction : IDBCursorDirection)
    (range : Option (IDBKeyRange Key)) (position : CursorPosition Key)
    (found : List Key) : Prop :=
  ∀ limit level, storeRead view.store (view.request direction range position limit level) =
    .ok (limited limit found)

variable (source src : view.index = none)

include source

theorem storeReads_beginning (x : pos = ⟨none, none⟩)
    (noBound : (fullRange rg).startBound dir.forward = none) : StoreReads view dir rg pos
      (((view.store.ordered dir.forward).filter fun e =>
        (fullRange rg).includes e.1).map Prod.fst) := by
  intro cap level
  cases x
  rw [← block_beginning noBound]
  apply @storeRead_from _ _ _ _ _ [] _ (by simp [View.request, source]) rfl
  rw [storeStart_bound rfl (by simp [View.request, source])]
  have bound : (view.request dir rg ⟨none, none⟩ cap level).startBound = none := noBound
  simp only [bound]
  rfl

theorem storeReads_bound (x : pos = ⟨none, none⟩) {bound : Key}
    (isBound : (fullRange rg).startBound dir.forward = some bound)
    (usual : dir.forward = true ∨ view.store.contains bound = true)
    (closed : bound ∈ view.store.keys → (fullRange rg).startOpen dir.forward = false) :
    StoreReads view dir rg pos (((view.store.ordered dir.forward).filter fun e =>
        (fullRange rg).includes e.1).map Prod.fst) := by
  intro cap level
  cases x
  rw [← block_bound isBound closed]
  apply @storeRead_position _ _ _ view.store (view.request dir rg ⟨none, none⟩ cap level)
    (by simp [View.request, source]) bound _ usual
  rw [storeStart_bound rfl (by simp [View.request, source])]
  have bound' : (view.request dir rg ⟨none, none⟩ cap level).startBound = some bound := isBound
  simp only [bound']

theorem storeReads_open (x : pos = ⟨none, none⟩) {bound : Key}
    (isBound : (fullRange rg).startBound dir.forward = some bound)
    (kept : view.store.contains bound = true)
    (isOpen : (fullRange rg).startOpen dir.forward = true) : StoreReads view dir rg pos [] := by
  intro cap level
  cases x
  rw [limited_nil]
  apply @storeRead_outside _ _ _ view.store (view.request dir rg ⟨none, none⟩ cap level)
    (by simp [View.request, source]) bound _ (not_includes_bound isBound isOpen)
  rw [storeStart_bound rfl (by simp [View.request, source])]
  have bound' : (view.request dir rg ⟨none, none⟩ cap level).startBound = some bound := isBound
  simp only [bound', kept, if_true]

theorem storeReads_outside {start : Key} (starts : ∀ cap level, storeStart view.store
      (view.request dir rg pos cap level) = view.store.nextHigherKey start)
    (outside : ∀ higher ∈ view.store.nextHigherKey start,
      (fullRange rg).includes higher = false) : StoreReads view dir rg pos [] := by
  intro cap level
  rw [limited_nil]
  cases next : view.store.nextHigherKey start with
  | none => exact storeRead_none (by simp [View.request, source]) ((starts _ _).trans next)
  | some higher =>
    exact storeRead_outside (by simp [View.request, source]) ((starts _ _).trans next)
      (outside higher next)

/-- A backward read that starts at a higher key of its range begins with that key. -/
theorem storeReads_higher {start higher : Key} (starts : ∀ cap level, storeStart view.store
      (view.request dir rg pos cap level) = view.store.nextHigherKey start)
    (next : view.store.nextHigherKey start = some higher)
    (mem : (fullRange rg).includes higher = true) :
    ∃ rest, StoreReads view dir rg pos (higher :: rest) := by
  obtain ⟨e, has, rfl⟩ := List.mem_map.mp (nextHigherKey_spec next).2
  obtain ⟨pre, after, split⟩ := append_of_mem ((view.store.mem_ordered dir.forward e).mpr has)
  refine ⟨(after.takeWhile fun e => (fullRange rg).includes e.1).map Prod.fst, ?_⟩
  intro cap level
  have read := @storeRead_from _ _ _ view.store
    (view.request dir rg pos cap level) pre (e :: after)
    (by simp [View.request, source]) split ((starts _ _).trans next)
  have x : (view.request dir rg pos cap level).keyRange.includes e.1 =
    true := mem
  simp only [takeWhile_cons, x, if_true, map_cons] at read
  exact read

theorem storeReads_above (x : pos = ⟨none, none⟩) {bound : Key}
    (isBound : (fullRange rg).startBound dir.forward = some bound)
    (backward : dir.forward = false) (absent : view.store.contains bound = false) :
    StoreReads view dir rg pos [] := by
  cases x
  apply @storeReads_outside _ _ _ _ _ _ _ source bound
  · intro cap level
    rw [storeStart_bound rfl (by simp [View.request, source])]
    have bound' : (view.request dir rg ⟨none, none⟩ cap level).startBound = some bound := isBound
    simp only [bound', absent, Bool.false_eq_true, if_false]
  intro higher next
  have above := (nextHigherKey_spec next).1
  cases mem : (fullRange rg).includes higher with
  | false => rfl
  | true =>
    rw [includes_eq _ dir.forward, Bool.and_eq_true] at mem
    rcases (startIncludes_iff _ _ _).mp mem.1 bound isBound with late | ⟨eq, _⟩
    · rw [backward, before_backward] at late
      exact absurd late above.not_gt
    · exact absurd eq above.ne

variable {last : Key × Key}

theorem storeReads_last (isPosition : pos = ⟨some last, none⟩) (forward : dir.forward = true)
    (mem : last ∈ view.enumeration dir (fullRange rg)) : StoreReads view dir rg pos
      (((view.store.ordered dir.forward).filter fun e =>
        (fullRange rg).includes e.1 && decide (Before dir.forward last.2 e.1)).map Prod.fst) := by
  intro cap level
  cases isPosition
  obtain ⟨eq, has, inside⟩ := (mem_enumeration_store source).mp mem
  obtain ⟨e, kept, isLast⟩ := List.mem_map.mp has
  obtain ⟨pre, after, split⟩ := append_of_mem ((view.store.mem_ordered dir.forward e).mpr kept)
  have walk := view.store.ordered_walk dir.forward
  rw [split] at walk
  have left : (view.store.ordered dir.forward).filter (fun e =>
      (fullRange rg).includes e.1 && decide (Before dir.forward last.2 e.1)) =
      after.filter fun e => (fullRange rg).includes e.1 := by
    rw [← List.filter_filter, ← eq, ← isLast, split, walk.filter_after]
  rw [left, ← block_after split (isLast ▸ inside)]
  apply @storeRead_from _ _ _ view.store
    (view.request dir rg ⟨some last, none⟩ cap level) (pre ++ [e]) after
    (by simp [View.request, source])
  · show view.store.ordered dir.forward = _
    simpa using split
  rw [@storeStart_last _ _ _ _ _ last.2 rfl (by simp [View.request, source]), ← eq, ← isLast]
  have next := SortedMap.nextPair_of_ordered split
  rw [forward] at next
  simp only [SortedMap.nextPair, if_true] at next
  rw [SortedMap.nextHigherKey, next]

theorem storeReads_advance {advance : Key × Option Key}
    (isPosition : pos = ⟨some last, some advance⟩)
    (mem : last ∈ view.enumeration dir (fullRange rg))
    (beyond : Before dir.forward last.2 advance.1)
    (usual : dir.forward = true ∨ view.store.contains advance.1 = true) :
    StoreReads view dir rg pos (((view.store.ordered dir.forward).filter fun e =>
        ((fullRange rg).includes e.1 && decide (Before dir.forward last.2 e.1)) &&
            !decide (Before dir.forward e.1 advance.1)).map Prod.fst) := by
  intro cap level
  cases isPosition
  obtain ⟨eq, _, inside⟩ := (mem_enumeration_store source).mp mem
  have keeps : ∀ e ∈ view.store.ordered dir.forward, (((fullRange rg).includes e.1 &&
        decide (Before dir.forward last.2 e.1)) &&
          !decide (Before dir.forward e.1 advance.1)) = ((fullRange rg).includes e.1 &&
        !decide (Before dir.forward e.1 advance.1)) := by
    intro e _
    by_cases early : Before dir.forward e.1 advance.1
    · simp [early]
    · simp [early, beyond.of_not_before early]
  rw [filter_congr keeps, ← block_advance beyond (eq ▸ inside)]
  apply @storeRead_position _ _ _ view.store
    (view.request dir rg ⟨some last, some advance⟩ cap level)
    (by simp [View.request, source]) advance.1 _ usual
  exact storeStart_advance rfl (by simp [View.request, source]) beyond

omit source in
/-- A first read is right when it starts at a stored key of the range, or forward
from a bound that is no key, or when there is nothing to return. -/
theorem storeMeets_first (noLast : pos.last = none) : StoreMeets view dir (fullRange rg) pos ↔
      ∀ bound ∈ (fullRange rg).startBound dir.forward,
        (bound ∈ view.store.keys ∧ (fullRange rg).startOpen dir.forward = false ∨
          dir.forward = true ∧ bound ∉ view.store.keys) ∨
        view.enumeration dir (fullRange rg) = [] := by
  cases isForward : dir.forward with
  | true =>
    simp only [StoreMeets, isForward, noLast, IDBKeyRange.startBound, IDBKeyRange.startOpen,
      if_true, true_and]
    constructor
    · intro meets bound isBound
      by_cases kept : bound ∈ view.store.keys
      · cases isOpen : (fullRange rg).lowerOpen with
        | true => exact .inr (meets bound isBound isOpen kept)
        | false => exact .inl (.inl ⟨kept, rfl⟩)
      · exact .inl (.inr kept)
    intro meets bound isBound isOpen kept
    rcases meets bound isBound with (⟨_, closed⟩ | gone) | nothing
    · simp [isOpen] at closed
    · exact absurd kept gone
    · exact nothing
  | false =>
    simp [StoreMeets, isForward, noLast, IDBKeyRange.startBound, IDBKeyRange.startOpen]

theorem storeReads_decides_first (x : position = ⟨none, none⟩) :
    ∃ h, StoreReads view dir rg position h ∧
      DecidesFirst (StoreMeets view dir (fullRange rg) position) (h.map fun key => (key, key))
        (view.expected dir (fullRange rg) position) := by
  have whole : (((view.store.ordered dir.forward).filter fun e =>
      (fullRange rg).includes e.1).map Prod.fst).map (fun key => (key, key)) =
      view.expected dir (fullRange rg) position := by
    rw [x, View.expected_first, enumeration_store source, List.map_map]
    rfl
  have meetsIff := @storeMeets_first _ _ _ view dir rg position (by rw [x])
  cases isBound : (fullRange rg).startBound dir.forward with
  | none =>
    refine ⟨_, storeReads_beginning source x isBound, .inl ⟨?_, whole⟩⟩
    simp [meetsIff, isBound]
  | some bound =>
    simp only [isBound, Option.mem_some_iff, forall_eq'] at meetsIff
    by_cases usual : bound ∈ view.store.keys ∧ (fullRange rg).startOpen dir.forward = false ∨
        dir.forward = true ∧ bound ∉ view.store.keys
    · refine ⟨_, storeReads_bound source x isBound ?_ ?_, .inl ⟨?_, whole⟩⟩
      · rcases usual with ⟨kept, _⟩ | ⟨forward, _⟩
        · exact .inr ((view.store.contains_iff bound).mpr kept)
        · exact .inl forward
      · intro contained
        rcases usual with ⟨_, closed⟩ | ⟨_, absent⟩
        · exact closed
        · exact absurd contained absent
      · exact meetsIff.mpr (.inl usual)
    · have nothing : StoreMeets view dir (fullRange rg) position ↔
          view.expected dir (fullRange rg) position = [] := by
        rw [meetsIff, x, View.expected_first]
        simp [usual]
      rcases not_or.mp usual with ⟨notStored, notForward⟩
      by_cases kept : bound ∈ view.store.keys
      · have isOpen : (fullRange rg).startOpen dir.forward = true := by
          simpa [kept] using notStored
        exact ⟨[], storeReads_open source x isBound
          ((view.store.contains_iff bound).mpr kept) isOpen, .inr ⟨by simp, nothing⟩⟩
      have backward : dir.forward = false := by simpa [kept] using notForward
      have absent : view.store.contains bound = false := by
        cases contained : view.store.contains bound with
        | false => rfl
        | true => exact absurd ((view.store.contains_iff bound).mp contained) kept
      exact ⟨[], storeReads_above source x isBound backward absent, .inr ⟨by simp, nothing⟩⟩

theorem storeReads_decides_last (isPosition : position = ⟨some last, none⟩)
    (mem : last ∈ view.enumeration dir (fullRange rg))
    (expected : view.expected dir (fullRange rg) position =
      ((view.store.ordered dir.forward).filter fun e => (fullRange rg).includes e.1
      && decide (Before dir.forward last.2 e.1)).map keyRecord) :
    ∃ h, StoreReads view dir rg position h ∧
      Decides (StoreMeets view dir (fullRange rg) position) (h.map fun key => (key, key))
        (view.expected dir (fullRange rg) position) := by
  cases isForward : dir.forward with
  | true =>
    refine ⟨_, storeReads_last source isPosition isForward mem, .of_eq ?_ ?_⟩
    · simp [StoreMeets, isForward, isPosition]
    · rw [expected, List.map_map]
      rfl
  | false =>
    have starts : ∀ cap level, storeStart view.store
        (view.request dir rg position cap level) = view.store.nextHigherKey last.2 := by
      intro cap level
      cases isPosition
      exact storeStart_last rfl (by simp [View.request, source])
    have meetsIff : StoreMeets view dir (fullRange rg) position ↔
        ∀ key ∈ view.store.keys, (fullRange rg).includes key = true → key = last.2 := by
      simp [StoreMeets, isForward, isPosition]
    obtain ⟨lastSame, _, lastInside⟩ := (mem_enumeration_store source).mp mem
    rw [lastSame] at lastInside
    have expectedBelow : ∀ row ∈ view.expected dir (fullRange rg) position,
        row.1 ∈ view.store.keys ∧ (fullRange rg).includes row.1 = true ∧
          row.1 < last.2 := by
      intro row isExpected
      rw [expected] at isExpected
      obtain ⟨e, has, rfl⟩ := List.mem_map.mp isExpected
      obtain ⟨kept, keeps⟩ := mem_filter.mp has
      simp only [Bool.and_eq_true, decide_eq_true_eq, isForward, before_backward] at keeps
      exact ⟨List.mem_map.mpr ⟨e, (view.store.mem_ordered _ e).mp kept, rfl⟩, keeps⟩
    by_cases inRange : ∃ higher ∈ view.store.nextHigherKey last.2,
        (fullRange rg).includes higher = true
    · obtain ⟨higher, next, inside⟩ := inRange
      obtain ⟨rest, reads⟩ := storeReads_higher source starts next inside
      refine ⟨higher :: rest, reads, ?_, ?_⟩
      · intro meets
        have eq := meetsIff.mp meets higher (nextHigherKey_spec next).2 inside
        exact absurd eq (nextHigherKey_spec next).1.ne'
      intro _ eq
      have isExpected := mem_of_mem_head? (eq.symm.trans rfl)
      have below := (expectedBelow _ isExpected).2.2
      exact absurd below (nextHigherKey_spec next).1.not_gt
    · have outside : ∀ higher ∈ view.store.nextHigherKey last.2,
          (fullRange rg).includes higher = false := by
        intro higher next
        cases inside : (fullRange rg).includes higher with
        | false => rfl
        | true => exact absurd ⟨higher, next, inside⟩ inRange
      refine ⟨[], storeReads_outside source starts outside, .of_nil ?_⟩
      rw [meetsIff]
      constructor
      · intro meets
        apply eq_nil_iff_forall_not_mem.mpr
        intro row isExpected
        obtain ⟨kept, inside, below⟩ := expectedBelow row isExpected
        exact absurd (meets _ kept inside) below.ne
      intro nothing key kept inside
      rcases lt_trichotomy key last.2 with below | eq | above
      · obtain ⟨e, has, rfl⟩ := List.mem_map.mp kept
        have isExpected : keyRecord e ∈ view.expected dir (fullRange rg) position := by
          rw [expected]
          apply List.mem_map_of_mem
          apply mem_filter.mpr
          exact ⟨(view.store.mem_ordered _ e).mpr has,
            by simp [inside, isForward, below]⟩
        rw [nothing] at isExpected
        cases isExpected
      · exact eq
      · obtain ⟨higher, next, least⟩ := nextHigherKey_le kept above
        have between := includes_between (nextHigherKey_spec next).1 least lastInside inside
        rw [outside higher next] at between
        cases between

theorem storeReads_decides_advance {advance : Key × Option Key}
    (isPosition : pos = ⟨some last, some advance⟩)
    (mem : last ∈ view.enumeration dir (fullRange rg))
    (beyond : Before dir.forward last.2 advance.1)
    (expected : view.expected dir (fullRange rg) pos =
      ((view.store.ordered dir.forward).filter fun e => ((fullRange rg).includes
      e.1 && decide (Before dir.forward last.2 e.1)) && !decide
      (Before dir.forward e.1 advance.1)).map keyRecord) :
    ∃ h, StoreReads view dir rg pos h ∧ Decides (StoreMeets view dir (fullRange rg) pos)
        (h.map fun key => (key, key)) (view.expected dir (fullRange rg) pos) := by
  by_cases usual : dir.forward = true ∨ view.store.contains advance.1 = true
  · refine ⟨_, storeReads_advance source isPosition mem beyond usual, .of_eq ?_ ?_⟩
    · rcases usual with forward | kept
      · simp [StoreMeets, forward, isPosition]
      have has := (view.store.contains_iff advance.1).mp kept
      cases isForward : dir.forward <;>
        simp [StoreMeets, isForward, isPosition, has]
    · rw [expected, List.map_map]
      rfl
  · obtain ⟨notForward, notStored⟩ := not_or.mp usual
    have isForward : dir.forward = false := by simpa using notForward
    have absent : advance.1 ∉ view.store.keys := by
      intro has
      exact notStored ((view.store.contains_iff advance.1).mpr has)
    have starts : ∀ cap level, storeStart view.store (view.request dir rg pos cap level) =
        view.store.nextHigherKey advance.1 := by
      intro cap level
      cases isPosition
      rw [@storeStart_advance _ _ _ view.store
        (view.request dir rg ⟨some last, some advance⟩ cap level) last.2 advance.1
        rfl (by simp [View.request, source]) beyond, if_neg notStored]
    have meetsIff : StoreMeets view dir (fullRange rg) pos ↔
        ∀ higher ∈ view.store.nextHigherKey advance.1, (fullRange rg).includes higher = false := by
      simp [StoreMeets, isForward, isPosition, absent]
    have expectedBelow : ∀ row ∈ view.expected dir (fullRange rg) pos,
        (fullRange rg).includes row.1 = true ∧ row.1 ≤ advance.1 := by
      intro row isExpected
      rw [expected] at isExpected
      obtain ⟨e, has, rfl⟩ := List.mem_map.mp isExpected
      have keeps := (mem_filter.mp has).2
      simp only [Bool.and_eq_true, Bool.not_eq_true', decide_eq_false_iff_not, isForward,
        before_backward, not_lt] at keeps
      exact ⟨keeps.1.1, keeps.2⟩
    by_cases inRange : ∃ higher ∈ view.store.nextHigherKey advance.1,
        (fullRange rg).includes higher = true
    · obtain ⟨higher, next, inside⟩ := inRange
      obtain ⟨rest, reads⟩ := storeReads_higher source starts next inside
      refine ⟨higher :: rest, reads, ?_, ?_⟩
      · intro meets
        rw [meetsIff.mp meets higher next] at inside
        cases inside
      intro _ eq
      have isExpected := mem_of_mem_head? (eq.symm.trans rfl)
      have below := (expectedBelow _ isExpected).2
      exact absurd below (nextHigherKey_spec next).1.not_ge
    · have outside : ∀ higher ∈ view.store.nextHigherKey advance.1,
          (fullRange rg).includes higher = false := by
        intro higher next
        cases inside : (fullRange rg).includes higher with
        | false => rfl
        | true => exact absurd ⟨higher, next, inside⟩ inRange
      refine ⟨[], storeReads_outside source starts outside, .of_eq (meetsIff.mpr outside) ?_⟩
      symm
      apply eq_nil_iff_forall_not_mem.mpr
      intro row isExpected
      obtain ⟨inside, below⟩ := expectedBelow row isExpected
      obtain ⟨eq, kept, lastInside⟩ := (mem_enumeration_store source).mp mem
      rw [eq] at kept lastInside
      have above : advance.1 < last.2 := by simpa [isForward] using beyond
      obtain ⟨higher, next, least⟩ := nextHigherKey_le kept above
      have between := includes_between (below.trans_lt (nextHigherKey_spec next).1) least
        inside lastInside
      rw [outside higher next] at between
      cases between

theorem storeReads_decides (stands : view.Stands dir (fullRange rg) pos) :
    ∃ h, StoreReads view dir rg pos h ∧ Decides (StoreMeets view dir (fullRange rg) pos)
        (h.map fun key => (key, key)) (view.expected dir (fullRange rg) pos) := by
  have expected := expected_store source stands
  obtain ⟨isLast, isAdvance⟩ := pos
  cases isLast with
  | none =>
    cases isAdvance with
    | none =>
      obtain ⟨h, reads, decides⟩ := @storeReads_decides_first _ _ _ _ _ rg _ source rfl
      exact ⟨h, reads, decides.decides⟩
    | some advance =>
      obtain ⟨last, isLast, _⟩ := stands.beyond advance rfl
      cases isLast
  | some last =>
    have mem := stands.last last rfl
    cases isAdvance with
    | none =>
      exact storeReads_decides_last source rfl mem (by simpa using expected)
    | some advance =>
      obtain ⟨_, isLast, beyond⟩ := stands.beyond advance rfl
      cases isLast
      have eq := ((mem_enumeration_store source).mp mem).1
      have beyondKey : Before dir.forward last.2 advance.1 := by
        rcases beyond with early | ⟨_, pk, isPrimary, _⟩
        · rwa [eq] at early
        · have indexed := (stands.primary advance rfl (Option.isSome_of_mem isPrimary)).1
          simp [source] at indexed
      exact storeReads_decides_advance source rfl mem beyondKey (by simpa using expected)

end Decision

end Anastasis.Idb
