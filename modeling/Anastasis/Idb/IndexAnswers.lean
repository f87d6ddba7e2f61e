import Anastasis.Idb.IndexQueries

/-! When a read through an index returns what it should. -/

set_option autoImplicit false

namespace Anastasis.Idb

open Library List Option

variable {Key Value : Type} [LinearOrder Key]

theorem BeforeAdvance.of_before {forward : Bool} {first y : Key × Key}
    {advance : Key × Option Key} (early : RecordBefore forward first y)
    (skipped : BeforeAdvance forward y advance) : BeforeAdvance forward first advance := by
  rcases skipped with keys | ⟨eq, pk, isPrimary, primary⟩
  · rcases early with pre | ⟨equal, _⟩
    · exact .inl (pre.trans keys)
    · exact .inl (equal ▸ keys)
  rcases early with pre | ⟨equal, pre⟩
  · exact .inl (eq ▸ pre)
  · exact .inr ⟨equal.trans eq, pk, isPrimary, pre.trans primary⟩

theorem decides_skip {forward : Bool} {h : List (Key × Key)} {advance : Key × Option Key}
    (sorted : h.Pairwise (RecordBefore forward)) :
    Decides (∀ r ∈ h, ¬ BeforeAdvance forward r advance) h
      (h.filter fun r => !decide (BeforeAdvance forward r advance)) := by
  constructor
  · intro nothing
    symm
    apply filter_eq_self.mpr
    intro r mem
    simpa using nothing r mem
  intro something eq
  push Not at something
  obtain ⟨r, mem, skipped⟩ := something
  cases h with
  | nil => cases mem
  | cons first rest =>
    have firstSkipped : BeforeAdvance forward first advance := by
      rcases mem_cons.mp mem with rfl | later
      · exact skipped
      · exact skipped.of_before ((pairwise_cons.mp sorted).1 r later)
    have kept := mem_of_mem_head? eq.symm
    have notSkipped := (mem_filter.mp kept).2
    simp [firstSkipped] at notSkipped

theorem compareKeys_before (forward : Bool) (x y : Key) : ((forward && compareKeys x y == .lt) ||
      (!forward && compareKeys x y == .gt)) = decide (Before forward x y) := by
  cases forward <;> simp [compareKeys_beq_lt, compareKeys_beq_gt]

theorem compareKeys_not_before (forward : Bool) (x y : Key) :
    (!((forward && compareKeys x y != .gt) || (!forward && compareKeys x y != .lt))) =
      decide (Before forward y x) := by
  cases forward <;> simp [bne, compareKeys_beq_lt, compareKeys_beq_gt]

def primaryKeysLeft (forward : Bool) (primaryKeys : List Key) (last primaryPos : Key) :
    List Key :=
  ((primaryKeysFrom forward primaryKeys).filter fun primaryKey =>
    decide (Before forward last primaryKey)).filter fun primaryKey =>
      !decide (Before forward primaryKey primaryPos)

theorem primaryKeysLeft_eq {forward : Bool} {primaryKeys : List Key}
    (ascending : primaryKeys.Pairwise (· < ·)) (last primaryPos : Key) :
    (((primaryKeysFrom forward primaryKeys).dropWhile fun pk =>
      !decide (Before forward last pk)).dropWhile fun pk =>
        decide (Before forward pk primaryPos)) =
      primaryKeysLeft forward primaryKeys last primaryPos := by
  have sorted := @primaryKeysFrom_sorted _ _ forward _ ascending
  rw [primaryKeysLeft, dropWhile_not_eq_filter sorted, ← dropWhile_not_eq_filter (sorted.filter _)]
  · simp
  · intro first second early late
    have notEarly : ¬ Before forward first primaryPos := by simpa using late
    have stillLate : ¬ Before forward second primaryPos := fun between =>
      notEarly (early.trans between)
    simpa using stillLate
  intro first second early after
  have later : Before forward last first := by simpa using after
  simpa using later.trans early

section Decision

variable {view : View Key Value} {data : SortedMap Key (List Key)}
  {direction dir : IDBCursorDirection} {range rg : Option (IDBKeyRange Key)}
  {position pos : CursorPosition Key}

/-- A read that finds the records whatever its limit and result level are. -/
def IndexReads (view : View Key Value) (data : SortedMap Key (List Key))
    (direction : IDBCursorDirection) (range : Option (IDBKeyRange Key))
    (position : CursorPosition Key) (found : List (Key × Key)) : Prop :=
  ∀ limit level, indexRead data (view.request direction range position limit level) =
    .ok (limited limit found)

/-- The read fails although the condition is not met, or it finds something, which
is right just when the condition is met. -/
def IndexDecided (view : View Key Value) (data : SortedMap Key (List Key))
    (direction : IDBCursorDirection) (range : Option (IDBKeyRange Key))
    (position : CursorPosition Key) : Prop :=
  (¬ IndexMeets view data direction (fullRange range) position ∧
    ∃ thrown, ∀ limit level,
      indexRead data (view.request direction range position limit level) = .error thrown) ∨
  ∃ found, IndexReads view data direction range position found ∧
    Decides (IndexMeets view data direction (fullRange range) position) found
      (view.expected direction (fullRange range) position)

variable (source src : view.index = some data)

include source

theorem request_lastIndexPosition (cap : Int) (level : ResultLevel) :
    (view.request dir rg pos cap level).lastIndexPosition = pos.last.map Prod.fst := by
  simp [View.request, source]

theorem enumeration_index : view.enumeration dir (fullRange rg) =
      ((data.ordered dir.forward).filter fun e =>
        (fullRange rg).includes e.1).flatMap (entryRecords dir) := by
  simp only [View.enumeration, View.records, source]
  exact filter_flatMap_entryRecords _ (fullRange rg).includes

/-- A read that does not start at the entry of the last position passes whole entries. -/
theorem indexReads_fresh {pre rest : List (Key × List Key)} {primaryPos : Option Key}
    (split : data.ordered dir.forward = pre ++ rest) (starts : ∀ cap level, indexStart data
      (view.request dir range pos cap level) = .ok (rest.head?, primaryPos))
    (fresh : ∀ e ∈ rest, ∀ last ∈ pos.last, e.1 ≠ last.1) : IndexReads view data dir range pos
      ((rest.takeWhile fun e => (fullRange range).includes e.1).flatMap (entryRecords dir)) := by
  intro cap level
  have isPosition := @request_lastIndexPosition _ _ _ _ _ dir range pos source cap level
  cases unique : dir.unique with
  | true =>
    have records : (entryRecords dir : Key × List Key → List (Key × Key)) = firstPair := by
      funext e
      simp [entryRecords, unique]
    have kept : (rest.takeWhile fun e => (fullRange range).includes e.1).filter
        (fun e => (pos.last.map Prod.fst).all (e.1 ≠ ·)) =
        rest.takeWhile fun e => (fullRange range).includes e.1 := by
      apply filter_eq_self.mpr
      intro e mem
      have has := (takeWhile_sublist _).subset mem
      cases isLast : pos.last with
      | none => rfl
      | some last => simpa using fresh e has last isLast
    have read := @indexRead_unique _ _ data (view.request dir range pos cap level)
      pre rest primaryPos (view.nonempty data source) unique split (starts cap level)
    rw [isPosition] at read
    rw [records, ← kept]
    exact read
  | false =>
    have records : (entryRecords dir : Key × List Key → List (Key × Key)) = pairsOf dir.forward := by
      funext e
      simp [entryRecords, unique]
    rw [records]
    cases rest with
    | nil =>
      rw [takeWhile_nil, flatMap_nil, limited_nil]
      exact indexRead_nothing unique (starts cap level)
    | cons e rest =>
      have y : (pos.last.map Prod.fst).any (compareKeys e.1 · == .eq) =
          false := by
        cases isLast : pos.last with
        | none => rfl
        | some last =>
          have ne := fresh e mem_cons_self last isLast
          simp [compareKeys_beq_eq, ne]
      have left : remainingPrimaryKeys (view.request dir range pos cap level)
          e.1 e.2 primaryPos = .ok (primaryKeysFrom dir.forward e.2) := by
        rw [remainingPrimaryKeys, isPosition, y]
        rfl
      have read := @indexRead_entry _ _ data
        (view.request dir range pos cap level) pre rest e primaryPos _
        unique split (starts cap level) left (length_primaryKeysFrom _ _).le
      rw [read]
      have sameRange : (view.request dir range pos cap level).keyRange = fullRange range := rfl
      rw [sameRange]
      cases inside : (fullRange range).includes e.1 with
      | false => simp [inside, limited_nil]
      | true =>
        simp only [if_true, takeWhile_cons, inside, flatMap_cons]
        rfl

theorem advanceIndex_first (x : pos = ⟨none, none⟩) (cap : Int) (level : ResultLevel) :
    advanceIndex (view.request dir rg pos cap level)
      ((view.request dir rg pos cap level).lastIndexPosition.or
        (view.request dir rg pos cap level).startBound)
      (view.request dir rg pos cap level).lastObjectStorePosition =
      .ok ((fullRange rg).startBound dir.forward, none) := by
  cases x
  simp only [advanceIndex, View.request, source, isSome_some, if_true, map_none, none_or]
  rfl

theorem indexReads_decides_first (x : pos = ⟨none, none⟩) :
    (¬ IndexMeets view data dir (fullRange rg) pos ∧ ∃ thrown, ∀ cap level,
        indexRead data (view.request dir rg pos cap level) = .error thrown) ∨
    ∃ h, IndexReads view data dir rg pos h ∧
      DecidesFirst (IndexMeets view data dir (fullRange rg) pos) h
        (view.expected dir (fullRange rg) pos) := by
  have expected : view.expected dir (fullRange rg) pos = ((data.ordered dir.forward).filter fun e =>
        (fullRange rg).includes e.1).flatMap (entryRecords dir) := by
    rw [x, View.expected_first, enumeration_index source]
  have noLast : pos.last = none := by rw [x]
  have meetsIff : IndexMeets view data dir (fullRange rg) pos ↔
      (data.entries ≠ [] ∨ (fullRange rg).startBound dir.forward ≠ none) ∧
        ∀ bound ∈ (fullRange rg).startBound dir.forward,
          (fullRange rg).startOpen dir.forward = true → bound ∈ data.keys →
            view.enumeration dir (fullRange rg) = [] := by
    simp [IndexMeets, noLast]
  have fresh : ∀ entries : List (Key × List Key), ∀ e ∈ entries,
      ∀ last ∈ pos.last, e.1 ≠ last.1 := by
    simp [noLast]
  cases isBound : (fullRange rg).startBound dir.forward with
  | none =>
    have starts : ∀ cap level, indexStart data (view.request dir rg pos cap level) =
        (data.ordered dir.forward).head?.elim (.error (.error "invariant violated"))
          fun e => .ok (some e, none) := by
      intro cap level
      have r := @advanceIndex_first _ _ _ _ _ dir rg pos source x cap level
      rw [isBound] at r
      rw [indexStart_of_none r]
      change _ = (data.ordered (view.request dir rg pos cap level).forward).head?.elim
        _ _
      cases (data.ordered (view.request dir rg pos cap level).forward).head? with
      | none => rfl
      | some e => rfl
    cases isEmpty : data.ordered dir.forward with
    | nil =>
      have noEntries : data.entries = [] := by
        apply eq_nil_iff_forall_not_mem.mpr
        intro e mem
        have has := (data.mem_ordered dir.forward e).mpr mem
        rw [isEmpty] at has
        cases has
      left
      constructor
      · rw [meetsIff]
        simp [noEntries, isBound]
      refine ⟨.error "invariant violated", fun cap level => ?_⟩
      rw [indexRead, starts cap level, isEmpty]
      rfl
    | cons e rest =>
      have someEntries : data.entries ≠ [] := by
        intro noEntries
        have has := (data.mem_ordered dir.forward e).mp (by rw [isEmpty]; exact mem_cons_self)
        rw [noEntries] at has
        cases has
      right
      refine ⟨_, @indexReads_fresh _ _ _ _ _ dir rg pos source []
        (data.ordered dir.forward) none rfl ?_ (fresh _), .inl ⟨?_, ?_⟩⟩
      · intro cap level
        rw [starts cap level, isEmpty]
        rfl
      · rw [meetsIff]
        simp [someEntries, isBound]
      · rw [expected, block_beginning isBound]
  | some bound =>
    have starts : ∀ cap level, indexStart data (view.request dir rg pos cap level) =
        .ok (((data.ordered dir.forward).dropWhile fun e =>
          decide (Before dir.forward e.1 bound)).head?, none) := by
      intro cap level
      have r := @advanceIndex_first _ _ _ _ _ dir rg pos source x cap level
      rw [isBound] at r
      exact indexStart_of_advance r
    have reads := @indexReads_fresh _ _ _ _ _ dir rg pos source _ _ none
      (takeWhile_append_dropWhile).symm starts (fresh _)
    simp only [isBound, mem_some_iff, forall_eq', ne_eq, reduceCtorEq,
      not_false_eq_true, or_true, true_and] at meetsIff
    right
    refine ⟨_, reads, ?_⟩
    by_cases excluded : bound ∈ data.keys ∧ (fullRange rg).startOpen dir.forward = true
    · rw [block_open isBound excluded.1 excluded.2, flatMap_nil]
      refine .inr ⟨rfl, ?_⟩
      rw [meetsIff, x, View.expected_first]
      simp [excluded]
    have closed : bound ∈ data.keys → (fullRange rg).startOpen dir.forward = false := by
      intro kept
      simpa [kept] using excluded
    refine .inl ⟨?_, ?_⟩
    · rw [meetsIff]
      intro isOpen kept
      exact absurd ⟨kept, isOpen⟩ excluded
    · rw [expected, block_bound isBound closed]

theorem mem_enumeration_index {row : Key × Key} :
    row ∈ view.enumeration direction (fullRange rg) ↔
      ∃ entry ∈ data.entries, (fullRange rg).includes entry.1 = true ∧
        row ∈ entryRecords direction entry := by
  rw [enumeration_index source, mem_flatMap]
  constructor
  · rintro ⟨entry, mem, isRecord⟩
    obtain ⟨has, inside⟩ := mem_filter.mp mem
    exact ⟨entry, (data.mem_ordered _ entry).mp has, inside, isRecord⟩
  · rintro ⟨entry, has, inside, isRecord⟩
    exact ⟨entry, mem_filter.mpr ⟨(data.mem_ordered _ entry).mpr has, inside⟩, isRecord⟩

def recordsLeft (direction : IDBCursorDirection) (entry : Key × List Key)
    (last primaryPos : Key) : List (Key × Key) :=
  if direction.unique then []
  else (primaryKeysLeft direction.forward entry.2 last primaryPos).map (entry.1, ·)

variable {pre rest : List (Key × List Key)} {entry e : Key × List Key} {last : Key × Key}

theorem indexReads_same {primaryPos : Key} (split : data.ordered dir.forward = pre ++ e :: rest)
    (isLast : pos.last = some last) (eq : e.1 = last.1)
    (inside : (fullRange range).includes e.1 = true)
    (starts : ∀ cap level, indexStart data (view.request dir range pos cap level) =
      .ok (some e, some primaryPos)) : IndexReads view data dir range pos
      (recordsLeft dir e last.2 primaryPos ++
        (rest.filter fun later => (fullRange range).includes later.1).flatMap
          (entryRecords dir)) := by
  intro cap level
  have isPosition := @request_lastIndexPosition _ _ _ _ _ dir range pos source cap level
  rw [isLast] at isPosition
  have walk := data.ordered_walk dir.forward
  rw [split] at walk
  rw [← block_after split inside]
  cases unique : dir.unique with
  | true =>
    have records : (entryRecords dir : Key × List Key → List (Key × Key)) =
        firstPair := by
      funext e
      simp [entryRecords, unique]
    have kept : ((e :: rest).takeWhile fun e =>
        (fullRange range).includes e.1).filter
        (fun e => (some last.1).all (e.1 ≠ ·)) =
        rest.takeWhile fun e => (fullRange range).includes e.1 := by
      rw [takeWhile_cons_of_pos (by simpa using inside),
        filter_cons_of_neg (by simpa using eq)]
      apply filter_eq_self.mpr
      intro later mem
      have early := walk.of_append.head_before later ((takeWhile_sublist _).subset mem)
      rw [eq] at early
      simpa using early.ne.symm
    have read := @indexRead_unique _ _ data (view.request dir range pos cap level)
      pre (e :: rest) (some primaryPos) (view.nonempty data source) unique split
      (starts cap level)
    rw [isPosition] at read
    rw [records, recordsLeft, unique, if_pos rfl, ← kept]
    exact read
  | false =>
    have records : (entryRecords dir : Key × List Key → List (Key × Key)) =
        pairsOf dir.forward := by
      funext e
      simp [entryRecords, unique]
    have stored : e ∈ data.entries := by
      apply (data.mem_ordered dir.forward e).mp
      rw [split]
      exact mem_append_right _ mem_cons_self
    have isPrimary : (view.request dir range pos cap
        level).lastObjectStorePosition = some last.2 := by
      simp [View.request, isLast]
    have left : remainingPrimaryKeys (view.request dir range pos cap level)
        e.1 e.2 (some primaryPos) = .ok (primaryKeysLeft dir.forward e.2 last.2 primaryPos) := by
      have isForward : (view.request dir range pos cap level).forward =
        dir.forward := rfl
      rw [← primaryKeysLeft_eq (view.ascending data source e stored)]
      simp only [remainingPrimaryKeys, isPosition, isPrimary, isForward, compareKeys_beq_eq,
        eq, compareKeys_before, compareKeys_not_before, map_some, any_some, decide_true, if_true]
    have fewer : (primaryKeysLeft dir.forward e.2 last.2 primaryPos).length ≤
        e.2.length := by
      rw [← length_primaryKeysFrom dir.forward e.2]
      exact (length_filter_le _ _).trans (length_filter_le _ _)
    have read := @indexRead_entry _ _ data (view.request dir range pos cap level) pre rest e
      (some primaryPos) _ unique split (starts cap level) left fewer
    have sameRange : (view.request dir range pos cap level).keyRange = fullRange range := rfl
    rw [read, sameRange, inside, recordsLeft, unique, records]
    rfl

theorem enumeration_after (split : data.ordered dir.forward = pre ++ e :: rest)
    (inside : (fullRange rg).includes e.1 = true) (mem : last ∈ entryRecords dir e) :
    (view.enumeration dir (fullRange rg)).filter
        (fun record => decide (RecordBefore dir.forward last record)) =
      recordsLeft dir e last.2 last.2 ++
        (rest.filter fun later => (fullRange rg).includes later.1).flatMap (entryRecords dir) := by
  have walk := data.ordered_walk dir.forward
  rw [split] at walk
  have eq := entryRecords_key mem
  have old : ((pre.filter fun old => (fullRange rg).includes old.1).flatMap
      (entryRecords dir)).filter
      (fun record => decide (RecordBefore dir.forward last record)) = [] := by
    apply filter_eq_nil_iff.mpr
    intro record isRecord
    obtain ⟨y, has, isEntry⟩ := mem_flatMap.mp isRecord
    have early := walk.before_of_append y (mem_of_mem_filter has) e mem_cons_self
    rw [← entryRecords_key isEntry, ← eq] at early
    have recordEarly : RecordBefore dir.forward record last := .inl early
    simpa using recordEarly.asymm
  have later : ((rest.filter fun later => (fullRange rg).includes later.1).flatMap
      (entryRecords dir)).filter (fun record => decide (RecordBefore dir.forward last record)) =
      (rest.filter fun later => (fullRange rg).includes later.1).flatMap (entryRecords dir) := by
    apply filter_eq_self.mpr
    intro record isRecord
    obtain ⟨y, has, isEntry⟩ := mem_flatMap.mp isRecord
    have late := walk.of_append.head_before y (mem_of_mem_filter has)
    rw [← entryRecords_key isEntry, ← eq] at late
    have recordLate : RecordBefore dir.forward last record := .inl late
    simpa using recordLate
  have here : (entryRecords dir e).filter
      (fun record => decide (RecordBefore dir.forward last record)) =
      recordsLeft dir e last.2 last.2 := by
    cases unique : dir.unique with
    | true =>
      simp only [entryRecords, unique, if_true, firstPair] at mem ⊢
      rw [recordsLeft, unique]
      cases x : e.2.head? with
      | none => rfl
      | some primaryKey =>
        simp only [x, toList_some, map_cons, map_nil, mem_singleton] at mem
        have notBefore := RecordBefore.irrefl dir.forward last
        rw [mem] at notBefore ⊢
        simp [notBefore]
    | false =>
      simp only [entryRecords, unique, Bool.false_eq_true, if_false, recordsLeft, pairsOf]
      rw [List.filter_map, primaryKeysLeft, List.filter_filter]
      congr 1
      apply filter_congr
      intro primaryKey _
      have sameKey : RecordBefore dir.forward last (e.1, primaryKey) ↔
          Before dir.forward last.2 primaryKey := by
        constructor
        · rintro (early | ⟨_, early⟩)
          · exact absurd eq early.ne
          · exact early
        · intro early
          exact .inr ⟨eq, early⟩
      by_cases early : Before dir.forward last.2 primaryKey
      · simp [sameKey, early, early.asymm]
      · simp [sameKey, early]
  rw [enumeration_index source, split, filter_append, flatMap_append,
    filter_append, old, nil_append, filter_cons_of_pos (by simpa using inside),
    flatMap_cons, filter_append, here, later]

omit source in
theorem recordsLeft_advance {primaryPos : Key} (eq : e.1 = last.1) :
    (recordsLeft dir e last.2 last.2).filter (fun r =>
      !decide (BeforeAdvance dir.forward r (last.1, some primaryPos))) =
      recordsLeft dir e last.2 primaryPos := by
  cases unique : dir.unique with
  | true => simp [recordsLeft, unique]
  | false =>
    simp only [recordsLeft, unique, Bool.false_eq_true, if_false, primaryKeysLeft]
    rw [List.filter_map, List.filter_filter, List.filter_filter, List.filter_filter]
    congr 1
    apply filter_congr
    intro primaryKey _
    have skips : BeforeAdvance dir.forward (e.1, primaryKey)
        (last.1, some primaryPos) ↔ Before dir.forward primaryKey primaryPos := by
      constructor
      · rintro (early | ⟨_, y, isO, early⟩)
        · exact absurd eq early.ne
        · cases isO
          exact early
      · intro early
        exact .inr ⟨eq, primaryPos, rfl, early⟩
    by_cases after : Before dir.forward last.2 primaryKey
    · simp [skips, after, after.asymm]
    · simp [after]

omit source in
theorem later_not_beforeAdvance {pre rest : List (Key × List Key)}
    {e : Key × List Key} {primaryPos : Option Key}
    (split : data.ordered dir.forward = pre ++ e :: rest) :
    ((rest.filter fun later => (fullRange rg).includes later.1).flatMap
      (entryRecords dir)).filter (fun r =>
        !decide (BeforeAdvance dir.forward r (e.1, primaryPos))) =
      (rest.filter fun later => (fullRange rg).includes later.1).flatMap (entryRecords dir) := by
  have walk := data.ordered_walk dir.forward
  rw [split] at walk
  apply filter_eq_self.mpr
  intro r isR
  obtain ⟨y, has, isEntry⟩ := mem_flatMap.mp isR
  have late := walk.of_append.head_before y (mem_of_mem_filter has)
  rw [← entryRecords_key isEntry] at late
  have notSkipped : ¬ BeforeAdvance dir.forward r (e.1, primaryPos) := by
    rintro (early | ⟨eq, _⟩)
    · exact early.asymm late
    · exact late.ne eq.symm
  simpa using notSkipped

theorem request_last {last : Key × Key} (isLast : pos.last = some last) (cap : Int)
    (level : ResultLevel) : (view.request dir rg pos cap level).lastIndexPosition.or
        (view.request dir rg pos cap level).startBound = some last.1 ∧
      (view.request dir rg pos cap level).lastObjectStorePosition = some last.2 := by
  simp [View.request, source, isLast]

theorem indexStart_last {primaryPos : Key} (split : data.ordered dir.forward = pre ++ e :: rest)
    (isLast : pos.last = some last) (eq : e.1 = last.1) (cap : Int) (level : ResultLevel)
    (r : advanceIndex (view.request dir rg pos cap level) (some last.1) (some
      last.2) = .ok (some last.1, some primaryPos)) :
    indexStart data (view.request dir rg pos cap level) = .ok (some e, some primaryPos) := by
  obtain ⟨isStart, isPrimary⟩ := @request_last _ _ _ _ _ dir rg pos source last isLast cap level
  have walk := data.ordered_walk dir.forward
  rw [split] at walk
  have start := @indexStart_of_advance _ _ data
    (view.request dir rg pos cap level) last.1 (some primaryPos) (by rw [isStart, isPrimary, r])
  have isForward : (view.request dir rg pos cap level).forward =
    dir.forward := rfl
  rw [start, isForward, split, ← eq, walk.dropWhile_at]
  rfl

theorem indexReads_decides_ahead {advance : Key × Option Key} (isLast : pos.last = some last)
    (isAdvance : pos.advance = some advance) (isForward : dir.forward = true)
    (inside : (fullRange rg).includes e.1 = true) (eq : last.1 = e.1)
    (beyond : Before dir.forward last.1 advance.1)
    (expected : view.expected dir (fullRange rg) pos =
      ((view.enumeration dir (fullRange rg)).filter fun record => decide (RecordBefore
      dir.forward last record)).filter fun record => !decide
      (BeforeAdvance dir.forward record advance))
    (meetsIff : IndexMeets view data dir (fullRange rg) pos ↔
      (advance.1 ≠ last.1 → ∀ record ∈ view.enumeration dir (fullRange rg),
      RecordBefore dir.forward last record → (dir.forward = true → record.1 = advance.1) →
      ¬ BeforeAdvance dir.forward record advance)) (ne : advance.1 ≠ last.1) :
    ∃ h, IndexReads view data dir rg pos h ∧ Decides (IndexMeets view data dir (fullRange rg) pos) h
        (view.expected dir (fullRange rg) pos) := by
  have walk := data.ordered_walk dir.forward
  have starts : ∀ cap level, indexStart data (view.request dir rg pos cap level) =
        .ok (((data.ordered dir.forward).dropWhile fun e =>
          decide (Before dir.forward e.1 advance.1)).head?, some last.2) := by
    intro cap level
    obtain ⟨isStart, isPrimary⟩ := @request_last _ _ _ _ _ dir rg pos source last isLast cap level
    apply indexStart_of_advance
    have isKey : (view.request dir rg pos cap level).advanceIndexKey = some advance.1 := by
      simp [View.request, source, isAdvance]
    have sameForward : (view.request dir rg pos cap level).forward = true := isForward
    have above : last.1 < advance.1 := by simpa [isForward] using beyond
    simp [advanceIndex, isStart, isPrimary, isKey, compareKeys_beq_gt, sameForward, above]
  have fresh : ∀ e ∈ (data.ordered dir.forward).dropWhile
      (fun e => decide (Before dir.forward e.1 advance.1)), ∀ y ∈ pos.last, e.1 ≠ y.1 := by
    intro y mem lastRecord sameLast equal
    rw [isLast] at sameLast
    cases sameLast
    rw [← walk.filter_from] at mem
    have late := (mem_filter.mp mem).2
    rw [equal] at late
    simp [beyond] at late
  have reads := @indexReads_fresh _ _ _ _ _ dir rg pos source _ _ (some last.2)
    (takeWhile_append_dropWhile).symm starts fresh
  have h : (((data.ordered dir.forward).dropWhile fun e =>
      decide (Before dir.forward e.1 advance.1)).takeWhile fun e =>
        (fullRange rg).includes e.1).flatMap (entryRecords dir) =
      (view.enumeration dir (fullRange rg)).filter fun record =>
        !decide (Before dir.forward record.1 advance.1) := by
    rw [block_advance beyond (eq ▸ inside), enumeration_index source,
      filter_flatMap_entryRecords _ fun key =>
        !decide (Before dir.forward key advance.1), List.filter_filter]
    congr 1
    apply filter_congr
    intro _ _
    exact Bool.and_comm _ _
  rw [h] at reads
  refine ⟨_, reads, ?_⟩
  have cond : IndexMeets view data dir (fullRange rg) pos ↔
      ∀ record ∈ (view.enumeration dir (fullRange rg)).filter
        (fun record => !decide (Before dir.forward record.1 advance.1)),
        ¬ BeforeAdvance dir.forward record advance := by
    rw [meetsIff]
    constructor
    · intro meets record kept skipped
      obtain ⟨has, late⟩ := mem_filter.mp kept
      have notEarly : ¬ Before dir.forward record.1 advance.1 := by simpa using late
      have sameKey : record.1 = advance.1 := by
        rcases skipped with early | ⟨sameKey, _⟩
        · exact absurd early notEarly
        · exact sameKey
      exact meets ne record has (.inl (sameKey ▸ beyond)) (fun _ => sameKey) skipped
    · intro meets _ record has _ sameKey
      apply meets record
      apply mem_filter.mpr
      exact ⟨has, by simp [sameKey isForward, Before.irrefl]⟩
  have left : view.expected dir (fullRange rg) pos =
      ((view.enumeration dir (fullRange rg)).filter fun record =>
        !decide (Before dir.forward record.1 advance.1)).filter fun record =>
          !decide (BeforeAdvance dir.forward record advance) := by
    rw [expected, List.filter_filter, List.filter_filter]
    apply filter_congr
    intro record _
    by_cases skipped : BeforeAdvance dir.forward record advance
    · simp [skipped]
    have notEarly : ¬ Before dir.forward record.1 advance.1 := fun early =>
      skipped (.inl early)
    have late : RecordBefore dir.forward last record := .inl (beyond.of_not_before notEarly)
    simp [skipped, notEarly, late]
  rw [cond, left]
  exact decides_skip ((enumeration_sorted view dir (fullRange rg)).filter _)

theorem indexReads_decides_last (isLast : position.last = some last)
    (stands : view.Stands direction (fullRange range) position) :
    IndexDecided view data direction range position := by
  obtain ⟨e, stored, inside, mem⟩ := (mem_enumeration_index source).mp (stands.last last isLast)
  have eq := entryRecords_key mem
  obtain ⟨pre, rest, split⟩ := append_of_mem ((data.mem_ordered direction.forward e).mpr stored)
  have after := enumeration_after source split inside mem
  have sorted := (enumeration_sorted view direction (fullRange range)).filter
    fun record => decide (RecordBefore direction.forward last record)
  cases isAdvance : position.advance with
  | none =>
    have starts : ∀ cap level, indexStart data
        (view.request direction range position cap level) = .ok (some e, some last.2) := by
      intro cap level
      apply indexStart_last source split isLast eq.symm
      simp [advanceIndex, View.request, isAdvance]
    refine .inr ⟨_, indexReads_same source split isLast eq.symm inside starts, .of_eq ?_ ?_⟩
    · simp [IndexMeets, isLast, isAdvance]
    · rw [← after]
      simp [View.expected, isLast, isAdvance]
  | some advance =>
    have expected : view.expected direction (fullRange range) position =
        ((view.enumeration direction (fullRange range)).filter fun record =>
          decide (RecordBefore direction.forward last record)).filter fun record =>
            !decide (BeforeAdvance direction.forward record advance) := by
      rw [View.expected, List.filter_filter, isLast, isAdvance]
      apply filter_congr
      simp [Bool.and_comm]
    have meetsIff : IndexMeets view data direction (fullRange range) position ↔
        (advance.1 ≠ last.1 → ∀ record ∈ view.enumeration direction (fullRange range),
          RecordBefore direction.forward last record →
          (direction.forward = true → record.1 = advance.1) →
            ¬ BeforeAdvance direction.forward record advance) := by
      simp [IndexMeets, isLast, isAdvance]
    have isKey : ∀ cap level, (view.request direction range position cap
        level).advanceIndexKey = some advance.1 := by
      simp [View.request, source, isAdvance]
    obtain ⟨_, sameLast, beyond⟩ := stands.beyond advance isAdvance
    rw [isLast] at sameLast
    cases sameLast
    by_cases equal : advance.1 = last.1
    · obtain ⟨primaryKey, isPrimary, primaryBeyond⟩ : ∃ primaryKey ∈ advance.2,
          Before direction.forward last.2 primaryKey := by
        rcases beyond with early | ⟨_, h⟩
        · exact absurd equal.symm early.ne
        · exact h
      have isPair : advance = (last.1, some primaryKey) := Prod.ext equal isPrimary
      have starts : ∀ cap level, indexStart data
          (view.request direction range position cap level) = .ok (some e, some primaryKey) := by
        intro cap level
        apply indexStart_last source split isLast eq.symm
        have isPrimaryKey : (view.request direction range position cap
            level).advancePrimaryKey = some primaryKey := by
          simp [View.request, source, isAdvance, isPair]
        have isForward : (view.request direction range position cap level).forward =
          direction.forward := rfl
        have advances : ((direction.forward && decide (last.2 < primaryKey)) ||
            (!direction.forward && decide (primaryKey < last.2))) = true := by
          cases forward : direction.forward <;> simpa [forward] using primaryBeyond
        simp [advanceIndex, isKey, isPrimaryKey, equal, compareKeys_beq_gt,
          compareKeys_beq_eq, compareKeys_beq_lt, isForward, advances]
      refine .inr ⟨_, indexReads_same source split isLast eq.symm inside starts, .of_eq ?_ ?_⟩
      · rw [meetsIff]
        intro different
        exact absurd equal different
      have later := @later_not_beforeAdvance _ _ data direction range pre rest e
        (some primaryKey) split
      rw [← eq] at later
      rw [expected, after, filter_append, isPair, recordsLeft_advance eq.symm, later]
    · have beyondKey : Before direction.forward last.1 advance.1 := by
        rcases beyond with early | ⟨sameKey, _⟩
        · exact early
        · exact absurd sameKey.symm equal
      right
      cases isForward : direction.forward with
      | true =>
        exact indexReads_decides_ahead source isLast isAdvance isForward inside eq
          beyondKey expected meetsIff equal
      | false =>
        have starts : ∀ cap level, indexStart data
            (view.request direction range position cap level) = .ok (some e, some last.2) := by
          intro cap level
          apply indexStart_last source split isLast eq.symm
          have notForward : (view.request direction range position cap level).forward =
            false := isForward
          have below : ¬ last.1 < advance.1 := by
            rw [isForward] at beyondKey
            exact beyondKey.not_gt
          simp [advanceIndex, isKey, compareKeys_beq_gt, compareKeys_beq_eq, notForward,
            below, equal]
        refine ⟨_, indexReads_same source split isLast eq.symm inside starts, ?_⟩
        have cond : IndexMeets view data direction (fullRange range) position ↔
            ∀ record ∈ (view.enumeration direction (fullRange range)).filter
              (fun record => decide (RecordBefore direction.forward last record)),
              ¬ BeforeAdvance direction.forward record advance := by
          rw [meetsIff]
          constructor
          · intro meets record kept
            obtain ⟨has, late⟩ := mem_filter.mp kept
            apply meets equal record has (by simpa using late)
            simp [isForward]
          · intro meets _ record has late _
            exact meets record (mem_filter.mpr ⟨has, by simpa using late⟩)
        rw [cond, expected, ← after]
        exact decides_skip sorted

theorem indexReads_decides (stands : view.Stands direction (fullRange range) position) :
    IndexDecided view data direction range position := by
  cases isLast : position.last with
  | none =>
    cases isAdvance : position.advance with
    | none =>
      obtain ⟨last, advance⟩ := position
      cases isLast
      cases isAdvance
      rcases @indexReads_decides_first _ _ _ view data direction range ⟨none, none⟩ source rfl
        with fails | ⟨h, reads, decides⟩
      · exact .inl fails
      · exact .inr ⟨h, reads, decides.decides⟩
    | some advance =>
      obtain ⟨last, sameLast, _⟩ := stands.beyond advance isAdvance
      rw [isLast] at sameLast
      cases sameLast
  | some last => exact indexReads_decides_last source isLast stands

end Decision

end Anastasis.Idb
