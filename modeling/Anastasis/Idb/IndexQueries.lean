import Anastasis.Idb.StoreQueries

/-! Reads of a store through an index. -/

set_option autoImplicit false

namespace Anastasis.Idb

open Library List

variable {Key Value : Type}

section Records

variable {direction dir : IDBCursorDirection} {entry e : Key × List Key} {record r : Key × Key}

theorem entryRecords_key (mem : r ∈ entryRecords dir e) : r.1 = e.1 := by
  cases unique : dir.unique with
  | true =>
    simp only [entryRecords, unique, if_true, firstPair, List.mem_map] at mem
    obtain ⟨pk, _, rfl⟩ := mem
    rfl
  | false =>
    simp only [entryRecords, unique, Bool.false_eq_true, if_false, pairsOf, List.mem_map] at mem
    obtain ⟨pk, _, rfl⟩ := mem
    rfl

theorem mem_primaryKeysFrom {forward : Bool} {primaryKeys : List Key} {key : Key} :
    key ∈ primaryKeysFrom forward primaryKeys ↔ key ∈ primaryKeys := by
  cases forward <;> simp [primaryKeysFrom]

theorem entryRecords_primaryKey (mem : r ∈ entryRecords dir e) : r.2 ∈ e.2 := by
  cases unique : dir.unique with
  | true =>
    simp only [entryRecords, unique, if_true, firstPair, List.mem_map] at mem
    obtain ⟨pk, isFirst, rfl⟩ := mem
    exact mem_of_mem_head? (Option.mem_toList.mp isFirst)
  | false =>
    simp only [entryRecords, unique, Bool.false_eq_true, if_false, pairsOf, List.mem_map] at mem
    obtain ⟨pk, present, rfl⟩ := mem
    exact mem_primaryKeysFrom.mp present

variable [LinearOrder Key]

theorem primaryKeysFrom_sorted {forward : Bool} {pks : List Key}
    (ascending : pks.Pairwise (· < ·)) :
    (primaryKeysFrom forward pks).Pairwise (Before forward) := by
  cases forward with
  | true =>
    apply ascending.imp
    intro x y less
    simpa using less
  | false =>
    apply pairwise_reverse.mpr
    apply ascending.imp
    intro x y less
    simpa using less

theorem entryRecords_sorted (ascending : e.2.Pairwise (· < ·)) :
    (entryRecords dir e).Pairwise (RecordBefore dir.forward) := by
  cases unique : dir.unique with
  | true =>
    simp only [entryRecords, unique, if_true, firstPair]
    cases e.2.head? <;> simp
  | false =>
    simp only [entryRecords, unique, Bool.false_eq_true, if_false, pairsOf]
    apply pairwise_map.mpr
    apply (primaryKeysFrom_sorted ascending).imp
    intro x y early
    exact .inr ⟨rfl, early⟩

omit [LinearOrder Key] in
theorem filter_flatMap_entryRecords (entries : List (Key × List Key)) (keep : Key → Bool) :
    (entries.flatMap (entryRecords direction)).filter (fun r => keep r.1) =
      (entries.filter fun entry => keep entry.1).flatMap (entryRecords direction) := by
  induction entries with
  | nil => rfl
  | cons entry rest ih =>
    rw [flatMap_cons, filter_append, ih]
    cases kept : keep entry.1 with
    | true =>
      have all : (entryRecords direction entry).filter (fun r => keep r.1) =
          entryRecords direction entry := by
        apply filter_eq_self.mpr
        intro r mem
        rw [entryRecords_key mem, kept]
      simp [kept, all]
    | false =>
      have nothing : (entryRecords direction entry).filter (fun r => keep r.1) = [] := by
        apply filter_eq_nil_iff.mpr
        intro r mem
        rw [entryRecords_key mem, kept]
        exact Bool.false_ne_true
      simp [kept, nothing]

theorem RecordBefore.irrefl (forward : Bool) (record : Key × Key) :
    ¬ RecordBefore forward record record := by
  rintro (early | ⟨_, early⟩)
  · exact Before.irrefl _ _ early
  · exact Before.irrefl _ _ early

theorem RecordBefore.trans {forward : Bool} {first y third : Key × Key}
    (early : RecordBefore forward first y) (late : RecordBefore forward y third) :
    RecordBefore forward first third := by
  rcases early with keys | ⟨eq, primary⟩
  · rcases late with later | ⟨equal, _⟩
    · exact .inl (keys.trans later)
    · exact .inl (equal ▸ keys)
  rcases late with later | ⟨equal, further⟩
  · exact .inl (eq ▸ later)
  · exact .inr ⟨eq.trans equal, primary.trans further⟩

theorem RecordBefore.asymm {forward : Bool} {first second : Key × Key}
    (early : RecordBefore forward first second) : ¬ RecordBefore forward second first :=
  fun late => RecordBefore.irrefl _ _ (early.trans late)

theorem enumeration_sorted (view : View Key Value) (dir : IDBCursorDirection)
    (rg : IDBKeyRange Key) : (view.enumeration dir rg).Pairwise (RecordBefore dir.forward) := by
  apply List.Pairwise.filter
  cases src : view.index with
  | none =>
    simp only [View.records, src]
    apply pairwise_map.mpr
    apply (view.store.ordered_walk dir.forward).imp
    intro x y early
    exact .inl early
  | some data =>
    simp only [View.records, src]
    apply pairwise_flatMap.mpr
    constructor
    · intro e mem
      exact entryRecords_sorted (view.ascending data src e ((data.mem_ordered _ e).mp mem))
    apply (data.ordered_walk dir.forward).imp
    intro x y early r firstMember other secondMember
    left
    rwa [entryRecords_key firstMember, entryRecords_key secondMember]

end Records

variable [LinearOrder Key]

/-- When a read through an index is right: a first one has an entry or a bound to
start at, and not a stored bound that the range leaves out; one that advances has
nothing to skip at the key it advances to, and backward nothing to skip at all. -/
def IndexMeets (view : View Key Value) (data : SortedMap Key (List Key))
    (direction : IDBCursorDirection) (range : IDBKeyRange Key)
    (position : CursorPosition Key) : Prop :=
  match position.last, position.advance with
  | none, _ =>
    (data.entries ≠ [] ∨ range.startBound direction.forward ≠ none) ∧
      ∀ bound ∈ range.startBound direction.forward,
        range.startOpen direction.forward = true → bound ∈ data.keys →
          view.enumeration direction range = []
  | some _, none => True
  | some last, some advance =>
    advance.1 ≠ last.1 → ∀ record ∈ view.enumeration direction range,
      RecordBefore direction.forward last record →
      (direction.forward = true → record.1 = advance.1) →
        ¬ BeforeAdvance direction.forward record advance

section Reads

variable {data : SortedMap Key (List Key)} {req : RecordGetRequest Key}

theorem compareKeys_beq_gt (x y : Key) : (compareKeys x y == .gt) = decide (y < x) := by
  rw [Bool.eq_iff_iff]
  simp [compareKeys_gt_iff]

theorem compareKeys_beq_lt (x y : Key) : (compareKeys x y == .lt) = decide (x < y) := by
  rw [Bool.eq_iff_iff]
  simp [compareKeys_lt_iff]

theorem indexStart_of_advance {start : Key} {primaryPos : Option Key}
    (r : advanceIndex req (req.lastIndexPosition.or req.startBound)
      req.lastObjectStorePosition = .ok (some start, primaryPos)) :
    indexStart data req = .ok (((data.ordered req.forward).dropWhile fun e =>
      decide (Before req.forward e.1 start)).head?, primaryPos) := by
  rw [indexStart, r, ← data.pair_or_nextPair]
  cases h : data.get? start <;> simp [h]

theorem indexStart_of_none {primaryPos : Option Key}
    (r : advanceIndex req (req.lastIndexPosition.or req.startBound)
      req.lastObjectStorePosition = .ok (none, primaryPos)) : indexStart data req =
      match (data.ordered req.forward).head? with
      | none => .error (.error "invariant violated")
      | some e => .ok (some e, primaryPos) := by
  simp only [indexStart, r, Option.none_or, ← data.head?_ordered]
  cases split : data.ordered req.forward with
  | nil => rfl
  | cons e rest =>
    have h := @SortedMap.get?_of_ordered _ _ _ data req.forward [] rest e split
    simp [h]

theorem indexRead_unique {pre rest : List (Key × List Key)} {primaryPos : Option Key}
    (nonempty : ∀ e ∈ data.entries, e.2 ≠ []) (unique : req.direction.unique = true)
    (split : data.ordered req.forward = pre ++ rest)
    (start : indexStart data req = .ok (rest.head?, primaryPos)) :
    indexRead data req = .ok (limited req.limit
      (((rest.takeWhile fun later => req.keyRange.includes later.1).filter
        fun later => req.lastIndexPosition.all (later.1 ≠ ·)).flatMap firstPair)) := by
  have enough : rest.length < indexRounds data := by
    rw [← rounds_ordered data req.forward, split]
    simp only [rounds, map_append, sum_append]
    have longer : rest.length ≤ (rest.map fun e => e.2.length + 1).sum := by
      clear split start
      induction rest with
      | nil => exact le_rfl
      | cons e rest ih =>
        simp only [length_cons, map_cons, sum_cons]
        omega
    omega
  have walk := uniqueLoop_walk nonempty split enough (Room.nil req.limit)
  rw [nil_append] at walk
  rw [indexRead, start]
  simp only [bind, Except.bind, unique, if_true, pure, Except.pure, walk]

theorem indexRead_entry {pre rest : List (Key × List Key)} {e : Key × List Key}
    {primaryPos : Option Key} {remaining : List Key} (each : req.direction.unique = false)
    (split : data.ordered req.forward = pre ++ e :: rest)
    (start : indexStart data req = .ok (some e, primaryPos))
    (left : remainingPrimaryKeys req e.1 e.2 primaryPos = .ok remaining)
    (fewer : remaining.length ≤ e.2.length) : indexRead data req = .ok (limited req.limit
      (if req.keyRange.includes e.1 then
        remaining.map (e.1, ·) ++
          (rest.takeWhile fun later => req.keyRange.includes later.1).flatMap (pairsOf req.forward)
      else [])) := by
  have enough : remaining.length + 1 + rounds rest ≤ indexRounds data := by
    rw [← rounds_ordered data req.forward, split]
    simp only [rounds, map_append, sum_append, map_cons, sum_cons]
    omega
  have walk := indexLoop_walk split enough (Room.nil req.limit)
  rw [nil_append] at walk
  rw [indexRead, start]
  simp only [bind, Except.bind, each, Bool.false_eq_true, if_false, pure, Except.pure, left, walk]

theorem indexRead_nothing {primaryPos : Option Key} (each : req.direction.unique = false)
    (start : indexStart data req = .ok (none, primaryPos)) : indexRead data req = .ok [] := by
  rw [indexRead, start]
  simp only [bind, Except.bind, each, Bool.false_eq_true, if_false, pure, Except.pure]

end Reads

end Anastasis.Idb
