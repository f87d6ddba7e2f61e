import Anastasis.Idb.Cursors
import Mathlib.Data.List.Induction

/-! Which calls of `getRecords` answer as they should, and with them cursors and
the methods of stores and indexes. -/

set_option autoImplicit false

namespace Anastasis.Idb

open Library List

variable {Key Value : Type} [LinearOrder Key]

section Calls

variable (view : View Key Value) (direction dir : IDBCursorDirection)
  (range rg : Option (IDBKeyRange Key)) (position pos : CursorPosition Key)

theorem enumeration_stored {r : Key × Key} (mem : r ∈ view.enumeration dir (fullRange rg)) :
    view.store.contains r.2 = true := by
  cases src : view.index with
  | none =>
    obtain ⟨eq, kept, _⟩ := (mem_enumeration_store src).mp mem
    exact (view.store.contains_iff _).mpr (eq ▸ kept)
  | some data =>
    obtain ⟨e, has, _, isR⟩ := (mem_enumeration_index src).mp mem
    exact view.stored data src e has _ (entryRecords_primaryKey isR)

theorem expected_subset {r : Key × Key} (mem : r ∈ view.expected dir (fullRange rg) pos) :
    r ∈ view.enumeration dir (fullRange rg) := mem_of_mem_filter mem

theorem limited_subset {Item : Type} {cap : Int} {items : List Item} {item : Item}
    (mem : item ∈ limited cap items) : item ∈ items := by
  by_cases all : cap ≤ 0
  · simpa [limited, all] using mem
  · simp only [limited, all, if_false] at mem
    exact mem_of_mem_take mem

/-- Whatever their limit and result level are, calls return the first of the
records found. -/
structure Calls (found : List (Key × Key)) : Prop where
  calls : ∀ limit level, getRecords view.store view.index
    (view.request direction range position limit level) =
      respond view.store view.index.isSome level (limited limit found)
  diagonal : view.index = none → ∀ record ∈ found, record.1 = record.2

theorem calls_of_store {h : List Key} (src : view.index = none)
    (reads : StoreReads view dir rg pos h) :
    Calls view dir rg pos (h.map fun key => (key, key)) := by
  constructor
  · intro cap level
    rw [← map_limited, src]
    simp only [getRecords, reads cap level, bind, Except.bind]
    rfl
  intro _ r mem
  obtain ⟨key, _, rfl⟩ := List.mem_map.mp mem
  rfl

theorem calls_of_index {data : SortedMap Key (List Key)} {found : List (Key × Key)}
    (src : view.index = some data) (reads : IndexReads view data direction range position found) :
    Calls view direction range position found := by
  constructor
  · intro cap level
    rw [src]
    simp only [getRecords, reads cap level, bind, Except.bind]
    rfl
  intro none
  rw [src] at none
  cases none

theorem calls_decide (stands : view.Stands dir (fullRange rg) pos) :
    (¬ view.Meets dir rg pos ∧ ∃ thrown, ∀ cap level, getRecords view.store view.index
        (view.request dir rg pos cap level) = .error thrown) ∨
    ∃ h, Calls view dir rg pos h ∧ Decides (view.Meets dir rg pos) h
        (view.expected dir (fullRange rg) pos) := by
  cases src : view.index with
  | none =>
    obtain ⟨h, reads, decides⟩ := storeReads_decides src stands
    have calls := calls_of_store view dir rg pos src reads
    refine .inr ⟨_, calls, ?_⟩
    simpa [View.Meets, src] using decides
  | some data =>
    rcases indexReads_decides src stands with ⟨fails, thrown, read⟩ | ⟨h, reads, decides⟩
    · refine .inl ⟨by simpa [View.Meets, src] using fails, thrown, ?_⟩
      intro cap level
      simp only [getRecords, read cap level, bind, Except.bind]
    have calls := calls_of_index view dir rg pos src reads
    refine .inr ⟨_, calls, ?_⟩
    simpa [View.Meets, src] using decides

theorem respond_onlyKeys (records : List (Key × Key)) :
    respond view.store view.index.isSome .onlyKeys records =
      .ok (view.response .onlyKeys records) := by
  simp [respond, View.response]

theorem answers_iff_meets (stands : view.Stands direction (fullRange range) position)
    (cap : Int) :
    view.Answers direction range position cap ↔ view.Meets direction range position := by
  rcases calls_decide view direction range position stands with
    ⟨fails, thrown, calls⟩ | ⟨h, ⟨calls, diagonal⟩, decides⟩
  · constructor
    · intro answers
      have ans := answers .onlyKeys
      rw [calls] at ans
      cases ans
    · intro meets
      exact absurd meets fails
  · rw [← decides.limited_iff cap]
    constructor
    · intro answers
      have ans := answers .onlyKeys
      rw [calls, respond_onlyKeys] at ans
      apply response_injective view _ (Except.ok.inj ans)
      intro src r mem
      rcases mem_append.mp mem with isF | isExpected
      · exact diagonal src r (limited_subset isF)
      · exact ((mem_enumeration_store src).mp
          (expected_subset view direction range position (limited_subset isExpected))).1
    · intro eq level
      rw [calls, eq]
      apply respond_eq
      intro r mem
      exact enumeration_stored view direction range
        (expected_subset view direction range position (limited_subset mem))

end Calls

section Cursor

variable (view : View Key Value) (direction dir : IDBCursorDirection)
  (range rg : Option (IDBKeyRange Key)) (keyOnly : Bool)

def cursorAt (last : Option (Key × Key)) : BridgeIDBCursor Key :=
  { direction := direction
    range := range
    keyOnly := keyOnly
    indexPosition := if view.index.isSome then last.map Prod.fst else none
    objectStorePosition := last.map Prod.snd }

def shown (record : Key × Key) : CursorRecord Key Value :=
  ⟨record.1, record.2, if keyOnly then none else view.store.get? record.2⟩

def iterated (last : Option (Key × Key)) :
    Option (Key × Key) → Except BackendError (BridgeIDBCursor Key × Option (CursorRecord Key Value))
  | none => .ok (cursorAt view direction range keyOnly last, none)
  | some record =>
    if keyOnly = false ∧ view.store.get? record.2 = none then
      .error (.error "invariant violated during read")
    else .ok (cursorAt view direction range keyOnly (some record),
      some (shown view keyOnly record))

theorem recordGetRequest_cursorAt (last : Option (Key × Key)) :
    (cursorAt view dir rg keyOnly last).recordGetRequest view.index.isSome none none =
      view.request dir rg ⟨last, none⟩ 1 (if keyOnly then .onlyKeys else .full) := by
  cases indexed : view.index.isSome <;>
    simp [BridgeIDBCursor.recordGetRequest, cursorAt, View.request, indexed]

variable {last : Option (Key × Key)}

theorem accept_respond {h : List (Key × Key)} (diagonal : view.index = none → ∀ r ∈ h, r.1 = r.2) :
    (match respond view.store view.index.isSome (if keyOnly then .onlyKeys else .full)
        (limited 1 h) with
      | .error thrown => .error thrown
      | .ok resp => (cursorAt view dir rg keyOnly last).accept view.index.isSome
          resp) = iterated view dir rg keyOnly last h.head? := by
  cases h with
  | nil =>
    cases keyOnly <;>
      simp [limited, respond, readValues, BridgeIDBCursor.accept, iterated]
  | cons r rest =>
    have one : limited 1 (r :: rest) = [r] := by simp [limited]
    have sameKey : view.index.isSome = false → r.1 = r.2 := by
      intro noIndex
      apply diagonal _ r mem_cons_self
      cases src : view.index with
      | none => rfl
      | some data => simp [src] at noIndex
    rw [one]
    cases keyOnly with
    | true =>
      cases indexed : view.index.isSome with
      | true => simp [respond, BridgeIDBCursor.accept, BridgeIDBCursor.accept.moved,
          iterated, shown, cursorAt, indexed]
      | false => simp [respond, BridgeIDBCursor.accept, BridgeIDBCursor.accept.moved,
          iterated, shown, cursorAt, indexed, sameKey indexed]
    | false =>
      cases kept : view.store.get? r.2 with
      | none => simp [respond, readValues, iterated, kept]
      | some v =>
        cases indexed : view.index.isSome with
        | true => simp [respond, readValues, BridgeIDBCursor.accept,
            BridgeIDBCursor.accept.moved, iterated, shown, cursorAt, indexed, kept]
        | false => simp [respond, readValues, BridgeIDBCursor.accept,
            BridgeIDBCursor.accept.moved, iterated, shown, cursorAt, indexed, kept,
            sameKey indexed]

theorem iterate_cases (stands : view.Stands dir (fullRange rg) ⟨last, none⟩) :
    (¬ view.Meets dir rg ⟨last, none⟩ ∧ ∃ thrown,
      (cursorAt view dir rg keyOnly last).iterate view none none = .error thrown) ∨
    ∃ head, (cursorAt view dir rg keyOnly last).iterate view none none =
        iterated view dir rg keyOnly last head ∧ (view.Meets dir rg ⟨last, none⟩ ↔
        head = (view.expected dir (fullRange rg) ⟨last, none⟩).head?) := by
  rcases calls_decide view dir rg ⟨last, none⟩ stands with
    ⟨fails, thrown, calls⟩ | ⟨h, ⟨calls, diagonal⟩, decides⟩
  · refine .inl ⟨fails, thrown, ?_⟩
    rw [BridgeIDBCursor.iterate, recordGetRequest_cursorAt, calls]
  refine .inr ⟨h.head?, ?_, ?_⟩
  · rw [BridgeIDBCursor.iterate, recordGetRequest_cursorAt, calls]
    exact accept_respond view dir rg keyOnly diagonal
  constructor
  · intro meets
    rw [decides.right meets]
  intro eq
  by_contra fails
  exact decides.wrong fails eq

/-- Where a cursor that shows the whole enumeration stands, call by call. -/
def View.cursorPositions : List (CursorPosition Key) :=
  ⟨none, none⟩ ::
    (view.enumeration direction (fullRange range)).map fun record => ⟨some record, none⟩

theorem stands_last (mem : ∀ r ∈ last, r ∈ view.enumeration dir (fullRange rg)) :
    view.Stands dir (fullRange rg) ⟨last, none⟩ := ⟨mem, by simp, by simp⟩

theorem expected_after {pre rest : List (Key × Key)}
    (split : view.enumeration dir (fullRange rg) = pre ++ rest) :
    view.expected dir (fullRange rg) ⟨pre.getLast?, none⟩ = rest := by
  induction pre using List.reverseRecOn with
  | nil => simpa [View.expected] using split
  | append_singleton pre last _ =>
    have sorted := enumeration_sorted view dir (fullRange rg)
    rw [split] at sorted
    obtain ⟨_, _, across⟩ := pairwise_append.mp sorted
    obtain ⟨_, _, old⟩ := pairwise_append.mp (pairwise_append.mp sorted).1
    have dropped : (pre ++ [last]).filter
        (fun r => decide (RecordBefore dir.forward last r)) = [] := by
      apply filter_eq_nil_iff.mpr
      intro r mem
      rcases mem_append.mp mem with isEarlier | isLast
      · simpa using (old r isEarlier last mem_cons_self).asymm
      · rw [mem_singleton.mp isLast]
        simpa using RecordBefore.irrefl dir.forward last
    have kept : rest.filter (fun r => decide (RecordBefore dir.forward last r)) = rest := by
      apply filter_eq_self.mpr
      intro r mem
      simpa using across last (mem_append_right _ mem_cons_self) r mem
    have whole : view.expected dir (fullRange rg) ⟨(pre ++ [last]).getLast?, none⟩ =
        (view.enumeration dir (fullRange rg)).filter fun r =>
          decide (RecordBefore dir.forward last r) := by
      simp [View.expected]
    rw [whole, split, filter_append, dropped, kept, nil_append]

theorem shown_injective {x second : Key × Key}
    (eq : shown view keyOnly x = shown view keyOnly second) : x = second := by
  simp only [shown, CursorRecord.mk.injEq] at eq
  exact Prod.ext eq.1 eq.2.1

theorem iterate_from {pre rest : List (Key × Key)}
    (split : view.enumeration dir (fullRange rg) = pre ++ rest) :
    (¬ view.Meets dir rg ⟨pre.getLast?, none⟩ ∧ ∃ thrown,
      (cursorAt view dir rg keyOnly pre.getLast?).iterate view none none = .error thrown) ∨
    ∃ head, (cursorAt view dir rg keyOnly pre.getLast?).iterate view none none =
        iterated view dir rg keyOnly pre.getLast? head ∧
      (view.Meets dir rg ⟨pre.getLast?, none⟩ ↔ head = rest.head?) := by
  have stands : view.Stands dir (fullRange rg) ⟨pre.getLast?, none⟩ := by
    apply stands_last
    intro r isLast
    rw [split]
    exact mem_append_left _ (mem_of_getLast? isLast)
  have step := iterate_cases view dir rg keyOnly stands
  rwa [expected_after view dir rg split] at step

/-- Asked again and again from a record on, a cursor shows the rest of the
enumeration just when each of these calls is right. -/
theorem records_iff_from {pre rest : List (Key × Key)} {calls : Nat}
    (split : view.enumeration direction (fullRange range) = pre ++ rest)
    (enough : rest.length < calls) :
    (cursorAt view direction range keyOnly pre.getLast?).records view calls =
        .ok (rest.map (shown view keyOnly)) ↔
      ∀ position ∈ (⟨pre.getLast?, none⟩ : CursorPosition Key) ::
        rest.map (fun r => ⟨some r, none⟩), view.Meets direction range position := by
  induction rest generalizing pre calls with
  | nil =>
    obtain ⟨calls, rfl⟩ := Nat.exists_eq_add_one_of_ne_zero (by omega : calls ≠ 0)
    rcases iterate_from view direction range keyOnly split with
      ⟨fails, thrown, iterate⟩ | ⟨head, iterate, meets⟩
    · simp [BridgeIDBCursor.records, iterate, fails]
    simp only [map_nil, mem_singleton, forall_eq]
    rw [meets, BridgeIDBCursor.records, iterate]
    cases head with
    | none => simp [iterated]
    | some r =>
      simp only [iterated, head?_nil, reduceCtorEq, iff_false]
      by_cases unread : keyOnly = false ∧ view.store.get? r.2 = none
      · simp [unread]
      simp only [unread, if_false]
      cases BridgeIDBCursor.records view calls
        (cursorAt view direction range keyOnly (some r)) <;> simp
  | cons r rest ih =>
    obtain ⟨calls, rfl⟩ := Nat.exists_eq_add_one_of_ne_zero (by omega : calls ≠ 0)
    have contained := enumeration_stored view direction range
      (split ▸ mem_append_right pre mem_cons_self)
    have kept : view.store.get? r.2 ≠ none := by
      intro gone
      simp [SortedMap.contains, gone] at contained
    have again := @ih (pre ++ [r]) calls (by simpa using split)
      (by simpa using enough)
    rw [getLast?_append_of_ne_nil _ (cons_ne_nil _ _), getLast?_singleton] at again
    rcases iterate_from view direction range keyOnly split with
      ⟨fails, thrown, iterate⟩ | ⟨head, iterate, meets⟩
    · simp [BridgeIDBCursor.records, iterate, fails]
    rw [map_cons, map_cons, forall_mem_cons, ← again, meets,
      BridgeIDBCursor.records, iterate, head?_cons]
    cases head with
    | none => simp [iterated]
    | some y =>
      simp only [Option.some.injEq, iterated]
      by_cases eq : y = r
      · rw [eq, if_neg (fun unread => kept unread.2)]
        dsimp only
        cases (cursorAt view direction range keyOnly (some r)).records view calls <;>
          simp
      by_cases unread : keyOnly = false ∧ view.store.get? y.2 = none
      · simp [unread, eq]
      rw [if_neg unread]
      dsimp only
      cases (cursorAt view direction range keyOnly (some y)).records view calls with
      | error thrown => simp [eq]
      | ok more =>
        simp only [Except.ok.injEq, List.cons.injEq, eq, false_and, iff_false]
        intro equal
        exact eq (shown_injective view keyOnly equal.1)

theorem records_iff {calls : Nat}
    (enough : (view.enumeration direction (fullRange range)).length < calls) :
    (openCursor direction range keyOnly).records view calls =
        .ok ((view.enumeration direction (fullRange range)).map (shown view keyOnly)) ↔
      ∀ position ∈ view.cursorPositions direction range, view.Meets direction range position := by
  have opened : openCursor direction range keyOnly =
      cursorAt view direction range keyOnly none := by
    simp [openCursor, cursorAt]
  rw [opened]
  exact @records_iff_from _ _ _ view direction range keyOnly [] _ calls rfl enough

end Cursor

section Methods

variable (view : View Key Value) (query : Option (IDBKeyRange Key))

theorem calls_decide_first : (¬ view.Meets .next query ⟨none, none⟩ ∧ ∃ thrown, ∀ cap level,
      getRecords view.store view.index
        (view.request .next query ⟨none, none⟩ cap level) = .error thrown) ∨
    ∃ h, Calls view .next query ⟨none, none⟩ h ∧
      DecidesFirst (view.Meets .next query ⟨none, none⟩) h
        (view.enumeration .next (fullRange query)) := by
  cases src : view.index with
  | none =>
    obtain ⟨h, reads, decides⟩ := @storeReads_decides_first _ _ _ view .next query _ src rfl
    have calls := calls_of_store view .next query _ src reads
    rw [View.expected_first] at decides
    refine .inr ⟨_, calls, ?_⟩
    simpa [View.Meets, src] using decides
  | some data =>
    rcases @indexReads_decides_first _ _ _ view data .next query _ src rfl with
      ⟨fails, thrown, read⟩ | ⟨h, reads, decides⟩
    · refine .inl ⟨by simpa [View.Meets, src] using fails, thrown, ?_⟩
      intro cap level
      simp only [getRecords, read cap level, bind, Except.bind]
    have calls := calls_of_index view .next query _ src reads
    rw [View.expected_first] at decides
    refine .inr ⟨_, calls, ?_⟩
    simpa [View.Meets, src] using decides

theorem respondTo_eq (cap : Int) (level : ResultLevel) :
    respondTo view query cap level = getRecords view.store view.index
      (view.request .next query ⟨none, none⟩ cap level) := by
  simp [respondTo, methodRequest, View.request]

variable {view query}

/-- When calls return the enumeration, the methods agree with it, but `count`
of an index counts one record at most. -/
theorem methodsAgree_of_responses (responses : ∀ cap level, respondTo view query cap level =
      .ok (view.response level (limited cap (view.enumeration .next (fullRange query))))) :
    view.MethodsAgree query ↔ (view.index.isSome = true →
      (view.enumeration .next (fullRange query)).length ≤ 1) := by
  have kept : ∀ r ∈ view.enumeration .next (fullRange query), view.store.contains r.2 = true :=
    fun r mem => enumeration_stored view .next query mem
  have cnt : queryCount view query = .ok (view.enumeration .next (fullRange query)).length ↔
      (view.index.isSome = true → (view.enumeration .next (fullRange query)).length ≤ 1) := by
    cases indexed : view.index.isSome with
    | false => simp [queryCount, responses, bind, Except.bind, pure, Except.pure, indexed,
        View.response, limited]
    | true =>
      simp only [queryCount, responses, bind, Except.bind, pure, Except.pure, indexed,
        View.response, limited, if_true, Except.ok.injEq]
      simp
  constructor
  · intro agrees
    exact cnt.mp agrees.count
  intro few
  constructor
  · cases isRecords : view.enumeration .next (fullRange query) with
    | nil => simp [queryGet, responses, isRecords, bind, Except.bind, pure, Except.pure,
        View.response, limited, View.values]
    | cons r rest =>
      obtain ⟨v, h⟩ := Option.isSome_iff_exists.mp (kept r (isRecords ▸ mem_cons_self))
      cases indexed : view.index.isSome <;>
        simp [queryGet, responses, isRecords, bind, Except.bind, View.response, limited,
          View.values, h, singleResult, indexed]
  · cases isRecords : view.enumeration .next (fullRange query) with
    | nil => simp [queryGetKey, responses, isRecords, bind, Except.bind, pure, Except.pure,
        View.response, limited]
    | cons r rest =>
      cases indexed : view.index.isSome <;>
        simp [queryGetKey, responses, isRecords, bind, Except.bind, View.response, limited,
          singleResult, indexed]
  · intro count
    simp [queryGetAll, responses, bind, Except.bind, View.response, View.values, allResults]
  · intro count
    simp [queryGetAllKeys, responses, bind, Except.bind, View.response, allResults]
  · exact cnt.mpr few

theorem methodsAgree_iff : view.MethodsAgree query ↔ view.Meets .next query ⟨none, none⟩ ∧
      (view.index.isSome = true → (view.enumeration .next (fullRange query)).length ≤ 1) := by
  have right : (∃ h, Calls view .next query ⟨none, none⟩ h ∧
      h = view.enumeration .next (fullRange query)) → (view.MethodsAgree query ↔
        (view.index.isSome = true → (view.enumeration .next (fullRange query)).length ≤ 1)) := by
    rintro ⟨_, ⟨calls, _⟩, rfl⟩
    apply methodsAgree_of_responses
    intro cap level
    rw [respondTo_eq, calls]
    apply respond_eq
    intro r mem
    exact enumeration_stored view .next query (limited_subset mem)
  rcases calls_decide_first view query with
    ⟨fails, thrown, calls⟩ | ⟨h, calls, ⟨meets, eq⟩ | ⟨nothing, eq⟩⟩
  · constructor
    · intro agrees
      have getKey := agrees.getKey
      simp [queryGetKey, respondTo_eq, calls, bind, Except.bind] at getKey
    · intro agrees
      exact absurd agrees.1 fails
  · rw [right ⟨h, calls, eq⟩]
    simp [meets]
  by_cases empty : view.enumeration .next (fullRange query) = []
  · rw [right ⟨h, calls, nothing.trans empty.symm⟩]
    simp [eq.mpr empty]
  constructor
  · intro agrees
    have getKey := agrees.getKey
    obtain ⟨x, rest, isFirst⟩ := exists_cons_of_ne_nil empty
    rw [isFirst, queryGetKey, respondTo_eq, calls.calls, nothing, limited_nil] at getKey
    simp [respond, bind, Except.bind, pure, Except.pure] at getKey
  · intro agrees
    exact absurd (eq.mp agrees.1) empty

end Methods

/-- Calls, cursors and methods answer as the enumeration of their range just when
they meet these conditions. -/
theorem queries_answer_iff (view : View Key Value) :
    (∀ direction range position limit, view.Stands direction (fullRange range) position →
      (view.Answers direction range position limit ↔ view.Meets direction range position)) ∧
    (∀ direction range keyOnly calls,
      (view.enumeration direction (fullRange range)).length < calls →
      ((openCursor direction range keyOnly).records view calls =
          .ok ((view.enumeration direction (fullRange range)).map (shown view keyOnly)) ↔
        ∀ position ∈ view.cursorPositions direction range, view.Meets direction range position)) ∧
    (∀ query, view.MethodsAgree query ↔ view.Meets .next query ⟨none, none⟩ ∧
      (view.index.isSome = true → (view.enumeration .next (fullRange query)).length ≤ 1)) := by
  refine ⟨?_, ?_, fun query => methodsAgree_iff⟩
  · intro direction range position limit stands
    exact answers_iff_meets view direction range position stands limit
  · intro direction range keyOnly calls enough
    exact records_iff view direction range keyOnly enough

/-- Three records, and a cursor that is to show them from the last to the first. -/
def threeRecords : View Nat String where
  store := ⟨[(1, "a"), (2, "b"), (3, "c")], by decide⟩
  index := none
  nonempty := nofun
  ascending := nofun
  stored := nofun

theorem threeRecords_answers : threeRecords.Answers .next none ⟨some (1, 1), none⟩ 1 :=
  ((queries_answer_iff threeRecords).1 .next none ⟨some (1, 1), none⟩ 1 ⟨fun last member => by
      cases member
      decide +kernel, nofun, nofun⟩).mpr (by simp [View.Meets, threeRecords, StoreMeets,
        IDBCursorDirection.forward])

/-- A backward cursor ends after the last record. -/
theorem backward_cursor_ends :
    threeRecords.enumeration .prev (fullRange none) = [(3, 3), (2, 2), (1, 1)] ∧
      (openCursor .prev none true).records threeRecords 4 = .ok [⟨3, 3, none⟩] ∧
      ¬ threeRecords.Answers .prev none ⟨some (3, 3), none⟩ 1 := by
  refine ⟨by decide +kernel, by decide +kernel, ?_⟩
  intro answers
  have answer := answers .onlyKeys
  revert answer
  decide +kernel

end Anastasis.Idb
