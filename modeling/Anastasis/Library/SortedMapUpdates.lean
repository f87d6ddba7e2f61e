import Anastasis.Library.SortedMap

/-! Setting and deleting keys of a map that is kept in the order of its keys. -/

set_option autoImplicit false

namespace Library.SortedMap

open List

variable {Key Value : Type} [LinearOrder Key]

def insertEntry (key : Key) (value : Value) : List (Key × Value) → List (Key × Value)
  | [] => [(key, value)]
  | (candidate, old) :: rest =>
    if key < candidate then (key, value) :: (candidate, old) :: rest
    else if key = candidate then (key, value) :: rest
    else (candidate, old) :: insertEntry key value rest

variable {value v : Value}

theorem mem_insertEntry {key : Key} {entries : List (Key × Value)} {e : Key × Value}
    (mem : e ∈ insertEntry key v entries) : e = (key, v) ∨ e ∈ entries := by
  induction entries with
  | nil => exact .inl (mem_singleton.mp mem)
  | cons head rest ih =>
    obtain ⟨cand, old⟩ := head
    rw [insertEntry] at mem
    split at mem
    next => exact mem_cons.mp mem
    next =>
      split at mem
      next =>
        rcases mem_cons.mp mem with new | later
        · exact .inl new
        · exact .inr (mem_cons_of_mem _ later)
      next =>
        rcases mem_cons.mp mem with eq | later
        · exact .inr (mem_cons.mpr (.inl eq))
        rcases ih later with new | old
        · exact .inl new
        · exact .inr (mem_cons_of_mem _ old)

theorem insertEntry_sorted {key : Key} {entries : List (Key × Value)}
    (sorted : entries.Pairwise fun earlier later => earlier.1 < later.1) :
    (insertEntry key v entries).Pairwise fun earlier later => earlier.1 < later.1 := by
  induction entries with
  | nil => exact pairwise_singleton _ _
  | cons head rest ih =>
    obtain ⟨cand, old⟩ := head
    obtain ⟨x, later⟩ := pairwise_cons.mp sorted
    rw [insertEntry]
    split
    next less =>
      apply List.Pairwise.cons _ sorted
      intro e mem
      rcases mem_cons.mp mem with rfl | mem
      · exact less
      · exact less.trans (x e mem)
    next notLess =>
      split
      next eq =>
        subst eq
        exact List.Pairwise.cons x later
      next ne =>
        apply List.Pairwise.cons _ (ih later)
        intro e mem
        rcases mem_insertEntry mem with rfl | mem
        · exact lt_of_le_of_ne (not_lt.mp notLess) (Ne.symm ne)
        · exact x e mem

def insert (map : SortedMap Key Value) (key : Key) (value : Value) : SortedMap Key Value :=
  ⟨insertEntry key value map.entries, insertEntry_sorted map.sorted⟩

def erase (map : SortedMap Key Value) (key : Key) : SortedMap Key Value :=
  ⟨map.entries.filter fun entry => entry.1 ≠ key, map.sorted.filter _⟩

def values (map : SortedMap Key Value) : List Value := map.entries.map Prod.snd

theorem get?_insert_self (map : SortedMap Key Value) (key : Key) (value : Value) :
    (map.insert key value).get? key = some value := by
  obtain ⟨entries, sorted⟩ := map
  simp only [get?, insert]
  clear sorted
  induction entries with
  | nil => simp [insertEntry]
  | cons head rest ih =>
    obtain ⟨cand, old⟩ := head
    rw [insertEntry]
    split
    next => simp
    next =>
      split
      next => simp
      next ne => simpa [Ne.symm ne] using ih

theorem get?_insert_of_ne (map : SortedMap Key Value) {key other : Key} (v : Value)
    (ne : other ≠ key) : (map.insert key v).get? other = map.get? other := by
  obtain ⟨entries, sorted⟩ := map
  simp only [get?, insert]
  clear sorted
  induction entries with
  | nil => simp [insertEntry, Ne.symm ne]
  | cons head rest ih =>
    obtain ⟨cand, old⟩ := head
    rw [insertEntry]
    split
    next => simp [Ne.symm ne]
    next =>
      split
      next eq =>
        subst eq
        simp [Ne.symm ne]
      next =>
        by_cases eq : cand = other
        · simp [eq]
        · simpa [eq] using ih

theorem get?_insert (map : SortedMap Key Value) (key other : Key) (v : Value) :
    (map.insert key v).get? other = if other = key then some v else map.get? other := by
  split
  next eq =>
    subst eq
    exact get?_insert_self map other v
  next ne => exact get?_insert_of_ne map v ne

theorem ext_get? {left right : SortedMap Key Value}
    (eq : ∀ key, left.get? key = right.get? key) : left = right := by
  have members : ∀ e, e ∈ left.entries ↔ e ∈ right.entries := by
    intro e
    rw [← left.get?_eq_some_iff e.1 e.2, ← right.get?_eq_some_iff e.1 e.2, eq e.1]
  have nodup : ∀ map : SortedMap Key Value, map.entries.Nodup := fun map =>
    map.sorted.imp fun less equal => absurd (congrArg Prod.fst equal) (ne_of_lt less)
  have perm : left.entries.Perm right.entries :=
    (perm_ext_iff_of_nodup (nodup left) (nodup right)).mpr members
  have equal : left.entries = right.entries :=
    perm.eq_of_pairwise (fun _ _ _ _ less greater => absurd less (lt_asymm greater)) left.sorted
      right.sorted
  cases left
  cases right
  cases equal
  rfl

variable {map : SortedMap Key Value}

theorem insert_same {key : Key} (h : map.get? key = some v) : map.insert key v = map := by
  apply ext_get?
  intro y
  rw [get?_insert]
  split
  next eq => rw [eq, h]
  next => rfl

theorem get?_erase (map : SortedMap Key Value) (key other : Key) :
    (map.erase key).get? other = if other = key then none else map.get? other := by
  apply Option.ext
  intro v
  have mem : (map.erase key).get? other = some v ↔ map.get? other = some v ∧ other ≠ key := by
    rw [get?_eq_some_iff, get?_eq_some_iff, erase, mem_filter, decide_eq_true_iff]
  rw [mem]
  split
  next eq => simp [eq]
  next ne => simp [ne]

theorem mem_values_iff : value ∈ map.values ↔ ∃ key, map.get? key = some value := by
  constructor
  · intro mem
    obtain ⟨⟨key, _⟩, isEntry, rfl⟩ := List.mem_map.mp mem
    exact ⟨key, (map.get?_eq_some_iff key _).mpr isEntry⟩
  · rintro ⟨key, h⟩
    exact List.mem_map.mpr ⟨_, (map.get?_eq_some_iff key value).mp h, rfl⟩

def All (holds : Key → Value → Prop) (map : SortedMap Key Value) : Prop :=
  ∀ key value, map.get? key = some value → holds key value

variable {holds : Key → Value → Prop}

theorem All.insert (all : map.All holds) {key : Key} (new : holds key v) :
    (map.insert key v).All holds := by
  intro y h isFound
  rw [get?_insert] at isFound
  split at isFound
  next eq =>
    cases isFound
    rw [eq]
    exact new
  next => exact all y h isFound

theorem All.imp {weaker : Key → Value → Prop} (all : map.All holds)
    (weaken : ∀ {key v}, holds key v → weaker key v) : map.All weaker :=
  fun key v h => weaken (all key v h)

theorem all_contains (map : SortedMap Key Value) : map.All fun key _ => map.contains key :=
  fun _ v h => Option.isSome_iff_exists.mpr ⟨v, h⟩

theorem all_empty : (empty : SortedMap Key Value).All holds := nofun

theorem mem_selected_iff {Item : Type} {r : Value → Prop} [DecidablePred r]
    {make : Value → Item} {item : Item} : item ∈ (map.values.filter fun v => r v).map make ↔
      ∃ key v, map.get? key = some v ∧ r v ∧ make v = item := by
  constructor
  · intro mem
    obtain ⟨v, isValue, eq⟩ := List.mem_map.mp mem
    obtain ⟨isValue, isSelected⟩ := mem_filter.mp isValue
    obtain ⟨key, h⟩ := mem_values_iff.mp isValue
    exact ⟨key, v, h, of_decide_eq_true isSelected, eq⟩
  rintro ⟨key, v, h, isSelected, eq⟩
  exact List.mem_map.mpr ⟨v, mem_filter.mpr
    ⟨mem_values_iff.mpr ⟨key, h⟩, decide_eq_true isSelected⟩, eq⟩

theorem exists_map_values_iff {Item : Type} {make : Value → Item} {holds : Item → Prop} :
    (∃ item ∈ map.values.map make, holds item) ↔
      ∃ key v, map.get? key = some v ∧ holds (make v) := by
  constructor
  · rintro ⟨_, mem, held⟩
    obtain ⟨v, isValue, rfl⟩ := List.mem_map.mp mem
    obtain ⟨key, h⟩ := mem_values_iff.mp isValue
    exact ⟨key, v, h, held⟩
  · rintro ⟨key, v, h, held⟩
    exact ⟨_, List.mem_map_of_mem (mem_values_iff.mpr ⟨key, h⟩), held⟩

end Library.SortedMap
