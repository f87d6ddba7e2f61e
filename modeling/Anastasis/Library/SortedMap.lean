import Mathlib.Data.List.Basic
import Mathlib.Data.List.Nodup
import Mathlib.Data.List.Pairwise
import Mathlib.Order.Basic
import Mathlib.Order.Lattice
import Mathlib.Order.Defs.LinearOrder

/-! Finite maps kept in the order of their keys, and walks over their entries
in either direction. -/

set_option autoImplicit false

namespace Library

open List Option

/-- A finite map as the list of its entries in ascending order of the keys. -/
structure SortedMap (Key : Type) [LinearOrder Key] (Value : Type) where
  entries : List (Key × Value)
  sorted : entries.Pairwise fun earlier later => earlier.1 < later.1

variable {Key Value : Type} [LinearOrder Key]

/-- `Before forward first second`: a walk in the direction meets `first` before
`second`. -/
def Before (forward : Bool) (first second : Key) : Prop :=
  if forward then first < second else second < first

instance (forward : Bool) (first second : Key) : Decidable (Before forward first second) :=
  inferInstanceAs (Decidable (if forward then first < second else second < first))

@[simp] theorem before_forward (x second : Key) : Before true x second ↔ x < second := by
  simp [Before]

@[simp] theorem before_backward (first y : Key) : Before false first y ↔ y < first := by
  simp [Before]

theorem Before.irrefl (forward : Bool) (key : Key) : ¬ Before forward key key := by
  cases forward <;> simp

variable {first x second y : Key}

theorem Before.trans {forward : Bool} {third : Key} (early : Before forward first y)
    (late : Before forward y third) : Before forward first third := by
  cases forward with
  | false =>
    simp only [before_backward] at *
    exact lt_trans late early
  | true =>
    simp only [before_forward] at *
    exact lt_trans early late

theorem Before.asymm {forward : Bool} (early : Before forward first second) :
    ¬ Before forward second first := fun late => Before.irrefl forward first (early.trans late)

theorem Before.ne {forward : Bool} (early : Before forward x second) : x ≠ second := by
  intro eq
  apply Before.irrefl forward second
  rwa [eq] at early

theorem before_trichotomy (forward : Bool) (first second : Key) :
    Before forward first second ∨ first = second ∨ Before forward second first := by
  cases forward with
  | false =>
    simp only [before_backward]
    rcases lt_trichotomy first second with less | eq | more
    · exact .inr (.inr less)
    · exact .inr (.inl eq)
    · exact .inl more
  | true =>
    simp only [before_forward]
    exact lt_trichotomy first second

theorem before_of_not_before_ne {forward : Bool} (notBefore : ¬ Before forward second first)
    (ne : first ≠ second) : Before forward first second := by
  rcases before_trichotomy forward first second with early | eq | late
  · exact early
  · exact absurd eq ne
  · exact absurd late notBefore

theorem Before.of_not_before {forward : Bool} {third : Key} (early : Before forward first y)
    (notBefore : ¬ Before forward third y) : Before forward first third := by
  by_cases eq : y = third
  · exact eq ▸ early
  · exact early.trans (before_of_not_before_ne notBefore eq)

/-- In a list whose order never leaves a predicate, what is left after dropping
the items without it is what it keeps. -/
theorem dropWhile_not_eq_filter {Item : Type} {order : Item → Item → Prop}
    {items : List Item} (ordered : items.Pairwise order) {keep : Item → Bool}
    (stays : ∀ x y, order x y → keep x = true → keep y = true) :
    (items.dropWhile fun item => !keep item) = items.filter keep := by
  induction items with
  | nil => rfl
  | cons item rest ih =>
    obtain ⟨x, later⟩ := pairwise_cons.mp ordered
    cases kept : keep item with
    | false =>
      rw [dropWhile_cons_of_pos (by simp [kept]),
        filter_cons_of_neg (by simp [kept])]
      exact ih later
    | true =>
      rw [dropWhile_cons_of_neg (by simp [kept])]
      symm
      apply filter_eq_self.mpr
      intro other mem
      rcases mem_cons.mp mem with rfl | further
      · exact kept
      · exact stays item other (x other further) kept

/-- The entries stand in the order in which a walk in the direction meets them. -/
def Walk (forward : Bool) (entries : List (Key × Value)) : Prop :=
  entries.Pairwise fun earlier later => Before forward earlier.1 later.1

namespace Walk

variable {forward : Bool} {entries before pre rest : List (Key × Value)}
  {entry e : Key × Value}

theorem tail (walk : Walk forward (e :: rest)) : Walk forward rest := (pairwise_cons.mp walk).2

theorem head_before (walk : Walk forward (e :: rest)) :
    ∀ later ∈ rest, Before forward e.1 later.1 := (pairwise_cons.mp walk).1

theorem of_append (walk : Walk forward (pre ++ rest)) : Walk forward rest :=
  (pairwise_append.mp walk).2.1

theorem before_of_append (walk : Walk forward (pre ++ rest)) :
    ∀ earlier ∈ pre, ∀ later ∈ rest, Before forward earlier.1 later.1 :=
  (pairwise_append.mp walk).2.2

theorem filter (walk : Walk forward entries) (keep : Key × Value → Bool) :
    Walk forward (entries.filter keep) := List.Pairwise.filter keep walk

theorem nodup (walk : Walk forward entries) : (entries.map Prod.fst).Nodup :=
  pairwise_map.mpr (walk.imp fun early => early.ne)

theorem eq_of_key (walk : Walk forward entries) {x second : Key × Value}
    (firstMember : x ∈ entries) (secondMember : second ∈ entries)
    (eq : x.1 = second.1) : x = second := inj_on_of_nodup_map walk.nodup firstMember secondMember eq

theorem find?_after (walk : Walk forward (pre ++ e :: rest)) : (pre ++ e :: rest).find? (fun cand =>
      decide (Before forward e.1 cand.1)) = rest.head? := by
  have none : pre.find? (fun cand =>
      decide (Before forward e.1 cand.1)) = none := by
    apply find?_eq_none.mpr
    intro earlier mem
    have early := walk.before_of_append earlier mem e mem_cons_self
    simpa using early.asymm
  rw [find?_append, none, none_or, find?_cons_of_neg (by simpa using Before.irrefl forward e.1)]
  cases rest with
  | nil => rfl
  | cons next _ =>
    have later := (walk.of_append).head_before next mem_cons_self
    rw [find?_cons_of_pos (by simpa using later)]
    rfl

/-- The entry of a key, or else the next one after it, is the first entry that
does not come before the key. -/
theorem find?_from (walk : Walk forward entries) (key : Key) :
    ((entries.find? fun cand => decide (cand.1 = key)).or
      (entries.find? fun cand => decide (Before forward key cand.1))) =
      (entries.dropWhile fun cand => decide (Before forward cand.1 key)).head? := by
  induction entries with
  | nil => rfl
  | cons e rest ih =>
    rcases before_trichotomy forward e.1 key with early | eq | late
    · rw [find?_cons_of_neg (by simpa using early.ne),
        find?_cons_of_neg (by simpa using early.asymm),
        dropWhile_cons_of_pos (by simpa using early)]
      exact ih walk.tail
    · rw [find?_cons_of_pos (by simpa using eq),
        dropWhile_cons_of_neg (by simpa [eq] using Before.irrefl forward key)]
      rfl
    have gone : rest.find? (fun cand => decide (cand.1 = key)) = none := by
      apply find?_eq_none.mpr
      intro later mem
      have further := late.trans (walk.head_before later mem)
      simpa using further.ne.symm
    rw [find?_cons_of_neg (by simpa using late.ne.symm), gone, none_or,
      find?_cons_of_pos (by simpa using late),
      dropWhile_cons_of_neg (by simpa using late.asymm)]
    rfl

theorem dropWhile_at (walk : Walk forward (pre ++ e :: rest)) :
    ((pre ++ e :: rest).dropWhile fun cand =>
      decide (Before forward cand.1 e.1)) = e :: rest := by
  rw [dropWhile_append_of_pos, dropWhile_cons_of_neg (by simpa using Before.irrefl forward e.1)]
  intro earlier mem
  simpa using walk.before_of_append earlier mem e mem_cons_self

theorem filter_after (walk : Walk forward (pre ++ e :: rest)) :
    (pre ++ e :: rest).filter (fun cand =>
      decide (Before forward e.1 cand.1)) = rest := by
  have dropped : pre.filter (fun cand =>
      decide (Before forward e.1 cand.1)) = [] := by
    apply filter_eq_nil_iff.mpr
    intro earlier mem
    simpa using (walk.before_of_append earlier mem e mem_cons_self).asymm
  have kept : rest.filter (fun cand =>
      decide (Before forward e.1 cand.1)) = rest := by
    apply filter_eq_self.mpr
    intro later mem
    simpa using (walk.of_append).head_before later mem
  rw [filter_append, dropped, nil_append,
    filter_cons_of_neg (by simpa using Before.irrefl forward e.1), kept]

theorem filter_from (walk : Walk forward entries) (key : Key) :
    entries.filter (fun cand => !decide (Before forward cand.1 key)) =
      entries.dropWhile fun cand => decide (Before forward cand.1 key) := by
  rw [← dropWhile_not_eq_filter walk]
  · simp
  intro x y early late
  have notEarly : ¬ Before forward x.1 key := by simpa using late
  have stillLate : ¬ Before forward y.1 key := fun between =>
    notEarly (early.trans between)
  simpa using stillLate

theorem takeWhile_eq_filter (walk : Walk forward entries) {within : Key → Bool}
    (closed : ∀ x ∈ entries, ∀ y ∈ entries, Before forward x.1 y.1 →
      within y.1 = true → within x.1 = true) : entries.takeWhile (fun cand => within cand.1) =
      entries.filter fun cand => within cand.1 := by
  induction entries with
  | nil => rfl
  | cons e rest ih =>
    by_cases inside : within e.1 = true
    · have closedRest := ih walk.tail fun x firstMember y secondMember =>
        closed x (mem_cons_of_mem _ firstMember) y (mem_cons_of_mem _ secondMember)
      rw [takeWhile_cons_of_pos (by simpa using inside),
        filter_cons_of_pos (by simpa using inside), closedRest]
    have outside : ∀ later ∈ e :: rest, ¬ within later.1 = true := by
      intro later mem present
      rcases mem_cons.mp mem with rfl | further
      · exact inside present
      · exact inside (closed _ mem_cons_self _ mem (walk.head_before later further) present)
    rw [takeWhile_cons_of_neg (by simpa using inside)]
    exact (filter_eq_nil_iff.mpr outside).symm

end Walk

namespace SortedMap

def empty : SortedMap Key Value := ⟨[], .nil⟩

def keys (map : SortedMap Key Value) : List Key := map.entries.map Prod.fst

def get? (map : SortedMap Key Value) (key : Key) : Option Value :=
  (map.entries.find? fun entry => decide (entry.1 = key)).map Prod.snd

def contains (map : SortedMap Key Value) (key : Key) : Bool := (map.get? key).isSome

def minKey (map : SortedMap Key Value) : Option Key := map.entries.head?.map Prod.fst

def maxKey (map : SortedMap Key Value) : Option Key := map.entries.getLast?.map Prod.fst

def nextHigherPair (map : SortedMap Key Value) (key : Key) : Option (Key × Value) :=
  map.entries.find? fun entry => decide (key < entry.1)

def nextLowerPair (map : SortedMap Key Value) (key : Key) : Option (Key × Value) :=
  map.entries.reverse.find? fun entry => decide (entry.1 < key)

def nextHigherKey (map : SortedMap Key Value) (key : Key) : Option Key :=
  (map.nextHigherPair key).map Prod.fst

/-- The entries in the order in which a walk in the direction meets them. -/
def ordered (map : SortedMap Key Value) (forward : Bool) : List (Key × Value) :=
  if forward then map.entries else map.entries.reverse

theorem ordered_walk (map : SortedMap Key Value) (forward : Bool) :
    Walk forward (map.ordered forward) := by
  cases forward with
  | false =>
    apply pairwise_reverse.mpr
    apply map.sorted.imp
    intro earlier later less
    simpa using less
  | true =>
    apply map.sorted.imp
    intro earlier later less
    simpa using less

@[simp] theorem mem_ordered (map : SortedMap Key Value) (forward : Bool)
    (e : Key × Value) : e ∈ map.ordered forward ↔ e ∈ map.entries := by
  cases forward <;> simp [ordered]

theorem length_ordered (map : SortedMap Key Value) (forward : Bool) :
    (map.ordered forward).length = map.entries.length := by
  cases forward <;> simp [ordered]

theorem get?_eq_some_iff (map : SortedMap Key Value) (key : Key) (v : Value) :
    map.get? key = some v ↔ (key, v) ∈ map.entries := by
  constructor
  · intro h
    obtain ⟨e, isEntry, isValue⟩ := map_eq_some_iff.mp h
    have mem := mem_of_find?_eq_some isEntry
    have eq := find?_some isEntry
    simp only [decide_eq_true_eq] at eq
    rwa [← eq, ← isValue]
  intro mem
  have walk := map.ordered_walk true
  cases h : map.entries.find? (fun e => decide (e.1 = key)) with
  | none =>
    have gone := find?_eq_none.mp h (key, v) mem
    simp at gone
  | some e =>
    have eq := find?_some h
    simp only [decide_eq_true_eq] at eq
    have equal := walk.eq_of_key (mem_of_find?_eq_some h) mem eq
    simp [get?, h, equal]

theorem contains_iff (map : SortedMap Key Value) (key : Key) :
    map.contains key = true ↔ key ∈ map.keys := by
  constructor
  · intro h
    obtain ⟨v, isValue⟩ := isSome_iff_exists.mp h
    exact List.mem_map.mpr ⟨_, (map.get?_eq_some_iff key v).mp isValue, rfl⟩
  intro mem
  obtain ⟨⟨h, v⟩, isEntry, rfl⟩ := List.mem_map.mp mem
  exact isSome_iff_exists.mpr ⟨v, (map.get?_eq_some_iff h v).mpr isEntry⟩

theorem get?_of_ordered {map : SortedMap Key Value} {forward : Bool}
    {pre rest : List (Key × Value)} {e : Key × Value}
    (split : map.ordered forward = pre ++ e :: rest) : map.get? e.1 = some e.2 := by
  apply (map.get?_eq_some_iff _ _).mpr
  apply (map.mem_ordered forward _).mp
  rw [split]
  exact mem_append_right _ mem_cons_self

def nextPair (map : SortedMap Key Value) (forward : Bool) (key : Key) :
    Option (Key × Value) :=
  if forward then map.nextHigherPair key else map.nextLowerPair key

theorem nextPair_eq_find? (map : SortedMap Key Value) (forward : Bool) (key : Key) :
    map.nextPair forward key = (map.ordered forward).find? fun e =>
      decide (Before forward key e.1) := by
  cases forward <;> simp [nextPair, nextHigherPair, nextLowerPair, ordered]

theorem nextPair_of_ordered {map : SortedMap Key Value} {forward : Bool}
    {pre rest : List (Key × Value)} {e : Key × Value}
    (split : map.ordered forward = pre ++ e :: rest) : map.nextPair forward e.1 = rest.head? := by
  have walk := map.ordered_walk forward
  rw [split] at walk
  rw [nextPair_eq_find?, split]
  exact walk.find?_after

theorem get?_eq_ordered (map : SortedMap Key Value) (forward : Bool) (key : Key) : map.get? key =
      ((map.ordered forward).find? fun e => decide (e.1 = key)).map Prod.snd := by
  cases h : (map.ordered forward).find? (fun e => decide (e.1 = key)) with
  | none =>
    cases stored : map.get? key with
    | none => rfl
    | some v =>
      have mem := (map.get?_eq_some_iff key v).mp stored
      have gone := find?_eq_none.mp h (key, v) ((map.mem_ordered forward _).mpr mem)
      simp at gone
  | some e =>
    have eq := find?_some h
    simp only [decide_eq_true_eq] at eq
    rw [← eq]
    exact (map.get?_eq_some_iff _ _).mpr ((map.mem_ordered forward _).mp (mem_of_find?_eq_some h))

theorem pair_or_nextPair (map : SortedMap Key Value) (forward : Bool) (key : Key) :
    (((map.get? key).map fun v => (key, v)).or (map.nextPair forward key)) =
      ((map.ordered forward).dropWhile fun e =>
        decide (Before forward e.1 key)).head? := by
  rw [← (map.ordered_walk forward).find?_from key, nextPair_eq_find?, map.get?_eq_ordered forward]
  congr 1
  cases h : (map.ordered forward).find? (fun e => decide (e.1 = key)) with
  | none => rfl
  | some e =>
    have eq := find?_some h
    simp only [decide_eq_true_eq] at eq
    simp [← eq]

theorem head?_ordered (map : SortedMap Key Value) (forward : Bool) :
    (map.ordered forward).head?.map Prod.fst = if forward then map.minKey else map.maxKey := by
  cases forward <;> simp [ordered, minKey, maxKey]

end SortedMap

end Library
