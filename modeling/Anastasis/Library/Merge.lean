import Mathlib.Order.Defs.Unbundled
import Anastasis.Library.SortedMapUpdates

/-! Merges that put what is absent, carried out twice. A key may be dead: what is stored under
it is given up. -/

set_option autoImplicit false

namespace Library

open Option

section Kept

variable {Key Value : Type} [LinearOrder Key]

/-- All entries of the first map whose keys are not dead are entries of the second. -/
def Kept (dead : Key → Prop) (before after : SortedMap Key Value) : Prop :=
  ∀ key value, before.get? key = some value → dead key ∨ after.get? key = some value

namespace Kept

variable {dead : Key → Prop}

theorem refl (map : SortedMap Key Value) : Kept dead map map := fun _ _ found => .inr found

theorem trans {first second third : SortedMap Key Value} (early : Kept dead first second)
    (late : Kept dead second third) : Kept dead first third := by
  intro key v found
  rcases early key v found with isDead | found
  · exact .inl isDead
  · exact late key v found

variable {map : SortedMap Key Value}

theorem insertAbsent {key : Key} (gone : map.get? key = none) (v : Value) :
    Kept dead map (map.insert key v) := by
  intro y old found
  have different : y ≠ key := by
    rintro rfl
    rw [gone] at found
    cases found
  exact .inr ((map.get?_insert_of_ne v different).trans found)

theorem insertDead {key : Key} (isDead : dead key) (v : Value) :
    Kept dead (map.insert key v) map := by
  intro y old found
  by_cases same : y = key
  · exact .inl (same ▸ isDead)
  · exact .inr ((map.get?_insert_of_ne v same).symm.trans found)

theorem eraseDead {key : Key} (isDead : dead key) : Kept dead map (map.erase key) := by
  intro y old found
  by_cases same : y = key
  · exact .inl (same ▸ isDead)
  right
  rw [SortedMap.get?_erase, if_neg same]
  exact found

theorem ofErase (map : SortedMap Key Value) (key : Key) : Kept dead (map.erase key) map := by
  intro y old found
  rw [SortedMap.get?_erase] at found
  split at found
  next => cases found
  next => exact .inr found

theorem found {before after : SortedMap Key Value} (kept : Kept dead before after) {key : Key}
    {value : Value} (alive : ¬ dead key) (present : before.get? key = some value) :
    after.get? key = some value := (kept key value present).resolve_left alive

theorem contains {before after : SortedMap Key Value} (kept : Kept (fun _ => False) before after)
    {key : Key} (present : before.contains key) : after.contains key := by
  obtain ⟨v, found⟩ := isSome_iff_exists.mp present
  exact isSome_iff_exists.mpr ⟨v, kept.found not_false found⟩

theorem antisymm {left right : SortedMap Key Value} (toRight : Kept dead left right)
    (toLeft : Kept dead right left) (leftClean : ∀ key, dead key → left.get? key = none)
    (rightClean : ∀ key, dead key → right.get? key = none) : left = right := by
  apply SortedMap.ext_get?
  intro key
  by_cases isDead : dead key
  · rw [leftClean key isDead, rightClean key isDead]
  apply Option.ext
  intro v
  exact ⟨toRight.found isDead, toLeft.found isDead⟩

end Kept

end Kept

section Fold

variable {State Item : Type} {step : State → Item → Option State}

theorem foldlM_preserves {holds : State → Prop} {items : List Item}
    (each : ∀ item ∈ items, ∀ {before after}, step before item = some after → holds before →
      holds after) {before after : State} (did : items.foldlM step before = some after)
    (initial : holds before) : holds after := by
  induction items generalizing before with
  | nil =>
    cases did
    exact initial
  | cons item rest ih =>
    obtain ⟨between, one, ys⟩ := bind_eq_some_iff.mp did
    have next := each item List.mem_cons_self one initial
    exact ih (fun item member => each item (List.mem_cons_of_mem _ member)) ys next

theorem foldlM_reaches {holds : State → Prop} {items : List Item}
    (each : ∀ item ∈ items, ∀ {before after}, step before item = some after → holds before →
      holds after) {item : Item} (member : item ∈ items)
    (reaches : ∀ {before after}, step before item = some after → holds after)
    {before after : State} (did : items.foldlM step before = some after) : holds after := by
  induction items generalizing before with
  | nil => cases member
  | cons head rest ih =>
    obtain ⟨between, one, ys⟩ := bind_eq_some_iff.mp did
    have later := fun item member => @each item (List.mem_cons_of_mem _ member)
    rcases List.mem_cons.mp member with rfl | member
    · exact foldlM_preserves later ys (reaches one)
    · exact ih later member ys

end Fold

section Settles

variable {State : Type}

/-- Both runs of a merge only grow, and the second finds nothing to do after the first, or in a
state that has grown since. -/
structure Settles (le : State → State → Prop) (first second : State → Option State) : Prop where
  firstGrows : ∀ {before after}, first before = some after → le before after
  secondGrows : ∀ {before after}, second before = some after → le before after
  stable : ∀ {before after later last}, first before = some after → le after later →
    second later = some last → le last later

namespace Settles

variable {le : State → State → Prop}

theorem pure [Std.Refl le] : Settles le some some where
  firstGrows := by
    intro before after did
    cases did
    exact refl before
  secondGrows := by
    intro before after did
    cases did
    exact refl before
  stable := by
    intro before after later last _ _ did
    cases did
    exact refl later

theorem bind [IsTrans State le] {first second first' second' : State → Option State}
    (early : Settles le first second) (late : Settles le first' second') :
    Settles le (fun state => (first state).bind first') (fun state => (second state).bind second')
    where
  firstGrows := by
    intro before after did
    obtain ⟨between, one, two⟩ := bind_eq_some_iff.mp did
    exact IsTrans.trans _ _ _ (early.firstGrows one) (late.firstGrows two)
  secondGrows := by
    intro before after did
    obtain ⟨between, one, two⟩ := bind_eq_some_iff.mp did
    exact IsTrans.trans _ _ _ (early.secondGrows one) (late.secondGrows two)
  stable := by
    intro before after later last did grown performed'
    obtain ⟨between, one, two⟩ := bind_eq_some_iff.mp did
    obtain ⟨between', one', two'⟩ := bind_eq_some_iff.mp performed'
    have back := early.stable one (IsTrans.trans _ _ _ (late.firstGrows two) grown) one'
    have forth := late.stable two (IsTrans.trans _ _ _ grown (early.secondGrows one')) two'
    exact IsTrans.trans _ _ _ forth back

theorem foldlM [Std.Refl le] [IsTrans State le] {Item : Type}
    {first second : State → Item → Option State} (items : List Item)
    (each : ∀ item, Settles le (first · item) (second · item)) :
    Settles le (items.foldlM first) (items.foldlM second) := by
  induction items with
  | nil => exact pure
  | cons item rest ih =>
    have head := each item
    exact head.bind ih

theorem never : Settles le (fun _ => none) (fun _ => none) where
  firstGrows := nofun
  secondGrows := nofun
  stable := nofun

theorem ofSkip [Std.Refl le] {first second : State → Option State} (merged : Settles le first second)
    {skip : State → Bool} (skipGrows : ∀ {before after}, le before after → skip before → skip after) :
    Settles le (fun state => if skip state then some state else first state)
      (fun state => if skip state then some state else second state) where
  firstGrows := by
    intro before after did
    split at did
    next =>
      cases did
      exact refl before
    next => exact merged.firstGrows did
  secondGrows := by
    intro before after did
    split at did
    next =>
      cases did
      exact refl before
    next => exact merged.secondGrows did
  stable := by
    intro before after later last did grown performed'
    split at performed'
    next =>
      cases performed'
      exact refl later
    next notSkipped =>
      split at did
      next skipped =>
        cases did
        exact absurd (skipGrows grown skipped) notSkipped
      next => exact merged.stable did grown performed'

theorem foldl [Std.Refl le] [IsTrans State le] {Item : Type} {first second : State → Item → State}
    (items : List Item) (each : ∀ item, Settles le (fun state => some (first state item))
      (fun state => some (second state item))) :
    Settles le (fun state => some (items.foldl first state))
      (fun state => some (items.foldl second state)) := by
  induction items with
  | nil => exact pure
  | cons item rest ih => exact (each item).bind ih

theorem withValue {Value : Type} (v : Option Value) {first second : Value → State → Option State}
    (each : ∀ v, Settles le (first v) (second v)) :
    Settles le (fun state => v.bind (first · state)) (fun state => v.bind (second · state))
    where
  firstGrows := by
    intro before after did
    obtain ⟨found, _, one⟩ := bind_eq_some_iff.mp did
    exact (each found).firstGrows one
  secondGrows := by
    intro before after did
    obtain ⟨found, _, one⟩ := bind_eq_some_iff.mp did
    exact (each found).secondGrows one
  stable := by
    intro before after later last did grown performed'
    obtain ⟨found, isF, one⟩ := bind_eq_some_iff.mp did
    obtain ⟨found', isFound', one'⟩ := bind_eq_some_iff.mp performed'
    cases isF.symm.trans isFound'
    exact (each found).stable one grown one'

end Settles

structure Part {Key Value : Type} [LinearOrder Key] (le : State → State → Prop) (dead : Key → Prop)
    (view : State → SortedMap Key Value) (put : State → SortedMap Key Value → State) : Prop where
  view_put : ∀ state map, view (put state map) = map
  kept : ∀ {before after}, le before after → Kept dead (view before) (view after)
  grow : ∀ {state map}, Kept dead (view state) map → le state (put state map)
  shrink : ∀ {state map}, Kept dead map (view state) → le (put state map) state

/-- A step that does nothing when it is skipped or its key is there, and puts the key else. -/
def PutsOnce {Key Value : Type} [LinearOrder Key] (view : State → SortedMap Key Value)
    (put : State → SortedMap Key Value → State) (skip : State → Bool) (key : Key)
    (step : State → Option State) : Prop :=
  ∀ {before after}, step before = some after →
    after = before ∧ (skip before ∨ ((view before).get? key).isSome) ∨
    ¬ skip before ∧ (view before).get? key = none ∧
      ∃ value, after = put before ((view before).insert key value)

namespace PutsOnce

variable {Key Value : Type} [LinearOrder Key] {le : State → State → Prop} [Std.Refl le]
  {dead : Key → Prop} {view : State → SortedMap Key Value}
  {put : State → SortedMap Key Value → State} {skip : State → Bool} {key : Key}
  {first second : State → Option State}

theorem grows (part : Part le dead view put) (once : PutsOnce view put skip key first)
    {before after : State} (did : first before = some after) : le before after := by
  rcases once did with ⟨rfl, _⟩ | ⟨_, gone, v, rfl⟩
  · exact refl after
  · exact part.grow (.insertAbsent gone v)

omit [Std.Refl le] in
theorem done (part : Part le dead view put) (once : PutsOnce view put skip key first)
    {before after : State} (did : first before = some after) :
    skip before ∨ (view after).contains key := by
  rcases once did with ⟨rfl, skipped | found⟩ | ⟨_, _, v, rfl⟩
  · exact .inl skipped
  · exact .inr found
  right
  rw [part.view_put, SortedMap.contains, SortedMap.get?_insert_self]
  rfl

theorem settles (part : Part le dead view put) (onceFirst : PutsOnce view put skip key first)
    (onceSecond : PutsOnce view put skip key second)
    (skipGrows : ∀ {before after}, le before after → skip before → skip after) :
    Settles le first second where
  firstGrows := onceFirst.grows part
  secondGrows := onceSecond.grows part
  stable := by
    intro before after later last did grown performed'
    rcases onceSecond performed' with ⟨rfl, _⟩ | ⟨notSkipped, gone, v, rfl⟩
    · exact refl last
    -- what the first run has put or found is missing now, so that it is dead
    have isDead : dead key := by
      have put : ∃ old, (view after).get? key = some old := by
        rcases onceFirst did with ⟨rfl, skipped | found⟩ | ⟨_, _, old, rfl⟩
        · exact absurd (skipGrows grown skipped) notSkipped
        · exact isSome_iff_exists.mp found
        · rw [part.view_put]
          exact ⟨old, SortedMap.get?_insert_self _ _ _⟩
      obtain ⟨old, found⟩ := put
      rcases part.kept grown key old found with isDead | kept
      · exact isDead
      · rw [gone] at kept
        cases kept
    exact part.shrink (.insertDead isDead v)

theorem foldlM_done {Item : Type} {step : State → Item → Option State} {skip : Item → State → Bool}
    {keyOf : Item → Key} (part : Part le dead view put)
    (once : ∀ item, PutsOnce view put (skip item) (keyOf item) (step · item))
    (skipGrows : ∀ item {before after}, le before after → skip item before → skip item after)
    (containsGrows : ∀ {key before after}, le before after → (view before).contains key →
      (view after).contains key)
    {items : List Item} {item : Item} (member : item ∈ items) {before after : State}
    (did : items.foldlM step before = some after) :
    skip item after ∨ (view after).contains (keyOf item) := by
  apply @foldlM_reaches _ _ _ (fun state => skip item state ∨ (view state).contains (keyOf item)) _
    _ _ member _ _ _ did
  · intro y _ before after one found
    have grown : le before after := grows part (once y) one
    exact found.imp (skipGrows item grown) (containsGrows grown)
  intro before after one
  have grown : le before after := grows part (once item) one
  exact (done part (once item) one).imp_left (skipGrows item grown)

end PutsOnce

end Settles

end Library
