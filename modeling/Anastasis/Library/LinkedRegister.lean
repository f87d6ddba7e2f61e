import Anastasis.Library.DoublyLinked

/-! Registers: allocated records, one doubly linked list through some of them, and the log of who
entered the list and left it. -/

set_option autoImplicit false

namespace Library.DoublyLinked

open Option

inductive Movement (Address : Type) where
  | inserted (element : Address)
  | removed (element : Address)
deriving DecidableEq

variable {Address Payload : Type} [DecidableEq Address]

def present (movements : List (Movement Address)) : List Address :=
  movements.foldl (fun elements movement =>
    match movement with
    | .inserted element => element :: elements
    | .removed element => elements.erase element) []

@[simp] theorem present_inserted (movements : List (Movement Address)) (elem : Address) :
    present (movements ++ [.inserted elem]) = elem :: present movements := by
  simp [present]

@[simp] theorem present_removed (movements : List (Movement Address)) (element : Address) :
    present (movements ++ [.removed element]) = (present movements).erase element := by
  simp [present]

theorem present_removals (movements : List (Movement Address)) {elements : List Address}
    (listed : present movements = elements) :
    present (movements ++ elements.map .removed) = [] := by
  induction elements generalizing movements with
  | nil => simpa using listed
  | cons elem elements ih =>
    rw [List.map_cons, List.append_cons]
    apply ih
    rw [present_removed, listed, List.erase_cons_head]

structure Register (Address Payload : Type) where
  heap : Heap Address Payload
  ends : Ends Address
  movements : List (Movement Address)

namespace Register

def empty : Register Address Payload where
  heap := fun _ => none
  ends := .empty
  movements := []

def get (register : Register Address Payload) (address : Address) : Option Payload :=
  register.heap.payload address

def set (register : Register Address Payload) (address : Address) (payload : Payload) :
    Option (Register Address Payload) :=
  (register.heap.change address fun node => { node with payload := payload }).map fun heap =>
    { register with heap := heap }

def allocate (register : Register Address Payload) (address : Address) (payload : Payload) :
    Register Address Payload :=
  { register with heap := Function.update register.heap address (some ⟨none, none, payload⟩) }

def free (register : Register Address Payload) (address : Address) : Register Address Payload :=
  { register with heap := Function.update register.heap address none }

def enter (register : Register Address Payload) (element : Address) :
    Option (Register Address Payload) :=
  (insert register.heap register.ends element).map fun (heap, ends) =>
    ⟨heap, ends, register.movements ++ [.inserted element]⟩

def enterSwapped (register : Register Address Payload) (element : Address) :
    Option (Register Address Payload) :=
  (insert register.heap register.ends.swap element).map fun (heap, ends) =>
    ⟨heap, ends.swap, register.movements ++ [.inserted element]⟩

def leave (register : Register Address Payload) (element : Address) :
    Option (Register Address Payload) :=
  (remove register.heap register.ends element).map fun (heap, ends) =>
    ⟨heap, ends, register.movements ++ [.removed element]⟩

def close (visit : Payload → Payload) (fuel : Nat) (register : Register Address Payload) :
    Option (List Address × Register Address Payload) :=
  (drain visit fuel register.heap register.ends).map fun (visited, heap, ends) =>
    (visited, ⟨heap, ends, register.movements ++ visited.map .removed⟩)

def Intact (register : Register Address Payload) : Prop :=
  Listed register.heap register.ends (present register.movements)

def members (register : Register Address Payload) : List Address := present register.movements

variable {register : Register Address Payload} {element elem address addr : Address}
  {payload changed : Payload}

theorem empty_intact : (empty : Register Address Payload).Intact := Listed.nothing

variable {next : Register Address Payload}

theorem get_set (written : register.set addr changed = some next) (other : Address) :
    next.get other = if other = addr then some changed else register.get other := by
  obtain ⟨heap, change, rfl⟩ := map_eq_some_iff.mp written
  obtain ⟨node, -, rfl⟩ := map_eq_some_iff.mp change
  exact Heap.payload_update register.heap addr other _

theorem Intact.set (intact : register.Intact) (written : register.set addr changed = some next) :
    next.Intact := by
  obtain ⟨heap, change, rfl⟩ := map_eq_some_iff.mp written
  obtain ⟨node, h, rfl⟩ := map_eq_some_iff.mp change
  exact Listed.write intact h changed

theorem members_set (written : register.set addr changed = some next) :
    next.members = register.members := by
  obtain ⟨heap, change, rfl⟩ := map_eq_some_iff.mp written
  rfl

theorem set_of_get (h : register.get addr = some payload) (changed : Payload) :
    ∃ next, register.set addr changed = some next := by
  obtain ⟨node, allocated, -⟩ := map_eq_some_iff.mp h
  apply ne_none_iff_exists'.mp
  rw [Register.set, Heap.change, allocated]
  simp

theorem get_allocate (register : Register Address Payload) (addr other : Address)
    (payload : Payload) : (register.allocate addr payload).get other =
      if other = addr then some payload else register.get other :=
  Heap.payload_update register.heap addr other _

theorem Intact.allocate (intact : register.Intact) (fresh : register.get addr = none)
    (payload : Payload) : (register.allocate addr payload).Intact :=
  Listed.allocate intact (map_eq_none_iff.mp fresh) payload

theorem get_free (register : Register Address Payload) (addr other : Address) :
    (register.free addr).get other = if other = addr then none else register.get other :=
  Heap.payload_update register.heap addr other none

theorem Intact.free (intact : register.Intact) (outside : addr ∉ register.members) :
    (register.free addr).Intact := Listed.free intact outside

theorem Intact.allocated (intact : register.Intact) (mem : elem ∈ register.members) :
    ∃ payload, register.get elem = some payload := by
  obtain ⟨node, h⟩ := Listed.allocated intact mem
  exact ⟨node.payload, congrArg (Option.map Node.payload) h⟩

theorem Intact.enter (intact : register.Intact) (outside : elem ∉ register.members)
    (h : register.get elem = some payload) : ∃ next, register.enter elem = some next ∧ next.Intact ∧
      next.members = elem :: register.members ∧ ∀ other, next.get other = register.get other := by
  obtain ⟨node, allocated, -⟩ := map_eq_some_iff.mp h
  obtain ⟨heap, ends, inserted, listed⟩ := Listed.insert intact outside allocated
  refine ⟨⟨heap, ends, register.movements ++ [.inserted elem]⟩, ?_, ?_, ?_, ?_⟩
  · rw [Register.enter, inserted]
    rfl
  · rw [Intact, present_inserted]
    exact listed
  · exact present_inserted _ _
  · exact insert_payload inserted

theorem Intact.enterSwapped_alone (intact : register.Intact) (alone : register.members = [])
    (h : register.get element = some payload) :
    register.enterSwapped element = register.enter element := by
  have listed : Listed register.heap register.ends [] := alone ▸ intact
  obtain ⟨node, allocated, -⟩ := map_eq_some_iff.mp h
  have fresh := listed.idle element List.not_mem_nil node allocated
  rw [fresh] at allocated
  rw [Register.enterSwapped, Register.enter, listed.ends_empty]
  have inserted := insert_empty allocated
  rw [inserted, show Ends.empty.swap = (Ends.empty : Ends Address) from rfl, inserted]
  rfl

theorem enter_get (entered : register.enter elem = some next) (other : Address) :
    next.get other = register.get other := by
  obtain ⟨⟨heap, ends⟩, inserted, rfl⟩ := map_eq_some_iff.mp entered
  exact insert_payload inserted other

theorem enterSwapped_get (entered : register.enterSwapped elem = some next) (other : Address) :
    next.get other = register.get other := by
  obtain ⟨⟨heap, ends⟩, inserted, rfl⟩ := map_eq_some_iff.mp entered
  exact insert_payload inserted other

theorem leave_get (left : register.leave elem = some next) (other : Address) :
    next.get other = register.get other := by
  obtain ⟨⟨heap, ends⟩, removed, rfl⟩ := map_eq_some_iff.mp left
  exact remove_payload removed other

theorem close_keeps {visit : Payload → Payload} {kept : Payload → Payload → Prop}
    (refl : ∀ payload, kept payload payload)
    (visits : ∀ pre after, kept (visit pre) after → kept pre after) {fuel : Nat}
    {visited : List Address} {next : Register Address Payload}
    (closed : register.close visit fuel = some (visited, next)) (y : Address) :
    Option.Rel kept (register.get y) (next.get y) := by
  obtain ⟨⟨visited, heap, ends⟩, drained, done⟩ := map_eq_some_iff.mp closed
  cases done
  exact drain_keeps refl visits drained y

theorem Intact.leave (intact : register.Intact) (mem : elem ∈ register.members) :
    ∃ next, register.leave elem = some next ∧ next.Intact ∧
      next.members = register.members.erase elem ∧
      ∀ other, next.get other = register.get other := by
  obtain ⟨heap, ends, removed, listed⟩ := Listed.remove intact mem
  refine ⟨⟨heap, ends, register.movements ++ [.removed elem]⟩, ?_, ?_, ?_, ?_⟩
  · rw [Register.leave, removed]
    rfl
  · rw [Intact, present_removed]
    exact listed
  · exact present_removed _ _
  · exact remove_payload removed

theorem Intact.not_mem_erase (intact : register.Intact) :
    element ∉ register.members.erase element := by
  exact List.Nodup.not_mem_erase (Listed.nodup intact)

theorem close_mono {visit : Payload → Payload} {fuel : Nat} (more : Nat)
    {result : List Address × Register Address Payload}
    (closed : register.close visit fuel = some result) :
    register.close visit (fuel + more) = some result := by
  obtain ⟨drained, drain, rfl⟩ := map_eq_some_iff.mp closed
  rw [Register.close, drain_mono more drain]
  rfl

theorem Intact.close {fuel : Nat} (intact : register.Intact) (visit : Payload → Payload)
    (enough : register.members.length < fuel) :
    ∃ next, register.close visit fuel = some (register.members, next) ∧ next.Intact ∧
      next.members = [] ∧
      ∀ other, next.get other =
        if other ∈ register.members then (register.get other).map visit else register.get other := by
  obtain ⟨heap, ends, drained, listed, visited⟩ := Listed.drain visit intact enough
  have emptied : present (register.movements ++ register.members.map Movement.removed) = [] :=
    present_removals register.movements rfl
  refine ⟨⟨heap, ends, register.movements ++ register.members.map Movement.removed⟩, ?_, ?_, ?_, ?_⟩
  · rw [Register.close, drained]
    rfl
  · rw [Intact, emptied]
    exact listed
  · exact emptied
  · exact visited

end Register

end Library.DoublyLinked
