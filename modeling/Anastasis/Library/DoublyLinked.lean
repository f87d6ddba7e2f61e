import Mathlib.Data.List.Nodup
import Mathlib.Data.Option.Basic
import Mathlib.Logic.Function.Basic

/-! Doubly linked lists through nodes that carry their own links. The owner of a list holds
its two ends and passes both of them to every operation. -/

set_option autoImplicit false

namespace Library.DoublyLinked

open List

structure Node (Address Payload : Type) where
  next : Option Address
  prev : Option Address
  payload : Payload

namespace Node

variable {Address Payload : Type}

def withNext (next : Option Address) (node : Node Address Payload) : Node Address Payload :=
  { node with next := next }

def withPrev (prev : Option Address) (node : Node Address Payload) : Node Address Payload :=
  { node with prev := prev }

end Node

abbrev Heap (Address Payload : Type) := Address → Option (Node Address Payload)

structure Ends (Address : Type) where
  head : Option Address
  tail : Option Address
deriving DecidableEq

variable {Address Payload : Type}

def Ends.empty : Ends Address := ⟨none, none⟩

def Ends.swap (ends : Ends Address) : Ends Address := ⟨ends.tail, ends.head⟩

def Heap.payload (heap : Heap Address Payload) (address : Address) : Option Payload :=
  (heap address).map (·.payload)

/-- The elements of a list in their order: each of them once, linked to its neighbours in both
directions, and no other node linked to anything. -/
structure Listed (heap : Heap Address Payload) (ends : Ends Address) (elements : List Address) :
    Prop where
  nodup : elements.Nodup
  head : ends.head = elements.head?
  tail : ends.tail = elements.getLast?
  links : ∀ before element after, elements = before ++ element :: after →
    ∃ payload, heap element = some ⟨after.head?, before.getLast?, payload⟩
  idle : ∀ address, address ∉ elements → ∀ node, heap address = some node →
    node = ⟨none, none, node.payload⟩

variable {heap : Heap Address Payload} {ends : Ends Address} {elements : List Address}
  {element elem : Address} {payload : Payload}

theorem Listed.nothing : Listed (fun _ => none : Heap Address Payload) .empty [] where
  nodup := nodup_nil
  head := rfl
  tail := rfl
  links before element after split := by simp at split
  idle address _ node found := by cases found

theorem Listed.allocated (listed : Listed heap ends elements) (mem : elem ∈ elements) :
    ∃ node, heap elem = some node := by
  obtain ⟨pre, after, split⟩ := append_of_mem mem
  obtain ⟨payload, h⟩ := listed.links pre elem after split
  exact ⟨_, h⟩

theorem Listed.ends_empty (mem : Listed heap ends []) : ends = .empty := by
  obtain ⟨head, tail⟩ := ends
  have head_eq := mem.head
  have tail_eq := mem.tail
  simp only at head_eq tail_eq
  rw [head_eq, tail_eq]
  rfl

variable [DecidableEq Address]

def Heap.change (heap : Heap Address Payload) (address : Address)
    (update : Node Address Payload → Node Address Payload) : Option (Heap Address Payload) :=
  (heap address).map fun node => Function.update heap address (some (update node))

def insert (heap : Heap Address Payload) (ends : Ends Address) (element : Address) :
    Option (Heap Address Payload × Ends Address) := do
  let node ← heap element
  guard (node.prev = none ∧ ends.head ≠ some element)
  guard (node.next = none ∧ ends.tail ≠ some element)
  let heap ← heap.change element fun node => { node with next := ends.head, prev := none }
  match ends.tail with
  | none => some (heap, ⟨some element, some element⟩)
  | some last => do
      let first ← ends.head
      let heap ← heap.change first (·.withPrev (some element))
      some (heap, ⟨some element, some last⟩)

theorem Heap.payload_update (heap : Heap Address Payload) (addr other : Address)
    (node : Option (Node Address Payload)) : Heap.payload (Function.update heap addr node) other =
      if other = addr then node.map (·.payload) else heap.payload other := by
  unfold Heap.payload
  by_cases eq : other = addr
  · rw [if_pos eq, eq, Function.update_self]
  · rw [if_neg eq, Function.update_of_ne eq]

def Heap.relink (heap : Heap Address Payload) :
    Option Address → (Node Address Payload → Node Address Payload) → Option (Heap Address Payload)
  | none, _ => some heap
  | some neighbour, update => heap.change neighbour update

def remove (heap : Heap Address Payload) (ends : Ends Address) (element : Address) :
    Option (Heap Address Payload × Ends Address) := do
  let node ← heap element
  guard (node.prev ≠ none ∨ ends.head = some element)
  guard (node.next ≠ none ∨ ends.tail = some element)
  let heap ← heap.relink node.prev (·.withNext node.next)
  let heap ← heap.relink node.next (·.withPrev node.prev)
  let heap ← heap.change element fun node => { node with next := none, prev := none }
  some (heap, ⟨if node.prev = none then node.next else ends.head,
    if node.next = none then node.prev else ends.tail⟩)

theorem Listed.allocate (mem : Listed heap ends elements) (free : heap element = none)
    (payload : Payload) :
    Listed (Function.update heap element (some ⟨none, none, payload⟩)) ends elements where
  nodup := mem.nodup
  head := mem.head
  tail := mem.tail
  links before other after split := by
    obtain ⟨payload, found⟩ := mem.links before other after split
    have ne : other ≠ element := by
      rintro rfl
      rw [free] at found
      cases found
    exact ⟨payload, by rw [Function.update_of_ne ne, found]⟩
  idle address absent node found := by
    by_cases eq : address = element
    · rw [eq, Function.update_self] at found
      cases found
      rfl
    · rw [Function.update_of_ne eq] at found
      exact mem.idle address absent node found

theorem Listed.free (mem : Listed heap ends elements) (outside : element ∉ elements) :
    Listed (Function.update heap element none) ends elements where
  nodup := mem.nodup
  head := mem.head
  tail := mem.tail
  links before other after split := by
    obtain ⟨payload, found⟩ := mem.links before other after split
    have ne : other ≠ element := by
      rintro rfl
      exact outside (by simp [split])
    exact ⟨payload, by rw [Function.update_of_ne ne, found]⟩
  idle address absent node found := by
    by_cases eq : address = element
    · rw [eq, Function.update_self] at found
      cases found
    · rw [Function.update_of_ne eq] at found
      exact mem.idle address absent node found

variable {node : Node Address Payload}

theorem Listed.write (mem : Listed heap ends elements) (h : heap elem = some node)
    (payload : Payload) :
    Listed (Function.update heap elem (some { node with payload := payload })) ends elements where
  nodup := mem.nodup
  head := mem.head
  tail := mem.tail
  links before other after split := by
    obtain ⟨old, linked⟩ := mem.links before other after split
    by_cases eq : other = elem
    · subst eq
      rw [h] at linked
      cases linked
      exact ⟨payload, Function.update_self ..⟩
    · exact ⟨old, by rw [Function.update_of_ne eq, linked]⟩
  idle address absent other present := by
    by_cases eq : address = elem
    · subst eq
      have idle := mem.idle address absent node h
      rw [Function.update_self] at present
      cases present
      rw [idle]
    · rw [Function.update_of_ne eq] at present
      exact mem.idle address absent other present

theorem insert_empty (fresh : heap elem = some ⟨none, none, payload⟩) : insert heap .empty elem =
      some (Function.update heap elem (some ⟨none, none, payload⟩), ⟨some elem, some elem⟩) := by
  simp [insert, Heap.change, fresh, Ends.empty]

theorem insert_nonempty {x last : Address} (fresh : heap elem = some ⟨none, none, payload⟩)
    (h : heap x = some node) (no_head : x ≠ elem) (no_tail : last ≠ elem) :
    insert heap ⟨some x, some last⟩ elem =
      some (Function.update (Function.update heap elem (some ⟨some x, none, payload⟩)) x
        (some (node.withPrev (some elem))), ⟨some elem, some last⟩) := by
  simp [insert, Heap.change, fresh, h, no_head, no_tail]

theorem Listed.insert (listed : Listed heap ends elements) (outside : element ∉ elements)
    (h : heap element = some node) :
    ∃ fin changed, DoublyLinked.insert heap ends element = some (fin, changed) ∧
      Listed fin changed (element :: elements) := by
  obtain ⟨head, tail⟩ := ends
  have head_eq := listed.head
  have tail_eq := listed.tail
  have fresh := listed.idle element outside node h
  rw [fresh] at h
  cases elements with
  | nil =>
    subst head_eq tail_eq
    refine ⟨_, _, insert_empty h, ?_⟩
    constructor
    · exact nodup_singleton element
    · rfl
    · rfl
    · intro pre other after split
      rw [singleton_eq_append_iff] at split
      obtain ⟨rfl, split⟩ | ⟨_, split⟩ := split
      · simp only [List.cons.injEq] at split
        obtain ⟨rfl, rfl⟩ := split
        exact ⟨node.payload, Function.update_self ..⟩
      · cases split
    · intro addr gone other has
      have ne : addr ≠ element := by simpa using gone
      rw [Function.update_of_ne ne] at has
      exact listed.idle addr not_mem_nil other has
  | cons first rest =>
    obtain ⟨last, last_eq⟩ : ∃ last, (first :: rest).getLast? = some last := ⟨_, getLast?_cons⟩
    obtain ⟨old, linked⟩ := listed.links [] first rest rfl
    have no_head : first ≠ element := fun eq => outside (by simp [eq])
    have no_tail : last ≠ element := fun eq =>
      outside (eq ▸ mem_of_getLast? last_eq)
    rw [last_eq] at tail_eq
    subst head_eq tail_eq
    refine ⟨_, _, insert_nonempty h linked no_head no_tail, ?_⟩
    constructor
    · exact nodup_cons.mpr ⟨outside, listed.nodup⟩
    · rfl
    · simp only [getLast?_cons_cons, last_eq]
    · intro pre other after split
      rcases pre with _ | ⟨front, _ | ⟨y, pre⟩⟩
      · rw [nil_append, List.cons.injEq] at split
        obtain ⟨rfl, rfl⟩ := split
        rw [Function.update_of_ne no_head.symm, Function.update_self]
        exact ⟨node.payload, rfl⟩
      · simp only [cons_append, nil_append, List.cons.injEq] at split
        obtain ⟨rfl, rfl, rfl⟩ := split
        exact ⟨old, Function.update_self ..⟩
      simp only [cons_append, List.cons.injEq] at split
      obtain ⟨rfl, rfl, rfl⟩ := split
      obtain ⟨kept, linked⟩ := listed.links (first :: pre) other after rfl
      have not_first : other ≠ first := by
        rintro rfl
        exact (nodup_cons.mp listed.nodup).1 (by simp)
      have ne : other ≠ element := by
        rintro rfl
        exact outside (by simp)
      rw [Function.update_of_ne not_first, Function.update_of_ne ne, linked]
      exact ⟨kept, rfl⟩
    · intro addr gone other has
      have ne : addr ≠ element := by
        rintro rfl
        exact gone mem_cons_self
      have not_first : addr ≠ first := by
        rintro rfl
        exact gone (mem_cons_of_mem _ mem_cons_self)
      rw [Function.update_of_ne not_first, Function.update_of_ne ne] at has
      exact listed.idle addr (fun mem => gone (mem_cons_of_mem _ mem)) other has

def Heap.adjust (heap : Heap Address Payload) (neighbour : Option Address)
    (update : Node Address Payload → Node Address Payload) : Heap Address Payload := fun address =>
  if neighbour = some address then (heap address).map update else heap address

variable {neighbour : Option Address} {address addr : Address}

theorem Heap.adjust_of_ne (update : Node Address Payload → Node Address Payload)
    (ne : neighbour ≠ some address) :
    heap.adjust neighbour update address = heap address := if_neg ne

theorem Heap.adjust_allocated (update : Node Address Payload → Node Address Payload)
    (allocated : ∃ node, heap addr = some node) :
    ∃ node, heap.adjust neighbour update addr = some node := by
  obtain ⟨node, h⟩ := allocated
  unfold Heap.adjust
  split
  · exact ⟨update node, by rw [h, Option.map_some]⟩
  · exact ⟨node, h⟩

theorem Heap.relink_eq (update : Node Address Payload → Node Address Payload)
    (allocated : ∀ address, neighbour = some address → ∃ node, heap address = some node) :
    heap.relink neighbour update = some (heap.adjust neighbour update) := by
  cases neighbour with
  | none => rfl
  | some neighbour =>
    obtain ⟨node, h⟩ := allocated neighbour rfl
    rw [Heap.relink, Heap.change, h, Option.map_some]
    apply congrArg some
    funext address
    by_cases eq : neighbour = address
    · subst eq
      rw [Function.update_self, Heap.adjust, if_pos rfl, h, Option.map_some]
    · have ne : some neighbour ≠ some address := fun equal => eq (Option.some.inj equal)
      rw [Function.update_of_ne (Ne.symm eq), Heap.adjust_of_ne update ne]

/-- What taking `element` out from between its neighbours leaves. -/
def Heap.without (heap : Heap Address Payload) (before after : Option Address)
    (element : Address) : Heap Address Payload := fun address =>
  (heap address).map fun node =>
    if address = element then ⟨none, none, node.payload⟩
    else ⟨if before = some address then after else node.next,
      if after = some address then before else node.prev, node.payload⟩

theorem Heap.adjust_eq_without {before after : Option Address} (ne : address ≠ element) :
    (heap.adjust before (Node.withNext after)).adjust after (Node.withPrev before) address =
      heap.without before after element address := by
  unfold Heap.without Heap.adjust
  cases heap address with
  | none => simp
  | some node =>
    simp only [Option.map_some, ne, if_false]
    by_cases last : before = some address <;> by_cases x : after = some address <;>
      simp [last, x, Node.withNext, Node.withPrev]

/-- Its neighbours are linked to each other, and the ends move on if they have to. -/
theorem Listed.remove_eq {pre after : List Address}
    (listed : Listed heap ends (pre ++ element :: after)) : DoublyLinked.remove heap ends element =
      some (heap.without pre.getLast? after.head? element,
        ⟨(pre ++ after).head?, (pre ++ after).getLast?⟩) := by
  obtain ⟨payload, h⟩ := listed.links pre element after rfl
  have alone : element ∉ pre ∧ element ∉ after := by
    obtain ⟨_, after_nodup, apart⟩ := nodup_append.mp listed.nodup
    constructor
    · intro mem
      exact apart element mem element mem_cons_self rfl
    · exact (nodup_cons.mp after_nodup).1
  have previous : ∀ addr, pre.getLast? = some addr →
      addr ≠ element ∧ ∃ node, heap addr = some node := by
    intro addr last
    have mem := mem_of_getLast? last
    constructor
    · rintro rfl
      exact alone.1 mem
    · exact listed.allocated (mem_append_left _ mem)
  have following : ∀ addr, after.head? = some addr →
      addr ≠ element ∧ ∃ node, heap addr = some node := by
    intro addr x
    have mem := mem_of_mem_head? x
    constructor
    · rintro rfl
      exact alone.2 mem
    · exact listed.allocated (mem_append_right _ (mem_cons_of_mem _ mem))
  have has_head : pre.getLast? ≠ none ∨ ends.head = some element := by
    cases pre with
    | nil => exact .inr listed.head
    | cons => exact .inl (by simp)
  have has_tail : after.head? ≠ none ∨ ends.tail = some element := by
    cases after with
    | nil => exact .inr (listed.tail.trans getLast?_concat)
    | cons => exact .inl (by simp)
  have not_previous : pre.getLast? ≠ some element := fun last => (previous element last).1 rfl
  have not_following : after.head? ≠ some element := fun x => (following element x).1 rfl
  have relinked := heap.relink_eq (Node.withNext after.head?)
    fun addr last => (previous addr last).2
  have relinked_again := (heap.adjust pre.getLast? (Node.withNext after.head?)).relink_eq
    (Node.withPrev pre.getLast?) fun addr x =>
      Heap.adjust_allocated (Node.withNext after.head?) (following addr x).2
  have kept : ((heap.adjust pre.getLast? (Node.withNext after.head?)).adjust after.head?
      (Node.withPrev pre.getLast?)) element = some ⟨after.head?, pre.getLast?, payload⟩ := by
    rw [Heap.adjust_of_ne _ not_following, Heap.adjust_of_ne _ not_previous, h]
  have heap_eq : Function.update ((heap.adjust pre.getLast? (Node.withNext after.head?)).adjust
      after.head? (Node.withPrev pre.getLast?)) element (some ⟨none, none, payload⟩) =
        heap.without pre.getLast? after.head? element := by
    funext addr
    by_cases eq : addr = element
    · subst eq
      simp [Heap.without, h]
    · rw [Function.update_of_ne eq, Heap.adjust_eq_without eq]
  have ends_eq : (⟨if pre.getLast? = none then after.head? else ends.head,
      if after.head? = none then pre.getLast? else ends.tail⟩ : Ends Address) =
        ⟨(pre ++ after).head?, (pre ++ after).getLast?⟩ := by
    rw [listed.head, listed.tail]
    cases after with
    | nil => cases pre <;> simp
    | cons x rest =>
      rw [getLast?_append, getLast?_append]
      cases pre <;> simp
  simp only [DoublyLinked.remove, h, Option.bind_eq_bind, Option.bind_some, has_head, has_tail,
    guard_true, relinked, relinked_again, Heap.change, kept, Option.map_some, heap_eq, ends_eq]
  rfl

theorem Heap.without_of_ne {pre after : Option Address} (ne : addr ≠ elem)
    (h : heap addr = some node) : heap.without pre after elem addr =
      some ⟨if pre = some addr then after else node.next,
        if after = some addr then pre else node.prev, node.payload⟩ := by
  rw [Heap.without, h, Option.map_some, if_neg ne]

theorem Listed.without {before after : List Address}
    (listed : Listed heap ends (before ++ element :: after)) :
    Listed (heap.without before.getLast? after.head? element)
      ⟨(before ++ after).head?, (before ++ after).getLast?⟩ (before ++ after) := by
  obtain ⟨before_nodup, rest_nodup, apart⟩ := nodup_append.mp listed.nodup
  obtain ⟨not_after, after_nodup⟩ := nodup_cons.mp rest_nodup
  have not_before : element ∉ before := fun mem =>
    apart element mem element mem_cons_self rfl
  constructor
  · refine nodup_append.mpr ⟨before_nodup, after_nodup, ?_⟩
    intro x mem y other
    exact apart x mem y (mem_cons_of_mem _ other)
  · rfl
  · rfl
  · intro front other back split
    -- the neighbours of an element that comes after the one that is taken out
    have later : ∀ middle, front = before ++ middle → after = middle ++ other :: back →
        ∃ payload, heap.without before.getLast? after.head? element other =
          some ⟨back.head?, front.getLast?, payload⟩ := by
      rintro middle rfl rfl
      obtain ⟨payload, linked⟩ := listed.links (before ++ element :: middle) other back (by simp)
      have ne : other ≠ element := by
        rintro rfl
        exact not_after (by simp)
      have not_last : before.getLast? ≠ some other := by
        intro last
        exact apart other (mem_of_getLast? last) other (by simp) rfl
      refine ⟨payload, ?_⟩
      rw [Heap.without_of_ne ne linked, if_neg not_last]
      cases middle with
      | nil => simp
      | cons y middle =>
        have not_first : y ≠ other := by
          rintro rfl
          exact (nodup_cons.mp after_nodup).1 (by simp)
        rw [cons_append, head?_cons, if_neg (fun eq => not_first (Option.some.inj eq)),
          getLast?_append, getLast?_append, getLast?_cons_cons]
    -- and of one that comes before it
    have earlier : ∀ middle, before = front ++ other :: middle → back = middle ++ after →
        ∃ payload, heap.without before.getLast? after.head? element other =
          some ⟨back.head?, front.getLast?, payload⟩ := by
      rintro middle rfl rfl
      obtain ⟨payload, linked⟩ := listed.links front other (middle ++ element :: after) (by simp)
      have ne : other ≠ element := by
        rintro rfl
        exact not_before (by simp)
      have not_first : after.head? ≠ some other := by
        intro x
        exact apart other (by simp) other (mem_cons_of_mem _ (mem_of_mem_head? x)) rfl
      rw [Heap.without_of_ne ne linked, if_neg not_first]
      cases middle with
      | nil => simp
      | cons y middle =>
        have not_last : (front ++ other :: y :: middle).getLast? ≠ some other := by
          intro last
          have has : other ∈ y :: middle := by
            apply mem_of_getLast?
            simpa using last
          exact (nodup_cons.mp (nodup_append.mp before_nodup).2.1).1 has
        rw [if_neg not_last]
        simp
    obtain ⟨middle, front_eq, after_eq⟩ | ⟨middle, before_eq, back_eq⟩ :=
      append_eq_append_iff.mp split
    · exact later middle front_eq after_eq
    cases middle with
    | nil =>
      rw [append_nil] at before_eq
      exact later [] (by rw [before_eq, append_nil]) back_eq.symm
    | cons x middle =>
      obtain ⟨rfl, rfl⟩ := back_eq
      exact earlier middle before_eq rfl
  · intro address gone node h
    by_cases eq : address = element
    · subst eq
      obtain ⟨payload, linked⟩ := listed.links before address after rfl
      simp only [Heap.without, linked, Option.map_some, if_true, Option.some.injEq] at h
      rw [← h]
    have not_last : before.getLast? ≠ some address := fun last =>
      gone (mem_append_left _ (mem_of_getLast? last))
    have not_first : after.head? ≠ some address := fun x =>
      gone (mem_append_right _ (mem_of_mem_head? x))
    cases has : heap address with
    | none =>
      rw [Heap.without, has] at h
      cases h
    | some old =>
      rw [Heap.without_of_ne eq has, if_neg not_last, if_neg not_first] at h
      have idle := listed.idle address (by simp [eq] at gone ⊢; exact gone) old has
      cases h
      rw [idle]

theorem Listed.remove (listed : Listed heap ends elements) (mem : elem ∈ elements) :
    ∃ fin changed, DoublyLinked.remove heap ends elem = some (fin, changed) ∧
      Listed fin changed (elements.erase elem) := by
  obtain ⟨before, after, split⟩ := append_of_mem mem
  subst split
  have not_before : elem ∉ before := by
    intro has
    exact (nodup_append.mp listed.nodup).2.2 elem has elem mem_cons_self rfl
  rw [erase_append_right _ not_before, erase_cons_head]
  exact ⟨_, _, listed.remove_eq, listed.without⟩

variable {fin : Heap Address Payload}

theorem Heap.change_payload {update : Node Address Payload → Node Address Payload}
    (changed : heap.change elem update = some fin)
    (kept : ∀ node, (update node).payload = node.payload) (address : Address) :
    fin.payload address = heap.payload address := by
  obtain ⟨node, h, rfl⟩ := Option.map_eq_some_iff.mp changed
  by_cases eq : address = elem
  · subst eq
    rw [Heap.payload, Heap.payload, Function.update_self, h, Option.map_some, Option.map_some, kept]
  · rw [Heap.payload, Heap.payload, Function.update_of_ne eq]

theorem Heap.relink_payload {update : Node Address Payload → Node Address Payload}
    (changed : heap.relink neighbour update = some fin)
    (kept : ∀ node, (update node).payload = node.payload) (address : Address) :
    fin.payload address = heap.payload address := by
  cases neighbour with
  | none =>
    cases changed
    rfl
  | some neighbour => exact Heap.change_payload changed kept address

theorem insert_payload {changed : Ends Address}
    (inserted : insert heap ends elem = some (fin, changed)) (address : Address) :
    fin.payload address = heap.payload address := by
  obtain ⟨head, tail⟩ := ends
  simp only [insert, Option.bind_eq_bind, Option.bind_eq_some_iff] at inserted
  obtain ⟨node, -, -, -, -, -, linked, first_change, inserted⟩ := inserted
  rw [← Heap.change_payload first_change (fun _ => rfl) address]
  cases tail with
  | none =>
    cases inserted
    rfl
  | some last =>
    simp only [Option.bind_eq_some_iff] at inserted
    obtain ⟨x, -, last_linked, second_change, inserted⟩ := inserted
    cases inserted
    exact Heap.change_payload second_change (fun _ => rfl) address

theorem remove_payload {changed : Ends Address}
    (removed : remove heap ends elem = some (fin, changed)) (address : Address) :
    fin.payload address = heap.payload address := by
  simp only [remove, Option.bind_eq_bind, Option.bind_eq_some_iff] at removed
  obtain ⟨node, -, -, -, -, -, x, first_change, y, second_change, third, third_change,
    removed⟩ := removed
  cases removed
  rw [Heap.change_payload third_change (fun _ => rfl),
    Heap.relink_payload second_change (fun _ => rfl), Heap.relink_payload first_change (fun _ => rfl)]

/-- Takes the first element out and visits it, for as long as there is one. -/
def drain (visit : Payload → Payload) :
    Nat → Heap Address Payload → Ends Address → Option (List Address × Heap Address Payload × Ends Address)
  | 0, _, _ => none
  | fuel + 1, heap, ends =>
    match ends.head with
    | none => some ([], heap, ends)
    | some element => do
        let (heap, ends) ← remove heap ends element
        let heap ← heap.change element fun node => { node with payload := visit node.payload }
        let (visited, heap, ends) ← drain visit fuel heap ends
        some (element :: visited, heap, ends)

/-- What visits keep of every payload, the loop keeps, whatever the links are like. -/
theorem drain_keeps {visit : Payload → Payload} {kept : Payload → Payload → Prop}
    (refl : ∀ payload, kept payload payload)
    (visits : ∀ pre after, kept (visit pre) after → kept pre after) {fuel : Nat}
    {visited : List Address} {changed : Ends Address}
    (drained : drain visit fuel heap ends = some (visited, fin, changed)) (addr : Address) :
    Option.Rel kept (heap.payload addr) (fin.payload addr) := by
  have eq : ∀ payload : Option Payload, Option.Rel kept payload payload := by
    intro payload
    cases payload with
    | none => exact .none
    | some payload => exact .some (refl payload)
  induction fuel generalizing heap ends visited with
  | zero => cases drained
  | succ fuel ih =>
    unfold drain at drained
    split at drained
    · cases drained
      exact eq _
    rename_i elem _
    simp only [Option.bind_eq_bind, Option.bind_eq_some_iff] at drained
    obtain ⟨⟨removed, rest⟩, remove_eq, changed_heap, change, ⟨later, last⟩, drained, done⟩ :=
      drained
    cases done
    have later := ih drained
    rw [← remove_payload remove_eq addr]
    obtain ⟨node, h, rfl⟩ := Option.map_eq_some_iff.mp change
    rw [Heap.payload_update] at later
    split at later
    · next here =>
      subst here
      have h : removed addr = some node := h
      change Option.Rel kept ((removed addr).map (·.payload)) (last.1.payload addr)
      rw [h]
      generalize last.1.payload addr = after at later ⊢
      cases later with
      | some related => exact .some (visits node.payload _ related)
    · exact later

theorem drain_mono {visit : Payload → Payload} {fuel : Nat} (more : Nat)
    {result : List Address × Heap Address Payload × Ends Address}
    (drained : drain visit fuel heap ends = some result) :
    drain visit (fuel + more) heap ends = some result := by
  induction fuel generalizing heap ends result with
  | zero => cases drained
  | succ fuel ih =>
    rw [Nat.add_right_comm]
    unfold drain at drained ⊢
    split at drained
    · exact drained
    simp only [Option.bind_eq_bind, Option.bind_eq_some_iff] at drained ⊢
    obtain ⟨removed, removal, visited, visit, rest, drained, result_eq⟩ := drained
    exact ⟨removed, removal, visited, visit, rest, ih drained, result_eq⟩

theorem Listed.drain (visit : Payload → Payload) {fuel : Nat} (mem : Listed heap ends elements)
    (enough : elements.length < fuel) :
    ∃ fin changed, DoublyLinked.drain visit fuel heap ends = some (elements, fin, changed) ∧
      Listed fin changed [] ∧ ∀ address, fin.payload address =
        if address ∈ elements then (heap.payload address).map visit else heap.payload address := by
  induction elements generalizing heap ends fuel with
  | nil =>
    obtain ⟨fuel, rfl⟩ := Nat.exists_eq_add_one_of_ne_zero (Nat.ne_of_gt enough)
    refine ⟨heap, ends, ?_, mem, ?_⟩
    · rw [DoublyLinked.drain, mem.head]
      rfl
    · intro address
      simp
  | cons elem elements ih =>
    obtain ⟨fuel, rfl⟩ := Nat.exists_eq_add_one_of_ne_zero (Nat.ne_of_gt (Nat.zero_lt_of_lt enough))
    obtain ⟨mid, left, removed, rest⟩ := mem.remove mem_cons_self
    rw [erase_cons_head] at rest
    have kept := remove_payload removed
    have has : ∃ node, mid elem = some node := by
      obtain ⟨node, h⟩ := mem.allocated mem_cons_self
      have eq := kept elem
      rw [Heap.payload, Heap.payload, h] at eq
      obtain ⟨old, h, -⟩ := Option.map_eq_some_iff.mp eq
      exact ⟨old, h⟩
    obtain ⟨node, h⟩ := has
    obtain ⟨fin, changed, drained, emptied, visited⟩ := ih
      (rest.write h (visit node.payload)) (Nat.lt_of_succ_lt_succ enough)
    refine ⟨fin, changed, ?_, emptied, ?_⟩
    · rw [DoublyLinked.drain, mem.head]
      simp only [head?_cons, removed, Option.bind_eq_bind, Option.bind_some, Heap.change, h,
        Option.map_some, drained]
    intro address
    have not_again := (nodup_cons.mp mem.nodup).1
    rw [visited address, ← kept address]
    by_cases eq : address = elem
    · subst eq
      simp [not_again, Heap.payload, h]
    · simp [eq, Heap.payload]

end Library.DoublyLinked
