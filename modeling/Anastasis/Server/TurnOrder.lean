import Anastasis.Server.Turns

/-! Which turns keep the list of waiting requests in order. -/

set_option autoImplicit false

namespace Anastasis.Server

open Library Library.DoublyLinked Library.Effect Option

/-- What a kind of request promises between its turns, and how its context tells whether it is in the
list. -/
structure Discipline (Context : Type) where
  listed : Context → Bool
  settled : Context → Prop

/-- The list operations of a turn, and whether its request is in the list before and after them.
Insertions with the ends in the wrong order depend on nobody else being in the list. -/
inductive Legal (alone : Prop) : List ListOperation → Bool → Bool → Prop where
  | nothing (listed : Bool) : Legal alone [] listed listed
  | insert : Legal alone [.insert] false true
  | insertSwapped : alone → Legal alone [.insertSwapped] false true
  | remove : Legal alone [.remove] true false
  | insertRemove : Legal alone [.insert, .remove] false false

variable {Context Shared : Type} {discipline : Discipline Context} {alone : Prop} {before pre after : Bool}
  {operations : List ListOperation} {address addr : Address} {context ctx : Context}
  {requests : Register Address Context} {server next : RequestServer Context Shared}
  {program : Served Context Shared Unit}

theorem Legal.removed (legal : Legal alone operations before true)
    (ordered : .insertSwapped ∉ operations) :
    Legal alone (operations ++ [.remove]) before false := by
  cases legal with
  | nothing => exact .remove
  | insert => exact .insertRemove
  | insertSwapped => simp at ordered

/-- List operations that are legal succeed, and they concern nobody but their request. -/
theorem Legal.run (intact : requests.Intact) (h : requests.get addr = some ctx)
    (mem : pre = true ↔ addr ∈ requests.members)
    (legal : Legal (requests.members = []) operations pre after) :
    ∃ fin, operations.foldlM (ListOperation.run addr) requests = some fin ∧ fin.Intact ∧
      (∀ y, fin.get y = requests.get y) ∧ (after = true ↔ addr ∈ fin.members) ∧
      ∀ y, y ≠ addr → (y ∈ fin.members ↔ y ∈ requests.members) := by
  cases legal with
  | nothing => exact ⟨requests, rfl, intact, fun _ => rfl, mem, fun _ _ => Iff.rfl⟩
  | insert =>
    have outside : addr ∉ requests.members := fun inside => by simpa using mem.mpr inside
    obtain ⟨fin, entered, intact, members, eq⟩ := intact.enter outside h
    refine ⟨fin, ?_, intact, eq, ?_, ?_⟩
    · simp only [List.foldlM, ListOperation.run, entered]
      rfl
    · simp [members]
    · intro y ne
      simp [members, ne]
  | insertSwapped alone =>
    have outside : addr ∉ requests.members := by simp [alone]
    obtain ⟨fin, entered, kept, members, eq⟩ := intact.enter outside h
    rw [← intact.enterSwapped_alone alone h] at entered
    refine ⟨fin, ?_, kept, eq, ?_, ?_⟩
    · simp only [List.foldlM, ListOperation.run, entered]
      rfl
    · simp [members]
    · intro y ne
      simp [members, ne]
  | remove =>
    obtain ⟨fin, left, kept, members, eq⟩ := intact.leave (mem.mp rfl)
    refine ⟨fin, ?_, kept, eq, ?_, ?_⟩
    · simp only [List.foldlM, ListOperation.run, left]
      rfl
    · rw [members]
      simpa using intact.not_mem_erase
    intro y ne
    rw [members]
    exact List.mem_erase_of_ne ne
  | insertRemove =>
    have outside : addr ∉ requests.members := fun inside => by simpa using mem.mpr inside
    obtain ⟨mid, entered, intact, members, eq⟩ := intact.enter outside h
    have inside : addr ∈ mid.members := by simp [members]
    obtain ⟨fin, left, kept, remaining, also⟩ := intact.leave inside
    rw [members, List.erase_cons_head] at remaining
    refine ⟨fin, ?_, kept, fun y => (also y).trans (eq y), ?_, ?_⟩
    · simp only [List.foldlM, ListOperation.run, entered, left, bind_eq_bind, bind_some]
      rfl
    · rw [remaining]
      simpa using outside
    · intro y _
      rw [remaining]

/-- A turn of a request that was or was not in the list `before`. -/
structure Tidy (discipline : Discipline Context) (alone : Prop) (before : Bool)
    (turn : Turn Context Shared) : Prop where
  settled : discipline.settled turn.context
  legal : Legal alone turn.operations before (discipline.listed turn.context)

/-- The list is consistent, every context knows whether it is in it, and all of them are settled. -/
structure RequestServer.InOrder (discipline : Discipline Context)
    (server : RequestServer Context Shared) : Prop where
  intact : server.requests.Intact
  member : ∀ address context, server.requests.get address = some context →
    (discipline.listed context = true ↔ address ∈ server.requests.members)
  settled : ∀ address context, server.requests.get address = some context →
    discipline.settled context

/-- A turn of the request at `address` left it with `context`, and the others did not notice. -/
structure Carried (discipline : Discipline Context) (address : Address) (context : Context)
    (server next : RequestServer Context Shared) : Prop where
  intact : next.requests.Intact
  found : next.requests.get address = some context
  member : discipline.listed context = true ↔ address ∈ next.requests.members
  others : ∀ other, other ≠ address → next.requests.get other = server.requests.get other
  members : ∀ other, other ≠ address →
    (other ∈ next.requests.members ↔ other ∈ server.requests.members)

namespace RequestServer.InOrder

theorem serve {post : Context → Prop} (order : server.InOrder discipline)
    (h : server.requests.get address = some context)
    (ensures : Ensures program ⟨address, context, [], server.shared⟩
      (fun _ fin => post fin.context ∧ Legal (server.requests.members = []) fin.operations
        (discipline.listed context) (discipline.listed fin.context)) (fun _ _ => True)) :
    server.serve address program ≠ .error .brokenList ∧
      ∀ next, server.serve address program = .ok next →
        ∃ context, post context ∧ Carried discipline address context server next := by
  unfold Ensures at ensures
  unfold RequestServer.serve
  simp only [h]
  generalize program.run ⟨address, context, [], server.shared⟩ = result at ensures ⊢
  obtain ⟨_ | _, fin⟩ := result
  · simp
  obtain ⟨holds, legal⟩ := ensures
  obtain ⟨written, set⟩ := Register.set_of_get h fin.context
  have members := Register.members_set set
  have gets := Register.get_set set
  have mem := order.member address context h
  rw [← members] at legal mem
  obtain ⟨requests, run, intact, eq, after, ys⟩ :=
    legal.run (order.intact.set set) ((gets address).trans (if_pos rfl)) mem
  simp only [set, bind_some, run]
  refine ⟨by simp, ?_⟩
  intro next r
  cases r
  refine ⟨fin.context, holds, intact, ?_, after, ?_, ?_⟩
  · rw [eq address, gets address, if_pos rfl]
  · intro y ne
    rw [eq y, gets y, if_neg ne]
  · intro y ne
    rw [ys y ne, members]

theorem carried (order : server.InOrder discipline) (settled : discipline.settled ctx)
    (carried : Carried discipline addr ctx server next) : next.InOrder discipline := by
  constructor
  · exact carried.intact
  · intro y present h
    by_cases eq : y = addr
    · subst eq
      rw [carried.found] at h
      cases h
      exact carried.member
    rw [carried.others y eq] at h
    rw [carried.members y eq]
    exact order.member y present h
  · intro y present h
    by_cases eq : y = addr
    · subst eq
      rw [carried.found] at h
      cases h
      exact settled
    · rw [carried.others y eq] at h
      exact order.settled y present h

theorem tidy (order : server.InOrder discipline) (h : server.requests.get addr = some ctx)
    (ensures : Ensures program ⟨addr, ctx, [], server.shared⟩
      (fun _ fin => Tidy discipline (server.requests.members = []) (discipline.listed ctx) fin)
      (fun _ _ => True)) : server.serve addr program ≠ .error .brokenList ∧
      ∀ next, server.serve addr program = .ok next → next.InOrder discipline := by
  obtain ⟨unbroken, after⟩ := order.serve h
    (ensures.mono (fun _ _ tidy => ⟨tidy.settled, tidy.legal⟩) fun _ _ _ => trivial)
  refine ⟨unbroken, ?_⟩
  intro next r
  obtain ⟨fin, settled, carried⟩ := after next r
  exact order.carried settled carried

theorem not_member (order : server.InOrder discipline)
    (fresh : server.requests.get addr = none) : addr ∉ server.requests.members := by
  intro mem
  obtain ⟨ctx, h⟩ := order.intact.allocated mem
  rw [fresh] at h
  cases h

theorem allocate (order : server.InOrder discipline) (fresh : server.requests.get addr = none)
    (outside : discipline.listed ctx = false) (settled : discipline.settled ctx) :
    (server.allocate addr ctx).InOrder discipline := by
  have gets := fun y => server.requests.get_allocate addr y ctx
  constructor
  · exact order.intact.allocate fresh ctx
  · intro y present h
    rw [RequestServer.allocate, gets] at h
    split at h
    · next eq =>
      cases h
      subst eq
      constructor
      · intro mem
        rw [outside] at mem
        cases mem
      · intro mem
        exact absurd mem (order.not_member fresh)
    · exact order.member y present h
  · intro y present h
    rw [RequestServer.allocate, gets] at h
    split at h
    · cases h
      exact settled
    · exact order.settled y present h

theorem free (order : server.InOrder discipline) (gone : discipline.listed ctx = false)
    (carried : Carried discipline addr ctx server next) : (next.free addr).InOrder discipline := by
  have gets := next.requests.get_free addr
  have outside : addr ∉ next.requests.members := by
    rw [← carried.member, gone]
    simp
  constructor
  · exact carried.intact.free outside
  · intro y present h
    rw [RequestServer.free, gets] at h
    split at h
    · cases h
    rename_i ne
    rw [carried.others y ne] at h
    exact (order.member y present h).trans (carried.members y ne).symm
  · intro y present h
    rw [RequestServer.free, gets] at h
    split at h
    · cases h
    rename_i ne
    rw [carried.others y ne] at h
    exact order.settled y present h

/-- The loop of a shutdown comes to an end and visits everybody in the list once. -/
theorem close {visit : Context → Context} {fuel : Nat} (order : server.InOrder discipline)
    (enough : server.requests.members.length < fuel) (taken : ∀ ctx, discipline.settled ctx →
      discipline.settled (visit ctx) ∧ discipline.listed (visit ctx) = false)
    (shared : Shared) (stopped : Bool) :
    ∃ requests, server.requests.close visit fuel = some (server.requests.members, requests) ∧
      requests.members = [] ∧
      RequestServer.InOrder discipline (⟨requests, shared, stopped⟩ : RequestServer Context Shared) := by
  obtain ⟨requests, closed, intact, emptied, visited⟩ := order.intact.close visit enough
  refine ⟨requests, closed, emptied, intact, ?_, ?_⟩
  · intro addr ctx h
    rw [emptied]
    simp only [visited] at h
    split at h
    · obtain ⟨pre, present, rfl⟩ := map_eq_some_iff.mp h
      simp [(taken pre (order.settled addr pre present)).2]
    rename_i outside
    have mem := order.member addr ctx h
    simp only [outside, iff_false] at mem
    simp [mem]
  · intro addr ctx h
    simp only [visited] at h
    split at h
    · obtain ⟨pre, present, rfl⟩ := map_eq_some_iff.mp h
      exact (taken pre (order.settled addr pre present)).1
    · exact order.settled addr ctx h

end RequestServer.InOrder

end Anastasis.Server
