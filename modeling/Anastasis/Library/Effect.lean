import Mathlib.Order.Defs.Unbundled

/-! Computations over a mutable state that may throw, and the rules of their pre-
and postconditions. Whatever a computation did to the state before it threw
stays done, so the exceptional postcondition also speaks about the state. -/

set_option autoImplicit false

namespace Library

def Effect (Error State Value : Type) : Type := State → Except Error Value × State

namespace Effect

variable {Error State Value Result : Type}

def run (program : Effect Error State Value) (state : State) :
    Except Error Value × State := program state

instance : Monad (Effect Error State) where
  pure value := fun state => (.ok value, state)
  bind program continuation := fun state =>
    match program state with
    | (.ok value, middle) => continuation value middle
    | (.error error, middle) => (.error error, middle)

def throw (error : Error) : Effect Error State Value :=
  fun state => (.error error, state)

def get : Effect Error State State := fun state => (.ok state, state)

def modify (update : State → State) : Effect Error State Unit :=
  fun state => (.ok (), update state)

def ofExcept : Except Error Value → Effect Error State Value
  | .ok value => fun state => (.ok value, state)
  | .error error => fun state => (.error error, state)

/-- Started in `state`, the computation returns a value and a state that meet
`normal`, or it throws and leaves a state that meets `exceptional`. -/
def Ensures (program : Effect Error State Value) (state : State)
    (normal : Value → State → Prop) (exceptional : Error → State → Prop) : Prop :=
  match program.run state with
  | (.ok value, final) => normal value final
  | (.error error, final) => exceptional error final

variable {state st : State} {normal : Value → State → Prop}
  {exceptional : Error → State → Prop}

@[simp] theorem ensures_pure (value : Value) :
    Ensures (Pure.pure value) state normal exceptional ↔ normal value state := Iff.rfl

variable {program : Effect Error State Value} {continuation : Value → Effect Error State Result}

@[simp] theorem ensures_bind {normal : Result → State → Prop} :
    Ensures (program >>= continuation) st normal exceptional ↔ Ensures program st
        (fun value mid => Ensures (continuation value) mid normal exceptional)
        exceptional := by
  unfold Ensures run
  change (match (match program st with
    | (.ok value, mid) => continuation value mid
    | (.error error, mid) => (.error error, mid)) with
    | (.ok value, final) => normal value final
    | (.error error, final) => exceptional error final) ↔ _
  rcases program st with ⟨out | out, mid⟩ <;> exact Iff.rfl

theorem Ensures.mono {weaker : Value → State → Prop} {thrown : Error → State → Prop}
    (ensures : Ensures program state normal exceptional)
    (returns : ∀ value final, normal value final → weaker value final)
    (throws : ∀ error final, exceptional error final → thrown error final) :
    Ensures program state weaker thrown := by
  unfold Ensures at ensures ⊢
  generalize program.run state = out at ensures ⊢
  obtain ⟨_ | _, final⟩ := out
  · exact throws _ _ ensures
  · exact returns _ _ ensures

theorem Ensures.and {also : Value → State → Prop} {thrown : Error → State → Prop}
    (x : Ensures program st normal exceptional) (y : Ensures program st also thrown) :
    Ensures program st (fun value final => normal value final ∧ also value final)
      (fun error final => exceptional error final ∧ thrown error final) := by
  unfold Ensures at x y ⊢
  generalize program.run st = out at x y ⊢
  obtain ⟨_ | _, final⟩ := out
  · exact ⟨x, y⟩
  · exact ⟨x, y⟩

theorem Ensures.bind {final : Result → State → Prop} (x : Ensures program state normal exceptional)
    (y : ∀ value mid, normal value mid → Ensures (continuation value) mid final exceptional) :
    Ensures (program >>= continuation) state final exceptional :=
  ensures_bind.mpr (x.mono y fun _ _ thrown => thrown)

theorem run_after {value : Value} {middle : State}
    (returned : program.run st = (.ok value, middle)) :
    (program >>= continuation).run st = (continuation value).run middle := by
  change (match program st with
    | (.ok value, middle) => continuation value middle
    | (.error error, middle) => (.error error, middle)) = _
  rw [show program st = (.ok value, middle) from returned]
  rfl

theorem Ensures.after {value : Value} {mid : State} {normal : Result → State → Prop}
    (returned : program.run state = (.ok value, mid))
    (rest : Ensures (continuation value) mid normal exceptional) :
    Ensures (program >>= continuation) state normal exceptional := by
  unfold Ensures
  rw [run_after returned]
  exact rest

theorem Ensures.of_run {value : Value} {final : State}
    (ensures : Ensures program st normal exceptional)
    (returned : program.run st = (.ok value, final)) : normal value final := by
  unfold Ensures at ensures
  rw [returned] at ensures
  exact ensures

theorem Ensures.returns (ensures : Ensures program st normal (fun _ _ => False)) :
    ∃ value final, program.run st = (.ok value, final) ∧ normal value final := by
  unfold Ensures at ensures
  generalize equal : program.run st = out at ensures
  obtain ⟨_ | value, final⟩ := out
  · exact ensures.elim
  · exact ⟨value, final, rfl, ensures⟩

/-- However the computation ends, it leaves a state that is related to the one before. -/
def Keeps (relation : State → State → Prop) (program : Effect Error State Value) : Prop :=
  ∀ state, Ensures program state (fun _ final => relation state final)
    (fun _ final => relation state final)

section Keeps

variable {relation : State → State → Prop} [Std.Refl relation]

theorem Keeps.pure (value : Value) :
    Keeps relation (Pure.pure value : Effect Error State Value) := fun st =>
  Std.Refl.refl st

theorem Keeps.throw (error : Error) :
    Keeps relation (throw error : Effect Error State Value) := fun st =>
  Std.Refl.refl st

theorem Keeps.get : Keeps relation (get : Effect Error State State) := fun st =>
  Std.Refl.refl st

theorem Keeps.modify {relation : State → State → Prop} {update : State → State}
    (related : ∀ st, relation st (update st)) :
    Keeps relation (modify update : Effect Error State Unit) := related

theorem Keeps.bind {relation : State → State → Prop} [IsTrans State relation]
    {program : Effect Error State Value} {continuation : Value → Effect Error State Result}
    (x : Keeps relation program) (y : ∀ value, Keeps relation (continuation value)) :
    Keeps relation (program >>= continuation) := by
  intro st
  refine ensures_bind.mpr ((x st).mono ?_ fun _ _ related => related)
  intro value mid related
  refine (y value mid).mono ?_ ?_
  · exact fun _ _ later => IsTrans.trans _ _ _ related later
  · exact fun _ _ later => IsTrans.trans _ _ _ related later

end Keeps

end Effect

end Library
