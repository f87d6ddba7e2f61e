import Mathlib.Logic.Relation
import Mathlib.Data.List.Induction

/-! Finite runs of labelled step relations, and the induction rules that carry
an invariant or a growing quantity from single steps to whole runs. -/

set_option autoImplicit false

namespace Library.Transition

universe u v

variable {State : Type u} {Event : Type v}

/-- A finite run from `start`, listing its events in the order they happened. -/
inductive Run (step : State → Event → State → Prop) (start : State) :
    List Event → State → Prop where
  | start : Run step start [] start
  | next {events : List Event} {state next : State} {event : Event} :
      Run step start events state → step state event next →
      Run step start (events ++ [event]) next

/-- The step relation cut down to the steps that meet a condition on the state
before them and on their event. -/
def Guarded (condition : State → Event → Prop)
    (step : State → Event → State → Prop) (state : State) (event : Event)
    (next : State) : Prop :=
  condition state event ∧ step state event next

variable {step : State → Event → State → Prop} {start final : State}
  {events : List Event}

theorem Run.invariant (invariant : State → Prop) (initial : invariant start)
    (preserved : ∀ state event next, invariant state → step state event next → invariant next)
    (run : Run step start events final) : invariant final := by
  induction run with
  | start => exact initial
  | next _ last ih => exact preserved _ _ _ ih last

theorem Run.mono {weaker : State → Event → State → Prop}
    (weaken : ∀ state event next, step state event next → weaker state event next)
    (run : Run step start events final) : Run weaker start events final := by
  induction run with
  | start => exact .start
  | next _ last ih => exact .next ih (weaken _ _ _ last)

theorem Run.unguarded {condition : State → Event → Prop}
    (run : Run (Guarded condition step) start events final) : Run step start events final :=
  run.mono fun _ _ _ guarded => guarded.2

theorem Run.append {middle : State} {later : List Event}
    (first : Run step start events middle) (second : Run step middle later final) :
    Run step start (events ++ later) final := by
  induction second with
  | start => simpa using first
  | next _ last ih => simpa [List.append_assoc] using ih.next last

theorem Run.ofFoldlM_mem {perform : State → Event → Option State}
    (performs : ∀ state event next, event ∈ events → perform state event = some next →
      step state event next)
    (success : events.foldlM perform start = some final) : Run step start events final := by
  induction events using List.reverseRecOn generalizing final with
  | nil =>
    cases success
    exact .start
  | append_singleton earlier last ih =>
    rw [List.foldlM_append] at success
    obtain ⟨middle, isMiddle, isLast⟩ := Option.bind_eq_some_iff.mp success
    obtain ⟨next, isNext, isFinal⟩ := Option.bind_eq_some_iff.mp isLast
    cases isFinal
    have before := ih (fun _ _ _ member => performs _ _ _ (List.mem_append_left _ member)) isMiddle
    exact before.next (performs _ _ _ (List.mem_append_right _ List.mem_cons_self) isNext)

theorem Run.ofFoldlM {perform : State → Event → Option State}
    (performs : ∀ state event next, perform state event = some next → step state event next)
    (success : events.foldlM perform start = some final) : Run step start events final :=
  .ofFoldlM_mem (fun _ _ _ _ => performs _ _ _) success

theorem Run.invariantWithHistory (invariant : List Event → State → Prop)
    (initial : invariant [] start)
    (preserved : ∀ history state event next, invariant history state →
      step state event next → invariant (history ++ [event]) next)
    (run : Run step start events final) : invariant events final := by
  induction run with
  | start => exact initial
  | next _ last ih => exact preserved _ _ _ _ ih last

end Library.Transition
