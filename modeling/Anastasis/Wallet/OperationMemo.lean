import Mathlib.Logic.Function.Basic
import Anastasis.Library.Transition
import Anastasis.TalerUtil.Objects

/-! Operations under a key: whoever asks for one that goes on already gets the promise of that. -/

set_option autoImplicit false

namespace Anastasis.Wallet

open Library.Transition TalerUtil

inductive OperationStage where
  /-- The function is called by the promise queue, so that it may throw. -/
  | scheduled
  | running
  /-- The promise is settled, but it is not cleaned up yet. -/
  | settled
deriving DecidableEq

/-- The entries, and the operations that are not cleaned up, by the numbers of their promises. -/
structure AsyncOpMemoMap where
  n : Nat
  memoMap : String → Option Nat
  operations : Nat → Option (String × OperationStage)

inductive MemoEvent where
  /-- The promise that a caller gets; what objects inherit has none. -/
  | memo (key : String) (promise : Option Nat)
  | runs (n : Nat)
  | settles (n : Nat) (threw : Bool)
  | cleansUp (n : Nat)
  | clears

namespace AsyncOpMemoMap

def start : AsyncOpMemoMap := ⟨0, fun _ => none, fun _ => none⟩

def put (n : Nat) (operation : Option (String × OperationStage)) (map : AsyncOpMemoMap) :
    AsyncOpMemoMap :=
  { map with operations := Function.update map.operations n operation }

def cleanUp (key : String) (n : Nat) (map : AsyncOpMemoMap) : AsyncOpMemoMap :=
  { map with memoMap := if map.memoMap key = some n then Function.update map.memoMap key none
    else map.memoMap }

def memo (key : String) (map : AsyncOpMemoMap) : Option Nat × AsyncOpMemoMap :=
  if key ∈ objectPrototype then (none, map)
  else match map.memoMap key with
    | some n => (some n, map)
    | none => (some map.n, { map.put map.n (some (key, .scheduled)) with
        n := map.n + 1, memoMap := Function.update map.memoMap key (some map.n) })

def clear (map : AsyncOpMemoMap) : AsyncOpMemoMap := { map with memoMap := fun _ => none }

inductive Step (map : AsyncOpMemoMap) : MemoEvent → AsyncOpMemoMap → Prop where
  | memo {key : String} : Step map (.memo key (map.memo key).1) (map.memo key).2
  | runs {n : Nat} {key : String} : map.operations n = some (key, .scheduled) →
      Step map (.runs n) (map.put n (some (key, .running)))
  | settles {n : Nat} {key : String} {threw : Bool} : map.operations n = some (key, .running) →
      Step map (.settles n threw) (map.put n (some (key, .settled)))
  | cleansUp {n : Nat} {key : String} : map.operations n = some (key, .settled) →
      Step map (.cleansUp n) ((map.put n none).cleanUp key n)
  | clears : Step map .clears map.clear

variable {map next : AsyncOpMemoMap} {events : List MemoEvent} {event : MemoEvent}

/-- The operations that are not cleaned up, with their keys. -/
def Pending (map : AsyncOpMemoMap) (n : Nat) (key : String) : Prop :=
  (map.operations n).map Prod.fst = some key

/-- Entries are of operations that are not cleaned up; before they are cleared each of those has
its entry. -/
structure Current (events : List MemoEvent) (map : AsyncOpMemoMap) : Prop where
  fresh : ∀ n key, map.Pending n key → n < map.n
  own : ∀ n key, map.memoMap key = some n → map.Pending n key
  listed : .clears ∉ events → ∀ n key, map.Pending n key → map.memoMap key = some n

theorem Current.step (current : map.Current events) (step : Step map event next) :
    next.Current (events ++ [event]) := by
  obtain ⟨fresh, own, listed⟩ := current
  have kept : .clears ∉ events ++ [event] → .clears ∉ events :=
    fun never mem => never (List.mem_append_left _ mem)
  replace listed := fun never => listed (kept never)
  cases step with
  | @memo key =>
    generalize (map.memo key).1 = promise at kept listed ⊢
    unfold memo
    split
    · exact ⟨fresh, own, listed⟩
    split
    · exact ⟨fresh, own, listed⟩
    · constructor <;> simp only [Pending, put, Function.update_apply] at * <;> grind
  | runs going | settles going | cleansUp going =>
    constructor <;> simp only [Pending, put, cleanUp, Function.update_apply] at * <;> grind
  | clears =>
    refine ⟨fresh, (fun _ _ entry => nomatch entry), fun never => ?_⟩
    exact absurd (List.mem_append_right _ List.mem_cons_self) never

end AsyncOpMemoMap

end Anastasis.Wallet
