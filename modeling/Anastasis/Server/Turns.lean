import Anastasis.Library.Effect
import Anastasis.Library.LinkedRegister

/-! Requests that are handled in turns. Their contexts stay allocated in between, and those that wait
for something are in a list. -/

set_option autoImplicit false

namespace Anastasis.Server

open Library Library.DoublyLinked

abbrev Address := Nat

inductive Fault where
  | assertion
  | invalidAccess
  /-- An assertion or an access that fails inside of a list operation. -/
  | brokenList
deriving DecidableEq

inductive Abort where
  | assertion

inductive ListOperation where
  | insert
  /-- An insertion with head and tail in the wrong order. -/
  | insertSwapped
  | remove
deriving DecidableEq

/-- A request while its functions run. Its list operations touch nothing but links, which no
function reads, and they are carried out one after the other when the turn is over. -/
structure Turn (Context Shared : Type) where
  address : Address
  context : Context
  operations : List ListOperation
  shared : Shared

abbrev Served (Context Shared Value : Type) : Type := Effect Abort (Turn Context Shared) Value

namespace Served

variable {Context Shared : Type}

def load : Served Context Shared Context := do return (← Effect.get).context

def update (change : Context → Context) : Served Context Shared Unit :=
  Effect.modify fun turn => { turn with context := change turn.context }

def assert (condition : Bool) : Served Context Shared Unit :=
  if condition then return () else Effect.throw .assertion

def link (operation : ListOperation) : Served Context Shared Unit :=
  Effect.modify fun turn => { turn with operations := turn.operations ++ [operation] }

def shared : Served Context Shared Shared := do return (← Effect.get).shared

def share (change : Shared → Shared) : Served Context Shared Unit :=
  Effect.modify fun turn => { turn with shared := change turn.shared }

open Effect

variable {turn : Turn Context Shared} {normal : Unit → Turn Context Shared → Prop}
  {exceptional : Abort → Turn Context Shared → Prop}

@[simp] theorem ensures_load {normal : Context → Turn Context Shared → Prop} :
    Ensures load turn normal exceptional ↔ normal turn.context turn := Iff.rfl

@[simp] theorem ensures_update (change : Context → Context) :
    Ensures (update change) turn normal exceptional ↔
      normal () { turn with context := change turn.context } := Iff.rfl

@[simp] theorem ensures_assert (cond : Bool) : Ensures (assert cond) turn normal exceptional ↔
      if cond then normal () turn else exceptional .assertion turn := by
  cases cond <;> exact Iff.rfl

@[simp] theorem ensures_link (operation : ListOperation) :
    Ensures (link operation) turn normal exceptional ↔
      normal () { turn with operations := turn.operations ++ [operation] } := Iff.rfl

@[simp] theorem ensures_shared {normal : Shared → Turn Context Shared → Prop} :
    Ensures shared turn normal exceptional ↔ normal turn.shared turn := Iff.rfl

@[simp] theorem ensures_share (change : Shared → Shared) :
    Ensures (share change) turn normal exceptional ↔
      normal () { turn with shared := change turn.shared } := Iff.rfl

end Served

/-- The contexts with the list of those that wait, and what all requests share. -/
structure RequestServer (Context Shared : Type) where
  requests : Register Address Context
  shared : Shared
  stopped : Bool

variable {Context Shared : Type}

def ListOperation.run (address : Address) (requests : Register Address Context) :
    ListOperation → Option (Register Address Context)
  | .insert => requests.enter address
  | .insertSwapped => requests.enterSwapped address
  | .remove => requests.leave address

/-- A turn of the request at `address`, whose context is written back before the list changes. -/
def RequestServer.serve (server : RequestServer Context Shared) (address : Address)
    (turn : Served Context Shared Unit) : Except Fault (RequestServer Context Shared) := do
  match server.requests.get address with
  | none => .error .invalidAccess
  | some context =>
    match turn.run ⟨address, context, [], server.shared⟩ with
    | (.error .assertion, _) => .error .assertion
    | (.ok (), final) =>
      match (server.requests.set address final.context).bind fun requests =>
          final.operations.foldlM (ListOperation.run address) requests with
      | none => .error .brokenList
      | some requests => .ok { server with requests := requests, shared := final.shared }

def RequestServer.allocate (server : RequestServer Context Shared) (address : Address)
    (context : Context) : RequestServer Context Shared :=
  { server with requests := server.requests.allocate address context }

def RequestServer.free (server : RequestServer Context Shared) (address : Address) :
    RequestServer Context Shared :=
  { server with requests := server.requests.free address }

theorem ListOperation.run_get {addr : Address} {requests next : Register Address Context}
    {operation : ListOperation} (done : operation.run addr requests = some next)
    (other : Address) : next.get other = requests.get other := by
  cases operation with
  | insert => exact Register.enter_get done other
  | insertSwapped => exact Register.enterSwapped_get done other
  | remove => exact Register.leave_get done other

theorem ListOperation.foldlM_get {addr : Address} {requests next : Register Address Context}
    {operations : List ListOperation}
    (done : operations.foldlM (ListOperation.run addr) requests = some next) (other : Address) :
    next.get other = requests.get other := by
  induction operations generalizing requests with
  | nil =>
    cases done
    rfl
  | cons operation operations ih =>
    obtain ⟨mid, x, rest⟩ := Option.bind_eq_some_iff.mp done
    exact (ih rest).trans (run_get x other)

/-- A turn that was carried out replaced the context of its request, and that of nobody else. -/
theorem RequestServer.serve_ok {server next : RequestServer Context Shared} {addr : Address}
    {program : Served Context Shared Unit} (ran : server.serve addr program = .ok next) :
    ∃ context final, server.requests.get addr = some context ∧
      program.run ⟨addr, context, [], server.shared⟩ = (.ok (), final) ∧
      next.shared = final.shared ∧ next.stopped = server.stopped ∧
      ∀ other, next.requests.get other =
        if other = addr then some final.context else server.requests.get other := by
  unfold RequestServer.serve at ran
  split at ran
  · cases ran
  rename_i context got
  split at ran
  · cases ran
  rename_i final run
  split at ran
  · cases ran
  rename_i requests done
  cases ran
  obtain ⟨written, set, done⟩ := Option.bind_eq_some_iff.mp done
  refine ⟨context, final, got, run, rfl, rfl, ?_⟩
  intro other
  rw [ListOperation.foldlM_get done other]
  exact Register.get_set set other

end Anastasis.Server
