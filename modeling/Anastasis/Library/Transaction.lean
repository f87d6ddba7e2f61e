import Anastasis.Library.Effect

/-! Statements over a database connection any of which may fail, transactions that keep
their changes to themselves until they are committed, and attempts that are repeated. -/

set_option autoImplicit false

namespace Library

inductive Failure where
  | soft
  | hard
deriving DecidableEq

/-- The connection, and the failures that are still to come, by the number of the
statement that meets them. -/
structure Connection (Tables : Type) where
  committed : Tables
  transaction : Option Tables
  failures : Nat → Option Failure
  executed : Nat

/-- The outcome of a query for at most one row; more rows than one are a failure. -/
inductive Selection (Row : Type) where
  | failed (failure : Failure)
  | noResults
  | oneResult (row : Row)

/-- What a query for at most one row reports about the rows that it finds. -/
def Selection.of {Row : Type} : Option Failure → List Row → Selection Row
  | some failure, _ => .failed failure
  | none, [] => .noResults
  | none, [row] => .oneResult row
  | none, _ :: _ :: _ => .failed .hard

inductive Change where
  | failed (failure : Failure)
  | rows (count : Nat)

inductive Exit (Result : Type) where
  | leave (result : Result)
  | retry

abbrev Statements (Tables Result Value : Type) : Type :=
  Effect (Exit Result) (Connection Tables) Value

namespace Connection

variable {Tables : Type}

def current (connection : Connection Tables) : Tables :=
  connection.transaction.getD connection.committed

def tick (connection : Connection Tables) : Connection Tables :=
  { connection with executed := connection.executed + 1 }

def write (connection : Connection Tables) (tables : Tables) : Connection Tables :=
  match connection.transaction with
  | none => { connection with committed := tables }
  | some _ => { connection with transaction := some tables }

def discard (connection : Connection Tables) : Connection Tables :=
  { connection with transaction := none }

/-- A connection between two calls, before the next one meets `failures`. -/
def opened (tables : Tables) (failures : Nat → Option Failure) : Connection Tables :=
  { committed := tables, transaction := none, failures := failures, executed := 0 }

/-- What the connection holds: the committed tables, and those of the open transaction. -/
structure At (connection : Connection Tables) (committed : Tables)
    (transaction : Option Tables) : Prop where
  committed : connection.committed = committed
  transaction : connection.transaction = transaction

theorem opened_at (tables : Tables) (failures : Nat → Option Failure) :
    (opened tables failures).At tables none := ⟨rfl, rfl⟩

theorem At.tick {conn : Connection Tables} {committed : Tables}
    {transaction : Option Tables} (holds : conn.At committed transaction) :
    conn.tick.At committed transaction := ⟨holds.committed, holds.transaction⟩

theorem At.current {conn : Connection Tables} {committed : Tables}
    (holds : conn.At committed none) : conn.current = committed := by
  rw [Connection.current, holds.transaction, Option.getD_none, holds.committed]

theorem At.write {connection : Connection Tables} {committed : Tables}
    (holds : connection.At committed none) (tb : Tables) :
    connection.write tb = { connection with committed := tb } := by
  rw [Connection.write, holds.transaction]

end Connection

/-- What an attempt that ends early must ensure: a result that meets the postcondition, or
a retry from unchanged tables. -/
def Exit.Meets {Tables Result : Type} (post : Result → Connection Tables → Prop)
    (committed : Tables) : Exit Result → Connection Tables → Prop
  | .leave result, final => post result final
  | .retry, final => final.committed = committed

def Exit.Leaves {Tables Result : Type} (post : Result → Connection Tables → Prop) :
    Exit Result → Connection Tables → Prop
  | .leave result, final => post result final
  | .retry, _ => False

namespace Statements

variable {Tables Result Value Row : Type}

def leave (result : Result) : Statements Tables Result Value := Effect.throw (.leave result)

def retry : Statements Tables Result Value := Effect.throw .retry

def startTransaction : Statements Tables Result Bool := fun connection =>
  match connection.failures connection.executed with
  | none => (.ok true, { connection.tick with transaction := some connection.committed })
  | some _ => (.ok false, connection.tick.discard)

def rollback : Statements Tables Result Unit := Effect.modify fun connection =>
  connection.tick.discard

def select (query : Tables → List Row) : Statements Tables Result (Selection Row) :=
  fun connection =>
    match connection.failures connection.executed, query connection.current with
    | some failure, _ => (.ok (.failed failure), connection.tick)
    | none, [] => (.ok .noResults, connection.tick)
    | none, [row] => (.ok (.oneResult row), connection.tick)
    | none, _ :: _ :: _ => (.ok (.failed .hard), connection.tick)

def selectAll (query : Tables → List Row) :
    Statements Tables Result (Except Failure (List Row)) := fun connection =>
  match connection.failures connection.executed with
  | some failure => (.ok (.error failure), connection.tick)
  | none => (.ok (.ok (query connection.current)), connection.tick)

def change (update : Tables → Except Failure (Nat × Tables)) :
    Statements Tables Result Change := fun connection =>
  match connection.failures connection.executed, update connection.current with
  | some failure, _ => (.ok (.failed failure), connection.tick)
  | none, .error failure => (.ok (.failed failure), connection.tick)
  | none, .ok (count, tables) => (.ok (.rows count), connection.tick.write tables)

def commitTransaction : Statements Tables Result (Option Failure) := fun connection =>
  match connection.failures connection.executed with
  | some failure => (.ok (some failure), connection.tick.discard)
  | none => (.ok none, { connection.tick.discard with committed := connection.current })

def inTransaction (refused : Result) : Statements Tables Result Unit := do
  if ← startTransaction then pure () else leave refused

def abandon (result : Result) : Statements Tables Result Value := do
  rollback
  leave result

/-- Repeats an attempt that asks for it, as often as `retries` allows. -/
def transact (exhausted : Result) (attempt : Statements Tables Result Result) :
    (retries : Nat) → Connection Tables → Result × Connection Tables
  | 0, connection => (exhausted, connection)
  | retries + 1, connection =>
    match attempt.run connection with
    | (.ok result, final) => (result, final)
    | (.error (.leave result), final) => (result, final)
    | (.error .retry, final) => transact exhausted attempt retries final.tick.discard

section Rules

open Effect

variable {connection conn : Connection Tables} {committed : Tables}
  {transaction tx : Option Tables} {exceptional : Exit Result → Connection Tables → Prop}

theorem select_run (query : Tables → List Row) :
    (select query : Statements Tables Result (Selection Row)).run conn =
      (.ok (.of (conn.failures conn.executed) (query conn.current)), conn.tick) := by
  unfold run select
  match conn.failures conn.executed, query conn.current with
  | some failure, rows => rfl
  | none, [] => rfl
  | none, [row] => rfl
  | none, _ :: _ :: _ => rfl

variable {query : Tables → List Row}

theorem select_run_of {sel : Selection Row}
    (h : .of (conn.failures conn.executed) (query conn.current) = sel) :
    (select query : Statements Tables Result (Selection Row)).run conn = (.ok sel, conn.tick) := by
  rw [select_run, h]

theorem selectAll_run (undisturbed : conn.failures conn.executed = none) :
    (selectAll query : Statements Tables Result (Except Failure (List Row))).run conn =
      (.ok (.ok (query conn.current)), conn.tick) := by
  unfold run selectAll
  rw [undisturbed]

theorem startTransaction_run (undisturbed : conn.failures conn.executed = none) :
    (startTransaction : Statements Tables Result Bool).run conn =
      (.ok true, { conn.tick with transaction := some conn.committed }) := by
  unfold run startTransaction
  rw [undisturbed]

theorem inTransaction_run {refused : Result} (undisturbed : conn.failures conn.executed = none) :
    (inTransaction refused : Statements Tables Result Unit).run conn =
      (.ok (), { conn.tick with transaction := some conn.committed }) := by
  unfold inTransaction
  rw [run_after (startTransaction_run undisturbed)]
  rfl

theorem commitTransaction_run (undisturbed : conn.failures conn.executed = none) :
    (commitTransaction : Statements Tables Result (Option Failure)).run conn =
      (.ok none, { conn.tick.discard with committed := conn.current }) := by
  unfold run commitTransaction
  rw [undisturbed]

variable {update : Tables → Except Failure (Nat × Tables)}

theorem change_run_failed {failure : Failure}
    (failed : conn.failures conn.executed = some failure) :
    (change update : Statements Tables Result Change).run conn =
      (.ok (.failed failure), conn.tick) := by
  unfold run change
  rw [failed]

theorem change_run_error {failure : Failure} (undisturbed : conn.failures conn.executed = none)
    (refused : update conn.current = .error failure) :
    (change update : Statements Tables Result Change).run conn =
      (.ok (.failed failure), conn.tick) := by
  unfold run change
  rw [undisturbed, refused]

theorem change_run_rows {count : Nat} {tb : Tables}
    (undisturbed : conn.failures conn.executed = none)
    (updated : update conn.current = .ok (count, tb)) :
    (change update : Statements Tables Result Change).run conn =
      (.ok (.rows count), conn.tick.write tb) := by
  unfold run change
  rw [undisturbed, updated]

theorem ensures_rollback {normal : Unit → Connection Tables → Prop}
    (holds : connection.At committed tx)
    (done : ∀ next : Connection Tables, next.At committed none → normal () next) :
    Ensures rollback connection normal exceptional := done _ ⟨holds.committed, rfl⟩

theorem ensures_startTransaction {normal : Bool → Connection Tables → Prop}
    (eq : connection.committed = committed)
    (st : ∀ next : Connection Tables, next.At committed (some committed) → normal true next)
    (failed : ∀ next : Connection Tables, next.At committed none → normal false next) :
    Ensures startTransaction connection normal exceptional := by
  unfold Ensures run startTransaction
  cases connection.failures connection.executed with
  | none => exact st _ ⟨eq, congrArg some eq⟩
  | some failure => exact failed _ ⟨eq, rfl⟩

theorem ensures_select {normal : Selection Row → Connection Tables → Prop}
    (holds : connection.At committed transaction)
    (failed : ∀ failure, ∀ next : Connection Tables, next.At committed transaction →
      normal (.failed failure) next)
    (noResults : query (transaction.getD committed) = [] → ∀ next : Connection Tables,
      next.At committed transaction → normal .noResults next)
    (oneResult : ∀ row, query (transaction.getD committed) = [row] → ∀ next : Connection Tables,
      next.At committed transaction → normal (.oneResult row) next) :
    Ensures (select query) connection normal exceptional := by
  have seen : connection.current = transaction.getD committed := by
    rw [Connection.current, holds.committed, holds.transaction]
  have eq : connection.tick.At committed transaction := ⟨holds.committed, holds.transaction⟩
  unfold Ensures run select
  rw [seen]
  cases connection.failures connection.executed with
  | some failure => exact failed failure _ eq
  | none =>
    match h : query (transaction.getD committed) with
    | [] => exact noResults h _ eq
    | [row] => exact oneResult row h _ eq
    | _ :: _ :: _ => exact failed .hard _ eq

theorem ensures_change {working : Tables} {normal : Change → Connection Tables → Prop}
    (holds : connection.At committed (some working))
    (failed : ∀ failure, ∀ next : Connection Tables, next.At committed (some working) →
      normal (.failed failure) next)
    (changed : ∀ count tb, update working = .ok (count, tb) → ∀ next : Connection Tables,
      next.At committed (some tb) → normal (.rows count) next) :
    Ensures (change update) connection normal exceptional := by
  have seen : connection.current = working := by
    rw [Connection.current, holds.transaction, Option.getD_some]
  have eq : connection.tick.At committed (some working) := ⟨holds.committed, holds.transaction⟩
  unfold Ensures run change
  rw [seen]
  cases connection.failures connection.executed with
  | some failure => exact failed failure _ eq
  | none =>
    cases updated : update working with
    | error failure => exact failed failure _ eq
    | ok result =>
      obtain ⟨count, tb⟩ := result
      refine changed count tb updated _ ?_
      unfold Connection.write
      rw [show connection.tick.transaction = some working from holds.transaction]
      exact ⟨holds.committed, rfl⟩

theorem ensures_change_direct {normal : Change → Connection Tables → Prop}
    (holds : connection.At committed none)
    (failed : ∀ failure, ∀ next : Connection Tables, next.At committed none →
      normal (.failed failure) next)
    (changed : ∀ count tb, update committed = .ok (count, tb) → ∀ next : Connection Tables,
      next.At tb none → normal (.rows count) next) :
    Ensures (change update) connection normal exceptional := by
  have seen : connection.current = committed := by
    rw [Connection.current, holds.transaction, Option.getD_none, holds.committed]
  have eq : connection.tick.At committed none := ⟨holds.committed, holds.transaction⟩
  unfold Ensures run change
  rw [seen]
  cases connection.failures connection.executed with
  | some failure => exact failed failure _ eq
  | none =>
    cases updated : update committed with
    | error failure => exact failed failure _ eq
    | ok result =>
      obtain ⟨count, tb⟩ := result
      refine changed count tb updated _ ?_
      unfold Connection.write
      rw [show connection.tick.transaction = none from holds.transaction]
      exact ⟨rfl, rfl⟩

theorem ensures_commitTransaction {normal : Option Failure → Connection Tables → Prop}
    (holds : connection.At committed tx)
    (failed : ∀ failure, ∀ next : Connection Tables, next.At committed none →
      normal (some failure) next)
    (done : ∀ next : Connection Tables, next.At (tx.getD committed) none → normal none next) :
    Ensures commitTransaction connection normal exceptional := by
  unfold Ensures run commitTransaction
  cases connection.failures connection.executed with
  | some failure => exact failed failure _ ⟨holds.committed, rfl⟩
  | none =>
    refine done _ ⟨?_, rfl⟩
    rw [← holds.committed, ← holds.transaction]
    rfl

theorem ensures_inTransaction {refused : Result} {normal : Unit → Connection Tables → Prop}
    (eq : connection.committed = committed)
    (st : ∀ next : Connection Tables, next.At committed (some committed) → normal () next)
    (failed : ∀ next : Connection Tables, next.At committed none →
      exceptional (.leave refused) next) :
    Ensures (inTransaction refused) connection normal exceptional := by
  unfold inTransaction
  refine ensures_bind.mpr (ensures_startTransaction eq ?_ ?_)
  · intro next holds
    exact st next holds
  · intro next holds
    exact failed next holds

theorem ensures_abandon {result : Result} {normal : Value → Connection Tables → Prop}
    (holds : connection.At committed tx)
    (done : ∀ next : Connection Tables, next.At committed none → exceptional (.leave result) next) :
    Ensures (abandon result) connection normal exceptional := by
  unfold abandon
  refine ensures_bind.mpr (ensures_rollback holds ?_)
  intro next discarded
  exact done next discarded

theorem transact_leaves {exhausted : Result} {attempt : Statements Tables Result Result}
    {post : Result → Connection Tables → Prop} (retries : Nat)
    (ensures : Ensures attempt conn post (Exit.Leaves post)) :
    post (transact exhausted attempt (retries + 1) conn).1
      (transact exhausted attempt (retries + 1) conn).2 := by
  unfold Ensures at ensures
  unfold transact
  match equal : attempt.run conn with
  | (.ok result, fin) =>
    rw [equal] at ensures
    exact ensures
  | (.error (.leave result), fin) =>
    rw [equal] at ensures
    exact ensures
  | (.error .retry, fin) =>
    rw [equal] at ensures
    exact ensures.elim

/-- What the last attempt leaves behind is what the repeated attempts leave behind: each of
them starts from the same committed tables. -/
theorem transact_ensures {exhausted : Result} {attempt : Statements Tables Result Result}
    {post : Result → Connection Tables → Prop}
    (each : ∀ start : Connection Tables, start.At committed none →
      Ensures attempt start post (Exit.Meets post committed))
    (last : ∀ fin : Connection Tables, fin.At committed none → post exhausted fin)
    (retries : Nat) (start : Connection Tables) (holds : start.At committed none) :
    post (transact exhausted attempt retries start).1
      (transact exhausted attempt retries start).2 := by
  induction retries generalizing start with
  | zero => exact last start holds
  | succ retries ih =>
    have attempted := each start holds
    unfold Ensures at attempted
    unfold transact
    match equal : attempt.run start with
    | (.ok result, fin) =>
      rw [equal] at attempted
      exact attempted
    | (.error (.leave result), fin) =>
      rw [equal] at attempted
      exact attempted
    | (.error .retry, fin) =>
      rw [equal] at attempted
      exact ih fin.tick.discard ⟨attempted, rfl⟩

end Rules

end Statements

end Library
