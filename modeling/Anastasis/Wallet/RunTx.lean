import Anastasis.Library.Transition

/-! The helper that runs a function in a database transaction. -/

set_option autoImplicit false

namespace Anastasis.Wallet

open Library Transition

/-- An error with its text, or the symbol that asks for the transaction to be aborted. -/
inductive Thrown where
  | error (text : String)
  | transactionAbort
deriving DecidableEq

inductive FunctionState (Result : Type) where
  | running
  | returned (result : Result)
  | threw (e : Thrown)
deriving DecidableEq

inductive Lifetime where
  | active
  | committed
  | aborted
deriving DecidableEq

structure DatabaseTransaction (Write : Type) where
  lifetime : Lifetime
  openRequests : Nat
  writes : List Write
  error : Option String
  -- the complete event or the abort event
  eventFired : Bool

inductive Settled (Result : Type) where
  | resolved (funResult : Option Result)
  | rejected (message : String)
deriving DecidableEq

/-- A call of `runTx`, and what the function had done when the transaction was committed. -/
structure RunTx (Write Result : Type) where
  tx : DatabaseTransaction Write
  function : FunctionState Result
  funResult : Option Result
  gotFunResult : Bool
  transactionException : Option String
  promise : Option (Settled Result)
  functionAtCommit : Option (FunctionState Result)

namespace DatabaseTransaction

variable {Write : Type}

def new : DatabaseTransaction Write where
  lifetime := .active
  openRequests := 0
  writes := []
  error := none
  eventFired := false

def abort (tx : DatabaseTransaction Write) : DatabaseTransaction Write :=
  if tx.lifetime = .active then { tx with lifetime := .aborted } else tx

def stored (tx : DatabaseTransaction Write) : List Write :=
  if tx.lifetime = .committed then tx.writes else []

end DatabaseTransaction

namespace RunTx

variable {Write Result : Type}

def start : RunTx Write Result where
  tx := .new
  function := .running
  funResult := none
  gotFunResult := false
  transactionException := none
  promise := none
  functionAtCommit := none

def fired (call : RunTx Write Result) : RunTx Write Result :=
  { call with tx := { call.tx with eventFired := true } }

def settle (call : RunTx Write Result) (outcome : Settled Result) : RunTx Write Result :=
  { call with promise := call.promise <|> some outcome }

def oncomplete (call : RunTx Write Result) : RunTx Write Result :=
  if call.gotFunResult then call.settle (.resolved call.funResult)
  else
    let msg := "BUG: transaction closed before transaction function returned"
    (call.settle (.rejected msg)).settle (.resolved call.funResult)

def abortMessage (call : RunTx Write Result) : String :=
  match call.tx.error, call.transactionException with
  | some error, _ => "Transaction aborted (transaction error): " ++ error
  | none, some exception => "Transaction aborted (exception thrown): " ++ exception
  | none, none => "Transaction aborted (no DB error)"

def onabort (call : RunTx Write Result) : RunTx Write Result :=
  call.settle (.rejected call.abortMessage)

def gotResult (call : RunTx Write Result) (result : Result) : RunTx Write Result :=
  { call with
    function := .returned result
    gotFunResult := true
    funResult := some result }

/-- Only other exceptions than `TransactionAbort` abort the transaction. -/
def caught (call : RunTx Write Result) (e : Thrown) : RunTx Write Result :=
  match e with
  | .transactionAbort => { call with function := .threw e }
  | .error text =>
    { call with
      function := .threw e
      transactionException := some text
      tx := call.tx.abort }

end RunTx

inductive TransactionEvent (Write Result : Type) where
  | request (write : Option Write)
  | requestSucceeds
  | requestFails (error : String)
  | returns (result : Result)
  | throws (e : Thrown)
  | commits
  -- the database gives the transaction up
  | aborts (error : Option String)
  | firesEvent

/-- A failed request aborts its transaction. A transaction is committed when it has no open
requests. Requests may also come from what a function left running. What the function's end leads
to happens at once, as no event of the database comes before it. -/
def transactionStep {Write Result : Type} (call : RunTx Write Result) :
    TransactionEvent Write Result → Option (RunTx Write Result)
  | .request write =>
    if call.tx.lifetime = .active then
      some { call with tx := { call.tx with
        openRequests := call.tx.openRequests + 1
        writes := call.tx.writes ++ write.toList } }
    else none
  | .requestSucceeds =>
    if call.tx.lifetime = .active ∧ 0 < call.tx.openRequests then
      some { call with tx := { call.tx with openRequests := call.tx.openRequests - 1 } }
    else none
  | .requestFails error =>
    if call.tx.lifetime = .active ∧ 0 < call.tx.openRequests then
      some { call with tx := { call.tx with lifetime := .aborted, error := some error } }
    else none
  | .returns result =>
    match call.function with
    | .running => some (call.gotResult result)
    | _ => none
  | .throws e =>
    match call.function with
    | .running => some (call.caught e)
    | _ => none
  | .commits =>
    if call.tx.lifetime = .active ∧ call.tx.openRequests = 0 then
      some { call with
        tx := { call.tx with lifetime := .committed }
        functionAtCommit := some call.function }
    else none
  | .aborts error =>
    if call.tx.lifetime = .active then
      some { call with tx := { call.tx with lifetime := .aborted, error := error } }
    else none
  | .firesEvent =>
    if call.tx.eventFired then none
    else
      match call.tx.lifetime with
      | .active => none
      | .committed => some call.fired.oncomplete
      | .aborted => some call.fired.onabort

section Atomic

variable {Write Result : Type} {call call' : RunTx Write Result}
  {event ev : TransactionEvent Write Result}

/-- The function throws `TransactionAbort` before it writes, and ends before the transaction is
committed, unless nothing was written or the outcome is known already. -/
def EndsInTime (call : RunTx Write Result) (event : TransactionEvent Write Result) : Prop :=
  match event with
  | .request write => write = none ∨ call.function ≠ .threw .transactionAbort
  | .returns _ => call.tx.lifetime = .committed → call.tx.eventFired
  | .throws e =>
    (call.tx.lifetime = .committed → call.tx.writes = []) ∧
      (e = .transactionAbort → call.tx.lifetime = .active → call.tx.writes = [])
  | _ => True

instance [DecidableEq Result] (call : RunTx Write Result) (event : TransactionEvent Write Result) :
    Decidable (EndsInTime call event) :=
  match event with
  | .request write => inferInstanceAs (Decidable (write = none ∨ _))
  | .returns _ => inferInstanceAs (Decidable (_ → _))
  | .throws _ => inferInstanceAs (Decidable (_ ∧ _))
  | .requestSucceeds | .requestFails _ | .commits | .aborts _ | .firesEvent =>
    inferInstanceAs (Decidable True)

structure Unsettled (call : RunTx Write Result) : Prop where
  promise : call.promise = none
  atCommit : call.tx.lifetime = .committed → ∀ result,
    call.functionAtCommit = some (.returned result) ↔ call.function = .returned result
  uncommitted : call.tx.lifetime ≠ .committed → call.functionAtCommit = none

structure HasSettled (call : RunTx Write Result) : Prop where
  finished : call.tx.lifetime ≠ .active
  promise : (∃ result, call.functionAtCommit = some (.returned result) ∧
      call.function = .returned result ∧ call.promise = some (.resolved (some result))) ∨
    ((∀ result, call.functionAtCommit ≠ some (.returned result)) ∧
      ∃ message, call.promise = some (.rejected message))

structure Atomic (call : RunTx Write Result) : Prop where
  result : ∀ result, call.function = .returned result →
    call.gotFunResult = true ∧ call.funResult = some result
  noResult : (∀ result, call.function ≠ .returned result) → call.gotFunResult = false
  threw : ∀ e, call.function = .threw e → call.tx.lifetime = .aborted ∨ call.tx.writes = []
  inactive : ∀ text, call.function = .threw (.error text) → call.tx.lifetime ≠ .active
  unsettled : call.tx.eventFired = false → Unsettled call
  settled : call.tx.eventFired = true → HasSettled call

theorem atomic_start : Atomic (.start : RunTx Write Result) := by
  constructor
  · intro res ret
    cases ret
  · intro _
    rfl
  · intro e threw
    cases threw
  · intro text threw
    cases threw
  · intro _
    exact ⟨rfl, nofun, fun _ => rfl⟩
  · intro fired
    cases fired

theorem Atomic.unfired (atomic : Atomic call) (active : call.tx.lifetime = .active) :
    call.tx.eventFired = false := by
  cases fired : call.tx.eventFired with
  | false => rfl
  | true => exact absurd active (atomic.settled fired).finished

theorem Atomic.databaseWorks {tx : DatabaseTransaction Write} (atomic : Atomic call)
    (active : call.tx.lifetime = .active) (fired : tx.eventFired = call.tx.eventFired)
    (uncommitted : tx.lifetime ≠ .committed)
    (threw : ∀ e, call.function = .threw e → tx.lifetime = .aborted ∨ tx.writes = []) :
    Atomic { call with tx := tx } := by
  have pre := atomic.unfired active
  constructor
  · exact atomic.result
  · exact atomic.noResult
  · exact threw
  · intro text isError
    exact absurd active (atomic.inactive text isError)
  · intro _
    obtain ⟨promise, -, gone⟩ := atomic.unsettled pre
    refine ⟨promise, fun committed => absurd committed uncommitted, fun _ => gone ?_⟩
    rw [active]
    nofun
  intro after
  rw [fired, pre] at after
  cases after

theorem Atomic.commits (atomic : Atomic call) (active : call.tx.lifetime = .active) :
    Atomic { call with
      tx := { call.tx with lifetime := .committed }
      functionAtCommit := some call.function } := by
  have pre := atomic.unfired active
  constructor
  · exact atomic.result
  · exact atomic.noResult
  · intro e threw
    cases atomic.threw e threw with
    | inl aborted =>
      rw [active] at aborted
      cases aborted
    | inr nothing => exact .inr nothing
  · intro text isError
    exact absurd active (atomic.inactive text isError)
  · intro _
    refine ⟨(atomic.unsettled pre).promise, ?_, fun uncommitted => absurd rfl uncommitted⟩
    intro _ res
    exact Option.some_inj
  intro after
  rw [pre] at after
  cases after

/-- The function returns before the transaction is committed, or after its event. -/
theorem Atomic.returns {res : Result} (atomic : Atomic call) (runs : call.function = .running)
    (inTime : call.tx.lifetime = .committed → call.tx.eventFired) :
    Atomic (call.gotResult res) := by
  constructor
  · intro y ret
    cases ret
    exact ⟨rfl, rfl⟩
  · intro never
    exact absurd rfl (never res)
  · intro e threw
    cases threw
  · intro text threw
    cases threw
  · intro unfired
    obtain ⟨promise, -, gone⟩ := atomic.unsettled unfired
    refine ⟨promise, ?_, gone⟩
    intro committed
    have fired := inTime committed
    rw [show call.tx.eventFired = false from unfired] at fired
    cases fired
  · intro fired
    obtain ⟨ended, out⟩ := atomic.settled fired
    refine ⟨ended, ?_⟩
    cases out with
    | inl resolved =>
      obtain ⟨y, -, ret, -⟩ := resolved
      rw [runs] at ret
      cases ret
    | inr rejected => exact .inr rejected

/-- The function has thrown, and the transaction is as it was or has been aborted. -/
theorem Atomic.threwAway {e : Thrown} {exception : Option String} {tx : DatabaseTransaction Write}
    (atomic : Atomic call) (runs : call.function = .running)
    (fired : tx.eventFired = call.tx.eventFired) (lifetime : tx.lifetime = call.tx.lifetime ∨
      call.tx.lifetime = .active ∧ tx.lifetime = .aborted)
    (nothing : tx.lifetime = .aborted ∨ tx.writes = [])
    (inactive : ∀ text, e = .error text → tx.lifetime ≠ .active) :
    Atomic { call with function := .threw e, transactionException := exception, tx := tx } := by
  constructor
  · intro res ret
    cases ret
  · intro _
    apply atomic.noResult
    intro res ret
    rw [runs] at ret
    cases ret
  · intro _ _
    exact nothing
  · intro text isError
    cases isError
    exact inactive text rfl
  · intro unfired
    obtain ⟨promise, atCommit, gone⟩ := atomic.unsettled (fired.symm.trans unfired)
    refine ⟨promise, ?_, ?_⟩
    · intro committed res
      constructor
      · intro ret
        cases lifetime with
        | inl eq =>
          have pre := (atCommit (eq.symm.trans committed) res).mp ret
          rw [runs] at pre
          cases pre
        | inr aborted =>
          rw [aborted.2] at committed
          cases committed
      · intro ret
        cases ret
    · intro uncommitted
      apply gone
      cases lifetime with
      | inl eq => exact fun committed => uncommitted (eq.trans committed)
      | inr aborted =>
        rw [aborted.1]
        nofun
  · intro after
    obtain ⟨ended, out⟩ := atomic.settled (fired.symm.trans after)
    constructor
    · cases lifetime with
      | inl eq => exact fun active => ended (eq.symm.trans active)
      | inr aborted => exact absurd aborted.1 ended
    cases out with
    | inl resolved =>
      obtain ⟨res, -, ret, -⟩ := resolved
      rw [runs] at ret
      cases ret
    | inr rejected => exact .inr rejected

theorem Atomic.throws {e : Thrown} (atomic : Atomic call) (runs : call.function = .running)
    (inTime : EndsInTime call (.throws e)) : Atomic (call.caught e) := by
  obtain ⟨whenCommitted, whenAborting⟩ := inTime
  have unwritten : call.tx.lifetime ≠ .active →
      call.tx.lifetime = .aborted ∨ call.tx.writes = [] := by
    intro inactive
    cases lifetime : call.tx.lifetime with
    | active => exact absurd lifetime inactive
    | committed => exact .inr (whenCommitted lifetime)
    | aborted => exact .inl rfl
  cases e with
  | transactionAbort =>
    apply atomic.threwAway runs rfl (.inl rfl)
    · by_cases active : call.tx.lifetime = .active
      · exact .inr (whenAborting rfl active)
      · exact unwritten active
    · intro text isError
      cases isError
  | error text =>
    unfold RunTx.caught DatabaseTransaction.abort
    by_cases active : call.tx.lifetime = .active
    · rw [if_pos active]
      exact atomic.threwAway runs rfl (.inr ⟨active, rfl⟩) (.inl rfl) nofun
    · rw [if_neg active]
      exact atomic.threwAway runs rfl (.inl rfl) (unwritten active) fun _ _ => active

theorem Atomic.fired {out : Option (Settled Result)} (atomic : Atomic call)
    (ended : call.tx.lifetime ≠ .active)
    (met : (∃ res, call.functionAtCommit = some (.returned res) ∧
        call.function = .returned res ∧ out = some (.resolved (some res))) ∨
      ((∀ res, call.functionAtCommit ≠ some (.returned res)) ∧
        ∃ message, out = some (.rejected message))) :
    Atomic { call.fired with promise := out } := by
  constructor
  · exact atomic.result
  · exact atomic.noResult
  · exact atomic.threw
  · exact atomic.inactive
  · intro unfired
    cases unfired
  · intro _
    exact ⟨ended, met⟩

theorem Atomic.completes (atomic : Atomic call) (unfired : call.tx.eventFired = false)
    (committed : call.tx.lifetime = .committed) : Atomic call.fired.oncomplete := by
  obtain ⟨promise, atCommit, -⟩ := atomic.unsettled unfired
  have ended : call.tx.lifetime ≠ .active := by
    rw [committed]
    nofun
  have unsettled : call.fired.promise = none := promise
  by_cases ret : ∃ res, call.function = .returned res
  · obtain ⟨res, function⟩ := ret
    obtain ⟨h, v⟩ := atomic.result res function
    have resolved : call.fired.oncomplete =
        { call.fired with promise := some (.resolved call.funResult) } := by
      have gotIt : call.fired.gotFunResult = true := h
      rw [RunTx.oncomplete, if_pos gotIt, RunTx.settle, unsettled]
      rfl
    rw [resolved]
    apply atomic.fired ended
    rw [v]
    exact .inl ⟨res, (atCommit committed res).mpr function, function, rfl⟩
  · have h : ¬ call.fired.gotFunResult = true := by
      rw [Bool.not_eq_true]
      exact atomic.noResult fun res function => ret ⟨res, function⟩
    have rejected : ∃ message, call.fired.oncomplete =
        { call.fired with promise := some (.rejected message) } := by
      rw [RunTx.oncomplete, if_neg h, RunTx.settle, RunTx.settle, unsettled]
      exact ⟨_, rfl⟩
    obtain ⟨message, isRejected⟩ := rejected
    rw [isRejected]
    refine atomic.fired ended (.inr ⟨?_, message, rfl⟩)
    intro res atEnd
    exact ret ⟨res, (atCommit committed res).mp atEnd⟩

theorem Atomic.aborts (atomic : Atomic call) (unfired : call.tx.eventFired = false)
    (aborted : call.tx.lifetime = .aborted) : Atomic call.fired.onabort := by
  obtain ⟨promise, -, uncommitted⟩ := atomic.unsettled unfired
  have ended : call.tx.lifetime ≠ .active := by
    rw [aborted]
    nofun
  have gone : call.functionAtCommit = none := by
    apply uncommitted
    rw [aborted]
    nofun
  have unsettled : call.fired.promise = none := promise
  unfold RunTx.onabort RunTx.settle
  rw [unsettled]
  refine atomic.fired ended (.inr ⟨?_, _, rfl⟩)
  intro res atCommit
  cases gone.symm.trans atCommit

theorem Atomic.fires (atomic : Atomic call)
    (r : transactionStep call .firesEvent = some call') : Atomic call' := by
  simp only [transactionStep] at r
  cases unfired : call.tx.eventFired with
  | true =>
    rw [unfired] at r
    cases r
  | false =>
    rw [unfired] at r
    cases lifetime : call.tx.lifetime with
    | active =>
      rw [lifetime] at r
      cases r
    | committed =>
      rw [lifetime] at r
      cases r
      exact atomic.completes unfired lifetime
    | aborted =>
      rw [lifetime] at r
      cases r
      exact atomic.aborts unfired lifetime

theorem transactionStep_atomic (atomic : Atomic call) (inTime : EndsInTime call event)
    (r : transactionStep call event = some call') : Atomic call' := by
  cases event with
  | request write =>
    simp only [transactionStep] at r
    split at r
    · next active =>
      cases r
      apply atomic.databaseWorks active
      · rfl
      · dsimp only
        rw [active]
        nofun
      intro e threw
      cases inTime with
      | inl reads =>
        rw [reads]
        simpa using atomic.threw e threw
      | inr ne =>
        cases e with
        | transactionAbort => exact absurd threw ne
        | error text => exact absurd active (atomic.inactive text threw)
    · cases r
  | requestSucceeds =>
    simp only [transactionStep] at r
    split at r
    · next works =>
      cases r
      apply atomic.databaseWorks works.1
      · rfl
      · dsimp only
        rw [works.1]
        nofun
      · exact atomic.threw
    · cases r
  | requestFails error =>
    simp only [transactionStep] at r
    split at r
    · next works =>
      cases r
      apply atomic.databaseWorks works.1
      · rfl
      · nofun
      · exact fun _ _ => .inl rfl
    · cases r
  | returns res =>
    simp only [transactionStep] at r
    split at r
    · next runs =>
      cases r
      exact atomic.returns runs inTime
    · cases r
  | throws e =>
    simp only [transactionStep] at r
    split at r
    · next runs =>
      cases r
      exact atomic.throws runs inTime
    · cases r
  | commits =>
    simp only [transactionStep] at r
    split at r
    · next works =>
      cases r
      exact atomic.commits works.1
    · cases r
  | aborts error =>
    simp only [transactionStep] at r
    split at r
    · next active =>
      cases r
      apply atomic.databaseWorks active
      · rfl
      · nofun
      · exact fun _ _ => .inl rfl
    · cases r
  | firesEvent => exact atomic.fires r

theorem Atomic.stored (atomic : Atomic call) {e : Thrown} (threw : call.function = .threw e) :
    call.tx.stored = [] := by
  unfold DatabaseTransaction.stored
  split
  · next committed =>
    cases atomic.threw e threw with
    | inl aborted => cases committed.symm.trans aborted
    | inr nothing => exact nothing
  · rfl

theorem runTx_atomic {events : List (TransactionEvent Write Result)}
    (run : Run (Guarded EndsInTime fun call event call' => transactionStep call event = some call')
      .start events call) : (call.promise.isSome ↔ call.tx.eventFired = true) ∧
    (∀ funResult, call.promise = some (.resolved funResult) ↔ call.tx.eventFired = true ∧
      ∃ result, funResult = some result ∧ call.functionAtCommit = some (.returned result)) ∧
    ∀ e, call.function = .threw e → call.tx.stored = [] ∧
      (call.tx.eventFired = true → ∃ message, call.promise = some (.rejected message)) := by
  have atomic : Atomic call := run.invariant Atomic atomic_start
    fun _ _ _ atomic step => transactionStep_atomic atomic step.1 step.2
  cases fired : call.tx.eventFired with
  | false =>
    have promise := (atomic.unsettled fired).promise
    rw [promise]
    refine ⟨by simp, by simp, ?_⟩
    intro e threw
    exact ⟨atomic.stored threw, nofun⟩
  | true =>
    cases (atomic.settled fired).promise with
    | inl resolved =>
      obtain ⟨result, atCommit, returned, promise⟩ := resolved
      rw [promise, atCommit]
      refine ⟨by simp, ?_, ?_⟩
      · intro funResult
        simp [eq_comm]
      · intro e threw
        cases returned.symm.trans threw
    | inr rejected =>
      obtain ⟨never, message, promise⟩ := rejected
      rw [promise]
      refine ⟨by simp, ?_, ?_⟩
      · intro funResult
        constructor
        · intro resolved
          cases resolved
        · rintro ⟨-, result, -, atCommit⟩
          exact absurd atCommit (never result)
      · intro e threw
        exact ⟨atomic.stored threw, fun _ => ⟨message, rfl⟩⟩

end Atomic

section Examples

def exampleEnd (ending : TransactionEvent Nat Nat) : List (TransactionEvent Nat Nat) :=
  [.request (some 1), .requestSucceeds, ending, .commits, .firesEvent]

theorem runTx_atomic_returned : ∃ call : RunTx Nat Nat,
    call.promise.isSome ∧ call.tx.stored = [1] ∧ (call.promise = some (.resolved (some 7)) ↔
      call.tx.eventFired = true ∧ ∃ result, some 7 = some result ∧
        call.functionAtCommit = some (.returned result)) := by
  have runs : ((exampleEnd (.returns 7)).foldlM (fun call event =>
      if EndsInTime call event then transactionStep call event else none) .start).map
        (fun call => (call.promise.isSome, call.tx.stored)) = some (true, [1]) := by
    decide
  obtain ⟨call, performed, outcome⟩ := Option.map_eq_some_iff.mp runs
  obtain ⟨settled, stored⟩ := Prod.mk.inj outcome
  refine ⟨call, settled, stored, (runTx_atomic (Run.ofFoldlM ?_ performed)).2.1 _⟩
  intro state event next success
  split at success
  · next inTime => exact ⟨inTime, success⟩
  · cases success

/-- `TransactionAbort` does not abort the transaction. -/
theorem aborted_write_stored : ¬ ∀ (events : List (TransactionEvent Nat Nat)) call,
    Run (fun call event call' => transactionStep call event = some call') .start events call →
      ∀ e, call.function = .threw e → call.tx.stored = [] := by
  intro claim
  have runs : ((exampleEnd (.throws .transactionAbort)).foldlM transactionStep .start).map
      (fun call => (call.function, call.tx.stored)) = some (.threw .transactionAbort, [1]) := by
    decide
  obtain ⟨call, performed, outcome⟩ := Option.map_eq_some_iff.mp runs
  obtain ⟨threw, stored⟩ := Prod.mk.inj outcome
  have empty := claim _ call (Run.ofFoldlM (fun _ _ _ step => step) performed) _ threw
  cases stored.symm.trans empty

end Examples

end Anastasis.Wallet
