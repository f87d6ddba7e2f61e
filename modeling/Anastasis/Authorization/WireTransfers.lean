import Mathlib.Data.List.Infix
import Anastasis.Library.Transition
import Anastasis.Stasis.Tables

/-! The process that imports the wire transfers to the provider's bank account. -/

set_option autoImplicit false

namespace Anastasis.Authorization

open Library.Transition Stasis

def paytoIban : String := "payto://iban/"

/-- Extract IBAN from a payto URI: without the query, and without the BIC if there is one. -/
def paytoGetIban (paytoUri : String) : Option String :=
  if (paytoUri.toList.take paytoIban.length).map Char.toLower = paytoIban.toList then
    let path := (paytoUri.toList.drop paytoIban.length).takeWhile fun char => char ≠ '?'
    some (String.ofList
      (if '/' ∈ path then (path.dropWhile fun char => char ≠ '/').tail else path))
  else none

def extractCode (wireSubject : String) : Option Nat :=
  if "anastasis".toList <:+: wireSubject.toList.map Char.toLower then
    match (wireSubject.toList.dropWhile fun char => ¬ char.isDigit).takeWhile Char.isDigit with
    | [] => none
    | digits =>
      some (min (digits.foldl (fun code digit => 10 * code + (digit.toNat - '0'.toNat)) 0)
        (UInt64.size - 1))
  else none

structure CreditDetails where
  amount : Amount
  executionDate : Time
  wireSubject : String
  debitAccountUri : String
  creditAccountUri : String
deriving DecidableEq

abbrev Transfer := Nat × CreditDetails

structure AuthIbanIn where
  wireReference : Nat
  wireSubject : String
  credit : Amount
  debitAccountDetails : String
  creditAccountDetails : String
  executionDate : Time
deriving DecidableEq

/-- What `notify` tells the server about. -/
structure IbanEvent where
  debitIban : String
  code : Nat
  amount : Amount
deriving DecidableEq

inductive InsertOutcome where
  | executed
  | softError
  | hardError
deriving DecidableEq

inductive QueryStatus where
  | hardError
  | softError
  | noResults
  | oneResult
deriving DecidableEq

def recordAuthIbanPayment (outcome : InsertOutcome) (row : AuthIbanIn) (rows : List AuthIbanIn) :
    QueryStatus × List AuthIbanIn :=
  match outcome with
  | .hardError => (.hardError, rows)
  | .softError => (.softError, rows)
  | .executed =>
    if row.wireReference ∈ rows.map AuthIbanIn.wireReference then (.noResults, rows)
    else (.oneResult, rows ++ [row])

def getLastAuthIbanPaymentRow (creditAccount : String) (rows : List AuthIbanIn) : Option Nat :=
  ((rows.filter fun row => row.creditAccountDetails = creditAccount).map
    AuthIbanIn.wireReference).max?

structure IbanHelper where
  testMode : Bool
  -- the request for history that is in flight, with the row that it starts after
  hh : Option Nat
  latestRowOff : Nat
  task : Bool
  -- the scheduler has been asked to shut down
  shuttingDown : Bool
deriving DecidableEq

/-- The process with the table and the events that its callbacks write. -/
structure Import where
  helper : IbanHelper
  rows : List AuthIbanIn
  notified : List IbanEvent
deriving DecidableEq

namespace Import

def abandon (state : Import) : Import := { state with helper := { state.helper with hh := none } }

def schedulerShutdown (state : Import) : Import :=
  { state with helper := { state.helper with shuttingDown := true } }

def historyEnd (state : Import) : Option Import :=
  if state.helper.task then none
  else if state.helper.testMode then some state.abandon.schedulerShutdown
  else some { state with helper := { state.helper with hh := none, task := true } }

end Import

def notification (debitIban : String) (details : CreditDetails) : Option IbanEvent :=
  (extractCode details.wireSubject).map fun code => ⟨debitIban, code, details.amount⟩

def transferRow (transfer : Transfer) : Option AuthIbanIn := do
  let dcanon ← paytoGetIban transfer.2.debitAccountUri
  let ccanon ← paytoGetIban transfer.2.creditAccountUri
  pure
    { wireReference := transfer.1
      wireSubject := transfer.2.wireSubject
      credit := transfer.2.amount
      debitAccountDetails := dcanon
      creditAccountDetails := ccanon
      executionDate := transfer.2.executionDate }

/-- The callback for a transfer, and whether the iteration goes on. Without an IBAN the query is
given a null pointer for a text, which ends the process. -/
def historyCb (outcome : InsertOutcome) (transfer : Transfer) (state : Import) :
    Option (Import × Bool) :=
  if transfer.1 ≤ state.helper.latestRowOff then some (state.schedulerShutdown.abandon, false)
  else
    match transferRow transfer with
    | none => none
    | some row =>
      match recordAuthIbanPayment outcome row state.rows with
      | (.hardError, _) => some (state.schedulerShutdown.abandon, false)
      | (.softError, _) => some (state.abandon, false)
      -- already existed (!?), should be impossible
      | (.noResults, _) => some (state.abandon, false)
      | (.oneResult, rows) =>
        some
          ({ helper := { state.helper with latestRowOff := transfer.1 }
             rows := rows
             notified := state.notified ++
               (notification row.debitAccountDetails transfer.2).toList }, true)

inductive HistoryItem where
  | transaction (transfer : Transfer)
  | malformed

inductive ParseResult where
  | complete
  | malformed
  -- the callback has been cleared
  | aborted
deriving DecidableEq

def parseAccountHistory (outcomes : Nat → InsertOutcome) :
    List HistoryItem → Import → Option (Import × ParseResult)
  | [], state => some (state, .complete)
  | .malformed :: _, state => some (state, .malformed)
  | .transaction transfer :: rest, state =>
    match historyCb (outcomes transfer.1) transfer state with
    | none => none
    | some (state, true) => parseAccountHistory outcomes rest state
    | some (state, false) => some (state, .aborted)

inductive HistoryResponse where
  | transactions (items : List HistoryItem)
  -- the body has no list of transactions
  | invalid
  | noContent
  | error (httpStatus : Nat)

/-- The list ends for the callback in every case in which it has not aborted the iteration. -/
def handleCreditHistoryFinished (outcomes : Nat → InsertOutcome) (response : HistoryResponse)
    (state : Import) : Option Import :=
  match response with
  | .transactions items => do
      let (state, result) ← parseAccountHistory outcomes items state
      if result = .aborted then some state else state.historyEnd
  | .invalid | .noContent | .error _ => state.historyEnd

def findTransfers (started : Bool) (state : Import) : Option Import :=
  let state := { state with helper := { state.helper with task := false } }
  if state.helper.hh.isSome then none
  else if started then
    some { state with helper := { state.helper with hh := some state.helper.latestRowOff } }
  else some state.schedulerShutdown

inductive HelperProcess where
  | running (helper : IbanHelper)
  | stopped
  | crashed
deriving DecidableEq

/-- The bank's account with its transfers, and the provider's side of it. -/
structure IbanSystem where
  ledger : List Transfer
  rows : List AuthIbanIn
  notified : List IbanEvent
  process : HelperProcess
deriving DecidableEq

inductive IbanEventKind where
  | arrive (transfer : Transfer)
  -- and whether the database yields the last row
  | run (testMode selected : Bool)
  | findTransfers (started : Bool)
  | answer (response : HistoryResponse) (outcomes : Nat → InsertOutcome)
  | shutdownTask
  | kill

namespace IbanSystem

def start : IbanSystem where
  ledger := []
  rows := []
  notified := []
  process := .stopped

variable (creditIban : String) (system : IbanSystem)

def toImport (helper : IbanHelper) : Import := ⟨helper, system.rows, system.notified⟩

def finish : Option Import → IbanSystem
  | none => { system with process := .crashed }
  | some state =>
    { system with
      rows := state.rows
      notified := state.notified
      process := .running state.helper }

def perform : IbanEventKind → Option IbanSystem
  | .arrive transfer => some { system with ledger := system.ledger ++ [transfer] }
  | .run testMode selected =>
    match system.process with
    | .running _ => none
    | _ =>
      if selected then
        some
          { system with
            process := .running
              { testMode := testMode
                hh := none
                latestRowOff := (getLastAuthIbanPaymentRow creditIban system.rows).getD 0
                task := true
                shuttingDown := false } }
      else some { system with process := .stopped }
  | .findTransfers started =>
    match system.process with
    | .running helper =>
      if helper.task then
        some (system.finish (findTransfers started (system.toImport helper)))
      else none
    | _ => none
  | .answer response outcomes =>
    match system.process with
    | .running helper =>
      if helper.hh.isSome then
        some (system.finish
          (handleCreditHistoryFinished outcomes response (system.toImport helper)))
      else none
    | _ => none
  | .shutdownTask =>
    match system.process with
    | .running _ => some { system with process := .stopped }
    | _ => none
  | .kill => some { system with process := .stopped }

end IbanSystem

/-- The transfers of an answer before the first item that cannot be parsed. -/
def readable : List HistoryItem → List Transfer
  | .transaction transfer :: rest => transfer :: readable rest
  | _ => []

def HistoryResponse.transfers : HistoryResponse → List Transfer
  | .transactions items => readable items
  | _ => []

/-- Serial numbers are positive and grow. An answer has the next transfers after a row, which is
not later than the row that has been asked for. -/
def IbanStep (creditIban : String) (system : IbanSystem) (event : IbanEventKind)
    (next : IbanSystem) : Prop :=
  system.perform creditIban event = some next ∧
    match event with
    | .arrive transfer => 0 < transfer.1 ∧ ∀ earlier ∈ system.ledger, earlier.1 < transfer.1
    | .answer response _ => ∀ helper start, system.process = .running helper →
        helper.hh = some start →
          ∃ after ≤ start,
            response.transfers <+: system.ledger.filter fun transfer => after < transfer.1
    | _ => True

end Anastasis.Authorization
