import Anastasis.Authorization.WireTransfers

/-! When every transfer is imported once, in order and without an end. -/

set_option autoImplicit false

namespace Anastasis.Authorization

open Library.Transition Stasis List Option

def lastSerial (transfers : List Transfer) : Nat := (transfers.getLast?.map Prod.fst).getD 0

def transferEvent (transfer : Transfer) : Option IbanEvent := do
  let row ← transferRow transfer
  notification row.debitAccountDetails transfer.2

structure Recorded (transfers : List Transfer) (rows : List AuthIbanIn)
    (notified : List IbanEvent) : Prop where
  rows : rows.map some = transfers.map transferRow
  notified : notified = transfers.filterMap transferEvent

/-- A request is in flight or a task is scheduled, but not both, unless the process shuts down. -/
structure IbanHelper.Goes (helper : IbanHelper) : Prop where
  alive : helper.shuttingDown = true ∨ helper.hh.isSome = true ∨ helper.task = true
  single : helper.hh.isSome = true → helper.task = false

/-- The first transfers of the bank are recorded, each once; the process goes on after the last
of them, and does not crash. -/
structure IbanSystem.Imported (system : IbanSystem) : Prop where
  process : system.process ≠ .crashed
  goes : ∀ helper, system.process = .running helper → helper.Goes
  recorded : ∃ imported later, system.ledger = imported ++ later ∧
    Recorded imported system.rows system.notified ∧
    ∀ helper, system.process = .running helper → helper.latestRowOff = lastSerial imported ∧
      ∀ start, helper.hh = some start → start = lastSerial imported

def attempted (outcomes : Nat → InsertOutcome) : Nat → List Transfer → List Transfer
  | _, [] => []
  | latestRowOff, transfer :: rest =>
    if transfer.1 ≤ latestRowOff then []
    else
      transfer :: if outcomes transfer.1 = .executed then attempted outcomes transfer.1 rest else []

/-- Transfers that are given to the database have IBANs and meet no soft error, and when the
process starts, the last row is one of its own account. -/
def IbanCondition (creditIban : String) (system : IbanSystem) : IbanEventKind → Prop
  | .run _ _ => ∀ row ∈ system.rows, ∃ own ∈ system.rows,
      own.creditAccountDetails = creditIban ∧ row.wireReference ≤ own.wireReference
  | .answer response outcomes => ∀ helper, system.process = .running helper →
      ∀ transfer ∈ attempted outcomes helper.latestRowOff response.transfers,
        (transferRow transfer).isSome ∧ outcomes transfer.1 ≠ .softError
  | _ => True

section Ledger

variable {imported later ledger : List Transfer} {transfer : Transfer}

def Ascending (ledger : List Transfer) : Prop :=
  ledger.Pairwise fun earlier later => earlier.1 < later.1

@[simp] theorem lastSerial_append (transfers : List Transfer) (transfer : Transfer) :
    lastSerial (transfers ++ [transfer]) = transfer.1 := by
  simp [lastSerial]

theorem le_lastSerial (ascending : Ascending imported) {transfer : Transfer}
    (mem : transfer ∈ imported) : transfer.1 ≤ lastSerial imported := by
  induction imported using List.reverseRecOn with
  | nil => cases mem
  | append_singleton front last _ =>
    rw [lastSerial_append]
    rcases mem_append.mp mem with inFront | isLast
    · exact Nat.le_of_lt ((pairwise_append.mp ascending).2.2 transfer inFront last
        (mem_singleton_self last))
    · cases mem_singleton.mp isLast
      exact Nat.le_refl _

theorem lastSerial_lt (ascending : Ascending (imported ++ later))
    (pos : ∀ transfer ∈ imported ++ later, 0 < transfer.1) (mem : transfer ∈ later) :
    lastSerial imported < transfer.1 := by
  induction imported using List.reverseRecOn with
  | nil => exact pos transfer mem
  | append_singleton front last _ =>
    rw [lastSerial_append]
    exact (pairwise_append.mp ascending).2.2 last
      (mem_append_right front (mem_singleton_self last)) transfer mem

theorem answer_next (ascending : Ascending (imported ++ later))
    (pos : ∀ transfer ∈ imported ++ later, 0 < transfer.1) {after : Nat}
    (notLater : after ≤ lastSerial imported) {transfer : Transfer} {rest : List Transfer}
    (isAnswer : transfer :: rest <+: (imported ++ later).filter fun transfer => after < transfer.1)
    (isNew : lastSerial imported < transfer.1) : transfer :: rest <+: later := by
  rw [filter_append] at isAnswer
  have laterKept : (later.filter fun transfer => after < transfer.1) = later := by
    apply filter_eq_self.mpr
    intro y mem
    exact decide_eq_true (Nat.lt_of_le_of_lt notLater (lastSerial_lt ascending pos mem))
  rw [laterKept] at isAnswer
  cases repeated : imported.filter fun transfer => after < transfer.1 with
  | nil =>
    rw [repeated] at isAnswer
    exact isAnswer
  | cons x ys =>
    rw [repeated] at isAnswer
    have eq := (cons_prefix_cons.mp isAnswer).1
    have mem : x ∈ imported.filter fun transfer => after < transfer.1 := by
      rw [repeated]
      exact mem_cons_self
    have old := le_lastSerial (pairwise_append.mp ascending).1 (mem_filter.mp mem).1
    rw [eq] at isNew
    exact absurd isNew (Nat.not_lt.mpr old)

end Ledger

section Recorded

variable {imported : List Transfer} {rows : List AuthIbanIn} {notified : List IbanEvent}
  {transfer : Transfer} {row : AuthIbanIn}

theorem transferRow_wireReference (isRow : transferRow transfer = some row) :
    row.wireReference = transfer.1 := by
  obtain ⟨dcanon, _, isRow⟩ := bind_eq_some_iff.mp isRow
  obtain ⟨ccanon, _, isRow⟩ := bind_eq_some_iff.mp isRow
  cases isRow
  rfl

theorem Recorded.nil : Recorded [] [] [] := ⟨rfl, rfl⟩

theorem Recorded.append (noted : Recorded imported rows notified)
    (isRow : transferRow transfer = some row) : Recorded (imported ++ [transfer]) (rows ++ [row])
      (notified ++ (notification row.debitAccountDetails transfer.2).toList) := by
  constructor
  · rw [map_append, map_append, noted.rows, map_singleton, map_singleton, isRow]
  have ev : transferEvent transfer = notification row.debitAccountDetails transfer.2 := by
    rw [transferEvent, isRow]
    rfl
  rw [filterMap_append, ← noted.notified, filterMap_cons, ev]
  cases notification row.debitAccountDetails transfer.2 <;> rfl

theorem Recorded.mem_references (noted : Recorded imported rows notified) {reference : Nat} :
    reference ∈ rows.map AuthIbanIn.wireReference ↔ ∃ transfer ∈ imported, transfer.1 = reference := by
  constructor
  · intro mem
    obtain ⟨row, isRow, rfl⟩ := List.mem_map.mp mem
    have isSome : some row ∈ imported.map transferRow := by
      rw [← noted.rows]
      exact List.mem_map_of_mem isRow
    obtain ⟨transfer, isTransfer, isR⟩ := List.mem_map.mp isSome
    exact ⟨transfer, isTransfer, (transferRow_wireReference isR).symm⟩
  · rintro ⟨transfer, isTransfer, rfl⟩
    have isR : transferRow transfer ∈ rows.map some := by
      rw [noted.rows]
      exact List.mem_map_of_mem isTransfer
    obtain ⟨row, isRow, isR⟩ := List.mem_map.mp isR
    exact List.mem_map.mpr ⟨row, isRow, transferRow_wireReference isR.symm⟩

/-- The last row of the account is the last row, if the last row is one of the account. -/
theorem Recorded.last (noted : Recorded imported rows notified) (ascending : Ascending imported)
    {creditIban : String} (own : ∀ row ∈ rows, ∃ own ∈ rows, own.creditAccountDetails = creditIban ∧
      row.wireReference ≤ own.wireReference) :
    (getLastAuthIbanPaymentRow creditIban rows).getD 0 = lastSerial imported := by
  have bounded : ∀ row ∈ rows, row.wireReference ≤ lastSerial imported := by
    intro row mem
    obtain ⟨transfer, isTransfer, eq⟩ := noted.mem_references.mp (List.mem_map_of_mem mem)
    exact eq ▸ le_lastSerial ascending isTransfer
  induction imported using List.reverseRecOn with
  | nil =>
    have none : rows = [] := map_eq_nil_iff.mp noted.rows
    rw [none]
    rfl
  | append_singleton front fin _ =>
    rw [lastSerial_append] at bounded ⊢
    have isFinal : fin.1 ∈ rows.map AuthIbanIn.wireReference :=
      noted.mem_references.mpr ⟨fin, mem_append_right front (mem_singleton_self fin), rfl⟩
    obtain ⟨row, isRow, eq⟩ := List.mem_map.mp isFinal
    obtain ⟨y, isO, isOwn, notLess⟩ := own row isRow
    have greatest : y.wireReference = fin.1 := Nat.le_antisymm (bounded y isO) (eq ▸ notLess)
    have isMax : getLastAuthIbanPaymentRow creditIban rows = some fin.1 := by
      apply max?_eq_some_iff.mpr
      constructor
      · rw [← greatest]
        exact List.mem_map_of_mem (mem_filter.mpr ⟨isO, decide_eq_true isOwn⟩)
      intro reference mem
      obtain ⟨row, isRow, rfl⟩ := List.mem_map.mp mem
      exact bounded row (mem_filter.mp isRow).1
    rw [isMax]
    rfl

end Recorded

section Answer

variable {imported later : List Transfer} {state st after : Import} {transfer : Transfer}

structure Import.Reached (imported : List Transfer) (state : Import) : Prop where
  recorded : Recorded imported state.rows state.notified
  latest : state.helper.latestRowOff = lastSerial imported

/-- The callback is done with a transfer: it goes on after the recorded transfer, or the process
shuts down. -/
theorem historyCb_reached (ascending : Ascending (imported ++ transfer :: later))
    (reached : st.Reached imported) (isNew : lastSerial imported < transfer.1)
    {out : InsertOutcome} (has : (transferRow transfer).isSome) (notSoft : out ≠ .softError) :
    (out = .executed ∧ ∃ next, historyCb out transfer st = some (next, true) ∧
      next.Reached (imported ++ [transfer]) ∧
      next.helper = { st.helper with latestRowOff := transfer.1 }) ∨
    out = .hardError ∧ historyCb out transfer st = some (st.schedulerShutdown.abandon, false) := by
  obtain ⟨row, isRow⟩ := isSome_iff_exists.mp has
  have notOld : ¬ transfer.1 ≤ st.helper.latestRowOff := by
    rw [reached.latest]
    exact Nat.not_le.mpr isNew
  cases out with
  | softError => exact absurd rfl notSoft
  | hardError =>
    right
    refine ⟨rfl, ?_⟩
    simp only [historyCb, if_neg notOld, isRow, recordAuthIbanPayment]
  | executed =>
    left
    have fresh : row.wireReference ∉ st.rows.map AuthIbanIn.wireReference := by
      intro mem
      obtain ⟨y, isO, eq⟩ := reached.recorded.mem_references.mp mem
      have less := (pairwise_append.mp ascending).2.2 y isO transfer mem_cons_self
      rw [eq, transferRow_wireReference isRow] at less
      exact Nat.lt_irrefl _ less
    have inserted : recordAuthIbanPayment .executed row st.rows =
        (.oneResult, st.rows ++ [row]) := if_neg fresh
    have noted : historyCb .executed transfer st = some
          ({ helper := { st.helper with latestRowOff := transfer.1 }
             rows := st.rows ++ [row]
             notified := st.notified ++
               (notification row.debitAccountDetails transfer.2).toList }, true) := by
      simp only [historyCb, if_neg notOld, isRow, inserted]
    refine ⟨rfl, _, noted, ?_, rfl⟩
    exact ⟨reached.recorded.append isRow, (lastSerial_append imported transfer).symm⟩

theorem parseAccountHistory_reached {outcomes : Nat → InsertOutcome} {items : List HistoryItem}
    (ascending : Ascending (imported ++ later)) (reached : st.Reached imported)
    (next : ∀ transfer rest, readable items = transfer :: rest →
      lastSerial imported < transfer.1 → readable items <+: later)
    (fits : ∀ transfer ∈ attempted outcomes (lastSerial imported) (readable items),
      (transferRow transfer).isSome ∧ outcomes transfer.1 ≠ .softError) :
    ∃ after res noted missing, parseAccountHistory outcomes items st = some (after, res) ∧
      imported ++ later = noted ++ missing ∧ after.Reached noted ∧
      after.helper.task = st.helper.task ∧
      (res = .aborted → after.helper.hh = none ∧ after.helper.shuttingDown = true) := by
  induction items generalizing imported later st with
  | nil => exact ⟨st, .complete, imported, later, rfl, rfl, reached, rfl, nofun⟩
  | cons item rest ih =>
    cases item with
    | malformed => exact ⟨st, .malformed, imported, later, rfl, rfl, reached, rfl, nofun⟩
    | transaction transfer =>
      rw [readable] at next fits
      have stops : st.schedulerShutdown.abandon.Reached imported :=
        ⟨reached.recorded, reached.latest⟩
      by_cases old : transfer.1 ≤ lastSerial imported
      · have res : historyCb (outcomes transfer.1) transfer st =
            some (st.schedulerShutdown.abandon, false) := by
          rw [historyCb, if_pos (reached.latest.symm ▸ old)]
        refine ⟨_, .aborted, imported, later, ?_, rfl, stops, rfl, fun _ => ⟨rfl, rfl⟩⟩
        rw [parseAccountHistory, res]
      have isNew := Nat.not_le.mp old
      rw [attempted, if_neg old] at fits
      obtain ⟨has, notSoft⟩ := fits transfer mem_cons_self
      obtain ⟨missing, isLater⟩ := next transfer (readable rest) rfl isNew
      rw [cons_append] at isLater
      subst isLater
      rcases historyCb_reached ascending reached isNew has notSoft with done | failed
      · obtain ⟨executed, following, res, reached, sameHelper⟩ := done
        have shifted : imported ++ transfer :: (readable rest ++ missing) =
            (imported ++ [transfer]) ++ (readable rest ++ missing) := by simp
        rw [shifted] at ascending
        obtain ⟨after, ending, noted, left_, did, eq, isReached, sameTask, aborts⟩ :=
          ih ascending reached (fun _ _ _ _ => prefix_append _ _) (by
            intro y mem
            apply fits y
            rw [lastSerial_append] at mem
            rw [if_pos executed]
            exact mem_cons_of_mem _ mem)
        refine ⟨after, ending, noted, left_, ?_, shifted.trans eq, isReached, ?_, aborts⟩
        · rw [parseAccountHistory, res]
          exact did
        · rw [sameTask, sameHelper]
      · refine ⟨_, .aborted, imported, _, ?_, rfl, stops, rfl, fun _ => ⟨rfl, rfl⟩⟩
        rw [parseAccountHistory, failed.2]

theorem handleCreditHistoryFinished_reached {outcomes : Nat → InsertOutcome}
    {resp : HistoryResponse} (ascending : Ascending (imported ++ later))
    (reached : st.Reached imported) (noTask : st.helper.task = false)
    (next : ∀ transfer rest, resp.transfers = transfer :: rest →
      lastSerial imported < transfer.1 → resp.transfers <+: later)
    (fits : ∀ transfer ∈ attempted outcomes (lastSerial imported) resp.transfers,
      (transferRow transfer).isSome ∧ outcomes transfer.1 ≠ .softError) : ∃ after noted missing,
      handleCreditHistoryFinished outcomes resp st = some after ∧
      imported ++ later = noted ++ missing ∧ after.Reached noted ∧
      after.helper.hh = none ∧ (after.helper.shuttingDown = true ∨ after.helper.task = true) := by
  have ends : ∀ {imported : List Transfer} {st : Import}, st.Reached imported →
      st.helper.task = false → ∃ after, st.historyEnd = some after ∧ after.Reached imported ∧
        after.helper.hh = none ∧ (after.helper.shuttingDown = true ∨ after.helper.task = true) := by
    intro imported st reached noTask
    rw [Import.historyEnd, noTask]
    cases st.helper.testMode with
    | true => exact ⟨_, rfl, ⟨reached.recorded, reached.latest⟩, rfl, .inl rfl⟩
    | false => exact ⟨_, rfl, ⟨reached.recorded, reached.latest⟩, rfl, .inr rfl⟩
  cases resp with
  | transactions items =>
    obtain ⟨mid, res, noted, missing, r, eq, reached, sameTask, aborts⟩ :=
      parseAccountHistory_reached ascending reached next fits
    by_cases aborted : res = .aborted
    · obtain ⟨gone, shuts⟩ := aborts aborted
      refine ⟨mid, noted, missing, ?_, eq, reached, gone, .inl shuts⟩
      rw [handleCreditHistoryFinished, r]
      exact if_pos aborted
    obtain ⟨after, isEnd, reached, gone, goes⟩ := ends reached (sameTask.trans noTask)
    refine ⟨after, noted, missing, ?_, eq, reached, gone, goes⟩
    rw [handleCreditHistoryFinished, r]
    exact (if_neg aborted).trans isEnd
  | invalid =>
    obtain ⟨after, isEnd, reached, goes⟩ := ends reached noTask
    exact ⟨after, imported, later, isEnd, rfl, reached, goes⟩
  | noContent =>
    obtain ⟨after, isEnd, reached, goes⟩ := ends reached noTask
    exact ⟨after, imported, later, isEnd, rfl, reached, goes⟩
  | error httpStatus =>
    obtain ⟨after, isEnd, reached, goes⟩ := ends reached noTask
    exact ⟨after, imported, later, isEnd, rfl, reached, goes⟩

end Answer

section Runs

variable {creditIban : String} {system next : IbanSystem}

/-- The bank's transfers are in order, and the first of them are imported. -/
structure IbanSystem.Kept (system : IbanSystem) : Prop where
  ascending : Ascending system.ledger
  positive : ∀ transfer ∈ system.ledger, 0 < transfer.1
  imported : system.Imported

theorem IbanSystem.Imported.stop (kept : system.Imported) :
    { system with process := .stopped }.Imported := by
  obtain ⟨imported, later, isLedger, noted, _⟩ := kept.recorded
  exact ⟨nofun, nofun, imported, later, isLedger, noted, nofun⟩

theorem ibanStep_kept (kept : system.Kept) {ev : IbanEventKind}
    (cond : IbanCondition creditIban system ev)
    (step : IbanStep creditIban system ev next) : next.Kept := by
  obtain ⟨r, promised⟩ := step
  obtain ⟨ascending, pos, isImported⟩ := kept
  obtain ⟨imported, later, isLedger, noted, process⟩ := isImported.recorded
  cases ev with
  | arrive transfer =>
    cases r
    refine ⟨?_, ?_, isImported.process, isImported.goes, imported, later ++ [transfer], ?_,
      noted, process⟩
    · apply pairwise_append.mpr ⟨ascending, pairwise_singleton _ _, ?_⟩
      intro earlier mem y isO
      cases mem_singleton.mp isO
      exact promised.2 earlier mem
    · intro y mem
      rcases mem_append.mp mem with old | new
      · exact pos y old
      · cases mem_singleton.mp new
        exact promised.1
    · rw [← append_assoc, ← isLedger]
  | run testMode sel =>
    rw [IbanSystem.perform] at r
    split at r
    next => cases r
    next =>
      split at r
      next =>
        cases r
        refine ⟨ascending, pos, nofun, ?_, imported, later, isLedger, noted, ?_⟩
        · intro helper isRunning
          cases isRunning
          exact ⟨.inr (.inr rfl), nofun⟩
        intro helper isRunning
        cases isRunning
        rw [isLedger] at ascending
        exact ⟨noted.last (pairwise_append.mp ascending).1 cond, nofun⟩
      next =>
        cases r
        exact ⟨ascending, pos, isImported.stop⟩
  | findTransfers started =>
    rw [IbanSystem.perform] at r
    split at r
    next helper isRunning =>
      split at r
      next isTask =>
        obtain ⟨latest, _⟩ := process helper isRunning
        have noRequest : helper.hh = none := by
          cases req : helper.hh with
          | none => rfl
          | some start =>
            have noTask := (isImported.goes helper isRunning).single (by rw [req]; rfl)
            exact absurd (isTask.symm.trans noTask) (by decide)
        have h : findTransfers started (system.toImport helper) = if started then
              some ⟨{ helper with task := false, hh := some helper.latestRowOff },
                system.rows, system.notified⟩
            else
              some ⟨{ helper with task := false, shuttingDown := true }, system.rows,
                system.notified⟩ := by
          simp only [findTransfers, IbanSystem.toImport, noRequest, isSome_none]
          rfl
        rw [h] at r
        cases started with
        | true =>
          cases r
          refine ⟨ascending, pos, nofun, ?_, imported, later, isLedger, noted, ?_⟩
          · intro helper isRunning
            cases isRunning
            exact ⟨.inr (.inl rfl), fun _ => rfl⟩
          intro helper isRunning
          cases isRunning
          refine ⟨latest, ?_⟩
          intro start isStart
          cases isStart
          exact latest
        | false =>
          cases r
          refine ⟨ascending, pos, nofun, ?_, imported, later, isLedger, noted, ?_⟩
          · intro helper isRunning
            cases isRunning
            exact ⟨.inl rfl, fun _ => rfl⟩
          intro helper isRunning
          cases isRunning
          refine ⟨latest, ?_⟩
          intro start isStart
          exact absurd (noRequest.symm.trans isStart) (some_ne_none _).symm
      next => cases r
    next => cases r
  | answer resp outcomes =>
    rw [IbanSystem.perform] at r
    split at r
    next helper isRunning =>
      split at r
      next inFlight =>
        obtain ⟨latest, isStart⟩ := process helper isRunning
        obtain ⟨start, req⟩ := isSome_iff_exists.mp inFlight
        obtain ⟨after, notLater, isAnswer⟩ := promised helper start isRunning req
        rw [isLedger] at ascending pos isAnswer
        have fits := cond helper isRunning
        rw [latest] at fits
        have reached : (system.toImport helper).Reached imported := ⟨noted, latest⟩
        obtain ⟨st, recorded', missing, ended, eq, reached, gone, goes⟩ :=
          handleCreditHistoryFinished_reached ascending reached
            ((isImported.goes helper isRunning).single inFlight)
            (fun transfer rest isTransfers isNew => by
              rw [isTransfers] at isAnswer ⊢
              exact answer_next ascending pos (isStart start req ▸ notLater) isAnswer isNew)
            fits
        rw [ended] at r
        cases r
        rw [← isLedger] at ascending pos
        refine ⟨ascending, pos, nofun, ?_, recorded', missing, isLedger.trans eq,
          reached.recorded, ?_⟩
        · intro helper isRunning
          cases isRunning
          refine ⟨goes.imp_right .inr, ?_⟩
          intro isRequest
          rw [gone] at isRequest
          cases isRequest
        intro helper isRunning
        cases isRunning
        refine ⟨reached.latest, ?_⟩
        intro start isStart
        exact absurd (gone.symm.trans isStart) (some_ne_none _).symm
      next => cases r
    next => cases r
  | shutdownTask =>
    rw [IbanSystem.perform] at r
    split at r
    next =>
      cases r
      exact ⟨ascending, pos, isImported.stop⟩
    next => cases r
  | kill =>
    cases r
    exact ⟨ascending, pos, isImported.stop⟩

/-- In every run in which transfers have IBANs, insertions meet no soft error and the process
starts with rows of its own account, each transfer is imported once and the import goes on. -/
theorem transfers_imported {events : List IbanEventKind}
    (run : Run (Guarded (IbanCondition creditIban) (IbanStep creditIban)) .start events system) :
    system.Imported := by
  have initial : IbanSystem.start.Kept :=
    ⟨List.Pairwise.nil, nofun, nofun, nofun, [], [], rfl, .nil, nofun⟩
  exact (run.invariant IbanSystem.Kept initial fun _ _ _ kept guarded =>
    ibanStep_kept kept guarded.1 guarded.2).imported

end Runs

section Examples

def exampleTransfer (serialId : Nat) : Transfer :=
  (serialId,
    { amount := 100000000
      executionDate := 0
      wireSubject := "Anastasis 42"
      debitAccountUri := "payto://iban/AGRIFRPP/FR14?receiver-name=A"
      creditAccountUri := "payto://iban/DE75" })

def runningHelper : IbanHelper where
  testMode := false
  hh := none
  latestRowOff := 0
  task := true
  shuttingDown := false

def requesting : IbanSystem where
  ledger := [exampleTransfer 1]
  rows := []
  notified := []
  process := .running { runningHelper with hh := some 0, task := false }

def onlyTransfer : HistoryResponse := .transactions [.transaction (exampleTransfer 1)]

theorem requesting_run : Run (Guarded (IbanCondition "DE75") (IbanStep "DE75")) .start
    [.arrive (exampleTransfer 1), .run false true, .findTransfers true] requesting := by
  have arrives : Guarded (IbanCondition "DE75") (IbanStep "DE75") .start
      (.arrive (exampleTransfer 1)) { IbanSystem.start with ledger := [exampleTransfer 1] } :=
    ⟨trivial, rfl, by decide, nofun⟩
  have runs : Guarded (IbanCondition "DE75") (IbanStep "DE75")
      { IbanSystem.start with ledger := [exampleTransfer 1] } (.run false true)
      { requesting with process := .running runningHelper } := ⟨nofun, rfl, trivial⟩
  have finds : Guarded (IbanCondition "DE75") (IbanStep "DE75")
      { requesting with process := .running runningHelper } (.findTransfers true) requesting :=
    ⟨trivial, rfl, trivial⟩
  exact ((Run.start.next arrives).next runs).next finds

theorem onlyTransfer_promised (helper : IbanHelper) (start : Nat)
    (isRunning : requesting.process = .running helper) (isStart : helper.hh = some start) :
    ∃ after ≤ start,
      onlyTransfer.transfers <+: requesting.ledger.filter fun transfer => after < transfer.1 := by
  cases isRunning
  cases isStart
  exact ⟨0, Nat.le_refl 0, by decide⟩

/-- After a soft error of the database the process neither shuts down nor goes on. -/
theorem import_stalls_at_softError :
    ¬ ∀ (creditIban : String) (events : List IbanEventKind) (system : IbanSystem),
      Run (IbanStep creditIban) .start events system → system.Imported := by
  intro claim
  have answered : IbanStep "DE75" requesting (.answer onlyTransfer fun _ => .softError)
      { requesting with process := .running { runningHelper with task := false } } :=
    ⟨rfl, onlyTransfer_promised⟩
  have stalled := (claim _ _ _ (requesting_run.unguarded.next answered)).goes _ rfl
  rcases stalled.alive with shuts | request | task
  · cases shuts
  · cases request
  · cases task

theorem transfers_imported_once : ∃ events system,
    Run (IbanStep "DE75") .start events system ∧ system.rows.length = 1 ∧ system.Imported := by
  have answered : Guarded (IbanCondition "DE75") (IbanStep "DE75") requesting
      (.answer onlyTransfer fun _ => .executed) { requesting with
        rows := [⟨1, "Anastasis 42", 100000000, "FR14", "DE75", 0⟩]
        notified := [⟨"FR14", 42, 100000000⟩]
        process := .running { runningHelper with latestRowOff := 1 } } := by
    refine ⟨?_, rfl, onlyTransfer_promised⟩
    intro helper isRunning
    cases isRunning
    decide
  have run := requesting_run.next answered
  exact ⟨_, _, run.unguarded, rfl, transfers_imported run⟩

end Examples

end Anastasis.Authorization
