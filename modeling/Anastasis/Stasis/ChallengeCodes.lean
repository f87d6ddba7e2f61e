import Anastasis.Stasis.Tables

/-! Challenge codes: how they are created and how answers are compared with them. -/

set_option autoImplicit false

namespace Anastasis.Stasis

open Library Library.Statements

structure ChallengeCode where
  truthUuid : TruthUuid
  code : Nat
  creationDate : Time
  expirationDate : Time
  retransmissionDate : Time
  retryCounter : Nat
  satisfied : Bool
deriving DecidableEq

/-- The periods of an authorization method and the tries that it allows for each code. -/
structure ChallengeSettings where
  rotationPeriod : Time
  validityPeriod : Time
  retryCounter : Nat

abbrev ChallengeCodes := List ChallengeCode

def challengecodeInsert (row : ChallengeCode) (codes : ChallengeCodes) :
    Except Failure (Nat × ChallengeCodes) := .ok (1, codes ++ [row])

def challengecodeSelect (truthUuid : TruthUuid) (now : Time) (codes : ChallengeCodes) :
    List ChallengeCode :=
  codes.filter fun row =>
    row.truthUuid = truthUuid ∧ now < row.expirationDate ∧ row.retryCounter ≠ 0

def activeCode (truthUuid : TruthUuid) (now exRot : Time) (codes : ChallengeCodes) :
    Option ChallengeCode :=
  (codes.filter fun row =>
    row.truthUuid = truthUuid ∧ now < row.expirationDate ∧ exRot < row.creationDate).argmax
      (·.creationDate)

def challengecodeSelectMeta (truthUuid : TruthUuid) (now exRot : Time) (codes : ChallengeCodes) :
    List ChallengeCode :=
  (activeCode truthUuid now exRot codes).toList

def spends (truthUuid : TruthUuid) (code : Nat) (row : ChallengeCode) : Bool :=
  row.truthUuid = truthUuid ∧ row.code = code ∧ row.retryCounter ≠ 0

def spend (truthUuid : TruthUuid) (code : Nat) (row : ChallengeCode) : ChallengeCode :=
  if spends truthUuid code row then { row with retryCounter := row.retryCounter - 1 } else row

/-- The least number of a signed column is read as `2 ^ 31` and cannot be decremented. -/
def challengecodeUpdateRetry (truthUuid : TruthUuid) (code : Nat) (codes : ChallengeCodes) :
    Except Failure (Nat × ChallengeCodes) :=
  if codes.any fun row => spends truthUuid code row && row.retryCounter = 2 ^ 31 then .error .hard
  else .ok (codes.countP (spends truthUuid code), codes.map (spend truthUuid code))

inductive CreateStatus where
  | hardError
  | softError
  | noResults
  | oneResult (retransmissionDate : Time) (code : Nat)
deriving DecidableEq

def freshCode (settings : ChallengeSettings) (truthUuid : TruthUuid) (now : Time) (nonce : Nat) :
    ChallengeCode where
  truthUuid := truthUuid
  code := nonce
  creationDate := column now
  expirationDate := column (absoluteAdd now settings.validityPeriod)
  retransmissionDate := 0
  retryCounter := settings.retryCounter
  satisfied := false

def createAttempt (settings : ChallengeSettings) (truthUuid : TruthUuid) (now : Time)
    (random : Nat → Nat) : Statements ChallengeCodes CreateStatus CreateStatus := do
  inTransaction .hardError
  match ← select (challengecodeSelectMeta truthUuid now
      (absoluteSubtract now settings.rotationPeriod)) with
  | .failed .hard => abandon .hardError
  | .failed .soft => retry
  | .oneResult row =>
    if row.retryCounter = 0 then abandon .noResults
    else abandon (.oneResult row.retransmissionDate row.code)
  | .noResults => do
      let connection ← Effect.get
      let nonce := random connection.executed
      match ← change (challengecodeInsert (freshCode settings truthUuid now nonce)) with
      | .failed .hard => abandon .hardError
      | .failed .soft => retry
      | .rows 0 => abandon .hardError
      | .rows _ =>
        match ← commitTransaction with
        | some .soft => retry
        | some .hard => leave .hardError
        | none => return .oneResult 0 nonce

def createChallengeCode (settings : ChallengeSettings) (truthUuid : TruthUuid) (now : Time)
    (random : Nat → Nat) : Connection ChallengeCodes → CreateStatus × Connection ChallengeCodes :=
  transact .softError (createAttempt settings truthUuid (roundAbs now) random) maxRetries

inductive CodeStatus where
  | hardError
  | noResults
  | challengeCodeMismatch
  | validCodeStored (code : Nat) (satisfied : Bool)
deriving DecidableEq

structure CheckValidity where
  valid : Bool
  code : Nat
  satisfied : Bool
  dbFailure : Bool
deriving DecidableEq

def Change.succeeds : Change → Bool
  | .failed _ => false
  | .rows count => count ≠ 0

def checkValidCode (hashAnswer : Nat → HashCode) (truthUuid : TruthUuid)
    (hashedCode : HashCode) : List ChallengeCode → CheckValidity →
      Statements ChallengeCodes CodeStatus CheckValidity
  | [], context => return context
  | row :: rows, context =>
    if hashAnswer row.code = hashedCode then
      checkValidCode hashAnswer truthUuid hashedCode rows
        { context with valid := true, code := row.code, satisfied := row.satisfied }
    else do
      let charged ← change (challengecodeUpdateRetry truthUuid row.code)
      checkValidCode hashAnswer truthUuid hashedCode rows
        (if Change.succeeds charged then context else { context with dbFailure := true })

def codeStatus (selected : Nat) (context : CheckValidity) : CodeStatus :=
  if context.dbFailure then .hardError
  else if context.valid then .validCodeStored context.code context.satisfied
  else if selected = 0 then .noResults
  else .challengeCodeMismatch

def verifyAttempt (hashAnswer : Nat → HashCode) (truthUuid : TruthUuid) (now : Time)
    (hashedCode : HashCode) : Statements ChallengeCodes CodeStatus CodeStatus := do
  match ← selectAll (challengecodeSelect truthUuid now) with
  | .error _ => leave .hardError
  | .ok rows => do
      let context ← checkValidCode hashAnswer truthUuid hashedCode rows ⟨false, 0, false, false⟩
      return codeStatus rows.length context

def verifyChallengeCode (hashAnswer : Nat → HashCode) (truthUuid : TruthUuid) (now : Time)
    (hashedCode : HashCode) : Connection ChallengeCodes → CodeStatus × Connection ChallengeCodes :=
  transact .hardError (verifyAttempt hashAnswer truthUuid (roundAbs now) hashedCode) 1

/-! Without failures of the database the calls are functions of the codes. -/

section Undisturbed

open Effect

variable {settings : ChallengeSettings} {truthUuid uuid : TruthUuid} {now : Time}
  {hashAnswer : Nat → HashCode} {hashedCode : HashCode} {codes : ChallengeCodes}

def issueCode (settings : ChallengeSettings) (truthUuid : TruthUuid) (now : Time) (nonce : Nat)
    (codes : ChallengeCodes) : CreateStatus × ChallengeCodes :=
  match activeCode truthUuid now (absoluteSubtract now settings.rotationPeriod) codes with
  | some row =>
    if row.retryCounter = 0 then (.noResults, codes)
    else (.oneResult row.retransmissionDate row.code, codes)
  | none => (.oneResult 0 nonce, codes ++ [freshCode settings truthUuid now nonce])

def Undisturbed (connection : Connection ChallengeCodes) : Prop :=
  ∀ statement, connection.failures statement = none

theorem createAttempt_ensures (rnd : Nat → Nat) :
    Ensures (createAttempt settings uuid now rnd) (.opened codes fun _ => none)
      (fun status fin => (status, fin.committed) = issueCode settings uuid now (rnd 2) codes)
      (Exit.Leaves fun status fin => (status, fin.committed) =
        issueCode settings uuid now (rnd 2) codes) := by
  unfold createAttempt issueCode
  refine .after (inTransaction_run rfl) ?_
  cases h : activeCode uuid now (absoluteSubtract now settings.rotationPeriod) codes with
  | none =>
    have nothing : Selection.of none (challengecodeSelectMeta uuid now
        (absoluteSubtract now settings.rotationPeriod) codes) = .noResults := by
      rw [challengecodeSelectMeta, h]
      rfl
    refine .after (select_run_of nothing) (.after rfl ?_)
    exact .after (change_run_rows rfl rfl) (.after (commitTransaction_run rfl) rfl)
  | some row =>
    have active : Selection.of none (challengecodeSelectMeta uuid now
        (absoluteSubtract now settings.rotationPeriod) codes) = .oneResult row := by
      rw [challengecodeSelectMeta, h]
      rfl
    refine .after (select_run_of active) ?_
    by_cases spent : row.retryCounter = 0
    · simp only [spent, if_true]
      rfl
    · simp only [spent, if_false]
      rfl

theorem createChallengeCode_undisturbed (rnd : Nat → Nat) :
    ((createChallengeCode settings uuid now rnd (.opened codes fun _ => none)).1,
        (createChallengeCode settings uuid now rnd (.opened codes fun _ => none)).2.committed) =
      issueCode settings uuid (roundAbs now) (rnd 2) codes :=
  transact_leaves 2 (createAttempt_ensures rnd)

def checkRows (hashAnswer : Nat → HashCode) (truthUuid : TruthUuid) (hashedCode : HashCode) :
    List ChallengeCode → CheckValidity → ChallengeCodes → CheckValidity × ChallengeCodes
  | [], context, codes => (context, codes)
  | row :: rows, context, codes =>
    if hashAnswer row.code = hashedCode then
      checkRows hashAnswer truthUuid hashedCode rows
        { context with valid := true, code := row.code, satisfied := row.satisfied } codes
    else match challengecodeUpdateRetry truthUuid row.code codes with
      | .error _ =>
        checkRows hashAnswer truthUuid hashedCode rows { context with dbFailure := true } codes
      | .ok (count, charged) =>
        checkRows hashAnswer truthUuid hashedCode rows
          (if count = 0 then { context with dbFailure := true } else context) charged

def compareAnswer (hashAnswer : Nat → HashCode) (truthUuid : TruthUuid) (now : Time)
    (hashedCode : HashCode) (codes : ChallengeCodes) : CodeStatus × ChallengeCodes :=
  let rows := challengecodeSelect truthUuid now codes
  let checked := checkRows hashAnswer truthUuid hashedCode rows ⟨false, 0, false, false⟩ codes
  (codeStatus rows.length checked.1, checked.2)

theorem checkValidCode_run (rows : List ChallengeCode) (context : CheckValidity)
    {conn : Connection ChallengeCodes} (undisturbed : Undisturbed conn)
    (holds : conn.At codes none) : ∃ fin : Connection ChallengeCodes,
      (checkValidCode hashAnswer uuid hashedCode rows context).run conn =
        (.ok (checkRows hashAnswer uuid hashedCode rows context codes).1, fin) ∧
      fin.committed = (checkRows hashAnswer uuid hashedCode rows context codes).2 := by
  induction rows generalizing context codes conn with
  | nil => exact ⟨conn, rfl, holds.committed⟩
  | cons row rows ih =>
    unfold checkValidCode checkRows
    by_cases matched : hashAnswer row.code = hashedCode
    · simp only [matched, if_true]
      exact ih _ undisturbed holds
    simp only [matched, if_false]
    have clear := undisturbed conn.executed
    cases updated : challengecodeUpdateRetry uuid row.code codes with
    | error failure =>
      have refused : challengecodeUpdateRetry uuid row.code conn.current =
          .error failure := by rw [holds.current, updated]
      rw [run_after (change_run_error clear refused)]
      exact ih _ undisturbed holds.tick
    | ok result =>
      obtain ⟨count, charged⟩ := result
      have made : challengecodeUpdateRetry uuid row.code conn.current =
          .ok (count, charged) := by rw [holds.current, updated]
      rw [run_after (change_run_rows clear made), holds.tick.write charged]
      have context_eq : (if Change.succeeds (.rows count) then context
          else { context with dbFailure := true }) =
            if count = 0 then { context with dbFailure := true } else context := by
        cases count with
        | zero => rfl
        | succ count => rfl
      rw [context_eq]
      exact ih _ undisturbed ⟨rfl, holds.transaction⟩

theorem verifyChallengeCode_undisturbed :
    ((verifyChallengeCode hashAnswer uuid now hashedCode (.opened codes fun _ => none)).1,
        (verifyChallengeCode hashAnswer uuid now hashedCode
          (.opened codes fun _ => none)).2.committed) =
      compareAnswer hashAnswer uuid (roundAbs now) hashedCode codes := by
  have ensures : Ensures (verifyAttempt hashAnswer uuid (roundAbs now) hashedCode)
      (.opened codes fun _ => none) (fun status fin => (status, fin.committed) =
        compareAnswer hashAnswer uuid (roundAbs now) hashedCode codes)
      (Exit.Leaves fun status fin => (status, fin.committed) =
        compareAnswer hashAnswer uuid (roundAbs now) hashedCode codes) := by
    have undisturbed : Undisturbed (Connection.opened codes fun _ => none).tick := by
      intro statement
      rfl
    obtain ⟨fin, checked, kept⟩ := checkValidCode_run
      (challengecodeSelect uuid (roundAbs now) codes) ⟨false, 0, false, false⟩
      undisturbed (Connection.opened_at codes fun _ => none).tick
    refine .after (selectAll_run rfl) (.after checked ?_)
    exact congrArg (Prod.mk _) kept
  exact transact_leaves 0 ensures

end Undisturbed

end Anastasis.Stasis
