import Anastasis.Stasis.ChallengeCodeBounds

/-! What the calls about challenge codes report, whatever the database fails at. -/

set_option autoImplicit false

namespace Anastasis.Stasis

open Library Library.Effect Library.Statements

variable {settings : ChallengeSettings} {truthUuid uuid : TruthUuid} {now : Time}
  {hashAnswer : Nat → HashCode} {hashedCode : HashCode} {codes : ChallengeCodes}
  {conn : Connection ChallengeCodes} {failures : Nat → Option Failure}

/-- What the comparison of an answer with `rows` adds to what was found before. -/
structure CheckValidity.Checks (hashAnswer : Nat → HashCode) (hashedCode : HashCode)
    (rows : List ChallengeCode) (context checked : CheckValidity) : Prop where
  kept : context.valid = true → checked.valid = true
  found : checked.valid = true →
    (context.valid = true ∧ checked.code = context.code ∧ checked.satisfied = context.satisfied) ∨
      ∃ row ∈ rows, hashAnswer row.code = hashedCode ∧ checked.code = row.code ∧
        checked.satisfied = row.satisfied
  missed : checked.valid = false → ∀ row ∈ rows, hashAnswer row.code ≠ hashedCode

theorem CheckValidity.Checks.matched {row : ChallengeCode} {rows : List ChallengeCode}
    {context checked : CheckValidity} (matched : hashAnswer row.code = hashedCode)
    (rest : CheckValidity.Checks hashAnswer hashedCode rows
      { context with valid := true, code := row.code, satisfied := row.satisfied } checked) :
    CheckValidity.Checks hashAnswer hashedCode (row :: rows) context checked where
  kept _ := rest.kept rfl
  found valid := by
    rcases rest.found valid with ⟨_, same_code, same_satisfied⟩ | ⟨later, mem, rest⟩
    · exact .inr ⟨row, List.mem_cons_self, matched, same_code, same_satisfied⟩
    · exact .inr ⟨later, List.mem_cons_of_mem row mem, rest⟩
  missed invalid := by
    have valid := rest.kept rfl
    rw [valid] at invalid
    cases invalid

theorem CheckValidity.Checks.differs {row : ChallengeCode} {rows : List ChallengeCode}
    {context checked : CheckValidity} {dbFailure : Bool} (ne : hashAnswer row.code ≠ hashedCode)
    (rest : CheckValidity.Checks hashAnswer hashedCode rows
      { context with dbFailure := dbFailure } checked) :
    CheckValidity.Checks hashAnswer hashedCode (row :: rows) context checked where
  kept := rest.kept
  found valid := by
    rcases rest.found valid with already | ⟨later, mem, rest⟩
    · exact .inl already
    · exact .inr ⟨later, List.mem_cons_of_mem row mem, rest⟩
  missed invalid := by
    intro other mem
    rcases List.mem_cons.mp mem with x | later
    · rw [x]
      exact ne
    · exact rest.missed invalid other later

theorem challengecodeUpdateRetry_spends {code count : Nat} {charged : ChallengeCodes}
    (updated : challengecodeUpdateRetry uuid code codes = .ok (count, charged)) :
    charged = codes.map (spend uuid code) := by
  unfold challengecodeUpdateRetry at updated
  split at updated
  · cases updated
  · cases updated
    rfl

theorem checkValidCode_checks (rows : List ChallengeCode) (context : CheckValidity)
    (holds : conn.At codes none) :
    Ensures (checkValidCode hashAnswer uuid hashedCode rows context) conn
      (fun checked final => (∃ update, Spends update ∧ final.At (codes.map update) none) ∧
        CheckValidity.Checks hashAnswer hashedCode rows context checked) (fun _ _ => False) := by
  induction rows generalizing context codes conn with
  | nil =>
    refine ⟨⟨id, .id, by rwa [List.map_id]⟩, id, fun valid => .inl ⟨valid, rfl, rfl⟩, ?_⟩
    intro _ row mem
    cases mem
  | cons row rows ih =>
    unfold checkValidCode
    split
    · next matched =>
      refine (ih _ holds).mono ?_ fun _ _ thrown => thrown
      rintro checked final ⟨spent, rest⟩
      exact ⟨spent, .matched matched rest⟩
    rename_i ne
    simp only [ensures_bind]
    refine ensures_change_direct holds ?_ ?_
    · intro failure next holds
      refine (ih _ holds).mono ?_ fun _ _ thrown => thrown
      rintro checked final ⟨spent, rest⟩
      exact ⟨spent, .differs ne rest⟩
    intro count charged updated next holds
    rw [challengecodeUpdateRetry_spends updated] at holds
    refine (ih _ holds).mono ?_ fun _ _ thrown => thrown
    rintro checked final ⟨⟨update, spends, holds⟩, rest⟩
    refine ⟨⟨update ∘ spend uuid row.code, (spends_spend row.code).comp spends, ?_⟩, ?_⟩
    · rwa [← List.map_map]
    cases count with
    | zero => exact .differs ne rest
    | succ count => exact .differs ne rest

structure Verifies (hashAnswer : Nat → HashCode) (truthUuid : TruthUuid) (now : Time)
    (hashedCode : HashCode) (codes : ChallengeCodes) (status : CodeStatus)
    (final : ChallengeCodes) : Prop where
  spent : ∃ update, Spends update ∧ final = codes.map update
  valid : ∀ code satisfied, status = .validCodeStored code satisfied →
    ∃ row ∈ challengecodeSelect truthUuid now codes, hashAnswer row.code = hashedCode ∧
      row.code = code ∧ row.satisfied = satisfied
  invalid : status = .challengeCodeMismatch ∨ status = .noResults →
    ∀ row ∈ challengecodeSelect truthUuid now codes, hashAnswer row.code ≠ hashedCode

theorem verifyAttempt_verifies (holds : conn.At codes none) :
    Ensures (verifyAttempt hashAnswer uuid now hashedCode) conn
      (fun status final => Verifies hashAnswer uuid now hashedCode codes status final.committed)
      (Exit.Leaves fun status final =>
        Verifies hashAnswer uuid now hashedCode codes status final.committed) := by
  have untouched : ∃ update, Spends update ∧ conn.tick.committed = codes.map update :=
    ⟨id, .id, by rw [List.map_id]; exact holds.committed⟩
  unfold verifyAttempt
  cases met : conn.failures conn.executed with
  | some failure =>
    have refused : (selectAll (challengecodeSelect uuid now) :
        Statements ChallengeCodes CodeStatus (Except Failure (List ChallengeCode))).run conn =
          (.ok (.error failure), conn.tick) := by
      unfold run selectAll
      rw [met]
    refine .after refused ⟨untouched, nofun, ?_⟩
    intro reported
    rcases reported with reported | reported <;> cases reported
  | none =>
    refine .after (selectAll_run met) ?_
    rw [holds.current]
    refine ensures_bind.mpr ((checkValidCode_checks _ _ holds.tick).mono ?_ fun _ _ thrown => thrown.elim)
    rintro checked final ⟨⟨update, spends, after⟩, checks⟩
    simp only [ensures_pure]
    refine ⟨⟨update, spends, after.committed⟩, ?_, ?_⟩
    · intro code satisfied reported
      unfold codeStatus at reported
      split at reported
      · cases reported
      split at reported
      · next valid =>
        cases reported
        rcases checks.found valid with ⟨nothing, _⟩ | ⟨row, mem, matched, eq, marked⟩
        · cases nothing
        · exact ⟨row, mem, matched, eq.symm, marked.symm⟩
      · split at reported <;> cases reported
    · intro reported
      apply checks.missed
      unfold codeStatus at reported
      split at reported
      · rcases reported with reported | reported <;> cases reported
      split at reported
      · rcases reported with reported | reported <;> cases reported
      · next invalid => simpa using invalid

theorem verifyChallengeCode_verifies (hashAnswer : Nat → HashCode) (uuid : TruthUuid)
    (now : Time) (hashedCode : HashCode) (codes : ChallengeCodes)
    (failures : Nat → Option Failure) : Verifies hashAnswer uuid (roundAbs now) hashedCode codes
      (verifyChallengeCode hashAnswer uuid now hashedCode (.opened codes failures)).1
      (verifyChallengeCode hashAnswer uuid now hashedCode (.opened codes failures)).2.committed :=
  transact_leaves 0 (verifyAttempt_verifies (Connection.opened_at codes failures))

end Anastasis.Stasis
