import Anastasis.Server.TruthUpload

/-! When an acknowledged truth is in the database as it was uploaded. -/

set_option autoImplicit false

namespace Anastasis.Server

open Library Library.Statements Stasis List

structure TruthUpload.Holds (upload : TruthUpload) (truth : Truth) : Prop where
  keyShareData : truth.keyShareData = upload.keyShareData
  encryptedTruth : truth.encryptedTruth = upload.encryptedTruth
  truthMime : truth.truthMime = upload.truthMime.getD ""
  method : truth.methodName = upload.method

def decision (service : TruthService) (clock : UploadClock) (unset : Time) (upload : TruthUpload)
    (payments : Selection Time) : Payment :=
  if service.supports upload.method = false then
    .refused ⟨400, .truthUploadMethodNotSupported, some upload.method⟩
  else if upload.storageYears > maxYearsStorage then
    .refused ⟨400, .genericParameterMalformed, some "storage_duration_years"⟩
  else if service.truthUploadFee = 0 then
    .paid (relativeToAbsolute clock.desired (relativeMultiply years maxYearsStorage))
  else assess service clock upload unset payments

def insertAt (service : TruthService) : Nat := if service.truthUploadFee = 0 then 0 else 1

variable {service svc : TruthService} {clock : UploadClock} {unset paidUntil : Time}
  {upload : TruthUpload} {tables tb : Tables} {failures : Nat → Option Failure}
  {conn : Connection Tables}

def paymentsFound (clock : UploadClock) (upload : TruthUpload) (tables : Tables)
    (failures : Nat → Option Failure) : Selection Time :=
  .of (failures 0) (truthPaymentSelect upload.truthUuid clock.lookup tables)

variable {truth : Truth}

theorem sameChallenge_iff : upload.sameChallenge truth = true ↔
    truth.encryptedTruth = upload.encryptedTruth ∧ truth.truthMime = upload.truthMime.getD "" ∧
      truth.methodName = upload.method := by
  simp only [TruthUpload.sameChallenge, decide_eq_true_eq]
  constructor
  · intro eq
    exact ⟨eq.2.2.2, eq.2.2.1.symm, eq.2.1⟩
  · intro eq
    exact ⟨congrArg List.length eq.1, eq.2.2, eq.2.1.symm, eq.1⟩

theorem holds_iff : upload.Holds truth ↔
    truth.keyShareData = upload.keyShareData ∧ upload.sameChallenge truth = true := by
  rw [sameChallenge_iff]
  constructor
  · intro holds
    exact ⟨holds.keyShareData, holds.encryptedTruth, holds.truthMime, holds.method⟩
  · intro eq
    exact ⟨eq.1, eq.2.1, eq.2.2.1, eq.2.2.2⟩

def storeOutcome (upload : TruthUpload) (clock : UploadClock) (paidUntil : Time) (tables : Tables)
    (inserting selecting : Option Failure) : TruthAnswer × Tables :=
  match inserting with
  | some _ => (.error ⟨500, .genericDbInvariantFailure, some "store_truth"⟩, tables)
  | none =>
    if tables.truths.any (·.truthUuid = upload.truthUuid) = true then
      match Selection.of selecting (truthSelect upload.truthUuid tables) with
      | .oneResult truth =>
        if upload.sameChallenge truth then (.noContent, tables) else (.error uuidExists, tables)
      | _ => (.error uuidExists, tables)
    else
      (.noContent, { tables with truths := tables.truths ++ [upload.truth clock paidUntil] })

def Results (outcome : TruthAnswer × Tables) (answer : TruthAnswer) (final : Connection Tables) :
    Prop := (answer, final.committed) = outcome

open Effect in
theorem storeTruth_ensures (closed : conn.transaction = none) :
    Ensures (storeTruth upload clock paidUntil) conn
      (Results (storeOutcome upload clock paidUntil conn.committed (conn.failures conn.executed)
        (conn.failures (conn.executed + 1))))
      (Exit.Leaves (Results (storeOutcome upload clock paidUntil conn.committed
        (conn.failures conn.executed) (conn.failures (conn.executed + 1))))) := by
  have cur : conn.current = conn.committed := by
    rw [Connection.current, closed, Option.getD_none]
  have written : ∀ tb, (conn.tick.write tb).committed = tb ∧ (conn.tick.write tb).current = tb ∧
      (conn.tick.write tb).failures (conn.tick.write tb).executed =
        conn.failures (conn.executed + 1) := by
    intro tb
    have still : conn.tick.transaction = none := closed
    simp only [Connection.write, still, Connection.current, Option.getD_none]
    exact ⟨trivial, trivial, rfl⟩
  cases inserting : conn.failures conn.executed with
  | some failure => exact .after (change_run_failed inserting) rfl
  | none =>
    by_cases has : conn.committed.truths.any (·.truthUuid = upload.truthUuid) = true
    · have inserted : truthInsert (upload.truth clock paidUntil) conn.current =
          .ok (0, conn.committed) := by
        rw [cur]
        exact if_pos has
      obtain ⟨committed, seen, upcoming⟩ := written conn.committed
      refine .after (change_run_rows inserting inserted) (.after (select_run _) ?_)
      rw [seen, upcoming]
      simp only [storeOutcome, has, if_true]
      cases Selection.of (conn.failures (conn.executed + 1))
          (truthSelect upload.truthUuid conn.committed) with
      | failed failure => exact congrArg (Prod.mk (TruthAnswer.error uuidExists)) committed
      | noResults => exact congrArg (Prod.mk (TruthAnswer.error uuidExists)) committed
      | oneResult truth =>
        by_cases eq : upload.sameChallenge truth = true
        · simp only [eq, if_true]
          exact congrArg (Prod.mk TruthAnswer.noContent) committed
        · simp only [eq]
          exact congrArg (Prod.mk (TruthAnswer.error uuidExists)) committed
    · have inserted : truthInsert (upload.truth clock paidUntil) conn.current =
          .ok (1, { conn.committed with
            truths := conn.committed.truths ++ [upload.truth clock paidUntil] }) := by
        rw [cur]
        exact if_neg has
      refine .after (change_run_rows inserting inserted) ?_
      simp only [storeOutcome, has]
      exact congrArg (Prod.mk TruthAnswer.noContent) (written _).1

def postOutcome (service : TruthService) (clock : UploadClock) (unset : Time)
    (upload : TruthUpload) (tables : Tables) (failures : Nat → Option Failure) :
    TruthAnswer × Tables :=
  match decision service clock unset upload (paymentsFound clock upload tables failures) with
  | .refused reply => (.error reply, tables)
  | .due yearsToPay uploadFee => (.beginPayment yearsToPay uploadFee, tables)
  | .paid paidUntil => storeOutcome upload clock paidUntil tables (failures (insertAt service))
      (failures (insertAt service + 1))

open Effect in
theorem checkPayment_run : (checkPayment svc clock upload unset).run (.opened tables failures) =
      (.ok (if svc.truthUploadFee = 0 then
          .paid (relativeToAbsolute clock.desired (relativeMultiply years maxYearsStorage))
        else assess svc clock upload unset (paymentsFound clock upload tables failures)),
        { Connection.opened tables failures with executed := insertAt svc }) := by
  unfold checkPayment insertAt
  by_cases free : svc.truthUploadFee = 0
  · simp only [free, if_true]
    rfl
  · simp only [free, if_false]
    exact run_after (select_run _)

open Effect in
theorem truthPost_outcome : ((truthPost service clock unset upload (.opened tables failures)).1,
        (truthPost service clock unset upload (.opened tables failures)).2.committed) =
      postOutcome service clock unset upload tables failures := by
  have ensures : Ensures (handlerTruthPost service clock unset upload) (.opened tables failures)
      (Results (postOutcome service clock unset upload tables failures))
      (Exit.Leaves (Results (postOutcome service clock unset upload tables failures))) := by
    unfold handlerTruthPost postOutcome decision
    by_cases unsupported : service.supports upload.method = false
    · simp only [unsupported, if_true]
      exact rfl
    by_cases long : upload.storageYears > maxYearsStorage
    · simp only [unsupported, long, if_true]
      exact rfl
    simp only [unsupported, long, if_false]
    refine .after checkPayment_run ?_
    generalize (if service.truthUploadFee = 0 then
        .paid (relativeToAbsolute clock.desired (relativeMultiply years maxYearsStorage))
      else assess service clock upload unset (paymentsFound clock upload tables failures)) = pay
    cases pay with
    | refused reply => exact rfl
    | due yearsToPay uploadFee => exact rfl
    | paid paidUntil => exact storeTruth_ensures rfl
  exact transact_leaves 0 ensures

/-- What an uploader may rely on: an acknowledged truth is in the database and stays there as
long as it is paid for, and a different truth under the same name is reported. -/
structure Reliable (service : TruthService) (clock : UploadClock) (unset : Time)
    (upload : TruthUpload) (tables : Tables) (failures : Nat → Option Failure)
    (answer : TruthAnswer) (after : Tables) : Prop where
  acknowledged : answer = .noContent → ∃ truth, truthSelect upload.truthUuid after = [truth] ∧
    upload.Holds truth ∧ ∀ paidUntil,
      decision service clock unset upload (paymentsFound clock upload tables failures) =
        .paid paidUntil → paidUntil ≤ truth.expiration
  conflicting : ∀ truth ∈ truthSelect upload.truthUuid tables, ¬ upload.Holds truth →
    answer = .error uuidExists

/-- Nothing of the paid time is lost when it is rounded to full seconds. -/
def Unrounded (clock : UploadClock) (paidUntil : Time) : Prop :=
  let stored := absoluteAdd clock.storing (absoluteGetRemaining clock.remaining paidUntil)
  paidUntil + stored % 1000000 ≤ stored ∨ (2 ^ 63 - 1 ≤ roundAbs stored ∧ paidUntil ≤ forever)

structure Careful (service : TruthService) (clock : UploadClock) (unset : Time)
    (upload : TruthUpload) (tables : Tables) (failures : Nat → Option Failure) : Prop where
  fresh : truthSelect upload.truthUuid tables = [] → ∀ paidUntil,
    decision service clock unset upload (paymentsFound clock upload tables failures) =
      .paid paidUntil → failures (insertAt service) = none → Unrounded clock paidUntil
  repeated : ∀ truth ∈ truthSelect upload.truthUuid tables, upload.Holds truth → ∀ paidUntil,
    decision service clock unset upload (paymentsFound clock upload tables failures) =
      .paid paidUntil → failures (insertAt service) = none →
      failures (insertAt service + 1) = none → paidUntil ≤ truth.expiration
  different : ∀ truth ∈ truthSelect upload.truthUuid tables, ¬ upload.Holds truth →
    (∃ paidUntil,
      decision service clock unset upload (paymentsFound clock upload tables failures) =
        .paid paidUntil) ∧ failures (insertAt service) = none ∧
      (upload.sameChallenge truth = true → failures (insertAt service + 1) ≠ none)

theorem le_column_roundAbs_iff {stored : Time} (bounded : stored ≤ forever) :
    paidUntil ≤ column (roundAbs stored) ↔ paidUntil + stored % 1000000 ≤ stored ∨
        (2 ^ 63 - 1 ≤ roundAbs stored ∧ paidUntil ≤ forever) := by
  by_cases far : 2 ^ 63 - 1 ≤ roundAbs stored
  · have top : column (roundAbs stored) = forever := by rw [column, if_neg (Nat.not_lt.mpr far)]
    rw [top]
    constructor
    · intro mem
      exact .inr ⟨far, mem⟩
    intro covered
    rcases covered with within | mem
    · exact Nat.le_trans (Nat.le_of_add_right_le within) bounded
    · exact mem.2
  · have near : column (roundAbs stored) = roundAbs stored := by
      rw [column, if_pos (Nat.not_le.mp far)]
    have finite : stored ≠ forever := by
      intro eq
      apply far
      rw [roundAbs, if_pos eq]
      decide
    have rounded : roundAbs stored = stored - stored % 1000000 := if_neg finite
    rw [near]
    constructor
    · intro within
      rw [rounded] at within
      exact .inl (Nat.add_le_of_le_sub (Nat.mod_le stored 1000000) within)
    intro covered
    rcases covered with within | mem
    · rw [rounded]
      exact Nat.le_sub_of_add_le within
    · exact absurd mem.1 far

theorem le_expiration_iff : paidUntil ≤ (upload.truth clock paidUntil).expiration ↔
    Unrounded clock paidUntil := le_column_roundAbs_iff (absoluteAdd_bounded _ _)

theorem truthSelect_insert (gone : truthSelect upload.truthUuid tb = []) :
    truthSelect upload.truthUuid { tb with
      truths := tb.truths ++ [upload.truth clock paidUntil] } = [upload.truth clock paidUntil] := by
  unfold truthSelect at gone ⊢
  rw [filter_append, gone]
  simp [TruthUpload.truth]

theorem truthSelect_keyed (keyed : (tb.truths.map (·.truthUuid)).Nodup)
    (mem : truth ∈ truthSelect upload.truthUuid tb) :
    truthSelect upload.truthUuid tb = [truth] := by
  have named : ∀ other ∈ truthSelect upload.truthUuid tb, other.truthUuid = upload.truthUuid := by
    intro other h
    have matched := (mem_filter.mp h).2
    simpa only [decide_eq_true_eq] using matched
  have once : ((truthSelect upload.truthUuid tb).map (·.truthUuid)).Nodup :=
    keyed.sublist (List.filter_sublist.map _)
  match h : truthSelect upload.truthUuid tb with
  | [] =>
    rw [h] at mem
    cases mem
  | [only] =>
    rw [h, mem_singleton] at mem
    rw [mem]
  | x :: y :: rest =>
    rw [h] at once named
    have eq : x.truthUuid = y.truthUuid := by
      rw [named x (.head _), named y (.tail _ (.head _))]
    simp [eq] at once

theorem truthSelect_nil_iff : truthSelect upload.truthUuid tb = [] ↔
    ¬ tb.truths.any (·.truthUuid = upload.truthUuid) = true := by
  rw [truthSelect]
  simp

theorem uuidExists_not_decided {payments : Selection Time} :
    decision svc clock unset upload payments ≠ .refused uuidExists := by
  intro decided
  unfold decision at decided
  split at decided
  · cases decided
  split at decided
  · cases decided
  split at decided
  · cases decided
  unfold assess at decided
  have refusals : ∀ paidUntil, outstanding svc clock upload paidUntil ≠ .refused uuidExists := by
    intro paidUntil fails
    unfold outstanding at fails
    simp only at fails
    split at fails
    · cases fails
    · split at fails <;> cases fails
  split at decided
  · cases decided
  · exact refusals _ decided
  split at decided
  · exact refusals _ decided
  · cases decided

/-- Before anything is stored, only an upload that differs from the stored truth goes wrong. -/
theorem reliable_unstored {ans : TruthAnswer} {after : Tables} (fails : ans ≠ .noContent)
    (silent : ans ≠ .error uuidExists) (unpaid : ∀ paidUntil, decision service clock unset upload
      (paymentsFound clock upload tables failures) ≠ .paid paidUntil) :
    Reliable service clock unset upload tables failures ans after ↔
      Careful service clock unset upload tables failures := by
  constructor
  · intro reliable
    constructor
    · intro _ paidUntil decided
      exact absurd decided (unpaid paidUntil)
    · intro truth _ _ paidUntil decided
      exact absurd decided (unpaid paidUntil)
    · intro truth mem differs
      exact absurd (reliable.conflicting truth mem differs) silent
  · intro careful
    constructor
    · intro acked
      exact absurd acked fails
    intro truth mem differs
    obtain ⟨⟨paidUntil, decided⟩, _⟩ := careful.different truth mem differs
    exact absurd decided (unpaid paidUntil)

theorem reliable_fresh (gone : truthSelect upload.truthUuid tables = [])
    (decided : decision service clock unset upload (paymentsFound clock upload tables failures) =
      .paid paidUntil) : Reliable service clock unset upload tables failures
        (storeOutcome upload clock paidUntil tables (failures (insertAt service))
          (failures (insertAt service + 1))).1
        (storeOutcome upload clock paidUntil tables (failures (insertAt service))
          (failures (insertAt service + 1))).2 ↔
      Careful service clock unset upload tables failures := by
  have nothing : ∀ truth, truth ∉ truthSelect upload.truthUuid tables := by
    intro truth mem
    rw [gone] at mem
    cases mem
  unfold storeOutcome
  cases inserting : failures (insertAt service) with
  | some failure =>
    constructor
    · intro _
      constructor
      · intro _ y _ undisturbed
        rw [inserting] at undisturbed
        cases undisturbed
      · intro truth mem
        exact absurd mem (nothing truth)
      · intro truth mem
        exact absurd mem (nothing truth)
    · intro _
      constructor
      · intro acked
        cases acked
      · intro truth mem
        exact absurd mem (nothing truth)
  | none =>
    simp only [truthSelect_nil_iff.mp gone]
    constructor
    · intro reliable
      obtain ⟨truth, stored, _, covered⟩ := reliable.acknowledged rfl
      constructor
      · intro _ y also _
        have kept : [upload.truth clock paidUntil] = [truth] :=
          (truthSelect_insert gone).symm.trans stored
        cases kept
        have within := covered y also
        rw [decided] at also
        cases also
        exact le_expiration_iff.mp within
      · intro truth mem
        exact absurd mem (nothing truth)
      · intro truth mem
        exact absurd mem (nothing truth)
    · intro careful
      constructor
      · intro _
        refine ⟨upload.truth clock paidUntil, truthSelect_insert gone, ⟨rfl, rfl, rfl, rfl⟩, ?_⟩
        intro y also
        rw [decided] at also
        cases also
        exact le_expiration_iff.mpr (careful.fresh gone paidUntil decided inserting)
      · intro truth mem
        exact absurd mem (nothing truth)

/-- A repeated upload is acknowledged whatever its key share and its lifetime are. -/
theorem reliable_confirmed (has : truthSelect upload.truthUuid tables = [truth])
    (inserting : failures (insertAt service) = none)
    (sel : failures (insertAt service + 1) = none) (eq : upload.sameChallenge truth = true) :
    Reliable service clock unset upload tables failures .noContent tables ↔
      Careful service clock unset upload tables failures := by
  have mem : truth ∈ truthSelect upload.truthUuid tables := by
    rw [has]
    exact .head _
  have only : ∀ y ∈ truthSelect upload.truthUuid tables, y = truth := by
    intro y h
    rw [has] at h
    exact mem_singleton.mp h
  constructor
  · intro reliable
    obtain ⟨stored, kept, holds, covered⟩ := reliable.acknowledged rfl
    rw [has] at kept
    cases kept
    constructor
    · intro gone
      rw [has] at gone
      cases gone
    · intro y h _ until_then also _ _
      rw [only y h]
      exact covered until_then also
    intro y h differs
    rw [only y h] at differs
    exact absurd holds differs
  · intro careful
    have holds : upload.Holds truth := by
      by_contra differs
      exact (careful.different truth mem differs).2.2 eq sel
    constructor
    · intro _
      refine ⟨truth, has, holds, ?_⟩
      intro until_then also
      exact careful.repeated truth mem holds until_then also inserting sel
    intro y h differs
    rw [only y h] at differs
    exact absurd holds differs

theorem reliable_repeated (has : truthSelect upload.truthUuid tables = [truth])
    (decided : decision service clock unset upload (paymentsFound clock upload tables failures) =
      .paid paidUntil) : Reliable service clock unset upload tables failures
        (storeOutcome upload clock paidUntil tables (failures (insertAt service))
          (failures (insertAt service + 1))).1
        (storeOutcome upload clock paidUntil tables (failures (insertAt service))
          (failures (insertAt service + 1))).2 ↔
      Careful service clock unset upload tables failures := by
  have only : ∀ y ∈ truthSelect upload.truthUuid tables, y = truth := by
    intro y h
    rw [has] at h
    exact mem_singleton.mp h
  have known : tables.truths.any (·.truthUuid = upload.truthUuid) = true := by
    by_contra gone
    rw [truthSelect_nil_iff.mpr gone] at has
    cases has
  unfold storeOutcome
  cases inserting : failures (insertAt service) with
  | some failure =>
    constructor
    · intro reliable
      constructor
      · intro gone
        rw [has] at gone
        cases gone
      · intro _ _ _ _ _ undisturbed
        rw [inserting] at undisturbed
        cases undisturbed
      intro y h differs
      have told := reliable.conflicting y h differs
      cases told
    · intro careful
      constructor
      · intro acked
        cases acked
      intro y h differs
      have undisturbed := (careful.different y h differs).2.1
      rw [inserting] at undisturbed
      cases undisturbed
  | none =>
    simp only [known, if_true, has]
    have conflict : (upload.sameChallenge truth = true → failures (insertAt service + 1) ≠ none) →
        (Reliable service clock unset upload tables failures (.error uuidExists) tables ↔
          Careful service clock unset upload tables failures) := by
      intro unconfirmed
      constructor
      · intro _
        constructor
        · intro gone
          rw [has] at gone
          cases gone
        · intro y h holds _ _ _ undisturbed
          rw [only y h] at holds
          exact absurd undisturbed (unconfirmed (holds_iff.mp holds).2)
        intro y h _
        rw [only y h]
        exact ⟨⟨paidUntil, decided⟩, inserting, unconfirmed⟩
      · intro _
        constructor
        · intro acked
          cases acked
        · intro _ _ _
          rfl
    cases sel : failures (insertAt service + 1) with
    | some failure =>
      refine conflict ?_
      intro _ undisturbed
      rw [sel] at undisturbed
      cases undisturbed
    | none =>
      simp only [Selection.of]
      by_cases eq : upload.sameChallenge truth = true
      · simp only [eq, if_true]
        exact reliable_confirmed has inserting sel eq
      · simp only [eq]
        exact conflict fun confirmed => absurd confirmed eq

/-- An upload can be relied upon if and only if it is careful. -/
theorem truthPost_reliable (service : TruthService) (clock : UploadClock) (unset : Time)
    (upload : TruthUpload) (tables : Tables) (failures : Nat → Option Failure)
    (keyed : (tables.truths.map (·.truthUuid)).Nodup) :
    Reliable service clock unset upload tables failures
        (truthPost service clock unset upload (.opened tables failures)).1
        (truthPost service clock unset upload (.opened tables failures)).2.committed ↔
      Careful service clock unset upload tables failures := by
  have outcome : ((truthPost service clock unset upload (.opened tables failures)).1,
      (truthPost service clock unset upload (.opened tables failures)).2.committed) =
        postOutcome service clock unset upload tables failures := truthPost_outcome
  have answered : (truthPost service clock unset upload (.opened tables failures)).1 =
      (postOutcome service clock unset upload tables failures).1 := congrArg Prod.fst outcome
  have stored : (truthPost service clock unset upload (.opened tables failures)).2.committed =
      (postOutcome service clock unset upload tables failures).2 := congrArg Prod.snd outcome
  rw [answered, stored]
  unfold postOutcome
  cases decided : decision service clock unset upload
      (paymentsFound clock upload tables failures) with
  | refused reply =>
    refine reliable_unstored TruthAnswer.noConfusion ?_ ?_
    · intro silent
      cases silent
      exact uuidExists_not_decided decided
    · intro paidUntil paid
      rw [decided] at paid
      cases paid
  | due yearsToPay uploadFee =>
    refine reliable_unstored TruthAnswer.noConfusion TruthAnswer.noConfusion ?_
    intro paidUntil paid
    rw [decided] at paid
    cases paid
  | paid paidUntil =>
    cases found : truthSelect upload.truthUuid tables with
    | nil => exact reliable_fresh found decided
    | cons truth rest =>
      have member : truth ∈ truthSelect upload.truthUuid tables := by
        rw [found]
        exact .head _
      exact reliable_repeated (truthSelect_keyed keyed member) decided

def freeService : TruthService where
  truthUploadFee := 0
  amountMultiply := fun amount factor => some (amount * factor)
  pluginLoad := fun _ => false

def stillClock : UploadClock := ⟨0, 0, 0, 0, 0⟩

def questionUpload (keyShareData : EncryptedKeyShare) : TruthUpload where
  truthUuid := zeroBlock 32
  keyShareData := keyShareData
  method := "question"
  encryptedTruth := [1, 2]
  truthMime := none
  storageYears := 1

theorem truthPost_reliable_first :
    Reliable freeService stillClock 0 (questionUpload (zeroBlock 72)) emptyTables (fun _ => none)
      (truthPost freeService stillClock 0 (questionUpload (zeroBlock 72))
        (.opened emptyTables fun _ => none)).1
      (truthPost freeService stillClock 0 (questionUpload (zeroBlock 72))
        (.opened emptyTables fun _ => none)).2.committed := by
  refine (truthPost_reliable freeService stillClock 0 (questionUpload (zeroBlock 72)) emptyTables
    (fun _ => none) nodup_nil).mpr ⟨?_, ?_, ?_⟩
  · intro _ paidUntil decided _
    have until_then : decision freeService stillClock 0 (questionUpload (zeroBlock 72))
        (paymentsFound stillClock (questionUpload (zeroBlock 72)) emptyTables fun _ => none) =
          .paid (5 * years) := by decide +kernel
    rw [until_then] at decided
    cases decided
    exact .inl (by decide +kernel)
  · intro truth member
    cases member
  · intro truth member
    cases member

def otherShare : EncryptedKeyShare := ⟨List.replicate 72 1, rfl⟩

/-- The uploader of another key share is told that it was stored. -/
theorem other_share_acknowledged : ∃ tables, (tables.truths.map (·.truthUuid)).Nodup ∧
      (truthPost freeService stillClock 0 (questionUpload otherShare)
        (.opened tables fun _ => none)).1 = .noContent ∧
      ¬ Reliable freeService stillClock 0 (questionUpload otherShare) tables (fun _ => none)
        (truthPost freeService stillClock 0 (questionUpload otherShare)
          (.opened tables fun _ => none)).1
        (truthPost freeService stillClock 0 (questionUpload otherShare)
          (.opened tables fun _ => none)).2.committed := by
  have stored : (questionUpload (zeroBlock 72)).truth stillClock years ∈
      truthSelect (questionUpload otherShare).truthUuid { emptyTables with
        truths := [(questionUpload (zeroBlock 72)).truth stillClock years] } := by decide +kernel
  have acknowledged : (truthPost freeService stillClock 0 (questionUpload otherShare)
      (.opened { emptyTables with truths := [(questionUpload (zeroBlock 72)).truth stillClock years] }
        fun _ => none)).1 = .noContent := by decide +kernel
  refine ⟨{ emptyTables with truths := [(questionUpload (zeroBlock 72)).truth stillClock years] },
    by decide +kernel, acknowledged, ?_⟩
  intro reliable
  have differs : ¬ (questionUpload otherShare).Holds
      ((questionUpload (zeroBlock 72)).truth stillClock years) := by
    intro holds
    have same := holds.keyShareData
    revert same
    decide +kernel
  have refused := reliable.conflicting _ stored differs
  cases refused

end Anastasis.Server
