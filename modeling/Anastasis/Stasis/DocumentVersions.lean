import Mathlib.Data.List.Chain
import Anastasis.Library.Traverse
import Anastasis.Stasis.RecoveryDocuments

/-! What holds of the recovery documents and their payments after any number of uploads. -/

set_option autoImplicit false

namespace Anastasis.Stasis

open Library Library.Transition List

theorem int4_ofNat {number : Nat} (small : number < 2 ^ 31) :
    int4 (UInt32.ofNat number) = number := by
  unfold int4
  rw [BitVec.toInt_eq_toNat_of_lt]
  · simp
    omega
  · simp
    omega

/-- The versions of an account are the numbers from one on, as far as 32 bits with a sign
reach, and an upload differs from the one before it. -/
structure Versioned (documents : List RecoveryDocument) : Prop where
  versions : documents.map (·.version) =
    (List.range documents.length).map fun index => UInt32.ofNat (index + 1)
  bounded : documents.length ≤ 2 ^ 31
  distinct : (documents.map (·.recoveryDataHash)).IsChain (· ≠ ·)

namespace Versioned

variable {documents : List RecoveryDocument}

theorem nil : Versioned [] := ⟨rfl, by simp, .nil⟩

theorem version_getElem (versioned : Versioned documents) (idx : Nat)
    (mem : idx < documents.length) : documents[idx].version = UInt32.ofNat (idx + 1) := by
  have at_index := congrArg (·[idx]?) versioned.versions
  simpa [mem] using at_index

theorem version_last {old : List RecoveryDocument} {last : RecoveryDocument}
    (versioned : Versioned (old ++ [last])) :
    last.version = UInt32.ofNat (old.length + 1) := by
  have h := versioned.version_getElem old.length (by simp)
  simpa using h

theorem earlier {earlier : List RecoveryDocument} {last : RecoveryDocument}
    (versioned : Versioned (earlier ++ [last])) : Versioned earlier := by
  refine ⟨?_, ?_, ?_⟩
  · have all := versioned.versions
    simp only [map_append, length_append, map_cons, map_nil, length_singleton, range_succ] at all
    exact (append_inj all (by simp)).1
  · have bounded := versioned.bounded
    rw [length_append] at bounded
    omega
  have apart := versioned.distinct
  rw [map_append] at apart
  exact (isChain_append.mp apart).1

/-- As long as the column does not overflow, the greatest version is the last one. -/
theorem argmax_last {earlier : List RecoveryDocument} {last : RecoveryDocument}
    (versioned : Versioned (earlier ++ [last])) (room : earlier.length + 1 < 2 ^ 31) :
    greatestVersion (earlier ++ [last]) = some last := by
  rw [greatestVersion, argmax_concat]
  cases best : earlier.argmax fun document => int4 document.version with
  | none => rfl
  | some cand =>
    have mem : cand ∈ earlier := argmax_mem best
    obtain ⟨idx, inside, rfl⟩ := mem_iff_getElem.mp mem
    have below : int4 earlier[idx].version < int4 last.version := by
      rw [versioned.earlier.version_getElem idx inside, versioned.version_last,
        int4_ofNat (by omega), int4_ofNat room]
      omega
    simp only [below, if_true]

theorem argmax_overflow {old : List RecoveryDocument} {last h : RecoveryDocument}
    (versioned : Versioned (old ++ [last])) (full : old.length + 1 = 2 ^ 31)
    (best : greatestVersion (old ++ [last]) = some h) : h.version + 1 = last.version := by
  obtain ⟨prior, previous, rfl⟩ : ∃ prior previous, old = prior ++ [previous] := by
    obtain nothing | ⟨prior, previous, split⟩ := old.eq_nil_or_concat'
    · simp [nothing] at full
    · exact ⟨prior, previous, split⟩
  rw [length_append, length_singleton] at full
  have previously := versioned.earlier.argmax_last (by omega)
  rw [greatestVersion] at previously
  rw [greatestVersion, argmax_concat, previously] at best
  have previousVersion := versioned.earlier.version_last
  have lastVersion := versioned.version_last
  rw [length_append, length_singleton] at lastVersion
  have notBelow : ¬ int4 previous.version < int4 last.version := by
    rw [previousVersion, lastVersion, int4_ofNat (by omega), full]
    have overflowed : int4 (UInt32.ofNat (2 ^ 31)) = -2147483648 := by decide
    rw [overflowed]
    omega
  simp only [notBelow, if_false, Option.some.injEq] at best
  rw [← best, previousVersion, lastVersion, UInt32.ofNat_add (prior.length + 1) 1]
  rfl

theorem append (versioned : Versioned documents) (room : documents.length < 2 ^ 31)
    {next : RecoveryDocument} (ver : next.version = UInt32.ofNat (documents.length + 1))
    (differs : ∀ last ∈ documents.getLast?, last.recoveryDataHash ≠ next.recoveryDataHash) :
    Versioned (documents ++ [next]) := by
  refine ⟨?_, ?_, ?_⟩
  · simp only [map_append, versioned.versions, map_cons, map_nil, ver,
      length_append, length_singleton, range_succ]
  · rw [length_append, length_singleton]
    exact room
  rw [map_append]
  refine isChain_append.mpr ⟨versioned.distinct, .singleton _, ?_⟩
  intro last h hash eq
  rw [getLast?_map, Option.mem_map] at h
  obtain ⟨document, mem, rfl⟩ := h
  simp only [map_cons, map_nil, head?_cons, Option.mem_some_iff] at eq
  rw [← eq]
  exact differs document mem

end Versioned

/-- A call, with the failures that its statements meet and the status that it returns. -/
structure StoreCall where
  upload : DocumentUpload
  failures : Nat → Option Failure
  status : StoreStatus

def storeStep (tables : Tables) (call : StoreCall) (next : Tables) : Prop :=
  (storeRecoveryDocument call.upload (.opened tables call.failures)).1 = call.status ∧
    (storeRecoveryDocument call.upload (.opened tables call.failures)).2.committed = next

def StoreCall.stores (call : StoreCall) : Bool :=
  match call.status with
  | .success _ => true
  | _ => false

def StoreCall.charges (payment : RecdocPayment) (call : StoreCall) : Bool :=
  call.stores && call.upload.charges payment

structure Consistent (tables : Tables) : Prop where
  versioned : ∀ account, Versioned (tables.documentsOf account)
  known : ∀ account, tables.documentsOf account ≠ [] → tables.hasUser account = true

variable {tables tb next start final fin : Tables} {call : StoreCall} {events : List StoreCall}

theorem storeStep_outcome (step : storeStep tb call next) :
    StoreOutcome call.upload tb next call.status := by
  have out : StorePost call.upload tb
      (storeRecoveryDocument call.upload (.opened tb call.failures)).1
      (storeRecoveryDocument call.upload (.opened tb call.failures)).2 :=
    storeRecoveryDocument_outcome (Connection.opened_at tb call.failures)
  unfold StorePost at out
  rw [step.1, step.2] at out
  exact out

theorem storeStep_cases (step : storeStep tb call next) :
    (∃ ver, call.status = .success ver ∧ Stored call.upload tb ver next) ∨
      (call.stores = false ∧ next = tb) := by
  have out := storeStep_outcome step
  unfold StoreCall.stores
  cases status : call.status with
  | success ver =>
    rw [status] at out
    exact .inl ⟨ver, rfl, out⟩
  | noResults ver =>
    rw [status] at out
    exact .inr ⟨rfl, out.1⟩
  | paymentRequired =>
    rw [status] at out
    exact .inr ⟨rfl, out.1⟩
  | storeLimitExceeded =>
    rw [status] at out
    exact .inr ⟨rfl, out.1⟩
  | softError =>
    rw [status] at out
    exact .inr ⟨rfl, out⟩
  | hardError =>
    rw [status] at out
    exact .inr ⟨rfl, out⟩

/-- The newest document of the account, as long as its number fits into the column. -/
theorem Consistent.latest (consistent : Consistent tb) {account : AccountPublicKey}
    (room : (tb.documentsOf account).length < 2 ^ 31) : latestRecoveryVersionSelect account tb =
      ((tb.documentsOf account).getLast?).toList := by
  unfold latestRecoveryVersionSelect
  obtain nothing | ⟨old, last, split⟩ := (tb.documentsOf account).eq_nil_or_concat'
  · simp [nothing, greatestVersion]
  have has := consistent.known account (by simp [split])
  have versioned := consistent.versioned account
  rw [split] at versioned room ⊢
  rw [length_append] at room
  rw [if_pos has, versioned.argmax_last room, getLast?_concat]

/-- A document is only stored when its number fits, under the number that follows. -/
theorem Stored.version_eq {upload : DocumentUpload} {ver : UInt32}
    (consistent : Consistent tb) (kept : Stored upload tb ver next) :
    (tb.documentsOf upload.accountPub).length < 2 ^ 31 ∧
      ver = UInt32.ofNat ((tb.documentsOf upload.accountPub).length + 1) ∧
      ∀ last ∈ (tb.documentsOf upload.accountPub).getLast?,
        last.recoveryDataHash ≠ upload.recoveryDataHash := by
  have versioned := consistent.versioned upload.accountPub
  have room : (tb.documentsOf upload.accountPub).length < 2 ^ 31 := by
    by_contra full
    have exact : (tb.documentsOf upload.accountPub).length = 2 ^ 31 :=
      Nat.le_antisymm versioned.bounded (Nat.le_of_not_lt full)
    obtain nothing | ⟨old, last, split⟩ := (tb.documentsOf upload.accountPub).eq_nil_or_concat'
    · simp [nothing] at exact
    rw [split] at versioned exact
    rw [length_append, length_singleton] at exact
    have ans : ∀ h, latestRecoveryVersionSelect upload.accountPub tb = [h] →
        h.version + 1 = last.version := by
      intro h r
      unfold latestRecoveryVersionSelect at r
      rw [if_pos kept.known, split] at r
      refine versioned.argmax_overflow exact ?_
      cases best : greatestVersion (old ++ [last]) with
      | none => simp [best] at r
      | some cand =>
        rw [best] at r
        exact congrArg some (singleton_inj.mp r)
    have taken : last ∈ tb.documentsOf upload.accountPub := by simp [split]
    refine kept.free last taken ?_
    obtain ⟨none, _⟩ | ⟨latest, h, _, rfl⟩ := kept.follows
    · unfold latestRecoveryVersionSelect at none
      rw [if_pos kept.known, split] at none
      simp [greatestVersion] at none
    · exact (ans latest h).symm
  have latest := consistent.latest room
  refine ⟨room, ?_⟩
  obtain ⟨none, rfl⟩ | ⟨newest, h, differs, rfl⟩ := kept.follows
  · rw [latest] at none
    have nothing : tb.documentsOf upload.accountPub = [] := by
      simpa using none
    simp [nothing]
  rw [latest] at h
  obtain nothing | ⟨old, last, split⟩ := (tb.documentsOf upload.accountPub).eq_nil_or_concat'
  · simp [nothing] at h
  rw [split, getLast?_concat] at h
  obtain rfl : last = newest := singleton_inj.mp h
  rw [split] at versioned ⊢
  refine ⟨?_, ?_⟩
  · rw [versioned.version_last, length_append, length_singleton,
      UInt32.ofNat_add (old.length + 1) 1]
    rfl
  intro y mem
  rw [getLast?_concat, Option.mem_some_iff] at mem
  rw [← mem]
  exact differs

theorem Stored.documentsOf {upload : DocumentUpload} {ver : UInt32}
    (kept : Stored upload tb ver next) (account : AccountPublicKey) :
    next.documentsOf account = tb.documentsOf account ++
      if upload.accountPub = account then [upload.document ver] else [] := by
  unfold Tables.documentsOf
  rw [kept.documents, filter_append]
  by_cases eq : upload.accountPub = account
  · simp [eq, DocumentUpload.document]
  · simp [eq, DocumentUpload.document]

theorem Stored.hasUser {upload : DocumentUpload} {ver : UInt32}
    (kept : Stored upload tb ver next) (account : AccountPublicKey) :
    next.hasUser account = tb.hasUser account := by
  unfold Tables.hasUser
  rw [kept.others]

theorem Consistent.step (consistent : Consistent tb) (step : storeStep tb call next) :
    Consistent next := by
  obtain ⟨ver, _, kept⟩ | ⟨_, rfl⟩ := storeStep_cases step
  · obtain ⟨room, number, differs⟩ := kept.version_eq consistent
    refine ⟨fun account => ?_, fun account has => ?_⟩
    · rw [kept.documentsOf account]
      by_cases eq : call.upload.accountPub = account
      · rw [if_pos eq]
        subst eq
        exact (consistent.versioned _).append room number differs
      · rw [if_neg eq, append_nil]
        exact consistent.versioned account
    · rw [kept.hasUser account]
      rw [kept.documentsOf account] at has
      by_cases eq : call.upload.accountPub = account
      · rw [← eq]
        exact kept.known
      · rw [if_neg eq, append_nil] at has
        exact consistent.known account has
  · exact consistent

/-- What became of the payments: only their counters changed, by one for each document that
was stored under them. -/
def Charged (events : List StoreCall) (before after : List RecdocPayment) : Prop :=
  List.Forall₂ (fun old new => new = { old with postCounter := new.postCounter } ∧
    new.postCounter + events.countP (StoreCall.charges old) = old.postCounter) before after

theorem Charged.refl (payments : List RecdocPayment) : Charged [] payments payments :=
  List.forall₂_same.mpr fun _ _ => ⟨rfl, rfl⟩

theorem Stored.postCounter {upload : DocumentUpload} {ver : UInt32}
    (kept : Stored upload tables ver next) :
    List.Forall₂ (fun old new => new = { old with postCounter := new.postCounter } ∧
      new.postCounter + (if upload.charges old then 1 else 0) = old.postCounter)
      tables.recdocPayments next.recdocPayments := by
  obtain ⟨postcounter, h, charged⟩ := kept.charged
  rw [charged, List.forall₂_map_right_iff]
  refine List.forall₂_same.mpr fun pay mem => ?_
  by_cases pays : upload.charges pay = true
  · have counter : pay.postCounter ∈
        postcounterSelect upload.accountPub upload.paymentSecret tables := by
      refine List.mem_map.mpr ⟨pay, mem_filter.mpr ⟨mem, ?_⟩, rfl⟩
      exact pays
    rw [h, mem_singleton] at counter
    simp only [pays, if_true, counter, and_self]
  · simp [pays]

theorem Charged.step {pre : List RecdocPayment} (charged : Charged events pre tb.recdocPayments)
    (step : storeStep tb call next) : Charged (events ++ [call]) pre next.recdocPayments := by
  obtain ⟨ver, st, kept⟩ | ⟨fails, rfl⟩ := storeStep_cases step
  · have stores : call.stores = true := by rw [StoreCall.stores, st]
    refine (forall₂_comp charged kept.postCounter).imp ?_
    intro old new both
    obtain ⟨mid, ⟨oldMiddle, sum⟩, middleNew, difference⟩ := both
    refine ⟨?_, ?_⟩
    · rw [middleNew, oldMiddle]
    have samePays : call.upload.charges mid = call.upload.charges old := by
      rw [oldMiddle]
      rfl
    rw [countP_append, countP_singleton, StoreCall.charges, stores, Bool.true_and, ← samePays]
    rw [samePays] at difference ⊢
    omega
  · refine charged.imp fun old new both => ⟨both.1, ?_⟩
    rw [countP_append, countP_singleton, StoreCall.charges, fails, Bool.false_and]
    exact both.2

def NewestHas (tables : Tables) (upload : DocumentUpload) : Prop :=
  ∃ newest ∈ (tables.documentsOf upload.accountPub).getLast?,
    newest.recoveryDataHash = upload.recoveryDataHash

theorem Consistent.newestHas (consistent : Consistent tb) {upload : DocumentUpload}
    (room : (tb.documentsOf upload.accountPub).length < 2 ^ 31) : NewestHas tb upload ↔
      ∃ latest, latestRecoveryVersionSelect upload.accountPub tb = [latest] ∧
        latest.recoveryDataHash = upload.recoveryDataHash := by
  rw [consistent.latest room]
  unfold NewestHas
  cases (tb.documentsOf upload.accountPub).getLast? with
  | none => simp
  | some last => simp

theorem Follows.differs {upload : DocumentUpload} {ver : UInt32} {latest : RecoveryDocument}
    (follows : Follows upload tb ver)
    (h : latestRecoveryVersionSelect upload.accountPub tb = [latest]) :
    latest.recoveryDataHash ≠ upload.recoveryDataHash := by
  obtain ⟨none, _⟩ | ⟨y, r, differs, _⟩ := follows
  · rw [none] at h
    cases h
  rw [r] at h
  rw [← singleton_inj.mp h]
  exact differs

/-- A document that is already the newest one is refused, unless the database fails. -/
theorem storeStep_identical (step : storeStep tb call next) {latest : RecoveryDocument}
    (h : latestRecoveryVersionSelect call.upload.accountPub tb = [latest])
    (eq : latest.recoveryDataHash = call.upload.recoveryDataHash) :
    (∃ ver, call.status = .noResults ver) ∨ call.status = .softError ∨
      call.status = .hardError := by
  have out := storeStep_outcome step
  cases status : call.status with
  | noResults ver => exact .inl ⟨ver, rfl⟩
  | softError => exact .inr (.inl rfl)
  | hardError => exact .inr (.inr rfl)
  | success ver =>
    rw [status] at out
    exact absurd eq (Follows.differs out.follows h)
  | paymentRequired =>
    rw [status] at out
    obtain ⟨_, ver, follows⟩ := out
    exact absurd eq (follows.differs h)
  | storeLimitExceeded =>
    rw [status] at out
    obtain ⟨_, ver, follows⟩ := out
    exact absurd eq (follows.differs h)

theorem storeRecoveryDocument_undisturbed {upload : DocumentUpload}
    {conn : Connection Tables} {latest : RecoveryDocument}
    (undisturbed : ∀ statement, conn.failures statement = none)
    (h : latestRecoveryVersionSelect upload.accountPub conn.committed = [latest])
    (eq : latest.recoveryDataHash = upload.recoveryDataHash) :
    (storeRecoveryDocument upload conn).1 = .noResults latest.version := by
  obtain ⟨committed, tx, failures, executed⟩ := conn
  obtain rfl : failures = fun _ => none := funext undisturbed
  have attempt : ∃ fin, (storeAttempt upload).run ⟨committed, tx, fun _ => none, executed⟩ =
      (.error (.leave (.noResults latest.version)), fin) := by
    simp [storeAttempt, Statements.inTransaction, Statements.startTransaction, nextVersion,
      Statements.select, Effect.run, Bind.bind, Pure.pure, Connection.current, Connection.tick,
      h, eq, Statements.abandon, Statements.rollback, Statements.leave, Effect.throw, Effect.modify]
  obtain ⟨fin, left⟩ := attempt
  simp only [storeRecoveryDocument, maxRetries, Statements.transact, left]

theorem consistent_of_empty (empty : start.recoveryDocuments = []) : Consistent start := by
  have nothing : ∀ account, start.documentsOf account = [] := by
    intro account
    rw [Tables.documentsOf, empty, filter_nil]
  refine ⟨fun account => ?_, fun account has => ?_⟩
  · rw [nothing account]
    exact .nil
  · exact absurd (nothing account) has

/-- Uploads number the documents of each account without gaps, never touch a document again
and are paid for one by one; a call without success changes nothing, and the newest document
is not stored a second time. -/
theorem storeRecoveryDocument_run (empty : start.recoveryDocuments = [])
    (run : Run storeStep start events final) : (∀ account, Versioned (final.documentsOf account)) ∧
      Charged events start.recdocPayments final.recdocPayments ∧
      ∀ call next, storeStep final call next → (∀ version, call.status = .success version →
          next.recoveryDocuments = final.recoveryDocuments ++ [call.upload.document version]) ∧
        (call.stores = false → next = final) ∧
        ((final.documentsOf call.upload.accountPub).length < 2 ^ 31 →
          (∀ version, call.status = .noResults version → NewestHas final call.upload) ∧
          (NewestHas final call.upload →
            ((∃ version, call.status = .noResults version) ∨ call.status = .softError ∨
              call.status = .hardError) ∧ ((∀ statement, call.failures statement = none) →
              ∃ version, call.status = .noResults version))) := by
  have held : Consistent final ∧ Charged events start.recdocPayments final.recdocPayments := by
    refine run.invariantWithHistory (fun history tables => Consistent tables ∧
        Charged history start.recdocPayments tables.recdocPayments)
      ⟨consistent_of_empty empty, .refl _⟩ ?_
    intro history tables call next before step
    exact ⟨before.1.step step, before.2.step step⟩
  obtain ⟨consistent, charged⟩ := held
  refine ⟨consistent.versioned, charged, ?_⟩
  intro call next step
  refine ⟨?_, ?_, ?_⟩
  · intro version status
    have outcome := storeStep_outcome step
    rw [status] at outcome
    exact outcome.documents
  · intro refused
    obtain ⟨version, status, _⟩ | ⟨_, same⟩ := storeStep_cases step
    · rw [StoreCall.stores, status] at refused
      cases refused
    · exact same
  · intro room
    refine ⟨?_, ?_⟩
    · intro version status
      have outcome := storeStep_outcome step
      rw [status] at outcome
      obtain ⟨_, latest, found, same, _⟩ := outcome
      exact (consistent.newestHas room).mpr ⟨latest, found, same⟩
    · intro newest
      obtain ⟨latest, found, same⟩ := (consistent.newestHas room).mp newest
      refine ⟨storeStep_identical step found same, fun undisturbed => ⟨latest.version, ?_⟩⟩
      rw [← step.1]
      exact storeRecoveryDocument_undisturbed undisturbed found same

def samplePayment (postCounter : Nat) : RecdocPayment where
  userId := zeroBlock 32
  postCounter := postCounter
  amount := 1
  paymentIdentifier := zeroBlock 32
  creationDate := 0
  paid := true

def paidAccount : Tables where
  users := [{ userId := zeroBlock 32, expirationDate := years }]
  recdocPayments := [samplePayment 2]
  recoveryDocuments := []
  truthPayments := []
  truths := []

def sampleUpload : DocumentUpload where
  accountPub := zeroBlock 32
  accountSig := zeroBlock 64
  recoveryDataHash := zeroBlock 64
  recoveryData := [1]
  paymentSecret := zeroBlock 32

def paidAccountStored : Tables :=
  { paidAccount with
    recdocPayments := [samplePayment 1], recoveryDocuments := [sampleUpload.document 1] }

def firstCall : StoreCall :=
  { upload := sampleUpload, failures := fun _ => none, status := .success 1 }

theorem firstCall_step : storeStep paidAccount firstCall paidAccountStored :=
  ⟨by decide +kernel, by decide +kernel⟩

theorem storeRecoveryDocument_run_first : Versioned (paidAccountStored.documentsOf (zeroBlock 32)) ∧
      Charged [firstCall] paidAccount.recdocPayments paidAccountStored.recdocPayments :=
  have all := storeRecoveryDocument_run rfl (Run.start.next firstCall_step)
  ⟨all.1 _, all.2.1⟩

/-- The document is the newest one already, but the database fails before it is compared. -/
theorem disturbed_call_fails : ∃ final call next,
    Run storeStep paidAccount [firstCall] final ∧ storeStep final call next ∧
      NewestHas final call.upload ∧ ¬ ∃ version, call.status = .noResults version := by
  refine ⟨paidAccountStored,
    { upload := sampleUpload, failures := fun _ => some .hard, status := .hardError },
    paidAccountStored, Run.start.next firstCall_step, ⟨by decide +kernel, by decide +kernel⟩,
    ⟨sampleUpload.document 1, by decide +kernel, rfl⟩, ?_⟩
  rintro ⟨version, status⟩
  cases status

end Anastasis.Stasis
