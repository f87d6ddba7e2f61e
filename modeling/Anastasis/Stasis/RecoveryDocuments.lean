import Anastasis.Library.Transition
import Anastasis.Stasis.Tables

/-! Storing recovery documents: the versions of an account and the uploads that a payment
is good for. -/

set_option autoImplicit false

namespace Anastasis.Stasis

open Library Library.Statements

inductive StoreStatus where
  | success (version : UInt32)
  | noResults (version : UInt32)
  | paymentRequired
  | storeLimitExceeded
  | softError
  | hardError
deriving DecidableEq

structure DocumentUpload where
  accountPub : AccountPublicKey
  accountSig : AccountSignature
  recoveryDataHash : HashCode
  recoveryData : Bytes
  paymentSecret : PaymentSecret

/-- The version that follows the latest document of the account, unless that document is
the one to be stored. -/
def nextVersion (upload : DocumentUpload) : Statements Tables StoreStatus UInt32 := do
  match ← select (latestRecoveryVersionSelect upload.accountPub) with
  | .failed .hard => abandon .hardError
  | .failed .soft => retry
  | .noResults => return 1
  | .oneResult latest =>
    if latest.recoveryDataHash = upload.recoveryDataHash then
      abandon (.noResults latest.version)
    else return latest.version + 1

def requireAccount (upload : DocumentUpload) : Statements Tables StoreStatus Unit := do
  match ← select (userSelect upload.accountPub) with
  | .failed .hard => abandon .hardError
  | .failed .soft => retry
  | .noResults => abandon .paymentRequired
  | .oneResult _ => return ()

def requireUploads (upload : DocumentUpload) : Statements Tables StoreStatus Nat := do
  match ← select (postcounterSelect upload.accountPub upload.paymentSecret) with
  | .failed .hard => abandon .hardError
  | .failed .soft => retry
  | .noResults => abandon .hardError
  | .oneResult postcounter =>
    if postcounter = 0 then abandon .storeLimitExceeded else return postcounter

def chargeUpload (upload : DocumentUpload) (postcounter : Nat) :
    Statements Tables StoreStatus Unit := do
  match ← change (postcounterUpdate (postcounter - 1) upload.accountPub upload.paymentSecret) with
  | .failed .hard => abandon .hardError
  | .failed .soft => retry
  | .rows 1 => return ()
  | .rows _ => abandon .hardError

def DocumentUpload.document (upload : DocumentUpload) (version : UInt32) : RecoveryDocument :=
  { userId := upload.accountPub, version := version, accountSig := upload.accountSig,
    recoveryDataHash := upload.recoveryDataHash, recoveryData := upload.recoveryData }

def insertDocument (upload : DocumentUpload) (version : UInt32) :
    Statements Tables StoreStatus StoreStatus := do
  match ← change (recoveryDocumentInsert (upload.document version)) with
  | .failed .hard => abandon .hardError
  | .failed .soft => retry
  | .rows 0 => abandon .hardError
  | .rows 1 =>
    match ← commitTransaction with
    | some .soft => retry
    | some .hard => leave .hardError
    | none => return .success version
  | .rows _ => retry

def storeAttempt (upload : DocumentUpload) : Statements Tables StoreStatus StoreStatus := do
  inTransaction .hardError
  let version ← nextVersion upload
  requireAccount upload
  let postcounter ← requireUploads upload
  chargeUpload upload postcounter
  insertDocument upload version

def storeRecoveryDocument (upload : DocumentUpload) :
    Connection Tables → StoreStatus × Connection Tables :=
  transact .softError (storeAttempt upload) maxRetries

/-- What the database answers about the latest document: none, or one with another hash. -/
def Follows (upload : DocumentUpload) (before : Tables) (version : UInt32) : Prop :=
  (latestRecoveryVersionSelect upload.accountPub before = [] ∧ version = 1) ∨
    ∃ latest, latestRecoveryVersionSelect upload.accountPub before = [latest] ∧
      latest.recoveryDataHash ≠ upload.recoveryDataHash ∧ version = latest.version + 1

def DocumentUpload.charges (upload : DocumentUpload) (payment : RecdocPayment) : Bool :=
  payment.userId = upload.accountPub ∧ payment.paymentIdentifier = upload.paymentSecret

/-- The document was stored as the next version and charged to its payment. -/
structure Stored (upload : DocumentUpload) (before : Tables) (version : UInt32)
    (after : Tables) : Prop where
  follows : Follows upload before version
  known : before.hasUser upload.accountPub = true
  free : ∀ document ∈ before.documentsOf upload.accountPub, document.version ≠ version
  charged : ∃ postcounter,
    postcounterSelect upload.accountPub upload.paymentSecret before = [postcounter + 1] ∧
      after.recdocPayments = before.recdocPayments.map fun payment =>
        if upload.charges payment then { payment with postCounter := postcounter } else payment
  documents : after.recoveryDocuments = before.recoveryDocuments ++ [upload.document version]
  others : after = { before with
    recdocPayments := after.recdocPayments, recoveryDocuments := after.recoveryDocuments }

def StoreOutcome (upload : DocumentUpload) (before : Tables) (after : Tables) :
    StoreStatus → Prop
  | .success version => Stored upload before version after
  | .noResults version => after = before ∧
      ∃ latest, latestRecoveryVersionSelect upload.accountPub before = [latest] ∧
        latest.recoveryDataHash = upload.recoveryDataHash ∧ version = latest.version
  | .paymentRequired => after = before ∧ ∃ version, Follows upload before version
  | .storeLimitExceeded => after = before ∧ ∃ version, Follows upload before version
  | .softError => after = before
  | .hardError => after = before

/-- The same, of the connection that the call or one of its attempts leaves behind. -/
def StorePost (upload : DocumentUpload) (before : Tables) (status : StoreStatus)
    (final : Connection Tables) : Prop :=
  StoreOutcome upload before final.committed status

section Attempt

open Effect

variable {upload : DocumentUpload} {before pre : Tables} {conn : Connection Tables}

theorem nextVersion_ensures (holds : conn.At pre (some pre)) : Ensures (nextVersion upload) conn
      (fun ver next => next.At pre (some pre) ∧ Follows upload pre ver)
      (Exit.Meets (StorePost upload pre) pre) := by
  unfold nextVersion
  refine ensures_bind.mpr (ensures_select holds ?failed ?noResults ?oneResult)
  case failed =>
    intro failure next held
    cases failure with
    | soft => exact held.committed
    | hard => exact ensures_abandon held fun fin gone => gone.committed
  case noResults =>
    intro none next held
    exact ⟨held, .inl ⟨none, rfl⟩⟩
  case oneResult =>
    intro latest h next held
    by_cases eq : latest.recoveryDataHash = upload.recoveryDataHash
    · simp only [eq, if_true]
      exact ensures_abandon held fun fin gone =>
        ⟨gone.committed, latest, h, eq, rfl⟩
    · simp only [eq, if_false]
      exact ⟨held, .inr ⟨latest, h, eq, rfl⟩⟩

theorem requireAccount_ensures (holds : conn.At before (some before))
    {ver : UInt32} (follows : Follows upload before ver) : Ensures (requireAccount upload) conn
      (fun _ next => next.At before (some before) ∧ before.hasUser upload.accountPub = true)
      (Exit.Meets (StorePost upload before) before) := by
  unfold requireAccount
  refine ensures_bind.mpr (ensures_select holds ?failed ?noResults ?oneResult)
  case failed =>
    intro failure next held
    cases failure with
    | soft => exact held.committed
    | hard => exact ensures_abandon held fun fin gone => gone.committed
  case noResults =>
    intro none next held
    exact ensures_abandon held fun fin gone => ⟨gone.committed, ver, follows⟩
  case oneResult =>
    intro exp h next held
    refine ⟨held, ?_⟩
    have mem : exp ∈ userSelect upload.accountPub before := by
      rw [show userSelect upload.accountPub before = [exp] from h]
      exact List.mem_singleton_self exp
    simp only [userSelect, List.mem_map, List.mem_filter] at mem
    obtain ⟨user, ⟨present, eq⟩, _⟩ := mem
    exact List.any_eq_true.mpr ⟨user, present, eq⟩

theorem requireUploads_ensures (holds : conn.At pre (some pre))
    {ver : UInt32} (follows : Follows upload pre ver) : Ensures (requireUploads upload) conn
      (fun postcounter next => next.At pre (some pre) ∧ 0 < postcounter ∧
        postcounterSelect upload.accountPub upload.paymentSecret pre = [postcounter])
      (Exit.Meets (StorePost upload pre) pre) := by
  unfold requireUploads
  refine ensures_bind.mpr (ensures_select holds ?failed ?noResults ?oneResult)
  case failed =>
    intro failure next held
    cases failure with
    | soft => exact held.committed
    | hard => exact ensures_abandon held fun fin gone => gone.committed
  case noResults =>
    intro none next held
    exact ensures_abandon held fun fin gone => gone.committed
  case oneResult =>
    intro postcounter h next held
    by_cases spent : postcounter = 0
    · simp only [spent, if_true]
      exact ensures_abandon held fun fin gone => ⟨gone.committed, ver, follows⟩
    · simp only [spent, if_false]
      exact ⟨held, Nat.pos_of_ne_zero spent, h⟩

def charge (upload : DocumentUpload) (before : Tables) (postcounter : Nat) : Tables :=
  { before with
    recdocPayments := before.recdocPayments.map fun payment =>
      if upload.charges payment then { payment with postCounter := postcounter } else payment }

theorem postcounterUpdate_eq (postcounter : Nat) :
    postcounterUpdate postcounter upload.accountPub upload.paymentSecret pre =
      .ok (pre.recdocPayments.countP upload.charges, charge upload pre postcounter) := by
  simp only [postcounterUpdate, charge, DocumentUpload.charges, decide_eq_true_eq]
  rfl

theorem chargeUpload_ensures (holds : conn.At pre (some pre)) (postcounter : Nat) :
    Ensures (chargeUpload upload postcounter) conn
      (fun _ next => next.At pre (some (charge upload pre (postcounter - 1))))
      (Exit.Meets (StorePost upload pre) pre) := by
  unfold chargeUpload
  refine ensures_bind.mpr (ensures_change holds ?failed ?changed)
  case failed =>
    intro failure next held
    cases failure with
    | soft => exact held.committed
    | hard => exact ensures_abandon held fun fin gone => gone.committed
  case changed =>
    intro count tb updated next held
    rw [postcounterUpdate_eq] at updated
    cases updated
    generalize pre.recdocPayments.countP upload.charges = count
    match count with
    | 0 => exact ensures_abandon held fun fin gone => gone.committed
    | 1 => exact held
    | _ + 2 => exact ensures_abandon held fun fin gone => gone.committed

theorem recoveryDocumentInsert_eq {working : Tables} {document : RecoveryDocument} {count : Nat}
    {tb : Tables} (inserted : recoveryDocumentInsert document working = .ok (count, tb)) :
    (count = 0 ∧ tb = working) ∨ (count = 1 ∧ (∀ y ∈ working.documentsOf document.userId,
          y.version ≠ document.version) ∧
        tb = { working with recoveryDocuments := working.recoveryDocuments ++ [document] }) := by
  unfold recoveryDocumentInsert at inserted
  split at inserted
  · cases inserted
  split at inserted
  · cases inserted
    exact .inl ⟨rfl, rfl⟩
  rename_i free
  cases inserted
  refine .inr ⟨rfl, ?_, rfl⟩
  simpa using free

theorem insertDocument_ensures {working : Tables} {ver : UInt32}
    (holds : conn.At pre (some working))
    (stored : (∀ document ∈ working.documentsOf upload.accountPub, document.version ≠ ver) →
      Stored upload pre ver { working with
        recoveryDocuments := working.recoveryDocuments ++ [upload.document ver] }) :
    Ensures (insertDocument upload ver) conn (StorePost upload pre)
      (Exit.Meets (StorePost upload pre) pre) := by
  unfold insertDocument
  refine ensures_bind.mpr (ensures_change holds ?failed ?changed)
  case failed =>
    intro failure next held
    cases failure with
    | soft => exact held.committed
    | hard => exact ensures_abandon held fun fin gone => gone.committed
  case changed =>
    intro count tb inserted next held
    obtain ⟨rfl, rfl⟩ | ⟨rfl, free, rfl⟩ := recoveryDocumentInsert_eq inserted
    · exact ensures_abandon held fun fin gone => gone.committed
    refine ensures_bind.mpr (ensures_commitTransaction held ?_ ?_)
    · intro failure fin gone
      cases failure with
      | soft => exact gone.committed
      | hard => exact gone.committed
    intro fin done
    have committed : fin.committed = _ := done.committed
    change Stored upload pre ver fin.committed
    rw [committed]
    exact stored free

theorem storeAttempt_ensures (eq : conn.committed = pre) : Ensures (storeAttempt upload) conn
      (StorePost upload pre) (Exit.Meets (StorePost upload pre) pre) := by
  unfold storeAttempt
  refine ensures_bind.mpr (ensures_inTransaction eq ?_ ?_)
  · intro x st
    refine (nextVersion_ensures st).bind ?_
    intro ver y ⟨held, follows⟩
    refine (requireAccount_ensures held follows).bind ?_
    intro _ third ⟨held, known⟩
    refine (requireUploads_ensures held follows).bind ?_
    intro postcounter fourth ⟨held, positive, h⟩
    refine (chargeUpload_ensures held postcounter).bind ?_
    intro _ fifth held
    refine insertDocument_ensures held fun free => ?_
    exact {
      follows := follows
      known := known
      free := free
      charged := ⟨postcounter - 1, by rw [h, Nat.sub_add_cancel positive], rfl⟩
      documents := rfl
      others := rfl }
  · intro next held
    exact held.committed

theorem storeRecoveryDocument_outcome (holds : conn.At pre none) :
    StorePost upload pre (storeRecoveryDocument upload conn).1
      (storeRecoveryDocument upload conn).2 := by
  have exhausted : ∀ final : Connection Tables, final.At pre none →
      StorePost upload pre .softError final := fun final held => held.committed
  exact transact_ensures (fun start held => storeAttempt_ensures held.committed) exhausted
    maxRetries conn holds

end Attempt

end Anastasis.Stasis
