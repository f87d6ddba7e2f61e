import Mathlib.Data.List.Nodup
import Anastasis.Stasis.DocumentVersions

/-! Recovery documents as they are read back, by their version or as the latest one. -/

set_option autoImplicit false

namespace Anastasis.Stasis

open Library Library.Transition List

variable {start mid next final : Tables} {events more : List StoreCall} {call : StoreCall}
  {version : UInt32}

def latestRecoverydocumentSelect (userId : AccountPublicKey) (tables : Tables) :
    List RecoveryDocument :=
  (greatestVersion (tables.documentsOf userId)).toList

def recoverydocumentSelect (userId : AccountPublicKey) (version : UInt32) (tables : Tables) :
    List RecoveryDocument :=
  (tables.documentsOf userId).filter (·.version = version)

def getLatestRecoveryDocument (failure : Option Failure) (accountPub : AccountPublicKey)
    (tables : Tables) : Selection RecoveryDocument :=
  .of failure (latestRecoverydocumentSelect accountPub tables)

def getRecoveryDocument (failure : Option Failure) (accountPub : AccountPublicKey)
    (version : UInt32) (tables : Tables) : Selection RecoveryDocument :=
  .of failure (recoverydocumentSelect accountPub version tables)

/-- Documents are told apart by their versions. -/
theorem Versioned.filter_version {old later : List RecoveryDocument} {document : RecoveryDocument}
    (versioned : Versioned (old ++ document :: later)) :
    (old ++ document :: later).filter (·.version = document.version) = [document] := by
  have unique : ((old ++ document :: later).map (·.version)).Nodup := by
    rw [versioned.versions]
    refine Nodup.map_on (fun i isIn j isIn' eq => ?_) nodup_range
    have bounded := versioned.bounded
    have numbers := congrArg UInt32.toNat eq
    simp only [UInt32.toNat_ofNat', mem_range] at numbers isIn isIn'
    omega
  rw [map_append, map_cons, nodup_append, nodup_cons] at unique
  obtain ⟨_, ⟨notLater, _⟩, apart⟩ := unique
  rw [filter_append, filter_cons_of_pos (by simp), filter_eq_nil_iff.mpr, filter_eq_nil_iff.mpr]
  · rfl
  · intro other isIn same
    exact notLater (of_decide_eq_true same ▸ mem_map_of_mem isIn)
  · intro other isIn same
    exact apart _ (mem_map_of_mem isIn) _ mem_cons_self (of_decide_eq_true same)

/-- Later calls only add documents, and none to an account that nobody stores for. -/
theorem run_documents (run : Run storeStep next more final) (account : AccountPublicKey) :
    ∃ added, final.documentsOf account = next.documentsOf account ++ added ∧
      ((∀ other ∈ more, other.stores = true → other.upload.accountPub ≠ account) →
        added = []) := by
  refine run.invariantWithHistory (fun history tables => ∃ added,
    tables.documentsOf account = next.documentsOf account ++ added ∧
      ((∀ other ∈ history, other.stores = true → other.upload.accountPub ≠ account) →
        added = [])) ⟨[], (append_nil _).symm, fun _ => rfl⟩ ?_
  rintro history tables call after ⟨added, split, quiet⟩ step
  obtain ⟨ver, status, stored⟩ | ⟨_, rfl⟩ := storeStep_cases step
  · refine ⟨_, by rw [stored.documentsOf, split, append_assoc], fun others => ?_⟩
    have elsewhere :=
      others call (mem_append_right _ mem_cons_self) (by rw [StoreCall.stores, status])
    rw [quiet fun other isIn => others other (mem_append_left _ isIn), if_neg elsewhere]
    rfl
  · exact ⟨added, split,
      fun others => quiet fun other isIn => others other (mem_append_left _ isIn)⟩

/-- A stored document is read back under its version for ever, and as the latest one until the
next is stored for its account, as long as the version fits into the column. -/
theorem stored_documents_read (empty : start.recoveryDocuments = [])
    (run : Run storeStep start events mid) (step : storeStep mid call next)
    (stored : call.status = .success version) (later : Run storeStep next more final) :
    getRecoveryDocument none call.upload.accountPub version final =
        .oneResult (call.upload.document version) ∧
      ((∀ other ∈ more, other.stores = true →
          other.upload.accountPub ≠ call.upload.accountPub) → version.toNat < 2 ^ 31 →
        getLatestRecoveryDocument none call.upload.accountPub final =
          .oneResult (call.upload.document version)) := by
  have keeps := fun tables call next (consistent : Consistent tables) step =>
    @Consistent.step tables next call consistent step
  have before := run.invariant Consistent (consistent_of_empty empty) keeps
  have consistent := later.invariant Consistent (before.step step) keeps
  obtain ⟨added, split, quiet⟩ := run_documents later call.upload.accountPub
  obtain ⟨ver, status, isStored⟩ | ⟨refused, _⟩ := storeStep_cases step
  · cases StoreStatus.success.inj (stored.symm.trans status)
    have versioned := consistent.versioned call.upload.accountPub
    rw [isStored.documentsOf, if_pos rfl, append_assoc, singleton_append] at split
    rw [split] at versioned
    constructor
    · rw [getRecoveryDocument, recoverydocumentSelect, split]
      exact congrArg (Selection.of none) versioned.filter_version
    intro others small
    obtain ⟨room, number, _⟩ := isStored.version_eq before
    rw [quiet others] at split versioned
    rw [number, UInt32.toNat_ofNat', Nat.mod_eq_of_lt (by omega)] at small
    rw [getLatestRecoveryDocument, latestRecoverydocumentSelect, split, versioned.argmax_last small]
    rfl
  · rw [StoreCall.stores, stored] at refused
    cases refused

theorem stored_documents_read_first :
    getRecoveryDocument none (zeroBlock 32) 1 paidAccountStored =
        .oneResult (sampleUpload.document 1) ∧
      getLatestRecoveryDocument none (zeroBlock 32) paidAccountStored =
        .oneResult (sampleUpload.document 1) :=
  have all := stored_documents_read rfl .start firstCall_step rfl .start
  ⟨all.1, all.2 (fun _ isIn => absurd isIn not_mem_nil) (by decide)⟩

end Anastasis.Stasis
