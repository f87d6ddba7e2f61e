import Anastasis.Wallet.ReserveProcessing

/-! The states that a reserve runs through, and how many steps a call takes. -/

set_option autoImplicit false

namespace Anastasis.Wallet.Processing

open Library Library.Transition List Option

inductive Moves : ReserveStatus → ReserveStatus → Prop where
  | stays {status : ReserveStatus} : Moves status status
  | registers : Moves .registeringBank .waitConfirmBank
  | confirms {status : ReserveStatus} :
      ReserveStatus.pending status = true → Moves status .queryingStatus
  | aborts {status : ReserveStatus} : ReserveStatus.pending status = true → Moves status .bankAborted
  | settles : Moves .queryingStatus .dormant

/-- How far a reserve has come; a requested query does not take it back. -/
def stage : Option ReserveStatus → Nat
  | none => 0
  | some .registeringBank => 1
  | some .waitConfirmBank => 2
  | some .queryingStatus => 3
  | some .dormant => 3
  | some .bankAborted => 4

def Point.Follows (status : Option ReserveStatus) : Point → Prop
  | .resetReserveRetry read => stage (some read) ≤ stage status
  | .bankStatusRequest read => ReserveStatus.pending read ∧ stage (some read) ≤ stage status
  | .bankAborted | .registerReserveWithBank | .registerRequest | .registered => 1 ≤ stage status
  | .bankConfirmed _ => 2 ≤ stage status
  | .updateReserve => 3 ≤ stage status
  | .reserveRequest | .reserveUnknown | .reserveUpdated _ | .processWithdrawGroup => stage status = 3
  | _ => True

structure Control.Follows (status : Option ReserveStatus) (control : Control) : Prop where
  point : control.point.Follows status
  frames : control.andThen ≠ [] → 1 ≤ stage status ∧ control.point ≠ .processReserveImpl false

/-! The steps that a call still takes at most, if nothing is unselected and no query requested. -/

def implCost : Option ReserveStatus → Nat
  | none | some .registeringBank => 40
  | some .waitConfirmBank => 20
  | some .queryingStatus => 12
  | some .dormant | some .bankAborted => 2

def registerCost : Option ReserveStatus → Nat
  | none | some .registeringBank => 8
  | _ => 0

def Frame.cost : Frame → Nat
  | .processReserveImpl => 20
  | .processReserveBankStatus => 3

def dispatchCost (status : Option ReserveStatus) : ReserveStatus → Nat
  | .registeringBank => 3 + registerCost status + Frame.cost .processReserveImpl
  | .waitConfirmBank => 3
  | .queryingStatus => 6
  | .dormant | .bankAborted => 0

def Point.cost (status : Option ReserveStatus) : Point → Nat
  | .processReserveImpl _ => implCost status
  | .resetReserveRetry read => 1 + dispatchCost status read
  | .processReserveBankStatus => 3 + registerCost status
  | .bankStatusRequest .registeringBank => 10
  | .bankStatusRequest _ => 2
  | .bankAborted | .bankConfirmed _ => 1
  | .registerReserveWithBank => 6
  | .registerRequest => 5
  | .registered => 4
  | .updateReserve => 6
  | .reserveRequest => 5
  | .reserveUpdated _ => 4
  | .reserveUnknown => 1
  | .processWithdrawGroup => 1 + implCost status
  | .failed _ => 1
  | .finished => 0

def Control.cost (status : Option ReserveStatus) (control : Control) : Nat :=
  control.point.cost status + (control.andThen.map Frame.cost).sum

section Moves

variable {before pre after : ReserveStatus}

theorem pending_cases {st : ReserveStatus} (due : ReserveStatus.pending st = true) :
    st = .registeringBank ∨ st = .waitConfirmBank := by
  cases st with
  | registeringBank => exact .inl rfl
  | waitConfirmBank => exact .inr rfl
  | _ => cases due

theorem Moves.stage_le (moves : Moves pre after) : stage (some pre) ≤ stage (some after) := by
  cases moves with
  | stays => exact Nat.le_refl _
  | registers => decide
  | confirms due => rcases pending_cases due with rfl | rfl <;> decide
  | aborts due => rcases pending_cases due with rfl | rfl <;> decide
  | settles => decide

theorem Moves.stage_eq (moves : Moves pre after) (queried : stage (some pre) = 3) :
    stage (some after) = 3 := by
  cases moves with
  | stays => exact queried
  | registers => cases queried
  | confirms => rfl
  | aborts due => rcases pending_cases due with rfl | rfl <;> cases queried
  | settles => rfl

theorem Moves.implCost_le (moves : Moves pre after) :
    implCost (some after) ≤ implCost (some pre) := by
  cases moves with
  | stays => exact Nat.le_refl _
  | registers => decide
  | confirms due => rcases pending_cases due with rfl | rfl <;> decide
  | aborts due => rcases pending_cases due with rfl | rfl <;> decide
  | settles => decide

theorem Moves.registerCost_le (moves : Moves pre after) :
    registerCost (some after) ≤ registerCost (some pre) := by
  cases moves with
  | stays => exact Nat.le_refl _
  | registers => decide
  | confirms due => rcases pending_cases due with rfl | rfl <;> decide
  | aborts due => rcases pending_cases due with rfl | rfl <;> decide
  | settles => decide

end Moves

section Control

variable {before pre after : Option ReserveStatus} {control : Control}

theorem Point.Follows.mono {pt : Point} (follows : pt.Follows pre)
    (later : stage pre ≤ stage after) (queried : stage pre = 3 → stage after = 3) :
    pt.Follows after := by
  cases pt with
  | resetReserveRetry read => exact Nat.le_trans follows later
  | bankStatusRequest read => exact ⟨follows.1, Nat.le_trans follows.2 later⟩
  | bankAborted => exact Nat.le_trans follows later
  | registerReserveWithBank => exact Nat.le_trans follows later
  | registerRequest => exact Nat.le_trans follows later
  | registered => exact Nat.le_trans follows later
  | bankConfirmed st => exact Nat.le_trans follows later
  | updateReserve => exact Nat.le_trans follows later
  | reserveRequest => exact queried follows
  | reserveUnknown => exact queried follows
  | reserveUpdated selects => exact queried follows
  | processWithdrawGroup => exact queried follows
  | _ => trivial

theorem Control.Follows.mono (follows : control.Follows pre)
    (later : stage pre ≤ stage after) (queried : stage pre = 3 → stage after = 3) :
    control.Follows after := by
  refine ⟨follows.point.mono later queried, ?_⟩
  intro frames
  obtain ⟨has, notFirst⟩ := follows.frames frames
  exact ⟨Nat.le_trans has later, notFirst⟩

theorem dispatchCost_le {read : ReserveStatus}
    (register : registerCost after ≤ registerCost before) :
    dispatchCost after read ≤ dispatchCost before read := by
  cases read with
  | registeringBank =>
    exact Nat.add_le_add_right (Nat.add_le_add_left register 3) (Frame.cost .processReserveImpl)
  | _ => exact Nat.le_refl _

theorem Control.cost_le {more : Nat} (impl : implCost after ≤ implCost before + more)
    (register : registerCost after ≤ registerCost before) :
    control.cost after ≤ control.cost before + more := by
  obtain ⟨pt, andThen⟩ := control
  have pointCost : pt.cost after ≤ pt.cost before + more := by
    cases pt with
    | processReserveImpl forceNow => exact impl
    | resetReserveRetry read =>
      have dispatched : dispatchCost after read ≤ dispatchCost before read :=
        dispatchCost_le register
      simp only [Point.cost]
      omega
    | processReserveBankStatus =>
      simp only [Point.cost]
      omega
    | processWithdrawGroup =>
      simp only [Point.cost]
      omega
    | bankStatusRequest read =>
      cases read <;> exact Nat.le_add_right _ _
    | _ => exact Nat.le_add_right _ _
  simp only [Control.cost]
  omega

theorem Control.returned_cost {st : Option ReserveStatus} {andThen : List Frame}
    (has : andThen ≠ [] → 2 ≤ stage st) :
    (Control.returned andThen).cost st ≤ (andThen.map Frame.cost).sum := by
  cases andThen with
  | nil => exact Nat.le_refl 0
  | cons frame rest =>
    have far := has nofun
    have costs : implCost st ≤ 20 ∧ registerCost st = 0 := by
      cases st with
      | none => cases far
      | some st =>
        cases st with
        | registeringBank => exact absurd far (by decide)
        | _ => decide
    cases frame with
    | processReserveImpl =>
      simp only [Control.returned, Control.cost, Point.cost, map_cons, sum_cons, Frame.cost]
      omega
    | processReserveBankStatus =>
      simp only [Control.returned, Control.cost, Point.cost, map_cons, sum_cons, Frame.cost]
      omega

theorem Control.returned_follows {status : Option ReserveStatus} {andThen : List Frame}
    (has : andThen ≠ [] → 1 ≤ stage status) : (Control.returned andThen).Follows status := by
  cases andThen with
  | nil => exact ⟨trivial, fun frames => absurd rfl frames⟩
  | cons frame rest =>
    have exists_ := has nofun
    cases frame with
    | processReserveImpl => exact ⟨trivial, fun _ => ⟨exists_, nofun⟩⟩
    | processReserveBankStatus => exact ⟨trivial, fun _ => ⟨exists_, nofun⟩⟩

end Control

section Records

/-- What a transaction of a call does to the record of a reserve. -/
structure Follow (before after : Reserve) : Prop where
  reservePub : after.reservePub = before.reservePub
  statusUrl : after.bankInfo.map Backup.ReserveBankInfo.statusUrl =
    before.bankInfo.map Backup.ReserveBankInfo.statusUrl
  moves : Moves before.reserveStatus after.reserveStatus

theorem Follow.refl (r : Reserve) : Follow r r := ⟨rfl, rfl, .stays⟩

variable (now : Nat) (r : Reserve)

theorem resetRetry_follow : Follow r (Reserve.resetRetry now r) := ⟨rfl, rfl, .stays⟩

theorem incrementRetry_follow (err : Option String) : Follow r (Reserve.incrementRetry r err) :=
  ⟨rfl, rfl, .stays⟩

theorem abort_follow : Follow r (Reserve.abort now r) := by
  rw [Reserve.abort]
  split
  next due => exact ⟨rfl, rfl, .aborts due⟩
  next => exact .refl r

theorem confirm_follow (st : WithdrawOperationStatus) :
    Follow r (Reserve.confirm now r st) := by
  rw [Reserve.confirm]
  split
  next =>
    split
    next due => exact ⟨rfl, rfl, .confirms due⟩
    next => exact .refl r
  next =>
    split
    next bankInfo isWaiting isBankInfo =>
      refine ⟨rfl, ?_, .stays⟩
      rw [isBankInfo]
      rfl
    next => exact .refl r

theorem register_follow : Follow r (Reserve.register now r) := by
  rw [Reserve.register]
  split
  next due =>
    refine ⟨rfl, rfl, ?_⟩
    rcases pending_cases due with isStatus | isStatus
    · rw [isStatus]
      exact .registers
    · rw [isStatus]
      exact .stays
  next => exact .refl r

theorem settle_follow (selects : Bool) (queried : stage (some r.reserveStatus) = 3) :
    Follow r (Reserve.settle now r selects) := by
  refine ⟨rfl, rfl, ?_⟩
  have moves : Moves r.reserveStatus .dormant := by
    cases st : r.reserveStatus with
    | queryingStatus => exact .settles
    | dormant => exact .stays
    | _ =>
      rw [st] at queried
      cases queried
  exact moves

theorem abort_done : ReserveStatus.pending (Reserve.abort now r).reserveStatus = false := by
  rw [Reserve.abort]
  split
  next => rfl
  next notPending => exact Bool.eq_false_iff.mpr notPending

theorem abort_dormant (dormant : (Reserve.abort now r).reserveStatus = .dormant) :
    r.reserveStatus = .dormant := by
  rw [Reserve.abort] at dormant
  split at dormant
  next => cases dormant
  next => exact dormant

theorem confirm_dormant (st : WithdrawOperationStatus)
    (dormant : (Reserve.confirm now r st).reserveStatus = .dormant) :
    r.reserveStatus = .dormant := by
  rw [Reserve.confirm] at dormant
  split at dormant
  next =>
    split at dormant
    next => cases dormant
    next => exact dormant
  next =>
    split at dormant
    next => exact dormant
    next => exact dormant

theorem register_dormant (dormant : (Reserve.register now r).reserveStatus = .dormant) :
    r.reserveStatus = .dormant := by
  rw [Reserve.register] at dormant
  split at dormant
  next => cases dormant
  next => exact dormant

theorem register_cost : registerCost (some (Reserve.register now r).reserveStatus) = 0 := by
  rw [Reserve.register]
  split
  next => rfl
  next notPending =>
    cases st : r.reserveStatus with
    | registeringBank =>
      rw [st] at notPending
      exact absurd rfl notPending
    | _ => rfl

theorem stage_of_not_pending {r : Reserve} (done : ReserveStatus.pending r.reserveStatus = false) :
    3 ≤ stage (some r.reserveStatus) := by
  cases st : r.reserveStatus with
  | registeringBank =>
    rw [st] at done
    cases done
  | waitConfirmBank =>
    rw [st] at done
    cases done
  | _ => decide

def Registrable (r : Reserve) : Prop :=
  ReserveStatus.pending r.reserveStatus = true →
    (given (r.bankInfo.map Backup.ReserveBankInfo.statusUrl)).isSome = true

theorem Moves.pending {pre after : ReserveStatus} (moves : Moves pre after)
    (due : ReserveStatus.pending after = true) : ReserveStatus.pending pre = true := by
  cases moves with
  | stays => exact due
  | registers => rfl
  | confirms => cases due
  | aborts => cases due
  | settles => cases due

theorem Registrable.follow {pre after : Reserve} (registrable : Registrable pre)
    (follow : Follow pre after) : Registrable after := by
  intro due
  rw [follow.statusUrl]
  exact registrable (follow.moves.pending due)

end Records

section Advance

def statusOf (record : Option Reserve) : Option ReserveStatus :=
  record.map Backup.ReserveRecord.reserveStatus

/-- Between the request for the status of the reserve and its transaction. -/
def Point.querying : Point → Bool
  | .reserveRequest | .reserveUpdated _ => true
  | _ => false

def Answer.charge : Answer → Nat
  | .bankStatus status => if status.unselected then 8 else 0
  | _ => 0

structure Advanced (record : Option Reserve) (control : Control) (answer : Answer)
    (record' : Option Reserve) (control' : Control) : Prop where
  kept : Option.Rel Follow record record'
  follows : control'.Follows (statusOf record')
  cost : control'.cost (statusOf record') + 1 ≤ control.cost (statusOf record) + answer.charge
  settles : ∀ r r', record = some r → record' = some r' → r'.reserveStatus = .dormant →
    r.reserveStatus = .dormant ∨ control.point.querying = true
  queries : control'.point.querying = true →
    control'.point = .reserveRequest ∨ control.point.querying = true

variable {record row : Option Reserve} {control control' : Control} {answer ans : Answer}

theorem Advanced.reads (follows : control'.Follows (statusOf row))
    (cost : control'.cost (statusOf row) + 1 ≤ control.cost (statusOf row) + ans.charge)
    (queries : control'.point.querying = true →
      control'.point = .reserveRequest ∨ control.point.querying = true) :
    Advanced row control ans row control' := by
  refine ⟨?_, follows, cost, ?_, queries⟩
  · cases row with
    | none => exact .none
    | some r => exact .some (.refl r)
  intro r r' isBefore isAfter dormant
  cases isBefore.symm.trans isAfter
  exact .inl dormant

theorem Advanced.writes {change : Reserve → Reserve} (follow : ∀ r, Follow r (change r))
    (dormant : ∀ r, (change r).reserveStatus = .dormant → r.reserveStatus = .dormant)
    (follows : control'.Follows (statusOf (row.map change)))
    (cost : control'.cost (statusOf (row.map change)) + 1 ≤
      control.cost (statusOf row) + ans.charge) (queries : control'.point.querying = true →
      control'.point = .reserveRequest ∨ control.point.querying = true) :
    Advanced row control ans (row.map change) control' := by
  refine ⟨?_, follows, cost, ?_, queries⟩
  · cases row with
    | none => exact .none
    | some r => exact .some (follow r)
  intro r r' isBefore isAfter isDormant
  rw [isBefore] at isAfter
  cases isAfter
  exact .inl (dormant r isDormant)

theorem returned_querying (andThen : List Frame) :
    (Control.returned andThen).point.querying = false := by
  cases andThen with
  | nil => rfl
  | cons frame rest => cases frame <;> rfl

theorem Control.returned_advanced {st : Option ReserveStatus} {andThen : List Frame}
    (far : andThen ≠ [] → 2 ≤ stage st) : (Control.returned andThen).Follows st ∧
      (Control.returned andThen).cost st ≤ (andThen.map Frame.cost).sum :=
  ⟨returned_follows fun frames => Nat.le_of_succ_le (far frames), returned_cost far⟩

/-- The cases of `processReserveImpl` after a status has been read. -/
theorem dispatch_advanced {status : Option ReserveStatus} {read : ReserveStatus}
    (andThen : List Frame) (has : stage (some read) ≤ stage status) :
    (dispatch read andThen).Follows status ∧ (dispatch read andThen).cost status ≤
        dispatchCost status read + (andThen.map Frame.cost).sum ∧
      (dispatch read andThen).point.querying = false := by
  have exists_ : 1 ≤ stage status := by
    refine Nat.le_trans ?_ has
    cases read <;> decide
  cases read with
  | registeringBank =>
    refine ⟨⟨trivial, fun _ => ⟨exists_, (by rintro ⟨⟩)⟩⟩, ?_, rfl⟩
    simp only [dispatch, Control.cost, Point.cost, dispatchCost, map_cons, sum_cons]
    omega
  | waitConfirmBank =>
    refine ⟨⟨trivial, fun _ => ⟨exists_, (by rintro ⟨⟩)⟩⟩, ?_, rfl⟩
    have registered : registerCost status = 0 := by
      cases status with
      | none => cases has
      | some status =>
        cases status with
        | registeringBank => exact absurd has (by decide)
        | _ => rfl
    simp only [dispatch, Control.cost, Point.cost, dispatchCost, registered]
    exact Nat.le_refl _
  | queryingStatus =>
    refine ⟨⟨has, fun _ => ⟨exists_, (by rintro ⟨⟩)⟩⟩, ?_, rfl⟩
    exact Nat.le_refl _
  | dormant =>
    have far : andThen ≠ [] → 2 ≤ stage status := fun _ => Nat.le_of_succ_le has
    obtain ⟨follows, cost⟩ := Control.returned_advanced far
    exact ⟨follows, by simpa [dispatch, dispatchCost] using cost, returned_querying andThen⟩
  | bankAborted =>
    have far : andThen ≠ [] → 2 ≤ stage status := fun _ => Nat.le_trans (by decide) has
    obtain ⟨follows, cost⟩ := Control.returned_advanced far
    exact ⟨follows, by simpa [dispatch, dispatchCost] using cost, returned_querying andThen⟩

theorem two_le_implCost (status : Option ReserveStatus) : 2 ≤ implCost status := by
  cases status with
  | none => decide
  | some status => cases status <;> decide

theorem implCost_le_forty (st : Option ReserveStatus) : implCost st ≤ 40 := by
  cases st with
  | none => decide
  | some st => cases st <;> decide

theorem two_le_cost_of_mayThrow {pt : Point} (throws : pt.mayThrow = true)
    (status : Option ReserveStatus) : 2 ≤ pt.cost status := by
  cases pt with
  | bankStatusRequest read => cases read <;> simp [Point.cost]
  | registerRequest => simp [Point.cost]
  | reserveRequest => simp [Point.cost]
  | processWithdrawGroup =>
    have impl := two_le_implCost status
    simp only [Point.cost]
    omega
  | _ => cases throws

/-- The calls that a returning one goes back to need a reserve that is known. -/
def FramesFollow (status : Option ReserveStatus) (point : Point) (andThen : List Frame) : Prop :=
  andThen ≠ [] → 1 ≤ stage status ∧ point ≠ .processReserveImpl false

theorem FramesFollow.nil {pt : Point} {andThen : List Frame}
    (frames : FramesFollow none pt andThen) : andThen = [] := by
  cases andThen with
  | nil => rfl
  | cons frame rest => exact absurd (frames nofun).1 (by decide)

section Goes

variable {point pt next : Point} {andThen : List Frame}

theorem Advanced.goes (frames : FramesFollow (statusOf row) point andThen)
    (knows : next.Follows (statusOf row)) (ne : next ≠ .processReserveImpl false)
    (cost : next.cost (statusOf row) + 1 ≤ point.cost (statusOf row) + ans.charge)
    (queries : next.querying = true → next = .reserveRequest ∨ point.querying = true) :
    Advanced row ⟨point, andThen⟩ ans row ⟨next, andThen⟩ := by
  refine .reads ⟨knows, fun notEmpty => ⟨(frames notEmpty).1, ne⟩⟩ ?_ queries
  simp only [Control.cost]
  omega

theorem Advanced.ends (knows : next.Follows (statusOf row)) (quiet : next.querying = false)
    (cost : next.cost (statusOf row) + 1 ≤ point.cost (statusOf row)) :
    Advanced row ⟨point, andThen⟩ ans row ⟨next, []⟩ := by
  refine .reads ⟨knows, fun notEmpty => absurd rfl notEmpty⟩ ?_ fun queries =>
    absurd (quiet.symm.trans queries) nofun
  simp only [Control.cost, map_nil, sum_nil]
  omega

theorem Advanced.returns (far : andThen ≠ [] → 2 ≤ stage (statusOf row))
    (cost : 1 ≤ point.cost (statusOf row)) :
    Advanced row ⟨point, andThen⟩ ans row (Control.returned andThen) := by
  obtain ⟨follows, less⟩ := Control.returned_advanced far
  refine .reads follows ?_ fun queries =>
    absurd ((returned_querying andThen).symm.trans queries) nofun
  simp only [Control.cost] at less ⊢
  omega

theorem Advanced.returnsWriting {change : Reserve → Reserve} (follow : ∀ r, Follow r (change r))
    (dormant : ∀ r, (change r).reserveStatus = .dormant → r.reserveStatus = .dormant)
    (far : andThen ≠ [] → 2 ≤ stage (statusOf (row.map change)))
    (cost : 1 ≤ pt.cost (statusOf row)) :
    Advanced row ⟨pt, andThen⟩ ans (row.map change) (Control.returned andThen) := by
  obtain ⟨follows, less⟩ := Control.returned_advanced far
  refine .writes follow dormant follows ?_ fun queries =>
    absurd ((returned_querying andThen).symm.trans queries) nofun
  simp only [Control.cost] at less ⊢
  omega

end Goes

/-- A call whose reserve is no longer pending returns. -/
theorem far_of_not_asking {rv : Reserve} (registrable : Registrable rv)
    (asksNot : ¬ (ReserveStatus.pending rv.reserveStatus = true ∧
      (given (rv.bankInfo.map Backup.ReserveBankInfo.statusUrl)).isSome = true)) :
    2 ≤ stage (statusOf (some rv)) := by
  have done : ReserveStatus.pending rv.reserveStatus = false := by
    by_contra due
    rw [Bool.not_eq_false] at due
    exact asksNot ⟨due, registrable due⟩
  exact Nat.le_of_succ_le (stage_of_not_pending done)

theorem advance_spec (registrable : ∀ r, record = some r → Registrable r)
    (follows : control.Follows (statusOf record)) {record' : Option Reserve}
    (ran : advance record control ans = some (record', control')) :
    Advanced record control ans record' control' := by
  obtain ⟨point, andThen⟩ := control
  obtain ⟨knows, frames⟩ := follows
  have frames : FramesFollow (statusOf record) point andThen := frames
  cases ans with
  | failure err =>
    rw [advance] at ran
    split at ran
    next throws =>
      cases ran
      exact .ends trivial rfl (two_le_cost_of_mayThrow throws _)
    next => cases ran
  | bankStatus status =>
    cases point with
    | bankStatusRequest read =>
      have exists_ : 1 ≤ stage (statusOf record) := by
        refine Nat.le_trans ?_ knows.2
        cases read <;> decide
      have paid : 2 ≤ Point.cost (statusOf record) (.bankStatusRequest read) :=
        two_le_cost_of_mayThrow rfl (statusOf record)
      simp only [advance] at ran
      split at ran
      next aborted =>
        cases ran
        exact .goes frames exists_ nofun (Nat.le_add_right_of_le paid) nofun
      next notAborted =>
      split at ran
      next selected =>
        cases ran
        have waiting : read = .waitConfirmBank := by
          rcases pending_cases knows.1 with isRead | isRead
          · exact absurd isRead selected.2
          · exact isRead
        have far := knows.2
        rw [waiting] at far
        exact .goes frames far nofun (Nat.le_add_right_of_le paid) nofun
      next notSelected =>
        cases ran
        refine .reads ⟨exists_, fun _ => ⟨exists_, nofun⟩⟩ ?_ nofun
        have costs : Point.cost (statusOf record) .registerReserveWithBank = 6 := rfl
        have frameCosts : Frame.cost .processReserveBankStatus = 3 := rfl
        -- either this is the registration, or nothing has been selected
        have charged : 10 ≤ Point.cost (statusOf record) (.bankStatusRequest read) +
            Answer.charge (.bankStatus status) := by
          rcases pending_cases knows.1 with isRead | isRead
          · rw [isRead]
            exact Nat.le_add_right 10 _
          have unselected : status.unselected = true := by
            simp only [WithdrawOperationStatus.unselected]
            simp_all
          rw [isRead, Answer.charge, if_pos unselected]
          exact Nat.le_refl 10
        simp only [Control.cost, costs, frameCosts, map_cons, sum_cons]
        omega
    | _ => cases ran
  | accepted =>
    cases point with
    | registerRequest =>
      cases ran
      exact .goes frames knows nofun (by simp only [Point.cost]; omega) nofun
    | _ => cases ran
  | reserveStatus selects =>
    cases point with
    | reserveRequest =>
      cases ran
      exact .goes frames knows nofun (by simp only [Point.cost]; omega) fun _ => .inr rfl
    | _ => cases ran
  | reserveUnknown =>
    cases point with
    | reserveRequest =>
      cases ran
      exact .goes frames knows nofun (by simp only [Point.cost]; omega) nofun
    | _ => cases ran
  | proceed now due =>
    cases point with
    | processReserveImpl forceNow =>
      cases record with
      | none =>
        cases ran
        cases frames.nil
        exact .ends trivial rfl (Nat.succ_le_succ (Nat.zero_le _))
      | some rv =>
        obtain ⟨follows, cost, quiet⟩ := dispatch_advanced andThen
          (Nat.le_refl (stage (some rv.reserveStatus)))
        have impl : dispatchCost (some rv.reserveStatus) rv.reserveStatus + 2 ≤
            implCost (some rv.reserveStatus) := by
          cases rv.reserveStatus <;> decide
        cases forceNow with
        | true =>
          cases ran
          refine .goes frames (Nat.le_refl _) nofun ?_ nofun
          simp only [Point.cost, statusOf, map_some]
          omega
        | false =>
          have none : andThen = [] := by
            by_contra notEmpty
            exact (frames notEmpty).2 rfl
          cases due with
          | true =>
            cases ran
            refine .reads follows ?_ fun queries => absurd (quiet.symm.trans queries) nofun
            simp only [Control.cost, Point.cost, statusOf, map_some] at cost ⊢
            omega
          | false =>
            cases ran
            subst none
            refine .ends trivial rfl ?_
            simp only [Point.cost, statusOf, map_some]
            omega
    | resetReserveRetry read =>
      cases ran
      have eq : statusOf (record.map (Reserve.resetRetry now)) = statusOf record := by
        cases record <;> rfl
      obtain ⟨follows, cost, quiet⟩ := dispatch_advanced andThen knows
      refine .writes (resetRetry_follow now) (fun _ dormant => dormant) (eq ▸ follows) ?_
        fun queries => absurd (quiet.symm.trans queries) nofun
      rw [eq]
      simp only [Control.cost, Point.cost] at cost ⊢
      omega
    | processReserveBankStatus =>
      cases record with
      | none =>
        cases ran
        cases frames.nil
        exact .ends trivial rfl (Nat.succ_le_succ (Nat.zero_le _))
      | some rv =>
        simp only [advance] at ran
        split at ran
        next asks =>
          cases ran
          refine .goes frames ⟨asks.1, Nat.le_refl _⟩ nofun ?_ nofun
          rcases pending_cases asks.1 with isStatus | isStatus <;>
            simp only [Point.cost, statusOf, map_some, isStatus, registerCost] <;> omega
        next asksNot =>
          cases ran
          exact .returns (fun _ => far_of_not_asking (registrable rv rfl) asksNot)
            (by simp only [Point.cost]; omega)
    | bankAborted =>
      cases ran
      have far : andThen ≠ [] → 2 ≤ stage (statusOf (record.map (Reserve.abort now))) := by
        intro _
        cases record with
        | none => exact absurd (show 1 ≤ 0 from knows) (by decide)
        | some r => exact Nat.le_of_succ_le (stage_of_not_pending (abort_done now r))
      exact .returnsWriting (abort_follow now) (abort_dormant now) far (Nat.le_refl 1)
    | bankConfirmed status =>
      cases ran
      have far : andThen ≠ [] →
          2 ≤ stage (statusOf (record.map fun r => Reserve.confirm now r status)) := by
        intro _
        cases record with
        | none => exact absurd (show 2 ≤ 0 from knows) (by decide)
        | some r => exact Nat.le_trans knows (confirm_follow now r status).moves.stage_le
      exact .returnsWriting (fun r => confirm_follow now r status)
        (fun r => confirm_dormant now r status) far (Nat.le_refl 1)
    | registerReserveWithBank =>
      cases record with
      | none => exact absurd (show 1 ≤ 0 from knows) (by decide)
      | some rv =>
        simp only [advance] at ran
        split at ran
        next asks =>
          cases ran
          exact .goes frames knows nofun (by simp only [Point.cost]; omega) nofun
        next asksNot =>
          cases ran
          refine .returns (fun _ => far_of_not_asking (registrable rv rfl) fun asks =>
            asksNot ⟨asks.1, ?_⟩) (by simp only [Point.cost]; omega)
          cases isBankInfo : rv.bankInfo with
          | none =>
            rw [isBankInfo] at asks
            cases asks.2
          | some bankInfo => rfl
    | registered =>
      cases record with
      | none => exact absurd (show 1 ≤ 0 from knows) (by decide)
      | some r =>
        simp only [advance] at ran
        split at ran
        next =>
          cases ran
          exact .ends trivial rfl (by simp only [Point.cost]; omega)
        next =>
          cases ran
          have follow := register_follow now r
          have known : 1 ≤ stage (statusOf (some (Reserve.register now r))) :=
            Nat.le_trans knows follow.moves.stage_le
          have registered := register_cost now r
          have writes : Advanced (some r) ⟨.registered, andThen⟩ (.proceed now due)
              ((some r).map (Reserve.register now)) ⟨.processReserveBankStatus, andThen⟩ := by
            refine .writes (register_follow now) (register_dormant now)
              ⟨trivial, fun _ => ⟨known, nofun⟩⟩ ?_ nofun
            simp only [Control.cost, Point.cost, statusOf, map_some, registered]
            omega
          exact writes
    | updateReserve =>
      cases record with
      | none => exact absurd (show 3 ≤ 0 from knows) (by decide)
      | some rv =>
        simp only [advance] at ran
        split at ran
        next queries =>
          cases ran
          refine .goes frames ?_ nofun (by simp only [Point.cost]; omega) fun _ => .inl rfl
          simp only [statusOf, map_some, queries]
          rfl
        next queriesNot =>
          cases ran
          refine .goes frames trivial nofun ?_ nofun
          have done : implCost (some rv.reserveStatus) = 2 := by
            cases status : rv.reserveStatus with
            | queryingStatus => exact absurd status queriesNot
            | dormant => rfl
            | bankAborted => rfl
            | _ =>
              simp only [Point.Follows, statusOf, map_some, status] at knows
              exact absurd knows (by decide)
          simp only [Point.cost, statusOf, map_some, done]
          omega
    | reserveUnknown =>
      cases ran
      refine .returnsWriting (fun r => incrementRetry_follow r none) (fun _ dormant => dormant)
        (fun _ => ?_) (by simp only [Point.cost]; omega)
      have queried : stage (statusOf record) = 3 := knows
      cases record with
      | none => cases queried
      | some r => exact Nat.le_of_succ_le (Nat.le_of_eq queried.symm)
    | reserveUpdated selects =>
      cases record with
      | none => exact absurd (show 0 = 3 from knows) (by decide)
      | some r =>
        have follow := settle_follow now r selects knows
        have known : 1 ≤ stage (some Backup.ReserveRecordStatus.dormant) := by decide
        cases selects with
        | true =>
          simp only [advance, isSome_some, and_self, if_true] at ran
          cases ran
          refine ⟨.some follow, ⟨rfl, fun _ => ⟨known, nofun⟩⟩, ?_, fun _ _ _ _ _ => .inr rfl,
            nofun⟩
          simp only [Control.cost, Point.cost, statusOf, map_some, Reserve.settle, implCost]
          omega
        | false =>
          simp only [advance, Bool.false_eq_true, false_and, if_false] at ran
          cases ran
          refine ⟨.some follow, ⟨trivial, fun _ => ⟨known, nofun⟩⟩, ?_,
            fun _ _ _ _ _ => .inr rfl, nofun⟩
          simp only [Control.cost, Point.cost, statusOf, map_some, Reserve.settle, implCost]
          omega
    | processWithdrawGroup =>
      cases ran
      exact .goes frames trivial nofun (by simp only [Point.cost]; omega) nofun
    | failed err =>
      cases ran
      refine .writes (fun r => incrementRetry_follow r (some err)) (fun _ dormant => dormant)
        ⟨trivial, fun notEmpty => absurd rfl notEmpty⟩ ?_ nofun
      simp only [Control.cost, Point.cost, map_nil, sum_nil]
      omega
    | _ => cases ran

end Advance

/-- How the status of a reserve changes for the calls, and how much more they may cost then. -/
structure Shift (before after : Option ReserveStatus) (more : Nat) : Prop where
  later : stage before ≤ stage after
  queried : stage before = 3 → stage after = 3
  impl : implCost after ≤ implCost before + more
  register : registerCost after ≤ registerCost before

namespace Shift

theorem refl (status : Option ReserveStatus) : Shift status status 0 :=
  ⟨Nat.le_refl _, id, Nat.le_refl _, Nat.le_refl _⟩

theorem ofFollow {pre after : Option Reserve} (follow : Option.Rel Follow pre after) :
    Shift (statusOf pre) (statusOf after) 0 := by
  cases follow with
  | none => exact .refl _
  | some follow =>
    exact ⟨follow.moves.stage_le, follow.moves.stage_eq, follow.moves.implCost_le,
      follow.moves.registerCost_le⟩

theorem create (st : ReserveStatus) (starts : st = .registeringBank ∨ st = .queryingStatus) :
    Shift none (some st) 0 := by
  rcases starts with rfl | rfl
  · exact ⟨Nat.zero_le _, nofun, by decide, by decide⟩
  · exact ⟨Nat.zero_le _, nofun, by decide, by decide⟩

theorem revive : Shift (some .dormant) (some .queryingStatus) 10 :=
  ⟨by decide, fun _ => rfl, by decide, by decide⟩

end Shift

/-- A call knows where its reserve is, and has taken no more steps than are accounted for. -/
structure Call.Kept (status : Option ReserveStatus) (revived : Nat) (call : Call) : Prop where
  follows : call.control.Follows status
  bounded : call.taken + call.control.cost status ≤
    40 + 8 * call.answers.countP WithdrawOperationStatus.unselected + 10 * revived

theorem Call.Kept.shift {pre after : Option ReserveStatus} {revived later more : Nat} {call : Call}
    (kept : call.Kept pre revived) (shift : Shift pre after more)
    (cnt : 10 * revived + more ≤ 10 * later) : call.Kept after later := by
  refine ⟨kept.follows.mono shift.later shift.queried, ?_⟩
  have cost : call.control.cost after ≤ call.control.cost pre + more :=
    Control.cost_le shift.impl shift.register
  have bounded := kept.bounded
  omega

namespace ReserveWallet

def status (wallet : ReserveWallet) (reservePub : String) : Option ReserveStatus :=
  statusOf (wallet.reserves.get? reservePub)

/-- Records are stored under their keys, and found by their status URLs. -/
structure StoresKept (wallet : ReserveWallet) : Prop where
  reserves : ∀ reservePub r, wallet.reserves.get? reservePub = some r →
    r.reservePub = reservePub ∧ Registrable r
  urls : ∀ reservePub r statusUrl, wallet.reserves.get? reservePub = some r →
    r.bankInfo.map Backup.ReserveBankInfo.statusUrl = some statusUrl →
      statusUrl ≠ "" ∧ wallet.bankWithdrawUris.get? statusUrl = some reservePub

structure Kept (wallet : ReserveWallet) : Prop where
  stores : wallet.StoresKept
  calls : ∀ call ∈ wallet.calls,
    call.Kept (wallet.status call.reservePub) (wallet.revived.count call.reservePub)
  owed : ∀ reservePub ∈ wallet.owed, wallet.status reservePub ≠ some .dormant ∧
    ∀ call ∈ wallet.calls, call.reservePub = reservePub → call.control.point.querying = false

/-- The status of every reserve shifts, and each further query has been requested. -/
def Shifts (wallet next : ReserveWallet) : Prop :=
  ∀ reservePub, ∃ more, Shift (wallet.status reservePub) (next.status reservePub) more ∧
    10 * wallet.revived.count reservePub + more ≤ 10 * next.revived.count reservePub

def Goes (wallet next : ReserveWallet) : Prop :=
  ∀ reservePub r, wallet.reserves.get? reservePub = some r →
    ∃ r', next.reserves.get? reservePub = some r' ∧ Moves r.reserveStatus r'.reserveStatus

variable {wallet w next : ReserveWallet}

theorem Goes.refl (wallet : ReserveWallet) : wallet.Goes wallet := fun _ r h => ⟨r, h, .stays⟩

theorem calls_shift {call : Call} (shifts : w.Shifts next)
    (kept : call.Kept (w.status call.reservePub) (w.revived.count call.reservePub)) :
    call.Kept (next.status call.reservePub) (next.revived.count call.reservePub) := by
  obtain ⟨more, shift, cnt⟩ := shifts call.reservePub
  exact kept.shift shift cnt

section Set

variable {reservePub rPub pub : String} {r : Reserve}

theorem status_set (isReserves : next.reserves = w.reserves.set pub r)
    (other : String) : next.status other =
      if other = pub then some r.reserveStatus else w.status other := by
  rw [ReserveWallet.status, isReserves, Record.get?_set]
  split <;> rfl

theorem Shifts.set (isReserves : next.reserves = w.reserves.set pub r)
    (grown : w.revived.Sublist next.revived) {more : Nat}
    (shift : Shift (w.status pub) (some r.reserveStatus) more)
    (cnt : 10 * w.revived.count pub + more ≤ 10 * next.revived.count pub) : w.Shifts next := by
  intro y
  rw [status_set isReserves]
  split
  next eq =>
    subst eq
    exact ⟨more, shift, cnt⟩
  next =>
    refine ⟨0, .refl _, ?_⟩
    have count := grown.count_le y
    omega

theorem StoresKept.set (kept : w.StoresKept) (isReserves : next.reserves = w.reserves.set pub r)
    (isUris : ∀ statusUrl otherPub, otherPub ≠ pub →
      w.bankWithdrawUris.get? statusUrl = some otherPub → (∃ y, w.reserves.get? otherPub = some y ∧
        y.bankInfo.map Backup.ReserveBankInfo.statusUrl = some statusUrl) →
      next.bankWithdrawUris.get? statusUrl = some otherPub)
    (isPub : r.reservePub = pub) (registrable : Registrable r)
    (urls : ∀ statusUrl, r.bankInfo.map Backup.ReserveBankInfo.statusUrl = some statusUrl →
      statusUrl ≠ "" ∧ next.bankWithdrawUris.get? statusUrl = some pub) :
    next.StoresKept := by
  constructor
  · intro y h isF
    rw [isReserves, Record.get?_set] at isF
    split at isF
    next eq =>
      cases isF
      exact ⟨isPub.trans eq.symm, registrable⟩
    next => exact kept.reserves y h isF
  · intro y h statusUrl isF isUrl
    rw [isReserves, Record.get?_set] at isF
    split at isF
    next eq =>
      cases isF
      rw [eq]
      exact urls statusUrl isUrl
    next ne =>
      obtain ⟨notEmpty, isUri⟩ := kept.urls y h statusUrl isF isUrl
      exact ⟨notEmpty, isUris statusUrl y ne isUri ⟨h, isF, isUrl⟩⟩

theorem StoresKept.follow (kept : w.StoresKept) {pre : Reserve}
    (h : w.reserves.get? pub = some pre) (isReserves : next.reserves = w.reserves.set pub r)
    (isUris : next.bankWithdrawUris = w.bankWithdrawUris) (samePub : r.reservePub = pre.reservePub)
    (sameUrl : r.bankInfo.map Backup.ReserveBankInfo.statusUrl =
      pre.bankInfo.map Backup.ReserveBankInfo.statusUrl)
    (registrable : Registrable r) : next.StoresKept := by
  refine kept.set isReserves ?_ (samePub.trans (kept.reserves _ _ h).1) registrable ?_
  · intro statusUrl y _ isUri _
    rw [isUris]
    exact isUri
  intro statusUrl isUrl
  rw [isUris]
  exact kept.urls pub pre statusUrl h (sameUrl.symm.trans isUrl)

end Set

theorem Kept.addCall (kept : wallet.Kept) {call : Call}
    (follows : call.control.Follows (wallet.status call.reservePub))
    (cost : call.control.cost (wallet.status call.reservePub) ≤ 40) (new : call.taken = 0)
    (quiet : call.control.point.querying = false) :
    { wallet with calls := wallet.calls ++ [call] }.Kept := by
  refine ⟨⟨kept.stores.reserves, kept.stores.urls⟩, ?_, ?_⟩
  · intro y mem
    rcases mem_append.mp mem with old | isNew
    · exact kept.calls y old
    cases mem_singleton.mp isNew
    refine ⟨follows, ?_⟩
    have eq : ({ wallet with calls := wallet.calls ++ [call] } : ReserveWallet).status
      call.reservePub = wallet.status call.reservePub := rfl
    rw [eq]
    omega
  · intro pub mem
    obtain ⟨active, calls⟩ := kept.owed pub mem
    refine ⟨active, ?_⟩
    intro y inCalls
    rcases mem_append.mp inCalls with old | isNew
    · exact calls y old
    · cases mem_singleton.mp isNew
      exact fun _ => quiet

theorem Kept.process (kept : w.Kept) (pub : String) (forceNow : Bool) :
    (w.process pub forceNow).Kept := by
  rw [ReserveWallet.process]
  split
  next => exact kept
  next =>
    apply kept.addCall
    · exact ⟨trivial, fun frames => absurd rfl frames⟩
    · exact implCost_le_forty (w.status pub)
    · rfl
    · rfl

theorem process_reserves (pub : String) (forceNow : Bool) :
    (w.process pub forceNow).reserves = w.reserves := by
  rw [ReserveWallet.process]
  split <;> rfl

theorem requestQuery_dormant (now : Nat) {r : Reserve} (dormant : r.reserveStatus = .dormant) :
    Reserve.requestQuery now r =
      { r with reserveStatus := .queryingStatus, retryInfo := initRetryInfo now } := by
  rw [Reserve.requestQuery, dormant]

theorem requestQuery_active (now : Nat) {r : Reserve} (active : r.reserveStatus ≠ .dormant) :
    Reserve.requestQuery now r =
      { r with requestedQuery := true, retryInfo := initRetryInfo now } := by
  rw [Reserve.requestQuery]
  split
  next dormant => exact absurd dormant active
  next => rfl

def Requested (reservePub : String) (wallet next : ReserveWallet) : Prop :=
  ∀ other r, wallet.reserves.get? other = some r → ∃ r', next.reserves.get? other = some r' ∧
    (Moves r.reserveStatus r'.reserveStatus ∨
      other = reservePub ∧ r.reserveStatus = .dormant ∧ r'.reserveStatus = .queryingStatus)

theorem Kept.request (kept : w.Kept) (now : Nat) {pub : String}
    (cond : ∀ r, w.reserves.get? pub = some r → r.reserveStatus ≠ .dormant →
      ∀ call ∈ w.calls, call.reservePub = pub → call.control.point.querying = false) :
    (w.request now pub).Kept ∧ w.Requested pub (w.request now pub) := by
  rw [ReserveWallet.request]
  split
  next => exact ⟨kept, fun _ r h => ⟨r, h, .inl .stays⟩⟩
  next reserve h =>
    obtain ⟨samePub, registrable⟩ := kept.stores.reserves pub reserve h
    have st : w.status pub = some reserve.reserveStatus := by
      rw [ReserveWallet.status, h]
      rfl
    by_cases dormant : reserve.reserveStatus = .dormant
    · rw [if_pos dormant, if_pos dormant, requestQuery_dormant now dormant]
      have shifts : w.Shifts { w with
            reserves := w.reserves.set pub
              { reserve with reserveStatus := .queryingStatus, retryInfo := initRetryInfo now }
            revived := w.revived ++ [pub] } := by
        have shift : Shift (w.status pub) (some .queryingStatus) 10 := by
          rw [st, dormant]
          exact .revive
        refine .set rfl (sublist_append_left _ _) shift ?_
        rw [count_append, count_singleton_self]
        omega
      refine ⟨⟨kept.stores.follow h rfl rfl rfl rfl nofun, ?_, ?_⟩, ?_⟩
      · exact fun call mem => calls_shift shifts (kept.calls call mem)
      · intro y mem
        obtain ⟨active, calls⟩ := kept.owed y mem
        refine ⟨?_, calls⟩
        rw [status_set rfl]
        split
        next => nofun
        next => exact active
      · intro y r isF
        by_cases eq : y = pub
        · subst eq
          cases h.symm.trans isF
          exact ⟨_, Record.get?_set_self _ _ _, .inr ⟨rfl, dormant, rfl⟩⟩
        · exact ⟨r, (Record.get?_set_of_ne _ _ eq).trans isF, .inl .stays⟩
    · rw [if_neg dormant, if_neg dormant, requestQuery_active now dormant]
      have shifts : w.Shifts { w with
            reserves := w.reserves.set pub
              { reserve with requestedQuery := true, retryInfo := initRetryInfo now }
            owed := w.owed ++ [pub] } := by
        have shift : Shift (w.status pub) (some reserve.reserveStatus) 0 := by
          rw [st]
          exact .refl _
        exact .set rfl (List.Sublist.refl _) shift (Nat.le_refl _)
      refine ⟨⟨kept.stores.follow h rfl rfl rfl rfl registrable, ?_, ?_⟩, ?_⟩
      · exact fun call mem => calls_shift shifts (kept.calls call mem)
      · intro y mem
        rw [status_set rfl]
        rcases mem_append.mp mem with old | new
        · obtain ⟨active, calls⟩ := kept.owed y old
          refine ⟨?_, calls⟩
          split
          next => exact fun eq => dormant (Option.some.inj eq)
          next => exact active
        cases mem_singleton.mp new
        refine ⟨?_, cond reserve h dormant⟩
        rw [if_pos rfl]
        exact fun eq => dormant (Option.some.inj eq)
      · intro y r isF
        by_cases eq : y = pub
        · subst eq
          cases h.symm.trans isF
          exact ⟨_, Record.get?_set_self _ _ _, .inl .stays⟩
        · exact ⟨r, (Record.get?_set_of_ne _ _ eq).trans isF, .inl .stays⟩

theorem create_spec {now : Nat} {draw : ReserveDraw} {req : CreateReserveRequest} {r : Reserve}
    (made : Reserve.create now draw req = some r) : r.reservePub = draw.reservePub ∧
      ((∃ bankInfo, r.bankInfo = some bankInfo ∧ bankInfo.statusUrl ≠ "" ∧
          r.reserveStatus = .registeringBank) ∨
        r.bankInfo = none ∧ r.reserveStatus = .queryingStatus) := by
  obtain ⟨bankInfo, isBankInfo, isR⟩ := bind_eq_some_iff.mp made
  cases isR
  refine ⟨rfl, ?_⟩
  rw [CreateReserveRequest.bankInfo] at isBankInfo
  split at isBankInfo
  next =>
    cases isBankInfo
    exact .inr ⟨rfl, rfl⟩
  next statusUrl isGiven =>
    obtain ⟨exchangePaytoUri, _, isBankInfo⟩ := map_eq_some_iff.mp isBankInfo
    subst isBankInfo
    refine .inl ⟨_, rfl, ?_, rfl⟩
    intro empty
    subst empty
    cases url : req.bankWithdrawStatusUrl with
    | none =>
      rw [url] at isGiven
      cases isGiven
    | some text =>
      rw [url, given] at isGiven
      split at isGiven
      next => cases isGiven
      next notEmpty => exact notEmpty (Option.some.inj isGiven)

theorem Kept.putReserve (kept : w.Kept) {now : Nat} {draw : ReserveDraw}
    {req : CreateReserveRequest} {r : Reserve} (made : Reserve.create now draw req = some r)
    (new : w.reserves.get? draw.reservePub = none) (unknown : w.known r = none) :
    (w.putReserve r).Kept ∧ w.Goes (w.putReserve r) := by
  obtain ⟨isPub, kind⟩ := create_spec made
  rw [← isPub] at new
  have isReserves : (w.putReserve r).reserves = w.reserves.set r.reservePub r := rfl
  have starts : r.reserveStatus = .registeringBank ∨ r.reserveStatus = .queryingStatus := by
    rcases kind with ⟨_, _, _, isStatus⟩ | ⟨_, isStatus⟩
    · exact .inl isStatus
    · exact .inr isStatus
  have gone : w.status r.reservePub = none := by
    rw [ReserveWallet.status, new]
    rfl
  have shifts : w.Shifts (w.putReserve r) :=
    .set isReserves (List.Sublist.refl _) (gone.symm ▸ Shift.create _ starts) (Nat.le_refl _)
  refine ⟨⟨?_, ?_, ?_⟩, ?_⟩
  · rcases kind with ⟨bankInfo, isBankInfo, notEmpty, _⟩ | ⟨noBankInfo, isStatus⟩
    · have isUris : (w.putReserve r).bankWithdrawUris =
          w.bankWithdrawUris.set bankInfo.statusUrl r.reservePub := by
        simp only [ReserveWallet.putReserve, isBankInfo]
        exact if_neg notEmpty
      refine kept.stores.set isReserves ?_ rfl ?_ ?_
      · rintro statusUrl otherPub _ isUri ⟨other, isO, _⟩
        rw [isUris]
        by_cases eq : statusUrl = bankInfo.statusUrl
        · subst eq
          have has : w.known r = some other := by
            rw [ReserveWallet.known, isBankInfo]
            have isGiven : given (some bankInfo.statusUrl) = some bankInfo.statusUrl :=
              if_neg notEmpty
            simp only [bind_eq_bind, bind_some, isGiven, isUri, isO]
          exact absurd (unknown.symm.trans has) (by simp)
        · exact (Record.get?_set_of_ne _ _ eq).trans isUri
      · intro _
        rw [isBankInfo]
        simp only [map_some, given, notEmpty, if_false, isSome_some]
      · intro statusUrl isUrl
        rw [isBankInfo] at isUrl
        cases isUrl
        rw [isUris]
        exact ⟨notEmpty, Record.get?_set_self _ _ _⟩
    · have isUris : (w.putReserve r).bankWithdrawUris = w.bankWithdrawUris := by
        simp only [ReserveWallet.putReserve, noBankInfo]
      refine kept.stores.set isReserves ?_ rfl ?_ ?_
      · intro statusUrl otherPub _ isUri _
        rw [isUris]
        exact isUri
      · intro due
        rw [isStatus] at due
        cases due
      intro statusUrl isUrl
      rw [noBankInfo] at isUrl
      cases isUrl
  · exact fun call mem => calls_shift shifts (kept.calls call mem)
  · intro other mem
    obtain ⟨active, calls⟩ := kept.owed other mem
    refine ⟨?_, calls⟩
    rw [status_set isReserves]
    split
    next =>
      intro dormant
      rcases starts with isStatus | isStatus
      · rw [isStatus] at dormant
        cases dormant
      · rw [isStatus] at dormant
        cases dormant
    next => exact active
  · intro other h isF
    refine ⟨h, ?_, .stays⟩
    refine (Record.get?_set_of_ne _ _ ?_).trans isF
    intro eq
    subst eq
    exact absurd (new.symm.trans isF) (by simp)

theorem status_of_ne {pub : String} (isReserves : next.reserves = w.reserves ∨
      ∃ r, next.reserves = w.reserves.set pub r) {other : String}
    (ne : other ≠ pub) : next.status other = w.status other := by
  rcases isReserves with eq | ⟨r, isSet⟩
  · rw [ReserveWallet.status, eq, ReserveWallet.status]
  · rw [status_set isSet, if_neg ne]

theorem Kept.advance (kept : w.Kept) {idx : Nat} {ans : Answer}
    (ran : w.perform (.advance idx ans) = some next) :
    next.Kept ∧ w.Goes next := by
  obtain ⟨call, isCall, ran⟩ := bind_eq_some_iff.mp ran
  obtain ⟨⟨record, control⟩, isAdvance, isNext⟩ := bind_eq_some_iff.mp ran
  have isNext := Option.some.inj isNext
  have mem := mem_of_getElem? isCall
  have callKept := kept.calls call mem
  have advanced := advance_spec
    (fun r h => (kept.stores.reserves call.reservePub r h).2) callKept.follows isAdvance
  have isReserves : (record = none ∧ next.reserves = w.reserves) ∨
      ∃ r, record = some r ∧ next.reserves = w.reserves.set call.reservePub r := by
    rw [← isNext]
    cases record with
    | none => exact .inl ⟨rfl, rfl⟩
    | some r => exact .inr ⟨r, rfl, rfl⟩
  have isUris : next.bankWithdrawUris = w.bankWithdrawUris := by rw [← isNext]
  have isRevived : next.revived = w.revived := by rw [← isNext]
  have statusNext : next.status call.reservePub = statusOf record := by
    rcases isReserves with ⟨isR, eq⟩ | ⟨r, isR, isSet⟩
    · generalize pre : w.reserves.get? call.reservePub = old at advanced
      have follow := advanced.kept
      rw [isR] at follow ⊢
      cases follow
      rw [ReserveWallet.status, eq, pre]
    · rw [status_set isSet, if_pos rfl, isR]
      rfl
  have statusOther : ∀ {other : String}, other ≠ call.reservePub →
      next.status other = w.status other :=
    status_of_ne (isReserves.imp And.right (by
      rintro ⟨r, _, isSet⟩
      exact ⟨r, isSet⟩))
  have shifts : w.Shifts next := by
    intro other
    refine ⟨0, ?_, by rw [isRevived]; exact Nat.le_refl _⟩
    by_cases eq : other = call.reservePub
    · rw [eq, statusNext]
      exact .ofFollow advanced.kept
    · rw [statusOther eq]
      exact .refl _
  have inCalls : ∀ other ∈ next.calls, other ∈ w.calls ∨
      other.reservePub = call.reservePub ∧ other.control = control ∧ other.taken = call.taken + 1 ∧
        8 * call.answers.countP WithdrawOperationStatus.unselected + ans.charge =
          8 * other.answers.countP WithdrawOperationStatus.unselected := by
    intro other isO
    rw [← isNext] at isO
    rcases mem_or_eq_of_mem_set isO with old | rfl
    · exact .inl old
    refine .inr ⟨rfl, rfl, rfl, ?_⟩
    rw [countP_append]
    cases ans with
    | bankStatus st =>
      simp only [Answer.statuses, countP_singleton, Answer.charge]
      split <;> omega
    | _ => rfl
  refine ⟨⟨?_, ?_, ?_⟩, ?_⟩
  · rcases isReserves with ⟨_, eq⟩ | ⟨r, isR, isSet⟩
    · constructor
      · rw [eq]
        exact kept.stores.reserves
      · rw [eq, isUris]
        exact kept.stores.urls
    generalize pre : w.reserves.get? call.reservePub = old at advanced
    have follow := advanced.kept
    rw [isR] at follow
    cases follow with
    | some follow =>
      exact kept.stores.follow pre isSet isUris follow.reservePub follow.statusUrl
        ((kept.stores.reserves _ _ pre).2.follow follow)
  · intro other isO
    rcases inCalls other isO with old | ⟨samePub, isControl, isTaken, cnt⟩
    · exact calls_shift shifts (kept.calls other old)
    rw [samePub, statusNext, isRevived]
    refine ⟨isControl ▸ advanced.follows, ?_⟩
    have bounded := callKept.bounded
    have cost := advanced.cost
    rw [isControl]
    rw [ReserveWallet.status] at bounded
    omega
  · intro other isOwed
    have owed : other ∈ w.owed ∧ (control.point = .reserveRequest → other ≠ call.reservePub) := by
      rw [← isNext] at isOwed
      dsimp only at isOwed
      split at isOwed
      next =>
        obtain ⟨isOwed, ne⟩ := mem_filter.mp isOwed
        exact ⟨isOwed, fun _ => of_decide_eq_true ne⟩
      next notRequest => exact ⟨isOwed, fun req => absurd req notRequest⟩
    obtain ⟨active, calls⟩ := kept.owed other owed.1
    constructor
    · intro dormant
      by_cases eq : other = call.reservePub
      · subst eq
        rw [statusNext] at dormant
        obtain ⟨r', isR, isDormant⟩ := map_eq_some_iff.mp dormant
        generalize pre : w.reserves.get? call.reservePub = old at advanced
        have follow := advanced.kept
        rw [isR] at follow
        cases follow with
        | @some r _ follow =>
          rcases advanced.settles r r' rfl isR isDormant with old | querying
          · apply active
            rw [ReserveWallet.status, pre]
            exact congrArg some old
          · exact absurd ((calls call mem rfl).symm.trans querying) (by simp)
      · rw [statusOther eq] at dormant
        exact active dormant
    · intro h isF samePub
      rcases inCalls h isF with old | ⟨ofCall, isControl, _, _⟩
      · exact calls h old samePub
      rw [isControl]
      by_contra querying
      rw [Bool.not_eq_false] at querying
      rcases advanced.queries querying with req | pre
      · exact owed.2 req (samePub.symm.trans ofCall)
      · exact absurd ((calls call mem (ofCall.symm.trans samePub)).symm.trans pre) (by simp)
  · intro other r isF
    rcases isReserves with ⟨_, eq⟩ | ⟨r', isR, isSet⟩
    · exact ⟨r, by rw [eq]; exact isF, .stays⟩
    by_cases eq : other = call.reservePub
    · subst eq
      have follow := advanced.kept
      rw [isR, isF] at follow
      cases follow with
      | some follow =>
        refine ⟨r', ?_, follow.moves⟩
        rw [isSet]
        exact Record.get?_set_self _ _ _
    · refine ⟨r, ?_, .stays⟩
      rw [isSet]
      exact (Record.get?_set_of_ne _ _ eq).trans isF

/-- What is promised of the reserves and the calls in every state. -/
structure Processed (wallet : ReserveWallet) : Prop where
  single : ∀ firstPub secondPub first second bankInfo bankInfo',
    wallet.reserves.get? firstPub = some first → wallet.reserves.get? secondPub = some second →
      first.bankInfo = some bankInfo → second.bankInfo = some bankInfo' →
        bankInfo.statusUrl = bankInfo'.statusUrl → firstPub = secondPub
  queried : ∀ reservePub r, wallet.reserves.get? reservePub = some r →
    r.reserveStatus = .dormant →
      (∀ call ∈ wallet.calls, call.reservePub = reservePub → call.control.point = .finished) →
        reservePub ∉ wallet.owed
  finite : ∀ call ∈ wallet.calls, ∀ earlier answer count,
    call.answers = earlier ++ List.replicate count answer → answer.unselected = false →
      call.taken ≤ 40 + 8 * earlier.length + 10 * wallet.revived.count call.reservePub

theorem Kept.processed (kept : w.Kept) : w.Processed := by
  refine ⟨?_, ?_, ?_⟩
  · intro firstPub secondPub x y bankInfo bankInfo' isFirst isSecond isInfo isInfo' eq
    obtain ⟨_, isPub⟩ := kept.stores.urls firstPub x bankInfo.statusUrl isFirst
      (by rw [isInfo]; rfl)
    obtain ⟨_, isPub'⟩ := kept.stores.urls secondPub y bankInfo'.statusUrl isSecond
      (by rw [isInfo']; rfl)
    rw [eq] at isPub
    exact Option.some.inj (isPub.symm.trans isPub')
  · intro pub r h dormant _ owed
    apply (kept.owed pub owed).1
    rw [ReserveWallet.status, h]
    exact congrArg some dormant
  · intro call mem old ans count isAnswers ran
    have bounded := (kept.calls call mem).bounded
    have few : call.answers.countP WithdrawOperationStatus.unselected ≤ old.length := by
      rw [isAnswers, countP_append, countP_replicate, ran]
      exact countP_le_length
    omega

def Requests (reservePub : String) : ReserveOperation → Prop
  | .forceQueryReserve _ requested => requested = reservePub
  | .recoupWithdrawCoin _ requested => requested = reservePub
  | _ => False

def Forward (wallet : ReserveWallet) (event : ReserveOperation) (next : ReserveWallet) : Prop :=
  ∀ reservePub r, wallet.reserves.get? reservePub = some r →
    ∃ r', next.reserves.get? reservePub = some r' ∧
      (Moves r.reserveStatus r'.reserveStatus ∨
        Requests reservePub event ∧ r.reserveStatus = .dormant ∧
          r'.reserveStatus = .queryingStatus)

theorem Goes.forward (goes : w.Goes next) (event : ReserveOperation) : w.Forward event next := by
  intro pub r h
  obtain ⟨r', isF, moves⟩ := goes pub r h
  exact ⟨r', isF, .inl moves⟩

end ReserveWallet

/-- A query of a reserve that is not dormant is not requested between the request for its status
and the transaction for the answer. -/
def ReserveCondition (wallet : ReserveWallet) : ReserveOperation → Prop
  | .forceQueryReserve _ reservePub | .recoupWithdrawCoin _ reservePub =>
    ∀ r, wallet.reserves.get? reservePub = some r → r.reserveStatus ≠ .dormant →
      ∀ call ∈ wallet.calls, call.reservePub = reservePub → call.control.point.querying = false
  | _ => True

section Runs

variable {wallet w next : ReserveWallet}

theorem reserveStep_kept (kept : w.Kept) {event : ReserveOperation}
    (cond : ReserveCondition w event) (step : ReserveStep w event next) :
    next.Kept ∧ w.Forward event next := by
  obtain ⟨ran, promised⟩ := step
  cases event with
  | createReserve now draw req =>
    obtain ⟨row, made, ran⟩ := bind_eq_some_iff.mp ran
    split at ran
    next otherReserve _ =>
      cases ran
      refine ⟨kept.process otherReserve.reservePub true, ReserveWallet.Goes.forward ?_ _⟩
      rw [ReserveWallet.Goes, ReserveWallet.process_reserves]
      exact ReserveWallet.Goes.refl w
    next unknown =>
      cases ran
      obtain ⟨put, goes⟩ := kept.putReserve made promised unknown
      refine ⟨put.process row.reservePub true, ReserveWallet.Goes.forward ?_ _⟩
      rw [ReserveWallet.Goes, ReserveWallet.process_reserves]
      exact goes
  | forceQueryReserve now pub =>
    cases ran
    obtain ⟨requested, moves⟩ := kept.request now cond
    refine ⟨requested.process pub true, ?_⟩
    rw [ReserveWallet.Forward, ReserveWallet.process_reserves]
    intro y r h
    obtain ⟨r', isF, either⟩ := moves y r h
    exact ⟨r', isF, either.imp_right fun move => ⟨move.1.symm, move.2⟩⟩
  | recoupWithdrawCoin now pub =>
    cases ran
    obtain ⟨requested, moves⟩ := kept.request now cond
    refine ⟨requested, ?_⟩
    intro y r h
    obtain ⟨r', isF, either⟩ := moves y r h
    exact ⟨r', isF, either.imp_right fun move => ⟨move.1.symm, move.2⟩⟩
  | processReserve pub forceNow =>
    cases ran
    refine ⟨kept.process pub forceNow, ReserveWallet.Goes.forward ?_ _⟩
    rw [ReserveWallet.Goes, ReserveWallet.process_reserves]
    exact ReserveWallet.Goes.refl w
  | processReserveBankStatus pub =>
    cases ran
    constructor
    · have register : registerCost (w.status pub) ≤ 8 := by
        cases w.status pub with
        | none => decide
        | some st => cases st <;> decide
      apply kept.addCall
      · exact ⟨trivial, fun frames => absurd rfl frames⟩
      · simp only [Control.cost, Point.cost, map_nil, sum_nil]
        omega
      · rfl
      · rfl
    · exact (ReserveWallet.Goes.refl w).forward _
  | advance idx ans =>
    obtain ⟨advanced, goes⟩ := kept.advance ran
    exact ⟨advanced, goes.forward _⟩

theorem reserves_kept {events : List ReserveOperation}
    (run : Run (Guarded ReserveCondition ReserveStep) .start events w) : w.Kept := by
  have initial : ReserveWallet.start.Kept := by
    refine ⟨⟨?_, ?_⟩, forall_mem_nil _, forall_mem_nil _⟩
    · intro pub r h
      cases (Record.get?_empty pub).symm.trans h
    · intro pub r statusUrl h
      cases (Record.get?_empty pub).symm.trans h
  exact run.invariant ReserveWallet.Kept initial fun _ _ _ kept guarded =>
    (reserveStep_kept kept guarded.1 guarded.2).1

/-- In every run in which no query is requested while the status of the reserve is on its way,
reserves only move forward, none is dormant with a request open, and no call goes on for ever with
a bank that knows a selection. -/
theorem reserves_processed {events : List ReserveOperation}
    (run : Run (Guarded ReserveCondition ReserveStep) .start events wallet) :
    wallet.Processed ∧ ∀ event next, Guarded ReserveCondition ReserveStep wallet event next →
      wallet.Forward event next := by
  have kept := reserves_kept run
  exact ⟨kept.processed, fun event next guarded =>
    (reserveStep_kept kept guarded.1 guarded.2).2⟩

end Runs

section Examples

def exampleDraw : ReserveDraw where
  reservePub := "R"
  reservePriv := "P"
  initialWithdrawalGroupId := "W"
  initialDenomSel := ⟨.getZero "KUDOS", .getZero "KUDOS", []⟩

def exampleReserveRequest (bankWithdrawStatusUrl : Option String) : CreateReserveRequest where
  amount := .getZero "KUDOS"
  canonExchange := "https://exchange/"
  exchangePaytoUri := some "payto://iban/DE75"
  senderWire := none
  bankWithdrawStatusUrl := bankWithdrawStatusUrl

def reserveStep? (wallet : ReserveWallet) (event : ReserveOperation) : Option ReserveWallet :=
  match event with
  | .createReserve now draw req =>
    if (wallet.reserves.get? draw.reservePub).isSome then none
    else wallet.perform (.createReserve now draw req)
  | event => wallet.perform event

theorem reserveStep?_step {wallet next : ReserveWallet} {ev : ReserveOperation}
    (r : reserveStep? wallet ev = some next) : ReserveStep wallet ev next := by
  cases ev with
  | createReserve now draw req =>
    rw [reserveStep?] at r
    split at r
    next => cases r
    next new => exact ⟨r, not_isSome_iff_eq_none.mp new⟩
  | _ => exact ⟨r, trivial⟩

def step : ReserveOperation := .advance 0 (.proceed 0 true)

def queryEvents : List ReserveOperation :=
  [.createReserve 0 exampleDraw (exampleReserveRequest none), step, step, step]

def settleEvents : List ReserveOperation :=
  [.advance 0 (.reserveStatus false), step, step, step]

def notSelected : WithdrawOperationStatus := ⟨false, false, false, none⟩

/-- A reserve with a bank is registered, and its bank has been asked for its status again. -/
def registerEvents : List ReserveOperation :=
  [.createReserve 0 exampleDraw (exampleReserveRequest (some "https://bank/")), step, step, step,
    .advance 0 (.bankStatus notSelected), step, .advance 0 .accepted, step, step]

/-- The bank is asked for its status after as many answers without a selection. -/
structure Asking (answers : Nat) (wallet : ReserveWallet) : Prop where
  call : ∃ frames taken, wallet.calls =
    [{ reservePub := "R"
       memoized := true
       control := ⟨.bankStatusRequest .waitConfirmBank, frames⟩
       taken := taken
       answers := List.replicate answers notSelected }] ∧ answers ≤ taken
  reserve : ∃ r, wallet.reserves.get? "R" = some r ∧ r.reserveStatus = .waitConfirmBank ∧
    r.bankInfo.map Backup.ReserveBankInfo.statusUrl = some "https://bank/"
  revived : wallet.revived = []

theorem only_advances {w : ReserveWallet} {call : Call} (isCalls : w.calls = [call])
    {ans : Answer} {r : Reserve} {control : Control}
    (isAdvance : advance (w.reserves.get? call.reservePub) call.control ans =
      some (some r, control)) : ∃ next, ReserveStep w (.advance 0 ans) next ∧
      next.calls = [{ call with
        control := control
        taken := call.taken + 1
        answers := call.answers ++ ans.statuses }] ∧
      next.reserves.get? call.reservePub = some r ∧ next.revived = w.revived := by
  have ran : (w.perform (.advance 0 ans)).isSome = true := by
    simp only [ReserveWallet.perform, isCalls, getElem?_cons_zero, bind_eq_bind,
      bind_some, isAdvance]
    rfl
  obtain ⟨next, isNext⟩ := isSome_iff_exists.mp ran
  refine ⟨next, ⟨isNext, trivial⟩, ?_⟩
  simp only [ReserveWallet.perform, isCalls, getElem?_cons_zero, bind_eq_bind,
    bind_some, isAdvance, set_cons_zero] at isNext
  cases isNext
  exact ⟨rfl, Record.get?_set_self _ _ _, rfl⟩

theorem asking_again {answers : Nat} {w : ReserveWallet} (asking : Asking answers w) :
    ∃ events next, Run ReserveStep w events next ∧ Asking (answers + 1) next := by
  obtain ⟨⟨frames, taken, isCalls, few⟩, ⟨r, h, waiting, isUrl⟩, noneRevived⟩ := asking
  have due : ReserveStatus.pending r.reserveStatus = true := by rw [waiting]; rfl
  have isInfo : r.bankInfo.isSome = true := by
    cases bankInfo : r.bankInfo with
    | none =>
      rw [bankInfo] at isUrl
      cases isUrl
    | some bankInfo => rfl
  have isGiven : (given (some "https://bank/")).isSome = true := by decide
  -- the answer leads to a registration, which ends in another request
  have told : advance (w.reserves.get? "R") ⟨.bankStatusRequest .waitConfirmBank, frames⟩
      (.bankStatus notSelected) =
        some (some r, ⟨.registerReserveWithBank, .processReserveBankStatus :: frames⟩) := by
    rw [h]
    rfl
  obtain ⟨x, toFirst, isCalls, h, first_revived⟩ := only_advances isCalls told
  have registers : advance (x.reserves.get? "R")
      ⟨.registerReserveWithBank, .processReserveBankStatus :: frames⟩ (.proceed 0 true) =
        some (some r, ⟨.registerRequest, .processReserveBankStatus :: frames⟩) := by
    rw [h]
    exact if_pos ⟨due, isInfo⟩
  obtain ⟨y, toSecond, isCalls, h, second_revived⟩ := only_advances isCalls registers
  have ok : advance (y.reserves.get? "R")
      ⟨.registerRequest, .processReserveBankStatus :: frames⟩ .accepted =
        some (some r, ⟨.registered, .processReserveBankStatus :: frames⟩) := by
    rw [h]
    rfl
  obtain ⟨third, toThird, isCalls, h, third_revived⟩ := only_advances isCalls ok
  have registered : advance (third.reserves.get? "R")
      ⟨.registered, .processReserveBankStatus :: frames⟩ (.proceed 0 true) =
        some (some (Reserve.register 0 r),
          ⟨.processReserveBankStatus, .processReserveBankStatus :: frames⟩) := by
    rw [h]
    apply if_neg
    rintro ⟨_, noInfo⟩
    rw [isNone_iff_eq_none.mp noInfo] at isInfo
    cases isInfo
  obtain ⟨fourth, toFourth, isCalls, h, fourth_revived⟩ := only_advances isCalls registered
  have isRegistered : (Reserve.register 0 r).reserveStatus = .waitConfirmBank := by
    rw [Reserve.register, if_pos due]
  have sameUrl := (register_follow 0 r).statusUrl.trans isUrl
  have asks : advance (fourth.reserves.get? "R")
      ⟨.processReserveBankStatus, .processReserveBankStatus :: frames⟩ (.proceed 0 true) =
        some (some (Reserve.register 0 r),
          ⟨.bankStatusRequest .waitConfirmBank, .processReserveBankStatus :: frames⟩) := by
    rw [h]
    simp only [advance, isRegistered, sameUrl, isGiven]
    rfl
  obtain ⟨fifth, toFifth, isCalls, h, fifth_revived⟩ := only_advances isCalls asks
  refine ⟨_, fifth, ((((Run.start.next toFirst).next toSecond).next toThird).next toFourth).next
    toFifth, ⟨.processReserveBankStatus :: frames, taken + 5, isCalls.trans ?_, ?_⟩,
    ⟨_, h, isRegistered, sameUrl⟩, ?_⟩
  · simp only [Answer.statuses, append_nil, replicate_succ']
  · omega
  · rw [fifth_revived, fourth_revived, third_revived, second_revived, first_revived, noneRevived]

theorem asking_forever (answers : Nat) : ∃ events wallet,
    Run ReserveStep .start events wallet ∧ Asking (answers + 1) wallet := by
  induction answers with
  | zero =>
    have reaches : (registerEvents.foldlM reserveStep? .start).map (fun wallet =>
        (wallet.calls, wallet.revived, (wallet.reserves.get? "R").map fun r =>
          (r.reserveStatus, r.bankInfo.map Backup.ReserveBankInfo.statusUrl))) =
        some ([{ reservePub := "R"
                 memoized := true
                 control := ⟨.bankStatusRequest .waitConfirmBank,
                   [.processReserveBankStatus, .processReserveImpl]⟩
                 taken := 8
                 answers := [notSelected] }], [],
          some (.waitConfirmBank, some "https://bank/")) := by decide
    obtain ⟨wallet, isWallet, isState⟩ := map_eq_some_iff.mp reaches
    obtain ⟨isCalls, isState⟩ := Prod.mk.inj isState
    obtain ⟨isRevived, isReserve⟩ := Prod.mk.inj isState
    obtain ⟨r, h, isR⟩ := map_eq_some_iff.mp isReserve
    obtain ⟨isStatus, isUrl⟩ := Prod.mk.inj isR
    refine ⟨registerEvents, wallet, Run.ofFoldlM (fun _ _ _ => reserveStep?_step) isWallet, ?_⟩
    exact ⟨⟨_, 8, isCalls, by decide⟩, ⟨r, h, isStatus, isUrl⟩, isRevived⟩
  | succ answers ih =>
    obtain ⟨events, wallet, run, asking⟩ := ih
    obtain ⟨later, next, goesOn, again⟩ := asking_again asking
    exact ⟨events ++ later, next, run.append goesOn, again⟩

/-- A query is forgotten that is requested while the status is on its way, and a bank that never
knows a selection is asked without end. -/
theorem reserve_query_forgotten : ¬ (∀ (events : List ReserveOperation) (wallet : ReserveWallet),
      Run ReserveStep .start events wallet → wallet.Processed) ∧
    ¬ (∀ answer : WithdrawOperationStatus, ∃ bound, ∀ events wallet,
      Run ReserveStep .start events wallet → ∀ call ∈ wallet.calls, ∀ count,
        call.answers = List.replicate count answer →
          wallet.revived.count call.reservePub = 0 → call.taken ≤ bound) := by
  constructor
  · intro claim
    have reaches : ((queryEvents ++ .forceQueryReserve 0 "R" :: settleEvents).foldlM reserveStep?
        .start).map (fun wallet => (wallet.owed, wallet.calls.map fun call => call.control.point,
          (wallet.reserves.get? "R").map Backup.ReserveRecord.reserveStatus)) =
        some (["R"], [.finished], some .dormant) := by decide
    obtain ⟨wallet, isWallet, isState⟩ := map_eq_some_iff.mp reaches
    obtain ⟨isOwed, isState⟩ := Prod.mk.inj isState
    obtain ⟨isCalls, isReserve⟩ := Prod.mk.inj isState
    obtain ⟨r, found, dormant⟩ := map_eq_some_iff.mp isReserve
    have processed := claim _ wallet (Run.ofFoldlM (fun _ _ _ => reserveStep?_step) isWallet)
    refine processed.queried "R" r found dormant ?_ (isOwed ▸ mem_singleton_self "R")
    intro call member _
    have isPoint : call.control.point ∈ [Point.finished] := by
      rw [← isCalls]
      exact List.mem_map_of_mem member
    exact mem_singleton.mp isPoint
  · intro claim
    obtain ⟨bound, bounded⟩ := claim notSelected
    obtain ⟨events, wallet, run, asking⟩ := asking_forever bound
    obtain ⟨frames, taken, isCalls, few⟩ := asking.call
    have least := bounded events wallet run _ (isCalls ▸ mem_singleton_self _) _ rfl
      (by rw [asking.revived]; rfl)
    exact absurd few (Nat.not_le.mpr (Nat.lt_succ_of_le least))

def guardedStep? (wallet : ReserveWallet) (event : ReserveOperation) : Option ReserveWallet :=
  match event with
  | .forceQueryReserve now reservePub =>
    if wallet.status reservePub = some .dormant then
      reserveStep? wallet (.forceQueryReserve now reservePub)
    else none
  | .recoupWithdrawCoin _ _ => none
  | event => reserveStep? wallet event

theorem guardedStep?_guarded {wallet next : ReserveWallet} {ev : ReserveOperation}
    (ran : guardedStep? wallet ev = some next) :
    Guarded ReserveCondition ReserveStep wallet ev next := by
  cases ev with
  | forceQueryReserve now pub =>
    rw [guardedStep?] at ran
    split at ran
    next dormant =>
      refine ⟨?_, reserveStep?_step ran⟩
      intro r h active
      rw [ReserveWallet.status, h] at dormant
      exact absurd (Option.some.inj dormant) active
    next => cases ran
  | recoupWithdrawCoin => cases ran
  | _ => exact ⟨trivial, reserveStep?_step ran⟩

def reviveEvents : List ReserveOperation :=
  queryEvents ++ settleEvents ++ [.forceQueryReserve 0 "R"]

/-- A dormant reserve is queried again. -/
theorem reserves_processed_again : ∃ events wallet,
    Run ReserveStep .start events wallet ∧ wallet.revived = ["R"] ∧ wallet.Processed := by
  have reaches : (reviveEvents.foldlM guardedStep? .start).map ReserveWallet.revived =
      some ["R"] := by decide
  obtain ⟨wallet, isWallet, isRevived⟩ := map_eq_some_iff.mp reaches
  have run : Run (Guarded ReserveCondition ReserveStep) .start reviveEvents wallet :=
    Run.ofFoldlM (fun _ _ _ => guardedStep?_guarded) isWallet
  exact ⟨_, wallet, run.unguarded, isRevived, (reserves_processed run).1⟩

end Examples

end Anastasis.Wallet.Processing
