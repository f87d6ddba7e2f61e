import Anastasis.Stasis.Tables

/-! Payments for accounts and the time until which they keep an account alive. -/

set_option autoImplicit false

namespace Anastasis.Stasis

open Library Library.Statements

inductive QueryStatus where
  | hardError
  | softError
  | noResults
  | oneResult
deriving DecidableEq

inductive IncrementStatus where
  | hardError
  | softError
  | noResults (paidUntil : Time)
  | oneResult (paidUntil : Time)
deriving DecidableEq

/-- The end of both lifetime operations: the change of the account is committed. -/
def commitLifetime {Status : Type} (hard done : Status) :
    Change → Statements Tables Status Status
  | .failed .hard => abandon hard
  | .failed .soft => retry
  | .rows 0 => abandon hard
  | .rows _ => do
      match ← commitTransaction with
      | some .soft => retry
      | some .hard => leave hard
      | none => return done

def incrementAttempt (now : Time) (accountPub : AccountPublicKey)
    (paymentIdentifier : PaymentSecret) (lifetime : Time) :
    Statements Tables IncrementStatus IncrementStatus := do
  inTransaction .hardError
  match ← change (recdocPaymentDone paymentIdentifier accountPub) with
  | .failed .hard => abandon .hardError
  | .failed .soft => retry
  | .rows paid =>
    match ← select (userSelect accountPub) with
    | .failed .hard => abandon .hardError
    | .failed .soft => retry
    | .noResults =>
      if paid = 0 then abandon .hardError
      else do
        let expiration := relativeToAbsolute now lifetime
        let inserted ← change (userInsert accountPub expiration)
        commitLifetime .hardError (.oneResult expiration) inserted
    | .oneResult expiration =>
      if paid = 0 then abandon (.noResults expiration)
      else do
        let extended := absoluteAdd expiration lifetime
        let updated ← change (userUpdate extended accountPub)
        commitLifetime .hardError (.oneResult extended) updated

def incrementLifetime (now : Time) (accountPub : AccountPublicKey)
    (paymentIdentifier : PaymentSecret) (lifetime : Time) :
    Connection Tables → IncrementStatus × Connection Tables :=
  transact .softError (incrementAttempt now accountPub paymentIdentifier lifetime) maxRetries

def updateAttempt (accountPub : AccountPublicKey) (paymentIdentifier : PaymentSecret)
    (eol : Time) : Statements Tables QueryStatus QueryStatus := do
  inTransaction .hardError
  match ← change (recdocPaymentDone paymentIdentifier accountPub) with
  | .failed .soft => retry
  | .failed .hard => abandon .hardError
  | .rows 0 => abandon .noResults
  | .rows _ =>
    match ← select (userSelect accountPub) with
    | .failed .hard => abandon .hardError
    | .failed .soft => retry
    | .noResults => do
        let inserted ← change (userInsert accountPub eol)
        commitLifetime .hardError .oneResult inserted
    | .oneResult expiration => do
        let updated ← change (userUpdate (max expiration eol) accountPub)
        commitLifetime .hardError .oneResult updated

def updateLifetime (accountPub : AccountPublicKey) (paymentIdentifier : PaymentSecret)
    (eol : Time) : Connection Tables → QueryStatus × Connection Tables :=
  transact .softError (updateAttempt accountPub paymentIdentifier eol) maxRetries

def changeStatus : Change → QueryStatus
  | .failed .hard => .hardError
  | .failed .soft => .softError
  | .rows 0 => .noResults
  | .rows _ => .oneResult

def pendingPayment (now : Time) (accountPub : AccountPublicKey) (postCounter : Nat)
    (paymentSecret : PaymentSecret) (amount : Amount) : RecdocPayment :=
  { userId := accountPub, postCounter := postCounter, amount := amount,
    paymentIdentifier := paymentSecret, creationDate := column now, paid := false }

def transientUser (now : Time) (accountPub : AccountPublicKey) :
    Statements Tables QueryStatus Unit := do
  match ← select (userSelect accountPub) with
  | .failed _ => leave .hardError
  | .oneResult _ => return ()
  | .noResults =>
    match ← change (userInsert accountPub (relativeToAbsolute now weeks)) with
    | .failed _ => leave .hardError
    | .rows 0 => leave .hardError
    | .rows _ => return ()

def recordAttempt (now : Time) (accountPub : AccountPublicKey) (postCounter : Nat)
    (paymentSecret : PaymentSecret) (amount : Amount) :
    Statements Tables QueryStatus QueryStatus := do
  transientUser now accountPub
  let inserted ← change (recdocPaymentInsert
    (pendingPayment now accountPub postCounter paymentSecret amount))
  return changeStatus inserted

def recordRecdocPayment (now : Time) (accountPub : AccountPublicKey) (postCounter : Nat)
    (paymentSecret : PaymentSecret) (amount : Amount) :
    Connection Tables → QueryStatus × Connection Tables :=
  transact .hardError (recordAttempt now accountPub postCounter paymentSecret amount) 1

def pendingFor (accountPub : AccountPublicKey) (paymentIdentifier : PaymentSecret)
    (payment : RecdocPayment) : Bool :=
  payment.paymentIdentifier = paymentIdentifier ∧ payment.userId = accountPub ∧
    payment.paid = false

def settle (accountPub : AccountPublicKey) (paymentIdentifier : PaymentSecret)
    (payment : RecdocPayment) : RecdocPayment :=
  if pendingFor accountPub paymentIdentifier payment then { payment with paid := true }
  else payment

def setExpiration (accountPub : AccountPublicKey) (expiration : Time) (users : List User) :
    List User :=
  if users.any (·.userId = accountPub) then
    users.map fun user =>
      if user.userId = accountPub then { user with expirationDate := column expiration } else user
  else users ++ [{ userId := accountPub, expirationDate := column expiration }]

/-- A pending payment was used up to let the account live until `expiration`. -/
structure Credited (accountPub : AccountPublicKey) (paymentIdentifier : PaymentSecret)
    (before : Tables) (expiration : Time) (after : Tables) : Prop where
  pays : ∃ payment ∈ before.recdocPayments, pendingFor accountPub paymentIdentifier payment
  after : after = { before with
    users := setExpiration accountPub expiration before.users
    recdocPayments := before.recdocPayments.map (settle accountPub paymentIdentifier) }

def IncrementOutcome (now : Time) (accountPub : AccountPublicKey)
    (paymentIdentifier : PaymentSecret) (lifetime : Time) (before after : Tables) :
    IncrementStatus → Prop
  | .oneResult paidUntil => Credited accountPub paymentIdentifier before paidUntil after ∧
      ((userSelect accountPub before = [] ∧ paidUntil = relativeToAbsolute now lifetime) ∨
        ∃ expiration, userSelect accountPub before = [expiration] ∧
          paidUntil = absoluteAdd expiration lifetime)
  | .noResults _ => after = before
  | .softError => after = before
  | .hardError => after = before

def UpdateOutcome (accountPub : AccountPublicKey) (paymentIdentifier : PaymentSecret)
    (eol : Time) (before after : Tables) : QueryStatus → Prop
  | .oneResult => ∃ paidUntil, Credited accountPub paymentIdentifier before paidUntil after ∧
      ((userSelect accountPub before = [] ∧ paidUntil = eol) ∨
        ∃ expiration, userSelect accountPub before = [expiration] ∧
          paidUntil = max expiration eol)
  | .noResults => after = before
  | .softError => after = before
  | .hardError => after = before

/-- The payment is stored when the call says so; its user may be new in either case. -/
def RecordOutcome (now : Time) (payment : RecdocPayment) (before after : Tables)
    (status : QueryStatus) : Prop :=
  ∃ users, (users = before.users ∨ (before.hasUser payment.userId = false ∧
      users = before.users ++ [⟨payment.userId, column (relativeToAbsolute now weeks)⟩])) ∧
    after = { before with
      users := users
      recdocPayments := if status = .oneResult then before.recdocPayments ++ [payment]
        else before.recdocPayments }

section Attempts

open Effect

variable {before pre working : Tables} {accountPub acc : AccountPublicKey}
  {paymentIdentifier payId : PaymentSecret} {conn : Connection Tables}

theorem userSelect_nil (none : userSelect acc pre = []) : pre.hasUser acc = false := by
  unfold userSelect at none
  rw [List.map_eq_nil_iff, List.filter_eq_nil_iff] at none
  unfold Tables.hasUser
  rw [List.any_eq_false]
  exact none

theorem userSelect_singleton {exp : Time} (h : userSelect accountPub before = [exp]) :
    before.hasUser accountPub = true := by
  have mem : exp ∈ userSelect accountPub before := by
    rw [h]
    exact List.mem_singleton_self exp
  obtain ⟨user, inside, _⟩ := List.mem_map.mp mem
  obtain ⟨has, eq⟩ := List.mem_filter.mp inside
  exact List.any_eq_true.mpr ⟨user, has, eq⟩

/-- The tables in which the pending payments of the account are marked. -/
def settled (accountPub : AccountPublicKey) (paymentIdentifier : PaymentSecret)
    (before : Tables) : Tables :=
  { before with recdocPayments := before.recdocPayments.map (settle accountPub paymentIdentifier) }

theorem recdocPaymentDone_eq : recdocPaymentDone payId acc pre =
      .ok (pre.recdocPayments.countP (pendingFor acc payId), settled acc payId pre) := by
  have marks : settle acc payId = fun payment =>
      if payment.paymentIdentifier = payId ∧ payment.userId = acc ∧
        payment.paid = false then { payment with paid := true } else payment := by
    funext payment
    simp only [settle, pendingFor, decide_eq_true_eq]
  rw [recdocPaymentDone, settled, marks]
  rfl

theorem pays_of_count (some : pre.recdocPayments.countP
      (pendingFor accountPub paymentIdentifier) ≠ 0) :
    ∃ payment ∈ pre.recdocPayments, pendingFor accountPub paymentIdentifier payment :=
  List.countP_pos_iff.mp (Nat.pos_of_ne_zero some)

theorem credited_insert {expiration : Time} {count : Nat} {tables : Tables}
    (pays : ∃ pay ∈ before.recdocPayments, pendingFor accountPub paymentIdentifier pay)
    (none : userSelect accountPub before = [])
    (inserted : userInsert accountPub expiration (settled accountPub paymentIdentifier before) =
      .ok (count, tables)) : Credited accountPub paymentIdentifier before expiration tables := by
  have unknown : before.users.any (·.userId = accountPub) = false := userSelect_nil none
  have gone : (settled accountPub paymentIdentifier before).hasUser accountPub = false := unknown
  rw [userInsert, gone, if_neg Bool.false_ne_true] at inserted
  cases inserted
  refine ⟨pays, ?_⟩
  rw [setExpiration, unknown, if_neg Bool.false_ne_true]
  rfl

theorem credited_update {expiration h : Time} {count : Nat} {tables : Tables}
    (pays : ∃ pay ∈ before.recdocPayments, pendingFor accountPub paymentIdentifier pay)
    (one : userSelect accountPub before = [h])
    (updated : userUpdate expiration accountPub (settled accountPub paymentIdentifier before) =
      .ok (count, tables)) : Credited accountPub paymentIdentifier before expiration tables := by
  have known : before.users.any (·.userId = accountPub) = true := userSelect_singleton one
  cases updated
  refine ⟨pays, ?_⟩
  rw [setExpiration, known, if_pos rfl]
  rfl

theorem commitLifetime_ensures {Status : Type} {hard done : Status}
    {post : Status → Connection Tables → Prop} {update : Tables → Except Failure (Nat × Tables)}
    (holds : conn.At pre (some working))
    (fails : ∀ fin : Connection Tables, fin.committed = pre → post hard fin)
    (accepted : ∀ count tb, update working = .ok (count, tb) →
      ∀ fin : Connection Tables, fin.committed = tb → post done fin) :
    Ensures (change update >>= commitLifetime hard done) conn post (Exit.Meets post pre) := by
  refine ensures_bind.mpr (ensures_change holds ?failed ?changed)
  case failed =>
    intro failure next held
    cases failure with
    | soft => exact held.committed
    | hard => exact ensures_abandon held fun fin gone => fails fin gone.committed
  case changed =>
    intro count tb updated next held
    match count with
    | 0 => exact ensures_abandon held fun fin gone => fails fin gone.committed
    | count + 1 =>
      refine ensures_bind.mpr (ensures_commitTransaction held ?_ ?_)
      · intro failure fin gone
        cases failure with
        | soft => exact gone.committed
        | hard => exact fails fin gone.committed
      · intro fin made
        exact accepted (count + 1) tb updated fin made.committed

theorem incrementAttempt_ensures (now lifetime : Time) (eq : conn.committed = before) :
    Ensures (incrementAttempt now accountPub payId lifetime) conn
      (fun status fin => IncrementOutcome now accountPub payId lifetime before fin.committed status)
      (Exit.Meets (fun status fin => IncrementOutcome now accountPub payId lifetime
        before fin.committed status) before) := by
  unfold incrementAttempt
  refine ensures_bind.mpr (ensures_inTransaction eq ?_ fun next held => held.committed)
  intro x st
  refine ensures_bind.mpr (ensures_change st ?failed ?changed)
  case failed =>
    intro failure next held
    cases failure with
    | soft => exact held.committed
    | hard => exact ensures_abandon held fun fin gone => gone.committed
  case changed =>
    intro paid tb done y held
    rw [recdocPaymentDone_eq] at done
    cases done
    have user : userSelect accountPub (settled accountPub payId before) =
      userSelect accountPub before := rfl
    refine ensures_bind.mpr (ensures_select held ?failed ?noResults ?oneResult)
    case failed =>
      intro failure next held
      cases failure with
      | soft => exact held.committed
      | hard => exact ensures_abandon held fun fin gone => gone.committed
    case noResults =>
      intro none third held
      rw [Option.getD_some, user] at none
      by_cases unpaid : before.recdocPayments.countP (pendingFor accountPub payId) = 0
      · simp only [unpaid, if_true]
        exact ensures_abandon held fun fin gone => gone.committed
      simp only [unpaid, if_false]
      refine commitLifetime_ensures held (fun fin gone => gone) ?_
      intro count tb inserted fin made
      refine ⟨?_, .inl ⟨none, rfl⟩⟩
      rw [made]
      exact credited_insert (pays_of_count unpaid) none inserted
    case oneResult =>
      intro exp one third held
      rw [Option.getD_some, user] at one
      by_cases unpaid : before.recdocPayments.countP (pendingFor accountPub payId) = 0
      · simp only [unpaid, if_true]
        exact ensures_abandon held fun fin gone => gone.committed
      simp only [unpaid, if_false]
      refine commitLifetime_ensures held (fun fin gone => gone) ?_
      intro count tb updated fin made
      refine ⟨?_, .inr ⟨exp, one, rfl⟩⟩
      rw [made]
      exact credited_update (pays_of_count unpaid) one updated

theorem incrementLifetime_outcome (now lifetime : Time) (holds : conn.At pre none) :
    IncrementOutcome now acc payId lifetime pre
      (incrementLifetime now acc payId lifetime conn).2.committed
      (incrementLifetime now acc payId lifetime conn).1 := by
  have exhausted : ∀ fin : Connection Tables, fin.At pre none →
      IncrementOutcome now acc payId lifetime pre fin.committed
        .softError := fun fin held => held.committed
  exact @transact_ensures _ _ pre .softError _
    (fun st fin => IncrementOutcome now acc payId lifetime pre fin.committed st)
    (fun start held => incrementAttempt_ensures now lifetime held.committed) exhausted
    maxRetries conn holds

theorem updateAttempt_ensures (eol : Time) (eq : conn.committed = before) :
    Ensures (updateAttempt accountPub paymentIdentifier eol) conn
      (fun status fin => UpdateOutcome accountPub paymentIdentifier eol before fin.committed status)
      (Exit.Meets (fun status fin => UpdateOutcome accountPub paymentIdentifier eol before
        fin.committed status) before) := by
  unfold updateAttempt
  refine ensures_bind.mpr (ensures_inTransaction eq ?_ fun next held => held.committed)
  intro x st
  refine ensures_bind.mpr (ensures_change st ?failed ?changed)
  case failed =>
    intro failure next held
    cases failure with
    | soft => exact held.committed
    | hard => exact ensures_abandon held fun fin gone => gone.committed
  case changed =>
    intro paid tb done y held
    rw [recdocPaymentDone_eq] at done
    cases done
    have user : userSelect accountPub (settled accountPub paymentIdentifier before) =
      userSelect accountPub before := rfl
    cases counted : before.recdocPayments.countP (pendingFor accountPub paymentIdentifier) with
    | zero => exact ensures_abandon held fun fin gone => gone.committed
    | succ count =>
      have pays : ∃ payment ∈ before.recdocPayments,
          pendingFor accountPub paymentIdentifier payment :=
        pays_of_count (by rw [counted]; exact Nat.succ_ne_zero count)
      refine ensures_bind.mpr (ensures_select held ?failed ?noResults ?oneResult)
      case failed =>
        intro failure next held
        cases failure with
        | soft => exact held.committed
        | hard => exact ensures_abandon held fun fin gone => gone.committed
      case noResults =>
        intro none third held
        rw [Option.getD_some, user] at none
        refine commitLifetime_ensures held (fun fin gone => gone) ?_
        intro count tb inserted fin made
        refine ⟨eol, ?_, .inl ⟨none, rfl⟩⟩
        rw [made]
        exact credited_insert pays none inserted
      case oneResult =>
        intro exp one third held
        rw [Option.getD_some, user] at one
        refine commitLifetime_ensures held (fun fin gone => gone) ?_
        intro count tb updated fin made
        refine ⟨max exp eol, ?_, .inr ⟨exp, one, rfl⟩⟩
        rw [made]
        exact credited_update pays one updated

theorem updateLifetime_outcome (eol : Time) (holds : conn.At pre none) :
    UpdateOutcome acc payId eol pre (updateLifetime acc payId eol conn).2.committed
      (updateLifetime acc payId eol conn).1 := by
  have exhausted : ∀ fin : Connection Tables, fin.At pre none →
      UpdateOutcome acc payId eol pre fin.committed
        .softError := fun fin held => held.committed
  exact @transact_ensures _ _ pre .softError _
    (fun st fin => UpdateOutcome acc payId eol pre fin.committed st)
    (fun start held => updateAttempt_ensures eol held.committed) exhausted maxRetries conn holds

def Hosting (now : Time) (accountPub : AccountPublicKey) (before middle : Tables) : Prop :=
  middle = before ∨ (before.hasUser accountPub = false ∧ middle = { before with
    users := before.users ++ [⟨accountPub, column (relativeToAbsolute now weeks)⟩] })

theorem RecordOutcome.refused {now : Time} {payment : RecdocPayment} {middle : Tables}
    {status : QueryStatus} (hosting : Hosting now payment.userId before middle)
    (failed : status ≠ .oneResult) : RecordOutcome now payment before middle status := by
  obtain rfl | ⟨gone, rfl⟩ := hosting
  · exact ⟨middle.users, .inl rfl, by simp [failed]⟩
  · exact ⟨_, .inr ⟨gone, rfl⟩, by simp [failed]⟩

theorem RecordOutcome.stored {now : Time} {pay : RecdocPayment} {middle : Tables}
    (hosting : Hosting now pay.userId pre middle) : RecordOutcome now pay pre
      { middle with recdocPayments := middle.recdocPayments ++ [pay] } .oneResult := by
  obtain rfl | ⟨gone, rfl⟩ := hosting
  · exact ⟨middle.users, .inl rfl, rfl⟩
  · exact ⟨_, .inr ⟨gone, rfl⟩, rfl⟩

theorem transientUser_ensures {now : Time} {pay : RecdocPayment} (holds : conn.At pre none) :
    Ensures (transientUser now pay.userId) conn
      (fun _ next => ∃ mid, next.At mid none ∧ Hosting now pay.userId pre mid)
      (Exit.Meets (fun st fin => RecordOutcome now pay pre fin.committed st) pre) := by
  have same : ∀ fin : Connection Tables, fin.committed = pre →
      RecordOutcome now pay pre fin.committed .hardError := by
    intro fin eq
    rw [eq]
    exact RecordOutcome.refused (.inl rfl) QueryStatus.noConfusion
  unfold transientUser
  refine ensures_bind.mpr (ensures_select holds ?failed ?noResults ?oneResult)
  case failed =>
    intro failure next held
    exact same next held.committed
  case oneResult =>
    intro exp one next held
    exact ⟨pre, held, .inl rfl⟩
  case noResults =>
    intro none next held
    have absent : pre.hasUser pay.userId = false := userSelect_nil none
    refine ensures_bind.mpr (ensures_change_direct held ?_ ?_)
    · intro failure fin gone
      exact same fin gone.committed
    intro count tb inserted fin made
    rw [userInsert, absent, if_neg Bool.false_ne_true] at inserted
    cases inserted
    exact ⟨_, made, .inr ⟨absent, rfl⟩⟩

theorem recordRecdocPayment_outcome (now : Time) (accountPub : AccountPublicKey)
    (postCounter : Nat) (paymentSecret : PaymentSecret) (amount : Amount)
    (holds : conn.At pre none) :
    RecordOutcome now (pendingPayment now accountPub postCounter paymentSecret amount) pre
      (recordRecdocPayment now accountPub postCounter paymentSecret amount conn).2.committed
      (recordRecdocPayment now accountPub postCounter paymentSecret amount conn).1 := by
  generalize payment_eq : pendingPayment now accountPub postCounter paymentSecret amount = pay
  have account : pay.userId = accountPub := by rw [← payment_eq]; rfl
  have each : ∀ start : Connection Tables, start.At pre none →
      Ensures (recordAttempt now accountPub postCounter paymentSecret amount) start
        (fun st fin => RecordOutcome now pay pre fin.committed st)
        (Exit.Meets (fun st fin => RecordOutcome now pay pre fin.committed st) pre) := by
    intro start held
    unfold recordAttempt
    rw [payment_eq, ← account]
    refine (transientUser_ensures held).bind ?_
    intro _ next ⟨middle, hosted, hosting⟩
    refine ensures_bind.mpr (ensures_change_direct hosted ?_ ?_)
    · intro failure fin gone
      have same : fin.committed = middle := gone.committed
      cases failure with
      | soft =>
        change RecordOutcome now pay pre fin.committed .softError
        rw [same]
        exact RecordOutcome.refused hosting QueryStatus.noConfusion
      | hard =>
        change RecordOutcome now pay pre fin.committed .hardError
        rw [same]
        exact RecordOutcome.refused hosting QueryStatus.noConfusion
    · intro count tb inserted fin made
      unfold recdocPaymentInsert at inserted
      split at inserted
      · cases inserted
        change RecordOutcome now pay pre fin.committed .oneResult
        rw [made.committed]
        exact RecordOutcome.stored hosting
      · cases inserted
  exact @transact_ensures _ _ pre .hardError _
    (fun st fin => RecordOutcome now pay pre fin.committed st) each (fun fin held => by
      rw [held.committed]
      exact RecordOutcome.refused (.inl rfl) QueryStatus.noConfusion) 1 conn holds

end Attempts

end Anastasis.Stasis
