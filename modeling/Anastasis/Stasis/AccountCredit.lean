import Anastasis.Library.Transition
import Anastasis.Stasis.Lifetime

/-! Each payment extends its own account once, over any number of calls. -/

set_option autoImplicit false

namespace Anastasis.Stasis

open Library Library.Transition List Option

def expirationOf (tables : Tables) (accountPub : AccountPublicKey) : Option Time :=
  (userSelect accountPub tables).head?

inductive LifetimeCall where
  | record (now : Time) (accountPub : AccountPublicKey) (postCounter : Nat)
      (paymentSecret : PaymentSecret) (amount : Amount)
  | increment (now : Time) (accountPub : AccountPublicKey) (paymentIdentifier : PaymentSecret)
      (lifetime : Time)
  | update (accountPub : AccountPublicKey) (paymentIdentifier : PaymentSecret) (eol : Time)

namespace LifetimeCall

def accountPub : LifetimeCall → AccountPublicKey
  | record _ accountPub _ _ _ => accountPub
  | increment _ accountPub _ _ => accountPub
  | update accountPub _ _ => accountPub

def payment? : LifetimeCall → Option PaymentSecret
  | record _ _ _ _ _ => none
  | increment _ _ paymentIdentifier _ => some paymentIdentifier
  | update _ paymentIdentifier _ => some paymentIdentifier

end LifetimeCall

def IncrementStatus.status : IncrementStatus → QueryStatus
  | hardError => .hardError
  | softError => .softError
  | noResults _ => .noResults
  | oneResult _ => .oneResult

def LifetimeCall.serve (call : LifetimeCall) (connection : Connection Tables) :
    QueryStatus × Connection Tables :=
  match call with
  | record now accountPub postCounter paymentSecret amount =>
    recordRecdocPayment now accountPub postCounter paymentSecret amount connection
  | increment now accountPub paymentIdentifier lifetime =>
    let answer := incrementLifetime now accountPub paymentIdentifier lifetime connection
    (answer.1.status, answer.2)
  | update accountPub paymentIdentifier eol =>
    updateLifetime accountPub paymentIdentifier eol connection

/-- An extension of an account, and the rows of the payments that were used up for it. -/
structure Credit where
  accountPub : AccountPublicKey
  payments : List Nat
deriving DecidableEq

structure Ledger where
  tables : Tables
  credits : List Credit

structure LifetimeEvent where
  call : LifetimeCall
  failures : Nat → Option Failure
  status : QueryStatus

def newlyPaid (before after : List RecdocPayment) : List Nat :=
  (List.range before.length).filter fun row =>
    (before[row]?.map (·.paid) = some false) && (after[row]?.map (·.paid) = some true)

/-- The extension that a call made, if it made one: a call that records a payment at most
creates the account. -/
def LifetimeCall.credits (call : LifetimeCall) (before after : Tables) : List Credit :=
  if call.payment? = none ∨
    expirationOf before call.accountPub = expirationOf after call.accountPub then []
  else [{ accountPub := call.accountPub
          payments := newlyPaid before.recdocPayments after.recdocPayments }]

def lifetimeStep (ledger : Ledger) (event : LifetimeEvent) (next : Ledger) : Prop :=
  (event.call.serve (.opened ledger.tables event.failures)).1 = event.status ∧
    (event.call.serve (.opened ledger.tables event.failures)).2.committed = next.tables ∧
    next.credits = ledger.credits ++ event.call.credits ledger.tables next.tables

variable {ledger next start final : Ledger} {event ev : LifetimeEvent} {events : List LifetimeEvent}

theorem le_absoluteAdd {start duration : Time} (bounded : start ≤ forever) :
    start ≤ absoluteAdd start duration := Nat.le_min.mpr ⟨Nat.le_add_right start duration, bounded⟩

theorem lifetimeStep_cases (step : lifetimeStep ledger ev next) :
    next = ledger ∨ (∃ now pay, ev.call.payment? = none ∧ pay.userId = ev.call.accountPub ∧
        pay.paid = false ∧ next.credits = ledger.credits ∧
        RecordOutcome now pay ledger.tables next.tables ev.status) ∨
      ∃ paymentIdentifier paidUntil, ev.call.payment? = some paymentIdentifier ∧
        Credited ev.call.accountPub paymentIdentifier ledger.tables paidUntil next.tables ∧
        ∀ exp, expirationOf ledger.tables ev.call.accountPub = some exp →
          exp ≤ forever → exp ≤ paidUntil := by
  obtain ⟨status, tables, credits⟩ := step
  obtain ⟨nextTables, nextCredits⟩ := next
  obtain ⟨before, earlier⟩ := ledger
  obtain ⟨call, failures, answered⟩ := ev
  simp only at status tables credits ⊢
  have holds := Connection.opened_at before failures
  have unchanged : nextTables = before → Ledger.mk nextTables nextCredits = ⟨before, earlier⟩ := by
    intro eq
    rw [credits, eq]
    simp [LifetimeCall.credits]
  cases call with
  | record now accountPub postCounter paymentSecret amount =>
    refine .inr (.inl ⟨now, pendingPayment now accountPub postCounter paymentSecret amount, rfl,
      rfl, rfl, ?_, ?_⟩)
    · rw [credits]
      simp [LifetimeCall.credits, LifetimeCall.payment?]
    have out := recordRecdocPayment_outcome now accountPub postCounter paymentSecret amount holds
    rw [← tables, ← status]
    exact out
  | increment now accountPub paymentIdentifier lifetime =>
    have out : IncrementOutcome now accountPub paymentIdentifier lifetime before nextTables
        (incrementLifetime now accountPub paymentIdentifier lifetime
          (.opened before failures)).1 := by
      rw [← tables]
      exact incrementLifetime_outcome now lifetime holds
    revert out
    generalize (incrementLifetime now accountPub paymentIdentifier lifetime
      (.opened before failures)).1 = ans
    intro out
    cases ans with
    | hardError => exact .inl (unchanged out)
    | softError => exact .inl (unchanged out)
    | noResults paidUntil => exact .inl (unchanged out)
    | oneResult paidUntil =>
      obtain ⟨credited, ⟨none, _⟩ | ⟨old, one, rfl⟩⟩ := out
      · refine .inr (.inr ⟨paymentIdentifier, paidUntil, rfl, credited, ?_⟩)
        intro exp h
        rw [expirationOf, LifetimeCall.accountPub, none] at h
        cases h
      refine .inr (.inr ⟨paymentIdentifier, _, rfl, credited, ?_⟩)
      intro exp h bounded
      rw [expirationOf, LifetimeCall.accountPub, one] at h
      cases h
      exact le_absoluteAdd bounded
  | update accountPub paymentIdentifier eol =>
    have out : UpdateOutcome accountPub paymentIdentifier eol before nextTables answered := by
      rw [← tables, ← status]
      exact updateLifetime_outcome eol holds
    cases answered with
    | hardError => exact .inl (unchanged out)
    | softError => exact .inl (unchanged out)
    | noResults => exact .inl (unchanged out)
    | oneResult =>
      obtain ⟨paidUntil, credited, ⟨none, _⟩ | ⟨old, one, rfl⟩⟩ := out
      · refine .inr (.inr ⟨paymentIdentifier, paidUntil, rfl, credited, ?_⟩)
        intro exp h
        rw [expirationOf, LifetimeCall.accountPub, none] at h
        cases h
      refine .inr (.inr ⟨paymentIdentifier, _, rfl, credited, ?_⟩)
      intro exp h _
      rw [expirationOf, LifetimeCall.accountPub, one] at h
      cases h
      exact Nat.le_max_left old eol

theorem expirationOf_eq (tb : Tables) (acc : AccountPublicKey) : expirationOf tb acc =
      (tb.users.find? (·.userId = acc)).map (·.expirationDate) := by
  rw [expirationOf, userSelect, head?_map, head?_filter]

theorem find?_setExpiration (users : List User) (accountPub other : AccountPublicKey) (exp : Time) :
    ((setExpiration accountPub exp users).find? (·.userId = other)).map (·.expirationDate) =
      if other = accountPub then some (column exp)
      else (users.find? (·.userId = other)).map (·.expirationDate) := by
  unfold setExpiration
  by_cases has : users.any (·.userId = accountPub) = true
  · rw [if_pos has, find?_map, Option.map_map]
    have search : ((fun user : User => decide (user.userId = other)) ∘ fun user =>
        if user.userId = accountPub then { user with expirationDate := column exp }
        else user) = fun user => decide (user.userId = other) := by
      funext user
      by_cases eq : user.userId = accountPub
      · simp [eq]
      · simp [eq]
    rw [search]
    by_cases own : other = accountPub
    · subst own
      obtain ⟨user, mem, eq⟩ := List.any_eq_true.mp has
      cases h : users.find? (·.userId = other) with
      | none => exact absurd eq (find?_eq_none.mp h user mem)
      | some hit =>
        have named := find?_some h
        simp only [decide_eq_true_eq] at named
        simp [named]
    · rw [if_neg own]
      cases h : users.find? (·.userId = other) with
      | none => rfl
      | some hit =>
        have named := find?_some h
        simp only [decide_eq_true_eq] at named
        have ne : hit.userId ≠ accountPub := by rw [named]; exact own
        simp [ne]
  · rw [if_neg has, find?_append]
    by_cases own : other = accountPub
    · subst own
      have gone : users.find? (·.userId = other) = none := by
        rw [find?_eq_none]
        intro user mem eq
        exact has (List.any_eq_true.mpr ⟨user, mem, eq⟩)
      simp [gone]
    · have ne : accountPub ≠ other := fun eq => own eq.symm
      simp [own, ne]

variable {accountPub acc : AccountPublicKey} {paymentIdentifier payId : PaymentSecret}

theorem Credited.expirationOf {before after : Tables} {exp : Time}
    (credited : Credited acc payId before exp after) (other : AccountPublicKey) :
    Stasis.expirationOf after other =
      if other = acc then some (column exp) else Stasis.expirationOf before other := by
  rw [expirationOf_eq, expirationOf_eq, credited.after]
  exact find?_setExpiration before.users acc other exp

theorem RecordOutcome.expirationOf {now : Time} {pay : RecdocPayment} {pre after : Tables}
    {st : QueryStatus} (out : RecordOutcome now pay pre after st)
    (other : AccountPublicKey) : Stasis.expirationOf after other = Stasis.expirationOf pre other ∨
      (other = pay.userId ∧ Stasis.expirationOf pre other = none) := by
  obtain ⟨users, eq | ⟨gone, added⟩, rfl⟩ := out
  · rw [expirationOf_eq, expirationOf_eq, eq]
    exact .inl rfl
  rw [expirationOf_eq, expirationOf_eq, added]
  by_cases own : other = pay.userId
  · refine .inr ⟨own, ?_⟩
    rw [own, map_eq_none_iff, find?_eq_none]
    intro user mem h
    unfold Tables.hasUser at gone
    rw [List.any_eq_false] at gone
    exact gone user mem h
  · have ne : pay.userId ≠ other := fun eq => own eq.symm
    simp [find?_append, ne]

def Readable (tables : Tables) : Prop :=
  ∀ user ∈ tables.users, column user.expirationDate = user.expirationDate

/-- What an extended account had before, if anything, is not more than what it has then. -/
def Grows (old new : Option Time) : Prop :=
  ∀ expiration, old = some expiration → ∃ extended, new = some extended ∧ expiration ≤ extended

theorem Grows.refl (expiration : Option Time) : Grows expiration expiration :=
  fun v eq => ⟨v, eq, Nat.le_refl v⟩

theorem Grows.trans {first y third : Option Time} (left : Grows first y)
    (right : Grows y third) : Grows first third := by
  intro exp eq
  obtain ⟨mid, h, ordered⟩ := left exp eq
  obtain ⟨last, reached, after⟩ := right mid h
  exact ⟨last, reached, Nat.le_trans ordered after⟩

theorem readable_expirationOf {tb : Tables} (readable : Readable tb) {expiration : Time}
    (h : expirationOf tb acc = some expiration) : column expiration = expiration := by
  rw [expirationOf_eq, map_eq_some_iff] at h
  obtain ⟨user, hit, rfl⟩ := h
  exact readable user (mem_of_find?_eq_some hit)

theorem readable_append {users : List User}
    (readable : ∀ user ∈ users, column user.expirationDate = user.expirationDate)
    (acc : AccountPublicKey) (exp : Time) : ∀ user ∈ users ++ [⟨acc, column exp⟩],
      column user.expirationDate = user.expirationDate := by
  intro user mem
  rcases mem_append.mp mem with has | new
  · exact readable user has
  · rw [mem_singleton.mp new]
    exact column_column exp

theorem readable_setExpiration {users : List User}
    (readable : ∀ user ∈ users, column user.expirationDate = user.expirationDate)
    (acc : AccountPublicKey) (exp : Time) : ∀ user ∈ setExpiration acc exp users,
      column user.expirationDate = user.expirationDate := by
  intro user mem
  unfold setExpiration at mem
  split at mem
  · obtain ⟨old, has, rfl⟩ := List.mem_map.mp mem
    by_cases eq : old.userId = acc
    · simp only [eq, if_true, column_column]
    · simp only [eq, if_false, readable old has]
  · exact readable_append readable acc exp user mem

theorem Readable.step (readable : Readable ledger.tables)
    (step : lifetimeStep ledger ev next) : Readable next.tables := by
  rcases lifetimeStep_cases step with eq | ⟨now, pay, _, _, _, _, out⟩ |
    ⟨payId, paidUntil, _, credited, _⟩
  · rw [eq]
    exact readable
  · obtain ⟨users, chosen, tb⟩ := out
    intro user mem
    rw [tb] at mem
    rcases chosen with eq | ⟨_, added⟩
    · rw [eq] at mem
      exact readable user mem
    · rw [added] at mem
      exact readable_append readable _ _ user mem
  · intro user mem
    rw [credited.after] at mem
    exact readable_setExpiration readable _ _ user mem

theorem Readable.grows (readable : Readable ledger.tables)
    (step : lifetimeStep ledger ev next) (acc : AccountPublicKey) :
    Grows (expirationOf ledger.tables acc) (expirationOf next.tables acc) := by
  rcases lifetimeStep_cases step with eq | ⟨now, pay, _, _, _, _, out⟩ |
    ⟨payId, paidUntil, _, credited, later⟩
  · rw [eq]
    exact .refl _
  · rcases out.expirationOf acc with eq | ⟨_, none⟩
    · rw [eq]
      exact .refl _
    rw [none]
    intro expiration h
    cases h
  rw [credited.expirationOf acc]
  by_cases own : acc = ev.call.accountPub
  · rw [if_pos own, own]
    intro expiration h
    have legible := readable_expirationOf readable h
    have bounded : expiration ≤ forever := by
      rw [← legible]
      exact column_bounded expiration
    refine ⟨_, rfl, ?_⟩
    calc
      expiration = column expiration := legible.symm
      _ ≤ column paidUntil := column_mono (later expiration h bounded)
  · rw [if_neg own]
    exact .refl _

theorem mem_newlyPaid (payments : List RecdocPayment) (row : Nat) :
    row ∈ newlyPaid payments (payments.map (settle acc payId)) ↔
      ∃ pay, payments[row]? = some pay ∧ pendingFor acc payId pay = true := by
  unfold newlyPaid
  rw [mem_filter, mem_range, getElem?_map]
  constructor
  · intro both
    obtain ⟨mem, flags⟩ := both
    rw [getElem?_eq_getElem mem] at flags ⊢
    refine ⟨payments[row], rfl, ?_⟩
    unfold settle at flags
    by_cases due : pendingFor acc payId payments[row] = true
    · exact due
    · simp only [due, map_some, Option.some.injEq] at flags
      simp at flags
  · intro h
    obtain ⟨pay, at_row, due⟩ := h
    have unpaid : pay.paid = false := by
      simp only [pendingFor, decide_eq_true_eq] at due
      exact due.2.2
    refine ⟨(List.getElem?_eq_some_iff.mp at_row).1, ?_⟩
    simp [at_row, settle, due, unpaid]

/-- The rows in which payments are kept: what is marked as used stays marked. -/
structure Balanced (ledger : Ledger) : Prop where
  once : (ledger.credits.flatMap (·.payments)).Nodup
  charged : ∀ credit ∈ ledger.credits, credit.payments ≠ []
  used : ∀ credit ∈ ledger.credits, ∀ row ∈ credit.payments, ∃ payment,
    ledger.tables.recdocPayments[row]? = some payment ∧ payment.userId = credit.accountPub ∧
      payment.paid = true

theorem Balanced.initial (tb : Tables) : Balanced ⟨tb, []⟩ := by
  constructor
  · exact nodup_nil
  · intro credit mem
    cases mem
  · intro credit mem
    cases mem

theorem settle_used {payment : RecdocPayment} (used : payment.paid = true) :
    settle acc payId payment = payment := by
  simp [settle, pendingFor, used]

theorem Balanced.of_rows (balanced : Balanced ledger) (eq : next.credits = ledger.credits)
    (kept : ∀ (row : Nat) (pay : RecdocPayment), ledger.tables.recdocPayments[row]? = some pay →
      pay.paid = true → next.tables.recdocPayments[row]? = some pay) : Balanced next := by
  constructor
  · rw [eq]
    exact balanced.once
  · rw [eq]
    exact balanced.charged
  rw [eq]
  intro credit mem row charged
  obtain ⟨pay, h, own, used⟩ := balanced.used credit mem row charged
  exact ⟨pay, kept row pay h used, own, used⟩

theorem Balanced.credit (balanced : Balanced ledger) {paidUntil : Time}
    (credited : Credited acc payId ledger.tables paidUntil next.tables)
    (added : next.credits = ledger.credits ++ [⟨acc,
      newlyPaid ledger.tables.recdocPayments next.tables.recdocPayments⟩]) : Balanced next := by
  have after : next.tables.recdocPayments =
      ledger.tables.recdocPayments.map (settle acc payId) := by
    rw [credited.after]
  have fresh : ∀ row ∈ newlyPaid ledger.tables.recdocPayments next.tables.recdocPayments,
      ∃ pay, ledger.tables.recdocPayments[row]? = some pay ∧ pendingFor acc payId pay = true := by
    intro row mem
    rw [after] at mem
    exact (mem_newlyPaid _ row).mp mem
  constructor
  · rw [added, flatMap_append, nodup_append]
    refine ⟨balanced.once, ?_, ?_⟩
    · simp only [flatMap_cons, flatMap_nil, append_nil]
      exact List.nodup_range.filter _
    intro old earlier row new eq
    subst eq
    obtain ⟨credit, mem, charged⟩ := mem_flatMap.mp earlier
    obtain ⟨pay, h, _, used⟩ := balanced.used credit mem old charged
    simp only [flatMap_cons, flatMap_nil, append_nil] at new
    obtain ⟨due, also, unpaid⟩ := fresh old new
    rw [h, Option.some.injEq] at also
    simp [← also, pendingFor, used] at unpaid
  · rw [added]
    intro credit mem
    rcases mem_append.mp mem with earlier | new
    · exact balanced.charged credit earlier
    rw [mem_singleton.mp new]
    obtain ⟨pay, has, due⟩ := credited.pays
    obtain ⟨row, h⟩ := mem_iff_getElem?.mp has
    have mem : row ∈ newlyPaid ledger.tables.recdocPayments next.tables.recdocPayments := by
      rw [after]
      exact (mem_newlyPaid _ row).mpr ⟨pay, h, due⟩
    exact ne_nil_of_mem mem
  · rw [added]
    intro credit mem row charged
    rcases mem_append.mp mem with earlier | new
    · obtain ⟨pay, h, own, used⟩ := balanced.used credit earlier row charged
      refine ⟨pay, ?_, own, used⟩
      rw [after, getElem?_map, h, map_some, settle_used used]
    rw [mem_singleton.mp new] at charged ⊢
    obtain ⟨pay, h, due⟩ := fresh row charged
    refine ⟨settle acc payId pay, ?_, ?_, ?_⟩
    · rw [after, getElem?_map, h, map_some]
    · rw [settle, if_pos due]
      simp only [pendingFor, decide_eq_true_eq] at due
      exact due.2.1
    · rw [settle, if_pos due]

theorem Balanced.step (balanced : Balanced ledger) (step : lifetimeStep ledger ev next) :
    Balanced next := by
  rcases lifetimeStep_cases step with eq | ⟨now, pay, _, _, _, eq, out⟩ |
    ⟨payId, paidUntil, charged, credited, _⟩
  · rw [eq]
    exact balanced
  · refine balanced.of_rows eq ?_
    intro row kept h used
    obtain ⟨users, _, tb⟩ := out
    have payments : next.tables.recdocPayments = if ev.status = .oneResult
        then ledger.tables.recdocPayments ++ [pay] else ledger.tables.recdocPayments := by
      rw [tb]
    rw [payments]
    split
    · exact getElem?_append_left (List.getElem?_eq_some_iff.mp h).1 ▸ h
    · exact h
  · have added := step.2.2
    unfold LifetimeCall.credits at added
    split at added
    · refine balanced.of_rows (added.trans (append_nil _)) ?_
      intro row kept h used
      rw [credited.after, getElem?_map, h, map_some, settle_used used]
    · exact balanced.credit credited added

/-- An extension of what the account had is one from now on: the account is new, it has not
run out, or its end is too far for the column. -/
def Current (now lifetime : Time) : Option Time → Prop
  | none => True
  | some expiration => now ≤ expiration ∨ 2 ^ 63 - 1 ≤ expiration + lifetime

end Anastasis.Stasis
