import Anastasis.Server.PolicyRequests
import Anastasis.Server.TurnOrder

/-! The list of the uploads that wait: it stays in order as long as what they have to pay is an
amount. -/

set_option autoImplicit false

namespace Anastasis.Server.PolicyPost

open Library Library.DoublyLinked Library.Transition Library.Effect Stasis Served

/-- The years that an upload is charged for when it arrives, if it has to set up an order. -/
def PolicyUploadContext.chargedYears (service : PolicyService) (calls : PolicyCalls)
    (tables : Tables) (puc : PolicyUploadContext) : Option Nat :=
  let yearsToPay := yearsIn (absoluteGetRemaining calls.remaining puc.endDate)
  let renewed (state : PaymentState) : Option Nat :=
    if state.validCounter then none else some (if yearsToPay = 0 then 1 else yearsToPay)
  if puc.paymentIdentifierProvided then
    match checkPaymentIdentifier calls.checking puc.paymentIdentifier tables with
    | .failed _ => none
    | .noResults => renewed calls.unset
    | .oneResult state => renewed state
  else if service.annualFee = 0 then none
  else some yearsToPay

def PolicyUploadContext.Exhausted (calls : PolicyCalls) (tables : Tables)
    (puc : PolicyUploadContext) : Prop :=
  (storeRecoveryDocument puc.document (.opened tables calls.storing)).1 = .storeLimitExceeded ∨
    (storeRecoveryDocument puc.document (.opened tables calls.storing)).1 = .paymentRequired

/-- An upload only waits for the merchant while its connection is suspended. -/
structure PolicyUploadContext.Settled (puc : PolicyUploadContext) : Prop where
  merchant : puc.po ≠ none ∨ puc.cpo = true → puc.con = .suspended
  single : ¬ (puc.po ≠ none ∧ puc.cpo = true)

def policyDiscipline : Discipline PolicyUploadContext where
  listed puc := puc.con = .suspended
  settled := PolicyUploadContext.Settled

abbrev TidyPolicy (alone : Prop) (listed : Bool) (turn : PolicyTurn) : Prop :=
  Tidy policyDiscipline alone listed turn

structure Idle (turn : PolicyTurn) : Prop where
  operations : turn.operations = []
  active : turn.context.con = .active
  po : turn.context.po = none
  cpo : turn.context.cpo = false

variable {alone : Prop} {listed mem : Bool} {puc : Address} {context ctx : PolicyUploadContext}
  {shared : PolicyShared} {turn : PolicyTurn} {calls : PolicyCalls} {service svc : PolicyService}
  {server next : PolicyServer}

theorem PolicyUploadContext.Settled.unasked (met : ctx.Settled)
    (active : ctx.con = .active) : ctx.po = none ∧ ctx.cpo = false := by
  have refuted : ¬ (ctx.po ≠ none ∨ ctx.cpo = true) := by
    intro waiting
    have suspended := met.merchant waiting
    rw [active] at suspended
    cases suspended
  simpa using refuted

namespace Idle

theorem tidy (idle : Idle turn) : TidyPolicy alone false turn := by
  constructor
  · constructor
    · simp [idle.po, idle.cpo]
    · simp [idle.po]
  have outside : policyDiscipline.listed turn.context = false := by
    simp [policyDiscipline, idle.active]
  rw [idle.operations, outside]
  exact .nothing false

theorem replied (idle : Idle turn) (reply : PolicyReply) :
    TidyPolicy alone false { turn with context := { turn.context with con := .replied reply } } := by
  constructor
  · constructor
    · simp [idle.po, idle.cpo]
    · simp [idle.po]
  have outside : policyDiscipline.listed { turn.context with con := .replied reply } = false := by
    simp [policyDiscipline]
  simp only [idle.operations, outside]
  exact .nothing false

/-- The connection is suspended until the merchant has set up or checked an order. -/
theorem suspended (idle : Idle turn) (po : Option PolicyOrder) (cpo : Bool)
    (single : ¬ (po ≠ none ∧ cpo = true)) :
    TidyPolicy alone false ⟨turn.address, { turn.context with con := .suspended, po := po, cpo := cpo },
      turn.operations ++ [.insert], turn.shared⟩ := by
  constructor
  · constructor
    · exact fun _ => rfl
    · exact single
  · simp only [idle.operations, List.nil_append]
    exact .insert

end Idle

theorem beginPayment_tidy (idle : Idle turn)
    (affordable : svc.amountMultiply svc.annualFee turn.context.yearsToPay ≠ none) :
    Ensures (beginPayment svc) turn (fun _ fin => TidyPolicy alone false fin)
      (fun _ _ => True) := by
  unfold beginPayment
  simp only [ensures_bind, ensures_link, ensures_load]
  split
  · next overflow => exact absurd overflow affordable
  rename_i uploadFee _
  exact idle.suspended (some ⟨turn.context.paymentIdentifier, uploadFee, turn.context.yearsToPay⟩)
    turn.context.cpo (by simp [idle.cpo])

theorem awaitPayment_tidy (idle : Idle turn) :
    Ensures awaitPayment turn (fun _ fin => TidyPolicy alone false fin) (fun _ _ => True) := by
  unfold awaitPayment
  simp only [ensures_bind, ensures_link, ensures_update]
  exact idle.suspended turn.context.po true (by simp [idle.po])

theorem preparePayment_tidy (idle : Idle turn)
    (affordable : turn.context.paymentIdentifierProvided = false →
      svc.amountMultiply svc.annualFee turn.context.yearsToPay ≠ none) :
    Ensures (preparePayment svc calls) turn (fun _ fin => TidyPolicy alone false fin)
      (fun _ _ => True) := by
  unfold preparePayment
  simp only [ensures_bind, ensures_load]
  by_cases provided : turn.context.paymentIdentifierProvided = true
  · rw [if_pos provided]
    exact awaitPayment_tidy idle
  rw [if_neg provided]
  simp only [ensures_bind, ensures_update]
  apply beginPayment_tidy
  · exact ⟨idle.operations, idle.active, idle.po, idle.cpo⟩
  · exact affordable (by simpa using provided)

theorem checkAccount_tidy (idle : Idle turn)
    (affordable : turn.context.paymentIdentifierProvided = false →
      ∀ years, svc.amountMultiply svc.annualFee years ≠ none) :
    Ensures (checkAccount svc calls) turn (fun _ fin => TidyPolicy alone false fin)
      (fun _ _ => True) := by
  have again : ∀ paidUntil yearsToPay, Idle { turn with
      context := { turn.context with paidUntil := paidUntil, yearsToPay := yearsToPay } } :=
    fun _ _ => ⟨idle.operations, idle.active, idle.po, idle.cpo⟩
  unfold checkAccount
  simp only [ensures_bind, ensures_load, ensures_shared, ensures_update]
  split
  · exact preparePayment_tidy (again _ _) fun fresh => affordable fresh _
  · exact (again _ _).replied _
  · exact (again _ _).tidy
  split
  · exact preparePayment_tidy (again _ _) fun fresh => affordable fresh _
  split
  · exact (again _ _).replied _
  · exact (again _ _).tidy

theorem recordFreePayment_tidy (idle : Idle turn)
    (affordable : ∀ years, svc.amountMultiply svc.annualFee years ≠ none) :
    Ensures (recordFreePayment svc calls) turn (fun _ fin => TidyPolicy alone false fin)
      (fun _ _ => True) := by
  have noted : ∀ shared, Idle { turn with shared := shared } :=
    fun _ => ⟨idle.operations, idle.active, idle.po, idle.cpo⟩
  have again : ∀ paidUntil shared, Idle { turn with
      context := { turn.context with paidUntil := paidUntil }, shared := shared } :=
    fun _ _ => ⟨idle.operations, idle.active, idle.po, idle.cpo⟩
  unfold recordFreePayment
  rw [ensures_bind, ensures_load, ensures_bind, ensures_database]
  split
  · rw [ensures_bind, ensures_update, ensures_bind, ensures_load, ensures_bind, ensures_database]
    split
    · exact checkAccount_tidy (again _ _) fun _ => affordable
    · exact (again _ _).replied _
  · exact (noted _).replied _

theorem checkPayment_tidy (idle : Idle turn)
    (provided : turn.context.paymentIdentifierProvided = true)
    (affordable : ∀ st, st.validCounter = false →
      (checkPaymentIdentifier calls.checking turn.context.paymentIdentifier turn.shared.tables =
          .oneResult st ∨
        checkPaymentIdentifier calls.checking turn.context.paymentIdentifier turn.shared.tables =
          .noResults ∧ st = calls.unset) → svc.amountMultiply svc.annualFee
        (if turn.context.yearsToPay = 0 then 1 else turn.context.yearsToPay) ≠ none) :
    Ensures (checkPayment svc calls) turn (fun _ fin => TidyPolicy alone false fin)
      (fun _ _ => True) := by
  have has : ∀ yearsToPay, turn.context.paymentIdentifierProvided = false →
      svc.amountMultiply svc.annualFee yearsToPay ≠ none := by
    intro yearsToPay fresh
    rw [provided] at fresh
    cases fresh
  have goOn : ∀ st : PaymentState, (st.validCounter = false → svc.amountMultiply svc.annualFee
        (if turn.context.yearsToPay = 0 then 1 else turn.context.yearsToPay) ≠ none) →
      Ensures (if (st.paid && st.validCounter) = true then checkAccount svc calls
        else if st.validCounter = true then preparePayment svc calls
        else do
          update fun puc => { puc with
            paymentIdentifierProvided := false
            yearsToPay := if puc.yearsToPay = 0 then 1 else puc.yearsToPay }
          preparePayment svc calls) turn (fun _ fin => TidyPolicy alone false fin)
        (fun _ _ => True) := by
    intro st renewed
    split
    · exact checkAccount_tidy idle fun fresh years => has years fresh
    split
    · exact preparePayment_tidy idle (has _)
    rename_i used
    simp only [ensures_bind, ensures_update]
    apply preparePayment_tidy
    · exact ⟨idle.operations, idle.active, idle.po, idle.cpo⟩
    · exact fun _ => renewed (by simpa using used)
  unfold checkPayment
  simp only [ensures_bind, ensures_load, ensures_shared]
  split
  · exact idle.replied _
  · next unknown => exact goOn calls.unset fun used => affordable _ used (.inr ⟨unknown, rfl⟩)
  · next st h => exact goOn st fun used => affordable _ used (.inl h)

theorem PolicyRequest.setup_idle {request : PolicyRequest}
    (read : request.setup service calls = .ok ctx) :
    ctx.con = .active ∧ ctx.po = none ∧ ctx.cpo = false := by
  unfold PolicyRequest.setup at read
  simp only [bind, Except.bind, pure, Except.pure] at read
  repeat' split at read
  all_goals first
    | (cases read
       exact ⟨rfl, rfl, rfl⟩)
    | cases read

def PolicyService.Multiplies (service : PolicyService) : Prop :=
  ∀ years, service.amountMultiply 0 years ≠ none

theorem policyPost_tidy {req : PolicyRequest} (multiplies : svc.Multiplies)
    (affordable : ∀ ctx, req.setup svc calls = .ok ctx →
      ∀ years, ctx.chargedYears svc calls shared.tables = some years →
        svc.amountMultiply svc.annualFee years ≠ none) :
    Ensures (policyPost svc req calls) ⟨puc, newContext, [], shared⟩
      (fun _ fin => TidyPolicy alone false fin) (fun _ _ => True) := by
  unfold policyPost
  cases read : req.setup svc calls with
  | error reply =>
    have idle : Idle ⟨puc, newContext, [], shared⟩ := ⟨rfl, rfl, rfl, rfl⟩
    exact idle.replied (.error reply)
  | ok ctx =>
    have charged := affordable ctx read
    unfold PolicyUploadContext.chargedYears at charged
    obtain ⟨active, po, cpo⟩ := req.setup_idle read
    rw [ensures_bind, ensures_update]
    split
    · next provided =>
      have provided : ctx.paymentIdentifierProvided = true := provided
      rw [if_pos provided] at charged
      refine checkPayment_tidy ⟨rfl, active, po, cpo⟩ provided ?_
      rintro state used (h | ⟨unknown, rfl⟩)
      · have h : checkPaymentIdentifier calls.checking ctx.paymentIdentifier
            shared.tables = .oneResult state := h
        apply charged
        simp [h, used]
      have unknown : checkPaymentIdentifier calls.checking ctx.paymentIdentifier
          shared.tables = .noResults := unknown
      apply charged
      simp [unknown, used]
    · next fresh =>
      have fresh : ¬ ctx.paymentIdentifierProvided = true := fresh
      rw [if_neg fresh] at charged
      rw [ensures_bind, ensures_update]
      split
      · next fee =>
        rw [if_neg fee] at charged
        exact beginPayment_tidy ⟨rfl, active, po, cpo⟩ (charged _ rfl)
      rename_i free
      apply recordFreePayment_tidy ⟨rfl, active, po, cpo⟩
      rw [not_not.mp free]
      exact multiplies

theorem payAgain_tidy (idle : Idle turn)
    (affordable : svc.amountMultiply svc.annualFee turn.context.yearsToPay ≠ none) :
    Ensures (payAgain svc calls) turn (fun _ fin => TidyPolicy alone false fin)
      (fun _ _ => True) := by
  unfold payAgain
  rw [ensures_bind, ensures_load]
  split
  · exact beginPayment_tidy idle affordable
  rw [ensures_bind, ensures_update]
  apply beginPayment_tidy
  · exact ⟨idle.operations, idle.active, idle.po, idle.cpo⟩
  · exact affordable

theorem storeBackup_tidy (idle : Idle turn)
    (affordable : turn.context.Exhausted calls turn.shared.tables →
      svc.amountMultiply svc.annualFee turn.context.yearsToPay ≠ none) :
    Ensures (storeBackup svc calls) turn (fun _ fin => TidyPolicy alone false fin)
      (fun _ _ => True) := by
  have kept : ∀ shared, Idle { turn with shared := shared } :=
    fun _ => ⟨idle.operations, idle.active, idle.po, idle.cpo⟩
  unfold storeBackup
  rw [ensures_bind, ensures_load, ensures_bind, ensures_database]
  split
  · next cap => exact payAgain_tidy (kept _) (affordable (.inl cap))
  · next required => exact payAgain_tidy (kept _) (affordable (.inr required))
  · exact (kept _).replied _
  · exact (kept _).replied _
  · exact (kept _).replied _
  · rw [ensures_bind, ensures_act]
    exact (kept _).replied _

theorem policyPostAgain_tidy {recoveryData : Bytes} (met : context.Settled)
    (active : context.con = .active) (affordable : context.resp = none → recoveryData = [] →
      context.Exhausted calls shared.tables →
      svc.amountMultiply svc.annualFee context.yearsToPay ≠ none) :
    Ensures (policyPostAgain svc recoveryData calls) ⟨puc, context, [], shared⟩
      (fun _ fin => TidyPolicy alone false fin) (fun _ _ => True) := by
  obtain ⟨po, cpo⟩ := met.unasked active
  have idle : Idle ⟨puc, context, [], shared⟩ := ⟨rfl, active, po, cpo⟩
  unfold policyPostAgain
  rw [ensures_bind, ensures_load]
  split
  · next reply _ =>
    have replied := @Idle.replied alone _ idle reply
    exact ⟨⟨replied.settled.merchant, replied.settled.single⟩, replied.legal⟩
  rename_i unanswered
  split
  · rw [ensures_bind, ensures_assert]
    split
    · rw [ensures_bind, ensures_assert]
      split
      · have received : Idle ⟨puc, { context with upload := context.upload ++ recoveryData }, [],
            shared⟩ := ⟨rfl, active, po, cpo⟩
        exact received.tidy
      · trivial
    · trivial
  · next ended =>
    have affordable := affordable unanswered (not_not.mp ended)
    have hashed : Idle ⟨puc, { context with hashing := false }, [], shared⟩ :=
      ⟨rfl, active, po, cpo⟩
    split
    · exact idle.tidy
    split
    · rw [ensures_bind, ensures_update]
      split
      · exact hashed.replied _
      · exact storeBackup_tidy hashed affordable
    · exact storeBackup_tidy idle affordable

/-- Both callbacks of the merchant begin with a request that waits, and take it out of the list. -/
theorem resumed_tidy (po : context.po = none) (cpo : context.cpo = false) (mem : Bool)
    (held : mem = true) (resp : Option PolicyReply) (paidUntil : Time) :
    TidyPolicy alone mem ⟨puc, { context with con := .active, resp := resp, paidUntil := paidUntil },
      [.remove], shared⟩ := by
  constructor
  · constructor
    · simp [po, cpo]
    · simp [po]
  · rw [held]
    exact .remove

theorem proposalCb_tidy {made : Bool} (met : context.Settled) (asked : context.po ≠ none) :
    Ensures (proposalCb svc made calls) ⟨puc, context, [], shared⟩
      (fun _ fin => TidyPolicy alone (policyDiscipline.listed context) fin) (fun _ _ => True) := by
  have cpo : context.cpo = false := by simpa [asked] using met.single
  have held : policyDiscipline.listed context = true := by
    simp [policyDiscipline, met.merchant (.inl asked)]
  have resumed : ∀ shared resp, TidyPolicy alone (policyDiscipline.listed context) ⟨puc,
      { context with po := none, con := .active, resp := resp }, [.remove], shared⟩ :=
    fun shared resp => @resumed_tidy alone puc { context with po := none } shared rfl cpo _ held resp
      context.paidUntil
  unfold proposalCb resume
  simp only [ensures_bind, ensures_load, ensures_update, ensures_link]
  split
  · exact resumed shared _
  split
  · simp only [ensures_bind, ensures_act, ensures_load, ensures_database]
    split
    · exact resumed _ _
    · exact resumed _ _
  simp only [ensures_bind, ensures_load, ensures_database]
  split
  · exact resumed _ _
  · exact resumed _ _

theorem checkPaymentCb_tidy {st : PolicyOrderStatus} (met : context.Settled)
    (asked : context.cpo = true) :
    Ensures (checkPaymentCb svc st calls) ⟨puc, context, [], shared⟩
      (fun _ fin => TidyPolicy alone (policyDiscipline.listed context) fin) (fun _ _ => True) := by
  have po : context.po = none := by simpa [asked] using met.single
  have held : policyDiscipline.listed context = true := by
    simp [policyDiscipline, met.merchant (.inr asked)]
  have resumed : ∀ shared resp paidUntil, TidyPolicy alone (policyDiscipline.listed context) ⟨puc,
      { context with cpo := false, con := .active, resp := resp, paidUntil := paidUntil },
      [.remove], shared⟩ :=
    fun shared resp paidUntil => @resumed_tidy alone puc { context with cpo := false } shared po rfl _
      held resp paidUntil
  unfold checkPaymentCb resume
  simp only [ensures_bind, ensures_update, ensures_link]
  cases st with
  | unauthorized => exact resumed shared _ _
  | unavailable => exact resumed shared _ _
  | paid amount =>
    cases amount with
    | none => exact resumed shared _ _
    | some amount =>
      simp only
      unfold confirmPayment
      simp only [ensures_bind, ensures_load, ensures_act, ensures_database]
      split
      · exact resumed _ _ _
      · exact resumed _ _ _
      · exact resumed _ _ _
      · exact resumed _ _ _
  | claimed =>
    simp only [ensures_bind, ensures_load]
    split
    · exact resumed shared _ _
    · exact resumed shared _ _
  | unpaid =>
    simp only [ensures_bind, ensures_load]
    split
    · exact resumed shared _ _
    · exact resumed shared _ _

def PolicyServer.Careful (service : PolicyService) (server : PolicyServer) : PolicyEvent → Prop
  | .arrives _ request calls => ∀ context, request.setup service calls = .ok context →
      ∀ years, context.chargedYears service calls server.shared.tables = some years →
        service.amountMultiply service.annualFee years ≠ none
  | .turn puc recoveryData calls => ∀ context, server.requests.get puc = some context →
      context.resp = none → recoveryData = [] → context.Exhausted calls server.shared.tables →
        service.amountMultiply service.annualFee context.yearsToPay ≠ none
  | _ => True

theorem handle_inOrder {ev : PolicyEvent} (multiplies : svc.Multiplies)
    (order : server.InOrder policyDiscipline) (awaits : server.Awaits ev)
    (careful : server.Careful svc ev) : server.handle svc ev ≠ .error .brokenList ∧
      ∀ next, server.handle svc ev = .ok next → next.InOrder policyDiscipline := by
  cases ev with
  | arrives puc req calls =>
    obtain ⟨_, fresh⟩ := awaits
    have settled : newContext.Settled := by constructor <;> simp [newContext]
    have h : (server.allocate puc newContext).requests.get puc = some newContext := by
      rw [RequestServer.allocate, Register.get_allocate, if_pos rfl]
    apply (order.allocate fresh rfl settled).tidy h
    exact policyPost_tidy multiplies careful
  | turn puc recoveryData calls =>
    obtain ⟨_, context, h, active⟩ := awaits
    have outside : policyDiscipline.listed context = false := by simp [policyDiscipline, active]
    apply order.tidy h
    rw [outside]
    exact policyPostAgain_tidy (order.settled puc context h) active (careful context h)
  | proposal puc created calls =>
    obtain ⟨context, h, asked⟩ := awaits
    exact order.tidy h (proposalCb_tidy (order.settled puc context h) asked)
  | orderChecked puc st calls =>
    obtain ⟨context, h, asked⟩ := awaits
    exact order.tidy h (checkPaymentCb_tidy (order.settled puc context h) asked)
  | done puc =>
    obtain ⟨context, h, resumed⟩ := awaits
    have outside : policyDiscipline.listed context = false := by simp [policyDiscipline, resumed]
    have eq : Carried policyDiscipline puc context server server := by
      constructor
      · exact order.intact
      · exact h
      · exact order.member puc context h
      · exact fun _ _ => rfl
      · exact fun _ _ => Iff.rfl
    refine ⟨(by rintro ⟨⟩), ?_⟩
    intro freed done
    cases done
    exact order.free outside eq

theorem PolicyUploadContext.shutDown_settled (ctx : PolicyUploadContext) :
    ctx.shutDown.Settled := by
  constructor
  · simp [PolicyUploadContext.shutDown]
  · simp [PolicyUploadContext.shutDown]

theorem shutDown_inOrder {fuel : Nat} (order : server.InOrder policyDiscipline)
    (enough : server.requests.members.length < fuel) :
    ∃ next, server.shutDown fuel = some (server.requests.members, next) ∧
      next.InOrder policyDiscipline ∧ next.requests.members = [] := by
  obtain ⟨requests, closed, emptied, closed_order⟩ :=
    order.close enough (fun ctx _ => ⟨ctx.shutDown_settled, rfl⟩) server.shared true
  exact ⟨_, by rw [PolicyServer.shutDown, closed]; rfl, closed_order, emptied⟩

theorem shutDown_ends {fuel : Nat} {visited : List Address} (order : server.InOrder policyDiscipline)
    (ended : server.shutDown fuel = some (visited, next)) :
    visited = server.requests.members ∧ next.InOrder policyDiscipline := by
  obtain ⟨again, shutDown, closed_order, _⟩ :=
    shutDown_inOrder order (Nat.lt_of_lt_of_le (Nat.lt_succ_self _)
      (Nat.le_add_left (server.requests.members.length + 1) fuel))
  obtain ⟨closed, close, eq⟩ := Option.map_eq_some_iff.mp ended
  have more := Register.close_mono (server.requests.members.length + 1) close
  rw [PolicyServer.shutDown, more, Option.map_some, eq] at shutDown
  cases shutDown
  exact ⟨rfl, closed_order⟩

def PolicyServer.CarefulStep (service : PolicyService) (server : PolicyServer) : PolicyLabel → Prop
  | .handled event => server.Careful service event
  | .shutDown _ => True

theorem start_inOrder : PolicyServer.start.InOrder policyDiscipline where
  intact := Register.empty_intact
  member puc context found := by cases found
  settled puc context found := by cases found

theorem policyRun_inOrder {labels : List PolicyLabel} (multiplies : svc.Multiplies)
    (run : Run (Guarded (PolicyServer.CarefulStep svc) (PolicyStep svc)) PolicyServer.start
      labels server) : server.InOrder policyDiscipline := by
  apply run.invariant (fun server => server.InOrder policyDiscipline) start_inOrder
  rintro server label next order ⟨careful, step⟩
  cases step with
  | handled awaits handled => exact (handle_inOrder multiplies order awaits careful).2 next handled
  | shutDown _ ended => exact (shutDown_ends order ended).2

end Anastasis.Server.PolicyPost
