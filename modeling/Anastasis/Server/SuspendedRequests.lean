import Anastasis.Server.PolicyRequestList
import Anastasis.Server.TruthRequestList

/-! The lists of suspended requests in all runs of the server, and where two requests for a truth
are enough to break one. -/

set_option autoImplicit false

namespace Anastasis.Server

open Library Library.DoublyLinked Library.Transition Stasis

variable {Context Shared : Type}

/-- The list holds exactly the requests that were inserted and not removed, each once and linked
from both ends. Those that are suspended are among them, none of them was freed, a removal unlinks
just its own request, and a shutdown visits each of them once and comes to an end. -/
structure RequestServer.ListIntegrity (suspended : Context → Prop)
    (shutDown : Nat → Option (List Address × RequestServer Context Shared))
    (server : RequestServer Context Shared) : Prop where
  intact : server.requests.Intact
  once : server.requests.members.Nodup
  allocated : ∀ address ∈ server.requests.members,
    ∃ context, server.requests.get address = some context
  suspended : ∀ address context, server.requests.get address = some context →
    suspended context → address ∈ server.requests.members
  removes : ∀ address ∈ server.requests.members, ∃ rest, server.requests.leave address = some rest ∧
    rest.Intact ∧ rest.members = server.requests.members.erase address ∧
      ∀ other, rest.get other = server.requests.get other
  closes : ∃ fuel closed, shutDown fuel = some (server.requests.members, closed) ∧
    closed.requests.Intact ∧ closed.requests.members = []

theorem RequestServer.InOrder.integrity {discipline : Discipline Context}
    {server : RequestServer Context Shared} (order : server.InOrder discipline)
    {suspended : Context → Prop}
    {shutDown : Nat → Option (List Address × RequestServer Context Shared)}
    (listed : ∀ context, discipline.settled context → suspended context →
      discipline.listed context = true)
    (closes : ∃ closed, shutDown (server.requests.members.length + 1) =
      some (server.requests.members, closed) ∧ closed.InOrder discipline ∧
      closed.requests.members = []) : server.ListIntegrity suspended shutDown := by
  obtain ⟨closed, shut, closed_order, emptied⟩ := closes
  constructor
  · exact order.intact
  · exact order.intact.nodup
  · exact fun addr mem => order.intact.allocated mem
  · intro addr context got waiting
    exact (order.member addr context got).mp
      (listed context (order.settled addr context got) waiting)
  · exact fun addr mem => order.intact.leave mem
  · exact ⟨_, closed, shut, closed_order.intact, emptied⟩

/-- In every run of careful steps both lists keep their integrity, and no careful step fails on a
list. -/
theorem suspended_requests_listed (service : ChallengeService)
    (policies : PolicyPost.PolicyService) (multiplies : policies.Multiplies) : (∀ labels server,
      Run (Guarded (TruthServer.CarefulStep service) (TruthStep service)) .start labels server →
      server.ListIntegrity (fun context => context.connection = .suspended) server.shutDown ∧
        ∀ event, server.Awaits event → server.Careful service event →
          server.handle service event ≠ .error .brokenList) ∧ ∀ labels server,
      Run (Guarded (PolicyPost.PolicyServer.CarefulStep policies) (PolicyPost.PolicyStep policies))
        .start labels server →
      server.ListIntegrity (fun context => context.con = .suspended) server.shutDown ∧
        ∀ event, server.Awaits event → server.Careful policies event →
          server.handle policies event ≠ .error .brokenList := by
  constructor
  · intro labels server run
    have order := truthRun_inOrder run
    constructor
    · apply order.integrity
      · exact fun context settled held => settled.flagged (settled.held held)
      · exact shutDown_inOrder order (Nat.lt_succ_self _)
    · exact fun event awaits careful => (handle_inOrder order awaits careful).1
  · intro labels server run
    have order := PolicyPost.policyRun_inOrder multiplies run
    constructor
    · apply order.integrity
      · exact fun context _ held => by simp [PolicyPost.policyDiscipline, held]
      · exact PolicyPost.shutDown_inOrder order (Nat.lt_succ_self _)
    · exact fun event awaits careful => (PolicyPost.handle_inOrder multiplies order awaits careful).1

def questionService : ChallengeService where
  questionCost := 1
  pluginLoad _ := none
  truthDecrypt _ _ := none
  hashAnswer _ := zeroBlock 64

def unpaidRequest : TruthRequest where
  truthUuid := ⟨List.replicate 32 1, by decide⟩
  paymentIdentifier := .absent
  truthDecryptionKey := .value ⟨List.replicate 32 2, by decide⟩
  response := .absent
  timeoutMs := .absent

def questionCalls : Calls where
  now := 10000000000
  escrow := .oneResult ⟨[], "question"⟩
  checking := none
  looking := none
  freshIdentifier := ⟨List.replicate 32 3, by decide⟩
  keyShare := .noResults
  rateLimit := ⟨0, 0, fun _ => 0, fun _ => none, fun _ => none⟩
  verifying _ := none
  validation := .valid
  random _ := 0
  creating _ := none
  satisfying := none
  starts := true
  process := .finished
  satisfies := false
  marking := none
  charging := none
  refundStarts := true

def unpaidArrival (gc : Address) : TruthEvent := .arrives gc unpaidRequest questionCalls

def TruthServer.after (server : TruthServer) (event : TruthEvent) : TruthServer :=
  match server.handle questionService event with
  | .ok next => next
  | .error _ => server

def oneWaits : TruthServer := TruthServer.start.after (unpaidArrival 0)

def twoWait : TruthServer := oneWaits.after (unpaidArrival 1)

theorem oneWaits_step : TruthStep questionService .start (.handled (unpaidArrival 0)) oneWaits :=
  .handled ⟨rfl, rfl⟩ rfl

theorem oneWaits_careful : TruthServer.start.CarefulStep questionService
    (.handled (unpaidArrival 0)) := by
  rintro context read
  constructor
  · exact fun _ => rfl
  · rintro ⟨_, lingers, _⟩
    cases lingers

def freePolicies : PolicyPost.PolicyService where
  annualFee := 0
  postCounter := 64
  uploadLimitMb := 16
  amountMultiply amount factor := some (amount * factor)
  amountDivide2 amount divisor := amount / divisor
  eddsaVerify _ _ _ := true
  hash _ := zeroBlock 64

theorem suspended_requests_listed_one : oneWaits.requests.members = [0] ∧
    oneWaits.ListIntegrity (fun context => context.connection = .suspended) oneWaits.shutDown :=
  ⟨rfl, ((suspended_requests_listed questionService freePolicies (fun _ => nofun)).1 _ _
    (.next .start ⟨oneWaits_careful, oneWaits_step⟩)).1⟩

/-- Two requests for a truth that has to be paid arrive. The list ends at the wrong one, and the
answer of the merchant to either of them fails on it. -/
theorem two_unpaid_requests_break_list : Run (TruthStep questionService) .start
        [.handled (unpaidArrival 0), .handled (unpaidArrival 1)] twoWait ∧
      ¬ twoWait.requests.Intact ∧ twoWait.Awaits (.proposal 0 true 10000000000 none) ∧
      twoWait.handle questionService (.proposal 0 true 10000000000 none) = .error .brokenList ∧
      twoWait.Awaits (.proposal 1 true 10000000000 none) ∧
      twoWait.handle questionService (.proposal 1 true 10000000000 none) = .error .brokenList := by
  have second : TruthStep questionService oneWaits (.handled (unpaidArrival 1)) twoWait :=
    .handled ⟨rfl, rfl⟩ rfl
  refine ⟨.next (.next .start oneWaits_step) second, ?_, ⟨_, rfl, rfl⟩, rfl, ⟨_, rfl, rfl⟩, rfl⟩
  intro intact
  have head : some (0 : Address) = some 1 := intact.head
  cases head

end Anastasis.Server
