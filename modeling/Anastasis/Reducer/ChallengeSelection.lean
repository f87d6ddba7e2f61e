import Anastasis.Reducer.PolicyDiscoveryRuns
import Anastasis.Reducer.RecoveryRuns

/-! The challenge that is being solved or paid for is selected, and stands in the document. -/

set_option autoImplicit false

namespace Anastasis.Reducer.Challenges

open Library Library.Transition Client

/-! ## What is promised -/

section Promise

variable (host : RecoveryHost)

/-- The selection can be parsed and names a challenge of the document. -/
def RecoveryState.Selected (state : RecoveryState) : Prop :=
  ∃ uuid, state.selectedUuid host.toHost = some uuid ∧ some uuid ∈ state.listed host.toHost

structure SelectionKept (state : RecoveryState) : Prop where
  selected : state.Engaged → state.Selected host
  back : ∃ next, state.back = .ok next
  solve : state.recoveryState = .challengeSolving → ∀ arguments,
    (Command.solveChallenge (some arguments)).request host state ≠ .error selectionMissing

/-- A provider answers a poll with a question for more only while a challenge is selected, and a
document that is downloaded during an action lists the challenges that the state has. -/
def SelectionCareful (sctx : SelectChallengeContext) : Event → Prop
  | .keyshareLookup _ dd => sctx.pollOnly = true → Asks dd → sctx.state.Selected host
  | .policyLookup httpStatus dd => ∀ r,
      Client.policyLookupCb host.toHost sctx.r httpStatus dd = .ok (.accepted r) →
        sctx.state.listed host.toHost = (uuids r).map some
  | _ => True

/-- The context has the challenges of its document; a selection that is still to be made has no
lookups. -/
structure Choosing (sctx : SelectChallengeContext) : Prop where
  listed : sctx.state.listed host.toHost = (uuids sctx.r).map some
  selected : sctx.state.Selected host ∨ sctx.pollOnly = true ∨
    sctx.pc = .selectChallenge ∧ ¬ sctx.Looking

end Promise

/-! ## What steps preserve -/

section Steps

variable {host : RecoveryHost} {state st marked : RecoveryState} {sctx now : SelectChallengeContext}
  {event ev : Event} {uuid : TruthUuid} {position pos : Nat} {c : Challenge}

theorem select_selected (mem : some uuid ∈ st.listed host.toHost) :
    (st.select host.toHost uuid).Selected host :=
  ⟨uuid, host.stringToData_dataToString 32 uuid, mem⟩

theorem csItems_length_setInCs {place : Nat} {name : String} {field : Json}
    (mem : place < st.csItems.length) : place < (st.setInCs place name field).csItems.length := by
  rw [csItems_setInCs mem, List.length_modify]
  exact mem

theorem Marks.listed {instructions : ExternalInstructions}
    (marks : Marks host.toHost st uuid instructions marked) :
    marked.listed host.toHost = st.listed host.toHost := by
  cases marks with
  | immediate => rfl
  | async _ h =>
    have mem := findChallengeInCs_inside h
    rw [listed_setInCs (csItems_length_setInCs mem) (by decide),
      listed_setInCs mem (by decide)]

theorem solvedWith_uuids {r : Recovery} (h : r.cs[pos]? = some c) (keyShare : KeyShare) :
    uuids (solvedWith r pos c keyShare) = uuids r := map_set_same h rfl

theorem Choosing.running (choosing : Choosing host sctx) (looking : sctx.Looking) :
    sctx.state.Selected host ∨ sctx.pollOnly = true := by
  cases choosing.selected with
  | inl r => exact .inl r
  | inr ys =>
    cases ys with
    | inl polls => exact .inr polls
    | inr early => exact absurd looking early.2

theorem Choosing.asked {dd : KeyShareDownloadDetails} (choosing : Choosing host sctx)
    (careful : SelectionCareful host sctx (.keyshareLookup pos dd)) (looking : sctx.Looking)
    (asks : Asks dd) : sctx.state.Selected host := by
  cases choosing.running looking with
  | inl r => exact r
  | inr polls => exact careful polls asks

theorem Choosing.ready (choosing : Choosing host sctx)
    (careful : SelectionCareful host sctx ev) (ready : Ready host.toHost sctx ev now) :
    now.state.listed host.toHost = (uuids now.r).map some := by
  cases ready with
  | read => exact choosing.listed
  | @downloaded _ _ r accepted => exact careful r accepted

theorem Ready.same (ready : Ready host.toHost sctx ev now) :
    now.state = sctx.state ∧ now.pollOnly = sctx.pollOnly ∧ now.pc = sctx.pc := by
  cases ready with
  | read => exact ⟨rfl, rfl, rfl⟩
  | downloaded => exact ⟨rfl, rfl, rfl⟩

theorem Writes.selected {written : RecoveryState} (writes : Writes host.toHost now written)
    (listed : now.state.listed host.toHost = (uuids now.r).map some)
    (pre : now.state.Selected host ∨ now.pc = .selectChallenge) : written.Selected host := by
  have kept : written.selectedUuid host.toHost = now.state.selectedUuid host.toHost →
      now.pc ≠ .selectChallenge → written.Selected host := by
    intro sameSelection notSelecting
    obtain ⟨uuid, isSelected, known⟩ := pre.resolve_right notSelecting
    exact ⟨uuid, sameSelection.trans isSelected, writes.listed ▸ known⟩
  cases writes with
  | selection _ known =>
    apply select_selected
    rw [listed]
    exact List.mem_map_of_mem known
  | nothing solving => exact kept rfl (by rw [solving]; decide)
  | answer solving => exact kept rfl (by rw [solving]; decide)
  | pin solving => exact kept rfl (by rw [solving]; decide)
  | payment paying => exact kept rfl (by rw [paying]; decide)

theorem Choosing.begun {command : Command} {req : Request} {rd : Json} {r : Recovery}
    {stack : Uninitialised} (holds : st.Engaged → st.Selected host)
    (permitted : command.allowed st.recoveryState = true)
    (isRequest : command.request host st = .ok req) (isDocument : st.recoveryDocument = some rd)
    (read : recoveryDeserialize host.toHost stack rd = .ok (some r)) :
    Choosing host (req.context st r) := by
  have readFrom := recoveryDeserialize_readFrom read
  constructor
  · exact readFrom.listed isDocument
  cases command with
  | selectChallenge arguments =>
    simp only [Command.request, selectChallenge] at isRequest
    split at isRequest
    next => cases isRequest
    next =>
      split at isRequest
      next =>
        cases isRequest
        apply Or.inr
        apply Or.inr
        constructor
        · rfl
        intro looking
        obtain ⟨c, mem, runs⟩ := looking
        obtain ⟨item, _, parsed⟩ := forall₂_mem_right readFrom.items mem
        rw [(deserializeChallenge_fields parsed).2.2.1] at runs
        cases runs
      next => cases isRequest
  | poll arguments =>
    cases isRequest
    exact .inr (.inl rfl)
  | solveChallenge arguments =>
    apply Or.inl
    apply holds
    unfold Command.allowed at permitted
    split at permitted <;> simp_all [RecoveryState.Engaged]
  | pay arguments =>
    apply Or.inl
    apply holds
    unfold Command.allowed at permitted
    split at permitted <;> simp_all [RecoveryState.Engaged]

theorem selection_preserved :
    Preserved (fun state => state.Engaged → state.Selected host) (Choosing host) host
      (fun _ => True) (SelectionCareful host) where
  shifts state event next holds _ shift engaged := by
    cases shift with
    | stays => exact holds engaged
    | enters _ _ idle => exact absurd engaged idle
    | clears => exact absurd engaged (RecoveryState.enter_idle _ (by decide) (by decide))
    | @finds r rd _ _ => exact absurd engaged (@RecoveryState.enter_idle
        (state.found r rd) .secretSelecting (by decide) (by decide))
  begins state command request rd stack r holds permitted isRequest isDocument read :=
    .begun holds permitted isRequest isDocument read
  selects sctx event now holds careful ready _ known _ := by
    apply @select_selected host now.state
    rw [holds.ready careful ready]
    exact List.mem_map_of_mem known
  starts sctx event now next holds careful ready eq writes _ := by
    have listed := holds.ready careful ready
    obtain ⟨sameState, samePoll, samePc⟩ := ready.same
    constructor
    · rw [writes.listed, eq.uuids, listed]
    cases holds.selected with
    | inl ran => exact .inl (writes.selected listed (.inl (sameState ▸ ran)))
    | inr ys =>
      cases ys with
      | inl polls => exact .inr (.inl (eq.pollOnly.trans (samePoll.trans polls)))
      | inr early => exact .inl (writes.selected listed (.inr (samePc.trans early.1)))
  rests sctx next _ _ idle engaged := absurd engaged idle
  asks sctx position c dd feedback holds careful looking asks _ := holds.asked careful looking asks
  pays sctx position c dd feedback place ps holds careful looking asks _ :=
    holds.asked careful looking asks
  instructs sctx position c body instructions marked feedback holds _ found _ marks _ := by
    apply @select_selected host (marked.told host c feedback)
    have mem : c.uuid ∈ uuids sctx.r := List.mem_map_of_mem (List.mem_of_getElem? found)
    have listed : some c.uuid ∈ marked.listed host.toHost := by
      rw [marks.listed, holds.listed]
      exact List.mem_map_of_mem mem
    exact listed
  returns sctx position c dd feedback holds looking found := by
    have eq : uuids (sctx.setChallenge position (returned c dd)).r = uuids sctx.r :=
      map_set_same found rfl
    constructor
    · exact holds.listed.trans (eq ▸ rfl)
    · exact (holds.running looking).elim .inl fun polls => .inr (.inl polls)
  solves sctx position c eks keyShare rd task holds _ looking found written := by
    have listed : (sctx.solve host position c keyShare rd).state.listed host.toHost =
        sctx.state.listed host.toHost := by
      rw [holds.listed, ← solvedWith_uuids found keyShare]
      exact listed_serialized written rfl
    constructor
    · rw [listed, holds.listed, ← solvedWith_uuids found keyShare]
      rfl
    cases holds.running looking with
    | inr polls => exact .inr (.inl polls)
    | inl ran =>
      obtain ⟨uuid, isSelected, known⟩ := ran
      exact .inl ⟨uuid, isSelected, listed ▸ known⟩

theorem SelectionKept.of (holds : state.Engaged → state.Selected host) :
    SelectionKept host state := by
  constructor
  · exact holds
  · unfold RecoveryState.back
    cases isState : state.recoveryState with
    | challengeSolving =>
      obtain ⟨uuid, isSelected, _⟩ := holds (.inl isState)
      unfold RecoveryState.backChallengeSolving
      cases chosen : state.selectedChallengeUuid with
      | none => simp [RecoveryState.selectedUuid, chosen] at isSelected
      | some v => exact ⟨_, rfl⟩
    | _ => exact ⟨_, rfl⟩
  · intro solving arguments
    obtain ⟨uuid, isSelected, _⟩ := holds (.inl solving)
    simp [Command.request, solveChallenge, isSelected]

end Steps

/-! ## Runs -/

/-- When a provider answers a poll with a question for more only while a challenge is selected, and
no document with other challenges is downloaded during an action, a challenge that is solved or paid
for is selected. -/
theorem selection_kept {host : RecoveryHost} {events : List ReducerEvent} {session : Session}
    (run : Run (Guarded (Follows (fun _ => True) (SelectionCareful host)) (RecoveryStep host))
      .start events session) : SelectionKept host session.state := by
  apply SelectionKept.of
  have initial : Kept (fun state => state.Engaged → state.Selected host) (Choosing host)
      Session.start := by
    apply Kept.idle
    intro engaged
    exact absurd engaged (recoveryStart.enter_idle (by decide) (by decide))
  exact (selection_preserved.run initial run).between

section Examples

open Discovery

def exampleSolution : Arguments where
  uuid := .given questionTruth.uuid
  timeout := .missing
  paymentSecret := .missing
  answer := some (.string "")
  pin := none
  hash := .missing

/-- A document is found, and its only challenge is selected. -/
def exampleSelecting : List ReducerEvent :=
  [.enter .userAttributesCollecting, .download (exampleRead "https://a/"), .next,
    .act .null (.selectChallenge (some exampleSolution)), .deliver .runAsyncPc]

/-- The challenge turns out to be asynchronous, the user goes back, and a poll is redirected. -/
def examplePolling : List ReducerEvent :=
  exampleSelecting ++
    [.act .null (.solveChallenge (some exampleSolution)), .deliver .runAsyncPc,
      .deliver (.keyshareLookup 0 (.externalChallengeInstructions (.object
        [("method", .string ""), ("async", .boolean true), ("details", .object [])]))),
      .back, .act .null (.poll none), .deliver .runAsyncPc,
      .deliver (.keyshareLookup 0 (.redirectForAuthentication (some "")))]

theorem example_downloaded {events : List ReducerEvent} (ev : ReducerEvent)
    (mem : ev ∈ events) (listed : ∀ r, .download r ∈ events → r = exampleRead "https://a/")
    (r : Recovery) (isDownload : ev = .download r) : Downloaded plainHost.toHost r := by
  subst isDownload
  rw [listed r mem]
  exact ⟨.object [], 0, "https://a/", zeroBlock 16, _, _, example_accepted "https://a/"⟩

theorem poll_without_selection : ¬ ∀ host events session,
    Run (RecoveryStep host) .start events session → SelectionKept host session.state := by
  intro kept
  have ends : (examplePolling.foldlM (Session.perform plainHost) .start).map (fun session =>
      decide (session.state.recoveryState = .challengeSolving ∧
        session.state.selectedChallengeUuid.isNone)) = some true := by decide +kernel
  obtain ⟨session, success, isEnd⟩ := Option.map_eq_some_iff.mp ends
  obtain ⟨solving, unselected⟩ := of_decide_eq_true isEnd
  have run : Run (RecoveryStep plainHost) .start examplePolling session := by
    apply Run.ofFoldlM_mem _ success
    intro state event next member performed
    refine ⟨example_downloaded event member ?_, performed⟩
    intro r listed
    simpa [examplePolling, exampleSelecting] using listed
  obtain ⟨uuid, selected, -⟩ := (kept plainHost _ session run).selected (.inl solving)
  rw [RecoveryState.selectedUuid, Option.isNone_iff_eq_none.mp unselected] at selected
  cases selected

theorem selected_challenge_kept : ∃ session,
    Run (Guarded (Follows (fun _ => True) (SelectionCareful plainHost)) (RecoveryStep plainHost))
      .start exampleSelecting session ∧
    session.state.recoveryState = .challengeSolving ∧ SelectionKept plainHost session.state := by
  have ends : (exampleSelecting.foldlM (Session.perform plainHost) .start).map (fun session =>
      decide (session.state.recoveryState = .challengeSolving)) = some true := by decide +kernel
  obtain ⟨session, success, isEnd⟩ := Option.map_eq_some_iff.mp ends
  have run : Run (Guarded (Follows (fun _ => True) (SelectionCareful plainHost))
      (RecoveryStep plainHost)) .start exampleSelecting session := by
    apply Run.ofFoldlM_mem _ success
    intro state event next member performed
    refine ⟨⟨fun _ => trivial, ?_⟩, example_downloaded event member ?_, performed⟩
    · intro action sctx delivered _ _ isDelivery
      subst isDelivery
      have isRead : delivered = .runAsyncPc := by simpa [exampleSelecting] using member
      subst isRead
      trivial
    · intro r listed
      simpa [exampleSelecting] using listed
  exact ⟨session, run, of_decide_eq_true isEnd, selection_kept run⟩

end Examples

end Anastasis.Reducer.Challenges
