import Anastasis.Reducer.ChallengeReplies

/-! Runs of the recovery reducer: actions one after the other, from the first state on. -/

set_option autoImplicit false

namespace Anastasis.Reducer.Challenges

open Library Library.Transition Client Option
open Discovery (RecoveryStates)

/-! ## The reducer -/

structure Session where
  state : RecoveryState
  action : Option Action

/-- What the user and the providers do. Another version of the document is downloaded as a whole. -/
inductive ReducerEvent where
  | act (stack : Uninitialised) (command : Command)
  | back
  | next
  | enter (target : RecoveryStates)
  | download (r : Recovery)
  | deliver (event : Event)

def recoveryStart : RecoveryState where
  recoveryState := .continentSelecting
  recoveryInformation := none
  recoveryDocument := none
  selectedChallengeUuid := none
  challengeFeedback := []
  coreSecret := none

def Session.start : Session := ⟨recoveryStart, none⟩

def Command.allowed : Command → RecoveryStates → Bool
  | .selectChallenge _, .challengeSelecting => true
  | .poll _, .challengeSelecting => true
  | .pay _, .challengePaying => true
  | .solveChallenge _, .challengeSolving => true
  | _, _ => false

def attributeStates : List RecoveryStates :=
  [.continentSelecting, .countrySelecting, .userAttributesCollecting]

namespace RecoveryState

def doneSecretSelecting (state : RecoveryState) : RecoveryState :=
  if state.recoveryInformation.isSome then state.enter .challengeSelecting else state

def backChallengeSolving (state : RecoveryState) : Except Fault RecoveryState :=
  match state.selectedChallengeUuid with
  | none => .error .assertion
  | some _ => .ok ({ state with selectedChallengeUuid := none }.enter .challengeSelecting)

def back (state : RecoveryState) : Except Fault RecoveryState :=
  match state.recoveryState with
  | .countrySelecting => .ok (state.enter .continentSelecting)
  | .userAttributesCollecting => .ok (state.enter .countrySelecting)
  | .secretSelecting => .ok (state.enter .userAttributesCollecting)
  | .challengeSelecting => .ok (state.enter .secretSelecting)
  | .challengePaying => .ok (state.enter .challengeSelecting)
  | .challengeSolving => state.backChallengeSolving
  | .continentSelecting | .recoveryFinished => .ok state

/-- A document that was downloaded, with its challenges listed for the user. -/
def found (state : RecoveryState) (r : Recovery) (rd : Json) : RecoveryState :=
  { state with
    recoveryInformation := some (r.cs.map fun c => ⟨some c.uuid, none, none⟩)
    recoveryDocument := some rd
    recoveryState := .secretSelecting }

end RecoveryState

def Outcome.result (state : RecoveryState) : Outcome → RecoveryState
  | .next _ changed => changed
  | _ => state

/-- An action is over when it has called back, with the new state or none. -/
def Action.settle (action : Action) (state : RecoveryState) : Session :=
  match action.calls with
  | [] => ⟨state, some action⟩
  | outcome :: _ => ⟨outcome.result state, none⟩

section Steps

variable (host : RecoveryHost)

def RecoveryState.perform (state : RecoveryState) : ReducerEvent → Option Session
  | .act stack command =>
    if command.allowed state.recoveryState then
      some ((Action.begin host stack state command).settle state)
    else some ⟨state, none⟩
  | .back => state.back.toOption.map (⟨·, none⟩)
  | .next =>
    if state.recoveryState = .secretSelecting then some ⟨state.doneSecretSelecting, none⟩
    else none
  | .enter target =>
    if state.recoveryState ∈ attributeStates ∧ target ∈ attributeStates then
      some ⟨state.enter target, none⟩
    else none
  | .download r =>
    if state.recoveryState ∈ [.userAttributesCollecting, .secretSelecting] then
      (recoverySerialize host.toHost r).toOption.map fun rd => ⟨state.found r rd, none⟩
    else none
  | .deliver _ => none

def Session.perform (session : Session) (event : ReducerEvent) : Option Session :=
  match session.action, event with
  | some action, .deliver event =>
    (action.deliver host event).map fun next => next.settle session.state
  | some _, _ => none
  | none, event => session.state.perform host event

def Downloaded (host : Host) (r : Recovery) : Prop :=
  ∃ idData version url salt httpStatus dd, Client.policyLookupCb host
    (recoveryBegin host idData version url salt) httpStatus dd = .ok (.accepted r)

def RecoveryStep (session : Session) (event : ReducerEvent) (next : Session) : Prop :=
  (∀ r, event = .download r → Downloaded host.toHost r) ∧ session.perform host event = some next

end Steps

/-! ## What a step does -/

/-- A challenge is being solved or paid for. -/
def RecoveryState.Engaged (state : RecoveryState) : Prop :=
  state.recoveryState = .challengeSolving ∨ state.recoveryState = .challengePaying

/-- The challenges and the selection are the same. -/
structure RecoveryState.Alike (state next : RecoveryState) : Prop where
  recoveryInformation : next.recoveryInformation = state.recoveryInformation
  recoveryDocument : next.recoveryDocument = state.recoveryDocument
  selectedChallengeUuid : next.selectedChallengeUuid = state.selectedChallengeUuid

/-- What happens between actions. -/
inductive Shift (host : RecoveryHost) (state : RecoveryState) :
    ReducerEvent → RecoveryState → Prop where
  | stays (event : ReducerEvent) : Shift host state event state
  | enters (event : ReducerEvent) {next : RecoveryState} (alike : state.Alike next)
      (idle : ¬ next.Engaged) : Shift host state event next
  | clears : Shift host state .back
      ({ state with selectedChallengeUuid := none }.enter .challengeSelecting)
  | finds {r : Recovery} {rd : Json} (downloaded : Downloaded host.toHost r)
      (written : recoverySerialize host.toHost r = .ok rd) :
      Shift host state (.download r) (state.found r rd)

theorem toOption_eq_some {Problem Value : Type} {res : Except Problem Value} {value : Value}
    (isValue : res.toOption = some value) : res = .ok value := by
  cases res with
  | error => cases isValue
  | ok =>
    cases isValue
    rfl

theorem RecoveryState.Alike.enter (st : RecoveryState) (target : RecoveryStates) :
    st.Alike (st.enter target) := ⟨rfl, rfl, rfl⟩

theorem RecoveryState.enter_idle (st : RecoveryState) {target : RecoveryStates}
    (solving : target ≠ .challengeSolving) (paying : target ≠ .challengePaying) :
    ¬ (st.enter target).Engaged := by
  intro engaged
  cases engaged with
  | inl isSolving => exact solving isSolving
  | inr isPaying => exact paying isPaying

theorem RecoveryState.back_shift {host : RecoveryHost} {st next : RecoveryState}
    (back : st.back = .ok next) : Shift host st .back next := by
  unfold RecoveryState.back at back
  have entered : ∀ target, target ≠ .challengeSolving → target ≠ .challengePaying →
      Shift host st .back (st.enter target) := by
    intro target solving paying
    exact .enters _ (.enter st target) (st.enter_idle solving paying)
  split at back
  next => cases back; exact entered _ (by decide) (by decide)
  next => cases back; exact entered _ (by decide) (by decide)
  next => cases back; exact entered _ (by decide) (by decide)
  next => cases back; exact entered _ (by decide) (by decide)
  next => cases back; exact entered _ (by decide) (by decide)
  next =>
    unfold backChallengeSolving at back
    split at back
    next => cases back
    next => cases back; exact .clears
  next => cases back; exact .stays _
  next => cases back; exact .stays _

/-- The context of an action when the policies are handed over. -/
inductive Ready (host : Host) (sctx : SelectChallengeContext) :
    Event → SelectChallengeContext → Prop where
  | read : Ready host sctx .runAsyncPc { sctx with doAsync := false }
  | downloaded {httpStatus : Nat} {dd : Option DownloadDetails} {r : Recovery}
      (accepted : Client.policyLookupCb host sctx.r httpStatus dd = .ok (.accepted r)) :
      Ready host sctx (.policyLookup httpStatus dd) { sctx with r := forgetSolved sctx.r r }

def Request.context (request : Request) (state : RecoveryState) (r : Recovery) :
    SelectChallengeContext where
  pc := request.pc
  uuid := request.uuid
  timeout := request.timeout
  ps := request.ps
  pollOnly := request.pollOnly
  args := request.args
  state := state
  r := r
  doAsync := !r.dps.isEmpty
  delayedReport := none

/-- A context whose challenge has just been solved. -/
def SelectChallengeContext.solve (sctx : SelectChallengeContext) (host : RecoveryHost)
    (position : Nat) (c : Challenge) (keyShare : KeyShare) (rd : Json) :
    SelectChallengeContext :=
  { sctx with
    r := solvedWith sctx.r position c keyShare
    state := { sctx.state with recoveryDocument := some rd }.told host c (packState "solved" []) }

/-! ## What steps preserve -/

section Preservation

variable (P : RecoveryState → Prop) (Q : SelectChallengeContext → Prop)

def KeptBy : Except Fault Reply → Prop
  | .error _ => True
  | .ok (.await sctx) => Q sctx
  | .ok (.delay sctx) => ∀ task, Q { sctx with delayedReport := some task }
  | .ok (.report outcome _) => outcome.Carries P
  | .ok (.finish outcome) => outcome.Carries P

/-- What holds between actions, and of the context of the one under way. -/
structure Kept (session : Session) : Prop where
  between : P session.state
  silent : ∀ action, session.action = some action → action.calls = []
  during : ∀ action sctx, session.action = some action → action.context = .live sctx → Q sctx

/-- The events between actions are allowed, and those of an action are what its context expects. -/
structure Follows (allowed : ReducerEvent → Prop)
    (careful : SelectChallengeContext → Event → Prop) (session : Session)
    (event : ReducerEvent) : Prop where
  between : session.action = none → allowed event
  during : ∀ action sctx delivered, session.action = some action → action.context = .live sctx →
    event = .deliver delivered → careful sctx delivered

/-- What has to be shown of each kind of step. -/
structure Preserved (host : RecoveryHost) (allowed : ReducerEvent → Prop)
    (careful : SelectChallengeContext → Event → Prop) : Prop where
  shifts : ∀ state event next, P state → allowed event → Shift host state event next → P next
  begins : ∀ state (command : Command) request rd stack r, P state →
    command.allowed state.recoveryState = true → command.request host state = .ok request →
    state.recoveryDocument = some rd → recoveryDeserialize host.toHost stack rd = .ok (some r) →
    Q (request.context state r)
  selects : ∀ sctx event now, Q sctx → careful sctx event → Ready host.toHost sctx event now →
    now.pc = .selectChallenge → now.uuid ∈ uuids now.r →
    P ((now.state.select host.toHost now.uuid).enter .challengeSolving)
  starts : ∀ sctx event now next, Q sctx → careful sctx event →
    Ready host.toHost sctx event now → Started now next → Writes host.toHost now next.state →
    next.Looking → Q next
  rests : ∀ sctx next, Q sctx → sctx.state.Alike next → ¬ next.Engaged → P next
  asks : ∀ sctx position c dd feedback, Q sctx → careful sctx (.keyshareLookup position dd) →
    sctx.Looking → Asks dd → P ((sctx.state.told host c feedback).enter .challengeSolving)
  pays : ∀ sctx position c dd feedback place ps, Q sctx →
    careful sctx (.keyshareLookup position dd) → sctx.Looking → Asks dd →
    P (((sctx.state.told host c feedback).setPaymentSecret host.toHost place ps).enter
      .challengePaying)
  instructs : ∀ sctx position c body instructions marked feedback, Q sctx →
    careful sctx (.keyshareLookup position (.externalChallengeInstructions body)) →
    sctx.r.cs[position]? = some c → parseExternalInstructions body = some instructions →
    Marks host.toHost sctx.state c.uuid instructions marked →
    P (((marked.told host c feedback).select host.toHost c.uuid).enter .challengeSolving)
  returns : ∀ sctx position c dd feedback, Q sctx → sctx.Looking →
    sctx.r.cs[position]? = some c →
    Q ((sctx.setChallenge position (returned c dd)).setFeedback host (returned c dd) feedback)
  solves : ∀ sctx position c eks keyShare rd task, Q sctx →
    careful sctx (.keyshareLookup position (.success eks)) → sctx.Looking →
    sctx.r.cs[position]? = some c →
    recoverySerialize host.toHost (solvedWith sctx.r position c keyShare) = .ok rd →
    Q { sctx.solve host position c keyShare rd with delayedReport := some task }

variable {P Q} {host : RecoveryHost} {allowed : ReducerEvent → Prop}
  {careful : SelectChallengeContext → Event → Prop} {session ses next : Session} {action : Action}
  {state st : RecoveryState} {sctx : SelectChallengeContext}

theorem Outcome.Quiet.carries {out : Outcome} (quiet : out.Quiet) : out.Carries P := by
  cases out with
  | next => exact quiet.elim
  | _ => trivial

theorem keeps_error (fault : Fault) : KeptBy P Q (.error fault) := trivial

theorem request_quiet {command : Command} {out : Outcome}
    (fails : command.request host st = .error out) : out.Quiet := by
  cases command with
  | poll => cases fails
  | selectChallenge arguments =>
    simp only [Command.request, selectChallenge] at fails
    split at fails
    next => cases fails; trivial
    next =>
      split at fails
      next => cases fails
      next => cases fails; trivial
  | solveChallenge arguments =>
    simp only [Command.request, solveChallenge] at fails
    split at fails
    next => cases fails; trivial
    next =>
      split at fails
      next => cases fails; trivial
      next => cases fails
  | pay arguments =>
    simp only [Command.request, payChallenge] at fails
    split at fails
    next => cases fails; trivial
    next =>
      split at fails
      next =>
        split at fails
        next => cases fails; trivial
        next => cases fails
      next => cases fails; trivial

theorem Kept.idle (holds : P st) : Kept P Q ⟨st, none⟩ := by
  constructor
  · exact holds
  · intro action has
    cases has
  · intro action sctx has
    cases has

theorem Kept.underWay (holds : P st) (silent : action.calls = [])
    (during : ∀ sctx, action.context = .live sctx → Q sctx) : Kept P Q (action.settle st) := by
  rw [Action.settle, silent]
  constructor
  · exact holds
  · intro _ has
    cases has
    exact silent
  intro _ sctx has
  cases has
  exact during sctx

theorem Kept.called {out : Outcome} (holds : P st) (calls : action.calls = [out])
    (carries : out.Carries P) : Kept P Q (action.settle st) := by
  rw [Action.settle, calls]
  apply Kept.idle
  cases out with
  | next => exact carries
  | _ => exact holds

theorem Kept.applied {reply : Except Fault Reply} (holds : P st) (silent : action.calls = [])
    (keeps : KeptBy P Q reply) : Kept P Q ((action.apply reply).settle st) := by
  cases reply with
  | error fault =>
    apply Kept.underWay holds
    · exact silent
    · intro sctx crashed
      cases crashed
  | ok reply =>
    cases reply with
    | await sctx =>
      apply Kept.underWay holds
      · exact silent
      intro _ cur
      cases cur
      exact keeps
    | delay sctx =>
      apply Kept.underWay holds
      · exact silent
      intro _ cur
      cases cur
      exact keeps _
    | report out sctx =>
      apply Kept.called holds _ keeps
      rw [Action.apply, silent, List.nil_append]
    | finish out =>
      apply Kept.called holds _ keeps
      rw [Action.apply, silent, List.nil_append]

theorem Preserved.settles (preserved : Preserved P Q host allowed careful) (holds : Q sctx)
    (alike : sctx.state.Alike st) {target : RecoveryStates}
    (solving : target ≠ .challengeSolving) (paying : target ≠ .challengePaying) :
    P (st.enter target) :=
  preserved.rests sctx _ holds ⟨alike.1, alike.2, alike.3⟩ (st.enter_idle solving paying)

theorem Preserved.policies (preserved : Preserved P Q host allowed careful) (holds : P st)
    (silent : action.calls = []) (during : ∀ sctx, action.context = .live sctx → Q sctx) :
    Kept P Q ((action.checkPolicies host).settle st) := by
  have unchanged := Kept.underWay holds silent during
  unfold Action.checkPolicies
  split
  next sctx current =>
    split
    next => exact unchanged
    next =>
      split
      next fault _ => exact .applied holds silent (keeps_error fault)
      next report _ =>
        apply Kept.applied holds silent
        cases report with
        | failure status => trivial
        | success coreSecret size =>
          unfold coreSecretCb
          dsimp only
          split
          next => exact trivial
          next jsecret _ =>
            have alike : sctx.state.Alike { sctx.state with coreSecret := some jsecret } :=
              ⟨rfl, rfl, rfl⟩
            exact preserved.settles (during sctx current) alike (by decide) (by decide)
  next => exact unchanged

theorem Preserved.hands (preserved : Preserved P Q host allowed careful) {event : Event}
    {now : SelectChallengeContext} (holds : Q sctx) (expected : careful sctx event)
    (ready : Ready host.toHost sctx event now) : KeptBy P Q (policyCallback host.toHost now) := by
  have handed := @policyCallback_handed host now
  generalize policyCallback host.toHost now = reply at handed ⊢
  cases handed with
  | failed quiet => exact quiet.carries
  | selected sel has =>
    exact preserved.selects sctx event now holds expected ready sel has
  | await eq writes looking =>
    exact preserved.starts sctx event now _ holds expected ready eq writes looking
  | idle quiet => exact quiet.carries
  | fault => trivial

theorem Preserved.answers (preserved : Preserved P Q host allowed careful) {pos : Nat}
    {c : Challenge} {dd : KeyShareDownloadDetails} (holds : P st) (silent : action.calls = [])
    (current : Q sctx) (expected : careful sctx (.keyshareLookup pos dd))
    (h : sctx.r.cs[pos]? = some c) (runs : c.kslo.isSome) :
    Kept P Q ((action.keyshareLookupCb host sctx pos c dd).settle st) := by
  have looking : sctx.Looking := ⟨c, List.mem_of_getElem? h, runs⟩
  by_cases ran : ∃ eks, dd = .success eks
  · obtain ⟨eks, rfl⟩ := ran
    unfold Action.keyshareLookupCb
    dsimp only
    split
    next fault _ => exact .applied holds silent (keeps_error fault)
    next r solved =>
      obtain ⟨keyShare, rfl⟩ := solveChallenge_solved solved
      unfold answerFeedbackCb solvedFeedback
      dsimp only
      split
      next fault _ =>
        apply preserved.policies holds
        · exact silent
        · intro _ live
          cases live
      next rd written =>
        apply preserved.policies holds
        · exact silent
        intro _ live
        cases live
        exact preserved.solves sctx pos c eks keyShare rd _ current expected looking h written
  · have unsuccessful : ∀ eks, dd ≠ .success eks := fun eks eq => ran ⟨eks, eq⟩
    rw [keyshareLookupCb_unsuccessful unsuccessful]
    apply Kept.applied holds silent
    have replies := @answerFeedbackCb_replies host (sctx.setChallenge pos (returned c dd))
      (returned c dd) dd unsuccessful
    generalize answerFeedbackCb host (sctx.setChallenge pos (returned c dd))
      (returned c dd) (feedback dd) = reply at replies ⊢
    cases replies with
    | fault => trivial
    | failed quiet => exact quiet.carries
    | refused _ feedback =>
      have alike : sctx.state.Alike (sctx.state.told host c feedback) := ⟨rfl, rfl, rfl⟩
      exact preserved.settles current alike (by decide) (by decide)
    | asks asks feedback => exact preserved.asks sctx pos _ dd _ current expected looking asks
    | pays asks => exact preserved.pays sctx pos _ dd _ _ _ current expected looking asks
    | instructs isBody parsed marks =>
      subst isBody
      exact preserved.instructs sctx pos c _ _ _ _ current expected h parsed marks
    | malformed => exact preserved.returns sctx pos c dd _ current looking h

theorem Preserved.delivered (preserved : Preserved P Q host allowed careful) {ev : Event}
    {after : Action} (kept : Kept P Q ses) (present : ses.action = some action)
    (expected : ∀ sctx, action.context = .live sctx → careful sctx ev)
    (step : Delivers host action ev after) : Kept P Q (after.settle ses.state) := by
  have silent := kept.silent action present
  have during := fun sctx => kept.during action sctx present
  cases step.delivered with
  | handed current handing =>
    apply Kept.applied kept.between silent
    exact preserved.hands (during _ current) (expected _ current) .read
  | @downloaded sctx httpStatus dd current loading =>
    unfold Action.policyLookupCb
    split
    next fault _ => exact .applied kept.between silent (keeps_error fault)
    next status _ =>
      have called : (action.apply (.ok (coreSecretCb host sctx (.failure status)))).calls =
          [.lookupFailed status] := by
        rw [coreSecretCb, Action.apply, silent, List.nil_append]
      split
      next => exact @Kept.called P Q _ _ _ kept.between called trivial
      next => exact .called kept.between called trivial
    next r accepted =>
      apply Kept.applied kept.between silent
      exact preserved.hands (during _ current) (expected _ current) (.downloaded accepted)
  | answered current h runs =>
    exact preserved.answers kept.between silent (during _ current) (expected _ current) h runs
  | reported intact scheduled =>
    unfold Action.reportSolved
    dsimp only
    split
    next sctx current =>
      apply Kept.applied kept.between
      · exact silent
      · have alike : sctx.state.Alike sctx.state := ⟨rfl, rfl, rfl⟩
        exact preserved.settles (during _ current) alike (by decide) (by decide)
    next =>
      apply Kept.underWay kept.between
      · exact silent
      · intro _ crashed
        cases crashed

theorem Preserved.acts (preserved : Preserved P Q host allowed careful) {stack : Uninitialised}
    {command : Command} (holds : P st) (permitted : command.allowed st.recoveryState = true) :
    Kept P Q ((Action.begin host stack st command).settle st) := by
  unfold Action.begin
  split
  next => exact @Kept.called P Q _ _ _ holds rfl (request_quiet ‹_›).carries
  next req isRequest =>
    unfold Action.start
    split
    next => exact .called holds rfl trivial
    next rd isDocument =>
      split
      next =>
        apply Kept.underWay holds rfl
        intro _ crashed
        cases crashed
      next =>
        split
        next =>
          apply Kept.underWay holds rfl
          intro _ crashed
          cases crashed
        next => exact .called holds rfl trivial
      next r read =>
        apply Kept.underWay holds rfl
        intro _ cur
        cases cur
        exact preserved.begins st command req rd stack r holds permitted isRequest isDocument read

theorem Preserved.step (preserved : Preserved P Q host allowed careful) {ev : ReducerEvent}
    (kept : Kept P Q ses) (follows : Follows allowed careful ses ev)
    (step : RecoveryStep host ses ev next) : Kept P Q next := by
  obtain ⟨downloads, ran⟩ := step
  cases isAction : ses.action with
  | some action =>
    cases ev with
    | deliver delivered =>
      simp only [Session.perform, isAction] at ran
      obtain ⟨after, step, rfl⟩ := map_eq_some_iff.mp ran
      apply preserved.delivered kept isAction _ step
      intro sctx cur
      exact follows.during action sctx delivered isAction cur rfl
    | _ => simp [Session.perform, isAction] at ran
  | none =>
    have permitted := follows.between isAction
    have shifted : ∀ {st}, Shift host ses.state ev st → Kept P Q ⟨st, none⟩ :=
      fun shift => .idle (preserved.shifts _ _ _ kept.between permitted shift)
    simp only [Session.perform, isAction] at ran
    cases ev with
    | act stack command =>
      simp only [RecoveryState.perform] at ran
      split at ran
      next permitted =>
        cases ran
        exact preserved.acts kept.between permitted
      next =>
        cases ran
        exact .idle kept.between
    | back =>
      obtain ⟨st, isState, rfl⟩ := map_eq_some_iff.mp ran
      exact shifted (RecoveryState.back_shift (toOption_eq_some isState))
    | next =>
      obtain ⟨_, eq⟩ := ite_none_right_eq_some.mp ran
      cases eq
      apply shifted
      unfold RecoveryState.doneSecretSelecting
      split
      next =>
        exact .enters _ (.enter _ _) (RecoveryState.enter_idle _ (by decide) (by decide))
      next => exact .stays _
    | enter target =>
      obtain ⟨⟨_, asked⟩, eq⟩ := ite_none_right_eq_some.mp ran
      cases eq
      have ys : ∀ target ∈ attributeStates,
          target ≠ .challengeSolving ∧ target ≠ .challengePaying := by decide
      obtain ⟨solving, paying⟩ := ys target asked
      exact shifted (.enters _ (.enter _ _) (RecoveryState.enter_idle _ solving paying))
    | download r =>
      obtain ⟨_, written⟩ := ite_none_right_eq_some.mp ran
      obtain ⟨rd, isDocument, rfl⟩ := map_eq_some_iff.mp written
      exact shifted (.finds (downloads r rfl) (toOption_eq_some isDocument))
    | deliver => cases ran

theorem Preserved.run (preserved : Preserved P Q host allowed careful)
    {events : List ReducerEvent} (kept : Kept P Q ses)
    (run : Run (Guarded (Follows allowed careful) (RecoveryStep host)) ses events next) :
    Kept P Q next := by
  apply run.invariant (Kept P Q) kept
  intro ses ev next kept step
  exact preserved.step kept step.1 step.2

end Preservation

end Anastasis.Reducer.Challenges
