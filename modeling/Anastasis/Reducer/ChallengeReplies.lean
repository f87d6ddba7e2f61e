import Anastasis.Reducer.ChallengeDocuments

/-! What the replies of an action do to the state and to the recovery of its context. -/

set_option autoImplicit false

namespace Anastasis.Reducer.Challenges

open Library Client List

variable {host : RecoveryHost}

def Outcome.Carries (carries : RecoveryState → Prop) : Outcome → Prop
  | .next _ state => carries state
  | _ => True

def Outcome.Quiet (outcome : Outcome) : Prop := outcome.Carries fun _ => False

/-! ## Handing over the policies -/

def mark (c : Challenge) : TruthUuid × Bool := (c.uuid, c.async)

structure Started (sctx next : SelectChallengeContext) : Prop where
  pc : next.pc = sctx.pc
  uuid : next.uuid = sctx.uuid
  args : next.args = sctx.args
  pollOnly : next.pollOnly = sctx.pollOnly
  delayedReport : next.delayedReport = sctx.delayedReport
  doAsync : next.doAsync = sctx.doAsync
  plo : next.r.plo = sctx.r.plo
  dps : next.r.dps = sctx.r.dps
  marks : next.r.cs.map mark = sctx.r.cs.map mark

def SelectChallengeContext.Looking (sctx : SelectChallengeContext) : Prop :=
  ∃ c ∈ sctx.r.cs, c.kslo.isSome

def RecoveryState.select (state : RecoveryState) (host : Host) (uuid : TruthUuid) :
    RecoveryState :=
  { state with selectedChallengeUuid := packData host uuid.val }

inductive Writes (host : Host) (sctx : SelectChallengeContext) : RecoveryState → Prop where
  | nothing (solving : sctx.pc = .solveChallenge) : Writes host sctx sctx.state
  | selection (selecting : sctx.pc = .selectChallenge) (known : sctx.uuid ∈ uuids sctx.r) :
      Writes host sctx (sctx.state.select host sctx.uuid)
  | answer (solving : sctx.pc = .solveChallenge) {entry : Nat}
      (found : findChallengeInCs host sctx.state sctx.uuid = some entry) (answer : Json) :
      Writes host sctx (sctx.state.setInCs entry "answer" answer)
  | pin (solving : sctx.pc = .solveChallenge) {entry : Nat}
      (found : findChallengeInCs host sctx.state sctx.uuid = some entry)
      (asked : sctx.pollOnly = false) (unmarked : (sctx.uuid, false) ∈ sctx.r.cs.map mark)
      {pin : Int} (given : (sctx.args.bind Arguments.pin).bind Json.number? = some pin) :
      Writes host sctx (sctx.state.setInCs entry "answer-pin" (.number pin))
  | payment (paying : sctx.pc = .payChallenge) (place : Nat) :
      Writes host sctx (sctx.state.setPaymentSecret host place sctx.ps)

theorem Writes.listed {host : Host} {sctx : SelectChallengeContext} {st : RecoveryState}
    (writes : Writes host sctx st) : st.listed host = sctx.state.listed host := by
  cases writes with
  | answer _ h => exact listed_setInCs (findChallengeInCs_inside h) (by decide)
  | pin _ h => exact listed_setInCs (findChallengeInCs_inside h) (by decide)
  | _ => rfl

section Policies

variable {sctx next mid : SelectChallengeContext} {place : Nat}
  {operation : Challenge → Challenge}

theorem Started.refl (sctx : SelectChallengeContext) : Started sctx sctx :=
  ⟨rfl, rfl, rfl, rfl, rfl, rfl, rfl, rfl, rfl⟩

theorem Started.trans (x : Started sctx mid) (y : Started mid next) : Started sctx next where
  pc := y.pc.trans x.pc
  uuid := y.uuid.trans x.uuid
  args := y.args.trans x.args
  pollOnly := y.pollOnly.trans x.pollOnly
  delayedReport := y.delayedReport.trans x.delayedReport
  doAsync := y.doAsync.trans x.doAsync
  plo := y.plo.trans x.plo
  dps := y.dps.trans x.dps
  marks := y.marks.trans x.marks

theorem uuids_eq_marks (r : Recovery) : uuids r = (r.cs.map mark).map Prod.fst := by
  rw [List.map_map]
  rfl

theorem Started.uuids (eq : Started sctx next) : uuids next.r = uuids sctx.r := by
  rw [uuids_eq_marks, uuids_eq_marks, eq.marks]

theorem map_set_same {Item Image : Type} {items : List Item} {item replacement : Item}
    {image : Item → Image} (h : items[place]? = some item) (eq : image replacement = image item) :
    (items.set place replacement).map image = items.map image := by
  rw [map_set, eq]
  apply ext_getElem?
  intro idx
  rw [getElem?_set]
  by_cases here : place = idx
  · subst here
    obtain ⟨mem, rfl⟩ := List.getElem?_eq_some_iff.mp h
    simp [mem]
  · simp [here]

theorem challengeStart_mark (c : Challenge) (psp : Option PaymentSecret) (timeout : Nat)
    (hashedAnswer : Option HashCode) :
    mark (challengeStart host.toHost c psp timeout hashedAnswer) = mark c := by
  unfold challengeStart
  split
  next => rfl
  next => rfl

theorem challengeAnswer_mark (c : Challenge) (psp : Option PaymentSecret) (timeout : Nat)
    (answer : Bytes) : mark (challengeAnswer host.toHost c psp timeout answer) = mark c :=
  challengeStart_mark { c with answer := some answer } psp timeout _

theorem start_spec (keeps : ∀ c, mark (operation c) = mark c)
    (st : sctx.start place operation = some next) :
    next.state = sctx.state ∧ Started sctx next ∧ next.Looking := by
  unfold SelectChallengeContext.start at st
  split at st
  next => cases st
  next c h =>
    split at st
    next => cases st
    next =>
      split at st
      next runs =>
        cases st
        have mem := (List.getElem?_eq_some_iff.mp h).1
        refine ⟨rfl, ⟨rfl, rfl, rfl, rfl, rfl, rfl, rfl, rfl, ?_⟩, operation c, ?_, runs⟩
        · exact map_set_same h (keeps c)
        · exact mem_set mem (operation c)
      next => cases st

theorem resumeAsync_spec {timeout : Nat} {places : List Nat} {pre after : Bool}
    (resumed : resumeAsync host.toHost timeout places sctx pre = .ok (next, after)) :
    next.state = sctx.state ∧ Started sctx next ∧ (after = false → next = sctx) ∧
      (pre = true → after = true) ∧ (sctx.Looking → next.Looking) ∧
      (after = true → pre = true ∨ next.Looking) := by
  induction places generalizing sctx pre with
  | nil =>
    cases resumed
    exact ⟨rfl, .refl _, fun _ => rfl, id, id, .inl⟩
  | cons place rest ih =>
    unfold resumeAsync at resumed
    split at resumed
    next => exact ih resumed
    next c h =>
      split at resumed
      next => exact ih resumed
      next =>
        split at resumed
        next => cases resumed
        next =>
          split at resumed
          next => cases resumed
          next pin has =>
            split at resumed
            next => cases resumed
            next mid st =>
              obtain ⟨sameState, x, looking⟩ := start_spec (fun c => challengeStart_mark c _ _ _) st
              obtain ⟨laterState, y, _, cnt, persists, _⟩ := ih resumed
              refine ⟨laterState.trans sameState, x.trans y, ?_,
                fun _ => cnt rfl, fun _ => persists looking, fun _ => .inr (persists looking)⟩
              intro idle
              rw [cnt rfl] at idle
              cases idle

theorem resumeAsync_quiet {timeout : Nat} {places : List Nat} {pre : Bool} {out : Outcome}
    (fails : resumeAsync host.toHost timeout places sctx pre = .error out) :
    out.Quiet := by
  induction places generalizing sctx pre with
  | nil => cases fails
  | cons place rest ih =>
    unfold resumeAsync at fails
    split at fails
    next => exact ih fails
    next =>
      split at fails
      next => exact ih fails
      next =>
        split at fails
        next => cases fails; exact trivial
        next =>
          split at fails
          next => cases fails; exact trivial
          next =>
            split at fails
            next => cases fails; exact trivial
            next => exact ih fails

theorem listedPaymentSecret_quiet {code : ErrorCode} {info : InfoChallenge} {out : Outcome}
    (fails : listedPaymentSecret host.toHost code info = .error out) : out.Quiet := by
  unfold listedPaymentSecret at fails
  split at fails
  next => cases fails
  next =>
    split at fails
    next => cases fails; exact trivial
    next => cases fails

/-- What handing over the policies can end with. A fault needs a document that does not list the
selected challenge although the recovery has it. -/
inductive Handed (host : RecoveryHost) (sctx : SelectChallengeContext) :
    Except Fault Reply → Prop where
  | failed {outcome : Outcome} (quiet : outcome.Quiet) : Handed host sctx (.ok (.finish outcome))
  | selected (selecting : sctx.pc = .selectChallenge) (known : sctx.uuid ∈ uuids sctx.r) :
      Handed host sctx (.ok (.finish (.next ErrorCode.none
        ((sctx.state.select host.toHost sctx.uuid).enter .challengeSolving))))
  | await {next : SelectChallengeContext} (same : Started sctx next)
      (writes : Writes host.toHost sctx next.state) (looking : next.Looking) :
      Handed host sctx (.ok (.await next))
  | idle {outcome : Outcome} (quiet : outcome.Quiet) : Handed host sctx (.ok (.report outcome sctx))
  | fault (fault : Fault) (solving : sctx.pc = .solveChallenge) (asked : sctx.pollOnly = false)
      (known : sctx.uuid ∈ uuids sctx.r)
      (unlisted : some sctx.uuid ∉ sctx.state.listed host.toHost) : Handed host sctx (.error fault)

theorem Handed.begun (eq : Started sctx mid) (writes : Writes host.toHost sctx mid.state)
    (keeps : ∀ c, mark (operation c) = mark c) :
    Handed host sctx (.ok (mid.begin place operation)) := by
  unfold SelectChallengeContext.begin
  cases st : mid.start place operation with
  | none => exact .failed trivial
  | some next =>
    obtain ⟨sameState, onward, runs⟩ := start_spec keeps st
    exact .await (eq.trans onward) (sameState ▸ writes) runs

theorem find_mark {cond : Challenge → Bool} {c : Challenge} (h : sctx.find cond = some (c, place)) :
    cond c = true ∧ sctx.r.cs[place]? = some c ∧ mark c ∈ sctx.r.cs.map mark := by
  have meets := find?_some h
  have has := mem_zipIdx_iff_getElem?.mp (mem_of_find?_eq_some h)
  exact ⟨meets, has, List.mem_map_of_mem (mem_of_getElem? has)⟩

theorem answerSelected_handed (eq : Started sctx mid) (sameState : mid.state = sctx.state)
    (solving : sctx.pc = .solveChallenge) (asked : sctx.pollOnly = false) {timeout : Nat}
    {psp : Option PaymentSecret} {c : Challenge} {entry : Nat}
    (unmarked : (sctx.uuid, false) ∈ sctx.r.cs.map mark)
    (h : findChallengeInCs host.toHost sctx.state sctx.uuid = some entry) :
    Handed host sctx (.ok (answerSelected host.toHost mid timeout psp c place entry)) := by
  have wrote : ∀ name field, (mid.setInCs entry name field).state =
      sctx.state.setInCs entry name field := by
    intro name field
    rw [← sameState]
    rfl
  have onward : ∀ name field, Started sctx (mid.setInCs entry name field) :=
    fun _ _ => eq.trans ⟨rfl, rfl, rfl, rfl, rfl, rfl, rfl, rfl, rfl⟩
  have nothing : Writes host.toHost sctx mid.state := sameState ▸ .nothing solving
  unfold answerSelected
  split
  next =>
    split
    next => exact .failed trivial
    next ans given =>
      apply Handed.begun (onward _ _) _ (fun c => challengeAnswer_mark c _ _ _)
      rw [wrote]
      exact .answer solving h _
  next =>
    split
    next pin given =>
      apply Handed.begun (onward _ _) _ (fun c => challengeStart_mark c _ _ _)
      rw [wrote]
      exact .pin solving h asked unmarked (eq.args ▸ given)
    next =>
      split
      next => exact .begun eq nothing fun c => challengeStart_mark c _ _ _
      next => exact .failed trivial
      next => exact .begun eq nothing fun c => challengeStart_mark c _ _ _

theorem solveSelected_handed (eq : Started sctx mid) (sameState : mid.state = sctx.state)
    {timeout : Nat} (solving : sctx.pc = .solveChallenge) (asked : sctx.pollOnly = false) :
    Handed host sctx (solveSelected host.toHost mid timeout) := by
  unfold solveSelected
  split
  next => exact .failed trivial
  next =>
    dsimp only
    split
    next out fails =>
      apply Handed.failed
      split at fails
      next => cases fails
      next => cases fails; exact trivial
      next => exact listedPaymentSecret_quiet fails
    next =>
      split
      next => exact .failed trivial
      next c place h =>
        obtain ⟨meets, _, mem⟩ := find_mark h
        split
        next => exact .failed trivial
        next =>
          have marked : mark c = (sctx.uuid, false) := by
            simp only [Bool.and_eq_true, Bool.not_eq_true', decide_eq_true_eq] at meets
            exact Prod.ext (meets.2.trans eq.uuid) meets.1
          have r : c.uuid = sctx.uuid := congrArg Prod.fst marked
          rw [eq.marks, marked] at mem
          rw [r, sameState]
          split
          next gone =>
            apply Handed.fault _ solving asked
            · rw [uuids_eq_marks]
              exact List.mem_map_of_mem mem
            · rw [← findChallengeInCs_isSome_iff, gone]
              exact Bool.false_ne_true
          next e has =>
            exact answerSelected_handed eq sameState solving asked mem has

theorem selectChallengeCb_handed (sel : sctx.pc = .selectChallenge) :
    Handed host sctx (.ok (selectChallengeCb host.toHost sctx)) := by
  unfold selectChallengeCb
  split
  next => exact .failed trivial
  next =>
    dsimp only
    split
    next out fails =>
      apply Handed.failed
      split at fails
      next => cases fails
      next => cases fails; exact trivial
      next =>
        split at fails
        next => cases fails; exact trivial
        next => exact listedPaymentSecret_quiet fails
    next =>
      split
      next => exact .failed trivial
      next c place h =>
        obtain ⟨meets, has, _⟩ := find_mark h
        have ran : c.uuid = sctx.uuid := of_decide_eq_true meets
        have known : sctx.uuid ∈ uuids sctx.r := List.mem_map.mpr ⟨c, mem_of_getElem? has, ran⟩
        split
        next => exact .failed trivial
        next =>
          have eq : Started sctx { sctx with
              state := sctx.state.select host.toHost sctx.uuid } :=
            ⟨rfl, rfl, rfl, rfl, rfl, rfl, rfl, rfl, rfl⟩
          have writes := @Writes.selection host.toHost sctx sel known
          unfold triggerSelected
          rw [ran]
          dsimp only
          split
          next => exact .selected sel known
          next =>
            split
            next =>
              exact @Handed.begun _ _ _ _ _ eq writes fun c => challengeStart_mark c _ _ _
            next =>
              exact @Handed.begun _ _ _ _ _ eq writes fun c => challengeStart_mark c _ _ _

theorem solveChallengeCb_handed (solving : sctx.pc = .solveChallenge) :
    Handed host sctx (solveChallengeCb host.toHost sctx) := by
  unfold solveChallengeCb
  split
  next => exact .failed trivial
  next =>
    split
    next out fails => exact .failed (resumeAsync_quiet fails)
    next mid pollStarted resumed =>
      obtain ⟨sameState, eq, idle, _, _, looking⟩ := resumeAsync_spec resumed
      split
      next =>
        split
        next runs =>
          exact .await eq (sameState ▸ .nothing solving)
            ((looking runs).resolve_left Bool.false_ne_true)
        next none =>
          rw [idle (Bool.eq_false_iff.mpr none)]
          exact .idle trivial
      next asked =>
        exact solveSelected_handed eq sameState solving
          (eq.pollOnly.symm.trans (Bool.eq_false_iff.mpr asked))

theorem payChallengeCb_handed (paying : sctx.pc = .payChallenge) :
    Handed host sctx (.ok (payChallengeCb host.toHost sctx)) := by
  unfold payChallengeCb
  split
  next => exact .failed trivial
  next place info _ =>
    have eq : Started sctx { sctx with
        state := sctx.state.setPaymentSecret host.toHost place sctx.ps } :=
      ⟨rfl, rfl, rfl, rfl, rfl, rfl, rfl, rfl, rfl⟩
    have writes := @Writes.payment host.toHost sctx paying place
    dsimp only
    split
    next => exact .failed trivial
    next =>
      split
      next => exact .failed trivial
      next =>
        split
        next =>
          split
          next => exact .failed trivial
          next => exact .begun eq writes fun c => challengeAnswer_mark c _ _ _
        next => exact .begun eq writes fun c => challengeStart_mark c _ _ _

theorem policyCallback_handed (sctx : SelectChallengeContext) :
    Handed host sctx (policyCallback host.toHost sctx) := by
  unfold policyCallback
  split
  next sel => exact selectChallengeCb_handed sel
  next solving => exact solveChallengeCb_handed solving
  next paying => exact payChallengeCb_handed paying

end Policies

/-! ## Answers -/

section Answers

variable {now : SelectChallengeContext} {answered : Challenge}

def RecoveryState.told (state : RecoveryState) (host : RecoveryHost) (answered : Challenge)
    (feedback : Json) : RecoveryState :=
  state.setFeedback host.toHost answered.uuid feedback

/-- What instructions for an external challenge write into the document. -/
inductive Marks (host : Host) (state : RecoveryState) (uuid : TruthUuid)
    (instructions : ExternalInstructions) : RecoveryState → Prop where
  | immediate (notAsync : instructions.isAsync = false) : Marks host state uuid instructions state
  | async (isAsync : instructions.isAsync = true) {entry : Nat}
      (found : findChallengeInCs host state uuid = some entry) :
      Marks host state uuid instructions ((state.setInCs entry "async" (.boolean true)).setInCs
        entry "answer-pin" (.number instructions.code))

def Asks : KeyShareDownloadDetails → Prop
  | .invalidAnswer _ _ _ | .redirectForAuthentication _ | .paymentRequired _ _ => True
  | _ => False

inductive Replies (host : RecoveryHost) (now : SelectChallengeContext) (answered : Challenge)
    (dd : KeyShareDownloadDetails) : Except Fault Reply → Prop where
  | fault (fault : Fault) : Replies host now answered dd (.error fault)
  | failed {outcome : Outcome} (quiet : outcome.Quiet) :
      Replies host now answered dd (.ok (.finish outcome))
  | refused (code : ErrorCode) (feedback : Json) :
      Replies host now answered dd (.ok (.finish (.next code
        ((now.state.told host answered feedback).enter .challengeSelecting))))
  | asks (asks : Asks dd) (feedback : Json) :
      Replies host now answered dd (.ok (.finish (.next ErrorCode.none
        ((now.state.told host answered feedback).enter .challengeSolving))))
  | pays (asks : Asks dd) (feedback : Json) (place : Nat) (ps : PaymentSecret) :
      Replies host now answered dd (.ok (.finish (.next ErrorCode.none
        (((now.state.told host answered feedback).setPaymentSecret host.toHost place ps).enter
          .challengePaying))))
  | instructs {body : Json} (isBody : dd = .externalChallengeInstructions body)
      {instructions : ExternalInstructions}
      (parsed : parseExternalInstructions body = some instructions) {marked : RecoveryState}
      (marks : Marks host.toHost now.state answered.uuid instructions marked) (feedback : Json) :
      Replies host now answered dd (.ok (.finish (.next ErrorCode.none
        (((marked.told host answered feedback).select host.toHost answered.uuid).enter
          .challengeSolving))))
  | malformed {body : Json} (isBody : dd = .externalChallengeInstructions body)
      (malformed : parseExternalInstructions body = none) (feedback : Json) :
      Replies host now answered dd (.ok (.await (now.setFeedback host answered feedback)))

theorem externalFeedback_replies {body : Json} :
    Replies host now answered (.externalChallengeInstructions body)
      (externalFeedback host now answered body) := by
  unfold externalFeedback
  split
  next malformed => exact .malformed rfl malformed _
  next instructions parsed =>
    dsimp only
    split
    next => exact .failed trivial
    next marked isMarked =>
      split
      next => exact .fault _
      next reply _ =>
        have marks : Marks host.toHost now.state answered.uuid instructions marked.state := by
          split at isMarked
          next isAsync =>
            obtain ⟨e, h, eq⟩ := Option.map_eq_some_iff.mp isMarked
            rw [← eq]
            exact .async isAsync h
          next notAsync =>
            cases isMarked
            exact .immediate (Bool.eq_false_iff.mpr notAsync)
        exact .instructs rfl parsed marks reply

theorem answerFeedbackCb_replies {dd : KeyShareDownloadDetails}
    (unsuccessful : ∀ eks, dd ≠ .success eks) :
    Replies host now answered dd (answerFeedbackCb host now answered (feedback dd)) := by
  cases dd with
  | success eks => exact absurd rfl (unsuccessful eks)
  | paymentRequired talerPayUri paymentSecret =>
    simp only [feedback, answerFeedbackCb, paymentFeedback]
    split
    next => exact .fault _
    next place _ _ =>
      apply Replies.pays _ _ place paymentSecret
      exact trivial
  | invalidAnswer httpStatus body contentType =>
    simp only [feedback, answerFeedbackCb]
    split
    next => exact .fault _
    next =>
      apply Replies.asks
      exact trivial
  | redirectForAuthentication redirectUrl =>
    cases redirectUrl with
    | none => exact .fault _
    | some redirectUrl =>
      apply Replies.asks
      exact trivial
  | externalChallengeInstructions body => exact externalFeedback_replies
  | _ => exact .refused _ _

theorem keyshareLookupCb_unsuccessful {action : Action} {sctx : SelectChallengeContext}
    {pos : Nat} {c : Challenge} {dd : KeyShareDownloadDetails}
    (unsuccessful : ∀ eks, dd ≠ .success eks) : action.keyshareLookupCb host sctx pos c dd =
      action.apply (answerFeedbackCb host (sctx.setChallenge pos (returned c dd))
        (returned c dd) (feedback dd)) := by
  cases dd with
  | success eks => exact absurd rfl (unsuccessful eks)
  | _ => rfl

end Answers

end Anastasis.Reducer.Challenges
