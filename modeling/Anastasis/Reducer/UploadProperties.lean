import Anastasis.Reducer.UploadPreparation

/-! Truths before policies: while the answers of the providers arrive in any order, the
secret is shared only when every truth that a policy refers to is stored. -/

set_option autoImplicit false

namespace Anastasis.Reducer

open Library List Option
open Anastasis.Client

variable (host : Host)

/-- One of the answers says that a truth of the uploads is stored by its provider. -/
def Acknowledged (started : List TruthUpload) (events : List (Nat × Response))
    (id : String × TruthUuid) : Prop :=
  ∃ event ∈ events, StoresTruth event.2 ∧ ∃ tue tu, started[event.1]? = some tue ∧
    tue.tu = some tu ∧ truthId tu.t = id

/-- A truth is stored when it was before the upload, or when its provider says so. -/
def Stored (known : String × TruthUuid → Prop) (started : List TruthUpload)
    (events : List (Nat × Response)) (id : String × TruthUuid) : Prop :=
  known id ∨ Acknowledged started events id

variable {known has : String × TruthUuid → Prop}

theorem Stored.later {st : List TruthUpload} {events : List (Nat × Response)}
    {id : String × TruthUuid} (kept : Stored has st events id) (ev : Nat × Response) :
    Stored has st (events ++ [ev]) id := by
  rcases kept with brought | ⟨ans, mem, acked⟩
  · exact .inl brought
  · exact .inr ⟨ans, mem_append_left _ mem, acked⟩

structure Due (tue : TruthUpload) : Prop where
  idle : tue.tu = none
  request : tue.paymentRequest.isSome
  status : tue.us = .paymentRequired
  truth : tue.t.isSome

structure Sound (stored : String × TruthUuid → Prop) (tue : TruthUpload) : Prop where
  noError : tue.ec = .none
  progress : tue.running ∨ Due tue ∨ ∃ t, tue.t = some t ∧ stored (truthId t)

/-- The truth upload brings a truth to its provider, or asks for the payment for it. -/
def Brings (tue : TruthUpload) (id : String × TruthUuid) : Prop :=
  (∃ tu, tue.tu = some tu ∧ truthId tu.t = id) ∨ Due tue

structure Uploading (stored : String × TruthUuid → Prop) (state : BackupState)
    (started : List TruthUpload) (uc : UploadContext) : Prop where
  sameState : uc.state = state
  placed : Placed (placedMethods state.policies) uc.tues
  unanswered : ∀ (position : Nat) (tue : TruthUpload), uc.tues[position]? = some tue → tue.running →
    started[position]? = some tue
  sound : ∀ tue ∈ uc.tues, Sound stored tue
  covers : ∀ method ∈ state.policies.flatten, ∀ truth, method.storedTruth = some truth →
    stored (truthId truth) ∨ ∃ tue ∈ uc.tues, Brings tue (truthId truth)

/-- Everything that an upload can be while no answer was silent: waiting for answers,
done with one report, or sharing the secret under policies whose truths are stored. -/
inductive Phase (stored : String × TruthUuid → Prop) (state : BackupState)
    (started : List TruthUpload) : UploadProcess → Prop where
  | waiting {uc : UploadContext} (uploading : Uploading stored state started uc)
      (running : uc.tues.any TruthUpload.running = true) :
      Phase stored state started
        { context := some uc, shared := none, reported := [], fault := none }
  | told (report : Report) (resumable : ∀ later payments,
        report = .truthsPaying later payments → Coherent stored later.policies.flatten) :
      Phase stored state started
        { context := none, shared := none, reported := [report], fault := none }
  | sharing {uc : UploadContext} {request : ShareRequest} {ss : SecretShare}
      (idle : ∀ tue ∈ uc.tues, tue.tu = none)
      (complete : ∀ policy ∈ request.policies, ∀ truth ∈ policy.truths,
        stored (truthId truth)) :
      Phase stored state started
        { context := some uc, shared := some (request, ss), reported := [], fault := none }

section Sharing

variable {stored kept : String × TruthUuid → Prop} {uc : UploadContext}

private theorem methodTruth_ok {m : PolicyMethod}
    (ready : ∀ tue ∈ uc.tues, ∃ t, tue.t = some t ∧ kept (truthId t))
    (own : ∀ truth, m.storedTruth = some truth → kept (truthId truth)) :
    ∃ h, methodTruth uc m = .ok h ∧ ∀ truth, h = some truth → kept (truthId truth) := by
  unfold methodTruth
  cases holds : m.truth with
  | some held => exact ⟨_, rfl, fun truth decodes => own truth (by simp [PolicyMethod.storedTruth,
      holds, decodes])⟩
  | none =>
    cases h : uc.tues.find? (matchesKey m.provider m.authenticationMethod) with
    | none => exact ⟨none, rfl, fun truth nothing => by cases nothing⟩
    | some tue =>
      obtain ⟨t, hasT, brought⟩ := ready tue (mem_of_find?_eq_some h)
      refine ⟨some t, by simp [hasT], ?_⟩
      intro truth eq
      cases eq
      exact brought

private theorem methodTruths_ok {methods : List PolicyMethod}
    (ready : ∀ tue ∈ uc.tues, ∃ t, tue.t = some t ∧ kept (truthId t))
    (own : ∀ m ∈ methods, ∀ truth, m.storedTruth = some truth → kept (truthId truth)) :
    ∃ h, methodTruths uc methods = .ok h ∧
      ∀ truths, h = some truths → ∀ truth ∈ truths, kept (truthId truth) := by
  induction methods with
  | nil =>
    refine ⟨some [], rfl, ?_⟩
    intro truths eq truth mem
    cases eq
    cases mem
  | cons m rest ih =>
    obtain ⟨x, firstOk, firstStored⟩ := methodTruth_ok ready (own m mem_cons_self)
    obtain ⟨ys, othersOk, othersStored⟩ := ih fun y mem => own y (mem_cons_of_mem _ mem)
    simp only [methodTruths, firstOk, othersOk, Bind.bind, Except.bind, pure, Except.pure]
    cases x with
    | none => exact ⟨none, rfl, fun _ nothing => by cases nothing⟩
    | some truth =>
      cases ys with
      | none => exact ⟨none, rfl, fun _ nothing => by cases nothing⟩
      | some truths =>
        refine ⟨some (truth :: truths), rfl, ?_⟩
        intro h eq cand mem
        cases eq
        rcases mem_cons.mp mem with rfl | mem
        · exact firstStored cand rfl
        · exact othersStored truths rfl cand mem

private theorem sharePolicies_ok {rnd : UploadRandomness} {policies : List (List PolicyMethod)}
    (idx : Nat) (ready : ∀ tue ∈ uc.tues, ∃ t, tue.t = some t ∧ kept (truthId t))
    (own : ∀ m ∈ policies.flatten, ∀ truth, m.storedTruth = some truth →
      kept (truthId truth)) : ∃ h, sharePolicies host uc rnd idx policies = .ok h ∧
      ∀ shared, h = some shared → ∀ policy ∈ shared, ∀ truth ∈ policy.truths,
        kept (truthId truth) := by
  induction policies generalizing idx with
  | nil =>
    refine ⟨some [], rfl, ?_⟩
    intro shared eq policy mem
    cases eq
    cases mem
  | cons methods rest ih =>
    obtain ⟨x, firstOk, firstStored⟩ := methodTruths_ok ready
      fun m mem => own m (mem_append_left _ mem)
    obtain ⟨ys, othersOk, othersStored⟩ := ih (idx + 1) fun m mem => own m (mem_append_right _ mem)
    simp only [sharePolicies, firstOk, othersOk, Bind.bind, Except.bind, pure, Except.pure]
    cases methods.isEmpty with
    | true => exact ⟨none, rfl, fun _ nothing => by cases nothing⟩
    | false =>
      cases x with
      | none => exact ⟨none, rfl, fun _ nothing => by cases nothing⟩
      | some truths =>
        cases ys with
        | none => exact ⟨none, rfl, fun _ nothing => by cases nothing⟩
        | some shared =>
          refine ⟨some (policyCreate host truths (rnd.policySalts idx) :: shared),
            rfl, ?_⟩
          intro h eq policy mem
          cases eq
          rcases mem_cons.mp mem with rfl | mem
          · exact firstStored truths rfl
          · exact othersStored shared rfl policy mem

/-- Sharing the secret fails with an error, or starts with the policies it made up. -/
private theorem shareSecret_cases {rnd : UploadRandomness} {h : Option (List Policy)}
    (policiesOk : sharePolicies host uc rnd 0 uc.state.policies = .ok h) :
    (∃ ec, shareSecret host uc rnd = .ok (.failed ec)) ∨
      ∃ req ss, shareSecret host uc rnd = .ok (.started req ss) ∧ h = some req.policies := by
  unfold shareSecret
  simp only [policiesOk, Bind.bind, Except.bind, pure, Except.pure]
  split_ifs
  · exact .inl ⟨_, rfl⟩
  cases h with
  | none => exact .inl ⟨_, rfl⟩
  | some policies =>
    cases uc.state.policyProviders.mapM (providerDetails uc.state) with
    | none => exact .inl ⟨_, rfl⟩
    | some pds =>
      simp only
      split
      · exact .inl ⟨_, rfl⟩
      · exact .inr ⟨_, _, rfl, rfl⟩

/-- Once no upload runs and none has to be paid, sharing the secret cannot fail to find
a truth, and takes only truths that are stored. -/
theorem beginShare_phase {st : BackupState} {started : List TruthUpload}
    (rnd : UploadRandomness) (uploading : Uploading kept st started uc)
    (idle : ∀ tue ∈ uc.tues, tue.tu = none) (unpaid : ∀ tue ∈ uc.tues, tue.paymentRequest = none) :
    Phase kept st started (beginShare host uc rnd []) := by
  have ready : ∀ tue ∈ uc.tues, ∃ t, tue.t = some t ∧ kept (truthId t) := by
    intro tue mem
    rcases (uploading.sound tue mem).progress with runs | paying | brought
    · simp [TruthUpload.running, idle tue mem] at runs
    · simpa [unpaid tue mem] using paying.request
    · exact brought
  have own : ∀ m ∈ uc.state.policies.flatten, ∀ truth,
      m.storedTruth = some truth → kept (truthId truth) := by
    intro m mem truth holds
    rw [uploading.sameState] at mem
    rcases uploading.covers m mem truth holds with
      brought | ⟨tue, tueMember, ⟨tu, runs, _⟩ | paying⟩
    · exact brought
    · simp [idle tue tueMember] at runs
    · simpa [unpaid tue tueMember] using paying.request
  obtain ⟨h, policiesOk, complete⟩ := @sharePolicies_ok host _ _ rnd _ 0 ready own
  unfold beginShare
  rcases shareSecret_cases host policiesOk with ⟨ec, failed⟩ | ⟨req, ss, begun, eq⟩
  · rw [failed]
    exact .told _ fun _ _ report => by cases report
  · rw [begun]
    exact .sharing idle (complete _ eq)

end Sharing

private def filled (tue : TruthUpload) (t : Truth) (method : PolicyMethod) : PolicyMethod :=
  { method with truth := some { uploadStatus := .number tue.us.ctorIdx, truth := some t } }

/-- The truth that a method gets is the one of the truth upload that has its place. -/
private theorem serializedTruth_of {place : PolicyMethodReference} {tue : TruthUpload} {t : Truth}
    (hasT : tue.t = some t) (inside : place ∈ tue.policies) {tues : List TruthUpload}
    (unique : ∀ y ∈ tues, place ∈ y.policies → y = tue) (method : PolicyMethod) :
    (tue ∈ tues → serializedTruth tues place method = filled tue t method) ∧
      (tue ∉ tues → serializedTruth tues place method = method) := by
  induction tues generalizing method with
  | nil => exact ⟨fun mem => absurd mem not_mem_nil, fun _ => rfl⟩
  | cons head rest ih =>
    have ih := ih fun y mem => unique y (mem_cons_of_mem _ mem)
    unfold serializedTruth at ih ⊢
    rw [foldl_cons]
    cases decEq (decide (place ∈ head.policies)) true with
    | isTrue here =>
      cases unique head mem_cons_self (of_decide_eq_true here)
      have step : takeTruth place method tue = filled tue t method := by
        simp [takeTruth, hasT, inside, filled]
      rw [step]
      refine ⟨fun _ => ?_, fun gone => absurd mem_cons_self gone⟩
      rcases Classical.em (tue ∈ rest) with again | last
      · exact (ih (filled tue t method)).1 again
      · exact (ih (filled tue t method)).2 last
    | isFalse elsewhere =>
      have outside : place ∉ head.policies := by simpa using elsewhere
      have ne : tue ≠ head := by
        rintro rfl
        exact outside inside
      have step : takeTruth place method head = method := by
        unfold takeTruth
        split <;> simp [outside]
      rw [step, mem_cons, or_iff_right ne]
      exact ih method

/-- Every method of the state of a request for payments has the truth of its key. -/
private theorem serializeTruth_method {kept : String × TruthUuid → Prop} {st : BackupState}
    {started : List TruthUpload} {uc : UploadContext}
    (uploading : Uploading kept st started uc) (idle : ∀ tue ∈ uc.tues, tue.tu = none)
    {m : PolicyMethod} (mem : m ∈ (serializeTruth uc).policies.flatten) :
    ∃ tue ∈ uc.tues, tue.key = m.key ∧ ∃ t, tue.t = some t ∧
      m.truth = some { uploadStatus := .number tue.us.ctorIdx, truth := some t } := by
  simp only [serializeTruth, uploading.sameState, mem_flatten, mem_mapIdx] at mem
  obtain ⟨_, ⟨policyIndex, policyInside, rfl⟩, inside⟩ := mem
  obtain ⟨methodIndex, methodInside, rfl⟩ := mem_mapIdx.mp inside
  have here : (⟨policyIndex, methodIndex⟩, st.policies[policyIndex][methodIndex]) ∈
      placedMethods st.policies :=
    mem_placedMethods.mpr ⟨st.policies[policyIndex], by simp, by simp⟩
  obtain ⟨tue, tueMember, tueKey, inside⟩ := uploading.placed.covered _ _ here
  have hasT : ∃ t, tue.t = some t := by
    rcases (uploading.sound tue tueMember).progress with runs | due | ⟨t, hasT, _⟩
    · simp [TruthUpload.running, idle tue tueMember] at runs
    · exact isSome_iff_exists.mp due.truth
    · exact ⟨t, hasT⟩
  obtain ⟨t, hasT⟩ := hasT
  have serialized := (serializedTruth_of hasT inside (fun y otherMember otherInside =>
    uploading.placed.unique tueMember inside otherMember otherInside)
    st.policies[policyIndex][methodIndex]).1 tueMember
  rw [serialized]
  exact ⟨tue, tueMember, tueKey, t, hasT, rfl⟩

theorem serializeTruth_coherent {kept : String × TruthUuid → Prop} {st : BackupState}
    {started : List TruthUpload} {uc : UploadContext}
    (uploading : Uploading kept st started uc) (idle : ∀ tue ∈ uc.tues, tue.tu = none) :
    Coherent kept (serializeTruth uc).policies.flatten := by
  intro m mem held truth hasTruth decodes
  obtain ⟨tue, tueMember, tueKey, t, hasT, taken⟩ := serializeTruth_method uploading idle mem
  cases hasTruth.symm.trans taken
  cases decodes
  rcases (uploading.sound tue tueMember).progress with runs | due | ⟨t', hasT', brought⟩
  · simp [TruthUpload.running, idle tue tueMember] at runs
  · refine .inr ⟨?_, ?_⟩
    · have early : ((serializeTruth uc).policies.flatten.find? fun y =>
          y.key = m.key).isSome :=
        find?_isSome.mpr ⟨m, mem, by simp⟩
      obtain ⟨x, h⟩ := isSome_iff_exists.mp early
      obtain ⟨_, _, _, t', _, firstTruth⟩ :=
        serializeTruth_method uploading idle (mem_of_find?_eq_some h)
      exact ⟨x, h, by simp [PolicyMethod.storedTruth, firstTruth]⟩
    · intro y otherMember sameKey held' truth' hasTruth' decodes'
      obtain ⟨tue', tueMember', tueKey', t', hasT', taken'⟩ :=
        serializeTruth_method uploading idle otherMember
      cases hasTruth'.symm.trans taken'
      cases decodes'
      cases inj_on_of_nodup_map uploading.placed.distinct tueMember' tueMember
        (tueKey'.trans (sameKey.trans tueKey.symm))
      cases hasT.symm.trans hasT'
      have unpaid : StatusField.number UploadStatus.paymentRequired.ctorIdx ≠ .number 0 := by
        decide
      exact ⟨due.status ▸ unpaid, rfl⟩
  · cases hasT.symm.trans hasT'
    exact .inl brought

section Steps

variable {stored kept : String × TruthUuid → Prop} {state st : BackupState}
  {started : List TruthUpload}

/-- The decision after an answer: an error ends the upload, and without one the truths
that are still on their way or have to be paid keep the secret from being shared. -/
theorem checkUploadFinished_phase {uc : UploadContext} (rnd : UploadRandomness)
    (uploading : (∀ tue ∈ uc.tues, tue.ec = .none) → Uploading kept st started uc) :
    Phase kept st started (checkUploadFinished host uc rnd []) := by
  unfold checkUploadFinished
  cases failed : uc.tues.find? fun tue => tue.ec ≠ .none with
  | some tue => exact .told _ fun _ _ report => by cases report
  | none =>
    have noError : ∀ tue ∈ uc.tues, tue.ec = .none := by
      intro tue mem
      simpa using find?_eq_none.mp failed tue mem
    cases runs : uc.tues.any fun tue => tue.tu.isSome with
    | true => exact .waiting (uploading noError) runs
    | false =>
      have idle : ∀ tue ∈ uc.tues, tue.tu = none := by
        intro tue mem
        simpa using List.any_eq_false.mp runs tue mem
      cases paying : uc.tues.any fun tue => tue.paymentRequest.isSome with
      | true =>
        refine .told _ fun later payments report => ?_
        cases report
        exact serializeTruth_coherent (uploading noError) idle
      | false =>
        have unpaid : ∀ tue ∈ uc.tues, tue.paymentRequest = none := by
          intro tue mem
          simpa using List.any_eq_false.mp paying tue mem
        exact beginShare_phase host rnd (uploading noError) idle unpaid

private theorem truthUploadCb_sound {tue : TruthUpload} {tu : TruthUploadOperation}
    {resp : Response} (loud : ¬ Silent host resp)
    (noError : (truthUploadCb tue tu (truthAnswer host tu.tso resp)).ec = .none) :
    StoresTruth resp ∨ Due (truthUploadCb tue tu (truthAnswer host tu.tso resp)) := by
  rcases truthAnswer_cases host tu.tso loud with stores | failed | ⟨pay, uri, ps, dt⟩
  · exact .inl stores
  · exact absurd noError failed
  · refine .inr ⟨rfl, ?_, pay, rfl⟩
    simp [truthUploadCb, paymentRequestOf, pay, dt]

theorem Uploading.answered {has : String × TruthUuid → Prop}
    {events : List (Nat × Response)} {uc : UploadContext}
    (uploading : Uploading (Stored has started events) st started uc) {pos : Nat}
    {resp : Response} (loud : ¬ Silent host resp) {tue : TruthUpload}
    (h : uc.tues[pos]? = some tue) {tu : TruthUploadOperation} (runs : tue.tu = some tu)
    (noError : ∀ y ∈ uc.tues.set pos
      (truthUploadCb tue tu (truthAnswer host tu.tso resp)), y.ec = .none) :
    Uploading (Stored has started (events ++ [(pos, resp)])) st started { uc with
        tues := uc.tues.set pos (truthUploadCb tue tu (truthAnswer host tu.tso resp)) } := by
  have inside : pos < uc.tues.length := (List.getElem?_eq_some_iff.mp h).1
  have mem := mem_set inside (truthUploadCb tue tu (truthAnswer host tu.tso resp))
  have out := truthUploadCb_sound host loud (noError _ mem)
  have acked : StoresTruth resp →
      Stored has started (events ++ [(pos, resp)]) (truthId tu.t) := by
    intro stores
    have x := uploading.unanswered pos tue h (by simp [TruthUpload.running, runs])
    exact .inr ⟨(pos, resp), by simp, stores, tue, tu, x, runs, rfl⟩
  have samePlaces : (uc.tues.set pos
        (truthUploadCb tue tu (truthAnswer host tu.tso resp))).map TruthUpload.entry =
      uc.tues.map TruthUpload.entry := by
    rw [map_set]
    refine ext_getElem? fun y => ?_
    rcases Nat.decEq pos y with ne | rfl
    · rw [getElem?_set_ne ne]
    · rw [getElem?_set_self (by simpa using inside), getElem?_map, h]
      rfl
  refine ⟨uploading.sameState, uploading.placed.congr samePlaces, ?_, ?_, ?_⟩
  · intro y old atOther oldRunning
    rcases Nat.decEq pos y with ne | rfl
    · rw [getElem?_set_ne ne] at atOther
      exact uploading.unanswered y old atOther oldRunning
    rw [getElem?_set_self inside] at atOther
    cases atOther
    simp [TruthUpload.running, truthUploadCb] at oldRunning
  · intro y otherMember
    rcases mem_or_eq_of_mem_set otherMember with earlier | rfl
    · obtain ⟨noError, pg⟩ := uploading.sound y earlier
      refine ⟨noError, pg.imp_right (Or.imp_right ?_)⟩
      rintro ⟨t, hasT, brought⟩
      exact ⟨t, hasT, brought.later _⟩
    refine ⟨noError _ mem, ?_⟩
    rcases out with stores | paying
    · exact .inr (.inr ⟨tu.t, rfl, acked stores⟩)
    · exact .inr (.inl paying)
  · intro m methodMember truth holds
    rcases uploading.covers m methodMember truth holds with
      brought | ⟨y, otherMember, brings⟩
    · exact .inl (brought.later _)
    obtain ⟨place, atPlace⟩ := mem_iff_getElem?.mp otherMember
    rcases Nat.decEq pos place with ne | rfl
    · have kept : y ∈ uc.tues.set pos (truthUploadCb tue tu (truthAnswer host tu.tso resp)) := by
        apply mem_iff_getElem?.mpr ⟨place, ?_⟩
        rw [getElem?_set_ne ne, atPlace]
      exact .inr ⟨y, kept, brings⟩
    cases h.symm.trans atPlace
    rcases brings with ⟨eq, running', sameId⟩ | paying
    · cases runs.symm.trans running'
      rcases out with stores | paying
      · exact .inl (sameId ▸ acked stores)
      · exact .inr ⟨_, mem, .inr paying⟩
    · cases runs.symm.trans paying.idle

theorem deliver_phase {has : String × TruthUuid → Prop} {rnd : UploadRandomness}
    {events : List (Nat × Response)} {process next : UploadProcess} {ev : Nat × Response}
    (phase : Phase (Stored has started events) state started process)
    (loud : ¬ Silent host ev.2) (delivered : Delivers host rnd process ev next) :
    Phase (Stored has started (events ++ [ev])) state started next := by
  unfold Delivers UploadProcess.deliver at delivered
  cases phase with
  | told report resumable => cases delivered
  | sharing idle complete =>
    simp only [bind_eq_bind, bind_some, bind_eq_some_iff] at delivered
    obtain ⟨tue, h, tu, runs, _⟩ := delivered
    simp [idle tue (mem_of_getElem? h)] at runs
  | @waiting uc uploading runs =>
    simp only [bind_eq_bind, bind_some, bind_eq_some_iff,
      Option.pure_def, Option.some.injEq] at delivered
    obtain ⟨tue, h, tu, runs, rfl⟩ := delivered
    exact checkUploadFinished_phase host rnd fun noError =>
      uploading.answered host loud h runs noError

end Steps

private theorem prepare_uploading {st : BackupState} {rnd : UploadRandomness}
    {uc : UploadContext} {asyncTruth : Nat} (accepted : prepare host st rnd = .ok uc asyncTruth)
    (coherent : Coherent has st.policies.flatten) :
    Uploading (Stored has uc.tues []) st uc.tues uc ∧
      (∀ tue ∈ uc.tues, tue.paymentRequest = none) ∧
      asyncTruth = uc.tues.countP TruthUpload.running := by
  unfold prepare at accepted
  split_ifs at accepted
  obtain ⟨sameState, prepping, cnt⟩ := prepareMethods_ok host coherent
    (by rw [nil_append, placedMethods_methods]) (prepping_start has) rfl accepted
  have placed : Placed (placedMethods st.policies) uc.tues :=
    prepareMethods_placed host placed_start rfl accepted
  refine ⟨⟨sameState, placed, fun _ _ h _ => h, ?_, ?_⟩,
    fun tue mem => (prepping.quiet tue mem).2.1, cnt⟩
  · intro tue mem
    obtain ⟨noError, _, held⟩ := prepping.quiet tue mem
    refine ⟨noError, ?_⟩
    rcases held with ⟨tu, runs, _⟩ | ⟨_, t, hasT, brought⟩
    · exact .inl (by simp [TruthUpload.running, runs])
    · exact .inr (.inr ⟨t, hasT, .inl brought⟩)
  intro m mem truth holds
  obtain ⟨kept, hasTruth, decodes⟩ := bind_eq_some_iff.mp holds
  rcases prepping.covers m mem kept truth hasTruth decodes with
    brought | ⟨tue, tueMember, _, brings⟩
  · exact .inl (.inl brought)
  · exact .inr ⟨tue, tueMember, .inl brings⟩

/-- Every run of an accepted upload whose answers are not silent stays in the phases. -/
theorem run_phase {st : BackupState} {rnd : UploadRandomness} {uc : UploadContext}
    {asyncTruth : Nat} (accepted : prepare host st rnd = .ok uc asyncTruth)
    (coherent : Coherent has st.policies.flatten) {events : List (Nat × Response)}
    {final : UploadProcess}
    (run : Transition.Run (Transition.Guarded (fun _ ev => ¬ Silent host ev.2) (Delivers host
      rnd)) (upload host st rnd) events final) :
    Phase (Stored has uc.tues events) st uc.tues final := by
  refine run.invariantWithHistory
    (fun events => Phase (Stored has uc.tues events) st uc.tues) ?_ ?_
  · obtain ⟨uploading, unpaid, cnt⟩ := prepare_uploading host accepted coherent
    unfold upload
    rw [accepted]
    simp only
    split_ifs with runs
    · have some := countP_pos_iff.mp (cnt ▸ runs)
      exact .waiting uploading (List.any_eq_true.mpr some)
    have still : uc.tues.countP TruthUpload.running = 0 := by omega
    have idle : ∀ tue ∈ uc.tues, tue.tu = none := by
      intro tue mem
      simpa [TruthUpload.running] using countP_eq_zero.mp still tue mem
    exact beginShare_phase host rnd uploading idle unpaid
  · rintro history process ev next phase ⟨loud, delivered⟩
    exact deliver_phase host phase loud delivered

/-- The states that the reducer uploads: one without truths, and after an upload the state
of its request for payments. -/
inductive Session : (String × TruthUuid → Prop) → BackupState → Prop where
  | fresh {state : BackupState}
      (noTruth : ∀ method ∈ state.policies.flatten, method.truth = none) :
      Session (fun _ => False) state
  | again {known : String × TruthUuid → Prop} {state later : BackupState}
      {random : UploadRandomness} {uc : UploadContext} {asyncTruth : Nat}
      {events : List (Nat × Response)} {final : UploadProcess} {payments : List String} :
      Session known state → prepare host state random = .ok uc asyncTruth →
      Transition.Run
        (Transition.Guarded (fun _ event => ¬ Silent host event.2) (Delivers host random))
        (upload host state random) events final →
      .truthsPaying later payments ∈ final.reported →
      Session (Stored known uc.tues events) later

theorem Session.coherent {st : BackupState} (ses : Session host has st) :
    Coherent has st.policies.flatten := by
  induction ses with
  | fresh noTruth =>
    intro m mem kept truth hasTruth
    simp [noTruth m mem] at hasTruth
  | again old ok run reported ih =>
    cases run_phase host ok ih run with
    | waiting uploading runs => cases reported
    | sharing idle complete => cases reported
    | told report resumable =>
      exact resumable _ _ (mem_singleton.mp reported).symm

/-- An upload that does not share the secret waits for an answer, or has told its
caller once why it ended. -/
def Ended (process : UploadProcess) : Prop :=
  (process.reported = [] ∧
      ∃ uc ∈ process.context, uc.tues.any TruthUpload.running = true) ∨
    ∃ report, process.reported = [report]

end Anastasis.Reducer
