import Mathlib.Data.List.Nodup
import Anastasis.Library.Transition
import Anastasis.Stasis.ChallengeCodes

/-! How often the codes of one truth can be guessed at, over any number of calls. -/

set_option autoImplicit false

namespace Anastasis.Stasis

open Library Library.Transition List

def codesOf (truthUuid : TruthUuid) (codes : ChallengeCodes) : ChallengeCodes :=
  codes.filter (·.truthUuid = truthUuid)

variable {settings : ChallengeSettings} {truthUuid uuid : TruthUuid} {now : Time} {nonce : Nat}
  {hashAnswer : Nat → HashCode} {hashedCode : HashCode} {codes : ChallengeCodes}
  {row older newer : ChallengeCode}

theorem mem_codesOf : row ∈ codesOf truthUuid codes ↔ row ∈ codes ∧ row.truthUuid = truthUuid := by
  rw [codesOf, mem_filter, decide_eq_true_eq]

/-- An update that changes nothing about a code but the tries that are left. -/
structure Spends (update : ChallengeCode → ChallengeCode) : Prop where
  same : ∀ row, update row = { row with retryCounter := (update row).retryCounter }
  less : ∀ row, (update row).retryCounter ≤ row.retryCounter

theorem Spends.id : Spends id := ⟨fun _ => rfl, fun row => Nat.le_refl row.retryCounter⟩

theorem Spends.comp {x y : ChallengeCode → ChallengeCode} (left : Spends x)
    (right : Spends y) : Spends (y ∘ x) := by
  constructor
  · intro row
    simp only [Function.comp_apply]
    rw [right.same (x row), left.same row]
  · intro row
    exact Nat.le_trans (right.less (x row)) (left.less row)

variable {update : ChallengeCode → ChallengeCode}

theorem Spends.sameTruth (spends : Spends update) (row : ChallengeCode) :
    (update row).truthUuid = row.truthUuid := by
  rw [spends.same row]

theorem codesOf_map (spends : Spends update) :
    codesOf uuid (codes.map update) = (codesOf uuid codes).map update := by
  rw [codesOf, List.filter_map]
  congr 1
  apply filter_congr
  intro row _
  simp only [Function.comp_apply, spends.sameTruth row]

theorem spends_spend (code : Nat) : Spends (spend uuid code) := by
  constructor
  · intro row
    unfold spend
    split
    · rfl
    · rfl
  intro row
  unfold spend
  split
  · exact Nat.sub_le row.retryCounter 1
  · exact Nat.le_refl row.retryCounter

theorem spend_lt {code : Nat} (charged : spends uuid code row = true) :
    (spend uuid code row).retryCounter < row.retryCounter := by
  have tries : row.retryCounter ≠ 0 := by
    simp only [spends, decide_eq_true_eq] at charged
    exact charged.2.2
  rw [spend, if_pos charged]
  exact Nat.sub_one_lt tries

theorem checkRows_dbFailure (rows : List ChallengeCode) (ctx : CheckValidity)
    (failed : ctx.dbFailure = true) :
    (checkRows hashAnswer uuid hashedCode rows ctx codes).1.dbFailure = true := by
  induction rows generalizing ctx codes with
  | nil => exact failed
  | cons row rows ih =>
    unfold checkRows
    split
    · exact ih _ failed
    split
    · exact ih _ rfl
    split
    · exact ih _ rfl
    · exact ih _ failed

theorem checkRows_valid (rows : List ChallengeCode) (ctx : CheckValidity)
    (valid : ctx.valid = true ∨ ∃ row ∈ rows, hashAnswer row.code = hashedCode) :
    (checkRows hashAnswer uuid hashedCode rows ctx codes).1.valid = true := by
  induction rows generalizing ctx codes with
  | nil =>
    rcases valid with already | ⟨row, mem, _⟩
    · exact already
    · cases mem
  | cons row rows ih =>
    unfold checkRows
    split
    · exact ih _ (.inl rfl)
    rename_i ne
    have still : ctx.valid = true ∨ ∃ row ∈ rows, hashAnswer row.code = hashedCode := by
      rcases valid with already | ⟨hit, mem, matched⟩
      · exact .inl already
      rcases mem_cons.mp mem with x | later
      · rw [x] at matched
        exact absurd matched ne
      · exact .inr ⟨hit, later, matched⟩
    split
    · exact ih _ still
    split
    · exact ih _ still
    · exact ih _ still

/-- Whatever is compared, tries are only spent; without a failure every code that does not match
loses one. -/
theorem checkRows_spends (rows : List ChallengeCode) (context : CheckValidity) :
    ∃ update, Spends update ∧
      (checkRows hashAnswer uuid hashedCode rows context codes).2 = codes.map update ∧
      ((checkRows hashAnswer uuid hashedCode rows context codes).1.dbFailure = false →
        ∀ compared ∈ rows, hashAnswer compared.code ≠ hashedCode → ∀ row,
          spends uuid compared.code row = true → (update row).retryCounter < row.retryCounter) := by
  induction rows generalizing context codes with
  | nil =>
    refine ⟨id, .id, (List.map_id codes).symm, ?_⟩
    intro _ compared mem
    cases mem
  | cons x rows ih =>
    unfold checkRows
    split
    · next matched =>
      obtain ⟨update, spending, after, less⟩ := @ih codes { context with
        valid := true, code := x.code, satisfied := x.satisfied }
      refine ⟨update, spending, after, ?_⟩
      intro clear compared mem ne row charged
      rcases mem_cons.mp mem with eq | later
      · rw [eq] at ne
        exact absurd matched ne
      · exact less clear compared later ne row charged
    · split
      · next failure _ =>
        obtain ⟨update, spending, after, _⟩ := @ih codes { context with dbFailure := true }
        refine ⟨update, spending, after, ?_⟩
        intro clear
        rw [checkRows_dbFailure rows _ rfl] at clear
        cases clear
      rename_i count charged updated
      have made : charged = codes.map (spend uuid x.code) := by
        unfold challengecodeUpdateRetry at updated
        split at updated
        · cases updated
        · cases updated
          rfl
      subst made
      obtain ⟨update, spending, after, less⟩ := @ih (codes.map (spend uuid x.code))
        (if count = 0 then { context with dbFailure := true } else context)
      refine ⟨update ∘ spend uuid x.code, (spends_spend x.code).comp spending, ?_, ?_⟩
      · rw [after, List.map_map]
      intro clear compared mem ne row applies
      by_cases already : spends uuid x.code row = true
      · exact Nat.lt_of_le_of_lt (spending.less _) (spend_lt already)
      have untouched : spend uuid x.code row = row := if_neg already
      rw [Function.comp_apply, untouched]
      rcases mem_cons.mp mem with eq | later
      · rw [eq] at applies
        exact absurd applies already
      · exact less clear compared later ne row applies

def active (truthUuid : TruthUuid) (now : Time) (row : ChallengeCode) : Bool :=
  row.truthUuid = truthUuid ∧ now < row.expirationDate ∧ row.retryCounter ≠ 0

theorem mem_challengecodeSelect : row ∈ challengecodeSelect uuid now codes ↔
    row ∈ codes ∧ active uuid now row = true := by
  rw [challengecodeSelect, mem_filter, active]

/-- An answer spends tries; when it is reported as a mismatch, every active code lost one. -/
theorem compareAnswer_spends : ∃ update, Spends update ∧
    (compareAnswer hashAnswer truthUuid now hashedCode codes).2 = codes.map update ∧
    ((compareAnswer hashAnswer truthUuid now hashedCode codes).1 = .challengeCodeMismatch →
      (∃ row ∈ codes, active truthUuid now row = true) ∧
      ∀ row ∈ codes, active truthUuid now row = true →
        (update row).retryCounter < row.retryCounter) := by
  obtain ⟨update, spending, after, less⟩ := @checkRows_spends truthUuid hashAnswer hashedCode codes
    (challengecodeSelect truthUuid now codes) ⟨false, 0, false, false⟩
  refine ⟨update, spending, after, ?_⟩
  intro mismatch
  unfold compareAnswer codeStatus at mismatch
  simp only at mismatch
  split at mismatch
  · cases mismatch
  rename_i clear
  split at mismatch
  · cases mismatch
  rename_i invalid
  split at mismatch
  · cases mismatch
  rename_i some
  constructor
  · obtain ⟨row, mem⟩ := exists_mem_of_length_pos (Nat.pos_of_ne_zero some)
    exact ⟨row, mem_challengecodeSelect.mp mem⟩
  intro row mem applies
  have r : row ∈ challengecodeSelect truthUuid now codes :=
    mem_challengecodeSelect.mpr ⟨mem, applies⟩
  have ne : hashAnswer row.code ≠ hashedCode := by
    intro matched
    exact invalid (checkRows_valid _ _ (.inr ⟨row, r, matched⟩))
  refine less (Bool.eq_false_iff.mpr clear) row r ne row ?_
  simp only [active, decide_eq_true_eq] at applies
  simp only [spends, decide_eq_true_eq]
  exact ⟨applies.1, trivial, applies.2.2⟩

inductive ChallengeCall where
  | create (nonce : Nat)
  | verify (hashedCode : HashCode)

inductive ChallengeAnswer where
  | created (status : CreateStatus)
  | verified (status : CodeStatus)
deriving DecidableEq

structure ChallengeEvent where
  now : Time
  call : ChallengeCall
  answer : ChallengeAnswer

/-- The codes, and the positions of those of the truth that took part in mismatches so far. -/
structure Guessing where
  clock : Time
  codes : ChallengeCodes
  guesses : List Nat

def participants (truthUuid : TruthUuid) (now : Time) (codes : ChallengeCodes) : List Nat :=
  (List.range (codesOf truthUuid codes).length).filter fun position =>
    (codesOf truthUuid codes)[position]?.any (active truthUuid now)

/-- Times from the first second of the epoch on that a column can hold. -/
def Dated (now : Time) : Prop := 1000000 ≤ now ∧ now < 2 ^ 63 - 1

instance (now : Time) : Decidable (Dated now) := inferInstanceAs (Decidable (_ ∧ _))

def challengeStep (settings : ChallengeSettings) (hashAnswer : Nat → HashCode)
    (truthUuid : TruthUuid) (guessing : Guessing) (event : ChallengeEvent) (next : Guessing) :
    Prop :=
  Dated event.now ∧ guessing.clock ≤ event.now ∧ next.clock = event.now ∧
    match event.call with
    | .create nonce =>
      let answer := createChallengeCode settings truthUuid event.now (fun _ => nonce)
        (.opened guessing.codes fun _ => none)
      event.answer = .created answer.1 ∧ next.codes = answer.2.committed ∧
        next.guesses = guessing.guesses
    | .verify hashedCode =>
      let answer := verifyChallengeCode hashAnswer truthUuid event.now hashedCode
        (.opened guessing.codes fun _ => none)
      event.answer = .verified answer.1 ∧ next.codes = answer.2.committed ∧
        next.guesses = guessing.guesses ++
          if answer.1 = .challengeCodeMismatch then
            participants truthUuid (roundAbs event.now) guessing.codes
          else []

def Apart (settings : ChallengeSettings) (older newer : ChallengeCode) : Prop :=
  older.creationDate + settings.rotationPeriod ≤ newer.creationDate

structure Sound (settings : ChallengeSettings) (truthUuid : TruthUuid) (guessing : Guessing) :
    Prop where
  dated : ∀ row ∈ codesOf truthUuid guessing.codes, 0 < row.creationDate ∧
    row.creationDate ≤ roundAbs guessing.clock ∧
    row.expirationDate = column (absoluteAdd row.creationDate settings.validityPeriod)
  apart : (codesOf truthUuid guessing.codes).Pairwise (Apart settings)
  charged : ∀ (position : Nat) (row : ChallengeCode),
    (codesOf truthUuid guessing.codes)[position]? = some row →
    guessing.guesses.count position + row.retryCounter ≤ settings.retryCounter
  known : ∀ position ∈ guessing.guesses, position < (codesOf truthUuid guessing.codes).length

variable {guessing next start final : Guessing} {event ev : ChallengeEvent}
  {events : List ChallengeEvent}

theorem roundAbs_le (time : Time) : roundAbs time ≤ time := by
  unfold roundAbs
  split
  · next forever_now => exact Nat.le_of_eq forever_now.symm
  · exact Nat.sub_le time (time % 1000000)

theorem Dated.lt_forever (dated : Dated now) : now < forever :=
  Nat.lt_of_lt_of_le dated.2 limit_le_forever

theorem roundAbs_eq (finite : now < forever) : roundAbs now = now / 1000000 * 1000000 := by
  rw [roundAbs, if_neg (Nat.ne_of_lt finite)]
  exact Nat.sub_eq_of_eq_add (Nat.div_add_mod' now 1000000).symm

theorem roundAbs_mono {old : Time} (ordered : old ≤ now) (finite : now < forever) :
    roundAbs old ≤ roundAbs now := by
  rw [roundAbs_eq finite, roundAbs_eq (Nat.lt_of_le_of_lt ordered finite)]
  exact Nat.mul_le_mul_right 1000000 (Nat.div_le_div_right ordered)

theorem Dated.roundAbs_pos (dated : Dated now) : 0 < roundAbs now := by
  rw [roundAbs_eq dated.lt_forever]
  exact Nat.mul_pos (Nat.div_pos dated.1 (by decide)) (by decide)

theorem Dated.column_roundAbs (dated : Dated now) : column (roundAbs now) = roundAbs now := by
  rw [column, if_pos (Nat.lt_of_le_of_lt (roundAbs_le now) dated.2)]

theorem challengeStep_create (step : challengeStep settings hashAnswer uuid guessing ev next)
    (call : ev.call = .create nonce) : ev.answer = .created
        (issueCode settings uuid (roundAbs ev.now) nonce guessing.codes).1 ∧
      next.codes = (issueCode settings uuid (roundAbs ev.now) nonce guessing.codes).2 ∧
      next.guesses = guessing.guesses := by
  obtain ⟨_, _, _, made⟩ := step
  rw [call] at made
  have issued := @createChallengeCode_undisturbed settings uuid ev.now guessing.codes fun _ => nonce
  obtain ⟨told, kept, eq⟩ := made
  refine ⟨?_, ?_, eq⟩
  · rw [told, ← issued]
  · rw [kept, ← issued]

theorem challengeStep_verify (step : challengeStep settings hashAnswer uuid guessing ev next)
    (call : ev.call = .verify hashedCode) :
    let compared := compareAnswer hashAnswer uuid (roundAbs ev.now) hashedCode guessing.codes
    ev.answer = .verified compared.1 ∧ next.codes = compared.2 ∧
      next.guesses = guessing.guesses ++ if compared.1 = .challengeCodeMismatch then
        participants uuid (roundAbs ev.now) guessing.codes else [] := by
  obtain ⟨_, _, _, made⟩ := step
  rw [call] at made
  have compared := @verifyChallengeCode_undisturbed uuid ev.now hashAnswer hashedCode guessing.codes
  obtain ⟨told, kept, guessed⟩ := made
  refine ⟨?_, ?_, ?_⟩
  · rw [told, ← compared]
  · rw [kept, ← compared]
  · rw [guessed, ← compared]

theorem issueCode_cases (settings : ChallengeSettings) (uuid : TruthUuid) (now : Time)
    (nonce : Nat) (codes : ChallengeCodes) :
    (∃ row, activeCode uuid now (absoluteSubtract now settings.rotationPeriod) codes =
        some row ∧ issueCode settings uuid now nonce codes =
          (if row.retryCounter = 0 then .noResults else .oneResult row.retransmissionDate row.code,
            codes)) ∨
      (activeCode uuid now (absoluteSubtract now settings.rotationPeriod) codes = none ∧
        issueCode settings uuid now nonce codes =
          (.oneResult 0 nonce, codes ++ [freshCode settings uuid now nonce])) := by
  unfold issueCode
  cases activeCode uuid now (absoluteSubtract now settings.rotationPeriod) codes with
  | none => exact .inr ⟨rfl, rfl⟩
  | some row =>
    refine .inl ⟨row, rfl, ?_⟩
    by_cases spent : row.retryCounter = 0
    · simp only [spent, if_true]
    · simp only [spent, if_false]

theorem activeCode_none {exRot : Time} (none : activeCode uuid now exRot codes = none)
    (mem : row ∈ codesOf uuid codes) (unexpired : now < row.expirationDate) :
    row.creationDate ≤ exRot := by
  rw [activeCode, argmax_eq_none, filter_eq_nil_iff] at none
  obtain ⟨has, own⟩ := mem_codesOf.mp mem
  have inactive := none row has
  rw [decide_eq_true_eq] at inactive
  by_contra later
  exact inactive ⟨own, unexpired, Nat.not_le.mp later⟩

theorem codesOf_append_fresh : codesOf uuid (codes ++ [freshCode settings uuid now nonce]) =
      codesOf uuid codes ++ [freshCode settings uuid now nonce] := by
  rw [codesOf, codesOf]
  simp [freshCode]

theorem le_of_expired {made validity : Time} (finite : now < 2 ^ 63 - 1)
    (expired : column (absoluteAdd made validity) ≤ now) : made + validity ≤ now := by
  have cap := limit_le_forever
  unfold column at expired
  split at expired
  · next small =>
    have exact_sum : absoluteAdd made validity = made + validity := by
      refine Nat.min_eq_left (Nat.le_of_not_lt ?_)
      intro beyond
      rw [absoluteAdd, Nat.min_eq_right (Nat.le_of_lt beyond)] at small
      exact absurd (Nat.lt_of_lt_of_le small cap) (Nat.lt_irrefl forever)
    rw [exact_sum] at expired
    exact expired
  · exact absurd (Nat.lt_of_le_of_lt (Nat.le_trans cap expired) finite) (Nat.lt_irrefl _)

theorem Sound.apart_now (sound : Sound settings uuid guessing)
    (covers : settings.rotationPeriod ≤ settings.validityPeriod) (dated : Dated now)
    (none : activeCode uuid (roundAbs now)
      (absoluteSubtract (roundAbs now) settings.rotationPeriod) guessing.codes = none)
    (mem : row ∈ codesOf uuid guessing.codes) :
    row.creationDate + settings.rotationPeriod ≤ roundAbs now := by
  obtain ⟨pos, _, exp⟩ := sound.dated row mem
  have finite : roundAbs now < 2 ^ 63 - 1 := Nat.lt_of_le_of_lt (roundAbs_le now) dated.2
  by_cases unexpired : roundAbs now < row.expirationDate
  · have old := activeCode_none none mem unexpired
    have ne : roundAbs now ≠ forever := Nat.ne_of_lt (Nat.lt_of_lt_of_le finite limit_le_forever)
    rw [absoluteSubtract, if_neg ne] at old
    have room : settings.rotationPeriod < roundAbs now :=
      Nat.lt_of_sub_pos (Nat.lt_of_lt_of_le pos old)
    exact Nat.add_le_of_le_sub (Nat.le_of_lt room) old
  · rw [exp] at unexpired
    exact Nat.le_trans (Nat.add_le_add_left covers _) (le_of_expired finite (Nat.not_lt.mp unexpired))

theorem Sound.fresh (sound : Sound settings uuid guessing)
    (covers : settings.rotationPeriod ≤ settings.validityPeriod) (dated : Dated now)
    (ordered : guessing.clock ≤ now) (none : activeCode uuid (roundAbs now)
      (absoluteSubtract (roundAbs now) settings.rotationPeriod) guessing.codes = none) :
    Sound settings uuid ⟨now,
      guessing.codes ++ [freshCode settings uuid (roundAbs now) nonce], guessing.guesses⟩ := by
  constructor
  · intro row mem
    replace mem : row ∈ codesOf uuid
      (guessing.codes ++ [freshCode settings uuid (roundAbs now) nonce]) := mem
    rw [codesOf_append_fresh] at mem
    rcases mem_append.mp mem with old | new
    · obtain ⟨positive, pre, exp⟩ := sound.dated row old
      exact ⟨positive, Nat.le_trans pre (roundAbs_mono ordered dated.lt_forever), exp⟩
    rw [mem_singleton.mp new]
    have made : (freshCode settings uuid (roundAbs now) nonce).creationDate =
      roundAbs now := dated.column_roundAbs
    refine ⟨?_, ?_, ?_⟩
    · rw [made]
      exact dated.roundAbs_pos
    · exact Nat.le_of_eq made
    · rw [made]
      rfl
  · change (codesOf uuid (guessing.codes ++ [_])).Pairwise _
    rw [codesOf_append_fresh, pairwise_append]
    refine ⟨sound.apart, pairwise_singleton _ _, ?_⟩
    intro older mem newer new
    rw [mem_singleton.mp new]
    have later := sound.apart_now covers dated none mem
    have made : (freshCode settings uuid (roundAbs now) nonce).creationDate =
      roundAbs now := dated.column_roundAbs
    rw [Apart, made]
    exact later
  · intro pos row h
    replace h : (codesOf uuid
      (guessing.codes ++ [freshCode settings uuid (roundAbs now) nonce]))[pos]? = some row := h
    rw [codesOf_append_fresh] at h
    by_cases old : pos < (codesOf uuid guessing.codes).length
    · rw [getElem?_append_left old] at h
      exact sound.charged pos row h
    have unused : guessing.guesses.count pos = 0 := by
      rw [count_eq_zero]
      intro guessed
      exact old (sound.known pos guessed)
    rw [getElem?_append_right (Nat.not_lt.mp old)] at h
    have new := mem_of_getElem? h
    rw [mem_singleton] at new
    change guessing.guesses.count pos + row.retryCounter ≤ _
    rw [unused, new]
    exact Nat.le_of_eq (Nat.zero_add _)
  · intro pos guessed
    change pos < (codesOf uuid (guessing.codes ++ [_])).length
    rw [codesOf_append_fresh, length_append]
    exact Nat.lt_add_right 1 (sound.known pos guessed)

theorem Sound.later (sound : Sound settings uuid guessing) (dated : Dated now)
    (ordered : guessing.clock ≤ now) :
    Sound settings uuid ⟨now, guessing.codes, guessing.guesses⟩ := by
  refine ⟨?_, sound.apart, sound.charged, sound.known⟩
  intro row mem
  obtain ⟨pos, pre, exp⟩ := sound.dated row mem
  exact ⟨pos, Nat.le_trans pre (roundAbs_mono ordered dated.lt_forever), exp⟩

theorem mem_participants {pos : Nat} : pos ∈ participants uuid now codes ↔ ∃ row,
      (codesOf uuid codes)[pos]? = some row ∧ active uuid now row = true := by
  rw [participants, mem_filter, mem_range]
  constructor
  · intro both
    obtain ⟨mem, applies⟩ := both
    rw [getElem?_eq_getElem mem] at applies
    exact ⟨_, getElem?_eq_getElem mem, applies⟩
  intro h
  obtain ⟨row, at_position, applies⟩ := h
  refine ⟨(List.getElem?_eq_some_iff.mp at_position).1, ?_⟩
  rw [at_position]
  exact applies

theorem count_participants_le (pos : Nat) : (participants uuid now codes).count pos ≤ 1 :=
  nodup_iff_count_le_one.mp (List.nodup_range.filter _) pos

theorem Sound.compared (sound : Sound settings uuid guessing) {guesses : List Nat}
    (spending : Spends update) (once : ∀ pos, guesses.count pos ≤ 1)
    (charged : ∀ pos ∈ guesses, ∃ row, (codesOf uuid guessing.codes)[pos]? =
      some row ∧ (update row).retryCounter < row.retryCounter) : Sound settings uuid
      ⟨guessing.clock, guessing.codes.map update, guessing.guesses ++ guesses⟩ := by
  have rows : codesOf uuid (guessing.codes.map update) =
    (codesOf uuid guessing.codes).map update := codesOf_map spending
  constructor
  · intro row mem
    rw [rows] at mem
    obtain ⟨old, has, rfl⟩ := List.mem_map.mp mem
    rw [spending.same old]
    exact sound.dated old has
  · change (codesOf uuid (guessing.codes.map update)).Pairwise _
    rw [rows, pairwise_map]
    refine sound.apart.imp ?_
    intro older newer apart
    rw [spending.same older, spending.same newer]
    exact apart
  · intro pos row h
    rw [rows, getElem?_map, Option.map_eq_some_iff] at h
    obtain ⟨old, at_position, rfl⟩ := h
    have pre := sound.charged pos old at_position
    change (guessing.guesses ++ guesses).count pos + (update old).retryCounter ≤ _
    rw [count_append]
    by_cases guessed : pos ∈ guesses
    · obtain ⟨also, eq, less⟩ := charged pos guessed
      rw [at_position, Option.some.injEq] at eq
      subst eq
      have single := once pos
      omega
    have less := spending.less old
    rw [count_eq_zero.mpr guessed]
    omega
  · intro pos guessed
    change pos < (codesOf uuid (guessing.codes.map update)).length
    rw [rows, length_map]
    rcases mem_append.mp guessed with old | new
    · exact sound.known pos old
    · obtain ⟨row, at_position, _⟩ := charged pos new
      exact (List.getElem?_eq_some_iff.mp at_position).1

theorem Sound.step (sound : Sound settings truthUuid guessing)
    (covers : settings.rotationPeriod ≤ settings.validityPeriod)
    (step : challengeStep settings hashAnswer truthUuid guessing ev next) :
    Sound settings truthUuid next := by
  obtain ⟨dated, ordered, clock, _⟩ := id step
  obtain ⟨nextClock, nextCodes, nextGuesses⟩ := next
  subst clock
  cases call : ev.call with
  | create nonce =>
    obtain ⟨_, kept, eq⟩ := challengeStep_create step call
    simp only at kept eq
    rw [kept, eq]
    rcases issueCode_cases settings truthUuid (roundAbs ev.now) nonce guessing.codes with
      ⟨row, _, same⟩ | ⟨none, made⟩
    · rw [same]
      exact sound.later dated ordered
    · rw [made]
      exact sound.fresh covers dated ordered none
  | verify hashedCode =>
    obtain ⟨_, kept, guessed⟩ := challengeStep_verify step call
    simp only at kept guessed
    obtain ⟨update, spending, after, mismatch⟩ := @compareAnswer_spends truthUuid
      (roundAbs ev.now) hashAnswer hashedCode guessing.codes
    rw [kept, guessed, after]
    refine (sound.later dated ordered).compared spending ?_ ?_
    · intro pos
      split
      · exact count_participants_le pos
      · exact Nat.zero_le 1
    intro pos mem
    split at mem
    · next told =>
      obtain ⟨row, at_position, applies⟩ := mem_participants.mp mem
      have has := (mem_codesOf.mp (mem_of_getElem? at_position)).1
      exact ⟨row, at_position, (mismatch told).2 row has applies⟩
    · cases mem

def lessTries (retryCounter : Nat) : Nat :=
  if retryCounter = 2 ^ 31 then retryCounter else retryCounter - 1

theorem lessTries_mono {fewer more : Nat} (ordered : fewer ≤ more) :
    lessTries fewer ≤ lessTries more := by
  unfold lessTries
  split
  · split <;> omega
  · split <;> omega

theorem lessTries_le (retryCounter : Nat) : lessTries retryCounter ≤ retryCounter := by
  unfold lessTries
  split
  · exact Nat.le_refl retryCounter
  · exact Nat.sub_le retryCounter 1

def Distinct (truthUuid : TruthUuid) (codes : ChallengeCodes) : Prop :=
  ((codesOf truthUuid codes).map (·.code)).Nodup

theorem Distinct.map (apart : Distinct uuid codes) (spending : Spends update) :
    Distinct uuid (codes.map update) := by
  have kept : (·.code) ∘ update = fun row => row.code := by
    funext row
    rw [Function.comp_apply, spending.same row]
  rw [Distinct, codesOf_map spending, List.map_map, kept]
  exact apart

theorem challengecodeUpdateRetry_exact (apart : Distinct uuid codes) (code : Nat) :
    ∃ update, Spends update ∧ (match challengecodeUpdateRetry uuid code codes with
        | .error _ => codes
        | .ok (_, charged) => charged) = codes.map update ∧
      ∀ row ∈ codesOf uuid codes, (update row).retryCounter =
        if row.code = code then lessTries row.retryCounter else row.retryCounter := by
  by_cases least : (codes.any fun row => spends uuid code row && row.retryCounter = 2 ^ 31) = true
  · have fails : challengecodeUpdateRetry uuid code codes = .error .hard := if_pos least
    rw [fails]
    refine ⟨id, .id, (List.map_id codes).symm, ?_⟩
    intro row mem
    split
    · next eq =>
      obtain ⟨y, has, both⟩ := List.any_eq_true.mp least
      rw [Bool.and_eq_true, decide_eq_true_eq] at both
      have spent := both.1
      simp only [spends, decide_eq_true_eq] at spent
      have one := inj_on_of_nodup_map apart mem
        (mem_codesOf.mpr ⟨has, spent.1⟩) (eq.trans spent.2.1.symm)
      rw [one, id_eq, both.2, lessTries, if_pos rfl]
    · rfl
  · have updated : challengecodeUpdateRetry uuid code codes =
        .ok (codes.countP (spends uuid code), codes.map (spend uuid code)) := if_neg least
    rw [updated]
    refine ⟨spend uuid code, spends_spend code, rfl, ?_⟩
    intro row mem
    obtain ⟨has, own⟩ := mem_codesOf.mp mem
    unfold spend
    by_cases charged : spends uuid code row = true
    · have named := charged
      simp only [spends, decide_eq_true_eq] at named
      have large : row.retryCounter ≠ 2 ^ 31 := by
        intro lowest
        refine least (List.any_eq_true.mpr ⟨row, has, ?_⟩)
        rw [Bool.and_eq_true, decide_eq_true_eq]
        exact ⟨charged, lowest⟩
      rw [if_pos charged, if_pos named.2.1, lessTries, if_neg large]
    · rw [if_neg charged]
      split
      · next eq =>
        have none : row.retryCounter = 0 := by
          by_contra some
          refine charged ?_
          simp only [spends, decide_eq_true_eq]
          exact ⟨own, eq, some⟩
        rw [none]
        rfl
      · rfl

/-- With different codes every compared row that does not match loses exactly one try. -/
theorem checkRows_exact (rows : List ChallengeCode) (context : CheckValidity)
    (apart : Distinct uuid codes) (once : (rows.map (·.code)).Nodup) : ∃ update, Spends update ∧
      (checkRows hashAnswer uuid hashedCode rows context codes).2 = codes.map update ∧
      ∀ row ∈ codesOf uuid codes, (update row).retryCounter =
        if row.code ∈ rows.map (·.code) ∧ hashAnswer row.code ≠ hashedCode then
          lessTries row.retryCounter
        else row.retryCounter := by
  induction rows generalizing context codes with
  | nil =>
    refine ⟨id, .id, (List.map_id codes).symm, ?_⟩
    intro row _
    rfl
  | cons x rows ih =>
    rw [map_cons, nodup_cons] at once
    unfold checkRows
    split
    · next matched =>
      obtain ⟨update, spending, after, exactly⟩ := ih { context with
        valid := true, code := x.code, satisfied := x.satisfied } apart once.2
      refine ⟨update, spending, after, ?_⟩
      intro row mem
      rw [exactly row mem]
      congr 1
      rw [map_cons, mem_cons, eq_iff_iff]
      constructor
      · intro both
        exact ⟨.inr both.1, both.2⟩
      intro both
      rcases both.1 with eq | later
      · rw [eq] at both
        exact absurd matched both.2
      · exact ⟨later, both.2⟩
    · next ne =>
      obtain ⟨single, spent, made, one⟩ := challengecodeUpdateRetry_exact apart x.code
      have rest : ∀ continued : CheckValidity, ∃ update, Spends update ∧
          (checkRows hashAnswer uuid hashedCode rows continued
            (codes.map single)).2 = codes.map update ∧
          ∀ row ∈ codesOf uuid codes, (update row).retryCounter =
            if row.code ∈ (x :: rows).map (·.code) ∧ hashAnswer row.code ≠ hashedCode then
              lessTries row.retryCounter
            else row.retryCounter := by
        intro continued
        obtain ⟨update, spending, after, exactly⟩ := ih continued (apart.map spent) once.2
        refine ⟨update ∘ single, spent.comp spending, ?_, ?_⟩
        · rw [after, List.map_map]
        intro row mem
        have moved : single row ∈ codesOf uuid (codes.map single) := by
          rw [codesOf_map spent]
          exact List.mem_map_of_mem mem
        have code_eq : (single row).code = row.code := by rw [spent.same row]
        rw [Function.comp_apply, exactly _ moved, one row mem, code_eq]
        simp only [map_cons, mem_cons]
        by_cases eq : row.code = x.code
        · have gone : row.code ∉ rows.map (·.code) := by
            rw [eq]
            exact once.1
          have unmatched : hashAnswer row.code ≠ hashedCode := by
            rw [eq]
            exact ne
          rw [if_neg (fun both => gone both.1), if_pos eq, if_pos ⟨.inl eq, unmatched⟩]
        · simp only [eq, if_false, false_or]
      split
      · next failure fails =>
        rw [fails] at made
        have kept : codes.map single = codes := made.symm
        have continued := rest { context with dbFailure := true }
        rw [kept] at continued
        exact continued
      rename_i count charged updated
      rw [updated] at made
      have kept : charged = codes.map single := made
      rw [kept]
      exact rest _

theorem challengecodeSelect_codesOf : challengecodeSelect uuid now codes =
    (codesOf uuid codes).filter fun row => now < row.expirationDate ∧ row.retryCounter ≠ 0 := by
  rw [codesOf, List.filter_filter]
  apply filter_congr
  intro row _
  simp only [ne_eq, Bool.decide_and, Bool.and_comm, Bool.and_assoc]

/-- An answer costs every unexpired code that it does not match one try, if there is one. -/
theorem compareAnswer_exact (apart : Distinct truthUuid codes) : ∃ update, Spends update ∧
      (compareAnswer hashAnswer truthUuid now hashedCode codes).2 = codes.map update ∧
      ∀ row ∈ codesOf truthUuid codes, (update row).retryCounter =
        if now < row.expirationDate ∧ hashAnswer row.code ≠ hashedCode then
          lessTries row.retryCounter
        else row.retryCounter := by
  have once : ((challengecodeSelect truthUuid now codes).map (·.code)).Nodup := by
    rw [challengecodeSelect_codesOf]
    exact apart.sublist (List.filter_sublist.map _)
  obtain ⟨update, spending, after, exactly⟩ := @checkRows_exact truthUuid hashAnswer hashedCode
    codes (challengecodeSelect truthUuid now codes) ⟨false, 0, false, false⟩ apart once
  refine ⟨update, spending, after, ?_⟩
  intro row mem
  rw [exactly row mem]
  by_cases tries : row.retryCounter = 0
  · have nothing : lessTries 0 = 0 := rfl
    rw [tries]
    simp only [nothing, ite_self]
  have compared : row.code ∈ (challengecodeSelect truthUuid now codes).map (·.code) ↔
      now < row.expirationDate := by
    constructor
    · intro named
      obtain ⟨y, r, eq⟩ := List.mem_map.mp named
      rw [challengecodeSelect_codesOf, mem_filter, decide_eq_true_eq] at r
      have one := inj_on_of_nodup_map apart r.1 mem eq
      rw [one] at r
      exact r.2.1
    intro unexpired
    have r : row ∈ challengecodeSelect truthUuid now codes := by
      rw [challengecodeSelect_codesOf, mem_filter, decide_eq_true_eq]
      exact ⟨mem, unexpired, tries⟩
    exact List.mem_map_of_mem r
  simp only [compared]

def Ordered (now : Time) (older newer : ChallengeCode) : Prop :=
  now < older.expirationDate → now < newer.expirationDate →
    older.retryCounter ≤ newer.retryCounter

instance (now : Time) (older newer : ChallengeCode) : Decidable (Ordered now older newer) :=
  inferInstanceAs (Decidable (_ → _))

structure Steady (truthUuid : TruthUuid) (guessing : Guessing) : Prop where
  distinct : Distinct truthUuid guessing.codes
  ordered : (codesOf truthUuid guessing.codes).Pairwise (Ordered (roundAbs guessing.clock))

/-- A nonce is not drawn twice, and an answer matches no unexpired code but the newest. -/
def Unguessed (hashAnswer : Nat → HashCode) (truthUuid : TruthUuid) (guessing : Guessing)
    (event : ChallengeEvent) : Prop :=
  match event.call with
  | .create nonce => nonce ∉ (codesOf truthUuid guessing.codes).map (·.code)
  | .verify hashedCode => ∀ row ∈ (codesOf truthUuid guessing.codes).dropLast,
      roundAbs event.now < row.expirationDate → hashAnswer row.code ≠ hashedCode

theorem Steady.later (steady : Steady uuid guessing) (ordered : guessing.clock ≤ now)
    (dated : Dated now) : (codesOf uuid guessing.codes).Pairwise (Ordered (roundAbs now)) := by
  refine steady.ordered.imp ?_
  intro older newer pre unexpired also
  have rounded := roundAbs_mono ordered dated.lt_forever
  exact pre (Nat.lt_of_le_of_lt rounded unexpired) (Nat.lt_of_le_of_lt rounded also)

theorem Sound.retryCounter_le (sound : Sound settings uuid guessing)
    (mem : row ∈ codesOf uuid guessing.codes) : row.retryCounter ≤ settings.retryCounter := by
  obtain ⟨pos, at_position⟩ := mem_iff_getElem?.mp mem
  exact Nat.le_of_add_left_le (sound.charged pos row at_position)

theorem Steady.compared (apart : Distinct uuid codes)
    (ordered : (codesOf uuid codes).Pairwise (Ordered now))
    (unguessed : ∀ row ∈ (codesOf uuid codes).dropLast,
      now < row.expirationDate → hashAnswer row.code ≠ hashedCode) :
    Distinct uuid (compareAnswer hashAnswer uuid now hashedCode codes).2 ∧
      (codesOf uuid (compareAnswer hashAnswer uuid now hashedCode codes).2).Pairwise
        (Ordered now) := by
  obtain ⟨update, spending, after, exactly⟩ := @compareAnswer_exact uuid now hashAnswer
    hashedCode codes apart
  rw [after]
  refine ⟨apart.map spending, ?_⟩
  rw [codesOf_map spending, pairwise_iff_getElem]
  rw [pairwise_iff_getElem] at ordered
  intro x y inFirst inSecond old
  rw [length_map] at inFirst inSecond
  rw [getElem_map, getElem_map]
  intro unexpired also
  rw [spending.same] at unexpired also
  have pre := ordered x y inFirst inSecond old unexpired also
  have mem : x < (codesOf uuid codes).dropLast.length := by
    rw [length_dropLast]
    omega
  have older : (codesOf uuid codes)[x] ∈ (codesOf uuid codes).dropLast := by
    have at_first := getElem_mem mem
    rw [getElem_dropLast] at at_first
    exact at_first
  rw [exactly _ (getElem_mem inFirst), exactly _ (getElem_mem inSecond),
    if_pos ⟨unexpired, unguessed _ older unexpired⟩]
  split
  · exact lessTries_mono pre
  · exact Nat.le_trans (lessTries_le _) pre

theorem Steady.step (steady : Steady truthUuid guessing) (sound : Sound settings truthUuid guessing)
    (unguessed : Unguessed hashAnswer truthUuid guessing ev)
    (step : challengeStep settings hashAnswer truthUuid guessing ev next) :
    Steady truthUuid next := by
  obtain ⟨dated, ordered, clock, _⟩ := id step
  have pre := steady.later ordered dated
  unfold Unguessed at unguessed
  cases call : ev.call with
  | create nonce =>
    rw [call] at unguessed
    obtain ⟨_, kept, _⟩ := challengeStep_create step call
    rcases issueCode_cases settings truthUuid (roundAbs ev.now) nonce guessing.codes with
      ⟨row, _, same⟩ | ⟨none, made⟩
    · rw [same] at kept
      refine ⟨?_, ?_⟩
      · rw [kept]
        exact steady.distinct
      · rw [kept, clock]
        exact pre
    rw [made] at kept
    refine ⟨?_, ?_⟩
    · rw [kept, Distinct, codesOf_append_fresh, map_append, nodup_append]
      refine ⟨steady.distinct, nodup_singleton _, ?_⟩
      intro code old y new eq
      have drawn : y = nonce := mem_singleton.mp new
      rw [eq, drawn] at old
      exact unguessed old
    rw [kept, clock, codesOf_append_fresh, pairwise_append]
    refine ⟨pre, pairwise_singleton _ _, ?_⟩
    intro older mem newer new _ _
    rw [mem_singleton.mp new]
    exact sound.retryCounter_le mem
  | verify hashedCode =>
    rw [call] at unguessed
    obtain ⟨_, kept, _⟩ := challengeStep_verify step call
    obtain ⟨apart, still⟩ := Steady.compared steady.distinct pre unguessed
    refine ⟨?_, ?_⟩
    · rw [kept]
      exact apart
    · rw [kept, clock]
      exact still

variable {newest : ChallengeCode}

theorem newest_or_older {relation : ChallengeCode → ChallengeCode → Prop}
    {rows : List ChallengeCode} (pairwise : rows.Pairwise relation)
    (last : rows.getLast? = some newest) (mem : row ∈ rows) :
    row = newest ∨ relation row newest := by
  obtain ⟨older, split⟩ := getLast?_eq_some_iff.mp last
  rw [split] at pairwise mem
  rcases mem_append.mp mem with old | new
  · exact .inr ((pairwise_append.mp pairwise).2.2 row old newest (mem_singleton_self _))
  · exact .inl (mem_singleton.mp new)

theorem mem_of_newest (last : (codesOf truthUuid codes).getLast? = some newest) :
    newest ∈ codesOf truthUuid codes := mem_of_getLast? last

theorem Sound.creationDate_le (sound : Sound settings uuid guessing)
    (last : (codesOf uuid guessing.codes).getLast? = some newest)
    (mem : row ∈ codesOf uuid guessing.codes) : row.creationDate ≤ newest.creationDate := by
  rcases newest_or_older sound.apart last mem with eq | apart
  · rw [eq]
  · exact Nat.le_of_add_right_le apart

theorem Sound.expirationDate_le (sound : Sound settings uuid guessing)
    (last : (codesOf uuid guessing.codes).getLast? = some newest)
    (mem : row ∈ codesOf uuid guessing.codes) : row.expirationDate ≤ newest.expirationDate := by
  rw [(sound.dated row mem).2.2, (sound.dated newest (mem_of_newest last)).2.2]
  exact column_mono (absoluteAdd_mono (sound.creationDate_le last mem))

theorem Sound.activeCode_eq (sound : Sound settings uuid guessing) (dated : Dated now)
    (ordered : guessing.clock ≤ now) (last : (codesOf uuid guessing.codes).getLast? = some newest)
    (h : activeCode uuid (roundAbs now)
      (absoluteSubtract (roundAbs now) settings.rotationPeriod) guessing.codes = some row) :
    row = newest := by
  have r := argmax_mem h
  rw [mem_filter, decide_eq_true_eq] at r
  obtain ⟨has, own, unexpired, recent⟩ := r
  have mem : row ∈ codesOf uuid guessing.codes := mem_codesOf.mpr ⟨has, own⟩
  have older := sound.creationDate_le last mem
  have newest_member := mem_codesOf.mp (mem_of_newest last)
  have also : newest.creationDate ≤ row.creationDate := by
    refine le_of_mem_argmax ?_ h
    rw [mem_filter, decide_eq_true_eq]
    exact ⟨newest_member.1, newest_member.2,
      Nat.lt_of_lt_of_le unexpired (sound.expirationDate_le last mem),
      Nat.lt_of_lt_of_le recent older⟩
  rcases newest_or_older sound.apart last mem with eq | apart
  · exact eq
  -- without a rotation period no code is recent enough
  have made := (sound.dated row mem).2.1
  have rounded := roundAbs_mono ordered dated.lt_forever
  have finite : roundAbs now ≠ forever :=
    Nat.ne_of_lt (Nat.lt_of_le_of_lt (roundAbs_le now) dated.lt_forever)
  rw [absoluteSubtract, if_neg finite] at recent
  have still : row.creationDate + settings.rotationPeriod ≤ row.creationDate + 0 :=
    Nat.le_trans apart also
  rw [Nat.le_zero.mp (Nat.le_of_add_le_add_left still)] at recent
  have past := Nat.le_trans made rounded
  exact absurd (Nat.lt_of_lt_of_le recent past) (Nat.lt_irrefl _)

theorem Sound.initial (none : codesOf truthUuid start.codes = []) (unused : start.guesses = []) :
    Sound settings truthUuid start := by
  constructor
  · intro row mem
    rw [none] at mem
    cases mem
  · rw [none]
    exact .nil
  · intro pos row h
    rw [none] at h
    cases h
  intro pos guessed
  rw [unused] at guessed
  cases guessed

theorem Steady.initial (none : codesOf truthUuid start.codes = []) : Steady truthUuid start := by
  constructor
  · rw [Distinct, none]
    exact nodup_nil
  · rw [none]
    exact .nil

theorem Sound.count_le (sound : Sound settings uuid guessing) (pos : Nat) :
    guessing.guesses.count pos ≤ settings.retryCounter := by
  by_cases guessed : pos ∈ guessing.guesses
  · have mem := sound.known pos guessed
    exact Nat.le_of_add_right_le (sound.charged pos _ (getElem?_eq_getElem mem))
  · rw [count_eq_zero.mpr guessed]
    exact Nat.zero_le _

theorem Sound.issued_tries (sound : Sound settings uuid guessing)
    (allowed : settings.retryCounter ≠ 0)
    (step : challengeStep settings hashAnswer uuid guessing ev next)
    (call : ev.call = .create nonce) {retransmissionDate : Time} {code : Nat}
    (issued : ev.answer = .created (.oneResult retransmissionDate code))
    (last : (codesOf uuid next.codes).getLast? = some newest) : newest.retryCounter ≠ 0 := by
  obtain ⟨dated, ordered, _, _⟩ := id step
  obtain ⟨told, kept, _⟩ := challengeStep_create step call
  rcases issueCode_cases settings uuid (roundAbs ev.now) nonce guessing.codes with
    ⟨row, h, same⟩ | ⟨_, made⟩
  · rw [same] at told kept
    rw [kept] at last
    have eq := sound.activeCode_eq dated ordered last h
    rw [eq] at told
    intro spent
    rw [if_pos spent, issued] at told
    cases told
  · rw [made] at kept
    rw [kept, codesOf_append_fresh, getLast?_append, getLast?_singleton,
      Option.some_or, Option.some.injEq] at last
    rw [← last]
    exact allowed

theorem Sound.newest_participates (sound : Sound settings uuid guessing)
    (last : (codesOf uuid guessing.codes).getLast? = some newest) (tries : newest.retryCounter ≠ 0)
    (mismatch : (compareAnswer hashAnswer uuid now hashedCode guessing.codes).1 =
      .challengeCodeMismatch) :
    (codesOf uuid guessing.codes).length - 1 ∈ participants uuid now guessing.codes := by
  obtain ⟨_, _, _, told⟩ := @compareAnswer_spends uuid now hashAnswer hashedCode guessing.codes
  obtain ⟨row, has, applies⟩ := (told mismatch).1
  simp only [active, decide_eq_true_eq] at applies
  have mem : row ∈ codesOf uuid guessing.codes := mem_codesOf.mpr ⟨has, applies.1⟩
  rw [mem_participants]
  refine ⟨newest, ?_, ?_⟩
  · rw [← getLast?_eq_getElem?]
    exact last
  simp only [active, decide_eq_true_eq]
  exact ⟨(mem_codesOf.mp (mem_of_newest last)).2,
    Nat.lt_of_lt_of_le applies.2.1 (sound.expirationDate_le last mem), tries⟩

end Anastasis.Stasis
