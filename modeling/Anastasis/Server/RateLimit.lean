import Anastasis.Server.Reply
import Anastasis.Stasis.ChallengeCodeBounds

/-! Security questions: codes that nobody receives limit how often an answer is compared. -/

set_option autoImplicit false

namespace Anastasis.Server

open Library Library.Transition Stasis List

def seconds : Time := 1000000

/-- A code lives for an hour, and every thirty seconds there may be another one. -/
def questionSettings : ChallengeSettings where
  rotationPeriod := 30 * seconds
  validityPeriod := 3600 * seconds
  retryCounter := 3

inductive RateLimit where
  | passed
  | replied (reply : ErrorReply)
  | aborted
deriving DecidableEq

def rateLimited : RateLimit := .replied ⟨429, .truthRateLimited, none⟩

/-- The two readings of the clock, and the failures that the two calls meet. -/
structure RateLimitCall where
  created : Time
  verified : Time
  random : Nat → Nat
  creating : Nat → Option Failure
  verifying : Nat → Option Failure

def rateLimit (hashAnswer : Nat → HashCode) (truthUuid : TruthUuid) (call : RateLimitCall)
    (codes : ChallengeCodes) : RateLimit × ChallengeCodes :=
  match createChallengeCode questionSettings truthUuid call.created call.random
      (.opened codes call.creating) with
  | (.hardError, final) | (.softError, final) =>
    (.replied ⟨500, .genericDbFetchFailed, some "create_challenge_code (for rate limiting)"⟩,
      final.committed)
  | (.noResults, final) => (rateLimited, final.committed)
  | (.oneResult _ code, middle) =>
    match verifyChallengeCode hashAnswer truthUuid call.verified (hashAnswer (code + 1))
        (.opened middle.committed call.verifying) with
    | (.challengeCodeMismatch, final) => (.passed, final.committed)
    | (.hardError, final) =>
      (.replied ⟨500, .genericDbFetchFailed, some "verify_challenge_code"⟩, final.committed)
    | (.noResults, final) => (rateLimited, final.committed)
    | (.validCodeStored _ _, final) => (.aborted, final.committed)

inductive QuestionAnswer where
  | keyShare
  | error (reply : ErrorReply)
  | aborted
deriving DecidableEq

/-- An answer is compared with the decrypted truth after it has passed the rate limit. -/
def handleSecurityQuestion (hashAnswer : Nat → HashCode) (truthUuid : TruthUuid)
    (call : RateLimitCall) (challengeResponse : Option HashCode) (decryptedTruth : Bytes)
    (codes : ChallengeCodes) : QuestionAnswer × ChallengeCodes :=
  match challengeResponse with
  | none => (.error ⟨403, .truthChallengeResponseRequired, none⟩, codes)
  | some response =>
    match rateLimit hashAnswer truthUuid call codes with
    | (.replied reply, final) => (.error reply, final)
    | (.aborted, final) => (.aborted, final)
    | (.passed, final) =>
      if decryptedTruth.length ≠ 64 ∨ response.val ≠ decryptedTruth then
        (.error ⟨403, .truthChallengeFailed, none⟩, final)
      else (.keyShare, final)

/-- The codes of a question, and the position of the newest one each time that an answer was let
through. -/
structure Limiter where
  clock : Time
  codes : ChallengeCodes
  compared : List Nat

structure RateLimitEvent where
  created : Time
  verified : Time
  nonce : Nat
  result : RateLimit

def RateLimitEvent.call (event : RateLimitEvent) : RateLimitCall where
  created := event.created
  verified := event.verified
  random := fun _ => event.nonce
  creating := fun _ => none
  verifying := fun _ => none

def rateLimitStep (hashAnswer : Nat → HashCode) (truthUuid : TruthUuid) (limiter : Limiter)
    (event : RateLimitEvent) (next : Limiter) : Prop :=
  Dated event.created ∧ Dated event.verified ∧ limiter.clock ≤ event.created ∧
    event.created ≤ event.verified ∧ next.clock = event.verified ∧
    rateLimit hashAnswer truthUuid event.call limiter.codes = (event.result, next.codes) ∧
    next.compared = limiter.compared ++
      if event.result = .passed then [(codesOf truthUuid next.codes).length - 1] else []

variable {hashAnswer : Nat → HashCode} {truthUuid uuid : TruthUuid} {limiter next : Limiter}
  {event ev : RateLimitEvent}

def Limited (truthUuid : TruthUuid) (limiter : Limiter) : Prop :=
  ∃ guesses, Sound questionSettings truthUuid ⟨limiter.clock, limiter.codes, guesses⟩ ∧
    ∀ position, limiter.compared.count position ≤ guesses.count position

theorem questionSettings_covers :
    questionSettings.rotationPeriod ≤ questionSettings.validityPeriod := by decide

theorem Limited.refused {guesses : List Nat} {codes : ChallengeCodes} {made verified : Time}
    (sound : Sound questionSettings uuid ⟨made, codes, guesses⟩)
    (cnt : ∀ pos, limiter.compared.count pos ≤ guesses.count pos)
    (dated : Dated verified) (later : made ≤ verified) :
    Limited uuid ⟨verified, codes, limiter.compared ++ []⟩ := by
  refine ⟨guesses, sound.later dated later, ?_⟩
  intro pos
  rw [append_nil]
  exact cnt pos

theorem Limited.passed {guesses : List Nat} {codes : ChallengeCodes} {made verified : Time}
    {hashedCode : HashCode} (sound : Sound questionSettings truthUuid ⟨made, codes, guesses⟩)
    (cnt : ∀ pos, limiter.compared.count pos ≤ guesses.count pos)
    (dated : Dated verified) (later : made ≤ verified)
    (tries : ∀ newest, (codesOf truthUuid codes).getLast? = some newest → newest.retryCounter ≠ 0)
    (mismatch : (compareAnswer hashAnswer truthUuid (roundAbs verified) hashedCode codes).1 =
      .challengeCodeMismatch) : Limited truthUuid
      ⟨verified, (compareAnswer hashAnswer truthUuid (roundAbs verified) hashedCode codes).2,
        limiter.compared ++ [(codesOf truthUuid
          (compareAnswer hashAnswer truthUuid (roundAbs verified) hashedCode codes).2).length - 1]⟩ := by
  obtain ⟨update, spending, after, told⟩ := @compareAnswer_spends truthUuid (roundAbs verified)
    hashAnswer hashedCode codes
  obtain ⟨⟨row, has, applies⟩, less⟩ := told mismatch
  have mem : row ∈ codesOf truthUuid codes := by
    simp only [active, decide_eq_true_eq] at applies
    exact mem_codesOf.mpr ⟨has, applies.1⟩
  obtain ⟨newest, last⟩ : ∃ newest, (codesOf truthUuid codes).getLast? = some newest :=
    Option.ne_none_iff_exists'.mp fun none => by
      rw [getLast?_eq_none_iff.mp none] at mem
      cases mem
  have participates := sound.newest_participates last (tries newest last) mismatch
  have length_eq : (codesOf truthUuid (codes.map update)).length =
      (codesOf truthUuid codes).length := by
    rw [codesOf_map spending, length_map]
  rw [after, length_eq]
  refine ⟨guesses ++ participants truthUuid (roundAbs verified) codes, ?_, ?_⟩
  · refine (sound.later dated later).compared spending count_participants_le ?_
    intro pos guessed
    obtain ⟨row, at_position, applies⟩ := mem_participants.mp guessed
    have inside := (mem_codesOf.mp (mem_of_getElem? at_position)).1
    exact ⟨row, at_position, less row inside applies⟩
  intro pos
  rw [count_append, count_append]
  refine Nat.add_le_add (cnt pos) ?_
  by_cases eq : (codesOf truthUuid codes).length - 1 = pos
  · subst eq
    rw [count_singleton_self]
    exact count_pos_iff.mpr participates
  rw [count_eq_zero.mpr]
  · exact Nat.zero_le _
  · intro single
    exact eq (mem_singleton.mp single).symm

theorem Limited.compared {guesses : List Nat} {codes : ChallengeCodes} {made verified : Time}
    {hashedCode : HashCode} (sound : Sound questionSettings uuid ⟨made, codes, guesses⟩)
    (cnt : ∀ pos, limiter.compared.count pos ≤ guesses.count pos)
    (dated : Dated verified) (later : made ≤ verified) : Limited uuid
      ⟨verified, (compareAnswer hashAnswer uuid (roundAbs verified) hashedCode codes).2,
        limiter.compared ++ []⟩ := by
  obtain ⟨update, spending, after, _⟩ := @compareAnswer_spends uuid (roundAbs verified)
    hashAnswer hashedCode codes
  have spent : Sound questionSettings uuid ⟨verified, codes.map update, guesses ++ []⟩ := by
    refine (sound.later dated later).compared spending (fun _ => Nat.zero_le 1) ?_
    intro pos guessed
    cases guessed
  rw [append_nil] at spent
  refine ⟨guesses, ?_, ?_⟩
  · rw [after]
    exact spent
  intro pos
  rw [append_nil]
  exact cnt pos

theorem Limited.step (limited : Limited truthUuid limiter)
    (step : rateLimitStep hashAnswer truthUuid limiter ev next) : Limited truthUuid next := by
  obtain ⟨guesses, sound, cnt⟩ := limited
  obtain ⟨issuedAt, comparedAt, nonce, res⟩ := ev
  obtain ⟨nextClock, nextCodes, nextCompared⟩ := next
  obtain ⟨made, verified, ordered, later, clock, r, compared⟩ := step
  simp only at made verified ordered later clock compared r
  subst clock compared
  -- the first of the two calls is a step of the codes
  cases issuing : createChallengeCode questionSettings truthUuid issuedAt (fun _ => nonce)
      (.opened limiter.codes fun _ => none) with
  | mk st issued =>
  have x : challengeStep questionSettings hashAnswer truthUuid
      ⟨limiter.clock, limiter.codes, guesses⟩ ⟨issuedAt, .create nonce, .created st⟩
      ⟨issuedAt, issued.committed, guesses⟩ := by
    refine ⟨made, ordered, rfl, ?_, ?_, rfl⟩
    · exact congrArg (fun ans => ChallengeAnswer.created ans.1) issuing.symm
    · exact congrArg (fun ans => ans.2.committed) issuing.symm
  have mid := sound.step questionSettings_covers x
  simp only [rateLimit, RateLimitEvent.call, issuing] at r
  cases st with
  | hardError =>
    cases r
    exact .refused mid cnt verified later
  | softError =>
    cases r
    exact .refused mid cnt verified later
  | noResults =>
    cases r
    exact .refused mid cnt verified later
  | oneResult retransmissionDate code =>
    have tries : ∀ newest, (codesOf truthUuid issued.committed).getLast? = some newest →
        newest.retryCounter ≠ 0 := by
      intro newest last
      exact sound.issued_tries (by decide) x rfl rfl last
    have told := @verifyChallengeCode_undisturbed truthUuid nextClock hashAnswer
      (hashAnswer (code + 1)) issued.committed
    cases verifying : verifyChallengeCode hashAnswer truthUuid nextClock (hashAnswer (code + 1))
        (.opened issued.committed fun _ => none) with
    | mk ans fin =>
    simp only [verifying] at r told
    have kept : fin.committed = (compareAnswer hashAnswer truthUuid (roundAbs nextClock)
      (hashAnswer (code + 1)) issued.committed).2 := congrArg Prod.snd told
    cases ans with
    | challengeCodeMismatch =>
      cases r
      rw [kept]
      exact .passed mid cnt verified later tries (congrArg Prod.fst told).symm
    | hardError =>
      cases r
      rw [kept]
      exact .compared mid cnt verified later
    | noResults =>
      cases r
      rw [kept]
      exact .compared mid cnt verified later
    | validCodeStored h satisfied =>
      cases r
      rw [kept]
      exact .compared mid cnt verified later

theorem Limited.count_le (limited : Limited uuid limiter) (pos : Nat) :
    limiter.compared.count pos ≤ 3 := by
  obtain ⟨guesses, sound, cnt⟩ := limited
  exact Nat.le_trans (cnt pos) (sound.count_le pos)

theorem Limited.apart (limited : Limited uuid limiter) :
    (codesOf uuid limiter.codes).Pairwise (Apart questionSettings) := by
  obtain ⟨_, sound, _⟩ := limited
  exact sound.apart

def sampleHash (code : Nat) : HashCode :=
  ⟨List.replicate 64 (UInt8.ofNat code), length_replicate⟩

def sampleCode (code created tries : Nat) : ChallengeCode where
  truthUuid := zeroBlock 32
  code := code
  creationDate := created * seconds
  expirationDate := (created + 3600) * seconds
  retransmissionDate := 0
  retryCounter := tries
  satisfied := false

end Anastasis.Server
