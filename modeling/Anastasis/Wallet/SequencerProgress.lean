import Mathlib.Data.Finset.Max
import Anastasis.TalerUtil.CanonicalJson
import Anastasis.Wallet.Sequentialized

/-! Calls that wait for each other's tokens: none of them is stuck, since all take their tokens in
one order. -/

set_option autoImplicit false

namespace Anastasis.Wallet.Sequencer

open Library.Transition TalerUtil List

variable {seq next : Sequencer} {id : Nat} {tokens taken rest : List String}

def Sorted (tokens : List String) : Prop :=
  tokens.Pairwise fun first second => codeUnits first ≤ codeUnits second

/-- Between two steps no call is in the middle of taking tokens, and there are finitely many. -/
structure Tidy (sequencer : Sequencer) : Prop where
  sorted : ∀ id call, sequencer.calls id = some call → Sorted call.tokens
  settled : ∀ id call, sequencer.calls id = some call → ∀ rest, call.stage ≠ .taking rest
  finite : ∃ ids : Finset Nat, ∀ id call, sequencer.calls id = some call → id ∈ ids

theorem Tidy.of_calls (tidy : seq.Tidy) (same : next.calls = seq.calls) : next.Tidy := by
  obtain ⟨sorted, settled, finite⟩ := tidy
  rw [← same] at sorted settled finite
  exact ⟨sorted, settled, finite⟩

theorem put_tidy {call : Option SequentialCall} (tidy : seq.Tidy)
    (own : ∀ c, call = some c → Sorted c.tokens ∧ ∀ rest, c.stage ≠ .taking rest) :
    (seq.put id call).Tidy := by
  obtain ⟨ids, all⟩ := tidy.finite
  refine ⟨?_, ?_, insert id ids, ?_⟩
  all_goals
    intro other c found
    rw [calls_put] at found
    split at found
  · exact (own c found).1
  · exact tidy.sorted other c found
  · exact (own c found).2
  · exact tidy.settled other c found
  · next same => exact Finset.mem_insert.mpr (.inl same)
  · exact Finset.mem_insert_of_mem (all other c found)

theorem acquire_tidy (tidy : seq.Tidy) (sorted : Sorted tokens) :
    (seq.acquire id tokens taken rest).Tidy := by
  induction rest generalizing seq taken with
  | nil =>
    refine put_tidy tidy fun c isCall => ?_
    cases isCall
    exact ⟨sorted, by rintro _ ⟨⟩⟩
  | cons token rest ih =>
    unfold acquire
    split
    · split
      · exact put_tidy tidy (by rintro _ ⟨⟩)
      refine put_tidy (tidy.of_calls rfl) fun c isCall => ?_
      cases isCall
      exact ⟨sorted, by rintro _ ⟨⟩⟩
    · exact ih (tidy.of_calls rfl)

theorem release_tidy (tidy : seq.Tidy) : (seq.release tokens).Tidy := by
  induction tokens generalizing seq with
  | nil => exact tidy
  | cons token rest ih =>
    unfold release
    split
    · exact tidy.of_calls rfl
    split
    · exact ih (tidy.of_calls rfl)
    refine ih ?_
    unfold resolve
    split
    · next waits =>
      have sorted := tidy.sorted _ _ waits
      refine put_tidy (tidy.of_calls rfl) fun c isCall => ?_
      cases isCall
      exact ⟨sorted, by rintro _ ⟨⟩⟩
    · exact tidy.of_calls rfl

theorem step_tidy {ev : SequentialEvent} (tidy : seq.Tidy) (step : SequencerStep seq ev next) :
    next.Tidy := by
  cases step with
  | begins =>
    have total : Std.Total fun first second => codeUnits first ≤ codeUnits second :=
      ⟨fun _ _ => le_total _ _⟩
    have trans : IsTrans String fun first second => codeUnits first ≤ codeUnits second :=
      ⟨fun _ _ _ => le_trans⟩
    exact acquire_tidy tidy (pairwise_insertionSort _ _)
  | resumes h => exact acquire_tidy (tidy.of_calls rfl) (tidy.sorted _ _ h)
  | ends => exact release_tidy (put_tidy tidy (by rintro _ ⟨⟩))

/-- The next token that a call has to take. -/
def wanted (sequencer : Sequencer) (id : Nat) : List Nat :=
  ((sequencer.calls id).bind fun call => call.stage.pending.head?).elim [] codeUnits

theorem strictly_sorted {call : SequentialCall} (sound : Sound call) (sorted : Sorted call.tokens) :
    call.tokens.Pairwise fun first second => codeUnits first < codeUnits second :=
  (sorted.and sound.nodup).imp fun both =>
    lt_of_le_of_ne both.1 fun eq => both.2 (utf16_injective eq)

/-- Whoever holds a token and does not run wants a later one. -/
theorem Orderly.holder_wants (orderly : seq.Orderly []) (tidy : seq.Tidy) {token : String}
    (idle : ∀ id tokens taken, seq.calls id ≠ some ⟨tokens, taken, .running⟩)
    (holds : seq.Holds id token) : codeUnits token < seq.wanted id := by
  obtain ⟨⟨tokens, taken, stage⟩, isCall, mem⟩ := holds
  have sound := orderly.sound id _ isCall
  have strict := strictly_sorted sound (tidy.sorted id _ isCall)
  rw [sound.split, pairwise_append] at strict
  rw [wanted, isCall]
  cases stage with
  | taking rest => exact absurd rfl (tidy.settled id _ isCall rest)
  | running => exact absurd isCall (idle id tokens taken)
  | waiting next rest | woken next rest => exact strict.2.2 token mem next mem_cons_self

/-- When no call runs, the last of the tokens that are wanted is about to be taken, since nobody
can hold it. -/
theorem Orderly.last_woken {call : SequentialCall} (orderly : seq.Orderly []) (tidy : seq.Tidy)
    (idle : ∀ id tokens taken, seq.calls id ≠ some ⟨tokens, taken, .running⟩)
    (isCall : seq.calls id = some call) : ∃ other token tokens taken rest,
      seq.calls other = some ⟨tokens, taken, .woken token rest⟩ ∧
      ∀ id call, seq.calls id = some call → seq.wanted id ≤ codeUnits token := by
  obtain ⟨ids, all⟩ := tidy.finite
  have listed : ∀ id call, seq.calls id = some call →
      id ∈ ids.filter fun id => (seq.calls id).isSome :=
    fun id call isCall => Finset.mem_filter.mpr ⟨all id call isCall, by rw [isCall]; rfl⟩
  obtain ⟨last, isLast, latest⟩ := Finset.exists_max_image _ seq.wanted ⟨id, listed id call isCall⟩
  replace latest := fun id call isCall => latest id (listed id call isCall)
  obtain ⟨⟨tokens, taken, stage⟩, isCall⟩ :=
    Option.isSome_iff_exists.mp (Finset.mem_filter.mp isLast).2
  have isWanted : seq.wanted last = stage.pending.head?.elim [] codeUnits := by
    rw [wanted, isCall]
    rfl
  rw [isWanted] at latest
  cases stage with
  | taking rest => exact absurd rfl (tidy.settled last _ isCall rest)
  | running => exact absurd isCall (idle last tokens taken)
  | woken token rest => exact ⟨last, token, tokens, taken, rest, isCall, latest⟩
  | waiting token rest =>
    rcases orderly.awaited token last ⟨tokens, taken, rest, isCall⟩ with leaves | ⟨other, attends⟩
    · cases leaves
    rcases attends with held | ⟨tokens, taken, rest, woken⟩
    · have later := orderly.holder_wants tidy idle held
      obtain ⟨c, isHolder, _⟩ := held
      exact absurd (latest other c isHolder) (not_le_of_gt later)
    · exact ⟨other, token, tokens, taken, rest, woken, latest⟩

/-- As long as there are calls, one of them goes on or ends, and without overtaking another. -/
theorem never_stuck {events : List SequentialEvent} {call : SequentialCall}
    (run : Run (Guarded Mannerly SequencerStep) start events seq)
    (isCall : seq.calls id = some call) :
    ∃ event next, Guarded Mannerly SequencerStep seq event next ∧
      ∀ other tokens, event ≠ .begins other tokens := by
  obtain ⟨orderly, tidy⟩ := run.invariant (fun seq => seq.Orderly [] ∧ seq.Tidy)
    ⟨start_orderly, by simp [start], by simp [start], ∅, by simp [start]⟩
    fun _ _ _ holds guarded =>
      ⟨step_orderly holds.1 guarded.1 guarded.2, step_tidy holds.2 guarded.2⟩
  by_cases runs : ∃ other tokens taken, seq.calls other = some ⟨tokens, taken, .running⟩
  · obtain ⟨other, tokens, taken, running⟩ := runs
    exact ⟨.ends other false, _, ⟨trivial, .ends running⟩, by rintro _ _ ⟨⟩⟩
  obtain ⟨other, token, tokens, taken, rest, woken, latest⟩ := orderly.last_woken tidy
    (fun id tokens taken running => runs ⟨id, tokens, taken, running⟩) isCall
  refine ⟨.resumes other, _, ⟨?_, .resumes woken⟩, by rintro _ _ ⟨⟩⟩
  intro tokens' taken' token' rest' woken' ask mem id isWoken
  cases Option.some.inj (woken.symm.trans woken')
  have sound := orderly.sound other _ woken
  have strict := strictly_sorted sound (tidy.sorted other _ woken)
  rw [sound.split, pairwise_append] at strict
  have later := (pairwise_cons.mp strict.2.1).1 ask (takeWhile_subset _ mem)
  obtain ⟨asking, has, left, isWoken⟩ := isWoken
  have wants := latest id _ isWoken
  rw [wanted, isWoken] at wants
  exact not_le_of_gt later wants

theorem never_stuck_two : ∃ event next, Guarded Mannerly SequencerStep oneWaits event next ∧
    ∀ other tokens, event ≠ .begins other tokens :=
  never_stuck oneWaits_mannerly (show oneWaits.calls 1 =
    some ⟨[exchangeCoinsLock], [], .waiting exchangeCoinsLock []⟩ from rfl)

end Anastasis.Wallet.Sequencer
