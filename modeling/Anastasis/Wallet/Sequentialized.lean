import Mathlib.Data.Finset.Basic
import Mathlib.Data.List.Lex
import Mathlib.Data.List.Sort
import Mathlib.Logic.Function.Basic
import Anastasis.Library.Transition
import Anastasis.TalerUtil.Objects

/-! Functions that run one after the other: calls take a lock for each of their tokens. -/

set_option autoImplicit false

namespace Anastasis.Wallet

open Library.Transition TalerUtil List

def codeUnits (text : String) : List Nat :=
  text.toList.flatMap fun character =>
    if character.toNat < 0x10000 then [character.toNat]
    else [0xD800 + (character.toNat - 0x10000) / 0x400, 0xDC00 + (character.toNat - 0x10000) % 0x400]

def sortTokens (tokens : List String) : List String :=
  tokens.insertionSort fun first second => codeUnits first ≤ codeUnits second

theorem sortTokens_perm (tokens : List String) : (sortTokens tokens).Perm tokens :=
  perm_insertionSort _ tokens

inductive Stage where
  /-- Between two awaits, with the tokens that are still to be taken. -/
  | taking (rest : List String)
  | waiting (token : String) (rest : List String)
  /-- The promise is resolved, but the call has not gone on yet. -/
  | woken (token : String) (rest : List String)
  | running
deriving DecidableEq

def Stage.pending : Stage → List String
  | .taking rest => rest
  | .waiting token rest | .woken token rest => token :: rest
  | .running => []

structure SequentialCall where
  tokens : List String
  taken : List String
  stage : Stage
deriving DecidableEq

/-- The locks, and who waits for them, first come first served. -/
structure Sequencer where
  calls : Nat → Option SequentialCall
  resourceWaiters : String → List Nat
  resourceLocks : Finset String

namespace Sequencer

def start : Sequencer := ⟨fun _ => none, fun _ => [], ∅⟩

def put (id : Nat) (call : Option SequentialCall) (sequencer : Sequencer) : Sequencer :=
  { sequencer with calls := Function.update sequencer.calls id call }

def add (token : String) (sequencer : Sequencer) : Sequencer :=
  { sequencer with resourceLocks := insert token sequencer.resourceLocks }

def delete (token : String) (sequencer : Sequencer) : Sequencer :=
  { sequencer with resourceLocks := sequencer.resourceLocks.erase token }

def setWaitList (token : String) (waitList : List Nat) (sequencer : Sequencer) : Sequencer :=
  { sequencer with resourceWaiters := Function.update sequencer.resourceWaiters token waitList }

/-- Takes tokens until one is locked. What an inherited property is set to is no list, so that
whoever waits for a token of such a name fails, and keeps the locks. -/
def acquire (id : Nat) (tokens : List String) :
    List String → List String → Sequencer → Sequencer
  | taken, [], sequencer => sequencer.put id (some ⟨tokens, taken, .running⟩)
  | taken, token :: rest, sequencer =>
    if token ∈ sequencer.resourceLocks then
      if token ∈ objectPrototype then sequencer.put id none
      else (sequencer.setWaitList token (sequencer.resourceWaiters token ++ [id])).put id
        (some ⟨tokens, taken, .waiting token rest⟩)
    else (sequencer.add token).acquire id tokens (taken ++ [token]) rest

def resolve (id : Nat) (sequencer : Sequencer) : Sequencer :=
  match sequencer.calls id with
  | some ⟨tokens, taken, .waiting token rest⟩ =>
    sequencer.put id (some ⟨tokens, taken, .woken token rest⟩)
  | _ => sequencer

def release : List String → Sequencer → Sequencer
  | [], sequencer => sequencer
  | token :: rest, sequencer =>
    if token ∈ objectPrototype then sequencer.delete token
    else match sequencer.resourceWaiters token with
      | [] => (sequencer.delete token).release rest
      | waiter :: waitList =>
        (((sequencer.delete token).setWaitList token waitList).resolve waiter).release rest

end Sequencer

inductive SequentialEvent where
  | begins (id : Nat) (tokens : List String)
  | resumes (id : Nat)
  /-- The function has returned, or it has thrown. -/
  | ends (id : Nat) (threw : Bool)

inductive SequencerStep : Sequencer → SequentialEvent → Sequencer → Prop where
  | begins {sequencer : Sequencer} {id : Nat} {tokens : List String} :
      sequencer.calls id = none →
      SequencerStep sequencer (.begins id tokens)
        (sequencer.acquire id (sortTokens tokens) [] (sortTokens tokens))
  | resumes {sequencer : Sequencer} {id : Nat} {tokens taken rest : List String} {token : String} :
      sequencer.calls id = some ⟨tokens, taken, .woken token rest⟩ →
      SequencerStep sequencer (.resumes id)
        ((sequencer.add token).acquire id tokens (taken ++ [token]) rest)
  | ends {sequencer : Sequencer} {id : Nat} {tokens taken : List String} {threw : Bool} :
      sequencer.calls id = some ⟨tokens, taken, .running⟩ →
      SequencerStep sequencer (.ends id threw) ((sequencer.put id none).release tokens)

namespace Sequencer

variable {sequencer seq next : Sequencer} {id : Nat} {token : String} {tokens taken rest : List String}

def Holds (sequencer : Sequencer) (id : Nat) (token : String) : Prop :=
  ∃ call, sequencer.calls id = some call ∧ token ∈ call.taken

def Waits (sequencer : Sequencer) (id : Nat) (token : String) : Prop :=
  ∃ tokens taken rest, sequencer.calls id = some ⟨tokens, taken, .waiting token rest⟩

def Woken (sequencer : Sequencer) (id : Nat) (token : String) : Prop :=
  ∃ tokens taken rest, sequencer.calls id = some ⟨tokens, taken, .woken token rest⟩

/-- The tokens that are free are not about to be taken by calls that were woken for them. -/
def Patient (sequencer : Sequencer) (rest : List String) : Prop :=
  ∀ token ∈ rest.takeWhile (· ∉ sequencer.resourceLocks), ∀ id, ¬ sequencer.Woken id token

/-- Tokens are not repeated and have names of their own, and no call overtakes one that was
woken. -/
def Mannerly (sequencer : Sequencer) : SequentialEvent → Prop
  | .begins _ tokens => tokens.Nodup ∧ (∀ token ∈ tokens, token ∉ objectPrototype) ∧
      sequencer.Patient (sortTokens tokens)
  | .resumes id => ∀ tokens taken token rest,
      sequencer.calls id = some ⟨tokens, taken, .woken token rest⟩ → sequencer.Patient rest
  | .ends _ _ => True

structure Sound (call : SequentialCall) : Prop where
  split : call.tokens = call.taken ++ call.stage.pending
  nodup : call.tokens.Nodup
  own : ∀ token ∈ call.tokens, token ∉ objectPrototype

/-- Nobody shares a token, and whoever waits is waited for. The tokens `leaving` belong to a call
that is ending. -/
structure Orderly (leaving : List String) (sequencer : Sequencer) : Prop where
  sound : ∀ id call, sequencer.calls id = some call → Sound call
  exclusive : ∀ first second token, sequencer.Holds first token → sequencer.Holds second token →
    first = second
  staying : ∀ id token, sequencer.Holds id token → token ∉ leaving
  locked : ∀ token, token ∈ sequencer.resourceLocks ↔
    token ∈ leaving ∨ ∃ id, sequencer.Holds id token
  queued : ∀ token id, id ∈ sequencer.resourceWaiters token ↔ sequencer.Waits id token
  once : ∀ token, (sequencer.resourceWaiters token).Nodup
  awaited : ∀ token id, sequencer.Waits id token →
    token ∈ leaving ∨ ∃ other, sequencer.Holds other token ∨ sequencer.Woken other token
  free : ∀ id token, sequencer.Woken id token → token ∉ sequencer.resourceLocks
  alone : ∀ first second token, sequencer.Woken first token → sequencer.Woken second token →
    first = second

section Puts

variable {other y : Nat} {wanted ask : String} {call : Option SequentialCall}

theorem holds_put : (seq.put id call).Holds other wanted ↔
    if other = id then ∃ held, call = some held ∧ wanted ∈ held.taken
    else seq.Holds other wanted := by
  unfold Holds put
  by_cases eq : other = id
  · subst eq
    simp
  · simp [eq]

theorem waits_put : (seq.put id call).Waits other wanted ↔
    if other = id then ∃ tokens taken rest, call = some ⟨tokens, taken, .waiting wanted rest⟩
    else seq.Waits other wanted := by
  unfold Waits put
  by_cases eq : other = id
  · subst eq
    simp
  · simp [eq]

theorem woken_put : (seq.put id call).Woken other wanted ↔
    if other = id then ∃ tokens taken rest, call = some ⟨tokens, taken, .woken wanted rest⟩
    else seq.Woken other wanted := by
  unfold Woken put
  by_cases eq : other = id
  · subst eq
    simp
  · simp [eq]

theorem calls_put : (seq.put id call).calls other =
    if other = id then call else seq.calls other := by
  unfold put
  by_cases eq : other = id
  · subst eq
    simp
  · simp [eq]

@[simp] theorem put_resourceLocks : (seq.put id call).resourceLocks = seq.resourceLocks :=
  rfl

theorem holds_of {held : SequentialCall} (h : seq.calls id = some held) :
    seq.Holds id ask ↔ ask ∈ held.taken := by simp [Holds, h]

theorem waits_of {stage : Stage} (h : seq.calls id = some ⟨tokens, taken, stage⟩) :
    seq.Waits id wanted ↔ ∃ rest, stage = .waiting wanted rest := by simp [Waits, h]

theorem woken_of {stage : Stage} (h : seq.calls id = some ⟨tokens, taken, stage⟩) :
    seq.Woken id wanted ↔ ∃ rest, stage = .woken wanted rest := by simp [Woken, h]

@[simp] theorem holds_add : (seq.add token).Holds other wanted ↔ seq.Holds other wanted := Iff.rfl

@[simp] theorem waits_add : (seq.add token).Waits other wanted ↔ seq.Waits other wanted := Iff.rfl

@[simp] theorem woken_add : (seq.add token).Woken other wanted ↔ seq.Woken other wanted := Iff.rfl

@[simp] theorem holds_delete : (seq.delete token).Holds other wanted ↔
    seq.Holds other wanted := Iff.rfl

@[simp] theorem waits_delete : (seq.delete token).Waits other wanted ↔
    seq.Waits other wanted := Iff.rfl

@[simp] theorem woken_delete : (seq.delete token).Woken other wanted ↔
    seq.Woken other wanted := Iff.rfl

@[simp] theorem holds_setWaitList (waitList : List Nat) :
    (seq.setWaitList token waitList).Holds other wanted ↔ seq.Holds other wanted := Iff.rfl

@[simp] theorem waits_setWaitList (waitList : List Nat) :
    (seq.setWaitList token waitList).Waits other wanted ↔ seq.Waits other wanted := Iff.rfl

@[simp] theorem woken_setWaitList (waitList : List Nat) :
    (seq.setWaitList token waitList).Woken other wanted ↔ seq.Woken other wanted := Iff.rfl

end Puts

variable {leaving : List String}

theorem Orderly.goesOn (orderly : seq.Orderly leaving)
    (sound : ∀ id call, next.calls id = some call → Sound call)
    (holds : ∀ id token, next.Holds id token ↔ seq.Holds id token)
    (waits : ∀ id token, next.Waits id token ↔ seq.Waits id token)
    (woken : ∀ id token, next.Woken id token ↔ seq.Woken id token)
    (locks : next.resourceLocks = seq.resourceLocks)
    (waiters : next.resourceWaiters = seq.resourceWaiters) : next.Orderly leaving := by
  refine ⟨sound, ?_, ?_, ?_, ?_, ?_, ?_, ?_, ?_⟩
  all_goals simp only [holds, waits, woken, locks, waiters]
  · exact orderly.exclusive
  · exact orderly.staying
  · exact orderly.locked
  · exact orderly.queued
  · exact orderly.once
  · exact orderly.awaited
  · exact orderly.free
  · exact orderly.alone

theorem Orderly.takes (orderly : seq.Orderly leaving)
    (sound : ∀ id call, next.calls id = some call → Sound call)
    (holds : ∀ other ask, next.Holds other ask ↔
      seq.Holds other ask ∨ (other = id ∧ ask = token))
    (waits : ∀ id token, next.Waits id token ↔ seq.Waits id token)
    (woken : ∀ other ask, next.Woken other ask ↔
      seq.Woken other ask ∧ ¬ (other = id ∧ ask = token))
    (locks : next.resourceLocks = insert token seq.resourceLocks)
    (waiters : next.resourceWaiters = seq.resourceWaiters) (unlocked : token ∉ seq.resourceLocks)
    (patient : ∀ other, seq.Woken other token → other = id) : next.Orderly leaving := by
  have untaken : ∀ other, ¬ seq.Holds other token :=
    fun other held => unlocked ((orderly.locked token).mpr (.inr ⟨other, held⟩))
  refine ⟨sound, ?_, ?_, ?_, ?_, ?_, ?_, ?_, ?_⟩
  all_goals simp only [holds, waits, woken, locks, waiters, Finset.mem_insert]
  · intro x y ask
    have eq := orderly.exclusive x y ask
    grind
  · intro other ask held
    have staying := orderly.staying other ask
    have locked := orderly.locked token
    grind
  · intro ask
    rw [orderly.locked ask]
    grind
  · exact orderly.queued
  · exact orderly.once
  · intro ask other waiting
    rcases orderly.awaited ask other waiting with leaves | ⟨holder, attends⟩
    · exact .inl leaves
    · grind
  · intro other ask
    have free := orderly.free other ask
    grind
  · intro x y ask one another
    exact orderly.alone x y ask one.1 another.1

theorem Orderly.queues (orderly : seq.Orderly leaving)
    (sound : ∀ id call, next.calls id = some call → Sound call)
    (holds : ∀ id token, next.Holds id token ↔ seq.Holds id token)
    (waits : ∀ y wanted, next.Waits y wanted ↔ seq.Waits y wanted ∨ (y = id ∧ wanted = token))
    (woken : ∀ id token, next.Woken id token ↔ seq.Woken id token)
    (locks : next.resourceLocks = seq.resourceLocks)
    (waiters : next.resourceWaiters = Function.update seq.resourceWaiters token
      (seq.resourceWaiters token ++ [id])) (locked : token ∈ seq.resourceLocks)
    (idle : ¬ seq.Waits id token) : next.Orderly leaving := by
  refine ⟨sound, ?_, ?_, ?_, ?_, ?_, ?_, ?_, ?_⟩
  all_goals simp only [holds, waits, woken, locks, waiters]
  · exact orderly.exclusive
  · exact orderly.staying
  · exact orderly.locked
  · intro wanted y
    have queued := orderly.queued wanted y
    by_cases eq : wanted = token
    · subst eq
      simp [queued]
    · simp [eq, queued]
  · intro wanted
    by_cases eq : wanted = token
    · subst eq
      have gone : id ∉ seq.resourceWaiters wanted :=
        fun has => idle ((orderly.queued wanted id).mp has)
      rw [Function.update_self]
      exact nodup_append.mpr ⟨orderly.once wanted, nodup_singleton id, by grind⟩
    · rw [Function.update_of_ne eq]
      exact orderly.once wanted
  · rintro wanted y (waiting | ⟨_, rfl⟩)
    · exact orderly.awaited wanted y waiting
    rcases (orderly.locked wanted).mp locked with leaves | ⟨holder, held⟩
    · exact .inl leaves
    · exact .inr ⟨holder, .inl held⟩
  · exact orderly.free
  · exact orderly.alone

theorem Orderly.ends (orderly : seq.Orderly [])
    (sound : ∀ id call, next.calls id = some call → Sound call)
    (held : ∀ ask, seq.Holds id ask ↔ ask ∈ tokens)
    (holds : ∀ other ask, next.Holds other ask ↔ seq.Holds other ask ∧ other ≠ id)
    (waits : ∀ id token, next.Waits id token ↔ seq.Waits id token)
    (woken : ∀ id token, next.Woken id token ↔ seq.Woken id token)
    (locks : next.resourceLocks = seq.resourceLocks)
    (waiters : next.resourceWaiters = seq.resourceWaiters) : next.Orderly tokens := by
  refine ⟨sound, ?_, ?_, ?_, ?_, ?_, ?_, ?_, ?_⟩
  all_goals simp only [holds, waits, woken, locks, waiters]
  · exact fun x y token one another => orderly.exclusive x y token one.1 another.1
  · intro other token stays ends
    exact stays.2 (orderly.exclusive other id token stays.1 ((held token).mpr ends))
  · intro ask
    rw [orderly.locked ask]
    grind
  · exact orderly.queued
  · exact orderly.once
  · intro ask other waiting
    have awaited := orderly.awaited ask other waiting
    grind
  · exact orderly.free
  · exact orderly.alone

theorem Orderly.releases (orderly : seq.Orderly (token :: rest)) (ne : token ∉ rest)
    (nobody : seq.resourceWaiters token = []) : (seq.delete token).Orderly rest := by
  refine ⟨orderly.sound, orderly.exclusive, ?_, ?_, orderly.queued, orderly.once, ?_, ?_,
    orderly.alone⟩
  · exact fun id ask held leaves => orderly.staying id ask held (.tail token leaves)
  · intro ask
    rw [delete, Finset.mem_erase, orderly.locked ask]
    have staying := fun id => orderly.staying id ask
    change _ ↔ ask ∈ rest ∨ ∃ id, seq.Holds id ask
    grind
  · intro ask id waiting
    have has := (orderly.queued ask id).mpr waiting
    rcases orderly.awaited ask id waiting with leaves | attended
    · rcases mem_cons.mp leaves with rfl | later
      · rw [nobody] at has
        cases has
      · exact .inl later
    · exact .inr attended
  · intro id ask woken locked
    exact orderly.free id ask woken (Finset.mem_of_mem_erase locked)

theorem Orderly.wakes {waiter : Nat} {waitList : List Nat}
    (orderly : seq.Orderly (token :: rest)) (ne : token ∉ rest)
    (queue : seq.resourceWaiters token = waiter :: waitList)
    (sound : ∀ id call, next.calls id = some call → Sound call)
    (holds : ∀ id token, next.Holds id token ↔ seq.Holds id token)
    (waits : ∀ other ask, next.Waits other ask ↔
      seq.Waits other ask ∧ ¬ (other = waiter ∧ ask = token))
    (woken : ∀ other ask, next.Woken other ask ↔
      seq.Woken other ask ∨ (other = waiter ∧ ask = token))
    (locks : next.resourceLocks = seq.resourceLocks.erase token) (waiters : next.resourceWaiters =
      Function.update seq.resourceWaiters token waitList) : next.Orderly rest := by
  have leaves : token ∈ seq.resourceLocks := (orderly.locked token).mpr (.inl mem_cons_self)
  have once := orderly.once token
  rw [queue] at once
  refine ⟨sound, ?_, ?_, ?_, ?_, ?_, ?_, ?_, ?_⟩
  all_goals simp only [holds, waits, woken, locks, waiters, Finset.mem_erase]
  · exact orderly.exclusive
  · exact fun id ask held leaves => orderly.staying id ask held (.tail token leaves)
  · intro ask
    rw [orderly.locked ask]
    have staying := fun id => orderly.staying id ask
    grind
  · intro ask other
    have queued := orderly.queued ask other
    by_cases eq : ask = token
    · subst eq
      grind
    · simp [eq, queued]
  · intro ask
    by_cases eq : ask = token
    · subst eq
      rw [Function.update_self]
      exact (nodup_cons.mp once).2
    · rw [Function.update_of_ne eq]
      exact orderly.once ask
  · rintro ask other ⟨waiting, _⟩
    by_cases eq : ask = token
    · exact .inr ⟨waiter, .inr (.inr ⟨rfl, eq⟩)⟩
    rcases orderly.awaited ask other waiting with leaves | ⟨holder, attends⟩
    · rcases mem_cons.mp leaves with now | later
      · exact absurd now eq
      · exact .inl later
    · grind
  · rintro id ask (pre | ⟨_, rfl⟩) ⟨ne, locked⟩
    · exact orderly.free id ask pre locked
    · exact ne rfl
  · have free := fun other => orderly.free other token
    have alone := orderly.alone
    rintro x y ask (one | ⟨rfl, rfl⟩) (another | ⟨eq, now⟩)
    · exact alone x y ask one another
    · subst now
      exact absurd leaves (free x one)
    · exact absurd leaves (free y another)
    · exact eq.symm

theorem mem_takeWhile_mono {Value : Type} {weak strong : Value → Bool} {v : Value}
    {values : List Value} (weaken : ∀ v, strong v = true → weak v = true)
    (mem : v ∈ values.takeWhile strong) : v ∈ values.takeWhile weak := by
  induction values with
  | nil => exact mem
  | cons head tail ih =>
    rw [takeWhile_cons] at mem ⊢
    split at mem
    · next holds =>
      rw [if_pos (weaken head holds)]
      rcases mem_cons.mp mem with eq | later
      · exact mem_cons.mpr (.inl eq)
      · exact mem_cons_of_mem head (ih later)
    · cases mem

/-- A call that moves tokens from those it is still to take to those it has taken. -/
theorem Orderly.moved (orderly : (seq.put id (some ⟨tokens, taken, .taking rest⟩)).Orderly leaving)
    {stage : Stage} {taken' : List String} (split : taken' ++ stage.pending = taken ++ rest)
    (y : Nat) (call : SequentialCall)
    (h : (seq.put id (some ⟨tokens, taken', stage⟩)).calls y = some call) : Sound call := by
  have own := orderly.sound id ⟨tokens, taken, .taking rest⟩ (by rw [calls_put, if_pos rfl])
  rw [calls_put] at h
  split at h
  · cases h
    exact ⟨own.split.trans split.symm, own.nodup, own.own⟩
  · next ne => exact orderly.sound y call (by rw [calls_put, if_neg ne]; exact h)

theorem acquire_orderly (orderly : (seq.put id (some ⟨tokens, taken, .taking rest⟩)).Orderly [])
    (patient : (seq.put id (some ⟨tokens, taken, .taking rest⟩)).Patient rest) :
    (seq.acquire id tokens taken rest).Orderly [] := by
  induction rest generalizing seq taken with
  | nil =>
    unfold acquire
    refine orderly.goesOn (orderly.moved rfl) ?_ ?_ ?_ rfl rfl
    · intro y ask
      simp [holds_put]
    · intro y ask
      simp [waits_put]
    · intro y ask
      simp [woken_put]
  | cons token rest ih =>
    unfold acquire
    by_cases locked : token ∈ seq.resourceLocks
    · have own := orderly.sound id ⟨tokens, taken, .taking (token :: rest)⟩
        (by rw [calls_put, if_pos rfl])
      have named : token ∉ objectPrototype := by
        apply own.own
        rw [own.split]
        simp [Stage.pending]
      rw [if_pos locked, if_neg named]
      refine orderly.queues (orderly.moved rfl) ?_ ?_ ?_ rfl rfl locked ?_
      · intro y ask
        simp [holds_put]
      · intro y ask
        by_cases eq : y = id
        · simp [waits_put, eq, eq_comm]
        · simp [waits_put, eq]
      · intro y ask
        simp [woken_put]
      · simp [waits_put]
    · rw [if_neg locked]
      have x : token ∈ (token :: rest).takeWhile (· ∉ seq.resourceLocks) := by
        rw [takeWhile_cons, if_pos (by simpa using locked)]
        exact mem_cons_self
      have split : taken ++ [token] ++ rest = taken ++ token :: rest := by simp
      have took : ((seq.add token).put id
          (some ⟨tokens, taken ++ [token], .taking rest⟩)).Orderly [] := by
        refine @Orderly.takes _ _ id token _ orderly (orderly.moved split) ?_ ?_ ?_ rfl rfl locked ?_
        · intro y ask
          by_cases eq : y = id
          · simp [holds_put, eq]
          · simp [holds_put, eq]
        · intro y ask
          simp [waits_put]
        · intro y ask
          by_cases eq : y = id
          · simp [woken_put, eq]
          · simp [woken_put, eq]
        · exact fun y woken => absurd woken (patient token x y)
      refine ih took ?_
      intro ask mem y woken
      refine patient ask ?_ y ?_
      · rw [put_resourceLocks, takeWhile_cons, if_pos (decide_eq_true locked)]
        refine mem_cons_of_mem token (mem_takeWhile_mono ?_ mem)
        intro v gone
        simp only [decide_eq_true_eq] at gone ⊢
        exact fun has => gone (Finset.mem_insert_of_mem has)
      · simpa [woken_put] using woken

structure Releases (token : String) (sequencer next : Sequencer) : Prop where
  locks : next.resourceLocks = sequencer.resourceLocks.erase token
  woken : ∀ id wanted, sequencer.Woken id wanted → next.Woken id wanted
  wakes : ∀ id, (sequencer.resourceWaiters token).head? = some id → next.Woken id token
  others : ∀ wanted, wanted ≠ token →
    next.resourceWaiters wanted = sequencer.resourceWaiters wanted

theorem Orderly.releasesFirst (orderly : sequencer.Orderly (token :: rest)) (ne : token ∉ rest)
    (own : token ∉ objectPrototype) :
    ∃ next, sequencer.release (token :: rest) = next.release rest ∧ next.Orderly rest ∧
      Releases token sequencer next := by
  conv => enter [1, next, 1]; rw [release, if_neg own]
  cases queue : sequencer.resourceWaiters token with
  | nil =>
    refine ⟨_, rfl, orderly.releases ne queue, rfl, fun _ _ woken => woken, ?_, fun _ _ => rfl⟩
    intro id x
    rw [queue] at x
    cases x
  | cons waiter waitList =>
    obtain ⟨tokens, taken, missing, waiting⟩ :=
      (orderly.queued token waiter).mp (by rw [queue]; exact mem_cons_self)
    have resolved : ((sequencer.delete token).setWaitList token waitList).resolve waiter =
        ((sequencer.delete token).setWaitList token waitList).put waiter
          (some ⟨tokens, taken, .woken token missing⟩) := by
      unfold resolve
      rw [show ((sequencer.delete token).setWaitList token waitList).calls waiter =
        some ⟨tokens, taken, .waiting token missing⟩ from waiting]
    have woken : ∀ y ask, ((sequencer.delete token).setWaitList token waitList |>.put waiter
          (some ⟨tokens, taken, .woken token missing⟩)).Woken y ask ↔
            sequencer.Woken y ask ∨ (y = waiter ∧ ask = token) := by
      intro y ask
      by_cases eq : y = waiter
      · simp [woken_put, eq, woken_of waiting, eq_comm]
      · simp [woken_put, eq]
    refine ⟨_, congrArg (release rest) resolved, ?_, rfl, ?_, ?_, ?_⟩
    · refine orderly.wakes ne queue ?_ ?_ ?_ woken rfl rfl
      · intro y call h
        rw [calls_put] at h
        split at h
        · cases h
          have pre := orderly.sound waiter _ waiting
          exact ⟨pre.split, pre.nodup, pre.own⟩
        · exact orderly.sound y call h
      · intro y ask
        by_cases eq : y = waiter
        · simp [holds_put, eq, holds_of waiting]
        · simp [holds_put, eq]
      · intro y ask
        by_cases eq : y = waiter
        · simp [waits_put, eq, waits_of waiting, eq_comm]
        · simp [waits_put, eq]
    · exact fun id ask pre => (woken id ask).mpr (.inl pre)
    · intro id x
      rw [queue] at x
      obtain rfl : waiter = id := Option.some.inj x
      exact (woken waiter token).mpr (.inr ⟨rfl, rfl⟩)
    · exact fun ask y => Function.update_of_ne y _ _

/-- The loop that releases the tokens of a call: each of them is free, and whoever waits first for
it is woken. -/
theorem release_orderly (orderly : seq.Orderly tokens) (nodup : tokens.Nodup)
    (own : ∀ token ∈ tokens, token ∉ objectPrototype) : (seq.release tokens).Orderly [] ∧
      (seq.release tokens).resourceLocks ⊆ seq.resourceLocks ∧
      (∀ id ask, seq.Woken id ask → (seq.release tokens).Woken id ask) ∧
      ∀ token ∈ tokens, token ∉ (seq.release tokens).resourceLocks ∧
        ∀ id, (seq.resourceWaiters token).head? = some id →
          (seq.release tokens).Woken id token := by
  induction tokens generalizing seq with
  | nil => exact ⟨orderly, fun _ mem => mem, fun _ _ woken => woken, nofun⟩
  | cons token rest ih =>
    obtain ⟨ne, nodup⟩ := nodup_cons.mp nodup
    obtain ⟨mid, eq, after, releases⟩ := orderly.releasesFirst ne (own token mem_cons_self)
    obtain ⟨finally_orderly, fewer, woken, freed⟩ := ih after nodup
      fun ask mem => own ask (mem_cons_of_mem token mem)
    rw [eq]
    have erased : mid.resourceLocks ⊆ seq.resourceLocks.erase token := by
      rw [releases.locks]
    refine ⟨finally_orderly, ?_, ?_, ?_⟩
    · exact fun ask mem => Finset.mem_of_mem_erase (erased (fewer mem))
    · exact fun id ask pre => woken id ask (releases.woken id ask pre)
    intro ask mem
    rcases mem_cons.mp mem with rfl | later
    · constructor
      · exact fun locked => Finset.notMem_erase ask _ (erased (fewer locked))
      · exact fun x waits => woken x ask (releases.wakes x waits)
    have y : ask ≠ token := by
      rintro rfl
      exact ne later
    rw [← releases.others ask y]
    exact freed ask later

theorem Orderly.ended (orderly : seq.Orderly [])
    (h : seq.calls id = some ⟨tokens, taken, .running⟩) : (seq.put id none).Orderly tokens := by
  have all : tokens = taken := (orderly.sound id _ h).split.trans (by simp [Stage.pending])
  refine @Orderly.ends _ _ id _ orderly ?_ ?_ ?_ ?_ ?_ rfl rfl
  · intro y call has
    rw [calls_put] at has
    split at has
    · cases has
    · exact orderly.sound y call has
  · intro ask
    rw [holds_of h, all]
  · intro y ask
    by_cases eq : y = id
    · simp [holds_put, eq]
    · simp [holds_put, eq]
  · intro y ask
    by_cases eq : y = id
    · simp [waits_put, eq, waits_of h]
    · simp [waits_put, eq]
  intro y ask
  by_cases eq : y = id
  · simp [woken_put, eq, woken_of h]
  · simp [woken_put, eq]

theorem step_orderly {ev : SequentialEvent} (orderly : seq.Orderly [])
    (mannerly : seq.Mannerly ev) (step : SequencerStep seq ev next) :
    next.Orderly [] := by
  cases step with
  | @begins id tokens fresh =>
    obtain ⟨nodup, own, patient⟩ := mannerly
    have perm := sortTokens_perm tokens
    have gone : ∀ wanted, ¬ seq.Holds id wanted ∧ ¬ seq.Waits id wanted ∧
        ¬ seq.Woken id wanted := by
      simp [Holds, Waits, Woken, fresh]
    refine acquire_orderly (orderly.goesOn ?_ ?_ ?_ ?_ rfl rfl) ?_
    · intro y call h
      rw [calls_put] at h
      split at h
      · cases h
        exact ⟨rfl, perm.nodup_iff.mpr nodup, fun token mem => own token (perm.mem_iff.mp mem)⟩
      · exact orderly.sound y call h
    · intro y wanted
      by_cases eq : y = id
      · simp [holds_put, eq, gone]
      · simp [holds_put, eq]
    · intro y wanted
      by_cases eq : y = id
      · simp [waits_put, eq, gone]
      · simp [waits_put, eq]
    · intro y wanted
      by_cases eq : y = id
      · simp [woken_put, eq, gone]
      · simp [woken_put, eq]
    intro token mem y woken
    rw [woken_put] at woken
    split at woken
    · obtain ⟨_, _, _, other_stage⟩ := woken
      cases other_stage
    · exact patient token mem y woken
  | @resumes id tokens taken rest token h =>
    have sound := orderly.sound id _ h
    have woken : seq.Woken id token := ⟨tokens, taken, rest, h⟩
    have unlocked := orderly.free id token woken
    have split : tokens = taken ++ [token] ++ rest := sound.split.trans (by simp [Stage.pending])
    refine acquire_orderly (@Orderly.takes _ _ id token _ orderly ?_ ?_ ?_ ?_ rfl rfl unlocked ?_) ?_
    · intro y call has
      rw [calls_put] at has
      split at has
      · cases has
        exact ⟨split, sound.nodup, sound.own⟩
      · exact orderly.sound y call has
    · intro y wanted
      by_cases eq : y = id
      · simp [holds_put, eq, holds_of h]
      · simp [holds_put, eq]
    · intro y wanted
      by_cases eq : y = id
      · simp [waits_put, eq, waits_of h]
      · simp [waits_put, eq]
    · intro y wanted
      by_cases eq : y = id
      · simp [woken_put, eq, woken_of h, eq_comm]
      · simp [woken_put, eq]
    · exact fun y again => orderly.alone y id token again woken
    intro wanted mem y again
    rw [woken_put] at again
    split at again
    · obtain ⟨_, _, _, other_stage⟩ := again
      cases other_stage
    refine mannerly tokens taken token rest h wanted ?_ y again
    refine mem_takeWhile_mono ?_ mem
    intro v gone
    simp only [decide_eq_true_eq] at gone ⊢
    exact fun has => gone (Finset.mem_insert_of_mem has)
  | ends h =>
    have sound := orderly.sound _ _ h
    exact (release_orderly (orderly.ended h) sound.nodup sound.own).1

theorem start_orderly : start.Orderly [] := by
  constructor <;> simp [start, Holds, Waits, Woken]

def Runs (sequencer : Sequencer) (id : Nat) (token : String) : Prop :=
  ∃ tokens taken, sequencer.calls id = some ⟨tokens, taken, .running⟩ ∧ token ∈ tokens

/-- No two functions that share a token run at the same time, tokens are locked by calls that have
taken them and not ended, and whoever waits does so for another call that has taken the token or
was woken for it. -/
structure Sequential (sequencer : Sequencer) : Prop where
  exclusive : ∀ first second token, sequencer.Runs first token → sequencer.Runs second token →
    first = second
  released : ∀ token ∈ sequencer.resourceLocks, ∃ id call,
    sequencer.calls id = some call ∧ token ∈ call.tokens ∧ token ∈ call.taken
  waits : ∀ id token, sequencer.Waits id token → ∃ other, other ≠ id ∧
    (sequencer.Holds other token ∨ sequencer.Woken other token)

theorem Orderly.runs (orderly : seq.Orderly []) (runs : seq.Runs id token) :
    seq.Holds id token := by
  obtain ⟨tokens, taken, h, mem⟩ := runs
  have all : tokens = taken := (orderly.sound id _ h).split.trans (by simp [Stage.pending])
  exact ⟨_, h, all ▸ mem⟩

theorem Orderly.sequential (orderly : seq.Orderly []) : seq.Sequential where
  exclusive first second token one another :=
    orderly.exclusive first second token (orderly.runs one) (orderly.runs another)
  released token locked := by
    rcases (orderly.locked token).mp locked with leaves | ⟨id, call, h, taken⟩
    · cases leaves
    refine ⟨id, call, h, ?_, taken⟩
    rw [(orderly.sound id call h).split]
    exact mem_append_left _ taken
  waits id token waiting := by
    rcases orderly.awaited token id waiting with leaves | ⟨y, attends⟩
    · cases leaves
    refine ⟨y, ?_, attends⟩
    rintro rfl
    obtain ⟨tokens, taken, rest, h⟩ := waiting
    have sound := orderly.sound y _ h
    rcases attends with held | woken
    · have split : tokens = taken ++ token :: rest := sound.split
      have nodup : (taken ++ token :: rest).Nodup := split ▸ sound.nodup
      have apart := (nodup_append.mp nodup).2.2
      exact apart token ((holds_of h).mp held) token mem_cons_self rfl
    · obtain ⟨_, other_stage⟩ := (woken_of h).mp woken
      cases other_stage

/-- In every run of mannerly steps calls exclude each other, and when a function ends in any way,
its tokens are free and those who wait first for them are woken. -/
theorem sequentialized_exclusive {events : List SequentialEvent}
    (run : Run (Guarded Mannerly SequencerStep) start events sequencer) :
    sequencer.Sequential ∧ ∀ id call threw next, SequencerStep sequencer (.ends id threw) next →
      sequencer.calls id = some call → ∀ token ∈ call.tokens, token ∉ next.resourceLocks ∧ ∀ first,
          (sequencer.resourceWaiters token).head? = some first → next.Woken first token := by
  have orderly : sequencer.Orderly [] :=
    run.invariant (fun sequencer => sequencer.Orderly []) start_orderly
      fun _ _ _ orderly guarded => step_orderly orderly guarded.1 guarded.2
  refine ⟨orderly.sequential, ?_⟩
  intro id call threw next step running token member
  cases step with
  | ends found =>
    cases Option.some.inj (running.symm.trans found)
    have sound := orderly.sound id _ found
    exact (release_orderly (orderly.ended found) sound.nodup sound.own).2.2.2 token member

def exchangeCoinsLock : String := "exchange-coins-lock"

def oneRuns : Sequencer := start.acquire 0 [exchangeCoinsLock] [] [exchangeCoinsLock]

def oneWaits : Sequencer := oneRuns.acquire 1 [exchangeCoinsLock] [] [exchangeCoinsLock]

def oneEnded : Sequencer := (oneWaits.put 0 none).release [exchangeCoinsLock]

theorem oneEnded_run : Run SequencerStep start
    [.begins 0 [exchangeCoinsLock], .begins 1 [exchangeCoinsLock], .ends 0 false] oneEnded := by
  have x : SequencerStep start (.begins 0 [exchangeCoinsLock]) oneRuns := .begins rfl
  have y : SequencerStep oneRuns (.begins 1 [exchangeCoinsLock]) oneWaits := .begins rfl
  have third : SequencerStep oneWaits (.ends 0 false) oneEnded :=
    .ends (show oneWaits.calls 0 = some ⟨[exchangeCoinsLock], [exchangeCoinsLock], .running⟩ from rfl)
  exact ((Run.start.next x).next y).next third

theorem oneWaits_mannerly : Run (Guarded Mannerly SequencerStep) start
      [.begins 0 [exchangeCoinsLock], .begins 1 [exchangeCoinsLock]] oneWaits := by
  have named : ∀ token ∈ [exchangeCoinsLock], token ∉ objectPrototype := by decide
  have x : start.Mannerly (.begins 0 [exchangeCoinsLock]) := by
    refine ⟨nodup_singleton _, named, ?_⟩
    rintro token _ id ⟨_, _, _, woken⟩
    cases woken
  have y : oneRuns.Mannerly (.begins 1 [exchangeCoinsLock]) := by
    refine ⟨nodup_singleton _, named, ?_⟩
    rintro token _ id ⟨_, _, _, woken⟩
    have calls : oneRuns.calls id =
        if id = 0 then some ⟨[exchangeCoinsLock], [exchangeCoinsLock], .running⟩ else none :=
      calls_put
    rw [calls] at woken
    split at woken <;> cases woken
  exact (Run.start.next ⟨x, .begins rfl⟩).next ⟨y, .begins rfl⟩

theorem sequentialized_exclusive_two : oneWaits.Sequential ∧
    exchangeCoinsLock ∉ oneEnded.resourceLocks ∧ oneEnded.Woken 1 exchangeCoinsLock := by
  have released := sequentialized_exclusive oneWaits_mannerly
  have passes := released.2 0 ⟨[exchangeCoinsLock], [exchangeCoinsLock], .running⟩ false oneEnded
    (.ends rfl) rfl exchangeCoinsLock (mem_singleton_self _)
  exact ⟨released.1, passes.1, passes.2 1 rfl⟩

/-- A call arrives before the one that was woken goes on, and both functions run. -/
def overtaken : Sequencer := oneEnded.acquire 2 [exchangeCoinsLock] [] [exchangeCoinsLock]

def bothRun : Sequencer :=
  (overtaken.add exchangeCoinsLock).acquire 1 [exchangeCoinsLock] [exchangeCoinsLock] []

theorem sequentialized_overlaps : (∃ events, Run SequencerStep start events bothRun ∧
      bothRun.Runs 1 exchangeCoinsLock ∧ bothRun.Runs 2 exchangeCoinsLock) ∧
    (∃ stuck, SequencerStep start (.begins 0 ["a", "a"]) stuck ∧
      stuck.Waits 0 "a" ∧ ∀ other, other ≠ 0 → stuck.calls other = none) ∧
    ∃ running ended, SequencerStep start (.begins 0 ["constructor", "x"]) running ∧
      SequencerStep running (.ends 0 false) ended ∧ "x" ∈ ended.resourceLocks ∧
      ∀ id, ended.calls id = none := by
  have overtakes : SequencerStep oneEnded (.begins 2 [exchangeCoinsLock]) overtaken := .begins rfl
  have goesOn : SequencerStep overtaken (.resumes 1) bothRun :=
    .resumes (show overtaken.calls 1 = some ⟨[exchangeCoinsLock], [], .woken exchangeCoinsLock []⟩
      from rfl)
  have token : exchangeCoinsLock ∈ [exchangeCoinsLock] := mem_singleton_self _
  refine ⟨⟨_, (oneEnded_run.next overtakes).next goesOn, ⟨_, _, rfl, token⟩, ⟨_, _, rfl, token⟩⟩,
    ⟨_, .begins rfl, ⟨_, _, _, rfl⟩, ?_⟩, _, _, .begins rfl, .ends rfl, ?_, ?_⟩
  · intro other different
    exact Function.update_of_ne different _ _
  · decide
  · intro id
    by_cases same : id = 0
    · subst same
      rfl
    · exact (Function.update_of_ne same _ _).trans (Function.update_of_ne same _ _)

end Sequencer

end Anastasis.Wallet
