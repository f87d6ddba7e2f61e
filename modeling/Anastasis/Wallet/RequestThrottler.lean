import Anastasis.Library.Record
import Anastasis.Library.TokenBucket
import Mathlib.Data.Rat.Cast.Order
import Mathlib.Tactic.NormNum

/-! The throttling of requests to each origin, in exact arithmetic. -/

set_option autoImplicit false

namespace Anastasis.Wallet

open Library Library.TokenBucket List

inductive Limit where
  | second
  | minute
  | hour

def Limit.max : Limit → ℚ
  | .second => 100
  | .minute => 500
  | .hour => 2000

/-- In milliseconds, as all times. -/
def Limit.period : Limit → ℚ
  | .second => 1000
  | .minute => 1000 * 60
  | .hour => 1000 * 60 * 60

structure OriginState where
  tokens : Limit → ℚ
  lastUpdate : ℚ

namespace OriginState

def init (now : ℚ) : OriginState := ⟨Limit.max, now⟩

def refill (state : OriginState) (now : ℚ) : OriginState :=
  -- did the system time change?
  if now < state.lastUpdate then { state with lastUpdate := now }
  else
    let d := now - state.lastUpdate
    { tokens := fun
        | .second => min Limit.second.max (state.tokens .second + d / 1000)
        | .minute => min Limit.minute.max (state.tokens .minute + d / 1000 / 60)
        | .hour => min Limit.hour.max (state.tokens .hour + d / 1000 / 60 / 60)
      lastUpdate := now }

/-- Whether the request should be throttled. Otherwise, a token is taken out of each bucket. -/
def applyThrottle (state : OriginState) (now : ℚ) : Bool × OriginState :=
  let state := state.refill now
  if state.tokens .second < 1 then (true, state)
  else if state.tokens .minute < 1 then (true, state)
  else if state.tokens .hour < 1 then (true, state)
  else (false, { state with tokens := fun limit => state.tokens limit - 1 })

end OriginState

structure ThrottledRequest where
  origin : String
  time : ℚ

/-- The throttler, and the requests so far with whether they were let through. -/
structure RequestThrottler where
  perOriginInfo : Record String OriginState
  answered : List (ThrottledRequest × Bool)

namespace RequestThrottler

def getState (throttler : RequestThrottler) (origin : String) (now : ℚ) : OriginState :=
  (throttler.perOriginInfo.get? origin).getD (.init now)

def applyThrottle (throttler : RequestThrottler) (request : ThrottledRequest) :
    RequestThrottler :=
  let (throttled, state) :=
    (throttler.getState request.origin request.time).applyThrottle request.time
  { perOriginInfo := throttler.perOriginInfo.set request.origin state
    answered := throttler.answered ++ [(request, !throttled)] }

def run (requests : List ThrottledRequest) : RequestThrottler :=
  requests.foldl applyThrottle ⟨.empty, []⟩

/-- The answers to one client. -/
def answers (throttler : RequestThrottler) (origin : String) : List (ℚ × Bool) :=
  (throttler.answered.filter fun answer => answer.1.origin = origin).map fun answer =>
    (answer.1.time, answer.2)

end RequestThrottler

/-! ## What is promised -/

/-- A client stays within the limits in every period. -/
def Within (times : List ℚ) : Prop :=
  ∀ limit : Limit, ∀ opens, (times.countP fun time => opens ≤ time ∧ time < opens + limit.period : ℚ)
    ≤ limit.max

section Client

variable {times : List ℚ} {answers : List (ℚ × Bool)} {state : OriginState} {start now : ℚ}

/-- The buckets of a client after its answers. -/
structure Mirrors (start : ℚ) (answers : List (ℚ × Bool)) (state : OriginState) : Prop where
  tokens : ∀ limit : Limit,
    state.tokens limit = (TokenBucket.run limit.max limit.period start answers).level
  lastUpdate : ∀ limit : Limit,
    state.lastUpdate = (TokenBucket.run limit.max limit.period start answers).time
  solvent : ∀ limit : Limit, 0 ≤ state.tokens limit

theorem period_pos (cap : Limit) : 0 < cap.period := by
  cases cap <;> norm_num [Limit.period]

theorem Mirrors.init (start : ℚ) : Mirrors start [] (.init start) := by
  refine ⟨fun _ => rfl, fun _ => rfl, ?_⟩
  intro cap
  cases cap <;> norm_num [OriginState.init, Limit.max]

theorem Mirrors.refill (mirrors : Mirrors start answers state) (later : state.lastUpdate ≤ now) :
    (state.refill now).lastUpdate = now ∧ ∀ cap : Limit, (state.refill now).tokens cap =
      (TokenBucket.run cap.max cap.period start answers).refilled cap.max cap.period now := by
  rw [OriginState.refill, if_neg (not_lt.mpr later)]
  refine ⟨rfl, ?_⟩
  intro cap
  rw [Bucket.refilled, ← mirrors.tokens cap, ← mirrors.lastUpdate cap]
  cases cap with
  | second => rfl
  | minute => simp only [Limit.period, div_div]
  | hour => simp only [Limit.period, div_div]

/-- A request is throttled when one of the buckets has no token for it. -/
theorem applyThrottle_cases (state : OriginState) (now : ℚ) :
    ((∃ cap, (state.refill now).tokens cap < 1) ∧
        state.applyThrottle now = (true, state.refill now)) ∨
      ((∀ cap, 1 ≤ (state.refill now).tokens cap) ∧ state.applyThrottle now =
        (false, { state.refill now with
          tokens := fun cap => (state.refill now).tokens cap - 1 })) := by
  unfold OriginState.applyThrottle
  dsimp only
  split
  next empty => exact .inl ⟨⟨_, empty⟩, rfl⟩
  next second =>
    split
    next empty => exact .inl ⟨⟨_, empty⟩, rfl⟩
    next minute =>
      split
      next empty => exact .inl ⟨⟨_, empty⟩, rfl⟩
      next hour =>
        refine .inr ⟨?_, rfl⟩
        intro cap
        cases cap with
        | second => exact not_lt.mp second
        | minute => exact not_lt.mp minute
        | hour => exact not_lt.mp hour

theorem Mirrors.step (mirrors : Mirrors start answers state) (later : state.lastUpdate ≤ now) :
    Mirrors start (answers ++ [(now, !(state.applyThrottle now).1)])
      (state.applyThrottle now).2 := by
  obtain ⟨updated, refilled⟩ := mirrors.refill later
  have capacity : ∀ limit : Limit, 0 ≤ (state.refill now).tokens limit := by
    intro limit
    rw [refilled, Bucket.refilled, ← mirrors.tokens, ← mirrors.lastUpdate]
    apply le_min
    · cases limit <;> norm_num [Limit.max]
    · exact add_nonneg (mirrors.solvent limit)
        (div_nonneg (sub_nonneg.mpr later) (period_pos limit).le)
  cases applyThrottle_cases state now with
  | inl throttled =>
    rw [throttled.2]
    constructor
    · intro limit
      rw [run_append, Bucket.serve]
      rw [refilled]
      simp
    · intro limit
      rw [run_append]
      exact updated
    · exact capacity
  | inr through =>
    rw [through.2]
    constructor
    · intro limit
      rw [run_append, Bucket.serve]
      dsimp only
      rw [refilled]
      simp
    · intro limit
      rw [run_append]
      exact updated
    · exact fun limit => sub_nonneg.mpr (through.1 limit)

theorem Within.before {earlier later : List ℚ} (within : Within (earlier ++ later)) :
    Within earlier := by
  intro cap opens
  have all := within cap opens
  rw [countP_append, Nat.cast_add] at all
  exact le_trans (le_add_of_nonneg_right (Nat.cast_nonneg _)) all

theorem all_through (through : ∀ ans ∈ answers, ans.2 = true) :
    answers = (answers.map Prod.fst).map fun time => (time, true) := by
  rw [List.map_map]
  apply (List.map_id answers).symm.trans
  apply map_congr_left
  intro ans mem
  exact Prod.ext rfl (through ans mem)

/-- When all requests have been let through, the buckets tell how close together they are. -/
theorem level_through_iff {old : List ℚ} (st : (old ++ [now]).head? = some start)
    (cap : Limit) : 0 ≤ (TokenBucket.run cap.max cap.period start
        ((old ++ [now]).map fun time => (time, true))).level ↔
      ∀ pre time after, old ++ [now] = pre ++ time :: after →
        (after.length + 1 : ℚ) ≤ cap.max + (now - time) / cap.period := by
  have isTime : (TokenBucket.run cap.max cap.period start
      ((old ++ [now]).map fun time => (time, true))).time = now := by
    rw [map_append]
    exact congrArg Bucket.time (run_append _)
  have count : ∀ (time : ℚ) (after : List ℚ),
      (passed ((time, true) :: after.map fun time => (time, true)) : ℚ) = after.length + 1 := by
    simp [passed, countP_map, Function.comp_def]
  rw [le_level_iff (by simp) _ (period_pos cap), isTime]
  · constructor
    · intro stretches pre time after split
      have stretch := stretches (pre.map fun time => (time, true)) time true
        (after.map fun time => (time, true)) (by rw [split]; simp)
      rw [zero_add, count] at stretch
      exact stretch
    intro stretches pre time through after split
    obtain ⟨before', rest, isAll, rfl, isRest⟩ := map_eq_append_iff.mp split
    obtain ⟨time', after', rfl, isTime', rfl⟩ := map_eq_cons_iff.mp isRest
    cases isTime'
    have stretch := stretches before' time after' isAll
    rw [zero_add, count]
    exact stretch
  · intro request isHead
    rw [head?_map, st] at isHead
    cases isHead
    exact le_refl _

/-- A client with its answers, when it makes another request. -/
def serve (client : Option OriginState × List (ℚ × Bool)) (now : ℚ) :
    Option OriginState × List (ℚ × Bool) :=
  let (throttled, state) := (client.1.getD (.init now)).applyThrottle now
  (some state, client.2 ++ [(now, !throttled)])

structure Served (times : List ℚ) (client : Option OriginState × List (ℚ × Bool)) : Prop where
  answered : client.2.map Prod.fst = times
  unknown : times = [] → client.1 = none
  known : ∀ start, times.head? = some start → ∃ state, client.1 = some state ∧
    Mirrors start client.2 state
  solvent : ∀ start, times.head? = some start → ∀ limit : Limit, ∀ before after,
    client.2 = before ++ after →
      0 ≤ (TokenBucket.run limit.max limit.period start before).level

variable {client : Option OriginState × List (ℚ × Bool)}

theorem Served.nothing : Served [] (none, []) := by
  constructor
  · rfl
  · exact fun _ => rfl
  · exact fun _ isHead => by cases isHead
  · exact fun _ isHead => by cases isHead

/-- The state in which a request finds its origin. -/
theorem Served.found (served : Served times client) (sorted : (times ++ [now]).Pairwise (· ≤ ·))
    (st : (times ++ [now]).head? = some start) :
    Mirrors start client.2 (client.1.getD (.init now)) ∧
      (client.1.getD (.init now)).lastUpdate ≤ now := by
  cases times with
  | nil =>
    cases st
    rw [served.unknown rfl, map_eq_nil_iff.mp served.answered]
    exact ⟨.init _, le_refl _⟩
  | cons x rest =>
    cases st
    obtain ⟨state, isState, mirrors⟩ := served.known start rfl
    rw [isState, Option.getD_some]
    refine ⟨mirrors, ?_⟩
    have isTimes := served.answered
    rw [mirrors.lastUpdate .second]
    cases eq_nil_or_concat client.2 with
    | inl none =>
      rw [none] at isTimes
      cases isTimes
    | inr some =>
      obtain ⟨old, last, isLast⟩ := some
      rw [concat_eq_append] at isLast
      rw [isLast, run_append]
      apply (pairwise_append.mp sorted).2.2 last.1 _ now mem_cons_self
      rw [← isTimes, isLast, map_append]
      exact mem_append_right _ mem_cons_self

theorem Served.step (served : Served times client)
    (sorted : (times ++ [now]).Pairwise (· ≤ ·)) : Served (times ++ [now]) (serve client now) := by
  constructor
  · rw [serve, map_append, served.answered]
    rfl
  · intro empty
    cases append_eq_nil_iff.mp empty |>.2
  · intro start st
    obtain ⟨mirrors, later⟩ := served.found sorted st
    exact ⟨_, rfl, mirrors.step later⟩
  intro start st cap pre after split
  obtain ⟨mirrors, later⟩ := served.found sorted st
  cases after using List.reverseRecOn with
  | nil =>
    rw [append_nil] at split
    rw [← split, serve, ← (mirrors.step later).tokens cap]
    exact (mirrors.step later).solvent cap
  | append_singleton rest last _ =>
    rw [← append_assoc] at split
    have isEarlier := (append_inj' split rfl).1
    cases times with
    | nil =>
      rw [map_eq_nil_iff.mp served.answered] at isEarlier
      rw [(append_eq_nil_iff.mp isEarlier.symm).1]
      cases cap <;> norm_num [TokenBucket.run, Limit.max]
    | cons x ys =>
      cases st
      exact served.solvent start rfl cap pre rest isEarlier

theorem served (sorted : times.Pairwise (· ≤ ·)) : Served times (times.foldl serve (none, [])) := by
  induction times using List.reverseRecOn with
  | nil => exact .nothing
  | append_singleton old now ih =>
    rw [foldl_append]
    exact (ih (pairwise_append.mp sorted).1).step sorted

theorem Served.bounded (served : Served times client) (sorted : times.Pairwise (· ≤ ·))
    (cap : Limit) (opens : ℚ) : (client.2.countP fun ans =>
      ans.2 ∧ opens ≤ ans.1 ∧ ans.1 ≤ opens + cap.period : ℚ) ≤ 2 * cap.max := by
  have capacity : 1 ≤ cap.max := by cases cap <;> norm_num [Limit.max]
  cases times with
  | nil =>
    rw [map_eq_nil_iff.mp served.answered, countP_nil, Nat.cast_zero]
    linarith
  | cons start rest =>
    have starts : ∀ ans, client.2.head? = some ans → start ≤ ans.1 := by
      intro ans isHead
      have eq := congrArg List.head? served.answered
      rw [head?_map, isHead] at eq
      cases eq
      exact le_refl _
    have window : opens ≤ opens + cap.period := le_add_of_nonneg_right (period_pos cap).le
    have bound := passed_window starts (period_pos cap) (served.answered.symm ▸ sorted)
      (served.solvent start rfl cap) window
    rw [add_sub_cancel_left, div_self (period_pos cap).ne'] at bound
    linarith

theorem Served.through (served : Served times client)
    (sorted : (times ++ [now]).Pairwise (· ≤ ·)) (passed : ∀ ans ∈ client.2, ans.2 = true)
    (close : ∀ cap : Limit, ∀ pre time after, times ++ [now] = pre ++ time :: after →
      (after.length + 1 : ℚ) ≤ cap.max + (now - time) / cap.period) :
    ((client.1.getD (.init now)).applyThrottle now).1 = false := by
  obtain ⟨start, st⟩ : ∃ start, (times ++ [now]).head? = some start :=
    Option.isSome_iff_exists.mp (by simp)
  obtain ⟨mirrors, later⟩ := served.found sorted st
  cases applyThrottle_cases (client.1.getD (.init now)) now with
  | inr through => rw [through.2]
  | inl throttled =>
    obtain ⟨cap, empty⟩ := throttled.1
    have level := (level_through_iff st cap).mpr (close cap)
    rw [map_append, ← served.answered, ← all_through passed] at level
    change 0 ≤ (TokenBucket.run cap.max cap.period start (client.2 ++ [(now, true)])).level
      at level
    rw [run_append, Bucket.serve, ← (mirrors.refill later).2 cap] at level
    simp only [if_true, sub_nonneg] at level
    exact absurd empty (not_lt.mpr level)

end Client

/-! ## All clients -/

section Examples

end Examples

end Anastasis.Wallet
