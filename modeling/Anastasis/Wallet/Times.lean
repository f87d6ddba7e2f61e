import Anastasis.Wallet.Denominations
import Anastasis.Wallet.Database
import Mathlib

/-! Timestamps and durations with their infinite elements, and the time of the next check for
coins to be refreshed. -/

set_option autoImplicit false

namespace Anastasis.Wallet

open List

inductive Duration where
  | ms (milliseconds : Nat)
  | forever
deriving DecidableEq

def timestampMin : Timestamp → Timestamp → Timestamp
  | .never, t2 => t2
  | .at _, .never => .never
  | .at t1, .at t2 => .at (min t1 t2)

def timestampMax : Timestamp → Timestamp → Timestamp
  | .never, _ => .never
  | .at _, .never => .never
  | .at t1, .at t2 => .at (max t1 t2)

def durationMin : Duration → Duration → Duration
  | .forever, d2 => d2
  | .ms _, .forever => .forever
  | .ms d1, .ms d2 => .ms (min d1 d2)

def durationMax : Duration → Duration → Duration
  | .forever, _ => .forever
  | .ms _, .forever => .forever
  | .ms d1, .ms d2 => .ms (max d1 d2)

def timestampAddDuration : Timestamp → Duration → Timestamp
  | .never, _ => .never
  | .at _, .forever => .never
  | .at t1, .ms d => .at (t1 + d)

/-- The time until a deadline; a current time that never comes is refused. -/
def getDurationRemaining : Timestamp → Timestamp → Option Duration
  | .never, _ => some .forever
  | .at _, .never => none
  | .at deadline, .at now => some (.ms (if deadline < now then 0 else deadline - now))

def timestampDifference : Timestamp → Timestamp → Duration
  | .at t1, .at t2 => .ms (Int.natAbs (t1 - t2))
  | _, _ => .forever

/-- A duration times a number of quarters, rounded to the nearest millisecond. -/
def durationMul : Duration → Nat → Duration
  | .forever, _ => .forever
  | .ms d, quarters => .ms ((quarters * d + 2) / 4)

/-! ## The next check for coins to be refreshed -/

structure RefreshDenom where
  stampExpireWithdraw : Timestamp
  stampExpireDeposit : Timestamp

structure RefreshCandidate where
  coinPub : String
  exchangeBaseUrl : String
  denomPubHash : String
  status : CoinStatus
  suspended : Bool

def getAutoRefreshCheckThreshold (d : RefreshDenom) : Timestamp :=
  let delta := timestampDifference d.stampExpireWithdraw d.stampExpireDeposit
  timestampAddDuration d.stampExpireWithdraw (durationMul delta 3)

def getAutoRefreshExecuteThreshold (d : RefreshDenom) : Timestamp :=
  let delta := timestampDifference d.stampExpireWithdraw d.stampExpireDeposit
  timestampAddDuration d.stampExpireWithdraw (durationMul delta 2)

def isTimestampExpired (now : Nat) (t : Timestamp) : Bool := Timestamp.cmp t (.at now) ≠ .gt

structure RefreshWorld where
  now : Nat
  coins : List RefreshCandidate
  denominations : String → String → Option RefreshDenom

/-- The loop over the coins of the exchange. -/
def checkCoins (world : RefreshWorld) (exchangeBaseUrl : String) : List RefreshCandidate →
    List RefreshCandidate → Timestamp → List RefreshCandidate × Timestamp
  | [], refreshCoins, minCheckThreshold => (refreshCoins, minCheckThreshold)
  | coin :: rest, refreshCoins, minCheckThreshold =>
    if coin.status ≠ .fresh then checkCoins world exchangeBaseUrl rest refreshCoins minCheckThreshold
    else if coin.suspended then
      checkCoins world exchangeBaseUrl rest refreshCoins minCheckThreshold
    else
      match world.denominations exchangeBaseUrl coin.denomPubHash with
      | none => checkCoins world exchangeBaseUrl rest refreshCoins minCheckThreshold
      | some denom =>
        if isTimestampExpired world.now (getAutoRefreshExecuteThreshold denom) then
          checkCoins world exchangeBaseUrl rest (refreshCoins ++ [coin]) minCheckThreshold
        else
          checkCoins world exchangeBaseUrl rest refreshCoins
            (timestampMin minCheckThreshold (getAutoRefreshCheckThreshold denom))

def days (count : Nat) : Duration := .ms (count * (24 * 60 * 60 * 1000))

/-- The coins to be refreshed, and the time of the next check. -/
def autoRefresh (world : RefreshWorld) (exchangeBaseUrl : String) :
    List RefreshCandidate × Timestamp :=
  checkCoins world exchangeBaseUrl
    (world.coins.filter fun coin => coin.exchangeBaseUrl = exchangeBaseUrl) []
    (timestampAddDuration (.at world.now) (days 1))

/-! ## The order -/

def Timestamp.value : Timestamp → WithTop Nat
  | .at t => WithTop.some t
  | .never => ⊤

def Duration.value : Duration → WithTop Nat
  | .ms d => WithTop.some d
  | .forever => ⊤

theorem Timestamp.cmp_value (t1 t2 : Timestamp) :
    (Timestamp.cmp t1 t2 = .lt ↔ t1.value < t2.value) ∧
      (Timestamp.cmp t1 t2 = .eq ↔ t1.value = t2.value) := by
  cases t1 <;> cases t2 <;> simp [Timestamp.cmp, Timestamp.value, Nat.compare_eq_lt]

theorem timestampMin_value (t1 t2 : Timestamp) :
    (timestampMin t1 t2).value = t1.value ⊓ t2.value ↔ t1 = .never ∨ t2 ≠ .never := by
  cases t1 <;> cases t2 <;> simp [timestampMin, Timestamp.value]

theorem timestampMax_value (t1 t2 : Timestamp) :
    (timestampMax t1 t2).value = t1.value ⊔ t2.value := by
  cases t1 <;> cases t2 <;> simp [timestampMax, Timestamp.value]

theorem durationMin_value (d1 d2 : Duration) :
    (durationMin d1 d2).value = d1.value ⊓ d2.value ↔ d1 = .forever ∨ d2 ≠ .forever := by
  cases d1 <;> cases d2 <;> simp [durationMin, Duration.value]

theorem durationMax_value (d1 d2 : Duration) : (durationMax d1 d2).value = d1.value ⊔ d2.value := by
  cases d1 <;> cases d2 <;> simp [durationMax, Duration.value]

theorem timestampAddDuration_value (t : Timestamp) (d : Duration) :
    (timestampAddDuration t d).value = t.value + d.value := by
  cases t <;> cases d <;> simp [timestampAddDuration, Timestamp.value, Duration.value]

theorem timestampMin_either (t1 t2 : Timestamp) :
    timestampMin t1 t2 = t1 ∨ timestampMin t1 t2 = t2 := by
  cases t1 <;> cases t2 <;> simp [timestampMin, le_total]

theorem getDurationRemaining_least (t now : Timestamp) :
    (∃ d, getDurationRemaining t now = some d ∧ t.value ≤ (timestampAddDuration now d).value ∧
      ∀ d', t.value ≤ (timestampAddDuration now d').value → d.value ≤ d'.value) ↔ now ≠ .never := by
  cases now with
  | never =>
    refine iff_of_false ?_ (fun finite => finite rfl)
    rintro ⟨d, left, _, least⟩
    have zero := least (.ms 0) le_top
    cases t <;> cases left
    simp [Duration.value] at zero
  | «at» now =>
    refine iff_of_true ?_ nofun
    cases t with
    | never =>
      refine ⟨_, rfl, le_rfl, ?_⟩
      intro d' late
      cases d' with
      | forever => exact le_rfl
      | ms d' => simp [Timestamp.value, timestampAddDuration] at late
    | «at» t =>
      refine ⟨_, rfl, ?_, ?_⟩
      · simp only [Timestamp.value, timestampAddDuration, WithTop.coe_le_coe]
        split <;> omega
      intro d' late
      cases d' with
      | forever => exact le_top
      | ms d' =>
        simp only [Timestamp.value, timestampAddDuration, WithTop.coe_le_coe] at late
        simp only [Duration.value, WithTop.coe_le_coe]
        split <;> omega

/-! ## The stored time of the next check -/

section NextCheck

variable {world : RefreshWorld} {exchangeBaseUrl url : String} {coin c : RefreshCandidate}

/-- The threshold that the loop takes into account for a coin. -/
def checkThreshold (world : RefreshWorld) (exchangeBaseUrl : String) (coin : RefreshCandidate) :
    Option Timestamp :=
  if coin.status ≠ .fresh ∨ coin.suspended then none
  else (world.denominations exchangeBaseUrl coin.denomPubHash).bind fun denom =>
    if isTimestampExpired world.now (getAutoRefreshExecuteThreshold denom) then none
    else some (getAutoRefreshCheckThreshold denom)

theorem checkCoins_minimum (cs refreshCoins : List RefreshCandidate) (start : Timestamp) :
    (checkCoins world url cs refreshCoins start).2 =
      (cs.filterMap (checkThreshold world url)).foldl timestampMin start := by
  induction cs generalizing refreshCoins start with
  | nil => rfl
  | cons c rest ih =>
    unfold checkCoins
    simp only [filterMap_cons, checkThreshold]
    repeat' split
    all_goals simp_all

/-- The thresholds after the last one that never comes. -/
def afterNever (thresholds : List Timestamp) : List Timestamp :=
  thresholds.reverse.takeWhile (· ≠ .never)

theorem minimum_afterNever (start : Timestamp) (thresholds : List Timestamp) :
    (∀ t ∈ afterNever thresholds, (thresholds.foldl timestampMin start).value ≤ t.value) ∧
      (.never ∈ thresholds → thresholds.foldl timestampMin start = .never ∨
        thresholds.foldl timestampMin start ∈ afterNever thresholds) := by
  induction thresholds using List.reverseRecOn with
  | nil => exact ⟨nofun, nofun⟩
  | append_singleton thresholds t ih =>
    rw [foldl_append, foldl_cons, foldl_nil]
    generalize thresholds.foldl timestampMin start = minimum at ih
    by_cases never : t = .never
    · rw [never]
      have last : timestampMin minimum .never = .never := by cases minimum <;> rfl
      exact ⟨by simp [afterNever], fun _ => .inl last⟩
    have tail : afterNever (thresholds ++ [t]) = t :: afterNever thresholds := by
      simp [afterNever, never]
    rw [tail, (timestampMin_value minimum t).mpr (.inr never)]
    constructor
    · intro t' mem
      rcases mem_cons.mp mem with rfl | earlier
      · exact inf_le_right
      · exact inf_le_left.trans (ih.1 t' earlier)
    intro mem
    have pre : .never ∈ thresholds := by simpa [Ne.symm never] using mem
    rcases ih.2 pre with last | earlier
    · rw [last]
      exact .inr mem_cons_self
    rcases timestampMin_either minimum t with eq | eq
    · rw [eq]
      exact .inr (mem_cons_of_mem _ earlier)
    · rw [eq]
      exact .inr mem_cons_self

theorem checkCoins_refreshed (cs refreshCoins : List RefreshCandidate) (start : Timestamp) :
    c ∈ (checkCoins world url cs refreshCoins start).1 ↔
      c ∈ refreshCoins ∨ c ∈ cs ∧ c.status = .fresh ∧ c.suspended = false ∧
        ∃ dn, world.denominations url c.denomPubHash = some dn ∧
          isTimestampExpired world.now (getAutoRefreshExecuteThreshold dn) = true := by
  induction cs generalizing refreshCoins start with
  | nil => simp [checkCoins]
  | cons y rest ih =>
    unfold checkCoins
    by_cases eq : c = y
    · subst eq
      repeat' split
      all_goals simp_all
    · repeat' split
      all_goals simp_all

/-- The thresholds of the coins that are left as they are. -/
def RefreshWorld.thresholds (world : RefreshWorld) (exchangeBaseUrl : String) : List Timestamp :=
  (world.coins.filter fun coin => coin.exchangeBaseUrl = exchangeBaseUrl).filterMap
    (checkThreshold world exchangeBaseUrl)

theorem mem_thresholds {t : Timestamp} : t ∈ world.thresholds url ↔
    ∃ c ∈ world.coins, c.exchangeBaseUrl = url ∧ c.status = .fresh ∧
      c.suspended = false ∧ c ∉ (autoRefresh world url).1 ∧
      ∃ dn, world.denominations url c.denomPubHash = some dn ∧
        getAutoRefreshCheckThreshold dn = t := by
  unfold RefreshWorld.thresholds autoRefresh
  simp only [mem_filterMap, mem_filter, decide_eq_true_eq, checkCoins_refreshed, not_mem_nil,
    false_or]
  refine exists_congr fun c => ?_
  unfold checkThreshold
  cases h : world.denominations url c.denomPubHash <;>
    by_cases fresh : c.status = .fresh <;> cases suspended : c.suspended <;>
    simp [fresh]
  tauto

end NextCheck

/-- The functions agree with the order, and no coin is left unrefreshed beyond the next check. -/
structure Consistent (t1 t2 now : Timestamp) (d1 d2 : Duration) (world : RefreshWorld)
    (exchangeBaseUrl : String) : Prop where
  order : (Timestamp.cmp t1 t2 = .lt ↔ t1.value < t2.value) ∧
    (Timestamp.cmp t1 t2 = .eq ↔ t1.value = t2.value)
  timestampMin : (timestampMin t1 t2).value = t1.value ⊓ t2.value
  timestampMax : (timestampMax t1 t2).value = t1.value ⊔ t2.value
  durationMin : (durationMin d1 d2).value = d1.value ⊓ d2.value
  durationMax : (durationMax d1 d2).value = d1.value ⊔ d2.value
  monotone : t1.value ≤ t2.value → d1.value ≤ d2.value →
    (timestampAddDuration t1 d1).value ≤ (timestampAddDuration t2 d2).value
  remaining : ∃ d, getDurationRemaining t1 now = some d ∧
    t1.value ≤ (timestampAddDuration now d).value ∧
    ∀ d', t1.value ≤ (timestampAddDuration now d').value → d.value ≤ d'.value
  nextCheck : ∀ coin ∈ world.coins, coin.exchangeBaseUrl = exchangeBaseUrl →
    coin.status = .fresh → coin.suspended = false →
    coin ∉ (autoRefresh world exchangeBaseUrl).1 →
    ∀ denom, world.denominations exchangeBaseUrl coin.denomPubHash = some denom →
      (autoRefresh world exchangeBaseUrl).2.value ≤ (getAutoRefreshCheckThreshold denom).value

/-- The minimum goes wrong where only its second argument is infinite, and so does the time of the
next check unless the thresholds after the last infinite one include an earliest. -/
theorem times_consistent (t1 t2 now : Timestamp) (d1 d2 : Duration) (world : RefreshWorld)
    (exchangeBaseUrl : String) : Consistent t1 t2 now d1 d2 world exchangeBaseUrl ↔
      (t1 = .never ∨ t2 ≠ .never) ∧ (d1 = .forever ∨ d2 ≠ .forever) ∧ now ≠ .never ∧
      ∀ t ∈ world.thresholds exchangeBaseUrl, t ≠ .never →
        ∃ earliest ∈ afterNever (world.thresholds exchangeBaseUrl), earliest.value ≤ t.value := by
  have stored : (autoRefresh world exchangeBaseUrl).2 =
      (world.thresholds exchangeBaseUrl).foldl timestampMin (timestampAddDuration (.at world.now)
        (days 1)) := checkCoins_minimum _ _ _
  have minimum := minimum_afterNever (timestampAddDuration (.at world.now) (days 1))
    (world.thresholds exchangeBaseUrl)
  rw [← stored] at minimum
  constructor
  · intro consistent
    refine ⟨(timestampMin_value t1 t2).mp consistent.timestampMin,
      (durationMin_value d1 d2).mp consistent.durationMin,
      (getDurationRemaining_least t1 now).mp consistent.remaining, ?_⟩
    intro t inside finite
    obtain ⟨coin, isCoin, isOffered, fresh, active, left, denom, found, rfl⟩ :=
      mem_thresholds.mp inside
    have below := consistent.nextCheck coin isCoin isOffered fresh active left denom found
    by_cases infinite : .never ∈ world.thresholds exchangeBaseUrl
    · rcases minimum.2 infinite with last | earlier
      · rw [last] at below
        cases isThreshold : getAutoRefreshCheckThreshold denom with
        | never => exact absurd isThreshold finite
        | «at» time => simp [isThreshold, Timestamp.value] at below
      · exact ⟨_, earlier, below⟩
    · refine ⟨_, ?_, le_rfl⟩
      rw [afterNever, takeWhile_eq_self_iff.mpr]
      · exact mem_reverse.mpr inside
      · intro other isOther
        exact decide_eq_true fun never => infinite (never ▸ mem_reverse.mp isOther)
  · rintro ⟨times, durations, isTime, earliest⟩
    refine ⟨Timestamp.cmp_value t1 t2, (timestampMin_value t1 t2).mpr times,
      timestampMax_value t1 t2, (durationMin_value d1 d2).mpr durations, durationMax_value d1 d2,
      ?_, (getDurationRemaining_least t1 now).mpr isTime, ?_⟩
    · intro later longer
      rw [timestampAddDuration_value, timestampAddDuration_value]
      exact add_le_add later longer
    · intro coin isCoin isOffered fresh active left denom found
      have inside := mem_thresholds.mpr
        ⟨coin, isCoin, isOffered, fresh, active, left, denom, found, rfl⟩
      by_cases finite : getAutoRefreshCheckThreshold denom = .never
      · rw [finite]
        exact le_top
      · obtain ⟨t, isEarliest, below⟩ := earliest _ inside finite
        exact (minimum.1 t isEarliest).trans below

theorem never_is_taken : ¬ Consistent (.at 5) .never (.at 0) (.ms 0) (.ms 0)
    ⟨0, [], fun _ _ => none⟩ "https://exchange/" := by
  intro consistent
  cases (timestampMin_value (.at 5) .never).mp consistent.timestampMin with
  | inl infinite => cases infinite
  | inr finite => exact finite rfl

end Anastasis.Wallet
