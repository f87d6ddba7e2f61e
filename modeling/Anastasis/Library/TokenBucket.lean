import Mathlib.Algebra.Order.Field.Basic
import Mathlib.Data.List.Induction
import Mathlib.Tactic.Linarith
import Mathlib.Tactic.Ring

/-! Token buckets: a bucket that is refilled at a constant rate up to its capacity, and requests
that each take a token or none. -/

set_option autoImplicit false

namespace Library.TokenBucket

open List

variable {Number : Type} [Field Number] [LinearOrder Number]

/-- What was left after the last request, and when that was. -/
structure Bucket (Number : Type) where
  level : Number
  time : Number

variable (capacity period : Number)

def Bucket.refilled (bucket : Bucket Number) (now : Number) : Number :=
  min capacity (bucket.level + (now - bucket.time) / period)

/-- A request at a time that takes a token if it is let through. -/
def Bucket.serve (bucket : Bucket Number) (request : Number × Bool) : Bucket Number :=
  ⟨bucket.refilled capacity period request.1 - if request.2 then 1 else 0, request.1⟩

def run (start : Number) (requests : List (Number × Bool)) : Bucket Number :=
  requests.foldl (Bucket.serve capacity period) ⟨capacity, start⟩

def passed (requests : List (Number × Bool)) : Nat := requests.countP Prod.snd

section Run

variable {capacity period} {start now bound : Number} {through : Bool}
  {requests : List (Number × Bool)}

theorem run_append (request : Number × Bool) : run capacity period start (requests ++ [request]) =
    (run capacity period start requests).serve capacity period request := by
  rw [run, foldl_append]
  rfl

theorem append_single_split {Item : Type} {items : List Item} {last : Item}
    {pre after : List Item} {item : Item} : items ++ [last] = pre ++ item :: after ↔
      (pre = items ∧ item = last ∧ after = []) ∨
        ∃ rest, after = rest ++ [last] ∧ items = pre ++ item :: rest := by
  constructor
  · intro split
    induction after using List.reverseRecOn with
    | nil =>
      have eq := append_inj' split rfl
      exact .inl ⟨eq.1.symm, (singleton_inj.mp eq.2).symm, rfl⟩
    | append_singleton rest fin _ =>
      rw [← cons_append, ← append_assoc] at split
      have eq := append_inj' split rfl
      exact .inr ⟨rest, by rw [singleton_inj.mp eq.2], eq.1⟩
  · intro split
    cases split with
    | inl here =>
      obtain ⟨rfl, rfl, rfl⟩ := here
      rfl
    | inr earlier =>
      obtain ⟨rest, rfl, rfl⟩ := earlier
      simp

omit [Field Number] in
/-- What lies before a window does not count. -/
theorem window_le_passed (requests : List (Number × Bool)) (opens closes : Number) :
    (requests.countP fun req => req.2 ∧ opens ≤ req.1 ∧ req.1 ≤ closes) ≤
      passed (requests.dropWhile fun req => req.1 < opens) := by
  induction requests with
  | nil => exact Nat.le_refl _
  | cons req rest ih =>
    by_cases pre : req.1 < opens
    · rw [dropWhile_cons_of_pos (by simpa using pre), countP_cons_of_neg]
      · exact ih
      · simp [not_le.mpr pre]
    rw [dropWhile_cons_of_neg (by simpa using pre)]
    apply countP_mono_left
    intro y _ mem
    exact (of_decide_eq_true mem).1

omit [LinearOrder Number] in
theorem passed_append (req : Number × Bool) : (passed (requests ++ [req]) : Number) =
      passed requests + if req.2 then 1 else 0 := by
  rw [passed, countP_append, countP_singleton]
  cases req.2 <;> simp [passed]

variable [IsStrictOrderedRing Number]

/-- The level of a bucket that was full at first is the least that any stretch of requests up to
now would have left of a full bucket. -/
theorem le_level_iff (some : requests ≠ [])
    (st : ∀ req, requests.head? = .some req → start ≤ req.1) (positive : 0 < period) :
    bound ≤ (run capacity period start requests).level ↔
      ∀ pre time through after, requests = pre ++ (time, through) :: after →
        bound + passed ((time, through) :: after) ≤
          capacity + ((run capacity period start requests).time - time) / period := by
  induction requests using List.reverseRecOn generalizing bound with
  | nil => exact absurd rfl some
  | append_singleton earlier last ih =>
    obtain ⟨final, finalThrough⟩ := last
    generalize isCost : (if finalThrough then (1 : Number) else 0) = cost
    have alone : (passed [(final, finalThrough)] : Number) = cost := by
      rw [← isCost, passed, countP_singleton]
      cases finalThrough <;> simp
    have level : bound ≤ (run capacity period start (earlier ++ [(final, finalThrough)])).level ↔
        bound + cost ≤ capacity ∧ bound + cost - (final - (run capacity period start earlier).time) /
          period ≤ (run capacity period start earlier).level := by
      rw [run_append, Bucket.serve, Bucket.refilled]
      dsimp only
      rw [isCost, le_sub_iff_add_le, le_min_iff, sub_le_iff_le_add]
    have time : (run capacity period start (earlier ++ [(final, finalThrough)])).time = final := by
      rw [run_append]
      rfl
    rw [level, time]
    constructor
    · intro fits pre time through after split
      cases append_single_split.mp split with
      | inl here =>
        obtain ⟨-, isLast, rfl⟩ := here
        cases isLast
        rw [alone, sub_self, zero_div, add_zero]
        exact fits.1
      | inr before' =>
        obtain ⟨rest, rfl, isEarlier⟩ := before'
        have nonempty : earlier ≠ [] := by simp [isEarlier]
        have startedEarlier : ∀ req, earlier.head? = .some req → start ≤ req.1 := by
          intro req isHead
          exact st req (by rw [head?_append, isHead]; rfl)
        have stretch := (ih nonempty startedEarlier).mp fits.2 pre time through rest isEarlier
        rw [← cons_append, passed_append, isCost]
        have split : (final - time) / period =
            (final - (run capacity period start earlier).time) / period +
              ((run capacity period start earlier).time - time) / period := by ring
        linarith
    · intro stretches
      have here := stretches earlier final finalThrough [] rfl
      rw [alone, sub_self, zero_div, add_zero] at here
      refine ⟨here, ?_⟩
      by_cases nonempty : earlier = []
      · subst nonempty
        have x := st (final, finalThrough) rfl
        have gained : 0 ≤ (final - start) / period := div_nonneg (sub_nonneg.mpr x) positive.le
        change bound + cost - (final - start) / period ≤ capacity
        linarith
      have startedEarlier : ∀ req, earlier.head? = .some req → start ≤ req.1 := by
        intro req isHead
        exact st req (by rw [head?_append, isHead]; rfl)
      apply (ih nonempty startedEarlier).mpr
      intro pre time through after isEarlier
      have stretch := stretches pre time through (after ++ [(final, finalThrough)])
        (by rw [isEarlier]; simp)
      rw [← cons_append, passed_append, isCost] at stretch
      have split : (final - time) / period =
          (final - (run capacity period start earlier).time) / period +
            ((run capacity period start earlier).time - time) / period := by ring
      linarith

/-- In no window are more requests let through than the capacity and what is refilled in it. -/
theorem passed_window (st : ∀ req, requests.head? = some req → start ≤ req.1)
    (positive : 0 < period) (sorted : (requests.map Prod.fst).Pairwise (· ≤ ·))
    (solvent : ∀ pre after, requests = pre ++ after → 0 ≤ (run capacity period start pre).level)
    {opens closes : Number} (window : opens ≤ closes) :
    (requests.countP fun req => req.2 ∧ opens ≤ req.1 ∧ req.1 ≤ closes : Number) ≤
      capacity + (closes - opens) / period := by
  have full : 0 ≤ capacity := solvent [] requests rfl
  have gained : 0 ≤ (closes - opens) / period := div_nonneg (sub_nonneg.mpr window) positive.le
  induction requests using List.reverseRecOn with
  | nil =>
    rw [countP_nil, Nat.cast_zero]
    linarith
  | append_singleton earlier last ih =>
    have startedEarlier : ∀ req, earlier.head? = some req → start ≤ req.1 := by
      intro req isHead
      exact st req (by rw [head?_append, isHead]; rfl)
    rw [map_append, pairwise_append] at sorted
    obtain ⟨sortedEarlier, -, beforeLast⟩ := sorted
    by_cases late : closes < last.1
    · have outside : ¬ (last.2 ∧ opens ≤ last.1 ∧ last.1 ≤ closes) :=
        fun mem => absurd mem.2.2 (not_le.mpr late)
      rw [countP_append, countP_singleton, if_neg (by simpa using outside), Nat.add_zero]
      apply ih startedEarlier sortedEarlier
      intro pre after isEarlier
      exact solvent pre (after ++ [last]) (by rw [isEarlier, append_assoc])
    generalize isAll : earlier ++ [last] = requests at *
    have level := solvent requests [] (by simp)
    have nonempty : requests ≠ [] := by simp [← isAll]
    have isTime : (run capacity period start requests).time = last.1 := by
      rw [← isAll, run_append]
      rfl
    have stretches := (le_level_iff nonempty st positive).mp level
    have within := window_le_passed requests opens closes
    cases mem : requests.dropWhile fun req => req.1 < opens with
    | nil =>
      rw [mem, passed, countP_nil, Nat.le_zero] at within
      rw [within, Nat.cast_zero]
      linarith
    | cons x after =>
      have split := (@takeWhile_append_dropWhile _ (fun req : Number × Bool =>
        decide (req.1 < opens)) requests).symm
      rw [mem] at split within
      have notBefore := head?_dropWhile_not
        (fun req : Number × Bool => decide (req.1 < opens)) requests
      rw [mem, head?_cons] at notBefore
      have reached : opens ≤ x.1 := not_lt.mp (of_decide_eq_false notBefore)
      have stretch := stretches _ x.1 x.2 after split
      have shorter : (last.1 - x.1) / period ≤ (closes - opens) / period :=
        div_le_div_of_nonneg_right (by linarith) positive.le
      rw [zero_add, isTime] at stretch
      calc _ ≤ (passed (x :: after) : Number) := by exact_mod_cast within
        _ ≤ capacity + (last.1 - x.1) / period := stretch
        _ ≤ capacity + (closes - opens) / period := by linarith

end Run

end Library.TokenBucket
