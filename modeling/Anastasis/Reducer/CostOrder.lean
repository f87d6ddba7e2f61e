import Mathlib.Algebra.BigOperators.Group.Finset.Basic
import Mathlib.Algebra.Order.BigOperators.Group.List
import Mathlib.Data.Int.Order.Basic
import Mathlib.Tactic.Ring

/-! Comparing the costs of two policy selections, currency by currency. -/

set_option autoImplicit false

namespace Anastasis.Reducer

open List

/-- Costs, each in one currency. Equality and order are the comparisons of the amount library. -/
abbrev Costs (Currency Amount : Type) : Type := List (Currency × Amount)

variable {Currency Amount : Type} [DecidableEq Currency]

/-- The cost in a currency: the first entry that is found, none where there is none. -/
def Costs.cost (costs : Costs Currency Amount) (currency : Currency) : Option Amount :=
  costs.lookup currency

section Cost

variable {costs : Costs Currency Amount}

theorem cost_none_iff {cur : Currency} : costs.cost cur = none ↔ cur ∉ costs.map Prod.fst := by
  rw [Costs.cost, lookup_eq_none_iff, mem_map, not_exists]
  simp only [not_and, ← Ne.eq_def, ne_comm, bne_iff_ne]

theorem cost_of_mem (unique : (costs.map Prod.fst).Nodup) {pos : Currency × Amount}
    (mem : pos ∈ costs) : costs.cost pos.1 = some pos.2 := by
  induction costs with
  | nil => cases mem
  | cons x rest ih =>
    rw [map_cons, nodup_cons] at unique
    rcases mem_cons.mp mem with rfl | later
    · exact lookup_cons_self
    have ne : pos.1 ≠ x.1 := fun eq => unique.1 (eq ▸ mem_map_of_mem later)
    rw [Costs.cost, lookup_cons, beq_eq_false_iff_ne.mpr ne]
    exact ih unique.2 later

end Cost

variable [LinearOrder Amount]

/-- What one currency adds to the ranking. -/
def rank (my be : Option Amount) : Int :=
  match my, be with
  | some pos, some cmp => if cmp < pos then -1 else if pos < cmp then 1 else 0
  | some _, none => 1
  | none, some _ => -1
  | none, none => 0

def compareCosts (my be : Costs Currency Amount) : Int :=
  let missing : Int := be.foldl
    (fun ranking cmp => if my.any (·.1 = cmp.1) then ranking else ranking - 1) 0
  let ranking := my.foldl (fun ranking pos => ranking + rank (some pos.2) (be.cost pos.1)) missing
  if ranking = 0 then 0 else if ranking < 0 then -1 else 1

section Ranking

variable {my be : Costs Currency Amount}

theorem rank_swap (my be : Option Amount) : rank my be = -rank be my := by
  cases my with
  | none => cases be <;> rfl
  | some pos =>
    cases be with
    | none => rfl
    | some cmp =>
      rcases lt_trichotomy pos cmp with less | eq | more
      · simp [rank, less, less.not_gt]
      · simp [rank, eq]
      · simp [rank, more, more.not_gt]

def ranking (my be : Costs Currency Amount) : Int :=
  ∑ currency ∈ (my.map Prod.fst).toFinset ∪ (be.map Prod.fst).toFinset,
    rank (my.cost currency) (be.cost currency)

theorem ranking_swap : ranking my be = -ranking be my := by
  unfold ranking
  rw [← Finset.sum_neg_distrib, Finset.union_comm]
  exact Finset.sum_congr rfl fun cur _ => rank_swap _ _

theorem foldl_add_eq_sum {Item : Type} (f : Item → Int) (items : List Item) :
    ∀ start, items.foldl (fun total item => total + f item) start = start + (items.map f).sum := by
  induction items with
  | nil => simp
  | cons item rest ih =>
    intro start
    rw [foldl_cons, ih, map_cons, sum_cons, add_assoc]

theorem compareCosts_eq (unique : (my.map Prod.fst).Nodup) (unique' : (be.map Prod.fst).Nodup) :
    compareCosts my be = (ranking my be).sign := by
  have mine : (my.map fun pos => rank (some pos.2) (be.cost pos.1)).sum =
      ∑ cur ∈ (my.map Prod.fst).toFinset, rank (my.cost cur) (be.cost cur) := by
    rw [sum_toFinset _ unique, map_map]
    congr 1
    exact map_congr_left fun pos mem => by rw [Function.comp_apply, cost_of_mem unique mem]
  have ys : (be.map fun cmp => if my.any (·.1 = cmp.1) then (0 : Int) else -1).sum =
      ∑ cur ∈ (be.map Prod.fst).toFinset \ (my.map Prod.fst).toFinset,
        rank (my.cost cur) (be.cost cur) := by
    rw [Finset.sdiff_eq_filter, Finset.sum_filter, sum_toFinset _ unique', map_map]
    congr 1
    apply map_congr_left
    intro cmp mem
    rw [Function.comp_apply, cost_of_mem unique' mem]
    by_cases named : cmp.1 ∈ my.map Prod.fst
    · obtain ⟨pos, isPos, eq⟩ := mem_map.mp named
      rw [if_pos (any_eq_true.mpr ⟨pos, isPos, decide_eq_true eq⟩),
        if_neg (not_not.mpr (mem_toFinset.mpr named))]
    rw [if_pos (mt mem_toFinset.mp named), cost_none_iff.mpr named, if_neg]
    · rfl
    intro h
    obtain ⟨pos, isPos, eq⟩ := any_eq_true.mp h
    exact named (mem_map.mpr ⟨pos, isPos, of_decide_eq_true eq⟩)
  have added : (fun ranking (cmp : Currency × Amount) =>
      if my.any (·.1 = cmp.1) then ranking else ranking - 1) =
      fun ranking cmp => ranking + if my.any (·.1 = cmp.1) then (0 : Int) else -1 := by
    funext ranking cmp
    split
    · exact (add_zero ranking).symm
    · rfl
  unfold compareCosts
  dsimp only
  rw [added, foldl_add_eq_sum, foldl_add_eq_sum, mine, ys, zero_add, add_comm,
    ← Finset.sum_union Finset.disjoint_sdiff, Finset.union_sdiff_self_eq_union]
  change (if ranking my be = 0 then (0 : Int) else if ranking my be < 0 then -1 else 1) = _
  rcases lt_trichotomy (ranking my be) 0 with less | eq | more
  · rw [if_neg less.ne, if_pos less, Int.sign_eq_neg_one_of_neg less]
  · rw [if_pos eq, eq, Int.sign_zero]
  · rw [if_neg more.ne', if_neg more.not_gt, Int.sign_eq_one_of_pos more]

theorem sum_rank {costs : Costs Currency Amount} (common : ∀ pos ∈ costs, be.cost pos.1 ≠ none) :
    (costs.map fun pos => rank (some pos.2) (be.cost pos.1)).sum =
      costs.countP (fun pos => (be.cost pos.1).any (pos.2 < ·)) -
        costs.countP fun pos => (be.cost pos.1).any (· < pos.2) := by
  induction costs with
  | nil => rfl
  | cons pos rest ih =>
    rw [forall_mem_cons] at common
    obtain ⟨cmp, isCost⟩ := Option.ne_none_iff_exists'.mp common.1
    rw [map_cons, sum_cons, ih common.2, countP_cons, countP_cons, isCost]
    rcases lt_trichotomy pos.2 cmp with less | eq | more
    · simp [rank, less, less.not_gt]
      omega
    · simp [rank, eq]
    · simp [rank, more, more.not_gt]
      omega

theorem ranking_same (unique : (my.map Prod.fst).Nodup)
    (eq : ∀ cur, my.cost cur = none ↔ be.cost cur = none) :
    ranking my be = my.countP (fun pos => (be.cost pos.1).any (pos.2 < ·)) -
      my.countP fun pos => (be.cost pos.1).any (· < pos.2) := by
  have included : (be.map Prod.fst).toFinset ⊆ (my.map Prod.fst).toFinset := by
    intro cur
    rw [mem_toFinset, mem_toFinset, ← not_imp_not, ← cost_none_iff, ← cost_none_iff]
    exact (eq cur).mp
  rw [← sum_rank, ranking, Finset.union_eq_left.mpr included, sum_toFinset _ unique, map_map]
  · congr 1
    exact map_congr_left fun pos mem => by rw [Function.comp_apply, cost_of_mem unique mem]
  intro pos mem gone
  rw [← eq, cost_of_mem unique mem] at gone
  cases gone

/-- For costs with one entry a currency the two ways round are opposite. In lists of the same
currencies the numbers of cheaper and of dearer entries decide. -/
theorem compareCosts_ranks (unique : (my.map Prod.fst).Nodup) (unique' : (be.map Prod.fst).Nodup) :
    compareCosts my be = -compareCosts be my ∧
      ((∀ currency, my.cost currency = none ↔ be.cost currency = none) →
        ((∀ pos ∈ my, ∀ cmp, be.cost pos.1 = some cmp → pos.2 ≤ cmp) →
          (∃ pos ∈ my, ∃ cmp, be.cost pos.1 = some cmp ∧ pos.2 < cmp) → compareCosts my be = 1) ∧
        (compareCosts my be = 0 ↔ my.countP (fun pos => (be.cost pos.1).any (pos.2 < ·)) =
            my.countP fun pos => (be.cost pos.1).any (· < pos.2))) := by
  rw [compareCosts_eq unique unique', compareCosts_eq unique' unique]
  refine ⟨by rw [ranking_swap, Int.sign_neg], ?_⟩
  intro same
  rw [ranking_same unique same, Int.sign_eq_zero_iff_zero, sub_eq_zero, Nat.cast_inj]
  refine ⟨?_, Iff.rfl⟩
  rintro noMore ⟨pos, member, cmp, isCost, less⟩
  have none : my.countP (fun pos => (be.cost pos.1).any (· < pos.2)) = 0 := by
    rw [countP_eq_zero]
    intro other isOther found
    cases isCost : be.cost other.1 with
    | none =>
      rw [isCost] at found
      cases found
    | some cmp =>
      rw [isCost] at found
      exact (noMore other isOther cmp isCost).not_gt (of_decide_eq_true found)
  rw [Int.sign_eq_one_iff_pos, sub_pos, Nat.cast_lt, none]
  exact countP_pos_iff.mpr ⟨pos, member, by simp [isCost, less]⟩

theorem cheaper_in_one_currency :
    compareCosts [("EUR", 1), ("USD", 2)] [("USD", 2), ("EUR", 2)] = 1 := by
  refine ((compareCosts_ranks (by decide) (by decide)).2 ?_).1 (by decide)
    ⟨("EUR", 1), by simp, 2, rfl, by decide⟩
  intro currency
  rw [cost_none_iff, cost_none_iff]
  simp [and_comm]

/-- A policy that costs less in one currency and more in another counts as equally expensive. -/
theorem crossed_costs_equal :
    ¬ ∀ my be : Costs String Nat, (my.map Prod.fst).Nodup → (be.map Prod.fst).Nodup →
      compareCosts my be = 0 → ∀ currency, my.cost currency = be.cost currency := by
  intro agree
  have same := agree [("EUR", 1), ("USD", 2)] [("EUR", 2), ("USD", 1)] (by decide) (by decide)
    (by decide) "EUR"
  cases same

end Ranking

end Anastasis.Reducer
