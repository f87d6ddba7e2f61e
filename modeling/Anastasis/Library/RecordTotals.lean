import Anastasis.Library.Record
import Mathlib.Algebra.Order.BigOperators.Group.List
import Mathlib.Algebra.Order.Group.Nat
import Mathlib.Algebra.GroupWithZero.Nat

/-! Sums over the values of a finite map, and how they change with one value. -/

set_option autoImplicit false

namespace Library.Record

open List

variable {Key Value : Type}

def total (record : Record Key Value) (weight : Value → Nat) : Nat :=
  (record.values.map weight).sum

theorem total_add (record : Record Key Value) (x second : Value → Nat) :
    record.total (fun value => x value + second value) = record.total x + record.total second :=
  sum_map_add

variable {record : Record Key Value}

theorem total_congr {x second : Value → Nat}
    (eq : ∀ value ∈ record.values, x value = second value) : record.total x = record.total second :=
  congrArg List.sum (map_congr_left eq)

theorem total_eq_zero_iff (record : Record Key Value) (weight : Value → Nat) :
    record.total weight = 0 ↔ ∀ value ∈ record.values, weight value = 0 := by
  rw [total, sum_eq_zero_iff, List.forall_mem_map]

variable [DecidableEq Key]

def weightAt (record : Record Key Value) (weight : Value → Nat) (key : Key) : Nat :=
  ((record.get? key).map weight).getD 0

theorem weightAt_some {weight : Value → Nat} {key : Key} {value : Value}
    (got : record.get? key = some value) : record.weightAt weight key = weight value := by
  rw [weightAt, got]
  rfl

theorem weightAt_none {weight : Value → Nat} {key : Key} (absent : record.get? key = none) :
    record.weightAt weight key = 0 := by
  rw [weightAt, absent]
  rfl

theorem total_set (record : Record Key Value) (weight : Value → Nat) (key : Key) (value : Value) :
    (record.set key value).total weight + record.weightAt weight key =
      record.total weight + weight value := by
  obtain ⟨entries, distinct⟩ := record
  simp only [total, values, set, weightAt, get?]
  clear distinct
  induction entries with
  | nil => simp [replace, lookup]
  | cons entry rest ih =>
    obtain ⟨got, old⟩ := entry
    by_cases eq : got = key
    · simp only [replace, lookup, eq, if_true, map_cons, sum_cons, Option.map_some,
        Option.getD_some]
      omega
    · simp only [replace, lookup, eq, if_false, map_cons, sum_cons]
      omega

theorem lookup_of_mem {entries : List (Key × Value)} {key : Key} {value : Value}
    (distinct : (entries.map Prod.fst).Nodup) (mem : (key, value) ∈ entries) :
    lookup entries key = some value := by
  induction entries with
  | nil => cases mem
  | cons entry rest ih =>
    obtain ⟨got, old⟩ := entry
    rw [map_cons, nodup_cons] at distinct
    cases mem_cons.mp mem with
    | inl head =>
      cases head
      simp [lookup]
    | inr tail =>
      have ne : got ≠ key := by
        intro eq
        apply distinct.1
        rw [eq]
        exact List.mem_map.mpr ⟨_, tail, rfl⟩
      rw [lookup, if_neg ne]
      exact ih distinct.2 tail

theorem mem_values_iff {value : Value} :
    value ∈ record.values ↔ ∃ key, record.get? key = some value := by
  constructor
  · intro mem
    obtain ⟨⟨key, _⟩, isEntry, rfl⟩ := List.mem_map.mp mem
    exact ⟨key, lookup_of_mem record.distinct isEntry⟩
  · rintro ⟨key, got⟩
    exact get?_mem_values got

theorem weightAt_set (record : Record Key Value) (weight : Value → Nat) (key other : Key)
    (value : Value) : (record.set key value).weightAt weight other =
      if other = key then weight value else record.weightAt weight other := by
  rw [weightAt, get?_set]
  split
  · rfl
  · rfl

theorem total_eq_weightAt {record : Record Key Value} {weight : Value → Nat} {chosen : Key}
    (only : ∀ key value, record.get? key = some value → key ≠ chosen → weight value = 0) :
    record.total weight = record.weightAt weight chosen := by
  have entries : ∀ entry ∈ record.entries, entry.1 ≠ chosen → weight entry.2 = 0 := by
    intro entry mem
    exact only entry.1 entry.2 (lookup_of_mem record.distinct mem)
  obtain ⟨list, distinct⟩ := record
  simp only [total, values, weightAt, get?] at entries ⊢
  clear only
  induction list with
  | nil => rfl
  | cons entry rest ih =>
    obtain ⟨got, value⟩ := entry
    rw [forall_mem_cons] at entries
    rw [map_cons, nodup_cons] at distinct
    by_cases eq : got = chosen
    · have none : ((rest.map Prod.snd).map weight).sum = 0 := by
        rw [sum_eq_zero_iff, List.map_map, List.forall_mem_map]
        intro entry mem
        apply entries.2 entry mem
        intro again
        apply distinct.1
        rw [eq, ← again]
        exact List.mem_map.mpr ⟨entry, mem, rfl⟩
      simp only [map_cons, sum_cons, lookup, eq, if_true, Option.map_some,
        Option.getD_some, none, Nat.add_zero]
    · have worthless := entries.1 eq
      simp only [map_cons, sum_cons, lookup, eq, if_false] at worthless ⊢
      rw [worthless, Nat.zero_add]
      exact ih distinct.2 entries.2

theorem total_erase_le (record : Record Key Value) (weight : Value → Nat) (key : Key) :
    (record.erase key).total weight ≤ record.total weight := by
  have kept : (record.erase key).values.Sublist record.values := List.filter_sublist.map Prod.snd
  exact (kept.map weight).sum_le_sum fun _ _ => Nat.zero_le _

end Library.Record
