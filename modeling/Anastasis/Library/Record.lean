import Mathlib.Data.List.Nodup
import Mathlib.Data.List.Basic

/-! Finite maps that remember the order in which their keys were first set. -/

set_option autoImplicit false

namespace Library

open List

/-- A finite map with its keys in insertion order; no key occurs twice. -/
structure Record (Key Value : Type) where
  entries : List (Key × Value)
  distinct : (entries.map Prod.fst).Nodup

namespace Record

variable {Key Value : Type}

theorem ext {left right : Record Key Value} (eq : left.entries = right.entries) : left = right := by
  cases left
  cases right
  cases eq
  rfl

def empty : Record Key Value := ⟨[], nodup_nil⟩

instance : Inhabited (Record Key Value) := ⟨empty⟩

def keys (record : Record Key Value) : List Key := record.entries.map Prod.fst

def values (record : Record Key Value) : List Value := record.entries.map Prod.snd

variable [DecidableEq Key]

def lookup : List (Key × Value) → Key → Option Value
  | [], _ => none
  | (candidate, value) :: rest, key =>
    if candidate = key then some value else lookup rest key

def get? (record : Record Key Value) (key : Key) : Option Value :=
  lookup record.entries key

def replace : List (Key × Value) → Key → Value → List (Key × Value)
  | [], key, value => [(key, value)]
  | (candidate, old) :: rest, key, value =>
    if candidate = key then (candidate, value) :: rest
    else (candidate, old) :: replace rest key value

theorem mem_replace_keys (entries : List (Key × Value)) (key : Key) (value : Value) (cand : Key) :
    cand ∈ (replace entries key value).map Prod.fst ↔ cand = key ∨ cand ∈ entries.map Prod.fst := by
  induction entries with
  | nil => simp [replace]
  | cons entry rest ih =>
    obtain ⟨got, old⟩ := entry
    by_cases eq : got = key
    · simp [replace, eq]
    · simp only [replace, eq, if_false, map_cons, mem_cons, ih]
      tauto

theorem replace_distinct {entries : List (Key × Value)}
    (distinct : (entries.map Prod.fst).Nodup) (key : Key) (value : Value) :
    ((replace entries key value).map Prod.fst).Nodup := by
  induction entries with
  | nil => simp [replace]
  | cons entry rest ih =>
    obtain ⟨got, old⟩ := entry
    simp only [map_cons, nodup_cons] at distinct
    by_cases eq : got = key
    · simpa only [replace, eq, if_true, map_cons, nodup_cons] using eq ▸ distinct
    simp only [replace, eq, if_false, map_cons, nodup_cons]
    refine ⟨fun mem => ?_, ih distinct.2⟩
    rcases (mem_replace_keys rest key value got).mp mem with equal | present
    · exact eq equal
    · exact distinct.1 present

/-- Setting a key keeps its place when it is present and appends it otherwise. -/
def set (record : Record Key Value) (key : Key) (value : Value) : Record Key Value :=
  ⟨replace record.entries key value, replace_distinct record.distinct key value⟩

def erase (record : Record Key Value) (key : Key) : Record Key Value :=
  ⟨record.entries.filter (fun entry => entry.1 ≠ key),
    record.distinct.sublist (List.filter_sublist.map Prod.fst)⟩

def ofList (entries : List (Key × Value)) : Record Key Value :=
  entries.foldl (fun record entry => record.set entry.1 entry.2) empty

@[simp] theorem get?_empty (key : Key) : (empty : Record Key Value).get? key = none := rfl

@[simp] theorem get?_set_self (record : Record Key Value) (key : Key) (value : Value) :
    (record.set key value).get? key = some value := by
  obtain ⟨entries, distinct⟩ := record
  simp only [get?, set]
  clear distinct
  induction entries with
  | nil => simp [replace, lookup]
  | cons entry rest ih =>
    obtain ⟨got, old⟩ := entry
    by_cases eq : got = key <;> simp [replace, lookup, eq, ih]

theorem get?_set_of_ne (record : Record Key Value) {key other : Key} (value : Value)
    (ne : other ≠ key) : (record.set key value).get? other = record.get? other := by
  obtain ⟨entries, distinct⟩ := record
  simp only [get?, set]
  clear distinct
  induction entries with
  | nil => simp [replace, lookup, Ne.symm ne]
  | cons entry rest ih =>
    obtain ⟨got, old⟩ := entry
    by_cases eq : got = key
    · subst eq
      simp [replace, lookup, Ne.symm ne]
    · simp only [replace, eq, if_false, lookup, ih]

theorem get?_set (record : Record Key Value) (key other : Key) (value : Value) :
    (record.set key value).get? other = if other = key then some value else record.get? other := by
  by_cases eq : other = key
  · simp [eq]
  · simp [eq, get?_set_of_ne record value eq]

theorem set_set (record : Record Key Value) (key : Key) (x second : Value) :
    (record.set key x).set key second = record.set key second := by
  apply ext
  obtain ⟨entries, distinct⟩ := record
  simp only [set]
  clear distinct
  induction entries with
  | nil => simp [replace]
  | cons entry rest ih =>
    obtain ⟨got, old⟩ := entry
    by_cases eq : got = key
    · simp [replace, eq]
    · simp [replace, eq, ih]

private theorem lookup_filter (entries : List (Key × Value)) (key other : Key) :
    lookup (entries.filter (fun entry => entry.1 ≠ key)) other =
      if other = key then none else lookup entries other := by
  induction entries with
  | nil => simp [lookup]
  | cons entry rest ih =>
    obtain ⟨got, old⟩ := entry
    by_cases eq : got = key
    · subst eq
      rw [filter_cons_of_neg (by simp), ih]
      by_cases hit : other = got
      · simp [hit]
      · simp [hit, lookup, Ne.symm hit]
    rw [filter_cons_of_pos (by simp [eq])]
    by_cases hit : got = other
    · subst hit
      simp [lookup, eq]
    · simp only [lookup, hit, if_false, ih]

theorem get?_erase (record : Record Key Value) (key other : Key) : (record.erase key).get? other =
      if other = key then none else record.get? other := lookup_filter record.entries key other

private theorem lookup_isSome_iff (entries : List (Key × Value)) (key : Key) :
    (∃ value, lookup entries key = some value) ↔ key ∈ entries.map Prod.fst := by
  induction entries with
  | nil => simp [lookup]
  | cons entry rest ih =>
    obtain ⟨got, old⟩ := entry
    by_cases eq : got = key
    · simp [lookup, eq]
    · simp only [lookup, eq, if_false, ih, map_cons, mem_cons]
      tauto

theorem mem_keys_iff (record : Record Key Value) (key : Key) :
    key ∈ record.keys ↔ ∃ value, record.get? key = some value :=
  (lookup_isSome_iff record.entries key).symm

theorem get?_mem_values {record : Record Key Value} {key : Key} {value : Value}
    (got : record.get? key = some value) : value ∈ record.values := by
  obtain ⟨entries, distinct⟩ := record
  simp only [get?, values] at got ⊢
  clear distinct
  induction entries with
  | nil => simp [lookup] at got
  | cons entry rest ih =>
    obtain ⟨cand, old⟩ := entry
    by_cases eq : cand = key
    · simp only [lookup, eq, if_true, Option.some.injEq] at got
      simp [got]
    · simp only [lookup, eq, if_false] at got
      exact mem_cons_of_mem _ (ih got)

end Record

end Library
