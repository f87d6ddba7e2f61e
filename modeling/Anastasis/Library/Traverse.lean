import Mathlib.Data.List.Forall2

/-! Mapping a list by a function that may fail, and what that says about the elements. -/

set_option autoImplicit false

namespace Library

open List

variable {First Second Error : Type}

variable {source : List First} {target : List Second}

theorem mapM_eq_some_iff {function : First → Option Second} : source.mapM function = some target ↔
      List.Forall₂ (fun x y => function x = some y) source target := by
  induction source generalizing target with
  | nil =>
    rw [mapM_nil, List.forall₂_nil_left_iff, Option.pure_def, Option.some.injEq]
    exact eq_comm
  | cons x rest ih =>
    simp only [mapM_cons, Option.bind_eq_bind, Option.bind_eq_some_iff, Option.pure_def,
      Option.some.injEq, List.forall₂_cons_left_iff, ih]
    constructor
    · rintro ⟨y, h, ys, each, rfl⟩
      exact ⟨y, ys, h, each, rfl⟩
    · rintro ⟨y, ys, h, each, rfl⟩
      exact ⟨y, h, ys, each, rfl⟩

theorem mapM_eq_ok_iff {function : First → Except Error Second} :
    source.mapM function = .ok target ↔
      List.Forall₂ (fun x y => function x = .ok y) source target := by
  induction source generalizing target with
  | nil =>
    rw [mapM_nil, List.forall₂_nil_left_iff]
    simp only [pure, Except.pure, Except.ok.injEq]
    exact eq_comm
  | cons x rest ih =>
    rw [mapM_cons, List.forall₂_cons_left_iff]
    cases h : function x with
    | error error => simp [bind, Except.bind]
    | ok y =>
      cases ys : rest.mapM function with
      | error error =>
        simp only [bind, Except.bind, reduceCtorEq, false_iff]
        rintro ⟨_, tail, _, each, _⟩
        rw [← ih, ys] at each
        cases each
      | ok tail =>
        simp only [bind, Except.bind, pure, Except.pure, Except.ok.injEq]
        constructor
        · rintro rfl
          exact ⟨y, tail, rfl, ih.mp ys, rfl⟩
        rintro ⟨_, tail', eq, each, rfl⟩
        rw [← ih, ys] at each
        cases eq
        cases each
        rfl

variable {relation : First → Second → Prop}

theorem forall₂_imp_of_mem {weaker : First → Second → Prop}
    (each : List.Forall₂ relation source target)
    (weaken : ∀ x ∈ source, ∀ y ∈ target, relation x y → weaker x y) :
    List.Forall₂ weaker source target := by
  obtain ⟨sameLength, zipped⟩ := List.forall₂_iff_zip.mp each
  refine List.forall₂_iff_zip.mpr ⟨sameLength, fun {x y} mem => ?_⟩
  obtain ⟨left, right⟩ := of_mem_zip mem
  exact weaken x left y right (zipped mem)

theorem forall₂_mem_right (each : List.Forall₂ relation source target) {second : Second}
    (mem : second ∈ target) : ∃ first ∈ source, relation first second := by
  obtain ⟨idx, below, rfl⟩ := mem_iff_getElem.mp mem
  have inside : idx < source.length := each.length_eq ▸ below
  exact ⟨source[idx], getElem_mem inside, each.get inside below⟩

theorem forall₂_comp {Third : Type} {other : Second → Third → Prop} {mid : List Second}
    {target : List Third} (each : List.Forall₂ relation source mid)
    (next : List.Forall₂ other mid target) :
    List.Forall₂ (fun x third => ∃ y, relation x y ∧ other y third) source target := by
  induction each generalizing target with
  | nil =>
    cases next
    exact .nil
  | cons related _ ih =>
    cases next with
    | cons continued rest => exact .cons ⟨_, related, continued⟩ (ih rest)

theorem exists_forall₂ (each : ∀ x ∈ source, ∃ y, relation x y) :
    ∃ target, List.Forall₂ relation source target := by
  induction source with
  | nil => exact ⟨[], .nil⟩
  | cons x rest ih =>
    obtain ⟨y, related⟩ := each x mem_cons_self
    obtain ⟨target, ys⟩ := ih fun other mem => each other (mem_cons_of_mem _ mem)
    exact ⟨y :: target, .cons related ys⟩

theorem mapM_eq_some_mem {function : First → Option Second}
    (mapped : source.mapM function = some target) {second : Second} (mem : second ∈ target) :
    ∃ x ∈ source, function x = some second := forall₂_mem_right (mapM_eq_some_iff.mp mapped) mem

/-- Maps a list by a function that may fail or find nothing, which ends the mapping. -/
def collect (function : First → Except Error (Option Second)) :
    List First → Except Error (Option (List Second))
  | [] => .ok (some [])
  | first :: rest => do
      match ← function first with
      | none => return none
      | some second =>
        match ← collect function rest with
        | none => return none
        | some others => return some (second :: others)

theorem collect_eq_ok_iff {function : First → Except Error (Option Second)} :
    collect function source = .ok (some target) ↔
      List.Forall₂ (fun x y => function x = .ok (some y)) source target := by
  induction source generalizing target with
  | nil =>
    rw [collect, List.forall₂_nil_left_iff, Except.ok.injEq, Option.some.injEq]
    exact eq_comm
  | cons x rest ih =>
    rw [collect, List.forall₂_cons_left_iff]
    constructor
    · intro collected
      cases h : function x with
      | error error => simp [h, bind, Except.bind] at collected
      | ok y =>
        cases y with
        | none => simp [h, bind, Except.bind, pure, Except.pure] at collected
        | some y =>
          cases ys : collect function rest with
          | error error => simp [h, ys, bind, Except.bind] at collected
          | ok tail =>
            cases tail with
            | none => simp [h, ys, bind, Except.bind, pure, Except.pure] at collected
            | some tail =>
              simp only [h, ys, bind, Except.bind, pure, Except.pure,
                Except.ok.injEq, Option.some.injEq] at collected
              exact ⟨y, tail, rfl, ih.mp ys, collected.symm⟩
    · intro each
      obtain ⟨y, tail, h, ys, rfl⟩ := each
      simp only [h, ih.mpr ys, bind, Except.bind, pure, Except.pure]

theorem collect_isOk_iff {function : First → Except Error (Option Second)} {source : List First} :
    (∃ target, collect function source = .ok target) ↔ ∀ pre x after, source = pre ++ x :: after →
        (∀ earlier ∈ pre, ∃ second, function earlier = .ok (some second)) →
        ∃ second, function x = .ok second := by
  induction source with
  | nil =>
    apply iff_of_true ⟨_, rfl⟩
    intro pre x after shape
    exact absurd shape (by simp)
  | cons head rest ih =>
    cases h : function head with
    | error error =>
      apply iff_of_false
      · simp [collect, h, bind, Except.bind]
      intro each
      obtain ⟨_, fine⟩ := each [] head rest rfl (by simp)
      rw [h] at fine
      cases fine
    | ok v =>
      cases v with
      | none =>
        apply iff_of_true
        · simp [collect, h, bind, Except.bind, pure, Except.pure]
        intro pre x after shape earlier
        cases pre with
        | nil =>
          cases shape
          exact ⟨none, h⟩
        | cons y pre =>
          cases shape
          obtain ⟨_, isSome⟩ := earlier head mem_cons_self
          rw [h] at isSome
          cases isSome
      | some second =>
        have later : (∃ target, collect function (head :: rest) = .ok target) ↔
            ∃ target, collect function rest = .ok target := by
          cases collected : collect function rest with
          | error error => simp [collect, h, collected, bind, Except.bind]
          | ok ys =>
            cases ys with
            | none =>
              simp [collect, h, collected, bind, Except.bind, pure, Except.pure]
            | some ys =>
              simp [collect, h, collected, bind, Except.bind, pure, Except.pure]
        rw [later, ih]
        constructor
        · intro each pre x after shape earlier
          cases pre with
          | nil =>
            cases shape
            exact ⟨some second, h⟩
          | cons y pre =>
            cases shape
            exact each pre x after rfl fun one mem =>
              earlier one (mem_cons_of_mem _ mem)
        · intro each pre x after shape earlier
          apply each (head :: pre) x after (congrArg (head :: ·) shape)
          intro one mem
          cases mem_cons.mp mem with
          | inl eq => exact ⟨second, eq ▸ h⟩
          | inr later => exact earlier one later

end Library
