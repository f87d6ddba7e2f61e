import Anastasis.Library.Json

/-! Texts of one value under different orders of the members and different ways of
escaping: when they agree, and what follows from it. -/

set_option autoImplicit false

namespace Library.Json

open List

/-- Members by the order of their names; equal names keep their places. -/
def sortMembers {Value : Type} (order : String → List Nat) (members : List (String × Value)) :
    List (String × Value) :=
  members.insertionSort fun first second => order first.1 ≤ order second.1

mutual

def arrange (order : String → List Nat) : Json → Json
  | null => null
  | boolean value => boolean value
  | number value => number value
  | string value => string value
  | array items => array (arrangeItems order items)
  | object members => object (sortMembers order (arrangeMembers order members))

def arrangeItems (order : String → List Nat) : List Json → List Json
  | [] => []
  | item :: rest => arrange order item :: arrangeItems order rest

def arrangeMembers (order : String → List Nat) : List (String × Json) → List (String × Json)
  | [] => []
  | (name, value) :: rest => (name, arrange order value) :: arrangeMembers order rest

end

section Sorting

variable {Value : Type} (order : String → List Nat)

theorem sortMembers_perm (members : List (String × Value)) :
    (sortMembers order members).Perm members := perm_insertionSort _ members

theorem sortMembers_sorted (members : List (String × Value)) :
    (sortMembers order members).Pairwise fun x y => order x.1 ≤ order y.1 := by
  have total : Std.Total fun x y : String × Value => order x.1 ≤ order y.1 :=
    ⟨fun x y => le_total (order x.1) (order y.1)⟩
  have trans : IsTrans (String × Value) fun x y => order x.1 ≤ order y.1 := ⟨fun _ _ _ => le_trans⟩
  exact pairwise_insertionSort _ members

theorem sortMembers_map {Other : Type} (update : Value → Other) (members : List (String × Value)) :
    sortMembers order (members.map fun mem => (mem.1, update mem.2)) =
      (sortMembers order members).map fun mem => (mem.1, update mem.2) := by
  have mapped := map_insertionSort (fun x y : String × Value => order x.1 ≤ order y.1)
    (fun x y : String × Other => order x.1 ≤ order y.1) (fun mem => (mem.1, update mem.2)) members
  exact (mapped fun _ _ _ _ => Iff.rfl).symm

private theorem member_eq_of_name {members : List (String × Value)}
    (apart : (members.map Prod.fst).Nodup) {left right : String × Value}
    (leftMember : left ∈ members) (rightMember : right ∈ members)
    (eq : left.1 = right.1) : left = right := inj_on_of_nodup_map apart leftMember rightMember eq

/-- Sorting by two orders gives the same members exactly if the orders agree on the
names. -/
theorem sortMembers_eq_iff {x y : String → List Nat}
    (injective : ∀ left right, x left = x right → left = right)
    (injective' : ∀ left right, y left = y right → left = right)
    {members : List (String × Value)} (apart : (members.map Prod.fst).Nodup) :
    sortMembers x members = sortMembers y members ↔ ∀ left ∈ members, ∀ right ∈ members,
        (x left.1 ≤ x right.1 ↔ y left.1 ≤ y right.1) := by
  have byFirst := sortMembers_sorted x members
  have bySecond := sortMembers_sorted y members
  have perm := sortMembers_perm x members
  constructor
  · intro eq left leftMember right rightMember
    have both := byFirst.and (eq ▸ bySecond)
    let Agree (old later : String × Value) : Prop :=
      x old.1 ≤ x later.1 ↔ y old.1 ≤ y later.1
    have agree : (sortMembers x members).Pairwise Agree :=
      both.imp fun less => ⟨fun _ => less.2, fun _ => less.1⟩
    have agree' : (sortMembers x members).Pairwise (flip Agree) := by
      refine both.imp fun less => ⟨fun greater => ?_, fun greater => ?_⟩
      · rw [injective _ _ (le_antisymm less.1 greater)]
      · rw [injective' _ _ (le_antisymm less.2 greater)]
    have reflexive : ∀ member ∈ sortMembers x members, Agree member member :=
      fun member _ => by simp [Agree]
    exact agree.forall_of_forall_of_flip reflexive agree'
      (perm.mem_iff.mpr leftMember) (perm.mem_iff.mpr rightMember)
  · intro agree
    have bySecond' : (sortMembers x members).Pairwise fun old later =>
        y old.1 ≤ y later.1 :=
      byFirst.imp_of_mem fun leftMember rightMember less =>
        (agree _ (perm.mem_iff.mp leftMember) _ (perm.mem_iff.mp rightMember)).mp less
    refine List.Perm.eq_of_pairwise ?_ bySecond' bySecond
      (perm.trans (sortMembers_perm y members).symm)
    intro left right leftMember rightMember less greater
    exact member_eq_of_name apart (perm.mem_iff.mp leftMember)
      ((sortMembers_perm y members).mem_iff.mp rightMember)
      (injective' _ _ (le_antisymm less greater))

end Sorting

theorem arrangeItems_eq_map (order : String → List Nat) (items : List Json) :
    arrangeItems order items = items.map (arrange order) := by
  induction items with
  | nil => rfl
  | cons item rest ih => rw [arrangeItems, ih, map_cons]

theorem arrangeMembers_eq_map (order : String → List Nat) (members : List (String × Json)) :
    arrangeMembers order members = members.map fun mem => (mem.1, arrange order mem.2) := by
  induction members with
  | nil => rfl
  | cons mem rest ih =>
    obtain ⟨name, v⟩ := mem
    rw [arrangeMembers, ih, map_cons]

theorem arrange_of_canonical {value : Json} (canonical : Canonical value) :
    arrange bytewise value = value := by
  induction canonical with
  | null | boolean | number | string => rfl
  | array each ih =>
    rw [arrange, arrangeItems_eq_map, map_congr_left ih, List.map_id']
  | @object members ordered each ih =>
    have eq : (members.map fun mem => (mem.1, arrange bytewise mem.2)) = members := by
      calc _ = members.map id := map_congr_left fun mem inside => by
            rw [ih mem inside]; rfl
        _ = members := List.map_id members
    rw [arrange, arrangeMembers_eq_map, eq]
    exact congrArg object (List.Pairwise.insertionSort_eq (ordered.imp fun less => le_of_lt less))

theorem arrange_distinct (order : String → List Nat) {v : Json} (apart : Distinct v) :
    Distinct (arrange order v) := by
  induction apart with
  | null => exact .null
  | boolean v => exact .boolean v
  | number v => exact .number v
  | string v => exact .string v
  | array each ih =>
    rw [arrange, arrangeItems_eq_map]
    apply Distinct.array
    rw [List.forall_mem_map]
    exact ih
  | @object members apart each ih =>
    have perm := sortMembers_perm order (arrangeMembers order members)
    rw [arrange]
    apply Distinct.object
    · apply (perm.map Prod.fst).nodup_iff.mpr
      rw [arrangeMembers_eq_map, List.map_map]
      exact apart
    intro mem inside
    have original := perm.mem_iff.mp inside
    rw [arrangeMembers_eq_map] at original
    obtain ⟨src, isSource, rfl⟩ := List.mem_map.mp original
    exact ih src isSource

/-- Objects that are arranged to the same value have the same members up to arrangement. -/
theorem arrange_member {order : String → List Nat} {members ys : List (String × Json)}
    (eq : arrange order (.object members) = arrange order (.object ys)) {name : String}
    {value : Json} (mem : (name, value) ∈ members) :
    ∃ y, (name, y) ∈ ys ∧ arrange order y = arrange order value := by
  rw [arrange, arrange] at eq
  have arranged : (name, arrange order value) ∈ sortMembers order (arrangeMembers order members) := by
    apply (sortMembers_perm order _).mem_iff.mpr
    rw [arrangeMembers_eq_map]
    exact List.mem_map.mpr ⟨_, mem, rfl⟩
  rw [Json.object.inj eq] at arranged
  have original := (sortMembers_perm order _).mem_iff.mp arranged
  rw [arrangeMembers_eq_map] at original
  obtain ⟨⟨otherName, y⟩, isO, samePair⟩ := List.mem_map.mp original
  obtain ⟨rfl, sameValue⟩ := Prod.mk.inj samePair
  exact ⟨y, isO, sameValue⟩

/-- Equal values, except that the members of objects may come in another order. -/
inductive SameUpToOrder : Json → Json → Prop where
  | null : SameUpToOrder null null
  | boolean (value : Bool) : SameUpToOrder (boolean value) (boolean value)
  | number (value : Int) : SameUpToOrder (number value) (number value)
  | string (value : String) : SameUpToOrder (string value) (string value)
  | array {items others : List Json} (length : items.length = others.length)
      (each : ∀ (place : Nat) (item other : Json), items[place]? = some item →
        others[place]? = some other → SameUpToOrder item other) :
      SameUpToOrder (array items) (array others)
  | object {members others : List (String × Json)}
      (names : (members.map Prod.fst).Perm (others.map Prod.fst))
      (each : ∀ (name : String) (value other : Json), (name, value) ∈ members →
        (name, other) ∈ others → SameUpToOrder value other) :
      SameUpToOrder (object members) (object others)

section SameUpToOrder

variable {order : String → List Nat} {value v other y : Json}

theorem arrangeMembers_names (members : List (String × Json)) :
    (arrangeMembers order members).map Prod.fst = members.map Prod.fst := by
  rw [arrangeMembers_eq_map, List.map_map]
  rfl

theorem SameUpToOrder.arranged (injective : ∀ left right, order left = order right → left = right)
    (eq : SameUpToOrder v other) (apart : Distinct v) (distinct' : Distinct other) :
    arrange order v = arrange order other := by
  induction eq with
  | null | boolean | number | string => rfl
  | array length each ih =>
    cases apart with | array apart =>
    cases distinct' with | array distinct' =>
    rw [arrange, arrange, arrangeItems_eq_map, arrangeItems_eq_map, array.injEq]
    refine ext_getElem (by simpa using length) ?_
    intro place mem inside'
    rw [length_map] at mem inside'
    rw [getElem_map, getElem_map]
    exact ih place _ _ (getElem?_eq_getElem mem) (getElem?_eq_getElem inside')
      (apart _ (getElem_mem mem)) (distinct' _ (getElem_mem inside'))
  | @object members others names each ih =>
    cases apart with | object apart distinctEach =>
    cases distinct' with | object distinct' distinctEach' =>
    have nodup : ((arrangeMembers order members).map Prod.fst).Nodup :=
      arrangeMembers_names members ▸ apart
    have subset : arrangeMembers order members ⊆ arrangeMembers order others := by
      simp only [arrangeMembers_eq_map]
      rintro _ mem
      obtain ⟨⟨name, v⟩, isMember, rfl⟩ := List.mem_map.mp mem
      obtain ⟨⟨_, other⟩, isO, rfl⟩ := List.mem_map.mp (names.mem_iff.mp (mem_map_of_mem isMember))
      rw [ih _ _ _ isMember isO (distinctEach _ isMember) (distinctEach' _ isO)]
      exact mem_map_of_mem isO
    have perm := (subperm_of_subset (nodup.of_map _) subset).perm_of_length_le
      (by simpa [arrangeMembers_eq_map] using names.length_eq.ge)
    rw [arrange, arrange, object.injEq]
    refine List.Perm.eq_of_pairwise ?_ (sortMembers_sorted order _) (sortMembers_sorted order _)
      ((sortMembers_perm order _).trans (perm.trans (sortMembers_perm order _).symm))
    intro left right isLeft isRight less greater
    have isRight' := perm.mem_iff.mpr ((sortMembers_perm order _).mem_iff.mp isRight)
    exact member_eq_of_name nodup ((sortMembers_perm order _).mem_iff.mp isLeft) isRight'
      (injective _ _ (le_antisymm less greater))

end SameUpToOrder

theorem quote_append_inj {x y : Escaping} {text : String} {rest other : List Char}
    (eq : quote x text ++ rest = quote y text ++ other) :
    quote x text = quote y text ∧ rest = other := by
  have read := readString_quote x text rest
  have tails : (quote x text).drop 1 ++ rest = (quote y text).drop 1 ++ other := by
    simpa [quote] using eq
  rw [tails, readString_quote y text other] at read
  obtain ⟨_, rfl⟩ := Prod.mk.inj (Option.some.inj read)
  exact ⟨append_cancel_right eq, rfl⟩

private theorem escape_append_inj {x second : Escaping} {chars rest y : List Char}
    (eq : chars.flatMap (escapeChar x) ++ rest = chars.flatMap (escapeChar second) ++ y) :
    ∀ char ∈ chars, escapeChar x char = escapeChar second char := by
  induction chars with
  | nil => intro char mem; cases mem
  | cons head tail ih =>
    simp only [flatMap_cons, append_assoc] at eq
    have read := readChar_escapeChar x head (tail.flatMap (escapeChar x) ++ rest)
    rw [eq, readChar_escapeChar second head] at read
    have tails := (Prod.mk.inj (Option.some.inj read)).2
    intro char mem
    rcases mem_cons.mp mem with rfl | later
    · rw [tails] at eq
      exact append_cancel_right eq
    · exact ih tails.symm char later

/-- Two ways of escaping write a string alike exactly if they do so for each of its
characters. -/
theorem quote_eq_iff {x second : Escaping} {text : String} : quote x text = quote second text ↔
      ∀ char ∈ text.toList, escapeChar x char = escapeChar second char := by
  constructor
  · intro eq
    have body : text.toList.flatMap (escapeChar x) ++ ['"'] =
        text.toList.flatMap (escapeChar second) ++ ['"'] := by
      simpa [quote] using eq
    exact escape_append_inj body
  intro eq
  simp only [quote, flatMap_def]
  rw [map_congr_left eq]

def strings (members : List (String × String)) : List (String × Json) :=
  members.map fun member => (member.1, string member.2)

private theorem printMembers_cons (layout : Layout) (mem : String × String)
    (rest : List (String × String)) : printMembers layout (strings (mem :: rest)) =
      quote layout.names mem.1 ++ ':' :: (quote layout.values mem.2 ++
        if rest.isEmpty then [] else ',' :: printMembers layout (strings rest)) := by
  cases rest with
  | nil => simp [strings, printMembers, print]
  | cons next rest => simp [strings, printMembers, print]

/-- Two layouts write the same members alike exactly if they write every name and every
value alike. -/
theorem printMembers_strings_eq_iff {x y : Layout} {members : List (String × String)} :
    printMembers x (strings members) = printMembers y (strings members) ↔
      ∀ mem ∈ members, quote x.names mem.1 = quote y.names mem.1 ∧
        quote x.values mem.2 = quote y.values mem.2 := by
  induction members with
  | nil => simp [strings, printMembers]
  | cons mem rest ih =>
    rw [printMembers_cons, printMembers_cons, forall_mem_cons, ← ih]
    constructor
    · intro eq
      obtain ⟨names, tails⟩ := quote_append_inj eq
      obtain ⟨values, more⟩ := quote_append_inj (List.cons.inj tails).2
      refine ⟨⟨names, values⟩, ?_⟩
      cases rest with
      | nil => rfl
      | cons next rest => exact (List.cons.inj more).2
    · rintro ⟨⟨names, values⟩, more⟩
      rw [names, values, more]

/-- Two texts of one object of strings are the same exactly if the members come in the
same order and are written alike. -/
theorem print_strings_eq_iff {x y : Layout} {members ys : List (String × String)}
    (apart : (members.map Prod.fst).Nodup) (distinct' : (ys.map Prod.fst).Nodup) :
    print x (object (strings members)) = print y (object (strings ys)) ↔
      members = ys ∧ ∀ mem ∈ members, quote x.names mem.1 = quote y.names mem.1 ∧
          quote x.values mem.2 = quote y.values mem.2 := by
  have isDistinct : ∀ members : List (String × String), (members.map Prod.fst).Nodup →
      Distinct (object (strings members)) := by
    intro members apart
    refine .object (by simpa [strings, Function.comp_def] using apart) ?_
    intro mem inside
    obtain ⟨origin, _, rfl⟩ := List.mem_map.mp inside
    exact .string origin.2
  have injective : Function.Injective fun mem : String × String =>
      (mem.1, string mem.2) := by
    rintro ⟨_, _⟩ ⟨_, _⟩ eq
    cases eq
    rfl
  constructor
  · intro eq
    have read := read_print x (isDistinct members apart)
    rw [eq, read_print y (isDistinct ys distinct')] at read
    have equal : strings ys = strings members := object.inj (Option.some.inj read)
    cases map_injective_iff.mpr injective equal
    refine ⟨rfl, printMembers_strings_eq_iff.mp ?_⟩
    simpa [print] using eq
  · rintro ⟨rfl, alike⟩
    rw [print, print, printMembers_strings_eq_iff.mpr alike]

end Library.Json
