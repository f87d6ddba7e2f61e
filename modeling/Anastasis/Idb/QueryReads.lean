import Anastasis.Idb.Queries
import Mathlib.Tactic.Ring

/-! What the loops of `getRecords` collect from the position they start at. -/

set_option autoImplicit false

namespace Anastasis.Idb

open Library List

variable {Key Value Item : Type}

/-- The results a request with the limit returns; no positive limit means all. -/
def limited (limit : Int) (items : List Item) : List Item :=
  if limit ≤ 0 then items else items.take limit.toNat

theorem limited_nil (limit : Int) : limited limit ([] : List Item) = [] := by
  simp [limited]

theorem map_limited {Image : Type} (limit : Int) (items : List Item) (image : Item → Image) :
    (limited limit items).map image = limited limit (items.map image) := by
  by_cases all : limit ≤ 0
  · simp [limited, all]
  · simp [limited, all, map_take]

theorem head?_limited (limit : Int) (items : List Item) :
    (limited limit items).head? = items.head? := by
  by_cases all : limit ≤ 0
  · simp [limited, all]
  · have positive : limit.toNat ≠ 0 := by omega
    simp [limited, all, head?_take, positive]

def Room (limit : Int) (found : List Item) : Prop :=
  limit ≤ 0 ∨ (found.length : Int) ≤ limit

theorem Room.nil (limit : Int) : Room limit ([] : List Item) := by
  rcases le_or_gt limit 0 with none | some
  · exact .inl none
  · exact .inr (by simpa using some.le)

theorem Room.limited {limit : Int} {found : List Item} (room : Room limit found) :
    limited limit found = found := by
  rcases room with all | fits
  · simp [Idb.limited, all]
  by_cases all : limit ≤ 0
  · simp [Idb.limited, all]
  · simp only [Idb.limited, all, if_false]
    exact take_of_length_le (by omega)

theorem Room.append {req : RecordGetRequest Key} {h : List Item}
    (room : Room req.limit h) (free : req.full h.length = false)
    (item : Item) : Room req.limit (h ++ [item]) := by
  rcases room with all | fits
  · exact .inl all
  by_cases all : req.limit ≤ 0
  · exact .inl all
  have ne : (h.length : Int) ≠ req.limit := by
    intro eq
    simp [RecordGetRequest.full, eq] at free
    omega
  apply Or.inr
  rw [length_append, length_singleton]
  push_cast
  omega

theorem limited_full {req : RecordGetRequest Key} {found : List Item}
    (full : req.full found.length = true) (more : List Item) :
    limited req.limit (found ++ more) = found := by
  simp only [RecordGetRequest.full, Bool.and_eq_true, decide_eq_true_eq] at full
  have positive : ¬ req.limit ≤ 0 := by omega
  have exactly : req.limit.toNat = found.length := by omega
  simp [limited, positive, exactly]

def pairsOf (forward : Bool) (entry : Key × List Key) : List (Key × Key) :=
  (primaryKeysFrom forward entry.2).map (entry.1, ·)

def firstPair (entry : Key × List Key) : List (Key × Key) :=
  entry.2.head?.toList.map (entry.1, ·)

theorem length_primaryKeysFrom (forward : Bool) (pks : List Key) :
    (primaryKeysFrom forward pks).length = pks.length := by
  cases forward <;> simp [primaryKeysFrom]

def rounds (entries : List (Key × List Key)) : Nat :=
  (entries.map fun entry => entry.2.length + 1).sum

variable [LinearOrder Key]

theorem compareKeys_eq_iff (x second : Key) : compareKeys x second = .eq ↔ x = second :=
  compare_eq_iff_eq

theorem compareKeys_lt_iff (x second : Key) : compareKeys x second = .lt ↔ x < second :=
  compare_lt_iff_lt

theorem compareKeys_gt_iff (first y : Key) : compareKeys first y = .gt ↔ y < first :=
  compare_gt_iff_gt

theorem compareKeys_beq_eq (x y : Key) : (compareKeys x y == .eq) = decide (x = y) := by
  rw [Bool.eq_iff_iff]
  simp [compareKeys_eq_iff]

theorem compareKeys_ne (x y : Key) : (compareKeys x y != .eq) = decide (x ≠ y) := by
  rw [bne, compareKeys_beq_eq]
  simp

variable {pre rest : List (Key × Value)}

theorem nextStoreKey_of_ordered {data : SortedMap Key Value} {forward : Bool}
    {e : Key × Value} (split : data.ordered forward = pre ++ e :: rest) :
    nextStoreKey forward data e.1 = rest.head?.map Prod.fst := by
  have next := SortedMap.nextPair_of_ordered split
  simp only [SortedMap.nextPair] at next
  rw [nextStoreKey, next]

theorem contains_of_ordered {data : SortedMap Key Value} {forward : Bool} {e : Key × Value}
    (split : data.ordered forward = pre ++ e :: rest) : data.contains e.1 = true := by
  simp [SortedMap.contains, SortedMap.get?_of_ordered split]

theorem storeLoop_walk (data : SortedMap Key Value) (req : RecordGetRequest Key) {fuel : Nat}
    {h : List Key} (split : data.ordered req.forward = pre ++ rest)
    (enough : rest.length < fuel) (room : Room req.limit h) :
    storeLoop data req fuel (rest.head?.map Prod.fst) h = some (limited req.limit (h ++
        (rest.takeWhile fun e => req.keyRange.includes e.1).map Prod.fst)) := by
  induction rest generalizing pre fuel h with
  | nil =>
    obtain ⟨fuel, rfl⟩ := Nat.exists_eq_add_one_of_ne_zero (Nat.ne_of_gt enough)
    simp [storeLoop, room.limited]
  | cons e rest ih =>
    obtain ⟨fuel, rfl⟩ := Nat.exists_eq_add_one_of_ne_zero (by omega : fuel ≠ 0)
    rw [head?_cons, Option.map_some, storeLoop]
    cases full : req.full h.length with
    | true => simp [limited_full full]
    | false =>
      cases mem : req.keyRange.includes e.1 with
      | false => simp [mem, room.limited]
      | true =>
        have again := @ih (pre ++ [e]) fuel (h ++ [e.1])
          (by simpa using split) (by simpa using enough) (room.append full e.1)
        simp only [contains_of_ordered split, nextStoreKey_of_ordered split,
          takeWhile_cons, mem, Bool.not_true, Bool.false_eq_true, if_false,
          if_true, again, map_cons, append_assoc, singleton_append]

theorem storeLoop_outside (data : SortedMap Key Value) (req : RecordGetRequest Key)
    {fuel : Nat} {pos : Key}
    (outside : req.keyRange.includes pos = false ∨ data.contains pos = false) :
    storeLoop data req (fuel + 1) (some pos) [] = some [] := by
  rw [storeLoop]
  cases req.full ([] : List Key).length with
  | true => rfl
  | false =>
    rcases outside with outside | gone
    · simp [outside]
    · simp [gone]

section Index

variable (data : SortedMap Key (List Key)) (req : RecordGetRequest Key)

theorem rounds_ordered (forward : Bool) : rounds (data.ordered forward) + 1 = indexRounds data := by
  cases forward with
  | true => rfl
  | false => simp [rounds, indexRounds, SortedMap.ordered, sum_reverse]

variable {data req}

theorem indexLoop_primaryKeys {indexKey : Key} {after : List (Key × Key)} {least : Nat}
    (mem : req.keyRange.includes indexKey = true)
    (continues : ∀ fuel h, least ≤ fuel → Room req.limit h →
      indexLoop data req fuel (some (indexKey, [])) h = some (limited req.limit (h ++ after)))
    {fuel : Nat} {remaining : List Key} {h : List (Key × Key)}
    (enough : remaining.length + least ≤ fuel) (room : Room req.limit h) :
    indexLoop data req fuel (some (indexKey, remaining)) h =
      some (limited req.limit (h ++ (remaining.map (indexKey, ·) ++ after))) := by
  induction remaining generalizing fuel h with
  | nil => simpa using continues fuel h (by simpa using enough) room
  | cons pk remaining ih =>
    simp only [length_cons] at enough
    obtain ⟨fuel, rfl⟩ := Nat.exists_eq_add_one_of_ne_zero (by omega : fuel ≠ 0)
    rw [indexLoop]
    cases full : req.full h.length with
    | true => simp [limited_full full]
    | false =>
      have again := @ih fuel (h ++ [(indexKey, pk)]) (by omega)
        (room.append full (indexKey, pk))
      simpa [mem] using again

theorem indexLoop_walk {pre rest : List (Key × List Key)} {e : Key × List Key}
    {fuel : Nat} {remaining : List Key} {h : List (Key × Key)}
    (split : data.ordered req.forward = pre ++ e :: rest)
    (enough : remaining.length + 1 + rounds rest ≤ fuel) (room : Room req.limit h) :
    indexLoop data req fuel (some (e.1, remaining)) h = some (limited req.limit (h ++
        if req.keyRange.includes e.1 then
          remaining.map (e.1, ·) ++
            (rest.takeWhile fun later => req.keyRange.includes later.1).flatMap
              (pairsOf req.forward)
        else [])) := by
  induction rest generalizing pre e fuel remaining h with
  | nil =>
    cases mem : req.keyRange.includes e.1 with
    | false =>
      obtain ⟨fuel, rfl⟩ := Nat.exists_eq_add_one_of_ne_zero (by omega : fuel ≠ 0)
      simp [indexLoop, mem, room.limited]
    | true =>
      apply @indexLoop_primaryKeys _ _ data req e.1 _ 1 mem _ _ _ _ (by omega) room
      intro fuel h positive room
      obtain ⟨fuel, rfl⟩ := Nat.exists_eq_add_one_of_ne_zero (by omega : fuel ≠ 0)
      simp [indexLoop, mem, SortedMap.nextPair_of_ordered split, room.limited]
  | cons next rest ih =>
    cases mem : req.keyRange.includes e.1 with
    | false =>
      obtain ⟨fuel, rfl⟩ := Nat.exists_eq_add_one_of_ne_zero (by omega : fuel ≠ 0)
      simp [indexLoop, mem, room.limited]
    | true =>
      simp only [rounds, map_cons, sum_cons] at enough
      apply @indexLoop_primaryKeys _ _ data req e.1 _
        (next.2.length + 1 + rounds rest + 1) mem _ _ _ _ (by simp only [rounds]; omega) room
      intro fuel h positive room
      obtain ⟨fuel, rfl⟩ := Nat.exists_eq_add_one_of_ne_zero (by omega : fuel ≠ 0)
      have again := @ih (pre ++ [e]) next fuel
        (primaryKeysFrom req.forward next.2) h (by simpa using split)
        (by rw [length_primaryKeysFrom]; omega) room
      rw [indexLoop]
      cases full : req.full h.length with
      | true => simp [limited_full full]
      | false =>
        cases nextInside : req.keyRange.includes next.1 with
        | false => simpa [mem, SortedMap.nextPair_of_ordered split, nextInside] using again
        | true =>
          simpa [mem, SortedMap.nextPair_of_ordered split, nextInside, pairsOf] using again

theorem uniqueLoop_walk (nonempty : ∀ e ∈ data.entries, e.2 ≠ [])
    {pre rest : List (Key × List Key)} {fuel : Nat} {h : List (Key × Key)}
    (split : data.ordered req.forward = pre ++ rest)
    (enough : rest.length < fuel) (room : Room req.limit h) :
    uniqueLoop data req fuel rest.head? h = some (limited req.limit (h ++
        ((rest.takeWhile fun later => req.keyRange.includes later.1).filter
          fun later => req.lastIndexPosition.all (later.1 ≠ ·)).flatMap firstPair)) := by
  induction rest generalizing pre fuel h with
  | nil =>
    obtain ⟨fuel, rfl⟩ := Nat.exists_eq_add_one_of_ne_zero (by omega : fuel ≠ 0)
    simp [uniqueLoop, room.limited]
  | cons e rest ih =>
    obtain ⟨fuel, rfl⟩ := Nat.exists_eq_add_one_of_ne_zero (by omega : fuel ≠ 0)
    rw [head?_cons, uniqueLoop]
    cases full : req.full h.length with
    | true => simp [limited_full full]
    | false =>
      cases mem : req.keyRange.includes e.1 with
      | false => simp [mem, room.limited]
      | true =>
        have stored : e ∈ data.entries := by
          apply (data.mem_ordered req.forward e).mp
          rw [split]
          exact mem_append_right _ mem_cons_self
        have continues : ∀ h, Room req.limit h → rest.head?.elim (some h)
                (fun next => uniqueLoop data req fuel (some next) h) = some (limited req.limit (h ++
                ((rest.takeWhile fun later => req.keyRange.includes later.1).filter
                  fun later => req.lastIndexPosition.all (later.1 ≠ ·)).flatMap firstPair)) := by
          intro h room
          have again := @ih (pre ++ [e]) fuel h (by simpa using split)
            (by simpa using enough) room
          cases rest with
          | nil => simp [room.limited]
          | cons next rest => simpa using again
        simp only [mem, Bool.not_true, Bool.false_eq_true, if_false,
          SortedMap.nextPair_of_ordered split, compareKeys_ne, takeWhile_cons, if_true, filter_cons]
        cases y : req.lastIndexPosition.all (e.1 ≠ ·) with
        | false =>
          have found' := continues h room
          cases rest <;> simpa [y] using found'
        | true =>
          obtain ⟨x, rest', isFirst⟩ := exists_cons_of_ne_nil (nonempty e stored)
          have one : firstPair e = [(e.1, x)] := by
            simp [firstPair, isFirst]
          have found' := continues (h ++ [(e.1, x)]) (room.append full (e.1, x))
          cases rest <;> simpa [y, isFirst, one] using found'

end Index

end Anastasis.Idb
