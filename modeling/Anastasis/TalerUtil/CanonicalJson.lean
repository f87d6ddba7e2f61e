import Anastasis.Library.JsonLayout

/-! The canonical JSON text of the TypeScript client, over which identities are hashed. -/

set_option autoImplicit false

namespace Anastasis.TalerUtil

open Library List

/-- The strings of `JSON.stringify`: of all characters only the control characters are
written as `\u` sequences. -/
def stringify : Json.Escaping where
  escaped _ := false
  digit := Json.lowerDigit
  readable := by decide

/-- The code units in the range from U+007F on are replaced by `\u` sequences. -/
def replaceChar (char : Char) : List Char :=
  if 0x7F ≤ char.toNat then (Json.codeUnits char).flatMap (Json.escapeUnit stringify) else [char]

def utf16 (text : String) : List Nat := text.toList.flatMap Json.codeUnits

def joinItems : List (List Char) → List Char
  | [] => []
  | [item] => item
  | item :: rest => item ++ ',' :: joinItems rest

def joinMembers : List (String × List Char) → List Char
  | [] => []
  | [(key, value)] => Json.quote stringify key ++ ':' :: value
  | (key, value) :: rest => Json.quote stringify key ++ ':' :: value ++ ',' :: joinMembers rest

mutual

def canonicalChars : Json → List Char
  | .null => "null".toList
  | .boolean true => "true".toList
  | .boolean false => "false".toList
  | .number value => Json.printInt value
  | .string value => (Json.quote stringify value).flatMap replaceChar
  | .array items => '[' :: joinItems (canonicalItems items) ++ [']']
  | .object members =>
    '{' :: joinMembers (Json.sortMembers utf16 (canonicalMembers members)) ++ ['}']

def canonicalItems : List Json → List (List Char)
  | [] => []
  | item :: rest => canonicalChars item :: canonicalItems rest

def canonicalMembers : List (String × Json) → List (String × List Char)
  | [] => []
  | (key, value) :: rest => (key, canonicalChars value) :: canonicalMembers rest

end

def canonicalJson (obj : Json) : String := String.ofList (canonicalChars obj)

/-- The strings of canonical values: everything from U+007F on is escaped as well. -/
def canonicalString : Json.Escaping where
  escaped char := 0x7F ≤ char.toNat
  digit := Json.lowerDigit
  readable := by decide

def canonicalLayout : Json.Layout where
  names := stringify
  values := canonicalString

private theorem escapeUnit_plain (unit : Nat) :
    (Json.escapeUnit stringify unit).flatMap replaceChar = Json.escapeUnit stringify unit := by
  have digit : ∀ v < 16, (Json.lowerDigit v).toNat < 0x7F := by decide
  have plain (v : Nat) : replaceChar (Json.lowerDigit (v % 16)) = [Json.lowerDigit (v % 16)] :=
    if_neg (by have := digit (v % 16) (Nat.mod_lt _ (by omega)); omega)
  have backslash : replaceChar '\\' = ['\\'] := by decide
  have letter : replaceChar 'u' = ['u'] := by decide
  simp only [Json.escapeUnit, stringify, flatMap_cons, flatMap_nil, plain, backslash,
    letter, cons_append, nil_append]

private theorem shortEscape_plain {char short : Char}
    (escaped : Json.shortEscape? char = some short) : replaceChar short = [short] := by
  unfold Json.shortEscape? at escaped
  split_ifs at escaped <;> cases escaped <;> decide

private theorem escapeChar_replaced (char : Char) :
    (Json.escapeChar stringify char).flatMap replaceChar =
      Json.escapeChar canonicalString char := by
  unfold Json.escapeChar
  cases short : Json.shortEscape? char with
  | some letter =>
    have backslash : replaceChar '\\' = ['\\'] := by decide
    simp [backslash, shortEscape_plain short]
  | none =>
    have units : ((Json.codeUnits char).flatMap (Json.escapeUnit stringify)).flatMap replaceChar =
        (Json.codeUnits char).flatMap (Json.escapeUnit canonicalString) := by
      rw [flatMap_assoc]
      exact congrArg ((Json.codeUnits char).flatMap ·) (funext escapeUnit_plain)
    have kept : stringify.escaped char = false := rfl
    have replaced : canonicalString.escaped char = decide (0x7F ≤ char.toNat) := rfl
    simp only [kept, replaced, Bool.or_false]
    cases control : decide (char.toNat < 0x20) with
    | true => simpa using units
    | false =>
      have eq : Json.escapeUnit stringify = Json.escapeUnit canonicalString := rfl
      cases wide : decide (0x7F ≤ char.toNat) with
      | true => simp [replaceChar, of_decide_eq_true wide, eq]
      | false => simp [replaceChar, of_decide_eq_false wide]

theorem quote_replaced (text : String) :
    (Json.quote stringify text).flatMap replaceChar = Json.quote canonicalString text := by
  have mark : replaceChar '"' = ['"'] := by decide
  simp only [Json.quote, flatMap_cons, flatMap_append, flatMap_nil, mark,
    flatMap_assoc, escapeChar_replaced, append_nil, cons_append, nil_append]

private theorem canonicalMembers_strings (members : List (String × String)) :
    canonicalMembers (Json.strings members) =
      members.map fun mem => (mem.1, Json.quote canonicalString mem.2) := by
  induction members with
  | nil => rfl
  | cons mem rest ih =>
    have tail : canonicalMembers (rest.map fun mem => (mem.1, Json.string mem.2)) = _ := ih
    rw [Json.strings, map_cons, canonicalMembers, tail, canonicalChars, quote_replaced, map_cons]

private theorem joinMembers_strings (members : List (String × String)) :
    joinMembers (members.map fun mem => (mem.1, Json.quote canonicalString mem.2)) =
      Json.printMembers canonicalLayout (Json.strings members) := by
  induction members with
  | nil => simp [joinMembers, Json.strings, Json.printMembers]
  | cons mem rest ih =>
    cases rest with
    | nil => simp [joinMembers, Json.strings, Json.printMembers, Json.print, canonicalLayout]
    | cons next rest =>
      simp only [map_cons, Json.strings, joinMembers, Json.printMembers, Json.print] at ih ⊢
      rw [ih]
      rfl

theorem canonicalChars_strings (members : List (String × String)) :
    canonicalChars (.object (Json.strings members)) =
      Json.print canonicalLayout (.object (Json.strings (Json.sortMembers utf16 members))) := by
  rw [canonicalChars, canonicalMembers_strings, Json.sortMembers_map, joinMembers_strings,
    Json.print]

private theorem joinItems_print (items : List Json) :
    joinItems (items.map (Json.print canonicalLayout)) = Json.printItems canonicalLayout items := by
  induction items with
  | nil => rfl
  | cons item rest ih =>
    cases rest with
    | nil => rfl
    | cons next rest =>
      simp only [map_cons, joinItems, Json.printItems] at ih ⊢
      rw [ih]

private theorem joinMembers_print (members : List (String × Json)) :
    joinMembers (members.map fun mem => (mem.1, Json.print canonicalLayout mem.2)) =
      Json.printMembers canonicalLayout members := by
  induction members with
  | nil => rfl
  | cons mem rest ih =>
    cases rest with
    | nil => rfl
    | cons next rest =>
      simp only [map_cons, joinMembers, Json.printMembers] at ih ⊢
      rw [ih]
      rfl

mutual

/-- The canonical text of a value is a text of the value with its members sorted. -/
theorem canonicalChars_print : (v : Json) →
    canonicalChars v = Json.print canonicalLayout (Json.arrange utf16 v)
  | .null => rfl
  | .boolean true => rfl
  | .boolean false => rfl
  | .number _ => rfl
  | .string text => quote_replaced text
  | .array items => by
      rw [canonicalChars, canonicalItems_print, joinItems_print, Json.arrange, Json.print]
  | .object members => by
      rw [canonicalChars, canonicalMembers_print, Json.sortMembers_map, joinMembers_print,
        Json.arrange, Json.print]

theorem canonicalItems_print : (items : List Json) → canonicalItems items =
    (Json.arrangeItems utf16 items).map (Json.print canonicalLayout)
  | [] => rfl
  | item :: rest => by
      rw [canonicalItems, canonicalChars_print item, canonicalItems_print rest, Json.arrangeItems,
        map_cons]

theorem canonicalMembers_print : (members : List (String × Json)) → canonicalMembers members =
    (Json.arrangeMembers utf16 members).map fun mem => (mem.1, Json.print canonicalLayout mem.2)
  | [] => rfl
  | (name, v) :: rest => by
      rw [canonicalMembers, canonicalChars_print v, canonicalMembers_print rest,
        Json.arrangeMembers, map_cons]

end

theorem read_canonicalJson {v : Json} (distinct : Json.Distinct v) :
    Json.read (canonicalJson v).toList = some (Json.arrange utf16 v) := by
  rw [canonicalJson, String.toList_ofList, canonicalChars_print]
  exact Json.read_print canonicalLayout (Json.arrange_distinct utf16 distinct)

private theorem codeUnits_append_inj {left right : Char} {rest other : List Nat}
    (eq : Json.codeUnits left ++ rest = Json.codeUnits right ++ other) :
    left = right ∧ rest = other := by
  have leftBounds : left.toNat < 0xD800 ∨ 0xDFFF < left.toNat ∧ left.toNat < 0x110000 := left.valid
  have rightBounds : right.toNat < 0xD800 ∨ 0xDFFF < right.toNat ∧ right.toNat < 0x110000 :=
    right.valid
  have injective : left.toNat = right.toNat → left = right := fun equal =>
    Char.ext (UInt32.toNat_inj.mp equal)
  unfold Json.codeUnits at eq
  split_ifs at eq <;>
    simp only [cons_append, nil_append, List.cons.injEq] at eq
  · exact ⟨injective eq.1, eq.2⟩
  · omega
  · omega
  · exact ⟨injective (by omega), eq.2.2⟩

private theorem codeUnits_ne_nil (char : Char) : Json.codeUnits char ≠ [] := by
  unfold Json.codeUnits
  split <;> simp

theorem utf16_injective {left right : String} (eq : utf16 left = utf16 right) : left = right := by
  have chars : ∀ x second : List Char,
      x.flatMap Json.codeUnits = second.flatMap Json.codeUnits → x = second := by
    intro x
    induction x with
    | nil =>
      intro second eq
      cases second with
      | nil => rfl
      | cons head tail => simp [codeUnits_ne_nil] at eq
    | cons head tail ih =>
      intro second eq
      cases second with
      | nil => simp [codeUnits_ne_nil] at eq
      | cons head' tail' =>
        obtain ⟨rfl, tails⟩ := codeUnits_append_inj eq
        rw [ih tail' tails]
  exact String.toList_inj.mp (chars _ _ eq)

end Anastasis.TalerUtil
