import Anastasis.Library.Utf8
import Mathlib.Data.List.Sort
import Mathlib.Order.Defs.LinearOrder
import Mathlib.Data.List.Lex
import Mathlib.Data.Char

/-! JSON values, their text, and a reader that undoes every way of escaping the
strings of a text. Numbers are integers. -/

set_option autoImplicit false

namespace Library

open List Option

inductive Json where
  | null
  | boolean (value : Bool)
  | number (value : Int)
  | string (value : String)
  | array (items : List Json)
  | object (members : List (String × Json))
deriving Inhabited, Repr

namespace Json

def member? : Json → String → Option Json
  | object members, name => (members.find? fun member => member.1 = name).map Prod.snd
  | _, _ => none

def string? : Json → Option String
  | string value => some value
  | _ => none

def array? : Json → Option (List Json)
  | array items => some items
  | _ => none

def number? : Json → Option Int
  | number value => some value
  | _ => none

def boolean? : Json → Option Bool
  | boolean value => some value
  | _ => none

def bytewise (name : String) : List Nat := (Utf8.encode name).map UInt8.toNat

theorem bytewise_injective {left right : String} (eq : bytewise left = bytewise right) :
    left = right := Utf8.encode_injective (map_injective_iff.mpr (fun _ _ => UInt8.toNat_inj.mp) eq)

/-- The members of every object are listed by strictly increasing names. -/
inductive Canonical : Json → Prop where
  | null : Canonical null
  | boolean (value : Bool) : Canonical (boolean value)
  | number (value : Int) : Canonical (number value)
  | string (value : String) : Canonical (string value)
  | array {items : List Json} (each : ∀ item ∈ items, Canonical item) :
      Canonical (array items)
  | object {members : List (String × Json)}
      (ordered : members.Pairwise fun earlier later => bytewise earlier.1 < bytewise later.1)
      (each : ∀ member ∈ members, Canonical member.2) : Canonical (object members)

inductive Distinct : Json → Prop where
  | null : Distinct null
  | boolean (value : Bool) : Distinct (boolean value)
  | number (value : Int) : Distinct (number value)
  | string (value : String) : Distinct (string value)
  | array {items : List Json} (each : ∀ item ∈ items, Distinct item) :
      Distinct (array items)
  | object {members : List (String × Json)} (distinct : (members.map Prod.fst).Nodup)
      (each : ∀ member ∈ members, Distinct member.2) : Distinct (object members)

theorem Canonical.distinct {value : Json} (canonical : Canonical value) : Distinct value := by
  induction canonical with
  | null => exact .null
  | boolean value => exact .boolean value
  | number value => exact .number value
  | string value => exact .string value
  | array _ ih => exact .array ih
  | object ordered _ ih =>
    refine .object (pairwise_map.mpr (ordered.imp ?_)) ih
    intro old later less equal
    exact absurd (equal ▸ less) (lt_irrefl _)

def hexValue? (char : Char) : Option Nat :=
  if '0' ≤ char ∧ char ≤ '9' then some (char.toNat - '0'.toNat)
  else if 'a' ≤ char ∧ char ≤ 'f' then some (char.toNat - 'a'.toNat + 10)
  else if 'A' ≤ char ∧ char ≤ 'F' then some (char.toNat - 'A'.toNat + 10)
  else none

/-- An escaping of strings: the characters that are written as `\u` sequences
beyond those that every text escapes, and the digits of these sequences. -/
structure Escaping where
  escaped : Char → Bool
  digit : Nat → Char
  readable : ∀ value < 16, hexValue? (digit value) = some value

def shortEscape? (char : Char) : Option Char :=
  if char = '"' then some '"'
  else if char = '\\' then some '\\'
  else if char = '\x08' then some 'b'
  else if char = '\t' then some 't'
  else if char = '\n' then some 'n'
  else if char = '\x0c' then some 'f'
  else if char = '\r' then some 'r'
  else none

def lowerDigit (digit : Nat) : Char := "0123456789abcdef".toList.getD digit '0'

def upperDigit (digit : Nat) : Char := "0123456789ABCDEF".toList.getD digit '0'

def codeUnits (char : Char) : List Nat :=
  if char.toNat < 0x10000 then [char.toNat]
  else [0xD800 + (char.toNat - 0x10000) / 0x400, 0xDC00 + (char.toNat - 0x10000) % 0x400]

def escapeUnit (escaping : Escaping) (unit : Nat) : List Char :=
  ['\\', 'u', escaping.digit (unit / 0x1000 % 16), escaping.digit (unit / 0x100 % 16),
    escaping.digit (unit / 0x10 % 16), escaping.digit (unit % 16)]

def escapeChar (escaping : Escaping) (char : Char) : List Char :=
  match shortEscape? char with
  | some short => ['\\', short]
  | none =>
    if char.toNat < 0x20 || escaping.escaped char then
      (codeUnits char).flatMap (escapeUnit escaping)
    else [char]

def quote (escaping : Escaping) (text : String) : List Char :=
  '"' :: text.toList.flatMap (escapeChar escaping) ++ ['"']

def printNat (value : Nat) : List Char := Nat.toDigits 10 value

def printInt : Int → List Char
  | .ofNat value => printNat value
  | .negSucc value => '-' :: printNat (value + 1)

/-- How member names and string values are escaped in a text without blanks. -/
structure Layout where
  names : Escaping
  values : Escaping

mutual

def print (layout : Layout) : Json → List Char
  | null => "null".toList
  | boolean true => "true".toList
  | boolean false => "false".toList
  | number value => printInt value
  | string value => quote layout.values value
  | array items => '[' :: printItems layout items ++ [']']
  | object members => '{' :: printMembers layout members ++ ['}']

def printItems (layout : Layout) : List Json → List Char
  | [] => []
  | [item] => print layout item
  | item :: rest => print layout item ++ ',' :: printItems layout rest

def printMembers (layout : Layout) : List (String × Json) → List Char
  | [] => []
  | [(name, value)] => quote layout.names name ++ ':' :: print layout value
  | (name, value) :: rest =>
    quote layout.names name ++ ':' :: print layout value ++ ',' :: printMembers layout rest

end

def readUnit : List Char → Option (Nat × List Char)
  | first :: second :: third :: fourth :: rest => do
      let first ← hexValue? first
      let second ← hexValue? second
      let third ← hexValue? third
      let fourth ← hexValue? fourth
      return (first * 0x1000 + second * 0x100 + third * 0x10 + fourth, rest)
  | _ => none

/-- The character that a `\u` sequence starts; one beyond the basic plane takes a
second sequence. -/
def readUnicode (text : List Char) : Option (Char × List Char) := do
  let (high, rest) ← readUnit text
  if 0xD800 ≤ high ∧ high < 0xDC00 then
    match rest with
    | '\\' :: 'u' :: rest =>
      let (low, rest) ← readUnit rest
      if 0xDC00 ≤ low ∧ low < 0xE000 then
        return (Char.ofNat (0x10000 + (high - 0xD800) * 0x400 + (low - 0xDC00)), rest)
      else none
    | _ => none
  else if 0xDC00 ≤ high ∧ high < 0xE000 then none
  else return (Char.ofNat high, rest)

def unescape? (char : Char) : Option Char :=
  if char = '"' then some '"'
  else if char = '\\' then some '\\'
  else if char = '/' then some '/'
  else if char = 'b' then some '\x08'
  else if char = 't' then some '\t'
  else if char = 'n' then some '\n'
  else if char = 'f' then some '\x0c'
  else if char = 'r' then some '\r'
  else none

def readChar : List Char → Option (Option Char × List Char)
  | [] => none
  | first :: rest =>
    if first = '"' then some (none, rest)
    else if first = '\\' then
      match rest with
      | [] => none
      | second :: rest =>
        if second = 'u' then (readUnicode rest).map fun (char, rest) => (some char, rest)
        else (unescape? second).map fun char => (some char, rest)
    else if first.toNat < 0x20 then none
    else some (some first, rest)

def readChars : Nat → List Char → Option (List Char × List Char)
  | 0, _ => none
  | fuel + 1, text => do
      match ← readChar text with
      | (none, rest) => return ([], rest)
      | (some char, rest) =>
        let (chars, rest) ← readChars fuel rest
        return (char :: chars, rest)

def readString (text : List Char) : Option (String × List Char) :=
  (readChars text.length text).map fun (chars, rest) => (String.ofList chars, rest)

def isBlank (char : Char) : Bool :=
  char = ' ' || char = '\t' || char = '\n' || char = '\r'

def skipBlank (text : List Char) : List Char := text.dropWhile isBlank

def readNat (text : List Char) : Option (Nat × List Char) :=
  let digits := text.takeWhile Char.isDigit
  if digits.isEmpty || digits.head? = some '0' && digits.length ≠ 1 then none
  else some (Nat.ofDigitChars 10 digits 0, text.dropWhile Char.isDigit)

def readInt : List Char → Option (Int × List Char)
  | '-' :: rest => (readNat rest).map fun (value, rest) => (-(value : Int), rest)
  | text => (readNat text).map fun (value, rest) => ((value : Int), rest)

def readLiteral (literal : String) (value : Json) (text : List Char) :
    Option (Json × List Char) :=
  if literal.toList.isPrefixOf text then some (value, text.drop literal.toList.length) else none

/-- A name that occurs again keeps its place and takes the later value. -/
def setMember : List (String × Json) → String → Json → List (String × Json)
  | [], name, value => [(name, value)]
  | (found, old) :: rest, name, value =>
    if found = name then (found, value) :: rest
    else (found, old) :: setMember rest name value

def ofMembers (members : List (String × Json)) : Json :=
  object (members.foldl (fun known member => setMember known member.1 member.2) [])

mutual

def readValue : Nat → List Char → Option (Json × List Char)
  | 0, _ => none
  | fuel + 1, text =>
    match skipBlank text with
    | [] => none
    | first :: rest =>
      if first = '"' then (readString rest).map fun (value, rest) => (string value, rest)
      else if first = '[' then
        match skipBlank rest with
        | ']' :: rest => some (array [], rest)
        | rest => (readItems fuel rest).map fun (items, rest) => (array items, rest)
      else if first = '{' then
        match skipBlank rest with
        | '}' :: rest => some (object [], rest)
        | rest => (readMembers fuel rest).map fun (members, rest) => (ofMembers members, rest)
      else if first = 'n' then readLiteral "null" null (first :: rest)
      else if first = 't' then readLiteral "true" (boolean true) (first :: rest)
      else if first = 'f' then readLiteral "false" (boolean false) (first :: rest)
      else (readInt (first :: rest)).map fun (value, rest) => (number value, rest)

def readItems : Nat → List Char → Option (List Json × List Char)
  | 0, _ => none
  | fuel + 1, text => do
      let (item, rest) ← readValue fuel text
      match skipBlank rest with
      | ']' :: rest => return ([item], rest)
      | ',' :: rest =>
        let (items, rest) ← readItems fuel rest
        return (item :: items, rest)
      | _ => none

def readMembers : Nat → List Char → Option (List (String × Json) × List Char)
  | 0, _ => none
  | fuel + 1, text =>
    match skipBlank text with
    | '"' :: rest => do
        let (name, rest) ← readString rest
        match skipBlank rest with
        | ':' :: rest =>
          let (value, rest) ← readValue fuel rest
          match skipBlank rest with
          | '}' :: rest => return ([(name, value)], rest)
          | ',' :: rest =>
            let (members, rest) ← readMembers fuel rest
            return ((name, value) :: members, rest)
          | _ => none
        | _ => none
    | _ => none

end

def read (text : List Char) : Option Json := do
  let (value, rest) ← readValue (text.length * 2 + 2) text
  if (skipBlank rest).isEmpty then return value else none

private theorem readUnit_escapeUnit (escaping : Escaping) (unit : Nat) (small : unit < 0x10000)
    (rest : List Char) :
    readUnit ((escapeUnit escaping unit).drop 2 ++ rest) = some (unit, rest) := by
  have digit (v : Nat) : hexValue? (escaping.digit (v % 16)) = some (v % 16) :=
    escaping.readable _ (Nat.mod_lt _ (by omega))
  simp only [escapeUnit, drop_succ_cons, drop_zero, cons_append,
    nil_append, readUnit, digit, bind_eq_bind, bind_some, Option.pure_def,
    Option.some.injEq, Prod.mk.injEq, and_true]
  omega

private theorem toNat_bounds (char : Char) :
    char.toNat < 0xD800 ∨ 0xDFFF < char.toNat ∧ char.toNat < 0x110000 := char.valid

private theorem codeUnits_surrogates (char : Char) (supplementary : ¬ char.toNat < 0x10000) :
    ∃ high low, codeUnits char = [high, low] ∧ (0xD800 ≤ high ∧ high < 0xDC00) ∧
      (0xDC00 ≤ low ∧ low < 0xE000) ∧
      0x10000 + (high - 0xD800) * 0x400 + (low - 0xDC00) = char.toNat := by
  have bounds := toNat_bounds char
  refine ⟨0xD800 + (char.toNat - 0x10000) / 0x400, 0xDC00 + (char.toNat - 0x10000) % 0x400,
    if_neg supplementary, ?_, ?_, ?_⟩ <;> omega

private theorem readUnicode_codeUnits (escaping : Escaping) (char : Char) (rest : List Char) :
    readUnicode (((codeUnits char).flatMap (escapeUnit escaping)).drop 2 ++ rest) =
      some (char, rest) := by
  have bounds := toNat_bounds char
  by_cases basic : char.toNat < 0x10000
  · have unit := readUnit_escapeUnit escaping char.toNat basic rest
    have notHigh : ¬ (0xD800 ≤ char.toNat ∧ char.toNat < 0xDC00) := by omega
    have notLow : ¬ (0xDC00 ≤ char.toNat ∧ char.toNat < 0xE000) := by omega
    simp only [codeUnits, basic, if_true, flatMap_cons, flatMap_nil,
      append_nil, readUnicode, unit, bind_eq_bind, bind_some, notHigh,
      notLow, if_false, Char.ofNat_toNat, Option.pure_def]
  obtain ⟨high, low, units, highBounds, lowBounds, joined⟩ := codeUnits_surrogates char basic
  have split : ((codeUnits char).flatMap (escapeUnit escaping)).drop 2 ++ rest =
      (escapeUnit escaping high).drop 2 ++
        ('\\' :: 'u' :: ((escapeUnit escaping low).drop 2 ++ rest)) := by
    simp [units, escapeUnit]
  rw [split]
  simp only [readUnicode, readUnit_escapeUnit escaping high (by omega), bind_eq_bind,
    bind_some, if_pos highBounds, readUnit_escapeUnit escaping low (by omega),
    if_pos lowBounds, joined, Char.ofNat_toNat, Option.pure_def]

private theorem unescape?_shortEscape {char short : Char}
    (escaped : shortEscape? char = some short) : short ≠ 'u' ∧ unescape? short = some char := by
  unfold shortEscape? at escaped
  split_ifs at escaped with h1 h2 h3 h4 h5 h6 h7 <;>
    · cases escaped
      subst char
      exact ⟨by decide, by decide⟩

theorem readChar_escapeChar (escaping : Escaping) (char : Char) (rest : List Char) :
    readChar (escapeChar escaping char ++ rest) = some (some char, rest) := by
  cases short : shortEscape? char with
  | some letter =>
    obtain ⟨notUnicode, back⟩ := unescape?_shortEscape short
    simp [escapeChar, short, readChar, notUnicode, back]
  | none =>
    by_cases long : (decide (char.toNat < 0x20) || escaping.escaped char) = true
    · have units : ∃ digits, (codeUnits char).flatMap (escapeUnit escaping) =
          '\\' :: 'u' :: digits := by
        unfold codeUnits escapeUnit
        split <;> exact ⟨_, rfl⟩
      obtain ⟨digits, shape⟩ := units
      have unicode := readUnicode_codeUnits escaping char rest
      simp only [shape, drop_succ_cons, drop_zero] at unicode
      simp [escapeChar, short, long, shape, readChar, unicode]
    · have plain : char ≠ '"' ∧ char ≠ '\\' := by
        constructor <;> (rintro rfl; simp [shortEscape?] at short)
      have written : escapeChar escaping char = [char] := by
        simp only [escapeChar, short, if_neg long]
      have printable : ¬ char.toNat < 0x20 := by
        intro control
        simp [control] at long
      simp only [written, cons_append, nil_append, readChar, if_neg plain.1,
        if_neg plain.2, if_neg printable]

private theorem escapeChar_ne_nil (escaping : Escaping) (char : Char) :
    0 < (escapeChar escaping char).length := by
  unfold escapeChar codeUnits escapeUnit
  split
  · simp
  · split_ifs <;> simp

private theorem readChars_escape (escaping : Escaping) (chars rest : List Char) (fuel : Nat)
    (enough : chars.length < fuel) :
    readChars fuel (chars.flatMap (escapeChar escaping) ++ '"' :: rest) = some (chars, rest) := by
  induction chars generalizing fuel with
  | nil =>
    cases fuel with
    | zero => simp at enough
    | succ fuel => simp [readChars, readChar]
  | cons char chars ih =>
    cases fuel with
    | zero => simp at enough
    | succ fuel =>
      rw [flatMap_cons, append_assoc]
      simp only [readChars, readChar_escapeChar, bind_eq_bind, bind_some,
        ih fuel (by simpa using enough), Option.pure_def]

theorem readString_quote (escaping : Escaping) (text : String) (rest : List Char) :
    readString ((quote escaping text).drop 1 ++ rest) = some (text, rest) := by
  have longer : text.toList.length ≤ (text.toList.flatMap (escapeChar escaping)).length := by
    induction text.toList with
    | nil => simp
    | cons char chars ih =>
      have pos := escapeChar_ne_nil escaping char
      simp only [flatMap_cons, length_append, length_cons]
      omega
  have body : (quote escaping text).drop 1 ++ rest =
      text.toList.flatMap (escapeChar escaping) ++ '"' :: rest := by
    simp [quote]
  rw [body, readString, readChars_escape escaping text.toList rest _ (by
    simp only [length_append, length_cons]; omega)]
  simp

def Ends (rest : List Char) : Prop :=
  ∀ char tail, rest = char :: tail → char.isDigit = false

private theorem head?_toDigits (v : Nat) (pos : 0 < v) :
    (Nat.toDigits 10 v).head? ≠ some '0' := by
  induction v using Nat.strong_induction_on with
  | _ v ih =>
    by_cases small : v < 10
    · rw [Nat.toDigits_of_lt_base small]
      have leading : ∀ digit < 10, 0 < digit → [digit.digitChar].head? ≠ some '0' := by
        decide
      exact leading v small pos
    rw [Nat.toDigits_of_base_le (by omega) (by omega),
      head?_append_of_ne_nil _ Nat.toDigits_ne_nil]
    exact ih (v / 10) (by omega) (by omega)

private theorem readNat_printNat (value : Nat) (rest : List Char) (ends : Ends rest) :
    readNat (printNat value ++ rest) = some (value, rest) := by
  have digits : ∀ char ∈ printNat value, char.isDigit = true := fun char mem =>
    Nat.isDigit_of_mem_toDigits (by omega) (by omega) mem
  have stops : rest.takeWhile Char.isDigit = [] ∧ rest.dropWhile Char.isDigit = rest := by
    cases rest with
    | nil => simp
    | cons char tail => simp [ends char tail rfl]
  have taken : (printNat value ++ rest).takeWhile Char.isDigit = printNat value := by
    rw [takeWhile_append_of_pos digits, stops.1, append_nil]
  have dropped : (printNat value ++ rest).dropWhile Char.isDigit = rest := by
    rw [dropWhile_append_of_pos digits, stops.2]
  have nonempty : (printNat value).isEmpty = false := by
    simp [printNat, Nat.toDigits_ne_nil]
  have plain : ¬ ((printNat value).head? = some '0' ∧ (printNat value).length ≠ 1) := by
    rintro ⟨zero, long⟩
    rcases Nat.eq_zero_or_pos value with none | pos
    · subst none
      exact long (by decide)
    · exact head?_toDigits value pos zero
  have spelled : Nat.ofDigitChars 10 (printNat value) 0 = value := Nat.ofDigitChars_ten_toDigits
  simp only [readNat, taken, dropped, nonempty, Bool.false_or, spelled]
  rw [if_neg (by simpa using plain)]

private theorem printNat_head (value : Nat) :
    ∃ char tail, printNat value = char :: tail ∧ char.isDigit = true := by
  cases shape : printNat value with
  | nil => exact absurd shape Nat.toDigits_ne_nil
  | cons char tail =>
    have mem : char ∈ Nat.toDigits 10 value := by
      rw [← printNat, shape]
      exact mem_cons_self
    exact ⟨char, tail, rfl, Nat.isDigit_of_mem_toDigits (by omega) (by omega) mem⟩

private theorem readInt_printInt (v : Int) (rest : List Char) (ends : Ends rest) :
    readInt (printInt v ++ rest) = some (v, rest) := by
  cases v with
  | ofNat v =>
    obtain ⟨char, tail, shape, digit⟩ := printNat_head v
    have read := readNat_printNat v rest ends
    simp only [printInt, shape, cons_append] at read ⊢
    have pos : char ≠ '-' := by
      rintro rfl
      exact absurd digit (by decide)
    unfold readInt
    split
    · rename_i equal
      exact absurd (List.cons.inj equal).1 pos
    · simp [read]
  | negSucc v =>
    simp only [printInt, cons_append, readInt, readNat_printNat (v + 1) rest ends, map_some]
    rfl

private theorem setMember_append (has : List (String × Json)) (name : String) (v : Json)
    (fresh : name ∉ has.map Prod.fst) : setMember has name v = has ++ [(name, v)] := by
  induction has with
  | nil => rfl
  | cons e rest ih =>
    simp only [map_cons, mem_cons, not_or] at fresh
    simp only [setMember, if_neg (Ne.symm fresh.1), ih fresh.2, cons_append]

private theorem foldl_setMember (known members : List (String × Json))
    (apart : ((known ++ members).map Prod.fst).Nodup) :
    members.foldl (fun known mem => setMember known mem.1 mem.2) known = known ++ members := by
  induction members generalizing known with
  | nil => simp
  | cons mem rest ih =>
    have fresh : mem.1 ∉ known.map Prod.fst := by
      rw [map_append, nodup_append] at apart
      intro has
      exact apart.2.2 _ has _ (by simp) rfl
    rw [foldl_cons, setMember_append known _ _ fresh, ih _ (by simpa [append_assoc] using apart)]
    simp

theorem ofMembers_of_distinct {members : List (String × Json)}
    (apart : (members.map Prod.fst).Nodup) : ofMembers members = object members := by
  rw [ofMembers, foldl_setMember [] members (by simpa using apart), nil_append]

/-- How the text of a value starts; the reader tells the kinds of values apart by it. -/
private inductive Starts : Json → Char → Prop where
  | null : Starts null 'n'
  | isTrue : Starts (boolean true) 't'
  | isFalse : Starts (boolean false) 'f'
  | minus (value : Int) : Starts (number value) '-'
  | digit (value : Int) {char : Char} (digit : char.isDigit = true) : Starts (number value) char
  | string (value : String) : Starts (string value) '"'
  | array (items : List Json) : Starts (array items) '['
  | object (members : List (String × Json)) : Starts (object members) '{'

private theorem print_starts (layout : Layout) (value : Json) :
    ∃ char tail, print layout value = char :: tail ∧ Starts value char := by
  cases value with
  | null => exact ⟨'n', "ull".toList, by simp [print], .null⟩
  | boolean value =>
    cases value
    · exact ⟨'f', "alse".toList, by simp [print], .isFalse⟩
    · exact ⟨'t', "rue".toList, by simp [print], .isTrue⟩
  | number value =>
    cases value with
    | ofNat value =>
      obtain ⟨char, tail, shape, digit⟩ := printNat_head value
      exact ⟨char, tail, by simpa [print, printInt] using shape, .digit _ digit⟩
    | negSucc value => exact ⟨'-', printNat (value + 1), by rw [print, printInt], .minus _⟩
  | string value => exact ⟨'"', _, by rw [print, quote, cons_append], .string value⟩
  | array items => exact ⟨'[', _, by rw [print, cons_append], .array items⟩
  | object members => exact ⟨'{', _, by rw [print, cons_append], .object members⟩

private theorem digit_facts {char : Char} (digit : char.isDigit = true) :
    isBlank char = false ∧ char ≠ '"' ∧ char ≠ '[' ∧ char ≠ ']' ∧ char ≠ '{' ∧ char ≠ 'n' ∧
      char ≠ 't' ∧ char ≠ 'f' := by
  refine ⟨?_, ?_, ?_, ?_, ?_, ?_, ?_, ?_⟩
  · by_contra blank
    simp only [isBlank, Bool.not_eq_false, Bool.or_eq_true, decide_eq_true_eq] at blank
    rcases blank with ((rfl | rfl) | rfl) | rfl <;> exact absurd digit (by decide)
  all_goals
    rintro rfl
    exact absurd digit (by decide)

private theorem Starts.notBlank {v : Json} {char : Char} (starts : Starts v char) :
    isBlank char = false ∧ char ≠ ']' := by
  cases starts with
  | digit _ digit => exact ⟨(digit_facts digit).1, (digit_facts digit).2.2.2.1⟩
  | null | isTrue | isFalse | minus | string | array | object => decide

private theorem skipBlank_print (layout : Layout) (v : Json) (rest : List Char) :
    skipBlank (print layout v ++ rest) = print layout v ++ rest := by
  obtain ⟨char, tail, shape, starts⟩ := print_starts layout v
  simp [shape, skipBlank, starts.notBlank.1]

private theorem readLiteral_self (literal : String) (v : Json) (rest : List Char) :
    readLiteral literal v (literal.toList ++ rest) = some (v, rest) := by
  simp [readLiteral]

private theorem ends_cons {char : Char} (notDigit : char.isDigit = false) (rest : List Char) :
    Ends (char :: rest) := by
  intro x tail equal
  cases equal
  exact notDigit

private theorem Distinct.items {items : List Json} (apart : Distinct (Json.array items)) :
    ∀ item ∈ items, Distinct item := by
  cases apart with
  | array each => exact each

private theorem Distinct.members {members : List (String × Json)}
    (apart : Distinct (Json.object members)) :
    (members.map Prod.fst).Nodup ∧ ∀ mem ∈ members, Distinct mem.2 := by
  cases apart with
  | object apart each => exact ⟨apart, each⟩

private theorem printItems_starts (layout : Layout) (item : Json) (items : List Json)
    (rest : List Char) : ∃ char tail, printItems layout (item :: items) ++ rest = char :: tail ∧
      isBlank char = false ∧ char ≠ ']' := by
  obtain ⟨char, tail, shape, starts⟩ := print_starts layout item
  cases items with
  | nil => exact ⟨char, _, by rw [printItems, shape, cons_append], starts.notBlank⟩
  | cons next more =>
    exact ⟨char, _, by simp only [printItems, shape, cons_append]; rfl,
      starts.notBlank⟩

private theorem printMembers_starts (layout : Layout) (mem : String × Json)
    (members : List (String × Json)) (rest : List Char) :
    ∃ tail, printMembers layout (mem :: members) ++ rest = '"' :: tail := by
  cases members with
  | nil => exact ⟨_, by simp only [printMembers, quote, cons_append]; rfl⟩
  | cons next more =>
    exact ⟨_, by simp only [printMembers, quote, cons_append]; rfl⟩

mutual

/-- A printed value is read back, whatever follows it. Reading a value or a member
list takes one round of fuel beyond twice the length of the text. -/
theorem readValue_print (layout : Layout) : (v : Json) → Distinct v →
    ∀ (fuel : Nat) (rest : List Char), Ends rest → 2 * (print layout v ++ rest).length < fuel →
      readValue fuel (print layout v ++ rest) = some (v, rest)
  | v, apart, 0, rest, ends, enough => by omega
  | .null, _, fuel + 1, rest, _, _ => by
      have literal := readLiteral_self "null" .null rest
      simp only [readValue, skipBlank_print]
      simpa [print] using literal
  | .boolean true, _, fuel + 1, rest, _, _ => by
      have literal := readLiteral_self "true" (.boolean true) rest
      simp only [readValue, skipBlank_print]
      simpa [print] using literal
  | .boolean false, _, fuel + 1, rest, _, _ => by
      have literal := readLiteral_self "false" (.boolean false) rest
      simp only [readValue, skipBlank_print]
      simpa [print] using literal
  | .number v, _, fuel + 1, rest, ends, _ => by
      have read := readInt_printInt v rest ends
      obtain ⟨char, tail, shape, starts⟩ := print_starts layout (.number v)
      have ys : char ≠ '"' ∧ char ≠ '[' ∧ char ≠ '{' ∧ char ≠ 'n' ∧ char ≠ 't' ∧ char ≠ 'f' := by
        cases starts with
        | minus => decide
        | digit _ digit =>
          obtain ⟨_, notQuote, notArray, _, notObject, notNull, notTrue, notFalse⟩ :=
            digit_facts digit
          exact ⟨notQuote, notArray, notObject, notNull, notTrue, notFalse⟩
      obtain ⟨notQuote, notArray, notObject, notNull, notTrue, notFalse⟩ := ys
      simp only [readValue, skipBlank_print]
      rw [print] at shape ⊢
      simp only [shape, cons_append] at read ⊢
      simp only [if_neg notQuote, if_neg notArray, if_neg notObject, if_neg notNull,
        if_neg notTrue, if_neg notFalse, read, map_some]
  | .string v, _, fuel + 1, rest, _, _ => by
      have read := readString_quote layout.values v rest
      simp only [readValue, skipBlank_print]
      rw [print]
      simp only [quote, cons_append, drop_succ_cons, drop_zero] at read ⊢
      simp only [if_true, read, map_some]
  | .array [], _, fuel + 1, rest, _, _ => by
      simp [readValue, print, printItems, skipBlank, isBlank]
  | .array (item :: items), apart, fuel + 1, rest, _, enough => by
      have read := readItems_print layout item items (apart.items) fuel rest (by
        simp only [print, cons_append, length_cons, append_assoc, nil_append] at enough ⊢
        omega)
      obtain ⟨char, tail, shape, notBlank, notEnd⟩ :=
        printItems_starts layout item items (']' :: rest)
      simp only [readValue, skipBlank_print]
      rw [print]
      simp only [cons_append, append_assoc, nil_append, shape] at read ⊢
      simp [skipBlank, notBlank, notEnd, read]
  | .object [], _, fuel + 1, rest, _, _ => by
      simp [readValue, print, printMembers, skipBlank, isBlank]
  | .object (mem :: members), apart, fuel + 1, rest, _, enough => by
      have read := readMembers_print layout mem members apart.members.2 fuel rest (by
        simp only [print, cons_append, length_cons, append_assoc, nil_append] at enough ⊢
        omega)
      obtain ⟨tail, shape⟩ := printMembers_starts layout mem members ('}' :: rest)
      simp only [readValue, skipBlank_print]
      rw [print]
      simp only [cons_append, append_assoc, nil_append, shape] at read ⊢
      simp [skipBlank, isBlank, read, ofMembers_of_distinct apart.members.1]

theorem readItems_print (layout : Layout) : (item : Json) → (items : List Json) →
    (∀ each ∈ item :: items, Distinct each) → ∀ (fuel : Nat) (rest : List Char),
      2 * (printItems layout (item :: items) ++ ']' :: rest).length + 1 < fuel →
      readItems fuel (printItems layout (item :: items) ++ ']' :: rest) = some (item :: items, rest)
  | _, _, _, 0, rest, enough => by omega
  | item, [], apart, fuel + 1, rest, enough => by
      have read := readValue_print layout item (apart item (by simp)) fuel (']' :: rest)
        (ends_cons (by decide) rest) (by simp only [printItems] at enough; omega)
      simp [readItems, printItems, read, skipBlank, isBlank]
  | item, next :: items, apart, fuel + 1, rest, enough => by
      have read := readValue_print layout item (apart item (by simp)) fuel
        (',' :: (printItems layout (next :: items) ++ ']' :: rest)) (ends_cons (by decide) _) (by
          simp only [printItems, append_assoc, cons_append] at enough
          omega)
      have more := readItems_print layout next items
        (fun each mem => apart each (mem_cons_of_mem _ mem)) fuel rest (by
          simp only [printItems, append_assoc, cons_append, length_append, length_cons] at enough ⊢
          omega)
      simp only [readItems, printItems, append_assoc, cons_append, read, bind_eq_bind, bind_some]
      simp [skipBlank, isBlank, more]

theorem readMembers_print (layout : Layout) : (mem : String × Json) →
    (members : List (String × Json)) → (∀ each ∈ mem :: members, Distinct each.2) →
    ∀ (fuel : Nat) (rest : List Char),
      2 * (printMembers layout (mem :: members) ++ '}' :: rest).length < fuel →
      readMembers fuel (printMembers layout (mem :: members) ++ '}' :: rest) =
        some (mem :: members, rest)
  | _, _, _, 0, rest, enough => by omega
  | (name, v), [], apart, fuel + 1, rest, enough => by
      have key := readString_quote layout.names name (':' :: (print layout v ++ '}' :: rest))
      have read := readValue_print layout v (apart (name, v) (by simp)) fuel
        ('}' :: rest) (ends_cons (by decide) rest) (by
          simp only [printMembers, append_assoc, cons_append, length_append,
            length_cons] at enough ⊢
          omega)
      simp only [quote, cons_append, append_assoc, nil_append, drop_succ_cons, drop_zero] at key
      simp only [readMembers, printMembers, quote, cons_append, append_assoc, nil_append]
      simp [skipBlank, isBlank, key, read]
  | (name, v), next :: members, apart, fuel + 1, rest, enough => by
      have key := readString_quote layout.names name (':' :: (print layout v ++
        ',' :: (printMembers layout (next :: members) ++ '}' :: rest)))
      have read := readValue_print layout v (apart (name, v) (by simp)) fuel
        (',' :: (printMembers layout (next :: members) ++ '}' :: rest))
        (ends_cons (by decide) _) (by
          simp only [printMembers, append_assoc, cons_append, length_append,
            length_cons] at enough ⊢
          omega)
      have more := readMembers_print layout next members
        (fun each mem => apart each (mem_cons_of_mem _ mem)) fuel rest (by
          simp only [printMembers, append_assoc, cons_append, length_append,
            length_cons] at enough ⊢
          omega)
      simp only [quote, cons_append, append_assoc, nil_append, drop_succ_cons, drop_zero] at key
      simp only [readMembers, printMembers, quote, cons_append, append_assoc, nil_append]
      simp [skipBlank, isBlank, key, read, more]

end

theorem read_print (layout : Layout) {value : Json} (apart : Distinct value) :
    read (print layout value) = some value := by
  have spelled := readValue_print layout value apart (2 * (print layout value).length + 2) []
    (fun _ _ no => by cases no) (by simp)
  rw [append_nil] at spelled
  rw [read, Nat.mul_comm, spelled]
  rfl

/-- Members stay ordered by their names; a name that is present takes the value. -/
def insertMember (name : String) (value : Json) : List (String × Json) → List (String × Json)
  | [] => [(name, value)]
  | (found, old) :: rest =>
    if bytewise name < bytewise found then (name, value) :: (found, old) :: rest
    else if name = found then (name, value) :: rest
    else (found, old) :: insertMember name value rest

/-- An object with the given fields, the first of each name, in canonical order. -/
def ofFields (fields : List (String × Json)) : Json :=
  object (fields.foldr (fun field members => insertMember field.1 field.2 members) [])

private theorem mem_insertMember {name : String} {v : Json} {members : List (String × Json)}
    {mem : String × Json} (has : mem ∈ insertMember name v members) :
    mem = (name, v) ∨ mem ∈ members := by
  induction members with
  | nil => exact .inl (by simpa [insertMember] using has)
  | cons e rest ih =>
    simp only [insertMember] at has
    split_ifs at has
    · exact mem_cons.mp has
    · rcases mem_cons.mp has with equal | later
      · exact .inl equal
      · exact .inr (mem_cons_of_mem _ later)
    rcases mem_cons.mp has with equal | later
    · exact .inr (equal ▸ mem_cons_self)
    · exact (ih later).imp id (mem_cons_of_mem _)

private theorem insertMember_ordered {members : List (String × Json)}
    (ordered : members.Pairwise fun old later => bytewise old.1 < bytewise later.1)
    (name : String) (v : Json) :
    (insertMember name v members).Pairwise fun old later => bytewise old.1 < bytewise later.1 := by
  induction members with
  | nil => simp [insertMember]
  | cons e rest ih =>
    obtain ⟨above, tail⟩ := pairwise_cons.mp ordered
    simp only [insertMember]
    split_ifs with less eq
    · refine pairwise_cons.mpr ⟨?_, ordered⟩
      intro mem has
      rcases mem_cons.mp has with rfl | later
      · exact less
      · exact less.trans (above mem later)
    · subst eq
      exact pairwise_cons.mpr ⟨above, tail⟩
    refine pairwise_cons.mpr ⟨?_, ih tail⟩
    intro mem has
    rcases mem_insertMember has with rfl | later
    · exact lt_of_le_of_ne (not_lt.mp less) fun equal => eq (bytewise_injective equal.symm)
    · exact above mem later

theorem canonical_ofFields {fields : List (String × Json)}
    (each : ∀ field ∈ fields, Canonical field.2) : Canonical (ofFields fields) := by
  have both : (fields.foldr (fun field members => insertMember field.1 field.2 members) []).Pairwise
        (fun old later => bytewise old.1 < bytewise later.1) ∧
      ∀ mem ∈ fields.foldr (fun field members => insertMember field.1 field.2 members) [],
        Canonical mem.2 := by
    induction fields with
    | nil => simp
    | cons field rest ih =>
      obtain ⟨ordered, canonical⟩ := ih fun y mem =>
        each y (mem_cons_of_mem _ mem)
      refine ⟨insertMember_ordered ordered field.1 field.2, ?_⟩
      intro mem has
      rcases mem_insertMember has with rfl | old
      · exact each field mem_cons_self
      · exact canonical mem old
  exact .object both.1 both.2

private theorem find?_insertMember {members : List (String × Json)}
    (ordered : members.Pairwise fun earlier later => bytewise earlier.1 < bytewise later.1)
    (name other : String) (v : Json) :
    (insertMember name v members).find? (fun mem => mem.1 = other) =
      if name = other then some (name, v)
      else members.find? fun mem => mem.1 = other := by
  induction members with
  | nil => simp [insertMember, find?_cons]; split <;> simp_all
  | cons e rest ih =>
    obtain ⟨h, old⟩ := e
    obtain ⟨above, tail⟩ := pairwise_cons.mp ordered
    simp only [insertMember]
    by_cases less : bytewise name < bytewise h
    · rw [if_pos less, find?_cons]
      by_cases hit : name = other <;> simp [hit]
    rw [if_neg less]
    by_cases eq : name = h
    · subst eq
      by_cases hit : name = other <;> simp [hit]
    rw [if_neg eq, find?_cons, find?_cons, ih tail]
    by_cases hit : name = other
    · subst hit
      simp [Ne.symm eq]
    · simp [hit]

theorem member?_ofFields (fields : List (String × Json)) (name : String) :
    (ofFields fields).member? name = (fields.find? fun field => field.1 = name).map Prod.snd := by
  have ordered : ∀ fields : List (String × Json),
      (fields.foldr (fun field members => insertMember field.1 field.2 members) []).Pairwise
        (fun old later => bytewise old.1 < bytewise later.1) := by
    intro fields
    induction fields with
    | nil => simp
    | cons field rest ih => exact insertMember_ordered ih field.1 field.2
  simp only [ofFields, member?]
  congr 1
  induction fields with
  | nil => simp
  | cons field rest ih =>
    rw [foldr_cons, find?_insertMember (ordered rest), ih]
    obtain ⟨h, v⟩ := field
    by_cases eq : h = name <;> simp [eq]

end Json

end Library
