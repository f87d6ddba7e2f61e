import Anastasis.Client.Crypto
import Anastasis.Core.Crypto
import Anastasis.Library.Record

/-! The identity that a user has at a provider: when the two clients derive the same. -/

set_option autoImplicit false

namespace Anastasis

open Library
open TalerUtil
open Client (HexDigits Host ProviderSalt jansson janssonDumps)

def identityAttributes (attributes : Record String String) : Json :=
  .object (Json.strings attributes.entries)

/-- A control character of a name or a value that has no short escape is written with the
digits that `JSON.stringify` uses. -/
def SameControls (hex : HexDigits) (text : String) : Prop :=
  ∀ char ∈ text.toList, char.toNat < 0x20 → Json.shortEscape? char = none →
    hex.digit (char.toNat % 16) = Json.lowerDigit (char.toNat % 16)

structure Portable (hex : HexDigits) (attributes : Record String String) : Prop where
  ascii : ∀ member ∈ attributes.entries, ∀ char ∈ member.2.toList, char.toNat < 0x7F
  order : ∀ left ∈ attributes.entries, ∀ right ∈ attributes.entries,
    (utf16 left.1 ≤ utf16 right.1 ↔ Json.bytewise left.1 ≤ Json.bytewise right.1)
  controls : ∀ member ∈ attributes.entries,
    SameControls hex member.1 ∧ SameControls hex member.2

private theorem decimal_digit (hex : HexDigits) :
    ∀ value < 10, hex.digit value = Json.lowerDigit value := by
  intro value small
  have decimals : ∀ value < 10, (Json.lowerDigit value).toNat = value + '0'.toNat := by decide
  have read := hex.readable value (by omega)
  generalize hex.digit value = digit at read
  have eq : digit.toNat = value + '0'.toNat := by
    unfold Json.hexValue? at read
    split_ifs at read with decimal lower upper
    · have atLeast : '0'.toNat ≤ digit.toNat := decimal.1
      simp only [Option.some.injEq] at read
      omega
    · simp only [Option.some.injEq] at read
      omega
    · simp only [Option.some.injEq] at read
      omega
  exact Char.ext (UInt32.toNat_inj.mp (eq.trans (decimals value small).symm))

private theorem escapeUnit_eq_iff (hex : HexDigits) {unit : Nat} (control : unit < 0x20) :
    Json.escapeUnit stringify unit = Json.escapeUnit (jansson hex).names unit ↔
      hex.digit (unit % 16) = Json.lowerDigit (unit % 16) := by
  have high : unit / 0x1000 % 16 = 0 ∧ unit / 0x100 % 16 = 0 ∧ unit / 0x10 % 16 < 10 := by omega
  simp only [Json.escapeUnit, stringify, jansson, high.1, high.2.1, decimal_digit hex 0 (by omega),
    decimal_digit hex _ high.2.2, List.cons.injEq, true_and, and_true]
  exact eq_comm

private theorem control_unit {char : Char} (control : char.toNat < 0x20) :
    Json.codeUnits char = [char.toNat] := if_pos (by omega)

private theorem name_eq_iff (hex : HexDigits) (name : String) :
    Json.quote stringify name = Json.quote (jansson hex).names name ↔ SameControls hex name := by
  rw [Json.quote_eq_iff]
  refine forall_congr' fun char => forall_congr' fun _ => ?_
  unfold Json.escapeChar
  cases short : Json.shortEscape? char with
  | some letter => simp
  | none =>
    cases control : decide (char.toNat < 0x20) with
    | true =>
      have below := of_decide_eq_true control
      simp [control_unit below, below, escapeUnit_eq_iff hex below]
    | false =>
      have above := of_decide_eq_false control
      simp [above, stringify, jansson]

private theorem shortEscape_small {char short : Char}
    (escaped : Json.shortEscape? char = some short) : char.toNat < 0x7F := by
  unfold Json.shortEscape? at escaped
  split_ifs at escaped <;>
    · subst char
      decide

private theorem long_units (escaping : Json.Escaping) (char : Char) :
    (Json.codeUnits char).flatMap (Json.escapeUnit escaping) ≠ [char] := by
  intro eq
  have lengths := congrArg List.length eq
  unfold Json.codeUnits at lengths
  split at lengths <;> simp [Json.escapeUnit] at lengths

/-- A value looks the same in both texts exactly if it is plain ASCII and its control
characters look the same. -/
private theorem value_eq_iff (hex : HexDigits) (value : String) :
    Json.quote canonicalString value = Json.quote (jansson hex).values value ↔
      (∀ char ∈ value.toList, char.toNat < 0x7F) ∧ SameControls hex value := by
  rw [Json.quote_eq_iff, SameControls, ← forall₂_and]
  refine forall_congr' fun char => forall_congr' fun _ => ?_
  unfold Json.escapeChar
  cases short : Json.shortEscape? char with
  | some letter => simp [shortEscape_small short]
  | none =>
    cases control : decide (char.toNat < 0x20) with
    | true =>
      have below := of_decide_eq_true control
      have units := escapeUnit_eq_iff hex below
      have ascii : char.toNat < 0x7F := by omega
      have eq : Json.escapeUnit canonicalString = Json.escapeUnit stringify := rfl
      have sameNames : (jansson hex).values = (jansson hex).names := rfl
      simp [control_unit below, below, ascii, eq, sameNames, units]
    | false =>
      have above := of_decide_eq_false control
      cases wide : decide (0x7F ≤ char.toNat) with
      | true =>
        have notAscii := not_lt.mpr (of_decide_eq_true wide)
        have escaped : canonicalString.escaped char = true := wide
        have kept : (jansson hex).values.escaped char = false := rfl
        simp [above, notAscii, escaped, kept, long_units]
      | false =>
        have narrow := not_le.mp (of_decide_eq_false wide)
        simp [above, narrow, canonicalString, jansson]

private theorem arrange_strings (order : String → List Nat) (members : List (String × String)) :
    Json.arrange order (.object (Json.strings members)) =
      .object (Json.strings (Json.sortMembers order members)) := by
  have eq : Json.arrangeMembers order (Json.strings members) = Json.strings members := by
    rw [Json.arrangeMembers_eq_map, Json.strings, List.map_map]
    rfl
  rw [Json.arrange, eq, Json.strings, Json.sortMembers_map, ← Json.strings]

private theorem canonicalJson_strings (attrs : Record String String) :
    Core.stringToBytes (canonicalJson (identityAttributes attrs)) =
      Utf8.encode (String.ofList (Json.print canonicalLayout
        (.object (Json.strings (Json.sortMembers utf16 attrs.entries))))) := by
  rw [Core.stringToBytes, canonicalJson, identityAttributes, canonicalChars_strings]

private theorem janssonDumps_strings (hex : HexDigits) (attrs : Record String String) :
    janssonDumps hex (identityAttributes attrs) =
      Utf8.encode (String.ofList (Json.print (jansson hex)
        (.object (Json.strings (Json.sortMembers Json.bytewise attrs.entries))))) := by
  rw [janssonDumps, identityAttributes, arrange_strings]

theorem canonicalJson_eq_janssonDumps_iff (hex : HexDigits) (attributes : Record String String) :
    Core.stringToBytes (canonicalJson (identityAttributes attributes)) =
      janssonDumps hex (identityAttributes attributes) ↔ Portable hex attributes := by
  have sorted (order : String → List Nat) := Json.sortMembers_perm order attributes.entries
  have distinct (order : String → List Nat) :
      ((Json.sortMembers order attributes.entries).map Prod.fst).Nodup :=
    ((sorted order).map Prod.fst).nodup_iff.mpr attributes.distinct
  rw [canonicalJson_strings, janssonDumps_strings]
  constructor
  · intro eq
    have texts := String.ofList_injective (Utf8.encode_injective eq)
    obtain ⟨sameOrder, alike⟩ := (Json.print_strings_eq_iff (distinct _) (distinct _)).mp texts
    have each : ∀ mem ∈ attributes.entries, _ := fun mem inside =>
      alike mem ((sorted utf16).mem_iff.mpr inside)
    refine ⟨?_, (Json.sortMembers_eq_iff (fun _ _ => utf16_injective)
      (fun _ _ => Json.bytewise_injective) attributes.distinct).mp sameOrder, ?_⟩
    · intro mem inside
      exact ((value_eq_iff hex mem.2).mp (each mem inside).2).1
    intro mem inside
    exact ⟨(name_eq_iff hex mem.1).mp (each mem inside).1,
      ((value_eq_iff hex mem.2).mp (each mem inside).2).2⟩
  · intro portable
    have sameOrder := (Json.sortMembers_eq_iff (fun _ _ => utf16_injective)
      (fun _ _ => Json.bytewise_injective) attributes.distinct).mpr portable.order
    have texts := (@Json.print_strings_eq_iff canonicalLayout (jansson hex) _ _ (distinct utf16)
      (distinct Json.bytewise)).mpr ⟨sameOrder, by
        intro mem inside
        have inside := (sorted utf16).mem_iff.mp inside
        obtain ⟨names, values⟩ := portable.controls mem inside
        exact ⟨(name_eq_iff hex mem.1).mpr names,
          (value_eq_iff hex mem.2).mpr ⟨portable.ascii mem inside, values⟩⟩⟩
    rw [texts]

/-- The bytes that the TypeScript client hashes are the bytes that the C client hashes
exactly for portable attributes, and for these the user identifiers agree. -/
theorem userIdentifierDerive_agrees_iff (platform : Core.Platform) (host : Host)
    (hex : HexDigits) (dumps : ∀ value, host.jsonDumps value = janssonDumps hex value)
    (samePow : ∀ password (salt : ProviderSalt),
      platform.argon2id password salt.val = .ok (host.powHash salt password).val)
    (attributes : Record String String) :
    (Core.stringToBytes (canonicalJson (identityAttributes attributes)) =
        host.jsonDumps (identityAttributes attributes) ↔ Portable hex attributes) ∧
      (Portable hex attributes → ∀ serverSalt : ProviderSalt,
        Core.userIdentifierDerive platform (identityAttributes attributes)
            (Core.encodeCrock serverSalt.val) =
          .ok (Core.encodeCrock (Client.userIdentifierDerive host
            (identityAttributes attributes) serverSalt).val)) := by
  have iff := canonicalJson_eq_janssonDumps_iff hex attributes
  rw [← dumps] at iff
  refine ⟨iff, fun portable serverSalt => ?_⟩
  simp only [Core.userIdentifierDerive, Core.decodeCrock_encodeCrock, Bind.bind, Except.bind,
    pure, Except.pure, samePow, iff.mpr portable, Client.userIdentifierDerive]

def namedMax : Record String String := Record.empty.set "full_name" "Max"

/-- Plain ASCII attributes are hashed alike. -/
theorem userIdentifierDerive_agrees_max :
    (Core.stringToBytes (canonicalJson (identityAttributes namedMax)) =
        Host.plain.jsonDumps (identityAttributes namedMax) ↔ Portable .upper namedMax) ∧
      (Portable .upper namedMax → ∀ serverSalt : ProviderSalt,
        Core.userIdentifierDerive .plain (identityAttributes namedMax)
            (Core.encodeCrock serverSalt.val) =
          .ok (Core.encodeCrock (Client.userIdentifierDerive .plain
            (identityAttributes namedMax) serverSalt).val)) :=
  userIdentifierDerive_agrees_iff .plain .plain .upper (fun _ => rfl) (fun _ _ => rfl) namedMax

/-- The umlaut of a value is escaped by one client and kept by the other. -/
theorem umlaut_disagrees : Core.stringToBytes (canonicalJson
        (identityAttributes (Record.empty.set "full_name" "J\u00f6rg"))) ≠
      janssonDumps .upper (identityAttributes (Record.empty.set "full_name" "J\u00f6rg")) := by
  intro same
  have portable := (canonicalJson_eq_janssonDumps_iff .upper _).mp same
  have plain := portable.ascii ("full_name", "J\u00f6rg") (by decide) '\u00f6' (by decide)
  exact absurd plain (by decide)

end Anastasis
