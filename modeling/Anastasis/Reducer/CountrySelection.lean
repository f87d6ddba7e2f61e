import Anastasis.Library.JsonUpdate
import Anastasis.Client.Recovery

/-! Selecting a country: which known providers are kept for the selected currencies, by the C
reducer and by the TypeScript one. -/

set_option autoImplicit false

namespace Anastasis.Reducer.CountrySelection

open Library Client List

def stateInvalid : ErrorCode := 8401
def inputInvalid : ErrorCode := 8402
def resourceMalformed : ErrorCode := 8406
def resourceMissing : ErrorCode := 8407

structure KnownProvider where
  url : String
  currency : String

def parseProvider (provider : Json) : Option KnownProvider := do
  let url ← parseString provider "url"
  let currency ← parseString provider "currency"
  return { url := url, currency := currency }

/-- `strcasecmp` finds no difference. -/
def sameName (first second : String) : Bool :=
  first.toList.map Char.toLower = second.toList.map Char.toLower

/-- The loop over the currencies. Every round replaces the flag. -/
def searchCurrency (currency : String) : List Json → Bool → Option Bool
  | [], found => some found
  | cu :: rest, _ =>
    match cu.string? with
    | none => none
    | some selected => searchCurrency currency rest (sameName selected currency)

def listProviders (currencies : List Json) : List Json → Json → Except ErrorCode Json
  | [], pl => .ok pl
  | provider :: rest, pl =>
    match parseProvider provider with
    | none => .error resourceMalformed
    | some known =>
      match searchCurrency known.currency currencies false with
      | none => .error inputInvalid
      | some false => listProviders currencies rest pl
      | some true => listProviders currencies rest (pl.setField known.url (.object []))

/-- The files of the installation, which list the known providers and the attributes a country
requires, and the comparison of the JSON library. -/
structure Resources where
  jsonEqual : Json → Json → Bool
  providerList : Except ErrorCode Json
  attributes : String → Option Json

inductive Outcome where
  | failed (code : ErrorCode) (detail : Option String)
  | aborted
  | next (state : Json)

def beginProviderConfigCheck (resources : Resources) (currencies state : Json) :
    Except ErrorCode Json := do
  let providerList ← resources.providerList
  let pl ← listProviders (arrayItems currencies)
    (providerList.itemsAt "anastasis_provider") (.object [])
  return state.setField "authentication_providers" pl

def transition (state : Json) (generic : String) : Option Json :=
  if (state.member? "backup_state").isSome then
    some (state.setField "backup_state" (.string generic))
  else if (state.member? "recovery_state").isSome then
    some (state.setField "recovery_state" (.string generic))
  else none

def countryAttributes (resources : Resources) (state countryCode currencies : Json) : Outcome :=
  match countryCode.string? with
  | none => .aborted
  | some country =>
    match resources.attributes country with
    | none => .failed resourceMissing (some country)
    | some reduxIdAttr =>
      match reduxIdAttr.member? "required_attributes" with
      | none => .failed resourceMalformed (some "'required_attributes' missing")
      | some requiredAttrs =>
        match transition state "USER_ATTRIBUTES_COLLECTING" with
        | none => .aborted
        | some state =>
          .next (((state.setField "selected_country" countryCode).setField "currencies"
            currencies).setField "required_attributes" requiredAttrs)

def selectCountry (resources : Resources) (state : Json) (arguments : Option Json) : Outcome :=
  match arguments with
  | none => .failed inputInvalid (some "arguments missing")
  | some arguments =>
    match arguments.member? "country_code" with
    | none => .failed stateInvalid (some "'country_code' missing")
    | some countryCode =>
      if !(state.itemsAt "countries").any fun country =>
          (country.member? "code").any (resources.jsonEqual countryCode) then
        .failed inputInvalid (some "specified country not on selected continent")
      else
        match arguments.member? "currencies" with
        | some (.array currencies) =>
          match beginProviderConfigCheck resources (.array currencies) state with
          | .error code => .failed code none
          | .ok state => countryAttributes resources state countryCode (.array currencies)
        | _ => .failed stateInvalid (some "'currencies' missing")

/-! ## The TypeScript reducer -/

structure Country where
  code : String
  continent : String

structure CountrySelected where
  selectedCountry : String
  currencies : List String
  requiredAttributes : Json
  authenticationProviders : Json

def webSelectCountry (countries : List Country) (providersList : List KnownProvider)
    (requiredAttributes : String → Json) (selectedContinent countryCode : String)
    (currencies : List String) : Except (ErrorCode × String) CountrySelected :=
  match countries.find? fun x => x.code = countryCode with
  | none => .error (8400, "invalid country selected")
  | some country =>
    if country.continent ≠ selectedContinent then
      .error (8400, "selected country is not in selected continent")
    else
      .ok {
        selectedCountry := countryCode
        currencies := currencies
        requiredAttributes := requiredAttributes countryCode
        authenticationProviders := providersList.foldl
          (fun providers prov =>
            if prov.currency ∈ currencies then providers.setField prov.url (.object [])
            else providers) (.object []) }

/-! ## The providers that are kept -/

section Kept

variable {resources : Resources} {state st next : Json} {items : List Json}

def Lists (providers : Json) (url : String) : Prop := (providers.member? url).isSome

theorem searchCurrency_last {cur : String} {found ans : Bool}
    (searched : searchCurrency cur items found = some ans) :
    ans = (((items.filterMap Json.string?).getLast?).map (sameName · cur)).getD found := by
  induction items generalizing found with
  | nil =>
    cases searched
    rfl
  | cons cu rest ih =>
    unfold searchCurrency at searched
    cases isString : cu.string? with
    | none =>
      rw [isString] at searched
      cases searched
    | some r =>
      rw [isString] at searched
      rw [ih searched, filterMap_cons_some isString, getLast?_cons]
      cases (rest.filterMap Json.string?).getLast? <;> rfl

theorem lists_setMember {members : List (String × Json)} {url other : String} {field : Json} :
    Lists (.object (Json.setMember members url field)) other ↔
      url = other ∨ Lists (.object members) other := by
  change ((Json.object members).setField url field |>.member? other).isSome ↔ _
  by_cases eq : url = other
  · rw [eq, Json.member?_setField_object]
    simp
  · rw [Json.member?_setField_ne _ (Ne.symm eq)]
    simp [eq, Lists]

/-- The known providers of which one currency, the last one selected, is compared. -/
def keptUrls (currencies : List String) (known : List KnownProvider) (url : String) : Prop :=
  ∃ provider ∈ known, provider.url = url ∧
    ∃ last ∈ currencies.getLast?, sameName last provider.currency

theorem listProviders_lists {currencies : List Json} {pl : Json} (url : String) :
    ∀ {members : List (String × Json)}, listProviders currencies items (.object members) = .ok pl →
      (Lists pl url ↔ Lists (.object members) url ∨
        keptUrls (currencies.filterMap Json.string?) (items.filterMap parseProvider) url) := by
  induction items with
  | nil =>
    intro members mem
    cases mem
    simp [keptUrls]
  | cons prov rest ih =>
    intro members mem
    unfold listProviders at mem
    cases parsed : parseProvider prov with
    | none =>
      rw [parsed] at mem
      cases mem
    | some has =>
      rw [parsed] at mem
      dsimp only at mem
      rw [filterMap_cons_some parsed]
      cases searched : searchCurrency has.currency currencies false with
      | none =>
        rw [searched] at mem
        cases mem
      | some ans =>
        rw [searched] at mem
        have kept : keptUrls (currencies.filterMap Json.string?)
            (has :: rest.filterMap parseProvider) url ↔ has.url = url ∧ ans = true ∨
              keptUrls (currencies.filterMap Json.string?) (rest.filterMap parseProvider) url := by
          rw [searchCurrency_last searched]
          unfold keptUrls
          cases (currencies.filterMap Json.string?).getLast? <;> simp
        rw [kept]
        cases ans with
        | false => simpa using ih mem
        | true =>
          refine (ih mem).trans ?_
          rw [lists_setMember]
          tauto

theorem webProviders_lists {currencies : List String} {has : List KnownProvider} (url : String) :
    ∀ {members : List (String × Json)}, Lists (has.foldl (fun ps prov =>
        if prov.currency ∈ currencies then ps.setField prov.url (.object [])
        else ps) (.object members)) url ↔
      Lists (.object members) url ∨
        ∃ provider ∈ has, provider.url = url ∧ provider.currency ∈ currencies := by
  induction has with
  | nil => simp
  | cons provider rest ih =>
    intro members
    rw [foldl_cons, exists_mem_cons_iff]
    by_cases r : provider.currency ∈ currencies
    · rw [if_pos r]
      refine ih.trans ?_
      rw [lists_setMember]
      tauto
    · rw [if_neg r, ih]
      simp [r]

theorem countryAttributes_keeps {countryCode currencies : Json}
    (r : countryAttributes resources st countryCode currencies = .next next) :
    next.member? "authentication_providers" = st.member? "authentication_providers" := by
  have kept (st : Json) {name : String} (y : "authentication_providers" ≠ name)
      (field : Json) := Json.member?_setField_ne st y field
  unfold countryAttributes at r
  split at r
  next => cases r
  next =>
    split at r
    next => cases r
    next =>
      split at r
      next => cases r
      next =>
        split at r
        next => cases r
        next moved isMoved =>
          cases r
          rw [kept _ (by decide), kept _ (by decide), kept _ (by decide)]
          unfold transition at isMoved
          split at isMoved
          next =>
            cases isMoved
            exact kept _ (by decide) _
          next =>
            split at isMoved
            next =>
              cases isMoved
              exact kept _ (by decide) _
            next => cases isMoved

def selectedNames (arguments : Json) : List String :=
  (arguments.itemsAt "currencies").filterMap Json.string?

def Resources.known (resources : Resources) : List KnownProvider :=
  match resources.providerList with
  | .ok providerList => (providerList.itemsAt "anastasis_provider").filterMap parseProvider
  | .error _ => []

def kept (next : Json) (url : String) : Prop :=
  Lists ((next.member? "authentication_providers").getD .null) url

theorem beginProviderConfigCheck_kept {currencies mid : Json}
    (countries : (st.member? "countries").isSome)
    (began : beginProviderConfigCheck resources currencies st = .ok mid) (url : String) :
    kept mid url ↔
      keptUrls ((arrayItems currencies).filterMap Json.string?) resources.known url := by
  unfold beginProviderConfigCheck at began
  unfold Resources.known kept
  cases read : resources.providerList with
  | error code =>
    rw [read] at began
    cases began
  | ok providerList =>
    rw [read] at began
    cases mem : listProviders (arrayItems currencies)
      (providerList.itemsAt "anastasis_provider") (.object []) with
    | error code => simp [bind, Except.bind, mem] at began
    | ok pl =>
      simp only [bind, Except.bind, mem, pure, Except.pure, Except.ok.injEq] at began
      obtain ⟨h, isF⟩ := Option.isSome_iff_exists.mp countries
      rw [← began, Json.member?_setField_self isF]
      refine (listProviders_lists url mem).trans ?_
      simp [Lists, Json.member?]

theorem selectCountry_kept {arguments : Json}
    (r : selectCountry resources st (some arguments) = .next next) (url : String) :
    kept next url ↔ keptUrls (selectedNames arguments) resources.known url := by
  unfold selectCountry at r
  dsimp only at r
  split at r
  next => cases r
  next countryCode _ =>
    split at r
    next => cases r
    next someCountry =>
      split at r
      next currencies isArray =>
        split at r
        next => cases r
        next middle began =>
          have countries : (st.member? "countries").isSome := by
            cases has : st.member? "countries" with
            | none => simp [Json.itemsAt, has] at someCountry
            | some _ => rfl
          have eq : kept next url ↔ kept middle url := by
            unfold kept
            rw [countryAttributes_keeps r]
          rw [eq, beginProviderConfigCheck_kept countries began]
          simp [selectedNames, Json.itemsAt, isArray, arrayItems]
      next => cases r

/-- The state of the C reducer keeps exactly the providers of a selected currency, and these are
the ones the TypeScript reducer keeps. -/
structure KeepsUsable (names : List String) (known : List KnownProvider) (next providers : Json) :
    Prop where
  usable : ∀ url, kept next url ↔
    ∃ provider ∈ known, provider.url = url ∧ ∃ name ∈ names, sameName name provider.currency
  agrees : ∀ url, kept next url ↔ Lists providers url

/-- Every provider of a selected currency has an entry of the last currency selected, and one
whose currency is selected letter by letter. -/
def LastDecides (names : List String) (known : List KnownProvider) : Prop :=
  ∀ provider ∈ known, (∃ name ∈ names, sameName name provider.currency) →
    keptUrls names known provider.url ∧
      ∃ entry ∈ known, entry.url = provider.url ∧ entry.currency ∈ names

theorem sameName_refl (name : String) : sameName name name := by
  simp [sameName]

/-- Both reducers keep the usable providers of a selection exactly if the last currency selected
finds each of them. -/
theorem selectCountry_keeps_usable {arguments : Json} {countries : List Country}
    {requiredAttributes : String → Json} {continent country : String} {web : CountrySelected}
    (selected : selectCountry resources state (some arguments) = .next next)
    (webSelected : webSelectCountry countries resources.known requiredAttributes continent country
      (selectedNames arguments) = .ok web) :
    KeepsUsable (selectedNames arguments) resources.known next web.authenticationProviders ↔
      LastDecides (selectedNames arguments) resources.known := by
  have cKeeps := selectCountry_kept selected
  have webKeeps (url : String) : Lists web.authenticationProviders url ↔
      ∃ provider ∈ resources.known, provider.url = url ∧
        provider.currency ∈ selectedNames arguments := by
    unfold webSelectCountry at webSelected
    split at webSelected
    next => cases webSelected
    next =>
      split at webSelected
      next => cases webSelected
      next =>
        cases webSelected
        refine (webProviders_lists url).trans ?_
        simp [Lists, Json.member?]
  constructor
  · intro keeps provider known usable
    have isKept := (keeps.usable provider.url).mpr ⟨provider, known, rfl, usable⟩
    exact ⟨(cKeeps _).mp isKept, (webKeeps _).mp ((keeps.agrees _).mp isKept)⟩
  · intro decides
    constructor
    · intro url
      constructor
      · intro isKept
        obtain ⟨provider, known, same, last, isLast, matched⟩ := (cKeeps url).mp isKept
        exact ⟨provider, known, same, last, mem_of_getLast? isLast, matched⟩
      · rintro ⟨provider, known, rfl, usable⟩
        exact (cKeeps _).mpr (decides provider known usable).1
    · intro url
      constructor
      · intro isKept
        obtain ⟨provider, known, rfl, last, isLast, matched⟩ := (cKeeps url).mp isKept
        exact (webKeeps _).mpr (decides provider known ⟨last, mem_of_getLast? isLast, matched⟩).2
      · intro listed
        obtain ⟨provider, known, rfl, isSelected⟩ := (webKeeps url).mp listed
        exact (cKeeps _).mpr (decides provider known ⟨_, isSelected, sameName_refl _⟩).1

end Kept

def euroProvider : KnownProvider where
  url := "http://localhost:8086/"
  currency := "EUR"

def knownResources : Resources where
  jsonEqual first second := first.string? = second.string?
  providerList := .ok (.object [("anastasis_provider", .array [.object
    [("url", .string euroProvider.url), ("currency", .string euroProvider.currency)]])])
  attributes _ := some (.object [("required_attributes", .array [])])

def countrySelecting : Json :=
  .object [("backup_state", .string "COUNTRY_SELECTING"),
    ("countries", .array [.object [("code", .string "de")]])]

def selection (currencies : List String) : Json :=
  .object [("country_code", .string "de"), ("currencies", .array (currencies.map Json.string))]

def webSelection (currencies : List String) : Except (ErrorCode × String) CountrySelected :=
  webSelectCountry [{ code := "de", continent := "Europe" }] knownResources.known
    (fun _ => .array []) "Europe" "de" currencies

theorem euro_selected_last : ∃ next web,
    selectCountry knownResources countrySelecting (some (selection ["CHF", "EUR"])) = .next next ∧
      webSelection ["CHF", "EUR"] = .ok web ∧
      KeepsUsable ["CHF", "EUR"] knownResources.known next web.authenticationProviders := by
  refine ⟨_, _, rfl, rfl, (@selectCountry_keeps_usable knownResources countrySelecting _
    (selection ["CHF", "EUR"]) [⟨"de", "Europe"⟩] (fun _ => .array []) "Europe" "de" _ rfl rfl).mpr
      ?_⟩
  intro provider known _
  have isEuro : provider = euroProvider := mem_singleton.mp known
  rw [isEuro]
  exact ⟨⟨euroProvider, mem_singleton.mpr rfl, rfl, "EUR", rfl, rfl⟩,
    euroProvider, mem_singleton.mpr rfl, rfl, mem_of_getLast? rfl⟩

theorem euro_selected_first : ∃ next web,
    selectCountry knownResources countrySelecting (some (selection ["EUR", "CHF"])) = .next next ∧
      webSelection ["EUR", "CHF"] = .ok web ∧
      ¬ KeepsUsable ["EUR", "CHF"] knownResources.known next web.authenticationProviders := by
  refine ⟨_, _, rfl, rfl, fun keeps => ?_⟩
  have isKept := (keeps.usable euroProvider.url).mpr
    ⟨euroProvider, mem_singleton.mpr rfl, rfl, "EUR", mem_cons_self, rfl⟩
  cases isKept

end Anastasis.Reducer.CountrySelection
