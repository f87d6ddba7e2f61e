import Anastasis.Core.UploadFees
import Anastasis.Library.RecordTotals
import Anastasis.Stasis.Tables

/-! What the upload of a backup costs, as the C reducer calculates it. -/

set_option autoImplicit false

namespace Anastasis.Reducer

open Library Core Wallet Stasis List

structure AmountLibrary where
  multiply : AmountJson → Nat → Option AmountJson
  add : AmountJson → AmountJson → Option AmountJson
  cmpCurrency : String → String → Bool

/-- Results are exact, and there is none if it would not be an amount. -/
structure AmountLibrary.Documented (library : AmountLibrary) : Prop where
  multiply_units : ∀ {amount product : AmountJson} {factor : Nat},
    library.multiply amount factor = some product → product.units = amount.units * factor
  multiply_isSome : ∀ {amount : AmountJson} {factor : Nat},
    (∃ product, library.multiply amount factor = some product) ↔
      amount.units * factor < AmountJson.limit
  add_units : ∀ {first second sum : AmountJson},
    library.add first second = some sum → sum.units = first.units + second.units
  add_isSome : ∀ {first second : AmountJson},
    (∃ sum, library.add first second = some sum) ↔ first.units + second.units < AmountJson.limit

inductive CostFailure where
  | syserr
  | assertion
deriving DecidableEq

def addToCost (library : AmountLibrary) (cost : Fee) :
    List Fee → Option (Except CostFailure (List Fee))
  | [] => none
  | pos :: rest =>
    if library.cmpCurrency pos.currency cost.currency then
      match library.add pos.amount cost.amount with
      | none => some (.error .assertion)
      | some sum => some (.ok ({ pos with amount := sum } :: rest))
    else (addToCost library cost rest).map (Except.map (pos :: ·))

def addCost (library : AmountLibrary) (cost : Fee) (costs : List Fee) :
    Except CostFailure (List Fee) :=
  (addToCost library cost costs).getD (.ok (cost :: costs))

def addFeeOver (library : AmountLibrary) (years : Nat) (fee : Fee) (costs : List Fee) :
    Except CostFailure (List Fee) :=
  match library.multiply fee.amount years with
  | none => .error .syserr
  | some product => addCost library { fee with amount := product } costs

/-- Providers that are down or disabled, or that have no annual fee, are skipped. -/
def addProviderCost (library : AmountLibrary) (years : Nat) (costs : List Fee)
    (provider : ProviderStatus) : Except CostFailure (List Fee) :=
  match provider.annualFee with
  | none => .ok costs
  | some annualFee =>
    if provider.httpStatus ≠ some 200 ∨ provider.disabled = true then .ok costs
    else addFeeOver library years annualFee costs

def uploadCost (providers : Record String ProviderStatus) (url : String) : Option Fee := do
  let provider ← providers.get? url
  let fee ← provider.truthUploadFee
  if provider.httpStatus ≠ some 200 ∨ provider.disabled = true then none else some fee

def addTruthCosts (library : AmountLibrary) (years : Nat)
    (providers : Record String ProviderStatus) :
    List Core.PolicyMethod → List Core.PolicyMethod → List Fee → Except CostFailure (List Fee)
  | [], _, costs => .ok costs
  | method :: rest, seen, costs =>
    if 2 ^ 32 ≤ method.authenticationMethod then .error .syserr
    else if method ∈ seen then addTruthCosts library years providers rest seen costs
    else match uploadCost providers method.provider with
      | none => .error .syserr
      | some fee => do
          let costs ← addFeeOver library years fee costs
          addTruthCosts library years providers rest (method :: seen) costs

def expirationToYears (now expiration : Time) : Nat :=
  let rem := absoluteGetRemaining now expiration
  if rem % years ≠ 0 then rem / years + 1 else rem / years

def freeStorage : Time := relativeMultiply years 5

structure ExpirationCost where
  uploadFees : List Fee
  expiration : Time
deriving DecidableEq

def updateExpirationCost (library : AmountLibrary) (state : FeesState) (now expiration : Time) :
    Except CostFailure ExpirationCost := do
  let numYears := expirationToYears now expiration
  let costs ← state.authenticationProviders.values.foldlM (addProviderCost library numYears) []
  let costs ← addTruthCosts library numYears state.authenticationProviders (policyMethods state) []
    costs
  let uploadFees := costs.filter fun cost => cost.amount.value ≠ 0 ∨ cost.amount.fraction ≠ 0
  let expiration := if uploadFees = [] then relativeToAbsolute now freeStorage else expiration
  return { uploadFees, expiration := roundAbs expiration }

/-- What a list of costs comes to in a currency, in the smallest units. -/
def costsIn (costs : List Fee) (currency : String) : Nat :=
  (costs.map (·.inCurrency currency)).sum

/-- Costs are kept once for each currency, and each is an amount of a known currency. -/
structure Separate (known : List String) (costs : List Fee) : Prop where
  distinct : (costs.map (·.currency)).Nodup
  inRange : ∀ cost ∈ costs, cost.amount.units < AmountJson.limit
  isKnown : ∀ cost ∈ costs, cost.currency ∈ known

def AmountLibrary.TellsApart (library : AmountLibrary) (known : List String) : Prop :=
  ∀ first ∈ known, ∀ second ∈ known, library.cmpCurrency first second = true ↔ first = second

theorem costsIn_cons (cost : Fee) (costs : List Fee) (currency : String) :
    costsIn (cost :: costs) currency = cost.inCurrency currency + costsIn costs currency := rfl

theorem costsIn_absent {costs : List Fee} {cur : String}
    (gone : cur ∉ costs.map (·.currency)) : costsIn costs cur = 0 := by
  rw [costsIn, sum_eq_zero_iff, List.forall_mem_map]
  intro cost mem
  rw [Fee.inCurrency, if_neg]
  intro eq
  exact gone (eq ▸ List.mem_map.mpr ⟨cost, mem, rfl⟩)

section Costs

variable {library : AmountLibrary} {known has : List String} {cost : Fee} {costs after : List Fee}

theorem Separate.nil : Separate has [] := ⟨nodup_nil, nofun, nofun⟩

theorem Separate.costsIn_eq (separate : Separate has costs) (mem : cost ∈ costs) :
    costsIn costs cost.currency = cost.amount.units := by
  obtain ⟨apart, inRange, isKnown⟩ := separate
  clear inRange isKnown
  induction costs with
  | nil => cases mem
  | cons head rest ih =>
    rw [map_cons, nodup_cons] at apart
    rw [costsIn_cons, Fee.inCurrency]
    cases mem_cons.mp mem with
    | inl eq =>
      subst eq
      rw [if_pos rfl, costsIn_absent apart.1, Nat.add_zero]
    | inr tail =>
      have ne : head.currency ≠ cost.currency := by
        intro eq
        exact apart.1 (eq ▸ List.mem_map.mpr ⟨cost, tail, rfl⟩)
      rw [if_neg ne, Nat.zero_add]
      exact ih tail apart.2

theorem Separate.costsIn_lt (separate : Separate known costs) (cur : String) :
    costsIn costs cur < AmountJson.limit := by
  by_cases has : cur ∈ costs.map (·.currency)
  · obtain ⟨cost, mem, rfl⟩ := List.mem_map.mp has
    rw [separate.costsIn_eq mem]
    exact separate.inRange cost mem
  · rw [costsIn_absent has]
    decide

theorem addToCost_none (apart : library.TellsApart has) (isKnown : cost.currency ∈ has)
    (allKnown : ∀ old ∈ costs, old.currency ∈ has)
    (gone : addToCost library cost costs = none) : cost.currency ∉ costs.map (·.currency) := by
  induction costs with
  | nil => exact not_mem_nil
  | cons pos rest ih =>
    rw [forall_mem_cons] at allKnown
    rw [addToCost] at gone
    split at gone
    · split at gone
      · cases gone
      · cases gone
    rename_i ne
    rw [apart _ allKnown.1 _ isKnown] at ne
    rw [map_cons, mem_cons, not_or]
    exact ⟨Ne.symm ne, ih allKnown.2 (Option.map_eq_none_iff.mp gone)⟩

theorem addToCost_error {failure : CostFailure} (documented : library.Documented)
    (apart : library.TellsApart has) (isKnown : cost.currency ∈ has)
    (allKnown : ∀ old ∈ costs, old.currency ∈ has)
    (failed : addToCost library cost costs = some (.error failure)) :
    AmountJson.limit ≤ costsIn costs cost.currency + cost.amount.units := by
  induction costs with
  | nil => cases failed
  | cons pos rest ih =>
    rw [forall_mem_cons] at allKnown
    rw [addToCost] at failed
    rw [costsIn_cons]
    split at failed
    · next eq =>
      rw [apart _ allKnown.1 _ isKnown] at eq
      rw [Fee.inCurrency, if_pos eq]
      split at failed
      · next overflow =>
        have large : ¬ pos.amount.units + cost.amount.units < AmountJson.limit := by
          rw [← documented.add_isSome, overflow]
          rintro ⟨_, isSome⟩
          cases isSome
        omega
      · cases failed
    · obtain ⟨res, failedRest, isError⟩ := Option.map_eq_some_iff.mp failed
      cases res with
      | error inner =>
        cases isError
        have large := ih allKnown.2 failedRest
        omega
      | ok rest' => cases isError

theorem addToCost_ok (documented : library.Documented) (apart : library.TellsApart has)
    (isKnown : cost.currency ∈ has) (allKnown : ∀ old ∈ costs, old.currency ∈ has)
    (inRange : ∀ old ∈ costs, old.amount.units < AmountJson.limit)
    (added : addToCost library cost costs = some (.ok after)) :
    after.map (·.currency) = costs.map (·.currency) ∧
      (∀ old ∈ after, old.amount.units < AmountJson.limit) ∧
      ∀ currency, costsIn after currency = costsIn costs currency + cost.inCurrency currency := by
  induction costs generalizing after with
  | nil => cases added
  | cons pos rest ih =>
    rw [forall_mem_cons] at allKnown inRange
    rw [addToCost] at added
    split at added
    · next eq =>
      rw [apart _ allKnown.1 _ isKnown] at eq
      split at added
      · cases added
      rename_i sum isSum
      cases added
      refine ⟨rfl, forall_mem_cons.mpr ⟨?_, inRange.2⟩, ?_⟩
      · rw [documented.add_units isSum]
        exact documented.add_isSome.mp ⟨sum, isSum⟩
      intro currency
      rw [costsIn_cons, costsIn_cons]
      simp only [Fee.inCurrency, eq, documented.add_units isSum]
      split
      · omega
      · omega
    · obtain ⟨res, addedRest, isOk⟩ := Option.map_eq_some_iff.mp added
      cases res with
      | error failure => cases isOk
      | ok rest' =>
        cases isOk
        obtain ⟨names, smalls, totals⟩ := ih allKnown.2 inRange.2 addedRest
        refine ⟨?_, forall_mem_cons.mpr ⟨inRange.1, smalls⟩, ?_⟩
        · rw [map_cons, names, map_cons]
        intro currency
        rw [costsIn_cons, costsIn_cons, totals]
        omega

end Costs

/-- An operation on costs that adds what is owed in each currency, and fails only if this is too
much for an amount. -/
structure Adds (known : List String) (run : List Fee → Except CostFailure (List Fee))
    (owed : String → Nat) : Prop where
  exact : ∀ {costs after : List Fee}, Separate known costs → run costs = .ok after →
    Separate known after ∧
      ∀ currency, costsIn after currency = costsIn costs currency + owed currency
  enough : ∀ {costs : List Fee} {failure : CostFailure}, Separate known costs →
    run costs = .error failure →
    ∃ currency, AmountJson.limit ≤ costsIn costs currency + owed currency

section Adds

variable {library : AmountLibrary} {known has : List String}

theorem Adds.nothing : Adds has .ok fun _ => 0 where
  exact := by
    intro costs after separate isOk
    cases isOk
    exact ⟨separate, fun cur => rfl⟩
  enough := by
    intro costs failure separate failed
    cases failed

theorem Adds.andThen {x y : List Fee → Except CostFailure (List Fee)}
    {owed more : String → Nat} (adds : Adds has x owed) (addsMore : Adds has y more) :
    Adds has (fun costs => x costs >>= y) fun cur => owed cur + more cur where
  exact := by
    intro costs after separate isOk
    cases r : x costs with
    | error failure =>
      rw [r] at isOk
      cases isOk
    | ok between =>
      rw [r] at isOk
      obtain ⟨separate, totals⟩ := adds.exact separate r
      obtain ⟨separate, sums⟩ := addsMore.exact separate isOk
      refine ⟨separate, fun cur => ?_⟩
      rw [sums, totals, Nat.add_assoc]
  enough := by
    intro costs failure separate failed
    cases r : x costs with
    | error failure =>
      obtain ⟨cur, large⟩ := adds.enough separate r
      exact ⟨cur, by omega⟩
    | ok between =>
      rw [r] at failed
      obtain ⟨separate, totals⟩ := adds.exact separate r
      obtain ⟨cur, large⟩ := addsMore.enough separate failed
      rw [totals] at large
      exact ⟨cur, by omega⟩

theorem Adds.congr {run : List Fee → Except CostFailure (List Fee)} {owed same : String → Nat}
    (adds : Adds known run owed) (equal : ∀ cur, owed cur = same cur) : Adds known run same := by
  rw [← funext equal]
  exact adds

theorem addCost_adds (documented : library.Documented) (apart : library.TellsApart has)
    {cost : Fee} (isKnown : cost.currency ∈ has) (small : cost.amount.units < AmountJson.limit) :
    Adds has (addCost library cost) cost.inCurrency where
  exact := by
    intro costs after separate isOk
    rw [addCost] at isOk
    cases h : addToCost library cost costs with
    | none =>
      rw [h] at isOk
      cases isOk
      have gone := addToCost_none apart isKnown separate.isKnown h
      refine ⟨⟨nodup_cons.mpr ⟨gone, separate.distinct⟩,
        forall_mem_cons.mpr ⟨small, separate.inRange⟩,
        forall_mem_cons.mpr ⟨isKnown, separate.isKnown⟩⟩, fun cur => ?_⟩
      rw [costsIn_cons, Nat.add_comm]
    | some res =>
      rw [h] at isOk
      cases isOk
      obtain ⟨names, smalls, totals⟩ :=
        addToCost_ok documented apart isKnown separate.isKnown separate.inRange h
      refine ⟨⟨names ▸ separate.distinct, smalls, fun old mem => ?_⟩, totals⟩
      have named : old.currency ∈ costs.map (·.currency) := names ▸ List.mem_map.mpr ⟨old, mem, rfl⟩
      obtain ⟨pre, isBefore, eq⟩ := List.mem_map.mp named
      exact eq ▸ separate.isKnown pre isBefore
  enough := by
    intro costs failure separate failed
    rw [addCost] at failed
    cases h : addToCost library cost costs with
    | none =>
      rw [h] at failed
      cases failed
    | some res =>
      rw [h] at failed
      cases failed
      refine ⟨cost.currency, ?_⟩
      rw [Fee.inCurrency, if_pos rfl]
      exact addToCost_error documented apart isKnown separate.isKnown h

theorem addFeeOver_adds (documented : library.Documented) (apart : library.TellsApart has)
    (numYears : Nat) {fee : Fee} (isKnown : fee.currency ∈ has) :
    Adds has (addFeeOver library numYears fee) fun cur =>
      fee.inCurrency cur * numYears := by
  cases product : library.multiply fee.amount numYears with
  | none =>
    have large : ¬ fee.amount.units * numYears < AmountJson.limit := by
      rw [← documented.multiply_isSome, product]
      exact fun ⟨_, isSome⟩ => nomatch isSome
    constructor
    · intro costs after separate isOk
      rw [addFeeOver, product] at isOk
      cases isOk
    intro costs failure separate failed
    refine ⟨fee.currency, ?_⟩
    rw [Fee.inCurrency, if_pos rfl]
    omega
  | some amount =>
    have units := documented.multiply_units product
    have small : amount.units < AmountJson.limit := by
      rw [units]
      exact documented.multiply_isSome.mp ⟨amount, product⟩
    have adds := addCost_adds documented apart
      (show Fee.currency { fee with amount := amount } ∈ has from isKnown) small
    have run : addFeeOver library numYears fee = addCost library { fee with amount := amount } := by
      funext costs
      rw [addFeeOver, product]
    rw [run]
    apply adds.congr
    intro cur
    simp only [Fee.inCurrency, units]
    split
    · rfl
    · rw [Nat.zero_mul]

end Adds

structure Working (provider : ProviderStatus) : Prop where
  isUp : provider.httpStatus = some 200
  isEnabled : provider.disabled = false
  hasAnnualFee : ∃ fee, provider.annualFee = some fee
  hasTruthUploadFee : ∃ fee, provider.truthUploadFee = some fee

section Providers

variable {library : AmountLibrary} {known has : List String}

theorem addProviders_adds (documented : library.Documented) (apart : library.TellsApart has)
    (numYears : Nat) {ps : List ProviderStatus} (working : ∀ prov ∈ ps, Working prov)
    (allKnown : ∀ prov ∈ ps, ∀ fee, prov.annualFee = some fee → fee.currency ∈ has) :
    Adds has (fun costs => ps.foldlM (addProviderCost library numYears) costs) fun cur =>
        (ps.map fun prov => feeIn prov.annualFee cur * numYears).sum := by
  induction ps with
  | nil => exact Adds.nothing
  | cons prov rest ih =>
    rw [forall_mem_cons] at working allKnown
    obtain ⟨fee, isFee⟩ := working.1.hasAnnualFee
    have runs : (fun costs => addProviderCost library numYears costs prov) =
        addFeeOver library numYears fee := by
      funext costs
      rw [addProviderCost, isFee]
      simp only [working.1.isUp, working.1.isEnabled, ne_eq, not_true_eq_false, false_or,
        Bool.false_eq_true, if_false]
    have x := addFeeOver_adds documented apart numYears (allKnown.1 fee isFee)
    rw [← runs] at x
    apply (x.andThen (ih working.2 allKnown.2)).congr
    intro cur
    rw [map_cons, sum_cons, isFee]
    rfl

theorem uploadCost_working {ps : Record String ProviderStatus}
    (working : ∀ prov ∈ ps.values, Working prov) (url : String) :
    uploadCost ps url = (ps.get? url).bind (·.truthUploadFee) := by
  rw [uploadCost]
  cases h : ps.get? url with
  | none => rfl
  | some prov =>
    have works := working prov (Record.get?_mem_values h)
    obtain ⟨fee, isFee⟩ := works.hasTruthUploadFee
    simp [works.isUp, works.isEnabled, isFee]

def Chargeable (providers : Record String ProviderStatus) (method : Core.PolicyMethod) : Prop :=
  method.authenticationMethod < 2 ^ 32 ∧ ∃ fee, uploadCost providers method.provider = some fee

theorem addTruthCosts_chargeable {numYears : Nat} {providers : Record String ProviderStatus}
    {methods seen : List Core.PolicyMethod} {costs after : List Fee}
    (sawChargeable : ∀ method ∈ seen, Chargeable providers method)
    (isOk : addTruthCosts library numYears providers methods seen costs = .ok after) :
    ∀ method ∈ methods, Chargeable providers method := by
  induction methods generalizing seen costs with
  | nil => exact nofun
  | cons method rest ih =>
    rw [addTruthCosts] at isOk
    split at isOk
    · cases isOk
    rename_i small
    split at isOk
    · next again => exact forall_mem_cons.mpr ⟨sawChargeable _ again, ih sawChargeable isOk⟩
    split at isOk
    · cases isOk
    rename_i fee isFee
    have chargeable : Chargeable providers method := ⟨Nat.lt_of_not_le small, fee, isFee⟩
    cases r : addFeeOver library numYears fee costs with
    | error failure =>
      rw [r] at isOk
      cases isOk
    | ok between =>
      rw [r] at isOk
      exact forall_mem_cons.mpr
        ⟨chargeable, ih (forall_mem_cons.mpr ⟨chargeable, sawChargeable⟩) isOk⟩

theorem addTruthCosts_adds (documented : library.Documented) (apart : library.TellsApart has)
    (numYears : Nat) {providers : Record String ProviderStatus} {methods seen : List Core.PolicyMethod}
    (chargeable : ∀ m ∈ methods, Chargeable providers m)
    (allKnown : ∀ m ∈ methods, ∀ fee, uploadCost providers m.provider = some fee →
      fee.currency ∈ has) :
    Adds has (addTruthCosts library numYears providers methods seen) fun cur =>
      ∑ m ∈ methods.toFinset \ seen.toFinset,
        feeIn (uploadCost providers m.provider) cur * numYears := by
  induction methods generalizing seen with
  | nil =>
    have runs : addTruthCosts library numYears providers [] seen = .ok := rfl
    rw [runs]
    apply Adds.nothing.congr
    intro cur
    rw [toFinset_nil, Finset.empty_sdiff, Finset.sum_empty]
  | cons m rest ih =>
    rw [forall_mem_cons] at chargeable allKnown
    obtain ⟨small, fee, isFee⟩ := chargeable.1
    rw [← Nat.not_le] at small
    by_cases again : m ∈ seen
    · have runs : addTruthCosts library numYears providers (m :: rest) seen =
          addTruthCosts library numYears providers rest seen := by
        funext costs
        rw [addTruthCosts, if_neg small, if_pos again]
      rw [runs]
      apply (ih chargeable.2 allKnown.2).congr
      intro cur
      rw [toFinset_cons, Finset.insert_sdiff_of_mem _ (List.mem_toFinset.mpr again)]
    · have runs : addTruthCosts library numYears providers (m :: rest) seen = fun costs =>
          addFeeOver library numYears fee costs >>=
            addTruthCosts library numYears providers rest (m :: seen) := by
        funext costs
        rw [addTruthCosts, if_neg small, if_neg again, isFee]
      rw [runs]
      apply ((addFeeOver_adds documented apart numYears (allKnown.1 fee isFee)).andThen
        (ih chargeable.2 allKnown.2)).congr
      intro cur
      have newOne : m ∉ rest.toFinset \ (m :: seen).toFinset := by simp
      have split : (m :: rest).toFinset \ seen.toFinset =
          insert m (rest.toFinset \ (m :: seen).toFinset) := by
        ext y
        by_cases eq : y = m
        · simp [eq, again]
        · simp [eq]
      rw [split, Finset.sum_insert newOne, isFee]
      rfl

end Providers

end Anastasis.Reducer
