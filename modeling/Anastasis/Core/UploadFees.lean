import Anastasis.Library.Record
import Anastasis.TalerUtil.Objects
import Anastasis.Wallet.Amounts
import Mathlib.Algebra.BigOperators.Group.Finset.Basic
import Mathlib.Data.Finset.Dedup
import Std.Data.String.ToNat

/-! What the upload of a backup costs, as the TypeScript reducer calculates it. -/

set_option autoImplicit false

namespace Anastasis.Core

open Library TalerUtil Wallet List Option

structure Fee where
  currency : String
  amount : AmountJson
deriving DecidableEq

/-- What is known about a provider; providers that were not contacted have no status and no fees. -/
structure ProviderStatus where
  httpStatus : Option Nat
  disabled : Bool
  annualFee : Option Fee
  truthUploadFee : Option Fee

structure AuthMethod where
  type : String
  instructions : String
  challenge : String

structure PolicyMethod where
  authenticationMethod : Nat
  provider : String
deriving DecidableEq

structure Policy where
  methods : List PolicyMethod

inductive Timestamp where
  | never
  | at (tMs : Nat)
deriving DecidableEq

structure FeesState where
  expiration : Option Timestamp
  authenticationProviders : Record String ProviderStatus
  authenticationMethods : List AuthMethod
  policies : List Policy

def policyMethods (state : FeesState) : List PolicyMethod := state.policies.flatMap (·.methods)

abbrev FeePerCurrency := Record String AmountJson

def getDurationRemaining (deadlineMs nowMs : Nat) : Nat :=
  if deadlineMs < nowMs then 0 else deadlineMs - nowMs

def yearMs : Nat := 1000 * 60 * 60 * 24 * 365

def toIntegerYears (durationMs : Nat) : Nat := (durationMs + (yearMs - 1)) / yearMs

def addFee (fees : FeePerCurrency) (fee : Fee) : Option FeePerCurrency :=
  if fee.currency ∈ objectPrototype then none
  else some (fees.set fee.currency
    (Amounts.add ((fees.get? fee.currency).getD Amounts.getZero) [fee.amount]).amount)

def addAnnualFee (years : Nat) (fees : FeePerCurrency) (prov : ProviderStatus) :
    Option FeePerCurrency :=
  match prov.annualFee with
  | none => some fees
  | some fee => addFee fees { fee with amount := (Amounts.mult fee.amount years).amount }

def coverageKey (method : PolicyMethod) : String :=
  toString method.authenticationMethod ++ "@" ++ method.provider

def addTruthFee (state : FeesState) (method : PolicyMethod) (fees : FeePerCurrency) :
    Option FeePerCurrency := do
  let _ ← state.authenticationMethods[method.authenticationMethod]?
  let prov ← state.authenticationProviders.get? method.provider
  addFee fees (← prov.truthUploadFee)

/-- The methods of all policies, with the keys that are covered already. -/
def addTruthFees (state : FeesState) : List PolicyMethod → List String → FeePerCurrency →
    Option FeePerCurrency
  | [], _, fees => some fees
  | method :: rest, covered, fees =>
    if coverageKey method ∈ covered then addTruthFees state rest covered fees
    else do
      let fees ← addTruthFee state method fees
      addTruthFees state rest (coverageKey method :: covered) fees

/-- `none` if an exception is thrown, and no fees if there is no expiration. -/
def updateUploadFees (state : FeesState) (nowMs : Nat) : Option (Option FeePerCurrency) :=
  match state.expiration with
  | none => some none
  | some .never => none
  | some (.at expiration) => do
      let years := toIntegerYears (getDurationRemaining expiration nowMs)
      let fees ← state.authenticationProviders.values.foldlM (addAnnualFee years) Record.empty
      let fees ← addTruthFees state (policyMethods state) [] fees
      return some fees

/-- What a record of fees comes to in a currency, in the smallest units. -/
def FeePerCurrency.inCurrency (fees : FeePerCurrency) (currency : String) : Nat :=
  ((fees.get? currency).map (·.units)).getD 0

def Fee.inCurrency (fee : Fee) (currency : String) : Nat :=
  if fee.currency = currency then fee.amount.units else 0

def feeIn (fee : Option Fee) (currency : String) : Nat :=
  (fee.map (·.inCurrency currency)).getD 0

def truthFee (state : FeesState) (url : String) : Option Fee :=
  (state.authenticationProviders.get? url).bind (·.truthUploadFee)

theorem cut_unique {α : Type} {mark : α} {pre before' after after' : List α}
    (x : mark ∉ pre) (first' : mark ∉ before')
    (eq : pre ++ mark :: after = before' ++ mark :: after') : pre = before' ∧ after = after' := by
  induction pre generalizing before' with
  | nil =>
    cases before' with
    | nil => exact ⟨rfl, tail_eq_of_cons_eq eq⟩
    | cons head tail => exact absurd (head_eq_of_cons_eq eq ▸ mem_cons_self) first'
  | cons head tail ih =>
    rw [mem_cons, not_or] at x
    cases before' with
    | nil => exact absurd (head_eq_of_cons_eq eq).symm x.1
    | cons head' tail' =>
      rw [mem_cons, not_or] at first'
      obtain ⟨tails, afters⟩ := ih x.2 first'.2 (tail_eq_of_cons_eq eq)
      rw [head_eq_of_cons_eq eq, tails]
      exact ⟨rfl, afters⟩

theorem not_mem_repr (n : Nat) : '@' ∉ n.repr.toList := by
  intro mem
  rw [Nat.toList_repr] at mem
  exact absurd (Nat.isDigit_of_mem_toDigits (by omega) (by omega) mem) (by decide)

theorem coverageKey_toList (m : PolicyMethod) : (coverageKey m).toList =
      m.authenticationMethod.repr.toList ++ '@' :: m.provider.toList := by
  rw [coverageKey, String.toList_append, String.toList_append, append_assoc]
  rfl

theorem coverageKey_injective : Function.Injective coverageKey := by
  intro x y eq
  have lists := congrArg String.toList eq
  rw [coverageKey_toList, coverageKey_toList] at lists
  obtain ⟨numbers, urls⟩ := cut_unique (not_mem_repr _) (not_mem_repr _) lists
  obtain ⟨number, url⟩ := x
  obtain ⟨number', url'⟩ := y
  rw [PolicyMethod.mk.injEq]
  exact ⟨Nat.repr_injective (String.toList_injective numbers), String.toList_injective urls⟩

/-- An operation on fees that works under a condition, and then adds what is owed in each
currency as long as this is not too much for an amount. -/
structure AddsFees (run : FeePerCurrency → Option FeePerCurrency) (condition : Prop)
    (owed : String → Nat) : Prop where
  returns : ∀ fees, (∃ after, run fees = some after) ↔ condition
  exact : ∀ {fees after : FeePerCurrency}, run fees = some after → ∀ currency,
    fees.inCurrency currency + owed currency < AmountJson.limit →
    after.inCurrency currency = fees.inCurrency currency + owed currency

namespace AddsFees

variable {first x y : FeePerCurrency → Option FeePerCurrency} {condition cond further : Prop}
  {owed more : String → Nat}

theorem nothing : AddsFees some True fun _ => 0 where
  returns := fun fees => ⟨fun _ => trivial, fun _ => ⟨fees, rfl⟩⟩
  exact := by
    intro fees after isSome cur fits
    cases isSome
    rfl

theorem fails : AddsFees (fun _ => none) False owed where
  returns := fun _ => ⟨(fun ⟨_, isSome⟩ => nomatch isSome), False.elim⟩
  exact := nofun

theorem andThen (adds : AddsFees x cond owed) (addsMore : AddsFees y further more) :
    AddsFees (fun fees => x fees >>= y) (cond ∧ further) fun cur => owed cur + more cur where
  returns := by
    intro fees
    rw [← adds.returns fees]
    constructor
    · intro ⟨after, isSome⟩
      obtain ⟨between, r, ranMore⟩ := bind_eq_some_iff.mp isSome
      exact ⟨⟨between, r⟩, (addsMore.returns between).mp ⟨after, ranMore⟩⟩
    intro ⟨⟨between, r⟩, holds⟩
    obtain ⟨after, ranMore⟩ := (addsMore.returns between).mpr holds
    exact ⟨after, bind_eq_some_iff.mpr ⟨between, r, ranMore⟩⟩
  exact := by
    intro fees after isSome cur fits
    obtain ⟨between, r, ranMore⟩ := bind_eq_some_iff.mp isSome
    have sum := adds.exact r cur (by omega)
    rw [addsMore.exact ranMore cur (by omega), sum, Nat.add_assoc]

theorem congr {same : Prop} {equal : String → Nat} (adds : AddsFees first cond owed)
    (iff : cond ↔ same) (equals : ∀ cur, owed cur = equal cur) : AddsFees first same equal := by
  rw [← propext iff, ← funext equals]
  exact adds

end AddsFees

def Addable (fee : Fee) : Prop := fee.currency ∉ objectPrototype

theorem addFee_adds {fee : Fee} {units : Nat}
    (exact : units < AmountJson.limit → fee.amount.units = units) :
    AddsFees (fun fees => addFee fees fee) (Addable fee)
      fun cur => if fee.currency = cur then units else 0 where
  returns := by
    intro fees
    rw [addFee, Addable]
    split
    · next inherited => simp [inherited]
    · next own => simp [own]
  exact := by
    intro fees after isSome cur fits
    rw [addFee] at isSome
    split at isSome
    · cases isSome
    cases isSome
    simp only [FeePerCurrency.inCurrency] at fits ⊢
    rw [Record.get?_set]
    by_cases eq : fee.currency = cur
    · subst eq
      simp only [if_true, map_some, getD_some] at fits ⊢
      have units := exact (by omega)
      cases h : fees.get? fee.currency with
      | none =>
        rw [h] at fits
        simp only [map_none, getD_none, Nat.zero_add] at fits ⊢
        rw [Amounts.add_one_units (by rw [Amounts.getZero_units]; omega),
          Amounts.getZero_units, Nat.zero_add, units]
      | some old =>
        rw [h] at fits
        simp only [map_some, getD_some] at fits ⊢
        rw [Amounts.add_one_units (by omega), units]
    · rw [if_neg (Ne.symm eq), if_neg eq, Nat.add_zero]

theorem addAnnualFees_adds (years : Nat) (ps : List ProviderStatus) :
    AddsFees (fun fees => ps.foldlM (addAnnualFee years) fees)
      (∀ prov ∈ ps, ∀ fee, prov.annualFee = some fee → Addable fee) fun cur =>
        (ps.map fun prov => feeIn prov.annualFee cur * years).sum := by
  induction ps with
  | nil => exact AddsFees.nothing.congr (by simp) fun _ => rfl
  | cons prov rest ih =>
    have head : AddsFees (fun fees => addAnnualFee years fees prov)
        (∀ fee, prov.annualFee = some fee → Addable fee)
        fun cur => feeIn prov.annualFee cur * years := by
      simp only [addAnnualFee]
      cases isFee : prov.annualFee with
      | none =>
        apply AddsFees.nothing.congr
        · simp
        · intro cur
          exact (Nat.zero_mul years).symm
      | some fee =>
        have adds := @addFee_adds { fee with amount := (Amounts.mult fee.amount years).amount }
          (fee.amount.units * years) Amounts.mult_units
        apply adds.congr
        · simp [Addable]
        intro cur
        simp only [feeIn, Fee.inCurrency, map_some, getD_some]
        split
        · rfl
        · rw [Nat.zero_mul]
    apply (head.andThen ih).congr
    · rw [forall_mem_cons]
    · intro cur
      rw [map_cons, sum_cons]

def Coverable (state : FeesState) (method : PolicyMethod) : Prop :=
  method.authenticationMethod < state.authenticationMethods.length ∧
    ∃ fee, truthFee state method.provider = some fee ∧ Addable fee

theorem addTruthFee_adds (st : FeesState) (m : PolicyMethod) :
    AddsFees (addTruthFee st m) (Coverable st m) (feeIn (truthFee st m.provider)) := by
  have run : addTruthFee st m = fun fees =>
      (st.authenticationMethods[m.authenticationMethod]?).bind fun _ =>
        (truthFee st m.provider).bind fun fee => addFee fees fee := by
    funext fees
    rw [addTruthFee, truthFee, bind_assoc]
    rfl
  rw [run]
  cases isMethod : st.authenticationMethods[m.authenticationMethod]? with
  | none =>
    rw [List.getElem?_eq_none_iff] at isMethod
    refine AddsFees.fails.congr ⟨False.elim, fun coverable => ?_⟩ fun _ => rfl
    exact absurd coverable.1 (Nat.not_lt.mpr isMethod)
  | some authMethod =>
    obtain ⟨mem, -⟩ := List.getElem?_eq_some_iff.mp isMethod
    cases isFee : truthFee st m.provider with
    | none =>
      refine AddsFees.fails.congr ⟨False.elim, fun coverable => ?_⟩ fun _ => rfl
      obtain ⟨fee, isSome, -⟩ := coverable.2
      exact nomatch isFee.symm.trans isSome
    | some fee =>
      have adds := @addFee_adds fee fee.amount.units fun _ => rfl
      refine adds.congr ⟨fun addable => ⟨mem, fee, isFee, addable⟩, fun coverable => ?_⟩
        fun _ => rfl
      obtain ⟨eq, isSome, addable⟩ := coverable.2
      cases isFee.symm.trans isSome
      exact addable

theorem addTruthFees_adds (st : FeesState) (methods seen : List PolicyMethod) :
    AddsFees (addTruthFees st methods (seen.map coverageKey))
      (∀ m ∈ methods, m ∉ seen → Coverable st m)
      fun currency => ∑ m ∈ methods.toFinset \ seen.toFinset,
        feeIn (truthFee st m.provider) currency := by
  induction methods generalizing seen with
  | nil =>
    have runs : addTruthFees st [] (seen.map coverageKey) = some := rfl
    rw [runs]
    apply AddsFees.nothing.congr
    · simp
    · intro currency
      rw [toFinset_nil, Finset.empty_sdiff, Finset.sum_empty]
  | cons m rest ih =>
    have covered : coverageKey m ∈ seen.map coverageKey ↔ m ∈ seen :=
      List.mem_map_of_injective coverageKey_injective
    by_cases again : m ∈ seen
    · have runs : addTruthFees st (m :: rest) (seen.map coverageKey) =
          addTruthFees st rest (seen.map coverageKey) := by
        funext fees
        rw [addTruthFees, if_pos (covered.mpr again)]
      rw [runs]
      apply (ih seen).congr
      · rw [forall_mem_cons]
        exact ⟨fun holds => ⟨fun fresh => absurd again fresh, holds⟩, And.right⟩
      · intro currency
        rw [toFinset_cons, Finset.insert_sdiff_of_mem _ (List.mem_toFinset.mpr again)]
    · have runs : addTruthFees st (m :: rest) (seen.map coverageKey) = fun fees =>
          addTruthFee st m fees >>= addTruthFees st rest ((m :: seen).map coverageKey) := by
        funext fees
        rw [addTruthFees, if_neg (mt covered.mp again)]
        rfl
      rw [runs]
      apply ((addTruthFee_adds st m).andThen (ih (m :: seen))).congr
      · rw [forall_mem_cons]
        constructor
        · intro ⟨holds, ys⟩
          refine ⟨fun _ => holds, fun y mem fresh => ?_⟩
          by_cases eq : y = m
          · exact eq ▸ holds
          · exact ys y mem (by simp [eq, fresh])
        intro ⟨holds, ys⟩
        refine ⟨holds again, fun y mem fresh => ys y mem ?_⟩
        rw [mem_cons, not_or] at fresh
        exact fresh.2
      · intro currency
        have newOne : m ∉ rest.toFinset \ (m :: seen).toFinset := by simp
        have split : (m :: rest).toFinset \ seen.toFinset =
            insert m (rest.toFinset \ (m :: seen).toFinset) := by
          ext y
          by_cases eq : y = m
          · simp [eq, again]
          · simp [eq]
        rw [split, Finset.sum_insert newOne]

end Anastasis.Core
