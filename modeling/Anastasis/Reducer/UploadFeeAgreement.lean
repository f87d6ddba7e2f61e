import Anastasis.Reducer.ExpirationCost
import Mathlib.Algebra.Order.Floor.Div

/-! What both reducers take for the upload of a backup. -/

set_option autoImplicit false

namespace Anastasis.Reducer

open Library Core TalerUtil Wallet Stasis List Option

def startedYears (remaining : Time) : Nat := remaining ⌈/⌉ years

def usedMethods (state : FeesState) : Finset Core.PolicyMethod := (policyMethods state).toFinset

/-- The annual fees of all providers, whether a policy uses them or not. -/
def annualFeesOwed (state : FeesState) (numYears : Nat) (currency : String) : Nat :=
  (state.authenticationProviders.values.map fun provider =>
    feeIn provider.annualFee currency * numYears).sum

def truthFeesOwed (state : FeesState) (numYears : Nat) (currency : String) : Nat :=
  ∑ method ∈ usedMethods state, feeIn (truthFee state method.provider) currency * numYears

def feesOwed (state : FeesState) (numYears : Nat) (currency : String) : Nat :=
  annualFeesOwed state numYears currency + truthFeesOwed state numYears currency

def feeCurrencies (state : FeesState) : List String :=
  state.authenticationProviders.values.flatMap fun provider =>
    (provider.annualFee.toList ++ provider.truthUploadFee.toList).map (·.currency)

theorem expirationToYears_eq {now exp : Time} (finite : exp ≠ forever) :
    expirationToYears now exp = startedYears (exp - now) := by
  rw [expirationToYears, startedYears, absoluteGetRemaining, absoluteGetDifference, if_neg finite,
    Nat.ceilDiv_eq_add_pred_div]
  have rounded : ∀ rem : Nat, (if rem % years ≠ 0 then rem / years + 1 else rem / years) =
      (rem + years - 1) / years := by
    intro rem
    by_cases st : rem % years ≠ 0
    · rw [if_pos st]
      simp only [years] at st ⊢
      omega
    rw [if_neg st]
    simp only [years] at st ⊢
    omega
  exact rounded (exp - now)

theorem toIntegerYears_eq (expirationMs now : Nat) :
    toIntegerYears (getDurationRemaining expirationMs (now / 1000)) =
      startedYears (expirationMs * 1000 - now) := by
  rw [startedYears, Nat.ceilDiv_eq_add_pred_div, toIntegerYears, getDurationRemaining]
  simp only [years, yearMs]
  split
  · omega
  · omega

section Currencies

variable {state st : FeesState}

theorem annualFee_currency {prov : ProviderStatus} {fee : Fee}
    (isProvider : prov ∈ state.authenticationProviders.values)
    (isFee : prov.annualFee = some fee) : fee.currency ∈ feeCurrencies state := by
  rw [feeCurrencies, mem_flatMap]
  exact ⟨prov, isProvider, by simp [isFee]⟩

theorem truthFee_currency {url : String} {fee : Fee} (isFee : truthFee state url = some fee) :
    fee.currency ∈ feeCurrencies state := by
  obtain ⟨prov, h, isFee⟩ := bind_eq_some_iff.mp isFee
  rw [feeCurrencies, mem_flatMap]
  exact ⟨prov, Record.get?_mem_values h, by simp [isFee]⟩

end Currencies

section Cost

variable {library : AmountLibrary} {state st : FeesState}

def collectCosts (library : AmountLibrary) (state : FeesState) (numYears : Nat) (costs : List Fee) :
    Except CostFailure (List Fee) := do
  let costs ← state.authenticationProviders.values.foldlM (addProviderCost library numYears) costs
  addTruthCosts library numYears state.authenticationProviders (policyMethods state) [] costs

theorem chargeable_iff (working : ∀ prov ∈ st.authenticationProviders.values, Working prov)
    (m : Core.PolicyMethod) : Chargeable st.authenticationProviders m ↔
      m.authenticationMethod < 2 ^ 32 ∧ m.provider ∈ st.authenticationProviders.keys := by
  rw [Chargeable, uploadCost_working working, Record.mem_keys_iff]
  apply and_congr_right'
  constructor
  · intro ⟨fee, isFee⟩
    obtain ⟨prov, h, -⟩ := bind_eq_some_iff.mp isFee
    exact ⟨prov, h⟩
  intro ⟨prov, h⟩
  obtain ⟨fee, isFee⟩ := (working prov (Record.get?_mem_values h)).hasTruthUploadFee
  exact ⟨fee, bind_eq_some_iff.mpr ⟨prov, h, isFee⟩⟩

theorem collectCosts_adds (documented : library.Documented)
    (apart : library.TellsApart (feeCurrencies st)) (numYears : Nat)
    (working : ∀ prov ∈ st.authenticationProviders.values, Working prov)
    (chargeable : ∀ m ∈ policyMethods st, Chargeable st.authenticationProviders m) :
    Adds (feeCurrencies st) (collectCosts library st numYears) (feesOwed st numYears) := by
  have annual := addProviders_adds documented apart numYears working
    fun prov isProvider fee isFee => annualFee_currency isProvider isFee
  have truths := @addTruthCosts_adds _ _ documented apart numYears _ _ [] chargeable
    fun m _ fee isFee => truthFee_currency (uploadCost_working working m.provider ▸ isFee)
  apply (annual.andThen truths).congr
  intro cur
  simp only [feesOwed, annualFeesOwed, truthFeesOwed, usedMethods, truthFee,
    uploadCost_working working, toFinset_nil, Finset.sdiff_empty]

theorem collectCosts_chargeable {numYears : Nat} {costs after : List Fee}
    (isOk : collectCosts library st numYears costs = .ok after) :
    ∀ method ∈ policyMethods st, Chargeable st.authenticationProviders method := by
  rw [collectCosts] at isOk
  cases r : st.authenticationProviders.values.foldlM (addProviderCost library numYears) costs with
  | error failure =>
    rw [r] at isOk
    cases isOk
  | ok between =>
    rw [r] at isOk
    exact addTruthCosts_chargeable (fun _ seen => absurd seen not_mem_nil) isOk

/-- The costs are collected unless a method cannot be charged or a total is too much. -/
theorem collectCosts_isOk (documented : library.Documented)
    (apart : library.TellsApart (feeCurrencies st)) (numYears : Nat)
    (working : ∀ prov ∈ st.authenticationProviders.values, Working prov) :
    (∃ after, collectCosts library st numYears [] = .ok after) ↔
      (∀ m ∈ policyMethods st, Chargeable st.authenticationProviders m) ∧
        ∀ cur, feesOwed st numYears cur < AmountJson.limit := by
  constructor
  · intro ⟨after, isOk⟩
    have chargeable := collectCosts_chargeable isOk
    obtain ⟨separate, totals⟩ :=
      (collectCosts_adds documented apart numYears working chargeable).exact Separate.nil isOk
    refine ⟨chargeable, fun cur => ?_⟩
    have small := separate.costsIn_lt cur
    rw [totals] at small
    exact Nat.lt_of_le_of_lt (Nat.le_add_left _ _) small
  · intro ⟨chargeable, inRange⟩
    cases r : collectCosts library st numYears [] with
    | ok after => exact ⟨after, rfl⟩
    | error failure =>
      obtain ⟨cur, large⟩ :=
        (collectCosts_adds documented apart numYears working chargeable).enough Separate.nil r
      have small := inRange cur
      rw [costsIn, map_nil, sum_nil, Nat.zero_add] at large
      omega

theorem updateExpirationCost_eq (library : AmountLibrary) (st : FeesState) (now exp : Time) :
    updateExpirationCost library st now exp =
      (collectCosts library st (expirationToYears now exp) []).map fun costs =>
        let uploadFees := costs.filter fun cost => cost.amount.value ≠ 0 ∨ cost.amount.fraction ≠ 0
        let exp := if uploadFees = [] then relativeToAbsolute now freeStorage else exp
        ⟨uploadFees, roundAbs exp⟩ := by
  rw [updateExpirationCost, collectCosts]
  cases st.authenticationProviders.values.foldlM
      (addProviderCost library (expirationToYears now exp)) [] with
  | error failure => rfl
  | ok between =>
    simp only [bind, Except.bind]
    cases addTruthCosts library (expirationToYears now exp) st.authenticationProviders
        (policyMethods st) [] between with
    | error failure => rfl
    | ok after => rfl

theorem units_ne_zero (amount : AmountJson) :
    amount.value ≠ 0 ∨ amount.fraction ≠ 0 ↔ amount.units ≠ 0 := by
  simp only [AmountJson.units, amountFractionalBase]
  omega

theorem Separate.mem_nonzero {known : List String} {costs : List Fee}
    (separate : Separate known costs) (fee : Fee) :
    fee ∈ costs.filter (fun cost => cost.amount.value ≠ 0 ∨ cost.amount.fraction ≠ 0) ↔
      fee.amount.units = costsIn costs fee.currency ∧ fee.amount.units ≠ 0 := by
  rw [mem_filter, decide_eq_true_iff, units_ne_zero]
  constructor
  · intro ⟨mem, nonzero⟩
    exact ⟨(separate.costsIn_eq mem).symm, nonzero⟩
  intro ⟨isTotal, nonzero⟩
  have has : fee.currency ∈ costs.map (·.currency) := by
    by_contra gone
    rw [costsIn_absent gone] at isTotal
    exact nonzero isTotal
  obtain ⟨cost, mem, eq⟩ := List.mem_map.mp has
  rw [← eq, separate.costsIn_eq mem] at isTotal
  obtain ⟨cur, amount⟩ := fee
  obtain ⟨currency', amount'⟩ := cost
  cases eq
  cases AmountJson.units_injective isTotal
  exact ⟨mem, nonzero⟩

end Cost

section Fees

variable {state st : FeesState}

/-- The fees are calculated unless an exception is thrown, and then no total is wrong that is not
too much for an amount. -/
theorem updateUploadFees_adds (state : FeesState) (numYears : Nat) : AddsFees (fun fees => do
        let fees ← state.authenticationProviders.values.foldlM (addAnnualFee numYears) fees
        addTruthFees state (policyMethods state) [] fees)
      ((∀ prov ∈ state.authenticationProviders.values, ∀ fee,
          prov.annualFee = some fee → Addable fee) ∧ ∀ m ∈ policyMethods state, Coverable state m)
      fun currency => annualFeesOwed state numYears currency + truthFeesOwed state 1 currency := by
  apply ((addAnnualFees_adds numYears state.authenticationProviders.values).andThen
    (addTruthFees_adds state (policyMethods state) [])).congr
  · simp
  · intro currency
    simp [annualFeesOwed, truthFeesOwed, usedMethods]

theorem updateUploadFees_eq {expirationMs : Nat} (nowMs : Nat)
    (expires : st.expiration = some (.at expirationMs)) : updateUploadFees st nowMs = (do
        let fees ← st.authenticationProviders.values.foldlM
          (addAnnualFee (toIntegerYears (getDurationRemaining expirationMs nowMs))) Record.empty
        addTruthFees st (policyMethods st) [] fees).map some := by
  rw [updateUploadFees, expires]
  simp only [bind_eq_bind, Option.map_bind]
  congr 1
  funext fees
  exact map_eq_bind.symm

end Fees

/-- Both reducers add the annual fees of all providers, and each truth that the policies use once,
for the same number of years. -/
theorem uploadFees_agree {library : AmountLibrary} {state : FeesState} {expirationMs now : Nat}
    (documented : library.Documented) (apart : library.TellsApart (feeCurrencies state))
    (working : ∀ provider ∈ state.authenticationProviders.values, Working provider)
    (expires : state.expiration = some (.at expirationMs))
    (finite : expirationMs * 1000 < forever) :
    let numYears := startedYears (expirationMs * 1000 - now)
    ((∃ cost, updateExpirationCost library state now (expirationMs * 1000) = .ok cost) ↔
      (∀ method ∈ policyMethods state, method.authenticationMethod < 2 ^ 32 ∧
        method.provider ∈ state.authenticationProviders.keys) ∧
      ∀ currency, feesOwed state numYears currency < AmountJson.limit) ∧
    (∀ cost, updateExpirationCost library state now (expirationMs * 1000) = .ok cost →
      (cost.uploadFees.map (·.currency)).Nodup ∧ ∀ fee, fee ∈ cost.uploadFees ↔
        fee.amount.units = feesOwed state numYears fee.currency ∧ fee.amount.units ≠ 0) ∧
    ((∃ fees, updateUploadFees state (now / 1000) = some (some fees)) ↔
      (∀ provider ∈ state.authenticationProviders.values, ∀ fee, provider.annualFee = some fee →
        Addable fee) ∧ ∀ method ∈ policyMethods state, Coverable state method) ∧
    ∀ fees, updateUploadFees state (now / 1000) = some (some fees) →
      (∀ method ∈ usedMethods state, ∀ fee, truthFee state method.provider = some fee →
        fee.amount.units * numYears = fee.amount.units) →
      ∀ currency, feesOwed state numYears currency < AmountJson.limit →
        fees.inCurrency currency = feesOwed state numYears currency := by
  intro numYears
  have yearsC : expirationToYears now (expirationMs * 1000) = numYears :=
    expirationToYears_eq (Nat.ne_of_lt finite)
  have yearsTs : toIntegerYears (getDurationRemaining expirationMs (now / 1000)) = numYears :=
    toIntegerYears_eq expirationMs now
  rw [updateExpirationCost_eq, yearsC, updateUploadFees_eq _ expires, yearsTs]
  have collected := collectCosts_isOk documented apart numYears working
  have calculated := updateUploadFees_adds state numYears
  refine ⟨?_, ?_, ?_, ?_⟩
  · simp only [← chargeable_iff working, ← collected]
    cases collectCosts library state numYears [] with
    | error failure => exact ⟨(fun ⟨_, isOk⟩ => nomatch isOk), fun ⟨_, isOk⟩ => nomatch isOk⟩
    | ok after => exact ⟨fun _ => ⟨after, rfl⟩, fun _ => ⟨_, rfl⟩⟩
  · intro cost isOk
    cases ran : collectCosts library state numYears [] with
    | error failure =>
      rw [ran] at isOk
      cases isOk
    | ok after =>
      rw [ran] at isOk
      cases isOk
      obtain ⟨separate, totals⟩ := (collectCosts_adds documented apart numYears working
        (collectCosts_chargeable ran)).exact Separate.nil ran
      refine ⟨separate.distinct.sublist (List.filter_sublist.map _), fun fee => ?_⟩
      rw [separate.mem_nonzero, totals, costsIn, map_nil, sum_nil, Nat.zero_add]
  · rw [← calculated.returns Record.empty]
    simp only [map_eq_some_iff, Option.some.injEq, exists_eq_right]
  · intro fees isSome unchanged currency inRange
    obtain ⟨after, ran, same⟩ := map_eq_some_iff.mp isSome
    cases same
    have truths : truthFeesOwed state 1 currency = truthFeesOwed state numYears currency := by
      apply Finset.sum_congr rfl
      intro method used
      rw [Nat.mul_one]
      cases isFee : truthFee state method.provider with
      | none => exact (Nat.zero_mul _).symm
      | some fee =>
        rw [feeIn, map_some, getD_some, Fee.inCurrency]
        split
        · exact (unchanged method used fee isFee).symm
        · rw [Nat.zero_mul]
    have empty : FeePerCurrency.inCurrency Record.empty currency = 0 := rfl
    have total := calculated.exact ran currency
    rw [truths, empty, Nat.zero_add] at total
    exact total inRange

def amountOf (units : Nat) : Option AmountJson :=
  if units < AmountJson.limit then
    some ⟨units / amountFractionalBase, units % amountFractionalBase,
      Nat.mod_lt _ AmountJson.base_pos⟩
  else none

def exactLibrary : AmountLibrary where
  multiply := fun amount factor => amountOf (amount.units * factor)
  add := fun first second => amountOf (first.units + second.units)
  cmpCurrency := fun first second => first = second

theorem amountOf_units {units : Nat} {amount : AmountJson} (isSome : amountOf units = some amount) :
    amount.units = units := by
  rw [amountOf] at isSome
  split at isSome
  · cases isSome
    rw [AmountJson.units, Nat.mul_comm, Nat.div_add_mod]
  · cases isSome

theorem amountOf_isSome {units : Nat} :
    (∃ amount, amountOf units = some amount) ↔ units < AmountJson.limit := by
  rw [amountOf]
  split
  · next small => simp [small]
  · next large => simp [large]

theorem exactLibrary_documented : exactLibrary.Documented :=
  ⟨amountOf_units, amountOf_isSome, amountOf_units, amountOf_isSome⟩

def paidProvider (annual truth : Nat) : ProviderStatus where
  httpStatus := some 200
  disabled := false
  annualFee := some ⟨"EUR", AmountJson.ofValue annual⟩
  truthUploadFee := some ⟨"EUR", AmountJson.ofValue truth⟩

theorem paidProvider_working (annual truth : Nat) : Working (paidProvider annual truth) :=
  ⟨rfl, rfl, ⟨_, rfl⟩, ⟨_, rfl⟩⟩

/-- Two policies with the same question, at the first of two providers. -/
def questionState (numYears truth : Nat) : FeesState where
  expiration := some (.at (numYears * yearMs))
  authenticationProviders := Record.ofList
    [("https://a/", paidProvider 3 truth), ("https://b/", paidProvider 5 truth)]
  authenticationMethods := [⟨"question", "Name of the cat?", "Mimi"⟩]
  policies := [⟨[⟨0, "https://a/"⟩]⟩, ⟨[⟨0, "https://a/"⟩]⟩]

def usedProvidersOwed (state : FeesState) (numYears : Nat) (currency : String) : Nat :=
  ∑ url ∈ (usedMethods state).image (·.provider),
    feeIn ((state.authenticationProviders.get? url).bind (·.annualFee)) currency * numYears

/-- Both reducers make the second provider be paid, which no policy uses. -/
theorem unusedProvider_isPaid : startedYears (yearMs * 1000 - 0) = 1 ∧
      usedProvidersOwed (questionState 1 1) 1 "EUR" + truthFeesOwed (questionState 1 1) 1 "EUR" =
        4 * amountFractionalBase ∧
      (updateExpirationCost exactLibrary (questionState 1 1) 0 (yearMs * 1000)).map (·.uploadFees) =
        .ok [⟨"EUR", AmountJson.ofValue 9⟩] ∧
      (updateUploadFees (questionState 1 1) 0).map (·.map (·.inCurrency "EUR")) =
        some (some (9 * amountFractionalBase)) := by
  decide +kernel

theorem questionState_working (numYears truth : Nat) :
    ∀ provider ∈ (questionState numYears truth).authenticationProviders.values,
      Working provider := by
  intro provider mem
  have either : provider = paidProvider 3 truth ∨ provider = paidProvider 5 truth := by
    simpa [questionState, Record.ofList, Record.values, Record.set, Record.replace,
      Record.empty] using mem
  cases either with
  | inl x => exact x ▸ paidProvider_working 3 truth
  | inr y => exact y ▸ paidProvider_working 5 truth

theorem questionState_agrees :
    (∀ cost, updateExpirationCost exactLibrary (questionState 1 1) 0 (yearMs * 1000) = .ok cost →
      ∀ fee, fee ∈ cost.uploadFees ↔
        fee.amount.units = feesOwed (questionState 1 1) (startedYears (yearMs * 1000)) fee.currency ∧
          fee.amount.units ≠ 0) ∧
      ∃ fees, updateUploadFees (questionState 1 1) 0 = some (some fees) ∧
        fees.inCurrency "EUR" = feesOwed (questionState 1 1) (startedYears (yearMs * 1000)) "EUR" := by
  obtain ⟨_, isOk, -, isSome⟩ := @uploadFees_agree exactLibrary (questionState 1 1) yearMs 0
    exactLibrary_documented (fun first _ second _ => decide_eq_true_iff)
    (questionState_working 1 1) (by decide) (by decide)
  have returns : (updateUploadFees (questionState 1 1) 0).map (·.map (·.inCurrency "EUR")) =
      some (some (9 * amountFractionalBase)) := by
    decide +kernel
  obtain ⟨result, ran, isResult⟩ := map_eq_some_iff.mp returns
  obtain ⟨fees, rfl, -⟩ := map_eq_some_iff.mp isResult
  refine ⟨fun cost ok => (isOk cost ok).2, fees, ran, isSome fees ran ?_ "EUR" (by decide +kernel)⟩
  intro method _ fee _
  have oneYear : startedYears (yearMs * 1000 - 0) = 1 := by decide +kernel
  rw [oneYear, Nat.mul_one]

end Anastasis.Reducer
