import Anastasis.Wallet.CoinSelection

/-! What a selection of coins leaves to the customer: the wire fees are charged exchange by
exchange against one limit, and what remains of them, with the deposit fees, against another. -/

set_option autoImplicit false

namespace Anastasis.Wallet

open AmountJson List

/-- The wire fees of the exchanges seen so far, and what is left of the limit for them. -/
structure WireFeeAccount where
  limit : Nat
  covered : List String
  fees : Nat

namespace SelectPayCoinRequest

variable (request req : SelectPayCoinRequest)

def wireFee (exchangeBaseUrl : String) : Nat :=
  ((request.wireFeesPerExchange exchangeBaseUrl).getD Amounts.getZero).units

/-- An exchange is charged once; what exceeds the limit is spread over several payments. -/
def charge (account : WireFeeAccount) (exchangeBaseUrl : String) : WireFeeAccount :=
  if exchangeBaseUrl ∈ account.covered then account
  else
    { limit := account.limit - request.wireFee exchangeBaseUrl
      covered := exchangeBaseUrl :: account.covered
      fees := account.fees +
        (request.wireFee exchangeBaseUrl - account.limit) / request.wireFeeAmortization }

def wireFeeAccount (exchanges : List String) : WireFeeAccount :=
  exchanges.foldl request.charge ⟨request.wireFeeLimit.units, [], 0⟩

/-- The deposit fees of the coins and the amortised wire fees of their exchanges, as far as the
merchant does not cover them. -/
def customerFees (coins : List (String × AmountJson)) : Nat :=
  (coins.map fun coin => coin.2.units).sum +
    (request.wireFeeAccount (coins.map Prod.fst)).fees - request.depositFeeLimit.units

theorem wireFeeAccount_append (exs : List String) (exchangeBaseUrl : String) :
    req.wireFeeAccount (exs ++ [exchangeBaseUrl]) =
      req.charge (req.wireFeeAccount exs) exchangeBaseUrl := by
  simp only [wireFeeAccount, foldl_append, foldl_cons, foldl_nil]

end SelectPayCoinRequest

namespace CoinSelectionTally

def customerFees (tally : CoinSelectionTally) : Nat :=
  tally.customerDepositFees.units + tally.customerWireFees.units

@[simp] theorem amortisedWireFee_units (tally : CoinSelectionTally) (wireFee : AmountJson)
    (wireFeeAmortization : ℕ+) : (tally.amortisedWireFee wireFee wireFeeAmortization).units =
      (wireFee.units - tally.amountWireFeeLimitRemaining.units) / wireFeeAmortization := by
  have remains : wireFee.units - Nat.min tally.amountWireFeeLimitRemaining.units wireFee.units =
      wireFee.units - tally.amountWireFeeLimitRemaining.units := by
    simp only [Nat.min_def]
    split <;> omega
  simp only [amortisedWireFee, Amounts.divide_units, Amounts.sub_units, Amounts.min_units, remains]

@[simp] theorem leftToCustomer_units (tally : CoinSelectionTally) (fee : AmountJson) :
    (tally.leftToCustomer fee).units = fee.units - tally.amountDepositFeeLimitRemaining.units := by
  simp only [leftToCustomer, Amounts.sub_units, Amounts.min_units, Nat.min_def]
  split <;> omega

@[simp] theorem useDepositFeeLimit_units (tally : CoinSelectionTally) (fee : AmountJson) :
    (tally.useDepositFeeLimit fee).units =
      tally.amountDepositFeeLimitRemaining.units - fee.units := by
  simp only [useDepositFeeLimit, Amounts.sub_units, Amounts.min_units, Nat.min_def]
  split <;> omega

end CoinSelectionTally

section Fits

variable (tally : CoinSelectionTally) (request req : SelectPayCoinRequest) (exchangeBaseUrl url baseUrl : String)
  (feeDeposit : AmountJson)

def CoinSelectionTally.Fits (customerFees fee : AmountJson) : Prop :=
  (Amounts.add tally.amountPayRemaining [tally.leftToCustomer fee]).saturated = false ∧
    (Amounts.add customerFees [tally.leftToCustomer fee]).saturated = false
deriving Decidable

def CoinSelectionTally.WireFeeFits : Prop :=
  exchangeBaseUrl ∈ tally.wireFeeCoveredForExchange ∨
    tally.Fits tally.customerWireFees (tally.amortisedWireFee
      ((request.wireFeesPerExchange exchangeBaseUrl).getD Amounts.getZero)
      request.wireFeeAmortization)
deriving Decidable

def CoinSelectionTally.FeesFit : Prop :=
  tally.WireFeeFits request exchangeBaseUrl ∧
    let charged := tally.tallyWireFee request.wireFeesPerExchange request.wireFeeAmortization
      exchangeBaseUrl
    charged.Fits charged.customerDepositFees feeDeposit
deriving Decidable

end Fits

/-- A fee was taken from what is left of the limit for deposit fees, and its rest from the
customer. -/
structure CoinSelectionTally.Charged (fee : Nat) (before after : CoinSelectionTally) : Prop where
  depositFeeLimit : after.amountDepositFeeLimitRemaining.units =
    before.amountDepositFeeLimitRemaining.units - fee
  customerFees : after.customerFees =
    before.customerFees + (fee - before.amountDepositFeeLimitRemaining.units)
  remaining : after.amountPayRemaining.units =
    before.amountPayRemaining.units + (fee - before.amountDepositFeeLimitRemaining.units)

namespace CoinSelectionTally

theorem Charged.nothing (tally : CoinSelectionTally) : Charged 0 tally tally := by
  constructor <;> omega

theorem Charged.trans {fee fee' : Nat} {before mid after : CoinSelectionTally}
    (x : Charged fee before mid) (y : Charged fee' mid after) :
    Charged (fee + fee') before after := by
  obtain ⟨firstLimit, firstFees, firstRemaining⟩ := x
  obtain ⟨secondLimit, secondFees, secondRemaining⟩ := y
  constructor <;> omega

variable {request req : SelectPayCoinRequest} {tally : CoinSelectionTally} {exchangeBaseUrl url baseUrl : String}
  {feeDeposit : AmountJson}

theorem tallyDepositFee_charged (fits : tally.Fits tally.customerDepositFees feeDeposit) :
    Charged feeDeposit.units tally (tally.tallyDepositFee feeDeposit) := by
  have remaining := Amounts.add_exact fits.1
  have fees := Amounts.add_exact fits.2
  rw [leftToCustomer_units] at remaining fees
  constructor
  · exact useDepositFeeLimit_units _ _
  · simp only [customerFees, tallyDepositFee, fees]
    omega
  · exact remaining

theorem tallyWireFee_charged (fits : tally.WireFeeFits req url) :
    ∀ account : WireFeeAccount, tally.amountWireFeeLimitRemaining.units = account.limit →
      tally.wireFeeCoveredForExchange = account.covered →
      let charged := tally.tallyWireFee req.wireFeesPerExchange req.wireFeeAmortization url
      let account' := req.charge account url
      charged.amountWireFeeLimitRemaining.units = account'.limit ∧
        charged.wireFeeCoveredForExchange = account'.covered ∧
        Charged (account'.fees - account.fees) tally charged ∧ account.fees ≤ account'.fees := by
  intro account limits covers
  unfold tallyWireFee SelectPayCoinRequest.charge
  by_cases seen : url ∈ tally.wireFeeCoveredForExchange
  · rw [if_pos seen, if_pos (covers ▸ seen)]
    refine ⟨limits, covers, ?_, Nat.le_refl _⟩
    rw [Nat.sub_self]
    exact .nothing tally
  rw [if_neg seen, if_neg (covers ▸ seen)]
  have fits := fits.resolve_left seen
  have remaining := Amounts.add_exact fits.1
  have fees := Amounts.add_exact fits.2
  rw [leftToCustomer_units, amortisedWireFee_units] at remaining fees
  refine ⟨?_, ?_, ?_, Nat.le_add_right _ _⟩
  · rw [← limits]
    simp only [Amounts.sub_units, Amounts.min_units, Nat.min_def, SelectPayCoinRequest.wireFee]
    split <;> omega
  · rw [← covers]
  rw [← limits, Nat.add_sub_cancel_left]
  constructor
  · simp only [useDepositFeeLimit_units, amortisedWireFee_units, SelectPayCoinRequest.wireFee]
  · simp only [customerFees, fees, SelectPayCoinRequest.wireFee]
    omega
  · simp only [remaining, SelectPayCoinRequest.wireFee]

end CoinSelectionTally

structure CoinSelectionTally.Tallied (request : SelectPayCoinRequest)
    (coins : List (String × AmountJson)) (tally : CoinSelectionTally) : Prop where
  wireFeeLimit : tally.amountWireFeeLimitRemaining.units =
    (request.wireFeeAccount (coins.map Prod.fst)).limit
  covered : tally.wireFeeCoveredForExchange =
    (request.wireFeeAccount (coins.map Prod.fst)).covered
  depositFeeLimit : tally.amountDepositFeeLimitRemaining.units = request.depositFeeLimit.units -
    ((coins.map fun coin => coin.2.units).sum +
      (request.wireFeeAccount (coins.map Prod.fst)).fees)
  customerFees : tally.customerFees = request.customerFees coins

namespace CoinSelectionTally

variable {request req : SelectPayCoinRequest} {coins cs : List (String × AmountJson)}
  {tally : CoinSelectionTally} {exchangeBaseUrl url baseUrl : String} {feeDeposit : AmountJson}

theorem Tallied.start (req : SelectPayCoinRequest) :
    Tallied req [] (Selecting.start req).tally := by
  constructor <;>
    simp [Selecting.start, SelectPayCoinRequest.wireFeeAccount,
      SelectPayCoinRequest.customerFees, CoinSelectionTally.customerFees]

theorem Tallied.pay {paid : AmountJson} (tallied : Tallied req cs tally) :
    Tallied req cs { tally with amountPayRemaining := paid } :=
  ⟨tallied.wireFeeLimit, tallied.covered, tallied.depositFeeLimit, tallied.customerFees⟩

theorem Tallied.tallyFees (tallied : Tallied req cs tally)
    (fits : tally.FeesFit req url feeDeposit) :
    let charged := Wallet.tallyFees tally req.wireFeesPerExchange req.wireFeeAmortization
      url feeDeposit
    Tallied req (cs ++ [(url, feeDeposit)]) charged ∧
      charged.amountPayRemaining.units + tally.customerFees =
        tally.amountPayRemaining.units + charged.customerFees := by
  obtain ⟨limit, covered, wireFee, grows⟩ :=
    tallyWireFee_charged fits.1 _ tallied.wireFeeLimit tallied.covered
  have charged := wireFee.trans (tallyDepositFee_charged fits.2)
  have owed := tallied.depositFeeLimit
  have fees := tallied.customerFees
  have chargedLimit := charged.depositFeeLimit
  have chargedFees := charged.customerFees
  simp only [SelectPayCoinRequest.customerFees] at fees
  constructor
  · constructor
    · rw [map_append, map_singleton, req.wireFeeAccount_append]
      exact limit
    · rw [map_append, map_singleton, req.wireFeeAccount_append]
      exact covered
    · simp only [map_append, map_singleton, req.wireFeeAccount_append, sum_append, sum_singleton]
      unfold Wallet.tallyFees
      omega
    simp only [SelectPayCoinRequest.customerFees, map_append, map_singleton,
      req.wireFeeAccount_append, sum_append, sum_singleton]
    unfold Wallet.tallyFees
    omega
  · have remaining := charged.remaining
    unfold Wallet.tallyFees
    omega

end CoinSelectionTally

end Anastasis.Wallet
