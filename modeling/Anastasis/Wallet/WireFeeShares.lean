import Anastasis.Wallet.CoinSelectionProperties

/-! How a selection of coins splits the customer's fees into wire fees and deposit fees. -/

set_option autoImplicit false

namespace Anastasis.Wallet

open AmountJson List

namespace SelectPayCoinRequest

variable (request req : SelectPayCoinRequest)

def leftWireFees (coins : List (String × AmountJson)) : Nat :=
  (request.wireFeeAccount (coins.map Prod.fst)).fees

def depositFees (coins : List (String × AmountJson)) : Nat :=
  (coins.map fun coin => coin.2.units).sum

/-- A coin leaves over a wire fee while there is something left of the limit for deposit fees. -/
def Absorbs (coins : List (String × AmountJson)) : Prop :=
  ∃ before coin after, coins = before ++ coin :: after ∧
    request.leftWireFees before < request.leftWireFees (before ++ [coin]) ∧
    depositFees before + request.leftWireFees before < request.depositFeeLimit.units

theorem not_absorbs_nil : ¬ req.Absorbs [] := by
  intro absorbs
  obtain ⟨pre, c, after, shape, _⟩ := absorbs
  exact absurd shape (by simp)

theorem absorbs_append {cs : List (String × AmountJson)} {c : String × AmountJson} :
    req.Absorbs (cs ++ [c]) ↔ req.Absorbs cs ∨ (req.leftWireFees cs < req.leftWireFees (cs ++ [c]) ∧
        depositFees cs + req.leftWireFees cs < req.depositFeeLimit.units) := by
  constructor
  · intro absorbs
    obtain ⟨pre, h, after, shape, leaves, some⟩ := absorbs
    rcases eq_nil_or_concat after with rfl | ⟨front, last, rfl⟩
    · obtain ⟨rfl, eq⟩ := append_inj' shape rfl
      cases eq
      exact .inr ⟨leaves, some⟩
    rw [concat_eq_append, ← cons_append, ← append_assoc] at shape
    obtain ⟨rfl, _⟩ := append_inj' shape rfl
    exact .inl ⟨pre, h, front, rfl, leaves, some⟩
  · intro either
    rcases either with absorbs | last
    · obtain ⟨pre, h, after, rfl, leaves, some⟩ := absorbs
      exact ⟨pre, h, after ++ [c], by simp, leaves, some⟩
    · exact ⟨cs, c, [], rfl, last⟩

end SelectPayCoinRequest

/-- How much of the wire fees the customer pays, and when it is all of them. -/
structure CoinSelectionTally.Split (request : SelectPayCoinRequest)
    (coins : List (String × AmountJson)) (tally : CoinSelectionTally) : Prop where
  atMost : tally.customerWireFees.units ≤ request.leftWireFees coins
  whole : tally.customerWireFees.units = request.leftWireFees coins ↔ ¬ request.Absorbs coins

namespace CoinSelectionTally

variable {request req : SelectPayCoinRequest} {coins cs : List (String × AmountJson)}
  {tally : CoinSelectionTally} {exchangeBaseUrl url : String} {feeDeposit : AmountJson}

theorem Split.start (req : SelectPayCoinRequest) : Split req [] (Selecting.start req).tally := by
  have none : req.leftWireFees [] = 0 := rfl
  have zero : (Selecting.start req).tally.customerWireFees.units = 0 := Amounts.getZero_units
  constructor
  · rw [none, zero]
  · rw [none, zero]
    exact iff_of_true rfl req.not_absorbs_nil

theorem tallyWireFee_customerWireFees (tallied : Tallied req cs tally)
    (fits : tally.WireFeeFits req url) :
    (tally.tallyWireFee req.wireFeesPerExchange req.wireFeeAmortization
        url).customerWireFees.units = tally.customerWireFees.units +
        (req.leftWireFees (cs ++ [(url, feeDeposit)]) -
          req.leftWireFees cs - tally.amountDepositFeeLimitRemaining.units) := by
  have covered := tallied.covered
  have limit := tallied.wireFeeLimit
  unfold SelectPayCoinRequest.leftWireFees
  rw [map_append, map_singleton, req.wireFeeAccount_append]
  unfold tallyWireFee SelectPayCoinRequest.charge
  by_cases seen : url ∈ tally.wireFeeCoveredForExchange
  · rw [if_pos seen, if_pos (covered ▸ seen), Nat.sub_self, Nat.zero_sub, Nat.add_zero]
  have exact := Amounts.add_exact (fits.resolve_left seen).2
  rw [leftToCustomer_units, amortisedWireFee_units] at exact
  rw [if_neg seen, if_neg (covered ▸ seen), Nat.add_sub_cancel_left, ← limit]
  exact exact

theorem tallyFees_customerWireFees (tallied : Tallied req cs tally)
    (fits : tally.FeesFit req url feeDeposit) :
    (Wallet.tallyFees tally req.wireFeesPerExchange req.wireFeeAmortization
        url feeDeposit).customerWireFees.units = tally.customerWireFees.units +
        (req.leftWireFees (cs ++ [(url, feeDeposit)]) -
          req.leftWireFees cs - tally.amountDepositFeeLimitRemaining.units) :=
  tallyWireFee_customerWireFees tallied fits.1

theorem leftWireFees_le_append (cs : List (String × AmountJson)) (c : String × AmountJson) :
    req.leftWireFees cs ≤ req.leftWireFees (cs ++ [c]) := by
  unfold SelectPayCoinRequest.leftWireFees
  rw [map_append, map_singleton, req.wireFeeAccount_append]
  unfold SelectPayCoinRequest.charge
  split
  next => exact Nat.le_refl _
  next => exact Nat.le_add_right _ _

theorem Split.tallyFees (split : Split req cs tally) (tallied : Tallied req cs tally)
    (fits : tally.FeesFit req url feeDeposit) : Split req (cs ++ [(url, feeDeposit)])
      (Wallet.tallyFees tally req.wireFeesPerExchange req.wireFeeAmortization url feeDeposit) := by
  have fees := tallyFees_customerWireFees tallied fits
  have grows := @leftWireFees_le_append req cs (url, feeDeposit)
  have owed : tally.amountDepositFeeLimitRemaining.units = req.depositFeeLimit.units -
      (SelectPayCoinRequest.depositFees cs + req.leftWireFees cs) := tallied.depositFeeLimit
  have pre := split.atMost
  constructor
  · omega
  · rw [req.absorbs_append, not_or, ← split.whole]
    omega

theorem Split.pay {paid : AmountJson} (split : Split req cs tally) :
    Split req cs { tally with amountPayRemaining := paid } := ⟨split.atMost, split.whole⟩

end CoinSelectionTally

variable {request req : SelectPayCoinRequest} {pubs : List String}

theorem Selecting.Accounts.split_contribute {sel : Selecting}
    {charges : List (String × AmountJson)} {url pub : String}
    {feeDeposit contribution : AmountJson} (accounts : sel.Accounts req charges)
    (split : sel.tally.Split req charges) (fits : sel.tally.FeesFit req url feeDeposit) :
    (sel.contribute (sel.tallyFees req url feeDeposit) pub
      contribution).tally.Split req (charges ++ [(url, feeDeposit)]) :=
  (split.tallyFees accounts.tallied fits).pay

theorem repeatPrevious_split (fits : req.Fits) : (repeatPrevious req).tally.Split req
      (req.prevPayCoins.map PreviousPayCoin.charge) := by
  have general : ∀ (prevs : List PreviousPayCoin) (charges : List (String × AmountJson))
      (sel : Selecting), sel.Accounts req charges →
      sel.tally.Split req charges → RepeatingFits req prevs sel →
      (prevs.foldl (Selecting.repeatCoin req) sel).tally.Split req
        (charges ++ prevs.map PreviousPayCoin.charge) := by
    intro prevs
    induction prevs with
    | nil =>
      intro charges sel _ split _
      simpa using split
    | cons prev rest ih =>
      intro charges sel accounts split fits
      have all := ih (charges ++ [prev.charge]) (sel.repeatCoin req prev)
        (accounts.contribute fits.1) (accounts.split_contribute split fits.1) fits.2
      simpa using all
  exact general req.prevPayCoins [] _ (.start req) (.start req) fits.1

theorem Spending.split {sel fin : Selecting} {cs : List AvailableCoinInfo}
    {chosen : List Chosen} {charges : List (String × AmountJson)}
    (run : Spending req pubs sel cs chosen fin)
    (accounts : sel.Accounts req charges) (pre : sel.tally.Split req charges) :
    fin.tally.Split req (charges ++ chosen.map Chosen.charge) := by
  induction run generalizing charges with
  | exhausted => simpa using pre
  | enough => simpa using pre
  | skip _ _ ih => exact ih accounts pre
  | spend _ _ fits _ ih =>
    rw [map_cons, append_cons]
    exact ih (accounts.contribute fits) (accounts.split_contribute pre fits)

/-- What the customer pays, in terms of the coins that were selected. -/
structure PayCoinSelection.SplitFor (request : SelectPayCoinRequest)
    (charges : List (String × AmountJson)) (selection : PayCoinSelection) : Prop where
  total : selection.customerDepositFees.units + selection.customerWireFees.units =
    request.customerFees charges
  atMost : selection.customerWireFees.units ≤ request.leftWireFees charges
  whole : selection.customerWireFees.units = request.leftWireFees charges ↔
    ¬ request.Absorbs charges

theorem selectPayCoins_split {sel : PayCoinSelection} (fits : req.Fits)
    (r : selectPayCoins req = .ok (some sel)) : ∃ chosen : List Chosen,
      (∀ c ∈ chosen, c.1 ∈ req.candidateCoins) ∧ sel.coinPubs =
        prevCoinPubs req ++ chosen.map (fun c => c.1.coinPub) ∧ sel.SplitFor req
        (req.prevPayCoins.map PreviousPayCoin.charge ++ chosen.map Chosen.charge) := by
  have candidates : req.candidateCoins ≠ [] := by
    intro empty
    rw [selectPayCoins, empty] at r
    cases r
  obtain ⟨sorted, chosen, fin, order, run, out⟩ := selectPayCoins_run fits candidates r
  obtain ⟨_, pubs, _, fees⟩ := selection_some out
  have wireFees : sel.customerWireFees = fin.tally.customerWireFees := by
    unfold Selecting.selection at out
    split at out
    next =>
      cases out
      rfl
    next => cases out
  obtain ⟨pre, beforePubs, _⟩ := repeatPrevious_accounts fits
  have split := run.split pre (repeatPrevious_split fits)
  refine ⟨chosen, ?_, ?_, ?_⟩
  · intro c isChosen
    have usable := run.sublist.subset (List.mem_map_of_mem isChosen)
    exact (sortCandidates_perm order).subset (mem_filter.mp usable).1
  · rw [pubs, run.outputs.1, beforePubs]
  constructor
  · rw [fees]
    exact (run.accounts pre).tallied.customerFees
  · rw [wireFees]
    exact split.atMost
  · rw [wireFees]
    exact split.whole

/-! ## The sum of the wire fees -/

/-- The wire fees of the exchanges that are not covered yet, each once. -/
def newWireFees (wireFee : String → Nat) : List String → List String → Nat
  | _, [] => 0
  | covered, exchangeBaseUrl :: rest =>
    if exchangeBaseUrl ∈ covered then newWireFees wireFee covered rest
    else wireFee exchangeBaseUrl + newWireFees wireFee (exchangeBaseUrl :: covered) rest

theorem newWireFees_mono {wireFee more : String → Nat} {exchanges : List String}
    (atMost : ∀ url ∈ exchanges, wireFee url ≤ more url) (covered : List String) :
    newWireFees wireFee covered exchanges ≤ newWireFees more covered exchanges := by
  induction exchanges generalizing covered with
  | nil => exact Nat.le_refl _
  | cons url rest ih =>
    have later := ih fun y mem => atMost y (mem_cons_of_mem url mem)
    unfold newWireFees
    split
    next => exact later covered
    next => exact Nat.add_le_add (atMost url mem_cons_self) (later (url :: covered))

namespace SelectPayCoinRequest

variable (request req : SelectPayCoinRequest)

theorem charges_fees_le (exchanges : List String) (account : WireFeeAccount) :
    (exchanges.foldl req.charge account).fees * req.wireFeeAmortization ≤
      account.fees * req.wireFeeAmortization +
        newWireFees req.wireFee account.covered exchanges := by
  induction exchanges generalizing account with
  | nil => exact Nat.le_refl _
  | cons url rest ih =>
    have later := ih (req.charge account url)
    rw [foldl_cons]
    unfold newWireFees
    unfold charge at later ⊢
    by_cases seen : url ∈ account.covered
    · rw [if_pos seen] at later ⊢
      rw [if_pos seen]
      exact later
    rw [if_neg seen] at later ⊢
    rw [if_neg seen]
    have share := Nat.div_mul_le_self (req.wireFee url - account.limit)
      (req.wireFeeAmortization : Nat)
    simp only [Nat.add_mul] at later
    omega

theorem leftWireFees_le (cs : List (String × AmountJson)) : req.leftWireFees cs ≤
      newWireFees req.wireFee [] (cs.map Prod.fst) / req.wireFeeAmortization := by
  have all := req.charges_fees_le (cs.map Prod.fst) ⟨req.wireFeeLimit.units, [], 0⟩
  rw [Nat.zero_mul, Nat.zero_add] at all
  exact (Nat.le_div_iff_mul_le req.wireFeeAmortization.pos).mpr all

end SelectPayCoinRequest

end Anastasis.Wallet
