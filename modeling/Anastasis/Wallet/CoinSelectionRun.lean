import Anastasis.Wallet.CoinSelectionFees

/-! Which coins a selection chooses, and how their contributions balance the amount to be paid. -/

set_option autoImplicit false

namespace Anastasis.Wallet

open AmountJson List

abbrev Chosen := AvailableCoinInfo × AmountJson

def Chosen.charge (chosen : Chosen) : String × AmountJson :=
  (chosen.1.exchangeBaseUrl, chosen.1.feeDeposit)

def PreviousPayCoin.charge (prev : PreviousPayCoin) : String × AmountJson :=
  (prev.exchangeBaseUrl, prev.feeDeposit)

def AvailableCoinInfo.Usable (prevCoinPubs : List String) (aci : AvailableCoinInfo) : Prop :=
  aci.feeDeposit.units ≤ aci.availableAmount.units ∧ aci.coinPub ∉ prevCoinPubs
deriving Decidable

def SpendingFits (request : SelectPayCoinRequest) (prevCoinPubs : List String) :
    List AvailableCoinInfo → Selecting → Prop
  | [], _ => True
  | aci :: rest, selecting =>
    if Amounts.cmp aci.feeDeposit aci.availableAmount = .gt then
      SpendingFits request prevCoinPubs rest selecting
    else if Amounts.isZero selecting.tally.amountPayRemaining then True
    else if aci.coinPub ∈ prevCoinPubs then SpendingFits request prevCoinPubs rest selecting
    else selecting.tally.FeesFit request aci.exchangeBaseUrl aci.feeDeposit ∧
      SpendingFits request prevCoinPubs rest (selecting.spendCoin request aci)

def RepeatingFits (request : SelectPayCoinRequest) :
    List PreviousPayCoin → Selecting → Prop
  | [], _ => True
  | prev :: rest, selecting =>
    selecting.tally.FeesFit request prev.exchangeBaseUrl prev.feeDeposit ∧
      RepeatingFits request rest (selecting.repeatCoin request prev)

def SelectPayCoinRequest.Fits (request : SelectPayCoinRequest) : Prop :=
  RepeatingFits request request.prevPayCoins (.start request) ∧
    ∀ sorted, sortCandidates request.candidateCoins = .ok sorted →
      SpendingFits request (prevCoinPubs request) sorted (repeatPrevious request)

inductive Spending (request : SelectPayCoinRequest) (prevCoinPubs : List String) :
    Selecting → List AvailableCoinInfo → List Chosen → Selecting → Prop where
  | exhausted {selecting : Selecting} : Spending request prevCoinPubs selecting [] [] selecting
  | enough {selecting : Selecting} {coins : List AvailableCoinInfo}
      (paid : selecting.tally.amountPayRemaining.units = 0) :
      Spending request prevCoinPubs selecting coins [] selecting
  | skip {selecting final : Selecting} {aci : AvailableCoinInfo}
      {rest : List AvailableCoinInfo} {chosen : List Chosen}
      (unusable : ¬ aci.Usable prevCoinPubs)
      (run : Spending request prevCoinPubs selecting rest chosen final) :
      Spending request prevCoinPubs selecting (aci :: rest) chosen final
  | spend {selecting final : Selecting} {aci : AvailableCoinInfo}
      {rest : List AvailableCoinInfo} {chosen : List Chosen}
      (usable : aci.Usable prevCoinPubs)
      (owes : selecting.tally.amountPayRemaining.units ≠ 0)
      (fits : selecting.tally.FeesFit request aci.exchangeBaseUrl aci.feeDeposit)
      (run : Spending request prevCoinPubs (selecting.spendCoin request aci) rest chosen final) :
      Spending request prevCoinPubs selecting (aci :: rest)
        ((aci, selecting.coinSpend request aci) :: chosen) final

variable {request req : SelectPayCoinRequest} {pubs : List String}

theorem spendCoins_spending {cs : List AvailableCoinInfo} {sel : Selecting}
    (fits : SpendingFits req pubs cs sel) :
    ∃ chosen, Spending req pubs sel cs chosen (spendCoins req pubs cs sel) := by
  induction cs generalizing sel with
  | nil => exact ⟨[], .exhausted⟩
  | cons aci rest ih =>
    unfold SpendingFits at fits
    unfold spendCoins
    by_cases costly : Amounts.cmp aci.feeDeposit aci.availableAmount = .gt
    · rw [if_pos costly] at fits ⊢
      obtain ⟨chosen, run⟩ := ih fits
      have unusable : ¬ aci.Usable pubs := fun usable =>
        Nat.not_lt.mpr usable.1 (Amounts.cmp_gt_iff.mp costly)
      exact ⟨chosen, .skip unusable run⟩
    rw [if_neg costly] at fits ⊢
    have worth : aci.feeDeposit.units ≤ aci.availableAmount.units :=
      Nat.le_of_not_lt fun less => costly (Amounts.cmp_gt_iff.mpr less)
    by_cases paid : Amounts.isZero sel.tally.amountPayRemaining = true
    · rw [if_pos paid]
      exact ⟨[], .enough ((Amounts.isZero_iff _).mp paid)⟩
    rw [if_neg paid] at fits ⊢
    by_cases has : aci.coinPub ∈ pubs
    · rw [if_pos has] at fits ⊢
      obtain ⟨chosen, run⟩ := ih fits
      exact ⟨chosen, .skip (fun usable => usable.2 has) run⟩
    rw [if_neg has] at fits ⊢
    obtain ⟨chosen, run⟩ := ih fits.2
    have owes : sel.tally.amountPayRemaining.units ≠ 0 := fun zero =>
      paid ((Amounts.isZero_iff _).mpr zero)
    exact ⟨_, .spend ⟨worth, has⟩ owes fits.1 run⟩

namespace Spending

variable {selecting sel final fin : Selecting} {coins cs : List AvailableCoinInfo} {chosen : List Chosen}

theorem outputs (run : Spending req pubs sel cs chosen fin) :
    fin.coinPubs = sel.coinPubs ++ chosen.map (fun c => c.1.coinPub) ∧
      fin.coinContributions = sel.coinContributions ++ chosen.map Prod.snd := by
  induction run with
  | exhausted => simp
  | enough => simp
  | skip _ _ ih => exact ih
  | spend _ _ _ _ ih =>
    rw [ih.1, ih.2]
    simp [Selecting.spendCoin, Selecting.contribute]

theorem sublist (run : Spending req pubs sel cs chosen fin) :
    (chosen.map Prod.fst).Sublist (cs.filter fun aci => aci.Usable pubs) := by
  induction run with
  | exhausted => exact .slnil
  | enough => exact nil_sublist _
  | skip unusable _ ih =>
    rw [filter_cons_of_neg (by simpa using unusable)]
    exact ih
  | spend usable _ _ _ ih =>
    rw [filter_cons_of_pos (by simpa using usable)]
    exact ih.cons_cons _

theorem coinSpend_units (req : SelectPayCoinRequest) (sel : Selecting)
    (aci : AvailableCoinInfo) : (sel.coinSpend req aci).units =
      Nat.max (Nat.min (sel.coinTally req aci).amountPayRemaining.units
        aci.availableAmount.units) aci.feeDeposit.units := by
  simp only [Selecting.coinSpend, Amounts.max_units, Amounts.min_units]

theorem bounds (run : Spending req pubs sel cs chosen fin) :
    ∀ c ∈ chosen, c.1.feeDeposit.units ≤ c.2.units ∧ c.2.units ≤ c.1.availableAmount.units := by
  induction run with
  | exhausted => simp
  | enough => simp
  | skip _ _ ih => exact ih
  | @spend sel _ aci _ _ usable _ _ _ ih =>
    rw [forall_mem_cons]
    constructor
    · have worth := usable.1
      rw [coinSpend_units req sel aci]
      constructor
      · exact Nat.le_max_right _ _
      · exact Nat.max_le.mpr ⟨Nat.min_le_right _ _, worth⟩
    · exact ih

theorem of_paid (run : Spending req pubs selecting cs chosen fin)
    (paid : selecting.tally.amountPayRemaining.units = 0) : chosen = [] ∧ fin = selecting := by
  induction run with
  | exhausted => exact ⟨rfl, rfl⟩
  | enough => exact ⟨rfl, rfl⟩
  | skip _ _ ih => exact ih paid
  | spend _ owes => exact absurd paid owes

end Spending

namespace Selecting

variable {selecting sel : Selecting} {charges : List (String × AmountJson)} {url : String}
  {feeDeposit contribution : AmountJson} {pub : String}

def contributed (selecting : Selecting) : Nat := (selecting.coinContributions.map units).sum

structure Accounts (request : SelectPayCoinRequest) (charges : List (String × AmountJson))
    (selecting : Selecting) : Prop where
  tallied : selecting.tally.Tallied request charges
  covers : request.contractTermsAmount.units + selecting.tally.customerFees ≤
    selecting.tally.amountPayRemaining.units + selecting.contributed

def Balanced (request : SelectPayCoinRequest) (selecting : Selecting) : Prop :=
  request.contractTermsAmount.units + selecting.tally.customerFees =
    selecting.tally.amountPayRemaining.units + selecting.contributed

theorem Balanced.start (req : SelectPayCoinRequest) : Balanced req (.start req) := by
  simp [Balanced, Selecting.start, CoinSelectionTally.customerFees, contributed]

theorem Accounts.start (req : SelectPayCoinRequest) : Accounts req [] (.start req) :=
  ⟨.start req, Nat.le_of_eq (Balanced.start req)⟩

@[simp] theorem contribute_contributed (tally : CoinSelectionTally) :
    (sel.contribute tally pub contribution).contributed = sel.contributed + contribution.units := by
  simp [contributed, contribute]

@[simp] theorem contribute_customerFees (tally : CoinSelectionTally) :
    (sel.contribute tally pub contribution).tally.customerFees = tally.customerFees :=
  rfl

@[simp] theorem contribute_remaining (tally : CoinSelectionTally) :
    (sel.contribute tally pub contribution).tally.amountPayRemaining.units =
      tally.amountPayRemaining.units - contribution.units := Amounts.sub_units _ _

theorem Accounts.contribute (accounts : Accounts req charges sel)
    (fits : sel.tally.FeesFit req url feeDeposit) : Accounts req (charges ++ [(url, feeDeposit)])
      (sel.contribute (sel.tallyFees req url feeDeposit) pub contribution) := by
  obtain ⟨tallied, left⟩ := accounts.tallied.tallyFees fits
  have covers := accounts.covers
  constructor
  · exact tallied.pay
  rw [contribute_contributed, contribute_customerFees, contribute_remaining]
  unfold Selecting.tallyFees
  omega

theorem Balanced.tallyFees (balanced : Balanced req sel) (accounts : Accounts req charges sel)
    (fits : sel.tally.FeesFit req url feeDeposit) : req.contractTermsAmount.units +
        (sel.tallyFees req url feeDeposit).customerFees =
      (sel.tallyFees req url feeDeposit).amountPayRemaining.units +
        sel.contributed := by
  have left := (accounts.tallied.tallyFees fits).2
  unfold Balanced at balanced
  unfold Selecting.tallyFees
  omega

theorem Balanced.contribute (balanced : Balanced req sel)
    (accounts : Accounts req charges sel) (fits : sel.tally.FeesFit req url feeDeposit)
    (small : contribution.units ≤
      (sel.tallyFees req url feeDeposit).amountPayRemaining.units) : Balanced req
      (sel.contribute (sel.tallyFees req url feeDeposit) pub contribution) := by
  have tallied := balanced.tallyFees accounts fits
  unfold Balanced
  rw [contribute_contributed, contribute_customerFees, contribute_remaining]
  omega

end Selecting

theorem repeatPrevious_accounts (fits : req.Fits) :
    (repeatPrevious req).Accounts req (req.prevPayCoins.map PreviousPayCoin.charge) ∧
      (repeatPrevious req).coinPubs = prevCoinPubs req ∧ (repeatPrevious req).coinContributions =
        req.prevPayCoins.map PreviousPayCoin.contribution := by
  have general : ∀ (prevs : List PreviousPayCoin) (charges : List (String × AmountJson))
      (sel : Selecting), sel.Accounts req charges → RepeatingFits req prevs sel →
      let fin := prevs.foldl (Selecting.repeatCoin req) sel
      fin.Accounts req (charges ++ prevs.map PreviousPayCoin.charge) ∧
        fin.coinPubs = sel.coinPubs ++ prevs.map PreviousPayCoin.coinPub ∧ fin.coinContributions =
          sel.coinContributions ++ prevs.map PreviousPayCoin.contribution := by
    intro prevs
    induction prevs with
    | nil =>
      intro charges sel accounts _
      simpa using accounts
    | cons prev rest ih =>
      intro charges sel accounts fits
      have next : (sel.repeatCoin req prev).Accounts req
          (charges ++ [prev.charge]) := accounts.contribute fits.1
      obtain ⟨all, pubs, parts⟩ := ih _ _ next fits.2
      refine ⟨?_, ?_, ?_⟩
      · simpa using all
      · simpa [Selecting.repeatCoin, Selecting.contribute] using pubs
      · simpa [Selecting.repeatCoin, Selecting.contribute] using parts
  exact general req.prevPayCoins [] _ (.start req) fits.1

namespace Spending

variable {selecting sel final fin : Selecting} {coins cs : List AvailableCoinInfo} {chosen : List Chosen}
  {charges : List (String × AmountJson)}

theorem accounts (run : Spending req pubs sel cs chosen fin) (pre : sel.Accounts req charges) :
    fin.Accounts req (charges ++ chosen.map Chosen.charge) := by
  induction run generalizing charges with
  | exhausted => simpa using pre
  | enough => simpa using pre
  | skip _ _ ih => exact ih pre
  | spend _ _ fits _ ih =>
    rw [map_cons, append_cons]
    exact ih (pre.contribute fits)

/-- Only the last coin can contribute more than what remained, when its fee exceeds that. -/
theorem balanced (run : Spending request pubs sel cs chosen fin)
    (accounts : sel.Accounts request charges) (pre : sel.Balanced request)
    (last : ∀ earlier coin, chosen = earlier ++ [coin] →
      coin.1.feeDeposit.units + (sel.contributed + (earlier.map fun c => c.2.units).sum) ≤
        request.contractTermsAmount.units + fin.tally.customerFees) : fin.Balanced request := by
  induction run generalizing charges with
  | exhausted => exact pre
  | enough => exact pre
  | skip _ _ ih => exact ih accounts pre last
  | @spend sel _ aci _ chosen _ _ fits run ih =>
    have tallied := pre.tallyFees accounts fits
    have amount := coinSpend_units request sel aci
    by_cases small : (sel.coinSpend request aci).units ≤
        (sel.coinTally request aci).amountPayRemaining.units
    · apply ih (accounts.contribute fits) (pre.contribute accounts fits small)
      intro earlier coin shape
      have fee := last ((aci, sel.coinSpend request aci) :: earlier) coin
        (by rw [shape, cons_append])
      simp only [map_cons, sum_cons] at fee
      simp only [Selecting.spendCoin, Selecting.contribute_contributed]
      omega
    · exfalso
      have paid : (sel.spendCoin request aci).tally.amountPayRemaining.units = 0 := by
        simp only [Selecting.spendCoin, Selecting.contribute_remaining]
        omega
      obtain ⟨none, eq⟩ := run.of_paid paid
      have fee := last [] _ (by rw [none, nil_append])
      rw [eq] at fee
      simp only [Selecting.spendCoin, Selecting.contribute_customerFees, map_nil, sum_nil] at fee
      have above : (sel.coinTally request aci).amountPayRemaining.units <
          aci.feeDeposit.units := by
        simp only [Nat.max_def, Nat.min_def] at amount
        split at amount <;> split at amount <;> omega
      unfold Selecting.coinTally at fee above
      omega

theorem unpaid (run : Spending request pubs sel cs chosen fin)
    (owes : fin.tally.amountPayRemaining.units ≠ 0)
    (accounts : sel.Accounts request charges) (pre : sel.Balanced request) :
    chosen.map Prod.fst = cs.filter (fun aci => aci.Usable pubs) ∧
      (∀ c ∈ chosen, c.2.units = c.1.availableAmount.units) ∧ fin.Balanced request := by
  induction run generalizing charges with
  | exhausted => exact ⟨rfl, by simp, pre⟩
  | enough paid => exact absurd paid owes
  | skip unusable _ ih =>
    rw [filter_cons_of_neg (by simpa using unusable)]
    exact ih owes accounts pre
  | @spend sel _ aci _ chosen usable _ fits run ih =>
    have amount := coinSpend_units request sel aci
    have less : (sel.coinSpend request aci).units <
        (sel.coinTally request aci).amountPayRemaining.units := by
      by_contra enough
      have paid : (sel.spendCoin request aci).tally.amountPayRemaining.units = 0 := by
        simp only [Selecting.spendCoin, Selecting.contribute_remaining]
        omega
      rw [(run.of_paid paid).2] at owes
      exact owes paid
    have full : (sel.coinSpend request aci).units = aci.availableAmount.units := by
      have worth := usable.1
      simp only [Nat.max_def, Nat.min_def] at amount
      split at amount <;> split at amount <;> omega
    obtain ⟨all, amounts, balanced⟩ := ih owes (accounts.contribute fits)
      (pre.contribute accounts fits (Nat.le_of_lt less))
    rw [filter_cons_of_pos (by simpa using usable), map_cons, all,
      forall_mem_cons]
    exact ⟨rfl, ⟨full, amounts⟩, balanced⟩

end Spending

end Anastasis.Wallet
