import Anastasis.Wallet.CoinSelectionRun
import Mathlib.Algebra.Order.BigOperators.Group.List

/-! Soundness of the coin selection, and how far it is complete. -/

set_option autoImplicit false

namespace Anastasis.Wallet

open AmountJson List

instance SpendingFits.decidable (request : SelectPayCoinRequest) (pubs : List String) :
    (coins : List AvailableCoinInfo) → (selecting : Selecting) →
      Decidable (SpendingFits request pubs coins selecting)
  | [], _ => isTrue trivial
  | aci :: rest, selecting =>
    have := SpendingFits.decidable request pubs rest selecting
    have := SpendingFits.decidable request pubs rest (selecting.spendCoin request aci)
    inferInstanceAs (Decidable (if Amounts.cmp aci.feeDeposit aci.availableAmount = .gt then
        SpendingFits request pubs rest selecting
      else if Amounts.isZero selecting.tally.amountPayRemaining then True
      else if aci.coinPub ∈ pubs then SpendingFits request pubs rest selecting
      else selecting.tally.FeesFit request aci.exchangeBaseUrl aci.feeDeposit ∧
        SpendingFits request pubs rest (selecting.spendCoin request aci)))

instance RepeatingFits.decidable (request : SelectPayCoinRequest) :
    (prevs : List PreviousPayCoin) → (selecting : Selecting) →
      Decidable (RepeatingFits request prevs selecting)
  | [], _ => isTrue trivial
  | prev :: rest, selecting =>
    have := RepeatingFits.decidable request rest (selecting.repeatCoin request prev)
    inferInstanceAs (Decidable (selecting.tally.FeesFit request prev.exchangeBaseUrl
      prev.feeDeposit ∧ RepeatingFits request rest (selecting.repeatCoin request prev)))

theorem sortCandidates_perm {candidateCoins sorted : List AvailableCoinInfo}
    (r : sortCandidates candidateCoins = .ok sorted) : sorted.Perm candidateCoins := by
  unfold sortCandidates at r
  split at r
  · cases r
    exact perm_insertionSort _ _
  · cases r

variable {request req : SelectPayCoinRequest}

theorem selectPayCoins_run {out : Option PayCoinSelection} (fits : request.Fits)
    (candidates : request.candidateCoins ≠ []) (r : selectPayCoins request = .ok out) :
    ∃ sorted chosen fin, sortCandidates request.candidateCoins = .ok sorted ∧
      Spending request (prevCoinPubs request) (repeatPrevious request) sorted chosen fin ∧
      out = fin.selection request := by
  unfold selectPayCoins at r
  rw [if_neg (by simpa using candidates)] at r
  cases order : sortCandidates request.candidateCoins with
  | error message =>
    rw [order] at r
    cases r
  | ok sorted =>
    rw [order] at r
    cases r
    obtain ⟨chosen, run⟩ := spendCoins_spending (fits.2 sorted order)
    exact ⟨sorted, chosen, _, rfl, run, rfl⟩

theorem selection_some {fin : Selecting} {sel : PayCoinSelection}
    (r : some sel = fin.selection req) : fin.tally.amountPayRemaining.units = 0 ∧
      sel.coinPubs = fin.coinPubs ∧ sel.coinContributions = fin.coinContributions ∧
      sel.customerDepositFees.units + sel.customerWireFees.units =
        fin.tally.customerFees := by
  unfold Selecting.selection at r
  split at r
  · next paid =>
    cases r
    exact ⟨(Amounts.isZero_iff _).mp paid, rfl, rfl, rfl⟩
  · cases r

theorem selection_none {fin : Selecting} (r : none = fin.selection req) :
    fin.tally.amountPayRemaining.units ≠ 0 := by
  unfold Selecting.selection at r
  split at r
  · cases r
  · next owes => exact fun zero => owes ((Amounts.isZero_iff _).mpr zero)

theorem selectPayCoins_sound (request : SelectPayCoinRequest) (selection : PayCoinSelection)
    (distinct : (request.candidateCoins.map AvailableCoinInfo.coinPub).Nodup)
    (previous : (prevCoinPubs request).Nodup) (fits : request.Fits)
    (selected : selectPayCoins request = .ok (some selection)) : ∃ chosen : List Chosen,
      (∀ coin ∈ chosen, coin.1 ∈ request.candidateCoins ∧ coin.1.feeDeposit.units ≤ coin.2.units ∧
        coin.2.units ≤ coin.1.availableAmount.units) ∧ selection.coinPubs =
        prevCoinPubs request ++ chosen.map (fun coin => coin.1.coinPub) ∧
      selection.coinContributions =
        request.prevPayCoins.map PreviousPayCoin.contribution ++ chosen.map Prod.snd ∧
      selection.coinPubs.Nodup ∧
      selection.customerDepositFees.units + selection.customerWireFees.units = request.customerFees
          (request.prevPayCoins.map PreviousPayCoin.charge ++ chosen.map Chosen.charge) ∧
      request.contractTermsAmount.units +
          (selection.customerDepositFees.units + selection.customerWireFees.units) ≤
        (selection.coinContributions.map units).sum ∧ (request.prevPayCoins = [] →
        (∀ earlier last, chosen = earlier ++ [last] →
          last.1.feeDeposit.units + (earlier.map fun coin => coin.2.units).sum ≤
            request.contractTermsAmount.units +
              (selection.customerDepositFees.units + selection.customerWireFees.units)) →
        (selection.coinContributions.map units).sum = request.contractTermsAmount.units +
          (selection.customerDepositFees.units + selection.customerWireFees.units)) := by
  have candidates : request.candidateCoins ≠ [] := by
    intro empty
    rw [selectPayCoins, empty] at selected
    cases selected
  obtain ⟨sorted, chosen, final, order, run, outcome⟩ := selectPayCoins_run fits candidates selected
  obtain ⟨paid, pubs, contributions, fees⟩ := selection_some outcome
  obtain ⟨before, beforePubs, beforeContributions⟩ := repeatPrevious_accounts fits
  obtain ⟨finalPubs, finalContributions⟩ := run.outputs
  have accounts := run.accounts before
  have usable := run.sublist
  have perm := sortCandidates_perm order
  have member : ∀ coin ∈ chosen, coin.1 ∈ sorted.filter
      fun aci => aci.Usable (prevCoinPubs request) :=
    fun coin isChosen => usable.subset (List.mem_map_of_mem isChosen)
  have newPubs : (chosen.map fun coin => coin.1.coinPub).Nodup := by
    have sublist := (usable.trans filter_sublist).map AvailableCoinInfo.coinPub
    rw [List.map_map] at sublist
    exact ((perm.map _).nodup_iff.mpr distinct).sublist sublist
  have pubsAre : selection.coinPubs =
      prevCoinPubs request ++ chosen.map (fun coin => coin.1.coinPub) := by
    rw [pubs, finalPubs, beforePubs]
  have contributed : (selection.coinContributions.map units).sum = final.contributed := by
    rw [contributions, Selecting.contributed]
  refine ⟨chosen, ?_, pubsAre, ?_, ?_, ?_, ?_, ?_⟩
  · intro coin isChosen
    exact ⟨perm.subset (mem_filter.mp (member coin isChosen)).1, run.bounds coin isChosen⟩
  · rw [contributions, finalContributions, beforeContributions]
  · rw [pubsAre]
    apply previous.append newPubs
    intro pub isPrevious isNew
    obtain ⟨coin, isChosen, rfl⟩ := List.mem_map.mp isNew
    have notPrevious := (mem_filter.mp (member coin isChosen)).2
    exact (of_decide_eq_true notPrevious).2 isPrevious
  · rw [fees]
    exact accounts.tallied.customerFees
  · have covers := accounts.covers
    rw [fees, contributed]
    omega
  · intro none last
    rw [fees] at last ⊢
    rw [contributed]
    have empty : repeatPrevious request = .start request := by
      rw [repeatPrevious, none, foldl_nil]
    rw [empty] at run before
    have balanced := run.balanced before (.start request) (by
      intro earlier coin shape
      have fee := last earlier coin shape
      simp only [Selecting.contributed, Selecting.start, map_nil, sum_nil]
      omega)
    unfold Selecting.Balanced at balanced
    omega

/-- One coin paid already; of the two candidates the larger one is too expensive to deposit. -/
def repairRequest : SelectPayCoinRequest where
  candidateCoins :=
    [⟨"small", .rsa "a", .ofValue 5, .ofValue 1, "https://a/"⟩,
      ⟨"large", .rsa "b", .ofValue 9, .ofValue 20, "https://b/"⟩]
  wireFeesPerExchange := fun exchange => if exchange = "https://a/" then some (.ofValue 3) else none
  contractTermsAmount := .ofValue 6
  depositFeeLimit := .ofValue 1
  wireFeeLimit := .ofValue 1
  wireFeeAmortization := 2
  prevPayCoins := [⟨"previous", .ofValue 4, .ofValue 1, "https://c/"⟩]

theorem repairRequest_fits : repairRequest.Fits := by
  constructor
  · decide +kernel
  intro sorted r
  rw [show sortCandidates repairRequest.candidateCoins =
    .ok repairRequest.candidateCoins.reverse by decide +kernel] at r
  cases r
  decide +kernel

theorem selectPayCoins_sound_repair : ∃ chosen : List Chosen,
    chosen.map (fun coin => coin.1.coinPub) = ["small"] ∧ repairRequest.customerFees
        (repairRequest.prevPayCoins.map PreviousPayCoin.charge ++ chosen.map Chosen.charge) =
          (AmountJson.ofValue 2).units := by
  obtain ⟨chosen, -, pubs, -, -, fees, -⟩ := selectPayCoins_sound repairRequest
    ⟨.ofValue 6, ["previous", "small"], [.ofValue 4, .ofValue 4], .ofValue 1, .ofValue 1⟩
    (by decide) (by decide) repairRequest_fits (by decide +kernel)
  exact ⟨chosen, (List.cons.inj pubs).2.symm, fees.symm⟩

def repeatedRequest : SelectPayCoinRequest where
  candidateCoins := [⟨"other", .rsa "a", .ofValue 5, .ofValue 0, "https://a/"⟩]
  wireFeesPerExchange := fun _ => none
  contractTermsAmount := .ofValue 4
  depositFeeLimit := .ofValue 0
  wireFeeLimit := .ofValue 0
  wireFeeAmortization := ⟨1, Nat.one_pos⟩
  prevPayCoins :=
    [⟨"previous", .ofValue 2, .ofValue 0, "https://a/"⟩,
      ⟨"previous", .ofValue 2, .ofValue 0, "https://a/"⟩]

theorem repeated_coin_selected : ∃ selection : PayCoinSelection,
    (repeatedRequest.candidateCoins.map AvailableCoinInfo.coinPub).Nodup ∧ repeatedRequest.Fits ∧
      selectPayCoins repeatedRequest = .ok (some selection) ∧ ¬ selection.coinPubs.Nodup := by
  refine ⟨⟨.ofValue 4, ["previous", "previous"], [.ofValue 2, .ofValue 2], .ofValue 0,
    .ofValue 0⟩, by decide, ⟨by decide +kernel, ?_⟩, by decide +kernel, by decide⟩
  intro sorted success
  rw [show sortCandidates repeatedRequest.candidateCoins = .ok repeatedRequest.candidateCoins
    by decide +kernel] at success
  cases success
  decide +kernel

theorem wireFeeAccount_one_exchange (req : SelectPayCoinRequest) {exchangeBaseUrl : String} :
    ∀ exs : List String, exs ≠ [] → (∀ e ∈ exs, e = exchangeBaseUrl) → req.wireFeeAccount exs =
        req.charge ⟨req.wireFeeLimit.units, [], 0⟩ exchangeBaseUrl := by
  have covered : ∀ (exs : List String) (account : WireFeeAccount),
      (∀ e ∈ exs, e ∈ account.covered) → exs.foldl req.charge account = account := by
    intro exs
    induction exs with
    | nil => exact fun _ _ => rfl
    | cons e rest ih =>
      intro account seen
      rw [forall_mem_cons] at seen
      rw [foldl_cons, SelectPayCoinRequest.charge, if_pos seen.1]
      exact ih account seen.2
  intro exs some eq
  cases exs with
  | nil => exact absurd rfl some
  | cons e rest =>
    rw [forall_mem_cons] at eq
    rw [SelectPayCoinRequest.wireFeeAccount, foldl_cons, eq.1]
    apply covered
    intro e' isRest
    rw [eq.2 e' isRest]
    simp [SelectPayCoinRequest.charge]

theorem chosen_charges (chosen : List Chosen) : chosen.map Chosen.charge =
    (chosen.map Prod.fst).map fun aci => (aci.exchangeBaseUrl, aci.feeDeposit) := by
  rw [List.map_map]
  rfl

def coinCharges (coins : List AvailableCoinInfo) : List (String × AmountJson) :=
  coins.map fun aci => (aci.exchangeBaseUrl, aci.feeDeposit)

def worth (coins : List AvailableCoinInfo) : Nat :=
  (coins.map fun aci => aci.availableAmount.units).sum

def depositFees (coins : List AvailableCoinInfo) : Nat :=
  (coins.map fun aci => aci.feeDeposit.units).sum

theorem customerFees_one_exchange {url : String} {cs : List AvailableCoinInfo}
    (some : cs ≠ []) (one : ∀ aci ∈ cs, aci.exchangeBaseUrl = url) :
    req.customerFees (coinCharges cs) = depositFees cs +
      (req.charge ⟨req.wireFeeLimit.units, [], 0⟩ url).fees -
        req.depositFeeLimit.units := by
  unfold SelectPayCoinRequest.customerFees coinCharges depositFees
  rw [wireFeeAccount_one_exchange req _ (by simpa using some) (by simpa using one),
    List.map_map]
  rfl

theorem depositFees_le_worth {coins : List AvailableCoinInfo}
    (usable : ∀ aci ∈ coins, aci.Usable []) : depositFees coins ≤ worth coins :=
  sum_le_sum fun aci mem => (usable aci mem).1

theorem selectPayCoins_none (fresh : req.prevPayCoins = [])
    (candidates : req.candidateCoins ≠ []) (fits : req.Fits)
    (insufficient : selectPayCoins req = .ok none) :
    ∃ sorted, sortCandidates req.candidateCoins = .ok sorted ∧ req.contractTermsAmount.units ≠ 0 ∧
      worth (sorted.filter fun aci => aci.Usable []) < req.contractTermsAmount.units +
        req.customerFees (coinCharges (sorted.filter fun aci => aci.Usable [])) := by
  obtain ⟨sorted, chosen, fin, order, run, out⟩ := selectPayCoins_run fits candidates insufficient
  have owes := selection_none out
  rw [repeatPrevious, prevCoinPubs, fresh, map_nil, foldl_nil] at run
  have account := Selecting.Accounts.start req
  obtain ⟨all, full, balanced⟩ := run.unpaid owes account (.start req)
  have fees := (run.accounts account).tallied.customerFees
  have contributed : fin.contributed = worth (chosen.map Prod.fst) := by
    rw [Selecting.contributed, run.outputs.2, worth, List.map_map, map_append, List.map_map]
    simp only [Selecting.start, map_nil, nil_append]
    exact congrArg List.sum (map_congr_left full)
  refine ⟨sorted, order, ?_, ?_⟩
  · intro free
    have paid : (Selecting.start req).tally.amountPayRemaining.units = 0 := free
    rw [(run.of_paid paid).2] at owes
    exact owes paid
  rw [← all, ← contributed]
  unfold Selecting.Balanced at balanced
  rw [nil_append, chosen_charges] at fees
  rw [fees] at balanced
  unfold coinCharges
  omega

/-- If the selection fails, no coins can pay that leave out only coins that are worth the fees
they add; with one exchange, no coins can pay at all. -/
theorem selectPayCoins_complete (request : SelectPayCoinRequest)
    (fresh : request.prevPayCoins = []) (candidates : request.candidateCoins ≠ [])
    (fits : request.Fits) (insufficient : selectPayCoins request = .ok none) :
    ∃ sorted, sortCandidates request.candidateCoins = .ok sorted ∧
      let usable := sorted.filter fun aci => aci.Usable []
      ∀ coins rest, (coins ++ rest).Perm usable → request.customerFees (coinCharges usable) ≤
            request.customerFees (coinCharges coins) + worth rest ∨
          (∃ exchangeBaseUrl, ∀ aci ∈ usable, aci.exchangeBaseUrl = exchangeBaseUrl) → worth coins <
          request.contractTermsAmount.units + request.customerFees (coinCharges coins) := by
  obtain ⟨sorted, order, owed, unpayable⟩ := selectPayCoins_none fresh candidates fits insufficient
  refine ⟨sorted, order, ?_⟩
  intro usable coins rest perm additional
  have total : worth coins + worth rest = worth usable := by
    have sums := (perm.map fun aci => aci.availableAmount.units).sum_eq
    rw [map_append, sum_append] at sums
    exact sums
  by_cases empty : coins = []
  · rw [empty]
    simp only [worth, map_nil, sum_nil]
    omega
  · have additional : request.customerFees (coinCharges usable) ≤
        request.customerFees (coinCharges coins) + worth rest := by
      cases additional with
      | inl additional => exact additional
      | inr one =>
        obtain ⟨exchangeBaseUrl, one⟩ := one
        have some : usable ≠ [] := fun none => empty
          (append_eq_nil_iff.mp (perm_nil.mp (none ▸ perm))).1
        have fees := (perm.map fun aci => aci.feeDeposit.units).sum_eq
        rw [map_append, sum_append] at fees
        have left : depositFees rest ≤ worth rest := depositFees_le_worth fun aci isRest =>
          of_decide_eq_true (mem_filter.mp (perm.subset (mem_append_right _ isRest))).2
        rw [customerFees_one_exchange some one, customerFees_one_exchange empty
          fun aci isCoin => one aci (perm.subset (mem_append_left _ isCoin))]
        unfold depositFees at left ⊢
        omega
    change worth usable < _ + request.customerFees (coinCharges usable) at unpayable
    omega

def smallRequest : SelectPayCoinRequest where
  candidateCoins :=
    [⟨"small", .rsa "a", .ofValue 2, .ofValue 1, "https://a/"⟩]
  wireFeesPerExchange := fun _ => none
  contractTermsAmount := .ofValue 2
  depositFeeLimit := .ofValue 0
  wireFeeLimit := .ofValue 0
  wireFeeAmortization := ⟨1, Nat.one_pos⟩
  prevPayCoins := []

theorem smallRequest_fits : smallRequest.Fits := by
  refine ⟨trivial, ?_⟩
  intro sorted r
  rw [show sortCandidates smallRequest.candidateCoins = .ok smallRequest.candidateCoins
    by decide +kernel] at r
  cases r
  decide +kernel

theorem selectPayCoins_complete_small :
    worth smallRequest.candidateCoins < smallRequest.contractTermsAmount.units +
      smallRequest.customerFees (coinCharges smallRequest.candidateCoins) := by
  obtain ⟨sorted, order, unpayable⟩ := selectPayCoins_complete smallRequest rfl (by simp [smallRequest])
    smallRequest_fits (by decide +kernel)
  rw [show sortCandidates smallRequest.candidateCoins = .ok smallRequest.candidateCoins
    by decide +kernel] at order
  cases order
  exact unpayable smallRequest.candidateCoins []
    (by rw [append_nil, filter_eq_self.mpr (by decide +kernel)])
    (.inl (by decide +kernel))

/-- The first of two coins adds a wire fee that is larger than the coin. -/
def expensiveRequest : SelectPayCoinRequest where
  candidateCoins :=
    [⟨"cheap", .rsa "b", .ofValue 10, .ofValue 0, "https://cheap/"⟩,
      ⟨"expensive", .rsa "a", .ofValue 10, .ofValue 0, "https://expensive/"⟩]
  wireFeesPerExchange := fun exchange =>
    if exchange = "https://expensive/" then some (.ofValue 100) else none
  contractTermsAmount := .ofValue 10
  depositFeeLimit := .ofValue 0
  wireFeeLimit := .ofValue 0
  wireFeeAmortization := ⟨1, Nat.one_pos⟩
  prevPayCoins := []

theorem payable_request_refused : expensiveRequest.prevPayCoins = [] ∧ expensiveRequest.Fits ∧
    selectPayCoins expensiveRequest = .ok none ∧
    ∃ coins : List AvailableCoinInfo, coins.Sublist expensiveRequest.candidateCoins ∧
      (∀ aci ∈ coins, aci.Usable []) ∧ ¬ worth coins < expensiveRequest.contractTermsAmount.units +
        expensiveRequest.customerFees (coinCharges coins) := by
  refine ⟨rfl, ⟨trivial, ?_⟩, by decide +kernel,
    [⟨"cheap", .rsa "b", .ofValue 10, .ofValue 0, "https://cheap/"⟩],
    (nil_sublist _).cons_cons _, by decide +kernel, by decide +kernel⟩
  intro sorted success
  rw [show sortCandidates expensiveRequest.candidateCoins =
    .ok expensiveRequest.candidateCoins.reverse by decide +kernel] at success
  cases success
  decide +kernel

end Anastasis.Wallet
