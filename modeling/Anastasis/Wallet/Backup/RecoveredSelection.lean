import Anastasis.Wallet.Backup.CandidateCoins
import Anastasis.Wallet.Backup.Import
import Anastasis.Wallet.WireFeeShares

/-! The fees of a payment, as its coins were selected and as a backup restores them. -/

set_option autoImplicit false

namespace Anastasis.Wallet.Backup

open Library AmountJson List Option

def CurrencyAmount.divide (a : CurrencyAmount) (n : Nat) : Option CurrencyAmount :=
  if positive : 0 < n then some ⟨a.currency, Amounts.divide a.amount ⟨n, positive⟩⟩ else none

/-! ## The selection of the coins -/

def DenominationPubKey.forSelection (denomPub : DenominationPubKey) : Wallet.DenominationPubKey :=
  if denomPub.cipher = 1 then .rsa denomPub.rsaPublicKey else .cs

def AvailableCoinInfo.forSelection (info : AvailableCoinInfo) : Wallet.AvailableCoinInfo where
  coinPub := info.coinPub
  denomPub := info.denomPub.forSelection
  availableAmount := info.availableAmount.amount
  feeDeposit := info.feeDeposit.amount
  exchangeBaseUrl := info.exchangeBaseUrl

namespace WalletContractData

variable (contractData data : WalletContractData)

def coinSelectionRequest : CoinSelectionRequest where
  allowedAuditors := contractData.allowedAuditors
  allowedExchanges := contractData.allowedExchanges
  timestamp := contractData.timestamp
  wireMethod := contractData.wireMethod

def selectPayCoinRequest (wireFeeAmortization : ℕ+) (candidates : CoinCandidateSelection)
    (prevPayCoins : List PreviousPayCoin) : SelectPayCoinRequest where
  candidateCoins := candidates.candidateCoins.map AvailableCoinInfo.forSelection
  wireFeesPerExchange exchangeBaseUrl :=
    (candidates.wireFeesPerExchange.get? exchangeBaseUrl).map CurrencyAmount.amount
  contractTermsAmount := contractData.amount.amount
  depositFeeLimit := contractData.maxDepositFee.amount
  wireFeeLimit := contractData.maxWireFee.amount
  wireFeeAmortization := wireFeeAmortization
  prevPayCoins := prevPayCoins

end WalletContractData

namespace Stores

variable (stores : Stores)

/-- A coin of an earlier selection, if it and its denomination are still known. -/
def previousPayCoin (payCoin : PayCoin) : Option PreviousPayCoin := do
  let coin ← stores.coins.get? payCoin.coinPub
  let denom ← stores.getDenomination coin.exchangeBaseUrl coin.denomPubHash
  pure
    { coinPub := payCoin.coinPub
      contribution := payCoin.contribution.amount
      exchangeBaseUrl := coin.exchangeBaseUrl
      feeDeposit := denom.feeDeposit.amount }

def prevPayCoins (payCoins : List PayCoin) : List PreviousPayCoin :=
  payCoins.filterMap stores.previousPayCoin

/-! ## Its restoration -/

/-- The selection of a contract with any amortization of the wire fees. -/
def recoverAmortizedSelection (contractData : WalletContractData)
    (backupPurchase : BackupPurchase) : Option PayCoinSelection := do
  let zero := CurrencyAmount.getZero contractData.amount.currency
  let fees ← backupPurchase.payCoins.foldlM (stores.recoverFees contractData) ⟨[], zero, zero⟩
  let amortizedWireFee ← fees.totalWireFee.divide contractData.wireFeeAmortization
  let order ← contractData.maxWireFee.cmp amortizedWireFee
  let customerDepositFees ← fees.totalDepositFees.sub contractData.maxDepositFee
  pure
    { coins := backupPurchase.payCoins
      paymentAmount := contractData.amount
      customerWireFees := if order = .lt then amortizedWireFee else zero
      customerDepositFees := customerDepositFees }

def coinCharge (coinPub : String) : Option (String × CurrencyAmount) := do
  let coin ← stores.coins.get? coinPub
  let denom ← stores.getDenomination coin.exchangeBaseUrl coin.denomPubHash
  pure (coin.exchangeBaseUrl, denom.feeDeposit)

def charges (coinPubs : List String) : List (String × AmountJson) :=
  coinPubs.filterMap fun coinPub =>
    (stores.coinCharge coinPub).map fun charge => (charge.1, charge.2.amount)

def firstWireFee (wireMethod exchangeBaseUrl : String) : Option CurrencyAmount :=
  (stores.getExchangeDetails exchangeBaseUrl).bind fun details =>
    (details.feesFor wireMethod).head?.map WireFee.wireFee

def wireFeeUnits (wireMethod exchangeBaseUrl : String) : Nat :=
  ((stores.firstWireFee wireMethod exchangeBaseUrl).map fun wireFee => wireFee.amount.units).getD 0

def totalWireFee (wireMethod : String) (coinPubs : List String) : Nat :=
  newWireFees (stores.wireFeeUnits wireMethod) [] ((stores.charges coinPubs).map Prod.fst)

/-- The fees of a coin and of its exchange are known, and in the currency. -/
structure Priced (wireMethod currency coinPub : String) (charge : String × CurrencyAmount) :
    Prop where
  known : stores.coinCharge coinPub = some charge
  deposit : charge.2.currency = currency
  details : ∃ details, stores.getExchangeDetails charge.1 = some details
  wire : ∀ wireFee, stores.firstWireFee wireMethod charge.1 = some wireFee →
    wireFee.currency = currency

structure RecoveredFees.In (fees : RecoveredFees) (currency : String) : Prop where
  wire : fees.totalWireFee.currency = currency
  deposit : fees.totalDepositFees.currency = currency

end Stores

theorem CurrencyAmount.add_eq {x y : CurrencyAmount} {cur : String}
    (isFirst : x.currency = cur) (isSecond : y.currency = cur)
    (fits : x.amount.units + y.amount.units < limit) :
    ∃ sum, x.add y = some sum ∧ sum.currency = cur ∧
      sum.amount.units = x.amount.units + y.amount.units := by
  refine ⟨⟨x.currency, (Amounts.add x.amount [y.amount]).amount⟩, ?_, isFirst,
    Amounts.add_one_units fits⟩
  rw [CurrencyAmount.add, if_pos (isFirst.trans isSecond.symm)]

namespace Stores

variable {stores : Stores} {contractData data : WalletContractData} {currency cur : String}

theorem recoverFees_priced {fees : RecoveredFees} {payCoin : PayCoin}
    {charge : String × CurrencyAmount}
    (priced : stores.Priced data.wireMethod cur payCoin.coinPub charge) (isIn : fees.In cur)
    (depositFits : fees.totalDepositFees.amount.units + charge.2.amount.units < limit)
    (wireFits : fees.totalWireFee.amount.units +
      newWireFees (stores.wireFeeUnits data.wireMethod) fees.coveredExchanges [charge.1] < limit) :
    ∃ next, stores.recoverFees data fees payCoin = some next ∧ next.In cur ∧
      next.totalDepositFees.amount.units =
        fees.totalDepositFees.amount.units + charge.2.amount.units ∧
      next.totalWireFee.amount.units = fees.totalWireFee.amount.units +
        newWireFees (stores.wireFeeUnits data.wireMethod) fees.coveredExchanges [charge.1] ∧
      next.coveredExchanges = if charge.1 ∈ fees.coveredExchanges then fees.coveredExchanges
        else charge.1 :: fees.coveredExchanges := by
  obtain ⟨c, isC, has⟩ := bind_eq_some_iff.mp priced.known
  obtain ⟨dn, isDenom, has⟩ := bind_eq_some_iff.mp has
  cases Option.some.inj has
  obtain ⟨deposit, isDeposit, depositIn, depositUnits⟩ :=
    CurrencyAmount.add_eq isIn.deposit priced.deposit depositFits
  obtain ⟨dt, isDetails⟩ := priced.details
  unfold recoverFees
  rw [isC, bind_eq_bind, bind_some, isDenom, bind_eq_bind, bind_some, bind_eq_bind, isDeposit]
  unfold newWireFees newWireFees at wireFits ⊢
  by_cases seen : c.exchangeBaseUrl ∈ fees.coveredExchanges
  · simp only [if_pos seen]
    exact ⟨_, rfl, ⟨isIn.wire, depositIn⟩, depositUnits, (Nat.add_zero _).symm, rfl⟩
  simp only [if_neg seen, Nat.add_zero] at wireFits ⊢
  have x : stores.firstWireFee data.wireMethod c.exchangeBaseUrl =
      (dt.feesFor data.wireMethod).head?.map WireFee.wireFee := by
    rw [firstWireFee, isDetails, bind_some]
  have mem : ((dt.wireInfo.feesForType.get? data.wireMethod).getD []).head? =
      (dt.feesFor data.wireMethod).head? := rfl
  simp only [isDetails, bind_eq_bind, bind_some, mem]
  cases fee : (dt.feesFor data.wireMethod).head? with
  | none =>
    rw [fee] at x
    refine ⟨_, rfl, ⟨isIn.wire, depositIn⟩, depositUnits, ?_, rfl⟩
    simp [wireFeeUnits, x]
  | some fee' =>
    rw [fee] at x
    have units : stores.wireFeeUnits data.wireMethod c.exchangeBaseUrl =
        fee'.wireFee.amount.units := by
      rw [wireFeeUnits, x]
      rfl
    rw [units] at wireFits ⊢
    obtain ⟨wire, isWire, wireIn, wireUnits⟩ :=
      CurrencyAmount.add_eq isIn.wire (priced.wire _ x) wireFits
    simp only [isWire, bind_some]
    exact ⟨_, rfl, ⟨wireIn, depositIn⟩, depositUnits, wireUnits, rfl⟩

theorem charges_cons {pub : String} {rest : List String} {charge : String × CurrencyAmount}
    (has : stores.coinCharge pub = some charge) :
    stores.charges (pub :: rest) = (charge.1, charge.2.amount) :: stores.charges rest := by
  rw [charges, filterMap_cons, has]
  rfl

/-- The loop over the coins sums up their deposit fees, and the wire fees of their exchanges. -/
theorem recoverFees_all {payCoins : List PayCoin} {fees : RecoveredFees}
    (priced : ∀ payCoin ∈ payCoins, ∃ charge,
      stores.Priced data.wireMethod cur payCoin.coinPub charge) (isIn : fees.In cur)
    (depositFits : fees.totalDepositFees.amount.units +
      SelectPayCoinRequest.depositFees (stores.charges (payCoins.map PayCoin.coinPub)) < limit)
    (wireFits : fees.totalWireFee.amount.units +
      newWireFees (stores.wireFeeUnits data.wireMethod) fees.coveredExchanges
        ((stores.charges (payCoins.map PayCoin.coinPub)).map Prod.fst) < limit) :
    ∃ fin, payCoins.foldlM (stores.recoverFees data) fees = some fin ∧ fin.In cur ∧
      fin.totalDepositFees.amount.units = fees.totalDepositFees.amount.units +
        SelectPayCoinRequest.depositFees (stores.charges (payCoins.map PayCoin.coinPub)) ∧
      fin.totalWireFee.amount.units = fees.totalWireFee.amount.units +
        newWireFees (stores.wireFeeUnits data.wireMethod) fees.coveredExchanges
          ((stores.charges (payCoins.map PayCoin.coinPub)).map Prod.fst) := by
  induction payCoins generalizing fees with
  | nil => exact ⟨fees, rfl, isIn, (Nat.add_zero _).symm, (Nat.add_zero _).symm⟩
  | cons payCoin rest ih =>
    obtain ⟨charge, isPriced⟩ := priced payCoin mem_cons_self
    have later : ∀ y ∈ rest, ∃ charge, stores.Priced data.wireMethod cur y.coinPub charge :=
      fun y mem => priced y (mem_cons_of_mem payCoin mem)
    rw [map_cons, charges_cons isPriced.known] at depositFits wireFits ⊢
    have deposits : SelectPayCoinRequest.depositFees ((charge.1, charge.2.amount) ::
          stores.charges (rest.map PayCoin.coinPub)) = charge.2.amount.units +
        SelectPayCoinRequest.depositFees (stores.charges (rest.map PayCoin.coinPub)) := by
      simp [SelectPayCoinRequest.depositFees]
    have wires : ∀ covered : List String, newWireFees (stores.wireFeeUnits data.wireMethod) covered
            (charge.1 :: (stores.charges (rest.map PayCoin.coinPub)).map Prod.fst) =
          newWireFees (stores.wireFeeUnits data.wireMethod) covered [charge.1] +
            newWireFees (stores.wireFeeUnits data.wireMethod)
              (if charge.1 ∈ covered then covered else charge.1 :: covered)
              ((stores.charges (rest.map PayCoin.coinPub)).map Prod.fst) := by
      intro covered
      simp only [newWireFees]
      split <;> simp
    rw [map_cons, wires] at wireFits ⊢
    obtain ⟨next, isNext, nextIn, nextDeposit, nextWire, nextCovered⟩ :=
      recoverFees_priced isPriced isIn (by omega) (by omega)
    obtain ⟨fin, isFinal, finalIn, finalDeposit, finalWire⟩ := @ih next later nextIn
      (by omega) (by rw [nextCovered]; omega)
    refine ⟨fin, ?_, finalIn, ?_, ?_⟩
    · rw [foldlM_cons, isNext]
      exact isFinal
    · omega
    · rw [finalWire, nextWire, nextCovered]
      omega

end Stores

/-! ## When both give the same fees -/

/-- A selection of coins for a contract, which may keep coins of an earlier one. -/
structure SelectedFor (database : Database) (now : Nat) (contractData : WalletContractData)
    (payCoins : List PayCoin) (request : SelectPayCoinRequest)
    (selection : Wallet.PayCoinSelection) : Prop where
  amortization : contractData.wireFeeAmortization = request.wireFeeAmortization
  candidates : ∃ candidates,
    database.stores.getCandidatePayCoins now contractData.coinSelectionRequest =
        some candidates ∧
      request = contractData.selectPayCoinRequest request.wireFeeAmortization candidates
        (database.stores.prevPayCoins payCoins)
  fits : request.Fits
  selected : selectPayCoins request = .ok (some selection)

/-- The stores have the coins again with their denominations and the details of their exchanges;
the sums of the fees are in range. -/
structure RestoredFor (original stores : Stores) (contractData : WalletContractData)
    (coinPubs : List String) : Prop where
  charge : ∀ coinPub ∈ coinPubs, stores.coinCharge coinPub = original.coinCharge coinPub
  details : ∀ coinPub ∈ coinPubs, ∀ charge, stores.coinCharge coinPub = some charge →
    stores.getExchangeDetails charge.1 = original.getExchangeDetails charge.1
  priced : ∀ coinPub ∈ coinPubs, ∃ charge,
    stores.Priced contractData.wireMethod contractData.amount.currency coinPub charge
  depositFits : SelectPayCoinRequest.depositFees (stores.charges coinPubs) < limit
  wireFits : stores.totalWireFee contractData.wireMethod coinPubs < limit

/-- The limits have the contract's currency. If the restored wire fee is within its limit, nothing
of the wire fees may be left over, or it is covered together with the deposit fees; otherwise all
of it must have been left over, after the limit for deposit fees was used up. -/
structure FeesAgree (contractData : WalletContractData) (request : SelectPayCoinRequest)
    (charges : List (String × AmountJson)) (totalWireFee : Nat) : Prop where
  maxWireFee : contractData.maxWireFee.currency = contractData.amount.currency
  maxDepositFee : contractData.maxDepositFee.currency = contractData.amount.currency
  covered : totalWireFee / request.wireFeeAmortization ≤ request.wireFeeLimit.units →
    request.leftWireFees charges = 0 ∨
      request.leftWireFees charges + SelectPayCoinRequest.depositFees charges ≤
        request.depositFeeLimit.units
  exceeded : request.wireFeeLimit.units < totalWireFee / request.wireFeeAmortization →
    request.leftWireFees charges = totalWireFee / request.wireFeeAmortization ∧
      ¬ request.Absorbs charges

theorem Stores.charges_eq {stores : Stores} {items : List (String × String × AmountJson)}
    (has : ∀ item ∈ items, ∃ fee, stores.coinCharge item.1 = some (item.2.1, fee) ∧
      fee.amount = item.2.2) : stores.charges (items.map Prod.fst) = items.map Prod.snd := by
  induction items with
  | nil => rfl
  | cons item rest ih =>
    obtain ⟨fee, isFee, eq⟩ := has item mem_cons_self
    rw [map_cons, Stores.charges_cons isFee, map_cons, eq,
      ih fun y mem => has y (mem_cons_of_mem item mem)]

theorem Stores.prevPayCoins_charge {stores : Stores} {payCoins : List PayCoin}
    {prev : PreviousPayCoin} (mem : prev ∈ stores.prevPayCoins payCoins) :
    ∃ fee, stores.coinCharge prev.coinPub = some (prev.exchangeBaseUrl, fee) ∧
      fee.amount = prev.feeDeposit := by
  obtain ⟨payCoin, _, isPrev⟩ := mem_filterMap.mp mem
  obtain ⟨c, isC, isPrev⟩ := bind_eq_some_iff.mp isPrev
  obtain ⟨dn, isDenom, isPrev⟩ := bind_eq_some_iff.mp isPrev
  cases Option.some.inj isPrev
  refine ⟨dn.feeDeposit, ?_, rfl⟩
  rw [coinCharge, isC, bind_eq_bind, bind_some, isDenom]
  rfl

theorem Database.denomination_exchange (database : Database)
    {exchangeBaseUrl hash : String} {dn : DenominationRecord}
    (has : database.stores.getDenomination exchangeBaseUrl hash = some dn) :
    dn.exchangeBaseUrl = exchangeBaseUrl := by
  have keyed := database.denominationsKeyed _ dn has
  exact (congrArg (fun key => (ofLex key).1) keyed).symm

theorem Database.candidate_charge (database : Database) {now : Nat}
    {req : CoinSelectionRequest} {candidates : CoinCandidateSelection}
    (h : database.Found now req candidates) {info : Wallet.AvailableCoinInfo}
    (mem : info ∈ candidates.candidateCoins.map AvailableCoinInfo.forSelection) :
    ∃ fee, database.stores.coinCharge info.coinPub = some (info.exchangeBaseUrl, fee) ∧
      fee.amount = info.feeDeposit := by
  obtain ⟨listed, isListed, rfl⟩ := List.mem_map.mp mem
  obtain ⟨c, dn, cand, _, rfl⟩ := (h.coins listed).mp isListed
  have exchange := database.denomination_exchange cand.denomination
  refine ⟨dn.feeDeposit, ?_, rfl⟩
  rw [Stores.coinCharge]
  simp only [AvailableCoinInfo.forSelection, CoinRecord.availableInfo, cand.stored,
    cand.denomination, exchange, bind_eq_bind, bind_some]
  rfl

namespace SelectedFor

variable {database : Database} {now : Nat} {contractData data : WalletContractData}
  {payCoins : List PayCoin} {request req : SelectPayCoinRequest}
  {selection sel : Wallet.PayCoinSelection} {stores : Stores}

theorem split (made : SelectedFor database now data payCoins req sel)
    (restored : RestoredFor database.stores stores data sel.coinPubs) :
    sel.SplitFor req (stores.charges sel.coinPubs) := by
  obtain ⟨candidates, isF, isRequest⟩ := made.candidates
  have h := database.getCandidatePayCoins_found isF
  obtain ⟨chosen, fromCandidates, pubs, split⟩ := selectPayCoins_split made.fits made.selected
  have prevs : req.prevPayCoins = database.stores.prevPayCoins payCoins := by
    rw [isRequest]
    rfl
  have candidateCoins : req.candidateCoins =
      candidates.candidateCoins.map AvailableCoinInfo.forSelection := by
    rw [isRequest]
    rfl
  let items : List (String × String × AmountJson) :=
    (req.prevPayCoins.map fun prev => (prev.coinPub, prev.charge)) ++
      chosen.map fun c => (c.1.coinPub, c.charge)
  have isPubs : items.map Prod.fst = sel.coinPubs := by
    rw [pubs]
    simp only [items, map_append, List.map_map, prevCoinPubs]
    rfl
  have isCharges : items.map Prod.snd =
      req.prevPayCoins.map PreviousPayCoin.charge ++ chosen.map Chosen.charge := by
    simp only [items, map_append, List.map_map]
    rfl
  have has : ∀ item ∈ items, ∃ fee, stores.coinCharge item.1 = some (item.2.1, fee) ∧
      fee.amount = item.2.2 := by
    intro item mem
    have isPub : item.1 ∈ sel.coinPubs := by
      rw [← isPubs]
      exact List.mem_map_of_mem mem
    rw [restored.charge item.1 isPub]
    rcases mem_append.mp mem with isPrev | isChosen
    · obtain ⟨prev, wasPaid, rfl⟩ := List.mem_map.mp isPrev
      rw [prevs] at wasPaid
      exact Stores.prevPayCoins_charge wasPaid
    obtain ⟨c, wasChosen, rfl⟩ := List.mem_map.mp isChosen
    have isCandidate := fromCandidates c wasChosen
    rw [candidateCoins] at isCandidate
    exact database.candidate_charge h isCandidate
  rw [← isPubs, Stores.charges_eq has, isCharges]
  exact split

theorem wireFee_le (made : SelectedFor database now data payCoins req sel)
    (restored : RestoredFor database.stores stores data sel.coinPubs) :
    ∀ url ∈ (stores.charges sel.coinPubs).map Prod.fst,
      req.wireFee url ≤ stores.wireFeeUnits data.wireMethod url := by
  intro url isUrl
  obtain ⟨candidates, isF, isRequest⟩ := made.candidates
  have h := database.getCandidatePayCoins_found isF
  obtain ⟨mem, isListed, rfl⟩ := List.mem_map.mp isUrl
  obtain ⟨pub, isPub, has⟩ := mem_filterMap.mp isListed
  obtain ⟨charge, isCharge, rfl⟩ := map_eq_some_iff.mp has
  have dt := restored.details pub isPub charge isCharge
  have fee : req.wireFee charge.1 =
      (((database.stores.offeredFee data.coinSelectionRequest charge.1).map
        CurrencyAmount.amount).getD Amounts.getZero).units := by
    rw [← h.fees, isRequest]
    rfl
  rw [fee, Stores.offeredFee]
  cases used : database.stores.usedDetails data.coinSelectionRequest charge.1 with
  | none =>
    rw [bind_none, map_none, getD_none]
    exact Nat.zero_le _
  | some exchangeDetails =>
    have isDetails := (Stores.usedDetails_eq_some.mp used).1.known
    rw [bind_some, CoinSelectionRequest.wireFee_eq, Stores.wireFeeUnits,
      Stores.firstWireFee, dt, isDetails, bind_some]
    have m : data.coinSelectionRequest.wireMethod = data.wireMethod := rfl
    rw [m]
    cases (exchangeDetails.feesFor data.wireMethod).head? with
    | none =>
      exact Nat.zero_le _
    | some x => exact Nat.le_refl _

end SelectedFor

section Recovery

variable {stores : Stores} {contractData data : WalletContractData} {backupPurchase : BackupPurchase}
  {amortization : ℕ+}

structure RecoveredFrom (contractData : WalletContractData) (amortization : ℕ+)
    (totalDepositFees totalWireFee : Nat) (recovered : PayCoinSelection) : Prop where
  wireCurrency : recovered.customerWireFees.currency = contractData.amount.currency
  depositCurrency : recovered.customerDepositFees.currency = contractData.amount.currency
  wire : recovered.customerWireFees.amount.units =
    if contractData.maxWireFee.amount.units < totalWireFee / amortization then
      totalWireFee / amortization
    else 0
  deposit : recovered.customerDepositFees.amount.units =
    totalDepositFees - contractData.maxDepositFee.amount.units

theorem recoverAmortizedSelection_some_iff
    (isAmortization : data.wireFeeAmortization = amortization)
    (priced : ∀ payCoin ∈ backupPurchase.payCoins, ∃ charge,
      stores.Priced data.wireMethod data.amount.currency payCoin.coinPub charge)
    (depositFits : SelectPayCoinRequest.depositFees
      (stores.charges (backupPurchase.payCoins.map PayCoin.coinPub)) < limit)
    (wireFits : stores.totalWireFee data.wireMethod
      (backupPurchase.payCoins.map PayCoin.coinPub) < limit) :
    (∀ recovered, stores.recoverAmortizedSelection data backupPurchase = some recovered →
      data.maxWireFee.currency = data.amount.currency ∧
        data.maxDepositFee.currency = data.amount.currency ∧ RecoveredFrom data amortization
          (SelectPayCoinRequest.depositFees
            (stores.charges (backupPurchase.payCoins.map PayCoin.coinPub)))
          (stores.totalWireFee data.wireMethod
            (backupPurchase.payCoins.map PayCoin.coinPub)) recovered) ∧
      (data.maxWireFee.currency = data.amount.currency →
        data.maxDepositFee.currency = data.amount.currency →
        ∃ recovered, stores.recoverAmortizedSelection data backupPurchase = some recovered) := by
  let zero := CurrencyAmount.getZero data.amount.currency
  have isIn : Stores.RecoveredFees.In ⟨[], zero, zero⟩ data.amount.currency := ⟨rfl, rfl⟩
  have none : zero.amount.units = 0 := Amounts.getZero_units
  obtain ⟨fin, isFinal, finalIn, finalDeposit, finalWire⟩ :=
    Stores.recoverFees_all priced isIn (by rw [none, Nat.zero_add]; exact depositFits)
      (by rw [none, Nat.zero_add]; exact wireFits)
  rw [none, Nat.zero_add] at finalDeposit finalWire
  have positive : 0 < data.wireFeeAmortization := by
    rw [isAmortization]
    exact amortization.pos
  have divisor : (⟨data.wireFeeAmortization, positive⟩ : ℕ+) = amortization :=
    PNat.eq isAmortization
  have divided : fin.totalWireFee.divide data.wireFeeAmortization =
      some ⟨data.amount.currency, Amounts.divide fin.totalWireFee.amount amortization⟩ := by
    rw [CurrencyAmount.divide, dif_pos positive, divisor, finalIn.wire]
  unfold Stores.recoverAmortizedSelection
  simp only [isFinal, bind_eq_bind, bind_some, zero, divided]
  unfold CurrencyAmount.cmp CurrencyAmount.sub
  rw [finalIn.deposit]
  constructor
  · intro recovered result
    obtain ⟨order, isOrder, result⟩ := bind_eq_some_iff.mp result
    obtain ⟨deposit, isDeposit, result⟩ := bind_eq_some_iff.mp result
    split at isOrder
    next wireCurrency =>
      split at isDeposit
      next depositCurrency =>
        cases isOrder
        cases isDeposit
        cases Option.some.inj result
        refine ⟨wireCurrency, depositCurrency.symm, ?_, rfl, ?_, ?_⟩
        · dsimp only
          split
          next => rfl
          next => rfl
        · have compared := @Amounts.cmp_lt_iff data.maxWireFee.amount
            (Amounts.divide fin.totalWireFee.amount amortization)
          rw [Amounts.divide_units, finalWire] at compared
          split
          next less =>
            have above := compared.mp less
            rw [Amounts.divide_units, finalWire]
            exact (if_pos above).symm
          next notLess =>
            have within := fun above => notLess (compared.mpr above)
            exact Amounts.getZero_units.trans (if_neg within).symm
        · rw [Amounts.sub_units, finalDeposit]
      next => cases isDeposit
    next => cases isOrder
  · intro wireCurrency depositCurrency
    rw [if_pos wireCurrency, if_pos depositCurrency.symm]
    exact ⟨_, rfl⟩

end Recovery

/-- The restored selection has the fees of the original one exactly when the fees agree. -/
theorem recovered_fees_iff (database : Database) (now : Nat) (contractData : WalletContractData)
    (payCoins : List PayCoin) (request : SelectPayCoinRequest)
    (selection : Wallet.PayCoinSelection) (stores : Stores) (backupPurchase : BackupPurchase)
    (made : SelectedFor database now contractData payCoins request selection)
    (sameCoins : backupPurchase.payCoins.map PayCoin.coinPub = selection.coinPubs)
    (restored : RestoredFor database.stores stores contractData selection.coinPubs) :
    (∃ recovered, stores.recoverAmortizedSelection contractData backupPurchase = some recovered ∧
        recovered.customerWireFees = ⟨contractData.amount.currency, selection.customerWireFees⟩ ∧
        recovered.customerDepositFees =
          ⟨contractData.amount.currency, selection.customerDepositFees⟩) ↔
      FeesAgree contractData request (stores.charges selection.coinPubs)
        (stores.totalWireFee contractData.wireMethod selection.coinPubs) := by
  have split := made.split restored
  have fewer := newWireFees_mono (made.wireFee_le restored) []
  have left := request.leftWireFees_le (stores.charges selection.coinPubs)
  have most : request.leftWireFees (stores.charges selection.coinPubs) ≤
      stores.totalWireFee contractData.wireMethod selection.coinPubs /
        request.wireFeeAmortization := left.trans (Nat.div_le_div_right fewer)
  have limits : request.wireFeeLimit = contractData.maxWireFee.amount ∧
      request.depositFeeLimit = contractData.maxDepositFee.amount := by
    obtain ⟨candidates, _, isRequest⟩ := made.candidates
    rw [isRequest]
    exact ⟨rfl, rfl⟩
  have priced : ∀ payCoin ∈ backupPurchase.payCoins, ∃ charge,
      stores.Priced contractData.wireMethod contractData.amount.currency payCoin.coinPub
        charge := by
    intro payCoin member
    apply restored.priced
    rw [← sameCoins]
    exact List.mem_map_of_mem member
  obtain ⟨values, returns⟩ := recoverAmortizedSelection_some_iff made.amortization priced
    (by rw [sameCoins]; exact restored.depositFits) (by rw [sameCoins]; exact restored.wireFits)
  rw [sameCoins] at values
  have total : selection.customerDepositFees.units + selection.customerWireFees.units =
      SelectPayCoinRequest.depositFees (stores.charges selection.coinPubs) +
        request.leftWireFees (stores.charges selection.coinPubs) -
          request.depositFeeLimit.units := split.total
  have atMost := split.atMost
  have whole := split.whole
  constructor
  · intro result
    obtain ⟨recovered, isRecovered, sameWire, sameDeposit⟩ := result
    obtain ⟨wireCurrency, depositCurrency, units⟩ := values recovered isRecovered
    have wire := units.wire
    have deposit := units.deposit
    rw [sameWire, ← limits.1] at wire
    rw [sameDeposit, ← limits.2] at deposit
    dsimp only at wire deposit
    constructor
    · exact wireCurrency
    · exact depositCurrency
    · intro within
      rw [if_neg (Nat.not_lt.mpr within)] at wire
      omega
    · intro above
      rw [if_pos above] at wire
      have all : selection.customerWireFees.units =
          request.leftWireFees (stores.charges selection.coinPubs) := by omega
      exact ⟨by omega, whole.mp all⟩
  · intro agree
    obtain ⟨recovered, isRecovered⟩ := returns agree.maxWireFee agree.maxDepositFee
    obtain ⟨_, _, units⟩ := values recovered isRecovered
    have wire := units.wire
    have deposit := units.deposit
    rw [← limits.1] at wire
    rw [← limits.2] at deposit
    have same : recovered.customerWireFees.amount.units = selection.customerWireFees.units ∧
        recovered.customerDepositFees.amount.units = selection.customerDepositFees.units := by
      by_cases within : stores.totalWireFee contractData.wireMethod selection.coinPubs /
          request.wireFeeAmortization ≤ request.wireFeeLimit.units
      · rw [if_neg (Nat.not_lt.mpr within)] at wire
        have covered := agree.covered within
        omega
      · rw [if_pos (Nat.not_le.mp within)] at wire
        obtain ⟨isAll, absorbs⟩ := agree.exceeded (Nat.not_le.mp within)
        have all := whole.mpr absorbs
        omega
    refine ⟨recovered, isRecovered, ?_, ?_⟩
    · rw [← units.wireCurrency, ← AmountJson.units_injective same.1]
    · rw [← units.depositCurrency, ← AmountJson.units_injective same.2]

def exampleContract (maxWireFee maxDepositFee : AmountJson) : WalletContractData where
  products := none
  summaryI18n := none
  fulfillmentUrl := ""
  contractTermsHash := ""
  merchantSig := ""
  merchantPub := ""
  merchant := .null
  amount := ⟨"KUDOS", .ofValue 2⟩
  orderId := ""
  merchantBaseUrl := ""
  summary := ""
  autoRefund := none
  maxWireFee := ⟨"KUDOS", maxWireFee⟩
  wireFeeAmortization := 1
  payDeadline := .never
  refundDeadline := .never
  allowedAuditors := []
  allowedExchanges := [⟨"https://exchange/", "K"⟩]
  timestamp := .at 20
  wireMethod := "iban"
  wireInfoHash := ""
  maxDepositFee := ⟨"KUDOS", maxDepositFee⟩

def examplePurchase : BackupPurchase where
  proposalId := ""
  contractTermsRaw := .null
  merchantSig := ""
  noncePriv := ""
  payCoins := [⟨"C", ⟨"KUDOS", .ofValue 2⟩⟩]
  payCoinsUid := ""
  totalPayCost := ⟨"KUDOS", .ofValue 2⟩
  timestampFirstSuccessfulPay := none
  merchantPaySig := none
  timestampAccept := .at 20
  refunds := []
  abortStatus := none
  autoRefundDeadline := none

def exampleCandidates : CoinCandidateSelection where
  candidateCoins := [exampleCoin.availableInfo exampleDenomination]
  wireFeesPerExchange := Record.empty.set "https://exchange/" pastFee.wireFee

def exampleSelectRequest (maxWireFee maxDepositFee : AmountJson) : SelectPayCoinRequest :=
  (exampleContract maxWireFee maxDepositFee).selectPayCoinRequest ⟨1, Nat.one_pos⟩
    exampleCandidates []

def exampleSelection : Wallet.PayCoinSelection where
  paymentAmount := .ofValue 2
  coinPubs := ["C"]
  coinContributions := [.ofValue 2]
  customerWireFees := Amounts.getZero
  customerDepositFees := Amounts.getZero


theorem exampleDetails_found :
    exampleDatabase.stores.getExchangeDetails "https://exchange/" = some exampleDetails := rfl

theorem exampleCoins_found :
    exampleDatabase.stores.coinsByBaseUrl "https://exchange/" = [exampleCoin] := rfl

theorem exampleDenomination_found :
    exampleDatabase.stores.getDenomination "https://exchange/" "D" = some exampleDenomination := rfl

theorem exampleCandidates_found (maxWireFee maxDepositFee : AmountJson) :
    exampleDatabase.stores.getCandidatePayCoins 20
      (exampleContract maxWireFee maxDepositFee).coinSelectionRequest = some exampleCandidates := by
  have exs : exampleDatabase.stores.exchanges.values = [exampleExchange] := rfl
  have okay : (exampleContract maxWireFee maxDepositFee).coinSelectionRequest.isOkay
    exampleDetails = true := rfl
  have fee : (exampleContract maxWireFee maxDepositFee).coinSelectionRequest.wireFee
    exampleDetails = some pastFee.wireFee := by
    rw [CoinSelectionRequest.wireFee_eq]
    rfl
  have cs : exampleDatabase.stores.spendableCoins 20 "https://exchange/" "KUDOS" [exampleCoin] =
      some [exampleCoin.availableInfo exampleDenomination] := rfl
  rw [Stores.getCandidatePayCoins, exs, foldlM_cons]
  unfold Stores.addExchange
  have url : exampleExchange.baseUrl = "https://exchange/" := rfl
  simp only [url, exampleDetails_found, okay, if_true, exampleCoins_found]
  have cur : exampleDenomination.value.currency = "KUDOS" := rfl
  simp only [hash, exampleDenomination_found, bind_eq_bind, bind_some, cur, cs, fee]
  rfl

theorem example_made {maxWireFee maxDepositFee : AmountJson}
    (order : sortCandidates (exampleSelectRequest maxWireFee maxDepositFee).candidateCoins =
      .ok (exampleSelectRequest maxWireFee maxDepositFee).candidateCoins)
    (fits : SpendingFits (exampleSelectRequest maxWireFee maxDepositFee)
      (prevCoinPubs (exampleSelectRequest maxWireFee maxDepositFee))
      (exampleSelectRequest maxWireFee maxDepositFee).candidateCoins
      (repeatPrevious (exampleSelectRequest maxWireFee maxDepositFee)))
    (sel : selectPayCoins (exampleSelectRequest maxWireFee maxDepositFee) =
      .ok (some exampleSelection)) :
    SelectedFor exampleDatabase 20 (exampleContract maxWireFee maxDepositFee) []
      (exampleSelectRequest maxWireFee maxDepositFee) exampleSelection := by
  refine ⟨rfl, ⟨exampleCandidates, exampleCandidates_found maxWireFee maxDepositFee, rfl⟩,
    ⟨trivial, ?_⟩, sel⟩
  intro sorted r
  cases r
  exact fits

theorem exampleCharge_found : exampleDatabase.stores.coinCharge "C" =
    some ("https://exchange/", ⟨"KUDOS", .ofValue 0⟩) := rfl

theorem exampleCharges : exampleDatabase.stores.charges ["C"] =
    [("https://exchange/", .ofValue 0)] := rfl

theorem exampleWireFee_found : exampleDatabase.stores.firstWireFee "iban" "https://exchange/" =
    some ⟨"KUDOS", .ofValue 1⟩ := rfl

theorem exampleTotalWireFee : exampleDatabase.stores.totalWireFee "iban" ["C"] =
    (AmountJson.ofValue 1).units := by
  simp [Stores.totalWireFee, exampleCharges, newWireFees, Stores.wireFeeUnits, exampleWireFee_found]

theorem example_priced : exampleDatabase.stores.Priced "iban" "KUDOS" "C"
    ("https://exchange/", ⟨"KUDOS", .ofValue 0⟩) := by
  constructor
  · exact exampleCharge_found
  · rfl
  · exact ⟨exampleDetails, exampleDetails_found⟩
  intro wireFee isFee
  cases Option.some.inj (exampleWireFee_found.symm.trans isFee)
  rfl

theorem example_restored (maxWireFee maxDepositFee : AmountJson) :
    RestoredFor exampleDatabase.stores exampleDatabase.stores
      (exampleContract maxWireFee maxDepositFee) ["C"] := by
  constructor
  · exact fun _ _ => rfl
  · exact fun _ _ _ _ => rfl
  · intro pub mem
    cases mem_singleton.mp mem
    exact ⟨_, example_priced⟩
  · rw [exampleCharges]
    decide
  have total : exampleDatabase.stores.totalWireFee
      (exampleContract maxWireFee maxDepositFee).wireMethod ["C"] =
        (AmountJson.ofValue 1).units := exampleTotalWireFee
  rw [total]
  decide

/-- The wire fee is within its limit. -/
theorem recovered_fees_iff_within : ∃ recovered, exampleDatabase.stores.recoverAmortizedSelection
        (exampleContract (.ofValue 1) (.ofValue 0)) examplePurchase = some recovered ∧
      recovered.customerWireFees = ⟨"KUDOS", exampleSelection.customerWireFees⟩ ∧
      recovered.customerDepositFees = ⟨"KUDOS", exampleSelection.customerDepositFees⟩ := by
  refine (recovered_fees_iff exampleDatabase 20 (exampleContract (.ofValue 1) (.ofValue 0)) []
    (exampleSelectRequest (.ofValue 1) (.ofValue 0)) exampleSelection exampleDatabase.stores
    examplePurchase (example_made (by decide +kernel) (by decide +kernel) (by decide +kernel)) rfl
    (example_restored _ _)).mpr ?_
  have charges : exampleDatabase.stores.charges exampleSelection.coinPubs =
      [("https://exchange/", .ofValue 0)] := exampleCharges
  have total : exampleDatabase.stores.totalWireFee
      (exampleContract (.ofValue 1) (.ofValue 0)).wireMethod exampleSelection.coinPubs =
        (AmountJson.ofValue 1).units := exampleTotalWireFee
  constructor
  · rfl
  · rfl
  · exact fun _ => .inl (by decide +kernel)
  · exact fun above => absurd above (by decide +kernel)

/-- The limit for deposit fees covers the wire fee, but the restored selection charges it. -/
theorem covered_wire_fee_recharged :
    SelectedFor exampleDatabase 20 (exampleContract (.ofValue 0) (.ofValue 1)) []
        (exampleSelectRequest (.ofValue 0) (.ofValue 1)) exampleSelection ∧
      RestoredFor exampleDatabase.stores exampleDatabase.stores
        (exampleContract (.ofValue 0) (.ofValue 1)) exampleSelection.coinPubs ∧
      examplePurchase.payCoins.map PayCoin.coinPub = exampleSelection.coinPubs ∧
      ¬ ∃ recovered, exampleDatabase.stores.recoverAmortizedSelection
          (exampleContract (.ofValue 0) (.ofValue 1)) examplePurchase = some recovered ∧
        recovered.customerWireFees = ⟨"KUDOS", exampleSelection.customerWireFees⟩ ∧
        recovered.customerDepositFees = ⟨"KUDOS", exampleSelection.customerDepositFees⟩ := by
  refine ⟨example_made (by decide +kernel) (by decide +kernel) (by decide +kernel),
    example_restored _ _, rfl, ?_⟩
  intro result
  obtain ⟨recovered, isRecovered, sameWire, _⟩ := result
  have restored := example_restored (.ofValue 0) (.ofValue 1)
  have priced : ∀ payCoin ∈ examplePurchase.payCoins, ∃ charge,
      exampleDatabase.stores.Priced "iban" "KUDOS" payCoin.coinPub charge := by
    intro payCoin member
    cases mem_singleton.mp member
    exact ⟨_, example_priced⟩
  obtain ⟨values, _⟩ := @recoverAmortizedSelection_some_iff exampleDatabase.stores
    (exampleContract (.ofValue 0) (.ofValue 1)) examplePurchase ⟨1, Nat.one_pos⟩ rfl priced
    restored.depositFits restored.wireFits
  have wire := (values recovered isRecovered).2.2.wire
  have total : exampleDatabase.stores.totalWireFee
      (exampleContract (.ofValue 0) (.ofValue 1)).wireMethod
        (examplePurchase.payCoins.map PayCoin.coinPub) = (AmountJson.ofValue 1).units :=
    exampleTotalWireFee
  rw [sameWire] at wire
  exact absurd wire (by decide +kernel)

end Anastasis.Wallet.Backup
