import Anastasis.Wallet.Amounts
import Mathlib.Data.List.Sort

/-! Selection of the coins that pay for a contract. -/

set_option autoImplicit false

namespace Anastasis.Wallet

open AmountJson

inductive DenominationPubKey where
  | rsa (rsaPublicKey : String)
  | cs
deriving DecidableEq

structure AvailableCoinInfo where
  coinPub : String
  denomPub : DenominationPubKey
  availableAmount : AmountJson
  feeDeposit : AmountJson
  exchangeBaseUrl : String
deriving DecidableEq

structure PreviousPayCoin where
  coinPub : String
  contribution : AmountJson
  feeDeposit : AmountJson
  exchangeBaseUrl : String

structure SelectPayCoinRequest where
  candidateCoins : List AvailableCoinInfo
  wireFeesPerExchange : String → Option AmountJson
  contractTermsAmount : AmountJson
  depositFeeLimit : AmountJson
  wireFeeLimit : AmountJson
  wireFeeAmortization : ℕ+
  prevPayCoins : List PreviousPayCoin

structure PayCoinSelection where
  paymentAmount : AmountJson
  coinPubs : List String
  coinContributions : List AmountJson
  customerWireFees : AmountJson
  customerDepositFees : AmountJson
deriving DecidableEq

structure CoinSelectionTally where
  amountPayRemaining : AmountJson
  amountWireFeeLimitRemaining : AmountJson
  amountDepositFeeLimitRemaining : AmountJson
  customerDepositFees : AmountJson
  customerWireFees : AmountJson
  wireFeeCoveredForExchange : List String

namespace CoinSelectionTally

/-- The part of a wire fee that the limit for wire fees leaves, spread over several payments. -/
def amortisedWireFee (tally : CoinSelectionTally) (wireFee : AmountJson)
    (wireFeeAmortization : ℕ+) : AmountJson :=
  Amounts.divide
    (Amounts.sub wireFee (Amounts.min tally.amountWireFeeLimitRemaining wireFee)).amount
    wireFeeAmortization

/-- The part of a fee that the limit for deposit fees leaves to the customer. -/
def leftToCustomer (tally : CoinSelectionTally) (fee : AmountJson) : AmountJson :=
  (Amounts.sub fee (Amounts.min tally.amountDepositFeeLimitRemaining fee)).amount

def useDepositFeeLimit (tally : CoinSelectionTally) (fee : AmountJson) : AmountJson :=
  (Amounts.sub tally.amountDepositFeeLimitRemaining
    (Amounts.min tally.amountDepositFeeLimitRemaining fee)).amount

/-- The first coin of an exchange is charged with the wire fee of the exchange. -/
def tallyWireFee (wireFeesPerExchange : String → Option AmountJson) (wireFeeAmortization : ℕ+)
    (exchangeBaseUrl : String) (tally : CoinSelectionTally) : CoinSelectionTally :=
  if exchangeBaseUrl ∈ tally.wireFeeCoveredForExchange then tally
  else
    let wf := (wireFeesPerExchange exchangeBaseUrl).getD Amounts.getZero
    let wfForgiven := Amounts.min tally.amountWireFeeLimitRemaining wf
    let wfAmortised := tally.amortisedWireFee wf wireFeeAmortization
    let wfRemaining := tally.leftToCustomer wfAmortised
    { amountPayRemaining := (Amounts.add tally.amountPayRemaining [wfRemaining]).amount
      amountWireFeeLimitRemaining :=
        (Amounts.sub tally.amountWireFeeLimitRemaining wfForgiven).amount
      amountDepositFeeLimitRemaining := tally.useDepositFeeLimit wfAmortised
      customerDepositFees := tally.customerDepositFees
      customerWireFees := (Amounts.add tally.customerWireFees [wfRemaining]).amount
      wireFeeCoveredForExchange := exchangeBaseUrl :: tally.wireFeeCoveredForExchange }

def tallyDepositFee (feeDeposit : AmountJson) (tally : CoinSelectionTally) :
    CoinSelectionTally :=
  let dfRemaining := tally.leftToCustomer feeDeposit
  { tally with
    amountPayRemaining := (Amounts.add tally.amountPayRemaining [dfRemaining]).amount
    amountDepositFeeLimitRemaining := tally.useDepositFeeLimit feeDeposit
    customerDepositFees := (Amounts.add tally.customerDepositFees [dfRemaining]).amount }

end CoinSelectionTally

def tallyFees (tally : CoinSelectionTally) (wireFeesPerExchange : String → Option AmountJson)
    (wireFeeAmortization : ℕ+) (exchangeBaseUrl : String) (feeDeposit : AmountJson) :
    CoinSelectionTally :=
  (tally.tallyWireFee wireFeesPerExchange wireFeeAmortization exchangeBaseUrl).tallyDepositFee
    feeDeposit

/-- The order of public keys; there is none between two keys of the second cipher. -/
def denomPubCmp : DenominationPubKey → DenominationPubKey → Option Ordering
  | .rsa first, .rsa second => some (compare first second)
  | .rsa _, .cs => some .lt
  | .cs, .rsa _ => some .gt
  | .cs, .cs => none

def candidateCmp (o1 o2 : AvailableCoinInfo) : Option Ordering :=
  match (Amounts.cmp o1.availableAmount o2.availableAmount).swap.then
      (Amounts.cmp o1.feeDeposit o2.feeDeposit) with
  | .eq => denomPubCmp o1.denomPub o2.denomPub
  | order => some order

/-- The candidates in the order in which they are tried, unless two of them have no order. -/
def sortCandidates (candidateCoins : List AvailableCoinInfo) :
    Except String (List AvailableCoinInfo) :=
  if candidateCoins.Pairwise (fun o1 o2 => candidateCmp o1 o2 ≠ none) then
    .ok (candidateCoins.insertionSort fun o1 o2 => candidateCmp o1 o2 ≠ some .gt)
  else .error "unsupported cipher"

structure Selecting where
  tally : CoinSelectionTally
  coinPubs : List String
  coinContributions : List AmountJson

namespace Selecting

def start (request : SelectPayCoinRequest) : Selecting where
  tally :=
    { amountPayRemaining := request.contractTermsAmount
      amountWireFeeLimitRemaining := request.wireFeeLimit
      amountDepositFeeLimitRemaining := request.depositFeeLimit
      customerDepositFees := Amounts.getZero
      customerWireFees := Amounts.getZero
      wireFeeCoveredForExchange := [] }
  coinPubs := []
  coinContributions := []

def tallyFees (selecting : Selecting) (request : SelectPayCoinRequest) (exchangeBaseUrl : String)
    (feeDeposit : AmountJson) : CoinSelectionTally :=
  Wallet.tallyFees selecting.tally request.wireFeesPerExchange request.wireFeeAmortization
    exchangeBaseUrl feeDeposit

def contribute (selecting : Selecting) (tally : CoinSelectionTally) (coinPub : String)
    (contribution : AmountJson) : Selecting where
  tally :=
    { tally with
      amountPayRemaining := (Amounts.sub tally.amountPayRemaining contribution).amount }
  coinPubs := selecting.coinPubs ++ [coinPub]
  coinContributions := selecting.coinContributions ++ [contribution]

def repeatCoin (request : SelectPayCoinRequest) (selecting : Selecting) (prev : PreviousPayCoin) :
    Selecting :=
  selecting.contribute (selecting.tallyFees request prev.exchangeBaseUrl prev.feeDeposit)
    prev.coinPub prev.contribution

def coinTally (request : SelectPayCoinRequest) (selecting : Selecting)
    (aci : AvailableCoinInfo) : CoinSelectionTally :=
  selecting.tallyFees request aci.exchangeBaseUrl aci.feeDeposit

def coinSpend (request : SelectPayCoinRequest) (selecting : Selecting)
    (aci : AvailableCoinInfo) : AmountJson :=
  Amounts.max
    (Amounts.min (selecting.coinTally request aci).amountPayRemaining aci.availableAmount)
    aci.feeDeposit

def spendCoin (request : SelectPayCoinRequest) (selecting : Selecting) (aci : AvailableCoinInfo) :
    Selecting :=
  selecting.contribute (selecting.coinTally request aci) aci.coinPub
    (selecting.coinSpend request aci)

end Selecting

def spendCoins (request : SelectPayCoinRequest) (prevCoinPubs : List String) :
    List AvailableCoinInfo → Selecting → Selecting
  | [], selecting => selecting
  | aci :: rest, selecting =>
    -- depositing the coin would cost more than it is worth
    if Amounts.cmp aci.feeDeposit aci.availableAmount = .gt then
      spendCoins request prevCoinPubs rest selecting
    else if Amounts.isZero selecting.tally.amountPayRemaining then selecting
    -- the same coin cannot contribute twice to the same payment
    else if aci.coinPub ∈ prevCoinPubs then spendCoins request prevCoinPubs rest selecting
    else spendCoins request prevCoinPubs rest (selecting.spendCoin request aci)

def repeatPrevious (request : SelectPayCoinRequest) : Selecting :=
  request.prevPayCoins.foldl (Selecting.repeatCoin request) (.start request)

def prevCoinPubs (request : SelectPayCoinRequest) : List String :=
  request.prevPayCoins.map PreviousPayCoin.coinPub

def Selecting.selection (request : SelectPayCoinRequest) (selecting : Selecting) :
    Option PayCoinSelection :=
  if Amounts.isZero selecting.tally.amountPayRemaining then
    some
      { paymentAmount := request.contractTermsAmount
        coinContributions := selecting.coinContributions
        coinPubs := selecting.coinPubs
        customerDepositFees := selecting.tally.customerDepositFees
        customerWireFees := selecting.tally.customerWireFees }
  else none

def selectPayCoins (request : SelectPayCoinRequest) : Except String (Option PayCoinSelection) :=
  if request.candidateCoins.isEmpty then .ok none
  else do
    let candidateCoins ← sortCandidates request.candidateCoins
    pure ((spendCoins request (prevCoinPubs request) candidateCoins
      (repeatPrevious request)).selection request)

end Anastasis.Wallet
