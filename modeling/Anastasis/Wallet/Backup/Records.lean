import Mathlib.Data.Prod.Lex
import Mathlib.Data.String.Basic
import Anastasis.Library.SortedMapUpdates
import Anastasis.Wallet.BackupEncryption
import Anastasis.Wallet.BackupProviders

/-! The stores of a wallet that a backup is made of, with all that is exported or restored. -/

set_option autoImplicit false

namespace Anastasis.Wallet.Backup

open Library

structure CurrencyAmount where
  currency : String
  amount : AmountJson

namespace CurrencyAmount

def getZero (currency : String) : CurrencyAmount := ⟨currency, Amounts.getZero⟩

def add (first second : CurrencyAmount) : Option CurrencyAmount :=
  if first.currency = second.currency then
    some ⟨first.currency, (Amounts.add first.amount [second.amount]).amount⟩
  else none

def sub (first second : CurrencyAmount) : Option CurrencyAmount :=
  if first.currency = second.currency then
    some ⟨first.currency, (Amounts.sub first.amount second.amount).amount⟩
  else none

def cmp (first second : CurrencyAmount) : Option Ordering :=
  if first.currency = second.currency then some (Amounts.cmp first.amount second.amount) else none

end CurrencyAmount

structure DenominationPubKey where
  cipher : Nat
  rsaPublicKey : String
  ageMask : Option Nat

structure UnblindedSignature where
  cipher : Nat
  rsaSignature : String

structure DenomCount where
  denomPubHash : String
  count : Nat

structure DenomSelectionState where
  totalCoinValue : CurrencyAmount
  totalWithdrawCost : CurrencyAmount
  selectedDenoms : List DenomCount

structure ExchangeDetailsPointer where
  masterPublicKey : String
  currency : String
  updateClock : Timestamp

structure ExchangeRecord where
  baseUrl : String
  detailsPointer : Option ExchangeDetailsPointer
  permanent : Bool
  lastUpdate : Option Timestamp
  nextUpdate : Timestamp
  nextRefreshCheck : Timestamp
  lastError : Option String
  retryInfo : RetryInfo

structure AuditorDenomSig where
  denomPubH : String
  auditorSig : String

structure Auditor where
  auditorPub : String
  auditorUrl : String
  denominationKeys : List AuditorDenomSig

structure ExchangeSignKey where
  stampStart : Timestamp
  stampExpire : Timestamp
  stampEnd : Timestamp
  key : String
  masterSig : String

structure ExchangeBankAccount where
  paytoUri : String
  masterSig : String

structure WireFee where
  wireFee : CurrencyAmount
  closingFee : CurrencyAmount
  startStamp : Timestamp
  endStamp : Timestamp
  sig : String

structure WireInfo where
  feesForType : Record String (List WireFee)
  accounts : List ExchangeBankAccount

inductive Duration where
  | milliseconds (d_ms : Nat)
  | forever

structure ExchangeDetailsRecord where
  masterPublicKey : String
  exchangeBaseUrl : String
  currency : String
  auditors : List Auditor
  protocolVersion : String
  reserveClosingDelay : Duration
  signingKeys : List ExchangeSignKey
  termsOfServiceText : Option String
  termsOfServiceContentType : Option String
  termsOfServiceLastEtag : Option String
  termsOfServiceAcceptedEtag : Option String
  termsOfServiceAcceptedTimestamp : Option Timestamp
  wireInfo : WireInfo

structure DenominationRecord where
  value : CurrencyAmount
  denomPub : DenominationPubKey
  denomPubHash : String
  feeWithdraw : CurrencyAmount
  feeDeposit : CurrencyAmount
  feeRefresh : CurrencyAmount
  feeRefund : CurrencyAmount
  stampStart : Timestamp
  stampExpireWithdraw : Timestamp
  stampExpireLegal : Timestamp
  stampExpireDeposit : Timestamp
  masterSig : String
  verificationStatus : DenominationVerificationStatus
  isOffered : Bool
  isRevoked : Bool
  exchangeBaseUrl : String
  exchangeMasterPub : String
  listIssueDate : Timestamp

inductive CoinStatus where
  | fresh
  | dormant
deriving DecidableEq

inductive CoinSource where
  | withdraw (withdrawalGroupId : String) (coinIndex : Nat) (reservePub : String)
  | refresh (oldCoinPub : String)
  | tip (walletTipId : String) (coinIndex : Nat)

structure CoinRecord where
  coinSource : CoinSource
  coinPub : String
  coinPriv : String
  denomPub : DenominationPubKey
  denomPubHash : String
  denomSig : UnblindedSignature
  currentAmount : CurrencyAmount
  exchangeBaseUrl : String
  suspended : Bool
  blindingKey : String
  coinEvHash : String
  status : CoinStatus

structure ReserveBankInfo where
  statusUrl : String
  confirmUrl : Option String
  exchangePaytoUri : String

inductive ReserveRecordStatus where
  | registeringBank
  | waitConfirmBank
  | queryingStatus
  | dormant
  | bankAborted
deriving DecidableEq

structure ReserveRecord where
  reservePub : String
  reservePriv : String
  exchangeBaseUrl : String
  currency : String
  timestampCreated : Timestamp
  timestampReserveInfoPosted : Option Timestamp
  timestampBankConfirmed : Option Timestamp
  senderWire : Option String
  instructedAmount : CurrencyAmount
  bankInfo : Option ReserveBankInfo
  initialWithdrawalGroupId : String
  initialWithdrawalStarted : Bool
  initialDenomSel : DenomSelectionState
  reserveStatus : ReserveRecordStatus
  requestedQuery : Bool
  lastSuccessfulStatusQuery : Option Timestamp
  retryInfo : RetryInfo
  lastError : Option String

structure WithdrawalGroupRecord where
  withdrawalGroupId : String
  secretSeed : String
  reservePub : String
  exchangeBaseUrl : String
  timestampStart : Timestamp
  timestampFinish : Option Timestamp
  rawWithdrawalAmount : CurrencyAmount
  denomsSel : DenomSelectionState
  denomSelUid : String
  retryInfo : RetryInfo
  lastError : Option String

structure AllowedAuditorInfo where
  auditorBaseUrl : String
  auditorPub : String

structure AllowedExchangeInfo where
  exchangeBaseUrl : String
  exchangePub : String

structure WalletContractData where
  products : Option Json
  summaryI18n : Option Json
  fulfillmentUrl : String
  contractTermsHash : String
  merchantSig : String
  merchantPub : String
  merchant : Json
  amount : CurrencyAmount
  orderId : String
  merchantBaseUrl : String
  summary : String
  autoRefund : Option Duration
  maxWireFee : CurrencyAmount
  wireFeeAmortization : Nat
  payDeadline : Timestamp
  refundDeadline : Timestamp
  allowedAuditors : List AllowedAuditorInfo
  allowedExchanges : List AllowedExchangeInfo
  timestamp : Timestamp
  wireMethod : String
  wireInfoHash : String
  maxDepositFee : CurrencyAmount

structure ProposalDownload where
  contractTermsRaw : Json
  contractData : WalletContractData

inductive ProposalStatus where
  | downloading
  | proposed
  | accepted
  | refused
  | permanentlyFailed
  | repurchase
deriving DecidableEq

structure ProposalRecord where
  orderId : String
  merchantBaseUrl : String
  download : Option ProposalDownload
  proposalId : String
  timestamp : Timestamp
  noncePriv : String
  noncePub : Option String
  claimToken : Option String
  proposalStatus : ProposalStatus
  repurchaseProposalId : Option String
  downloadSessionId : Option String
  retryInfo : Option RetryInfo
  lastError : Option String

inductive RefundState where
  | failed
  | applied
  | pending
deriving DecidableEq

structure WalletRefundItem where
  type : RefundState
  executionTime : Timestamp
  obtainedTime : Timestamp
  refundAmount : CurrencyAmount
  refundFee : CurrencyAmount
  totalRefreshCostBound : CurrencyAmount
  coinPub : String
  rtransactionId : Nat

inductive AbortStatus where
  | none
  | abortRefund
  | abortFinished
deriving DecidableEq

structure PayCoin where
  coinPub : String
  contribution : CurrencyAmount

/-- The public keys and contributions of the coins, in one list. -/
structure PayCoinSelection where
  paymentAmount : CurrencyAmount
  coins : List PayCoin
  customerWireFees : CurrencyAmount
  customerDepositFees : CurrencyAmount

structure PurchaseRecord where
  proposalId : String
  noncePriv : String
  noncePub : Option String
  download : ProposalDownload
  payCoinSelection : PayCoinSelection
  payCoinSelectionUid : String
  totalPayCost : CurrencyAmount
  timestampFirstSuccessfulPay : Option Timestamp
  merchantPaySig : Option String
  timestampAccept : Timestamp
  refunds : Record String WalletRefundItem
  timestampLastRefundStatus : Option Timestamp
  lastSessionId : Option String
  paymentSubmitPending : Bool
  refundQueryRequested : Bool
  abortStatus : AbortStatus
  payRetryInfo : Option RetryInfo
  lastPayError : Option String
  refundStatusRetryInfo : RetryInfo
  lastRefundStatusError : Option String
  autoRefundDeadline : Option Timestamp

inductive RefreshCoinStatus where
  | pending
  | finished
  | frozen
deriving DecidableEq

inductive RefreshReason where
  | manual
  | pay
  | refund
  | abortPay
  | recoup
  | backupRestored
  | scheduled
deriving DecidableEq

structure RefreshSessionRecord where
  sessionSecretSeed : String
  amountRefreshOutput : CurrencyAmount
  newDenoms : List DenomCount
  norevealIndex : Option Nat

/-- What a refresh group has in parallel arrays for each of its old coins. -/
structure RefreshOldCoin where
  oldCoinPub : String
  refreshSession : Option RefreshSessionRecord
  input : CurrencyAmount
  estimatedOutput : CurrencyAmount
  status : RefreshCoinStatus

structure RefreshGroupRecord where
  retryInfo : RetryInfo
  lastError : Option String
  lastErrorPerCoin : Record Nat String
  refreshGroupId : String
  reason : RefreshReason
  oldCoins : List RefreshOldCoin
  timestampCreated : Timestamp
  timestampFinished : Option Timestamp

structure TipRecord where
  lastError : Option String
  acceptedTimestamp : Option Timestamp
  tipAmountRaw : CurrencyAmount
  tipAmountEffective : CurrencyAmount
  tipExpiration : Timestamp
  exchangeBaseUrl : String
  merchantBaseUrl : String
  denomsSel : DenomSelectionState
  denomSelUid : String
  walletTipId : String
  secretSeed : String
  merchantTipId : String
  createdTimestamp : Timestamp
  pickedUpTimestamp : Option Timestamp
  retryInfo : RetryInfo

/-- What a recoup group has in parallel arrays for each of its coins. -/
structure RecoupCoin where
  coinPub : String
  recoupFinished : Bool
  oldAmount : CurrencyAmount

structure RecoupGroupRecord where
  recoupGroupId : String
  timestampStarted : Timestamp
  timestampFinished : Option Timestamp
  coins : List RecoupCoin

structure DepositGroupRecord where
  depositGroupId : String
  timestampCreated : Timestamp

structure Stores where
  config : Option WalletBackupConfState
  exchanges : SortedMap String ExchangeRecord
  exchangeDetails : SortedMap (String ×ₗ String ×ₗ String) ExchangeDetailsRecord
  coins : SortedMap String CoinRecord
  denominations : SortedMap (String ×ₗ String) DenominationRecord
  purchases : SortedMap String PurchaseRecord
  proposals : SortedMap String ProposalRecord
  refreshGroups : SortedMap String RefreshGroupRecord
  backupProviders : SortedMap String BackupProviderRecord
  tips : SortedMap String TipRecord
  recoupGroups : SortedMap String RecoupGroupRecord
  reserves : SortedMap String ReserveRecord
  withdrawalGroups : SortedMap String WithdrawalGroupRecord
  tombstones : SortedMap String Unit
  depositGroups : SortedMap String DepositGroupRecord

def denominationKey (exchangeBaseUrl denomPubHash : String) : String ×ₗ String :=
  toLex (exchangeBaseUrl, denomPubHash)

def exchangeDetailsKey (exchangeBaseUrl currency masterPublicKey : String) :
    String ×ₗ String ×ₗ String :=
  toLex (exchangeBaseUrl, toLex (currency, masterPublicKey))

namespace Stores

def empty : Stores where
  config := none
  exchanges := .empty
  exchangeDetails := .empty
  coins := .empty
  denominations := .empty
  purchases := .empty
  proposals := .empty
  refreshGroups := .empty
  backupProviders := .empty
  tips := .empty
  recoupGroups := .empty
  reserves := .empty
  withdrawalGroups := .empty
  tombstones := .empty
  depositGroups := .empty

def getDenomination (stores : Stores) (exchangeBaseUrl denomPubHash : String) :
    Option DenominationRecord :=
  stores.denominations.get? (denominationKey exchangeBaseUrl denomPubHash)

def getExchangeDetails (stores : Stores) (exchangeBaseUrl : String) :
    Option ExchangeDetailsRecord := do
  let r ← stores.exchanges.get? exchangeBaseUrl
  let dp ← r.detailsPointer
  stores.exchangeDetails.get? (exchangeDetailsKey r.baseUrl dp.currency dp.masterPublicKey)

end Stores

end Anastasis.Wallet.Backup
