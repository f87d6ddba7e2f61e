import Anastasis.Wallet.Backup.Records

/-! The content of a backup, and how it is exported from the stores. -/

set_option autoImplicit false

namespace Anastasis.Wallet.Backup

open Library

inductive BackupCoinSource where
  | withdraw (withdrawalGroupId : String) (coinIndex : Nat) (reservePub : String)
  | refresh (oldCoinPub : String)
  | tip (walletTipId : String) (coinIndex : Nat)

structure BackupCoin where
  coinSource : BackupCoinSource
  coinPriv : String
  denomSig : UnblindedSignature
  currentAmount : CurrencyAmount
  blindingKey : String
  fresh : Bool

structure BackupDenomination where
  value : CurrencyAmount
  denomPub : DenominationPubKey
  feeWithdraw : CurrencyAmount
  feeDeposit : CurrencyAmount
  feeRefresh : CurrencyAmount
  feeRefund : CurrencyAmount
  stampStart : Timestamp
  stampExpireWithdraw : Timestamp
  stampExpireLegal : Timestamp
  stampExpireDeposit : Timestamp
  masterSig : String
  isOffered : Bool
  isRevoked : Bool
  coins : List BackupCoin
  listIssueDate : Timestamp

structure BackupWithdrawalGroup where
  withdrawalGroupId : String
  secretSeed : String
  timestampCreated : Timestamp
  timestampFinish : Option Timestamp
  rawWithdrawalAmount : CurrencyAmount
  selectedDenoms : List DenomCount
  selectedDenomsId : String

structure BackupBankInfo where
  statusUrl : String
  confirmUrl : Option String
  exchangePaytoUri : String
  timestampReserveInfoPosted : Option Timestamp
  timestampBankConfirmed : Option Timestamp

structure BackupReserve where
  reservePriv : String
  timestampCreated : Timestamp
  timestampLastActivity : Timestamp
  senderWire : Option String
  instructedAmount : CurrencyAmount
  bankInfo : Option BackupBankInfo
  initialWithdrawalGroupId : String
  initialSelectedDenoms : List DenomCount
  withdrawalGroups : List BackupWithdrawalGroup

structure BackupExchangeWireFee where
  wireType : String
  wireFee : CurrencyAmount
  closingFee : CurrencyAmount
  startStamp : Timestamp
  endStamp : Timestamp
  sig : String

structure BackupExchange where
  baseUrl : String
  masterPublicKey : String
  currency : String
  updateClock : Timestamp

structure BackupExchangeDetails where
  baseUrl : String
  masterPublicKey : String
  auditors : List Auditor
  currency : String
  denominations : List BackupDenomination
  reserves : List BackupReserve
  protocolVersion : String
  reserveClosingDelay : Duration
  signingKeys : List ExchangeSignKey
  wireFees : List BackupExchangeWireFee
  accounts : List ExchangeBankAccount
  tosAcceptedEtag : Option String
  tosAcceptedTimestamp : Option Timestamp

inductive BackupProposalStatus where
  | proposed
  | refused
  | permanentlyFailed
  | repurchase

structure BackupProposal where
  merchantBaseUrl : String
  contractTermsRaw : Option Json
  merchantSig : Option String
  proposalId : String
  orderId : String
  timestamp : Timestamp
  noncePriv : String
  claimToken : Option String
  proposalStatus : BackupProposalStatus
  repurchaseProposalId : Option String
  downloadSessionId : Option String

structure BackupRefundItem where
  type : RefundState
  executionTime : Timestamp
  obtainedTime : Timestamp
  refundAmount : CurrencyAmount
  coinPub : String
  rtransactionId : Nat
  totalRefreshCostBound : CurrencyAmount

inductive BackupAbortStatus where
  | abortRefund
  | abortFinished

structure BackupPurchase where
  proposalId : String
  contractTermsRaw : Json
  merchantSig : String
  noncePriv : String
  payCoins : List PayCoin
  payCoinsUid : String
  totalPayCost : CurrencyAmount
  timestampFirstSuccessfulPay : Option Timestamp
  merchantPaySig : Option String
  timestampAccept : Timestamp
  refunds : List BackupRefundItem
  abortStatus : Option BackupAbortStatus
  autoRefundDeadline : Option Timestamp

structure BackupRefreshSession where
  newDenoms : List DenomCount
  sessionSecretSeed : String
  norevealIndex : Option Nat

structure BackupRefreshOldCoin where
  coinPub : String
  inputAmount : CurrencyAmount
  estimatedOutputAmount : CurrencyAmount
  finished : Bool
  refreshSession : Option BackupRefreshSession

structure BackupRefreshGroup where
  refreshGroupId : String
  reason : RefreshReason
  oldCoins : List BackupRefreshOldCoin
  timestampCreated : Timestamp
  timestampFinish : Option Timestamp

structure BackupTip where
  walletTipId : String
  merchantTipId : String
  secretSeed : String
  timestampAccepted : Option Timestamp
  timestampCreated : Timestamp
  timestampFinished : Option Timestamp
  tipAmountRaw : CurrencyAmount
  timestampExpiration : Timestamp
  exchangeBaseUrl : String
  merchantBaseUrl : String
  selectedDenoms : List DenomCount
  selectedDenomsUid : String

structure BackupRecoupGroup where
  recoupGroupId : String
  timestampCreated : Timestamp
  timestampFinish : Option Timestamp
  coins : List RecoupCoin

structure BackupBackupProvider where
  baseUrl : String
  terms : Option BackupProviderTerms
  payProposalIds : List String
  uids : List String

/-- Trusted auditors, trusted exchanges, the intern table and error reports are always empty. -/
structure WalletBackupContentV1 where
  exchanges : List BackupExchange
  exchangeDetails : List BackupExchangeDetails
  walletRootPub : String
  backupProviders : List BackupBackupProvider
  currentDeviceId : String
  proposals : List BackupProposal
  purchases : List BackupPurchase
  recoupGroups : List BackupRecoupGroup
  refreshGroups : List BackupRefreshGroup
  tips : List BackupTip
  timestamp : Timestamp
  tombstones : List String

def exportWithdrawalGroup (wg : WithdrawalGroupRecord) : BackupWithdrawalGroup where
  rawWithdrawalAmount := wg.rawWithdrawalAmount
  selectedDenoms := wg.denomsSel.selectedDenoms
  timestampCreated := wg.timestampStart
  timestampFinish := wg.timestampFinish
  withdrawalGroupId := wg.withdrawalGroupId
  secretSeed := wg.secretSeed
  selectedDenomsId := wg.denomSelUid

def exportReserve (withdrawalGroups : List BackupWithdrawalGroup) (reserve : ReserveRecord) :
    BackupReserve where
  initialSelectedDenoms := reserve.initialDenomSel.selectedDenoms
  initialWithdrawalGroupId := reserve.initialWithdrawalGroupId
  instructedAmount := reserve.instructedAmount
  reservePriv := reserve.reservePriv
  timestampCreated := reserve.timestampCreated
  withdrawalGroups := withdrawalGroups
  timestampLastActivity := reserve.timestampCreated
  senderWire := none
  bankInfo := none

def exportTip (tip : TipRecord) : BackupTip where
  exchangeBaseUrl := tip.exchangeBaseUrl
  merchantBaseUrl := tip.merchantBaseUrl
  merchantTipId := tip.merchantTipId
  walletTipId := tip.walletTipId
  secretSeed := tip.secretSeed
  selectedDenoms := tip.denomsSel.selectedDenoms
  timestampFinished := tip.pickedUpTimestamp
  timestampAccepted := tip.acceptedTimestamp
  timestampCreated := tip.createdTimestamp
  timestampExpiration := tip.tipExpiration
  tipAmountRaw := tip.tipAmountRaw
  selectedDenomsUid := tip.denomSelUid

def exportRecoupGroup (recoupGroup : RecoupGroupRecord) : BackupRecoupGroup where
  recoupGroupId := recoupGroup.recoupGroupId
  timestampCreated := recoupGroup.timestampStarted
  timestampFinish := recoupGroup.timestampFinished
  coins := recoupGroup.coins

def exportBackupProvider (bp : BackupProviderRecord) : BackupBackupProvider where
  terms := bp.terms
  baseUrl := bp.baseUrl
  payProposalIds := bp.paymentProposalIds
  uids := bp.uids

def exportCoinSource : CoinSource → BackupCoinSource
  | .refresh oldCoinPub => .refresh oldCoinPub
  | .tip walletTipId coinIndex => .tip walletTipId coinIndex
  | .withdraw withdrawalGroupId coinIndex reservePub =>
    .withdraw withdrawalGroupId coinIndex reservePub

def exportCoin (coin : CoinRecord) : BackupCoin where
  blindingKey := coin.blindingKey
  coinPriv := coin.coinPriv
  coinSource := exportCoinSource coin.coinSource
  currentAmount := coin.currentAmount
  fresh := coin.status = .fresh
  denomSig := coin.denomSig

def exportDenomination (coins : List BackupCoin) (denom : DenominationRecord) :
    BackupDenomination where
  coins := coins
  denomPub := denom.denomPub
  feeDeposit := denom.feeDeposit
  feeRefresh := denom.feeRefresh
  feeRefund := denom.feeRefund
  feeWithdraw := denom.feeWithdraw
  isOffered := denom.isOffered
  isRevoked := denom.isRevoked
  masterSig := denom.masterSig
  stampExpireDeposit := denom.stampExpireDeposit
  stampExpireLegal := denom.stampExpireLegal
  stampExpireWithdraw := denom.stampExpireWithdraw
  stampStart := denom.stampStart
  value := denom.value
  listIssueDate := denom.listIssueDate

def exportExchange (ex : ExchangeRecord) : Option BackupExchange :=
  ex.detailsPointer.map fun dp =>
    { baseUrl := ex.baseUrl
      currency := dp.currency
      masterPublicKey := dp.masterPublicKey
      updateClock := dp.updateClock }

def exportWireFees (wi : WireInfo) : List BackupExchangeWireFee :=
  wi.feesForType.entries.flatMap fun (x, fees) =>
    fees.map fun f =>
      { wireType := x
        closingFee := f.closingFee
        endStamp := f.endStamp
        sig := f.sig
        startStamp := f.startStamp
        wireFee := f.wireFee }

def exportExchangeDetails (denominations : List BackupDenomination)
    (reserves : List BackupReserve) (ex : ExchangeDetailsRecord) : BackupExchangeDetails where
  baseUrl := ex.exchangeBaseUrl
  reserveClosingDelay := ex.reserveClosingDelay
  accounts := ex.wireInfo.accounts
  auditors := ex.auditors
  masterPublicKey := ex.masterPublicKey
  currency := ex.currency
  protocolVersion := ex.protocolVersion
  wireFees := exportWireFees ex.wireInfo
  signingKeys := ex.signingKeys
  tosAcceptedEtag := ex.termsOfServiceAcceptedEtag
  tosAcceptedTimestamp := ex.termsOfServiceAcceptedTimestamp
  denominations := denominations
  reserves := reserves

def exportRefund (ri : WalletRefundItem) : BackupRefundItem where
  type := ri.type
  coinPub := ri.coinPub
  executionTime := ri.executionTime
  obtainedTime := ri.obtainedTime
  refundAmount := ri.refundAmount
  rtransactionId := ri.rtransactionId
  totalRefreshCostBound := ri.totalRefreshCostBound

def exportAbortStatus : AbortStatus → Option BackupAbortStatus
  | .none => none
  | .abortRefund => some .abortRefund
  | .abortFinished => some .abortFinished

def exportPurchase (purch : PurchaseRecord) : BackupPurchase where
  contractTermsRaw := purch.download.contractTermsRaw
  autoRefundDeadline := purch.autoRefundDeadline
  merchantPaySig := purch.merchantPaySig
  payCoins := purch.payCoinSelection.coins
  proposalId := purch.proposalId
  refunds := purch.refunds.values.map exportRefund
  timestampAccept := purch.timestampAccept
  timestampFirstSuccessfulPay := purch.timestampFirstSuccessfulPay
  abortStatus := exportAbortStatus purch.abortStatus
  noncePriv := purch.noncePriv
  merchantSig := purch.download.contractData.merchantSig
  totalPayCost := purch.totalPayCost
  payCoinsUid := purch.payCoinSelectionUid

def exportProposalStatus : ProposalStatus → Option BackupProposalStatus
  | .accepted => none
  | .downloading => some .proposed
  | .proposed => some .proposed
  | .permanentlyFailed => some .permanentlyFailed
  | .refused => some .refused
  | .repurchase => some .repurchase

def exportProposal (prop : ProposalRecord) : Option BackupProposal :=
  (exportProposalStatus prop.proposalStatus).map fun propStatus =>
    { claimToken := prop.claimToken
      noncePriv := prop.noncePriv
      proposalId := prop.noncePriv
      proposalStatus := propStatus
      repurchaseProposalId := prop.repurchaseProposalId
      timestamp := prop.timestamp
      contractTermsRaw := prop.download.map ProposalDownload.contractTermsRaw
      downloadSessionId := prop.downloadSessionId
      merchantBaseUrl := prop.merchantBaseUrl
      orderId := prop.orderId
      merchantSig := prop.download.map fun download => download.contractData.merchantSig }

def exportRefreshSession (s : RefreshSessionRecord) : BackupRefreshSession where
  newDenoms := s.newDenoms
  sessionSecretSeed := s.sessionSecretSeed
  norevealIndex := s.norevealIndex

def exportOldCoin (oldCoin : RefreshOldCoin) : BackupRefreshOldCoin where
  coinPub := oldCoin.oldCoinPub
  estimatedOutputAmount := oldCoin.estimatedOutput
  finished := oldCoin.status = .finished
  inputAmount := oldCoin.input
  refreshSession := oldCoin.refreshSession.map exportRefreshSession

def exportRefreshGroup (rg : RefreshGroupRecord) : BackupRefreshGroup where
  reason := rg.reason
  refreshGroupId := rg.refreshGroupId
  timestampCreated := rg.timestampCreated
  timestampFinish := rg.timestampFinished
  oldCoins := rg.oldCoins.map exportOldCoin

namespace Stores

def backupWithdrawalGroups (stores : Stores) (reservePub : String) : List BackupWithdrawalGroup :=
  (stores.withdrawalGroups.values.filter fun wg => wg.reservePub = reservePub).map
    exportWithdrawalGroup

def backupReserves (stores : Stores) (exchangeBaseUrl : String) : List BackupReserve :=
  (stores.reserves.values.filter fun reserve => reserve.exchangeBaseUrl = exchangeBaseUrl).map
    fun reserve => exportReserve (stores.backupWithdrawalGroups reserve.reservePub) reserve

def backupCoins (stores : Stores) (denomPubHash : String) : List BackupCoin :=
  (stores.coins.values.filter fun coin => coin.denomPubHash = denomPubHash).map exportCoin

def backupDenominations (stores : Stores) (exchangeBaseUrl : String) : List BackupDenomination :=
  (stores.denominations.values.filter fun denom => denom.exchangeBaseUrl = exchangeBaseUrl).map
    fun denom => exportDenomination (stores.backupCoins denom.denomPubHash) denom

def backupProposals (stores : Stores) : List BackupProposal :=
  (stores.proposals.values.filter fun prop =>
    stores.purchases.values.all fun purch => purch.proposalId ≠ prop.proposalId).filterMap
      exportProposal

def backupContent (stores : Stores) (bs : WalletBackupConfState) (timestamp : Timestamp) :
    WalletBackupContentV1 where
  exchanges := stores.exchanges.values.filterMap exportExchange
  exchangeDetails := stores.exchangeDetails.values.map fun ex =>
    exportExchangeDetails (stores.backupDenominations ex.exchangeBaseUrl)
      (stores.backupReserves ex.exchangeBaseUrl) ex
  walletRootPub := bs.walletRootPub
  backupProviders := stores.backupProviders.values.map exportBackupProvider
  currentDeviceId := bs.deviceId
  proposals := stores.backupProposals
  purchases := stores.purchases.values.map exportPurchase
  recoupGroups := stores.recoupGroups.values.map exportRecoupGroup
  refreshGroups := stores.refreshGroups.values.map exportRefreshGroup
  tips := stores.tips.values.map exportTip
  timestamp := timestamp
  tombstones := []

end Stores

end Anastasis.Wallet.Backup
