import Anastasis.Wallet.Backup.Export

/-! The import of a backup into the stores of a wallet, in one transaction. -/

set_option autoImplicit false

namespace Anastasis.Wallet.Backup

open Library

structure CompletedCoin where
  coinPub : String
  coinEvHash : String

structure BackupCryptoPrecomputedData where
  rsaDenomPubToHash : Record String String
  coinPrivToCompletedCoin : Record String CompletedCoin
  proposalNoncePrivToPub : Record String String
  proposalIdToContractTermsHash : Record String String
  reservePrivToPub : Record String String

structure ContractAuditor where
  url : String
  auditorPub : String

structure ContractExchange where
  url : String
  masterPub : String

structure ContractTerms where
  orderId : String
  fulfillmentUrl : Option String
  merchantBaseUrl : String
  hWire : String
  autoRefund : Option Duration
  wireMethod : String
  summary : String
  summaryI18n : Option Json
  amount : CurrencyAmount
  auditors : List ContractAuditor
  payDeadline : Timestamp
  refundDeadline : Timestamp
  timestamp : Timestamp
  maxFee : CurrencyAmount
  maxWireFee : Option CurrencyAmount
  merchant : Json
  merchantPub : String
  exchanges : List ContractExchange
  products : Option Json

structure ImportSurroundings where
  now : Nat
  codecForContractTerms : Json → Option ContractTerms

inductive TombstoneTag where
  | deleteWithdrawalGroup
  | deleteReserve
  | deletePayment
  | deleteTip
  | deleteRefreshGroup
  | deleteDepositGroup
  | deleteRefund
deriving DecidableEq

def TombstoneTag.text : TombstoneTag → String
  | .deleteWithdrawalGroup => "delete-withdrawal-group"
  | .deleteReserve => "delete-reserve"
  | .deletePayment => "delete-payment"
  | .deleteTip => "delete-tip"
  | .deleteRefreshGroup => "delete-refresh-group"
  | .deleteDepositGroup => "delete-deposit-group"
  | .deleteRefund => "delete-refund"

def isUnreserved (char : Char) : Bool :=
  char.isAlphanum || "-_.!~*'()".toList.contains char

def percentEncode (char : Char) : List Char :=
  (Utf8.encode (String.singleton char)).flatMap fun byte =>
    ['%', Json.upperDigit (byte.toNat / 16), Json.upperDigit (byte.toNat % 16)]

def encodeURIComponent (text : String) : String :=
  String.ofList (text.toList.flatMap fun char =>
    if isUnreserved char then [char] else percentEncode char)

def makeEventId (type : TombstoneTag) (arg : String) : String :=
  type.text ++ ":" ++ encodeURIComponent arg

def splitTombstone (tombstone : String) : String × Option String :=
  let type := tombstone.toList.takeWhile (· ≠ ':')
  (String.ofList type,
    match tombstone.toList.dropWhile (· ≠ ':') with
    | [] => none
    | _ :: rest => some (String.ofList (rest.takeWhile (· ≠ ':'))))

namespace Stores

def isTombstoned (stores : Stores) (type : TombstoneTag) (id : String) : Bool :=
  stores.tombstones.contains (makeEventId type id)

variable (stores : Stores)

/-- The denominations that are found are counted once, and not returned. -/
def getDenomSelStateFromBackup (exchangeBaseUrl : String) (sel : List DenomCount) :
    Option DenomSelectionState := do
  let first ← sel.head?
  let d0 ← stores.getDenomination exchangeBaseUrl first.denomPubHash
  let zero := CurrencyAmount.getZero d0.value.currency
  let (totalCoinValue, totalWithdrawCost) ← sel.foldlM
    (fun totals s => do
      let d ← stores.getDenomination exchangeBaseUrl s.denomPubHash
      let totalCoinValue ← totals.1.add d.value
      let withValue ← totals.2.add d.value
      let totalWithdrawCost ← withValue.add d.feeWithdraw
      pure (totalCoinValue, totalWithdrawCost))
    (zero, zero)
  pure
    { selectedDenoms := []
      totalCoinValue := totalCoinValue
      totalWithdrawCost := totalWithdrawCost }

def importExchange (now : Nat) (backupExchange : BackupExchange) : Stores :=
  if stores.exchanges.contains backupExchange.baseUrl then stores
  else
    { stores with
      exchanges := stores.exchanges.insert backupExchange.baseUrl
        { baseUrl := backupExchange.baseUrl
          detailsPointer := some
            { currency := backupExchange.currency
              masterPublicKey := backupExchange.masterPublicKey
              updateClock := backupExchange.updateClock }
          permanent := true
          retryInfo := initRetryInfo now
          lastUpdate := none
          nextUpdate := .at now
          nextRefreshCheck := .at now
          lastError := none } }

def importWireFees (wireFees : List BackupExchangeWireFee) : Record String (List WireFee) :=
  wireFees.foldl
    (fun feesForType fee =>
      feesForType.set fee.wireType
        ((feesForType.get? fee.wireType).getD [] ++
          [{ closingFee := fee.closingFee
             endStamp := fee.endStamp
             sig := fee.sig
             startStamp := fee.startStamp
             wireFee := fee.wireFee }]))
    .empty

def importExchangeDetails (backup : BackupExchangeDetails) : Stores :=
  let key := exchangeDetailsKey backup.baseUrl backup.currency backup.masterPublicKey
  if stores.exchangeDetails.contains key then stores
  else
    { stores with
      exchangeDetails := stores.exchangeDetails.insert key
        { exchangeBaseUrl := backup.baseUrl
          termsOfServiceAcceptedEtag := backup.tosAcceptedEtag
          termsOfServiceText := none
          termsOfServiceLastEtag := none
          termsOfServiceContentType := none
          termsOfServiceAcceptedTimestamp := backup.tosAcceptedTimestamp
          wireInfo := ⟨importWireFees backup.wireFees, backup.accounts⟩
          currency := backup.currency
          auditors := backup.auditors
          masterPublicKey := backup.masterPublicKey
          protocolVersion := backup.protocolVersion
          reserveClosingDelay := backup.reserveClosingDelay
          signingKeys := backup.signingKeys } }

def importDenomination (details : BackupExchangeDetails) (denomPubHash : String)
    (backupDenomination : BackupDenomination) : Stores :=
  let key := denominationKey details.baseUrl denomPubHash
  if stores.denominations.contains key then stores
  else
    { stores with
      denominations := stores.denominations.insert key
        { denomPub := backupDenomination.denomPub
          denomPubHash := denomPubHash
          exchangeBaseUrl := details.baseUrl
          exchangeMasterPub := details.masterPublicKey
          feeDeposit := backupDenomination.feeDeposit
          feeRefresh := backupDenomination.feeRefresh
          feeRefund := backupDenomination.feeRefund
          feeWithdraw := backupDenomination.feeWithdraw
          isOffered := backupDenomination.isOffered
          isRevoked := backupDenomination.isRevoked
          masterSig := backupDenomination.masterSig
          stampExpireDeposit := backupDenomination.stampExpireDeposit
          stampExpireLegal := backupDenomination.stampExpireLegal
          stampExpireWithdraw := backupDenomination.stampExpireWithdraw
          stampStart := backupDenomination.stampStart
          verificationStatus := .verifiedGood
          value := backupDenomination.value
          listIssueDate := backupDenomination.listIssueDate } }

def importCoinSource : BackupCoinSource → CoinSource
  | .refresh oldCoinPub => .refresh oldCoinPub
  | .tip walletTipId coinIndex => .tip walletTipId coinIndex
  | .withdraw withdrawalGroupId coinIndex reservePub =>
    .withdraw withdrawalGroupId coinIndex reservePub

def importCoin (exchangeBaseUrl : String) (denomPub : DenominationPubKey) (denomPubHash : String)
    (compCoin : CompletedCoin) (backupCoin : BackupCoin) : Stores :=
  if stores.coins.contains compCoin.coinPub then stores
  else
    { stores with
      coins := stores.coins.insert compCoin.coinPub
        { blindingKey := backupCoin.blindingKey
          coinEvHash := compCoin.coinEvHash
          coinPriv := backupCoin.coinPriv
          currentAmount := backupCoin.currentAmount
          denomSig := backupCoin.denomSig
          coinPub := compCoin.coinPub
          suspended := false
          exchangeBaseUrl := exchangeBaseUrl
          denomPub := denomPub
          denomPubHash := denomPubHash
          status := if backupCoin.fresh then .fresh else .dormant
          coinSource := importCoinSource backupCoin.coinSource } }

def importDenominationWithCoins (cryptoComp : BackupCryptoPrecomputedData)
    (details : BackupExchangeDetails) (backupDenomination : BackupDenomination) :
    Option Stores := do
  if backupDenomination.denomPub.cipher ≠ 1 then none
  else
    let denomPubHash ← cryptoComp.rsaDenomPubToHash.get? backupDenomination.denomPub.rsaPublicKey
    backupDenomination.coins.foldlM
      (fun stores backupCoin => do
        let compCoin ← cryptoComp.coinPrivToCompletedCoin.get? backupCoin.coinPriv
        pure (importCoin stores details.baseUrl backupDenomination.denomPub denomPubHash compCoin
          backupCoin))
      (stores.importDenomination details denomPubHash backupDenomination)

def importWithdrawalGroup (now : Nat) (exchangeBaseUrl reservePub : String)
    (backupWg : BackupWithdrawalGroup) : Option Stores :=
  if stores.isTombstoned .deleteWithdrawalGroup backupWg.withdrawalGroupId then some stores
  else if stores.withdrawalGroups.contains backupWg.withdrawalGroupId then some stores
  else do
    let denomsSel ← stores.getDenomSelStateFromBackup exchangeBaseUrl backupWg.selectedDenoms
    pure
      { stores with
        withdrawalGroups := stores.withdrawalGroups.insert backupWg.withdrawalGroupId
          { denomsSel := denomsSel
            exchangeBaseUrl := exchangeBaseUrl
            lastError := none
            rawWithdrawalAmount := backupWg.rawWithdrawalAmount
            reservePub := reservePub
            retryInfo := initRetryInfo now
            secretSeed := backupWg.secretSeed
            timestampStart := backupWg.timestampCreated
            timestampFinish := backupWg.timestampFinish
            withdrawalGroupId := backupWg.withdrawalGroupId
            denomSelUid := backupWg.selectedDenomsId } }

def importReserveRecord (now : Nat) (exchangeBaseUrl reservePub : String)
    (backupReserve : BackupReserve) : Option Stores :=
  if stores.reserves.contains reservePub then some stores
  else do
    let initialDenomSel ←
      stores.getDenomSelStateFromBackup exchangeBaseUrl backupReserve.initialSelectedDenoms
    pure
      { stores with
        reserves := stores.reserves.insert reservePub
          { currency := backupReserve.instructedAmount.currency
            instructedAmount := backupReserve.instructedAmount
            exchangeBaseUrl := exchangeBaseUrl
            reservePub := reservePub
            reservePriv := backupReserve.reservePriv
            requestedQuery := false
            bankInfo := backupReserve.bankInfo.map fun bankInfo =>
              { exchangePaytoUri := bankInfo.exchangePaytoUri
                statusUrl := bankInfo.statusUrl
                confirmUrl := bankInfo.confirmUrl }
            timestampCreated := backupReserve.timestampCreated
            timestampBankConfirmed :=
              backupReserve.bankInfo.bind BackupBankInfo.timestampBankConfirmed
            timestampReserveInfoPosted :=
              backupReserve.bankInfo.bind BackupBankInfo.timestampReserveInfoPosted
            senderWire := backupReserve.senderWire
            retryInfo := initRetryInfo now
            lastError := none
            lastSuccessfulStatusQuery := some .never
            initialWithdrawalGroupId := backupReserve.initialWithdrawalGroupId
            initialWithdrawalStarted := 0 < backupReserve.withdrawalGroups.length
            reserveStatus := .queryingStatus
            initialDenomSel := initialDenomSel } }

def importReserve (now : Nat) (cryptoComp : BackupCryptoPrecomputedData) (exchangeBaseUrl : String)
    (backupReserve : BackupReserve) : Option Stores :=
  let reservePub := cryptoComp.reservePrivToPub.get? backupReserve.reservePriv
  -- a key that is missing is written as undefined
  if stores.isTombstoned .deleteReserve (reservePub.getD "undefined") then some stores
  else do
    let reservePub ← reservePub
    let stores ← stores.importReserveRecord now exchangeBaseUrl reservePub backupReserve
    backupReserve.withdrawalGroups.foldlM
      (fun stores backupWg => stores.importWithdrawalGroup now exchangeBaseUrl reservePub backupWg)
      stores

def importExchangeDetailsWithContents (now : Nat) (cryptoComp : BackupCryptoPrecomputedData)
    (backup : BackupExchangeDetails) : Option Stores := do
  let stores ← backup.denominations.foldlM
    (fun stores denomination => stores.importDenominationWithCoins cryptoComp backup denomination)
    (stores.importExchangeDetails backup)
  backup.reserves.foldlM
    (fun stores reserve => stores.importReserve now cryptoComp backup.baseUrl reserve) stores

/-- The decoder drops the amortization of the wire fee, so that it is always one. -/
def contractData (parsed : ContractTerms) (contractTermsHash merchantSig : String) :
    WalletContractData where
  amount := parsed.amount
  contractTermsHash := contractTermsHash
  fulfillmentUrl := parsed.fulfillmentUrl.getD ""
  merchantBaseUrl := parsed.merchantBaseUrl
  merchantPub := parsed.merchantPub
  merchantSig := merchantSig
  orderId := parsed.orderId
  summary := parsed.summary
  autoRefund := parsed.autoRefund
  maxWireFee := parsed.maxWireFee.getD (.getZero parsed.amount.currency)
  payDeadline := parsed.payDeadline
  refundDeadline := parsed.refundDeadline
  wireFeeAmortization := 1
  allowedAuditors := parsed.auditors.map fun x => ⟨x.url, x.auditorPub⟩
  allowedExchanges := parsed.exchanges.map fun x => ⟨x.url, x.masterPub⟩
  timestamp := parsed.timestamp
  wireMethod := parsed.wireMethod
  wireInfoHash := parsed.hWire
  maxDepositFee := parsed.maxFee
  merchant := parsed.merchant
  products := parsed.products
  summaryI18n := parsed.summaryI18n

def importProposalStatus (status : BackupProposalStatus) (hasContractTerms : Bool) :
    ProposalStatus :=
  match status with
  | .proposed => if hasContractTerms then .proposed else .downloading
  | .refused => .refused
  | .repurchase => .repurchase
  | .permanentlyFailed => .permanentlyFailed

/-- A hash that is missing stays undefined; it is taken to be the empty text. -/
def importDownload (surroundings : ImportSurroundings) (cryptoComp : BackupCryptoPrecomputedData)
    (proposalId merchantSig : String) (contractTermsRaw : Json) : Option ProposalDownload := do
  let parsed ← surroundings.codecForContractTerms contractTermsRaw
  let contractTermsHash := (cryptoComp.proposalIdToContractTermsHash.get? proposalId).getD ""
  pure
    { contractTermsRaw := contractTermsRaw
      contractData := contractData parsed contractTermsHash merchantSig }

def importProposalDownload (surroundings : ImportSurroundings)
    (cryptoComp : BackupCryptoPrecomputedData) (backupProposal : BackupProposal) :
    Option (Option ProposalDownload) :=
  match backupProposal.contractTermsRaw with
  | none => some none
  | some contractTermsRaw => do
      let merchantSig ← backupProposal.merchantSig
      let download ← importDownload surroundings cryptoComp backupProposal.proposalId merchantSig
        contractTermsRaw
      pure (some download)

def importProposal (surroundings : ImportSurroundings) (cryptoComp : BackupCryptoPrecomputedData)
    (backupProposal : BackupProposal) : Option Stores :=
  if stores.isTombstoned .deletePayment backupProposal.proposalId then some stores
  else if stores.proposals.contains backupProposal.proposalId then some stores
  else do
    let download ← importProposalDownload surroundings cryptoComp backupProposal
    pure
      { stores with
        proposals := stores.proposals.insert backupProposal.proposalId
          { claimToken := backupProposal.claimToken
            lastError := none
            merchantBaseUrl := backupProposal.merchantBaseUrl
            timestamp := backupProposal.timestamp
            orderId := backupProposal.orderId
            noncePriv := backupProposal.noncePriv
            noncePub := cryptoComp.proposalNoncePrivToPub.get? backupProposal.noncePriv
            proposalId := backupProposal.proposalId
            repurchaseProposalId := backupProposal.repurchaseProposalId
            retryInfo := some (initRetryInfo surroundings.now)
            downloadSessionId := none
            download := download
            proposalStatus := importProposalStatus backupProposal.proposalStatus
              backupProposal.contractTermsRaw.isSome } }

/-- What has been summed up while the coins of a payment are looked up. -/
structure RecoveredFees where
  coveredExchanges : List String
  totalWireFee : CurrencyAmount
  totalDepositFees : CurrencyAmount

def recoverFees (contractData : WalletContractData) (fees : RecoveredFees) (coin : PayCoin) :
    Option RecoveredFees := do
  let coinRecord ← stores.coins.get? coin.coinPub
  let denom ← stores.getDenomination coinRecord.exchangeBaseUrl coinRecord.denomPubHash
  let totalDepositFees ← fees.totalDepositFees.add denom.feeDeposit
  if coinRecord.exchangeBaseUrl ∈ fees.coveredExchanges then
    pure { fees with totalDepositFees := totalDepositFees }
  else
    let exchangeDetails ← stores.getExchangeDetails coinRecord.exchangeBaseUrl
    -- timestamps are objects, and as such neither smaller nor larger than others
    let wireFee := ((exchangeDetails.wireInfo.feesForType.get? contractData.wireMethod).getD []).head?
    let totalWireFee ← match wireFee with
      | none => some fees.totalWireFee
      | some fee => fees.totalWireFee.add fee.wireFee
    pure
      { coveredExchanges := coinRecord.exchangeBaseUrl :: fees.coveredExchanges
        totalWireFee := totalWireFee
        totalDepositFees := totalDepositFees }

def recoverPayCoinSelection (contractData : WalletContractData) (backupPurchase : BackupPurchase) :
    Option PayCoinSelection := do
  let zero := CurrencyAmount.getZero contractData.amount.currency
  let fees ← backupPurchase.payCoins.foldlM (stores.recoverFees contractData) ⟨[], zero, zero⟩
  -- divided by an amortization of one
  let amortizedWireFee := fees.totalWireFee
  let order ← contractData.maxWireFee.cmp amortizedWireFee
  let customerDepositFees ← fees.totalDepositFees.sub contractData.maxDepositFee
  pure
    { coins := backupPurchase.payCoins
      paymentAmount := contractData.amount
      customerWireFees := if order = .lt then amortizedWireFee else zero
      customerDepositFees := customerDepositFees }

def refundKey (backupRefund : BackupRefundItem) : String :=
  backupRefund.coinPub ++ "-" ++ toString backupRefund.rtransactionId

def importRefund (refunds : Record String WalletRefundItem) (backupRefund : BackupRefundItem) :
    Option (Record String WalletRefundItem) := do
  let coin ← stores.coins.get? backupRefund.coinPub
  let denom ← stores.getDenomination coin.exchangeBaseUrl coin.denomPubHash
  pure (refunds.set (refundKey backupRefund)
    { type := backupRefund.type
      coinPub := backupRefund.coinPub
      executionTime := backupRefund.executionTime
      obtainedTime := backupRefund.obtainedTime
      refundAmount := backupRefund.refundAmount
      refundFee := denom.feeRefund
      rtransactionId := backupRefund.rtransactionId
      totalRefreshCostBound := backupRefund.totalRefreshCostBound })

def importAbortStatus : Option BackupAbortStatus → AbortStatus
  | none => .none
  | some .abortRefund => .abortRefund
  | some .abortFinished => .abortFinished

def importPurchase (surroundings : ImportSurroundings) (cryptoComp : BackupCryptoPrecomputedData)
    (backupPurchase : BackupPurchase) : Option Stores :=
  if stores.isTombstoned .deletePayment backupPurchase.proposalId then some stores
  else if stores.purchases.contains backupPurchase.proposalId then some stores
  else do
    let refunds ← backupPurchase.refunds.foldlM stores.importRefund .empty
    let download ← importDownload surroundings cryptoComp backupPurchase.proposalId
      backupPurchase.merchantSig backupPurchase.contractTermsRaw
    let payCoinSelection ← stores.recoverPayCoinSelection download.contractData backupPurchase
    pure
      { stores with
        purchases := stores.purchases.insert backupPurchase.proposalId
          { proposalId := backupPurchase.proposalId
            noncePriv := backupPurchase.noncePriv
            noncePub := cryptoComp.proposalNoncePrivToPub.get? backupPurchase.noncePriv
            lastPayError := none
            autoRefundDeadline := some .never
            refundStatusRetryInfo := initRetryInfo surroundings.now
            lastRefundStatusError := none
            timestampAccept := backupPurchase.timestampAccept
            timestampFirstSuccessfulPay := backupPurchase.timestampFirstSuccessfulPay
            timestampLastRefundStatus := none
            merchantPaySig := backupPurchase.merchantPaySig
            lastSessionId := none
            abortStatus := importAbortStatus backupPurchase.abortStatus
            payRetryInfo := some (initRetryInfo surroundings.now)
            download := download
            paymentSubmitPending := backupPurchase.timestampFirstSuccessfulPay.isNone
            refundQueryRequested := false
            payCoinSelection := payCoinSelection
            totalPayCost := backupPurchase.totalPayCost
            refunds := refunds
            payCoinSelectionUid := backupPurchase.payCoinsUid } }

def importOldCoin (oldCoin : BackupRefreshOldCoin) : Option RefreshOldCoin := do
  let c ← stores.coins.get? oldCoin.coinPub
  let refreshSession ← match oldCoin.refreshSession with
    | none => some none
    | some session => do
        let denomSel ← stores.getDenomSelStateFromBackup c.exchangeBaseUrl session.newDenoms
        pure (some
          { sessionSecretSeed := session.sessionSecretSeed
            norevealIndex := session.norevealIndex
            newDenoms := session.newDenoms
            amountRefreshOutput := denomSel.totalCoinValue })
  pure
    { oldCoinPub := oldCoin.coinPub
      refreshSession := refreshSession
      input := oldCoin.inputAmount
      estimatedOutput := oldCoin.estimatedOutputAmount
      status := if oldCoin.finished then .finished else .pending }

def importRefreshGroup (now : Nat) (backupRefreshGroup : BackupRefreshGroup) : Option Stores :=
  if stores.isTombstoned .deleteRefreshGroup backupRefreshGroup.refreshGroupId then some stores
  else if stores.refreshGroups.contains backupRefreshGroup.refreshGroupId then some stores
  else do
    let oldCoins ← backupRefreshGroup.oldCoins.mapM stores.importOldCoin
    pure
      { stores with
        refreshGroups := stores.refreshGroups.insert backupRefreshGroup.refreshGroupId
          { timestampFinished := backupRefreshGroup.timestampFinish
            timestampCreated := backupRefreshGroup.timestampCreated
            refreshGroupId := backupRefreshGroup.refreshGroupId
            reason := backupRefreshGroup.reason
            lastError := none
            lastErrorPerCoin := .empty
            oldCoins := oldCoins
            retryInfo := initRetryInfo now } }

def importTip (now : Nat) (backupTip : BackupTip) : Option Stores :=
  if stores.isTombstoned .deleteTip backupTip.walletTipId then some stores
  else if stores.tips.contains backupTip.walletTipId then some stores
  else do
    let denomsSel ← stores.getDenomSelStateFromBackup backupTip.exchangeBaseUrl
      backupTip.selectedDenoms
    pure
      { stores with
        tips := stores.tips.insert backupTip.walletTipId
          { acceptedTimestamp := backupTip.timestampAccepted
            createdTimestamp := backupTip.timestampCreated
            denomsSel := denomsSel
            exchangeBaseUrl := backupTip.exchangeBaseUrl
            lastError := none
            merchantBaseUrl := backupTip.exchangeBaseUrl
            merchantTipId := backupTip.merchantTipId
            pickedUpTimestamp := backupTip.timestampFinished
            retryInfo := initRetryInfo now
            secretSeed := backupTip.secretSeed
            tipAmountEffective := denomsSel.totalCoinValue
            tipAmountRaw := backupTip.tipAmountRaw
            tipExpiration := backupTip.timestampExpiration
            walletTipId := backupTip.walletTipId
            denomSelUid := backupTip.selectedDenomsUid } }

/-- Everything in the blob that is neither known nor tombstoned is put. -/
def importObjects (surroundings : ImportSurroundings) (cryptoComp : BackupCryptoPrecomputedData)
    (backupBlob : WalletBackupContentV1) : Option Stores := do
  let stores := backupBlob.exchanges.foldl (importExchange · surroundings.now) stores
  let stores ← backupBlob.exchangeDetails.foldlM
    (fun stores details => stores.importExchangeDetailsWithContents surroundings.now cryptoComp
      details) stores
  let stores ← backupBlob.proposals.foldlM
    (fun stores proposal => stores.importProposal surroundings cryptoComp proposal) stores
  let stores ← backupBlob.purchases.foldlM
    (fun stores purchase => stores.importPurchase surroundings cryptoComp purchase) stores
  let stores ← backupBlob.refreshGroups.foldlM
    (fun stores refreshGroup => stores.importRefreshGroup surroundings.now refreshGroup) stores
  backupBlob.tips.foldlM (fun stores tip => stores.importTip surroundings.now tip) stores

/-- What a tombstone deletes; its identifier has to be there when its type is known. -/
def processTombstone (tombstone : String) : Option Stores :=
  let (type, id) := splitTombstone tombstone
  if type = TombstoneTag.deleteDepositGroup.text then
    id.map fun id => { stores with depositGroups := stores.depositGroups.erase id }
  else if type = TombstoneTag.deletePayment.text then
    id.map fun id =>
      { stores with
        purchases := stores.purchases.erase id
        proposals := stores.proposals.erase id }
  else if type = TombstoneTag.deleteRefreshGroup.text then
    id.map fun id => { stores with refreshGroups := stores.refreshGroups.erase id }
  else if type = TombstoneTag.deleteRefund.text then some stores
  else if type = TombstoneTag.deleteReserve.text then
    id.map fun id => { stores with reserves := stores.reserves.erase id }
  else if type = TombstoneTag.deleteTip.text then
    id.map fun id => { stores with tips := stores.tips.erase id }
  else if type = TombstoneTag.deleteWithdrawalGroup.text then
    id.map fun id => { stores with withdrawalGroups := stores.withdrawalGroups.erase id }
  else some stores

def putTombstone (tombstone : String) : Stores :=
  { stores with tombstones := stores.tombstones.insert tombstone () }

def importTransaction (surroundings : ImportSurroundings)
    (cryptoComp : BackupCryptoPrecomputedData) (backupBlob : WalletBackupContentV1) :
    Option Stores := do
  let stores := backupBlob.tombstones.foldl putTombstone stores
  let imported ← stores.importObjects surroundings cryptoComp backupBlob
  stores.tombstones.keys.foldlM processTombstone imported

/-- The configuration is provided in a transaction of its own, before that of the import, which
is undone when a step throws. -/
def importBackup (provided : WalletBackupConfState) (surroundings : ImportSurroundings)
    (cryptoComp : BackupCryptoPrecomputedData) (backupBlob : WalletBackupContentV1) :
    Stores × Bool :=
  let stores := { stores with config := some (stores.config.getD provided) }
  match stores.importTransaction surroundings cryptoComp backupBlob with
  | none => (stores, false)
  | some imported => (imported, true)

end Stores

end Anastasis.Wallet.Backup
