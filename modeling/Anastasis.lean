import Anastasis.Reducer.UploadProperties
import Anastasis.UserIdentifier
import Anastasis.Stasis.DocumentVersions
import Anastasis.Stasis.AccountCredit
import Anastasis.Server.TruthStored
import Anastasis.Server.SuspendedRequests
import Anastasis.Wallet.BalanceProperties
import Anastasis.Wallet.RunTx
import Anastasis.Idb.QueryProperties
import Anastasis.Wallet.Recoups
import Anastasis.Wallet.WithdrawalRuns
import Anastasis.Wallet.Reserves
import Anastasis.Wallet.Backup.SynchronizationRuns
import Anastasis.Authorization.WireTransferRuns
import Anastasis.Wallet.ReserveProcessingRuns
import Anastasis.Wallet.ProposalDownloadRuns
import Anastasis.Wallet.ExchangeUpdateRuns
import Anastasis.Server.TruthAborts
import Anastasis.Wallet.Sequentialized
import Anastasis.Reducer.UploadFeeAgreement
import Anastasis.Wallet.RefreshSessionRuns
import Anastasis.Wallet.TipRuns
import Anastasis.Wallet.DepositRuns
import Anastasis.Reducer.PolicyDiscoveryRuns
import Anastasis.Wallet.Backup.RecoveredSelection
import Anastasis.Authorization.IbanProcess
import Anastasis.Idb.RangeDeletionProperties
import Anastasis.Client.DocumentAgreement
import Anastasis.Client.HostileData
import Anastasis.Library.JsonUpdate
import Anastasis.Reducer.ChallengeDocuments
import Anastasis.Reducer.ChallengeReplies
import Anastasis.Reducer.ChallengeCompletion
import Anastasis.Reducer.ChallengeSelection
import Anastasis.Library.TokenBucket
import Anastasis.Wallet.RequestThrottler
import Anastasis.Wallet.WithdrawalSelection
import Anastasis.Reducer.Authentications
import Anastasis.Reducer.CountrySelection
import Anastasis.Reducer.CostOrder
import Anastasis.Reducer.AadhaarNumbers
import Anastasis.TalerUtil.Amounts
import Anastasis.Wallet.AmountMultiples
import Anastasis.Wallet.Times
import Anastasis.Reducer.ProviderConfigs
import Anastasis.Reducer.PolicyEditing
import Anastasis.TalerUtil.AmountText
import Anastasis.ClientEncryption
import Anastasis.Wallet.SequencerProgress
import Anastasis.Stasis.DocumentReads
import Anastasis.Wallet.OperationMemo
