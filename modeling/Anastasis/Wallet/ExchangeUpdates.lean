import Mathlib.Data.List.SplitOn
import Anastasis.Library.RecordTotals
import Anastasis.Wallet.Backup.Records

/-! How what an exchange answers about its keys, its wire accounts and its terms of service is
merged into the stores. -/

set_option autoImplicit false

namespace Anastasis.Wallet.Exchanges

open Library

abbrev CurrencyAmount := Backup.CurrencyAmount

abbrev ExchangeRecord := Backup.ExchangeRecord

abbrev ExchangeDetailsRecord := Backup.ExchangeDetailsRecord

abbrev DenominationRecord := Backup.DenominationRecord

abbrev CoinRecord := Backup.CoinRecord

/-! ## Texts of numbers -/

section Texts

def decimal (digits : List Char) : Nat :=
  digits.foldl (fun number digit => 10 * number + (digit.toNat - '0'.toNat)) 0

def hexDigit (digit : Char) : Option Nat :=
  if digit.isDigit then some (digit.toNat - '0'.toNat)
  else if 'a' ≤ digit.toLower ∧ digit.toLower ≤ 'f' then some (digit.toLower.toNat - 'a'.toNat + 10)
  else none

def hexadecimal (digits : List Char) : Nat :=
  digits.foldl (fun number digit => 16 * number + (hexDigit digit).getD 0) 0

def isCurrencyChar (char : Char) : Bool :=
  char.isAlphanum || char = '_' || char = '*' || char = '-'

/-- The digits behind the point, in units of an amount; there are at most eight. -/
def parseFraction : List Char → Option Nat
  | [] => some 0
  | point :: digits =>
    if point = '.' ∧ digits ≠ [] ∧ digits.all Char.isDigit ∧ digits.length ≤ 8 then
      some (decimal digits * 10 ^ (8 - digits.length))
    else none

def parseAmount (text : String) : Option CurrencyAmount :=
  let (currency, rest) := text.toList.span isCurrencyChar
  match rest with
  | ':' :: rest =>
    let (digits, tail) := rest.span Char.isDigit
    if currency = [] ∨ digits = [] ∨ amountMaxValue < decimal digits then none
    else do
      let fraction ← parseFraction tail
      if normalized : fraction < amountFractionalBase then
        pure ⟨String.ofList currency, ⟨decimal digits, fraction, normalized⟩⟩
      else none
  | _ => none

def parseOrThrow (text : String) : Except String CurrencyAmount :=
  match parseAmount text with
  | some amount => .ok amount
  | none => .error ("Can't parse amount: \"" ++ text ++ "\"")

def parseUnsigned : List Char → Option Nat
  | '0' :: 'x' :: rest | '0' :: 'X' :: rest =>
    match rest.takeWhile fun digit => (hexDigit digit).isSome with
    | [] => none
    | digits => some (hexadecimal digits)
  | text =>
    match text.takeWhile Char.isDigit with
    | [] => none
    | digits => some (decimal digits)

/-- The number at the start of a text, or `none` when it is not a number. -/
def parseInt (text : List Char) : Option Int :=
  match text.dropWhile Char.isWhitespace with
  | '-' :: rest => (parseUnsigned rest).map fun number => -(number : Int)
  | '+' :: rest => (parseUnsigned rest).map Int.ofNat
  | rest => (parseUnsigned rest).map Int.ofNat

structure Version where
  current : Int
  revision : Int
  age : Int

def parseVersion (v : String) : Option Version :=
  match v.toList.splitOn ':' with
  | [currentStr, revisionStr, ageStr] => do
      let current ← parseInt currentStr
      let revision ← parseInt revisionStr
      let age ← parseInt ageStr
      pure ⟨current, revision, age⟩
  | _ => none

def isCompatible (me other : String) : Bool :=
  match parseVersion me, parseVersion other with
  | some me, some other => me.current - me.age ≤ other.current && other.current - other.age ≤ me.current
  | _, _ => false

end Texts

def walletExchangeProtocolVersion : String := "10:0:0"

/-! ## What the exchange answers -/

structure Denomination where
  value : String
  denomPub : Backup.DenominationPubKey
  feeWithdraw : String
  feeDeposit : String
  feeRefresh : String
  feeRefund : String
  stampStart : Timestamp
  stampExpireWithdraw : Timestamp
  stampExpireLegal : Timestamp
  stampExpireDeposit : Timestamp
  masterSig : String

structure ExchangeKeysJson where
  denoms : List Denomination
  masterPublicKey : String
  auditors : List Backup.Auditor
  listIssueDate : Timestamp
  -- the hashes of revoked denominations
  recoup : Option (List String)
  signkeys : List Backup.ExchangeSignKey
  version : String
  reserveClosingDelay : Backup.Duration

structure KeysResponse where
  keys : ExchangeKeysJson
  -- the header, when it is a date
  expiry : Option Nat

structure WireFeesJson where
  wireFee : String
  closingFee : String
  sig : String
  startDate : Timestamp
  endDate : Timestamp

structure ExchangeWireJson where
  accounts : List Backup.ExchangeBankAccount
  fees : Record String (List WireFeesJson)

structure ExchangeTosDownloadResult where
  tosText : String
  tosEtag : String
  tosContentType : String

/-- Requests fail, or are answered with what the codecs accept. -/
structure Answers where
  keys : Except String KeysResponse
  wire : Except String ExchangeWireJson
  -- by the number of the request
  terms : Nat → Except String ExchangeTosDownloadResult

structure ExchangeHost where
  canonicalizeBaseUrl : (url : String) → Option String
  hashDenomPub : Backup.DenominationPubKey → String
  isValidWireAccount : (paytoUri masterSig masterPub : String) → Bool
  isValidWireFee : (wireMethod : String) → Backup.WireFee → (masterPub : String) → Bool

structure ExchangeKeysDownloadResult where
  masterPublicKey : String
  currency : String
  auditors : List Backup.Auditor
  currentDenominations : List DenominationRecord
  protocolVersion : String
  signingKeys : List Backup.ExchangeSignKey
  reserveClosingDelay : Backup.Duration
  expiry : Timestamp
  recoup : List String
  listIssueDate : Timestamp

structure Downloaded where
  keysInfo : ExchangeKeysDownloadResult
  wireInfo : Backup.WireInfo
  tosDownload : ExchangeTosDownloadResult

section Downloads

variable (host : ExchangeHost)

def denominationRecordFromKeys (exchangeBaseUrl exchangeMasterPub : String)
    (listIssueDate : Timestamp) (denomIn : Denomination) : Except String DenominationRecord := do
  let feeDeposit ← parseOrThrow denomIn.feeDeposit
  let feeRefresh ← parseOrThrow denomIn.feeRefresh
  let feeRefund ← parseOrThrow denomIn.feeRefund
  let feeWithdraw ← parseOrThrow denomIn.feeWithdraw
  let value ← parseOrThrow denomIn.value
  pure
    { denomPub := denomIn.denomPub
      denomPubHash := host.hashDenomPub denomIn.denomPub
      exchangeBaseUrl := exchangeBaseUrl
      exchangeMasterPub := exchangeMasterPub
      feeDeposit := feeDeposit
      feeRefresh := feeRefresh
      feeRefund := feeRefund
      feeWithdraw := feeWithdraw
      isOffered := true
      isRevoked := false
      masterSig := denomIn.masterSig
      stampExpireDeposit := denomIn.stampExpireDeposit
      stampExpireLegal := denomIn.stampExpireLegal
      stampExpireWithdraw := denomIn.stampExpireWithdraw
      stampStart := denomIn.stampStart
      verificationStatus := .unverified
      value := value
      listIssueDate := listIssueDate }

def getExpiryTimestamp (now : Nat) (expiry : Option Nat) : Timestamp :=
  .at (max (expiry.getD now) (now + 60 * 60 * 1000))

def downloadKeysInfo (now : Nat) (baseUrl : String) (response : Except String KeysResponse) :
    Except String ExchangeKeysDownloadResult := do
  let ⟨keys, expiry⟩ ← response
  match keys.denoms with
  | [] => .error "exchange doesn't offer any denominations"
  | first :: _ =>
    if ¬ isCompatible walletExchangeProtocolVersion keys.version then
      .error "exchange protocol version not compatible with wallet"
    else do
      let value ← parseOrThrow first.value
      let currentDenominations ← keys.denoms.mapM
        (denominationRecordFromKeys host baseUrl keys.masterPublicKey keys.listIssueDate)
      pure
        { masterPublicKey := keys.masterPublicKey
          currency := value.currency.toUpper
          auditors := keys.auditors
          currentDenominations := currentDenominations
          protocolVersion := keys.version
          signingKeys := keys.signkeys
          reserveClosingDelay := keys.reserveClosingDelay
          expiry := getExpiryTimestamp now expiry
          recoup := keys.recoup.getD []
          listIssueDate := keys.listIssueDate }

def validateWireFee (masterPublicKey wireMethod : String) (x : WireFeesJson) :
    Except String Backup.WireFee := do
  let closingFee ← parseOrThrow x.closingFee
  let wireFee ← parseOrThrow x.wireFee
  let fee : Backup.WireFee :=
    { closingFee := closingFee
      endStamp := x.endDate
      sig := x.sig
      startStamp := x.startDate
      wireFee := wireFee }
  if host.isValidWireFee wireMethod fee masterPublicKey then pure fee
  else .error "exchange wire fee signature invalid"

def validateWireInfo (wireInfo : ExchangeWireJson) (masterPublicKey : String) :
    Except String Backup.WireInfo := do
  if wireInfo.accounts.any fun a =>
      !host.isValidWireAccount a.paytoUri a.masterSig masterPublicKey then
    .error "exchange acct signature invalid"
  else do
    let feesForType ← wireInfo.fees.entries.mapM fun (wireMethod, fees) => do
      let feeList ← fees.mapM (validateWireFee host masterPublicKey wireMethod)
      pure (wireMethod, feeList)
    pure ⟨.ofList feesForType, wireInfo.accounts⟩

/-- The first of the formats that is served, or whatever is served at last. -/
def downloadTerms (terms : Nat → Except String ExchangeTosDownloadResult) :
    (acceptedFormat : List String) → (request : Nat) → Except String ExchangeTosDownloadResult
  | [], request => terms request
  | format :: rest, request => do
      let resp ← terms request
      if resp.tosContentType = format then pure resp
      else downloadTerms terms rest (request + 1)

def download (now : Nat) (baseUrl : String) (acceptedFormat : List String) (answers : Answers) :
    Except String Downloaded := do
  let keysInfo ← downloadKeysInfo host now baseUrl answers.keys
  let wireInfoDownload ← answers.wire
  let wireInfo ← validateWireInfo host wireInfoDownload keysInfo.masterPublicKey
  let tosDownload ← downloadTerms answers.terms acceptedFormat 0
  pure ⟨keysInfo, wireInfo, tosDownload⟩

end Downloads

/-! ## The stores -/

structure RecoupingCoin where
  coinPub : String
  recoupFinished : Bool
  oldAmount : Option CurrencyAmount

structure RecoupGroupRecord where
  recoupGroupId : String
  coins : List RecoupingCoin
  lastError : Option String
  timestampFinished : Option Nat
  timestampStarted : Nat
  retryInfo : RetryInfo
  scheduleRefreshCoins : List String

def RecoupGroupRecord.coinPubs (group : RecoupGroupRecord) : List String :=
  group.coins.map RecoupingCoin.coinPub

structure ExchangeStores where
  exchanges : Record String ExchangeRecord
  exchangeDetails : Record (String × String × String) ExchangeDetailsRecord
  denominations : Record (String × String) DenominationRecord
  coins : Record String CoinRecord
  recoupGroups : Record String RecoupGroupRecord

namespace RecoupGroupRecord

variable (now : Nat) (group : RecoupGroupRecord)

def setFinished (coinIdx : Nat) : RecoupGroupRecord :=
  { group with
    coins := group.coins.modify coinIdx fun coin => { coin with recoupFinished := true } }

def setOldAmount (coinIdx : Nat) (amount : CurrencyAmount) : RecoupGroupRecord :=
  { group with
    coins := group.coins.modify coinIdx fun coin => { coin with oldAmount := some amount } }

/-- One coin of a new group is finished; no refresh of other coins has been scheduled yet. -/
def finishCoin (coinIdx : Nat) : RecoupGroupRecord :=
  let finished := group.setFinished coinIdx
  if finished.coins.all RecoupingCoin.recoupFinished then
    { finished with
      timestampFinished := some now
      retryInfo := initRetryInfo now
      lastError := none }
  else finished

end RecoupGroupRecord

namespace ExchangeStores

variable (now : Nat) (stores : ExchangeStores)

def getExchangeDetails (exchangeBaseUrl : String) : Option ExchangeDetailsRecord := do
  let r ← stores.exchanges.get? exchangeBaseUrl
  let dp ← r.detailsPointer
  stores.exchangeDetails.get? (r.baseUrl, dp.currency, dp.masterPublicKey)

def putRecoupGroup (group : RecoupGroupRecord) : ExchangeStores :=
  { stores with recoupGroups := stores.recoupGroups.set group.recoupGroupId group }

def putCoin (coin : CoinRecord) : ExchangeStores :=
  { stores with coins := stores.coins.set coin.coinPub coin }

def putDetails (details : ExchangeDetailsRecord) : ExchangeStores :=
  { stores with
    exchangeDetails := stores.exchangeDetails.set
      (details.exchangeBaseUrl, details.currency, details.masterPublicKey) details }

def putExchange (r : ExchangeRecord) : ExchangeStores :=
  { stores with exchanges := stores.exchanges.set r.baseUrl r }

def putGroupAsFinished (group : RecoupGroupRecord) (coinIdx : Nat) :
    RecoupGroupRecord × ExchangeStores :=
  if group.timestampFinished.isSome then (group, stores)
  else (group.finishCoin now coinIdx, stores.putRecoupGroup (group.finishCoin now coinIdx))

def recoupCoins (coinIdx : Nat) : List String → RecoupGroupRecord → ExchangeStores →
    RecoupGroupRecord × ExchangeStores
  | [], group, stores => (group, stores)
  | coinPub :: rest, group, stores =>
    match stores.coins.get? coinPub with
    | none =>
      let (group, stores) := stores.putGroupAsFinished now group coinIdx
      recoupCoins (coinIdx + 1) rest group stores
    | some coin =>
      if Amounts.isZero coin.currentAmount.amount then
        let (group, stores) := stores.putGroupAsFinished now group coinIdx
        recoupCoins (coinIdx + 1) rest group stores
      else
        recoupCoins (coinIdx + 1) rest (group.setOldAmount coinIdx coin.currentAmount)
          (stores.putCoin
            { coin with currentAmount := .getZero coin.currentAmount.currency })

def createRecoupGroup (recoupGroupId : String) (coinPubs : List String) : ExchangeStores :=
  let recoupGroup : RecoupGroupRecord :=
    { recoupGroupId := recoupGroupId
      coins := coinPubs.map fun coinPub => ⟨coinPub, false, none⟩
      lastError := none
      timestampFinished := none
      timestampStarted := now
      retryInfo := initRetryInfo now
      scheduleRefreshCoins := [] }
  let (recoupGroup, stores) := recoupCoins now 0 coinPubs recoupGroup stores
  stores.putRecoupGroup recoupGroup

end ExchangeStores

abbrev Denominations := Record (String × String) DenominationRecord

def putDenomination (denominations : Denominations) (denom : DenominationRecord) : Denominations :=
  denominations.set (denom.exchangeBaseUrl, denom.denomPubHash) denom

def addDenominations (baseUrl : String) :
    (currentDenominations : List DenominationRecord) → Denominations → Denominations
  | [], denominations => denominations
  | currentDenom :: rest, denominations =>
    match denominations.get? (baseUrl, currentDenom.denomPubHash) with
    | some _ => addDenominations baseUrl rest denominations
    | none => addDenominations baseUrl rest (putDenomination denominations currentDenom)

def listDenomination (currentDenomSet : List String) (listIssueDate : Timestamp)
    (x : DenominationRecord) : DenominationRecord :=
  if x.denomPubHash ∈ currentDenomSet then
    { x with
      listIssueDate := listIssueDate
      isOffered := true }
  else { x with isOffered := false }

def listDenominations (baseUrl : String) (currentDenomSet : List String)
    (listIssueDate : Timestamp) (denominations : Denominations) : Denominations :=
  (denominations.values.filter fun x => x.exchangeBaseUrl = baseUrl).foldl
    (fun stored x => putDenomination stored (listDenomination currentDenomSet listIssueDate x))
    denominations

def revokeDenomination (denom : DenominationRecord) : DenominationRecord :=
  { denom with isRevoked := true }

/-- Marks the denominations of the list as revoked, and collects the coins of these. The coins are
found under the hash of the denomination, whatever their exchange. -/
def revokeDenominations (baseUrl : String) (coins : Record String CoinRecord) :
    (recoupDenomList newlyRevokedCoinPubs : List String) → Denominations →
      Denominations × List String
  | [], newlyRevokedCoinPubs, denominations => (denominations, newlyRevokedCoinPubs)
  | hDenomPub :: rest, newlyRevokedCoinPubs, denominations =>
    match denominations.get? (baseUrl, hDenomPub) with
    | none => revokeDenominations baseUrl coins rest newlyRevokedCoinPubs denominations
    | some oldDenom =>
      if oldDenom.isRevoked then
        revokeDenominations baseUrl coins rest newlyRevokedCoinPubs denominations
      else
        let affectedCoins := coins.values.filter fun coin => coin.denomPubHash = hDenomPub
        revokeDenominations baseUrl coins rest
          (newlyRevokedCoinPubs ++ affectedCoins.map Backup.CoinRecord.coinPub)
          (putDenomination denominations (revokeDenomination oldDenom))

def newDetails (now : Nat) (baseUrl : String) (downloaded : Downloaded) : ExchangeDetailsRecord where
  auditors := downloaded.keysInfo.auditors
  currency := downloaded.keysInfo.currency
  masterPublicKey := downloaded.keysInfo.masterPublicKey
  protocolVersion := downloaded.keysInfo.protocolVersion
  signingKeys := downloaded.keysInfo.signingKeys
  reserveClosingDelay := downloaded.keysInfo.reserveClosingDelay
  exchangeBaseUrl := baseUrl
  wireInfo := downloaded.wireInfo
  termsOfServiceText := some downloaded.tosDownload.tosText
  termsOfServiceAcceptedEtag := none
  termsOfServiceContentType := some downloaded.tosDownload.tosContentType
  termsOfServiceLastEtag := some downloaded.tosDownload.tosEtag
  termsOfServiceAcceptedTimestamp := some (.at now)

def updatedExchange (now : Nat) (downloaded : Downloaded) (r : ExchangeRecord) : ExchangeRecord :=
  { r with
    lastError := none
    retryInfo := initRetryInfo now
    lastUpdate := some (.at now)
    nextUpdate := downloaded.keysInfo.expiry
    nextRefreshCheck := .at now
    detailsPointer := some
      { currency := downloaded.keysInfo.currency
        masterPublicKey := downloaded.keysInfo.masterPublicKey
        updateClock := .at now } }

/-- A run of `updateExchangeFromUrl`, with what comes from outside. -/
structure Update where
  now : Nat
  baseUrl : String
  acceptedFormat : Option (List String)
  forceNow : Bool
  answers : Answers
  recoupGroupId : String

namespace ExchangeStores

variable (now : Nat) (stores : ExchangeStores)

def newExchange (baseUrl : String) : ExchangeRecord where
  permanent := true
  baseUrl := baseUrl
  retryInfo := initRetryInfo now
  detailsPointer := none
  lastUpdate := none
  nextUpdate := .at now
  nextRefreshCheck := .at now
  lastError := none

def provideExchangeRecord (baseUrl : String) : ExchangeRecord × ExchangeStores :=
  match stores.exchanges.get? baseUrl with
  | some r => (r, stores)
  | none => (newExchange now baseUrl, stores.putExchange (newExchange now baseUrl))

/-- The transaction at the end; it does nothing when the exchange is not there any more. -/
def updateInDatabase (baseUrl recoupGroupId : String) (downloaded : Downloaded) :
    Option (ExchangeStores × ExchangeRecord × ExchangeDetailsRecord) := do
  let r ← stores.exchanges.get? baseUrl
  let details := newDetails now r.baseUrl downloaded
  let r := updatedExchange now downloaded r
  let keysInfo := downloaded.keysInfo
  let currentDenomSet := keysInfo.currentDenominations.map Backup.DenominationRecord.denomPubHash
  let listed := listDenominations r.baseUrl currentDenomSet keysInfo.listIssueDate
    (addDenominations baseUrl keysInfo.currentDenominations stores.denominations)
  let (denominations, newlyRevokedCoinPubs) :=
    revokeDenominations r.baseUrl stores.coins keysInfo.recoup [] listed
  let stores := { (stores.putExchange r).putDetails details with denominations := denominations }
  if newlyRevokedCoinPubs = [] then pure (stores, r, details)
  else pure (stores.createRecoupGroup now recoupGroupId newlyRevokedCoinPubs, r, details)

def existingInfo (forceNow : Bool) (r : ExchangeRecord) (baseUrl : String) :
    Option (ExchangeRecord × ExchangeDetailsRecord) := do
  if forceNow ∨ Timestamp.cmp r.nextUpdate (.at now) ≠ .gt then none
  else do
    let exchange ← stores.exchanges.get? baseUrl
    let exchangeDetails ← stores.getExchangeDetails baseUrl
    pure (exchange, exchangeDetails)

/-- The transaction only reads: the exchange that it changes is not put. -/
def handleExchangeUpdateError (baseUrl err : String) : ExchangeStores :=
  match stores.exchanges.get? baseUrl with
  | none => stores
  | some exchange =>
    let _changed : ExchangeRecord :=
      { exchange with
        retryInfo := { exchange.retryInfo with retryCounter := exchange.retryInfo.retryCounter + 1 }
        lastError := some err }
    stores

end ExchangeStores

def updateExchangeFromUrlImpl (host : ExchangeHost) (update : Update) (stores : ExchangeStores) :
    ExchangeStores × Except String (ExchangeRecord × ExchangeDetailsRecord) :=
  match host.canonicalizeBaseUrl update.baseUrl with
  | none => (stores, .error "Invalid URL")
  | some baseUrl =>
    let (r, stores) := stores.provideExchangeRecord update.now baseUrl
    match stores.existingInfo update.now update.forceNow r baseUrl with
    | some res => (stores, .ok res)
    | none =>
      match download host update.now baseUrl (update.acceptedFormat.getD []) update.answers with
      | .error err => (stores, .error err)
      | .ok downloaded =>
        match stores.updateInDatabase update.now baseUrl update.recoupGroupId downloaded with
        | none => (stores, .error "something went wrong with updating the exchange")
        | some (stores, updated) => (stores, .ok updated)

def updateExchangeFromUrl (host : ExchangeHost) (update : Update) (stores : ExchangeStores) :
    ExchangeStores × Except String (ExchangeRecord × ExchangeDetailsRecord) :=
  match updateExchangeFromUrlImpl host update stores with
  | (stores, .ok res) => (stores, .ok res)
  | (stores, .error err) => (stores.handleExchangeUpdateError update.baseUrl err, .error err)

def acceptExchangeTermsOfService (exchangeBaseUrl : String) (etag : Option String)
    (stores : ExchangeStores) : ExchangeStores :=
  match stores.getExchangeDetails exchangeBaseUrl with
  | none => stores
  | some d => stores.putDetails { d with termsOfServiceAcceptedEtag := etag }

end Anastasis.Wallet.Exchanges
