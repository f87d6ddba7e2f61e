import Anastasis.Wallet.Backup.Records

/-! How a reserve is registered with the bank, confirmed by it and queried at the exchange. -/

set_option autoImplicit false

namespace Anastasis.Wallet.Processing

open Library Library.Transition

abbrev Reserve := Backup.ReserveRecord

abbrev ReserveStatus := Backup.ReserveRecordStatus

structure WithdrawOperationStatus where
  aborted : Bool
  selectionDone : Bool
  transferDone : Bool
  confirmTransferUrl : Option String
deriving DecidableEq

def WithdrawOperationStatus.unselected (status : WithdrawOperationStatus) : Bool :=
  ¬ status.aborted ∧ ¬ status.selectionDone

structure CreateReserveRequest where
  amount : Backup.CurrencyAmount
  canonExchange : String
  exchangePaytoUri : Option String
  senderWire : Option String
  bankWithdrawStatusUrl : Option String

def given : Option String → Option String
  | some text => if text = "" then none else some text
  | none => none

/-- `createReserve` throws without the account of the exchange. -/
def CreateReserveRequest.bankInfo (req : CreateReserveRequest) : Option (Option Backup.ReserveBankInfo) :=
  match given req.bankWithdrawStatusUrl with
  | none => some none
  | some statusUrl =>
    (given req.exchangePaytoUri).map fun exchangePaytoUri =>
      some
        { statusUrl := statusUrl
          confirmUrl := none
          exchangePaytoUri := exchangePaytoUri }

structure ReserveDraw where
  reservePub : String
  reservePriv : String
  initialWithdrawalGroupId : String
  initialDenomSel : Backup.DenomSelectionState

namespace ReserveStatus

def pending : ReserveStatus → Bool
  | .registeringBank | .waitConfirmBank => true
  | _ => false

end ReserveStatus

namespace Reserve

variable (now : Nat) (r : Reserve)

/-- The record that `createReserve` makes. -/
def create (draw : ReserveDraw) (req : CreateReserveRequest) : Option Reserve := do
  let bankInfo ← req.bankInfo
  pure
    { reservePub := draw.reservePub
      reservePriv := draw.reservePriv
      exchangeBaseUrl := req.canonExchange
      currency := req.amount.currency
      timestampCreated := .at now
      timestampReserveInfoPosted := none
      timestampBankConfirmed := none
      senderWire := req.senderWire
      instructedAmount := req.amount
      bankInfo := bankInfo
      initialWithdrawalGroupId := draw.initialWithdrawalGroupId
      initialWithdrawalStarted := false
      initialDenomSel := draw.initialDenomSel
      reserveStatus := if bankInfo.isSome then .registeringBank else .queryingStatus
      requestedQuery := false
      lastSuccessfulStatusQuery := none
      retryInfo := initRetryInfo now
      lastError := none }

def resetRetry : Reserve := { r with retryInfo := initRetryInfo now }

def incrementRetry (err : Option String) : Reserve :=
  { r with
    retryInfo := { r.retryInfo with retryCounter := r.retryInfo.retryCounter + 1 }
    lastError := err }

/-- What `forceQueryReserve` and the recoup of a coin do to the reserve. -/
def requestQuery : Reserve :=
  match r.reserveStatus with
  | .dormant => { r with reserveStatus := .queryingStatus, retryInfo := initRetryInfo now }
  | _ => { r with requestedQuery := true, retryInfo := initRetryInfo now }

def abort : Reserve :=
  if ReserveStatus.pending r.reserveStatus then
    { r with
      timestampBankConfirmed := some (.at now)
      reserveStatus := .bankAborted
      retryInfo := initRetryInfo now }
  else r

def confirm (status : WithdrawOperationStatus) : Reserve :=
  if status.transferDone then
    if ReserveStatus.pending r.reserveStatus then
      { r with
        timestampBankConfirmed := some (.at now)
        reserveStatus := .queryingStatus
        retryInfo := initRetryInfo now }
    else r
  else
    match r.reserveStatus, r.bankInfo with
    | .waitConfirmBank, some bankInfo =>
      { r with bankInfo := some { bankInfo with confirmUrl := status.confirmTransferUrl } }
    | _, _ => r

/-- The transaction after the reserve has been registered with the bank. -/
def register : Reserve :=
  if ReserveStatus.pending r.reserveStatus then
    { r with
      timestampReserveInfoPosted := some (.at now)
      reserveStatus := .waitConfirmBank
      retryInfo := initRetryInfo now }
  else r

/-- The transaction after the exchange has answered, with or without a new withdrawal group. -/
def settle (selects : Bool) : Reserve :=
  { r with
    reserveStatus := .dormant
    lastError := none
    retryInfo := initRetryInfo now
    initialWithdrawalStarted := r.initialWithdrawalStarted || selects }

end Reserve

/-- What a call does next; statuses are those that it has read. -/
inductive Point where
  | processReserveImpl (forceNow : Bool)
  | resetReserveRetry (reserveStatus : ReserveStatus)
  | processReserveBankStatus
  | bankStatusRequest (reserveStatus : ReserveStatus)
  | bankAborted
  | bankConfirmed (status : WithdrawOperationStatus)
  | registerReserveWithBank
  | registerRequest
  | registered
  | updateReserve
  | reserveRequest
  | reserveUnknown
  | reserveUpdated (selects : Bool)
  | processWithdrawGroup
  -- it has thrown, and the error is stored
  | failed (err : String)
  | finished
deriving DecidableEq

inductive Frame where
  | processReserveImpl
  | processReserveBankStatus
deriving DecidableEq

structure Control where
  point : Point
  andThen : List Frame
deriving DecidableEq

def Control.returned : List Frame → Control
  | [] => ⟨.finished, []⟩
  | .processReserveImpl :: andThen => ⟨.processReserveImpl true, andThen⟩
  | .processReserveBankStatus :: andThen => ⟨.processReserveBankStatus, andThen⟩

def Control.throws (err : String) : Control := ⟨.failed err, []⟩

inductive Answer where
  | proceed (now : Nat) (due : Bool)
  | bankStatus (status : WithdrawOperationStatus)
  | accepted
  -- whether denominations are selected for what remains
  | reserveStatus (selects : Bool)
  | reserveUnknown
  | failure (err : String)
deriving DecidableEq

def Answer.statuses : Answer → List WithdrawOperationStatus
  | .bankStatus status => [status]
  | _ => []

/-- The cases of `processReserveImpl`. -/
def dispatch (reserveStatus : ReserveStatus) (andThen : List Frame) : Control :=
  match reserveStatus with
  | .registeringBank => ⟨.processReserveBankStatus, .processReserveImpl :: andThen⟩
  | .waitConfirmBank => ⟨.processReserveBankStatus, andThen⟩
  | .queryingStatus => ⟨.updateReserve, andThen⟩
  | .dormant | .bankAborted => .returned andThen

def Point.mayThrow : Point → Bool
  | .bankStatusRequest _ | .registerRequest | .reserveRequest | .processWithdrawGroup => true
  | _ => false

/-- The next step of a call: the record of the reserve, and where the call goes on. -/
def advance (record : Option Reserve) (control : Control) (answer : Answer) :
    Option (Option Reserve × Control) :=
  match answer with
  | .failure err =>
    if control.point.mayThrow then some (record, .throws err) else none
  | .bankStatus status =>
    match control.point with
    | .bankStatusRequest reserveStatus =>
      if status.aborted then some (record, ⟨.bankAborted, control.andThen⟩)
      else if status.selectionDone ∧ reserveStatus ≠ .registeringBank then
        some (record, ⟨.bankConfirmed status, control.andThen⟩)
      else
        some (record,
          ⟨.registerReserveWithBank, .processReserveBankStatus :: control.andThen⟩)
    | _ => none
  | .accepted =>
    match control.point with
    | .registerRequest => some (record, ⟨.registered, control.andThen⟩)
    | _ => none
  | .reserveStatus selects =>
    match control.point with
    | .reserveRequest => some (record, ⟨.reserveUpdated selects, control.andThen⟩)
    | _ => none
  | .reserveUnknown =>
    match control.point with
    | .reserveRequest => some (record, ⟨.reserveUnknown, control.andThen⟩)
    | _ => none
  | .proceed now due =>
    match control.point with
    | .processReserveImpl forceNow =>
      match record with
      | none => some (record, .returned control.andThen)
      | some reserve =>
        if forceNow then
          some (record, ⟨.resetReserveRetry reserve.reserveStatus, control.andThen⟩)
        else if due then some (record, dispatch reserve.reserveStatus control.andThen)
        else some (record, .returned control.andThen)
    | .resetReserveRetry reserveStatus =>
      some (record.map (Reserve.resetRetry now), dispatch reserveStatus control.andThen)
    | .processReserveBankStatus =>
      match record with
      | none => some (record, .returned control.andThen)
      | some reserve =>
        if ReserveStatus.pending reserve.reserveStatus ∧
            (given (reserve.bankInfo.map Backup.ReserveBankInfo.statusUrl)).isSome then
          some (record, ⟨.bankStatusRequest reserve.reserveStatus, control.andThen⟩)
        else some (record, .returned control.andThen)
    | .bankAborted => some (record.map (Reserve.abort now), .returned control.andThen)
    | .bankConfirmed status =>
      some (record.map fun r => Reserve.confirm now r status, .returned control.andThen)
    | .registerReserveWithBank =>
      match record with
      | none => some (record, .returned control.andThen)
      | some reserve =>
        if ReserveStatus.pending reserve.reserveStatus ∧ reserve.bankInfo.isSome then
          some (record, ⟨.registerRequest, control.andThen⟩)
        else some (record, .returned control.andThen)
    | .registered =>
      match record with
      | none => some (record, ⟨.processReserveBankStatus, control.andThen⟩)
      | some r =>
        if ReserveStatus.pending r.reserveStatus ∧ r.bankInfo.isNone then
          some (record, .throws "invariant failed")
        else
          some (some (Reserve.register now r), ⟨.processReserveBankStatus, control.andThen⟩)
    | .updateReserve =>
      match record with
      | none => some (record, .throws "reserve not in db")
      | some reserve =>
        if reserve.reserveStatus = .queryingStatus then
          some (record, ⟨.reserveRequest, control.andThen⟩)
        else some (record, ⟨.processReserveImpl true, control.andThen⟩)
    | .reserveUnknown =>
      some (record.map fun r => Reserve.incrementRetry r none, .returned control.andThen)
    | .reserveUpdated selects =>
      some (record.map fun r => Reserve.settle now r selects,
        if selects ∧ record.isSome then ⟨.processWithdrawGroup, control.andThen⟩
        else ⟨.processReserveImpl true, control.andThen⟩)
    | .processWithdrawGroup => some (record, ⟨.processReserveImpl true, control.andThen⟩)
    | .failed err =>
      some (record.map fun r => Reserve.incrementRetry r (some err), ⟨.finished, []⟩)
    | _ => none

/-- A call under way, with the steps that it has taken and the bank's answers that it has got. -/
structure Call where
  reservePub : String
  -- a call of `processReserve`, of which there is one at a time
  memoized : Bool
  control : Control
  taken : Nat
  answers : List WithdrawOperationStatus
deriving DecidableEq

/-- The stores with the calls, and two records of what has been requested: the reserves that have
been requested while not dormant and not been queried since, and each query of a dormant one. -/
structure ReserveWallet where
  reserves : Record String Reserve
  bankWithdrawUris : Record String String
  calls : List Call
  owed : List String
  revived : List String

inductive ReserveOperation where
  | createReserve (now : Nat) (draw : ReserveDraw) (req : CreateReserveRequest)
  | forceQueryReserve (now : Nat) (reservePub : String)
  | recoupWithdrawCoin (now : Nat) (reservePub : String)
  | processReserve (reservePub : String) (forceNow : Bool)
  | processReserveBankStatus (reservePub : String)
  | advance (index : Nat) (answer : Answer)

namespace ReserveWallet

def start : ReserveWallet where
  reserves := .empty
  bankWithdrawUris := .empty
  calls := []
  owed := []
  revived := []

variable (wallet : ReserveWallet)

def process (reservePub : String) (forceNow : Bool) : ReserveWallet :=
  if wallet.calls.any fun call =>
      call.memoized ∧ call.reservePub = reservePub ∧ call.control.point ≠ .finished then wallet
  else
    { wallet with
      calls := wallet.calls ++
        [{ reservePub := reservePub
           memoized := true
           control := ⟨.processReserveImpl forceNow, []⟩
           taken := 0
           answers := [] }] }

def known (record : Reserve) : Option Reserve := do
  let bankInfo ← record.bankInfo
  let statusUrl ← given (some bankInfo.statusUrl)
  let reservePub ← wallet.bankWithdrawUris.get? statusUrl
  wallet.reserves.get? reservePub

def putReserve (record : Reserve) : ReserveWallet :=
  { wallet with
    reserves := wallet.reserves.set record.reservePub record
    bankWithdrawUris := match record.bankInfo with
      | none => wallet.bankWithdrawUris
      | some bankInfo =>
        if bankInfo.statusUrl = "" then wallet.bankWithdrawUris
        else wallet.bankWithdrawUris.set bankInfo.statusUrl record.reservePub }

def request (now : Nat) (reservePub : String) : ReserveWallet :=
  match wallet.reserves.get? reservePub with
  | none => wallet
  | some reserve =>
    { wallet with
      reserves := wallet.reserves.set reservePub (Reserve.requestQuery now reserve)
      owed :=
        if reserve.reserveStatus = .dormant then wallet.owed else wallet.owed ++ [reservePub]
      revived :=
        if reserve.reserveStatus = .dormant then wallet.revived ++ [reservePub]
        else wallet.revived }

def perform : ReserveOperation → Option ReserveWallet
  | .createReserve now draw req => do
      let record ← Reserve.create now draw req
      match wallet.known record with
      | some otherReserve => pure (wallet.process otherReserve.reservePub true)
      | none => pure ((wallet.putReserve record).process record.reservePub true)
  | .forceQueryReserve now reservePub =>
    some ((wallet.request now reservePub).process reservePub true)
  | .recoupWithdrawCoin now reservePub => some (wallet.request now reservePub)
  | .processReserve reservePub forceNow => some (wallet.process reservePub forceNow)
  | .processReserveBankStatus reservePub =>
    some
      { wallet with
        calls := wallet.calls ++
          [{ reservePub := reservePub
             memoized := false
             control := ⟨.processReserveBankStatus, []⟩
             taken := 0
             answers := [] }] }
  | .advance index answer => do
      let call ← wallet.calls[index]?
      let (record, control) ←
        Processing.advance (wallet.reserves.get? call.reservePub) call.control answer
      pure
        { wallet with
          reserves := match record with
            | none => wallet.reserves
            | some record => wallet.reserves.set call.reservePub record
          calls := wallet.calls.set index
            { call with
              control := control
              taken := call.taken + 1
              answers := call.answers ++ answer.statuses }
          -- a status query begins
          owed :=
            if control.point = .reserveRequest then
              wallet.owed.filter fun reservePub => reservePub ≠ call.reservePub
            else wallet.owed }

end ReserveWallet

def ReserveStep (wallet : ReserveWallet) (event : ReserveOperation) (next : ReserveWallet) : Prop :=
  wallet.perform event = some next ∧
    match event with
    | .createReserve _ draw _ => wallet.reserves.get? draw.reservePub = none
    | _ => True

end Anastasis.Wallet.Processing
