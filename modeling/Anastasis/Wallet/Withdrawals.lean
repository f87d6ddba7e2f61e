import Anastasis.Wallet.Validation

/-! The processing of a withdrawal group, by any number of runs at once. -/

set_option autoImplicit false

namespace Anastasis.Wallet

open Library Library.Transition AmountJson

def WalletStores.planchetAt (wallet : WalletStores) (withdrawalGroupId : String) (coinIdx : Nat) :
    Option (String × PlanchetRecord) :=
  wallet.planchets.entries.find? fun entry =>
    entry.2.withdrawalGroupId = withdrawalGroupId && entry.2.coinIdx = coinIdx

/-- The denomination of a coin; `ci` is the first index of the remaining ones. -/
def denomOfCoin (coinIdx : Nat) : Nat → List (Nat × String) → Option String
  | _, [] => none
  | ci, d :: rest =>
    if ci ≤ coinIdx ∧ coinIdx < ci + d.1 then some d.2
    else denomOfCoin coinIdx (ci + d.1) rest

def newPlanchet (withdrawalGroupId : String) (coinIdx : Nat) (denom : DenominationRecord) :
    PlanchetRecord where
  withdrawalGroupId := withdrawalGroupId
  coinIdx := coinIdx
  denomPubHash := denom.denomPubHash
  coinValue := denom.value
  withdrawalDone := false
  valueInRange := denom.valueInRange

/-- One call of `processPlanchetGenerate`, with the planchet that it has created. -/
structure GenerateTask where
  coinIdx : Nat
  created : Option (String × PlanchetRecord)

/-- One call of `processPlanchetVerifyAndStoreCoin`. -/
inductive VerifyTask where
  | answered (coinIdx : Nat) (isValid : Bool)
  | invalid (coinIdx : Nat)
  | store (coin : CoinRecord)

/-- One call of `processWithdrawGroupImpl`: planchets are generated at once, then requested one
after the other, while the answers are verified. -/
structure WithdrawRun where
  numTotalCoins : Nat
  generating : List GenerateTask
  coinIdx : Nat
  requesting : Bool
  verifying : List VerifyTask
  ended : Bool

def WithdrawRun.start (numTotalCoins : Nat) : WithdrawRun where
  numTotalCoins := numTotalCoins
  generating := (List.range numTotalCoins).map fun coinIdx => ⟨coinIdx, none⟩
  coinIdx := 0
  requesting := false
  verifying := []
  ended := false

namespace WithdrawRun

def endGenerate (run : WithdrawRun) (task : Nat) : WithdrawRun :=
  { run with generating := run.generating.eraseIdx task }

def endVerify (run : WithdrawRun) (task : Nat) : WithdrawRun :=
  { run with verifying := run.verifying.eraseIdx task }

def nextCoin (run : WithdrawRun) : WithdrawRun :=
  { run with coinIdx := run.coinIdx + 1, requesting := false }

end WithdrawRun

/-- The transaction that stores a new planchet, unless another run has stored one. -/
def storePlanchet (withdrawalGroupId coinPub : String) (planchet : PlanchetRecord)
    (wallet : WalletStores) : WalletStores :=
  if (wallet.planchetAt withdrawalGroupId planchet.coinIdx).isSome then wallet
  else { wallet with planchets := wallet.planchets.set coinPub planchet }

/-- The transaction that stores a verified coin, unless another run has stored it. Adding a coin
that exists fails. -/
def storeVerifiedCoin (withdrawalGroupId : String) (coin : CoinRecord) (wallet : WalletStores) :
    Option WalletStores :=
  match wallet.withdrawalGroups.get? withdrawalGroupId, wallet.planchets.get? coin.coinPub with
  | some _, some p =>
    if p.withdrawalDone then some wallet
    else if (wallet.coins.get? coin.coinPub).isSome then none
    else
      some
        { wallet with
          planchets := wallet.planchets.set coin.coinPub { p with withdrawalDone := true }
          coins := wallet.coins.set coin.coinPub coin }
  | _, _ => some wallet

def finishRun (now : Nat) (withdrawalGroupId : String) (numTotalCoins : Nat)
    (wallet : WalletStores) : WalletStores :=
  match wallet.withdrawalGroups.get? withdrawalGroupId with
  | none => wallet
  | some wg =>
    let numFinished := wallet.planchets.values.countP fun p =>
      p.withdrawalGroupId = withdrawalGroupId && p.withdrawalDone
    if wg.timestampFinish = none ∧ numFinished = numTotalCoins then
      let finished := { wg with timestampFinish := some now }
      { wallet with
        withdrawalGroups := wallet.withdrawalGroups.set withdrawalGroupId finished }
    else wallet

inductive RunAction where
  | lookForPlanchet (task : Nat)
  | storePlanchet (task : Nat)
  | readForRequest (exchangeKnown : Bool)
  | answer (isValid : Bool)
  -- the error of the exchange is stored with the planchet
  | requestFailed
  | readForStore (task : Nat)
  | recordInvalid (task : Nat)
  | storeCoin (task : Nat)
  | finish (now : Nat)
  -- anything throws; what else the run has started goes on
  | fail

section Actions

variable (withdrawalGroupId : String) (coinPubOf : Nat → String) (wallet : WalletStores)
  (run : WithdrawRun)

def lookForPlanchet (task : Nat) : Option (WalletStores × WithdrawRun) :=
  match run.generating[task]? with
  | some ⟨coinIdx, none⟩ =>
    match wallet.withdrawalGroups.get? withdrawalGroupId with
    | none => some (wallet, run.endGenerate task)
    | some group =>
      if (wallet.planchetAt withdrawalGroupId coinIdx).isSome then
        some (wallet, run.endGenerate task)
      else do
        let denomPubHash ← denomOfCoin coinIdx 0 group.selectedDenoms
        guard (denomPubHash ≠ "")
        let denom ← wallet.denominations.get? (group.exchangeBaseUrl, denomPubHash)
        let created := (coinPubOf coinIdx, newPlanchet withdrawalGroupId coinIdx denom)
        pure (wallet, { run with generating := run.generating.set task ⟨coinIdx, some created⟩ })
  | _ => none

/-- Coins without a planchet, and those that are withdrawn, are passed over. -/
def readForRequest (exchangeKnown : Bool) : Option (WalletStores × WithdrawRun) :=
  if run.ended || !run.generating.isEmpty || run.requesting ||
      run.numTotalCoins ≤ run.coinIdx then none
  else
    match wallet.withdrawalGroups.get? withdrawalGroupId,
        wallet.planchetAt withdrawalGroupId run.coinIdx with
    | some group, some (_, planchet) =>
      let denomKnown :=
        (wallet.denominations.get? (group.exchangeBaseUrl, planchet.denomPubHash)).isSome
      if planchet.withdrawalDone || !exchangeKnown || !denomKnown then some (wallet, run.nextCoin)
      else some (wallet, { run with requesting := true })
    | _, _ => some (wallet, run.nextCoin)

def readForStore (task : Nat) : Option (WalletStores × WithdrawRun) :=
  match run.verifying[task]? with
  | some (.answered coinIdx isValid) =>
    match wallet.withdrawalGroups.get? withdrawalGroupId,
        wallet.planchetAt withdrawalGroupId coinIdx with
    | some group, some (coinPub, planchet) =>
      if planchet.withdrawalDone then some (wallet, run.endVerify task)
      else
        let next := if isValid then VerifyTask.store (withdrawnCoin group coinPub planchet)
          else .invalid coinIdx
        some (wallet, { run with verifying := run.verifying.set task next })
    | _, _ => some (wallet, run.endVerify task)
  | _ => none

def RunAction.perform : RunAction → Option (WalletStores × WithdrawRun)
  | .lookForPlanchet task => Wallet.lookForPlanchet withdrawalGroupId coinPubOf wallet run task
  | .storePlanchet task =>
    match run.generating[task]? with
    | some ⟨_, some (coinPub, planchet)⟩ =>
      some (Wallet.storePlanchet withdrawalGroupId coinPub planchet wallet,
        run.endGenerate task)
    | _ => none
  | .readForRequest exchangeKnown => Wallet.readForRequest withdrawalGroupId wallet run exchangeKnown
  | .answer isValid =>
    if run.requesting then
      let verifying := run.verifying ++ [.answered run.coinIdx isValid]
      some (wallet, { run.nextCoin with verifying := verifying })
    else none
  | .requestFailed => if run.requesting then some (wallet, run.nextCoin) else none
  | .readForStore task => Wallet.readForStore withdrawalGroupId wallet run task
  | .recordInvalid task =>
    match run.verifying[task]? with
    | some (.invalid _) => some (wallet, run.endVerify task)
    | _ => none
  | .storeCoin task =>
    match run.verifying[task]? with
    | some (.store coin) => do
        let wallet ← storeVerifiedCoin withdrawalGroupId coin wallet
        pure (wallet, run.endVerify task)
    | _ => none
  | .finish now =>
    if !run.ended && run.generating.isEmpty && run.verifying.isEmpty && !run.requesting &&
        run.coinIdx = run.numTotalCoins then
      some (finishRun now withdrawalGroupId run.numTotalCoins wallet, { run with ended := true })
    else none
  | .fail => some (wallet, { run with ended := true })

end Actions

structure Withdrawal where
  wallet : WalletStores
  runs : List WithdrawRun

inductive WithdrawEvent where
  | start
  | run (index : Nat) (action : RunAction)

def withdrawStep (withdrawalGroupId : String) (coinPubOf : Nat → String) (state : Withdrawal) :
    WithdrawEvent → Option Withdrawal
  | .start => do
      let group ← state.wallet.withdrawalGroups.get? withdrawalGroupId
      pure { state with runs := state.runs ++ [.start group.numTotalCoins] }
  | .run index action => do
      let run ← state.runs[index]?
      let (wallet, run) ← action.perform withdrawalGroupId coinPubOf state.wallet run
      pure ⟨wallet, state.runs.set index run⟩

end Anastasis.Wallet
