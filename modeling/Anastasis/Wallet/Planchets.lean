import Anastasis.Wallet.Database

/-! Denominations with their keys, and the coins that are made from planchets. -/

set_option autoImplicit false

namespace Anastasis.Wallet.Planchets

open AmountJson

structure Denomination extends DenominationRecord where
  denomPub : String

def Denomination.key (denom : Denomination) : String × String :=
  (denom.exchangeBaseUrl, denom.denomPubHash)

structure Planchet where
  publicKey : String
  privateKey : String
  blindingKey : String
  coinEv : String
  coinEvHash : String
deriving DecidableEq

structure FreshCoin where
  coinPub : String
  coinPriv : String
  bks : String

inductive CoinSource where
  | withdraw (withdrawalGroupId : String) (coinIndex : Nat) (reservePub : String)
  | refresh (oldCoinPub : String)
  | tip (walletTipId : String) (coinIndex : Nat)
deriving DecidableEq

structure Coin extends CoinRecord where
  coinPriv : String
  blindingKey : String
  denomPub : String
  denomSig : String
  coinSource : CoinSource
  coinEvHash : String

def Planchet.coin (planchet : Planchet) (denom : Denomination) (denomSig exchangeBaseUrl : String)
    (coinSource : CoinSource) (coinEvHash : String) : Coin where
  coinPub := planchet.publicKey
  exchangeBaseUrl := exchangeBaseUrl
  denomPubHash := denom.denomPubHash
  currency := denom.currency
  currentAmount := denom.value
  status := .fresh
  suspended := false
  allocation := none
  amountInRange := denom.valueInRange
  coinPriv := planchet.privateKey
  blindingKey := planchet.blindingKey
  denomPub := denom.denomPub
  denomSig := denomSig
  coinSource := coinSource
  coinEvHash := coinEvHash

def units {α : Type} (selection : List (Nat × α)) : List α :=
  selection.flatMap fun d => List.replicate d.1 d.2

section Units

variable {α β : Type}

@[simp] theorem units_nil : units ([] : List (Nat × α)) = [] := rfl

@[simp] theorem units_cons (count : Nat) (denom : α) (rest : List (Nat × α)) :
    units ((count, denom) :: rest) = List.replicate count denom ++ units rest := rfl

end Units

end Anastasis.Wallet.Planchets
