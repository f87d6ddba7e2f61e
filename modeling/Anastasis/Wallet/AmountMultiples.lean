import Anastasis.Wallet.Amounts

/-! Multiples and parts of an amount. -/

set_option autoImplicit false

namespace Anastasis.Wallet.Amounts

open AmountJson

variable {x acc : AmountJson} {fuel n : Nat}

end Anastasis.Wallet.Amounts
