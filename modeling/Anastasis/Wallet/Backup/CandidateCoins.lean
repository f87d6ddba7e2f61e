import Anastasis.Wallet.Backup.Records

/-! The coins that a payment may be made with, and the wire fees of their exchanges. -/

set_option autoImplicit false

namespace Anastasis.Wallet.Backup

open Library List Option

structure Database where
  stores : Stores
  exchangesKeyed : stores.exchanges.All fun key exchange => exchange.baseUrl = key
  coinsKeyed : stores.coins.All fun key coin => coin.coinPub = key
  denominationsKeyed : stores.denominations.All fun key denom =>
    key = denominationKey denom.exchangeBaseUrl denom.denomPubHash

/-- What a payment asks for, as far as its candidates depend on it. -/
structure CoinSelectionRequest where
  allowedAuditors : List AllowedAuditorInfo
  allowedExchanges : List AllowedExchangeInfo
  timestamp : Timestamp
  wireMethod : String

structure AvailableCoinInfo where
  coinPub : String
  denomPub : DenominationPubKey
  availableAmount : CurrencyAmount
  feeDeposit : CurrencyAmount
  exchangeBaseUrl : String

structure CoinCandidateSelection where
  candidateCoins : List AvailableCoinInfo
  wireFeesPerExchange : Record String CurrencyAmount

/-- A timestamp is an object, and the operators compare objects as texts. -/
def operatorText (_timestamp : Timestamp) : String := "[object Object]"

def operatorLe (first second : Timestamp) : Bool := operatorText first ≤ operatorText second

@[simp] theorem operatorLe_true (x y : Timestamp) : operatorLe x y = true :=
  decide_eq_true (le_refl "[object Object]")

def isTimestampExpired (now : Nat) (t : Timestamp) : Bool := t.cmp (.at now) ≠ .gt

def isSpendableCoin (now : Nat) (coin : CoinRecord) (denom : DenominationRecord) : Bool :=
  !coin.suspended && !denom.isRevoked && denom.isOffered && coin.status = .fresh &&
    !isTimestampExpired now denom.stampExpireDeposit

def CoinRecord.availableInfo (coin : CoinRecord) (denom : DenominationRecord) :
    AvailableCoinInfo where
  availableAmount := coin.currentAmount
  coinPub := coin.coinPub
  denomPub := coin.denomPub
  feeDeposit := denom.feeDeposit
  exchangeBaseUrl := denom.exchangeBaseUrl

/-- An exchange is allowed explicitly, or because of one of its auditors. -/
def CoinSelectionRequest.isOkay (request : CoinSelectionRequest)
    (exchangeDetails : ExchangeDetailsRecord) : Bool :=
  (request.allowedExchanges.any fun allowedExchange =>
      allowedExchange.exchangePub = exchangeDetails.masterPublicKey) ||
    request.allowedAuditors.any fun allowedAuditor =>
      exchangeDetails.auditors.any fun auditor => auditor.auditorPub = allowedAuditor.auditorPub

def ExchangeDetailsRecord.feesFor (exchangeDetails : ExchangeDetailsRecord) (wireMethod : String) :
    List WireFee :=
  (exchangeDetails.wireInfo.feesForType.get? wireMethod).getD []

def CoinSelectionRequest.wireFee (request : CoinSelectionRequest)
    (exchangeDetails : ExchangeDetailsRecord) : Option CurrencyAmount :=
  ((exchangeDetails.feesFor request.wireMethod).find? fun fee =>
    operatorLe fee.startStamp request.timestamp && operatorLe request.timestamp fee.endStamp).map
    WireFee.wireFee

namespace Stores

variable (stores : Stores) (now : Nat) (request req : CoinSelectionRequest)

def coinsByBaseUrl (exchangeBaseUrl : String) : List CoinRecord :=
  stores.coins.values.filter fun coin => coin.exchangeBaseUrl = exchangeBaseUrl

/-- The loop over the coins of an exchange; it throws at a coin without a denomination. -/
def spendableCoins (exchangeBaseUrl currency : String) :
    List CoinRecord → Option (List AvailableCoinInfo)
  | [] => some []
  | coin :: rest => do
      let denom ← stores.getDenomination exchangeBaseUrl coin.denomPubHash
      let more ← spendableCoins exchangeBaseUrl currency rest
      -- the same public key for different currencies
      if denom.value.currency ≠ currency then pure more
      else if isSpendableCoin now coin denom then pure (coin.availableInfo denom :: more)
      else pure more

def addExchange (selection : CoinCandidateSelection) (exchange : ExchangeRecord) :
    Option CoinCandidateSelection :=
  match stores.getExchangeDetails exchange.baseUrl with
  | none => some selection
  | some exchangeDetails =>
    if request.isOkay exchangeDetails then
      match stores.coinsByBaseUrl exchange.baseUrl with
      | [] => some selection
      | first :: rest => do
          -- we assume that all other coins have the same currency
          let firstDenom ← stores.getDenomination exchange.baseUrl first.denomPubHash
          let coins ← stores.spendableCoins now exchange.baseUrl firstDenom.value.currency
            (first :: rest)
          pure
            { candidateCoins := selection.candidateCoins ++ coins
              wireFeesPerExchange :=
                match request.wireFee exchangeDetails with
                | some wireFee => selection.wireFeesPerExchange.set exchange.baseUrl wireFee
                | none => selection.wireFeesPerExchange }
    else some selection

def getCandidatePayCoins : Option CoinCandidateSelection :=
  stores.exchanges.values.foldlM (stores.addExchange now request) ⟨[], .empty⟩

end Stores

/-! ## What the candidates should be -/

structure Spendable (now : Nat) (coin : CoinRecord) (denom : DenominationRecord) : Prop where
  fresh : coin.status = .fresh
  notSuspended : coin.suspended = false
  offered : denom.isOffered = true
  notRevoked : denom.isRevoked = false
  notExpired : denom.stampExpireDeposit.cmp (.at now) = .gt

structure WireFee.ValidAt (fee : WireFee) (time : Timestamp) : Prop where
  started : fee.startStamp.cmp time ≠ .gt
  notEnded : time.cmp fee.endStamp ≠ .gt

namespace Stores

variable (stores : Stores) (now : Nat) (request req : CoinSelectionRequest)

structure Allows (exchangeBaseUrl : String) (details : ExchangeDetailsRecord) : Prop where
  known : stores.getExchangeDetails exchangeBaseUrl = some details
  allowed : (∃ allowedExchange ∈ request.allowedExchanges,
      allowedExchange.exchangePub = details.masterPublicKey) ∨
    ∃ allowedAuditor ∈ request.allowedAuditors, ∃ auditor ∈ details.auditors,
      auditor.auditorPub = allowedAuditor.auditorPub

structure Candidate (coin : CoinRecord) (denom : DenominationRecord) : Prop where
  stored : stores.coins.get? coin.coinPub = some coin
  denomination : stores.getDenomination coin.exchangeBaseUrl coin.denomPubHash = some denom
  allowed : ∃ details, stores.Allows request coin.exchangeBaseUrl details
  spendable : Spendable now coin denom

def HasCoins (exchangeBaseUrl : String) : Prop :=
  ∃ coin, stores.coins.get? coin.coinPub = some coin ∧ coin.exchangeBaseUrl = exchangeBaseUrl

/-- The candidates are the spendable coins, each once, and their exchanges have the fees that
are valid at the time of the contract. -/
structure Selects (selection : CoinCandidateSelection) : Prop where
  coins : ∀ info, info ∈ selection.candidateCoins ↔
    ∃ coin denom, stores.Candidate now request coin denom ∧ info = coin.availableInfo denom
  once : (selection.candidateCoins.map AvailableCoinInfo.coinPub).Nodup
  valid : ∀ exchangeBaseUrl wireFee,
    selection.wireFeesPerExchange.get? exchangeBaseUrl = some wireFee →
      ∃ details, stores.Allows request exchangeBaseUrl details ∧ stores.HasCoins exchangeBaseUrl ∧
        ∃ fee ∈ details.feesFor request.wireMethod,
          fee.ValidAt request.timestamp ∧ fee.wireFee = wireFee
  found : ∀ exchangeBaseUrl details, stores.Allows request exchangeBaseUrl details →
    stores.HasCoins exchangeBaseUrl →
      (∃ fee ∈ details.feesFor request.wireMethod, fee.ValidAt request.timestamp) →
        ∃ wireFee, selection.wireFeesPerExchange.get? exchangeBaseUrl = some wireFee

/-- The coins of an exchange have denominations; those that can be spent have the currency of the
first one, and the first fee is one that is valid. -/
structure RegularExchange (exchangeBaseUrl : String) (details : ExchangeDetailsRecord)
    (first : CoinRecord) : Prop where
  denominations : ∀ coin ∈ stores.coinsByBaseUrl exchangeBaseUrl,
    ∃ denom, stores.getDenomination exchangeBaseUrl coin.denomPubHash = some denom
  currency : ∀ coin ∈ stores.coinsByBaseUrl exchangeBaseUrl, ∀ denom firstDenom,
    stores.getDenomination exchangeBaseUrl coin.denomPubHash = some denom →
      stores.getDenomination exchangeBaseUrl first.denomPubHash = some firstDenom →
        Spendable now coin denom → denom.value.currency = firstDenom.value.currency
  wireFee : ∀ firstFee, (details.feesFor request.wireMethod).head? = some firstFee →
    ∃ fee ∈ details.feesFor request.wireMethod,
      fee.ValidAt request.timestamp ∧ fee.wireFee = firstFee.wireFee

def RegularFor : Prop :=
  ∀ exchangeBaseUrl details first, stores.Allows request exchangeBaseUrl details →
    (stores.coinsByBaseUrl exchangeBaseUrl).head? = some first →
      stores.RegularExchange now request exchangeBaseUrl details first

end Stores

/-! ## What the loops find -/

theorem isSpendableCoin_iff {now : Nat} {coin : CoinRecord} {denom : DenominationRecord} :
    isSpendableCoin now coin denom = true ↔ Spendable now coin denom := by
  simp only [isSpendableCoin, isTimestampExpired, Bool.and_eq_true, Bool.not_eq_true',
    decide_eq_true_eq, decide_eq_false_iff_not, not_not]
  constructor
  · intro checks
    exact ⟨checks.1.2, checks.1.1.1.1, checks.1.1.2, checks.1.1.1.2, checks.2⟩
  intro spendable
  exact ⟨⟨⟨⟨spendable.notSuspended, spendable.notRevoked⟩, spendable.offered⟩,
    spendable.fresh⟩, spendable.notExpired⟩

theorem CoinSelectionRequest.wireFee_eq (req : CoinSelectionRequest) (dt : ExchangeDetailsRecord) :
    req.wireFee dt = (dt.feesFor req.wireMethod).head?.map WireFee.wireFee := by
  unfold CoinSelectionRequest.wireFee
  cases dt.feesFor req.wireMethod with
  | nil => rfl
  | cons fee rest => simp

namespace Stores

variable {stores : Stores} {now : Nat} {request req : CoinSelectionRequest}

theorem allows_iff {url : String} {dt : ExchangeDetailsRecord} : stores.Allows req url dt ↔
      stores.getExchangeDetails url = some dt ∧ req.isOkay dt = true := by
  simp only [CoinSelectionRequest.isOkay, Bool.or_eq_true, List.any_eq_true, decide_eq_true_eq]
  constructor
  · intro allows
    exact ⟨allows.known, allows.allowed⟩
  · intro checks
    exact ⟨checks.1, checks.2⟩

theorem mem_coinsByBaseUrl {exchangeBaseUrl : String} {c : CoinRecord} :
    c ∈ stores.coinsByBaseUrl exchangeBaseUrl ↔
      c ∈ stores.coins.values ∧ c.exchangeBaseUrl = exchangeBaseUrl := by
  rw [coinsByBaseUrl, mem_filter, decide_eq_true_eq]

variable (stores now request) in
/-- What a coin contributes to the candidates when the exchange's currency is known. -/
def spendableInfo (exchangeBaseUrl currency : String) (coin : CoinRecord) :
    Option AvailableCoinInfo :=
  (stores.getDenomination exchangeBaseUrl coin.denomPubHash).bind fun denom =>
    if denom.value.currency = currency ∧ isSpendableCoin now coin denom = true then
      some (coin.availableInfo denom)
    else none

theorem spendableInfo_eq_some {url cur : String} {c : CoinRecord} {info : AvailableCoinInfo} :
    stores.spendableInfo now url cur c = some info ↔
      ∃ denom, stores.getDenomination url c.denomPubHash = some denom ∧
        denom.value.currency = cur ∧ Spendable now c denom ∧ info = c.availableInfo denom := by
  unfold spendableInfo
  rw [bind_eq_some_iff]
  constructor
  · intro h
    obtain ⟨denom, has, res⟩ := h
    split at res
    next checks =>
      cases res
      exact ⟨denom, has, checks.1, isSpendableCoin_iff.mp checks.2, rfl⟩
    next => cases res
  · intro h
    obtain ⟨denom, has, eq, spendable, rfl⟩ := h
    exact ⟨denom, has, if_pos ⟨eq, isSpendableCoin_iff.mpr spendable⟩⟩

theorem spendableCoins_eq {url cur : String} {cs : List CoinRecord} (complete : ∀ c ∈ cs, ∃ dn,
      stores.getDenomination url c.denomPubHash = some dn) : stores.spendableCoins now url cur cs =
      some (cs.filterMap (stores.spendableInfo now url cur)) := by
  induction cs with
  | nil => rfl
  | cons c rest ih =>
    obtain ⟨dn, has⟩ := complete c mem_cons_self
    have more := ih fun y mem => complete y (mem_cons_of_mem c mem)
    rw [spendableCoins, more]
    simp only [bind_eq_bind, bind_some, filterMap_cons, spendableInfo, has]
    by_cases eq : dn.value.currency = cur
    · by_cases spendable : isSpendableCoin now c dn = true
      · simp [eq, spendable, spendableInfo]
      · simp [eq, spendable, spendableInfo]
    · simp [eq, spendableInfo]

theorem spendableCoins_complete {url cur : String} {cs : List CoinRecord}
    {infos : List AvailableCoinInfo} (h : stores.spendableCoins now url cur cs = some infos) :
    ∀ c ∈ cs, ∃ denom, stores.getDenomination url c.denomPubHash = some denom := by
  induction cs generalizing infos with
  | nil => nofun
  | cons c rest ih =>
    obtain ⟨denom, has, h⟩ := bind_eq_some_iff.mp h
    obtain ⟨more, isMore, _⟩ := bind_eq_some_iff.mp h
    intro y mem
    rcases mem_cons.mp mem with eq | later
    · exact ⟨denom, eq ▸ has⟩
    · exact ih isMore y later

variable (stores request) in
/-- The coins of an exchange have denominations if the exchange is allowed. -/
def Complete (exchangeBaseUrl : String) : Prop :=
  ∀ details, stores.Allows request exchangeBaseUrl details →
    ∀ coin ∈ stores.coinsByBaseUrl exchangeBaseUrl, ∃ denom,
      stores.getDenomination exchangeBaseUrl coin.denomPubHash = some denom

variable (stores request) in
def usedDetails (exchangeBaseUrl : String) : Option ExchangeDetailsRecord :=
  (stores.getExchangeDetails exchangeBaseUrl).filter fun details =>
    request.isOkay details && !(stores.coinsByBaseUrl exchangeBaseUrl).isEmpty

variable (stores) in
def currencyOf (exchangeBaseUrl : String) : String :=
  (((stores.coinsByBaseUrl exchangeBaseUrl).head?.bind fun first =>
    stores.getDenomination exchangeBaseUrl first.denomPubHash).map fun denom =>
      denom.value.currency).getD ""

variable (stores now request) in
def offeredCoins (exchangeBaseUrl : String) : List AvailableCoinInfo :=
  if (stores.usedDetails request exchangeBaseUrl).isSome then
    (stores.coinsByBaseUrl exchangeBaseUrl).filterMap
      (stores.spendableInfo now exchangeBaseUrl (stores.currencyOf exchangeBaseUrl))
  else []

variable (stores request) in
def offeredFee (exchangeBaseUrl : String) : Option CurrencyAmount :=
  (stores.usedDetails request exchangeBaseUrl).bind request.wireFee

def withFee (fees : Record String CurrencyAmount) (exchangeBaseUrl : String) :
    Option CurrencyAmount → Record String CurrencyAmount
  | some wireFee => fees.set exchangeBaseUrl wireFee
  | none => fees

theorem usedDetails_eq_some {url : String} {dt : ExchangeDetailsRecord} :
    stores.usedDetails req url = some dt ↔ stores.Allows req url dt ∧
        ∃ first, (stores.coinsByBaseUrl url).head? = some first := by
  rw [usedDetails, allows_iff]
  cases stores.coinsByBaseUrl url with
  | nil => simp
  | cons first rest => simp

variable {selection sel : CoinCandidateSelection}

theorem addExchange_eq {exchange : ExchangeRecord}
    (complete : stores.Complete req exchange.baseUrl) :
    stores.addExchange now req sel exchange = some
      { candidateCoins := sel.candidateCoins ++ stores.offeredCoins now req exchange.baseUrl
        wireFeesPerExchange := withFee sel.wireFeesPerExchange exchange.baseUrl
          (stores.offeredFee req exchange.baseUrl) } := by
  unfold addExchange offeredCoins offeredFee
  have used := @usedDetails_eq_some stores req exchange.baseUrl
  cases has : stores.getExchangeDetails exchange.baseUrl with
  | none => simp [usedDetails, has, withFee]
  | some details =>
    by_cases okay : req.isOkay details = true
    · cases cs : stores.coinsByBaseUrl exchange.baseUrl with
      | nil => simp [usedDetails, has, okay, cs, withFee]
      | cons x rest =>
        have all := complete details (allows_iff.mpr ⟨has, okay⟩)
        rw [cs] at all
        obtain ⟨firstDenom, firstKnown⟩ := all x mem_cons_self
        have isUsed : stores.usedDetails req exchange.baseUrl = some details :=
          used.mpr ⟨allows_iff.mpr ⟨has, okay⟩, x, by rw [cs]; rfl⟩
        have cur : stores.currencyOf exchange.baseUrl = firstDenom.value.currency := by
          simp [currencyOf, cs, firstKnown]
        simp only [okay, if_true, firstKnown, bind_eq_bind, bind_some, isUsed,
          spendableCoins_eq all, cur, isSome_some]
        cases req.wireFee details with
        | none => rfl
        | some wireFee => rfl
    · have unused : stores.usedDetails req exchange.baseUrl = none := by
        simp [usedDetails, has, okay, Option.filter]
      simp [unused, okay, withFee]

theorem addExchange_complete {next : CoinCandidateSelection} {exchange : ExchangeRecord}
    (added : stores.addExchange now req sel exchange = some next) :
    stores.Complete req exchange.baseUrl := by
  intro dt allows
  obtain ⟨has, okay⟩ := allows_iff.mp allows
  unfold addExchange at added
  simp only [has, okay, if_true] at added
  cases cs : stores.coinsByBaseUrl exchange.baseUrl with
  | nil => nofun
  | cons x rest =>
    simp only [cs] at added
    obtain ⟨firstDenom, _, added⟩ := bind_eq_some_iff.mp added
    obtain ⟨infos, h, _⟩ := bind_eq_some_iff.mp added
    exact spendableCoins_complete h

theorem addExchanges_eq {exs : List ExchangeRecord} {sel : CoinCandidateSelection}
    (complete : ∀ exchange ∈ exs, stores.Complete req exchange.baseUrl) :
    exs.foldlM (stores.addExchange now req) sel = some
      { candidateCoins := sel.candidateCoins ++
          exs.flatMap fun exchange => stores.offeredCoins now req exchange.baseUrl
        wireFeesPerExchange := exs.foldl (fun fees exchange => withFee fees exchange.baseUrl
            (stores.offeredFee req exchange.baseUrl)) sel.wireFeesPerExchange } := by
  induction exs generalizing sel with
  | nil => simp
  | cons exchange rest ih =>
    rw [foldlM_cons, addExchange_eq (complete exchange mem_cons_self)]
    rw [bind_eq_bind, bind_some, ih fun y mem => complete y (mem_cons_of_mem exchange mem)]
    simp

theorem addExchanges_complete {exs : List ExchangeRecord} {fin : CoinCandidateSelection}
    (added : exs.foldlM (stores.addExchange now req) sel = some fin) :
    ∀ exchange ∈ exs, stores.Complete req exchange.baseUrl := by
  induction exs generalizing sel with
  | nil => nofun
  | cons exchange rest ih =>
    obtain ⟨next, isNext, added⟩ := bind_eq_some_iff.mp added
    intro y mem
    rcases mem_cons.mp mem with eq | later
    · exact eq ▸ addExchange_complete isNext
    · exact ih added y later

theorem withFees_get? {exs : List ExchangeRecord} {fees : Record String CurrencyAmount}
    (apart : (exs.map ExchangeRecord.baseUrl).Nodup) (offers : String → Option CurrencyAmount)
    (exchangeBaseUrl : String) :
    (exs.foldl (fun fees exchange => withFee fees exchange.baseUrl (offers exchange.baseUrl))
        fees).get? exchangeBaseUrl = if exchangeBaseUrl ∈ exs.map ExchangeRecord.baseUrl then
        (offers exchangeBaseUrl).or (fees.get? exchangeBaseUrl)
      else fees.get? exchangeBaseUrl := by
  induction exs generalizing fees with
  | nil => simp
  | cons exchange rest ih =>
    rw [map_cons, nodup_cons] at apart
    rw [foldl_cons, ih apart.2]
    have step : (withFee fees exchange.baseUrl (offers exchange.baseUrl)).get? exchangeBaseUrl =
        if exchangeBaseUrl = exchange.baseUrl then
          (offers exchangeBaseUrl).or (fees.get? exchangeBaseUrl)
        else fees.get? exchangeBaseUrl := by
      cases offered : offers exchange.baseUrl with
      | none =>
        rw [withFee]
        split
        next eq => rw [eq, offered, none_or]
        next => rfl
      | some wireFee =>
        rw [withFee, Record.get?_set]
        split
        next eq => rw [eq, offered, some_or]
        next => rfl
    rw [step]
    by_cases eq : exchangeBaseUrl = exchange.baseUrl
    · have gone : exchangeBaseUrl ∉ rest.map ExchangeRecord.baseUrl := eq ▸ apart.1
      rw [if_neg gone, if_pos eq, if_pos (by rw [eq]; exact mem_cons_self)]
    · rw [if_neg eq, map_cons]
      simp only [mem_cons, eq, false_or]

end Stores

/-! ## When the candidates are right -/

namespace Database

variable (database : Database) {now : Nat} {request req : CoinSelectionRequest}
  {exchangeBaseUrl url baseUrl : String} {details dt : ExchangeDetailsRecord} {coin c : CoinRecord}

theorem mem_exchanges : (∃ exchange ∈ database.stores.exchanges.values, exchange.baseUrl = url) ↔
      ∃ exchange, database.stores.exchanges.get? url = some exchange := by
  constructor
  · intro h
    obtain ⟨exchange, mem, eq⟩ := h
    obtain ⟨key, kept⟩ := SortedMap.mem_values_iff.mp mem
    have keyed := database.exchangesKeyed key exchange kept
    exact ⟨exchange, by rw [← eq, keyed, kept]⟩
  intro h
  obtain ⟨exchange, kept⟩ := h
  exact ⟨exchange, SortedMap.mem_values_iff.mpr ⟨_, kept⟩,
    database.exchangesKeyed _ exchange kept⟩

theorem mem_coins : coin ∈ database.stores.coins.values ↔
      database.stores.coins.get? coin.coinPub = some coin := by
  rw [SortedMap.mem_values_iff]
  constructor
  · intro h
    obtain ⟨key, kept⟩ := h
    have keyed := database.coinsKeyed key coin kept
    rw [keyed, kept]
  · intro kept
    exact ⟨_, kept⟩

theorem coin_unique {other : CoinRecord} (x : c ∈ database.stores.coins.values)
    (y : other ∈ database.stores.coins.values) (eq : c.coinPub = other.coinPub) : c = other := by
  have isFirst := database.mem_coins.mp x
  have isSecond := database.mem_coins.mp y
  rw [eq, isSecond] at isFirst
  exact (Option.some.inj isFirst).symm

theorem hasCoins_iff : database.stores.HasCoins url ↔
      ∃ first, (database.stores.coinsByBaseUrl url).head? = some first := by
  constructor
  · intro has
    obtain ⟨c, kept, isUrl⟩ := has
    have mem := Stores.mem_coinsByBaseUrl.mpr ⟨database.mem_coins.mpr kept, isUrl⟩
    cases cs : database.stores.coinsByBaseUrl url with
    | nil =>
      rw [cs] at mem
      cases mem
    | cons first rest => exact ⟨first, rfl⟩
  · intro h
    obtain ⟨first, isFirst⟩ := h
    obtain ⟨kept, isUrl⟩ := Stores.mem_coinsByBaseUrl.mp (mem_of_head? isFirst)
    exact ⟨first, database.mem_coins.mp kept, isUrl⟩

theorem exchanges_distinct :
    (database.stores.exchanges.values.map ExchangeRecord.baseUrl).Nodup := by
  have keys : database.stores.exchanges.values.map ExchangeRecord.baseUrl =
      database.stores.exchanges.entries.map Prod.fst := by
    rw [SortedMap.values, List.map_map]
    apply map_congr_left
    intro e mem
    exact database.exchangesKeyed e.1 e.2 ((SortedMap.get?_eq_some_iff _ _ _).mpr mem)
  rw [keys]
  exact pairwise_map.mpr (database.stores.exchanges.sorted.imp ne_of_lt)

theorem coins_distinct : (database.stores.coins.values.map CoinRecord.coinPub).Nodup := by
  have keys : database.stores.coins.values.map CoinRecord.coinPub =
      database.stores.coins.entries.map Prod.fst := by
    rw [SortedMap.values, List.map_map]
    apply map_congr_left
    intro e mem
    exact database.coinsKeyed e.1 e.2 ((SortedMap.get?_eq_some_iff _ _ _).mpr mem)
  rw [keys]
  exact pairwise_map.mpr (database.stores.coins.sorted.imp ne_of_lt)

theorem mem_offeredCoins {info : AvailableCoinInfo} :
    info ∈ database.stores.offeredCoins now req url ↔
      ∃ c denom, database.stores.Candidate now req c denom ∧ c.exchangeBaseUrl = url ∧
        denom.value.currency = database.stores.currencyOf url ∧ info = c.availableInfo denom := by
  unfold Stores.offeredCoins
  constructor
  · intro mem
    split at mem
    next used =>
      obtain ⟨dt, isUsed⟩ := isSome_iff_exists.mp used
      obtain ⟨c, isC, isInfo⟩ := mem_filterMap.mp mem
      obtain ⟨kept, rfl⟩ := Stores.mem_coinsByBaseUrl.mp isC
      obtain ⟨denom, has, cur, spendable, eq⟩ := Stores.spendableInfo_eq_some.mp isInfo
      exact ⟨c, denom, ⟨database.mem_coins.mp kept, has,
        ⟨dt, (Stores.usedDetails_eq_some.mp isUsed).1⟩, spendable⟩, rfl, cur, eq⟩
    next => cases mem
  · intro h
    obtain ⟨c, denom, cand, rfl, cur, eq⟩ := h
    obtain ⟨dt, allows⟩ := cand.allowed
    have isC := Stores.mem_coinsByBaseUrl.mpr ⟨database.mem_coins.mpr cand.stored, rfl⟩
    have x := database.hasCoins_iff.mp ⟨c, cand.stored, rfl⟩
    rw [Stores.usedDetails_eq_some.mpr ⟨allows, x⟩, isSome_some]
    exact mem_filterMap.mpr ⟨c, isC, Stores.spendableInfo_eq_some.mpr
      ⟨denom, cand.denomination, cur, cand.spendable, eq⟩⟩

theorem offeredCoins_sublist (url : String) :
    ((database.stores.offeredCoins now req url).map AvailableCoinInfo.coinPub).Sublist
      (database.stores.coins.values.map CoinRecord.coinPub) := by
  unfold Stores.offeredCoins
  split
  next =>
    have part : ∀ cs : List CoinRecord, ((cs.filterMap (database.stores.spendableInfo now url
          (database.stores.currencyOf url))).map AvailableCoinInfo.coinPub).Sublist
            (cs.map CoinRecord.coinPub) := by
      intro cs
      induction cs with
      | nil => exact .slnil
      | cons c rest ih =>
        cases h : database.stores.spendableInfo now url (database.stores.currencyOf url) c with
        | none =>
          rw [filterMap_cons_none h]
          exact ih.cons _
        | some info =>
          rw [filterMap_cons_some h]
          obtain ⟨dn, _, _, _, rfl⟩ := Stores.spendableInfo_eq_some.mp h
          exact ih.cons_cons _
    exact (part _).trans (List.filter_sublist.map _)
  next => exact nil_sublist _

theorem offered_distinct : ((database.stores.exchanges.values.flatMap fun exchange =>
      database.stores.offeredCoins now req exchange.baseUrl).map
        AvailableCoinInfo.coinPub).Nodup := by
  rw [map_flatMap]
  apply nodup_flatMap.mpr
  constructor
  · intro exchange _
    exact (database.offeredCoins_sublist exchange.baseUrl).nodup database.coins_distinct
  have apart := pairwise_map.mp database.exchanges_distinct
  apply apart.imp
  intro exchange other ne pub x y
  obtain ⟨info, isInfo, rfl⟩ := List.mem_map.mp x
  obtain ⟨info', isInfo', eq⟩ := List.mem_map.mp y
  obtain ⟨c, dn, cand, isUrl, _, rfl⟩ := database.mem_offeredCoins.mp isInfo
  obtain ⟨coin', denom', candidate', isUrl', _, rfl⟩ := database.mem_offeredCoins.mp isInfo'
  have equal := database.coin_unique (database.mem_coins.mpr candidate'.stored)
    (database.mem_coins.mpr cand.stored) eq
  rw [equal, isUrl] at isUrl'
  exact ne isUrl'

structure Found (now : Nat) (request : CoinSelectionRequest)
    (selection : CoinCandidateSelection) : Prop where
  coins : ∀ info, info ∈ selection.candidateCoins ↔
    ∃ coin denom, database.stores.Candidate now request coin denom ∧
      denom.value.currency = database.stores.currencyOf coin.exchangeBaseUrl ∧
      info = coin.availableInfo denom
  once : (selection.candidateCoins.map AvailableCoinInfo.coinPub).Nodup
  fees : ∀ exchangeBaseUrl, selection.wireFeesPerExchange.get? exchangeBaseUrl =
    database.stores.offeredFee request exchangeBaseUrl

variable {selection sel : CoinCandidateSelection}

theorem getCandidatePayCoins_found
    (res : database.stores.getCandidatePayCoins now request = some selection) :
    database.Found now request selection := by
  rw [Stores.getCandidatePayCoins,
    Stores.addExchanges_eq (Stores.addExchanges_complete res)] at res
  cases res
  constructor
  · intro info
    rw [nil_append, mem_flatMap]
    constructor
    · intro h
      obtain ⟨exchange, _, isInfo⟩ := h
      obtain ⟨c, dn, cand, isUrl, cur, eq⟩ := database.mem_offeredCoins.mp isInfo
      exact ⟨c, dn, cand, isUrl.symm ▸ cur, eq⟩
    intro h
    obtain ⟨c, dn, cand, cur, eq⟩ := h
    obtain ⟨dt, allows⟩ := cand.allowed
    obtain ⟨exchange, kept, _⟩ := bind_eq_some_iff.mp allows.known
    obtain ⟨exchange, isExchange, isUrl⟩ := database.mem_exchanges.mpr ⟨exchange, kept⟩
    exact ⟨exchange, isExchange, database.mem_offeredCoins.mpr
      ⟨c, dn, cand, isUrl.symm, isUrl.symm ▸ cur, eq⟩⟩
  · rw [nil_append]
    exact database.offered_distinct
  · intro url
    rw [Stores.withFees_get? database.exchanges_distinct, Record.get?_empty, or_none]
    split
    next => rfl
    next gone =>
      cases used : database.stores.usedDetails request url with
      | none => rw [Stores.offeredFee, used, bind_none]
      | some dt =>
        have allows := (Stores.usedDetails_eq_some.mp used).1
        obtain ⟨exchange, kept, _⟩ := bind_eq_some_iff.mp allows.known
        obtain ⟨y, isO, isUrl⟩ := database.mem_exchanges.mpr ⟨exchange, kept⟩
        exact absurd (List.mem_map.mpr ⟨y, isO, isUrl⟩) gone

theorem complete_of_result
    (res : database.stores.getCandidatePayCoins now request = some sel) (url : String) :
    database.stores.Complete request url := by
  intro dt allows
  obtain ⟨exchange, kept, _⟩ := bind_eq_some_iff.mp allows.known
  obtain ⟨y, isO, rfl⟩ := database.mem_exchanges.mpr ⟨exchange, kept⟩
  exact Stores.addExchanges_complete res y isO dt allows

theorem currencyOf_eq {x : CoinRecord} {dn : DenominationRecord}
    (isFirst : (database.stores.coinsByBaseUrl url).head? = some x)
    (has : database.stores.getDenomination url x.denomPubHash = some dn) :
    database.stores.currencyOf url = dn.value.currency := by
  rw [Stores.currencyOf, isFirst, bind_some, has]
  rfl

theorem Found.selects (h : database.Found now request selection)
    (regular : database.stores.RegularFor now request) :
    database.stores.Selects now request selection := by
  constructor
  · intro info
    rw [h.coins]
    constructor
    · intro isInfo
      obtain ⟨c, dn, cand, _, eq⟩ := isInfo
      exact ⟨c, dn, cand, eq⟩
    intro isInfo
    obtain ⟨c, dn, cand, eq⟩ := isInfo
    obtain ⟨dt, allows⟩ := cand.allowed
    obtain ⟨x, isFirst⟩ := database.hasCoins_iff.mp ⟨c, cand.stored, rfl⟩
    have exchange := regular _ dt x allows isFirst
    obtain ⟨firstDenom, firstKnown⟩ := exchange.denominations x (mem_of_head? isFirst)
    have mem := Stores.mem_coinsByBaseUrl.mpr ⟨database.mem_coins.mpr cand.stored, rfl⟩
    have cur := exchange.currency c mem dn firstDenom cand.denomination firstKnown cand.spendable
    exact ⟨c, dn, cand, cur.trans (database.currencyOf_eq isFirst firstKnown).symm, eq⟩
  · exact h.once
  · intro url wireFee isFee
    rw [h.fees] at isFee
    obtain ⟨dt, used, isFee⟩ := bind_eq_some_iff.mp isFee
    obtain ⟨allows, x, isFirst⟩ := Stores.usedDetails_eq_some.mp used
    rw [CoinSelectionRequest.wireFee_eq] at isFee
    obtain ⟨firstFee, isFirstFee, rfl⟩ := map_eq_some_iff.mp isFee
    exact ⟨dt, allows, database.hasCoins_iff.mpr ⟨x, isFirst⟩,
      (regular url dt x allows isFirst).wireFee firstFee isFirstFee⟩
  · intro url dt allows has valid
    obtain ⟨x, isFirst⟩ := database.hasCoins_iff.mp has
    obtain ⟨fee, isFee, _⟩ := valid
    rw [h.fees, Stores.offeredFee, Stores.usedDetails_eq_some.mpr ⟨allows, x, isFirst⟩,
      bind_some, CoinSelectionRequest.wireFee_eq]
    cases fees : dt.feesFor request.wireMethod with
    | nil =>
      rw [fees] at isFee
      cases isFee
    | cons firstFee rest => exact ⟨firstFee.wireFee, rfl⟩

theorem Found.regular (h : database.Found now request sel)
    (complete : ∀ url, database.stores.Complete request url)
    (selects : database.stores.Selects now request sel) :
    database.stores.RegularFor now request := by
  intro url dt x allows isFirst
  constructor
  · exact complete url dt allows
  · intro coin isC denom firstDenom has firstKnown spendable
    obtain ⟨kept, rfl⟩ := Stores.mem_coinsByBaseUrl.mp isC
    have cand : database.stores.Candidate now request coin denom :=
      ⟨database.mem_coins.mp kept, has, ⟨dt, allows⟩, spendable⟩
    have mem := (selects.coins (coin.availableInfo denom)).mpr ⟨coin, denom, cand, rfl⟩
    obtain ⟨other, otherDenom, candidate', cur, eq⟩ := (h.coins _).mp mem
    have equal : coin = other := database.coin_unique kept
      (database.mem_coins.mpr candidate'.stored) (congrArg AvailableCoinInfo.coinPub eq)
    subst equal
    have ds := Option.some.inj (has.symm.trans candidate'.denomination)
    rw [ds, cur]
    exact database.currencyOf_eq isFirst firstKnown
  · intro firstFee isFirstFee
    have isFee : sel.wireFeesPerExchange.get? url = some firstFee.wireFee := by
      rw [h.fees, Stores.offeredFee, Stores.usedDetails_eq_some.mpr ⟨allows, x, isFirst⟩,
        bind_some, CoinSelectionRequest.wireFee_eq, isFirstFee]
      rfl
    obtain ⟨details', allows', _, valid⟩ := selects.valid url _ isFee
    have eq := Option.some.inj (allows.known.symm.trans allows'.known)
    rw [eq]
    exact valid

/-- The candidates are exactly the spendable coins of the allowed exchanges, with the fees of
the time of the contract, if and only if all those exchanges are regular. -/
theorem getCandidatePayCoins_selects_iff (now : Nat) (request : CoinSelectionRequest) :
    (∃ selection, database.stores.getCandidatePayCoins now request = some selection ∧
        database.stores.Selects now request selection) ↔
      database.stores.RegularFor now request := by
  constructor
  · intro result
    obtain ⟨selection, isResult, selects⟩ := result
    exact Found.regular database (database.getCandidatePayCoins_found isResult)
      (database.complete_of_result isResult) selects
  · intro regular
    have complete : ∀ exchange ∈ database.stores.exchanges.values,
        database.stores.Complete request exchange.baseUrl := by
      intro exchange _ details allows coin isCoin
      obtain ⟨stored, isUrl⟩ := Stores.mem_coinsByBaseUrl.mp isCoin
      obtain ⟨first, isFirst⟩ := database.hasCoins_iff.mp
        ⟨coin, database.mem_coins.mp stored, isUrl⟩
      exact (regular _ details first allows isFirst).denominations coin isCoin
    have result := @Stores.addExchanges_eq database.stores now request _ ⟨[], .empty⟩ complete
    exact ⟨_, result, Found.selects database (database.getCandidatePayCoins_found result) regular⟩

end Database

def exampleExchange : ExchangeRecord where
  baseUrl := "https://exchange/"
  detailsPointer := some ⟨"K", "KUDOS", .at 0⟩
  permanent := true
  lastUpdate := none
  nextUpdate := .never
  nextRefreshCheck := .never
  lastError := none
  retryInfo := initRetryInfo 0

def pastFee : WireFee where
  wireFee := ⟨"KUDOS", .ofValue 1⟩
  closingFee := ⟨"KUDOS", .ofValue 0⟩
  startStamp := .at 0
  endStamp := .at 10
  sig := ""

def currentFee : WireFee where
  wireFee := ⟨"KUDOS", .ofValue 2⟩
  closingFee := ⟨"KUDOS", .ofValue 0⟩
  startStamp := .at 11
  endStamp := .never
  sig := ""

def exampleDetails : ExchangeDetailsRecord where
  masterPublicKey := "K"
  exchangeBaseUrl := "https://exchange/"
  currency := "KUDOS"
  auditors := []
  protocolVersion := "10:0:0"
  reserveClosingDelay := .forever
  signingKeys := []
  termsOfServiceText := none
  termsOfServiceContentType := none
  termsOfServiceLastEtag := none
  termsOfServiceAcceptedEtag := none
  termsOfServiceAcceptedTimestamp := none
  wireInfo := ⟨.ofList [("iban", [pastFee, currentFee])], []⟩

def exampleCoin : CoinRecord where
  coinSource := .refresh ""
  coinPub := "C"
  coinPriv := ""
  denomPub := ⟨1, "", none⟩
  denomPubHash := "D"
  denomSig := ⟨1, ""⟩
  currentAmount := ⟨"KUDOS", .ofValue 4⟩
  exchangeBaseUrl := "https://exchange/"
  suspended := false
  blindingKey := ""
  coinEvHash := ""
  status := .fresh

def exampleDenomination : DenominationRecord where
  value := ⟨"KUDOS", .ofValue 4⟩
  denomPub := ⟨1, "", none⟩
  denomPubHash := "D"
  feeWithdraw := ⟨"KUDOS", .ofValue 0⟩
  feeDeposit := ⟨"KUDOS", .ofValue 0⟩
  feeRefresh := ⟨"KUDOS", .ofValue 0⟩
  feeRefund := ⟨"KUDOS", .ofValue 0⟩
  stampStart := .at 0
  stampExpireWithdraw := .never
  stampExpireLegal := .never
  stampExpireDeposit := .never
  masterSig := ""
  verificationStatus := .verifiedGood
  isOffered := true
  isRevoked := false
  exchangeBaseUrl := "https://exchange/"
  exchangeMasterPub := "K"
  listIssueDate := .at 0

def exampleDatabase : Database where
  stores :=
    { Stores.empty with
      exchanges := SortedMap.empty.insert "https://exchange/" exampleExchange
      exchangeDetails := SortedMap.empty.insert
        (exchangeDetailsKey "https://exchange/" "KUDOS" "K") exampleDetails
      coins := SortedMap.empty.insert "C" exampleCoin
      denominations := SortedMap.empty.insert (denominationKey "https://exchange/" "D")
        exampleDenomination }
  exchangesKeyed := SortedMap.All.insert SortedMap.all_empty rfl
  coinsKeyed := SortedMap.All.insert SortedMap.all_empty rfl
  denominationsKeyed := SortedMap.All.insert SortedMap.all_empty rfl

def exampleRequest : CoinSelectionRequest where
  allowedAuditors := []
  allowedExchanges := [⟨"https://exchange/", "K"⟩]
  timestamp := .at 20
  wireMethod := "iban"

/-- The fee of the past is charged. -/
theorem outdated_fee_selected :
    ¬ ∃ selection, exampleDatabase.stores.getCandidatePayCoins 20 exampleRequest = some selection ∧
      exampleDatabase.stores.Selects 20 exampleRequest selection := by
  intro result
  obtain ⟨selection, isResult, selects⟩ := result
  have found := exampleDatabase.getCandidatePayCoins_found isResult
  have known : exampleDatabase.stores.getExchangeDetails "https://exchange/" = some exampleDetails :=
    rfl
  have allows : exampleDatabase.stores.Allows exampleRequest "https://exchange/" exampleDetails :=
    ⟨known, .inl ⟨_, mem_singleton_self _, rfl⟩⟩
  have first : (exampleDatabase.stores.coinsByBaseUrl "https://exchange/").head? =
      some exampleCoin := rfl
  have isFee : selection.wireFeesPerExchange.get? "https://exchange/" = some pastFee.wireFee := by
    rw [found.fees, Stores.offeredFee, Stores.usedDetails_eq_some.mpr ⟨allows, exampleCoin, first⟩,
      bind_some]
    rfl
  obtain ⟨details, allowed, _, fee, isListed, valid, same⟩ := selects.valid _ _ isFee
  cases Option.some.inj (known.symm.trans allowed.known)
  rcases mem_cons.mp isListed with rfl | later
  · exact absurd valid.notEnded (by decide)
  · cases mem_singleton.mp later
    exact absurd (congrArg (fun fee => fee.amount.value) same) (by decide)

end Anastasis.Wallet.Backup
