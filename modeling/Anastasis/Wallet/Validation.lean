import Anastasis.Wallet.Refunds

/-! Checking the signatures of denominations, and which denominations are then selected. -/

set_option autoImplicit false

namespace Anastasis.Wallet

open Library Library.Transition AmountJson List

def DenominationRecord.keyPath (d : DenominationRecord) : String × String :=
  (d.exchangeBaseUrl, d.denomPubHash)

def DenominationRecord.validated (isValidDenom : DenominationRecord → Bool)
    (denom : DenominationRecord) : DenominationRecord :=
  { denom with
    verificationStatus := if isValidDenom denom then .verifiedGood else .verifiedBad }

def getCandidateWithdrawalDenoms (surroundings : Surroundings) (exchangeBaseUrl : String)
    (wallet : WalletStores) : List DenominationRecord :=
  (wallet.denominationsOf exchangeBaseUrl).filter (isWithdrawableDenom surroundings)

def WalletStores.putDenomination (wallet : WalletStores) (denom : DenominationRecord) :
    WalletStores :=
  { wallet with denominations := wallet.denominations.set denom.keyPath denom }

def batchSize : Nat := 500

def updatedDenominations (isValidDenom : DenominationRecord → Bool)
    (batch : List DenominationRecord) : List DenominationRecord :=
  (batch.filter fun denom => denom.verificationStatus = .unverified).map
    (DenominationRecord.validated isValidDenom)

def writeBatches (isValidDenom : DenominationRecord → Bool) :
    Nat → List DenominationRecord → WalletStores → WalletStores
  | 0, _, wallet => wallet
  | batches + 1, denominations, wallet =>
    if denominations.isEmpty then wallet
    else
      writeBatches isValidDenom batches (denominations.drop batchSize)
        ((updatedDenominations isValidDenom (denominations.take batchSize)).foldl
          WalletStores.putDenomination wallet)

def updateWithdrawalDenoms (surroundings : Surroundings)
    (isValidDenom : DenominationRecord → Bool) (exchangeBaseUrl : String)
    (wallet : WalletStores) : WalletStores :=
  let denominations := getCandidateWithdrawalDenoms surroundings exchangeBaseUrl wallet
  writeBatches isValidDenom denominations.length denominations wallet

/-- The candidates are validated, and some time later selected from. Reading when the first of
them expires fails when none is selected. -/
def getExchangeWithdrawalInfo (validating selecting : Surroundings)
    (isValidDenom : DenominationRecord → Bool) (baseUrl currency : String) (amount : AmountJson)
    (wallet : WalletStores) : WalletStores × Option DenominationSelectionInfo :=
  let wallet := updateWithdrawalDenoms validating isValidDenom baseUrl wallet
  let denoms := getCandidateWithdrawalDenoms selecting baseUrl wallet
  let selectedDenoms := selectWithdrawalDenominations selecting currency amount denoms
  (wallet, selectedDenoms.filter fun selection => !selection.selectedDenoms.isEmpty)

section Writing

variable {surroundings env : Surroundings} {isValidDenom : DenominationRecord → Bool}
  {exchangeBaseUrl url baseUrl : String} {wallet w : WalletStores}

def WalletStores.KeyPaths (wallet : WalletStores) : Prop :=
  ∀ key d, wallet.denominations.get? key = some d → key = d.keyPath

theorem updatedDenominations_append (x second : List DenominationRecord) :
    updatedDenominations isValidDenom (x ++ second) =
      updatedDenominations isValidDenom x ++ updatedDenominations isValidDenom second := by
  rw [updatedDenominations, filter_append, map_append]
  rfl

theorem writeBatches_eq {batches : Nat} :
    ∀ {ds : List DenominationRecord} {wallet : WalletStores}, ds.length ≤ batches →
      writeBatches isValidDenom batches ds wallet =
        (updatedDenominations isValidDenom ds).foldl WalletStores.putDenomination
          wallet := by
  induction batches with
  | zero =>
    intro ds wallet short
    have none : ds = [] := eq_nil_of_length_eq_zero (Nat.le_zero.mp short)
    subst none
    rfl
  | succ batches ih =>
    intro ds wallet short
    unfold writeBatches
    split
    next none =>
      have empty : ds = [] := List.isEmpty_iff.mp none
      subst empty
      rfl
    next some =>
      have rest : (ds.drop batchSize).length ≤ batches := by
        rw [length_drop, batchSize]
        omega
      rw [ih rest, ← foldl_append, ← updatedDenominations_append, take_append_drop]

theorem putDenominations_other {key : String × String} {ds : List DenominationRecord} :
    ∀ {w : WalletStores}, (∀ d ∈ ds, d.keyPath ≠ key) →
      (ds.foldl WalletStores.putDenomination w).denominations.get? key =
        w.denominations.get? key := by
  induction ds with
  | nil => exact fun _ => rfl
  | cons x rest ih =>
    intro w apart
    rw [foldl_cons, ih fun d mem => apart d (mem_cons_of_mem _ mem)]
    exact Record.get?_set_of_ne _ _ (Ne.symm (apart x mem_cons_self))

theorem putDenominations_found {key : String × String} {denom : DenominationRecord}
    {ds : List DenominationRecord} : ∀ {w : WalletStores}, (∀ d ∈ ds, d.keyPath = key → d = denom) →
      denom ∈ ds ∨ w.denominations.get? key = some denom → denom.keyPath = key →
      (ds.foldl WalletStores.putDenomination w).denominations.get? key = some denom := by
  induction ds with
  | nil =>
    rintro w _ (none | h) _
    · cases none
    · exact h
  | cons x rest ih =>
    intro w only h isKey
    apply ih (fun d mem => only d (mem_cons_of_mem _ mem)) _ isKey
    by_cases eq : x.keyPath = key
    · right
      have isFirst := only x mem_cons_self eq
      subst isFirst
      subst eq
      exact Record.get?_set_self _ _ _
    rcases h with mem | h
    · rcases mem_cons.mp mem with rfl | later
      · exact absurd isKey eq
      · exact .inl later
    right
    rw [← h]
    exact Record.get?_set_of_ne _ _ (Ne.symm eq)

theorem WalletStores.KeyPaths.unique (keyed : w.KeyPaths) {x second : DenominationRecord}
    (isFirst : x ∈ w.denominations.values)
    (isSecond : second ∈ w.denominations.values) (eq : x.keyPath = second.keyPath) :
    x = second := by
  obtain ⟨firstKey, foundFirst⟩ := Record.mem_values_iff.mp isFirst
  obtain ⟨secondKey, foundSecond⟩ := Record.mem_values_iff.mp isSecond
  rw [keyed _ _ foundFirst, eq] at foundFirst
  rw [keyed _ _ foundSecond, foundFirst] at foundSecond
  exact Option.some.inj foundSecond

def DenominationRecord.isChecked (surroundings : Surroundings) (exchangeBaseUrl : String)
    (d : DenominationRecord) : Bool :=
  d.exchangeBaseUrl = exchangeBaseUrl && isWithdrawableDenom surroundings d &&
    d.verificationStatus = .unverified

theorem mem_updated {d : DenominationRecord} : d ∈ updatedDenominations isValidDenom
        (getCandidateWithdrawalDenoms env url w) ↔
      ∃ old ∈ w.denominations.values, old.isChecked env url ∧ d = old.validated isValidDenom := by
  simp only [updatedDenominations, getCandidateWithdrawalDenoms, WalletStores.denominationsOf,
    DenominationRecord.isChecked, List.mem_map, mem_filter, decide_eq_true_eq, Bool.and_eq_true]
  constructor
  · rintro ⟨old, ⟨⟨⟨mem, ofExchange⟩, able⟩, unverified⟩, rfl⟩
    exact ⟨old, mem, ⟨⟨ofExchange, able⟩, unverified⟩, rfl⟩
  · rintro ⟨old, mem, ⟨⟨ofExchange, able⟩, unverified⟩, rfl⟩
    exact ⟨old, ⟨⟨⟨mem, ofExchange⟩, able⟩, unverified⟩, rfl⟩

theorem updateWithdrawalDenoms_get? (keyed : w.KeyPaths) (key : String × String) :
    (updateWithdrawalDenoms env isValidDenom url w).denominations.get? key =
      (w.denominations.get? key).map fun d =>
        if d.isChecked env url then d.validated isValidDenom else d := by
  rw [updateWithdrawalDenoms, writeBatches_eq le_rfl]
  cases h : w.denominations.get? key with
  | none =>
    rw [Option.map_none, ← h]
    apply putDenominations_other
    intro d mem eq
    obtain ⟨old, isOld, -, rfl⟩ := mem_updated.mp mem
    obtain ⟨oldKey, foundOld⟩ := Record.mem_values_iff.mp isOld
    have isKey : oldKey = key := (keyed _ _ foundOld).trans eq
    rw [isKey, h] at foundOld
    cases foundOld
  | some d =>
    have isKey := keyed _ _ h
    rw [Option.map_some]
    by_cases checked : d.isChecked env url
    · rw [if_pos checked]
      apply putDenominations_found
      · intro y mem eq
        obtain ⟨old, isOld, -, rfl⟩ := mem_updated.mp mem
        have isD := keyed.unique isOld (Record.get?_mem_values h) (eq.trans isKey)
        rw [isD]
      · exact .inl (mem_updated.mpr ⟨d, Record.get?_mem_values h, checked, rfl⟩)
      · exact isKey.symm
    · rw [if_neg checked, ← h]
      apply putDenominations_other
      intro y mem eq
      obtain ⟨old, isOld, isChecked, rfl⟩ := mem_updated.mp mem
      have isD := keyed.unique isOld (Record.get?_mem_values h) (eq.trans isKey)
      exact checked (isD ▸ isChecked)

end Writing

section Selecting

def refreshSelection (surroundings : Surroundings) (wallet : WalletStores) (coinPub : String) :
    Option DenominationSelectionInfo := do
  let coin ← wallet.coins.get? coinPub
  let denom ← wallet.denominations.get? (coin.exchangeBaseUrl, coin.denomPubHash)
  guard (coin.currency = denom.currency)
  selectWithdrawalDenominations surroundings denom.currency
    (Amounts.sub coin.currentAmount denom.feeRefresh).amount
    (getCandidateWithdrawalDenoms surroundings coin.exchangeBaseUrl wallet)

def refreshSelections (surroundings : Surroundings) :
    List String → WalletStores → List DenominationSelectionInfo
  | [], _ => []
  | coinPub :: rest, wallet =>
    (refreshSelection surroundings wallet coinPub).toList ++
      match refreshCoin surroundings wallet coinPub with
      | none => []
      | some (_, wallet) => refreshSelections surroundings rest wallet

def sessionSelection (surroundings : Surroundings) (refreshGroupId : String) (coinIndex : Nat)
    (wallet : WalletStores) : Option DenominationSelectionInfo := do
  let (_, refreshing) ← wallet.refreshing refreshGroupId coinIndex
  if refreshing.status = .finished || refreshing.refreshSession.isSome then none
  else
    let coin ← wallet.coins.get? refreshing.oldCoinPub
    let oldDenom ← wallet.denominations.get? (coin.exchangeBaseUrl, coin.denomPubHash)
    guard (oldDenom.currency = refreshing.currency)
    selectWithdrawalDenominations surroundings refreshing.currency
      (Amounts.sub refreshing.input oldDenom.feeRefresh).amount
      (wallet.denominationsOf coin.exchangeBaseUrl)

inductive ValidationCall where
  | updateWithdrawalDenoms (surroundings : Surroundings)
      (isValidDenom : DenominationRecord → Bool) (exchangeBaseUrl : String)
  | getExchangeWithdrawalInfo (validating selecting : Surroundings)
      (isValidDenom : DenominationRecord → Bool) (baseUrl currency : String) (amount : AmountJson)
  | createRefreshGroup (surroundings : Surroundings) (refreshGroupId : String)
      (oldCoinPubs : List String)
  | refreshCreateSession (surroundings : Surroundings) (refreshGroupId : String)
      (coinIndex : Nat)
  | other

/-- Other transactions, also those that update an exchange, leave the verification status. -/
structure StatusKept (wallet wallet' : WalletStores) : Prop where
  keyPaths : wallet.KeyPaths → wallet'.KeyPaths
  status : ∀ key d, wallet.denominations.get? key = some d → ∃ d',
    wallet'.denominations.get? key = some d' ∧ d'.verificationStatus = d.verificationStatus

/-- A call, with the selections that it makes; a call that fails stores nothing. -/
def ValidationStep (wallet : WalletStores)
    (event : ValidationCall × List DenominationSelectionInfo) (wallet' : WalletStores) : Prop :=
  match event.1 with
  | .updateWithdrawalDenoms surroundings isValidDenom exchangeBaseUrl =>
    wallet' = updateWithdrawalDenoms surroundings isValidDenom exchangeBaseUrl wallet ∧
      event.2 = []
  | .getExchangeWithdrawalInfo validating selecting isValidDenom baseUrl currency amount =>
    getExchangeWithdrawalInfo validating selecting isValidDenom baseUrl currency amount wallet =
      (wallet', event.2.head?) ∧ event.2.length ≤ 1
  | .createRefreshGroup surroundings refreshGroupId oldCoinPubs =>
    (createRefreshGroup surroundings refreshGroupId oldCoinPubs wallet).getD wallet = wallet' ∧
      event.2 = refreshSelections surroundings oldCoinPubs wallet
  | .refreshCreateSession surroundings refreshGroupId coinIndex =>
    (refreshCreateSession surroundings refreshGroupId coinIndex wallet).getD wallet = wallet' ∧
      event.2 = (sessionSelection surroundings refreshGroupId coinIndex wallet).toList
  | .other => StatusKept wallet wallet' ∧ event.2 = []

variable {surroundings env : Surroundings} {wallet w wallet' w' : WalletStores}

theorem refreshCreateSession_selects {gid : String} {idx : Nat}
    (r : refreshCreateSession env gid idx w = some w') : w' = w ∨ ∃ rg busy sel,
      w.refreshing gid idx = some (rg, busy) ∧
      sessionSelection env gid idx w = some sel ∧ w' = w.putGroup gid
        (if sel.selectedDenoms.isEmpty then
          (rg.setStatus idx .finished).updateGroupStatus env.now
        else rg.setSession idx (newSession sel)) := by
  obtain ⟨⟨rg, busy⟩, isRefreshing, r⟩ := Option.bind_eq_some_iff.mp r
  dsimp only at r
  split at r
  next =>
    cases r
    exact .inl rfl
  next due =>
    obtain ⟨c, isC, r⟩ := Option.bind_eq_some_iff.mp r
    obtain ⟨oldDenom, isDenom, r⟩ := Option.bind_eq_some_iff.mp r
    obtain ⟨_, same, r⟩ := Option.bind_eq_some_iff.mp r
    obtain ⟨sel, selected, r⟩ := Option.bind_eq_some_iff.mp r
    right
    refine ⟨rg, busy, sel, isRefreshing, ?_, ?_⟩
    · apply Option.bind_eq_some_iff.mpr ⟨_, isRefreshing, ?_⟩
      dsimp only
      rw [if_neg due]
      apply Option.bind_eq_some_iff.mpr ⟨c, isC, ?_⟩
      apply Option.bind_eq_some_iff.mpr ⟨oldDenom, isDenom, ?_⟩
      exact Option.bind_eq_some_iff.mpr ⟨_, same, selected⟩
    split at r
    next none =>
      cases r
      rw [if_pos none]
    next some =>
      cases r
      rw [if_neg some]

end Selecting

section Runs

/-- The wallet, and which denominations have been checked and found bad. -/
structure ValidatedStores where
  wallet : WalletStores
  foundBad : String × String → Prop

def FindsBad (wallet : WalletStores) (call : ValidationCall) (key : String × String) : Prop :=
  match call with
  | .updateWithdrawalDenoms surroundings isValidDenom exchangeBaseUrl
  | .getExchangeWithdrawalInfo surroundings _ isValidDenom exchangeBaseUrl _ _ =>
    ∃ d, wallet.denominations.get? key = some d ∧
      d.isChecked surroundings exchangeBaseUrl ∧ isValidDenom d = false
  | _ => False

def ValidatedStep (state : ValidatedStores)
    (event : ValidationCall × List DenominationSelectionInfo) (next : ValidatedStores) : Prop :=
  ValidationStep state.wallet event next.wallet ∧
    ∀ key, next.foundBad key ↔ state.foundBad key ∨ FindsBad state.wallet event.1 key

def NoBadCandidate (surroundings : Surroundings) (exchangeBaseUrl : String)
    (wallet : WalletStores) : Prop :=
  ∀ key d, wallet.denominations.get? key = some d → d.exchangeBaseUrl = exchangeBaseUrl →
    isWithdrawableDenom surroundings d → d.verificationStatus ≠ .verifiedBad

/-- The denominations that could be selected are good, or are checked and found good. -/
def GoodCandidates (validating selecting : Surroundings)
    (isValidDenom : DenominationRecord → Bool) (baseUrl : String) (wallet : WalletStores) : Prop :=
  ∀ key d, wallet.denominations.get? key = some d → d.exchangeBaseUrl = baseUrl →
    isWithdrawableDenom selecting d →
    d.verificationStatus = .verifiedGood ∨
      d.verificationStatus = .unverified ∧ isWithdrawableDenom validating d ∧ isValidDenom d

def ValidationCondition (state : ValidatedStores)
    (event : ValidationCall × List DenominationSelectionInfo) : Prop :=
  match event.1 with
  | .getExchangeWithdrawalInfo validating selecting isValidDenom baseUrl _ _ =>
    GoodCandidates validating selecting isValidDenom baseUrl state.wallet
  | .createRefreshGroup surroundings _ oldCoinPubs =>
    ∀ coinPub ∈ oldCoinPubs, ∀ coin, state.wallet.coins.get? coinPub = some coin →
      NoBadCandidate surroundings coin.exchangeBaseUrl state.wallet
  | .refreshCreateSession surroundings refreshGroupId coinIndex =>
    ∀ rg refreshing coin,
      state.wallet.refreshing refreshGroupId coinIndex = some (rg, refreshing) →
      state.wallet.coins.get? refreshing.oldCoinPub = some coin →
      NoBadCandidate surroundings coin.exchangeBaseUrl state.wallet
  | _ => True

variable {wallet w wallet' w' : WalletStores} {surroundings env : Surroundings}
  {isValidDenom : DenominationRecord → Bool}

structure BadKept (wallet wallet' : WalletStores) : Prop where
  keyPaths : wallet.KeyPaths → wallet'.KeyPaths
  bad : wallet.KeyPaths → ∀ key d, wallet.denominations.get? key = some d →
    d.verificationStatus = .verifiedBad → ∃ d', wallet'.denominations.get? key = some d' ∧
      d'.verificationStatus = .verifiedBad

theorem BadKept.ofSame (eq : wallet'.denominations = w.denominations) : BadKept w wallet' := by
  constructor
  · intro keyed key d h
    rw [eq] at h
    exact keyed key d h
  intro _ key d h bad
  rw [eq]
  exact ⟨d, h, bad⟩

theorem updateWithdrawalDenoms_badKept (url : String) :
    BadKept w (updateWithdrawalDenoms env isValidDenom url w) := by
  constructor
  · intro keyed key d h
    rw [updateWithdrawalDenoms_get? keyed] at h
    obtain ⟨old, isOld, rfl⟩ := Option.map_eq_some_iff.mp h
    rw [keyed key old isOld]
    split
    next => rfl
    next => rfl
  · intro keyed key d h bad
    rw [updateWithdrawalDenoms_get? keyed, h, Option.map_some]
    refine ⟨d, ?_, bad⟩
    simp [DenominationRecord.isChecked, bad]

theorem createRefreshGroup_denominations {gid : String} {oldCoinPubs : List String} :
    ((createRefreshGroup env gid oldCoinPubs w).getD w).denominations = w.denominations := by
  cases made : createRefreshGroup env gid oldCoinPubs w with
  | none => rfl
  | some w' => exact (createRefreshGroup_over made).denominations

theorem refreshCreateSession_denominations {gid : String} {idx : Nat} :
    ((refreshCreateSession env gid idx w).getD w).denominations = w.denominations := by
  cases made : refreshCreateSession env gid idx w with
  | none => rfl
  | some w' =>
    rcases refreshCreateSession_selects made with rfl | ⟨rg, busy, sel, -, -, rfl⟩
    · rfl
    · rfl

variable {event ev : ValidationCall × List DenominationSelectionInfo}

theorem validationStep_badKept (step : ValidationStep w ev wallet') : BadKept w wallet' := by
  obtain ⟨call, selections⟩ := ev
  cases call with
  | updateWithdrawalDenoms env isValidDenom url =>
    obtain ⟨rfl, -⟩ := step
    exact updateWithdrawalDenoms_badKept url
  | getExchangeWithdrawalInfo validating selecting isValidDenom baseUrl cur amount =>
    obtain ⟨res, -⟩ := step
    cases congrArg Prod.fst res
    exact updateWithdrawalDenoms_badKept baseUrl
  | createRefreshGroup env groupId oldCoinPubs =>
    obtain ⟨rfl, -⟩ := step
    exact .ofSame createRefreshGroup_denominations
  | refreshCreateSession env groupId idx =>
    obtain ⟨rfl, -⟩ := step
    exact .ofSame refreshCreateSession_denominations
  | other =>
    obtain ⟨kept, -⟩ := step
    refine ⟨kept.keyPaths, ?_⟩
    intro _ key d got bad
    obtain ⟨d', found', st⟩ := kept.status key d got
    exact ⟨d', found', st.trans bad⟩

theorem findsBad_stored {key : String × String} (keyed : w.KeyPaths)
    (step : ValidationStep w ev w') (finds : FindsBad w ev.1 key) :
    ∃ d, w'.denominations.get? key = some d ∧ d.verificationStatus = .verifiedBad := by
  have validated : ∀ {env isValidDenom url}, (∃ d, w.denominations.get? key = some d ∧
        d.isChecked env url ∧ isValidDenom d = false) →
      ∃ d, (updateWithdrawalDenoms env isValidDenom url
        w).denominations.get? key = some d ∧ d.verificationStatus = .verifiedBad := by
    rintro env isValidDenom url ⟨d, got, checked, invalid⟩
    rw [updateWithdrawalDenoms_get? keyed, got, Option.map_some, if_pos checked]
    refine ⟨_, rfl, ?_⟩
    rw [DenominationRecord.validated, invalid]
    rfl
  obtain ⟨call, selections⟩ := ev
  cases call with
  | updateWithdrawalDenoms env isValidDenom url =>
    obtain ⟨rfl, -⟩ := step
    exact validated finds
  | getExchangeWithdrawalInfo validating selecting isValidDenom baseUrl cur amount =>
    obtain ⟨res, -⟩ := step
    cases congrArg Prod.fst res
    exact validated finds
  | createRefreshGroup => cases finds
  | refreshCreateSession => cases finds
  | other => cases finds

variable {selection sel : DenominationSelectionInfo}

theorem selected_withdrawable {cur : String} {amount : AmountJson} {ds : List DenominationRecord}
    (r : selectWithdrawalDenominations env cur amount ds = some sel) :
    ∀ d ∈ sel.selectedDenoms, d.2 ∈ ds ∧ isWithdrawableDenom env d.2 := by
  intro d mem
  unfold selectWithdrawalDenominations at r
  dsimp only at r
  split at r
  next =>
    rcases selectDenoms_mem r d mem with none | sorted
    · cases none
    · exact mem_filter.mp ((mem_insertionSort _).mp sorted)
  next => cases r

/-- A selected denomination is stored, and it is one of those that could be selected. -/
structure Selectable (surroundings : Surroundings) (exchangeBaseUrl : String)
    (wallet : WalletStores) (d : DenominationRecord) : Prop where
  stored : d ∈ wallet.denominations.values
  ofExchange : d.exchangeBaseUrl = exchangeBaseUrl
  withdrawable : isWithdrawableDenom surroundings d

theorem selected_selectable {url cur : String} {amount : AmountJson}
    {ds : List DenominationRecord} (fromStore : ∀ d ∈ ds, d ∈ w.denominationsOf url)
    (r : selectWithdrawalDenominations env cur amount ds = some sel) :
    ∀ d ∈ sel.selectedDenoms, Selectable env url w d.2 := by
  intro d mem
  obtain ⟨given, able⟩ := selected_withdrawable r d mem
  obtain ⟨kept, ofExchange⟩ := mem_filter.mp (fromStore d.2 given)
  exact ⟨kept, of_decide_eq_true ofExchange, able⟩

theorem refreshSelection_selectable {pub : String} (r : refreshSelection env w pub = some sel) :
    ∃ c, w.coins.get? pub = some c ∧ ∀ d ∈ sel.selectedDenoms,
      Selectable env c.exchangeBaseUrl w d.2 := by
  obtain ⟨c, isC, r⟩ := Option.bind_eq_some_iff.mp r
  obtain ⟨dn, -, r⟩ := Option.bind_eq_some_iff.mp r
  obtain ⟨_, -, r⟩ := Option.bind_eq_some_iff.mp r
  refine ⟨c, isC, ?_⟩
  exact selected_selectable (fun d mem => (mem_filter.mp mem).1) r

theorem refreshCoin_exchange {pub y : String} {busy : RefreshingCoin} {coin' : CoinRecord}
    (r : refreshCoin env w pub = some (busy, w')) (h : w'.coins.get? y = some coin') :
    w'.denominations = w.denominations ∧ ∃ c, w.coins.get? y = some c ∧
      coin'.exchangeBaseUrl = c.exchangeBaseUrl := by
  obtain ⟨c, isC, r⟩ := Option.bind_eq_some_iff.mp r
  obtain ⟨dn, isDenom, r⟩ := Option.bind_eq_some_iff.mp r
  obtain ⟨_, -, r⟩ := Option.bind_eq_some_iff.mp r
  obtain ⟨cost, -, r⟩ := Option.bind_eq_some_iff.mp r
  cases r
  refine ⟨rfl, ?_⟩
  by_cases eq : y = pub
  · subst eq
    have isCoin' : some c.putToSleep = some coin' := (Record.get?_set_self w.coins y _).symm.trans h
    cases isCoin'
    exact ⟨c, isC, rfl⟩
  have isCoin' : w.coins.get? y = some coin' :=
    (Record.get?_set_of_ne w.coins c.putToSleep eq).symm.trans h
  exact ⟨coin', isCoin', rfl⟩

theorem refreshSelections_selectable {oldCoinPubs : List String} :
    ∀ {w : WalletStores}, ∀ sel ∈ refreshSelections env oldCoinPubs w,
      ∃ pub ∈ oldCoinPubs, ∃ c, w.coins.get? pub = some c ∧ ∀ d ∈ sel.selectedDenoms,
          Selectable env c.exchangeBaseUrl w d.2 := by
  induction oldCoinPubs with
  | nil =>
    intro w sel mem
    cases mem
  | cons pub rest ih =>
    intro w sel mem
    rcases mem_append.mp mem with now | later
    · obtain ⟨c, isC, selectable⟩ := refreshSelection_selectable (Option.mem_toList.mp now)
      exact ⟨pub, mem_cons_self, c, isC, selectable⟩
    cases refreshed : refreshCoin env w pub with
    | none =>
      rw [refreshed] at later
      cases later
    | some res =>
      rw [refreshed] at later
      obtain ⟨y, isO, coin', isCoin', selectable⟩ := ih sel later
      obtain ⟨eq, c, isC, exchange⟩ := refreshCoin_exchange refreshed isCoin'
      refine ⟨y, mem_cons_of_mem _ isO, c, isC, ?_⟩
      intro d isSelected
      obtain ⟨kept, ofExchange, able⟩ := selectable d isSelected
      exact ⟨eq ▸ kept, ofExchange.trans exchange, able⟩

theorem sessionSelection_selectable {gid : String} {idx : Nat}
    (r : sessionSelection env gid idx w = some sel) :
    ∃ rg busy c, w.refreshing gid idx = some (rg, busy) ∧
      w.coins.get? busy.oldCoinPub = some c ∧ ∀ d ∈ sel.selectedDenoms,
        Selectable env c.exchangeBaseUrl w d.2 := by
  obtain ⟨⟨rg, busy⟩, isRefreshing, r⟩ := Option.bind_eq_some_iff.mp r
  dsimp only at r
  split at r
  next => cases r
  next =>
    obtain ⟨c, isC, r⟩ := Option.bind_eq_some_iff.mp r
    obtain ⟨oldDenom, -, r⟩ := Option.bind_eq_some_iff.mp r
    obtain ⟨_, -, r⟩ := Option.bind_eq_some_iff.mp r
    exact ⟨rg, busy, c, isRefreshing, isC, selected_selectable (fun _ mem => mem) r⟩

/-- What a careful step selects is stored and not bad; for a withdrawal it is good. -/
theorem validationStep_selects {st : ValidatedStores} (keyed : st.wallet.KeyPaths)
    (cond : ValidationCondition st ev) (step : ValidationStep st.wallet ev w') :
    ∀ selection ∈ ev.2, ∀ d ∈ selection.selectedDenoms,
      d.2 ∈ w'.denominations.values ∧ d.2.verificationStatus ≠ .verifiedBad ∧
      ∀ validating selecting isValidDenom baseUrl cur amount,
        ev.1 = .getExchangeWithdrawalInfo validating selecting isValidDenom baseUrl cur
          amount → d.2.verificationStatus = .verifiedGood := by
  obtain ⟨call, selections⟩ := ev
  intro selection mem d isSelected
  cases call with
  | updateWithdrawalDenoms env isValidDenom url =>
    obtain ⟨-, none⟩ := step
    rw [none] at mem
    cases mem
  | getExchangeWithdrawalInfo validating selecting isValidDenom baseUrl cur amount =>
    obtain ⟨res, short⟩ := step
    have isHead : selections.head? = some selection := by
      cases selections with
      | nil => cases mem
      | cons x rest =>
        cases rest with
        | nil => rw [mem_singleton.mp mem, head?_cons]
        | cons => simp at short
    cases congrArg Prod.fst res
    have ran := (congrArg Prod.snd res).trans isHead
    have isSelection := (Option.filter_eq_some_iff.mp ran).1
    obtain ⟨kept, ofExchange, able⟩ := selected_selectable
      (fun d mem => (mem_filter.mp mem).1) isSelection d isSelected
    have good : d.2.verificationStatus = .verifiedGood := by
      obtain ⟨key, got⟩ := Record.mem_values_iff.mp kept
      rw [updateWithdrawalDenoms_get? keyed] at got
      obtain ⟨old, isOld, eq⟩ := Option.map_eq_some_iff.mp got
      have sameParts : d.2.exchangeBaseUrl = old.exchangeBaseUrl ∧
          isWithdrawableDenom selecting d.2 = isWithdrawableDenom selecting old := by
        rw [← eq]
        split
        next => exact ⟨rfl, rfl⟩
        next => exact ⟨rfl, rfl⟩
      rw [← eq]
      rcases cond key old isOld (sameParts.1.symm.trans ofExchange)
        (sameParts.2 ▸ able) with isGood | ⟨unverified, pre, valid⟩
      · rw [if_neg]
        · exact isGood
        · simp [DenominationRecord.isChecked, isGood]
      rw [if_pos]
      · rw [DenominationRecord.validated, if_pos valid]
      · simp [DenominationRecord.isChecked, unverified, pre, sameParts.1.symm.trans ofExchange]
    refine ⟨kept, ?_, fun _ _ _ _ _ _ _ => good⟩
    rw [good]
    nofun
  | createRefreshGroup env groupId oldCoinPubs =>
    obtain ⟨rfl, isSelections⟩ := step
    rw [isSelections] at mem
    obtain ⟨pub, isPub, coin, isCoin, selectable⟩ := refreshSelections_selectable selection mem
    obtain ⟨kept, ofExchange, able⟩ := selectable d isSelected
    obtain ⟨key, got⟩ := Record.mem_values_iff.mp kept
    refine ⟨?_, cond pub isPub coin isCoin key d.2 got ofExchange able, nofun⟩
    rw [createRefreshGroup_denominations]
    exact kept
  | refreshCreateSession env groupId idx =>
    obtain ⟨rfl, isSelections⟩ := step
    rw [isSelections, Option.mem_toList] at mem
    obtain ⟨rg, busy, coin, isRefreshing, isCoin, selectable⟩ :=
      sessionSelection_selectable mem
    obtain ⟨kept, ofExchange, able⟩ := selectable d isSelected
    obtain ⟨key, got⟩ := Record.mem_values_iff.mp kept
    refine ⟨?_, cond rg busy coin isRefreshing isCoin key d.2 got ofExchange
      able, nofun⟩
    rw [refreshCreateSession_denominations]
    exact kept
  | other =>
    obtain ⟨-, none⟩ := step
    rw [none] at mem
    cases mem

structure FoundBadStored (state : ValidatedStores) : Prop where
  keyPaths : state.wallet.KeyPaths
  stored : ∀ key, state.foundBad key → ∃ d, state.wallet.denominations.get? key = some d ∧
    d.verificationStatus = .verifiedBad

theorem validatedStep_stored {st next : ValidatedStores} (pre : FoundBadStored st)
    (step : ValidatedStep st ev next) : FoundBadStored next := by
  obtain ⟨step, foundBad⟩ := step
  have kept := validationStep_badKept step
  refine ⟨kept.keyPaths pre.keyPaths, ?_⟩
  intro key h
  rcases (foundBad key).mp h with old | new
  · obtain ⟨d, isStored, bad⟩ := pre.stored key old
    exact kept.bad pre.keyPaths key d isStored bad
  · exact findsBad_stored pre.keyPaths step new

/-- In runs where no bad denomination is a candidate, none that was found bad is selected, and a
withdrawal selects good ones only. -/
theorem bad_denominations_unused {start state : ValidatedStores}
    {events : List (ValidationCall × List DenominationSelectionInfo)}
    (keyed : start.wallet.KeyPaths) (fresh : ∀ key, ¬ start.foundBad key)
    (careful : Run (Guarded ValidationCondition ValidatedStep) start events state) :
    FoundBadStored state ∧ ∀ event next, ValidationCondition state event →
      ValidatedStep state event next → ∀ selection ∈ event.2, ∀ d ∈ selection.selectedDenoms,
        ¬ next.foundBad d.2.keyPath ∧ d.2.verificationStatus ≠ .verifiedBad ∧
        ∀ validating selecting isValidDenom baseUrl currency amount,
          event.1 = .getExchangeWithdrawalInfo validating selecting isValidDenom baseUrl currency
            amount → d.2.verificationStatus = .verifiedGood := by
  have reached : FoundBadStored state := by
    apply careful.invariant FoundBadStored
    · exact ⟨keyed, fun key found => absurd found (fresh key)⟩
    · exact fun _ _ _ before step => validatedStep_stored before step.2
  refine ⟨reached, ?_⟩
  intro event next condition step selection member d isSelected
  obtain ⟨stored, notBad, good⟩ := validationStep_selects reached.keyPaths condition step.1
    selection member d isSelected
  refine ⟨?_, notBad, good⟩
  intro found
  have after := validatedStep_stored reached step
  obtain ⟨bad, isBad, status⟩ := after.stored _ found
  obtain ⟨key, isStored⟩ := Record.mem_values_iff.mp stored
  rw [after.keyPaths key d.2 isStored, isBad] at isStored
  cases isStored
  exact notBad status

end Runs

section Examples

def exampleInfo (isValidDenom : DenominationRecord → Bool) : ValidationCall :=
  .getExchangeWithdrawalInfo exampleSurroundings exampleSurroundings isValidDenom "https://a/"
    "KUDOS" (.ofValue 10)

def exampleUnchecked : ValidatedStores := ⟨exampleTen, fun _ => False⟩

theorem exampleTen_found {key : String × String} {d : DenominationRecord}
    (h : exampleTen.denominations.get? key = some d) : key = ("https://a/", "ten") ∧ d = ten := by
  by_cases eq : key = ("https://a/", "ten")
  · subst eq
    have isTen : some ten = some d :=
      (Record.get?_set_self Record.empty ("https://a/", "ten") ten).symm.trans h
    exact ⟨rfl, (Option.some.inj isTen).symm⟩
  have none : Record.empty.get? key = some d :=
    (Record.get?_set_of_ne Record.empty ten eq).symm.trans h
  cases (Record.get?_empty _).symm.trans none

theorem exampleTen_keyPaths : exampleTen.KeyPaths := by
  intro key d h
  obtain ⟨rfl, rfl⟩ := exampleTen_found h
  rfl

/-- The result of the check is stored, but the candidates are selected without looking at it. -/
theorem bad_denomination_selected : ¬ ∀ (start state next : ValidatedStores) events event,
    start.wallet.KeyPaths → (∀ key, ¬ start.foundBad key) →
    Run ValidatedStep start events state → ValidatedStep state event next →
    ∀ selection ∈ event.2, ∀ d ∈ selection.selectedDenoms, ¬ next.foundBad d.2.keyPath := by
  intro claim
  have selects : (getExchangeWithdrawalInfo exampleSurroundings exampleSurroundings
      (fun _ => false) "https://a/" "KUDOS" (.ofValue 10) exampleTen).2.map
        (fun selection => selection.selectedDenoms.map fun d => (d.1, d.2.keyPath)) =
      some [(1, ("https://a/", "ten"))] := by decide +kernel
  obtain ⟨selection, selected, taken⟩ := Option.map_eq_some_iff.mp selects
  obtain ⟨d, isSelected, same⟩ : ∃ d ∈ selection.selectedDenoms,
      d.2.keyPath = ("https://a/", "ten") := by
    have member : (1, ("https://a/", "ten")) ∈
        selection.selectedDenoms.map fun d => (d.1, d.2.keyPath) := by
      rw [taken]
      exact mem_singleton_self _
    obtain ⟨d, isSelected, same⟩ := List.mem_map.mp member
    exact ⟨d, isSelected, congrArg Prod.snd same⟩
  refine claim exampleUnchecked exampleUnchecked
    ⟨_, FindsBad exampleTen (exampleInfo fun _ => false)⟩ []
    (exampleInfo fun _ => false, [selection]) exampleTen_keyPaths (fun _ found => found) .start
    ⟨⟨Prod.ext rfl selected, le_rfl⟩, fun key => ⟨.inr, ?_⟩⟩ selection
    (mem_singleton_self _) d isSelected ?_
  · rintro (impossible | finds)
    · cases impossible
    · exact finds
  · rw [same]
    exact ⟨ten, Record.get?_set_self _ _ _, by decide, rfl⟩

/-- A valid denomination is selected as a good one. -/
theorem bad_denominations_unused_valid : ∃ selection next,
    ValidatedStep exampleUnchecked (exampleInfo fun _ => true, [selection]) next ∧
    selection.selectedDenoms.length = 1 ∧
    ∀ d ∈ selection.selectedDenoms, d.2.verificationStatus = .verifiedGood := by
  have selects : (getExchangeWithdrawalInfo exampleSurroundings exampleSurroundings
      (fun _ => true) "https://a/" "KUDOS" (.ofValue 10) exampleTen).2.map
        (fun selection => selection.selectedDenoms.length) = some 1 := by decide +kernel
  obtain ⟨selection, selected, length⟩ := Option.map_eq_some_iff.mp selects
  have step : ValidatedStep exampleUnchecked (exampleInfo fun _ => true, [selection])
      ⟨updateWithdrawalDenoms exampleSurroundings (fun _ => true) "https://a/" exampleTen,
        FindsBad exampleTen (exampleInfo fun _ => true)⟩ := by
    refine ⟨⟨Prod.ext rfl selected, le_rfl⟩, fun key => ⟨.inr, ?_⟩⟩
    rintro (impossible | finds)
    · cases impossible
    · exact finds
  have condition : ValidationCondition exampleUnchecked (exampleInfo fun _ => true, [selection]) := by
    intro key d found _ _
    obtain ⟨-, rfl⟩ := exampleTen_found found
    exact .inr ⟨rfl, by decide, rfl⟩
  refine ⟨selection, _, step, length, ?_⟩
  intro d member
  have facts := (bad_denominations_unused exampleTen_keyPaths (fun _ found => found) .start).2
    (exampleInfo fun _ => true, [selection]) _ condition step selection
    (mem_singleton_self _) d member
  exact facts.2.2 _ _ _ _ _ _ rfl

end Examples

end Anastasis.Wallet
