import Anastasis.Wallet.ExchangeUpdates
import Anastasis.Wallet.Promises

/-! What sequences of exchange updates keep of the denominations, of revoked coins, of accepted
terms and of errors. -/

set_option autoImplicit false

namespace Anastasis.Wallet.Exchanges

open Library Library.Transition List

/-! ## Denominations -/

section Denominations

def denominationKey (denom : DenominationRecord) : String × String :=
  (denom.exchangeBaseUrl, denom.denomPubHash)

def Keyed (denominations : Denominations) : Prop :=
  ∀ key denom, denominations.get? key = some denom → denominationKey denom = key

variable {denominations dns denoms ds : Denominations} {baseUrl url : String}

theorem Keyed.put (keyed : Keyed ds) (dn : DenominationRecord) : Keyed (putDenomination ds dn) := by
  intro key y h
  rw [putDenomination, Record.get?_set] at h
  split at h
  next eq =>
    cases h
    exact eq.symm
  next => exact keyed key y h

structure Added (baseUrl : String) (listed : List DenominationRecord)
    (before after : Denominations) : Prop where
  keyed : Keyed after
  kept : ∀ key denom, before.get? key = some denom → after.get? key = some denom
  isNew : ∀ key denom, after.get? key = some denom →
    before.get? key = some denom ∨ (before.get? key = none ∧ denom ∈ listed)
  all : ∀ denom ∈ listed, ∃ stored, after.get? (baseUrl, denom.denomPubHash) = some stored

theorem addDenominations_added {listed : List DenominationRecord} :
    ∀ {ds : Denominations}, Keyed ds → (∀ dn ∈ listed, dn.exchangeBaseUrl = url) →
      Added url listed ds (addDenominations url listed ds) := by
  induction listed with
  | nil =>
    intro ds keyed _
    exact ⟨keyed, fun _ _ h => h, fun _ _ => .inl, fun _ mem => nomatch mem⟩
  | cons first rest ih =>
    intro ds keyed ofExchange
    rw [forall_mem_cons] at ofExchange
    unfold addDenominations
    split
    next stored h =>
      obtain ⟨keyed', kept, isNew, all⟩ := ih keyed ofExchange.2
      refine ⟨keyed', kept, ?_, ?_⟩
      · intro key dn got
        exact (isNew key dn got).imp_right fun ⟨gone, mem⟩ =>
          ⟨gone, mem_cons_of_mem _ mem⟩
      · rw [forall_mem_cons]
        exact ⟨⟨stored, kept _ _ h⟩, all⟩
    next gone =>
      obtain ⟨keyed', kept, isNew, all⟩ := ih (keyed.put first) ofExchange.2
      have isKey : (first.exchangeBaseUrl, first.denomPubHash) = (url, first.denomPubHash) := by
        rw [ofExchange.1]
      have put : (putDenomination ds first).get? (url, first.denomPubHash) = some first := by
        rw [putDenomination, isKey, Record.get?_set_self]
      refine ⟨keyed', ?_, ?_, ?_⟩
      · intro key dn h
        apply kept
        rw [putDenomination, isKey, Record.get?_set_of_ne]
        · exact h
        · intro eq
          cases (eq ▸ h).symm.trans gone
      · intro key dn got
        rcases isNew key dn got with pre | ⟨missing, mem⟩
        · rw [putDenomination, isKey, Record.get?_set] at pre
          split at pre
          next eq =>
            cases pre
            exact .inr ⟨eq ▸ gone, mem_cons_self⟩
          next => exact .inl pre
        rw [putDenomination, isKey, Record.get?_set] at missing
        split at missing
        next => cases missing
        next => exact .inr ⟨missing, mem_cons_of_mem _ mem⟩
      · rw [forall_mem_cons]
        exact ⟨⟨first, kept _ _ put⟩, all⟩

variable (currentDenomSet : List String) (listIssueDate : Timestamp)

theorem listDenomination_key (denom : DenominationRecord) :
    denominationKey (listDenomination currentDenomSet listIssueDate denom) =
      denominationKey denom := by
  unfold listDenomination
  split <;> rfl

theorem listDenomination_isRevoked (dn : DenominationRecord) :
    (listDenomination currentDenomSet listIssueDate dn).isRevoked = dn.isRevoked := by
  unfold listDenomination
  split <;> rfl

theorem listDenomination_isOffered (dn : DenominationRecord) :
    (listDenomination currentDenomSet listIssueDate dn).isOffered = true ↔
      dn.denomPubHash ∈ currentDenomSet := by
  unfold listDenomination
  split
  next listed => exact ⟨fun _ => listed, fun _ => rfl⟩
  next unlisted => exact ⟨nofun, fun listed => absurd listed unlisted⟩

variable {currentDenomSet listIssueDate}

theorem foldl_put_get? (ds : Denominations) {list : DenominationRecord → DenominationRecord}
    (sameKey : ∀ dn, denominationKey (list dn) = denominationKey dn)
    {kept : List DenominationRecord} (h : ∀ dn ∈ kept, ds.get? (denominationKey dn) = some dn)
    (key : String × String) : ∀ cur : Denominations,
    (kept.foldl (fun kept x => putDenomination kept (list x)) cur).get? key =
      if key ∈ kept.map denominationKey then (ds.get? key).map list
      else cur.get? key := by
  induction kept with
  | nil => exact fun cur => (if_neg (not_mem_nil)).symm
  | cons first rest ih =>
    intro cur
    rw [forall_mem_cons] at h
    rw [foldl_cons, ih h.2, map_cons]
    have isKey : ((list first).exchangeBaseUrl, (list first).denomPubHash) =
        denominationKey first := sameKey first
    by_cases later : key ∈ rest.map denominationKey
    · rw [if_pos later, if_pos (mem_cons_of_mem _ later)]
    rw [if_neg later, putDenomination, isKey, Record.get?_set]
    by_cases eq : key = denominationKey first
    · rw [if_pos eq, if_pos (eq ▸ mem_cons_self), eq, h.1, Option.map_some]
    rw [if_neg eq, if_neg]
    intro mem
    rcases mem_cons.mp mem with isFirst | isLater
    · exact eq isFirst
    · exact later isLater

theorem listDenominations_get? (keyed : Keyed ds) (key : String × String) :
    (listDenominations url currentDenomSet listIssueDate ds).get? key = if key.1 = url then
        (ds.get? key).map (listDenomination currentDenomSet listIssueDate)
      else ds.get? key := by
  have h : ∀ denom ∈ ds.values.filter fun x => x.exchangeBaseUrl = url,
      ds.get? (denominationKey denom) = some denom := by
    intro denom mem
    obtain ⟨y, isO⟩ := Record.mem_values_iff.mp (mem_filter.mp mem).1
    rw [keyed y denom isO]
    exact isO
  rw [listDenominations, foldl_put_get? ds (listDenomination_key _ _) h]
  by_cases ofExchange : key.1 = url
  · rw [if_pos ofExchange]
    cases isStored : ds.get? key with
    | none => exact ite_self _
    | some denom =>
      rw [if_pos]
      refine List.mem_map.mpr ⟨denom, mem_filter.mpr ⟨?_, ?_⟩, keyed key denom isStored⟩
      · exact Record.mem_values_iff.mpr ⟨key, isStored⟩
      have isKey := keyed key denom isStored
      rw [← ofExchange, ← isKey]
      exact decide_eq_true rfl
  · rw [if_neg ofExchange, if_neg]
    intro mem
    obtain ⟨denom, isDenom, isKey⟩ := List.mem_map.mp mem
    exact ofExchange (isKey ▸ of_decide_eq_true (mem_filter.mp isDenom).2)

theorem listDenominations_keyed (keyed : Keyed ds) :
    Keyed (listDenominations url currentDenomSet listIssueDate ds) := by
  intro key dn h
  rw [listDenominations_get? keyed] at h
  split at h
  next =>
    obtain ⟨old, isOld, eq⟩ := Option.map_eq_some_iff.mp h
    rw [← eq, listDenomination_key]
    exact keyed key old isOld
  next => exact keyed key dn h

end Denominations

/-! ## Revoked denominations -/

section Revoking

def Revoked (denominations : Denominations) (key : String × String) : Prop :=
  ∃ denom, denominations.get? key = some denom ∧ denom.isRevoked = true

def Valid (denominations : Denominations) (key : String × String) : Prop :=
  ∃ denom, denominations.get? key = some denom ∧ denom.isRevoked = false

variable {denominations dns denoms ds : Denominations} {baseUrl url : String} {coins cs : Record String CoinRecord}

theorem Revoked.not_valid {key : String × String} (revoked : Revoked denominations key) :
    ¬ Valid denominations key := by
  obtain ⟨dn, h, isRevoked⟩ := revoked
  rintro ⟨eq, isSame, isValid⟩
  cases h.symm.trans isSame
  cases isRevoked.symm.trans isValid

structure Revoking (baseUrl : String) (coins : Record String CoinRecord) (revoked : List String)
    (collected : List String) (before after : Denominations) (collected' : List String) : Prop where
  keyed : Keyed after
  stored : ∀ key, (after.get? key).map (fun denom => denom.isOffered) =
    (before.get? key).map fun denom => denom.isOffered
  marked : ∀ key, Revoked after key ↔ Revoked before key ∨
    (key.1 = baseUrl ∧ key.2 ∈ revoked ∧ Valid before key)
  coinPubs : ∀ coinPub, coinPub ∈ collected' ↔ coinPub ∈ collected ∨
    ∃ hash ∈ revoked, Valid before (baseUrl, hash) ∧
      ∃ coin ∈ coins.values, coin.denomPubHash = hash ∧ coin.coinPub = coinPub

theorem Revoking.skip {hash : String} {revoked collected collected' : List String}
    {after : Denominations} (invalid : ¬ Valid ds (url, hash))
    (rest : Revoking url cs revoked collected ds after collected') :
    Revoking url cs (hash :: revoked) collected ds after collected' := by
  refine ⟨rest.keyed, rest.stored, ?_, ?_⟩
  · intro key
    rw [rest.marked]
    refine or_congr_right ⟨?_, ?_⟩
    · exact fun ⟨ofExchange, mem, isValid⟩ =>
      ⟨ofExchange, mem_cons_of_mem _ mem, isValid⟩
    rintro ⟨rfl, mem, isValid⟩
    rcases mem_cons.mp mem with eq | later
    · exact absurd (eq ▸ isValid) invalid
    · exact ⟨rfl, later, isValid⟩
  · intro pub
    rw [rest.coinPubs, exists_mem_cons_iff]
    refine or_congr_right ⟨.inr, ?_⟩
    rintro (⟨isValid, _⟩ | later)
    · exact absurd isValid invalid
    · exact later

theorem revoked_put (denom : DenominationRecord) (key : String × String) :
    Revoked (putDenomination denominations (revokeDenomination denom)) key ↔
      key = denominationKey denom ∨ Revoked denominations key := by
  have isKey : ((revokeDenomination denom).exchangeBaseUrl,
      (revokeDenomination denom).denomPubHash) = denominationKey denom := rfl
  unfold Revoked
  rw [putDenomination, isKey, Record.get?_set]
  by_cases eq : key = denominationKey denom
  · rw [if_pos eq]
    exact ⟨fun _ => .inl eq, fun _ => ⟨_, rfl, rfl⟩⟩
  · rw [if_neg eq]
    exact ⟨.inr, fun either => either.resolve_left eq⟩

theorem valid_put (denom : DenominationRecord) (key : String × String) :
    Valid (putDenomination denominations (revokeDenomination denom)) key ↔
      key ≠ denominationKey denom ∧ Valid denominations key := by
  have isKey : ((revokeDenomination denom).exchangeBaseUrl,
      (revokeDenomination denom).denomPubHash) = denominationKey denom := rfl
  unfold Valid
  rw [putDenomination, isKey, Record.get?_set]
  by_cases eq : key = denominationKey denom
  · rw [if_pos eq]
    constructor
    · rintro ⟨_, isNew, isValid⟩
      cases isNew
      cases isValid
    · exact fun ⟨ne, _⟩ => absurd eq ne
  · rw [if_neg eq]
    exact ⟨fun isValid => ⟨eq, isValid⟩, fun ⟨_, isValid⟩ => isValid⟩

theorem revokeDenominations_revoking {revoked : List String} :
    ∀ {ds : Denominations} {collected : List String}, Keyed ds →
      Revoking url cs revoked collected ds (revokeDenominations url cs revoked collected ds).1
        (revokeDenominations url cs revoked collected ds).2 := by
  induction revoked with
  | nil =>
    intro ds collected keyed
    refine ⟨keyed, fun _ => rfl, ?_, ?_⟩
    · exact fun key => ⟨.inl, fun either => either.resolve_right fun inside => nomatch inside.2.1⟩
    refine fun coinPub => ⟨.inl, fun either => either.resolve_right ?_⟩
    rintro ⟨_, mem, _⟩
    cases mem
  | cons hash rest ih =>
    intro ds collected keyed
    unfold revokeDenominations
    split
    next gone =>
      apply Revoking.skip
      · rintro ⟨_, h, _⟩
        cases gone.symm.trans h
      · exact ih keyed
    next dn h =>
      split
      next isRevoked =>
        exact .skip (Revoked.not_valid ⟨dn, h, isRevoked⟩) (ih keyed)
      next unrevoked =>
        have isKey : denominationKey dn = (url, hash) := keyed _ dn h
        have isValid : Valid ds (url, hash) := ⟨dn, h, Bool.eq_false_iff.mpr unrevoked⟩
        obtain ⟨keyed', kept, marked, cps⟩ :=
          @ih _ (collected ++ (cs.values.filter fun c => c.denomPubHash = hash).map
            Backup.CoinRecord.coinPub) (keyed.put (revokeDenomination dn))
        refine ⟨keyed', ?_, ?_, ?_⟩
        · intro key
          rw [kept, putDenomination, Record.get?_set]
          split
          next eq =>
            have isStored : key = (url, hash) := eq.trans isKey
            rw [isStored, h]
            rfl
          next => rfl
        · intro key
          rw [marked, revoked_put, isKey]
          constructor
          · rintro ((rfl | pre) | ⟨ofExchange, mem, later⟩)
            · exact .inr ⟨rfl, mem_cons_self, isValid⟩
            · exact .inl pre
            · exact .inr ⟨ofExchange, mem_cons_of_mem _ mem, ((valid_put dn key).mp later).2⟩
          rintro (pre | ⟨ofExchange, mem, later⟩)
          · exact .inl (.inr pre)
          by_cases eq : key = (url, hash)
          · exact .inl (.inl eq)
          refine .inr ⟨ofExchange, ?_, (valid_put dn key).mpr ⟨isKey ▸ eq, later⟩⟩
          rcases mem_cons.mp mem with isHash | isLater
          · exact absurd (Prod.ext ofExchange isHash) eq
          · exact isLater
        · intro coinPub
          have affected : coinPub ∈ ((cs.values.filter fun c =>
              c.denomPubHash = hash).map Backup.CoinRecord.coinPub) ↔
              ∃ c ∈ cs.values, c.denomPubHash = hash ∧ c.coinPub = coinPub := by
            simp only [List.mem_map, mem_filter, decide_eq_true_eq, and_assoc]
          rw [cps, mem_append, exists_mem_cons_iff, affected, or_assoc]
          refine or_congr_right ⟨?_, ?_⟩
          · rintro (ofHash | ⟨y, mem, later, ofOther⟩)
            · exact .inl ⟨isValid, ofHash⟩
            · exact .inr ⟨y, mem, ((valid_put dn _).mp later).2, ofOther⟩
          rintro (⟨_, ofHash⟩ | ⟨y, mem, still, ofOther⟩)
          · exact .inl ofHash
          by_cases eq : y = hash
          · exact .inl (eq ▸ ofOther)
          refine .inr ⟨y, mem, (valid_put dn _).mpr ⟨?_, still⟩, ofOther⟩
          rw [isKey]
          exact fun equal => eq (Prod.mk.inj equal).2

end Revoking

/-! ## New recoup groups -/

section Recouping

def coinIdentity (coin : CoinRecord) : String × String × String :=
  (coin.coinPub, coin.exchangeBaseUrl, coin.denomPubHash)

def CoinsKeyed (coins : Record String CoinRecord) : Prop :=
  ∀ coinPub coin, coins.get? coinPub = some coin → coin.coinPub = coinPub

/-- Only coins and one recoup group are changed, and the coins stay where they belong. -/
structure Recouping (recoupGroupId : String) (before after : ExchangeStores) : Prop where
  exchanges : after.exchanges = before.exchanges
  exchangeDetails : after.exchangeDetails = before.exchangeDetails
  denominations : after.denominations = before.denominations
  coins : ∀ coinPub, (after.coins.get? coinPub).map coinIdentity =
    (before.coins.get? coinPub).map coinIdentity
  groups : ∀ other, other ≠ recoupGroupId →
    after.recoupGroups.get? other = before.recoupGroups.get? other

variable {recoupGroupId cgId gid : String} {first x second y third stores : ExchangeStores}

theorem Recouping.refl : Recouping recoupGroupId stores stores :=
  ⟨rfl, rfl, rfl, fun _ => rfl, fun _ _ => rfl⟩

theorem Recouping.trans (pre : Recouping recoupGroupId first y)
    (after : Recouping recoupGroupId y third) : Recouping recoupGroupId first third := by
  constructor
  · exact after.exchanges.trans pre.exchanges
  · exact after.exchangeDetails.trans pre.exchangeDetails
  · exact after.denominations.trans pre.denominations
  · exact fun pub => (after.coins pub).trans (pre.coins pub)
  · exact fun other ne => (after.groups other ne).trans (pre.groups other ne)

theorem putRecoupGroup_recouping (group : RecoupGroupRecord) :
    Recouping group.recoupGroupId stores (stores.putRecoupGroup group) :=
  ⟨rfl, rfl, rfl, fun _ => rfl, fun _ ne => Record.get?_set_of_ne _ _ ne⟩

theorem putCoin_recouping {c coin' : CoinRecord} (h : stores.coins.get? c.coinPub = some c)
    (eq : coinIdentity coin' = coinIdentity c) : Recouping gid stores (stores.putCoin coin') := by
  refine ⟨rfl, rfl, rfl, ?_, fun _ _ => rfl⟩
  intro pub
  have isKey : coin'.coinPub = c.coinPub := congrArg Prod.fst eq
  rw [ExchangeStores.putCoin, Record.get?_set, isKey]
  split
  next isC => rw [isC, h, Option.map_some, Option.map_some, eq]
  next => rfl

theorem setFinished_coinPubs (group : RecoupGroupRecord) (coinIdx : Nat) :
    (group.setFinished coinIdx).coinPubs = group.coinPubs := by
  apply map_modify_same
  exact fun _ => rfl

theorem setOldAmount_coinPubs (group : RecoupGroupRecord) (coinIdx : Nat)
    (amount : CurrencyAmount) : (group.setOldAmount coinIdx amount).coinPubs = group.coinPubs := by
  apply map_modify_same
  exact fun _ => rfl

theorem finishCoin_same (now : Nat) (group : RecoupGroupRecord) (coinIdx : Nat) :
    (group.finishCoin now coinIdx).coinPubs = group.coinPubs ∧
      (group.finishCoin now coinIdx).recoupGroupId = group.recoupGroupId := by
  unfold RecoupGroupRecord.finishCoin
  dsimp only
  split
  · exact ⟨setFinished_coinPubs group coinIdx, rfl⟩
  · exact ⟨setFinished_coinPubs group coinIdx, rfl⟩

structure GroupKept (group : RecoupGroupRecord) (stores : ExchangeStores)
    (result : RecoupGroupRecord × ExchangeStores) : Prop where
  coinPubs : result.1.coinPubs = group.coinPubs
  recoupGroupId : result.1.recoupGroupId = group.recoupGroupId
  recouping : Recouping group.recoupGroupId stores result.2

theorem GroupKept.trans {group : RecoupGroupRecord} {mid result : RecoupGroupRecord × ExchangeStores}
    (pre : GroupKept group stores mid) (after : GroupKept mid.1 mid.2 result) :
    GroupKept group stores result :=
  ⟨after.coinPubs.trans pre.coinPubs, after.recoupGroupId.trans pre.recoupGroupId,
    pre.recouping.trans (pre.recoupGroupId ▸ after.recouping)⟩

theorem putGroupAsFinished_kept (now : Nat) (group : RecoupGroupRecord) (coinIdx : Nat) :
    GroupKept group stores (stores.putGroupAsFinished now group coinIdx) := by
  unfold ExchangeStores.putGroupAsFinished
  split
  · exact ⟨rfl, rfl, .refl⟩
  · obtain ⟨sameCoins, sameId⟩ := finishCoin_same now group coinIdx
    exact ⟨sameCoins, sameId, sameId ▸ putRecoupGroup_recouping _⟩

theorem CoinsKeyed.recouping (keyed : CoinsKeyed x.coins)
    (recouping : Recouping gid x y) : CoinsKeyed y.coins := by
  intro pub c h
  have eq := recouping.coins pub
  rw [h] at eq
  obtain ⟨old, isOld, isIdentity⟩ := Option.map_eq_some_iff.mp eq.symm
  have isPub : old.coinPub = c.coinPub := congrArg Prod.fst isIdentity
  exact isPub.symm.trans (keyed pub old isOld)

theorem recoupCoins_kept (now : Nat) {cps : List String} :
    ∀ {coinIdx : Nat} {group : RecoupGroupRecord} {stores : ExchangeStores},
      CoinsKeyed stores.coins →
      GroupKept group stores (ExchangeStores.recoupCoins now coinIdx cps group stores) := by
  induction cps with
  | nil => exact fun _ => ⟨rfl, rfl, .refl⟩
  | cons pub rest ih =>
    intro coinIdx group stores keyed
    have finishes : GroupKept group stores (ExchangeStores.recoupCoins now (coinIdx + 1) rest
        (stores.putGroupAsFinished now group coinIdx).1
        (stores.putGroupAsFinished now group coinIdx).2) := by
      have put := @putGroupAsFinished_kept stores now group coinIdx
      exact put.trans (ih (keyed.recouping put.recouping))
    unfold ExchangeStores.recoupCoins
    split
    next => exact finishes
    next coin h =>
      split
      next => exact finishes
      next =>
        have isStored : stores.coins.get? coin.coinPub = some coin := by
          rw [keyed pub coin h]
          exact h
        have put : Recouping group.recoupGroupId stores (stores.putCoin
            { coin with currentAmount := .getZero coin.currentAmount.currency }) :=
          putCoin_recouping isStored rfl
        have noted : GroupKept group stores
            (group.setOldAmount coinIdx coin.currentAmount, stores.putCoin
              { coin with currentAmount := .getZero coin.currentAmount.currency }) :=
          ⟨setOldAmount_coinPubs group coinIdx coin.currentAmount, rfl, put⟩
        exact noted.trans (ih (keyed.recouping put))

theorem createRecoupGroup_recouping (now : Nat) (keyed : CoinsKeyed stores.coins)
    (coinPubs : List String) :
    Recouping recoupGroupId stores (stores.createRecoupGroup now recoupGroupId coinPubs) ∧
      ∃ group, (stores.createRecoupGroup now recoupGroupId coinPubs).recoupGroups.get?
          recoupGroupId = some group ∧ group.coinPubs = coinPubs := by
  unfold ExchangeStores.createRecoupGroup
  dsimp only
  generalize isNew : ({
    recoupGroupId := recoupGroupId
    coins := coinPubs.map fun pub => ⟨pub, false, none⟩
    lastError := none
    timestampFinished := none
    timestampStarted := now
    retryInfo := initRetryInfo now
    scheduleRefreshCoins := [] } : RecoupGroupRecord) = group
  have isId : group.recoupGroupId = recoupGroupId := isNew ▸ rfl
  have hasCoins : group.coinPubs = coinPubs := by
    rw [← isNew, RecoupGroupRecord.coinPubs, List.map_map]
    exact map_id'' (fun _ => rfl) _
  obtain ⟨sameCoins, sameId, recouping⟩ := @recoupCoins_kept now coinPubs 0 group stores keyed
  rw [isId] at recouping sameId
  constructor
  · exact recouping.trans (sameId ▸ putRecoupGroup_recouping _)
  refine ⟨_, ?_, sameCoins.trans hasCoins⟩
  rw [ExchangeStores.putRecoupGroup, sameId]
  exact Record.get?_set_self _ _ _

end Recouping

/-! ## The transaction of an update -/

section Merging

variable {host : ExchangeHost} {now : Nat} {baseUrl url recoupGroupId cgId gid : String}
  {denominations dns denoms ds : Denominations} {downloaded : Downloaded} {stores : ExchangeStores}

def Downloaded.hashes (downloaded : Downloaded) : List String :=
  downloaded.keysInfo.currentDenominations.map Backup.DenominationRecord.denomPubHash

def Downloaded.Fresh (downloaded : Downloaded) (baseUrl : String) : Prop :=
  ∀ denom ∈ downloaded.keysInfo.currentDenominations,
    denom.exchangeBaseUrl = baseUrl ∧ denom.isRevoked = false

def Offered (denominations : Denominations) (key : String × String) : Prop :=
  ∃ denom, denominations.get? key = some denom ∧ denom.isOffered = true

/-- The denominations of the exchange, when its key list has been stored. -/
def Downloaded.listed (downloaded : Downloaded) (baseUrl : String)
    (denominations : Denominations) : Denominations :=
  listDenominations baseUrl downloaded.hashes downloaded.keysInfo.listIssueDate
    (addDenominations baseUrl downloaded.keysInfo.currentDenominations denominations)

/-- The denomination is known, or it is one of the list, and it has not been revoked. -/
def Downloaded.Unrevoked (downloaded : Downloaded) (denominations : Denominations)
    (key : String × String) : Prop :=
  Valid denominations key ∨ (denominations.get? key = none ∧ key.2 ∈ downloaded.hashes)

theorem revoked_iff {key : String × String} : Revoked ds key ↔
    (ds.get? key).map (fun dn => dn.isRevoked) = some true := Option.map_eq_some_iff.symm

theorem valid_iff {key : String × String} : Valid ds key ↔
    (ds.get? key).map (fun dn => dn.isRevoked) = some false := Option.map_eq_some_iff.symm

theorem offered_iff {key : String × String} : Offered ds key ↔
    (ds.get? key).map (fun dn => dn.isOffered) = some true := Option.map_eq_some_iff.symm

structure Listing (downloaded : Downloaded) (baseUrl : String)
    (before after : Denominations) : Prop where
  keyed : Keyed after
  offered : ∀ hash, Offered after (baseUrl, hash) ↔ hash ∈ downloaded.hashes
  others : ∀ key : String × String, key.1 ≠ baseUrl → after.get? key = before.get? key
  revoked : ∀ key, Revoked after key ↔ Revoked before key
  valid : ∀ hash, Valid after (baseUrl, hash) ↔ downloaded.Unrevoked before (baseUrl, hash)

theorem listed_listing (keyed : Keyed ds) (fresh : downloaded.Fresh url) :
    Listing downloaded url ds (downloaded.listed url ds) := by
  obtain ⟨keyedAdded, kept, isNew, all⟩ :=
    addDenominations_added keyed fun dn mem => (fresh dn mem).1
  have read := fun key => @listDenominations_get? _ url downloaded.hashes
    downloaded.keysInfo.listIssueDate keyedAdded key
  have sameMarks : ∀ key, ((downloaded.listed url ds).get? key).map
      (fun dn => dn.isRevoked) = ((addDenominations url
        downloaded.keysInfo.currentDenominations ds).get? key).map fun dn => dn.isRevoked := by
    intro key
    rw [Downloaded.listed, read]
    split
    · rw [Option.map_map]
      exact congrArg (fun mark => Option.map mark _) (funext (listDenomination_isRevoked _ _))
    · rfl
  constructor
  · exact listDenominations_keyed keyedAdded
  · intro hash
    unfold Offered Downloaded.listed
    rw [read, if_pos rfl]
    constructor
    · rintro ⟨dn, h, isOffered⟩
      obtain ⟨old, isOld, eq⟩ := Option.map_eq_some_iff.mp h
      have isKey := keyedAdded _ old isOld
      have listed := (listDenomination_isOffered _ _ old).mp (eq ▸ isOffered)
      exact (Prod.mk.inj isKey).2 ▸ listed
    intro mem
    obtain ⟨dn, isListed, isHash⟩ := List.mem_map.mp mem
    obtain ⟨stored, isStored⟩ := all dn isListed
    rw [isHash] at isStored
    have isKey := keyedAdded _ stored isStored
    refine ⟨_, by rw [isStored]; rfl, (listDenomination_isOffered _ _ stored).mpr ?_⟩
    exact (Prod.mk.inj isKey).2 ▸ mem
  · intro key ne
    unfold Downloaded.listed
    rw [read, if_neg ne]
    cases pre : ds.get? key with
    | some dn => exact kept key dn pre
    | none =>
      cases after : (addDenominations url downloaded.keysInfo.currentDenominations ds).get? key with
      | none => rfl
      | some dn =>
        rcases isNew key dn after with eq | ⟨_, mem⟩
        · cases eq.symm.trans pre
        · have isKey := keyedAdded key dn after
          exact absurd (isKey ▸ (fresh dn mem).1) ne
  · intro key
    rw [revoked_iff, revoked_iff, sameMarks]
    cases pre : ds.get? key with
    | some dn => rw [kept key dn pre]
    | none =>
      refine ⟨?_, (by simp)⟩
      intro isRevoked
      obtain ⟨dn, h, isRevoked⟩ := Option.map_eq_some_iff.mp isRevoked
      rcases isNew key dn h with eq | ⟨_, mem⟩
      · cases eq.symm.trans pre
      · cases isRevoked.symm.trans (fresh dn mem).2
  · intro hash
    rw [valid_iff, sameMarks, Downloaded.Unrevoked, valid_iff]
    cases pre : ds.get? (url, hash) with
    | some dn =>
      rw [kept _ dn pre]
      refine ⟨.inl, fun either => either.resolve_right fun gone => ?_⟩
      cases gone.1
    | none =>
      constructor
      · intro isValid
        obtain ⟨dn, h, _⟩ := Option.map_eq_some_iff.mp isValid
        rcases isNew _ dn h with eq | ⟨_, mem⟩
        · cases eq.symm.trans pre
        have isKey := keyedAdded _ dn h
        refine .inr ⟨rfl, List.mem_map.mpr ⟨dn, mem, ?_⟩⟩
        exact (Prod.mk.inj isKey).2
      · rintro (isValid | ⟨_, mem⟩)
        · cases isValid
        obtain ⟨dn, isListed, isHash⟩ := List.mem_map.mp mem
        obtain ⟨stored, isStored⟩ := all dn isListed
        rw [isHash] at isStored
        rcases isNew _ stored isStored with eq | ⟨_, isListed⟩
        · cases eq.symm.trans pre
        · rw [isStored, Option.map_some, (fresh stored isListed).2]

def Downloaded.Revokes (downloaded : Downloaded) (baseUrl : String) (denominations : Denominations)
    (key : String × String) : Prop :=
  key.1 = baseUrl ∧ key.2 ∈ downloaded.keysInfo.recoup ∧ downloaded.Unrevoked denominations key

/-- The coin has the public key of a denomination that becomes revoked. -/
def Downloaded.Affects (downloaded : Downloaded) (baseUrl : String) (stores : ExchangeStores)
    (coinPub : String) : Prop :=
  ∃ coin, stores.coins.get? coinPub = some coin ∧
    downloaded.Revokes baseUrl stores.denominations (baseUrl, coin.denomPubHash)

structure Merged (now : Nat) (baseUrl recoupGroupId : String) (downloaded : Downloaded)
    (before after : ExchangeStores) : Prop where
  exchange : ∃ r, before.exchanges.get? baseUrl = some r ∧
    after.exchanges = before.exchanges.set baseUrl (updatedExchange now downloaded r)
  exchangeDetails : after.exchangeDetails = before.exchangeDetails.set
    (baseUrl, downloaded.keysInfo.currency, downloaded.keysInfo.masterPublicKey)
    (newDetails now baseUrl downloaded)
  keyed : Keyed after.denominations
  offered : ∀ hash, Offered after.denominations (baseUrl, hash) ↔ hash ∈ downloaded.hashes
  others : ∀ key : String × String, key.1 ≠ baseUrl →
    (Offered after.denominations key ↔ Offered before.denominations key)
  revoked : ∀ key, Revoked after.denominations key ↔
    Revoked before.denominations key ∨ downloaded.Revokes baseUrl before.denominations key
  coins : ∀ coinPub, (after.coins.get? coinPub).map coinIdentity =
    (before.coins.get? coinPub).map coinIdentity
  groups : ∀ other, other ≠ recoupGroupId →
    after.recoupGroups.get? other = before.recoupGroups.get? other
  group : after.recoupGroups.get? recoupGroupId = before.recoupGroups.get? recoupGroupId ∧
      (∀ coinPub, ¬ downloaded.Affects baseUrl before coinPub) ∨
    ∃ group, after.recoupGroups.get? recoupGroupId = some group ∧
      ∀ coinPub, coinPub ∈ group.coinPubs ↔ downloaded.Affects baseUrl before coinPub

theorem updateInDatabase_merged (keyed : Keyed stores.denominations)
    (coinsKeyed : CoinsKeyed stores.coins) (fresh : downloaded.Fresh baseUrl)
    {r : ExchangeRecord} (h : stores.exchanges.get? baseUrl = some r)
    (isBaseUrl : r.baseUrl = baseUrl) : ∃ after,
      stores.updateInDatabase now baseUrl recoupGroupId downloaded =
        some (after, updatedExchange now downloaded r, newDetails now baseUrl downloaded) ∧
      Merged now baseUrl recoupGroupId downloaded stores after := by
  have listing := @listed_listing baseUrl _ _ keyed fresh
  have revoking := @revokeDenominations_revoking baseUrl stores.coins downloaded.keysInfo.recoup _
    [] listing.keyed
  have isListed : listDenominations baseUrl
      (downloaded.keysInfo.currentDenominations.map Backup.DenominationRecord.denomPubHash)
      downloaded.keysInfo.listIssueDate
      (addDenominations baseUrl downloaded.keysInfo.currentDenominations stores.denominations) =
      downloaded.listed baseUrl stores.denominations := rfl
  have isUrl : (updatedExchange now downloaded r).baseUrl = baseUrl := isBaseUrl
  simp only [ExchangeStores.updateInDatabase, h, isBaseUrl, isUrl, Option.bind_eq_bind,
    Option.bind_some, isListed]
  generalize revokeDenominations baseUrl stores.coins downloaded.keysInfo.recoup []
    (downloaded.listed baseUrl stores.denominations) = res at revoking
  obtain ⟨denominations, newlyRevokedCoinPubs⟩ := res
  dsimp only at revoking ⊢
  have affected : ∀ coinPub, coinPub ∈ newlyRevokedCoinPubs ↔
      downloaded.Affects baseUrl stores coinPub := by
    intro coinPub
    rw [revoking.coinPubs]
    constructor
    · rintro (none | ⟨hash, isRevoked, isValid, c, isC, ofDenom, isPub⟩)
      · cases none
      obtain ⟨y, isO⟩ := Record.mem_values_iff.mp isC
      have samePub := coinsKeyed y c isO
      rw [← samePub, isPub] at isO
      refine ⟨c, isO, rfl, ofDenom ▸ isRevoked, ?_⟩
      exact ofDenom ▸ (listing.valid hash).mp isValid
    · rintro ⟨c, isC, _, isRevoked, unrevoked⟩
      refine .inr ⟨c.denomPubHash, isRevoked, (listing.valid _).mpr unrevoked, c, ?_, rfl,
        coinsKeyed coinPub c isC⟩
      exact Record.mem_values_iff.mpr ⟨coinPub, isC⟩
  have marked : ∀ key, Revoked denominations key ↔ Revoked stores.denominations key ∨
      downloaded.Revokes baseUrl stores.denominations key := by
    rintro ⟨exchangeBaseUrl, hash⟩
    rw [revoking.marked, listing.revoked]
    refine or_congr_right (and_congr_right ?_)
    rintro rfl
    rw [listing.valid]
  have offered : ∀ key, Offered denominations key ↔
      Offered (downloaded.listed baseUrl stores.denominations) key := by
    intro key
    rw [offered_iff, offered_iff, revoking.stored]
  have ys : ∀ key : String × String, key.1 ≠ baseUrl →
      (Offered denominations key ↔ Offered stores.denominations key) := by
    intro key ne
    rw [offered, offered_iff, offered_iff, listing.others key ne]
  split
  next none =>
    refine ⟨_, rfl, ⟨r, h, ?_⟩, rfl, revoking.keyed, ?_, ys, marked, fun _ => rfl,
      fun _ _ => rfl, .inl ⟨rfl, ?_⟩⟩
    · exact congrArg (fun url => stores.exchanges.set url _) isBaseUrl
    · exact fun hash => (offered _).trans (listing.offered hash)
    intro coinPub affects
    rw [← affected, none] at affects
    cases affects
  next =>
    generalize isBefore : ({ (stores.putExchange (updatedExchange now downloaded r)).putDetails
      (newDetails now baseUrl downloaded) with denominations := denominations } :
        ExchangeStores) = pre
    have sameCoins : pre.coins = stores.coins := isBefore ▸ rfl
    obtain ⟨recouping, group, isGroup, hasCoins⟩ :=
      @createRecoupGroup_recouping recoupGroupId pre now (sameCoins ▸ coinsKeyed)
        newlyRevokedCoinPubs
    refine ⟨_, rfl, ⟨r, h, ?_⟩, ?_, ?_, ?_, ?_, ?_, ?_, ?_, .inr ⟨group, isGroup, ?_⟩⟩
    · rw [recouping.exchanges, ← isBefore]
      exact congrArg (fun url => stores.exchanges.set url _) isBaseUrl
    · rw [recouping.exchangeDetails, ← isBefore]
      rfl
    · rw [recouping.denominations, ← isBefore]
      exact revoking.keyed
    · rw [recouping.denominations, ← isBefore]
      exact fun hash => (offered _).trans (listing.offered hash)
    · rw [recouping.denominations, ← isBefore]
      exact ys
    · rw [recouping.denominations, ← isBefore]
      exact marked
    · intro coinPub
      rw [recouping.coins, sameCoins]
    · intro y ne
      rw [recouping.groups y ne, ← isBefore]
      rfl
    · rw [hasCoins]
      exact affected

end Merging

/-! ## Runs of updates -/

def Update.fetched (host : ExchangeHost) (stores : ExchangeStores) (update : Update) :
    Option (String × Except String Downloaded) :=
  match host.canonicalizeBaseUrl update.baseUrl with
  | none => none
  | some baseUrl =>
    let (r, stores) := stores.provideExchangeRecord update.now baseUrl
    match stores.existingInfo update.now update.forceNow r baseUrl with
    | some _ => none
    | none =>
      some (baseUrl, download host update.now baseUrl (update.acceptedFormat.getD [])
        update.answers)

/-- The key list that an exchange has answered with, when it can be used. -/
def Update.keyList (host : ExchangeHost) (update : Update) (baseUrl : String) :
    Option (List String) :=
  match update.answers.keys, downloadKeysInfo host update.now baseUrl update.answers.keys with
  | .ok response, .ok _ => some (response.keys.denoms.map fun denom => host.hashDenomPub denom.denomPub)
  | _, _ => none

/-- The stores, with what has come from the exchanges and from the user: the latest key lists, the
terms that were accepted and not replaced by others, and the errors since the last success. -/
structure ExchangeWallet where
  stores : ExchangeStores
  keyLists : Record String (List String)
  acceptedTerms : Record String String
  failures : Record String (List String)

inductive ExchangeEvent where
  | updateExchangeFromUrl (update : Update)
  | acceptExchangeTermsOfService (exchangeBaseUrl : String) (etag : Option String)
  -- what other operations store
  | coin (coin : CoinRecord)
  | denomination (denom : DenominationRecord)
  | recoupGroup (group : RecoupGroupRecord)

namespace ExchangeWallet

def start : ExchangeWallet where
  stores :=
    { exchanges := .empty
      exchangeDetails := .empty
      denominations := .empty
      coins := .empty
      recoupGroups := .empty }
  keyLists := .empty
  acceptedTerms := .empty
  failures := .empty

variable (host : ExchangeHost) (wallet w : ExchangeWallet)

def failuresOf (baseUrl : String) : List String := (wallet.failures.get? baseUrl).getD []

def note (update : Update) (baseUrl : String) : Except String Downloaded → ExchangeWallet
  | .error err =>
    { wallet with
      keyLists :=
        match update.keyList host baseUrl with
        | none => wallet.keyLists
        | some keys => wallet.keyLists.set baseUrl keys
      failures := wallet.failures.set baseUrl (wallet.failuresOf baseUrl ++ [err]) }
  | .ok downloaded =>
    { wallet with
      keyLists :=
        match update.keyList host baseUrl with
        | none => wallet.keyLists
        | some keys => wallet.keyLists.set baseUrl keys
      acceptedTerms :=
        if wallet.acceptedTerms.get? baseUrl = some downloaded.tosDownload.tosEtag then
          wallet.acceptedTerms
        else wallet.acceptedTerms.erase baseUrl
      failures := wallet.failures.set baseUrl [] }

def update (update : Update) : ExchangeWallet :=
  let noted :=
    match update.fetched host wallet.stores with
    | none => wallet
    | some (baseUrl, fetched) => wallet.note host update baseUrl fetched
  { noted with stores := (Exchanges.updateExchangeFromUrl host update wallet.stores).1 }

def accept (exchangeBaseUrl : String) (etag : Option String) : ExchangeWallet :=
  { wallet with
    stores := Exchanges.acceptExchangeTermsOfService exchangeBaseUrl etag wallet.stores
    acceptedTerms :=
      match wallet.stores.getExchangeDetails exchangeBaseUrl, etag with
      | none, _ => wallet.acceptedTerms
      | some _, none => wallet.acceptedTerms.erase exchangeBaseUrl
      | some _, some etag => wallet.acceptedTerms.set exchangeBaseUrl etag }

def perform : ExchangeEvent → ExchangeWallet
  | .updateExchangeFromUrl update => wallet.update host update
  | .acceptExchangeTermsOfService exchangeBaseUrl etag => wallet.accept exchangeBaseUrl etag
  | .coin coin => { wallet with stores := wallet.stores.putCoin coin }
  | .denomination denom =>
    { wallet with
      stores :=
        { wallet.stores with
          denominations := putDenomination wallet.stores.denominations denom } }
  | .recoupGroup group => { wallet with stores := wallet.stores.putRecoupGroup group }

/-- New groups have new identifiers, and other operations leave coins, denominations and recoup
groups what they are. -/
def Foreign : ExchangeEvent → Prop
  | .updateExchangeFromUrl update => wallet.stores.recoupGroups.get? update.recoupGroupId = none
  | .acceptExchangeTermsOfService _ _ => True
  | .coin coin => ∀ old, wallet.stores.coins.get? coin.coinPub = some old →
      coinIdentity coin = coinIdentity old
  | .denomination denom => ∃ old, wallet.stores.denominations.get? (denominationKey denom) = some old ∧
      denom.isOffered = old.isOffered ∧ denom.isRevoked = old.isRevoked
  | .recoupGroup group => ∃ old, wallet.stores.recoupGroups.get? group.recoupGroupId = some old ∧
      group.coinPubs = old.coinPubs

end ExchangeWallet

def ExchangeStep (host : ExchangeHost) (wallet : ExchangeWallet) (event : ExchangeEvent)
    (next : ExchangeWallet) : Prop :=
  wallet.Foreign event ∧ next = wallet.perform host event

namespace ExchangeWallet

/-- Denominations are offered as listed, coins of revoked denominations are in one recoup group,
accepted terms stay accepted, and errors are counted and stored. -/
structure UpdatesKept (wallet : ExchangeWallet) : Prop where
  offered : ∀ baseUrl r, wallet.stores.exchanges.get? baseUrl = some r →
    r.detailsPointer.isSome = true → ∃ keys, wallet.keyLists.get? baseUrl = some keys ∧
      ∀ hash, Offered wallet.stores.denominations (baseUrl, hash) ↔ hash ∈ keys
  recouped : ∀ coinPub coin, wallet.stores.coins.get? coinPub = some coin →
    Revoked wallet.stores.denominations (coin.exchangeBaseUrl, coin.denomPubHash) →
      ∃! recoupGroupId, ∃ group, wallet.stores.recoupGroups.get? recoupGroupId = some group ∧
        coinPub ∈ group.coinPubs
  accepted : ∀ baseUrl etag, wallet.acceptedTerms.get? baseUrl = some etag →
    ∃ details, wallet.stores.getExchangeDetails baseUrl = some details ∧
      details.termsOfServiceAcceptedEtag = some etag
  counted : ∀ baseUrl r, wallet.stores.exchanges.get? baseUrl = some r →
    r.retryInfo.retryCounter = (wallet.failuresOf baseUrl).length ∧
      r.lastError = (wallet.failuresOf baseUrl).getLast?

/-- Downloads succeed, terms that are accepted are not served again, and a denomination is revoked
by one exchange only and has no new coins then. -/
def UpdateCondition (host : ExchangeHost) (wallet : ExchangeWallet) : ExchangeEvent → Prop
  | .updateExchangeFromUrl update => ∀ baseUrl fetched,
      update.fetched host wallet.stores = some (baseUrl, fetched) →
        ∃ downloaded, fetched = .ok downloaded ∧
          (∀ details, wallet.stores.getExchangeDetails baseUrl = some details →
            details.termsOfServiceAcceptedEtag ≠ some downloaded.tosDownload.tosEtag) ∧
          ∀ hash, downloaded.Revokes baseUrl wallet.stores.denominations (baseUrl, hash) →
            ∀ exchangeBaseUrl, ¬ Revoked wallet.stores.denominations (exchangeBaseUrl, hash)
  | .coin coin => wallet.stores.coins.get? coin.coinPub = none →
      ¬ Revoked wallet.stores.denominations (coin.exchangeBaseUrl, coin.denomPubHash)
  | _ => True

end ExchangeWallet

/-! ## Downloads -/

section Downloads

variable {host : ExchangeHost} {now : Nat} {baseUrl url : String}

theorem except_bind_ok {Error First Second : Type} {src : Except Error First}
    {continuation : First → Except Error Second} {result : Second}
    (r : src >>= continuation = .ok result) : ∃ v, src = .ok v ∧ continuation v = .ok result := by
  cases src with
  | error error => cases r
  | ok v => exact ⟨v, rfl, r⟩

theorem denominationRecordFromKeys_spec {exchangeMasterPub : String} {listIssueDate : Timestamp}
    {denomIn : Denomination} {dn : DenominationRecord}
    (r : denominationRecordFromKeys host url exchangeMasterPub listIssueDate denomIn =
      .ok dn) : dn.denomPubHash = host.hashDenomPub denomIn.denomPub ∧
      dn.exchangeBaseUrl = url ∧ dn.isRevoked = false := by
  obtain ⟨feeDeposit, _, r⟩ := except_bind_ok r
  obtain ⟨feeRefresh, _, r⟩ := except_bind_ok r
  obtain ⟨feeRefund, _, r⟩ := except_bind_ok r
  obtain ⟨feeWithdraw, _, r⟩ := except_bind_ok r
  obtain ⟨v, _, r⟩ := except_bind_ok r
  cases r
  exact ⟨rfl, rfl, rfl⟩

theorem denominationRecords_spec {exchangeMasterPub : String} {listIssueDate : Timestamp}
    {ds : List Denomination} {dns : List DenominationRecord} (each : List.Forall₂ (fun denomIn dn =>
      denominationRecordFromKeys host url exchangeMasterPub listIssueDate denomIn = .ok dn)
      ds dns) :
    dns.map Backup.DenominationRecord.denomPubHash =
        ds.map (fun dn => host.hashDenomPub dn.denomPub) ∧
      ∀ dn ∈ dns, dn.exchangeBaseUrl = url ∧ dn.isRevoked = false := by
  induction each with
  | nil => exact ⟨rfl, fun _ mem => nomatch mem⟩
  | cons x _ ih =>
    obtain ⟨isHash, spec⟩ := denominationRecordFromKeys_spec x
    rw [map_cons, isHash, ih.1, forall_mem_cons]
    exact ⟨rfl, spec, ih.2⟩

theorem downloadKeysInfo_spec {resp : Except String KeysResponse}
    {keysInfo : ExchangeKeysDownloadResult}
    (r : downloadKeysInfo host now url resp = .ok keysInfo) : ∃ told, resp = .ok told ∧
      keysInfo.currentDenominations.map Backup.DenominationRecord.denomPubHash =
        told.keys.denoms.map (fun dn => host.hashDenomPub dn.denomPub) ∧
      ∀ dn ∈ keysInfo.currentDenominations, dn.exchangeBaseUrl = url ∧ dn.isRevoked = false := by
  obtain ⟨⟨keys, expiry⟩, told, r⟩ := except_bind_ok r
  refine ⟨_, told, ?_⟩
  dsimp only at r ⊢
  split at r
  next => cases r
  next =>
    split at r
    next => cases r
    next =>
      obtain ⟨v, _, r⟩ := except_bind_ok r
      obtain ⟨currentDenominations, isList, r⟩ := except_bind_ok r
      cases r
      exact denominationRecords_spec (mapM_eq_ok_iff.mp isList)

theorem download_spec {acceptedFormat : List String} {answers : Answers} {downloaded : Downloaded}
    (r : download host now url acceptedFormat answers = .ok downloaded) :
    downloadKeysInfo host now url answers.keys = .ok downloaded.keysInfo := by
  obtain ⟨keysInfo, isKeys, r⟩ := except_bind_ok r
  obtain ⟨wireInfoDownload, _, r⟩ := except_bind_ok r
  obtain ⟨wireInfo, _, r⟩ := except_bind_ok r
  obtain ⟨tosDownload, _, r⟩ := except_bind_ok r
  cases r
  exact isKeys

end Downloads

section Updates

variable {host : ExchangeHost} {update : Update} {stores : ExchangeStores}

theorem Update.fetched_ok {baseUrl : String} {downloaded : Downloaded}
    (fetched : update.fetched host stores = some (baseUrl, .ok downloaded)) :
    downloaded.Fresh baseUrl ∧ update.keyList host baseUrl = some downloaded.hashes := by
  unfold Update.fetched at fetched
  split at fetched
  next => cases fetched
  next url _ =>
    dsimp only at fetched
    split at fetched
    next => cases fetched
    next =>
      obtain ⟨sameUrl, isDownload⟩ := Prod.mk.inj (Option.some.inj fetched)
      subst sameUrl
      have isKeys := download_spec isDownload
      obtain ⟨told, isAnswer, hashes, fresh⟩ := downloadKeysInfo_spec isKeys
      refine ⟨fresh, ?_⟩
      unfold Update.keyList
      rw [isKeys, isAnswer]
      exact congrArg some hashes.symm

theorem Update.fetched_of_url {url : String}
    (isUrl : host.canonicalizeBaseUrl update.baseUrl = some url) : update.fetched host stores =
      match (stores.provideExchangeRecord update.now url).2.existingInfo update.now
        update.forceNow (stores.provideExchangeRecord update.now url).1 url with
      | some _ => none
      | none =>
        some (url, download host update.now url (update.acceptedFormat.getD [])
          update.answers) := by
  rw [Update.fetched, isUrl]

structure Provided (now : Nat) (baseUrl : String) (before after : ExchangeStores) : Prop where
  exchange : ∃ r, after.exchanges.get? baseUrl = some r ∧
    (before.exchanges.get? baseUrl = some r ∨
      before.exchanges.get? baseUrl = none ∧ r = ExchangeStores.newExchange now baseUrl)
  others : ∀ other, other ≠ baseUrl → after.exchanges.get? other = before.exchanges.get? other
  exchangeDetails : after.exchangeDetails = before.exchangeDetails
  denominations : after.denominations = before.denominations
  coins : after.coins = before.coins
  recoupGroups : after.recoupGroups = before.recoupGroups

theorem provideExchangeRecord_provided (now : Nat) (url : String) :
    Provided now url stores (stores.provideExchangeRecord now url).2 := by
  unfold ExchangeStores.provideExchangeRecord
  split
  next r h => exact ⟨⟨r, h, .inl h⟩, fun _ _ => rfl, rfl, rfl, rfl, rfl⟩
  next gone =>
    exact ⟨⟨_, Record.get?_set_self _ _ _, .inr ⟨gone, rfl⟩⟩,
      fun y ne => Record.get?_set_of_ne _ _ ne, rfl, rfl, rfl, rfl⟩

theorem Provided.getExchangeDetails {now : Nat} {url : String} {after : ExchangeStores}
    (provided : Provided now url stores after) (other : String) :
    after.getExchangeDetails other = stores.getExchangeDetails other := by
  unfold ExchangeStores.getExchangeDetails
  rw [provided.exchangeDetails]
  by_cases eq : other = url
  · obtain ⟨r, h, pre | ⟨gone, isNew⟩⟩ := provided.exchange
    · rw [eq, h, pre]
    · rw [eq, h, gone, isNew]
      rfl
  · rw [provided.others other eq]

theorem handleExchangeUpdateError_same (url err : String) :
    stores.handleExchangeUpdateError url err = stores := by
  unfold ExchangeStores.handleExchangeUpdateError
  split <;> rfl

inductive Outcome (host : ExchangeHost) (update : Update) (stores : ExchangeStores) :
    ExchangeStores → Prop
  | invalid (invalid : update.fetched host stores = none) : Outcome host update stores stores
  | stored {baseUrl : String} {after : ExchangeStores}
      (provided : Provided update.now baseUrl stores after)
      (unmerged : ∀ downloaded, update.fetched host stores ≠ some (baseUrl, .ok downloaded))
      (ofUrl : ∀ other fetched, update.fetched host stores = some (other, fetched) →
        other = baseUrl) :
      Outcome host update stores after
  | merged {baseUrl : String} {downloaded : Downloaded} {middle after : ExchangeStores}
      (fetched : update.fetched host stores = some (baseUrl, .ok downloaded))
      (provided : Provided update.now baseUrl stores middle)
      (merged : Merged update.now baseUrl update.recoupGroupId downloaded middle after) :
      Outcome host update stores after

theorem updateExchangeFromUrl_outcome
    (exchangesKeyed : ∀ baseUrl r, stores.exchanges.get? baseUrl = some r → r.baseUrl = baseUrl)
    (keyed : Keyed stores.denominations) (coinsKeyed : CoinsKeyed stores.coins) :
    Outcome host update stores (updateExchangeFromUrl host update stores).1 := by
  have sameStores : (updateExchangeFromUrl host update stores).1 =
      (updateExchangeFromUrlImpl host update stores).1 := by
    unfold updateExchangeFromUrl
    split
    next _ isResult => rw [isResult]
    next _ isResult => rw [isResult, handleExchangeUpdateError_same]
  rw [sameStores]
  unfold updateExchangeFromUrlImpl
  split
  next invalid =>
    apply Outcome.invalid
    rw [Update.fetched, invalid]
  next baseUrl isUrl =>
    have provided := @provideExchangeRecord_provided stores update.now baseUrl
    have isFetched := @Update.fetched_of_url host update stores baseUrl isUrl
    dsimp only
    split
    next res existing =>
      rw [existing] at isFetched
      exact .stored provided (fun _ eq => by cases isFetched.symm.trans eq)
        fun _ _ eq => by cases isFetched.symm.trans eq
    next due =>
      rw [due] at isFetched
      split
      next err failed =>
        rw [failed] at isFetched
        exact .stored provided (fun _ eq => by cases isFetched.symm.trans eq)
          fun _ _ eq => by cases isFetched.symm.trans eq; rfl
      next downloaded isDownload =>
        rw [isDownload] at isFetched
        obtain ⟨r, h, either⟩ := provided.exchange
        have isBaseUrl : r.baseUrl = baseUrl := by
          rcases either with pre | ⟨_, isNew⟩
          · exact exchangesKeyed baseUrl r pre
          · rw [isNew]
            rfl
        obtain ⟨after, updated, merged⟩ := updateInDatabase_merged (provided.denominations ▸ keyed)
          (provided.coins ▸ coinsKeyed) (Update.fetched_ok isFetched).1 h isBaseUrl
        rw [updated]
        exact .merged isFetched provided merged

end Updates

/-! ## Soundness -/

namespace ExchangeWallet

structure Sound (wallet : ExchangeWallet) : Prop where
  unfailed : ∀ baseUrl, wallet.failuresOf baseUrl = []
  exchanges : ∀ baseUrl r, wallet.stores.exchanges.get? baseUrl = some r →
    r.baseUrl = baseUrl ∧ r.retryInfo.retryCounter = 0 ∧ r.lastError = none
  detailsKeyed : ∀ key details, wallet.stores.exchangeDetails.get? key = some details →
    (details.exchangeBaseUrl, details.currency, details.masterPublicKey) = key
  keyed : Keyed wallet.stores.denominations
  coinsKeyed : CoinsKeyed wallet.stores.coins
  offered : ∀ baseUrl r, wallet.stores.exchanges.get? baseUrl = some r →
    r.detailsPointer.isSome = true → ∃ keys, wallet.keyLists.get? baseUrl = some keys ∧
      ∀ hash, Offered wallet.stores.denominations (baseUrl, hash) ↔ hash ∈ keys
  recouped : ∀ coinPub coin, wallet.stores.coins.get? coinPub = some coin →
    Revoked wallet.stores.denominations (coin.exchangeBaseUrl, coin.denomPubHash) →
      ∃! recoupGroupId, ∃ group, wallet.stores.recoupGroups.get? recoupGroupId = some group ∧
        coinPub ∈ group.coinPubs
  grouped : ∀ recoupGroupId group, wallet.stores.recoupGroups.get? recoupGroupId = some group →
    ∀ coinPub ∈ group.coinPubs, ∃ coin, wallet.stores.coins.get? coinPub = some coin ∧
      ∃ exchangeBaseUrl, Revoked wallet.stores.denominations (exchangeBaseUrl, coin.denomPubHash)
  accepted : ∀ baseUrl etag, wallet.acceptedTerms.get? baseUrl = some etag →
    ∃ details, wallet.stores.getExchangeDetails baseUrl = some details ∧
      details.termsOfServiceAcceptedEtag = some etag

variable {host : ExchangeHost} {wallet w : ExchangeWallet}

theorem start_sound : start.Sound := by
  constructor
  · exact fun _ => rfl
  · exact fun _ _ h => nomatch h
  · exact fun _ _ h => nomatch h
  · exact fun _ _ h => nomatch h
  · exact fun _ _ h => nomatch h
  · exact fun _ _ h => nomatch h
  · exact fun _ _ h => nomatch h
  · exact fun _ _ h => nomatch h
  · exact fun _ _ h => nomatch h

theorem Sound.kept (sound : w.Sound) : w.UpdatesKept := by
  refine ⟨sound.offered, sound.recouped, sound.accepted, ?_⟩
  intro url r h
  obtain ⟨_, counter, noError⟩ := sound.exchanges url r h
  rw [sound.unfailed]
  exact ⟨counter, noError⟩

theorem Sound.provided (sound : wallet.Sound) {now : Nat} {baseUrl : String}
    {after : ExchangeStores} (provided : Provided now baseUrl wallet.stores after) :
    { wallet with stores := after }.Sound := by
  -- exchanges that are new have no details yet
  have old : ∀ y r, after.exchanges.get? y = some r → wallet.stores.exchanges.get? y = some r ∨
        y = baseUrl ∧ r = ExchangeStores.newExchange now baseUrl := by
    intro y r h
    by_cases eq : y = baseUrl
    · obtain ⟨kept, isStored, either⟩ := provided.exchange
      rw [eq] at h
      cases h.symm.trans isStored
      rw [eq]
      exact either.imp_right fun isNew => ⟨rfl, isNew.2⟩
    · rw [provided.others y eq] at h
      exact .inl h
  constructor
  · exact sound.unfailed
  · intro y r h
    rcases old y r h with pre | ⟨eq, isNew⟩
    · exact sound.exchanges y r pre
    · rw [isNew, eq]
      exact ⟨rfl, rfl, rfl⟩
  · rw [provided.exchangeDetails]
    exact sound.detailsKeyed
  · rw [provided.denominations]
    exact sound.keyed
  · rw [provided.coins]
    exact sound.coinsKeyed
  · intro y r h pointed
    rw [provided.denominations]
    rcases old y r h with pre | ⟨_, isNew⟩
    · exact sound.offered y r pre pointed
    · rw [isNew] at pointed
      cases pointed
  · rw [provided.coins, provided.denominations, provided.recoupGroups]
    exact sound.recouped
  · rw [provided.coins, provided.denominations, provided.recoupGroups]
    exact sound.grouped
  intro y etag isAccepted
  rw [provided.getExchangeDetails]
  exact sound.accepted y etag isAccepted

theorem coin_before {pre after : Record String CoinRecord}
    (eq : ∀ pub, (after.get? pub).map coinIdentity = (pre.get? pub).map coinIdentity)
    {pub : String} {coin : CoinRecord} (h : after.get? pub = some coin) :
    ∃ old, pre.get? pub = some old ∧ coinIdentity old = coinIdentity coin := by
  have isSame := eq pub
  rw [h] at isSame
  exact Option.map_eq_some_iff.mp isSame.symm

section Merged

variable {now : Nat} {baseUrl url recoupGroupId cgId gid : String} {downloaded : Downloaded}
  {after : ExchangeStores}

theorem Sound.merged_recouped (sound : w.Sound)
    (merged : Merged now baseUrl recoupGroupId downloaded w.stores after)
    (isNew : w.stores.recoupGroups.get? recoupGroupId = none)
    (once : ∀ hash, downloaded.Revokes baseUrl w.stores.denominations (baseUrl, hash) →
      ∀ url, ¬ Revoked w.stores.denominations (url, hash))
    {coinPub : String} {c : CoinRecord} (h : after.coins.get? coinPub = some c)
    (revoked : Revoked after.denominations (c.exchangeBaseUrl, c.denomPubHash)) :
    ∃! recoupGroupId, ∃ group, after.recoupGroups.get? recoupGroupId = some group ∧
      coinPub ∈ group.coinPubs := by
  obtain ⟨old, isOld, identity⟩ := coin_before merged.coins h
  obtain ⟨_, sameDenom⟩ := Prod.mk.inj identity
  obtain ⟨sameUrl, sameHash⟩ := Prod.mk.inj sameDenom
  rw [← sameUrl, ← sameHash] at revoked
  rcases (merged.revoked _).mp revoked with pre | ⟨ofExchange, isListed, unrevoked⟩
  · obtain ⟨gid, ⟨group, isGroup, mem⟩, only⟩ := sound.recouped coinPub old isOld pre
    have ne : gid ≠ recoupGroupId := by
      intro eq
      cases (eq ▸ isGroup).symm.trans isNew
    refine ⟨gid, ⟨group, (merged.groups _ ne).trans isGroup, mem⟩, ?_⟩
    rintro y ⟨otherGroup, isO, otherMember⟩
    by_cases eq : y = recoupGroupId
    · -- the coin is not affected by this update
      rcases merged.group with ⟨same, _⟩ | ⟨new, isStored, affected⟩
      · rw [eq, same, isNew] at isO
        cases isO
      rw [eq] at isO
      cases isO.symm.trans isStored
      obtain ⟨affectedCoin, isC, revokes⟩ := (affected coinPub).mp otherMember
      cases isC.symm.trans isOld
      exact absurd pre (once _ revokes _)
    · rw [merged.groups y eq] at isO
      exact only y ⟨otherGroup, isO, otherMember⟩
  · have affects : downloaded.Affects baseUrl w.stores coinPub := by
      refine ⟨old, isOld, rfl, isListed, ?_⟩
      exact ofExchange ▸ unrevoked
    rcases merged.group with ⟨_, unaffected⟩ | ⟨new, isStored, affected⟩
    · exact absurd affects (unaffected coinPub)
    refine ⟨recoupGroupId, ⟨new, isStored, (affected coinPub).mpr affects⟩, ?_⟩
    rintro y ⟨otherGroup, isO, otherMember⟩
    by_contra ne
    rw [merged.groups y ne] at isO
    obtain ⟨grouped, isC, url, pre⟩ := sound.grouped y otherGroup isO coinPub otherMember
    cases isC.symm.trans isOld
    obtain ⟨affectedCoin, isAffected, revokes⟩ := affects
    cases isAffected.symm.trans isOld
    exact once _ revokes url pre

theorem Sound.merged_grouped (sound : w.Sound)
    (merged : Merged now baseUrl cgId downloaded w.stores after)
    (isNew : w.stores.recoupGroups.get? cgId = none) {gid : String} {group : RecoupGroupRecord}
    (h : after.recoupGroups.get? gid = some group) {pub : String}
    (mem : pub ∈ group.coinPubs) : ∃ c, after.coins.get? pub = some c ∧
      ∃ url, Revoked after.denominations (url, c.denomPubHash) := by
  obtain ⟨old, isOld, url, revoked⟩ : ∃ old, w.stores.coins.get? pub = some old ∧
        ∃ url, Revoked after.denominations (url, old.denomPubHash) := by
    by_cases eq : gid = cgId
    · rcases merged.group with ⟨same, _⟩ | ⟨new, isStored, affected⟩
      · rw [eq, same, isNew] at h
        cases h
      rw [eq] at h
      cases h.symm.trans isStored
      obtain ⟨c, isC, revokes⟩ := (affected pub).mp mem
      exact ⟨c, isC, baseUrl, (merged.revoked _).mpr (.inr revokes)⟩
    · rw [merged.groups gid eq] at h
      obtain ⟨c, isC, url, pre⟩ := sound.grouped gid group h pub mem
      exact ⟨c, isC, url, (merged.revoked _).mpr (.inl pre)⟩
  have isSame := merged.coins pub
  rw [isOld] at isSame
  obtain ⟨c, isC, identity⟩ := Option.map_eq_some_iff.mp isSame
  have sameHash : c.denomPubHash = old.denomPubHash := congrArg (fun key => key.2.2) identity
  exact ⟨c, isC, url, sameHash ▸ revoked⟩

theorem merged_getExchangeDetails (exchangesKeyed : ∀ url r, w.stores.exchanges.get? url = some r →
      r.baseUrl = url) (merged : Merged now url gid downloaded w.stores after) {other : String}
    (ne : other ≠ url) : after.getExchangeDetails other = w.stores.getExchangeDetails other := by
  obtain ⟨r, _, isExchanges⟩ := merged.exchange
  unfold ExchangeStores.getExchangeDetails
  rw [isExchanges, Record.get?_set_of_ne _ _ ne, merged.exchangeDetails]
  cases h : w.stores.exchanges.get? other with
  | none => rfl
  | some kept =>
    have isUrl := exchangesKeyed other kept h
    cases pointer : kept.detailsPointer with
    | none => simp only [Option.bind_eq_bind, Option.bind_some, pointer, Option.bind_none]
    | some dp =>
      simp only [Option.bind_eq_bind, Option.bind_some, pointer, isUrl]
      apply Record.get?_set_of_ne
      exact fun eq => ne (Prod.mk.inj eq).1

end Merged

end ExchangeWallet

namespace ExchangeWallet

variable {host : ExchangeHost} {wallet w : ExchangeWallet}

theorem note_keyLists (update : Update) (url : String) {downloaded : Downloaded}
    (isList : update.keyList host url = some downloaded.hashes) :
    (w.note host update url (.ok downloaded)).keyLists = w.keyLists.set url downloaded.hashes := by
  simp only [note, isList]

theorem Sound.merged (sound : w.Sound) {update : Update} {baseUrl : String}
    {downloaded : Downloaded} {after : ExchangeStores}
    (merged : Merged update.now baseUrl update.recoupGroupId downloaded w.stores after)
    (isNew : w.stores.recoupGroups.get? update.recoupGroupId = none)
    (isList : update.keyList host baseUrl = some downloaded.hashes)
    (unaccepted : ∀ dt, w.stores.getExchangeDetails baseUrl = some dt →
      dt.termsOfServiceAcceptedEtag ≠ some downloaded.tosDownload.tosEtag)
    (once : ∀ hash, downloaded.Revokes baseUrl w.stores.denominations (baseUrl, hash) →
      ∀ exchangeBaseUrl, ¬ Revoked w.stores.denominations (exchangeBaseUrl, hash)) :
    { w.note host update baseUrl (.ok downloaded) with stores := after }.Sound := by
  have exchangesKeyed := fun url r h => (sound.exchanges url r h).1
  obtain ⟨r, h, isExchanges⟩ := merged.exchange
  constructor
  · intro y
    simp only [failuresOf, note]
    rw [Record.get?_set]
    split
    · rfl
    · exact sound.unfailed y
  · intro y kept isStored
    rw [isExchanges, Record.get?_set] at isStored
    split at isStored
    next eq =>
      cases isStored
      rw [eq]
      exact ⟨exchangesKeyed baseUrl r h, rfl, rfl⟩
    next => exact sound.exchanges y kept isStored
  · intro key dt isStored
    rw [merged.exchangeDetails, Record.get?_set] at isStored
    split at isStored
    next eq =>
      cases isStored
      exact eq.symm
    next => exact sound.detailsKeyed key dt isStored
  · exact merged.keyed
  · intro pub c isStored
    obtain ⟨old, isOld, identity⟩ := coin_before merged.coins isStored
    have samePub : old.coinPub = c.coinPub := congrArg Prod.fst identity
    exact samePub.symm.trans (sound.coinsKeyed pub old isOld)
  · intro y kept isStored pointed
    rw [note_keyLists update baseUrl isList, Record.get?_set]
    by_cases eq : y = baseUrl
    · rw [if_pos eq, eq]
      exact ⟨_, rfl, merged.offered⟩
    rw [if_neg eq]
    rw [isExchanges, Record.get?_set_of_ne _ _ eq] at isStored
    obtain ⟨keys, isKeys, offered⟩ := sound.offered y kept isStored pointed
    exact ⟨keys, isKeys, fun hash => (merged.others (y, hash) eq).trans (offered hash)⟩
  · exact fun pub c isStored revoked =>
    sound.merged_recouped merged isNew once isStored revoked
  · exact fun gid group isStored pub mem =>
    sound.merged_grouped merged isNew isStored mem
  · intro y etag isAccepted
    simp only [note] at isAccepted
    have ne : y ≠ baseUrl ∧ w.acceptedTerms.get? y = some etag := by
      split at isAccepted
      next ran =>
        refine ⟨?_, isAccepted⟩
        rintro rfl
        obtain ⟨dt, isDetails, hasEtag⟩ := sound.accepted y _ ran
        exact unaccepted dt isDetails hasEtag
      next =>
        rw [Record.get?_erase] at isAccepted
        split at isAccepted
        next => cases isAccepted
        next ne => exact ⟨ne, isAccepted⟩
    obtain ⟨dt, isDetails, hasEtag⟩ := sound.accepted y etag ne.2
    refine ⟨dt, ?_, hasEtag⟩
    exact (merged_getExchangeDetails exchangesKeyed merged ne.1).trans isDetails

theorem update_sound (sound : wallet.Sound) {update : Update}
    (isNew : wallet.stores.recoupGroups.get? update.recoupGroupId = none)
    (cond : wallet.UpdateCondition host (.updateExchangeFromUrl update)) :
    (wallet.update host update).Sound := by
  have out := @updateExchangeFromUrl_outcome host update wallet.stores
    (fun url r h => (sound.exchanges url r h).1) sound.keyed sound.coinsKeyed
  unfold ExchangeWallet.update
  generalize (updateExchangeFromUrl host update wallet.stores).1 = after at out
  cases out with
  | invalid unfetched =>
    rw [unfetched]
    exact sound
  | @stored baseUrl after provided unmerged ofUrl =>
    cases isFetched : update.fetched host wallet.stores with
    | none => exact sound.provided provided
    | some fetched =>
      obtain ⟨url, result⟩ := fetched
      obtain ⟨downloaded, isOk, _⟩ := cond url result isFetched
      cases ofUrl url result isFetched
      cases isOk
      exact absurd isFetched (unmerged downloaded)
  | @merged baseUrl downloaded mid after fetched provided merged =>
    obtain ⟨eq, isOk, unaccepted, once⟩ := cond baseUrl _ fetched
    cases isOk
    rw [fetched]
    have middleSound := sound.provided provided
    refine @Sound.merged host { wallet with stores := mid } middleSound update baseUrl
      downloaded after merged ?_ (Update.fetched_ok fetched).2 ?_ ?_
    · dsimp only
      rw [provided.recoupGroups]
      exact isNew
    · intro dt isDetails
      exact unaccepted dt ((provided.getExchangeDetails baseUrl).symm.trans isDetails)
    intro hash revokes exchangeBaseUrl
    rw [provided.denominations] at revokes ⊢
    exact once hash revokes exchangeBaseUrl

theorem getExchangeDetails_key (sound : w.Sound) {url : String} {dt : ExchangeDetailsRecord}
    (h : w.stores.getExchangeDetails url = some dt) : ∃ r dp,
    w.stores.exchanges.get? url = some r ∧ r.baseUrl = url ∧ r.detailsPointer = some dp ∧
      (dt.exchangeBaseUrl, dt.currency, dt.masterPublicKey) =
        (url, dp.currency, dp.masterPublicKey) := by
  obtain ⟨r, isExchange, h⟩ := Option.bind_eq_some_iff.mp h
  obtain ⟨dp, pointed, h⟩ := Option.bind_eq_some_iff.mp h
  have isUrl := (sound.exchanges url r isExchange).1
  exact ⟨r, dp, isExchange, isUrl, pointed, isUrl ▸ sound.detailsKeyed _ dt h⟩

theorem putDetails_getExchangeDetails (sound : w.Sound) {url other : String}
    {dt details' : ExchangeDetailsRecord} (h : w.stores.getExchangeDetails url = some dt)
    (sameKey : (details'.exchangeBaseUrl, details'.currency, details'.masterPublicKey) =
      (dt.exchangeBaseUrl, dt.currency, dt.masterPublicKey)) :
    (w.stores.putDetails details').getExchangeDetails other =
      if other = url then some details' else w.stores.getExchangeDetails other := by
  obtain ⟨r, dp, isExchange, isUrl, pointed, isKey⟩ := getExchangeDetails_key sound h
  unfold ExchangeStores.getExchangeDetails ExchangeStores.putDetails
  rw [sameKey, isKey]
  split
  next eq =>
    rw [eq, isExchange]
    simp only [Option.bind_eq_bind, Option.bind_some, pointed, isUrl, Record.get?_set_self]
  next ne =>
    cases isO : w.stores.exchanges.get? other with
    | none => rfl
    | some kept =>
      have otherUrl := (sound.exchanges other kept isO).1
      cases pointer : kept.detailsPointer with
      | none => simp only [Option.bind_eq_bind, Option.bind_some, pointer, Option.bind_none]
      | some otherPointer =>
        simp only [Option.bind_eq_bind, Option.bind_some, pointer, otherUrl]
        apply Record.get?_set_of_ne
        exact fun eq => ne (Prod.mk.inj eq).1

theorem accept_sound (sound : w.Sound) (url : String) (etag : Option String) :
    (w.accept url etag).Sound := by
  unfold accept acceptExchangeTermsOfService
  cases h : w.stores.getExchangeDetails url with
  | none => exact sound
  | some details =>
    have replaced := fun y => @putDetails_getExchangeDetails w sound url y
      details { details with termsOfServiceAcceptedEtag := etag } h rfl
    constructor
    · exact sound.unfailed
    · exact sound.exchanges
    · intro key kept isStored
      simp only [ExchangeStores.putDetails] at isStored
      rw [Record.get?_set] at isStored
      split at isStored
      next eq =>
        cases isStored
        exact eq.symm
      next => exact sound.detailsKeyed key kept isStored
    · exact sound.keyed
    · exact sound.coinsKeyed
    · exact sound.offered
    · exact sound.recouped
    · exact sound.grouped
    · intro y otherEtag isAccepted
      rw [replaced]
      cases etag with
      | none =>
        rw [Record.get?_erase] at isAccepted
        split at isAccepted
        next => cases isAccepted
        next ne =>
          rw [if_neg ne]
          exact sound.accepted y otherEtag isAccepted
      | some etag =>
        rw [Record.get?_set] at isAccepted
        split at isAccepted
        next eq =>
          rw [if_pos eq]
          exact ⟨_, rfl, isAccepted⟩
        next ne =>
          rw [if_neg ne]
          exact sound.accepted y otherEtag isAccepted

theorem coin_sound (sound : wallet.Sound) {c : CoinRecord}
    (foreign : ∀ old, wallet.stores.coins.get? c.coinPub = some old →
      coinIdentity c = coinIdentity old) (unrevoked : wallet.stores.coins.get? c.coinPub = none →
      ¬ Revoked wallet.stores.denominations (c.exchangeBaseUrl, c.denomPubHash)) :
    { wallet with stores := wallet.stores.putCoin c }.Sound := by
  constructor
  · exact sound.unfailed
  · exact sound.exchanges
  · exact sound.detailsKeyed
  · exact sound.keyed
  · intro pub kept isStored
    simp only [ExchangeStores.putCoin] at isStored
    rw [Record.get?_set] at isStored
    split at isStored
    next eq =>
      cases isStored
      exact eq.symm
    next => exact sound.coinsKeyed pub kept isStored
  · exact sound.offered
  · intro pub kept isStored revoked
    simp only [ExchangeStores.putCoin] at isStored
    rw [Record.get?_set] at isStored
    split at isStored
    next eq =>
      cases isStored
      cases isOld : wallet.stores.coins.get? c.coinPub with
      | none => exact absurd revoked (unrevoked isOld)
      | some old =>
        have identity := foreign old isOld
        obtain ⟨sameUrl, sameHash⟩ := Prod.mk.inj (Prod.mk.inj identity).2
        rw [sameUrl, sameHash] at revoked
        rw [eq]
        exact sound.recouped c.coinPub old isOld revoked
    next => exact sound.recouped pub kept isStored revoked
  · intro gid group isGroup pub mem
    obtain ⟨old, isOld, revoked⟩ := sound.grouped gid group isGroup pub mem
    simp only [ExchangeStores.putCoin]
    rw [Record.get?_set]
    split
    next eq =>
      have sameHash : c.denomPubHash = old.denomPubHash :=
        congrArg (fun key => key.2.2) (foreign old (eq ▸ isOld))
      exact ⟨c, rfl, sameHash ▸ revoked⟩
    next => exact ⟨old, isOld, revoked⟩
  · exact sound.accepted

theorem denomination_sound (sound : w.Sound) {denom old : DenominationRecord}
    (isOld : w.stores.denominations.get? (denominationKey denom) = some old)
    (sameOffer : denom.isOffered = old.isOffered) (sameMark : denom.isRevoked = old.isRevoked) :
    { w with
      stores := { w.stores with
          denominations := putDenomination w.stores.denominations denom } }.Sound := by
  have isKey : (denom.exchangeBaseUrl, denom.denomPubHash) = denominationKey denom := rfl
  have offered : ∀ key, Offered (putDenomination w.stores.denominations denom) key ↔
      Offered w.stores.denominations key := by
    intro key
    rw [offered_iff, offered_iff, putDenomination, isKey, Record.get?_set]
    split
    next eq => rw [eq, isOld, Option.map_some, Option.map_some, sameOffer]
    next => rfl
  have revoked : ∀ key, Revoked (putDenomination w.stores.denominations denom) key ↔
      Revoked w.stores.denominations key := by
    intro key
    rw [revoked_iff, revoked_iff, putDenomination, isKey, Record.get?_set]
    split
    next eq => rw [eq, isOld, Option.map_some, Option.map_some, sameMark]
    next => rfl
  constructor
  · exact sound.unfailed
  · exact sound.exchanges
  · exact sound.detailsKeyed
  · exact sound.keyed.put denom
  · exact sound.coinsKeyed
  · intro baseUrl r h pointed
    obtain ⟨keys, isKeys, listed⟩ := sound.offered baseUrl r h pointed
    exact ⟨keys, isKeys, fun hash => (offered _).trans (listed hash)⟩
  · exact fun pub c h isRevoked =>
    sound.recouped pub c h ((revoked _).mp isRevoked)
  · intro gid group isGroup pub mem
    obtain ⟨c, isC, url, pre⟩ := sound.grouped gid group isGroup pub mem
    exact ⟨c, isC, url, (revoked _).mpr pre⟩
  · exact sound.accepted

theorem recoupGroup_sound (sound : wallet.Sound) {group old : RecoupGroupRecord}
    (isOld : wallet.stores.recoupGroups.get? group.recoupGroupId = some old)
    (sameCoins : group.coinPubs = old.coinPubs) :
    { wallet with stores := wallet.stores.putRecoupGroup group }.Sound := by
  have mem : ∀ gid pub,
      (∃ kept, (wallet.stores.putRecoupGroup group).recoupGroups.get? gid = some kept ∧
        pub ∈ kept.coinPubs) ↔ ∃ kept, wallet.stores.recoupGroups.get? gid = some kept ∧
        pub ∈ kept.coinPubs := by
    intro gid pub
    simp only [ExchangeStores.putRecoupGroup]
    rw [Record.get?_set]
    split
    next eq =>
      rw [eq, isOld]
      constructor
      · rintro ⟨kept, isStored, mem⟩
        cases isStored
        exact ⟨old, rfl, sameCoins ▸ mem⟩
      rintro ⟨kept, isStored, mem⟩
      cases isStored
      exact ⟨group, rfl, sameCoins ▸ mem⟩
    next => rfl
  refine ⟨sound.unfailed, sound.exchanges, sound.detailsKeyed, sound.keyed, sound.coinsKeyed,
    sound.offered, ?_, ?_, sound.accepted⟩
  · intro pub c h revoked
    obtain ⟨gid, inside, only⟩ := sound.recouped pub c h revoked
    exact ⟨gid, (mem _ _).mpr inside, fun y isO =>
      only y ((mem _ _).mp isO)⟩
  intro gid kept isStored pub inside
  obtain ⟨pre, isBefore, wasInside⟩ := (mem _ _).mp ⟨kept, isStored, inside⟩
  exact sound.grouped gid pre isBefore pub wasInside

theorem step_sound (sound : w.Sound) {ev : ExchangeEvent} {next : ExchangeWallet}
    (step : Guarded (UpdateCondition host) (ExchangeStep host) w ev next) : next.Sound := by
  obtain ⟨cond, foreign, isNext⟩ := step
  cases isNext
  cases ev with
  | updateExchangeFromUrl update => exact update_sound sound foreign cond
  | acceptExchangeTermsOfService url etag => exact accept_sound sound url etag
  | coin coin => exact coin_sound sound foreign cond
  | denomination dn =>
    obtain ⟨old, isOld, sameOffer, sameMark⟩ := foreign
    exact denomination_sound sound isOld sameOffer sameMark
  | recoupGroup group =>
    obtain ⟨old, isOld, sameCoins⟩ := foreign
    exact recoupGroup_sound sound isOld sameCoins

theorem failed_unrecorded {update : Update} {baseUrl err : String}
    (fetched : update.fetched host w.stores = some (baseUrl, .error err)) :
    ∃ r, (w.update host update).stores.exchanges.get? baseUrl = some r ∧
      (w.stores.exchanges.get? baseUrl = some r ∨
        r = ExchangeStores.newExchange update.now baseUrl) := by
  have isUrl : host.canonicalizeBaseUrl update.baseUrl = some baseUrl ∧
      (updateExchangeFromUrl host update w.stores).1 =
        (w.stores.provideExchangeRecord update.now baseUrl).2 := by
    unfold Update.fetched at fetched
    split at fetched
    next => cases fetched
    next url isUrl =>
      dsimp only at fetched
      split at fetched
      next => cases fetched
      next due =>
        obtain ⟨eq, failed⟩ := Prod.mk.inj (Option.some.inj fetched)
        subst eq
        refine ⟨isUrl, ?_⟩
        unfold updateExchangeFromUrl updateExchangeFromUrlImpl
        simp only [isUrl, due, failed, handleExchangeUpdateError_same]
  obtain ⟨r, h, either⟩ := (@provideExchangeRecord_provided w.stores update.now baseUrl).exchange
  refine ⟨r, ?_, either.imp_right And.right⟩
  rw [ExchangeWallet.update, isUrl.2]
  exact h

theorem Sound.failed (sound : w.Sound) {update : Update} {url err : String}
    (fetched : update.fetched host w.stores = some (url, .error err)) :
    ¬ (w.update host update).UpdatesKept := by
  intro kept
  obtain ⟨r, h, either⟩ := failed_unrecorded fetched
  have uncounted : r.retryInfo.retryCounter = 0 := by
    rcases either with pre | isNew
    · exact (sound.exchanges url r pre).2.1
    · rw [isNew]
      rfl
  have counted := (kept.counted url r h).1
  have failures : (w.update host update).failuresOf url = [err] := by
    simp only [ExchangeWallet.update, fetched, note, failuresOf, Record.get?_set_self,
      Option.getD_some]
    exact congrArg (· ++ [err]) (sound.unfailed url)
  rw [uncounted, failures] at counted
  cases counted

end ExchangeWallet

/-- In runs that meet the condition denominations, coins, terms and errors are kept; after the
first update that fails they are not. -/
theorem exchange_updates_kept {host : ExchangeHost} {events : List ExchangeEvent}
    {wallet : ExchangeWallet}
    (run : Run (Guarded (ExchangeWallet.UpdateCondition host) (ExchangeStep host)) .start events
      wallet) : wallet.UpdatesKept ∧ ∀ update baseUrl err,
        update.fetched host wallet.stores = some (baseUrl, .error err) →
          ¬ (wallet.update host update).UpdatesKept := by
  have sound : wallet.Sound := by
    apply run.invariant ExchangeWallet.Sound
    · exact ExchangeWallet.start_sound
    · exact fun _ _ _ sound step => ExchangeWallet.step_sound sound step
  exact ⟨sound.kept, fun _ _ _ fetched => sound.failed fetched⟩

/-! ## Examples -/

section Examples

def exampleHost : ExchangeHost where
  canonicalizeBaseUrl := some
  hashDenomPub := Backup.DenominationPubKey.rsaPublicKey
  isValidWireAccount := fun _ _ _ => true
  isValidWireFee := fun _ _ _ => true

def exampleDenom : Denomination where
  value := "KUDOS:10"
  denomPub := ⟨1, "D", none⟩
  feeWithdraw := "KUDOS:0.1"
  feeDeposit := "KUDOS:0"
  feeRefresh := "KUDOS:0"
  feeRefund := "KUDOS:0"
  stampStart := .at 0
  stampExpireWithdraw := .never
  stampExpireLegal := .never
  stampExpireDeposit := .never
  masterSig := "S"

def exampleKeys (recoup : List String) : KeysResponse where
  keys :=
    { denoms := [exampleDenom]
      masterPublicKey := "E"
      auditors := []
      listIssueDate := .at 0
      recoup := some recoup
      signkeys := []
      version := "10:0:0"
      reserveClosingDelay := .forever }
  expiry := none

def exampleUpdate (baseUrl recoupGroupId : String) (recoup : List String)
    (wire : Except String ExchangeWireJson) (etag : String) : Update where
  now := 1000
  baseUrl := baseUrl
  acceptedFormat := none
  forceNow := true
  answers :=
    { keys := .ok (exampleKeys recoup)
      wire := wire
      terms := fun _ => .ok ⟨"terms", etag, "text/plain"⟩ }
  recoupGroupId := recoupGroupId

def exampleCoin (coinPub exchangeBaseUrl : String) : CoinRecord where
  coinSource := .refresh "other"
  coinPub := coinPub
  coinPriv := "p"
  denomPub := ⟨1, "D", none⟩
  denomPubHash := "D"
  denomSig := ⟨1, "s"⟩
  currentAmount := ⟨"KUDOS", .ofValue 10⟩
  exchangeBaseUrl := exchangeBaseUrl
  suspended := false
  blindingKey := "b"
  coinEvHash := "h"
  status := .fresh

def updates (baseUrl recoupGroupId : String) (recoup : List String) : ExchangeEvent :=
  .updateExchangeFromUrl (exampleUpdate baseUrl recoupGroupId recoup (.ok ⟨[], .empty⟩) "v1")

def step? (wallet : ExchangeWallet) (event : ExchangeEvent) : Option ExchangeWallet :=
  match event with
  | .updateExchangeFromUrl update =>
    if (wallet.stores.recoupGroups.get? update.recoupGroupId).isNone then
      some (wallet.perform exampleHost event)
    else none
  | .acceptExchangeTermsOfService _ _ => some (wallet.perform exampleHost event)
  | .coin coin =>
    if (wallet.stores.coins.get? coin.coinPub).isNone then
      some (wallet.perform exampleHost event)
    else none
  | _ => none

theorem step?_step {wallet next : ExchangeWallet} {ev : ExchangeEvent}
    (ran : step? wallet ev = some next) : ExchangeStep exampleHost wallet ev next := by
  cases ev with
  | updateExchangeFromUrl update =>
    simp only [step?] at ran
    split at ran
    next isNew =>
      cases ran
      exact ⟨Option.isNone_iff_eq_none.mp isNew, rfl⟩
    next => cases ran
  | acceptExchangeTermsOfService url etag =>
    cases ran
    exact ⟨trivial, rfl⟩
  | coin coin =>
    simp only [step?] at ran
    split at ran
    next isNew =>
      cases ran
      refine ⟨?_, rfl⟩
      intro old isOld
      cases (Option.isNone_iff_eq_none.mp isNew).symm.trans isOld
    next => cases ran
  | denomination dn => cases ran
  | recoupGroup group => cases ran

def ExchangeWallet.isGrouped (wallet : ExchangeWallet) (recoupGroupId coinPub : String) : Bool :=
  ((wallet.stores.recoupGroups.get? recoupGroupId).map fun group =>
    decide (coinPub ∈ group.coinPubs)).getD false

theorem ExchangeWallet.isGrouped_iff {w : ExchangeWallet} {gid pub : String} :
    w.isGrouped gid pub = true ↔ ∃ group, w.stores.recoupGroups.get? gid = some group ∧
        pub ∈ group.coinPubs := by
  unfold ExchangeWallet.isGrouped
  cases w.stores.recoupGroups.get? gid with
  | none => simp
  | some group => simp

def failedEvents : List ExchangeEvent :=
  [.updateExchangeFromUrl (exampleUpdate "https://a/" "first" [] (.error "timeout") "v1")]

def acceptedEvents : List ExchangeEvent :=
  [updates "https://a/" "first" [], .acceptExchangeTermsOfService "https://a/" (some "v1"),
    updates "https://a/" "first" []]

def mirroredEvents : List ExchangeEvent :=
  [updates "https://a/" "first" [], .coin (exampleCoin "coin" "https://a/"),
    updates "https://b/" "first" ["D"], updates "https://a/" "second" ["D"]]

/-- A failed update is not counted, accepted terms are forgotten, and a coin is in two recoup
groups. -/
theorem exchange_updates_not_kept :
    (∃ events wallet, Run (ExchangeStep exampleHost) .start events wallet ∧
      wallet.failuresOf "https://a/" = ["timeout"] ∧ ¬ wallet.UpdatesKept) ∧
    (∃ events wallet, Run (ExchangeStep exampleHost) .start events wallet ∧
      wallet.acceptedTerms.get? "https://a/" = some "v1" ∧ ¬ wallet.UpdatesKept) ∧
    (∃ events wallet, Run (ExchangeStep exampleHost) .start events wallet ∧
      Revoked wallet.stores.denominations ("https://a/", "D") ∧ ¬ wallet.UpdatesKept) := by
  refine ⟨?_, ?_, ?_⟩
  · have reaches : (failedEvents.foldlM step? .start).map (fun wallet =>
        (wallet.failuresOf "https://a/", (wallet.stores.exchanges.get? "https://a/").map
          fun r => r.retryInfo.retryCounter)) = some (["timeout"], some 0) := by decide +kernel
    obtain ⟨wallet, isWallet, isState⟩ := Option.map_eq_some_iff.mp reaches
    obtain ⟨isFailures, isCounter⟩ := Prod.mk.inj isState
    refine ⟨_, wallet, Run.ofFoldlM (fun _ _ _ => step?_step) isWallet, isFailures, ?_⟩
    intro kept
    obtain ⟨r, found, uncounted⟩ := Option.map_eq_some_iff.mp isCounter
    have counted := (kept.counted "https://a/" r found).1
    rw [uncounted, isFailures] at counted
    cases counted
  · have reaches : (acceptedEvents.foldlM step? .start).map (fun wallet =>
        (wallet.acceptedTerms.get? "https://a/", (wallet.stores.getExchangeDetails "https://a/").map
          fun d => d.termsOfServiceAcceptedEtag)) = some (some "v1", some none) := by decide +kernel
    obtain ⟨wallet, isWallet, isState⟩ := Option.map_eq_some_iff.mp reaches
    obtain ⟨isAccepted, isForgotten⟩ := Prod.mk.inj isState
    refine ⟨_, wallet, Run.ofFoldlM (fun _ _ _ => step?_step) isWallet, isAccepted, ?_⟩
    intro kept
    obtain ⟨details, isDetails, hasEtag⟩ := kept.accepted "https://a/" "v1" isAccepted
    rw [isDetails, Option.map_some, hasEtag] at isForgotten
    cases isForgotten
  · have reaches : (mirroredEvents.foldlM step? .start).map (fun wallet =>
        ((wallet.stores.denominations.get? ("https://a/", "D")).map (fun denom => denom.isRevoked),
          (wallet.stores.coins.get? "coin").map coinIdentity,
          wallet.isGrouped "first" "coin", wallet.isGrouped "second" "coin")) =
        some (some true, some ("coin", "https://a/", "D"), true, true) := by decide +kernel
    obtain ⟨wallet, isWallet, isState⟩ := Option.map_eq_some_iff.mp reaches
    obtain ⟨isRevoked, isState⟩ := Prod.mk.inj isState
    obtain ⟨isCoin, isState⟩ := Prod.mk.inj isState
    obtain ⟨inFirst, inSecond⟩ := Prod.mk.inj isState
    have revoked : Revoked wallet.stores.denominations ("https://a/", "D") := revoked_iff.mpr isRevoked
    refine ⟨_, wallet, Run.ofFoldlM (fun _ _ _ => step?_step) isWallet, revoked, ?_⟩
    intro kept
    obtain ⟨coin, found, identity⟩ := Option.map_eq_some_iff.mp isCoin
    obtain ⟨_, isDenom⟩ := Prod.mk.inj identity
    obtain ⟨recoupGroupId, _, only⟩ := kept.recouped "coin" coin found (isDenom ▸ revoked)
    have isFirst := only "first" (ExchangeWallet.isGrouped_iff.mp inFirst)
    have isSecond := only "second" (ExchangeWallet.isGrouped_iff.mp inSecond)
    exact absurd (isFirst.trans isSecond.symm) (by decide)

/-- Some of the updates that meet the condition: they download, and replace no accepted terms. -/
def ExchangeWallet.careful (wallet : ExchangeWallet) : ExchangeEvent → Bool
  | .updateExchangeFromUrl update =>
    match update.fetched exampleHost wallet.stores with
    | none => true
    | some (baseUrl, .ok _) =>
      (wallet.stores.getExchangeDetails baseUrl).all (fun details =>
        details.termsOfServiceAcceptedEtag.isNone) &&
      wallet.stores.denominations.values.all fun denom => !denom.isRevoked
    | some (_, .error _) => false
  | .coin _ => wallet.stores.denominations.values.all fun denom => !denom.isRevoked
  | _ => true

theorem not_revoked {denominations : Denominations}
    (valid : (denominations.values.all fun denom => !denom.isRevoked) = true)
    (key : String × String) : ¬ Revoked denominations key := by
  rintro ⟨denom, got, isRevoked⟩
  have isValid := List.all_eq_true.mp valid denom (Record.mem_values_iff.mpr ⟨key, got⟩)
  rw [isRevoked] at isValid
  cases isValid

theorem ExchangeWallet.careful_condition {w : ExchangeWallet} {event : ExchangeEvent}
    (careful : w.careful event = true) : w.UpdateCondition exampleHost event := by
  cases event with
  | updateExchangeFromUrl update =>
    intro url fetched isFetched
    simp only [ExchangeWallet.careful, isFetched] at careful
    cases fetched with
    | error err => cases careful
    | ok downloaded =>
      obtain ⟨unaccepted, valid⟩ := Bool.and_eq_true_iff.mp careful
      refine ⟨downloaded, rfl, ?_, fun _ _ _ => not_revoked valid _⟩
      intro dt isDetails hasEtag
      rw [isDetails, Option.all_some, hasEtag] at unaccepted
      cases unaccepted
  | coin coin => exact fun _ => not_revoked careful _
  | _ => exact trivial

def carefulStep? (wallet : ExchangeWallet) (event : ExchangeEvent) : Option ExchangeWallet :=
  if wallet.careful event then step? wallet event else none

theorem carefulStep?_guarded {w next : ExchangeWallet} {ev : ExchangeEvent}
    (r : carefulStep? w ev = some next) :
    Guarded (ExchangeWallet.UpdateCondition exampleHost) (ExchangeStep exampleHost) w ev
      next := by
  unfold carefulStep? at r
  split at r
  next careful => exact ⟨ExchangeWallet.careful_condition careful, step?_step r⟩
  next => cases r

/-- A denomination is revoked while the wallet has a coin of it, and then terms are accepted. -/
def revokedEvents : List ExchangeEvent :=
  [updates "https://a/" "first" [], .coin (exampleCoin "coin" "https://a/"),
    updates "https://a/" "first" ["D"], .acceptExchangeTermsOfService "https://a/" (some "v1")]

theorem exchange_updates_kept_revoked : ∃ events wallet,
    Run (Guarded (ExchangeWallet.UpdateCondition exampleHost) (ExchangeStep exampleHost)) .start
      events wallet ∧ wallet.isGrouped "first" "coin" = true ∧
      wallet.acceptedTerms.get? "https://a/" = some "v1" ∧ wallet.UpdatesKept := by
  have reaches : (revokedEvents.foldlM carefulStep? .start).map
      (fun wallet => (wallet.isGrouped "first" "coin", wallet.acceptedTerms.get? "https://a/")) =
      some (true, some "v1") := by decide +kernel
  obtain ⟨wallet, isWallet, isState⟩ := Option.map_eq_some_iff.mp reaches
  obtain ⟨isGrouped, isAccepted⟩ := Prod.mk.inj isState
  have run : Run (Guarded (ExchangeWallet.UpdateCondition exampleHost) (ExchangeStep exampleHost))
      .start revokedEvents wallet := Run.ofFoldlM (fun _ _ _ => carefulStep?_guarded) isWallet
  exact ⟨_, wallet, run, isGrouped, isAccepted, (exchange_updates_kept run).1⟩

end Examples

end Anastasis.Wallet.Exchanges
