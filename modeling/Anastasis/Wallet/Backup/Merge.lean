import Anastasis.Library.Merge
import Anastasis.Wallet.Backup.Import

/-! What an import keeps of the stores, what tombstones delete, and that a second import of the
same blob finds nothing to do. -/

set_option autoImplicit false

namespace Anastasis.Wallet.Backup

open Library

/-- The first two parts of the tombstone are the tag and the identifier. -/
def Names (tombstone : String) (tag : TombstoneTag) (id : String) : Prop :=
  splitTombstone tombstone = (tag.text, some id)

theorem TombstoneTag.text_injective {tag other : TombstoneTag} (eq : tag.text = other.text) :
    tag = other := by
  cases tag <;> cases other <;> first | rfl | exact absurd eq (by decide)

theorem Names.unique {tomb : String} {tag y : TombstoneTag} {id otherId : String}
    (names : Names tomb tag id) (ys : Names tomb y otherId) : tag = y ∧ id = otherId := by
  have eq := names.symm.trans ys
  exact ⟨TombstoneTag.text_injective (congrArg Prod.fst eq), Option.some.inj (congrArg Prod.snd eq)⟩

structure KeptUnless (dead : TombstoneTag → String → Prop) (before after : Stores) : Prop where
  config : ∀ conf, before.config = some conf → after.config = some conf
  exchanges : Kept (fun _ => False) before.exchanges after.exchanges
  exchangeDetails : Kept (fun _ => False) before.exchangeDetails after.exchangeDetails
  coins : Kept (fun _ => False) before.coins after.coins
  denominations : Kept (fun _ => False) before.denominations after.denominations
  purchases : Kept (dead .deletePayment) before.purchases after.purchases
  proposals : Kept (dead .deletePayment) before.proposals after.proposals
  refreshGroups : Kept (dead .deleteRefreshGroup) before.refreshGroups after.refreshGroups
  backupProviders : Kept (fun _ => False) before.backupProviders after.backupProviders
  tips : Kept (dead .deleteTip) before.tips after.tips
  recoupGroups : Kept (fun _ => False) before.recoupGroups after.recoupGroups
  reserves : Kept (dead .deleteReserve) before.reserves after.reserves
  withdrawalGroups : Kept (dead .deleteWithdrawalGroup) before.withdrawalGroups
    after.withdrawalGroups
  tombstones : Kept (fun _ => False) before.tombstones after.tombstones
  depositGroups : Kept (dead .deleteDepositGroup) before.depositGroups after.depositGroups

namespace KeptUnless

variable {dead : TombstoneTag → String → Prop}

theorem refl (stores : Stores) : KeptUnless dead stores stores where
  config := fun _ eq => eq
  exchanges := .refl _
  exchangeDetails := .refl _
  coins := .refl _
  denominations := .refl _
  purchases := .refl _
  proposals := .refl _
  refreshGroups := .refl _
  backupProviders := .refl _
  tips := .refl _
  recoupGroups := .refl _
  reserves := .refl _
  withdrawalGroups := .refl _
  tombstones := .refl _
  depositGroups := .refl _

theorem trans {x y third : Stores} (early : KeptUnless dead x y)
    (late : KeptUnless dead y third) : KeptUnless dead x third where
  config := fun conf eq => late.config conf (early.config conf eq)
  exchanges := early.exchanges.trans late.exchanges
  exchangeDetails := early.exchangeDetails.trans late.exchangeDetails
  coins := early.coins.trans late.coins
  denominations := early.denominations.trans late.denominations
  purchases := early.purchases.trans late.purchases
  proposals := early.proposals.trans late.proposals
  refreshGroups := early.refreshGroups.trans late.refreshGroups
  backupProviders := early.backupProviders.trans late.backupProviders
  tips := early.tips.trans late.tips
  recoupGroups := early.recoupGroups.trans late.recoupGroups
  reserves := early.reserves.trans late.reserves
  withdrawalGroups := early.withdrawalGroups.trans late.withdrawalGroups
  tombstones := early.tombstones.trans late.tombstones
  depositGroups := early.depositGroups.trans late.depositGroups

end KeptUnless

namespace Stores

/-- The stores have no object of the kind of the tag under the identifier. -/
def Absent (stores : Stores) (tag : TombstoneTag) (id : String) : Prop :=
  match tag with
  | .deleteWithdrawalGroup => stores.withdrawalGroups.get? id = none
  | .deleteReserve => stores.reserves.get? id = none
  | .deletePayment => stores.purchases.get? id = none ∧ stores.proposals.get? id = none
  | .deleteTip => stores.tips.get? id = none
  | .deleteRefreshGroup => stores.refreshGroups.get? id = none
  | .deleteDepositGroup => stores.depositGroups.get? id = none
  | .deleteRefund => True

end Stores

theorem KeptUnless.antisymm {dead : TombstoneTag → String → Prop} {left right : Stores}
    (toRight : KeptUnless dead left right) (toLeft : KeptUnless dead right left)
    (leftClean : ∀ tag id, dead tag id → left.Absent tag id)
    (rightClean : ∀ tag id, dead tag id → right.Absent tag id) : left = right := by
  have config : left.config = right.config := by
    apply Option.ext
    intro conf
    exact ⟨toRight.config conf, toLeft.config conf⟩
  have exs := toRight.exchanges.antisymm toLeft.exchanges nofun nofun
  have exchangeDetails := toRight.exchangeDetails.antisymm toLeft.exchangeDetails nofun nofun
  have cs := toRight.coins.antisymm toLeft.coins nofun nofun
  have ds := toRight.denominations.antisymm toLeft.denominations nofun nofun
  have buys := toRight.purchases.antisymm toLeft.purchases
    (fun id isDead => (leftClean .deletePayment id isDead).1)
    (fun id isDead => (rightClean .deletePayment id isDead).1)
  have proposals := toRight.proposals.antisymm toLeft.proposals
    (fun id isDead => (leftClean .deletePayment id isDead).2)
    (fun id isDead => (rightClean .deletePayment id isDead).2)
  have refreshGroups := toRight.refreshGroups.antisymm toLeft.refreshGroups
    (leftClean .deleteRefreshGroup) (rightClean .deleteRefreshGroup)
  have backupProviders := toRight.backupProviders.antisymm toLeft.backupProviders nofun nofun
  have tips := toRight.tips.antisymm toLeft.tips (leftClean .deleteTip) (rightClean .deleteTip)
  have recoupGroups := toRight.recoupGroups.antisymm toLeft.recoupGroups nofun nofun
  have reserves := toRight.reserves.antisymm toLeft.reserves (leftClean .deleteReserve)
    (rightClean .deleteReserve)
  have groups := toRight.withdrawalGroups.antisymm toLeft.withdrawalGroups
    (leftClean .deleteWithdrawalGroup) (rightClean .deleteWithdrawalGroup)
  have tombstones := toRight.tombstones.antisymm toLeft.tombstones nofun nofun
  have depositGroups := toRight.depositGroups.antisymm toLeft.depositGroups
    (leftClean .deleteDepositGroup) (rightClean .deleteDepositGroup)
  cases left
  cases right
  rw [Stores.mk.injEq]
  exact ⟨config, exs, exchangeDetails, cs, ds, buys, proposals,
    refreshGroups, backupProviders, tips, recoupGroups, reserves, groups, tombstones,
    depositGroups⟩

/-- What a merge does to the stores while their tombstones stay as they are. -/
structure Grown (dead : TombstoneTag → String → Prop) (before after : Stores) : Prop where
  kept : KeptUnless dead before after
  tombstones : after.tombstones = before.tombstones

namespace Grown

variable {dead : TombstoneTag → String → Prop}

instance : Std.Refl (Grown dead) where
  refl stores := ⟨.refl stores, rfl⟩

instance : IsTrans Stores (Grown dead) where
  trans _ _ _ early late := ⟨early.kept.trans late.kept, late.tombstones.trans early.tombstones⟩

theorem isTombstoned (tag : TombstoneTag) (id : String) {pre after : Stores}
    (grown : Grown dead pre after) (tombstoned : pre.isTombstoned tag id) :
    after.isTombstoned tag id := by
  rw [Stores.isTombstoned, grown.tombstones]
  exact tombstoned

/-! The parts of the stores that an import puts into or deletes from. -/

theorem exchangesPart : Part (Grown dead) (fun _ => False) Stores.exchanges
    fun stores exchanges => { stores with exchanges := exchanges } where
  view_put _ _ := rfl
  kept grown := grown.kept.exchanges
  grow kept := ⟨{ KeptUnless.refl _ with exchanges := kept }, rfl⟩
  shrink kept := ⟨{ KeptUnless.refl _ with exchanges := kept }, rfl⟩

theorem exchangeDetailsPart : Part (Grown dead) (fun _ => False) Stores.exchangeDetails
    fun stores exchangeDetails => { stores with exchangeDetails := exchangeDetails } where
  view_put _ _ := rfl
  kept grown := grown.kept.exchangeDetails
  grow kept := ⟨{ KeptUnless.refl _ with exchangeDetails := kept }, rfl⟩
  shrink kept := ⟨{ KeptUnless.refl _ with exchangeDetails := kept }, rfl⟩

theorem coinsPart : Part (Grown dead) (fun _ => False) Stores.coins
    fun stores coins => { stores with coins := coins } where
  view_put _ _ := rfl
  kept grown := grown.kept.coins
  grow kept := ⟨{ KeptUnless.refl _ with coins := kept }, rfl⟩
  shrink kept := ⟨{ KeptUnless.refl _ with coins := kept }, rfl⟩

theorem denominationsPart : Part (Grown dead) (fun _ => False) Stores.denominations
    fun stores denominations => { stores with denominations := denominations } where
  view_put _ _ := rfl
  kept grown := grown.kept.denominations
  grow kept := ⟨{ KeptUnless.refl _ with denominations := kept }, rfl⟩
  shrink kept := ⟨{ KeptUnless.refl _ with denominations := kept }, rfl⟩

theorem purchasesPart : Part (Grown dead) (dead .deletePayment) Stores.purchases
    fun stores purchases => { stores with purchases := purchases } where
  view_put _ _ := rfl
  kept grown := grown.kept.purchases
  grow kept := ⟨{ KeptUnless.refl _ with purchases := kept }, rfl⟩
  shrink kept := ⟨{ KeptUnless.refl _ with purchases := kept }, rfl⟩

theorem proposalsPart : Part (Grown dead) (dead .deletePayment) Stores.proposals
    fun stores proposals => { stores with proposals := proposals } where
  view_put _ _ := rfl
  kept grown := grown.kept.proposals
  grow kept := ⟨{ KeptUnless.refl _ with proposals := kept }, rfl⟩
  shrink kept := ⟨{ KeptUnless.refl _ with proposals := kept }, rfl⟩

theorem refreshGroupsPart : Part (Grown dead) (dead .deleteRefreshGroup) Stores.refreshGroups
    fun stores refreshGroups => { stores with refreshGroups := refreshGroups } where
  view_put _ _ := rfl
  kept grown := grown.kept.refreshGroups
  grow kept := ⟨{ KeptUnless.refl _ with refreshGroups := kept }, rfl⟩
  shrink kept := ⟨{ KeptUnless.refl _ with refreshGroups := kept }, rfl⟩

theorem tipsPart : Part (Grown dead) (dead .deleteTip) Stores.tips
    fun stores tips => { stores with tips := tips } where
  view_put _ _ := rfl
  kept grown := grown.kept.tips
  grow kept := ⟨{ KeptUnless.refl _ with tips := kept }, rfl⟩
  shrink kept := ⟨{ KeptUnless.refl _ with tips := kept }, rfl⟩

theorem reservesPart : Part (Grown dead) (dead .deleteReserve) Stores.reserves
    fun stores reserves => { stores with reserves := reserves } where
  view_put _ _ := rfl
  kept grown := grown.kept.reserves
  grow kept := ⟨{ KeptUnless.refl _ with reserves := kept }, rfl⟩
  shrink kept := ⟨{ KeptUnless.refl _ with reserves := kept }, rfl⟩

theorem withdrawalGroupsPart : Part (Grown dead) (dead .deleteWithdrawalGroup)
    Stores.withdrawalGroups
    fun stores withdrawalGroups => { stores with withdrawalGroups := withdrawalGroups } where
  view_put _ _ := rfl
  kept grown := grown.kept.withdrawalGroups
  grow kept := ⟨{ KeptUnless.refl _ with withdrawalGroups := kept }, rfl⟩
  shrink kept := ⟨{ KeptUnless.refl _ with withdrawalGroups := kept }, rfl⟩

theorem depositGroupsPart : Part (Grown dead) (dead .deleteDepositGroup) Stores.depositGroups
    fun stores depositGroups => { stores with depositGroups := depositGroups } where
  view_put _ _ := rfl
  kept grown := grown.kept.depositGroups
  grow kept := ⟨{ KeptUnless.refl _ with depositGroups := kept }, rfl⟩
  shrink kept := ⟨{ KeptUnless.refl _ with depositGroups := kept }, rfl⟩

end Grown

namespace Stores

variable {dead : TombstoneTag → String → Prop}

/-! The second pass. -/

def delete (stores : Stores) (tag : TombstoneTag) (id : String) : Stores :=
  match tag with
  | .deleteWithdrawalGroup => { stores with withdrawalGroups := stores.withdrawalGroups.erase id }
  | .deleteReserve => { stores with reserves := stores.reserves.erase id }
  | .deletePayment =>
    { stores with
      purchases := stores.purchases.erase id
      proposals := stores.proposals.erase id }
  | .deleteTip => { stores with tips := stores.tips.erase id }
  | .deleteRefreshGroup => { stores with refreshGroups := stores.refreshGroups.erase id }
  | .deleteDepositGroup => { stores with depositGroups := stores.depositGroups.erase id }
  | .deleteRefund => stores

theorem absent_delete (stores : Stores) (tag : TombstoneTag) (id : String) :
    (stores.delete tag id).Absent tag id := by
  cases tag with
  | deletePayment =>
    constructor
    · exact (SortedMap.get?_erase _ _ _).trans (if_pos rfl)
    · exact (SortedMap.get?_erase _ _ _).trans (if_pos rfl)
  | deleteRefund => trivial
  | _ => exact (SortedMap.get?_erase _ _ _).trans (if_pos rfl)

theorem delete_shrinks (stores : Stores) (tag : TombstoneTag) (id : String) :
    Grown dead (stores.delete tag id) stores := by
  cases tag with
  | deleteWithdrawalGroup => exact Grown.withdrawalGroupsPart.shrink (.ofErase _ _)
  | deleteReserve => exact Grown.reservesPart.shrink (.ofErase _ _)
  | deletePayment =>
    let without : Stores := { stores with purchases := stores.purchases.erase id }
    have purchases : Grown dead without stores := Grown.purchasesPart.shrink (.ofErase _ _)
    have proposals : Grown dead { without with proposals := without.proposals.erase id } without :=
      Grown.proposalsPart.shrink (.ofErase _ _)
    exact IsTrans.trans _ _ _ proposals purchases
  | deleteTip => exact Grown.tipsPart.shrink (.ofErase _ _)
  | deleteRefreshGroup => exact Grown.refreshGroupsPart.shrink (.ofErase _ _)
  | deleteDepositGroup => exact Grown.depositGroupsPart.shrink (.ofErase _ _)
  | deleteRefund => exact refl_of (Grown dead) stores

theorem delete_keeps (stores : Stores) {tag : TombstoneTag} {id : String} (isDead : dead tag id) :
    Grown dead stores (stores.delete tag id) := by
  cases tag with
  | deleteWithdrawalGroup => exact Grown.withdrawalGroupsPart.grow (.eraseDead isDead)
  | deleteReserve => exact Grown.reservesPart.grow (.eraseDead isDead)
  | deletePayment =>
    let without : Stores := { stores with purchases := stores.purchases.erase id }
    have purchases : Grown dead stores without := Grown.purchasesPart.grow (.eraseDead isDead)
    have proposals : Grown dead without { without with proposals := without.proposals.erase id } :=
      Grown.proposalsPart.grow (.eraseDead isDead)
    exact IsTrans.trans _ _ _ purchases proposals
  | deleteTip => exact Grown.tipsPart.grow (.eraseDead isDead)
  | deleteRefreshGroup => exact Grown.refreshGroupsPart.grow (.eraseDead isDead)
  | deleteDepositGroup => exact Grown.depositGroupsPart.grow (.eraseDead isDead)
  | deleteRefund => exact refl_of (Grown dead) stores

variable {stores after : Stores}

/-- A tombstone deletes the object that it names; the tombstone of a refund, and one of an unknown
type, deletes nothing. -/
theorem processTombstone_cases {tombstone : String}
    (r : stores.processTombstone tombstone = some after) :
    after = stores ∧ (∀ tag id, Names tombstone tag id → tag = .deleteRefund) ∨
      ∃ tag id, Names tombstone tag id ∧ after = stores.delete tag id := by
  obtain ⟨type, id, parts⟩ : ∃ type id, splitTombstone tombstone = (type, id) := ⟨_, _, rfl⟩
  have named : ∀ {tag : TombstoneTag} {found}, type = tag.text → id = some found →
      Names tombstone tag found := by
    rintro tag found rfl rfl
    exact parts
  have typed : ∀ {tag found}, Names tombstone tag found → type = tag.text := by
    intro tag found names
    exact congrArg Prod.fst (parts.symm.trans names)
  have deletes : ∀ {tag : TombstoneTag} {change : String → Stores},
      change = stores.delete tag → type = tag.text → id.map change = some after →
        ∃ tag id, Names tombstone tag id ∧ after = stores.delete tag id := by
    rintro tag _ rfl isType changed
    obtain ⟨found, h, rfl⟩ := Option.map_eq_some_iff.mp changed
    exact ⟨tag, found, named isType h, rfl⟩
  rw [processTombstone, parts] at r
  dsimp only at r
  split at r
  next isType => exact .inr (@deletes .deleteDepositGroup _ rfl isType r)
  next notDeposit =>
  split at r
  next isType => exact .inr (@deletes .deletePayment _ rfl isType r)
  next notPayment =>
  split at r
  next isType => exact .inr (@deletes .deleteRefreshGroup _ rfl isType r)
  next notRefresh =>
  split at r
  next isType =>
    cases r
    refine .inl ⟨rfl, fun tag found names => ?_⟩
    exact TombstoneTag.text_injective ((typed names).symm.trans isType)
  next notRefund =>
  split at r
  next isType => exact .inr (@deletes .deleteReserve _ rfl isType r)
  next notReserve =>
  split at r
  next isType => exact .inr (@deletes .deleteTip _ rfl isType r)
  next notTip =>
  split at r
  next isType => exact .inr (@deletes .deleteWithdrawalGroup _ rfl isType r)
  next notWithdrawal =>
    cases r
    refine .inl ⟨rfl, fun tag found names => ?_⟩
    have isType := typed names
    cases tag with
    | deleteWithdrawalGroup => exact absurd isType notWithdrawal
    | deleteReserve => exact absurd isType notReserve
    | deletePayment => exact absurd isType notPayment
    | deleteTip => exact absurd isType notTip
    | deleteRefreshGroup => exact absurd isType notRefresh
    | deleteDepositGroup => exact absurd isType notDeposit
    | deleteRefund => rfl

theorem absent_of_shrunk {pre : Stores} (shrunk : Grown (fun _ _ => False) after pre)
    {tag : TombstoneTag} {id : String} (absent : pre.Absent tag id) : after.Absent tag id := by
  have gone : ∀ {Value : Type} {left right : SortedMap String Value},
      Kept (fun _ => False) left right → right.get? id = none → left.get? id = none := by
    intro Value left right kept none
    cases has : left.get? id with
    | none => rfl
    | some v => exact absurd (none.symm.trans (kept.found not_false has)) nofun
  cases tag with
  | deleteWithdrawalGroup => exact gone shrunk.kept.withdrawalGroups absent
  | deleteReserve => exact gone shrunk.kept.reserves absent
  | deletePayment =>
    exact ⟨gone shrunk.kept.purchases absent.1, gone shrunk.kept.proposals absent.2⟩
  | deleteTip => exact gone shrunk.kept.tips absent
  | deleteRefreshGroup => exact gone shrunk.kept.refreshGroups absent
  | deleteDepositGroup => exact gone shrunk.kept.depositGroups absent
  | deleteRefund => trivial

theorem processTombstone_shrinks {tomb : String}
    (r : stores.processTombstone tomb = some after) : Grown dead after stores := by
  rcases processTombstone_cases r with ⟨rfl, _⟩ | ⟨tag, id, _, rfl⟩
  · exact refl_of (Grown dead) after
  · exact delete_shrinks stores tag id

variable {tombstones : List String}

theorem processTombstones_shrink (r : tombstones.foldlM processTombstone stores = some after) :
    Grown dead after stores := by
  induction tombstones generalizing stores with
  | nil =>
    cases r
    exact refl_of (Grown dead) after
  | cons tomb rest ih =>
    obtain ⟨between, one, ys⟩ := Option.bind_eq_some_iff.mp r
    exact IsTrans.trans _ _ _ (ih ys) (processTombstone_shrinks one)

theorem processTombstones_keep
    (allDead : ∀ tomb ∈ tombstones, ∀ tag id, Names tomb tag id → dead tag id)
    (r : tombstones.foldlM processTombstone stores = some after) : Grown dead stores after := by
  induction tombstones generalizing stores with
  | nil =>
    cases r
    exact refl_of (Grown dead) after
  | cons tomb rest ih =>
    obtain ⟨between, one, ys⟩ := Option.bind_eq_some_iff.mp r
    have kept : Grown dead stores between := by
      rcases processTombstone_cases one with ⟨rfl, _⟩ | ⟨tag, id, names, rfl⟩
      · exact refl_of (Grown dead) between
      · exact delete_keeps stores (allDead tomb List.mem_cons_self tag id names)
    have later := ih (fun tomb mem => allDead tomb (List.mem_cons_of_mem _ mem)) ys
    exact IsTrans.trans _ _ _ kept later

theorem processTombstones_absent
    (r : tombstones.foldlM processTombstone stores = some after) {tomb : String}
    (mem : tomb ∈ tombstones) {tag : TombstoneTag} {id : String}
    (names : Names tomb tag id) : after.Absent tag id := by
  induction tombstones generalizing stores with
  | nil => cases mem
  | cons head rest ih =>
    obtain ⟨between, one, later⟩ := Option.bind_eq_some_iff.mp r
    rcases List.mem_cons.mp mem with rfl | mem
    · have gone : between.Absent tag id := by
        rcases processTombstone_cases one with ⟨rfl, onlyRefund⟩ | ⟨y, otherId, ys, rfl⟩
        · cases onlyRefund tag id names
          trivial
        · obtain ⟨rfl, rfl⟩ := names.unique ys
          exact absent_delete stores tag id
      exact absent_of_shrunk (processTombstones_shrink later) gone
    · exact ih later mem

end Stores

end Anastasis.Wallet.Backup
