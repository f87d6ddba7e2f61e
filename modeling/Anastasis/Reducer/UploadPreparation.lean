import Anastasis.Reducer.Upload

/-! Preparing the truths of an upload: there is one truth upload for every key, and each
truth of the state is stored already or about to be uploaded. -/

set_option autoImplicit false

namespace Anastasis.Reducer

open Library List Option
open Anastasis.Client

variable (host : Host)

def TruthUpload.key (tue : TruthUpload) : String × Nat := (tue.providerUrl, tue.amIdx)

def PolicyMethod.key (method : PolicyMethod) : String × Nat :=
  (method.provider, method.authenticationMethod)

def TruthUpload.running (tue : TruthUpload) : Bool := tue.tu.isSome

@[simp] theorem matchesKey_iff (providerUrl : String) (amIdx : Nat) (tue : TruthUpload) :
    matchesKey providerUrl amIdx tue = true ↔ tue.key = (providerUrl, amIdx) := by
  simp only [matchesKey, TruthUpload.key, Bool.and_eq_true, decide_eq_true_eq, Prod.mk.injEq]
  exact and_congr_right fun _ => eq_comm

/-- What it means that the truth upload at one key was put into a list. -/
structure Put (tues : List TruthUpload) (new : TruthUpload) (later : List TruthUpload) :
    Prop where
  member : ∀ tue, tue ∈ later ↔ tue = new ∨ (tue ∈ tues ∧ tue.key ≠ new.key)
  distinct : (later.map TruthUpload.key).Nodup

variable {tues : List TruthUpload} {new : TruthUpload}

private theorem replaceFirst_keys :
    (replaceFirst (matchesKey new.providerUrl new.amIdx) new tues).map TruthUpload.key =
      tues.map TruthUpload.key := by
  induction tues with
  | nil => rfl
  | cons x rest ih =>
    cases hit : matchesKey new.providerUrl new.amIdx x with
    | true =>
      have eq : x.key = new.key := (matchesKey_iff _ _ _).mp hit
      simp [replaceFirst, hit, eq]
    | false => simp [replaceFirst, hit, ih]

private theorem mem_replaceFirst (apart : (tues.map TruthUpload.key).Nodup)
    (has : tues.any (matchesKey new.providerUrl new.amIdx) = true) (tue : TruthUpload) :
    tue ∈ replaceFirst (matchesKey new.providerUrl new.amIdx) new tues ↔
      tue = new ∨ (tue ∈ tues ∧ tue.key ≠ new.key) := by
  induction tues with
  | nil => simp at has
  | cons x rest ih =>
    obtain ⟨fresh, apart⟩ := nodup_cons.mp apart
    cases hit : matchesKey new.providerUrl new.amIdx x with
    | true =>
      have eq : x.key = new.key := (matchesKey_iff _ _ _).mp hit
      have ys : ∀ y ∈ rest, y.key ≠ new.key := by
        intro y mem equal
        exact fresh (List.mem_map.mpr ⟨y, mem, equal.trans eq.symm⟩)
      simp only [replaceFirst, hit, if_true, mem_cons]
      constructor
      · rintro (equal | mem)
        · exact .inl equal
        · exact .inr ⟨.inr mem, ys tue mem⟩
      rintro (equal | ⟨rfl | mem, ne⟩)
      · exact .inl equal
      · exact absurd eq ne
      · exact .inr mem
    | false =>
      have ne : x.key ≠ new.key := by
        intro equal
        simp [(matchesKey_iff _ _ _).mpr equal] at hit
      have has : rest.any (matchesKey new.providerUrl new.amIdx) = true := by
        simpa [hit] using has
      simp only [replaceFirst, hit, Bool.false_eq_true, if_false, mem_cons, ih apart has]
      constructor
      · rintro (rfl | equal | ⟨mem, y⟩)
        · exact .inr ⟨.inl rfl, ne⟩
        · exact .inl equal
        · exact .inr ⟨.inr mem, y⟩
      rintro (equal | ⟨rfl | mem, y⟩)
      · exact .inr (.inl equal)
      · exact .inl rfl
      · exact .inr (.inr ⟨mem, y⟩)

theorem putTruthUpload_put (apart : (tues.map TruthUpload.key).Nodup) (new : TruthUpload) :
    Put tues new (putTruthUpload tues new) := by
  unfold putTruthUpload
  cases has : tues.any (matchesKey new.providerUrl new.amIdx) with
  | true =>
    rw [if_pos rfl]
    refine ⟨mem_replaceFirst apart has, ?_⟩
    rw [replaceFirst_keys]
    exact apart
  | false =>
    have gone : ∀ tue ∈ tues, tue.key ≠ new.key := by
      intro tue mem equal
      have missed := List.any_eq_false.mp has tue mem
      exact missed ((matchesKey_iff _ _ _).mpr equal)
    rw [if_neg (by simp)]
    refine ⟨fun tue => ?_, ?_⟩
    · rw [mem_cons]
      exact or_congr_right ⟨fun mem => ⟨mem, gone tue mem⟩, And.left⟩
    rw [map_cons, nodup_cons]
    refine ⟨fun mem => ?_, apart⟩
    obtain ⟨tue, h, equal⟩ := List.mem_map.mp mem
    exact gone tue h equal

private theorem putTruthUpload_running (tues : List TruthUpload) (new : TruthUpload) :
    (putTruthUpload tues new).countP TruthUpload.running +
        ((tues.find? (matchesKey new.providerUrl new.amIdx)).elim 0 fun old => old.running.toNat) =
      tues.countP TruthUpload.running + new.running.toNat := by
  have replaced : ∀ tues : List TruthUpload,
      tues.any (matchesKey new.providerUrl new.amIdx) = true →
      (replaceFirst (matchesKey new.providerUrl new.amIdx) new tues).countP TruthUpload.running +
          ((tues.find? (matchesKey new.providerUrl new.amIdx)).elim 0
            fun old => old.running.toNat) =
        tues.countP TruthUpload.running + new.running.toNat := by
    intro tues has
    induction tues with
    | nil => simp at has
    | cons x rest ih =>
      cases hit : matchesKey new.providerUrl new.amIdx x with
      | true =>
        simp only [replaceFirst, hit, if_true, countP_cons, find?_cons, elim_some]
        cases x.running <;> cases new.running <;> simp
      | false =>
        have has : rest.any (matchesKey new.providerUrl new.amIdx) = true := by
          simpa [hit] using has
        have tail := ih has
        simp only [replaceFirst, hit, Bool.false_eq_true, if_false, countP_cons, find?_cons]
        omega
  unfold putTruthUpload
  cases has : tues.any (matchesKey new.providerUrl new.amIdx) with
  | true => simpa using replaced tues has
  | false =>
    have gone : tues.find? (matchesKey new.providerUrl new.amIdx) = none := by
      rw [find?_eq_none]
      intro tue mem
      simpa using List.any_eq_false.mp has tue mem
    simp only [Bool.false_eq_true, if_false, countP_cons, gone, elim_none]
    cases new.running <;> simp

/-- The truth upload at the key of a method before the method is prepared. -/
def truthUploadAt (tues : List TruthUpload) (method : PolicyMethod) : Option TruthUpload :=
  tues.find? (matchesKey method.provider method.authenticationMethod)

/-- Everything that preparing a method does to the truth upload at its key. -/
inductive Change (method : PolicyMethod) (old : Option TruthUpload) (base : TruthUpload) :
    TruthUpload → Prop where
  | shared (noTruth : method.truth = none) (existing : old.isSome) : Change method old base base
  | created (noTruth : method.truth = none) (fresh : old = none) (tu : TruthUploadOperation) :
      Change method old base { base with tu := some tu }
  | stored {stored : StoredTruth} (hasTruth : method.truth = some stored)
      (status : stored.uploadStatus = .number 0) {t : Truth}
      (kept : base.t.or stored.truth = some t) :
      Change method old base { base with tu := none, t := some t }
  | running {stored : StoredTruth} (hasTruth : method.truth = some stored)
      (status : stored.uploadStatus ≠ .number 0) {tu : TruthUploadOperation}
      (uploading : base.tu = some tu) {t : Truth} (kept : base.t.or stored.truth = some t) :
      Change method old base { base with t := none }
  | begun {stored : StoredTruth} (hasTruth : method.truth = some stored)
      (status : stored.uploadStatus ≠ .number 0) (idle : base.tu = none) {t : Truth}
      (kept : base.t.or stored.truth = some t) (tu : TruthUploadOperation) (same : tu.t = t) :
      Change method old base { base with tu := some tu, t := none }

private theorem truthUploadFor_key (tues : List TruthUpload) (pmr : PolicyMethodReference)
    (m : PolicyMethod) :
    (truthUploadFor tues pmr m.provider m.authenticationMethod).key = m.key := by
  unfold truthUploadFor
  cases h : tues.find? (matchesKey m.provider m.authenticationMethod) with
  | none => rfl
  | some tue =>
    have matched := find?_some h
    exact (matchesKey_iff _ _ tue).mp matched

variable {method m : PolicyMethod} {pre after : Nat}

private theorem put_counted (sameKey : new.key = m.key)
    (changed : after + ((truthUploadAt tues m).elim 0 fun old => old.running.toNat) =
      pre + new.running.toNat) (cnt : pre = tues.countP TruthUpload.running) :
    after = (putTruthUpload tues new).countP TruthUpload.running := by
  have put := putTruthUpload_running tues new
  obtain ⟨sameProvider, sameIndex⟩ := Prod.mk.inj sameKey
  rw [sameProvider, sameIndex] at put
  unfold truthUploadAt at changed
  omega

private theorem running_le_count (tues : List TruthUpload) (m : PolicyMethod) :
    ((truthUploadAt tues m).elim 0 fun old => old.running.toNat) ≤
      tues.countP TruthUpload.running := by
  cases h : truthUploadAt tues m with
  | none => simp
  | some old =>
    cases runs : old.running with
    | false => simp [runs]
    | true =>
      have pos : 0 < tues.countP TruthUpload.running :=
        countP_pos_iff.mpr ⟨old, mem_of_find?_eq_some h, runs⟩
      simpa [runs] using pos

private theorem truthUploadFor_running (tues : List TruthUpload) (pmr : PolicyMethodReference)
    (m : PolicyMethod) : (truthUploadFor tues pmr m.provider m.authenticationMethod).running.toNat =
      (truthUploadAt tues m).elim 0 fun old => old.running.toNat := by
  unfold truthUploadFor truthUploadAt
  cases tues.find? (matchesKey m.provider m.authenticationMethod) with
  | none => rfl
  | some tue => rfl

variable {rnd : UploadRandomness} {place : PolicyMethodReference}

private theorem refreshTruth_ok {st : BackupState} {base : TruthUpload} {stored : StoredTruth}
    {amj : AuthenticationMethod} {old : Option TruthUpload}
    (hasTruth : m.truth = some stored) (enough : base.running.toNat ≤ pre)
    (refreshed : refreshTruth host st rnd place base stored pre amj = .ok new after) :
    Change m old base new ∧ new.key = base.key ∧
      after + base.running.toNat = pre + new.running.toNat := by
  unfold refreshTruth at refreshed
  split at refreshed
  · cases refreshed
  cases kept : base.t.or stored.truth with
  | none => simp [kept] at refreshed
  | some t =>
    simp only [kept] at refreshed
    cases uploading : base.tu with
    | none =>
      cases status : decide (stored.uploadStatus ≠ .number 0) with
      | false =>
        simp only [uploading, status, Refreshed.ok.injEq] at refreshed
        obtain ⟨rfl, rfl⟩ := refreshed
        have eq : ({ base with t := some t, tu := base.tu } : TruthUpload) =
            { base with tu := none, t := some t } := by rw [uploading]
        refine ⟨?_, rfl, by simp [TruthUpload.running, uploading]⟩
        exact uploading ▸ eq ▸ .stored hasTruth (by simpa using status) kept
      | true =>
        simp only [uploading, status] at refreshed
        split at refreshed
        · split_ifs at refreshed
          obtain ⟨rfl, rfl⟩ := refreshed
          refine ⟨.begun hasTruth (by simpa using status) uploading kept _ rfl, rfl, ?_⟩
          simp [TruthUpload.running, uploading]
        · cases refreshed
    | some tu =>
      simp only [TruthUpload.running, uploading, isSome_some, Bool.toNat_true] at enough
      cases status : decide (stored.uploadStatus ≠ .number 0) with
      | false =>
        simp only [uploading, status, Refreshed.ok.injEq] at refreshed
        obtain ⟨rfl, rfl⟩ := refreshed
        refine ⟨.stored hasTruth (by simpa using status) kept, rfl, ?_⟩
        simp only [TruthUpload.running, uploading, isSome_some, Bool.toNat_true,
          isSome_none, Bool.toNat_false]
        omega
      | true =>
        simp only [uploading, status, Refreshed.ok.injEq] at refreshed
        obtain ⟨rfl, rfl⟩ := refreshed
        refine ⟨?_, rfl, by simp [TruthUpload.running, uploading]⟩
        exact uploading ▸ .running hasTruth (by simpa using status) uploading kept

variable {uc later : UploadContext}

private theorem checkTruthUpload_ok {amj : AuthenticationMethod} (noTruth : m.truth = none)
    (checked : checkTruthUpload host uc rnd place m.provider m.authenticationMethod
      pre amj = .ok later after) : ∃ new, later = { uc with tues := putTruthUpload uc.tues new } ∧
      Change m (truthUploadAt uc.tues m)
        (truthUploadFor uc.tues place m.provider m.authenticationMethod) new ∧ new.key = m.key ∧
      after + ((truthUploadAt uc.tues m).elim 0 fun old => old.running.toNat) =
        pre + new.running.toNat := by
  have baseRunning := truthUploadFor_running uc.tues place m
  unfold checkTruthUpload at checked
  split_ifs at checked with noObject existing
  · cases checked
    refine ⟨_, rfl, .shared noTruth ?_, truthUploadFor_key uc.tues place m, by omega⟩
    obtain ⟨tue, mem, matched⟩ := List.any_eq_true.mp existing
    exact find?_isSome.mpr ⟨tue, mem, matched⟩
  have fresh : truthUploadAt uc.tues m = none := by
    rw [truthUploadAt, find?_eq_none]
    intro tue mem matched
    exact existing (List.any_eq_true.mpr ⟨tue, mem, matched⟩)
  have base : truthUploadFor uc.tues place m.provider m.authenticationMethod =
      blankTruthUpload place m.provider m.authenticationMethod := by
    unfold truthUploadAt at fresh
    rw [truthUploadFor, fresh]
  split at checked
  · cases checked
  split at checked
  · cases checked
  cases checked
  rw [base]
  exact ⟨_, rfl, .created noTruth fresh _, rfl, by simp [fresh, TruthUpload.running]⟩

/-- Preparing a method puts one changed truth upload, and counts the running ones. -/
theorem prepareMethod_ok (prepared : prepareMethod host rnd uc pre place m = .ok later after)
    (cnt : pre = uc.tues.countP TruthUpload.running) :
    ∃ new, later = { uc with tues := putTruthUpload uc.tues new } ∧
      Change m (truthUploadAt uc.tues m)
        (truthUploadFor uc.tues place m.provider m.authenticationMethod) new ∧
      new.key = m.key ∧ after = later.tues.countP TruthUpload.running := by
  have baseKey := truthUploadFor_key uc.tues place m
  have baseRunning := truthUploadFor_running uc.tues place m
  have enough := running_le_count uc.tues m
  unfold prepareMethod at prepared
  split at prepared
  · cases prepared
  split at prepared
  · rename_i noTruth
    obtain ⟨new, rfl, change, sameKey, changed⟩ := checkTruthUpload_ok host noTruth prepared
    exact ⟨new, rfl, change, sameKey, put_counted sameKey changed cnt⟩
  rename_i kept hasTruth
  unfold addTruthObject at prepared
  split at prepared
  · rename_i tue count refreshed
    cases prepared
    obtain ⟨change, sameKey, changed⟩ := refreshTruth_ok host hasTruth (by omega) refreshed
    rw [baseKey] at sameKey
    rw [baseRunning] at changed
    exact ⟨tue, rfl, change, sameKey, put_counted sameKey changed cnt⟩
  · cases prepared

def truthId (truth : Truth) : String × TruthUuid := (truth.url, truth.uuid)

def PolicyMethod.storedTruth (method : PolicyMethod) : Option Truth :=
  method.truth.bind StoredTruth.truth

/-- A truth of the state that its provider is not known to have is not marked as stored,
is the only one that the state holds at its key, and is the first at that key. -/
def Uploadable (methods : List PolicyMethod) (method : PolicyMethod) (truth : Truth) : Prop :=
  (∃ first, methods.find? (fun other => other.key = method.key) = some first ∧
    first.storedTruth.isSome) ∧
  ∀ other ∈ methods, other.key = method.key →
    ∀ stored t, other.truth = some stored → stored.truth = some t →
      stored.uploadStatus ≠ .number 0 ∧ truthId t = truthId truth

/-- Every truth of the state is known to its provider, or is the one that an upload
will bring there. -/
def Coherent (known : String × TruthUuid → Prop) (methods : List PolicyMethod) : Prop :=
  ∀ method ∈ methods, ∀ stored truth, method.truth = some stored → stored.truth = some truth →
    known (truthId truth) ∨ Uploadable methods method truth

/-- A truth upload holds its truth in a running upload, or has one that is known to its
provider. -/
def Held (known : String × TruthUuid → Prop) (tue : TruthUpload) : Prop :=
  (∃ tu, tue.tu = some tu ∧ tue.t = none) ∨
    tue.tu = none ∧ ∃ t, tue.t = some t ∧ known (truthId t)

/-- What holds while the methods are prepared one after the other. -/
structure Prepping (known : String × TruthUuid → Prop) (done : List PolicyMethod)
    (tues : List TruthUpload) : Prop where
  distinct : (tues.map TruthUpload.key).Nodup
  origin : ∀ tue ∈ tues, ∃ method ∈ done, method.key = tue.key
  quiet : ∀ tue ∈ tues, tue.ec = .none ∧ tue.paymentRequest = none ∧ Held known tue
  covers : ∀ method ∈ done, ∀ stored truth, method.truth = some stored →
    stored.truth = some truth →
    known (truthId truth) ∨ ∃ tue ∈ tues, tue.key = method.key ∧
      ∃ tu, tue.tu = some tu ∧ truthId tu.t = truthId truth

theorem prepping_start (has : String × TruthUuid → Prop) : Prepping has [] [] :=
  ⟨nodup_nil, by simp, by simp, by simp⟩

private theorem truthUploadAt_mem {tue : TruthUpload} (h : truthUploadAt tues m = some tue) :
    tue ∈ tues ∧ tue.key = m.key :=
  ⟨mem_of_find?_eq_some h, (matchesKey_iff _ _ _).mp (find?_some h)⟩

private theorem truthUploadAt_of_mem (apart : (tues.map TruthUpload.key).Nodup)
    {tue : TruthUpload} (mem : tue ∈ tues) (sameKey : tue.key = m.key) :
    truthUploadAt tues m = some tue := by
  cases h : truthUploadAt tues m with
  | none =>
    rw [truthUploadAt, find?_eq_none] at h
    exact absurd ((matchesKey_iff _ _ _).mpr sameKey) (h tue mem)
  | some y =>
    obtain ⟨otherMember, otherKey⟩ := truthUploadAt_mem h
    rw [inj_on_of_nodup_map apart otherMember mem (otherKey.trans sameKey.symm)]

private theorem truthUploadFor_cases (tues : List TruthUpload) (place : PolicyMethodReference)
    (m : PolicyMethod) : (truthUploadAt tues m = none ∧
      truthUploadFor tues place m.provider m.authenticationMethod =
        blankTruthUpload place m.provider m.authenticationMethod) ∨
    ∃ old, truthUploadAt tues m = some old ∧
      truthUploadFor tues place m.provider m.authenticationMethod =
        { old with policies := old.policies ++ [place] } := by
  unfold truthUploadAt truthUploadFor
  cases tues.find? (matchesKey m.provider m.authenticationMethod) with
  | none => exact .inl ⟨rfl, rfl⟩
  | some old => exact .inr ⟨old, rfl, rfl⟩

private theorem storedTruth_parts (stores : m.storedTruth.isSome) :
    ∃ kept truth, m.truth = some kept ∧ kept.truth = some truth := by
  obtain ⟨truth, h⟩ := isSome_iff_exists.mp stores
  obtain ⟨kept, hasTruth, decodes⟩ := bind_eq_some_iff.mp h
  exact ⟨kept, truth, hasTruth, decodes⟩

variable {known has : String × TruthUuid → Prop} {methods done : List PolicyMethod}

/-- The running upload at the key of a truth that has to be uploaded brings that truth. -/
private theorem Prepping.uploading {rest : List PolicyMethod}
    (prepping : Prepping has done tues) (order : methods = done ++ m :: rest)
    {truth : Truth} (uploadable : Uploadable methods m truth) {old : TruthUpload}
    (h : truthUploadAt tues m = some old) :
    has (truthId truth) ∨ ∃ tu, old.tu = some tu ∧ truthId tu.t = truthId truth := by
  obtain ⟨oldMember, oldKey⟩ := truthUploadAt_mem h
  obtain ⟨origin, originDone, originKey⟩ := prepping.origin old oldMember
  obtain ⟨⟨x, firstFound, stores⟩, uniform⟩ := uploadable
  have firstDone : x ∈ done := by
    have early : (done.find? fun y => y.key = m.key).isSome :=
      find?_isSome.mpr ⟨origin, originDone, by simpa using originKey.trans oldKey⟩
    obtain ⟨cand, earlyFound⟩ := isSome_iff_exists.mp early
    rw [order, find?_append, earlyFound, some_or, Option.some.injEq] at firstFound
    exact firstFound ▸ mem_of_find?_eq_some earlyFound
  have firstKey : x.key = m.key := by simpa using find?_some firstFound
  obtain ⟨kept, firstTruth, hasTruth, decodes⟩ := storedTruth_parts stores
  have eq : truthId firstTruth = truthId truth :=
    (uniform x (mem_of_find?_eq_some firstFound) firstKey kept firstTruth hasTruth decodes).2
  rcases prepping.covers x firstDone kept firstTruth hasTruth decodes with
    brought | ⟨tue, mem, tueKey, tu, uploading, tuTruth⟩
  · exact .inl (eq ▸ brought)
  have isOld : truthUploadAt tues m = some tue :=
    truthUploadAt_of_mem prepping.distinct mem (tueKey.trans firstKey)
  cases h.symm.trans isOld
  exact .inr ⟨tu, uploading, tuTruth.trans eq⟩

private theorem Change.quiet (coherent : Coherent known methods) (mem : m ∈ methods)
    (prepping : Prepping known done tues)
    (change : Change m (truthUploadAt tues m) (truthUploadFor tues place m.provider
      m.authenticationMethod) new) :
    new.ec = .none ∧ new.paymentRequest = none ∧ Held known new := by
  have basis : ∀ base, (truthUploadAt tues m = none ∧
        base = blankTruthUpload place m.provider m.authenticationMethod) ∨
      (∃ old, truthUploadAt tues m = some old ∧
        base = { old with policies := old.policies ++ [place] }) →
      base.ec = .none ∧ base.paymentRequest = none ∧
        ((truthUploadAt tues m = none ∧ base.tu = none ∧ base.t = none) ∨ Held known base) := by
    rintro base (⟨fresh, rfl⟩ | ⟨old, h, rfl⟩)
    · exact ⟨rfl, rfl, .inl ⟨fresh, rfl, rfl⟩⟩
    · obtain ⟨noError, unpaid, held⟩ := prepping.quiet old (truthUploadAt_mem h).1
      exact ⟨noError, unpaid, .inr held⟩
  obtain ⟨noError, unpaid, held⟩ := basis _ (truthUploadFor_cases tues place m)
  cases change with
  | shared noTruth existing =>
    refine ⟨noError, unpaid, ?_⟩
    rcases held with ⟨fresh, _⟩ | held
    · simp [fresh] at existing
    · exact held
  | created noTruth fresh tu =>
    refine ⟨noError, unpaid, .inl ⟨tu, rfl, ?_⟩⟩
    rcases truthUploadFor_cases tues place m with ⟨_, base⟩ | ⟨old, h, _⟩
    · simp [base, blankTruthUpload]
    · simp [fresh] at h
  | @stored stored hasTruth st t kept =>
    refine ⟨noError, unpaid, .inr ⟨rfl, t, rfl, ?_⟩⟩
    have decoded : stored.truth = some t → known (truthId t) := by
      intro decodes
      rcases coherent m mem stored t hasTruth decodes with brought | uploadable
      · exact brought
      · exact absurd st (uploadable.2 m mem rfl stored t hasTruth decodes).1
    rcases held with ⟨_, _, noT⟩ | ⟨_, _, noT⟩ | ⟨_, held, hasT, brought⟩
    · exact decoded (by simpa [noT] using kept)
    · exact decoded (by simpa [noT] using kept)
    · simp only [hasT, some_or, Option.some.injEq] at kept
      exact kept ▸ brought
  | running hasTruth st uploading kept =>
    exact ⟨noError, unpaid, .inl ⟨_, uploading, rfl⟩⟩
  | begun hasTruth st idle kept tu eq =>
    exact ⟨noError, unpaid, .inl ⟨tu, rfl, rfl⟩⟩

private theorem Change.keeps {y : PolicyMethod} (mem : m ∈ methods) {truth : Truth}
    (uploadable : Uploadable methods y truth) (sameKey : y.key = m.key)
    {old : TruthUpload} (h : truthUploadAt tues m = some old) {tu : TruthUploadOperation}
    (uploading : old.tu = some tu) (noT : old.t = none)
    (change : Change m (truthUploadAt tues m) (truthUploadFor tues place m.provider
      m.authenticationMethod) new) : new.tu = some tu := by
  rcases truthUploadFor_cases tues place m with ⟨fresh, _⟩ | ⟨old', got, base⟩
  · simp [fresh] at h
  cases h.symm.trans got
  rw [base] at change
  cases change with
  | shared noTruth existing => exact uploading
  | created noTruth fresh tu => simp [fresh] at h
  | @stored stored hasTruth st t kept =>
    rw [noT] at kept
    exact absurd st (uploadable.2 m mem sameKey.symm stored t hasTruth kept).1
  | running hasTruth st running kept => exact uploading
  | begun hasTruth st idle kept tu eq => simp [uploading] at idle

theorem Prepping.next {rest : List PolicyMethod} (coherent : Coherent known methods)
    (order : methods = done ++ m :: rest) (prepping : Prepping known done tues)
    (change : Change m (truthUploadAt tues m) (truthUploadFor tues place m.provider
      m.authenticationMethod) new) (sameKey : new.key = m.key) :
    Prepping known (done ++ [m]) (putTruthUpload tues new) := by
  have mem : m ∈ methods := by simp [order]
  have put := putTruthUpload_put prepping.distinct new
  refine ⟨put.distinct, ?_, ?_, ?_⟩
  · intro tue has
    rcases (put.member tue).mp has with rfl | ⟨earlier, _⟩
    · exact ⟨m, by simp, sameKey.symm⟩
    · obtain ⟨origin, originDone, originKey⟩ := prepping.origin tue earlier
      exact ⟨origin, mem_append_left _ originDone, originKey⟩
  · intro tue has
    rcases (put.member tue).mp has with rfl | ⟨earlier, _⟩
    · exact change.quiet coherent mem prepping
    · exact prepping.quiet tue earlier
  intro y otherDone stored truth hasTruth decodes
  rcases mem_append.mp otherDone with earlier | last
  · rcases prepping.covers y earlier stored truth hasTruth decodes with
      brought | ⟨tue, tueMember, tueKey, tu, uploading, tuTruth⟩
    · exact .inl brought
    cases decEq tue.key new.key with
    | isFalse ne =>
      exact .inr ⟨tue, (put.member tue).mpr (.inr ⟨tueMember, ne⟩), tueKey, tu, uploading, tuTruth⟩
    | isTrue eq =>
      have otherMember : y ∈ methods := by simp [order, earlier]
      rcases coherent y otherMember stored truth hasTruth decodes with
        brought | uploadable
      · exact .inl brought
      have h := truthUploadAt_of_mem prepping.distinct tueMember (eq.trans sameKey)
      have noT : tue.t = none := by
        rcases (prepping.quiet tue tueMember).2.2 with ⟨_, _, noT⟩ | ⟨idle, _⟩
        · exact noT
        · simp [uploading] at idle
      have kept := change.keeps mem uploadable
        (tueKey.symm.trans (eq.trans sameKey)) h uploading noT
      exact .inr ⟨new, (put.member new).mpr (.inl rfl),
        sameKey.trans (sameKey.symm.trans (eq.symm.trans tueKey)), tu, kept, tuTruth⟩
  · rw [mem_singleton] at last
    subst last
    rcases coherent y mem stored truth hasTruth decodes with brought | uploadable
    · exact .inl brought
    have mustUpload := (uploadable.2 y mem rfl stored truth hasTruth decodes).1
    have newMember : new ∈ putTruthUpload tues new := (put.member new).mpr (.inl rfl)
    rcases truthUploadFor_cases tues place y with ⟨fresh, base⟩ | ⟨old, h, base⟩
    · rw [base] at change
      cases change with
      | shared noTruth existing => simp [noTruth] at hasTruth
      | created noTruth fresh tu => simp [noTruth] at hasTruth
      | stored hasTruth' st kept =>
        cases hasTruth.symm.trans hasTruth'
        exact absurd st mustUpload
      | running hasTruth' st uploading kept => cases uploading
      | begun hasTruth' st idle kept tu eq =>
        cases hasTruth.symm.trans hasTruth'
        have decoded : some truth = some tu.t := by
          simpa [blankTruthUpload, decodes, eq] using kept
        cases decoded
        exact .inr ⟨_, newMember, sameKey, tu, rfl, rfl⟩
    · rcases prepping.uploading order uploadable h with brought | ⟨tu, uploading, tuTruth⟩
      · exact .inl brought
      have noT : old.t = none := by
        rcases (prepping.quiet old (truthUploadAt_mem h).1).2.2 with
          ⟨_, _, noT⟩ | ⟨idle, _⟩
        · exact noT
        · simp [uploading] at idle
      exact .inr ⟨new, newMember, sameKey, tu,
        change.keeps mem uploadable rfl h uploading noT, tuTruth⟩

variable {placed : List (PolicyMethodReference × PolicyMethod)}

theorem prepareMethods_ok (coherent : Coherent has methods)
    (order : methods = done ++ placed.map Prod.snd) (prepping : Prepping has done uc.tues)
    (cnt : pre = uc.tues.countP TruthUpload.running)
    (prepared : prepareMethods host rnd placed uc pre = .ok later after) :
    later.state = uc.state ∧ Prepping has methods later.tues ∧
      after = later.tues.countP TruthUpload.running := by
  induction placed generalizing done uc pre with
  | nil =>
    obtain ⟨rfl, rfl⟩ := prepared
    have all : methods = done := by simpa using order
    exact ⟨rfl, all ▸ prepping, cnt⟩
  | cons e rest ih =>
    obtain ⟨place, m⟩ := e
    simp only [prepareMethods] at prepared
    split at prepared
    · cases prepared
    rename_i mid count x
    obtain ⟨new, put, change, sameKey, cnt⟩ := prepareMethod_ok host x cnt
    have next : Prepping has (done ++ [m]) mid.tues := by
      rw [put]
      exact prepping.next coherent order change sameKey
    have order : methods = (done ++ [m]) ++ rest.map Prod.snd := by
      simpa [append_assoc] using order
    obtain ⟨sameState, prepping, cnt⟩ := ih order next cnt prepared
    exact ⟨by rw [sameState, put], prepping, cnt⟩

theorem mem_placedMethods {policies : List (List PolicyMethod)} :
    (place, method) ∈ placedMethods policies ↔ ∃ methods,
      policies[place.policyIndex]? = some methods ∧ methods[place.methodIndex]? = some method := by
  obtain ⟨policyIndex, methodIndex⟩ := place
  simp only [placedMethods, mem_flatMap, List.mem_map, Prod.exists,
    mk_mem_zipIdx_iff_getElem?, Prod.mk.injEq, PolicyMethodReference.mk.injEq]
  constructor
  · rintro ⟨methods, _, h, _, _, mem, ⟨rfl, rfl⟩, rfl⟩
    exact ⟨methods, h, mem⟩
  · rintro ⟨methods, h, mem⟩
    exact ⟨methods, policyIndex, h, method, methodIndex, mem, ⟨rfl, rfl⟩, rfl⟩

theorem placedMethods_methods (policies : List (List PolicyMethod)) :
    (placedMethods policies).map Prod.snd = policies.flatten := by
  have inner : ∀ e : List PolicyMethod × Nat, (e.1.zipIdx.map fun placed =>
        ((⟨e.2, placed.2⟩, placed.1) : PolicyMethodReference × PolicyMethod)).map Prod.snd =
      e.1 := by
    intro e
    rw [List.map_map]
    exact zipIdx_map_fst 0 e.1
  calc (placedMethods policies).map Prod.snd
      = policies.zipIdx.flatMap Prod.fst := by
        unfold placedMethods
        rw [map_flatMap]
        exact congrArg (policies.zipIdx.flatMap ·) (funext inner)
    _ = policies.flatten := by
        rw [flatMap_def, zipIdx_map_fst]

/-- Every method has its place in the truth upload at its key, and nowhere else. -/
structure Placed (placed : List (PolicyMethodReference × PolicyMethod))
    (tues : List TruthUpload) : Prop where
  distinct : (tues.map TruthUpload.key).Nodup
  covered : ∀ place method, (place, method) ∈ placed →
    ∃ tue ∈ tues, tue.key = method.key ∧ place ∈ tue.policies
  honest : ∀ tue ∈ tues, ∀ place ∈ tue.policies,
    ∃ method, (place, method) ∈ placed ∧ method.key = tue.key

theorem placed_start : Placed [] [] := ⟨nodup_nil, by simp, by simp⟩

private theorem Change.policies {old : Option TruthUpload} {base : TruthUpload}
    (change : Change m old base new) : new.policies = base.policies := by
  cases change <;> rfl

private theorem Placed.next (pre : Placed placed tues)
    (change : Change m (truthUploadAt tues m) (truthUploadFor tues place m.provider
      m.authenticationMethod) new) (sameKey : new.key = m.key) :
    Placed (placed ++ [(place, m)]) (putTruthUpload tues new) := by
  have put := putTruthUpload_put pre.distinct new
  have fresh : place ∈ new.policies := by
    rw [change.policies]
    rcases truthUploadFor_cases tues place m with ⟨_, base⟩ | ⟨old, _, base⟩ <;>
      simp [base, blankTruthUpload]
  refine ⟨put.distinct, ?_, ?_⟩
  · intro y otherMethod mem
    rcases mem_append.mp mem with earlier | last
    · obtain ⟨tue, tueMember, tueKey, inside⟩ := pre.covered y otherMethod earlier
      cases decEq tue.key new.key with
      | isFalse ne =>
        exact ⟨tue, (put.member tue).mpr (.inr ⟨tueMember, ne⟩), tueKey, inside⟩
      | isTrue eq =>
        refine ⟨new, (put.member new).mpr (.inl rfl), eq.symm.trans tueKey, ?_⟩
        have h := truthUploadAt_of_mem pre.distinct tueMember (eq.trans sameKey)
        rcases truthUploadFor_cases tues place m with ⟨missing, _⟩ | ⟨old, got, base⟩
        · simp [missing] at h
        cases h.symm.trans got
        rw [change.policies, base]
        exact mem_append_left _ inside
    · cases mem_singleton.mp last
      exact ⟨new, (put.member new).mpr (.inl rfl), sameKey, fresh⟩
  · intro tue tueMember y inside
    rcases (put.member tue).mp tueMember with rfl | ⟨earlier, _⟩
    · rw [change.policies] at inside
      rcases truthUploadFor_cases tues place m with ⟨_, base⟩ | ⟨old, h, base⟩
      · rw [base, blankTruthUpload, mem_singleton] at inside
        exact ⟨m, by simp [inside], sameKey.symm⟩
      rw [base] at inside
      rcases mem_append.mp inside with has | last
      · obtain ⟨oldMember, oldKey⟩ := truthUploadAt_mem h
        obtain ⟨origin, originMember, originKey⟩ := pre.honest old oldMember y has
        exact ⟨origin, mem_append_left _ originMember, originKey.trans (oldKey.trans sameKey.symm)⟩
      · exact ⟨m, by simp [mem_singleton.mp last], sameKey.symm⟩
    · obtain ⟨origin, originMember, originKey⟩ := pre.honest tue earlier y inside
      exact ⟨origin, mem_append_left _ originMember, originKey⟩

theorem prepareMethods_placed {done : List (PolicyMethodReference × PolicyMethod)}
    (start : Placed done uc.tues) (cnt : pre = uc.tues.countP TruthUpload.running)
    (prepared : prepareMethods host rnd placed uc pre = .ok later after) :
    Placed (done ++ placed) later.tues := by
  induction placed generalizing done uc pre with
  | nil =>
    obtain ⟨rfl, rfl⟩ := prepared
    rwa [append_nil]
  | cons e rest ih =>
    obtain ⟨place, m⟩ := e
    simp only [prepareMethods] at prepared
    split at prepared
    · cases prepared
    rename_i mid count x
    obtain ⟨new, put, change, sameKey, cnt⟩ := prepareMethod_ok host x cnt
    have next : Placed (done ++ [(place, m)]) mid.tues := by
      rw [put]
      exact start.next change sameKey
    simpa [append_assoc] using ih next cnt prepared

/-- The key and the places of a truth upload never change while answers arrive. -/
def TruthUpload.entry (tue : TruthUpload) : (String × Nat) × List PolicyMethodReference :=
  (tue.key, tue.policies)

theorem Placed.congr {later : List TruthUpload} (pre : Placed placed tues)
    (eq : later.map TruthUpload.entry = tues.map TruthUpload.entry) : Placed placed later := by
  have transfer : ∀ x y : List TruthUpload, x.map TruthUpload.entry = y.map TruthUpload.entry →
      ∀ tue ∈ x, ∃ other ∈ y, other.key = tue.key ∧ other.policies = tue.policies := by
    intro x y eq tue mem
    have image : tue.entry ∈ y.map TruthUpload.entry := eq ▸ List.mem_map.mpr ⟨tue, mem, rfl⟩
    obtain ⟨other, otherMember, equal⟩ := List.mem_map.mp image
    exact ⟨other, otherMember, Prod.mk.inj equal⟩
  have keys : later.map TruthUpload.key = tues.map TruthUpload.key := by
    simpa [Function.comp_def, TruthUpload.entry] using congrArg (List.map Prod.fst) eq
  refine ⟨keys ▸ pre.distinct, ?_, ?_⟩
  · intro place m mem
    obtain ⟨tue, tueMember, tueKey, inside⟩ := pre.covered place m mem
    obtain ⟨other, otherMember, otherKey, samePolicies⟩ := transfer tues later eq.symm tue tueMember
    exact ⟨other, otherMember, otherKey.trans tueKey, samePolicies ▸ inside⟩
  intro tue tueMember place inside
  obtain ⟨other, otherMember, otherKey, samePolicies⟩ := transfer later tues eq tue tueMember
  obtain ⟨m, mem, methodKey⟩ := pre.honest other otherMember place (samePolicies ▸ inside)
  exact ⟨m, mem, methodKey.trans otherKey⟩

theorem Placed.unique {policies : List (List PolicyMethod)}
    (placed : Placed (placedMethods policies) tues) {tue y : TruthUpload}
    (mem : tue ∈ tues) (inside : place ∈ tue.policies) (otherMember : y ∈ tues)
    (otherInside : place ∈ y.policies) : y = tue := by
  obtain ⟨m, methodMember, methodKey⟩ := placed.honest tue mem place inside
  obtain ⟨method', methodMember', methodKey'⟩ := placed.honest y otherMember place otherInside
  obtain ⟨methods, h, atIndex⟩ := mem_placedMethods.mp methodMember
  obtain ⟨methods', got, atIndex'⟩ := mem_placedMethods.mp methodMember'
  cases h.symm.trans got
  cases atIndex.symm.trans atIndex'
  exact inj_on_of_nodup_map placed.distinct otherMember mem (methodKey'.symm.trans methodKey)

end Anastasis.Reducer
