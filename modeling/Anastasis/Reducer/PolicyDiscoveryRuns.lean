import Mathlib.Data.List.TakeWhile
import Anastasis.Reducer.PolicyDiscovery

/-! Searches over whole runs: the first document that can be read is reported, and nothing else. -/

set_option autoImplicit false

namespace Anastasis.Reducer.Discovery

open Library Library.Transition Client List

/-! ## Documents that do no harm -/

section Documents

variable {host : Host} {r : Recovery} {policy : Bytes}

/-- The document opens or is too short to be read, its challenges and policies can be taken apart,
and the state knows what its challenges cost. -/
structure Harmless (host : Host) (providers : Record String ProviderConfig) (r : Recovery)
    (policy : Bytes) : Prop where
  long : 40 ≤ policy.length
  opens : policy.length < 44 ∨ (documentText host r.id policy).isSome = true
  complete : ∀ document, documentJson host r.id policy = some document →
    unsetChallenges host document = false
  readable : ∀ document version fault, documentJson host r.id policy = some document →
    readDocument host r version document ≠ .error fault
  costs : ∀ document version next, documentJson host r.id policy = some document →
    readDocument host r version document = .ok (some next) →
    ∀ c ∈ next.cs, ∃ cost, lookupCost providers c.url c.type = .found cost

theorem recoveryDocumentDecrypt_long (long : 40 ≤ policy.length) :
    recoveryDocumentDecrypt host r.id policy =
      .ok (documentText host r.id policy, policy.length - 40) := by
  rw [recoveryDocumentDecrypt, anastasisDecrypt, if_neg (by omega)]
  rfl

theorem documentText_length {plaintext : Bytes}
    (opened : documentText host r.id policy = some plaintext) :
    plaintext.length = policy.length - 40 := by
  have lengths := host.length_secretboxOpenEasy _ _ _ _ opened
  rw [length_drop] at lengths
  omega

theorem openDocument_opened {ver : UInt32} {plaintext : Bytes} (long : 44 ≤ policy.length)
    (opened : documentText host r.id policy = some plaintext) :
    (∃ st, openDocument host r ver policy = .ok (.rejected st)) ∨
      ∃ document, documentJson host r.id policy = some document ∧ openDocument host r ver policy =
          match readDocument host r ver document with
          | .error fault => .error fault
          | .ok none => .ok (.rejected .policyMalformedJson)
          | .ok (some next) => .ok (.accepted next) := by
  have length := documentText_length opened
  have decrypted : recoveryDocumentDecrypt host r.id policy = _ :=
    recoveryDocumentDecrypt_long (by omega)
  have notShort : ¬ policy.length - 40 < 4 := by omega
  unfold openDocument
  rw [decrypted, opened]
  simp only [bind, Except.bind, readBuffer, if_neg notShort]
  cases memory : host.mallocLarge (ntohl (plaintext.take 4)) with
  | false => exact .inl ⟨_, rfl⟩
  | true =>
    cases uncompressed : host.uncompress (ntohl (plaintext.take 4)) (plaintext.drop 4) with
    | none => exact .inl ⟨_, rfl⟩
    | some pt =>
      dsimp only
      cases loaded : host.jsonLoadb pt with
      | none => exact .inl ⟨_, rfl⟩
      | some document =>
        refine .inr ⟨document, ?_, ?_⟩
        · have there : 4 ≤ plaintext.length ∧
              host.mallocLarge (ntohl (plaintext.take 4)) = true := ⟨by omega, memory⟩
          simp [documentJson, opened, guard, there, uncompressed, loaded]
        cases read : readDocument host r ver document with
        | error fault => simp [read]
        | ok h =>
          cases h with
          | none => simp [read, pure, Except.pure]
          | some next => simp [read, pure, Except.pure]

theorem openDocument_short {ver : UInt32} (long : 40 ≤ policy.length) (short : policy.length < 44) :
    openDocument host r ver policy = .ok (.rejected .policyDownloadInvalidCompression) := by
  have decrypted : recoveryDocumentDecrypt host r.id policy = _ := recoveryDocumentDecrypt_long long
  have isShort : policy.length - 40 < 4 := by omega
  unfold openDocument
  rw [decrypted]
  simp only [bind, Except.bind, if_pos isShort]
  rfl

theorem Harmless.opened {ps : Record String ProviderConfig} {ver : UInt32}
    (harmless : Harmless host ps r policy) :
    (∃ st, openDocument host r ver policy = .ok (.rejected st)) ∨
      ∃ document next, documentJson host r.id policy = some document ∧
        readDocument host r ver document = .ok (some next) ∧
        openDocument host r ver policy = .ok (.accepted next) := by
  by_cases short : policy.length < 44
  · exact .inl ⟨_, openDocument_short harmless.long short⟩
  cases harmless.opens with
  | inl isShort => exact absurd isShort short
  | inr opens =>
    obtain ⟨plaintext, opened⟩ := Option.isSome_iff_exists.mp opens
    have cases := @openDocument_opened host r policy ver plaintext (by omega) opened
    cases cases with
    | inl rejected => exact .inl rejected
    | inr parsed =>
      obtain ⟨document, isDocument, out⟩ := parsed
      cases read : readDocument host r ver document with
      | error fault => exact absurd read (harmless.readable document ver fault isDocument)
      | ok h =>
        rw [read] at out
        cases h with
        | none => exact .inl ⟨_, out⟩
        | some next => exact .inr ⟨document, next, isDocument, read, out⟩

/-- An answer does no harm: it is an error, it has no document, or the document does none. -/
def HarmlessAnswer (host : Host) (providers : Record String ProviderConfig) (r : Recovery)
    (httpStatus : Nat) (dd : Option DownloadDetails) : Prop :=
  httpStatus = 200 → ∀ policy, dd.bind DownloadDetails.policy = some policy →
    Harmless host providers r policy

theorem HarmlessAnswer.lookup {ps : Record String ProviderConfig} {httpStatus : Nat}
    {dd : Option DownloadDetails} (harmless : HarmlessAnswer host ps r httpStatus dd)
    (body : httpStatus = 200 → dd.isSome = true) : abortFaults host r.id httpStatus dd = false ∧
      ((∃ st, policyLookupCb host r httpStatus dd = .ok (.rejected st)) ∨
        ∃ next, policyLookupCb host r httpStatus dd = .ok (.accepted next) ∧
          ∀ c ∈ next.cs, ∃ cost, lookupCost ps c.url c.type = .found cost) := by
  by_cases ran : httpStatus = 200
  · obtain ⟨dt, isDetails⟩ := Option.isSome_iff_exists.mp (body ran)
    subst isDetails ran
    cases isPolicy : dt.policy with
    | none =>
      constructor
      · simp [abortFaults, isPolicy]
      · exact .inl ⟨.policyDownloadNoPolicy, by simp [policyLookupCb, isPolicy]⟩
    | some policy =>
      have isHarmless := harmless rfl policy isPolicy
      have opens : policyLookupCb host r 200 (some dt) = openDocument host r dt.version policy := by
        simp [policyLookupCb, isPolicy]
      constructor
      · have complete := isHarmless.complete
        cases isDocument : documentJson host r.id policy with
        | none => simp [abortFaults, isPolicy, isDocument]
        | some document => simp [abortFaults, isPolicy, isDocument, complete document isDocument]
      rw [opens]
      cases isHarmless.opened with
      | inl rejected => exact .inl rejected
      | inr accepted =>
        obtain ⟨document, next, isDocument, read, out⟩ := accepted
        exact .inr ⟨next, out, isHarmless.costs document _ next isDocument read⟩
  · constructor
    · simp [abortFaults, ran]
    refine .inl ?_
    unfold policyLookupCb
    split_ifs
    · exact ⟨_, rfl⟩
    · exact ⟨_, rfl⟩
    · exact ⟨_, rfl⟩
    · exact ⟨_, rfl⟩

/-! ## The report about a document -/

/-- The state describes the document that was looked up at the provider. -/
structure Describes (host : Host) (url : String) (r : Recovery) (state : RecoveryState) : Prop where
  information : ∃ info, recoveryInfo host state.authenticationProviders url r = .ok (some info) ∧
    state.recoveryInformation = some info
  document : ∃ document, recoverySerialize host r = .ok document ∧
    state.recoveryDocument = some document
  selecting : state.recoveryState = .secretSelecting

theorem recoveryInfo_found {ps : Record String ProviderConfig} {url : String}
    (costs : ∀ c ∈ r.cs, ∃ cost, lookupCost ps c.url c.type = .found cost) :
    ∃ info, recoveryInfo host ps url r = .ok (some info) := by
  have collected : ∀ cs : List Challenge,
      (∀ c ∈ cs, ∃ cost, lookupCost ps c.url c.type = .found cost) →
      ∃ challenges, collect (challengeInfo host ps) cs = .ok (some challenges) := by
    intro cs
    induction cs with
    | nil => exact fun _ => ⟨[], rfl⟩
    | cons c rest ih =>
      intro has
      rw [forall_mem_cons] at has
      obtain ⟨cost, isCost⟩ := has.1
      obtain ⟨challenges, areChallenges⟩ := ih has.2
      have x : ∃ info, challengeInfo host ps c = .ok (some info) :=
        ⟨_, by rw [challengeInfo, isCost]⟩
      obtain ⟨info, isInfo⟩ := x
      refine ⟨info :: challenges, ?_⟩
      simp only [collect, isInfo, areChallenges, bind, Except.bind, pure, Except.pure]
  obtain ⟨challenges, areChallenges⟩ := collected r.cs costs
  exact ⟨_, by rw [recoveryInfo, areChallenges]⟩

theorem accepted_serializes {attrs : List (String × Json)} {ver : UInt32} {url : String}
    {salt : ProviderSalt} {next : Recovery} {httpStatus : Nat} {dd : Option DownloadDetails}
    (accepted : policyLookupCb host
      (recoveryBegin host (.object attrs) ver url salt) httpStatus dd =
        .ok (.accepted next)) : ∃ document, recoverySerialize host next = .ok document := by
  have step : Recovers host (beginRecovery host (.object attrs) ver url salt)
      (.policyLookup httpStatus dd) { beginRecovery host (.object attrs) ver url salt with
        recovery := some next, announced := some (recoveryInformation next) } := by
    unfold Recovers RecoveryProcess.deliver
    simp only [beginRecovery, Option.bind_eq_bind, Option.bind_some, accepted]
    rfl
  have sound := sound_run host (.next .start step) next rfl
  obtain ⟨_, _, _, _, opened⟩ := policyLookupCb_accepted host accepted
  obtain ⟨_, _, _, _, _, _, _, _, _, read⟩ := openDocument_accepted host opened
  obtain ⟨_, _, _, _, _, encCoreSecret, _, _, isNext⟩ := readDocument_eq_ok host read
  have downloaded : next.encCoreSecret = some encCoreSecret := by rw [isNext]
  obtain ⟨document, _, written, -⟩ := recoveryDeserialize_recoverySerialize host sound downloaded
  exact ⟨document, written⟩

theorem policyFound_describes {st : RecoveryState} {url : String}
    (costs : ∀ c ∈ r.cs, ∃ cost, lookupCost st.authenticationProviders c.url c.type = .found cost)
    (serializes : ∃ document, recoverySerialize host r = .ok document) :
    ∃ state', policyFound host st url r = .ok (.succeeded state') ∧
      Describes host url r state' := by
  obtain ⟨info, isInfo⟩ := @recoveryInfo_found host r st.authenticationProviders url costs
  obtain ⟨document, isDocument⟩ := serializes
  refine ⟨st.select info document, ?_, ⟨info, isInfo, rfl⟩, ⟨document, isDocument, rfl⟩, rfl⟩
  rw [policyFound, isInfo]
  simp only [isDocument, bind, Except.bind, pure, Except.pure]

end Documents

/-! ## What holds of searches -/

def Trace.answers (url : String) : Trace → Bool
  | .answered found _ => found = url
  | _ => false

def Trace.cancels (url : String) : Trace → Bool
  | .cancelled found => found = url
  | _ => false

def Trace.releases (url : String) : Trace → Bool
  | .released found => found = url
  | _ => false

def Trace.calls : Trace → Bool
  | .called _ => true
  | _ => false

def Rejected (log : List Trace) : Prop :=
  ∀ url lookup, .answered url lookup ∈ log → ∃ status, lookup = .rejected status

/-- How a search ends: with the first document that can be read, or after all have failed. -/
inductive Outcome (host : Host) (launched : List String) (log : List Trace) : Prop where
  | found {url : String} {r : Recovery} {state : RecoveryState}
      (answer : .answered url (.accepted r) ∈ log) (report : .called (.succeeded state) ∈ log)
      (describes : Describes host url r state)
      (others : ∀ other lookup, .answered other lookup ∈ log →
        other = url ∧ lookup = .accepted r ∨ ∃ status, lookup = .rejected status)
  | failed {code : ErrorCode} {detail : String} (report : .called (.failed code detail) ∈ log)
      (all : ∀ url ∈ launched, ∃ status, .answered url (.rejected status) ∈ log)
      (rejected : Rejected log)

structure Waiting (launched : List String) (search : Search) : Prop where
  silent : search.log.countP Trace.calls = 0
  unanswered : ∃ url ∈ launched, url ∈ search.jobs
  rejected : Rejected search.log
  entries : ∀ url ∈ launched, search.log.countP (Trace.cancels url) = 0 ∧
    search.log.countP (Trace.releases url) = search.log.countP (Trace.answers url) ∧
    search.log.countP (Trace.answers url) + (if url ∈ search.jobs then 1 else 0) = 1

structure Ended (host : Host) (launched : List String) (search : Search) : Prop where
  reported : search.log.countP Trace.calls = 1
  quiet : search.jobs = []
  entries : ∀ url ∈ launched, search.log.countP (Trace.releases url) = 1 ∧
    search.log.countP (Trace.answers url) + search.log.countP (Trace.cancels url) = 1
  outcome : Outcome host launched search.log

/-- No assertion fails, nothing is used after it was freed, and the search ends with one report. -/
inductive Robust (host : Host) (launched : List String) (search : Search) : Prop where
  | waiting {rss : RecoverSecretState} (live : search.context = .live rss)
      (waiting : Waiting launched search)
  | ended (freed : search.context = .freed) (ended : Ended host launched search)

structure Entries (host : Host) (attributes : List (String × Json)) (launched jobs : List String)
    (rss : RecoverSecretState) : Prop where
  jobs : jobs = rss.urls
  distinct : rss.urls.Nodup
  launched : ∀ url ∈ rss.urls, url ∈ launched
  begun : ∀ pd ∈ rss.entries, ∃ version salt,
    pd.recovery = recoveryBegin host (.object attributes) version pd.backendUrl salt

inductive Settled (host : Host) (attributes : List (String × Json)) (launched : List String)
    (search : Search) : Prop where
  | waiting {rss : RecoverSecretState} (live : search.context = .live rss)
      (entries : Entries host attributes launched search.jobs rss)
      (waiting : Waiting launched search)
  | ended (freed : search.context = .freed) (ended : Ended host launched search)

def Usable (host : Host) (search : Search) (event : LookupEvent) : Prop :=
  ∀ rss pd, search.context = .live rss → pd ∈ rss.entries → pd.backendUrl = event.url →
    HarmlessAnswer host rss.state.authenticationProviders pd.recovery event.httpStatus event.dd

section Freeing

variable {url : String}

theorem freeRss_cons (pd : PolicyDownloadEntry) (rest : List PolicyDownloadEntry) :
    freeRss url (pd :: rest) = (if pd.backendUrl = url then [.released pd.backendUrl]
        else [.cancelled pd.backendUrl, .released pd.backendUrl]) ++ freeRss url rest := rfl

variable {entries : List PolicyDownloadEntry}

theorem freeRss_releases (y : String)
    (apart : (entries.map PolicyDownloadEntry.backendUrl).Nodup) :
    (freeRss url entries).countP (Trace.releases y) =
      if y ∈ entries.map PolicyDownloadEntry.backendUrl then 1 else 0 := by
  induction entries with
  | nil => rfl
  | cons pd rest ih =>
    rw [map_cons, nodup_cons] at apart
    have x : (if pd.backendUrl = url then [Trace.released pd.backendUrl]
        else [.cancelled pd.backendUrl, .released pd.backendUrl]).countP
          (Trace.releases y) = if y = pd.backendUrl then 1 else 0 := by
      by_cases eq : y = pd.backendUrl
      · subst eq
        split <;> simp [Trace.releases]
      · rw [if_neg eq]
        split <;> simp [Trace.releases, Ne.symm eq]
    rw [freeRss_cons, countP_append, x, ih apart.2]
    by_cases eq : y = pd.backendUrl
    · subst eq
      simp [apart.1]
    · simp [eq]

theorem freeRss_cancels (y : String)
    (apart : (entries.map PolicyDownloadEntry.backendUrl).Nodup) :
    (freeRss url entries).countP (Trace.cancels y) =
      if y ∈ entries.map PolicyDownloadEntry.backendUrl ∧ y ≠ url then 1 else 0 := by
  induction entries with
  | nil => rfl
  | cons pd rest ih =>
    rw [map_cons, nodup_cons] at apart
    have x : (if pd.backendUrl = url then [Trace.released pd.backendUrl]
        else [.cancelled pd.backendUrl, .released pd.backendUrl]).countP (Trace.cancels y) =
            if y = pd.backendUrl ∧ y ≠ url then 1 else 0 := by
      by_cases eq : y = pd.backendUrl
      · subst eq
        split <;> simp [Trace.cancels, *]
      · split <;> simp [Trace.cancels, eq, Ne.symm eq]
    rw [freeRss_cons, countP_append, x, ih apart.2]
    by_cases eq : y = pd.backendUrl
    · subst eq
      simp [apart.1]
    · simp [eq]

theorem mem_freeRss {e : Trace} (mem : e ∈ freeRss url entries) :
    (∃ found, e = .cancelled found) ∨ ∃ found, e = .released found := by
  obtain ⟨pd, -, mem⟩ := mem_flatMap.mp mem
  split at mem
  next => exact .inr ⟨_, mem_singleton.mp mem⟩
  next =>
    cases mem_cons.mp mem with
    | inl x => exact .inl ⟨_, x⟩
    | inr last => exact .inr ⟨_, mem_singleton.mp last⟩

theorem freeRss_answers (y : String) (entries : List PolicyDownloadEntry) :
    (freeRss url entries).countP (Trace.answers y) = 0 := by
  apply countP_eq_zero.mpr
  intro e mem isAnswer
  cases mem_freeRss mem with
  | inl cancelled =>
    obtain ⟨h, isEntry⟩ := cancelled
    subst isEntry
    cases isAnswer
  | inr released =>
    obtain ⟨h, isEntry⟩ := released
    subst isEntry
    cases isAnswer

theorem freeRss_calls (entries : List PolicyDownloadEntry) :
    (freeRss url entries).countP Trace.calls = 0 := by
  apply countP_eq_zero.mpr
  intro e mem isCall
  cases mem_freeRss mem with
  | inl cancelled =>
    obtain ⟨h, isEntry⟩ := cancelled
    subst isEntry
    cases isCall
  | inr released =>
    obtain ⟨h, isEntry⟩ := released
    subst isEntry
    cases isCall

end Freeing

section Steps

variable {host : Host} {attributes attrs : List (String × Json)} {launched : List String}
  {search next : Search} {rss : RecoverSecretState}

theorem Waiting.all_rejected (waiting : Waiting launched search) {url : String}
    (mem : url ∈ launched) (answered : url ∉ search.jobs) :
    ∃ status, .answered url (.rejected status) ∈ search.log := by
  have count := (waiting.entries url mem).2.2
  rw [if_neg answered] at count
  obtain ⟨e, isEntry, isAnswer⟩ := countP_pos_iff.mp (by omega :
    0 < search.log.countP (Trace.answers url))
  cases e with
  | answered h lookup =>
    obtain ⟨status, rejected⟩ := waiting.rejected h lookup isEntry
    rw [of_decide_eq_true isAnswer, rejected] at isEntry
    exact ⟨status, isEntry⟩
  | _ => cases isAnswer

theorem rejected_counts {url : String} {st : RecoveryStatus} (log : List Trace) (y : String) :
    (log ++ [Trace.answered url (.rejected st), .released url]).countP (Trace.cancels y) =
        log.countP (Trace.cancels y) ∧
      (log ++ [Trace.answered url (.rejected st), .released url]).countP (Trace.releases y) =
        log.countP (Trace.releases y) + (if y = url then 1 else 0) ∧
      (log ++ [Trace.answered url (.rejected st), .released url]).countP (Trace.answers y) =
        log.countP (Trace.answers y) + (if y = url then 1 else 0) := by
  by_cases eq : y = url
  · subst eq
    simp [Trace.cancels, Trace.releases, Trace.answers]
  · simp [Trace.cancels, Trace.releases, Trace.answers, eq, Ne.symm eq]

theorem Rejected.adds {log : List Trace} {url : String} {st : RecoveryStatus}
    (rejected : Rejected log) :
    Rejected (log ++ [Trace.answered url (.rejected st), .released url]) := by
  intro y lookup mem
  cases mem_append.mp mem with
  | inl old => exact rejected y lookup old
  | inr new =>
    cases mem_cons.mp new with
    | inl ans =>
      cases ans
      exact ⟨st, rfl⟩
    | inr release => cases mem_singleton.mp release

theorem called_counts {log : List Trace} {report : Report} {kind : Trace → Bool}
    (y : kind (.called report) = false) :
    (log ++ [Trace.called report]).countP kind = log.countP kind := by
  rw [countP_append, countP_singleton, y]
  rfl

theorem mem_erase_jobs {jobs : List String} {url y : String} (apart : jobs.Nodup) :
    y ∈ jobs.erase url ↔ y ≠ url ∧ y ∈ jobs := by
  rw [apart.mem_erase_iff]

theorem rejects_settled {url : String} {st : RecoveryStatus}
    (entries : Entries host attrs launched search.jobs rss)
    (waiting : Waiting launched search) (underway : url ∈ search.jobs) : Settled host attrs launched
      ({ search with jobs := search.jobs.erase url }.coreEarlySecretCb rss url st) := by
  have apart : search.jobs.Nodup := entries.jobs ▸ entries.distinct
  have counts := @rejected_counts url st search.log
  have pre := waiting.entries
  have once : ∀ y ∈ launched, y = url → search.log.countP (Trace.answers y) = 0 := by
    intro y mem eq
    have count := (pre y mem).2.2
    rw [if_pos (eq ▸ underway)] at count
    omega
  have urls : (rss.entries.filter fun pd => pd.backendUrl ≠ url).map
      PolicyDownloadEntry.backendUrl = search.jobs.erase url := by
    rw [apart.erase_eq_filter, entries.jobs, RecoverSecretState.urls, List.filter_map]
    refine congrArg (List.map PolicyDownloadEntry.backendUrl) (filter_congr ?_)
    intro pd _
    rw [Function.comp_apply, decide_not]
    rfl
  unfold Search.coreEarlySecretCb
  dsimp only
  split
  next empty =>
    have none : search.jobs.erase url = [] := by
      rw [← urls, List.isEmpty_iff.mp empty]
      rfl
    refine .ended rfl ⟨?_, none, ?_, ?_⟩
    · rw [countP_append, countP_append, waiting.silent]
      rfl
    · intro y mem
      obtain ⟨cancels, releases, answers⟩ := counts y
      obtain ⟨noCancel, eq, count⟩ := pre y mem
      have gone : y ∉ search.jobs.erase url := by
        rw [none]
        exact not_mem_nil
      rw [mem_erase_jobs apart] at gone
      rw [called_counts, called_counts, called_counts, releases, answers, cancels, noCancel, eq]
      · by_cases own : y = url
        · rw [once y mem own, if_pos own]
          exact ⟨rfl, rfl⟩
        have told : y ∉ search.jobs := fun still => gone ⟨own, still⟩
        rw [if_neg told] at count
        rw [if_neg own, count]
        exact ⟨rfl, rfl⟩
      · rfl
      · rfl
      · rfl
    · have rejected : Rejected (search.log ++ [.answered url (.rejected st), .released url] ++
          [.called (failByError st)]) := by
        intro y lookup mem
        cases mem_append.mp mem with
        | inl old => exact waiting.rejected.adds y lookup old
        | inr new => cases mem_singleton.mp new
      have isFailed : ∃ code detail, failByError st = .failed code detail := by
        cases st <;> exact ⟨_, _, rfl⟩
      obtain ⟨code, detail, isFailed⟩ := isFailed
      refine @Outcome.failed host launched _ code detail ?_ ?_ rejected
      · rw [isFailed]
        exact mem_append_right _ mem_cons_self
      intro y mem
      by_cases own : y = url
      · rw [own]
        exact ⟨st, mem_append_left _ (mem_append_right _ mem_cons_self)⟩
      have told : y ∉ search.jobs := by
        intro still
        have left : y ∈ search.jobs.erase url := (mem_erase_jobs apart).mpr ⟨own, still⟩
        rw [none] at left
        cases left
      obtain ⟨h, isF⟩ := waiting.all_rejected mem told
      exact ⟨h, mem_append_left _ (mem_append_left _ isF)⟩
  next some =>
    refine .waiting rfl ⟨urls.symm, ?_, ?_, ?_⟩ ⟨?_, ?_, ?_, ?_⟩
    · change ((rss.entries.filter fun pd => pd.backendUrl ≠ url).map _).Nodup
      rw [urls]
      exact apart.erase url
    · intro y mem
      change y ∈ (rss.entries.filter fun pd => pd.backendUrl ≠ url).map _ at mem
      rw [urls, mem_erase_jobs apart, entries.jobs] at mem
      exact entries.launched y mem.2
    · intro pd mem
      exact entries.begun pd (mem_of_mem_filter mem)
    · rw [countP_append, waiting.silent]
      rfl
    · obtain ⟨pd, mem⟩ := exists_mem_of_ne_nil _ (mt List.isEmpty_iff.mpr some)
      have isUrl : pd.backendUrl ∈ search.jobs.erase url := by
        rw [← urls]
        exact List.mem_map_of_mem mem
      refine ⟨pd.backendUrl, ?_, isUrl⟩
      apply entries.launched
      rw [← entries.jobs]
      exact mem_of_mem_erase isUrl
    · exact waiting.rejected.adds
    · intro y mem
      obtain ⟨cancels, releases, answers⟩ := counts y
      obtain ⟨noCancel, eq, count⟩ := pre y mem
      rw [cancels, releases, answers, eq]
      refine ⟨noCancel, rfl, ?_⟩
      by_cases own : y = url
      · rw [once y mem own, if_pos own, if_neg]
        intro still
        exact ((mem_erase_jobs apart).mp still).1 own
      rw [if_neg own, Nat.add_zero]
      by_cases still : y ∈ search.jobs
      · rw [if_pos still] at count
        rw [if_pos ((mem_erase_jobs apart).mpr ⟨own, still⟩)]
        exact count
      rw [if_neg still] at count
      rw [if_neg fun left => still ((mem_erase_jobs apart).mp left).2]
      exact count

theorem accepts_settled {url : String} {r : Recovery}
    (entries : Entries host attrs launched search.jobs rss)
    (waiting : Waiting launched search) (underway : url ∈ search.jobs) (costs : ∀ c ∈ r.cs, ∃ cost,
      lookupCost rss.state.authenticationProviders c.url c.type = .found cost)
    (serializes : ∃ document, recoverySerialize host r = .ok document) : Settled host attrs launched
      ({ search with jobs := search.jobs.erase url }.policyLookupCb host rss url r) := by
  obtain ⟨st, h, describes⟩ := policyFound_describes costs serializes
  unfold Search.policyLookupCb
  rw [h]
  refine .ended rfl ⟨?_, ?_, ?_, ?_⟩
  · dsimp only
    rw [countP_append, countP_append, waiting.silent, freeRss_calls]
    rfl
  · apply filter_eq_nil_iff.mpr
    intro job mem
    have isUrl := mem_of_mem_erase mem
    rw [entries.jobs] at isUrl
    simpa using isUrl
  · intro y mem
    obtain ⟨noCancel, eq, count⟩ := waiting.entries y mem
    rw [countP_append, countP_append, countP_append, countP_append,
      countP_append, countP_append, freeRss_releases y entries.distinct,
      freeRss_cancels y entries.distinct, freeRss_answers, noCancel, eq]
    change _ + 0 + (if y ∈ rss.urls then 1 else 0) = 1 ∧
      _ + 0 + (0 + 0 + if y ∈ rss.urls ∧ y ≠ url then 1 else 0) = 1
    rw [← entries.jobs]
    by_cases own : y = url
    · subst own
      rw [if_pos underway] at count
      have none : search.log.countP (Trace.answers y) = 0 := by omega
      simp [Trace.answers, none, underway]
    have notOwn : [Trace.answered url (.accepted r), .called (.succeeded st)].countP
        (Trace.answers y) = 0 := by
      simp [Trace.answers, Ne.symm own]
    rw [notOwn]
    by_cases still : y ∈ search.jobs
    · rw [if_pos still] at count
      have none : search.log.countP (Trace.answers y) = 0 := by omega
      simp [none, still, own]
    rw [if_neg still] at count
    simp [still]
    omega
  · refine @Outcome.found host launched _ url r st ?_ ?_ describes ?_
    · exact mem_append_left _ (mem_append_right _ mem_cons_self)
    · exact mem_append_left _ (mem_append_right _ (mem_cons_of_mem _ mem_cons_self))
    intro y lookup mem
    cases mem_append.mp mem with
    | inr freed =>
      cases mem_freeRss freed with
      | inl cancelled =>
        obtain ⟨_, isEntry⟩ := cancelled
        cases isEntry
      | inr released =>
        obtain ⟨_, isEntry⟩ := released
        cases isEntry
    | inl logged =>
      cases mem_append.mp logged with
      | inl old => exact .inr (waiting.rejected y lookup old)
      | inr new =>
        cases mem_cons.mp new with
        | inl ans =>
          cases ans
          exact .inl ⟨rfl, rfl⟩
        | inr report => cases mem_singleton.mp report

theorem step_settled {ev : LookupEvent} (met : Settled host attributes launched search)
    (step : Guarded (Usable host) (DiscoveryStep host) search ev next) :
    Settled host attributes launched next := by
  obtain ⟨usable, -, ran⟩ := step
  unfold Search.perform at ran
  split at ran
  next enabled =>
    cases ran
    obtain ⟨underway, body⟩ := enabled
    cases met with
    | ended freed ended =>
      rw [ended.quiet] at underway
      cases underway
    | @waiting rss live entries waiting =>
      have isUrl := underway
      rw [entries.jobs] at isUrl
      unfold Search.lookupFinished
      simp only [live]
      cases h : rss.entries.find? fun pd => pd.backendUrl = ev.url with
      | none =>
        obtain ⟨pd, mem, eq⟩ := List.mem_map.mp isUrl
        have gone := find?_eq_none.mp h pd mem
        exact absurd (decide_eq_true eq) gone
      | some pd =>
        have mem := mem_of_find?_eq_some h
        have eq : pd.backendUrl = ev.url := by
          simpa using find?_some h
        have harmless := usable rss pd live mem eq
        obtain ⟨noFault, lookup⟩ := harmless.lookup body
        dsimp only
        unfold Search.finish
        rw [← eq] at underway ⊢
        cases lookup with
        | inl rejected =>
          obtain ⟨st, isRejected⟩ := rejected
          simp only [isRejected, noFault]
          have met := @rejects_settled host attributes launched search rss pd.backendUrl
            st entries waiting underway
          exact met
        | inr ok =>
          obtain ⟨r, isAccepted, costs⟩ := ok
          obtain ⟨ver, salt, isBegun⟩ := entries.begun pd mem
          rw [isAccepted]
          have serializes := isAccepted
          rw [isBegun] at serializes
          exact accepts_settled entries waiting underway costs (accepted_serializes serializes)
  next => cases ran

theorem perform_accepts {ev : LookupEvent} {pd : PolicyDownloadEntry} {r : Recovery}
    (live : search.context = .live rss) (underway : ev.url ∈ search.jobs)
    (body : ev.httpStatus = 200 → ev.dd.isSome = true)
    (h : rss.entries.find? (fun pd => pd.backendUrl = ev.url) = some pd)
    (accepted : policyLookupCb host pd.recovery ev.httpStatus ev.dd = .ok (.accepted r)) :
    search.perform host ev =
      some ({ search with jobs := search.jobs.erase ev.url }.policyLookupCb host rss
        pd.backendUrl r) := by
  rw [Search.perform, if_pos ⟨underway, body⟩]
  unfold Search.lookupFinished
  simp only [live, h]
  rw [Search.finish, accepted]

theorem launchRecovery_eq {req : RecoveryRequest} {prov : String × ProviderConfig}
    {pd : PolicyDownloadEntry} (launched : launchRecovery host req prov.1 prov.2 = some pd) :
    pd.backendUrl = prov.1 ∧ ∃ ver salt, pd.recovery =
        recoveryBegin host (.object req.attributes) ver pd.backendUrl salt := by
  unfold launchRecovery at launched
  split at launched
  next =>
    obtain ⟨salt, -, isEntry⟩ := Option.map_eq_some_iff.mp launched
    subst isEntry
    exact ⟨rfl, _, salt, rfl⟩
  next => cases launched

theorem candidates_distinct (req : RecoveryRequest) (st : RecoveryState) :
    ((candidates req st).map Prod.fst).Nodup := by
  unfold candidates
  split
  next => exact st.authenticationProviders.distinct
  next url _ =>
    cases st.authenticationProviders.get? url with
    | none => exact nodup_nil
    | some cfg => exact nodup_singleton _

theorem launched_distinct (req : RecoveryRequest) (st : RecoveryState) :
    ((launchedEntries host req st).map PolicyDownloadEntry.backendUrl).Nodup := by
  have sublist : ∀ ps : List (String × ProviderConfig), ((ps.filterMap fun prov =>
        launchRecovery host req prov.1 prov.2).map
          PolicyDownloadEntry.backendUrl).Sublist (ps.map Prod.fst) := by
    intro ps
    induction ps with
    | nil => exact .slnil
    | cons prov rest ih =>
      cases launched : launchRecovery host req prov.1 prov.2 with
      | none =>
        rw [filterMap_cons, launched]
        exact ih.cons _
      | some pd =>
        rw [filterMap_cons, launched, map_cons, (launchRecovery_eq launched).1]
        exact ih.cons_cons _
  rw [launchedEntries, map_reverse, nodup_reverse]
  exact (candidates_distinct req st).sublist (sublist _)

theorem begin_settled (req : RecoveryRequest) (st : RecoveryState) : Settled host req.attributes
      ((launchedEntries host req st).map PolicyDownloadEntry.backendUrl)
      (beginDownloads host req st) := by
  unfold beginDownloads
  dsimp only
  split
  next empty =>
    have none := List.isEmpty_iff.mp empty
    refine .ended rfl ⟨rfl, rfl, ?_, ?_⟩
    · rw [none]
      intro url mem
      cases mem
    refine .failed mem_cons_self ?_ ?_
    · rw [none]
      intro url mem
      cases mem
    · intro url lookup mem
      cases mem_singleton.mp mem
  next some =>
    refine .waiting rfl ⟨rfl, launched_distinct req st, fun _ mem => mem, ?_⟩ ⟨rfl, ?_, ?_, ?_⟩
    · intro pd mem
      obtain ⟨prov, -, launched⟩ := mem_filterMap.mp (mem_reverse.mp mem)
      exact (launchRecovery_eq launched).2
    · obtain ⟨pd, mem⟩ := exists_mem_of_ne_nil _ (mt List.isEmpty_iff.mpr some)
      exact ⟨pd.backendUrl, List.mem_map_of_mem mem, List.mem_map_of_mem mem⟩
    · intro url lookup mem
      cases mem
    intro url mem
    refine ⟨rfl, rfl, ?_⟩
    change 0 + (if url ∈ (launchedEntries host req st).map _ then 1 else 0) = 1
    rw [if_pos mem]

/-- A search whose answers do no harm is robust. -/
theorem discovery_robust {request : RecoveryRequest} {state : RecoveryState}
    {events : List LookupEvent}
    (run : Run (Guarded (Usable host) (DiscoveryStep host)) (beginDownloads host request state)
      events search) :
    Robust host ((launchedEntries host request state).map PolicyDownloadEntry.backendUrl)
      search := by
  have settled := run.invariant (Settled host request.attributes
      ((launchedEntries host request state).map PolicyDownloadEntry.backendUrl))
    (begin_settled request state) fun _ _ _ settled step => step_settled settled step
  cases settled with
  | waiting live entries waiting => exact .waiting live waiting
  | ended freed ended => exact .ended freed ended

end Steps

section Example

variable {host : Host}

theorem read_complete {r next : Recovery} {ver : UInt32} {document : Json}
    (read : readDocument host r ver document = .ok (some next)) :
    unsetChallenges host document = false := by
  unfold readDocument at read
  simp only at read
  split at read
  next => cases read
  next parsed =>
    simp only [Option.bind_eq_bind, Option.bind_eq_some_iff, Option.pure_def, Option.some.injEq]
      at parsed
    obtain ⟨policies, arePolicies, methods, areMethods, name, isName, secret, isSecret, cs,
      challenges, -⟩ := parsed
    have fields : escrowMethods host document = some (arrayItems methods) := by
      simp [escrowMethods, arePolicies, areMethods, isName, isSecret]
    have all : (arrayItems methods).dropWhile (fun m => (parseChallenge host m).isSome) = [] := by
      apply dropWhile_eq_nil_iff.mpr
      intro m mem
      have each := List.Forall₂.flip (mapM_eq_some_iff.mp challenges)
      obtain ⟨c, -, isParsed⟩ := forall₂_mem_right each mem
      have parsed : parseChallenge host m = some c := isParsed
      rw [parsed]
      rfl
    rw [unsetChallenges, fields]
    simp only [all, length_nil]
    rfl

/-- A document of the client does no harm when the state knows what its challenges cost. -/
theorem harmless_stored {ps : Record String ProviderConfig} {request : ShareRequest}
    {random : ShareRandomness} {r : Recovery} {nonce : Nonce} {document : Bytes}
    (packed : packDocument host (recoveryDocument host request random) = some document)
    (small : (host.jsonDumps (recoveryDocument host request random)).length < 2 ^ 32)
    (costs : ∀ pt ∈ escTruths [] request.policies,
      ∃ cost, lookupCost ps pt.url pt.type = .found cost) :
    Harmless host ps r (recoveryDocumentEncrypt host nonce r.id document) := by
  have long : 40 ≤ (recoveryDocumentEncrypt host nonce r.id document).length := by
    rw [recoveryDocumentEncrypt, length_anastasisEncrypt]
    omega
  have opened : documentText host r.id (recoveryDocumentEncrypt host nonce r.id document) =
      some document := by
    have decrypted : recoveryDocumentDecrypt host r.id _ = _ := recoveryDocumentDecrypt_long long
    rw [recoveryDocumentDecrypt, recoveryDocumentEncrypt, anastasisDecrypt_anastasisEncrypt]
      at decrypted
    exact (Prod.mk.inj (Except.ok.inj decrypted)).1.symm
  obtain ⟨cbuf, compressed, isDocument⟩ := Option.map_eq_some_iff.mp packed
  have loaded := host.jsonLoadb_jsonDumps _ (canonical_recoveryDocument host request random)
  have text := host.uncompress_compress _ _ compressed
  have parsed : ∀ h,
      documentJson host r.id (recoveryDocumentEncrypt host nonce r.id document) = some h →
      h = recoveryDocument host request random := by
    intro h isF
    generalize (host.jsonDumps (recoveryDocument host request random)) = rdStr at *
    have front : document.take 4 = htonl rdStr.length := by
      rw [← isDocument]
      exact take_left' rfl
    have back : document.drop 4 = cbuf := by
      rw [← isDocument]
      exact drop_left' rfl
    have size : ntohl (htonl rdStr.length) = rdStr.length := by
      rw [ntohl_htonl, Nat.mod_eq_of_lt small]
    rw [documentJson, opened, Option.bind_eq_bind, Option.bind_some, front, back, size] at isF
    obtain ⟨_, -, isF⟩ := Option.bind_eq_some_iff.mp isF
    rw [text, Option.bind_some, loaded] at isF
    exact (Option.some.inj isF).symm
  have read := readDocument_recoveryDocument host request random
  constructor
  · exact long
  · rw [opened]
    exact .inr rfl
  · intro h isF
    rw [parsed h isF]
    exact read_complete (read 0 r)
  · intro h ver fault isF
    rw [parsed h isF, read ver r]
    intro faulty
    cases faulty
  intro h ver next isF isRead c mem
  rw [parsed h isF, read ver r] at isRead
  cases isRead
  obtain ⟨pt, isTruth, isChallenge⟩ := List.mem_map.mp mem
  subst isChallenge
  exact costs pt isTruth

def exampleRequest : RecoveryRequest := ⟨[], none, none⟩

/-- A state that knows one provider, which takes no fee for answers to questions. -/
def exampleState (url : String) : RecoveryState where
  authenticationProviders := Record.empty.set url
    { disabled := some false
      httpStatus := some 200
      salt := some (zeroBlock 16)
      methods := some [some ⟨"question", ⟨"KUDOS", Wallet.Amounts.getZero⟩⟩] }
  recoveryState := .userAttributesCollecting
  recoveryInformation := none
  recoveryDocument := none

def exampleBegun (url : String) : Recovery :=
  recoveryBegin .plain (.object []) 0 url (zeroBlock 16)

def exampleText : Bytes :=
  Host.plain.jsonDumps (recoveryDocument .plain questionShare zeroRandomness)

def examplePolicy (url : String) : Bytes :=
  recoveryDocumentEncrypt .plain (zeroBlock 24) (exampleBegun url).id
    (htonl exampleText.length ++ exampleText)

def exampleEvent (url : String) : LookupEvent := ⟨url, 200, some ⟨some (examplePolicy url), 0⟩⟩

def exampleRead (url : String) : Recovery :=
  sharedRecovery .plain questionShare zeroRandomness 0 (exampleBegun url)

theorem example_packed : packDocument .plain (recoveryDocument .plain questionShare zeroRandomness) =
    some (htonl exampleText.length ++ exampleText) := rfl

theorem example_accepted (url : String) :
    policyLookupCb .plain (exampleBegun url) (exampleEvent url).httpStatus (exampleEvent url).dd =
      .ok (.accepted (exampleRead url)) :=
  openDocument_stored .plain 0 example_packed questionShare_small rfl

theorem example_begun (url : String) : beginDownloads .plain exampleRequest (exampleState url) =
      ⟨.live ⟨exampleState url, [⟨url, exampleBegun url⟩]⟩, [url], []⟩ := rfl

def exampleEnd (url : String) : Search :=
  ({ beginDownloads .plain exampleRequest (exampleState url) with
    jobs := [url].erase url } : Search).policyLookupCb .plain
      ⟨exampleState url, [⟨url, exampleBegun url⟩]⟩ url (exampleRead url)

theorem example_step (url : String) :
    DiscoveryStep .plain (beginDownloads .plain exampleRequest (exampleState url))
      (exampleEvent url) (exampleEnd url) := by
  constructor
  · intro fault crashed
    cases crashed
  have h : [PolicyDownloadEntry.mk url (exampleBegun url)].find?
      (fun pd => pd.backendUrl = url) = some ⟨url, exampleBegun url⟩ := by
    simp
  have accepted : policyLookupCb .plain (PolicyDownloadEntry.mk url (exampleBegun url)).recovery
      (exampleEvent url).httpStatus (exampleEvent url).dd = .ok (.accepted (exampleRead url)) :=
    example_accepted url
  exact perform_accepts rfl mem_cons_self (fun _ => rfl) h accepted

/-- A readable document that names a provider which is not in the state ends the search with an
error. -/
theorem unknown_provider_fails : ¬ ∀ host request state events search,
    Run (DiscoveryStep host) (beginDownloads host request state) events search →
      Robust host ((launchedEntries host request state).map PolicyDownloadEntry.backendUrl)
        search := by
  intro robust
  have unknown : policyFound .plain (exampleState "https://a/") "https://a/"
      (exampleRead "https://a/") = .ok (.failed stateInvalid "failed to 'lookup_cost'") := rfl
  have ended := robust .plain exampleRequest (exampleState "https://a/") _ _
    (.next .start (example_step "https://a/"))
  rw [exampleEnd, Search.policyLookupCb, unknown] at ended
  cases ended with
  | waiting live => cases live
  | ended freed ended =>
    cases ended.outcome with
    | found answer report =>
      rw [example_begun] at report
      simp [freeRss] at report
    | failed report all rejected =>
      obtain ⟨status, impossible⟩ := rejected "https://a/" (.accepted (exampleRead "https://a/"))
        (mem_append_left _ (mem_append_right _ mem_cons_self))
      cases impossible

theorem example_costs : ∀ pt ∈ escTruths [] questionShare.policies, ∃ cost,
    lookupCost (exampleState questionTruth.url).authenticationProviders pt.url pt.type =
      .found cost := by
  intro pt mem
  have isQuestion : escTruths [] questionShare.policies = [questionTruth] := rfl
  rw [mem_singleton.mp mem]
  exact ⟨_, rfl⟩

theorem example_usable : Usable .plain
    (beginDownloads .plain exampleRequest (exampleState questionTruth.url))
    (exampleEvent questionTruth.url) := by
  intro rss pd live mem eq
  cases live
  intro r policy isPolicy
  cases isPolicy
  exact harmless_stored example_packed questionShare_small example_costs

/-- The provider of the question has the document. -/
theorem known_provider_robust : ∃ search, Run (Guarded (Usable .plain) (DiscoveryStep .plain))
      (beginDownloads .plain exampleRequest (exampleState questionTruth.url))
      [exampleEvent questionTruth.url] search ∧ search.context = .freed ∧ Robust .plain
        ((launchedEntries .plain exampleRequest (exampleState questionTruth.url)).map
          PolicyDownloadEntry.backendUrl) search := by
  have costs : ∀ c ∈ (exampleRead questionTruth.url).cs, ∃ cost,
      lookupCost (exampleState questionTruth.url).authenticationProviders c.url c.type =
        .found cost := by
    intro c member
    obtain ⟨pt, isTruth, isChallenge⟩ := List.mem_map.mp member
    subst isChallenge
    exact example_costs pt isTruth
  obtain ⟨state, found, -⟩ := policyFound_describes costs
    (accepted_serializes (example_accepted questionTruth.url))
  have step : Guarded (Usable .plain) (DiscoveryStep .plain)
      (beginDownloads .plain exampleRequest (exampleState questionTruth.url))
      (exampleEvent questionTruth.url) (exampleEnd questionTruth.url) :=
    ⟨example_usable, example_step questionTruth.url⟩
  have run := Run.next .start step
  refine ⟨exampleEnd questionTruth.url, run, ?_, discovery_robust run⟩
  rw [exampleEnd, Search.policyLookupCb, found]

end Example

end Anastasis.Reducer.Discovery
