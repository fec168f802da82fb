import AuditGuard.Library.Keyed
import AuditGuard.Library.OrderedMap
import AuditGuard.Library.Tables
import AuditGuard.Library.Transition

/-!
# The findings store and the reports that are made of it

The findings store of `static-analysis-service`, in memory or in PostgreSQL, and the part of `aggregateAndPublish` of
the report agent that takes the findings of a job out of it: it fetches them, has them deleted, and writes a report of
them into a file and into the database. Every request is a step of its own, and any may fail; a DELETE that the agent
does not wait for any longer may still come through. Agents may store findings at any time.

## Findings between the store and the reports

The DELETE names only the job, so that it also takes a list that came after the GET, and nobody has; and a run that has
deleted the lists may fail to write them.
-/

namespace AuditGuard.ReportAgent

section

/-! ## The store -/

/-- What a report reads of a finding; what is missing, or empty, is `none`. -/
structure Finding where
  severity : Option String
  title : Option String
  description : Option String
  location : Option String
  recommendation : Option String
deriving DecidableEq

/-- An agent's list of findings, as `getFindingsForJob` returns it. -/
structure Entry where
  agentId : String
  findings : List Finding
deriving DecidableEq

/-- A row of `pending_findings`. -/
structure Row where
  jobId : String
  agentId : String
  findings : List Finding

/-- What `UNIQUE (job_id, agent_id)` keeps apart. -/
def Row.key (row : Row) : String × String := (row.jobId, row.agentId)

/-- The store: `inMemoryStore`, or the table of `pgPool`. -/
inductive Store
  | inMemory (jobs : OrderedMap String (List Entry))
  | postgres (rows : List Row)

namespace Store

/-- `storeFinding`. -/
def storeFinding (jobId agentId : String) (findings : List Finding) : Store → Store
  | postgres rows => postgres (Tables.upsert Row.key (jobId, agentId) (fun _ => ⟨jobId, agentId, findings⟩) rows)
  | inMemory jobs =>
    let entries := (jobs.get jobId).getD []
    inMemory (jobs.set jobId (Tables.upsert Entry.agentId agentId (fun _ => ⟨agentId, findings⟩) entries))

/-- What `getFindingsForJob` may return: rows come in any order. -/
def Answers (jobId : String) (answer : List Entry) : Store → Prop
  | postgres rows => answer.Perm ((rows.filter fun row => row.jobId = jobId).map fun row => ⟨row.agentId, row.findings⟩)
  | inMemory jobs => answer = (jobs.get jobId).getD []

/-- `deleteFindingsForJob`. -/
def deleteFindingsForJob (jobId : String) : Store → Store
  | postgres rows => postgres (rows.filter fun row => row.jobId ≠ jobId)
  | inMemory jobs => inMemory (jobs.delete jobId)

/-- The list that the store has of an agent for a job. -/
def stored (jobId agentId : String) : Store → Option (List Finding)
  | postgres rows => (Tables.lookup Row.key (jobId, agentId) rows).map Row.findings
  | inMemory jobs => (Tables.lookup Entry.agentId agentId ((jobs.get jobId).getD [])).map Entry.findings

/-- `initFindingsStore`, with or without a database. -/
def Empty (store : Store) : Prop := store = .inMemory OrderedMap.empty ∨ store = .postgres []

end Store

/-! ## The report -/

/-- `ReportFinding`. -/
structure ReportFinding where
  severity : String
  title : String
  description : String
  location : Option String
  recommendation : Option String
deriving DecidableEq

/-- What a report has of a finding. -/
def toReportFinding (f : Finding) : ReportFinding where
  severity := (f.severity.getD "MEDIUM").toUpper
  title := f.title.getD "Unnamed Finding"
  description := f.description.getD ""
  location := f.location
  recommendation := f.recommendation

/-- `allFindings`. -/
def allFindings (storeEntries : List Entry) : List ReportFinding :=
  storeEntries.flatMap fun entry => entry.findings.map toReportFinding

/-- A report that was written, into the file of the job or into the database. -/
structure Report where
  jobId : String
  findings : List ReportFinding
deriving DecidableEq

/-- What has become of the DELETE of a run. -/
inductive Request
  | unsent
  | sent
  | executed
deriving DecidableEq

/-- Where a run of `aggregateAndPublish` stands: at the GET, at the DELETE, at the file, at the database, or past
them. -/
inductive Phase
  | fetching
  | deleting
  | writing
  | saving
  | ended
deriving DecidableEq

/-- A run of `aggregateAndPublish`, from the GET on. -/
structure Run where
  jobId : String
  phase : Phase
  /-- `storeEntries`. -/
  fetched : List Entry
  request : Request
  /-- A report was written. -/
  written : Bool
  /-- The lists that were stored for the job since the GET was answered; the code does not keep them. -/
  since : List Entry
deriving DecidableEq

/-- The store, the runs in their order, and the reports that they have written. -/
structure State where
  store : Store
  runs : List Run
  reports : List Report
  /-- The list that was last stored by an agent for a job; the code does not keep it. -/
  latest : String → String → Option (List Finding)

/-- What happens. -/
inductive Event
  | stores (jobId agentId : String) (findings : List Finding)
  | begins (jobId : String)
  | fetches (i : ℕ) (answer : List Entry)
  | fetchFails (i : ℕ)
  | deletes (i : ℕ)
  | goesOn (i : ℕ)
  | writesFile (i : ℕ) (ok : Bool)
  | savesReport (i : ℕ) (ok : Bool)

/-- A list that is stored after the GET was answered is noted. -/
def Run.note (jobId : String) (entry : Entry) (r : Run) : Run :=
  if r.jobId = jobId then { r with since := entry :: r.since } else r

/-- The run goes on with what was fetched: there is nothing to delete if that is nothing. -/
def Run.fetches (r : Run) (answer : List Entry) : Run :=
  if answer = [] then { r with phase := .writing, fetched := [], since := [] }
  else { r with phase := .deleting, fetched := answer, request := .sent, since := [] }

/-- The run `i` becomes `r`, and has written the reports. -/
def State.move (s : State) (i : ℕ) (r : Run) (reports : List Report) : State :=
  { s with runs := s.runs.set i r, reports := reports ++ s.reports }

/-- The report of a run, if it is written. -/
def Run.report (r : Run) (ok : Bool) : List Report := if ok = true then [⟨r.jobId, allFindings r.fetched⟩] else []

/-- One step. A job has one run at a time. -/
inductive Step : State → Event → State → Prop
  | stores {s : State} {jobId agentId : String} {findings : List Finding} :
      Step s (.stores jobId agentId findings) {
        store := s.store.storeFinding jobId agentId findings
        runs := s.runs.map (Run.note jobId ⟨agentId, findings⟩)
        reports := s.reports
        latest := Function.update s.latest jobId (Function.update (s.latest jobId) agentId (some findings)) }
  | begins {s : State} {jobId : String} (hfree : ∀ r ∈ s.runs, r.jobId = jobId → r.phase = .ended) :
      Step s (.begins jobId) { s with runs := s.runs ++ [⟨jobId, .fetching, [], .unsent, false, []⟩] }
  | fetches {s : State} {i : ℕ} {r : Run} {answer : List Entry} (hr : s.runs[i]? = some r)
      (hphase : r.phase = .fetching) (hanswer : s.store.Answers r.jobId answer) :
      Step s (.fetches i answer) (s.move i (r.fetches answer) [])
  | fetchFails {s : State} {i : ℕ} {r : Run} (hr : s.runs[i]? = some r) (hphase : r.phase = .fetching) :
      Step s (.fetchFails i) (s.move i (r.fetches []) [])
  | deletes {s : State} {i : ℕ} {r : Run} (hr : s.runs[i]? = some r) (hrequest : r.request = .sent) :
      Step s (.deletes i) { s.move i { r with request := .executed } [] with
        store := s.store.deleteFindingsForJob r.jobId }
  | goesOn {s : State} {i : ℕ} {r : Run} (hr : s.runs[i]? = some r) (hphase : r.phase = .deleting) :
      Step s (.goesOn i) (s.move i { r with phase := .writing } [])
  | writesFile {s : State} {i : ℕ} {r : Run} {ok : Bool} (hr : s.runs[i]? = some r) (hphase : r.phase = .writing) :
      Step s (.writesFile i ok) (s.move i { r with phase := .saving, written := ok } (r.report ok))
  | savesReport {s : State} {i : ℕ} {r : Run} {ok : Bool} (hr : s.runs[i]? = some r) (hphase : r.phase = .saving) :
      Step s (.savesReport i ok) (s.move i { r with phase := .ended, written := r.written || ok } (r.report ok))

/-- An empty store, and no runs. -/
def Fresh (s : State) : Prop :=
  s.store.Empty ∧ s.runs = [] ∧ s.reports = [] ∧ ∀ jobId agentId, s.latest jobId agentId = none

/-- The system. -/
def system : TransitionSystem State Event where
  init := Fresh
  step := Step

end

section

open TransitionSystem

variable {s s' : State} {r : Run} {i : ℕ} {e : Event} {jobId agentId jobId' agentId' : String}
  {findings : List Finding} {store : Store} {answer : List Entry} {ts : List (Transition State Event)}

/-! ## What is to hold -/

/-- The list is contained in a report of the job. -/
def State.Reported (s : State) (jobId : String) (findings : List Finding) : Prop :=
  ∃ report ∈ s.reports, report.jobId = jobId ∧ findings.map toReportFinding <:+: report.findings

/-- When a job has no run under way, the list that an agent has stored last for it is in the store or in a report. -/
def State.Kept (s : State) : Prop :=
  ∀ jobId agentId findings, s.latest jobId agentId = some findings →
    (∀ r ∈ s.runs, r.jobId = jobId → r.phase = .ended) →
      s.store.stored jobId agentId = some findings ∨ s.Reported jobId findings

/-- No list gets lost in the step. -/
def Careful (s : State) : Event → Prop
  -- the run still has its lists, or has written them, and has every list that came after the GET, unless a report has it
  | .deletes i => ∀ r, s.runs[i]? = some r → (r.phase = .ended → r.written = true) ∧
      ∀ entry ∈ r.since, s.store.stored r.jobId entry.agentId = some entry.findings →
        entry ∈ r.fetched ∨ s.Reported r.jobId entry.findings
  -- a run that has had its lists deleted writes them somewhere
  | .savesReport i ok => ∀ r, s.runs[i]? = some r → r.request = .executed → r.written = true ∨ ok = true
  | _ => True

/-! ## The store -/

theorem stored_storeFinding (store : Store) (jobId agentId : String) (findings : List Finding) :
    (store.storeFinding jobId agentId findings).stored jobId' agentId' =
      if jobId' = jobId ∧ agentId' = agentId then some findings else store.stored jobId' agentId' := by
  cases store with
  | postgres rows =>
    unfold Store.storeFinding Store.stored
    dsimp only
    split_ifs with hkey
    · obtain ⟨rfl, rfl⟩ := hkey
      rw [Tables.lookup_upsert (by rfl) fun _ _ => by rfl]
      rfl
    · rw [Tables.lookup_upsert_of_ne (fun hsame => hkey (Prod.mk.inj hsame)) (by rfl) fun _ _ => by rfl]
  | inMemory jobs =>
    unfold Store.storeFinding Store.stored
    dsimp only
    rw [OrderedMap.get_set]
    by_cases hjob : jobId' = jobId
    · obtain rfl := hjob
      rw [if_pos rfl, Option.getD_some]
      split_ifs with hkey
      · obtain rfl := hkey.2
        rw [Tables.lookup_upsert (by rfl) fun _ _ => by rfl]
        rfl
      · rw [Tables.lookup_upsert_of_ne (fun hsame => hkey ⟨rfl, hsame⟩) (by rfl) fun _ _ => by rfl]
    · rw [if_neg hjob, if_neg fun hkey => hjob hkey.1]

theorem stored_deleteFindingsForJob (store : Store) (jobId : String) :
    (store.deleteFindingsForJob jobId).stored jobId' agentId =
      if jobId' = jobId then none else store.stored jobId' agentId := by
  cases store with
  | postgres rows =>
    unfold Store.deleteFindingsForJob Store.stored Tables.lookup
    dsimp only
    rw [List.find?_filter]
    split_ifs with hjob
    · obtain rfl := hjob
      rw [Option.map_eq_none_iff, List.find?_eq_none]
      rintro row - hrow
      simp only [Row.key, Prod.mk.injEq, decide_eq_true_eq] at hrow
      exact hrow.1 hrow.2.1
    · congr 2
      funext row
      by_cases hrow : row.jobId = jobId
      · simp [Row.key, hrow, Ne.symm hjob]
      · simp [hrow]
  | inMemory jobs =>
    unfold Store.deleteFindingsForJob Store.stored
    dsimp only
    rw [OrderedMap.get_delete]
    split_ifs
    · rfl
    · rfl

theorem mem_of_answers (h : store.Answers jobId answer) (hstored : store.stored jobId agentId = some findings) :
    ⟨agentId, findings⟩ ∈ answer := by
  cases store with
  | postgres rows =>
    obtain ⟨row, hrow, rfl⟩ := Option.map_eq_some_iff.mp hstored
    have hkey : row.key = (jobId, agentId) := Tables.key_of_lookup hrow
    obtain ⟨hjob, hagent⟩ := Prod.mk.inj hkey
    refine h.mem_iff.mpr (List.mem_map.mpr ⟨row, List.mem_filter.mpr ⟨List.mem_of_find?_eq_some hrow, ?_⟩, ?_⟩)
    · exact decide_eq_true hjob
    · rw [← hagent]
  | inMemory jobs =>
    obtain ⟨entry, hentry, rfl⟩ := Option.map_eq_some_iff.mp hstored
    have hagent := Tables.key_of_lookup hentry
    rw [show answer = (jobs.get jobId).getD [] from h, ← hagent]
    exact List.mem_of_find?_eq_some hentry

theorem infix_allFindings {entry : Entry} {entries : List Entry} (h : entry ∈ entries) :
    entry.findings.map toReportFinding <:+: allFindings entries := by
  obtain ⟨pre, post, rfl⟩ := List.append_of_mem h
  unfold allFindings
  rw [List.flatMap_append, List.flatMap_cons]
  exact ⟨_, _, by rw [List.append_assoc]⟩

/-! ## The invariant -/

/-- The run has the list, and is to write it. -/
structure Run.Carries (r : Run) (jobId agentId : String) (findings : List Finding) : Prop where
  job : r.jobId = jobId
  underWay : r.phase ≠ .ended
  executed : r.request = .executed
  fetched : ⟨agentId, findings⟩ ∈ r.fetched

/-- The run knows every list of its job that its DELETE can take. -/
def Run.Covers (store : Store) (r : Run) : Prop :=
  r.request = .sent → ∀ agentId findings, store.stored r.jobId agentId = some findings →
    ⟨agentId, findings⟩ ∈ r.fetched ∨ ⟨agentId, findings⟩ ∈ r.since

/-- What holds at any time in a run in which no list gets lost. -/
structure State.Sound (s : State) : Prop where
  recorded : ∀ jobId agentId findings, s.store.stored jobId agentId = some findings →
    s.latest jobId agentId = some findings
  safe : ∀ jobId agentId findings, s.latest jobId agentId = some findings →
    s.store.stored jobId agentId = some findings ∨ s.Reported jobId findings ∨
      ∃ r ∈ s.runs, r.Carries jobId agentId findings
  covered : ∀ r ∈ s.runs, r.Covers s.store
  written : ∀ r ∈ s.runs, r.written = true → ∀ entry ∈ r.fetched, s.Reported r.jobId entry.findings
  fetching : ∀ r ∈ s.runs, r.phase = .fetching → r.request = .unsent ∧ r.written = false

theorem State.Sound.kept (h : s.Sound) : s.Kept := by
  intro jobId agentId findings hlatest hended
  rcases h.safe jobId agentId findings hlatest with hstored | hreported | ⟨r, hr, hcarries⟩
  · exact .inl hstored
  · exact .inr hreported
  · exact absurd (hended r hr hcarries.job) hcarries.underWay

theorem Fresh.sound (h : Fresh s) : s.Sound := by
  obtain ⟨hempty, hruns, hreports, hlatest⟩ := h
  have hstored : ∀ jobId agentId, s.store.stored jobId agentId = none := by
    intro jobId agentId
    rcases hempty with hstore | hstore <;> rw [hstore] <;> rfl
  refine ⟨?_, ?_, ?_, ?_, ?_⟩
  · intro jobId agentId findings hsome
    rw [hstored] at hsome
    cases hsome
  · intro jobId agentId findings hsome
    rw [hlatest] at hsome
    cases hsome
  all_goals simp [hruns]

theorem State.Reported.mono (h : s.Reported jobId findings) (hsub : s.reports ⊆ s'.reports) :
    s'.Reported jobId findings := by
  obtain ⟨report, hmem, hjob, hinfix⟩ := h
  exact ⟨report, hsub hmem, hjob, hinfix⟩

theorem State.Reported.move {reports : List Report} (h : s.Reported jobId findings) :
    (s.move i r reports).Reported jobId findings := h.mono (List.subset_append_right _ _)

theorem mem_move {r' : Run} (h : r' ∈ s.runs.set i r) : r' = r ∨ r' ∈ s.runs := (List.mem_or_eq_of_mem_set h).symm

theorem State.Sound.move {r' : Run} {reports : List Report} (h : s.Sound) (hr : s.runs[i]? = some r)
    (hcarries : ∀ jobId agentId findings, r.Carries jobId agentId findings →
      r'.Carries jobId agentId findings ∨ (s.move i r' reports).Reported jobId findings)
    (hcovers : r'.Covers s.store)
    (hwritten : r'.written = true → ∀ entry ∈ r'.fetched, (s.move i r' reports).Reported r'.jobId entry.findings)
    (hfetching : r'.phase ≠ .fetching) : (s.move i r' reports).Sound where
  recorded := h.recorded
  safe jobId agentId findings hlatest := by
    rcases h.safe jobId agentId findings hlatest with hstored | hreported | ⟨c, hc, hcarries'⟩
    · exact .inl hstored
    · exact .inr (.inl hreported.move)
    · by_cases hsame : c = r
      · obtain rfl := hsame
        rcases hcarries _ _ _ hcarries' with hcarries' | hreported
        · obtain ⟨hlt, -⟩ := List.getElem?_eq_some_iff.mp hr
          exact .inr (.inr ⟨r', List.mem_set hlt r', hcarries'⟩)
        · exact .inr (.inl hreported)
      · exact .inr (.inr ⟨c, Keyed.mem_set_of_ne hr hc hsame, hcarries'⟩)
  covered c hc := by
    rcases mem_move hc with rfl | hc
    · exact hcovers
    · exact h.covered c hc
  written c hc hw entry hentry := by
    rcases mem_move hc with rfl | hc
    · exact hwritten hw entry hentry
    · exact (h.written c hc hw entry hentry).move
  fetching c hc := by
    rcases mem_move hc with rfl | hc
    · exact fun hphase => absurd hphase hfetching
    · exact h.fetching c hc

/-! ## The steps -/

theorem State.Sound.fetches (h : s.Sound) (hr : s.runs[i]? = some r) (hphase : r.phase = .fetching)
    (hanswer : answer = [] ∨ s.store.Answers r.jobId answer) : (s.move i (r.fetches answer) []).Sound := by
  obtain ⟨hunsent, hblank⟩ := h.fetching r (List.mem_of_getElem? hr) hphase
  have hjob : (r.fetches answer).jobId = r.jobId := by
    unfold Run.fetches
    split_ifs <;> rfl
  have hwritten : (r.fetches answer).written = false := by
    unfold Run.fetches
    split_ifs <;> exact hblank
  refine h.move hr ?_ ?_ ?_ ?_
  · intro jobId agentId findings hcarries
    have hexecuted := hcarries.executed
    rw [hunsent] at hexecuted
    cases hexecuted
  · intro hsent agentId findings hstored
    rw [hjob] at hstored
    unfold Run.fetches at hsent ⊢
    split_ifs at hsent ⊢ with hnil
    · rw [hunsent] at hsent
      cases hsent
    · exact .inl (mem_of_answers (hanswer.resolve_left hnil) hstored)
  · intro htrue
    rw [hwritten] at htrue
    cases htrue
  · unfold Run.fetches
    split_ifs <;> exact fun hnot => nomatch hnot

/-- The DELETE is executed, with every list of the job in the run or in a report. -/
theorem State.Sound.deletes (h : s.Sound) (hr : s.runs[i]? = some r) (hrequest : r.request = .sent)
    (hcareful : Careful s (.deletes i)) :
    State.Sound { s.move i { r with request := .executed } [] with
      store := s.store.deleteFindingsForJob r.jobId } := by
  obtain ⟨hended, hsince⟩ := hcareful r hr
  have hmem := List.mem_of_getElem? hr
  obtain ⟨hlt, -⟩ := List.getElem?_eq_some_iff.mp hr
  have hstored : ∀ jobId agentId findings,
      (s.store.deleteFindingsForJob r.jobId).stored jobId agentId = some findings →
        s.store.stored jobId agentId = some findings := by
    intro jobId agentId findings hsome
    rw [stored_deleteFindingsForJob] at hsome
    split_ifs at hsome
    exact hsome
  -- What the DELETE takes is with the run, or in a report.
  have hhas : ∀ agentId findings, s.store.stored r.jobId agentId = some findings →
      s.Reported r.jobId findings ∨ r.phase ≠ .ended ∧ ⟨agentId, findings⟩ ∈ r.fetched := by
    intro agentId findings hsome
    have hfetched : ⟨agentId, findings⟩ ∈ r.fetched ∨ s.Reported r.jobId findings := by
      rcases h.covered r hmem hrequest agentId findings hsome with hfetched | hlate
      · exact .inl hfetched
      · exact hsince _ hlate hsome
    rcases hfetched with hfetched | hreported
    · by_cases hphase : r.phase = .ended
      · exact .inl (h.written r hmem (hended hphase) _ hfetched)
      · exact .inr ⟨hphase, hfetched⟩
    · exact .inl hreported
  refine ⟨fun jobId agentId findings hsome => h.recorded _ _ _ (hstored _ _ _ hsome), ?_, ?_, ?_, ?_⟩
  · intro jobId agentId findings hlatest
    rcases h.safe jobId agentId findings hlatest with hsome | hreported | ⟨c, hc, hcarries⟩
    · by_cases hjob : jobId = r.jobId
      · obtain rfl := hjob
        rcases hhas agentId findings hsome with hreported | ⟨hphase, hfetched⟩
        · exact .inr (.inl (hreported.mono (List.Subset.refl _)))
        · exact .inr (.inr ⟨_, List.mem_set hlt _, rfl, hphase, rfl, hfetched⟩)
      · refine .inl ?_
        dsimp only
        rw [stored_deleteFindingsForJob, if_neg hjob]
        exact hsome
    · exact .inr (.inl (hreported.mono (List.Subset.refl _)))
    · have hother : c ≠ r := by
        rintro rfl
        have hexecuted := hcarries.executed
        rw [hrequest] at hexecuted
        cases hexecuted
      exact .inr (.inr ⟨c, Keyed.mem_set_of_ne hr hc hother, hcarries⟩)
  · intro c hc hsent agentId findings hsome
    rcases mem_move hc with rfl | hc
    · cases hsent
    · exact h.covered c hc hsent agentId findings (hstored _ _ _ hsome)
  · intro c hc hw entry hentry
    rcases mem_move hc with rfl | hc
    · exact (h.written r hmem hw entry hentry).mono (List.Subset.refl _)
    · exact (h.written c hc hw entry hentry).mono (List.Subset.refl _)
  · intro c hc hphase
    rcases mem_move hc with rfl | hc
    · obtain ⟨hunsent, -⟩ := h.fetching r hmem hphase
      rw [hunsent] at hrequest
      cases hrequest
    · exact h.fetching c hc hphase

theorem reported_report {r' : Run} {entry : Entry} (hentry : entry ∈ r.fetched) :
    (s.move i r' (r.report true)).Reported r.jobId entry.findings :=
  ⟨_, List.mem_append_left _ (List.mem_singleton_self _), rfl, infix_allFindings hentry⟩

/-- A list is stored. -/
theorem State.Sound.stores (h : s.Sound) (jobId agentId : String) (findings : List Finding) :
    State.Sound {
      store := s.store.storeFinding jobId agentId findings
      runs := s.runs.map (Run.note jobId ⟨agentId, findings⟩)
      reports := s.reports
      latest := Function.update s.latest jobId (Function.update (s.latest jobId) agentId (some findings)) } := by
  have hlatest : ∀ jobId' agentId', Function.update s.latest jobId
      (Function.update (s.latest jobId) agentId (some findings)) jobId' agentId' =
        if jobId' = jobId ∧ agentId' = agentId then some findings else s.latest jobId' agentId' := by
    intro jobId' agentId'
    by_cases hjob : jobId' = jobId
    · obtain rfl := hjob
      rw [Function.update_self, Function.update_apply]
      simp
    · rw [Function.update_of_ne hjob, if_neg fun hkey => hjob hkey.1]
  have hnote : ∀ r, (Run.note jobId ⟨agentId, findings⟩ r).jobId = r.jobId ∧
      (Run.note jobId ⟨agentId, findings⟩ r).phase = r.phase ∧
      (Run.note jobId ⟨agentId, findings⟩ r).request = r.request ∧
      (Run.note jobId ⟨agentId, findings⟩ r).fetched = r.fetched ∧
      (Run.note jobId ⟨agentId, findings⟩ r).written = r.written := by
    intro r
    unfold Run.note
    split_ifs <;> exact ⟨rfl, rfl, rfl, rfl, rfl⟩
  refine ⟨?_, ?_, ?_, ?_, ?_⟩
  · intro jobId' agentId' findings' hsome
    dsimp only at hsome ⊢
    rw [stored_storeFinding] at hsome
    rw [hlatest]
    split_ifs at hsome ⊢
    · exact hsome
    · exact h.recorded _ _ _ hsome
  · intro jobId' agentId' findings' hsome
    dsimp only at hsome ⊢
    rw [hlatest] at hsome
    rw [stored_storeFinding]
    split_ifs at hsome ⊢
    · exact .inl hsome
    · rcases h.safe _ _ _ hsome with hstored | hreported | ⟨r, hr, hcarries⟩
      · exact .inl hstored
      · exact .inr (.inl hreported)
      · obtain ⟨hjob, hphase, hrequest, hfetched, -⟩ := hnote r
        refine .inr (.inr ⟨_, List.mem_map_of_mem hr, ?_⟩)
        exact ⟨hjob.trans hcarries.job, hphase ▸ hcarries.underWay, hrequest.trans hcarries.executed,
          hfetched ▸ hcarries.fetched⟩
  · intro r' hr' hsent agentId' findings' hsome
    obtain ⟨r, hr, rfl⟩ := List.mem_map.mp hr'
    obtain ⟨hjob, -, hrequest, hfetched, -⟩ := hnote r
    rw [hrequest] at hsent
    rw [hjob] at hsome
    dsimp only at hsome
    rw [stored_storeFinding] at hsome
    rw [hfetched]
    -- A list that is new is noted, and the others were covered before.
    unfold Run.note
    by_cases hnew : r.jobId = jobId
    · rw [if_pos hnew]
      split_ifs at hsome with hkey
      · obtain rfl := Option.some.inj hsome
        rw [hkey.2]
        exact .inr List.mem_cons_self
      · exact (h.covered r hr hsent agentId' findings' hsome).imp_right (List.mem_cons_of_mem _)
    · rw [if_neg hnew]
      rw [if_neg fun hkey => hnew hkey.1] at hsome
      exact h.covered r hr hsent agentId' findings' hsome
  · intro r' hr' hw entry hentry
    obtain ⟨r, hr, rfl⟩ := List.mem_map.mp hr'
    obtain ⟨hjob, -, -, hfetched, hwritten⟩ := hnote r
    rw [hwritten] at hw
    rw [hfetched] at hentry
    rw [hjob]
    exact h.written r hr hw entry hentry
  · intro r' hr' hphase'
    obtain ⟨r, hr, rfl⟩ := List.mem_map.mp hr'
    obtain ⟨-, hphase, hrequest, -, hwritten⟩ := hnote r
    rw [hphase] at hphase'
    rw [hrequest, hwritten]
    exact h.fetching r hr hphase'

theorem State.Sound.begins (h : s.Sound) (jobId : String) :
    State.Sound { s with runs := s.runs ++ [⟨jobId, .fetching, [], .unsent, false, []⟩] } := by
  have hmem : ∀ {r}, r ∈ s.runs ++ [⟨jobId, .fetching, [], .unsent, false, []⟩] →
      r ∈ s.runs ∨ r = ⟨jobId, .fetching, [], .unsent, false, []⟩ := fun hr =>
    (List.mem_append.mp hr).imp_right List.mem_singleton.mp
  refine ⟨h.recorded, fun jobId' agentId findings hsome => ?_, ?_, ?_, ?_⟩
  · rcases h.safe jobId' agentId findings hsome with hstored | hreported | ⟨r, hr, hcarries⟩
    · exact .inl hstored
    · exact .inr (.inl hreported)
    · exact .inr (.inr ⟨r, List.mem_append_left _ hr, hcarries⟩)
  · intro r hr
    rcases hmem hr with hr | rfl
    · exact h.covered r hr
    · exact fun hsent => nomatch hsent
  · intro r hr hw
    rcases hmem hr with hr | rfl
    · exact h.written r hr hw
    · cases hw
  · intro r hr hphase
    rcases hmem hr with hr | rfl
    · exact h.fetching r hr hphase
    · exact ⟨rfl, rfl⟩

theorem Step.sound (hstep : Step s e s') (h : s.Sound) (hcareful : Careful s e) : s'.Sound := by
  cases hstep with
  | stores => exact h.stores _ _ _
  | begins hfree => exact h.begins _
  | fetches hr hphase hanswer => exact h.fetches hr hphase (.inr hanswer)
  | fetchFails hr hphase => exact h.fetches hr hphase (.inl rfl)
  | deletes hr hrequest => exact h.deletes hr hrequest hcareful
  | @goesOn i r hr hphase =>
    have hmem := List.mem_of_getElem? hr
    refine h.move hr (fun jobId agentId findings hcarries => .inl ?_) (h.covered r hmem) ?_ fun hnot => nomatch hnot
    · exact ⟨hcarries.job, (fun hnot => nomatch hnot), hcarries.executed, hcarries.fetched⟩
    · exact fun hw entry hentry => (h.written r hmem hw entry hentry).move
  | @writesFile i r ok hr hphase =>
    have hmem := List.mem_of_getElem? hr
    refine h.move hr (fun jobId agentId findings hcarries => .inl ?_) (h.covered r hmem) ?_ fun hnot => nomatch hnot
    · exact ⟨hcarries.job, (fun hnot => nomatch hnot), hcarries.executed, hcarries.fetched⟩
    · rintro rfl entry hentry
      exact reported_report hentry
  | @savesReport i r ok hr hphase =>
    have hmem := List.mem_of_getElem? hr
    have hwritten : (r.written || ok) = true → ∀ entry ∈ r.fetched,
        (s.move i { r with phase := .ended, written := r.written || ok } (r.report ok)).Reported r.jobId
          entry.findings := by
      intro hw entry hentry
      rcases (Bool.or_eq_true _ _).mp hw with hw | rfl
      · exact (h.written r hmem hw entry hentry).move
      · exact reported_report hentry
    refine h.move hr (fun jobId agentId findings hcarries => .inr ?_) (h.covered r hmem) hwritten fun hnot =>
      nomatch hnot
    obtain rfl := hcarries.job
    exact hwritten ((Bool.or_eq_true _ _).mpr (hcareful r hr hcarries.executed)) _ hcarries.fetched

/-! ## Every run -/

/-- In every run in which no DELETE takes a list that the agent does not have, and no lists that were deleted stay
unwritten, the lists are kept, with either store. -/
theorem kept_of_careful (hr : system.Run ts s) (hcareful : ∀ tr ∈ ts, Careful tr.src tr.label) :
    Throughout State.Kept ts s :=
  Run.throughout (fun _ => Fresh.sound) (fun _ _ _ hsound hcareful hstep => Step.sound hstep hsound hcareful)
    (fun _ => State.Sound.kept) hr hcareful

/-! ## Two agents -/

/-- Makes an event happen with an answer in the order of the store, if it can. -/
def State.play (s : State) : Event → Option State
  | .stores jobId agentId findings => some {
      store := s.store.storeFinding jobId agentId findings
      runs := s.runs.map (Run.note jobId ⟨agentId, findings⟩)
      reports := s.reports
      latest := Function.update s.latest jobId (Function.update (s.latest jobId) agentId (some findings)) }
  | .begins jobId =>
    if (s.runs.all fun r => decide (r.jobId = jobId → r.phase = .ended)) = true then
      some { s with runs := s.runs ++ [⟨jobId, .fetching, [], .unsent, false, []⟩] }
    else none
  | .fetches i answer =>
    match s.runs[i]?, s.store with
    | some r, .inMemory jobs =>
      if r.phase = .fetching ∧ answer = (jobs.get r.jobId).getD [] then some (s.move i (r.fetches answer) []) else none
    | _, _ => none
  | .fetchFails i =>
    match s.runs[i]? with
    | some r => if r.phase = .fetching then some (s.move i (r.fetches []) []) else none
    | none => none
  | .deletes i =>
    match s.runs[i]? with
    | some r => if r.request = .sent then some { s.move i { r with request := .executed } [] with
        store := s.store.deleteFindingsForJob r.jobId } else none
    | none => none
  | .goesOn i =>
    match s.runs[i]? with
    | some r => if r.phase = .deleting then some (s.move i { r with phase := .writing } []) else none
    | none => none
  | .writesFile i ok =>
    match s.runs[i]? with
    | some r => if r.phase = .writing then
        some (s.move i { r with phase := .saving, written := ok } (r.report ok)) else none
    | none => none
  | .savesReport i ok =>
    match s.runs[i]? with
    | some r => if r.phase = .saving then
        some (s.move i { r with phase := .ended, written := r.written || ok } (r.report ok)) else none
    | none => none

/-- What happens is a step. -/
theorem plays : system.Plays State.play fun _ move e => e = move := by
  intro s move s' h
  refine ⟨move, rfl, ?_⟩
  unfold State.play at h
  split at h
  · obtain rfl := Option.some.inj h
    exact .stores
  · split_ifs at h with hfree
    obtain rfl := Option.some.inj h
    exact .begins fun r hr => of_decide_eq_true (List.all_eq_true.mp hfree r hr)
  · split at h
    · rename_i hr hstore
      split_ifs at h with hready
      obtain rfl := Option.some.inj h
      refine .fetches hr hready.1 ?_
      rw [hstore]
      exact hready.2
    · cases h
  · split at h
    · rename_i hr
      split_ifs at h with hphase
      obtain rfl := Option.some.inj h
      exact .fetchFails hr hphase
    · cases h
  · split at h
    · rename_i hr
      split_ifs at h with hrequest
      obtain rfl := Option.some.inj h
      exact .deletes hr hrequest
    · cases h
  · split at h
    · rename_i hr
      split_ifs at h with hphase
      obtain rfl := Option.some.inj h
      exact .goesOn hr hphase
    · cases h
  · split at h
    · rename_i hr
      split_ifs at h with hphase
      obtain rfl := Option.some.inj h
      exact .writesFile hr hphase
    · cases h
  · split at h
    · rename_i hr
      split_ifs at h with hphase
      obtain rfl := Option.some.inj h
      exact .savesReport hr hphase
    · cases h

/-- No list gets lost, as far as one can see without the reports. -/
def State.careful (s : State) : Event → Bool
  | .deletes i =>
    match s.runs[i]? with
    | some r => decide (r.phase ≠ .ended) && r.since.isEmpty
    | none => true
  | .savesReport _ ok => ok
  | _ => true

theorem careful_of_play (h : s.careful e = true) : Careful s e := by
  unfold State.careful at h
  unfold Careful
  split at h
  · intro r hr
    rw [hr] at h
    obtain ⟨hphase, hsince⟩ := (Bool.and_eq_true _ _).mp h
    refine ⟨fun hended => absurd hended (of_decide_eq_true hphase), fun entry hentry => ?_⟩
    rw [List.isEmpty_iff.mp hsince] at hentry
    cases hentry
  · exact fun r hr hexecuted => .inr h
  · trivial

/-- Nothing has been stored. -/
def sampleState : State := ⟨.inMemory OrderedMap.empty, [], [], fun _ _ => none⟩

/-- A finding with a title. -/
def sampleFinding (title : String) : Finding := ⟨some "high", some title, some "", none, none⟩

/-- What one agent found. -/
def sampleEntry : Entry := ⟨"fuzzer-012", [sampleFinding "Reentrancy"]⟩

/-- The writing of a report goes well to its end. -/
def sampleWriting : List Event := [.deletes 0, .goesOn 0, .writesFile 0 true, .savesReport 0 true]

/-- Two agents store their findings before the report is begun. -/
def sampleCareful : List Event := [
  .stores "7" "fuzzer-012" sampleEntry.findings,
  .stores "7" "static-analysis-047" [sampleFinding "Unused return value"],
  .begins "7",
  .fetches 0 [sampleEntry, ⟨"static-analysis-047", [sampleFinding "Unused return value"]⟩]]

/-- The second agent is late. -/
def sampleLate : List Event := [
  .stores "7" "fuzzer-012" sampleEntry.findings,
  .begins "7",
  .fetches 0 [sampleEntry],
  .stores "7" "static-analysis-047" [sampleFinding "Unused return value"]]

/-- The report has what was found. -/
theorem kept_of_careful_sample : ∃ ts s, system.Run ts s ∧
    s.reports.map (fun report => report.findings.length) = [2, 2] ∧
    Throughout State.Kept ts s := by
  have hplay : ((sampleCareful ++ sampleWriting).foldlM
      (fun s e => if s.careful e = true then s.play e else none) sampleState).map
      (fun s => s.reports.map fun report => report.findings.length) = some [2, 2] := by decide +kernel
  obtain ⟨ts, s, hr, hreports, hfrom, -⟩ := plays.guarded.exists_run ⟨.inl rfl, rfl, rfl, fun _ _ => rfl⟩ hplay
  refine ⟨ts, s, hr, hreports, kept_of_careful hr fun tr htr => careful_of_play ?_⟩
  obtain ⟨e, -, hcomes⟩ := hfrom tr htr
  rw [hcomes.means.1]
  exact hcomes.means.2

/-- The DELETE takes the findings of the second agent, and the report does not have them. -/
theorem not_kept_lateList :
    ¬ ∀ (ts : List (Transition State Event)) (s : State), system.Run ts s → s.Kept := by
  intro hall
  have hplay : ((sampleLate ++ sampleWriting).foldlM State.play sampleState).map
      (fun s => (s.latest "7" "static-analysis-047", s.runs.map Run.phase,
        s.store.stored "7" "static-analysis-047", s.reports)) =
      some (some [sampleFinding "Unused return value"], [.ended], none,
        [⟨"7", allFindings [sampleEntry]⟩, ⟨"7", allFindings [sampleEntry]⟩]) := by decide +kernel
  obtain ⟨ts, s, hr, hread, -, -⟩ := plays.exists_run ⟨.inl rfl, rfl, rfl, fun _ _ => rfl⟩ hplay
  obtain ⟨hlatest, hread⟩ := Prod.mk.inj hread
  obtain ⟨hruns, hread⟩ := Prod.mk.inj hread
  obtain ⟨hstored, hreports⟩ := Prod.mk.inj hread
  have hended : ∀ r ∈ s.runs, r.jobId = "7" → r.phase = .ended := by
    intro r hr' _
    have hphase := List.mem_map_of_mem (f := Run.phase) hr'
    rw [hruns] at hphase
    exact List.mem_singleton.mp hphase
  rcases hall ts s hr "7" "static-analysis-047" _ hlatest hended with hsome | ⟨report, hmem, -, hinfix⟩
  · rw [hstored] at hsome
    cases hsome
  · have htitle : toReportFinding (sampleFinding "Unused return value") ∈ report.findings :=
      hinfix.subset (List.mem_singleton_self _)
    have hreport : report = ⟨"7", allFindings [sampleEntry]⟩ := by
      rw [hreports] at hmem
      simpa using hmem
    rw [hreport] at htitle
    exact absurd htitle (by decide +kernel)

end

end AuditGuard.ReportAgent
