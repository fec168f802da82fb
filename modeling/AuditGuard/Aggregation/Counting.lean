import AuditGuard.Aggregation.Calls

/-!
# Every submission in one report

A submission is to be counted once in the reports of its job. A message that is delivered again is counted again; one
that comes when a call has added the others up is never counted, since the call deletes the record at its end; and a
call that stops before its report is out leaves the record latched, so that no other call gets past it, as one does
that throws on what a message has as the job's id or as the number of findings. In every run in which none of these
happens, every submission is counted once, or is in the hands of a timer or a call that counts it.
-/

namespace AuditGuard.Aggregation

open TransitionSystem

variable {config : Config} {s s' : State} {e : Event} {x : Submission} {jobId : JobId} {job : JobFindings}
  {phase : Phase} {answer : Answer} {overlap : ℕ → ℕ → ℚ} {totals : Totals} {agents : List String}
  {ts : List (Transition State Event)}

/-! ## What is to hold -/

/-- The agent does it without a message from outside. -/
def Event.Own : Event → Prop
  | .receives _ => False
  | _ => True

/-- A submission is counted, or timers and calls can go on so that it is. -/
def State.Counts (config : Config) (s : State) (x : Submission) : Prop :=
  ∃ events s', (∀ e ∈ events, e.Own) ∧ Path (Step config) s events s' ∧ 0 < s'.timesCounted x

/-- Every submission is counted in one report at most, and there is or will be one. -/
def State.Kept (config : Config) (s : State) : Prop :=
  ∀ x ∈ s.received, s.timesCounted x ≤ 1 ∧ s.Counts config x

/-- No timer is armed, and no call is running. -/
def State.Quiet (s : State) : Prop := ∀ jobId, s.timers jobId = 0 ∧ s.calls jobId = none

/-- The call stops before its report is out. -/
def Phase.fails (config : Config) (jobId : JobId) (job : JobFindings) : Phase → Answer → Bool
  | .preflight, _ => job.throws jobId
  | .settling _, .throws _ => config.strictLive && !config.demoMode
  | .settlementFailed, _ => true
  | .updatingReputation .., .throws _ => true
  | .publishingReport .., .throws landed => !landed
  | _, _ => false

/-- The record of a job is latched, and its call has added the submissions up or has stopped. -/
def State.Closed (s : State) (jobId : JobId) : Prop :=
  ∃ job, s.jobFindings jobId = some job ∧ job.aggregating = true ∧ s.calls jobId ≠ some .preflight

/-- A call can do with the submission what it does with the last one of an agent. -/
def Submission.usable (x : Submission) : Bool := x.jobId matches .text _ && x.billable

/-- No submission gets lost or counted twice by the step. -/
def Careful (config : Config) (s : State) : Event → Prop
  -- a submission is new as long as its record is open, and only then; and it can be paid
  | .receives x => (x ∈ s.received ↔ s.Closed x.jobId) ∧ x.usable = true
  | .fires .. => True
  -- the call does not stop before its report is out
  | .resumes jobId answer _ => ∀ job phase, s.jobFindings jobId = some job → s.calls jobId = some phase →
      phase.fails config jobId job answer = false

/-! ## The invariant -/

/-- The submissions that a call has added up, as long as their report is not out. -/
def Phase.unpublished : Phase → Option (List Submission)
  | .settling totals => some totals.counted
  | .updatingReputation totals _ _ _ => some totals.counted
  | .publishingReport totals _ => some totals.counted
  | _ => none

/-- The report of a call is out. -/
def Phase.published : Phase → Bool
  | .takingFindings _ | .writingReport .. | .savingReport .. | .publishingMetadata .. => true
  | _ => false

/-- The record of a job, its timers, its call, and the submissions that are still to be counted. -/
inductive Holds : Option JobFindings → ℕ → Option Phase → List Submission → Prop
  | absent : Holds none 0 none []
  | waiting {job : JobFindings} (htimer : job.timer = true) (haggregating : job.aggregating = false)
      (hsome : job.submissions ≠ []) : Holds (some job) 1 none job.submissions
  | preflight {job : JobFindings} (htimer : job.timer = true) (haggregating : job.aggregating = true)
      (hsome : job.submissions ≠ []) : Holds (some job) 0 (some .preflight) job.submissions
  | totalled {job : JobFindings} {phase : Phase} {counted : List Submission} (htimer : job.timer = true)
      (haggregating : job.aggregating = true) (hphase : phase.unpublished = some counted) :
      Holds (some job) 0 (some phase) counted
  | published {job : JobFindings} {phase : Phase} (htimer : job.timer = true)
      (haggregating : job.aggregating = true) (hphase : phase.published = true) : Holds (some job) 0 (some phase) []
  | stopped {job : JobFindings} (htimer : job.timer = true) (haggregating : job.aggregating = true) :
      Holds (some job) 0 none []

/-- What holds at any time in a run in which no submission gets lost, where `left` has the submissions of each job
that are still to be counted. -/
structure State.Sound (s : State) (left : JobId → List Submission) : Prop where
  holds : ∀ jobId, Holds (s.jobFindings jobId) (s.timers jobId) (s.calls jobId) (left jobId)
  job : ∀ jobId, ∀ x ∈ left jobId, x.jobId = jobId ∧ x.usable = true
  once : ∀ x, s.timesCounted x + (left x.jobId).count x = if x ∈ s.received then 1 else 0

/-- Nothing has been received at the start. -/
theorem sound_initial : State.initial.Sound fun _ => [] :=
  ⟨fun _ => .absent, (fun _ _ h => nomatch h), fun _ => rfl⟩

theorem State.Sound.change {left : JobId → List Submission} {rest : List Submission} (h : s.Sound left)
    (hstep : Step config s e s')
    (hholds : Holds (s'.jobFindings e.jobId) (s'.timers e.jobId) (s'.calls e.jobId) rest)
    (hjob : ∀ x ∈ rest, x.jobId = e.jobId ∧ x.usable = true)
    (honce : ∀ x, x.jobId = e.jobId → s'.timesCounted x + rest.count x = if x ∈ s'.received then 1 else 0) :
    s'.Sound (Function.update left e.jobId rest) where
  holds jobId := by
    by_cases hne : jobId ≠ e.jobId
    · obtain ⟨hjobFindings, htimers, hcalls⟩ := hstep.same hne
      rw [Function.update_of_ne hne, hjobFindings, htimers, hcalls]
      exact h.holds jobId
    · rw [not_ne_iff.mp hne, Function.update_self]
      exact hholds
  job jobId := by
    by_cases hne : jobId ≠ e.jobId
    · rw [Function.update_of_ne hne]
      exact h.job jobId
    · rw [not_ne_iff.mp hne, Function.update_self]
      exact hjob
  once x := by
    by_cases hne : x.jobId ≠ e.jobId
    · obtain ⟨hcount, hreceived⟩ := hstep.other hne
      rw [Function.update_of_ne hne, hcount, if_congr hreceived rfl rfl]
      exact h.once x
    · rw [not_ne_iff.mp hne, Function.update_self]
      exact honce x (not_ne_iff.mp hne)

/-! ## What a step keeps -/

/-- A call does not throw on submissions that it can use. -/
theorem throws_eq_false (hsome : job.submissions ≠ [])
    (hjob : ∀ x ∈ job.submissions, x.jobId = jobId ∧ x.usable = true) : job.throws jobId = false := by
  obtain ⟨first, hfirst⟩ := List.exists_mem_of_ne_nil _ hsome
  obtain ⟨rfl, hfirst⟩ := hjob first hfirst
  unfold Submission.usable at hfirst
  unfold JobFindings.throws
  cases hid : first.jobId with
  | number id =>
    rw [hid] at hfirst
    cases hfirst
  | text id =>
    refine List.any_eq_false.mpr fun agentId _ => ?_
    rw [Bool.not_eq_true, Option.any_eq_false]
    intro last hlast
    rw [List.findRev?_eq_find?_reverse] at hlast
    have hmem : last ∈ job.submissions := List.mem_reverse.mp (List.mem_of_find?_eq_some hlast)
    have hbillable := ((Bool.and_eq_true _ _).mp (hjob last hmem).2).2
    simp [hbillable]

theorem unpublished_updateReputations :
    (updateReputations job totals agents).unpublished = some totals.counted := by
  cases agents <;> rfl

theorem unpublished_takeTotals : (takeTotals config overlap job).unpublished = some job.submissions := by
  unfold takeTotals
  split_ifs
  · rfl
  · exact unpublished_updateReputations

theorem startTotals_eq (h : job.throws jobId = false) :
    startTotals config overlap jobId job = .awaits (takeTotals config overlap job) := by
  unfold startTotals
  rw [h]
  rfl

/-- A message that comes to an open record is still to be counted. -/
theorem State.Sound.receives_open (config : Config) {left : JobId → List Submission} (h : s.Sound left)
    (hnew : x ∉ s.received) (hopen : ¬s.Closed x.jobId) (husable : x.usable = true) :
    (handleAgentCommsMessage x s).Sound (Function.update left x.jobId (left x.jobId ++ [x])) := by
  have hstep : Step config s (.receives x) (handleAgentCommsMessage x s) := .receives
  refine h.change hstep ?_ ?_ ?_
  · have hholds := h.holds x.jobId
    unfold handleAgentCommsMessage
    unfold State.Closed at hopen
    dsimp only [Event.jobId]
    rw [Function.update_self]
    generalize s.jobFindings x.jobId = record, s.calls x.jobId = call, left x.jobId = rest at hholds hopen ⊢
    generalize htimers : s.timers x.jobId = timers at hholds ⊢
    cases hholds with
    | absent =>
      rw [Option.getD_none, if_neg (by decide), Function.update_self]
      exact .waiting rfl rfl (by simp [JobFindings.push])
    | waiting htimer haggregating hsome =>
      rw [Option.getD_some, if_pos htimer, htimers]
      exact .waiting rfl haggregating (by simp [JobFindings.push])
    | preflight htimer haggregating hsome =>
      rw [Option.getD_some, if_pos htimer, htimers]
      exact .preflight rfl haggregating (by simp [JobFindings.push])
    | totalled htimer haggregating hphase =>
      refine absurd ⟨_, rfl, haggregating, fun hpreflight => ?_⟩ hopen
      obtain rfl := Option.some.inj hpreflight
      cases hphase
    | published htimer haggregating hphase =>
      refine absurd ⟨_, rfl, haggregating, fun hpreflight => ?_⟩ hopen
      obtain rfl := Option.some.inj hpreflight
      cases hphase
    | stopped htimer haggregating => exact absurd ⟨_, rfl, haggregating, by rintro ⟨⟩⟩ hopen
  · intro y hy
    rcases List.mem_append.mp hy with hy | hy
    · exact h.job x.jobId y hy
    · rw [List.mem_singleton.mp hy]
      exact ⟨rfl, husable⟩
  · intro y hjob
    have honce := h.once y
    rw [hjob] at honce
    dsimp only [Event.jobId] at honce
    change s.timesCounted y + (left x.jobId ++ [x]).count y = if y ∈ s.received ++ [x] then 1 else 0
    rw [List.count_append, ← Nat.add_assoc, honce]
    by_cases hsame : y = x
    · subst hsame
      rw [if_neg hnew, if_pos (List.mem_append_right _ (List.mem_singleton_self _)), List.count_singleton_self]
    · rw [List.count_eq_zero.mpr (by simpa using hsame), Nat.add_zero]
      exact if_congr (by rw [List.mem_append, List.mem_singleton, or_iff_left hsame]) rfl rfl

/-- A message that comes again to a closed record changes nothing. -/
theorem State.Sound.receives_closed (config : Config) {left : JobId → List Submission} (h : s.Sound left)
    (hold : x ∈ s.received) (hclosed : s.Closed x.jobId) :
    (handleAgentCommsMessage x s).Sound (Function.update left x.jobId (left x.jobId)) := by
  have hstep : Step config s (.receives x) (handleAgentCommsMessage x s) := .receives
  refine h.change hstep ?_ (h.job x.jobId) ?_
  · have hholds := h.holds x.jobId
    obtain ⟨job, hjob, haggregating, hcall⟩ := hclosed
    unfold handleAgentCommsMessage
    dsimp only [Event.jobId]
    rw [hjob] at hholds ⊢
    rw [Function.update_self, Option.getD_some]
    generalize s.calls x.jobId = call, left x.jobId = rest at hholds hcall ⊢
    generalize htimers : s.timers x.jobId = timers at hholds ⊢
    cases hholds with
    | waiting _ hwaiting _ =>
      rw [hwaiting] at haggregating
      cases haggregating
    | preflight => exact absurd rfl hcall
    | totalled htimer _ hphase =>
      rw [if_pos htimer, htimers]
      exact .totalled rfl haggregating hphase
    | published htimer _ hphase =>
      rw [if_pos htimer, htimers]
      exact .published rfl haggregating hphase
    | stopped htimer _ =>
      rw [if_pos htimer, htimers]
      exact .stopped rfl haggregating
  · intro y hjob
    have honce := h.once y
    rw [hjob] at honce
    dsimp only [Event.jobId] at honce
    change s.timesCounted y + (left x.jobId).count y = if y ∈ s.received ++ [x] then 1 else 0
    rw [honce]
    refine if_congr ?_ rfl rfl
    rw [List.mem_append, List.mem_singleton, or_iff_left_of_imp]
    rintro rfl
    exact hold

/-- A timer that fires keeps the invariant. -/
theorem State.Sound.fires {left : JobId → List Submission} (h : s.Sound left) (hpos : 0 < s.timers jobId) :
    (aggregateAndPublish config overlap jobId
      { s with timers := Function.update s.timers jobId (s.timers jobId - 1) }).Sound
        (Function.update left jobId (left jobId)) := by
  refine h.change (.fires hpos) ?_ (h.job jobId) ?_
  · have hholds := h.holds jobId
    have hjob := h.job jobId
    unfold aggregateAndPublish
    dsimp only [Event.jobId]
    generalize hrecord : s.jobFindings jobId = record, s.calls jobId = call, left jobId = rest at hholds hjob ⊢
    generalize s.timers jobId = timers at hpos hholds ⊢
    cases hholds with
    | waiting htimer haggregating hsome =>
      dsimp only
      rw [if_neg (by simp [hsome, haggregating])]
      have hthrows := throws_eq_false hsome hjob
      split_ifs
      · rw [startTotals_eq hthrows]
        unfold State.goesOn
        dsimp only
        rw [Function.update_self, Function.update_self, Function.update_self]
        exact .totalled htimer rfl unpublished_takeTotals
      · unfold State.goesOn
        dsimp only
        rw [Function.update_self, Function.update_self, Function.update_self]
        exact .preflight htimer rfl hsome
    | _ => cases hpos
  · intro y hjob
    have honce := h.once y
    rw [hjob] at honce
    unfold State.timesCounted
    rw [aggregateAndPublish_auditLog, aggregateAndPublish_received]
    exact honce

/-- The record of a job after a step of its call. -/
def Next.record (job : JobFindings) : Next → Option JobFindings
  | .deletes => none
  | _ => some job

/-- The call of a job after a step of it. -/
def Next.call : Next → Option Phase
  | .awaits phase => some phase
  | _ => none

theorem State.goesOn_job (hjob : s.jobFindings jobId = some job) (next : Next) :
    (s.goesOn jobId next).jobFindings jobId = next.record job ∧ (s.goesOn jobId next).calls jobId = next.call ∧
      (s.goesOn jobId next).timers jobId = s.timers jobId := by
  cases next with
  | awaits phase => exact ⟨hjob, Function.update_self .., rfl⟩
  | deletes => exact ⟨Function.update_self .., Function.update_self .., rfl⟩
  | stops => exact ⟨hjob, Function.update_self .., rfl⟩

/-- What a wait has published when it ends. -/
def Phase.publishes (jobId : JobId) (answer : Answer) (phase : Phase) : List Message :=
  if answer.landed then (phase.message jobId).toList else []

theorem sum_publishes (h : ∀ totals agentCount, phase ≠ .publishingReport totals agentCount) :
    ((phase.publishes jobId answer).map (Message.counts x)).sum = 0 := by
  unfold Phase.publishes
  split_ifs
  · cases phase with
    | publishingReport totals agentCount => exact absurd rfl (h totals agentCount)
    | _ => rfl
  · rfl

theorem resume_settling (hfails : (Phase.settling totals).fails config jobId job answer = false) :
    resume config overlap jobId job (.settling totals) answer =
      .awaits (updateReputations job totals (scoredAgents totals.counted)) := by
  refine if_neg ?_
  rintro ⟨hanswer, hstrict, hdemo⟩
  cases answer with
  | returns => exact hanswer rfl
  | throws landed => simp [Phase.fails, hstrict, hdemo] at hfails

/-- A call that does not stop before its report is out keeps what is still to be counted, or its report counts it. -/
theorem Holds.resumes (overlap : ℕ → ℕ → ℚ) (jobId : JobId) {timers : ℕ} {rest : List Submission}
    (h : Holds (some job) timers (some phase) rest) (hfails : phase.fails config jobId job answer = false) :
    ∃ rest', Holds ((resume config overlap jobId job phase answer).record job) timers
        (resume config overlap jobId job phase answer).call rest' ∧ rest' ⊆ rest ∧
      ∀ x, x.jobId = jobId →
        ((phase.publishes jobId answer).map (Message.counts x)).sum + rest'.count x = rest.count x := by
  cases h with
  | preflight htimer haggregating hsome =>
    refine ⟨_, ?_, List.Subset.refl _, fun x hx => ?_⟩
    · have hnext : resume config overlap jobId job .preflight answer = .awaits (takeTotals config overlap job) :=
        startTotals_eq hfails
      rw [hnext]
      exact .totalled htimer haggregating unpublished_takeTotals
    · rw [sum_publishes (by rintro _ _ ⟨⟩), Nat.zero_add]
  | totalled htimer haggregating hphase =>
    cases phase with
    | settling totals =>
      refine ⟨_, ?_, List.Subset.refl _, fun x hx => ?_⟩
      · rw [resume_settling hfails]
        exact .totalled htimer haggregating (unpublished_updateReputations.trans hphase)
      · rw [sum_publishes (by rintro _ _ ⟨⟩), Nat.zero_add]
    | updatingReputation totals targetAgentId targetAddress rest =>
      cases answer with
      | returns =>
        refine ⟨_, .totalled htimer haggregating ?_, List.Subset.refl _, fun x hx => ?_⟩
        · exact unpublished_updateReputations.trans hphase
        · rw [sum_publishes (by rintro _ _ ⟨⟩), Nat.zero_add]
      | throws landed => cases hfails
    | publishingReport totals agentCount =>
      have hlanded : answer.landed = true := by
        cases answer with
        | returns => rfl
        | throws landed =>
          change (!landed) = false at hfails
          change landed = true
          simpa using hfails
      refine ⟨[], ?_, List.nil_subset _, fun x hx => ?_⟩
      · cases answer with
        | returns => exact .published htimer haggregating rfl
        | throws landed => exact .stopped htimer haggregating
      · unfold Phase.publishes
        rw [if_pos hlanded, ← Option.some.inj hphase, List.count_nil, Nat.add_zero]
        simp [Phase.message, Message.counts, hx]
    | _ => cases hphase
  | published htimer haggregating hphase =>
    refine ⟨[], ?_, List.Subset.refl _, fun x hx => ?_⟩
    · cases phase with
      | takingFindings => exact .published htimer haggregating rfl
      | writingReport => exact .published htimer haggregating rfl
      | savingReport => exact .published htimer haggregating rfl
      | publishingMetadata =>
        cases answer with
        | returns => exact .absent
        | throws landed => exact .stopped htimer haggregating
      | _ => cases hphase
    · rw [sum_publishes, Nat.zero_add]
      rintro totals agentCount rfl
      cases hphase

/-- An aggregation that goes on without a failure keeps it. -/
theorem State.Sound.resumes {left : JobId → List Submission} (h : s.Sound left)
    (hjob : s.jobFindings jobId = some job) (hcall : s.calls jobId = some phase)
    (hfails : phase.fails config jobId job answer = false) :
    ∃ left', (s.resumes config overlap jobId job phase answer).Sound left' := by
  obtain ⟨hrecord, hcalls, htimers⟩ := s.goesOn_job hjob (resume config overlap jobId job phase answer)
  have hholds := h.holds jobId
  rw [hjob, hcall] at hholds
  obtain ⟨rest, hrest, hsub, hcount⟩ := hholds.resumes overlap jobId hfails
  have hstep : Step config s (.resumes jobId answer overlap) _ := .resumes hjob hcall
  refine ⟨_, h.change hstep ?_ (fun x hx => h.job jobId x (hsub hx)) ?_⟩
  · unfold State.resumes
    dsimp only [Event.jobId]
    rw [hrecord, hcalls, htimers]
    exact hrest
  · intro x hx
    have honce := h.once x
    rw [hx] at honce
    dsimp only [Event.jobId] at honce hx
    have hcount := hcount x hx
    rw [timesCounted_append resumes_auditLog]
    unfold State.resumes
    dsimp only
    rw [State.goesOn_received, ← honce, ← hcount]
    unfold Phase.publishes
    omega

/-- A careful step keeps the invariant. -/
theorem Step.sound (hstep : Step config s e s') (h : ∃ left, s.Sound left) (hcareful : Careful config s e) :
    ∃ left, s'.Sound left := by
  obtain ⟨left, h⟩ := h
  cases hstep with
  | @receives x =>
    by_cases hclosed : s.Closed x.jobId
    · exact ⟨_, h.receives_closed config (hcareful.1.mpr hclosed) hclosed⟩
    · exact ⟨_, h.receives_open config (fun hold => hclosed (hcareful.1.mp hold)) hclosed hcareful.2⟩
  | fires hpos => exact ⟨_, h.fires hpos⟩
  | resumes hjob hcall => exact h.resumes hjob hcall (hcareful _ _ hjob hcall)

/-! ## What is left is counted -/

theorem State.Counts.of_step (h : s'.Counts config x) (hstep : Step config s e s') (hown : e.Own) :
    s.Counts config x := by
  obtain ⟨events, s'', hevents, hpath, hpos⟩ := h
  refine ⟨[e] ++ events, s'', fun e' he' => ?_, (Path.single hstep).append hpath, hpos⟩
  rcases List.mem_append.mp he' with he' | he'
  · rw [List.mem_singleton.mp he']
    exact hown
  · exact hevents e' he'

theorem counts_of_awaits {phase' : Phase} (hjob : s.jobFindings jobId = some job)
    (hcall : s.calls jobId = some phase)
    (hnext : resume config (fun _ _ => 0) jobId job phase .returns = .awaits phase')
    (hcounts : ∀ s' : State, s'.jobFindings jobId = some job → s'.calls jobId = some phase' →
      s'.Counts config x) : s.Counts config x := by
  have hstep : Step config s (.resumes jobId .returns fun _ _ => 0) _ := .resumes hjob hcall
  obtain ⟨hrecord, hcalls, -⟩ := s.goesOn_job hjob (resume config (fun _ _ => 0) jobId job phase .returns)
  rw [hnext] at hrecord hcalls
  refine State.Counts.of_step (hcounts _ ?_ ?_) hstep trivial
  · unfold State.resumes
    rw [hnext]
    exact hrecord
  · unfold State.resumes
    rw [hnext]
    exact hcalls

theorem counts_publishingReport {agentCount : ℕ} (hx : x ∈ totals.counted)
    (hjob : s.jobFindings x.jobId = some job)
    (hcall : s.calls x.jobId = some (.publishingReport totals agentCount)) : s.Counts config x := by
  have hstep : Step config s (.resumes x.jobId .returns fun _ _ => 0) _ := .resumes hjob hcall
  refine State.Counts.of_step ⟨[], _, (fun _ h => nomatch h), .nil, ?_⟩ hstep trivial
  have hpos : 0 < totals.counted.count x := List.count_pos_iff.mpr hx
  have hcounts : Message.counts x (.reportPublished x.jobId totals agentCount) = totals.counted.count x := if_pos rfl
  rw [timesCounted_append resumes_auditLog]
  change 0 < s.timesCounted x + [Message.counts x (.reportPublished x.jobId totals agentCount)].sum
  rw [List.sum_singleton, hcounts]
  omega

theorem counts_updateReputations (hx : x ∈ totals.counted) (hjob : s.jobFindings x.jobId = some job)
    (hcall : s.calls x.jobId = some (updateReputations job totals agents)) : s.Counts config x := by
  induction agents generalizing s with
  | nil => exact counts_publishingReport hx hjob hcall
  | cons agentId rest ih => exact counts_of_awaits hjob hcall rfl fun _ => ih

theorem counts_unpublished {counted : List Submission} (hphase : phase.unpublished = some counted)
    (hx : x ∈ counted) (hjob : s.jobFindings x.jobId = some job) (hcall : s.calls x.jobId = some phase) :
    s.Counts config x := by
  cases phase with
  | settling totals =>
    obtain rfl := Option.some.inj hphase
    exact counts_of_awaits hjob hcall (resume_settling rfl) fun _ => counts_updateReputations hx
  | updatingReputation totals targetAgentId targetAddress rest =>
    obtain rfl := Option.some.inj hphase
    exact counts_of_awaits hjob hcall rfl fun _ => counts_updateReputations hx
  | publishingReport totals agentCount =>
    obtain rfl := Option.some.inj hphase
    exact counts_publishingReport hx hjob hcall
  | _ => cases hphase

theorem counts_preflight (hthrows : job.throws x.jobId = false) (hx : x ∈ job.submissions)
    (hjob : s.jobFindings x.jobId = some job) (hcall : s.calls x.jobId = some .preflight) : s.Counts config x :=
  counts_of_awaits hjob hcall (startTotals_eq hthrows) fun _ => counts_unpublished unpublished_takeTotals hx

theorem counts_waiting (hthrows : job.throws x.jobId = false) (hx : x ∈ job.submissions)
    (hjob : s.jobFindings x.jobId = some job) (haggregating : job.aggregating = false) (hpos : 0 < s.timers x.jobId) : s.Counts config x := by
  have hstep : Step config s (.fires x.jobId fun _ _ => 0) _ := .fires hpos
  refine State.Counts.of_step ?_ hstep trivial
  unfold aggregateAndPublish
  dsimp only
  rw [hjob]
  dsimp only
  rw [if_neg (by simp [List.ne_nil_of_mem hx, haggregating])]
  by_cases hdemo : config.demoMode = true
  · rw [if_pos hdemo, startTotals_eq hthrows]
    exact counts_unpublished unpublished_takeTotals hx (Function.update_self ..) (Function.update_self ..)
  · rw [if_neg hdemo]
    have hlatched : x ∈ JobFindings.submissions { job with aggregating := true } := hx
    have hthrows' : JobFindings.throws x.jobId { job with aggregating := true } = false := hthrows
    exact counts_preflight hthrows' hlatched (Function.update_self ..) (Function.update_self ..)

theorem Holds.counts {timers : ℕ} {call : Option Phase} {record : Option JobFindings} {rest : List Submission}
    (h : Holds record timers call rest) (hrecord : s.jobFindings x.jobId = record) (hcall : s.calls x.jobId = call)
    (htimers : s.timers x.jobId = timers) (hx : x ∈ rest)
    (hjob : ∀ y ∈ rest, y.jobId = x.jobId ∧ y.usable = true) : s.Counts config x := by
  cases h with
  | waiting _ haggregating hsome =>
    exact counts_waiting (throws_eq_false hsome hjob) hx hrecord haggregating (by omega)
  | preflight _ _ hsome => exact counts_preflight (throws_eq_false hsome hjob) hx hrecord hcall
  | totalled _ _ hphase => exact counts_unpublished hphase hx hrecord hcall
  | _ => cases hx

/-- Every submission that was received is counted, or is going to be. -/
theorem State.Sound.kept {left : JobId → List Submission} (h : s.Sound left) : s.Kept config := by
  intro x hx
  have honce := h.once x
  rw [if_pos hx] at honce
  refine ⟨by omega, ?_⟩
  by_cases hcounted : 0 < s.timesCounted x
  · exact ⟨[], s, (fun _ h => nomatch h), .nil, hcounted⟩
  · have hleft : x ∈ left x.jobId := List.count_pos_iff.mp (by omega)
    exact (h.holds x.jobId).counts rfl rfl rfl hleft (h.job x.jobId)

/-! ## Every run -/

theorem State.Quiet.counted (h : s.Quiet) (hcounts : s.Counts config x) : 0 < s.timesCounted x := by
  obtain ⟨events, s', hevents, hpath, hpos⟩ := hcounts
  have hsame : s' = s := by
    refine hpath.induct_mem (P := fun s' => s' = s) (fun s₁ e s₂ he heq hstep => ?_) rfl
    subst heq
    cases hstep with
    | receives => exact absurd (hevents _ he) (fun h => h)
    | fires hpos => rw [(h _).1] at hpos; cases hpos
    | resumes _ hcall => rw [(h _).2] at hcall; cases hcall
  rw [← hsame]
  exact hpos

/-- In every run in which no call stops before its report is out, every submission can be paid, none comes when the call
of its job has added the others up, and none comes again before that, each submission that has come is counted at most once and can
go on to be counted; and it is counted once when no timer is armed and no call is running. -/
theorem counted_of_careful (hr : (system config).Run ts s)
    (hcareful : ∀ tr ∈ ts, Careful config tr.src tr.label) :
    Throughout (fun s => s.Kept config ∧ (s.Quiet → ∀ x ∈ s.received, s.timesCounted x = 1)) ts s := by
  refine Run.throughout (I := fun s => ∃ left, s.Sound left) ?_
    (fun _ _ _ hsound hcareful hstep => Step.sound hstep hsound hcareful) ?_ hr hcareful
  · rintro _ rfl
    exact ⟨_, sound_initial⟩
  · rintro s ⟨left, hsound⟩
    have hkept : s.Kept config := hsound.kept
    refine ⟨hkept, fun hquiet x hx => ?_⟩
    obtain ⟨hle, hcounts⟩ := hkept x hx
    exact Nat.le_antisymm hle (hquiet.counted hcounts)

/-! ## Two agents -/

/-- Makes an event happen, if it can. -/
def State.play (config : Config) (s : State) : Event → Option State
  | .receives x => some (handleAgentCommsMessage x s)
  | .fires jobId overlap =>
    if 0 < s.timers jobId then some (aggregateAndPublish config overlap jobId
      { s with timers := Function.update s.timers jobId (s.timers jobId - 1) })
    else none
  | .resumes jobId answer overlap =>
    match s.jobFindings jobId, s.calls jobId with
    | some job, some phase => some (s.resumes config overlap jobId job phase answer)
    | _, _ => none

/-- A move is a step. -/
theorem plays : (system config).Plays (State.play config) fun _ move e => e = move := by
  intro s move s' h
  refine ⟨move, rfl, ?_⟩
  unfold State.play at h
  split at h
  · obtain rfl := Option.some.inj h
    exact .receives
  · split_ifs at h with hpos
    obtain rfl := Option.some.inj h
    exact .fires hpos
  · split at h
    · rename_i hjob hcall
      obtain rfl := Option.some.inj h
      exact .resumes hjob hcall
    · cases h

/-- No submission gets lost or counted twice, as far as one can see. -/
def State.careful (config : Config) (s : State) : Event → Bool
  | .receives x =>
    (decide (x ∉ s.received) && (s.jobFindings x.jobId).all fun job => !job.aggregating) && x.usable
  | .fires .. => true
  | .resumes jobId answer _ => (s.jobFindings jobId).all fun job =>
      (s.calls jobId).all fun phase => !phase.fails config jobId job answer

/-- The test of a move is sound. -/
theorem careful_of_play (h : s.careful config e = true) : Careful config s e := by
  cases e with
  | receives x =>
    obtain ⟨hopen, husable⟩ := (Bool.and_eq_true _ _).mp h
    obtain ⟨hnew, hopen⟩ := (Bool.and_eq_true _ _).mp hopen
    refine ⟨iff_of_false (of_decide_eq_true hnew) ?_, husable⟩
    rintro ⟨job, hjob, haggregating, -⟩
    rw [hjob] at hopen
    simp [haggregating] at hopen
  | fires => trivial
  | resumes jobId answer =>
    intro job phase hjob hcall
    unfold State.careful at h
    dsimp only at h
    rw [hjob, hcall] at h
    simpa using h

/-- A submission for the job `7`. -/
def sampleSubmission (agentId : String) (findingsCount : ℕ) : Submission :=
  ⟨.text "7", agentId, 0, findingsCount, true, 1, some 1, none, none, some "0xA1", some "0xC1", none⟩

/-- The aggregation goes on, and nothing fails. -/
def sampleResume : Event := .resumes (.text "7") .returns fun _ _ => 1 / 5

/-- The time for the aggregation has come. -/
def sampleFire : Event := .fires (.text "7") fun _ _ => 1 / 5

/-- Two submissions, and the aggregation of both. -/
def sampleCareful : List Event :=
  [.receives (sampleSubmission "fuzzer-012" 3), .receives (sampleSubmission "llm-contextual-023" 2), sampleFire] ++
    List.replicate 8 sampleResume

/-- The second submission comes while the first one is aggregated. -/
def sampleLate : List Event :=
  [.receives (sampleSubmission "fuzzer-012" 3), sampleFire, sampleResume,
    .receives (sampleSubmission "llm-contextual-023" 2)] ++ List.replicate 6 sampleResume

/-- What the reports of a state have counted. -/
def State.countedReports (s : State) : List (List Submission) :=
  s.auditLog.filterMap fun message => match message with
    | .reportPublished _ totals _ => some totals.counted
    | _ => none

/-- The report has what was submitted. -/
theorem counted_of_careful_sample : ∃ ts s, (system ⟨false, true, false⟩).Run ts s ∧
    s.countedReports = [[sampleSubmission "fuzzer-012" 3, sampleSubmission "llm-contextual-023" 2]] ∧
    Throughout (fun s => s.Kept ⟨false, true, false⟩ ∧ (s.Quiet → ∀ x ∈ s.received, s.timesCounted x = 1))
      ts s := by
  have hplay : (sampleCareful.foldlM (fun s e => if s.careful ⟨false, true, false⟩ e = true then
      s.play ⟨false, true, false⟩ e else none) .initial).map State.countedReports =
      some [[sampleSubmission "fuzzer-012" 3, sampleSubmission "llm-contextual-023" 2]] := by decide +kernel
  obtain ⟨ts, s, hr, hreports, hfrom, -⟩ := plays.guarded.exists_run rfl hplay
  refine ⟨ts, s, hr, hreports, counted_of_careful hr fun tr htr => careful_of_play ?_⟩
  obtain ⟨e, -, hcomes⟩ := hfrom tr htr
  rw [hcomes.means.1]
  exact hcomes.means.2

theorem idle_of_run (hr : (system config).Run ts s) (hne : ∀ tr ∈ ts, jobId ≠ tr.label.jobId) :
    s.timers jobId = 0 ∧ s.calls jobId = none := by
  refine (Run.throughout (I := fun s => s.timers jobId = 0 ∧ s.calls jobId = none)
    (C := fun _ e => jobId ≠ e.jobId) ?_ (fun s e s' hidle hne hstep => ?_) (fun _ => id) hr hne).2
  · rintro _ rfl
    exact ⟨rfl, rfl⟩
  · obtain ⟨-, htimers, hcalls⟩ := Step.same hstep hne
    exact ⟨htimers.trans hidle.1, hcalls.trans hidle.2⟩

/-- The second submission is in no report, and nothing is left to do. -/
theorem not_kept_lateSubmission : ¬ ∀ (config : Config) (ts : List (Transition State Event)) (s : State),
    (system config).Run ts s → s.Kept config ∧ (s.Quiet → ∀ x ∈ s.received, s.timesCounted x = 1) := by
  intro hall
  have hplay : (sampleLate.foldlM (State.play ⟨false, true, false⟩) .initial).map
      (fun s => (s.timers (.text "7"), s.calls (.text "7"), s.received, s.countedReports,
        s.timesCounted (sampleSubmission "llm-contextual-023" 2))) =
      some (0, none, [sampleSubmission "fuzzer-012" 3, sampleSubmission "llm-contextual-023" 2],
        [[sampleSubmission "fuzzer-012" 3]], 0) := by decide +kernel
  obtain ⟨ts, s, hr, hread, hfrom, -⟩ := plays.exists_run rfl hplay
  obtain ⟨htimers, hread⟩ := Prod.mk.inj hread
  obtain ⟨hcalls, hread⟩ := Prod.mk.inj hread
  obtain ⟨hreceived, hread⟩ := Prod.mk.inj hread
  have hcounted := (Prod.mk.inj hread).2
  have hjobs : ∀ e ∈ sampleLate, e.jobId = .text "7" := by decide +kernel
  have hquiet : s.Quiet := by
    intro jobId
    by_cases hjob : jobId = .text "7"
    · rw [hjob]
      exact ⟨htimers, hcalls⟩
    · refine idle_of_run hr fun tr htr hsame => hjob ?_
      obtain ⟨e, he, hcomes⟩ := hfrom tr htr
      rw [hsame, hcomes.means, hjobs e he]
  have honce := (hall _ ts s hr).2 hquiet (sampleSubmission "llm-contextual-023" 2) (by simp [hreceived])
  rw [hcounted] at honce
  cases honce

end AuditGuard.Aggregation
