import AuditGuard.Aggregation.Counting
import Mathlib.Algebra.Order.BigOperators.Group.List

/-!
# The totals of a report

The findings that several agents have found are mocked: of every two submissions an overlap is drawn, between a
twentieth and seven twentieths of the smaller one, and all overlaps are taken off the sum. The sum grows with the
number of the agents, and the overlaps with that of their pairs, so that they take away all of it when there are
enough agents; and at least one finding is reported in any case, also if there is none.

An overlap is a rational number here, and its product with the number of findings is exact before it is rounded. In
doubles it may come out a little less: 90 times 0.35 is 31.499…, which is rounded to 31.
-/

namespace AuditGuard.Aggregation

/-- What `aggregateFindings` returns, without the agents' mocked scores and the hash. -/
structure AggregatedReport where
  jobId : JobId
  totalFindings : ℕ
  duplicatesDetected : ℕ
deriving DecidableEq

/-- `aggregateFindings`. -/
def aggregateFindings (overlap : ℕ → ℕ → ℚ) : List Submission → AggregatedReport
  | [] => ⟨.text "", 0, 0⟩
  | submission :: submissions =>
    ⟨submission.jobId,
      max 1 (totalFindings (submission :: submissions) - duplicateCount overlap (submission :: submissions)),
      duplicateCount overlap (submission :: submissions)⟩

/-- The overlaps are as `randomFloat(0.05, 0.35)` draws them. -/
def Drawn (overlap : ℕ → ℕ → ℚ) : Prop := ∀ i j, 1 / 20 ≤ overlap i j ∧ overlap i j ≤ 7 / 20

/-- The critical findings of the submissions. -/
def totalCritical (submissions : List Submission) : ℕ := (submissions.map Submission.criticalCount).sum

/-- A total of the submissions' findings makes sense. -/
structure SaneTotal (submissions : List Submission) (total : ℕ) : Prop where
  largest : ∀ submission ∈ submissions, submission.findingsCount ≤ total
  sum : total ≤ totalFindings submissions
  zero : (∀ submission ∈ submissions, submission.findingsCount = 0) → total = 0
  critical : (∀ submission ∈ submissions, submission.criticalCount ≤ submission.findingsCount) →
    totalCritical submissions ≤ total

/-- What `aggregateAndPublish` publishes, if there are submissions, and what `aggregateFindings` returns. -/
structure Sane (overlap : ℕ → ℕ → ℚ) (submissions : List Submission) : Prop where
  published : submissions ≠ [] → SaneTotal submissions (aggregate overlap submissions).uniqueFindings
  returned : SaneTotal submissions (aggregateFindings overlap submissions).totalFindings

/-- What every two submissions have in common if their overlap is the largest one. -/
def mostDuplicates : List Submission → ℕ
  | [] => 0
  | first :: rest =>
    (rest.map fun second => round (min (first.findingsCount : ℚ) second.findingsCount * (7 / 20))).sum +
      mostDuplicates rest

/-- There are findings, and the duplicates leave as many as any agent has found if it has found more than one, and as
many as are critical if these are more than one. -/
structure Covered (submissions : List Submission) (duplicates : ℕ) : Prop where
  positive : 0 < totalFindings submissions
  largest : ∀ submission ∈ submissions, 1 < submission.findingsCount →
    submission.findingsCount + duplicates ≤ totalFindings submissions
  critical : (∀ submission ∈ submissions, submission.criticalCount ≤ submission.findingsCount) →
    1 < totalCritical submissions → totalCritical submissions + duplicates ≤ totalFindings submissions

variable {overlap : ℕ → ℕ → ℚ} {submissions : List Submission}

/-! ## The duplicates -/

theorem round_mono {x y : ℚ} (h : x ≤ y) : round x ≤ round y :=
  Int.toNat_le_toNat (Int.floor_le_floor (by linarith))

theorem drop_zipIdx_append (before : List Submission) (first : Submission) (rest : List Submission) :
    (before ++ first :: rest).zipIdx.drop (before.length + 1) = rest.zipIdx (before.length + 1) := by
  have hsplit : before ++ first :: rest = (before ++ [first]) ++ rest := by simp
  have hlength : (before ++ [first]).zipIdx.length = before.length + 1 := by simp
  rw [hsplit, List.zipIdx_append, ← hlength, List.drop_left]
  simp

/-- The largest overlap of every two submissions. -/
def largestOverlap : ℕ → ℕ → ℚ := fun _ _ => 7 / 20

theorem drawn_largestOverlap : Drawn largestOverlap := fun _ _ => ⟨by norm_num [largestOverlap], le_refl _⟩

theorem sum_zipIdx_eq_mostDuplicates (before rest : List Submission) :
    ((rest.zipIdx before.length).map fun first =>
      (((before ++ rest).zipIdx.drop (first.2 + 1)).map fun second =>
        round (min first.1.findingsCount second.1.findingsCount * largestOverlap first.2 second.2)).sum).sum =
      mostDuplicates rest := by
  induction rest generalizing before with
  | nil => rfl
  | cons first rest ih =>
    have hrest := ih (before ++ [first])
    rw [List.length_append, List.length_singleton, List.append_assoc, List.singleton_append] at hrest
    rw [List.zipIdx_cons, List.map_cons, List.sum_cons, drop_zipIdx_append, hrest]
    -- The numbers of the submissions do not matter.
    have hpairs : ((rest.zipIdx (before.length + 1)).map fun second =>
        round (min (first.findingsCount : ℚ) second.1.findingsCount * largestOverlap before.length second.2)) =
        rest.map fun second => round (min (first.findingsCount : ℚ) second.findingsCount * (7 / 20)) := by
      conv_rhs => rw [← List.zipIdx_map_fst (before.length + 1) rest, List.map_map]
      rfl
    rw [mostDuplicates, ← hpairs]

theorem duplicateCount_largestOverlap (submissions : List Submission) :
    duplicateCount largestOverlap submissions = mostDuplicates submissions :=
  sum_zipIdx_eq_mostDuplicates [] submissions

theorem duplicateCount_le (hdrawn : Drawn overlap) :
    duplicateCount overlap submissions ≤ mostDuplicates submissions := by
  rw [← duplicateCount_largestOverlap]
  refine List.sum_le_sum fun first _ => List.sum_le_sum fun second _ => round_mono ?_
  exact mul_le_mul_of_nonneg_left (hdrawn _ _).2 (le_min (Nat.cast_nonneg _) (Nat.cast_nonneg _))

/-! ## The totals -/

theorem Covered.mono {duplicates duplicates' : ℕ} (h : Covered submissions duplicates')
    (hle : duplicates ≤ duplicates') : Covered submissions duplicates where
  positive := h.positive
  largest submission hsubmission hlt := (Nat.add_le_add_left hle _).trans (h.largest submission hsubmission hlt)
  critical hcritical hlt := (Nat.add_le_add_left hle _).trans (h.critical hcritical hlt)

theorem saneTotal_iff (submissions : List Submission) (duplicates : ℕ) :
    SaneTotal submissions (max 1 (totalFindings submissions - duplicates)) ↔ Covered submissions duplicates := by
  constructor
  · intro h
    have hsum := h.sum
    refine ⟨by omega, fun submission hsubmission hlt => ?_, fun hcritical hlt => ?_⟩
    · have hlargest := h.largest submission hsubmission
      omega
    · have htotal := h.critical hcritical
      omega
  · intro h
    have hpositive := h.positive
    refine ⟨fun submission hsubmission => ?_, by omega, fun hzero => ?_, fun hcritical => ?_⟩
    · have hlargest := h.largest submission hsubmission
      omega
    · -- There are no findings at all.
      have hsum : totalFindings submissions = 0 := by
        refine List.sum_eq_zero fun count hcount => ?_
        obtain ⟨submission, hsubmission, rfl⟩ := List.mem_map.mp hcount
        exact hzero submission hsubmission
      omega
    · have htotal := h.critical hcritical
      omega

theorem saneTotal_nil : SaneTotal [] 0 :=
  ⟨fun _ hmem => absurd hmem List.not_mem_nil, Nat.le_refl _, fun _ => rfl, fun _ => Nat.le_refl _⟩

theorem sane_iff (overlap : ℕ → ℕ → ℚ) (submissions : List Submission) :
    Sane overlap submissions ↔ submissions = [] ∨ Covered submissions (duplicateCount overlap submissions) := by
  cases submissions with
  | nil => exact iff_of_true ⟨fun hne => absurd rfl hne, saneTotal_nil⟩ (.inl rfl)
  | cons first rest =>
    have hne : first :: rest ≠ [] := List.cons_ne_nil _ _
    rw [or_iff_right hne, ← saneTotal_iff]
    exact ⟨fun h => h.returned, fun h => ⟨fun _ => h, h⟩⟩

/-- For every list of submissions: whatever overlaps are drawn, the totals make sense, if and only if there are no
submissions, or the largest overlaps leave enough. -/
theorem sane_iff_covered (submissions : List Submission) :
    (∀ overlap, Drawn overlap → Sane overlap submissions) ↔
      submissions = [] ∨ Covered submissions (mostDuplicates submissions) := by
  constructor
  · intro h
    rw [← duplicateCount_largestOverlap, ← sane_iff]
    exact h largestOverlap drawn_largestOverlap
  · intro h overlap hdrawn
    rw [sane_iff]
    exact h.imp_right fun hcovered => hcovered.mono (duplicateCount_le hdrawn)

/-- An agent that has found nothing is reported to have found something. -/
theorem not_sane_nothingFound : ¬ ∀ submissions overlap, Drawn overlap → Sane overlap submissions := by
  intro hall
  have hsane := hall [⟨.text "7", "alpha", 0, 0, true, 0, none, none, none, none, none, none⟩] largestOverlap drawn_largestOverlap
  have hzero := hsane.returned.zero (by simp)
  exact absurd hzero (by decide +kernel)

/-! ## Every run

What a run publishes are such totals: a call is made only of a job that has submissions, and its totals are those that
it takes after the preflight, or as it begins. -/

open TransitionSystem

/-- The overlaps of an event are as they are drawn. -/
def Event.Drawn : Event → Prop
  | .receives _ => True
  | .fires _ overlap | .resumes _ _ overlap => Aggregation.Drawn overlap

/-- The totals are those of some submissions for the job, in the order in which they came in, with overlaps that were
drawn. -/
def Totals.Genuine (received : List Submission) (jobId : JobId) (totals : Totals) : Prop :=
  ∃ overlap submissions, Drawn overlap ∧ submissions ≠ [] ∧
    submissions.Sublist (received.filter fun x => x.jobId = jobId) ∧ totals = aggregate overlap submissions

/-- What the agent has of its jobs, its calls and the audit log comes from submissions for the same job. -/
structure State.Genuine (s : State) : Prop where
  submitted : ∀ jobId job, s.jobFindings jobId = some job →
    job.submissions ≠ [] ∧ job.submissions.Sublist (s.received.filter fun x => x.jobId = jobId)
  called : ∀ jobId phase, s.calls jobId = some phase →
    ∀ totals, phase.totals = some totals → totals.Genuine s.received jobId
  published : ∀ jobId totals agentCount, .reportPublished jobId totals agentCount ∈ s.auditLog →
    totals.Genuine s.received jobId

variable {config : Config} {s s' : State} {e : Event} {job : JobFindings} {jobId : JobId} {phase phase' : Phase}
  {totals totals' : Totals} {answer : Answer}

theorem Totals.Genuine.more (h : totals.Genuine s.received jobId) (more : List Submission) :
    totals.Genuine (s.received ++ more) jobId := by
  obtain ⟨overlap, submissions, hdrawn, hne, hsublist, rfl⟩ := h
  exact ⟨overlap, submissions, hdrawn, hne, hsublist.trans ((List.sublist_append_left _ _).filter _), rfl⟩

theorem totals_takeTotals (config : Config) (overlap : ℕ → ℕ → ℚ) (job : JobFindings) :
    (takeTotals config overlap job).totals = some (aggregate overlap job.submissions) := by
  unfold takeTotals
  split_ifs
  · rfl
  · exact totals_updateReputations

theorem totals_startTotals (h : startTotals config overlap jobId job = .awaits phase) :
    phase.totals = some (aggregate overlap job.submissions) := by
  unfold startTotals at h
  split_ifs at h
  rw [← Next.awaits.inj h]
  exact totals_takeTotals config overlap job

theorem totals_resume (h : resume config overlap jobId job phase answer = .awaits phase')
    (htotals : phase'.totals = some totals) :
    phase.totals = some totals ∨ totals = aggregate overlap job.submissions := by
  unfold resume at h
  split at h
  · rw [totals_startTotals h] at htotals
    exact .inr (Option.some.inj htotals).symm
  · split_ifs at h
    · obtain rfl := Next.awaits.inj h
      cases htotals
    · obtain rfl := Next.awaits.inj h
      rw [totals_updateReputations] at htotals
      exact .inl htotals
  · cases h
  · obtain rfl := Next.awaits.inj h
    rw [totals_updateReputations] at htotals
    exact .inl htotals
  · cases h
  · obtain rfl := Next.awaits.inj h
    exact .inl htotals
  · cases h
  · obtain rfl := Next.awaits.inj h
    exact .inl htotals
  · obtain rfl := Next.awaits.inj h
    exact .inl htotals
  · obtain rfl := Next.awaits.inj h
    exact .inl htotals
  · cases h
  · cases h

theorem totals_of_message {jobId' : JobId} {agentCount : ℕ}
    (h : .reportPublished jobId' totals agentCount ∈ phase.message jobId) :
    jobId' = jobId ∧ phase.totals = some totals := by
  cases phase with
  | publishingReport totals' agentCount' =>
    obtain ⟨rfl, rfl, -⟩ := Message.reportPublished.inj (Option.some.inj h)
    exact ⟨rfl, rfl⟩
  | _ => cases h

theorem forall_update {α : Type} {entries : JobId → Option α} {P : JobId → α → Prop} {key : JobId}
    {entry : Option α} (h : ∀ key a, entries key = some a → P key a) (hentry : ∀ a, entry = some a → P key a) :
    ∀ key' a, Function.update entries key entry key' = some a → P key' a := by
  intro key' a ha
  rw [Function.update_apply] at ha
  split_ifs at ha with hkey
  · exact hkey ▸ hentry a ha
  · exact h key' a ha

theorem State.Genuine.goesOn (h : s.Genuine) (next : Next)
    (hnext : ∀ phase totals, next = .awaits phase → phase.totals = some totals → totals.Genuine s.received jobId) :
    (s.goesOn jobId next).Genuine := by
  cases next with
  | awaits phase =>
    refine ⟨h.submitted, forall_update h.called fun phase' hphase totals htotals => ?_, h.published⟩
    obtain rfl := Option.some.inj hphase
    exact hnext phase totals rfl htotals
  | deletes =>
    refine ⟨forall_update h.submitted fun job hjob => ?_, forall_update h.called fun phase hphase => ?_, h.published⟩
    · cases hjob
    · cases hphase
  | stops =>
    refine ⟨h.submitted, forall_update h.called fun phase hphase => ?_, h.published⟩
    cases hphase

/-- Every step keeps what the agent has. -/
theorem Step.genuine (h : s.Genuine) (hdrawn : e.Drawn) (hstep : Step config s e s') : s'.Genuine := by
  cases hstep with
  | @receives submission =>
    have hfilter : ∀ jobId, (s.received ++ [submission]).filter (fun x => x.jobId = jobId) =
        s.received.filter (fun x => x.jobId = jobId) ++ if submission.jobId = jobId then [submission] else [] := by
      intro jobId
      rw [List.filter_append, List.filter_singleton]
      simp
    refine ⟨forall_update (fun jobId job hjob => ?_) fun job hjob => ?_, fun jobId phase hphase totals htotals =>
      (h.called jobId phase hphase totals htotals).more _, fun jobId totals agentCount hmessage =>
      (h.published jobId totals agentCount hmessage).more _⟩
    · obtain ⟨hne, hsublist⟩ := h.submitted jobId job hjob
      exact ⟨hne, hsublist.trans ((List.sublist_append_left _ _).filter _)⟩
    · obtain rfl := Option.some.inj hjob
      refine ⟨by simp [JobFindings.push], ?_⟩
      change (((s.jobFindings submission.jobId).getD .empty).submissions ++ [submission]).Sublist
        ((s.received ++ [submission]).filter fun x => x.jobId = submission.jobId)
      rw [hfilter, if_pos rfl]
      refine List.Sublist.append ?_ (List.Sublist.refl _)
      cases hold : s.jobFindings submission.jobId with
      | none => exact List.nil_sublist _
      | some job => exact (h.submitted _ job hold).2
  | @fires jobId overlap hpos =>
    unfold aggregateAndPublish
    dsimp only
    split
    · exact ⟨h.submitted, h.called, h.published⟩
    rename_i job hjob
    by_cases hskip : job.submissions = [] ∨ job.aggregating = true
    · rw [if_pos hskip]
      exact ⟨h.submitted, h.called, h.published⟩
    · rw [if_neg hskip]
      obtain ⟨hne, hsublist⟩ := h.submitted jobId job hjob
      have hlatched : State.Genuine { s with
          jobFindings := Function.update s.jobFindings jobId (some { job with aggregating := true })
          timers := Function.update s.timers jobId (s.timers jobId - 1) } := by
        refine ⟨forall_update h.submitted fun job' hjob' => ?_, h.called, h.published⟩
        obtain rfl := Option.some.inj hjob'
        exact ⟨hne, hsublist⟩
      refine hlatched.goesOn _ fun phase totals hnext htotals => ?_
      -- Without a preflight the call takes its totals as it begins.
      split_ifs at hnext
      · rw [totals_startTotals hnext] at htotals
        exact ⟨overlap, job.submissions, hdrawn, hne, hsublist, (Option.some.inj htotals).symm⟩
      · obtain rfl := Next.awaits.inj hnext
        cases htotals
  | @resumes jobId job phase answer overlap hjob hcall =>
    have hgoes : (s.goesOn jobId (resume config overlap jobId job phase answer)).Genuine := by
      refine h.goesOn _ fun phase' totals hnext htotals => ?_
      rcases totals_resume hnext htotals with hsame | rfl
      · exact h.called jobId phase hcall totals hsame
      · obtain ⟨hne, hsublist⟩ := h.submitted jobId job hjob
        exact ⟨overlap, job.submissions, hdrawn, hne, hsublist, rfl⟩
    refine ⟨hgoes.submitted, hgoes.called, fun jobId' totals agentCount hmessage => ?_⟩
    have hreceived : (s.resumes config overlap jobId job phase answer).received = s.received :=
      State.goesOn_received _
    rw [hreceived]
    rcases List.mem_append.mp hmessage with hmessage | hmessage
    · exact h.published jobId' totals agentCount hmessage
    · split_ifs at hmessage
      · obtain ⟨rfl, htotals⟩ := totals_of_message (Option.mem_toList.mp hmessage)
        exact h.called jobId' phase hcall totals htotals
      · cases hmessage

/-- In every run with overlaps as they are drawn, whatever is delivered late or twice, fails or lands with an error,
each report that is published for a job has the totals of submissions that were received for this very job, none of
them more often than it was received. -/
theorem genuine_of_run {ts : List (Transition State Event)} (hr : (system config).Run ts s)
    (hdrawn : ∀ tr ∈ ts, tr.label.Drawn) : s.Genuine := by
  refine (Run.throughout (I := State.Genuine) (C := fun _ e => e.Drawn) ?_ ?_ (fun _ h => h) hr hdrawn).2
  · rintro s rfl
    refine ⟨?_, ?_, ?_⟩
    · intro jobId job hjob
      cases hjob
    · intro jobId phase hcall
      cases hcall
    · intro jobId totals agentCount hmessage
      cases hmessage
  · intro s e s' h hdrawn hstep
    exact Step.genuine h hdrawn hstep

/-- The report that has both submissions. -/
theorem genuine_of_run_sample : ∃ ts s, (system ⟨false, true, false⟩).Run ts s ∧
    s.countedReports = [[sampleSubmission "fuzzer-012" 3, sampleSubmission "llm-contextual-023" 2]] ∧ s.Genuine := by
  have hplay : (sampleCareful.foldlM (State.play ⟨false, true, false⟩) .initial).map State.countedReports =
      some [[sampleSubmission "fuzzer-012" 3, sampleSubmission "llm-contextual-023" 2]] := by decide +kernel
  obtain ⟨ts, s, hr, hreports, hfrom, -⟩ := plays.exists_run rfl hplay
  have hdrawn : ∀ e ∈ sampleCareful, e.Drawn := by
    have hoverlap : Drawn fun _ _ => 1 / 5 := fun _ _ => by norm_num
    intro e he
    simp only [sampleCareful, List.mem_append, List.mem_cons, List.not_mem_nil, or_false, List.mem_replicate] at he
    obtain (rfl | rfl | rfl) | ⟨-, rfl⟩ := he
    · trivial
    · trivial
    · exact hoverlap
    · exact hoverlap
  refine ⟨ts, s, hr, hreports, genuine_of_run hr fun tr htr => ?_⟩
  obtain ⟨e, he, hcomes⟩ := hfrom tr htr
  rw [hcomes.means]
  exact hdrawn e he

end AuditGuard.Aggregation
