import AuditGuard.Orchestrator.Cancellation

/-!
# The orchestrator: what the marks of jobs say

A job is marked cancelled or terminal for an event, for its own cancellation that succeeded or was refused, or because
the reconciliation found that its auction is over. A refused cancellation and the reconciliation say no more than
that: they mark jobs whose audit is under way. A job whose auction is open is never marked, so that nothing passes
over it, except that a job that was only made of what the chain has does not count as open when it has expired without
bids.
-/

namespace AuditGuard.Orchestrator

open Evm TransitionSystem Routine
open AuditAuction (AuditJob JobStatus sampleEnv sample_run)

/-- The job was marked because its cancellation was refused, or because the reconciliation found its auction over. -/
def Job.MarkedOver (job : Job) : Prop :=
  job.cancelledReason.any CancelledReason.alreadyTerminal = true ∨
    job.terminalReason = some .cancelAlreadyTerminal ∨ job.terminalReason = some .reconcileSkipTerminal

/-- The auction of a job is open, or its audit is under way and it was not marked for that. -/
def Live (w : Chain) (jobId : ℕ) (job : Job) : Prop :=
  (w.state.jobs jobId).status = .auctionOpen ∨
    ((w.state.jobs jobId).status = .auditingInProgress ∧ ¬ job.MarkedOver)

/-- What the marks of a job object say, and that nothing passes over a live job. -/
structure FlagsSound (p : Tasks) (key v : ℕ) : Prop where
  cancelled : (p.mem.object key v).cancelledOnChain = true →
    (p.world.state.jobs key).status = .cancelled ∨
      ((p.mem.object key v).cancelledReason.any CancelledReason.alreadyTerminal = true ∧
        (p.world.state.jobs key).status ≠ .auctionOpen)
  terminal : (p.mem.object key v).terminalOnChain = true →
    ((p.world.state.jobs key).status = .completed ∨ (p.world.state.jobs key).status = .cancelled) ∨
      (((p.mem.object key v).terminalReason = some .cancelAlreadyTerminal ∨
          (p.mem.object key v).terminalReason = some .reconcileSkipTerminal) ∧
        (p.world.state.jobs key).status ≠ .auctionOpen)
  bids : Live p.world key (p.mem.object key v) →
    (p.mem.object key v).skipsBid = (p.mem.object key v).reportPublished
  reconcile : Live p.world key (p.mem.object key v) → (p.mem.object key v).skipsReconcile = false
  close : Live p.world key (p.mem.object key v) → (p.mem.object key v).cancelledOnChain = false
  isOpen : p.mem.getJobByKey key = some v → Live p.world key (p.mem.object key v) →
    (p.mem.object key v).reportPublished = false →
      ∀ c, (p.mem.object key v).contractAddress = some c →
        ∀ nowSec, p.mem.staleJob nowSec key (p.mem.object key v) = false →
          hasOpenJobForContract p.mem nowSec c = true

theorem Live.unmarked {w : Chain} {key : ℕ} {job : Job} (hlive : Live w key job) (hjob : JobSound w key job) :
    job.cancelledOnChain = false ∧ job.terminalOnChain = false := by
  constructor
  · by_contra hmark
    rcases hjob.cancelled (Bool.eq_true_of_not_eq_false hmark) with hstatus | ⟨hreason, hover⟩
    · rcases hlive with hopen | ⟨haudit, -⟩
      · exact nomatch hstatus.symm.trans hopen
      · exact nomatch hstatus.symm.trans haudit
    · rcases hlive with hopen | ⟨-, hunmarked⟩
      · exact hover hopen
      · exact hunmarked (.inl hreason)
  · by_contra hmark
    rcases hjob.terminal (Bool.eq_true_of_not_eq_false hmark) with hstatus | ⟨hreason, hover⟩
    · rcases hlive with hopen | ⟨haudit, -⟩
      · rw [hopen] at hstatus
        exact hstatus.elim nofun nofun
      · rw [haudit] at hstatus
        exact hstatus.elim nofun nofun
    · rcases hlive with hopen | ⟨-, hunmarked⟩
      · exact hover hopen
      · exact hunmarked (.inr hreason)

theorem hasOpenJobForContract_of_job {m : Memory} {key v nowSec : ℕ} {c : Address} (hv : m.getJobByKey key = some v)
    (hcontract : (m.object key v).contractAddress = some c) (hreport : (m.object key v).reportPublished = false)
    (hcancelled : (m.object key v).cancelledOnChain = false) (hterminal : (m.object key v).terminalOnChain = false)
    (hstale : m.staleJob nowSec key (m.object key v) = false) : hasOpenJobForContract m nowSec c = true := by
  obtain ⟨before, after, hjobs, -⟩ := List.lookup_eq_some_iff.mp hv
  have hmem : (key, v) ∈ m.jobs := by
    rw [hjobs]
    simp
  unfold hasOpenJobForContract
  rw [List.any_eq_true]
  exact ⟨(key, v), hmem, decide_eq_true ⟨hcontract, hreport, hcancelled, hterminal, hstale⟩⟩

variable {this : Address} {cfg : Config} {p : Tasks}

/-- In every reachable state, the marks of every job object are sound, and no live job is passed over. -/
theorem flags_sound (hp : (orchestrator this cfg).system.Reachable p) (key v : ℕ) : FlagsSound p key v := by
  obtain ⟨ts, hr⟩ := hp.exists_run
  let S : Setting := ⟨this, cfg, False, False⟩
  have hlabels : ∀ tr ∈ ts, tr.label.Meets S.rules tr.src := by
    intro tr htr
    cases hlabel : tr.label with
    | run notes =>
      intro n hn
      cases n <;> exact False.elim
    | _ => trivial
  have hinv : Inv this p.mem p.world := (System.run_kept (meets S) hr hlabels).inv
  have hjob := hinv.jobs key v
  constructor
  case cancelled => exact hjob.cancelled
  case terminal => exact hjob.terminal
  case bids =>
    intro hlive
    obtain ⟨hcancelled, hterminal⟩ := hlive.unmarked hjob
    unfold Job.skipsBid
    rw [hcancelled, hterminal, Bool.false_or, Bool.false_or]
  case reconcile =>
    intro hlive
    obtain ⟨hcancelled, hterminal⟩ := hlive.unmarked hjob
    unfold Job.skipsReconcile
    rw [hcancelled, hterminal, Bool.false_or]
  case close => exact fun hlive => (hlive.unmarked hjob).1
  case isOpen =>
    intro hv hlive hreport c hcontract nowSec hstale
    obtain ⟨hcancelled, hterminal⟩ := hlive.unmarked hjob
    exact hasOpenJobForContract_of_job hv hcontract hreport hcancelled hterminal hstale

/-! ## Samples -/

/-- The job when its winner was selected. -/
def sampleAudit : AuditJob :=
  { sampleJob 1 with
    status := .auditingInProgress
    winningAgents := [2]
    totalEscrowedAmount := 95 * 10^8 }

/-- The sample auction, in which the winner of the first job was selected, as the orchestrator comes to see it: it
records the job, and then the reconciliation looks at it. -/
theorem exists_reconciled : ∃ ts p, (orchestrator 1 sampleConfig).system.Run ts p ∧
    (p.world.state.jobs 1).status = .auditingInProgress ∧ (p.mem.object 1 0).terminalOnChain = true ∧
    p.mem.getJobByKey 1 = some 0 := by
  obtain ⟨_, w, hcalls, hr, -⟩ := sample_run [
    (sampleEnv 5 0, .createAuditJob 4 "hedera" "token" 10 (200 * 10^8) 100 60),
    (sampleEnv 2 1, .submitBid 1 (100 * 10^8) (50 * 10^8) 100 "defi"),
    (sampleEnv 5 61, .selectWinners 1 [0])] (by decide) rfl
  have hjob := read_ok hcalls (fun w => w.state.jobs 1) (b := sampleAudit) (by decide +kernel)
  have hactive := read_ok hcalls (fun w => w.state.activeJobIds) (b := [1]) (by decide +kernel)
  have hposted : (w.state.jobs 1).jobId ≠ 0 := by
    rw [hjob]
    exact Nat.one_ne_zero
  have hrecorded : (orchestrator 1 sampleConfig).triggers w (.jobRecorded 1 4 60) := hposted
  have hscript : ∀ reply ∈ [(⟨.publishAuditLog (.other "JOB_CREATED" 1 ""), .ok ()⟩ : Reply Request Response)],
      (orchestrator 1 sampleConfig).serves 70000 w reply.req reply.answer w := by
    intro reply hreply
    rw [List.mem_singleton.mp hreply]
    exact ⟨rfl, nofun⟩
  obtain ⟨ts, p, hr', hmem, hw, hnow, -, -⟩ :=
    System.exists_replay (initial_run sampleConfig hr.reachable 70000) hrecorded hscript
  have hscript' : ∀ reply ∈ ([⟨.getActiveJobs, .ok [1]⟩, ⟨.getJob 1, .ok sampleAudit⟩] :
      List (Reply Request Response)),
        (orchestrator 1 sampleConfig).serves p.now p.world reply.req reply.answer p.world := by
    intro reply hreply
    rw [hw]
    simp only [List.mem_cons, List.not_mem_nil, or_false] at hreply
    rcases hreply with rfl | rfl
    · refine ⟨rfl, ?_⟩
      rintro ids ⟨⟩
      exact hactive.symm
    · refine ⟨rfl, ?_⟩
      rintro job ⟨⟩
      exact ⟨hjob.symm, Nat.one_ne_zero⟩
  have hcycle : (orchestrator 1 sampleConfig).triggers p.world .reconcileExpiredActiveAuctions := True.intro
  obtain ⟨ts', p', hr'', hmem', hw', -, -, -⟩ := System.exists_replay hr' hcycle hscript'
  rw [hmem, hw, hnow] at hmem'
  refine ⟨_, p', hr'', ?_, ?_, ?_⟩
  · rw [hw', hw]
    exact congrArg AuditJob.status hjob
  · rw [hmem']
    rfl
  · rw [hmem']
    rfl

/-- A job whose audit is under way is marked terminal. -/
theorem terminal_while_auditing : ¬ ∀ (this : Address) (cfg : Config) (p : Tasks),
    (orchestrator this cfg).system.Reachable p → ∀ key v,
      ((p.mem.object key v).cancelledOnChain = true → (p.world.state.jobs key).status = .cancelled) ∧
      ((p.mem.object key v).terminalOnChain = true →
        (p.world.state.jobs key).status = .completed ∨ (p.world.state.jobs key).status = .cancelled) := by
  intro hall
  obtain ⟨ts, p, hr, hstatus, hmark, -⟩ := exists_reconciled
  have h := (hall _ _ _ hr.reachable 1 0).2 hmark
  rw [hstatus] at h
  exact h.elim nofun nofun

/-- The marks of that job. -/
theorem flags_sound_sample : ∃ p, (orchestrator 1 sampleConfig).system.Reachable p ∧ FlagsSound p 1 0 ∧
    (p.mem.object 1 0).terminalOnChain = true := by
  obtain ⟨ts, p, hr, -, hmark, -⟩ := exists_reconciled
  exact ⟨p, hr.reachable, flags_sound hr.reachable 1 0, hmark⟩

end AuditGuard.Orchestrator
