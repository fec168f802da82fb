import AuditGuard.Orchestrator.Cancellation

/-!
# The orchestrator: who writes the cursor

The cursor says where the next cycle of the reconciliation starts. Among the tasks of the orchestrator only the
reconciliation writes it (`task_leaves`), so that in a pool every step but those of a reconciliation is one that
`LeavesCursor` admits (`leavesCursor_or_reconciles`).
-/

namespace AuditGuard.Orchestrator

open Evm (Address)
open Routine

variable {cfg : Config} {key nowMs : ℕ} {may : Start → Prop}

/-- No other task writes the cursor of the reconciliation. -/
def LeavesCursor (m m' : Memory) : Prop := m'.staleAuctionReconcileCursor = m.staleAuctionReconcileCursor

/-- No step of the task writes the cursor, and it starts only tasks that may be started. -/
abbrev Aside {α : Type} (may : Start → Prop) (x : Async α) : Prop := Leaves Memory.staleAuctionReconcileCursor may x

/-! ## Parts of tasks -/

theorem aside_call (r : Request) : Aside may (call r) := Leaves.call r

theorem aside_ignore {x : Async Unit} (hx : Aside may x) : Aside may (ignore x) := hx.tryCatch fun _ => Leaves.pure _

theorem aside_writeJob (v : ℕ) (f : Job → Job) : Aside may (writeJob key v f) := Leaves.modify fun _ => rfl

theorem aside_setCooldown : Aside may (setCooldown cfg key nowMs) := Leaves.modify fun _ => rfl

theorem aside_setCooldownNow : Aside may (do setCooldown cfg key (← time)) := Leaves.time.bind fun _ => aside_setCooldown

theorem aside_deleteCooldown : Aside may (deleteCooldown key) := Leaves.modify fun _ => rfl

theorem aside_publishTiming (result : String) : Aside may (publishWinnerSelectionTiming key result) :=
  aside_ignore (aside_call _)

theorem aside_bracket {α : Type} {first last : Memory → Memory} {x : Async α}
    (hfirst : ∀ m, LeavesCursor m (first m)) (hlast : ∀ m, LeavesCursor m (last m)) (hx : Aside may x) :
    Aside may (bracket first last x) := by
  refine (Leaves.modify hfirst).bind fun _ => (hx.tryCatch fun error => ?_).bind fun _ => ?_
  · exact (Leaves.modify hlast).bind fun _ => Leaves.fail _
  · exact (Leaves.modify hlast).bind fun _ => Leaves.pure _

/-! ## Closing -/

theorem aside_cancelAttempt (v : ℕ) (reasonCode : String) : Aside may (cancelAttempt key v reasonCode) := by
  refine (aside_call _).bind fun _ => (aside_call _).bind fun _ => ?_
  exact (aside_writeJob v _).bind fun _ => (aside_call _).bind fun _ => Leaves.pure _

theorem aside_beforeRetry (error : String) (left : ℕ) : Aside may (beforeRetry error left) := by
  unfold beforeRetry
  split_ifs
  · exact (aside_ignore (aside_call _)).bind fun _ => aside_call _
  · exact aside_call _

theorem aside_cancelFailed : Aside may (cancelFailed key) := (aside_call _).bind fun _ => Leaves.pure _

theorem aside_cancelAttempts (v : ℕ) (reasonCode : String) (left : ℕ) :
    Aside may (cancelAttempts key v reasonCode left) := by
  induction left with
  | zero => exact aside_cancelFailed
  | succ left ih =>
    refine (aside_cancelAttempt v reasonCode).tryCatch fun error => ?_
    split_ifs
    · exact (aside_writeJob v _).bind fun _ => Leaves.pure _
    · exact (aside_beforeRetry error left).bind fun _ => ih
    · exact aside_cancelFailed

theorem aside_jobToClose : Aside may (jobToClose key) := by
  refine Leaves.memory.bind fun m => ?_
  cases m.getJobByKey key with
  | none =>
    refine Leaves.bind (Leaves.modify fun _ => ?_) fun _ => Leaves.pure _
    rfl
  | some v => exact Leaves.pure v

theorem aside_closeExpiredAuction (reasonCode : String) : Aside may (closeExpiredAuction cfg key reasonCode) := by
  refine aside_jobToClose.bind fun v => Leaves.memory.bind fun m => ?_
  split_ifs
  · exact Leaves.pure _
  · exact aside_cancelAttempts v reasonCode 3
  · exact (aside_ignore (aside_call _)).bind fun _ => aside_call _
  · exact aside_bracket (fun _ => rfl) (fun _ => rfl) (aside_cancelAttempts v reasonCode 3)

theorem aside_reconcileClose : Aside may (reconcileClose cfg nowMs key) := by
  refine ((aside_closeExpiredAuction _).bind fun closed => ?_).tryCatch fun _ => aside_setCooldown
  split_ifs
  · exact aside_setCooldown
  · exact aside_deleteCooldown

/-! ## Selecting -/

theorem aside_readinessBidCount (options : ReadinessHint) : Aside may (readinessBidCount key options) := by
  unfold readinessBidCount
  split
  · exact Leaves.pure _
  · exact (aside_call _).attempt

theorem aside_evaluateReadiness (options : ReadinessHint) :
    Aside may (evaluateWinnerSelectionReadiness key options) := by
  refine Leaves.memory.bind fun _ => (aside_call _).attempt.bind fun _ => Leaves.memory.bind fun _ => ?_
  refine Leaves.time.bind fun _ => (aside_readinessBidCount options).bind fun _ => ?_
  exact (Leaves.tell _).bind fun _ => Leaves.pure _

theorem aside_schedule (auctionDeadlineSec : ℕ) : Aside may (scheduleWinnerSelection key auctionDeadlineSec) := by
  refine Leaves.modify fun m => ?_
  cases m.getJobByKey key with
  | none => rfl
  | some v => rfl

theorem aside_hydrateJob : Aside may (hydrateJobForSelection cfg key) := by
  unfold hydrateJobForSelection
  split_ifs
  · exact Leaves.pure _
  refine (aside_call _).attempt.bind fun chainJob => ?_
  cases chainJob with
  | none => exact Leaves.pure _
  | some chainJob =>
    change Aside may (ite _ _ _)
    split_ifs
    · exact Leaves.pure _
    refine ((aside_call _).tryCatch fun _ => Leaves.pure _).bind fun _ => Leaves.memory.bind fun _ => ?_
    refine Leaves.bind (Leaves.modify fun _ => ?_) fun _ => Leaves.pure _
    rfl

theorem aside_dispatchTasks (hmay : ∀ winner, may (.taskAssigned key winner)) (winners : List (LocalBid × ℕ)) :
    Aside may (dispatchTasks key winners) := by
  induction winners with
  | nil => exact Leaves.pure _
  | cons winner winners ih =>
    refine Leaves.memory.bind fun m => ?_
    split_ifs
    · exact (Leaves.spawn (hmay _)).bind fun _ => ih
    · exact ih

theorem aside_selectFailed (v : ℕ) (error : String) : Aside may (selectFailed key v error) := by
  refine (aside_writeJob v _).bind fun _ => (aside_call _).bind fun _ => ?_
  exact (aside_call _).bind fun _ => aside_publishTiming _

theorem aside_publishWinners (winners : List AddressText) : Aside may (publishWinnerSelectedAuditLog key winners) := by
  unfold publishWinnerSelectedAuditLog
  split_ifs
  · exact Leaves.pure _
  · exact aside_ignore (aside_call _)

theorem aside_selectAttempt (hmay : ∀ winner, may (.taskAssigned key winner)) (v : ℕ)
    (selected : List (LocalBid × ℕ)) : Aside may (selectAttempt key v selected) := by
  have hsend : Aside may (sendSelection key v selected) :=
    Leaves.memory.bind fun _ => (Leaves.tell _).bind fun _ => aside_call _
  refine (aside_call _).bind fun _ => hsend.bind fun _ => (aside_publishWinners _).bind fun _ => ?_
  exact (aside_dispatchTasks hmay selected).bind fun _ => (aside_writeJob v _).bind fun _ => aside_publishTiming _

theorem aside_selectAttempts (hmay : ∀ winner, may (.taskAssigned key winner)) (v : ℕ)
    (selected : List (LocalBid × ℕ)) (left : ℕ) : Aside may (selectAttempts cfg key v selected left) := by
  induction left with
  | zero => exact Leaves.pure _
  | succ left ih =>
    refine (aside_selectAttempt hmay v selected).tryCatch fun error => ?_
    split_ifs
    · exact (aside_beforeRetry error left).bind fun _ => ih
    · exact (aside_selectFailed v error).bind fun _ => aside_setCooldownNow

theorem aside_selectFrom (hmay : ∀ winner, may (.taskAssigned key winner)) (v : ℕ) (bidders : List LocalBid) :
    Aside may (selectFrom cfg key v bidders) := by
  refine (Leaves.tell _).bind fun _ => Leaves.bind (Leaves.modify fun _ => ?_) fun _ => ?_
  · rfl
  split_ifs
  · exact aside_selectFailed v _
  · exact aside_selectAttempts hmay v _ 3

theorem aside_selectFromNone (v : ℕ) (onChainBidCount : Option ℕ) :
    Aside may (selectFromNone cfg key v onChainBidCount) := by
  have hcount : Aside may (effectiveBidCount key onChainBidCount) := by
    cases onChainBidCount with
    | none => exact (aside_call _).tryCatch fun _ => Leaves.pure _
    | some count => exact Leaves.pure _
  refine hcount.bind fun count => (aside_writeJob v _).bind fun _ => (aside_call _).bind fun _ => ?_
  by_cases hzero : count = 0
  · have hclose : Aside may (discard (closeExpiredAuction cfg key "no_bids_before_deadline")) :=
      (aside_closeExpiredAuction _).bind fun _ => Leaves.pure _
    rw [if_pos hzero]
    exact hclose.bind fun _ => aside_publishTiming _
  · rw [if_neg hzero]
    exact aside_publishTiming _

theorem aside_hydrateBidders (v : ℕ) (onChainBidCount : Option ℕ) :
    Aside may (hydrateBidders key v onChainBidCount) := by
  refine Leaves.tryCatch ?_ fun _ => Leaves.pure _
  refine (aside_call _).bind fun bids => Leaves.bind (Leaves.modify fun _ => ?_) fun _ => Leaves.pure _
  rfl

theorem aside_jobToSelect : Aside may (jobToSelect cfg key) := by
  refine Leaves.memory.bind fun m => ?_
  cases m.getJobByKey key with
  | none => exact aside_hydrateJob
  | some v => exact Leaves.pure _

theorem aside_runSelect (hmay : ∀ winner, may (.taskAssigned key winner)) (readiness : ReadinessInputs) :
    Aside may (runSelect cfg key readiness) := by
  refine aside_jobToSelect.bind fun v => ?_
  cases v with
  | none =>
    refine Leaves.time.bind fun _ => aside_setCooldown.bind fun _ => ?_
    exact (aside_ignore (aside_call _)).bind fun _ => aside_publishTiming _
  | some v =>
    refine (aside_call _).attempt.bind fun onChainJob => ?_
    cases onChainJob with
    | none => exact Leaves.pure _
    | some onChainJob =>
      change Aside may (ite _ _ _)
      split_ifs
      · exact (aside_ignore (aside_call _)).bind fun _ => aside_publishTiming _
      refine (aside_hydrateBidders v _).bind fun count => (aside_ignore (aside_call _)).bind fun _ => ?_
      refine Leaves.memory.bind fun m => ?_
      split_ifs
      · exact aside_selectFromNone v _
      · exact aside_selectFrom hmay v _

theorem aside_selectWinnersOnChain (hmay : ∀ winner, may (.taskAssigned key winner)) (readiness : ReadinessInputs) :
    Aside may (selectWinnersOnChain cfg key readiness) := by
  refine Leaves.memory.bind fun m => ?_
  split_ifs
  · exact aside_runSelect hmay readiness
  · exact (aside_ignore (aside_call _)).bind fun _ => aside_call _
  · exact aside_bracket (fun _ => rfl) (fun _ => rfl) (aside_runSelect hmay readiness)

theorem aside_requestWinnerSelection (hmay : ∀ winner, may (.taskAssigned key winner)) (sourcePath : String)
    (hint : ReadinessHint) : Aside may (requestWinnerSelection cfg key sourcePath hint) := by
  have hdeferred : ∀ reason, Aside may (publishWinnerSelectionDeferred key reason) :=
    fun _ => aside_ignore (aside_call _)
  refine (aside_evaluateReadiness hint).bind fun readiness => ?_
  split
  · exact aside_selectWinnersOnChain hmay readiness
  · refine (hdeferred _).bind fun _ => ?_
    cases readiness.deadlineSec with
    | none => exact aside_publishTiming _
    | some deadlineSec => exact (aside_schedule deadlineSec).bind fun _ => aside_publishTiming _
  · have hclose : Aside may (discard (closeExpiredAuction cfg key (sourcePath ++ "_no_bids_before_deadline"))) :=
      (aside_closeExpiredAuction _).bind fun _ => Leaves.pure _
    exact (hdeferred _).bind fun _ => hclose.bind fun _ => aside_publishTiming _
  · exact (hdeferred _).bind fun _ => aside_publishTiming _

/-! ## Startup and handlers -/

theorem aside_bootstrapJobs (nowSec : ℕ) (keys : List ℕ) (scheduled : ℕ) :
    Aside may (bootstrapJobs cfg nowSec keys scheduled) := by
  induction keys generalizing scheduled with
  | nil => exact Leaves.pure _
  | cons key keys ih =>
    unfold bootstrapJobs
    split_ifs
    · exact Leaves.pure _
    refine (aside_call _).attempt.bind fun chainJob => ?_
    cases chainJob with
    | none => exact ih scheduled
    | some chainJob =>
      change Aside may (ite _ _ _)
      split_ifs
      · exact ih scheduled
      refine Leaves.bind (Leaves.modify fun _ => ?_) fun _ => (aside_schedule _).bind fun _ => ih (scheduled + 1)
      rfl

theorem aside_activeJobIds : Aside may activeJobIds :=
  (aside_call _).tryCatch fun _ => Leaves.memory.bind fun _ => Leaves.pure _

theorem aside_handleBidSubmitted (hmay : ∀ message, may (.publishAuditLog message)) (message : BidMessage) :
    Aside may (handleBidSubmitted cfg message) := by
  refine Leaves.memory.bind fun m => ?_
  cases m.getJobByKey message.jobId with
  | none => exact Leaves.pure _
  | some v =>
    change Aside may (ite _ _ _)
    split_ifs
    · exact Leaves.pure _
    · exact Leaves.pure _
    · exact Leaves.pure _
    · exact Leaves.spawn (hmay _)
    · refine Leaves.bind (Leaves.modify fun _ => ?_) fun _ => aside_writeJob v _
      rfl

theorem aside_handleWinnersSelected (hmay : ∀ message, may (.publishAuditLog message)) (winners : List Address) :
    Aside may (handleWinnersSelected key winners) := by
  refine Leaves.memory.bind fun m => ?_
  cases m.getJobByKey key with
  | none => exact Leaves.pure _
  | some v =>
    refine Leaves.bind (Leaves.modify fun _ => ?_) fun _ => ?_
    · rfl
    split_ifs
    · exact Leaves.pure _
    · exact Leaves.spawn (hmay _)

theorem aside_handleJobCancelled (hmay : ∀ message, may (.publishAuditLog message)) (reason : String) :
    Aside may (handleJobCancelled key reason) := by
  refine Leaves.memory.bind fun m => ?_
  cases m.getJobByKey key with
  | none => exact Leaves.pure _
  | some v => exact (aside_writeJob v _).bind fun _ => Leaves.spawn (hmay _)

theorem aside_recordJob (contractAddress : Address) (auctionDeadlineSec : ℕ) :
    Aside may (recordJob key contractAddress auctionDeadlineSec) := by
  refine Leaves.bind (Leaves.modify fun _ => ?_) fun _ => ?_
  · rfl
  exact (aside_ignore (aside_call _)).bind fun _ => aside_schedule _

theorem aside_jobAtHand : Aside may (jobAtHand key) := by
  refine Leaves.memory.bind fun m => ?_
  cases m.getJobByKey key with
  | none =>
    refine Leaves.bind (Leaves.modify fun _ => ?_) fun _ => Leaves.pure _
    rfl
  | some v => exact Leaves.pure v

theorem aside_handleReportPublished (hmay : ∀ key sourcePath hint, may (.requestWinnerSelection key sourcePath hint)) :
    Aside may (handleReportPublished key) := by
  have hhydrate : ∀ v, Aside may (hydrateReportMetadataFromChain key v) := fun v =>
    aside_ignore ((aside_call _).bind fun _ => aside_writeJob v _)
  have hsettle : ∀ v, Aside may (do if (← call (Request.settleAll key)) = true then writeJob key v id) := by
    refine fun v => (aside_call _).bind fun settled => ?_
    split_ifs
    · exact aside_writeJob v _
    · exact Leaves.pure _
  refine aside_jobAtHand.bind fun v => (hhydrate v).bind fun _ => Leaves.memory.bind fun m => ?_
  split_ifs
  · exact Leaves.pure _
  refine (aside_writeJob v _).bind fun _ => (aside_call _).bind fun _ => Leaves.memory.bind fun m' => ?_
  split_ifs
  · exact (Leaves.spawn (hmay _ _ _)).bind fun _ => hsettle v
  · exact hsettle v

/-- Only the reconciliation writes the cursor. -/
theorem task_leaves (s : Start) (hs : s ≠ .reconcileExpiredActiveAuctions) :
    Aside (· ≠ .reconcileExpiredActiveAuctions) (task cfg s) := by
  cases s with
  | requestWinnerSelection key sourcePath hint =>
    exact aside_requestWinnerSelection (fun _ => Start.noConfusion) sourcePath hint
  | reconcileExpiredActiveAuctions => exact absurd rfl hs
  | bootstrapWinnerSelectionFromActiveJobs =>
    exact aside_activeJobIds.bind fun keys => Leaves.time.bind fun now => aside_bootstrapJobs _ keys 0
  | winnersSelected key winners => exact aside_handleWinnersSelected (fun _ => Start.noConfusion) winners
  | jobCancelled key reason => exact aside_handleJobCancelled (fun _ => Start.noConfusion) reason
  | bidSubmitted message => exact aside_handleBidSubmitted (fun _ => Start.noConfusion) message
  | jobRecorded key contractAddress deadline => exact aside_recordJob contractAddress deadline
  | findings key contractAddress => exact aside_jobAtHand.bind fun v => aside_writeJob v _
  | reportPublished key => exact aside_handleReportPublished fun _ _ _ => Start.noConfusion
  | agentRegistered roster => exact Leaves.modify fun _ => rfl
  | publishAuditLog message => exact aside_ignore (aside_call _)
  | taskAssigned key winner => exact aside_ignore (aside_call _)

/-- Whatever the contract, HCS and the other tasks do in between, a step leaves the cursor, or it is one of a task that
descends from a reconciliation. -/
theorem leavesCursor_or_reconciles {this : Address} {p p' : Tasks} {label : Label Note Start}
    (hp : (orchestrator this cfg).system.Reachable p) (hstep : Step (orchestrator this cfg) p label p') :
    LeavesCursor p.mem p'.mem ∨ ∃ reconciliation ∈ p.tasks,
      Descends (orchestrator this cfg) (· = .reconcileExpiredActiveAuctions) reconciliation.2 ∧
      p'.mem = (reconciliation.2.run p.now p.mem).mem := by
  by_cases hcursor : p'.mem.staleAuctionReconcileCursor = p.mem.staleAuctionReconcileCursor
  · exact .inl hcursor
  · exact .inr (hstep.descends task_leaves hp hcursor)

/-- A cycle looks at one job. -/
def oneByOne : Config := { sampleConfig with staleAuctionReconcileMaxInspectPerCycle := 1 }

/-- The memory of a reconciliation that waits for the list of the active jobs. -/
def waiting : Memory := { Memory.empty with isReconcileRunning := true }

/-- It asks for the list, and then moves the cursor. -/
theorem exists_waiting : ∃ k, (task oneByOne .reconcileExpiredActiveAuctions).run 70000 Memory.empty =
    ⟨waiting, [], [], .await .getActiveJobs k⟩ ∧
      ((k (.ok [1, 2])).run 70000 waiting).mem.staleAuctionReconcileCursor = 1 :=
  ⟨_, rfl, rfl⟩

/-- The reconciliation goes on with an answer. -/
def answered (w : Chain) (a : Except String (List ℕ)) (x : Async Unit) : Tasks :=
  ⟨waiting, w, 70000, [([⟨.getActiveJobs, a, w, w, 70000⟩], x)]⟩

/-- A reconciliation has the list of the two active jobs, and lets the next cycle start at the second one. -/
theorem reconciles_sample : ∃ p p' label, (orchestrator 1 oneByOne).system.Reachable p ∧
    Step (orchestrator 1 oneByOne) p label p' ∧ ¬ LeavesCursor p.mem p'.mem ∧ ∃ reconciliation ∈ p.tasks,
      Descends (orchestrator 1 oneByOne) (· = .reconcileExpiredActiveAuctions) reconciliation.2 ∧
      p'.mem = (reconciliation.2.run p.now p.mem).mem := by
  obtain ⟨_, w, hcalls, hr, -⟩ := AuditAuction.sample_run [
    (AuditAuction.sampleEnv 5 0, .createAuditJob 4 "hedera" "token" 10 (200 * 10^8) 100 60),
    (AuditAuction.sampleEnv 5 0, .createAuditJob 4 "hedera" "token" 10 (200 * 10^8) 100 60)] (by decide) rfl
  have hactive := Evm.read_ok hcalls (fun w => w.state.activeJobIds) (b := [1, 2]) (by decide +kernel)
  obtain ⟨k, hrun, hcursor⟩ := exists_waiting
  have htriggers : (orchestrator 1 oneByOne).triggers w .reconcileExpiredActiveAuctions := trivial
  have hstarted := (initial_run oneByOne hr.reachable 70000).reachable.step (.start htriggers)
  have hasked : (orchestrator 1 oneByOne).system.Reachable
      ⟨waiting, w, 70000, [([], Routine.await Request.getActiveJobs k)]⟩ := by
    have hran := hstarted.step
      (.run (show _ = [] ++ ([], task oneByOne .reconcileExpiredActiveAuctions) :: [] from rfl))
    dsimp only at hran
    rw [hrun] at hran
    exact hran
  have hserves : (orchestrator 1 oneByOne).serves 70000 w .getActiveJobs (.ok [1, 2]) w := by
    refine ⟨rfl, ?_⟩
    rintro ids ⟨⟩
    exact hactive.symm
  have hanswered : (orchestrator 1 oneByOne).system.Reachable (answered w (.ok [1, 2]) (k (.ok [1, 2]))) :=
    hasked.step (.answer (show _ = [] ++ ([], Routine.await Request.getActiveJobs k) :: [] from rfl) hserves)
  have hstep : Step (orchestrator 1 oneByOne) (answered w (.ok [1, 2]) (k (.ok [1, 2]))) _ _ :=
    .run (show _ = [] ++ (_, k (.ok [1, 2])) :: [] from rfl)
  have hcase := leavesCursor_or_reconciles hanswered hstep
  have hwrites : ¬ LeavesCursor waiting ((k (.ok [1, 2])).run 70000 waiting).mem := by
    rw [LeavesCursor, hcursor]
    nofun
  exact ⟨_, _, _, hanswered, hstep, hwrites, hcase.resolve_left hwrites⟩

end AuditGuard.Orchestrator
