import AuditGuard.Orchestrator.Selection

/-!
# The orchestrator: its tasks

The tasks that timers, events and messages start: the reconciliation of expired auctions, the startup, and the
handlers, as far as they touch what is kept of jobs. `task` is what each of them does.
-/

namespace AuditGuard.Orchestrator

open Evm
open Routine (memory time modify spawn call attempt)
open AuditAuction (AuditJob JobStatus)

/-! ## Reconciliation -/

/-- The marks of a job whose auction is over on the chain. -/
def Job.markSkipTerminal (job : Job) : Job :=
  { job with
    terminalOnChain := true
    terminalReason := some .reconcileSkipTerminal }

/-- The reconciliation passes over the job for its marks. -/
def Job.skipsReconcile (job : Job) : Bool := job.terminalOnChain || job.cancelledOnChain

/-- The ids of the active jobs, or of the jobs at hand if they cannot be read. -/
def activeJobIds : Async (List ℕ) :=
  (call Request.getActiveJobs).tryCatch fun _ => do
    let m ← memory
    pure (m.jobs.map Prod.fst)

/-- An expired auction without bids is closed, and not tried again for some time if that fails. -/
def reconcileClose (cfg : Config) (nowMs key : ℕ) : Async Unit :=
  Routine.tryCatch
    (do
      let closed ← closeExpiredAuction cfg key "reconcile_expired_active_job"
      if closed = false then setCooldown cfg key nowMs else deleteCooldown key)
    fun _ => setCooldown cfg key nowMs

/-- An expired auction with bids has its winners selected by another task, if this cycle may still start one. -/
def reconcileSelect (cfg : Config) (nowMs key closeAttempts selectAttempts : ℕ) (hint : ReadinessHint) :
    Async (ℕ × ℕ) := do
  if cfg.staleAuctionReconcileMaxSelectsPerCycle ≤ selectAttempts then do
    setCooldown cfg key nowMs
    pure (closeAttempts, selectAttempts)
  else do
    spawn (.requestWinnerSelection key "reconcile" hint)
    deleteCooldown key
    pure (closeAttempts, selectAttempts + 1)

/-- The reconciliation of one job, `v` if it is at hand, with the counts of attempts before and after it. -/
def reconcileJob (cfg : Config) (nowMs key : ℕ) (v : Option ℕ) (closeAttempts selectAttempts : ℕ) :
    Async (ℕ × ℕ) :=
  Routine.tryCatch
    (do
      let chainJob ← getJob key
      if chainJob.status ≠ .auctionOpen then do
        match v with
        | some v => writeJob key v Job.markSkipTerminal
        | none => pure ()
        pure (closeAttempts, selectAttempts)
      else if chainJob.auctionDeadline = 0 ∨ nowMs / 1000 < chainJob.auctionDeadline then
        pure (closeAttempts, selectAttempts)
      else do
        let onChainBidCount ← getOnChainBidCount key
        if 0 < onChainBidCount then
          reconcileSelect cfg nowMs key closeAttempts selectAttempts
            ⟨some chainJob.status, some chainJob.auctionDeadline, some onChainBidCount⟩
        else do
          reconcileClose cfg nowMs key
          pure (closeAttempts + 1, selectAttempts))
    fun _ => do
      setCooldown cfg key nowMs
      pure (closeAttempts, selectAttempts)

/-- The loop of `_reconcileExpiredActiveAuctionsInner`. -/
def reconcileJobs (cfg : Config) (nowMs : ℕ) : List ℕ → ℕ → ℕ → Async Unit
  | [], _, _ => pure ()
  | key :: keys, closeAttempts, selectAttempts => do
    if cfg.staleAuctionReconcileMaxPerCycle ≤ closeAttempts ∧
        cfg.staleAuctionReconcileMaxSelectsPerCycle ≤ selectAttempts then pure ()
    else do
      let m ← memory
      if (m.getJobByKey key).any (fun v => (m.object key v).skipsReconcile) = true ∨
          nowMs < m.reconcileCloseCooldown key then
        reconcileJobs cfg nowMs keys closeAttempts selectAttempts
      else do
        let attempts ← reconcileJob cfg nowMs key (m.getJobByKey key) closeAttempts selectAttempts
        reconcileJobs cfg nowMs keys attempts.1 attempts.2

/-- `_reconcileExpiredActiveAuctionsInner`. A cycle looks at a window of the active jobs, and the next one goes on
after it. -/
def reconcileExpiredActiveAuctionsInner (cfg : Config) : Async Unit := do
  let activeIds ← activeJobIds
  let nowMs ← time
  if activeIds = [] then pure ()
  else do
    let m ← memory
    let inspectCount := min (max 1 cfg.staleAuctionReconcileMaxInspectPerCycle) activeIds.length
    let startIndex := m.staleAuctionReconcileCursor % activeIds.length
    modify fun m => { m with staleAuctionReconcileCursor := (startIndex + inspectCount) % activeIds.length }
    reconcileJobs cfg nowMs ((activeIds.rotate startIndex).take inspectCount) 0 0

/-- `reconcileExpiredActiveAuctions`. -/
def reconcileExpiredActiveAuctions (cfg : Config) : Async Unit := do
  let m ← memory
  if m.isReconcileRunning = true then pure ()
  else
    bracket (fun m => { m with isReconcileRunning := true }) (fun m => { m with isReconcileRunning := false })
      (reconcileExpiredActiveAuctionsInner cfg)

/-! ## Startup -/

/-- The job object for which a selection of winners is scheduled again, made of the one at hand, if there is one, and
of the job on the chain. -/
def Job.rearmed (base : Job) (chainJob : AuditJob) : Job :=
  { base with
    contractAddress := base.contractAddress <|> some chainJob.contractAddress
    rehydratedForSelection := true
    auctionDeadlineSec := some chainJob.auctionDeadline }

/-- What is at hand of a job, with an array for its bidders. -/
def Memory.jobOrBlank (m : Memory) (key : ℕ) : Job :=
  match m.getJobByKey key with
  | some v => m.object key v
  | none => Job.blank none (m.created key)

/-- The loop of `bootstrapWinnerSelectionFromActiveJobs`. -/
def bootstrapJobs (cfg : Config) (nowSec : ℕ) : List ℕ → ℕ → Async Unit
  | [], _ => pure ()
  | key :: keys, scheduled => do
    if cfg.winnerSelectionStartupBackfillMaxJobs ≤ scheduled then pure ()
    else do
      match ← attempt (getJob key) with
      | none => bootstrapJobs cfg nowSec keys scheduled
      | some chainJob =>
        if chainJob.status ≠ .auctionOpen ∨ chainJob.auctionDeadline ≤ nowSec then
          bootstrapJobs cfg nowSec keys scheduled
        else do
          modify fun m =>
            (m.create key (Job.rearmed (m.jobOrBlank key) chainJob)).setJobByKey key (m.created key)
          scheduleWinnerSelection key chainJob.auctionDeadline
          bootstrapJobs cfg nowSec keys (scheduled + 1)

/-- `bootstrapWinnerSelectionFromActiveJobs`. -/
def bootstrapWinnerSelectionFromActiveJobs (cfg : Config) : Async Unit := do
  let activeIds ← activeJobIds
  let nowMs ← time
  bootstrapJobs cfg (nowMs / 1000) activeIds 0

/-! ## Handlers -/

/-- The job takes no more bids, for its marks or because its report is published. -/
def Job.skipsBid (job : Job) : Bool := job.cancelledOnChain || job.terminalOnChain || job.reportPublished

/-- The agent or its address has a bid among the bidders. -/
def duplicateBid (bidders : List LocalBid) (agentId : String) (resolvedEvmAddress : Option Address) : Bool :=
  bidders.any fun existing =>
    existing.agentId = agentId ∨
      (resolvedEvmAddress.isSome = true ∧ normalizeAddress existing.evmAddress = resolvedEvmAddress)

/-- A bidder is pushed onto an array. -/
def Memory.pushBid (m : Memory) (key array : ℕ) (bid : LocalBid) : Memory :=
  { m with bidders := fun k i => if k = key ∧ i = array then m.bidders k i ++ [bid] else m.bidders k i }

/-- `handleBidSubmitted`. -/
def handleBidSubmitted (cfg : Config) (msg : BidMessage) : Async Unit := do
  let m ← memory
  let agent := m.agent msg.agentId
  let evmAddress := ((msg.evmAddress <|> agent.map AgentEntry.evmAddress).getD (.text ""))
  match m.getJobByKey msg.jobId with
  | none => pure ()
  | some v =>
    let job := m.object msg.jobId v
    if job.skipsBid = true then pure ()
    else if msg.contractAddress.truthy = true ∧
        job.contractAddress.any (fun a => msg.contractAddress ≠ .address a) = true then pure ()
    else if agent.any (fun agent => agent.stake < cfg.minStake) = true ∨ msg.bidAmount ≤ 0 then pure ()
    else if duplicateBid (m.bidders msg.jobId job.bidders) msg.agentId (normalizeAddress evmAddress) = true then
      spawn (.publishAuditLog (.other "BID_DEDUPED" msg.jobId ""))
    else do
      modify fun m => m.pushBid msg.jobId job.bidders {
        agentId := msg.agentId
        evmAddress := evmAddress
        bidAmount := msg.bidAmount
        collateral := msg.collateral
        estimatedTimeSec := msg.estimatedTimeSec
        reputation := (msg.reputation <|> agent.map AgentEntry.reputation).getD 0
        timestamp := msg.timestamp
        onChainBidIndex := none }
      writeJob msg.jobId v fun job => { job with hcsBidCount := job.hcsBidCount + 1 }

/-- The handler of `WinnersSelected`. -/
def handleWinnersSelected (key : ℕ) (winners : List Address) : Async Unit := do
  let m ← memory
  match m.getJobByKey key with
  | none => pure ()
  | some v => do
    modify fun m => m.update key v fun job => { job with winners := winners.dedup.map .address }
    if winners.dedup = [] then pure () else spawn (.publishAuditLog (.winnerSelected key winners.dedup))

/-- The handler of `JobCancelled`. -/
def handleJobCancelled (key : ℕ) (reason : String) : Async Unit := do
  let m ← memory
  match m.getJobByKey key with
  | none => pure ()
  | some v => do
    writeJob key v (Job.markCancelled reason)
    spawn (.publishAuditLog (.other "JOB_CANCELLED" key reason))

/-- The end of `handleDiscovery`, when the job was created. -/
def recordJob (key : ℕ) (contractAddress : Address) (auctionDeadlineSec : ℕ) : Async Unit := do
  modify fun m =>
    (m.create key { Job.blank (some contractAddress) (m.created key) with
      auctionDeadlineSec := some auctionDeadlineSec }).setJobByKey key (m.created key)
  ignore (publishAuditLog "JOB_CREATED" key "")
  scheduleWinnerSelection key auctionDeadlineSec

/-- The job object that a handler works on, which it makes if there is none, but does not enter into the map. -/
def jobAtHand (key : ℕ) : Async ℕ := do
  let m ← memory
  match m.getJobByKey key with
  | some v => pure v
  | none => do
    modify fun m => m.create key (Job.blank none (m.created key))
    pure (m.created key)

/-- `applyReportMetadataHints`, for the address of the contract. -/
def Job.applyReportMetadataHints (contractAddress : Option Address) (job : Job) : Job :=
  { job with contractAddress := job.contractAddress <|> contractAddress }

/-- `handleFindings`, whose publication of the report is a task of its own. -/
def handleFindings (key : ℕ) (contractAddress : Option Address) : Async Unit := do
  let v ← jobAtHand key
  writeJob key v (Job.applyReportMetadataHints contractAddress)

/-- `hydrateReportMetadataFromChain`, with a look at the chain for whatever is missing. -/
def hydrateReportMetadataFromChain (key v : ℕ) : Async Unit :=
  ignore (do
    let chainJob ← getJob key
    writeJob key v fun job =>
      { Job.applyReportMetadataHints (some chainJob.contractAddress) job with
        winners := if job.winners = [] then chainJob.winningAgents.dedup.map .address else job.winners })

/-- `handleReportPublished`. -/
def handleReportPublished (key : ℕ) : Async Unit := do
  let v ← jobAtHand key
  hydrateReportMetadataFromChain key v
  let m ← memory
  if (m.object key v).reportPublished = true then pure ()
  else do
    writeJob key v fun job => { job with reportPublished := true }
    publishAuditLog "REPORT_PUBLISHED" key ""
    let m ← memory
    if (m.object key v).winners = [] then spawn (.requestWinnerSelection key "report_published" .none)
    if (← call (Request.settleAll key)) = true then writeJob key v id

/-- The job was made of what the chain has, its deadline has passed, and it has no bids. -/
def Memory.staleJob (m : Memory) (nowSec key : ℕ) (job : Job) : Bool :=
  job.rehydratedForSelection && (job.auctionDeadlineSec.any fun d => 0 < d ∧ d ≤ nowSec) &&
    (m.bidders key job.bidders).isEmpty && job.hcsBidCount = 0

/-- `hasOpenJobForContract`, at a time. -/
def hasOpenJobForContract (m : Memory) (nowSec : ℕ) (contractAddress : Address) : Bool :=
  m.jobs.any fun entry =>
    let job := m.object entry.1 entry.2
    job.contractAddress = some contractAddress ∧ job.reportPublished = false ∧ job.cancelledOnChain = false ∧
      job.terminalOnChain = false ∧ m.staleJob nowSec entry.1 job = false

/-- What a task does. -/
def task (cfg : Config) : Start → Async Unit
  | .requestWinnerSelection key sourcePath hint => requestWinnerSelection cfg key sourcePath hint
  | .reconcileExpiredActiveAuctions => reconcileExpiredActiveAuctions cfg
  | .bootstrapWinnerSelectionFromActiveJobs => bootstrapWinnerSelectionFromActiveJobs cfg
  | .winnersSelected key winners => handleWinnersSelected key winners
  | .jobCancelled key reason => handleJobCancelled key reason
  | .bidSubmitted message => handleBidSubmitted cfg message
  | .jobRecorded key contractAddress deadline => recordJob key contractAddress deadline
  | .findings key contractAddress => handleFindings key contractAddress
  | .reportPublished key => handleReportPublished key
  | .agentRegistered roster => modify fun m => { m with roster := roster }
  | .publishAuditLog message => ignore (call (Request.publishAuditLog message))
  | .taskAssigned key winner => ignore (call (Request.taskAssigned key winner))

end AuditGuard.Orchestrator
