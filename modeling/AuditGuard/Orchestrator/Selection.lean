import AuditGuard.Orchestrator.Model

/-!
# The orchestrator: closing auctions and selecting winners

The methods of `orchestrator.js` that cancel an expired auction or select its winners, and what calls them: the
timers, the startup, the reconciliation of expired auctions, and a published report.
-/

namespace AuditGuard.Orchestrator

open Evm
open Routine (memory time modify tell spawn call attempt)
open AuditAuction (AuditJob AgentBid JobStatus)

/-! ## Requests -/

/-- `getJob` of the contract client. -/
def getJob (jobId : ℕ) : Async AuditJob := call (Request.getJob jobId)

/-- `getOnChainBidCount`. -/
def getOnChainBidCount (jobId : ℕ) : Async ℕ := call (Request.getBidCount jobId)

/-- `getOnChainBids`. -/
def getOnChainBids (jobId : ℕ) : Async (List AgentBid) := call (Request.getBidsForJob jobId)

/-- `ensureOrchestratorOperationalHbar`. -/
def ensureOrchestratorOperationalHbar : Async Unit := call Request.ensureOrchestratorOperationalHbar

/-- `publishAuditLog`. -/
def publishAuditLog (type : String) (jobId : ℕ) (reasonCode : String) : Async Unit :=
  call (Request.publishAuditLog (.other type jobId reasonCode))

/-- A task whose failure is ignored. -/
def ignore (x : Async Unit) : Async Unit := x.tryCatch fun _ => pure ()

/-- `publishWinnerSelectionTiming`. -/
def publishWinnerSelectionTiming (jobId : ℕ) (result : String) : Async Unit :=
  ignore (publishAuditLog "WINNER_SELECTION_TIMING" jobId result)

/-- `publishWinnerSelectionDeferred`. -/
def publishWinnerSelectionDeferred (jobId : ℕ) (reasonCode : String) : Async Unit :=
  ignore (publishAuditLog "WINNER_SELECTION_DEFERRED" jobId reasonCode)

/-- `normalizeWinnerAddresses`. -/
def normalizeWinnerAddresses (winners : List AddressText) : List Address :=
  (winners.filterMap normalizeAddress).dedup

/-- `publishWinnerSelectedAuditLog`, but for the cache that suppresses repetitions. -/
def publishWinnerSelectedAuditLog (jobId : ℕ) (winners : List AddressText) : Async Unit :=
  if normalizeWinnerAddresses winners = [] then pure ()
  else ignore (call (Request.publishAuditLog (.winnerSelected jobId (normalizeWinnerAddresses winners))))

/-! ## Readiness -/

/-- Why a winner selection goes ahead or does not. -/
inductive ReasonCode
  | ready
  | notFound
  | terminalStatus
  | deadlineNotReached
  | noOnchainBids
deriving DecidableEq

/-- The text of a reason. -/
def ReasonCode.text : ReasonCode → String
  | .ready => "ready"
  | .notFound => "not_found"
  | .terminalStatus => "terminal_status"
  | .deadlineNotReached => "deadline_not_reached"
  | .noOnchainBids => "no_onchain_bids"

namespace ReadinessInputs

variable (inputs : ReadinessInputs)

/-- The status to go by. -/
def chainStatus : Option JobStatus := inputs.hint.chainStatus <|> inputs.chainJob.map AuditJob.status

/-- The status is known, and the auction is over. -/
def terminalStatus : Bool :=
  match inputs.chainStatus with
  | none => false
  | some status => status ≠ .auctionOpen ∧ status ≠ .biddingClosed

/-- The first deadline that is known: what the caller told, what the chain has, what the local job has. -/
def deadlineSec : Option ℕ :=
  [inputs.hint.deadlineSec, inputs.chainJob.map AuditJob.auctionDeadline,
    inputs.localDeadlineSec].findSome? (·.filter (0 < ·))

/-- The deadline is known and reached. -/
def deadlineReached : Bool := inputs.deadlineSec.any (· ≤ inputs.nowSec)

/-- The job is known. -/
def jobExists : Bool := inputs.isLocal || inputs.chainJob.isSome

/-- The verdict, in which a number of bids that could not be read counts as zero. -/
def reasonCode : ReasonCode :=
  if inputs.jobExists = false then .notFound
  else if inputs.terminalStatus = true then .terminalStatus
  else if inputs.deadlineReached = false then .deadlineNotReached
  else if inputs.onChainBidCount.getD 0 = 0 then .noOnchainBids
  else .ready

end ReadinessInputs

/-- The number of bids, as the caller told it or as it is on the chain. -/
def readinessBidCount (key : ℕ) (options : ReadinessHint) : Async (Option ℕ) :=
  match options.onChainBidCount with
  | some count => pure (some count)
  | none => attempt (getOnChainBidCount key)

/-- `evaluateWinnerSelectionReadiness`, which tells what it decides on. -/
def evaluateWinnerSelectionReadiness (key : ℕ) (options : ReadinessHint) : Async ReadinessInputs := do
  let localJob := (← memory).getJobByKey key
  let chainJob ← attempt (getJob key)
  let m ← memory
  let nowMs ← time
  let onChainBidCount ← readinessBidCount key options
  let inputs : ReadinessInputs := {
    jobId := key
    isLocal := localJob.isSome
    chainJob := chainJob
    hint := options
    localDeadlineSec := localJob.bind fun v => (m.object key v).auctionDeadlineSec
    nowSec := nowMs / 1000
    onChainBidCount := onChainBidCount }
  tell (.readiness inputs)
  pure inputs

/-- `scheduleWinnerSelection`, but for the timer. -/
def scheduleWinnerSelection (key auctionDeadlineSec : ℕ) : Async Unit :=
  modify fun m =>
    match m.getJobByKey key with
    | none => m
    | some v => (m.update key v fun job => { job with
        auctionDeadlineSec := if 0 < auctionDeadlineSec then some auctionDeadlineSec
          else job.auctionDeadlineSec }).setJobByKey key v

/-! ## Closing -/

/-- The marks of a job that was cancelled. -/
def Job.markCancelled (reasonCode : String) (job : Job) : Job :=
  { job with
    cancelledOnChain := true
    cancelledReason := some ⟨reasonCode, false⟩
    terminalOnChain := true
    terminalReason := some .cancelled }

/-- The marks of a job whose cancellation was refused because it was terminal already. -/
def Job.markAlreadyTerminal (reasonCode : String) (job : Job) : Job :=
  { job with
    cancelledOnChain := true
    cancelledReason := some ⟨reasonCode, true⟩
    terminalOnChain := true
    terminalReason := some .cancelAlreadyTerminal }

/-- An assignment to the fields of the job object `v`, which becomes the current one. -/
def writeJob (key v : ℕ) (f : Job → Job) : Async Unit :=
  modify fun m => (m.update key v f).setJobByKey key v

/-- What is done about HBAR before another attempt at a transaction, and the pause. -/
def beforeRetry (error : String) (left : ℕ) : Async Unit := do
  if isInsufficientFundsError error = true then ignore ensureOrchestratorOperationalHbar
  call (Request.sleep (350 * (3 - left)))

/-- The end of the attempts to cancel a job. -/
def cancelFailed (key : ℕ) : Async Bool := do
  publishAuditLog "ONCHAIN_TX_FAILED" key "cancel_expired"
  pure false

/-- One attempt to cancel a job. -/
def cancelAttempt (key v : ℕ) (reasonCode : String) : Async Bool := do
  ensureOrchestratorOperationalHbar
  call (Request.cancelJob key)
  writeJob key v (Job.markCancelled reasonCode)
  publishAuditLog "JOB_CANCELLED" key reasonCode
  pure true

/-- The attempts to cancel a job, of which this many are left. -/
def cancelAttempts (key v : ℕ) (reasonCode : String) : ℕ → Async Bool
  | 0 => cancelFailed key
  | left + 1 =>
    (cancelAttempt key v reasonCode).tryCatch fun error =>
      if isAuctionTerminalError error = true then do
        writeJob key v (Job.markAlreadyTerminal reasonCode)
        pure true
      else if retriable error = true ∧ left ≠ 0 then do
        beforeRetry error left
        cancelAttempts key v reasonCode left
      else cancelFailed key

/-- A task between a first and a last assignment to the memory, the last of which is made whether the task fails or
not. -/
def bracket {α : Type} (first last : Memory → Memory) (x : Async α) : Async α := do
  modify first
  let a ← x.tryCatch fun error => do
    modify last
    .fail error
  modify last
  pure a

/-- The job that `closeExpiredAuction` works on, which it makes if there is none. -/
def jobToClose (key : ℕ) : Async ℕ := do
  let m ← memory
  match m.getJobByKey key with
  | some v => pure v
  | none => do
    modify fun m => (m.create key (Job.blank none (m.created key))).setJobByKey key (m.created key)
    pure (m.created key)

/-- `closeExpiredAuction`. -/
def closeExpiredAuction (cfg : Config) (key : ℕ) (reasonCode : String) : Async Bool := do
  let v ← jobToClose key
  let m ← memory
  if (m.object key v).cancelledOnChain = true then pure true
  else if cfg.auctionCloseSingleflightEnabled = false then cancelAttempts key v reasonCode 3
  else if m.inflightCloseJobs key = true then do
    ignore (publishAuditLog "AUCTION_CLOSE_SKIPPED" key "close_singleflight_skipped")
    call (Request.existingClose key)
  else
    bracket
      (fun m => { m with inflightCloseJobs := Function.update m.inflightCloseJobs key true })
      (fun m => { m with inflightCloseJobs := Function.update m.inflightCloseJobs key false })
      (cancelAttempts key v reasonCode 3)

/-! ## Selecting -/

/-- The number of tinyguards in a GUARD. -/
def toGuardAmount (amount : ℕ) : ℚ := amount / 10^8

/-- `mapOnChainBidsToLocal`, where every bid has its agent's address. -/
def mapOnChainBidsToLocal (m : Memory) (onChainBids : List AgentBid) : List LocalBid :=
  onChainBids.mapIdx fun bidIndex bid => {
    agentId :=
      if m.findAgentIdByAddress bid.agent = "" then "onchain:" ++ toString bid.agent.toNat
      else m.findAgentIdByAddress bid.agent
    evmAddress := .address bid.agent
    bidAmount := toGuardAmount bid.bidAmount
    collateral := toGuardAmount bid.collateralLocked
    estimatedTimeSec := bid.estimatedCompletionTime
    reputation := bid.reputationAtBid
    timestamp := bid.timestamp
    onChainBidIndex := some bidIndex }

/-- An assignment of new bidders to a job object, which becomes the current one. -/
def setBidders (key v : ℕ) (onChainBids : List AgentBid) (m : Memory) : Memory :=
  ((m.createArray key (mapOnChainBidsToLocal m onChainBids)).update key v fun job =>
    { job with bidders := m.created key }).setJobByKey key v

/-- The job object that `hydrateJobForSelection` makes of what it read, with the bidders in the array `bidders`. -/
def Job.hydrated (chainJob : AuditJob) (bidders : ℕ) : Job :=
  { Job.blank (some chainJob.contractAddress) bidders with
    rehydratedForSelection := true
    auctionDeadlineSec := if 0 < chainJob.auctionDeadline then some chainJob.auctionDeadline else none }

/-- `hydrateJobForSelection`. -/
def hydrateJobForSelection (cfg : Config) (key : ℕ) : Async (Option ℕ) := do
  if cfg.rehydrateMissingJobForSelection = false then pure none
  else do
    match ← attempt (getJob key) with
    | none => pure none
    | some chainJob =>
      if chainJob.status ≠ .auctionOpen ∧ chainJob.status ≠ .biddingClosed then pure none
      else do
        let onChainBids ← (getOnChainBids key).tryCatch fun _ => pure []
        let m ← memory
        modify fun m =>
          let m' := m.createArray key (mapOnChainBidsToLocal m onChainBids)
          (m'.create key (Job.hydrated chainJob (m.created key))).setJobByKey key (m'.created key)
        pure (some (m.created key + 1))

/-- What two bids of one winner have in common. -/
inductive WinnerKey
  | address (a : Address)
  | text (s : String)
deriving DecidableEq

/-- `dedupeKey`. -/
def LocalBid.dedupeKey (bid : LocalBid) : WinnerKey :=
  match bid.evmAddress with
  | .address a => .address a
  | .text s => if s = "" then .text ("agent:" ++ bid.agentId.toLower) else .text s.toLower

/-- The loop that picks the best bids, at most so many, without the keys that were seen. -/
def selectDistinct : ℕ → List WinnerKey → List (LocalBid × ℕ) → List (LocalBid × ℕ)
  | 0, _, _ => []
  | _, _, [] => []
  | max + 1, seen, bid :: bids =>
    if bid.1.dedupeKey ∈ seen then selectDistinct (max + 1) seen bids
    else bid :: selectDistinct max (bid.1.dedupeKey :: seen) bids

/-- `selectedWinners`, with their places in the list of bidders. -/
def selectedWinners (cfg : Config) (bidders : List LocalBid) : List (LocalBid × ℕ) :=
  selectDistinct 1 [] (cfg.rank bidders)

/-- `winnerAddresses`. -/
def winnerAddresses (selected : List (LocalBid × ℕ)) : List AddressText :=
  (selected.map fun bid => bid.1.evmAddress).filter AddressText.truthy

/-- `winningBidIndices`, which takes a winner's place in the list for its place on the chain if that is not known. -/
def winningBidIndices (selected : List (LocalBid × ℕ)) : List ℕ :=
  selected.map fun bid => bid.1.onChainBidIndex.getD bid.2

/-- The messages to the winners that have an endpoint. -/
def dispatchTasks (key : ℕ) : List (LocalBid × ℕ) → Async Unit
  | [] => pure ()
  | winner :: winners => do
    let m ← memory
    if ((m.agent winner.1.agentId).any AgentEntry.endpoint) = true then
      spawn (.taskAssigned key winner.1.evmAddress)
    dispatchTasks key winners

/-- A close or a selection of the job is not tried again before some time has passed. -/
def setCooldown (cfg : Config) (key nowMs : ℕ) : Async Unit :=
  modify fun m => { m with
    reconcileCloseCooldown :=
      Function.update m.reconcileCloseCooldown key (nowMs + cfg.staleAuctionReconcileFailureCooldownMs) }

/-- A close or a selection of the job may be tried. -/
def deleteCooldown (key : ℕ) : Async Unit :=
  modify fun m => { m with reconcileCloseCooldown := Function.update m.reconcileCloseCooldown key 0 }

/-- A failed selection. -/
def selectFailed (key v : ℕ) (error : String) : Async Unit := do
  writeJob key v fun job => { job with failureReason := some error }
  publishAuditLog "ONCHAIN_TX_FAILED" key "select_winners"
  publishAuditLog "JOB_FAILED" key "select_winners"
  publishWinnerSelectionTiming key "failed"

/-- The selection is sent. -/
def sendSelection (key v : ℕ) (selected : List (LocalBid × ℕ)) : Async Unit := do
  let m ← memory
  tell (.sending key (m.object key v).winners (winnerAddresses selected))
  call (Request.selectWinners key (m.object key v).winners (winningBidIndices selected))

/-- One attempt to select winners on the chain. -/
def selectAttempt (key v : ℕ) (selected : List (LocalBid × ℕ)) : Async Unit := do
  ensureOrchestratorOperationalHbar
  sendSelection key v selected
  publishWinnerSelectedAuditLog key (winnerAddresses selected)
  dispatchTasks key selected
  writeJob key v id
  publishWinnerSelectionTiming key "success"

/-- The attempts to select winners on the chain, of which this many are left. -/
def selectAttempts (cfg : Config) (key v : ℕ) (selected : List (LocalBid × ℕ)) : ℕ → Async Unit
  | 0 => pure ()
  | left + 1 =>
    (selectAttempt key v selected).tryCatch fun error =>
      if retriable error = true ∧ left ≠ 0 then do
        beforeRetry error left
        selectAttempts cfg key v selected left
      else do
        selectFailed key v error
        setCooldown cfg key (← time)

/-- The part of `runSelect` with bidders. -/
def selectFrom (cfg : Config) (key v : ℕ) (bidders : List LocalBid) : Async Unit := do
  tell (.scoring key bidders)
  let selected := selectedWinners cfg bidders
  modify fun m => m.update key v fun job => { job with winners := winnerAddresses selected }
  if winningBidIndices selected = [] then selectFailed key v "No valid winning bid indices"
  else selectAttempts cfg key v selected 3

/-- `effectiveOnChainBidCount`, if this many bids were counted on the chain. -/
def effectiveBidCount (key : ℕ) : Option ℕ → Async ℕ
  | some count => pure count
  | none => (getOnChainBidCount key).tryCatch fun _ => pure 0

/-- The part of `runSelect` without bidders, if this many bids were counted on the chain. -/
def selectFromNone (cfg : Config) (key v : ℕ) (onChainBidCount : Option ℕ) : Async Unit := do
  let effectiveOnChainBidCount ← effectiveBidCount key onChainBidCount
  let reason :=
    if 0 < effectiveOnChainBidCount then "On-chain bids exist but local bidder hydration failed"
    else "No bids collected before winner deadline"
  writeJob key v fun job => { job with failureReason := some reason }
  publishAuditLog "JOB_FAILED" key "select_winners"
  if effectiveOnChainBidCount = 0 then discard (closeExpiredAuction cfg key "no_bids_before_deadline")
  publishWinnerSelectionTiming key (if 0 < effectiveOnChainBidCount then "failed" else "skipped")

/-- The bids on the chain become the bidders of the job, if they can be read, and are counted. -/
def hydrateBidders (key v : ℕ) (onChainBidCount : Option ℕ) : Async (Option ℕ) :=
  Routine.tryCatch
    (do
      let onChainBids ← getOnChainBids key
      modify (setBidders key v onChainBids)
      pure (some onChainBids.length))
    fun _ => pure onChainBidCount

/-- The job to select winners for, at hand or made of what the chain has. -/
def jobToSelect (cfg : Config) (key : ℕ) : Async (Option ℕ) := do
  let m ← memory
  match m.getJobByKey key with
  | some v => pure (some v)
  | none => hydrateJobForSelection cfg key

/-- `runSelect`. -/
def runSelect (cfg : Config) (key : ℕ) (readiness : ReadinessInputs) : Async Unit := do
  match ← jobToSelect cfg key with
  | none => do
    setCooldown cfg key (← time)
    ignore (publishAuditLog "WINNER_SELECTION_SKIPPED" key "missing_job_state")
    publishWinnerSelectionTiming key "skipped"
  | some v => do
    match ← attempt (getJob key) with
    | none => pure ()
    | some onChainJob =>
      if onChainJob.status ≠ .auctionOpen ∧ onChainJob.status ≠ .biddingClosed then do
        ignore (publishAuditLog "WINNER_SELECTION_SKIPPED" key "on_chain_status")
        publishWinnerSelectionTiming key "skipped"
      else do
        let onChainBidCount ← hydrateBidders key v readiness.onChainBidCount
        ignore (publishAuditLog "WINNER_SELECTION_SUMMARY" key "")
        let m ← memory
        if m.bidders key (m.object key v).bidders = [] then selectFromNone cfg key v onChainBidCount
        else selectFrom cfg key v (m.bidders key (m.object key v).bidders)

/-- `selectWinnersOnChain`. -/
def selectWinnersOnChain (cfg : Config) (key : ℕ) (readiness : ReadinessInputs) : Async Unit := do
  let m ← memory
  if cfg.auctionCloseSingleflightEnabled = false then runSelect cfg key readiness
  else if m.inflightSelectWinnerJobs key = true then do
    ignore (publishAuditLog "WINNER_SELECTION_SKIPPED" key "close_singleflight_skipped")
    call (Request.existingSelect key)
  else
    bracket
      (fun m => { m with inflightSelectWinnerJobs := Function.update m.inflightSelectWinnerJobs key true })
      (fun m => { m with inflightSelectWinnerJobs := Function.update m.inflightSelectWinnerJobs key false })
      (runSelect cfg key readiness)

/-- `requestWinnerSelection`. -/
def requestWinnerSelection (cfg : Config) (key : ℕ) (sourcePath : String) (readinessHint : ReadinessHint) :
    Async Unit := do
  let readiness ← evaluateWinnerSelectionReadiness key readinessHint
  match readiness.reasonCode with
  | .ready => selectWinnersOnChain cfg key readiness
  | .deadlineNotReached => do
    publishWinnerSelectionDeferred key readiness.reasonCode.text
    match readiness.deadlineSec with
    | some deadlineSec => do
      scheduleWinnerSelection key deadlineSec
      publishWinnerSelectionTiming key "deferred"
    | none => publishWinnerSelectionTiming key "skipped"
  | .noOnchainBids => do
    publishWinnerSelectionDeferred key readiness.reasonCode.text
    discard (closeExpiredAuction cfg key (sourcePath ++ "_no_bids_before_deadline"))
    publishWinnerSelectionTiming key "skipped"
  | _ => do
    publishWinnerSelectionDeferred key readiness.reasonCode.text
    publishWinnerSelectionTiming key "skipped"

end AuditGuard.Orchestrator
