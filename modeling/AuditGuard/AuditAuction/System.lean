import AuditGuard.AuditAuction.Model
import AuditGuard.Hts

/-!
# AuditAuction: calls and runs

The external functions of `AuditAuction.sol`, which act on the storage and on the ledger of the GUARD
token, and the contract under all calls by all callers, from its deployment on. The contract calls HTS, which
calls nobody, and the agent registry, which does not call back; what the registry does with tokens of its
own is a movement elsewhere. The token's address has no setter, so that one ledger is enough.
-/

namespace AuditGuard.AuditAuction

open Evm

/-- Appends an event to the log. -/
def emit (e : Event) (w : World State) : World State := { w with state := w.state.emit e }

/-- `_transferGuard`. -/
def transferGuard (env : Env) (src dst : Address) (amount : ℕ) (w : World State) : Tx (World State) :=
  Hts.transfer "AuditAuction" env.transferAnswer src dst amount w

variable (this : Address) (env : Env)

/-- `submitBid`. -/
def submitBid (jobId bidAmount collateralAmount estimatedCompletionTime : ℕ) (specialization : String)
    (w : World State) : Tx (World State) := do
  whenNotPaused w.state
  let job := w.state.jobs jobId
  require (job.jobId ≠ 0) "AuditAuction: job does not exist"
  require (job.status = .auctionOpen) "AuditAuction: job not open"
  require (env.timestamp < job.auctionDeadline) "AuditAuction: auction expired"
  require (w.state.hasAgentBid jobId env.sender = false) "AuditAuction: bid already submitted"
  require (MIN_BID_COLLATERAL ≤ collateralAmount) "AuditAuction: collateral below minimum"
  require (bidAmount ≤ job.budgetAvailable) "AuditAuction: bid exceeds budget"
  require (0 < specialization.utf8ByteSize) "AuditAuction: empty specialization"
  readRegistry env w.state
  require (env.isActiveAgent env.sender = true) "AuditAuction: inactive agent"
  let reputationAtBid := env.getAgentReputation env.sender
  let w ← transferGuard env env.sender this collateralAmount w
  let s := w.state.setBids jobId (w.state.jobBids jobId ++ [{
    agent := env.sender
    jobId := jobId
    bidAmount := bidAmount
    collateralLocked := collateralAmount
    reputationAtBid := reputationAtBid
    estimatedCompletionTime := estimatedCompletionTime
    specialization := specialization
    status := .pending
    timestamp := env.timestamp }])
  let hasBid := Function.update (s.hasAgentBid jobId) env.sender true
  let s := { s with hasAgentBid := Function.update s.hasAgentBid jobId hasBid }
  let bidCount ← checkedAdd 256 job.bidCount 1
  let s := s.setJob jobId { job with bidCount := bidCount }
  pure { w with state := s.emit (.bidSubmitted jobId env.sender bidAmount collateralAmount
    reputationAtBid specialization estimatedCompletionTime) }

/-- The part of `updateBid` that charges a higher collateral, or refunds a lower one. -/
def settleCollateral (oldCollateral newCollateral : ℕ) (w : World State) : Tx (World State) :=
  if oldCollateral < newCollateral then
    transferGuard env env.sender this (newCollateral - oldCollateral) w
  else if newCollateral < oldCollateral then
    transferGuard env this env.sender (oldCollateral - newCollateral) w
  else pure w

/-- `updateBid`. -/
def updateBid (jobId newBidAmount newCollateralAmount newEstimatedCompletionTime : ℕ)
    (w : World State) : Tx (World State) := do
  whenNotPaused w.state
  let job := w.state.jobs jobId
  require (job.jobId ≠ 0) "AuditAuction: job does not exist"
  require (job.status = .auctionOpen) "AuditAuction: job not open"
  require (env.timestamp < job.auctionDeadline) "AuditAuction: auction expired"
  require (w.state.hasAgentBid jobId env.sender = true) "AuditAuction: no existing bid"
  require (MIN_BID_COLLATERAL ≤ newCollateralAmount) "AuditAuction: collateral below minimum"
  require (newBidAmount ≤ job.budgetAvailable) "AuditAuction: bid exceeds budget"
  let (found, idx) := findBidIndex (w.state.jobBids jobId) env.sender
  require (found = true) "AuditAuction: bid not found"
  let existingBid := (w.state.jobBids jobId).getD idx AgentBid.zero
  require (existingBid.status = .pending) "AuditAuction: bid already settled"
  require (newBidAmount < existingBid.bidAmount) "AuditAuction: new bid must be lower"
  let w ← settleCollateral this env existingBid.collateralLocked newCollateralAmount w
  readRegistry env w.state
  let reputationAtUpdate := env.getAgentReputation env.sender
  let s := w.state.setBids jobId ((w.state.jobBids jobId).set idx { existingBid with
    bidAmount := newBidAmount
    collateralLocked := newCollateralAmount
    reputationAtBid := reputationAtUpdate
    estimatedCompletionTime := if 0 < newEstimatedCompletionTime then newEstimatedCompletionTime
      else existingBid.estimatedCompletionTime
    timestamp := env.timestamp })
  pure { w with state := s.emit (.bidUpdated jobId env.sender existingBid.bidAmount newBidAmount
    newCollateralAmount reputationAtUpdate) }

/-- A transfer out of the contract, unless the amount is zero. -/
def pay (recipient : Address) (amount : ℕ) (w : World State) : Tx (World State) :=
  if 0 < amount then transferGuard env this recipient amount w else pure w

/-- The body of the loop of `cancelJob` and of the second loop of `selectWinners`: a pending bid is
refunded. -/
def refundBid (jobId : ℕ) (bid : AgentBid) (w : World State) : Tx (AgentBid × World State) :=
  if bid.status = .pending then do
    let collateral := bid.collateralLocked
    let bid := { bid with status := .refunded }
    if 0 < collateral then do
      let w ← transferGuard env this bid.agent collateral w
      pure ({ bid with collateralLocked := 0 }, emit (.bidRefunded jobId bid.agent collateral) w)
    else pure (bid, w)
  else pure (bid, w)

/-- The loop over the bids of a job. -/
def refundBids (jobId : ℕ) : List AgentBid → World State → Tx (List AgentBid × World State)
  | [], w => pure ([], w)
  | bid :: bids, w => do
    let (bid, w) ← refundBid this env jobId bid w
    let (bids, w) ← refundBids jobId bids w
    pure (bid :: bids, w)

/-- `selectWinners`. -/
def selectWinners (jobId : ℕ) (winningBidIndices : List ℕ) (w : World State) :
    Tx (World State) := do
  let acc ← acceptBids env jobId winningBidIndices w.state
  let job := w.state.jobs jobId
  let product ← checkedMul 256 acc.totalWinningBidAmount w.state.platformFeePercent
  let platformFee := product / 100
  let w ← pay this env w.state.treasury platformFee w
  let totalEscrowedAmount ← checkedSub acc.totalWinningBidAmount platformFee
  let s := w.state.setJob jobId { job with
    winningAgents := acc.winningAgents
    totalEscrowedAmount := totalEscrowedAmount
    status := .auditingInProgress }
  let (bids, w) ← refundBids this env jobId acc.bids { w with state := s }
  let s := w.state.setBids jobId bids
  pure { w with state := s.emit (.winnersSelected jobId acc.winningAgents totalEscrowedAmount
    platformFee) }

/-- The checks of `releaseEscrow` and `slashAgentBid` on the winner `agent`, with the place of its bid. -/
def findAccepted (jobId : ℕ) (agent : Address) (s : State) : Tx (ℕ × AgentBid) := do
  require (s.isWinnerPaid jobId agent = false) "AuditAuction: winner already paid"
  let (found, bidIndex) := findBidIndex (s.jobBids jobId) agent
  require (found = true) "AuditAuction: bid not found"
  let bid := (s.jobBids jobId).getD bidIndex AgentBid.zero
  require (bid.status = .accepted) "AuditAuction: bid not accepted"
  pure (bidIndex, bid)

/-- `releaseEscrow`. -/
def releaseEscrow (jobId : ℕ) (agent : Address)
    (payment bonus validFindings falsePos falseNeg : ℕ) (w : World State) : Tx (World State) := do
  onlyOrchestrator env w.state
  whenNotPaused w.state
  let job := w.state.jobs jobId
  requireInProgress job
  let (bidIndex, bid) ← findAccepted jobId agent w.state
  let payout ← checkedAdd 256 payment bonus
  require (payout ≤ job.totalEscrowedAmount) "AuditAuction: insufficient escrow"
  let w ← pay this env agent payout w
  let totalEscrowedAmount ← checkedSub job.totalEscrowedAmount payout
  let s := w.state.setJob jobId { job with totalEscrowedAmount := totalEscrowedAmount }
  let collateralReturned := bid.collateralLocked
  let s := s.setBids jobId ((s.jobBids jobId).set bidIndex { bid with collateralLocked := 0 })
  let w ← pay this env agent collateralReturned { w with state := s }
  let paidWinnerCount ← checkedAdd 256 (w.state.paidWinnerCount jobId) 1
  let isPaid := Function.update (w.state.isWinnerPaid jobId) agent true
  let s := { w.state with
    isWinnerPaid := Function.update w.state.isWinnerPaid jobId isPaid
    paidWinnerCount := Function.update w.state.paidWinnerCount jobId paidWinnerCount }
  let s ← tryRegistry env jobId agent (.recordJobCompletion agent validFindings falsePos falseNeg) s
  pure { w with state := s.emit (.escrowReleased jobId agent payment bonus collateralReturned) }

/-- `slashAgentBid`. -/
def slashAgentBid (jobId : ℕ) (agent : Address) (slashBasisPoints : ℕ) (w : World State) :
    Tx (World State) := do
  onlyOrchestrator env w.state
  whenNotPaused w.state
  requireInProgress (w.state.jobs jobId)
  require (slashBasisPoints = 500 ∨ slashBasisPoints = 1000 ∨ slashBasisPoints = 10000)
    "AuditAuction: invalid slash bps"
  let (bidIndex, bid) ← findAccepted jobId agent w.state
  let collateral := bid.collateralLocked
  require (0 < collateral) "AuditAuction: no collateral to slash"
  let product ← checkedMul 256 collateral slashBasisPoints
  let slashedAmount := product / 10000
  let remainder ← checkedSub collateral slashedAmount
  let s := w.state.setBids jobId ((w.state.jobBids jobId).set bidIndex { bid with
    collateralLocked := 0
    status := .refunded })
  let w ← pay this env s.treasury slashedAmount { w with state := s }
  let w ← pay this env agent remainder w
  let s ← tryRegistry env jobId agent (.slashAgent agent slashBasisPoints) w.state
  pure { w with state := s.emit (.agentSlashed jobId agent slashedAmount slashBasisPoints) }

/-- `cancelJob`. -/
def cancelJob (jobId : ℕ) (w : World State) : Tx (World State) := do
  onlyOrchestrator env w.state
  whenNotPaused w.state
  let job := w.state.jobs jobId
  require (job.jobId ≠ 0) "AuditAuction: job does not exist"
  require (job.status = .auctionOpen) "AuditAuction: only open jobs cancellable"
  let (bids, w) ← refundBids this env jobId (w.state.jobBids jobId) w
  let s := w.state.setBids jobId bids
  let s := s.setJob jobId { job with status := .cancelled }
  let s := removeActiveJob jobId s
  pure { w with state := s.emit (.jobCancelled jobId) }

/-- The owner's functions. -/
inductive AdminCall
  | setAgentRegistry (agentRegistry : Address)
  | setAuditScheduler (auditScheduler : Address)
  | setOrchestrator (orchestrator : Address)
  | setTreasury (treasury : Address)
  | setPlatformFeePercent (feePercent : UInt 256)
  | transferOwnership (newOwner : Address)
  | renounceOwnership

/-- The owner's functions, behind `onlyOwner`. -/
def execAdmin (c : AdminCall) (s : State) : Tx State := do
  modifier (env.sender = s.owner) "OwnableUnauthorizedAccount"
  match c with
  | .setAgentRegistry agentRegistry => do
    require (agentRegistry ≠ 0) "AuditAuction: registry is zero"
    require (s.agentRegistry = 0) "AuditAuction: registry already set"
    pure { s with agentRegistry := agentRegistry }
  | .setAuditScheduler auditScheduler => do
    require (auditScheduler ≠ 0) "AuditAuction: scheduler is zero"
    pure ({ s with auditScheduler := auditScheduler }.emit (.auditSchedulerSet auditScheduler))
  | .setOrchestrator orchestrator => do
    require (orchestrator ≠ 0) "AuditAuction: orchestrator is zero"
    pure { s with orchestrator := orchestrator }
  | .setTreasury treasury => do
    require (treasury ≠ 0) "AuditAuction: treasury is zero"
    pure { s with treasury := treasury }
  | .setPlatformFeePercent feePercent => do
    require ((feePercent : ℕ) ≤ 10) "AuditAuction: fee exceeds maximum"
    pure { s with platformFeePercent := feePercent }
  | .transferOwnership newOwner => do
    modifier (newOwner ≠ 0) "OwnableInvalidOwner"
    pure { s with owner := newOwner }
  | .renounceOwnership => pure { s with owner := 0 }

/-- `associateGuardToken`. -/
def associateGuardToken (s : State) : Tx State := do
  require (env.associateAnswer = Hts.HTS_SUCCESS ∨
    env.associateAnswer = Hts.HTS_TOKEN_ALREADY_ASSOCIATED) "AuditAuction: token association failed"
  pure (s.emit (.guardTokenAssociated s.guardToken))

/-- The state-changing external functions with their arguments. -/
inductive Call
  | createAuditJob (contractAddress : Address) (contractChain contractType : String)
      (initialRiskScore budgetAvailable lineCount auctionDurationSeconds : UInt 256)
  | submitBid (jobId bidAmount collateralAmount estimatedCompletionTime : UInt 256)
      (specialization : String)
  | updateBid (jobId newBidAmount newCollateralAmount newEstimatedCompletionTime : UInt 256)
  | selectWinners (jobId : UInt 256) (winningBidIndices : List (UInt 256))
  | releaseEscrow (jobId : UInt 256) (agent : Address)
      (payment bonus validFindings falsePos falseNeg : UInt 256)
  | slashAgentBid (jobId : UInt 256) (agent : Address) (slashBasisPoints : UInt 256)
  | completeJob (jobId : UInt 256)
  | cancelJob (jobId : UInt 256)
  | pause
  | unpause
  | associateGuardToken
  | admin (c : AdminCall)

/-- One call. No function is payable, so that a message with HBAR is refused. -/
def exec (c : Call) (w : World State) : Tx (World State) :=
  if env.value ≠ 0 then .error .callFailed
  else match c with
  | .createAuditJob contractAddress contractChain contractType initialRiskScore budgetAvailable
      lineCount auctionDurationSeconds =>
    onState (createAuditJob env contractAddress contractChain contractType initialRiskScore
      budgetAvailable lineCount auctionDurationSeconds) w
  | .submitBid jobId bidAmount collateralAmount estimatedCompletionTime specialization =>
    submitBid this env jobId bidAmount collateralAmount estimatedCompletionTime specialization w
  | .updateBid jobId newBidAmount newCollateralAmount newEstimatedCompletionTime =>
    updateBid this env jobId newBidAmount newCollateralAmount newEstimatedCompletionTime w
  | .selectWinners jobId winningBidIndices =>
    selectWinners this env jobId (winningBidIndices.map Fin.val) w
  | .releaseEscrow jobId agent payment bonus validFindings falsePos falseNeg =>
    releaseEscrow this env jobId agent payment bonus validFindings falsePos falseNeg w
  | .slashAgentBid jobId agent slashBasisPoints => slashAgentBid this env jobId agent slashBasisPoints w
  | .completeJob jobId => onState (completeJob env jobId) w
  | .cancelJob jobId => cancelJob this env jobId w
  | .pause => onState (pause env) w
  | .unpause => onState (unpause env) w
  | .associateGuardToken => onState (associateGuardToken env) w
  | .admin c => onState (execAdmin env c) w

/-- The storage that the constructor leaves, with the initial values of the declarations. -/
def State.fresh (deployer guardToken agentRegistry orchestrator treasury : Address) : State where
  owner := deployer
  paused := false
  guardToken := guardToken
  agentRegistry := agentRegistry
  orchestrator := orchestrator
  treasury := treasury
  auditScheduler := 0
  platformFeePercent := 5
  nextJobId := 1
  jobs := fun _ => AuditJob.zero
  jobBids := fun _ => []
  hasAgentBid := fun _ _ => false
  activeJobIds := []
  isWinnerPaid := fun _ _ => false
  paidWinnerCount := fun _ => 0
  log := []
  sent := []

/-- The constructor, called by `deployer`. -/
def deploy (deployer guardToken agentRegistry orchestrator treasury : Address) : Tx State := do
  modifier (deployer ≠ 0) "OwnableInvalidOwner"
  require (guardToken ≠ 0) "AuditAuction: guard token is zero"
  require (orchestrator ≠ 0) "AuditAuction: orchestrator is zero"
  require (treasury ≠ 0) "AuditAuction: treasury is zero"
  pure (State.fresh deployer guardToken agentRegistry orchestrator treasury)

/-- The contract, at the address `this`. -/
def contract : Contract State Env Call where
  this := this
  fresh s := ∃ deployer guardToken agentRegistry orchestrator treasury,
    deploy deployer guardToken agentRegistry orchestrator treasury = .ok s
  msg := Env.toMsg
  exec := exec this

variable {this} in
theorem fresh_state_eq {s : State} (h : (contract this).fresh s) :
    ∃ deployer guardToken agentRegistry orchestrator treasury,
      s = State.fresh deployer guardToken agentRegistry orchestrator treasury := by
  obtain ⟨deployer, guardToken, agentRegistry, orchestrator, treasury, h⟩ := h
  simp only [deploy, bind_eq_ok, modifier_eq_ok, require_eq_ok, pure_eq_ok] at h
  obtain ⟨_, -, _, -, _, -, _, -, h⟩ := h
  exact ⟨deployer, guardToken, agentRegistry, orchestrator, treasury, h.symm⟩

/-! ## A sample auction

The contract at address 1, deployed by 9, with GUARD at 7, the agent registry at 6, the orchestrator 5 and
the treasury 10. The agents 2 and 3 hold tokens, and every outside condition is met. -/

/-- The auction at its deployment. -/
def sampleWorld : World State where
  state := State.fresh 9 7 6 5 10
  token := ((Ledger.single 2 (2 * 10^12) TokenLedger.two_trillion_lt).transfer 2 3 (10^12)).getD
    (Ledger.single 2 0 TokenLedger.zero_lt)
  now := 0

/-- A call without HBAR, of which everything outside succeeds. -/
def sampleEnv (sender : Address) (timestamp : ℕ) : Env where
  sender := sender
  value := 0
  timestamp := timestamp
  hasCode := fun _ => true
  isActiveAgent := fun _ => true
  getAgentReputation := fun _ => 5000
  registryRefusal := none
  transferAnswer := Hts.HTS_SUCCESS
  associateAnswer := Hts.HTS_SUCCESS

theorem sample_run (calls : List (Env × Call)) (hs : (contract 1).Scheduled 0 calls)
    (h : ((contract 1).execAll calls sampleWorld).isOk = true) :
    ∃ ts w, (contract 1).execAll calls sampleWorld = .ok w ∧ (contract 1).system.Run ts w ∧
      (contract 1).trace calls sampleWorld = .ok ts :=
  Contract.exists_run ⟨9, 7, 6, 5, 10, rfl⟩ hs h

/-- Two jobs. The agents 2 and 3 bid for the first one, and 3 also for the second one. Then 2 wins the first
job, and is paid. -/
def twoJobsCalls : List (Env × Call) := [
  (sampleEnv 5 0, .createAuditJob 4 "hedera" "token" 10 (200 * 10^8) 100 60),
  (sampleEnv 5 0, .createAuditJob 4 "hedera" "token" 10 (200 * 10^8) 100 60),
  (sampleEnv 2 1, .submitBid 1 (110 * 10^8) (60 * 10^8) 100 "defi"),
  (sampleEnv 3 1, .submitBid 1 (90 * 10^8) (60 * 10^8) 100 "defi"),
  (sampleEnv 2 2, .updateBid 1 (100 * 10^8) (50 * 10^8) 0),
  (sampleEnv 3 2, .submitBid 2 (100 * 10^8) (100 * 10^8) 100 "defi"),
  (sampleEnv 5 61, .selectWinners 1 [0]),
  (sampleEnv 5 62, .releaseEscrow 1 2 (95 * 10^8) 0 1 0 0)]

end AuditGuard.AuditAuction
