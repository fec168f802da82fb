import AuditGuard.Library.Contract
import AuditGuard.Library.Listed

/-!
# AuditAuction: storage and internal functions

The data of `AuditAuction.sol` and its functions on storage alone. The arrays of bids and of active jobs
are lists, and a mapping is a function. Where a `uint256` field comes out of an operation, the operation
makes the check that the compiler makes.

Next to the storage are kept the log of emitted events, and the calls under `try` that the contract sent to
`AgentRegistry`.
-/

namespace AuditGuard.AuditAuction

open Evm

/-- Minimum per-bid collateral: 50 GUARD. -/
def MIN_BID_COLLATERAL : ℕ := 50 * 10^8

/-- Lifecycle status for an audit job. -/
inductive JobStatus
  | auctionOpen
  | biddingClosed
  | auditingInProgress
  | reportPending
  | completed
  | cancelled
deriving DecidableEq

/-- Lifecycle status for an agent bid. -/
inductive BidStatus
  | pending
  | accepted
  | rejected
  | refunded
deriving DecidableEq

/-- An audit job. -/
structure AuditJob where
  /-- Zero if the job does not exist. -/
  jobId : ℕ
  contractAddress : Address
  contractChain : String
  discoveryTimestamp : ℕ
  auctionDeadline : ℕ
  initialRiskScore : ℕ
  budgetAvailable : ℕ
  lineCount : ℕ
  contractType : String
  status : JobStatus
  winningAgents : List Address
  /-- What is left of the winners' pay. -/
  totalEscrowedAmount : ℕ
  bidCount : ℕ
deriving DecidableEq

/-- A job that was never written. -/
def AuditJob.zero : AuditJob := ⟨0, 0, "", 0, 0, 0, 0, 0, "", .auctionOpen, [], 0, 0⟩

/-- An agent's bid for a job. -/
structure AgentBid where
  agent : Address
  jobId : ℕ
  bidAmount : ℕ
  collateralLocked : ℕ
  reputationAtBid : ℕ
  estimatedCompletionTime : ℕ
  specialization : String
  status : BidStatus
  timestamp : ℕ
deriving DecidableEq

/-- A bid that was never written. -/
def AgentBid.zero : AgentBid := ⟨0, 0, 0, 0, 0, 0, "", .pending, 0⟩

/-- The contract's events. -/
inductive Event
  | jobPosted (jobId : ℕ) (contractAddress : Address) (contractChain contractType : String)
      (budgetAvailable auctionDeadline initialRiskScore lineCount : ℕ)
  | bidSubmitted (jobId : ℕ) (agent : Address) (bidAmount collateralLocked reputationAtBid : ℕ)
      (specialization : String) (estimatedCompletionTime : ℕ)
  | bidUpdated (jobId : ℕ) (agent : Address)
      (oldBidAmount newBidAmount collateralLocked reputationAtBid : ℕ)
  | winnersSelected (jobId : ℕ) (winners : List Address) (totalEscrowed platformFee : ℕ)
  | bidRefunded (jobId : ℕ) (agent : Address) (refundedCollateral : ℕ)
  | escrowReleased (jobId : ℕ) (agent : Address) (payment bonus collateralReturned : ℕ)
  | agentSlashed (jobId : ℕ) (agent : Address) (slashedAmount slashBasisPoints : ℕ)
  | jobCompleted (jobId : ℕ)
  | jobCancelled (jobId : ℕ)
  | guardTokenAssociated (token : Address)
  | auditSchedulerSet (auditScheduler : Address)
  | registryCallFailed (jobId : ℕ) (agent : Address) (reason : String)
deriving DecidableEq

/-- A call to the agent registry under `try`. -/
inductive RegistryCall
  | recordJobCompletion (agent : Address) (validFindings falsePos falseNeg : ℕ)
  | slashAgent (agent : Address) (slashBasisPoints : ℕ)
deriving DecidableEq

/-- The contract's storage, with the log of its events and of its calls under `try`. -/
structure State where
  owner : Address
  paused : Bool
  guardToken : Address
  agentRegistry : Address
  orchestrator : Address
  treasury : Address
  auditScheduler : Address
  platformFeePercent : ℕ
  nextJobId : ℕ
  jobs : ℕ → AuditJob
  jobBids : ℕ → List AgentBid
  hasAgentBid : ℕ → Address → Bool
  activeJobIds : List ℕ
  isWinnerPaid : ℕ → Address → Bool
  paidWinnerCount : ℕ → ℕ
  /-- The events emitted so far, oldest first. -/
  log : List Event
  /-- The calls under `try` made so far, oldest first. -/
  sent : List RegistryCall

/-- What a call reads from outside the contract: its message, which addresses hold code, what the agent
registry reports, the reason with which it refuses a call under `try`, if it does, and what HTS answers to
the transfers and to the association of the call. A transfer that HTS refuses reverts the call, so that one
answer stands for all transfers of a call. -/
structure Env extends Msg where
  hasCode : Address → Bool
  isActiveAgent : Address → Bool
  getAgentReputation : Address → ℕ
  registryRefusal : Option String
  transferAnswer : ℤ
  associateAnswer : ℤ

namespace State

/-- Appends an event to the log. -/
@[simps -fullyApplied]
def emit (s : State) (e : Event) : State := { s with log := s.log ++ [e] }

/-- Appends a call under `try` to those that were made. -/
@[simps -fullyApplied]
def send (s : State) (c : RegistryCall) : State := { s with sent := s.sent ++ [c] }

/-- Writes a job. -/
@[simps -fullyApplied]
def setJob (s : State) (jobId : ℕ) (job : AuditJob) : State :=
  { s with jobs := Function.update s.jobs jobId job }

/-- Writes the bids of a job. -/
@[simps -fullyApplied]
def setBids (s : State) (jobId : ℕ) (bids : List AgentBid) : State :=
  { s with jobBids := Function.update s.jobBids jobId bids }

end State

/-- The modifier `onlyOrchestrator`. -/
def onlyOrchestrator (env : Env) (s : State) : Tx Unit :=
  require (env.sender = s.orchestrator) "AuditAuction: caller is not orchestrator"

/-- The modifier `whenNotPaused`. -/
def whenNotPaused (s : State) : Tx Unit := modifier (s.paused = false) "EnforcedPause"

/-- A call that reads from the agent registry, which reverts if there is no code. -/
def readRegistry (env : Env) (s : State) : Tx Unit :=
  if env.hasCode s.agentRegistry = true then .ok () else .error .callFailed

/-- A call to the agent registry under `try`, about an agent of a job. It reverts only if there is no code;
a refusal is logged. -/
def tryRegistry (env : Env) (jobId : ℕ) (agent : Address) (c : RegistryCall) (s : State) : Tx State := do
  readRegistry env s
  let s := s.send c
  match env.registryRefusal with
  | none => pure s
  | some reason => pure (s.emit (.registryCallFailed jobId agent reason))

/-- `_findBidIndex`, in the bids of a job. -/
def findBidIndex (bids : List AgentBid) (agent : Address) : Bool × ℕ :=
  match bids.findIdx? (·.agent = agent) with
  | some index => (true, index)
  | none => (false, 0)

/-- `createAuditJob`. -/
def createAuditJob (env : Env) (contractAddress : Address) (contractChain contractType : String)
    (initialRiskScore budgetAvailable lineCount auctionDurationSeconds : ℕ) (s : State) : Tx State := do
  onlyOrchestrator env s
  whenNotPaused s
  require (contractAddress ≠ 0) "AuditAuction: contract address is zero"
  require (0 < contractChain.utf8ByteSize) "AuditAuction: empty contract chain"
  require (0 < contractType.utf8ByteSize) "AuditAuction: empty contract type"
  require (initialRiskScore ≤ 100) "AuditAuction: risk score out of range"
  require (0 < budgetAvailable) "AuditAuction: budget is zero"
  require (0 < auctionDurationSeconds) "AuditAuction: duration is zero"
  let jobId := s.nextJobId
  let nextJobId ← checkedAdd 256 s.nextJobId 1
  let auctionDeadline ← checkedAdd 256 env.timestamp auctionDurationSeconds
  let s := { s with nextJobId := nextJobId }
  let s := s.setJob jobId { s.jobs jobId with
    jobId := jobId
    contractAddress := contractAddress
    contractChain := contractChain
    discoveryTimestamp := env.timestamp
    auctionDeadline := auctionDeadline
    initialRiskScore := initialRiskScore
    budgetAvailable := budgetAvailable
    lineCount := lineCount
    contractType := contractType
    status := .auctionOpen }
  let s := { s with activeJobIds := s.activeJobIds ++ [jobId] }
  pure (s.emit (.jobPosted jobId contractAddress contractChain contractType budgetAvailable
    auctionDeadline initialRiskScore lineCount))

/-- What the first loop of `selectWinners` carries. -/
structure Selection where
  seenIndex : ℕ → Bool
  bids : List AgentBid
  winningAgents : List Address
  totalWinningBidAmount : ℕ

/-- The body of the first loop of `selectWinners`. -/
def selectBid (acc : Selection) (bidIndex : ℕ) : Tx Selection := do
  let bid ← orRevert (.require "AuditAuction: invalid bid index") acc.bids[bidIndex]?
  require (acc.seenIndex bidIndex = false) "AuditAuction: duplicate winning index"
  require (bid.status = .pending) "AuditAuction: bid not pending"
  let totalWinningBidAmount ← checkedAdd 256 acc.totalWinningBidAmount bid.bidAmount
  pure {
    seenIndex := Function.update acc.seenIndex bidIndex true
    bids := acc.bids.set bidIndex { bid with status := .accepted }
    winningAgents := acc.winningAgents ++ [bid.agent]
    totalWinningBidAmount := totalWinningBidAmount }

/-- The part of `selectWinners` before the fee. -/
def acceptBids (env : Env) (jobId : ℕ) (winningBidIndices : List ℕ) (s : State) : Tx Selection := do
  onlyOrchestrator env s
  whenNotPaused s
  let job := s.jobs jobId
  require (job.jobId ≠ 0) "AuditAuction: job does not exist"
  require (job.status = .auctionOpen ∨ job.status = .biddingClosed) "AuditAuction: invalid job status"
  require (0 < winningBidIndices.length) "AuditAuction: no winners provided"
  let acc ← winningBidIndices.foldlM selectBid
    ⟨fun _ => false, s.jobBids jobId, job.winningAgents, 0⟩
  require (acc.totalWinningBidAmount ≤ job.budgetAvailable) "AuditAuction: total exceeds budget"
  pure acc

/-- `_removeActiveJob`. -/
def removeActiveJob (jobId : ℕ) (s : State) : State :=
  { s with activeJobIds := SwapPop.remove jobId s.activeJobIds }

/-- The check that an audit of the job is under way. -/
def requireInProgress (job : AuditJob) : Tx Unit := do
  require (job.jobId ≠ 0) "AuditAuction: job does not exist"
  require (job.status = .auditingInProgress ∨ job.status = .reportPending)
    "AuditAuction: invalid job status"

/-- `completeJob`. -/
def completeJob (env : Env) (jobId : ℕ) (s : State) : Tx State := do
  onlyOrchestrator env s
  whenNotPaused s
  let job := s.jobs jobId
  requireInProgress job
  require (0 < job.winningAgents.length) "AuditAuction: no winners selected"
  require (s.paidWinnerCount jobId = job.winningAgents.length) "AuditAuction: unpaid winners remain"
  require (job.totalEscrowedAmount = 0) "AuditAuction: escrow not fully distributed"
  let s := s.setJob jobId { job with status := .completed }
  let s := removeActiveJob jobId s
  pure (s.emit (.jobCompleted jobId))

/-- `getJobStatus`. -/
def getJobStatus (jobId : ℕ) (s : State) : Tx JobStatus := do
  require ((s.jobs jobId).jobId ≠ 0) "AuditAuction: job does not exist"
  pure (s.jobs jobId).status

/-- `pause`. -/
def pause (env : Env) (s : State) : Tx State := do
  onlyOrchestrator env s
  modifier (s.paused = false) "EnforcedPause"
  pure { s with paused := true }

/-- `unpause`. -/
def unpause (env : Env) (s : State) : Tx State := do
  onlyOrchestrator env s
  modifier (s.paused = true) "ExpectedPause"
  pure { s with paused := false }

end AuditGuard.AuditAuction
