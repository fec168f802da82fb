import AuditGuard.Library.Contract

/-!
# SubAuction: storage and internal functions

The data of `SubAuction.sol` and its functions on storage alone. The array of a sub-job's bids is a list, and
a mapping is a function. The lists of sub-jobs by parent and by requester, which only views read, are left
out. Where a `uint256` field comes out of an operation, the operation makes the check that the compiler
makes.

Next to the storage are kept the log of emitted events, the reputation updates that the contract made in
`AgentRegistry`, and the transfers of GUARD that it made, each with the sub-job that it was made for.
-/

namespace AuditGuard.SubAuction

open Evm

/-- Minimum per-sub-bid collateral amount: 10 GUARD. -/
def MIN_SUB_COLLATERAL : ℕ := 10 * 10^8

/-- Minimum requester escrow per sub-job: 0.1 GUARD. -/
def MIN_PAYMENT : ℕ := 1 * 10^7

/-- Status of a sub-job in the nested marketplace lifecycle. -/
inductive SubJobStatus
  | opened
  | biddingClosed
  | inProgress
  | delivered
  | accepted
  | disputed
  | expired
  | cancelled
deriving DecidableEq

/-- Status of a sub-bid submitted by a subcontractor. -/
inductive SubBidStatus
  | pending
  | accepted
  | rejected
  | refunded
deriving DecidableEq

/-- A sub-job, linked to a job of the main auction. -/
structure SubJob where
  /-- Zero if the sub-job does not exist. -/
  subJobId : ℕ
  parentJobId : ℕ
  requester : Address
  taskDescription : String
  requiredSpecialization : String
  paymentAmount : ℕ
  slaDeadline : ℕ
  auctionDeadline : ℕ
  selectedAgent : Address
  status : SubJobStatus
  resultHash : UInt 256
  createdAt : ℕ
  completedAt : ℕ
deriving DecidableEq

/-- A sub-job that was never written. -/
def SubJob.zero : SubJob := ⟨0, 0, 0, "", "", 0, 0, 0, 0, .opened, 0, 0, 0⟩

/-- A subcontractor's bid. -/
structure SubBid where
  agent : Address
  subJobId : ℕ
  proposedPrice : ℕ
  estimatedTime : ℕ
  collateralLocked : ℕ
  status : SubBidStatus
  timestamp : ℕ
deriving DecidableEq

/-- A sub-bid that was never written. -/
def SubBid.zero : SubBid := ⟨0, 0, 0, 0, 0, .pending, 0⟩

/-- The contract's events. -/
inductive Event
  | subAuctionCreated (subJobId parentJobId : ℕ) (requester : Address)
      (taskDescription requiredSpecialization : String) (paymentAmount slaDeadline auctionDeadline : ℕ)
  | subBidSubmitted (subJobId : ℕ) (agent : Address)
      (proposedPrice collateralLocked estimatedTime : ℕ)
  | subContractorSelected (subJobId : ℕ) (agent : Address) (agreedPrice : ℕ)
  | resultDelivered (subJobId : ℕ) (agent : Address) (resultHash : UInt 256)
  | resultAccepted (subJobId paymentAmount : ℕ)
  | resultDisputed (subJobId : ℕ) (reason : String)
  | disputeResolved (subJobId : ℕ) (inFavorOfContractor : Bool)
  | subJobExpired (subJobId : ℕ) (agent : Address) (slashedAmount : ℕ)
  | subAuctionCancelled (subJobId : ℕ)
deriving DecidableEq

/-- A transfer of GUARD, with the sub-job that it was made for. -/
structure Transfer where
  subJobId : ℕ
  src : Address
  dst : Address
  amount : ℕ
deriving DecidableEq

/-- The contract's storage, with the logs of what it did outside. -/
structure State where
  owner : Address
  paused : Bool
  guardToken : Address
  agentRegistry : Address
  mainAuction : Address
  treasury : Address
  nextSubJobId : ℕ
  subJobs : ℕ → SubJob
  subBids : ℕ → List SubBid
  hasAgentSubBid : ℕ → Address → Bool
  /-- The events emitted so far, oldest first. -/
  log : List Event
  /-- The updates of reputations made so far, oldest first. -/
  updates : List (Address × ℤ)
  /-- The transfers made so far, oldest first. -/
  transfers : List Transfer

/-- What a call reads from outside the contract: its message, which addresses hold code, what the agent
registry reports and whether it takes an update, the winning agents of a job of the main auction if it
exists, the orchestrator of the main auction if it answers, and what HTS answers to the transfers and to the
association of the call. A transfer that HTS refuses reverts the call, so that one answer stands for all
transfers of a call. -/
structure Env extends Msg where
  hasCode : Address → Bool
  isActiveAgent : Address → Bool
  takesUpdate : Bool
  winningAgents : ℕ → Option (List Address)
  orchestrator : Option Address
  transferAnswer : ℤ
  associateAnswer : ℤ

namespace State

/-- Appends an event to the log. -/
@[simps -fullyApplied]
def emit (s : State) (e : Event) : State := { s with log := s.log ++ [e] }

/-- Appends a transfer to those that were made. -/
@[simps -fullyApplied]
def record (s : State) (t : Transfer) : State := { s with transfers := s.transfers ++ [t] }

/-- Writes a sub-job. -/
@[simps -fullyApplied]
def setSubJob (s : State) (subJobId : ℕ) (subJob : SubJob) : State :=
  { s with subJobs := Function.update s.subJobs subJobId subJob }

/-- Writes the bids of a sub-job. -/
@[simps -fullyApplied]
def setSubBids (s : State) (subJobId : ℕ) (bids : List SubBid) : State :=
  { s with subBids := Function.update s.subBids subJobId bids }

end State

/-- The modifier `whenNotPaused`. -/
def whenNotPaused (s : State) : Tx Unit := modifier (s.paused = false) "EnforcedPause"

/-- The modifier `onlyOwner`. -/
def onlyOwner (env : Env) (s : State) : Tx Unit :=
  modifier (env.sender = s.owner) "OwnableUnauthorizedAccount"

/-- `_getExistingSubJob`. -/
def getExistingSubJob (subJobId : ℕ) (s : State) : Tx SubJob := do
  require ((s.subJobs subJobId).subJobId ≠ 0) "SubAuction: sub-job does not exist"
  pure (s.subJobs subJobId)

/-- `_findSelectedBidIndex`, in the bids of a sub-job. -/
def findSelectedBidIndex (bids : List SubBid) (selectedAgent : Address) : Bool × ℕ :=
  match bids.findIdx? (·.agent = selectedAgent) with
  | some index => (true, index)
  | none => (false, 0)

/-- A call to `isActiveAgent` of the agent registry, which reverts if there is no code. -/
def readActiveAgent (env : Env) (agent : Address) (s : State) : Tx Bool :=
  if env.hasCode s.agentRegistry = true then .ok (env.isActiveAgent agent) else .error .callFailed

/-- A call to `updateReputation` of the agent registry. -/
def updateReputation (env : Env) (agent : Address) (delta : ℤ) (s : State) : Tx State :=
  if env.hasCode s.agentRegistry = true ∧ env.takesUpdate = true then
    .ok { s with updates := s.updates ++ [(agent, delta)] }
  else .error .callFailed

/-- `_getMainAuctionOrchestrator`. -/
def getMainAuctionOrchestrator (env : Env) (s : State) : Tx Address := do
  require (s.mainAuction ≠ 0) "SubAuction: main auction is zero"
  let orchestrator ← orRevert (.require "SubAuction: orchestrator query failed") env.orchestrator
  require (orchestrator ≠ 0) "SubAuction: invalid orchestrator"
  pure orchestrator

/-- `deliverResult`. -/
def deliverResult (env : Env) (subJobId : ℕ) (resultHash : UInt 256) (s : State) : Tx State := do
  whenNotPaused s
  let subJob ← getExistingSubJob subJobId s
  require (env.sender = subJob.selectedAgent) "SubAuction: caller is not selected agent"
  require (subJob.status = .inProgress) "SubAuction: sub-job not in progress"
  require (env.timestamp ≤ subJob.slaDeadline) "SubAuction: SLA expired"
  require (resultHash ≠ 0) "SubAuction: empty result hash"
  let s := s.setSubJob subJobId { subJob with resultHash := resultHash, status := .delivered }
  pure (s.emit (.resultDelivered subJobId env.sender resultHash))

/-- `disputeResult`. -/
def disputeResult (env : Env) (subJobId : ℕ) (reason : String) (s : State) : Tx State := do
  whenNotPaused s
  let subJob ← getExistingSubJob subJobId s
  require (env.sender = subJob.requester) "SubAuction: caller is not requester"
  require (subJob.status = .delivered) "SubAuction: result not delivered"
  require (0 < reason.utf8ByteSize) "SubAuction: empty dispute reason"
  let s := s.setSubJob subJobId { subJob with status := .disputed }
  pure (s.emit (.resultDisputed subJobId reason))

/-- `setMainAuction`. -/
def setMainAuction (env : Env) (mainAuction : Address) (s : State) : Tx State := do
  onlyOwner env s
  require (mainAuction ≠ 0) "SubAuction: main auction is zero"
  pure { s with mainAuction := mainAuction }

/-- `setAgentRegistry`. -/
def setAgentRegistry (env : Env) (agentRegistry : Address) (s : State) : Tx State := do
  onlyOwner env s
  require (agentRegistry ≠ 0) "SubAuction: registry is zero"
  pure { s with agentRegistry := agentRegistry }

/-- `setTreasury`. -/
def setTreasury (env : Env) (treasury : Address) (s : State) : Tx State := do
  onlyOwner env s
  require (treasury ≠ 0) "SubAuction: treasury is zero"
  pure { s with treasury := treasury }

/-- `pause`. -/
def pause (env : Env) (s : State) : Tx State := do
  onlyOwner env s
  modifier (s.paused = false) "EnforcedPause"
  pure { s with paused := true }

/-- `unpause`. -/
def unpause (env : Env) (s : State) : Tx State := do
  onlyOwner env s
  modifier (s.paused = true) "ExpectedPause"
  pure { s with paused := false }

/-- `transferOwnership`. -/
def transferOwnership (env : Env) (newOwner : Address) (s : State) : Tx State := do
  onlyOwner env s
  modifier (newOwner ≠ 0) "OwnableInvalidOwner"
  pure { s with owner := newOwner }

/-- `renounceOwnership`. -/
def renounceOwnership (env : Env) (s : State) : Tx State := do
  onlyOwner env s
  pure { s with owner := 0 }

end AuditGuard.SubAuction
