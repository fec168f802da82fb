import AuditGuard.StakingManager.Model

/-!
# The iNFTs of audit jobs and agents

The metadata of an Audit Job iNFT and of an Agent Profile iNFT, as far as the handlers of the event listener read and
write them, and what the functions of `packages/inft/src/inft-service.js` do to the metadata that they load and save.
Timestamps are left out. Amounts of GUARD are the rational numbers that the 8-decimal integers of the contracts stand
for.

A status, a reason and a state is written as a string in the metadata. They are enumerations here, with the contract's
own where the listener copies one.
-/

namespace AuditGuard.Inft

open StakingManager

/-- `Number(amount) / 1e8`. -/
def toGuard (amount : ℕ) : ℚ := amount / 10^8

/-! ## Agent profiles -/

/-- An entry of `staking.history`. -/
structure StakingSnapshot where
  action : String
  totalStaked : ℚ
  lockedStake : ℚ
  availableStake : ℚ
  status : StakeStatus
deriving DecidableEq

/-- `staking`. -/
structure Staking where
  totalStaked : ℚ
  lockedStake : ℚ
  availableStake : ℚ
  unbondingAmount : ℚ
  /-- In seconds, none where the metadata has `null`. -/
  unbondingCompleteAt : Option ℕ
  status : StakeStatus
  history : List StakingSnapshot
deriving DecidableEq

/-- What `updateAgentStakingDetails` and the handlers take where a profile has no `staking`. -/
def Staking.empty : Staking := ⟨0, 0, 0, 0, none, .active, []⟩

/-- The fields of a staking update. -/
structure StakingUpdate where
  totalStaked : Option ℚ := none
  lockedStake : Option ℚ := none
  availableStake : Option ℚ := none
  unbondingAmount : Option ℚ := none
  unbondingCompleteAt : Option (Option ℕ) := none
  status : Option StakeStatus := none
  action : String

/-- The given fields over those that were there, with a snapshot of the result. -/
def Staking.update (staking : Staking) (u : StakingUpdate) : Staking :=
  let merged := { staking with
    totalStaked := u.totalStaked.getD staking.totalStaked
    lockedStake := u.lockedStake.getD staking.lockedStake
    availableStake := u.availableStake.getD staking.availableStake
    unbondingAmount := u.unbondingAmount.getD staking.unbondingAmount
    unbondingCompleteAt := u.unbondingCompleteAt.getD staking.unbondingCompleteAt
    status := u.status.getD staking.status }
  let snapshot := ⟨u.action, merged.totalStaked, merged.lockedStake, merged.availableStake, merged.status⟩
  -- The last 50 entries are kept.
  { merged with history := (merged.history ++ [snapshot]).drop (merged.history.length + 1 - 50) }

/-- `economics`. -/
structure Economics where
  stakedAmount : ℚ
  totalEarned : ℚ
  totalSlashed : ℚ
deriving DecidableEq

/-- An entry of `performance.jobHistory`. -/
structure JobHistoryEntry where
  jobId : ℕ
  role : String
  payment : ℚ
  validFindings : ℕ
  reputationDelta : ℤ
deriving DecidableEq

/-- `performance`. -/
structure Performance where
  completedJobs : ℕ
  successfulFindings : ℕ
  falsePositives : ℕ
  falseNegatives : ℕ
  accuracyRate : ℚ
  auctionsWon : ℕ
  auctionsParticipated : ℕ
  winRate : ℚ
  jobHistory : List JobHistoryEntry
deriving DecidableEq

/-- The counters that an update adds to `performance`. -/
structure PerformanceUpdate where
  completedJobs : ℕ := 0
  auctionsWon : ℕ := 0
  auctionsParticipated : ℕ := 0

/-- An update for `updateAgentMetrics`; what is absent adds nothing. -/
structure MetricsUpdate where
  performance : Option PerformanceUpdate := none
  totalEarned : ℚ := 0
  totalSlashed : ℚ := 0
  jobHistoryEntry : Option JobHistoryEntry := none

/-- Adds the counters and recomputes the derived fields. -/
def Performance.add (p : Performance) (u : PerformanceUpdate) : Performance :=
  let p := { p with
    completedJobs := p.completedJobs + u.completedJobs
    auctionsWon := p.auctionsWon + u.auctionsWon
    auctionsParticipated := p.auctionsParticipated + u.auctionsParticipated }
  let totalFindings := p.successfulFindings + p.falsePositives + p.falseNegatives
  { p with
    accuracyRate := if 0 < totalFindings then p.successfulFindings / totalFindings * 100 else 0
    winRate := if 0 < p.auctionsParticipated then p.auctionsWon / p.auctionsParticipated * 100 else 0 }

/-- An entry of `reputation.history`. -/
structure ReputationChange where
  delta : ℤ
  newScore : ℤ
  reason : String
  jobId : Option ℕ
deriving DecidableEq

/-- `reputation.trend`. -/
inductive Trend
  | rising
  | declining
  | stable
deriving DecidableEq

/-- `reputation`. -/
structure Reputation where
  current : ℤ
  history : List ReputationChange
  trend : Trend
  peakScore : ℤ
deriving DecidableEq

/-- Changes the score by `delta` within its bounds. -/
def Reputation.change (r : Reputation) (delta : ℤ) (reason : String) (jobId : ℕ) : Reputation :=
  let newScore := max 0 (min 10000 (r.current + delta))
  let history := r.history ++ [⟨delta, newScore, reason, if jobId = 0 then none else some jobId⟩]
  let recent := history.drop (history.length - 10)
  let totalDelta := (recent.map ReputationChange.delta).sum
  { current := newScore
    history := history
    -- The trend is that of the last ten changes, once there are three.
    trend := if 3 ≤ recent.length then
      if 100 < totalDelta then .rising else if totalDelta < -100 then .declining else .stable
      else r.trend
    peakScore := if r.peakScore < newScore then newScore else r.peakScore }

/-- An entry of `slashHistory`. -/
structure SlashEntry where
  slashId : ℕ
  jobId : ℕ
  subJobId : ℕ
  reason : SlashReason
  slashBasisPoints : ℕ
  slashedAmount : ℚ
  evidenceHash : Evm.UInt 256
  slashedBy : String
  appealStatus : AppealStatus
  appealReason : Option String
deriving DecidableEq

/-- The metadata of an Agent Profile iNFT. -/
structure AgentProfile where
  agentAddress : Evm.Address
  reputation : Reputation
  performance : Performance
  economics : Economics
  /-- None in profiles that were stored before the field was introduced. -/
  staking : Option Staking
  slashHistory : List SlashEntry
deriving DecidableEq

namespace AgentProfile

/-- `mintAgentProfileINFT`: the profile of an agent that registers. -/
def mint (agentAddress : Evm.Address) (stakedAmount : ℚ) (initialReputation : ℤ) : AgentProfile :=
  let score := if initialReputation = 0 then 5000 else initialReputation
  { agentAddress := agentAddress
    reputation := ⟨score, [⟨score, score, "seed_initial", none⟩], .stable, score⟩
    performance := ⟨0, 0, 0, 0, 0, 0, 0, 0, []⟩
    economics := ⟨stakedAmount, 0, 0⟩
    staking := some ⟨stakedAmount, 0, stakedAmount, 0, none, .active, []⟩
    slashHistory := [] }

/-- `updateAgentReputation`. -/
def updateAgentReputation (delta : ℤ) (reason : String) (jobId : ℕ) (p : AgentProfile) : AgentProfile :=
  { p with reputation := p.reputation.change delta reason jobId }

/-- `updateAgentStakingDetails`, which keeps `economics.stakedAmount` in sync. -/
def updateAgentStakingDetails (u : StakingUpdate) (p : AgentProfile) : AgentProfile :=
  { p with
    staking := some ((p.staking.getD .empty).update u)
    economics := { p.economics with stakedAmount := u.totalStaked.getD p.economics.stakedAmount } }

/-- `recordSlashOnAgent`. -/
def recordSlashOnAgent (record : SlashEntry) (p : AgentProfile) : AgentProfile :=
  { p with
    slashHistory := p.slashHistory ++ [{ record with appealStatus := .pending, appealReason := none }]
    economics := { p.economics with
      totalSlashed := p.economics.totalSlashed + record.slashedAmount
      stakedAmount := max 0 (p.economics.stakedAmount - record.slashedAmount) } }

/-- `updateSlashAppeal`, on the first record of the slash. -/
def updateSlashAppeal (slashId : ℕ) (appealStatus : AppealStatus) (appealReason : Option String) (restoredAmount : ℚ)
    (p : AgentProfile) : AgentProfile :=
  match p.slashHistory.findIdx? (·.slashId = slashId) with
  | none => p
  | some i =>
    let p := { p with slashHistory := p.slashHistory.modify i fun record => { record with
      appealStatus := appealStatus
      appealReason := (appealReason.filter (· ≠ "")).or record.appealReason } }
    if appealStatus = .approved ∧ restoredAmount ≠ 0 then
      { p with economics := { p.economics with
        totalSlashed := max 0 (p.economics.totalSlashed - restoredAmount)
        stakedAmount := p.economics.stakedAmount + restoredAmount } }
    else p

/-- `updateAgentMetrics`. -/
def updateAgentMetrics (u : MetricsUpdate) (p : AgentProfile) : AgentProfile :=
  let performance := match u.performance with
    | none => p.performance
    | some added => p.performance.add added
  { p with
    performance := { performance with jobHistory := performance.jobHistory ++ u.jobHistoryEntry.toList }
    economics := { p.economics with
      totalEarned := p.economics.totalEarned + u.totalEarned
      totalSlashed := p.economics.totalSlashed + u.totalSlashed } }

end AgentProfile

/-! ## Audit jobs -/

/-- `AuditJobState`. -/
inductive AuditJobState
  | discovered
  | auctionOpen
  | biddingClosed
  | auditingInProgress
  | reportPending
  | completed
  | vulnerabilitiesActive
  | remediationVerified
  | monitoringActive
  | cancelled
deriving DecidableEq

namespace AuditJobState

/-- The state's name in the metadata. -/
def name : AuditJobState → String
  | discovered => "DISCOVERED"
  | auctionOpen => "AUCTION_OPEN"
  | biddingClosed => "BIDDING_CLOSED"
  | auditingInProgress => "AUDITING_IN_PROGRESS"
  | reportPending => "REPORT_PENDING"
  | completed => "COMPLETED"
  | vulnerabilitiesActive => "VULNERABILITIES_ACTIVE"
  | remediationVerified => "REMEDIATION_VERIFIED"
  | monitoringActive => "MONITORING_ACTIVE"
  | cancelled => "CANCELLED"

/-- The table of `_validateAuditJobTransition`. -/
def allowed : AuditJobState → List AuditJobState
  | discovered => [auctionOpen, cancelled]
  | auctionOpen => [biddingClosed, auditingInProgress, cancelled]
  | biddingClosed => [auditingInProgress, cancelled]
  | auditingInProgress => [reportPending, completed]
  | reportPending => [completed]
  | completed => [vulnerabilitiesActive, monitoringActive]
  | vulnerabilitiesActive => [remediationVerified, monitoringActive]
  | remediationVerified => [monitoringActive]
  | monitoringActive => [auctionOpen]
  | cancelled => []

end AuditJobState

/-- An entry of `state.history`; the first one comes from none. -/
structure StateChange where
  source : Option AuditJobState
  target : AuditJobState
  trigger : String
deriving DecidableEq

/-- An entry of `participants`. -/
structure Participant where
  agentAddress : Evm.Address
  role : String
  specialization : String
  bidAmount : ℚ
  reputationAtBid : ℕ
deriving DecidableEq

/-- `auction`, or an update of it. -/
structure Auction where
  deadline : Option ℕ := none
  budgetGuard : Option ℚ := none
  totalBids : Option ℕ := none
  winningAgents : Option (List Evm.Address) := none
  platformFeePaid : Option ℚ := none
deriving DecidableEq

/-- The fields of the update over those that were there. -/
def Auction.merge (auction update : Auction) : Auction where
  deadline := update.deadline.or auction.deadline
  budgetGuard := update.budgetGuard.or auction.budgetGuard
  totalBids := update.totalBids.or auction.totalBids
  winningAgents := update.winningAgents.or auction.winningAgents
  platformFeePaid := update.platformFeePaid.or auction.platformFeePaid

/-- An entry of `payments.breakdown`. -/
structure Payment where
  recipient : Evm.Address
  type : String
  amount : ℚ
deriving DecidableEq

/-- `payments`, or an update of it. -/
structure Payments where
  totalPaid : Option ℚ := none
  platformFee : Option ℚ := none
  breakdown : Option (List Payment) := none
deriving DecidableEq

/-- The fields of the update over those that were there. The list of the update takes the place of the one that was
there, and is then appended to itself. -/
def Payments.merge (payments update : Payments) : Payments where
  totalPaid := update.totalPaid.or payments.totalPaid
  platformFee := update.platformFee.or payments.platformFee
  breakdown := (update.breakdown.map fun entries => entries ++ entries).or payments.breakdown

/-- The metadata of an Audit Job iNFT. -/
structure AuditJob where
  /-- Zero as long as no job is known. -/
  jobId : ℕ
  /-- `target.contractAddress`. -/
  contractAddress : String
  /-- `state.current`. -/
  state : AuditJobState
  /-- `state.history`. -/
  history : List StateChange
  participants : List Participant
  auction : Option Auction
  payments : Option Payments
deriving DecidableEq

namespace AuditJob

/-- `mintAuditJobINFT`: the iNFT of a contract that was discovered. -/
def mint (jobId : ℕ) (contractAddress : String) : AuditJob where
  jobId := jobId
  contractAddress := contractAddress
  state := .discovered
  history := [⟨none, .discovered, "hcs_discovery_event"⟩]
  participants := []
  auction := none
  payments := none

/-- `transitionAuditJobState`, whose transition to the same state is one without effect. -/
def transitionAuditJobState (newState : AuditJobState) (trigger : String) (job : AuditJob) :
    Except String AuditJob :=
  if job.state = newState then .ok job
  else if newState ∈ job.state.allowed then
    .ok { job with state := newState, history := job.history ++ [⟨some job.state, newState, trigger⟩] }
  else .error ("Invalid state transition: " ++ job.state.name ++ " -> " ++ newState.name)

/-- `addJobParticipant`. -/
def addJobParticipant (participant : Participant) (job : AuditJob) : AuditJob :=
  { job with participants := job.participants ++ [participant] }

/-- `updateAuctionData`. -/
def updateAuctionData (update : Auction) (job : AuditJob) : AuditJob :=
  { job with auction := some ((job.auction.getD {}).merge update) }

/-- `updatePaymentData`. -/
def updatePaymentData (update : Payments) (job : AuditJob) : AuditJob :=
  { job with payments := some ((job.payments.getD {}).merge update) }

end AuditJob

end AuditGuard.Inft
