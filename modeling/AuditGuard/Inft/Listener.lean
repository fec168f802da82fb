import AuditGuard.Inft.Model
import AuditGuard.PaymentSettlement.Model

/-!
# The handlers of the event listener

What `packages/inft/src/event-listener.js` does on the events of `AuditAuction`, `PaymentSettlement` and
`StakingManager`. A handler loads and saves metadata, and throws where an iNFT is missing or a transition is not
allowed; what it has saved by then stays. `_pollAllContracts` catches and logs what a handler throws.

Left out are the Contract Health iNFT, which `JobCompleted` updates after the job, and the publication of state
transitions, which is the last thing that a handler does. Serial numbers start at 1, so that none is taken for a
missing one.
-/

namespace AuditGuard.Inft

open Evm StakingManager

/-- The indices of the listener, and the metadata in its storage. -/
structure Listener where
  /-- `_jobIndex`. -/
  jobIndex : ℕ → Option ℕ
  /-- `_agentIndex`, by the lower-case address. -/
  agentIndex : Address → Option ℕ
  /-- The serial numbers of the Audit Job iNFTs, in the order of the storage's index. -/
  jobSerials : List ℕ
  auditJobs : ℕ → Option AuditJob
  agentProfiles : ℕ → Option AgentProfile

/-- A handler: it may throw, and leaves what it has done by then. -/
abbrev Handler := ExceptT String (StateM Listener)

namespace Listener

/-- Saves the metadata of an Audit Job iNFT. -/
@[simps -fullyApplied]
def saveJob (l : Listener) (serial : ℕ) (job : AuditJob) : Listener :=
  { l with auditJobs := Function.update l.auditJobs serial (some job) }

/-- Saves the metadata of an Agent Profile iNFT. -/
@[simps -fullyApplied]
def saveProfile (l : Listener) (serial : ℕ) (profile : AgentProfile) : Listener :=
  { l with agentProfiles := Function.update l.agentProfiles serial (some profile) }

/-- Sets the entry of a job in the index. -/
@[simps -fullyApplied]
def link (l : Listener) (jobId serial : ℕ) : Listener :=
  { l with jobIndex := Function.update l.jobIndex jobId (some serial) }

/-- `findSerialBy("auditJob", "target.contractAddress", contractAddress)`. -/
def findByContract (l : Listener) (contractAddress : String) : Option ℕ :=
  l.jobSerials.find? fun serial => (l.auditJobs serial).any (·.contractAddress = contractAddress)

end Listener

/-! ## The functions of the service -/

/-- Loads, changes and saves the metadata of an Audit Job iNFT, unless the change throws. -/
def changeJob (serial : ℕ) (f : AuditJob → Except String AuditJob) : Handler Unit := do
  match (← get).auditJobs serial with
  | none => throw ("Audit Job iNFT #" ++ toString serial ++ " not found")
  | some metadata => match f metadata with
    | .error message => throw message
    | .ok metadata => modify (·.saveJob serial metadata)

/-- Loads, changes and saves the metadata of an Agent Profile iNFT. -/
def changeProfile (serial : ℕ) (f : AgentProfile → AgentProfile) : Handler Unit := do
  match (← get).agentProfiles serial with
  | none => throw ("Agent Profile iNFT #" ++ toString serial ++ " not found")
  | some metadata => modify (·.saveProfile serial (f metadata))

/-- `transitionAuditJobState`. -/
def transitionAuditJobState (serial : ℕ) (newState : AuditJobState) (trigger : String) : Handler Unit :=
  changeJob serial (·.transitionAuditJobState newState trigger)

/-- `addJobParticipant`. -/
def addJobParticipant (serial : ℕ) (participant : Participant) : Handler Unit :=
  changeJob serial fun job => .ok (job.addJobParticipant participant)

/-- `updateAuctionData`. -/
def updateAuctionData (serial : ℕ) (update : Auction) : Handler Unit :=
  changeJob serial fun job => .ok (job.updateAuctionData update)

/-- `updatePaymentData`. -/
def updatePaymentData (serial : ℕ) (update : Payments) : Handler Unit :=
  changeJob serial fun job => .ok (job.updatePaymentData update)

/-- `updateAgentReputation`. -/
def updateAgentReputation (serial : ℕ) (delta : ℤ) (reason : String) (jobId : ℕ) : Handler Unit :=
  changeProfile serial (·.updateAgentReputation delta reason jobId)

/-- `updateAgentStakingDetails`. -/
def updateAgentStakingDetails (serial : ℕ) (update : StakingUpdate) : Handler Unit :=
  changeProfile serial (·.updateAgentStakingDetails update)

/-- `recordSlashOnAgent`. -/
def recordSlashOnAgent (serial : ℕ) (record : SlashEntry) : Handler Unit :=
  changeProfile serial (·.recordSlashOnAgent record)

/-- `updateSlashAppeal`. -/
def updateSlashAppeal (serial slashId : ℕ) (appealStatus : AppealStatus) (appealReason : Option String)
    (restoredAmount : ℚ) : Handler Unit :=
  changeProfile serial (·.updateSlashAppeal slashId appealStatus appealReason restoredAmount)

/-- `updateAgentMetrics`. -/
def updateAgentMetrics (serial : ℕ) (update : MetricsUpdate) : Handler Unit :=
  changeProfile serial (·.updateAgentMetrics update)

/-! ## Events of AuditAuction -/

/-- What a handler does with the iNFT of a job, if the job is in the index. -/
def withJob (jobId : ℕ) (k : ℕ → Handler Unit) : Handler Unit := do
  match (← get).jobIndex jobId with
  | none => pure ()
  | some serial => k serial

/-- What a handler does with the iNFT of an agent, if the agent is in the index. -/
def withAgent (agent : Address) (k : ℕ → Handler Unit) : Handler Unit := do
  match (← get).agentIndex agent with
  | none => pure ()
  | some serial => k serial

/-- The metadata of an Agent Profile iNFT, if it is stored. -/
def loadProfile (serial : ℕ) : Handler (Option AgentProfile) := do
  pure ((← get).agentProfiles serial)

/-- `_onAuditAuction_JobPosted`, where `hex` writes an address as the events do. -/
def onJobPosted (hex : Address → String) (jobId : ℕ) (contractAddress : Address)
    (budgetAvailable auctionDeadline : ℕ) : Handler Unit := do
  let l ← get
  match (l.jobIndex jobId).or (l.findByContract (hex contractAddress)) with
  | none => pure ()
  | some serial => do
    modify (·.link jobId serial)
    match l.auditJobs serial with
    | none => pure ()
    | some metadata => modify (·.saveJob serial { metadata with jobId := jobId })
    transitionAuditJobState serial .auctionOpen "AuditAuction.JobPosted"
    updateAuctionData serial {
      deadline := some auctionDeadline
      budgetGuard := some (toGuard budgetAvailable)
      totalBids := some 0
      winningAgents := some []
      platformFeePaid := some 0 }

/-- The step of `_onAuditAuction_BidSubmitted` that counts the bid. -/
def countBid (serial : ℕ) : Handler Unit :=
  modify fun l => match l.auditJobs serial with
    | none => l
    | some metadata => match metadata.auction with
      | none => l
      | some auction => l.saveJob serial { metadata with
        auction := some { auction with totalBids := some (auction.totalBids.getD 0 + 1) } }

/-- `_onAuditAuction_BidSubmitted`. -/
def onBidSubmitted (jobId : ℕ) (agent : Address) (bidAmount reputationAtBid : ℕ) (specialization : String) :
    Handler Unit :=
  withJob jobId fun serial => do
    addJobParticipant serial {
      agentAddress := agent
      role := "primary_auditor"
      specialization := specialization
      bidAmount := toGuard bidAmount
      reputationAtBid := reputationAtBid }
    countBid serial
    withAgent agent fun agentSerial =>
      updateAgentMetrics agentSerial { performance := some { auctionsParticipated := 1 } }

/-- `_onAuditAuction_WinnersSelected`. -/
def onWinnersSelected (jobId : ℕ) (winners : List Address) (platformFee : ℕ) : Handler Unit :=
  withJob jobId fun serial => do
    transitionAuditJobState serial .auditingInProgress "AuditAuction.WinnersSelected"
    updateAuctionData serial {
      winningAgents := some winners
      platformFeePaid := some (toGuard platformFee) }
    winners.forM fun winner => withAgent winner fun agentSerial =>
      updateAgentMetrics agentSerial { performance := some { auctionsWon := 1 } }

/-- `_onAuditAuction_EscrowReleased`. -/
def onEscrowReleased (jobId : ℕ) (agent : Address) (payment bonus : ℕ) : Handler Unit :=
  withJob jobId fun serial => do
    let breakdown := ⟨agent, "main_audit", toGuard payment⟩ ::
      if 0 < bonus then [⟨agent, "bonus_unique_finding", toGuard bonus⟩] else []
    updatePaymentData serial { breakdown := some breakdown }
    withAgent agent fun agentSerial =>
      updateAgentMetrics agentSerial {
        performance := some { completedJobs := 1 }
        totalEarned := toGuard payment + toGuard bonus
        jobHistoryEntry := some ⟨jobId, "primary_auditor", toGuard payment + toGuard bonus, 0, 0⟩ }

/-- `_onAuditAuction_AgentSlashed`. -/
def onAgentSlashed (jobId : ℕ) (agent : Address) (slashedAmount slashBasisPoints : ℕ) : Handler Unit :=
  withAgent agent fun agentSerial => do
    updateAgentReputation agentSerial (-slashBasisPoints) "slash_penalty" jobId
    updateAgentMetrics agentSerial { totalSlashed := toGuard slashedAmount }

/-- `_onAuditAuction_JobCompleted`. -/
def onJobCompleted (jobId : ℕ) : Handler Unit :=
  withJob jobId fun serial => transitionAuditJobState serial .completed "AuditAuction.JobCompleted"

/-- `_onAuditAuction_JobCancelled`. -/
def onJobCancelled (jobId : ℕ) : Handler Unit :=
  withJob jobId fun serial => transitionAuditJobState serial .cancelled "AuditAuction.JobCancelled"

/-- The handlers of the events of `AuditAuction`; the other events have none. -/
def onAuditAuction (hex : Address → String) : AuditAuction.Event → Handler Unit
  | .jobPosted jobId contractAddress _ _ budgetAvailable auctionDeadline _ _ =>
    onJobPosted hex jobId contractAddress budgetAvailable auctionDeadline
  | .bidSubmitted jobId agent bidAmount _ reputationAtBid specialization _ =>
    onBidSubmitted jobId agent bidAmount reputationAtBid specialization
  | .winnersSelected jobId winners _ platformFee => onWinnersSelected jobId winners platformFee
  | .escrowReleased jobId agent payment bonus _ => onEscrowReleased jobId agent payment bonus
  | .agentSlashed jobId agent slashedAmount slashBasisPoints =>
    onAgentSlashed jobId agent slashedAmount slashBasisPoints
  | .jobCompleted jobId => onJobCompleted jobId
  | .jobCancelled jobId => onJobCancelled jobId
  | _ => pure ()

/-! ## Events of PaymentSettlement -/

/-- `_onPaymentSettlement_JobSettled`. -/
def onJobSettled (jobId totalDisbursed platformFee : ℕ) : Handler Unit :=
  withJob jobId fun serial => do
    updatePaymentData serial {
      totalPaid := some (toGuard totalDisbursed)
      platformFee := some (toGuard platformFee) }
    match (← get).auditJobs serial with
    | none => pure ()
    | some metadata =>
      if metadata.state ≠ .completed then
        transitionAuditJobState serial .completed "PaymentSettlement.JobSettled"

/-- The handlers of the events of `PaymentSettlement`; those of the others write no metadata. -/
def onPaymentSettlement : PaymentSettlement.Event → Handler Unit
  | .jobSettled _ jobId totalDisbursed platformFee _ _ => onJobSettled jobId totalDisbursed platformFee
  | _ => pure ()

/-! ## Events of StakingManager -/

/-- `repPenalties`, both by the number and by the name of the reason. -/
def repPenalties : SlashReason → ℤ
  | .falsePositive => 100
  | .falseNegative => 200
  | .maliciousReport => 5000
  | .slaViolation => 300
  | .collusion => 5000
  | .plagiarism => 2500

/-- `slash_` with the reason's name in lower case. -/
def slashReasonName : SlashReason → String
  | .falsePositive => "slash_false_positive"
  | .falseNegative => "slash_false_negative"
  | .maliciousReport => "slash_malicious_report"
  | .slaViolation => "slash_sla_violation"
  | .collusion => "slash_collusion"
  | .plagiarism => "slash_plagiarism"

/-- `agentData?.staking || {}`, whose missing fields are read as zero. -/
def currentStaking (agentSerial : ℕ) : Handler Staking := do
  pure (((← loadProfile agentSerial).bind AgentProfile.staking).getD .empty)

/-- `_onStakingManager_Staked`. -/
def onStaked (agent : Address) (newTotal : ℕ) : Handler Unit :=
  withAgent agent fun agentSerial =>
    updateAgentStakingDetails agentSerial {
      totalStaked := some (toGuard newTotal)
      availableStake := some (toGuard newTotal)
      status := some .active
      action := "stake" }

/-- `_onStakingManager_UnstakeRequested`. -/
def onUnstakeRequested (agent : Address) (amount completesAt : ℕ) : Handler Unit :=
  withAgent agent fun agentSerial => do
    let staking ← currentStaking agentSerial
    updateAgentStakingDetails agentSerial {
      availableStake := some (max 0 (staking.availableStake - toGuard amount))
      unbondingAmount := some (toGuard amount)
      unbondingCompleteAt := some (some completesAt)
      action := "unstake_request" }

/-- `_onStakingManager_UnstakeCompleted`. -/
def onUnstakeCompleted (agent : Address) (amount : ℕ) : Handler Unit :=
  withAgent agent fun agentSerial => do
    let staking ← currentStaking agentSerial
    let newTotal := max 0 (staking.totalStaked - toGuard amount)
    updateAgentStakingDetails agentSerial {
      totalStaked := some newTotal
      unbondingAmount := some 0
      unbondingCompleteAt := some none
      status := some (if newTotal = 0 then .withdrawn else .active)
      action := "unstake_complete" }

/-- `_onStakingManager_StakeLocked`. -/
def onStakeLocked (agent : Address) (amount : ℕ) : Handler Unit :=
  withAgent agent fun agentSerial => do
    let staking ← currentStaking agentSerial
    updateAgentStakingDetails agentSerial {
      lockedStake := some (staking.lockedStake + toGuard amount)
      availableStake := some (max 0 (staking.availableStake - toGuard amount))
      action := "lock" }

/-- `_onStakingManager_StakeUnlocked`. -/
def onStakeUnlocked (agent : Address) (amount : ℕ) : Handler Unit :=
  withAgent agent fun agentSerial => do
    let staking ← currentStaking agentSerial
    updateAgentStakingDetails agentSerial {
      lockedStake := some (max 0 (staking.lockedStake - toGuard amount))
      availableStake := some (staking.availableStake + toGuard amount)
      action := "unlock" }

/-- `_onStakingManager_SlashInitiated`. -/
def onSlashInitiated (slashId : ℕ) (agent : Address) (reason : SlashReason) (slashedAmount slashBasisPoints : ℕ)
    (evidenceHash : UInt 256) (jobId : ℕ) : Handler Unit :=
  withAgent agent fun agentSerial => do
    recordSlashOnAgent agentSerial {
      slashId := slashId
      jobId := jobId
      subJobId := 0
      reason := reason
      slashBasisPoints := slashBasisPoints
      slashedAmount := toGuard slashedAmount
      evidenceHash := evidenceHash
      slashedBy := "StakingManager"
      appealStatus := .pending
      appealReason := none }
    updateAgentReputation agentSerial (-repPenalties reason) (slashReasonName reason) jobId
    match (← loadProfile agentSerial).bind AgentProfile.staking with
    | none => pure ()
    | some staking =>
      let newTotal := max 0 (staking.totalStaked - toGuard slashedAmount)
      updateAgentStakingDetails agentSerial {
        totalStaked := some newTotal
        status := some (if slashBasisPoints = 10000 ∨ newTotal < 100 then .frozen else staking.status)
        action := "slash" }

/-- `_onStakingManager_AppealFiled`. -/
def onAppealFiled (slashId : ℕ) (agent : Address) (reason : String) : Handler Unit :=
  withAgent agent fun agentSerial => updateSlashAppeal agentSerial slashId .pending (some reason) 0

/-- `_onStakingManager_AppealApproved`. -/
def onAppealApproved (slashId : ℕ) (agent : Address) (restoredAmount : ℕ) : Handler Unit :=
  withAgent agent fun agentSerial => do
    updateSlashAppeal agentSerial slashId .approved none (toGuard restoredAmount)
    match ← loadProfile agentSerial with
    | none => pure ()
    | some agentData => do
      match agentData.slashHistory.find? (·.slashId = slashId) with
      | none => pure ()
      | some slashEntry =>
        updateAgentReputation agentSerial (repPenalties slashEntry.reason) "appeal_approved" slashEntry.jobId
      match agentData.staking with
      | none => pure ()
      | some staking =>
        let newTotal := staking.totalStaked + toGuard restoredAmount
        updateAgentStakingDetails agentSerial {
          totalStaked := some newTotal
          availableStake := some (staking.availableStake + toGuard restoredAmount)
          status := some (if 100 ≤ newTotal then .active else staking.status)
          action := "appeal_approved" }

/-- `_onStakingManager_AppealDenied`. -/
def onAppealDenied (slashId : ℕ) (agent : Address) : Handler Unit :=
  withAgent agent fun agentSerial => updateSlashAppeal agentSerial slashId .denied none 0

/-- `_onStakingManager_AgentDeactivating`. -/
def onAgentDeactivating (agent : Address) : Handler Unit :=
  withAgent agent fun agentSerial =>
    updateAgentStakingDetails agentSerial { status := some .unbonding, action := "deactivate" }

/-- The handlers of the events of `StakingManager`; the other events have none. -/
def onStakingManager : StakingManager.Event → Handler Unit
  | .staked agent _ newTotal => onStaked agent newTotal
  | .unstakeRequested agent amount completesAt => onUnstakeRequested agent amount completesAt
  | .unstakeCompleted agent amount => onUnstakeCompleted agent amount
  | .stakeLocked agent amount _ => onStakeLocked agent amount
  | .stakeUnlocked agent amount _ => onStakeUnlocked agent amount
  | .slashInitiated slashId agent reason slashedAmount slashBasisPoints evidenceHash jobId =>
    onSlashInitiated slashId agent reason slashedAmount slashBasisPoints evidenceHash jobId
  | .appealFiled slashId agent reason => onAppealFiled slashId agent reason
  | .appealApproved slashId agent restoredAmount => onAppealApproved slashId agent restoredAmount
  | .appealDenied slashId agent _ => onAppealDenied slashId agent
  | .agentDeactivating agent => onAgentDeactivating agent
  | _ => pure ()

/-! ## All events -/

/-- An event of one of the three contracts. -/
inductive Event
  | auction (e : AuditAuction.Event)
  | settlement (e : PaymentSettlement.Event)
  | staking (e : StakingManager.Event)
deriving DecidableEq

/-- `_handleEvent`. -/
def dispatch (hex : Address → String) : Event → Handler Unit
  | .auction e => onAuditAuction hex e
  | .settlement e => onPaymentSettlement e
  | .staking e => onStakingManager e

/-- What the listener is after it has handled an event, and what the handler threw, if it threw. -/
def runHandler (h : Handler Unit) (l : Listener) : Except String Unit × Listener := h.run.run l

/-- The listener after an event. -/
def handle (hex : Address → String) (l : Listener) (e : Event) : Listener := (runHandler (dispatch hex e) l).2

/-- The listener after some events, in order. -/
def handleAll (hex : Address → String) (events : List Event) (l : Listener) : Listener := events.foldl (handle hex) l

end AuditGuard.Inft
