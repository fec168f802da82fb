import AuditGuard.Library.Evm

/-!
# StakingManager: storage and internal functions

The data of `StakingManager.sol` and its functions on storage alone. Storage fields of the type
`uint256` are natural numbers, and each operation on them makes the check that the compiler makes. A
mapping that was never written holds the zero of its type: a stake whose status is `ACTIVE`, the first
of its enumeration, and a slash record whose appeal status is `NONE`.

Next to the storage are kept the log of emitted events, and the best-effort calls that the contract
sent to `AgentRegistry` and `DelegatedStaking`, whose failure it ignores.
-/

namespace AuditGuard.StakingManager

open Evm

/-- Lifecycle status of an agent's stake. -/
inductive StakeStatus
  | active
  | unbonding
  | withdrawn
  | frozen
deriving DecidableEq, Repr

/-- Categorised reason for a slashing event. -/
inductive SlashReason
  | falsePositive
  | falseNegative
  | maliciousReport
  | slaViolation
  | collusion
  | plagiarism
deriving DecidableEq, Repr

/-- Lifecycle status of a slash appeal. -/
inductive AppealStatus
  | none
  | pending
  | approved
  | denied
deriving DecidableEq, Repr

/-- The staking state of an agent. -/
structure StakeInfo where
  /-- The agent's wallet, zero before the first stake. -/
  agent : Address
  totalStaked : ℕ
  lockedStake : ℕ
  availableStake : ℕ
  unbondingAmount : ℕ
  /-- When the unbonding cooldown finishes. -/
  unbondingCompleteAt : ℕ
  status : StakeStatus
  /-- When the agent staked first. -/
  stakedAt : ℕ
  lastStakeChangeAt : ℕ
deriving DecidableEq

/-- A stake that was never written. -/
def StakeInfo.zero : StakeInfo := ⟨0, 0, 0, 0, 0, 0, .active, 0, 0⟩

/-- A slashing event with its appeal. -/
structure SlashRecord where
  /-- The slash's own id, zero in a record that was never written. -/
  slashId : ℕ
  /-- The slashed agent. -/
  agent : Address
  jobId : ℕ
  subJobId : ℕ
  reason : SlashReason
  slashBasisPoints : ℕ
  /-- GUARD taken from the agent's stake. -/
  slashedAmount : ℕ
  evidenceHash : UInt 256
  slashedBy : Address
  timestamp : ℕ
  appealStatus : AppealStatus
  /-- The deadline for the agent to file an appeal. -/
  appealDeadline : ℕ
  /-- The agent's justification, empty if no appeal was filed. -/
  appealReason : String
deriving DecidableEq

/-- A record that was never written. -/
def SlashRecord.zero : SlashRecord := ⟨0, 0, 0, 0, .falsePositive, 0, 0, 0, 0, 0, .none, 0, ""⟩

/-- A staking action, kept for history charts. -/
structure StakeSnapshot where
  timestamp : ℕ
  amount : ℕ
  action : String
  jobId : ℕ
deriving DecidableEq

/-- The contract's events. -/
inductive Event
  | staked (agent : Address) (amount newTotal : ℕ)
  | unstakeRequested (agent : Address) (amount completesAt : ℕ)
  | unstakeCompleted (agent : Address) (amount : ℕ)
  | stakeLocked (agent : Address) (amount jobId : ℕ)
  | stakeUnlocked (agent : Address) (amount jobId : ℕ)
  | slashInitiated (slashId : ℕ) (agent : Address) (reason : SlashReason)
      (slashedAmount slashBasisPoints : ℕ) (evidenceHash : UInt 256) (jobId : ℕ)
  | appealFiled (slashId : ℕ) (agent : Address) (reason : String)
  | appealApproved (slashId : ℕ) (agent : Address) (restoredAmount : ℕ)
  | appealDenied (slashId : ℕ) (agent : Address) (finalizedAmount : ℕ)
  | appealExpired (slashId : ℕ)
  | slashRateUpdated (reason : SlashReason) (oldRate newRate : ℕ)
  | unbondingPeriodUpdated (oldPeriod newPeriod : ℕ)
  | agentDeactivating (agent : Address)
  | guardTokenAssociated (token : Address)
deriving DecidableEq

/-- The calls that the contract makes under `try`, with the contract that they go to. -/
inductive BestEffort
  | updateReputation (agentRegistry agent : Address) (delta : ℤ)
  | propagateSlash (delegatedStaking agent : Address) (slashBps : ℕ)
deriving DecidableEq

/-- The contract's storage, with the log of its events and of its best-effort calls. -/
structure State where
  /-- `Ownable`'s owner. -/
  owner : Address
  /-- `Pausable`'s flag. -/
  paused : Bool
  guardToken : Address
  agentRegistry : Address
  treasury : Address
  delegatedStaking : Address
  authorizedSlashers : Address → Bool
  unbondingPeriod : ℕ
  minStakeForActive : ℕ
  appealWindowSeconds : ℕ
  slashEscrowPeriod : ℕ
  slashRates : SlashReason → ℕ
  reputationPenalties : SlashReason → ℤ
  stakes : Address → StakeInfo
  slashRecords : ℕ → SlashRecord
  agentSlashHistory : Address → List ℕ
  stakeHistory : Address → List StakeSnapshot
  agentTotalSlashed : Address → ℕ
  nextSlashId : ℕ
  totalSlashedAllTime : ℕ
  slashEscrowBalance : ℕ
  /-- The events emitted so far, oldest first. -/
  log : List Event
  /-- The best-effort calls made so far, oldest first. -/
  sent : List BestEffort

/-- What a call reads from outside the contract: its message, whether `AgentRegistry` reports an
agent as active, which addresses hold code, and what HTS answers to the transfers and to the
association of the call. A transfer that HTS refuses reverts the call, so that one answer stands for
all transfers of a call. -/
structure Env extends Msg where
  isActiveAgent : Address → Bool
  hasCode : Address → Bool
  transferAnswer : ℤ
  associateAnswer : ℤ

namespace State

/-- Appends an event to the log. -/
@[simps -fullyApplied]
def emit (s : State) (e : Event) : State := { s with log := s.log ++ [e] }

/-- Appends a best-effort call to those that were made. -/
@[simps -fullyApplied]
def send (s : State) (c : BestEffort) : State := { s with sent := s.sent ++ [c] }

/-- Writes an agent's stake. -/
@[simps -fullyApplied]
def setStake (s : State) (agent : Address) (info : StakeInfo) : State :=
  { s with stakes := Function.update s.stakes agent info }

/-- Writes a slash record. -/
@[simps -fullyApplied]
def setRecord (s : State) (slashId : ℕ) (record : SlashRecord) : State :=
  { s with slashRecords := Function.update s.slashRecords slashId record }

/-- Writes the escrow. -/
@[simps -fullyApplied]
def setEscrow (s : State) (escrow : ℕ) : State := { s with slashEscrowBalance := escrow }

/-- Writes the counters of slashed amounts: the escrow, the total of `agent`, and the overall total. -/
@[simps -fullyApplied]
def setSlashed (s : State) (escrow : ℕ) (agent : Address) (agentTotal allTime : ℕ) : State :=
  { s with
    slashEscrowBalance := escrow
    agentTotalSlashed := Function.update s.agentTotalSlashed agent agentTotal
    totalSlashedAllTime := allTime }

/-- Pushes a slash id to the agent's history, and writes the next one. -/
@[simps -fullyApplied]
def pushSlashId (s : State) (agent : Address) (slashId next : ℕ) : State :=
  { s with
    nextSlashId := next
    agentSlashHistory :=
      Function.update s.agentSlashHistory agent (s.agentSlashHistory agent ++ [slashId]) }

/-- `_recordSnapshot`: appends a snapshot to the agent's staking history. -/
@[simps -fullyApplied]
def recordSnapshot (s : State) (env : Env) (agent : Address) (amount : ℕ) (action : String)
    (jobId : ℕ) : State :=
  let snapshot : StakeSnapshot := ⟨env.timestamp, amount, action, jobId⟩
  { s with stakeHistory :=
      Function.update s.stakeHistory agent (s.stakeHistory agent ++ [snapshot]) }

end State

/-- A call under `try`. It reverts only where its target holds no code. -/
def tryCall (env : Env) (target : Address) (c : BestEffort) (s : State) : Tx State :=
  if env.hasCode target then .ok (s.send c) else .error .callFailed

/-- The part of `stake` after the transfer: what becomes of the sender's stake. -/
def creditStake (env : Env) (amount : ℕ) (s : State) : Tx State := do
  let info := s.stakes env.sender
  let info := if info.agent = 0 then
    { info with agent := env.sender, stakedAt := env.timestamp } else info
  let totalStaked ← checkedAdd 256 info.totalStaked amount
  let availableStake ← checkedAdd 256 info.availableStake amount
  let info := { info with
    totalStaked := totalStaked
    availableStake := availableStake
    lastStakeChangeAt := env.timestamp }
  let info := if info.status = .withdrawn ∧ s.minStakeForActive ≤ info.totalStaked then
    { info with status := .active } else info
  let s := (s.setStake env.sender info).recordSnapshot env env.sender amount "stake" 0
  pure (s.emit (.staked env.sender amount totalStaked))

/-- `requestUnstake`. -/
def requestUnstake (env : Env) (amount : ℕ) (s : State) : Tx State := do
  modifier (s.paused = false) "EnforcedPause"
  let info := s.stakes env.sender
  require (info.agent ≠ 0) "StakingManager: no stake"
  require (info.status = .active) "StakingManager: not active"
  require (0 < amount) "StakingManager: amount is zero"
  require (amount ≤ info.availableStake) "StakingManager: exceeds available stake"
  require (info.unbondingAmount = 0) "StakingManager: unbonding already in progress"
  let remaining ← checkedSub info.totalStaked amount
  require (s.minStakeForActive ≤ remaining) "StakingManager: below minimum, use deactivate()"
  let availableStake ← checkedSub info.availableStake amount
  let completesAt ← checkedAdd 256 env.timestamp s.unbondingPeriod
  let info := { info with
    availableStake := availableStake
    unbondingAmount := amount
    unbondingCompleteAt := completesAt
    lastStakeChangeAt := env.timestamp }
  let s := (s.setStake env.sender info).recordSnapshot env env.sender amount "unstake_request" 0
  pure (s.emit (.unstakeRequested env.sender amount completesAt))

/-- The part of `completeUnstake` before the transfer: the amount to pay out, and the storage. -/
def releaseUnbonding (env : Env) (s : State) : Tx (ℕ × State) := do
  let info := s.stakes env.sender
  require (0 < info.unbondingAmount) "StakingManager: nothing to complete"
  require (info.unbondingCompleteAt ≤ env.timestamp)
    "StakingManager: unbonding period not elapsed"
  let amount := info.unbondingAmount
  let totalStaked ← checkedSub info.totalStaked amount
  let info := { info with
    totalStaked := totalStaked
    unbondingAmount := 0
    unbondingCompleteAt := 0
    lastStakeChangeAt := env.timestamp }
  let info := if info.totalStaked = 0 then { info with status := .withdrawn }
    else if info.status = .unbonding ∧ s.minStakeForActive ≤ info.totalStaked then
      { info with status := .active }
    else info
  pure (amount, s.setStake env.sender info)

/-- `deactivate`. -/
def deactivate (env : Env) (s : State) : Tx State := do
  modifier (s.paused = false) "EnforcedPause"
  let info := s.stakes env.sender
  require (info.agent ≠ 0) "StakingManager: no stake"
  require (info.status = .active ∨ info.status = .unbonding) "StakingManager: not active"
  require (info.lockedStake = 0) "StakingManager: has locked stake in active jobs"
  require (info.unbondingAmount = 0) "StakingManager: unbonding already in progress"
  require (0 < info.availableStake) "StakingManager: nothing to unstake"
  let amount := info.availableStake
  let completesAt ← checkedAdd 256 env.timestamp s.unbondingPeriod
  let info := { info with
    availableStake := 0
    unbondingAmount := amount
    unbondingCompleteAt := completesAt
    status := .unbonding
    lastStakeChangeAt := env.timestamp }
  let s := (s.setStake env.sender info).recordSnapshot env env.sender amount "deactivate" 0
  pure ((s.emit (.agentDeactivating env.sender)).emit
    (.unstakeRequested env.sender amount completesAt))

/-- `lockStake`. -/
def lockStake (env : Env) (agent : Address) (amount jobId : ℕ) (s : State) : Tx State := do
  require (s.authorizedSlashers env.sender = true) "StakingManager: not authorized slasher"
  require (0 < amount) "StakingManager: amount is zero"
  let info := s.stakes agent
  require (info.agent ≠ 0) "StakingManager: agent has no stake"
  require (amount ≤ info.availableStake) "StakingManager: exceeds available stake"
  let availableStake ← checkedSub info.availableStake amount
  let lockedStake ← checkedAdd 256 info.lockedStake amount
  let info := { info with
    availableStake := availableStake
    lockedStake := lockedStake
    lastStakeChangeAt := env.timestamp }
  let s := (s.setStake agent info).recordSnapshot env agent amount "lock" jobId
  pure (s.emit (.stakeLocked agent amount jobId))

/-- `unlockStake`. -/
def unlockStake (env : Env) (agent : Address) (amount jobId : ℕ) (s : State) : Tx State := do
  require (s.authorizedSlashers env.sender = true) "StakingManager: not authorized slasher"
  require (0 < amount) "StakingManager: amount is zero"
  let info := s.stakes agent
  require (info.agent ≠ 0) "StakingManager: agent has no stake"
  require (amount ≤ info.lockedStake) "StakingManager: exceeds locked stake"
  let lockedStake ← checkedSub info.lockedStake amount
  let availableStake ← checkedAdd 256 info.availableStake amount
  let info := { info with
    lockedStake := lockedStake
    availableStake := availableStake
    lastStakeChangeAt := env.timestamp }
  let s := (s.setStake agent info).recordSnapshot env agent amount "unlock" jobId
  pure (s.emit (.stakeUnlocked agent amount jobId))

/-- A stage of `_deductSlash`: what it leaves of the pool, and what remains to be deducted. -/
def takeFrom (pool remaining : ℕ) : Tx (ℕ × ℕ) := do
  let take := if remaining < pool then remaining else pool
  let pool ← checkedSub pool take
  let remaining ← checkedSub remaining take
  pure (pool, remaining)

/-- `_deductSlash`: deducts a slash from the pools, available, then locked, then unbonding. Returns
the slashed amount, and the stake. -/
def deductSlash (info : StakeInfo) (basisPoints : ℕ) : Tx (ℕ × StakeInfo) := do
  let product ← checkedMul 256 info.totalStaked basisPoints
  let slashedAmount := product / 10000
  let slashedAmount := if info.totalStaked < slashedAmount then info.totalStaked else slashedAmount
  let totalStaked ← checkedSub info.totalStaked slashedAmount
  let (availableStake, remaining) ← takeFrom info.availableStake slashedAmount
  let (lockedStake, remaining) ←
    (if 0 < remaining then takeFrom info.lockedStake remaining
      else pure (info.lockedStake, remaining))
  let (unbondingAmount, _) ←
    (if 0 < remaining then takeFrom info.unbondingAmount remaining
      else pure (info.unbondingAmount, remaining))
  pure (slashedAmount, { info with
    totalStaked := totalStaked
    availableStake := availableStake
    lockedStake := lockedStake
    unbondingAmount := unbondingAmount })

/-- `_applyReputationPenalty`. -/
def applyReputationPenalty (env : Env) (agent : Address) (reason : SlashReason) (s : State) :
    Tx State :=
  let repDelta := s.reputationPenalties reason
  if repDelta ≠ 0 ∧ s.agentRegistry ≠ 0 then
    tryCall env s.agentRegistry (.updateReputation s.agentRegistry agent repDelta) s
  else pure s

/-- `_createSlashRecord`. -/
def createSlashRecord (env : Env) (slashId : ℕ) (agent : Address) (jobId subJobId : ℕ)
    (reason : SlashReason) (basisPoints slashedAmount : ℕ) (evidenceHash : UInt 256) (s : State) :
    Tx State := do
  let appealDeadline ← checkedAdd 256 env.timestamp s.appealWindowSeconds
  pure (s.setRecord slashId {
    slashId := slashId
    agent := agent
    jobId := jobId
    subJobId := subJobId
    reason := reason
    slashBasisPoints := basisPoints
    slashedAmount := slashedAmount
    evidenceHash := evidenceHash
    slashedBy := env.sender
    timestamp := env.timestamp
    appealStatus := .pending
    appealDeadline := appealDeadline
    appealReason := "" })

/-- The end of `initiateSlash`, which propagates the slash to the delegators. -/
def propagateSlash (env : Env) (agent : Address) (basisPoints : ℕ) (s : State) : Tx State :=
  if s.delegatedStaking ≠ 0 then
    tryCall env s.delegatedStaking (.propagateSlash s.delegatedStaking agent basisPoints) s
  else pure s

/-- `initiateSlash`. -/
def initiateSlash (env : Env) (agent : Address) (jobId subJobId : ℕ) (reason : SlashReason)
    (evidenceHash : UInt 256) (s : State) : Tx State := do
  require (s.authorizedSlashers env.sender = true) "StakingManager: not authorized slasher"
  modifier (s.paused = false) "EnforcedPause"
  let info := s.stakes agent
  require (info.agent ≠ 0) "StakingManager: agent has no stake"
  require (0 < info.totalStaked) "StakingManager: nothing to slash"
  let basisPoints := s.slashRates reason
  require (0 < basisPoints) "StakingManager: slash rate not configured"
  let (slashedAmount, info) ← deductSlash info basisPoints
  let slashEscrowBalance ← checkedAdd 256 s.slashEscrowBalance slashedAmount
  let slashId := s.nextSlashId
  let nextSlashId ← checkedAdd 256 slashId 1
  let s ← createSlashRecord env slashId agent jobId subJobId reason basisPoints slashedAmount
    evidenceHash s
  let agentTotalSlashed ← checkedAdd 256 (s.agentTotalSlashed agent) slashedAmount
  let totalSlashedAllTime ← checkedAdd 256 s.totalSlashedAllTime slashedAmount
  let s := (s.pushSlashId agent slashId nextSlashId).setSlashed slashEscrowBalance agent
    agentTotalSlashed totalSlashedAllTime
  let info := { info with lastStakeChangeAt := env.timestamp }
  let s ← applyReputationPenalty env agent reason s
  let info := if info.totalStaked < s.minStakeForActive ∨ basisPoints = 10000 then
    { info with status := .frozen } else info
  let s := (s.setStake agent info).recordSnapshot env agent slashedAmount "slash" jobId
  let s := s.emit
    (.slashInitiated slashId agent reason slashedAmount basisPoints evidenceHash jobId)
  propagateSlash env agent basisPoints s

/-- `fileAppeal`. -/
def fileAppeal (env : Env) (slashId : ℕ) (reason : String) (s : State) : Tx State := do
  let record := s.slashRecords slashId
  require (record.slashId ≠ 0) "StakingManager: invalid slash id"
  require (env.sender = record.agent) "StakingManager: not slashed agent"
  require (record.appealStatus = .pending) "StakingManager: not pending"
  require (env.timestamp ≤ record.appealDeadline) "StakingManager: appeal window closed"
  require (0 < reason.utf8ByteSize) "StakingManager: reason required"
  let s := s.setRecord slashId { record with appealReason := reason }
  pure (s.emit (.appealFiled slashId env.sender reason))

/-- The part of `resolveAppeal` that reverses the reputation penalty of an approved appeal. -/
def reverseReputationPenalty (env : Env) (record : SlashRecord) (s : State) : Tx State :=
  let repDelta := s.reputationPenalties record.reason
  if repDelta ≠ 0 ∧ s.agentRegistry ≠ 0 then do
    let reversed ← checkedNeg 256 repDelta
    tryCall env s.agentRegistry (.updateReputation s.agentRegistry record.agent reversed) s
  else pure s

/-- The branch of `resolveAppeal` for an approved appeal, on the record `record` with the id
`slashId`: the slashed funds return to the agent, and the reputation penalty is reversed. -/
def approveAppeal (env : Env) (slashId : ℕ) (record : SlashRecord) (s : State) : Tx State := do
  let info := s.stakes record.agent
  let totalStaked ← checkedAdd 256 info.totalStaked record.slashedAmount
  let availableStake ← checkedAdd 256 info.availableStake record.slashedAmount
  let info := { info with
    totalStaked := totalStaked
    availableStake := availableStake
    lastStakeChangeAt := env.timestamp }
  let slashEscrowBalance ← checkedSub s.slashEscrowBalance record.slashedAmount
  let agentTotalSlashed ← checkedSub (s.agentTotalSlashed record.agent) record.slashedAmount
  let totalSlashedAllTime ← checkedSub s.totalSlashedAllTime record.slashedAmount
  let s := s.setSlashed slashEscrowBalance record.agent agentTotalSlashed totalSlashedAllTime
  let s ← reverseReputationPenalty env record s
  let info := if info.status = .frozen ∧ s.minStakeForActive ≤ info.totalStaked then
    { info with status := .active } else info
  let s := s.setStake record.agent info
  let s := s.setRecord slashId { record with appealStatus := .approved }
  let s := s.recordSnapshot env record.agent record.slashedAmount "appeal_approved" record.jobId
  pure (s.emit (.appealApproved slashId record.agent record.slashedAmount))

end AuditGuard.StakingManager
