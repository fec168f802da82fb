import AuditGuard.AuditAuction.Model
import AuditGuard.SubAuction.Model

/-!
# PaymentSettlement: storage and internal functions

The data of `PaymentSettlement.sol` and its functions on storage alone. A manifest and the breakdown of a
settlement are lists, and a mapping is a function. Where a `uint256` comes out of an operation, the operation
makes the check that the compiler makes.
-/

namespace AuditGuard.PaymentSettlement

open Evm

/-- Categorizes each line item of a settlement. -/
inductive PaymentType
  | mainAudit
  | subContract
  | dataPurchase
  | bonusSpeed
  | bonusUniqueFinding
  | monitoringPayment
  | reportFee
  | platformFee
  | bountyPayout
  | refund
deriving DecidableEq

/-- A line item of a settlement manifest. -/
structure PaymentItem where
  recipient : Address
  basePayment : ℕ
  bonus : ℕ
  /-- In a manifest this is not read; in a recorded settlement it is what was withheld. -/
  reportFee : ℕ
  paymentType : PaymentType
  description : String
deriving DecidableEq

/-- The record of a settlement. -/
structure SettlementRecord where
  /-- Zero if the settlement does not exist. -/
  settlementId : ℕ
  jobId : ℕ
  totalDisbursed : ℕ
  platformFeeCollected : ℕ
  reportFeesCollected : ℕ
  recipientCount : ℕ
  settledAt : ℕ
  successful : Bool
deriving DecidableEq

/-- A settlement that was never recorded. -/
def SettlementRecord.zero : SettlementRecord := ⟨0, 0, 0, 0, 0, 0, 0, false⟩

/-- The contract's events. -/
inductive Event
  | jobSettled (settlementId jobId totalDisbursed platformFee reportFees recipientCount : ℕ)
  | subJobSettled (settlementId subJobId : ℕ) (agent : Address) (amount : ℕ)
  | fundsDeposited (src : Address) (amount : ℕ)
  | fundsWithdrawn (dst : Address) (amount : ℕ)
deriving DecidableEq

/-- The contract's storage, with the log of its events. -/
structure State where
  owner : Address
  paused : Bool
  guardToken : Address
  agentRegistry : Address
  mainAuction : Address
  subAuction : Address
  budgetVault : Address
  treasury : Address
  orchestrator : Address
  platformFeePercent : ℕ
  reportFeeBase : ℕ
  reportFeeDiscountThreshold : ℕ
  reportFeeDiscounted : ℕ
  nextSettlementId : ℕ
  settlements : ℕ → SettlementRecord
  /-- Zero if the job is not settled. -/
  jobToSettlement : ℕ → ℕ
  settlementPayments : ℕ → List PaymentItem
  /-- The events emitted so far, oldest first. -/
  log : List Event

/-- What a call reads from outside the contract: its message, what the agent registry, the main auction and
the sub-auction answer, a revert included, and what HTS answers to the transfers and to the association of
the call. A transfer that HTS refuses reverts the call, so that one answer stands for all transfers of a
call. -/
structure Env extends Msg where
  isActiveAgent : Address → Tx Bool
  getAgentReputation : Address → Tx ℕ
  getJobStatus : ℕ → Tx AuditAuction.JobStatus
  completeJob : ℕ → Tx Unit
  getSubJob : ℕ → Tx SubAuction.SubJob
  transferAnswer : ℤ
  associateAnswer : ℤ

/-- Appends an event to the log. -/
@[simps -fullyApplied]
def State.emit (s : State) (e : Event) : State := { s with log := s.log ++ [e] }

/-- The modifier `onlyOwner`. -/
def onlyOwner (env : Env) (s : State) : Tx Unit :=
  modifier (env.sender = s.owner) "OwnableUnauthorizedAccount"

/-- The modifier `onlyOrchestrator`. -/
def onlyOrchestrator (env : Env) (s : State) : Tx Unit :=
  require (env.sender = s.orchestrator) "PaymentSettlement: caller is not orchestrator"

/-- The modifier `whenNotPaused`. -/
def whenNotPaused (s : State) : Tx Unit := modifier (s.paused = false) "EnforcedPause"

/-- `_validateJobForSettlement`. -/
def validateJobForSettlement (env : Env) (jobId : ℕ) (s : State) : Tx Unit := do
  let status ← env.getJobStatus jobId
  require (status = .auditingInProgress ∨ status = .reportPending)
    "PaymentSettlement: invalid job status"
  require (s.jobToSettlement jobId = 0) "PaymentSettlement: job already settled"

/-- `_isReportFeeEligible`. -/
def isReportFeeEligible (pt : PaymentType) : Bool :=
  decide (pt = .mainAudit ∨ pt = .subContract ∨ pt = .monitoringPayment ∨ pt = .bountyPayout)

/-- What `_calculateSettlement` has so far. -/
structure Totals where
  reportFees : List ℕ
  totalBase : ℕ
  totalBonus : ℕ
  totalReportFees : ℕ

/-- The report fee of a line item, zero if there is none. -/
def reportFee (env : Env) (item : PaymentItem) (s : State) : Tx ℕ :=
  if isReportFeeEligible item.paymentType = true then do
    let rep ← env.getAgentReputation item.recipient
    pure (if s.reportFeeDiscountThreshold ≤ rep then s.reportFeeDiscounted else s.reportFeeBase)
  else pure 0

/-- The body of the loop of `_calculateSettlement`. The fee of an item that is not eligible is zero, so that
adding it changes nothing and cannot overflow. -/
def calculateItem (env : Env) (s : State) (acc : Totals) (item : PaymentItem) : Tx Totals := do
  require (item.recipient ≠ 0) "PaymentSettlement: zero recipient"
  let known ← (if item.recipient = s.treasury then pure true else env.isActiveAgent item.recipient)
  require (known = true) "PaymentSettlement: recipient not registered"
  let totalBase ← checkedAdd 256 acc.totalBase item.basePayment
  let totalBonus ← checkedAdd 256 acc.totalBonus item.bonus
  let fee ← reportFee env item s
  let totalReportFees ← checkedAdd 256 acc.totalReportFees fee
  pure ⟨acc.reportFees ++ [fee], totalBase, totalBonus, totalReportFees⟩

/-- What `_calculateSettlement` returns. -/
structure Calculation where
  reportFees : List ℕ
  totalPayout : ℕ
  totalReportFees : ℕ
  platformFee : ℕ

/-- `_calculateSettlement`. -/
def calculateSettlement (env : Env) (payments : List PaymentItem) (s : State) : Tx Calculation := do
  let acc ← payments.foldlM (calculateItem env s) ⟨[], 0, 0, 0⟩
  let totalPayout ← checkedAdd 256 acc.totalBase acc.totalBonus
  let product ← checkedMul 256 totalPayout s.platformFeePercent
  pure ⟨acc.reportFees, totalPayout, acc.totalReportFees, product / 100⟩

/-- The line items with the fees that were withheld, as `_recordSettlement` stores them. -/
def breakdown (payments : List PaymentItem) (reportFees : List ℕ) : List PaymentItem :=
  (payments.zip reportFees).map fun line => { line.1 with reportFee := line.2 }

/-- `_recordSettlement`: the new settlement's id. -/
def recordSettlement (env : Env) (jobId : ℕ) (payments : List PaymentItem) (calculation : Calculation)
    (s : State) : Tx (ℕ × State) := do
  let settlementId := s.nextSettlementId
  let nextSettlementId ← checkedAdd 256 settlementId 1
  let totalDisbursed ← checkedAdd 256 calculation.totalPayout calculation.platformFee
  let record : SettlementRecord := {
    settlementId := settlementId
    jobId := jobId
    totalDisbursed := totalDisbursed
    platformFeeCollected := calculation.platformFee
    reportFeesCollected := calculation.totalReportFees
    recipientCount := payments.length
    settledAt := env.timestamp
    successful := true }
  pure (settlementId, { s with
    nextSettlementId := nextSettlementId
    settlements := Function.update s.settlements settlementId record
    settlementPayments := Function.update s.settlementPayments settlementId
      (s.settlementPayments settlementId ++ breakdown payments calculation.reportFees)
    jobToSettlement := Function.update s.jobToSettlement jobId settlementId })

/-- `settleSubJob`. -/
def settleSubJob (env : Env) (subJobId : ℕ) (s : State) : Tx State := do
  onlyOrchestrator env s
  whenNotPaused s
  let subJob ← env.getSubJob subJobId
  require (subJob.status = .accepted) "PaymentSettlement: sub-job not accepted"
  require (subJob.selectedAgent ≠ 0) "PaymentSettlement: no selected agent"
  let settlementId := s.nextSettlementId
  let nextSettlementId ← checkedAdd 256 settlementId 1
  let record : SettlementRecord := {
    settlementId := settlementId
    jobId := subJob.parentJobId
    totalDisbursed := subJob.paymentAmount
    platformFeeCollected := 0
    reportFeesCollected := 0
    recipientCount := 1
    settledAt := env.timestamp
    successful := true }
  let item : PaymentItem := {
    recipient := subJob.selectedAgent
    basePayment := subJob.paymentAmount
    bonus := 0
    reportFee := 0
    paymentType := .subContract
    description := subJob.taskDescription }
  let s := { s with
    nextSettlementId := nextSettlementId
    settlements := Function.update s.settlements settlementId record
    settlementPayments := Function.update s.settlementPayments settlementId
      (s.settlementPayments settlementId ++ [item]) }
  pure (s.emit (.subJobSettled settlementId subJobId subJob.selectedAgent subJob.paymentAmount))

/-- The setters of the addresses that the contract knows, each with the field that it writes. -/
def setAddress (env : Env) (address : Address) (write : State → State) (s : State) : Tx State := do
  onlyOwner env s
  require (address ≠ 0) "PaymentSettlement: zero address"
  pure (write s)

/-- `setOrchestrator`. -/
def setOrchestrator (env : Env) (orchestrator : Address) : State → Tx State :=
  setAddress env orchestrator fun s => { s with orchestrator := orchestrator }

/-- `setTreasury`. -/
def setTreasury (env : Env) (treasury : Address) : State → Tx State :=
  setAddress env treasury fun s => { s with treasury := treasury }

/-- `setMainAuction`. -/
def setMainAuction (env : Env) (mainAuction : Address) : State → Tx State :=
  setAddress env mainAuction fun s => { s with mainAuction := mainAuction }

/-- `setSubAuction`. -/
def setSubAuction (env : Env) (subAuction : Address) : State → Tx State :=
  setAddress env subAuction fun s => { s with subAuction := subAuction }

/-- `setBudgetVault`. -/
def setBudgetVault (env : Env) (budgetVault : Address) : State → Tx State :=
  setAddress env budgetVault fun s => { s with budgetVault := budgetVault }

/-- `setAgentRegistry`. -/
def setAgentRegistry (env : Env) (agentRegistry : Address) : State → Tx State :=
  setAddress env agentRegistry fun s => { s with agentRegistry := agentRegistry }

/-- `setPlatformFeePercent`. -/
def setPlatformFeePercent (env : Env) (platformFeePercent : ℕ) (s : State) : Tx State := do
  onlyOwner env s
  require (platformFeePercent ≤ 20) "PaymentSettlement: fee exceeds 20%"
  pure { s with platformFeePercent := platformFeePercent }

/-- `setReportFees`. -/
def setReportFees (env : Env) (base discounted threshold : ℕ) (s : State) : Tx State := do
  onlyOwner env s
  require (discounted ≤ base) "PaymentSettlement: discounted exceeds base"
  require (threshold ≤ 10000) "PaymentSettlement: threshold exceeds max reputation"
  pure { s with
    reportFeeBase := base
    reportFeeDiscounted := discounted
    reportFeeDiscountThreshold := threshold }

/-- `pause`. -/
def pause (env : Env) (s : State) : Tx State := do
  onlyOwner env s
  modifier (s.paused = false) "EnforcedPause"
  pure { s with paused := true }

/-- `unpause`. -/
def unpause (env : Env) (s : State) : Tx State := do
  onlyOwner env s
  modifier (s.paused = true) "ExpectedPause"
  pure { s with paused := false }

/-- `transferOwnership`. -/
def transferOwnership (env : Env) (newOwner : Address) (s : State) : Tx State := do
  onlyOwner env s
  modifier (newOwner ≠ 0) "OwnableInvalidOwner"
  pure { s with owner := newOwner }

/-- `renounceOwnership`. -/
def renounceOwnership (env : Env) (s : State) : Tx State := do
  onlyOwner env s
  pure { s with owner := 0 }

end AuditGuard.PaymentSettlement
