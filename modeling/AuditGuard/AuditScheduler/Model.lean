import AuditGuard.Library.Alarms
import AuditGuard.Library.Contract

/-!
# AuditScheduler: storage and functions

The data of `AuditScheduler.sol` and its functions, with the part of the Hedera Schedule Service that concerns
it: the schedules that are pending and that will call `triggerAudit`. The service gives every schedule an
address of its own, deletes a schedule if it is pending, and says itself whether it takes a new one. Where a
`uint256` field comes out of an operation, the operation makes the check that the compiler makes.
-/

namespace AuditGuard.AuditScheduler

open Evm

/-- Determines when an audit is triggered. -/
inductive TriggerMode
  | timeBased
  | redeploy
deriving DecidableEq

/-- Per-contract audit schedule. -/
structure AuditSchedule where
  owner : Address
  mode : TriggerMode
  intervalSeconds : ℕ
  nextAuditDue : ℕ
  currentScheduleAddr : Address
  timesTriggered : ℕ
  active : Bool
deriving DecidableEq

/-- A schedule that was never written. -/
def AuditSchedule.zero : AuditSchedule := ⟨0, .timeBased, 0, 0, 0, 0, false⟩

/-- The contract's events. -/
inductive Event
  | auditScheduled (contractAddress owner scheduleAddress : Address) (nextAuditDue : ℕ)
      (mode : TriggerMode) (intervalSeconds : ℕ)
  | auditTriggered (contractAddress scheduleAddress : Address) (triggeredAt timesTriggered : ℕ)
      (nextScheduleAddress : Address)
  | auditScheduleCancelled (contractAddress cancelledBy : Address) (reason : String)
  | scheduleFailed (contractAddress : Address) (responseCode : ℤ) (context : String)
deriving DecidableEq

/-- The schedules that are pending at the service: their addresses, and the contracts that they trigger an
audit of. -/
abbrev Hss := Alarms.Clock Address Address

/-- The contract's storage, with its pending schedules and the log of its events. -/
structure State where
  owner : Address
  guardToken : Address
  auctionContract : Address
  orchestrator : Address
  minAuditBudget : ℕ
  schedules : Address → AuditSchedule
  scheduledContracts : List Address
  /-- What is pending at the service. It is not storage of the contract, but a call that reverts undoes
  what it did there. -/
  hss : Hss
  /-- The events emitted so far, oldest first. -/
  log : List Event

/-- What a call reads from outside the contract: its message, for which seconds the service has capacity,
and the service's answer to a new schedule, with the address it would give it. No call makes two. -/
structure Env extends Msg where
  hasScheduleCapacity : ℕ → Bool
  scheduleCallAnswer : ℤ
  newSchedule : Address

namespace State

/-- Appends an event to the log. -/
@[simps -fullyApplied]
def emit (s : State) (e : Event) : State := { s with log := s.log ++ [e] }

/-- Writes the schedule of a contract. -/
@[simps -fullyApplied]
def setSchedule (s : State) (contractAddress : Address) (sched : AuditSchedule) : State :=
  { s with schedules := Function.update s.schedules contractAddress sched }

end State

/-- The response code of a successful operation. -/
def SUCCESS : ℤ := 22

/-- The response code of an operation with an unknown outcome. -/
def UNKNOWN : ℤ := 21

/-- Minimum interval allowed, one hour. -/
def MIN_INTERVAL : ℕ := 3600

/-- Maximum interval allowed, 365 days. -/
def MAX_INTERVAL : ℕ := 365 * 86400

/-- Delay of the audits that a redeployment triggers, five minutes. -/
def REDEPLOY_DELAY : ℕ := 300

/-- The modifier `onlyOwner`. -/
def onlyOwner (env : Env) (s : State) : Tx Unit :=
  modifier (env.sender = s.owner) "OwnableUnauthorizedAccount"

/-- The modifier `onlyOrchestrator`. -/
def onlyOrchestrator (env : Env) (s : State) : Tx Unit :=
  require (env.sender = s.orchestrator) "AuditScheduler: caller is not orchestrator"

/-- `scheduleCall`, for a call of `triggerAudit(contractAddress)`. A schedule gets an address that is not zero
and that no schedule had before. -/
def scheduleCall (env : Env) (contractAddress : Address) (expirySecond : ℕ) (s : State) :
    (ℤ × Address) × State :=
  if h : env.scheduleCallAnswer = SUCCESS ∧ env.newSchedule ≠ 0 ∧ env.newSchedule ∉ s.hss.issued then
    ((SUCCESS, env.newSchedule),
      { s with hss := s.hss.set env.newSchedule contractAddress expirySecond h.2.2 })
  else ((if env.scheduleCallAnswer = SUCCESS then UNKNOWN else env.scheduleCallAnswer, 0), s)

/-- `deleteSchedule`. -/
def deleteSchedule (scheduleAddress : Address) (s : State) : State :=
  { s with hss := s.hss.cancel scheduleAddress }

/-- `_deactivate`. -/
def deactivate (contractAddress cancelledBy : Address) (reason : String) (s : State) : State :=
  let sched := s.schedules contractAddress
  let s := if sched.currentScheduleAddr ≠ 0 then deleteSchedule sched.currentScheduleAddr s else s
  let s := s.setSchedule contractAddress { sched with currentScheduleAddr := 0, active := false }
  s.emit (.auditScheduleCancelled contractAddress cancelledBy reason)

/-- `_createSchedule` of the contract at `this`: the address of the new schedule, zero if there is none. -/
def createSchedule (this : Address) (env : Env) (contractAddress : Address) (expirySecond : ℕ)
    (s : State) : Address × State :=
  if env.hasScheduleCapacity expirySecond = false then
    let s := s.emit (.scheduleFailed contractAddress UNKNOWN "no_capacity")
    (0, deactivate contractAddress this "no_schedule_capacity" s)
  else
    let ((rc, scheduleAddress), s) := scheduleCall env contractAddress expirySecond s
    if rc ≠ SUCCESS then
      let s := s.emit (.scheduleFailed contractAddress rc "schedule_call_failed")
      (0, deactivate contractAddress this "hss_error" s)
    else
      let sched := { s.schedules contractAddress with currentScheduleAddr := scheduleAddress }
      let s := s.setSchedule contractAddress sched
      (scheduleAddress, s.emit (.auditScheduled contractAddress sched.owner scheduleAddress expirySecond
        sched.mode sched.intervalSeconds))

/-- `scheduleAudit`. -/
def scheduleAudit (this : Address) (env : Env) (contractAddress : Address) (intervalSeconds : ℕ)
    (mode : TriggerMode) (s : State) : Tx State := do
  require (contractAddress ≠ 0) "AuditScheduler: contract is zero"
  let intervalSeconds ← (if mode = .timeBased then do
      require (MIN_INTERVAL ≤ intervalSeconds) "AuditScheduler: interval too short"
      require (intervalSeconds ≤ MAX_INTERVAL) "AuditScheduler: interval too long"
      pure intervalSeconds
    else pure 0)
  let sched := s.schedules contractAddress
  let s := if sched.active = true ∧ sched.currentScheduleAddr ≠ 0 then
    deleteSchedule sched.currentScheduleAddr s else s
  let s := if sched.active = false ∧ sched.owner = 0 then
    { s with scheduledContracts := s.scheduledContracts ++ [contractAddress] } else s
  let sched := { sched with
    owner := env.sender
    mode := mode
    intervalSeconds := intervalSeconds
    timesTriggered := 0
    active := true }
  if mode = .timeBased then do
    let firstAuditDue ← checkedAdd 256 env.timestamp intervalSeconds
    let s := s.setSchedule contractAddress { sched with nextAuditDue := firstAuditDue }
    pure (createSchedule this env contractAddress firstAuditDue s).2
  else
    let s := s.setSchedule contractAddress { sched with nextAuditDue := 0, currentScheduleAddr := 0 }
    pure (s.emit (.auditScheduled contractAddress env.sender 0 0 mode intervalSeconds))

/-- `cancelSchedule`. -/
def cancelSchedule (env : Env) (contractAddress : Address) (s : State) : Tx State := do
  let sched := s.schedules contractAddress
  require (sched.active = true) "AuditScheduler: no active schedule"
  require (env.sender = sched.owner ∨ env.sender = s.owner ∨ env.sender = s.orchestrator)
    "AuditScheduler: unauthorized"
  pure (deactivate contractAddress env.sender "manual_cancel" s)

/-- `triggerAudit`. -/
def triggerAudit (this : Address) (env : Env) (contractAddress : Address) (s : State) : Tx State := do
  let sched := s.schedules contractAddress
  require (sched.active = true) "AuditScheduler: no active schedule"
  require (env.sender = this ∨ env.sender = s.orchestrator) "AuditScheduler: unauthorized caller"
  let timesTriggered ← checkedAdd 256 sched.timesTriggered 1
  let firedSchedule := sched.currentScheduleAddr
  let sched := { sched with timesTriggered := timesTriggered, currentScheduleAddr := 0 }
  let (nextScheduleAddr, s) ← (if sched.mode = .timeBased then do
      let nextDue ← checkedAdd 256 sched.nextAuditDue sched.intervalSeconds
      let s := s.setSchedule contractAddress { sched with nextAuditDue := nextDue }
      pure (createSchedule this env contractAddress nextDue s)
    else pure (0, s.setSchedule contractAddress sched))
  pure (s.emit (.auditTriggered contractAddress firedSchedule env.timestamp
    (s.schedules contractAddress).timesTriggered nextScheduleAddr))

/-- `onRedeployDetected`. -/
def onRedeployDetected (this : Address) (env : Env) (contractAddress : Address) (s : State) :
    Tx State := do
  onlyOrchestrator env s
  let sched := s.schedules contractAddress
  if sched.active = false ∨ sched.mode ≠ .redeploy then pure s
  else do
    let s := if sched.currentScheduleAddr ≠ 0 then deleteSchedule sched.currentScheduleAddr s else s
    let immediateAuditDue ← checkedAdd 256 env.timestamp REDEPLOY_DELAY
    let s := s.setSchedule contractAddress { sched with
      currentScheduleAddr := 0
      nextAuditDue := immediateAuditDue }
    pure (createSchedule this env contractAddress immediateAuditDue s).2

/-- `setOrchestrator`. -/
def setOrchestrator (env : Env) (orchestrator : Address) (s : State) : Tx State := do
  onlyOwner env s
  require (orchestrator ≠ 0) "AuditScheduler: orchestrator is zero"
  pure { s with orchestrator := orchestrator }

/-- `setAuctionContract`. -/
def setAuctionContract (env : Env) (auctionContract : Address) (s : State) : Tx State := do
  onlyOwner env s
  require (auctionContract ≠ 0) "AuditScheduler: auction is zero"
  pure { s with auctionContract := auctionContract }

/-- `setMinAuditBudget`. -/
def setMinAuditBudget (env : Env) (minAuditBudget : ℕ) (s : State) : Tx State := do
  onlyOwner env s
  pure { s with minAuditBudget := minAuditBudget }

/-- `transferOwnership`. -/
def transferOwnership (env : Env) (newOwner : Address) (s : State) : Tx State := do
  onlyOwner env s
  modifier (newOwner ≠ 0) "OwnableInvalidOwner"
  pure { s with owner := newOwner }

/-- `renounceOwnership`. -/
def renounceOwnership (env : Env) (s : State) : Tx State := do
  onlyOwner env s
  pure { s with owner := 0 }

end AuditGuard.AuditScheduler
