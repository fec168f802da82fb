import AuditGuard.AuditScheduler.Model

/-!
# AuditScheduler: calls and runs

The external functions of `AuditScheduler.sol`, and the contract under all calls by all callers, from its
deployment on. Besides these, the network fires the schedules that are pending: it removes the schedule and
calls `triggerAudit` in the name of the contract.
-/

namespace AuditGuard.AuditScheduler

open Evm

/-- The state-changing external functions with their arguments, and what the network does. -/
inductive Call
  | scheduleAudit (contractAddress : Address) (intervalSeconds : UInt 256) (mode : TriggerMode)
  | cancelSchedule (contractAddress : Address)
  | triggerAudit (contractAddress : Address)
  | onRedeployDetected (contractAddress : Address)
  | setOrchestrator (orchestrator : Address)
  | setAuctionContract (auctionContract : Address)
  | setMinAuditBudget (minAuditBudget : UInt 256)
  | transferOwnership (newOwner : Address)
  | renounceOwnership
  /-- The network fires the schedule at the address. -/
  | fire (scheduleAddress : Address)
deriving DecidableEq

variable (this : Address) (env : Env)

/-- The network fires a pending schedule: it is gone, and `triggerAudit` is called as the contract itself. If
the call reverts, the schedule is gone all the same. -/
def fire (scheduleAddress : Address) (s : State) : Tx State := do
  let entry ← orRevert .callFailed (s.hss.pending.find? fun e => e.handle = scheduleAddress)
  let s := { s with hss := s.hss.cancel scheduleAddress }
  match triggerAudit this { env with sender := this } entry.key s with
  | .ok s => pure s
  | .error _ => pure s

/-- One call. No function is payable, so that a message with HBAR is refused. -/
def exec (c : Call) (w : World State) : Tx (World State) :=
  if env.value ≠ 0 then .error .callFailed
  else match c with
  | .scheduleAudit contractAddress intervalSeconds mode =>
    onState (scheduleAudit this env contractAddress intervalSeconds mode) w
  | .cancelSchedule contractAddress => onState (cancelSchedule env contractAddress) w
  | .triggerAudit contractAddress => onState (triggerAudit this env contractAddress) w
  | .onRedeployDetected contractAddress => onState (onRedeployDetected this env contractAddress) w
  | .setOrchestrator orchestrator => onState (setOrchestrator env orchestrator) w
  | .setAuctionContract auctionContract => onState (setAuctionContract env auctionContract) w
  | .setMinAuditBudget minAuditBudget => onState (setMinAuditBudget env minAuditBudget) w
  | .transferOwnership newOwner => onState (transferOwnership env newOwner) w
  | .renounceOwnership => onState (renounceOwnership env) w
  | .fire scheduleAddress => onState (fire this env scheduleAddress) w

/-- In whose name a call is made. -/
def caller : Call → Address
  | .fire _ => this
  | _ => env.sender

/-- The storage that the constructor leaves. -/
def State.fresh (deployer guardToken auctionContract orchestrator : Address) (minAuditBudget : ℕ) :
    State where
  owner := deployer
  guardToken := guardToken
  auctionContract := auctionContract
  orchestrator := orchestrator
  minAuditBudget := minAuditBudget
  schedules := fun _ => AuditSchedule.zero
  scheduledContracts := []
  hss := Alarms.Clock.empty
  log := []

/-- The constructor, called by `deployer`. -/
def deploy (deployer guardToken auctionContract orchestrator : Address) (minAuditBudget : ℕ) :
    Tx State := do
  modifier (deployer ≠ 0) "OwnableInvalidOwner"
  require (guardToken ≠ 0) "AuditScheduler: guard token is zero"
  require (auctionContract ≠ 0) "AuditScheduler: auction is zero"
  require (orchestrator ≠ 0) "AuditScheduler: orchestrator is zero"
  pure (State.fresh deployer guardToken auctionContract orchestrator minAuditBudget)

/-- The contract, at the address `this`. -/
def contract : Contract State Env Call where
  this := this
  fresh s := ∃ deployer guardToken auctionContract orchestrator minAuditBudget,
    deploy deployer guardToken auctionContract orchestrator minAuditBudget = .ok s
  msg := Env.toMsg
  exec := exec this

theorem fresh_state_eq {s : State} (h : (contract this).fresh s) :
    ∃ deployer guardToken auctionContract orchestrator minAuditBudget,
      s = State.fresh deployer guardToken auctionContract orchestrator minAuditBudget := by
  obtain ⟨deployer, guardToken, auctionContract, orchestrator, minAuditBudget, hdeploy⟩ := h
  simp only [deploy, bind_eq_ok, pure_eq_ok] at hdeploy
  obtain ⟨_, -, _, -, _, -, _, -, rfl⟩ := hdeploy
  exact ⟨deployer, guardToken, auctionContract, orchestrator, minAuditBudget, rfl⟩

/-! ## A sample scheduler

The contract at address 1, deployed by 9, with GUARD at 7, the auction contract 4 and the orchestrator 5. The
service takes every schedule. -/

/-- The scheduler at its deployment. -/
def sampleWorld : World State where
  state := State.fresh 9 7 4 5 (5 * 10^8)
  token := Ledger.single 2 0 TokenLedger.zero_lt
  now := 0

/-- A call without HBAR; a schedule that it creates is `newSchedule`. -/
def sampleEnv (sender : Address) (timestamp : ℕ) (newSchedule : Address) : Env where
  sender := sender
  value := 0
  timestamp := timestamp
  hasScheduleCapacity := fun _ => true
  scheduleCallAnswer := SUCCESS
  newSchedule := newSchedule

theorem sample_run (calls : List (Env × Call)) (hs : (contract 1).Scheduled 0 calls)
    (h : ((contract 1).execAll calls sampleWorld).isOk = true) :
    ∃ ts w, (contract 1).execAll calls sampleWorld = .ok w ∧ (contract 1).system.Run ts w ∧
      (contract 1).trace calls sampleWorld = .ok ts :=
  Contract.exists_run ⟨9, 7, 4, 5, 5 * 10^8, rfl⟩ hs h

end AuditGuard.AuditScheduler
