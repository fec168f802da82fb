import AuditGuard.Hts
import AuditGuard.PaymentSettlement.Model

/-!
# PaymentSettlement: calls and runs

The external functions of `PaymentSettlement.sol` that move GUARD, and the contract under all calls by all
callers, from its deployment on. The contract calls HTS, which calls nobody, and `completeJob` of the main
auction, which leaves the contract and its tokens alone. The token's address has no setter, so that one
ledger is enough.
-/

namespace AuditGuard.PaymentSettlement

open Evm

/-- `_transferGuard`. -/
def transferGuard (env : Env) (src dst : Address) (amount : ℕ) (w : World State) : Tx (World State) :=
  Hts.transfer "PaymentSettlement" env.transferAnswer src dst amount w

variable (this : Address) (env : Env)

/-- A payment out of the contract, unless the amount is zero. -/
def pay (recipient : Address) (amount : ℕ) (w : World State) : Tx (World State) :=
  if 0 < amount then transferGuard env this recipient amount w else pure w

/-- The body of the first loop of `_executeTransfers`. -/
def payItem (w : World State) (line : PaymentItem × ℕ) : Tx (World State) := do
  let gross ← checkedAdd 256 line.1.basePayment line.1.bonus
  let netPayment ← checkedSub gross line.2
  pay this env line.1.recipient netPayment w

/-- `_executeTransfers`. -/
def executeTransfers (payments : List PaymentItem) (calculation : Calculation) (reportAgent : Address)
    (w : World State) : Tx (World State) := do
  let w ← (payments.zip calculation.reportFees).foldlM (payItem this env) w
  let w ← pay this env reportAgent calculation.totalReportFees w
  pay this env w.state.treasury calculation.platformFee w

/-- `settleJob`. -/
def settleJob (jobId : ℕ) (payments : List PaymentItem) (reportAgent : Address) (w : World State) :
    Tx (World State) := do
  onlyOrchestrator env w.state
  whenNotPaused w.state
  validateJobForSettlement env jobId w.state
  require (0 < payments.length) "PaymentSettlement: empty payment list"
  require (reportAgent ≠ 0) "PaymentSettlement: report agent is zero"
  let calculation ← calculateSettlement env payments w.state
  let w ← executeTransfers this env payments calculation reportAgent w
  let (settlementId, s) ← recordSettlement env jobId payments calculation w.state
  env.completeJob jobId
  let totalDisbursed ← checkedAdd 256 calculation.totalPayout calculation.platformFee
  pure { w with state := s.emit (.jobSettled settlementId jobId totalDisbursed calculation.platformFee
    calculation.totalReportFees payments.length) }

/-- `depositSettlementFunds`. -/
def depositSettlementFunds (amount : ℕ) (w : World State) : Tx (World State) := do
  whenNotPaused w.state
  require (0 < amount) "PaymentSettlement: zero deposit"
  let w ← transferGuard env env.sender this amount w
  pure { w with state := w.state.emit (.fundsDeposited env.sender amount) }

/-- `withdrawExcess`. -/
def withdrawExcess (amount : ℕ) (w : World State) : Tx (World State) := do
  onlyOrchestrator env w.state
  whenNotPaused w.state
  require (0 < amount) "PaymentSettlement: zero withdrawal"
  let w ← transferGuard env this w.state.orchestrator amount w
  pure { w with state := w.state.emit (.fundsWithdrawn w.state.orchestrator amount) }

/-- `associateGuardToken`. -/
def associateGuardToken (s : State) : Tx State := do
  require (env.associateAnswer = Hts.HTS_SUCCESS ∨
    env.associateAnswer = Hts.HTS_TOKEN_ALREADY_ASSOCIATED)
    "PaymentSettlement: token association failed"
  pure s

/-- A line item as a caller passes it. -/
structure ItemArg where
  recipient : Address
  basePayment : UInt 256
  bonus : UInt 256
  reportFee : UInt 256
  paymentType : PaymentType
  description : String

/-- The line item. -/
def ItemArg.toItem (item : ItemArg) : PaymentItem :=
  ⟨item.recipient, item.basePayment, item.bonus, item.reportFee, item.paymentType, item.description⟩

/-- The state-changing external functions with their arguments. -/
inductive Call
  | settleJob (jobId : UInt 256) (payments : List ItemArg) (reportAgent : Address)
  | settleSubJob (subJobId : UInt 256)
  | depositSettlementFunds (amount : UInt 256)
  | withdrawExcess (amount : UInt 256)
  | setOrchestrator (orchestrator : Address)
  | setTreasury (treasury : Address)
  | setMainAuction (mainAuction : Address)
  | setSubAuction (subAuction : Address)
  | setBudgetVault (budgetVault : Address)
  | setAgentRegistry (agentRegistry : Address)
  | setPlatformFeePercent (platformFeePercent : UInt 256)
  | setReportFees (base discounted threshold : UInt 256)
  | associateGuardToken
  | pause
  | unpause
  | transferOwnership (newOwner : Address)
  | renounceOwnership

/-- One call. No function is payable, so that a message with HBAR is refused. -/
def exec (c : Call) (w : World State) : Tx (World State) :=
  if env.value ≠ 0 then .error .callFailed
  else match c with
  | .settleJob jobId payments reportAgent =>
    settleJob this env jobId (payments.map ItemArg.toItem) reportAgent w
  | .settleSubJob subJobId => onState (settleSubJob env subJobId) w
  | .depositSettlementFunds amount => depositSettlementFunds this env amount w
  | .withdrawExcess amount => withdrawExcess this env amount w
  | .setOrchestrator orchestrator => onState (setOrchestrator env orchestrator) w
  | .setTreasury treasury => onState (setTreasury env treasury) w
  | .setMainAuction mainAuction => onState (setMainAuction env mainAuction) w
  | .setSubAuction subAuction => onState (setSubAuction env subAuction) w
  | .setBudgetVault budgetVault => onState (setBudgetVault env budgetVault) w
  | .setAgentRegistry agentRegistry => onState (setAgentRegistry env agentRegistry) w
  | .setPlatformFeePercent platformFeePercent =>
    onState (setPlatformFeePercent env platformFeePercent) w
  | .setReportFees base discounted threshold => onState (setReportFees env base discounted threshold) w
  | .associateGuardToken => onState (associateGuardToken env) w
  | .pause => onState (pause env) w
  | .unpause => onState (unpause env) w
  | .transferOwnership newOwner => onState (transferOwnership env newOwner) w
  | .renounceOwnership => onState (renounceOwnership env) w

/-- The storage that the constructor leaves. -/
def State.fresh (deployer guardToken agentRegistry mainAuction subAuction treasury
    orchestrator : Address) : State where
  owner := deployer
  paused := false
  guardToken := guardToken
  agentRegistry := agentRegistry
  mainAuction := mainAuction
  subAuction := subAuction
  budgetVault := 0
  treasury := treasury
  orchestrator := orchestrator
  platformFeePercent := 5
  reportFeeBase := 1 * 10^7
  reportFeeDiscountThreshold := 8500
  reportFeeDiscounted := 5 * 10^6
  nextSettlementId := 1
  settlements := fun _ => SettlementRecord.zero
  jobToSettlement := fun _ => 0
  settlementPayments := fun _ => []
  log := []

/-- The constructor, called by `deployer`. -/
def deploy (deployer guardToken agentRegistry mainAuction subAuction treasury
    orchestrator : Address) : Tx State := do
  modifier (deployer ≠ 0) "OwnableInvalidOwner"
  require (guardToken ≠ 0) "PaymentSettlement: guard token is zero"
  require (agentRegistry ≠ 0) "PaymentSettlement: agent registry is zero"
  require (mainAuction ≠ 0) "PaymentSettlement: main auction is zero"
  require (subAuction ≠ 0) "PaymentSettlement: sub auction is zero"
  require (treasury ≠ 0) "PaymentSettlement: treasury is zero"
  require (orchestrator ≠ 0) "PaymentSettlement: orchestrator is zero"
  pure (State.fresh deployer guardToken agentRegistry mainAuction subAuction treasury orchestrator)

/-- The contract, at the address `this`. -/
def contract : Contract State Env Call where
  this := this
  fresh s := ∃ deployer guardToken agentRegistry mainAuction subAuction treasury orchestrator,
    deploy deployer guardToken agentRegistry mainAuction subAuction treasury orchestrator = .ok s
  msg := Env.toMsg
  exec := exec this

variable {this} in
theorem fresh_state_eq {s : State} (h : (contract this).fresh s) :
    ∃ deployer guardToken agentRegistry mainAuction subAuction treasury orchestrator,
      s = State.fresh deployer guardToken agentRegistry mainAuction subAuction treasury
        orchestrator := by
  obtain ⟨deployer, guardToken, agentRegistry, mainAuction, subAuction, treasury, orchestrator, h⟩ := h
  simp only [deploy, bind_eq_ok, pure_eq_ok] at h
  obtain ⟨_, -, _, -, _, -, _, -, _, -, _, -, _, -, h⟩ := h
  exact ⟨deployer, guardToken, agentRegistry, mainAuction, subAuction, treasury, orchestrator, h.symm⟩

/-! ## A sample settlement contract

The contract at address 1, deployed by 9, with GUARD at 7, the registry 6, the main auction 4, the sub-auction
8, the treasury 10 and the orchestrator 5, who holds tokens. Every outside condition is met. -/

/-- The contract at its deployment. -/
def sampleWorld : World State where
  state := State.fresh 9 7 6 4 8 10 5
  token := Ledger.single 5 (10^12) TokenLedger.trillion_lt
  now := 0

/-- A call without HBAR, of which everything outside succeeds. -/
def sampleEnv (sender : Address) (timestamp : ℕ) : Env where
  sender := sender
  value := 0
  timestamp := timestamp
  isActiveAgent := fun _ => .ok true
  getAgentReputation := fun _ => .ok 5000
  getJobStatus := fun _ => .ok .auditingInProgress
  completeJob := fun _ => .ok ()
  getSubJob := fun _ => .ok SubAuction.SubJob.zero
  transferAnswer := Hts.HTS_SUCCESS
  associateAnswer := Hts.HTS_SUCCESS

theorem sample_run (calls : List (Env × Call)) (hs : (contract 1).Scheduled 0 calls)
    (h : ((contract 1).execAll calls sampleWorld).isOk = true) :
    ∃ ts w, (contract 1).execAll calls sampleWorld = .ok w ∧ (contract 1).system.Run ts w ∧
      (contract 1).trace calls sampleWorld = .ok ts :=
  Contract.exists_run ⟨9, 7, 6, 4, 8, 10, 5, rfl⟩ hs h

end AuditGuard.PaymentSettlement
