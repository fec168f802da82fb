import AuditGuard.AuditBudgetVault.Model

/-!
# AuditBudgetVault: calls and runs

The external functions of `AuditBudgetVault.sol` that move GUARD, and the contract under all calls by all
callers, from its deployment on. The contract calls HTS only, which calls nobody. The token's address has no
setter, so that one ledger is enough.
-/

namespace AuditGuard.AuditBudgetVault

open Evm

/-- `_transferGuard`. -/
def transferGuard (env : Env) (src dst : Address) (amount : ℕ) (w : World State) : Tx (World State) :=
  Hts.transfer "AuditBudgetVault" env.transferAnswer src dst amount w

variable (this : Address) (env : Env)

/-- `deposit`. What it computes of the critical bucket has no effect, and is left out. -/
def deposit (contractAddress : Address) (amount : ℕ) (w : World State) : Tx (World State) := do
  require (0 < amount) "AuditBudgetVault: amount is zero"
  let vault ← getActiveVault contractAddress w.state
  let w ← transferGuard env env.sender this amount w
  let totalDeposited ← checkedAdd 256 vault.totalDeposited amount
  let currentBalance ← checkedAdd 256 vault.currentBalance amount
  let s := w.state.setVault contractAddress { vault with
    totalDeposited := totalDeposited
    currentBalance := currentBalance }
  pure { w with state := s.emit (.vaultDeposited contractAddress amount currentBalance) }

/-- `drawPayment`. -/
def drawPayment (contractAddress agent : Address) (amount : ℕ) (w : World State) :
    Tx (World State) := do
  onlyAuthorizedDrawer env w.state
  require (agent ≠ 0) "AuditBudgetVault: agent is zero"
  require (0 < amount) "AuditBudgetVault: amount is zero"
  let vault ← getActiveVault contractAddress w.state
  require (amount ≤ vault.currentBalance) "AuditBudgetVault: insufficient balance"
  let currentBalance ← checkedSub vault.currentBalance amount
  let s := w.state.setVault contractAddress { vault with
    currentBalance := currentBalance
    lastAuditTimestamp := env.timestamp }
  let w ← transferGuard env this agent amount { w with state := s }
  pure { w with state := w.state.emit (.paymentDrawn contractAddress agent amount) }

/-- `drawMonitoringPayment`. -/
def drawMonitoringPayment (contractAddress agent : Address) (amount : ℕ) (w : World State) :
    Tx (World State) := do
  onlyAuthorizedDrawer env w.state
  require (agent ≠ 0) "AuditBudgetVault: agent is zero"
  require (0 < amount) "AuditBudgetVault: amount is zero"
  let vault ← getActiveVault contractAddress w.state
  require (amount ≤ vault.currentBalance) "AuditBudgetVault: insufficient balance"
  let vault ← resetWeeklyIfNeeded env vault
  let _ ← (if vault.weeklyMonitoringBudget ≠ 0 then do
      let spent ← checkedAdd 256 vault.weeklyMonitoringSpent amount
      require (spent ≤ vault.weeklyMonitoringBudget) "AuditBudgetVault: weekly budget exceeded"
    else pure ())
  let currentBalance ← checkedSub vault.currentBalance amount
  let weeklyMonitoringSpent ← checkedAdd 256 vault.weeklyMonitoringSpent amount
  let vault := { vault with
    currentBalance := currentBalance
    weeklyMonitoringSpent := weeklyMonitoringSpent
    lastAuditTimestamp := env.timestamp }
  let w ← transferGuard env this agent amount
    { w with state := w.state.setVault contractAddress vault }
  let weeklyRemaining ← monitoringBudgetRemaining vault
  let s := w.state.emit (.monitoringPaymentDrawn contractAddress agent amount weeklyRemaining)
  pure { w with state := s }

/-- `drawBounty`. -/
def drawBounty (contractAddress agent : Address) (amount : ℕ) (w : World State) :
    Tx (World State) := do
  onlyAuthorizedDrawer env w.state
  require (agent ≠ 0) "AuditBudgetVault: agent is zero"
  require (0 < amount) "AuditBudgetVault: amount is zero"
  let vault ← getActiveVault contractAddress w.state
  require (amount ≤ vault.currentBalance) "AuditBudgetVault: insufficient balance"
  let spent ← checkedAdd 256 vault.criticalBountySpent amount
  require (spent ≤ vault.criticalBountyAllocation) "AuditBudgetVault: bounty allocation exceeded"
  let currentBalance ← checkedSub vault.currentBalance amount
  let criticalBountySpent ← checkedAdd 256 vault.criticalBountySpent amount
  let vault := { vault with
    currentBalance := currentBalance
    criticalBountySpent := criticalBountySpent
    lastAuditTimestamp := env.timestamp }
  let w ← transferGuard env this agent amount
    { w with state := w.state.setVault contractAddress vault }
  let remaining ← bountyRemaining vault
  pure { w with state := w.state.emit (.bountyDrawn contractAddress agent amount remaining) }

/-- `withdrawExcess`. -/
def withdrawExcess (contractAddress : Address) (amount : ℕ) (w : World State) : Tx (World State) := do
  require (0 < amount) "AuditBudgetVault: amount is zero"
  let vault ← getActiveVault contractAddress w.state
  require (env.sender = vault.depositor) "AuditBudgetVault: caller is not depositor"
  require (amount ≤ vault.currentBalance) "AuditBudgetVault: insufficient balance"
  let currentBalance ← checkedSub vault.currentBalance amount
  let s := w.state.setVault contractAddress { vault with currentBalance := currentBalance }
  let w ← transferGuard env this vault.depositor amount { w with state := s }
  pure { w with state := w.state.emit (.vaultWithdrawal contractAddress amount) }

/-- The state-changing external functions with their arguments. -/
inductive Call
  | createVault (contractAddress : Address)
      (weeklyMonitoringBudget criticalBountyAllocation : UInt 256)
  | deposit (contractAddress : Address) (amount : UInt 256)
  | drawPayment (contractAddress agent : Address) (amount : UInt 256)
  | drawMonitoringPayment (contractAddress agent : Address) (amount : UInt 256)
  | drawBounty (contractAddress agent : Address) (amount : UInt 256)
  | withdrawExcess (contractAddress : Address) (amount : UInt 256)
  | updateVaultRules (contractAddress : Address)
      (newWeeklyMonitoringBudget newCriticalBountyAllocation : UInt 256)
  | setAuthorizedDrawer (auctionContract : Address)
  | associateGuardToken
  | transferOwnership (newOwner : Address)
  | renounceOwnership

/-- One call. No function is payable, so that a message with HBAR is refused. -/
def exec (c : Call) (w : World State) : Tx (World State) :=
  if env.value ≠ 0 then .error .callFailed
  else match c with
  | .createVault contractAddress weeklyMonitoringBudget criticalBountyAllocation =>
    onState (createVault env contractAddress weeklyMonitoringBudget criticalBountyAllocation) w
  | .deposit contractAddress amount => deposit this env contractAddress amount w
  | .drawPayment contractAddress agent amount => drawPayment this env contractAddress agent amount w
  | .drawMonitoringPayment contractAddress agent amount =>
    drawMonitoringPayment this env contractAddress agent amount w
  | .drawBounty contractAddress agent amount => drawBounty this env contractAddress agent amount w
  | .withdrawExcess contractAddress amount => withdrawExcess this env contractAddress amount w
  | .updateVaultRules contractAddress newWeeklyMonitoringBudget newCriticalBountyAllocation =>
    onState (updateVaultRules env contractAddress newWeeklyMonitoringBudget newCriticalBountyAllocation) w
  | .setAuthorizedDrawer auctionContract => onState (setAuthorizedDrawer env auctionContract) w
  | .associateGuardToken => onState (associateGuardToken env) w
  | .transferOwnership newOwner => onState (transferOwnership env newOwner) w
  | .renounceOwnership => onState (renounceOwnership env) w

/-- The storage that the constructor leaves. -/
def State.fresh (deployer guardToken : Address) : State where
  owner := deployer
  guardToken := guardToken
  authorizedDrawer := 0
  vaults := fun _ => VaultInfo.zero
  vaultList := []
  log := []

/-- The constructor, called by `deployer`. -/
def deploy (deployer guardToken : Address) : Tx State := do
  modifier (deployer ≠ 0) "OwnableInvalidOwner"
  require (guardToken ≠ 0) "AuditBudgetVault: guard token is zero"
  pure (State.fresh deployer guardToken)

/-- The contract, at the address `this`. -/
def contract : Contract State Env Call where
  this := this
  fresh s := ∃ deployer guardToken, deploy deployer guardToken = .ok s
  msg := Env.toMsg
  exec := exec this

/-! ## A sample vault contract

The contract at address 1, deployed by 9, with GUARD at 7. The accounts 2 and 3 hold tokens, and HTS takes every
transfer. -/

/-- The vault at its deployment. -/
def sampleWorld : World State where
  state := State.fresh 9 7
  token := ((Ledger.single 2 (2 * 10^12) TokenLedger.two_trillion_lt).transfer 2 3 (10^12)).getD
    (Ledger.single 2 0 TokenLedger.zero_lt)
  now := 0

/-- A call without HBAR, of which HTS takes the transfers. -/
def sampleEnv (sender : Address) (timestamp : ℕ) : Env where
  sender := sender
  value := 0
  timestamp := timestamp
  transferAnswer := Hts.HTS_SUCCESS
  associateAnswer := Hts.HTS_SUCCESS

theorem sample_run (calls : List (Env × Call)) (hs : (contract 1).Scheduled 0 calls)
    (h : ((contract 1).execAll calls sampleWorld).isOk = true) :
    ∃ ts w, (contract 1).execAll calls sampleWorld = .ok w ∧ (contract 1).system.Run ts w ∧
      (contract 1).trace calls sampleWorld = .ok ts :=
  Contract.exists_run ⟨9, 7, rfl⟩ hs h

end AuditGuard.AuditBudgetVault
