import AuditGuard.Hts

/-!
# AuditBudgetVault: storage and internal functions

The data of `AuditBudgetVault.sol`, its internal functions and its functions on storage alone. A mapping is a
function, and the array of the vaults is a list. Where a `uint256` field comes out of an operation, the operation
makes the check that the compiler makes.
-/

namespace AuditGuard.AuditBudgetVault

open Evm

/-- Vault configuration and accounting for a covered contract. -/
structure VaultInfo where
  contractAddress : Address
  /-- Zero if the vault does not exist. -/
  depositor : Address
  totalDeposited : ℕ
  currentBalance : ℕ
  /-- Zero if monitoring is not limited. -/
  weeklyMonitoringBudget : ℕ
  weeklyMonitoringSpent : ℕ
  weeklyResetTimestamp : ℕ
  criticalBountyAllocation : ℕ
  criticalBountySpent : ℕ
  lastAuditTimestamp : ℕ
  active : Bool
deriving DecidableEq

/-- A vault that was never written. -/
def VaultInfo.zero : VaultInfo := ⟨0, 0, 0, 0, 0, 0, 0, 0, 0, 0, false⟩

/-- The contract's events. -/
inductive Event
  | vaultCreated (contractAddress depositor : Address)
      (weeklyMonitoringBudget criticalBountyAllocation : ℕ)
  | vaultDeposited (contractAddress : Address) (amount newBalance : ℕ)
  | paymentDrawn (contractAddress agent : Address) (amount : ℕ)
  | monitoringPaymentDrawn (contractAddress agent : Address) (amount weeklyRemaining : ℕ)
  | bountyDrawn (contractAddress agent : Address) (amount bountyRemaining : ℕ)
  | vaultWithdrawal (contractAddress : Address) (amount : ℕ)
  | vaultRulesUpdated (contractAddress : Address)
  | guardTokenAssociated (token : Address)
deriving DecidableEq

/-- The contract's storage, with the log of its events. -/
structure State where
  owner : Address
  guardToken : Address
  authorizedDrawer : Address
  vaults : Address → VaultInfo
  vaultList : List Address
  /-- The events emitted so far, oldest first. -/
  log : List Event

/-- What a call reads from outside the contract: its message, and what HTS answers. -/
structure Env extends Msg where
  transferAnswer : ℤ
  associateAnswer : ℤ

namespace State

/-- Appends an event to the log. -/
@[simps -fullyApplied]
def emit (s : State) (e : Event) : State := { s with log := s.log ++ [e] }

/-- Writes a vault. -/
@[simps -fullyApplied]
def setVault (s : State) (contractAddress : Address) (vault : VaultInfo) : State :=
  { s with vaults := Function.update s.vaults contractAddress vault }

end State

/-- Seven days. -/
def WEEK : ℕ := 7 * 86400

/-- The modifier `onlyOwner`. -/
def onlyOwner (env : Env) (s : State) : Tx Unit :=
  modifier (env.sender = s.owner) "OwnableUnauthorizedAccount"

/-- The modifier `onlyAuthorizedDrawer`. -/
def onlyAuthorizedDrawer (env : Env) (s : State) : Tx Unit :=
  require (env.sender = s.authorizedDrawer) "AuditBudgetVault: caller is not authorized drawer"

/-- `_getActiveVault`. -/
def getActiveVault (contractAddress : Address) (s : State) : Tx VaultInfo := do
  require ((s.vaults contractAddress).active = true) "AuditBudgetVault: vault not active"
  pure (s.vaults contractAddress)

/-- `_resetWeeklyIfNeeded`. -/
def resetWeeklyIfNeeded (env : Env) (vault : VaultInfo) : Tx VaultInfo := do
  let elapsed ← checkedAdd 256 vault.weeklyResetTimestamp WEEK
  if elapsed ≤ env.timestamp then
    pure { vault with weeklyMonitoringSpent := 0, weeklyResetTimestamp := env.timestamp }
  else pure vault

/-- `_monitoringBudgetRemaining`. -/
def monitoringBudgetRemaining (vault : VaultInfo) : Tx ℕ :=
  if vault.weeklyMonitoringBudget = 0 then pure vault.currentBalance
  else if vault.weeklyMonitoringBudget ≤ vault.weeklyMonitoringSpent then pure 0
  else checkedSub vault.weeklyMonitoringBudget vault.weeklyMonitoringSpent

/-- `_bountyRemaining`. -/
def bountyRemaining (vault : VaultInfo) : Tx ℕ :=
  if vault.criticalBountyAllocation ≤ vault.criticalBountySpent then pure 0
  else checkedSub vault.criticalBountyAllocation vault.criticalBountySpent

/-- `createVault`. -/
def createVault (env : Env) (contractAddress : Address)
    (weeklyMonitoringBudget criticalBountyAllocation : ℕ) (s : State) : Tx State := do
  require (contractAddress ≠ 0) "AuditBudgetVault: contract is zero"
  require ((s.vaults contractAddress).depositor = 0) "AuditBudgetVault: vault already exists"
  let s := s.setVault contractAddress {
    contractAddress := contractAddress
    depositor := env.sender
    totalDeposited := 0
    currentBalance := 0
    weeklyMonitoringBudget := weeklyMonitoringBudget
    weeklyMonitoringSpent := 0
    weeklyResetTimestamp := env.timestamp
    criticalBountyAllocation := criticalBountyAllocation
    criticalBountySpent := 0
    lastAuditTimestamp := 0
    active := true }
  let s := { s with vaultList := s.vaultList ++ [contractAddress] }
  pure (s.emit (.vaultCreated contractAddress env.sender weeklyMonitoringBudget
    criticalBountyAllocation))

/-- `updateVaultRules`. -/
def updateVaultRules (env : Env) (contractAddress : Address)
    (newWeeklyMonitoringBudget newCriticalBountyAllocation : ℕ) (s : State) : Tx State := do
  let vault ← getActiveVault contractAddress s
  require (env.sender = vault.depositor) "AuditBudgetVault: caller is not depositor"
  require (vault.criticalBountySpent ≤ newCriticalBountyAllocation) "AuditBudgetVault: below bounty spent"
  let vault ← resetWeeklyIfNeeded env vault
  let s := s.setVault contractAddress { vault with
    weeklyMonitoringBudget := newWeeklyMonitoringBudget
    criticalBountyAllocation := newCriticalBountyAllocation }
  pure (s.emit (.vaultRulesUpdated contractAddress))

/-- `setAuthorizedDrawer`. -/
def setAuthorizedDrawer (env : Env) (auctionContract : Address) (s : State) : Tx State := do
  onlyOwner env s
  require (auctionContract ≠ 0) "AuditBudgetVault: drawer is zero"
  pure { s with authorizedDrawer := auctionContract }

/-- `associateGuardToken`. -/
def associateGuardToken (env : Env) (s : State) : Tx State := do
  onlyOwner env s
  require (env.associateAnswer = Hts.HTS_SUCCESS ∨
    env.associateAnswer = Hts.HTS_TOKEN_ALREADY_ASSOCIATED) "AuditBudgetVault: token association failed"
  pure (s.emit (.guardTokenAssociated s.guardToken))

/-- `transferOwnership`. -/
def transferOwnership (env : Env) (newOwner : Address) (s : State) : Tx State := do
  onlyOwner env s
  modifier (newOwner ≠ 0) "OwnableInvalidOwner"
  pure { s with owner := newOwner }

/-- `renounceOwnership`. -/
def renounceOwnership (env : Env) (s : State) : Tx State := do
  onlyOwner env s
  pure { s with owner := 0 }

end AuditGuard.AuditBudgetVault
