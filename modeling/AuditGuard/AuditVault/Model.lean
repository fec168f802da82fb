import AuditGuard.AgentRegistry.Model

/-!
# AuditVault: storage and internal functions

The data of `AuditVault.sol` and its functions on storage alone. The configuration is stored as it came
in a call, so that its numbers carry their bound; all other `uint256` fields are natural numbers, and
each operation on them makes the check that the compiler makes.

The vault pays for audits, bounties and monitoring out of one balance, of which two parts are
earmarked: `reservedForEscrow` for running audits, and the unspent part of `criticalBountyPool`.
-/

namespace AuditGuard.AuditVault

open Evm
open AgentRegistry (AgentTier)

/-- Duration of one monitoring payment window. -/
def WEEK : ℕ := 7 * 86400

/-- Configuration rules governing vault behaviour. -/
structure VaultConfig where
  /-- The most GUARD per week that the vault pays for monitoring. -/
  weeklyMonitoringBudget : UInt 256
  /-- GUARD reserved for critical vulnerability bounties. -/
  criticalBountyAllocation : UInt 256
  /-- Seconds between automatic re-audits, 0 for manual ones only. -/
  reauditIntervalSeconds : UInt 256
  /-- The most GUARD for a single audit, 0 for no limit. -/
  maxSingleAuditBudget : UInt 256
  acceptsMonitoringBids : Bool
deriving DecidableEq

/-- A configuration that was never written. -/
def VaultConfig.zero : VaultConfig := ⟨0, 0, 0, 0, false⟩

/-- A monitoring subscription. -/
structure MonitoringSubscription where
  /-- The monitoring agent's wallet, zero if there is none. -/
  agent : Address
  /-- GUARD per week. -/
  weeklyRate : ℕ
  startedAt : ℕ
  /-- When the agent was paid last. -/
  lastPaymentAt : ℕ
  /-- When the subscription expires, 0 for never. -/
  expiresAt : ℕ
  active : Bool
deriving DecidableEq

/-- A subscription that was never written. -/
def MonitoringSubscription.zero : MonitoringSubscription := ⟨0, 0, 0, 0, 0, false⟩

/-- The contract's events. -/
inductive Event
  | deposited (depositor : Address) (amount newBalance : ℕ)
  | withdrawn (depositor : Address) (amount : ℕ)
  | budgetReserved (amount totalReserved : ℕ)
  | paymentDrawn (recipient : Address) (amount : ℕ)
  | reservationReleased (amount : ℕ)
  | bountyPaid (recipient : Address) (amount : ℕ)
  | monitoringApplied (agent : Address) (weeklyRate : ℕ)
  | monitoringAgentChanged (oldAgent newAgent : Address) (newRate : ℕ)
  | monitoringPaymentClaimed (agent : Address) (amount : ℕ)
  | monitoringCancelled (agent : Address)
  | auditRecorded (securityScore totalAudits : ℕ)
  | autoAuditTriggered (reason : String)
  | configUpdated
  | guardTokenAssociated (token : Address)
deriving DecidableEq

/-- The contract's storage, with the log of its events. -/
structure State where
  factory : Address
  guardToken : Address
  contractAddress : Address
  contractChain : String
  /-- The vault's admin. -/
  creator : Address
  agentRegistry : Address
  config : VaultConfig
  initialized : Bool
  /-- All GUARD ever deposited. -/
  totalDeposited : ℕ
  /-- GUARD that the vault accounts for, the earmarked parts included. -/
  currentBalance : ℕ
  /-- GUARD locked by active audit auctions. -/
  reservedForEscrow : ℕ
  /-- The funded portion of the bounty allocation. -/
  criticalBountyPool : ℕ
  /-- GUARD already paid out from the bounty pool. -/
  criticalBountySpent : ℕ
  activeMonitor : MonitoringSubscription
  /-- GUARD spent on monitoring in the current window. -/
  weeklyMonitoringSpent : ℕ
  /-- Start of the current monitoring window. -/
  weeklyResetTimestamp : ℕ
  lastAuditTimestamp : ℕ
  totalAuditsCompleted : ℕ
  lastSecurityScore : ℕ
  auditTriggerPending : Bool
  balanceAtLastAudit : ℕ
  depositorBalances : Address → ℕ
  depositors : List Address
  isDepositor : Address → Bool
  authorizedDrawers : Address → Bool
  /-- The events emitted so far, oldest first. -/
  log : List Event

/-- What a call reads from outside the contract: its message, what the agent registry reports, whether
the factory takes the vault's callbacks, and what HTS answers. -/
structure Env extends Msg where
  isActiveAgent : Address → Bool
  getAgentTier : Address → AgentTier
  factoryAccepts : Bool
  transferAnswer : ℤ
  associateAnswer : ℤ

namespace State

/-- The storage of a vault that is deployed and not initialized. -/
def blank : State where
  factory := 0
  guardToken := 0
  contractAddress := 0
  contractChain := ""
  creator := 0
  agentRegistry := 0
  config := VaultConfig.zero
  initialized := false
  totalDeposited := 0
  currentBalance := 0
  reservedForEscrow := 0
  criticalBountyPool := 0
  criticalBountySpent := 0
  activeMonitor := MonitoringSubscription.zero
  weeklyMonitoringSpent := 0
  weeklyResetTimestamp := 0
  lastAuditTimestamp := 0
  totalAuditsCompleted := 0
  lastSecurityScore := 0
  auditTriggerPending := false
  balanceAtLastAudit := 0
  depositorBalances := fun _ => 0
  depositors := []
  isDepositor := fun _ => false
  authorizedDrawers := fun _ => false
  log := []

/-- Appends an event to the log. -/
@[simps -fullyApplied]
def emit (s : State) (e : Event) : State := { s with log := s.log ++ [e] }

/-- GUARD that is not reserved, 0 where more is reserved than there is. -/
def available (s : State) : ℕ :=
  if s.reservedForEscrow < s.currentBalance then s.currentBalance - s.reservedForEscrow else 0

/-- What is left of the weekly monitoring budget. -/
def weeklyRemaining (s : State) : ℕ :=
  if s.weeklyMonitoringSpent ≤ s.config.weeklyMonitoringBudget then
    s.config.weeklyMonitoringBudget - s.weeklyMonitoringSpent else 0

end State

/-- The modifier `onlyAuthorizedDrawer`. -/
def onlyAuthorizedDrawer (env : Env) (s : State) : Tx Unit :=
  require (s.authorizedDrawers env.sender = true) "AuditVault: caller is not authorized drawer"

/-- A callback to the factory, which reverts the call if the factory does not take it. -/
def callFactory (env : Env) : Tx Unit :=
  if env.factoryAccepts = true then .ok () else .error .callFailed

/-- `initialize`, whose plain name is a keyword here. -/
def initializeVault (env : Env) (contractAddress : Address) (contractChain : String)
    (creator guardToken agentRegistry : Address) (config : VaultConfig)
    (authorizedDrawers : List Address) (s : State) : Tx State := do
  require (s.initialized = false) "AuditVault: already initialized"
  require (contractAddress ≠ 0) "AuditVault: contract address is zero"
  require (creator ≠ 0) "AuditVault: creator is zero"
  require (guardToken ≠ 0) "AuditVault: guard token is zero"
  pure { s with
    initialized := true
    factory := env.sender
    contractAddress := contractAddress
    contractChain := contractChain
    creator := creator
    guardToken := guardToken
    agentRegistry := agentRegistry
    config := config
    weeklyResetTimestamp := env.timestamp
    authorizedDrawers := authorizedDrawers.foldl
      (fun drawers drawer => Function.update drawers drawer true) s.authorizedDrawers }

/-- The part of `deposit` that tracks the depositor. -/
def trackDepositor (env : Env) (s : State) : Tx State :=
  if s.isDepositor env.sender = false then do
    let s := { s with
      isDepositor := Function.update s.isDepositor env.sender true
      depositors := s.depositors ++ [env.sender] }
    callFactory env
    pure s
  else pure s

/-- The part of `deposit` that funds the bounty pool if it is under its allocation. -/
def fundBountyPool (amount : ℕ) (s : State) : Tx State :=
  if s.criticalBountyPool < s.config.criticalBountyAllocation then do
    let gap ← checkedSub s.config.criticalBountyAllocation s.criticalBountyPool
    let toBounty := if amount < gap then amount else gap
    let criticalBountyPool ← checkedAdd 256 s.criticalBountyPool toBounty
    pure { s with criticalBountyPool := criticalBountyPool }
  else pure s

/-- Whether no trigger is pending and the balance doubled since the last audit. -/
def thresholdCrossed (s : State) : Tx Bool :=
  if s.auditTriggerPending = false ∧ 0 < s.balanceAtLastAudit then do
    let threshold ← checkedMul 256 s.balanceAtLastAudit 2
    pure (decide (threshold ≤ s.currentBalance))
  else pure false

/-- The part of `deposit` that triggers an audit if the balance doubled since the last one. -/
def triggerOnThreshold (env : Env) (s : State) : Tx State := do
  let crossed ← thresholdCrossed s
  if crossed = true then do
    let s := { s with auditTriggerPending := true }
    let s := s.emit (.autoAuditTriggered "balance_threshold_crossed")
    callFactory env
    pure s
  else pure s

/-- The part of `deposit` after the transfer. -/
def creditDeposit (env : Env) (amount : ℕ) (s : State) : Tx State := do
  let s ← trackDepositor env s
  let depositorBalance ← checkedAdd 256 (s.depositorBalances env.sender) amount
  let totalDeposited ← checkedAdd 256 s.totalDeposited amount
  let currentBalance ← checkedAdd 256 s.currentBalance amount
  let s := { s with
    depositorBalances := Function.update s.depositorBalances env.sender depositorBalance
    totalDeposited := totalDeposited
    currentBalance := currentBalance }
  let s ← fundBountyPool amount s
  let s ← triggerOnThreshold env s
  pure (s.emit (.deposited env.sender amount s.currentBalance))

/-- The part of `withdraw` before the transfer. -/
def debitWithdrawal (env : Env) (amount : ℕ) (s : State) : Tx State := do
  require (0 < amount) "AuditVault: amount is zero"
  require (amount ≤ s.depositorBalances env.sender) "AuditVault: exceeds depositor balance"
  let available ← checkedSub s.currentBalance s.reservedForEscrow
  require (amount ≤ available) "AuditVault: insufficient available balance"
  let depositorBalance ← checkedSub (s.depositorBalances env.sender) amount
  let currentBalance ← checkedSub s.currentBalance amount
  pure { s with
    depositorBalances := Function.update s.depositorBalances env.sender depositorBalance
    currentBalance := currentBalance }

/-- `reserveForAuction`. -/
def reserveForAuction (env : Env) (amount : ℕ) (s : State) : Tx State := do
  onlyAuthorizedDrawer env s
  require (0 < amount) "AuditVault: amount is zero"
  require (0 < s.config.maxSingleAuditBudget → amount ≤ s.config.maxSingleAuditBudget)
    "AuditVault: exceeds max single audit budget"
  let available ← checkedSub s.currentBalance s.reservedForEscrow
  require (amount ≤ available) "AuditVault: insufficient available balance"
  let reservedForEscrow ← checkedAdd 256 s.reservedForEscrow amount
  let s := { s with reservedForEscrow := reservedForEscrow }
  pure (s.emit (.budgetReserved amount reservedForEscrow))

/-- The part of `drawPayment` before the transfer. -/
def debitPayment (env : Env) (recipient : Address) (amount : ℕ) (s : State) : Tx State := do
  onlyAuthorizedDrawer env s
  require (recipient ≠ 0) "AuditVault: recipient is zero"
  require (0 < amount) "AuditVault: amount is zero"
  require (amount ≤ s.reservedForEscrow) "AuditVault: exceeds reserved escrow"
  let reservedForEscrow ← checkedSub s.reservedForEscrow amount
  let currentBalance ← checkedSub s.currentBalance amount
  pure { s with reservedForEscrow := reservedForEscrow, currentBalance := currentBalance }

/-- `releaseReservation`. -/
def releaseReservation (env : Env) (amount : ℕ) (s : State) : Tx State := do
  onlyAuthorizedDrawer env s
  require (0 < amount) "AuditVault: amount is zero"
  require (amount ≤ s.reservedForEscrow) "AuditVault: exceeds reserved escrow"
  let reservedForEscrow ← checkedSub s.reservedForEscrow amount
  let s := { s with reservedForEscrow := reservedForEscrow }
  pure (s.emit (.reservationReleased amount))

/-- The part of `drawBounty` before the transfer. -/
def debitBounty (env : Env) (recipient : Address) (amount : ℕ) (s : State) : Tx State := do
  onlyAuthorizedDrawer env s
  require (recipient ≠ 0) "AuditVault: recipient is zero"
  require (0 < amount) "AuditVault: amount is zero"
  let criticalBountySpent ← checkedAdd 256 s.criticalBountySpent amount
  require (criticalBountySpent ≤ s.criticalBountyPool) "AuditVault: bounty pool insufficient"
  require (amount ≤ s.currentBalance) "AuditVault: insufficient balance"
  let currentBalance ← checkedSub s.currentBalance amount
  pure { s with criticalBountySpent := criticalBountySpent, currentBalance := currentBalance }

/-- `_resetWeeklyIfNeeded`. -/
def resetWeeklyIfNeeded (env : Env) (s : State) : Tx State := do
  let windowEnd ← checkedAdd 256 s.weeklyResetTimestamp WEEK
  pure (if windowEnd ≤ env.timestamp then
    { s with weeklyMonitoringSpent := 0, weeklyResetTimestamp := env.timestamp } else s)

/-- The amount that `claimMonitoringPayment` and `_settleMonitoring` both compute: pro rata since the
last payment, within the weekly budget and the available balance. -/
def monitoringOwed (env : Env) (s : State) : Tx ℕ := do
  let elapsed ← checkedSub env.timestamp s.activeMonitor.lastPaymentAt
  let product ← checkedMul 256 s.activeMonitor.weeklyRate elapsed
  let owed := product / WEEK
  let owed := if s.weeklyRemaining < owed then s.weeklyRemaining else owed
  pure (if s.available < owed then s.available else owed)

/-- The payment of `owed` to the monitor, before the transfer. -/
def debitMonitoring (env : Env) (owed : ℕ) (s : State) : Tx State := do
  let weeklyMonitoringSpent ← checkedAdd 256 s.weeklyMonitoringSpent owed
  let currentBalance ← checkedSub s.currentBalance owed
  pure { s with
    weeklyMonitoringSpent := weeklyMonitoringSpent
    currentBalance := currentBalance
    activeMonitor := { s.activeMonitor with lastPaymentAt := env.timestamp } }

/-- `recordAuditCompletion`. -/
def recordAuditCompletion (env : Env) (securityScore : ℕ) (s : State) : Tx State := do
  onlyAuthorizedDrawer env s
  require (securityScore ≤ 100) "AuditVault: score exceeds 100"
  let totalAuditsCompleted ← checkedAdd 256 s.totalAuditsCompleted 1
  let s := { s with
    lastAuditTimestamp := env.timestamp
    totalAuditsCompleted := totalAuditsCompleted
    lastSecurityScore := securityScore
    auditTriggerPending := false
    balanceAtLastAudit := s.currentBalance }
  pure (s.emit (.auditRecorded securityScore totalAuditsCompleted))

/-- `checkAndTriggerReaudit`. -/
def checkAndTriggerReaudit (env : Env) (s : State) : Tx State := do
  require (0 < s.config.reauditIntervalSeconds) "AuditVault: manual reaudit only"
  require (0 < s.lastAuditTimestamp) "AuditVault: no audit completed yet"
  require (s.auditTriggerPending = false) "AuditVault: trigger already pending"
  let due ← checkedAdd 256 s.lastAuditTimestamp s.config.reauditIntervalSeconds
  require (due < env.timestamp) "AuditVault: reaudit interval not elapsed"
  let s := { s with auditTriggerPending := true }
  let s := s.emit (.autoAuditTriggered "reaudit_interval_elapsed")
  callFactory env
  pure s

/-- `updateConfig`. -/
def updateConfig (env : Env) (newConfig : VaultConfig) (s : State) : Tx State := do
  require (env.sender = s.creator) "AuditVault: caller is not creator"
  require (s.criticalBountySpent ≤ newConfig.criticalBountyAllocation)
    "AuditVault: new allocation below spent"
  let s := { s with config := newConfig }
  pure (s.emit .configUpdated)

/-- `setAuthorizedDrawer`. -/
def setAuthorizedDrawer (env : Env) (drawer : Address) (authorized : Bool) (s : State) :
    Tx State := do
  require (env.sender = s.factory) "AuditVault: caller is not factory"
  pure { s with authorizedDrawers := Function.update s.authorizedDrawers drawer authorized }

end AuditGuard.AuditVault
