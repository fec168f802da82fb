import AuditGuard.Hts
import AuditGuard.AuditVault.Model

/-!
# AuditVault: calls and runs

The external functions of `AuditVault.sol`, which act on the storage and on the ledger of the GUARD
token, and the vault under all calls by all callers, from its deployment on. The functions without
`nonReentrant` are not called back: HTS calls nobody, and `VaultFactory` answers the two callbacks on its
own storage. The token's address is set once, before any transfer, so that one ledger is enough.
-/

namespace AuditGuard.AuditVault

open Evm

/-- `_transferGuard`. -/
def transferGuard (env : Env) (src dst : Address) (amount : ℕ) (w : World State) : Tx (World State) :=
  Hts.transfer "AuditVault" env.transferAnswer src dst amount w

variable (this : Address) (env : Env)

/-- `associateGuardToken`. -/
def associateGuardToken (s : State) : Tx State := do
  require (s.initialized = true) "AuditVault: not initialized"
  require (env.associateAnswer = Hts.HTS_SUCCESS ∨
    env.associateAnswer = Hts.HTS_TOKEN_ALREADY_ASSOCIATED) "AuditVault: token association failed"
  pure (s.emit (.guardTokenAssociated s.guardToken))

/-- `deposit`. -/
def deposit (amount : ℕ) (w : World State) : Tx (World State) := do
  require (w.state.initialized = true) "AuditVault: not initialized"
  require (0 < amount) "AuditVault: amount is zero"
  let w ← transferGuard env env.sender this amount w
  let s ← creditDeposit env amount w.state
  pure { w with state := s }

/-- `withdraw`. -/
def withdraw (amount : ℕ) (w : World State) : Tx (World State) := do
  let s ← debitWithdrawal env amount w.state
  let w ← transferGuard env this env.sender amount { w with state := s }
  pure { w with state := w.state.emit (.withdrawn env.sender amount) }

/-- `drawPayment`. -/
def drawPayment (recipient : Address) (amount : ℕ) (w : World State) : Tx (World State) := do
  let s ← debitPayment env recipient amount w.state
  let w ← transferGuard env this recipient amount { w with state := s }
  pure { w with state := w.state.emit (.paymentDrawn recipient amount) }

/-- `drawBounty`. -/
def drawBounty (recipient : Address) (amount : ℕ) (w : World State) : Tx (World State) := do
  let s ← debitBounty env recipient amount w.state
  let w ← transferGuard env this recipient amount { w with state := s }
  pure { w with state := w.state.emit (.bountyPaid recipient amount) }

/-- The end of `claimMonitoringPayment` and of `_settleMonitoring`, which pay `owed` to `agent`. -/
def payMonitor (agent : Address) (owed : ℕ) (w : World State) : Tx (World State) := do
  let s ← debitMonitoring env owed w.state
  let w ← transferGuard env this agent owed { w with state := s }
  pure { w with state := w.state.emit (.monitoringPaymentClaimed agent owed) }

/-- `_settleMonitoring`. -/
def settleMonitoring (w : World State) : Tx (World State) :=
  let monitor := w.state.activeMonitor
  if monitor.active = false ∨ monitor.agent = 0 then pure w
  else do
    let s ← resetWeeklyIfNeeded env w.state
    let owed ← monitoringOwed env s
    if 0 < owed then payMonitor this env monitor.agent owed { w with state := s }
    else pure { w with state := s }

/-- The part of `applyForMonitoring` about the current monitor: the applicant must be cheaper, unless the
subscription expired, and the outgoing monitor is paid. -/
def outbidMonitor (weeklyRate : ℕ) (w : World State) : Tx (World State) :=
  let monitor := w.state.activeMonitor
  if monitor.active = true ∧ monitor.agent ≠ 0 then do
    let expired := 0 < monitor.expiresAt ∧ monitor.expiresAt < env.timestamp
    require (¬ expired → weeklyRate < monitor.weeklyRate)
      "AuditVault: must bid lower than current monitor"
    let w ← settleMonitoring this env w
    pure { w with state :=
      w.state.emit (.monitoringAgentChanged monitor.agent env.sender weeklyRate) }
  else pure w

/-- `applyForMonitoring`. -/
def applyForMonitoring (weeklyRate : ℕ) (w : World State) : Tx (World State) := do
  require (w.state.initialized = true) "AuditVault: not initialized"
  require (w.state.config.acceptsMonitoringBids = true) "AuditVault: monitoring bids not accepted"
  require (weeklyRate ≤ w.state.config.weeklyMonitoringBudget)
    "AuditVault: rate exceeds weekly budget"
  require (env.isActiveAgent env.sender = true) "AuditVault: agent not active"
  require (env.getAgentTier env.sender = .specialized ∨ env.getAgentTier env.sender = .premium)
    "AuditVault: agent must be SPECIALIZED or PREMIUM"
  let w ← outbidMonitor this env weeklyRate w
  let s := { w.state with activeMonitor := {
    agent := env.sender
    weeklyRate := weeklyRate
    startedAt := env.timestamp
    lastPaymentAt := env.timestamp
    expiresAt := 0
    active := true } }
  pure { w with state := s.emit (.monitoringApplied env.sender weeklyRate) }

/-- `claimMonitoringPayment`. -/
def claimMonitoringPayment (w : World State) : Tx (World State) := do
  require (env.sender = w.state.activeMonitor.agent) "AuditVault: caller is not monitor"
  require (w.state.activeMonitor.active = true) "AuditVault: no active subscription"
  let s ← resetWeeklyIfNeeded env w.state
  let owed ← monitoringOwed env s
  require (0 < owed) "AuditVault: nothing to claim"
  payMonitor this env env.sender owed { w with state := s }

/-- `cancelMonitoring`. -/
def cancelMonitoring (w : World State) : Tx (World State) := do
  require (env.sender = w.state.creator ∨ env.sender = w.state.activeMonitor.agent)
    "AuditVault: not creator or monitor"
  require (w.state.activeMonitor.active = true) "AuditVault: no active subscription"
  let agent := w.state.activeMonitor.agent
  let w ← settleMonitoring this env w
  let s := { w.state with activeMonitor := { w.state.activeMonitor with active := false, agent := 0 } }
  pure { w with state := s.emit (.monitoringCancelled agent) }

/-- The state-changing external functions with their arguments. -/
inductive Call
  | initializeVault (contractAddress : Address) (contractChain : String)
      (creator guardToken agentRegistry : Address) (config : VaultConfig)
      (authorizedDrawers : List Address)
  | associateGuardToken
  | deposit (amount : UInt 256)
  | withdraw (amount : UInt 256)
  | reserveForAuction (amount : UInt 256)
  | drawPayment (recipient : Address) (amount : UInt 256)
  | releaseReservation (amount : UInt 256)
  | drawBounty (recipient : Address) (amount : UInt 256)
  | applyForMonitoring (weeklyRate : UInt 256)
  | claimMonitoringPayment
  | cancelMonitoring
  | recordAuditCompletion (securityScore : UInt 256)
  | checkAndTriggerReaudit
  | updateConfig (newConfig : VaultConfig)
  | setAuthorizedDrawer (drawer : Address) (authorized : Bool)

/-- One call. No function is payable, so that a message with HBAR is refused. -/
def exec (c : Call) (w : World State) : Tx (World State) :=
  if env.value ≠ 0 then .error .callFailed
  else match c with
  | .initializeVault contractAddress contractChain creator guardToken agentRegistry config
      authorizedDrawers =>
    onState (initializeVault env contractAddress contractChain creator guardToken agentRegistry config
      authorizedDrawers) w
  | .associateGuardToken => onState (associateGuardToken env) w
  | .deposit amount => deposit this env amount w
  | .withdraw amount => withdraw this env amount w
  | .reserveForAuction amount => onState (reserveForAuction env amount) w
  | .drawPayment recipient amount => drawPayment this env recipient amount w
  | .releaseReservation amount => onState (releaseReservation env amount) w
  | .drawBounty recipient amount => drawBounty this env recipient amount w
  | .applyForMonitoring weeklyRate => applyForMonitoring this env weeklyRate w
  | .claimMonitoringPayment => claimMonitoringPayment this env w
  | .cancelMonitoring => cancelMonitoring this env w
  | .recordAuditCompletion securityScore => onState (recordAuditCompletion env securityScore) w
  | .checkAndTriggerReaudit => onState (checkAndTriggerReaudit env) w
  | .updateConfig newConfig => onState (updateConfig env newConfig) w
  | .setAuthorizedDrawer drawer authorized => onState (setAuthorizedDrawer env drawer authorized) w

/-- The vault, at the address `this`. -/
def contract : Contract State Env Call where
  this := this
  fresh s := s = State.blank
  msg := Env.toMsg
  exec := exec this

/-! ## A sample vault

The vault at address 1, which the factory at 9 initialized for the creator 3, with GUARD at 7, the agent
registry at 6 and the drawer 5. Account 2 holds tokens, and every outside condition is met. -/

/-- The vault before it is initialized. -/
def sampleWorld : World State where
  state := State.blank
  token := Ledger.single 2 (10^12) TokenLedger.trillion_lt
  now := 0

/-- A call without HBAR, of which everything outside succeeds. -/
def sampleEnv (sender : Address) (timestamp : ℕ) : Env where
  sender := sender
  value := 0
  timestamp := timestamp
  isActiveAgent := fun _ => true
  getAgentTier := fun _ => .premium
  factoryAccepts := true
  transferAnswer := Hts.HTS_SUCCESS
  associateAnswer := Hts.HTS_SUCCESS

/-- A vault with 70 GUARD a week for monitoring, and 60 for bounties. -/
def sampleConfig : VaultConfig := ⟨70 * 10^8, 60 * 10^8, 0, 0, true⟩

/-- The factory initializes the vault. -/
def setupCalls : List (Env × Call) :=
  [(sampleEnv 9 0, .initializeVault 4 "hedera-testnet" 3 7 6 sampleConfig [5])]

theorem sample_run (calls : List (Env × Call)) (hs : (contract 1).Scheduled 0 calls)
    (h : ((contract 1).execAll calls sampleWorld).isOk = true) :
    ∃ ts w, (contract 1).execAll calls sampleWorld = .ok w ∧ (contract 1).system.Run ts w ∧
      (contract 1).trace calls sampleWorld = .ok ts :=
  Contract.exists_run rfl hs h

end AuditGuard.AuditVault
