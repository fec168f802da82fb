import AuditGuard.Hts
import AuditGuard.StakingManager.Model

/-!
# StakingManager: calls and runs

The external functions of `StakingManager.sol`, which act on the storage and on the ledger of the GUARD
token, and the transition system of all calls by all callers. Every call is one atomic step: the only
functions without `nonReentrant` are `fileAppeal` and the setters, and none of the contracts that
are called in between calls those.

The token's address has no setter, so that one ledger is enough. Between calls the rest of the chain
moves the token as it likes, except out of this contract.
-/

namespace AuditGuard.StakingManager

open Evm

/-- The contract's storage with the ledger of the GUARD token. -/
structure World where
  state : State
  guard : TokenLedger

/-- Appends an event to the log. -/
def World.emit (w : World) (e : Event) : World := { w with state := w.state.emit e }

variable (this : Address) (env : Env)

/-- `_transferGuard`. -/
def transferGuard (src dst : Address) (amount : ℕ) (w : World) : Tx World := do
  let guard ← Hts.transferGuard "StakingManager" env.transferAnswer src dst amount w.guard
  pure { w with guard := guard }

/-- `stake`. -/
def stake (amount : ℕ) (w : World) : Tx World := do
  modifier (w.state.paused = false) "EnforcedPause"
  require (0 < amount) "StakingManager: amount is zero"
  require (w.state.agentRegistry = 0 ∨ env.isActiveAgent env.sender = true)
    "StakingManager: agent not registered"
  let w ← transferGuard env env.sender this amount w
  let state ← creditStake env amount w.state
  pure { w with state := state }

/-- `completeUnstake`. -/
def completeUnstake (w : World) : Tx World := do
  let (amount, state) ← releaseUnbonding env w.state
  let w ← transferGuard env this env.sender amount { w with state := state }
  let state := w.state.recordSnapshot env env.sender amount "unstake_complete" 0
  pure { w with state := state.emit (.unstakeCompleted env.sender amount) }

/-- The denial of a slash, which `resolveAppeal` and `finalizeExpiredAppeals` both make: its amount
goes from the escrow to the treasury. -/
def denyAppeal (slashId : ℕ) (w : World) : Tx World := do
  let record := w.state.slashRecords slashId
  let slashEscrowBalance ← checkedSub w.state.slashEscrowBalance record.slashedAmount
  let state := w.state.setEscrow slashEscrowBalance
  let w ← transferGuard env this state.treasury record.slashedAmount { w with state := state }
  pure { w with state := w.state.setRecord slashId { record with appealStatus := .denied } }

/-- `resolveAppeal`. -/
def resolveAppeal (slashId : ℕ) (approved : Bool) (w : World) : Tx World := do
  modifier (env.sender = w.state.owner) "OwnableUnauthorizedAccount"
  let record := w.state.slashRecords slashId
  require (record.slashId ≠ 0) "StakingManager: invalid slash id"
  require (record.appealStatus = .pending) "StakingManager: not pending"
  require (0 < record.appealReason.utf8ByteSize) "StakingManager: no appeal filed"
  if approved then do
    let state ← approveAppeal env slashId record w.state
    pure { w with state := state }
  else do
    let w ← denyAppeal this env slashId w
    pure (w.emit (.appealDenied slashId record.agent record.slashedAmount))

/-- The body of the loop of `finalizeExpiredAppeals`. -/
def finalizeAppeal (w : World) (slashId : ℕ) : Tx World :=
  let record := w.state.slashRecords slashId
  if record.appealStatus = .pending ∧ record.appealDeadline < env.timestamp ∧
      record.appealReason.utf8ByteSize = 0 then do
    let w ← denyAppeal this env slashId w
    pure (w.emit (.appealExpired slashId))
  else pure w

/-- `finalizeExpiredAppeals`: the loop over all slash ids, from 1 up to `nextSlashId`, which the loop
does not change. -/
def finalizeExpiredAppeals (w : World) : Tx World :=
  (List.range' 1 (w.state.nextSlashId - 1)).foldlM (finalizeAppeal this env) w

/-- The owner's functions on the parameters, and those of `Ownable` and `Pausable`. -/
inductive AdminCall
  | setSlashRate (reason : SlashReason) (basisPoints : UInt 256)
  | setUnbondingPeriod (seconds : UInt 256)
  | setAppealWindow (seconds : UInt 256)
  | setSlashEscrowPeriod (seconds : UInt 256)
  | setReputationPenalty (reason : SlashReason) (delta : SInt 256)
  | addAuthorizedSlasher (slasher : Address)
  | removeAuthorizedSlasher (slasher : Address)
  | setAgentRegistry (agentRegistry : Address)
  | setTreasury (treasury : Address)
  | setDelegatedStaking (delegatedStaking : Address)
  | associateGuardToken
  | pause
  | unpause
  | transferOwnership (newOwner : Address)
  | renounceOwnership

/-- The owner's functions, behind `onlyOwner`. -/
def execAdmin (c : AdminCall) (s : State) : Tx State := do
  modifier (env.sender = s.owner) "OwnableUnauthorizedAccount"
  match c with
  | .setSlashRate reason basisPoints => do
    require (basisPoints.val ≤ 10000) "StakingManager: exceeds 100%"
    let oldRate := s.slashRates reason
    let s := { s with slashRates := Function.update s.slashRates reason basisPoints }
    pure (s.emit (.slashRateUpdated reason oldRate basisPoints))
  | .setUnbondingPeriod seconds =>
    let oldPeriod := s.unbondingPeriod
    let s := { s with unbondingPeriod := seconds }
    pure (s.emit (.unbondingPeriodUpdated oldPeriod seconds))
  | .setAppealWindow seconds => pure { s with appealWindowSeconds := seconds }
  | .setSlashEscrowPeriod seconds => pure { s with slashEscrowPeriod := seconds }
  | .setReputationPenalty reason delta =>
    pure { s with reputationPenalties := Function.update s.reputationPenalties reason delta }
  | .addAuthorizedSlasher slasher => do
    require (slasher ≠ 0) "StakingManager: address is zero"
    pure { s with authorizedSlashers := Function.update s.authorizedSlashers slasher true }
  | .removeAuthorizedSlasher slasher =>
    pure { s with authorizedSlashers := Function.update s.authorizedSlashers slasher false }
  | .setAgentRegistry agentRegistry => pure { s with agentRegistry := agentRegistry }
  | .setTreasury treasury => do
    require (treasury ≠ 0) "StakingManager: address is zero"
    pure { s with treasury := treasury }
  | .setDelegatedStaking delegatedStaking => pure { s with delegatedStaking := delegatedStaking }
  | .associateGuardToken => do
    require (env.associateAnswer = Hts.HTS_SUCCESS ∨
      env.associateAnswer = Hts.HTS_TOKEN_ALREADY_ASSOCIATED)
      "StakingManager: token association failed"
    pure (s.emit (.guardTokenAssociated s.guardToken))
  | .pause => do
    modifier (s.paused = false) "EnforcedPause"
    pure { s with paused := true }
  | .unpause => do
    modifier (s.paused = true) "ExpectedPause"
    pure { s with paused := false }
  | .transferOwnership newOwner => do
    modifier (newOwner ≠ 0) "OwnableInvalidOwner"
    pure { s with owner := newOwner }
  | .renounceOwnership => pure { s with owner := 0 }

/-- The state-changing external functions with their arguments. -/
inductive Call
  | stake (amount : UInt 256)
  | requestUnstake (amount : UInt 256)
  | completeUnstake
  | deactivate
  | lockStake (agent : Address) (amount jobId : UInt 256)
  | unlockStake (agent : Address) (amount jobId : UInt 256)
  | initiateSlash (agent : Address) (jobId subJobId : UInt 256) (reason : SlashReason)
      (evidenceHash : UInt 256)
  | fileAppeal (slashId : UInt 256) (reason : String)
  | resolveAppeal (slashId : UInt 256) (approved : Bool)
  | finalizeExpiredAppeals
  | admin (c : AdminCall)

/-- A function on storage alone, as a call. -/
def onState (f : State → Tx State) (w : World) : Tx World := do
  let state ← f w.state
  pure { w with state := state }

/-- One call. No function is payable, so that a message with HBAR is refused. -/
def exec (c : Call) (w : World) : Tx World :=
  if env.value ≠ 0 then .error .callFailed
  else match c with
  | .stake amount => stake this env amount w
  | .requestUnstake amount => onState (requestUnstake env amount) w
  | .completeUnstake => completeUnstake this env w
  | .deactivate => onState (deactivate env) w
  | .lockStake agent amount jobId => onState (lockStake env agent amount jobId) w
  | .unlockStake agent amount jobId => onState (unlockStake env agent amount jobId) w
  | .initiateSlash agent jobId subJobId reason evidenceHash =>
    onState (initiateSlash env agent jobId subJobId reason evidenceHash) w
  | .fileAppeal slashId reason => onState (fileAppeal env slashId reason) w
  | .resolveAppeal slashId approved => resolveAppeal this env slashId approved w
  | .finalizeExpiredAppeals => finalizeExpiredAppeals this env w
  | .admin c => onState (execAdmin env c) w

/-- The slash rates that the constructor sets. -/
def initialSlashRate : SlashReason → ℕ
  | .falsePositive => 500
  | .falseNegative => 1000
  | .maliciousReport => 10000
  | .slaViolation => 2500
  | .collusion => 10000
  | .plagiarism => 5000

theorem initialSlashRate_le (reason : SlashReason) : initialSlashRate reason ≤ 10000 := by
  cases reason <;> decide

/-- The reputation penalties that the constructor sets. -/
def initialReputationPenalty : SlashReason → ℤ
  | .falsePositive => -100
  | .falseNegative => -200
  | .maliciousReport => -5000
  | .slaViolation => -300
  | .collusion => -5000
  | .plagiarism => -2500

/-- The minimum stake, 100 GUARD, which no function changes. -/
def initialMinStake : ℕ := 100 * 10^8

/-- The storage that the constructor leaves, with the initial values of the declarations. -/
def State.fresh (deployer guardToken agentRegistry treasury : Address) : State where
  owner := deployer
  paused := false
  guardToken := guardToken
  agentRegistry := agentRegistry
  treasury := treasury
  delegatedStaking := 0
  authorizedSlashers := fun _ => false
  unbondingPeriod := 86400
  minStakeForActive := initialMinStake
  appealWindowSeconds := 43200
  slashEscrowPeriod := 21600
  slashRates := initialSlashRate
  reputationPenalties := initialReputationPenalty
  stakes := fun _ => StakeInfo.zero
  slashRecords := fun _ => SlashRecord.zero
  agentSlashHistory := fun _ => []
  stakeHistory := fun _ => []
  agentTotalSlashed := fun _ => 0
  nextSlashId := 1
  totalSlashedAllTime := 0
  slashEscrowBalance := 0
  log := []
  sent := []

/-- The constructor, called by `deployer`. -/
def deploy (deployer guardToken agentRegistry treasury : Address) : Tx State := do
  modifier (deployer ≠ 0) "OwnableInvalidOwner"
  require (guardToken ≠ 0) "StakingManager: guard token is zero"
  require (treasury ≠ 0) "StakingManager: treasury is zero"
  pure (State.fresh deployer guardToken agentRegistry treasury)

/-- The calls of a list, one after the other. -/
def execAll (calls : List (Env × Call)) (w : World) : Tx World :=
  calls.foldlM (fun w call => exec this call.1 call.2 w) w

/-- What a step is: a call with its environment, or token movements elsewhere. -/
inductive Label
  | call (env : Env) (c : Call)
  | elsewhere

/-- The steps: a call that does not revert, by an account other than the contract itself, and
movements of the token that take none from the contract. No message is sent from address zero. -/
inductive Step : World → Label → World → Prop
  | call {env : Env} {c : Call} {w w' : World} (hs : env.sender ≠ this) (h0 : env.sender ≠ 0)
      (h : exec this env c w = .ok w') : Step w (.call env c) w'
  | elsewhere {w : World} {guard : TokenLedger} (h : w.guard.balance this ≤ guard.balance this) :
      Step w .elsewhere { w with guard := guard }

/-- A world in which the contract has just been deployed. -/
def Deployed (w : World) : Prop :=
  ∃ deployer guardToken agentRegistry treasury,
    deploy deployer guardToken agentRegistry treasury = .ok w.state

/-- The contract, under all calls by all callers. -/
def system : TransitionSystem World Label where
  init := Deployed
  step := Step this

variable {this} {w w' : World}

theorem Deployed.state_eq (h : Deployed w) : ∃ deployer guardToken agentRegistry treasury,
    w.state = State.fresh deployer guardToken agentRegistry treasury := by
  obtain ⟨deployer, guardToken, agentRegistry, treasury, h⟩ := h
  simp only [deploy, bind_eq_ok, modifier_eq_ok, require_eq_ok, pure_eq_ok] at h
  obtain ⟨_, -, _, -, _, -, h⟩ := h
  exact ⟨deployer, guardToken, agentRegistry, treasury, h.symm⟩

/-- A call on storage alone leaves the ledger as it is. -/
@[simp]
theorem onState_eq_ok {f : State → Tx State} :
    onState f w = .ok w' ↔ f w.state = .ok w'.state ∧ w'.guard = w.guard := by
  obtain ⟨state, guard⟩ := w
  obtain ⟨state', guard'⟩ := w'
  simp only [onState, bind_eq_ok, pure_eq_ok, World.mk.injEq]
  constructor
  · rintro ⟨_, hf, rfl, rfl⟩
    exact ⟨hf, rfl⟩
  · rintro ⟨hf, rfl⟩
    exact ⟨_, hf, rfl, rfl⟩

theorem transferGuard_eq_ok {src dst : Address} {amount : ℕ} :
    transferGuard env src dst amount w = .ok w' ↔ env.transferAnswer = Hts.HTS_SUCCESS ∧
      w.guard.transfer src dst amount = some w'.guard ∧ w'.state = w.state := by
  obtain ⟨state, guard⟩ := w
  obtain ⟨state', guard'⟩ := w'
  simp only [transferGuard, bind_eq_ok, pure_eq_ok, World.mk.injEq, Hts.transferGuard_eq_ok]
  constructor
  · rintro ⟨_, ⟨hanswer, htransfer⟩, rfl, rfl⟩
    exact ⟨hanswer, htransfer, rfl⟩
  · rintro ⟨hanswer, htransfer, rfl⟩
    exact ⟨_, ⟨hanswer, htransfer⟩, rfl, rfl⟩

theorem reachable_execAll {calls : List (Env × Call)} (hw : (system this).Reachable w)
    (hs : ∀ call ∈ calls, call.1.sender ≠ this ∧ call.1.sender ≠ 0)
    (h : execAll this calls w = .ok w') : (system this).Reachable w' := by
  induction calls generalizing w with
  | nil =>
    simp only [execAll, List.foldlM_nil, pure_eq_ok] at h
    exact h ▸ hw
  | cons call calls ih =>
    simp only [execAll, List.foldlM_cons, bind_eq_ok] at h
    obtain ⟨w₁, h₁, h⟩ := h
    rw [List.forall_mem_cons] at hs
    exact ih (.step hw (.call hs.1.1 hs.1.2 h₁)) hs.2 h

/-! ## A sample deployment

The contract at address 1, deployed by 9, with GUARD at 7 and the treasury at 8, and without an agent
registry. Account 2 holds tokens, and every outside condition is met. -/

/-- The contract at its deployment. -/
def sampleWorld : World where
  state := State.fresh 9 7 0 8
  guard := Ledger.single 2 (10^12) TokenLedger.trillion_lt

/-- A call without HBAR, of which everything outside succeeds. -/
def sampleEnv (sender : Address) (timestamp : ℕ) : Env where
  sender := sender
  value := 0
  timestamp := timestamp
  isActiveAgent := fun _ => true
  hasCode := fun _ => true
  transferAnswer := Hts.HTS_SUCCESS
  associateAnswer := Hts.HTS_SUCCESS

/-- The owner authorizes account 5 to slash. -/
def slasherCalls : List (Env × Call) := [(sampleEnv 9 0, .admin (.addAuthorizedSlasher 5))]

theorem sample_reachable {calls : List (Env × Call)}
    (hs : ∀ call ∈ calls, call.1.sender ≠ 1 ∧ call.1.sender ≠ 0)
    (h : (execAll 1 calls sampleWorld).isOk = true) :
    ∃ w, execAll 1 calls sampleWorld = .ok w ∧ (system 1).Reachable w := by
  obtain ⟨w, hw⟩ := exists_eq_ok h
  exact ⟨w, hw, reachable_execAll (.init ⟨9, 7, 0, 8, rfl⟩) hs hw⟩

theorem sample_read {α : Type} {calls : List (Env × Call)} {w : World} (f : World → α) {a : α}
    (hw : execAll 1 calls sampleWorld = .ok w)
    (h : (execAll 1 calls sampleWorld).map f = .ok a) : f w = a := by
  rw [hw] at h
  exact Except.ok.inj h

end AuditGuard.StakingManager
