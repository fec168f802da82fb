import AuditGuard.AgentRegistry.Model
import AuditGuard.Hts

/-!
# AgentRegistry: calls and runs

The external functions of `AgentRegistry.sol` that move GUARD, and the contract under all calls by all
callers. HTS is the only contract that it calls, and the token's address has no setter.
-/

namespace AuditGuard.AgentRegistry

open Evm

/-- `_transferGuard`. -/
def transferGuard (env : Env) (src dst : Address) (amount : ℕ) (w : World State) : Tx (World State) :=
  Hts.transfer "AgentRegistry" env.transferAnswer src dst amount w

variable (this : Address) (env : Env)

/-- `registerAgent`. -/
def registerAgent (agentId ucpEndpoint : String) (specializations : List String) (stakeAmount : ℕ)
    (w : World State) : Tx (World State) := do
  modifier (w.state.paused = false) "EnforcedPause"
  require (0 < agentId.utf8ByteSize) "AgentRegistry: empty agentId"
  require (0 < ucpEndpoint.utf8ByteSize) "AgentRegistry: empty endpoint"
  require (COMMODITY_MIN_STAKE ≤ stakeAmount) "AgentRegistry: insufficient commodity stake"
  let existing := w.state.agents env.sender
  require (existing.agentAddress = 0 ∨ existing.status = .inactive)
    "AgentRegistry: already registered"
  let w ← transferGuard env env.sender this stakeAmount w
  let s := w.state.setProfile env.sender {
    agentAddress := env.sender
    agentId := agentId
    ucpEndpoint := ucpEndpoint
    specializations := specializations
    tier := .commodity
    status := .active
    stakedAmount := stakeAmount
    reputationScore := NEW_AGENT_INITIAL_REPUTATION
    completedJobs := 0
    successfulFindings := 0
    falsePositives := 0
    falseNegatives := 0
    registeredAt := env.timestamp
    lastActiveAt := env.timestamp }
  let s := s.listAgent env.sender
  pure { w with state := s.emit (.agentRegistered env.sender agentId ucpEndpoint stakeAmount) }

/-- `addStake`. -/
def addStake (amount : ℕ) (w : World State) : Tx (World State) := do
  modifier (w.state.paused = false) "EnforcedPause"
  require (0 < amount) "AgentRegistry: amount is zero"
  let profile ← getExistingProfile env.sender w.state
  require (profile.status ≠ .inactive ∧ profile.status ≠ .slashed) "AgentRegistry: inactive"
  let w ← transferGuard env env.sender this amount w
  let stakedAmount ← checkedAdd 256 profile.stakedAmount amount
  let profile := { profile with stakedAmount := stakedAmount, lastActiveAt := env.timestamp }
  let profile := if profile.status = .suspended ∧ COMMODITY_MIN_STAKE ≤ profile.stakedAmount then
    { profile with status := .active } else profile
  let s := w.state.setProfile env.sender profile
  pure { w with state := s.emit (.stakeAdded env.sender amount stakedAmount) }

/-- `slashAgent`. -/
def slashAgent (agent : Address) (slashBasisPoints : ℕ) (w : World State) : Tx (World State) := do
  require (env.sender = w.state.orchestrator) "AgentRegistry: caller is not orchestrator"
  modifier (w.state.paused = false) "EnforcedPause"
  require (0 < slashBasisPoints ∧ slashBasisPoints ≤ 10000) "AgentRegistry: invalid slash bps"
  let profile ← getExistingProfile agent w.state
  require (0 < profile.stakedAmount) "AgentRegistry: no stake"
  let product ← checkedMul 256 profile.stakedAmount slashBasisPoints
  let slashedAmount := product / 10000
  require (0 < slashedAmount) "AgentRegistry: slash amount is zero"
  let stakedAmount ← checkedSub profile.stakedAmount slashedAmount
  let profile := { profile with stakedAmount := stakedAmount }
  let w ← transferGuard env this w.state.owner slashedAmount w
  let profile := if slashBasisPoints = 10000 then { profile with status := .slashed }
    else if profile.stakedAmount < COMMODITY_MIN_STAKE then { profile with status := .suspended }
    else profile
  let s := w.state.setProfile agent profile
  pure { w with state := s.emit (.agentSlashed agent slashedAmount slashBasisPoints) }

/-- The check of `withdrawStake` that an active agent keeps its tier's minimum. -/
def keepsTierMinimum (profile : AgentProfile) (amount : ℕ) : Tx Unit :=
  if profile.status = .active then do
    let remaining ← checkedSub profile.stakedAmount amount
    require (tierMinimumStake profile.tier ≤ remaining) "AgentRegistry: below tier minimum"
  else pure ()

/-- `withdrawStake`. -/
def withdrawStake (amount : ℕ) (w : World State) : Tx (World State) := do
  modifier (w.state.paused = false) "EnforcedPause"
  require (0 < amount) "AgentRegistry: amount is zero"
  let profile ← getExistingProfile env.sender w.state
  require (amount ≤ profile.stakedAmount) "AgentRegistry: insufficient stake"
  keepsTierMinimum profile amount
  let stakedAmount ← checkedSub profile.stakedAmount amount
  let s := w.state.setProfile env.sender { profile with stakedAmount := stakedAmount }
  transferGuard env this env.sender amount { w with state := s }

/-- `deregisterAgent`. -/
def deregisterAgent (w : World State) : Tx (World State) := do
  modifier (w.state.paused = false) "EnforcedPause"
  let profile ← getExistingProfile env.sender w.state
  require (profile.status ≠ .inactive) "AgentRegistry: already inactive"
  let returnedStake := profile.stakedAmount
  let s := w.state.setProfile env.sender { profile with stakedAmount := 0, status := .inactive }
  let w := { w with state := s }
  let w ← (if 0 < returnedStake then transferGuard env this env.sender returnedStake w else pure w)
  pure { w with state := w.state.emit (.agentDeregistered env.sender returnedStake) }

/-- The owner's functions besides `setOrchestratorAndAuction` and `seedAgentReputation`. -/
inductive AdminCall
  | associateGuardToken
  | pause
  | unpause
  | transferOwnership (newOwner : Address)
  | renounceOwnership

/-- The owner's functions, behind `onlyOwner`. -/
def execAdmin (c : AdminCall) (s : State) : Tx State := do
  modifier (env.sender = s.owner) "OwnableUnauthorizedAccount"
  match c with
  | .associateGuardToken => do
    require (env.associateAnswer = Hts.HTS_SUCCESS ∨
      env.associateAnswer = Hts.HTS_TOKEN_ALREADY_ASSOCIATED)
      "AgentRegistry: token association failed"
    pure (s.emit (.guardTokenAssociated s.guardToken))
  | .pause => do
    modifier (s.paused = false) "EnforcedPause"
    pure { s with paused := true }
  | .unpause => do
    modifier (s.paused = true) "ExpectedPause"
    pure { s with paused := false }
  | .transferOwnership newOwner => do
    modifier (newOwner ≠ 0) "OwnableInvalidOwner"
    pure { s with owner := newOwner }
  | .renounceOwnership => pure { s with owner := 0 }

/-- The state-changing external functions with their arguments. -/
inductive Call
  | registerAgent (agentId ucpEndpoint : String) (specializations : List String)
      (stakeAmount : UInt 256)
  | addStake (amount : UInt 256)
  | requestPromotion
  | updateReputation (agent : Address) (delta : SInt 256)
  | recordJobCompletion (agent : Address) (validFindings falsePos falseNeg : UInt 256)
  | slashAgent (agent : Address) (slashBasisPoints : UInt 256)
  | withdrawStake (amount : UInt 256)
  | deregisterAgent
  | setOrchestratorAndAuction (orchestrator auction : Address)
  | seedAgentReputation (agent : Address) (reputation : UInt 256)
  | admin (c : AdminCall)

/-- One call. No function is payable, so that a message with HBAR is refused. -/
def exec (c : Call) (w : World State) : Tx (World State) :=
  if env.value ≠ 0 then .error .callFailed
  else match c with
  | .registerAgent agentId ucpEndpoint specializations stakeAmount =>
    registerAgent this env agentId ucpEndpoint specializations stakeAmount w
  | .addStake amount => addStake this env amount w
  | .requestPromotion => onState (requestPromotion env) w
  | .updateReputation agent delta => onState (updateReputation env agent delta) w
  | .recordJobCompletion agent validFindings falsePos falseNeg =>
    onState (recordJobCompletion env agent validFindings falsePos falseNeg) w
  | .slashAgent agent slashBasisPoints => slashAgent this env agent slashBasisPoints w
  | .withdrawStake amount => withdrawStake this env amount w
  | .deregisterAgent => deregisterAgent this env w
  | .setOrchestratorAndAuction orchestrator auction =>
    onState (setOrchestratorAndAuction env orchestrator auction) w
  | .seedAgentReputation agent reputation => onState (seedAgentReputation env agent reputation) w
  | .admin c => onState (execAdmin env c) w

/-- The storage that the constructor leaves. -/
def State.fresh (deployer guardToken : Address) : State where
  owner := deployer
  paused := false
  guardToken := guardToken
  orchestrator := 0
  auctionContract := 0
  agents := fun _ => AgentProfile.zero
  agentList := []
  inAgentList := fun _ => false
  log := []

/-- The constructor, called by `deployer`. -/
def deploy (deployer guardToken : Address) : Tx State := do
  modifier (deployer ≠ 0) "OwnableInvalidOwner"
  require (guardToken ≠ 0) "AgentRegistry: guard token is zero"
  pure (State.fresh deployer guardToken)

/-- The contract, at the address `this`. -/
def contract : Contract State Env Call where
  this := this
  fresh s := ∃ deployer guardToken, deploy deployer guardToken = .ok s
  msg := Env.toMsg
  exec := exec this

variable {this} in
theorem fresh_state_eq {s : State} (h : (contract this).fresh s) :
    ∃ deployer guardToken, s = State.fresh deployer guardToken := by
  obtain ⟨deployer, guardToken, h⟩ := h
  simp only [deploy, bind_eq_ok, modifier_eq_ok, require_eq_ok, pure_eq_ok] at h
  obtain ⟨_, -, _, -, h⟩ := h
  exact ⟨deployer, guardToken, h.symm⟩

/-! ## A sample registry

The contract at address 1, deployed by 9, with GUARD at 7. The orchestrator is going to be 5, and the auction
4. The agents 2 and 3 hold tokens, and HTS takes every transfer. -/

/-- The registry at its deployment. -/
def sampleWorld : World State where
  state := State.fresh 9 7
  token := ((Ledger.single 2 (2 * 10^12) TokenLedger.two_trillion_lt).transfer 2 3 (10^12)).getD
    (Ledger.single 2 0 TokenLedger.zero_lt)
  now := 0

/-- A call without HBAR, of which HTS takes the transfers. -/
def sampleEnv (sender : Address) (timestamp : ℕ) : Env where
  sender := sender
  value := 0
  timestamp := timestamp
  transferAnswer := Hts.HTS_SUCCESS
  associateAnswer := Hts.HTS_SUCCESS

theorem sample_run (calls : List (Env × Call)) (hs : (contract 1).Scheduled 0 calls)
    (h : ((contract 1).execAll calls sampleWorld).isOk = true) :
    ∃ ts w, (contract 1).execAll calls sampleWorld = .ok w ∧ (contract 1).system.Run ts w ∧
      (contract 1).trace calls sampleWorld = .ok ts :=
  Contract.exists_run ⟨9, 7, rfl⟩ hs h

end AuditGuard.AgentRegistry
