import AuditGuard.Library.Evm

/-!
# AgentRegistry: storage and scoring

The data of `AgentRegistry.sol` and its functions on storage alone. A profile that was never written
holds the zeros of its fields, and the first values of its enumerations: `UNREGISTERED` and `INACTIVE`.
-/

namespace AuditGuard.AgentRegistry

open Evm

/-- Marketplace tier for an agent profile. -/
inductive AgentTier
  | unregistered
  | commodity
  | specialized
  | premium
deriving DecidableEq, Repr

/-- Operational status for an agent in the marketplace. -/
inductive AgentStatus
  | inactive
  | active
  | suspended
  | slashed
deriving DecidableEq, Repr

/-- An agent's profile. -/
structure AgentProfile where
  /-- The agent's wallet, zero before the first registration. -/
  agentAddress : Address
  agentId : String
  ucpEndpoint : String
  specializations : List String
  tier : AgentTier
  status : AgentStatus
  stakedAmount : ℕ
  /-- The reputation in basis points. -/
  reputationScore : ℕ
  completedJobs : ℕ
  successfulFindings : ℕ
  falsePositives : ℕ
  falseNegatives : ℕ
  registeredAt : ℕ
  lastActiveAt : ℕ
deriving DecidableEq

/-- A profile that was never written. -/
def AgentProfile.zero : AgentProfile :=
  ⟨0, "", "", [], .unregistered, .inactive, 0, 0, 0, 0, 0, 0, 0, 0⟩

/-- The contract's events. -/
inductive Event
  | agentRegistered (agent : Address) (agentId ucpEndpoint : String) (stakedAmount : ℕ)
  | stakeAdded (agent : Address) (amount newTotal : ℕ)
  | agentPromoted (agent : Address) (fromTier toTier : AgentTier)
  | reputationUpdated (agent : Address) (delta : ℤ) (newReputation : ℕ)
  | reputationSeeded (agent : Address) (reputation : ℕ)
  | jobRecorded (agent : Address) (validFindings falsePositives falseNegatives : ℕ)
  | agentSlashed (agent : Address) (slashedAmount slashBasisPoints : ℕ)
  | agentDeregistered (agent : Address) (returnedStake : ℕ)
  | guardTokenAssociated (token : Address)
deriving DecidableEq

/-- The contract's storage, with the log of its events. -/
structure State where
  /-- `Ownable`'s owner. -/
  owner : Address
  /-- `Pausable`'s flag. -/
  paused : Bool
  guardToken : Address
  orchestrator : Address
  auctionContract : Address
  agents : Address → AgentProfile
  /-- The agents in the order of their first registration. -/
  agentList : List Address
  inAgentList : Address → Bool
  /-- The events emitted so far, oldest first. -/
  log : List Event

/-- What a call reads from outside the contract: its message, and what HTS answers. -/
structure Env extends Msg where
  transferAnswer : ℤ
  associateAnswer : ℤ

namespace State

/-- Appends an event to the log. -/
@[simps -fullyApplied]
def emit (s : State) (e : Event) : State := { s with log := s.log ++ [e] }

/-- Writes an agent's profile. -/
@[simps -fullyApplied]
def setProfile (s : State) (agent : Address) (profile : AgentProfile) : State :=
  { s with agents := Function.update s.agents agent profile }

/-- Pushes an agent to the list, unless it is there. -/
def listAgent (s : State) (agent : Address) : State :=
  if s.inAgentList agent = false then
    { s with
      inAgentList := Function.update s.inAgentList agent true
      agentList := s.agentList ++ [agent] }
  else s

end State

/-- Commodity tier minimum stake. -/
def COMMODITY_MIN_STAKE : ℕ := 100 * 10^8

/-- Specialized tier minimum stake. -/
def SPECIALIZED_MIN_STAKE : ℕ := 300 * 10^8

/-- Premium tier minimum stake. -/
def PREMIUM_MIN_STAKE : ℕ := 500 * 10^8

/-- Minimum reputation for promotion to the specialized tier. -/
def SPECIALIZED_MIN_REPUTATION : ℕ := 7000

/-- Minimum reputation for promotion to the premium tier. -/
def PREMIUM_MIN_REPUTATION : ℕ := 8500

/-- Default reputation of a newly registered agent. -/
def NEW_AGENT_INITIAL_REPUTATION : ℕ := 5000

/-- `_tierMinimumStake`. -/
def tierMinimumStake : AgentTier → ℕ
  | .premium => PREMIUM_MIN_STAKE
  | .specialized => SPECIALIZED_MIN_STAKE
  | .commodity => COMMODITY_MIN_STAKE
  | .unregistered => 0

/-- `_getExistingProfile`. -/
def getExistingProfile (agent : Address) (s : State) : Tx AgentProfile := do
  require ((s.agents agent).agentAddress ≠ 0) "AgentRegistry: agent not registered"
  pure (s.agents agent)

/-- The clamp of `_updateReputation` to the range of reputations. -/
def clampReputation (updated : ℤ) : ℤ :=
  if updated < 0 then 0
  else if 10000 < updated then 10000
  else updated

/-- `_updateReputation`. -/
def applyReputationDelta (agent : Address) (delta : ℤ) (s : State) : Tx State := do
  let profile ← getExistingProfile agent s
  let updated ← checkedAddInt 256 (toSigned 256 profile.reputationScore) delta
  let reputationScore := (clampReputation updated).toNat
  let s := s.setProfile agent { profile with reputationScore := reputationScore }
  pure (s.emit (.reputationUpdated agent delta reputationScore))

/-- The modifier `onlyOrchestratorOrAuction`. -/
def onlyOrchestratorOrAuction (env : Env) (s : State) : Tx Unit :=
  require (env.sender = s.orchestrator ∨ env.sender = s.auctionContract)
    "AgentRegistry: caller is not authorized scorer"

/-- `updateReputation`. -/
def updateReputation (env : Env) (agent : Address) (delta : ℤ) (s : State) : Tx State := do
  onlyOrchestratorOrAuction env s
  modifier (s.paused = false) "EnforcedPause"
  applyReputationDelta agent delta s

/-- `recordJobCompletion`. -/
def recordJobCompletion (env : Env) (agent : Address) (validFindings falsePos falseNeg : ℕ)
    (s : State) : Tx State := do
  onlyOrchestratorOrAuction env s
  modifier (s.paused = false) "EnforcedPause"
  let profile ← getExistingProfile agent s
  let completedJobs ← checkedAdd 256 profile.completedJobs 1
  let successfulFindings ← checkedAdd 256 profile.successfulFindings validFindings
  let falsePositives ← checkedAdd 256 profile.falsePositives falsePos
  let falseNegatives ← checkedAdd 256 profile.falseNegatives falseNeg
  let s := s.setProfile agent { profile with
    completedJobs := completedJobs
    successfulFindings := successfulFindings
    falsePositives := falsePositives
    falseNegatives := falseNegatives
    lastActiveAt := env.timestamp }
  let valid ← checkedMul 256 validFindings 50
  let positive ← checkedMul 256 falsePos 100
  let negative ← checkedMul 256 falseNeg 200
  let delta ← checkedSubInt 256 (toSigned 256 valid) (toSigned 256 positive)
  let delta ← checkedSubInt 256 delta (toSigned 256 negative)
  let s ← applyReputationDelta agent delta s
  pure (s.emit (.jobRecorded agent validFindings falsePos falseNeg))

/-- `isActiveAgent`. -/
def isActiveAgent (agent : Address) (s : State) : Bool := decide ((s.agents agent).status = .active)

/-- `getAgentReputation`. -/
def getAgentReputation (agent : Address) (s : State) : ℕ := (s.agents agent).reputationScore

/-- `requestPromotion`. -/
def requestPromotion (env : Env) (s : State) : Tx State := do
  modifier (s.paused = false) "EnforcedPause"
  let profile ← getExistingProfile env.sender s
  require (profile.status = .active) "AgentRegistry: agent not active"
  match profile.tier with
  | .commodity => do
    require (SPECIALIZED_MIN_REPUTATION ≤ profile.reputationScore ∧
      SPECIALIZED_MIN_STAKE ≤ profile.stakedAmount)
      "AgentRegistry: specialized requirements unmet"
    let s := s.setProfile env.sender { profile with tier := .specialized }
    pure (s.emit (.agentPromoted env.sender .commodity .specialized))
  | .specialized => do
    require (PREMIUM_MIN_REPUTATION ≤ profile.reputationScore ∧
      PREMIUM_MIN_STAKE ≤ profile.stakedAmount) "AgentRegistry: premium requirements unmet"
    let s := s.setProfile env.sender { profile with tier := .premium }
    pure (s.emit (.agentPromoted env.sender .specialized .premium))
  | _ => .error (.require "AgentRegistry: no promotion path")

/-- `setOrchestratorAndAuction`. -/
def setOrchestratorAndAuction (env : Env) (orchestrator auction : Address) (s : State) :
    Tx State := do
  modifier (env.sender = s.owner) "OwnableUnauthorizedAccount"
  require (s.orchestrator = 0 ∧ s.auctionContract = 0) "AgentRegistry: already configured"
  require (orchestrator ≠ 0 ∧ auction ≠ 0) "AgentRegistry: zero address"
  pure { s with orchestrator := orchestrator, auctionContract := auction }

/-- `seedAgentReputation`. -/
def seedAgentReputation (env : Env) (agent : Address) (reputation : ℕ) (s : State) :
    Tx State := do
  modifier (env.sender = s.owner) "OwnableUnauthorizedAccount"
  require (reputation ≤ 10000) "AgentRegistry: reputation out of range"
  let profile ← getExistingProfile agent s
  require (profile.completedJobs = 0) "AgentRegistry: agent already has jobs"
  let s := s.setProfile agent { profile with reputationScore := reputation }
  pure (s.emit (.reputationSeeded agent reputation))

end AuditGuard.AgentRegistry
