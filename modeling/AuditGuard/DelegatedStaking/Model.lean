import AuditGuard.HbarPool
import AuditGuard.Library.Listed

/-!
# DelegatedStaking: storage and internal functions

The data of `DelegatedStaking.sol` and its functions on storage alone. The mapping `delegations` is
keyed by `keccak256(abi.encodePacked(delegator, agent))`; two addresses pack injectively, and keccak256
is taken to be injective on the packed keys, so that the key is the pair. The same goes for the two
lookup mappings, whose keys carry a tag as well.

Storage fields of the type `uint<w>` are natural numbers, and each operation on them makes the check
that the compiler makes. The log of emitted events is kept next to the storage.
-/

namespace AuditGuard.DelegatedStaking

open Evm

/-- The precision of the reward-per-token accumulator. -/
def PRECISION : ℕ := 10^30

/-- A single delegator's delegation to an agent. -/
structure Delegation where
  /-- The delegator's wallet. -/
  delegator : Address
  /-- The agent that the delegation backs. -/
  agent : Address
  /-- Active delegated GUARD, a `uint96`. -/
  amount : ℕ
  /-- When the delegation was opened. -/
  delegatedAt : ℕ
  /-- When rewards were last claimed. -/
  lastRewardClaimAt : ℕ
  /-- Settled rewards that were not claimed, a `uint96`. -/
  pendingRewards : ℕ
  /-- GUARD in the unbonding cooldown, a `uint96`. -/
  unbondingAmount : ℕ
  /-- When the unbonding completes, a `uint48`. -/
  unbondingCompleteAt : ℕ
  /-- `pool.rewardPerTokStored` at the last settlement. -/
  rewardPerTokenPaid : ℕ
  /-- True while the delegation is open. -/
  active : Bool
deriving DecidableEq

/-- A record that was never written. -/
def Delegation.zero : Delegation := ⟨0, 0, 0, 0, 0, 0, 0, 0, 0, false⟩

/-- The delegation pool of an agent. -/
structure AgentDelegationPool where
  /-- The agent's wallet, zero before the first delegation. -/
  agent : Address
  /-- The sum of all `delegation.amount` of the agent, a `uint96`. -/
  totalDelegated : ℕ
  /-- All rewards ever allocated to the pool, a `uint96`. -/
  totalRewardsAccrued : ℕ
  /-- Rewards per delegated token, times `PRECISION`. -/
  rewardPerTokStored : ℕ
  /-- The delegators' share of the agent's earnings in basis points. -/
  rewardShareBps : ℕ
  /-- The number of delegators, a `uint32`. -/
  delegatorCount : ℕ
deriving DecidableEq

/-- A pool that was never written. -/
def AgentDelegationPool.zero : AgentDelegationPool := ⟨0, 0, 0, 0, 0, 0⟩

/-- The contract's events. -/
inductive Event
  | rewardShareUpdated (agent : Address) (oldBps newBps : ℕ)
  | delegated (delegator agent : Address) (amount newTotalDelegated : ℕ)
  | undelegationRequested (delegator agent : Address) (amount completesAt : ℕ)
  | undelegationCompleted (delegator agent : Address) (amount : ℕ)
  | rewardsDistributed (agent : Address) (totalAmount delegatorShare : ℕ)
  | rewardsClaimed (delegator agent : Address) (amount : ℕ)
  | delegationSlashed (agent : Address) (totalSlashed delegatorCount : ℕ)
deriving DecidableEq

/-- The contract's storage, with the log of the events it has emitted. -/
structure State where
  /-- `Ownable`'s owner. -/
  owner : Address
  /-- `Pausable`'s flag. -/
  paused : Bool
  guardToken : Address
  stakingManager : Address
  agentRegistry : Address
  treasury : Address
  hbarPool : Address
  authorizedDistributors : Address → Bool
  minDelegation : ℕ
  unbondingPeriod : ℕ
  maxDelegatorsPerAgent : ℕ
  defaultRewardBps : ℕ
  /-- The delegation records, by delegator and agent. -/
  delegations : Address × Address → Delegation
  agentPools : Address → AgentDelegationPool
  delegatorAgents : Address → List Address
  agentDelegators : Address → List Address
  /-- Which pairs of a delegator and an agent are in `delegatorAgents`. -/
  inDelegatorAgents : Address × Address → Bool
  /-- Which pairs of an agent and a delegator are in `agentDelegators`. -/
  inAgentDelegators : Address × Address → Bool
  totalDelegatedAllAgents : ℕ
  /-- The events emitted so far, oldest first. -/
  log : List Event

/-- What a call reads from outside the contract: its message, whether `AgentRegistry` reports an
agent as active, whether the token takes the transfers of the call, and whether the recipient takes
HBAR. -/
structure Env extends Msg where
  isActiveAgent : Address → Bool
  tokenAccepts : Bool
  recipientPayable : Bool

namespace State

/-- Appends an event to the log. -/
@[simps -fullyApplied]
def emit (s : State) (e : Event) : State := { s with log := s.log ++ [e] }

/-- Writes a delegation record. -/
@[simps -fullyApplied]
def setDelegation (s : State) (key : Address × Address) (d : Delegation) : State :=
  { s with delegations := Function.update s.delegations key d }

/-- Writes an agent's pool. -/
@[simps -fullyApplied]
def setPool (s : State) (agent : Address) (pool : AgentDelegationPool) : State :=
  { s with agentPools := Function.update s.agentPools agent pool }

/-- Writes `totalDelegatedAllAgents`. -/
@[simps -fullyApplied]
def setAllAgents (s : State) (total : ℕ) : State := { s with totalDelegatedAllAgents := total }

end State

/-- `_delegationKey`. -/
abbrev delegationKey (delegator agent : Address) : Address × Address := (delegator, agent)

/-- `_computePending`: the unsettled reward from the accumulator's growth. -/
def computePending (d : Delegation) (pool : AgentDelegationPool) : Tx ℕ :=
  if d.amount = 0 then pure 0
  else do
    let delta ← checkedSub pool.rewardPerTokStored d.rewardPerTokenPaid
    if delta = 0 then pure 0
    else do
      let product ← checkedMul 256 d.amount delta
      let earned := product / PRECISION
      pure (if 2^96 - 1 < earned then 2^96 - 1 else earned)

/-- The reward that a delegation could claim, `pendingRewards + _computePending(d, pool)`. -/
def claimableReward (delegator agent : Address) (s : State) : Tx ℕ := do
  let d := s.delegations (delegationKey delegator agent)
  let earned ← computePending d (s.agentPools agent)
  pure (d.pendingRewards + earned)

/-- `_settlePending`: moves the unsettled reward into `pendingRewards` and advances the
checkpoint. -/
def settlePending (d : Delegation) (pool : AgentDelegationPool) : Tx Delegation := do
  let earned ← computePending d pool
  let pendingRewards ←
    (if 0 < earned then checkedAdd 96 d.pendingRewards earned else pure d.pendingRewards)
  pure { d with pendingRewards := pendingRewards, rewardPerTokenPaid := pool.rewardPerTokStored }

/-- `_addToDelegatorAgents`: appends to `delegatorAgents` if not already present. -/
def addToDelegatorAgents (delegator agent : Address) (s : State) : State :=
  let (delegatorAgents, inDelegatorAgents) :=
    PushOnce.push s.delegatorAgents s.inDelegatorAgents delegator agent
  { s with delegatorAgents := delegatorAgents, inDelegatorAgents := inDelegatorAgents }

/-- `_addToAgentDelegators`: appends to `agentDelegators` if not already present. -/
def addToAgentDelegators (agent delegator : Address) (s : State) : State :=
  let (agentDelegators, inAgentDelegators) :=
    PushOnce.push s.agentDelegators s.inAgentDelegators agent delegator
  { s with agentDelegators := agentDelegators, inAgentDelegators := inAgentDelegators }

/-- The pool of `agent` as `_executeDelegation` finds it, initialized on the first delegation. -/
def autoInitPool (s : State) (agent : Address) : AgentDelegationPool :=
  let pool := s.agentPools agent
  if pool.agent = 0 then
    { pool with agent := agent, rewardShareBps := truncate 16 s.defaultRewardBps }
  else pool

/-- The branch of `_executeDelegation` for a new delegation: the capacity check, the fresh record and
the list entries. -/
def openDelegation (env : Env) (delegator agent : Address) (d : Delegation)
    (pool : AgentDelegationPool) (s : State) : Tx (Delegation × AgentDelegationPool × State) := do
  require (pool.delegatorCount < s.maxDelegatorsPerAgent)
    "DelegatedStaking: agent at max delegators"
  let d := { d with
    delegator := delegator
    agent := agent
    delegatedAt := truncate 48 env.timestamp
    active := true
    rewardPerTokenPaid := pool.rewardPerTokStored }
  let s := addToAgentDelegators agent delegator (addToDelegatorAgents delegator agent s)
  let delegatorCount ← checkedAdd 32 pool.delegatorCount 1
  pure (d, { pool with delegatorCount := delegatorCount }, s)

/-- The branch of `_executeDelegation` for an open delegation: pending rewards are settled first. -/
def growDelegation (d : Delegation) (pool : AgentDelegationPool) (s : State) :
    Tx (Delegation × AgentDelegationPool × State) := do
  let d ← settlePending d pool
  pure (d, pool, s)

/-- `_executeDelegation`. -/
def executeDelegation (env : Env) (delegator agent : Address) (amount : ℕ) (s : State) :
    Tx State := do
  require (s.agentRegistry = 0 ∨ env.isActiveAgent agent = true)
    "DelegatedStaking: agent not active"
  let pool := autoInitPool s agent
  let key := delegationKey delegator agent
  let d := s.delegations key
  let (d, pool, s) ←
    (if d.active = false then openDelegation env delegator agent d pool s
      else growDelegation d pool s)
  let newAmount ← checkedAdd 96 d.amount amount
  let newTotal ← checkedAdd 96 pool.totalDelegated amount
  let newAllAgents ← checkedAdd 256 s.totalDelegatedAllAgents amount
  let d := { d with amount := newAmount, lastRewardClaimAt := truncate 48 env.timestamp }
  let s := (s.setDelegation key d).setPool agent { pool with totalDelegated := newTotal }
  pure ((s.setAllAgents newAllAgents).emit (.delegated delegator agent amount newTotal))

/-- The forced full unbonding at the end of `requestUndelegate`: a remainder below the minimum is
unbonded with the rest. -/
def unbondRemainder (minDelegation : ℕ) (d : Delegation) (pool : AgentDelegationPool) (all : ℕ) :
    Tx (Delegation × AgentDelegationPool × ℕ) :=
  if 0 < d.amount ∧ d.amount < truncate 96 minDelegation then do
    let remainder := d.amount
    let unbondingAmount ← checkedAdd 96 d.unbondingAmount remainder
    let newTotal ← checkedSub pool.totalDelegated remainder
    let newAllAgents ← checkedSub all remainder
    pure ({ d with amount := 0, unbondingAmount := unbondingAmount },
      { pool with totalDelegated := newTotal }, newAllAgents)
  else pure (d, pool, all)

/-- `requestUndelegate`. -/
def requestUndelegate (env : Env) (agent : Address) (amount : ℕ) (s : State) : Tx State := do
  modifier (s.paused = false) "EnforcedPause"
  let key := delegationKey env.sender agent
  let d := s.delegations key
  require (d.active = true) "DelegatedStaking: no active delegation"
  require (0 < amount) "DelegatedStaking: amount is zero"
  require (amount ≤ d.amount) "DelegatedStaking: exceeds delegated amount"
  require (d.unbondingAmount = 0) "DelegatedStaking: unbonding already in progress"
  let pool := s.agentPools agent
  let d ← settlePending d pool
  let remaining ← checkedSub d.amount amount
  let completesAt ← checkedAdd 256 env.timestamp s.unbondingPeriod
  let d := { d with
    amount := remaining
    unbondingAmount := amount
    unbondingCompleteAt := truncate 48 completesAt }
  let newTotal ← checkedSub pool.totalDelegated amount
  let newAllAgents ← checkedSub s.totalDelegatedAllAgents amount
  let (d, pool, newAllAgents) ←
    unbondRemainder s.minDelegation d { pool with totalDelegated := newTotal } newAllAgents
  let s := ((s.setDelegation key d).setPool agent pool).setAllAgents newAllAgents
  pure (s.emit (.undelegationRequested env.sender agent amount d.unbondingCompleteAt))

/-- `_executeCompleteUndelegate`: the amount to pay out, and the storage. -/
def executeCompleteUndelegate (env : Env) (agent : Address) (s : State) : Tx (ℕ × State) := do
  let key := delegationKey env.sender agent
  let d := s.delegations key
  require (d.active = true) "DelegatedStaking: no active delegation"
  require (0 < d.unbondingAmount) "DelegatedStaking: nothing to complete"
  require (d.unbondingCompleteAt ≤ env.timestamp) "DelegatedStaking: unbonding period not elapsed"
  let amount := d.unbondingAmount
  let d := { d with unbondingAmount := 0, unbondingCompleteAt := 0 }
  if d.amount = 0 then do
    let pool := s.agentPools agent
    let delegatorCount ← checkedSub pool.delegatorCount 1
    let s := s.setDelegation key { d with active := false }
    pure (amount, s.setPool agent { pool with delegatorCount := delegatorCount })
  else pure (amount, s.setDelegation key d)

/-- `_executeClaimRewards`: the reward to pay out, and the storage. -/
def executeClaimRewards (env : Env) (agent : Address) (s : State) : Tx (ℕ × State) := do
  let key := delegationKey env.sender agent
  let d := s.delegations key
  require (d.active = true) "DelegatedStaking: no active delegation"
  let d ← settlePending d (s.agentPools agent)
  let reward := d.pendingRewards
  require (0 < reward) "DelegatedStaking: no rewards to claim"
  let d := { d with pendingRewards := 0, lastRewardClaimAt := truncate 48 env.timestamp }
  pure (reward, s.setDelegation key d)

/-- The body of the loop of `_executeClaimAllRewards`. -/
def claimAgentRewards (env : Env) (acc : ℕ × State) (agent : Address) : Tx (ℕ × State) := do
  let (totalReward, s) := acc
  let key := delegationKey env.sender agent
  let d := s.delegations key
  if d.active = false then pure (totalReward, s)
  else do
    let d ← settlePending d (s.agentPools agent)
    let reward := d.pendingRewards
    if reward = 0 then pure (totalReward, s.setDelegation key d)
    else do
      let d := { d with pendingRewards := 0, lastRewardClaimAt := truncate 48 env.timestamp }
      let totalReward ← checkedAdd 256 totalReward reward
      pure (totalReward, (s.setDelegation key d).emit (.rewardsClaimed env.sender agent reward))

/-- `_executeClaimAllRewards`. -/
def executeClaimAllRewards (env : Env) (s : State) : Tx (ℕ × State) :=
  (s.delegatorAgents env.sender).foldlM (claimAgentRewards env) (0, s)

/-- What the loop of `propagateSlash` carries. -/
structure SlashLoop where
  /-- The storage so far. -/
  state : State
  /-- GUARD slashed so far, a `uint96`. -/
  totalSlashed : ℕ
  /-- Delegations slashed so far, a `uint32`. -/
  slashedCount : ℕ

/-- The share of `amount` that a slash takes, capped at `amount`. -/
def slashShare (amount slashBps : ℕ) : Tx ℕ := do
  let product ← checkedMul 256 amount slashBps
  let share := truncate 96 (product / 10000)
  pure (if amount < share then amount else share)

/-- The saturating subtraction of `propagateSlash`. -/
def saturatingSub (a b : ℕ) : ℕ := if b ≤ a then a - b else 0

/-- The body of the loop of `propagateSlash`. -/
def slashDelegation (agent : Address) (slashBps : ℕ) (acc : SlashLoop) (delegator : Address) :
    Tx SlashLoop := do
  let key := delegationKey delegator agent
  let d := acc.state.delegations key
  let pool := acc.state.agentPools agent
  if d.active = false ∨ d.amount = 0 then pure acc
  else do
    let activeSlash ← slashShare d.amount slashBps
    let unbondingSlash ←
      (if 0 < d.unbondingAmount then slashShare d.unbondingAmount slashBps else pure 0)
    let slashedFromDelegation ← checkedAdd 96 activeSlash unbondingSlash
    if slashedFromDelegation = 0 then pure acc
    else do
      let amount ← checkedSub d.amount activeSlash
      let unbondingAmount ← checkedSub d.unbondingAmount unbondingSlash
      let totalSlashed ← checkedAdd 96 acc.totalSlashed slashedFromDelegation
      let slashedCount ← checkedAdd 32 acc.slashedCount 1
      let closed : Bool := amount = 0 ∧ unbondingAmount = 0
      let d := { d with
        amount := amount
        unbondingAmount := unbondingAmount
        active := !closed }
      let pool := { pool with
        totalDelegated := saturatingSub pool.totalDelegated activeSlash
        delegatorCount :=
          if closed then saturatingSub pool.delegatorCount 1 else pool.delegatorCount }
      let s := (acc.state.setDelegation key d).setPool agent pool
      let all := saturatingSub acc.state.totalDelegatedAllAgents activeSlash
      pure ⟨s.setAllAgents all, totalSlashed, slashedCount⟩

/-- The loop of `propagateSlash` over the agent's delegators. -/
def slashDelegations (agent : Address) (slashBps : ℕ) (s : State) : Tx SlashLoop :=
  (s.agentDelegators agent).foldlM (slashDelegation agent slashBps) ⟨s, 0, 0⟩

/-- `setRewardShareBps`. -/
def setRewardShareBps (env : Env) (bps : ℕ) (s : State) : Tx State := do
  require (100 ≤ bps ∧ bps ≤ 5000) "DelegatedStaking: bps out of range [100,5000]"
  let pool := s.agentPools env.sender
  require (pool.agent = env.sender) "DelegatedStaking: not a registered pool"
  let s := s.setPool env.sender { pool with rewardShareBps := bps }
  pure (s.emit (.rewardShareUpdated env.sender pool.rewardShareBps bps))

end AuditGuard.DelegatedStaking
