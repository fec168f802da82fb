import AuditGuard.DelegatedStaking.Model
import AuditGuard.Library.Transition

/-!
# DelegatedStaking: calls and runs

The external functions of `DelegatedStaking.sol`, which act on the storage and on the token ledgers,
and the transition system of all calls by all callers. Every call is one atomic step, since
`nonReentrant` refuses any call that a token or a pool could make back.

Between calls the rest of the chain moves tokens as it likes, except out of this contract: the only
account that spends the contract's tokens is the contract, and the allowance that it gives an
`HbarPool` is used up by the call that gives it.
-/

namespace AuditGuard.DelegatedStaking

open Evm

/-- What is fixed when the contract is deployed: its address, and which addresses hold an `HbarPool`,
each with its immutable `guardToken`. -/
structure Deployment where
  /-- `address(this)`. -/
  this : Address
  /-- The `guardToken` of the `HbarPool` at an address, if there is one. -/
  hbarPools : Address → Option Address
  /-- This contract is not an `HbarPool`. -/
  this_not_pool : hbarPools this = none

/-- The contract's storage with the ledgers of the tokens and of HBAR. -/
structure World where
  state : State
  /-- The ledger of each token, by the token's address. -/
  tokens : Address → TokenLedger
  hbar : TokenLedger

namespace World

/-- The ledger of the contract's GUARD token. -/
def guard (w : World) : TokenLedger := w.tokens w.state.guardToken

/-- Appends an event to the log. -/
def emit (w : World) (e : Event) : World := { w with state := w.state.emit e }

end World

variable (dep : Deployment) (env : Env)

/-- `_transferGuard`: `transfer` from this contract, and `transferFrom` from anyone else. The token
moves exactly the amount, or the call reverts. -/
def transferGuard (src dst : Address) (amount : ℕ) (w : World) : Tx World := do
  let message :=
    if src = dep.this then "DelegatedStaking: transfer failed"
    else "DelegatedStaking: transferFrom failed"
  let guard ← orRevert (.require message)
    (if env.tokenAccepts then w.guard.transfer src dst amount else none)
  pure { w with tokens := Function.update w.tokens w.state.guardToken guard }

/-- `delegate`. -/
def delegate (agent : Address) (amount : ℕ) (w : World) : Tx World := do
  modifier (w.state.paused = false) "EnforcedPause"
  require (w.state.minDelegation ≤ amount) "DelegatedStaking: below minimum delegation"
  let w ← transferGuard dep env env.sender dep.this amount w
  let state ← executeDelegation env env.sender agent amount w.state
  pure { w with state := state }

/-- `delegateWithHbar`. The HBAR of the message arrives with the call and goes on to the pool. -/
def delegateWithHbar (agent : Address) (w : World) : Tx World := do
  modifier (w.state.paused = false) "EnforcedPause"
  require (0 < env.value) "DelegatedStaking: zero hbar"
  require (w.state.hbarPool ≠ 0) "DelegatedStaking: hbar pool not set"
  let hbar ← orRevert .callFailed (w.hbar.transfer env.sender dep.this env.value)
  let token ← orRevert .callFailed (dep.hbarPools w.state.hbarPool)
  let (guardAmount, guard, hbar) ← HbarPool.hbarToGuard env.tokenAccepts w.state.hbarPool dep.this
    env.value (w.tokens token) hbar
  require (w.state.minDelegation ≤ guardAmount) "DelegatedStaking: below minimum delegation"
  let state ← executeDelegation env env.sender agent (truncate 96 guardAmount) w.state
  pure { state := state, tokens := Function.update w.tokens token guard, hbar := hbar }

/-- The conversion at the end of the functions that pay in HBAR: approve the pool for `amount`, and
have it pay the caller. -/
def payInHbar (amount : ℕ) (w : World) : Tx World := do
  let token ← orRevert .callFailed (dep.hbarPools w.state.hbarPool)
  let allowance := if token = w.state.guardToken then amount else 0
  let (guard, hbar) ← HbarPool.guardToHbarFor env.tokenAccepts env.recipientPayable
    w.state.hbarPool dep.this allowance amount env.sender (w.tokens token) w.hbar
  pure { w with tokens := Function.update w.tokens token guard, hbar := hbar }

/-- `completeUndelegate`. -/
def completeUndelegate (agent : Address) (w : World) : Tx World := do
  let (amount, state) ← executeCompleteUndelegate env agent w.state
  let w ← transferGuard dep env dep.this env.sender amount { w with state := state }
  pure (w.emit (.undelegationCompleted env.sender agent amount))

/-- `completeUndelegateToHbar`. -/
def completeUndelegateToHbar (agent : Address) (w : World) : Tx World := do
  require (w.state.hbarPool ≠ 0) "DelegatedStaking: hbar pool not set"
  let (amount, state) ← executeCompleteUndelegate env agent w.state
  let w ← payInHbar dep env amount { w with state := state }
  pure (w.emit (.undelegationCompleted env.sender agent amount))

/-- `distributeRewards`. -/
def distributeRewards (agent : Address) (amount : ℕ) (w : World) : Tx World := do
  require (w.state.authorizedDistributors env.sender = true ∨ env.sender = agent)
    "DelegatedStaking: not authorized distributor"
  let pool := w.state.agentPools agent
  require (pool.agent = agent) "DelegatedStaking: pool not initialized"
  if pool.totalDelegated = 0 ∨ amount = 0 then pure w
  else do
    let product ← checkedMul 256 amount pool.rewardShareBps
    let delegatorShare := truncate 96 (product / 10000)
    if delegatorShare = 0 then pure w
    else do
      let w ← transferGuard dep env env.sender dep.this delegatorShare w
      let scaled ← checkedMul 256 delegatorShare PRECISION
      let stored ← checkedAdd 256 pool.rewardPerTokStored (scaled / pool.totalDelegated)
      let accrued ← checkedAdd 96 pool.totalRewardsAccrued delegatorShare
      let pool := { pool with rewardPerTokStored := stored, totalRewardsAccrued := accrued }
      let w := { w with state := w.state.setPool agent pool }
      pure (w.emit (.rewardsDistributed agent amount delegatorShare))

/-- `claimRewards`. -/
def claimRewards (agent : Address) (w : World) : Tx World := do
  let (reward, state) ← executeClaimRewards env agent w.state
  let w ← transferGuard dep env dep.this env.sender reward { w with state := state }
  pure (w.emit (.rewardsClaimed env.sender agent reward))

/-- `claimRewardsAsHbar`. -/
def claimRewardsAsHbar (agent : Address) (w : World) : Tx World := do
  require (w.state.hbarPool ≠ 0) "DelegatedStaking: hbar pool not set"
  let (reward, state) ← executeClaimRewards env agent w.state
  let w ← payInHbar dep env reward { w with state := state }
  pure (w.emit (.rewardsClaimed env.sender agent reward))

/-- `claimAllRewards`. -/
def claimAllRewards (w : World) : Tx World := do
  let (totalReward, state) ← executeClaimAllRewards env w.state
  transferGuard dep env dep.this env.sender totalReward { w with state := state }

/-- `claimAllRewardsAsHbar`. -/
def claimAllRewardsAsHbar (w : World) : Tx World := do
  require (w.state.hbarPool ≠ 0) "DelegatedStaking: hbar pool not set"
  let (totalReward, state) ← executeClaimAllRewards env w.state
  require (0 < totalReward) "DelegatedStaking: no rewards to claim"
  payInHbar dep env totalReward { w with state := state }

/-- `propagateSlash`. -/
def propagateSlash (agent : Address) (slashBps : ℕ) (w : World) : Tx World := do
  require (env.sender = w.state.stakingManager) "DelegatedStaking: not staking manager"
  require (slashBps ≤ 10000) "DelegatedStaking: slash bps exceeds 100%"
  if (w.state.agentPools agent).totalDelegated = 0 then pure w
  else do
    let loop ← slashDelegations agent slashBps w.state
    let w := { w with state := loop.state }
    let w ←
      (if 0 < loop.totalSlashed then
        transferGuard dep env dep.this w.state.treasury loop.totalSlashed w
      else pure w)
    pure (w.emit (.delegationSlashed agent loop.totalSlashed loop.slashedCount))

/-- The owner's functions: the setters, and those of `Ownable` and `Pausable`. -/
inductive AdminCall
  | setGuardToken (guardToken : Address)
  | setStakingManager (stakingManager : Address)
  | setAgentRegistry (agentRegistry : Address)
  | setTreasury (treasury : Address)
  | setHbarPool (hbarPool : Address)
  | addAuthorizedDistributor (distributor : Address)
  | removeAuthorizedDistributor (distributor : Address)
  | setMinDelegation (amount : UInt 256)
  | setUnbondingPeriod (seconds : UInt 256)
  | setMaxDelegatorsPerAgent (max : UInt 256)
  | setDefaultRewardBps (bps : UInt 256)
  | pause
  | unpause
  | transferOwnership (newOwner : Address)
  | renounceOwnership

/-- The owner's functions, behind `onlyOwner`. -/
def execAdmin (c : AdminCall) (s : State) : Tx State := do
  modifier (env.sender = s.owner) "OwnableUnauthorizedAccount"
  match c with
  | .setGuardToken guardToken => do
    require (guardToken ≠ 0) "DelegatedStaking: address is zero"
    pure { s with guardToken := guardToken }
  | .setStakingManager stakingManager => pure { s with stakingManager := stakingManager }
  | .setAgentRegistry agentRegistry => pure { s with agentRegistry := agentRegistry }
  | .setTreasury treasury => do
    require (treasury ≠ 0) "DelegatedStaking: address is zero"
    pure { s with treasury := treasury }
  | .setHbarPool hbarPool => do
    require (hbarPool ≠ 0) "DelegatedStaking: address is zero"
    pure { s with hbarPool := hbarPool }
  | .addAuthorizedDistributor distributor => do
    require (distributor ≠ 0) "DelegatedStaking: address is zero"
    pure { s with
      authorizedDistributors := Function.update s.authorizedDistributors distributor true }
  | .removeAuthorizedDistributor distributor =>
    pure { s with
      authorizedDistributors := Function.update s.authorizedDistributors distributor false }
  | .setMinDelegation amount => do
    require (0 < amount.val) "DelegatedStaking: amount is zero"
    pure { s with minDelegation := amount }
  | .setUnbondingPeriod seconds => pure { s with unbondingPeriod := seconds }
  | .setMaxDelegatorsPerAgent max => do
    require (0 < max.val ∧ max.val ≤ 200) "DelegatedStaking: max out of range"
    pure { s with maxDelegatorsPerAgent := max }
  | .setDefaultRewardBps bps => do
    require (bps.val ≤ 5000) "DelegatedStaking: exceeds 50%"
    pure { s with defaultRewardBps := bps }
  | .pause => do
    modifier (s.paused = false) "EnforcedPause"
    pure { s with paused := true }
  | .unpause => do
    modifier (s.paused = true) "ExpectedPause"
    pure { s with paused := false }
  | .transferOwnership newOwner => do
    modifier (newOwner ≠ 0) "OwnableInvalidOwner"
    pure { s with owner := newOwner }
  | .renounceOwnership => pure { s with owner := 0 }

/-- The state-changing external functions with their arguments. -/
inductive Call
  | delegate (agent : Address) (amount : UInt 96)
  | delegateWithHbar (agent : Address)
  | requestUndelegate (agent : Address) (amount : UInt 96)
  | completeUndelegate (agent : Address)
  | completeUndelegateToHbar (agent : Address)
  | distributeRewards (agent : Address) (amount : UInt 96)
  | claimRewards (agent : Address)
  | claimRewardsAsHbar (agent : Address)
  | claimAllRewards
  | claimAllRewardsAsHbar
  | setRewardShareBps (bps : UInt 16)
  | propagateSlash (agent : Address) (slashBps : UInt 256)
  | admin (c : AdminCall)

/-- Whether the function takes HBAR. -/
def Call.payable : Call → Bool
  | .delegateWithHbar _ => true
  | _ => false

/-- One call. A function that is not payable refuses a message with HBAR. -/
def exec (c : Call) (w : World) : Tx World :=
  if env.value ≠ 0 ∧ c.payable = false then .error .callFailed
  else match c with
  | .delegate agent amount => delegate dep env agent amount w
  | .delegateWithHbar agent => delegateWithHbar dep env agent w
  | .requestUndelegate agent amount => do
    let state ← requestUndelegate env agent amount w.state
    pure { w with state := state }
  | .completeUndelegate agent => completeUndelegate dep env agent w
  | .completeUndelegateToHbar agent => completeUndelegateToHbar dep env agent w
  | .distributeRewards agent amount => distributeRewards dep env agent amount w
  | .claimRewards agent => claimRewards dep env agent w
  | .claimRewardsAsHbar agent => claimRewardsAsHbar dep env agent w
  | .claimAllRewards => claimAllRewards dep env w
  | .claimAllRewardsAsHbar => claimAllRewardsAsHbar dep env w
  | .setRewardShareBps bps => do
    let state ← setRewardShareBps env bps w.state
    pure { w with state := state }
  | .propagateSlash agent slashBps => propagateSlash dep env agent slashBps w
  | .admin c => do
    let state ← execAdmin env c w.state
    pure { w with state := state }

/-- The storage that the constructor leaves, with the initial values of the declarations. -/
def State.fresh (deployer guardToken treasury : Address) : State where
  owner := deployer
  paused := false
  guardToken := guardToken
  stakingManager := 0
  agentRegistry := 0
  treasury := treasury
  hbarPool := 0
  authorizedDistributors := fun _ => false
  minDelegation := 10 * 10^8
  unbondingPeriod := 86400
  maxDelegatorsPerAgent := 50
  defaultRewardBps := 1000
  delegations := fun _ => Delegation.zero
  agentPools := fun _ => AgentDelegationPool.zero
  delegatorAgents := fun _ => []
  agentDelegators := fun _ => []
  inDelegatorAgents := fun _ => false
  inAgentDelegators := fun _ => false
  totalDelegatedAllAgents := 0
  log := []

/-- The constructor, called by `deployer`, with the response code of the HTS association. -/
def deploy (deployer guardToken treasury : Address) (code : ℤ) : Tx State := do
  modifier (deployer ≠ 0) "OwnableInvalidOwner"
  require (guardToken ≠ 0) "DelegatedStaking: guard token is zero"
  require (treasury ≠ 0) "DelegatedStaking: treasury is zero"
  require (code = 22 ∨ code = 194) "DelegatedStaking: HTS association failed"
  pure (State.fresh deployer guardToken treasury)

/-- The calls of a list, one after the other. -/
def execAll (calls : List (Env × Call)) (w : World) : Tx World :=
  calls.foldlM (fun w call => exec dep call.1 call.2 w) w

/-- What a step is: a call with its environment, or token movements elsewhere. -/
inductive Label
  | call (env : Env) (c : Call)
  | elsewhere

/-- The steps: a call that does not revert, by an account other than the contract itself, and
movements of tokens that take none from the contract. -/
inductive Step : World → Label → World → Prop
  | call {env : Env} {c : Call} {w w' : World} (hs : env.sender ≠ dep.this)
      (h : exec dep env c w = .ok w') : Step w (.call env c) w'
  | elsewhere {w : World} {tokens : Address → TokenLedger} {hbar : TokenLedger}
      (h : ∀ t, (w.tokens t).balance dep.this ≤ (tokens t).balance dep.this) :
      Step w .elsewhere { w with tokens := tokens, hbar := hbar }

/-- A world in which the contract has just been deployed. -/
def Deployed (w : World) : Prop :=
  ∃ deployer guardToken treasury code, deploy deployer guardToken treasury code = .ok w.state

/-- The contract, under all calls by all callers. -/
def system : TransitionSystem World Label where
  init := Deployed
  step := Step dep

variable {dep} {w w' : World}

theorem Deployed.state_eq (h : Deployed w) :
    ∃ deployer guardToken treasury, w.state = State.fresh deployer guardToken treasury := by
  obtain ⟨deployer, guardToken, treasury, code, h⟩ := h
  simp only [deploy, bind_eq_ok, modifier_eq_ok, require_eq_ok, pure_eq_ok] at h
  obtain ⟨_, -, _, -, _, -, _, -, h⟩ := h
  exact ⟨deployer, guardToken, treasury, h.symm⟩

theorem reachable_execAll {allowed : World → Label → Prop} {calls : List (Env × Call)}
    (hw : ((system dep).restrict allowed).Reachable w)
    (hs : ∀ call ∈ calls, call.1.sender ≠ dep.this)
    (hallowed : ∀ call ∈ calls, ∀ w, allowed w (.call call.1 call.2))
    (h : execAll dep calls w = .ok w') : ((system dep).restrict allowed).Reachable w' := by
  induction calls generalizing w with
  | nil =>
    simp only [execAll, List.foldlM_nil, pure_eq_ok] at h
    exact h ▸ hw
  | cons call calls ih =>
    simp only [execAll, List.foldlM_cons, bind_eq_ok] at h
    obtain ⟨w₁, h₁, h⟩ := h
    rw [List.forall_mem_cons] at hs hallowed
    exact ih (.step hw ⟨hallowed.1 w, .call hs.1 h₁⟩) hs.2 hallowed.2 h

/-! ## A sample deployment

The contract at address 1, owned by 9, with GUARD at 7 and the treasury at 8. Account 2 holds tokens,
and every outside condition is met. -/

/-- The contract at address 1, without liquidity pools. -/
def sampleDeployment : Deployment := ⟨1, fun _ => none, rfl⟩

/-- The contract at its deployment. -/
def sampleWorld : World where
  state := State.fresh 9 7 8
  tokens := fun _ => Ledger.single 2 (10^12) TokenLedger.trillion_lt
  hbar := Ledger.single 2 (10^12) TokenLedger.trillion_lt

/-- A call without HBAR, of which everything outside succeeds. -/
def sampleEnv (sender : Address) (timestamp : ℕ) : Env where
  sender := sender
  value := 0
  timestamp := timestamp
  isActiveAgent := fun _ => true
  tokenAccepts := true
  recipientPayable := true

theorem sampleWorld_deployed : Deployed sampleWorld := ⟨9, 7, 8, 22, rfl⟩

theorem sample_reachable {calls : List (Env × Call)}
    (hs : ∀ call ∈ calls, call.1.sender ≠ sampleDeployment.this)
    (h : (execAll sampleDeployment calls sampleWorld).isOk = true) :
    ∃ w, execAll sampleDeployment calls sampleWorld = .ok w ∧
      (system sampleDeployment).Reachable w := by
  obtain ⟨w, hw⟩ := exists_eq_ok h
  have h0 : ((system sampleDeployment).restrict fun _ _ => True).Reachable sampleWorld :=
    .init sampleWorld_deployed
  exact ⟨w, hw, (reachable_execAll h0 hs (fun _ _ _ => trivial) hw).of_restrict⟩

theorem sample_read {α : Type} {calls : List (Env × Call)} {w : World} (f : World → α) {a : α}
    (hw : execAll sampleDeployment calls sampleWorld = .ok w)
    (h : (execAll sampleDeployment calls sampleWorld).map f = .ok a) : f w = a := by
  rw [hw] at h
  exact Except.ok.inj h

end AuditGuard.DelegatedStaking
