import AuditGuard.Treasury.Model

/-!
# Treasury: calls and runs

The external functions of `Treasury.sol` that move GUARD, and the contract under all calls by all callers, from
its deployment on. The contract calls HTS only, which calls nobody. The token's address has no setter, so that
one ledger is enough.
-/

namespace AuditGuard.Treasury

open Evm

/-- `_transferGuard`. -/
def transferGuard (env : Env) (src dst : Address) (amount : ℕ) (w : World State) : Tx (World State) :=
  Hts.transfer "Treasury" env.transferAnswer src dst amount w

variable (this : Address) (env : Env)

/-- `receiveFee`. -/
def receiveFee (source : FeeSource) (amount jobId : ℕ) (w : World State) : Tx (World State) := do
  require (w.state.authorizedSources env.sender = true) "Treasury: not authorized source"
  require (0 < amount) "Treasury: amount is zero"
  let w ← transferGuard env env.sender this amount w
  onState (recordFee env source amount jobId) w

/-- A transfer to a target of a distribution, unless the amount is zero. -/
def payTarget (target : Address) (amount : ℕ) (w : World State) : Tx (World State) :=
  if 0 < amount then transferGuard env this target amount w else pure w

/-- `distribute`. -/
def distribute (w : World State) : Tx (World State) := do
  require (0 < w.state.pendingBalance) "Treasury: nothing to distribute"
  require (env.sender = w.state.owner ∨ w.state.autoDistributeThreshold ≤ w.state.pendingBalance)
    "Treasury: below auto-distribute threshold"
  let amount := w.state.pendingBalance
  let (ucpAmount, reserveAmount, burnAmt) ← split w.state.distributionConfig amount
  let w ← payTarget this env w.state.ucpValidatorPool ucpAmount w
  let w ← payTarget this env w.state.protocolReserve reserveAmount w
  let w ← payTarget this env w.state.burnAddress burnAmt w
  onState (recordDistribution env amount ucpAmount reserveAmount burnAmt) w

/-- `emergencyWithdraw`. -/
def emergencyWithdraw (recipient : Address) (amount : ℕ) (w : World State) : Tx (World State) := do
  onlyOwner env w.state
  require (recipient ≠ 0) "Treasury: recipient is zero"
  require (0 < amount) "Treasury: amount is zero"
  let w ← transferGuard env this recipient amount w
  let pendingBalance ← (if amount ≤ w.state.pendingBalance
    then checkedSub w.state.pendingBalance amount else pure 0)
  let s := { w.state with pendingBalance := pendingBalance }
  pure { w with state := s.emit (.emergencyWithdraw recipient amount) }

/-- The state-changing external functions with their arguments. -/
inductive Call
  | receiveFee (source : FeeSource) (amount jobId : UInt 256)
  | distribute
  | setDistributionConfig (ucpPercent reservePercent burnPercent : UInt 256)
  | setDistributionTargets (ucpValidatorPool protocolReserve burnAddress : Address)
  | setDiscountParameters (stakeThreshold reputationThreshold discountBasisPoints : UInt 256)
  | setAutoDistributeThreshold (threshold : UInt 256)
  | addAuthorizedSource (source : Address)
  | removeAuthorizedSource (source : Address)
  | setStakingManager (stakingManager : Address)
  | setAgentRegistry (agentRegistry : Address)
  | emergencyWithdraw (recipient : Address) (amount : UInt 256)
  | associateGuardToken
  | transferOwnership (newOwner : Address)
  | renounceOwnership

/-- One call. No function is payable, so that a message with HBAR is refused. -/
def exec (c : Call) (w : World State) : Tx (World State) :=
  if env.value ≠ 0 then .error .callFailed
  else match c with
  | .receiveFee source amount jobId => receiveFee this env source amount jobId w
  | .distribute => distribute this env w
  | .setDistributionConfig ucpPercent reservePercent burnPercent =>
    onState (setDistributionConfig env ucpPercent reservePercent burnPercent) w
  | .setDistributionTargets ucpValidatorPool protocolReserve burnAddress =>
    onState (setDistributionTargets env ucpValidatorPool protocolReserve burnAddress) w
  | .setDiscountParameters stakeThreshold reputationThreshold discountBasisPoints =>
    onState (setDiscountParameters env stakeThreshold reputationThreshold discountBasisPoints) w
  | .setAutoDistributeThreshold threshold => onState (setAutoDistributeThreshold env threshold) w
  | .addAuthorizedSource source => onState (addAuthorizedSource env source) w
  | .removeAuthorizedSource source => onState (removeAuthorizedSource env source) w
  | .setStakingManager stakingManager => onState (setStakingManager env stakingManager) w
  | .setAgentRegistry agentRegistry => onState (setAgentRegistry env agentRegistry) w
  | .emergencyWithdraw recipient amount => emergencyWithdraw this env recipient amount w
  | .associateGuardToken => onState (associateGuardToken env) w
  | .transferOwnership newOwner => onState (transferOwnership env newOwner) w
  | .renounceOwnership => onState (renounceOwnership env) w

/-- The storage that the constructor leaves. -/
def State.fresh (deployer guardToken ucpValidatorPool protocolReserve burnAddress : Address) :
    State where
  owner := deployer
  guardToken := guardToken
  stakingManager := 0
  agentRegistry := 0
  authorizedSources := fun _ => false
  distributionConfig := ⟨40, 50, 10, rfl⟩
  ucpValidatorPool := ucpValidatorPool
  protocolReserve := protocolReserve
  burnAddress := burnAddress
  autoDistributeThreshold := 100 * 10^8
  totalRevenue := 0
  totalDistributed := 0
  pendingBalance := 0
  totalBurned := 0
  revenueBySource := fun _ => 0
  revenueHistory := []
  nextDistributionId := 1
  distributions := fun _ => DistributionRecord.zero
  highStakeThreshold := 500 * 10^8
  highReputationThreshold := 8500
  discountBasisPoints := 5000
  log := []

/-- The constructor, called by `deployer`. -/
def deploy (deployer guardToken ucpValidatorPool protocolReserve burnAddress : Address) : Tx State := do
  modifier (deployer ≠ 0) "OwnableInvalidOwner"
  require (guardToken ≠ 0) "Treasury: guard token is zero"
  require (ucpValidatorPool ≠ 0) "Treasury: ucp pool is zero"
  require (protocolReserve ≠ 0) "Treasury: reserve is zero"
  require (burnAddress ≠ 0) "Treasury: burn address is zero"
  pure (State.fresh deployer guardToken ucpValidatorPool protocolReserve burnAddress)

/-- The contract, at the address `this`. -/
def contract : Contract State Env Call where
  this := this
  fresh s := ∃ deployer guardToken ucpValidatorPool protocolReserve burnAddress,
    deploy deployer guardToken ucpValidatorPool protocolReserve burnAddress = .ok s
  msg := Env.toMsg
  exec := exec this

/-! ## A sample treasury

The contract at address 1, deployed by 9, with GUARD at 7 and the targets 11, 12 and 13. The account 2 holds
tokens, and HTS takes every transfer. -/

/-- The treasury at its deployment. -/
def sampleWorld : World State where
  state := State.fresh 9 7 11 12 13
  token := Ledger.single 2 (10^12) TokenLedger.trillion_lt
  now := 0

/-- A call without HBAR, of which everything outside succeeds. -/
def sampleEnv (sender : Address) (timestamp : ℕ) : Env where
  sender := sender
  value := 0
  timestamp := timestamp
  transferAnswer := Hts.HTS_SUCCESS
  associateAnswer := Hts.HTS_SUCCESS

theorem sample_run (calls : List (Env × Call)) (hs : (contract 1).Scheduled 0 calls)
    (h : ((contract 1).execAll calls sampleWorld).isOk = true) :
    ∃ ts w, (contract 1).execAll calls sampleWorld = .ok w ∧ (contract 1).system.Run ts w ∧
      (contract 1).trace calls sampleWorld = .ok ts :=
  Contract.exists_run ⟨9, 7, 11, 12, 13, rfl⟩ hs h

end AuditGuard.Treasury
