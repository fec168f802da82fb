import AuditGuard.Hts

/-!
# Treasury: storage and functions on storage

The data of `Treasury.sol` and its functions on storage alone. The array of the revenue records is a list, and a
mapping is a function. The views, which no call reads, are left out. Where a `uint256` field comes out of an
operation, the operation makes the check that the compiler makes.
-/

namespace AuditGuard.Treasury

open Evm

/-- Where revenue comes from. -/
inductive FeeSource
  | auditPlatformFee
  | dataMarketplaceFee
  | reportAgentFee
  | slashingProceeds
  | subAuctionFee
deriving DecidableEq

instance : Fintype FeeSource where
  elems := {.auditPlatformFee, .dataMarketplaceFee, .reportAgentFee, .slashingProceeds, .subAuctionFee}
  complete source := by cases source <;> decide

/-- One entry of the revenue history. -/
structure RevenueRecord where
  source : FeeSource
  amount : ℕ
  timestamp : ℕ
  jobId : ℕ
  fromContract : Address
deriving DecidableEq

/-- How a distribution is split, in percent. The constructor and the setter see to it that the parts make a
whole, so that it is a field. -/
structure DistributionConfig where
  ucpValidatorsPercent : ℕ
  protocolReservePercent : ℕ
  burnPercent : ℕ
  /-- Must sum to exactly 100. -/
  sum_eq : ucpValidatorsPercent + protocolReservePercent + burnPercent = 100
deriving DecidableEq

/-- One entry of the distribution history. -/
structure DistributionRecord where
  distributionId : ℕ
  totalDistributed : ℕ
  ucpAmount : ℕ
  reserveAmount : ℕ
  burnAmount : ℕ
  timestamp : ℕ
deriving DecidableEq

/-- A record that was never written. -/
def DistributionRecord.zero : DistributionRecord := ⟨0, 0, 0, 0, 0, 0⟩

/-- The contract's events. -/
inductive Event
  | feeReceived (source : FeeSource) (amount jobId : ℕ) (fromContract : Address)
  | feeDistributed (distributionId totalDistributed ucpAmount reserveAmount burnAmount : ℕ)
  | distributionConfigUpdated (ucpPercent reservePercent burnPercent : ℕ)
  | distributionTargetsUpdated (ucpPool reserve burn : Address)
  | discountParametersUpdated (stakeThreshold reputationThreshold discountBasisPoints : ℕ)
  | sourceAuthorized (source : Address)
  | sourceRevoked (source : Address)
  | emergencyWithdraw (recipient : Address) (amount : ℕ)
  | guardTokenAssociated (token : Address)
deriving DecidableEq

/-- The contract's storage, with the log of its events. -/
structure State where
  owner : Address
  guardToken : Address
  stakingManager : Address
  agentRegistry : Address
  authorizedSources : Address → Bool
  distributionConfig : DistributionConfig
  ucpValidatorPool : Address
  protocolReserve : Address
  burnAddress : Address
  autoDistributeThreshold : ℕ
  totalRevenue : ℕ
  totalDistributed : ℕ
  pendingBalance : ℕ
  totalBurned : ℕ
  revenueBySource : FeeSource → ℕ
  revenueHistory : List RevenueRecord
  nextDistributionId : ℕ
  distributions : ℕ → DistributionRecord
  highStakeThreshold : ℕ
  highReputationThreshold : ℕ
  discountBasisPoints : ℕ
  /-- The events emitted so far, oldest first. -/
  log : List Event

/-- What a call reads from outside the contract: its message, and what HTS answers. A transfer that HTS
refuses reverts the call, so that one answer stands for all transfers of a call. -/
structure Env extends Msg where
  transferAnswer : ℤ
  associateAnswer : ℤ

/-- Appends an event to the log. -/
@[simps -fullyApplied]
def State.emit (s : State) (e : Event) : State := { s with log := s.log ++ [e] }

/-- The modifier `onlyOwner`. -/
def onlyOwner (env : Env) (s : State) : Tx Unit :=
  modifier (env.sender = s.owner) "OwnableUnauthorizedAccount"

/-- `receiveFee`, after its transfer. -/
def recordFee (env : Env) (source : FeeSource) (amount jobId : ℕ) (s : State) : Tx State := do
  let totalRevenue ← checkedAdd 256 s.totalRevenue amount
  let pendingBalance ← checkedAdd 256 s.pendingBalance amount
  let ofSource ← checkedAdd 256 (s.revenueBySource source) amount
  let record : RevenueRecord := ⟨source, amount, env.timestamp, jobId, env.sender⟩
  let s := { s with
    totalRevenue := totalRevenue
    pendingBalance := pendingBalance
    revenueBySource := Function.update s.revenueBySource source ofSource
    revenueHistory := s.revenueHistory ++ [record] }
  pure (s.emit (.feeReceived source amount jobId env.sender))

/-- The split of `distribute`: the parts of the validators, of the reserve and of the burn address, which gets
the remainder. -/
def split (config : DistributionConfig) (amount : ℕ) : Tx (ℕ × ℕ × ℕ) := do
  let ucp ← checkedMul 256 amount config.ucpValidatorsPercent
  let reserve ← checkedMul 256 amount config.protocolReservePercent
  let rest ← checkedSub amount (ucp / 100)
  let burnAmt ← checkedSub rest (reserve / 100)
  pure (ucp / 100, reserve / 100, burnAmt)

/-- `distribute`, after its transfers. -/
def recordDistribution (env : Env) (amount ucpAmount reserveAmount burnAmt : ℕ) (s : State) :
    Tx State := do
  let totalBurned ← (if 0 < burnAmt then checkedAdd 256 s.totalBurned burnAmt else pure s.totalBurned)
  let totalDistributed ← checkedAdd 256 s.totalDistributed amount
  let distId := s.nextDistributionId
  let nextDistributionId ← checkedAdd 256 distId 1
  let record : DistributionRecord := ⟨distId, amount, ucpAmount, reserveAmount, burnAmt, env.timestamp⟩
  let s := { s with
    totalBurned := totalBurned
    totalDistributed := totalDistributed
    pendingBalance := 0
    nextDistributionId := nextDistributionId
    distributions := Function.update s.distributions distId record }
  pure (s.emit (.feeDistributed distId amount ucpAmount reserveAmount burnAmt))

/-- `setDistributionConfig`. -/
def setDistributionConfig (env : Env) (ucpPercent reservePercent burnPercent : ℕ) (s : State) :
    Tx State := do
  onlyOwner env s
  let sum ← checkedAdd 256 ucpPercent reservePercent
  let _ ← checkedAdd 256 sum burnPercent
  if hsum : ucpPercent + reservePercent + burnPercent = 100 then
    let s := { s with distributionConfig := ⟨ucpPercent, reservePercent, burnPercent, hsum⟩ }
    pure (s.emit (.distributionConfigUpdated ucpPercent reservePercent burnPercent))
  else .error (.require "Treasury: must sum to 100")

/-- `setDistributionTargets`. -/
def setDistributionTargets (env : Env) (ucpValidatorPool protocolReserve burnAddress : Address)
    (s : State) : Tx State := do
  onlyOwner env s
  require (ucpValidatorPool ≠ 0) "Treasury: ucp pool is zero"
  require (protocolReserve ≠ 0) "Treasury: reserve is zero"
  require (burnAddress ≠ 0) "Treasury: burn address is zero"
  let s := { s with
    ucpValidatorPool := ucpValidatorPool
    protocolReserve := protocolReserve
    burnAddress := burnAddress }
  pure (s.emit (.distributionTargetsUpdated ucpValidatorPool protocolReserve burnAddress))

/-- `setDiscountParameters`. -/
def setDiscountParameters (env : Env) (stakeThreshold reputationThreshold discountBasisPoints : ℕ)
    (s : State) : Tx State := do
  onlyOwner env s
  require (discountBasisPoints ≤ 10000) "Treasury: discount exceeds 100%"
  let s := { s with
    highStakeThreshold := stakeThreshold
    highReputationThreshold := reputationThreshold
    discountBasisPoints := discountBasisPoints }
  pure (s.emit (.discountParametersUpdated stakeThreshold reputationThreshold discountBasisPoints))

/-- `setAutoDistributeThreshold`. -/
def setAutoDistributeThreshold (env : Env) (threshold : ℕ) (s : State) : Tx State := do
  onlyOwner env s
  pure { s with autoDistributeThreshold := threshold }

/-- `addAuthorizedSource`. -/
def addAuthorizedSource (env : Env) (source : Address) (s : State) : Tx State := do
  onlyOwner env s
  require (source ≠ 0) "Treasury: address is zero"
  let s := { s with authorizedSources := Function.update s.authorizedSources source true }
  pure (s.emit (.sourceAuthorized source))

/-- `removeAuthorizedSource`. -/
def removeAuthorizedSource (env : Env) (source : Address) (s : State) : Tx State := do
  onlyOwner env s
  let s := { s with authorizedSources := Function.update s.authorizedSources source false }
  pure (s.emit (.sourceRevoked source))

/-- `setStakingManager`. -/
def setStakingManager (env : Env) (stakingManager : Address) (s : State) : Tx State := do
  onlyOwner env s
  pure { s with stakingManager := stakingManager }

/-- `setAgentRegistry`. -/
def setAgentRegistry (env : Env) (agentRegistry : Address) (s : State) : Tx State := do
  onlyOwner env s
  pure { s with agentRegistry := agentRegistry }

/-- `associateGuardToken`. -/
def associateGuardToken (env : Env) (s : State) : Tx State := do
  onlyOwner env s
  require (env.associateAnswer = Hts.HTS_SUCCESS ∨
    env.associateAnswer = Hts.HTS_TOKEN_ALREADY_ASSOCIATED) "Treasury: token association failed"
  pure (s.emit (.guardTokenAssociated s.guardToken))

/-- `transferOwnership`. -/
def transferOwnership (env : Env) (newOwner : Address) (s : State) : Tx State := do
  onlyOwner env s
  modifier (newOwner ≠ 0) "OwnableInvalidOwner"
  pure { s with owner := newOwner }

/-- `renounceOwnership`. -/
def renounceOwnership (env : Env) (s : State) : Tx State := do
  onlyOwner env s
  pure { s with owner := 0 }

end AuditGuard.Treasury
