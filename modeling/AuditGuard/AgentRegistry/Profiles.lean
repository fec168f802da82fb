import AuditGuard.AgentRegistry.Model

/-!
# AgentRegistry: the life of a profile

What the registry is for, seen from one agent: it registers with a stake, adds to it and withdraws from it,
is promoted, scored and slashed, and leaves. Who calls is left out here. The profiles of all agents and the
ledger of the GUARD token are the registry's books, which every step in the life of a profile moves by the
tokens that it takes in or pays out.
-/

namespace AuditGuard.AgentRegistry

open Evm

/-- The steps in the life of a profile, with what they are given. -/
inductive ProfileOp
  | register (stakeAmount : ℕ)
  | addStake (amount : ℕ)
  | promote
  | score (reputation : ℕ)
  | record (validFindings falsePos falseNeg reputation : ℕ)
  | slash (slashBasisPoints : ℕ) (beneficiary : Address)
  | withdraw (amount : ℕ)
  | deregister
  | seed (reputation : ℕ)

/-- What a slash takes. -/
def AgentProfile.slashed (p : AgentProfile) (slashBasisPoints : ℕ) : ℕ :=
  p.stakedAmount * slashBasisPoints / 10000

/-- One step in the life of the profile of `agent`, with the conditions under which it takes place. -/
inductive ProfileStep (agent : Address) : AgentProfile → ProfileOp → AgentProfile → Prop
  | register {p : AgentProfile} {agentId ucpEndpoint : String} {specializations : List String}
      {stakeAmount now : ℕ} (hnew : p.agentAddress = 0 ∨ p.status = .inactive)
      (hmin : COMMODITY_MIN_STAKE ≤ stakeAmount) :
      ProfileStep agent p (.register stakeAmount) {
        agentAddress := agent
        agentId := agentId
        ucpEndpoint := ucpEndpoint
        specializations := specializations
        tier := .commodity
        status := .active
        stakedAmount := stakeAmount
        reputationScore := NEW_AGENT_INITIAL_REPUTATION
        completedJobs := 0
        successfulFindings := 0
        falsePositives := 0
        falseNegatives := 0
        registeredAt := now
        lastActiveAt := now }
  | addStake {p : AgentProfile} {amount : ℕ} (now : ℕ) (hexists : p.agentAddress ≠ 0)
      (hstatus : p.status ≠ .inactive ∧ p.status ≠ .slashed) :
      ProfileStep agent p (.addStake amount) { p with
        stakedAmount := p.stakedAmount + amount
        lastActiveAt := now
        status := if p.status = .suspended ∧ COMMODITY_MIN_STAKE ≤ p.stakedAmount + amount then .active
          else p.status }
  | promote {p : AgentProfile} {tier : AgentTier} (hexists : p.agentAddress ≠ 0)
      (hactive : p.status = .active) (hmin : tierMinimumStake tier ≤ p.stakedAmount) :
      ProfileStep agent p .promote { p with tier := tier }
  | score {p : AgentProfile} {reputation : ℕ} (hexists : p.agentAddress ≠ 0) :
      ProfileStep agent p (.score reputation) { p with reputationScore := reputation }
  | record {p : AgentProfile} {validFindings falsePos falseNeg reputation : ℕ} (now : ℕ)
      (hexists : p.agentAddress ≠ 0) :
      ProfileStep agent p (.record validFindings falsePos falseNeg reputation) { p with
        completedJobs := p.completedJobs + 1
        successfulFindings := p.successfulFindings + validFindings
        falsePositives := p.falsePositives + falsePos
        falseNegatives := p.falseNegatives + falseNeg
        lastActiveAt := now
        reputationScore := reputation }
  | slash {p : AgentProfile} {slashBasisPoints : ℕ} {beneficiary : Address}
      (hexists : p.agentAddress ≠ 0) (hle : p.slashed slashBasisPoints ≤ p.stakedAmount) :
      ProfileStep agent p (.slash slashBasisPoints beneficiary) { p with
        stakedAmount := p.stakedAmount - p.slashed slashBasisPoints
        status := if slashBasisPoints = 10000 then .slashed
          else if p.stakedAmount - p.slashed slashBasisPoints < COMMODITY_MIN_STAKE then .suspended
          else p.status }
  | withdraw {p : AgentProfile} {amount : ℕ} (hexists : p.agentAddress ≠ 0)
      (hle : amount ≤ p.stakedAmount)
      (hkeeps : p.status = .active → tierMinimumStake p.tier ≤ p.stakedAmount - amount) :
      ProfileStep agent p (.withdraw amount) { p with stakedAmount := p.stakedAmount - amount }
  | deregister {p : AgentProfile} (hexists : p.agentAddress ≠ 0) (hstatus : p.status ≠ .inactive) :
      ProfileStep agent p .deregister { p with stakedAmount := 0, status := .inactive }
  | seed {p : AgentProfile} {reputation : ℕ} (hexists : p.agentAddress ≠ 0)
      (hfresh : p.completedJobs = 0) :
      ProfileStep agent p (.seed reputation) { p with reputationScore := reputation }

/-- The transfers of a step: sender, receiver, and amount. -/
def ProfileOp.transfers (this agent : Address) (p : AgentProfile) :
    ProfileOp → List (Address × Address × ℕ)
  | .register stakeAmount => [(agent, this, stakeAmount)]
  | .addStake amount => [(agent, this, amount)]
  | .slash slashBasisPoints beneficiary => [(this, beneficiary, p.slashed slashBasisPoints)]
  | .withdraw amount => [(this, agent, amount)]
  | .deregister => [(this, agent, p.stakedAmount)]
  | _ => []

/-- The step takes tokens from the agent. -/
def ProfileOp.Deposits : ProfileOp → Prop
  | .register _ => True
  | .addStake _ => True
  | _ => False

/-- The profiles of all agents, and the ledger of the GUARD token. -/
structure Books where
  token : TokenLedger
  profiles : Address → AgentProfile

/-- One step in the life of an agent's profile, in the books of the registry at `this`. -/
inductive BookStep (this : Address) : Books → Address → ProfileOp → Books → Prop
  | step {b : Books} {agent : Address} {op : ProfileOp} {p : AgentProfile} {token : TokenLedger}
      (hstep : ProfileStep agent (b.profiles agent) op p)
      (hpay : b.token.transferAll (op.transfers this agent (b.profiles agent)) = some token) :
      BookStep this b agent op ⟨token, Function.update b.profiles agent p⟩

/-! ## Stakes -/

/-- The stakes of all agents. -/
def Books.stakes (b : Books) : ℕ := ∑ a, (b.profiles a).stakedAmount

variable {this agent : Address} {p p' : AgentProfile} {op : ProfileOp} {b b' : Books}

theorem ProfileStep.stake_le (hne : op.Deposits → agent ≠ this) (h : ProfileStep agent p op p') :
    p'.stakedAmount + ((op.transfers this agent p).map fun t => if t.1 = this then t.2.2 else 0).sum ≤
      p.stakedAmount +
        ((op.transfers this agent p).map fun t => if t.2.1 = this then t.2.2 else 0).sum := by
  cases h with
  | register => simp [ProfileOp.transfers, hne trivial]
  | addStake => simp [ProfileOp.transfers, hne trivial]
  | slash hexists hle =>
    simp only [ProfileOp.transfers, List.map_singleton, List.sum_singleton, if_true]
    omega
  | withdraw hexists hle =>
    simp only [ProfileOp.transfers, List.map_singleton, List.sum_singleton, if_true]
    omega
  | deregister =>
    simp only [ProfileOp.transfers, List.map_singleton, List.sum_singleton, if_true]
    omega
  | promote | score | record | seed => rfl

theorem BookStep.covered (hne : op.Deposits → agent ≠ this) (hb : b.stakes ≤ b.token.balance this)
    (h : BookStep this b agent op b') : b'.stakes ≤ b'.token.balance this := by
  cases h with
  | @step p token hstep hpay =>
    have hmoved := Ledger.transferAll_balance hpay this
    have hstake := hstep.stake_le hne
    have htotal := Sums.sum_update b.profiles agent p AgentProfile.stakedAmount
    unfold Books.stakes at *
    dsimp only
    omega

end AuditGuard.AgentRegistry
