import AuditGuard.DelegatedStaking.Rewards

/-!
# Solvency

The contract holds the principal of every delegation and all rewards that were distributed and not
claimed. A step of the books moves these by exactly its flows (`BookStep.balance`), and a call moves
GUARD with its steps, so the contract stays solvent under every interleaving of calls. With the
solvency of the accumulators, what it holds covers every record's principal and reward.

The runs are those whose calls keep to one GUARD token: the token is not set anew, and the `HbarPool`
in use deals in it.
-/

namespace AuditGuard.DelegatedStaking

open Evm

variable {s s' : State}

/-- GUARD that a record holds, apart from rewards. -/
def Delegation.principal (d : Delegation) : ℕ := d.amount + d.unbondingAmount

/-- The principal of all records. -/
def State.principal (s : State) : ℕ := ∑ key, (s.delegations key).principal

/-- The rewards ever distributed, over all pools. -/
def State.accrued (s : State) : ℕ := ∑ agent, (s.agentPools agent).totalRewardsAccrued

/-- The rewards ever claimed, over all pools. -/
def State.claimed (s : State) : ℕ := ∑ agent, claimedOf s.log agent

theorem RecordStep.principal {e e' : Entry} {op : RecordOp} (h : RecordStep e op e') :
    e'.amount + e'.unbonding + op.outflow = e.amount + e.unbonding + op.claimed + op.inflow := by
  cases h <;> simp only [RecordOp.inflow, RecordOp.outflow, RecordOp.claimed] <;> omega

/-- A step of the books moves the principal and the rewards by its flows. -/
theorem BookStep.balance {op : BookOp} (h : BookStep s s' op) :
    s'.principal + s'.accrued + s.claimed + op.outflow =
      s.principal + s.accrued + s'.claimed + op.inflow := by
  cases h with
  | @record delegator agent op h =>
    have hprincipal := Sums.sum_update s.delegations (delegator, agent)
      (s'.delegations (delegator, agent)) Delegation.principal
    rw [← h.delegations] at hprincipal
    -- A step of a record accrues nothing to any pool.
    have haccrued : s'.accrued = s.accrued := by
      refine Finset.sum_congr rfl fun g _ => ?_
      rcases eq_or_ne g agent with rfl | hg
      · exact h.step.accumulator.2
      · rw [h.agentPools_of_ne hg]
    have hclaimed : s'.claimed = s.claimed + op.claimed := by
      simp only [State.claimed, h.claimed, Finset.sum_add_distrib, Finset.sum_ite_eq',
        Finset.mem_univ, if_true]
    have hstep := h.step.principal
    simp only [State.entry, entryOf] at hstep
    simp only [Delegation.principal] at hprincipal
    simp only [State.principal, Delegation.principal, BookOp.inflow, BookOp.outflow]
    omega
  | @distribute agent share h =>
    have haccrued := Sums.sum_update s.agentPools agent (s'.agentPools agent)
      AgentDelegationPool.totalRewardsAccrued
    have hpools : Function.update s.agentPools agent (s'.agentPools agent) = s'.agentPools := by
      rw [h.agentPools, Function.update_self]
    have hagent : (s'.agentPools agent).totalRewardsAccrued =
        (s.agentPools agent).totalRewardsAccrued + share := by
      rw [h.agentPools, Function.update_self]
    rw [hpools] at haccrued
    simp only [State.principal, State.accrued, State.claimed, h.delegations, h.claimed,
      BookOp.inflow, BookOp.outflow]
    omega
  | idle h _ | admin h =>
    have haccrued : s'.accrued = s.accrued :=
      Finset.sum_congr rfl fun g _ => congrArg Entry.accrued (h.entry 0 g)
    simp only [State.principal, haccrued, State.claimed, h.delegations, h.claimed, BookOp.inflow,
      BookOp.outflow]

theorem BookSteps.balance {ops : List BookOp} (h : BookSteps s ops s') :
    s'.principal + s'.accrued + s.claimed + outflow ops =
      s.principal + s.accrued + s'.claimed + inflow ops := by
  induction h with
  | nil => rfl
  | @snoc t u ops op _ hstep ih =>
    have h := hstep.balance
    have hin : inflow [op] = op.inflow := by simp [inflow]
    have hout : outflow [op] = op.outflow := by simp [outflow]
    rw [inflow_append, outflow_append, hin, hout]
    omega

/-! ## Runs -/

/-- The steps of runs that keep to one GUARD token. -/
def Label.Backed (dep : Deployment) (w : World) : Label → Prop
  | .call _ c => c.Backed dep w
  | .elsewhere => True

variable {dep : Deployment} {w : World}

/-- The contract holds all principal and all rewards that were not claimed. -/
def World.Covered (dep : Deployment) (w : World) : Prop :=
  w.state.principal + w.state.accrued ≤ w.held dep + w.state.claimed

theorem covered_of_deployed (h : Deployed w) : w.Covered dep := by
  obtain ⟨deployer, guardToken, treasury, hstate⟩ := h.state_eq
  have hprincipal : w.state.principal = 0 := by
    rw [hstate]
    exact Finset.sum_eq_zero fun _ _ => rfl
  have haccrued : w.state.accrued = 0 := by
    rw [hstate]
    exact Finset.sum_eq_zero fun _ _ => rfl
  rw [World.Covered, hprincipal, haccrued]
  exact Nat.zero_le _

theorem covered_of_reachable (hw : ((system dep).restrict (Label.Backed dep)).Reachable w) :
    w.Covered dep := by
  refine hw.induct (I := World.Covered dep) (fun _ => covered_of_deployed) ?_
  rintro w l w' hr hcovered ⟨hbacked, ⟨hs, h⟩ | h⟩
  · obtain ⟨ops, -, hbooks, hheld⟩ := exec_ok (reachable_minDelegation hr.of_restrict) hs h
    have hbalance := hbooks.balance
    have hheld := hheld hbacked
    unfold World.Covered at hcovered ⊢
    omega
  · exact hcovered.trans (Nat.add_le_add_right (h w.state.guardToken) _)

theorem SoundPools.total_claimable_le (hs : SoundPools s) :
    s.claimed + ∑ agent, ∑ delegator, s.claimable delegator agent ≤ s.accrued := by
  rw [State.claimed, ← Finset.sum_add_distrib]
  exact Finset.sum_le_sum fun agent _ => hs.claimable_le agent

theorem owed_le_held (hw : ((system dep).restrict (Label.Backed dep)).Reachable w) :
    w.state.principal + ∑ agent, ∑ delegator, w.state.claimable delegator agent ≤ w.held dep := by
  have hcovered := covered_of_reachable hw
  have hclaimable := (SoundPools.of_reachable hw.of_restrict).total_claimable_le
  rw [World.Covered] at hcovered
  omega

/-- In every state that the contract reaches while it keeps to one GUARD token, its balance covers the
principal and the reward of every record, open or closed, and for every agent the rewards claimed and
those that can still be claimed are within what was accrued, so that `_computePending` returns the
plain quotient, below its cap. -/
theorem solvency (hw : ((system dep).restrict (Label.Backed dep)).Reachable w) :
    ∑ key : Address × Address, ((w.state.delegations key).amount +
        (w.state.delegations key).unbondingAmount + (w.state.delegations key).pendingRewards +
        w.state.earned key.1 key.2) ≤ w.guard.balance dep.this ∧
      (∀ agent, claimedOf w.state.log agent + ∑ delegator,
          ((w.state.delegations (delegationKey delegator agent)).pendingRewards +
            w.state.earned delegator agent) ≤ (w.state.agentPools agent).totalRewardsAccrued) ∧
      (∀ delegator agent, w.state.earned delegator agent < 2^96 ∧
        computePending (w.state.delegations (delegationKey delegator agent))
          (w.state.agentPools agent) = .ok (w.state.earned delegator agent)) := by
  have hs := SoundPools.of_reachable hw.of_restrict
  refine ⟨?_, hs.claimable_le, fun d g => ⟨?_, hs.computePending_eq d g⟩⟩
  · have hsum : ∑ key : Address × Address, ((w.state.delegations key).amount +
        (w.state.delegations key).unbondingAmount + (w.state.delegations key).pendingRewards +
        w.state.earned key.1 key.2) =
        w.state.principal + ∑ agent, ∑ delegator, w.state.claimable delegator agent := by
      rw [← Fintype.sum_prod_type_right fun key => w.state.claimable key.1 key.2, State.principal,
        ← Finset.sum_add_distrib]
      exact Finset.sum_congr rfl fun key _ => Nat.add_assoc _ _ _
    rw [hsum]
    exact owed_le_held hw
  · exact lt_of_le_of_lt (Nat.le_add_left _ _) (hs.claimable_lt d g)

/-- A delegation of 10 GUARD, by the agent itself, and a distribution of 1 GUARD over it. -/
def rewardedCalls : List (Env × Call) :=
  [(sampleEnv 2 0, .delegate 2 (10 * 10^8)), (sampleEnv 2 1, .distributeRewards 2 (10 * 10^8))]

/-- After these calls a reward of 1 GUARD is claimable, and the contract covers all records. -/
theorem solvency_rewarded : ∃ w,
    ((system sampleDeployment).restrict (Label.Backed sampleDeployment)).Reachable w ∧
      w.state.earned 2 2 = 10^8 ∧
      ∑ key : Address × Address, ((w.state.delegations key).amount +
        (w.state.delegations key).unbondingAmount + (w.state.delegations key).pendingRewards +
        w.state.earned key.1 key.2) ≤ w.guard.balance 1 := by
  obtain ⟨w, hcalls⟩ := exists_eq_ok
    (show (execAll sampleDeployment rewardedCalls sampleWorld).isOk = true from rfl)
  have h0 : ((system sampleDeployment).restrict (Label.Backed sampleDeployment)).Reachable
      sampleWorld := .init sampleWorld_deployed
  have hw := reachable_execAll h0 (by decide) (by simp [rewardedCalls, Label.Backed, Call.Backed])
    hcalls
  exact ⟨w, hw, sample_read (fun w => w.state.earned 2 2) hcalls rfl, (solvency hw).1⟩

end AuditGuard.DelegatedStaking
