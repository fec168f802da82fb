import AuditGuard.DelegatedStaking.Accounting
import AuditGuard.Library.RewardIndex

/-!
# The pools as reward accumulators

An agent's pool with its delegations is a reward accumulator over the delegators: the stakes are the
active amounts, the index is `rewardPerTokStored`, and what was claimed is read off the log. Every
step of the books is a run of the accumulator (`BookStep.rewardSteps`), so that the accumulator's
solvency holds of every pool. The slack in the accumulator's steps is used: `_settlePending` credits
what `_computePending` returns, and a slash cuts the stake without settling it.
-/

namespace AuditGuard.DelegatedStaking

open Evm

variable {s s' : State}

/-- The reward account of a delegation. -/
def Delegation.rewardAccount (d : Delegation) : RewardAccount where
  stake := d.amount
  pending := d.pendingRewards
  paid := d.rewardPerTokenPaid

/-- The reward accumulator of an agent's pool. -/
def State.rewardIndex (s : State) (agent : Address) : RewardIndex Address where
  account delegator := (s.delegations (delegator, agent)).rewardAccount
  total := (s.agentPools agent).totalDelegated
  index := (s.agentPools agent).rewardPerTokStored
  accrued := (s.agentPools agent).totalRewardsAccrued
  claimed := claimedOf s.log agent

theorem RecordChange.rewardIndex {delegator agent : Address} {op : RecordOp}
    (h : RecordChange s s' delegator agent op) :
    s'.rewardIndex agent = (s.rewardIndex agent).setAccount delegator
      (s'.delegations (delegator, agent)).rewardAccount (s'.agentPools agent).totalDelegated
      (claimedOf s.log agent + op.claimed) := by
  obtain ⟨hstored, haccrued⟩ := h.step.accumulator
  refine (RewardIndex.mk.injEq ..).mpr ⟨?_, rfl, hstored, haccrued, by rw [h.claimed, if_pos rfl]⟩
  funext d
  rcases eq_or_ne d delegator with rfl | hd
  · rw [Function.update_self]
  · rw [Function.update_of_ne hd, h.delegations_of_ne (by simp [hd])]
    rfl

theorem RecordChange.rewardIndex_of_ne {delegator agent g : Address} {op : RecordOp}
    (h : RecordChange s s' delegator agent op) (hg : g ≠ agent) :
    s'.rewardIndex g = s.rewardIndex g := by
  simp only [State.rewardIndex, h.agentPools_of_ne hg, h.claimed, if_neg hg, Nat.add_zero,
    RewardIndex.mk.injEq, and_true]
  funext d
  rw [h.delegations_of_ne (by simp [hg])]

theorem RecordChange.rewardSteps {delegator agent : Address} {op : RecordOp}
    (h : RecordChange s s' delegator agent op)
    (htotal : (s.entry delegator agent).amount ≤ (s.entry delegator agent).total) :
    RewardIndex.Steps PRECISION (s.rewardIndex agent) (s'.rewardIndex agent) := by
  rw [h.rewardIndex]
  have hstep := h.step
  generalize he : s'.entry delegator agent = e' at hstep
  have haccount : (s'.delegations (delegator, agent)).rewardAccount = ⟨e'.amount, e'.pending, e'.paid⟩ := by
    rw [← he]
    rfl
  have ht : (s'.agentPools agent).totalDelegated = e'.total := by
    rw [← he]
    rfl
  rw [haccount, ht]
  have htotal' : ((s.rewardIndex agent).account delegator).stake ≤ (s.rewardIndex agent).total := htotal
  -- A step that changes the stake settles first, so that it is a step of the index with the old stake.
  cases hstep with
  | deposit x v _ hv _ _ =>
    refine .settle_restake (s.rewardIndex agent) delegator v _ _ hv ?_
    simp only [State.rewardIndex, Delegation.rewardAccount, State.entry, entryOf]
    omega
  | unbond x v _ _ _ hx hv =>
    refine .settle_restake (s.rewardIndex agent) delegator v _ _ hv ?_
    simp only [State.rewardIndex, Delegation.rewardAccount, State.entry, entryOf] at hx htotal' ⊢
    omega
  | complete _ _ =>
    have hself : RewardIndex.Steps PRECISION (s.rewardIndex agent)
        ((s.rewardIndex agent).setAccount delegator ((s.rewardIndex agent).account delegator)
          (s.rewardIndex agent).total (s.rewardIndex agent).claimed) := by
      rw [RewardIndex.setAccount_self]
    exact hself
  | claim v _ hv => exact .settle_claim (s.rewardIndex agent) delegator v hv
  | slash a u _ _ hax _ => exact .single (.slash (r := s.rewardIndex agent) delegator a hax)

theorem Distribution.rewardSteps {agent : Address} {share : ℕ} (h : Distribution s s' agent share)
    (g : Address) : RewardIndex.Steps PRECISION (s.rewardIndex g) (s'.rewardIndex g) := by
  rcases eq_or_ne g agent with rfl | hg
  · have hview : s'.rewardIndex g = { s.rewardIndex g with
        index := (s.rewardIndex g).index + share * PRECISION / (s.rewardIndex g).total
        accrued := (s.rewardIndex g).accrued + share } := by
      simp only [State.rewardIndex, h.delegations, h.agentPools, h.claimed, Function.update_self]
    rw [hview]
    exact .single (.distribute share h.total_pos)
  · have hview : s'.rewardIndex g = s.rewardIndex g := by
      simp only [State.rewardIndex, h.delegations, h.agentPools, h.claimed, Function.update_of_ne hg]
    rw [hview]

theorem SameBooks.rewardIndex (h : SameBooks s s') (g : Address) :
    s'.rewardIndex g = s.rewardIndex g := by
  have hentry := h.entry 0 g
  simp only [State.rewardIndex, h.delegations, h.claimed, RewardIndex.mk.injEq, true_and, and_true]
  exact ⟨congrArg Entry.total hentry, congrArg Entry.stored hentry, congrArg Entry.accrued hentry⟩

theorem BookStep.rewardSteps {op : BookOp} (h : BookStep s s' op) (hs : Accounting s) (g : Address) :
    RewardIndex.Steps PRECISION (s.rewardIndex g) (s'.rewardIndex g) := by
  cases h with
  | @record delegator agent _ h =>
    rcases eq_or_ne g agent with rfl | hg
    · exact h.rewardSteps (hs.amount_le_total delegator g)
    · rw [h.rewardIndex_of_ne hg]
  | distribute h => exact h.rewardSteps g
  | idle h _ => rw [h.rewardIndex]
  | admin h => rw [h.rewardIndex]

/-! ## Solvency of the accumulators -/

/-- Every pool is a sound accumulator whose accrued rewards fit `uint96`. -/
structure SoundPools (s : State) : Prop where
  accounting : Accounting s
  sound : ∀ agent, (s.rewardIndex agent).Sound PRECISION
  accrued_lt : ∀ agent, (s.agentPools agent).totalRewardsAccrued < 2^96

namespace SoundPools

theorem step {op : BookOp} (hs : SoundPools s) (h : BookStep s s' op) : SoundPools s' where
  accounting := hs.accounting.step h
  sound g := (hs.sound g).steps (h.rewardSteps hs.accounting g)
  accrued_lt g := by
    cases h with
    | @record delegator agent op h =>
      rcases eq_or_ne g agent with rfl | hg
      · rw [show (s'.agentPools g).totalRewardsAccrued = (s.agentPools g).totalRewardsAccrued from
          h.step.accumulator.2]
        exact hs.accrued_lt g
      · rw [h.agentPools_of_ne hg]
        exact hs.accrued_lt g
    | @distribute agent share h =>
      rw [h.agentPools, Function.update_apply]
      split_ifs with hg
      · exact h.accrued_lt
      · exact hs.accrued_lt g
    | idle h _ | admin h =>
      rw [show (s'.agentPools g).totalRewardsAccrued = (s.agentPools g).totalRewardsAccrued from
        congrArg Entry.accrued (h.entry 0 g)]
      exact hs.accrued_lt g

theorem fresh (deployer guardToken treasury : Address) :
    SoundPools (State.fresh deployer guardToken treasury) where
  accounting := .fresh deployer guardToken treasury
  sound _ := RewardIndex.sound_of_empty (fun _ => rfl) rfl rfl
  accrued_lt _ := by norm_num [State.fresh, AgentDelegationPool.zero]

theorem of_reachable {dep : Deployment} {w : World} (hw : (system dep).Reachable w) :
    SoundPools w.state :=
  reachable_books fresh (fun _ _ _ => step) hw

end SoundPools

/-! ## Claimable rewards -/

/-- What a delegation has earned since it settled. -/
def State.earned (s : State) (delegator agent : Address) : ℕ :=
  (s.delegations (delegator, agent)).amount * ((s.agentPools agent).rewardPerTokStored -
    (s.delegations (delegator, agent)).rewardPerTokenPaid) / PRECISION

/-- The reward that a delegation could claim. -/
def State.claimable (s : State) (delegator agent : Address) : ℕ :=
  (s.delegations (delegator, agent)).pendingRewards + s.earned delegator agent

theorem computePending_of_lt {d : Delegation} {pool : AgentDelegationPool}
    (hpaid : d.rewardPerTokenPaid ≤ pool.rewardPerTokStored)
    (hproduct : d.amount * (pool.rewardPerTokStored - d.rewardPerTokenPaid) < 2^256)
    (hcap : d.amount * (pool.rewardPerTokStored - d.rewardPerTokenPaid) / PRECISION < 2^96) :
    computePending d pool =
      .ok (d.amount * (pool.rewardPerTokStored - d.rewardPerTokenPaid) / PRECISION) := by
  unfold computePending
  split_ifs with h0
  · rw [h0, Nat.zero_mul, Nat.zero_div]
    rfl
  · rw [checkedSub_of_le hpaid, ok_bind]
    split_ifs with hdelta
    · rw [hdelta, Nat.mul_zero, Nat.zero_div]
      rfl
    · rw [checkedMul_of_lt hproduct, ok_bind]
      dsimp only
      rw [if_neg (by omega)]
      rfl

namespace SoundPools

theorem claimable_le (hs : SoundPools s) (agent : Address) :
    claimedOf s.log agent + ∑ delegator, s.claimable delegator agent ≤
      (s.agentPools agent).totalRewardsAccrued :=
  (hs.sound agent).claimable_le (by norm_num [PRECISION])

theorem claimable_lt (hs : SoundPools s) (delegator agent : Address) :
    s.claimable delegator agent < 2^96 := by
  have hle := hs.claimable_le agent
  have hlt := hs.accrued_lt agent
  have hsum := Finset.single_le_sum_of_canonicallyOrdered
    (f := fun delegator => s.claimable delegator agent) (Finset.mem_univ delegator)
  omega

theorem growth_le (hs : SoundPools s) (delegator agent : Address) :
    (s.delegations (delegator, agent)).amount * ((s.agentPools agent).rewardPerTokStored -
      (s.delegations (delegator, agent)).rewardPerTokenPaid) ≤
      (s.agentPools agent).totalRewardsAccrued * PRECISION :=
  ((Nat.le_add_left _ _).trans (Nat.le_add_right _ _)).trans
    ((hs.sound agent).liability_le delegator)

theorem computePending_eq (hs : SoundPools s) (delegator agent : Address) :
    computePending (s.delegations (delegationKey delegator agent)) (s.agentPools agent) =
      .ok (s.earned delegator agent) := by
  refine computePending_of_lt (hs.accounting.entry_ok delegator agent).paid_le ?_ ?_
  · -- The product is far below `2^256`.
    calc _ ≤ (s.agentPools agent).totalRewardsAccrued * PRECISION := hs.growth_le delegator agent
      _ < 2^96 * PRECISION :=
        Nat.mul_lt_mul_of_pos_right (hs.accrued_lt agent) (by norm_num [PRECISION])
      _ < 2^256 := by norm_num [PRECISION]
  · exact lt_of_le_of_lt (Nat.le_add_left _ _) (hs.claimable_lt delegator agent)

theorem claimableReward_eq (hs : SoundPools s) (delegator agent : Address) :
    claimableReward delegator agent s = .ok (s.claimable delegator agent) := by
  rw [claimableReward, hs.computePending_eq, ok_bind]
  rfl

theorem settlePending_eq (hs : SoundPools s) (delegator agent : Address) :
    settlePending (s.delegations (delegationKey delegator agent)) (s.agentPools agent) =
      .ok { s.delegations (delegationKey delegator agent) with
        pendingRewards := s.claimable delegator agent
        rewardPerTokenPaid := (s.agentPools agent).rewardPerTokStored } := by
  have hlt := hs.claimable_lt delegator agent
  unfold State.claimable at hlt ⊢
  rw [settlePending, hs.computePending_eq, ok_bind]
  by_cases hpos : 0 < s.earned delegator agent
  · rw [if_pos hpos, checkedAdd_of_lt hlt]
    rfl
  · rw [if_neg hpos, Nat.eq_zero_of_not_pos hpos]
    rfl

end SoundPools

end AuditGuard.DelegatedStaking
