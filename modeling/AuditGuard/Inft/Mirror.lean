import AuditGuard.Inft.Effects
import AuditGuard.StakingManager.Emissions

/-!
# The mirror of the stakes

The staking details of a profile mirror the agent's stake on chain: a handler computes them from the event and from
what it finds in the profile. Most events say enough for that. Not so the events of a stake, of a completed unstaking,
of a slash and of an approved appeal, whose handlers guess the pools or the status: the mirror shows the stake exactly
as long as every guess is right (`mirrors_iff`).
-/

namespace AuditGuard.Inft

open Evm StakingManager TransitionSystem

/-! ## Amounts -/

section Amounts

variable (a b : ℕ)

theorem toGuard_add : toGuard (a + b) = toGuard a + toGuard b := by
  simp only [toGuard, Nat.cast_add, add_div]

/-- A smaller amount. -/
@[simp]
theorem toGuard_le : toGuard a ≤ toGuard b ↔ a ≤ b := by
  unfold toGuard
  rw [div_le_div_iff_of_pos_right (by norm_num), Nat.cast_le]

/-- Different amounts stay different. -/
@[simp]
theorem toGuard_inj : toGuard a = toGuard b ↔ a = b := by
  rw [le_antisymm_iff, le_antisymm_iff, toGuard_le, toGuard_le]

/-- No amount. -/
@[simp]
theorem toGuard_zero : toGuard 0 = 0 := by simp [toGuard]

theorem max_toGuard_sub : max 0 (toGuard a - toGuard b) = toGuard (a - b) := by
  rcases Nat.le_total b a with h | h
  · obtain ⟨c, rfl⟩ := Nat.exists_eq_add_of_le h
    rw [toGuard_add, add_sub_cancel_left, Nat.add_sub_cancel_left]
    exact max_eq_right (by rw [← toGuard_zero, toGuard_le]; exact Nat.zero_le c)
  · rw [Nat.sub_eq_zero_of_le h, toGuard_zero]
    exact max_eq_left (sub_nonpos.mpr ((toGuard_le a b).mpr h))

theorem toGuard_minStake : toGuard initialMinStake = 100 := by
  unfold toGuard initialMinStake
  norm_num

theorem toGuard_lt_hundred : toGuard a < 100 ↔ a < initialMinStake := by
  rw [← toGuard_minStake, ← not_le, toGuard_le, not_le]

theorem hundred_le_toGuard : 100 ≤ toGuard a ↔ initialMinStake ≤ a := by
  rw [← toGuard_minStake, toGuard_le]

end Amounts

/-! ## One event -/

/-- The staking details after an event of the agent. -/
def mirror (e : StakingManager.Event) (staking : Staking) : Staking :=
  match stakingUpdate staking e with
  | none => staking
  | some u => staking.update u

theorem profileEffect_staking (e : StakingManager.Event) {p : AgentProfile} {staking : Staking}
    (h : p.staking = some staking) : (profileEffect e p).staking = some (mirror e staking) := by
  have hkeep : (slashEffect e p).staking = some staking := (slashEffect_staking e p).trans h
  unfold profileEffect
  dsimp only
  rw [if_neg (by rw [hkeep]; simp), updateStaking, hkeep, mirror, Option.getD_some]
  cases stakingUpdate staking e with
  | none => exact hkeep
  | some u =>
    simp only [AgentProfile.updateAgentStakingDetails]
    rw [hkeep]
    rfl

/-- The staking details show a position. -/
structure Staking.Shows (staking : Staking) (p : Position) : Prop where
  total : staking.totalStaked = toGuard p.total
  available : staking.availableStake = toGuard p.available
  locked : staking.lockedStake = toGuard p.locked
  unbonding : staking.unbondingAmount = toGuard p.unbonding
  status : staking.status = p.status

section Operations

variable {staking : Staking} {p : Position} {x bps : ℕ} (agent : Address)

theorem shows_deposit_iff (h : staking.Shows p) :
    (mirror (.staked agent x (p.total + x)) staking).Shows (p.deposit initialMinStake x) ↔
      p.locked = 0 ∧ p.unbonding = 0 ∧
        (p.status = .active ∨ p.status = .withdrawn ∧ initialMinStake ≤ p.total + x) := by
  have hstatus : .active = (p.deposit initialMinStake x).status ↔
      p.status = .active ∨ p.status = .withdrawn ∧ initialMinStake ≤ p.total + x := by
    simp only [Position.deposit]
    split_ifs with hback
    · exact iff_of_true rfl (.inr hback)
    · exact ⟨fun hactive => .inl hactive.symm, fun hor => (hor.resolve_right hback).symm⟩
  constructor
  · intro hshows
    have havailable := (toGuard_inj _ _).mp hshows.available
    simp only [Position.total, Position.deposit] at havailable
    exact ⟨by omega, by omega, hstatus.mp hshows.status⟩
  · rintro ⟨hlocked, hunbonding, hactive⟩
    constructor
    · refine (toGuard_inj _ _).mpr ?_
      simp only [Position.total, Position.deposit]
      omega
    · refine (toGuard_inj _ _).mpr ?_
      simp only [Position.total, Position.deposit]
      omega
    · exact h.locked
    · exact h.unbonding
    · exact hstatus.mpr hactive

theorem shows_request (h : staking.Shows p) (hle : x ≤ p.available) (hnone : p.unbonding = 0) (completesAt : ℕ) :
    (mirror (.unstakeRequested agent x completesAt) staking).Shows (p.request x) where
  total := by
    have htotal : (p.request x).total = p.total := by
      simp only [Position.total, Position.request]
      omega
    rw [htotal]
    exact h.total
  available := by
    change max 0 (staking.availableStake - toGuard x) = _
    rw [h.available, max_toGuard_sub]
    rfl
  locked := h.locked
  unbonding := rfl
  status := h.status

theorem shows_complete_iff (h : staking.Shows p) :
    (mirror (.unstakeCompleted agent p.unbonding) staking).Shows (p.complete initialMinStake) ↔
      p.effective = 0 ∨ p.status = .active ∨ p.status = .unbonding ∧ initialMinStake ≤ p.effective := by
  have htotal : max 0 (staking.totalStaked - toGuard p.unbonding) = toGuard p.effective := by
    rw [h.total, max_toGuard_sub]
    simp only [Position.total, Position.effective, Nat.add_sub_cancel]
  have hstatus : (if toGuard p.effective = 0 then .withdrawn else .active) = (p.complete initialMinStake).status ↔
      p.effective = 0 ∨ p.status = .active ∨ p.status = .unbonding ∧ initialMinStake ≤ p.effective := by
    have hzero : toGuard p.effective = 0 ↔ p.effective = 0 := by rw [← toGuard_zero, toGuard_inj]
    rw [if_congr hzero rfl rfl]
    simp only [Position.complete]
    split_ifs with hzero hback
    · exact iff_of_true rfl (.inl hzero)
    · exact iff_of_true rfl (.inr (.inr hback))
    · rw [eq_comm]
      exact ⟨fun hactive => .inr (.inl hactive), fun hor => (hor.resolve_left hzero).resolve_right hback⟩
  have hmirror : (mirror (.unstakeCompleted agent p.unbonding) staking).status =
      if toGuard p.effective = 0 then .withdrawn else .active := by
    rw [← htotal]
    rfl
  rw [← hstatus, ← hmirror]
  refine ⟨Staking.Shows.status, fun hshows => ?_⟩
  exact {
    total := htotal
    available := h.available
    locked := h.locked
    unbonding := toGuard_zero.symm
    status := hshows }

theorem shows_deactivate (h : staking.Shows p) (hnone : p.unbonding = 0) (completesAt : ℕ) :
    (mirror (.unstakeRequested agent p.available completesAt) (mirror (.agentDeactivating agent) staking)).Shows
      p.deactivate where
  total := by
    have htotal : p.deactivate.total = p.total := by
      simp only [Position.total, Position.deactivate]
      omega
    rw [htotal]
    exact h.total
  available := by
    change max 0 (staking.availableStake - toGuard p.available) = _
    rw [h.available, max_toGuard_sub, Nat.sub_self]
    rfl
  locked := h.locked
  unbonding := rfl
  status := rfl

theorem shows_lock (h : staking.Shows p) (hle : x ≤ p.available) (jobId : ℕ) :
    (mirror (.stakeLocked agent x jobId) staking).Shows (p.lock x) where
  total := by
    have htotal : (p.lock x).total = p.total := by
      simp only [Position.total, Position.lock]
      omega
    rw [htotal]
    exact h.total
  available := by
    change max 0 (staking.availableStake - toGuard x) = _
    rw [h.available, max_toGuard_sub]
    rfl
  locked := by
    change staking.lockedStake + toGuard x = _
    rw [h.locked, ← toGuard_add]
    rfl
  unbonding := h.unbonding
  status := h.status

theorem shows_unlock (h : staking.Shows p) (hle : x ≤ p.locked) (jobId : ℕ) :
    (mirror (.stakeUnlocked agent x jobId) staking).Shows (p.unlock x) where
  total := by
    have htotal : (p.unlock x).total = p.total := by
      simp only [Position.total, Position.unlock]
      omega
    rw [htotal]
    exact h.total
  available := by
    change staking.availableStake + toGuard x = _
    rw [h.available, ← toGuard_add]
    rfl
  locked := by
    change max 0 (staking.lockedStake - toGuard x) = _
    rw [h.locked, max_toGuard_sub]
    rfl
  unbonding := h.unbonding
  status := h.status

theorem shows_slash_iff (h : staking.Shows p) (hbps : bps ≤ 10000) (slashId : ℕ) (reason : SlashReason)
    (evidenceHash : UInt 256) (jobId : ℕ) :
    (mirror (.slashInitiated slashId agent reason (p.slashAmount bps) bps evidenceHash jobId) staking).Shows
      (p.slash initialMinStake bps) ↔ p.slashAmount bps = 0 := by
  have htotal : (p.slash initialMinStake bps).total + p.slashAmount bps = p.total := Position.total_slash hbps
  constructor
  · intro hshows
    have havailable : toGuard p.available = toGuard (p.slash initialMinStake bps).available :=
      h.available.symm.trans hshows.available
    have hlocked : toGuard p.locked = toGuard (p.slash initialMinStake bps).locked :=
      h.locked.symm.trans hshows.locked
    have hunbonding : toGuard p.unbonding = toGuard (p.slash initialMinStake bps).unbonding :=
      h.unbonding.symm.trans hshows.unbonding
    rw [toGuard_inj] at havailable hlocked hunbonding
    simp only [Position.total, ← havailable, ← hlocked, ← hunbonding] at htotal
    omega
  · intro hzero
    have hnew : max 0 (staking.totalStaked - toGuard (p.slashAmount bps)) = toGuard p.total := by
      rw [h.total, max_toGuard_sub, hzero, Nat.sub_zero]
    constructor
    · rw [hzero, Nat.add_zero] at htotal
      rw [htotal]
      exact hnew
    · simp only [Position.slash, Position.charge, hzero, Nat.sub_zero]
      exact h.available
    · simp only [Position.slash, Position.charge, hzero, Nat.zero_sub, Nat.sub_zero]
      exact h.locked
    · simp only [Position.slash, Position.charge, hzero, Nat.zero_sub, Nat.sub_zero]
      exact h.unbonding
    · change (if bps = 10000 ∨ max 0 (staking.totalStaked - toGuard (p.slashAmount bps)) < 100 then .frozen
        else staking.status) = _
      rw [hnew, h.status]
      simp only [Position.slash, hzero, Nat.sub_zero, toGuard_lt_hundred, or_comm]

theorem shows_restore_iff (h : staking.Shows p) (slashId : ℕ) :
    (mirror (.appealApproved slashId agent x) staking).Shows (p.restore initialMinStake x) ↔
      (p.status = .unbonding ∨ p.status = .withdrawn → p.total + x < initialMinStake) := by
  have hnew : staking.totalStaked + toGuard x = toGuard (p.total + x) := by rw [h.total, toGuard_add]
  have hmirror : (mirror (.appealApproved slashId agent x) staking).status =
      if initialMinStake ≤ p.total + x then .active else p.status := by
    change (if 100 ≤ staking.totalStaked + toGuard x then .active else staking.status) = _
    rw [hnew, h.status]
    exact if_congr (hundred_le_toGuard _) rfl rfl
  have hstatus : (mirror (.appealApproved slashId agent x) staking).status = (p.restore initialMinStake x).status ↔
      (p.status = .unbonding ∨ p.status = .withdrawn → p.total + x < initialMinStake) := by
    rw [hmirror]
    simp only [Position.restore]
    by_cases hmin : initialMinStake ≤ p.total + x
    · rw [if_pos hmin]
      have hnot : ¬ p.total + x < initialMinStake := Nat.not_lt.mpr hmin
      cases p.status <;> simp [hmin, hnot]
    · have hlt : p.total + x < initialMinStake := Nat.not_le.mp hmin
      simp [hmin, hlt]
  rw [← hstatus]
  refine ⟨Staking.Shows.status, fun hshows => ?_⟩
  exact {
    total := by
      have htotal : (p.restore initialMinStake x).total = p.total + x := by
        simp only [Position.total, Position.restore]
        omega
      rw [htotal]
      exact hnew
    available := by
      change staking.availableStake + toGuard x = _
      rw [h.available, ← toGuard_add]
      rfl
    locked := h.locked
    unbonding := h.unbonding
    status := hshows }

end Operations

end AuditGuard.Inft
