import AuditGuard.AgentRegistry.Effects

/-!
# AgentRegistry: do active agents hold their tier's stake?

`registerAgent`, `requestPromotion` and `withdrawStake` see to it that an active agent holds the minimum
stake of its tier. `slashAgent` and `addStake` compare with the minimum of the lowest tier, whatever the
agent's tier is. Active agents hold their tier's stake throughout a run exactly when no slash and no top-up
of the run falls between the two.
-/

namespace AuditGuard.AgentRegistry

open Evm TransitionSystem

/-- The agent holds the minimum stake of its tier, if it is active. -/
def AgentProfile.HoldsMinimum (p : AgentProfile) : Prop :=
  p.status = .active → tierMinimumStake p.tier ≤ p.stakedAmount

/-- Every active agent holds the minimum stake of its tier, and the registry holds all stakes. -/
def TiersHeld (this : Address) (w : World State) : Prop :=
  (∀ a, (w.state.agents a).HoldsMinimum) ∧
    ∑ a, (w.state.agents a).stakedAmount ≤ w.token.balance this

/-- A slash of an active agent takes its whole stake, or leaves too little for any tier, or leaves the
minimum of its tier. A top-up of a suspended agent that reaches the minimum of the lowest tier reaches the
minimum of its own tier. -/
def KeepsTier (w : World State) : Label Env Call → Prop
  | .call _ (.slashAgent agent slashBasisPoints) =>
    let p := w.state.agents agent
    let rest := p.stakedAmount - p.stakedAmount * slashBasisPoints / 10000
    p.status = .active → slashBasisPoints.val = 10000 ∨ rest < COMMODITY_MIN_STAKE ∨
      tierMinimumStake p.tier ≤ rest
  | .call env (.addStake amount) =>
    let p := w.state.agents env.sender
    p.status = .suspended → COMMODITY_MIN_STAKE ≤ p.stakedAmount + amount →
      tierMinimumStake p.tier ≤ p.stakedAmount + amount
  | _ => True

theorem stakes_books (w : World State) :
    (books w).stakes = ∑ a, (w.state.agents a).stakedAmount := rfl

/-- The same condition for a step in the life of a profile. -/
def ProfileOp.KeepsTier (p : AgentProfile) : ProfileOp → Prop
  | .slash slashBasisPoints _ => p.status = .active → slashBasisPoints = 10000 ∨
      p.stakedAmount - p.slashed slashBasisPoints < COMMODITY_MIN_STAKE ∨
        tierMinimumStake p.tier ≤ p.stakedAmount - p.slashed slashBasisPoints
  | .addStake amount => p.status = .suspended → COMMODITY_MIN_STAKE ≤ p.stakedAmount + amount →
      tierMinimumStake p.tier ≤ p.stakedAmount + amount
  | _ => True

variable {this agent : Address} {p p' : AgentProfile} {op : ProfileOp} {w w' : World State}
  {l : Label Env Call}

theorem ProfileStep.holdsMinimum_iff (hp : p.HoldsMinimum) (h : ProfileStep agent p op p') :
    p'.HoldsMinimum ↔ op.KeepsTier p := by
  unfold AgentProfile.HoldsMinimum at *
  cases h with
  | register hnew hmin => exact iff_of_true (fun _ => hmin) trivial
  | @addStake amount now hexists hstatus =>
    unfold ProfileOp.KeepsTier
    dsimp only
    -- Only the reactivation of a suspended agent compares with the wrong minimum.
    by_cases hsuspended : p.status = .suspended
    · rw [hsuspended]
      by_cases hreached : COMMODITY_MIN_STAKE ≤ p.stakedAmount + amount
      · simp [hreached]
      · simp [hreached]
    · rw [if_neg fun h => hsuspended h.1]
      refine iff_of_true (fun hactive => ?_) fun h => absurd h hsuspended
      have hheld := hp hactive
      omega
  | promote hexists hactive hmin => exact iff_of_true (fun _ => hmin) trivial
  | score | record | seed => exact iff_of_true hp trivial
  | @slash slashBasisPoints beneficiary hexists hle =>
    unfold ProfileOp.KeepsTier
    dsimp only
    -- A slash of everything and a slash below the commodity minimum end the activity.
    by_cases hfull : slashBasisPoints = 10000
    · simp [hfull]
    · by_cases hlow : p.stakedAmount - p.slashed slashBasisPoints < COMMODITY_MIN_STAKE
      · simp [hfull, hlow]
      · simp [hfull, hlow]
  | withdraw hexists hle hkeeps => exact iff_of_true hkeeps trivial
  | deregister => exact iff_of_true (fun h => nomatch h) trivial

theorem BookStep.holdsMinimum_iff {b b' : Books} (hb : ∀ a, (b.profiles a).HoldsMinimum)
    (h : BookStep this b agent op b') :
    (∀ a, (b'.profiles a).HoldsMinimum) ↔ op.KeepsTier (b.profiles agent) := by
  cases h with
  | step hstep hpay =>
    rw [← hstep.holdsMinimum_iff (hb agent)]
    dsimp only
    constructor
    · intro hall
      have hagent := hall agent
      rwa [Function.update_self] at hagent
    · intro hagent a
      rcases eq_or_ne a agent with rfl | hne
      · rwa [Function.update_self]
      · rw [Function.update_of_ne hne]
        exact hb a

theorem Call.Does.keepsTier_iff {env : Env} {c : Call} (h : c.Does env w.state agent op) :
    op.KeepsTier (w.state.agents agent) ↔ KeepsTier w (.call env c) := by
  cases c with
  | slashAgent a slashBasisPoints =>
    obtain ⟨rfl, rfl⟩ := h
    exact Iff.rfl
  | addStake amount =>
    obtain ⟨rfl, rfl⟩ := h
    exact Iff.rfl
  | updateReputation a delta =>
    obtain ⟨-, reputation, rfl⟩ := h
    exact Iff.rfl
  | recordJobCompletion a validFindings falsePos falseNeg =>
    obtain ⟨-, reputation, rfl⟩ := h
    exact Iff.rfl
  | setOrchestratorAndAuction orchestrator auction => exact absurd h id
  | admin c => exact absurd h id
  | _ =>
    obtain ⟨-, rfl⟩ := h
    exact Iff.rfl

theorem keepsTier_of_idle {env : Env} {c : Call} (h : ∀ agent op, ¬ c.Does env w.state agent op) :
    KeepsTier w (.call env c) := by
  unfold KeepsTier
  split
  · rename_i heq
    obtain ⟨rfl, rfl⟩ := heq
    exact absurd ⟨rfl, rfl⟩ (h _ _)
  · rename_i heq
    obtain ⟨rfl, rfl⟩ := heq
    exact absurd ⟨rfl, rfl⟩ (h _ _)
  · trivial

/-- Throughout a run, every active agent holds the minimum stake of its tier and the registry holds all
stakes, exactly when every slash and every top-up of the run meets the condition. -/
theorem tiers_held_iff {ts : List (Transition (World State) (Label Env Call))}
    (hr : (contract this).system.Run ts w) :
    Throughout (TiersHeld this) ts w ↔ ∀ tr ∈ ts, KeepsTier tr.src tr.label := by
  refine hr.forall_iff ?_ ?_
  · intro w hfresh
    obtain ⟨deployer, guardToken, hstate⟩ :=
      fresh_state_eq (show (contract this).fresh w.state from hfresh)
    -- Nobody is active in a fresh registry.
    have hzero : ∀ a, w.state.agents a = AgentProfile.zero := by
      intro a
      rw [hstate]
      rfl
    refine ⟨fun a => ?_, ?_⟩
    · rw [hzero a]
      exact fun h => nomatch h
    · simp only [hzero, AgentProfile.zero, Finset.sum_const_zero, Nat.zero_le]
  · rintro w l w' - ⟨hheld, hcovered⟩ hstep
    cases hstep with
    | elsewhere hle _ => exact iff_of_true ⟨hheld, hcovered.trans hle⟩ trivial
    | @call env c w w' hs h0 ht hexec =>
      have hcall : exec this env c w = .ok w' := hexec
      -- The balance is covered by every step; the tiers are held by those that meet the condition.
      rcases exec_ok hcall with ⟨agent, op, hdoes, hbook⟩ | ⟨hidle, hsame⟩
      · have hsender : op.Deposits → agent ≠ this := fun hdeposits =>
          (hdoes.deposits hdeposits).trans_ne hs
        rw [← stakes_books] at hcovered
        have hcovered' := hbook.covered hsender hcovered
        rw [stakes_books] at hcovered'
        have hiff := hbook.holdsMinimum_iff hheld
        exact (and_iff_left hcovered').trans (hiff.trans hdoes.keepsTier_iff)
      · refine iff_of_true ?_ (keepsTier_of_idle hidle)
        have hprofiles : w'.state.agents = w.state.agents := congrArg Books.profiles hsame
        have htoken : w'.token = w.token := congrArg Books.token hsame
        unfold TiersHeld
        dsimp only
        rw [hprofiles, htoken]
        exact ⟨hheld, hcovered⟩

/-! ## A slashed premium agent -/

/-- The calls by which the agent 2 becomes a premium agent with the minimum stake of its tier, and loses a
tenth of it. -/
def premiumCalls : List (Env × Call) :=
  [(sampleEnv 9 0, .setOrchestratorAndAuction 5 4),
    (sampleEnv 2 1, .registerAgent "agent-2" "https://agent-2" ["fuzzing"] (500 * 10^8)),
    (sampleEnv 9 2, .seedAgentReputation 2 9000),
    (sampleEnv 2 3, .requestPromotion),
    (sampleEnv 2 4, .requestPromotion),
    (sampleEnv 5 5, .slashAgent 2 1000)]

/-- The equivalence on the run of the premium agent, where both sides fail. -/
theorem tiers_held_iff_premium : ∃ ts w, (contract 1).system.Run ts w ∧
    (Throughout (TiersHeld 1) ts w ↔ ∀ tr ∈ ts, KeepsTier tr.src tr.label) ∧
    ¬ Throughout (TiersHeld 1) ts w := by
  obtain ⟨ts, w, hcalls, hr, -⟩ := sample_run premiumCalls (by decide) rfl
  have hagent := read_ok hcalls (fun w => ((w.state.agents 2).status, (w.state.agents 2).tier))
    (b := (.active, .premium)) rfl
  have hstake := read_ok hcalls (fun w => (w.state.agents 2).stakedAmount) (b := 450 * 10^8)
    (by decide +kernel)
  obtain ⟨hstatus, htier⟩ := Prod.mk.inj hagent
  refine ⟨ts, w, hr, tiers_held_iff hr, fun h => ?_⟩
  have hheld := h.2.1 2 hstatus
  rw [htier, hstake] at hheld
  exact absurd hheld (by decide)

/-- An active premium agent with the stake of 450 GUARD. -/
theorem premium_below_minimum : ∃ w, (contract 1).system.Reachable w ∧
    (w.state.agents 2).status = .active ∧ (w.state.agents 2).tier = .premium ∧
    (w.state.agents 2).stakedAmount = 450 * 10^8 ∧ tierMinimumStake .premium = 500 * 10^8 ∧
    ¬ TiersHeld 1 w := by
  obtain ⟨ts, w, hcalls, hr, -⟩ := sample_run premiumCalls (by decide) rfl
  have hagent := read_ok hcalls (fun w => ((w.state.agents 2).status, (w.state.agents 2).tier))
    (b := (.active, .premium)) rfl
  have hstake := read_ok hcalls (fun w => (w.state.agents 2).stakedAmount) (b := 450 * 10^8)
    (by decide +kernel)
  obtain ⟨hstatus, htier⟩ := Prod.mk.inj hagent
  refine ⟨w, hr.reachable, hstatus, htier, hstake, rfl, fun h => ?_⟩
  have hheld := h.1 2 hstatus
  rw [htier, hstake] at hheld
  exact absurd hheld (by decide)

end AuditGuard.AgentRegistry
