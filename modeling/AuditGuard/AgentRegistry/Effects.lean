import AuditGuard.AgentRegistry.Profiles
import AuditGuard.AgentRegistry.System

/-!
# AgentRegistry: what a call does

The storage as books, and the step in the life of a profile that each call makes (`exec_ok`).
-/

namespace AuditGuard.AgentRegistry

open Evm TransitionSystem

/-- The books of the registry. -/
def books (w : World State) : Books := ⟨w.token, w.state.agents⟩

variable {this : Address} {env : Env} {s s' : State} {w w' : World State} {agent : Address}

theorem agents_listAgent (s : State) (agent : Address) : (s.listAgent agent).agents = s.agents := by
  unfold State.listAgent
  split_ifs <;> rfl

theorem BookStep.of_idle {op : ProfileOp} {p : AgentProfile} {token : TokenLedger}
    (hstep : ProfileStep agent (s.agents agent) op p)
    (hnone : op.transfers this agent (s.agents agent) = [])
    (hs : s'.agents = Function.update s.agents agent p) :
    BookStep this ⟨token, s.agents⟩ agent op ⟨token, s'.agents⟩ := by
  rw [hs]
  refine .step hstep ?_
  rw [hnone]
  rfl

theorem transferAll_single {src dst : Address} {amount : ℕ} {token token' : TokenLedger}
    (h : token.transfer src dst amount = some token') :
    token.transferAll [(src, dst, amount)] = some token' := by
  rw [Ledger.transferAll, List.foldlM_cons, h]
  rfl

theorem registerAgent_ok {agentId ucpEndpoint : String} {specializations : List String} {stakeAmount : ℕ}
    (h : registerAgent this env agentId ucpEndpoint specializations stakeAmount w = .ok w') :
    BookStep this (books w) env.sender (.register stakeAmount) (books w') := by
  simp only [registerAgent, transferGuard, Hts.transfer_eq_ok, bind_eq_ok, require_eq_ok,
    pure_eq_ok] at h
  obtain ⟨_, -, _, -, _, -, _, hmin, _, hnew, _, ⟨-, token, hpay, rfl⟩, rfl⟩ := h
  unfold books
  simp only [State.emit_agents, agents_listAgent, State.setProfile_agents]
  exact .step (.register hnew hmin) (transferAll_single hpay)

theorem addStake_ok {amount : ℕ} (h : addStake this env amount w = .ok w') :
    BookStep this (books w) env.sender (.addStake amount) (books w') := by
  simp only [addStake, getExistingProfile, transferGuard, Hts.transfer_eq_ok, bind_eq_ok,
    require_eq_ok, checkedAdd_eq_ok, pure_eq_ok] at h
  obtain ⟨_, -, _, -, _, ⟨_, hexists, rfl⟩, _, hstatus, _, ⟨-, token, hpay, rfl⟩, _, ⟨-, rfl⟩, rfl⟩ := h
  have hstep : ProfileStep env.sender (w.state.agents env.sender) (.addStake amount) _ :=
    .addStake env.timestamp hexists hstatus
  have hbooks : BookStep this (books w) env.sender (.addStake amount) _ :=
    .step hstep (transferAll_single hpay)
  unfold books at *
  simp only [State.emit_agents, State.setProfile_agents]
  split_ifs with hreactivated
  · rw [if_pos hreactivated] at hbooks
    exact hbooks
  · rw [if_neg hreactivated] at hbooks
    exact hbooks

theorem requestPromotion_ok (token : TokenLedger) (h : requestPromotion env s = .ok s') :
    BookStep this ⟨token, s.agents⟩ env.sender .promote ⟨token, s'.agents⟩ := by
  simp only [requestPromotion, getExistingProfile, bind_eq_ok, require_eq_ok, pure_eq_ok] at h
  obtain ⟨_, -, _, ⟨_, hexists, rfl⟩, _, hactive, h⟩ := h
  split at h
  · simp only [bind_eq_ok, require_eq_ok, pure_eq_ok] at h
    obtain ⟨_, ⟨-, hstake⟩, rfl⟩ := h
    have hmin : tierMinimumStake .specialized ≤ (s.agents env.sender).stakedAmount := hstake
    exact .of_idle (.promote hexists hactive hmin) rfl rfl
  · simp only [bind_eq_ok, require_eq_ok, pure_eq_ok] at h
    obtain ⟨_, ⟨-, hstake⟩, rfl⟩ := h
    have hmin : tierMinimumStake .premium ≤ (s.agents env.sender).stakedAmount := hstake
    exact .of_idle (.promote hexists hactive hmin) rfl rfl
  · cases h

theorem applyReputationDelta_ok {delta : ℤ} (h : applyReputationDelta agent delta s = .ok s') :
    (s.agents agent).agentAddress ≠ 0 ∧ ∃ reputation ≤ 10000,
      s' = (s.setProfile agent { s.agents agent with reputationScore := reputation }).emit
        (.reputationUpdated agent delta reputation) := by
  simp only [applyReputationDelta, getExistingProfile, bind_eq_ok, require_eq_ok, pure_eq_ok] at h
  obtain ⟨_, ⟨_, hexists, rfl⟩, updated, -, rfl⟩ := h
  refine ⟨hexists, _, ?_, rfl⟩
  unfold clampReputation
  split_ifs <;> omega

theorem updateReputation_ok (this : Address) {delta : ℤ} (token : TokenLedger)
    (h : updateReputation env agent delta s = .ok s') : ∃ reputation,
      BookStep this ⟨token, s.agents⟩ agent (.score reputation) ⟨token, s'.agents⟩ := by
  simp only [updateReputation, bind_eq_ok] at h
  obtain ⟨_, -, _, -, h⟩ := h
  obtain ⟨hexists, reputation, -, rfl⟩ := applyReputationDelta_ok h
  exact ⟨reputation, .of_idle (.score hexists) rfl rfl⟩

theorem recordJobCompletion_ok (this : Address) {validFindings falsePos falseNeg : ℕ}
    (token : TokenLedger)
    (h : recordJobCompletion env agent validFindings falsePos falseNeg s = .ok s') : ∃ reputation,
      BookStep this ⟨token, s.agents⟩ agent (.record validFindings falsePos falseNeg reputation)
        ⟨token, s'.agents⟩ := by
  simp only [recordJobCompletion, getExistingProfile, bind_eq_ok, require_eq_ok, checkedAdd_eq_ok,
    pure_eq_ok] at h
  obtain ⟨_, -, _, -, _, ⟨_, hexists, rfl⟩, _, ⟨-, rfl⟩, _, ⟨-, rfl⟩, _, ⟨-, rfl⟩, _, ⟨-, rfl⟩, _, -,
    _, -, _, -, _, -, _, -, s₁, hscore, rfl⟩ := h
  obtain ⟨-, reputation, -, rfl⟩ := applyReputationDelta_ok hscore
  refine ⟨reputation, .of_idle (.record env.timestamp hexists) rfl ?_⟩
  simp only [State.emit_agents, State.setProfile_agents, Function.update_self, Function.update_idem]

theorem slashAgent_ok {slashBasisPoints : ℕ} (h : slashAgent this env agent slashBasisPoints w = .ok w') :
    BookStep this (books w) agent (.slash slashBasisPoints w.state.owner) (books w') := by
  simp only [slashAgent, getExistingProfile, transferGuard, Hts.transfer_eq_ok, bind_eq_ok,
    require_eq_ok, checkedMul_eq_ok, checkedSub_eq_ok, pure_eq_ok] at h
  obtain ⟨_, -, _, -, _, -, _, ⟨_, hexists, rfl⟩, _, -, _, ⟨-, rfl⟩, _, -, _, ⟨hle, rfl⟩, _,
    ⟨-, token, hpay, rfl⟩, rfl⟩ := h
  have hstep : ProfileStep agent (w.state.agents agent) (.slash slashBasisPoints w.state.owner) _ :=
    .slash hexists hle
  have hbooks : BookStep this (books w) agent (.slash slashBasisPoints w.state.owner) _ :=
    .step hstep (transferAll_single hpay)
  unfold books AgentProfile.slashed at *
  simp only [State.emit_agents, State.setProfile_agents]
  split_ifs with hfull hlow
  · rw [if_pos hfull] at hbooks
    exact hbooks
  · rw [if_neg hfull, if_pos hlow] at hbooks
    exact hbooks
  · rw [if_neg hfull, if_neg hlow] at hbooks
    exact hbooks

theorem withdrawStake_ok {amount : ℕ} (h : withdrawStake this env amount w = .ok w') :
    BookStep this (books w) env.sender (.withdraw amount) (books w') := by
  simp only [withdrawStake, getExistingProfile, transferGuard, Hts.transfer_eq_ok, bind_eq_ok,
    require_eq_ok, checkedSub_eq_ok, pure_eq_ok] at h
  obtain ⟨_, -, _, -, _, ⟨_, hexists, rfl⟩, _, hle, _, hkeeps, _, ⟨-, rfl⟩, -, token, hpay, rfl⟩ := h
  have hmin : (w.state.agents env.sender).status = .active →
      tierMinimumStake (w.state.agents env.sender).tier ≤
        (w.state.agents env.sender).stakedAmount - amount := by
    intro hactive
    unfold keepsTierMinimum at hkeeps
    rw [if_pos hactive] at hkeeps
    simp only [bind_eq_ok, checkedSub_eq_ok, require_eq_ok] at hkeeps
    obtain ⟨_, ⟨-, rfl⟩, hkept⟩ := hkeeps
    exact hkept
  exact .step (.withdraw hexists hle hmin) (transferAll_single hpay)

theorem deregisterAgent_ok (h : deregisterAgent this env w = .ok w') :
    BookStep this (books w) env.sender .deregister (books w') := by
  simp only [deregisterAgent, getExistingProfile, bind_eq_ok, require_eq_ok, pure_eq_ok] at h
  obtain ⟨_, -, _, ⟨_, hexists, rfl⟩, _, hstatus, w₁, hback, rfl⟩ := h
  have hpaid : ∃ token, w.token.transfer this env.sender (w.state.agents env.sender).stakedAmount =
      some token ∧ w₁ = { w with
        token := token
        state := w.state.setProfile env.sender { w.state.agents env.sender with
          stakedAmount := 0
          status := .inactive } } := by
    split_ifs at hback with hpos
    · simp only [transferGuard, Hts.transfer_eq_ok] at hback
      obtain ⟨-, token, hpay, rfl⟩ := hback
      exact ⟨token, hpay, rfl⟩
    · rw [pure_eq_ok] at hback
      have hzero : (w.state.agents env.sender).stakedAmount = 0 := by omega
      refine ⟨w.token, ?_, hback.symm⟩
      rw [hzero]
      exact Ledger.transfer_zero _ _ _
  obtain ⟨token, hpay, rfl⟩ := hpaid
  exact .step (.deregister hexists hstatus) (transferAll_single hpay)

theorem seedAgentReputation_ok {reputation : ℕ} (token : TokenLedger)
    (h : seedAgentReputation env agent reputation s = .ok s') :
    BookStep this ⟨token, s.agents⟩ agent (.seed reputation) ⟨token, s'.agents⟩ := by
  simp only [seedAgentReputation, getExistingProfile, bind_eq_ok, require_eq_ok, pure_eq_ok] at h
  obtain ⟨_, -, _, -, _, ⟨_, hexists, rfl⟩, _, hfresh, rfl⟩ := h
  exact .of_idle (.seed hexists hfresh) rfl rfl

/-! ## All calls -/

/-- The step that a call stands for, and the agent in whose life it is. -/
def Call.Does (env : Env) (s : State) : Call → Address → ProfileOp → Prop
  | .registerAgent _ _ _ stakeAmount, agent, op => agent = env.sender ∧ op = .register stakeAmount
  | .addStake amount, agent, op => agent = env.sender ∧ op = .addStake amount
  | .requestPromotion, agent, op => agent = env.sender ∧ op = .promote
  | .updateReputation a _, agent, op => agent = a ∧ ∃ reputation, op = .score reputation
  | .recordJobCompletion a validFindings falsePos falseNeg, agent, op =>
    agent = a ∧ ∃ reputation, op = .record validFindings falsePos falseNeg reputation
  | .slashAgent a slashBasisPoints, agent, op => agent = a ∧ op = .slash slashBasisPoints s.owner
  | .withdrawStake amount, agent, op => agent = env.sender ∧ op = .withdraw amount
  | .deregisterAgent, agent, op => agent = env.sender ∧ op = .deregister
  | .seedAgentReputation a reputation, agent, op => agent = a ∧ op = .seed reputation
  | .setOrchestratorAndAuction _ _, _, _ => False
  | .admin _, _, _ => False

theorem execAdmin_ok {c : AdminCall} (h : execAdmin env c s = .ok s') : s'.agents = s.agents := by
  simp only [execAdmin, bind_eq_ok] at h
  obtain ⟨_, -, h⟩ := h
  cases c with
  | renounceOwnership =>
    rw [pure_eq_ok] at h
    subst h
    rfl
  | _ =>
    simp only [bind_eq_ok, pure_eq_ok] at h
    obtain ⟨_, -, rfl⟩ := h
    rfl

/-- Every call is one step in the life of a profile, or it does not touch the books. -/
theorem exec_ok {c : Call} (h : exec this env c w = .ok w') :
    (∃ agent op, c.Does env w.state agent op ∧ BookStep this (books w) agent op (books w')) ∨
      (∀ agent op, ¬ c.Does env w.state agent op) ∧ books w' = books w := by
  unfold exec at h
  split_ifs at h
  -- The owner's functions and the wiring write no profile; every other call makes one step.
  cases c with
  | registerAgent agentId ucpEndpoint specializations stakeAmount =>
    exact .inl ⟨_, _, ⟨rfl, rfl⟩, registerAgent_ok h⟩
  | addStake amount => exact .inl ⟨_, _, ⟨rfl, rfl⟩, addStake_ok h⟩
  | requestPromotion =>
    rw [onState_eq_ok] at h
    obtain ⟨s, h, rfl⟩ := h
    exact .inl ⟨_, _, ⟨rfl, rfl⟩, requestPromotion_ok w.token h⟩
  | updateReputation agent delta =>
    rw [onState_eq_ok] at h
    obtain ⟨s, h, rfl⟩ := h
    obtain ⟨reputation, hstep⟩ := updateReputation_ok this w.token h
    exact .inl ⟨_, _, ⟨rfl, reputation, rfl⟩, hstep⟩
  | recordJobCompletion agent validFindings falsePos falseNeg =>
    rw [onState_eq_ok] at h
    obtain ⟨s, h, rfl⟩ := h
    obtain ⟨reputation, hstep⟩ := recordJobCompletion_ok this w.token h
    exact .inl ⟨_, _, ⟨rfl, reputation, rfl⟩, hstep⟩
  | slashAgent agent slashBasisPoints => exact .inl ⟨_, _, ⟨rfl, rfl⟩, slashAgent_ok h⟩
  | withdrawStake amount => exact .inl ⟨_, _, ⟨rfl, rfl⟩, withdrawStake_ok h⟩
  | deregisterAgent => exact .inl ⟨_, _, ⟨rfl, rfl⟩, deregisterAgent_ok h⟩
  | seedAgentReputation agent reputation =>
    rw [onState_eq_ok] at h
    obtain ⟨s, h, rfl⟩ := h
    exact .inl ⟨_, _, ⟨rfl, rfl⟩, seedAgentReputation_ok w.token h⟩
  | setOrchestratorAndAuction orchestrator auction =>
    simp only [onState_eq_ok, setOrchestratorAndAuction, bind_eq_ok, pure_eq_ok] at h
    obtain ⟨_, ⟨_, -, _, -, _, -, rfl⟩, rfl⟩ := h
    exact .inr ⟨fun _ _ => id, rfl⟩
  | admin c =>
    rw [onState_eq_ok] at h
    obtain ⟨s, h, rfl⟩ := h
    exact .inr ⟨fun _ _ => id, congrArg (Books.mk w.token) (execAdmin_ok h)⟩

theorem Call.Does.register {c : Call} {stakeAmount : ℕ} (h : c.Does env s agent (.register stakeAmount)) :
    agent = env.sender := by
  cases c with
  | registerAgent => exact h.1
  | _ => simp [Does] at h

theorem registered_stays {c : Call} (h : exec this env c w = .ok w') (h0 : env.sender ≠ 0)
    (hregistered : (w.state.agents agent).agentAddress ≠ 0) :
    (w'.state.agents agent).agentAddress ≠ 0 := by
  rcases exec_ok h with ⟨a, op, hdoes, hstep⟩ | ⟨-, hsame⟩
  · change ((books w').profiles agent).agentAddress ≠ 0
    generalize books w' = b at hstep ⊢
    cases hstep with
    | step hprofile hpay =>
      dsimp only
      rcases eq_or_ne agent a with rfl | hne
      · rw [Function.update_self]
        cases hprofile with
        | register =>
          rw [hdoes.register]
          exact h0
        | addStake | promote | score | record | slash | withdraw | deregister | seed => exact hregistered
      · rw [Function.update_of_ne hne]
        exact hregistered
  · rw [show w'.state.agents = w.state.agents from congrArg Books.profiles hsame]
    exact hregistered

theorem Call.Does.deposits {c : Call} {op : ProfileOp} (h : c.Does env s agent op)
    (hdeposits : op.Deposits) : agent = env.sender := by
  cases c with
  | registerAgent | addStake => exact h.1
  | updateReputation a delta =>
    obtain ⟨-, reputation, rfl⟩ := h
    exact absurd hdeposits id
  | recordJobCompletion a validFindings falsePos falseNeg =>
    obtain ⟨-, reputation, rfl⟩ := h
    exact absurd hdeposits id
  | setOrchestratorAndAuction orchestrator auction => exact absurd h id
  | admin c => exact absurd h id
  | _ =>
    obtain ⟨-, rfl⟩ := h
    exact absurd hdeposits id

theorem transfers_src {op : ProfileOp} {p : AgentProfile} {t : Address × Address × ℕ}
    (h : t ∈ op.transfers this agent p) : t.1 = this ∨ (op.Deposits ∧ t.1 = agent) := by
  cases op with
  | register | addStake =>
    rw [List.mem_singleton.mp h]
    exact .inr ⟨trivial, rfl⟩
  | slash | withdraw | deregister =>
    rw [List.mem_singleton.mp h]
    exact .inl rfl
  | promote | score | record | seed => cases h

theorem spares : (contract this).Spares := by
  intro env c w w' hexec a hthis hsender
  rcases exec_ok (show exec this env c w = .ok w' from hexec) with ⟨agent, op, hdoes, hstep⟩ | ⟨-, hsame⟩
  · change (books w).token.balance a ≤ (books w').token.balance a
    generalize books w' = b at hstep ⊢
    cases hstep with
    | step hprofile hpay =>
      refine Ledger.le_transferAll_balance hpay fun t ht => ?_
      rcases transfers_src ht with hsrc | ⟨hdeposits, hsrc⟩
      · rw [hsrc]
        exact hthis.symm
      · rw [hsrc, hdoes.deposits hdeposits]
        exact hsender.symm
  · rw [show w'.token = w.token from congrArg Books.token hsame]

/-! ## Leaving -/

theorem reachable_covered (hw : (contract this).system.Reachable w) : (books w).stakes ≤ w.token.balance this := by
  refine Reachable.induct (I := fun w => (books w).stakes ≤ w.token.balance this) ?_ ?_ hw
  · intro w hfresh
    obtain ⟨deployer, guardToken, hstate⟩ := fresh_state_eq (show (contract this).fresh w.state from hfresh)
    have hzero : (books w).stakes = 0 := Finset.sum_eq_zero fun a _ => by
      rw [books, hstate]
      rfl
    rw [hzero]
    exact Nat.zero_le _
  · intro w l w' _ hcovered hstep
    cases hstep with
    | elsewhere hle _ => exact hcovered.trans hle
    | @call env c w w' hs h0 ht hexec =>
      rcases exec_ok (show exec this env c w = .ok w' from hexec) with ⟨agent, op, hdoes, hbook⟩ | ⟨-, hsame⟩
      · exact hbook.covered (fun hdeposits => (hdoes.deposits hdeposits).trans_ne hs) hcovered
      · change (books w').stakes ≤ (books w').token.balance this
        rw [hsame]
        exact hcovered

/-- In every reachable state every agent that is registered and has not left can leave, while the contract is not
paused and HTS transfers: it gets its whole stake back, however much others have been slashed or have withdrawn. -/
theorem deregisterAgent_pays (hw : (contract this).system.Reachable w) (hs : env.sender ≠ this)
    (hunpaused : w.state.paused = false) (hexists : (w.state.agents env.sender).agentAddress ≠ 0)
    (hstatus : (w.state.agents env.sender).status ≠ .inactive) (haccepts : env.transferAnswer = Hts.HTS_SUCCESS) :
    ∃ w', deregisterAgent this env w = .ok w' ∧
      w'.token.balance env.sender = w.token.balance env.sender + (w.state.agents env.sender).stakedAmount ∧
      (books w').stakes + (w.state.agents env.sender).stakedAmount = (books w).stakes := by
  have hle : (w.state.agents env.sender).stakedAmount ≤ w.token.balance this :=
    (Finset.single_le_sum_of_canonicallyOrdered (f := fun a => (w.state.agents a).stakedAmount)
      (Finset.mem_univ env.sender)).trans (reachable_covered hw)
  have hsucceeds : ∃ w', deregisterAgent this env w = .ok w' := by
    simp only [deregisterAgent, getExistingProfile, modifier_of hunpaused, require_of hexists, require_of hstatus,
      ok_bind, pure, Except.pure]
    split_ifs
    · obtain ⟨token, htoken⟩ := Hts.transfer_succeeds "AgentRegistry" (World.mk (w.state.setProfile env.sender
        { w.state.agents env.sender with stakedAmount := 0, status := .inactive }) w.token w.now) env.sender
        haccepts hle
      exact ⟨_, by rw [transferGuard, htoken, ok_bind]⟩
    · exact ⟨_, rfl⟩
  obtain ⟨w', hexec⟩ := hsucceeds
  refine ⟨w', hexec, ?_⟩
  have hstep := deregisterAgent_ok hexec
  generalize hb : books w' = b at hstep
  have htoken : w'.token = b.token := congrArg Books.token hb
  rw [htoken]
  cases hstep with
  | step hprofile hpay =>
    cases hprofile with
    | deregister _ _ =>
      have hmoved := Ledger.transferAll_balance hpay env.sender
      have htotal := Sums.sum_update (books w).profiles env.sender
        { w.state.agents env.sender with stakedAmount := 0, status := .inactive } AgentProfile.stakedAmount
      simp only [ProfileOp.transfers, List.map_singleton, List.sum_singleton, if_neg hs.symm, if_true] at hmoved
      exact ⟨hmoved, htotal.trans (Nat.add_zero _)⟩

/-- A slashed agent gets what is left of its stake. -/
theorem deregisterAgent_pays_slashed : ∃ w w', (contract 1).system.Reachable w ∧
    deregisterAgent 1 (sampleEnv 2 3) w = .ok w' ∧ w'.token.balance 2 = w.token.balance 2 + 90 * 10^8 := by
  obtain ⟨ts, w, hcalls, hr, -⟩ := sample_run [(sampleEnv 9 0, .setOrchestratorAndAuction 5 4),
    (sampleEnv 2 1, .registerAgent "agent-2" "https://agent-2" [] (100 * 10^8)),
    (sampleEnv 5 2, .slashAgent 2 1000)] (by decide) rfl
  have hagent := read_ok hcalls (fun w => (w.state.paused, (w.state.agents 2).agentAddress,
    (w.state.agents 2).status)) (b := (false, 2, .suspended)) rfl
  have hstake := read_ok hcalls (fun w => (w.state.agents 2).stakedAmount) (b := 90 * 10^8) (by decide +kernel)
  obtain ⟨hunpaused, hagent, hstatus⟩ := Prod.mk.inj hagent |>.imp_right Prod.mk.inj
  have hs : (sampleEnv 2 3).sender ≠ 1 := by decide
  obtain ⟨w', hexec, hpaid, -⟩ := deregisterAgent_pays hr.reachable hs hunpaused
    (by rw [show (sampleEnv 2 3).sender = 2 from rfl, hagent]; decide)
    (by rw [show (sampleEnv 2 3).sender = 2 from rfl, hstatus]; decide) rfl
  exact ⟨w, w', hr.reachable, hexec, hpaid.trans (congrArg _ hstake)⟩

end AuditGuard.AgentRegistry
