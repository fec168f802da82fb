import AuditGuard.DelegatedStaking.Books

/-!
# The internal functions as steps of the books

Each internal function of the contract, when it returns, has taken one step of the books, and the
loops have taken a step or none for each delegation that they visit.
-/

namespace AuditGuard.DelegatedStaking

open Evm

variable {env : Env} {delegator agent : Address} {s s' : State}

/-! ## Settling -/

theorem computePending_credits {d : Delegation} {pool : AgentDelegationPool} {v : ℕ}
    (h : computePending d pool = .ok v) : (entryOf d pool).Credits v := by
  unfold computePending at h
  split_ifs at h with h0
  · simp only [pure_eq_ok] at h
    subst h
    simp [Entry.Credits]
  · simp only [bind_eq_ok, checkedSub_eq_ok] at h
    obtain ⟨_, ⟨-, rfl⟩, h⟩ := h
    split_ifs at h
    · simp only [pure_eq_ok] at h
      subst h
      simp [Entry.Credits]
    · simp only [bind_eq_ok, checkedMul_eq_ok, pure_eq_ok] at h
      obtain ⟨_, ⟨-, rfl⟩, rfl⟩ := h
      -- The cap only lowers the credit.
      refine (Nat.mul_le_mul_right PRECISION ?_).trans (Nat.div_mul_le_self _ PRECISION)
      simp only [entryOf]
      split_ifs <;> omega

theorem settlePending_ok {d d' : Delegation} {pool : AgentDelegationPool}
    (h : settlePending d pool = .ok d') : ∃ v, (entryOf d pool).Credits v ∧
      d' = { d with
        pendingRewards := d.pendingRewards + v
        rewardPerTokenPaid := pool.rewardPerTokStored } := by
  simp only [settlePending, bind_eq_ok, pure_eq_ok] at h
  obtain ⟨v, hv, p, hp, rfl⟩ := h
  refine ⟨v, computePending_credits hv, ?_⟩
  split_ifs at hp with hpos
  · simp only [checkedAdd_eq_ok] at hp
    rw [hp.2]
  · simp only [pure_eq_ok] at hp
    have hv0 : v = 0 := by omega
    rw [← hp, hv0, Nat.add_zero]

/-! ## Records -/

theorem RecordChange.of_writes {op : RecordOp} (d : Delegation) (pool : AgentDelegationPool)
    (hd : s'.delegations = Function.update s.delegations (delegator, agent) d)
    (hp : s'.agentPools = Function.update s.agentPools agent pool)
    (step : RecordStep (s.entry delegator agent) op (entryOf d pool))
    (all : s'.totalDelegatedAllAgents = op.retotal s.totalDelegatedAllAgents)
    (settings : s'.settings = s.settings)
    (lists : SameLists (s.relisted delegator agent op) s')
    (claimed : ∀ g, claimedOf s'.log g = claimedOf s.log g + if g = agent then op.claimed else 0)
    (backers : ∀ g, DelegatedStaking.backers s'.log g = if op.isDeposit ∧ g = agent
      then insert delegator (DelegatedStaking.backers s.log g)
      else DelegatedStaking.backers s.log g) :
    RecordChange s s' delegator agent op where
  delegations := by rw [hd, Function.update_self]
  agentPools := by rw [hp, Function.update_self]
  step := by
    have he : s'.entry delegator agent = entryOf d pool := by
      rw [State.entry, hd, hp, Function.update_self, Function.update_self]
    rw [he]
    exact step
  all := all
  settings := settings
  lists := lists
  claimed := claimed
  backers := backers

theorem RecordChange.of_writes_listed {op : RecordOp} (hop : op.isDeposit = false) (d : Delegation)
    (pool : AgentDelegationPool)
    (hd : s'.delegations = Function.update s.delegations (delegator, agent) d)
    (hp : s'.agentPools = Function.update s.agentPools agent pool)
    (step : RecordStep (s.entry delegator agent) op (entryOf d pool))
    (all : s'.totalDelegatedAllAgents = op.retotal s.totalDelegatedAllAgents)
    (settings : s'.settings = s.settings) (lists : SameLists s s')
    (claimed : ∀ g, claimedOf s'.log g = claimedOf s.log g + if g = agent then op.claimed else 0)
    (backers : ∀ g, DelegatedStaking.backers s'.log g = DelegatedStaking.backers s.log g) :
    RecordChange s s' delegator agent op :=
  .of_writes d pool hd hp step all settings
    (by rw [State.relisted, if_neg (by simp [hop])]; exact lists) claimed
    (fun g => by rw [if_neg (by simp [hop]), backers g])

theorem RecordStep.of_eq {e e₁ e₂ : Entry} {op : RecordOp} (h : RecordStep e op e₁) (he : e₂ = e₁) :
    RecordStep e op e₂ := he ▸ h

theorem autoInitPool_tallies (s : State) (agent : Address) :
    (autoInitPool s agent).totalDelegated = (s.agentPools agent).totalDelegated ∧
      (autoInitPool s agent).totalRewardsAccrued = (s.agentPools agent).totalRewardsAccrued ∧
      (autoInitPool s agent).rewardPerTokStored = (s.agentPools agent).rewardPerTokStored ∧
      (autoInitPool s agent).delegatorCount = (s.agentPools agent).delegatorCount := by
  unfold autoInitPool
  dsimp only
  split_ifs <;> exact ⟨rfl, rfl, rfl, rfl⟩

theorem listed_frame (s : State) (delegator agent : Address) :
    (s.listed delegator agent).delegations = s.delegations ∧
      (s.listed delegator agent).agentPools = s.agentPools ∧
      (s.listed delegator agent).totalDelegatedAllAgents = s.totalDelegatedAllAgents ∧
      (s.listed delegator agent).settings = s.settings ∧
      (s.listed delegator agent).log = s.log :=
  ⟨rfl, rfl, rfl, rfl, rfl⟩

/-- `_executeDelegation` deposits. -/
theorem executeDelegation_ok {x : ℕ} (hx : 0 < x)
    (h : executeDelegation env delegator agent x s = .ok s') :
    RecordChange s s' delegator agent (.deposit x) := by
  simp only [executeDelegation, bind_eq_ok, require_eq_ok, checkedAdd_eq_ok, pure_eq_ok,
    Prod.exists] at h
  obtain ⟨_, -, d, pool, s₁, hopen, _, ⟨-, rfl⟩, _, ⟨ht, rfl⟩, _, ⟨-, rfl⟩, rfl⟩ := h
  obtain ⟨htot, hacc, hstored, hcount⟩ := autoInitPool_tallies s agent
  -- Both branches leave a record and a pool whose entry takes the step, and list the record.
  suffices hs₁ : (s₁.delegations = s.delegations ∧ s₁.agentPools = s.agentPools ∧
      s₁.totalDelegatedAllAgents = s.totalDelegatedAllAgents ∧ s₁.settings = s.settings ∧
      s₁.log = s.log) ∧ SameLists (s.relisted delegator agent (.deposit x)) s₁ ∧
      RecordStep (s.entry delegator agent) (.deposit x)
        (entryOf { d with amount := d.amount + x, lastRewardClaimAt := truncate 48 env.timestamp }
          { pool with totalDelegated := pool.totalDelegated + x }) by
    obtain ⟨⟨hfd, hfp, hfa, hfs, hfl⟩, hlists, hstep⟩ := hs₁
    refine .of_writes _ _ (by simp [hfd, delegationKey]) (by simp [hfp]) hstep
      (by simp [hfa, RecordOp.retotal]) (by simp [hfs]) ?_ ?_ ?_
    · exact ⟨by simp [hlists.1], by simp [hlists.2], by simp [hlists.3], by simp [hlists.4]⟩
    · intro g
      simp [hfl, Event.claimed, RecordOp.claimed]
    · intro g
      simp only [State.emit_log, State.setAllAgents_log, State.setPool_log, State.setDelegation_log, hfl,
        backers_delegated, RecordOp.isDeposit, true_and]
  split_ifs at hopen with ha
  · simp only [openDelegation, bind_eq_ok, require_eq_ok, checkedAdd_eq_ok, pure_eq_ok,
      Prod.mk.injEq] at hopen
    obtain ⟨_, -, _, ⟨hc, rfl⟩, rfl, rfl, hs₁⟩ := hopen
    have ha' : (s.delegations (delegator, agent)).active = false := ha
    have hlist : s.relisted delegator agent (.deposit x) = s₁ := by
      rw [State.relisted, if_pos ⟨rfl, ha'⟩]
      exact hs₁
    subst hs₁
    refine ⟨listed_frame s delegator agent, hlist ▸ ⟨rfl, rfl, rfl, rfl⟩, ?_⟩
    refine (RecordStep.deposit x 0 hx (by simp [Entry.Credits]) (htot ▸ ht :)
      fun _ => (hcount ▸ hc :)).of_eq ?_
    simp [entryOf, ha', htot, hacc, hstored, hcount, State.entry, delegationKey]
  · simp only [growDelegation, bind_eq_ok, pure_eq_ok, Prod.mk.injEq] at hopen
    obtain ⟨_, hsettle, rfl, rfl, rfl⟩ := hopen
    obtain ⟨v, hv, rfl⟩ := settlePending_ok hsettle
    have ha' : (s.delegations (delegator, agent)).active = true := by
      simpa [delegationKey] using ha
    have hv' : (s.entry delegator agent).Credits v := by
      simpa only [State.entry, Entry.Credits, entryOf, hstored, delegationKey] using hv
    have hopen : ¬ (s.entry delegator agent).active = false := by simp [State.entry, entryOf, ha']
    refine ⟨⟨rfl, rfl, rfl, rfl, rfl⟩, ?_, ?_⟩
    · rw [State.relisted, if_neg fun h => hopen h.2]
      exact ⟨rfl, rfl, rfl, rfl⟩
    · refine (RecordStep.deposit x v hx hv' (htot ▸ ht :) fun h => absurd h hopen).of_eq ?_
      simp [entryOf, ha', htot, hacc, hstored, hcount, State.entry, delegationKey]

theorem unbondRemainder_ok {min all all' : ℕ} {d d' : Delegation} {pool pool' : AgentDelegationPool}
    (h : unbondRemainder min d pool all = .ok (d', pool', all')) :
    ∃ r, r ≤ d.amount ∧ all' = all - r ∧ entryOf d' pool' = { entryOf d pool with
      amount := d.amount - r
      unbonding := d.unbondingAmount + r
      total := pool.totalDelegated - r } := by
  unfold unbondRemainder at h
  split_ifs at h
  · simp only [bind_eq_ok, checkedAdd_eq_ok, checkedSub_eq_ok, pure_eq_ok, Prod.mk.injEq] at h
    obtain ⟨_, ⟨-, rfl⟩, _, ⟨-, rfl⟩, _, ⟨-, rfl⟩, rfl, rfl, rfl⟩ := h
    exact ⟨d.amount, le_rfl, rfl, by simp [entryOf]⟩
  · simp only [pure_eq_ok, Prod.mk.injEq] at h
    obtain ⟨rfl, rfl, rfl⟩ := h
    exact ⟨0, Nat.zero_le _, rfl, rfl⟩

theorem requestUndelegate_ok {x : ℕ} (h : requestUndelegate env agent x s = .ok s') :
    ∃ y, RecordChange s s' env.sender agent (.unbond y) := by
  simp only [requestUndelegate, bind_eq_ok, modifier_eq_ok, require_eq_ok, checkedAdd_eq_ok,
    checkedSub_eq_ok, pure_eq_ok, Prod.exists] at h
  obtain ⟨_, -, _, ha, _, hpos, _, hle, _, hu, d₁, hsettle, _, ⟨-, rfl⟩, _, -, _, ⟨-, rfl⟩, _,
    ⟨-, rfl⟩, d, pool, all, hforce, rfl⟩ := h
  obtain ⟨v, hv, hd₁⟩ := settlePending_ok hsettle
  obtain ⟨r, hr, hall, hentry⟩ := unbondRemainder_ok hforce
  have ham : d₁.amount = (s.entry env.sender agent).amount := by rw [hd₁]; rfl
  simp only [ham] at hr
  have hx : x ≤ (s.entry env.sender agent).amount := hle
  have hstep := RecordStep.unbond (e := s.entry env.sender agent) (x + r) v ha hu (by omega) (by omega) hv
  refine ⟨x + r, .of_writes_listed rfl d pool (by simp [delegationKey]) (by simp) (hstep.of_eq ?_) ?_
    (by simp) ⟨by simp, by simp, by simp, by simp⟩ ?_ ?_⟩
  · rw [hentry, hd₁]
    simp [entryOf, State.entry, delegationKey, Nat.sub_sub]
  · simp [RecordOp.retotal, hall, Nat.sub_sub]
  · intro g
    simp [Event.claimed, RecordOp.claimed]
  · intro g
    simp [Event.backer]

theorem executeCompleteUndelegate_ok {x : ℕ}
    (h : executeCompleteUndelegate env agent s = .ok (x, s')) :
    RecordChange s (s'.emit (.undelegationCompleted env.sender agent x)) env.sender agent
      (.complete x) := by
  simp only [executeCompleteUndelegate, bind_eq_ok, require_eq_ok] at h
  obtain ⟨_, ha, _, hu, _, -, h⟩ := h
  have hstep := RecordStep.complete (e := s.entry env.sender agent) ha hu
  -- The delegation is closed if nothing is left of it.
  split_ifs at h with h0
  · simp only [bind_eq_ok, checkedSub_eq_ok, pure_eq_ok, Prod.mk.injEq] at h
    obtain ⟨_, ⟨-, rfl⟩, rfl, rfl⟩ := h
    refine .of_writes_listed rfl _ _ rfl rfl (hstep.of_eq ?_) rfl rfl ⟨rfl, rfl, rfl, rfl⟩ ?_ ?_
    · simp [entryOf, State.entry, delegationKey] at h0 ⊢
      simp [h0]
    · intro g
      simp [Event.claimed, RecordOp.claimed]
    · intro g
      simp [Event.backer]
  · simp only [pure_eq_ok, Prod.mk.injEq] at h
    obtain ⟨rfl, rfl⟩ := h
    refine .of_writes_listed rfl _ _ rfl (Function.update_eq_self agent _).symm (hstep.of_eq ?_) rfl rfl
      ⟨rfl, rfl, rfl, rfl⟩ ?_ ?_
    · simp [entryOf, State.entry, delegationKey] at h0 ⊢
      simp [h0]
      exact ha
    · intro g
      simp [Event.claimed, RecordOp.claimed]
    · intro g
      simp [Event.backer]

theorem executeClaimRewards_ok {x : ℕ} (h : executeClaimRewards env agent s = .ok (x, s')) :
    RecordChange s (s'.emit (.rewardsClaimed env.sender agent x)) env.sender agent (.claim x) := by
  simp only [executeClaimRewards, bind_eq_ok, require_eq_ok, pure_eq_ok, Prod.mk.injEq] at h
  obtain ⟨_, ha, d, hsettle, _, -, rfl, rfl⟩ := h
  obtain ⟨v, hv, rfl⟩ := settlePending_ok hsettle
  refine .of_writes_listed rfl _ _ rfl (Function.update_eq_self agent _).symm
    ((RecordStep.claim v ha hv).of_eq rfl) rfl rfl ⟨rfl, rfl, rfl, rfl⟩ ?_ ?_
  · intro g
    simp [Event.claimed, RecordOp.claimed, eq_comm]
  · intro g
    simp [Event.backer]

/-! ## Loops -/

theorem claimAgentRewards_ok {n n' : ℕ} (h : claimAgentRewards env (n, s) agent = .ok (n', s')) :
    (n' = n ∧ s' = s) ∨
      ∃ x, n' = n + x ∧ RecordChange s s' env.sender agent (.claim x) := by
  unfold claimAgentRewards at h
  dsimp only at h
  split_ifs at h with ha
  · simp only [pure_eq_ok, Prod.mk.injEq] at h
    exact .inl ⟨h.1.symm, h.2.symm⟩
  · simp only [bind_eq_ok] at h
    obtain ⟨d, hsettle, h⟩ := h
    obtain ⟨v, hv, rfl⟩ := settlePending_ok hsettle
    have ha' : (s.entry env.sender agent).active = true := by
      simpa [State.entry, entryOf, delegationKey] using ha
    have hstep := RecordStep.claim v ha' hv
    -- A reward of zero is passed over, which is a claim of zero.
    split_ifs at h with h0
    · simp only [pure_eq_ok, Prod.mk.injEq] at h
      obtain ⟨rfl, rfl⟩ := h
      have hp : (s.delegations (env.sender, agent)).pendingRewards + v = 0 := h0
      have hp0 : (s.entry env.sender agent).pending + v = 0 := h0
      rw [hp0] at hstep
      refine .inr ⟨0, rfl, .of_writes_listed rfl _ _ rfl (Function.update_eq_self agent _).symm
        (hstep.of_eq ?_) rfl rfl ⟨rfl, rfl, rfl, rfl⟩ (by simp [RecordOp.claimed]) (by simp)⟩
      simp only [entryOf, delegationKey, hp]
      rfl
    · simp only [bind_eq_ok, checkedAdd_eq_ok, pure_eq_ok, Prod.mk.injEq] at h
      obtain ⟨_, ⟨-, rfl⟩, rfl, rfl⟩ := h
      refine .inr ⟨_, rfl, .of_writes_listed rfl _ _ rfl (Function.update_eq_self agent _).symm
        (hstep.of_eq rfl) rfl rfl ⟨rfl, rfl, rfl, rfl⟩ ?_ ?_⟩
      · intro g
        simp [Event.claimed, RecordOp.claimed, eq_comm]
      · intro g
        simp [Event.backer]

/-- What a loop of claims by `delegator` does. -/
def BookOp.ClaimBy (delegator : Address) (op : BookOp) : Prop :=
  ∃ agent x, op = .record delegator agent (.claim x)

theorem claimLoop_ok {agents : List Address} {n n' : ℕ}
    (h : agents.foldlM (claimAgentRewards env) (n, s) = .ok (n', s')) :
    ∃ ops, (∀ op ∈ ops, op.ClaimBy env.sender) ∧ BookSteps s ops s' ∧ n' = n + outflow ops := by
  induction agents generalizing n s with
  | nil =>
    simp only [List.foldlM_nil, pure_eq_ok, Prod.mk.injEq] at h
    obtain ⟨rfl, rfl⟩ := h
    exact ⟨[], by simp, .nil, rfl⟩
  | cons agent agents ih =>
    simp only [List.foldlM_cons, bind_eq_ok, Prod.exists] at h
    obtain ⟨n₁, s₁, h₁, h⟩ := h
    obtain ⟨ops, hops, hsteps, rfl⟩ := ih h
    rcases claimAgentRewards_ok h₁ with ⟨rfl, rfl⟩ | ⟨x, rfl, hx⟩
    · exact ⟨ops, hops, hsteps, rfl⟩
    · refine ⟨[.record env.sender agent (.claim x)] ++ ops, ?_, (BookStep.record hx).steps.append hsteps, ?_⟩
      · simpa using ⟨⟨_, _, rfl⟩, hops⟩
      · rw [outflow_append, Nat.add_assoc]
        rfl

/-- The saturating subtraction is that of natural numbers. -/
@[simp]
theorem saturatingSub_eq (a b : ℕ) : saturatingSub a b = a - b := by
  unfold saturatingSub
  split_ifs <;> omega

theorem slashDelegation_ok {bps : ℕ} {acc acc' : SlashLoop}
    (h : slashDelegation agent bps acc delegator = .ok acc') : acc' = acc ∨
      ∃ a u, RecordChange acc.state acc'.state delegator agent (.slash a u) ∧
        acc'.totalSlashed = acc.totalSlashed + (a + u) := by
  unfold slashDelegation at h
  dsimp only at h
  by_cases ha : (acc.state.delegations (delegationKey delegator agent)).active = false ∨
      (acc.state.delegations (delegationKey delegator agent)).amount = 0
  · rw [if_pos ha, pure_eq_ok] at h
    exact .inl h.symm
  · rw [if_neg ha] at h
    simp only [bind_eq_ok] at h
    obtain ⟨a, -, u, -, n, hn, h⟩ := h
    obtain ⟨hact, hpos⟩ := not_or.mp ha
    simp only [checkedAdd_eq_ok] at hn
    obtain ⟨-, rfl⟩ := hn
    -- A share that rounds to zero is passed over too, before anything is written.
    split_ifs at h with h0
    · simp only [pure_eq_ok] at h
      exact .inl h.symm
    · simp only [bind_eq_ok, checkedAdd_eq_ok, checkedSub_eq_ok, pure_eq_ok] at h
      obtain ⟨_, ⟨hax, rfl⟩, _, ⟨hux, rfl⟩, _, ⟨-, rfl⟩, _, ⟨-, rfl⟩, rfl⟩ := h
      have hact' : (acc.state.entry delegator agent).active = true := by
        simpa [State.entry, entryOf, delegationKey] using hact
      have hstep := RecordStep.slash a u hact' (Nat.pos_of_ne_zero hpos) hax hux
      refine .inr ⟨a, u, .of_writes_listed rfl _ _ rfl rfl (hstep.of_eq ?_) ?_ rfl
        ⟨rfl, rfl, rfl, rfl⟩ (by simp [RecordOp.claimed]) (by simp), rfl⟩
      · simp only [entryOf, State.entry, delegationKey, saturatingSub_eq]
        congr
        exact decide_eq_true_eq
      · simp [RecordOp.retotal]

/-- What the loop of `propagateSlash` does. -/
def BookOp.SlashOf (agent : Address) (op : BookOp) : Prop :=
  ∃ delegator a u, op = .record delegator agent (.slash a u)

theorem slashLoop_ok {bps : ℕ} {delegators : List Address} {acc acc' : SlashLoop}
    (h : delegators.foldlM (slashDelegation agent bps) acc = .ok acc') :
    ∃ ops, (∀ op ∈ ops, op.SlashOf agent) ∧ BookSteps acc.state ops acc'.state ∧
      acc'.totalSlashed = acc.totalSlashed + outflow ops := by
  induction delegators generalizing acc with
  | nil =>
    simp only [List.foldlM_nil, pure_eq_ok] at h
    subst h
    exact ⟨[], by simp, .nil, rfl⟩
  | cons delegator delegators ih =>
    simp only [List.foldlM_cons, bind_eq_ok] at h
    obtain ⟨acc₁, h₁, h⟩ := h
    obtain ⟨ops, hops, hsteps, htot⟩ := ih h
    rcases slashDelegation_ok h₁ with rfl | ⟨a, u, hchange, htot₁⟩
    · exact ⟨ops, hops, hsteps, htot⟩
    · refine ⟨[.record delegator agent (.slash a u)] ++ ops, ?_,
        (BookStep.record hchange).steps.append hsteps, ?_⟩
      · simpa using ⟨⟨_, _, _, rfl⟩, hops⟩
      · rw [htot, htot₁, outflow_append, Nat.add_assoc]
        rfl

theorem slashLoop_settings {bps : ℕ} {delegators : List Address} {acc acc' : SlashLoop}
    (h : delegators.foldlM (slashDelegation agent bps) acc = .ok acc') :
    acc'.state.settings = acc.state.settings := by
  obtain ⟨ops, hops, hsteps, -⟩ := slashLoop_ok h
  refine hsteps.settings fun hadmin => ?_
  obtain ⟨_, _, _, h⟩ := hops _ hadmin
  cases h

theorem setRewardShareBps_ok {bps : ℕ} (h : setRewardShareBps env bps s = .ok s') :
    BookStep s s' .idle := by
  simp only [setRewardShareBps, bind_eq_ok, require_eq_ok, pure_eq_ok] at h
  obtain ⟨_, -, _, -, rfl⟩ := h
  refine .idle ⟨rfl, ?_, rfl, ⟨rfl, rfl, rfl, rfl⟩, ?_, ?_⟩ rfl
  · intro delegator agent
    simp only [State.entry, State.emit_delegations, State.setPool_delegations, State.emit_agentPools,
      State.setPool_agentPools, Function.update_apply]
    split_ifs with hag
    · subst hag
      rfl
    · rfl
  · intro g
    simp [Event.claimed]
  · intro g
    simp [Event.backer]

theorem execAdmin_ok {c : AdminCall} (h : execAdmin env c s = .ok s') :
    SameBooks s s' ∧ (0 < s.minDelegation → 0 < s'.minDelegation) ∧
      ((∀ t, c ≠ .setGuardToken t) → s'.guardToken = s.guardToken) := by
  simp only [execAdmin, bind_eq_ok, modifier_eq_ok] at h
  obtain ⟨_, -, h⟩ := h
  cases c <;> simp only [bind_eq_ok, modifier_eq_ok, require_eq_ok, pure_eq_ok, exists_const] at h
  case setGuardToken guardToken =>
    obtain ⟨-, rfl⟩ := h
    exact ⟨⟨rfl, fun _ _ => rfl, rfl, ⟨rfl, rfl, rfl, rfl⟩, fun _ => rfl, fun _ => rfl⟩, id,
      fun hne => absurd rfl (hne guardToken)⟩
  case setMinDelegation amount =>
    obtain ⟨hpos, rfl⟩ := h
    exact ⟨⟨rfl, fun _ _ => rfl, rfl, ⟨rfl, rfl, rfl, rfl⟩, fun _ => rfl, fun _ => rfl⟩,
      fun _ => hpos, fun _ => rfl⟩
  all_goals
    first
    | subst h
    | obtain ⟨-, rfl⟩ := h
    exact ⟨⟨rfl, fun _ _ => rfl, rfl, ⟨rfl, rfl, rfl, rfl⟩, fun _ => rfl, fun _ => rfl⟩, id,
      fun _ => rfl⟩

end AuditGuard.DelegatedStaking
