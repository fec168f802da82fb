import AuditGuard.DelegatedStaking.Solvency

/-!
# Claiming rewards

`claimRewards` is guarded by the record's `active` flag, and the flag falls when a record has no amount
left, whatever its reward. So a reward is claimable exactly while the delegation holds something.

## Claiming all rewards at once

`claimAllRewards` against `claimRewards` for one agent after the other (`claimAllRewards_alike_iff`).
-/

namespace AuditGuard.DelegatedStaking

section

open Evm

variable {dep : Deployment} {env : Env} {agent : Address} {w : World}

theorem executeClaimRewards_isOk {s : State} (hs : SoundPools s)
    (hactive : (s.delegations (delegationKey env.sender agent)).active = true)
    (hpos : 0 < s.claimable env.sender agent) :
    ∃ s', executeClaimRewards env agent s = .ok (s.claimable env.sender agent, s') ∧
      s'.settings = s.settings := by
  rw [executeClaimRewards, require_of hactive, ok_bind, hs.settlePending_eq, ok_bind]
  dsimp only
  rw [require_of hpos]
  exact ⟨_, rfl, rfl⟩

/-- The reward of the caller's delegation is paid in full, by a solvent contract and an accepting token,
if and only if the delegation still holds an amount, active or unbonding. -/
theorem claimRewards_pays_iff (hw : (system dep).Reachable w) {reward : ℕ}
    (hreward : claimableReward env.sender agent w.state = .ok reward) (hpos : 0 < reward)
    (hsolvent : reward ≤ w.guard.balance dep.this) (haccepts : env.tokenAccepts = true) :
    (∃ w', claimRewards dep env agent w = .ok w' ∧
      w'.guard.balance = Ledger.moved w.guard.balance dep.this env.sender reward) ↔
    0 < (w.state.delegations (delegationKey env.sender agent)).amount +
      (w.state.delegations (delegationKey env.sender agent)).unbondingAmount := by
  have hs := SoundPools.of_reachable hw
  rw [hs.claimableReward_eq, Except.ok.injEq] at hreward
  subst hreward
  have hiff := (hs.accounting.entry_ok env.sender agent).active_iff
  simp only [State.entry, entryOf] at hiff
  -- A delegation holds something exactly if it is active, and `_executeClaimRewards` asks for that.
  rw [← hiff]
  constructor
  · rintro ⟨w', h, -⟩
    simp only [claimRewards, executeClaimRewards, bind_eq_ok, require_eq_ok, Prod.exists] at h
    obtain ⟨_, _, ⟨_, hactive, -⟩, -⟩ := h
    exact hactive
  · intro hactive
    obtain ⟨state, hclaim, hsettings⟩ := executeClaimRewards_isOk hs hactive hpos
    have hguardToken : state.guardToken = w.state.guardToken :=
      congrArg Settings.guardToken hsettings
    obtain ⟨w', hpay⟩ : ∃ w', transferGuard dep env dep.this env.sender
        (w.state.claimable env.sender agent) { w with state := state } = .ok w' := by
      refine transferGuard_isOk haccepts ?_
      simp only [World.guard, hguardToken] at hsolvent ⊢
      exact hsolvent
    obtain ⟨hstate, -, htransfer⟩ := transferGuard_ok hpay
    refine ⟨w'.emit (.rewardsClaimed env.sender agent (w.state.claimable env.sender agent)), ?_, ?_⟩
    · rw [claimRewards, hclaim, ok_bind]
      dsimp only
      rw [hpay]
      rfl
    · have hbalance := (Ledger.transfer_eq_some htransfer).2
      simp only [World.guard, World.emit, State.emit_guardToken, hstate, hguardToken] at hbalance ⊢
      exact hbalance

/-- Account 2 earns a reward, undelegates everything and completes the undelegation. -/
def leftCalls : List (Env × Call) :=
  rewardedCalls ++ [(sampleEnv 2 2, .requestUndelegate 2 (10 * 10^8)),
    (sampleEnv 2 86402, .completeUndelegate 2)]

/-- While the delegation is open the reward of 1 GUARD is paid. -/
theorem claimRewards_pays_earned : ∃ w, (system sampleDeployment).Reachable w ∧
    ∃ w', claimRewards sampleDeployment (sampleEnv 2 2) 2 w = .ok w' ∧
      w'.guard.balance = Ledger.moved w.guard.balance 1 2 (10^8) := by
  obtain ⟨w, hcalls, hw⟩ := sample_reachable
    (show ∀ call ∈ rewardedCalls, call.1.sender ≠ 1 by decide) rfl
  have hreward := sample_read (fun w => claimableReward 2 2 w.state) hcalls (a := .ok (10^8)) rfl
  have hbalance := sample_read (fun w => w.guard.balance 1) hcalls (a := 11 * 10^8) rfl
  have hamount := sample_read (fun w => (w.state.delegations (2, 2)).amount) hcalls
    (a := 10 * 10^8) rfl
  have hpays : (∃ w', claimRewards sampleDeployment (sampleEnv 2 2) 2 w = .ok w' ∧
      w'.guard.balance = Ledger.moved w.guard.balance 1 2 (10^8)) ↔ _ :=
    claimRewards_pays_iff hw hreward (by norm_num) (hbalance ▸ by norm_num) rfl
  refine ⟨w, hw, hpays.mpr (Nat.add_pos_left ?_ _)⟩
  exact lt_of_lt_of_eq (by norm_num) hamount.symm

/-- The reward that was settled on leaving cannot be claimed. -/
theorem left_reward_unclaimable : ∃ w, (system sampleDeployment).Reachable w ∧
    claimableReward 2 2 w.state = .ok (10^8) ∧ w.guard.balance 1 = 10^8 ∧
      claimRewards sampleDeployment (sampleEnv 2 86403) 2 w =
        .error (.require "DelegatedStaking: no active delegation") := by
  obtain ⟨w, hcalls, hw⟩ := sample_reachable
    (show ∀ call ∈ leftCalls, call.1.sender ≠ 1 by decide) rfl
  exact ⟨w, hw, sample_read (fun w => claimableReward 2 2 w.state) hcalls rfl,
    sample_read (fun w => w.guard.balance 1) hcalls rfl,
    sample_read (fun w => claimRewards sampleDeployment (sampleEnv 2 86403) 2 w) hcalls rfl⟩

end

section

open Evm

variable {dep : Deployment} {env : Env} {s : State} {w w' : World} {agent : Address}

/-! ## The two ways -/

/-- The world after a call, which is the one before if the call reverts. -/
def attempt (call : World → Tx World) (w : World) : World :=
  match call w with
  | .ok w' => w'
  | .error _ => w

/-- A call of `claimRewards` for each of the agents. -/
def claimEach (dep : Deployment) (env : Env) (agents : List Address) (w : World) : World :=
  agents.foldl (fun w agent => attempt (claimRewards dep env agent) w) w

theorem attempt_of_ok {call : World → Tx World} (h : call w = .ok w') : attempt call w = w' := by
  unfold attempt
  rw [h]

theorem attempt_of_error {call : World → Tx World} {e : Revert} (h : call w = .error e) : attempt call w = w := by
  unfold attempt
  rw [h]

/-- The delegation of the caller is open and has a reward. -/
def State.Pays (s : State) (env : Env) (agent : Address) : Prop :=
  (s.delegations (delegationKey env.sender agent)).active = true ∧ 0 < s.claimable env.sender agent

instance (s : State) (env : Env) (agent : Address) : Decidable (s.Pays env agent) := instDecidableAnd

/-- The record after its reward was paid. -/
def State.claimedRecord (s : State) (env : Env) (agent : Address) : Delegation :=
  { s.delegations (delegationKey env.sender agent) with
    pendingRewards := 0
    rewardPerTokenPaid := (s.agentPools agent).rewardPerTokStored
    lastRewardClaimAt := truncate 48 env.timestamp }

/-- The record after `claimRewards`. -/
def State.recordOne (s : State) (env : Env) (agent : Address) : Delegation :=
  if s.Pays env agent then s.claimedRecord env agent else s.delegations (delegationKey env.sender agent)

/-- The record after `claimAllRewards`, which settles one that is open also where it has no reward. -/
def State.recordAll (s : State) (env : Env) (agent : Address) : Delegation :=
  if s.Pays env agent then s.claimedRecord env agent
  else if (s.delegations (delegationKey env.sender agent)).active = true then
    { s.delegations (delegationKey env.sender agent) with
      pendingRewards := 0
      rewardPerTokenPaid := (s.agentPools agent).rewardPerTokStored }
  else s.delegations (delegationKey env.sender agent)

/-- The rewards of some agents. -/
def State.rewards (s : State) (env : Env) (agents : List Address) : ℕ :=
  ((agents.filter fun agent => s.Pays env agent).map (s.claimable env.sender)).sum

/-- The storage in which the caller's records for some agents were written, and their rewards announced. -/
def State.written (s : State) (env : Env) (agents : List Address) (record : Address → Delegation) : State :=
  { s with
    delegations := fun key => if key.1 = env.sender ∧ key.2 ∈ agents then record key.2 else s.delegations key
    log := s.log ++ (agents.filter fun agent => s.Pays env agent).map fun agent =>
      .rewardsClaimed env.sender agent (s.claimable env.sender agent) }

theorem written_nil (record : Address → Delegation) : s.written env [] record = s := by
  simp [State.written]

theorem written_delegations {agents : List Address} {record : Address → Delegation} (hagent : agent ∉ agents) :
    (s.written env agents record).delegations (delegationKey env.sender agent) =
      s.delegations (delegationKey env.sender agent) := if_neg fun h => hagent h.2

theorem written_delegations_snoc (agents : List Address) (record : Address → Delegation) :
    (s.written env (agents ++ [agent]) record).delegations =
      Function.update (s.written env agents record).delegations (delegationKey env.sender agent) (record agent) := by
  funext key
  rw [Function.update_apply]
  split_ifs with hkey
  · subst hkey
    simp [State.written]
  · have hother : ¬ (key.1 = env.sender ∧ key.2 = agent) := fun h => hkey (Prod.ext h.1 h.2)
    simp only [State.written, List.mem_append, List.mem_singleton, and_or_left, hother, or_false]

/-- Only the delegations and the log are written. -/
theorem written_eq (agents : List Address) (record : Address → Delegation) : s.written env agents record = { s with
    delegations := (s.written env agents record).delegations
    log := (s.written env agents record).log } := rfl

theorem written_snoc_of_pays {agents : List Address} {record : Address → Delegation} (h : s.Pays env agent) :
    s.written env (agents ++ [agent]) record =
      ((s.written env agents record).setDelegation (delegationKey env.sender agent) (record agent)).emit
        (.rewardsClaimed env.sender agent (s.claimable env.sender agent)) := by
  have hlog : (s.written env (agents ++ [agent]) record).log =
      (s.written env agents record).log ++ [.rewardsClaimed env.sender agent (s.claimable env.sender agent)] := by
    simp [State.written, List.filter_append, h]
  rw [written_eq, written_delegations_snoc, hlog]
  rfl

theorem written_snoc {agents : List Address} {record : Address → Delegation} (h : ¬ s.Pays env agent) :
    s.written env (agents ++ [agent]) record =
      (s.written env agents record).setDelegation (delegationKey env.sender agent) (record agent) := by
  have hlog : (s.written env (agents ++ [agent]) record).log = (s.written env agents record).log := by
    simp [State.written, List.filter_append, h]
  rw [written_eq, written_delegations_snoc, hlog]
  rfl

theorem written_snoc_of_same {agents : List Address} {record : Address → Delegation} (h : ¬ s.Pays env agent)
    (hagent : agent ∉ agents) (hrecord : record agent = s.delegations (delegationKey env.sender agent)) :
    s.written env (agents ++ [agent]) record = s.written env agents record := by
  have hwritten : (s.written env agents record).delegations (delegationKey env.sender agent) =
      s.delegations (delegationKey env.sender agent) := written_delegations hagent
  rw [written_snoc h, hrecord, ← hwritten]
  unfold State.setDelegation
  rw [Function.update_eq_self]

theorem rewards_snoc (s : State) (env : Env) (agents : List Address) (agent : Address) :
    s.rewards env (agents ++ [agent]) =
      s.rewards env agents + if s.Pays env agent then s.claimable env.sender agent else 0 := by
  unfold State.rewards
  rw [List.filter_append, List.map_append, List.sum_append]
  by_cases h : s.Pays env agent <;> simp [h]

/-! ## All at once -/

theorem claimAgentRewards_written (hs : SoundPools s) {agents : List Address} (hagent : agent ∉ agents) {n : ℕ}
    (hn : n + s.claimable env.sender agent < 2^256) :
    claimAgentRewards env (n, s.written env agents (s.recordAll env)) agent =
      .ok (n + (if s.Pays env agent then s.claimable env.sender agent else 0),
        s.written env (agents ++ [agent]) (s.recordAll env)) := by
  unfold claimAgentRewards
  dsimp only
  rw [written_delegations hagent]
  have hpools : (s.written env agents (s.recordAll env)).agentPools = s.agentPools := rfl
  rw [hpools]
  by_cases hactive : (s.delegations (delegationKey env.sender agent)).active = true
  · rw [if_neg (by simp [hactive]), hs.settlePending_eq, ok_bind]
    dsimp only
    by_cases hzero : s.claimable env.sender agent = 0
    · -- The record is settled, though there is nothing to pay.
      have hpays : ¬ s.Pays env agent := fun h => h.2.ne' hzero
      have hrecord : s.recordAll env agent = { s.delegations (delegationKey env.sender agent) with
          pendingRewards := s.claimable env.sender agent
          rewardPerTokenPaid := (s.agentPools agent).rewardPerTokStored } := by
        unfold State.recordAll
        rw [if_neg hpays, if_pos hactive, hzero]
      rw [if_pos hzero, if_neg hpays, written_snoc hpays, hrecord]
      rfl
    · have hpays : s.Pays env agent := ⟨hactive, Nat.pos_of_ne_zero hzero⟩
      have hrecord : s.recordAll env agent = s.claimedRecord env agent := if_pos hpays
      rw [if_neg hzero, if_pos hpays, checkedAdd_of_lt hn, ok_bind, written_snoc_of_pays hpays, hrecord]
      rfl
  · have hpays : ¬ s.Pays env agent := fun h => hactive h.1
    have hrecord : s.recordAll env agent = s.delegations (delegationKey env.sender agent) := by
      unfold State.recordAll
      rw [if_neg hpays, if_neg hactive]
    rw [if_pos (by simpa using hactive), if_neg hpays, written_snoc_of_same hpays hagent hrecord]
    rfl

theorem rewards_le (hs : SoundPools s) (env : Env) (agents : List Address) :
    s.rewards env agents ≤ agents.length * (2^96 - 1) := by
  unfold State.rewards
  refine (List.sum_le_card_nsmul _ (2^96 - 1) fun x hx => ?_).trans ?_
  · obtain ⟨agent, -, rfl⟩ := List.mem_map.mp hx
    exact Nat.le_sub_one_of_lt (hs.claimable_lt env.sender agent)
  · rw [List.length_map, nsmul_eq_mul]
    exact Nat.mul_le_mul_right _ (List.length_filter_le _ _)

theorem length_le_of_nodup {agents : List Address} (hnodup : agents.Nodup) : agents.length ≤ 2^160 := by
  calc agents.length ≤ Fintype.card Address := hnodup.length_le_card
    _ = 2^160 := by rw [Fintype.card_congr Address.equivFin, Fintype.card_fin]

theorem claimLoop_written (hs : SoundPools s) {agents : List Address} (hnodup : agents.Nodup) :
    agents.foldlM (claimAgentRewards env) (0, s) =
      .ok (s.rewards env agents, s.written env agents (s.recordAll env)) := by
  induction agents using List.reverseRecOn with
  | nil =>
    rw [List.foldlM_nil, written_nil]
    rfl
  | append_singleton agents agent ih =>
    have hlength := length_le_of_nodup hnodup
    rw [List.nodup_append_comm, List.singleton_append] at hnodup
    obtain ⟨hagent, hagents⟩ := List.nodup_cons.mp hnodup
    have hfits : s.rewards env agents + s.claimable env.sender agent < 2^256 := by
      have hbefore := rewards_le hs env agents
      have hlast := hs.claimable_lt env.sender agent
      rw [List.length_append, List.length_singleton] at hlength
      calc s.rewards env agents + s.claimable env.sender agent
          ≤ agents.length * (2^96 - 1) + (2^96 - 1) := Nat.add_le_add hbefore (Nat.le_sub_one_of_lt hlast)
        _ = (agents.length + 1) * (2^96 - 1) := by ring
        _ ≤ 2^160 * (2^96 - 1) := Nat.mul_le_mul_right _ hlength
        _ < 2^256 := by norm_num
    rw [List.foldlM_append, ih hagents, ok_bind, List.foldlM_cons, claimAgentRewards_written hs hagent hfits, ok_bind,
      List.foldlM_nil, rewards_snoc]
    rfl

theorem claimAllRewards_eq (hs : SoundPools w.state) {guard : TokenLedger} (haccepts : env.tokenAccepts = true)
    (htransfer : w.guard.transfer dep.this env.sender (w.state.rewards env (w.state.delegatorAgents env.sender)) =
      some guard) :
    claimAllRewards dep env w = .ok { w with
      state := w.state.written env (w.state.delegatorAgents env.sender) (w.state.recordAll env)
      tokens := Function.update w.tokens w.state.guardToken guard } := by
  unfold claimAllRewards executeClaimAllRewards
  rw [claimLoop_written hs (hs.accounting.agents.nodup env.sender), ok_bind]
  dsimp only
  unfold transferGuard
  dsimp only
  have hguard : World.guard { w with
      state := w.state.written env (w.state.delegatorAgents env.sender) (w.state.recordAll env) } = w.guard := rfl
  rw [if_pos haccepts, hguard, htransfer]
  rfl

theorem claimAllRewards_error (hs : SoundPools w.state)
    (h : env.tokenAccepts = false ∨
      w.guard.balance dep.this < w.state.rewards env (w.state.delegatorAgents env.sender)) :
    ∃ e, claimAllRewards dep env w = .error e := by
  unfold claimAllRewards executeClaimAllRewards
  rw [claimLoop_written hs (hs.accounting.agents.nodup env.sender), ok_bind]
  dsimp only
  cases hpay : transferGuard dep env dep.this env.sender
      (w.state.rewards env (w.state.delegatorAgents env.sender)) { w with
        state := w.state.written env (w.state.delegatorAgents env.sender) (w.state.recordAll env) } with
  | error e => exact ⟨e, rfl⟩
  | ok w' =>
    exfalso
    rcases h with hrefuses | hshort
    · simp [transferGuard, hrefuses, orRevert] at hpay
    · have hle := (Ledger.transfer_eq_some (transferGuard_ok hpay).2.2).1
      exact absurd hle (not_le.mpr hshort)

/-! ## One by one -/

theorem transfer_add {l l₁ l₂ : TokenLedger} {src dst : Address} {m n : ℕ} (hne : src ≠ dst)
    (h₁ : l.transfer src dst m = some l₁) (h₂ : l₁.transfer src dst n = some l₂) :
    l.transfer src dst (m + n) = some l₂ := by
  obtain ⟨hm, hmoved₁⟩ := Ledger.transfer_eq_some h₁
  obtain ⟨hn, hmoved₂⟩ := Ledger.transfer_eq_some h₂
  have hsrc := Ledger.transfer_balance_src h₁ hne
  obtain ⟨l', hl'⟩ := (Ledger.transfer_isSome_iff l src dst (m + n)).mpr (by omega)
  have hbalance : l'.balance = l₂.balance := by
    rw [(Ledger.transfer_eq_some hl').2, hmoved₂, hmoved₁, Ledger.moved_moved _ hne]
  rw [hl']
  obtain ⟨balance, hsupply⟩ := l'
  obtain ⟨balance₂, hsupply₂⟩ := l₂
  dsimp only at hbalance
  subst hbalance
  rfl

theorem executeClaimRewards_written (hs : SoundPools s) {agents : List Address} (hagent : agent ∉ agents)
    (hpays : s.Pays env agent) :
    executeClaimRewards env agent (s.written env agents (s.recordOne env)) =
      .ok (s.claimable env.sender agent,
        (s.written env agents (s.recordOne env)).setDelegation (delegationKey env.sender agent)
          (s.recordOne env agent)) := by
  unfold executeClaimRewards
  dsimp only
  have hpools : (s.written env agents (s.recordOne env)).agentPools = s.agentPools := rfl
  have hrecord : s.recordOne env agent = s.claimedRecord env agent := if_pos hpays
  rw [written_delegations hagent, hpools, require_of hpays.1, ok_bind, hs.settlePending_eq, ok_bind,
    require_of hpays.2, ok_bind, hrecord]
  rfl

theorem executeClaimRewards_error (hs : SoundPools s) {agents : List Address} (hagent : agent ∉ agents)
    (hpays : ¬ s.Pays env agent) :
    ∃ e, executeClaimRewards env agent (s.written env agents (s.recordOne env)) = .error e := by
  cases hclaim : executeClaimRewards env agent (s.written env agents (s.recordOne env)) with
  | error e => exact ⟨e, rfl⟩
  | ok result =>
    exfalso
    have hpools : (s.written env agents (s.recordOne env)).agentPools = s.agentPools := rfl
    simp only [executeClaimRewards, written_delegations hagent, hpools, bind_eq_ok, require_eq_ok] at hclaim
    obtain ⟨_, hactive, d, hsettle, _, hpositive, -⟩ := hclaim
    rw [hs.settlePending_eq, Except.ok.injEq] at hsettle
    rw [← hsettle] at hpositive
    exact hpays ⟨hactive, hpositive⟩

/-- A contract that has all rewards pays them one by one. -/
theorem claimEach_eq (hs : SoundPools w.state) (hsender : env.sender ≠ dep.this) (haccepts : env.tokenAccepts = true)
    {agents : List Address} (hnodup : agents.Nodup) (hcovered : w.state.rewards env agents ≤ w.guard.balance dep.this) :
    ∃ guard, w.guard.transfer dep.this env.sender (w.state.rewards env agents) = some guard ∧
      claimEach dep env agents w = { w with
        state := w.state.written env agents (w.state.recordOne env)
        tokens := Function.update w.tokens w.state.guardToken guard } := by
  induction agents using List.reverseRecOn with
  | nil =>
    refine ⟨w.guard, Ledger.transfer_zero _ _ _, ?_⟩
    have htokens : Function.update w.tokens w.state.guardToken w.guard = w.tokens := Function.update_eq_self _ _
    rw [written_nil, htokens]
    rfl
  | append_singleton agents agent ih =>
    rw [List.nodup_append_comm, List.singleton_append] at hnodup
    obtain ⟨hagent, hagents⟩ := List.nodup_cons.mp hnodup
    rw [rewards_snoc] at hcovered ⊢
    obtain ⟨guard, hguard, heach⟩ := ih hagents (by omega)
    have heach' : claimEach dep env (agents ++ [agent]) w =
        attempt (claimRewards dep env agent) (claimEach dep env agents w) := by
      unfold claimEach
      rw [List.foldl_append]
      rfl
    rw [heach', heach]
    by_cases hpays : w.state.Pays env agent
    · rw [if_pos hpays] at hcovered ⊢
      -- What is left covers this reward.
      have hleft := Ledger.transfer_balance_src hguard hsender.symm
      obtain ⟨guard', hguard'⟩ := (Ledger.transfer_isSome_iff guard dep.this env.sender
        (w.state.claimable env.sender agent)).mpr (by omega)
      refine ⟨guard', transfer_add hsender.symm hguard hguard', attempt_of_ok ?_⟩
      unfold claimRewards
      rw [executeClaimRewards_written hs hagent hpays, ok_bind, written_snoc_of_pays hpays]
      unfold transferGuard
      dsimp only [World.guard]
      have htoken : ((w.state.written env agents (w.state.recordOne env)).setDelegation
          (delegationKey env.sender agent) (w.state.recordOne env agent)).guardToken = w.state.guardToken := rfl
      have htokens : Function.update (Function.update w.tokens w.state.guardToken guard) w.state.guardToken guard' =
          Function.update w.tokens w.state.guardToken guard' := Function.update_idem _ _ _
      rw [htoken, Function.update_self, if_pos haccepts, hguard', ← htokens]
      rfl
    · rw [if_neg hpays, Nat.add_zero] at hcovered ⊢
      refine ⟨guard, hguard, ?_⟩
      obtain ⟨e, herror⟩ := executeClaimRewards_error hs hagent hpays
      have hreverts : ∀ w', w'.state = w.state.written env agents (w.state.recordOne env) →
          claimRewards dep env agent w' = .error e := by
        intro w' hw'
        unfold claimRewards
        rw [hw', herror]
        rfl
      rw [attempt_of_error (hreverts _ rfl), written_snoc_of_same hpays hagent (if_neg hpays)]

theorem claimRewards_balance (hsender : env.sender ≠ dep.this) (h : claimRewards dep env agent w = .ok w') :
    w.guard.balance env.sender < w'.guard.balance env.sender ∧ w'.state.guardToken = w.state.guardToken := by
  simp only [claimRewards, executeClaimRewards, bind_eq_ok, require_eq_ok, pure_eq_ok, Prod.exists, Prod.mk.injEq] at h
  obtain ⟨reward, state, ⟨_, -, d, -, _, hpositive, rfl, rfl⟩, w₁, hpay, rfl⟩ := h
  obtain ⟨hstate, -, htransfer⟩ := transferGuard_ok hpay
  have hdst := Ledger.transfer_balance_dst htransfer hsender.symm
  refine ⟨lt_of_lt_of_eq (Nat.lt_add_of_pos_right hpositive) hdst.symm, ?_⟩
  simp only [World.emit, State.emit_guardToken, hstate, State.setDelegation_guardToken]

theorem le_claimEach (hsender : env.sender ≠ dep.this) (agents : List Address) (w : World) :
    w.guard.balance env.sender ≤ (claimEach dep env agents w).guard.balance env.sender := by
  induction agents generalizing w with
  | nil => exact le_rfl
  | cons agent agents ih =>
    refine le_trans ?_ (ih (attempt (claimRewards dep env agent) w))
    cases hclaim : claimRewards dep env agent w with
    | error e => rw [attempt_of_error hclaim]
    | ok w' =>
      rw [attempt_of_ok hclaim]
      exact (claimRewards_balance hsender hclaim).1.le

theorem claimEach_guardToken (hsender : env.sender ≠ dep.this) (agents : List Address) (w : World) :
    (claimEach dep env agents w).state.guardToken = w.state.guardToken := by
  induction agents generalizing w with
  | nil => rfl
  | cons agent agents ih =>
    refine (ih (attempt (claimRewards dep env agent) w)).trans ?_
    cases hclaim : claimRewards dep env agent w with
    | error e => rw [attempt_of_error hclaim]
    | ok w' =>
      rw [attempt_of_ok hclaim]
      exact (claimRewards_balance hsender hclaim).2

theorem claimRewards_isOk (hs : SoundPools w.state) (haccepts : env.tokenAccepts = true)
    (hpays : w.state.Pays env agent) (hcovered : w.state.claimable env.sender agent ≤ w.guard.balance dep.this) :
    ∃ w', claimRewards dep env agent w = .ok w' := by
  have hclaim := executeClaimRewards_written hs (List.not_mem_nil (a := agent)) hpays
  rw [written_nil] at hclaim
  obtain ⟨w', hpay⟩ : ∃ w', transferGuard dep env dep.this env.sender (w.state.claimable env.sender agent) { w with
      state := w.state.setDelegation (delegationKey env.sender agent) (w.state.recordOne env agent) } = .ok w' :=
    transferGuard_isOk haccepts hcovered
  refine ⟨w'.emit (.rewardsClaimed env.sender agent (w.state.claimable env.sender agent)), ?_⟩
  rw [claimRewards, hclaim, ok_bind]
  dsimp only
  rw [hpay]
  rfl

theorem lt_claimEach (hs : SoundPools w.state) (hsender : env.sender ≠ dep.this) (haccepts : env.tokenAccepts = true)
    {agents : List Address} (h : ∃ agent ∈ agents, w.state.Pays env agent ∧
      w.state.claimable env.sender agent ≤ w.guard.balance dep.this) :
    w.guard.balance env.sender < (claimEach dep env agents w).guard.balance env.sender := by
  induction agents with
  | nil =>
    obtain ⟨_, hmem, -⟩ := h
    cases hmem
  | cons first agents ih =>
    have heach : claimEach dep env (first :: agents) w =
        claimEach dep env agents (attempt (claimRewards dep env first) w) := rfl
    rw [heach]
    cases hclaim : claimRewards dep env first w with
    | ok w' =>
      rw [attempt_of_ok hclaim]
      exact (claimRewards_balance hsender hclaim).1.trans_le (le_claimEach hsender agents w')
    | error e =>
      -- The world is the same for the others, of which one is paid.
      rw [attempt_of_error hclaim]
      obtain ⟨agent, hmem, hpays, hcovered⟩ := h
      refine ih ⟨agent, ?_, hpays, hcovered⟩
      rcases List.mem_cons.mp hmem with rfl | hmem
      · obtain ⟨w', hw'⟩ := claimRewards_isOk hs haccepts hpays hcovered
        rw [hw'] at hclaim
        cases hclaim
      · exact hmem

theorem claimEach_eq_self (hs : SoundPools w.state) {agents : List Address}
    (h : env.tokenAccepts = false ∨ ∀ agent ∈ agents, w.state.Pays env agent →
      w.guard.balance dep.this < w.state.claimable env.sender agent) :
    claimEach dep env agents w = w := by
  induction agents with
  | nil => rfl
  | cons first agents ih =>
    have heach : claimEach dep env (first :: agents) w =
        claimEach dep env agents (attempt (claimRewards dep env first) w) := rfl
    have hfails : attempt (claimRewards dep env first) w = w := by
      cases hclaim : claimRewards dep env first w with
      | error e => exact attempt_of_error hclaim
      | ok w' =>
        exfalso
        simp only [claimRewards, bind_eq_ok, Prod.exists] at hclaim
        obtain ⟨reward, state, hexecute, w₁, hpay, -⟩ := hclaim
        have hpays : w.state.Pays env first := by
          by_contra hnot
          obtain ⟨e, herror⟩ := executeClaimRewards_error hs (List.not_mem_nil (a := first)) hnot
          rw [written_nil, hexecute] at herror
          cases herror
        have hwritten := executeClaimRewards_written hs (List.not_mem_nil (a := first)) hpays
        rw [written_nil, hexecute, Except.ok.injEq, Prod.mk.injEq] at hwritten
        obtain ⟨rfl, rfl⟩ := hwritten
        rcases h with hrefuses | hshort
        · simp [transferGuard, hrefuses, orRevert] at hpay
        · have hle := (Ledger.transfer_eq_some (transferGuard_ok hpay).2.2).1
          exact absurd hle (not_le.mpr (hshort first List.mem_cons_self hpays))
    rw [heach, hfails]
    refine ih (h.imp_right fun hall agent hagent => hall agent (List.mem_cons_of_mem _ hagent))

/-! ## The comparison -/

/-- `claimAllRewards` does the same as `claimRewards` for one of the `agents` after the other: the same payments and the
same records and pools; and it announces the reward of each delegation at most once. -/
structure Alike (dep : Deployment) (env : Env) (agents : List Address) (w : World) : Prop where
  tokens : (attempt (claimAllRewards dep env) w).tokens = (claimEach dep env agents w).tokens
  delegations : (attempt (claimAllRewards dep env) w).state.delegations = (claimEach dep env agents w).state.delegations
  agentPools : (attempt (claimAllRewards dep env) w).state.agentPools = (claimEach dep env agents w).state.agentPools
  claimed : ∀ agent, claimedOf (attempt (claimAllRewards dep env) w).state.log agent =
    claimedOf (claimEach dep env agents w).state.log agent
  once : ∃ paid : List Address, paid.Nodup ∧ (attempt (claimAllRewards dep env) w).state.log =
    w.state.log ++ paid.map fun agent => .rewardsClaimed env.sender agent (w.state.claimable env.sender agent)

/-- All rewards of the caller. -/
def State.allRewards (s : State) (env : Env) : ℕ :=
  ∑ agent, if (s.delegations (delegationKey env.sender agent)).active = true then s.claimable env.sender agent else 0

/-- The token takes transfers, the contract has all rewards, and no open delegation without a reward has earned anything
since it was settled; or else there is nothing that is paid, since the token refuses, or since the contract has less
than any of the rewards. -/
def ClaimsTogether (dep : Deployment) (env : Env) (w : World) : Prop :=
  env.tokenAccepts = false ∨
    (w.state.allRewards env ≤ w.guard.balance dep.this ∧
      ∀ agent, (w.state.delegations (delegationKey env.sender agent)).active = true →
        w.state.claimable env.sender agent = 0 →
        (w.state.delegations (delegationKey env.sender agent)).rewardPerTokenPaid =
          (w.state.agentPools agent).rewardPerTokStored) ∨
    (w.guard.balance dep.this < w.state.allRewards env ∧ ∀ agent, w.state.Pays env agent →
      w.guard.balance dep.this < w.state.claimable env.sender agent)

theorem rewards_eq_allRewards {agents : List Address} (hnodup : agents.Nodup)
    (h : ∀ agent, s.Pays env agent → agent ∈ agents) : s.rewards env agents = s.allRewards env := by
  classical
  unfold State.rewards State.allRewards
  rw [← List.sum_toFinset _ (hnodup.filter _)]
  refine Finset.sum_subset_zero_on_sdiff (Finset.subset_univ _) (fun agent hagent => ?_) fun agent hagent => ?_
  · have hnot : ¬ s.Pays env agent := fun hpays => by
      simp [h agent hpays, hpays] at hagent
    split_ifs with hactive
    · exact Nat.eq_zero_of_not_pos fun hpositive => hnot ⟨hactive, hpositive⟩
    · rfl
  · have hpays : s.Pays env agent := by
      simp only [List.mem_toFinset, List.mem_filter, decide_eq_true_eq] at hagent
      exact hagent.2
    rw [if_pos hpays.1]

theorem recordAll_eq_recordOne
    (hsettled : (s.delegations (delegationKey env.sender agent)).active = true → s.claimable env.sender agent = 0 →
      (s.delegations (delegationKey env.sender agent)).rewardPerTokenPaid = (s.agentPools agent).rewardPerTokStored) :
    s.recordAll env agent = s.recordOne env agent := by
  unfold State.recordAll State.recordOne
  by_cases hpays : s.Pays env agent
  · rw [if_pos hpays, if_pos hpays]
  · rw [if_neg hpays, if_neg hpays]
    split_ifs with hactive
    · have hzero : s.claimable env.sender agent = 0 :=
        Nat.eq_zero_of_not_pos fun hpositive => hpays ⟨hactive, hpositive⟩
      have hpending : (s.delegations (delegationKey env.sender agent)).pendingRewards = 0 :=
        (Nat.add_eq_zero_iff.mp hzero).1
      rw [← hsettled hactive hzero, ← hpending]
    · rfl

theorem written_eq_recordOne {agents : List Address} {record : Address → Delegation}
    (hagents : ∀ agent, (s.delegations (delegationKey env.sender agent)).active = true → agent ∈ agents)
    (hrecord : ∀ agent, record agent = s.recordOne env agent) :
    (s.written env agents record).delegations = fun key =>
      if key.1 = env.sender then s.recordOne env key.2 else s.delegations key := by
  funext ⟨delegator, agent⟩
  unfold State.written
  dsimp only
  by_cases hdelegator : delegator = env.sender
  · subst hdelegator
    rw [if_pos rfl]
    split_ifs with hmem
    · exact hrecord agent
    · have hpays : ¬ s.Pays env agent := fun h => hmem ⟨rfl, hagents agent h.1⟩
      exact (if_neg hpays).symm
  · rw [if_neg hdelegator, if_neg fun h => hdelegator h.1]

theorem claimedOf_written {agents agents' : List Address} {record record' : Address → Delegation}
    (hnodup : agents.Nodup) (hnodup' : agents'.Nodup) (h : ∀ agent, s.Pays env agent → agent ∈ agents)
    (h' : ∀ agent, s.Pays env agent → agent ∈ agents') (agent : Address) :
    claimedOf (s.written env agents record).log agent = claimedOf (s.written env agents' record').log agent := by
  have hperm : (agents.filter fun agent => s.Pays env agent).Perm (agents'.filter fun agent => s.Pays env agent) := by
    rw [List.perm_ext_iff_of_nodup (hnodup.filter _) (hnodup'.filter _)]
    intro g
    simp only [List.mem_filter, decide_eq_true_eq]
    exact ⟨fun hg => ⟨h' g hg.2, hg.2⟩, fun hg => ⟨h g hg.2, hg.2⟩⟩
  unfold claimedOf State.written
  dsimp only
  rw [List.map_append, List.sum_append, List.map_append, List.sum_append]
  rw [((hperm.map _).map (Event.claimed agent)).sum_eq]

/-- `claimAllRewards` does the same as `claimRewards` for each agent that the caller delegates to, in any order, exactly
if the rewards can be claimed together. -/
theorem claimAllRewards_alike_iff (hw : (system dep).Reachable w) (hsender : env.sender ≠ dep.this)
    {agents : List Address} (hnodup : agents.Nodup)
    (hagents : ∀ agent, agent ∈ agents ↔ (w.state.delegations (delegationKey env.sender agent)).active = true) :
    Alike dep env agents w ↔ ClaimsTogether dep env w := by
  have hs := SoundPools.of_reachable hw
  have hdistinct := hs.accounting.agents.nodup env.sender
  have hlisted : ∀ agent, (w.state.delegations (delegationKey env.sender agent)).active = true →
      agent ∈ w.state.delegatorAgents env.sender := fun agent hactive =>
    (hs.accounting.active_listed env.sender agent hactive).1
  have hall := rewards_eq_allRewards hdistinct fun agent (hpays : w.state.Pays env agent) => hlisted agent hpays.1
  have heach := rewards_eq_allRewards hnodup fun agent (hpays : w.state.Pays env agent) => (hagents agent).mpr hpays.1
  constructor
  · intro h
    by_cases haccepts : env.tokenAccepts = true
    · rcases le_or_gt (w.state.allRewards env) (w.guard.balance dep.this) with hcovered | hshort
      · refine .inr (.inl ⟨hcovered, fun agent hactive hzero => ?_⟩)
        obtain ⟨guard, hguard⟩ := (Ledger.transfer_isSome_iff w.guard dep.this env.sender _).mpr (hall ▸ hcovered)
        obtain ⟨guard', -, hclaims⟩ := claimEach_eq hs hsender haccepts hnodup (heach ▸ hcovered)
        have hrecords := h.delegations
        rw [attempt_of_ok (claimAllRewards_eq hs haccepts hguard), hclaims] at hrecords
        have hrecord := congrFun hrecords (delegationKey env.sender agent)
        -- The record is settled on the left, and left alone on the right.
        have hleft : (w.state.written env (w.state.delegatorAgents env.sender) (w.state.recordAll env)).delegations
            (delegationKey env.sender agent) = w.state.recordAll env agent := if_pos ⟨rfl, hlisted agent hactive⟩
        have hright : (w.state.written env agents (w.state.recordOne env)).delegations
            (delegationKey env.sender agent) = w.state.recordOne env agent := if_pos ⟨rfl, (hagents agent).mpr hactive⟩
        have hpays : ¬ w.state.Pays env agent := fun hpays => hpays.2.ne' hzero
        dsimp only at hrecord
        rw [hleft, hright, State.recordAll, State.recordOne, if_neg hpays, if_neg hpays, if_pos hactive] at hrecord
        exact (congrArg Delegation.rewardPerTokenPaid hrecord).symm
      · refine .inr (.inr ⟨hshort, fun agent hpays => ?_⟩)
        by_contra hle
        obtain ⟨e, herror⟩ := claimAllRewards_error hs (.inr (hall ▸ hshort))
        have htokens := h.tokens
        rw [attempt_of_error herror] at htokens
        have hless := lt_claimEach hs hsender haccepts
          ⟨agent, (hagents agent).mpr hpays.1, hpays, not_lt.mp hle⟩
        unfold World.guard at hless
        rw [← htokens, claimEach_guardToken hsender] at hless
        exact lt_irrefl _ hless
    · exact .inl (by simpa using haccepts)
  · have hnothing : (∃ e, claimAllRewards dep env w = .error e) → claimEach dep env agents w = w →
        Alike dep env agents w := by
      rintro ⟨e, herror⟩ hclaims
      have hattempt := attempt_of_error herror
      constructor
      · rw [hattempt, hclaims]
      · rw [hattempt, hclaims]
      · rw [hattempt, hclaims]
      · rw [hattempt, hclaims]
        exact fun _ => rfl
      · exact ⟨[], List.nodup_nil, by rw [hattempt]; simp⟩
    rintro (hrefuses | ⟨hcovered, hsettled⟩ | ⟨hshort, hnone⟩)
    · exact hnothing (claimAllRewards_error hs (.inl hrefuses)) (claimEach_eq_self hs (.inl hrefuses))
    · by_cases haccepts : env.tokenAccepts = true
      · obtain ⟨guard, hguard⟩ := (Ledger.transfer_isSome_iff w.guard dep.this env.sender _).mpr (hall ▸ hcovered)
        have hattempt := attempt_of_ok (claimAllRewards_eq hs haccepts hguard)
        obtain ⟨guard', hguard', hclaims⟩ := claimEach_eq hs hsender haccepts hnodup (heach ▸ hcovered)
        rw [heach, ← hall, hguard] at hguard'
        obtain rfl := Option.some.inj hguard'
        constructor
        · rw [hattempt, hclaims]
        · rw [hattempt, hclaims]
          dsimp only
          rw [written_eq_recordOne hlisted fun agent => recordAll_eq_recordOne (hsettled agent),
            written_eq_recordOne (fun agent => (hagents agent).mpr) fun _ => rfl]
        · rw [hattempt, hclaims]
          rfl
        · rw [hattempt, hclaims]
          exact claimedOf_written hdistinct hnodup (fun agent hpays => hlisted agent hpays.1)
            fun agent hpays => (hagents agent).mpr hpays.1
        · exact ⟨_, hdistinct.filter _, by rw [hattempt]; rfl⟩
      · have hrefuses : env.tokenAccepts = false := by simpa using haccepts
        exact hnothing (claimAllRewards_error hs (.inl hrefuses)) (claimEach_eq_self hs (.inl hrefuses))
    · exact hnothing (claimAllRewards_error hs (.inr (hall ▸ hshort)))
        (claimEach_eq_self hs (.inr fun agent _ hpays => hnone agent hpays))

/-- A delegation of 30 GUARD, and a reward of one unit for it, which rounds to zero. -/
def dustCalls : List (Env × Call) :=
  [(sampleEnv 2 0, .delegate 2 (30 * 10^8)), (sampleEnv 2 1, .distributeRewards 2 10)]

theorem sample_agents {calls : List (Env × Call)} {w : World}
    (hcalls : execAll sampleDeployment calls sampleWorld = .ok w)
    (hw : (system sampleDeployment).Reachable w)
    (hlist : (execAll sampleDeployment calls sampleWorld).map (fun w => w.state.delegatorAgents 2) = .ok [2])
    (hactive : (execAll sampleDeployment calls sampleWorld).map (fun w => (w.state.delegations (2, 2)).active) =
      .ok true) (agent : Address) :
    agent ∈ [(2 : Address)] ↔ (w.state.delegations (delegationKey 2 agent)).active = true := by
  have hlisted := sample_read (fun w => w.state.delegatorAgents 2) hcalls hlist
  constructor
  · intro hmem
    rw [List.mem_singleton.mp hmem]
    exact sample_read (fun w => (w.state.delegations (2, 2)).active) hcalls hactive
  · intro h
    rw [← hlisted]
    exact ((SoundPools.of_reachable hw).accounting.active_listed 2 agent h).1

/-- A reward of 1 GUARD is claimed either way. -/
theorem claimAllRewards_alike : ∃ w, (system sampleDeployment).Reachable w ∧
    Alike sampleDeployment (sampleEnv 2 2) [2] w := by
  obtain ⟨w, hcalls, hw⟩ := sample_reachable
    (show ∀ call ∈ rewardedCalls, call.1.sender ≠ 1 by decide) rfl
  have hagents := sample_agents hcalls hw rfl rfl
  have hrewards := sample_read (fun w => w.state.rewards (sampleEnv 2 2) [2]) hcalls (a := 10^8) rfl
  have hclaimable := sample_read (fun w => w.state.claimable 2 2) hcalls (a := 10^8) rfl
  have hbalance := sample_read (fun w => w.guard.balance 1) hcalls (a := 11 * 10^8) rfl
  have hall : w.state.rewards (sampleEnv 2 2) [2] = w.state.allRewards (sampleEnv 2 2) :=
    rewards_eq_allRewards (List.nodup_singleton 2) fun agent hpays => (hagents agent).mpr hpays.1
  refine ⟨w, hw, (claimAllRewards_alike_iff hw (by decide) (List.nodup_singleton 2) hagents).mpr (.inr (.inl ⟨?_, ?_⟩))⟩
  · rw [← hall]
    change w.state.rewards (sampleEnv 2 2) [2] ≤ w.guard.balance 1
    rw [hrewards, hbalance]
    norm_num
  · intro agent hactive hzero
    rw [List.mem_singleton.mp ((hagents agent).mpr hactive)] at hzero
    have hzero : w.state.claimable 2 2 = 0 := hzero
    rw [hclaimable] at hzero
    cases hzero

/-- After `dustCalls`, `claimRewards` reverts, and `claimAllRewards` moves the checkpoint all the same. -/
theorem not_alike : ∃ w, (system sampleDeployment).Reachable w ∧
    (∀ agent, agent ∈ [(2 : Address)] ↔ (w.state.delegations (delegationKey 2 agent)).active = true) ∧
    (attempt (claimAllRewards sampleDeployment (sampleEnv 2 2)) w).state.delegations ≠
      (claimEach sampleDeployment (sampleEnv 2 2) [2] w).state.delegations := by
  obtain ⟨w, hcalls, hw⟩ := sample_reachable
    (show ∀ call ∈ dustCalls, call.1.sender ≠ 1 by decide) rfl
  refine ⟨w, hw, sample_agents hcalls hw rfl rfl, fun heq => ?_⟩
  have hall := sample_read (fun w => ((attempt (claimAllRewards sampleDeployment (sampleEnv 2 2)) w).state.delegations
    (2, 2)).rewardPerTokenPaid) hcalls (a := 333333333333333333333) rfl
  have hone := sample_read (fun w => ((claimEach sampleDeployment (sampleEnv 2 2) [2] w).state.delegations
    (2, 2)).rewardPerTokenPaid) hcalls (a := 0) rfl
  rw [heq, hone] at hall
  cases hall

end

end AuditGuard.DelegatedStaking
