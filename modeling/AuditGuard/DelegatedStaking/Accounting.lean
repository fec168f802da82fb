import Mathlib.Data.Fintype.BigOperators
import AuditGuard.DelegatedStaking.Calls

/-!
# Pool accounting

The invariant of the tallies: each pool's `totalDelegated` and `delegatorCount` are the sum and the
count over its records, `totalDelegatedAllAgents` is the sum over the pools, a record is active when
it holds anything, the lists have every active record once, and no checkpoint is ahead of its
accumulator. It is proved of one record's step first (`RecordStep.balanced`), where it is arithmetic
about one `Entry`, and carried to the sums from there.
-/

namespace AuditGuard.DelegatedStaking

open Evm

/-! ## One record -/

/-- What holds of every entry. -/
structure Entry.Ok (e : Entry) : Prop where
  /-- An active record holds something, and a closed one nothing. -/
  active_iff : e.active = true ↔ 0 < e.amount + e.unbonding
  /-- The checkpoint is not ahead of the accumulator. -/
  paid_le : e.paid ≤ e.stored
  /-- The amounts fit `uint96`. -/
  amount_lt : e.amount < 2^96
  unbonding_lt : e.unbonding < 2^96

/-- An active record counts as one. -/
def Entry.tally (e : Entry) : ℕ := if e.active then 1 else 0

/-- An active record counts as one. -/
def Delegation.tally (d : Delegation) : ℕ := if d.active then 1 else 0

/-- A step of a record moves its pool's tallies, and the total `all` over the pools, by what it moves
the record, and keeps what holds of the entry. -/
theorem RecordStep.balanced {e e' : Entry} {op : RecordOp} {all : ℕ} (h : RecordStep e op e')
    (hok : e.Ok) (htotal : e.amount ≤ e.total) (hcount : e.tally ≤ e.count) (hall : e.total ≤ all)
    (hcount_lt : e.count < 2^32) :
    e'.Ok ∧ e'.total + e.amount = e.total + e'.amount ∧
      e'.count + e.tally = e.count + e'.tally ∧ op.retotal all + e.total = all + e'.total ∧
      e'.count < 2^32 := by
  obtain ⟨hactive, hpaid, hamount, hunbonding⟩ := hok
  cases h with
  | deposit x v hx hv ht hc =>
    refine ⟨⟨iff_of_true rfl (by dsimp only; omega), le_rfl, by dsimp only; omega, hunbonding⟩,
      ?_, ?_, ?_, ?_⟩
    · dsimp only
      omega
    · simp only [Entry.tally]
      split_ifs <;> rfl
    · simp only [RecordOp.retotal]
      omega
    · dsimp only
      split_ifs with ha
      · exact hcount_lt
      · exact hc (by simpa using ha)
  | unbond x v ha hu hpos hx hv =>
    refine ⟨⟨iff_of_true ha (by dsimp only; omega), le_rfl, by dsimp only; omega,
      by dsimp only; omega⟩, ?_, rfl, ?_, hcount_lt⟩
    · dsimp only
      omega
    · simp only [RecordOp.retotal]
      omega
  -- What was unbonding was out of the pool's total already.
  | complete ha hu =>
    refine ⟨⟨?_, hpaid, hamount, by norm_num⟩, rfl, ?_, rfl, ?_⟩
    · simp only [Nat.add_zero, decide_eq_true_eq]
      omega
    · simp only [Entry.tally, ha, if_true] at hcount ⊢
      split_ifs <;> simp_all
    · dsimp only
      split_ifs <;> omega
  | claim v ha hv => exact ⟨⟨hactive, le_rfl, hamount, hunbonding⟩, rfl, rfl, rfl, hcount_lt⟩
  | slash a u ha hpos hax hux =>
    refine ⟨⟨?_, hpaid, by dsimp only; omega, by dsimp only; omega⟩, ?_, ?_, ?_, ?_⟩
    · simp only [Bool.not_eq_true', decide_eq_false_iff_not]
      omega
    · dsimp only
      omega
    · simp only [Entry.tally, ha, if_true] at hcount ⊢
      split_ifs <;> simp_all
    · simp only [RecordOp.retotal]
      omega
    · dsimp only
      split_ifs <;> omega

/-! ## Subtractions -/

theorem settlePending_ne_underflow {d : Delegation} {pool : AgentDelegationPool}
    (h : d.rewardPerTokenPaid ≤ pool.rewardPerTokStored) :
    settlePending d pool ≠ .error .underflow := by
  intro herr
  simp only [settlePending, computePending, bind_eq_error, pure_ne_error, or_false, and_false,
    exists_false] at herr
  rcases herr with herr | ⟨v, -, herr⟩
  · split_ifs at herr
    · exact pure_ne_error herr
    · simp only [bind_eq_error, checkedSub_eq_error] at herr
      rcases herr with ⟨herr, -⟩ | ⟨_, -, herr⟩
      · omega
      · split_ifs at herr
        · exact pure_ne_error herr
        · simp only [bind_eq_error, checkedMul_eq_error, pure_ne_error, reduceCtorEq, and_false,
            exists_false, or_false] at herr
  · split_ifs at herr
    · simp only [checkedAdd_eq_error, reduceCtorEq, and_false] at herr
    · exact pure_ne_error herr

theorem unbondRemainder_ne_underflow {min all : ℕ} {d : Delegation} {pool : AgentDelegationPool}
    (htotal : d.amount ≤ pool.totalDelegated) (hall : d.amount ≤ all) :
    unbondRemainder min d pool all ≠ .error .underflow := by
  intro herr
  unfold unbondRemainder at herr
  split_ifs at herr
  · simp only [bind_eq_error, checkedAdd_eq_error, checkedSub_eq_error, pure_ne_error, reduceCtorEq,
      and_false, exists_false, or_false, false_or, and_true] at herr
    rcases herr with ⟨_, -, herr | ⟨_, -, herr⟩⟩ <;> omega
  · exact pure_ne_error herr

theorem slashShare_le {amount bps a : ℕ} (h : slashShare amount bps = .ok a) : a ≤ amount := by
  simp only [slashShare, bind_eq_ok, pure_eq_ok] at h
  obtain ⟨_, -, rfl⟩ := h
  split_ifs <;> omega

/-! ## All records -/

/-- The invariant of the tallies and the lists. -/
structure Accounting (s : State) : Prop where
  entry_ok : ∀ d g, (s.entry d g).Ok
  total_eq : ∀ g, (s.agentPools g).totalDelegated = ∑ d, (s.delegations (d, g)).amount
  count_eq : ∀ g, (s.agentPools g).delegatorCount = ∑ d, (s.delegations (d, g)).tally
  count_lt : ∀ g, (s.agentPools g).delegatorCount < 2^32
  all_eq : s.totalDelegatedAllAgents = ∑ g, (s.agentPools g).totalDelegated
  agents : PushOnce.Flagged s.delegatorAgents s.inDelegatorAgents
  delegators : PushOnce.Flagged s.agentDelegators s.inAgentDelegators
  active_listed : ∀ d g, (s.delegations (d, g)).active = true →
    g ∈ s.delegatorAgents d ∧ d ∈ s.agentDelegators g

variable {s s' : State}

theorem RecordChange.sum_column {d g : Address} {op : RecordOp} (h : RecordChange s s' d g op)
    (f : Delegation → ℕ) :
    ∑ j, f (s'.delegations (j, g)) + f (s.delegations (d, g)) =
      ∑ j, f (s.delegations (j, g)) + f (s'.delegations (d, g)) := by
  have hsum := Sums.sum_update_column s.delegations d g (s'.delegations (d, g)) f
  rwa [← h.delegations] at hsum

theorem RecordChange.sum_other_column {d g g' : Address} {op : RecordOp}
    (h : RecordChange s s' d g op) (hg : g' ≠ g) (f : Delegation → ℕ) :
    ∑ j, f (s'.delegations (j, g')) = ∑ j, f (s.delegations (j, g')) := by
  have hsum := Sums.sum_update_other_column s.delegations d hg (s'.delegations (d, g)) f
  rwa [← h.delegations] at hsum

namespace Accounting

theorem amount_le_total (hs : Accounting s) (d g : Address) :
    (s.entry d g).amount ≤ (s.entry d g).total := by
  have hsum := Finset.single_le_sum_of_canonicallyOrdered
    (f := fun d => (s.delegations (d, g)).amount) (Finset.mem_univ d)
  rw [← hs.total_eq g] at hsum
  exact hsum

theorem tally_le_count (hs : Accounting s) (d g : Address) :
    (s.entry d g).tally ≤ (s.entry d g).count := by
  have hsum := Finset.single_le_sum_of_canonicallyOrdered
    (f := fun d => (s.delegations (d, g)).tally) (Finset.mem_univ d)
  rw [← hs.count_eq g] at hsum
  exact hsum

theorem total_le_all (hs : Accounting s) (g : Address) :
    (s.agentPools g).totalDelegated ≤ s.totalDelegatedAllAgents := by
  rw [hs.all_eq]
  exact Finset.single_le_sum_of_canonicallyOrdered
    (f := fun g => (s.agentPools g).totalDelegated) (Finset.mem_univ g)

theorem lists_of_record {d g : Address} {op : RecordOp} (hs : Accounting s)
    (h : SameLists (s.relisted d g op) s') :
    PushOnce.Flagged s'.delegatorAgents s'.inDelegatorAgents ∧
      PushOnce.Flagged s'.agentDelegators s'.inAgentDelegators := by
  rw [h.delegatorAgents, h.inDelegatorAgents, h.agentDelegators, h.inAgentDelegators, State.relisted]
  split_ifs
  · exact ⟨hs.agents.push d g, hs.delegators.push g d⟩
  · exact ⟨hs.agents, hs.delegators⟩

theorem mem_lists_of_record {d g : Address} {op : RecordOp} (hs : Accounting s)
    (h : SameLists (s.relisted d g op) s') (d' g' : Address) :
    (g' ∈ s'.delegatorAgents d' ↔ g' ∈ s.delegatorAgents d' ∨
      (op.isDeposit ∧ (s.entry d g).active = false) ∧ d' = d ∧ g' = g) ∧
    (d' ∈ s'.agentDelegators g' ↔ d' ∈ s.agentDelegators g' ∨
      (op.isDeposit ∧ (s.entry d g).active = false) ∧ g' = g ∧ d' = d) := by
  rw [h.delegatorAgents, h.agentDelegators, State.relisted]
  split_ifs with hopens
  · simp only [hopens, and_self, true_and]
    exact ⟨hs.agents.mem_push d g d' g', hs.delegators.mem_push g d g' d'⟩
  · simp only [hopens, false_and, or_false, and_self]

/-- A step of a record keeps the accounting. -/
theorem record {d g : Address} {op : RecordOp} (hs : Accounting s)
    (h : RecordChange s s' d g op) : Accounting s' := by
  obtain ⟨hok, htotal, hcount, hall, hcount_lt⟩ := h.step.balanced (hs.entry_ok d g)
    (hs.amount_le_total d g) (hs.tally_le_count d g) (hs.total_le_all g) (hs.count_lt g)
  obtain ⟨hstored, -⟩ := h.step.accumulator
  obtain ⟨hagents, hdelegators⟩ := hs.lists_of_record h.lists
  constructor
  case entry_ok =>
    intro d' g'
    rcases eq_or_ne (d', g') (d, g) with heq | hne
    · cases heq
      exact hok
    · -- Another record is as it was, and its accumulator has not moved.
      obtain ⟨hactive, hpaid, hamount, hunbonding⟩ := hs.entry_ok d' g'
      have hd := h.delegations_of_ne hne
      have hst : (s'.agentPools g').rewardPerTokStored = (s.agentPools g').rewardPerTokStored := by
        rcases eq_or_ne g' g with rfl | hg
        · exact hstored
        · rw [h.agentPools_of_ne hg]
      simp only [State.entry, entryOf] at hactive hpaid hamount hunbonding
      constructor <;> simp only [State.entry, entryOf, hd, hst]
      · exact hactive
      · exact hpaid
      · exact hamount
      · exact hunbonding
  case total_eq =>
    intro g'
    rcases eq_or_ne g' g with rfl | hg
    · -- Both sides move by what the record moves.
      have hsum := h.sum_column Delegation.amount
      have hold := hs.total_eq g'
      simp only [State.entry, entryOf] at htotal
      omega
    · rw [h.agentPools_of_ne hg, hs.total_eq, h.sum_other_column hg]
  case count_eq =>
    intro g'
    rcases eq_or_ne g' g with rfl | hg
    · have hsum := h.sum_column Delegation.tally
      have hold := hs.count_eq g'
      have hmoved : (s'.agentPools g').delegatorCount + (s.delegations (d, g')).tally =
        (s.agentPools g').delegatorCount + (s'.delegations (d, g')).tally := hcount
      omega
    · rw [h.agentPools_of_ne hg, hs.count_eq, h.sum_other_column hg]
  case count_lt =>
    intro g'
    rcases eq_or_ne g' g with rfl | hg
    · exact hcount_lt
    · rw [h.agentPools_of_ne hg]
      exact hs.count_lt g'
  case all_eq =>
    have hsum := Sums.sum_update s.agentPools g (s'.agentPools g)
      AgentDelegationPool.totalDelegated
    rw [← h.agentPools, ← hs.all_eq] at hsum
    have := h.all
    simp only [State.entry, entryOf] at hall
    omega
  case agents => exact hagents
  case delegators => exact hdelegators
  case active_listed =>
    intro d' g' hactive
    rw [(hs.mem_lists_of_record h.lists d' g').1, (hs.mem_lists_of_record h.lists d' g').2]
    by_cases hold : (s.delegations (d', g')).active = true
    · exact (hs.active_listed d' g' hold).imp .inl .inl
    · -- A record that was closed and is active now was opened by this step.
      have heq : (d', g') = (d, g) := by
        by_contra hne
        rw [h.delegations_of_ne hne] at hactive
        exact hold hactive
      cases heq
      have hopens := h.step.active_or_deposit.resolve_left hold
      have hclosed : (s.entry d g).active = false := Bool.eq_false_iff.mpr hold
      exact ⟨.inr ⟨⟨hopens, hclosed⟩, rfl, rfl⟩, .inr ⟨⟨hopens, hclosed⟩, rfl, rfl⟩⟩

/-- The accounting speaks of the delegations, the totals and the lists only. -/
theorem of_same (hs : Accounting s) (hentry : ∀ d g, (s'.entry d g).Ok) (hdelegations : s'.delegations = s.delegations)
    (hall : s'.totalDelegatedAllAgents = s.totalDelegatedAllAgents) (hlists : SameLists s s')
    (hpool : ∀ g, (s'.agentPools g).totalDelegated = (s.agentPools g).totalDelegated ∧
      (s'.agentPools g).delegatorCount = (s.agentPools g).delegatorCount) : Accounting s' := by
  constructor
  case entry_ok => exact hentry
  case total_eq =>
    intro g
    rw [(hpool g).1, hdelegations, hs.total_eq]
  case count_eq =>
    intro g
    rw [(hpool g).2, hdelegations, hs.count_eq]
  case count_lt =>
    intro g
    rw [(hpool g).2]
    exact hs.count_lt g
  case all_eq =>
    rw [hall, hs.all_eq]
    exact Finset.sum_congr rfl fun g _ => (hpool g).1.symm
  case agents =>
    rw [hlists.delegatorAgents, hlists.inDelegatorAgents]
    exact hs.agents
  case delegators =>
    rw [hlists.agentDelegators, hlists.inAgentDelegators]
    exact hs.delegators
  case active_listed =>
    rw [hdelegations, hlists.delegatorAgents, hlists.agentDelegators]
    exact hs.active_listed

/-- A distribution keeps the accounting. -/
theorem distribution {g : Address} {share : ℕ} (hs : Accounting s)
    (h : Distribution s s' g share) : Accounting s' := by
  -- A distribution only raises the accumulator of one pool.
  have htotal : ∀ g', (s'.agentPools g').totalDelegated = (s.agentPools g').totalDelegated ∧
      (s'.agentPools g').delegatorCount = (s.agentPools g').delegatorCount ∧
      (s.agentPools g').rewardPerTokStored ≤ (s'.agentPools g').rewardPerTokStored := by
    intro g'
    rw [h.agentPools, Function.update_apply]
    split_ifs with hg
    · subst hg
      exact ⟨rfl, rfl, Nat.le_add_right _ _⟩
    · exact ⟨rfl, rfl, le_rfl⟩
  refine hs.of_same (fun d g' => ?_) h.delegations h.all h.lists fun g' => ⟨(htotal g').1, (htotal g').2.1⟩
  obtain ⟨hactive, hpaid, hamount, hunbonding⟩ := hs.entry_ok d g'
  simp only [State.entry, entryOf] at hactive hpaid hamount hunbonding
  constructor <;> simp only [State.entry, entryOf, h.delegations]
  · exact hactive
  · exact hpaid.trans (htotal g').2.2
  · exact hamount
  · exact hunbonding

/-- Books that stay the same keep it. -/
theorem sameBooks (hs : Accounting s) (h : SameBooks s s') : Accounting s' := by
  refine hs.of_same (fun d g => ?_) h.delegations h.all h.lists fun g =>
    ⟨congrArg Entry.total (h.entry 0 g), congrArg Entry.count (h.entry 0 g)⟩
  rw [h.entry]
  exact hs.entry_ok d g

theorem step {op : BookOp} (hs : Accounting s) (h : BookStep s s' op) : Accounting s' := by
  cases h with
  | record h => exact hs.record h
  | distribute h => exact hs.distribution h
  | idle h _ => exact hs.sameBooks h
  | admin h => exact hs.sameBooks h

theorem fresh (deployer guardToken treasury : Address) :
    Accounting (State.fresh deployer guardToken treasury) := by
  refine ⟨fun _ _ => ⟨?_, le_rfl, ?_, ?_⟩, ?_, ?_, ?_, ?_, .empty, .empty, ?_⟩ <;>
    simp [State.fresh, State.entry, entryOf, Delegation.zero, AgentDelegationPool.zero,
      Delegation.tally]

theorem of_reachable {dep : Deployment} {w : World} (hw : (system dep).Reachable w) :
    Accounting w.state :=
  reachable_books fresh (fun _ _ _ => step) hw

theorem requestUndelegate_ne_underflow (hs : Accounting s) (env : Env) (agent : Address) (x : ℕ) :
    requestUndelegate env agent x s ≠ .error .underflow := by
  intro herr
  have htotal : (s.delegations (delegationKey env.sender agent)).amount ≤
      (s.agentPools agent).totalDelegated := hs.amount_le_total env.sender agent
  have hall := hs.total_le_all agent
  simp only [requestUndelegate, bind_eq_error, modifier_eq_error, require_eq_error,
    pure_ne_error, checkedAdd_eq_error, checkedSub_eq_error, modifier_eq_ok, require_eq_ok,
    checkedSub_eq_ok, reduceCtorEq, and_false, false_or, exists_false, or_false, and_true] at herr
  obtain ⟨_, -, _, -, _, -, _, hle, _, -, herr | ⟨d, hsettle, herr⟩⟩ := herr
  · exact settlePending_ne_underflow (hs.entry_ok env.sender agent).paid_le herr
  · obtain ⟨v, -, hd⟩ := settlePending_ok hsettle
    have hamount : d.amount = (s.delegations (delegationKey env.sender agent)).amount := by rw [hd]
    rcases herr with herr | ⟨_, ⟨-, rfl⟩, _, -, herr | ⟨_, ⟨-, rfl⟩, herr | ⟨_, ⟨-, rfl⟩, herr⟩⟩⟩
    · omega
    · omega
    · omega
    · exact unbondRemainder_ne_underflow (by dsimp only; omega) (by dsimp only; omega) herr

theorem executeCompleteUndelegate_ne_underflow (hs : Accounting s) (env : Env) (agent : Address) :
    executeCompleteUndelegate env agent s ≠ .error .underflow := by
  intro herr
  have hcount := hs.tally_le_count env.sender agent
  simp only [executeCompleteUndelegate, bind_eq_error, require_eq_error,
    require_eq_ok, reduceCtorEq, and_false, false_or] at herr
  obtain ⟨_, ha, _, -, _, -, herr⟩ := herr
  split_ifs at herr
  · simp only [bind_eq_error, checkedSub_eq_error, pure_ne_error, and_false, exists_false, or_false,
      and_true] at herr
    simp only [delegationKey] at ha
    simp only [Entry.tally, State.entry, entryOf, ha, if_true] at hcount
    omega
  · exact pure_ne_error herr

end Accounting

theorem Accounting.slash_le (hs : Accounting s) {agent delegator : Address} {bps a : ℕ}
    {visited : List Address} {acc : SlashLoop}
    (hloop : visited.foldlM (slashDelegation agent bps) ⟨s, 0, 0⟩ = .ok acc)
    (hactive : (acc.state.delegations (delegationKey delegator agent)).active = true)
    (ha : slashShare (acc.state.delegations (delegationKey delegator agent)).amount bps = .ok a) :
    a ≤ (acc.state.agentPools agent).totalDelegated ∧ a ≤ acc.state.totalDelegatedAllAgents ∧
      1 ≤ (acc.state.agentPools agent).delegatorCount := by
  obtain ⟨ops, -, hsteps, -⟩ := slashLoop_ok hloop
  have hacc : Accounting acc.state := hsteps.induct (fun _ _ _ => step) hs
  have hamount := (slashShare_le ha).trans (hacc.amount_le_total delegator agent)
  have htally := hacc.tally_le_count delegator agent
  have hactive' : (acc.state.entry delegator agent).active = true := hactive
  rw [Entry.tally, if_pos hactive'] at htally
  exact ⟨hamount, hamount.trans (hacc.total_le_all agent), htally⟩

/-- In every reachable state the tallies are the sums and the counts over the records, a delegation is
active exactly when it holds something, and the lists hold every active pair once. So the saturating
subtractions of `propagateSlash` never saturate, and no checked subtraction of `requestUndelegate` or
`_executeCompleteUndelegate` reverts. -/
theorem pool_accounting {dep : Deployment} {w : World} (hw : (system dep).Reachable w) :
    (∀ agent, (w.state.agentPools agent).totalDelegated =
        ∑ delegator, (w.state.delegations (delegationKey delegator agent)).amount) ∧
      (∀ agent, (w.state.agentPools agent).delegatorCount =
        (Finset.univ.filter fun delegator =>
          (w.state.delegations (delegationKey delegator agent)).active = true).card) ∧
      (∀ delegator agent, (w.state.delegations (delegationKey delegator agent)).active = true ↔
        0 < (w.state.delegations (delegationKey delegator agent)).amount +
          (w.state.delegations (delegationKey delegator agent)).unbondingAmount) ∧
      (∀ agent, (w.state.agentDelegators agent).Nodup) ∧
      (∀ delegator, (w.state.delegatorAgents delegator).Nodup) ∧
      (∀ delegator agent, (w.state.delegations (delegationKey delegator agent)).active = true →
        agent ∈ w.state.delegatorAgents delegator ∧ delegator ∈ w.state.agentDelegators agent) ∧
      w.state.totalDelegatedAllAgents = ∑ agent, (w.state.agentPools agent).totalDelegated ∧
      (∀ agent delegator bps (visited : List Address) acc a,
        visited.foldlM (slashDelegation agent bps) ⟨w.state, 0, 0⟩ = .ok acc →
        (acc.state.delegations (delegationKey delegator agent)).active = true →
        slashShare (acc.state.delegations (delegationKey delegator agent)).amount bps = .ok a →
        a ≤ (acc.state.agentPools agent).totalDelegated ∧ a ≤ acc.state.totalDelegatedAllAgents ∧
          1 ≤ (acc.state.agentPools agent).delegatorCount) ∧
      (∀ env agent amount, requestUndelegate env agent amount w.state ≠ .error .underflow) ∧
      (∀ env agent, executeCompleteUndelegate env agent w.state ≠ .error .underflow) := by
  have hs := Accounting.of_reachable hw
  refine ⟨hs.total_eq, ?_, fun d g => (hs.entry_ok d g).active_iff, hs.delegators.nodup,
    hs.agents.nodup, hs.active_listed, hs.all_eq,
    fun _ _ _ _ _ _ hloop hactive ha => hs.slash_le hloop hactive ha,
    hs.requestUndelegate_ne_underflow, hs.executeCompleteUndelegate_ne_underflow⟩
  -- A record counts as one exactly if it is active.
  intro g
  rw [hs.count_eq g, Finset.card_filter]
  rfl

/-- After one delegation of 10 GUARD the pool's total is the sum over all delegators. -/
theorem pool_accounting_after_delegate : ∃ w, (system sampleDeployment).Reachable w ∧
    (w.state.agentPools 3).totalDelegated = 10 * 10^8 ∧
      ∑ delegator, (w.state.delegations (delegationKey delegator 3)).amount = 10 * 10^8 := by
  obtain ⟨w, hcalls, hw⟩ := sample_reachable
    (show ∀ call ∈ [(sampleEnv 2 0, Call.delegate 3 (10 * 10^8))], call.1.sender ≠ 1 by decide) rfl
  have htotal := sample_read (fun w => (w.state.agentPools 3).totalDelegated) hcalls rfl
  exact ⟨w, hw, htotal, ((pool_accounting hw).1 3).symm.trans htotal⟩

end AuditGuard.DelegatedStaking
