import AuditGuard.DelegatedStaking.Solvency

/-!
# What `propagateSlash` takes

The loop of `propagateSlash` replaces each record of the agent by `Delegation.slashed`, and what it
sends to the treasury is the sum of what it took. The records that it passes over decide whether the
slash reaches everyone: a delegation that is all in unbonding is active and loses nothing
(`propagateSlash_in_full_iff`), and a delegation that is not settled loses a part of its unsettled
reward with its amount (`slash_keeps_claimable_iff`).
-/

namespace AuditGuard.DelegatedStaking

open Evm

/-- The part of `amount` that a slash of `bps` basis points takes. -/
def slashOf (bps amount : ℕ) : ℕ := amount * bps / 10000

theorem slashOf_le {bps : ℕ} (hb : bps ≤ 10000) (amount : ℕ) : slashOf bps amount ≤ amount :=
  share_le hb amount

theorem slashShare_eq {amount bps : ℕ} (h : amount < 2^96) (hb : bps ≤ 10000) :
    slashShare amount bps = .ok (slashOf bps amount) := by
  have hle : amount * bps / 10000 ≤ amount := slashOf_le hb amount
  have hproduct : amount * bps < 2^256 :=
    calc amount * bps ≤ amount * 10000 := Nat.mul_le_mul_left amount hb
      _ < 2^256 := by omega
  rw [slashShare, checkedMul_of_lt hproduct, ok_bind, truncate_of_lt (by omega)]
  dsimp only
  rw [if_neg (by omega)]
  rfl

/-- What the loop of `propagateSlash` makes of a record. -/
def Delegation.slashed (bps : ℕ) (d : Delegation) : Delegation :=
  if d.active = false ∨ d.amount = 0 then d
  else { d with
    amount := d.amount - slashOf bps d.amount
    unbondingAmount := d.unbondingAmount - slashOf bps d.unbondingAmount
    active := !decide (d.amount - slashOf bps d.amount = 0 ∧
      d.unbondingAmount - slashOf bps d.unbondingAmount = 0) }

/-- What the loop of `propagateSlash` takes from a record. -/
def Delegation.taken (bps : ℕ) (d : Delegation) : ℕ :=
  if d.active = false ∨ d.amount = 0 then 0
  else slashOf bps d.amount + slashOf bps d.unbondingAmount

variable {agent delegator : Address} {bps : ℕ} {acc acc' : SlashLoop}

/-- The amounts of a record are `uint96` numbers. -/
def Delegation.Fits (d : Delegation) : Prop := d.amount < 2^96 ∧ d.unbondingAmount < 2^96

theorem unbondingShare_eq {d : Delegation} (hd : d.Fits) (hb : bps ≤ 10000) :
    (if 0 < d.unbondingAmount then slashShare d.unbondingAmount bps else pure 0) =
      .ok (slashOf bps d.unbondingAmount) := by
  split_ifs with hpos
  · exact slashShare_eq hd.2 hb
  · rw [Nat.eq_zero_of_not_pos hpos, slashOf, Nat.zero_mul, Nat.zero_div]
    rfl

theorem slashed_of_taken_zero {d : Delegation} (hd : d.active = true ∧ d.amount ≠ 0)
    (h : slashOf bps d.amount + slashOf bps d.unbondingAmount = 0) : d.slashed bps = d := by
  obtain ⟨ha, hu⟩ := Nat.add_eq_zero_iff.mp h
  unfold Delegation.slashed
  rw [ha, hu, Nat.sub_zero, Nat.sub_zero]
  split_ifs
  · rfl
  · simp only [hd.2, false_and, decide_false, Bool.not_false]
    rw [← hd.1]

theorem slashDelegation_writes (hb : bps ≤ 10000)
    (hd : (acc.state.delegations (delegator, agent)).Fits)
    (h : slashDelegation agent bps acc delegator = .ok acc') :
    acc'.state.delegations = Function.update acc.state.delegations (delegator, agent)
        ((acc.state.delegations (delegator, agent)).slashed bps) ∧
      acc'.totalSlashed =
        acc.totalSlashed + (acc.state.delegations (delegator, agent)).taken bps := by
  unfold slashDelegation at h
  dsimp only at h
  generalize hrecord : acc.state.delegations (delegationKey delegator agent) = d at h hd ⊢
  by_cases hskip : d.active = false ∨ d.amount = 0
  · rw [if_pos hskip, pure_eq_ok] at h
    rw [Delegation.slashed, Delegation.taken, if_pos hskip, if_pos hskip, ← hrecord,
      Function.update_eq_self, h]
    exact ⟨rfl, rfl⟩
  · rw [if_neg hskip, slashShare_eq hd.1 hb, ok_bind, unbondingShare_eq hd hb, ok_bind] at h
    simp only [bind_eq_ok, checkedAdd_eq_ok] at h
    obtain ⟨_, ⟨-, rfl⟩, h⟩ := h
    have htaken : d.taken bps = slashOf bps d.amount + slashOf bps d.unbondingAmount := if_neg hskip
    split_ifs at h with h0
    · -- A share of zero is passed over, and would have changed nothing.
      rw [pure_eq_ok] at h
      have hopen : d.active = true ∧ d.amount ≠ 0 := by simpa using hskip
      rw [slashed_of_taken_zero hopen h0, htaken, h0, ← hrecord, Function.update_eq_self, h]
      exact ⟨rfl, rfl⟩
    · simp only [bind_eq_ok, checkedAdd_eq_ok, checkedSub_eq_ok, pure_eq_ok] at h
      obtain ⟨_, ⟨-, rfl⟩, _, ⟨-, rfl⟩, _, ⟨-, rfl⟩, _, ⟨-, rfl⟩, rfl⟩ := h
      rw [Delegation.slashed, if_neg hskip, htaken]
      exact ⟨rfl, rfl⟩

theorem slashDelegation_isOk (hb : bps ≤ 10000)
    (hd : (acc.state.delegations (delegator, agent)).Fits)
    (htotal : acc.totalSlashed + (acc.state.delegations (delegator, agent)).taken bps < 2^96)
    (hcount : acc.slashedCount + (acc.state.delegations (delegator, agent)).tally < 2^32) :
    ∃ acc', slashDelegation agent bps acc delegator = .ok acc' ∧
      acc'.slashedCount ≤ acc.slashedCount + (acc.state.delegations (delegator, agent)).tally := by
  unfold slashDelegation
  dsimp only
  generalize hrecord : acc.state.delegations (delegationKey delegator agent) = d at hd htotal hcount ⊢
  by_cases hskip : d.active = false ∨ d.amount = 0
  · rw [if_pos hskip]
    exact ⟨acc, rfl, Nat.le_add_right _ _⟩
  · obtain ⟨hactive, -⟩ := not_or.mp hskip
    have htally : d.tally = 1 := if_pos (by simpa using hactive)
    rw [Delegation.taken, if_neg hskip] at htotal
    rw [htally] at hcount ⊢
    rw [if_neg hskip, slashShare_eq hd.1 hb, ok_bind, unbondingShare_eq hd hb, ok_bind,
      checkedAdd_of_lt (by omega), ok_bind]
    split_ifs with h0
    · exact ⟨acc, rfl, Nat.le_add_right _ _⟩
    · rw [checkedSub_of_le (slashOf_le hb _), ok_bind, checkedSub_of_le (slashOf_le hb _), ok_bind,
        checkedAdd_of_lt htotal, ok_bind, checkedAdd_of_lt hcount, ok_bind]
      exact ⟨_, rfl, le_rfl⟩

/-! ## The loop -/

/-- All records of the agent fit their types. -/
def State.Fits (s : State) (agent : Address) : Prop :=
  ∀ delegator, (s.delegations (delegator, agent)).Fits

theorem Delegation.Fits.slashed {d : Delegation} (hd : d.Fits) : (d.slashed bps).Fits := by
  unfold Delegation.slashed
  split_ifs
  · exact hd
  · exact ⟨lt_of_le_of_lt (Nat.sub_le _ _) hd.1, lt_of_le_of_lt (Nat.sub_le _ _) hd.2⟩

theorem State.Fits.of_writes {state state' : State} (hfits : state.Fits agent)
    (hwrites : state'.delegations = Function.update state.delegations (delegator, agent)
      ((state.delegations (delegator, agent)).slashed bps)) : state'.Fits agent := by
  intro d
  rw [hwrites, Function.update_apply]
  split_ifs with heq
  · exact (hfits delegator).slashed
  · exact hfits d

theorem later_record {delegations delegations' : Address × Address → Delegation} {d : Delegation}
    {delegators : List Address} (hlater : delegator ∉ delegators)
    (hwrites : delegations' = Function.update delegations (delegator, agent) d) :
    ∀ d' ∈ delegators, delegations' (d', agent) = delegations (d', agent) := by
  intro d' hd'
  rw [hwrites, Function.update_of_ne]
  intro heq
  exact hlater ((Prod.mk.inj heq).1 ▸ hd')

/-- What the loop writes, over delegators without repetition: the slashed records of those it visits,
and the sum of what it took from them. -/
theorem slashLoop_writes (hb : bps ≤ 10000) {delegators : List Address} (hnodup : delegators.Nodup)
    (hfits : acc.state.Fits agent)
    (h : delegators.foldlM (slashDelegation agent bps) acc = .ok acc') :
    (∀ key, acc'.state.delegations key = if key.2 = agent ∧ key.1 ∈ delegators
      then (acc.state.delegations key).slashed bps else acc.state.delegations key) ∧
    acc'.totalSlashed = acc.totalSlashed +
      (delegators.map fun d => (acc.state.delegations (d, agent)).taken bps).sum := by
  induction delegators generalizing acc with
  | nil =>
    simp only [List.foldlM_nil, pure_eq_ok] at h
    subst h
    simp
  | cons d delegators ih =>
    simp only [List.foldlM_cons, bind_eq_ok] at h
    obtain ⟨acc₁, h₁, h⟩ := h
    obtain ⟨hd, hnodup⟩ := List.nodup_cons.mp hnodup
    obtain ⟨hwrites, htotal⟩ := slashDelegation_writes hb (hfits d) h₁
    obtain ⟨hrecords, hsum⟩ := ih hnodup (hfits.of_writes hwrites) h
    refine ⟨fun key => ?_, ?_⟩
    · -- The first delegator's record is written by this turn alone, the others by the rest.
      rw [hrecords key, hwrites]
      rcases eq_or_ne key (d, agent) with rfl | hne
      · simp [hd]
      · rw [Function.update_of_ne hne]
        have hmem : key.2 = agent → (key.1 ∈ d :: delegators ↔ key.1 ∈ delegators) := by
          intro hkey
          rw [List.mem_cons, or_iff_right]
          rintro rfl
          exact hne (by rw [← hkey])
        by_cases hkey : key.2 = agent
        · simp only [hkey, true_and, hmem hkey]
        · simp only [hkey, false_and]
    · have hrest : delegators.map (fun d' => (acc₁.state.delegations (d', agent)).taken bps) =
          delegators.map fun d' => (acc.state.delegations (d', agent)).taken bps := by
        refine List.map_congr_left fun d' hd' => ?_
        rw [later_record hd hwrites d' hd']
      rw [hsum, hrest, htotal, List.map_cons, List.sum_cons, Nat.add_assoc]

theorem slashLoop_isOk (hb : bps ≤ 10000) {delegators : List Address} (hnodup : delegators.Nodup)
    (hfits : acc.state.Fits agent)
    (htotal : acc.totalSlashed +
      (delegators.map fun d => (acc.state.delegations (d, agent)).taken bps).sum < 2^96)
    (hcount : acc.slashedCount +
      (delegators.map fun d => (acc.state.delegations (d, agent)).tally).sum < 2^32) :
    ∃ acc', delegators.foldlM (slashDelegation agent bps) acc = .ok acc' := by
  induction delegators generalizing acc with
  | nil => exact ⟨acc, rfl⟩
  | cons d delegators ih =>
    obtain ⟨hd, hnodup⟩ := List.nodup_cons.mp hnodup
    rw [List.map_cons, List.sum_cons] at htotal hcount
    obtain ⟨acc₁, h₁, hcount₁⟩ := slashDelegation_isOk hb (hfits d) (by omega) (by omega)
    obtain ⟨hwrites, htotal₁⟩ := slashDelegation_writes hb (hfits d) h₁
    have hothers := later_record hd hwrites
    -- The bounds are met by what the first turn left of them.
    obtain ⟨acc', h⟩ := ih hnodup (hfits.of_writes hwrites)
      (by rw [List.map_congr_left fun d' hd' => congrArg (Delegation.taken bps) (hothers d' hd')]; omega)
      (by rw [List.map_congr_left fun d' hd' => congrArg Delegation.tally (hothers d' hd')]; omega)
    exact ⟨acc', by rw [List.foldlM_cons, h₁, ok_bind, h]⟩

variable {s : State}

theorem Accounting.sum_delegators (hs : Accounting s) (agent : Address) (f : Delegation → ℕ)
    (hf : ∀ d : Delegation, d.active = false → f d = 0) :
    ((s.agentDelegators agent).map fun d => f (s.delegations (d, agent))).sum =
      ∑ d, f (s.delegations (d, agent)) := by
  rw [← List.sum_toFinset _ (hs.delegators.nodup agent)]
  refine Finset.sum_subset (Finset.subset_univ _) fun d _ hd => hf _ ?_
  by_contra hactive
  exact hd (List.mem_toFinset.mpr (hs.active_listed d agent (by simpa using hactive)).2)

theorem slashDelegations_writes (hs : Accounting s) (hb : bps ≤ 10000) {loop : SlashLoop}
    (h : slashDelegations agent bps s = .ok loop) :
    (∀ d, loop.state.delegations (d, agent) = (s.delegations (d, agent)).slashed bps) ∧
      (∀ key : Address × Address, key.2 ≠ agent →
        loop.state.delegations key = s.delegations key) ∧
      loop.totalSlashed = ∑ d, (s.delegations (d, agent)).taken bps := by
  have hfits : s.Fits agent := fun d =>
    ⟨(hs.entry_ok d agent).amount_lt, (hs.entry_ok d agent).unbonding_lt⟩
  obtain ⟨hrecords, htotal⟩ := slashLoop_writes hb (hs.delegators.nodup agent) hfits h
  refine ⟨fun d => ?_, fun key hkey => ?_, ?_⟩
  · rw [hrecords]
    split_ifs with hmem
    · rfl
    · -- A delegator who is not listed has no open record.
      have hclosed : (s.delegations (d, agent)).active = false := by
        by_contra hactive
        exact hmem ⟨rfl, (hs.active_listed d agent (by simpa using hactive)).2⟩
      rw [Delegation.slashed, if_pos (.inl hclosed)]
  · rw [hrecords, if_neg fun h => hkey h.1]
  · rw [htotal, Nat.zero_add]
    exact hs.sum_delegators agent (Delegation.taken bps) fun d hd => if_pos (.inl hd)

/-! ## The call -/

variable {dep : Deployment} {env : Env} {w w' : World}

theorem stored_of_slashes {s' : State} {ops : List BookOp} (h : BookSteps s ops s')
    (hops : ∀ op ∈ ops, op.SlashOf agent ∨ op = .idle) (g : Address) :
    (s'.agentPools g).rewardPerTokStored = (s.agentPools g).rewardPerTokStored := by
  induction h with
  | nil => rfl
  | @snoc t u ops op _ hstep ih =>
    rw [← ih fun op hop => hops op (List.mem_append_left _ hop)]
    rcases hops op (List.mem_append_right _ (List.mem_singleton_self op)) with
      ⟨d, a, x, rfl⟩ | rfl
    · cases hstep with
      | record h =>
        rcases eq_or_ne g agent with rfl | hg
        · exact h.step.accumulator.1
        · rw [h.agentPools_of_ne hg]
    · cases hstep with
      | idle h _ => exact congrArg Entry.stored (h.entry 0 g)

/-- What `propagateSlash` writes and sends. -/
theorem propagateSlash_writes (hs : Accounting w.state) (hb : bps ≤ 10000)
    (h : propagateSlash dep env agent bps w = .ok w') :
    (∀ d, w'.state.delegations (d, agent) = (w.state.delegations (d, agent)).slashed bps) ∧
      (∀ key : Address × Address, key.2 ≠ agent →
        w'.state.delegations key = w.state.delegations key) ∧
      w'.guard.balance = Ledger.moved w.guard.balance dep.this w.state.treasury
        (∑ d, (w.state.delegations (d, agent)).taken bps) := by
  obtain ⟨ops, hops, haccounts⟩ := propagateSlash_ok h
  have hguard : w'.state.guardToken = w.state.guardToken := by
    refine congrArg Settings.guardToken (haccounts.books.settings fun hadmin => ?_)
    rcases hops _ hadmin with ⟨_, _, _, h⟩ | h <;> cases h
  simp only [propagateSlash, bind_eq_ok, require_eq_ok] at h
  obtain ⟨_, -, _, -, h⟩ := h
  by_cases h0 : (w.state.agentPools agent).totalDelegated = 0
  · -- The early return: no record has an active amount, and so none would be slashed.
    rw [if_pos h0, pure_eq_ok] at h
    subst h
    have hamount : ∀ d, (w.state.delegations (d, agent)).amount = 0 := fun d =>
      Nat.le_zero.mp (h0 ▸ hs.amount_le_total d agent)
    have htaken : ∑ d, (w.state.delegations (d, agent)).taken bps = 0 :=
      Finset.sum_eq_zero fun d _ => if_pos (.inr (hamount d))
    refine ⟨fun d => ?_, fun _ _ => rfl, ?_⟩
    · rw [Delegation.slashed, if_pos (.inr (hamount d))]
    · rw [htaken, Ledger.moved_zero]
  · rw [if_neg h0] at h
    simp only [bind_eq_ok, pure_eq_ok] at h
    obtain ⟨loop, hloop, w₁, hpay, rfl⟩ := h
    obtain ⟨hrecords, hothers, htotal⟩ := slashDelegations_writes hs hb hloop
    have hsettings : loop.state.settings = w.state.settings := slashLoop_settings hloop
    have hguardToken : loop.state.guardToken = w.state.guardToken :=
      congrArg Settings.guardToken hsettings
    have htreasury : loop.state.treasury = w.state.treasury :=
      congrArg Settings.treasury hsettings
    obtain ⟨hstate, hbalance⟩ : w₁.state = loop.state ∧ w₁.guard.balance =
        Ledger.moved w.guard.balance dep.this w.state.treasury loop.totalSlashed := by
      split_ifs at hpay with hpos
      · obtain ⟨hstate, -, htransfer⟩ := transferGuard_ok hpay
        refine ⟨hstate, ?_⟩
        rw [(Ledger.transfer_eq_some htransfer).2, World.guard, World.guard]
        simp only [hguardToken, htreasury]
      · rw [pure_eq_ok] at hpay
        subst hpay
        refine ⟨rfl, ?_⟩
        rw [Nat.eq_zero_of_not_pos hpos, Ledger.moved_zero, World.guard, World.guard]
        simp only [hguardToken]
    simp only [World.emit, hstate, State.emit_delegations, World.guard, State.emit_guardToken]
    refine ⟨hrecords, hothers, ?_⟩
    rw [← hstate, ← htotal]
    exact hbalance

/-- The slash reached every active delegation to the agent, in full, and the treasury got all of it. -/
def SlashedInFull (dep : Deployment) (agent : Address) (bps : ℕ) (w w' : World) : Prop :=
  (∀ delegator, (w.state.delegations (delegationKey delegator agent)).active = true →
    (w'.state.delegations (delegationKey delegator agent)).amount =
        (w.state.delegations (delegationKey delegator agent)).amount -
          slashOf bps (w.state.delegations (delegationKey delegator agent)).amount ∧
      (w'.state.delegations (delegationKey delegator agent)).unbondingAmount =
        (w.state.delegations (delegationKey delegator agent)).unbondingAmount -
          slashOf bps (w.state.delegations (delegationKey delegator agent)).unbondingAmount) ∧
  w'.guard.balance = Ledger.moved w.guard.balance dep.this w.state.treasury
    (∑ delegator with (w.state.delegations (delegationKey delegator agent)).active = true,
      (slashOf bps (w.state.delegations (delegationKey delegator agent)).amount +
        slashOf bps (w.state.delegations (delegationKey delegator agent)).unbondingAmount))

/-- No slash reaches a delegation that is all in unbonding, so it has to have nothing to lose. -/
def NoneDodges (agent : Address) (bps : ℕ) (s : State) : Prop :=
  ∀ delegator, (s.delegations (delegationKey delegator agent)).active = true →
    (s.delegations (delegationKey delegator agent)).amount = 0 →
      slashOf bps (s.delegations (delegationKey delegator agent)).unbondingAmount = 0

theorem sum_taken (hdodges : NoneDodges agent bps s) :
    ∑ d, (s.delegations (d, agent)).taken bps =
      ∑ d with (s.delegations (d, agent)).active = true,
        (slashOf bps (s.delegations (d, agent)).amount +
          slashOf bps (s.delegations (d, agent)).unbondingAmount) := by
  rw [Finset.sum_filter]
  refine Finset.sum_congr rfl fun d _ => ?_
  unfold Delegation.taken
  split_ifs with hskip hactive hactive
  · rcases hskip with hclosed | h0
    · simp [hclosed] at hactive
    · rw [hdodges d hactive h0, h0, slashOf, Nat.zero_mul, Nat.zero_div]
  · rfl
  · rfl
  · exact absurd (.inl (by simpa using hactive)) hskip

theorem slashed_in_full_iff (hb : bps ≤ 10000) {d : Delegation} (hactive : d.active = true) :
    ((d.slashed bps).amount = d.amount - slashOf bps d.amount ∧
      (d.slashed bps).unbondingAmount = d.unbondingAmount - slashOf bps d.unbondingAmount) ↔
      (d.amount = 0 → slashOf bps d.unbondingAmount = 0) := by
  have hle := slashOf_le hb d.unbondingAmount
  unfold Delegation.slashed
  by_cases h0 : d.amount = 0
  · rw [if_pos (.inr h0), h0]
    omega
  · rw [if_neg (by simp [hactive, h0])]
    exact iff_of_true ⟨rfl, rfl⟩ fun h => absurd h h0

theorem taken_le (hb : bps ≤ 10000) (d : Delegation) : d.taken bps ≤ d.principal := by
  have ha := slashOf_le hb d.amount
  have hu := slashOf_le hb d.unbondingAmount
  unfold Delegation.taken Delegation.principal
  split_ifs <;> omega

theorem sum_taken_le (hb : bps ≤ 10000) (s : State) (agent : Address) :
    ∑ d, (s.delegations (d, agent)).taken bps ≤ s.principal := by
  have hcolumn : ∑ d, (s.delegations (d, agent)).principal ≤ s.principal := by
    rw [State.principal, Fintype.sum_prod_type_right]
    exact Finset.single_le_sum_of_canonicallyOrdered
      (f := fun g => ∑ d, (s.delegations (d, g)).principal) (Finset.mem_univ agent)
  exact (Finset.sum_le_sum fun d _ => taken_le hb _).trans hcolumn

/-- While the contract keeps to one GUARD token, a slash by the staking manager goes through whenever
the token takes the transfer. -/
theorem propagateSlash_isOk (hw : ((system dep).restrict (Label.Backed dep)).Reachable w)
    (hb : bps ≤ 10000) (hsender : env.sender = w.state.stakingManager)
    (haccepts : env.tokenAccepts = true) : ∃ w', propagateSlash dep env agent bps w = .ok w' := by
  have hs := Accounting.of_reachable hw.of_restrict
  have howed := owed_le_held hw
  have hheld : w.held dep < 2^63 := w.guard.balance_lt dep.this
  have htaken := sum_taken_le hb w.state agent
  rw [propagateSlash, require_of hsender, ok_bind, require_of hb, ok_bind]
  by_cases h0 : (w.state.agentPools agent).totalDelegated = 0
  · rw [if_pos h0]
    exact ⟨w, rfl⟩
  · rw [if_neg h0]
    -- Both tallies of the loop fit: the amounts are in the contract, the delegators in the count.
    obtain ⟨loop, hloop⟩ : ∃ loop, slashDelegations agent bps w.state = .ok loop := by
      refine slashLoop_isOk hb (hs.delegators.nodup agent)
        (fun d => ⟨(hs.entry_ok d agent).amount_lt, (hs.entry_ok d agent).unbonding_lt⟩) ?_ ?_
      · rw [hs.sum_delegators agent (Delegation.taken bps) fun d hd => if_pos (.inl hd)]
        dsimp only
        omega
      · rw [hs.sum_delegators agent Delegation.tally fun d hd => if_neg (by simp [hd]),
          ← hs.count_eq agent]
        have hcount := hs.count_lt agent
        dsimp only
        omega
    have hsettings : loop.state.settings = w.state.settings := slashLoop_settings hloop
    have hguardToken : loop.state.guardToken = w.state.guardToken :=
      congrArg Settings.guardToken hsettings
    have htotal := (slashDelegations_writes hs hb hloop).2.2
    rw [hloop, ok_bind]
    dsimp only
    split_ifs with hpos
    · have hheld' : w.guard.balance dep.this = w.held dep := rfl
      have hpaid : loop.totalSlashed ≤
          ({ w with state := loop.state } : World).guard.balance dep.this := by
        simp only [World.guard, hguardToken] at hheld' ⊢
        omega
      obtain ⟨w₁, hpay⟩ : ∃ w₁, transferGuard dep env dep.this loop.state.treasury
          loop.totalSlashed { w with state := loop.state } = .ok w₁ :=
        transferGuard_isOk haccepts hpaid
      rw [hpay]
      exact ⟨_, rfl⟩
    · exact ⟨_, rfl⟩

/-- A slash takes its full share from every active delegation, and sends exactly that to the treasury,
if and only if no delegation dodges it by being all in unbonding. The call itself goes through whenever
the token takes the transfer, while the contract keeps to one GUARD token. -/
theorem propagateSlash_in_full_iff (hw : (system dep).Reachable w) (hb : bps ≤ 10000) :
    (∀ w', propagateSlash dep env agent bps w = .ok w' →
      (SlashedInFull dep agent bps w w' ↔ NoneDodges agent bps w.state)) ∧
    (((system dep).restrict (Label.Backed dep)).Reachable w →
      env.sender = w.state.stakingManager → env.tokenAccepts = true →
      ∃ w', propagateSlash dep env agent bps w = .ok w') := by
  refine ⟨fun w' h => ?_, fun hbacked => propagateSlash_isOk hbacked hb⟩
  obtain ⟨hrecords, -, hbalance⟩ := propagateSlash_writes (Accounting.of_reachable hw) hb h
  constructor
  · rintro ⟨hfull, -⟩ d hactive
    have hd := hfull d hactive
    rw [hrecords d] at hd
    exact (slashed_in_full_iff hb hactive).mp hd
  · intro hdodges
    refine ⟨fun d hactive => ?_, ?_⟩
    · rw [hrecords d]
      exact (slashed_in_full_iff hb hactive).mpr (hdodges d hactive)
    · rw [hbalance, sum_taken hdodges]

/-- Account 6 becomes the staking manager, and account 2 delegates 10 GUARD to account 3. -/
def delegatedCalls : List (Env × Call) :=
  [(sampleEnv 9 0, .admin (.setStakingManager 6)), (sampleEnv 2 0, .delegate 3 (10 * 10^8))]

/-- Account 2 delegates 10 GUARD and requests to undelegate all of it. -/
def dodgingCalls : List (Env × Call) :=
  delegatedCalls ++ [(sampleEnv 2 1, .requestUndelegate 3 (10 * 10^8))]

/-- A slash of 50% reaches an active delegation of 10 GUARD in full. -/
theorem propagateSlash_in_full_delegated : ∃ w w', (system sampleDeployment).Reachable w ∧
    propagateSlash sampleDeployment (sampleEnv 6 2) 3 5000 w = .ok w' ∧
      SlashedInFull sampleDeployment 3 5000 w w' := by
  obtain ⟨w, hcalls, hw⟩ := sample_reachable
    (show ∀ call ∈ delegatedCalls, call.1.sender ≠ 1 by decide) rfl
  obtain ⟨w', hslash⟩ := exists_eq_ok
    (sample_read (fun w => (propagateSlash sampleDeployment (sampleEnv 6 2) 3 5000 w).isOk) hcalls rfl)
  have hrecords := sample_read (fun w => w.state.delegations) hcalls
    (a := Function.update (fun _ => Delegation.zero) (2, 3) ⟨2, 3, 10 * 10^8, 0, 0, 0, 0, 0, 0, true⟩) rfl
  refine ⟨w, w', hw, hslash, ((propagateSlash_in_full_iff hw (by norm_num)).1 w' hslash).mpr ?_⟩
  intro delegator hactive h0
  rw [hrecords, Function.update_apply] at hactive h0
  -- The delegator's own record holds an amount, and every other record is closed.
  by_cases hkey : delegator = 2
  · subst hkey
    cases h0
  · rw [if_neg (by simp [hkey])] at hactive
    cases hactive

/-- The delegation that is all in unbonding is active and passes through the slash untouched. -/
theorem dodged_slash : ∃ w w', (system sampleDeployment).Reachable w ∧
    propagateSlash sampleDeployment (sampleEnv 6 2) 3 5000 w = .ok w' ∧
      ¬ SlashedInFull sampleDeployment 3 5000 w w' := by
  obtain ⟨w, hcalls, hw⟩ := sample_reachable
    (show ∀ call ∈ dodgingCalls, call.1.sender ≠ 1 by decide) rfl
  have hrun := sample_read (fun w => (propagateSlash sampleDeployment (sampleEnv 6 2) 3 5000 w).map
    fun w' => (w'.state.delegations (2, 3)).unbondingAmount) hcalls (a := .ok (10 * 10^8)) rfl
  have hbefore := sample_read (fun w => ((w.state.delegations (2, 3)).active,
    (w.state.delegations (2, 3)).unbondingAmount)) hcalls (a := (true, 10 * 10^8)) rfl
  obtain ⟨w', hslash⟩ := exists_eq_ok
    (sample_read (fun w => (propagateSlash sampleDeployment (sampleEnv 6 2) 3 5000 w).isOk) hcalls rfl)
  refine ⟨w, w', hw, hslash, ?_⟩
  rintro ⟨hfull, -⟩
  obtain ⟨hactive, hunbonding⟩ := Prod.mk.inj hbefore
  obtain ⟨-, hd⟩ := hfull 2 hactive
  rw [hslash] at hrun
  have hafter : (w'.state.delegations (2, 3)).unbondingAmount = 10 * 10^8 := Except.ok.inj hrun
  rw [hunbonding, hafter] at hd
  norm_num [slashOf] at hd

/-! ## Rewards under a slash -/

theorem slashed_amount {d : Delegation} (hclosed : d.active = false → d.amount = 0) :
    (d.slashed bps).amount = d.amount - slashOf bps d.amount := by
  unfold Delegation.slashed
  split_ifs with hskip
  · have h0 : d.amount = 0 := hskip.elim hclosed id
    rw [h0, slashOf, Nat.zero_mul, Nat.zero_div]
  · rfl

theorem slashed_rewards (bps : ℕ) (d : Delegation) :
    (d.slashed bps).pendingRewards = d.pendingRewards ∧
    (d.slashed bps).rewardPerTokenPaid = d.rewardPerTokenPaid := by
  unfold Delegation.slashed
  split_ifs <;> exact ⟨rfl, rfl⟩

/-- The accumulator's growth since the delegation settled. -/
def State.growth (s : State) (delegator agent : Address) : ℕ :=
  (s.agentPools agent).rewardPerTokStored -
    (s.delegations (delegationKey delegator agent)).rewardPerTokenPaid

/-- A delegator's claimable reward is the same before and after a slash if and only if what the slashed
part of its amount had earned since the last settlement is lost in rounding anyway. -/
theorem slash_keeps_claimable_iff (hw : (system dep).Reachable w)
    (h : propagateSlash dep env agent bps w = .ok w') (delegator : Address) :
    claimableReward delegator agent w'.state = claimableReward delegator agent w.state ↔
      slashOf bps (w.state.delegations (delegationKey delegator agent)).amount *
          w.state.growth delegator agent ≤
        (w.state.delegations (delegationKey delegator agent)).amount *
          w.state.growth delegator agent % PRECISION := by
  have hs := SoundPools.of_reachable hw
  obtain ⟨ops, hops, hbooks, -⟩ := propagateSlash_ok h
  have hs' : SoundPools w'.state := hbooks.induct (fun _ _ _ => SoundPools.step) hs
  have hb : bps ≤ 10000 := by
    simp only [propagateSlash, bind_eq_ok, require_eq_ok] at h
    obtain ⟨_, -, _, hb, -⟩ := h
    exact hb
  have hstored := stored_of_slashes hbooks hops agent
  have hrecord := (propagateSlash_writes hs.accounting hb h).1 delegator
  -- A closed record holds no amount, so slashing it changes nothing.
  have hclosed : (w.state.delegations (delegator, agent)).active = false →
      (w.state.delegations (delegator, agent)).amount = 0 := by
    intro hactive
    have hiff := (hs.accounting.entry_ok delegator agent).active_iff
    have hnot : ¬ (w.state.entry delegator agent).active = true := by
      simpa [State.entry, entryOf] using hactive
    have hsum := Nat.eq_zero_of_not_pos (mt hiff.mpr hnot)
    exact (Nat.add_eq_zero_iff.mp hsum).1
  obtain ⟨hpending, hpaid⟩ := slashed_rewards bps (w.state.delegations (delegator, agent))
  -- What is pending stays; what was earned since is computed from the amount that is left.
  rw [hs.claimableReward_eq, hs'.claimableReward_eq, Except.ok.injEq, State.claimable,
    State.claimable, hrecord, hpending, Nat.add_left_cancel_iff, State.earned, hrecord, hstored,
    slashed_amount hclosed, hpaid]
  exact RewardIndex.earned_cut_eq_iff (a := (w.state.delegations (delegator, agent)).rewardAccount)
    (slashOf_le hb _) (by norm_num [PRECISION])

/-- A delegation that has earned nothing keeps its reward, of zero, through a slash of 50%. -/
theorem slash_keeps_claimable_delegated : ∃ w w', (system sampleDeployment).Reachable w ∧
    propagateSlash sampleDeployment (sampleEnv 6 2) 3 5000 w = .ok w' ∧
      claimableReward 2 3 w'.state = claimableReward 2 3 w.state := by
  obtain ⟨w, hcalls, hw⟩ := sample_reachable
    (show ∀ call ∈ delegatedCalls, call.1.sender ≠ 1 by decide) rfl
  obtain ⟨w', hslash⟩ := exists_eq_ok
    (sample_read (fun w => (propagateSlash sampleDeployment (sampleEnv 6 2) 3 5000 w).isOk) hcalls rfl)
  have hgrowth := sample_read (fun w => w.state.growth 2 3) hcalls (a := 0) rfl
  exact ⟨w, w', hw, hslash, (slash_keeps_claimable_iff hw hslash 2).mpr (by rw [hgrowth]; simp)⟩

/-- Account 6 becomes the staking manager, account 2 delegates 10 GUARD to itself, and distributes a
reward of 1 GUARD. -/
def earningCalls : List (Env × Call) :=
  (sampleEnv 9 0, .admin (.setStakingManager 6)) :: rewardedCalls

/-- The reward of 1 GUARD is cut in half by a slash of 50%. -/
theorem slash_cuts_claimable : ∃ w w', (system sampleDeployment).Reachable w ∧
    propagateSlash sampleDeployment (sampleEnv 6 2) 2 5000 w = .ok w' ∧
      claimableReward 2 2 w.state = .ok (10^8) ∧ claimableReward 2 2 w'.state = .ok (10^8 / 2) ∧
        claimableReward 2 2 w'.state ≠ claimableReward 2 2 w.state := by
  obtain ⟨w, hcalls, hw⟩ := sample_reachable
    (show ∀ call ∈ earningCalls, call.1.sender ≠ 1 by decide) rfl
  obtain ⟨w', hslash⟩ := exists_eq_ok
    (sample_read (fun w => (propagateSlash sampleDeployment (sampleEnv 6 2) 2 5000 w).isOk) hcalls rfl)
  have hbefore := sample_read (fun w => claimableReward 2 2 w.state) hcalls (a := .ok (10^8)) rfl
  have hafter := sample_read (fun w => (propagateSlash sampleDeployment (sampleEnv 6 2) 2 5000 w).map
    fun w' => claimableReward 2 2 w'.state) hcalls (a := .ok (.ok (10^8 / 2))) rfl
  rw [hslash] at hafter
  replace hafter : claimableReward 2 2 w'.state = .ok (10^8 / 2) := Except.ok.inj hafter
  refine ⟨w, w', hw, hslash, hbefore, hafter, ?_⟩
  rw [hafter, hbefore]
  simp

end AuditGuard.DelegatedStaking
