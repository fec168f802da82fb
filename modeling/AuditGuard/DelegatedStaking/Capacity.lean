import AuditGuard.DelegatedStaking.Slashing

/-!
# The length of the slash loop

`propagateSlash` loops over `agentDelegators[agent]`. The list is appended to when a delegation is
opened and never shortened, so that it lists everyone who has ever delegated to the agent, while
`maxDelegatorsPerAgent` caps the delegations that are open. The loop is within a bound exactly as long as
no one joins beyond it (`slash_loop_bounded_iff`), and full pools that are wiped out and filled again
carry it beyond the cap.
-/

namespace AuditGuard.DelegatedStaking

open Evm TransitionSystem

variable {dep : Deployment} {env : Env} {w w' : World} {s s' : State}

/-! ## Everyone who ever delegated -/

/-- An agent's list holds exactly those who ever delegated to it. -/
structure ListsBackers (s : State) : Prop where
  accounting : Accounting s
  mem_iff : ∀ delegator agent,
    delegator ∈ s.agentDelegators agent ↔ delegator ∈ backers s.log agent

namespace ListsBackers

theorem step {op : BookOp} (hs : ListsBackers s) (h : BookStep s s' op) : ListsBackers s' where
  accounting := hs.accounting.step h
  mem_iff d g := by
    cases h with
    | @record delegator agent op h =>
      rw [(hs.accounting.mem_lists_of_record h.lists d g).2, h.backers, hs.mem_iff]
      by_cases hjoin : op.isDeposit = true ∧ g = agent
      · rw [if_pos hjoin, Finset.mem_insert]
        obtain ⟨hop, rfl⟩ := hjoin
        constructor
        · rintro (hd | ⟨-, -, hd⟩)
          · exact .inr hd
          · exact .inl hd
        · rintro (rfl | hd)
          · by_cases hclosed : (s.entry d g).active = false
            · exact .inr ⟨⟨hop, hclosed⟩, rfl, rfl⟩
            · -- A deposit into an open delegation is by a delegator who is listed already.
              have hlisted := (hs.accounting.active_listed d g (by
                simpa [State.entry, entryOf] using hclosed)).2
              exact .inl ((hs.mem_iff d g).mp hlisted)
          · exact .inl hd
      · rw [if_neg hjoin]
        exact or_iff_left fun h => hjoin ⟨h.1.1, h.2.1⟩
    | distribute h =>
      rw [h.lists.agentDelegators, h.backers]
      exact hs.mem_iff d g
    | idle h _ | admin h =>
      rw [h.lists.agentDelegators, h.backers]
      exact hs.mem_iff d g

theorem fresh (deployer guardToken treasury : Address) :
    ListsBackers (State.fresh deployer guardToken treasury) where
  accounting := .fresh deployer guardToken treasury
  mem_iff _ _ := by simp [State.fresh, backers]

theorem of_reachable (hw : (system dep).Reachable w) : ListsBackers w.state :=
  reachable_books fresh (fun _ _ _ => step) hw

theorem length_eq (hs : ListsBackers s) (agent : Address) :
    (s.agentDelegators agent).length = (backers s.log agent).card := by
  rw [← List.toFinset_card_of_nodup (hs.accounting.delegators.nodup agent)]
  congr 1
  ext d
  rw [List.mem_toFinset, hs.mem_iff]

end ListsBackers

/-! ## Who joins -/

/-- The agent that a call delegates to. -/
def Call.backs : Call → Option Address
  | .delegate agent _ => some agent
  | .delegateWithHbar agent => some agent
  | _ => none

/-- Whether a step of the books is a deposit. -/
def BookOp.isDeposit : BookOp → Bool
  | .record _ _ op => op.isDeposit
  | _ => false

theorem BookSteps.backers_of_no_deposit {ops : List BookOp} (h : BookSteps s ops s')
    (hops : ∀ op ∈ ops, op.isDeposit = false) (g : Address) :
    backers s'.log g = backers s.log g := by
  induction h with
  | nil => rfl
  | @snoc t u ops op _ hstep ih =>
    rw [← ih fun op hop => hops op (List.mem_append_left _ hop)]
    have hop := hops op (List.mem_append_right _ (List.mem_singleton_self op))
    cases hstep with
    | record h =>
      rw [h.backers, if_neg]
      rintro ⟨hdeposit, -⟩
      rw [BookOp.isDeposit, hdeposit] at hop
      cases hop
    | distribute h => exact h.backers g
    | idle h _ | admin h => exact h.backers g

theorem Call.Does.no_deposit {c : Call} {ops : List BookOp} (h : c.Does env ops)
    (hc : c.backs = none) : ∀ op ∈ ops, op.isDeposit = false := by
  intro op hop
  cases c with
  | delegate | delegateWithHbar => cases hc
  | claimAllRewards | claimAllRewardsAsHbar =>
    obtain ⟨_, _, rfl⟩ := h op hop
    rfl
  | propagateSlash agent slashBps =>
    rcases h op hop with ⟨_, _, _, rfl⟩ | rfl <;> rfl
  | distributeRewards agent amount =>
    rcases h with rfl | ⟨_, rfl⟩
    · simp at hop
    · rw [List.mem_singleton.mp hop]
      rfl
  | setRewardShareBps | admin =>
    rw [Call.Does] at h
    rw [h, List.mem_singleton] at hop
    rw [hop]
    rfl
  | _ =>
    obtain ⟨x, rfl⟩ := h
    rw [List.mem_singleton.mp hop]
    rfl

theorem Call.Does.deposit {c : Call} {ops : List BookOp} {agent : Address} (h : c.Does env ops)
    (hc : c.backs = some agent) : ∃ x, ops = [.record env.sender agent (.deposit x)] := by
  cases c with
  | delegate | delegateWithHbar =>
    cases hc
    exact h
  | _ => cases hc

theorem exec_backers {c : Call} (hw : (system dep).Reachable w) (hs : env.sender ≠ dep.this)
    (h : exec dep env c w = .ok w') (g : Address) : backers w'.state.log g =
      if c.backs = some g then insert env.sender (backers w.state.log g)
      else backers w.state.log g := by
  obtain ⟨ops, hdoes, haccounts⟩ := exec_ok (reachable_minDelegation hw) hs h
  rcases hbacks : c.backs with _ | agent
  · rw [haccounts.books.backers_of_no_deposit (hdoes.no_deposit hbacks), if_neg nofun]
  · obtain ⟨x, rfl⟩ := hdoes.deposit hbacks
    cases haccounts.books.of_singleton with
    | record h =>
      rw [h.backers]
      simp [RecordOp.isDeposit, eq_comm]

/-- The step keeps an agent's backers within `M`: nobody joins whom it would carry beyond. -/
def Label.JoinsWithin (M : ℕ) (w : World) : Label → Prop
  | .call env c => ∀ agent, c.backs = some agent → env.sender ∉ backers w.state.log agent →
    (backers w.state.log agent).card < M
  | .elsewhere => True

/-- The slash loop of every agent has at most `M` iterations. -/
def World.LoopWithin (M : ℕ) (w : World) : Prop :=
  ∀ agent, (w.state.agentDelegators agent).length ≤ M

theorem loopWithin_step_iff {M : ℕ} {l : Label} (hw : (system dep).Reachable w)
    (hwithin : w.LoopWithin M) (h : Step dep w l w') : w'.LoopWithin M ↔ l.JoinsWithin M w := by
  have hbefore := ListsBackers.of_reachable hw
  have hafter := ListsBackers.of_reachable (Reachable.step hw h)
  simp only [World.LoopWithin, hbefore.length_eq, hafter.length_eq] at hwithin ⊢
  cases h with
  | elsewhere h => exact iff_of_true hwithin trivial
  | @call env c _ _ hs h =>
    simp only [exec_backers hw hs h]
    constructor
    · intro hall agent hbacks hnew
      have hcard := hall agent
      rw [if_pos hbacks, Finset.card_insert_of_notMem hnew] at hcard
      exact hcard
    · intro hjoins agent
      split_ifs with hbacks
      · by_cases hnew : env.sender ∈ backers w.state.log agent
        · rw [Finset.insert_eq_of_mem hnew]
          exact hwithin agent
        · rw [Finset.card_insert_of_notMem hnew]
          exact hjoins agent hbacks hnew
      · exact hwithin agent

/-- Along a run every slash loop stays within `M` iterations if and only if every delegation by an
address that had never delegated to the agent comes while fewer than `M` addresses ever have. -/
theorem slash_loop_bounded_iff {ts : List (Transition World Label)} (hr : (system dep).Run ts w)
    (M : ℕ) : Throughout (World.LoopWithin M) ts w ↔ ∀ tr ∈ ts, tr.label.JoinsWithin M tr.src := by
  refine hr.forall_iff (C := fun w l => l.JoinsWithin M w) ?_ fun _ _ _ => loopWithin_step_iff
  intro w h agent
  obtain ⟨deployer, guardToken, treasury, hstate⟩ := h.state_eq
  rw [hstate]
  exact Nat.zero_le M

/-- A run that leads to a single delegation. -/
theorem slash_loop_bounded_joined : ∃ ts w, (system sampleDeployment).Run ts w ∧
    (w.state.agentDelegators 3).length = 1 ∧
    (Throughout (World.LoopWithin 1) ts w ↔ ∀ tr ∈ ts, tr.label.JoinsWithin 1 tr.src) := by
  obtain ⟨w, hcalls, hw⟩ := sample_reachable
    (show ∀ call ∈ [(sampleEnv 2 0, Call.delegate 3 (10 * 10^8))], call.1.sender ≠ 1 by decide) rfl
  obtain ⟨ts, hrun⟩ := hw.exists_run
  exact ⟨ts, w, hrun, sample_read (fun w => (w.state.agentDelegators 3).length) hcalls rfl,
    slash_loop_bounded_iff hrun 1⟩

/-! ## A pool that is left and joined again -/

theorem run_execAll {calls : List (Env × Call)} {ts : List (Transition World Label)} {c : Settings}
    (hr : (system dep).Run ts w) (hset : Throughout (fun w => w.state.settings = c) ts w)
    (hs : ∀ call ∈ calls, call.1.sender ≠ dep.this) (hc : ∀ call ∈ calls, ∀ a, call.2 ≠ .admin a)
    (h : execAll dep calls w = .ok w') :
    ∃ ts', (system dep).Run ts' w' ∧ Throughout (fun w => w.state.settings = c) ts' w' := by
  induction calls generalizing w ts with
  | nil =>
    simp only [execAll, List.foldlM_nil, pure_eq_ok] at h
    exact h ▸ ⟨ts, hr, hset⟩
  | cons call calls ih =>
    simp only [execAll, List.foldlM_cons, bind_eq_ok] at h
    obtain ⟨w₁, h₁, h⟩ := h
    rw [List.forall_mem_cons] at hs hc
    have hkept := exec_settings (reachable_minDelegation hr.reachable) hs.1 hc.1 h₁
    refine ih (hr.step (.call hs.1 h₁)) ?_ hs.2 hc.2 h
    refine ⟨?_, hkept.trans hset.2⟩
    intro tr htr
    rcases List.mem_append.mp htr with htr | htr
    · exact hset.1 tr htr
    · rw [List.mem_singleton.mp htr]
      exact hset.2

/-- The sample contract, with 10 GUARD in each of the accounts 0 to 99. -/
def crowdedWorld : World where
  state := State.fresh 9 7 8
  tokens := fun _ => Ledger.spread (fun a => a.toNat < 100) (10 * 10^8) <| by
    have hcard := Finset.card_le_card_of_injOn (s := Finset.univ.filter fun a => a.toNat < 100)
      (t := Finset.range 100) Address.toNat (fun a ha => by simpa using ha) (fun a _ b _ hab => by
        exact Address.equivFin.injective (Fin.ext hab))
    rw [Finset.card_range] at hcard
    calc _ ≤ 100 * (10 * 10^8) := Nat.mul_le_mul_right _ hcard
      _ < 2^63 := by norm_num
  hbar := Ledger.single 2 (10^12) TokenLedger.trillion_lt

/-- The accounts from 10 on, each delegating 10 GUARD to account 3. -/
def joinCalls (count : ℕ) : List (Env × Call) :=
  (List.range count).map fun i =>
    (sampleEnv ⟨(10 + i) % 2^160, Nat.mod_lt _ (by positivity)⟩ 0, .delegate 3 (10 * 10^8))

/-- Fifty accounts delegate, the first of them leaves, and one more delegates. -/
def rejoinedCalls : List (Env × Call) :=
  joinCalls 50 ++ [(sampleEnv 10 0, .requestUndelegate 3 (10 * 10^8)),
    (sampleEnv 10 86400, .completeUndelegate 3), (sampleEnv 90 86400, .delegate 3 (10 * 10^8))]

/-- With the cap at 50 throughout, the loop runs over 51 delegators. -/
theorem rejoined_loop_exceeds : ∃ ts w, (system sampleDeployment).Run ts w ∧
    Throughout (fun w => w.state.maxDelegatorsPerAgent = 50) ts w ∧
    ¬ Throughout (World.LoopWithin 50) ts w := by
  obtain ⟨w, hcalls⟩ := exists_eq_ok
    (show (execAll sampleDeployment rejoinedCalls crowdedWorld).isOk = true by decide +kernel)
  have hdeployed : Deployed crowdedWorld := ⟨9, 7, 8, 22, rfl⟩
  obtain ⟨ts, hrun, hset⟩ := run_execAll (c := crowdedWorld.state.settings)
    (.init (S := system sampleDeployment) hdeployed) ⟨by simp, rfl⟩ (by decide +kernel)
    (by simp [rejoinedCalls, joinCalls, or_imp, forall_and]) hcalls
  refine ⟨ts, w, hrun, ?_, fun hwithin => ?_⟩
  · exact ⟨fun tr htr => congrArg Settings.maxDelegatorsPerAgent (hset.1 tr htr),
      congrArg Settings.maxDelegatorsPerAgent hset.2⟩
  · have hlength : (execAll sampleDeployment rejoinedCalls crowdedWorld).map
        (fun w => (w.state.agentDelegators 3).length) = .ok 51 := by decide +kernel
    rw [hcalls] at hlength
    have hbound := hwithin.2 3
    rw [show (w.state.agentDelegators 3).length = 51 from Except.ok.inj hlength] at hbound
    norm_num at hbound

end AuditGuard.DelegatedStaking
