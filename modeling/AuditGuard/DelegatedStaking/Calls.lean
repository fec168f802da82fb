import AuditGuard.DelegatedStaking.Effects

/-!
# The calls as steps of the books

Each call that returns has taken a list of steps of the books, and `Call.Does` says which. It moves
GUARD with them: what comes into the contract is at least the inflow of the list, and what goes out
is at most its outflow. The one thing that this takes on trust is that the `HbarPool` deals in the
contract's own token, and it speaks of one token, so that `setGuardToken` is set apart
(`Call.Backed`).
-/

namespace AuditGuard.DelegatedStaking

open Evm

/-- The steps of the books that a call takes. -/
def Call.Does (env : Env) : Call → List BookOp → Prop
  | .delegate agent _, ops => ∃ x, ops = [.record env.sender agent (.deposit x)]
  | .delegateWithHbar agent, ops => ∃ x, ops = [.record env.sender agent (.deposit x)]
  | .requestUndelegate agent _, ops => ∃ x, ops = [.record env.sender agent (.unbond x)]
  | .completeUndelegate agent, ops => ∃ x, ops = [.record env.sender agent (.complete x)]
  | .completeUndelegateToHbar agent, ops => ∃ x, ops = [.record env.sender agent (.complete x)]
  | .distributeRewards agent _, ops => ops = [] ∨ ∃ share, ops = [.distribute agent share]
  | .claimRewards agent, ops => ∃ x, ops = [.record env.sender agent (.claim x)]
  | .claimRewardsAsHbar agent, ops => ∃ x, ops = [.record env.sender agent (.claim x)]
  | .claimAllRewards, ops => ∀ op ∈ ops, op.ClaimBy env.sender
  | .claimAllRewardsAsHbar, ops => ∀ op ∈ ops, op.ClaimBy env.sender
  | .setRewardShareBps _, ops => ops = [.idle]
  | .propagateSlash agent _, ops => ∀ op ∈ ops, op.SlashOf agent ∨ op = .idle
  | .admin _, ops => ops = [.admin]

/-- GUARD that the contract holds. -/
def World.held (dep : Deployment) (w : World) : ℕ := w.guard.balance dep.this

/-- The call keeps to one GUARD token: it does not set another, and the pool that it converts through
deals in it. -/
def Call.Backed (dep : Deployment) (w : World) : Call → Prop
  | .delegateWithHbar _ => dep.hbarPools w.state.hbarPool = some w.state.guardToken
  | .admin (.setGuardToken _) => False
  | _ => True

/-- The steps `ops` lead from the books of `w` to those of `w'`, and, if the call is `backed`, GUARD
moved with them. -/
structure Accounts (dep : Deployment) (backed : Prop) (w w' : World) (ops : List BookOp) : Prop where
  books : BookSteps w.state ops w'.state
  held : backed → w.held dep + inflow ops ≤ w'.held dep + outflow ops

variable {dep : Deployment} {env : Env} {agent : Address} {w w' : World}

/-! ## Payments -/

theorem transferGuard_ok {src dst : Address} {x : ℕ}
    (h : transferGuard dep env src dst x w = .ok w') : w'.state = w.state ∧ w'.hbar = w.hbar ∧
      w.guard.transfer src dst x = some w'.guard := by
  simp only [transferGuard, bind_eq_ok, orRevert_eq_ok, pure_eq_ok] at h
  obtain ⟨guard, hguard, rfl⟩ := h
  refine ⟨rfl, rfl, ?_⟩
  split_ifs at hguard
  rw [hguard, World.guard]
  simp only [Function.update_self]

theorem transferGuard_isOk {src dst : Address} {x : ℕ} (haccepts : env.tokenAccepts = true)
    (hx : x ≤ w.guard.balance src) : ∃ w', transferGuard dep env src dst x w = .ok w' := by
  obtain ⟨guard, hguard⟩ := (Ledger.transfer_isSome_iff w.guard src dst x).mpr hx
  refine ⟨{ w with tokens := Function.update w.tokens w.state.guardToken guard }, ?_⟩
  rw [transferGuard, if_pos haccepts, hguard]
  rfl

theorem transferGuard_out {dst : Address} {x : ℕ}
    (h : transferGuard dep env dep.this dst x w = .ok w') : w.held dep ≤ w'.held dep + x :=
  Ledger.transfer_src_le (transferGuard_ok h).2.2

theorem transferGuard_in {src : Address} {x : ℕ} (hs : src ≠ dep.this)
    (h : transferGuard dep env src dep.this x w = .ok w') : w'.held dep = w.held dep + x :=
  Ledger.transfer_balance_dst (transferGuard_ok h).2.2 hs

theorem payInHbar_ok {x : ℕ} (h : payInHbar dep env x w = .ok w') :
    w'.state = w.state ∧ w.held dep ≤ w'.held dep + x := by
  simp only [payInHbar, bind_eq_ok, orRevert_eq_ok, pure_eq_ok, Prod.exists] at h
  obtain ⟨token, -, guard, hbar, hpay, rfl⟩ := h
  obtain ⟨htransfer, hpos, hallowance, -⟩ := HbarPool.guardToHbarFor_spec hpay
  refine ⟨rfl, ?_⟩
  have htoken : token = w.state.guardToken := by
    by_contra hne
    rw [if_neg hne] at hallowance
    omega
  subst htoken
  simp only [World.held, World.guard, Function.update_self]
  exact Ledger.transfer_src_le htransfer

/-! ## Calls -/

theorem delegate_writes {x : ℕ} (hmin : 0 < w.state.minDelegation)
    (h : delegate dep env agent x w = .ok w') :
    RecordChange w.state w'.state env.sender agent (.deposit x) ∧
      w.guard.transfer env.sender dep.this x = some w'.guard := by
  simp only [delegate, bind_eq_ok, modifier_eq_ok, require_eq_ok, pure_eq_ok] at h
  obtain ⟨_, -, _, hle, w₁, hpay, state, hdel, rfl⟩ := h
  obtain ⟨hstate, -, htransfer⟩ := transferGuard_ok hpay
  rw [hstate] at hdel
  have hchange := executeDelegation_ok (by omega) hdel
  have htoken : state.guardToken = w.state.guardToken :=
    congrArg Settings.guardToken hchange.settings
  refine ⟨hchange, ?_⟩
  rw [htransfer, World.guard, World.guard, hstate]
  simp only [htoken]

theorem delegate_ok {x : ℕ} (hmin : 0 < w.state.minDelegation) (hs : env.sender ≠ dep.this)
    (h : delegate dep env agent x w = .ok w') :
    Accounts dep True w w' [.record env.sender agent (.deposit x)] := by
  obtain ⟨hchange, htransfer⟩ := delegate_writes hmin h
  have hbalance := Ledger.transfer_balance_dst htransfer hs
  refine ⟨(BookStep.record hchange).steps, fun _ => ?_⟩
  rw [World.held, World.held, hbalance]
  simp [inflow, outflow, BookOp.inflow, BookOp.outflow, RecordOp.inflow, RecordOp.outflow]

theorem delegateWithHbar_ok (hmin : 0 < w.state.minDelegation)
    (h : delegateWithHbar dep env agent w = .ok w') :
    ∃ x, Accounts dep (dep.hbarPools w.state.hbarPool = some w.state.guardToken) w w'
      [.record env.sender agent (.deposit x)] := by
  simp only [delegateWithHbar, bind_eq_ok, modifier_eq_ok, require_eq_ok, orRevert_eq_ok,
    pure_eq_ok, Prod.exists] at h
  obtain ⟨_, -, _, -, _, -, hbar₁, -, token, htoken, x, guard, hbar₂, hpool, _, hle, state, hdel,
    rfl⟩ := h
  obtain ⟨-, -, htransfer, -⟩ := HbarPool.hbarToGuard_spec hpool
  have hlt := lt_of_le_of_lt (Ledger.transfer_eq_some htransfer).1 (Ledger.balance_lt _ _)
  rw [truncate_of_lt (hlt.trans (by norm_num))] at hdel
  have hchange := executeDelegation_ok (by omega) hdel
  refine ⟨x, (BookStep.record hchange).steps, fun hbacked => ?_⟩
  obtain rfl : token = w.state.guardToken := Option.some_inj.mp (htoken.symm.trans hbacked)
  have hne : w.state.hbarPool ≠ dep.this := by
    intro heq
    rw [heq, dep.this_not_pool] at htoken
    cases htoken
  have hbal := Ledger.transfer_balance_dst htransfer hne
  have hguard : state.guardToken = w.state.guardToken := congrArg Settings.guardToken hchange.settings
  simp only [World.held, World.guard, hguard, Function.update_self, hbal]
  simp [inflow, outflow, BookOp.inflow, BookOp.outflow, RecordOp.inflow, RecordOp.outflow]

theorem Accounts.of_payment {state : State} {op : BookOp} {e : Event} {x : ℕ}
    (hstep : BookStep w.state (state.emit e) op) (hop : op.inflow = 0 ∧ op.outflow = x)
    (hstate : w'.state = state) (hsettings : state.settings = w.state.settings)
    (hheld : ({ w with state := state } : World).held dep ≤ w'.held dep + x) :
    Accounts dep True w (w'.emit e) [op] := by
  have hguard : state.guardToken = w.state.guardToken := congrArg Settings.guardToken hsettings
  refine ⟨by simpa [World.emit, hstate] using hstep.steps, fun _ => ?_⟩
  simp only [World.held, World.guard, World.emit, hstate, State.emit_guardToken, hguard] at hheld ⊢
  simpa [inflow, outflow, hop.1, hop.2] using hheld

theorem completeUndelegate_ok (h : completeUndelegate dep env agent w = .ok w') :
    ∃ x, Accounts dep True w w' [.record env.sender agent (.complete x)] := by
  simp only [completeUndelegate, bind_eq_ok, pure_eq_ok, Prod.exists] at h
  obtain ⟨x, state, hcomplete, w₁, hpay, rfl⟩ := h
  have hchange := executeCompleteUndelegate_ok hcomplete
  exact ⟨x, .of_payment (.record hchange) ⟨rfl, rfl⟩ (transferGuard_ok hpay).1 hchange.settings
    (transferGuard_out hpay)⟩

theorem completeUndelegateToHbar_ok (h : completeUndelegateToHbar dep env agent w = .ok w') :
    ∃ x, Accounts dep True w w' [.record env.sender agent (.complete x)] := by
  simp only [completeUndelegateToHbar, bind_eq_ok, pure_eq_ok, Prod.exists] at h
  obtain ⟨_, -, x, state, hcomplete, w₁, hpay, rfl⟩ := h
  have hchange := executeCompleteUndelegate_ok hcomplete
  exact ⟨x, .of_payment (.record hchange) ⟨rfl, rfl⟩ (payInHbar_ok hpay).1 hchange.settings
    (payInHbar_ok hpay).2⟩

theorem claimRewards_ok (h : claimRewards dep env agent w = .ok w') :
    ∃ x, Accounts dep True w w' [.record env.sender agent (.claim x)] := by
  simp only [claimRewards, bind_eq_ok, pure_eq_ok, Prod.exists] at h
  obtain ⟨x, state, hclaim, w₁, hpay, rfl⟩ := h
  have hchange := executeClaimRewards_ok hclaim
  exact ⟨x, .of_payment (.record hchange) ⟨rfl, rfl⟩ (transferGuard_ok hpay).1 hchange.settings
    (transferGuard_out hpay)⟩

theorem claimRewardsAsHbar_ok (h : claimRewardsAsHbar dep env agent w = .ok w') :
    ∃ x, Accounts dep True w w' [.record env.sender agent (.claim x)] := by
  simp only [claimRewardsAsHbar, bind_eq_ok, pure_eq_ok, Prod.exists] at h
  obtain ⟨_, -, x, state, hclaim, w₁, hpay, rfl⟩ := h
  have hchange := executeClaimRewards_ok hclaim
  exact ⟨x, .of_payment (.record hchange) ⟨rfl, rfl⟩ (payInHbar_ok hpay).1 hchange.settings
    (payInHbar_ok hpay).2⟩

theorem inflow_of_claims {delegator : Address} {ops : List BookOp}
    (hops : ∀ op ∈ ops, op.ClaimBy delegator) : inflow ops = 0 ∧ BookOp.admin ∉ ops := by
  constructor
  · rw [inflow, List.sum_eq_zero]
    intro n hn
    obtain ⟨op, hop, rfl⟩ := List.mem_map.mp hn
    obtain ⟨_, _, rfl⟩ := hops op hop
    rfl
  · intro hadmin
    obtain ⟨_, _, h⟩ := hops _ hadmin
    cases h

theorem Accounts.of_claims {state : State} {x : ℕ}
    (hloop : executeClaimAllRewards env w.state = .ok (x, state)) (hstate : w'.state = state)
    (hheld : ({ w with state := state } : World).held dep ≤ w'.held dep + x) :
    ∃ ops, (∀ op ∈ ops, op.ClaimBy env.sender) ∧ Accounts dep True w w' ops := by
  obtain ⟨ops, hops, hsteps, hx⟩ := claimLoop_ok hloop
  obtain ⟨hin, hadmin⟩ := inflow_of_claims hops
  have hguard : state.guardToken = w.state.guardToken :=
    congrArg Settings.guardToken (hsteps.settings hadmin)
  refine ⟨ops, hops, hstate ▸ hsteps, fun _ => ?_⟩
  simp only [World.held, World.guard, hstate, hguard] at hheld ⊢
  omega

theorem claimAllRewards_ok (h : claimAllRewards dep env w = .ok w') :
    ∃ ops, (∀ op ∈ ops, op.ClaimBy env.sender) ∧ Accounts dep True w w' ops := by
  simp only [claimAllRewards, bind_eq_ok, Prod.exists] at h
  obtain ⟨x, state, hloop, hpay⟩ := h
  exact Accounts.of_claims hloop (transferGuard_ok hpay).1 (transferGuard_out hpay)

theorem claimAllRewardsAsHbar_ok (h : claimAllRewardsAsHbar dep env w = .ok w') :
    ∃ ops, (∀ op ∈ ops, op.ClaimBy env.sender) ∧ Accounts dep True w w' ops := by
  simp only [claimAllRewardsAsHbar, bind_eq_ok, Prod.exists] at h
  obtain ⟨_, -, x, state, hloop, _, -, hpay⟩ := h
  exact Accounts.of_claims hloop (payInHbar_ok hpay).1 (payInHbar_ok hpay).2

theorem distributeRewards_ok {x : ℕ} (hs : env.sender ≠ dep.this)
    (h : distributeRewards dep env agent x w = .ok w') :
    ∃ ops, (ops = [] ∨ ∃ share, ops = [.distribute agent share]) ∧ Accounts dep True w w' ops := by
  have hnothing : Accounts dep True w w [] := ⟨.nil, fun _ => le_rfl⟩
  simp only [distributeRewards, bind_eq_ok, require_eq_ok] at h
  obtain ⟨_, -, _, -, h⟩ := h
  -- Nothing happens without delegators, or when the share of the delegators rounds to zero.
  split_ifs at h with h0
  · rw [pure_eq_ok] at h
    exact ⟨[], .inl rfl, h ▸ hnothing⟩
  · simp only [bind_eq_ok] at h
    obtain ⟨product, -, h⟩ := h
    generalize truncate 96 (product / 10000) = share at h
    split_ifs at h with h1
    · rw [pure_eq_ok] at h
      exact ⟨[], .inl rfl, h ▸ hnothing⟩
    · simp only [bind_eq_ok, checkedMul_eq_ok, checkedAdd_eq_ok, pure_eq_ok] at h
      obtain ⟨w₁, hpay, _, ⟨-, rfl⟩, _, ⟨-, rfl⟩, _, ⟨hacc, rfl⟩, rfl⟩ := h
      have hstate := (transferGuard_ok hpay).1
      have hheld := transferGuard_in hs hpay
      have hpos : 0 < (w.state.agentPools agent).totalDelegated :=
        Nat.pos_of_ne_zero fun h => h0 (.inl h)
      refine ⟨[.distribute agent share], .inr ⟨share, rfl⟩, (BookStep.distribute ?_).steps, fun _ => ?_⟩
      · simp only [hstate]
        exact ⟨rfl, rfl, hpos, hacc, rfl, rfl, ⟨rfl, rfl, rfl, rfl⟩,
          by simp [World.emit, Event.claimed], by simp [World.emit, Event.backer]⟩
      · have hguard : w₁.state.guardToken = w.state.guardToken := by rw [hstate]
        simp only [World.held, World.guard, World.emit, State.emit_guardToken,
          State.setPool_guardToken, hguard] at hheld ⊢
        simp [hheld, inflow, outflow, BookOp.inflow, BookOp.outflow]

/-- `propagateSlash` slashes records, and pays what it took to the treasury. -/
theorem propagateSlash_ok {bps : ℕ} (h : propagateSlash dep env agent bps w = .ok w') :
    ∃ ops, (∀ op ∈ ops, op.SlashOf agent ∨ op = .idle) ∧ Accounts dep True w w' ops := by
  simp only [propagateSlash, bind_eq_ok, require_eq_ok] at h
  obtain ⟨_, -, _, -, h⟩ := h
  by_cases h0 : (w.state.agentPools agent).totalDelegated = 0
  · rw [if_pos h0, pure_eq_ok] at h
    exact ⟨[], by simp, h ▸ ⟨.nil, fun _ => le_rfl⟩⟩
  · rw [if_neg h0] at h
    simp only [bind_eq_ok, pure_eq_ok] at h
    obtain ⟨loop, hloop, w₁, hpay, rfl⟩ := h
    obtain ⟨ops, hops, hsteps, htot⟩ := slashLoop_ok hloop
    have hloopSettings : loop.state.settings = w.state.settings := slashLoop_settings hloop
    -- A slash takes in nothing; what it takes from the delegators goes to the treasury.
    have hin : inflow ops = 0 := by
      rw [inflow, List.sum_eq_zero]
      intro n hn
      obtain ⟨op, hop, rfl⟩ := List.mem_map.mp hn
      obtain ⟨_, _, _, rfl⟩ := hops op hop
      rfl
    obtain ⟨hstate, hheld⟩ : w₁.state = loop.state ∧
        ({ w with state := loop.state } : World).held dep ≤ w₁.held dep + outflow ops := by
      rw [Nat.zero_add] at htot
      split_ifs at hpay
      · exact ⟨(transferGuard_ok hpay).1, htot ▸ transferGuard_out hpay⟩
      · rw [pure_eq_ok] at hpay
        subst hpay
        exact ⟨rfl, Nat.le_add_right _ _⟩
    -- The event at the end is a step of its own.
    have hidle : BookStep loop.state
        (loop.state.emit (.delegationSlashed agent loop.totalSlashed loop.slashedCount)) .idle :=
      .idle ⟨rfl, fun _ _ => rfl, rfl, ⟨rfl, rfl, rfl, rfl⟩, by simp [Event.claimed],
        by simp [Event.backer]⟩ rfl
    refine ⟨ops ++ [.idle], ?_, ?_, fun _ => ?_⟩
    · intro op hop
      rcases List.mem_append.mp hop with hop | hop
      · exact .inl (hops op hop)
      · exact .inr (List.mem_singleton.mp hop)
    · simp only [World.emit, hstate]
      exact hsteps.append hidle.steps
    · have hguard : loop.state.guardToken = w.state.guardToken :=
        congrArg Settings.guardToken hloopSettings
      simp only [World.held, World.guard, World.emit, State.emit_guardToken, hstate, hguard] at hheld ⊢
      rw [inflow_append, outflow_append, hin]
      exact hheld

theorem Accounts.of_state {state : State} {op : BookOp} (backed : Prop)
    (hstep : BookStep w.state state op)
    (hflow : op.inflow = 0 ∧ op.outflow = 0)
    (hguard : backed → state.guardToken = w.state.guardToken) :
    Accounts dep backed w { w with state := state } [op] := by
  refine ⟨hstep.steps, fun h => ?_⟩
  simp [World.held, World.guard, hguard h, inflow, outflow, hflow.1, hflow.2]

/-- Every call takes steps of the books, and moves GUARD with them. -/
theorem exec_ok {c : Call} (hmin : 0 < w.state.minDelegation) (hs : env.sender ≠ dep.this)
    (h : exec dep env c w = .ok w') :
    ∃ ops, c.Does env ops ∧ Accounts dep (c.Backed dep w) w w' ops := by
  unfold exec at h
  split_ifs at h with hvalue
  cases c with
  | delegate agent amount => exact ⟨_, ⟨_, rfl⟩, delegate_ok hmin hs h⟩
  | delegateWithHbar agent =>
    obtain ⟨x, hx⟩ := delegateWithHbar_ok hmin h
    exact ⟨_, ⟨x, rfl⟩, hx⟩
  | requestUndelegate agent amount =>
    simp only [bind_eq_ok, pure_eq_ok] at h
    obtain ⟨state, hstate, rfl⟩ := h
    obtain ⟨x, hchange⟩ := requestUndelegate_ok hstate
    exact ⟨_, ⟨x, rfl⟩, .of_state True (.record hchange) ⟨rfl, rfl⟩
      fun _ => congrArg Settings.guardToken hchange.settings⟩
  | completeUndelegate agent =>
    obtain ⟨x, hx⟩ := completeUndelegate_ok h
    exact ⟨_, ⟨x, rfl⟩, hx⟩
  | completeUndelegateToHbar agent =>
    obtain ⟨x, hx⟩ := completeUndelegateToHbar_ok h
    exact ⟨_, ⟨x, rfl⟩, hx⟩
  | distributeRewards agent amount => exact distributeRewards_ok hs h
  | claimRewards agent =>
    obtain ⟨x, hx⟩ := claimRewards_ok h
    exact ⟨_, ⟨x, rfl⟩, hx⟩
  | claimRewardsAsHbar agent =>
    obtain ⟨x, hx⟩ := claimRewardsAsHbar_ok h
    exact ⟨_, ⟨x, rfl⟩, hx⟩
  | claimAllRewards => exact claimAllRewards_ok h
  | claimAllRewardsAsHbar => exact claimAllRewardsAsHbar_ok h
  | setRewardShareBps bps =>
    simp only [bind_eq_ok, pure_eq_ok] at h
    obtain ⟨state, hstate, rfl⟩ := h
    have hstep := setRewardShareBps_ok hstate
    exact ⟨_, rfl, .of_state True hstep ⟨rfl, rfl⟩
      fun _ => congrArg Settings.guardToken (hstep.settings (by rintro ⟨⟩))⟩
  | propagateSlash agent slashBps => exact propagateSlash_ok h
  -- Changing the token is backed only if the contract holds enough of the new one.
  | admin c =>
    simp only [bind_eq_ok, pure_eq_ok] at h
    obtain ⟨state, hstate, rfl⟩ := h
    obtain ⟨hbooks, -, hguard⟩ := execAdmin_ok hstate
    refine ⟨_, rfl, .of_state _ (.admin hbooks) ⟨rfl, rfl⟩ fun hbacked => hguard fun t ht => ?_⟩
    subst ht
    exact hbacked

theorem exec_settings {c : Call} (hmin : 0 < w.state.minDelegation) (hs : env.sender ≠ dep.this)
    (hc : ∀ a, c ≠ .admin a) (h : exec dep env c w = .ok w') :
    w'.state.settings = w.state.settings := by
  obtain ⟨ops, hdoes, haccounts⟩ := exec_ok hmin hs h
  refine haccounts.books.settings fun hadmin => ?_
  cases c with
  | claimAllRewards | claimAllRewardsAsHbar => exact (inflow_of_claims hdoes).2 hadmin
  | propagateSlash agent slashBps =>
    rcases hdoes _ hadmin with ⟨_, _, _, h⟩ | h <;> cases h
  | admin a => exact hc a rfl
  | distributeRewards agent amount =>
    rcases hdoes with rfl | ⟨_, rfl⟩ <;> simp at hadmin
  | setRewardShareBps bps =>
    rw [hdoes] at hadmin
    simp at hadmin
  | _ =>
    obtain ⟨x, rfl⟩ := hdoes
    simp at hadmin

theorem exec_minDelegation {c : Call} (hmin : 0 < w.state.minDelegation)
    (hs : env.sender ≠ dep.this) (h : exec dep env c w = .ok w') : 0 < w'.state.minDelegation := by
  by_cases hc : ∃ a, c = .admin a
  · obtain ⟨a, rfl⟩ := hc
    unfold exec at h
    split_ifs at h
    simp only [bind_eq_ok, pure_eq_ok] at h
    obtain ⟨state, hstate, rfl⟩ := h
    exact (execAdmin_ok hstate).2.1 hmin
  · have hset := exec_settings hmin hs (fun a ha => hc ⟨a, ha⟩) h
    rw [show w'.state.minDelegation = w.state.minDelegation from congrArg Settings.minDelegation hset]
    exact hmin

/-! ## Runs -/

theorem reachable_minDelegation (hw : (system dep).Reachable w) : 0 < w.state.minDelegation := by
  refine hw.induct (I := fun w => 0 < w.state.minDelegation) ?_ ?_
  · intro w h
    obtain ⟨deployer, guardToken, treasury, hstate⟩ := h.state_eq
    rw [hstate]
    norm_num [State.fresh]
  · rintro w l w' - hmin (⟨hs, h⟩ | h)
    · exact exec_minDelegation hmin hs h
    · exact hmin

theorem reachable_books {P : State → Prop}
    (h0 : ∀ deployer guardToken treasury, P (State.fresh deployer guardToken treasury))
    (hstep : ∀ s s' op, P s → BookStep s s' op → P s') (hw : (system dep).Reachable w) :
    P w.state := by
  refine hw.induct (I := fun w => P w.state) ?_ ?_
  · intro w h
    obtain ⟨deployer, guardToken, treasury, hstate⟩ := h.state_eq
    exact hstate ▸ h0 deployer guardToken treasury
  · rintro w l w' hr hP (⟨hs, h⟩ | h)
    · obtain ⟨ops, -, haccounts⟩ := exec_ok (reachable_minDelegation hr) hs h
      exact haccounts.books.induct (fun s op s' => hstep s s' op) hP
    · exact hP

end AuditGuard.DelegatedStaking
