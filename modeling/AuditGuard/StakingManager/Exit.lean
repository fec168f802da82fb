import AuditGuard.StakingManager.Activity

/-!
# The way out of a stake

An agent leaves with `requestUnstake` or `deactivate`, and is paid by `completeUnstake` when the
unbonding period is over. The first two depend on the status. A withdrawn agent becomes active again
when it tops up its stake with `stake`; nothing that a frozen agent does makes it active, so that what
the slash left of its stake stays in the contract unless an appeal is approved. `stake_exits_iff` says
exactly when an agent can get its stake out.
-/

namespace AuditGuard.StakingManager

open Evm TransitionSystem

variable {this agent : Address} {minStake : ℕ} {b b' : Books} {op : BookOp} {ops : List BookOp}

/-! ## Stakes without a way out -/

/-- The operations that an agent makes on its own stake. -/
def BookOp.OfAgent (agent : Address) : BookOp → Prop
  | .deposit a _ => a = agent
  | .request a _ => a = agent
  | .complete a => a = agent
  | .deactivate a => a = agent
  | _ => False

/-- Nothing unbonds, and the agent is frozen, or withdrawn without the tokens to top up its stake to the
minimum. -/
structure Books.Trapped (minStake : ℕ) (agent : Address) (b : Books) : Prop where
  unbonding : (b.positions agent).unbonding = 0
  status : (b.positions agent).status = .frozen ∨ (b.positions agent).status = .withdrawn ∧
    (b.guard.balance agent = 0 ∨ (b.positions agent).total + b.guard.balance agent < minStake)

/-- A trapped agent can make no operation but a deposit, after which it is trapped still. -/
theorem Books.Trapped.step (h : b.Trapped minStake agent) (hop : op.OfAgent agent)
    (hstep : BookStep this minStake b op b') :
    (∃ x, op = .deposit agent x) ∧ b'.Trapped minStake agent := by
  have hstatus := h.status
  cases hstep with
  | @deposit a x guard hx ha hpay =>
    obtain rfl := hop
    have hcovered := (Ledger.transfer_eq_some hpay).1
    have hpaid := Ledger.transfer_balance_src hpay ha
    have hposition : ((b.setPosition a ((b.positions a).deposit minStake x)).setGuard
        guard).positions a = (b.positions a).deposit minStake x := by
      simp
    refine ⟨⟨x, rfl⟩, ?_, ?_⟩
    · rw [hposition]
      exact h.unbonding
    · rw [hposition]
      rcases hstatus with hfrozen | ⟨hwithdrawn, hnone | hshort⟩
      · left
        rw [Position.deposit, if_neg (by simp [hfrozen]), hfrozen]
      · omega
      · -- The deposit moves tokens from the wallet to the stake, which stay too few together.
        right
        have htotal : ((b.positions a).deposit minStake x).total = (b.positions a).total + x := by
          simp only [Position.deposit, Position.total]
          omega
        refine ⟨?_, .inr ?_⟩
        · rw [Position.deposit, if_neg (by omega), hwithdrawn]
        · change _ + guard.balance a < minStake
          omega
  -- To request an exit, the agent would have to be active.
  | @request a x hx hactive hle hnone hmin =>
    obtain rfl := hop
    simp [hactive] at hstatus
  | @complete a guard hpos ha hpay =>
    obtain rfl := hop
    exact absurd h.unbonding hpos.ne'
  | @deactivate a hout hlocked hnone hpos =>
    obtain rfl := hop
    rcases hout with hout | hout <;> simp [hout] at hstatus
  | _ => exact hop.elim

theorem BookSteps.trapped (h : b.Trapped minStake agent) (hops : ∀ op ∈ ops, op.OfAgent agent)
    (hsteps : BookSteps this minStake b ops b') :
    (∀ op ∈ ops, ∃ x, op = .deposit agent x) ∧ b'.Trapped minStake agent := by
  induction hsteps with
  | nil => exact ⟨nofun, h⟩
  | @snoc c d ops op hsteps hstep ih =>
    simp only [List.mem_append, List.mem_singleton, or_imp, forall_and, forall_eq] at hops ⊢
    obtain ⟨hdeposits, htrapped⟩ := ih hops.1
    obtain ⟨hdeposit, htrapped⟩ := htrapped.step hops.2 hstep
    exact ⟨⟨hdeposits, hdeposit⟩, htrapped⟩

theorem BookStep.opened (h : BookStep this minStake b op b')
    (hopened : (b'.positions agent).opened = true) :
    (b.positions agent).opened = true ∨ ∃ x, op = .deposit agent x := by
  -- A position that is written is as open as it was, if it is not a deposit that writes it.
  have hwritten {a : Address} {p : Position}
      (hafter : ((b.setPosition a p).positions agent).opened = true)
      (hp : p.opened = (b.positions a).opened) : (b.positions agent).opened = true := by
    rw [Books.setPosition_positions] at hafter
    rcases eq_or_ne agent a with rfl | ha
    · rwa [Function.update_self, hp] at hafter
    · rwa [Function.update_of_ne ha] at hafter
  cases h with
  | @deposit a x guard hx ha hpay =>
    rcases eq_or_ne agent a with rfl | hne
    · exact .inr ⟨x, rfl⟩
    · refine .inl ?_
      rw [Books.setGuard_positions, Books.setPosition_positions,
        Function.update_of_ne hne] at hopened
      exact hopened
  | deny => exact .inl hopened
  | _ => exact .inl (hwritten hopened rfl)

theorem BookSteps.opened (h : BookSteps this minStake b ops b')
    (hopened : (b'.positions agent).opened = true) :
    (b.positions agent).opened = true ∨ ∃ x, BookOp.deposit agent x ∈ ops := by
  induction h with
  | nil => exact .inl hopened
  | snoc hsteps hstep ih =>
    rcases hstep.opened hopened with hbefore | ⟨x, rfl⟩
    · exact (ih hbefore).imp_right fun ⟨x, hx⟩ => ⟨x, List.mem_append_left _ hx⟩
    · exact .inr ⟨x, List.mem_append_right _ (List.mem_singleton_self _)⟩

theorem BookStep.deposit_position {a : Address} {x : ℕ}
    (h : BookStep this minStake b (.deposit a x) b') :
    b'.positions a = (b.positions a).deposit minStake x := by
  cases h
  simp

/-! ## An agent's own calls -/

/-- The functions that act on the caller's own stake and its slashes. -/
def Call.ofAgent : Call → Bool
  | .stake _ => true
  | .requestUnstake _ => true
  | .completeUnstake => true
  | .deactivate => true
  | .fileAppeal _ _ => true
  | _ => false

/-- The functions by which an agent begins to leave. -/
def Call.leaves : Call → Bool
  | .requestUnstake _ => true
  | .deactivate => true
  | _ => false

/-- A message of `agent` at the time `timestamp`, with what `outside` answers. -/
def Env.sentBy (outside : Env) (agent : Address) (timestamp : ℕ) : Env :=
  { outside with sender := agent, value := 0, timestamp := timestamp }

/-- By calls of its own, from the time `now` on, the agent gets to a `requestUnstake` or `deactivate`
that succeeds, and `completeUnstake` then pays it at least what it had available, as soon as the
unbonding period is over. -/
def World.CanExit (this : Address) (outside : Env) (agent : Address) (now : ℕ) (w : World) : Prop :=
  ∃ (calls : List (ℕ × Call)) (leave : Call) (t : ℕ) (w₁ w₂ w₃ : World),
    (now :: (calls.map Prod.fst ++ [t])).Pairwise (· ≤ ·) ∧
    (∀ call ∈ calls, call.2.ofAgent = true) ∧
    execAll this (calls.map fun call => (outside.sentBy agent call.1, call.2)) w = .ok w₁ ∧
    leave.leaves = true ∧ exec this (outside.sentBy agent t) leave w₁ = .ok w₂ ∧
    exec this (outside.sentBy agent (t + w₁.state.unbondingPeriod)) .completeUnstake w₂ = .ok w₃ ∧
    w₂.guard.balance agent + (w.state.stakes agent).availableStake ≤ w₃.guard.balance agent

section Contract

variable {env outside : Env} {w w' : World} {c : Call} {now : ℕ}

theorem Call.Does.ofAgent (hc : c.ofAgent = true) (h : c.Does env w ops) :
    ∀ op ∈ ops, op.OfAgent env.sender := by
  cases c <;> cases hc <;> cases h <;> simp [BookOp.OfAgent]

theorem exec_trapped (env : Env) (hw : w.state.core.Faithful) (hs : env.sender ≠ this) (h0 : env.sender ≠ 0)
    (hc : c.ofAgent = true) (htrapped : w.books.Trapped initialMinStake env.sender)
    (h : exec this env c w = .ok w') : c.leaves = false ∧ w'.state.core.Faithful ∧
      w'.books.Trapped initialMinStake env.sender := by
  obtain ⟨ops, hdoes, hrefines⟩ := exec_ok hw hs h0 h
  obtain ⟨hdeposits, hafter⟩ := hrefines.books.trapped htrapped (hdoes.ofAgent hc)
  refine ⟨?_, hrefines.faithful, hafter⟩
  cases c with
  | requestUnstake amount =>
    cases hdoes
    simp at hdeposits
  | deactivate =>
    cases hdoes
    simp at hdeposits
  | _ => rfl

/-- Storage with the same rules about leaving: the unbonding period, and whether it is paused. -/
def State.SameRules (s s' : State) : Prop :=
  s'.unbondingPeriod = s.unbondingPeriod ∧ s'.paused = s.paused

namespace State.SameRules

variable {s s' : State}

theorem setStake (s : State) (a : Address) (info : StakeInfo) : s.SameRules (s.setStake a info) :=
  ⟨rfl, rfl⟩

theorem recordSnapshot (h : s.SameRules s') (a : Address) (amount : ℕ) (action : String)
    (jobId : ℕ) : s.SameRules (s'.recordSnapshot env a amount action jobId) := h

theorem emit (h : s.SameRules s') (e : Event) : s.SameRules (s'.emit e) := h

end State.SameRules

theorem exec_ofAgent_rules (hc : c.ofAgent = true) (h : exec this env c w = .ok w') :
    w.state.SameRules w'.state := by
  unfold exec at h
  split_ifs at h
  cases c with
  | stake amount =>
    simp only [stake, creditStake, bind_eq_ok, transferGuard_eq_ok, pure_eq_ok] at h
    obtain ⟨_, -, _, -, _, -, w₁, ⟨-, -, hstate⟩, s', ⟨_, -, _, -, rfl⟩, rfl⟩ := h
    rw [← hstate]
    exact ((State.SameRules.setStake ..).recordSnapshot ..).emit _
  | requestUnstake amount =>
    simp only [onState_eq_ok, requestUnstake, bind_eq_ok, pure_eq_ok] at h
    obtain ⟨⟨_, -, _, -, _, -, _, -, _, -, _, -, _, -, _, -, _, -, _, -, h⟩, -⟩ := h
    exact h ▸ ((State.SameRules.setStake ..).recordSnapshot ..).emit _
  | completeUnstake =>
    simp only [completeUnstake, releaseUnbonding, bind_eq_ok, transferGuard_eq_ok, pure_eq_ok,
      Prod.exists, Prod.mk.injEq] at h
    obtain ⟨amount, s', ⟨_, -, _, -, _, -, -, rfl⟩, w₁, ⟨-, -, hstate⟩, rfl⟩ := h
    have hrules : w.state.SameRules w₁.state := hstate ▸ .setStake ..
    exact (hrules.recordSnapshot ..).emit _
  | deactivate =>
    simp only [onState_eq_ok, deactivate, bind_eq_ok, pure_eq_ok] at h
    obtain ⟨⟨_, -, _, -, _, -, _, -, _, -, _, -, _, -, h⟩, -⟩ := h
    exact h ▸ (((State.SameRules.setStake ..).recordSnapshot ..).emit _).emit _
  | fileAppeal slashId reason =>
    simp only [onState_eq_ok, fileAppeal, bind_eq_ok, pure_eq_ok] at h
    obtain ⟨⟨_, -, _, -, _, -, _, -, _, -, h⟩, -⟩ := h
    rw [← h]
    exact ⟨rfl, rfl⟩
  | _ => cases hc

theorem exec_leaves_fits (hc : c.leaves = true) (h : exec this env c w = .ok w') :
    env.timestamp + w.state.unbondingPeriod < 2^256 := by
  unfold exec at h
  split_ifs at h
  cases c with
  | requestUnstake amount =>
    simp only [onState_eq_ok, requestUnstake, bind_eq_ok, checkedAdd_eq_ok, pure_eq_ok] at h
    obtain ⟨⟨_, -, _, -, _, -, _, -, _, -, _, -, _, -, _, -, _, -, _, ⟨hfits, -⟩, -⟩, -⟩ := h
    exact hfits
  | deactivate =>
    simp only [onState_eq_ok, deactivate, bind_eq_ok, checkedAdd_eq_ok, pure_eq_ok] at h
    obtain ⟨⟨_, -, _, -, _, -, _, -, _, -, _, -, _, ⟨hfits, -⟩, -⟩, -⟩ := h
    exact hfits
  | _ => cases hc

/-- The contract is not paused, and the agent has a stake of which nothing is locked or unbonds. -/
structure World.Idle (agent : Address) (w : World) : Prop where
  unpaused : w.state.paused = false
  available : 0 < (w.state.stakes agent).availableStake
  locked : (w.state.stakes agent).lockedStake = 0
  unbonding : (w.state.stakes agent).unbondingAmount = 0

theorem World.Idle.opened (h : w.Idle agent) (hw : (system this).Reachable w) :
    (w.books.positions agent).opened = true := by
  have havailable : 0 < (w.books.positions agent).available := h.available
  refine ((reachable_regular hw).positions agent).opened_of_total_pos ?_
  rw [Position.total]
  omega

theorem stake_succeeds (env : Env) (hw : (system this).Reachable w) (hunpaused : w.state.paused = false)
    (hregistered : w.state.agentRegistry = 0 ∨ env.isActiveAgent env.sender = true)
    (haccepts : env.transferAnswer = Hts.HTS_SUCCESS) {amount : ℕ} (hpos : 0 < amount)
    (hle : amount ≤ w.guard.balance env.sender) : ∃ w', stake this env amount w = .ok w' := by
  obtain ⟨guard, hpay⟩ := (w.guard.transfer_isSome_iff env.sender this amount).mpr hle
  have htransfer : transferGuard env env.sender this amount w = .ok ⟨w.state, guard⟩ :=
    (transferGuard_eq_ok env).mpr ⟨haccepts, hpay, rfl⟩
  have hamount := w.guard.balance_lt env.sender
  have htotal := totalStaked_lt hw env.sender
  have hsplit : (w.state.stakes env.sender).Split := (reachable_faithful hw).split env.sender
  have havailable : (w.state.stakes env.sender).availableStake ≤
      (w.state.stakes env.sender).totalStaked := by
    rw [hsplit, Position.total, Nat.add_assoc]
    exact Nat.le_add_right ..
  -- No sum overflows: the tokens that exist fit in a `uint256`.
  obtain ⟨s, hcredit⟩ : ∃ s, creditStake env amount w.state = .ok s := by
    have hfits : (w.state.stakes env.sender).totalStaked + amount < 2^256 := by omega
    have hfits' : (w.state.stakes env.sender).availableStake + amount < 2^256 := by omega
    by_cases hfirst : (w.state.stakes env.sender).agent = 0
    · simp only [creditStake, if_pos hfirst, checkedAdd_of_lt hfits, checkedAdd_of_lt hfits',
        ok_bind]
      exact ⟨_, rfl⟩
    · simp only [creditStake, if_neg hfirst, checkedAdd_of_lt hfits, checkedAdd_of_lt hfits',
        ok_bind]
      exact ⟨_, rfl⟩
  rw [stake, modifier_of hunpaused, ok_bind, require_of hpos, ok_bind,
    require_of hregistered, ok_bind, htransfer, ok_bind, hcredit]
  exact ⟨_, rfl⟩

theorem deactivate_succeeds (env : Env) (h : w.Idle env.sender) (hstaked : (w.state.stakes env.sender).agent ≠ 0)
    (hstatus : (w.state.stakes env.sender).status = .active ∨
      (w.state.stakes env.sender).status = .unbonding)
    (hfits : env.timestamp + w.state.unbondingPeriod < 2^256) :
    ∃ s, deactivate env w.state = .ok s ∧
      (s.stakes env.sender).unbondingAmount = (w.state.stakes env.sender).availableStake ∧
      (s.stakes env.sender).unbondingCompleteAt = env.timestamp + w.state.unbondingPeriod := by
  simp only [deactivate, modifier_of h.unpaused, require_of hstaked, require_of hstatus,
    require_of h.locked, require_of h.unbonding, require_of h.available, checkedAdd_of_lt hfits,
    ok_bind]
  refine ⟨_, rfl, ?_⟩
  simp

theorem completeUnstake_succeeds (env : Env) (hw : (system this).Reachable w) (hs : env.sender ≠ this)
    (haccepts : env.transferAnswer = Hts.HTS_SUCCESS)
    (hpos : 0 < (w.state.stakes env.sender).unbondingAmount)
    (hdue : (w.state.stakes env.sender).unbondingCompleteAt ≤ env.timestamp) :
    ∃ w', completeUnstake this env w = .ok w' ∧ w'.guard.balance env.sender =
      w.guard.balance env.sender + (w.state.stakes env.sender).unbondingAmount := by
  have hsplit : (w.state.stakes env.sender).Split := (reachable_faithful hw).split env.sender
  have hunbonding : (w.state.stakes env.sender).unbondingAmount ≤
      (w.state.stakes env.sender).totalStaked := by
    rw [hsplit]
    exact Nat.le_add_left ..
  obtain ⟨s, hrelease⟩ : ∃ s, releaseUnbonding env w.state =
      .ok ((w.state.stakes env.sender).unbondingAmount, s) := by
    simp only [releaseUnbonding, require_of hpos, require_of hdue, checkedSub_of_le hunbonding,
      ok_bind]
    exact ⟨_, rfl⟩
  -- The contract holds every stake, and so the part of it that unbonds.
  obtain ⟨guard, hpay⟩ := (w.guard.transfer_isSome_iff this env.sender _).mpr
    (hunbonding.trans (totalStaked_le_balance hw env.sender))
  have htransfer : transferGuard env this env.sender (w.state.stakes env.sender).unbondingAmount
      { w with state := s } = .ok ⟨s, guard⟩ :=
    (transferGuard_eq_ok env).mpr ⟨haccepts, hpay, rfl⟩
  have hpaid := Ledger.transfer_balance_dst hpay hs.symm
  rw [completeUnstake, hrelease]
  simp only [ok_bind, htransfer]
  exact ⟨_, rfl, hpaid⟩

theorem Call.Does.deposit {a : Address} {x : ℕ} (h : c.Does env w ops)
    (hop : BookOp.deposit a x ∈ ops) : a = env.sender := by
  cases c with
  | stake amount =>
    cases h
    simp only [List.mem_singleton, BookOp.deposit.injEq] at hop
    exact hop.1
  | finalizeExpiredAppeals =>
    obtain ⟨ids, rfl⟩ := h
    simp at hop
  | resolveAppeal slashId approved => cases approved <;> cases h <;> simp at hop
  | _ =>
    cases h
    simp at hop

theorem staker_ne (hw : (system this).Reachable w) :
    ∀ a, (w.books.positions a).opened = true → a ≠ this ∧ a ≠ 0 := by
  refine hw.induct (I := fun w => ∀ a, (w.books.positions a).opened = true → a ≠ this ∧ a ≠ 0)
    ?_ ?_
  · intro w h a hopened
    obtain ⟨deployer, guardToken, agentRegistry, treasury, hstate⟩ := h.state_eq
    rw [World.books, hstate] at hopened
    cases hopened
  · intro w l w' hr hbefore hstep a hopened
    cases hstep with
    | call hs h0 h =>
      obtain ⟨ops, hdoes, hrefines⟩ := exec_ok (reachable_faithful hr) hs h0 h
      rcases hrefines.books.opened hopened with hopened | ⟨x, hdeposit⟩
      · exact hbefore a hopened
      · exact hdoes.deposit hdeposit ▸ ⟨hs, h0⟩
    | elsewhere _ => exact hbefore a hopened

theorem leave_succeeds (hw : (system this).Reachable w) (h : w.Idle agent)
    (haccepts : outside.transferAnswer = Hts.HTS_SUCCESS)
    (hstatus : (w.state.stakes agent).status = .active ∨
      (w.state.stakes agent).status = .unbonding)
    (hfits : now + w.state.unbondingPeriod < 2^256) :
    ∃ w' w'', exec this (outside.sentBy agent now) .deactivate w = .ok w' ∧
      exec this (outside.sentBy agent (now + w.state.unbondingPeriod)) .completeUnstake w' =
        .ok w'' ∧
      w''.guard.balance agent = w'.guard.balance agent + (w.state.stakes agent).availableStake := by
  obtain ⟨hs, h0⟩ := staker_ne hw agent (h.opened hw)
  obtain ⟨s, hdeactivate, hamount, hdate⟩ :=
    deactivate_succeeds (outside.sentBy agent now) h
    (of_decide_eq_true (h.opened hw)) hstatus hfits
  have hexec : exec this (outside.sentBy agent now) .deactivate w = .ok ⟨s, w.guard⟩ :=
    onState_eq_ok.mpr ⟨hdeactivate, rfl⟩
  have hw' := Reachable.step hw (Step.call hs h0 hexec)
  obtain ⟨w'', hcomplete, hpaid⟩ := completeUnstake_succeeds
    (outside.sentBy agent (now + w.state.unbondingPeriod)) hw' hs haccepts
    (hamount ▸ h.available) hdate.le
  exact ⟨_, w'', hexec, hcomplete, hpaid.trans (congrArg _ hamount)⟩

theorem stake_reactivates (hw : (system this).Reachable w) (h : w.Idle agent)
    (hwithdrawn : (w.state.stakes agent).status = .withdrawn) {env : Env} (hsender : env.sender = agent)
    {amount : UInt 256} (hmin : w.state.minStakeForActive ≤
      (w.state.stakes agent).totalStaked + amount)
    (hexec : exec this env (.stake amount) w = .ok w') : w'.Idle agent ∧
      (w'.state.stakes agent).status = .active ∧
      (w.state.stakes agent).availableStake ≤ (w'.state.stakes agent).availableStake := by
  subst hsender
  obtain ⟨hs, h0⟩ := staker_ne hw env.sender (h.opened hw)
  have hfaithful := reachable_faithful hw
  have hsplit : (w.state.stakes env.sender).Split := hfaithful.split env.sender
  obtain ⟨ops, rfl, hrefines⟩ := exec_ok hfaithful hs h0 hexec
  have hposition := hrefines.books.of_singleton.deposit_position
  have hunpaused := (exec_ofAgent_rules rfl hexec).2.trans h.unpaused
  -- The deposit of an agent that withdrew makes it active if the minimum is met.
  have hactive : (w'.books.positions env.sender).status = .active := by
    rw [hposition, Position.deposit, if_pos]
    refine ⟨hwithdrawn, ?_⟩
    rw [hsplit, show w.state.minStakeForActive = initialMinStake from hfaithful.minStake] at hmin
    exact hmin
  have havailable : (w'.state.stakes env.sender).availableStake =
      (w.state.stakes env.sender).availableStake + amount := congrArg Position.available hposition
  refine ⟨⟨hunpaused, ?_, ?_, ?_⟩, hactive, ?_⟩
  · rw [havailable]
    exact Nat.add_pos_left h.available _
  · exact (congrArg Position.locked hposition).trans h.locked
  · exact (congrArg Position.unbonding hposition).trans h.unbonding
  · rw [havailable]
    exact Nat.le_add_right ..

theorem execAll_ofAgent {calls : List (ℕ × Call)} (hs : agent ≠ this) (h0 : agent ≠ 0)
    (hw : w.state.core.Faithful) (hcalls : ∀ call ∈ calls, call.2.ofAgent = true)
    (h : execAll this (calls.map fun call => (outside.sentBy agent call.1, call.2)) w = .ok w') :
    w'.state.core.Faithful ∧ w.state.SameRules w'.state ∧
      (w.books.Trapped initialMinStake agent → w'.books.Trapped initialMinStake agent) := by
  induction calls generalizing w with
  | nil =>
    simp only [execAll, List.map_nil, List.foldlM_nil, pure_eq_ok] at h
    subst h
    exact ⟨hw, ⟨rfl, rfl⟩, id⟩
  | cons call calls ih =>
    simp only [execAll, List.map_cons, List.foldlM_cons, bind_eq_ok] at h
    obtain ⟨w₁, h₁, h⟩ := h
    rw [List.forall_mem_cons] at hcalls
    have hrules := exec_ofAgent_rules hcalls.1 h₁
    obtain ⟨ops, -, hrefines⟩ := exec_ok hw hs h0 h₁
    obtain ⟨hfaithful, hrest, htrapped⟩ := ih hrefines.faithful hcalls.2 h
    refine ⟨hfaithful, ⟨hrest.1.trans hrules.1, hrest.2.trans hrules.2⟩, fun hbefore => ?_⟩
    exact htrapped (exec_trapped _ hw hs h0 hcalls.1 hbefore h₁).2.2

theorem World.CanExit.fits_and_not_trapped (hs : agent ≠ this) (h0 : agent ≠ 0)
    (hw : w.state.core.Faithful) (h : w.CanExit this outside agent now) :
    now + w.state.unbondingPeriod < 2^256 ∧ ¬ w.books.Trapped initialMinStake agent := by
  obtain ⟨calls, leave, t, w₁, w₂, w₃, htimes, hcalls, hexec, hleaves, hleave, -⟩ := h
  obtain ⟨hfaithful, hrules, htrapped⟩ := execAll_ofAgent hs h0 hw hcalls hexec
  constructor
  · have hnow : now ≤ t := (List.pairwise_cons.mp htimes).1 t (by simp)
    have hfits := exec_leaves_fits hleaves hleave
    rw [hrules.1] at hfits
    exact lt_of_le_of_lt (Nat.add_le_add_right hnow _) hfits
  · intro hbefore
    have hagent : leave.ofAgent = true := by
      cases leave <;> first | rfl | cases hleaves
    have hstays := (exec_trapped (outside.sentBy agent t) hfaithful hs h0 hagent
      (htrapped hbefore) hleave).1
    rw [hleaves] at hstays
    cases hstays

/-- An idle and registered agent can get its stake out exactly if it is not frozen, the unbonding date
is a `uint256`, and, if it withdrew before, it has tokens to top up its stake to the minimum. -/
theorem stake_exits_iff (hw : (system this).Reachable w) (h : w.Idle agent)
    (hregistered : w.state.agentRegistry = 0 ∨ outside.isActiveAgent agent = true)
    (haccepts : outside.transferAnswer = Hts.HTS_SUCCESS) :
    w.CanExit this outside agent now ↔ (w.state.stakes agent).status ≠ .frozen ∧
      now + w.state.unbondingPeriod < 2^256 ∧
      ((w.state.stakes agent).status = .withdrawn → 0 < w.guard.balance agent ∧
        w.state.minStakeForActive ≤
          (w.state.stakes agent).totalStaked + w.guard.balance agent) := by
  obtain ⟨hs, h0⟩ := staker_ne hw agent (h.opened hw)
  have hfaithful := reachable_faithful hw
  have hsplit : (w.state.stakes agent).Split := hfaithful.split agent
  have hmin : w.state.minStakeForActive = initialMinStake := hfaithful.minStake
  constructor
  · intro hexit
    obtain ⟨hfits, hfree⟩ := hexit.fits_and_not_trapped hs h0 hfaithful
    refine ⟨fun hfrozen => hfree ⟨h.unbonding, .inl hfrozen⟩, hfits, fun hwithdrawn => ?_⟩
    by_contra hshort
    refine hfree ⟨h.unbonding, .inr ⟨hwithdrawn, ?_⟩⟩
    rw [hmin, hsplit] at hshort
    change w.guard.balance agent = 0 ∨
      (w.state.stakes agent).position.total + w.guard.balance agent < initialMinStake
    omega
  · rintro ⟨hfrozen, hfits, hfunds⟩
    by_cases hwithdrawn : (w.state.stakes agent).status = .withdrawn
    · -- The agent stakes all that it has, is active again, and leaves.
      obtain ⟨hpos, hmin⟩ := hfunds hwithdrawn
      have hamount := w.guard.balance_lt agent
      obtain ⟨w₁, hstake⟩ := stake_succeeds (outside.sentBy agent now) hw h.unpaused
        hregistered haccepts hpos le_rfl
      have hexec : exec this (outside.sentBy agent now)
          (.stake ⟨w.guard.balance agent, by omega⟩) w = .ok w₁ := hstake
      obtain ⟨hidle, hactive, hle⟩ := stake_reactivates hw h hwithdrawn rfl hmin hexec
      have hperiod := (exec_ofAgent_rules rfl hexec).1
      obtain ⟨w₂, w₃, hleave, hcomplete, hpaid⟩ := leave_succeeds (.step hw (.call hs h0 hexec))
        hidle haccepts (.inl hactive) (hperiod ▸ hfits)
      refine ⟨[(now, .stake ⟨w.guard.balance agent, by omega⟩)], .deactivate, now, w₁, w₂, w₃,
        by simp, by simp [Call.ofAgent], ?_, rfl, hleave, hcomplete, ?_⟩
      · simp only [execAll, List.map_cons, List.map_nil, List.foldlM_cons, hexec, ok_bind]
        rfl
      · rw [hpaid]
        exact Nat.add_le_add_left hle _
    · have hstatus : (w.state.stakes agent).status = .active ∨
          (w.state.stakes agent).status = .unbonding := by
        cases hcase : (w.state.stakes agent).status
        · exact .inl rfl
        · exact .inr rfl
        · exact absurd hcase hwithdrawn
        · exact absurd hcase hfrozen
      obtain ⟨w₂, w₃, hleave, hcomplete, hpaid⟩ := leave_succeeds hw h haccepts hstatus hfits
      exact ⟨[], .deactivate, now, w, w₂, w₃, by simp, by simp, rfl, rfl, hleave, hcomplete,
        hpaid.ge⟩

end Contract

/-! ## A small stake, and what a slash left -/

/-- An agent leaves, and comes back with less than the minimum. -/
def smallStakeCalls : List (Env × Call) := [
  (sampleEnv 2 0, .stake (100 * 10^8)),
  (sampleEnv 2 1, .deactivate),
  (sampleEnv 2 90000, .completeUnstake),
  (sampleEnv 2 90001, .stake (50 * 10^8))]

/-- The agent can get its 50 GUARD out, since it can top them up. -/
theorem stake_exits_topped_up : ∃ w, (system 1).Reachable w ∧ w.Idle 2 ∧
    (w.state.stakes 2).status = .withdrawn ∧ (w.state.stakes 2).availableStake = 50 * 10^8 ∧
    w.CanExit 1 (sampleEnv 0 0) 2 90002 := by
  obtain ⟨w, hcalls, hw⟩ := sample_reachable
    (show ∀ call ∈ smallStakeCalls, call.1.sender ≠ 1 ∧ call.1.sender ≠ 0 by decide) rfl
  have hstake := sample_read (fun w => w.state.stakes 2) hcalls
    (a := ⟨2, 50 * 10^8, 0, 50 * 10^8, 0, 0, .withdrawn, 0, 90001⟩) (by decide +kernel)
  have hperiod := sample_read (fun w => w.state.unbondingPeriod) hcalls (a := 86400) rfl
  have hmin := sample_read (fun w => w.state.minStakeForActive) hcalls (a := 100 * 10^8) rfl
  have hwallet := sample_read (fun w => w.guard.balance 2) hcalls (a := 9950 * 10^8)
    (by decide +kernel)
  have hidle : w.Idle 2 := by
    refine ⟨sample_read (fun w => w.state.paused) hcalls rfl, ?_, ?_, ?_⟩ <;> rw [hstake]
    norm_num
  refine ⟨w, hw, hidle, by rw [hstake], by rw [hstake],
    (stake_exits_iff hw hidle (.inr rfl) rfl).mpr ⟨?_, ?_, fun _ => ?_⟩⟩
  · rw [hstake]
    decide
  · rw [hperiod]
    norm_num
  · rw [hstake, hmin, hwallet]
    norm_num

/-- A slash of 5% on a stake of 100 GUARD, without an appeal. -/
def frozenCalls : List (Env × Call) :=
  slasherCalls ++ [
    (sampleEnv 2 0, .stake (100 * 10^8)),
    (sampleEnv 5 1, .initiateSlash 2 0 0 .falsePositive 0),
    (sampleEnv 6 50000, .finalizeExpiredAppeals)]

/-- Once the slash is settled, the 95 GUARD that it left are trapped, although the agent has tokens to
top them up. -/
theorem frozen_stake_trapped : ∃ w, (system 1).Reachable w ∧ w.Idle 2 ∧
    (∀ i, (w.state.slashRecords i).agent = 2 → (w.state.slashRecords i).appealStatus ≠ .pending) ∧
    (w.state.stakes 2).availableStake = 95 * 10^8 ∧ w.guard.balance 2 = 9900 * 10^8 ∧
    ∀ outside now, ¬ w.CanExit 1 outside 2 now := by
  obtain ⟨w, hcalls, hw⟩ := sample_reachable
    (show ∀ call ∈ frozenCalls, call.1.sender ≠ 1 ∧ call.1.sender ≠ 0 by decide) rfl
  have hstake := sample_read (fun w => w.state.stakes 2) hcalls
    (a := ⟨2, 95 * 10^8, 0, 95 * 10^8, 0, 0, .frozen, 0, 1⟩) (by decide +kernel)
  have hidle : w.Idle 2 := by
    refine ⟨sample_read (fun w => w.state.paused) hcalls rfl, ?_, ?_, ?_⟩ <;> rw [hstake]
    norm_num
  refine ⟨w, hw, hidle, fun i hagent hpending => ?_, by rw [hstake],
    sample_read (fun w => w.guard.balance 2) hcalls rfl, fun outside now hexit => ?_⟩
  · have hnext := sample_read (fun w => w.state.nextSlashId) hcalls (a := 2) rfl
    have hlt : i < w.state.nextSlashId := (reachable_faithful hw).lt_next_of_pending hpending
    have hnone := sample_read (fun w => (w.state.slashRecords 0).appealStatus) hcalls (a := .none)
      rfl
    have hdenied := sample_read (fun w => (w.state.slashRecords 1).appealStatus) hcalls
      (a := .denied) rfl
    -- There was one slash, which is settled.
    obtain rfl | rfl : i = 0 ∨ i = 1 := by omega
    · exact absurd (hnone.symm.trans hpending) (by decide)
    · exact absurd (hdenied.symm.trans hpending) (by decide)
  · refine (hexit.fits_and_not_trapped (by decide) (by decide) (reachable_faithful hw)).2
      ⟨hidle.unbonding, .inl ?_⟩
    change (w.state.stakes 2).status = .frozen
    rw [hstake]

end AuditGuard.StakingManager
