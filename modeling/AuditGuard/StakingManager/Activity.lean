import AuditGuard.StakingManager.Escrow

/-!
# Active agents and their collateral

`minStakeForActive` is documented as the minimum stake for an agent to remain ACTIVE. The stake that
backs an agent is the effective one, without the part that unbonds. Three calls can leave an active
agent with less: a first stake makes the agent active whatever its amount, since ACTIVE is the status of
a stake that was never written, and a slash or an approved appeal compares the total stake, with its
unbonding part, to the minimum. `active_collateralised_iff` says exactly when they do.
-/

namespace AuditGuard.StakingManager

open Evm TransitionSystem

variable {this : Address} {minStake : ℕ} {b b' : Books} {op : BookOp} {ops : List BookOp}

/-! ## Positions -/

namespace Position

/-- A position that was never opened is empty, and nothing unbonds once all was withdrawn. -/
structure Regular (p : Position) : Prop where
  closed : p.opened = false → p = zero
  withdrawn : p.status = .withdrawn → p.unbonding = 0

/-- If the agent is active, its effective stake is at least the minimum. -/
def Collateralised (minStake : ℕ) (p : Position) : Prop :=
  p.opened = true → p.status = .active → minStake ≤ p.effective

variable {p : Position} {x bps : ℕ}

theorem Regular.opened_of_total_pos (h : p.Regular) (hpos : 0 < p.total) : p.opened = true := by
  by_contra hclosed
  rw [h.closed (by simpa using hclosed)] at hpos
  exact absurd hpos (by decide)

theorem Regular.of_opened (hopened : p.opened = true)
    (hwithdrawn : p.status = .withdrawn → p.unbonding = 0) : p.Regular where
  closed h := by
    rw [hopened] at h
    cases h
  withdrawn := hwithdrawn

theorem effective_slash : (p.slash minStake bps).effective = p.effective - p.slashAmount bps := by
  simp only [slash, charge, effective]
  omega

theorem collateralised_deposit_iff (hp : p.Regular) (h : p.Collateralised minStake) :
    (p.deposit minStake x).Collateralised minStake ↔ (p.opened = false → minStake ≤ x) := by
  rcases hopened : p.opened with _ | _
  · rw [hp.closed hopened]
    simp [Collateralised, deposit, zero, effective, total]
  · refine iff_of_true (fun _ hactive => ?_) (by rintro ⟨⟩)
    have heffective : (p.deposit minStake x).effective = p.effective + x := by
      simp only [deposit, effective]
      omega
    rw [heffective]
    by_cases hreturn : p.status = .withdrawn ∧ minStake ≤ p.total + x
    · -- Nothing unbonds, so that the total is the effective stake.
      have hnone := hp.withdrawn hreturn.1
      rw [total, hnone] at hreturn
      exact hreturn.2
    · have hbefore : p.status = .active := by
        rwa [deposit, if_neg hreturn] at hactive
      have hle := h hopened hbefore
      omega

theorem collateralised_slash_iff (hopened : p.opened = true) :
    (p.slash minStake bps).Collateralised minStake ↔ (p.status = .active →
      p.total - p.slashAmount bps < minStake ∨ bps = 10000 ∨
        minStake ≤ p.effective - p.slashAmount bps) := by
  rw [Collateralised, effective_slash]
  by_cases hfreeze : p.total - p.slashAmount bps < minStake ∨ bps = 10000
  · refine iff_of_true (fun _ hactive => ?_) fun _ => or_assoc.mp (.inl hfreeze)
    rw [slash, if_pos hfreeze] at hactive
    cases hactive
  · have hstatus : (p.slash minStake bps).status = p.status := if_neg hfreeze
    rw [hstatus, ← or_assoc, or_iff_right hfreeze]
    exact ⟨fun h => h hopened, fun h _ => h⟩

theorem collateralised_restore_iff (hopened : p.opened = true) (h : p.Collateralised minStake) :
    (p.restore minStake x).Collateralised minStake ↔
      (p.status = .frozen → minStake ≤ p.total + x → minStake ≤ p.effective + x) := by
  have heffective : (p.restore minStake x).effective = p.effective + x := by
    simp only [restore, effective]
    omega
  rw [Collateralised, heffective]
  by_cases hthaw : p.status = .frozen ∧ minStake ≤ p.total + x
  · have hstatus : (p.restore minStake x).status = .active := if_pos hthaw
    exact ⟨fun h _ _ => h hopened hstatus, fun h _ _ => h hthaw.1 hthaw.2⟩
  · have hstatus : (p.restore minStake x).status = p.status := if_neg hthaw
    refine iff_of_true (fun _ hactive => ?_) fun hfrozen hmin => absurd ⟨hfrozen, hmin⟩ hthaw
    exact (h hopened (hstatus ▸ hactive)).trans (Nat.le_add_right _ _)

end Position

/-! ## Books -/

namespace Books

/-- All positions are regular, and a pending slash is one of an agent that staked. -/
structure Regular (b : Books) : Prop where
  positions : ∀ a, (b.positions a).Regular
  slashed : ∀ i, (b.slashes i).status = .pending → (b.positions (b.slashes i).agent).opened = true

/-- Every agent is collateralised. -/
def Collateralised (minStake : ℕ) (b : Books) : Prop :=
  ∀ a, (b.positions a).Collateralised minStake

theorem collateralised_setPosition_iff (h : b.Collateralised minStake) {a : Address} {p : Position} :
    (b.setPosition a p).Collateralised minStake ↔ p.Collateralised minStake := by
  simp only [Collateralised, setPosition_positions]
  constructor
  · intro h
    have hp := h a
    rwa [Function.update_self] at hp
  · intro hp a'
    rcases eq_or_ne a' a with rfl | ha
    · rwa [Function.update_self]
    · rw [Function.update_of_ne ha]
      exact h a'

theorem Regular.setPosition (h : b.Regular) {a : Address} {p : Position} (hp : p.Regular)
    (hopened : (b.positions a).opened = true → p.opened = true) : (b.setPosition a p).Regular where
  positions a' := by
    rw [setPosition_positions]
    rcases eq_or_ne a' a with rfl | ha
    · rwa [Function.update_self]
    · rw [Function.update_of_ne ha]
      exact h.positions a'
  slashed i hpending := by
    have hbefore := h.slashed i hpending
    rw [setPosition_positions, setPosition_slashes]
    rcases eq_or_ne (b.slashes i).agent a with ha | ha
    · rw [ha] at hbefore ⊢
      rw [Function.update_self]
      exact hopened hbefore
    · rwa [Function.update_of_ne ha]

theorem Regular.settle (h : b.Regular) (id : ℕ) {status : AppealStatus} (hstatus : status ≠ .pending) :
    (b.setSlash id ((b.slashes id).settle status)).Regular where
  positions := h.positions
  slashed i hpending := by
    rw [setSlash_slashes] at hpending ⊢
    rcases eq_or_ne i id with rfl | hi
    · rw [Function.update_self] at hpending
      exact absurd hpending hstatus
    · rw [Function.update_of_ne hi] at hpending ⊢
      exact h.slashed i hpending

theorem Regular.setGuard (h : b.Regular) (guard : TokenLedger) : (b.setGuard guard).Regular :=
  ⟨h.positions, h.slashed⟩

theorem Regular.setStaked (h : b.Regular) {a : Address} {p : Position}
    (hpos : 0 < (b.positions a).total) (hopened : p.opened = (b.positions a).opened)
    (hwithdrawn : p.status = .withdrawn → p.unbonding = 0) : (b.setPosition a p).Regular := by
  have hopen := hopened.trans ((h.positions a).opened_of_total_pos hpos)
  exact h.setPosition (.of_opened hopen hwithdrawn) fun _ => hopen

/-- Every operation keeps the books regular. -/
theorem Regular.step (h : b.Regular) (hstep : BookStep this minStake b op b') : b'.Regular := by
  cases hstep with
  | @deposit a x guard hx ha hpay =>
    refine (h.setPosition (.of_opened rfl fun hstatus => ?_) fun _ => rfl).setGuard guard
    refine (h.positions a).withdrawn ?_
    rw [Position.deposit] at hstatus
    split_ifs at hstatus
    exact hstatus
  | @request a x hx hactive hle hnone hmin =>
    refine h.setStaked (by rw [Position.total]; omega) rfl fun hstatus => ?_
    exact absurd (hactive.symm.trans hstatus) (by decide)
  | @complete a guard hpos ha hpay =>
    have hwritten : (b.setPosition a ((b.positions a).complete minStake)).Regular :=
      h.setStaked (by rw [Position.total]; omega) rfl fun _ => rfl
    exact hwritten.setGuard guard
  | @deactivate a hstatus hlocked hnone hpos =>
    exact h.setStaked (by rw [Position.total]; omega) rfl (by rintro ⟨⟩)
  | @lock a x hx hle =>
    exact h.setStaked (by rw [Position.total]; omega) rfl (h.positions a).withdrawn
  | @unlock a x hx hle =>
    exact h.setStaked (by rw [Position.total]; omega) rfl (h.positions a).withdrawn
  | @slash a bps hpos hbps =>
    have hopened := (h.positions a).opened_of_total_pos hpos
    have hwritten : (b.setPosition a ((b.positions a).slash minStake bps)).Regular := by
      refine h.setStaked hpos rfl fun hstatus => ?_
      have hbefore : (b.positions a).status = .withdrawn := by
        rw [Position.slash] at hstatus
        split_ifs at hstatus
        exact hstatus
      have hnone := (h.positions a).withdrawn hbefore
      simp only [Position.slash, Position.charge, hnone, Nat.zero_sub]
    -- The slash that is recorded is pending, and its agent has staked.
    refine ⟨hwritten.positions, fun i hpending => ?_⟩
    rcases eq_or_ne i b.nextSlashId with rfl | hi
    · have hopened : ((b.positions a).slash minStake bps).opened = true := hopened
      simpa [Books.slash] using hopened
    · have hslashes : (b.slash minStake a bps).slashes i = b.slashes i :=
        Function.update_of_ne hi ..
      rw [hslashes] at hpending ⊢
      exact hwritten.slashed i hpending
  | @approve id hpending =>
    have hopened := h.slashed id hpending
    refine (h.settle id (by decide : AppealStatus.approved ≠ .pending)).setPosition
      (.of_opened hopened fun hstatus => ?_) fun _ => hopened
    refine (h.positions _).withdrawn ?_
    rw [Position.restore] at hstatus
    split_ifs at hstatus
    exact hstatus
  | @deny id treasury guard hpending hpay =>
    exact (h.settle id (by decide : AppealStatus.denied ≠ .pending)).setGuard guard

end Books

/-- The condition under which an operation leaves every agent collateralised: a first deposit is
sufficient, a slash of an active agent freezes it or leaves it enough without the unbonding part, and so
does the return of a slash that thaws its agent. -/
def BookOp.Collateralises (minStake : ℕ) (b : Books) : BookOp → Prop
  | .deposit a x => (b.positions a).opened = false → minStake ≤ x
  | .slash a bps => (b.positions a).status = .active →
    (b.positions a).total - (b.positions a).slashAmount bps < minStake ∨ bps = 10000 ∨
      minStake ≤ (b.positions a).effective - (b.positions a).slashAmount bps
  | .approve id => (b.positions (b.slashes id).agent).status = .frozen →
    minStake ≤ (b.positions (b.slashes id).agent).total + (b.slashes id).amount →
      minStake ≤ (b.positions (b.slashes id).agent).effective + (b.slashes id).amount
  | _ => True

/-- An operation leaves every agent collateralised exactly under its condition. -/
theorem BookStep.collateralised_iff (hb : b.Regular) (h : b.Collateralised minStake)
    (hstep : BookStep this minStake b op b') :
    b'.Collateralised minStake ↔ op.Collateralises minStake b := by
  cases hstep with
  | @deposit a x guard hx ha hpay =>
    exact (Books.collateralised_setPosition_iff h).trans
      (Position.collateralised_deposit_iff (hb.positions a) (h a))
  | @request a x hx hactive hle hnone hmin =>
    refine (Books.collateralised_setPosition_iff h).trans (iff_of_true (fun _ _ => ?_) trivial)
    simp only [Position.total, Position.effective, Position.request] at hmin ⊢
    omega
  -- What was unbonding did not count for the effective stake anyway.
  | @complete a guard hpos ha hpay =>
    refine (Books.collateralised_setPosition_iff h).trans
      (iff_of_true (fun hopened hactive => ?_) trivial)
    rw [Position.complete] at hactive
    split_ifs at hactive with hzero hreturn
    · exact hreturn.2
    · exact h a hopened hactive
  | @deactivate a hstatus hlocked hnone hpos =>
    exact (Books.collateralised_setPosition_iff h).trans (iff_of_true (by rintro _ ⟨⟩) trivial)
  | @lock a x hx hle =>
    refine (Books.collateralised_setPosition_iff h).trans
      (iff_of_true (fun hopened hactive => ?_) trivial)
    have heffective := h a hopened hactive
    simp only [Position.effective, Position.lock] at heffective ⊢
    omega
  | @unlock a x hx hle =>
    refine (Books.collateralised_setPosition_iff h).trans
      (iff_of_true (fun hopened hactive => ?_) trivial)
    have heffective := h a hopened hactive
    simp only [Position.effective, Position.unlock] at heffective ⊢
    omega
  | @slash a bps hpos hbps =>
    exact (Books.collateralised_setPosition_iff h).trans
      (Position.collateralised_slash_iff ((hb.positions a).opened_of_total_pos hpos))
  | @approve id hpending =>
    exact (Books.collateralised_setPosition_iff h).trans
      (Position.collateralised_restore_iff (hb.slashed id hpending) (h _))
  | deny => exact iff_of_true h trivial

theorem BookSteps.collateralised (hb : b.Regular) (h : b.Collateralised minStake)
    (hsteps : BookSteps this minStake b ops b')
    (hops : ∀ op ∈ ops, ∀ c, op.Collateralises minStake c) : b'.Collateralised minStake := by
  suffices hboth : b'.Regular ∧ b'.Collateralised minStake from hboth.2
  induction hsteps with
  | nil => exact ⟨hb, h⟩
  | @snoc c d ops op hsteps hstep ih =>
    obtain ⟨hc, hcollateralised⟩ := ih fun op hop => hops op (List.mem_append_left _ hop)
    have hop := hops op (List.mem_append_right _ (List.mem_singleton_self op)) c
    exact ⟨hc.step hstep, (hstep.collateralised_iff hc hcollateralised).mpr hop⟩

/-! ## The contract -/

section Contract

variable {env : Env} {w w' : World} {l : Label}

theorem reachable_regular (hw : (system this).Reachable w) : w.books.Regular := by
  refine hw.induct (I := fun w => w.books.Regular) ?_ ?_
  · intro w h
    obtain ⟨deployer, guardToken, agentRegistry, treasury, hstate⟩ := h.state_eq
    rw [World.books, hstate]
    exact ⟨fun _ => ⟨fun _ => rfl, by rintro ⟨⟩⟩, by rintro _ ⟨⟩⟩
  · intro w l w' hr hregular hstep
    rcases step_books hr hstep with ⟨ops, hops⟩ | ⟨guard, -, hbooks⟩
    · exact hops.induct (fun _ _ _ h => h.step) hregular
    · rw [hbooks]
      exact hregular.setGuard guard

/-- Every agent that has a stake record and is ACTIVE has an effective stake of at least the
minimum. -/
def World.Collateralised (w : World) : Prop :=
  ∀ agent, (w.state.stakes agent).agent ≠ 0 → (w.state.stakes agent).status = .active →
    w.state.minStakeForActive ≤
      (w.state.stakes agent).totalStaked - (w.state.stakes agent).unbondingAmount

/-- The condition on a call from `w` under which it leaves every agent collateralised. A first stake is
at least the minimum. A slash of an active agent either freezes it or leaves it the minimum without the
unbonding part, and so does an approved appeal that lets a frozen agent be active. -/
def Label.Collateralises (w : World) : Label → Prop
  | .call env (.stake amount) =>
    (w.state.stakes env.sender).agent = 0 → w.state.minStakeForActive ≤ amount
  | .call _ (.initiateSlash agent _ _ reason _) =>
    let info := w.state.stakes agent
    let slashed := info.totalStaked * w.state.slashRates reason / 10000
    info.status = .active →
      info.totalStaked - slashed < w.state.minStakeForActive ∨ w.state.slashRates reason = 10000 ∨
        w.state.minStakeForActive ≤ info.totalStaked - info.unbondingAmount - slashed
  | .call _ (.resolveAppeal slashId true) =>
    let record := w.state.slashRecords slashId
    let info := w.state.stakes record.agent
    info.status = .frozen → w.state.minStakeForActive ≤ info.totalStaked + record.slashedAmount →
      w.state.minStakeForActive ≤
        info.totalStaked - info.unbondingAmount + record.slashedAmount
  | _ => True

theorem StakeInfo.Split.effective {info : StakeInfo} (h : info.Split) :
    info.totalStaked - info.unbondingAmount = info.position.effective := by
  rw [Split, Position.total] at h
  rw [Position.effective, h]
  exact Nat.add_sub_cancel ..

theorem collateralised_iff_books (hw : w.state.core.Faithful) :
    w.Collateralised ↔ w.books.Collateralised initialMinStake := by
  have hmin : w.state.minStakeForActive = initialMinStake := hw.minStake
  refine forall_congr' fun agent => ?_
  have hsplit : (w.state.stakes agent).Split := hw.split agent
  have hopened : (w.books.positions agent).opened = true ↔ (w.state.stakes agent).agent ≠ 0 :=
    decide_eq_true_iff
  rw [hmin, hsplit.effective, Position.Collateralised, hopened]
  rfl

/-- A call leaves every agent collateralised exactly under its condition. -/
theorem collateralised_call_iff {c : Call} (hw : (system this).Reachable w) (h : w.Collateralised)
    (hdoes : c.Does env w ops) (hrefines : Refines this w w' ops) :
    w'.Collateralised ↔ (Label.call env c).Collateralises w := by
  have hfaithful := reachable_faithful hw
  have hregular := reachable_regular hw
  have hmin : w.state.minStakeForActive = initialMinStake := hfaithful.minStake
  rw [collateralised_iff_books hfaithful] at h
  rw [collateralised_iff_books hrefines.faithful]
  have hsteps := hrefines.books
  -- Three calls make an operation with a condition. All others keep every agent collateralised.
  cases c with
  | stake amount =>
    cases hdoes
    refine (hsteps.of_singleton.collateralised_iff hregular h).trans ?_
    rw [BookOp.Collateralises, Label.Collateralises, hmin]
    exact imp_congr_left (decide_eq_false_iff_not.trans not_not)
  | initiateSlash agent jobId subJobId reason evidenceHash =>
    cases hdoes
    refine (hsteps.of_singleton.collateralised_iff hregular h).trans ?_
    have hsplit : (w.state.stakes agent).Split := hfaithful.split agent
    simp only [BookOp.Collateralises, Label.Collateralises, hmin]
    rw [hsplit.effective, hsplit]
    rfl
  | resolveAppeal slashId approved =>
    cases approved with
    | true =>
      cases hdoes
      refine (hsteps.of_singleton.collateralised_iff hregular h).trans ?_
      have hsplit : (w.state.stakes (w.state.slashRecords slashId).agent).Split := hfaithful.split _
      simp only [BookOp.Collateralises, Label.Collateralises, hmin]
      rw [hsplit.effective, hsplit]
      rfl
    | false =>
      cases hdoes
      exact iff_of_true (hsteps.collateralised hregular h (by simp [BookOp.Collateralises])) trivial
  | finalizeExpiredAppeals =>
    obtain ⟨ids, rfl⟩ := hdoes
    exact iff_of_true (hsteps.collateralised hregular h (by simp [BookOp.Collateralises])) trivial
  | _ =>
    cases hdoes
    exact iff_of_true (hsteps.collateralised hregular h (by simp [BookOp.Collateralises])) trivial

theorem collateralised_step_iff (hw : (system this).Reachable w) (h : w.Collateralised)
    (hstep : Step this w l w') : w'.Collateralised ↔ l.Collateralises w := by
  cases hstep with
  | call hs h0 hexec =>
    obtain ⟨ops, hdoes, hrefines⟩ := exec_ok (reachable_faithful hw) hs h0 hexec
    exact collateralised_call_iff hw h hdoes hrefines
  | elsewhere _ => exact iff_of_true h trivial

/-- Every active agent is collateralised throughout a run exactly if each call of the run meets its
condition. -/
theorem active_collateralised_iff {ts : List (Transition World Label)}
    (hr : (system this).Run ts w) :
    Throughout World.Collateralised ts w ↔ ∀ tr ∈ ts, tr.label.Collateralises tr.src := by
  refine hr.forall_iff (C := fun w l => l.Collateralises w) ?_ ?_
  · intro w h agent hagent
    obtain ⟨deployer, guardToken, agentRegistry, treasury, hstate⟩ := h.state_eq
    rw [hstate] at hagent
    exact absurd rfl hagent
  · exact fun w l w' hw h hstep => collateralised_step_iff hw h hstep

/-- A run that leads to an active agent with 1000 GUARD. -/
theorem active_collateralised_staked : ∃ ts w, (system 1).Run ts w ∧
    (w.state.stakes 2).status = .active ∧ (w.state.stakes 2).totalStaked = 1000 * 10^8 ∧
    (Throughout World.Collateralised ts w ↔ ∀ tr ∈ ts, tr.label.Collateralises tr.src) := by
  obtain ⟨w, hcalls, hw⟩ := sample_reachable
    (show ∀ call ∈ [(sampleEnv 2 0, Call.stake (1000 * 10^8))],
      call.1.sender ≠ 1 ∧ call.1.sender ≠ 0 by decide) rfl
  obtain ⟨ts, hrun⟩ := hw.exists_run
  exact ⟨ts, w, hrun, sample_read (fun w => (w.state.stakes 2).status) hcalls rfl,
    sample_read (fun w => (w.state.stakes 2).totalStaked) hcalls rfl,
    active_collateralised_iff hrun⟩

end Contract

/-! ## Agents that are active with too little -/

/-- A first stake of a single unit. -/
def tinyStakeCalls : List (Env × Call) := [(sampleEnv 2 0, .stake 1)]

/-- A slash of 5% on a stake of 1000 GUARD of which 900 unbond. -/
def unbondingSlashCalls : List (Env × Call) :=
  slasherCalls ++ [
    (sampleEnv 2 0, .stake (1000 * 10^8)),
    (sampleEnv 2 1, .requestUnstake (900 * 10^8)),
    (sampleEnv 5 2, .initiateSlash 2 0 0 .falsePositive 0)]

/-- Both lead to an active agent with an effective stake below the minimum: a single unit, and
50 GUARD. -/
theorem active_undercollateralised :
    (∃ w, execAll 1 tinyStakeCalls sampleWorld = .ok w ∧ (system 1).Reachable w ∧
      ¬ w.Collateralised) ∧
    ∃ w, execAll 1 unbondingSlashCalls sampleWorld = .ok w ∧ (system 1).Reachable w ∧
      ¬ w.Collateralised := by
  -- The first agent never staked the minimum; the second was slashed while most of its stake was unbonding.
  constructor
  · obtain ⟨w, hcalls, hw⟩ := sample_reachable
      (show ∀ call ∈ tinyStakeCalls, call.1.sender ≠ 1 ∧ call.1.sender ≠ 0 by decide) rfl
    have hstake := sample_read (fun w => w.state.stakes 2) hcalls
      (a := ⟨2, 1, 0, 1, 0, 0, .active, 0, 0⟩) rfl
    have hmin := sample_read (fun w => w.state.minStakeForActive) hcalls (a := 100 * 10^8) rfl
    refine ⟨w, hcalls, hw, fun h => ?_⟩
    have hle := h 2
    rw [hstake, hmin] at hle
    exact absurd (hle (by decide) rfl) (by norm_num)
  · obtain ⟨w, hcalls, hw⟩ := sample_reachable
      (show ∀ call ∈ unbondingSlashCalls, call.1.sender ≠ 1 ∧ call.1.sender ≠ 0 by decide) rfl
    have hstake := sample_read (fun w => w.state.stakes 2) hcalls
      (a := ⟨2, 950 * 10^8, 0, 50 * 10^8, 900 * 10^8, 86401, .active, 0, 2⟩) (by decide +kernel)
    have hmin := sample_read (fun w => w.state.minStakeForActive) hcalls (a := 100 * 10^8) rfl
    refine ⟨w, hcalls, hw, fun h => ?_⟩
    have hle := h 2
    rw [hstake, hmin] at hle
    exact absurd (hle (by decide) rfl) (by norm_num)

end AuditGuard.StakingManager
