import AuditGuard.StakingManager.Appeals

/-!
# StakingManager: what every call emits

A call emits its own event, which names the amounts that it moved. A full exit emits two, the denial of expired
appeals one for each slash, and the owner's functions only events about parameters.
-/

namespace AuditGuard.StakingManager

open Evm

/-- The event is about a parameter of the contract. -/
def Event.Parameter : Event → Prop
  | .slashRateUpdated _ _ _ | .unbondingPeriodUpdated _ _ | .guardTokenAssociated _ => True
  | _ => False

/-- What a call from `w` emits. -/
def Call.Emits (env : Env) (w : World) : Call → List Event → Prop
  | .stake amount, es => es = [.staked env.sender amount ((w.state.stakes env.sender).totalStaked + amount)]
  | .requestUnstake amount, es => ∃ completesAt, es = [.unstakeRequested env.sender amount completesAt]
  | .completeUnstake, es => es = [.unstakeCompleted env.sender (w.state.stakes env.sender).unbondingAmount]
  | .deactivate, es => ∃ completesAt, es = [.agentDeactivating env.sender,
      .unstakeRequested env.sender (w.state.stakes env.sender).availableStake completesAt]
  | .lockStake agent amount jobId, es => es = [.stakeLocked agent amount jobId]
  | .unlockStake agent amount jobId, es => es = [.stakeUnlocked agent amount jobId]
  | .initiateSlash agent jobId _ reason evidenceHash, es =>
    let rate := w.state.slashRates reason
    es = [.slashInitiated w.state.nextSlashId agent reason ((w.state.stakes agent).totalStaked * rate / 10000) rate
      evidenceHash jobId]
  | .fileAppeal slashId reason, es => es = [.appealFiled slashId env.sender reason]
  | .resolveAppeal slashId approved, es =>
    let record := w.state.slashRecords slashId
    es = if approved then [.appealApproved slashId record.agent record.slashedAmount]
      else [.appealDenied slashId record.agent record.slashedAmount]
  | .finalizeExpiredAppeals, es => ∀ e ∈ es, ∃ slashId, e = .appealExpired slashId
  | .admin _, es => ∀ e ∈ es, e.Parameter

variable {this : Address} {env : Env} {s s' : State} {w w' : World}

theorem initiateSlash_emits {agent : Address} {jobId subJobId : ℕ} {reason : SlashReason} {evidenceHash : UInt 256}
    (hbps : s.slashRates reason ≤ 10000)
    (h : initiateSlash env agent jobId subJobId reason evidenceHash s = .ok s') :
    s'.log = s.log ++ [.slashInitiated s.nextSlashId agent reason
      ((s.stakes agent).totalStaked * s.slashRates reason / 10000) (s.slashRates reason) evidenceHash jobId] := by
  simp only [initiateSlash, createSlashRecord, bind_eq_ok, checkedAdd_eq_ok, pure_eq_ok, Prod.exists] at h
  obtain ⟨_, -, _, -, _, -, _, -, _, -, x, charged, hdeduct, escrow, -, next, -, s₁, ⟨deadline, -, rfl⟩, total, -,
    allTime, -, s₂, hpenalty, hpropagate⟩ := h
  obtain ⟨rfl, -⟩ := deductSlash_ok hbps hdeduct
  obtain ⟨-, -, hlog⟩ := silent_of_logged (propagateSlash_ok hpropagate)
  obtain ⟨-, -, hlog₂⟩ := silent_of_logged (applyReputationPenalty_ok hpenalty)
  rw [hlog]
  simp [hlog₂]

theorem denyAppeal_log {slashId : ℕ} (h : denyAppeal this env slashId w = .ok w') : w'.state.log = w.state.log := by
  obtain ⟨hstate, -⟩ := denyAppeal_ok h
  rw [hstate]
  rfl

theorem finalizeLoop_emits {slashIds : List ℕ} (h : slashIds.foldlM (finalizeAppeal this env) w = .ok w') :
    ∃ es, w'.state.log = w.state.log ++ es ∧ ∀ e ∈ es, ∃ slashId, e = .appealExpired slashId := by
  induction slashIds generalizing w with
  | nil =>
    rw [List.foldlM_nil, pure_eq_ok] at h
    exact ⟨[], by rw [h, List.append_nil], by simp⟩
  | cons slashId slashIds ih =>
    rw [List.foldlM_cons, bind_eq_ok] at h
    obtain ⟨w₁, hpass, h⟩ := h
    obtain ⟨es, hlog, hes⟩ := ih h
    unfold finalizeAppeal at hpass
    dsimp only at hpass
    split_ifs at hpass with hexpired
    · simp only [bind_eq_ok, pure_eq_ok] at hpass
      obtain ⟨w₂, hdeny, rfl⟩ := hpass
      refine ⟨.appealExpired slashId :: es, ?_, ?_⟩
      · rw [hlog, World.emit, State.emit_log, denyAppeal_log hdeny, List.append_assoc, List.singleton_append]
      · exact List.forall_mem_cons.mpr ⟨⟨slashId, rfl⟩, hes⟩
    · rw [pure_eq_ok.mp hpass]
      exact ⟨es, hlog, hes⟩

theorem resolveAppeal_emits {slashId : ℕ} {approved : Bool} (h : resolveAppeal this env slashId approved w = .ok w') :
    w'.state.log = w.state.log ++ if approved then
        [.appealApproved slashId (w.state.slashRecords slashId).agent (w.state.slashRecords slashId).slashedAmount]
      else [.appealDenied slashId (w.state.slashRecords slashId).agent
        (w.state.slashRecords slashId).slashedAmount] := by
  simp only [resolveAppeal, bind_eq_ok] at h
  obtain ⟨_, -, _, -, _, -, _, -, h⟩ := h
  cases approved with
  | true =>
    simp only [if_true, approveAppeal, bind_eq_ok, pure_eq_ok] at h
    obtain ⟨s, ⟨total, -, available, -, escrow, -, _, -, _, -, s₁, hpenalty, rfl⟩, rfl⟩ := h
    obtain ⟨-, -, hlog⟩ := silent_of_logged (reverseReputationPenalty_ok hpenalty).1
    simp [hlog]
  | false =>
    simp only [Bool.false_eq_true, if_false, bind_eq_ok, pure_eq_ok] at h ⊢
    obtain ⟨w₁, hdeny, rfl⟩ := h
    rw [World.emit, State.emit_log, denyAppeal_log hdeny]

theorem execAdmin_emits {c : AdminCall} (h : execAdmin env c s = .ok s') :
    ∃ es, s'.log = s.log ++ es ∧ ∀ e ∈ es, e.Parameter := by
  simp only [execAdmin, bind_eq_ok] at h
  obtain ⟨_, -, h⟩ := h
  cases c with
  | setSlashRate reason basisPoints =>
    simp only [bind_eq_ok, pure_eq_ok] at h
    obtain ⟨_, -, rfl⟩ := h
    exact ⟨[.slashRateUpdated reason (s.slashRates reason) basisPoints], rfl, by simp [Event.Parameter]⟩
  | setUnbondingPeriod seconds =>
    rw [← pure_eq_ok.mp h]
    exact ⟨[.unbondingPeriodUpdated s.unbondingPeriod seconds], rfl, by simp [Event.Parameter]⟩
  | associateGuardToken =>
    simp only [bind_eq_ok, pure_eq_ok] at h
    obtain ⟨_, -, rfl⟩ := h
    exact ⟨[.guardTokenAssociated s.guardToken], rfl, by simp [Event.Parameter]⟩
  | addAuthorizedSlasher | setTreasury | pause | unpause | transferOwnership =>
    simp only [bind_eq_ok, pure_eq_ok] at h
    obtain ⟨_, -, rfl⟩ := h
    exact ⟨[], by simp, by simp⟩
  | _ =>
    rw [← pure_eq_ok.mp h]
    exact ⟨[], by simp, by simp⟩

/-- Every call adds its events to the log. -/
theorem exec_emits {c : Call} (hw : w.state.core.Faithful) (h : exec this env c w = .ok w') :
    ∃ es, w'.state.log = w.state.log ++ es ∧ c.Emits env w es := by
  unfold exec at h
  split_ifs at h
  cases c with
  | stake amount =>
    simp only [stake, creditStake, bind_eq_ok, transferGuard_eq_ok, checkedAdd_eq_ok, pure_eq_ok] at h
    obtain ⟨_, -, _, -, _, -, w₁, ⟨-, -, hstate⟩, _, ⟨total, ⟨-, htotal⟩, _, -, rfl⟩, rfl⟩ := h
    rw [hstate] at htotal ⊢
    refine ⟨[.staked env.sender amount total], by simp, ?_⟩
    -- A first stake sets the owner and the date, which leaves the total as it was.
    have hsum : (w.state.stakes env.sender).totalStaked + amount = total := by
      split_ifs at htotal <;> exact htotal
    rw [Call.Emits, hsum]
  | requestUnstake amount =>
    simp only [onState_eq_ok, requestUnstake, bind_eq_ok, pure_eq_ok] at h
    obtain ⟨⟨_, -, _, -, _, -, _, -, _, -, _, -, _, -, _, -, _, -, completesAt, -, hstate⟩, -⟩ := h
    rw [← hstate]
    exact ⟨_, by simp, completesAt, rfl⟩
  | completeUnstake =>
    simp only [completeUnstake, releaseUnbonding, bind_eq_ok, transferGuard_eq_ok, pure_eq_ok, Prod.exists,
      Prod.mk.injEq] at h
    obtain ⟨amount, s', ⟨_, -, _, -, _, -, rfl, rfl⟩, w₁, ⟨-, -, hstate⟩, rfl⟩ := h
    dsimp only
    rw [hstate]
    exact ⟨_, by simp, rfl⟩
  | deactivate =>
    simp only [onState_eq_ok, deactivate, bind_eq_ok, pure_eq_ok] at h
    obtain ⟨⟨_, -, _, -, _, -, _, -, _, -, _, -, completesAt, -, hstate⟩, -⟩ := h
    rw [← hstate]
    exact ⟨_, by simp, completesAt, rfl⟩
  | lockStake agent amount jobId =>
    simp only [onState_eq_ok, lockStake, bind_eq_ok, pure_eq_ok] at h
    obtain ⟨⟨_, -, _, -, _, -, _, -, _, -, _, -, hstate⟩, -⟩ := h
    rw [← hstate]
    exact ⟨_, by simp, rfl⟩
  | unlockStake agent amount jobId =>
    simp only [onState_eq_ok, unlockStake, bind_eq_ok, pure_eq_ok] at h
    obtain ⟨⟨_, -, _, -, _, -, _, -, _, -, _, -, hstate⟩, -⟩ := h
    rw [← hstate]
    exact ⟨_, by simp, rfl⟩
  | initiateSlash agent jobId subJobId reason evidenceHash =>
    exact ⟨_, initiateSlash_emits (hw.rates_le reason) (onState_eq_ok.mp h).1, rfl⟩
  | fileAppeal slashId reason =>
    simp only [onState_eq_ok, fileAppeal, bind_eq_ok, pure_eq_ok] at h
    obtain ⟨⟨_, -, _, -, _, -, _, -, _, -, hstate⟩, -⟩ := h
    rw [← hstate]
    exact ⟨_, by simp, rfl⟩
  | resolveAppeal slashId approved => exact ⟨_, resolveAppeal_emits h, rfl⟩
  | finalizeExpiredAppeals => exact finalizeLoop_emits h
  | admin c => exact execAdmin_emits (onState_eq_ok.mp h).1

end AuditGuard.StakingManager
