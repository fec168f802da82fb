import AuditGuard.AuditScheduler.Books

/-!
# AuditScheduler: the functions make these steps

What each function of the contract does to the books if it returns, one lemma for each, and from these that
every call that succeeds makes a step.
-/

namespace AuditGuard.AuditScheduler

open Evm Alarms TransitionSystem

variable {this c : Address} {env : Env} {s s' : State} {w w' : World State} {due : ℕ}

theorem books_deactivate (c cancelledBy : Address) (reason : String) (s : State) :
    books (deactivate c cancelledBy reason s) = (books s).deactivate c := by
  unfold books deactivate Books.deactivate Books.release deleteSchedule
  dsimp only [State.emit, State.setSchedule, Books.write]
  split_ifs <;> rfl

theorem scheduleCall_cases (env : Env) (c : Address) (due : ℕ) (s : State) :
    (∃ h : env.newSchedule ∉ s.hss.issued, env.newSchedule ≠ 0 ∧
      scheduleCall env c due s = ((SUCCESS, env.newSchedule),
        { s with hss := s.hss.set env.newSchedule c due h })) ∨
    ∃ rc, rc ≠ SUCCESS ∧ scheduleCall env c due s = ((rc, 0), s) := by
  unfold scheduleCall
  by_cases hanswer : env.scheduleCallAnswer = SUCCESS ∧ env.newSchedule ≠ 0 ∧
      env.newSchedule ∉ s.hss.issued
  · rw [dif_pos hanswer]
    exact .inl ⟨hanswer.2.2, hanswer.2.1, rfl⟩
  · rw [dif_neg hanswer]
    refine .inr ⟨_, ?_, rfl⟩
    split_ifs with hsuccess
    · decide
    · exact hsuccess

theorem createSchedule_creates (this : Address) (env : Env) (c : Address) (due : ℕ) (s : State) :
    Creates c due (books s) (books (createSchedule this env c due s).2) := by
  unfold createSchedule
  split_ifs with hcapacity
  · rw [books_deactivate]
    exact .refused
  · rcases scheduleCall_cases env c due s with ⟨hnew, hnull, hcall⟩ | ⟨rc, hrc, hcall⟩
    · rw [hcall]
      exact .created hnew hnull
    · rw [hcall]
      dsimp only
      rw [if_pos hrc, books_deactivate]
      exact .refused

theorem scheduleAudit_ok {intervalSeconds : UInt 256} {mode : TriggerMode}
    (h : scheduleAudit this env c intervalSeconds mode s = .ok s') :
    ScheduleStep this env s (.scheduleAudit c intervalSeconds mode) (books s') := by
  simp only [scheduleAudit, bind_eq_ok] at h
  obtain ⟨_, -, interval, hinterval, h⟩ := h
  generalize hs₁ : (if (s.schedules c).active = true ∧ (s.schedules c).currentScheduleAddr ≠ 0 then
    deleteSchedule (s.schedules c).currentScheduleAddr s else s) = s₁ at h
  generalize hs₂ : (if (s.schedules c).active = false ∧ (s.schedules c).owner = 0 then
    { s₁ with scheduledContracts := s₁.scheduledContracts ++ [c] } else s₁) = s₂ at h
  have hreleased : books s₂ =
      if (s.schedules c).active = true then (books s).release c else books s := by
    -- Tracking the contract for enumeration does not touch the books.
    have htracked : books s₂ = books s₁ := by
      rw [← hs₂]
      split_ifs <;> rfl
    rw [htracked, ← hs₁]
    unfold Books.release books
    by_cases hactive : (s.schedules c).active = true
    · by_cases hpoints : (s.schedules c).currentScheduleAddr ≠ 0
      · simp only [hactive, hpoints, and_self, if_true, deleteSchedule, ne_eq, not_false_eq_true]
      · simp only [hactive, hpoints, and_false, if_false, if_true]
    · simp only [hactive, false_and, Bool.false_eq_true, if_false]
  cases mode with
  | timeBased =>
    simp only [if_true, bind_eq_ok, pure_eq_ok, checkedAdd_eq_ok] at h hinterval
    obtain ⟨_, -, _, -, rfl⟩ := hinterval
    obtain ⟨_, ⟨-, rfl⟩, rfl⟩ := h
    exact .schedule hreleased (createSchedule_creates this env c _ (s₂.setSchedule c _))
  | redeploy =>
    simp only [reduceCtorEq, if_false, pure_eq_ok] at h hinterval
    subst hinterval h
    exact .await hreleased

theorem cancelSchedule_ok (h : cancelSchedule env c s = .ok s') :
    ScheduleStep this env s (.cancelSchedule c) (books s') := by
  simp only [cancelSchedule, bind_eq_ok, pure_eq_ok, require_eq_ok] at h
  obtain ⟨_, hactive, _, hcaller, rfl⟩ := h
  rw [books_deactivate]
  exact .cancel hactive hcaller

theorem triggerAudit_ok (h : triggerAudit this env c s = .ok s') :
    (s.schedules c).Triggerable ∧ (env.sender = this ∨ env.sender = s.orchestrator) ∧
      Triggers c (books s) (books s') := by
  simp only [triggerAudit, bind_eq_ok, require_eq_ok, checkedAdd_eq_ok] at h
  obtain ⟨_, hactive, _, hcaller, _, ⟨htimes, rfl⟩, ⟨next, s₁⟩, hnext, h⟩ := h
  rw [pure_eq_ok] at h
  subst h
  by_cases hmode : (s.schedules c).mode = .timeBased
  · rw [if_pos hmode] at hnext
    simp only [bind_eq_ok, pure_eq_ok, checkedAdd_eq_ok] at hnext
    obtain ⟨_, ⟨hdue, rfl⟩, hcreate⟩ := hnext
    have hs₁ := congrArg Prod.snd hcreate
    dsimp only at hs₁
    subst hs₁
    refine ⟨⟨hactive, htimes, fun _ => hdue⟩, hcaller, .timeBased hmode ?_⟩
    exact createSchedule_creates this env c _ (s.setSchedule c _)
  · rw [if_neg hmode, pure_eq_ok] at hnext
    obtain ⟨-, rfl⟩ := Prod.mk.inj hnext
    refine ⟨⟨hactive, htimes, fun h => absurd h hmode⟩, hcaller, .redeploy ?_⟩
    cases hredeploy : (s.schedules c).mode with
    | timeBased => exact absurd hredeploy hmode
    | redeploy => exact hredeploy

theorem not_triggerable_of_error {e : Revert} (h : triggerAudit this env c s = .error e)
    (hcaller : env.sender = this ∨ env.sender = s.orchestrator) : ¬ (s.schedules c).Triggerable := by
  rintro ⟨hactive, htimes, hdue⟩
  simp only [triggerAudit, bind_eq_error, require_eq_error, checkedAdd_eq_error, checkedAdd_eq_ok,
    require_eq_ok] at h
  rcases h with ⟨hinactive, -⟩ | ⟨_, -, h⟩
  · exact hinactive hactive
  rcases h with ⟨hstranger, -⟩ | ⟨_, -, h⟩
  · exact hstranger hcaller
  rcases h with ⟨hoverflow, -⟩ | ⟨_, -, h⟩
  · omega
  rcases h with h | ⟨_, -, h⟩
  · by_cases hmode : (s.schedules c).mode = .timeBased
    · rw [if_pos hmode] at h
      simp only [bind_eq_error, checkedAdd_eq_error, pure_ne_error, and_false, exists_false,
        or_false] at h
      have hfits := hdue hmode
      omega
    · rw [if_neg hmode] at h
      exact pure_ne_error h
  · exact pure_ne_error h

theorem fire_ok {scheduleAddress : Address} (h : fire this env scheduleAddress s = .ok s') :
    ScheduleStep this env s (.fire scheduleAddress) (books s') := by
  simp only [fire, bind_eq_ok] at h
  obtain ⟨entry, hentry, h⟩ := h
  obtain ⟨hmem, rfl⟩ : entry ∈ s.hss.pending ∧ entry.handle = scheduleAddress := by
    cases hfind : s.hss.pending.find? fun e => e.handle = scheduleAddress with
    | none => rw [hfind] at hentry; cases hentry
    | some found =>
      rw [hfind] at hentry
      cases hentry
      have hhandle := List.find?_some hfind
      exact ⟨List.mem_of_find?_eq_some hfind, of_decide_eq_true hhandle⟩
  -- The entry is gone whether the callback goes through or reverts.
  cases htrigger : triggerAudit this { env with sender := this } entry.key
      { s with hss := s.hss.cancel entry.handle } with
  | ok s₁ =>
    rw [htrigger, pure_eq_ok] at h
    subst h
    obtain ⟨htriggerable, -, htriggers⟩ := triggerAudit_ok htrigger
    exact .fired hmem htriggerable htriggers
  | error e =>
    rw [htrigger, pure_eq_ok] at h
    subst h
    have hfails := not_triggerable_of_error htrigger (.inl rfl)
    exact .misfired hmem hfails

theorem onRedeployDetected_ok (h : onRedeployDetected this env c s = .ok s') :
    ScheduleStep this env s (.onRedeployDetected c) (books s') := by
  simp only [onRedeployDetected, onlyOrchestrator, bind_eq_ok, require_eq_ok] at h
  obtain ⟨_, hcaller, h⟩ := h
  by_cases hnone : (s.schedules c).active = false ∨ (s.schedules c).mode ≠ .redeploy
  · rw [if_pos hnone, pure_eq_ok] at h
    subst h
    exact .idle (by simp) (by simp) (by simp) (by simp)
  · rw [if_neg hnone] at h
    simp only [not_or, not_not, Bool.not_eq_false] at hnone
    obtain ⟨hactive, hmode⟩ := hnone
    generalize hs₁ : (if (s.schedules c).currentScheduleAddr ≠ 0 then
      deleteSchedule (s.schedules c).currentScheduleAddr s else s) = s₁ at h
    have hreleased : books s₁ = (books s).release c := by
      rw [← hs₁]
      unfold Books.release books
      split_ifs <;> rfl
    simp only [bind_eq_ok, pure_eq_ok, checkedAdd_eq_ok] at h
    obtain ⟨_, ⟨-, rfl⟩, rfl⟩ := h
    refine .redeploy hcaller hactive hmode ?_
    rw [← hreleased]
    exact createSchedule_creates this env c _ (s₁.setSchedule c _)

theorem exec_ok {call : Call} (h : exec this env call w = .ok w') :
    ScheduleStep this env w.state call (books w'.state) := by
  unfold exec at h
  split_ifs at h
  cases call with
  | scheduleAudit c intervalSeconds mode =>
    obtain ⟨s, hs, rfl⟩ := onState_eq_ok.mp h
    exact scheduleAudit_ok hs
  | cancelSchedule c =>
    obtain ⟨s, hs, rfl⟩ := onState_eq_ok.mp h
    exact cancelSchedule_ok hs
  | triggerAudit c =>
    obtain ⟨s, hs, rfl⟩ := onState_eq_ok.mp h
    obtain ⟨htriggerable, hcaller, htriggers⟩ := triggerAudit_ok hs
    exact .trigger htriggerable hcaller htriggers
  | onRedeployDetected c =>
    obtain ⟨s, hs, rfl⟩ := onState_eq_ok.mp h
    exact onRedeployDetected_ok hs
  | fire scheduleAddress =>
    obtain ⟨s, hs, rfl⟩ := onState_eq_ok.mp h
    exact fire_ok hs
  -- The calls of the owner leave the schedules and the network's queue alone.
  | setMinAuditBudget | renounceOwnership =>
    obtain ⟨s, hs, rfl⟩ := onState_eq_ok.mp h
    simp only [setMinAuditBudget, renounceOwnership, bind_eq_ok, pure_eq_ok] at hs
    obtain ⟨_, -, rfl⟩ := hs
    exact .idle (by simp) (by simp) (by simp) (by simp)
  | setOrchestrator | setAuctionContract | transferOwnership =>
    obtain ⟨s, hs, rfl⟩ := onState_eq_ok.mp h
    simp only [setOrchestrator, setAuctionContract, transferOwnership, bind_eq_ok, pure_eq_ok] at hs
    obtain ⟨_, -, _, -, rfl⟩ := hs
    exact .idle (by simp) (by simp) (by simp) (by simp)

theorem reachable_sound (hw : (contract this).system.Reachable w) : (books w.state).Sound := by
  refine hw.induct (I := fun w => (books w.state).Sound) ?_ ?_
  · intro w hfresh
    obtain ⟨deployer, guardToken, auctionContract, orchestrator, minAuditBudget, hstate⟩ :=
      fresh_state_eq this (show (contract this).fresh w.state from hfresh)
    rw [hstate]
    exact Clock.held_empty
  · intro w l w' _ hb hstep
    cases hstep with
    | elsewhere _ _ => exact hb
    | call hs h0 ht hexec => exact (exec_ok hexec).sound hb

end AuditGuard.AuditScheduler
