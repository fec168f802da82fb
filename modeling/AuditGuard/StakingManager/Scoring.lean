import AuditGuard.StakingManager.Refinement

/-!
# StakingManager: reputation

The contract asks the agent registry to change an agent's reputation when it slashes the agent, and to change
it back when an appeal is approved. Both times it looks the penalty up under the reason of the slash. What it
needs to find the same agent and reason again stays: no call changes them in a record that exists
(`exec_kept`).
-/

namespace AuditGuard.StakingManager

open Evm TransitionSystem

/-- A number of the type `int256`. -/
def IsInt256 (z : ℤ) : Prop := -2^(256 - 1) ≤ z ∧ z < 2^(256 - 1)

instance (z : ℤ) : Decidable (IsInt256 z) := inferInstanceAs (Decidable (_ ∧ _))

/-- The change of a reputation that a call asks for, with the agent. -/
def scoring (s : State) : Call → Option (Address × ℤ)
  | .initiateSlash agent _ _ reason _ =>
    let repDelta := s.reputationPenalties reason
    if repDelta ≠ 0 ∧ s.agentRegistry ≠ 0 then some (agent, repDelta) else none
  | .resolveAppeal slashId true =>
    let record := s.slashRecords slashId
    let repDelta := s.reputationPenalties record.reason
    if repDelta ≠ 0 ∧ s.agentRegistry ≠ 0 then some (record.agent, -repDelta) else none
  | _ => none

/-- The contract, at the address `this`, as one among others. -/
def contract (this : Address) : Contract State Env Call where
  this := this
  fresh s := ∃ deployer guardToken agentRegistry treasury,
    deploy deployer guardToken agentRegistry treasury = .ok s
  msg := Env.toMsg
  exec env c w := do
    let w' ← exec this env c ⟨w.state, w.token⟩
    pure ⟨w'.state, w'.guard, w.now⟩

/-- What later scoring needs is kept: records keep their agents and reasons, and every penalty is the old one
or fits its type. -/
structure Kept (s s' : State) : Prop where
  next : s.nextSlashId ≤ s'.nextSlashId
  agent : ∀ id < s.nextSlashId, (s'.slashRecords id).agent = (s.slashRecords id).agent
  reason : ∀ id < s.nextSlashId, (s'.slashRecords id).reason = (s.slashRecords id).reason
  penalty : ∀ reason, s'.reputationPenalties reason = s.reputationPenalties reason ∨
    IsInt256 (s'.reputationPenalties reason)

variable {this : Address} {env : Env} {s s' s₁ : State} {w w' : World}

namespace Kept

theorem of_eq (hnext : s'.nextSlashId = s.nextSlashId) (hrecords : s'.slashRecords = s.slashRecords)
    (hpenalties : s'.reputationPenalties = s.reputationPenalties) : Kept s s' := by
  constructor
  case next => rw [hnext]
  case agent => exact fun id _ => by rw [hrecords]
  case reason => exact fun id _ => by rw [hrecords]
  case penalty => exact fun reason => .inl (by rw [hpenalties])

theorem trans (h : Kept s s₁) (h' : Kept s₁ s') : Kept s s' := by
  constructor
  case next => exact h.next.trans h'.next
  case agent =>
    intro id hid
    rw [h'.agent id (hid.trans_le h.next), h.agent id hid]
  case reason =>
    intro id hid
    rw [h'.reason id (hid.trans_le h.next), h.reason id hid]
  case penalty =>
    intro reason
    rcases h'.penalty reason with hsame | hfits
    · rw [hsame]
      exact h.penalty reason
    · exact .inr hfits

theorem of_setRecord (slashId : ℕ) (record : SlashRecord)
    (hagent : record.agent = (s.slashRecords slashId).agent)
    (hreason : record.reason = (s.slashRecords slashId).reason)
    (hnext : s'.nextSlashId = s.nextSlashId)
    (hrecords : s'.slashRecords = Function.update s.slashRecords slashId record)
    (hpenalties : s'.reputationPenalties = s.reputationPenalties) : Kept s s' := by
  constructor
  case next => rw [hnext]
  case agent =>
    intro id _
    rw [hrecords]
    rcases eq_or_ne id slashId with rfl | hne
    · rw [Function.update_self, hagent]
    · rw [Function.update_of_ne hne]
  case reason =>
    intro id _
    rw [hrecords]
    rcases eq_or_ne id slashId with rfl | hne
    · rw [Function.update_self, hreason]
    · rw [Function.update_of_ne hne]
  case penalty => exact fun reason => .inl (by rw [hpenalties])

end Kept

/-! ## Calls under `try` -/

theorem tryCall_ok {target : Address} {c : BestEffort} (h : tryCall env target c s = .ok s') :
    s' = s.send c := by
  unfold tryCall at h
  split_ifs at h
  exact (Except.ok.inj h).symm

theorem applyReputationPenalty_ok {agent : Address} {reason : SlashReason}
    (h : applyReputationPenalty env agent reason s = .ok s') : s' = s ∨ ∃ c, s' = s.send c := by
  unfold applyReputationPenalty at h
  dsimp only at h
  split_ifs at h
  · exact .inr ⟨_, tryCall_ok h⟩
  · exact .inl (pure_eq_ok.mp h).symm

theorem reverseReputationPenalty_ok {record : SlashRecord}
    (h : reverseReputationPenalty env record s = .ok s') :
    (s' = s ∨ ∃ c, s' = s.send c) ∧
      (s.reputationPenalties record.reason ≠ 0 → s.agentRegistry ≠ 0 →
        -2^(256 - 1) < s.reputationPenalties record.reason) := by
  unfold reverseReputationPenalty at h
  dsimp only at h
  split_ifs at h with hscored
  · simp only [bind_eq_ok, checkedNeg_eq_ok] at h
    obtain ⟨_, ⟨hrange, rfl⟩, h⟩ := h
    exact ⟨.inr ⟨_, tryCall_ok h⟩, fun _ _ => hrange⟩
  · exact ⟨.inl (pure_eq_ok.mp h).symm, fun hne hregistry => absurd ⟨hne, hregistry⟩ hscored⟩

theorem propagateSlash_ok {agent : Address} {bps : ℕ} (h : propagateSlash env agent bps s = .ok s') :
    s' = s ∨ ∃ c, s' = s.send c := by
  unfold propagateSlash at h
  split_ifs at h
  · exact .inr ⟨_, tryCall_ok h⟩
  · exact .inl (pure_eq_ok.mp h).symm

/-! ## All calls -/

/-- A new slash: under the next id stands a record with the agent and the reason. -/
theorem initiateSlash_kept {agent : Address} {jobId subJobId : ℕ} {reason : SlashReason}
    {evidenceHash : UInt 256} (h : initiateSlash env agent jobId subJobId reason evidenceHash s = .ok s') :
    Kept s s' ∧ s.nextSlashId < s'.nextSlashId ∧ (s'.slashRecords s.nextSlashId).agent = agent ∧
      (s'.slashRecords s.nextSlashId).reason = reason := by
  simp only [initiateSlash, createSlashRecord, bind_eq_ok, checkedAdd_eq_ok, pure_eq_ok,
    Prod.exists] at h
  obtain ⟨_, -, _, -, _, -, _, -, _, -, x, charged, -, escrow, -, next, ⟨-, rfl⟩, s₁, ⟨deadline, -, hs₁⟩,
    total, -, allTime, -, s₂, hpenalty, hpropagate⟩ := h
  have hrecord : ∃ record : SlashRecord, s₁ = s.setRecord s.nextSlashId record ∧
      record.agent = agent ∧ record.reason = reason := ⟨_, hs₁.symm, rfl, rfl⟩
  clear hs₁
  obtain ⟨record, rfl, hagent, hreason⟩ := hrecord
  -- Both calls under `try` leave the records as they are.
  have hrecords : s'.slashRecords = s₂.slashRecords ∧ s'.nextSlashId = s₂.nextSlashId ∧
      s'.reputationPenalties = s₂.reputationPenalties := by
    rcases propagateSlash_ok hpropagate with heq | ⟨c, heq⟩
    · rw [heq]
      refine ⟨?_, ?_, ?_⟩ <;> simp
    · rw [heq]
      refine ⟨?_, ?_, ?_⟩ <;> simp
  have hscored : s₂.slashRecords = Function.update s.slashRecords s.nextSlashId record ∧
      s₂.nextSlashId = s.nextSlashId + 1 ∧ s₂.reputationPenalties = s.reputationPenalties := by
    rcases applyReputationPenalty_ok hpenalty with heq | ⟨c, heq⟩
    · rw [heq]
      refine ⟨?_, ?_, ?_⟩ <;> simp
    · rw [heq]
      refine ⟨?_, ?_, ?_⟩ <;> simp
  obtain ⟨hslashed, hnext, hpenalties⟩ := hrecords
  obtain ⟨hwritten, hnumber, hsame⟩ := hscored
  rw [hwritten] at hslashed
  rw [hnumber] at hnext
  rw [hsame] at hpenalties
  refine ⟨⟨?_, ?_, ?_, ?_⟩, ?_, ?_, ?_⟩
  · omega
  · intro id hid
    rw [hslashed, Function.update_of_ne hid.ne]
  · intro id hid
    rw [hslashed, Function.update_of_ne hid.ne]
  · exact fun reason => .inl (by rw [hpenalties])
  · omega
  · rw [hslashed, Function.update_self, hagent]
  · rw [hslashed, Function.update_self, hreason]

theorem resolveAppeal_approved {slashId : ℕ} (h : resolveAppeal this env slashId true w = .ok w') :
    Kept w.state w'.state ∧
      (w.state.reputationPenalties (w.state.slashRecords slashId).reason ≠ 0 →
        w.state.agentRegistry ≠ 0 →
        -2^(256 - 1) < w.state.reputationPenalties (w.state.slashRecords slashId).reason) := by
  simp only [resolveAppeal, approveAppeal, bind_eq_ok, checkedAdd_eq_ok, checkedSub_eq_ok, pure_eq_ok,
    if_true] at h
  obtain ⟨_, -, _, -, _, -, _, -, s, ⟨total, -, available, -, escrow, -, _, -, _, -, s₁, hpenalty, rfl⟩,
    rfl⟩ := h
  obtain ⟨hlogged, hnegated⟩ := reverseReputationPenalty_ok hpenalty
  refine ⟨?_, hnegated⟩
  have hsame : s₁.slashRecords = w.state.slashRecords ∧ s₁.nextSlashId = w.state.nextSlashId ∧
      s₁.reputationPenalties = w.state.reputationPenalties := by
    rcases hlogged with heq | ⟨c, heq⟩
    · rw [heq]
      exact ⟨rfl, rfl, rfl⟩
    · rw [heq]
      exact ⟨rfl, rfl, rfl⟩
  obtain ⟨hrecords, hnext, hpenalties⟩ := hsame
  refine .of_setRecord slashId { w.state.slashRecords slashId with appealStatus := .approved } rfl rfl ?_ ?_ ?_
  · simp [hnext]
  · simp [hrecords]
  · simp [hpenalties]

theorem denyAppeal_kept {slashId : ℕ} (h : denyAppeal this env slashId w = .ok w') :
    Kept w.state w'.state := by
  obtain ⟨hstate, -⟩ := denyAppeal_ok h
  rw [hstate]
  exact .of_setRecord slashId { w.state.slashRecords slashId with appealStatus := .denied } rfl rfl rfl
    rfl rfl

theorem finalizeLoop_kept {slashIds : List ℕ}
    (h : slashIds.foldlM (finalizeAppeal this env) w = .ok w') : Kept w.state w'.state := by
  induction slashIds generalizing w with
  | nil =>
    rw [List.foldlM_nil, pure_eq_ok] at h
    rw [h]
    exact .of_eq rfl rfl rfl
  | cons slashId slashIds ih =>
    rw [List.foldlM_cons, bind_eq_ok] at h
    obtain ⟨w₁, hpass, h⟩ := h
    refine Kept.trans ?_ (ih h)
    unfold finalizeAppeal at hpass
    dsimp only at hpass
    split_ifs at hpass
    · simp only [bind_eq_ok, pure_eq_ok] at hpass
      obtain ⟨w₂, hdeny, rfl⟩ := hpass
      exact (denyAppeal_kept hdeny).trans (.of_eq rfl rfl rfl)
    · rw [pure_eq_ok.mp hpass]
      exact .of_eq rfl rfl rfl

theorem execAdmin_kept {c : AdminCall} (h : execAdmin env c s = .ok s') : Kept s s' := by
  simp only [execAdmin, bind_eq_ok] at h
  obtain ⟨_, -, h⟩ := h
  cases c with
  | setReputationPenalty reason delta =>
    rw [pure_eq_ok] at h
    subst h
    -- The penalty is written for one reason, and the others stay.
    refine ⟨le_rfl, fun _ _ => rfl, fun _ _ => rfl, fun other => ?_⟩
    rcases eq_or_ne other reason with rfl | hne
    · right
      dsimp only
      rw [Function.update_self]
      exact delta.property
    · left
      dsimp only
      rw [Function.update_of_ne hne]
  | setSlashRate | addAuthorizedSlasher | setTreasury | associateGuardToken | pause | unpause
  | transferOwnership =>
    simp only [bind_eq_ok, pure_eq_ok] at h
    obtain ⟨_, -, rfl⟩ := h
    exact .of_eq rfl rfl rfl
  | _ =>
    rw [← pure_eq_ok.mp h]
    exact .of_eq rfl rfl rfl

/-- Every call keeps what later scoring needs. -/
theorem exec_kept {c : Call} (h : exec this env c w = .ok w') : Kept w.state w'.state := by
  unfold exec at h
  split_ifs at h
  cases c with
  | stake amount =>
    simp only [stake, creditStake, bind_eq_ok, transferGuard_eq_ok, pure_eq_ok] at h
    obtain ⟨_, -, _, -, _, -, w₁, ⟨-, -, hstate⟩, _, ⟨_, -, _, -, rfl⟩, rfl⟩ := h
    rw [hstate]
    exact .of_eq (by simp) (by simp) (by simp)
  | requestUnstake amount =>
    simp only [onState_eq_ok, requestUnstake, bind_eq_ok, pure_eq_ok] at h
    obtain ⟨⟨_, -, _, -, _, -, _, -, _, -, _, -, _, -, _, -, _, -, _, -, hstate⟩, -⟩ := h
    rw [← hstate]
    exact .of_eq (by simp) (by simp) (by simp)
  | completeUnstake =>
    simp only [completeUnstake, releaseUnbonding, bind_eq_ok, transferGuard_eq_ok, pure_eq_ok, Prod.exists,
      Prod.mk.injEq] at h
    obtain ⟨amount, s', ⟨_, -, _, -, _, -, -, rfl⟩, w₁, ⟨-, -, hstate⟩, rfl⟩ := h
    dsimp only
    rw [hstate]
    exact .of_eq (by simp) (by simp) (by simp)
  | deactivate =>
    simp only [onState_eq_ok, deactivate, bind_eq_ok, pure_eq_ok] at h
    obtain ⟨⟨_, -, _, -, _, -, _, -, _, -, _, -, _, -, hstate⟩, -⟩ := h
    rw [← hstate]
    exact .of_eq (by simp) (by simp) (by simp)
  | lockStake agent amount jobId =>
    simp only [onState_eq_ok, lockStake, bind_eq_ok, pure_eq_ok] at h
    obtain ⟨⟨_, -, _, -, _, -, _, -, _, -, _, -, hstate⟩, -⟩ := h
    rw [← hstate]
    exact .of_eq (by simp) (by simp) (by simp)
  | unlockStake agent amount jobId =>
    simp only [onState_eq_ok, unlockStake, bind_eq_ok, pure_eq_ok] at h
    obtain ⟨⟨_, -, _, -, _, -, _, -, _, -, _, -, hstate⟩, -⟩ := h
    rw [← hstate]
    exact .of_eq (by simp) (by simp) (by simp)
  | initiateSlash agent jobId subJobId reason evidenceHash =>
    exact (initiateSlash_kept (onState_eq_ok.mp h).1).1
  -- An appeal changes the record in nothing that scoring reads.
  | fileAppeal slashId reason =>
    simp only [onState_eq_ok, fileAppeal, bind_eq_ok, pure_eq_ok] at h
    obtain ⟨⟨_, -, _, -, _, -, _, -, _, -, hstate⟩, -⟩ := h
    rw [← hstate]
    exact .of_setRecord slashId { w.state.slashRecords slashId with appealReason := reason } rfl rfl rfl
      rfl rfl
  | resolveAppeal slashId approved =>
    cases approved with
    | true => exact (resolveAppeal_approved h).1
    | false =>
      simp only [resolveAppeal, bind_eq_ok] at h
      obtain ⟨_, -, _, -, _, -, _, -, h⟩ := h
      rw [if_neg (by decide)] at h
      simp only [bind_eq_ok, pure_eq_ok] at h
      obtain ⟨w₁, hdeny, rfl⟩ := h
      exact (denyAppeal_kept hdeny).trans (.of_eq rfl rfl rfl)
  | finalizeExpiredAppeals => exact finalizeLoop_kept h
  | admin c => exact execAdmin_kept (onState_eq_ok.mp h).1

end AuditGuard.StakingManager
