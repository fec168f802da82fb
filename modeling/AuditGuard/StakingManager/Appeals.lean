import AuditGuard.StakingManager.Scoring

/-!
# StakingManager: what the events say of a slash

The events of a slash are true for good. Its initiation names the agent and the rate that stand in the record ever
after, and the end of its appeal names the status that the record keeps: a denied or expired appeal is never approved,
and an approved one never denied. One who only reads the log, such as the orchestrator, thus knows what became of a
slash.
-/

namespace AuditGuard.StakingManager

open Evm TransitionSystem

/-- An appeal with this status is over. -/
def AppealStatus.Final (status : AppealStatus) : Prop := status = .approved ∨ status = .denied

/-- What an event says about a slash is so in the storage. -/
def Event.Holds (s : State) : Event → Prop
  | .slashInitiated slashId agent _ _ slashBasisPoints _ _ => slashId < s.nextSlashId ∧
      (s.slashRecords slashId).agent = agent ∧ (s.slashRecords slashId).slashBasisPoints = slashBasisPoints
  | .appealApproved slashId _ _ => slashId < s.nextSlashId ∧ (s.slashRecords slashId).appealStatus = .approved
  | .appealDenied slashId _ _ | .appealExpired slashId =>
    slashId < s.nextSlashId ∧ (s.slashRecords slashId).appealStatus = .denied
  | _ => True

/-- A record keeps the agent and the rate, and its status once that is final. -/
structure SlashRecord.Keeps (r r' : SlashRecord) : Prop where
  agent : r'.agent = r.agent
  rate : r'.slashBasisPoints = r.slashBasisPoints
  status : r.appealStatus.Final → r'.appealStatus = r.appealStatus

/-- Records that exist are kept, and the log grows by events that hold. -/
structure Grows (s s' : State) : Prop where
  next : s.nextSlashId ≤ s'.nextSlashId
  records : ∀ id < s.nextSlashId, (s.slashRecords id).Keeps (s'.slashRecords id)
  log : ∃ es, s'.log = s.log ++ es ∧ ∀ e ∈ es, e.Holds s'

variable {this : Address} {env : Env} {s s' s₁ : State} {w w' : World}

theorem SlashRecord.Keeps.refl (r : SlashRecord) : r.Keeps r := ⟨rfl, rfl, fun _ => rfl⟩

theorem Event.Holds.mono {e : Event} (he : e.Holds s) (hnext : s.nextSlashId ≤ s'.nextSlashId)
    (hrecords : ∀ id < s.nextSlashId, (s.slashRecords id).Keeps (s'.slashRecords id)) : e.Holds s' := by
  cases e with
  | slashInitiated slashId agent reason slashedAmount slashBasisPoints evidenceHash jobId =>
    obtain ⟨hid, hagent, hrate⟩ := he
    have hkeeps := hrecords slashId hid
    exact ⟨hid.trans_le hnext, hkeeps.agent.trans hagent, hkeeps.rate.trans hrate⟩
  | appealApproved slashId agent restoredAmount =>
    obtain ⟨hid, hstatus⟩ := he
    exact ⟨hid.trans_le hnext, ((hrecords slashId hid).status (.inl hstatus)).trans hstatus⟩
  | appealDenied slashId agent finalizedAmount =>
    obtain ⟨hid, hstatus⟩ := he
    exact ⟨hid.trans_le hnext, ((hrecords slashId hid).status (.inr hstatus)).trans hstatus⟩
  | appealExpired slashId =>
    obtain ⟨hid, hstatus⟩ := he
    exact ⟨hid.trans_le hnext, ((hrecords slashId hid).status (.inr hstatus)).trans hstatus⟩
  | _ => trivial

namespace Grows

theorem holds (h : Grows s s') {e : Event} (he : e.Holds s) : e.Holds s' := he.mono h.next h.records

theorem trans (h : Grows s s₁) (h' : Grows s₁ s') : Grows s s' := by
  constructor
  case next => exact h.next.trans h'.next
  case records =>
    intro id hid
    have hfirst := h.records id hid
    have hthen := h'.records id (hid.trans_le h.next)
    refine ⟨hthen.agent.trans hfirst.agent, hthen.rate.trans hfirst.rate, fun hfinal => ?_⟩
    have hsame := hfirst.status hfinal
    rw [hthen.status (hsame ▸ hfinal), hsame]
  case log =>
    obtain ⟨es, hlog, hes⟩ := h.log
    obtain ⟨es', hlog', hes'⟩ := h'.log
    refine ⟨es ++ es', by rw [hlog', hlog, List.append_assoc], fun e he => ?_⟩
    rcases List.mem_append.mp he with he | he
    · exact h'.holds (hes e he)
    · exact hes' e he

theorem of_eq (hnext : s'.nextSlashId = s.nextSlashId) (hrecords : s'.slashRecords = s.slashRecords)
    (es : List Event) (hlog : s'.log = s.log ++ es) (hes : ∀ e ∈ es, e.Holds s') : Grows s s' where
  next := hnext.ge
  records id _ := by
    rw [hrecords]
    exact .refl _
  log := ⟨es, hlog, hes⟩

theorem of_silent (hnext : s'.nextSlashId = s.nextSlashId) (hrecords : s'.slashRecords = s.slashRecords)
    (hlog : s'.log = s.log) : Grows s s' :=
  .of_eq hnext hrecords [] (by rw [hlog, List.append_nil]) (by simp)

theorem of_setRecord (slashId : ℕ) (record : SlashRecord) (hkeeps : (s.slashRecords slashId).Keeps record)
    (hnext : s'.nextSlashId = s.nextSlashId)
    (hrecords : s'.slashRecords = Function.update s.slashRecords slashId record)
    (es : List Event) (hlog : s'.log = s.log ++ es) (hes : ∀ e ∈ es, e.Holds s') : Grows s s' where
  next := hnext.ge
  records id _ := by
    rw [hrecords]
    rcases eq_or_ne id slashId with rfl | hne
    · rwa [Function.update_self]
    · rw [Function.update_of_ne hne]
      exact .refl _
  log := ⟨es, hlog, hes⟩

end Grows

/-! ## All calls -/

theorem silent_of_logged (h : s' = s ∨ ∃ c, s' = s.send c) :
    s'.nextSlashId = s.nextSlashId ∧ s'.slashRecords = s.slashRecords ∧ s'.log = s.log := by
  rcases h with rfl | ⟨c, rfl⟩
  · exact ⟨rfl, rfl, rfl⟩
  · exact ⟨rfl, rfl, rfl⟩

theorem initiateSlash_grows {agent : Address} {jobId subJobId : ℕ} {reason : SlashReason}
    {evidenceHash : UInt 256} (h : initiateSlash env agent jobId subJobId reason evidenceHash s = .ok s') :
    Grows s s' := by
  simp only [initiateSlash, createSlashRecord, bind_eq_ok, checkedAdd_eq_ok, pure_eq_ok,
    Prod.exists] at h
  obtain ⟨_, -, _, -, _, -, _, -, _, -, x, charged, -, escrow, -, next, ⟨-, rfl⟩, s₁, ⟨deadline, -, hs₁⟩,
    total, -, allTime, -, s₂, hpenalty, hpropagate⟩ := h
  have hrecord : ∃ record : SlashRecord, s₁ = s.setRecord s.nextSlashId record ∧
      record.agent = agent ∧ record.slashBasisPoints = s.slashRates reason := ⟨_, hs₁.symm, rfl, rfl⟩
  clear hs₁
  obtain ⟨record, rfl, hagent, hrate⟩ := hrecord
  obtain ⟨hnext, hrecords, hlog⟩ := silent_of_logged (propagateSlash_ok hpropagate)
  obtain ⟨hnext₂, hrecords₂, hlog₂⟩ := silent_of_logged (applyReputationPenalty_ok hpenalty)
  have hnumber : s'.nextSlashId = s.nextSlashId + 1 := by rw [hnext]; simp [hnext₂]
  have hwritten : s'.slashRecords = Function.update s.slashRecords s.nextSlashId record := by
    rw [hrecords]
    simp [hrecords₂]
  constructor
  case next => omega
  case records =>
    intro id hid
    rw [hwritten, Function.update_of_ne hid.ne]
    exact .refl _
  case log =>
    refine ⟨[.slashInitiated s.nextSlashId agent reason x (s.slashRates reason) evidenceHash jobId], ?_, ?_⟩
    · rw [hlog]
      simp [hlog₂]
    · intro e he
      obtain rfl := List.mem_singleton.mp he
      refine ⟨by omega, ?_, ?_⟩
      · rw [hwritten, Function.update_self, hagent]
      · rw [hwritten, Function.update_self, hrate]

theorem resolveAppeal_approved_grows {slashId : ℕ} (hw : w.state.core.Faithful)
    (h : resolveAppeal this env slashId true w = .ok w') : Grows w.state w'.state := by
  simp only [resolveAppeal, approveAppeal, bind_eq_ok, checkedAdd_eq_ok, checkedSub_eq_ok, pure_eq_ok,
    if_true, require_eq_ok] at h
  obtain ⟨_, -, _, -, _, hpending, _, -, s, ⟨total, -, available, -, escrow, -, _, -, _, -, s₁, hpenalty, rfl⟩,
    rfl⟩ := h
  obtain ⟨hnext, hrecords, hlog⟩ := silent_of_logged (reverseReputationPenalty_ok hpenalty).1
  have hid : slashId < w.state.nextSlashId := hw.lt_next_of_pending hpending
  refine .of_setRecord slashId { w.state.slashRecords slashId with appealStatus := .approved }
    ⟨rfl, rfl, fun hfinal => ?_⟩ ?_ ?_ [.appealApproved slashId (w.state.slashRecords slashId).agent
      (w.state.slashRecords slashId).slashedAmount] ?_ ?_
  · -- A pending appeal is not final.
    rw [hpending] at hfinal
    rcases hfinal with hfinal | hfinal <;> cases hfinal
  · simp [hnext]
  · simp [hrecords]
  · simp [hlog]
  · intro e he
    obtain rfl := List.mem_singleton.mp he
    refine ⟨?_, ?_⟩
    · simpa [hnext] using hid
    · simp

theorem denyAppeal_grows {slashId : ℕ} (hpending : (w.state.slashRecords slashId).appealStatus = .pending)
    (h : denyAppeal this env slashId w = .ok w') :
    Grows w.state w'.state ∧ w'.state.nextSlashId = w.state.nextSlashId ∧
      (w'.state.slashRecords slashId).appealStatus = .denied := by
  obtain ⟨hstate, -⟩ := denyAppeal_ok h
  rw [hstate]
  refine ⟨?_, rfl, ?_⟩
  · refine .of_setRecord slashId { w.state.slashRecords slashId with appealStatus := .denied }
      ⟨rfl, rfl, fun hfinal => ?_⟩ rfl rfl [] (by simp) (by simp)
    rw [hpending] at hfinal
    rcases hfinal with hfinal | hfinal <;> cases hfinal
  · simp

theorem finalizeAppeal_grows {slashId : ℕ} (hw : w.state.core.Faithful)
    (h : finalizeAppeal this env w slashId = .ok w') : Grows w.state w'.state := by
  unfold finalizeAppeal at h
  dsimp only at h
  split_ifs at h with hexpired
  · simp only [bind_eq_ok, pure_eq_ok] at h
    obtain ⟨w₁, hdeny, rfl⟩ := h
    have hid : slashId < w.state.nextSlashId := hw.lt_next_of_pending hexpired.1
    obtain ⟨hgrows, hnext, hdenied⟩ := denyAppeal_grows hexpired.1 hdeny
    refine hgrows.trans (.of_eq rfl rfl [.appealExpired slashId] rfl fun e he => ?_)
    obtain rfl := List.mem_singleton.mp he
    exact ⟨hnext ▸ hid, hdenied⟩
  · rw [pure_eq_ok.mp h]
    exact .of_silent rfl rfl rfl

theorem finalizeLoop_grows {slashIds : List ℕ} (hw : w.state.core.Faithful)
    (h : slashIds.foldlM (finalizeAppeal this env) w = .ok w') : Grows w.state w'.state := by
  induction slashIds generalizing w with
  | nil =>
    rw [List.foldlM_nil, pure_eq_ok] at h
    rw [h]
    exact .of_silent rfl rfl rfl
  | cons slashId slashIds ih =>
    rw [List.foldlM_cons, bind_eq_ok] at h
    obtain ⟨w₁, hpass, h⟩ := h
    obtain ⟨-, ids, hrefines⟩ := finalizeAppeal_refines hw hpass
    exact (finalizeAppeal_grows hw hpass).trans (ih hrefines.faithful h)

theorem resolveAppeal_grows {slashId : ℕ} {approved : Bool} (hw : w.state.core.Faithful)
    (h : resolveAppeal this env slashId approved w = .ok w') : Grows w.state w'.state := by
  cases approved with
  | true => exact resolveAppeal_approved_grows hw h
  | false =>
    simp only [resolveAppeal, bind_eq_ok, require_eq_ok] at h
    obtain ⟨_, -, _, -, _, hpending, _, -, h⟩ := h
    rw [if_neg (by decide)] at h
    simp only [bind_eq_ok, pure_eq_ok] at h
    obtain ⟨w₁, hdeny, rfl⟩ := h
    have hid : slashId < w.state.nextSlashId := hw.lt_next_of_pending hpending
    obtain ⟨hgrows, hnext, hdenied⟩ := denyAppeal_grows hpending hdeny
    refine hgrows.trans (.of_eq rfl rfl [.appealDenied slashId (w.state.slashRecords slashId).agent
      (w.state.slashRecords slashId).slashedAmount] rfl fun e he => ?_)
    obtain rfl := List.mem_singleton.mp he
    exact ⟨hnext ▸ hid, hdenied⟩

theorem execAdmin_grows {c : AdminCall} (h : execAdmin env c s = .ok s') : Grows s s' := by
  simp only [execAdmin, bind_eq_ok] at h
  obtain ⟨_, -, h⟩ := h
  cases c with
  | setSlashRate reason basisPoints =>
    simp only [bind_eq_ok, pure_eq_ok] at h
    obtain ⟨_, -, rfl⟩ := h
    exact .of_eq rfl rfl [.slashRateUpdated reason (s.slashRates reason) basisPoints] rfl (by simp [Event.Holds])
  | setUnbondingPeriod seconds =>
    rw [← pure_eq_ok.mp h]
    exact .of_eq rfl rfl [.unbondingPeriodUpdated s.unbondingPeriod seconds] rfl (by simp [Event.Holds])
  | associateGuardToken =>
    simp only [bind_eq_ok, pure_eq_ok] at h
    obtain ⟨_, -, rfl⟩ := h
    exact .of_eq rfl rfl [.guardTokenAssociated s.guardToken] rfl (by simp [Event.Holds])
  | addAuthorizedSlasher | setTreasury | pause | unpause | transferOwnership =>
    simp only [bind_eq_ok, pure_eq_ok] at h
    obtain ⟨_, -, rfl⟩ := h
    exact .of_silent rfl rfl rfl
  | _ =>
    rw [← pure_eq_ok.mp h]
    exact .of_silent rfl rfl rfl

/-- Every call keeps the records, and what it says of a slash is so. -/
theorem exec_grows {c : Call} (hw : w.state.core.Faithful) (h : exec this env c w = .ok w') :
    Grows w.state w'.state := by
  unfold exec at h
  split_ifs at h
  cases c with
  | stake amount =>
    simp only [stake, creditStake, bind_eq_ok, transferGuard_eq_ok, pure_eq_ok] at h
    obtain ⟨_, -, _, -, _, -, w₁, ⟨-, -, hstate⟩, _, ⟨total, -, _, -, rfl⟩, rfl⟩ := h
    rw [hstate]
    exact .of_eq (by simp) (by simp) [.staked env.sender amount total] (by simp) (by simp [Event.Holds])
  | requestUnstake amount =>
    simp only [onState_eq_ok, requestUnstake, bind_eq_ok, pure_eq_ok] at h
    obtain ⟨⟨_, -, _, -, _, -, _, -, _, -, _, -, _, -, _, -, _, -, completesAt, -, hstate⟩, -⟩ := h
    rw [← hstate]
    exact .of_eq (by simp) (by simp) [.unstakeRequested env.sender amount completesAt] (by simp)
      (by simp [Event.Holds])
  | completeUnstake =>
    simp only [completeUnstake, releaseUnbonding, bind_eq_ok, transferGuard_eq_ok, pure_eq_ok, Prod.exists,
      Prod.mk.injEq] at h
    obtain ⟨amount, s', ⟨_, -, _, -, _, -, -, rfl⟩, w₁, ⟨-, -, hstate⟩, rfl⟩ := h
    dsimp only
    rw [hstate]
    exact .of_eq (by simp) (by simp) [.unstakeCompleted env.sender amount] (by simp) (by simp [Event.Holds])
  | deactivate =>
    simp only [onState_eq_ok, deactivate, bind_eq_ok, pure_eq_ok] at h
    obtain ⟨⟨_, -, _, -, _, -, _, -, _, -, _, -, completesAt, -, hstate⟩, -⟩ := h
    rw [← hstate]
    exact .of_eq (by simp) (by simp) [.agentDeactivating env.sender, .unstakeRequested env.sender _ completesAt]
      (by simp; rfl) (by simp [Event.Holds])
  | lockStake agent amount jobId =>
    simp only [onState_eq_ok, lockStake, bind_eq_ok, pure_eq_ok] at h
    obtain ⟨⟨_, -, _, -, _, -, _, -, _, -, _, -, hstate⟩, -⟩ := h
    rw [← hstate]
    exact .of_eq (by simp) (by simp) [.stakeLocked agent amount jobId] (by simp) (by simp [Event.Holds])
  | unlockStake agent amount jobId =>
    simp only [onState_eq_ok, unlockStake, bind_eq_ok, pure_eq_ok] at h
    obtain ⟨⟨_, -, _, -, _, -, _, -, _, -, _, -, hstate⟩, -⟩ := h
    rw [← hstate]
    exact .of_eq (by simp) (by simp) [.stakeUnlocked agent amount jobId] (by simp) (by simp [Event.Holds])
  | initiateSlash agent jobId subJobId reason evidenceHash =>
    exact initiateSlash_grows (onState_eq_ok.mp h).1
  -- Only the reason of the appeal is written, which no event and no final status is about.
  | fileAppeal slashId reason =>
    simp only [onState_eq_ok, fileAppeal, bind_eq_ok, pure_eq_ok] at h
    obtain ⟨⟨_, -, _, -, _, -, _, -, _, -, hstate⟩, -⟩ := h
    rw [← hstate]
    exact .of_setRecord slashId { w.state.slashRecords slashId with appealReason := reason }
      ⟨rfl, rfl, fun _ => rfl⟩ rfl rfl [.appealFiled slashId env.sender reason] rfl (by simp [Event.Holds])
  | resolveAppeal slashId approved => exact resolveAppeal_grows hw h
  | finalizeExpiredAppeals => exact finalizeLoop_grows hw h
  | admin c => exact execAdmin_grows (onState_eq_ok.mp h).1

theorem Step.grows {l : Label} (hw : (system this).Reachable w) (h : Step this w l w') :
    Grows w.state w'.state := by
  cases h with
  | call _ _ h => exact exec_grows (reachable_faithful hw) h
  | elsewhere _ => exact .of_silent rfl rfl rfl

/-! ## The log -/

theorem reachable_holds (hw : (system this).Reachable w) : ∀ e ∈ w.state.log, e.Holds w.state := by
  induction hw with
  | init h =>
    obtain ⟨deployer, guardToken, agentRegistry, treasury, hstate⟩ := h.state_eq
    rw [hstate]
    intro e he
    cases he
  | step hw h ih =>
    have hgrows := Step.grows hw h
    obtain ⟨es, hlog, hes⟩ := hgrows.log
    rw [hlog]
    intro e he
    rcases List.mem_append.mp he with he | he
    · exact hgrows.holds (ih e he)
    · exact hes e he

/-- The slash that an event confirms: its appeal was denied, or the time for one ran out. -/
def Event.confirmed : Event → Option ℕ
  | .appealDenied slashId _ _ => some slashId
  | .appealExpired slashId => some slashId
  | _ => none

theorem not_approved_of_confirmed {slashId : ℕ} {e : Event} (hw : (system this).Reachable w)
    (he : e ∈ w.state.log) (hconfirmed : e.confirmed = some slashId) (agent : Address) (amount : ℕ) :
    .appealApproved slashId agent amount ∉ w.state.log := by
  intro happroved
  have hholds := reachable_holds hw e he
  have hdenied : (w.state.slashRecords slashId).appealStatus = .denied := by
    cases e with
    | appealDenied | appealExpired =>
      obtain rfl := Option.some.inj hconfirmed
      exact hholds.2
    | _ => cases hconfirmed
  have hstatus := (reachable_holds hw _ happroved).2
  rw [hdenied] at hstatus
  cases hstatus

end AuditGuard.StakingManager
