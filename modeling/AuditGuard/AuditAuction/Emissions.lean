import AuditGuard.AuditAuction.Effects

/-!
# AuditAuction: what the events report

Four events report the status of a job: that it was posted, that its winners were selected, that it was completed or
cancelled. Every change of a status is reported by one of them, in the call that makes it, and nothing else is
reported (`exec_announces`).
-/

namespace AuditGuard.AuditAuction

open Evm TransitionSystem

/-- The status that an event reports, and of which job. -/
def Event.report : Event → Option (ℕ × JobStatus)
  | .jobPosted jobId _ _ _ _ _ _ _ => some (jobId, .auctionOpen)
  | .winnersSelected jobId _ _ _ => some (jobId, .auditingInProgress)
  | .jobCompleted jobId => some (jobId, .completed)
  | .jobCancelled jobId => some (jobId, .cancelled)
  | _ => none

/-- The status of a job, if it was posted. -/
def State.statusOf (s : State) (jobId : ℕ) : Option JobStatus :=
  if (s.jobs jobId).jobId ≠ 0 then some (s.jobs jobId).status else none

/-- The statuses that follow each other in the life of a job. -/
inductive Follows : Option JobStatus → JobStatus → Prop
  | post : Follows none .auctionOpen
  | select : Follows (some .auctionOpen) .auditingInProgress
  | complete : Follows (some .auditingInProgress) .completed
  | cancel : Follows (some .auctionOpen) .cancelled

/-- The log has grown by events with these reports. -/
def Emits (s s' : State) (reports : List (ℕ × JobStatus)) : Prop :=
  ∃ es, s'.log = s.log ++ es ∧ es.filterMap Event.report = reports

/-- No status has changed, and none was reported. -/
structure Silent (s s' : State) : Prop where
  emits : Emits s s' []
  statuses : s'.statusOf = s.statusOf

/-- At most one status has changed, to one that follows it, and exactly this was reported. -/
def Announces (s s' : State) : Prop :=
  Silent s s' ∨ ∃ jobId status, Follows (s.statusOf jobId) status ∧ Emits s s' [(jobId, status)] ∧
    s'.statusOf = Function.update s.statusOf jobId (some status)

variable {this : Address} {env : Env} {s s' s'' : State} {w w' : World State} {jobId : ℕ}

theorem Emits.trans {reports reports' : List (ℕ × JobStatus)} (h : Emits s s' reports) (h' : Emits s' s'' reports') :
    Emits s s'' (reports ++ reports') := by
  obtain ⟨es, hlog, rfl⟩ := h
  obtain ⟨es', hlog', rfl⟩ := h'
  exact ⟨es ++ es', by rw [hlog', hlog, List.append_assoc], List.filterMap_append⟩

theorem Silent.of_eq (hlog : s'.log = s.log) (hjobs : s'.jobs = s.jobs) : Silent s s' := by
  refine ⟨⟨[], by rw [hlog, List.append_nil], rfl⟩, ?_⟩
  funext jobId
  unfold State.statusOf
  rw [hjobs]

theorem Silent.refl (s : State) : Silent s s := .of_eq rfl rfl

theorem Silent.trans (h : Silent s s') (h' : Silent s' s'') : Silent s s'' where
  emits := h.emits.trans h'.emits
  statuses := h'.statuses.trans h.statuses

theorem Silent.emit (s : State) {e : Event} (he : e.report = none) : Silent s (s.emit e) where
  emits := ⟨[e], rfl, by rw [List.filterMap_cons_none he, List.filterMap_nil]⟩
  statuses := rfl

theorem statusOf_setJob (s : State) (jobId : ℕ) (job : AuditJob) : (s.setJob jobId job).statusOf =
    Function.update s.statusOf jobId (if job.jobId ≠ 0 then some job.status else none) := by
  funext id
  by_cases hid : id = jobId
  · rw [hid, Function.update_self]
    simp only [State.statusOf, State.setJob_jobs, Function.update_self]
  · rw [Function.update_of_ne hid]
    simp only [State.statusOf, State.setJob_jobs, Function.update_of_ne hid]

theorem Silent.setJob {job : AuditJob} (hid : job.jobId = (s.jobs jobId).jobId)
    (hstatus : job.status = (s.jobs jobId).status) : Silent s (s.setJob jobId job) := by
  refine ⟨⟨[], (List.append_nil _).symm, rfl⟩, ?_⟩
  rw [statusOf_setJob, hid, hstatus]
  exact Function.update_eq_self jobId s.statusOf

theorem Announces.of_setJob {job : AuditJob} {e : Event} {status : JobStatus} {s₁ s₂ : State}
    (hfollows : Follows (s.statusOf jobId) status) (hid : job.jobId ≠ 0) (hstatus : job.status = status)
    (he : e.report = some (jobId, status)) (hbefore : Silent s s₁) (hbetween : Silent (s₁.setJob jobId job) s₂) :
    Announces s (s₂.emit e) := by
  refine .inr ⟨jobId, status, hfollows, ?_, ?_⟩
  · have hwritten : Emits s₁ (s₁.setJob jobId job) [] := ⟨[], (List.append_nil _).symm, rfl⟩
    have hemitted : Emits s₂ (s₂.emit e) [(jobId, status)] :=
      ⟨[e], rfl, by rw [List.filterMap_cons_some he, List.filterMap_nil]⟩
    exact ((hbefore.emits.trans hwritten).trans hbetween.emits).trans hemitted
  · have hemit : (s₂.emit e).statusOf = s₂.statusOf := rfl
    rw [hemit, hbetween.statuses, statusOf_setJob, if_pos hid, hstatus, hbefore.statuses]

/-! ## The parts of calls -/

theorem refundBid_silent {bid bid' : AgentBid} (h : refundBid this env jobId bid w = .ok (bid', w')) :
    Silent w.state w'.state := by
  simp only [refundBid] at h
  split_ifs at h with hpending hpos
  · simp only [transferGuard, Hts.transfer_eq_ok, bind_eq_ok, pure_eq_ok, Prod.mk.injEq] at h
    obtain ⟨_, ⟨-, token, -, rfl⟩, -, rfl⟩ := h
    exact .emit _ rfl
  · rw [pure_eq_ok, Prod.mk.injEq] at h
    rw [h.2]
    exact .refl _
  · rw [pure_eq_ok, Prod.mk.injEq] at h
    rw [h.2]
    exact .refl _

theorem refundBids_silent {bids bids' : List AgentBid} (h : refundBids this env jobId bids w = .ok (bids', w')) :
    Silent w.state w'.state := by
  induction bids generalizing bids' w with
  | nil =>
    simp only [refundBids, pure_eq_ok, Prod.mk.injEq] at h
    rw [h.2]
    exact .refl _
  | cons bid bids ih =>
    simp only [refundBids, bind_eq_ok, pure_eq_ok, Prod.exists, Prod.mk.injEq] at h
    obtain ⟨bid₁, w₁, hfirst, bids₁, w₂, hrest, -, rfl⟩ := h
    exact (refundBid_silent hfirst).trans (ih hrest)

theorem tryRegistry_silent {agent : Address} {c : RegistryCall} (h : tryRegistry env jobId agent c s = .ok s') :
    Silent s s' := by
  simp only [tryRegistry, bind_eq_ok] at h
  obtain ⟨_, -, h⟩ := h
  have hsent : Silent s (s.send c) := .of_eq rfl rfl
  split at h
  · rw [pure_eq_ok] at h
    rw [← h]
    exact hsent
  · rw [pure_eq_ok] at h
    rw [← h]
    exact hsent.trans (.emit _ rfl)

/-! ## The calls -/

theorem createAuditJob_announces {contractAddress : Address} {contractChain contractType : String}
    {initialRiskScore budgetAvailable lineCount auctionDurationSeconds : ℕ} {token : TokenLedger}
    (hb : (s.books token).Sound this)
    (h : createAuditJob env contractAddress contractChain contractType initialRiskScore budgetAvailable
      lineCount auctionDurationSeconds s = .ok s') : Announces s s' := by
  simp only [createAuditJob, bind_eq_ok, checkedAdd_eq_ok, pure_eq_ok] at h
  obtain ⟨_, -, _, -, _, -, _, -, _, -, _, -, _, -, _, -, _, ⟨-, rfl⟩, deadline, -, rfl⟩ := h
  have hblank : s.file s.nextJobId = JobFile.blank := hb.unused s.nextJobId le_rfl
  have hunposted : ¬ (s.jobs s.nextJobId).jobId ≠ 0 := by
    intro hne
    have hposted := file_posted hne
    rw [hblank] at hposted
    cases hposted
  have hfollows : Follows (s.statusOf s.nextJobId) .auctionOpen := by
    rw [State.statusOf, if_neg hunposted]
    exact .post
  have hcount : Silent s { s with nextJobId := s.nextJobId + 1 } := .of_eq rfl rfl
  exact .of_setJob hfollows hb.first.ne' rfl rfl hcount (.of_eq rfl rfl)

theorem submitBid_silent {bidAmount collateralAmount estimatedCompletionTime : ℕ} {specialization : String}
    (h : submitBid this env jobId bidAmount collateralAmount estimatedCompletionTime specialization w = .ok w') :
    Silent w.state w'.state := by
  simp only [submitBid, transferGuard, Hts.transfer_eq_ok, bind_eq_ok, checkedAdd_eq_ok, pure_eq_ok] at h
  obtain ⟨_, -, _, -, _, -, _, -, _, -, _, -, _, -, _, -, _, -, _, -, _, ⟨-, token, -, rfl⟩, _, ⟨-, rfl⟩, rfl⟩ := h
  have hjob : Silent w.state (w.state.setJob jobId { w.state.jobs jobId with
      bidCount := (w.state.jobs jobId).bidCount + 1 }) := .setJob rfl rfl
  refine Silent.trans (hjob.trans ?_) (.emit _ rfl)
  exact .of_eq rfl rfl

theorem updateBid_silent {newBidAmount newCollateralAmount newEstimatedCompletionTime : ℕ}
    (h : updateBid this env jobId newBidAmount newCollateralAmount newEstimatedCompletionTime w = .ok w') :
    Silent w.state w'.state := by
  simp only [updateBid, bind_eq_ok, pure_eq_ok] at h
  obtain ⟨_, -, _, -, _, -, _, -, _, -, _, -, _, -, h⟩ := h
  rcases hfind : findBidIndex (w.state.jobBids jobId) env.sender with ⟨found, i⟩
  simp only [hfind] at h
  obtain ⟨_, -, _, -, _, -, _, hsettle, _, -, rfl⟩ := h
  obtain ⟨token₁, token, -, -, rfl⟩ := settleCollateral_ok hsettle
  have hbids : ∀ bids, Silent w.state (w.state.setBids jobId bids) := fun bids => .of_eq rfl rfl
  exact (hbids _).trans (.emit _ rfl)

theorem selectWinners_announces {winningBidIndices : List ℕ} (hb : (books w).Sound this)
    (h : selectWinners this env jobId winningBidIndices w = .ok w') : Announces w.state w'.state := by
  simp only [selectWinners, acceptBids, bind_eq_ok, require_eq_ok, checkedMul_eq_ok, checkedSub_eq_ok,
    pure_eq_ok, Prod.exists] at h
  obtain ⟨_, ⟨_, -, _, -, _, hexists, _, hopen, _, -, acc, -, _, -, rfl⟩, _, ⟨-, rfl⟩, w₁, hpayFee, _, ⟨-, rfl⟩,
    bids', w₂, hrefund, rfl⟩ := h
  obtain ⟨token₁, -, rfl⟩ := pay_ok hpayFee
  have hfollows : Follows (w.state.statusOf jobId) .auditingInProgress := by
    have hstatus : (w.state.jobs jobId).status = .auctionOpen := (hb.files jobId).isOpen hopen
    rw [State.statusOf, if_pos hexists, hstatus]
    exact .select
  have hrefunds := refundBids_silent hrefund
  exact .of_setJob hfollows (by exact hexists) rfl rfl (.refl _) (hrefunds.trans (.of_eq rfl rfl))

theorem releaseEscrow_silent {agent : Address} {payment bonus validFindings falsePos falseNeg : ℕ}
    (h : releaseEscrow this env jobId agent payment bonus validFindings falsePos falseNeg w = .ok w') :
    Silent w.state w'.state := by
  simp only [releaseEscrow, bind_eq_ok, checkedAdd_eq_ok, checkedSub_eq_ok, pure_eq_ok, Prod.exists] at h
  obtain ⟨_, -, _, -, _, -, i, bid, -, _, ⟨-, rfl⟩, _, -, w₁, hpayout, _, ⟨-, rfl⟩, w₂, hback, _, ⟨-, rfl⟩, s₃, htry,
    rfl⟩ := h
  obtain ⟨token₁, -, rfl⟩ := pay_ok hpayout
  obtain ⟨token₂, -, rfl⟩ := pay_ok hback
  have hjob : Silent w.state (w.state.setJob jobId { w.state.jobs jobId with
      totalEscrowedAmount := (w.state.jobs jobId).totalEscrowedAmount - (payment + bonus) }) := .setJob rfl rfl
  refine (hjob.trans ?_).trans (.emit _ rfl)
  refine Silent.trans ?_ (tryRegistry_silent htry)
  exact .of_eq rfl rfl

theorem slashAgentBid_silent {agent : Address} {slashBasisPoints : ℕ}
    (h : slashAgentBid this env jobId agent slashBasisPoints w = .ok w') : Silent w.state w'.state := by
  simp only [slashAgentBid, bind_eq_ok, checkedMul_eq_ok, checkedSub_eq_ok, pure_eq_ok, Prod.exists] at h
  obtain ⟨_, -, _, -, _, -, _, -, i, bid, -, _, -, _, ⟨-, rfl⟩, _, ⟨-, rfl⟩, w₁, hslash, w₂, hback, s₃, htry, rfl⟩ := h
  obtain ⟨token₁, -, rfl⟩ := pay_ok hslash
  obtain ⟨token₂, -, rfl⟩ := pay_ok hback
  have hbids : ∀ bids, Silent w.state (w.state.setBids jobId bids) := fun bids => .of_eq rfl rfl
  exact ((hbids _).trans (tryRegistry_silent htry)).trans (.emit _ rfl)

theorem completeJob_announces {token : TokenLedger} (hb : (s.books token).Sound this)
    (h : completeJob env jobId s = .ok s') : Announces s s' := by
  simp only [completeJob, requireInProgress, bind_eq_ok, require_eq_ok, pure_eq_ok] at h
  obtain ⟨_, -, _, -, _, ⟨_, hexists, hprogress⟩, _, -, _, -, _, -, rfl⟩ := h
  have hfollows : Follows (s.statusOf jobId) .completed := by
    have hstatus : (s.jobs jobId).status = .auditingInProgress := by
      rcases hprogress with hprogress | hpending
      · exact hprogress
      · -- No job ever waits for its report.
        have hphase : (s.jobs jobId).status = .auctionOpen ∨ (s.jobs jobId).status = .auditingInProgress ∨
            (s.jobs jobId).status = .completed ∨ (s.jobs jobId).status = .cancelled := (hb.files jobId).phase
        rw [hpending] at hphase
        simp at hphase
    rw [State.statusOf, if_pos hexists, hstatus]
    exact .complete
  exact .of_setJob hfollows (by exact hexists) rfl rfl (.refl _) (.of_eq rfl rfl)

theorem cancelJob_announces (h : cancelJob this env jobId w = .ok w') : Announces w.state w'.state := by
  simp only [cancelJob, bind_eq_ok, require_eq_ok, pure_eq_ok, Prod.exists] at h
  obtain ⟨_, -, _, -, _, hexists, _, hopen, bids, w₁, hrefund, rfl⟩ := h
  have hfollows : Follows (w.state.statusOf jobId) .cancelled := by
    rw [State.statusOf, if_pos hexists, hopen]
    exact .cancel
  have hbids : Silent w.state (w₁.state.setBids jobId bids) := (refundBids_silent hrefund).trans (.of_eq rfl rfl)
  exact .of_setJob hfollows (by exact hexists) rfl rfl hbids (.of_eq rfl rfl)

theorem execAdmin_silent {c : AdminCall} (h : execAdmin env c s = .ok s') : Silent s s' := by
  simp only [execAdmin, bind_eq_ok] at h
  obtain ⟨_, -, h⟩ := h
  cases c with
  | setAgentRegistry agentRegistry =>
    simp only [bind_eq_ok, pure_eq_ok] at h
    obtain ⟨_, -, _, -, rfl⟩ := h
    exact .of_eq rfl rfl
  | renounceOwnership =>
    rw [pure_eq_ok] at h
    rw [← h]
    exact .of_eq rfl rfl
  | setAuditScheduler auditScheduler =>
    simp only [bind_eq_ok, pure_eq_ok] at h
    obtain ⟨_, -, rfl⟩ := h
    have hset : Silent s { s with auditScheduler := auditScheduler } := .of_eq rfl rfl
    exact hset.trans (.emit _ rfl)
  | _ =>
    simp only [bind_eq_ok, pure_eq_ok] at h
    obtain ⟨_, -, rfl⟩ := h
    exact .of_eq rfl rfl

theorem exec_announces {c : Call} (hb : (books w).Sound this) (h : exec this env c w = .ok w') :
    Announces w.state w'.state := by
  unfold exec at h
  split_ifs at h
  cases c with
  | createAuditJob =>
    obtain ⟨s, hs, rfl⟩ := onState_eq_ok.mp h
    exact createAuditJob_announces hb hs
  | submitBid => exact .inl (submitBid_silent h)
  | updateBid => exact .inl (updateBid_silent h)
  | selectWinners => exact selectWinners_announces hb h
  | releaseEscrow => exact .inl (releaseEscrow_silent h)
  | slashAgentBid => exact .inl (slashAgentBid_silent h)
  | completeJob =>
    obtain ⟨s, hs, rfl⟩ := onState_eq_ok.mp h
    exact completeJob_announces hb hs
  | cancelJob => exact cancelJob_announces h
  | pause | unpause =>
    simp only [onState_eq_ok, pause, unpause, bind_eq_ok, pure_eq_ok] at h
    obtain ⟨_, ⟨_, -, _, -, rfl⟩, rfl⟩ := h
    exact .inl (.of_eq rfl rfl)
  | associateGuardToken =>
    simp only [onState_eq_ok, associateGuardToken, bind_eq_ok, pure_eq_ok] at h
    obtain ⟨_, ⟨_, -, rfl⟩, rfl⟩ := h
    exact .inl (.emit _ rfl)
  | admin c =>
    obtain ⟨s, hs, rfl⟩ := onState_eq_ok.mp h
    exact .inl (execAdmin_silent hs)

end AuditGuard.AuditAuction
