import AuditGuard.AuditAuction.Lifecycle

/-!
# AuditAuction: what stays of a job

What somebody who reads the contract may keep in mind: a job that was posted stays, its contract and its deadline do
not change, the bidders of a job are only added to, an auction that is over stays so, and a job that was completed
or cancelled is nothing else later on (`Step.keeps_job`, `Later.keeps`).
-/

namespace AuditGuard.AuditAuction

open Evm TransitionSystem

/-- What is kept of a job when the contract moves from one state to another. -/
structure Keeps (s s' : State) (jobId : ℕ) : Prop where
  posted : (s.jobs jobId).jobId ≠ 0 → (s'.jobs jobId).jobId ≠ 0
  contractAddress : (s.jobs jobId).jobId ≠ 0 →
    (s'.jobs jobId).contractAddress = (s.jobs jobId).contractAddress
  deadline : (s.jobs jobId).jobId ≠ 0 → (s'.jobs jobId).auctionDeadline = (s.jobs jobId).auctionDeadline
  bidders : (s.jobBids jobId).map AgentBid.agent <+: (s'.jobBids jobId).map AgentBid.agent
  ended : (s.jobs jobId).status ≠ .auctionOpen → (s'.jobs jobId).status ≠ .auctionOpen
  settled : (s.jobs jobId).status = .completed ∨ (s.jobs jobId).status = .cancelled →
    (s'.jobs jobId).status = (s.jobs jobId).status
  winners : ∀ a ∈ (s.jobs jobId).winningAgents, a ∈ (s'.jobs jobId).winningAgents

theorem Keeps.refl (s : State) (jobId : ℕ) : Keeps s s jobId where
  posted := id
  contractAddress _ := rfl
  deadline _ := rfl
  bidders := List.prefix_refl _
  ended := id
  settled _ := rfl
  winners _ := id

theorem Keeps.trans {s₁ s₂ s₃ : State} {jobId : ℕ} (h : Keeps s₁ s₂ jobId) (h' : Keeps s₂ s₃ jobId) :
    Keeps s₁ s₃ jobId where
  posted hp := h'.posted (h.posted hp)
  contractAddress hp := (h'.contractAddress (h.posted hp)).trans (h.contractAddress hp)
  deadline hp := (h'.deadline (h.posted hp)).trans (h.deadline hp)
  bidders := h.bidders.trans h'.bidders
  ended hp := h'.ended (h.ended hp)
  settled hp := by
    have hstatus := h.settled hp
    rw [← hstatus] at hp
    exact (h'.settled hp).trans hstatus
  winners a ha := h'.winners a (h.winners a ha)

variable {this : Address} {env : Env} {s s' : State} {w w' : World State} {jobId : ℕ}

/-! ## The life of a job -/

section JobSteps

variable {f f' : JobFile} {op : JobOp}

theorem JobStep.posted (hposted : f.posted = true) (h : JobStep this f op f') : f'.posted = true := by
  cases h with
  | post => rfl
  | _ => exact hposted

theorem JobStep.bidders (h : JobStep this f op f') :
    f.bids.map AgentBid.agent <+: f'.bids.map AgentBid.agent := by
  cases h with
  | post => exact List.prefix_refl _
  | @bid _ b =>
    rw [List.map_append]
    exact List.prefix_append _ _
  | rebid _ _ hi hagent =>
    rw [Keyed.map_set hi hagent]
  | @select _ _ p _ _ _ hpicks =>
    have hagents : p.bids.map AgentBid.agent = f.bids.map AgentBid.agent := map_picks (fun _ => rfl) hpicks
    rw [agent_refund, hagents]
  | @release _ i payout bid _ _ _ hi =>
    have hagents : (f.bids.set i { bid with collateralLocked := 0 }).map AgentBid.agent =
      f.bids.map AgentBid.agent := Keyed.map_set hi rfl
    exact hagents ▸ List.prefix_refl _
  | @slash _ i slashed bid _ _ _ hi =>
    have hagents : (f.bids.set i { bid with collateralLocked := 0, status := .refunded }).map AgentBid.agent =
      f.bids.map AgentBid.agent := Keyed.map_set hi rfl
    exact hagents ▸ List.prefix_refl _
  | complete => exact List.prefix_refl _
  | cancel => rw [agent_refund]

theorem JobStep.settled (hended : f.status = .completed ∨ f.status = .cancelled)
    (h : JobStep this f op f') : f'.status = f.status := by
  have hover : f.status ≠ .auctionOpen := by
    rcases hended with hended | hended <;> simp [hended]
  have hdone : ¬ (f.status = .auditingInProgress ∨ f.status = .reportPending) := by
    rcases hended with hended | hended <;> simp [hended]
  cases h with
  | post => exact absurd rfl hover
  | bid _ hopen => exact absurd hopen hover
  | rebid _ hopen => exact absurd hopen hover
  | cancel _ hopen => exact absurd hopen hover
  | select _ hopen =>
    rcases hended with hended | hended <;> simp [hended] at hopen
  | release _ hprogress => exact absurd hprogress hdone
  | slash _ hprogress => exact absurd hprogress hdone
  | complete _ hprogress => exact absurd hprogress hdone

theorem JobStep.status_cancel {bids : List AgentBid} (h : JobStep this f (.cancel bids) f') :
    f'.status = .cancelled := by
  cases h
  rfl

theorem picks_winners {picks : List ℕ} {p p' : Picks} (h : Path PickStep p picks p') :
    (∀ a ∈ p.winners, a ∈ p'.winners) ∧
      ∀ i ∈ picks, ∃ a ∈ p'.winners, (p.bids.map AgentBid.agent)[i]? = some a := by
  induction h with
  | nil => exact ⟨fun _ => id, by simp⟩
  | @snoc q q' picks i hpath hstep ih =>
    have hagents : q.bids.map AgentBid.agent = p.bids.map AgentBid.agent := map_picks (fun _ => rfl) hpath
    cases hstep with
    | @accept bid hi hpending =>
      refine ⟨fun a ha => List.mem_append_left _ (ih.1 a ha), fun j hj => ?_⟩
      rcases List.mem_append.mp hj with hj | hj
      · obtain ⟨a, ha, hget⟩ := ih.2 j hj
        exact ⟨a, List.mem_append_left _ ha, hget⟩
      · rw [List.mem_singleton] at hj
        subst hj
        refine ⟨bid.agent, List.mem_append_right _ (List.mem_singleton_self _), ?_⟩
        rw [← hagents, List.getElem?_map, hi, Option.map_some]

theorem JobStep.winners_select {picks : List ℕ} {p : Picks} {fee : ℕ}
    (h : JobStep this f (.select picks p fee) f') :
    ∀ i ∈ picks, ∃ a ∈ f'.winners, (f.bids.map AgentBid.agent)[i]? = some a := by
  cases h with
  | select _ _ hpicks => exact (picks_winners hpicks).2

end JobSteps

/-! ## What is written at the start -/

/-- What a job is given when it is created. -/
def State.terms (s : State) (jobId : ℕ) : Address × ℕ :=
  ((s.jobs jobId).contractAddress, (s.jobs jobId).auctionDeadline)

theorem terms_setJob (s : State) {job : AuditJob} (haddress : job.contractAddress = (s.jobs jobId).contractAddress)
    (hdeadline : job.auctionDeadline = (s.jobs jobId).auctionDeadline) : (s.setJob jobId job).terms = s.terms := by
  funext id
  unfold State.terms State.setJob
  dsimp only
  rcases eq_or_ne id jobId with rfl | hne
  · rw [Function.update_self, haddress, hdeadline]
  · rw [Function.update_of_ne hne]

theorem Quiet.terms (h : Quiet s s') : s'.terms = s.terms := by
  obtain ⟨log, sent, -, rfl⟩ := h
  rfl

theorem createAuditJob_terms {contractAddress : Address} {contractChain contractType : String}
    {initialRiskScore budgetAvailable lineCount auctionDurationSeconds id : ℕ}
    (h : createAuditJob env contractAddress contractChain contractType initialRiskScore budgetAvailable lineCount
      auctionDurationSeconds s = .ok s') (hid : id ≠ s.nextJobId) : s'.terms id = s.terms id := by
  simp only [createAuditJob, bind_eq_ok, pure_eq_ok] at h
  obtain ⟨_, -, _, -, _, -, _, -, _, -, _, -, _, -, _, -, n, -, d, -, rfl⟩ := h
  simp only [State.terms, State.emit, State.setJob, Function.update_of_ne hid]

theorem submitBid_terms {bidAmount collateralAmount estimatedCompletionTime : ℕ} {specialization : String}
    (h : submitBid this env jobId bidAmount collateralAmount estimatedCompletionTime specialization w = .ok w') :
    w'.state.terms = w.state.terms := by
  simp only [submitBid, transferGuard, Hts.transfer_eq_ok, bind_eq_ok, pure_eq_ok] at h
  obtain ⟨_, -, _, -, _, -, _, -, _, -, _, -, _, -, _, -, _, -, _, -, w₁, ⟨-, token, -, rfl⟩, n, -, rfl⟩ := h
  exact terms_setJob _ rfl rfl

theorem updateBid_terms {newBidAmount newCollateralAmount newEstimatedCompletionTime : ℕ}
    (h : updateBid this env jobId newBidAmount newCollateralAmount newEstimatedCompletionTime w = .ok w') :
    w'.state.terms = w.state.terms := by
  simp only [updateBid, bind_eq_ok, pure_eq_ok] at h
  obtain ⟨_, -, _, -, _, -, _, -, _, -, _, -, _, -, _, -, _, -, _, -, w₁, hsettle, _, -, rfl⟩ := h
  obtain ⟨token, -, rfl⟩ : ∃ token, True ∧ w₁ = { w with token := token } := by
    unfold settleCollateral at hsettle
    split_ifs at hsettle
    · unfold transferGuard at hsettle
      rw [Hts.transfer_eq_ok] at hsettle
      obtain ⟨-, token, -, rfl⟩ := hsettle
      exact ⟨token, trivial, rfl⟩
    · unfold transferGuard at hsettle
      rw [Hts.transfer_eq_ok] at hsettle
      obtain ⟨-, token, -, rfl⟩ := hsettle
      exact ⟨token, trivial, rfl⟩
    · rw [pure_eq_ok] at hsettle
      exact ⟨w.token, trivial, hsettle.symm⟩
  rfl

theorem selectWinners_terms {winningBidIndices : List ℕ}
    (h : selectWinners this env jobId winningBidIndices w = .ok w') : w'.state.terms = w.state.terms := by
  simp only [selectWinners, bind_eq_ok, pure_eq_ok, Prod.exists] at h
  obtain ⟨acc, -, _, -, w₁, hpay, _, -, bids, w₂, hrefund, rfl⟩ := h
  obtain ⟨token, -, rfl⟩ := pay_ok hpay
  obtain ⟨-, -, -, hquiet⟩ := refundBids_ok hrefund
  exact hquiet.terms.trans (terms_setJob _ rfl rfl)

theorem releaseEscrow_terms {agent : Address} {payment bonus validFindings falsePos falseNeg : ℕ}
    (h : releaseEscrow this env jobId agent payment bonus validFindings falsePos falseNeg w = .ok w') :
    w'.state.terms = w.state.terms := by
  simp only [releaseEscrow, bind_eq_ok, pure_eq_ok, Prod.exists] at h
  obtain ⟨_, -, _, -, _, -, i, bid, -, _, -, _, -, w₁, hpayout, _, -, w₂, hback, _, -, s₃, htry, rfl⟩ := h
  obtain ⟨token₁, -, rfl⟩ := pay_ok hpayout
  obtain ⟨token₂, -, rfl⟩ := pay_ok hback
  exact (tryRegistry_ok htry).terms.trans (terms_setJob _ rfl rfl)

theorem slashAgentBid_terms {agent : Address} {slashBasisPoints : ℕ}
    (h : slashAgentBid this env jobId agent slashBasisPoints w = .ok w') : w'.state.terms = w.state.terms := by
  simp only [slashAgentBid, bind_eq_ok, pure_eq_ok, Prod.exists] at h
  obtain ⟨_, -, _, -, _, -, _, -, i, bid, -, _, -, _, -, _, -, w₁, hslash, w₂, hback, s₃, htry, rfl⟩ := h
  obtain ⟨token₁, -, rfl⟩ := pay_ok hslash
  obtain ⟨token₂, -, rfl⟩ := pay_ok hback
  exact (tryRegistry_ok htry).terms

theorem completeJob_terms (h : completeJob env jobId s = .ok s') : s'.terms = s.terms := by
  simp only [completeJob, bind_eq_ok, pure_eq_ok] at h
  obtain ⟨_, -, _, -, _, -, _, -, _, -, _, -, rfl⟩ := h
  exact terms_setJob s rfl rfl

theorem cancelJob_terms (h : cancelJob this env jobId w = .ok w') : w'.state.terms = w.state.terms := by
  simp only [cancelJob, bind_eq_ok, pure_eq_ok, Prod.exists] at h
  obtain ⟨_, -, _, -, _, -, _, -, bids, w₁, hrefund, rfl⟩ := h
  obtain ⟨-, -, -, hquiet⟩ := refundBids_ok hrefund
  have hjobs : w₁.state.jobs = w.state.jobs := by
    obtain ⟨log, sent, -, hstate⟩ := hquiet
    rw [hstate]
  refine Eq.trans (terms_setJob (w₁.state.setBids jobId bids) ?_ ?_) hquiet.terms
  · simp [State.setBids, hjobs]
  · simp [State.setBids, hjobs]

theorem execAdmin_terms {c : AdminCall} (h : execAdmin env c s = .ok s') : s'.terms = s.terms := by
  simp only [execAdmin, bind_eq_ok] at h
  obtain ⟨_, -, h⟩ := h
  cases c with
  | setAgentRegistry agentRegistry =>
    simp only [bind_eq_ok, pure_eq_ok] at h
    obtain ⟨_, -, _, -, rfl⟩ := h
    rfl
  | renounceOwnership =>
    rw [pure_eq_ok] at h
    subst h
    rfl
  | _ =>
    simp only [bind_eq_ok, pure_eq_ok] at h
    obtain ⟨_, -, rfl⟩ := h
    rfl

theorem exec_terms {c : Call} (hb : (books w).Sound this) (h : exec this env c w = .ok w')
    (hposted : (w.state.jobs jobId).jobId ≠ 0) : w'.state.terms jobId = w.state.terms jobId := by
  unfold exec at h
  split_ifs at h
  cases c with
  | createAuditJob contractAddress contractChain contractType initialRiskScore budgetAvailable lineCount
      auctionDurationSeconds =>
    rw [onState_eq_ok] at h
    obtain ⟨s, h, rfl⟩ := h
    have hlt : jobId < w.state.nextJobId := hb.lt_of_posted (file_posted hposted)
    exact createAuditJob_terms h (Nat.ne_of_lt hlt)
  | submitBid => exact congrFun (submitBid_terms h) jobId
  | updateBid => exact congrFun (updateBid_terms h) jobId
  | selectWinners => exact congrFun (selectWinners_terms h) jobId
  | releaseEscrow => exact congrFun (releaseEscrow_terms h) jobId
  | slashAgentBid => exact congrFun (slashAgentBid_terms h) jobId
  | completeJob =>
    rw [onState_eq_ok] at h
    obtain ⟨s, h, rfl⟩ := h
    exact congrFun (completeJob_terms h) jobId
  | cancelJob => exact congrFun (cancelJob_terms h) jobId
  | pause | unpause =>
    simp only [onState_eq_ok, pause, unpause, bind_eq_ok, pure_eq_ok] at h
    obtain ⟨_, ⟨_, -, _, -, rfl⟩, rfl⟩ := h
    rfl
  | associateGuardToken =>
    simp only [onState_eq_ok, associateGuardToken, bind_eq_ok, pure_eq_ok] at h
    obtain ⟨_, ⟨_, -, rfl⟩, rfl⟩ := h
    rfl
  | admin c =>
    rw [onState_eq_ok] at h
    obtain ⟨s, h, rfl⟩ := h
    exact congrFun (execAdmin_terms h) jobId

theorem exec_cancelJob_status {id : UInt 256} (h : exec this env (.cancelJob id) w = .ok w') :
    (w'.state.jobs id).status = .cancelled := by
  unfold exec at h
  split_ifs at h
  obtain ⟨bids, hstep⟩ := cancelJob_ok h
  exact hstep.of_job.1.status_cancel

theorem exec_selectWinners_winners {id : UInt 256} {winningBidIndices : List (UInt 256)}
    (h : exec this env (.selectWinners id winningBidIndices) w = .ok w') :
    ∀ i ∈ winningBidIndices.map Fin.val, ∃ a ∈ (w'.state.jobs id).winningAgents,
      ((w.state.jobBids id).map AgentBid.agent)[i]? = some a := by
  unfold exec at h
  split_ifs at h
  obtain ⟨p, fee, hstep⟩ := selectWinners_ok h
  exact hstep.of_job.1.winners_select

/-! ## The ids of jobs -/

/-- The call creates a job. -/
def Call.creates : Call → Bool
  | .createAuditJob _ _ _ _ _ _ _ => true
  | _ => false

theorem Call.Does.creates {c : Call} {budget : ℕ} (h : c.Does (.post budget)) : c.creates = true := by
  cases c with
  | createAuditJob => rfl
  | admin c => cases c <;> simp [Call.Does] at h
  | _ => simp [Call.Does] at h

theorem BookStep.nextJobId {b b' : Books} {op : BookOp} (h : BookStep this b op b')
    (hop : ∀ budget, op ≠ .post budget) : b'.nextJobId = b.nextJobId := by
  cases h with
  | post => exact absurd rfl (hop _)
  | job => rfl
  | configure => rfl

theorem exec_nextJobId {c : Call} (hb : (books w).Sound this) (hs : env.sender ≠ this)
    (h : exec this env c w = .ok w') (hc : c.creates = false) : w'.state.nextJobId = w.state.nextJobId := by
  have hbooks : (books w').nextJobId = (books w).nextJobId := by
    rcases exec_ok hb hs h with ⟨op, hdoes, hstep⟩ | ⟨-, hsame⟩
    · refine hstep.nextJobId ?_
      rintro budget rfl
      rw [hdoes.creates] at hc
      cases hc
    · rw [hsame]
  exact hbooks

theorem exec_createAuditJob {contractAddress : Address} {contractChain contractType : String}
    {initialRiskScore budgetAvailable lineCount auctionDurationSeconds : UInt 256}
    (h : exec this env (.createAuditJob contractAddress contractChain contractType initialRiskScore budgetAvailable
      lineCount auctionDurationSeconds) w = .ok w') :
    w'.state.nextJobId = w.state.nextJobId + 1 ∧
      (w'.state.jobs w.state.nextJobId).jobId = w.state.nextJobId ∧
        (w'.state.jobs w.state.nextJobId).contractAddress = contractAddress := by
  unfold exec at h
  split_ifs at h
  rw [onState_eq_ok] at h
  obtain ⟨s, h, rfl⟩ := h
  simp only [createAuditJob, bind_eq_ok, checkedAdd_eq_ok, pure_eq_ok] at h
  obtain ⟨_, -, _, -, _, -, _, -, _, -, _, -, _, -, _, -, n, ⟨-, rfl⟩, d, -, rfl⟩ := h
  simp only [State.emit, State.setJob, Function.update_self, and_self]

/-! ## Steps and sequences of steps -/

/-- A step of the contract keeps what is known of jobs. -/
theorem Step.keeps_job {l : Label Env Call} (hw : (contract this).system.Reachable w)
    (hstep : (contract this).Step w l w') (jobId : ℕ) : Keeps w.state w'.state jobId := by
  have hterms : (w.state.jobs jobId).jobId ≠ 0 → w'.state.terms jobId = w.state.terms jobId := by
    intro hposted
    cases hstep with
    | elsewhere => rfl
    | call _ _ _ h =>
      have hsame := exec_terms (reachable_sound hw) h hposted
      exact hsame
  refine {
    posted := fun hposted => ?_
    contractAddress := fun hposted => congrArg Prod.fst (hterms hposted)
    deadline := fun hposted => congrArg Prod.snd (hterms hposted)
    bidders := ?_
    ended := fun hover => ?_
    settled := fun hended => ?_
    winners := fun a ha => ?_ }
  · have h : (w'.state.file jobId).posted = true :=
      Step.keeps (P := fun f => f.posted = true) (fun _ _ _ hp hjob => hjob.posted hp) hw hstep
        (file_posted hposted)
    exact of_decide_eq_true h
  · rcases Step.job hw hstep jobId with hsame | ⟨op, hjob⟩
    · have hbids : w'.state.jobBids jobId = w.state.jobBids jobId := congrArg JobFile.bids hsame
      rw [hbids]
    · exact hjob.bidders
  · exact Step.keeps (P := fun f => f.status ≠ .auctionOpen) (fun _ _ _ hp hjob => hjob.not_open hp) hw hstep
      hover
  · rcases Step.job hw hstep jobId with hsame | ⟨op, hjob⟩
    · exact congrArg JobFile.status hsame
    · exact hjob.settled hended
  · rcases Step.job hw hstep jobId with hsame | ⟨op, hjob⟩
    · have hwinners : (w'.state.jobs jobId).winningAgents = (w.state.jobs jobId).winningAgents :=
        congrArg JobFile.winners hsame
      rw [hwinners]
      exact ha
    · exact hjob.winners_subset (file_sound hw jobId) ha

theorem Step.nextJobId {l : Label Env Call} (hw : (contract this).system.Reachable w)
    (hstep : (contract this).Step w l w') (hl : ∀ env c, l = .call env c → c.creates = false) :
    w'.state.nextJobId = w.state.nextJobId := by
  cases hstep with
  | elsewhere => rfl
  | call hs _ _ h =>
    have hsame := exec_nextJobId (reachable_sound hw) hs h (hl _ _ rfl)
    exact hsame

/-- The contract gets from one state to another, by calls of anybody. -/
def Later (this : Address) (w w' : World State) : Prop :=
  ∃ ls, Path (contract this).Step w ls w'

theorem Later.keeps (hw : (contract this).system.Reachable w) (h : Later this w w') :
    (contract this).system.Reachable w' ∧ ∀ jobId, Keeps w.state w'.state jobId := by
  obtain ⟨ls, h⟩ := h
  induction h with
  | nil => exact ⟨hw, fun jobId => .refl _ _⟩
  | snoc _ hstep ih =>
    obtain ⟨hreachable, hkeeps⟩ := ih
    exact ⟨hreachable.step hstep, fun jobId => (hkeeps jobId).trans (Step.keeps_job hreachable hstep jobId)⟩

end AuditGuard.AuditAuction
