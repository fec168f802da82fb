import AuditGuard.AuditAuction.Effects

/-!
# AuditAuction: jobs and bids in every run

Every step of the contract is a step in the life of one job (`Step.job`), so that every job of a reachable
contract keeps the invariant of jobs. What the invariant says in terms of the storage is `JobInvariant`;
that the winners are those whose bids were once accepted is a fact about the run.
-/

namespace AuditGuard.AuditAuction

open Evm TransitionSystem

variable {this : Address} {env : Env} {w w' : World State} {jobId : ℕ}
  {ts : List (Transition (World State) (Label Env Call))}

/-! ## One step -/

theorem BookStep.file {b b' : Books} {op : BookOp} (h : BookStep this b op b') (id : ℕ) :
    b'.files id = b.files id ∨ ∃ op, JobStep this (b.files id) op (b'.files id) := by
  cases h with
  | configure => exact .inl rfl
  | @post budget f hjob =>
    rcases eq_or_ne id b.nextJobId with rfl | hne
    · refine .inr ⟨.post budget, ?_⟩
      dsimp only
      rw [Function.update_self]
      exact hjob
    · exact .inl (Function.update_of_ne hne _ _)
  | @job id' op f token₁ token hposted hjob hfee htake hpay =>
    rcases eq_or_ne id id' with rfl | hne
    · refine .inr ⟨op, ?_⟩
      dsimp only
      rw [Function.update_self]
      exact hjob
    · exact .inl (Function.update_of_ne hne _ _)

theorem Step.job {l : Label Env Call} (hw : (contract this).system.Reachable w)
    (hstep : (contract this).Step w l w') (jobId : ℕ) :
    w'.state.file jobId = w.state.file jobId ∨
      ∃ op, JobStep this (w.state.file jobId) op (w'.state.file jobId) := by
  cases hstep with
  | elsewhere _ _ => exact .inl rfl
  | call hs _ _ h =>
    rcases exec_ok (reachable_sound hw) hs h with ⟨op, -, hstep⟩ | ⟨-, hsame⟩
    · exact hstep.file jobId
    · exact .inl (congrFun (congrArg Books.files hsame) jobId)

theorem Step.keeps {P : JobFile → Prop} (hP : ∀ f op f', P f → JobStep this f op f' → P f')
    {l : Label Env Call} (hw : (contract this).system.Reachable w)
    (hstep : (contract this).Step w l w') (h : P (w.state.file jobId)) : P (w'.state.file jobId) := by
  rcases Step.job hw hstep jobId with hsame | ⟨op, hjob⟩
  · rw [hsame]
    exact h
  · exact hP _ op _ h hjob

theorem JobStep.not_open {f f' : JobFile} {op : JobOp} (hended : f.status ≠ .auctionOpen)
    (h : JobStep this f op f') : f'.status ≠ .auctionOpen := by
  cases h with
  | post => exact absurd rfl hended
  | bid _ hopen => exact absurd hopen hended
  | rebid _ hopen => exact absurd hopen hended
  | select | complete | cancel => simp
  | release | slash => exact hended

theorem JobStep.status_select {f f' : JobFile} {picks : List ℕ} {p : Picks} {fee : ℕ}
    (h : JobStep this f (.select picks p fee) f') : f'.status = .auditingInProgress := by
  cases h
  rfl

theorem JobStep.winners_subset {f f' : JobFile} {op : JobOp} (hsound : f.Sound this)
    (h : JobStep this f op f') {a : Address} (ha : a ∈ f.winners) : a ∈ f'.winners := by
  cases h with
  | post => exact ha
  | select hposted hopen =>
    rw [(hsound.early (.inl (hsound.isOpen hopen))).1] at ha
    cases ha
  | _ => exact ha

theorem JobStep.winners_new {f f' : JobFile} {op : JobOp} (hsound : f.Sound this)
    (h : JobStep this f op f') {a : Address} (ha : a ∈ f'.winners) :
    a ∈ f.winners ∨ ∃ b ∈ f'.bids, b.agent = a ∧ b.status = .accepted := by
  cases h with
  | post => exact .inl ha
  | @select _ _ p _ hposted hopen hpicks hbudget hfee =>
    have hopen := hsound.isOpen hopen
    have hp : p.Sound f := hpicks.induct (fun _ _ _ hp hstep => hp.step hstep) (hsound.picks hopen)
    obtain ⟨b, hb, rfl⟩ := hp.winners_bid a ha
    have haccepted : b.status = .accepted := by
      rcases hp.bid b hb with ⟨-, hnot⟩ | ⟨haccepted, -⟩
      · exact absurd ha hnot
      · exact haccepted
    have hkept : b.refund = b := by
      unfold AgentBid.refund
      rw [haccepted]
      rfl
    exact .inr ⟨b, List.mem_map.mpr ⟨b, hb, hkept⟩, rfl, haccepted⟩
  | _ => exact .inl ha

/-! ## A whole run -/

/-- The run visits the state, at its end or before. -/
def Visited (ts : List (Transition (World State) (Label Env Call))) (w v : World State) : Prop :=
  v = w ∨ ∃ tr ∈ ts, tr.src = v

/-- An agent's bid for the job is accepted. -/
def Accepted (jobId : ℕ) (a : Address) (w : World State) : Prop :=
  ∃ b ∈ w.state.jobBids jobId, b.agent = a ∧ b.status = .accepted

/-- The winners of a job were selected in the run. -/
def Selected (ts : List (Transition (World State) (Label Env Call))) (jobId : ℕ) : Prop :=
  ∃ tr ∈ ts, ∃ (env : Env) (id : UInt 256) (winningBidIndices : List (UInt 256)),
    tr.label = .call env (.selectWinners id winningBidIndices) ∧ (id : ℕ) = jobId

theorem visited_snoc {l : Label Env Call} {v : World State} :
    Visited (ts ++ [⟨w, l, w'⟩]) w' v ↔ v = w' ∨ Visited ts w v := by
  unfold Visited
  simp only [List.mem_append, List.mem_singleton, or_and_right, exists_or, exists_eq_left]
  rw [@eq_comm _ w v, or_comm (b := v = w)]

theorem file_sound (hw : (contract this).system.Reachable w) (jobId : ℕ) :
    (w.state.file jobId).Sound this := (reachable_sound hw).files jobId

theorem mem_winners_iff (hr : (contract this).system.Run ts w) (a : Address) :
    a ∈ (w.state.jobs jobId).winningAgents ↔ ∃ v, Visited ts w v ∧ Accepted jobId a v := by
  induction hr with
  | init hfresh =>
    obtain ⟨deployer, guardToken, agentRegistry, orchestrator, treasury, hstate⟩ :=
      fresh_state_eq (show (contract this).fresh _ from hfresh)
    refine iff_of_false ?_ ?_
    · rw [hstate]
      exact List.not_mem_nil
    · rintro ⟨v, rfl | ⟨tr, htr, -⟩, b, hb, -⟩
      · rw [hstate] at hb
        cases hb
      · cases htr
  | @step ts w w' l hr hstep ih =>
    have hsound := file_sound hr.reachable jobId
    have hnext := file_sound (hr.reachable.step hstep) jobId
    simp only [visited_snoc, or_and_right, exists_or, exists_eq_left]
    rw [← ih]
    constructor
    · intro ha
      -- A winner of the new state was one before, or the operation on the job has just accepted its bid.
      rcases Step.job hr.reachable hstep jobId with hsame | ⟨op, hjob⟩
      · have hwinners : (w'.state.jobs jobId).winningAgents = (w.state.jobs jobId).winningAgents :=
          congrArg JobFile.winners hsame
        exact .inr (hwinners ▸ ha)
      · exact (hjob.winners_new hsound ha).symm
    · rintro (⟨b, hb, rfl, haccepted⟩ | ha)
      · exact (hnext.bid b hb).winner_of_accepted haccepted
      · -- No operation takes a winner away.
        rcases Step.job hr.reachable hstep jobId with hsame | ⟨op, hjob⟩
        · have hwinners : (w'.state.jobs jobId).winningAgents = (w.state.jobs jobId).winningAgents :=
            congrArg JobFile.winners hsame
          rw [hwinners]
          exact ha
        · exact hjob.winners_subset hsound ha

theorem exec_selectWinners_status {id : UInt 256} {winningBidIndices : List (UInt 256)}
    (h : exec this env (.selectWinners id winningBidIndices) w = .ok w') :
    (w'.state.jobs id).status = .auditingInProgress := by
  unfold exec at h
  split_ifs at h
  obtain ⟨p, fee, hstep⟩ := selectWinners_ok h
  exact hstep.of_job.1.status_select

theorem status_of_selected (hr : (contract this).system.Run ts w) (hselected : Selected ts jobId) :
    (w.state.jobs jobId).status ≠ .auctionOpen := by
  induction hr with
  | init _ =>
    obtain ⟨tr, htr, -⟩ := hselected
    cases htr
  | @step ts w w' l hr hstep ih =>
    obtain ⟨tr, htr, env, id, idxs, hlabel, hid⟩ := hselected
    rcases List.mem_append.mp htr with htr | htr
    · exact Step.keeps (P := fun f => f.status ≠ .auctionOpen)
        (fun _ _ _ hended hjob => hjob.not_open hended) hr.reachable hstep
        (ih ⟨tr, htr, env, id, idxs, hlabel, hid⟩)
    · rw [List.mem_singleton] at htr
      subst htr hlabel hid
      cases hstep with
      | call _ _ _ h =>
        intro hopen
        have hstatus := (exec_selectWinners_status h).symm.trans hopen
        cases hstatus

/-! ## The invariant in terms of the storage -/

/-- What holds of a job and its bids after a run. -/
structure JobInvariant (ts : List (Transition (World State) (Label Env Call))) (w : World State)
    (jobId : ℕ) : Prop where
  bidders_nodup : ((w.state.jobBids jobId).map AgentBid.agent).Nodup
  hasAgentBid_iff : ∀ a, w.state.hasAgentBid jobId a = true ↔
    ∃ b ∈ w.state.jobBids jobId, b.agent = a
  findBidIndex : ∀ i b, (w.state.jobBids jobId)[i]? = some b →
    findBidIndex (w.state.jobBids jobId) b.agent = (true, i)
  findBidIndex_none : ∀ a, w.state.hasAgentBid jobId a = false →
    AuditAuction.findBidIndex (w.state.jobBids jobId) a = (false, 0)
  bidCount : (w.state.jobs jobId).bidCount = (w.state.jobBids jobId).length
  openBids : (w.state.jobs jobId).status = .auctionOpen → ∀ b ∈ w.state.jobBids jobId,
    b.status = .pending ∧ MIN_BID_COLLATERAL ≤ b.collateralLocked ∧
      b.bidAmount ≤ (w.state.jobs jobId).budgetAvailable
  selectedBids : Selected ts jobId → ∀ b ∈ w.state.jobBids jobId, b.status ≠ .pending
  winners_nodup : (w.state.jobs jobId).winningAgents.Nodup
  winners_iff : ∀ a, a ∈ (w.state.jobs jobId).winningAgents ↔
    ∃ v, Visited ts w v ∧ Accepted jobId a v
  paidWinnerCount : w.state.paidWinnerCount jobId =
    (Finset.univ.filter fun a => w.state.isWinnerPaid jobId a = true).card
  paidWinners : ∀ a, w.state.isWinnerPaid jobId a = true →
    a ∈ (w.state.jobs jobId).winningAgents ∧
      ∀ b ∈ w.state.jobBids jobId, b.agent = a → b.collateralLocked = 0
  conserved : w.state.payouts jobId + w.state.fees jobId + (w.state.jobs jobId).totalEscrowedAmount =
    winningAmount (w.state.jobs jobId).winningAgents ((w.state.jobBids jobId).map AgentBid.offer)
  within : winningAmount (w.state.jobs jobId).winningAgents
    ((w.state.jobBids jobId).map AgentBid.offer) ≤ (w.state.jobs jobId).budgetAvailable
  ended : (w.state.jobs jobId).status = .completed ∨ (w.state.jobs jobId).status = .cancelled →
    (∀ b ∈ w.state.jobBids jobId, b.collateralLocked = 0) ∧
      (w.state.jobs jobId).totalEscrowedAmount = 0

theorem findBidIndex_of_nodup {bids : List AgentBid} (hnodup : (bids.map AgentBid.agent).Nodup)
    {i : ℕ} {b : AgentBid} (hi : bids[i]? = some b) : findBidIndex bids b.agent = (true, i) := by
  rcases hfind : findBidIndex bids b.agent with ⟨found, j⟩
  cases found with
  | true =>
    obtain ⟨b', hj, -, hagent⟩ := findBidIndex_ok hfind rfl
    rw [Keyed.index_unique hnodup hj hi hagent]
  | false =>
    unfold findBidIndex at hfind
    split at hfind
    · cases hfind
    · rename_i hnone
      rw [List.findIdx?_eq_none_iff] at hnone
      have hnot := hnone b (List.mem_of_getElem? hi)
      simp at hnot

theorem findBidIndex_of_not_bidder {bids : List AgentBid} {a : Address}
    (h : ¬ ∃ b ∈ bids, b.agent = a) : findBidIndex bids a = (false, 0) := by
  have hnone : bids.findIdx? (·.agent = a) = none := by
    rw [List.findIdx?_eq_none_iff]
    intro b hb
    exact decide_eq_false fun hagent => h ⟨b, hb, hagent⟩
  unfold findBidIndex
  rw [hnone]

/-- In every reachable state, every job and its bids are as the state machine of jobs says, and the list of
active jobs is exact. -/
theorem job_lifecycle (hr : (contract this).system.Run ts w) :
    (∀ jobId, JobInvariant ts w jobId) ∧ w.state.activeJobIds.Nodup ∧
      ∀ jobId, jobId ∈ w.state.activeJobIds ↔ (w.state.jobs jobId).jobId ≠ 0 ∧
        (w.state.jobs jobId).status ≠ .completed ∧ (w.state.jobs jobId).status ≠ .cancelled := by
  have hbooks := reachable_sound hr.reachable
  refine ⟨fun jobId => ?_, hbooks.active_nodup, fun jobId => ?_⟩
  · have h := file_sound hr.reachable jobId
    constructor
    case bidders_nodup => exact h.nodup
    case hasAgentBid_iff => exact h.hasBid_iff
    case findBidIndex => exact fun i b hi => findBidIndex_of_nodup h.nodup hi
    -- Without a bid of the agent, the search falls through to index zero.
    case findBidIndex_none =>
      intro a hnone
      refine findBidIndex_of_not_bidder fun hbidder => ?_
      have hsome : w.state.hasAgentBid jobId a = true := (h.hasBid_iff a).mpr hbidder
      rw [hnone] at hsome
      cases hsome
    case bidCount => exact h.bidCount
    case openBids =>
      intro hopen b hb
      have hbid := h.bid b hb
      have hpending := hbid.pending_of_open hopen
      exact ⟨hpending, hbid.collateral_of_pending hpending, hbid.amount_of_pending hpending⟩
    -- A pending bid is of an open auction, so a selection cannot have happened yet.
    case selectedBids =>
      intro hselected b hb hpending
      exact status_of_selected hr hselected ((h.bid b hb).open_of_pending hpending)
    case winners_nodup => exact h.winners_nodup
    case winners_iff => exact mem_winners_iff hr
    case paidWinnerCount => exact h.paidCount
    case paidWinners => exact h.paid
    case conserved => exact h.conserved
    case within => exact h.within
    case ended => exact h.ended
  · refine (hbooks.active_iff jobId).trans ?_
    unfold JobFile.Active
    exact and_congr_left' decide_eq_true_iff

/-- Two jobs, of which the first is completed. -/
theorem job_lifecycle_two_jobs : ∃ ts w, (contract 1).system.Run ts w ∧
    ((∀ jobId, JobInvariant ts w jobId) ∧ w.state.activeJobIds.Nodup ∧
      ∀ jobId, jobId ∈ w.state.activeJobIds ↔ (w.state.jobs jobId).jobId ≠ 0 ∧
        (w.state.jobs jobId).status ≠ .completed ∧ (w.state.jobs jobId).status ≠ .cancelled) ∧
    (w.state.jobs 1).status = .completed ∧ (w.state.jobs 1).winningAgents = [2] ∧
    w.state.activeJobIds = [2] := by
  obtain ⟨ts, w, hcalls, hr, -⟩ := sample_run (twoJobsCalls ++ [(sampleEnv 5 63, .completeJob 1)])
    (by decide) rfl
  have hstatus := read_ok hcalls (fun w => (w.state.jobs 1).status) (b := .completed) rfl
  have hwinners := read_ok hcalls (fun w => (w.state.jobs 1).winningAgents) (b := [2]) rfl
  have hactive := read_ok hcalls (fun w => w.state.activeJobIds) (b := [2]) rfl
  exact ⟨ts, w, hr, job_lifecycle hr, hstatus, hwinners, hactive⟩

end AuditGuard.AuditAuction
