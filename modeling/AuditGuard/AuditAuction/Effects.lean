import AuditGuard.AuditAuction.Books
import AuditGuard.AuditAuction.System

/-!
# AuditAuction: what a call does

The storage as books, and the operation that each call makes on them (`exec_ok`). What the winners got and
what the platform took is read off the events.
-/

namespace AuditGuard.AuditAuction

open Evm TransitionSystem

/-! ## The storage as books -/

/-- What an event says was paid to a winner of the job, besides collateral. -/
def Event.payout (jobId : ℕ) : Event → ℕ
  | .escrowReleased id _ payment bonus _ => if id = jobId then payment + bonus else 0
  | _ => 0

/-- What an event says was taken as the fee of the job. -/
def Event.fee (jobId : ℕ) : Event → ℕ
  | .winnersSelected id _ _ platformFee => if id = jobId then platformFee else 0
  | _ => 0

namespace State

/-- What the winners of a job got so far, besides collateral. -/
def payouts (s : State) (jobId : ℕ) : ℕ := (s.log.map (Event.payout jobId)).sum

/-- The platform fee of a job. -/
def fees (s : State) (jobId : ℕ) : ℕ := (s.log.map (Event.fee jobId)).sum

/-- The file that the storage keeps of a job. -/
def file (s : State) (jobId : ℕ) : JobFile where
  posted := decide ((s.jobs jobId).jobId ≠ 0)
  status := (s.jobs jobId).status
  budget := (s.jobs jobId).budgetAvailable
  winners := (s.jobs jobId).winningAgents
  escrow := (s.jobs jobId).totalEscrowedAmount
  bidCount := (s.jobs jobId).bidCount
  bids := s.jobBids jobId
  hasBid := s.hasAgentBid jobId
  paid := s.isWinnerPaid jobId
  paidCount := s.paidWinnerCount jobId
  payouts := s.payouts jobId
  fee := s.fees jobId

/-- The books that the storage keeps, with the ledger `token`. -/
def books (s : State) (token : TokenLedger) : Books where
  token := token
  nextJobId := s.nextJobId
  files := s.file
  active := s.activeJobIds
  treasury := s.treasury
  feePercent := s.platformFeePercent

end State

/-- The books of the contract. -/
def books (w : World State) : Books := w.state.books w.token

/-- An event without payments. -/
def Event.Quiet (e : Event) : Prop := ∀ jobId, e.payout jobId = 0 ∧ e.fee jobId = 0

/-- Only the logs of the storage grew, by events without payments. -/
def Quiet (s s' : State) : Prop :=
  ∃ log sent, (∀ e ∈ log, Event.Quiet e) ∧ s' = { s with log := s.log ++ log, sent := s.sent ++ sent }

theorem bookStep_of_books {this : Address} {b₀ b b' : Books} {op : BookOp} (hb : b' = b)
    (h : BookStep this b₀ op b) : BookStep this b₀ op b' := by
  rwa [hb]

variable {this : Address} {env : Env} {s s' : State} {w w' : World State} {jobId : ℕ}

theorem payouts_append_quiet {log : List Event} (h : ∀ e ∈ log, Event.Quiet e) (jobId : ℕ) :
    (log.map (Event.payout jobId)).sum = 0 ∧ (log.map (Event.fee jobId)).sum = 0 := by
  constructor
  · refine List.sum_eq_zero fun x hx => ?_
    obtain ⟨e, he, rfl⟩ := List.mem_map.mp hx
    exact (h e he jobId).1
  · refine List.sum_eq_zero fun x hx => ?_
    obtain ⟨e, he, rfl⟩ := List.mem_map.mp hx
    exact (h e he jobId).2

theorem Quiet.refl (s : State) : Quiet s s := ⟨[], [], by simp, by simp⟩

theorem Quiet.emit (s : State) {e : Event} (he : e.Quiet) : Quiet s (s.emit e) :=
  ⟨[e], [], by simpa using he, by simp [State.emit]⟩

theorem Quiet.trans {s₁ s₂ s₃ : State} (h : Quiet s₁ s₂) (h' : Quiet s₂ s₃) : Quiet s₁ s₃ := by
  obtain ⟨log, sent, hlog, rfl⟩ := h
  obtain ⟨log', sent', hlog', rfl⟩ := h'
  refine ⟨log ++ log', sent ++ sent', ?_, by simp [List.append_assoc]⟩
  intro e he
  rcases List.mem_append.mp he with he | he
  · exact hlog e he
  · exact hlog' e he

theorem Quiet.books (h : Quiet s s') : s'.books = s.books := by
  obtain ⟨log, sent, hlog, rfl⟩ := h
  have hpayouts := fun jobId => (payouts_append_quiet hlog jobId).1
  have hfees := fun jobId => (payouts_append_quiet hlog jobId).2
  funext token
  unfold State.books State.file State.payouts State.fees
  simp only [List.map_append, List.sum_append, hpayouts, hfees, Nat.add_zero]

/-! ## Helper functions -/

theorem findBidIndex_ok {bids : List AgentBid} {agent : Address} {found : Bool} {index : ℕ}
    (h : findBidIndex bids agent = (found, index)) (hfound : found = true) :
    ∃ bid, bids[index]? = some bid ∧ bids.getD index AgentBid.zero = bid ∧ bid.agent = agent := by
  unfold findBidIndex at h
  split at h
  · rename_i i hfind
    obtain ⟨rfl, rfl⟩ := Prod.mk.inj h
    rw [List.findIdx?_eq_some_iff_getElem] at hfind
    obtain ⟨hlt, hagent, -⟩ := hfind
    refine ⟨bids[i], List.getElem?_eq_getElem hlt, ?_, by simpa using hagent⟩
    rw [List.getD_eq_getElem?_getD, List.getElem?_eq_getElem hlt, Option.getD_some]
  · obtain ⟨rfl, -⟩ := Prod.mk.inj h
    cases hfound

theorem pay_ok {recipient : Address} {amount : ℕ} (h : pay this env recipient amount w = .ok w') :
    ∃ token, w.token.transfer this recipient amount = some token ∧ w' = { w with token := token } := by
  unfold pay at h
  split_ifs at h with hpos
  · unfold transferGuard at h
    rw [Hts.transfer_eq_ok] at h
    obtain ⟨-, token, hpay, rfl⟩ := h
    exact ⟨token, hpay, rfl⟩
  · rw [pure_eq_ok] at h
    subst h
    obtain rfl : amount = 0 := by omega
    exact ⟨w.token, Ledger.transfer_zero _ _ _, rfl⟩

theorem tryRegistry_ok {agent : Address} {c : RegistryCall}
    (h : tryRegistry env jobId agent c s = .ok s') : Quiet s s' := by
  simp only [tryRegistry, bind_eq_ok] at h
  obtain ⟨_, -, h⟩ := h
  split at h
  · rw [pure_eq_ok] at h
    subst h
    exact ⟨[], [c], by simp, by simp [State.send]⟩
  · rw [pure_eq_ok] at h
    subst h
    refine ⟨[_], [c], ?_, rfl⟩
    intro e he
    rw [List.mem_singleton] at he
    subst he
    exact fun _ => ⟨rfl, rfl⟩

theorem refundBid_ok {bid bid' : AgentBid} (h : refundBid this env jobId bid w = .ok (bid', w')) :
    bid' = bid.refund ∧ w.token.payAll this (refunds [bid]) = some w'.token ∧
      w'.now = w.now ∧ Quiet w.state w'.state := by
  simp only [refundBid] at h
  unfold AgentBid.refund refunds
  by_cases hpending : bid.status = .pending
  · rw [if_pos hpending] at h ⊢
    rw [List.filter_cons_of_pos (by simpa using hpending)]
    simp only [List.filter_nil, List.map_cons, List.map_nil, Ledger.payAll_cons,
      Option.bind_eq_some_iff, Ledger.payAll_nil, Option.some.injEq, exists_eq_right]
    split_ifs at h with hpos
    · simp only [transferGuard, Hts.transfer_eq_ok, bind_eq_ok, pure_eq_ok, Prod.mk.injEq] at h
      obtain ⟨_, ⟨-, token, hpay, rfl⟩, rfl, rfl⟩ := h
      exact ⟨rfl, hpay, rfl, .emit _ fun _ => ⟨rfl, rfl⟩⟩
    · simp only [pure_eq_ok, Prod.mk.injEq] at h
      obtain ⟨rfl, rfl⟩ := h
      have hzero : bid.collateralLocked = 0 := by omega
      rw [hzero]
      exact ⟨rfl, Ledger.transfer_zero _ _ _, rfl, .refl _⟩
  · rw [if_neg hpending] at h ⊢
    rw [List.filter_cons_of_neg (by simpa using hpending)]
    simp only [pure_eq_ok, Prod.mk.injEq] at h
    obtain ⟨rfl, rfl⟩ := h
    exact ⟨rfl, rfl, rfl, .refl _⟩

theorem refundBids_ok {bids bids' : List AgentBid}
    (h : refundBids this env jobId bids w = .ok (bids', w')) :
    bids' = bids.map AgentBid.refund ∧ w.token.payAll this (refunds bids) = some w'.token ∧
      w'.now = w.now ∧ Quiet w.state w'.state := by
  induction bids generalizing bids' w with
  | nil =>
    simp only [refundBids, pure_eq_ok, Prod.mk.injEq] at h
    obtain ⟨rfl, rfl⟩ := h
    exact ⟨rfl, rfl, rfl, .refl _⟩
  | cons bid bids ih =>
    simp only [refundBids, bind_eq_ok, pure_eq_ok, Prod.exists, Prod.mk.injEq] at h
    obtain ⟨bid₁, w₁, hfirst, bids₁, w₂, hrest, rfl, rfl⟩ := h
    obtain ⟨rfl, hpay, hnow, hquiet⟩ := refundBid_ok hfirst
    obtain ⟨rfl, hpayRest, hnowRest, hquietRest⟩ := ih hrest
    have hsplit : refunds (bid :: bids) = refunds [bid] ++ refunds bids := by
      unfold refunds
      rw [← List.map_append, ← List.filter_append]
      rfl
    refine ⟨rfl, ?_, hnowRest.trans hnow, hquiet.trans hquietRest⟩
    rw [hsplit, Ledger.payAll_append, hpay, Option.bind_some, hpayRest]

theorem selectLoop_ok {picks : List ℕ} {acc acc' : Selection}
    (h : picks.foldlM selectBid acc = .ok acc') :
    Path PickStep ⟨acc.bids, acc.winningAgents, acc.totalWinningBidAmount⟩ picks
      ⟨acc'.bids, acc'.winningAgents, acc'.totalWinningBidAmount⟩ := by
  induction picks generalizing acc with
  | nil =>
    rw [List.foldlM_nil, pure_eq_ok] at h
    subst h
    exact .nil
  | cons i picks ih =>
    rw [List.foldlM_cons, bind_eq_ok] at h
    obtain ⟨acc₁, hfirst, hrest⟩ := h
    simp only [selectBid, bind_eq_ok, orRevert_eq_ok, require_eq_ok, checkedAdd_eq_ok,
      pure_eq_ok] at hfirst
    obtain ⟨bid, hi, _, -, _, hpending, _, ⟨-, rfl⟩, rfl⟩ := hfirst
    have hstep : PickStep ⟨acc.bids, acc.winningAgents, acc.totalWinningBidAmount⟩ i _ :=
      .accept hi hpending
    exact (Path.single hstep).append (ih hrest)

/-! ## What is written, in the books -/

theorem payouts_emit (s : State) (e : Event) (jobId : ℕ) :
    (s.emit e).payouts jobId = s.payouts jobId + e.payout jobId := by
  simp [State.payouts, State.emit]

theorem fees_emit (s : State) (e : Event) (jobId : ℕ) :
    (s.emit e).fees jobId = s.fees jobId + e.fee jobId := by
  simp [State.fees, State.emit]

/-- Changes the file of a job. -/
def Books.modify (b : Books) (id : ℕ) (g : JobFile → JobFile) : Books :=
  { b with files := Function.update b.files id (g (b.files id)) }

theorem Books.modify_modify (b : Books) (id : ℕ) (g g' : JobFile → JobFile) :
    (b.modify id g).modify id g' = b.modify id fun f => g' (g f) := by
  simp only [modify, Function.update_self, Function.update_idem]

theorem books_of_file {g : JobFile → JobFile} (token : TokenLedger)
    (hothers : ∀ i, i ≠ jobId → s'.file i = s.file i) (hfile : s'.file jobId = g (s.file jobId))
    (hrest : s'.books token = { s.books token with files := s'.file }) :
    s'.books token = (s.books token).modify jobId g := by
  have hall : s'.file = Function.update s.file jobId (g (s.file jobId)) := by
    funext i
    rcases eq_or_ne i jobId with rfl | hne
    · rw [Function.update_self, hfile]
    · rw [Function.update_of_ne hne, hothers i hne]
  rw [hrest, hall]
  rfl

theorem books_setJob (s : State) (jobId : ℕ) (job : AuditJob) (token : TokenLedger) :
    (s.setJob jobId job).books token = (s.books token).modify jobId fun f => { f with
      posted := decide (job.jobId ≠ 0)
      status := job.status
      budget := job.budgetAvailable
      winners := job.winningAgents
      escrow := job.totalEscrowedAmount
      bidCount := job.bidCount } := by
  refine books_of_file token (fun i hi => ?_) ?_ rfl
  · simp only [State.file, State.setJob, Function.update_of_ne hi]
    rfl
  · simp only [State.file, State.setJob, Function.update_self]
    rfl

theorem books_setBids (s : State) (jobId : ℕ) (bids : List AgentBid) (token : TokenLedger) :
    (s.setBids jobId bids).books token =
      (s.books token).modify jobId fun f => { f with bids := bids } := by
  refine books_of_file token (fun i hi => ?_) ?_ rfl
  · simp only [State.file, State.setBids, Function.update_of_ne hi]
    rfl
  · simp only [State.file, State.setBids, Function.update_self]
    rfl

theorem books_setHasBid (s : State) (jobId : ℕ) (hasBid : Address → Bool) (token : TokenLedger) :
    { s with hasAgentBid := Function.update s.hasAgentBid jobId hasBid }.books token =
      (s.books token).modify jobId fun f => { f with hasBid := hasBid } := by
  refine books_of_file token (fun i hi => ?_) ?_ rfl
  · simp only [State.file, Function.update_of_ne hi]
    rfl
  · simp only [State.file, Function.update_self]
    rfl

theorem books_setPaid (s : State) (jobId : ℕ) (paid : Address → Bool) (count : ℕ)
    (token : TokenLedger) :
    { s with
      isWinnerPaid := Function.update s.isWinnerPaid jobId paid
      paidWinnerCount := Function.update s.paidWinnerCount jobId count }.books token =
      (s.books token).modify jobId fun f => { f with paid := paid, paidCount := count } := by
  refine books_of_file token (fun i hi => ?_) ?_ rfl
  · simp only [State.file, Function.update_of_ne hi]
    rfl
  · simp only [State.file, Function.update_self]
    rfl

theorem books_removeActiveJob (s : State) (jobId : ℕ) (token : TokenLedger) :
    (removeActiveJob jobId s).books token = { s.books token with
      active := SwapPop.remove jobId (s.books token).active } := rfl

theorem books_emit_winnersSelected (s : State) (jobId : ℕ) (winners : List Address)
    (totalEscrowed platformFee : ℕ) (token : TokenLedger) :
    (s.emit (.winnersSelected jobId winners totalEscrowed platformFee)).books token =
      (s.books token).modify jobId fun f => { f with fee := f.fee + platformFee } := by
  refine books_of_file token (fun i hi => ?_) ?_ rfl
  · simp only [State.file, payouts_emit, fees_emit, Event.payout, Event.fee, if_neg hi.symm,
      Nat.add_zero]
    rfl
  · simp only [State.file, payouts_emit, fees_emit, Event.payout, Event.fee, if_true, Nat.add_zero]
    rfl

theorem books_emit_escrowReleased (s : State) (jobId : ℕ) (agent : Address)
    (payment bonus collateralReturned : ℕ) (token : TokenLedger) :
    (s.emit (.escrowReleased jobId agent payment bonus collateralReturned)).books token =
      (s.books token).modify jobId fun f => { f with payouts := f.payouts + (payment + bonus) } := by
  refine books_of_file token (fun i hi => ?_) ?_ rfl
  · simp only [State.file, payouts_emit, fees_emit, Event.payout, Event.fee, if_neg hi.symm,
      Nat.add_zero]
    rfl
  · simp only [State.file, payouts_emit, fees_emit, Event.payout, Event.fee, if_true, Nat.add_zero]
    rfl

theorem books_emit {e : Event} (he : e.Quiet) (s : State) (token : TokenLedger) :
    (s.emit e).books token = s.books token := by
  rw [(Quiet.emit s he).books]

/-! ## The calls on a job -/

theorem file_posted (h : (s.jobs jobId).jobId ≠ 0) : (s.file jobId).posted = true := decide_eq_true h

theorem createAuditJob_ok {contractAddress : Address} {contractChain contractType : String}
    {initialRiskScore budgetAvailable lineCount auctionDurationSeconds : ℕ} (token : TokenLedger)
    (hb : (s.books token).Sound this)
    (h : createAuditJob env contractAddress contractChain contractType initialRiskScore budgetAvailable
      lineCount auctionDurationSeconds s = .ok s') :
    BookStep this (s.books token) (.post budgetAvailable) (s'.books token) := by
  simp only [createAuditJob, bind_eq_ok, checkedAdd_eq_ok, pure_eq_ok] at h
  obtain ⟨_, -, _, -, _, -, _, -, _, -, _, -, _, -, _, -, _, ⟨-, rfl⟩, deadline, -, rfl⟩ := h
  have hblank : s.file s.nextJobId = JobFile.blank := hb.unused s.nextJobId le_rfl
  have hfirst : s.nextJobId ≠ 0 := hb.first.ne'
  have hpost : JobStep this (s.file s.nextJobId) (.post budgetAvailable)
      { JobFile.blank with posted := true, budget := budgetAvailable } := by
    rw [hblank]
    exact .post
  have hstep : BookStep this (s.books token) (.post budgetAvailable) _ := .post hpost
  refine bookStep_of_books ?_ hstep
  rw [books_emit fun _ => ⟨rfl, rfl⟩]
  -- The next id and the list of active jobs are written before and after the job.
  change Books.mk token (s.nextJobId + 1) (State.books (State.setJob _ _ _) token).files _ _ _ = _
  rw [books_setJob]
  change Books.mk token (s.nextJobId + 1) (Function.update s.file s.nextJobId
    { s.file s.nextJobId with
      posted := decide (s.nextJobId ≠ 0)
      status := .auctionOpen
      budget := budgetAvailable }) _ _ _ = _
  rw [hblank, decide_eq_true hfirst]
  rfl

theorem submitBid_ok {bidAmount collateralAmount estimatedCompletionTime : ℕ} {specialization : String}
    (hs : env.sender ≠ this)
    (h : submitBid this env jobId bidAmount collateralAmount estimatedCompletionTime specialization w =
      .ok w') :
    ∃ b : AgentBid, BookStep this (books w) (.job jobId (.bid b)) (books w') := by
  simp only [submitBid, transferGuard, Hts.transfer_eq_ok, bind_eq_ok, require_eq_ok,
    checkedAdd_eq_ok, pure_eq_ok] at h
  obtain ⟨_, -, _, hexists, _, hopen, _, -, _, hnone, _, hmin, _, hbudget, _, -, _, -, _, -, _,
    ⟨-, token, hpay, rfl⟩, _, ⟨-, rfl⟩, rfl⟩ := h
  have hposted := file_posted hexists
  have hjob : JobStep this (w.state.file jobId) (.bid ⟨env.sender, jobId, bidAmount, collateralAmount,
      env.getAgentReputation env.sender, estimatedCompletionTime, specialization, .pending,
      env.timestamp⟩) _ := .bid hposted hopen hs hnone rfl hmin hbudget
  have hstep : BookStep this (books w) (.job jobId (.bid _)) _ :=
    .job hposted hjob (by rintro _ _ _ ⟨⟩) hpay rfl
  refine ⟨_, bookStep_of_books ?_ hstep⟩
  unfold books
  rw [books_emit fun _ => ⟨rfl, rfl⟩, books_setJob, books_setHasBid, books_setBids,
    Books.modify_modify, Books.modify_modify]
  rfl

theorem settleCollateral_ok {oldCollateral newCollateral : ℕ}
    (h : settleCollateral this env oldCollateral newCollateral w = .ok w') :
    ∃ token₁ token, w.token.transfer env.sender this (newCollateral - oldCollateral) = some token₁ ∧
      token₁.transfer this env.sender (oldCollateral - newCollateral) = some token ∧
      w' = { w with token := token } := by
  unfold settleCollateral at h
  split_ifs at h with hmore hless
  · simp only [transferGuard, Hts.transfer_eq_ok] at h
    obtain ⟨-, token, hpay, rfl⟩ := h
    rw [Nat.sub_eq_zero_of_le hmore.le]
    exact ⟨token, token, hpay, Ledger.transfer_zero _ _ _, rfl⟩
  · simp only [transferGuard, Hts.transfer_eq_ok] at h
    obtain ⟨-, token, hpay, rfl⟩ := h
    rw [Nat.sub_eq_zero_of_le hless.le]
    exact ⟨w.token, token, Ledger.transfer_zero _ _ _, hpay, rfl⟩
  · rw [pure_eq_ok] at h
    obtain rfl : oldCollateral = newCollateral := by omega
    rw [Nat.sub_self]
    exact ⟨w.token, w.token, Ledger.transfer_zero _ _ _, Ledger.transfer_zero _ _ _, h.symm⟩

theorem updateBid_ok {newBidAmount newCollateralAmount newEstimatedCompletionTime : ℕ}
    (h : updateBid this env jobId newBidAmount newCollateralAmount newEstimatedCompletionTime w =
      .ok w') :
    ∃ old b : AgentBid, BookStep this (books w) (.job jobId (.rebid old b)) (books w') := by
  simp only [updateBid, bind_eq_ok, require_eq_ok, pure_eq_ok] at h
  obtain ⟨_, -, _, hexists, _, hopen, _, -, _, -, _, hmin, _, hbudget, h⟩ := h
  -- The bid that is found is the sender's own.
  rcases hfind : findBidIndex (w.state.jobBids jobId) env.sender with ⟨found, i⟩
  simp only [hfind] at h
  obtain ⟨_, hfound, _, hpending, _, -, _, hsettle, _, -, rfl⟩ := h
  obtain ⟨old, hi, hget, hagent⟩ := findBidIndex_ok hfind hfound
  rw [hget] at hpending hsettle ⊢
  obtain ⟨token₁, token, htake, hpay, rfl⟩ := settleCollateral_ok hsettle
  have hposted := file_posted hexists
  have hjob : JobStep this (w.state.file jobId) (.rebid old { old with
      bidAmount := newBidAmount
      collateralLocked := newCollateralAmount
      reputationAtBid := env.getAgentReputation env.sender
      estimatedCompletionTime := if 0 < newEstimatedCompletionTime then newEstimatedCompletionTime
        else old.estimatedCompletionTime
      timestamp := env.timestamp }) _ := .rebid hposted hopen hi rfl hpending hmin hbudget
  rw [← hagent] at htake hpay
  -- What is left of the old collateral goes back, possibly nothing.
  have hback : token₁.payAll this [(old.agent, old.collateralLocked - newCollateralAmount)] =
      some token := by
    rw [Ledger.payAll_cons, hpay]
    rfl
  have hstep : BookStep this (books w) (.job jobId (.rebid _ _)) _ :=
    .job hposted hjob (by rintro _ _ _ ⟨⟩) htake hback
  refine ⟨_, _, bookStep_of_books ?_ hstep⟩
  unfold books
  rw [books_emit fun _ => ⟨rfl, rfl⟩, books_setBids]
  rfl

theorem selectWinners_ok {winningBidIndices : List ℕ}
    (h : selectWinners this env jobId winningBidIndices w = .ok w') :
    ∃ p fee, BookStep this (books w) (.job jobId (.select winningBidIndices p fee)) (books w') := by
  simp only [selectWinners, acceptBids, bind_eq_ok, require_eq_ok, checkedMul_eq_ok, checkedSub_eq_ok,
    pure_eq_ok, Prod.exists] at h
  obtain ⟨_, ⟨_, -, _, -, _, hexists, _, hopen, _, -, ⟨seen, bids, winners, total⟩, hloop, _, hbudget,
    rfl⟩, _, ⟨-, rfl⟩, w₁, hpayFee, _, ⟨hle, rfl⟩, bids', w₂, hrefund, rfl⟩ := h
  -- The fee is paid first, and then the refunds.
  generalize hfee : total * w.state.platformFeePercent / 100 = fee at *
  obtain ⟨token₁, hpay, rfl⟩ := pay_ok hpayFee
  obtain ⟨rfl, hpayAll, -, hquiet⟩ := refundBids_ok hrefund
  have hposted := file_posted hexists
  have hjob : JobStep this (w.state.file jobId) (.select winningBidIndices ⟨bids, winners, total⟩ fee)
      _ := .select hposted hopen (selectLoop_ok hloop) hbudget hle
  have hpays : w.token.payAll this ((w.state.treasury, fee) :: refunds bids) = some w₂.token := by
    rw [Ledger.payAll_cons, hpay]
    exact hpayAll
  -- The fee is the configured share of the winners' pay.
  have hrate : ∀ picks p x, JobOp.select winningBidIndices ⟨bids, winners, total⟩ fee =
      .select picks p x → x = p.total * w.state.platformFeePercent / 100 := by
    rintro _ _ _ ⟨⟩
    exact hfee.symm
  have hstep : BookStep this (books w) (.job jobId (.select winningBidIndices ⟨bids, winners, total⟩
      fee)) _ := .job hposted hjob hrate rfl hpays
  refine ⟨_, _, bookStep_of_books ?_ hstep⟩
  unfold books
  rw [books_emit_winnersSelected, books_setBids, hquiet.books, books_setJob, Books.modify_modify,
    Books.modify_modify]
  rfl

theorem findAccepted_ok {agent : Address} {index : ℕ} {bid : AgentBid}
    (h : findAccepted jobId agent s = .ok (index, bid)) :
    (s.jobBids jobId)[index]? = some bid ∧ bid.agent = agent ∧ bid.status = .accepted ∧
      s.isWinnerPaid jobId bid.agent = false := by
  simp only [findAccepted, bind_eq_ok, require_eq_ok, pure_eq_ok] at h
  obtain ⟨_, hunpaid, h⟩ := h
  rcases hfind : findBidIndex (s.jobBids jobId) agent with ⟨found, i⟩
  simp only [hfind] at h
  obtain ⟨_, hfound, _, haccepted, heq⟩ := h
  obtain ⟨bid', hi, hget, hagent⟩ := findBidIndex_ok hfind hfound
  obtain ⟨rfl, rfl⟩ := Prod.mk.inj heq
  rw [hget] at haccepted ⊢
  rw [← hagent] at hunpaid
  exact ⟨hi, hagent, haccepted, hunpaid⟩

theorem releaseEscrow_ok {agent : Address} {payment bonus validFindings falsePos falseNeg : ℕ}
    (h : releaseEscrow this env jobId agent payment bonus validFindings falsePos falseNeg w = .ok w') :
    ∃ b : AgentBid, b.agent = agent ∧
      BookStep this (books w) (.job jobId (.release b (payment + bonus))) (books w') := by
  simp only [releaseEscrow, requireInProgress, bind_eq_ok, require_eq_ok, checkedAdd_eq_ok,
    checkedSub_eq_ok, pure_eq_ok, Prod.exists] at h
  obtain ⟨_, -, _, -, _, ⟨_, hexists, hprogress⟩, i, bid, hfind, _, ⟨-, rfl⟩, _, hle, w₁, hpayout, _,
    ⟨-, rfl⟩, w₂, hback, _, ⟨-, rfl⟩, s₃, htry, rfl⟩ := h
  obtain ⟨hi, hagent, haccepted, hunpaid⟩ := findAccepted_ok hfind
  obtain ⟨token₁, hpay₁, rfl⟩ := pay_ok hpayout
  obtain ⟨token₂, hpay₂, rfl⟩ := pay_ok hback
  -- What the registry answers under `try` does not touch the books.
  have hquiet := tryRegistry_ok htry
  have hposted := file_posted hexists
  have hjob : JobStep this (w.state.file jobId) (.release bid (payment + bonus)) _ :=
    .release hposted hprogress hunpaid hi haccepted hle
  -- The pay, and then the collateral.
  have hpays : w.token.payAll this ((JobOp.release bid (payment + bonus)).payments w.state.treasury) =
      some token₂ := by
    have hcollateral : Ledger.transfer token₁ this agent bid.collateralLocked = some token₂ := hpay₂
    rw [JobOp.payments, hagent, Ledger.payAll_cons, hpay₁, Option.bind_some, Ledger.payAll_cons,
      hcollateral]
    rfl
  have hstep : BookStep this (books w) (.job jobId (.release bid (payment + bonus))) _ :=
    .job hposted hjob (by rintro _ _ _ ⟨⟩) rfl hpays
  refine ⟨bid, hagent, bookStep_of_books ?_ hstep⟩
  unfold books
  rw [books_emit_escrowReleased, hquiet.books, books_setPaid, books_setBids, books_setJob]
  simp only [Books.modify_modify]
  unfold Books.modify
  rw [show decide ((w.state.jobs jobId).jobId ≠ 0) = (w.state.file jobId).posted from rfl]
  rw [← hagent]
  rfl

theorem slashAgentBid_ok {agent : Address} {slashBasisPoints : ℕ}
    (h : slashAgentBid this env jobId agent slashBasisPoints w = .ok w') :
    ∃ (b : AgentBid) (slashed : ℕ), b.agent = agent ∧
      BookStep this (books w) (.job jobId (.slash b slashed)) (books w') := by
  simp only [slashAgentBid, requireInProgress, bind_eq_ok, require_eq_ok, checkedMul_eq_ok,
    checkedSub_eq_ok, pure_eq_ok, Prod.exists] at h
  obtain ⟨_, -, _, -, _, ⟨_, hexists, hprogress⟩, _, -, i, bid, hfind, _, -, _, ⟨-, rfl⟩, _, ⟨hle, rfl⟩,
    w₁, hslash, w₂, hback, s₃, htry, rfl⟩ := h
  obtain ⟨hi, hagent, haccepted, hunpaid⟩ := findAccepted_ok hfind
  obtain ⟨token₁, hpay₁, rfl⟩ := pay_ok hslash
  obtain ⟨token₂, hpay₂, rfl⟩ := pay_ok hback
  have hquiet := tryRegistry_ok htry
  have hposted := file_posted hexists
  generalize bid.collateralLocked * slashBasisPoints / 10000 = slashed at *
  have hjob : JobStep this (w.state.file jobId) (.slash bid slashed) _ :=
    .slash hposted hprogress hunpaid hi haccepted hle
  -- The slashed part goes to the treasury, the rest back to the agent.
  have hpays : w.token.payAll this ((JobOp.slash bid slashed).payments w.state.treasury) =
      some token₂ := by
    have htreasury : Ledger.transfer w.token this w.state.treasury slashed = some token₁ := hpay₁
    have hremainder : Ledger.transfer token₁ this agent (bid.collateralLocked - slashed) =
      some token₂ := hpay₂
    rw [JobOp.payments, hagent, Ledger.payAll_cons, htreasury, Option.bind_some, Ledger.payAll_cons,
      hremainder]
    rfl
  have hstep : BookStep this (books w) (.job jobId (.slash bid slashed)) _ :=
    .job hposted hjob (by rintro _ _ _ ⟨⟩) rfl hpays
  refine ⟨bid, slashed, hagent, bookStep_of_books ?_ hstep⟩
  unfold books
  rw [books_emit fun _ => ⟨rfl, rfl⟩, hquiet.books, books_setBids]
  rfl

theorem completeJob_ok (token : TokenLedger) (h : completeJob env jobId s = .ok s') :
    BookStep this (s.books token) (.job jobId .complete) (s'.books token) := by
  simp only [completeJob, requireInProgress, bind_eq_ok, require_eq_ok, pure_eq_ok] at h
  obtain ⟨_, -, _, -, _, ⟨_, hexists, hprogress⟩, _, -, _, hcount, _, hescrow, rfl⟩ := h
  have hposted := file_posted hexists
  have hjob : JobStep this (s.file jobId) .complete _ := .complete hposted hprogress hcount hescrow
  have hstep : BookStep this (s.books token) (.job jobId .complete) _ :=
    .job hposted hjob (by rintro _ _ _ ⟨⟩) rfl rfl
  refine bookStep_of_books ?_ hstep
  rw [books_emit fun _ => ⟨rfl, rfl⟩, books_removeActiveJob, books_setJob]
  rfl

theorem cancelJob_ok (h : cancelJob this env jobId w = .ok w') :
    ∃ bids, BookStep this (books w) (.job jobId (.cancel bids)) (books w') := by
  simp only [cancelJob, bind_eq_ok, require_eq_ok, pure_eq_ok, Prod.exists] at h
  obtain ⟨_, -, _, -, _, hexists, _, hopen, bids, w₁, hrefund, rfl⟩ := h
  obtain ⟨rfl, hpays, -, hquiet⟩ := refundBids_ok hrefund
  have hposted := file_posted hexists
  have hjob : JobStep this (w.state.file jobId) (.cancel (w.state.jobBids jobId)) _ :=
    .cancel hposted hopen
  have hstep : BookStep this (books w) (.job jobId (.cancel (w.state.jobBids jobId))) _ :=
    .job hposted hjob (by rintro _ _ _ ⟨⟩) rfl hpays
  refine ⟨_, bookStep_of_books ?_ hstep⟩
  unfold books
  rw [books_emit fun _ => ⟨rfl, rfl⟩, books_removeActiveJob, books_setJob, books_setBids,
    hquiet.books, Books.modify_modify]
  rfl

/-! ## All calls -/

/-- The operation that a call stands for. -/
def Call.Does : Call → BookOp → Prop
  | .createAuditJob _ _ _ _ budgetAvailable _ _, op => op = .post budgetAvailable
  | .submitBid jobId _ _ _ _, op => ∃ b, op = .job jobId (.bid b)
  | .updateBid jobId _ _ _, op => ∃ old b, op = .job jobId (.rebid old b)
  | .selectWinners jobId winningBidIndices, op =>
    ∃ p fee, op = .job jobId (.select (winningBidIndices.map Fin.val) p fee)
  | .releaseEscrow jobId agent payment bonus _ _ _, op =>
    ∃ b : AgentBid, b.agent = agent ∧ op = .job jobId (.release b (payment + bonus))
  | .slashAgentBid jobId agent _, op =>
    ∃ (b : AgentBid) (slashed : ℕ), b.agent = agent ∧ op = .job jobId (.slash b slashed)
  | .completeJob jobId, op => op = .job jobId .complete
  | .cancelJob jobId, op => ∃ bids, op = .job jobId (.cancel bids)
  | .admin (.setTreasury treasury), op => ∃ feePercent, op = .configure treasury feePercent
  | .admin (.setPlatformFeePercent feePercent), op => ∃ treasury, op = .configure treasury feePercent
  | _, _ => False

theorem execAdmin_ok {c : AdminCall} (token : TokenLedger) (h : execAdmin env c s = .ok s') :
    (∃ op, (Call.admin c).Does op ∧ BookStep this (s.books token) op (s'.books token)) ∨
      (∀ op, ¬ (Call.admin c).Does op) ∧ s'.books token = s.books token := by
  simp only [execAdmin, bind_eq_ok] at h
  obtain ⟨_, -, h⟩ := h
  -- The treasury and the fee are in the books; nothing else that the owner sets is.
  cases c with
  | setTreasury treasury =>
    simp only [bind_eq_ok, pure_eq_ok] at h
    obtain ⟨_, -, rfl⟩ := h
    exact .inl ⟨_, ⟨s.platformFeePercent, rfl⟩, .configure⟩
  | setPlatformFeePercent feePercent =>
    simp only [bind_eq_ok, pure_eq_ok] at h
    obtain ⟨_, -, rfl⟩ := h
    exact .inl ⟨_, ⟨s.treasury, rfl⟩, .configure⟩
  | setAuditScheduler auditScheduler =>
    simp only [bind_eq_ok, pure_eq_ok] at h
    obtain ⟨_, -, rfl⟩ := h
    exact .inr ⟨fun _ => id, books_emit (fun _ => ⟨rfl, rfl⟩) _ _⟩
  | renounceOwnership =>
    rw [pure_eq_ok] at h
    subst h
    exact .inr ⟨fun _ => id, rfl⟩
  | setAgentRegistry agentRegistry =>
    simp only [bind_eq_ok, pure_eq_ok] at h
    obtain ⟨_, -, _, -, rfl⟩ := h
    exact .inr ⟨fun _ => id, rfl⟩
  | setOrchestrator | transferOwnership =>
    simp only [bind_eq_ok, pure_eq_ok] at h
    obtain ⟨_, -, rfl⟩ := h
    exact .inr ⟨fun _ => id, rfl⟩

/-- Every call is one operation on the books, or it does not touch them. -/
theorem exec_ok {c : Call} (hb : (books w).Sound this) (hs : env.sender ≠ this)
    (h : exec this env c w = .ok w') :
    (∃ op, c.Does op ∧ BookStep this (books w) op (books w')) ∨
      (∀ op, ¬ c.Does op) ∧ books w' = books w := by
  unfold exec at h
  split_ifs at h
  -- The functions on jobs make an operation each; the owner's are looked at above.
  cases c with
  | createAuditJob contractAddress contractChain contractType initialRiskScore budgetAvailable lineCount
      auctionDurationSeconds =>
    rw [onState_eq_ok] at h
    obtain ⟨s, h, rfl⟩ := h
    exact .inl ⟨_, rfl, createAuditJob_ok w.token hb h⟩
  | submitBid jobId bidAmount collateralAmount estimatedCompletionTime specialization =>
    obtain ⟨b, hstep⟩ := submitBid_ok hs h
    exact .inl ⟨_, ⟨b, rfl⟩, hstep⟩
  | updateBid jobId newBidAmount newCollateralAmount newEstimatedCompletionTime =>
    obtain ⟨old, b, hstep⟩ := updateBid_ok h
    exact .inl ⟨_, ⟨old, b, rfl⟩, hstep⟩
  | selectWinners jobId winningBidIndices =>
    obtain ⟨p, fee, hstep⟩ := selectWinners_ok h
    exact .inl ⟨_, ⟨p, fee, rfl⟩, hstep⟩
  | releaseEscrow jobId agent payment bonus validFindings falsePos falseNeg =>
    obtain ⟨b, hagent, hstep⟩ := releaseEscrow_ok h
    exact .inl ⟨_, ⟨b, hagent, rfl⟩, hstep⟩
  | slashAgentBid jobId agent slashBasisPoints =>
    obtain ⟨b, slashed, hagent, hstep⟩ := slashAgentBid_ok h
    exact .inl ⟨_, ⟨b, slashed, hagent, rfl⟩, hstep⟩
  | completeJob jobId =>
    rw [onState_eq_ok] at h
    obtain ⟨s, h, rfl⟩ := h
    exact .inl ⟨_, rfl, completeJob_ok w.token h⟩
  | cancelJob jobId =>
    obtain ⟨bids, hstep⟩ := cancelJob_ok h
    exact .inl ⟨_, ⟨bids, rfl⟩, hstep⟩
  | pause =>
    simp only [onState_eq_ok, pause, bind_eq_ok, pure_eq_ok] at h
    obtain ⟨_, ⟨_, -, _, -, rfl⟩, rfl⟩ := h
    exact .inr ⟨fun _ => id, rfl⟩
  | unpause =>
    simp only [onState_eq_ok, unpause, bind_eq_ok, pure_eq_ok] at h
    obtain ⟨_, ⟨_, -, _, -, rfl⟩, rfl⟩ := h
    exact .inr ⟨fun _ => id, rfl⟩
  | associateGuardToken =>
    simp only [onState_eq_ok, associateGuardToken, bind_eq_ok, pure_eq_ok] at h
    obtain ⟨_, ⟨_, -, rfl⟩, rfl⟩ := h
    exact .inr ⟨fun _ => id, books_emit (fun _ => ⟨rfl, rfl⟩) _ _⟩
  | admin c =>
    rw [onState_eq_ok] at h
    obtain ⟨s, h, rfl⟩ := h
    exact execAdmin_ok w.token h

theorem sound_fresh (token : TokenLedger) (h : (contract this).fresh s) :
    (s.books token).Sound this := by
  obtain ⟨deployer, guardToken, agentRegistry, orchestrator, treasury, rfl⟩ := fresh_state_eq h
  have hblank : ∀ id, ((State.fresh deployer guardToken agentRegistry orchestrator treasury).books
      token).files id = JobFile.blank := fun _ => rfl
  constructor
  case files =>
    intro id
    rw [hblank]
    exact JobFile.sound_blank this
  case unused => exact fun id _ => hblank id
  case first => exact Nat.one_pos
  case active_nodup => exact List.nodup_nil
  case active_iff =>
    intro id
    rw [hblank]
    simp [State.books, State.fresh, JobFile.Active, JobFile.blank]

theorem reachable_sound (hw : (contract this).system.Reachable w) : (books w).Sound this := by
  refine hw.induct (I := fun w => (books w).Sound this) ?_ ?_
  · intro w hfresh
    exact sound_fresh w.token hfresh
  · intro w l w' _ hb hstep
    cases hstep with
    | call hs _ _ h =>
      rcases exec_ok hb hs h with ⟨op, -, hstep⟩ | ⟨-, hsame⟩
      · exact hb.step hstep
      · exact hsame ▸ hb
    | elsewhere _ _ => exact ⟨hb.files, hb.unused, hb.first, hb.active_nodup, hb.active_iff⟩

end AuditGuard.AuditAuction
