import AuditGuard.SubAuction.Books
import AuditGuard.SubAuction.System

/-!
# SubAuction: what a call does

The storage as books, and the operation that each call makes on them (`exec_ok`).
-/

namespace AuditGuard.SubAuction

open Evm TransitionSystem

namespace State

/-- The file that the storage keeps of a sub-job. -/
def file (s : State) (subJobId : ℕ) : SubJobFile where
  posted := decide ((s.subJobs subJobId).subJobId ≠ 0)
  status := (s.subJobs subJobId).status
  requester := (s.subJobs subJobId).requester
  payment := (s.subJobs subJobId).paymentAmount
  slaDeadline := (s.subJobs subJobId).slaDeadline
  selected := (s.subJobs subJobId).selectedAgent
  bids := s.subBids subJobId
  hasBid := s.hasAgentSubBid subJobId

/-- The books that the storage keeps, with the ledger `token`. -/
def books (s : State) (token : TokenLedger) : Books where
  token := token
  nextSubJobId := s.nextSubJobId
  files := s.file
  treasury := s.treasury
  transfers := s.transfers

/-- Appends transfers to those that were made. -/
def transferred (s : State) (ts : List Transfer) : State := { s with transfers := s.transfers ++ ts }

end State

/-- The books of the contract. -/
def books (w : World State) : Books := w.state.books w.token

/-- The transfers were made, and nothing else. -/
def Paid (w : World State) (ts : List Transfer) (w' : World State) : Prop :=
  ∃ token, w.token.transferAll (ts.map Transfer.move) = some token ∧
    w' = { w with token := token, state := w.state.transferred ts }

theorem bookStep_of_books {this : Address} {b₀ b b' : Books} {op : BookOp} (hb : b' = b)
    (h : BookStep this b₀ op b) : BookStep this b₀ op b' := by
  rwa [hb]

variable {this : Address} {env : Env} {s s' : State} {w w' : World State} {subJobId : ℕ}

/-! ## Payments -/

theorem Paid.refl (w : World State) : Paid w [] w := by
  refine ⟨w.token, rfl, ?_⟩
  simp [State.transferred]

theorem Paid.trans {w₁ w₂ w₃ : World State} {ts ts' : List Transfer} (h : Paid w₁ ts w₂)
    (h' : Paid w₂ ts' w₃) : Paid w₁ (ts ++ ts') w₃ := by
  obtain ⟨token, hpay, rfl⟩ := h
  obtain ⟨token', hpay', rfl⟩ := h'
  refine ⟨token', ?_, by simp [State.transferred, List.append_assoc]⟩
  rw [List.map_append, Ledger.transferAll_append, hpay]
  exact hpay'

theorem Paid.start (w : World State) : Paid w (payouts this subJobId []) w := .refl w

theorem Paid.snoc {w₁ w₂ w₃ : World State} {payments : List (Address × ℕ)} {recipient : Address}
    {amount : ℕ} (h : Paid w₁ (payouts this subJobId payments) w₂)
    (h' : Paid w₂ (payout this subJobId recipient amount) w₃) :
    Paid w₁ (payouts this subJobId (payments ++ [(recipient, amount)])) w₃ := by
  unfold payouts
  rw [List.flatMap_append, List.flatMap_singleton]
  exact h.trans h'

theorem transferGuard_ok {src dst : Address} {amount : ℕ}
    (h : transferGuard env subJobId src dst amount w = .ok w') :
    Paid w [⟨subJobId, src, dst, amount⟩] w' := by
  simp only [transferGuard, Hts.transfer_eq_ok, bind_eq_ok, pure_eq_ok] at h
  obtain ⟨_, ⟨-, token, hpay, rfl⟩, rfl⟩ := h
  refine ⟨token, ?_, rfl⟩
  rw [List.map_singleton, Ledger.transferAll, List.foldlM_cons, Transfer.move, hpay]
  rfl

theorem pay_ok {recipient : Address} {amount : ℕ}
    (h : pay this env subJobId recipient amount w = .ok w') :
    Paid w (payout this subJobId recipient amount) w' := by
  unfold pay at h
  unfold payout
  split_ifs at h ⊢
  · exact transferGuard_ok h
  · rw [pure_eq_ok] at h
    subst h
    exact .refl _

theorem demoteBid_ok {bid bid' : SubBid} (h : demoteBid this env subJobId bid w = .ok (bid', w')) :
    bid' = bid.demote ∧ Paid w (payout this subJobId bid.agent bid.demotion) w' := by
  have hnothing : payout this subJobId bid.agent 0 = [] := rfl
  unfold demoteBid at h
  unfold SubBid.demote SubBid.demotion
  split at h <;> rename_i hstatus <;> rw [hstatus]
  · simp only [bind_eq_ok, pure_eq_ok, Prod.mk.injEq] at h
    obtain ⟨w₁, hpay, rfl, rfl⟩ := h
    exact ⟨rfl, pay_ok hpay⟩
  · simp only [bind_eq_ok, pure_eq_ok, Prod.mk.injEq] at h
    obtain ⟨w₁, hpay, rfl, rfl⟩ := h
    exact ⟨rfl, pay_ok hpay⟩
  · simp only [pure_eq_ok, Prod.mk.injEq] at h
    obtain ⟨rfl, rfl⟩ := h
    exact ⟨rfl, hnothing ▸ .refl w⟩
  · simp only [pure_eq_ok, Prod.mk.injEq] at h
    obtain ⟨rfl, rfl⟩ := h
    exact ⟨rfl, hnothing ▸ .refl w⟩

theorem demoteBids_ok (p : ℕ → Prop) [DecidablePred p] {bids bids' : List SubBid} {bidIndex i : ℕ}
    (hp : ∀ j, p j ↔ i + j = bidIndex)
    (h : demoteBids this env subJobId bidIndex i bids w = .ok (bids', w')) :
    bids' = demoteOthers p bids ∧ Paid w (payouts this subJobId (demotions p bids)) w' := by
  induction bids generalizing i bids' w p with
  | nil =>
    simp only [demoteBids, pure_eq_ok, Prod.mk.injEq] at h
    obtain ⟨rfl, rfl⟩ := h
    exact ⟨rfl, .refl _⟩
  | cons bid bids ih =>
    simp only [demoteBids, bind_eq_ok, pure_eq_ok, Prod.exists, Prod.mk.injEq] at h
    obtain ⟨bid₁, w₁, hfirst, bids₁, w₂, hrest, rfl, rfl⟩ := h
    obtain ⟨rfl, hpayRest⟩ := ih (fun j => p (j + 1)) (fun j => by rw [hp]; omega) hrest
    unfold demoteOthers demotions payouts
    rw [List.mapIdx_cons, List.mapIdx_cons, List.flatMap_cons]
    have hzero := hp 0
    rw [Nat.add_zero] at hzero
    -- The selected bid is passed over, every other one demoted and refunded.
    by_cases hi : i = bidIndex
    · rw [if_pos hi] at hfirst
      simp only [pure_eq_ok, Prod.mk.injEq] at hfirst
      obtain ⟨rfl, rfl⟩ := hfirst
      rw [if_pos (hzero.mpr hi), if_pos (hzero.mpr hi)]
      exact ⟨rfl, hpayRest⟩
    · rw [if_neg hi] at hfirst
      obtain ⟨rfl, hpay⟩ := demoteBid_ok hfirst
      rw [if_neg (mt hzero.mp hi), if_neg (mt hzero.mp hi)]
      exact ⟨rfl, hpay.trans hpayRest⟩

theorem refundBid_ok {bid bid' : SubBid} (h : refundBid this env subJobId bid w = .ok (bid', w')) :
    bid' = bid.refund ∧ Paid w (payout this subJobId bid.agent bid.refunded) w' := by
  unfold refundBid at h
  unfold SubBid.refund SubBid.refunded
  split_ifs at h ⊢
  · simp only [bind_eq_ok, pure_eq_ok, Prod.mk.injEq] at h
    obtain ⟨w₁, hpay, rfl, rfl⟩ := h
    exact ⟨rfl, pay_ok hpay⟩
  · simp only [pure_eq_ok, Prod.mk.injEq] at h
    obtain ⟨rfl, rfl⟩ := h
    exact ⟨rfl, .refl _⟩

theorem refundBids_ok {bids bids' : List SubBid}
    (h : refundBids this env subJobId bids w = .ok (bids', w')) :
    bids' = bids.map SubBid.refund ∧
      Paid w (payouts this subJobId (bids.map fun b => (b.agent, b.refunded))) w' := by
  induction bids generalizing bids' w with
  | nil =>
    simp only [refundBids, pure_eq_ok, Prod.mk.injEq] at h
    obtain ⟨rfl, rfl⟩ := h
    exact ⟨rfl, .refl _⟩
  | cons bid bids ih =>
    simp only [refundBids, bind_eq_ok, pure_eq_ok, Prod.exists, Prod.mk.injEq] at h
    obtain ⟨bid₁, w₁, hfirst, bids₁, w₂, hrest, rfl, rfl⟩ := h
    obtain ⟨rfl, hpay⟩ := refundBid_ok hfirst
    obtain ⟨rfl, hpayRest⟩ := ih hrest
    exact ⟨rfl, hpay.trans hpayRest⟩

theorem findSelectedBidIndex_ok {bids : List SubBid} {agent : Address} {found : Bool} {index : ℕ}
    (h : findSelectedBidIndex bids agent = (found, index)) (hfound : found = true) :
    ∃ bid, bids[index]? = some bid ∧ bids.getD index SubBid.zero = bid ∧ bid.agent = agent := by
  unfold findSelectedBidIndex at h
  split at h
  · rename_i i hfind
    obtain ⟨rfl, rfl⟩ := Prod.mk.inj h
    rw [List.findIdx?_eq_some_iff_getElem] at hfind
    obtain ⟨hlt, hagent, -⟩ := hfind
    refine ⟨bids[i], List.getElem?_eq_getElem hlt, ?_, by simpa using hagent⟩
    rw [List.getD_eq_getElem?_getD, List.getElem?_eq_getElem hlt, Option.getD_some]
  · obtain ⟨rfl, -⟩ := Prod.mk.inj h
    cases hfound

theorem takeSelectedBid_ok {subJob : SubJob} {b : SubBid}
    (h : takeSelectedBid subJobId subJob s = .ok (b, s')) :
    ∃ i, (s.subBids subJobId)[i]? = some b ∧ b.agent = subJob.selectedAgent ∧
      s' = s.setSubBids subJobId ((s.subBids subJobId).set i b.settle) := by
  simp only [takeSelectedBid] at h
  rcases hfind : findSelectedBidIndex (s.subBids subJobId) subJob.selectedAgent with ⟨found, i⟩
  simp only [hfind, bind_eq_ok, require_eq_ok, pure_eq_ok, Prod.mk.injEq] at h
  obtain ⟨_, hfound, hb, rfl⟩ := h
  obtain ⟨bid, hi, hget, hagent⟩ := findSelectedBidIndex_ok hfind hfound
  rw [hget] at hb ⊢
  subst hb
  exact ⟨i, hi, hagent, rfl⟩

theorem updateReputation_ok {agent : Address} {delta : ℤ}
    (h : updateReputation env agent delta s = .ok s') : s'.books = s.books := by
  unfold updateReputation at h
  split_ifs at h
  rw [← Except.ok.inj h]
  rfl

/-! ## What is written, in the books -/

/-- Changes the file of a sub-job. -/
def Books.modify (b : Books) (id : ℕ) (g : SubJobFile → SubJobFile) : Books :=
  { b with files := Function.update b.files id (g (b.files id)) }

theorem Books.modify_modify (b : Books) (id : ℕ) (g g' : SubJobFile → SubJobFile) :
    (b.modify id g).modify id g' = b.modify id fun f => g' (g f) := by
  simp only [modify, Function.update_self, Function.update_idem]

theorem Books.modify_paid (b : Books) (id : ℕ) (g g' : SubJobFile → SubJobFile) (ts : List Transfer) :
    { b.modify id g with transfers := ts }.modify id g' =
      { b.modify id (fun f => g' (g f)) with transfers := ts } := by
  simp only [modify, Function.update_self, Function.update_idem]

theorem BookStep.of_idle {b : Books} {id : ℕ} {op : SubOp} {f : SubJobFile}
    (hposted : (b.files id).posted = true) (hstep : SubStep this (b.files id) op f)
    (hnone : op.transfers this b.treasury id (b.files id) = []) :
    BookStep this b (.job id op) (b.modify id fun _ => f) := by
  have hpay : b.token.transferAll ((op.transfers this b.treasury id (b.files id)).map Transfer.move) =
      some b.token := by
    rw [hnone]
    rfl
  have h := BookStep.job (.inl ⟨hposted, rfl⟩) hstep hpay
  rw [hnone, List.append_nil] at h
  exact h

theorem books_of_file {g : SubJobFile → SubJobFile} (token : TokenLedger)
    (hothers : ∀ i, i ≠ subJobId → s'.file i = s.file i)
    (hfile : s'.file subJobId = g (s.file subJobId))
    (hrest : s'.books token = { s.books token with files := s'.file }) :
    s'.books token = (s.books token).modify subJobId g := by
  have hall : s'.file = Function.update s.file subJobId (g (s.file subJobId)) := by
    funext i
    rcases eq_or_ne i subJobId with rfl | hne
    · rw [Function.update_self, hfile]
    · rw [Function.update_of_ne hne, hothers i hne]
  rw [hrest, hall]
  rfl

theorem books_setSubJob (s : State) (subJobId : ℕ) (subJob : SubJob) (token : TokenLedger) :
    (s.setSubJob subJobId subJob).books token = (s.books token).modify subJobId fun f => { f with
      posted := decide (subJob.subJobId ≠ 0)
      status := subJob.status
      requester := subJob.requester
      payment := subJob.paymentAmount
      slaDeadline := subJob.slaDeadline
      selected := subJob.selectedAgent } := by
  refine books_of_file token (fun i hi => ?_) ?_ rfl
  · simp only [State.file, State.setSubJob, Function.update_of_ne hi]
  · simp only [State.file, State.setSubJob, Function.update_self]

theorem books_setSubBids (s : State) (subJobId : ℕ) (bids : List SubBid) (token : TokenLedger) :
    (s.setSubBids subJobId bids).books token =
      (s.books token).modify subJobId fun f => { f with bids := bids } := by
  refine books_of_file token (fun i hi => ?_) ?_ rfl
  · simp only [State.file, State.setSubBids, Function.update_of_ne hi]
    rfl
  · simp only [State.file, State.setSubBids, Function.update_self]
    rfl

theorem books_setHasBid (s : State) (subJobId : ℕ) (hasBid : Address → Bool) (token : TokenLedger) :
    { s with hasAgentSubBid := Function.update s.hasAgentSubBid subJobId hasBid }.books token =
      (s.books token).modify subJobId fun f => { f with hasBid := hasBid } := by
  refine books_of_file token (fun i hi => ?_) ?_ rfl
  · simp only [State.file, Function.update_of_ne hi]
  · simp only [State.file, Function.update_self]

theorem books_transferred (s : State) (ts : List Transfer) (token : TokenLedger) :
    (s.transferred ts).books token = { s.books token with transfers := s.transfers ++ ts } := rfl

theorem books_emit (s : State) (e : Event) (token : TokenLedger) :
    (s.emit e).books token = s.books token := rfl

/-! ## The calls on a sub-job -/

theorem file_posted (h : (s.subJobs subJobId).subJobId ≠ 0) : (s.file subJobId).posted = true :=
  decide_eq_true h

/-- `createSubAuction` posts a sub-job. -/
theorem createSubAuction_ok {parentJobId paymentAmount slaDurationSeconds auctionDurationSeconds : ℕ}
    {taskDescription requiredSpecialization : String} (hb : (books w).Sound this)
    (hs : env.sender ≠ this)
    (h : createSubAuction this env parentJobId taskDescription requiredSpecialization paymentAmount
      slaDurationSeconds auctionDurationSeconds w = .ok w') :
    BookStep this (books w) (.job w.state.nextSubJobId
      (.create env.sender paymentAmount (env.timestamp + slaDurationSeconds))) (books w') := by
  simp only [createSubAuction, bind_eq_ok, checkedAdd_eq_ok, pure_eq_ok] at h
  obtain ⟨_, -, _, -, _, -, _, -, _, -, _, -, _, -, _, -, _, -, _, -, _, -, w₁, htransfer, _, ⟨-, rfl⟩, _,
    ⟨-, rfl⟩, auctionDeadline, -, rfl⟩ := h
  obtain ⟨token, hpay, rfl⟩ := transferGuard_ok htransfer
  have hblank : w.state.file w.state.nextSubJobId = SubJobFile.blank := hb.unused _ le_rfl
  have hfirst : w.state.nextSubJobId ≠ 0 := hb.first.ne'
  have hjob : SubStep this (w.state.file w.state.nextSubJobId)
      (.create env.sender paymentAmount (env.timestamp + slaDurationSeconds))
      { SubJobFile.blank with
        posted := true
        requester := env.sender
        payment := paymentAmount
        slaDeadline := env.timestamp + slaDurationSeconds } := by
    rw [hblank]
    exact .create hs
  have hstep : BookStep this (books w) (.job w.state.nextSubJobId
      (.create env.sender paymentAmount (env.timestamp + slaDurationSeconds))) _ :=
    .job (.inr ⟨rfl, rfl⟩) hjob hpay
  refine bookStep_of_books ?_ hstep
  unfold books
  dsimp only
  rw [books_emit]
  -- The next id is written before the sub-job.
  change Books.mk token (w.state.nextSubJobId + 1) (State.books (State.setSubJob _ _ _) token).files _
    _ = _
  rw [books_setSubJob]
  change Books.mk token (w.state.nextSubJobId + 1) (Function.update w.state.file w.state.nextSubJobId
    { w.state.file w.state.nextSubJobId with
      posted := decide (w.state.nextSubJobId ≠ 0)
      status := .opened
      requester := env.sender
      payment := paymentAmount
      slaDeadline := env.timestamp + slaDurationSeconds }) _ _ = _
  rw [hblank, decide_eq_true hfirst]
  rfl

theorem submitSubBid_ok {proposedPrice estimatedTime collateralAmount : ℕ} (hs : env.sender ≠ this)
    (h : submitSubBid this env subJobId proposedPrice estimatedTime collateralAmount w = .ok w') :
    ∃ b : SubBid, b.agent = env.sender ∧
      BookStep this (books w) (.job subJobId (.bid b)) (books w') := by
  simp only [submitSubBid, getExistingSubJob, bind_eq_ok, require_eq_ok, pure_eq_ok] at h
  obtain ⟨_, -, _, ⟨_, hexists, rfl⟩, _, hopen, _, -, _, -, _, -, _, -, _, hprice, _, -, _, hnone, w₁,
    htransfer, rfl⟩ := h
  obtain ⟨token, hpay, rfl⟩ := transferGuard_ok htransfer
  have hposted := file_posted hexists
  have hjob : SubStep this (w.state.file subJobId) (.bid ⟨env.sender, subJobId, proposedPrice,
      estimatedTime, collateralAmount, .pending, env.timestamp⟩) _ :=
    .bid hposted hopen hs hnone rfl hprice
  have hstep : BookStep this (books w) (.job subJobId (.bid _)) _ :=
    .job (.inl ⟨hposted, rfl⟩) hjob hpay
  refine ⟨_, rfl, bookStep_of_books ?_ hstep⟩
  unfold books
  rw [books_emit, books_setHasBid, books_setSubBids, books_transferred, Books.modify_modify]
  rfl

theorem selectSubContractor_ok {bidIndex : ℕ}
    (h : selectSubContractor this env subJobId bidIndex w = .ok w') :
    ∃ b : SubBid, BookStep this (books w) (.job subJobId (.select bidIndex b)) (books w') := by
  simp only [selectSubContractor, getExistingSubJob, bind_eq_ok, require_eq_ok, orRevert_eq_ok,
    pure_eq_ok, Prod.exists] at h
  obtain ⟨_, -, _, ⟨_, hexists, rfl⟩, _, -, _, hopen, _, -, b, hi, _, hpending, bids, w₁, hloop, w₂,
    hdiscount, rfl⟩ := h
  -- The status is overwritten in the end.
  obtain ⟨status, hstatus⟩ : ∃ status, (if (w.state.subJobs subJobId).status = .opened ∧
      (w.state.subJobs subJobId).auctionDeadline ≤ env.timestamp then
      { w.state.subJobs subJobId with status := .biddingClosed } else w.state.subJobs subJobId) =
      { w.state.subJobs subJobId with status := status } := by
    split_ifs
    · exact ⟨_, rfl⟩
    · exact ⟨(w.state.subJobs subJobId).status, rfl⟩
  rw [hstatus] at hdiscount ⊢
  obtain ⟨rfl, hdemoted⟩ := demoteBids_ok (· = bidIndex) (fun j => by rw [Nat.zero_add]) hloop
  obtain ⟨token, hpay, rfl⟩ := hdemoted.snoc (pay_ok hdiscount)
  have hposted := file_posted hexists
  have hjob : SubStep this (w.state.file subJobId) (.select bidIndex b) _ :=
    .select hposted hopen hi hpending
  have hstep : BookStep this (books w) (.job subJobId (.select bidIndex b)) _ :=
    .job (.inl ⟨hposted, rfl⟩) hjob hpay
  refine ⟨_, bookStep_of_books ?_ hstep⟩
  unfold books
  rw [books_emit, books_setSubJob, books_setSubBids, books_transferred, Books.modify_modify]
  rfl

theorem selectSubContractor_unpaused {bidIndex : ℕ}
    (h : selectSubContractor this env subJobId bidIndex w = .ok w') : w'.state.paused = false := by
  simp only [selectSubContractor, whenNotPaused, getExistingSubJob, bind_eq_ok, modifier_eq_ok,
    pure_eq_ok, Prod.exists] at h
  obtain ⟨_, hpaused, _, -, _, -, _, -, _, -, b, -, _, -, bids, w₁, hloop, w₂, hdiscount, rfl⟩ := h
  obtain ⟨-, hdemoted⟩ := demoteBids_ok (· = bidIndex) (fun j => by rw [Nat.zero_add]) hloop
  obtain ⟨token, -, rfl⟩ := hdemoted.snoc (pay_ok hdiscount)
  exact hpaused

theorem deliverResult_ok {resultHash : UInt 256} (token : TokenLedger)
    (h : deliverResult env subJobId resultHash s = .ok s') :
    BookStep this (s.books token) (.job subJobId .deliver) (s'.books token) := by
  simp only [deliverResult, getExistingSubJob, bind_eq_ok, require_eq_ok, pure_eq_ok] at h
  obtain ⟨_, -, _, ⟨_, hexists, rfl⟩, _, -, _, hprogress, _, -, _, -, rfl⟩ := h
  have hposted := file_posted hexists
  have hjob : SubStep this (s.file subJobId) .deliver _ := .deliver hposted hprogress
  have hstep : BookStep this (s.books token) (.job subJobId .deliver) _ := .of_idle hposted hjob rfl
  refine bookStep_of_books ?_ hstep
  rw [books_emit, books_setSubJob]
  rfl

theorem disputeResult_ok {reason : String} (token : TokenLedger)
    (h : disputeResult env subJobId reason s = .ok s') :
    BookStep this (s.books token) (.job subJobId .dispute) (s'.books token) := by
  simp only [disputeResult, getExistingSubJob, bind_eq_ok, require_eq_ok, pure_eq_ok] at h
  obtain ⟨_, -, _, ⟨_, hexists, rfl⟩, _, -, _, hdelivered, _, -, rfl⟩ := h
  have hposted := file_posted hexists
  have hjob : SubStep this (s.file subJobId) .dispute _ := .dispute hposted hdelivered
  have hstep : BookStep this (s.books token) (.job subJobId .dispute) _ := .of_idle hposted hjob rfl
  refine bookStep_of_books ?_ hstep
  rw [books_emit, books_setSubJob]
  rfl

theorem acceptResult_ok (h : acceptResult this env subJobId w = .ok w') :
    ∃ b : SubBid, BookStep this (books w) (.job subJobId (.pay b)) (books w') := by
  simp only [acceptResult, getExistingSubJob, bind_eq_ok, require_eq_ok, pure_eq_ok, Prod.exists] at h
  obtain ⟨_, -, _, ⟨_, hexists, rfl⟩, _, -, _, hdelivered, b, s₁, htake, w₁, hpayment, w₂, hcollateral,
    s₂, hupdate, rfl⟩ := h
  obtain ⟨i, hi, hselected, rfl⟩ := takeSelectedBid_ok htake
  obtain ⟨token, hpay, rfl⟩ := ((Paid.start _).snoc (pay_ok hpayment)).snoc (pay_ok hcollateral)
  have hposted := file_posted hexists
  have hjob : SubStep this (w.state.file subJobId) (.pay b) _ :=
    .pay hposted (.inl hdelivered) hi hselected
  have hstep : BookStep this (books w) (.job subJobId (.pay b)) _ :=
    .job (.inl ⟨hposted, rfl⟩) hjob hpay
  refine ⟨b, bookStep_of_books ?_ hstep⟩
  unfold books
  rw [books_emit, updateReputation_ok hupdate, books_setSubJob, books_transferred, books_setSubBids,
    Books.modify_paid]
  rfl

/-- `resolveDispute` pays the selected agent, or half of its collateral is slashed. -/
theorem resolveDispute_ok {inFavorOfContractor : Bool}
    (h : resolveDispute this env subJobId inFavorOfContractor w = .ok w') :
    ∃ b : SubBid, BookStep this (books w) (.job subJobId
      (if inFavorOfContractor = true then .pay b else .slash b 50 .cancelled)) (books w') := by
  simp only [resolveDispute, settleDispute, getExistingSubJob, bind_eq_ok, require_eq_ok, pure_eq_ok,
    Prod.exists] at h
  obtain ⟨_, -, _, ⟨_, hexists, rfl⟩, _, -, _, -, _, hdisputed, b, s₁, htake, status, w₁, hsettle,
    rfl⟩ := h
  obtain ⟨i, hi, hselected, rfl⟩ := takeSelectedBid_ok htake
  have hposted := file_posted hexists
  refine ⟨b, ?_⟩
  -- In favour of the agent it is paid in full; against it, half of its collateral is slashed.
  split_ifs at hsettle ⊢ with hfavor
  · simp only [bind_eq_ok, pure_eq_ok, Prod.mk.injEq] at hsettle
    obtain ⟨w₂, hpayment, w₃, hcollateral, rfl, rfl⟩ := hsettle
    obtain ⟨token, hpay, rfl⟩ := ((Paid.start _).snoc (pay_ok hpayment)).snoc (pay_ok hcollateral)
    have hjob : SubStep this (w.state.file subJobId) (.pay b) _ :=
      .pay hposted (.inr hdisputed) hi hselected
    have hstep : BookStep this (books w) (.job subJobId (.pay b)) _ :=
      .job (.inl ⟨hposted, rfl⟩) hjob hpay
    refine bookStep_of_books ?_ hstep
    unfold books
    rw [books_emit, books_setSubJob, books_transferred, books_setSubBids, Books.modify_paid]
    rfl
  · simp only [bind_eq_ok, checkedMul_eq_ok, checkedSub_eq_ok, pure_eq_ok, Prod.mk.injEq] at hsettle
    obtain ⟨w₂, hpayment, _, ⟨-, rfl⟩, _, ⟨-, rfl⟩, w₃, hslash, w₄, hrefund, rfl, rfl⟩ := hsettle
    obtain ⟨token₂, hpay₂, rfl⟩ := pay_ok hpayment
    have hpaid : Paid _ _ { w with
        state := (w.state.setSubBids subJobId ((w.state.subBids subJobId).set i b.settle)).transferred _
        token := token₂ } := ⟨token₂, hpay₂, rfl⟩
    obtain ⟨token, hpay, rfl⟩ := (((Paid.start _).snoc hpaid).snoc (pay_ok hslash)).snoc
      (pay_ok hrefund)
    have hjob : SubStep this (w.state.file subJobId) (.slash b 50 .cancelled) _ :=
      .slash hposted (.inl ⟨hdisputed, rfl, rfl⟩) hi hselected
    have hstep : BookStep this (books w) (.job subJobId (.slash b 50 .cancelled)) _ :=
      .job (.inl ⟨hposted, rfl⟩) hjob hpay
    refine bookStep_of_books ?_ hstep
    unfold books
    rw [books_emit, books_setSubJob, books_transferred, books_setSubBids, Books.modify_paid]
    rfl

theorem claimExpired_ok (h : claimExpired this env subJobId w = .ok w') :
    ∃ b : SubBid, BookStep this (books w) (.job subJobId (.slash b 25 .expired)) (books w') := by
  simp only [claimExpired, getExistingSubJob, bind_eq_ok, require_eq_ok, checkedMul_eq_ok,
    checkedSub_eq_ok, pure_eq_ok, Prod.exists] at h
  obtain ⟨_, -, _, ⟨_, hexists, rfl⟩, _, hprogress, _, -, _, -, b, s₁, htake, _, ⟨-, rfl⟩, _, ⟨-, rfl⟩,
    w₁, hpayment, w₂, hslash, w₃, hrefund, s₂, hupdate, rfl⟩ := h
  obtain ⟨i, hi, hselected, rfl⟩ := takeSelectedBid_ok htake
  obtain ⟨token₁, hpay₁, rfl⟩ := pay_ok hpayment
  have hpaid : Paid _ _ { w with
      state := (w.state.setSubBids subJobId ((w.state.subBids subJobId).set i b.settle)).transferred _
      token := token₁ } := ⟨token₁, hpay₁, rfl⟩
  obtain ⟨token, hpay, rfl⟩ := (((Paid.start _).snoc hpaid).snoc (pay_ok hslash)).snoc (pay_ok hrefund)
  have hposted := file_posted hexists
  have hjob : SubStep this (w.state.file subJobId) (.slash b 25 .expired) _ :=
    .slash hposted (.inr ⟨hprogress, rfl, rfl⟩) hi hselected
  have hstep : BookStep this (books w) (.job subJobId (.slash b 25 .expired)) _ :=
    .job (.inl ⟨hposted, rfl⟩) hjob hpay
  refine ⟨b, bookStep_of_books ?_ hstep⟩
  unfold books
  rw [books_emit, updateReputation_ok hupdate, books_setSubJob, books_transferred, books_setSubBids,
    Books.modify_paid]
  rfl

theorem cancelSubAuction_ok (h : cancelSubAuction this env subJobId w = .ok w') :
    BookStep this (books w) (.job subJobId .cancel) (books w') := by
  simp only [cancelSubAuction, getExistingSubJob, bind_eq_ok, require_eq_ok, pure_eq_ok,
    Prod.exists] at h
  obtain ⟨_, -, _, ⟨_, hexists, rfl⟩, _, -, _, hopen, bids, w₁, hloop, w₂, hpayment, rfl⟩ := h
  obtain ⟨rfl, hrefunded⟩ := refundBids_ok hloop
  obtain ⟨token, hpay, rfl⟩ := hrefunded.snoc (pay_ok hpayment)
  have hposted := file_posted hexists
  have hjob : SubStep this (w.state.file subJobId) .cancel _ := .cancel hposted hopen
  have hstep : BookStep this (books w) (.job subJobId .cancel) _ :=
    .job (.inl ⟨hposted, rfl⟩) hjob hpay
  refine bookStep_of_books ?_ hstep
  unfold books
  rw [books_emit, books_setSubJob, books_setSubBids, books_transferred, Books.modify_modify]
  rfl

/-! ## All calls -/

/-- The operation that a call stands for. -/
def Call.Does (env : Env) (s : State) : Call → BookOp → Prop
  | .createSubAuction _ _ _ paymentAmount slaDurationSeconds _, op =>
    op = .job s.nextSubJobId (.create env.sender paymentAmount (env.timestamp + slaDurationSeconds))
  | .submitSubBid subJobId _ _ _, op => ∃ b, op = .job subJobId (.bid b)
  | .selectSubContractor subJobId bidIndex, op => ∃ b, op = .job subJobId (.select bidIndex b)
  | .deliverResult subJobId _, op => op = .job subJobId .deliver
  | .acceptResult subJobId, op => ∃ b, op = .job subJobId (.pay b)
  | .disputeResult subJobId _, op => op = .job subJobId .dispute
  | .resolveDispute subJobId inFavorOfContractor, op =>
    ∃ b, op = .job subJobId (if inFavorOfContractor = true then .pay b else .slash b 50 .cancelled)
  | .claimExpired subJobId, op => ∃ b, op = .job subJobId (.slash b 25 .expired)
  | .cancelSubAuction subJobId, op => op = .job subJobId .cancel
  | .setTreasury treasury, op => op = .configure treasury
  | _, _ => False

/-- Every call is one operation on the books, or it does not touch them. -/
theorem exec_ok {c : Call} (hb : (books w).Sound this) (hs : env.sender ≠ this)
    (h : exec this env c w = .ok w') :
    (∃ op, c.Does env w.state op ∧ BookStep this (books w) op (books w')) ∨
      (∀ op, ¬ c.Does env w.state op) ∧ books w' = books w := by
  unfold exec at h
  split_ifs at h
  cases c with
  | createSubAuction parentJobId taskDescription requiredSpecialization paymentAmount
      slaDurationSeconds auctionDurationSeconds =>
    exact .inl ⟨_, rfl, createSubAuction_ok hb hs h⟩
  | submitSubBid subJobId proposedPrice estimatedTime collateralAmount =>
    obtain ⟨b, -, hstep⟩ := submitSubBid_ok hs h
    exact .inl ⟨_, ⟨b, rfl⟩, hstep⟩
  | selectSubContractor subJobId bidIndex =>
    obtain ⟨b, hstep⟩ := selectSubContractor_ok h
    exact .inl ⟨_, ⟨b, rfl⟩, hstep⟩
  | deliverResult subJobId resultHash =>
    rw [onState_eq_ok] at h
    obtain ⟨s, h, rfl⟩ := h
    exact .inl ⟨_, rfl, deliverResult_ok w.token h⟩
  | acceptResult subJobId =>
    obtain ⟨b, hstep⟩ := acceptResult_ok h
    exact .inl ⟨_, ⟨b, rfl⟩, hstep⟩
  | disputeResult subJobId reason =>
    rw [onState_eq_ok] at h
    obtain ⟨s, h, rfl⟩ := h
    exact .inl ⟨_, rfl, disputeResult_ok w.token h⟩
  | resolveDispute subJobId inFavorOfContractor =>
    obtain ⟨b, hstep⟩ := resolveDispute_ok h
    exact .inl ⟨_, ⟨b, rfl⟩, hstep⟩
  | claimExpired subJobId =>
    obtain ⟨b, hstep⟩ := claimExpired_ok h
    exact .inl ⟨_, ⟨b, rfl⟩, hstep⟩
  | cancelSubAuction subJobId => exact .inl ⟨_, rfl, cancelSubAuction_ok h⟩
  | setTreasury treasury =>
    simp only [onState_eq_ok, setTreasury, bind_eq_ok, pure_eq_ok] at h
    obtain ⟨_, ⟨_, -, _, -, rfl⟩, rfl⟩ := h
    exact .inl ⟨_, rfl, .configure⟩
  -- The books hold none of the other settings.
  | setMainAuction mainAuction =>
    simp only [onState_eq_ok, setMainAuction, bind_eq_ok, pure_eq_ok] at h
    obtain ⟨_, ⟨_, -, _, -, rfl⟩, rfl⟩ := h
    exact .inr ⟨fun _ => id, rfl⟩
  | setAgentRegistry agentRegistry =>
    simp only [onState_eq_ok, setAgentRegistry, bind_eq_ok, pure_eq_ok] at h
    obtain ⟨_, ⟨_, -, _, -, rfl⟩, rfl⟩ := h
    exact .inr ⟨fun _ => id, rfl⟩
  | associateGuardToken =>
    simp only [onState_eq_ok, associateGuardToken, bind_eq_ok, pure_eq_ok] at h
    obtain ⟨_, ⟨_, -, rfl⟩, rfl⟩ := h
    exact .inr ⟨fun _ => id, rfl⟩
  | pause =>
    simp only [onState_eq_ok, pause, bind_eq_ok, pure_eq_ok] at h
    obtain ⟨_, ⟨_, -, _, -, rfl⟩, rfl⟩ := h
    exact .inr ⟨fun _ => id, rfl⟩
  | unpause =>
    simp only [onState_eq_ok, unpause, bind_eq_ok, pure_eq_ok] at h
    obtain ⟨_, ⟨_, -, _, -, rfl⟩, rfl⟩ := h
    exact .inr ⟨fun _ => id, rfl⟩
  | transferOwnership newOwner =>
    simp only [onState_eq_ok, transferOwnership, bind_eq_ok, pure_eq_ok] at h
    obtain ⟨_, ⟨_, -, _, -, rfl⟩, rfl⟩ := h
    exact .inr ⟨fun _ => id, rfl⟩
  | renounceOwnership =>
    simp only [onState_eq_ok, renounceOwnership, bind_eq_ok, pure_eq_ok] at h
    obtain ⟨_, ⟨_, -, rfl⟩, rfl⟩ := h
    exact .inr ⟨fun _ => id, rfl⟩

theorem sound_fresh (token : TokenLedger) (h : (contract this).fresh s) :
    (s.books token).Sound this := by
  obtain ⟨deployer, guardToken, agentRegistry, mainAuction, treasury, rfl⟩ := fresh_state_eq h
  have hblank : ∀ id, ((State.fresh deployer guardToken agentRegistry mainAuction treasury).books
      token).files id = SubJobFile.blank := fun _ => rfl
  constructor
  case files =>
    intro id
    rw [hblank]
    exact SubJobFile.sound_blank this
  case unused => exact fun id _ => hblank id
  case first => exact Nat.one_pos
  case conserved =>
    intro id
    rw [hblank]
    rfl

theorem Step.sound {l : Label Env Call} (hb : (books w).Sound this)
    (hstep : (contract this).Step w l w') : (books w').Sound this := by
  cases hstep with
  | call hs _ _ h =>
    rcases exec_ok hb hs h with ⟨op, -, hstep⟩ | ⟨-, hsame⟩
    · exact hb.step hstep
    · exact hsame ▸ hb
  | elsewhere _ _ => exact ⟨hb.files, hb.unused, hb.first, hb.conserved⟩

theorem reachable_sound (hw : (contract this).system.Reachable w) : (books w).Sound this :=
  hw.induct (I := fun w => (books w).Sound this) (fun w hfresh => sound_fresh w.token hfresh)
    fun _ _ _ _ hb hstep => Step.sound hb hstep

end AuditGuard.SubAuction
