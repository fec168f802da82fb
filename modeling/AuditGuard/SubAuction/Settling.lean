import AuditGuard.Library.Listed
import AuditGuard.SubAuction.Conservation

/-!
# SubAuction: bringing a sub-job to its end

The calls that end a sub-job without the agent registry: the requester cancels a sub-job that is open, and what
the selected agent delivers in time is disputed by the requester and resolved by the main auction's
orchestrator. They succeed whenever the sub-job is at their stage, because the contract holds what it owes.
-/

namespace AuditGuard.SubAuction

open Evm TransitionSystem

variable {this : Address} {env : Env} {w w' : World State} {subJobId : UInt 256}

/-! ## Who takes part -/

/-- Who comes in by a step in the life of a sub-job. -/
def SubOp.newcomer : SubOp → Option Address
  | .create requester _ _ => some requester
  | .bid b => some b.agent
  | _ => none

theorem SubStep.seen {f f' : SubJobFile} {op : SubOp} {a : Address} (h : SubStep this f op f')
    (ha : ∀ x, op.newcomer = some x → x ≠ a) : SubStep a f op f' := by
  cases h with
  | create => exact .create (ha _ rfl)
  | bid hposted hopen _ hnone hpending hprice =>
    exact .bid hposted hopen (ha _ rfl) hnone hpending hprice
  | select hposted hopen hi hpending => exact .select hposted hopen hi hpending
  | deliver hposted hprogress => exact .deliver hposted hprogress
  | dispute hposted hdelivered => exact .dispute hposted hdelivered
  | pay hposted hstatus hi hselected => exact .pay hposted hstatus hi hselected
  | slash hposted hstatus hi hselected => exact .slash hposted hstatus hi hselected
  | cancel hposted hopen => exact .cancel hposted hopen

theorem Call.Does.newcomer {c : Call} {s : State} {id : ℕ} {op : SubOp} {x : Address}
    (h : c.Does env s (.job id op)) (hbid : ∀ b, op ≠ .bid b) (hx : op.newcomer = some x) :
    x = env.sender := by
  cases op with
  | create requester payment slaDeadline =>
    cases c with
    | createSubAuction =>
      simp only [Does, BookOp.job.injEq, SubOp.create.injEq] at h
      obtain ⟨-, rfl, -⟩ := h
      exact (Option.some.inj hx).symm
    | resolveDispute subJobId inFavorOfContractor => cases inFavorOfContractor <;> simp [Does] at h
    | _ => simp [Does] at h
  | bid b => exact absurd rfl (hbid b)
  | _ => cases hx

theorem Call.Does.bids {c : Call} {s : State} {id : ℕ} {b : SubBid} (h : c.Does env s (.job id (.bid b))) :
    ∃ subJobId proposedPrice estimatedTime collateralAmount,
      c = .submitSubBid subJobId proposedPrice estimatedTime collateralAmount := by
  cases c with
  | submitSubBid => exact ⟨_, _, _, _, rfl⟩
  | resolveDispute subJobId inFavorOfContractor => cases inFavorOfContractor <;> simp [Does] at h
  | _ => simp [Does] at h

theorem exec_newcomer {c : Call} (hb : (books w).Sound this) (hs : env.sender ≠ this)
    (h : exec this env c w = .ok w') :
    books w' = books w ∨ ∃ bookOp, BookStep this (books w) bookOp (books w') ∧
      ∀ id op x, bookOp = .job id op → op.newcomer = some x → x = env.sender := by
  rcases exec_ok hb hs h with ⟨bookOp, hdoes, hstep⟩ | ⟨-, hsame⟩
  · by_cases hbid : ∃ id b, bookOp = .job id (.bid b)
    · -- the bid is that of the sender
      obtain ⟨id, b, rfl⟩ := hbid
      obtain ⟨subJobId, proposedPrice, estimatedTime, collateralAmount, rfl⟩ := hdoes.bids
      unfold exec at h
      split_ifs at h
      obtain ⟨b', hagent, hstep'⟩ := submitSubBid_ok hs h
      refine .inr ⟨_, hstep', ?_⟩
      intro id' op x heq hx
      obtain ⟨-, rfl⟩ := BookOp.job.inj heq
      exact (Option.some.inj hx).symm.trans hagent
    · refine .inr ⟨bookOp, hstep, ?_⟩
      rintro id op x rfl hx
      refine hdoes.newcomer ?_ hx
      rintro b rfl
      exact hbid ⟨id, b, rfl⟩
  · exact .inl hsame

theorem exec_seen {c : Call} {a : Address} (hb : (books w).Sound this) (hs : env.sender ≠ this)
    (ha : env.sender ≠ a) (hseen : ∀ id, (w.state.file id).Sound a)
    (h : exec this env c w = .ok w') : ∀ id, (w'.state.file id).Sound a := by
  intro id
  rcases exec_newcomer hb hs h with hsame | ⟨bookOp, hstep, hnew⟩
  · rw [show w'.state.file = w.state.file from congrArg Books.files hsame]
    exact hseen id
  · rcases hstep.file id with hsame | ⟨op, rfl, hjob⟩
    · rw [show w'.state.file id = w.state.file id from hsame]
      exact hseen id
    · refine (hseen id).step (hjob.seen fun x hx => ?_)
      rw [hnew id op x rfl hx]
      exact ha

/-! ## The contract holds what it owes -/

theorem BookStep.covered {b b' : Books} {op : BookOp} (hb : b.Sound this) (h : BookStep this b op b')
    (hcovered : b.owed + selfPaid this b.transfers ≤ b.token.balance this) :
    b'.owed + selfPaid this b'.transfers ≤ b'.token.balance this := by
  have hmoved := h.balance hb
  omega

theorem reachable_covered (hw : (contract this).system.Reachable w) :
    (books w).owed + selfPaid this (books w).transfers ≤ w.token.balance this := by
  induction hw with
  | @init w h =>
    obtain ⟨deployer, guardToken, agentRegistry, mainAuction, treasury, hstate⟩ :=
      fresh_state_eq (show (contract this).fresh w.state from h)
    have hnone : (books w).owed + selfPaid this (books w).transfers = 0 := by
      unfold books
      rw [hstate]
      rfl
    omega
  | @step w l w' hw hstep ih =>
    have hb := reachable_sound hw
    cases hstep with
    | @call env c w w' hs h0 ht h =>
      rcases exec_ok hb hs h with ⟨op, -, hstep⟩ | ⟨-, hsame⟩
      · exact hstep.covered hb ih
      · have hkept : (books w').owed + selfPaid this (books w').transfers ≤
            (books w').token.balance this := by
          rw [hsame]
          exact ih
        exact hkept
    | elsewhere hmore _ => exact ih.trans hmore

theorem file_owed_le (hb : (books w).Sound this) (id : ℕ) : (w.state.file id).owed ≤ (books w).owed := by
  have hfile : (books w).files id = w.state.file id := rfl
  rcases Nat.lt_or_ge id w.state.nextSubJobId with hlt | hge
  · have hmem : id ∈ Finset.range (books w).nextSubJobId := Finset.mem_range.mpr hlt
    rw [← hfile]
    exact Finset.single_le_sum_of_canonicallyOrdered (f := fun id => ((books w).files id).owed) hmem
  · -- an id that was not given
    have hblank := hb.unused id hge
    rw [hfile] at hblank
    have hnothing : SubJobFile.blank.owed = 0 := rfl
    rw [hblank, hnothing]
    exact Nat.zero_le _

/-! ## Payments -/

theorem pay_succeeds (w : World State) (id : ℕ) (recipient : Address) {amount : ℕ}
    (hanswer : env.transferAnswer = Hts.HTS_SUCCESS) (hcovered : amount ≤ w.token.balance this) :
    ∃ w', pay this env id recipient amount w = .ok w' ∧
      w.token.balance this ≤ w'.token.balance this + amount := by
  unfold pay
  split_ifs with hpos
  · obtain ⟨token, hmoved⟩ := (w.token.transfer_isSome_iff this recipient amount).mpr hcovered
    simp only [transferGuard, Hts.transfer_eq_ok, bind_eq_ok, pure_eq_ok]
    exact ⟨_, ⟨_, ⟨hanswer, token, hmoved, rfl⟩, rfl⟩, Ledger.transfer_src_le hmoved⟩
  · exact ⟨w, rfl, Nat.le_add_right _ _⟩

theorem refundBid_succeeds (id : ℕ) (bid : SubBid) (hanswer : env.transferAnswer = Hts.HTS_SUCCESS)
    (hcovered : bid.collateralLocked ≤ w.token.balance this) :
    ∃ bid' w', refundBid this env id bid w = .ok (bid', w') ∧
      w.token.balance this ≤ w'.token.balance this + bid.collateralLocked := by
  unfold refundBid
  split_ifs with hlive
  · obtain ⟨w₁, hpay, hleft⟩ := pay_succeeds w id bid.agent hanswer hcovered
    simp only [hpay, ok_bind, pure_eq_ok, Prod.mk.injEq]
    exact ⟨_, _, ⟨rfl, rfl⟩, hleft⟩
  · exact ⟨bid, w, rfl, Nat.le_add_right _ _⟩

theorem refundBids_succeeds (id : ℕ) (bids : List SubBid)
    (hanswer : env.transferAnswer = Hts.HTS_SUCCESS)
    (hcovered : (bids.map SubBid.collateralLocked).sum ≤ w.token.balance this) :
    ∃ bids' w', refundBids this env id bids w = .ok (bids', w') ∧
      w.token.balance this ≤ w'.token.balance this + (bids.map SubBid.collateralLocked).sum := by
  induction bids generalizing w with
  | nil => exact ⟨[], w, rfl, Nat.le_add_right _ _⟩
  | cons bid bids ih =>
    rw [List.map_cons, List.sum_cons] at hcovered ⊢
    obtain ⟨bid', w₁, hfirst, hleft⟩ := refundBid_succeeds id bid hanswer
      (show bid.collateralLocked ≤ w.token.balance this by omega)
    have hrest : (bids.map SubBid.collateralLocked).sum ≤ w₁.token.balance this := by omega
    obtain ⟨bids', w₂, hloop, hleft'⟩ := ih hrest
    refine ⟨bid' :: bids', w₂, ?_, by omega⟩
    simp only [refundBids, hfirst, hloop, ok_bind]
    rfl

theorem takeSelectedBid_succeeds {s : State} {id : ℕ} (h : HasContractor s id) :
    ∃ i b, (s.subBids id)[i]? = some b ∧
      takeSelectedBid id (s.subJobs id) s =
        .ok (b, s.setSubBids id ((s.subBids id).set i b.settle)) := by
  obtain ⟨i, b, hfound, hi, -⟩ := h
  have hget : (s.subBids id).getD i SubBid.zero = b := by
    rw [List.getD_eq_getElem?_getD, hi, Option.getD_some]
  refine ⟨i, b, hi, ?_⟩
  simp only [takeSelectedBid, hfound, require_of, ok_bind, hget]
  rfl

theorem owed_of_selected {id : ℕ} {b : SubBid} {s : State} (hb : (books w).Sound this)
    (hbusy : (w.state.subJobs id).status.Busy)
    (h : takeSelectedBid id (w.state.subJobs id) w.state = .ok (b, s)) :
    b.proposedPrice + b.collateralLocked ≤ (w.state.file id).owed := by
  obtain ⟨i, hi, hselected, -⟩ := takeSelectedBid_ok h
  have hmoved := (hb.files id).owed_settle .accepted hbusy (.inl rfl) hi hselected
  change _ = (w.state.file id).owed at hmoved
  omega

/-! ## The calls -/

/-- A sub-job that was posted, in a contract that is not paused, holds what it owes, and knows the main
auction. -/
structure Settleable (this : Address) (id : ℕ) (w : World State) : Prop where
  sound : (books w).Sound this
  covered : (books w).owed + selfPaid this (books w).transfers ≤ w.token.balance this
  running : w.state.paused = false
  mainAuction : w.state.mainAuction ≠ 0
  posted : (w.state.subJobs id).subJobId ≠ 0

/-- The outside conditions of a call: no HBAR is sent, HTS takes the transfers, and the main auction answers
with its orchestrator. -/
structure Serves (orchestrator : Address) (env : Env) : Prop where
  value : env.value = 0
  answer : env.transferAnswer = Hts.HTS_SUCCESS
  orchestrator : env.orchestrator = some orchestrator

/-- The sub-job has ended, and everything that was paid in for it was paid out. -/
def SettledOut (this : Address) (s : State) (id : ℕ) : Prop :=
  (s.subJobs id).status.Ended ∧ PaidOut this s id

namespace Settleable

theorem file_covered {id : ℕ} (h : Settleable this id w) :
    (w.state.file id).owed ≤ w.token.balance this := by
  have hle := file_owed_le h.sound id
  have hall := h.covered
  omega

theorem settledOut {id : ℕ} {op : BookOp} (h : Settleable this id w)
    (hstep : BookStep this (books w) op (books w')) (hended : (w'.state.subJobs id).status.Ended) :
    SettledOut this w'.state id := ⟨hended, paidOut_of_sound (h.sound.step hstep) hended⟩

theorem onState {id : ℕ} {op : SubOp} {s' : State} (h : Settleable this id w)
    (hstep : BookStep this (books w) (.job id op) (s'.books w.token)) (hpaused : s'.paused = w.state.paused)
    (hauction : s'.mainAuction = w.state.mainAuction) :
    Settleable this id { w with state := s' } := by
  constructor
  case sound => exact h.sound.step hstep
  case covered => exact hstep.covered h.sound h.covered
  case running => exact hpaused.trans h.running
  case mainAuction => exact ne_of_eq_of_ne hauction h.mainAuction
  case posted => exact of_decide_eq_true hstep.of_job.posted

theorem cancel (h : Settleable this subJobId w) {orchestrator : Address} (henv : Serves orchestrator env)
    (hsender : env.sender = (w.state.subJobs subJobId).requester)
    (hopen : (w.state.subJobs subJobId).status = .opened) :
    ∃ w', exec this env (.cancelSubAuction subJobId) w = .ok w' ∧ SettledOut this w'.state subJobId := by
  -- The payment and the collateral are what is owed.
  have howed : (w.state.file subJobId).owed = (w.state.subJobs subJobId).paymentAmount +
      ((w.state.subBids subJobId).map SubBid.collateralLocked).sum := by
    have hrunning : ¬ (w.state.file subJobId).status.Ended := by
      change ¬ (w.state.subJobs subJobId).status.Ended
      rw [hopen]
      decide
    unfold SubJobFile.owed
    rw [if_neg hrunning]
    rfl
  have hcovered := h.file_covered
  have hbids : ((w.state.subBids subJobId).map SubBid.collateralLocked).sum ≤ w.token.balance this := by
    omega
  obtain ⟨bids, w₁, hloop, hleft⟩ := refundBids_succeeds subJobId (w.state.subBids subJobId) henv.answer hbids
  have hrest : (w.state.subJobs subJobId).paymentAmount ≤ w₁.token.balance this := by omega
  obtain ⟨w₂, hpayment, -⟩ := pay_succeeds w₁ subJobId (w.state.subJobs subJobId).requester henv.answer hrest
  have hcall : ∃ w', cancelSubAuction this env subJobId w = .ok w' ∧
      (w'.state.subJobs subJobId).status = .cancelled := by
    simp only [cancelSubAuction, whenNotPaused, getExistingSubJob, modifier_of h.running,
      require_of h.posted, require_of hsender, require_of hopen, ok_bind, hloop, hpayment, pure,
      Except.pure]
    refine ⟨_, rfl, ?_⟩
    simp only [State.emit_subJobs, State.setSubJob_subJobs, Function.update_self]
  obtain ⟨w', hcancel, hstatus⟩ := hcall
  refine ⟨w', ?_, h.settledOut (cancelSubAuction_ok hcancel) (.inr (.inr hstatus))⟩
  unfold exec
  rw [if_neg (not_not.mpr henv.value)]
  exact hcancel

theorem deliver (h : Settleable this subJobId w) {orchestrator : Address} (henv : Serves orchestrator env)
    {resultHash : UInt 256} (hhash : resultHash ≠ 0)
    (hsender : env.sender = (w.state.subJobs subJobId).selectedAgent)
    (hprogress : (w.state.subJobs subJobId).status = .inProgress)
    (htime : env.timestamp ≤ (w.state.subJobs subJobId).slaDeadline) :
    ∃ w', exec this env (.deliverResult subJobId resultHash) w = .ok w' ∧ Settleable this subJobId w' ∧
      w'.state.subJobs subJobId = { w.state.subJobs subJobId with
        resultHash := resultHash
        status := .delivered } := by
  have hcall : ∃ s', deliverResult env subJobId resultHash w.state = .ok s' ∧
      s'.paused = w.state.paused ∧ s'.mainAuction = w.state.mainAuction ∧
      s'.subJobs subJobId = { w.state.subJobs subJobId with
        resultHash := resultHash
        status := .delivered } := by
    -- Every `require` is met.
    simp only [deliverResult, whenNotPaused, getExistingSubJob, modifier_of h.running,
      require_of h.posted, require_of hsender, require_of hprogress, require_of htime, require_of hhash,
      ok_bind, pure, Except.pure]
    refine ⟨_, rfl, rfl, rfl, ?_⟩
    simp only [State.emit_subJobs, State.setSubJob_subJobs, Function.update_self]
  obtain ⟨s', hdeliver, hpaused, hauction, hjob⟩ := hcall
  refine ⟨{ w with state := s' }, ?_, h.onState (deliverResult_ok w.token hdeliver) hpaused hauction, hjob⟩
  unfold exec
  rw [if_neg (not_not.mpr henv.value)]
  exact onState_eq_ok.mpr ⟨s', hdeliver, rfl⟩

theorem dispute (h : Settleable this subJobId w) {orchestrator : Address} (henv : Serves orchestrator env)
    {reason : String} (hreason : 0 < reason.utf8ByteSize)
    (hsender : env.sender = (w.state.subJobs subJobId).requester)
    (hdelivered : (w.state.subJobs subJobId).status = .delivered) :
    ∃ w', exec this env (.disputeResult subJobId reason) w = .ok w' ∧ Settleable this subJobId w' ∧
      w'.state.subJobs subJobId = { w.state.subJobs subJobId with status := .disputed } := by
  have hcall : ∃ s', disputeResult env subJobId reason w.state = .ok s' ∧
      s'.paused = w.state.paused ∧ s'.mainAuction = w.state.mainAuction ∧
      s'.subJobs subJobId = { w.state.subJobs subJobId with status := .disputed } := by
    simp only [disputeResult, whenNotPaused, getExistingSubJob, modifier_of h.running,
      require_of h.posted, require_of hsender, require_of hdelivered, require_of hreason,
      ok_bind, pure, Except.pure]
    refine ⟨_, rfl, rfl, rfl, ?_⟩
    simp only [State.emit_subJobs, State.setSubJob_subJobs, Function.update_self]
  obtain ⟨s', hdispute, hpaused, hauction, hjob⟩ := hcall
  refine ⟨{ w with state := s' }, ?_, h.onState (disputeResult_ok w.token hdispute) hpaused hauction, hjob⟩
  unfold exec
  rw [if_neg (not_not.mpr henv.value)]
  exact onState_eq_ok.mpr ⟨s', hdispute, rfl⟩

theorem resolve (h : Settleable this subJobId w) {orchestrator : Address} (henv : Serves orchestrator env)
    (hzero : orchestrator ≠ 0) (hsender : env.sender = orchestrator)
    (hdisputed : (w.state.subJobs subJobId).status = .disputed) :
    ∃ w', exec this env (.resolveDispute subJobId true) w = .ok w' ∧
      SettledOut this w'.state subJobId := by
  obtain ⟨i, b, hi, htake⟩ := takeSelectedBid_succeeds
    (hasContractor_of_sound h.sound (.inr (.inr hdisputed)))
  -- The price and the collateral of the bid are what is owed.
  have howed := h.file_covered
  have hpays := owed_of_selected h.sound (.inr (.inr hdisputed)) htake
  obtain ⟨w₁, hpayment, hleft⟩ := pay_succeeds
    { w with state := w.state.setSubBids subJobId ((w.state.subBids subJobId).set i b.settle) }
    subJobId (w.state.subJobs subJobId).selectedAgent henv.answer
    (show b.proposedPrice ≤ w.token.balance this by omega)
  dsimp only at hleft
  have hrest : b.collateralLocked ≤ w₁.token.balance this := by omega
  obtain ⟨w₂, hcollateral, -⟩ := pay_succeeds w₁ subJobId (w.state.subJobs subJobId).selectedAgent
    henv.answer hrest
  have horchestrator : getMainAuctionOrchestrator env w.state = .ok orchestrator := by
    simp only [getMainAuctionOrchestrator, require_of h.mainAuction, henv.orchestrator, orRevert, ok_bind,
      require_of hzero]
    rfl
  have hcall : ∃ w', resolveDispute this env subJobId true w = .ok w' ∧
      (w'.state.subJobs subJobId).status = .accepted := by
    simp only [resolveDispute, settleDispute, whenNotPaused, getExistingSubJob, modifier_of h.running,
      require_of h.posted, horchestrator, require_of hsender, require_of hdisputed, htake, ok_bind,
      hpayment, hcollateral, if_true, pure, Except.pure]
    refine ⟨_, rfl, ?_⟩
    simp only [State.emit_subJobs, State.setSubJob_subJobs, Function.update_self]
  obtain ⟨w', hresolve, hstatus⟩ := hcall
  obtain ⟨_, hstep⟩ := resolveDispute_ok hresolve
  refine ⟨w', ?_, h.settledOut hstep (.inl hstatus)⟩
  unfold exec
  rw [if_neg (not_not.mpr henv.value)]
  exact hresolve

end Settleable

/-! ## What is open -/

/-- `getOpenSubAuctions`. -/
def getOpenSubAuctions (s : State) : Option (List ℕ) :=
  Counted.collectIds (fun id => (s.subJobs id).status = .opened) s.nextSubJobId

/-- The ids that were given are those of the sub-jobs that were posted. -/
def Books.Given (b : Books) : Prop := ∀ id, (b.files id).posted = true ↔ 0 < id ∧ id < b.nextSubJobId

theorem BookStep.given {b b' : Books} {op : BookOp} (hb : b.Sound this) (h : BookStep this b op b')
    (hgiven : b.Given) : b'.Given := by
  cases h with
  | configure => exact hgiven
  | @job i next op f token hid hstep hpay =>
    intro id
    have hfirst := hb.first
    dsimp only
    rcases eq_or_ne id i with rfl | hne
    · rw [Function.update_self]
      refine iff_of_true hstep.posted ?_
      rcases hid with ⟨hposted, rfl⟩ | ⟨rfl, rfl⟩
      · exact (hgiven id).mp hposted
      · omega
    · rw [Function.update_of_ne hne, hgiven id]
      rcases hid with ⟨-, rfl⟩ | ⟨rfl, rfl⟩
      · rfl
      · omega

theorem reachable_given (hw : (contract this).system.Reachable w) : (books w).Given := by
  refine Reachable.induct (I := fun w => (books w).Given) ?_ ?_ hw
  · intro w h
    obtain ⟨deployer, guardToken, agentRegistry, mainAuction, treasury, hstate⟩ :=
      fresh_state_eq (show (contract this).fresh w.state from h)
    intro id
    rw [books, hstate]
    exact iff_of_false Bool.false_ne_true fun hid => absurd hid.2 (Nat.not_lt.mpr hid.1)
  · intro w l w' hw hgiven hstep
    cases hstep with
    | elsewhere => exact hgiven
    | @call env c w w' hs h0 ht h =>
      change (books w').Given
      rcases exec_ok (reachable_sound hw) hs h with ⟨op, -, hbook⟩ | ⟨-, hsame⟩
      · exact hbook.given (reachable_sound hw) hgiven
      · rw [hsame]
        exact hgiven

/-- In every reachable state the view of the open sub-auctions does not revert. It returns the ids of exactly the
sub-jobs that exist and are open, in ascending order, and the contract holds the payments and the collateral of all of
them together. -/
theorem getOpenSubAuctions_exact (hw : (contract this).system.Reachable w) : ∃ openIds,
    getOpenSubAuctions w.state = some openIds ∧ openIds.Pairwise (· < ·) ∧
    (∀ id, id ∈ openIds ↔ (w.state.subJobs id).subJobId ≠ 0 ∧ (w.state.subJobs id).status = .opened) ∧
    (openIds.map fun id => (w.state.subJobs id).paymentAmount +
      ((w.state.subBids id).map SubBid.collateralLocked).sum).sum ≤ w.token.balance this := by
  obtain ⟨openIds, hcollect, hsorted, hids⟩ := Counted.exists_collectIds
    (fun id => (w.state.subJobs id).status = .opened) w.state.nextSubJobId
  refine ⟨openIds, hcollect, hsorted, fun id => ?_, ?_⟩
  · have hgiven := reachable_given hw id
    rw [hids, ← and_assoc]
    exact and_congr (hgiven.symm.trans decide_eq_true_iff) decide_eq_true_iff
  · rw [← List.sum_toFinset _ (hsorted.imp ne_of_lt)]
    have hcovered := reachable_covered hw
    have howed : ∑ id ∈ openIds.toFinset, ((w.state.subJobs id).paymentAmount +
        ((w.state.subBids id).map SubBid.collateralLocked).sum) ≤ (books w).owed := by
      refine (Finset.sum_le_sum fun id hid => ?_).trans (Finset.sum_le_sum_of_subset (f := fun id =>
        ((books w).files id).owed) fun id hid => ?_)
      · have hopen := of_decide_eq_true ((hids id).mp (List.mem_toFinset.mp hid)).2.2
        have hrunning : ¬ (w.state.file id).status.Ended := by simp [State.file, SubJobStatus.Ended, hopen]
        exact (Nat.add_le_add_right (if_neg hrunning).ge _)
      · exact Finset.mem_range.mpr ((hids id).mp (List.mem_toFinset.mp hid)).2.1
    omega

/-- Of two sub-auctions one is cancelled, and the other one is open. -/
theorem getOpenSubAuctions_exact_cancelled : ∃ w, (contract 1).system.Reachable w ∧
    getOpenSubAuctions w.state = some [2] ∧ ([2].map fun id => (w.state.subJobs id).paymentAmount +
      ((w.state.subBids id).map SubBid.collateralLocked).sum).sum ≤ w.token.balance 1 := by
  obtain ⟨ts, w, hcalls, hr, -⟩ := sample_run
    [(sampleEnv 2 0, .createSubAuction 1 "fuzz the parser" "fuzzing" (100 * 10^8) 60 120),
      (sampleEnv 2 1, .createSubAuction 1 "fuzz the printer" "fuzzing" (100 * 10^8) 60 120),
      (sampleEnv 2 2, .cancelSubAuction 1)] (by decide) rfl
  obtain ⟨openIds, hids, -, -, hheld⟩ := getOpenSubAuctions_exact hr.reachable
  have hread := read_ok hcalls (fun w => getOpenSubAuctions w.state) (b := some [2]) rfl
  obtain rfl := Option.some.inj (hids.symm.trans hread)
  exact ⟨w, hr.reachable, hread, hheld⟩

end AuditGuard.SubAuction
