import AuditGuard.AuditAuction.Lifecycle

/-!
# AuditAuction: can a job be closed out?

`completeJob` asks that all winners are paid and the escrow is empty. A winner that was slashed before it
was paid has no accepted bid any more, so that `releaseEscrow` refuses it, and nothing else counts it as
paid. A job under way can be brought to its end exactly when no winner was slashed.
-/

namespace AuditGuard.AuditAuction

open Evm TransitionSystem

variable {this : Address} {env : Env} {w w' : World State}

/-! ## Slashed winners -/

/-- A winner lost its bid before it was paid. -/
def JobFile.Stuck (f : JobFile) : Prop :=
  ∃ b ∈ f.bids, b.agent ∈ f.winners ∧ f.paid b.agent = false ∧ b.status ≠ .accepted

theorem agent_ne_of_accepted {bids : List AgentBid} (hnodup : (bids.map AgentBid.agent).Nodup)
    {i : ℕ} {b bid : AgentBid} (hb : b ∈ bids) (hi : bids[i]? = some bid)
    (haccepted : bid.status = .accepted) (hlost : b.status ≠ .accepted) : b.agent ≠ bid.agent := by
  intro hagent
  rw [Keyed.record_unique hnodup hb (List.mem_of_getElem? hi) hagent] at hlost
  exact hlost haccepted

theorem JobStep.stuck {f f' : JobFile} {op : JobOp} (hsound : f.Sound this) (hstuck : f.Stuck)
    (h : JobStep this f op f') : f'.Stuck := by
  obtain ⟨b, hb, hwinner, hunpaid, hlost⟩ := hstuck
  have hended : f.status ≠ .auctionOpen := by
    intro hopen
    rw [(hsound.early (.inl hopen)).1] at hwinner
    cases hwinner
  cases h with
  | post => cases hb
  | bid _ hopen => exact absurd hopen hended
  | rebid _ hopen => exact absurd hopen hended
  | select _ hopen => exact absurd (hsound.isOpen hopen) hended
  | cancel _ hopen => exact absurd hopen hended
  | complete => exact ⟨b, hb, hwinner, hunpaid, hlost⟩
  | release _ _ _ hi haccepted =>
    have hne := agent_ne_of_accepted hsound.nodup hb hi haccepted hlost
    refine ⟨b, (Keyed.mem_set_iff hsound.nodup hi).mpr (.inr ⟨hb, hne⟩), hwinner, ?_, hlost⟩
    dsimp only
    rw [Function.update_of_ne hne]
    exact hunpaid
  | slash _ _ _ hi haccepted =>
    have hne := agent_ne_of_accepted hsound.nodup hb hi haccepted hlost
    exact ⟨b, (Keyed.mem_set_iff hsound.nodup hi).mpr (.inr ⟨hb, hne⟩), hwinner, hunpaid, hlost⟩

theorem JobFile.Sound.not_completed {f : JobFile} (hsound : f.Sound this) (hstuck : f.Stuck) :
    f.status ≠ .completed := by
  obtain ⟨b, -, hwinner, hunpaid, -⟩ := hstuck
  intro hcompleted
  have hpaid := (hsound.completed hcompleted).2 b.agent hwinner
  rw [hunpaid] at hpaid
  cases hpaid

/-! ## What the orchestrator can do -/

/-- The functions that settle a job. -/
def Call.Settles : Call → Prop
  | .releaseEscrow _ _ _ _ _ _ _ => True
  | .slashAgentBid _ _ _ => True
  | .completeJob _ => True
  | _ => False

/-- The orchestrator has a sequence of calls that brings the job to completion with its escrow distributed,
under the outside conditions `env`. -/
def CanClose (this : Address) (env : Env) (w : World State) (jobId : ℕ) : Prop :=
  ∃ calls : List Call, (∀ c ∈ calls, c.Settles) ∧
    ∃ w', (contract this).execAll (calls.map fun c => (env, c)) w = .ok w' ∧
      (w'.state.jobs jobId).status = .completed ∧ (w'.state.jobs jobId).totalEscrowedAmount = 0

/-- The outside conditions for calls of the orchestrator: no HBAR is sent, HTS takes the transfers, and the
agent registry is there. -/
structure Serves (w : World State) (env : Env) : Prop where
  value : env.value = 0
  sender : env.sender = w.state.orchestrator
  answer : env.transferAnswer = Hts.HTS_SUCCESS
  code : env.hasCode w.state.agentRegistry = true

theorem exec_settles_ok {c : Call} (hc : c.Settles) (h : exec this env c w = .ok w') :
    ∃ op, BookStep this (books w) op (books w') := by
  unfold exec at h
  split_ifs at h
  cases c with
  | releaseEscrow =>
    obtain ⟨b, -, hstep⟩ := releaseEscrow_ok h
    exact ⟨_, hstep⟩
  | slashAgentBid =>
    obtain ⟨b, slashed, -, hstep⟩ := slashAgentBid_ok h
    exact ⟨_, hstep⟩
  | completeJob =>
    rw [onState_eq_ok] at h
    obtain ⟨s, h, rfl⟩ := h
    exact ⟨_, completeJob_ok w.token h⟩
  | _ => cases hc

theorem execAll_stuck {calls : List Call} {jobId : ℕ} (hcalls : ∀ c ∈ calls, c.Settles)
    (hsound : (books w).Sound this) (hstuck : (w.state.file jobId).Stuck)
    (h : (contract this).execAll (calls.map fun c => (env, c)) w = .ok w') :
    (books w').Sound this ∧ (w'.state.file jobId).Stuck := by
  induction calls generalizing w with
  | nil =>
    rw [List.map_nil, Contract.execAll_nil] at h
    subst h
    exact ⟨hsound, hstuck⟩
  | cons c calls ih =>
    rw [List.map_cons, Contract.execAll_cons] at h
    obtain ⟨w₁, hexec, h⟩ := h
    rw [List.forall_mem_cons] at hcalls
    have hcall : exec this env c w = .ok w₁ := hexec
    obtain ⟨op, hstep⟩ := exec_settles_ok hcalls.1 hcall
    refine ih hcalls.2 ?_ ?_ h
    · exact hsound.step hstep
    · rcases hstep.file jobId with hsame | ⟨op, hjob⟩
      · exact (congrArg JobFile.Stuck hsame).mpr hstuck
      · exact hjob.stuck (hsound.files jobId) hstuck

theorem not_canClose_of_stuck {jobId : ℕ} (hsound : (books w).Sound this)
    (hstuck : (w.state.file jobId).Stuck) : ¬ CanClose this env w jobId := by
  rintro ⟨calls, hcalls, w', hall, hcompleted, -⟩
  obtain ⟨hsound', hstuck'⟩ := execAll_stuck hcalls hsound hstuck hall
  exact (hsound'.files jobId).not_completed hstuck' hcompleted

/-! ## Paying a winner -/

theorem pay_succeeds {token : TokenLedger} {amount : ℕ} (recipient : Address)
    (hanswer : env.transferAnswer = Hts.HTS_SUCCESS) (hcovered : amount ≤ token.balance this) :
    ∃ token', token.transfer this recipient amount = some token' ∧
      ∀ s now, pay this env recipient amount ⟨s, token, now⟩ = .ok ⟨s, token', now⟩ := by
  obtain ⟨token', hmoved⟩ := (token.transfer_isSome_iff this recipient amount).mpr hcovered
  refine ⟨token', hmoved, fun s now => ?_⟩
  unfold pay
  split_ifs with hpos
  · exact Hts.transfer_eq_ok.mpr ⟨hanswer, token', hmoved, rfl⟩
  · obtain rfl : amount = 0 := by omega
    rw [Ledger.transfer_zero] at hmoved
    rw [Option.some.inj hmoved]
    rfl

theorem tryRegistry_succeeds {s : State} {jobId : ℕ} {agent : Address} {c : RegistryCall}
    (hcode : env.hasCode s.agentRegistry = true) :
    ∃ s', tryRegistry env jobId agent c s = .ok s' := by
  unfold tryRegistry readRegistry
  rw [if_pos hcode, ok_bind]
  split
  · exact ⟨_, rfl⟩
  · exact ⟨_, rfl⟩

theorem releaseEscrow_succeeds {jobId i amount : ℕ} {bid : AgentBid} (henv : Serves w env)
    (hrunning : w.state.paused = false) (hexists : (w.state.jobs jobId).jobId ≠ 0)
    (hprogress : (w.state.jobs jobId).status = .auditingInProgress)
    (hnodup : ((w.state.jobBids jobId).map AgentBid.agent).Nodup)
    (hi : (w.state.jobBids jobId)[i]? = some bid) (haccepted : bid.status = .accepted)
    (hunpaid : w.state.isWinnerPaid jobId bid.agent = false)
    (hle : amount ≤ (w.state.jobs jobId).totalEscrowedAmount)
    (hcovered : amount + bid.collateralLocked ≤ w.token.balance this)
    (hfits : amount < 2^256) (hcount : w.state.paidWinnerCount jobId + 1 < 2^256) :
    ∃ w', releaseEscrow this env jobId bid.agent amount 0 0 0 0 w = .ok w' := by
  have hfind : findAccepted jobId bid.agent w.state = .ok (i, bid) := by
    have hget : (w.state.jobBids jobId).getD i AgentBid.zero = bid := by
      rw [List.getD_eq_getElem?_getD, hi, Option.getD_some]
    simp only [findAccepted, require_of hunpaid, ok_bind, findBidIndex_of_nodup hnodup hi, hget,
      require_of haccepted]
    rfl
  -- The two payments, one after the other.
  obtain ⟨token₁, hmoved, hpay₁⟩ := pay_succeeds bid.agent henv.answer
    (show amount ≤ w.token.balance this by omega)
  have hleft := Ledger.transfer_src_le hmoved
  obtain ⟨token₂, -, hpay₂⟩ := pay_succeeds bid.agent henv.answer
    (show bid.collateralLocked ≤ token₁.balance this by omega)
  simp only [releaseEscrow, onlyOrchestrator, whenNotPaused, requireInProgress, require_of henv.sender,
    modifier_of hrunning, require_of hexists, require_of (Or.inl hprogress), ok_bind, hfind,
    checkedAdd_of_lt (show amount + 0 < 2^256 from hfits), Nat.add_zero, require_of hle,
    checkedSub_of_le hle]
  rw [show w = ⟨w.state, w.token, w.now⟩ from rfl]
  simp only [hpay₁, ok_bind, hpay₂, State.setBids_paidWinnerCount, State.setJob_paidWinnerCount,
    checkedAdd_of_lt hcount, bind_eq_ok, pure_eq_ok]
  refine ⟨_, _, (tryRegistry_succeeds ?_).choose_spec, rfl⟩
  exact henv.code

theorem releaseEscrow_frame {jobId : ℕ} {agent : Address}
    {payment bonus validFindings falsePos falseNeg : ℕ}
    (h : releaseEscrow this env jobId agent payment bonus validFindings falsePos falseNeg w = .ok w') :
    w'.state.paused = w.state.paused ∧ w'.state.orchestrator = w.state.orchestrator ∧
      w'.state.agentRegistry = w.state.agentRegistry := by
  simp only [releaseEscrow, bind_eq_ok, pure_eq_ok, Prod.exists] at h
  obtain ⟨_, -, _, -, _, -, i, bid, -, _, -, _, -, w₁, hpayout, _, -, w₂, hback, _, -, s₃, htry, rfl⟩ := h
  obtain ⟨token₁, -, rfl⟩ := pay_ok hpayout
  obtain ⟨token₂, -, rfl⟩ := pay_ok hback
  obtain ⟨log, sent, -, rfl⟩ := tryRegistry_ok htry
  exact ⟨rfl, rfl, rfl⟩

theorem completeJob_succeeds {s : State} {jobId : ℕ} (hsender : env.sender = s.orchestrator)
    (hrunning : s.paused = false) (hexists : (s.jobs jobId).jobId ≠ 0)
    (hprogress : (s.jobs jobId).status = .auditingInProgress)
    (hwinners : 0 < (s.jobs jobId).winningAgents.length)
    (hcount : s.paidWinnerCount jobId = (s.jobs jobId).winningAgents.length)
    (hescrow : (s.jobs jobId).totalEscrowedAmount = 0) :
    ∃ s', completeJob env jobId s = .ok s' ∧ (s'.jobs jobId).status = .completed ∧
      (s'.jobs jobId).totalEscrowedAmount = 0 := by
  simp only [completeJob, onlyOrchestrator, whenNotPaused, requireInProgress, require_of hsender,
    modifier_of hrunning, require_of hexists, require_of (Or.inl hprogress), require_of hwinners,
    require_of hcount, require_of hescrow, ok_bind, pure_eq_ok]
  refine ⟨_, rfl, ?_, ?_⟩
  · simp [State.setJob, removeActiveJob, State.emit]
  · simp [State.setJob, removeActiveJob, State.emit, hescrow]

/-! ## Closing a job -/

/-- The winners that are not paid yet. -/
def JobFile.unpaid (f : JobFile) : Finset Address := f.winners.toFinset.filter fun a => f.paid a = false

/-- A job under way that the contract can pay out, and of which no winner was slashed. -/
structure Closable (this : Address) (env : Env) (jobId : ℕ) (w : World State) : Prop where
  sound : (books w).Sound this
  running : w.state.paused = false
  serves : Serves w env
  posted : (w.state.file jobId).posted = true
  progress : (w.state.jobs jobId).status = .auditingInProgress
  covered : (w.state.file jobId).owed ≤ w.token.balance this
  free : ¬ (w.state.file jobId).Stuck

theorem JobFile.Sound.paidCount_lt {f : JobFile} (h : f.Sound this) : f.paidCount + 1 < 2^256 := by
  have hle : f.paidCount ≤ Fintype.card Address := by
    rw [h.paidCount]
    exact Finset.card_le_univ _
  rw [Fintype.card_congr Address.equivFin, Fintype.card_fin] at hle
  have hlt : 2^160 + 1 < 2^256 := by norm_num
  omega

theorem JobStep.release_inv {f f' : JobFile} {payout : ℕ} {bid : AgentBid}
    (h : JobStep this f (.release bid payout) f') :
    ∃ i, f.bids[i]? = some bid ∧ bid.status = .accepted ∧ f' = { f with
      escrow := f.escrow - payout
      payouts := f.payouts + payout
      bids := f.bids.set i { bid with collateralLocked := 0 }
      paid := Function.update f.paid bid.agent true
      paidCount := f.paidCount + 1 } := by
  cases h with
  | @release _ i _ _ _ _ _ hi haccepted => exact ⟨i, hi, haccepted, rfl⟩

theorem JobStep.not_stuck {f f' : JobFile} {payout : ℕ} {bid : AgentBid} (hsound : f.Sound this)
    (hfree : ¬ f.Stuck) (h : JobStep this f (.release bid payout) f') : ¬ f'.Stuck := by
  obtain ⟨i, hi, haccepted, rfl⟩ := h.release_inv
  rintro ⟨c, hc, hwinner, hunpaid, hlost⟩
  rcases (Keyed.mem_set_iff hsound.nodup hi).mp hc with rfl | ⟨hc, hne⟩
  · exact hlost haccepted
  · dsimp only at hunpaid
    rw [Function.update_of_ne hne] at hunpaid
    exact hfree ⟨c, hc, hwinner, hunpaid, hlost⟩

theorem JobStep.unpaid {f f' : JobFile} {payout : ℕ} {bid : AgentBid}
    (h : JobStep this f (.release bid payout) f') : f'.unpaid = f.unpaid.erase bid.agent := by
  obtain ⟨i, hi, haccepted, rfl⟩ := h.release_inv
  unfold JobFile.unpaid
  ext a
  simp only [Finset.mem_filter, List.mem_toFinset, Finset.mem_erase]
  rcases eq_or_ne a bid.agent with rfl | hne
  · simp
  · simp [hne]

/-- An unpaid winner of a closable job can be paid any part of the escrow. -/
theorem Closable.release {jobId : UInt 256} (h : Closable this env jobId w) {a : Address}
    (ha : a ∈ (w.state.file jobId).unpaid) (amount : UInt 256)
    (hle : amount ≤ (w.state.jobs jobId).totalEscrowedAmount) :
    ∃ w', exec this env (.releaseEscrow jobId a amount 0 0 0 0) w = .ok w' ∧
      Closable this env jobId w' ∧
      (w'.state.file jobId).unpaid = (w.state.file jobId).unpaid.erase a ∧
      (w'.state.jobs jobId).winningAgents = (w.state.jobs jobId).winningAgents ∧
      (w'.state.jobs jobId).totalEscrowedAmount =
        (w.state.jobs jobId).totalEscrowedAmount - amount := by
  have hsound := h.sound.files jobId
  unfold JobFile.unpaid at ha
  rw [Finset.mem_filter, List.mem_toFinset] at ha
  obtain ⟨hwinner, hunpaid⟩ := ha
  obtain ⟨bid, hbid, rfl⟩ := hsound.winners_bid a hwinner
  -- An unpaid winner of a free job still has its bid accepted.
  have haccepted : bid.status = .accepted := by
    by_contra hlost
    exact h.free ⟨bid, hbid, hwinner, hunpaid, hlost⟩
  obtain ⟨i, hi⟩ := List.mem_iff_getElem?.mp hbid
  have hcollateral := Keyed.le_sum_map AgentBid.collateralLocked hbid
  -- What is paid is part of what is owed for the job.
  have hpays : amount + bid.collateralLocked ≤ w.token.balance this := by
    calc amount + bid.collateralLocked
        ≤ (w.state.file jobId).escrow + (w.state.file jobId).collateral := Nat.add_le_add hle hcollateral
      _ = (w.state.file jobId).owed := Nat.add_comm _ _
      _ ≤ w.token.balance this := h.covered
  obtain ⟨w', hexec⟩ := releaseEscrow_succeeds h.serves h.running (of_decide_eq_true h.posted)
    h.progress hsound.nodup hi haccepted hunpaid hle hpays amount.isLt hsound.paidCount_lt
  obtain ⟨hpaused, horchestrator, hregistry⟩ := releaseEscrow_frame hexec
  -- What the call did, read off the books.
  obtain ⟨b, hagent, hstep⟩ := releaseEscrow_ok hexec
  obtain ⟨hjob, token₁, htake, hpay⟩ := hstep.of_job
  have hstays := hjob.not_stuck hsound h.free
  have hunpaid' := hjob.unpaid
  have howed := hjob.owed w.state.treasury hsound
  have hspent := Ledger.payAll_src_le hpay
  obtain rfl := Option.some.inj htake
  obtain ⟨j, -, -, hfile⟩ := hjob.release_inv
  rw [hagent] at hunpaid'
  refine ⟨w', ?_, ?_, hunpaid', congrArg JobFile.winners hfile, congrArg JobFile.escrow hfile⟩
  · unfold exec
    rw [if_neg (not_not.mpr h.serves.value)]
    exact hexec
  · constructor
    · exact h.sound.step hstep
    · rw [hpaused]
      exact h.running
    · exact ⟨h.serves.value, by rw [horchestrator]; exact h.serves.sender, h.serves.answer,
        by rw [hregistry]; exact h.serves.code⟩
    · exact (congrArg JobFile.posted hfile).trans h.posted
    · exact (congrArg JobFile.status hfile).trans h.progress
    · have hcovered := h.covered
      change (w.state.file jobId).owed ≤ w.token.balance this at hcovered
      change (w'.state.file jobId).owed + _ = (w.state.file jobId).owed + 0 + 0 at howed
      change w.token.balance this ≤ w'.token.balance this + JobOp.outflow w.state.treasury _ at hspent
      omega
    · exact hstays

theorem Closable.at_time {jobId : ℕ} (h : Closable this env jobId w) (now : ℕ) :
    Closable this env jobId { w with now := now } :=
  ⟨h.sound, h.running, ⟨h.serves.value, h.serves.sender, h.serves.answer, h.serves.code⟩, h.posted,
    h.progress, h.covered, h.free⟩

theorem CanClose.cons {jobId : ℕ} {c : Call} {w₁ : World State} (hexec : exec this env c w = .ok w₁)
    (hc : c.Settles) (h : CanClose this env { w₁ with now := env.timestamp } jobId) :
    CanClose this env w jobId := by
  obtain ⟨calls, hcalls, w', hall, hclosed⟩ := h
  refine ⟨c :: calls, List.forall_mem_cons.mpr ⟨hc, hcalls⟩, w', ?_, hclosed⟩
  rw [List.map_cons, Contract.execAll_cons]
  exact ⟨w₁, hexec, hall⟩

theorem JobFile.Sound.paidCount_eq {f : JobFile} (h : f.Sound this) (hpaid : f.unpaid = ∅) :
    f.paidCount = f.winners.length := by
  have hsame : (Finset.univ.filter fun a => f.paid a = true) = f.winners.toFinset := by
    ext a
    rw [Finset.mem_filter, List.mem_toFinset]
    constructor
    · rintro ⟨-, ha⟩
      exact (h.paid a ha).1
    · intro ha
      refine ⟨Finset.mem_univ a, ?_⟩
      by_contra hnot
      have hmem : a ∈ f.unpaid :=
        Finset.mem_filter.mpr ⟨List.mem_toFinset.mpr ha, by simpa using hnot⟩
      rw [hpaid] at hmem
      cases hmem
  rw [h.paidCount, hsame, List.toFinset_card_of_nodup h.winners_nodup]

theorem Closable.complete {jobId : UInt 256} (h : Closable this env jobId w)
    (hwinners : 0 < (w.state.jobs jobId).winningAgents.length)
    (hpaid : (w.state.file jobId).unpaid = ∅) (hescrow : (w.state.jobs jobId).totalEscrowedAmount = 0) :
    CanClose this env w jobId := by
  obtain ⟨s, hexec, hstatus, hempty⟩ := completeJob_succeeds h.serves.sender h.running
    (of_decide_eq_true h.posted) h.progress hwinners ((h.sound.files jobId).paidCount_eq hpaid) hescrow
  have hcall : exec this env (.completeJob jobId) w = .ok { w with state := s } := by
    unfold exec
    rw [if_neg (not_not.mpr h.serves.value)]
    exact onState_eq_ok.mpr ⟨s, hexec, rfl⟩
  refine CanClose.cons hcall trivial ⟨[], ?_, _, Contract.execAll_nil.mpr rfl, hstatus, hempty⟩
  intro c hc
  cases hc

theorem Closable.canClose {jobId : UInt 256} (h : Closable this env jobId w)
    (hunpaid : (w.state.file jobId).unpaid.Nonempty) : CanClose this env w jobId := by
  -- All winners but the last are paid nothing, and the last one gets the whole escrow.
  induction hn : (w.state.file jobId).unpaid.card generalizing w with
  | zero =>
    rw [Finset.card_eq_zero] at hn
    rw [hn] at hunpaid
    exact absurd hunpaid Finset.not_nonempty_empty
  | succ n ih =>
    obtain ⟨a, ha⟩ := hunpaid
    rcases Nat.eq_zero_or_pos n with rfl | hpos
    · have hfits : (w.state.jobs jobId).totalEscrowedAmount < 2^256 := by
        have hcovered : _ + (w.state.jobs jobId).totalEscrowedAmount ≤ w.token.balance this := h.covered
        have hbalance := w.token.balance_lt this
        omega
      obtain ⟨w₁, hexec, h₁, hunpaid₁, hwinners₁, hescrow₁⟩ :=
        h.release ha ⟨(w.state.jobs jobId).totalEscrowedAmount, hfits⟩ le_rfl
      rw [Nat.sub_self] at hescrow₁
      have hnone : (w₁.state.file jobId).unpaid = ∅ := by
        rw [hunpaid₁, ← Finset.card_eq_zero, Finset.card_erase_of_mem ha, hn]
      have hwinner : a ∈ (w₁.state.jobs jobId).winningAgents := by
        rw [hwinners₁]
        exact List.mem_toFinset.mp (Finset.mem_filter.mp ha).1
      exact .cons hexec trivial
        ((h₁.at_time env.timestamp).complete (List.length_pos_of_mem hwinner) hnone hescrow₁)
    · obtain ⟨w₁, hexec, h₁, hunpaid₁, -, -⟩ := h.release ha 0 (Nat.zero_le _)
      have hcard : (w₁.state.file jobId).unpaid.card = n := by
        rw [hunpaid₁, Finset.card_erase_of_mem ha, hn]
        rfl
      have hmore : (w₁.state.file jobId).unpaid.Nonempty := by
        rw [← Finset.card_pos, hcard]
        exact hpos
      exact .cons hexec trivial (ih (h₁.at_time env.timestamp) hmore hcard)

/-! ## The exact condition -/

theorem posted_or_blank (hw : (contract this).system.Reachable w) (jobId : ℕ) :
    (w.state.file jobId).posted = true ∨ w.state.file jobId = JobFile.blank := by
  refine hw.induct (I := fun w => (w.state.file jobId).posted = true ∨
    w.state.file jobId = JobFile.blank) ?_ ?_
  · intro w hfresh
    obtain ⟨deployer, guardToken, agentRegistry, orchestrator, treasury, hstate⟩ :=
      fresh_state_eq (show (contract this).fresh w.state from hfresh)
    rw [hstate]
    exact .inr rfl
  · intro w l w' hw h hstep
    refine Step.keeps (P := fun f => f.posted = true ∨ f = JobFile.blank) ?_ hw hstep h
    intro f op f' _ hjob
    left
    cases hjob with
    | post => rfl
    | bid hposted | rebid hposted | select hposted | release hposted | slash hposted
    | complete hposted | cancel hposted => exact hposted

/-- A job under way with an unpaid winner, which the contract can pay out, can be brought to completion by
calls of the orchestrator exactly when the bids of all unpaid winners are still accepted. -/
theorem can_close_iff {jobId : UInt 256} (hw : (contract this).system.Reachable w)
    (hrunning : w.state.paused = false) (henv : Serves w env)
    (hprogress : (w.state.jobs jobId).status = .auditingInProgress)
    (hunpaid : ∃ a ∈ (w.state.jobs jobId).winningAgents, w.state.isWinnerPaid jobId a = false)
    (hcovered : ((w.state.jobBids jobId).map AgentBid.collateralLocked).sum +
      (w.state.jobs jobId).totalEscrowedAmount ≤ w.token.balance this) :
    CanClose this env w jobId ↔ ∀ b ∈ w.state.jobBids jobId,
      b.agent ∈ (w.state.jobs jobId).winningAgents → w.state.isWinnerPaid jobId b.agent = false →
        b.status = .accepted := by
  have hsound := reachable_sound hw
  constructor
  · intro hclose b hb hwinner hnot
    by_contra hlost
    exact not_canClose_of_stuck hsound ⟨b, hb, hwinner, hnot, hlost⟩ hclose
  · intro haccepted
    -- A job under way was posted, since a blank one is open.
    have hposted : (w.state.file jobId).posted = true := by
      refine (posted_or_blank hw jobId).resolve_right fun hblank => ?_
      have hopen : (w.state.jobs jobId).status = .auctionOpen := congrArg JobFile.status hblank
      rw [hprogress] at hopen
      cases hopen
    have hfree : ¬ (w.state.file jobId).Stuck := by
      rintro ⟨b, hb, hwinner, hnot, hlost⟩
      exact hlost (haccepted b hb hwinner hnot)
    obtain ⟨a, ha, hnot⟩ := hunpaid
    have hmem : a ∈ (w.state.file jobId).unpaid :=
      Finset.mem_filter.mpr ⟨List.mem_toFinset.mpr ha, hnot⟩
    exact Closable.canClose ⟨hsound, hrunning, henv, hposted, hprogress, hcovered, hfree⟩ ⟨a, hmem⟩

theorem stuck_forever {ls : List (Label Env Call)} {jobId : ℕ}
    (hw : (contract this).system.Reachable w) (hstuck : (w.state.file jobId).Stuck)
    (h : Path (contract this).Step w ls w') : (w'.state.jobs jobId).status ≠ .completed := by
  have hall : (contract this).system.Reachable w' ∧ (w'.state.file jobId).Stuck := by
    refine h.induct (P := fun w => (contract this).system.Reachable w ∧
      (w.state.file jobId).Stuck) ?_ ⟨hw, hstuck⟩
    rintro w l w' ⟨hw, hstuck⟩ hstep
    refine ⟨hw.step hstep, ?_⟩
    rcases Step.job hw hstep jobId with hsame | ⟨op, hjob⟩
    · rw [hsame]
      exact hstuck
    · exact hjob.stuck (file_sound hw jobId) hstuck
  exact (file_sound hall.1 jobId).not_completed hall.2

/-! ## A slashed winner -/

/-- The two jobs when the winner of the first one was just selected. -/
def selectedCalls : List (Env × Call) := twoJobsCalls.take 7

/-- The equivalence where the winner can be paid, and both sides hold. -/
theorem can_close_iff_selected : ∃ w, (contract 1).system.Reachable w ∧
    (CanClose 1 (sampleEnv 5 62) w 1 ↔ ∀ b ∈ w.state.jobBids 1,
      b.agent ∈ (w.state.jobs 1).winningAgents → w.state.isWinnerPaid 1 b.agent = false →
        b.status = .accepted) ∧
    CanClose 1 (sampleEnv 5 62) w 1 := by
  obtain ⟨ts, w, hcalls, hr, -⟩ := sample_run selectedCalls (by decide) rfl
  have hrunning := read_ok hcalls (fun w => w.state.paused) (b := false) rfl
  have hsender := read_ok hcalls (fun w => w.state.orchestrator) (b := 5) rfl
  have hprogress := read_ok hcalls (fun w => (w.state.jobs 1).status) (b := .auditingInProgress) rfl
  have hwinners := read_ok hcalls (fun w => (w.state.jobs 1).winningAgents) (b := [2]) rfl
  have hunpaid := read_ok hcalls (fun w => w.state.isWinnerPaid 1 2) (b := false) rfl
  have hcollateral := read_ok hcalls
    (fun w => ((w.state.jobBids 1).map AgentBid.collateralLocked).sum) (b := 50 * 10^8)
    (by decide +kernel)
  have hescrow := read_ok hcalls (fun w => (w.state.jobs 1).totalEscrowedAmount) (b := 95 * 10^8)
    (by decide +kernel)
  have hbalance := read_ok hcalls (fun w => w.token.balance 1) (b := 145 * 10^8) (by decide +kernel)
  have haccepted := of_decide_eq_true (read_ok hcalls (fun w => decide (∀ b ∈ w.state.jobBids 1,
    b.agent ∈ (w.state.jobs 1).winningAgents → w.state.isWinnerPaid 1 b.agent = false →
      b.status = .accepted)) (b := true) (by decide +kernel))
  -- The contract holds exactly the collateral and the escrow.
  have hpayable : ((w.state.jobBids 1).map AgentBid.collateralLocked).sum +
      (w.state.jobs 1).totalEscrowedAmount ≤ w.token.balance 1 := by omega
  have hwinner : (2 : Address) ∈ (w.state.jobs 1).winningAgents := by
    rw [hwinners]
    exact List.mem_singleton_self 2
  have hiff : CanClose 1 (sampleEnv 5 62) w (1 : UInt 256) ↔ _ :=
    can_close_iff hr.reachable hrunning ⟨rfl, hsender.symm, rfl, rfl⟩ hprogress
      ⟨2, hwinner, hunpaid⟩ hpayable
  exact ⟨w, hr.reachable, hiff, hiff.mpr haccepted⟩

/-- The winner of the first job is slashed. The contract could pay the whole escrow, but no calls of the
orchestrator bring the job to completion, nor do any other calls. -/
theorem slashed_winner_blocks_completion : ∃ w, (contract 1).system.Reachable w ∧
    w.state.paused = false ∧ Serves w (sampleEnv 5 63) ∧
    (w.state.jobs 1).status = .auditingInProgress ∧ (w.state.jobs 1).winningAgents = [2] ∧
    w.state.isWinnerPaid 1 2 = false ∧
    ((w.state.jobBids 1).map AgentBid.collateralLocked).sum + (w.state.jobs 1).totalEscrowedAmount ≤
      w.token.balance 1 ∧
    ¬ CanClose 1 (sampleEnv 5 63) w 1 ∧
    ∀ ls w', Path (contract 1).Step w ls w' → (w'.state.jobs 1).status ≠ .completed := by
  obtain ⟨ts, w, hcalls, hr, -⟩ := sample_run (selectedCalls ++ [(sampleEnv 5 62, .slashAgentBid 1 2 500)])
    (by decide) rfl
  have hrunning := read_ok hcalls (fun w => w.state.paused) (b := false) rfl
  have hsender := read_ok hcalls (fun w => w.state.orchestrator) (b := 5) rfl
  have hprogress := read_ok hcalls (fun w => (w.state.jobs 1).status) (b := .auditingInProgress) rfl
  have hwinners := read_ok hcalls (fun w => (w.state.jobs 1).winningAgents) (b := [2]) rfl
  have hunpaid := read_ok hcalls (fun w => w.state.isWinnerPaid 1 2) (b := false) rfl
  have hcollateral := read_ok hcalls
    (fun w => ((w.state.jobBids 1).map AgentBid.collateralLocked).sum) (b := 0) (by decide +kernel)
  have hescrow := read_ok hcalls (fun w => (w.state.jobs 1).totalEscrowedAmount) (b := 95 * 10^8)
    (by decide +kernel)
  have hbalance := read_ok hcalls (fun w => w.token.balance 1) (b := 95 * 10^8) (by decide +kernel)
  -- The winner is not paid, and its bid is not accepted any more.
  have hlost := of_decide_eq_true (read_ok hcalls (fun w => decide (∃ b ∈ w.state.jobBids 1,
    b.agent ∈ (w.state.jobs 1).winningAgents ∧ w.state.isWinnerPaid 1 b.agent = false ∧
      b.status ≠ .accepted)) (b := true) (by decide +kernel))
  have hstuck : (w.state.file 1).Stuck := hlost
  refine ⟨w, hr.reachable, hrunning, ⟨rfl, hsender.symm, rfl, rfl⟩, hprogress, hwinners, hunpaid, ?_,
    not_canClose_of_stuck (reachable_sound hr.reachable) hstuck, ?_⟩
  · omega
  · intro ls w' hpath
    exact stuck_forever hr.reachable hstuck hpath

end AuditGuard.AuditAuction
