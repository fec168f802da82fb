import AuditGuard.PaymentSettlement.Effects

/-!
# PaymentSettlement: a settlement conserves money

The four passes of `settleJob` over its line items agree. What leaves the contract is the payout and the
platform fee that the record states; every account gets the sum over its line items, as they are recorded,
of what they are worth less the fee; the fees go to the report agent. No job is settled twice.
-/

namespace AuditGuard.PaymentSettlement

open Evm TransitionSystem

/-- A recorded line item is one of the manifest, with the fee that the settings and the recipient's
reputation give it, and that its worth covers. -/
structure RecordedAs (env : Env) (s : State) (item recorded : PaymentItem) : Prop where
  same : recorded = { item with reportFee := recorded.reportFee }
  fee : reportFee env item s = .ok recorded.reportFee
  covered : recorded.reportFee ≤ recorded.basePayment + recorded.bonus

/-- What a recorded line item pays. -/
def PaymentItem.net (item : PaymentItem) : ℕ := item.basePayment + item.bonus - item.reportFee

/-- What an account gets for its recorded line items. -/
def receipts (items : List PaymentItem) (a : Address) : ℕ :=
  (items.map fun item => if item.recipient = a then item.net else 0).sum

/-- The fees of the recorded line items. -/
def recordedFees (items : List PaymentItem) : ℕ := (items.map PaymentItem.reportFee).sum

/-- The platform fee on a manifest. -/
def platformFee (payments : List PaymentItem) (s : State) : ℕ :=
  totalPayout payments * s.platformFeePercent / 100

/-- Recipients, report agent and treasury are accounts other than the contract. -/
def Others (this : Address) (payments : List PaymentItem) (reportAgent : Address) (s : State) : Prop :=
  (∀ item ∈ payments, item.recipient ≠ this) ∧ reportAgent ≠ this ∧ s.treasury ≠ this

/-- What a settlement of a job did: to the records, to the contract's balance, and to all others. -/
structure Settled (this : Address) (env : Env) (jobId : ℕ) (payments : List PaymentItem)
    (reportAgent : Address) (w w' : World State) (id : ℕ) (items : List PaymentItem) : Prop where
  linked : w'.state.jobToSettlement jobId = id ∧ id ≠ 0
  record : w'.state.settlements id = {
    settlementId := id
    jobId := jobId
    totalDisbursed := totalPayout payments + platformFee payments w.state
    platformFeeCollected := platformFee payments w.state
    reportFeesCollected := recordedFees items
    recipientCount := payments.length
    settledAt := env.timestamp
    successful := true }
  stored : w'.state.settlementPayments id = items
  recorded : List.Forall₂ (RecordedAs env w.state) payments items
  outflow : Others this payments reportAgent w.state →
    w'.token.balance this + (w'.state.settlements id).totalDisbursed = w.token.balance this
  receipts : ∀ a ≠ this, w'.token.balance a = w.token.balance a + receipts items a +
    (if a = reportAgent then recordedFees items else 0) +
    (if a = w.state.treasury then platformFee payments w.state else 0)

/-- The transition settles the job. -/
def SettlesJob (jobId : ℕ) (tr : Transition (World State) (Label Env Call)) : Prop :=
  ∃ env id payments reportAgent, tr.label = .call env (.settleJob id payments reportAgent) ∧
    id.val = jobId

variable {this : Address} {env : Env} {s : State} {w w' : World State} {payments : List PaymentItem}
  {reportFees : List ℕ} {jobId : ℕ} {ts : List (Transition (World State) (Label Env Call))}

/-! ## The recorded line items -/

theorem netPayments_eq (payments : List PaymentItem) (reportFees : List ℕ) :
    netPayments payments reportFees =
      (breakdown payments reportFees).map fun item => (item.recipient, item.net) := by
  unfold netPayments breakdown
  rw [List.map_map]
  rfl

theorem recordedFees_breakdown (h : Prices env s payments reportFees) :
    recordedFees (breakdown payments reportFees) = reportFees.sum := by
  induction h with
  | nil => rfl
  | @cons item fee payments reportFees hfee hrest ih =>
    change fee + recordedFees (breakdown payments reportFees) = _
    rw [ih, List.sum_cons]

theorem net_add_fees (h : Prices env s payments reportFees)
    (hcovered : ∀ line ∈ payments.zip reportFees, line.2 ≤ line.1.basePayment + line.1.bonus) :
    ((breakdown payments reportFees).map PaymentItem.net).sum + reportFees.sum =
      totalPayout payments := by
  induction h with
  | nil => rfl
  | @cons item fee payments reportFees hfee hrest ih =>
    rw [List.zip_cons_cons, List.forall_mem_cons] at hcovered
    have htail := ih hcovered.2
    have hhead := hcovered.1
    dsimp only at hhead
    have hnet : ((breakdown (item :: payments) (fee :: reportFees)).map PaymentItem.net).sum =
        (item.basePayment + item.bonus - fee) +
          ((breakdown payments reportFees).map PaymentItem.net).sum := rfl
    rw [hnet, List.sum_cons]
    simp only [totalPayout, List.map_cons, List.sum_cons] at htail ⊢
    omega

theorem forall₂_recorded (h : Prices env s payments reportFees)
    (hcovered : ∀ line ∈ payments.zip reportFees, line.2 ≤ line.1.basePayment + line.1.bonus) :
    List.Forall₂ (RecordedAs env s) payments (breakdown payments reportFees) := by
  induction h with
  | nil => exact .nil
  | cons hfee hrest ih =>
    rw [List.zip_cons_cons, List.forall_mem_cons] at hcovered
    exact .cons ⟨rfl, hfee, hcovered.1⟩ (ih hcovered.2)

theorem recipient_of_netPayments {payment : Address × ℕ}
    (h : payment ∈ netPayments payments reportFees) : ∃ item ∈ payments, item.recipient = payment.1 := by
  obtain ⟨line, hline, rfl⟩ := List.mem_map.mp h
  exact ⟨line.1, (List.of_mem_zip hline).1, rfl⟩

theorem receipts_eq (items : List PaymentItem) (a : Address) :
    ((items.map fun item => (item.recipient, item.net)).map fun payment =>
      if payment.1 = a then payment.2 else 0).sum = receipts items a := by
  rw [List.map_map]
  rfl

/-! ## One settlement -/

theorem outflow_of_payAll {reportAgent : Address} {token token' : TokenLedger}
    (hprices : Prices env s payments reportFees)
    (hcovered : ∀ line ∈ payments.zip reportFees, line.2 ≤ line.1.basePayment + line.1.bonus)
    (hothers : Others this payments reportAgent s)
    (hpaid : token.payAll this (netPayments payments reportFees ++
      [(reportAgent, reportFees.sum), (s.treasury, platformFee payments s)]) = some token') :
    token'.balance this + (totalPayout payments + platformFee payments s) = token.balance this := by
  obtain ⟨hitems, hagent, htreasury⟩ := hothers
  have hbalance := Ledger.payAll_balance_src hpaid (by
    intro payment hpayment
    rcases List.mem_append.mp hpayment with hpayment | hpayment
    · obtain ⟨item, hitem, hrecipient⟩ := recipient_of_netPayments hpayment
      rw [← hrecipient]
      exact hitems item hitem
    · simp only [List.mem_cons, List.not_mem_nil, or_false] at hpayment
      rcases hpayment with rfl | rfl
      · exact hagent
      · exact htreasury)
  have hsum := net_add_fees hprices hcovered
  rw [netPayments_eq, List.map_append, List.sum_append, List.map_map] at hbalance
  change token'.balance this + (((breakdown payments reportFees).map PaymentItem.net).sum +
    (reportFees.sum + (platformFee payments s + 0))) = token.balance this at hbalance
  omega

theorem receipts_of_payAll {reportAgent a : Address} {token token' : TokenLedger}
    (hprices : Prices env s payments reportFees) (ha : a ≠ this)
    (hpaid : token.payAll this (netPayments payments reportFees ++
      [(reportAgent, reportFees.sum), (s.treasury, platformFee payments s)]) = some token') :
    token'.balance a = token.balance a + receipts (breakdown payments reportFees) a +
      (if a = reportAgent then recordedFees (breakdown payments reportFees) else 0) +
      (if a = s.treasury then platformFee payments s else 0) := by
  have hbalance := Ledger.payAll_balance_other hpaid ha
  rw [netPayments_eq, List.map_append, List.sum_append, receipts_eq] at hbalance
  rw [hbalance, recordedFees_breakdown hprices]
  simp only [List.map_cons, List.map_nil, List.sum_cons, List.sum_nil, @eq_comm _ a]
  omega

/-- A `settleJob` that succeeds settles the job. -/
theorem settled_of_exec {id : UInt 256} {payments : List ItemArg} {reportAgent : Address}
    (hsound : (records w.state).Sound)
    (h : exec this env (.settleJob id payments reportAgent) w = .ok w') :
    Settled this env id (payments.map ItemArg.toItem) reportAgent w w'
      (w'.state.jobToSettlement id)
      (w'.state.settlementPayments (w'.state.jobToSettlement id)) := by
  unfold exec at h
  split_ifs at h
  obtain ⟨calculation, w₁, s, hcalculation, htransfers, hrecord, -, -, -, htoken, e, hstate⟩ :=
    settleJob_ok h
  obtain ⟨hprices, htotal, hfees, hfee⟩ := calculateSettlement_ok hcalculation
  obtain ⟨hpaid, -, hcovered⟩ := executeTransfers_ok htransfers
  rw [hfees, hfee, ← htoken] at hpaid
  simp only [recordSettlement, bind_eq_ok, pure_eq_ok, checkedAdd_eq_ok, Prod.mk.injEq] at hrecord
  obtain ⟨_, ⟨-, rfl⟩, _, ⟨-, rfl⟩, -, rfl⟩ := hrecord
  -- The passes before the transfers computed what is recorded after them.
  have hid : w'.state.jobToSettlement id = w.state.nextSettlementId := by
    rw [hstate]
    exact Function.update_self ..
  have hitems : w'.state.settlementPayments w.state.nextSettlementId =
      breakdown (payments.map ItemArg.toItem) calculation.reportFees := by
    rw [hstate]
    have hempty : w.state.settlementPayments w.state.nextSettlementId = [] :=
      hsound.empty _ le_rfl
    dsimp only [State.emit]
    rw [Function.update_self, hempty, List.nil_append]
  have hsettlement : w'.state.settlements w.state.nextSettlementId = {
      settlementId := w.state.nextSettlementId
      jobId := id
      totalDisbursed := totalPayout (payments.map ItemArg.toItem) +
        platformFee (payments.map ItemArg.toItem) w.state
      platformFeeCollected := platformFee (payments.map ItemArg.toItem) w.state
      reportFeesCollected := recordedFees (breakdown (payments.map ItemArg.toItem)
        calculation.reportFees)
      recipientCount := (payments.map ItemArg.toItem).length
      settledAt := env.timestamp
      successful := true } := by
    rw [hstate, recordedFees_breakdown hprices]
    dsimp only [State.emit]
    rw [Function.update_self, htotal, hfees, hfee]
    rfl
  rw [hid, hitems]
  constructor
  case linked => exact ⟨hid, hsound.pos.ne'⟩
  case record => exact hsettlement
  case stored => exact hitems
  case recorded => exact forall₂_recorded hprices hcovered
  case outflow =>
    intro hothers
    rw [hsettlement]
    exact outflow_of_payAll hprices hcovered hothers hpaid
  case receipts =>
    intro a ha
    exact receipts_of_payAll hprices ha hpaid

/-! ## A whole run -/

theorem Step.keeps_settled {l : Label Env Call} (hw : (contract this).system.Reachable w)
    (h : (contract this).Step w l w') (hsettled : w.state.jobToSettlement jobId ≠ 0) :
    w'.state.jobToSettlement jobId ≠ 0 := by
  cases h with
  | elsewhere _ _ => exact hsettled
  | @call env c w w' hs h0 ht hexec =>
    have hstep := exec_ok (show exec this env c w = .ok w' from hexec)
    change (records w'.state).jobToSettlement jobId ≠ 0
    generalize records w'.state = r at hstep ⊢
    cases hstep with
    | @job id =>
      unfold Records.link Records.push
      dsimp only
      rcases eq_or_ne jobId id.val with rfl | hne
      · rw [Function.update_self]
        exact (reachable_sound hw).pos.ne'
      · rw [Function.update_of_ne hne]
        exact hsettled
    | subJob => exact hsettled
    | idle => exact hsettled

theorem Step.settles {l : Label Env Call} (hw : (contract this).system.Reachable w)
    (h : (contract this).Step w l w') (hsettles : SettlesJob jobId ⟨w, l, w'⟩) :
    w.state.jobToSettlement jobId = 0 ∧ w'.state.jobToSettlement jobId ≠ 0 := by
  obtain ⟨env, id, payments, reportAgent, rfl, rfl⟩ := hsettles
  cases h with
  | call hs h0 ht hexec =>
    have hcall : exec this env (.settleJob id payments reportAgent) w = .ok _ := hexec
    refine ⟨?_, (settled_of_exec (reachable_sound hw) hcall).linked.2⟩
    have hstep := exec_ok hcall
    generalize records _ = r at hstep
    cases hstep with
    | job hsender hunsettled => exact hunsettled
    | idle hc => exact absurd trivial hc

theorem pairwise_settles (hr : (contract this).system.Run ts w) :
    ts.Pairwise (fun tr tr' => ∀ jobId, SettlesJob jobId tr → ¬ SettlesJob jobId tr') ∧
      ∀ tr ∈ ts, ∀ jobId, SettlesJob jobId tr → w.state.jobToSettlement jobId ≠ 0 := by
  induction hr with
  | init _ => exact ⟨.nil, by simp⟩
  | @step ts w w' l hr h ih =>
    obtain ⟨hpairwise, hsettled⟩ := ih
    constructor
    · rw [List.pairwise_append]
      refine ⟨hpairwise, List.pairwise_singleton .., fun tr htr tr' htr' jobId hfirst hagain => ?_⟩
      rw [List.mem_singleton.mp htr'] at hagain
      exact hsettled tr htr jobId hfirst (Step.settles hr.reachable h hagain).1
    · intro tr htr jobId hsettles
      rcases List.mem_append.mp htr with htr | htr
      · exact Step.keeps_settled hr.reachable h (hsettled tr htr jobId hsettles)
      · rw [List.mem_singleton.mp htr] at hsettles
        exact (Step.settles hr.reachable h hsettles).2

/-- In every run: a `settleJob` that succeeds settles the job with all passes in agreement, no job is settled
twice, and a call that reverts changes no balance and no record. -/
theorem settlements_conserve (hr : (contract this).system.Run ts w) :
    (∀ tr ∈ ts, ∀ env id payments reportAgent,
      tr.label = .call env (.settleJob id payments reportAgent) →
      Settled this env id (payments.map ItemArg.toItem) reportAgent tr.src tr.dst
        (tr.dst.state.jobToSettlement id)
        (tr.dst.state.settlementPayments (tr.dst.state.jobToSettlement id))) ∧
    ts.Pairwise (fun tr tr' => ∀ jobId, SettlesJob jobId tr → ¬ SettlesJob jobId tr') ∧
    ∀ env c e, exec this env c w = .error e →
      ((contract this).attempt env c w).token = w.token ∧
        ((contract this).attempt env c w).state = w.state := by
  refine ⟨?_, (pairwise_settles hr).1, ?_⟩
  · rintro tr htr env id payments reportAgent hlabel
    obtain ⟨hsrc, hstep⟩ := hr.step_of_mem tr htr
    obtain ⟨src, label, dst⟩ := tr
    dsimp only at hlabel hsrc hstep ⊢
    subst hlabel
    cases hstep with
    | call hs h0 ht hexec =>
      have hcall : exec this env (.settleJob id payments reportAgent) src = .ok _ := hexec
      have hsettled := settled_of_exec (reachable_sound hsrc) hcall
      exact ⟨hsettled.linked, hsettled.record, hsettled.stored, hsettled.recorded, hsettled.outflow,
        hsettled.receipts⟩
  · -- A call that reverts is undone as a whole.
    intro env c e herror
    rw [Contract.attempt_of_error (C := contract this) herror]
    exact ⟨rfl, rfl⟩

/-! ## A settlement with repeated recipients -/

/-- The orchestrator funds the contract and settles a job: the agent 2 is paid twice, once with a fee, and the
agent 3, who is also the report agent, once. -/
def settlementCalls : List (Env × Call) :=
  [(sampleEnv 5 0, .depositSettlementFunds (1000 * 10^8)),
    (sampleEnv 5 1, .settleJob 1 [⟨2, 100 * 10^8, 5 * 10^8, 0, .mainAudit, "audit"⟩,
      ⟨2, 0, 20 * 10^8, 0, .bonusSpeed, "speed"⟩, ⟨3, 50 * 10^8, 0, 0, .subContract, "fuzzing"⟩] 3)]

/-- The law on the run with the repeated recipient. -/
theorem settlements_conserve_repeated : ∃ ts w, (contract 1).system.Run ts w ∧
    ((∀ tr ∈ ts, ∀ env id payments reportAgent,
      tr.label = .call env (.settleJob id payments reportAgent) →
      Settled 1 env id (payments.map ItemArg.toItem) reportAgent tr.src tr.dst
        (tr.dst.state.jobToSettlement id)
        (tr.dst.state.settlementPayments (tr.dst.state.jobToSettlement id))) ∧
    ts.Pairwise (fun tr tr' => ∀ jobId, SettlesJob jobId tr → ¬ SettlesJob jobId tr') ∧
    ∀ env c e, exec 1 env c w = .error e →
      ((contract 1).attempt env c w).token = w.token ∧
        ((contract 1).attempt env c w).state = w.state) ∧
    (w.state.settlements 1).totalDisbursed = 18375 * 10^6 := by
  obtain ⟨ts, w, hcalls, hr, -⟩ := sample_run settlementCalls (by decide) rfl
  refine ⟨ts, w, hr, settlements_conserve hr, ?_⟩
  exact read_ok hcalls (fun w => (w.state.settlements 1).totalDisbursed) (b := 18375 * 10^6)
    (by decide +kernel)

end AuditGuard.PaymentSettlement
