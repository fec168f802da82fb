import AuditGuard.PaymentSettlement.System

/-!
# PaymentSettlement: what the calls do

A settlement makes four passes over its line items: it prices them, pays them, adds up the fees and records
them. `Prices` is what the first pass finds, and the others are stated in its terms. `RecordStep` says what
a call that succeeds does to the records.
-/

namespace AuditGuard.PaymentSettlement

open Evm TransitionSystem

/-! ## The four passes -/

/-- What the line items come to, before fees. -/
def totalPayout (payments : List PaymentItem) : ℕ :=
  (payments.map fun item => item.basePayment + item.bonus).sum

/-- The fees are the report fees of the line items, one for each. -/
def Prices (env : Env) (s : State) (payments : List PaymentItem) (reportFees : List ℕ) : Prop :=
  List.Forall₂ (fun item fee => reportFee env item s = .ok fee) payments reportFees

/-- What is paid for the line items. -/
def netPayments (payments : List PaymentItem) (reportFees : List ℕ) : List (Address × ℕ) :=
  (payments.zip reportFees).map fun line =>
    (line.1.recipient, line.1.basePayment + line.1.bonus - line.2)

variable {this : Address} {env : Env} {s s' : State} {w w' : World State} {payments : List PaymentItem}
  {jobId : ℕ} {calculation : Calculation}

theorem calculateItems_ok {acc acc' : Totals}
    (h : payments.foldlM (calculateItem env s) acc = .ok acc') :
    ∃ reportFees, Prices env s payments reportFees ∧
      acc'.reportFees = acc.reportFees ++ reportFees ∧
      acc'.totalBase + acc'.totalBonus = acc.totalBase + acc.totalBonus + totalPayout payments ∧
      acc'.totalReportFees = acc.totalReportFees + reportFees.sum := by
  induction payments generalizing acc with
  | nil =>
    rw [List.foldlM_nil, pure_eq_ok] at h
    subst h
    exact ⟨[], .nil, by simp [totalPayout]⟩
  | cons item payments ih =>
    rw [List.foldlM_cons, bind_eq_ok] at h
    obtain ⟨acc₁, hitem, hrest⟩ := h
    simp only [calculateItem, bind_eq_ok, pure_eq_ok, checkedAdd_eq_ok] at hitem
    obtain ⟨_, -, _, -, _, -, base, ⟨-, rfl⟩, bonus, ⟨-, rfl⟩, fee, hfee, fees, ⟨-, rfl⟩, rfl⟩ := hitem
    obtain ⟨reportFees, hprices, hfees, htotal, hsum⟩ := ih hrest
    refine ⟨fee :: reportFees, .cons hfee hprices, ?_, ?_, ?_⟩
    · rw [hfees, List.append_assoc, List.singleton_append]
    · rw [htotal]
      simp only [totalPayout, List.map_cons, List.sum_cons]
      omega
    · rw [hsum, List.sum_cons, Nat.add_assoc]

theorem calculateSettlement_ok (h : calculateSettlement env payments s = .ok calculation) :
    Prices env s payments calculation.reportFees ∧
      calculation.totalPayout = totalPayout payments ∧
      calculation.totalReportFees = calculation.reportFees.sum ∧
      calculation.platformFee = totalPayout payments * s.platformFeePercent / 100 := by
  simp only [calculateSettlement, bind_eq_ok, pure_eq_ok, checkedAdd_eq_ok, checkedMul_eq_ok] at h
  obtain ⟨acc, hitems, _, ⟨-, rfl⟩, _, ⟨-, rfl⟩, rfl⟩ := h
  obtain ⟨reportFees, hprices, hfees, htotal, hsum⟩ := calculateItems_ok hitems
  rw [List.nil_append] at hfees
  rw [Nat.zero_add] at hsum
  simp only [Nat.zero_add] at htotal
  dsimp only
  rw [htotal, hfees]
  exact ⟨hprices, rfl, hsum, rfl⟩

theorem pay_ok {recipient : Address} {amount : ℕ} (h : pay this env recipient amount w = .ok w') :
    w.token.transfer this recipient amount = some w'.token ∧ w'.state = w.state := by
  unfold pay at h
  split_ifs at h with hpos
  · simp only [transferGuard, Hts.transfer_eq_ok] at h
    obtain ⟨-, token, htransfer, rfl⟩ := h
    exact ⟨htransfer, rfl⟩
  · rw [pure_eq_ok] at h
    subst h
    obtain rfl : amount = 0 := by omega
    exact ⟨Ledger.transfer_zero .., rfl⟩

theorem payItems_ok {lines : List (PaymentItem × ℕ)} (h : lines.foldlM (payItem this env) w = .ok w') :
    w.token.payAll this (lines.map fun line =>
      (line.1.recipient, line.1.basePayment + line.1.bonus - line.2)) = some w'.token ∧
    w'.state = w.state ∧ ∀ line ∈ lines, line.2 ≤ line.1.basePayment + line.1.bonus := by
  induction lines generalizing w with
  | nil =>
    rw [List.foldlM_nil, pure_eq_ok] at h
    subst h
    exact ⟨rfl, rfl, by simp⟩
  | cons line lines ih =>
    rw [List.foldlM_cons, bind_eq_ok] at h
    obtain ⟨w₁, hline, hrest⟩ := h
    simp only [payItem, bind_eq_ok, checkedAdd_eq_ok, checkedSub_eq_ok] at hline
    obtain ⟨_, ⟨-, rfl⟩, _, ⟨hcovered, rfl⟩, hpay⟩ := hline
    obtain ⟨htransfer, hstate⟩ := pay_ok hpay
    obtain ⟨hpaid, hstates, hall⟩ := ih hrest
    refine ⟨?_, hstates.trans hstate, ?_⟩
    · rw [List.map_cons, Ledger.payAll_cons, htransfer]
      exact hpaid
    · rw [List.forall_mem_cons]
      exact ⟨hcovered, hall⟩

theorem executeTransfers_ok {reportAgent : Address}
    (h : executeTransfers this env payments calculation reportAgent w = .ok w') :
    w.token.payAll this (netPayments payments calculation.reportFees ++
      [(reportAgent, calculation.totalReportFees), (w.state.treasury, calculation.platformFee)]) =
        some w'.token ∧
    w'.state = w.state ∧
    ∀ line ∈ payments.zip calculation.reportFees, line.2 ≤ line.1.basePayment + line.1.bonus := by
  simp only [executeTransfers, bind_eq_ok] at h
  obtain ⟨w₁, hitems, w₂, hreport, htreasury⟩ := h
  obtain ⟨hpaid, hstate₁, hall⟩ := payItems_ok hitems
  obtain ⟨htransfer₂, hstate₂⟩ := pay_ok hreport
  obtain ⟨htransfer₃, hstate₃⟩ := pay_ok htreasury
  refine ⟨?_, hstate₃.trans (hstate₂.trans hstate₁), hall⟩
  rw [hstate₂, hstate₁] at htransfer₃
  rw [Ledger.payAll_append]
  unfold netPayments
  rw [hpaid, Option.bind_some, Ledger.payAll_cons, htransfer₂, Option.bind_some, Ledger.payAll_cons,
    htransfer₃]
  rfl

theorem settleJob_ok {reportAgent : Address}
    (h : settleJob this env jobId payments reportAgent w = .ok w') :
    ∃ calculation w₁ s, calculateSettlement env payments w.state = .ok calculation ∧
      executeTransfers this env payments calculation reportAgent w = .ok w₁ ∧
      recordSettlement env jobId payments calculation w.state = .ok (w.state.nextSettlementId, s) ∧
      env.sender = w.state.orchestrator ∧ w.state.jobToSettlement jobId = 0 ∧
      env.completeJob jobId = .ok () ∧ w'.token = w₁.token ∧
      ∃ e, w'.state = s.emit e := by
  simp only [settleJob, onlyOrchestrator, validateJobForSettlement, bind_eq_ok, pure_eq_ok,
    require_eq_ok, Prod.exists] at h
  obtain ⟨_, hsender, _, -, _, ⟨_, -, _, -, hunsettled⟩, _, -, _, -, calculation, hcalculation, w₁,
    htransfers, settlementId, s, hrecord, _, hcomplete, _, -, rfl⟩ := h
  obtain ⟨-, hstate, -⟩ := executeTransfers_ok htransfers
  rw [hstate] at hrecord
  have hid : settlementId = w.state.nextSettlementId := by
    simp only [recordSettlement, bind_eq_ok, pure_eq_ok, Prod.mk.injEq] at hrecord
    obtain ⟨_, -, _, -, rfl, -⟩ := hrecord
    rfl
  rw [hid] at hrecord
  exact ⟨calculation, w₁, s, hcalculation, htransfers, hrecord, hsender, hunsettled, hcomplete, rfl, _, rfl⟩

/-! ## The records -/

/-- What the contract keeps about settlements. -/
structure Records where
  nextSettlementId : ℕ
  settlements : ℕ → SettlementRecord
  jobToSettlement : ℕ → ℕ
  settlementPayments : ℕ → List PaymentItem

/-- The records in the contract's state. -/
def records (s : State) : Records :=
  ⟨s.nextSettlementId, s.settlements, s.jobToSettlement, s.settlementPayments⟩

/-- Adds a settlement. -/
def Records.push (r : Records) (record : SettlementRecord) (items : List PaymentItem) : Records where
  nextSettlementId := r.nextSettlementId + 1
  settlements := Function.update r.settlements r.nextSettlementId record
  jobToSettlement := r.jobToSettlement
  settlementPayments := Function.update r.settlementPayments r.nextSettlementId
    (r.settlementPayments r.nextSettlementId ++ items)

/-- Links a job to its settlement. -/
def Records.link (r : Records) (jobId settlementId : ℕ) : Records :=
  { r with jobToSettlement := Function.update r.jobToSettlement jobId settlementId }

/-- The call settles a job or logs a sub-job. -/
def Call.Settles : Call → Prop
  | .settleJob .. => True
  | .settleSubJob _ => True
  | _ => False

/-- What a call does to the records, and who may make it. -/
inductive RecordStep (env : Env) (s : State) : Call → Records → Prop
  | job {jobId : UInt 256} {payments : List ItemArg} {reportAgent : Address} {reportFees : List ℕ}
      (hsender : env.sender = s.orchestrator) (hunsettled : s.jobToSettlement jobId = 0)
      (hcomplete : env.completeJob jobId = .ok ())
      (hprices : Prices env s (payments.map ItemArg.toItem) reportFees) :
      RecordStep env s (.settleJob jobId payments reportAgent) (((records s).push {
        settlementId := s.nextSettlementId
        jobId := jobId
        totalDisbursed := totalPayout (payments.map ItemArg.toItem) +
          totalPayout (payments.map ItemArg.toItem) * s.platformFeePercent / 100
        platformFeeCollected := totalPayout (payments.map ItemArg.toItem) * s.platformFeePercent / 100
        reportFeesCollected := reportFees.sum
        recipientCount := payments.length
        settledAt := env.timestamp
        successful := true } (breakdown (payments.map ItemArg.toItem) reportFees)).link jobId
          s.nextSettlementId)
  | subJob {subJobId : UInt 256} {subJob : SubAuction.SubJob} {item : PaymentItem}
      (hsender : env.sender = s.orchestrator) (hget : env.getSubJob subJobId = .ok subJob)
      (haccepted : subJob.status = .accepted) :
      RecordStep env s (.settleSubJob subJobId) ((records s).push {
        settlementId := s.nextSettlementId
        jobId := subJob.parentJobId
        totalDisbursed := subJob.paymentAmount
        platformFeeCollected := 0
        reportFeesCollected := 0
        recipientCount := 1
        settledAt := env.timestamp
        successful := true } [item])
  | idle {c : Call} (hc : ¬ c.Settles) : RecordStep env s c (records s)

theorem settleSubJob_ok {subJobId : UInt 256} (h : settleSubJob env subJobId s = .ok s') :
    RecordStep env s (.settleSubJob subJobId) (records s') := by
  simp only [settleSubJob, onlyOrchestrator, bind_eq_ok, pure_eq_ok, require_eq_ok,
    checkedAdd_eq_ok] at h
  obtain ⟨_, hsender, _, -, subJob, hget, _, haccepted, _, -, _, ⟨-, rfl⟩, rfl⟩ := h
  exact .subJob hsender hget haccepted

/-- Every call that succeeds makes such a step. -/
theorem exec_ok {c : Call} (h : exec this env c w = .ok w') :
    RecordStep env w.state c (records w'.state) := by
  unfold exec at h
  split_ifs at h
  cases c with
  | settleJob jobId payments reportAgent =>
    obtain ⟨calculation, w₁, s, hcalculation, -, hrecord, hsender, hunsettled, hcomplete, -, e, hstate⟩ :=
      settleJob_ok h
    obtain ⟨hprices, htotal, hfees, hfee⟩ := calculateSettlement_ok hcalculation
    simp only [recordSettlement, bind_eq_ok, pure_eq_ok, checkedAdd_eq_ok, Prod.mk.injEq] at hrecord
    obtain ⟨_, ⟨-, rfl⟩, _, ⟨-, rfl⟩, -, rfl⟩ := hrecord
    rw [hstate, htotal, hfees, hfee, List.length_map]
    exact .job hsender hunsettled hcomplete hprices
  | settleSubJob subJobId =>
    obtain ⟨s, hs, rfl⟩ := onState_eq_ok.mp h
    exact settleSubJob_ok hs
  -- The other calls leave the records alone.
  | depositSettlementFunds amount =>
    simp only [depositSettlementFunds, transferGuard, Hts.transfer_eq_ok, bind_eq_ok, pure_eq_ok] at h
    obtain ⟨_, -, _, -, _, ⟨-, token, -, rfl⟩, rfl⟩ := h
    exact .idle id
  | withdrawExcess amount =>
    simp only [withdrawExcess, transferGuard, Hts.transfer_eq_ok, bind_eq_ok, pure_eq_ok] at h
    obtain ⟨_, -, _, -, _, -, _, ⟨-, token, -, rfl⟩, rfl⟩ := h
    exact .idle id
  | associateGuardToken | renounceOwnership =>
    obtain ⟨s, hs, rfl⟩ := onState_eq_ok.mp h
    simp only [associateGuardToken, renounceOwnership, bind_eq_ok, pure_eq_ok] at hs
    obtain ⟨_, -, rfl⟩ := hs
    exact .idle id
  | setReportFees base discounted threshold =>
    obtain ⟨s, hs, rfl⟩ := onState_eq_ok.mp h
    simp only [setReportFees, bind_eq_ok, pure_eq_ok] at hs
    obtain ⟨_, -, _, -, _, -, rfl⟩ := hs
    exact .idle id
  | _ =>
    obtain ⟨s, hs, rfl⟩ := onState_eq_ok.mp h
    simp only [setOrchestrator, setTreasury, setMainAuction, setSubAuction, setBudgetVault,
      setAgentRegistry, setAddress, setPlatformFeePercent, pause, unpause, transferOwnership,
      bind_eq_ok, pure_eq_ok] at hs
    obtain ⟨_, -, _, -, rfl⟩ := hs
    exact .idle id

/-- Settlements are numbered from one, and what is not numbered yet is empty. -/
structure Records.Sound (r : Records) : Prop where
  pos : 0 < r.nextSettlementId
  empty : ∀ id, r.nextSettlementId ≤ id → r.settlementPayments id = []

theorem Records.Sound.push {r : Records} (h : r.Sound) (record : SettlementRecord)
    (items : List PaymentItem) : (r.push record items).Sound where
  pos := Nat.succ_pos _
  empty id hid := by
    have hne : id ≠ r.nextSettlementId := (Nat.lt_of_succ_le hid).ne'
    unfold Records.push
    dsimp only
    rw [Function.update_of_ne hne]
    exact h.empty id (Nat.le_of_succ_le hid)

theorem Records.Sound.link {r : Records} (h : r.Sound) (jobId settlementId : ℕ) :
    (r.link jobId settlementId).Sound := ⟨h.pos, h.empty⟩

theorem reachable_sound (hw : (contract this).system.Reachable w) : (records w.state).Sound := by
  refine hw.induct (I := fun w => (records w.state).Sound) ?_ ?_
  · intro w hfresh
    obtain ⟨deployer, guardToken, agentRegistry, mainAuction, subAuction, treasury, orchestrator,
      hstate⟩ := fresh_state_eq (show (contract this).fresh w.state from hfresh)
    rw [hstate]
    exact ⟨Nat.one_pos, fun _ _ => rfl⟩
  · intro w l w' _ hsound hstep
    cases hstep with
    | elsewhere _ _ => exact hsound
    | @call env c w w' hs h0 ht hexec =>
      have hstep := exec_ok (show exec this env c w = .ok w' from hexec)
      dsimp only
      generalize records w'.state = r at hstep ⊢
      cases hstep with
      | job => exact (hsound.push _ _).link _ _
      | subJob => exact hsound.push _ _
      | idle => exact hsound

/-! ## Tokens and the log -/

theorem spares : (contract this).Spares := by
  intro env c w w' hexec a hthis hsender
  have h : exec this env c w = .ok w' := hexec
  unfold exec at h
  split_ifs at h
  cases c with
  | settleJob jobId payments reportAgent =>
    obtain ⟨calculation, w₁, s, -, htransfers, -, -, -, -, htoken, -⟩ := settleJob_ok h
    obtain ⟨hpaid, -, -⟩ := executeTransfers_ok htransfers
    rw [htoken, Ledger.payAll_balance_other hpaid hthis]
    omega
  | depositSettlementFunds amount =>
    simp only [depositSettlementFunds, transferGuard, Hts.transfer_eq_ok, bind_eq_ok, pure_eq_ok] at h
    obtain ⟨_, -, _, -, _, ⟨-, token, hmove, rfl⟩, rfl⟩ := h
    exact Ledger.le_transfer_balance hmove hsender
  | withdrawExcess amount =>
    simp only [withdrawExcess, transferGuard, Hts.transfer_eq_ok, bind_eq_ok, pure_eq_ok] at h
    obtain ⟨_, -, _, -, _, -, _, ⟨-, token, hmove, rfl⟩, rfl⟩ := h
    exact Ledger.le_transfer_balance hmove hthis
  | _ =>
    obtain ⟨s, -, rfl⟩ := onState_eq_ok.mp h
    exact le_rfl

/-- The sub-job that an event logs. -/
def Event.subJob : Event → Option ℕ
  | .subJobSettled _ subJobId _ _ => some subJobId
  | _ => none

/-- The sub-jobs that the contract has logged, as often as it has. -/
def State.loggedSubJobs (s : State) : List ℕ := s.log.filterMap Event.subJob

/-- The sub-job that a call logs. -/
def Call.subJob : Call → Option ℕ
  | .settleSubJob subJobId => some subJobId
  | _ => none

theorem loggedSubJobs_emit (s : State) (e : Event) :
    (s.emit e).loggedSubJobs = s.loggedSubJobs ++ e.subJob.toList := by
  unfold State.loggedSubJobs State.emit
  rw [List.filterMap_append]
  cases h : e.subJob with
  | none => simp [h]
  | some subJobId => simp [h]

/-- Every call adds its sub-job to those that are logged. -/
theorem exec_logged {c : Call} (h : exec this env c w = .ok w') :
    w'.state.loggedSubJobs = w.state.loggedSubJobs ++ c.subJob.toList := by
  unfold exec at h
  split_ifs at h
  cases c with
  | settleJob jobId payments reportAgent =>
    simp only [settleJob, bind_eq_ok, pure_eq_ok, Prod.exists] at h
    obtain ⟨_, -, _, -, _, -, _, -, _, -, _, -, w₁, htransfers, id, s, hrecord, _, -, _, -, rfl⟩ := h
    -- The transfers move GUARD and log nothing for sub-jobs.
    obtain ⟨-, hsame, -⟩ := executeTransfers_ok htransfers
    rw [hsame] at hrecord
    simp only [recordSettlement, bind_eq_ok, pure_eq_ok, Prod.mk.injEq] at hrecord
    obtain ⟨_, -, _, -, -, rfl⟩ := hrecord
    rw [loggedSubJobs_emit]
    rfl
  | settleSubJob subJobId =>
    obtain ⟨s, hs, rfl⟩ := onState_eq_ok.mp h
    simp only [settleSubJob, bind_eq_ok, pure_eq_ok] at hs
    obtain ⟨_, -, _, -, subJob, -, _, -, _, -, _, -, rfl⟩ := hs
    rw [loggedSubJobs_emit]
    rfl
  | depositSettlementFunds amount =>
    simp only [depositSettlementFunds, transferGuard, Hts.transfer_eq_ok, bind_eq_ok, pure_eq_ok] at h
    obtain ⟨_, -, _, -, _, ⟨-, token, -, rfl⟩, rfl⟩ := h
    rw [loggedSubJobs_emit]
    rfl
  | withdrawExcess amount =>
    simp only [withdrawExcess, transferGuard, Hts.transfer_eq_ok, bind_eq_ok, pure_eq_ok] at h
    obtain ⟨_, -, _, -, _, -, _, ⟨-, token, -, rfl⟩, rfl⟩ := h
    rw [loggedSubJobs_emit]
    rfl
  | associateGuardToken | renounceOwnership =>
    obtain ⟨s, hs, rfl⟩ := onState_eq_ok.mp h
    simp only [associateGuardToken, renounceOwnership, bind_eq_ok, pure_eq_ok] at hs
    obtain ⟨_, -, rfl⟩ := hs
    exact (List.append_nil _).symm
  | setReportFees base discounted threshold =>
    obtain ⟨s, hs, rfl⟩ := onState_eq_ok.mp h
    simp only [setReportFees, bind_eq_ok, pure_eq_ok] at hs
    obtain ⟨_, -, _, -, _, -, rfl⟩ := hs
    exact (List.append_nil _).symm
  | _ =>
    obtain ⟨s, hs, rfl⟩ := onState_eq_ok.mp h
    simp only [setOrchestrator, setTreasury, setMainAuction, setSubAuction, setBudgetVault,
      setAgentRegistry, setAddress, setPlatformFeePercent, pause, unpause, transferOwnership,
      bind_eq_ok, pure_eq_ok] at hs
    obtain ⟨_, -, _, -, rfl⟩ := hs
    exact (List.append_nil _).symm

end AuditGuard.PaymentSettlement
