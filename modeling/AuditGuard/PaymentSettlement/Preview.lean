import AuditGuard.AgentRegistry.System
import AuditGuard.PaymentSettlement.Settlement

/-!
# PaymentSettlement: the preview of a settlement

`calculateSettlementPreview` has a loop of its own. It asks the registry for the reputation of every recipient,
and it knows no recipient that it refuses. Where `settleJob` succeeds, the two loops go through the line items
with the same totals, and the preview is what is recorded and transferred.
-/

namespace AuditGuard.PaymentSettlement

open Evm

/-- What the loop of `calculateSettlementPreview` has so far. -/
structure PreviewTotals where
  totalBase : ℕ
  totalBonus : ℕ
  totalReportFees : ℕ

/-- What `calculateSettlementPreview` returns. -/
structure Preview where
  totalPayout : ℕ
  platformFee : ℕ
  totalReportFees : ℕ
  totalDisbursed : ℕ
deriving DecidableEq

/-- The body of the loop of `calculateSettlementPreview`. -/
def previewItem (env : Env) (s : State) (acc : PreviewTotals) (item : PaymentItem) : Tx PreviewTotals := do
  let totalBase ← checkedAdd 256 acc.totalBase item.basePayment
  let totalBonus ← checkedAdd 256 acc.totalBonus item.bonus
  let agentReputation ← env.getAgentReputation item.recipient
  let fee := if s.reportFeeDiscountThreshold ≤ agentReputation then s.reportFeeDiscounted else s.reportFeeBase
  let totalReportFees ← (if item.paymentType = .mainAudit ∨ item.paymentType = .subContract ∨
      item.paymentType = .monitoringPayment ∨ item.paymentType = .bountyPayout
    then checkedAdd 256 acc.totalReportFees fee else pure acc.totalReportFees)
  pure ⟨totalBase, totalBonus, totalReportFees⟩

/-- `calculateSettlementPreview`. The job and the report agent are arguments that it does not read. -/
def calculateSettlementPreview (env : Env) (_jobId : ℕ) (payments : List PaymentItem) (_reportAgent : Address)
    (s : State) : Tx Preview := do
  let acc ← payments.foldlM (previewItem env s) ⟨0, 0, 0⟩
  let totalPayout ← checkedAdd 256 acc.totalBase acc.totalBonus
  let product ← checkedMul 256 totalPayout s.platformFeePercent
  let totalDisbursed ← checkedAdd 256 totalPayout (product / 100)
  pure ⟨totalPayout, product / 100, acc.totalReportFees, totalDisbursed⟩

/-- A call that finds the agent registry in a given state. -/
def Env.readRegistry (env : Env) (registry : AgentRegistry.State) : Env := { env with
  isActiveAgent := fun agent => .ok (AgentRegistry.isActiveAgent agent registry)
  getAgentReputation := fun agent => .ok (AgentRegistry.getAgentReputation agent registry) }

/-- What was recorded for the job, emitted and transferred is the preview. -/
structure Executed (this : Address) (jobId : ℕ) (payments : List PaymentItem) (reportAgent : Address)
    (w w' : World State) (p : Preview) : Prop where
  recorded : ∃ record, w'.state.settlements (w'.state.jobToSettlement jobId) = record ∧ record.jobId = jobId ∧
    record.totalDisbursed = p.totalDisbursed ∧ record.platformFeeCollected = p.platformFee ∧
    record.reportFeesCollected = p.totalReportFees
  emitted : w'.state.log = w.state.log ++ [.jobSettled (w'.state.jobToSettlement jobId) jobId p.totalDisbursed
    p.platformFee p.totalReportFees payments.length]
  /-- The recipients of the line items are paid the payout less the report fees, and all that is paid is what
  is disbursed. -/
  transferred : ∃ nets : List (Address × ℕ), nets.map Prod.fst = payments.map PaymentItem.recipient ∧
    (nets.map Prod.snd).sum + p.totalReportFees = p.totalPayout ∧
    ((nets ++ [(reportAgent, p.totalReportFees), (w.state.treasury, p.platformFee)]).map Prod.snd).sum =
      p.totalDisbursed ∧
    w.token.payAll this (nets ++ [(reportAgent, p.totalReportFees), (w.state.treasury, p.platformFee)]) =
      some w'.token

variable {this : Address} {env caller : Env} {registry : AgentRegistry.State} {s : State} {w w' : World State}
  {payments : List PaymentItem} {jobId : ℕ} {reportAgent : Address} {calculation : Calculation}

/-! ## The two loops -/

theorem foldlM_follows {σ τ α : Type} {R : σ → τ → Prop} {f : σ → α → Tx σ} {g : τ → α → Tx τ}
    {xs : List α} {a a' : σ} {b : τ}
    (hbody : ∀ a a' b x, R a b → f a x = .ok a' → ∃ b', g b x = .ok b' ∧ R a' b') (hR : R a b)
    (h : xs.foldlM f a = .ok a') : ∃ b', xs.foldlM g b = .ok b' ∧ R a' b' := by
  induction xs generalizing a b with
  | nil =>
    rw [List.foldlM_nil, pure_eq_ok] at h
    subst h
    exact ⟨b, rfl, hR⟩
  | cons x xs ih =>
    rw [List.foldlM_cons, bind_eq_ok] at h
    obtain ⟨a₁, hfirst, hrest⟩ := h
    obtain ⟨b₁, hfollows, hR₁⟩ := hbody a a₁ b x hR hfirst
    obtain ⟨b', hall, hR'⟩ := ih hR₁ hrest
    refine ⟨b', ?_, hR'⟩
    rw [List.foldlM_cons, hfollows]
    exact hall

/-- The totals of the two loops agree. -/
def Totals.Agrees (acc : Totals) (p : PreviewTotals) : Prop :=
  p = ⟨acc.totalBase, acc.totalBonus, acc.totalReportFees⟩

theorem previewItem_follows (caller : Env) (acc acc' : Totals) (p : PreviewTotals) (item : PaymentItem)
    (hagrees : acc.Agrees p)
    (h : calculateItem (env.readRegistry registry) s acc item = .ok acc') :
    ∃ p', previewItem (caller.readRegistry registry) s p item = .ok p' ∧ acc'.Agrees p' := by
  simp only [calculateItem, bind_eq_ok, pure_eq_ok] at h
  obtain ⟨_, -, _, -, _, -, base, hbase, bonus, hbonus, fee, hfee, fees, hfees, rfl⟩ := h
  rw [hagrees]
  refine ⟨⟨base, bonus, fees⟩, ?_, rfl⟩
  simp only [previewItem, bind_eq_ok, pure_eq_ok]
  refine ⟨base, hbase, bonus, hbonus, _, rfl, fees, ?_, rfl⟩
  unfold reportFee isReportFeeEligible at hfee
  simp only [decide_eq_true_eq] at hfee
  by_cases heligible : item.paymentType = .mainAudit ∨ item.paymentType = .subContract ∨
      item.paymentType = .monitoringPayment ∨ item.paymentType = .bountyPayout
  · -- Both compare the reputation that the registry has with the same threshold.
    rw [if_pos heligible] at hfee ⊢
    simp only [bind_eq_ok, pure_eq_ok] at hfee
    obtain ⟨reputation, hreputation, rfl⟩ := hfee
    cases hreputation
    exact hfees
  · rw [if_neg heligible] at hfee ⊢
    rw [pure_eq_ok] at hfee
    subst hfee
    rw [checkedAdd_eq_ok, Nat.add_zero] at hfees
    rw [hfees.2]
    rfl

theorem preview_of_calculateSettlement
    (h : calculateSettlement (env.readRegistry registry) payments s = .ok calculation) {disbursed : ℕ}
    (hdisbursed : checkedAdd 256 calculation.totalPayout calculation.platformFee = .ok disbursed) :
    calculateSettlementPreview (caller.readRegistry registry) jobId payments reportAgent s =
      .ok ⟨calculation.totalPayout, calculation.platformFee, calculation.totalReportFees, disbursed⟩ := by
  simp only [calculateSettlement, bind_eq_ok, pure_eq_ok] at h
  obtain ⟨acc, hitems, payout, hpayout, product, hproduct, rfl⟩ := h
  obtain ⟨p, hpreview, hagrees⟩ := foldlM_follows (R := Totals.Agrees) (a := ⟨[], 0, 0, 0⟩) (b := ⟨0, 0, 0⟩)
    (previewItem_follows caller) rfl hitems
  simp only [calculateSettlementPreview, bind_eq_ok, pure_eq_ok]
  rw [hagrees] at hpreview
  exact ⟨_, hpreview, payout, hpayout, product, hproduct, disbursed, hdisbursed, rfl⟩

/-! ## The settlement -/

theorem settleJob_event (h : settleJob this env jobId payments reportAgent w = .ok w')
    (hcalculation : calculateSettlement env payments w.state = .ok calculation) :
    ∃ disbursed, checkedAdd 256 calculation.totalPayout calculation.platformFee = .ok disbursed ∧
      w'.state.log = w.state.log ++ [.jobSettled w.state.nextSettlementId jobId disbursed calculation.platformFee
        calculation.totalReportFees payments.length] := by
  simp only [settleJob, bind_eq_ok, pure_eq_ok, Prod.exists] at h
  obtain ⟨_, -, _, -, _, -, _, -, _, -, calculation', hcalculation', w₁, htransfers, id, s, hrecord, _, -,
    disbursed, hdisbursed, rfl⟩ := h
  rw [hcalculation, Except.ok.injEq] at hcalculation'
  rw [← hcalculation'] at hdisbursed htransfers hrecord ⊢
  refine ⟨disbursed, hdisbursed, ?_⟩
  obtain ⟨-, hstate, -⟩ := executeTransfers_ok htransfers
  rw [hstate] at hrecord
  simp only [recordSettlement, bind_eq_ok, pure_eq_ok, Prod.mk.injEq] at hrecord
  obtain ⟨_, -, _, -, rfl, rfl⟩ := hrecord
  rfl

/-- The preview of a settlement that succeeds, by whoever asks for it, is what the settlement records, emits and
transfers. -/
theorem preview_executed
    (h : settleJob this (env.readRegistry registry) jobId payments reportAgent w = .ok w') (caller : Env) :
    ∃ p, calculateSettlementPreview (caller.readRegistry registry) jobId payments reportAgent w.state = .ok p ∧
      Executed this jobId payments reportAgent w w' p := by
  obtain ⟨calculation, w₁, s, hcalculation, htransfers, hrecord, -, -, -, htoken, e, hstate⟩ := settleJob_ok h
  obtain ⟨disbursed, hdisbursed, hlog⟩ := settleJob_event h hcalculation
  obtain ⟨hprices, htotal, hfees, hfee⟩ := calculateSettlement_ok hcalculation
  obtain ⟨hpaid, -, hcovered⟩ := executeTransfers_ok htransfers
  refine ⟨_, preview_of_calculateSettlement hcalculation hdisbursed, ?_⟩
  simp only [recordSettlement, bind_eq_ok, pure_eq_ok, Prod.mk.injEq] at hrecord
  obtain ⟨_, -, total, htotalDisbursed, -, rfl⟩ := hrecord
  have hsame : total = disbursed := by
    rw [hdisbursed, Except.ok.injEq] at htotalDisbursed
    exact htotalDisbursed.symm
  have hid : w'.state.jobToSettlement jobId = w.state.nextSettlementId := by
    rw [hstate]
    exact Function.update_self ..
  have hnets := net_add_fees hprices hcovered
  have hall : disbursed = calculation.totalPayout + calculation.platformFee :=
    (checkedAdd_eq_ok.mp hdisbursed).2.symm
  constructor
  case recorded =>
    rw [hid, hstate]
    exact ⟨_, Function.update_self .., rfl, hsame, rfl, rfl⟩
  case emitted =>
    rw [hid]
    exact hlog
  case transferred =>
    refine ⟨netPayments payments calculation.reportFees, ?_, ?_, ?_, ?_⟩
    · -- Every line item has a fee, so that none is left out.
      unfold netPayments
      have hfst := List.map_fst_zip hprices.length_eq.le
      rw [List.map_map]
      nth_rewrite 2 [← hfst]
      rw [List.map_map]
      rfl
    · rw [netPayments_eq, List.map_map, htotal, hfees]
      exact hnets
    · rw [netPayments_eq, List.map_append, List.sum_append, List.map_map]
      change ((breakdown payments calculation.reportFees).map PaymentItem.net).sum +
        (calculation.totalReportFees + (calculation.platformFee + 0)) = disbursed
      omega
    · rw [htoken]
      exact hpaid

/-! ## The preview of the sample settlement -/

/-- The registry with two agents, of which one has a high reputation. -/
def sampleRegistry : AgentRegistry.State := { AgentRegistry.State.fresh 9 7 with
  agents := fun agent =>
    if agent = 2 then { AgentRegistry.AgentProfile.zero with status := .active, reputationScore := 9000 }
    else if agent = 3 then { AgentRegistry.AgentProfile.zero with status := .active, reputationScore := 5000 }
    else AgentRegistry.AgentProfile.zero }

/-- The sample contract with the funds for a settlement. -/
def fundedWorld : World State := { sampleWorld with token := Ledger.single 1 (10^12) TokenLedger.trillion_lt }

/-- Payments of every kind. -/
def sampleManifest : List PaymentItem :=
  [⟨2, 100 * 10^8, 5 * 10^8, 0, .mainAudit, "audit"⟩, ⟨2, 0, 20 * 10^8, 0, .bonusSpeed, "speed"⟩,
    ⟨3, 50 * 10^8, 0, 0, .subContract, "fuzzing"⟩, ⟨10, 10^8, 0, 0, .refund, "rest"⟩]

/-- The settlement of the sample manifest, and its preview for the agent 2. -/
theorem preview_executed_manifest : ∃ w', ∃ p : Preview,
    settleJob 1 ((sampleEnv 5 1).readRegistry sampleRegistry) 1 sampleManifest 3 fundedWorld = .ok w' ∧
    calculateSettlementPreview ((sampleEnv 2 1).readRegistry sampleRegistry) 1 sampleManifest 3 fundedWorld.state =
      .ok p ∧ Executed 1 1 sampleManifest 3 fundedWorld w' p ∧ p.totalReportFees = 15 * 10^6 := by
  obtain ⟨w', h⟩ := exists_eq_ok
    (x := settleJob 1 ((sampleEnv 5 1).readRegistry sampleRegistry) 1 sampleManifest 3 fundedWorld)
    (by decide +kernel)
  obtain ⟨p, hpreview, hexecuted⟩ := preview_executed h (sampleEnv 2 1)
  refine ⟨w', p, h, hpreview, hexecuted, ?_⟩
  exact read_ok hpreview Preview.totalReportFees (b := 15 * 10^6) (by decide +kernel)

end AuditGuard.PaymentSettlement
