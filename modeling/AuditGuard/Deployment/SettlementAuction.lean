import AuditGuard.Library.Composition
import AuditGuard.AuditAuction.System
import AuditGuard.PaymentSettlement.Effects

/-!
# PaymentSettlement and AuditAuction: no settlement succeeds

The settlement contract asks the main auction for the status of a job, and has it completed there. The auction
takes `completeJob` from its orchestrator only, and there the caller is the settlement contract. The deployment
gives both contracts the same orchestrator, an account, so that every `settleJob` reverts at its last step: no
job is ever settled, whatever was paid out for it before.
-/

namespace AuditGuard.Deployment

open Evm TransitionSystem

/-- The environment of a call that the settlement contract makes. `completeJob` reads only the message. -/
def settlementEnv (settlement : Address) (env : PaymentSettlement.Env) : AuditAuction.Env where
  sender := settlement
  value := 0
  timestamp := env.timestamp
  hasCode := fun _ => true
  isActiveAgent := fun _ => false
  getAgentReputation := fun _ => 0
  registryRefusal := none
  transferAnswer := Hts.HTS_SUCCESS
  associateAnswer := Hts.HTS_SUCCESS

/-- The settlement contract and the auction, while the auction is the settlement's main auction. -/
def settlementAuction (settlement auction : Address) :
    Composition PaymentSettlement.State PaymentSettlement.Env PaymentSettlement.Call
      AuditAuction.State AuditAuction.Env AuditAuction.Call where
  caller := PaymentSettlement.contract settlement
  callee := AuditAuction.contract auction
  hear w _ env :=
    if w.state.1.mainAuction = auction then { env with
      getJobStatus := fun jobId => AuditAuction.getJobStatus jobId w.state.2
      completeJob := fun jobId =>
        (AuditAuction.completeJob (settlementEnv settlement env) jobId w.state.2).map fun _ => () }
    else env
  makes env c s :=
    if s.mainAuction = auction then
      match c with
      | .settleJob jobId _ _ => some (settlementEnv settlement env, .completeJob jobId)
      | _ => none
    else none
  msg_hear w c env := by
    split
    · rfl
    · rfl
  msg_makes env c s call h := by
    split at h
    · cases c with
      | settleJob jobId payments reportAgent =>
        obtain rfl := Option.some.inj h
        exact ⟨rfl, rfl⟩
      | _ => exact nomatch h
    · exact nomatch h

/-- A state of the settlement contract and of the auction. -/
abbrev SettlementWorld := World (PaymentSettlement.State × AuditAuction.State)

/-- A call to one of the two. -/
abbrev SettlementCall :=
  Either PaymentSettlement.Env PaymentSettlement.Call AuditAuction.Env AuditAuction.Call

/-- What a step of the two is. -/
abbrev SettlementLabel :=
  JointLabel PaymentSettlement.Env PaymentSettlement.Call AuditAuction.Env AuditAuction.Call

/-- The wiring of the deployment: one orchestrator for both, which is not the settlement contract. -/
structure SettlementWired (settlement auction : Address) (w : SettlementWorld) : Prop where
  mainAuction : w.state.1.mainAuction = auction
  orchestrator : w.state.1.orchestrator = w.state.2.orchestrator
  account : w.state.2.orchestrator ≠ settlement

/-- The step is a settlement of the job. -/
def Settles (jobId : UInt 256) (l : SettlementLabel) : Prop :=
  ∃ env payments reportAgent, l = .call (.caller env (.settleJob jobId payments reportAgent))

/-- From the state on, and without a change of the wiring, the job can be settled so that it is completed. -/
def CanSettle (settlement auction : Address) (w : SettlementWorld) (jobId : UInt 256) : Prop :=
  ∃ ls w', Path ((settlementAuction settlement auction).system.restrict
      fun w _ => SettlementWired settlement auction w).step w ls w' ∧
    (∃ l ∈ ls, Settles jobId l) ∧ (w'.state.2.jobs jobId).status = .completed

variable {settlement auction : Address} {w w' : SettlementWorld} {jobId : UInt 256}

theorem completeJob_refused (hwired : SettlementWired settlement auction w)
    (env : PaymentSettlement.Env) (jobId : ℕ) :
    AuditAuction.completeJob (settlementEnv settlement env) jobId w.state.2 =
      .error (.require "AuditAuction: caller is not orchestrator") := by
  have hsender : (settlementEnv settlement env).sender ≠ w.state.2.orchestrator := hwired.account.symm
  unfold AuditAuction.completeJob AuditAuction.onlyOrchestrator require
  rw [if_neg hsender]
  rfl

theorem SettlementWired.not_settles {l : SettlementLabel}
    (hwired : SettlementWired settlement auction w)
    (h : (settlementAuction settlement auction).Step w l w') : ¬ Settles jobId l := by
  rintro ⟨env, payments, reportAgent, rfl⟩
  cases h with
  | call hs hexec =>
    obtain ⟨w₁, hcall, -⟩ := Composition.exec_caller_ok.mp hexec
    have hstep := PaymentSettlement.exec_ok
      (show PaymentSettlement.exec settlement _ (.settleJob jobId payments reportAgent) w.fst = .ok w₁
        from hcall)
    generalize PaymentSettlement.records w₁.state = r at hstep
    cases hstep with
    | job hsender hunsettled hcomplete hprices =>
      -- What the settlement contract hears of its own `completeJob` is the auction's refusal.
      change ((settlementAuction settlement auction).hear w _ env).completeJob jobId = .ok () at hcomplete
      unfold settlementAuction at hcomplete
      dsimp only at hcomplete
      rw [if_pos hwired.mainAuction] at hcomplete
      dsimp only at hcomplete
      rw [completeJob_refused hwired] at hcomplete
      exact nomatch hcomplete
    | idle hc => exact hc trivial

theorem not_canSettle (w : SettlementWorld) (jobId : UInt 256) :
    ¬ CanSettle settlement auction w jobId := by
  rintro ⟨ls, w', hpath, ⟨l, hl, hsettles⟩, -⟩
  induction hpath with
  | nil => exact nomatch hl
  | snoc hpath hstep ih =>
    rcases List.mem_append.mp hl with hl | hl
    · exact ih hl
    · rw [List.mem_singleton.mp hl] at hsettles
      exact hstep.1.not_settles hstep.2 hsettles

/-- In every run in which the wiring stays, no settlement ever succeeds, and no job that is in progress can
be settled any more: not from the run's last state on, by any calls. -/
theorem no_settlement_succeeds {ts : List (Transition SettlementWorld SettlementLabel)}
    (hr : (settlementAuction settlement auction).system.Run ts w)
    (hwired : Throughout (SettlementWired settlement auction) ts w) :
    (∀ tr ∈ ts, ∀ jobId, ¬ Settles jobId tr.label) ∧
    ∀ jobId : UInt 256, (w.state.2.jobs jobId).status = .auditingInProgress →
      ¬ CanSettle settlement auction w jobId := by
  constructor
  · intro tr htr jobId
    exact (hwired.1 tr htr).not_settles (hr.step_of_mem tr htr).2
  · intro jobId _
    exact not_canSettle w jobId

/-! ## A job in progress

The settlement contract at address 20 and the auction at address 1, as they are deployed: the orchestrator of
both is 5. The agent 2 bids for a job and wins it, and the orchestrator funds the settlement contract. -/

/-- The two contracts, just deployed. -/
def settlementWorld : SettlementWorld where
  state := (PaymentSettlement.State.fresh 9 7 6 1 8 10 5, AuditAuction.State.fresh 9 7 6 5 10)
  token := ((Ledger.single 5 (2 * 10^12) TokenLedger.two_trillion_lt).transfer 5 2 (10^12)).getD
    (Ledger.single 5 0 TokenLedger.zero_lt)
  now := 0

/-- The calls up to the settlement. -/
def settlementCalls : List SettlementCall := [
  .callee (AuditAuction.sampleEnv 5 0) (.createAuditJob 4 "hedera" "token" 10 (200 * 10^8) 100 60),
  .callee (AuditAuction.sampleEnv 2 1) (.submitBid 1 (100 * 10^8) (50 * 10^8) 100 "defi"),
  .callee (AuditAuction.sampleEnv 5 61) (.selectWinners 1 [0]),
  .caller (PaymentSettlement.sampleEnv 5 62) (.depositSettlementFunds (1000 * 10^8))]

instance (settlement auction : Address) (w : SettlementWorld) :
    Decidable (SettlementWired settlement auction w) :=
  decidable_of_iff (w.state.1.mainAuction = auction ∧ w.state.1.orchestrator = w.state.2.orchestrator ∧
      w.state.2.orchestrator ≠ settlement)
    ⟨fun h => ⟨h.1, h.2.1, h.2.2⟩, fun h => ⟨h.mainAuction, h.orchestrator, h.account⟩⟩

theorem exists_settlementAuction_run : ∃ ts w, (settlementAuction 20 1).system.Run ts w ∧
    Throughout (SettlementWired 20 1) ts w ∧ (w.state.2.jobs 1).status = .auditingInProgress := by
  have hinit : (settlementAuction 20 1).system.init settlementWorld :=
    ⟨⟨⟨9, 7, 6, 1, 8, 10, 5, rfl⟩, ⟨9, 7, 6, 5, 10, rfl⟩⟩, by decide, by decide⟩
  have hscheduled : (settlementAuction 20 1).Scheduled settlementWorld.now settlementCalls := by decide
  obtain ⟨ts, w, hcalls, hr, htrace⟩ := Composition.exists_run hinit hscheduled rfl
  have hsteps := read_ok htrace (fun ts => ts.all fun tr => decide (SettlementWired 20 1 tr.src))
    (b := true) (by decide +kernel)
  have hlast := read_ok hcalls (fun w => decide (SettlementWired 20 1 w)) (b := true) (by decide +kernel)
  refine ⟨ts, w, hr, ⟨?_, of_decide_eq_true hlast⟩, ?_⟩
  · intro tr htr
    exact of_decide_eq_true (List.all_eq_true.mp hsteps tr htr)
  · exact read_ok hcalls (fun w => (w.state.2.jobs 1).status) (b := .auditingInProgress) rfl

/-- The law on the run up to the settlement. -/
theorem no_settlement_succeeds_funded : ∃ ts w, (settlementAuction 20 1).system.Run ts w ∧
    (w.state.2.jobs 1).status = .auditingInProgress ∧
    (∀ tr ∈ ts, ∀ jobId, ¬ Settles jobId tr.label) ∧
    ∀ jobId : UInt 256, (w.state.2.jobs jobId).status = .auditingInProgress →
      ¬ CanSettle 20 1 w jobId := by
  obtain ⟨ts, w, hr, hwired, hstatus⟩ := exists_settlementAuction_run
  exact ⟨ts, w, hr, hstatus, no_settlement_succeeds hr hwired⟩

/-- A job is in progress, the settlement contract is funded, and yet the job cannot be settled. -/
theorem funded_job_unsettled : ∃ ts w, (settlementAuction 20 1).system.Run ts w ∧
    Throughout (SettlementWired 20 1) ts w ∧ (w.state.2.jobs 1).status = .auditingInProgress ∧
    ¬ CanSettle 20 1 w 1 := by
  obtain ⟨ts, w, hr, hwired, hstatus⟩ := exists_settlementAuction_run
  exact ⟨ts, w, hr, hwired, hstatus, not_canSettle w 1⟩

end AuditGuard.Deployment
