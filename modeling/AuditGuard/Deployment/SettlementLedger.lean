import AuditGuard.Library.Composition
import AuditGuard.PaymentSettlement.Settlement
import AuditGuard.SubAuction.Deadlines

/-!
# PaymentSettlement and SubAuction: the settlement ledger

The settlement contract keeps one list of settlements for two kinds of payments: those that it makes for a job,
and those that the sub-auction made for a sub-job and that it only logs. A job is settled once. A sub-job may be
logged again and again, and every time it counts in the total. An accepted sub-job stays as it is, so that
this is all that can go wrong.
-/

namespace AuditGuard.Deployment

open Evm TransitionSystem
open PaymentSettlement (platformFee totalPayout records Records Others ItemArg)

/-- The settlement contract and the sub-auction, while the sub-auction is the settlement's. -/
def settlementSubAuction (settlement subAuction : Address) :
    Composition PaymentSettlement.State PaymentSettlement.Env PaymentSettlement.Call
      SubAuction.State SubAuction.Env SubAuction.Call where
  caller := PaymentSettlement.contract settlement
  callee := SubAuction.contract subAuction
  hear w _ env :=
    if w.state.1.subAuction = subAuction then { env with
      getSubJob := fun subJobId => SubAuction.getExistingSubJob subJobId w.state.2 }
    else env
  makes _ _ _ := none
  msg_hear w c env := by
    split
    · rfl
    · rfl
  msg_makes env c s call h := nomatch h

/-- A state of the settlement contract and of the sub-auction. -/
abbrev LedgerWorld := World (PaymentSettlement.State × SubAuction.State)

/-- A call to one of the two. -/
abbrev LedgerCall := Either PaymentSettlement.Env PaymentSettlement.Call SubAuction.Env SubAuction.Call

/-- What a step of the two is. -/
abbrev LedgerLabel := JointLabel PaymentSettlement.Env PaymentSettlement.Call SubAuction.Env SubAuction.Call

/-- The job that a step settles. -/
def settledJob : LedgerLabel → Option ℕ
  | .call (.caller _ (.settleJob jobId _ _)) => some jobId
  | _ => none

/-- The jobs that were settled, as often as they were. -/
def settledJobs (ts : List (Transition LedgerWorld LedgerLabel)) : List ℕ :=
  ts.filterMap fun tr => settledJob tr.label

/-- What a step disburses for a job: what the line items are worth, and the platform fee. -/
def disbursed (w : LedgerWorld) : LedgerLabel → ℕ
  | .call (.caller _ (.settleJob _ payments _)) =>
    totalPayout (payments.map ItemArg.toItem) + platformFee (payments.map ItemArg.toItem) w.state.1
  | _ => 0

/-- What was disbursed for jobs in all. -/
def totalJobs (ts : List (Transition LedgerWorld LedgerLabel)) : ℕ :=
  (ts.map fun tr => disbursed tr.src tr.label).sum

/-- The payment for a sub-job, if it is accepted. -/
def acceptedPayment (s : SubAuction.State) (subJobId : ℕ) : ℕ :=
  if (s.subJobs subJobId).status = .accepted then (s.subJobs subJobId).paymentAmount else 0

/-- The sum over all records. -/
def recordedTotal (r : Records) : ℕ := ∑ id ∈ Finset.range r.nextSettlementId, (r.settlements id).totalDisbursed

/-- No payment is recorded twice: no job is settled twice, no sub-job logged twice, and the records add up
to what was disbursed for jobs and to the payments of the different accepted sub-jobs that are logged. -/
structure NoDoubleEntries (ts : List (Transition LedgerWorld LedgerLabel)) (w : LedgerWorld) : Prop where
  jobs : (settledJobs ts).Nodup
  subJobs : w.state.1.loggedSubJobs.Nodup
  total : recordedTotal (records w.state.1) =
    totalJobs ts + (w.state.1.loggedSubJobs.dedup.map (acceptedPayment w.state.2)).sum

/-- A `settleSubJob` is about a sub-job that is not logged yet. -/
def FirstTime (w : LedgerWorld) : LedgerLabel → Prop
  | .call (.caller _ (.settleSubJob subJobId)) => (subJobId : ℕ) ∉ w.state.1.loggedSubJobs
  | _ => True

/-- A `settleJob` pays other accounts than the contract, which pays what the record says. -/
def PaysRecorded (settlement : Address) (tr : Transition LedgerWorld LedgerLabel) : Prop :=
  ∀ env jobId payments reportAgent,
    tr.label = .call (.caller env (.settleJob jobId payments reportAgent)) →
    Others settlement (payments.map ItemArg.toItem) reportAgent tr.src.state.1 →
    tr.dst.token.balance settlement + disbursed tr.src tr.label = tr.src.token.balance settlement

variable {settlement subAuction : Address} {w w' : LedgerWorld} {l : LedgerLabel}
  {ts : List (Transition LedgerWorld LedgerLabel)}

/-! ## The records -/

theorem recordedTotal_push (r : Records) (record : PaymentSettlement.SettlementRecord)
    (items : List PaymentSettlement.PaymentItem) :
    recordedTotal (r.push record items) = recordedTotal r + record.totalDisbursed :=
  Sums.sum_range_push r.settlements r.nextSettlementId record _

theorem recordedTotal_link (r : Records) (jobId id : ℕ) : recordedTotal (r.link jobId id) = recordedTotal r :=
  rfl

theorem settledJobs_concat (ts : List (Transition LedgerWorld LedgerLabel)) (tr) :
    settledJobs (ts ++ [tr]) = settledJobs ts ++ (settledJob tr.label).toList := by
  unfold settledJobs
  rw [List.filterMap_append]
  cases h : settledJob tr.label with
  | none => simp [h]
  | some jobId => simp [h]

theorem totalJobs_concat (ts : List (Transition LedgerWorld LedgerLabel)) (tr) :
    totalJobs (ts ++ [tr]) = totalJobs ts + disbursed tr.src tr.label := by
  unfold totalJobs
  rw [List.map_append, List.sum_append, List.map_singleton, List.sum_singleton]

/-! ## Sub-jobs -/

theorem accepted_stays {v v' : World SubAuction.State} {k : Label SubAuction.Env SubAuction.Call} {id : ℕ}
    (hv : (SubAuction.contract subAuction).system.Reachable v)
    (h : (SubAuction.contract subAuction).Step v k v') (haccepted : (v.state.subJobs id).status = .accepted) :
    v'.state.file id = v.state.file id := by
  have hfile : v'.state.file id = v.state.file id ∨ ∃ env c op, k = .call env c ∧
      c.Does env v.state (.job id op) ∧
      SubAuction.SubStep subAuction (v.state.file id) op (v'.state.file id) := SubAuction.Step.file hv h
  rcases hfile with hsame | ⟨env, c, op, -, -, hstep⟩
  · exact hsame
  · -- no step in the life of a sub-job starts from an accepted one
    have hstatus : (v.state.file id).status = .accepted := haccepted
    exfalso
    generalize v.state.file id = f at hstep hstatus
    generalize v'.state.file id = f' at hstep
    cases hstep with
    | create => exact nomatch hstatus
    | bid _ hopen => exact nomatch hopen.symm.trans hstatus
    | select _ hopen =>
      rcases hopen with hopen | hclosed
      · exact nomatch hopen.symm.trans hstatus
      · exact nomatch hclosed.symm.trans hstatus
    | deliver _ hprogress => exact nomatch hprogress.symm.trans hstatus
    | dispute _ hdelivered => exact nomatch hdelivered.symm.trans hstatus
    | pay _ hpay =>
      rcases hpay with hdelivered | hdisputed
      · exact nomatch hdelivered.symm.trans hstatus
      · exact nomatch hdisputed.symm.trans hstatus
    | slash _ hslash =>
      rcases hslash with ⟨hdisputed, -⟩ | ⟨hprogress, -⟩
      · exact nomatch hdisputed.symm.trans hstatus
      · exact nomatch hprogress.symm.trans hstatus
    | cancel _ hopen => exact nomatch hopen.symm.trans hstatus

theorem acceptedPayment_congr {s s' : SubAuction.State} {id : ℕ} (h : s'.file id = s.file id) :
    acceptedPayment s' id = acceptedPayment s id := by
  have hstatus : (s'.subJobs id).status = (s.subJobs id).status := congrArg SubAuction.SubJobFile.status h
  have hpayment : (s'.subJobs id).paymentAmount = (s.subJobs id).paymentAmount :=
    congrArg SubAuction.SubJobFile.payment h
  unfold acceptedPayment
  rw [hstatus, hpayment]

/-! ## One step -/

/-- The ledger so far: its numbers are in order, settled jobs are linked and logged sub-jobs accepted, and the
records add up to what was disbursed and what was logged. -/
structure Ledgered (ts : List (Transition LedgerWorld LedgerLabel)) (w : LedgerWorld) : Prop where
  sound : (records w.state.1).Sound
  jobs : (settledJobs ts).Nodup
  linked : ∀ jobId ∈ settledJobs ts, w.state.1.jobToSettlement jobId ≠ 0
  accepted : ∀ id ∈ w.state.1.loggedSubJobs, (w.state.2.subJobs id).status = .accepted
  total : recordedTotal (records w.state.1) =
    totalJobs ts + (w.state.1.loggedSubJobs.map (acceptedPayment w.state.2)).sum

/-- A step that settles and logs nothing and keeps the files of accepted sub-jobs keeps the ledger. -/
theorem Ledgered.quiet (h : Ledgered ts w) (hlabel : settledJob l = none) (hnothing : disbursed w l = 0)
    (hrecords : records w'.state.1 = records w.state.1)
    (hlogged : w'.state.1.loggedSubJobs = w.state.1.loggedSubJobs)
    (hfiles : ∀ id, (w.state.2.subJobs id).status = .accepted → w'.state.2.file id = w.state.2.file id) :
    Ledgered (ts ++ [⟨w, l, w'⟩]) w' := by
  have hjobs : settledJobs (ts ++ [⟨w, l, w'⟩]) = settledJobs ts := by
    rw [settledJobs_concat, hlabel]
    exact List.append_nil _
  constructor
  case sound =>
    rw [hrecords]
    exact h.sound
  case jobs =>
    rw [hjobs]
    exact h.jobs
  case linked =>
    rw [hjobs]
    intro jobId hjobId
    have hlink := congrArg Records.jobToSettlement hrecords
    rw [show w'.state.1.jobToSettlement = w.state.1.jobToSettlement from hlink]
    exact h.linked jobId hjobId
  -- A logged sub-job was accepted before, so its file is one of those that stay.
  case accepted =>
    intro id hid
    rw [hlogged] at hid
    have haccepted := h.accepted id hid
    have hstatus : (w'.state.2.subJobs id).status = (w.state.2.subJobs id).status :=
      congrArg SubAuction.SubJobFile.status (hfiles id haccepted)
    rw [hstatus]
    exact haccepted
  case total =>
    have hpayments : w.state.1.loggedSubJobs.map (acceptedPayment w'.state.2) =
        w.state.1.loggedSubJobs.map (acceptedPayment w.state.2) := by
      refine List.map_congr_left fun id hid => ?_
      exact acceptedPayment_congr (hfiles id (h.accepted id hid))
    rw [hrecords, hlogged, hpayments, totalJobs_concat, hnothing]
    exact h.total

/-- A step that settles a job which is not linked yet, and records what it disburses, keeps the ledger. -/
theorem Ledgered.job {jobId : ℕ} {record : PaymentSettlement.SettlementRecord}
    {items : List PaymentSettlement.PaymentItem} (h : Ledgered ts w) (hlabel : settledJob l = some jobId)
    (hunsettled : w.state.1.jobToSettlement jobId = 0) (hamount : record.totalDisbursed = disbursed w l)
    (hrecords : records w'.state.1 =
      ((records w.state.1).push record items).link jobId w.state.1.nextSettlementId)
    (hlogged : w'.state.1.loggedSubJobs = w.state.1.loggedSubJobs) (hsub : w'.state.2 = w.state.2) :
    Ledgered (ts ++ [⟨w, l, w'⟩]) w' := by
  have hjobs : settledJobs (ts ++ [⟨w, l, w'⟩]) = settledJobs ts ++ [jobId] := by
    rw [settledJobs_concat, hlabel]
    rfl
  have hlink : w'.state.1.jobToSettlement =
      Function.update w.state.1.jobToSettlement jobId w.state.1.nextSettlementId :=
    congrArg Records.jobToSettlement hrecords
  constructor
  case sound =>
    rw [hrecords]
    exact (h.sound.push _ _).link _ _
  case jobs =>
    -- A job that is settled already is linked, and this one is not.
    rw [hjobs, List.nodup_append]
    refine ⟨h.jobs, List.nodup_singleton _, ?_⟩
    intro first hfirst again hagain heq
    rw [List.mem_singleton.mp hagain] at heq
    rw [heq] at hfirst
    exact h.linked _ hfirst hunsettled
  case linked =>
    rw [hjobs, hlink]
    intro id hid
    rcases eq_or_ne id jobId with rfl | hne
    · rw [Function.update_self]
      exact h.sound.pos.ne'
    · rw [Function.update_of_ne hne]
      rcases List.mem_append.mp hid with hid | hid
      · exact h.linked id hid
      · exact absurd (List.mem_singleton.mp hid) hne
  case accepted =>
    rw [hlogged, hsub]
    exact h.accepted
  case total =>
    have htotal := h.total
    rw [hrecords, hlogged, hsub, recordedTotal_link, recordedTotal_push, totalJobs_concat, hamount]
    dsimp only
    omega

/-- A step that logs an accepted sub-job, and records its payment, keeps the ledger. -/
theorem Ledgered.subJob {subJobId : ℕ} {record : PaymentSettlement.SettlementRecord}
    {items : List PaymentSettlement.PaymentItem} (h : Ledgered ts w) (hlabel : settledJob l = none)
    (hnothing : disbursed w l = 0) (haccepted : (w.state.2.subJobs subJobId).status = .accepted)
    (hamount : record.totalDisbursed = (w.state.2.subJobs subJobId).paymentAmount)
    (hrecords : records w'.state.1 = (records w.state.1).push record items)
    (hlogged : w'.state.1.loggedSubJobs = w.state.1.loggedSubJobs ++ [subJobId])
    (hsub : w'.state.2 = w.state.2) : Ledgered (ts ++ [⟨w, l, w'⟩]) w' := by
  have hjobs : settledJobs (ts ++ [⟨w, l, w'⟩]) = settledJobs ts := by
    rw [settledJobs_concat, hlabel]
    exact List.append_nil _
  have hlink : w'.state.1.jobToSettlement = w.state.1.jobToSettlement :=
    congrArg Records.jobToSettlement hrecords
  constructor
  case sound =>
    rw [hrecords]
    exact h.sound.push _ _
  case jobs =>
    rw [hjobs]
    exact h.jobs
  case linked =>
    rw [hjobs, hlink]
    exact h.linked
  case accepted =>
    rw [hlogged, hsub]
    intro id hid
    rcases List.mem_append.mp hid with hid | hid
    · exact h.accepted id hid
    · rw [List.mem_singleton.mp hid]
      exact haccepted
  case total =>
    have htotal := h.total
    have hpayment : acceptedPayment w.state.2 subJobId = (w.state.2.subJobs subJobId).paymentAmount :=
      if_pos haccepted
    rw [hrecords, hlogged, hsub, recordedTotal_push, totalJobs_concat, List.map_append,
      List.sum_append, List.map_singleton, List.sum_singleton, hpayment, hamount]
    dsimp only
    rw [hnothing]
    omega

theorem settlement_exec_ok {env : PaymentSettlement.Env} {c : PaymentSettlement.Call}
    (h : (settlementSubAuction settlement subAuction).exec (.caller env c) w = .ok w') :
    ∃ w₁, PaymentSettlement.exec settlement ((settlementSubAuction settlement subAuction).hear w c env) c
        w.fst = .ok w₁ ∧
      w'.state = (w₁.state, w.state.2) ∧ w'.token = w₁.token := by
  obtain ⟨w₁, hexec, rfl⟩ := Composition.exec_caller_ok.mp h
  exact ⟨w₁, hexec, rfl, rfl⟩

theorem heard_subJob {env : PaymentSettlement.Env} {c : PaymentSettlement.Call} {id : ℕ}
    {subJob : SubAuction.SubJob} (hwired : w.state.1.subAuction = subAuction)
    (h : ((settlementSubAuction settlement subAuction).hear w c env).getSubJob id = .ok subJob) :
    subJob = w.state.2.subJobs id := by
  unfold settlementSubAuction at h
  dsimp only at h
  rw [if_pos hwired] at h
  simp only [SubAuction.getExistingSubJob, bind_eq_ok, pure_eq_ok] at h
  obtain ⟨_, -, rfl⟩ := h
  rfl

theorem Ledgered.settlement_call {env : PaymentSettlement.Env} {c : PaymentSettlement.Call}
    (h : Ledgered ts w) (hwired : w.state.1.subAuction = subAuction)
    (hexec : (settlementSubAuction settlement subAuction).exec (.caller env c) w = .ok w') :
    Ledgered (ts ++ [⟨w, .call (.caller env c), w'⟩]) w' := by
  obtain ⟨w₁, hcall, hstate, -⟩ := settlement_exec_ok hexec
  have hrecords : records w'.state.1 = records w₁.state := by rw [hstate]
  have hlogged : w'.state.1.loggedSubJobs = w.state.1.loggedSubJobs ++ c.subJob.toList := by
    rw [hstate]
    exact PaymentSettlement.exec_logged hcall
  have hsub : w'.state.2 = w.state.2 := by rw [hstate]
  have hstep := PaymentSettlement.exec_ok hcall
  generalize records w₁.state = r at hstep hrecords
  cases hstep with
  | job _ hunsettled _ _ =>
    exact h.job rfl hunsettled rfl hrecords (hlogged.trans (List.append_nil _)) hsub
  | subJob _ hget haccepted =>
    -- The settlement contract read the sub-job in the sub-auction of the composition.
    obtain rfl := heard_subJob hwired hget
    exact h.subJob rfl rfl haccepted rfl hrecords hlogged hsub
  | @idle c hc =>
    have hlabel : settledJob (.call (.caller env c)) = none := by
      cases c with
      | settleJob => exact absurd trivial hc
      | _ => rfl
    have hnothing : disbursed w (.call (.caller env c)) = 0 := by
      cases c with
      | settleJob => exact absurd trivial hc
      | _ => rfl
    have hnone : c.subJob = none := by
      cases c with
      | settleSubJob => exact absurd trivial hc
      | _ => rfl
    rw [hnone] at hlogged
    refine h.quiet hlabel hnothing hrecords (hlogged.trans (List.append_nil _)) fun id _ => ?_
    rw [hsub]

theorem Step.logged (h : (settlementSubAuction settlement subAuction).Step w l w') :
    w'.state.1.loggedSubJobs.Nodup ↔ w.state.1.loggedSubJobs.Nodup ∧ FirstTime w l := by
  cases h with
  | elsewhere => exact (and_iff_left trivial).symm
  | @call c _ _ hs hexec =>
    cases c with
    | callee env c =>
      obtain ⟨w₂, -, rfl⟩ := Composition.exec_callee_ok.mp hexec
      exact (and_iff_left trivial).symm
    | caller env c =>
      obtain ⟨w₁, hcall, hstate, -⟩ := settlement_exec_ok hexec
      have hlogged : w'.state.1.loggedSubJobs = w.state.1.loggedSubJobs ++ c.subJob.toList := by
        rw [hstate]
        exact PaymentSettlement.exec_logged hcall
      rw [hlogged]
      cases c with
      | settleSubJob subJobId =>
        change (w.state.1.loggedSubJobs ++ [subJobId.val]).Nodup ↔
          _ ∧ subJobId.val ∉ w.state.1.loggedSubJobs
        rw [← List.concat_eq_append, List.nodup_concat, and_comm]
      | _ =>
        change (w.state.1.loggedSubJobs ++ []).Nodup ↔ _ ∧ True
        rw [List.append_nil, and_true]

theorem Step.paysRecorded (hsound : (records w.state.1).Sound)
    (h : (settlementSubAuction settlement subAuction).Step w l w') :
    PaysRecorded settlement ⟨w, l, w'⟩ := by
  rintro env jobId payments reportAgent rfl hothers
  cases h with
  | call hs hexec =>
    obtain ⟨w₁, hcall, hstate, htoken⟩ := settlement_exec_ok hexec
    have hsettled := PaymentSettlement.settled_of_exec hsound hcall
    have hpaid := hsettled.outflow hothers
    rw [hsettled.record] at hpaid
    change w'.token.balance settlement + _ = w.token.balance settlement
    rw [htoken]
    exact hpaid

/-! ## A whole run -/

/-- In every run in which the sub-auction stays the settlement's, the ledger is in order. -/
theorem ledgered (hr : (settlementSubAuction settlement subAuction).system.Run ts w)
    (hwired : Throughout (fun w => w.state.1.subAuction = subAuction) ts w) : Ledgered ts w := by
  induction hr with
  | @init w h =>
    obtain ⟨⟨hfresh, -⟩, -⟩ := h
    obtain ⟨deployer, guardToken, agentRegistry, mainAuction, subAuction, treasury, orchestrator,
      hstate⟩ := PaymentSettlement.fresh_state_eq
        (show (PaymentSettlement.contract settlement).fresh w.state.1 from hfresh)
    have hempty : w.state.1.loggedSubJobs = [] := by rw [hstate]; rfl
    constructor
    case sound =>
      rw [hstate]
      exact ⟨Nat.one_pos, fun _ _ => rfl⟩
    case jobs => exact List.nodup_nil
    case linked => exact fun _ hid => nomatch hid
    case accepted =>
      rw [hempty]
      exact fun _ hid => nomatch hid
    case total =>
      rw [hempty, hstate]
      rfl
  | @step ts w w' l hr h ih =>
    have hbefore := ih hwired.before_last
    have hsub := hwired.1 ⟨w, l, w'⟩ (by simp)
    have hcallee := Composition.reachable_callee PaymentSettlement.spares hr.reachable
    cases h with
    | elsewhere => exact hbefore.quiet rfl rfl rfl rfl fun _ _ => rfl
    | @call c _ _ hs hexec =>
      cases c with
      | caller env c => exact hbefore.settlement_call hsub hexec
      -- A call of the sub-auction moves no accepted sub-job, and nothing of the settlement contract.
      | callee env c =>
        obtain ⟨⟨-, hother⟩, hzero, ht⟩ := hs
        obtain ⟨w₂, hcall, rfl⟩ := Composition.exec_callee_ok.mp hexec
        have hstep : (SubAuction.contract subAuction).Step w.snd (.call env c)
            { w₂ with now := ((SubAuction.contract subAuction).msg env).timestamp } :=
          .call hother hzero ht hcall
        refine hbefore.quiet rfl rfl rfl rfl fun id haccepted => ?_
        have hstays := accepted_stays hcallee hstep haccepted
        exact hstays

theorem loggedSubJobs_nodup_iff (hr : (settlementSubAuction settlement subAuction).system.Run ts w) :
    w.state.1.loggedSubJobs.Nodup ↔ ∀ tr ∈ ts, FirstTime tr.src tr.label := by
  induction hr with
  | @init w h =>
    obtain ⟨⟨hfresh, -⟩, -⟩ := h
    obtain ⟨deployer, guardToken, agentRegistry, mainAuction, subAuction, treasury, orchestrator,
      hstate⟩ := PaymentSettlement.fresh_state_eq
        (show (PaymentSettlement.contract settlement).fresh w.state.1 from hfresh)
    rw [hstate]
    exact iff_of_true List.nodup_nil (by simp)
  | step hr h ih =>
    rw [Step.logged h, ih, List.forall_mem_append, List.forall_mem_singleton]

/-- In every run in which the sub-auction stays the settlement's: no payment is recorded twice if and only if
every sub-job is logged for the first time; and a settlement of a job costs the contract what it disburses. -/
theorem no_double_entries_iff (hr : (settlementSubAuction settlement subAuction).system.Run ts w)
    (hwired : Throughout (fun w => w.state.1.subAuction = subAuction) ts w) :
    (NoDoubleEntries ts w ↔ ∀ tr ∈ ts, FirstTime tr.src tr.label) ∧
      ∀ tr ∈ ts, PaysRecorded settlement tr := by
  have hledger := ledgered hr hwired
  constructor
  · rw [← loggedSubJobs_nodup_iff hr]
    constructor
    · exact NoDoubleEntries.subJobs
    · intro hnodup
      refine ⟨hledger.jobs, hnodup, ?_⟩
      rw [hnodup.dedup]
      exact hledger.total
  · intro tr htr
    obtain ⟨before, after, rfl⟩ := List.append_of_mem htr
    obtain ⟨hrun, hstep⟩ := hr.before
    have hsofar : Throughout (fun w => w.state.1.subAuction = subAuction) before tr.src :=
      ⟨fun tr' htr' => hwired.1 tr' (List.mem_append_left _ htr'), hwired.1 tr htr⟩
    exact Step.paysRecorded (ledgered hrun hsofar).sound hstep

/-! ## A sub-job logged twice

The settlement contract at address 20 and the sub-auction at address 1. The agent 3 does a sub-job for the
agent 2, who disputes the result, and the orchestrator decides for the agent. -/

/-- The two contracts, just deployed. -/
def ledgerWorld : LedgerWorld where
  state := (PaymentSettlement.State.fresh 9 7 6 4 1 10 5, SubAuction.State.fresh 9 7 6 4 10)
  token := SubAuction.sampleWorld.token
  now := 0

/-- The calls up to the first time that the sub-job is logged. -/
def loggedCalls : List LedgerCall := [
  .callee (SubAuction.sampleEnv 2 0) (.createSubAuction 1 "fuzz the parser" "fuzzing" (100 * 10^8) 60 120),
  .callee (SubAuction.sampleEnv 3 1) (.submitSubBid 1 (80 * 10^8) 30 (40 * 10^8)),
  .callee (SubAuction.sampleEnv 2 2) (.selectSubContractor 1 0),
  .callee (SubAuction.sampleEnv 3 3) (.deliverResult 1 7),
  .callee (SubAuction.sampleEnv 2 4) (.disputeResult 1 "no coverage"),
  .callee (SubAuction.sampleEnv 5 5) (.resolveDispute 1 true),
  .caller (PaymentSettlement.sampleEnv 5 6) (.settleSubJob 1)]

/-- The sub-job is logged again. -/
def loggedAgainCalls : List LedgerCall :=
  loggedCalls ++ [.caller (PaymentSettlement.sampleEnv 5 7) (.settleSubJob 1)]

theorem ledger_run (calls : List LedgerCall) (hs : (settlementSubAuction 20 1).Scheduled 0 calls)
    (h : ((settlementSubAuction 20 1).execAll calls ledgerWorld).isOk = true)
    (hlast : ((settlementSubAuction 20 1).execAll calls ledgerWorld).map
      (fun w => decide (w.state.1.subAuction = 1)) = .ok true)
    (hsteps : ((settlementSubAuction 20 1).trace calls ledgerWorld).map
      (fun ts => ts.all fun tr => decide (tr.src.state.1.subAuction = 1)) = .ok true) :
    ∃ ts w, (settlementSubAuction 20 1).execAll calls ledgerWorld = .ok w ∧
      (settlementSubAuction 20 1).system.Run ts w ∧
      Throughout (fun w => w.state.1.subAuction = 1) ts w := by
  have hinit : (settlementSubAuction 20 1).system.init ledgerWorld :=
    ⟨⟨⟨9, 7, 6, 4, 1, 10, 5, rfl⟩, ⟨9, 7, 6, 4, 10, rfl⟩⟩, by decide, by decide⟩
  obtain ⟨ts, w, hcalls, hr, htrace⟩ := Composition.exists_run hinit hs h
  refine ⟨ts, w, hcalls, hr, ?_, of_decide_eq_true (read_ok hcalls _ hlast)⟩
  intro tr htr
  exact of_decide_eq_true (List.all_eq_true.mp (read_ok htrace _ hsteps) tr htr)

/-- The law on the run in which the sub-job is logged once. -/
theorem no_double_entries_iff_once : ∃ ts w, (settlementSubAuction 20 1).system.Run ts w ∧
    ((NoDoubleEntries ts w ↔ ∀ tr ∈ ts, FirstTime tr.src tr.label) ∧ ∀ tr ∈ ts, PaysRecorded 20 tr) ∧
    w.state.1.loggedSubJobs = [1] ∧ recordedTotal (records w.state.1) = 80 * 10^8 := by
  obtain ⟨ts, w, hcalls, hr, hwired⟩ := ledger_run loggedCalls (by decide) rfl (by decide +kernel)
    (by decide +kernel)
  have hlogged := read_ok hcalls (fun w => w.state.1.loggedSubJobs) (b := [1]) (by decide +kernel)
  have htotal := read_ok hcalls (fun w => recordedTotal (records w.state.1)) (b := 80 * 10^8)
    (by decide +kernel)
  exact ⟨ts, w, hr, no_double_entries_iff hr hwired, hlogged, htotal⟩

/-- One accepted sub-job of 80 GUARD, no settlement of a job, and records of 160 GUARD. -/
theorem sub_job_counted_twice : ∃ ts w, (settlementSubAuction 20 1).system.Run ts w ∧
    Throughout (fun w => w.state.1.subAuction = 1) ts w ∧
    w.state.1.loggedSubJobs = [1, 1] ∧ acceptedPayment w.state.2 1 = 80 * 10^8 ∧
    recordedTotal (records w.state.1) = 160 * 10^8 ∧ ¬ NoDoubleEntries ts w := by
  obtain ⟨ts, w, hcalls, hr, hwired⟩ := ledger_run loggedAgainCalls (by decide) rfl (by decide +kernel)
    (by decide +kernel)
  have hlogged := read_ok hcalls (fun w => w.state.1.loggedSubJobs) (b := [1, 1]) (by decide +kernel)
  have hpayment := read_ok hcalls (fun w => acceptedPayment w.state.2 1) (b := 80 * 10^8)
    (by decide +kernel)
  have htotal := read_ok hcalls (fun w => recordedTotal (records w.state.1)) (b := 160 * 10^8)
    (by decide +kernel)
  refine ⟨ts, w, hr, hwired, hlogged, hpayment, htotal, fun hno => ?_⟩
  have hnodup := hno.subJobs
  rw [hlogged] at hnodup
  exact absurd hnodup (by decide)

end AuditGuard.Deployment
