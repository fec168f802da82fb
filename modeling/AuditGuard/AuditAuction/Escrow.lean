import AuditGuard.AuditAuction.Effects

/-!
# AuditAuction: is the escrow backed?

The contract owes the collateral of all bids and the escrow of all jobs. The collateral is taken when a bid
is made, but nobody pays the escrow in: `selectWinners` takes the fee and the winners' pay out of the
balance that is there, which is the bidders' collateral. What is owed is backed throughout a run exactly
when at every selection of winners the contract happened to hold their pay besides what it owed.
-/

namespace AuditGuard.AuditAuction

open Evm TransitionSystem

/-- The bids that `selectWinners` is given, in sum. -/
def chosenAmount (s : State) (jobId : ℕ) (winningBidIndices : List ℕ) : ℕ :=
  (winningBidIndices.map fun i => ((s.jobBids jobId).map AgentBid.bidAmount).getD i 0).sum

/-- The collateral of all bids of all jobs, and the escrow of all jobs. -/
def State.owed (s : State) : ℕ :=
  ∑ jobId ∈ Finset.range s.nextJobId,
    (((s.jobBids jobId).map AgentBid.collateralLocked).sum + (s.jobs jobId).totalEscrowedAmount)

/-- The contract holds what it owes. -/
def Backed (this : Address) (w : World State) : Prop := w.state.owed ≤ w.token.balance this

variable {this : Address} {env : Env} {w w' : World State}

/-! ## One operation -/

theorem total_picks {p p' : Picks} {picks : List ℕ} (h : Path PickStep p picks p') :
    p'.total = p.total + (picks.map fun i => (p.bids.map AgentBid.bidAmount).getD i 0).sum := by
  induction h with
  | nil => rfl
  | @snoc q q' picks i hpath hstep ih =>
    have hamounts := map_picks (g := AgentBid.bidAmount) (fun _ => rfl) hpath
    cases hstep with
    | @accept bid hi hpending =>
      have hpicked : (p.bids.map AgentBid.bidAmount).getD i 0 = bid.bidAmount := by
        rw [← hamounts, List.getD_eq_getElem?_getD, List.getElem?_map, hi]
        rfl
      rw [List.map_append, List.sum_append, List.map_singleton, List.sum_singleton, hpicked, ih,
        Nat.add_assoc]

theorem JobFile.Sound.refunds_ne {f : JobFile} (h : f.Sound this) {bids : List AgentBid}
    (hagents : bids.map AgentBid.agent = f.bids.map AgentBid.agent) :
    ∀ payment ∈ refunds bids, payment.1 ≠ this := by
  intro payment hpayment
  obtain ⟨b, hb, rfl⟩ := List.mem_map.mp hpayment
  obtain ⟨c, hc, heq⟩ := (bidders_congr hagents b.agent).mp ⟨b, (List.mem_filter.mp hb).1, rfl⟩
  change b.agent ≠ this
  rw [← heq]
  exact h.others c hc

theorem JobStep.agents {f f' : JobFile} {picks : List ℕ} {p : Picks} {fee : ℕ}
    (h : JobStep this f (.select picks p fee) f') :
    p.bids.map AgentBid.agent = f.bids.map AgentBid.agent := by
  cases h with
  | select _ _ hpicks => exact map_picks (fun _ => rfl) hpicks

theorem JobStep.total {f f' : JobFile} {picks : List ℕ} {p : Picks} {fee : ℕ}
    (h : JobStep this f (.select picks p fee) f') :
    p.total = (picks.map fun i => (f.bids.map AgentBid.bidAmount).getD i 0).sum := by
  cases h with
  | select _ _ hpicks =>
    rw [total_picks hpicks]
    exact Nat.zero_add _

theorem JobStep.deposit_ne {f f' : JobFile} {op : JobOp} (hsound : f.Sound this)
    (h : JobStep this f op f') : ∀ deposit ∈ op.deposit, deposit.1 ≠ this := by
  intro deposit hdeposit
  cases h with
  | bid _ _ hother =>
    obtain rfl := Option.some.inj hdeposit
    exact hother
  | @rebid _ _ old b _ _ hi hagent =>
    obtain rfl := Option.some.inj hdeposit
    have hmem := List.mem_of_getElem? hi
    rw [hagent]
    exact hsound.others old hmem
  | _ => cases hdeposit

theorem takeDeposit_balance {op : JobOp} {token token₁ : TokenLedger}
    (hne : ∀ deposit ∈ op.deposit, deposit.1 ≠ this)
    (h : takeDeposit this op.deposit token = some token₁) :
    token₁.balance this = token.balance this + op.inflow := by
  unfold JobOp.inflow
  cases hdeposit : op.deposit with
  | none =>
    rw [hdeposit] at h
    obtain rfl := Option.some.inj h
    rfl
  | some deposit =>
    rw [hdeposit] at h
    exact Ledger.transfer_balance_dst h (hne deposit hdeposit)

theorem Books.owed_update {b : Books} {id : ℕ} {f : JobFile} (hid : id < b.nextJobId) :
    ∑ i ∈ Finset.range b.nextJobId, (Function.update b.files id f i).owed + (b.files id).owed =
      b.owed + f.owed :=
  Sums.sum_update_of_mem (Finset.mem_range.mpr hid) b.files f fun _ => JobFile.owed

theorem owed_post {f f' : JobFile} {budget : ℕ} (h : JobStep this f (.post budget) f') :
    f'.owed = 0 := by
  cases h
  rfl

/-- The contract has the pay that the operation promises, besides what it owes. A fee that it pays to
itself stays with it. -/
def BookOp.Funded (this : Address) (b : Books) : BookOp → Prop
  | .job _ (.select _ p fee) =>
    b.owed + p.total ≤ b.token.balance this + if b.treasury = this then fee else 0
  | _ => True

/-- An operation keeps what is owed backed exactly when it is funded. -/
theorem backed_iff {b b' : Books} {op : BookOp} (hsound : b.Sound this)
    (h : b.owed ≤ b.token.balance this) (hstep : BookStep this b op b') :
    b'.owed ≤ b'.token.balance this ↔ op.Funded this b := by
  cases hstep with
  | configure => exact iff_of_true h trivial
  | @post budget f hjob =>
    refine iff_of_true ?_ trivial
    have hadded : ∑ i ∈ Finset.range (b.nextJobId + 1),
        (Function.update b.files b.nextJobId f i).owed = b.owed + f.owed :=
      Sums.sum_range_push b.files b.nextJobId f JobFile.owed
    have hnone : f.owed = 0 := owed_post hjob
    change ∑ i ∈ Finset.range (b.nextJobId + 1),
      (Function.update b.files b.nextJobId f i).owed ≤ b.token.balance this
    omega
  | @job id op f token₁ token hposted hjob hfee htake hpay =>
    have hmoved := Books.owed_update (f := f) (hsound.lt_of_posted hposted)
    have howed := hjob.owed b.treasury (hsound.files id)
    have htaken := takeDeposit_balance (hjob.deposit_ne (hsound.files id)) htake
    change ∑ i ∈ Finset.range b.nextJobId, (Function.update b.files id f i).owed ≤
      token.balance this ↔ _
    cases hop : op with
    | select picks p fee =>
      subst hop
      -- The refunds leave the contract, and so does the fee, unless the contract is the treasury.
      have hpaid : token.balance this + JobOp.outflow b.treasury (.select picks p fee) =
          token₁.balance this + if b.treasury = this then fee else 0 := by
        rw [JobOp.payments, Ledger.payAll_cons, Option.bind_eq_some_iff] at hpay
        obtain ⟨token₂, hfeePaid, hrefunds⟩ := hpay
        have hrefunded := Ledger.payAll_balance_src hrefunds ((hsound.files id).refunds_ne hjob.agents)
        unfold JobOp.outflow JobOp.payments
        rw [List.map_cons, List.sum_cons]
        rcases eq_or_ne b.treasury this with hself | hother
        · rw [if_pos hself]
          have hkept : token₂.balance this = token₁.balance this := by
            rw [hself] at hfeePaid
            exact Ledger.transfer_balance_self hfeePaid this
          omega
        · rw [if_neg hother]
          have hleft := Ledger.transfer_balance_src hfeePaid hother.symm
          omega
      change _ ↔ b.owed + p.total ≤ _
      have hpromise : JobOp.promise (.select picks p fee) = p.total := rfl
      have hinflow : JobOp.inflow (.select picks p fee) = 0 := rfl
      omega
    | _ =>
      refine iff_of_true ?_ trivial
      have hpaid := Ledger.payAll_src_le hpay
      have hpromise : op.promise = 0 := by
        rw [hop]
        rfl
      have houtflow : ((op.payments b.treasury).map Prod.snd).sum = op.outflow b.treasury := rfl
      omega

/-! ## A whole run -/

/-- The call has the winners' pay that it promises, besides what the contract owes. A fee that the contract
pays to itself stays with it. -/
def Funded (this : Address) (w : World State) : Label Env Call → Prop
  | .call _ (.selectWinners jobId winningBidIndices) =>
    w.state.owed + chosenAmount w.state jobId (winningBidIndices.map Fin.val) ≤ w.token.balance this +
      if w.state.treasury = this then
        chosenAmount w.state jobId (winningBidIndices.map Fin.val) * w.state.platformFeePercent / 100
      else 0
  | _ => True

theorem Call.Does.eq_selectWinners {c : Call} {id fee : ℕ} {picks : List ℕ} {p : Picks}
    (h : c.Does (.job id (.select picks p fee))) :
    ∃ (jobId : UInt 256) (winningBidIndices : List (UInt 256)),
      c = .selectWinners jobId winningBidIndices := by
  cases c with
  | selectWinners jobId winningBidIndices => exact ⟨jobId, winningBidIndices, rfl⟩
  | admin c => cases c <;> simp [Does] at h
  | _ => simp [Does] at h

theorem select_terms {b b' : Books} {id fee : ℕ} {picks : List ℕ} {p : Picks}
    (h : BookStep this b (.job id (.select picks p fee)) b') :
    p.total = (picks.map fun i => ((b.files id).bids.map AgentBid.bidAmount).getD i 0).sum ∧
      fee = p.total * b.feePercent / 100 := by
  cases h with
  | job hposted hjob hfee htake hpay => exact ⟨hjob.total, hfee _ _ _ rfl⟩

/-- A call keeps what is owed backed exactly when it is funded. -/
theorem Step.backed_iff {l : Label Env Call} (hw : (contract this).system.Reachable w)
    (h : Backed this w) (hstep : (contract this).Step w l w') :
    Backed this w' ↔ Funded this w l := by
  have hsound := reachable_sound hw
  cases hstep with
  | elsewhere hle _ => exact iff_of_true (h.trans hle) trivial
  | @call env c w w' hs h0 ht hexec =>
    have hcall : exec this env c w = .ok w' := hexec
    -- Only a selection of winners can promise more than there is.
    by_cases hselect : ∃ (jobId : UInt 256) (idxs : List (UInt 256)), c = .selectWinners jobId idxs
    · obtain ⟨jobId, idxs, rfl⟩ := hselect
      rcases exec_ok hsound hs hcall with ⟨op, ⟨p, fee, rfl⟩, hop⟩ | ⟨hidle, -⟩
      · -- The condition on the operation, in terms of the call and its indices.
        refine (AuditAuction.backed_iff hsound h hop).trans ?_
        obtain ⟨htotal, hfee⟩ := select_terms hop
        change (books w).owed + p.total ≤ (books w).token.balance this +
          (if (books w).treasury = this then fee else 0) ↔ _
        rw [hfee, htotal]
        rfl
      · exact absurd ⟨⟨[], [], 0⟩, 0, rfl⟩ (hidle _)
    · have hother : Funded this w (.call env c) := by
        unfold Funded
        split
        · rename_i jobId idxs heq
          obtain ⟨rfl, rfl⟩ := heq
          exact absurd ⟨jobId, idxs, rfl⟩ hselect
        · trivial
      refine iff_of_true ?_ hother
      rcases exec_ok hsound hs hcall with ⟨op, hdoes, hop⟩ | ⟨-, hsame⟩
      · refine (AuditAuction.backed_iff hsound h hop).mpr ?_
        unfold BookOp.Funded
        split
        · exact absurd hdoes.eq_selectWinners hselect
        · trivial
      · have hkept : (books w').owed ≤ (books w').token.balance this := by
          rw [hsame]
          exact h
        exact hkept

/-- Throughout a run, what the contract owes is backed, exactly when every selection of winners in the run
found the winners' pay in the contract's account besides what was owed. -/
theorem escrow_backed_iff {ts : List (Transition (World State) (Label Env Call))}
    (hr : (contract this).system.Run ts w) :
    Throughout (Backed this) ts w ↔ ∀ tr ∈ ts, Funded this tr.src tr.label := by
  refine hr.forall_iff ?_ ?_
  · intro w hfresh
    obtain ⟨deployer, guardToken, agentRegistry, orchestrator, treasury, hstate⟩ :=
      fresh_state_eq (show (contract this).fresh w.state from hfresh)
    unfold Backed State.owed
    rw [hstate]
    exact Nat.zero_le _
  · intro w l w' hw hbacked hstep
    exact Step.backed_iff hw hbacked hstep

/-! ## A payout out of another job's collateral -/

/-- The equivalence on the run with two jobs, where both sides fail. -/
theorem escrow_backed_iff_two_jobs : ∃ ts w, (contract 1).system.Run ts w ∧
    (Throughout (Backed 1) ts w ↔ ∀ tr ∈ ts, Funded 1 tr.src tr.label) ∧
    ¬ Throughout (Backed 1) ts w := by
  obtain ⟨ts, w, hcalls, hr, -⟩ := sample_run twoJobsCalls (by decide) rfl
  refine ⟨ts, w, hr, escrow_backed_iff hr, fun h => ?_⟩
  have howed := read_ok hcalls (fun w => w.state.owed) (b := 100 * 10^8) (by decide +kernel)
  have hbalance := read_ok hcalls (fun w => w.token.balance 1) (b := 0) rfl
  have hbacked : w.state.owed ≤ w.token.balance 1 := h.2
  omega

/-- The contract starts without GUARD, and only the bidders pay in. After the winner of the first job was
paid, nothing is left of the collateral of the bidder for the second job, which cannot be cancelled any
more. -/
theorem payout_drains_collateral : ∃ w, (contract 1).system.Reachable w ∧
    sampleWorld.token.balance 1 = 0 ∧ ¬ Backed 1 w ∧ w.token.balance 1 = 0 ∧
    w.state.owed = 100 * 10^8 ∧
    exec 1 (sampleEnv 5 63) (.cancelJob 2) w =
      .error (.require "AuditAuction: HTS transfer failed") := by
  obtain ⟨ts, w, hcalls, hr, -⟩ := sample_run twoJobsCalls (by decide) rfl
  have howed := read_ok hcalls (fun w => w.state.owed) (b := 100 * 10^8) (by decide +kernel)
  have hbalance := read_ok hcalls (fun w => w.token.balance 1) (b := 0) rfl
  refine ⟨w, hr.reachable, rfl, fun h => ?_, hbalance, howed, ?_⟩
  · unfold Backed at h
    omega
  · exact read_ok hcalls (fun w => exec 1 (sampleEnv 5 63) (.cancelJob 2) w)
      (b := .error (.require "AuditAuction: HTS transfer failed")) rfl

end AuditGuard.AuditAuction
