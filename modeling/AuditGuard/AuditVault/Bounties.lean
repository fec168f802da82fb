import AuditGuard.AuditVault.Reservations

/-!
# AuditVault: the bounty pool

Deposits fund the bounty pool up to its allocation, and bounties are paid out of it. But the pool is a
number beside the balance: withdrawals, payments for audits and payments to the monitor take from the
balance without a look at it. The unspent part of the pool stays in the balance throughout a run exactly
when each of these left it there.
-/

namespace AuditGuard.AuditVault

open Evm TransitionSystem

variable {this : Address} {env : Env} {w w' : World State}

/-- What is left of the bounty pool. -/
def Books.earmark (b : Books) : ℕ := b.pool - b.bounties

/-- The operation leaves the earmarked part of the balance alone. -/
def BookOp.SparesEarmark (b : Books) : BookOp → Prop
  | .withdraw _ x => x + b.earmark ≤ b.balance
  | .pay _ x => x + b.earmark ≤ b.balance
  | .settle now => ∀ m, b.monitor = some m → b.due now m + b.earmark ≤ b.balance
  | _ => True

/-- Bounties stay within the pool, and the pool within a `uint256`. -/
def Books.Pooled (b : Books) : Prop := b.bounties ≤ b.pool ∧ b.pool < 2^256

theorem Books.Pooled.step {b b' : Books} {op : BookOp} (h : b.Pooled) (hstep : BookStep this b op b') :
    b'.Pooled := by
  unfold Pooled at h ⊢
  cases hstep with
  | @deposit a x token ha hpay =>
    have hbound := b.rules.criticalBountyAllocation.isLt
    simp only [toPool]
    omega
  | bounty hpool hle hpay =>
    simp only
    omega
  | _ => exact h

theorem earmarked_iff {b b' : Books} {op : BookOp} (hpooled : b.Pooled) (h : b.earmark ≤ b.balance)
    (hstep : BookStep this b op b') : b'.earmark ≤ b'.balance ↔ op.SparesEarmark b := by
  unfold BookOp.SparesEarmark
  obtain ⟨hspent, -⟩ := hpooled
  unfold Books.earmark at h ⊢
  cases hstep with
  | @deposit a x token ha hpay =>
    have hfunded : b.toPool x ≤ x := min_le_left _ _
    simp only [iff_true]
    omega
  | withdraw hx hshare hfree hpay =>
    simp only
    omega
  | pay hreserved hle hpay =>
    simp only
    omega
  | bounty hpool hle hpay =>
    simp only [iff_true]
    omega
  -- A payment to the monitor comes out of what is not reserved, whether or not it is earmarked.
  | @settle now m token hm ht hpay =>
    have hfree := Books.due_le_free now m b
    simp only [Books.settle, hm, Option.some.injEq, forall_eq']
    omega
  | _ => simpa only [iff_true] using h

/-! ## Calls -/

/-- What is left of the bounty pool. -/
def State.earmark (s : State) : ℕ := s.criticalBountyPool - s.criticalBountySpent

/-- What the monitor, if there is one, gets at the time `now`. -/
def monitoringDue (now : ℕ) (w : World State) : ℕ :=
  match w.state.subscription with
  | none => 0
  | some m => (books w).due now m

/-- What a call takes from the balance for anything but a bounty. -/
def Call.outflow (env : Env) (w : World State) : Call → ℕ
  | .withdraw amount => amount
  | .drawPayment _ amount => amount
  | .applyForMonitoring _ => monitoringDue env.timestamp w
  | .claimMonitoringPayment => monitoringDue env.timestamp w
  | .cancelMonitoring => monitoringDue env.timestamp w
  | _ => 0

/-- If the call takes anything from the balance, other than for a bounty, then it leaves the earmarked part
alone. -/
def SparesEarmark (w : World State) : Label Env Call → Prop
  | .call env c => 0 < c.outflow env w →
    c.outflow env w + w.state.earmark ≤ w.state.currentBalance
  | .elsewhere _ _ => True

theorem settle_earmarked_iff {now : ℕ} {b : Books} (hpooled : (books w).Pooled)
    (h : w.state.earmark ≤ w.state.currentBalance) (hstep : BookStep this (books w) (.settle now) b) :
    b.earmark ≤ b.balance ↔ (0 < monitoringDue now w →
      monitoringDue now w + w.state.earmark ≤ w.state.currentBalance) := by
  rw [AuditVault.earmarked_iff hpooled h hstep]
  unfold BookOp.SparesEarmark monitoringDue
  change (∀ m, w.state.subscription = some m → _) ↔ _
  cases w.state.subscription with
  | none => simp
  | some m =>
    simp only [Option.some.injEq, forall_eq']
    change (books w).due now m + w.state.earmark ≤ w.state.currentBalance ↔ _
    omega

theorem settlement_earmarked_iff {now : ℕ} {b : Books} (hpooled : (books w).Pooled)
    (h : w.state.earmark ≤ w.state.currentBalance)
    (hsteps : BookSteps this (books w) (w.state.settlement now) b) :
    b.earmark ≤ b.balance ↔ (0 < monitoringDue now w →
      monitoringDue now w + w.state.earmark ≤ w.state.currentBalance) := by
  unfold State.settlement at hsteps
  split_ifs at hsteps with hactive
  · exact settle_earmarked_iff hpooled h hsteps.of_singleton
  · have hnone : monitoringDue now w = 0 := by
      unfold monitoringDue State.subscription
      rw [if_neg hactive]
    rw [hsteps.of_nil, hnone]
    exact iff_of_true h fun hpos => absurd hpos (Nat.lt_irrefl 0)

/-- A step keeps the earmark in the balance exactly when it leaves it alone. -/
theorem Step.earmarked_iff {l : Label Env Call} (hpooled : (books w).Pooled)
    (h : w.state.earmark ≤ w.state.currentBalance) (hstep : (contract this).Step w l w') :
    w'.state.earmark ≤ w'.state.currentBalance ↔ SparesEarmark w l := by
  cases hstep with
  | elsewhere _ _ => exact iff_of_true h trivial
  | @call env c w w' hs h0 ht hexec =>
    have hops := exec_ok hs h0 hexec
    change (books w').earmark ≤ (books w').balance ↔ (0 < c.outflow env w → _)
    cases c with
    | withdraw amount =>
      rw [AuditVault.earmarked_iff hpooled h hops.of_singleton]
      change (amount : ℕ) + w.state.earmark ≤ w.state.currentBalance ↔ (0 < (amount : ℕ) →
        (amount : ℕ) + w.state.earmark ≤ w.state.currentBalance)
      omega
    | drawPayment recipient amount =>
      rw [AuditVault.earmarked_iff hpooled h hops.of_singleton]
      change (amount : ℕ) + w.state.earmark ≤ w.state.currentBalance ↔ (0 < (amount : ℕ) →
        (amount : ℕ) + w.state.earmark ≤ w.state.currentBalance)
      omega
    | claimMonitoringPayment => exact settle_earmarked_iff hpooled h hops.of_singleton
    | applyForMonitoring weeklyRate =>
      obtain ⟨b, hsettle, hsubscribe⟩ := hops.of_snoc
      have hsame : (books w').earmark = b.earmark ∧ (books w').balance = b.balance := by
        generalize books w' = b' at hsubscribe
        cases hsubscribe
        exact ⟨rfl, rfl⟩
      rw [hsame.1, hsame.2]
      exact settlement_earmarked_iff hpooled h hsettle
    | cancelMonitoring =>
      obtain ⟨b, hsettle, hunsubscribe⟩ := hops.of_snoc
      have hsame : (books w').earmark = b.earmark ∧ (books w').balance = b.balance := by
        generalize books w' = b' at hunsubscribe
        cases hunsubscribe
        exact ⟨rfl, rfl⟩
      rw [hsame.1, hsame.2]
      exact settlement_earmarked_iff hpooled h hsettle
    -- The other calls make an operation that spares the earmark, or none.
    | associateGuardToken | recordAuditCompletion _ | checkAndTriggerReaudit | setAuthorizedDrawer _ _ =>
      rw [hops.of_nil]
      exact iff_of_true h fun hpos => absurd hpos (Nat.lt_irrefl 0)
    | initializeVault _ _ _ _ _ _ _ | deposit _ | reserveForAuction _ | releaseReservation _
    | drawBounty _ _ | updateConfig _ =>
      rw [AuditVault.earmarked_iff hpooled h hops.of_singleton]
      exact iff_of_true trivial fun hpos => absurd hpos (Nat.lt_irrefl 0)

theorem reachable_pooled (hw : (contract this).system.Reachable w) : (books w).Pooled := by
  refine books_induct (I := Books.Pooled) ?_ ?_ ?_ hw
  · intro token
    exact ⟨le_rfl, by norm_num [State.books, State.blank]⟩
  · intro b op b' hb hstep
    exact hb.step hstep
  · intro b token _ hb
    exact hb

/-! ## What the pool promises -/

/-- The bounty pool is funded: bounties stay within it, what is left of it is in the balance, and every
bounty within it that an authorized drawer asks for succeeds, where HTS takes the transfer. -/
structure Funded (this : Address) (w : World State) : Prop where
  spent_le : w.state.criticalBountySpent ≤ w.state.criticalBountyPool
  earmarked : w.state.criticalBountyPool - w.state.criticalBountySpent ≤ w.state.currentBalance
  draws : ∀ (env : Env) (recipient : Address) (amount : UInt 256), env.value = 0 →
    env.transferAnswer = Hts.HTS_SUCCESS → w.state.authorizedDrawers env.sender = true →
    recipient ≠ 0 → 0 < (amount : ℕ) →
    w.state.criticalBountySpent + amount ≤ w.state.criticalBountyPool →
    ∃ w', exec this env (.drawBounty recipient amount) w = .ok w'

theorem drawBounty_succeeds (hpooled : (books w).Pooled) (hbacked : (books w).Backed this)
    (h : w.state.earmark ≤ w.state.currentBalance) {recipient : Address} {amount : ℕ}
    (hanswer : env.transferAnswer = Hts.HTS_SUCCESS)
    (hdrawer : w.state.authorizedDrawers env.sender = true) (hrecipient : recipient ≠ 0)
    (hpos : 0 < amount)
    (hpool : w.state.criticalBountySpent + amount ≤ w.state.criticalBountyPool) :
    ∃ w', drawBounty this env recipient amount w = .ok w' := by
  have hfits : w.state.criticalBountySpent + amount < 2^256 := hpool.trans_lt hpooled.2
  have hbalance : amount ≤ w.state.currentBalance := by
    unfold State.earmark at h
    omega
  -- Every `require` is met, so the ledger entry goes through.
  have hdebit : debitBounty env recipient amount w.state = .ok { w.state with
      criticalBountySpent := w.state.criticalBountySpent + amount
      currentBalance := w.state.currentBalance - amount } := by
    simp only [debitBounty, onlyAuthorizedDrawer, require_of hdrawer, require_of hrecipient,
      require_of hpos, checkedAdd_of_lt hfits, require_of hpool, require_of hbalance,
      checkedSub_of_le hbalance, ok_bind]
    rfl
  -- The balance is backed by the token account, so the transfer goes through as well.
  obtain ⟨token, hpay⟩ := Hts.transfer_succeeds "AuditVault" { w with state := { w.state with
      criticalBountySpent := w.state.criticalBountySpent + amount
      currentBalance := w.state.currentBalance - amount } } recipient hanswer (hbalance.trans hbacked)
  unfold drawBounty transferGuard
  rw [hdebit, ok_bind, hpay, ok_bind]
  exact ⟨_, rfl⟩

theorem funded_iff (hw : (contract this).system.Reachable w) :
    Funded this w ↔ w.state.earmark ≤ w.state.currentBalance := by
  have hpooled := reachable_pooled hw
  refine ⟨Funded.earmarked, fun h => ⟨hpooled.1, h, ?_⟩⟩
  intro env recipient amount hvalue hanswer hdrawer hrecipient hpos hpool
  unfold exec
  rw [if_neg (not_not.mpr hvalue)]
  exact drawBounty_succeeds hpooled (reachable_backed hw) h hanswer hdrawer hrecipient hpos hpool

/-- The bounty pool is funded throughout a run exactly when every withdrawal, payment and settlement of
the run left the earmarked part of the balance alone. -/
theorem bounties_funded_iff {ts : List (Transition (World State) (Label Env Call))}
    (hr : (contract this).system.Run ts w) :
    Throughout (Funded this) ts w ↔ ∀ tr ∈ ts, SparesEarmark tr.src tr.label := by
  refine hr.forall_iff ?_ ?_
  · intro w hfresh
    refine (funded_iff (.init hfresh)).mpr ?_
    rw [show w.state = State.blank from hfresh]
    exact le_rfl
  · intro w l w' hw hfunded hstep
    rw [funded_iff (hw.step hstep)]
    exact Step.earmarked_iff (reachable_pooled hw) hfunded.earmarked hstep

/-! ## A withdrawal of the bounty pool -/

/-- A deposit of 60 GUARD, which all goes to the bounty pool, and is withdrawn. -/
def drainedCalls : List (Env × Call) :=
  setupCalls ++ [
    (sampleEnv 2 1, .deposit (60 * 10^8)),
    (sampleEnv 2 2, .withdraw (60 * 10^8))]

/-- The equivalence on the run with the withdrawal, where both sides fail. -/
theorem bounties_funded_iff_drained : ∃ ts w, (contract 1).system.Run ts w ∧
    (Throughout (Funded 1) ts w ↔ ∀ tr ∈ ts, SparesEarmark tr.src tr.label) ∧
    ¬ Throughout (Funded 1) ts w := by
  obtain ⟨ts, w, hcalls, hr, -⟩ := sample_run drainedCalls (by decide) rfl
  refine ⟨ts, w, hr, bounties_funded_iff hr, fun h => ?_⟩
  have hearmark := read_ok hcalls (fun w => w.state.earmark) (b := 60 * 10^8) (by decide +kernel)
  have hbalance := read_ok hcalls (fun w => w.state.currentBalance) (b := 0) rfl
  have hearmarked : w.state.earmark ≤ w.state.currentBalance := h.2.earmarked
  omega

/-- After the withdrawal, the pool still shows 60 GUARD, but there are none. -/
theorem withdrawal_drains_pool : ∃ w, (contract 1).system.Reachable w ∧ ¬ Funded 1 w ∧
    w.state.criticalBountyPool = 60 * 10^8 ∧ w.state.criticalBountySpent = 0 ∧
    w.state.currentBalance = 0 ∧
    exec 1 (sampleEnv 5 3) (.drawBounty 8 1) w =
      .error (.require "AuditVault: insufficient balance") := by
  obtain ⟨ts, w, hcalls, hr, -⟩ := sample_run drainedCalls (by decide) rfl
  have hpool := read_ok hcalls (fun w => w.state.criticalBountyPool) (b := 60 * 10^8)
    (by decide +kernel)
  have hspent := read_ok hcalls (fun w => w.state.criticalBountySpent) (b := 0) rfl
  have hbalance := read_ok hcalls (fun w => w.state.currentBalance) (b := 0) rfl
  refine ⟨w, hr.reachable, fun h => ?_, hpool, hspent, hbalance, ?_⟩
  · have hearmarked := h.earmarked
    omega
  · exact read_ok hcalls (fun w => exec 1 (sampleEnv 5 3) (.drawBounty 8 1) w)
      (b := .error (.require "AuditVault: insufficient balance")) rfl

end AuditGuard.AuditVault
