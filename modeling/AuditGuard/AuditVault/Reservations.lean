import AuditGuard.AuditVault.Effects

/-!
# AuditVault: the reservations of running audits

A reservation is a promise that `drawPayment` will pay. Withdrawals, new reservations and the payments to
the monitor look at the part of the balance that is not reserved, but `drawBounty` only looks at the whole
balance. The reservations are honoured throughout a run exactly when every bounty left them alone.
-/

namespace AuditGuard.AuditVault

open Evm TransitionSystem

variable {this : Address} {env : Env} {w w' : World State}

/-- The operation leaves the reserved part of the balance alone. Only a bounty can fail to. -/
def BookOp.SparesReserved (b : Books) : BookOp → Prop
  | .bounty _ x => b.reserved + x ≤ b.balance
  | _ => True

theorem covered_iff {b b' : Books} {op : BookOp} (h : b.reserved ≤ b.balance)
    (hstep : BookStep this b op b') : b'.reserved ≤ b'.balance ↔ op.SparesReserved b := by
  unfold BookOp.SparesReserved
  cases hstep with
  -- A bounty is tested against the whole balance, reserved or not.
  | bounty hpool hle hpay =>
    simp only
    omega
  | deposit ha hpay =>
    simp only [iff_true]
    omega
  | withdraw hx hshare hfree hpay =>
    simp only [iff_true]
    omega
  | reserve hfree =>
    simp only [iff_true]
    omega
  | pay hreserved hle hpay =>
    simp only [iff_true]
    omega
  | release hreserved =>
    simp only [iff_true]
    omega
  | @settle now m token hm ht hpay =>
    have hfree := Books.due_le_free now m b
    simp only [Books.settle, iff_true]
    omega
  | _ => simpa only [iff_true] using h

/-- The call leaves the reserved part of the balance alone. -/
def SparesReserved (w : World State) : Label Env Call → Prop
  | .call _ (.drawBounty _ amount) => w.state.reservedForEscrow + amount ≤ w.state.currentBalance
  | _ => True

theorem Step.covered_iff {l : Label Env Call} (h : w.state.reservedForEscrow ≤ w.state.currentBalance)
    (hstep : (contract this).Step w l w') :
    w'.state.reservedForEscrow ≤ w'.state.currentBalance ↔ SparesReserved w l := by
  cases hstep with
  | elsewhere _ _ => simpa [SparesReserved] using h
  | @call env c w w' hs h0 ht hexec =>
    have hops := exec_ok hs h0 hexec
    by_cases hbounty : ∃ recipient amount, c = .drawBounty recipient amount
    · obtain ⟨recipient, amount, rfl⟩ := hbounty
      exact AuditVault.covered_iff h hops.of_singleton
    · have hother : SparesReserved w (.call env c) := by
        unfold SparesReserved
        split
        · rename_i recipient amount hcall
          obtain ⟨rfl, rfl⟩ := hcall
          exact absurd ⟨recipient, amount, rfl⟩ hbounty
        · trivial
      -- Without a bounty among its operations, a call spares the reservations at every one of them.
      refine iff_of_true (hops.induct_mem (P := fun b => b.reserved ≤ b.balance) ?_ h) hother
      intro b op b' hop hb hstep
      refine (AuditVault.covered_iff hb hstep).mpr ?_
      cases op with
      | bounty recipient x =>
        obtain ⟨amount, hcall, -⟩ := Call.bounty_mem_ops hop
        exact absurd ⟨recipient, amount, hcall⟩ hbounty
      | _ => trivial

/-! ## What the reservations promise -/

/-- The reservations are honoured: they are covered by the balance, and it by the token account; every
payment within them that an authorized drawer asks for succeeds, where HTS takes the transfer; and no
withdrawal or reservation fails in the subtraction that computes what is not reserved. -/
structure Honours (this : Address) (w : World State) : Prop where
  covered : w.state.reservedForEscrow ≤ w.state.currentBalance
  backed : w.state.currentBalance ≤ w.token.balance this
  draws : ∀ (env : Env) (recipient : Address) (amount : UInt 256), env.value = 0 →
    env.transferAnswer = Hts.HTS_SUCCESS → w.state.authorizedDrawers env.sender = true →
    recipient ≠ 0 → 0 < (amount : ℕ) → amount ≤ w.state.reservedForEscrow →
    ∃ w', exec this env (.drawPayment recipient amount) w = .ok w'
  withdraws : ∀ (env : Env) (amount : UInt 256),
    exec this env (.withdraw amount) w ≠ .error .underflow
  reserves : ∀ (env : Env) (amount : UInt 256),
    exec this env (.reserveForAuction amount) w ≠ .error .underflow

theorem drawPayment_succeeds (hcovered : w.state.reservedForEscrow ≤ w.state.currentBalance)
    (hbacked : w.state.currentBalance ≤ w.token.balance this) {recipient : Address} {amount : ℕ}
    (hanswer : env.transferAnswer = Hts.HTS_SUCCESS)
    (hdrawer : w.state.authorizedDrawers env.sender = true) (hrecipient : recipient ≠ 0)
    (hpos : 0 < amount) (hle : amount ≤ w.state.reservedForEscrow) :
    ∃ w', drawPayment this env recipient amount w = .ok w' := by
  have hbalance := hle.trans hcovered
  have hdebit : debitPayment env recipient amount w.state = .ok { w.state with
      reservedForEscrow := w.state.reservedForEscrow - amount
      currentBalance := w.state.currentBalance - amount } := by
    simp only [debitPayment, onlyAuthorizedDrawer, require_of hdrawer, require_of hrecipient,
      require_of hpos, require_of hle, checkedSub_of_le hle, checkedSub_of_le hbalance, ok_bind]
    rfl
  obtain ⟨token, hpay⟩ := Hts.transfer_succeeds "AuditVault" { w with state := { w.state with
      reservedForEscrow := w.state.reservedForEscrow - amount
      currentBalance := w.state.currentBalance - amount } } recipient hanswer (hbalance.trans hbacked)
  unfold drawPayment transferGuard
  rw [hdebit, ok_bind, hpay, ok_bind]
  exact ⟨_, rfl⟩

theorem withdraw_ne_underflow (h : w.state.reservedForEscrow ≤ w.state.currentBalance) {amount : ℕ} :
    withdraw this env amount w ≠ .error .underflow := by
  intro herror
  simp only [withdraw, debitWithdrawal, transferGuard, bind_eq_error, bind_eq_ok, require_eq_error,
    require_eq_ok, checkedSub_eq_error, checkedSub_eq_ok, pure_ne_error, Hts.transfer_ne_underflow,
    reduceCtorEq, and_false, and_true, exists_false, or_false, false_or] at herror
  obtain ⟨_, -, _, hshare, ⟨hlt⟩ | ⟨_, ⟨-, rfl⟩, _, hfree, hlt | ⟨_, -, hlt⟩⟩⟩ := herror
  all_goals omega

theorem reserveForAuction_ne_underflow {s : State} (h : s.reservedForEscrow ≤ s.currentBalance)
    {amount : ℕ} : reserveForAuction env amount s ≠ .error .underflow := by
  intro herror
  simp only [reserveForAuction, onlyAuthorizedDrawer, bind_eq_error, require_eq_error,
    checkedSub_eq_error, checkedAdd_eq_error, pure_ne_error, reduceCtorEq, and_false, and_true,
    exists_false, or_false, false_or] at herror
  omega

theorem honours_iff (hw : (contract this).system.Reachable w) :
    Honours this w ↔ w.state.reservedForEscrow ≤ w.state.currentBalance := by
  refine ⟨Honours.covered, fun hcovered => ⟨hcovered, reachable_backed hw, ?_, ?_, ?_⟩⟩
  · intro env recipient amount hvalue hanswer hdrawer hrecipient hpos hle
    unfold exec
    rw [if_neg (not_not.mpr hvalue)]
    exact drawPayment_succeeds hcovered (reachable_backed hw) hanswer hdrawer hrecipient hpos hle
  · intro env amount
    unfold exec
    split_ifs
    · simp
    · exact withdraw_ne_underflow hcovered
  · intro env amount
    unfold exec
    split_ifs
    · simp
    · intro herror
      simp only [onState, bind_eq_error, pure_ne_error, and_false, exists_false, or_false] at herror
      exact reserveForAuction_ne_underflow hcovered herror

/-- The reservations are honoured throughout a run exactly when every bounty of the run left them
alone. -/
theorem reservations_honoured_iff {ts : List (Transition (World State) (Label Env Call))}
    (hr : (contract this).system.Run ts w) :
    Throughout (Honours this) ts w ↔ ∀ tr ∈ ts, SparesReserved tr.src tr.label := by
  refine hr.forall_iff ?_ ?_
  · intro w hfresh
    refine (honours_iff (.init hfresh)).mpr ?_
    rw [show w.state = State.blank from hfresh]
    exact le_rfl
  · intro w l w' hw hhonours hstep
    rw [honours_iff (hw.step hstep)]
    exact Step.covered_iff hhonours.covered hstep

/-! ## A bounty out of a reservation -/

/-- A deposit of 100 GUARD, which is all reserved for an audit. -/
def reservedCalls : List (Env × Call) :=
  setupCalls ++ [
    (sampleEnv 2 1, .deposit (100 * 10^8)),
    (sampleEnv 5 2, .reserveForAuction (100 * 10^8))]

/-- Then a bounty of 50 GUARD. -/
def bountyCalls : List (Env × Call) :=
  reservedCalls ++ [(sampleEnv 5 3, .drawBounty 8 (50 * 10^8))]

/-- The equivalence on the run with the bounty, where both sides fail. -/
theorem reservations_honoured_iff_bounty : ∃ ts w, (contract 1).system.Run ts w ∧
    (Throughout (Honours 1) ts w ↔ ∀ tr ∈ ts, SparesReserved tr.src tr.label) ∧
    ¬ Throughout (Honours 1) ts w := by
  obtain ⟨ts, w, hcalls, hr, -⟩ := sample_run bountyCalls (by decide) rfl
  refine ⟨ts, w, hr, reservations_honoured_iff hr, fun h => ?_⟩
  have hreserved := read_ok hcalls (fun w => w.state.reservedForEscrow) (b := 100 * 10^8)
    (by decide +kernel)
  have hbalance := read_ok hcalls (fun w => w.state.currentBalance) (b := 50 * 10^8)
    (by decide +kernel)
  have hcovered := h.2.covered
  omega

/-- After the bounty, the payment that was reserved fails in a subtraction, and so do a withdrawal and a
reservation. -/
theorem bounty_breaks_reservation : ∃ w, (contract 1).system.Reachable w ∧ ¬ Honours 1 w ∧
    w.state.reservedForEscrow = 100 * 10^8 ∧
    exec 1 (sampleEnv 5 4) (.drawPayment 8 (100 * 10^8)) w = .error .underflow ∧
    exec 1 (sampleEnv 2 4) (.withdraw 1) w = .error .underflow ∧
    exec 1 (sampleEnv 5 4) (.reserveForAuction 1) w = .error .underflow := by
  obtain ⟨ts, w, hcalls, hr, -⟩ := sample_run bountyCalls (by decide) rfl
  have hreserved := read_ok hcalls (fun w => w.state.reservedForEscrow) (b := 100 * 10^8)
    (by decide +kernel)
  have hwithdraw := read_ok hcalls (fun w => exec 1 (sampleEnv 2 4) (.withdraw 1) w)
    (b := .error .underflow) rfl
  refine ⟨w, hr.reachable, fun h => h.withdraws _ _ hwithdraw, hreserved, ?_, hwithdraw, ?_⟩
  · exact read_ok hcalls (fun w => exec 1 (sampleEnv 5 4) (.drawPayment 8 (100 * 10^8)) w)
      (b := .error .underflow) rfl
  · exact read_ok hcalls (fun w => exec 1 (sampleEnv 5 4) (.reserveForAuction 1) w)
      (b := .error .underflow) rfl

end AuditGuard.AuditVault
