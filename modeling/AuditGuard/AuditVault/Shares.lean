import AuditGuard.AuditVault.Effects
import AuditGuard.Library.ProRata

/-!
# AuditVault: the shares of the depositors

`withdraw` pays first come, first served: up to what the caller deposited, as long as there is something
that is not reserved. What the vault spent is charged to nobody's deposit. So a withdrawal is within the
caller's proportional share of the available funds only where the order makes no difference.
-/

namespace AuditGuard.AuditVault

open Evm TransitionSystem

variable {this : Address} {env : Env} {w w' : World State} {amount : ℕ}

/-- Every withdrawal that succeeds takes at most the caller's proportional share of what is not
reserved. -/
def Proportional (this : Address) (w : World State) : Prop :=
  ∀ (env : Env) (amount : UInt 256) (w' : World State),
    exec this env (.withdraw amount) w = .ok w' →
    amount ≤ w.state.available * w.state.depositorBalances env.sender /
      ∑ d, w.state.depositorBalances d

/-- There is nothing to withdraw, or the available funds cover all deposits that are left, or at most one
depositor has some left. -/
def OrderIrrelevant (s : State) : Prop :=
  s.available = 0 ∨ ∑ d, s.depositorBalances d ≤ s.available ∨
    ∃ d, ∀ d', d' ≠ d → s.depositorBalances d' = 0

theorem State.available_eq (s : State) :
    s.available = s.currentBalance - s.reservedForEscrow := by
  unfold available
  split_ifs <;> omega

theorem withdraw_le (h : withdraw this env amount w = .ok w') :
    0 < amount ∧ amount ≤ w.state.depositorBalances env.sender ∧ amount ≤ w.state.available := by
  rw [State.available_eq]
  have hstep := withdraw_ok h
  generalize books w' = b at hstep
  generalize hb : books w = b' at hstep
  cases hstep with
  | withdraw hx hshare hfree hpay =>
    subst hb
    have hall : w.state.reservedForEscrow + amount ≤ w.state.currentBalance := hfree
    exact ⟨hx, hshare, by omega⟩

theorem withdraw_succeeds (hbacked : (books w).Backed this)
    (hanswer : env.transferAnswer = Hts.HTS_SUCCESS) (hpos : 0 < amount)
    (hshare : amount ≤ w.state.depositorBalances env.sender) (hfree : amount ≤ w.state.available) :
    ∃ w', withdraw this env amount w = .ok w' := by
  rw [State.available_eq] at hfree
  have hreserved : w.state.reservedForEscrow ≤ w.state.currentBalance := by omega
  have hbalance : amount ≤ w.state.currentBalance := by omega
  have hdebit : debitWithdrawal env amount w.state = .ok { w.state with
      depositorBalances := Function.update w.state.depositorBalances env.sender
        (w.state.depositorBalances env.sender - amount)
      currentBalance := w.state.currentBalance - amount } := by
    simp only [debitWithdrawal, require_of hpos, require_of hshare, checkedSub_of_le hreserved,
      require_of hfree, checkedSub_of_le hshare, checkedSub_of_le hbalance, ok_bind]
    rfl
  obtain ⟨token, hpay⟩ := Hts.transfer_succeeds "AuditVault" { w with state := { w.state with
      depositorBalances := Function.update w.state.depositorBalances env.sender
        (w.state.depositorBalances env.sender - amount)
      currentBalance := w.state.currentBalance - amount } } env.sender hanswer
    (hbalance.trans hbacked)
  unfold withdraw transferGuard
  rw [hdebit, ok_bind, hpay, ok_bind]
  exact ⟨_, rfl⟩

theorem proportional_iff_firstCome (hw : (contract this).system.Reachable w) : Proportional this w ↔
    ∀ d x, x ≤ w.state.depositorBalances d → x ≤ w.state.available →
      x * ∑ d', w.state.depositorBalances d' ≤ w.state.available * w.state.depositorBalances d := by
  have hbacked := reachable_backed hw
  constructor
  · intro h d x hshare hfree
    rcases Nat.eq_zero_or_pos x with rfl | hpos
    · rw [Nat.zero_mul]
      exact Nat.zero_le _
    -- A depositor who asks for it gets it.
    have hfits : x < 2^256 := by
      have hbalance : w.state.currentBalance ≤ w.token.balance this := hbacked
      have hcap := w.token.balance_lt this
      rw [State.available_eq] at hfree
      omega
    obtain ⟨w', hw'⟩ : ∃ w', withdraw this (sampleEnv d w.now) x w = .ok w' :=
      withdraw_succeeds hbacked rfl hpos hshare hfree
    have hpart := h (sampleEnv d w.now) ⟨x, hfits⟩ w' hw'
    have hsome : 0 < ∑ d', w.state.depositorBalances d' :=
      (hpos.trans_le hshare).trans_le
        (Finset.single_le_sum_of_canonicallyOrdered (Finset.mem_univ d))
    exact (Nat.le_div_iff_mul_le hsome).mp hpart
  · intro h env amount w' hcall
    unfold exec at hcall
    split_ifs at hcall
    obtain ⟨hpos, hshare, hfree⟩ := withdraw_le hcall
    have hsome : 0 < ∑ d', w.state.depositorBalances d' :=
      (hpos.trans_le hshare).trans_le
        (Finset.single_le_sum_of_canonicallyOrdered (Finset.mem_univ env.sender))
    exact (Nat.le_div_iff_mul_le hsome).mpr (h env.sender amount hshare hfree)

/-- In the states that a run visits, the withdrawals are proportional exactly where their order makes no
difference. -/
theorem withdrawals_proportional_iff {ts : List (Transition (World State) (Label Env Call))}
    (hr : (contract this).system.Run ts w) :
    Throughout (Proportional this) ts w ↔ Throughout (fun w => OrderIrrelevant w.state) ts w := by
  have hstate : ∀ w, (contract this).system.Reachable w →
      (Proportional this w ↔ OrderIrrelevant w.state) := by
    intro w hw
    rw [proportional_iff_firstCome hw]
    exact ProRata.firstCome_iff
  exact and_congr (forall₂_congr fun tr htr => hstate _ (hr.step_of_mem tr htr).1)
    (hstate _ hr.reachable)

/-! ## Two depositors -/

/-- A deposit of 200 GUARD, of which 100 are spent on an audit, and the auditor's deposit of its pay. -/
def spentCalls : List (Env × Call) :=
  setupCalls ++ [
    (sampleEnv 2 1, .deposit (200 * 10^8)),
    (sampleEnv 5 2, .reserveForAuction (100 * 10^8)),
    (sampleEnv 5 3, .drawPayment 8 (100 * 10^8)),
    (sampleEnv 8 4, .deposit (100 * 10^8))]

/-- Of 200 GUARD, with deposits of 200 and 100 GUARD left, the first depositor gets everything instead of
two thirds, and the second one gets nothing. -/
theorem first_withdrawal_takes_all : ∃ w w', (contract 1).system.Reachable w ∧
    ¬ Proportional 1 w ∧ w.state.available = 200 * 10^8 ∧
    w.state.depositorBalances 2 = 200 * 10^8 ∧ w.state.depositorBalances 8 = 100 * 10^8 ∧
    exec 1 (sampleEnv 2 5) (.withdraw (200 * 10^8)) w = .ok w' ∧
    exec 1 (sampleEnv 8 6) (.withdraw 1) w' =
      .error (.require "AuditVault: insufficient available balance") := by
  obtain ⟨ts, w, hcalls, hr, -⟩ := sample_run spentCalls (by decide) rfl
  have havailable := read_ok hcalls (fun w => w.state.available) (b := 200 * 10^8)
    (by decide +kernel)
  have hfirst := read_ok hcalls (fun w => w.state.depositorBalances 2) (b := 200 * 10^8)
    (by decide +kernel)
  have hsecond := read_ok hcalls (fun w => w.state.depositorBalances 8) (b := 100 * 10^8)
    (by decide +kernel)
  have hwithdraw := read_ok hcalls
    (fun w => (exec 1 (sampleEnv 2 5) (.withdraw (200 * 10^8)) w).isOk) (b := true) rfl
  obtain ⟨w', hw'⟩ := exists_eq_ok hwithdraw
  refine ⟨w, w', hr.reachable, fun h => ?_, havailable, hfirst, hsecond, hw', ?_⟩
  · -- Proportional shares would leave the first depositor two thirds, which is less than it got.
    have hpart := h _ _ _ hw'
    have hpair := ProRata.pair_le_sum w.state.depositorBalances (by decide : (2 : Address) ≠ 8)
    rw [havailable] at hpart
    change ((200 * 10^8 : UInt 256) : ℕ) ≤ 200 * 10^8 * w.state.depositorBalances 2 / _ at hpart
    rw [hfirst] at hpart hpair
    rw [hsecond] at hpair
    have hproduct := (Nat.le_div_iff_mul_le (by omega)).mp hpart
    change 20000000000 * _ ≤ _ at hproduct
    omega
  · -- After that, the second depositor cannot withdraw a single unit.
    have hafter := read_ok hcalls (fun w => (exec 1 (sampleEnv 2 5) (.withdraw (200 * 10^8)) w).bind
      (fun w => exec 1 (sampleEnv 8 6) (.withdraw 1) w))
      (b := .error (.require "AuditVault: insufficient available balance")) rfl
    simpa only [hw', Except.bind] using hafter

/-- The equivalence on the run up to the withdrawal, where both sides fail. -/
theorem withdrawals_proportional_iff_spent : ∃ ts w, (contract 1).system.Run ts w ∧
    (Throughout (Proportional 1) ts w ↔ Throughout (fun w => OrderIrrelevant w.state) ts w) := by
  obtain ⟨ts, w, hcalls, hr, -⟩ := sample_run spentCalls (by decide) rfl
  exact ⟨ts, w, hr, withdrawals_proportional_iff hr⟩

end AuditGuard.AuditVault
