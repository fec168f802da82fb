import AuditGuard.AuditVault.Books

/-!
# AuditVault: what a call does

The storage as books, and the operations that each call makes on them (`exec_ok`). A call makes one
operation, or none, except that a change of the monitor settles with the old one first.
-/

namespace AuditGuard.AuditVault

open Evm

/-! ## The storage as books -/

/-- The subscription in force. -/
def State.subscription (s : State) : Option Subscription :=
  if s.activeMonitor.active = true ∧ s.activeMonitor.agent ≠ 0 then
    some ⟨s.activeMonitor.agent, s.activeMonitor.weeklyRate, s.activeMonitor.startedAt,
      s.activeMonitor.lastPaymentAt⟩
  else none

/-- The window of the weekly budget. -/
def State.window (s : State) : Window := ⟨s.weeklyResetTimestamp, s.weeklyMonitoringSpent⟩

/-- The books that the storage keeps, with the ledger `token`. -/
def State.books (s : State) (token : TokenLedger) : Books where
  token := token
  opened := s.initialized
  balance := s.currentBalance
  reserved := s.reservedForEscrow
  pool := s.criticalBountyPool
  bounties := s.criticalBountySpent
  shares := s.depositorBalances
  rules := s.config
  window := s.window
  monitor := s.subscription

/-- The books of the vault. -/
def books (w : World State) : Books := w.state.books w.token

/-- The operations of a settlement with the monitor. -/
def State.settlement (now : ℕ) (s : State) : List BookOp :=
  if s.activeMonitor.active = true ∧ s.activeMonitor.agent ≠ 0 then [.settle now] else []

/-- The operations that a call makes. -/
def Call.ops (env : Env) (s : State) : Call → List BookOp
  | .initializeVault _ _ _ _ _ config _ => [.setup env.timestamp config]
  | .deposit amount => [.deposit env.sender amount]
  | .withdraw amount => [.withdraw env.sender amount]
  | .reserveForAuction amount => [.reserve amount]
  | .drawPayment recipient amount => [.pay recipient amount]
  | .releaseReservation amount => [.release amount]
  | .drawBounty recipient amount => [.bounty recipient amount]
  | .applyForMonitoring weeklyRate =>
    s.settlement env.timestamp ++ [.subscribe env.sender weeklyRate env.timestamp]
  | .claimMonitoringPayment => [.settle env.timestamp]
  | .cancelMonitoring => s.settlement env.timestamp ++ [.unsubscribe]
  | .updateConfig newConfig => [.configure newConfig]
  | _ => []

variable {this : Address} {env : Env} {s s' : State} {w w' : World State} {amount owed : ℕ}

/-- A settlement is one operation, or none. -/
@[simp]
theorem State.mem_settlement {now : ℕ} {op : BookOp} : op ∈ s.settlement now ↔
    (s.activeMonitor.active = true ∧ s.activeMonitor.agent ≠ 0) ∧ op = .settle now := by
  unfold settlement
  split_ifs with h <;> simp [h]

theorem Call.bounty_mem_ops {c : Call} {recipient : Address}
    (h : BookOp.bounty recipient amount ∈ c.ops env s) :
    ∃ x : UInt 256, c = .drawBounty recipient x ∧ amount = x := by
  cases c with
  | drawBounty recipient' x =>
    simp only [ops, List.mem_singleton, BookOp.bounty.injEq] at h
    exact ⟨x, by rw [h.1], h.2⟩
  | _ => simp [ops] at h

/-! ## Deposits -/

theorem trackDepositor_books (h : trackDepositor env s = .ok s') : s'.books = s.books := by
  unfold trackDepositor at h
  split_ifs at h
  · simp only [bind_eq_ok, pure_eq_ok] at h
    obtain ⟨_, -, rfl⟩ := h
    rfl
  · rw [pure_eq_ok] at h
    rw [h]

theorem fundBountyPool_ok (h : fundBountyPool amount s = .ok s') : s' = { s with
    criticalBountyPool := s.criticalBountyPool +
      min amount (s.config.criticalBountyAllocation - s.criticalBountyPool) } := by
  unfold fundBountyPool at h
  split_ifs at h with hgap
  · simp only [bind_eq_ok, checkedSub_eq_ok, checkedAdd_eq_ok, pure_eq_ok] at h
    obtain ⟨gap, ⟨-, rfl⟩, pool, ⟨-, rfl⟩, rfl⟩ := h
    -- The code picks the smaller of the two by hand.
    have hmin : min amount (s.config.criticalBountyAllocation - s.criticalBountyPool) =
        if amount < s.config.criticalBountyAllocation - s.criticalBountyPool then amount
        else s.config.criticalBountyAllocation - s.criticalBountyPool := by
      split_ifs <;> omega
    rw [hmin]
  · rw [pure_eq_ok] at h
    have hfull : (s.config.criticalBountyAllocation : ℕ) - s.criticalBountyPool = 0 := by omega
    rw [hfull, Nat.min_zero, Nat.add_zero, ← h]

theorem triggerOnThreshold_books (h : triggerOnThreshold env s = .ok s') : s'.books = s.books := by
  simp only [triggerOnThreshold, bind_eq_ok] at h
  obtain ⟨crossed, -, h⟩ := h
  split_ifs at h
  · simp only [bind_eq_ok, pure_eq_ok] at h
    obtain ⟨_, -, rfl⟩ := h
    rfl
  · rw [pure_eq_ok] at h
    rw [h]

theorem deposit_ok (hs : env.sender ≠ this) (h : deposit this env amount w = .ok w') :
    BookStep this (books w) (.deposit env.sender amount) (books w') := by
  simp only [deposit, creditDeposit, transferGuard, Hts.transfer_eq_ok, bind_eq_ok, checkedAdd_eq_ok,
    pure_eq_ok] at h
  obtain ⟨_, -, _, -, _, ⟨-, token, hpay, rfl⟩, s₅, ⟨s₁, htrack, share, ⟨-, hshare⟩, total, -, balance,
    ⟨-, hbalance⟩, s₃, hfund, s₄, htrigger, rfl⟩, rfl⟩ := h
  have htracked := congrFun (trackDepositor_books htrack) token
  have hfunded := fundBountyPool_ok hfund
  have htriggered := congrFun (triggerOnThreshold_books htrigger) token
  -- The books know nothing of the depositor's record and the trigger.
  have hcredited : s₃.books token = { s₁.books token with
      balance := (s₁.books token).balance + amount
      pool := (s₁.books token).pool + (s₁.books token).toPool amount
      shares := Function.update (s₁.books token).shares env.sender
        ((s₁.books token).shares env.sender + amount) } := by
    rw [hfunded, ← hshare, ← hbalance]
    rfl
  rw [htracked] at hcredited
  have hafter := htriggered.trans hcredited
  have hstep : BookStep this (books w) (.deposit env.sender amount) _ := .deposit hs hpay
  change BookStep this (books w) (.deposit env.sender amount) (s₄.books token)
  rw [hafter]
  exact hstep

/-! ## Outflows and reservations -/

theorem withdraw_ok (h : withdraw this env amount w = .ok w') :
    BookStep this (books w) (.withdraw env.sender amount) (books w') := by
  simp only [withdraw, debitWithdrawal, transferGuard, Hts.transfer_eq_ok, bind_eq_ok, require_eq_ok,
    checkedSub_eq_ok, pure_eq_ok] at h
  obtain ⟨_, ⟨_, hpos, _, hshare, _, ⟨hreserved, rfl⟩, _, hfree, _, ⟨-, rfl⟩, _, ⟨-, rfl⟩, rfl⟩, _,
    ⟨-, token, hpay, rfl⟩, rfl⟩ := h
  have hall : w.state.reservedForEscrow + amount ≤ w.state.currentBalance := by omega
  exact .withdraw hpos hshare hall hpay

theorem reserveForAuction_ok (token : TokenLedger) (h : reserveForAuction env amount s = .ok s') :
    BookStep this (s.books token) (.reserve amount) (s'.books token) := by
  simp only [reserveForAuction, bind_eq_ok, require_eq_ok, checkedSub_eq_ok, checkedAdd_eq_ok,
    pure_eq_ok] at h
  obtain ⟨_, -, _, -, _, -, _, ⟨hreserved, rfl⟩, _, hfree, _, ⟨-, rfl⟩, rfl⟩ := h
  have hall : s.reservedForEscrow + amount ≤ s.currentBalance := by omega
  exact .reserve hall

theorem drawPayment_ok {recipient : Address} (h : drawPayment this env recipient amount w = .ok w') :
    BookStep this (books w) (.pay recipient amount) (books w') := by
  simp only [drawPayment, debitPayment, transferGuard, Hts.transfer_eq_ok, bind_eq_ok, require_eq_ok,
    checkedSub_eq_ok, pure_eq_ok] at h
  obtain ⟨_, ⟨_, -, _, -, _, -, _, hreserved, _, ⟨-, rfl⟩, _, ⟨hle, rfl⟩, rfl⟩, _,
    ⟨-, token, hpay, rfl⟩, rfl⟩ := h
  exact .pay hreserved hle hpay

theorem releaseReservation_ok (token : TokenLedger) (h : releaseReservation env amount s = .ok s') :
    BookStep this (s.books token) (.release amount) (s'.books token) := by
  simp only [releaseReservation, bind_eq_ok, require_eq_ok, checkedSub_eq_ok, pure_eq_ok] at h
  obtain ⟨_, -, _, -, _, hreserved, _, ⟨-, rfl⟩, rfl⟩ := h
  exact .release hreserved

theorem drawBounty_ok {recipient : Address} (h : drawBounty this env recipient amount w = .ok w') :
    BookStep this (books w) (.bounty recipient amount) (books w') := by
  simp only [drawBounty, debitBounty, transferGuard, Hts.transfer_eq_ok, bind_eq_ok, require_eq_ok,
    checkedAdd_eq_ok, checkedSub_eq_ok, pure_eq_ok] at h
  obtain ⟨_, ⟨_, -, _, -, _, -, _, ⟨-, rfl⟩, _, hpool, _, hle, _, ⟨-, rfl⟩, rfl⟩, _,
    ⟨-, token, hpay, rfl⟩, rfl⟩ := h
  exact .bounty hpool hle hpay

/-! ## Monitoring -/

theorem resetWeeklyIfNeeded_ok (h : resetWeeklyIfNeeded env s = .ok s') :
    ∃ v, s.window.roll env.timestamp = v ∧
      s' = { s with weeklyMonitoringSpent := v.spent, weeklyResetTimestamp := v.start } := by
  simp only [resetWeeklyIfNeeded, bind_eq_ok, checkedAdd_eq_ok, pure_eq_ok] at h
  obtain ⟨_, ⟨-, rfl⟩, rfl⟩ := h
  refine ⟨_, rfl, ?_⟩
  unfold Window.roll State.window
  split_ifs <;> rfl

theorem monitoringOwed_ok (h : monitoringOwed env s = .ok owed) :
    s.activeMonitor.lastPaymentAt ≤ env.timestamp ∧
      owed = min (min (s.activeMonitor.weeklyRate * (env.timestamp - s.activeMonitor.lastPaymentAt) /
        WEEK) (s.config.weeklyMonitoringBudget - s.weeklyMonitoringSpent))
        (s.currentBalance - s.reservedForEscrow) := by
  simp only [monitoringOwed, bind_eq_ok, checkedSub_eq_ok, checkedMul_eq_ok, pure_eq_ok] at h
  obtain ⟨_, ⟨ht, rfl⟩, _, ⟨-, rfl⟩, rfl⟩ := h
  refine ⟨ht, ?_⟩
  -- Both differences stop at zero by hand, and both caps are comparisons.
  have hremaining : s.weeklyRemaining =
      s.config.weeklyMonitoringBudget - s.weeklyMonitoringSpent := by
    unfold State.weeklyRemaining
    split_ifs <;> omega
  have havailable : s.available = s.currentBalance - s.reservedForEscrow := by
    unfold State.available
    split_ifs <;> omega
  rw [hremaining, havailable]
  generalize s.activeMonitor.weeklyRate * (env.timestamp - s.activeMonitor.lastPaymentAt) / WEEK = x
  split_ifs <;> omega

theorem subscription_of_active (h : s.activeMonitor.active = true ∧ s.activeMonitor.agent ≠ 0) :
    s.subscription = some ⟨s.activeMonitor.agent, s.activeMonitor.weeklyRate,
      s.activeMonitor.startedAt, s.activeMonitor.lastPaymentAt⟩ := if_pos h

theorem owed_eq_due (token : TokenLedger) {s₁ : State} {m : Subscription}
    (hm : s.subscription = some m) (hreset : resetWeeklyIfNeeded env s = .ok s₁)
    (howed : monitoringOwed env s₁ = .ok owed) :
    m.paidAt ≤ env.timestamp ∧ owed = (s.books token).due env.timestamp m := by
  unfold State.subscription at hm
  split_ifs at hm
  obtain rfl := Option.some.inj hm
  obtain ⟨v, hroll, rfl⟩ := resetWeeklyIfNeeded_ok hreset
  obtain ⟨ht, hvalue⟩ := monitoringOwed_ok howed
  constructor
  · exact ht
  · unfold Books.due Subscription.accrued
    rw [show (s.books token).window.roll env.timestamp = v from hroll]
    exact hvalue

theorem payMonitor_ok {s₁ : State} {m : Subscription} (hm : w.state.subscription = some m)
    (hreset : resetWeeklyIfNeeded env w.state = .ok s₁) (howed : monitoringOwed env s₁ = .ok owed)
    (hpos : 0 < owed) (h : payMonitor this env m.agent owed { w with state := s₁ } = .ok w') :
    BookStep this (books w) (.settle env.timestamp) (books w') := by
  obtain ⟨ht, hdue⟩ := owed_eq_due w.token hm hreset howed
  simp only [payMonitor, debitMonitoring, transferGuard, Hts.transfer_eq_ok, bind_eq_ok,
    checkedAdd_eq_ok, checkedSub_eq_ok, pure_eq_ok] at h
  obtain ⟨_, ⟨_, ⟨-, rfl⟩, _, ⟨-, rfl⟩, rfl⟩, _, ⟨-, token, hpay, rfl⟩, rfl⟩ := h
  rw [hdue] at hpay hpos
  have hstep : BookStep this (books w) (.settle env.timestamp)
      ((books w).settle env.timestamp m token) := .settle hm ht hpay
  convert hstep using 1
  unfold State.subscription at hm
  split_ifs at hm with hactive
  obtain rfl := Option.some.inj hm
  obtain ⟨v, hroll, rfl⟩ := resetWeeklyIfNeeded_ok hreset
  unfold Books.settle
  rw [show (books w).window.roll env.timestamp = v from hroll]
  simp only [books, State.books, State.subscription, State.emit, if_pos hactive, State.window,
    hdue] at hpos ⊢
  rw [if_pos hpos]

theorem settle_nothing {s₁ : State} {m : Subscription} (hm : w.state.subscription = some m)
    (hreset : resetWeeklyIfNeeded env w.state = .ok s₁) (howed : monitoringOwed env s₁ = .ok 0) :
    BookStep this (books w) (.settle env.timestamp) (books { w with state := s₁ }) := by
  obtain ⟨ht, hdue⟩ := owed_eq_due w.token hm hreset howed
  have hpay : w.token.transfer this m.agent ((books w).due env.timestamp m) = some w.token := by
    rw [books, ← hdue]
    exact Ledger.transfer_zero _ _ _
  have hstep : BookStep this (books w) (.settle env.timestamp)
      ((books w).settle env.timestamp m w.token) := .settle hm ht hpay
  have hrolled : (books w).settle env.timestamp m w.token =
      { books w with window := (books w).window.roll env.timestamp } :=
    Books.settle_of_due_eq_zero hm hdue.symm
  obtain ⟨v, hroll, rfl⟩ := resetWeeklyIfNeeded_ok hreset
  rw [hrolled, show (books w).window.roll env.timestamp = v from hroll] at hstep
  exact hstep

theorem settleMonitoring_ok (h : settleMonitoring this env w = .ok w') :
    BookSteps this (books w) (w.state.settlement env.timestamp) (books w') := by
  unfold settleMonitoring at h
  unfold State.settlement
  by_cases hactive : w.state.activeMonitor.active = true ∧ w.state.activeMonitor.agent ≠ 0
  · have hcode : ¬ (w.state.activeMonitor.active = false ∨ w.state.activeMonitor.agent = 0) := by
      rintro (hoff | hzero)
      · simp [hoff] at hactive
      · exact hactive.2 hzero
    have hm := subscription_of_active hactive
    rw [if_neg hcode] at h
    rw [if_pos hactive]
    simp only [bind_eq_ok] at h
    obtain ⟨s₁, hreset, owed, howed, h⟩ := h
    -- With nothing owed, only the window may roll.
    split_ifs at h with hpos
    · exact .single (payMonitor_ok hm hreset howed hpos h)
    · rw [pure_eq_ok] at h
      subst h
      obtain rfl : owed = 0 := by omega
      exact .single (settle_nothing hm hreset howed)
  · have hcode : w.state.activeMonitor.active = false ∨ w.state.activeMonitor.agent = 0 := by
      by_contra hnot
      push Not at hnot
      exact hactive ⟨by simpa using hnot.1, hnot.2⟩
    rw [if_pos hcode, pure_eq_ok] at h
    rw [if_neg hactive, ← h]
    exact .nil

theorem outbidMonitor_ok {weeklyRate : ℕ} (h : outbidMonitor this env weeklyRate w = .ok w') :
    BookSteps this (books w) (w.state.settlement env.timestamp) (books w') := by
  simp only [outbidMonitor] at h
  split_ifs at h with hactive
  · simp only [bind_eq_ok, pure_eq_ok] at h
    obtain ⟨_, -, w₁, hsettle, rfl⟩ := h
    have hsteps : BookSteps this (books w) _ (books w₁) := settleMonitoring_ok hsettle
    exact hsteps
  · rw [pure_eq_ok] at h
    unfold State.settlement
    rw [if_neg hactive, ← h]
    exact .nil

theorem BookSteps.settlement_rules {b b' : Books} {now : ℕ}
    (h : BookSteps this b (s.settlement now) b') : b'.opened = b.opened ∧ b'.rules = b.rules := by
  unfold State.settlement at h
  split_ifs at h
  · cases h.of_singleton
    exact ⟨rfl, rfl⟩
  · rw [h.of_nil]
    exact ⟨rfl, rfl⟩

theorem applyForMonitoring_ok {weeklyRate : ℕ} (hs : env.sender ≠ this) (h0 : env.sender ≠ 0)
    (h : applyForMonitoring this env weeklyRate w = .ok w') :
    BookSteps this (books w) (w.state.settlement env.timestamp ++
      [.subscribe env.sender weeklyRate env.timestamp]) (books w') := by
  simp only [applyForMonitoring, bind_eq_ok, require_eq_ok, pure_eq_ok] at h
  obtain ⟨_, hopened, _, -, _, hrate, _, -, _, -, w₁, hout, rfl⟩ := h
  have hsettled := outbidMonitor_ok hout
  obtain ⟨hsame, hrules⟩ : w₁.state.initialized = w.state.initialized ∧
      w₁.state.config = w.state.config := hsettled.settlement_rules
  rw [← hrules] at hrate
  rw [← hsame] at hopened
  have hstep : BookStep this (books w₁) (.subscribe env.sender weeklyRate env.timestamp) _ :=
    .subscribe hs hopened hrate
  refine .snoc hsettled ?_
  convert hstep using 1
  simp only [books, State.books, State.subscription, State.emit, State.window, ne_eq, h0,
    not_false_eq_true, and_self, if_true]

theorem claimMonitoringPayment_ok (h0 : env.sender ≠ 0)
    (h : claimMonitoringPayment this env w = .ok w') :
    BookStep this (books w) (.settle env.timestamp) (books w') := by
  simp only [claimMonitoringPayment, bind_eq_ok, require_eq_ok] at h
  obtain ⟨_, hsender, _, hactive, s₁, hreset, owed, howed, _, hpos, h⟩ := h
  rw [hsender] at h0 h
  exact payMonitor_ok (subscription_of_active ⟨hactive, h0⟩) hreset howed hpos h

theorem cancelMonitoring_ok (h : cancelMonitoring this env w = .ok w') :
    BookSteps this (books w) (w.state.settlement env.timestamp ++ [.unsubscribe]) (books w') := by
  simp only [cancelMonitoring, bind_eq_ok, require_eq_ok, pure_eq_ok] at h
  obtain ⟨_, -, _, -, w₁, hsettle, rfl⟩ := h
  have hstep : BookStep this (books w₁) .unsubscribe _ := .unsubscribe
  refine .snoc (settleMonitoring_ok hsettle) ?_
  convert hstep using 1
  simp only [books, State.books, State.subscription, State.emit, State.window, Bool.false_eq_true,
    false_and, if_false]

/-! ## All calls -/

/-- Every call is the sequence of its operations. -/
theorem exec_ok {c : Call} (hs : env.sender ≠ this) (h0 : env.sender ≠ 0)
    (h : exec this env c w = .ok w') :
    BookSteps this (books w) (c.ops env w.state) (books w') := by
  unfold exec at h
  split_ifs at h
  cases c with
  | initializeVault contractAddress contractChain creator guardToken agentRegistry config drawers =>
    simp only [onState_eq_ok, initializeVault, bind_eq_ok, require_eq_ok, pure_eq_ok] at h
    obtain ⟨_, ⟨_, hnew, _, -, _, -, _, -, rfl⟩, rfl⟩ := h
    exact .single (.setup hnew)
  | deposit amount => exact .single (deposit_ok hs h)
  | withdraw amount => exact .single (withdraw_ok h)
  | reserveForAuction amount =>
    simp only [onState_eq_ok] at h
    obtain ⟨s, h, rfl⟩ := h
    exact .single (reserveForAuction_ok w.token h)
  | drawPayment recipient amount => exact .single (drawPayment_ok h)
  | releaseReservation amount =>
    simp only [onState_eq_ok] at h
    obtain ⟨s, h, rfl⟩ := h
    exact .single (releaseReservation_ok w.token h)
  | drawBounty recipient amount => exact .single (drawBounty_ok h)
  | applyForMonitoring weeklyRate => exact applyForMonitoring_ok hs h0 h
  | claimMonitoringPayment => exact .single (claimMonitoringPayment_ok h0 h)
  | cancelMonitoring => exact cancelMonitoring_ok h
  | updateConfig newConfig =>
    simp only [onState_eq_ok, updateConfig, bind_eq_ok, pure_eq_ok] at h
    obtain ⟨_, ⟨_, -, _, -, rfl⟩, rfl⟩ := h
    exact .single .configure
  -- The other calls do not touch the books.
  | associateGuardToken =>
    simp only [onState_eq_ok, associateGuardToken, bind_eq_ok, pure_eq_ok] at h
    obtain ⟨_, ⟨_, -, _, -, rfl⟩, rfl⟩ := h
    exact .nil
  | recordAuditCompletion securityScore =>
    simp only [onState_eq_ok, recordAuditCompletion, bind_eq_ok, pure_eq_ok] at h
    obtain ⟨_, ⟨_, -, _, -, _, -, rfl⟩, rfl⟩ := h
    exact .nil
  | checkAndTriggerReaudit =>
    simp only [onState_eq_ok, checkAndTriggerReaudit, bind_eq_ok, pure_eq_ok] at h
    obtain ⟨_, ⟨_, -, _, -, _, -, _, -, _, -, _, -, rfl⟩, rfl⟩ := h
    exact .nil
  | setAuthorizedDrawer drawer authorized =>
    simp only [onState_eq_ok, setAuthorizedDrawer, bind_eq_ok, pure_eq_ok] at h
    obtain ⟨_, ⟨_, -, rfl⟩, rfl⟩ := h
    exact .nil

theorem books_induct {I : Books → Prop} (h0 : ∀ token, I (State.blank.books token))
    (hop : ∀ b op b', I b → BookStep this b op b' → I b')
    (helsewhere : ∀ b token, b.token.balance this ≤ token.balance this → I b →
      I { b with token := token })
    (hw : (contract this).system.Reachable w) : I (books w) := by
  refine hw.induct (I := fun w => I (books w)) ?_ ?_
  · intro w hfresh
    unfold books
    rw [show w.state = State.blank from hfresh]
    exact h0 w.token
  · intro w l w' _ hI hstep
    cases hstep with
    | call hs h0 _ h => exact (exec_ok hs h0 h).induct hop hI
    | elsewhere h _ => exact helsewhere _ _ h hI

theorem reachable_backed (hw : (contract this).system.Reachable w) : (books w).Backed this := by
  refine books_induct (I := Books.Backed this) ?_ ?_ ?_ hw
  · intro token
    exact Nat.zero_le _
  · intro b op b' hb hstep
    exact hb.step hstep
  · intro b token hle hb
    exact hb.trans hle

end AuditGuard.AuditVault
