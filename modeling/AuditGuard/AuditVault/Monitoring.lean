import AuditGuard.AuditVault.Effects

/-!
# AuditVault: the spending on monitoring

A monitor is paid when it claims, when another one takes over, and when the subscription is cancelled.
Whichever way, a payment is within what the subscription earned since the last one and within what is
left of the weekly budget, in a window that a payment opens anew when a week is over. Over a run, the
payments of a window add up to at most the budget, and those of a subscription to at most what it earned
since it started.
-/

namespace AuditGuard.AuditVault

open Evm TransitionSystem

variable {this : Address} {env : Env} {w w' : World State}

/-! ## Windows -/

/-- What a step at the time `now` does to the window, if it pays `x`: nothing, or the setup of the vault,
or a payment of `d` within the rest of the budget, in a window that may be new. The flags say whether the
vault is set up. -/
inductive WindowStep (budget x now : ℕ) : Bool → Window → Bool → Window → Prop
  | same {o : Bool} {v : Window} (hx : x = 0) : WindowStep budget x now o v o v
  | setup {v : Window} (hx : x = 0) : WindowStep budget x now false v true ⟨now, v.spent⟩
  | pay {v : Window} {d : ℕ} (hx : x ≤ d) (hd : d ≤ budget - v.spent) :
      WindowStep budget x now true v true ⟨v.start, v.spent + d⟩
  | roll {v : Window} {d : ℕ} (hx : x ≤ d) (hd : d ≤ budget) (hweek : v.start + WEEK ≤ now) :
      WindowStep budget x now true v true ⟨now, d⟩

/-- After payments of `paid R` in each window `R`, none of them exceeds the budget, and the current one
knows what it spent. -/
structure Budgeted (budget : ℕ) (paid : ℕ → ℕ) (o : Bool) (v : Window) : Prop where
  le_budget : ∀ R, paid R ≤ budget
  le_spent : paid v.start ≤ v.spent
  spent_le : v.spent ≤ budget
  later : ∀ R, v.start < R → paid R = 0
  closed : o = false → v.start = 0 ∧ v.spent = 0 ∧ ∀ R, paid R = 0

section

variable {budget B x now : ℕ} {paid : ℕ → ℕ} {o o' : Bool} {v v' : Window}

/-- A payment within what is left of the budget. -/
theorem Budgeted.pay {d : ℕ} (h : Budgeted B paid o v) (hx : x ≤ d) (hd : d ≤ B - v.spent) :
    Budgeted B (fun R => paid R + if v.start = R then x else 0) true ⟨v.start, v.spent + d⟩ := by
  have hspent := h.le_spent
  have hmax := h.spent_le
  constructor
  case le_budget =>
    intro R
    have hR := h.le_budget R
    split_ifs with heq
    · rw [← heq] at hR ⊢
      omega
    · omega
  case le_spent =>
    simp only [if_true]
    omega
  case spent_le =>
    dsimp only
    omega
  case later =>
    intro R hR
    dsimp only at hR ⊢
    rw [h.later R hR, if_neg hR.ne]
  case closed => exact fun h => nomatch h

/-- A new window, in which nothing was paid yet. -/
theorem Budgeted.roll (h : Budgeted B paid true v) (hnew : v.start < now) : Budgeted B paid true ⟨now, 0⟩ where
  le_budget := h.le_budget
  le_spent := (h.later now hnew).le
  spent_le := Nat.zero_le _
  later R hR := h.later R (hnew.trans hR)
  closed h := nomatch h

/-- A step keeps all windows within the budget. -/
theorem Budgeted.step (h : Budgeted B paid o v) (hB : o = true → budget = B)
    (hstep : WindowStep budget x now o v o' v') :
    Budgeted B (fun R => paid R + if v'.start = R then x else 0) o' v' := by
  cases hstep with
  | same hx =>
    subst hx
    simpa only [ite_self, Nat.add_zero] using h
  | setup hx =>
    obtain ⟨-, hzero, hnone⟩ := h.closed rfl
    subst hx
    simp only [hnone, ite_self, Nat.add_zero]
    exact ⟨fun _ => Nat.zero_le _, Nat.zero_le _, h.spent_le, fun _ _ => rfl, fun h => nomatch h⟩
  | pay hx hd => exact h.pay hx (hB rfl ▸ hd)
  | @roll v d hx hd hweek =>
    have hpos : 0 < WEEK := by decide
    have hpaid := (h.roll (by omega : v.start < now)).pay hx (hB rfl ▸ hd)
    rwa [Nat.zero_add] at hpaid

end

theorem Window.roll_cases (now : ℕ) (v : Window) :
    v.roll now = v ∨ v.roll now = ⟨now, 0⟩ ∧ v.start + WEEK ≤ now := by
  unfold roll
  split_ifs with h
  · exact .inr ⟨rfl, h⟩
  · exact .inl rfl

theorem settle_window {b b' : Books} {now : ℕ} (hopened : b.opened = true)
    (h : BookStep this b (.settle now) b') :
    WindowStep b.rules.weeklyMonitoringBudget (b.token.balance this - b'.token.balance this) now
      b.opened b.window b'.opened b'.window := by
  cases h with
  | @settle _ m token hm ht hpay =>
    have hpaid := Ledger.transfer_src_le hpay
    have hbudget := Books.due_le_budget now m b
    have hx : b.token.balance this - token.balance this ≤ b.due now m := by omega
    change WindowStep _ (b.token.balance this - token.balance this) now b.opened b.window b.opened
      ⟨(b.window.roll now).start, (b.window.roll now).spent + b.due now m⟩
    rw [hopened]
    rcases b.window.roll_cases now with hroll | ⟨hroll, hweek⟩
    · rw [hroll] at hbudget ⊢
      exact .pay hx hbudget
    · rw [hroll] at hbudget ⊢
      rw [Nat.zero_add]
      exact .roll hx hbudget hweek

theorem settlement_window {s : State} {b b' : Books} {now : ℕ}
    (hopened : b.monitor ≠ none → b.opened = true) (hsub : b.monitor = s.subscription)
    (h : BookSteps this b (s.settlement now) b') :
    WindowStep b.rules.weeklyMonitoringBudget (b.token.balance this - b'.token.balance this) now
      b.opened b.window b'.opened b'.window := by
  unfold State.settlement at h
  split_ifs at h with hactive
  · refine settle_window (hopened ?_) h.of_singleton
    rw [hsub, subscription_of_active hactive]
    exact Option.some_ne_none _
  · rw [h.of_nil]
    exact .same (Nat.sub_self _)

/-! ## Subscriptions -/

/-- What a step at the time `now` does to the subscription in force, if its monitor gets `y`: a payment of
`d`, up to what it earned, after which the subscription goes on, or ends, or another one starts. -/
structure SubscriptionStep (y now d : ℕ) (m m' : Option Subscription) : Prop where
  le_due : y ≤ d
  le_accrued : ∀ k, m = some k → d ≤ k.accrued now
  next : m' = none ∨ (∃ a rate, m' = some ⟨a, rate, now, now⟩) ∨
    m' = m.map fun k => if 0 < d then { k with paidAt := now } else k

/-- The agent of a subscription, its rate, and when it started. -/
def Subscription.term (m : Subscription) : Address × ℕ × ℕ := (m.agent, m.rate, m.since)

/-- After receipts of `received k` over each subscription with the terms `k`, up to the time `now`, none
of them exceeds what was earned, and the current one is paid up to its last payment. -/
structure Accrued (received : Address × ℕ × ℕ → ℕ) (now : ℕ) (m : Option Subscription) : Prop where
  le_earned : ∀ a rate since, received (a, rate, since) ≤ rate * (now - since) / WEEK
  current : ∀ k, m = some k → k.since ≤ k.paidAt ∧ k.paidAt ≤ now ∧
    received k.term ≤ k.rate * (k.paidAt - k.since) / WEEK

theorem earned_add_le (rate : ℕ) {since paidAt now : ℕ} (h : since ≤ paidAt) (h' : paidAt ≤ now) :
    rate * (paidAt - since) / WEEK + rate * (now - paidAt) / WEEK ≤ rate * (now - since) / WEEK := by
  have hsum : rate * (paidAt - since) + rate * (now - paidAt) = rate * (now - since) := by
    rw [← Nat.mul_add]
    congr 1
    omega
  rw [← hsum]
  exact Nat.div_add_div_le_add_div

/-- A step keeps all receipts within what was earned. -/
theorem Accrued.step {received : Address × ℕ × ℕ → ℕ} {y now now' d : ℕ}
    {m m' : Option Subscription} (h : Accrued received now m) (hnow : now ≤ now')
    (hstep : SubscriptionStep y now' d m m') :
    Accrued (fun k => received k + if m.map Subscription.term = some k then y else 0) now' m' := by
  obtain ⟨hdue, hearned, hnext⟩ := hstep
  -- The payment is added to the current subscription, which is paid up to its last payment.
  have hle : ∀ a rate since, received (a, rate, since) +
      (if m.map Subscription.term = some (a, rate, since) then y else 0) ≤
        rate * (now' - since) / WEEK := by
    intro a rate since
    split_ifs with hterm
    · obtain ⟨k, rfl, hk⟩ := Option.map_eq_some_iff.mp hterm
      obtain ⟨hsince, hpaid, hreceived⟩ := h.current k rfl
      have hd := hearned k rfl
      have hadd := earned_add_le k.rate hsince (hpaid.trans hnow)
      obtain ⟨rfl, rfl, rfl⟩ : k.agent = a ∧ k.rate = rate ∧ k.since = since := by
        simpa [Subscription.term] using hk
      unfold Subscription.accrued at hd
      unfold Subscription.term at hreceived
      omega
    · have hbefore := h.le_earned a rate since
      have hmono : rate * (now - since) / WEEK ≤ rate * (now' - since) / WEEK :=
        Nat.div_le_div_right (Nat.mul_le_mul_left _ (by omega))
      omega
  refine ⟨hle, ?_⟩
  intro k hk
  rcases hnext with rfl | ⟨a, rate, rfl⟩ | rfl
  · cases hk
  · obtain rfl := Option.some.inj hk
    exact ⟨le_rfl, le_rfl, hle _ _ _⟩
  · obtain ⟨k₀, rfl, hk₀⟩ := Option.map_eq_some_iff.mp hk
    obtain ⟨hsince, hpaid, hreceived⟩ := h.current k₀ rfl
    by_cases hpos : 0 < d
    · rw [if_pos hpos] at hk₀
      subst hk₀
      exact ⟨hsince.trans (hpaid.trans hnow), le_rfl, hle k₀.agent k₀.rate k₀.since⟩
    · -- Nothing was due, and nothing was paid.
      rw [if_neg hpos] at hk₀
      obtain rfl : y = 0 := by omega
      subst hk₀
      simp only [ite_self, Nat.add_zero]
      exact ⟨hsince, hpaid.trans hnow, hreceived⟩

theorem settle_subscription {b b' : Books} {now : ℕ} {m : Subscription} (hm : b.monitor = some m)
    (hagent : m.agent ≠ this) (h : BookStep this b (.settle now) b') :
    SubscriptionStep (b'.token.balance m.agent - b.token.balance m.agent) now (b.due now m)
      b.monitor b'.monitor := by
  cases h with
  | @settle _ m' token hm' ht hpay =>
    obtain rfl := Option.some.inj (hm.symm.trans hm')
    have hreceived := Ledger.transfer_balance_dst hpay hagent.symm
    refine ⟨?_, ?_, .inr (.inr ?_)⟩
    · change token.balance m.agent - b.token.balance m.agent ≤ _
      omega
    · intro k hk
      obtain rfl := Option.some.inj (hm.symm.trans hk)
      exact Books.due_le_accrued now m b
    · rw [hm]
      rfl

theorem settlement_subscription {b : Books} {now : ℕ}
    (hagent : ∀ m, w.state.subscription = some m → m.agent ≠ this)
    (h : BookSteps this (books w) (w.state.settlement now) b) :
    ∃ d, SubscriptionStep (b.token.balance w.state.activeMonitor.agent -
      w.token.balance w.state.activeMonitor.agent) now d w.state.subscription b.monitor := by
  unfold State.settlement at h
  split_ifs at h with hactive
  · have hm := subscription_of_active hactive
    exact ⟨_, settle_subscription hm (hagent _ hm) h.of_singleton⟩
  · have hnone : w.state.subscription = none := if_neg hactive
    rw [h.of_nil]
    change ∃ d, SubscriptionStep _ now d _ w.state.subscription
    rw [hnone]
    exact ⟨_, le_rfl, fun _ hk => (nomatch hk), .inl rfl⟩

/-! ## Calls -/

/-- The calls that settle with the monitor. -/
def Call.settles : Call → Bool
  | .applyForMonitoring _ | .claimMonitoringPayment | .cancelMonitoring => true
  | _ => false

/-- What a step pays to the monitor: what leaves the vault's token account in a call that settles. -/
def monitoringPaid (this : Address) (tr : Transition (World State) (Label Env Call)) : ℕ :=
  match tr.label with
  | .call _ c => if c.settles then tr.src.token.balance this - tr.dst.token.balance this else 0
  | .elsewhere _ _ => 0

/-- What the monitor gets in a step: what reaches its token account in a call that settles. -/
def monitoringReceived (tr : Transition (World State) (Label Env Call)) : ℕ :=
  match tr.label with
  | .call _ c => if c.settles then tr.dst.token.balance tr.src.state.activeMonitor.agent -
      tr.src.token.balance tr.src.state.activeMonitor.agent else 0
  | .elsewhere _ _ => 0

theorem reachable_monitor (hw : (contract this).system.Reachable w) {m : Subscription}
    (hm : w.state.subscription = some m) : m.agent ≠ this ∧ w.state.initialized = true := by
  refine books_induct (I := fun b => ∀ m, b.monitor = some m → m.agent ≠ this ∧ b.opened = true)
    ?_ ?_ ?_ hw m hm
  · intro token m hm
    exact nomatch hm
  · intro b op b' hb hstep m hm
    cases hstep with
    | setup hnew => exact ⟨(hb m hm).1, rfl⟩
    | @settle now m' token hm' ht hpay =>
      obtain ⟨hagent, hopened⟩ := hb m' hm'
      refine ⟨?_, hopened⟩
      obtain rfl := Option.some.inj hm
      split_ifs
      · exact hagent
      · exact hagent
    | subscribe ha hopened hrate =>
      obtain rfl := Option.some.inj hm
      exact ⟨ha, hopened⟩
    | unsubscribe => exact nomatch hm
    | _ => exact hb m hm
  · intro b token _ hb
    exact hb

/-- What a step does to the window. -/
theorem Step.window {l : Label Env Call} (hw : (contract this).system.Reachable w)
    (hstep : (contract this).Step w l w') :
    WindowStep w.state.config.weeklyMonitoringBudget (monitoringPaid this ⟨w, l, w'⟩) w'.now
      w.state.initialized w.state.window w'.state.initialized w'.state.window := by
  cases hstep with
  | elsewhere _ _ => exact .same rfl
  | @call env c w w' hs h0 ht hexec =>
    have hops := exec_ok hs h0 hexec
    have hopened : (books w).monitor ≠ none → (books w).opened = true := by
      intro hsome
      obtain ⟨m, hm⟩ := Option.ne_none_iff_exists'.mp hsome
      exact (reachable_monitor hw hm).2
    change WindowStep (books w).rules.weeklyMonitoringBudget (if c.settles then _ else 0)
      env.timestamp (books w).opened (books w).window (books w').opened (books w').window
    -- Three calls settle with the monitor. Two of them open or close a subscription after that, which
    -- moves neither GUARD nor the window.
    cases c with
    | claimMonitoringPayment =>
      have hstep := hops.of_singleton
      refine settle_window (hopened ?_) hstep
      generalize books w' = b at hstep
      cases hstep with
      | settle hm ht hpay =>
        rw [hm]
        exact Option.some_ne_none _
    | applyForMonitoring weeklyRate =>
      obtain ⟨b, hsettle, hsubscribe⟩ := hops.of_snoc
      have hwindow := settlement_window hopened rfl hsettle
      change WindowStep _ ((books w).token.balance this - (books w').token.balance this) _ _ _ _ _
      generalize books w' = b' at hsubscribe ⊢
      cases hsubscribe
      exact hwindow
    | cancelMonitoring =>
      obtain ⟨b, hsettle, hunsubscribe⟩ := hops.of_snoc
      have hwindow := settlement_window hopened rfl hsettle
      change WindowStep _ ((books w).token.balance this - (books w').token.balance this) _ _ _ _ _
      generalize books w' = b' at hunsubscribe ⊢
      cases hunsubscribe
      exact hwindow
    -- The first window starts with the setup.
    | initializeVault _ _ _ _ _ _ _ =>
      have hsetup := hops.of_singleton
      generalize books w' = b' at hsetup ⊢
      cases hsetup with
      | setup hnew =>
        rw [hnew]
        exact .setup rfl
    | associateGuardToken | recordAuditCompletion _ | checkAndTriggerReaudit | setAuthorizedDrawer _ _ =>
      rw [hops.of_nil]
      exact .same rfl
    | deposit _ | withdraw _ | reserveForAuction _ | drawPayment _ _ | releaseReservation _
    | drawBounty _ _ | updateConfig _ =>
      have hstep := hops.of_singleton
      generalize books w' = b' at hstep ⊢
      cases hstep
      exact .same rfl

/-- What a step does to the subscription. -/
theorem Step.subscription {l : Label Env Call} (hw : (contract this).system.Reachable w)
    (hstep : (contract this).Step w l w') :
    ∃ d, SubscriptionStep (monitoringReceived ⟨w, l, w'⟩) w'.now d w.state.subscription
      w'.state.subscription := by
  -- What pays nothing and keeps the subscription.
  have hkeep : ∀ (now : ℕ) (m : Option Subscription), ∃ d, SubscriptionStep 0 now d m m := by
    intro now m
    refine ⟨0, le_rfl, fun _ _ => Nat.zero_le _, .inr (.inr ?_)⟩
    simp
  cases hstep with
  | elsewhere _ _ => exact hkeep _ _
  | @call env c w w' hs h0 ht hexec =>
    have hops := exec_ok hs h0 hexec
    have hagent : ∀ m, w.state.subscription = some m → m.agent ≠ this :=
      fun m hm => (reachable_monitor hw hm).1
    change ∃ d, SubscriptionStep (if c.settles then _ else 0) env.timestamp d
      w.state.subscription (books w').monitor
    cases c with
    | claimMonitoringPayment =>
      have hstep := hops.of_singleton
      have hsettle : ∃ m, w.state.subscription = some m := by
        generalize books w' = b at hstep
        cases hstep with
        | settle hm ht hpay => exact ⟨_, hm⟩
      obtain ⟨m, hm⟩ := hsettle
      have hsame : m.agent = w.state.activeMonitor.agent := by
        unfold State.subscription at hm
        split_ifs at hm
        rw [← Option.some.inj hm]
      have hpaid := settle_subscription hm (hagent m hm) hstep
      rw [hsame] at hpaid
      exact ⟨_, hpaid⟩
    | applyForMonitoring weeklyRate =>
      obtain ⟨b, hsettle, hsubscribe⟩ := hops.of_snoc
      obtain ⟨d, hdue, hearned, -⟩ := settlement_subscription hagent hsettle
      change ∃ d, SubscriptionStep ((books w').token.balance w.state.activeMonitor.agent -
        w.token.balance w.state.activeMonitor.agent) _ _ _ _
      generalize books w' = b' at hsubscribe ⊢
      cases hsubscribe
      exact ⟨d, hdue, hearned, .inr (.inl ⟨_, _, rfl⟩)⟩
    | cancelMonitoring =>
      obtain ⟨b, hsettle, hunsubscribe⟩ := hops.of_snoc
      obtain ⟨d, hdue, hearned, -⟩ := settlement_subscription hagent hsettle
      change ∃ d, SubscriptionStep ((books w').token.balance w.state.activeMonitor.agent -
        w.token.balance w.state.activeMonitor.agent) _ _ _ _
      generalize books w' = b' at hunsubscribe ⊢
      cases hunsubscribe
      exact ⟨d, hdue, hearned, .inl rfl⟩
    | associateGuardToken | recordAuditCompletion _ | checkAndTriggerReaudit | setAuthorizedDrawer _ _ =>
      rw [hops.of_nil]
      exact hkeep _ _
    | initializeVault _ _ _ _ _ _ _ | deposit _ | withdraw _ | reserveForAuction _
    | drawPayment _ _ | releaseReservation _ | drawBounty _ _ | updateConfig _ =>
      have hstep := hops.of_singleton
      generalize books w' = b' at hstep ⊢
      cases hstep
      exact hkeep _ _

/-! ## Runs -/

/-- What was paid to monitors while the current window started at `start`. -/
def paidInWindow (this : Address) (ts : List (Transition (World State) (Label Env Call)))
    (start : ℕ) : ℕ :=
  (ts.map fun tr => if tr.dst.state.weeklyResetTimestamp = start then monitoringPaid this tr
    else 0).sum

/-- The times at which a window started. -/
def windowStarts (ts : List (Transition (World State) (Label Env Call))) : List ℕ :=
  (ts.filter fun tr => tr.src.state.weeklyResetTimestamp ≠ tr.dst.state.weeklyResetTimestamp).map
    fun tr => tr.dst.now

/-- What a monitor got over the subscription with the terms `k`: its agent, rate and start. -/
def receivedOver (ts : List (Transition (World State) (Label Env Call)))
    (k : Address × ℕ × ℕ) : ℕ :=
  (ts.map fun tr => if tr.src.state.subscription.map Subscription.term = some k then
    monitoringReceived tr else 0).sum

/-- From the setup on, the weekly budget is `B`. -/
def BudgetIs (B : ℕ) (w : World State) : Prop :=
  w.state.initialized = true → (w.state.config.weeklyMonitoringBudget : ℕ) = B

instance (B : ℕ) (w : World State) : Decidable (BudgetIs B w) :=
  inferInstanceAs (Decidable (_ → _))

theorem run_budgeted {B : ℕ} {ts : List (Transition (World State) (Label Env Call))}
    (hr : (contract this).system.Run ts w)
    (hB : Throughout (BudgetIs B) ts w) :
    Budgeted B (paidInWindow this ts) w.state.initialized w.state.window := by
  induction hr with
  | @init w hfresh =>
    rw [show w.state = State.blank from hfresh]
    exact ⟨fun _ => Nat.zero_le _, le_rfl, Nat.zero_le _, fun _ _ => rfl, fun _ => ⟨rfl, rfl, fun _ => rfl⟩⟩
  | @step ts w w' l hr hstep ih =>
    have hbefore := hB.before_last
    have hnext := (ih hbefore).step hbefore.2 (Step.window hr.reachable hstep)
    have hpaid : paidInWindow this (ts ++ [⟨w, l, w'⟩]) = fun R => paidInWindow this ts R +
        if w'.state.window.start = R then monitoringPaid this ⟨w, l, w'⟩ else 0 := by
      funext R
      simp only [paidInWindow, List.map_append, List.sum_append, List.map_singleton,
        List.sum_singleton]
      rfl
    rw [hpaid]
    exact hnext

theorem run_accrued {ts : List (Transition (World State) (Label Env Call))}
    (hr : (contract this).system.Run ts w) :
    Accrued (receivedOver ts) w.now w.state.subscription := by
  induction hr with
  | @init w hfresh =>
    rw [show w.state = State.blank from hfresh]
    exact ⟨fun _ _ _ => Nat.zero_le _, fun _ hm => (nomatch hm)⟩
  | @step ts w w' l hr hstep ih =>
    obtain ⟨d, hsub⟩ := Step.subscription hr.reachable hstep
    have hnext := ih.step (Contract.Step.now_le hstep) hsub
    have hreceived : receivedOver (ts ++ [⟨w, l, w'⟩]) = fun k => receivedOver ts k +
        if w.state.subscription.map Subscription.term = some k then
          monitoringReceived ⟨w, l, w'⟩ else 0 := by
      funext k
      simp only [receivedOver, List.map_append, List.sum_append, List.map_singleton,
        List.sum_singleton]
    rw [hreceived]
    exact hnext

/-- Windows start at least a week apart, none of them after the current one. -/
theorem run_windowStarts {ts : List (Transition (World State) (Label Env Call))}
    (hr : (contract this).system.Run ts w) :
    (windowStarts ts).Pairwise (fun t t' => t + WEEK ≤ t') ∧
      (∀ t ∈ windowStarts ts, t ≤ w.state.window.start) ∧
      (w.state.initialized = false → windowStarts ts = []) := by
  induction hr with
  | @init w hfresh => simp [windowStarts]
  | @step ts w w' l hr hstep ih =>
    obtain ⟨hpairwise, hle, hclosed⟩ := ih
    -- A step adds a start to the list exactly if it moves the start of the window.
    have happend : windowStarts (ts ++ [⟨w, l, w'⟩]) = windowStarts ts ++
        if w.state.window.start = w'.state.window.start then [] else [w'.now] := by
      unfold windowStarts
      rw [List.filter_append, List.map_append]
      congr 1
      simp only [ne_eq, decide_not, List.filter_cons, List.filter_nil]
      by_cases hsame : w.state.window.start = w'.state.window.start
      · rw [if_pos hsame]
        simp [show w.state.weeklyResetTimestamp = w'.state.weeklyResetTimestamp from hsame]
      · rw [if_neg hsame]
        simp [show ¬ w.state.weeklyResetTimestamp = w'.state.weeklyResetTimestamp from hsame]
    rw [happend]
    have hwindow := Step.window hr.reachable hstep
    generalize w'.state.window = v' at hwindow ⊢
    generalize w'.state.initialized = o' at hwindow ⊢
    generalize w.state.window = v at hwindow hle ⊢
    generalize w.state.initialized = o at hwindow hclosed
    cases hwindow with
    | same hx =>
      rw [if_pos rfl, List.append_nil]
      exact ⟨hpairwise, hle, hclosed⟩
    | setup hx =>
      rw [hclosed rfl]
      refine ⟨?_, ?_, fun h => (nomatch h)⟩
      · split_ifs <;> simp
      · split_ifs <;> simp
    | pay hx hd =>
      rw [if_pos rfl, List.append_nil]
      exact ⟨hpairwise, hle, fun h => (nomatch h)⟩
    -- A window rolls a week after its start at the earliest, and all earlier starts were before that one.
    | roll hx hd hweek =>
      have hpos : 0 < WEEK := by decide
      have hne : v.start ≠ w'.now := by omega
      rw [if_neg hne]
      refine ⟨?_, ?_, fun h => (nomatch h)⟩
      · rw [List.pairwise_append]
        refine ⟨hpairwise, List.pairwise_singleton _ _, ?_⟩
        intro t ht t' ht'
        rw [List.mem_singleton] at ht'
        have hbefore := hle t ht
        omega
      · intro t ht
        rcases List.mem_append.mp ht with ht | ht
        · have hbefore := hle t ht
          dsimp only
          omega
        · rw [List.mem_singleton] at ht
          exact ht.le

/-- The spending on monitoring is capped, in every run in which the weekly budget is `B` from the setup
on. What is paid in one window is at most the budget; windows start at least a week apart; and a monitor
gets over its subscription at most what it earned. -/
theorem monitoring_capped {B : ℕ} {ts : List (Transition (World State) (Label Env Call))}
    (hr : (contract this).system.Run ts w)
    (hB : Throughout (BudgetIs B) ts w) :
    (∀ start, paidInWindow this ts start ≤ B) ∧
      (windowStarts ts).Pairwise (fun t t' => t + 7 * 86400 ≤ t') ∧
      ∀ agent weeklyRate startedAt, receivedOver ts (agent, weeklyRate, startedAt) ≤
        weeklyRate * (w.now - startedAt) / (7 * 86400) :=
  ⟨(run_budgeted hr hB).le_budget, (run_windowStarts hr).1, (run_accrued hr).le_earned⟩

/-- A deposit of 200 GUARD, and a monitor at 70 GUARD a week that claims after ten days. -/
def monitorCalls : List (Env × Call) :=
  setupCalls ++ [
    (sampleEnv 2 1, .deposit (200 * 10^8)),
    (sampleEnv 8 2, .applyForMonitoring (70 * 10^8)),
    (sampleEnv 8 (2 + 10 * 86400), .claimMonitoringPayment)]

/-- In that run, the claim opens a new window, and gets the weekly budget of the 100 GUARD that the monitor
earned. -/
theorem monitoring_capped_claim : ∃ ts w, (contract 1).system.Run ts w ∧
    receivedOver ts (8, 70 * 10^8, 2) = 70 * 10^8 ∧
    (∀ start, paidInWindow 1 ts start ≤ 70 * 10^8) ∧
    (windowStarts ts).Pairwise (fun t t' => t + 7 * 86400 ≤ t') ∧
    ∀ agent weeklyRate startedAt, receivedOver ts (agent, weeklyRate, startedAt) ≤
      weeklyRate * (w.now - startedAt) / (7 * 86400) := by
  obtain ⟨ts, w, hcalls, hr, htrace⟩ := sample_run monitorCalls (by decide) rfl
  have hreceived := read_ok htrace (fun ts => receivedOver ts (8, 70 * 10^8, 2)) (b := 70 * 10^8)
    (by decide +kernel)
  have hsrc := read_ok htrace (fun ts => ts.all fun tr => decide (BudgetIs (70 * 10^8) tr.src))
    (b := true) (by decide +kernel)
  have hend := read_ok hcalls (fun w => decide (BudgetIs (70 * 10^8) w)) (b := true)
    (by decide +kernel)
  refine ⟨ts, w, hr, hreceived, monitoring_capped hr ⟨fun tr htr => ?_, of_decide_eq_true hend⟩⟩
  exact of_decide_eq_true (List.all_eq_true.mp hsrc tr htr)

end AuditGuard.AuditVault
