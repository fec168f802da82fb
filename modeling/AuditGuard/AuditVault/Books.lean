import AuditGuard.AuditVault.System

/-!
# AuditVault: the books

What the vault is for, apart from who may call what: a balance that depositors share, with a part of it
reserved for running audits, a pool for bounties, and a monitor that is paid by the time that passes,
within a weekly budget. The books leave out identities, permissions, audit records and events. That every
call of the contract is a sequence of operations on them is proved of it afterwards.
-/

namespace AuditGuard.AuditVault

open Evm

/-- A monitoring subscription in force. -/
structure Subscription where
  agent : Address
  rate : ℕ
  /-- When it started. -/
  since : ℕ
  /-- Up to when the agent is paid. -/
  paidAt : ℕ

/-- What the subscription earned since the last payment. -/
def Subscription.accrued (now : ℕ) (m : Subscription) : ℕ := m.rate * (now - m.paidAt) / WEEK

/-- A window of the weekly budget. -/
structure Window where
  start : ℕ
  spent : ℕ

/-- The window at the time `now`: a new one if a week is over. -/
def Window.roll (now : ℕ) (v : Window) : Window := if v.start + WEEK ≤ now then ⟨now, 0⟩ else v

/-- The vault's accounts, and the ledger of the GUARD token. -/
structure Books where
  token : TokenLedger
  /-- The vault is set up, which happens once. -/
  opened : Bool
  balance : ℕ
  /-- The part of the balance that is reserved for running audits. -/
  reserved : ℕ
  /-- All that was put into the bounty pool. -/
  pool : ℕ
  /-- All that was paid out of the bounty pool. -/
  bounties : ℕ
  /-- What each depositor may withdraw. -/
  shares : Address → ℕ
  /-- The rules in force, of which the books know the weekly budget and the bounty allocation. -/
  rules : VaultConfig
  window : Window
  monitor : Option Subscription

namespace Books

/-- The part of a deposit of `x` that goes to the bounty pool, up to its allocation. -/
def toPool (x : ℕ) (b : Books) : ℕ := min x (b.rules.criticalBountyAllocation - b.pool)

/-- What the monitor gets at the time `now`: what it earned, within the rest of the weekly budget and
what is not reserved. -/
def due (now : ℕ) (m : Subscription) (b : Books) : ℕ :=
  min (min (m.accrued now) (b.rules.weeklyMonitoringBudget - (b.window.roll now).spent))
    (b.balance - b.reserved)

/-- The books after the monitor was paid at the time `now`, with the ledger after the payment. Where
nothing is due, the time stays open for a later payment. -/
def settle (now : ℕ) (m : Subscription) (token : TokenLedger) (b : Books) : Books := { b with
  token := token
  balance := b.balance - b.due now m
  window := ⟨(b.window.roll now).start, (b.window.roll now).spent + b.due now m⟩
  monitor := some (if 0 < b.due now m then { m with paidAt := now } else m) }

theorem settle_of_due_eq_zero {now : ℕ} {m : Subscription} {b : Books} (hm : b.monitor = some m)
    (hdue : b.due now m = 0) : b.settle now m b.token = { b with window := b.window.roll now } := by
  -- Whatever the window is.
  have hnothing : ∀ v : Window, { b with
      balance := b.balance - 0
      window := ⟨v.start, v.spent + 0⟩
      monitor := some (if 0 < 0 then { m with paidAt := now } else m) } = { b with window := v } := by
    intro v
    rw [if_neg (Nat.lt_irrefl 0), Nat.sub_zero, Nat.add_zero, ← hm]
  unfold settle
  rw [hdue]
  exact hnothing _

theorem due_le_free (now : ℕ) (m : Subscription) (b : Books) :
    b.due now m ≤ b.balance - b.reserved := by
  unfold due
  exact min_le_right _ _

theorem due_le_accrued (now : ℕ) (m : Subscription) (b : Books) : b.due now m ≤ m.accrued now := by
  unfold due
  exact (min_le_left _ _).trans (min_le_left _ _)

theorem due_le_budget (now : ℕ) (m : Subscription) (b : Books) :
    b.due now m ≤ b.rules.weeklyMonitoringBudget - (b.window.roll now).spent := by
  unfold due
  exact (min_le_left _ _).trans (min_le_right _ _)

end Books

/-- The operations on the books. -/
inductive BookOp
  | setup (now : ℕ) (rules : VaultConfig)
  | deposit (a : Address) (x : ℕ)
  | withdraw (a : Address) (x : ℕ)
  | reserve (x : ℕ)
  | pay (recipient : Address) (x : ℕ)
  | release (x : ℕ)
  | bounty (recipient : Address) (x : ℕ)
  | settle (now : ℕ)
  | subscribe (a : Address) (rate now : ℕ)
  | unsubscribe
  | configure (rules : VaultConfig)

/-- One operation on the books of the vault at `this`, with the conditions under which it takes place. -/
inductive BookStep (this : Address) : Books → BookOp → Books → Prop
  | setup {b : Books} {now : ℕ} {rules : VaultConfig} (hnew : b.opened = false) :
      BookStep this b (.setup now rules)
        { b with opened := true, rules := rules, window := ⟨now, b.window.spent⟩ }
  | deposit {b : Books} {a : Address} {x : ℕ} {token : TokenLedger} (ha : a ≠ this)
      (hpay : b.token.transfer a this x = some token) :
      BookStep this b (.deposit a x) { b with
        token := token
        balance := b.balance + x
        pool := b.pool + b.toPool x
        shares := Function.update b.shares a (b.shares a + x) }
  | withdraw {b : Books} {a : Address} {x : ℕ} {token : TokenLedger} (hx : 0 < x)
      (hshare : x ≤ b.shares a) (hfree : b.reserved + x ≤ b.balance)
      (hpay : b.token.transfer this a x = some token) :
      BookStep this b (.withdraw a x) { b with
        token := token
        balance := b.balance - x
        shares := Function.update b.shares a (b.shares a - x) }
  | reserve {b : Books} {x : ℕ} (hfree : b.reserved + x ≤ b.balance) :
      BookStep this b (.reserve x) { b with reserved := b.reserved + x }
  | pay {b : Books} {recipient : Address} {x : ℕ} {token : TokenLedger} (hreserved : x ≤ b.reserved)
      (hle : x ≤ b.balance) (hpay : b.token.transfer this recipient x = some token) :
      BookStep this b (.pay recipient x) { b with
        token := token
        balance := b.balance - x
        reserved := b.reserved - x }
  | release {b : Books} {x : ℕ} (hreserved : x ≤ b.reserved) :
      BookStep this b (.release x) { b with reserved := b.reserved - x }
  | bounty {b : Books} {recipient : Address} {x : ℕ} {token : TokenLedger}
      (hpool : b.bounties + x ≤ b.pool) (hle : x ≤ b.balance)
      (hpay : b.token.transfer this recipient x = some token) :
      BookStep this b (.bounty recipient x) { b with
        token := token
        balance := b.balance - x
        bounties := b.bounties + x }
  | settle {b : Books} {now : ℕ} {m : Subscription} {token : TokenLedger} (hm : b.monitor = some m)
      (ht : m.paidAt ≤ now) (hpay : b.token.transfer this m.agent (b.due now m) = some token) :
      BookStep this b (.settle now) (b.settle now m token)
  | subscribe {b : Books} {a : Address} {rate now : ℕ} (ha : a ≠ this) (hopened : b.opened = true)
      (hrate : rate ≤ b.rules.weeklyMonitoringBudget) :
      BookStep this b (.subscribe a rate now) { b with monitor := some ⟨a, rate, now, now⟩ }
  | unsubscribe {b : Books} : BookStep this b .unsubscribe { b with monitor := none }
  | configure {b : Books} {rules : VaultConfig} :
      BookStep this b (.configure rules) { b with rules := rules }

/-- A sequence of operations. -/
abbrev BookSteps (this : Address) : Books → List BookOp → Books → Prop :=
  TransitionSystem.Path (BookStep this)

variable {this : Address} {b b' : Books} {op : BookOp}

/-- What the vault accounts for is in its token account. -/
def Books.Backed (this : Address) (b : Books) : Prop := b.balance ≤ b.token.balance this

theorem Books.Backed.step (h : b.Backed this) (hstep : BookStep this b op b') : b'.Backed this := by
  unfold Backed at h ⊢
  -- The balance and the token account move by the same amount, unless no GUARD moves at all.
  cases hstep with
  | deposit ha hpay =>
    have hreceived := Ledger.transfer_balance_dst hpay ha
    simp only
    omega
  | withdraw hx hshare hfree hpay =>
    have hpaid := Ledger.transfer_src_le hpay
    simp only
    omega
  | pay hreserved hle hpay =>
    have hpaid := Ledger.transfer_src_le hpay
    simp only
    omega
  | bounty hpool hle hpay =>
    have hpaid := Ledger.transfer_src_le hpay
    simp only
    omega
  | settle hm ht hpay =>
    have hpaid := Ledger.transfer_src_le hpay
    simp only [Books.settle]
    omega
  | _ => exact h

end AuditGuard.AuditVault
