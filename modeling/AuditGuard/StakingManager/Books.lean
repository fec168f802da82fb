import AuditGuard.Library.Waterfall
import AuditGuard.StakingManager.System

/-!
# StakingManager: the books

What the contract is for, apart from who may call what and when: agents hold stakes of three pools,
slashes take from a stake into escrow, and each slash is settled back to the stake or to the treasury.
The books leave out every counter that the contract keeps next to its records. A stake's total is the
sum of its pools by definition, the escrow is the sum of the pending slashes, and what an agent lost is
the sum of its slashes that were not approved for return. That the contract's counters are these sums
is proved of it afterwards.
-/

namespace AuditGuard.StakingManager

open Evm

/-- An agent's stake: its pools and its status. -/
structure Position where
  /-- True from the first stake on. -/
  opened : Bool
  available : ℕ
  locked : ℕ
  unbonding : ℕ
  status : StakeStatus
deriving DecidableEq

namespace Position

/-- The position of an agent that never staked. -/
def zero : Position := ⟨false, 0, 0, 0, .active⟩

/-- The stake of the three pools together. -/
def total (p : Position) : ℕ := p.available + p.locked + p.unbonding

/-- The stake without the part that is on its way out. -/
def effective (p : Position) : ℕ := p.available + p.locked

/-- The pools, in the order in which a slash takes from them. -/
def pools (p : Position) : List ℕ := [p.available, p.locked, p.unbonding]

/-- A deposit of `x`. An agent that had withdrawn is active again once its stake is sufficient. -/
def deposit (minStake x : ℕ) (p : Position) : Position := { p with
  opened := true
  available := p.available + x
  status := if p.status = .withdrawn ∧ minStake ≤ p.total + x then .active else p.status }

/-- A request to unbond `x`. -/
def request (x : ℕ) (p : Position) : Position := { p with
  available := p.available - x
  unbonding := x }

/-- The completion of an unbonding. -/
def complete (minStake : ℕ) (p : Position) : Position := { p with
  unbonding := 0
  status :=
    if p.effective = 0 then .withdrawn
    else if p.status = .unbonding ∧ minStake ≤ p.effective then .active
    else p.status }

/-- A full exit. -/
def deactivate (p : Position) : Position := { p with
  available := 0
  unbonding := p.available
  status := .unbonding }

/-- A lock of `x`. -/
def lock (x : ℕ) (p : Position) : Position := { p with
  available := p.available - x
  locked := p.locked + x }

/-- An unlock of `x`. -/
def unlock (x : ℕ) (p : Position) : Position := { p with
  locked := p.locked - x
  available := p.available + x }

/-- The amount of a slash. -/
def slashAmount (bps : ℕ) (p : Position) : ℕ := p.total * bps / 10000

/-- The pools after a slash, which drains them in order. -/
def charge (x : ℕ) (p : Position) : Position := { p with
  available := p.available - x
  locked := p.locked - (x - p.available)
  unbonding := p.unbonding - (x - p.available - p.locked) }

/-- A slash, which freezes a stake that it leaves below the minimum or takes whole. -/
def slash (minStake bps : ℕ) (p : Position) : Position := { p.charge (p.slashAmount bps) with
  status :=
    if p.total - p.slashAmount bps < minStake ∨ bps = 10000 then .frozen else p.status }

/-- The return of a slash of `x`, which thaws a stake that it makes sufficient. -/
def restore (minStake x : ℕ) (p : Position) : Position := { p with
  available := p.available + x
  status := if p.status = .frozen ∧ minStake ≤ p.total + x then .active else p.status }

variable {p : Position} {minStake x bps : ℕ}

theorem pools_charge (x : ℕ) (p : Position) :
    (p.charge x).pools = (Waterfall.drain x p.pools).1 := rfl

theorem sum_pools (p : Position) : p.pools.sum = p.total := by
  simp only [pools, total, List.sum_cons, List.sum_nil]
  omega

theorem total_charge (h : x ≤ p.total) : (p.charge x).total + x = p.total := by
  have hsum := Waterfall.drain_sum x p.pools
  rw [Waterfall.drain_remainder_eq_zero (p.sum_pools ▸ h), ← pools_charge] at hsum
  simpa only [sum_pools, Nat.add_zero] using hsum

theorem available_of_charge_locked (h : (p.charge x).locked < p.locked) :
    (p.charge x).available = 0 :=
  @Waterfall.drain_in_order x p.locked [p.available] [p.unbonding] _ [(p.charge x).unbonding]
    rfl h _ (by simp [charge])

theorem others_of_charge_unbonding (h : (p.charge x).unbonding < p.unbonding) :
    (p.charge x).available = 0 ∧ (p.charge x).locked = 0 := by
  have hexhausted := Waterfall.drain_in_order x p.unbonding [p.available, p.locked] [] rfl h
  exact ⟨hexhausted _ (by simp [charge]), hexhausted _ (by simp [charge])⟩

theorem slashAmount_le (h : bps ≤ 10000) : p.slashAmount bps ≤ p.total := share_le h p.total

theorem total_slash (h : bps ≤ 10000) :
    (p.slash minStake bps).total + p.slashAmount bps = p.total :=
  total_charge (slashAmount_le h)

end Position

/-- A slash with the status of its appeal. -/
structure Slash where
  agent : Address
  amount : ℕ
  status : AppealStatus

namespace Slash

/-- A slash that never was. -/
def zero : Slash := ⟨0, 0, .none⟩

/-- What the slash keeps in escrow. -/
def escrowed (s : Slash) : ℕ := if s.status = .pending then s.amount else 0

/-- What the slash cost its agent, unless it was returned. -/
def charged (s : Slash) : ℕ := if s.status = .approved then 0 else s.amount

/-- What the slash cost the agent `a`. -/
def chargedTo (a : Address) (s : Slash) : ℕ := if s.agent = a then s.charged else 0

/-- The slash with its appeal settled. -/
def settle (status : AppealStatus) (s : Slash) : Slash := { s with status := status }

theorem sum_chargedTo (s : Slash) : ∑ a, s.chargedTo a = s.charged := by
  simp [chargedTo]

end Slash

/-- The agents' stakes, the slashes by their ids, and the ledger of the GUARD token. -/
structure Books where
  guard : TokenLedger
  positions : Address → Position
  slashes : ℕ → Slash
  /-- The next id, above all ids that were given. -/
  nextSlashId : ℕ

namespace Books

/-- Writes a position. -/
@[simps -fullyApplied]
def setPosition (b : Books) (a : Address) (p : Position) : Books :=
  { b with positions := Function.update b.positions a p }

/-- Writes a slash. -/
@[simps -fullyApplied]
def setSlash (b : Books) (id : ℕ) (s : Slash) : Books :=
  { b with slashes := Function.update b.slashes id s }

/-- Writes the ledger. -/
@[simps -fullyApplied]
def setGuard (b : Books) (guard : TokenLedger) : Books := { b with guard := guard }

/-- The sum of `w` over all slashes. -/
def sumSlashes (b : Books) (w : Slash → ℕ) : ℕ := ∑ i ∈ Finset.range b.nextSlashId, w (b.slashes i)

/-- GUARD in escrow. -/
def escrow (b : Books) : ℕ := b.sumSlashes Slash.escrowed

/-- All stakes together. -/
def staked (b : Books) : ℕ := ∑ a, (b.positions a).total

/-- The slash of `bps` of the stake of `a`, under the next id. -/
def slash (b : Books) (minStake : ℕ) (a : Address) (bps : ℕ) : Books := { b with
  positions := Function.update b.positions a ((b.positions a).slash minStake bps)
  slashes := Function.update b.slashes b.nextSlashId ⟨a, (b.positions a).slashAmount bps, .pending⟩
  nextSlashId := b.nextSlashId + 1 }

/-- The return of the slash `id` to its agent. -/
def approve (b : Books) (minStake id : ℕ) : Books :=
  let s := b.slashes id
  (b.setPosition s.agent ((b.positions s.agent).restore minStake s.amount)).setSlash id
    (s.settle .approved)

/-- The settlement of the slash `id` to the treasury, with the ledger after the payment. -/
def deny (b : Books) (id : ℕ) (guard : TokenLedger) : Books :=
  (b.setSlash id ((b.slashes id).settle .denied)).setGuard guard

end Books

/-- The operations on the books. -/
inductive BookOp
  | deposit (a : Address) (x : ℕ)
  | request (a : Address) (x : ℕ)
  | complete (a : Address)
  | deactivate (a : Address)
  | lock (a : Address) (x : ℕ)
  | unlock (a : Address) (x : ℕ)
  | slash (a : Address) (bps : ℕ)
  | approve (id : ℕ)
  | deny (id : ℕ) (treasury : Address)

/-- One operation on the books of the contract at `this`, with the conditions on the books under which
it takes place. -/
inductive BookStep (this : Address) (minStake : ℕ) : Books → BookOp → Books → Prop
  | deposit {b : Books} {a : Address} {x : ℕ} {guard : TokenLedger} (hx : 0 < x) (ha : a ≠ this)
      (hpay : b.guard.transfer a this x = some guard) :
      BookStep this minStake b (.deposit a x)
        ((b.setPosition a ((b.positions a).deposit minStake x)).setGuard guard)
  | request {b : Books} {a : Address} {x : ℕ} (hx : 0 < x) (hactive : (b.positions a).status = .active)
      (hle : x ≤ (b.positions a).available) (hnone : (b.positions a).unbonding = 0)
      (hmin : minStake ≤ (b.positions a).total - x) :
      BookStep this minStake b (.request a x) (b.setPosition a ((b.positions a).request x))
  | complete {b : Books} {a : Address} {guard : TokenLedger} (hpos : 0 < (b.positions a).unbonding)
      (ha : a ≠ this) (hpay : b.guard.transfer this a (b.positions a).unbonding = some guard) :
      BookStep this minStake b (.complete a)
        ((b.setPosition a ((b.positions a).complete minStake)).setGuard guard)
  | deactivate {b : Books} {a : Address}
      (hstatus : (b.positions a).status = .active ∨ (b.positions a).status = .unbonding)
      (hlocked : (b.positions a).locked = 0) (hnone : (b.positions a).unbonding = 0)
      (hpos : 0 < (b.positions a).available) :
      BookStep this minStake b (.deactivate a) (b.setPosition a (b.positions a).deactivate)
  | lock {b : Books} {a : Address} {x : ℕ} (hx : 0 < x) (hle : x ≤ (b.positions a).available) :
      BookStep this minStake b (.lock a x) (b.setPosition a ((b.positions a).lock x))
  | unlock {b : Books} {a : Address} {x : ℕ} (hx : 0 < x) (hle : x ≤ (b.positions a).locked) :
      BookStep this minStake b (.unlock a x) (b.setPosition a ((b.positions a).unlock x))
  | slash {b : Books} {a : Address} {bps : ℕ} (hpos : 0 < (b.positions a).total)
      (hbps : bps ≤ 10000) :
      BookStep this minStake b (.slash a bps) (b.slash minStake a bps)
  | approve {b : Books} {id : ℕ} (hpending : (b.slashes id).status = .pending) :
      BookStep this minStake b (.approve id) (b.approve minStake id)
  | deny {b : Books} {id : ℕ} {treasury : Address} {guard : TokenLedger}
      (hpending : (b.slashes id).status = .pending)
      (hpay : b.guard.transfer this treasury (b.slashes id).amount = some guard) :
      BookStep this minStake b (.deny id treasury) (b.deny id guard)

/-- A sequence of operations. -/
abbrev BookSteps (this : Address) (minStake : ℕ) : Books → List BookOp → Books → Prop :=
  TransitionSystem.Path (BookStep this minStake)

end AuditGuard.StakingManager
