import AuditGuard.Library.Evm

/-!
# HbarPool

The fixed-rate pool of `HbarPool.sol`, which `DelegatedStaking` converts through. Its only state is
what it holds, so its functions act on the two ledgers, of GUARD and of HBAR. `accepted` says that
the token takes the transfer (an association, an allowance or a pause is the token's business), and
`payable` that the recipient takes HBAR.
-/

namespace AuditGuard.HbarPool

open Evm

/-- 1 HBAR is `RATE` GUARD. -/
def RATE : ℕ := 100

/-- `hbarToGuard`, called on the pool at `pool` by `sender` with `value` tinybars. It returns the
GUARD amount sent to the caller, and the ledgers. -/
def hbarToGuard (accepted : Bool) (pool sender : Address) (value : ℕ) (guard hbar : TokenLedger) :
    Tx (ℕ × TokenLedger × TokenLedger) := do
  let hbar ← orRevert .callFailed (hbar.transfer sender pool value)
  require (0 < value) "HbarPool: zero hbar"
  let guardAmount ← checkedMul 256 value RATE
  require (guardAmount ≤ guard.balance pool) "HbarPool: insufficient GUARD reserve"
  require (accepted = true) "HbarPool: GUARD transfer failed"
  let guard ← orRevert (.require "HbarPool: GUARD transfer failed")
    (guard.transfer pool sender guardAmount)
  pure (guardAmount, guard, hbar)

/-- `guardToHbarFor`, called on the pool at `pool` by `sender`, whose allowance to the pool is
`allowance`. -/
def guardToHbarFor (accepted payable : Bool) (pool sender : Address) (allowance guardAmount : ℕ)
    (recipient : Address) (guard hbar : TokenLedger) : Tx (TokenLedger × TokenLedger) := do
  require (0 < guardAmount) "HbarPool: zero guard"
  require (recipient ≠ 0) "HbarPool: zero recipient"
  let hbarAmount := guardAmount / RATE
  require (0 < hbarAmount) "HbarPool: amount too small"
  require (hbarAmount ≤ hbar.balance pool) "HbarPool: insufficient HBAR reserve"
  require (accepted = true ∧ guardAmount ≤ allowance) "HbarPool: GUARD transferFrom failed"
  let guard ← orRevert (.require "HbarPool: GUARD transferFrom failed")
    (guard.transfer sender pool guardAmount)
  let hbar ← orRevert .callFailed
    (if payable then hbar.transfer pool recipient hbarAmount else none)
  pure (guard, hbar)

/-- A conversion, and whether the token and the recipient take what they are sent. -/
inductive Conversion
  | hbarToGuard (accepted : Bool) (sender : Address) (value : ℕ)
  | guardToHbarFor (accepted payable : Bool) (sender : Address) (allowance guardAmount : ℕ) (recipient : Address)

/-- Who converts. -/
def Conversion.sender : Conversion → Address
  | .hbarToGuard _ sender _ | .guardToHbarFor _ _ sender .. => sender

/-- Who gets what comes of it. -/
def Conversion.recipient : Conversion → Address
  | .hbarToGuard _ sender _ => sender
  | .guardToHbarFor _ _ _ _ _ recipient => recipient

/-- A conversion, on the ledgers of GUARD and of HBAR. -/
def Conversion.exec (pool : Address) (c : Conversion) (ledgers : TokenLedger × TokenLedger) :
    Tx (TokenLedger × TokenLedger) :=
  match c with
  | .hbarToGuard accepted sender value => do
    let (_, guard, hbar) ← HbarPool.hbarToGuard accepted pool sender value ledgers.1 ledgers.2
    pure (guard, hbar)
  | .guardToHbarFor accepted payable sender allowance guardAmount recipient =>
    HbarPool.guardToHbarFor accepted payable pool sender allowance guardAmount recipient ledgers.1 ledgers.2

/-- What an account has of both, in GUARD. -/
def worth (ledgers : TokenLedger × TokenLedger) (account : Address) : ℕ :=
  ledgers.1.balance account + RATE * ledgers.2.balance account

variable {accepted payable : Bool} {pool sender recipient : Address} {value allowance amount : ℕ}
  {guard guard' hbar hbar' : TokenLedger}

theorem hbarToGuard_spec
    (h : hbarToGuard accepted pool sender value guard hbar = .ok (amount, guard', hbar')) :
    amount = value * RATE ∧ 0 < value ∧ guard.transfer pool sender amount = some guard' ∧
      hbar.transfer sender pool value = some hbar' := by
  simp only [hbarToGuard, bind_eq_ok, orRevert_eq_ok, require_eq_ok, checkedMul_eq_ok, pure_eq_ok,
    Prod.mk.injEq] at h
  obtain ⟨_, hhbar, _, hpos, _, ⟨_, rfl⟩, _, _, _, _, _, hguard, rfl, rfl, rfl⟩ := h
  exact ⟨rfl, hpos, hguard, hhbar⟩

theorem guardToHbarFor_spec (h : guardToHbarFor accepted payable pool sender allowance amount
    recipient guard hbar = .ok (guard', hbar')) :
    guard.transfer sender pool amount = some guard' ∧ 0 < amount ∧ amount ≤ allowance ∧
      hbar.transfer pool recipient (amount / RATE) = some hbar' := by
  simp only [guardToHbarFor, bind_eq_ok, orRevert_eq_ok, require_eq_ok, pure_eq_ok, Prod.mk.injEq] at h
  obtain ⟨_, hpos, _, _, _, _, _, _, _, ⟨_, hallowance⟩, _, hguard, _, hhbar, rfl, rfl⟩ := h
  split_ifs at hhbar
  exact ⟨hguard, hpos, hallowance, hhbar⟩

/-! ## Conversions one after the other -/

variable {c : Conversion} {conversions : List Conversion} {ledgers ledgers' : TokenLedger × TokenLedger}

theorem worth_of_transfers {src dst src' dst' : Address} {guardAmount hbarAmount : ℕ}
    (hguard : ledgers.1.transfer src dst guardAmount = some ledgers'.1)
    (hhbar : ledgers.2.transfer src' dst' hbarAmount = some ledgers'.2) (a : Address) :
    worth ledgers' a + ((if src = a then guardAmount else 0) + if src' = a then RATE * hbarAmount else 0) =
      worth ledgers a + ((if dst = a then guardAmount else 0) + if dst' = a then RATE * hbarAmount else 0) := by
  have hsent := Ledger.transfer_balance hguard a
  have hpaid := Ledger.transfer_balance hhbar a
  unfold worth RATE
  split_ifs at * <;> omega

/-- GUARD goes one way and HBAR the other, and the pool keeps what is not worth a tinybar. -/
theorem exec_spec (h : c.exec pool ledgers = .ok ledgers') :
    (∃ value, ledgers.1.transfer pool c.sender (value * RATE) = some ledgers'.1 ∧
      ledgers.2.transfer c.sender pool value = some ledgers'.2) ∨
    ∃ guardAmount, ledgers.1.transfer c.sender pool guardAmount = some ledgers'.1 ∧
      ledgers.2.transfer pool c.recipient (guardAmount / RATE) = some ledgers'.2 := by
  cases c with
  | hbarToGuard accepted sender value =>
    obtain ⟨⟨guardAmount, guard, hbar⟩, hexec, hpure⟩ := bind_eq_ok.mp h
    obtain rfl := pure_eq_ok.mp hpure
    obtain ⟨rfl, -, hguard, hhbar⟩ := hbarToGuard_spec hexec
    exact .inl ⟨value, hguard, hhbar⟩
  | guardToHbarFor accepted payable sender allowance guardAmount recipient =>
    obtain ⟨hguard, -, -, hhbar⟩ := guardToHbarFor_spec h
    exact .inr ⟨guardAmount, hguard, hhbar⟩

/-- The pool is not worth less, nor is an account that is not paid by another one worth more. -/
theorem worth_step (hs : c.sender ≠ pool) (h : c.exec pool ledgers = .ok ledgers') :
    worth ledgers pool ≤ worth ledgers' pool ∧
      ∀ a ≠ pool, (c.recipient = a → c.sender = a) → worth ledgers' a ≤ worth ledgers a := by
  rcases exec_spec h with ⟨value, hguard, hhbar⟩ | ⟨guardAmount, hguard, hhbar⟩
  · have hmoved := worth_of_transfers hguard hhbar
    refine ⟨?_, fun a ha _ => ?_⟩
    · have hpool := hmoved pool
      rw [if_pos rfl, if_neg hs, if_neg hs, if_pos rfl, Nat.mul_comm value] at hpool
      omega
    · have ha' := hmoved a
      rw [if_neg ha.symm, if_neg ha.symm, Nat.mul_comm value] at ha'
      split_ifs at ha' <;> omega
  · have hmoved := worth_of_transfers hguard hhbar
    have hrounds : RATE * (guardAmount / RATE) ≤ guardAmount := Nat.mul_div_le ..
    refine ⟨?_, fun a ha hown => ?_⟩
    · have hpool := hmoved pool
      rw [if_neg hs, if_pos rfl, if_pos rfl] at hpool
      split_ifs at hpool <;> omega
    · have ha' := hmoved a
      rw [if_neg ha.symm, if_neg ha.symm] at ha'
      split_ifs at ha' with hsender hrecipient hrecipient
      · omega
      · omega
      · exact absurd (hown hrecipient) hsender
      · omega

/-- Whoever converts in whatever order, the pool is never worth less than before, and no account is worth more by its
own conversions. -/
theorem worth_of_conversions (hs : ∀ c ∈ conversions, c.sender ≠ pool)
    (h : conversions.foldlM (fun ledgers c => c.exec pool ledgers) ledgers = .ok ledgers') :
    worth ledgers pool ≤ worth ledgers' pool ∧ ∀ a ≠ pool,
      (∀ c ∈ conversions, c.recipient = a → c.sender = a) → worth ledgers' a ≤ worth ledgers a := by
  induction conversions generalizing ledgers with
  | nil =>
    obtain rfl := Except.ok.inj h
    exact ⟨Nat.le_refl _, fun _ _ _ => Nat.le_refl _⟩
  | cons c conversions ih =>
    rw [List.foldlM_cons] at h
    obtain ⟨ledgers₁, hfirst, hrest⟩ := bind_eq_ok.mp h
    rw [List.forall_mem_cons] at hs
    obtain ⟨hpool, haccounts⟩ := worth_step hs.1 hfirst
    obtain ⟨hpool', haccounts'⟩ := ih hs.2 hrest
    refine ⟨hpool.trans hpool', fun a ha hown => ?_⟩
    rw [List.forall_mem_cons] at hown
    exact (haccounts' a ha hown.2).trans (haccounts a ha hown.1)

/-- The ledgers of a pool with GUARD and an account with HBAR. -/
def sampleLedgers : TokenLedger × TokenLedger :=
  (.single 1 (10^12) TokenLedger.trillion_lt, .single 2 (10^12) TokenLedger.trillion_lt)

/-- 1 tinybar comes back of 199 units of GUARD. -/
theorem worth_of_conversions_rounded : ∃ ledgers,
    [.hbarToGuard true 2 5, .guardToHbarFor true true 2 199 199 2].foldlM (fun ledgers c => Conversion.exec 1 c ledgers)
      sampleLedgers = .ok ledgers ∧ worth sampleLedgers 1 ≤ worth ledgers 1 := by
  obtain ⟨ledgers, h⟩ := exists_eq_ok (show ([.hbarToGuard true 2 5, .guardToHbarFor true true 2 199 199 2].foldlM
    (fun ledgers c => Conversion.exec 1 c ledgers) sampleLedgers).isOk = true by decide +kernel)
  exact ⟨ledgers, h, (worth_of_conversions (by decide) h).1⟩

/-- What `hbarToGuard` paid out can be converted back at once, and then the ledgers are as before. -/
theorem guardToHbarFor_hbarToGuard (hs : sender ≠ pool) (hsender : sender ≠ 0)
    (h : hbarToGuard accepted pool sender value guard hbar = .ok (amount, guard', hbar'))
    (hallowance : amount ≤ allowance) :
    guardToHbarFor true true pool sender allowance amount sender guard' hbar' = .ok (guard, hbar) := by
  obtain ⟨rfl, hpos, hguard, hhbar⟩ := hbarToGuard_spec h
  have hvalue : value * RATE / RATE = value := Nat.mul_div_cancel _ (by decide)
  have hreserve : value ≤ hbar'.balance pool := by
    rw [Ledger.transfer_balance_dst hhbar hs]
    exact Nat.le_add_left ..
  have hguardAmount : 0 < value * RATE := Nat.mul_pos hpos (by decide)
  simp only [guardToHbarFor, hvalue, require_of hsender, require_of hpos, require_of hreserve, require_of hguardAmount,
    hallowance, true_and, require_of, ok_bind, Ledger.transfer_back hguard hs.symm, Ledger.transfer_back hhbar hs, orRevert, if_true]
  rfl

/-- There and back. -/
theorem guardToHbarFor_hbarToGuard_sample : ∃ guard hbar,
    hbarToGuard true 1 2 5 sampleLedgers.1 sampleLedgers.2 = .ok (500, guard, hbar) ∧
    guardToHbarFor true true 1 2 500 500 2 guard hbar = .ok sampleLedgers := by
  obtain ⟨⟨amount, guard, hbar⟩, h⟩ := exists_eq_ok (show (hbarToGuard true 1 2 5 sampleLedgers.1
    sampleLedgers.2).isOk = true by decide +kernel)
  obtain rfl : amount = 500 := (hbarToGuard_spec h).1
  exact ⟨guard, hbar, h, guardToHbarFor_hbarToGuard (by decide) (by decide) h le_rfl⟩

end AuditGuard.HbarPool
