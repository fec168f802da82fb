import AuditGuard.Library.Contract

/-!
# The Hedera Token Service

The contracts move GUARD through the `transferToken` function of the HTS precompile, which reports its
outcome as a response code. The precompile moves exactly the amount when it answers `HTS_SUCCESS`, and
nothing otherwise. Besides the sender's balance it looks at associations, allowances, freezes and the
like; `answer` is what it answers as far as these are concerned.

Every contract wraps the precompile in the same `_transferGuard`, with its own name in the messages.
-/

namespace AuditGuard.Hts

open Evm

/-- The response code of a successful operation. -/
def HTS_SUCCESS : ℤ := 22

/-- The response code of an association that exists already. -/
def HTS_TOKEN_ALREADY_ASSOCIATED : ℤ := 194

/-- The response code of a transfer that the sender's balance does not cover. -/
def INSUFFICIENT_TOKEN_BALANCE : ℤ := 178

/-- `transferToken`: the response code, and the token's ledger. -/
def transferToken (answer : ℤ) (token : TokenLedger) (sender receiver : Address) (amount : ℕ) :
    ℤ × TokenLedger :=
  if answer = HTS_SUCCESS then
    match token.transfer sender receiver amount with
    | some token' => (HTS_SUCCESS, token')
    | none => (INSUFFICIENT_TOKEN_BALANCE, token)
  else (answer, token)

/-- `_transferGuard` of the contract called `contract`. -/
def transferGuard (contract : String) (answer : ℤ) (src dst : Address) (amount : ℕ)
    (guard : TokenLedger) : Tx TokenLedger := do
  require (amount ≤ 2^63 - 1) (contract ++ ": amount exceeds int64")
  let (responseCode, guard) := transferToken answer guard src dst amount
  require (responseCode = HTS_SUCCESS) (contract ++ ": HTS transfer failed")
  pure guard

/-- `_transferGuard` of the contract called `contract`, on its world. -/
def transfer {State : Type} (contract : String) (answer : ℤ) (src dst : Address) (amount : ℕ)
    (w : World State) : Tx (World State) := do
  let token ← transferGuard contract answer src dst amount w.token
  pure { w with token := token }

variable {contract : String} {answer : ℤ} {src dst : Address} {amount : ℕ}
  {guard guard' : TokenLedger}

theorem transferToken_success : (transferToken answer guard src dst amount).1 = HTS_SUCCESS ∧
    (transferToken answer guard src dst amount).2 = guard' ↔
      answer = HTS_SUCCESS ∧ guard.transfer src dst amount = some guard' := by
  unfold transferToken
  by_cases hanswer : answer = HTS_SUCCESS
  · rw [if_pos hanswer]
    rcases guard.transfer src dst amount with _ | moved
    · simp [hanswer, HTS_SUCCESS, INSUFFICIENT_TOKEN_BALANCE]
    · simp [hanswer]
  · rw [if_neg hanswer]
    simp [hanswer]

theorem transferGuard_eq_ok : transferGuard contract answer src dst amount guard = .ok guard' ↔
    answer = HTS_SUCCESS ∧ guard.transfer src dst amount = some guard' := by
  simp only [transferGuard, bind_eq_ok, require_eq_ok, pure_eq_ok, exists_and_left,
    exists_const, transferToken_success]
  refine and_iff_right_of_imp ?_
  rintro ⟨-, htransfer⟩
  -- A balance that covers the amount keeps it within `int64`.
  have hcovered := (Ledger.transfer_eq_some htransfer).1
  have hbalance := guard.balance_lt src
  omega

theorem transfer_eq_ok {State : Type} {w w' : World State} :
    transfer contract answer src dst amount w = .ok w' ↔
      answer = HTS_SUCCESS ∧ ∃ token, w.token.transfer src dst amount = some token ∧
        w' = { w with token := token } := by
  simp only [transfer, bind_eq_ok, pure_eq_ok, transferGuard_eq_ok]
  constructor
  · rintro ⟨token, ⟨hanswer, htransfer⟩, rfl⟩
    exact ⟨hanswer, token, htransfer, rfl⟩
  · rintro ⟨hanswer, token, htransfer, rfl⟩
    exact ⟨token, ⟨hanswer, htransfer⟩, rfl⟩

theorem transfer_succeeds {State : Type} (contract : String) (w : World State) (dst : Address)
    (hanswer : answer = HTS_SUCCESS) (hcovered : amount ≤ w.token.balance src) :
    ∃ token, transfer contract answer src dst amount w = .ok { w with token := token } := by
  obtain ⟨token, htoken⟩ := (w.token.transfer_isSome_iff src dst amount).mpr hcovered
  exact ⟨token, transfer_eq_ok.mpr ⟨hanswer, token, htoken, rfl⟩⟩

theorem transfer_ne_underflow {State : Type} {w : World State} :
    transfer contract answer src dst amount w ≠ .error .underflow := by
  simp only [transfer, transferGuard, ne_eq, bind_eq_error, require_eq_error, pure_ne_error,
    reduceCtorEq, and_false, exists_false, or_self, not_false_eq_true]

end AuditGuard.Hts
