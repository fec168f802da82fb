import Mathlib.Data.ZMod.Defs
import Mathlib.Tactic.Linarith
import AuditGuard.Library.Ledger

/-!
# Solidity calls

The setting of a Solidity function: addresses, messages, reverts, and checked arithmetic. A call is
a computation in `Tx` that returns its result or reverts with everything undone. Unsigned integers
are natural numbers, and the operations that the compiler checks at a width `w` take it as an
argument. Solidity gives both arithmetic panics one code, `0x11`; they are kept apart here, so that
a property may speak of subtractions alone.

The lemmas turn a call that returned into the facts its checks left behind.
-/

namespace Evm

/-- A 20-byte account address. -/
structure Address where
  /-- The address as a number. -/
  toNat : ℕ
  /-- It has 20 bytes. -/
  isLt : toNat < 2^160
deriving DecidableEq

namespace Address

instance (n : ℕ) : OfNat Address n := ⟨⟨n % 2^160, Nat.mod_lt _ (by positivity)⟩⟩

instance : Inhabited Address := ⟨0⟩

/-- Addresses are the numbers below `2^160`. -/
def equivFin : Address ≃ Fin (2^160) where
  toFun a := ⟨a.toNat, a.isLt⟩
  invFun i := ⟨i.val, i.isLt⟩
  left_inv _ := rfl
  right_inv _ := rfl

instance : Fintype Address := Fintype.ofEquiv _ equivFin.symm

end Address

/-- A value of the type `uint<w>`. -/
abbrev UInt (w : ℕ) := Fin (2^w)

instance instNeZeroUInt96 : NeZero (2^96) := ⟨by decide⟩

instance instNeZeroUInt256 : NeZero (2^256) := ⟨by decide⟩

/-- A value of the type `int<w>`. -/
abbrev SInt (w : ℕ) := { z : ℤ // -2^(w - 1) ≤ z ∧ z < 2^(w - 1) }

/-- Why a call reverted. -/
inductive Revert
  /-- A `require` failed, with its message. -/
  | require (message : String)
  /-- A custom error, by its name. -/
  | custom (name : String)
  /-- A checked addition or multiplication left its type. -/
  | overflow
  /-- A checked subtraction fell below zero. -/
  | underflow
  /-- A call to another account failed without a message. -/
  | callFailed
deriving DecidableEq, Repr

/-- The message of a call, and the time of its block. -/
structure Msg where
  /-- `msg.sender`. -/
  sender : Address
  /-- `msg.value`, in tinybars. -/
  value : ℕ
  /-- `block.timestamp`. -/
  timestamp : ℕ

/-- A call's outcome: a result, or a revert that undoes the call. -/
abbrev Tx := Except Revert

/-- `require(c, message)`. -/
def require (c : Prop) [Decidable c] (message : String) : Tx Unit :=
  if c then .ok () else .error (.require message)

/-- A modifier of an inherited contract, which reverts with the custom error `name`. -/
def modifier (c : Prop) [Decidable c] (name : String) : Tx Unit :=
  if c then .ok () else .error (.custom name)

/-- `a + b` in `uint<w>`. -/
def checkedAdd (w a b : ℕ) : Tx ℕ :=
  if a + b < 2^w then .ok (a + b) else .error .overflow

/-- `a * b` in `uint<w>`. -/
def checkedMul (w a b : ℕ) : Tx ℕ :=
  if a * b < 2^w then .ok (a * b) else .error .overflow

/-- `a - b`, which is the same check at every width. -/
def checkedSub (a b : ℕ) : Tx ℕ :=
  if b ≤ a then .ok (a - b) else .error .underflow

/-- `-z` in `int<w>`, whose smallest value has no opposite. -/
def checkedNeg (w : ℕ) (z : ℤ) : Tx ℤ :=
  if -2^(w - 1) < z then .ok (-z) else .error .overflow

/-- `y + z` in `int<w>`. -/
def checkedAddInt (w : ℕ) (y z : ℤ) : Tx ℤ :=
  if -2^(w - 1) ≤ y + z ∧ y + z < 2^(w - 1) then .ok (y + z) else .error .overflow

/-- `y - z` in `int<w>`. -/
def checkedSubInt (w : ℕ) (y z : ℤ) : Tx ℤ :=
  if -2^(w - 1) ≤ y - z ∧ y - z < 2^(w - 1) then .ok (y - z) else .error .overflow

/-- The explicit conversion `uint<w>(a)`, which drops the high bits. -/
def truncate (w a : ℕ) : ℕ := a % 2^w

/-- The explicit conversion `int<w>(a)` of a `uint<w>`, which keeps the bits. -/
def toSigned (w a : ℕ) : ℤ := (a : ℤ).bmod (2^w)

/-- The outcome of an external call that may fail. -/
def orRevert {α : Type} (e : Revert) : Option α → Tx α
  | some a => .ok a
  | none => .error e

section Outcomes

variable {α β : Type} {c : Prop} [Decidable c] {s : String} {w a b n : ℕ} {e : Revert}

@[simp]
theorem bind_eq_ok {x : Tx α} {f : α → Tx β} {b : β} :
    (x >>= f) = .ok b ↔ ∃ a, x = .ok a ∧ f a = .ok b := by
  cases x <;> simp [Bind.bind, Except.bind]

@[simp]
theorem bind_eq_error {x : Tx α} {f : α → Tx β} :
    (x >>= f) = .error e ↔ x = .error e ∨ ∃ a, x = .ok a ∧ f a = .error e := by
  cases x <;> simp [Bind.bind, Except.bind]

theorem bind_ne_error {x : Tx α} {f : α → Tx β} (hx : x ≠ .error e)
    (hf : ∀ a, x = .ok a → f a ≠ .error e) : (x >>= f) ≠ .error e := by
  rw [Ne, bind_eq_error]
  rintro (h | ⟨a, ha, h⟩)
  · exact hx h
  · exact hf a ha h

@[simp]
theorem pure_eq_ok {a b : α} : (pure a : Tx α) = .ok b ↔ a = b := by
  simp [Pure.pure, Except.pure]

@[simp]
theorem pure_ne_error {a : α} : (pure a : Tx α) ≠ .error e := by
  simp [Pure.pure, Except.pure]

@[simp]
theorem ok_bind {a : α} {f : α → Tx β} : ((.ok a : Tx α) >>= f) = f a := rfl

@[simp]
theorem require_eq_ok {u : Unit} : require c s = .ok u ↔ c := by
  unfold require
  split_ifs with h <;> simp [h]

@[simp]
theorem require_eq_error : require c s = .error e ↔ ¬ c ∧ e = .require s := by
  unfold require
  split_ifs with h <;> simp [h, eq_comm]

theorem require_ne_error (h : e ≠ .require s) : require c s ≠ .error e := by
  rw [Ne, require_eq_error]
  exact fun h' => h h'.2

@[simp]
theorem modifier_eq_ok {u : Unit} : modifier c s = .ok u ↔ c := by
  unfold modifier
  split_ifs with h <;> simp [h]

@[simp]
theorem modifier_eq_error : modifier c s = .error e ↔ ¬ c ∧ e = .custom s := by
  unfold modifier
  split_ifs with h <;> simp [h, eq_comm]

@[simp]
theorem checkedAdd_eq_ok : checkedAdd w a b = .ok n ↔ a + b < 2^w ∧ a + b = n := by
  unfold checkedAdd
  split_ifs with h <;> simp [h]

@[simp]
theorem checkedAdd_eq_error : checkedAdd w a b = .error e ↔ 2^w ≤ a + b ∧ e = .overflow := by
  unfold checkedAdd
  split_ifs with h
  · simp [h]
  · simp [eq_comm, Nat.le_of_not_lt h]

@[simp]
theorem checkedMul_eq_ok : checkedMul w a b = .ok n ↔ a * b < 2^w ∧ a * b = n := by
  unfold checkedMul
  split_ifs with h <;> simp [h]

@[simp]
theorem checkedMul_eq_error : checkedMul w a b = .error e ↔ 2^w ≤ a * b ∧ e = .overflow := by
  unfold checkedMul
  split_ifs with h
  · simp [h]
  · simp [eq_comm, Nat.le_of_not_lt h]

@[simp]
theorem checkedSub_eq_ok : checkedSub a b = .ok n ↔ b ≤ a ∧ a - b = n := by
  unfold checkedSub
  split_ifs with h <;> simp [h]

@[simp]
theorem checkedSub_eq_error : checkedSub a b = .error e ↔ a < b ∧ e = .underflow := by
  unfold checkedSub
  split_ifs with h
  · simp [h]
  · simp [eq_comm, Nat.lt_of_not_le h]

@[simp]
theorem checkedNeg_eq_ok {z z' : ℤ} : checkedNeg w z = .ok z' ↔ -2^(w - 1) < z ∧ -z = z' := by
  unfold checkedNeg
  split_ifs with h <;> simp [h]

@[simp]
theorem checkedAddInt_eq_ok {x y z : ℤ} :
    checkedAddInt w x y = .ok z ↔ (-2^(w - 1) ≤ x + y ∧ x + y < 2^(w - 1)) ∧ x + y = z := by
  unfold checkedAddInt
  split_ifs with h
  · simp only [Except.ok.injEq, h, and_self, true_and]
  · simp only [h, false_and]

@[simp]
theorem checkedSubInt_eq_ok {x y z : ℤ} :
    checkedSubInt w x y = .ok z ↔ (-2^(w - 1) ≤ x - y ∧ x - y < 2^(w - 1)) ∧ x - y = z := by
  unfold checkedSubInt
  split_ifs with h
  · simp only [Except.ok.injEq, h, and_self, true_and]
  · simp only [h, false_and]

@[simp]
theorem orRevert_eq_ok {o : Option α} {a : α} : orRevert e o = .ok a ↔ o = some a := by
  cases o <;> simp [orRevert]

@[simp]
theorem orRevert_eq_error {o : Option α} {e' : Revert} :
    orRevert e o = .error e' ↔ o = none ∧ e' = e := by
  cases o <;> simp [orRevert, eq_comm]

theorem require_of (h : c) : require c s = .ok () := if_pos h

theorem modifier_of (h : c) : modifier c s = .ok () := if_pos h

theorem checkedAdd_of_lt (h : a + b < 2^w) : checkedAdd w a b = .ok (a + b) := if_pos h

theorem checkedMul_of_lt (h : a * b < 2^w) : checkedMul w a b = .ok (a * b) := if_pos h

theorem checkedSub_of_le (h : b ≤ a) : checkedSub a b = .ok (a - b) := if_pos h

theorem exists_eq_ok {x : Tx α} (h : x.isOk = true) : ∃ a, x = .ok a := by
  cases x with
  | error e => simp [Except.isOk, Except.toBool] at h
  | ok a => exact ⟨a, rfl⟩

theorem truncate_of_lt (h : a < 2^w) : truncate w a = a := Nat.mod_eq_of_lt h

end Outcomes

theorem share_le {bps : ℕ} (h : bps ≤ 10000) (amount : ℕ) : amount * bps / 10000 ≤ amount := by
  calc amount * bps / 10000 ≤ amount * 10000 / 10000 :=
        Nat.div_le_div_right (Nat.mul_le_mul_left _ h)
    _ = amount := Nat.mul_div_cancel _ (by norm_num)

/-- The balances of a token on Hedera, whose amounts are non-negative `int64` numbers. -/
abbrev TokenLedger := Ledger Address (2^63)

theorem TokenLedger.zero_lt : 0 < 2^63 := by norm_num

theorem TokenLedger.trillion_lt : 10^12 < 2^63 := by norm_num

theorem TokenLedger.two_trillion_lt : 2 * 10^12 < 2^63 := by norm_num

end Evm
