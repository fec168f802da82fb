import Mathlib.Algebra.BigOperators.Group.List.Basic
import Mathlib.Algebra.GroupWithZero.Nat

/-!
# Waterfalls

A charge is taken from a list of pools in order: each pool pays what it can, and only what it could
not pay is passed on to the next. What the pools lose together is the charge, up to a remainder that
is left only when all of them are empty.
-/

namespace Waterfall

/-- Takes `n` from the pools, the first ones first. Returns the pools afterwards, and what none of
them could pay. -/
def drain : ℕ → List ℕ → List ℕ × ℕ
  | n, [] => ([], n)
  | n, pool :: pools =>
    let (rest, remainder) := drain (n - pool) pools
    ((pool - n) :: rest, remainder)

variable {n : ℕ} {pools : List ℕ}

@[simp]
theorem drain_nil (n : ℕ) : drain n [] = ([], n) := rfl

@[simp]
theorem drain_cons (n pool : ℕ) (pools : List ℕ) :
    drain n (pool :: pools) = ((pool - n) :: (drain (n - pool) pools).1, (drain (n - pool) pools).2) :=
  rfl

/-- Nothing is lost. -/
theorem drain_sum (n : ℕ) (pools : List ℕ) :
    (drain n pools).1.sum + n = pools.sum + (drain n pools).2 := by
  induction pools generalizing n with
  | nil => simp
  | cons pool pools ih =>
    have hrest := ih (n - pool)
    simp only [drain_cons, List.sum_cons]
    omega

theorem drain_remainder (n : ℕ) (pools : List ℕ) : (drain n pools).2 = n - pools.sum := by
  induction pools generalizing n with
  | nil => simp
  | cons pool pools ih =>
    rw [drain_cons, ih, List.sum_cons]
    omega

theorem drain_remainder_eq_zero (h : n ≤ pools.sum) : (drain n pools).2 = 0 := by
  rw [drain_remainder]
  omega

/-- A remainder means that all pools are empty. -/
theorem drain_exhausts (h : 0 < (drain n pools).2) : ∀ pool ∈ (drain n pools).1, pool = 0 := by
  induction pools generalizing n with
  | nil => simp
  | cons pool pools ih =>
    rw [drain_cons, List.forall_mem_cons]
    refine ⟨?_, ih h⟩
    rw [drain_cons, drain_remainder] at h
    omega

theorem drain_append (n : ℕ) (first later : List ℕ) :
    drain n (first ++ later) =
      ((drain n first).1 ++ (drain (drain n first).2 later).1,
        (drain (drain n first).2 later).2) := by
  induction first generalizing n with
  | nil => rfl
  | cons pool first ih => simp only [List.cons_append, drain_cons, ih]

/-- A pool that has something left is after empty ones only. -/
theorem drain_in_order (n pool : ℕ) (first later : List ℕ) {left : ℕ} {rest : List ℕ}
    (h : (drain n (first ++ pool :: later)).1 = (drain n first).1 ++ left :: rest)
    (hpaid : left < pool) : ∀ p ∈ (drain n first).1, p = 0 := by
  rw [drain_append, drain_cons, List.append_cancel_left_eq, List.cons.injEq] at h
  refine drain_exhausts ?_
  omega

end Waterfall
