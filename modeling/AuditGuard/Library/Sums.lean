import Mathlib.Algebra.BigOperators.Group.Finset.Piecewise
import Mathlib.Data.Fintype.Prod

/-!
# Sums over a table with one entry replaced

A store keeps a table of records, and its totals are sums over the table. An operation replaces one
record, and every total moves by what that record's share moved. The equations are balanced, with
the old share on the left, so that they hold for natural numbers without subtraction.
-/

namespace Sums

variable {ι κ α M : Type*} [DecidableEq ι] [DecidableEq κ] [AddCommMonoid M]

theorem sum_update_of_mem {s : Finset ι} {i : ι} (hi : i ∈ s) (f : ι → α) (v : α)
    (w : ι → α → M) :
    ∑ j ∈ s, w j (Function.update f i v j) + w i (f i) = ∑ j ∈ s, w j (f j) + w i v := by
  rw [← Finset.add_sum_erase s _ hi, ← Finset.add_sum_erase s (fun j => w j (f j)) hi]
  have h : ∑ j ∈ s.erase i, w j (Function.update f i v j) = ∑ j ∈ s.erase i, w j (f j) :=
    Finset.sum_congr rfl fun j hj => by rw [Function.update_of_ne (Finset.ne_of_mem_erase hj)]
  rw [h, Function.update_self]
  ac_rfl

theorem sum_range_push (f : ℕ → α) (n : ℕ) (v : α) (w : α → M) :
    ∑ i ∈ Finset.range (n + 1), w (Function.update f n v i) =
      ∑ i ∈ Finset.range n, w (f i) + w v := by
  rw [Finset.sum_range_succ, Function.update_self]
  congr 1
  refine Finset.sum_congr rfl fun i hi => ?_
  rw [Function.update_of_ne (Finset.mem_range.mp hi).ne]

variable [Fintype ι]

/-- A sum after one entry has changed. -/
theorem sum_update (f : ι → α) (i : ι) (v : α) (w : α → M) :
    ∑ j, w (Function.update f i v j) + w (f i) = ∑ j, w (f j) + w v :=
  sum_update_of_mem (Finset.mem_univ i) f v fun _ => w

theorem sum_update_column (f : ι × κ → α) (i : ι) (k : κ) (v : α) (w : α → M) :
    ∑ j, w (Function.update f (i, k) v (j, k)) + w (f (i, k)) = ∑ j, w (f (j, k)) + w v := by
  have h : ∀ j, Function.update f (i, k) v (j, k) = Function.update (fun j => f (j, k)) i v j := by
    intro j
    simp only [Function.update_apply, Prod.mk.injEq, and_true]
  simp only [h]
  exact sum_update (fun j => f (j, k)) i v w

theorem sum_update_other_column (f : ι × κ → α) (i : ι) {k k' : κ} (hk : k' ≠ k) (v : α)
    (w : α → M) : ∑ j, w (Function.update f (i, k) v (j, k')) = ∑ j, w (f (j, k')) :=
  Finset.sum_congr rfl fun j _ => by
    rw [Function.update_of_ne (by simp [hk])]

end Sums
