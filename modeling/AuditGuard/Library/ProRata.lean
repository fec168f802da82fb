import Mathlib.Algebra.Order.BigOperators.Group.Finset
import Mathlib.Tactic.Linarith

/-!
# First come, first served against pro rata

Claimants hold shares of a pot. Each may take up to its share, as long as the pot lasts. Pro rata, it may
take at most the part of the pot that its share is of all shares. A withdrawal is within the pro rata part
in three cases only: there is nothing in the pot, it covers all shares, or there is but one claimant.
-/

namespace ProRata

variable {ι : Type*} [Fintype ι] {shares : ι → ℕ} {pot : ℕ}

theorem pair_le_sum [DecidableEq ι] (shares : ι → ℕ) {i j : ι} (h : i ≠ j) :
    shares i + shares j ≤ ∑ k, shares k := by
  rw [← Finset.sum_pair h]
  exact Finset.sum_le_sum_of_subset (Finset.subset_univ _)

theorem firstCome_iff : (∀ i x, x ≤ shares i → x ≤ pot → x * ∑ j, shares j ≤ pot * shares i) ↔
    pot = 0 ∨ ∑ j, shares j ≤ pot ∨ ∃ i, ∀ j, j ≠ i → shares j = 0 := by
  classical
  constructor
  · intro h
    by_contra hnot
    push Not at hnot
    obtain ⟨hpot, hshort, hmany⟩ := hnot
    -- Someone has a share, and so has someone else.
    obtain ⟨i, -, hi⟩ := Finset.exists_ne_zero_of_sum_ne_zero (by omega : ∑ j, shares j ≠ 0)
    obtain ⟨j, hji, hj⟩ := hmany i
    have hpair := pair_le_sum shares hji
    -- The first takes all it can.
    have htake := h i (min (shares i) pot) (min_le_left _ _) (min_le_right _ _)
    rcases le_total (shares i) pot with hle | hle
    · rw [min_eq_left hle, Nat.mul_comm pot] at htake
      have hcovers := Nat.le_of_mul_le_mul_left htake (by omega)
      omega
    · rw [min_eq_right hle] at htake
      have honly := Nat.le_of_mul_le_mul_left htake (by omega)
      omega
  · rintro (rfl | hcovers | ⟨i, honly⟩) k x hshare hpot
    · rw [Nat.le_zero.mp hpot, Nat.zero_mul]
      exact Nat.zero_le _
    · calc x * ∑ j, shares j ≤ shares k * pot := Nat.mul_le_mul hshare hcovers
        _ = pot * shares k := Nat.mul_comm _ _
    · rcases eq_or_ne k i with rfl | hk
      · rw [Finset.sum_eq_single k (fun j _ hj => honly j hj) (by simp)]
        exact Nat.mul_le_mul_right _ hpot
      · rw [Nat.le_zero.mp (hshare.trans (honly k hk).le), Nat.zero_mul]
        exact Nat.zero_le _

/-! ## Parts rounded down -/

variable {weights : List ℕ}

/-- The parts and their remainders make up the whole. -/
theorem mul_sum_div_add (pot total : ℕ) (weights : List ℕ) :
    total * (weights.map fun w => pot * w / total).sum + (weights.map fun w => pot * w % total).sum =
      pot * weights.sum := by
  induction weights with
  | nil => rfl
  | cons w weights ih =>
    have hw := Nat.div_add_mod (pot * w) total
    simp only [List.map_cons, List.sum_cons, Nat.mul_add]
    omega

theorem sum_mod_add_length_le (pot : ℕ) {total : ℕ} (htotal : 0 < total) (weights : List ℕ) :
    (weights.map fun w => pot * w % total).sum + weights.length ≤ total * weights.length := by
  induction weights with
  | nil => exact Nat.zero_le _
  | cons w weights ih =>
    have hw := Nat.mod_lt (pot * w) htotal
    simp only [List.map_cons, List.sum_cons, List.length_cons, Nat.mul_add, Nat.mul_one]
    omega

/-- The parts are no more than the whole. -/
theorem sum_div_le (pot : ℕ) (hweights : 0 < weights.sum) :
    (weights.map fun w => pot * w / weights.sum).sum ≤ pot := by
  have hdivisions := mul_sum_div_add pot weights.sum weights
  rw [Nat.mul_comm pot] at hdivisions
  exact Nat.le_of_mul_le_mul_left (by omega) hweights

/-- Less than one unit for each part is left over. -/
theorem lt_sum_div (pot : ℕ) (hweights : 0 < weights.sum) :
    pot < (weights.map fun w => pot * w / weights.sum).sum + weights.length := by
  have hdivisions := mul_sum_div_add pot weights.sum weights
  have hremainders := sum_mod_add_length_le pot hweights weights
  have hsome : 0 < weights.length := by
    refine List.length_pos_of_ne_nil ?_
    rintro rfl
    exact absurd hweights (lt_irrefl 0)
  rw [Nat.mul_comm pot] at hdivisions
  refine Nat.lt_of_mul_lt_mul_left (a := weights.sum) ?_
  rw [Nat.mul_add]
  omega

end ProRata
