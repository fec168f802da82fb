import Mathlib.Tactic.Linarith
import Mathlib.Tactic.Ring

/-!
# Constant-product exchange

A pool holds reserves of two assets, and gives for an input `x` of the one what keeps the product of the
reserves, rounded down, after a fee on the input: only `fee` of `base` parts of it count. The output leaves some of
the other reserve, and the product does not fall. Hence nobody gains by trading with such a pool alone: what a
trader has and what the pool has add up to the same, in both assets. The input that is asked for an output is enough
for it, and at most one more than the least that is.
-/

namespace ConstantProduct

variable {fee base x reserveIn reserveOut : ℕ}

/-- The output for the input `x`, of which `fee` of `base` parts count. -/
def amountOut (fee base x reserveIn reserveOut : ℕ) : ℕ :=
  x * fee * reserveOut / (reserveIn * base + x * fee)

/-- A swap leaves something in the pool. -/
theorem amountOut_lt (hbase : 0 < base) (hin : 0 < reserveIn) (hout : 0 < reserveOut) :
    amountOut fee base x reserveIn reserveOut < reserveOut := by
  have hpos : 0 < reserveIn * base := Nat.mul_pos hin hbase
  unfold amountOut
  rw [Nat.div_lt_iff_lt_mul (by omega), Nat.mul_comm (x * fee) reserveOut]
  exact Nat.mul_lt_mul_of_pos_left (by omega) hout

/-- What a swap pays, without the division. -/
theorem le_amountOut_iff {out : ℕ} (hbase : 0 < base) (hin : 0 < reserveIn) (hout : out ≤ reserveOut) :
    out ≤ amountOut fee base x reserveIn reserveOut ↔ reserveIn * out * base ≤ x * ((reserveOut - out) * fee) := by
  have hpos : 0 < reserveIn * base := Nat.mul_pos hin hbase
  unfold amountOut
  rw [Nat.le_div_iff_mul_le (by omega)]
  obtain ⟨rest, rfl⟩ := Nat.exists_eq_add_of_le hout
  rw [Nat.add_sub_cancel_left]
  have hleft : out * (reserveIn * base + x * fee) = reserveIn * out * base + x * fee * out := by ring
  have hright : x * fee * (out + rest) = x * (rest * fee) + x * fee * out := by ring
  rw [hleft, hright, Nat.add_le_add_iff_right]

/-- Who gives more gets no less. -/
theorem amountOut_mono {y : ℕ} (hbase : 0 < base) (hin : 0 < reserveIn) (hout : 0 < reserveOut) (hxy : x ≤ y) :
    amountOut fee base x reserveIn reserveOut ≤ amountOut fee base y reserveIn reserveOut := by
  have hle : amountOut fee base x reserveIn reserveOut ≤ reserveOut := (amountOut_lt hbase hin hout).le
  rw [le_amountOut_iff hbase hin hle]
  calc reserveIn * amountOut fee base x reserveIn reserveOut * base
      ≤ x * ((reserveOut - amountOut fee base x reserveIn reserveOut) * fee) :=
        (le_amountOut_iff hbase hin hle).mp le_rfl
    _ ≤ y * ((reserveOut - amountOut fee base x reserveIn reserveOut) * fee) := Nat.mul_le_mul_right _ hxy

/-- The input that is asked for the output `out`. -/
def amountIn (fee base out reserveIn reserveOut : ℕ) : ℕ := reserveIn * out * base / ((reserveOut - out) * fee) + 1

/-- The quoted amount buys what was asked for. -/
theorem le_amountOut_amountIn {out : ℕ} (hbase : 0 < base) (hfee : 0 < fee) (hin : 0 < reserveIn)
    (hout : out < reserveOut) :
    out ≤ amountOut fee base (amountIn fee base out reserveIn reserveOut) reserveIn reserveOut := by
  have hpos : 0 < (reserveOut - out) * fee := Nat.mul_pos (by omega) hfee
  rw [le_amountOut_iff hbase hin hout.le]
  exact (Nat.lt_mul_of_div_lt (Nat.lt_succ_self _) hpos).le

/-- And it is one more than the least at most. -/
theorem amountIn_le {out : ℕ} (hbase : 0 < base) (hfee : 0 < fee) (hin : 0 < reserveIn) (hout : out < reserveOut)
    (h : out ≤ amountOut fee base x reserveIn reserveOut) : amountIn fee base out reserveIn reserveOut ≤ x + 1 := by
  have hpos : 0 < (reserveOut - out) * fee := Nat.mul_pos (by omega) hfee
  rw [le_amountOut_iff hbase hin hout.le] at h
  have hdiv : reserveIn * out * base / ((reserveOut - out) * fee) ≤ x := by
    calc reserveIn * out * base / ((reserveOut - out) * fee)
        ≤ x * ((reserveOut - out) * fee) / ((reserveOut - out) * fee) := Nat.div_le_div_right h
      _ = x := Nat.mul_div_cancel x hpos
  exact Nat.succ_le_succ hdiv

/-- A swap does not lower the product of the reserves. -/
theorem product_le (hbase : 0 < base) (hfee : fee ≤ base) :
    reserveIn * reserveOut ≤
      (reserveIn + x) * (reserveOut - amountOut fee base x reserveIn reserveOut) := by
  have hfloor : amountOut fee base x reserveIn reserveOut * (reserveIn * base + x * fee) ≤
      x * fee * reserveOut := Nat.div_mul_le_self _ _
  generalize amountOut fee base x reserveIn reserveOut = out at hfloor
  -- What is left of the reserve, over the denominator of the output.
  have hleft : reserveOut * (reserveIn * base) ≤
      (reserveOut - out) * (reserveIn * base + x * fee) := by
    rw [Nat.sub_mul, Nat.mul_add reserveOut]
    have hcomm : reserveOut * (x * fee) = x * fee * reserveOut := Nat.mul_comm _ _
    omega
  have hdenominator : reserveIn * base + x * fee ≤ (reserveIn + x) * base := by
    rw [Nat.add_mul]
    exact Nat.add_le_add_left (Nat.mul_le_mul_left _ hfee) _
  refine Nat.le_of_mul_le_mul_right ?_ hbase
  calc reserveIn * reserveOut * base = reserveOut * (reserveIn * base) := by ring
    _ ≤ (reserveOut - out) * (reserveIn * base + x * fee) := hleft
    _ ≤ (reserveOut - out) * ((reserveIn + x) * base) := Nat.mul_le_mul_left _ hdenominator
    _ = (reserveIn + x) * (reserveOut - out) * base := by ring

/-- Who leaves the product no lower has not gained. -/
theorem no_gain {h g h' g' r s r' s' : ℕ} (hr : 0 < r) (hs : 0 < s) (hfirst : h' + r' = h + r)
    (hsecond : g' + s' = g + s) (hproduct : r * s ≤ r' * s') :
    ¬ (h ≤ h' ∧ g ≤ g' ∧ (h < h' ∨ g < g')) := by
  rintro ⟨hle, gle, hlt | glt⟩
  · have hrest : r' * s' < r * s := by
      calc r' * s' ≤ r' * s := Nat.mul_le_mul_left _ (by omega)
        _ < r * s := Nat.mul_lt_mul_of_pos_right (by omega) hs
    omega
  · have hrest : r' * s' < r * s := by
      calc r' * s' ≤ r * s' := Nat.mul_le_mul_right _ (by omega)
        _ < r * s := Nat.mul_lt_mul_of_pos_left (by omega) hr
    omega

end ConstantProduct
