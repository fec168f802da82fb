import Mathlib.Algebra.Ring.Nat
import Mathlib.Data.Nat.Log

/-!
# Rounding to binary digits

A format with `p` binary digits has, around a number, the multiples of a power of two (`spacing`). A natural number is
rounded to the nearest of them, and to the even one of two that are equally near. The numbers of the format are those
that their own spacing divides; a rounded number is one of them (`spacing_dvd_nearest`), the numbers up to `2 ^ p` are
(`nearest_of_le`), and no rounding goes past one (`le_nearest`).
-/

namespace Rounding

/-- The distance of the numbers with `p` binary digits around `n`. -/
def spacing (p n : ℕ) : ℕ := 2 ^ (Nat.log 2 n + 1 - p)

/-- The nearest number with `p` binary digits, of two the even one. -/
def nearest (p n : ℕ) : ℕ :=
  let u := spacing p n
  if 2 * (n % u) < u ∨ (2 * (n % u) = u ∧ n / u % 2 = 0) then n / u * u else (n / u + 1) * u

variable {p m n : ℕ}

/-- A spacing is positive. -/
theorem spacing_pos : 0 < spacing p n := Nat.two_pow_pos _

/-- A number of the format is rounded to itself. -/
theorem nearest_of_dvd (h : spacing p n ∣ n) : nearest p n = n := by
  have hmod : n % spacing p n = 0 := Nat.mod_eq_zero_of_dvd h
  unfold nearest
  rw [if_pos (.inl (by rw [hmod]; exact spacing_pos))]
  exact Nat.div_mul_cancel h

/-- Numbers of at most `p` digits are numbers of the format. -/
theorem nearest_of_le (hp : 0 < p) (h : n ≤ 2 ^ p) : nearest p n = n := by
  apply nearest_of_dvd
  rcases Nat.lt_or_eq_of_le h with hlt | rfl
  · have hlog : Nat.log 2 n < p := by
      rcases Nat.eq_zero_or_pos n with rfl | hpos
      · rwa [Nat.log_zero_right]
      · exact Nat.log_lt_of_lt_pow hpos.ne' hlt
    unfold spacing
    rw [Nat.sub_eq_zero_of_le hlog, Nat.pow_zero]
    exact Nat.one_dvd n
  · unfold spacing
    rw [Nat.log_pow Nat.one_lt_two]
    exact Nat.pow_dvd_pow 2 (by omega)

/-- What is rounded is one of the two multiples of the spacing around it. -/
theorem nearest_eq (p n : ℕ) :
    nearest p n = n / spacing p n * spacing p n ∨ nearest p n = (n / spacing p n + 1) * spacing p n := by
  unfold nearest
  dsimp only
  split_ifs
  · exact .inl rfl
  · exact .inr rfl

/-- Rounding does not go below a number of the format. -/
theorem le_nearest (hp : 0 < p) (hm : spacing p m ∣ m) (hle : m ≤ n) : m ≤ nearest p n := by
  have hfloor : n / spacing p n * spacing p n ≤ nearest p n := by
    rcases nearest_eq p n with h | h
    · exact h.ge
    · rw [h]
      exact Nat.mul_le_mul_right _ (Nat.le_succ _)
  refine Nat.le_trans ?_ hfloor
  rcases Nat.lt_or_eq_of_le (Nat.log_mono_right (b := 2) hle) with hlog | hlog
  · -- A power of two stands between them.
    have hn : n ≠ 0 := by
      rintro rfl
      rw [Nat.log_zero_right] at hlog
      omega
    have hbetween : m ≤ 2 ^ Nat.log 2 n :=
      Nat.le_trans (Nat.lt_pow_succ_log_self Nat.one_lt_two m).le (Nat.pow_le_pow_right Nat.two_pos hlog)
    have hdvd : spacing p n ∣ 2 ^ Nat.log 2 n := Nat.pow_dvd_pow 2 (by omega)
    rw [← Nat.div_mul_cancel hdvd] at hbetween
    exact Nat.le_trans hbetween (Nat.mul_le_mul_right _ (Nat.div_le_div_right (Nat.pow_log_le_self 2 hn)))
  · have hsame : spacing p n = spacing p m := by
      unfold spacing
      rw [hlog]
    rw [hsame]
    calc m = m / spacing p m * spacing p m := (Nat.div_mul_cancel hm).symm
      _ ≤ n / spacing p m * spacing p m := Nat.mul_le_mul_right _ (Nat.div_le_div_right hle)

/-- A rounded number is one of the format. -/
theorem spacing_dvd_nearest (hp : 0 < p) (n : ℕ) : spacing p (nearest p n) ∣ nearest p n := by
  have hdvd : spacing p n ∣ nearest p n := by
    rcases nearest_eq p n with h | h
    · rw [h]
      exact Nat.dvd_mul_left _ _
    · rw [h]
      exact Nat.dvd_mul_left _ _
  have hlt : n < 2 ^ (Nat.log 2 n + 1) := Nat.lt_pow_succ_log_self Nat.one_lt_two n
  have hpow : spacing p n ∣ 2 ^ (Nat.log 2 n + 1) := Nat.pow_dvd_pow 2 (by omega)
  -- Rounding does not go past the next power of two.
  have hle : nearest p n ≤ 2 ^ (Nat.log 2 n + 1) := by
    have hquot : n / spacing p n + 1 ≤ 2 ^ (Nat.log 2 n + 1) / spacing p n := by
      rw [← Nat.div_mul_cancel hpow] at hlt
      exact Nat.div_lt_of_lt_mul (by rwa [Nat.mul_comm] at hlt)
    have hup : (n / spacing p n + 1) * spacing p n ≤ 2 ^ (Nat.log 2 n + 1) :=
      Nat.le_trans (Nat.mul_le_mul_right _ hquot) (Nat.div_mul_le_self _ _)
    rcases nearest_eq p n with h | h
    · rw [h]
      exact Nat.le_trans (Nat.mul_le_mul_right _ (Nat.le_succ _)) hup
    · rwa [h]
  rcases Nat.lt_or_eq_of_le hle with hlt' | heq
  · refine Nat.dvd_trans (Nat.pow_dvd_pow 2 ?_) hdvd
    have hlog : Nat.log 2 (nearest p n) < Nat.log 2 n + 1 := by
      rcases Nat.eq_zero_or_pos (nearest p n) with hzero | hpos
      · rw [hzero, Nat.log_zero_right]
        omega
      · exact Nat.log_lt_of_lt_pow hpos.ne' hlt'
    omega
  · rw [heq]
    unfold spacing
    rw [Nat.log_pow Nat.one_lt_two]
    exact Nat.pow_dvd_pow 2 (by omega)

end Rounding
