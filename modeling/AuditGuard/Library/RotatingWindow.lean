import Mathlib.Data.List.Rotate
import Mathlib.Data.Nat.ModEq
import Mathlib.Tactic.Linarith
import Mathlib.Tactic.Ring

/-!
# A window that goes around a list

A list of length `n` is looked at in rounds, each time `k` entries from where the round before has ended. The rounds
start at the places that differ from the first start by a multiple of `gcd n k`. So every place has a round in which
fewer than `gcd n k` entries of the window are before it, and for some first start it has none with fewer than
`gcd n k - 1`.
-/

namespace RotatingWindow

variable {α : Type} {items : List α} {n k c d e j s : ℕ}

/-- The `k` entries from the place `s` on, around the end of the list. -/
def window (items : List α) (s k : ℕ) : List α := (items.rotate s).take k

theorem window_mod (items : List α) (s k : ℕ) : window items (s % items.length) k = window items s k := by
  unfold window
  rw [List.rotate_mod]

theorem window_congr {s' : ℕ} (h : s % items.length = s' % items.length) (k : ℕ) :
    window items s k = window items s' k := by
  rw [← window_mod, h, window_mod]

theorem length_window (hk : k ≤ items.length) : (window items s k).length = k := by
  rw [window, List.length_take, List.length_rotate, Nat.min_eq_left hk]

theorem window_add (h : e + d ≤ items.length) :
    window items s (e + d) = window items s e ++ window items (s + e) d := by
  have hle : e ≤ (items.rotate s).length := by
    rw [List.length_rotate]
    omega
  have hdrop : d ≤ ((items.rotate s).drop e).length := by
    rw [List.length_drop, List.length_rotate]
    omega
  unfold window
  rw [List.take_add, ← List.rotate_rotate, List.rotate_eq_drop_append_take hle, List.take_append_of_le_length hdrop]

theorem window_one {a : α} (h : items[s % items.length]? = some a) : window items s 1 = [a] := by
  obtain ⟨hlt, -⟩ := List.getElem?_eq_some_iff.mp h
  rw [← window_mod, window, List.take_one, List.head?_rotate hlt, h]
  rfl

theorem window_split {a : α} (hd : d < k) (hk : k ≤ items.length)
    (h : items[(s + d) % items.length]? = some a) :
    ∃ behind, window items s k = window items s d ++ a :: behind := by
  obtain ⟨r, rfl⟩ : ∃ r, k = d + (1 + r) := ⟨k - d - 1, by omega⟩
  rw [window_add hk, window_add (by omega), window_one h]
  exact ⟨_, rfl⟩

theorem exists_place {a : α} (h : a ∈ window items s k) : ∃ d < k, items[(s + d) % items.length]? = some a := by
  obtain ⟨d, hd, rfl⟩ := List.mem_take_iff_getElem.mp h
  rw [List.length_rotate] at hd
  have hlt : (d + s) % items.length < items.length := Nat.mod_lt _ (by omega)
  refine ⟨d, by omega, ?_⟩
  rw [List.getElem_rotate, Nat.add_comm s d, List.getElem?_eq_getElem hlt]

theorem place_before (h : (s + d) % n = j) (hd : d ≤ n) : (j + n - d) % n = s % n := by
  have hq := Nat.mod_add_div (s + d) n
  rw [h] at hq
  calc (j + n - d) % n
      = (j + n - d + n * ((s + d) / n)) % n := (Nat.add_mul_mod_self_left _ _ _).symm
    _ = (s + n) % n := by rw [show j + n - d + n * ((s + d) / n) = s + n by omega]
    _ = s % n := Nat.add_mod_right _ _

theorem exists_round (hn : 0 < n) (c : ℕ) (hj : j < n) :
    ∃ t < n, ∃ d < n.gcd k, (c + t * k + d) % n = j := by
  have hg : 0 < n.gcd k := Nat.gcd_pos_of_pos_left k hn
  -- The distance to the place is its remainder, and the round is the one that Bézout's identity gives.
  obtain ⟨d, q, hd, hq⟩ : ∃ d q, d < n.gcd k ∧ d + n.gcd k * q = j + (n.gcd k - 1) * c :=
    ⟨_, _, Nat.mod_lt _ hg, Nat.mod_add_div _ _⟩
  have hdvd : (n.gcd k : ℤ) ∣ (j : ℤ) - c - d := by
    refine ⟨q - c, ?_⟩
    zify [hg] at hq
    linarith
  obtain ⟨z, hz⟩ := hdvd
  have hbezout := Nat.gcd_eq_gcd_ab n k
  have hpos : (0 : ℤ) < n := by omega
  let t := (z * n.gcdB k % n).toNat
  have ht : (t : ℤ) = z * n.gcdB k % n := Int.toNat_of_nonneg (Int.emod_nonneg _ hpos.ne')
  have hlt : (t : ℤ) < n := ht ▸ Int.emod_lt_of_pos _ hpos
  refine ⟨t, by omega, d, hd, ?_⟩
  have hsub : (n : ℤ) ∣ ((c + t * k + d : ℕ) : ℤ) - j := by
    have hq := Int.emod_add_mul_ediv (z * n.gcdB k) n
    refine ⟨-(z * n.gcdB k / n * k + z * n.gcdA k), ?_⟩
    have hdistance : (j : ℤ) = c + d + (n * n.gcdA k + k * n.gcdB k) * z := by
      rw [← hbezout, ← hz]
      ring
    have hround : (t : ℤ) = z * n.gcdB k - n * (z * n.gcdB k / n) := by
      rw [ht]
      exact eq_sub_of_add_eq hq
    push_cast
    rw [hdistance, hround]
    ring
  have hmod := (Nat.modEq_iff_dvd.mpr hsub).symm
  rw [Nat.ModEq, Nat.mod_eq_of_lt hj] at hmod
  exact hmod

theorem exists_late (j : ℕ) : ∃ c, ∀ t d, (c + t * k + d) % n = j % n → n.gcd k ≤ d + 1 := by
  refine ⟨j + 1, fun t d h => ?_⟩
  have hmod : Nat.ModEq (n.gcd k) j (j + (t * k + (d + 1))) := by
    refine Nat.ModEq.of_dvd (Nat.gcd_dvd_left n k) (h.symm.trans ?_)
    rw [show j + 1 + t * k + d = j + (t * k + (d + 1)) by ring]
  have hdvd := (Nat.modEq_iff_dvd' (Nat.le_add_right _ _)).mp hmod
  rw [Nat.add_sub_cancel_left] at hdvd
  have hround : n.gcd k ∣ t * k := (Nat.gcd_dvd_right n k).mul_left t
  exact Nat.le_of_dvd (Nat.succ_pos d) ((Nat.dvd_add_right hround).mp hdvd)

end RotatingWindow
