import Mathlib.Algebra.Order.BigOperators.Group.List
import Mathlib.Algebra.Order.Ring.Nat
import Mathlib.Data.List.Nodup

/-!
# Lists of records with distinct keys

An array of records in which every key occurs at most once. To find a key, one scans the array. Writing a
record back under its key changes what is in the array only there (`mem_set_iff`), and moves a total by
what the record's share moves (`sum_map_set`).
-/

namespace Keyed

variable {α κ : Type*} {key : α → κ} {l : List α} {i : ℕ} {a b : α}

theorem map_set (hi : l[i]? = some a) (hkey : key b = key a) : (l.set i b).map key = l.map key := by
  rw [List.map_set, hkey]
  refine List.ext_getElem? fun j => ?_
  rcases eq_or_ne i j with rfl | hne
  · obtain ⟨hlt, rfl⟩ := List.getElem?_eq_some_iff.mp hi
    rw [List.getElem?_set_self (by simpa using hlt), List.getElem?_map, hi, Option.map_some]
  · rw [List.getElem?_set_ne hne]

theorem mem_set_of_ne {c : α} (hi : l[i]? = some a) (hb : b ∈ l) (hne : b ≠ a) : b ∈ l.set i c := by
  obtain ⟨j, hj⟩ := List.mem_iff_getElem?.mp hb
  have hplace : i ≠ j := by
    rintro rfl
    exact hne (Option.some.inj (hj.symm.trans hi))
  refine List.mem_iff_getElem?.mpr ⟨j, ?_⟩
  rw [List.getElem?_set_ne hplace, hj]

theorem index_unique (hl : (l.map key).Nodup) {j : ℕ} (hi : l[i]? = some a) (hj : l[j]? = some b)
    (hkey : key a = key b) : i = j := by
  have hlt : i < (l.map key).length := by
    rw [List.length_map]
    exact (List.getElem?_eq_some_iff.mp hi).1
  refine (List.getElem?_inj hlt hl).mp ?_
  rw [List.getElem?_map, List.getElem?_map, hi, hj, Option.map_some, Option.map_some, hkey]

theorem record_unique (hl : (l.map key).Nodup) (ha : a ∈ l) (hb : b ∈ l) (hkey : key a = key b) :
    a = b := List.inj_on_of_nodup_map hl ha hb hkey

theorem mem_set_iff (hl : (l.map key).Nodup) (hi : l[i]? = some a) {c : α} :
    c ∈ l.set i b ↔ c = b ∨ c ∈ l ∧ key c ≠ key a := by
  constructor
  · intro hc
    obtain ⟨j, hj⟩ := List.mem_iff_getElem?.mp hc
    rcases eq_or_ne i j with rfl | hne
    · obtain ⟨hlt, -⟩ := List.getElem?_eq_some_iff.mp hi
      rw [List.getElem?_set_self hlt] at hj
      exact .inl (Option.some.inj hj).symm
    · rw [List.getElem?_set_ne hne] at hj
      refine .inr ⟨List.mem_of_getElem? hj, fun hkey => ?_⟩
      exact hne (index_unique hl hi hj hkey.symm)
  · rintro (rfl | ⟨hc, hkey⟩)
    · obtain ⟨hlt, -⟩ := List.getElem?_eq_some_iff.mp hi
      exact List.mem_set hlt c
    · obtain ⟨j, hj⟩ := List.mem_iff_getElem?.mp hc
      refine List.mem_iff_getElem?.mpr ⟨j, ?_⟩
      have hne : i ≠ j := by
        rintro rfl
        exact hkey (congrArg key (Option.some.inj (hj.symm.trans hi)))
      rw [List.getElem?_set_ne hne, hj]

theorem sum_map_set (f : α → ℕ) (hi : l[i]? = some a) :
    ((l.set i b).map f).sum + f a = (l.map f).sum + f b := by
  induction l generalizing i with
  | nil => simp at hi
  | cons c l ih =>
    cases i with
    | zero =>
      obtain rfl : c = a := by simpa using hi
      simp only [List.set_cons_zero, List.map_cons, List.sum_cons]
      omega
    | succ i =>
      have htail := ih (i := i) (by simpa using hi)
      simp only [List.set_cons_succ, List.map_cons, List.sum_cons]
      omega

theorem sum_map_eq_key [DecidableEq κ] (f : α → ℕ) (hl : (l.map key).Nodup) (ha : a ∈ l) :
    (l.map fun c => if key c = key a then f c else 0).sum = f a := by
  induction l with
  | nil => simp at ha
  | cons c l ih =>
    rw [List.map_cons, List.nodup_cons] at hl
    obtain ⟨hc, hl⟩ := hl
    rw [List.map_cons, List.sum_cons]
    rcases List.mem_cons.mp ha with rfl | ha
    · have hnone : ∀ d ∈ l, (if key d = key a then f d else 0) = 0 := by
        intro d hd
        refine if_neg fun hkey => hc ?_
        rw [← hkey]
        exact List.mem_map_of_mem hd
      rw [if_pos rfl, List.map_congr_left hnone]
      simp
    · have hne : key c ≠ key a := by
        intro hkey
        rw [hkey] at hc
        exact hc (List.mem_map_of_mem ha)
      rw [if_neg hne, Nat.zero_add]
      exact ih hl ha

theorem le_sum_map (f : α → ℕ) (ha : a ∈ l) : f a ≤ (l.map f).sum :=
  List.single_le_sum (by simp) _ (List.mem_map_of_mem ha)

end Keyed
