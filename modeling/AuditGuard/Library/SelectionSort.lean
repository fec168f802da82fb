import Mathlib.Order.Lattice

/-!
# Selection sort of two arrays in step

An array of elements and an array of their keys are sorted in place, by descending key: each place in turn gets the
greatest of the keys from there on, in exchange for its own, and the elements are exchanged in step with the keys. The
elements stay the same but for their order, each keeps its key, and no key is followed by a greater one (`sort_perm`,
`sort_aligned`, `sort_descending`).
-/

namespace SelectionSort

variable {α κ : Type*} [LinearOrder κ] [Inhabited κ]

/-- The place of the first greatest key from `i` on, before `len`. -/
def maxIdx (keys : Array κ) (i len : ℕ) : ℕ :=
  (List.range' (i + 1) (len - (i + 1))).foldl (fun m j => if keys[m]! < keys[j]! then j else m) i

/-- The greatest key from `i` on is exchanged for the one at `i`, and so are the elements. -/
def exchange (len : ℕ) (arrays : Array α × Array κ) (i : ℕ) : Array α × Array κ :=
  let m := maxIdx arrays.2 i len
  if m ≠ i then (arrays.1.swapIfInBounds i m, arrays.2.swapIfInBounds i m) else arrays

/-- The arrays, which have `len` entries, after sorting. -/
def sort (len : ℕ) (arrays : Array α × Array κ) : Array α × Array κ := (List.range len).foldl (exchange len) arrays

variable {keys : Array κ} {arrays : Array α × Array κ} {i len : ℕ}

theorem maxIdx_loop (keys : Array κ) (i n : ℕ) :
    let m := (List.range' (i + 1) n).foldl (fun m j => if keys[m]! < keys[j]! then j else m) i
    (i ≤ m ∧ m < i + 1 + n) ∧ ∀ j, i ≤ j → j < i + 1 + n → keys[j]! ≤ keys[m]! := by
  induction n with
  | zero =>
    refine ⟨⟨le_rfl, by simp⟩, fun j hj hlt => ?_⟩
    obtain rfl : j = i := by omega
    exact le_rfl
  | succ n ih =>
    rw [List.range'_concat, List.foldl_append]
    obtain ⟨⟨hle, hlt⟩, hmax⟩ := ih
    generalize (List.range' (i + 1) n).foldl (fun m j => if keys[m]! < keys[j]! then j else m) i = m at *
    dsimp only [List.foldl_cons, List.foldl_nil]
    rw [Nat.one_mul]
    split_ifs with hgreater
    · refine ⟨⟨by omega, by omega⟩, fun j hj hjlt => ?_⟩
      rcases Nat.lt_or_ge j (i + 1 + n) with hold | hnew
      · exact (hmax j hj hold).trans hgreater.le
      · obtain rfl : j = i + 1 + n := by omega
        exact le_rfl
    · refine ⟨⟨hle, by omega⟩, fun j hj hjlt => ?_⟩
      rcases Nat.lt_or_ge j (i + 1 + n) with hold | hnew
      · exact hmax j hj hold
      · obtain rfl : j = i + 1 + n := by omega
        exact not_lt.mp hgreater

theorem maxIdx_spec (keys : Array κ) (hi : i < len) : i ≤ maxIdx keys i len ∧ maxIdx keys i len < len ∧
    ∀ j, i ≤ j → j < len → keys[j]! ≤ keys[maxIdx keys i len]! := by
  obtain ⟨⟨hle, hlt⟩, hmax⟩ := maxIdx_loop keys i (len - (i + 1))
  have hlen : i + 1 + (len - (i + 1)) = len := by omega
  rw [hlen] at hlt hmax
  exact ⟨hle, hlt, hmax⟩

theorem swapIfInBounds_perm (xs : Array α) (i j : ℕ) : (xs.swapIfInBounds i j).Perm xs := by
  rw [Array.swapIfInBounds_def]
  split_ifs
  · exact Array.swap_perm _ _
  · exact .refl _
  · exact .refl _

omit [LinearOrder κ] [Inhabited κ] in
theorem map_swapIfInBounds (f : α → κ) (xs : Array α) (i j : ℕ) :
    (xs.swapIfInBounds i j).map f = (xs.map f).swapIfInBounds i j := by
  refine Array.ext (by simp) fun k hk hk' => ?_
  simp only [Array.getElem_map, Array.getElem_swapIfInBounds, Array.size_map]
  split_ifs <;> rfl

theorem getElem!_swapIfInBounds {j k : ℕ} (hi : i < keys.size) (hj : j < keys.size) (hk : k < keys.size) :
    (keys.swapIfInBounds i j)[k]! = if k = i then keys[j]! else if k = j then keys[i]! else keys[k]! := by
  rw [getElem!_pos _ k (by simpa using hk), Array.getElem_swapIfInBounds, getElem!_pos keys i hi,
    getElem!_pos keys j hj, getElem!_pos keys k hk]
  split_ifs <;> first | rfl | omega

/-- The first `i` keys are in order, and none after them is greater than one of them. -/
def SortedTo (keys : Array κ) (i : ℕ) : Prop :=
  ∀ a b, a < b → a < i → b < keys.size → keys[b]! ≤ keys[a]!

theorem SortedTo.exchange (h : SortedTo arrays.2 i) (hlen : arrays.2.size = len) (hi : i < len) :
    SortedTo (SelectionSort.exchange len arrays i).2 (i + 1) := by
  obtain ⟨hle, hlt, hmax⟩ := maxIdx_spec arrays.2 hi
  unfold SelectionSort.exchange
  dsimp only
  generalize maxIdx arrays.2 i len = m at hle hlt hmax
  intro a b hab ha hb
  split_ifs at hb ⊢ with hm
  · dsimp only at hb ⊢
    rw [Array.size_swapIfInBounds] at hb
    rw [getElem!_swapIfInBounds (by omega) (by omega) hb, getElem!_swapIfInBounds (by omega) (by omega) (by omega)]
    rcases Nat.lt_or_ge a i with hbefore | hhere
    · -- The places before `i` stay, and none of the keys from there on is greater.
      rw [if_neg (by omega : a ≠ i), if_neg (by omega : a ≠ m)]
      split_ifs
      · exact h a m (by omega) hbefore (by omega)
      · exact h a i hbefore hbefore (by omega)
      · exact h a b hab hbefore hb
    · obtain rfl : a = i := by omega
      rw [if_neg (by omega : b ≠ a), if_pos rfl]
      split_ifs
      · exact hmax a le_rfl hi
      · exact hmax b (by omega) (by omega)
  · obtain rfl : m = i := by omega
    rcases Nat.lt_or_ge a m with hbefore | hhere
    · exact h a b hab hbefore hb
    · obtain rfl : a = m := by omega
      exact hmax b (by omega) (by omega)

/-- What the outer loop keeps: the elements but for their order, the keys in step with them, and the order so far. -/
structure Sorting (f : α → κ) (xs : Array α) (i : ℕ) (arrays : Array α × Array κ) : Prop where
  perm : arrays.1.Perm xs
  aligned : arrays.2 = arrays.1.map f
  sorted : SortedTo arrays.2 i

theorem Sorting.step {f : α → κ} {xs : Array α} (h : Sorting f xs i arrays) (hi : i < xs.size) :
    Sorting f xs (i + 1) (exchange xs.size arrays i) := by
  have hsize : arrays.2.size = xs.size := by rw [h.aligned, Array.size_map, h.perm.size_eq]
  refine ⟨?_, ?_, h.sorted.exchange hsize hi⟩
  · unfold exchange
    dsimp only
    split_ifs
    · exact (swapIfInBounds_perm _ _ _).trans h.perm
    · exact h.perm
  · unfold exchange
    dsimp only
    split_ifs
    · dsimp only
      rw [map_swapIfInBounds, h.aligned]
    · exact h.aligned

theorem sorting_loop (f : α → κ) (xs : Array α) (n : ℕ) (hn : n ≤ xs.size) :
    Sorting f xs n ((List.range n).foldl (exchange xs.size) (xs, xs.map f)) := by
  induction n with
  | zero => exact ⟨.refl _, rfl, fun a b _ ha => absurd ha (Nat.not_lt_zero a)⟩
  | succ n ih =>
    rw [List.range_succ, List.foldl_append]
    exact (ih (Nat.le_of_succ_le hn)).step hn

variable (f : α → κ) (xs : Array α)

/-- The entries are permuted. -/
theorem sort_perm : (sort xs.size (xs, xs.map f)).1.Perm xs := (sorting_loop f xs xs.size le_rfl).perm

/-- The keys go along with them. -/
theorem sort_aligned : (sort xs.size (xs, xs.map f)).2 = (sort xs.size (xs, xs.map f)).1.map f :=
  (sorting_loop f xs xs.size le_rfl).aligned

/-- The keys fall. -/
theorem sort_descending : (sort xs.size (xs, xs.map f)).2.toList.Pairwise fun a b => b ≤ a := by
  have hsorted : SortedTo (sort xs.size (xs, xs.map f)).2 xs.size := (sorting_loop f xs xs.size le_rfl).sorted
  have hsize : (sort xs.size (xs, xs.map f)).2.size = xs.size := by
    rw [sort_aligned, Array.size_map, (sort_perm f xs).size_eq]
  rw [List.pairwise_iff_getElem]
  intro a b ha hb hab
  rw [Array.length_toList] at ha hb
  have hle := hsorted a b hab (by omega) hb
  rw [getElem!_pos _ a ha, getElem!_pos _ b hb] at hle
  simpa using hle

end SelectionSort
