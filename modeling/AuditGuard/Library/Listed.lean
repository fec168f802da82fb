import Mathlib.Data.List.Nodup
import Mathlib.Data.List.Perm.Basic

/-!
# Lists of what is registered

An array that keeps no order loses an entry by swap and pop: the last entry takes the place of the
removed one, and the array gets shorter by one.

## Lists that take each element once

A store keeps a list for each key, and a flag for each pair of a key and an element. As long as the
flags say exactly what is listed (`Flagged`), no list has a duplicate.

## Lists that are counted and then filled

A view that returns the entries which meet a condition goes over them twice: it counts them, and then fills an array
of that length. A write behind the end of the array would panic.
-/

namespace SwapPop

variable {α : Type*} [DecidableEq α]

/-- Removes the first occurrence of `a`, if there is one. -/
def remove (a : α) (l : List α) : List α :=
  match l.idxOf? a, l.getLast? with
  | some i, some last => (l.set i last).dropLast
  | _, _ => l

omit [DecidableEq α] in
theorem set_dropLast_perm {l : List α} {i : ℕ} (hi : i ≤ l.length) (last : α) :
    (((l ++ [last]).set i last).dropLast).Perm ((l ++ [last]).eraseIdx i) := by
  rcases Nat.lt_or_eq_of_le hi with hlt | rfl
  · rw [List.set_append_left _ _ hlt, List.dropLast_concat, List.eraseIdx_append_of_lt_length hlt]
    have hset : i < (l.set i last).length := by rwa [List.length_set]
    have hperm := List.getElem_cons_eraseIdx_perm hset
    rw [List.getElem_set_self, List.eraseIdx_set_eq] at hperm
    exact hperm.symm.trans (List.perm_append_singleton _ _).symm
  · rw [List.eraseIdx_append_of_length_le (Nat.le_refl _), Nat.sub_self]
    simp

theorem remove_perm_erase (a : α) (l : List α) : (remove a l).Perm (l.erase a) := by
  rw [List.erase_eq_eraseIdx]
  unfold remove
  cases hfind : l.idxOf? a with
  | none => rfl
  | some i =>
    have hi : i < l.length := by
      rw [List.idxOf?_eq_some_iff] at hfind
      exact hfind.1
    rcases List.eq_nil_or_concat l with rfl | ⟨init, last, rfl⟩
    · exact absurd hi (Nat.not_lt_zero _)
    · rw [List.concat_eq_append] at hi ⊢
      rw [List.getLast?_concat]
      rw [List.length_append, List.length_singleton] at hi
      exact set_dropLast_perm (by omega) last

variable {a b : α} {l : List α}

theorem mem_remove_iff (hl : l.Nodup) : b ∈ remove a l ↔ b ≠ a ∧ b ∈ l := by
  rw [(remove_perm_erase a l).mem_iff, hl.mem_erase_iff]

theorem nodup_remove (hl : l.Nodup) : (remove a l).Nodup :=
  (remove_perm_erase a l).nodup_iff.mpr (hl.erase a)

end SwapPop

namespace PushOnce

variable {α β : Type*} [DecidableEq α] [DecidableEq β]

/-- Appends `b` to the list of `a`, unless the flag of the pair says that it is there. -/
def push (lists : α → List β) (present : α × β → Bool) (a : α) (b : β) :
    (α → List β) × (α × β → Bool) :=
  if present (a, b) = false then
    (Function.update lists a (lists a ++ [b]), Function.update present (a, b) true)
  else (lists, present)

/-- The flags say what is listed, and nothing is listed twice. -/
structure Flagged (lists : α → List β) (present : α × β → Bool) : Prop where
  /-- No list has a duplicate. -/
  nodup : ∀ a, (lists a).Nodup
  /-- The flag of a pair is set exactly when the element is listed. -/
  mem_iff : ∀ a b, b ∈ lists a ↔ present (a, b) = true

variable {lists : α → List β} {present : α × β → Bool}

omit [DecidableEq α] [DecidableEq β] in
theorem Flagged.empty : Flagged (fun _ : α => ([] : List β)) fun _ => false where
  nodup _ := List.nodup_nil
  mem_iff := by simp

theorem Flagged.mem_push (h : Flagged lists present) (a : α) (b : β) (a' : α) (b' : β) :
    b' ∈ (push lists present a b).1 a' ↔ b' ∈ lists a' ∨ (a' = a ∧ b' = b) := by
  unfold push
  split_ifs with hp
  · rcases eq_or_ne a' a with rfl | ha
    · simp
    · simp [ha]
  · have hmem : b ∈ lists a := (h.mem_iff a b).mpr (by simpa using hp)
    refine (or_iff_left_of_imp ?_).symm
    rintro ⟨rfl, rfl⟩
    exact hmem

theorem Flagged.push (h : Flagged lists present) (a : α) (b : β) :
    Flagged (push lists present a b).1 (push lists present a b).2 where
  nodup a' := by
    unfold PushOnce.push
    split_ifs with hp
    · rcases eq_or_ne a' a with rfl | ha
      · have hb : b ∉ lists a' := fun hmem => by simp [(h.mem_iff a' b).mp hmem] at hp
        simpa [List.nodup_append, h.nodup a'] using fun c hc => ne_of_mem_of_not_mem hc hb
      · simpa [ha] using h.nodup a'
    · exact h.nodup a'
  mem_iff a' b' := by
    rw [h.mem_push a b, h.mem_iff]
    unfold PushOnce.push
    split_ifs with hp
    · simp only [Function.update_apply, Prod.mk.injEq]
      split_ifs with heq <;> simp [heq]
    · refine or_iff_left_of_imp ?_
      rintro ⟨rfl, rfl⟩
      simpa using hp

end PushOnce

namespace Counted

variable {α : Type*}

/-- The second loop: writes each entry that meets the condition at the cursor. -/
def fill (p : α → Bool) : List α → ℕ → List α → Option (List α)
  | [], _, out => some out
  | x :: xs, cursor, out =>
    if p x then if cursor < out.length then fill p xs (cursor + 1) (out.set cursor x) else none
    else fill p xs cursor out

/-- Counts the entries that meet the condition, and fills an array of that length with them. -/
def collect (blank : α) (p : α → Bool) (xs : List α) : Option (List α) :=
  let count := xs.foldl (fun count x => if p x then count + 1 else count) 0
  fill p xs 0 (List.replicate count blank)

theorem fill_append (blank : α) (p : α → Bool) (xs done : List α) :
    fill p xs done.length (done ++ List.replicate (xs.countP p) blank) = some (done ++ xs.filter p) := by
  induction xs generalizing done with
  | nil => simp [fill]
  | cons x xs ih =>
    rw [fill]
    by_cases hx : p x = true
    · have hstep := ih (done ++ [x])
      rw [if_pos hx, List.countP_cons_of_pos hx, List.filter_cons_of_pos hx, List.replicate_succ]
      simpa using hstep
    · rw [if_neg hx, List.countP_cons_of_neg hx, List.filter_cons_of_neg hx]
      exact ih done

theorem count_eq (p : α → Bool) (xs : List α) (n : ℕ) :
    xs.foldl (fun count x => if p x then count + 1 else count) n = n + xs.countP p := by
  induction xs generalizing n with
  | nil => rfl
  | cons x xs ih =>
    rw [List.foldl_cons, ih, List.countP_cons]
    split_ifs <;> omega

/-- What is collected is what meets the condition, in its order. -/
theorem collect_eq (blank : α) (p : α → Bool) (xs : List α) : collect blank p xs = some (xs.filter p) := by
  unfold collect
  rw [count_eq, Nat.zero_add]
  exact fill_append blank p xs []

/-- The ids that meet the condition, of those from one on below `next`. -/
def collectIds (p : ℕ → Bool) (next : ℕ) : Option (List ℕ) := collect 0 p (List.range' 1 (next - 1))

/-- The ids are collected without a panic, in ascending order. -/
theorem exists_collectIds (p : ℕ → Bool) (next : ℕ) : ∃ ids, collectIds p next = some ids ∧ ids.Pairwise (· < ·) ∧
    ∀ i, i ∈ ids ↔ 0 < i ∧ i < next ∧ p i = true := by
  refine ⟨_, collect_eq .., (List.pairwise_lt_range' 1).filter p, fun i => ?_⟩
  have hrange : 1 ≤ i ∧ i < 1 + (next - 1) ↔ 0 < i ∧ i < next := by omega
  rw [List.mem_filter, List.mem_range'_1, hrange, and_assoc]

end Counted
