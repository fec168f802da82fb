import Mathlib.Data.List.Nodup
import Mathlib.Algebra.BigOperators.Group.List.Basic
import Mathlib.Algebra.GroupWithZero.Nat

/-!
# Maps in the order of insertion

A map that is a list of its entries, oldest key first: a value that is written under a key that is there takes the
place of the one before, and a new key comes last. No key occurs twice. What a map holds under a key follows from the
writes and the deletions (`get_set`, `get_delete`).
-/

/-- A map as the list of its entries. -/
structure OrderedMap (κ α : Type*) where
  /-- The entries, in the order in which their keys came. -/
  entries : List (κ × α)
  /-- No key occurs twice. -/
  nodup : (entries.map Prod.fst).Nodup

namespace OrderedMap

variable {κ α : Type*} [DecidableEq κ] {k k' : κ} {a b : α}

/-- Nothing is in the map. -/
def empty : OrderedMap κ α := ⟨[], List.nodup_nil⟩

variable (m : OrderedMap κ α)

/-- What is under a key. -/
def get (k : κ) : Option α := (m.entries.find? fun e => e.1 = k).map Prod.snd

/-- Writing a value where the key is. -/
def overwrite (k : κ) (a : α) : List (κ × α) := m.entries.map fun e => if e.1 = k then (k, a) else e

theorem map_overwrite (k : κ) (a : α) : (m.overwrite k a).map Prod.fst = m.entries.map Prod.fst := by
  unfold overwrite
  rw [List.map_map]
  refine List.map_congr_left fun e _ => ?_
  dsimp only [Function.comp]
  split_ifs with he
  · exact he.symm
  · rfl

/-- Writes a value under a key. -/
def set (k : κ) (a : α) : OrderedMap κ α :=
  if h : k ∈ m.entries.map Prod.fst then ⟨m.overwrite k a, by rw [map_overwrite]; exact m.nodup⟩
  else ⟨m.entries ++ [(k, a)], by
    rw [List.map_append, List.nodup_append_comm]
    exact List.nodup_cons.mpr ⟨h, m.nodup⟩⟩

/-- Deletes a key. -/
def delete (k : κ) : OrderedMap κ α where
  entries := m.entries.filter fun e => e.1 ≠ k
  nodup := (List.filter_sublist.map Prod.fst).nodup m.nodup

variable {m}

theorem get_eq_some_iff : m.get k = some a ↔ (k, a) ∈ m.entries := by
  unfold get
  constructor
  · intro h
    obtain ⟨e, he, rfl⟩ := Option.map_eq_some_iff.mp h
    have hkey : e.1 = k := by simpa using List.find?_some he
    rw [← hkey]
    exact List.mem_of_find?_eq_some he
  · intro h
    cases he : m.entries.find? (fun e => e.1 = k) with
    | none =>
      have hnone := List.find?_eq_none.mp he (k, a) h
      simp at hnone
    | some e =>
      have hkey : e.1 = k := by simpa using List.find?_some he
      have hsame : e = (k, a) :=
        List.inj_on_of_nodup_map m.nodup (List.mem_of_find?_eq_some he) h hkey
      rw [hsame]
      rfl

theorem get_eq_none (h : k ∉ m.entries.map Prod.fst) : m.get k = none := by
  unfold get
  rw [Option.map_eq_none_iff, List.find?_eq_none]
  intro e he
  rw [decide_eq_true_eq]
  rintro rfl
  exact h (List.mem_map_of_mem he)

theorem entries_set_of_mem (h : k ∈ m.entries.map Prod.fst) (a : α) : (m.set k a).entries = m.overwrite k a := by
  unfold set
  rw [dif_pos h]

theorem entries_set_of_not_mem (h : k ∉ m.entries.map Prod.fst) (a : α) :
    (m.set k a).entries = m.entries ++ [(k, a)] := by
  unfold set
  rw [dif_neg h]

theorem mem_set {e : κ × α} : e ∈ (m.set k a).entries ↔ e = (k, a) ∨ e ∈ m.entries ∧ e.1 ≠ k := by
  unfold set
  split_ifs with h
  · simp only [overwrite, List.mem_map]
    constructor
    · rintro ⟨x, hx, rfl⟩
      split_ifs with hkey
      · exact .inl rfl
      · exact .inr ⟨hx, hkey⟩
    · rintro (rfl | ⟨he, hkey⟩)
      · obtain ⟨x, hx, hk⟩ := List.mem_map.mp h
        exact ⟨x, hx, if_pos hk⟩
      · exact ⟨e, he, if_neg hkey⟩
  · simp only [List.mem_append, List.mem_singleton]
    constructor
    · rintro (he | rfl)
      · refine .inr ⟨he, fun hkey => h ?_⟩
        rw [← hkey]
        exact List.mem_map_of_mem he
      · exact .inl rfl
    · rintro (rfl | ⟨he, -⟩)
      · exact .inr rfl
      · exact .inl he

theorem sum_map_set (f : κ × α → ℕ) (m : OrderedMap κ α) (k : κ) (a : α) :
    ((m.set k a).entries.map f).sum + (m.get k).elim 0 (fun old => f (k, old)) =
      (m.entries.map f).sum + f (k, a) := by
  by_cases h : k ∈ m.entries.map Prod.fst
  · rw [entries_set_of_mem h]
    have hnew := m.nodup
    unfold overwrite get
    generalize m.entries = es at hnew h
    induction es with
    | nil => simp at h
    | cons e es ih =>
      obtain ⟨hfresh, hes⟩ := List.nodup_cons.mp hnew
      simp only [List.map_cons, List.sum_cons]
      by_cases he : e.1 = k
      · -- no entry after this one has the key
        have hrest : es.map (fun e => if e.1 = k then (k, a) else e) = es := by
          refine (List.map_congr_left fun e' he' => if_neg fun hk => hfresh ?_).trans (List.map_id es)
          rw [he, ← hk]
          exact List.mem_map_of_mem he'
        rw [if_pos he, hrest, List.find?_cons_of_pos (by simpa using he)]
        subst he
        simp only [Option.map_some, Option.elim_some, Prod.eta]
        omega
      · have ih := ih hes (by simpa [Ne.symm he] using h)
        rw [if_neg he, List.find?_cons_of_neg (by simpa using he)]
        omega
  · rw [entries_set_of_not_mem h, get_eq_none h, List.map_append, List.sum_append]
    simp

theorem sum_map_set_le (f : κ × α → ℕ) (m : OrderedMap κ α) (k : κ) (a : α) :
    ((m.set k a).entries.map f).sum ≤ (m.entries.map f).sum + f (k, a) := by
  have hset := sum_map_set f m k a
  omega

/-- What is read after a write. -/
theorem get_set : (m.set k a).get k' = if k' = k then some a else m.get k' := by
  refine Option.ext fun b => ?_
  rw [get_eq_some_iff, mem_set]
  split_ifs with hk
  · subst hk
    simp [Prod.ext_iff, eq_comm]
  · simp [Prod.ext_iff, hk, get_eq_some_iff]

/-- What is read after a deletion. -/
theorem get_delete : (m.delete k).get k' = if k' = k then none else m.get k' := by
  refine Option.ext fun b => ?_
  rw [get_eq_some_iff]
  unfold delete
  rw [List.mem_filter]
  split_ifs with hk
  · simp [hk]
  · simp [hk, get_eq_some_iff]

end OrderedMap
