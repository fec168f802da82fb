import Mathlib.Data.List.Nodup

/-!
# Alarms under handles

A service that keeps alarms. Whoever sets one names a key and gets a handle that was never given out
before. The alarm is pending until it goes off or is cancelled by its handle.

A client that wants one alarm for each key remembers one handle for each key. `Held` is what always holds of
such a client: no handle that it remembers is another key's. `Tracked` is what it aims at: the handle that it
remembers is the one of every alarm that is pending for the key, so that there is at most one.
-/

namespace Alarms

variable {η κ : Type*}

/-- An alarm, with its handle, what it is for, and when it goes off. -/
structure Alarm (η κ : Type*) where
  handle : η
  key : κ
  due : ℕ
deriving DecidableEq

/-- The alarms that are pending, and all handles that were given out. -/
structure Clock (η κ : Type*) where
  pending : List (Alarm η κ)
  issued : List η
  /-- No two alarms have the same handle. -/
  nodup : (pending.map Alarm.handle).Nodup
  /-- The handle of a pending alarm was given out. -/
  mem_issued : ∀ a ∈ pending, a.handle ∈ issued

namespace Clock

/-- No alarm was ever set. -/
def empty : Clock η κ := ⟨[], [], List.nodup_nil, by simp⟩

/-- Sets an alarm under a new handle. -/
def set (c : Clock η κ) (handle : η) (key : κ) (due : ℕ) (hnew : handle ∉ c.issued) : Clock η κ where
  pending := ⟨handle, key, due⟩ :: c.pending
  issued := handle :: c.issued
  nodup := by
    rw [List.map_cons, List.nodup_cons]
    refine ⟨fun hmem => ?_, c.nodup⟩
    obtain ⟨a, ha, hhandle⟩ := List.mem_map.mp hmem
    have hissued := c.mem_issued a ha
    rw [hhandle] at hissued
    exact hnew hissued
  mem_issued := by
    intro a ha
    rcases List.mem_cons.mp ha with rfl | ha
    · exact List.mem_cons_self ..
    · exact List.mem_cons_of_mem _ (c.mem_issued a ha)

variable [DecidableEq η] [DecidableEq κ]

omit [DecidableEq κ] in
/-- Removes the alarm with the handle, if it is pending. An alarm that goes off is removed the same way. -/
def cancel (c : Clock η κ) (handle : η) : Clock η κ where
  pending := c.pending.filter fun a => a.handle ≠ handle
  issued := c.issued
  nodup := c.nodup.sublist (List.filter_sublist.map _)
  mem_issued a ha := c.mem_issued a (List.mem_of_mem_filter ha)

omit [DecidableEq η] in
/-- The alarms that are pending for a key. -/
def ofKey (c : Clock η κ) (key : κ) : List (Alarm η κ) := c.pending.filter fun a => a.key = key

variable {c : Clock η κ} {handle : η} {key k : κ} {due : ℕ} {a : Alarm η κ}

omit [DecidableEq η] in
@[simp]
theorem mem_ofKey : a ∈ c.ofKey key ↔ a ∈ c.pending ∧ a.key = key := by
  rw [ofKey, List.mem_filter, decide_eq_true_iff]

omit [DecidableEq η] in
theorem ofKey_set_self (hnew : handle ∉ c.issued) (key : κ) (due : ℕ) :
    (c.set handle key due hnew).ofKey key = ⟨handle, key, due⟩ :: c.ofKey key := by
  unfold ofKey set
  exact List.filter_cons_of_pos (decide_eq_true rfl)

omit [DecidableEq η] in
theorem ofKey_set_ne (hnew : handle ∉ c.issued) (hne : k ≠ key) :
    (c.set handle key due hnew).ofKey k = c.ofKey k := by
  unfold ofKey set
  refine List.filter_cons_of_neg ?_
  simpa using hne.symm

theorem ofKey_cancel (c : Clock η κ) (handle : η) (key : κ) :
    (c.cancel handle).ofKey key = (c.ofKey key).filter fun a => a.handle ≠ handle := by
  unfold ofKey cancel
  rw [List.filter_filter, List.filter_filter]
  exact List.filter_congr fun a _ => Bool.and_comm ..

theorem ofKey_cancel_of_ne (h : ∀ a ∈ c.ofKey key, a.handle ≠ handle) :
    (c.cancel handle).ofKey key = c.ofKey key := by
  rw [ofKey_cancel, List.filter_eq_self]
  exact fun a ha => decide_eq_true (h a ha)

omit [DecidableEq κ] in
theorem cancel_of_ne (h : ∀ a ∈ c.pending, a.handle ≠ handle) : c.cancel handle = c := by
  have hpending : (c.cancel handle).pending = c.pending :=
    List.filter_eq_self.mpr fun a ha => decide_eq_true (h a ha)
  cases c
  simpa only [cancel, mk.injEq, and_true] using hpending

omit [DecidableEq η] [DecidableEq κ] in
theorem eq_of_handle_eq {b : Alarm η κ} (ha : a ∈ c.pending) (hb : b ∈ c.pending)
    (h : a.handle = b.handle) : a = b := List.inj_on_of_nodup_map c.nodup ha hb h

theorem ofKey_cancel_other (ha : a ∈ c.pending) (hne : k ≠ a.key) :
    (c.cancel a.handle).ofKey k = c.ofKey k := by
  refine ofKey_cancel_of_ne fun b hb hhandle => ?_
  obtain ⟨hb, hkey⟩ := mem_ofKey.mp hb
  rw [eq_of_handle_eq hb ha hhandle] at hkey
  exact hne hkey.symm

/-! ## A client that keeps track -/

/-- Every alarm that is pending for the key has the given handle. -/
def Tracked (c : Clock η κ) (key : κ) (handle : η) : Prop := ∀ a ∈ c.ofKey key, a.handle = handle

theorem Tracked.ofKey_cancel_eq_nil (h : c.Tracked key handle) : (c.cancel handle).ofKey key = [] := by
  rw [ofKey_cancel, List.filter_eq_nil_iff]
  intro a ha
  simpa using h a ha

omit [DecidableEq η] in
theorem tracked_set_iff (hnew : handle ∉ c.issued) (key : κ) (due : ℕ) :
    (c.set handle key due hnew).Tracked key handle ↔ c.ofKey key = [] := by
  unfold Tracked
  rw [ofKey_set_self]
  constructor
  · intro h
    rw [List.eq_nil_iff_forall_not_mem]
    intro a ha
    have hhandle := h a (List.mem_cons_of_mem _ ha)
    rw [← hhandle] at hnew
    exact hnew (c.mem_issued a (mem_ofKey.mp ha).1)
  · intro hnil a ha
    rw [hnil, List.mem_singleton] at ha
    rw [ha]

/-- What always holds of a client that remembers the handle `p key` for each key, and `null` if there is
none: `null` is nobody's handle, the handles were given out, and none is another key's. -/
structure Held (c : Clock η κ) (null : η) (p : κ → η) : Prop where
  ne_null : ∀ a ∈ c.pending, a.handle ≠ null
  issued : ∀ key, p key ≠ null → p key ∈ c.issued
  own : ∀ key, ∀ a ∈ c.pending, a.handle = p key → a.key = key

variable {null : η} {p : κ → η}

omit [DecidableEq η] [DecidableEq κ] in
theorem held_empty : (empty : Clock η κ).Held null fun _ => null where
  ne_null := by simp [empty]
  issued _ h := absurd rfl h
  own := by simp [empty]

omit [DecidableEq κ] in
theorem Held.cancel (h : c.Held null p) (handle : η) : (c.cancel handle).Held null p where
  ne_null a ha := h.ne_null a (List.mem_of_mem_filter ha)
  issued := h.issued
  own key a ha := h.own key a (List.mem_of_mem_filter ha)

omit [DecidableEq η] in
theorem Held.forget (h : c.Held null p) (key : κ) : c.Held null (Function.update p key null) where
  ne_null := h.ne_null
  issued k hk := by
    rcases eq_or_ne k key with rfl | hne
    · rw [Function.update_self] at hk
      exact absurd rfl hk
    · rw [Function.update_of_ne hne] at hk ⊢
      exact h.issued k hk
  own k a ha hhandle := by
    rcases eq_or_ne k key with rfl | hne
    · rw [Function.update_self] at hhandle
      exact absurd hhandle (h.ne_null a ha)
    · rw [Function.update_of_ne hne] at hhandle
      exact h.own k a ha hhandle

omit [DecidableEq η] in
theorem Held.set (h : c.Held null p) (hnew : handle ∉ c.issued) (hnull : handle ≠ null) (key : κ)
    (due : ℕ) :
    (c.set handle key due hnew).Held null (Function.update p key handle) where
  ne_null a ha := by
    rcases List.mem_cons.mp ha with rfl | ha
    · exact hnull
    · exact h.ne_null a ha
  issued k hk := by
    rcases eq_or_ne k key with rfl | hne
    · rw [Function.update_self]
      exact List.mem_cons_self ..
    · rw [Function.update_of_ne hne] at hk ⊢
      exact List.mem_cons_of_mem _ (h.issued k hk)
  own k a ha hhandle := by
    rcases eq_or_ne k key with rfl | hne
    · rcases List.mem_cons.mp ha with rfl | ha
      · rfl
      · -- An alarm that was pending before does not have the new handle.
        rw [Function.update_self] at hhandle
        rw [← hhandle] at hnew
        exact absurd (c.mem_issued a ha) hnew
    · rw [Function.update_of_ne hne] at hhandle
      rcases List.mem_cons.mp ha with rfl | ha
      · -- The handle that is held for another key was issued before, so it is not the new one.
        have hissued : p k ∈ c.issued := h.issued k fun hk => hnull (hhandle.trans hk)
        rw [← hhandle] at hissued
        exact absurd hissued hnew
      · exact h.own k a ha hhandle

theorem Held.ofKey_cancel_ne (h : c.Held null p) (hne : k ≠ key) :
    (c.cancel (p key)).ofKey k = c.ofKey k := by
  refine ofKey_cancel_of_ne fun a ha hhandle => ?_
  obtain ⟨ha, hkey⟩ := mem_ofKey.mp ha
  exact hne (hkey.symm.trans (h.own key a ha hhandle))

omit [DecidableEq κ] in
theorem Held.cancel_null (h : c.Held null p) : c.cancel null = c := cancel_of_ne h.ne_null

end Clock

end Alarms
