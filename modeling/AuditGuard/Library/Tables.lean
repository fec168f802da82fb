import Mathlib.Data.List.Sort

/-!
# Tables of rows

A table is a list of rows, each with a key. `insert` and `upsert` are what a store does that replaces or keeps the row
with a key; `latest` sorts and cuts as a program does, and `Selects` says which answers a query with `ORDER BY` and
`LIMIT` may give: rows of one time come in any order. There is one answer, in all that is shown of it, if and only if
no two rows are of one time (`eq_latest_of_selects` and `nodup_times_of_selects`).
-/

namespace Tables

variable {Row Key : Type*} [DecidableEq Key] {key : Row → Key} {k : Key} {row : Option Row → Row}
  {rows : List Row} {wanted : Row → Bool} {time : Row → ℕ} {limit : ℕ}

/-- A row is added, unless there is one with its key. -/
def insert (key : Row → Key) (r : Row) (rows : List Row) : List Row :=
  if rows.any (fun r' => key r' = key r) then rows else rows ++ [r]

/-- The row with the key `k` is replaced by what `row` makes of it; if there is none, what `row` makes of nothing is
added. -/
def upsert (key : Row → Key) (k : Key) (row : Option Row → Row) : List Row → List Row
  | [] => [row none]
  | r :: rows => if key r = k then row (some r) :: rows else r :: upsert key k row rows

/-- The row with a key. -/
def lookup (key : Row → Key) (k : Key) (rows : List Row) : Option Row := rows.find? fun r => key r = k

/-- What is found has the key. -/
theorem key_of_lookup {r : Row} (h : lookup key k rows = some r) : key r = k := by
  have hfound := List.find?_some h
  simpa using hfound

/-- The wanted rows, the latest first, and not more than `limit` of them. -/
def latest (rows : List Row) (wanted : Row → Bool) (time : Row → ℕ) (limit : ℕ) : List Row :=
  ((rows.filter wanted).mergeSort fun a b => time b ≤ time a).take limit

/-- The answers to `SELECT … WHERE … ORDER BY time DESC LIMIT limit`. -/
def Selects (rows : List Row) (wanted : Row → Bool) (time : Row → ℕ) (limit : ℕ) (answer : List Row) : Prop :=
  ∃ sorted : List Row, sorted.Perm (rows.filter wanted) ∧ sorted.Pairwise (fun a b => time b ≤ time a) ∧
    answer = sorted.take limit

/-- The latest rows are one of the answers. -/
theorem selects_latest : Selects rows wanted time limit (latest rows wanted time limit) := by
  refine ⟨(rows.filter wanted).mergeSort fun a b => time b ≤ time a, List.mergeSort_perm .., ?_, rfl⟩
  have hsorted : ((rows.filter wanted).mergeSort fun a b => time b ≤ time a).Pairwise
      fun a b => decide (time b ≤ time a) = true := by
    apply List.pairwise_mergeSort
    · intro a b c hab hbc
      simp only [decide_eq_true_eq] at hab hbc ⊢
      omega
    · intro a b
      simp only [Bool.or_eq_true, decide_eq_true_eq]
      omega
  exact hsorted.imp of_decide_eq_true

/-- Where no two rows are of one time, there is one answer. -/
theorem eq_latest_of_selects {answer : List Row} (htimes : (rows.map time).Nodup)
    (h : Selects rows wanted time limit answer) : answer = latest rows wanted time limit := by
  obtain ⟨sorted, hperm, hsorted, rfl⟩ := h
  obtain ⟨sorted', hperm', hsorted', hlatest⟩ : Selects rows wanted time limit (latest rows wanted time limit) :=
    selects_latest
  rw [hlatest]
  congr 1
  refine (hperm.trans hperm'.symm).eq_of_pairwise (fun a b ha hb hab hba => ?_) hsorted hsorted'
  have hmem : ∀ c, c ∈ rows.filter wanted → c ∈ rows := fun c hc => (List.mem_filter.mp hc).1
  exact List.inj_on_of_nodup_map htimes (hmem a (hperm.subset ha)) (hmem b (hperm'.subset hb)) (Nat.le_antisymm hba hab)

/-- Where two rows are of one time, two rows next to each other are. -/
theorem exists_tie {sorted : List Row} (hsorted : sorted.Pairwise fun a b => time b ≤ time a)
    (htie : ¬(sorted.map time).Nodup) : ∃ before a b after, sorted = before ++ a :: b :: after ∧ time a = time b := by
  induction sorted with
  | nil => simp at htie
  | cons a sorted ih =>
    obtain ⟨ha, htail⟩ := List.pairwise_cons.mp hsorted
    by_cases hnodup : (sorted.map time).Nodup
    · rw [List.map_cons, List.nodup_cons, not_and, not_imp_comm, not_not] at htie
      obtain ⟨c, hc, hca⟩ := List.mem_map.mp (htie hnodup)
      cases sorted with
      | nil => cases hc
      | cons b after =>
        -- The next one lies between the two.
        have hcb : time c ≤ time b := by
          rcases List.mem_cons.mp hc with rfl | hc
          · exact Nat.le_refl _
          · exact (List.pairwise_cons.mp htail).1 c hc
        have hba := ha b List.mem_cons_self
        exact ⟨[], a, b, after, rfl, by omega⟩
    · obtain ⟨before, b, c, after, rfl, hbc⟩ := ih htail hnodup
      exact ⟨a :: before, b, c, after, rfl, hbc⟩

/-- Where there is one answer, no two rows are of one time, if what is shown of them differs. -/
theorem nodup_times_of_selects {Shown : Type*} (shown : Row → Shown) {answer : List Shown}
    (hshown : (rows.map shown).Nodup)
    (h : ∀ sorted, Selects rows (fun _ => true) time rows.length sorted → sorted.map shown = answer) :
    (rows.map time).Nodup := by
  by_contra htie
  obtain ⟨sorted, hperm, hsorted, -⟩ : Selects rows (fun _ => true) time rows.length (latest rows _ time _) :=
    selects_latest
  rw [List.filter_true] at hperm
  obtain ⟨before, a, b, after, rfl, hab⟩ := exists_tie hsorted (fun hnodup => htie ((hperm.map time).nodup_iff.mp hnodup))
  have hswap : (before ++ b :: a :: after).Perm rows := (List.Perm.append_left _ (.swap ..)).trans hperm
  have hselects : ∀ sorted : List Row, sorted.Perm rows → sorted.Pairwise (fun a b => time b ≤ time a) →
      Selects rows (fun _ => true) time rows.length sorted := by
    intro sorted hperm hsorted
    exact ⟨sorted, by rwa [List.filter_true], hsorted, by rw [← hperm.length_eq, List.take_length]⟩
  have hsorted' : (before ++ b :: a :: after).Pairwise fun a b => time b ≤ time a := by
    simp only [List.pairwise_append, List.pairwise_cons, List.mem_cons, forall_eq_or_imp] at hsorted ⊢
    obtain ⟨hbefore, ⟨⟨-, ha⟩, hb, hafter⟩, hall⟩ := hsorted
    exact ⟨hbefore, ⟨⟨hab.le, hb⟩, ha, hafter⟩, fun c hc => ⟨(hall c hc).2.1, (hall c hc).1, (hall c hc).2.2⟩⟩
  have hsame := (h _ (hselects _ hperm hsorted)).trans (h _ (hselects _ hswap hsorted')).symm
  simp only [List.map_append, List.map_cons, List.append_cancel_left_eq, List.cons.injEq] at hsame
  have hnodup := (hperm.map shown).nodup_iff.mpr hshown
  rw [List.map_append, List.map_cons, List.map_cons, hsame.1] at hnodup
  exact (List.nodup_cons.mp hnodup.of_append_right).1 List.mem_cons_self

/-- A new key is added at the end. -/
theorem upsert_of_lookup_none (h : lookup key k rows = none) : upsert key k row rows = rows ++ [row none] := by
  induction rows with
  | nil => rfl
  | cons r rows ih =>
    unfold lookup at h ih
    rw [List.find?_cons] at h
    split at h
    · cases h
    · next hr => rw [upsert, if_neg (of_decide_eq_false hr), ih h, List.cons_append]

/-- A row that is there is replaced in its place. -/
theorem exists_upsert_of_lookup {r : Row} (h : lookup key k rows = some r) :
    ∃ before after, rows = before ++ r :: after ∧ ∀ row, upsert key k row rows = before ++ row (some r) :: after := by
  induction rows with
  | nil => cases h
  | cons r' rows ih =>
    unfold lookup at h ih
    rw [List.find?_cons] at h
    split at h
    · next hr =>
      obtain rfl := Option.some.inj h
      exact ⟨[], rows, rfl, fun row => by rw [upsert, if_pos (of_decide_eq_true hr), List.nil_append]⟩
    · next hr =>
      obtain ⟨before, after, rfl, hupsert⟩ := ih h
      exact ⟨r' :: before, after, rfl, fun row => by
        rw [upsert, if_neg (of_decide_eq_false hr), hupsert, List.cons_append]⟩

/-- The row of the key after an upsert. -/
theorem lookup_upsert (hnone : key (row none) = k) (hsome : ∀ r, key r = k → key (row (some r)) = k) :
    lookup key k (upsert key k row rows) = some (row (lookup key k rows)) := by
  induction rows with
  | nil => simp [upsert, lookup, hnone]
  | cons r rows ih =>
    unfold lookup at ih
    unfold upsert lookup
    by_cases hr : key r = k
    · simp [hr, hsome r hr]
    · rw [if_neg hr]
      simpa [hr] using ih

/-- The rows of the other keys stay. -/
theorem lookup_upsert_of_ne {k' : Key} (hne : k' ≠ k) (hnone : key (row none) = k)
    (hsome : ∀ r, key r = k → key (row (some r)) = k) :
    lookup key k' (upsert key k row rows) = lookup key k' rows := by
  induction rows with
  | nil => simp [upsert, lookup, hnone, hne.symm]
  | cons r rows ih =>
    unfold lookup at ih
    unfold upsert lookup
    by_cases hr : key r = k
    · simp [hr, hsome r hr, hne.symm]
    · rw [if_neg hr, List.find?_cons, List.find?_cons, ih]

end Tables
