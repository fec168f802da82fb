import Mathlib.Data.List.Induction
import Mathlib.Data.List.Perm.Basic
import Mathlib.Data.List.Sort

/-!
# Insertion sort with scores that may fail

Insertion sort in an array, with the highest score first. The score of an entry is computed anew whenever it is
compared, and computing it may fail. An entry moves to the left past the entries with a lower score, so that
entries with the same score keep their order.
-/

namespace InsertionSort

variable {α β ε : Type} [LinearOrder β]

/-- The inner loop: `key` goes left from the place `j`, and the entries that it passes go right by one. -/
def sink (score : α → Except ε β) (key : α) (keyScore : β) : ℕ → List α → Except ε (List α)
  | 0, entries => pure (entries.set 0 key)
  | j + 1, entries => do
    let prev := entries.getD j key
    let prevScore ← score prev
    if keyScore ≤ prevScore then pure (entries.set (j + 1) key)
    else sink score key keyScore j (entries.set (j + 1) prev)

/-- The body of the outer loop: the entry at `i` goes to its place among those before it. -/
def insert (score : α → Except ε β) (entries : List α) (i : ℕ) : Except ε (List α) :=
  match entries[i]? with
  | none => pure entries
  | some key => do
    let keyScore ← score key
    sink score key keyScore i entries

/-- The outer loop. -/
def sort (score : α → Except ε β) (entries : List α) : Except ε (List α) :=
  (List.range' 1 (entries.length - 1)).foldlM (insert score) entries

/-- The order of the result: by score, the highest first, and by `r` where the scores are the same. -/
def Before (value : α → β) (r : α → α → Prop) (a b : α) : Prop :=
  value b < value a ∨ value a = value b ∧ r a b

variable {score : α → Except ε β} {value : α → β} {r : α → α → Prop} {key x : α} {pre post done rest : List α}

theorem sink_spec (key x : α) (post : List α) (hscore : ∀ y ∈ pre, score y = .ok (value y)) :
    ∃ kept passed, pre = kept ++ passed ∧ (∀ y ∈ passed, value y < value key) ∧
      (∀ y ∈ kept.getLast?, value key ≤ value y) ∧
      sink score key (value key) pre.length (pre ++ x :: post) = .ok (kept ++ key :: passed ++ post) := by
  induction pre using List.reverseRecOn generalizing x post with
  | nil => exact ⟨[], [], rfl, by simp, by simp, rfl⟩
  | append_singleton pre y ih =>
    have hy : score y = .ok (value y) := hscore y (by simp)
    have hget : (pre ++ [y] ++ x :: post).getD pre.length key = y := by
      simp
    have hset : ∀ z, (pre ++ [y] ++ x :: post).set (pre.length + 1) z = pre ++ [y] ++ z :: post := by
      intro z
      simp
    rw [List.length_append, List.length_singleton]
    unfold sink
    simp only [hget, hset, hy]
    by_cases hle : value key ≤ value y
    · refine ⟨pre ++ [y], [], by simp, by simp, by simpa using hle, ?_⟩
      simp only [bind, Except.bind, if_pos hle]
      change Except.ok (pre ++ [y] ++ key :: post) = Except.ok (pre ++ [y] ++ [key] ++ post)
      rw [List.append_assoc (pre ++ [y]), List.singleton_append]
    · obtain ⟨kept, passed, hpre, hpassed, hkept, hsink⟩ :=
        @ih y (y :: post) fun z hz => hscore z (List.mem_append_left _ hz)
      refine ⟨kept, passed ++ [y], by rw [hpre, List.append_assoc], ?_, hkept, ?_⟩
      · intro z hz
        rcases List.mem_append.mp hz with hz | hz
        · exact hpassed z hz
        · rw [List.mem_singleton.mp hz]
          exact lt_of_not_ge hle
      · simp only [bind, Except.bind, if_neg hle]
        have happend : pre ++ [y] ++ y :: post = pre ++ y :: y :: post := by simp
        rw [happend, hsink]
        simp

theorem le_of_getLast (hsorted : pre.Pairwise (Before value r)) (hlast : ∀ y ∈ pre.getLast?, value key ≤ value y) :
    ∀ y ∈ pre, value key ≤ value y := by
  intro y hy
  rcases List.eq_nil_or_concat pre with rfl | ⟨init, last, rfl⟩
  · cases hy
  · rw [List.concat_eq_append] at hsorted hlast hy
    have hle : value key ≤ value last := hlast last (by simp)
    rcases List.mem_append.mp hy with hy | hy
    · rcases (List.pairwise_append.mp hsorted).2.2 y hy last (List.mem_singleton_self _) with hlt | ⟨heq, -⟩
      · exact le_trans hle (le_of_lt hlt)
      · rw [heq]
        exact hle
    · rw [List.mem_singleton.mp hy]
      exact hle

/-- The outer loop has sorted the entries in `done`, and the entries in `rest` are as they were. -/
structure Sorted (value : α → β) (r : α → α → Prop) (done rest : List α) : Prop where
  sorted : done.Pairwise (Before value r)
  ahead : ∀ y ∈ done, ∀ z ∈ rest, r y z
  rest : rest.Pairwise r

theorem insert_spec (hscore : ∀ y ∈ done ++ key :: rest, score y = .ok (value y))
    (h : Sorted value r done (key :: rest)) :
    ∃ done', done'.Perm (done ++ [key]) ∧ Sorted value r done' rest ∧
      insert score (done ++ key :: rest) done.length = .ok (done' ++ rest) := by
  obtain ⟨kept, passed, rfl, hpassed, hlast, hsink⟩ := sink_spec key key rest
    fun y hy => hscore y (List.mem_append_left _ hy)
  have hkept := le_of_getLast (List.pairwise_append.mp h.sorted).1 hlast
  have hperm : (kept ++ key :: passed).Perm (kept ++ passed ++ [key]) :=
    List.perm_middle.trans (List.perm_append_singleton _ _).symm
  refine ⟨kept ++ key :: passed, hperm, ⟨?_, ?_, (List.pairwise_cons.mp h.rest).2⟩, ?_⟩
  · obtain ⟨hkeptSorted, hpassedSorted, hcross⟩ := List.pairwise_append.mp h.sorted
    refine List.pairwise_append.mpr ⟨hkeptSorted, List.pairwise_cons.mpr ⟨?_, hpassedSorted⟩, ?_⟩
    · exact fun y hy => .inl (hpassed y hy)
    · intro y hy z hz
      rcases List.mem_cons.mp hz with rfl | hz
      · -- Entries with the same score stay ahead, where they were.
        have hahead := h.ahead y (List.mem_append_left _ hy) z (List.mem_cons_self ..)
        rcases lt_or_eq_of_le (hkept y hy) with hlt | heq
        · exact .inl hlt
        · exact .inr ⟨heq.symm, hahead⟩
      · exact hcross y hy z hz
  · intro y hy z hz
    rcases List.mem_append.mp (hperm.mem_iff.mp hy) with hy | hy
    · exact h.ahead y hy z (List.mem_cons_of_mem _ hz)
    · rw [List.mem_singleton.mp hy]
      exact (List.pairwise_cons.mp h.rest).1 z hz
  · have hget : (kept ++ passed ++ key :: rest)[(kept ++ passed).length]? = some key := by
      rw [List.getElem?_append_right (Nat.le_refl _), Nat.sub_self]
      rfl
    have hkey : score key = .ok (value key) := hscore key (by simp)
    unfold insert
    rw [hget]
    simp only [hkey]
    exact hsink

theorem inserts_spec (hscore : ∀ y ∈ done ++ rest, score y = .ok (value y)) (h : Sorted value r done rest) :
    ∃ entries, entries.Perm (done ++ rest) ∧ entries.Pairwise (Before value r) ∧
      (List.range' done.length rest.length).foldlM (insert score) (done ++ rest) = .ok entries := by
  induction rest generalizing done with
  | nil =>
    rw [List.append_nil]
    exact ⟨done, .refl _, h.sorted, rfl⟩
  | cons key rest ih =>
    obtain ⟨done', hperm, hsorted, hinsert⟩ := insert_spec hscore h
    have hall : (done' ++ rest).Perm (done ++ key :: rest) := by
      have happend := hperm.append_right rest
      rwa [List.append_assoc, List.singleton_append] at happend
    have hlength : done'.length = done.length + 1 := by
      rw [hperm.length_eq, List.length_append, List.length_singleton]
    obtain ⟨entries, hentries, hresult, hloop⟩ := ih (fun y hy => hscore y (hall.mem_iff.mp hy)) hsorted
    refine ⟨entries, hentries.trans hall, hresult, ?_⟩
    rw [List.length_cons, List.range'_succ, List.foldlM_cons, hinsert]
    rw [hlength] at hloop
    exact hloop

/-- The sort succeeds, with a permutation in order. -/
theorem sort_spec {entries : List α} (hscore : ∀ y ∈ entries, score y = .ok (value y))
    (hr : entries.Pairwise r) :
    ∃ sorted, sort score entries = .ok sorted ∧ sorted.Perm entries ∧ sorted.Pairwise (Before value r) := by
  cases entries with
  | nil => exact ⟨[], rfl, .refl _, .nil⟩
  | cons first rest =>
    obtain ⟨hahead, hrest⟩ := List.pairwise_cons.mp hr
    have hscores : ∀ y ∈ [first] ++ rest, score y = .ok (value y) := hscore
    obtain ⟨sorted, hperm, hsorted, hloop⟩ := inserts_spec hscores
      ⟨List.pairwise_singleton .., fun y hy z hz => by
        rw [List.mem_singleton.mp hy]
        exact hahead z hz, hrest⟩
    exact ⟨sorted, hloop, hperm, hsorted⟩

/-! ## The stable sort of a list -/

/-- The first one is the first of the best. -/
theorem insertionSort_head {f : α → β} {entries rest : List α} {best : α}
    (h : entries.insertionSort (fun a b => f b ≤ f a) = best :: rest) :
    ∃ before after, entries = before ++ best :: after ∧ (∀ a ∈ before, f a < f best) ∧
      ∀ a ∈ after, f a ≤ f best := by
  induction entries generalizing best rest with
  | nil => cases h
  | cons a entries ih =>
    rw [List.insertionSort_cons] at h
    cases hsorted : entries.insertionSort fun a b => f b ≤ f a with
    | nil =>
      have hentries : entries = [] := by
        rw [← List.length_eq_zero_iff, ← List.length_insertionSort fun a b => f b ≤ f a, hsorted, List.length_nil]
      rw [hsorted, List.orderedInsert_nil] at h
      obtain ⟨rfl, -⟩ := List.cons_eq_cons.mp h
      rw [hentries]
      exact ⟨[], [], rfl, by simp, by simp⟩
    | cons b others =>
      obtain ⟨before, after, rfl, hbefore, hafter⟩ := ih hsorted
      have hle : ∀ x ∈ before ++ b :: after, f x ≤ f b := by
        intro x hx
        rcases List.mem_append.mp hx with hx | hx
        · exact (hbefore x hx).le
        · rcases List.mem_cons.mp hx with rfl | hx
          · exact le_rfl
          · exact hafter x hx
      rw [hsorted, List.orderedInsert_cons] at h
      split_ifs at h with hab
      · -- The new entry is before all others, as it is in the list.
        obtain ⟨rfl, -⟩ := List.cons_eq_cons.mp h
        exact ⟨[], _, rfl, by simp, fun x hx => (hle x hx).trans hab⟩
      · obtain ⟨rfl, -⟩ := List.cons_eq_cons.mp h
        refine ⟨a :: before, after, rfl, fun x hx => ?_, hafter⟩
        rcases List.mem_cons.mp hx with rfl | hx
        · exact not_le.mp hab
        · exact hbefore x hx

theorem insertionSort_zipIdx_head {f : α → β} {entries : List α} {rest : List (α × ℕ)} {best : α} {k : ℕ}
    (h : entries.zipIdx.insertionSort (fun a b => f b.1 ≤ f a.1) = (best, k) :: rest) :
    entries[k]? = some best ∧ ∀ i a, entries[i]? = some a → f a ≤ f best ∧ (i < k → f a < f best) := by
  obtain ⟨before, after, hsplit, hbefore, hafter⟩ := insertionSort_head h
  have hget : ∀ (i : ℕ) (a : α), entries[i]? = some a → (before ++ (best, k) :: after)[i]? = some (a, i) := by
    intro i a hi
    rw [← hsplit, List.getElem?_zipIdx, Nat.zero_add, hi]
    rfl
  have hmem : (best, k) ∈ entries.zipIdx := by
    rw [hsplit]
    exact List.mem_append_right _ List.mem_cons_self
  have hbest : entries[k]? = some best := List.mem_zipIdx_iff_getElem?.mp hmem
  -- The place of the best entry in the list is its place among the entries with their places.
  have hk : k = before.length := by
    have hlt : before.length < entries.length := by
      have hlength := congrArg List.length hsplit
      rw [List.length_zipIdx, List.length_append, List.length_cons] at hlength
      omega
    have hplace := hget before.length _ (List.getElem?_eq_getElem hlt)
    simp only [List.getElem?_append_right le_rfl, Nat.sub_self, List.getElem?_cons_zero, Option.some.injEq,
      Prod.mk.injEq] at hplace
    exact hplace.2
  refine ⟨hbest, fun i a hi => ?_⟩
  have hentry := hget i a hi
  rcases lt_trichotomy i k with hlt | rfl | hgt
  · rw [List.getElem?_append_left (hk ▸ hlt)] at hentry
    have hscore := hbefore _ (List.mem_of_getElem? hentry)
    exact ⟨hscore.le, fun _ => hscore⟩
  · rw [hbest] at hi
    rw [Option.some.inj hi]
    exact ⟨le_rfl, fun h => absurd h (lt_irrefl _)⟩
  · rw [List.getElem?_append_right (hk ▸ hgt.le), List.getElem?_cons, if_neg (by omega)] at hentry
    exact ⟨hafter _ (List.mem_of_getElem? hentry), fun h => absurd h hgt.not_gt⟩

end InsertionSort
