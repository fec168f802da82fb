import AuditGuard.EventStore.Model

/-!
# Whether the stores are interchangeable

The statements of `PgDb` take the stored value of a column where the proposed one is null, but the parameters have
their defaults already and are never null: an upsert overwrites every field that is absent with its default.
`InMemoryDb` keeps it. Only `status` is overwritten by both. What the database gives back of a value may differ from
the value, and it may refuse it; the store in memory takes and gives everything. `PgDb` refuses a bid skip whose event
it does not have. And rows of one time come in any order from the database.

Two lemmas about any table, `insert_iff` and `upsert_iff`, are applied to the six.
-/

namespace AuditGuard.EventStore

open TransitionSystem

variable {C : Type} {pg : Postgres} {t : Table C} {m : Merge C} {given : C → Value} {now : ℕ}
  {rows : List (Row C)}

/-! ## Columns -/

theorem orElse_of_ne {a b : Value} (h : a ≠ .null) : a.orElse b = a := if_neg h

@[simp] theorem orElse_null {b : Value} : Value.orElse .null b = b := if_pos rfl

theorem coalesce_of_ne {a b : Value} (h : a ≠ .null) : a.coalesce b = a := if_neg h

/-- A row is made of what the database keeps of each column. -/
theorem row_eq_some_iff {parameters values : C → Value} :
    PgDb.row pg t parameters = some values ↔ ∀ c, PgDb.cell pg t c (parameters c) = some (values c) := by
  unfold PgDb.row
  constructor
  · intro h c
    rw [Option.ite_none_right_eq_some, Option.some.injEq] at h
    obtain ⟨hall, rfl⟩ := h
    obtain ⟨value, hvalue⟩ := Option.isSome_iff_exists.mp (hall c (t.complete c))
    exact hvalue.trans (congrArg some (by simp only [hvalue, Option.getD_some]))
  · intro h
    rw [if_pos fun c _ => by rw [h c, Option.isSome_some]]
    exact congrArg some (funext fun c => by rw [h c, Option.getD_some])

/-- There is a row if no column is refused. -/
theorem exists_row {parameters : C → Value} (h : ∀ c, (PgDb.cell pg t c (parameters c)).isSome) :
    ∃ values, PgDb.row pg t parameters = some values :=
  ⟨_, if_pos fun c _ => h c⟩

/-- What is not null is not kept as null. -/
theorem ne_null_of_cell {c : C} {value stored : Value} (h : PgDb.cell pg t c value = some stored)
    (hvalue : value ≠ .null) : stored ≠ .null := by
  rintro rfl
  rw [PgDb.cell, if_neg hvalue] at h
  exact pg.notNull h

theorem eq_of_cell_text {c : C} {s : String} {stored : Value} (htype : t.type c = .text)
    (h : PgDb.cell pg t c (.text s) = some stored) : stored = .text s := by
  rw [PgDb.cell, if_neg nofun, htype] at h
  exact pg.text h

/-! ## Tables -/

/-- A table whose queries have one answer, and whose values come back as they are. -/
structure Sound (pg : Postgres) (t : Table C) (rows : List (Row C)) : Prop where
  keys : (rows.map t.keyOf).Nodup
  times : (rows.map t.time).Nodup
  fits : ∀ r ∈ rows, ∀ c, PgDb.cell pg t c (r.values c) = some (r.values c)

theorem Sound.nil : Sound pg t [] := ⟨.nil, .nil, nofun⟩

/-- The order of the rows does not matter. -/
theorem Sound.perm {rows' : List (Row C)} (h : Sound pg t rows) (hperm : rows.Perm rows') : Sound pg t rows' where
  keys := (hperm.map _).nodup_iff.mp h.keys
  times := (hperm.map _).nodup_iff.mp h.times
  fits r hr := h.fits r (hperm.mem_iff.mpr hr)

theorem Sound.of_cons {r : Row C} (h : Sound pg t (r :: rows)) : Sound pg t rows where
  keys := (List.nodup_cons.mp h.keys).2
  times := (List.nodup_cons.mp h.times).2
  fits r hr := h.fits r (List.mem_cons_of_mem _ hr)

/-- A new row with another key and another time may be added. -/
theorem Sound.cons {r : Row C} (h : Sound pg t rows) (hkey : ∀ r' ∈ rows, t.keyOf r' ≠ t.keyOf r)
    (htime : ∀ r' ∈ rows, t.time r' ≠ t.time r) (hfits : ∀ c, PgDb.cell pg t c (r.values c) = some (r.values c)) :
    Sound pg t (r :: rows) where
  keys := List.nodup_cons.mpr ⟨fun hmem => by
    obtain ⟨r', hr', heq⟩ := List.mem_map.mp hmem
    exact hkey r' hr' heq, h.keys⟩
  times := List.nodup_cons.mpr ⟨fun hmem => by
    obtain ⟨r', hr', heq⟩ := List.mem_map.mp hmem
    exact htime r' hr' heq, h.times⟩
  fits := List.forall_mem_cons.mpr ⟨hfits, h.fits⟩

/-- Sound rows give one answer to a query. -/
theorem Sound.sameRows (h : Sound pg t rows) (wanted : Row C → Bool) : SameRows t wanted rows rows :=
  fun _ _ _ hanswer => congrArg _ (Tables.eq_latest_of_selects h.times hanswer)

section

variable {pgRows memRows : List (Row C)}

/-- Who answers a query for all rows alike has the same rows. -/
theorem SameRows.perm (h : SameRows t (fun _ => true) pgRows memRows) :
    (pgRows.map Row.values).Perm (memRows.map Row.values) := by
  have hall : ∀ rows : List (Row C), rows.length ≤ pgRows.length + memRows.length + 1 →
      (Tables.latest rows (fun _ => true) t.time (pgRows.length + memRows.length + 1)).Perm rows := by
    intro rows hle
    unfold Tables.latest
    rw [List.filter_true, List.take_of_length_le (by rwa [List.length_mergeSort])]
    exact List.mergeSort_perm ..
  have hsame := h (pgRows.length + memRows.length + 1) (Nat.succ_pos _) _ Tables.selects_latest
  calc (pgRows.map Row.values).Perm _ := ((hall pgRows (by omega)).map _).symm
    _ = _ := hsame
    List.Perm _ (memRows.map Row.values) := (hall memRows (by omega)).map _

/-- And no two of them are of one time. -/
theorem SameRows.times (h : SameRows t (fun _ => true) pgRows memRows) (hkeys : (pgRows.map t.keyOf).Nodup) :
    (pgRows.map t.time).Nodup := by
  cases hrows : pgRows with
  | nil => exact .nil
  | cons r rows =>
    rw [← hrows]
    refine Tables.nodup_times_of_selects Row.values ?_ (h pgRows.length (by simp [hrows]))
    refine List.Nodup.of_map (fun values => values t.key) ?_
    rwa [List.map_map]

/-- In stores that agree a row has a time of its own. -/
theorem SameRows.time_ne {new : Row C} {others : List (Row C)} (h : SameRows t (fun _ => true) pgRows memRows)
    (hperm : pgRows.Perm (new :: others)) (hothers : (others.map t.keyOf).Nodup)
    (hkey : ∀ r ∈ others, t.keyOf r ≠ t.keyOf new) : ∀ r ∈ others, t.time r ≠ t.time new := by
  have hkeys : ((new :: others).map t.keyOf).Nodup := List.nodup_cons.mpr ⟨fun hmem => by
    obtain ⟨r, hr, heq⟩ := List.mem_map.mp hmem
    exact hkey r hr heq, hothers⟩
  have htimes := (hperm.map t.time).nodup_iff.mp (h.times ((hperm.map t.keyOf).nodup_iff.mpr hkeys))
  intro r hr heq
  exact (List.nodup_cons.mp htimes).1 (List.mem_map.mpr ⟨r, hr, heq⟩)

end

theorem lookup_key {r : Row C} {k : Value} (h : Tables.lookup t.keyOf k rows = some r) : r ∈ rows ∧ t.keyOf r = k :=
  ⟨List.mem_of_find?_eq_some h, Tables.key_of_lookup h⟩

theorem lookup_none {k : Value} (h : Tables.lookup t.keyOf k rows = none) : ∀ r ∈ rows, t.keyOf r ≠ k :=
  fun r hr heq => by simpa [heq] using List.find?_eq_none.mp h r hr

/-! ## Inserts -/

/-- A row with the key is stored already, or every value comes back as it is, the row is allowed, and its time is new. -/
def InsertCareful (pg : Postgres) (t : Table C) (allowed : (C → Value) → Bool) (given : C → Value) (now : ℕ)
    (rows : List (Row C)) : Prop :=
  (∃ r ∈ rows, t.keyOf r = given t.key) ∨
    ((∀ c, PgDb.cell pg t c (given c) = some (given c)) ∧ allowed given = true ∧ ∀ r ∈ rows, t.time r ≠ now)

/-- A row with a key that is there is not added. -/
theorem insert_of_mem {r : Row C} (h : ∃ r' ∈ rows, t.keyOf r' = t.keyOf r) : Tables.insert t.keyOf r rows = rows := by
  obtain ⟨r', hr', heq⟩ := h
  exact if_pos (List.any_eq_true.mpr ⟨r', hr', decide_eq_true heq⟩)

/-- A row with a new key is. -/
theorem insert_of_not_mem {r : Row C} (h : ¬∃ r' ∈ rows, t.keyOf r' = t.keyOf r) :
    Tables.insert t.keyOf r rows = rows ++ [r] := by
  refine if_neg fun hany => h ?_
  obtain ⟨r', hr', heq⟩ := List.any_eq_true.mp hany
  exact ⟨r', hr', of_decide_eq_true heq⟩

theorem time_mk {values : C → Value} : t.time ⟨values, now, now⟩ = now := by
  unfold Table.time
  split <;> rfl

section

variable {allowed : (C → Value) → Bool} {given : C → Value}

/-- The database drops a row whose id is stored. -/
theorem insert_of_stored (hrows : Sound pg t rows) (hstored : ∃ r ∈ rows, t.keyOf r = given t.key) :
    PgDb.insert pg t allowed given now rows = rows := by
  unfold PgDb.insert
  cases hrow : PgDb.row pg t given with
  | none => rfl
  | some values =>
    obtain ⟨r, hr, hkey⟩ := hstored
    have hvalue : some (r.values t.key) = some (values t.key) := by
      rw [← hrows.fits r hr t.key, ← row_eq_some_iff.mp hrow t.key]
      exact congrArg _ hkey
    have hsame : Tables.insert t.keyOf ⟨values, now, now⟩ rows = rows :=
      insert_of_mem ⟨r, hr, Option.some.inj hvalue⟩
    dsimp only
    rw [hsame, ite_self]

/-- A new row that the stores agree on was inserted with care. -/
theorem insertCareful_of_new (hrows : Sound pg t rows) (hnew : ¬∃ r ∈ rows, t.keyOf r = given t.key)
    (hsame : SameRows t (fun _ => true) (PgDb.insert pg t allowed given now rows) (rows ++ [⟨given, now, now⟩])) :
    InsertCareful pg t allowed given now rows := by
  have hperm := hsame.perm
  unfold PgDb.insert at hsame hperm
  cases hrow : PgDb.row pg t given with
  | none =>
    rw [hrow] at hperm
    exact absurd hperm.length_eq (by simp)
  | some values =>
    rw [hrow] at hsame hperm
    dsimp only at hsame hperm
    by_cases hinserted : allowed values = true ∧ ¬∃ r ∈ rows, t.keyOf r = values t.key
    · rw [if_pos hinserted.1, insert_of_not_mem hinserted.2] at hsame hperm
      have hvalues : values = given := by
        rw [List.map_append, List.map_append, List.perm_append_left_iff] at hperm
        simpa using hperm
      rw [hvalues] at hrow hinserted hsame
      have htimes := hsame.time_ne (List.perm_append_singleton _ _) hrows.keys fun r hr heq => hnew ⟨r, hr, heq⟩
      rw [time_mk] at htimes
      exact .inr ⟨row_eq_some_iff.mp hrow, hinserted.1, htimes⟩
    · have hunchanged : (if allowed values = true then Tables.insert t.keyOf ⟨values, now, now⟩ rows else rows) =
          rows := by
        split
        case isTrue hallowed => exact insert_of_mem (not_not.mp fun hnone => hinserted ⟨hallowed, hnone⟩)
        case isFalse => rfl
      rw [hunchanged] at hperm
      exact absurd hperm.length_eq (by simp)

end

/-- The stores insert the same row exactly if the insert is careful. -/
theorem insert_iff (allowed : (C → Value) → Bool) (given : C → Value) (now : ℕ) (hrows : Sound pg t rows) :
    (SameRows t (fun _ => true) (PgDb.insert pg t allowed given now rows) (InMemoryDb.insert t given now rows) →
      InsertCareful pg t allowed given now rows) ∧
    (InsertCareful pg t allowed given now rows →
      PgDb.insert pg t allowed given now rows = InMemoryDb.insert t given now rows ∧
        Sound pg t (InMemoryDb.insert t given now rows)) := by
  by_cases hstored : ∃ r ∈ rows, t.keyOf r = given t.key
  · have hmem : InMemoryDb.insert t given now rows = rows := insert_of_mem hstored
    rw [hmem]
    exact ⟨fun _ => .inl hstored, fun _ => ⟨insert_of_stored hrows hstored, hrows⟩⟩
  · have hmem : InMemoryDb.insert t given now rows = rows ++ [⟨given, now, now⟩] := insert_of_not_mem hstored
    rw [hmem]
    refine ⟨insertCareful_of_new hrows hstored, ?_⟩
    rintro (hcareful | ⟨hfits, hallowed, htime⟩)
    · exact absurd hcareful hstored
    · constructor
      · unfold PgDb.insert
        rw [row_eq_some_iff.mpr hfits]
        dsimp only
        rw [if_pos hallowed, insert_of_not_mem hstored]
      · have hcons : Sound pg t (⟨given, now, now⟩ :: rows) := by
          refine hrows.cons (fun r hr heq => hstored ⟨r, hr, heq⟩) (fun r hr => ?_) hfits
          rw [time_mk]
          exact htime r hr
        exact hcons.perm (List.perm_append_singleton _ _).symm

/-! ## Upserts -/

theorem eq_of_perm_cons {α : Type*} {a b : α} {l : List α} (h : (a :: l).Perm (b :: l)) : a = b := by
  have hone : [a].Perm [b] := (List.perm_append_right_iff l).mp h
  simpa using hone

variable {stored : Option (Row C)}

/-- What an upsert leaves under a key has in every column that is not given what was there. -/
def KeepsRow (t : Table C) (given : C → Value) (before after : List (Row C)) : Prop :=
  ∀ stored, Tables.lookup t.keyOf (given t.key) before = some stored →
    ∃ new, Tables.lookup t.keyOf (given t.key) after = some new ∧
      ∀ c, given c = .null → new.values c = stored.values c

/-- What is given comes back as it is. Where nothing is given, what comes back of the default is what is stored, or the
default itself in a new row; and it is the default that is stored, where the store in memory keeps nothing. -/
def Comes (pg : Postgres) (t : Table C) (m : Merge C) (given : C → Value) (stored : Option (Row C)) (c : C) : Prop :=
  (given c ≠ .null → PgDb.cell pg t c (given c) = some (given c)) ∧
    (given c = .null →
      PgDb.cell pg t c (m.standard c) = some ((stored.map fun r => r.values c).getD (m.standard c)) ∧
        (m.kept c = false → ∀ r ∈ stored, r.values c = m.standard c))

/-- The time that the queries order by, of the row that an upsert leaves. -/
def upsertTime (t : Table C) (now : ℕ) (stored : Option (Row C)) : ℕ :=
  if t.orderedByCreation then (stored.map Row.createdAt).getD now else now

/-- Every column comes back right, and no other row has the time of the row. -/
structure UpsertCareful (pg : Postgres) (t : Table C) (m : Merge C) (given : C → Value) (now : ℕ)
    (rows : List (Row C)) : Prop where
  comes : ∀ c, Comes pg t m given (Tables.lookup t.keyOf (given t.key) rows) c
  time : ∀ r ∈ rows, t.keyOf r ≠ given t.key →
    t.time r ≠ upsertTime t now (Tables.lookup t.keyOf (given t.key) rows)

/-- What an upsert has to be given: a key that is a text, and defaults that the database takes. -/
structure WellFormed (pg : Postgres) (t : Table C) (m : Merge C) (given : C → Value) : Prop where
  key : ∃ s, given t.key = .text s
  type : t.type t.key = .text
  standard : ∀ c, given c = .null → m.standard c ≠ .null ∧ (PgDb.cell pg t c (m.standard c)).isSome

/-- The values of the row, where all comes back right. -/
def settled (m : Merge C) (given : C → Value) (stored : Option (Row C)) (c : C) : Value :=
  (given c).orElse ((stored.map fun r => r.values c).getD (m.standard c))

/-- A column that comes out alike is kept as it is in memory. -/
theorem Comes.cell {c : C} (h : Comes pg t m given stored c) :
    PgDb.cell pg t c ((given c).orElse (m.standard c)) = some (settled m given stored c) := by
  unfold settled
  by_cases hgiven : given c = .null
  · rw [hgiven, orElse_null, orElse_null]
    exact (h.2 hgiven).1
  · rw [orElse_of_ne hgiven, orElse_of_ne hgiven]
    exact h.1 hgiven

theorem WellFormed.parameter_ne_null (h : WellFormed pg t m given) (c : C) :
    (given c).orElse (m.standard c) ≠ .null := by
  by_cases hgiven : given c = .null
  · rw [hgiven, orElse_null]
    exact (h.standard c hgiven).1
  · rwa [orElse_of_ne hgiven]

theorem WellFormed.key_eq (h : WellFormed pg t m given) {excluded : C → Value}
    (hrow : PgDb.row pg t (fun c => (given c).orElse (m.standard c)) = some excluded) :
    excluded t.key = given t.key := by
  obtain ⟨s, hs⟩ := h.key
  have hcell := row_eq_some_iff.mp hrow t.key
  rw [hs, orElse_of_ne (a := .text s) nofun] at hcell
  rw [hs]
  exact eq_of_cell_text h.type hcell

/-- An upsert keeps the rows alike exactly if its own row is. -/
theorem keepsRow_iff {row : Option (Row C) → Row C} (hkey : ∀ r, t.keyOf r = given t.key →
      t.keyOf (row (some r)) = given t.key) (hnone : t.keyOf (row none) = given t.key) :
    KeepsRow t given rows (Tables.upsert t.keyOf (given t.key) row rows) ↔
      ∀ r, Tables.lookup t.keyOf (given t.key) rows = some r → ∀ c, given c = .null →
        (row (some r)).values c = r.values c := by
  unfold KeepsRow
  refine forall_congr' fun r => forall_congr' fun hr => ?_
  rw [Tables.lookup_upsert hnone hkey, hr]
  simp

/-- The row with the key of an upsert, and the others. -/
theorem exists_split {r : Row C} (hrows : Sound pg t rows) (h : Tables.lookup t.keyOf (given t.key) rows = some r) :
    ∃ before after, (∀ row, Tables.upsert t.keyOf (given t.key) row rows = before ++ row (some r) :: after) ∧
      rows.Perm (r :: (before ++ after)) ∧ ∀ r' ∈ before ++ after, t.keyOf r' ≠ given t.key := by
  obtain ⟨before, after, hsplit, hupsert⟩ := Tables.exists_upsert_of_lookup h
  have hperm : rows.Perm (r :: (before ++ after)) := by
    rw [hsplit]
    exact List.perm_middle
  refine ⟨before, after, hupsert, hperm, fun r' hr' heq => ?_⟩
  have hnodup := (hrows.perm hperm).keys
  rw [List.map_cons, List.nodup_cons] at hnodup
  exact hnodup.1 (List.mem_map.mpr ⟨r', hr', heq.trans (lookup_key h).2.symm⟩)

/-- A careful upsert leaves one row in both stores. -/
theorem UpsertCareful.settles (hform : WellFormed pg t m given)
    (h : UpsertCareful pg t m given now rows) :
    PgDb.row pg t (fun c => (given c).orElse (m.standard c)) =
        some (settled m given (Tables.lookup t.keyOf (given t.key) rows)) ∧
      (InMemoryDb.upsertRow m given now (Tables.lookup t.keyOf (given t.key) rows)).values =
        settled m given (Tables.lookup t.keyOf (given t.key) rows) := by
  refine ⟨row_eq_some_iff.mpr fun c => (h.comes c).cell, funext fun c => ?_⟩
  have hcomes := h.comes c
  unfold InMemoryDb.upsertRow settled
  generalize Tables.lookup t.keyOf (given t.key) rows = stored at hcomes ⊢
  cases stored with
  | none => rfl
  | some r =>
    dsimp only [Option.map_some, Option.getD_some]
    by_cases hgiven : given c = .null
    · obtain ⟨hcell, hkept⟩ := hcomes.2 hgiven
      rw [hgiven]
      simp only [orElse_null]
      split
      case isTrue => exact orElse_of_ne (ne_null_of_cell hcell (hform.standard c hgiven).1)
      case isFalse hnot => exact (hkept (Bool.not_eq_true _ ▸ hnot) r rfl).symm
    · simp only [orElse_of_ne hgiven, ite_self]

theorem WellFormed.given_key_ne_null (h : WellFormed pg t m given) : given t.key ≠ .null := by
  obtain ⟨s, hs⟩ := h.key
  rw [hs]
  exact nofun

/-- What is settled on is not changed by the database any more. -/
theorem Comes.fits {c : C} (h : Comes pg t m given stored c)
    (hstored : ∀ r ∈ stored, PgDb.cell pg t c (r.values c) = some (r.values c)) :
    PgDb.cell pg t c (settled m given stored c) = some (settled m given stored c) := by
  unfold settled
  by_cases hgiven : given c = .null
  · rw [hgiven, orElse_null]
    cases stored with
    | none => exact (h.2 hgiven).1
    | some r => exact hstored r rfl
  · rw [orElse_of_ne hgiven]
    exact h.1 hgiven

/-- An upsert in memory keeps the key. -/
theorem WellFormed.keyOf_upsertRow (h : WellFormed pg t m given) (now : ℕ) (existing : Option (Row C)) :
    t.keyOf (InMemoryDb.upsertRow m given now existing) = given t.key := by
  cases existing <;> simp [InMemoryDb.upsertRow, Table.keyOf, orElse_of_ne h.given_key_ne_null]

/-- What is given is what the row in memory has. -/
theorem upsertRow_of_ne {c : C} {r : Row C} (h : given c ≠ .null) :
    (InMemoryDb.upsertRow m given now (some r)).values c = given c := by
  simp only [InMemoryDb.upsertRow, orElse_of_ne h, ite_self]

variable [DecidableEq C]

/-- The statement overwrites every column, since what it proposes is not null. -/
theorem WellFormed.upsertRow_values (h : WellFormed pg t m given) (now : ℕ) {excluded : C → Value} {r : Row C}
    (hrow : PgDb.row pg t (fun c => (given c).orElse (m.standard c)) = some excluded)
    (hkey : t.keyOf r = given t.key) : (PgDb.upsertRow t m now excluded (some r)).values = excluded := by
  funext c
  have hne : excluded c ≠ .null := ne_null_of_cell (row_eq_some_iff.mp hrow c) (h.parameter_ne_null c)
  unfold PgDb.upsertRow
  dsimp only
  split
  case isTrue heq =>
    rw [heq, h.key_eq hrow]
    exact hkey
  case isFalse =>
    rw [coalesce_of_ne hne, ite_self]

/-- The time of a row after an upsert. -/
theorem upsertRow_time {excluded : C → Value} :
    t.time (PgDb.upsertRow t m now excluded stored) = upsertTime t now stored := by
  unfold Table.time upsertTime PgDb.upsertRow
  cases stored <;> rfl

/-- The statement that is not refused. -/
theorem WellFormed.upsert_eq (h : WellFormed pg t m given) {excluded : C → Value}
    (hrow : PgDb.row pg t (fun c => (given c).orElse (m.standard c)) = some excluded) :
    PgDb.upsert pg t m given now rows =
      Tables.upsert t.keyOf (given t.key) (PgDb.upsertRow t m now excluded) rows := by
  unfold PgDb.upsert
  rw [hrow]
  dsimp only
  rw [h.key_eq hrow]

/-- A careful upsert leaves the same rows in both stores, and they are as sound as before. -/
theorem UpsertCareful.agrees (hrows : Sound pg t rows) (hform : WellFormed pg t m given)
    (h : UpsertCareful pg t m given now rows) :
    (KeepsRow t given rows (PgDb.upsert pg t m given now rows) ∧
        KeepsRow t given rows (InMemoryDb.upsert t m given now rows)) ∧
      PgDb.upsert pg t m given now rows = InMemoryDb.upsert t m given now rows ∧
        Sound pg t (InMemoryDb.upsert t m given now rows) := by
  obtain ⟨hrow, hvalues⟩ := h.settles hform
  have hkey := hform.keyOf_upsertRow now
  have hfits : ∀ c, PgDb.cell pg t c (settled m given (Tables.lookup t.keyOf (given t.key) rows) c) =
      some (settled m given (Tables.lookup t.keyOf (given t.key) rows) c) :=
    fun c => (h.comes c).fits fun r hr => hrows.fits r (lookup_key hr).1 c
  have htime := h.time
  have hcomes := h.comes
  rw [hform.upsert_eq hrow]
  cases hlookup : Tables.lookup t.keyOf (given t.key) rows with
  | none =>
    rw [hlookup] at hrow hvalues htime hfits
    have hpg : PgDb.upsertRow t m now (settled m given none) none = InMemoryDb.upsertRow m given now none := rfl
    have hkeeps : ∀ after, KeepsRow t given rows after := fun _ stored hstored => by
      rw [hlookup] at hstored
      cases hstored
    have hcons : Sound pg t (InMemoryDb.upsertRow m given now none :: rows) := by
      refine hrows.cons (fun r hr => ?_) (fun r hr => ?_) hfits
      · rw [hkey]
        exact lookup_none hlookup r hr
      · rw [← hpg, upsertRow_time]
        exact htime r hr (lookup_none hlookup r hr)
    refine ⟨⟨hkeeps _, hkeeps _⟩, ?_, ?_⟩
    · rw [InMemoryDb.upsert, Tables.upsert_of_lookup_none hlookup, Tables.upsert_of_lookup_none hlookup, hpg]
    · rw [InMemoryDb.upsert, Tables.upsert_of_lookup_none hlookup]
      exact hcons.perm (List.perm_append_singleton _ _).symm
  | some r =>
    rw [hlookup] at hrow hvalues htime hfits hcomes
    have hpg : PgDb.upsertRow t m now (settled m given (some r)) (some r) =
        InMemoryDb.upsertRow m given now (some r) := by
      have hsame := (hform.upsertRow_values now hrow (lookup_key hlookup).2).trans hvalues.symm
      unfold PgDb.upsertRow InMemoryDb.upsertRow at hsame ⊢
      exact congrArg (fun values => (⟨values, r.createdAt, now⟩ : Row C)) hsame
    obtain ⟨before, after, hupsert, hperm, hothers⟩ := exists_split hrows hlookup
    have hsame : Tables.upsert t.keyOf (given t.key) (PgDb.upsertRow t m now (settled m given (some r))) rows =
        InMemoryDb.upsert t m given now rows := by
      rw [InMemoryDb.upsert, hupsert, hupsert, hpg]
    have hkept : KeepsRow t given rows (InMemoryDb.upsert t m given now rows) := by
      refine (keepsRow_iff (fun _ _ => hkey _) (hkey none)).mpr fun r' hr' c hgiven => ?_
      obtain rfl := Option.some.inj (hlookup.symm.trans hr')
      rw [hvalues, settled, hgiven, orElse_null]
      rfl
    rw [hsame]
    refine ⟨⟨hkept, hkept⟩, rfl, ?_⟩
    rw [InMemoryDb.upsert, hupsert]
    have hcons : Sound pg t (InMemoryDb.upsertRow m given now (some r) :: (before ++ after)) := by
      refine (hrows.perm hperm).of_cons.cons (fun r' hr' => ?_) (fun r' hr' => ?_) fun c => ?_
      · rw [hkey]
        exact hothers r' hr'
      · rw [← hpg, upsertRow_time]
        exact htime r' (hperm.mem_iff.mpr (List.mem_cons_of_mem _ hr')) (hothers r' hr')
      · rw [hvalues]
        exact hfits c
    exact hcons.perm List.perm_middle.symm

section

variable (hrows : Sound pg t rows) (hform : WellFormed pg t m given)
  (hsame : SameRows t (fun _ => true) (PgDb.upsert pg t m given now rows) (InMemoryDb.upsert t m given now rows))

include hrows hform hsame

/-- Stores that agree after an upsert did not refuse it. -/
theorem exists_row_of_sameRows :
    ∃ excluded, PgDb.row pg t (fun c => (given c).orElse (m.standard c)) = some excluded := by
  cases hrow : PgDb.row pg t fun c => (given c).orElse (m.standard c) with
  | some excluded => exact ⟨excluded, rfl⟩
  | none =>
    exfalso
    have hperm := hsame.perm
    have hpg : PgDb.upsert pg t m given now rows = rows := by
      unfold PgDb.upsert
      rw [hrow]
    rw [hpg] at hperm
    cases hlookup : Tables.lookup t.keyOf (given t.key) rows with
    | none =>
      rw [InMemoryDb.upsert, Tables.upsert_of_lookup_none hlookup] at hperm
      exact absurd hperm.length_eq (by simp)
    | some r =>
      -- What was given is what is stored, and the database took that.
      obtain ⟨before, after, hupsert, hsplit, -⟩ := exists_split hrows hlookup
      rw [InMemoryDb.upsert, hupsert] at hperm
      have hvalues : r.values = (InMemoryDb.upsertRow m given now (some r)).values := by
        have hmiddle := ((hsplit.map Row.values).symm.trans hperm).trans (List.perm_middle.map Row.values)
        exact eq_of_perm_cons hmiddle
      have htaken : ∀ c, (PgDb.cell pg t c ((given c).orElse (m.standard c))).isSome := by
        intro c
        by_cases hgiven : given c = .null
        · rw [hgiven, orElse_null]
          exact (hform.standard c hgiven).2
        · have hcell := hrows.fits r (lookup_key hlookup).1 c
          rw [congrFun hvalues c, upsertRow_of_ne hgiven] at hcell
          rw [orElse_of_ne hgiven, hcell, Option.isSome_some]
      obtain ⟨values, hsome⟩ := exists_row htaken
      rw [hrow] at hsome
      cases hsome

/-- A new row that both stores have is careful. -/
theorem upsertCareful_of_new {excluded : C → Value}
    (hrow : PgDb.row pg t (fun c => (given c).orElse (m.standard c)) = some excluded)
    (hlookup : Tables.lookup t.keyOf (given t.key) rows = none) :
    UpsertCareful pg t m given now rows := by
  have hperm := hsame.perm
  rw [hform.upsert_eq hrow, Tables.upsert_of_lookup_none hlookup] at hperm hsame
  rw [InMemoryDb.upsert, Tables.upsert_of_lookup_none hlookup] at hperm
  have hvalues : excluded = fun c => (given c).orElse (m.standard c) := by
    rw [List.map_append, List.map_append, List.perm_append_left_iff] at hperm
    simpa [PgDb.upsertRow, InMemoryDb.upsertRow] using hperm
  constructor
  · intro c
    rw [hlookup]
    have hcell : PgDb.cell pg t c ((given c).orElse (m.standard c)) = some ((given c).orElse (m.standard c)) :=
      (row_eq_some_iff.mp hrow c).trans (congrArg some (congrFun hvalues c))
    refine ⟨fun hgiven => ?_, fun hgiven => ⟨?_, fun _ r hr => by cases hr⟩⟩
    · rwa [orElse_of_ne hgiven] at hcell
    · rwa [hgiven, orElse_null] at hcell
  · intro r hr _
    rw [hlookup, ← upsertRow_time (m := m)]
    refine hsame.time_ne (List.perm_append_singleton _ _) hrows.keys (fun r hr heq => ?_) r hr
    exact lookup_none hlookup r hr (heq.trans (hform.key_eq hrow))

/-- An upsert of a stored row that keeps what is absent in both stores, and leaves stores that agree, is careful. -/
theorem upsertCareful_of_stored {excluded : C → Value}
    (hrow : PgDb.row pg t (fun c => (given c).orElse (m.standard c)) = some excluded) {r : Row C}
    (hlookup : Tables.lookup t.keyOf (given t.key) rows = some r)
    (hkeepsPg : KeepsRow t given rows (PgDb.upsert pg t m given now rows))
    (hkeepsMem : KeepsRow t given rows (InMemoryDb.upsert t m given now rows)) :
    UpsertCareful pg t m given now rows := by
  have hkey := hform.keyOf_upsertRow now
  have hkept := (keepsRow_iff (fun _ _ => hkey _) (hkey none)).mp hkeepsMem
  have hkeyPg : ∀ r, t.keyOf r = given t.key → t.keyOf (PgDb.upsertRow t m now excluded (some r)) = given t.key :=
    fun r hr => (congrFun (hform.upsertRow_values now hrow hr) t.key).trans (hform.key_eq hrow)
  have hperm := hsame.perm
  rw [hform.upsert_eq hrow] at hkeepsPg hperm hsame
  have hkeptPg := (keepsRow_iff hkeyPg (hform.key_eq hrow)).mp hkeepsPg
  obtain ⟨before, after, hupsert, hsplit, hothers⟩ := exists_split hrows hlookup
  rw [hupsert] at hperm hsame
  rw [InMemoryDb.upsert, hupsert] at hperm
  have hvalues : excluded = (InMemoryDb.upsertRow m given now (some r)).values := by
    have hmiddle := ((List.perm_middle.map Row.values).symm.trans hperm).trans (List.perm_middle.map Row.values)
    rw [← hform.upsertRow_values now hrow (lookup_key hlookup).2]
    exact eq_of_perm_cons hmiddle
  constructor
  · intro c
    rw [hlookup]
    have hcell := row_eq_some_iff.mp hrow c
    refine ⟨fun hgiven => ?_, fun hgiven => ⟨?_, fun hnot r' hr' => ?_⟩⟩
    · rwa [orElse_of_ne hgiven, congrFun hvalues c, upsertRow_of_ne hgiven] at hcell
    · rw [hgiven, orElse_null, ← hform.upsertRow_values now hrow (lookup_key hlookup).2,
        hkeptPg r hlookup c hgiven] at hcell
      exact hcell
    · obtain rfl := Option.some.inj hr'
      rw [← hkept r hlookup c hgiven]
      simp [InMemoryDb.upsertRow, hnot, hgiven]
  · intro r' hr' hne
    rw [hlookup, ← upsertRow_time (m := m)]
    refine hsame.time_ne List.perm_middle (hrows.perm hsplit).of_cons.keys (fun r'' hr'' heq => ?_) r' ?_
    · exact hothers r'' hr'' (heq.trans (hkeyPg r (lookup_key hlookup).2))
    · refine (List.mem_cons.mp (hsplit.mem_iff.mp hr')).resolve_left fun heq => ?_
      exact hne (heq ▸ (lookup_key hlookup).2)

/-- An upsert that keeps what is absent in both stores, and leaves stores that agree, is careful. -/
theorem upsertCareful_of_agrees (hkeepsPg : KeepsRow t given rows (PgDb.upsert pg t m given now rows))
    (hkeepsMem : KeepsRow t given rows (InMemoryDb.upsert t m given now rows)) :
    UpsertCareful pg t m given now rows := by
  obtain ⟨excluded, hrow⟩ := exists_row_of_sameRows hrows hform hsame
  cases hlookup : Tables.lookup t.keyOf (given t.key) rows with
  | none => exact upsertCareful_of_new hrows hform hsame hrow hlookup
  | some r => exact upsertCareful_of_stored hrows hform hsame hrow hlookup hkeepsPg hkeepsMem

end

/-! ## The upserts -/

/-- A default of an upsert: it is not null, and the database takes it. -/
def Takes (pg : Postgres) (t : Table C) (c : C) (standard : Value) : Prop :=
  standard ≠ .null ∧ (PgDb.cell pg t c standard).isSome

omit [DecidableEq C] in
theorem takes_of_column {c : C} {value : Value} (hvalue : value ≠ .null) (h : (pg.column (t.type c) value).isSome) :
    Takes pg t c value := ⟨hvalue, by rwa [PgDb.cell, if_neg hvalue]⟩

theorem JobUpsert.wellFormed (u : JobUpsert) : WellFormed pg auditJobs upsertJob u.given where
  key := ⟨u.jobId, rfl⟩
  type := rfl
  standard c hgiven := by
    cases c with
    | jobId => cases hgiven
    | contractAddress => cases hgiven
    | deployerAddress => exact takes_of_column nofun (pg.plain "" (by decide) (by decide))
    | contractType => exact takes_of_column nofun (pg.plain "unknown" (by decide) (by decide))
    | status => exact takes_of_column nofun (pg.plain "open" (by decide) (by decide))
    | budgetGuard => exact takes_of_column nofun (Option.isSome_of_eq_some pg.realZero)
    | winnerAddresses => exact takes_of_column nofun (Option.isSome_of_eq_some pg.noTexts)
    | findingCount => exact takes_of_column nofun (Option.isSome_of_eq_some pg.integerZero)

theorem AgentUpsert.wellFormed (u : AgentUpsert) : WellFormed pg registeredAgents upsertAgent u.given where
  key := ⟨toLowerCase u.evmAddress, rfl⟩
  type := rfl
  standard c hgiven := by
    cases c with
    | evmAddress => cases hgiven
    | agentId => exact takes_of_column nofun (pg.plain "" (by decide) (by decide))
    | specializations => exact takes_of_column nofun (Option.isSome_of_eq_some pg.noTexts)
    | reputation => exact takes_of_column nofun (Option.isSome_of_eq_some pg.integerZero)
    | tier => exact takes_of_column nofun (pg.plain "standard" (by decide) (by decide))
    | status => exact takes_of_column nofun (pg.plain "active" (by decide) (by decide))
    | stakeGuard => exact takes_of_column nofun (Option.isSome_of_eq_some pg.realZero)

theorem ScheduleUpsert.wellFormed (u : ScheduleUpsert) : WellFormed pg auditSchedules upsertSchedule u.given where
  key := ⟨toLowerCase u.contractAddress, rfl⟩
  type := rfl
  standard c hgiven := by
    cases c with
    | contractAddress => cases hgiven
    | ownerAddress => exact takes_of_column nofun (pg.plain "" (by decide) (by decide))
    | scheduleAddress => exact takes_of_column nofun (pg.plain "" (by decide) (by decide))
    | nextAuditDue => exact takes_of_column nofun (Option.isSome_of_eq_some pg.bigintZero)
    | mode => exact takes_of_column nofun (Option.isSome_of_eq_some pg.integerZero)
    | intervalSeconds => exact takes_of_column nofun (Option.isSome_of_eq_some pg.bigintZero)
    | timesTriggered => exact takes_of_column nofun (Option.isSome_of_eq_some pg.integerZero)
    | active => exact takes_of_column nofun (Option.isSome_of_eq_some (pg.flag true))

theorem VaultUpsert.wellFormed (u : VaultUpsert) : WellFormed pg auditVaults upsertVault u.given where
  key := ⟨toLowerCase u.contractAddress, rfl⟩
  type := rfl
  standard c hgiven := by
    cases c with
    | contractAddress => cases hgiven
    | vaultAddress => cases hgiven
    | creator => exact takes_of_column nofun (pg.plain "" (by decide) (by decide))
    | contractChain => exact takes_of_column nofun (pg.plain "hedera-testnet" (by decide) (by decide))
    | active => exact takes_of_column nofun (Option.isSome_of_eq_some (pg.flag true))

/-! ## Steps -/

/-- An upsert keeps in both stores every field that is absent. -/
def Keeps (s : Stores) (l : Call × ℕ) (s' : Stores) : Prop :=
  match l.1 with
  | .upsertJob u => KeepsRow auditJobs u.given s.pg.auditJobs s'.pg.auditJobs ∧
    KeepsRow auditJobs u.given s.mem.auditJobs s'.mem.auditJobs
  | .upsertAgent u => KeepsRow registeredAgents u.given s.pg.registeredAgents s'.pg.registeredAgents ∧
    KeepsRow registeredAgents u.given s.mem.registeredAgents s'.mem.registeredAgents
  | .upsertSchedule u => KeepsRow auditSchedules u.given s.pg.auditSchedules s'.pg.auditSchedules ∧
    KeepsRow auditSchedules u.given s.mem.auditSchedules s'.mem.auditSchedules
  | .upsertVault u => KeepsRow auditVaults u.given s.pg.auditVaults s'.pg.auditVaults ∧
    KeepsRow auditVaults u.given s.mem.auditVaults s'.mem.auditVaults
  | _ => True

/-- A call for which the stores are interchangeable. -/
def Careful (pg : Postgres) (s : Stores) (l : Call × ℕ) : Prop :=
  match l.1 with
  | .insertEvent e => InsertCareful pg auditEvents (fun _ => true) e.given e.receivedAt s.pg.auditEvents
  | .insertBidSkip b => InsertCareful pg bidSkips s.pg.references b.given b.createdAt s.pg.bidSkips
  | .upsertJob u => UpsertCareful pg auditJobs upsertJob u.given l.2 s.pg.auditJobs
  | .upsertAgent u => UpsertCareful pg registeredAgents upsertAgent u.given l.2 s.pg.registeredAgents
  | .upsertSchedule u => UpsertCareful pg auditSchedules upsertSchedule u.given l.2 s.pg.auditSchedules
  | .upsertVault u => UpsertCareful pg auditVaults upsertVault u.given l.2 s.pg.auditVaults

/-- A store whose tables are sound. -/
structure Store.Sound (pg : Postgres) (db : Store) : Prop where
  auditEvents : EventStore.Sound pg EventStore.auditEvents db.auditEvents
  bidSkips : EventStore.Sound pg EventStore.bidSkips db.bidSkips
  auditJobs : EventStore.Sound pg EventStore.auditJobs db.auditJobs
  registeredAgents : EventStore.Sound pg EventStore.registeredAgents db.registeredAgents
  auditSchedules : EventStore.Sound pg EventStore.auditSchedules db.auditSchedules
  auditVaults : EventStore.Sound pg EventStore.auditVaults db.auditVaults

/-- Two stores with the same sound rows answer alike. -/
theorem Store.Sound.agree {db : Store} (h : db.Sound pg) : Agree db db where
  queryEvents _ _ _ := h.auditEvents.sameRows _
  queryBidSkips _ _ := h.bidSkips.sameRows _
  queryJobs _ _ := h.auditJobs.sameRows _
  getJobById _ := rfl
  queryAgents _ := h.registeredAgents.sameRows _
  querySchedules _ := h.auditSchedules.sameRows _
  queryVaults _ := h.auditVaults.sameRows _

/-- A step from stores with the same tables, which are sound: it keeps what is absent and leaves stores that agree if
and only if it is careful, and then the stores have the same tables again, and these are sound. -/
theorem step_iff {db : Store} (hdb : db.Sound pg) (c : Call) :
    (Keeps ⟨db, db⟩ (c, now) ⟨PgDb.run pg now db c, InMemoryDb.run now db c⟩ ∧
      Agree (PgDb.run pg now db c) (InMemoryDb.run now db c) ↔ Careful pg ⟨db, db⟩ (c, now)) ∧
    (Careful pg ⟨db, db⟩ (c, now) →
      PgDb.run pg now db c = InMemoryDb.run now db c ∧ (InMemoryDb.run now db c).Sound pg) := by
  have hstep : ∀ {keeps careful : Prop}, (keeps ∧ Agree (PgDb.run pg now db c) (InMemoryDb.run now db c) → careful) →
      (careful → keeps ∧ PgDb.run pg now db c = InMemoryDb.run now db c ∧ (InMemoryDb.run now db c).Sound pg) →
      (keeps ∧ Agree (PgDb.run pg now db c) (InMemoryDb.run now db c) ↔ careful) ∧
        (careful → PgDb.run pg now db c = InMemoryDb.run now db c ∧ (InMemoryDb.run now db c).Sound pg) := by
    intro keeps careful hleft hright
    refine ⟨⟨hleft, fun hcareful => ?_⟩, fun hcareful => (hright hcareful).2⟩
    obtain ⟨hkeeps, hsame, hsound⟩ := hright hcareful
    exact ⟨hkeeps, by rw [hsame]; exact hsound.agree⟩
  cases c with
  | insertEvent e =>
    obtain ⟨hiff, hsame⟩ := insert_iff (fun _ => true) e.given e.receivedAt hdb.auditEvents
    refine hstep (fun h => hiff (h.2.queryEvents none none none)) fun hcareful => ⟨trivial, ?_, ?_⟩
    · rw [PgDb.run, InMemoryDb.run, (hsame hcareful).1]
    · exact { hdb with auditEvents := (hsame hcareful).2 }
  | insertBidSkip b =>
    obtain ⟨hiff, hsame⟩ := insert_iff db.references b.given b.createdAt hdb.bidSkips
    refine hstep (fun h => hiff (h.2.queryBidSkips none none)) fun hcareful => ⟨trivial, ?_, ?_⟩
    · rw [PgDb.run, InMemoryDb.run, (hsame hcareful).1]
    · exact { hdb with bidSkips := (hsame hcareful).2 }
  | upsertJob u =>
    refine hstep (fun h => upsertCareful_of_agrees hdb.auditJobs u.wellFormed (h.2.queryJobs none none) h.1.1 h.1.2)
      fun hcareful => ?_
    obtain ⟨hkeeps, hsame, hsound⟩ := hcareful.agrees hdb.auditJobs u.wellFormed
    exact ⟨hkeeps, by rw [PgDb.run, InMemoryDb.run, hsame], { hdb with auditJobs := hsound }⟩
  | upsertAgent u =>
    refine hstep (fun h => upsertCareful_of_agrees hdb.registeredAgents u.wellFormed (h.2.queryAgents none)
      h.1.1 h.1.2) fun hcareful => ?_
    obtain ⟨hkeeps, hsame, hsound⟩ := hcareful.agrees hdb.registeredAgents u.wellFormed
    exact ⟨hkeeps, by rw [PgDb.run, InMemoryDb.run, hsame], { hdb with registeredAgents := hsound }⟩
  | upsertSchedule u =>
    refine hstep (fun h => upsertCareful_of_agrees hdb.auditSchedules u.wellFormed (h.2.querySchedules none)
      h.1.1 h.1.2) fun hcareful => ?_
    obtain ⟨hkeeps, hsame, hsound⟩ := hcareful.agrees hdb.auditSchedules u.wellFormed
    exact ⟨hkeeps, by rw [PgDb.run, InMemoryDb.run, hsame], { hdb with auditSchedules := hsound }⟩
  | upsertVault u =>
    refine hstep (fun h => upsertCareful_of_agrees hdb.auditVaults u.wellFormed (h.2.queryVaults none) h.1.1 h.1.2)
      fun hcareful => ?_
    obtain ⟨hkeeps, hsame, hsound⟩ := hcareful.agrees hdb.auditVaults u.wellFormed
    exact ⟨hkeeps, by rw [PgDb.run, InMemoryDb.run, hsame], { hdb with auditVaults := hsound }⟩

/-! ## The result -/

/-- In a run of calls, every upsert keeps in both stores what is absent, and after each call every query gives the
same rows in both, if and only if all calls are careful. -/
theorem interchangeable_iff (pg : Postgres) {ts : List (Transition Stores (Call × ℕ))} {s : Stores}
    (hr : (system pg).Run ts s) :
    (∀ tr ∈ ts, Keeps tr.src tr.label tr.dst) ∧ Throughout (fun s => Agree s.pg s.mem) ts s ↔
      ∀ tr ∈ ts, Careful pg tr.src tr.label := by
  refine hr.forall_steps_iff (I := fun s => s.pg = s.mem ∧ s.mem.Sound pg) (P := fun s => Agree s.pg s.mem)
    (K := Keeps) ?_ ?_
  · rintro s rfl
    have hsound : Store.empty.Sound pg := ⟨.nil, .nil, .nil, .nil, .nil, .nil⟩
    exact ⟨⟨rfl, hsound⟩, hsound.agree⟩
  · rintro ⟨pgDb, mem⟩ ⟨c, now⟩ s' _ ⟨hsame, hsound⟩ rfl
    dsimp only at hsame hsound
    rw [hsame]
    exact step_iff hsound c

/-- The columns of PostgreSQL on texts, flags and whole numbers, also as texts where it gives these back. The values
that it would round or convert are left out. -/
def sampleColumn : ColumnType → Value → Option Value
  | .text, .text s => if Char.ofNat 0 ∈ s.toList then none else some (.text s)
  | .textArray, .texts l => if l.any fun s => Char.ofNat 0 ∈ s.toList then none else some (.texts l)
  | .real, .number x => if x.den = 1 ∧ |x| ≤ 2 ^ 24 then some (.number x) else none
  | .integer, .number x => if x.den = 1 ∧ -2 ^ 31 ≤ x ∧ x < 2 ^ 31 then some (.number x) else none
  | .bigint, .number x => if x.den = 1 ∧ -2 ^ 63 ≤ x ∧ x < 2 ^ 63 then some (.text (toString x.num)) else none
  | .bigint, .text s =>
    if s.toList.all Char.isDigit ∧ s.toList.head? ≠ some '0' ∧ s ≠ "" ∧ s.length ≤ 18 then some (.text s) else none
  | .boolean, .flag b => some (.flag b)
  | _, _ => none

/-- A database with these columns. -/
def samplePostgres : Postgres where
  column := sampleColumn
  notNull {type value} h := by
    unfold sampleColumn at h
    split at h <;> simp_all
  text h := by
    simp only [sampleColumn, Option.ite_none_left_eq_some, Option.some.injEq] at h
    exact h.2.symm
  plain s _ h := by
    have hnul : Char.ofNat 0 ∉ s.toList := fun hmem => absurd (List.all_eq_true.mp h _ hmem) (by decide)
    rw [sampleColumn, if_neg hnul, Option.isSome_some]
  noTexts := by decide +kernel
  realZero := by decide +kernel
  integerZero := by decide +kernel
  bigintZero := by decide +kernel
  flag _ := rfl

/-- A job without the address of its deployer. -/
def sampleJob (status : String) : JobUpsert :=
  ⟨"1", "0xa", none, some "vault", some status, .number 5, some [], .number 0⟩

instance {stored : Option (Row C)} {c : C} : Decidable (Comes pg t m given stored c) :=
  inferInstanceAs (Decidable (_ ∧ _))

/-- A bid skip after its event, and a job that is stored twice with the fields that it has. -/
theorem interchangeable_sample : ∃ ts s, (system samplePostgres).Run ts s ∧ s.pg.auditJobs.length = 1 ∧
    s.pg.bidSkips.length = 1 ∧ (∀ tr ∈ ts, Keeps tr.src tr.label tr.dst) ∧
      Throughout (fun s => Agree s.pg s.mem) ts s := by
  have hstart : (system samplePostgres).Run [] ⟨.empty, .empty⟩ := .init rfl
  have hevent := hstart.step
    (l := (.insertEvent ⟨"e", "hcs", "0.0.1", "BID_SKIPPED", "a", .text "1700000000000", "", "", 1⟩, 1)) rfl
  have hskip := hevent.step
    (l := (.insertBidSkip ⟨"s", "e", .number 1, "a", some "BUDGET", none, .number 5, .null, 2⟩, 2)) rfl
  have hjob := hskip.step (l := (.upsertJob (sampleJob "open"), 3)) rfl
  have hr := hjob.step (l := (.upsertJob (sampleJob "settled"), 4)) rfl
  refine ⟨_, _, hr, by decide +kernel, by decide +kernel, (interchangeable_iff samplePostgres hr).mpr fun tr htr => ?_⟩
  simp only [List.cons_append, List.nil_append, List.mem_cons, List.not_mem_nil, or_false] at htr
  rcases htr with rfl | rfl | rfl | rfl
  · exact .inr ⟨fun c => by cases c <;> decide +kernel, rfl, by decide +kernel⟩
  · exact .inr ⟨fun c => by cases c <;> decide +kernel, by decide +kernel, by decide +kernel⟩
  · exact ⟨fun c => by cases c <;> decide +kernel, by decide +kernel⟩
  · exact ⟨fun c => by cases c <;> decide +kernel, by decide +kernel⟩

/-- A job whose status is updated: the database forgets the type of its contract. -/
theorem not_interchangeable_omitted : ¬ ∀ pg ts s, (system pg).Run ts s →
    (∀ tr ∈ ts, Keeps tr.src tr.label tr.dst) ∧ Throughout (fun s => Agree s.pg s.mem) ts s := by
  intro hall
  have hstart : (system samplePostgres).Run [] ⟨.empty, .empty⟩ := .init rfl
  have hjob := hstart.step (l := (.upsertJob (sampleJob "open"), 1)) rfl
  have hr := hjob.step (l := (.upsertJob ⟨"1", "0xa", none, none, some "settled", .null, none, .null⟩, 2)) rfl
  have hagree := (hall _ _ _ hr).2.2.getJobById "1"
  exact absurd (congrArg (Option.map fun values => values JobColumn.contractType) hagree) (by decide +kernel)

end AuditGuard.EventStore
