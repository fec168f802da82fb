import AuditGuard.Library.ValueMap

/-!
# The store of the orchestrator's state

The orchestrator keeps its roster and its cache of recent discoveries in a table (`orchestrator/src/state-store.js`,
`orchestrator/src/migrations/002_add_orchestrator_state.sql`, `loadPersistedState` and `savePersistedState` of
`orchestrator/src/orchestrator.js`). The column is `JSONB`: it takes a JSON text, and the driver gives its value back.
All errors are caught and logged.

## What a restart restores

The value of a `JSONB` column comes back as an array, and `JSON.parse` makes a text of it first, in which the strings
are no longer between quotation marks (`same_load_save_iff`).
-/

namespace AuditGuard.StateStore

section

/-- The rows of `orchestrator_state`: the value of every key. -/
abbrev Database := OrderedMap String Json

/-- A map of the orchestrator: an agent id and its agent, or a contract and the time when it was discovered. -/
abbrev Entries := OrderedMap String Json

/-- `Array.from(map.entries())`. -/
def array (m : Entries) : Json := .array (m.entries.map fun e => .array [.string e.1, e.2])

/-- Writes `JSON.stringify(Array.from(map.entries()))` under a key, over the value that is there. Without a database
nothing happens. -/
def save (key : String) (m : Entries) (db : Option Database) : Option Database :=
  db.map fun db => db.set key (array m).roundTrip

/-- `new Map(JSON.parse(value))` of the value under a key. The map is empty without a database, without a row, and
after an error. -/
def load (key : String) (db : Option Database) : ValueMap :=
  match db.bind fun db => db.get key with
  | none => .empty
  | some value => ((value.asText.bind Json.parse).bind ValueMap.ofValue).getD .empty

/-- `saveRoster(roster)`. -/
def saveRoster : Entries → Option Database → Option Database := save "roster"

/-- `loadRoster()`. -/
def loadRoster : Option Database → ValueMap := load "roster"

/-- `saveEventCache(cache)`. -/
def saveEventCache : Entries → Option Database → Option Database := save "eventCache"

/-- `loadEventCache()`. -/
def loadEventCache : Option Database → ValueMap := load "eventCache"

/-! ## The orchestrator -/

/-- The maps of a running orchestrator. -/
structure State where
  /-- `roster.agents`. -/
  agents : ValueMap
  recentDiscovery : ValueMap

/-- The maps of an orchestrator that was just constructed. -/
def State.fresh : State := ⟨.empty, .empty⟩

/-- `loadPersistedState()`. -/
def State.loadPersistedState (db : Option Database) (s : State) : State :=
  let persistedRoster := loadRoster db
  let s := if 0 < persistedRoster.entries.length then { s with agents := persistedRoster } else s
  let persistedCache := loadEventCache db
  if 0 < persistedCache.entries.length then { s with recentDiscovery := persistedCache } else s

/-- `savePersistedState()` with the given roster and cache. -/
def savePersistedState (agents recentDiscovery : Entries) (db : Option Database) : Option Database :=
  saveEventCache recentDiscovery (saveRoster agents db)

end

section

/-- The map that was loaded has the entries of the map that was saved. -/
def Same (loaded : ValueMap) (saved : Entries) : Prop :=
  loaded.entries.Perm (saved.entries.map fun e => (.string e.1, some e.2))

/-- Saving and loading gives both maps back, and so does a restart of the orchestrator. -/
def Survives (db : Database) (roster cache : Entries) : Prop :=
  let saved := savePersistedState roster cache (some db)
  let restored := State.fresh.loadPersistedState saved
  Same (loadRoster (saveRoster roster (some db))) roster ∧
    Same (loadEventCache (saveEventCache cache (some db))) cache ∧
    Same restored.agents roster ∧ Same restored.recentDiscovery cache

variable {db : Database} {key : String} {m roster cache : Entries}

theorem same_empty_iff : Same .empty m ↔ m.entries = [] := by
  unfold Same
  constructor
  · intro h
    exact List.map_eq_nil_iff.mp h.nil_eq.symm
  · intro h
    rw [h]
    exact .nil

theorem load_save (key : String) (m : Entries) (db : Database) :
    load key (save key m (some db)) =
      (((array m).roundTrip.asText.bind Json.parse).bind ValueMap.ofValue).getD .empty := by
  unfold load save
  rw [Option.map_some, Option.bind_some, OrderedMap.get_set, if_pos rfl]

theorem strings_array (es : List (String × Json)) :
    Json.stringsOfElements (es.map fun e => .array [.string e.1, e.2]) = es.flatMap fun e => e.1 :: e.2.strings := by
  induction es with
  | nil => rfl
  | cons e es ih =>
    rw [List.map_cons, Json.stringsOfElements, ih, List.flatMap_cons]
    simp [Json.strings, Json.stringsOfElements]

theorem total_of_same {loaded : ValueMap} (h : Same loaded m) :
    loaded.total = written (m.entries.flatMap fun e => e.1 :: e.2.strings) := by
  unfold ValueMap.total
  rw [(h.map _).sum_eq, List.map_map]
  induction m.entries with
  | nil => rfl
  | cons e es ih =>
    rw [List.map_cons, List.sum_cons, ih, List.flatMap_cons, written_append, written_cons]
    rfl

/-- What is loaded after a save is the saved map only if that is empty. -/
theorem same_load_save_iff : Same (load key (save key m (some db))) m ↔ m.entries = [] := by
  constructor
  case mpr =>
    intro hempty
    have harray : array m = .array [] := by
      unfold array
      rw [hempty]
      rfl
    -- the text of no elements is empty, and that is no JSON text
    have hload : load key (save key m (some db)) = .empty := by
      rw [load_save, harray]
      rfl
    rw [hload]
    exact same_empty_iff.mpr hempty
  case mp =>
    intro hsame
    rw [load_save] at hsame
    by_contra hne
    cases htext : (array m).roundTrip.asText with
    | none =>
      rw [htext] at hsame
      exact hne (same_empty_iff.mp hsame)
    | some t =>
      rw [htext, Option.bind_some] at hsame
      cases hparse : (Json.parse t).bind ValueMap.ofValue with
      | none =>
        rw [hparse] at hsame
        exact hne (same_empty_iff.mp hsame)
      | some loaded =>
        rw [hparse] at hsame
        obtain ⟨value, hvalue, hloaded⟩ := Option.bind_eq_some_iff.mp hparse
        set ss := m.entries.flatMap fun e => e.1 :: e.2.strings with hss
        have hstrings : (array m).roundTrip.strings = ss := (Json.strings_roundTrip _).trans (strings_array m.entries)
        have htotal : loaded.total = written ss := total_of_same hsame
        -- every string has two marks more in the text that was read than in the text of the value
        have hmarks : written ss ≤ plain ss := calc
          written ss = loaded.total := htotal.symm
          _ ≤ written value.strings := ValueMap.total_ofValue_le hloaded
          _ ≤ marks t := Json.written_of_parse hvalue
          _ ≤ plain (array m).roundTrip.strings := Json.marks_asText_le _ _ htext
          _ = plain ss := by rw [hstrings]
        have hlength : ss.length = 0 := by
          have heq : written ss = plain ss + 2 * ss.length := written_eq
          omega
        have hflat : ∀ e ∈ m.entries, e.1 :: e.2.strings = [] :=
          List.flatMap_eq_nil_iff.mp (List.length_eq_zero_iff.mp hlength)
        obtain ⟨e, he⟩ := List.exists_mem_of_ne_nil _ hne
        cases hflat e he

theorem load_save_of_ne {k : String} (h : key ≠ k) (db : Option Database) : load key (save k m db) = load key db := by
  unfold load save
  cases db with
  | none => rfl
  | some db => rw [Option.map_some, Option.bind_some, Option.bind_some, OrderedMap.get_set, if_neg h]

theorem loadPersistedState_fresh (db : Option Database) :
    State.fresh.loadPersistedState db = ⟨loadRoster db, loadEventCache db⟩ := by
  have hempty : ∀ m : ValueMap, ¬ 0 < m.entries.length → m = .empty := by
    rintro ⟨entries, nodup⟩ h
    obtain rfl := List.length_eq_zero_iff.mp (Nat.eq_zero_of_not_pos h)
    rfl
  unfold State.loadPersistedState
  dsimp only
  split_ifs with hroster hcache hcache
  · rfl
  · rw [hempty _ hcache]
    rfl
  · rw [hempty _ hroster]
    rfl
  · rw [hempty _ hroster, hempty _ hcache]
    rfl

/-- The state survives a restart if and only if both maps are empty. -/
theorem survives_iff (db : Database) (roster cache : Entries) :
    Survives db roster cache ↔ roster.entries = [] ∧ cache.entries = [] := by
  have hroster : loadRoster (savePersistedState roster cache (some db)) = loadRoster (saveRoster roster (some db)) := by
    unfold loadRoster savePersistedState saveEventCache
    exact load_save_of_ne (by decide) _
  have hcache : Same (loadEventCache (savePersistedState roster cache (some db))) cache ↔ cache.entries = [] :=
    @same_load_save_iff (db.set "roster" (array roster).roundTrip) _ _
  unfold Survives
  dsimp only
  rw [loadPersistedState_fresh, hcache, hroster]
  unfold loadRoster saveRoster loadEventCache saveEventCache
  rw [same_load_save_iff, same_load_save_iff]
  tauto

/-- A roster of one agent is lost. -/
theorem not_survives_one_agent :
    ¬ ∀ (db : Database) (roster cache : Entries), Survives db roster cache := by
  intro h
  have hsame := (h .empty (OrderedMap.empty.set "agent-1" (.object [("stake", .number (.finite 100))])) .empty).1
  have hlost : (loadRoster (saveRoster (OrderedMap.empty.set "agent-1" (.object [("stake", .number (.finite 100))]))
      (some .empty))).entries.length = 0 := by
    decide +kernel
  rw [hsame.length_eq] at hlost
  exact absurd hlost (by decide)

end

end AuditGuard.StateStore
