import AuditGuard.Library.JsonText
import AuditGuard.Library.OrderedMap

/-!
# Maps that are made of values

The map that a program makes of the entries in a value (`ValueMap.ofValue`). The keys and the values of the map are
parts of that value, so the strings in it were all written there (`ValueMap.total_ofValue_le`).
-/

/-- A key of a map. An array or an object is no other key, so its position among the entries stands for it. -/
inductive MapKey
  | undefined
  | null
  | bool (b : Bool)
  | number (x : Number)
  | string (s : String)
  | reference (position : ℕ)
deriving DecidableEq

/-- A map from values to values; `none` is a value that is not there. -/
abbrev ValueMap := OrderedMap MapKey (Option Json)

namespace ValueMap

/-- The key that the value at a position is. -/
def key (position : ℕ) : Option Json → MapKey
  | none => .undefined
  | some .null => .null
  | some (.bool b) => .bool b
  | some (.number x) => .number x
  | some (.string s) => .string s
  | some (.array _) | some (.object _) => .reference position

/-- The key and the value of an entry: its properties `0` and `1`. What is no object is no entry. -/
def entry : Json → Option (Option Json × Option Json)
  | .array elements => some (elements[0]?, elements[1]?)
  | .object members => some (members.lookup "0", members.lookup "1")
  | _ => none

/-- Writes the entries from a position on into the map. -/
def ofEntries : ℕ → List Json → ValueMap → Option ValueMap
  | _, [], m => some m
  | position, e :: es, m => do
    let (k, v) ← entry e
    ofEntries (position + 1) es (m.set (key position k) v)

/-- `new Map(value)`; a value that has no entries throws. -/
def ofValue : Json → Option ValueMap
  | .null => some .empty
  | .string s => if s = "" then some .empty else none
  | .array elements => ofEntries 0 elements .empty
  | _ => none

/-! ## What a map is made of -/

/-- What the strings of a value are written with, if it is there. -/
def weight (v : Option Json) : ℕ := v.elim 0 fun v => written v.strings

/-- What the key of an entry is written with. -/
def keyWeight : MapKey → ℕ
  | .string s => marks s.toList + 2
  | _ => 0

/-- What the entries of a map are written with. -/
def total (m : ValueMap) : ℕ := (m.entries.map fun e => keyWeight e.1 + weight e.2).sum

theorem keyWeight_key_le (position : ℕ) (v : Option Json) : keyWeight (key position v) ≤ weight v := by
  cases v with
  | none => exact le_rfl
  | some v =>
    cases v with
    | string s => exact le_rfl
    | null | bool b | number x | array elements | object members => exact Nat.zero_le _

theorem weight_lookup_le (k : String) (ms : List (String × Json)) :
    weight (ms.lookup k) ≤ written (Json.stringsOfMembers ms) := by
  induction ms with
  | nil => exact le_rfl
  | cons m ms ih =>
    obtain ⟨name, v⟩ := m
    rw [Json.stringsOfMembers, written_cons, written_append, List.lookup_cons]
    split
    · change written v.strings ≤ _
      omega
    · omega

/-- The key and the value of an entry are parts of it. -/
theorem weight_entry_le {e : Json} {k v : Option Json} (h : entry e = some (k, v)) :
    weight k + weight v ≤ written e.strings := by
  cases e with
  | array elements =>
    obtain ⟨rfl, rfl⟩ := Prod.mk.inj (Option.some.inj h)
    change weight elements[0]? + weight elements[1]? ≤ written (Json.stringsOfElements elements)
    cases elements with
    | nil => exact le_rfl
    | cons a elements =>
      cases elements with
      | nil =>
        rw [Json.stringsOfElements, Json.stringsOfElements, List.append_nil]
        exact le_rfl
      | cons b elements =>
        rw [Json.stringsOfElements, Json.stringsOfElements, written_append, written_append]
        change written a.strings + written b.strings ≤ _
        omega
  | object members =>
    obtain ⟨rfl, rfl⟩ := Prod.mk.inj (Option.some.inj h)
    change _ ≤ written (Json.stringsOfMembers members)
    induction members with
    | nil => exact le_rfl
    | cons m members ih =>
      obtain ⟨name, v⟩ := m
      have hkey := weight_lookup_le "0" members
      have hvalue := weight_lookup_le "1" members
      have ih := ih rfl
      rw [Json.stringsOfMembers, written_cons, written_append, List.lookup_cons, List.lookup_cons]
      split
      · next hzero =>
        -- a property with the name `0` has not the name `1`
        obtain rfl := eq_of_beq hzero
        change written v.strings + weight (members.lookup "1") ≤ _
        omega
      · split
        · change weight (members.lookup "0") + written v.strings ≤ _
          omega
        · omega
  | null | bool b | number x | string s => cases h

theorem total_ofEntries_le {position : ℕ} {es : List Json} {m m' : ValueMap} (h : ofEntries position es m = some m') :
    m'.total ≤ m.total + written (Json.stringsOfElements es) := by
  induction es generalizing position m with
  | nil =>
    obtain rfl := Option.some.inj h
    exact Nat.le_add_right _ _
  | cons e es ih =>
    unfold ofEntries at h
    simp only [Option.bind_eq_bind, Option.bind_eq_some_iff] at h
    obtain ⟨⟨k, v⟩, hentry, h⟩ := h
    have hle := ih h
    have hset : ValueMap.total (m.set (key position k) v) ≤ m.total + (keyWeight (key position k) + weight v) :=
      OrderedMap.sum_map_set_le (fun e => keyWeight e.1 + weight e.2) m (key position k) v
    have hkey := keyWeight_key_le position k
    have hparts := weight_entry_le hentry
    rw [Json.stringsOfElements, written_append]
    dsimp only at hle
    omega

theorem total_ofValue_le {v : Json} {m : ValueMap} (h : ofValue v = some m) : m.total ≤ written v.strings := by
  cases v with
  | null =>
    obtain rfl := Option.some.inj h
    exact Nat.zero_le _
  | string s =>
    change (if s = "" then some OrderedMap.empty else none) = some m at h
    split at h
    · obtain rfl := Option.some.inj h
      exact Nat.zero_le _
    · cases h
  | array elements => exact le_of_le_of_eq (total_ofEntries_le h) (Nat.zero_add _)
  | bool b | number x | object members => cases h

end ValueMap
