import Mathlib.Algebra.BigOperators.Group.List.Basic
import Mathlib.Data.List.TakeWhile
import Mathlib.Data.Rat.Lemmas

/-!
# JSON values and their texts

The values that messages are made of, as a program sees them: a property that an object does not have is `none`. A
value that is written as text and read again is the same, but for the infinities, which have no text and come back as
`null` (`roundTrip`). A property that is `none` is not written.

The second part has what a program makes of a value when it needs a text (`Json.asText`: the elements of an array with
commas between them, no members of an object), and the reader of JSON texts (`Json.parse`). The two do not fit
together: every string that a JSON text holds stands between two quotation marks, and a character that is a mark itself
is written with a mark (`Json.written_of_parse`), while `Json.asText` adds none (`Json.marks_asText_le`).
-/

/-- A number of a program, but for `NaN`. -/
inductive Number
  | finite (x : ℚ)
  | infinite (negative : Bool)
deriving DecidableEq

/-- A value. -/
inductive Json
  | null
  | bool (b : Bool)
  | number (x : Number)
  | string (s : String)
  | array (elements : List Json)
  | object (members : List (String × Json))

namespace Json

mutual

/-- The value that is read after it was written. -/
def roundTrip : Json → Json
  | .null => .null
  | .bool b => .bool b
  | .number (.finite x) => .number (.finite x)
  | .number (.infinite _) => .null
  | .string s => .string s
  | .array elements => .array (roundTripElements elements)
  | .object members => .object (roundTripMembers members)

/-- The elements of an array. -/
def roundTripElements : List Json → List Json
  | [] => []
  | v :: vs => v.roundTrip :: roundTripElements vs

/-- The members of an object. -/
def roundTripMembers : List (String × Json) → List (String × Json)
  | [] => []
  | (key, v) :: ms => (key, v.roundTrip) :: roundTripMembers ms

end

/-- A property. -/
def get (v : Json) (key : String) : Option Json :=
  match v with
  | .object members => members.lookup key
  | _ => none

/-- An object with the properties that are there. -/
def fields (properties : List (String × Option Json)) : Json :=
  .object (properties.filterMap fun p => p.2.map fun v => (p.1, v))

/-- `value ?? other`. -/
def orElse (value other : Option Json) : Option Json :=
  match value with
  | none | some .null => other
  | some v => some v

variable {v w : Json} {key : String} {value other : Option Json} {properties : List (String × Option Json)}

theorem get_roundTrip : v.roundTrip.get key = (v.get key).map roundTrip := by
  cases v with
  | object members =>
    change (roundTripMembers members).lookup key = (members.lookup key).map roundTrip
    induction members with
    | nil => rfl
    | cons m members ih =>
      obtain ⟨k, v⟩ := m
      unfold roundTripMembers
      rw [List.lookup_cons, List.lookup_cons]
      cases key == k with
      | true => rfl
      | false => exact ih
  | number x =>
    cases x with
    | finite x => rfl
    | infinite negative => rfl
  | null | bool b | string s | array elements => rfl

theorem exists_orElse (value : Option Json) (v : Json) : ∃ w, orElse value (some v) = some w := by
  unfold orElse
  split
  · exact ⟨v, rfl⟩
  · exact ⟨v, rfl⟩
  · exact ⟨_, rfl⟩

theorem get_fields_self (hnew : key ∉ properties.map Prod.fst) :
    (fields ((key, value) :: properties)).get key = value := by
  cases value with
  | some v => exact List.lookup_cons_self
  | none =>
    change (properties.filterMap _).lookup key = none
    refine List.lookup_eq_none_iff.mpr fun p hp => ?_
    obtain ⟨q, hq, hsome⟩ := List.mem_filterMap.mp hp
    obtain ⟨v, -, rfl⟩ := Option.map_eq_some_iff.mp hsome
    simp only [bne_iff_ne, ne_eq]
    rintro rfl
    exact hnew (List.mem_map_of_mem hq)

theorem get_fields_of_ne {k : String} (hne : key ≠ k) :
    (fields ((k, value) :: properties)).get key = (fields properties).get key := by
  cases value with
  | some v =>
    change List.lookup key ((k, v) :: properties.filterMap _) = _
    rw [List.lookup_cons, beq_false_of_ne hne]
    rfl
  | none => rfl

end Json

/-- The characters that a JSON text writes with a backslash before them. -/
def isMark (c : Char) : Bool := c == '"' || c == '\\'

/-- The number of marks in a text. -/
def marks (t : List Char) : ℕ := t.countP isMark

/-! ## From values to texts -/

namespace Number

/-- Takes the zeros off the end of a decimal number `s * 10 ^ e`. -/
def strip : ℕ → ℕ → ℤ → ℕ × ℤ
  | 0, s, e => (s, e)
  | fuel + 1, s, e => if s % 10 = 0 then strip fuel (s / 10) (e + 1) else (s, e)

/-- The digits and the exponent of a number that is not zero. The number of places after the point is not more than
the length of the denominator: a number of a program is a decimal number. -/
def decimal (x : ℚ) : ℕ × ℤ :=
  let places := ((List.range (x.den.log2 + 1)).find? fun p => x.den ∣ 10 ^ p).getD (x.den.log2 + 1)
  let s := x.num.natAbs * 10 ^ places / x.den
  strip s s (-places)

/-- The text of a number that is positive. -/
def magnitude (x : ℚ) : List Char :=
  let (s, e) := decimal x
  let digits := Nat.toDigits 10 s
  let k : ℤ := digits.length
  let n := k + e
  if k ≤ n ∧ n ≤ 21 then digits ++ List.replicate (n - k).toNat '0'
  else if 0 < n ∧ n ≤ 21 then digits.take n.toNat ++ '.' :: digits.drop n.toNat
  else if -6 < n ∧ n ≤ 0 then ['0', '.'] ++ List.replicate (-n).toNat '0' ++ digits
  else
    let exponent := (if 0 < n then ['e', '+'] else ['e', '-']) ++ Nat.toDigits 10 (n - 1).natAbs
    if k = 1 then digits ++ exponent else digits.take 1 ++ '.' :: digits.drop 1 ++ exponent

/-- `String(x)`. -/
def asText : Number → List Char
  | .finite x => if x = 0 then ['0'] else (if x < 0 then ['-'] else []) ++ magnitude x
  | .infinite negative => (if negative then ['-'] else []) ++ "Infinity".toList

end Number

namespace Json

mutual

/-- `String(value)`. An object that has a property `toString` of its own has no text. -/
def asText : Json → Option (List Char)
  | .null => some "null".toList
  | .bool b => some (if b then "true".toList else "false".toList)
  | .number x => some x.asText
  | .string s => some s.toList
  | .array elements => joined elements
  | .object members => if members.any fun m => m.1 == "toString" then none else some "[object Object]".toList

/-- `elements.join(",")`. -/
def joined : List Json → Option (List Char)
  | [] => some []
  | v :: vs =>
    (if v matches .null then some [] else v.asText).bind fun t =>
      (joined vs).map fun ts => if vs.isEmpty then t else t ++ ',' :: ts

end

mutual

/-- All strings of a value, the names of properties with them. -/
def strings : Json → List String
  | .null | .bool _ | .number _ => []
  | .string s => [s]
  | .array elements => stringsOfElements elements
  | .object members => stringsOfMembers members

/-- All strings of the elements. -/
def stringsOfElements : List Json → List String
  | [] => []
  | v :: vs => v.strings ++ stringsOfElements vs

/-- All strings of the members. -/
def stringsOfMembers : List (String × Json) → List String
  | [] => []
  | (key, v) :: ms => key :: (v.strings ++ stringsOfMembers ms)

end

end Json

/-! ## From texts to values -/

namespace JsonText

/-- Characters between two tokens. -/
def isSpace (c : Char) : Bool := c == ' ' || c == '\t' || c == '\n' || c == '\r'

/-- What follows the space. -/
def skip (t : List Char) : List Char := t.dropWhile isSpace

/-- The digit that a hexadecimal character stands for. -/
def hexDigit (c : Char) : Option ℕ :=
  if c.isDigit then some (c.toNat - '0'.toNat)
  else if 'a' ≤ c ∧ c ≤ 'f' then some (c.toNat - 'a'.toNat + 10)
  else if 'A' ≤ c ∧ c ≤ 'F' then some (c.toNat - 'A'.toNat + 10)
  else none

/-- The code that four hexadecimal characters stand for. -/
def hexCode : List Char → Option (ℕ × List Char)
  | a :: b :: c :: d :: t => do
    let a ← hexDigit a
    let b ← hexDigit b
    let c ← hexDigit c
    let d ← hexDigit d
    some (((a * 16 + b) * 16 + c) * 16 + d, t)
  | _ => none

/-- The character after `\u`: one code, or two for a character above the first `2 ^ 16`. -/
def unicode (t : List Char) : Option (Char × List Char) := do
  let (high, t) ← hexCode t
  if 0xD800 ≤ high ∧ high < 0xDC00 then
    match t with
    | '\\' :: 'u' :: t => do
      let (low, t) ← hexCode t
      if 0xDC00 ≤ low ∧ low < 0xE000 then
        some (Char.ofNat (0x10000 + (high - 0xD800) * 0x400 + (low - 0xDC00)), t)
      else none
    | _ => none
  else if 0xDC00 ≤ high ∧ high < 0xE000 then none
  else some (Char.ofNat high, t)

/-- The character after a backslash. -/
def escape : List Char → Option (Char × List Char)
  | '"' :: t => some ('"', t)
  | '\\' :: t => some ('\\', t)
  | '/' :: t => some ('/', t)
  | 'b' :: t => some ('\x08', t)
  | 'f' :: t => some ('\x0c', t)
  | 'n' :: t => some ('\n', t)
  | 'r' :: t => some ('\r', t)
  | 't' :: t => some ('\t', t)
  | 'u' :: t => unicode t
  | _ => none

/-- The characters of a string up to its closing mark. -/
def characters : ℕ → List Char → Option (List Char × List Char)
  | 0, _ | _, [] => none
  | fuel + 1, c :: t =>
    if c = '"' then some ([], t)
    else if c = '\\' then do
      let (d, t) ← escape t
      let (s, t) ← characters fuel t
      some (d :: s, t)
    else if c.toNat < 32 then none
    else do
      let (s, t) ← characters fuel t
      some (c :: s, t)

/-- A string, from its opening mark. -/
def string : List Char → Option (String × List Char)
  | '"' :: t => (characters t.length t).map (Prod.map String.ofList id)
  | _ => none

/-- At least one digit: their number and what they stand for. -/
def digits (t : List Char) : Option ((ℕ × ℕ) × List Char) :=
  let ds := t.takeWhile Char.isDigit
  if ds = [] then none
  else some ((ds.length, ds.foldl (fun n d => 10 * n + (d.toNat - '0'.toNat)) 0), t.dropWhile Char.isDigit)

/-- The digits before the point: no zero comes first. -/
def whole : List Char → Option (ℕ × List Char)
  | '0' :: t => some (0, t)
  | t => (digits t).map (Prod.map Prod.snd id)

/-- The digits after the point. -/
def fraction : List Char → Option (ℚ × List Char)
  | '.' :: t => (digits t).map (Prod.map (fun ds => (ds.2 / 10 ^ ds.1 : ℚ)) id)
  | t => some (0, t)

/-- The power of ten. -/
def power : List Char → Option (ℚ × List Char)
  | 'e' :: t | 'E' :: t =>
    match t with
    | '+' :: t => (digits t).map (Prod.map (fun ds => (10 ^ ds.2 : ℚ)) id)
    | '-' :: t => (digits t).map (Prod.map (fun ds => (1 / 10 ^ ds.2 : ℚ)) id)
    | t => (digits t).map (Prod.map (fun ds => (10 ^ ds.2 : ℚ)) id)
  | t => some (1, t)

/-- A number that has no sign. -/
def unsigned (t : List Char) : Option (ℚ × List Char) := do
  let (n, t) ← whole t
  let (x, t) ← fraction t
  let (p, t) ← power t
  some ((n + x) * p, t)

/-- A number. -/
def number : List Char → Option (ℚ × List Char)
  | '-' :: t => (unsigned t).map (Prod.map Neg.neg id)
  | t => unsigned t

/-- A value that is a word. -/
def word : List Char → Option (Json × List Char)
  | 'n' :: 'u' :: 'l' :: 'l' :: t => some (.null, t)
  | 't' :: 'r' :: 'u' :: 'e' :: t => some (.bool true, t)
  | 'f' :: 'a' :: 'l' :: 's' :: 'e' :: t => some (.bool false, t)
  | _ => none

/-- A value that has no parts. -/
def scalar (t : List Char) : Option (Json × List Char) :=
  ((string t).map (Prod.map Json.string id)).or
    ((word t).or ((number t).map (Prod.map (fun x => .number (.finite x)) id)))

mutual

/-- A value. -/
def value : ℕ → List Char → Option (Json × List Char)
  | 0, _ => none
  | fuel + 1, t =>
    match skip t with
    | '[' :: t => (elements fuel t).map (Prod.map Json.array id)
    | '\x7b' :: t => (members fuel t).map (Prod.map Json.object id)
    | t => scalar t

/-- The elements of an array, from its bracket. -/
def elements : ℕ → List Char → Option (List Json × List Char)
  | 0, _ => none
  | fuel + 1, t =>
    match skip t with
    | ']' :: t => some ([], t)
    | t => do
      let (v, t) ← value fuel t
      let (vs, t) ← moreElements fuel (skip t)
      some (v :: vs, t)

/-- What follows an element. -/
def moreElements : ℕ → List Char → Option (List Json × List Char)
  | 0, _ => none
  | _, ']' :: t => some ([], t)
  | fuel + 1, ',' :: t => do
    let (v, t) ← value fuel t
    let (vs, t) ← moreElements fuel (skip t)
    some (v :: vs, t)
  | _, _ => none

/-- The members of an object, from its brace. -/
def members : ℕ → List Char → Option (List (String × Json) × List Char)
  | 0, _ => none
  | fuel + 1, t =>
    match skip t with
    | '\x7d' :: t => some ([], t)
    | t => member fuel t

/-- A member and those that follow it. Of two members with one name the later one stays. -/
def member : ℕ → List Char → Option (List (String × Json) × List Char)
  | 0, _ => none
  | fuel + 1, t => do
    let (key, t) ← string t
    match skip t with
    | ':' :: t => do
      let (v, t) ← value fuel t
      match skip t with
      | '\x7d' :: t => some ([(key, v)], t)
      | ',' :: t => do
        let (ms, t) ← member fuel (skip t)
        some (if ms.any fun m => m.1 == key then ms else (key, v) :: ms, t)
      | _ => none
    | _ => none

end

end JsonText

/-- `JSON.parse(text)`; a text that is none throws. -/
def Json.parse (t : List Char) : Option Json :=
  (JsonText.value (2 * t.length + 2) t).bind fun p => if JsonText.skip p.2 = [] then some p.1 else none

example : (Json.parse "[[\"a\", \x7b\"x\": [1.5e1, null]\x7d], \"\\u0041\", 250]".toList).bind Json.asText =
    some "a,[object Object],A,250".toList := by
  decide +kernel

/-! ## Marks -/

section Marks

variable {t r : List Char} {c : Char} {s : String} {ss : List String} {fuel : ℕ}

/-- The marks of the strings. -/
def plain (ss : List String) : ℕ := (ss.map fun s => marks s.toList).sum

/-- The marks of the strings in a JSON text: two more for each. -/
def written (ss : List String) : ℕ := (ss.map fun s => marks s.toList + 2).sum

theorem marks_append : marks (t ++ r) = marks t + marks r := List.countP_append

theorem marks_cons : marks (c :: t) = marks t + if isMark c then 1 else 0 := List.countP_cons

theorem written_cons : written (s :: ss) = marks s.toList + 2 + written ss := by
  unfold written
  rw [List.map_cons, List.sum_cons]

theorem written_append {ss' : List String} : written (ss ++ ss') = written ss + written ss' := by
  unfold written
  rw [List.map_append, List.sum_append]

theorem plain_append {ss' : List String} : plain (ss ++ ss') = plain ss + plain ss' := by
  unfold plain
  rw [List.map_append, List.sum_append]

theorem written_eq : written ss = plain ss + 2 * ss.length := by
  unfold written plain
  induction ss with
  | nil => rfl
  | cons s ss ih =>
    simp only [List.map_cons, List.sum_cons, List.length_cons]
    omega

theorem marks_le_of_sublist (h : r.Sublist t) : marks r ≤ marks t := h.countP_le

/-- What holds of the characters of a text, one by one. -/
theorem forall_of_all {p : Char → Prop} [DecidablePred p] {l : List Char}
    (h : l.all (fun c => decide (p c)) = true) : ∀ c ∈ l, p c :=
  fun c hc => of_decide_eq_true (List.all_eq_true.mp h c hc)

/-- The text of a number has digits, a point, a sign and an exponent. -/
theorem Number.mem_asText {x : ℚ} (hc : c ∈ (Number.finite x).asText) :
    c.isDigit = true ∨ c ∈ ['-', '.', 'e', '+'] := by
  have hdigits : ∀ {n : ℕ} {c : Char}, c ∈ Nat.toDigits 10 n → c.isDigit = true :=
    fun h => Nat.isDigit_of_mem_toDigits (by decide) (by decide) h
  have hmagnitude : ∀ c ∈ Number.magnitude x, c.isDigit = true ∨ c ∈ ['-', '.', 'e', '+'] := by
    intro c hc
    unfold Number.magnitude at hc
    dsimp only at hc
    have hexponent : ∀ {b : Prop} [Decidable b] {n : ℕ},
        c ∈ (if b then ['e', '+'] else ['e', '-']) ++ Nat.toDigits 10 n →
          c.isDigit = true ∨ c ∈ ['-', '.', 'e', '+'] := by
      intro b _ n hc
      rcases List.mem_append.mp hc with hc | hc
      · right
        split_ifs at hc
        · exact forall_of_all (by decide) c hc
        · exact forall_of_all (by decide) c hc
      · exact .inl (hdigits hc)
    split at hc
    · rcases List.mem_append.mp hc with hc | hc
      · exact .inl (hdigits hc)
      · rw [List.eq_of_mem_replicate hc]
        decide
    split at hc
    · rcases List.mem_append.mp hc with hc | hc
      · exact .inl (hdigits (List.mem_of_mem_take hc))
      · rcases List.mem_cons.mp hc with rfl | hc
        · decide
        · exact .inl (hdigits (List.mem_of_mem_drop hc))
    split at hc
    · rcases List.mem_append.mp hc with hc | hc
      · rcases List.mem_append.mp hc with hc | hc
        · exact forall_of_all (p := fun k => k.isDigit = true ∨ k ∈ ['-', '.', 'e', '+']) (by decide) c hc
        · rw [List.eq_of_mem_replicate hc]
          decide
      · exact .inl (hdigits hc)
    split at hc
    · rcases List.mem_append.mp hc with hc | hc
      · exact .inl (hdigits hc)
      · exact hexponent hc
    · rcases List.mem_append.mp hc with hc | hc
      · rcases List.mem_append.mp hc with hc | hc
        · exact .inl (hdigits (List.mem_of_mem_take hc))
        · rcases List.mem_cons.mp hc with rfl | hc
          · decide
          · exact .inl (hdigits (List.mem_of_mem_drop hc))
      · exact hexponent hc
  unfold Number.asText at hc
  dsimp only at hc
  split_ifs at hc
  · rw [List.mem_singleton.mp hc]
    decide
  · rcases List.mem_append.mp hc with hc | hc
    · rw [List.mem_singleton.mp hc]
      decide
    · exact hmagnitude c hc
  · exact hmagnitude c hc

theorem Number.marks_asText (x : Number) : marks x.asText = 0 := by
  cases x with
  | finite x =>
    refine List.countP_eq_zero.mpr fun c hc hmark => ?_
    unfold isMark at hmark
    simp only [Bool.or_eq_true, beq_iff_eq] at hmark
    rcases Number.mem_asText hc with hc | hc
    · rcases hmark with rfl | rfl <;> cases hc
    · rcases hmark with rfl | rfl <;> exact absurd hc (by decide)
  | infinite negative => cases negative <;> decide

end Marks

section Strings

mutual

theorem Json.marks_asText_le : ∀ (v : Json) (t : List Char), v.asText = some t → marks t ≤ plain v.strings
  | .null, t, h => by
    obtain rfl := Option.some.inj h
    decide
  | .bool b, t, h => by
    obtain rfl := Option.some.inj h
    cases b <;> decide
  | .number x, t, h => by
    obtain rfl := Option.some.inj h
    exact (Number.marks_asText x).le
  | .string s, t, h => by
    obtain rfl := Option.some.inj h
    simp [plain, Json.strings]
  | .array elements, t, h => marks_joined_le elements t h
  | .object members, t, h => by
    unfold Json.asText at h
    split at h
    · cases h
    · obtain rfl := Option.some.inj h
      exact le_of_eq_of_le (by decide) (Nat.zero_le _)

theorem Json.marks_joined_le :
    ∀ (vs : List Json) (t : List Char), Json.joined vs = some t → marks t ≤ plain (Json.stringsOfElements vs)
  | [], t, h => by
    obtain rfl := Option.some.inj h
    decide
  | v :: vs, t, h => by
    unfold Json.joined at h
    simp only [Option.bind_eq_some_iff, Option.map_eq_some_iff] at h
    obtain ⟨first, hfirst, rest, hrest, rfl⟩ := h
    have hv : marks first ≤ plain v.strings := by
      split at hfirst
      · obtain rfl := Option.some.inj hfirst
        exact Nat.zero_le _
      · exact Json.marks_asText_le v first hfirst
    have hvs := Json.marks_joined_le vs rest hrest
    have hcomma : isMark ',' = false := by decide
    rw [Json.stringsOfElements, plain_append]
    split_ifs
    · omega
    · rw [marks_append, marks_cons, hcomma, if_neg (by decide)]
      omega

end

end Strings

namespace JsonText

variable {t r : List Char}

theorem marks_le_cons (c : Char) (t : List Char) : marks t ≤ marks (c :: t) :=
  marks_le_of_sublist (List.sublist_cons_self c t)

/-- A character that is read has at most the mark that stands before it. -/
theorem marks_of_escape {c : Char} (h : escape t = some (c, r)) : marks r + marks [c] ≤ marks t + 1 := by
  have hchar : ∀ d, marks [d] ≤ 1 := fun d => by
    rw [marks_cons]
    split_ifs <;> decide
  have hcode : ∀ {t r n}, hexCode t = some (n, r) → marks r ≤ marks t := by
    intro t r n h
    unfold hexCode at h
    split at h
    · simp only [Option.bind_eq_bind, Option.bind_eq_some_iff, Option.some.injEq, Prod.mk.injEq] at h
      obtain ⟨-, -, -, -, -, -, -, -, -, rfl⟩ := h
      simp only [marks_cons]
      omega
    · cases h
  have hunicode : ∀ {t}, unicode t = some (c, r) → marks r ≤ marks t := by
    intro t h
    unfold unicode at h
    simp only [Option.bind_eq_bind, Option.bind_eq_some_iff] at h
    obtain ⟨⟨high, t'⟩, hhigh, h⟩ := h
    have hle := hcode hhigh
    dsimp only at h
    split at h
    · split at h
      · simp only [Option.bind_eq_some_iff] at h
        obtain ⟨⟨low, t''⟩, hlow, h⟩ := h
        have hle' := hcode hlow
        dsimp only at h
        split at h
        · simp only [Option.some.injEq, Prod.mk.injEq] at h
          obtain ⟨-, rfl⟩ := h
          simp only [marks_cons] at hle
          omega
        · cases h
      · cases h
    · split at h
      · cases h
      · simp only [Option.some.injEq, Prod.mk.injEq] at h
        obtain ⟨-, rfl⟩ := h
        exact hle
  have hc := hchar c
  unfold escape at h
  split at h
  case h_9 t =>
    have := hunicode h
    have := marks_le_cons 'u' t
    omega
  case h_10 => cases h
  all_goals
    simp only [Option.some.injEq, Prod.mk.injEq] at h
    obtain ⟨rfl, rfl⟩ := h
    exact Nat.add_le_add (marks_le_cons _ _) hc

theorem marks_of_characters {fuel : ℕ} {s : List Char} (h : characters fuel t = some (s, r)) :
    marks r + marks s + 1 ≤ marks t := by
  induction fuel generalizing t s r with
  | zero => cases h
  | succ fuel ih =>
    cases t with
    | nil => cases h
    | cons c t =>
      unfold characters at h
      rw [marks_cons]
      split_ifs at h with hclose hback
      · simp only [Option.some.injEq, Prod.mk.injEq] at h
        obtain ⟨rfl, rfl⟩ := h
        subst hclose
        simp [marks, isMark]
      · simp only [Option.bind_eq_bind, Option.bind_eq_some_iff, Option.some.injEq, Prod.mk.injEq] at h
        obtain ⟨⟨d, t'⟩, hescape, ⟨s', r'⟩, hrest, rfl, rfl⟩ := h
        have hd : marks t' + marks [d] ≤ marks t + 1 := marks_of_escape hescape
        have hs : marks r' + marks s' + 1 ≤ marks t' := ih hrest
        have hmark : isMark c = true := by rw [hback]; decide
        have hmarks : marks (d :: s') = marks [d] + marks s' := marks_append (t := [d])
        rw [if_pos hmark]
        change marks r' + marks (d :: s') + 1 ≤ _
        omega
      · simp only [Option.bind_eq_bind, Option.bind_eq_some_iff, Option.some.injEq, Prod.mk.injEq] at h
        obtain ⟨⟨s', r'⟩, hrest, rfl, rfl⟩ := h
        have hs : marks r' + marks s' + 1 ≤ marks t := ih hrest
        change marks r' + marks (c :: s') + 1 ≤ _
        rw [marks_cons]
        omega

theorem marks_of_string {s : String} (h : string t = some (s, r)) : marks r + marks s.toList + 2 ≤ marks t := by
  unfold string at h
  split at h
  · next t =>
    simp only [Option.map_eq_some_iff, Prod.map, Prod.mk.injEq] at h
    obtain ⟨⟨s', r'⟩, hs, rfl, rfl⟩ := h
    have hle : marks r' + marks s' + 1 ≤ marks t := marks_of_characters hs
    have hmark : isMark '"' = true := by decide
    rw [String.toList_ofList, marks_cons, if_pos hmark]
    exact Nat.add_le_add_right hle 1
  · cases h

/-! ## What readers do -/

/-- A character that stands neither for a string nor for an object. -/
def isPlain (c : Char) : Bool := !isMark c && c != '\x7b' && c != '\x7d'

/-- What can be said of a text, the strings that are read from it, and what is left of it: it holds of each step of the
readers, and of one step after the other. Of two members with one name the earlier one is forgotten. -/
structure Reading (R : List Char → List String → List Char → Prop) : Prop where
  refl : ∀ t, R t [] t
  trans : ∀ {t u r ss ss'}, R t ss u → R u ss' r → R t (ss ++ ss') r
  drop : ∀ {c t}, isPlain c = true → R (c :: t) [] t
  string : ∀ {t s r}, string t = some (s, r) → R t [s] r
  object : ∀ {t ss r}, R t ss ('\x7d' :: r) → R ('\x7b' :: t) ss r
  shadow : ∀ {t r} (ss : List String) {ss'}, R t (ss ++ ss') r → R t ss' r

namespace Reading

variable {R : List Char → List String → List Char → Prop} {c : Char} {fuel : ℕ} {u : List Char} {ss : List String}

theorem cons (hR : Reading R) (hc : isPlain c = true) (h : R t ss r) : R (c :: t) ss r := hR.trans (hR.drop hc) h

theorem drops (hR : Reading R) {l : List Char} (hl : ∀ c ∈ l, isPlain c = true) : R (l ++ t) [] t := by
  induction l with
  | nil => exact hR.refl t
  | cons c l ih =>
    obtain ⟨hc, hl⟩ := List.forall_mem_cons.mp hl
    exact hR.cons hc (ih hl)

theorem dropWhile (hR : Reading R) {f : Char → Bool} (hf : ∀ c, f c = true → isPlain c = true) :
    R t [] (t.dropWhile f) := by
  have hdrops : R (t.takeWhile f ++ t.dropWhile f) [] (t.dropWhile f) :=
    hR.drops fun c hc => hf c (List.mem_takeWhile_imp hc)
  rwa [List.takeWhile_append_dropWhile] at hdrops

theorem skip (hR : Reading R) : R t [] (skip t) := by
  refine hR.dropWhile fun c hc => ?_
  unfold isSpace at hc
  simp only [Bool.or_eq_true, beq_iff_eq] at hc
  rcases hc with ((rfl | rfl) | rfl) | rfl <;> decide

theorem of_skip (hR : Reading R) (h : R (JsonText.skip t) ss r) : R t ss r := hR.trans hR.skip h

theorem of_skip_cons (hR : Reading R) (ht : JsonText.skip t = c :: u) (hc : isPlain c = true) (h : R u ss r) :
    R t ss r :=
  hR.of_skip (ht ▸ hR.cons hc h)

theorem map_digits (hR : Reading R) {α : Type*} {f : ℕ × ℕ → α} {x : α}
    (h : (digits t).map (Prod.map f id) = some (x, r)) : R t [] r := by
  simp only [Option.map_eq_some_iff, Prod.map, Prod.mk.injEq] at h
  obtain ⟨⟨ds, r'⟩, hds, -, rfl⟩ := h
  unfold digits at hds
  dsimp only at hds
  split at hds
  · cases hds
  · simp only [Option.some.injEq, Prod.mk.injEq] at hds
    obtain ⟨-, rfl⟩ := hds
    refine hR.dropWhile fun c hc => ?_
    unfold isPlain isMark
    simp only [Bool.not_or, Bool.and_eq_true, Bool.not_eq_true', beq_eq_false_iff_ne, bne_iff_ne]
    refine ⟨⟨⟨?_, ?_⟩, ?_⟩, ?_⟩ <;> rintro rfl <;> cases hc

theorem number (hR : Reading R) {x : ℚ} (h : number t = some (x, r)) : R t [] r := by
  have hwhole : ∀ {t r n}, whole t = some (n, r) → R t [] r := by
    intro t r n h
    unfold whole at h
    split at h
    · simp only [Option.some.injEq, Prod.mk.injEq] at h
      obtain ⟨-, rfl⟩ := h
      exact hR.drop (by decide)
    · exact hR.map_digits h
  have hfraction : ∀ {t r x}, fraction t = some (x, r) → R t [] r := by
    intro t r x h
    unfold fraction at h
    split at h
    · exact hR.cons (by decide) (hR.map_digits h)
    · simp only [Option.some.injEq, Prod.mk.injEq] at h
      obtain ⟨-, rfl⟩ := h
      exact hR.refl _
  have hpower : ∀ {t r x}, power t = some (x, r) → R t [] r := by
    intro t r x h
    unfold power at h
    split at h
    case h_3 =>
      simp only [Option.some.injEq, Prod.mk.injEq] at h
      obtain ⟨-, rfl⟩ := h
      exact hR.refl _
    all_goals
      refine hR.cons (by decide) ?_
      split at h
      · exact hR.cons (by decide) (hR.map_digits h)
      · exact hR.cons (by decide) (hR.map_digits h)
      · exact hR.map_digits h
  have hunsigned : ∀ {t x}, unsigned t = some (x, r) → R t [] r := by
    intro t x h
    unfold unsigned at h
    simp only [Option.bind_eq_bind, Option.bind_eq_some_iff, Option.some.injEq, Prod.mk.injEq] at h
    obtain ⟨⟨n, t₁⟩, h₁, ⟨f, t₂⟩, h₂, ⟨p, t₃⟩, h₃, -, rfl⟩ := h
    exact hR.trans (hwhole h₁) (hR.trans (hfraction h₂) (hpower h₃))
  unfold JsonText.number at h
  split at h
  · simp only [Option.map_eq_some_iff, Prod.map, Prod.mk.injEq] at h
    obtain ⟨⟨y, r'⟩, hy, -, rfl⟩ := h
    exact hR.cons (by decide) (hunsigned hy)
  · exact hunsigned h

theorem scalar (hR : Reading R) {v : Json} (h : scalar t = some (v, r)) : R t v.strings r := by
  unfold JsonText.scalar at h
  simp only [Option.or_eq_some_iff, Option.map_eq_some_iff, Prod.map, Prod.mk.injEq] at h
  rcases h with ⟨⟨s, r'⟩, hs, rfl, rfl⟩ | ⟨-, hword | ⟨-, ⟨x, r'⟩, hx, rfl, rfl⟩⟩
  · exact hR.string hs
  · unfold word at hword
    split at hword
    case h_4 => cases hword
    all_goals
      simp only [Option.some.injEq, Prod.mk.injEq] at hword
      obtain ⟨rfl, rfl⟩ := hword
    · exact hR.drops (l := "null".toList) (forall_of_all (by decide))
    · exact hR.drops (l := "true".toList) (forall_of_all (by decide))
    · exact hR.drops (l := "false".toList) (forall_of_all (by decide))
  · exact hR.number hx

end Reading

/-- What is read with the fuel. The readers of members also take the brace that closes the object. -/
structure Reads (R : List Char → List String → List Char → Prop) (fuel : ℕ) : Prop where
  value : ∀ t v r, value fuel t = some (v, r) → R t v.strings r
  elements : ∀ t vs r, elements fuel t = some (vs, r) → R t (Json.stringsOfElements vs) r
  moreElements : ∀ t vs r, moreElements fuel t = some (vs, r) → R t (Json.stringsOfElements vs) r
  members : ∀ t ms r, members fuel t = some (ms, r) → R t (Json.stringsOfMembers ms) ('\x7d' :: r)
  member : ∀ t ms r, member fuel t = some (ms, r) → R t (Json.stringsOfMembers ms) ('\x7d' :: r)

section Reads

variable {R : List Char → List String → List Char → Prop} {fuel : ℕ}

theorem Reads.succ_value (hR : Reading R) (ih : Reads R fuel) {v : Json}
    (h : JsonText.value (fuel + 1) t = some (v, r)) : R t v.strings r := by
  unfold JsonText.value at h
  split at h
  · next t' ht =>
    simp only [Option.map_eq_some_iff, Prod.map, Prod.mk.injEq] at h
    obtain ⟨⟨vs, r'⟩, hvs, rfl, rfl⟩ := h
    exact hR.of_skip_cons ht (by decide) (ih.elements t' vs r' hvs)
  · next t' ht =>
    simp only [Option.map_eq_some_iff, Prod.map, Prod.mk.injEq] at h
    obtain ⟨⟨ms, r'⟩, hms, rfl, rfl⟩ := h
    exact hR.of_skip (ht ▸ hR.object (ih.members t' ms r' hms))
  · exact hR.of_skip (hR.scalar h)

theorem Reads.succ_member (hR : Reading R) (ih : Reads R fuel) {ms : List (String × Json)}
    (h : JsonText.member (fuel + 1) t = some (ms, r)) : R t (Json.stringsOfMembers ms) ('\x7d' :: r) := by
  unfold JsonText.member at h
  simp only [Option.bind_eq_bind, Option.bind_eq_some_iff] at h
  obtain ⟨⟨key, t₁⟩, hkey, h⟩ := h
  dsimp only at h
  split at h
  · next t₂ ht₂ =>
    simp only [Option.bind_eq_some_iff] at h
    obtain ⟨⟨v, t₃⟩, hv, h⟩ := h
    have hfirst : R t (key :: v.strings) t₃ :=
      hR.trans (hR.string hkey) (hR.of_skip_cons ht₂ (by decide) (ih.value t₂ v t₃ hv))
    dsimp only at h
    split at h
    · next t₄ ht₄ =>
      simp only [Option.some.injEq, Prod.mk.injEq] at h
      obtain ⟨rfl, rfl⟩ := h
      have hlast : R t (key :: v.strings ++ []) ('\x7d' :: t₄) := hR.trans hfirst (ht₄ ▸ hR.skip)
      exact hlast
    · next t₄ ht₄ =>
      simp only [Option.bind_eq_some_iff, Option.some.injEq, Prod.mk.injEq] at h
      obtain ⟨⟨ms', r'⟩, hms, rfl, rfl⟩ := h
      have hall : R t (key :: v.strings ++ Json.stringsOfMembers ms') ('\x7d' :: r') :=
        hR.trans hfirst (hR.of_skip_cons ht₄ (by decide) (hR.of_skip (ih.member (skip t₄) ms' r' hms)))
      dsimp only
      split_ifs
      · exact hR.shadow _ hall
      · exact hall
    · cases h
  · cases h

/-- What holds of each step holds of what is read. -/
theorem reads (hR : Reading R) (fuel : ℕ) : Reads R fuel := by
  induction fuel with
  | zero => constructor <;> intro _ _ _ h <;> cases h
  | succ fuel ih =>
    have hcons : ∀ {t v t' vs r}, JsonText.value fuel t = some (v, t') →
        JsonText.moreElements fuel (skip t') = some (vs, r) → R t (Json.stringsOfElements (v :: vs)) r :=
      fun hv hvs => hR.trans (ih.value _ _ _ hv) (hR.of_skip (ih.moreElements _ _ _ hvs))
    constructor
    case value => exact fun t v r h => ih.succ_value hR h
    case elements =>
      intro t vs r h
      unfold JsonText.elements at h
      split at h
      · next t' ht =>
        simp only [Option.some.injEq, Prod.mk.injEq] at h
        obtain ⟨rfl, rfl⟩ := h
        exact hR.of_skip_cons ht (by decide) (hR.refl t')
      · simp only [Option.bind_eq_bind, Option.bind_eq_some_iff, Option.some.injEq, Prod.mk.injEq] at h
        obtain ⟨⟨v, t'⟩, hv, ⟨vs', r'⟩, hvs, rfl, rfl⟩ := h
        exact hR.of_skip (hcons hv hvs)
    case moreElements =>
      intro t vs r h
      unfold JsonText.moreElements at h
      split at h
      · cases h
      · simp only [Option.some.injEq, Prod.mk.injEq] at h
        obtain ⟨rfl, rfl⟩ := h
        exact hR.drop (by decide)
      · next t' heq =>
        cases heq
        simp only [Option.bind_eq_bind, Option.bind_eq_some_iff, Option.some.injEq, Prod.mk.injEq] at h
        obtain ⟨⟨v, t''⟩, hv, ⟨vs', r'⟩, hvs, rfl, rfl⟩ := h
        exact hR.cons (by decide) (hcons hv hvs)
      · cases h
    case members =>
      intro t ms r h
      unfold JsonText.members at h
      split at h
      · next t' ht =>
        simp only [Option.some.injEq, Prod.mk.injEq] at h
        obtain ⟨rfl, rfl⟩ := h
        exact ht ▸ hR.skip
      · exact hR.of_skip (ih.member _ ms r h)
    case member => exact fun t ms r h => ih.succ_member hR h

end Reads

/-- Reading takes the marks that the strings are written with. -/
theorem reading_marks : Reading fun t ss r => marks r + written ss ≤ marks t where
  refl _ := Nat.le_refl _
  trans := by
    intro t u r ss ss' h h'
    rw [written_append]
    omega
  drop := fun _ => marks_le_cons _ _
  string := by
    intro t s r h
    rw [written_cons]
    exact le_of_eq_of_le (by rw [← add_assoc, ← add_assoc]; rfl) (marks_of_string h)
  object := fun h => h.trans (marks_le_cons _ _) |> (Nat.add_le_add_right (marks_le_cons _ _) _).trans
  shadow := by
    intro t r ss ss' h
    rw [written_append] at h
    omega

end JsonText

section Parsing

variable {v : Json} {t : List Char}

theorem Json.written_of_parse (h : Json.parse t = some v) : written v.strings ≤ marks t := by
  unfold Json.parse at h
  simp only [Option.bind_eq_some_iff] at h
  obtain ⟨⟨w, r⟩, hw, h⟩ := h
  split at h
  · obtain rfl := Option.some.inj h
    exact le_trans (Nat.le_add_left _ _) ((JsonText.reads JsonText.reading_marks _).value t w r hw)
  · cases h

mutual

theorem Json.strings_roundTrip : ∀ v : Json, v.roundTrip.strings = v.strings
  | .null | .bool _ | .string _ | .number (.finite _) | .number (.infinite _) => rfl
  | .array elements => strings_roundTripElements elements
  | .object members => strings_roundTripMembers members

theorem Json.strings_roundTripElements :
    ∀ vs : List Json, stringsOfElements (roundTripElements vs) = stringsOfElements vs
  | [] => rfl
  | v :: vs => by
    rw [roundTripElements, stringsOfElements, stringsOfElements, strings_roundTrip v, strings_roundTripElements vs]

theorem Json.strings_roundTripMembers :
    ∀ ms : List (String × Json), stringsOfMembers (roundTripMembers ms) = stringsOfMembers ms
  | [] => rfl
  | (key, v) :: ms => by
    rw [roundTripMembers, stringsOfMembers, stringsOfMembers, strings_roundTrip v, strings_roundTripMembers ms]

end

end Parsing
