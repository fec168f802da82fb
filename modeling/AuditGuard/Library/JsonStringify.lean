import AuditGuard.Library.JsonText
import Mathlib.Data.List.DropRight
import Mathlib.Tactic.IntervalCases

/-!
# Writing values

The writer of JSON texts (`Json.stringify`). The reader gets back what was written (`Json.parse_stringify`), whatever
space stands around it. Where a character stands in a text, between two quotation marks or not, is its `Place`. A text
that is read ends between no marks (`Json.parse_eq_none`), and a backquote of a text that was written stands between
marks (`Json.sealed_stringify`): so nothing is read from a text that is cut at a backquote.
-/

namespace JsonText

/-! ## The writer -/

/-- A hexadecimal digit. -/
def hexChar (n : ℕ) : Char := if n < 10 then Char.ofNat (n + '0'.toNat) else Char.ofNat (n - 10 + 'a'.toNat)

/-- A character as it stands in a string. -/
def escaped (c : Char) : List Char :=
  if c = '"' then ['\\', '"']
  else if c = '\\' then ['\\', '\\']
  else if c = '\x08' then ['\\', 'b']
  else if c = '\x0c' then ['\\', 'f']
  else if c = '\n' then ['\\', 'n']
  else if c = '\r' then ['\\', 'r']
  else if c = '\t' then ['\\', 't']
  else if c.toNat < 32 then ['\\', 'u', '0', '0', hexChar (c.toNat / 16), hexChar (c.toNat % 16)]
  else [c]

/-- A string between its marks. -/
def quoted (s : String) : List Char := '"' :: (s.toList.flatMap escaped ++ ['"'])

end JsonText

namespace Json

open JsonText

mutual

/-- `JSON.stringify(value)`. -/
def stringify : Json → List Char
  | .null => "null".toList
  | .bool b => if b then "true".toList else "false".toList
  | .number (.finite x) => (Number.finite x).asText
  | .number (.infinite _) => "null".toList
  | .string s => quoted s
  | .array elements => '[' :: stringifyElements [] elements
  | .object members => '\x7b' :: stringifyMembers [] members

/-- The elements of an array, the first of them after the `comma`, and its closing bracket. -/
def stringifyElements (comma : List Char) : List Json → List Char
  | [] => [']']
  | v :: vs => comma ++ (v.stringify ++ stringifyElements [','] vs)

/-- The members of an object, the first of them after the `comma`, and its closing brace. -/
def stringifyMembers (comma : List Char) : List (String × Json) → List Char
  | [] => ['\x7d']
  | (key, v) :: ms => comma ++ (quoted key ++ ':' :: (v.stringify ++ stringifyMembers [','] ms))

end

/-- What follows a number: nothing, or the end of what it is a part of. -/
def Ends (r : List Char) : Prop := ∀ c ∈ r.head?, c = ',' ∨ c = ']' ∨ c = '\x7d'

/-- A number that has a text: every number of a program, which is a decimal number. -/
def HasText (x : ℚ) : Prop :=
  ∀ r, Ends r → JsonText.number ((Number.finite x).asText ++ r) = some (x, r)

mutual

/-- A value that can be written as it is: its numbers have texts, and no two members have one name. -/
def Writable : Json → Prop
  | .null | .bool _ | .string _ => True
  | .number (.finite x) => HasText x
  | .number (.infinite _) => False
  | .array elements => WritableElements elements
  | .object members => (members.map Prod.fst).Nodup ∧ WritableMembers members

/-- Elements that can be written. -/
def WritableElements : List Json → Prop
  | [] => True
  | v :: vs => v.Writable ∧ WritableElements vs

/-- Members that can be written. -/
def WritableMembers : List (String × Json) → Prop
  | [] => True
  | (_, v) :: ms => v.Writable ∧ WritableMembers ms

end

end Json

/-! ## Reading what was written -/

namespace JsonText

variable {c : Char} {t r s : List Char} {fuel : ℕ}

/-- A character stands for itself, or its text is one that `escape` reads. -/
theorem escaped_cases (c : Char) :
    (escaped c = [c] ∧ c ≠ '"' ∧ c ≠ '\\' ∧ ¬ c.toNat < 32) ∨
      ∃ d e, escaped c = '\\' :: d :: e ∧ (∀ t, escape (d :: (e ++ t)) = some (c, t)) ∧
        ∀ k ∈ e, k ≠ '"' ∧ k ≠ '\\' := by
  by_cases hcontrol : c.toNat < 32
  · right
    have hc : c = Char.ofNat c.toNat := (Char.ofNat_toNat c).symm
    generalize c.toNat = n at hc hcontrol
    subst hc
    interval_cases n <;> exact ⟨_, _, rfl, fun t => rfl, forall_of_all (by decide)⟩
  · by_cases hquote : c = '"'
    · subst hquote
      exact .inr ⟨_, _, rfl, fun t => rfl, forall_of_all (by decide)⟩
    · by_cases hback : c = '\\'
      · subst hback
        exact .inr ⟨_, _, rfl, fun t => rfl, forall_of_all (by decide)⟩
      · refine .inl ⟨?_, hquote, hback, hcontrol⟩
        have hne : ∀ d : Char, d.toNat < 32 → c ≠ d := fun d hd h => hcontrol (h ▸ hd)
        unfold escaped
        rw [if_neg hquote, if_neg hback, if_neg (hne _ (by decide)), if_neg (hne _ (by decide)),
          if_neg (hne _ (by decide)), if_neg (hne _ (by decide)), if_neg (hne _ (by decide)), if_neg hcontrol]

/-- The characters of a string are read as they were written. -/
theorem characters_escaped (hfuel : s.length < fuel) :
    characters fuel (s.flatMap escaped ++ '"' :: r) = some (s, r) := by
  induction s generalizing fuel with
  | nil =>
    obtain ⟨fuel, rfl⟩ : ∃ f, fuel = f + 1 := ⟨fuel - 1, by omega⟩
    rfl
  | cons c s ih =>
    obtain ⟨fuel, rfl⟩ : ∃ f, fuel = f + 1 := ⟨fuel - 1, by omega⟩
    have hrest := ih (Nat.lt_of_succ_lt_succ hfuel)
    rw [List.flatMap_cons, List.append_assoc]
    obtain ⟨heq, hquote, hback, hcontrol⟩ | ⟨d, e, heq, hescape, -⟩ := escaped_cases c
    · rw [heq]
      change characters (fuel + 1) (c :: (s.flatMap escaped ++ '"' :: r)) = _
      rw [characters, if_neg hquote, if_neg hback, if_neg hcontrol, hrest]
      rfl
    · rw [heq]
      change characters (fuel + 1) ('\\' :: d :: (e ++ (s.flatMap escaped ++ '"' :: r))) = _
      rw [characters, if_neg (by decide), if_pos rfl, hescape]
      change ((characters fuel (s.flatMap escaped ++ '"' :: r)).bind _) = _
      rw [hrest]
      rfl

/-- The text of a string is at least as long as the string. -/
theorem length_le_escaped : s.length ≤ (s.flatMap escaped).length := by
  induction s with
  | nil => exact Nat.le_refl _
  | cons c s ih =>
    have hc : 1 ≤ (escaped c).length := by
      obtain ⟨heq, -⟩ | ⟨d, e, heq, -⟩ := escaped_cases c <;> rw [heq] <;> simp
    rw [List.flatMap_cons, List.length_append, List.length_cons]
    omega

/-- A string is read as it was written. -/
theorem string_quoted (s : String) (r : List Char) : string (quoted s ++ r) = some (s, r) := by
  have htext : quoted s ++ r = '"' :: (s.toList.flatMap escaped ++ '"' :: r) := by
    simp only [quoted, List.cons_append, List.append_assoc, List.nil_append]
  have hlength : s.toList.length ≤ (s.toList.flatMap escaped).length := length_le_escaped
  rw [htext]
  change (characters _ _).map _ = _
  rw [characters_escaped (by simp only [List.length_append, List.length_cons]; omega)]
  change some (String.ofList s.toList, r) = _
  rw [String.ofList_toList]

theorem skip_cons (hc : isSpace c = false) : skip (c :: t) = c :: t := by
  rw [skip, List.dropWhile_cons, hc, if_neg Bool.false_ne_true]

theorem skip_append (ht : ∀ c ∈ t, isSpace c = true) : skip (t ++ r) = skip r := by
  rw [skip, List.dropWhile_append_of_pos ht, skip]

/-- A value without parts. -/
theorem value_scalar (hspace : isSpace c = false) (hbracket : c ≠ '[') (hbrace : c ≠ '\x7b') :
    value (fuel + 1) (c :: t) = scalar (c :: t) := by
  unfold value
  rw [skip_cons hspace]
  split
  · next h => exact absurd (List.cons.inj h).1 hbracket
  · next h => exact absurd (List.cons.inj h).1 hbrace
  · rfl

/-- A number begins with its sign or with a digit. -/
theorem number_head {x : ℚ} (h : number t = some (x, r)) : ∃ c t', t = c :: t' ∧ (c = '-' ∨ c.isDigit = true) := by
  have hunsigned : ∀ {t y}, unsigned t = some (y, r) → ∃ c t', t = c :: t' ∧ c.isDigit = true := by
    intro t y h
    unfold unsigned at h
    simp only [Option.bind_eq_bind, Option.bind_eq_some_iff] at h
    obtain ⟨⟨n, t₁⟩, h, -⟩ := h
    unfold whole at h
    split at h
    · exact ⟨_, _, rfl, by decide⟩
    · simp only [Option.map_eq_some_iff] at h
      obtain ⟨ds, hds, -⟩ := h
      unfold digits at hds
      dsimp only at hds
      split at hds
      · cases hds
      · next hne =>
        obtain ⟨c, t', heq⟩ := List.exists_cons_of_ne_nil (l := t) (fun hnil => hne (by rw [hnil]; rfl))
        subst heq
        refine ⟨c, t', rfl, ?_⟩
        by_contra hc
        exact hne (List.takeWhile_cons_of_neg hc)
  unfold number at h
  split at h
  · exact ⟨_, _, rfl, .inl rfl⟩
  · obtain ⟨c, t', rfl, hc⟩ := hunsigned h
    exact ⟨c, t', rfl, .inr hc⟩

/-- A number is read as it was written. -/
theorem value_number {x : ℚ} (hx : Json.HasText x) (hr : Json.Ends r) :
    value (fuel + 1) ((Number.finite x).asText ++ r) = some (.number (.finite x), r) := by
  have hread := hx r hr
  obtain ⟨c, t, heq, hc⟩ := number_head hread
  rw [heq] at hread ⊢
  have hne : ∀ d : Char, d ≠ '-' → d.isDigit = false → c ≠ d := by
    rintro d hd hd' rfl
    rcases hc with hc | hc
    · exact hd hc
    · rw [hd'] at hc
      cases hc
  have hspace : isSpace c = false := by
    unfold isSpace
    rw [beq_false_of_ne (hne _ (by decide) (by decide)), beq_false_of_ne (hne _ (by decide) (by decide)),
      beq_false_of_ne (hne _ (by decide) (by decide)), beq_false_of_ne (hne _ (by decide) (by decide))]
    rfl
  rw [value_scalar hspace (hne _ (by decide) (by decide)) (hne _ (by decide) (by decide))]
  have hstring : string (c :: t) = none := by
    unfold string
    split
    · next h => exact absurd (List.cons.inj h).1 (hne _ (by decide) (by decide))
    · rfl
  have hword : word (c :: t) = none := by
    unfold word
    split
    · next h => exact absurd (List.cons.inj h).1 (hne _ (by decide) (by decide))
    · next h => exact absurd (List.cons.inj h).1 (hne _ (by decide) (by decide))
    · next h => exact absurd (List.cons.inj h).1 (hne _ (by decide) (by decide))
    · rfl
  rw [scalar, hstring, hword, hread]
  rfl

end JsonText

namespace Json

open JsonText

variable {r : List Char} {fuel : ℕ}

/-- What follows a part. -/
theorem ends_cons {c : Char} (hc : c = ',' ∨ c = ']' ∨ c = '\x7d') : Ends (c :: r) := by
  intro d hd
  obtain rfl := Option.mem_some.mp hd
  exact hc

/-- What follows an element. -/
theorem ends_elements (vs : List Json) : Ends (stringifyElements [','] vs ++ r) := by
  cases vs with
  | nil => exact ends_cons (.inr (.inl rfl))
  | cons v vs => exact ends_cons (.inl rfl)

/-- What follows a member. -/
theorem ends_members (ms : List (String × Json)) : Ends (stringifyMembers [','] ms ++ r) := by
  cases ms with
  | nil => exact ends_cons (.inr (.inr rfl))
  | cons m ms => exact ends_cons (.inl rfl)

/-- No text of a value begins with space or ends an array. -/
theorem stringify_head {v : Json} (hv : v.Writable) :
    ∃ c t, v.stringify = c :: t ∧ isSpace c = false ∧ c ≠ ']' := by
  cases v with
  | number x =>
    cases x with
    | finite x =>
      have hread := hv [] (fun c hc => by cases hc)
      rw [List.append_nil] at hread
      obtain ⟨c, t, heq, hc⟩ := number_head hread
      refine ⟨c, t, heq, ?_, ?_⟩
      · rcases hc with rfl | hc
        · decide
        · by_contra hspace
          have hcases : ((c = ' ' ∨ c = '\t') ∨ c = '\n') ∨ c = '\r' := by
            simpa only [isSpace, Bool.not_eq_false, Bool.or_eq_true, beq_iff_eq] using hspace
          rcases hcases with ((rfl | rfl) | rfl) | rfl <;> cases hc
      · rintro rfl
        rcases hc with hc | hc <;> cases hc
    | infinite negative => exact hv.elim
  | bool b => cases b <;> exact ⟨_, _, rfl, by decide, by decide⟩
  | null | string s | array elements | object members => exact ⟨_, _, rfl, by decide, by decide⟩

/-- No space comes after an element. -/
theorem skip_elements (vs : List Json) :
    skip (stringifyElements [','] vs ++ r) = stringifyElements [','] vs ++ r := by
  cases vs with
  | nil => exact skip_cons (by decide)
  | cons v vs => exact skip_cons (by decide)

/-- An array of at least one element. -/
theorem elements_cons {v : Json} {vs : List Json} (hv : v.Writable)
    (hvalue : value fuel (v.stringify ++ (stringifyElements [','] vs ++ r)) =
      some (v, stringifyElements [','] vs ++ r))
    (hmore : moreElements fuel (stringifyElements [','] vs ++ r) = some (vs, r)) :
    elements (fuel + 1) (stringifyElements [] (v :: vs) ++ r) = some (v :: vs, r) := by
  obtain ⟨c, t, heq, hspace, hbracket⟩ := stringify_head hv
  rw [stringifyElements, List.nil_append, List.append_assoc]
  rw [heq] at hvalue ⊢
  rw [List.cons_append] at hvalue ⊢
  unfold elements
  rw [skip_cons hspace]
  split
  · next h => exact absurd (List.cons.inj h).1 hbracket
  · rw [hvalue]
    change (moreElements fuel (skip _)).bind _ = _
    rw [skip_elements, hmore]
    rfl

/-- The members from one on. -/
theorem member_cons {key : String} {v : Json} {ms : List (String × Json)} (hnew : key ∉ ms.map Prod.fst)
    (hvalue : value fuel (v.stringify ++ (stringifyMembers [','] ms ++ r)) =
      some (v, stringifyMembers [','] ms ++ r))
    (hmore : ms ≠ [] → member fuel (stringifyMembers [] ms ++ r) = some (ms, r)) :
    member (fuel + 1) (stringifyMembers [] ((key, v) :: ms) ++ r) = some ((key, v) :: ms, r) := by
  have htext : stringifyMembers [] ((key, v) :: ms) ++ r =
      quoted key ++ ':' :: (v.stringify ++ (stringifyMembers [','] ms ++ r)) := by
    simp only [stringifyMembers, List.nil_append, List.append_assoc, List.cons_append]
  rw [htext, member, string_quoted]
  change (value fuel (v.stringify ++ (stringifyMembers [','] ms ++ r))).bind _ = _
  rw [hvalue]
  cases ms with
  | nil => rfl
  | cons m ms =>
    have hfresh : ((m :: ms).any fun m => m.1 == key) = false := by
      rw [List.any_eq_false]
      rintro m' hm' heq
      exact hnew (eq_of_beq heq ▸ List.mem_map_of_mem hm')
    have hread : member fuel (stringifyMembers [] (m :: ms) ++ r) = some (m :: ms, r) := hmore (List.cons_ne_nil m ms)
    change (member fuel (stringifyMembers [] (m :: ms) ++ r)).bind _ = _
    rw [hread]
    change some (if ((m :: ms).any fun m => m.1 == key) = true then m :: ms else (key, v) :: m :: ms, r) = _
    rw [hfresh]
    rfl

mutual

/-- A value is read as it was written. -/
theorem value_stringify : ∀ (v : Json), v.Writable → ∀ (fuel : ℕ) (r : List Char), Ends r →
    2 * v.stringify.length ≤ fuel → value fuel (v.stringify ++ r) = some (v, r)
  | .null, _, fuel, r, _, hfuel => by
    obtain ⟨fuel, rfl⟩ : ∃ f, fuel = f + 1 := ⟨fuel - 1, by simp [stringify] at hfuel; omega⟩
    rfl
  | .bool b, _, fuel, r, _, hfuel => by
    obtain ⟨fuel, rfl⟩ : ∃ f, fuel = f + 1 := ⟨fuel - 1, by cases b <;> simp [stringify] at hfuel <;> omega⟩
    cases b <;> rfl
  | .number (.finite x), hv, fuel, r, hr, hfuel => by
    obtain ⟨c, t, heq, -⟩ := stringify_head hv
    obtain ⟨fuel, rfl⟩ : ∃ f, fuel = f + 1 := ⟨fuel - 1, by rw [heq, List.length_cons] at hfuel; omega⟩
    exact value_number hv hr
  | .number (.infinite _), hv, _, _, _, _ => hv.elim
  | .string s, _, fuel, r, _, hfuel => by
    obtain ⟨fuel, rfl⟩ : ∃ f, fuel = f + 1 := ⟨fuel - 1, by simp [stringify, quoted] at hfuel; omega⟩
    have hstring := string_quoted s r
    change JsonText.string ('"' :: _) = _ at hstring
    change value (fuel + 1) ('"' :: _) = _
    rw [value_scalar (by decide) (by decide) (by decide), scalar, hstring]
    rfl
  | .array [], _, fuel, r, _, hfuel => by
    obtain ⟨fuel, rfl⟩ : ∃ f, fuel = f + 2 := ⟨fuel - 2, by simp [stringify, stringifyElements] at hfuel; omega⟩
    rfl
  | .array (v :: vs), hv, fuel, r, _, hfuel => by
    rw [stringify, List.length_cons, stringifyElements, List.nil_append, List.length_append] at hfuel
    obtain ⟨fuel, rfl⟩ : ∃ f, fuel = f + 2 := ⟨fuel - 2, by omega⟩
    have hvalue := value_stringify v hv.1 fuel _ (ends_elements (r := r) vs) (by omega)
    have hread := elements_cons hv.1 hvalue (moreElements_stringify vs hv.2 fuel r (by omega))
    change (elements (fuel + 1) (stringifyElements [] (v :: vs) ++ r)).map _ = _
    rw [hread]
    rfl
  | .object [], _, fuel, r, _, hfuel => by
    obtain ⟨fuel, rfl⟩ : ∃ f, fuel = f + 2 := ⟨fuel - 2, by simp [stringify, stringifyMembers] at hfuel; omega⟩
    rfl
  | .object (m :: ms), hv, fuel, r, _, hfuel => by
    rw [stringify, List.length_cons] at hfuel
    obtain ⟨fuel, rfl⟩ : ∃ f, fuel = f + 2 := ⟨fuel - 2, by omega⟩
    have hread := member_stringify (m :: ms) (List.cons_ne_nil m ms) hv.1 hv.2 fuel r (by omega)
    change (member fuel (stringifyMembers [] (m :: ms) ++ r)).map _ = _
    rw [hread]
    rfl

/-- The elements after the first are read as they were written. -/
theorem moreElements_stringify : ∀ (vs : List Json), WritableElements vs → ∀ (fuel : ℕ) (r : List Char),
    2 * (stringifyElements [','] vs).length ≤ fuel →
      moreElements fuel (stringifyElements [','] vs ++ r) = some (vs, r)
  | [], _, fuel, r, hfuel => by
    rw [stringifyElements, List.length_cons] at hfuel
    obtain ⟨fuel, rfl⟩ : ∃ f, fuel = f + 1 := ⟨fuel - 1, by omega⟩
    rfl
  | v :: vs, hvs, fuel, r, hfuel => by
    rw [stringifyElements, List.length_append, List.length_append, List.length_cons] at hfuel
    obtain ⟨fuel, rfl⟩ : ∃ f, fuel = f + 1 := ⟨fuel - 1, by omega⟩
    have hvalue := value_stringify v hvs.1 fuel _ (ends_elements (r := r) vs) (by omega)
    have hmore := moreElements_stringify vs hvs.2 fuel r (by omega)
    rw [stringifyElements, List.append_assoc, List.append_assoc]
    change (value fuel (v.stringify ++ (stringifyElements [','] vs ++ r))).bind _ = _
    rw [hvalue]
    change (moreElements fuel (skip _)).bind _ = _
    rw [skip_elements, hmore]
    rfl

/-- Members are read as they were written. -/
theorem member_stringify : ∀ (ms : List (String × Json)), ms ≠ [] → (ms.map Prod.fst).Nodup → WritableMembers ms →
    ∀ (fuel : ℕ) (r : List Char), 2 * (stringifyMembers [] ms).length ≤ fuel →
      member fuel (stringifyMembers [] ms ++ r) = some (ms, r)
  | [], hne, _, _, _, _, _ => absurd rfl hne
  | (key, v) :: ms, _, hnodup, hms, fuel, r, hfuel => by
    have hlength : (stringifyMembers [] ms).length ≤ (stringifyMembers [','] ms).length := by
      cases ms <;> simp [stringifyMembers]
    simp only [stringifyMembers, List.length_append, List.length_cons, List.length_nil] at hfuel
    obtain ⟨fuel, rfl⟩ : ∃ f, fuel = f + 1 := ⟨fuel - 1, by omega⟩
    obtain ⟨hnew, hnodup⟩ := List.nodup_cons.mp hnodup
    exact member_cons hnew (value_stringify v hms.1 fuel _ (ends_members ms) (by omega))
      (fun hne => member_stringify ms hne hnodup hms.2 fuel r (by omega))

end

/-- An object is read as it was written, whatever follows it. -/
theorem value_object {ms : List (String × Json)} (h : (object ms).Writable)
    (hfuel : 2 * (object ms).stringify.length ≤ fuel) :
    value fuel ((object ms).stringify ++ r) = some (object ms, r) := by
  rw [stringify, List.length_cons] at hfuel
  obtain ⟨fuel, rfl⟩ : ∃ f, fuel = f + 2 := ⟨fuel - 2, by omega⟩
  cases ms with
  | nil => rfl
  | cons m ms =>
    have hread := member_stringify (m :: ms) (List.cons_ne_nil m ms) h.1 h.2 fuel r (by omega)
    change (member fuel (stringifyMembers [] (m :: ms) ++ r)).map _ = _
    rw [hread]
    rfl

/-- An object is read as it was written, whatever space stands around it. -/
theorem parse_stringify {ms : List (String × Json)} {before after : List Char} (h : (object ms).Writable)
    (hbefore : ∀ c ∈ before, isSpace c = true) (hafter : ∀ c ∈ after, isSpace c = true) :
    parse (before ++ ((object ms).stringify ++ after)) = some (object ms) := by
  have hread : ∀ fuel, 2 * (object ms).stringify.length ≤ fuel + 1 →
      value (fuel + 1) (before ++ ((object ms).stringify ++ after)) = some (object ms, after) := by
    intro fuel hfuel
    have hobject := value_object (r := after) h hfuel
    unfold value at hobject ⊢
    rwa [skip_append hbefore]
  have hblank : skip after = [] := by
    have hskip := skip_append (r := []) hafter
    rwa [List.append_nil] at hskip
  unfold parse
  rw [hread _ (by simp only [List.length_append]; omega)]
  change (if skip after = [] then some (object ms) else none) = _
  rw [if_pos hblank]

end Json

/-! ## Places in a text -/

namespace JsonText

/-- Where a character stands: between no marks, in a string, or after a backslash in a string. -/
inductive Place
  | outside
  | inside
  | escaping
deriving DecidableEq

/-- The place after a character. -/
def Place.next : Place → Char → Place
  | .outside, c => if c = '"' then .inside else .outside
  | .inside, c => if c = '"' then .outside else if c = '\\' then .escaping else .inside
  | .escaping, _ => .inside

/-- The place after a text. -/
def placeAfter (p : Place) (t : List Char) : Place := t.foldl Place.next p

variable {c : Char} {t u r : List Char} {p : Place} {fuel : ℕ}

theorem placeAfter_cons : placeAfter p (c :: t) = placeAfter (p.next c) t := rfl

theorem placeAfter_append : placeAfter p (t ++ u) = placeAfter (placeAfter p t) u := List.foldl_append

/-- A character that is no mark leaves no string and enters none. -/
theorem Place.next_of_ne (hquote : c ≠ '"') (hback : c ≠ '\\') (hp : p ≠ .escaping) : p.next c = p := by
  cases p with
  | outside => exact if_neg hquote
  | inside => exact (if_neg hquote).trans (if_neg hback)
  | escaping => exact absurd rfl hp

/-- Characters that are no marks leave no string and enter none. -/
theorem placeAfter_of_ne (ht : ∀ c ∈ t, c ≠ '"' ∧ c ≠ '\\') (hp : p ≠ .escaping) : placeAfter p t = p := by
  induction t with
  | nil => rfl
  | cons c t ih =>
    obtain ⟨⟨hquote, hback⟩, ht⟩ := List.forall_mem_cons.mp ht
    rw [placeAfter_cons, Place.next_of_ne hquote hback hp, ih ht]

/-- Outside of strings only a quotation mark counts. -/
theorem after_cons (hquote : c ≠ '"') : placeAfter .outside (c :: t) = placeAfter .outside t := by
  rw [placeAfter_cons, Place.next, if_neg hquote]

/-! ## Readers and strings -/

/-- What is found by going through a text. A brace outside of strings may count. -/
def Scans {β : Type} (f : Place → List Char → β) : Prop :=
  ∀ p c t, (p = .outside → c ≠ '\x7b' ∧ c ≠ '\x7d') → f p (c :: t) = f (p.next c) t

section Scans

variable {β : Type} {f : Place → List Char → β}

/-- A hexadecimal digit is no mark. -/
theorem hexDigit_ne {n : ℕ} (h : hexDigit c = some n) : c ≠ '"' ∧ c ≠ '\\' := by
  constructor
  · rintro rfl
    cases h
  · rintro rfl
    cases h

theorem Scans.hexCode (hf : Scans f) {n : ℕ} (h : hexCode t = some (n, r)) : f .inside r = f .inside t := by
  unfold JsonText.hexCode at h
  split at h
  · next a b c d t =>
    simp only [Option.bind_eq_bind, Option.bind_eq_some_iff, Option.some.injEq, Prod.mk.injEq] at h
    obtain ⟨_, ha, _, hb, _, hc, _, hd, -, rfl⟩ := h
    have hnext : ∀ {c t}, c ≠ '"' ∧ c ≠ '\\' → f .inside (c :: t) = f .inside t := fun hc => by
      rw [hf _ _ _ (fun h => by cases h), Place.next_of_ne hc.1 hc.2 (by decide)]
    rw [hnext (hexDigit_ne ha), hnext (hexDigit_ne hb), hnext (hexDigit_ne hc), hnext (hexDigit_ne hd)]
  · cases h

/-- Reading a character after a backslash goes back into the string. -/
theorem Scans.escape (hf : Scans f) {d : Char} (h : escape t = some (d, r)) : f .inside r = f .escaping t := by
  have hback : ∀ c t, f .escaping (c :: t) = f .inside t := fun c t => hf _ _ _ (fun h => by cases h)
  unfold JsonText.escape at h
  split at h
  case h_9 t =>
    rw [hback]
    unfold unicode at h
    simp only [Option.bind_eq_bind, Option.bind_eq_some_iff] at h
    obtain ⟨⟨high, t'⟩, hhigh, h⟩ := h
    rw [← hf.hexCode hhigh]
    dsimp only at h
    split at h
    · split at h
      · next t' =>
        simp only [Option.bind_eq_some_iff] at h
        obtain ⟨⟨low, t''⟩, hlow, h⟩ := h
        dsimp only at h
        split at h
        · simp only [Option.some.injEq, Prod.mk.injEq] at h
          obtain ⟨-, rfl⟩ := h
          rw [hf.hexCode hlow, hf .inside _ _ (fun h => by cases h)]
          exact (hback _ _).symm
        · cases h
      · cases h
    · split at h
      · cases h
      · simp only [Option.some.injEq, Prod.mk.injEq] at h
        obtain ⟨-, rfl⟩ := h
        rfl
  case h_10 => cases h
  all_goals
    simp only [Option.some.injEq, Prod.mk.injEq] at h
    obtain ⟨-, rfl⟩ := h
    exact (hback _ _).symm

/-- Reading the characters of a string leaves it. -/
theorem Scans.characters (hf : Scans f) {s : List Char} (h : characters fuel t = some (s, r)) :
    f .outside r = f .inside t := by
  induction fuel generalizing t s with
  | zero => cases h
  | succ fuel ih =>
    cases t with
    | nil => cases h
    | cons c t =>
      unfold JsonText.characters at h
      rw [hf _ _ _ (fun h => by cases h), Place.next]
      split_ifs at h ⊢ with hquote hback
      · simp only [Option.some.injEq, Prod.mk.injEq] at h
        obtain ⟨-, rfl⟩ := h
        rfl
      · simp only [Option.bind_eq_bind, Option.bind_eq_some_iff, Option.some.injEq, Prod.mk.injEq] at h
        obtain ⟨⟨d, t'⟩, hescape, ⟨s', r'⟩, hrest, -, rfl⟩ := h
        exact (ih hrest).trans (hf.escape hescape)
      · simp only [Option.bind_eq_bind, Option.bind_eq_some_iff, Option.some.injEq, Prod.mk.injEq] at h
        obtain ⟨⟨s', r'⟩, hrest, -, rfl⟩ := h
        exact ih hrest

/-- Reading a string comes back out of it. -/
theorem Scans.string (hf : Scans f) {s : String} (h : string t = some (s, r)) : f .outside r = f .outside t := by
  unfold JsonText.string at h
  split at h
  · simp only [Option.map_eq_some_iff, Prod.map, Prod.mk.injEq] at h
    obtain ⟨⟨s', r'⟩, hs, -, rfl⟩ := h
    exact (hf.characters hs).trans (hf .outside '"' _ fun _ => by decide).symm
  · cases h

end Scans

/-- Readers end where they began: outside of strings. -/
theorem reading_after : Reading fun t _ r => placeAfter .outside r = placeAfter .outside t where
  refl _ := rfl
  trans := fun h h' => h'.trans h
  drop := by
    intro c t hc
    refine (after_cons ?_).symm
    rintro rfl
    cases hc
  string := fun h => Scans.string (fun _ _ _ _ => rfl) h
  object := by
    intro t ss r h
    rw [after_cons (by decide)] at h
    rw [after_cons (by decide), h]
  shadow := by
    intro t r ss ss' h
    exact h

end JsonText

/-! ## What stands outside of strings -/

namespace JsonText

variable {c : Char} {t u r : List Char} {p : Place} {fuel : ℕ}

/-- A character that stands outside of strings in a text that was written. -/
def isStructure (c : Char) : Bool :=
  c.isDigit || [',', ':', '[', ']', '\x7b', '\x7d', '-', '+', '.'].contains c ||
    ['n', 'u', 'l', 't', 'r', 'e', 'f', 'a', 's'].contains c

/-- Outside of strings only such characters stand. -/
def Structured : Place → List Char → Prop
  | _, [] => True
  | p, c :: t => (p = .outside → c = '"' ∨ isStructure c = true) ∧ Structured (p.next c) t

theorem structured_append : Structured p (t ++ u) ↔ Structured p t ∧ Structured (placeAfter p t) u := by
  induction t generalizing p with
  | nil => exact (and_iff_right trivial).symm
  | cons c t ih =>
    rw [List.cons_append, Structured, Structured, ih, and_assoc]
    rfl

/-- A text that is cut at a backquote ends in a string. -/
theorem Structured.cut (h : Structured p (u ++ '\x60' :: r)) : placeAfter p u ≠ .outside :=
  fun houtside => absurd ((structured_append.mp h).2.1 houtside) (by decide)

/-- A part of a text: it begins and ends outside of strings. -/
structure Sealed (t : List Char) : Prop where
  structured : Structured .outside t
  after : placeAfter .outside t = .outside

theorem Sealed.append (ht : Sealed t) (hu : Sealed u) : Sealed (t ++ u) where
  structured := structured_append.mpr ⟨ht.structured, ht.after.symm ▸ hu.structured⟩
  after := by rw [placeAfter_append, ht.after, hu.after]

theorem sealed_of_structure (ht : ∀ c ∈ t, isStructure c = true) : Sealed t := by
  induction t with
  | nil => exact ⟨trivial, rfl⟩
  | cons c t ih =>
    obtain ⟨hc, ht⟩ := List.forall_mem_cons.mp ht
    have hquote : c ≠ '"' := by
      rintro rfl
      cases hc
    have hnext : Place.outside.next c = .outside := if_neg hquote
    exact ⟨⟨fun _ => .inr hc, hnext.symm ▸ (ih ht).structured⟩, (after_cons hquote).trans (ih ht).after⟩

/-- Between the marks of a string everything may stand. -/
theorem structured_inside (ht : ∀ c ∈ t, c ≠ '"' ∧ c ≠ '\\') : Structured .inside t := by
  induction t with
  | nil => trivial
  | cons c t ih =>
    obtain ⟨⟨hquote, hback⟩, ht⟩ := List.forall_mem_cons.mp ht
    have hnext : Place.inside.next c = .inside := Place.next_of_ne hquote hback (by decide)
    exact ⟨fun h => (by cases h), hnext.symm ▸ ih ht⟩

/-- A character of a string leads back into it. -/
theorem inside_escaped (c : Char) :
    Structured .inside (escaped c) ∧ placeAfter .inside (escaped c) = .inside := by
  obtain ⟨heq, hquote, hback, -⟩ | ⟨d, e, heq, -, he⟩ := escaped_cases c
  · rw [heq]
    have hc : ∀ k ∈ [c], k ≠ '"' ∧ k ≠ '\\' := List.forall_mem_singleton.mpr ⟨hquote, hback⟩
    exact ⟨structured_inside hc, placeAfter_of_ne hc (by decide)⟩
  · rw [heq]
    have hafter : placeAfter .inside e = .inside := placeAfter_of_ne he (by decide)
    exact ⟨⟨fun h => (by cases h), fun h => (by cases h), structured_inside he⟩, hafter⟩

theorem sealed_quoted (s : String) : Sealed (quoted s) := by
  have hinside : ∀ cs : List Char,
      Structured .inside (cs.flatMap escaped) ∧ placeAfter .inside (cs.flatMap escaped) = .inside := by
    intro cs
    induction cs with
    | nil => exact ⟨trivial, rfl⟩
    | cons c cs ih =>
      obtain ⟨hstructured, hafter⟩ := inside_escaped c
      rw [List.flatMap_cons, structured_append, placeAfter_append, hafter]
      exact ⟨⟨hstructured, ih.1⟩, ih.2⟩
  obtain ⟨hstructured, hafter⟩ := hinside s.toList
  have hclose : Structured .inside ['"'] := ⟨fun h => (by cases h), trivial⟩
  refine ⟨⟨fun _ => .inl rfl, structured_append.mpr ⟨hstructured, hafter.symm ▸ hclose⟩⟩, ?_⟩
  change placeAfter .inside (s.toList.flatMap escaped ++ ['"']) = _
  rw [placeAfter_append, hafter]
  rfl

/-- A string that is read where none is, from the closing mark of one string to the opening mark of another, holds what
stands outside of strings. -/
theorem structure_characters {s : List Char} (h : characters fuel t = some (s, r)) (ht : Structured .outside t) :
    Structured .inside r ∧ ∀ c ∈ s, isStructure c = true := by
  induction fuel generalizing t s with
  | zero => cases h
  | succ fuel ih =>
    cases t with
    | nil => cases h
    | cons c t =>
      unfold characters at h
      rw [Structured, Place.next] at ht
      split_ifs at h ht with hquote hback
      · simp only [Option.some.injEq, Prod.mk.injEq] at h
        obtain ⟨rfl, rfl⟩ := h
        exact ⟨ht.2, List.forall_mem_nil _⟩
      · subst hback
        exact absurd (ht.1 rfl) (by decide)
      · simp only [Option.bind_eq_bind, Option.bind_eq_some_iff, Option.some.injEq, Prod.mk.injEq] at h
        obtain ⟨⟨s', r'⟩, hrest, rfl, rfl⟩ := h
        obtain ⟨hr, hs⟩ := ih hrest ht.2
        exact ⟨hr, List.forall_mem_cons.mpr ⟨(ht.1 rfl).resolve_left hquote, hs⟩⟩

/-- What is read from the inside of a string on has only strings of what stands outside of strings. -/
theorem reading_structure : Reading fun t ss r => Structured .inside t →
    Structured .inside r ∧ ∀ s ∈ ss, ∀ c ∈ s.toList, isStructure c = true where
  refl _ h := ⟨h, List.forall_mem_nil _⟩
  trans := by
    intro t u r ss ss' h h' ht
    obtain ⟨hu, hss⟩ := h ht
    obtain ⟨hr, hss'⟩ := h' hu
    exact ⟨hr, List.forall_mem_append.mpr ⟨hss, hss'⟩⟩
  drop := by
    intro c t hc ht
    refine ⟨?_, List.forall_mem_nil _⟩
    have hnext : Place.inside.next c = .inside := by
      refine Place.next_of_ne ?_ ?_ (by decide) <;> rintro rfl <;> cases hc
    exact hnext ▸ ht.2
  string := by
    intro t s r h ht
    unfold string at h
    split at h
    · simp only [Option.map_eq_some_iff, Prod.map, Prod.mk.injEq] at h
      obtain ⟨⟨s', r'⟩, hs, rfl, rfl⟩ := h
      obtain ⟨hr, hstructure⟩ := structure_characters hs ht.2
      refine ⟨hr, List.forall_mem_singleton.mpr ?_⟩
      rwa [String.toList_ofList]
    · cases h
  object := fun h ht => ⟨(h ht.2).1.2, (h ht.2).2⟩
  shadow := by
    intro t r ss ss' h ht
    exact ⟨(h ht).1, (List.forall_mem_append.mp (h ht).2).2⟩

/-! ## Where an object ends -/

/-- What follows the brace that closes an object, where `n` objects are open in it. -/
def closing : ℕ → Place → List Char → Option (List Char)
  | _, _, [] => none
  | n, p, c :: t =>
    if p = .outside ∧ c = '\x7d' then if n = 0 then some t else closing (n - 1) p t
    else closing (if p = .outside ∧ c = '\x7b' then n + 1 else n) (p.next c) t

theorem scans_closing (n : ℕ) : Scans (closing n) := by
  intro p c t h
  rw [closing, if_neg (fun hbrace => (h hbrace.1).2 hbrace.2), if_neg (fun hbrace => (h hbrace.1).1 hbrace.2)]

/-- Reading does not go beyond the brace that closes an object. -/
theorem reading_closing : Reading fun t _ r => ∀ n, closing n .outside t = closing n .outside r where
  refl _ _ := rfl
  trans := fun h h' n => (h n).trans (h' n)
  drop := by
    intro c t hc n
    rw [scans_closing n .outside c t]
    · rw [Place.next, if_neg]
      rintro rfl
      cases hc
    · refine fun _ => ⟨?_, ?_⟩ <;> rintro rfl <;> cases hc
  string := fun h n => ((scans_closing n).string h).symm
  object := fun h n => h (n + 1)
  shadow := by
    intro t r ss ss' h
    exact h

/-- An object that is read ends at the brace that closes it. -/
theorem closing_of_value {v : Json} (h : value fuel ('\x7b' :: t) = some (v, r)) : closing 0 .outside t = some r := by
  cases fuel with
  | zero => cases h
  | succ fuel =>
    unfold value at h
    rw [skip_cons (by decide)] at h
    simp only [Option.map_eq_some_iff, Prod.map, Prod.mk.injEq] at h
    obtain ⟨⟨ms, r'⟩, hms, -, rfl⟩ := h
    exact (reads reading_closing fuel).members t ms r' hms 0

end JsonText

namespace Json

open JsonText

mutual

/-- A text of a value: outside of strings it has no backquote. -/
theorem sealed_stringify : ∀ v : Json, Sealed v.stringify
  | .null | .number (.infinite _) => sealed_of_structure (t := "null".toList) (forall_of_all (by decide))
  | .bool b => by cases b <;> exact sealed_of_structure (forall_of_all (by decide))
  | .number (.finite x) => sealed_of_structure fun c hc => by
    rcases Number.mem_asText hc with hc | hc
    · rw [isStructure, hc, Bool.true_or, Bool.true_or]
    · exact forall_of_all (p := fun k => isStructure k = true) (by decide) c hc
  | .string s => sealed_quoted s
  | .array elements => (sealed_of_structure (t := ['[']) (forall_of_all (by decide))).append
      (sealed_stringifyElements elements [] (forall_of_all (by decide)))
  | .object members => (sealed_of_structure (t := ['\x7b']) (forall_of_all (by decide))).append
      (sealed_stringifyMembers members [] (forall_of_all (by decide)))

/-- The texts of elements. -/
theorem sealed_stringifyElements : ∀ (vs : List Json) (comma : List Char), (∀ c ∈ comma, isStructure c = true) →
    Sealed (stringifyElements comma vs)
  | [], _, _ => sealed_of_structure (t := [']']) (forall_of_all (by decide))
  | v :: vs, _, hcomma => (sealed_of_structure hcomma).append
      ((sealed_stringify v).append (sealed_stringifyElements vs [','] (forall_of_all (by decide))))

/-- The texts of members. -/
theorem sealed_stringifyMembers : ∀ (ms : List (String × Json)) (comma : List Char),
    (∀ c ∈ comma, isStructure c = true) → Sealed (stringifyMembers comma ms)
  | [], _, _ => sealed_of_structure (t := ['\x7d']) (forall_of_all (by decide))
  | (key, v) :: ms, _, hcomma => (sealed_of_structure hcomma).append ((sealed_quoted key).append
      ((sealed_of_structure (t := [':']) (forall_of_all (by decide))).append
        ((sealed_stringify v).append (sealed_stringifyMembers ms [','] (forall_of_all (by decide))))))

end

/-- An object stands between its braces. -/
theorem stringify_object (ms : List (String × Json)) :
    ∃ t, (object ms).stringify = '\x7b' :: (t ++ ['\x7d']) := by
  have hmembers : ∀ (ms : List (String × Json)) (comma : List Char),
      ∃ t, stringifyMembers comma ms = t ++ ['\x7d'] := by
    intro ms
    induction ms with
    | nil => exact fun _ => ⟨[], rfl⟩
    | cons m ms ih =>
      intro comma
      obtain ⟨t, ht⟩ := ih [',']
      refine ⟨comma ++ (quoted m.1 ++ ':' :: (m.2.stringify ++ t)), ?_⟩
      rw [stringifyMembers, ht]
      simp only [List.append_assoc, List.cons_append]
  obtain ⟨t, ht⟩ := hmembers ms []
  exact ⟨t, by rw [stringify, ht]⟩

/-! ## Texts that are read -/

section Parsing

variable {t : List Char} {v w : Json}

theorem skip_skip : skip (skip t) = skip t := List.dropWhile_idempotent isSpace t

theorem exists_value_of_parse (h : parse t = some v) :
    ∃ fuel r, value (fuel + 1) (skip t) = some (v, r) ∧ skip r = [] := by
  unfold parse at h
  simp only [Option.bind_eq_some_iff] at h
  obtain ⟨⟨v', r⟩, hvalue, h⟩ := h
  split at h
  · next hblank =>
    obtain rfl := Option.some.inj h
    refine ⟨2 * t.length + 1, r, ?_, hblank⟩
    have hskip : skip (skip t) = skip t := skip_skip
    unfold value at hvalue ⊢
    rwa [hskip]
  · cases h

/-- A text that is read ends outside of strings. -/
theorem parse_eq_none (h : placeAfter .outside t ≠ .outside) : parse t = none := by
  refine Option.eq_none_iff_forall_not_mem.mpr fun v hv => h ?_
  obtain ⟨fuel, r, hvalue, hblank⟩ := exists_value_of_parse hv
  have hread : placeAfter .outside r = placeAfter .outside (skip t) := (reads reading_after _).value _ _ _ hvalue
  have hbefore : placeAfter .outside (skip t) = placeAfter .outside t := reading_after.skip
  have hafter : placeAfter .outside (skip r) = placeAfter .outside r := reading_after.skip
  rw [← hbefore, ← hread, ← hafter, hblank]
  rfl

/-- The strings of a value that is read from the inside of a string on. -/
theorem structure_of_parse (ht : Structured .inside t) (h : parse t = some v) :
    ∀ s ∈ v.strings, ∀ c ∈ s.toList, isStructure c = true := by
  obtain ⟨fuel, r, hvalue, -⟩ := exists_value_of_parse h
  exact ((reads reading_structure _).value _ _ _ hvalue (reading_structure.skip ht).1).2

/-- An object begins with its brace. -/
theorem skip_of_parse_object {ms : List (String × Json)} (h : parse t = some (.object ms)) :
    ∃ u, skip t = '\x7b' :: u := by
  obtain ⟨fuel, r, hvalue, -⟩ := exists_value_of_parse h
  unfold value at hvalue
  split at hvalue
  · simp only [Option.map_eq_some_iff, Prod.map, Prod.mk.injEq] at hvalue
    obtain ⟨_, _, hobject, _⟩ := hvalue
    cases hobject
  · next u hu =>
    have hskip : skip (skip t) = skip t := skip_skip
    exact ⟨u, hskip ▸ hu⟩
  · unfold scalar at hvalue
    simp only [Option.or_eq_some_iff, Option.map_eq_some_iff, Prod.map, Prod.mk.injEq] at hvalue
    rcases hvalue with ⟨_, _, hobject, _⟩ | ⟨-, hword | ⟨-, _, _, hobject, _⟩⟩
    · cases hobject
    · unfold word at hword
      split at hword <;> cases hword
    · cases hobject

/-- The name of a property is one of the strings. -/
theorem mem_strings_of_get {key : String} (h : v.get key = some w) : key ∈ v.strings := by
  cases v with
  | object members =>
    change members.lookup key = some w at h
    change key ∈ stringsOfMembers members
    induction members with
    | nil => cases h
    | cons m members ih =>
      obtain ⟨k, v⟩ := m
      rw [stringsOfMembers]
      rw [List.lookup_cons] at h
      cases hk : key == k with
      | true => rw [eq_of_beq hk]; exact List.mem_cons_self
      | false =>
        rw [hk] at h
        exact List.mem_cons_of_mem _ (List.mem_append_right _ (ih h))
  | null | bool b | number x | string s | array elements => cases h

end Parsing

end Json
