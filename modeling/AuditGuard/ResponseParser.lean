import AuditGuard.Library.JsonStringify

/-!
# Reading the response of a language model

`response-parser.ts`: the JSON of a response is looked for between fences, then the whole response is read, and last
what stands between its first and its last brace. The first of these that gives something counts.

The search for the fences knows nothing of strings. A response that is an object with its `findings` is read as it is
(`transparent_of_clear`) unless something else is found before: a value between two fences that stand in strings of the
object, or the response as a whole where there is prose around the object.

A number is the decimal that its text has, and stands for the double that is nearest to it.
-/

namespace AuditGuard.ResponseParser

open JsonText

/-- A character that `\s` matches and `trim` takes off. -/
def isWhite (c : Char) : Bool :=
  c == ' ' || ('\t' ≤ c && c ≤ '\r') || (0x2000 ≤ c.toNat && c.toNat ≤ 0x200A) ||
    [0xA0, 0x1680, 0x2028, 0x2029, 0x202F, 0x205F, 0x3000, 0xFEFF].contains c.toNat

/-- `text.trim()`. -/
def trim (t : List Char) : List Char := ((t.dropWhile isWhite).reverse.dropWhile isWhite).reverse

/-! ## Where the JSON is looked for -/

/-- Three backquotes. -/
def fence : List Char := ['\x60', '\x60', '\x60']

/-- What follows the first fence. -/
def afterFence : List Char → Option (List Char)
  | [] => none
  | c :: t => if fence.isPrefixOf (c :: t) then some ((c :: t).drop 3) else afterFence t

/-- What stands before the first fence. -/
def beforeFence : List Char → Option (List Char)
  | [] => none
  | c :: t => if fence.isPrefixOf (c :: t) then some [] else (beforeFence t).map (c :: ·)

/-- What follows the label of a fence, `(?:json)?\s*\n?`. -/
def afterLabel (t : List Char) : List Char :=
  (if "json".toList.isPrefixOf t then t.drop 4 else t).dropWhile isWhite

/-- `extractJsonFromFence`. Where no fence closes the first one there is none to close a later one, and a shorter label
leaves the same fence to close it. -/
def extractJsonFromFence (raw : List Char) : Option (List Char) :=
  (afterFence raw).bind fun t => (beforeFence (afterLabel t)).map trim

/-- `extractFirstJsonObject`: from the first opening brace to the last closing one. -/
def extractFirstJsonObject (raw : List Char) : Option (List Char) :=
  let t := raw.dropWhile (· != '\x7b')
  let object := (t.reverse.dropWhile (· != '\x7d')).reverse
  if object = [] then none else some object

/-- `cleanTrailingCommas`: no comma stays that has only space between it and a closing bracket or brace. -/
def cleanTrailingCommas : List Char → List Char
  | [] => []
  | c :: t =>
    if c = ',' ∧ ((t.dropWhile isWhite).head? = some ']' ∨ (t.dropWhile isWhite).head? = some '\x7d') then
      (cleanTrailingCommas t).dropWhile isWhite
    else c :: cleanTrailingCommas t

/-- `tryParseJson`. -/
def tryParseJson (text : List Char) : Option Json := (Json.parse text).or (Json.parse (cleanTrailingCommas text))

/-- The double that is nearest to the number is zero. -/
def isZero (x : ℚ) : Bool := |x| ≤ 1 / 2^1075

/-- A value that a condition takes for true. -/
def truthy : Json → Bool
  | .null => false
  | .bool b => b
  | .number (.finite x) => !isZero x
  | .number (.infinite _) => true
  | .string s => s ≠ ""
  | .array _ | .object _ => true

/-- What `tryParseJson` gives, if that is not falsy. -/
def attempt (text : List Char) : Option Json := (tryParseJson text).filter truthy

/-- What is read between the fences. -/
def parsedFence (raw : List Char) : Option Json := ((extractJsonFromFence raw).filter (· ≠ [])).bind attempt

/-- What is read: the first of the three that is not falsy. -/
def parsed (raw : List Char) : Option Json :=
  ((parsedFence raw).or (attempt raw)).or ((extractFirstJsonObject raw).bind attempt)

/-! ## What is made of it -/

/-- A finding. -/
structure Finding where
  id : String
  severity : String
  title : String
  description : String
  confidence : ℚ
  agentId : String
  timestamp : ℕ
deriving DecidableEq

/-- What `parseFindings` returns. -/
structure ParseResult where
  findings : List Finding
  parseError : Option String
  rawResponse : List Char
deriving DecidableEq

/-- `VALID_SEVERITIES`. -/
def validSeverities : List String := ["critical", "high", "medium", "low", "info"]

/-- `ID_PATTERN.test(id)`. -/
def idPattern (id : String) : Bool :=
  match id.toList with
  | ['L', 'L', 'M', '-', a, b, c] => a.isDigit && b.isDigit && c.isDigit
  | _ => false

/-- A property that is a string. -/
def stringOf (raw : Json) (key : String) : Option String :=
  match raw.get key with
  | some (.string s) => some s
  | _ => none

/-- The confidence, between zero and one. -/
def confidenceOf (raw : Json) : ℚ :=
  match raw.get "confidence" with
  | some (.number (.finite x)) => max 0 (min 1 x)
  | some (.number (.infinite negative)) => if negative then 0 else 1
  | _ => 1 / 2

/-- The title without the space around it, empty where there is none. -/
def titleOf (raw : Json) : List Char := trim ((stringOf raw "title").getD "").toList

/-- The id, or one that is made of the index. -/
def idOf (raw : Json) (index : ℕ) : String :=
  let id := (stringOf raw "id").getD ""
  if idPattern id then id
  else String.ofList ("LLM-".toList ++ (Nat.toDigits 10 (index + 1)).leftpad 3 '0')

/-- The severity, `medium` where there is none. -/
def severityOf (raw : Json) : String :=
  match stringOf raw "severity" with
  | some severity => if severity ∈ validSeverities then severity else "medium"
  | none => "medium"

/-- An item that a finding is made of: an object, or an array, that has a title. -/
def isValid (raw : Json) : Bool :=
  (match raw with
    | .array _ | .object _ => true
    | _ => false) && titleOf raw ≠ []

/-- `validateAndFixFinding`, at the time `now`. -/
def validateAndFixFinding (raw : Json) (index : ℕ) (agentId : String) (now : ℕ) : Option Finding :=
  if isValid raw then
    some
      { id := idOf raw index
        severity := severityOf raw
        title := String.ofList (titleOf raw)
        description := (stringOf raw "description").getD ""
        confidence := confidenceOf raw
        agentId := agentId
        timestamp := now }
  else none

/-- The findings that are made of the items. -/
def findingsOf (items : List Json) (agentId : String) (now : ℕ → ℕ) : List Finding :=
  items.zipIdx.filterMap fun p => validateAndFixFinding p.1 p.2 agentId (now p.2)

/-- `parseFindings`. The clock says when each item is looked at. -/
def parseFindings (raw : List Char) (agentId : String) (now : ℕ → ℕ) : ParseResult :=
  if trim raw = [] then ⟨[], some "Empty response from LLM", raw⟩
  else
    match parsed raw with
    | none => ⟨[], some "Failed to parse JSON from LLM response", raw⟩
    | some v =>
      match (v.get "findings").filter truthy with
      | none => ⟨[], some "Response JSON missing 'findings' key", raw⟩
      | some (.array items) => ⟨findingsOf items agentId now, none, raw⟩
      | some _ => ⟨[], some "'findings' is not an array", raw⟩

/-! ## Responses -/

/-- What stands around the JSON of a response. -/
inductive Wrapping
  | bare
  | fenced
  | prose (before after : List Char)

/-- The response with the text in it. -/
def Wrapping.wrap : Wrapping → List Char → List Char
  | .bare, t => t
  | .fenced, t => fence ++ ("json\n".toList ++ (t ++ '\n' :: fence))
  | .prose before after, t => before ++ (t ++ after)

/-- Prose has no braces and no backquotes. -/
def Wrapping.Plain : Wrapping → Prop
  | .bare | .fenced => True
  | .prose before after => ∀ c ∈ before ++ after, c ≠ '\x7b' ∧ c ≠ '\x7d' ∧ c ≠ '\x60'

/-- The text is JSON, if need be without the commas before its closing brackets and braces, and not of a value that
counts as false. -/
def HasValue (t : List Char) : Prop :=
  ∃ v, truthy v = true ∧ (Json.parse t = some v ∨ Json.parse t = none ∧ Json.parse (cleanTrailingCommas t) = some v)

/-- The first fence of the text stands between the two parts. -/
def FirstFence (t before after : List Char) : Prop :=
  t = before ++ (fence ++ after) ∧ ∀ before' after', t = before' ++ (fence ++ after') → before.length ≤ before'.length

/-- The text between the first two fences is JSON of such a value. -/
def HasFencedValue (t : List Char) : Prop :=
  ∃ before content inner after, FirstFence t before content ∧ FirstFence (afterLabel content) inner after ∧
    HasValue (trim inner)

/-- Nothing else is JSON in the response before the object is: nothing between fences that stand in its strings, and
not the whole with the prose. -/
def Wrapping.Clear (w : Wrapping) (t : List Char) : Prop :=
  match w with
  | .fenced => True
  | .bare => ¬ HasFencedValue t
  | .prose before after => ¬ HasFencedValue (before ++ (t ++ after)) ∧
    ((∀ c ∈ before ++ after, isSpace c = true) ∨ ¬ HasValue (before ++ (t ++ after)))

/-- A finding has the severity, the title and the description of its item: its severity if that is one, its title
without the space around it. -/
structure Keeps (item : Json) (finding : Finding) : Prop where
  severity : ∀ s ∈ validSeverities, stringOf item "severity" = some s → finding.severity = s
  title : ∀ s, stringOf item "title" = some s → finding.title.toList = trim s.toList
  description : ∀ s, stringOf item "description" = some s → finding.description = s

/-- The response gives the findings of the items, without an error: one for each valid item, in order. -/
structure Transparent (raw : List Char) (items : List Json) (agentId : String) (now : ℕ → ℕ) : Prop where
  parseError : (parseFindings raw agentId now).parseError = none
  findings : (parseFindings raw agentId now).findings = findingsOf items agentId now
  keeps : List.Forall₂ Keeps (items.filter isValid) (parseFindings raw agentId now).findings

section Reading

variable {t u r w : List Char} {c : Char} {p : Place}

/-- Space is neither a comma nor a mark, a brace or a backquote. -/
theorem ne_of_isWhite (hc : isWhite c = true) :
    c ≠ ',' ∧ c ≠ '"' ∧ c ≠ '\\' ∧ c ≠ '\x7b' ∧ c ≠ '\x7d' ∧ c ≠ '\x60' := by
  refine ⟨?_, ?_, ?_, ?_, ?_, ?_⟩ <;> rintro rfl <;> revert hc <;> decide

/-! ## Cleaning keeps strings -/

/-- A character stays, or it is a comma and goes with the space after it, up to a bracket or a brace. -/
theorem cleanTrailingCommas_cons (c : Char) (t : List Char) :
    cleanTrailingCommas (c :: t) = c :: cleanTrailingCommas t ∨
      c = ',' ∧ ∃ w k s, cleanTrailingCommas t = w ++ k :: s ∧ (∀ d ∈ w, isWhite d = true) ∧ (k = ']' ∨ k = '\x7d') ∧
        cleanTrailingCommas (c :: t) = k :: s := by
  rw [cleanTrailingCommas]
  split_ifs with h
  · obtain ⟨rfl, hcloses⟩ := h
    right
    refine ⟨rfl, ?_⟩
    -- No comma stands in the space, so that cleaning leaves it.
    have hclean : ∀ t, (t.dropWhile isWhite).head? = some ']' ∨ (t.dropWhile isWhite).head? = some '\x7d' →
        ∃ w k s, cleanTrailingCommas t = w ++ k :: s ∧ (∀ d ∈ w, isWhite d = true) ∧ (k = ']' ∨ k = '\x7d') := by
      intro t
      induction t with
      | nil => rintro (h | h) <;> cases h
      | cons d t ih =>
        intro h
        cases hd : isWhite d with
        | true =>
          rw [List.dropWhile_cons_of_pos hd] at h
          obtain ⟨w, k, s, hsplit, hw, hk⟩ := ih h
          refine ⟨d :: w, k, s, ?_, List.forall_mem_cons.mpr ⟨hd, hw⟩, hk⟩
          rw [cleanTrailingCommas, if_neg (fun hcomma => (ne_of_isWhite hd).1 hcomma.1), hsplit]
          rfl
        | false =>
          rw [List.dropWhile_cons_of_neg (by rw [hd]; decide)] at h
          have hk : d = ']' ∨ d = '\x7d' := h.imp Option.some.inj Option.some.inj
          refine ⟨[], d, cleanTrailingCommas t, ?_, List.forall_mem_nil _, hk⟩
          rw [cleanTrailingCommas, if_neg]
          · rfl
          · rintro ⟨rfl, -⟩
            rcases hk with hk | hk <;> cases hk
    obtain ⟨w, k, s, hsplit, hw, hk⟩ := hclean t hcloses
    refine ⟨w, k, s, hsplit, hw, hk, ?_⟩
    have hwhite : isWhite k = false := by rcases hk with rfl | rfl <;> decide
    rw [hsplit, List.dropWhile_append_of_pos hw, List.dropWhile_cons_of_neg (by rw [hwhite]; decide)]
  · exact .inl rfl

/-- What goes with a comma: it is no mark, and what follows it stands where it stood. -/
theorem next_comma {k : Char} (hw : ∀ d ∈ w, isWhite d = true) (hk : k = ']' ∨ k = '\x7d') :
    placeAfter (p.next ',') w = p.next ',' ∧ p.next k = p.next ',' ∧ (p.next ',').next k = p.next ',' := by
  have hcomma : p.next ',' ≠ .escaping := by cases p <;> decide
  have hplain : ∀ d ∈ w, d ≠ '"' ∧ d ≠ '\\' := fun d hd =>
    ⟨(ne_of_isWhite (hw d hd)).2.1, (ne_of_isWhite (hw d hd)).2.2.1⟩
  refine ⟨placeAfter_of_ne hplain hcomma, ?_, ?_⟩
  · rcases hk with rfl | rfl <;> cases p <;> rfl
  · rcases hk with rfl | rfl <;> cases p <;> rfl

/-- No string opens or closes where commas are taken off. -/
theorem placeAfter_cleanTrailingCommas : placeAfter p (cleanTrailingCommas t) = placeAfter p t := by
  induction t generalizing p with
  | nil => rfl
  | cons c t ih =>
    obtain heq | ⟨rfl, w, k, s, hsplit, hw, hk, heq⟩ := cleanTrailingCommas_cons c t
    · rw [heq, placeAfter_cons, placeAfter_cons, ih]
    · obtain ⟨hspace, hnext, hstays⟩ := next_comma (p := p) hw hk
      rw [heq, placeAfter_cons, placeAfter_cons, ← ih, hsplit, placeAfter_append, hspace, placeAfter_cons, hstays,
        hnext]

/-- Nothing else comes to stand outside of strings. -/
theorem structured_cleanTrailingCommas (h : Structured p t) : Structured p (cleanTrailingCommas t) := by
  induction t generalizing p with
  | nil => exact h
  | cons c t ih =>
    have hrest := ih h.2
    obtain heq | ⟨rfl, w, k, s, hsplit, hw, hk, heq⟩ := cleanTrailingCommas_cons c t
    · rw [heq]
      exact ⟨h.1, hrest⟩
    · obtain ⟨hspace, hnext, hstays⟩ := next_comma (p := p) hw hk
      rw [hsplit, structured_append, hspace] at hrest
      have hs := hrest.2.2
      rw [hstays, ← hnext] at hs
      rw [heq]
      refine ⟨fun _ => .inr ?_, hs⟩
      rcases hk with rfl | rfl <;> decide

/-- Objects still end where they ended. -/
theorem closing_cleanTrailingCommas (n : ℕ) :
    closing n p (cleanTrailingCommas t) = (closing n p t).map cleanTrailingCommas := by
  induction t generalizing n p with
  | nil => rfl
  | cons c t ih =>
    obtain heq | ⟨rfl, w, k, s, hsplit, hw, hk, heq⟩ := cleanTrailingCommas_cons c t
    · rw [heq, closing, closing, ih, ih]
      split_ifs
      · rfl
      · rfl
      · rfl
      · rfl
    · have hspace : ∀ {q : Place} {r : List Char}, q ≠ .escaping → closing n q (w ++ r) = closing n q r := by
        intro q r hq
        clear hsplit
        induction w with
        | nil => rfl
        | cons d w ihw =>
          obtain ⟨hd, hw⟩ := List.forall_mem_cons.mp hw
          obtain ⟨-, hquote, hback, hopen, hclose, -⟩ := ne_of_isWhite hd
          rw [List.cons_append, scans_closing n q d _ (fun _ => ⟨hopen, hclose⟩), Place.next_of_ne hquote hback hq,
            ihw hw]
      have hcomma : p.next ',' ≠ .escaping := by cases p <;> decide
      have hk' : closing n p (k :: s) = closing n (p.next ',') (k :: s) := by
        cases p with
        | outside | inside => rfl
        | escaping =>
          have hinside : Place.inside.next k = .inside := by rcases hk with rfl | rfl <;> rfl
          rw [scans_closing n .escaping k s (fun h => by cases h)]
          change _ = closing n .inside (k :: s)
          rw [scans_closing n .inside k s (fun h => by cases h), hinside]
          rfl
      rw [heq, hk', ← hspace hcomma, ← hsplit, ih, scans_closing n p ',' t (fun _ => by decide)]

/-- Only space is cleaned to space. -/
theorem space_of_clean (h : ∀ c ∈ cleanTrailingCommas t, isSpace c = true) : ∀ c ∈ t, isSpace c = true := by
  induction t with
  | nil => exact h
  | cons c t ih =>
    obtain heq | ⟨rfl, w, k, s, -, -, hk, heq⟩ := cleanTrailingCommas_cons c t
    · rw [heq, List.forall_mem_cons] at h
      exact List.forall_mem_cons.mpr ⟨h.1, ih h.2⟩
    · rw [heq] at h
      have hspace := h k List.mem_cons_self
      rcases hk with rfl | rfl <;> cases hspace

theorem cleanTrailingCommas_append_space (hw : ∀ c ∈ w, isSpace c = true) :
    cleanTrailingCommas (w ++ t) = w ++ cleanTrailingCommas t := by
  induction w with
  | nil => rfl
  | cons c w ih =>
    obtain ⟨hc, hw⟩ := List.forall_mem_cons.mp hw
    have hne : c ≠ ',' := by
      rintro rfl
      cases hc
    rw [List.cons_append, cleanTrailingCommas, if_neg (fun h => hne h.1), ih hw, List.cons_append]

/-- Nothing is read from a text that ends in a string. -/
theorem attempt_eq_none (h : placeAfter .outside t ≠ .outside) : attempt t = none := by
  rw [attempt, tryParseJson, Json.parse_eq_none h,
    Json.parse_eq_none (by rw [placeAfter_cleanTrailingCommas]; exact h)]
  rfl

/-- A text that ends outside of strings does so with more space. -/
theorem outside_of_append_white (hw : ∀ c ∈ w, isWhite c = true) (h : placeAfter .outside (t ++ w) ≠ .outside) :
    placeAfter .outside t ≠ .outside := by
  intro ht
  refine h ?_
  rw [placeAfter_append, ht]
  exact placeAfter_of_ne (fun c hc => ⟨(ne_of_isWhite (hw c hc)).2.1, (ne_of_isWhite (hw c hc)).2.2.1⟩) (by decide)

/-! ## What stands between fences and braces -/

theorem trim_ne_nil (hmem : c ∈ t) (hc : isWhite c = false) : trim t ≠ [] := by
  intro h
  rw [trim, List.reverse_eq_nil_iff, List.dropWhile_eq_nil_iff] at h
  have hsplit := List.takeWhile_append_dropWhile (p := isWhite) (l := t)
  rw [← hsplit] at hmem
  have hwhite : isWhite c = true := by
    rcases List.mem_append.mp hmem with hmem | hmem
    · exact List.mem_takeWhile_imp hmem
    · exact h c (List.mem_reverse.mpr hmem)
  rw [hc] at hwhite
  cases hwhite

/-- What is trimmed off the end is space. -/
theorem exists_trim (hc : isWhite c = false) :
    ∃ w, (∀ d ∈ w, isWhite d = true) ∧ c :: t = trim (c :: t) ++ w := by
  refine ⟨((c :: t).reverse.takeWhile isWhite).reverse, fun d hd => ?_, ?_⟩
  · exact List.mem_takeWhile_imp (List.mem_reverse.mp hd)
  · rw [trim, List.dropWhile_cons_of_neg (by rw [hc]; exact Bool.false_ne_true), ← List.reverse_append,
      List.takeWhile_append_dropWhile, List.reverse_reverse]

/-- Space after a text is trimmed off. -/
theorem trim_append {d : Char} (hc : isWhite c = false) (hd : isWhite d = false) (hw : ∀ e ∈ w, isWhite e = true) :
    trim (c :: (t ++ [d]) ++ w) = c :: (t ++ [d]) := by
  have hw' : ∀ e ∈ w.reverse, isWhite e = true := fun e he => hw e (List.mem_reverse.mp he)
  have hreverse : (c :: (t ++ [d])).reverse = d :: (c :: t).reverse := by
    rw [← List.cons_append, List.reverse_append]
    rfl
  rw [trim, List.cons_append, List.dropWhile_cons_of_neg (by rw [hc]; exact Bool.false_ne_true), ← List.cons_append,
    List.reverse_append, List.dropWhile_append_of_pos hw', hreverse,
    List.dropWhile_cons_of_neg (by rw [hd]; exact Bool.false_ne_true), ← hreverse, List.reverse_reverse]

theorem beforeFence_spec (h : beforeFence t = some u) : ∃ r, t = u ++ (fence ++ r) := by
  induction t generalizing u with
  | nil => cases h
  | cons c t ih =>
    rw [beforeFence] at h
    split_ifs at h with hfence
    · obtain rfl := Option.some.inj h
      obtain ⟨r, hr⟩ := List.isPrefixOf_iff_prefix.mp hfence
      exact ⟨r, hr.symm⟩
    · obtain ⟨u', hu', rfl⟩ := Option.map_eq_some_iff.mp h
      obtain ⟨r, rfl⟩ := ih hu'
      exact ⟨r, rfl⟩

theorem exists_beforeFence (t r : List Char) : ∃ u, beforeFence (t ++ (fence ++ r)) = some u := by
  induction t with
  | nil => exact ⟨[], rfl⟩
  | cons c t ih =>
    obtain ⟨u, hu⟩ := ih
    rw [List.cons_append, beforeFence, hu]
    split_ifs
    · exact ⟨_, rfl⟩
    · exact ⟨_, rfl⟩

/-- From the first brace to the last one. -/
theorem extractFirstJsonObject_eq {before after : List Char} (hbefore : ∀ c ∈ before, c ≠ '\x7b')
    (hafter : ∀ c ∈ after, c ≠ '\x7d') :
    extractFirstJsonObject (before ++ ('\x7b' :: (t ++ ['\x7d']) ++ after)) = some ('\x7b' :: (t ++ ['\x7d'])) := by
  have hreverse : ('\x7b' :: (t ++ ['\x7d'])).reverse = '\x7d' :: ('\x7b' :: t).reverse := by
    rw [← List.cons_append, List.reverse_append]
    rfl
  have hafter' : ∀ c ∈ after.reverse, (c != '\x7d') = true :=
    fun c hc => bne_iff_ne.mpr (hafter c (List.mem_reverse.mp hc))
  have hopen : (before ++ ('\x7b' :: (t ++ ['\x7d']) ++ after)).dropWhile (· != '\x7b') =
      '\x7b' :: (t ++ ['\x7d']) ++ after := by
    rw [List.dropWhile_append_of_pos fun c hc => bne_iff_ne.mpr (hbefore c hc), List.cons_append,
      List.dropWhile_cons_of_neg (by decide)]
  have hclose : ('\x7b' :: (t ++ ['\x7d']) ++ after).reverse.dropWhile (· != '\x7d') =
      ('\x7b' :: (t ++ ['\x7d'])).reverse := by
    rw [List.reverse_append, List.dropWhile_append_of_pos hafter', hreverse, List.dropWhile_cons_of_neg (by decide)]
  unfold extractFirstJsonObject
  dsimp only
  rw [hopen, hclose, List.reverse_reverse, if_neg (List.cons_ne_nil _ _)]

/-- No value begins with a backquote. -/
theorem attempt_backquote : attempt ('\x60' :: t) = none := by
  have hparse : ∀ t, Json.parse ('\x60' :: t) = none := by
    intro t
    have hvalue : ∀ fuel, value (fuel + 1) ('\x60' :: t) = none := fun fuel => by
      rw [value_scalar (by decide) (by decide) (by decide)]
      rfl
    rw [Json.parse, hvalue]
    rfl
  have hclean : cleanTrailingCommas ('\x60' :: t) = '\x60' :: cleanTrailingCommas t :=
    if_neg fun h => absurd h.1 (by decide)
  rw [attempt, tryParseJson, hclean, hparse, hparse]
  rfl

end Reading

/-! ## Findings of the items -/

/-- A valid item keeps what it has. -/
theorem keeps_of_valid {item : Json} {index now : ℕ} {agentId : String} {finding : Finding}
    (h : validateAndFixFinding item index agentId now = some finding) : Keeps item finding := by
  unfold validateAndFixFinding at h
  split_ifs at h
  obtain rfl := Option.some.inj h
  refine ⟨fun s hs hseverity => ?_, fun s htitle => ?_, fun s hdescription => ?_⟩
  · change severityOf item = s
    rw [severityOf, hseverity]
    exact if_pos hs
  · change (String.ofList (titleOf item)).toList = _
    rw [String.toList_ofList, titleOf, htitle]
    rfl
  · change (stringOf item "description").getD "" = s
    rw [hdescription]
    rfl

/-- There is one finding for each valid item, in order. -/
theorem forall₂_findingsOf (items : List Json) (agentId : String) (now : ℕ → ℕ) :
    List.Forall₂ Keeps (items.filter isValid) (findingsOf items agentId now) := by
  have hitems : ∀ (items : List Json) (k : ℕ), List.Forall₂ Keeps (items.filter isValid)
      ((items.zipIdx k).filterMap fun p => validateAndFixFinding p.1 p.2 agentId (now p.2)) := by
    intro items
    induction items with
    | nil => exact fun _ => .nil
    | cons item items ih =>
      intro k
      rw [List.zipIdx_cons, List.filterMap_cons]
      cases hvalid : isValid item with
      | false =>
        have hnone : validateAndFixFinding item k agentId (now k) = none := if_neg (by rw [hvalid]; decide)
        rw [List.filter_cons_of_neg (by rw [hvalid]; decide)]
        dsimp only
        rw [hnone]
        exact ih (k + 1)
      | true =>
        obtain ⟨finding, hsome⟩ : ∃ finding, validateAndFixFinding item k agentId (now k) = some finding :=
          ⟨_, if_pos hvalid⟩
        rw [List.filter_cons_of_pos hvalid]
        dsimp only
        rw [hsome]
        exact .cons (keeps_of_valid hsome) (ih (k + 1))
  exact hitems items 0

/-! ## Responses that are read -/

section Responses

variable {members : List (String × Json)} {items : List Json} {agentId : String} {now : ℕ → ℕ}
  {raw before after : List Char} {w : Wrapping}

/-- An object is read, whatever space stands around it. -/
theorem attempt_stringify (h : (Json.object members).Writable) (hbefore : ∀ c ∈ before, isSpace c = true)
    (hafter : ∀ c ∈ after, isSpace c = true) :
    attempt (before ++ ((Json.object members).stringify ++ after)) = some (.object members) := by
  rw [attempt, tryParseJson, Json.parse_stringify h hbefore hafter]
  rfl

theorem attempt_object (h : (Json.object members).Writable) :
    attempt (Json.object members).stringify = some (.object members) := by
  have hread := attempt_stringify h (List.forall_mem_nil _) (List.forall_mem_nil _)
  rwa [List.nil_append, List.append_nil] at hread

/-- The object that is between its braces is the last thing that is looked for. -/
theorem parsed_of_none (h : (Json.object members).Writable) (hbefore : ∀ c ∈ before, c ≠ '\x7b')
    (hafter : ∀ c ∈ after, c ≠ '\x7d') (hraw : raw = before ++ ((Json.object members).stringify ++ after))
    (hfence : parsedFence raw = none) (hattempt : attempt raw = none) : parsed raw = some (.object members) := by
  obtain ⟨t, ht⟩ := Json.stringify_object members
  have hextract : extractFirstJsonObject raw = some (Json.object members).stringify := by
    rw [hraw, ht]
    exact extractFirstJsonObject_eq hbefore hafter
  have hobject := attempt_object h
  rw [parsed, hfence, hattempt, hextract]
  exact hobject

/-- Nothing is read from an empty text. -/
theorem parsedFence_eq {t : List Char} (h : extractJsonFromFence raw = some t) : parsedFence raw = attempt t := by
  rw [parsedFence, h]
  cases t with
  | nil => rfl
  | cons c t => rfl

/-- Between fences the object is read, or nothing is: the text is cut off in a string. -/
theorem parsedFence_fenced (h : (Json.object members).Writable) :
    parsedFence (Wrapping.fenced.wrap (Json.object members).stringify) = some (.object members) ∨
      parsedFence (Wrapping.fenced.wrap (Json.object members).stringify) = none := by
  obtain ⟨t, ht⟩ := Json.stringify_object members
  obtain ⟨u, hu⟩ := exists_beforeFence ((Json.object members).stringify ++ ['\n']) []
  obtain ⟨r, hr⟩ := beforeFence_spec hu
  have hlabel : afterLabel ("json\n".toList ++ ((Json.object members).stringify ++ '\n' :: fence)) =
      (Json.object members).stringify ++ ['\n'] ++ (fence ++ []) := by
    rw [ht]
    simp only [List.append_assoc, List.cons_append, List.nil_append, List.append_nil]
    rfl
  have hextract : extractJsonFromFence (Wrapping.fenced.wrap (Json.object members).stringify) = some (trim u) := by
    change (beforeFence (afterLabel
      ("json\n".toList ++ ((Json.object members).stringify ++ '\n' :: fence)))).map trim = _
    rw [hlabel, hu]
    rfl
  rw [parsedFence_eq hextract]
  rw [List.append_nil, List.append_assoc, List.append_eq_append_iff] at hr
  rcases hr with ⟨a, rfl, ha⟩ | ⟨a, ha, hr⟩
  · -- The fence that closes is the last one.
    left
    have hlast : a = ['\n'] := by
      cases a with
      | nil => exact absurd (List.cons.inj ha).1 (by decide)
      | cons c a =>
        obtain ⟨rfl, ha⟩ := List.cons.inj ha
        have hlength := congrArg List.length ha
        have hnil : a.length = 0 := by
          simp only [List.length_append, List.length_cons, List.length_nil, fence] at hlength
          omega
        rw [List.length_eq_zero_iff.mp hnil]
    have htrim : trim ((Json.object members).stringify ++ a) = (Json.object members).stringify := by
      rw [hlast, ht]
      exact trim_append (by decide) (by decide) (forall_of_all (by decide))
    rw [htrim]
    exact attempt_object h
  · -- A fence stands in a string, and what stands before it ends in that string.
    right
    have hcut : ∃ a', a = '\x60' :: a' := by
      cases a with
      | nil => exact absurd (List.cons.inj hr).1 (by decide)
      | cons c a => exact ⟨a, by rw [← (List.cons.inj hr).1]⟩
    obtain ⟨a', rfl⟩ := hcut
    have hstructured := (Json.sealed_stringify (.object members)).structured
    rw [ha] at hstructured
    have hinside : placeAfter .outside u ≠ .outside := hstructured.cut
    cases u with
    | nil => exact absurd rfl hinside
    | cons c u =>
      rw [ht] at ha
      have hc : isWhite c = false := (List.cons.inj ha).1 ▸ (by decide)
      obtain ⟨w, hw, hsplit⟩ := exists_trim (t := u) hc
      refine attempt_eq_none (outside_of_append_white hw ?_)
      rwa [← hsplit]

/-! ## What else is JSON -/

theorem firstFence_nil {r : List Char} : FirstFence (fence ++ r) [] r := ⟨rfl, fun _ _ _ => Nat.zero_le _⟩

theorem FirstFence.cons {t u r : List Char} {c : Char} (hfence : fence.isPrefixOf (c :: t) = false)
    (h : FirstFence t u r) : FirstFence (c :: t) (c :: u) r := by
  refine ⟨by rw [h.1]; rfl, fun before' after' hsplit => ?_⟩
  cases before' with
  | nil =>
    have hprefix : fence.isPrefixOf (c :: t) = true := List.isPrefixOf_iff_prefix.mpr ⟨after', hsplit.symm⟩
    rw [hfence] at hprefix
    cases hprefix
  | cons d before' => exact Nat.succ_le_succ (h.2 before' after' (List.cons.inj hsplit).2)

/-- The two searches find the first fence. -/
theorem firstFence_of_search (t : List Char) :
    (∃ u r, FirstFence t u r ∧ beforeFence t = some u ∧ afterFence t = some r) ∨
      (beforeFence t = none ∧ afterFence t = none ∧ ∀ u r, t ≠ u ++ (fence ++ r)) := by
  induction t with
  | nil => exact .inr ⟨rfl, rfl, fun u r h => by cases u <;> cases h⟩
  | cons c t ih =>
    rw [beforeFence, afterFence]
    cases hfence : fence.isPrefixOf (c :: t) with
    | true =>
      obtain ⟨r, hr⟩ := List.isPrefixOf_iff_prefix.mp hfence
      rw [← hr]
      exact .inl ⟨[], r, firstFence_nil, rfl, rfl⟩
    | false =>
      rw [if_neg Bool.false_ne_true, if_neg Bool.false_ne_true]
      rcases ih with ⟨u, r, hfirst, hbefore, hafter⟩ | ⟨hbefore, hafter, hnone⟩
      · exact .inl ⟨c :: u, r, hfirst.cons hfence, by rw [hbefore]; rfl, hafter⟩
      · refine .inr ⟨by rw [hbefore]; rfl, hafter, fun u r hsplit => ?_⟩
        cases u with
        | nil =>
          have hprefix : fence.isPrefixOf (c :: t) = true := List.isPrefixOf_iff_prefix.mpr ⟨r, hsplit.symm⟩
          rw [hfence] at hprefix
          cases hprefix
        | cons d u => exact hnone u r (List.cons.inj hsplit).2

/-- The first fence stands in one place only. -/
theorem FirstFence.search {t u r : List Char} (h : FirstFence t u r) :
    beforeFence t = some u ∧ afterFence t = some r := by
  rcases firstFence_of_search t with ⟨u', r', hfirst, hbefore, hafter⟩ | ⟨-, -, hnone⟩
  · have hlength : u.length = u'.length := Nat.le_antisymm (h.2 u' r' hfirst.1) (hfirst.2 u r h.1)
    obtain ⟨rfl, hrest⟩ := List.append_inj (h.1.symm.trans hfirst.1) hlength
    rw [hbefore, hafter, List.append_cancel_left hrest]
    exact ⟨rfl, rfl⟩
  · exact absurd h.1 (hnone u r)

theorem attempt_eq_none_iff {t : List Char} : attempt t = none ↔ ¬ HasValue t := by
  unfold attempt HasValue tryParseJson
  rw [Option.filter_eq_none_iff]
  constructor
  · rintro h ⟨v, htruthy, hread⟩
    exact h v (Option.or_eq_some_iff.mpr hread) htruthy
  · intro h v hread htruthy
    exact h ⟨v, htruthy, Option.or_eq_some_iff.mp hread⟩

theorem parsedFence_eq_none_iff : parsedFence raw = none ↔ ¬ HasFencedValue raw := by
  have hiff : (∃ t, extractJsonFromFence raw = some t ∧ HasValue t) ↔ HasFencedValue raw := by
    constructor
    · rintro ⟨t, hextract, hvalue⟩
      obtain ⟨content, hfirst, hcontent⟩ := Option.bind_eq_some_iff.mp hextract
      obtain ⟨inner, hlast, rfl⟩ := Option.map_eq_some_iff.mp hcontent
      rcases firstFence_of_search raw with ⟨before, content', hfence, -, hafter⟩ | ⟨-, hafter, -⟩
      · obtain rfl := Option.some.inj (hfirst.symm.trans hafter)
        rcases firstFence_of_search (afterLabel content) with ⟨inner', after, hfence', hbefore, -⟩ | ⟨hbefore, -, -⟩
        · obtain rfl := Option.some.inj (hlast.symm.trans hbefore)
          exact ⟨before, content, inner, after, hfence, hfence', hvalue⟩
        · cases hlast.symm.trans hbefore
      · cases hfirst.symm.trans hafter
    · rintro ⟨before, content, inner, after, hfence, hfence', hvalue⟩
      refine ⟨trim inner, ?_, hvalue⟩
      rw [extractJsonFromFence, hfence.search.2, Option.bind_some, hfence'.search.1]
      rfl
  rw [← hiff]
  cases hextract : extractJsonFromFence raw with
  | none => exact iff_of_true (by rw [parsedFence, hextract]; rfl) fun ⟨t, ht, _⟩ => by cases ht
  | some t =>
    rw [parsedFence_eq hextract, attempt_eq_none_iff]
    exact not_congr ⟨fun h => ⟨t, rfl, h⟩, fun ⟨t', ht', h⟩ => Option.some.inj ht' ▸ h⟩

/-- The searches for a value before the object find nothing. -/
def Wrapping.Undisturbed (w : Wrapping) (t : List Char) : Prop :=
  match w with
  | .fenced => True
  | .bare => parsedFence t = none
  | .prose before after => parsedFence (before ++ (t ++ after)) = none ∧
    ((∀ c ∈ before ++ after, isSpace c = true) ∨ attempt (before ++ (t ++ after)) = none)

theorem clear_iff {t : List Char} : w.Clear t ↔ w.Undisturbed t := by
  cases w with
  | fenced => exact Iff.rfl
  | bare => exact parsedFence_eq_none_iff.symm
  | prose before after =>
    unfold Wrapping.Clear Wrapping.Undisturbed
    dsimp only
    rw [parsedFence_eq_none_iff, attempt_eq_none_iff]

/-- What is found in the response is the object. -/
theorem parsed_of_clear (h : (Json.object members).Writable) (hplain : w.Plain)
    (hclear : w.Undisturbed (Json.object members).stringify) :
    parsed (w.wrap (Json.object members).stringify) = some (.object members) := by
  have hobject := attempt_object h
  cases w with
  | bare =>
    change parsedFence (Json.object members).stringify = none at hclear
    change parsed (Json.object members).stringify = _
    rw [parsed, hclear, hobject]
    rfl
  | fenced =>
    rcases parsedFence_fenced h with hfence | hfence
    · rw [parsed, hfence]
      rfl
    · have hbefore : ∀ c ∈ fence ++ "json\n".toList, c ≠ '\x7b' := forall_of_all (by decide)
      have hafter : ∀ c ∈ '\n' :: fence, c ≠ '\x7d' := forall_of_all (by decide)
      exact parsed_of_none h hbefore hafter rfl hfence attempt_backquote
  | prose before after =>
    have hbefore : ∀ c ∈ before, c ≠ '\x7b' := fun c hc => (hplain c (List.mem_append_left after hc)).1
    have hafter : ∀ c ∈ after, c ≠ '\x7d' := fun c hc => (hplain c (List.mem_append_right before hc)).2.1
    obtain ⟨hfence, hblank | hattempt⟩ := hclear
    · have hread := attempt_stringify h (fun c hc => hblank c (List.mem_append_left after hc))
        (fun c hc => hblank c (List.mem_append_right before hc))
      change parsed (before ++ ((Json.object members).stringify ++ after)) = _
      rw [parsed, hfence, hread]
      rfl
    · exact parsed_of_none h hbefore hafter rfl hfence hattempt

/-- A response whose value has findings gives them. -/
theorem transparent_of_parsed {v : Json} (hparsed : parsed raw = some v) (hraw : trim raw ≠ [])
    (hitems : v.get "findings" = some (.array items)) : Transparent raw items agentId now := by
  have hresult : parseFindings raw agentId now = ⟨findingsOf items agentId now, none, raw⟩ := by
    rw [parseFindings, if_neg hraw, hparsed]
    dsimp only
    rw [hitems]
    rfl
  refine ⟨by rw [hresult], by rw [hresult], ?_⟩
  rw [hresult]
  exact forall₂_findingsOf items agentId now

/-- A response in which nothing else is found before the object gives the object's findings. -/
theorem transparent_of_clear (h : (Json.object members).Writable)
    (hitems : (Json.object members).get "findings" = some (.array items)) (hplain : w.Plain)
    (hclear : w.Undisturbed (Json.object members).stringify) :
    Transparent (w.wrap (Json.object members).stringify) items agentId now := by
  refine transparent_of_parsed (parsed_of_clear h hplain hclear) ?_ hitems
  obtain ⟨t, ht⟩ := Json.stringify_object members
  refine trim_ne_nil (c := '\x7b') ?_ (by decide)
  have hbrace : '\x7b' ∈ (Json.object members).stringify := ht ▸ List.mem_cons_self
  cases w with
  | bare => exact hbrace
  | fenced => exact List.mem_append_right fence (List.mem_append_right _ (List.mem_append_left _ hbrace))
  | prose before after => exact List.mem_append_right before (List.mem_append_left after hbrace)

/-! ## Responses that are not read -/

theorem afterFence_spec {t : List Char} (h : afterFence raw = some t) : ∃ u, raw = u ++ (fence ++ t) := by
  induction raw with
  | nil => cases h
  | cons c raw ih =>
    rw [afterFence] at h
    split_ifs at h with hfence
    · obtain ⟨r, hr⟩ := List.isPrefixOf_iff_prefix.mp hfence
      rw [← hr] at h ⊢
      exact ⟨[], by rw [← Option.some.inj h]; rfl⟩
    · obtain ⟨u, hu⟩ := ih h
      exact ⟨c :: u, by rw [hu]; rfl⟩

theorem afterLabel_spec (t : List Char) : ∃ l, t = l ++ afterLabel t ∧ ∀ c ∈ l, c ≠ '"' ∧ c ≠ '\\' := by
  have hwhite : ∀ t : List Char, ∀ c ∈ t.takeWhile isWhite, c ≠ '"' ∧ c ≠ '\\' := fun t c hc =>
    ⟨(ne_of_isWhite (List.mem_takeWhile_imp hc)).2.1, (ne_of_isWhite (List.mem_takeWhile_imp hc)).2.2.1⟩
  unfold afterLabel
  split_ifs with hjson
  · obtain ⟨r, hr⟩ := List.isPrefixOf_iff_prefix.mp hjson
    rw [← hr]
    refine ⟨"json".toList ++ r.takeWhile isWhite, ?_, List.forall_mem_append.mpr ⟨forall_of_all (by decide), hwhite r⟩⟩
    change "json".toList ++ r = "json".toList ++ r.takeWhile isWhite ++ r.dropWhile isWhite
    rw [List.append_assoc, List.takeWhile_append_dropWhile]
  · exact ⟨t.takeWhile isWhite, List.takeWhile_append_dropWhile.symm, hwhite t⟩

theorem exists_of_append_eq {t u r s : List Char} (hr : ∀ c ∈ r, c ≠ '\x60') (h : t ++ r = u ++ '\x60' :: s) :
    ∃ a, t = u ++ '\x60' :: a := by
  obtain ⟨a, rfl, ha⟩ | ⟨a, rfl, ha⟩ := List.append_eq_append_iff.mp h
  · exact absurd rfl (hr '\x60' (ha ▸ List.mem_append_right a List.mem_cons_self))
  · cases a with
    | nil =>
      have hmem : '\x60' ∈ r := by
        rw [← List.nil_append r, ← ha]
        exact List.mem_cons_self
      exact absurd rfl (hr '\x60' hmem)
    | cons c a =>
      obtain ⟨rfl, -⟩ := List.cons.inj ha
      exact ⟨a, rfl⟩

theorem trim_spec (t : List Char) :
    ∃ u w, t = u ++ (trim t ++ w) ∧ ∀ c ∈ u, c ≠ '"' ∧ c ≠ '\\' := by
  refine ⟨t.takeWhile isWhite, ((t.dropWhile isWhite).reverse.takeWhile isWhite).reverse, ?_, fun c hc => ?_⟩
  · rw [trim, ← List.reverse_append, List.takeWhile_append_dropWhile, List.reverse_reverse,
      List.takeWhile_append_dropWhile]
  · have hwhite := ne_of_isWhite (List.mem_takeWhile_imp hc)
    exact ⟨hwhite.2.1, hwhite.2.2.1⟩

/-- What stands between two fences in a response begins in a string of the object. -/
theorem structured_fence (hplain : ∀ c ∈ before ++ after, c ≠ '\x60') {t : List Char}
    (h : extractJsonFromFence (before ++ ((Json.object members).stringify ++ after)) = some t) :
    Structured .inside t := by
  obtain ⟨hbefore, hafter⟩ := List.forall_mem_append.mp hplain
  obtain ⟨t₁, hfirst, hcontent⟩ := Option.bind_eq_some_iff.mp h
  obtain ⟨content, hlast, rfl⟩ := Option.map_eq_some_iff.mp hcontent
  obtain ⟨u, hu⟩ := afterFence_spec hfirst
  obtain ⟨l, hl, hlabel⟩ := afterLabel_spec t₁
  obtain ⟨r, hr⟩ := beforeFence_spec hlast
  obtain ⟨v, w, htrim, hspace⟩ := trim_spec content
  -- The first fence begins after the prose, and the last one before it.
  obtain ⟨a, rfl⟩ : ∃ a, u = before ++ a := by
    obtain ⟨a, ha, -⟩ | ⟨a, rfl, ha⟩ := List.append_eq_append_iff.mp hu
    · exact ⟨a, ha⟩
    · cases a with
      | nil => exact ⟨[], by rw [List.append_nil, List.append_nil]⟩
      | cons c a =>
        have hc : c = '\x60' := (List.cons.inj ha).1.symm
        exact absurd hc (hbefore c (List.mem_append_right u List.mem_cons_self))
  rw [List.append_assoc] at hu
  have hobject := List.append_cancel_left hu
  have hsplit : (Json.object members).stringify ++ after =
      a ++ (fence ++ (l ++ content)) ++ '\x60' :: ('\x60' :: '\x60' :: r) := by
    rw [hobject]
    conv_lhs => rw [hl, hr]
    simp only [List.append_assoc, List.cons_append, fence, List.nil_append]
  obtain ⟨b, hb⟩ := exists_of_append_eq hafter hsplit
  have hstructured := (Json.sealed_stringify (.object members)).structured
  rw [hb, htrim, List.append_assoc] at hstructured
  have hinside : placeAfter .outside a ≠ .outside := hstructured.cut
  have hrest := (structured_append.mp hstructured).2
  have hnext : (placeAfter .outside a).next '\x60' = .inside := by
    cases hplace : placeAfter .outside a with
    | outside => exact absurd hplace hinside
    | inside | escaping => rfl
  have hopen : Structured .inside (l ++ (v ++ (trim content ++ w))) := by
    have hfence := hrest.2
    rw [hnext] at hfence
    have hopen := hfence.2.2
    rw [List.append_eq, structured_append] at hopen
    exact hopen.1
  have hvalue := (structured_append.mp hopen).2
  rw [placeAfter_of_ne hlabel (by decide)] at hvalue
  have hcore := (structured_append.mp hvalue).2
  rw [placeAfter_of_ne hspace (by decide)] at hcore
  exact (structured_append.mp hcore).1

/-- What is read between two fences that stand in strings of the object has no findings: the names of its properties
stand outside of strings in the object. -/
theorem get_of_parsedFence (hplain : ∀ c ∈ before ++ after, c ≠ '\x60') {v : Json}
    (h : parsedFence (before ++ ((Json.object members).stringify ++ after)) = some v) : v.get "findings" = none := by
  cases hextract : extractJsonFromFence (before ++ ((Json.object members).stringify ++ after)) with
  | none =>
    rw [parsedFence, hextract] at h
    cases h
  | some t =>
    rw [parsedFence_eq hextract] at h
    have hinside := structured_fence hplain hextract
    have hstrings : ∀ s ∈ v.strings, ∀ c ∈ s.toList, isStructure c = true := by
      rcases Option.or_eq_some_iff.mp (Option.filter_eq_some_iff.mp h).1 with hread | ⟨-, hread⟩
      · exact Json.structure_of_parse hinside hread
      · exact Json.structure_of_parse (structured_cleanTrailingCommas hinside) hread
    cases hget : v.get "findings" with
    | none => rfl
    | some w =>
      have hi := hstrings "findings" (Json.mem_strings_of_get hget) 'i' (by decide)
      cases hi

/-- A response that begins with prose is no object. -/
theorem get_of_attempt (hbefore : ∀ c ∈ before, c ≠ '\x7b') (hprose : ¬ ∀ c ∈ before, isSpace c = true) {t : List Char}
    {v : Json} (h : attempt (before ++ t) = some v) : v.get "findings" = none := by
  obtain ⟨s, c, u, hsplit, hs, hc⟩ :
      ∃ s c u, before = s ++ c :: u ∧ (∀ d ∈ s, isSpace d = true) ∧ isSpace c = false := by
    refine ⟨before.takeWhile isSpace, ?_⟩
    cases hdrop : before.dropWhile isSpace with
    | nil => exact absurd (List.dropWhile_eq_nil_iff.mp hdrop) hprose
    | cons c u =>
      refine ⟨c, u, ?_, fun d hd => List.mem_takeWhile_imp hd, ?_⟩
      · rw [← hdrop, List.takeWhile_append_dropWhile]
      · have hhead := List.head_dropWhile_not isSpace (l := before) (by rw [hdrop]; exact List.cons_ne_nil c u)
        simpa [hdrop] using hhead
  have hbrace : c ≠ '\x7b' := hbefore c (hsplit ▸ List.mem_append_right s List.mem_cons_self)
  have hraw : before ++ t = s ++ (c :: (u ++ t)) := by rw [hsplit, List.append_assoc, List.cons_append]
  have hskip : skip (before ++ t) = c :: (u ++ t) := by rw [hraw, skip_append hs, skip_cons hc]
  have hclean : ∃ k r, skip (cleanTrailingCommas (before ++ t)) = k :: r ∧ k ≠ '\x7b' := by
    rw [hraw, cleanTrailingCommas_append_space hs, skip_append hs]
    obtain heq | ⟨-, w, k, r, -, -, hk, heq⟩ := cleanTrailingCommas_cons c (u ++ t)
    · exact ⟨c, _, by rw [heq, skip_cons hc], hbrace⟩
    · refine ⟨k, r, ?_, ?_⟩
      · rw [heq, skip_cons (by rcases hk with rfl | rfl <;> decide)]
      · rcases hk with rfl | rfl <;> decide
  cases v with
  | object ms =>
    rcases Option.or_eq_some_iff.mp (Option.filter_eq_some_iff.mp h).1 with hread | ⟨-, hread⟩
    · obtain ⟨r, hr⟩ := Json.skip_of_parse_object hread
      rw [hskip] at hr
      exact absurd (List.cons.inj hr).1 hbrace
    · obtain ⟨r, hr⟩ := Json.skip_of_parse_object hread
      obtain ⟨k, r', hk, hne⟩ := hclean
      rw [hk] at hr
      exact absurd (List.cons.inj hr).1 hne
  | null | bool b | number x | string s | array elements => rfl

/-- Where a response begins with the object and is read, nothing but space follows. -/
theorem space_of_attempt (h : (Json.object members).Writable) (hbefore : ∀ c ∈ before, isSpace c = true) {v : Json}
    (hread : attempt (before ++ ((Json.object members).stringify ++ after)) = some v) :
    ∀ c ∈ after, isSpace c = true := by
  obtain ⟨t, ht⟩ := Json.stringify_object members
  have hobject := Json.value_object (r := after) h (Nat.le_refl _)
  rw [ht, List.cons_append] at hobject
  have hclosing := closing_of_value hobject
  rw [ht, List.cons_append] at hread
  have hblank : ∀ r : List Char, skip r = [] → ∀ c ∈ r, isSpace c = true := fun r hr => List.dropWhile_eq_nil_iff.mp hr
  rcases Option.or_eq_some_iff.mp (Option.filter_eq_some_iff.mp hread).1 with hparse | ⟨-, hparse⟩
  · obtain ⟨fuel, r, hvalue, hr⟩ := Json.exists_value_of_parse hparse
    rw [skip_append hbefore, skip_cons (by decide)] at hvalue
    obtain rfl := Option.some.inj (hclosing.symm.trans (closing_of_value hvalue))
    exact hblank _ hr
  · obtain ⟨fuel, r, hvalue, hr⟩ := Json.exists_value_of_parse hparse
    have hclean : cleanTrailingCommas ('\x7b' :: (t ++ ['\x7d'] ++ after)) =
        '\x7b' :: cleanTrailingCommas (t ++ ['\x7d'] ++ after) := if_neg fun hcomma => absurd hcomma.1 (by decide)
    rw [cleanTrailingCommas_append_space hbefore, skip_append hbefore, hclean, skip_cons (by decide)] at hvalue
    have hcleaned := closing_of_value hvalue
    rw [closing_cleanTrailingCommas, hclosing] at hcleaned
    obtain rfl := Option.some.inj hcleaned
    exact space_of_clean (hblank _ hr)

/-- A response from which something without findings is read does not give the findings. -/
theorem not_transparent {v : Json} (hparsed : parsed raw = some v) (hget : v.get "findings" = none) :
    ¬ Transparent raw items agentId now := by
  intro h
  have herror := h.parseError
  unfold parseFindings at herror
  rw [hparsed] at herror
  dsimp only at herror
  rw [hget] at herror
  split_ifs at herror
  cases herror

/-- A response gives the findings of its object exactly if nothing else is read before the object is. -/
theorem transparent_iff (h : (Json.object members).Writable)
    (hitems : (Json.object members).get "findings" = some (.array items)) (hplain : w.Plain) (agentId : String)
    (now : ℕ → ℕ) :
    Transparent (w.wrap (Json.object members).stringify) items agentId now ↔
      w.Clear (Json.object members).stringify := by
  rw [clear_iff]
  refine ⟨fun htransparent => ?_, transparent_of_clear h hitems hplain⟩
  cases w with
  | fenced => trivial
  | bare =>
    refine Option.eq_none_iff_forall_not_mem.mpr fun v hv => ?_
    have hraw : (Json.object members).stringify = [] ++ ((Json.object members).stringify ++ []) := by
      rw [List.nil_append, List.append_nil]
    have hplain : ∀ c ∈ ([] ++ [] : List Char), c ≠ '\x60' := List.forall_mem_nil _
    have hget := get_of_parsedFence hplain (hraw ▸ hv)
    refine not_transparent ?_ hget htransparent
    change parsed (Json.object members).stringify = some v
    rw [parsed, hv]
    rfl
  | prose before after =>
    have hfence : parsedFence (before ++ ((Json.object members).stringify ++ after)) = none := by
      refine Option.eq_none_iff_forall_not_mem.mpr fun v hv => ?_
      have hget := get_of_parsedFence (fun c hc => (hplain c hc).2.2) hv
      refine not_transparent ?_ hget htransparent
      change parsed (before ++ ((Json.object members).stringify ++ after)) = some v
      rw [parsed, hv]
      rfl
    refine ⟨hfence, ?_⟩
    cases hattempt : attempt (before ++ ((Json.object members).stringify ++ after)) with
    | none => exact .inr rfl
    | some v =>
      left
      by_cases hspace : ∀ c ∈ before, isSpace c = true
      · exact List.forall_mem_append.mpr ⟨hspace, space_of_attempt h hspace hattempt⟩
      · have hbefore : ∀ c ∈ before, c ≠ '\x7b' := fun c hc => (hplain c (List.mem_append_left after hc)).1
        have hget := get_of_attempt hbefore hspace hattempt
        refine absurd htransparent (not_transparent ?_ hget)
        change parsed (before ++ ((Json.object members).stringify ++ after)) = some v
        rw [parsed, hfence, hattempt]
        rfl

/-- The items of an object with one finding. -/
def oneItem (title : String) : List Json := [.object [("title", .string title), ("severity", .string "high")]]

/-- An object with one finding. -/
def oneFinding (title : String) : Json := .object [("findings", .array (oneItem title))]

theorem writable_oneFinding (title : String) : (oneFinding title).Writable :=
  ⟨(by decide : ["findings"].Nodup),
    ⟨⟨(by decide : ["title", "severity"].Nodup), trivial, trivial, trivial⟩, trivial⟩, trivial⟩

/-- An object in prose, whose title has backquotes. -/
theorem transparent_prose :
    Transparent (Wrapping.wrap (.prose "Result: ".toList " Done.".toList)
      (oneFinding "Use of \x60tx.origin\x60").stringify) (oneItem "Use of \x60tx.origin\x60") "agent" fun _ => 0 := by
  refine (transparent_iff (w := .prose "Result: ".toList " Done.".toList) (writable_oneFinding _) rfl
    (forall_of_all (by decide)) "agent" fun _ => 0).mpr (clear_iff.mpr ⟨?_, .inr ?_⟩)
  · exact Option.isNone_iff_eq_none.mp (by decide +kernel)
  · exact Option.isNone_iff_eq_none.mp (by decide +kernel)

/-- A title with a number between fences, which is read in place of the object, and prose that makes an array of it. -/
theorem not_transparent_title_and_brackets :
    ((oneFinding "\x60\x60\x601\x60\x60\x60").Writable ∧
      (oneFinding "\x60\x60\x601\x60\x60\x60").get "findings" =
        some (.array (oneItem "\x60\x60\x601\x60\x60\x60")) ∧
      ¬ Transparent (Wrapping.bare.wrap (oneFinding "\x60\x60\x601\x60\x60\x60").stringify)
        (oneItem "\x60\x60\x601\x60\x60\x60") "agent" (fun _ => 0)) ∧
    (oneFinding "Reentrancy").Writable ∧ (Wrapping.prose ['['] [']']).Plain ∧
      (oneFinding "Reentrancy").get "findings" = some (.array (oneItem "Reentrancy")) ∧
      ¬ Transparent (Wrapping.wrap (.prose ['['] [']']) (oneFinding "Reentrancy").stringify)
        (oneItem "Reentrancy") "agent" (fun _ => 0) := by
  have hbare : (parseFindings (Wrapping.bare.wrap (oneFinding "\x60\x60\x601\x60\x60\x60").stringify) "agent"
      fun _ => 0).parseError = some "Response JSON missing 'findings' key" := by
    decide +kernel
  have hprose : (parseFindings (Wrapping.wrap (.prose ['['] [']']) (oneFinding "Reentrancy").stringify) "agent"
      fun _ => 0).parseError = some "Response JSON missing 'findings' key" := by
    decide +kernel
  refine ⟨⟨writable_oneFinding _, rfl, fun h => ?_⟩, writable_oneFinding _, forall_of_all (by decide), rfl,
    fun h => ?_⟩
  · cases hbare.symm.trans h.parseError
  · cases hprose.symm.trans h.parseError

end Responses

end AuditGuard.ResponseParser
