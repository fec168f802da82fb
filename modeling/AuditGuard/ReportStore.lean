import AuditGuard.Library.Keyed
import AuditGuard.Library.Rounding
import AuditGuard.Library.Transition
import Mathlib.Data.Rat.Floor

/-!
# The stored report of a job

`generateAndStoreReport` of `report-writer.js` and `saveReport` of `report-db.js`, for one job: the rows of other jobs
have other ids. A call counts the findings that it is given, asks whether there is a row if it has none, asks the
mirror node and Claude, and writes the row, over the one that is there. The orchestrator does not wait for its calls,
so that any number of them run next to each other. What they are answered about the contract and write as text is left
open, and every wait may fail.

A call that was made early and is slow writes over the row of a later one that knew more (`kept_iff_inOrder`).
-/

namespace AuditGuard.ReportStore

/-- A finding, or an agent's findings with their number. A field that is missing, or not a number where it should be
one, is `none`. -/
structure Finding where
  findingsCount : Option ℚ
  criticalCount : Option ℚ
  severity : Option String
  level : Option String
  description : Option String
  details : Option String

/-- The findings by severity. -/
structure FindingsBySeverity where
  critical : ℕ
  high : ℕ
  medium : ℕ
  low : ℕ
  info : ℕ
deriving DecidableEq

/-- `EMPTY_FINDINGS`. -/
def EMPTY_FINDINGS : FindingsBySeverity := ⟨0, 0, 0, 0, 0⟩

/-- `Math.max(0, Math.floor(count))`. -/
def wholeCount (count : ℚ) : ℕ := ⌊count⌋.toNat

/-- The double that the result of a sum or a difference is rounded to. What is too large for one is `Infinity`, which
is `2 ^ 1024` here. -/
def toDouble (n : ℕ) : ℕ := min (Rounding.nearest 53 n) (2^1024)

/-- What the finding adds to `totalFindings`. -/
def Finding.count (finding : Finding) : ℕ := (finding.findingsCount.map wholeCount).getD 1

/-- `totalFindings`. -/
def totalFindings (findings : List Finding) : ℕ :=
  findings.foldl (fun sum finding => toDouble (sum + finding.count)) 0

/-- One more finding of the severity, if it is one of the five. -/
def FindingsBySeverity.add (counts : FindingsBySeverity) : String → FindingsBySeverity
  | "critical" => { counts with critical := toDouble (counts.critical + 1) }
  | "high" => { counts with high := toDouble (counts.high + 1) }
  | "medium" => { counts with medium := toDouble (counts.medium + 1) }
  | "low" => { counts with low := toDouble (counts.low + 1) }
  | "info" => { counts with info := toDouble (counts.info + 1) }
  | _ => counts

/-- The body of the loop of `calculateSeverity`. -/
def addSeverity (counts : FindingsBySeverity) (finding : Finding) : FindingsBySeverity :=
  if finding.findingsCount.isSome ∨ finding.criticalCount.isSome then
    let critical := (finding.criticalCount.map wholeCount).getD 0
    let total := (finding.findingsCount.map wholeCount).getD critical
    { counts with
      critical := toDouble (counts.critical + critical)
      high := toDouble (counts.high + toDouble (total - critical)) }
  else counts.add ((finding.severity.or finding.level).getD "info").toLower

/-- `calculateSeverity`. -/
def calculateSeverity (findings : List Finding) : FindingsBySeverity := findings.foldl addSeverity EMPTY_FINDINGS

/-- The words that become tags. -/
def keywords : List String := ["reentrancy", "overflow", "underflow", "access control", "oracle"]

/-- The text contains the word. -/
def includes (text keyword : String) : Bool := 1 < (text.splitOn keyword).length

/-- `extractTags`. -/
def extractTags (findings : List Finding) : List String :=
  (findings.flatMap fun finding =>
    keywords.filter (includes ((finding.description.or finding.details).getD "").toLower)).eraseDups

/-- A row of `audit_reports`, besides its id and the job. -/
structure Report where
  contractAddress : String
  deployerAddress : String
  hederaAccountId : Option String
  chain : String
  contractType : String
  s3Key : String
  contentHash : String
  cid : String
  mdContent : String
  agentAddresses : List String
  agentCount : ℕ
  findingCount : ℕ
  findingsBySeverity : FindingsBySeverity
  timestamp : ℕ
  tags : List String
  source : String

/-- What a call writes besides its findings: what it resolved about the contract, its text with the hash and the keys,
the winners of the job as they are when it writes, and the time. -/
structure Texts where
  contractAddress : String
  deployerAddress : String
  hederaAccountId : Option String
  chain : String
  contractType : String
  s3Key : String
  contentHash : String
  cid : String
  mdContent : String
  winners : List String
  timestamp : ℕ

/-- The report of `generateAndStoreReport`. -/
def buildReport (findings : List Finding) (texts : Texts) : Report where
  contractAddress := texts.contractAddress
  deployerAddress := texts.deployerAddress
  hederaAccountId := texts.hederaAccountId
  chain := texts.chain
  contractType := texts.contractType
  s3Key := texts.s3Key
  contentHash := texts.contentHash
  cid := texts.cid
  mdContent := texts.mdContent
  agentAddresses := texts.winners
  agentCount := texts.winners.length
  findingCount := totalFindings findings
  findingsBySeverity := calculateSeverity findings
  timestamp := texts.timestamp
  tags := extractTags findings
  source := "orchestrator"

/-- The zero address, as a text. -/
def zeroAddress : String := "0x0000000000000000000000000000000000000000"

/-- A new value, or the old one if the new one is one of those that say nothing. -/
def coalesce (missing : List String) (new old : String) : String := if new ∈ missing then old else new

/-- The query of `saveReport`: a new row is inserted, and an old one is updated. -/
def upsert (row : Option Report) (report : Report) : Report :=
  match row with
  | none => report
  | some row => { report with
    contractAddress := coalesce ["", "unknown"] report.contractAddress row.contractAddress
    deployerAddress := coalesce ["", "unknown", zeroAddress] report.deployerAddress row.deployerAddress
    hederaAccountId := row.hederaAccountId
    chain := row.chain
    contractType := coalesce ["", "unknown"] report.contractType row.contractType
    s3Key := coalesce [""] report.s3Key row.s3Key
    cid := coalesce [""] report.cid row.cid
    mdContent := coalesce [""] report.mdContent row.mdContent
    timestamp := row.timestamp }

/-- Where a call of `generateAndStoreReport` stands: at `reportExists`, at the mirror node or Claude, at `saveReport`,
or at its end. -/
inductive Phase
  | checking
  | preparing
  | saving (texts : Texts)
  | returned
  | saved
  | failed

/-- A call, with the findings that it was given. -/
structure Call where
  findings : List Finding
  phase : Phase

/-- The findings of the job so far, the calls in their order, and the row. -/
structure Desk where
  findings : List Finding
  calls : List Call
  row : Option Report

/-- The call `i` goes on to the phase. -/
def Desk.move (m : Desk) (i : ℕ) (c : Call) (phase : Phase) : Desk :=
  { m with calls := m.calls.set i { c with phase := phase } }

/-- What happens at the desk. -/
inductive Event
  | finds (findings : List Finding)
  | calls
  | checks (i : ℕ)
  | prepares (i : ℕ) (texts : Texts)
  | saves (i : ℕ)
  | fails (i : ℕ)

/-- Where a call stands after what it does before its first wait. -/
def firstPhase (findings : List Finding) : Phase := if findings = [] then .checking else .preparing

/-- The call waits. -/
def Phase.Waits : Phase → Prop
  | .checking | .preparing | .saving _ => True
  | .returned | .saved | .failed => False

/-- One step. More findings come in; a call is made, with the findings of the job as they are; `reportExists` answers,
and a call without findings returns if there is a row; the mirror node and Claude have answered; the row is written;
or a wait fails. -/
inductive Step : Desk → Event → Desk → Prop
  | finds {m : Desk} {findings : List Finding} :
      Step m (.finds findings) { m with findings := m.findings ++ findings }
  | calls {m : Desk} : Step m .calls { m with calls := m.calls ++ [⟨m.findings, firstPhase m.findings⟩] }
  | checks {m : Desk} {i : ℕ} {c : Call} (hc : m.calls[i]? = some c) (hphase : c.phase = .checking) :
      Step m (.checks i) (m.move i c (if m.row.isSome = true then .returned else .preparing))
  | prepares {m : Desk} {i : ℕ} {c : Call} {texts : Texts} (hc : m.calls[i]? = some c)
      (hphase : c.phase = .preparing) : Step m (.prepares i texts) (m.move i c (.saving texts))
  | saves {m : Desk} {i : ℕ} {c : Call} {texts : Texts} (hc : m.calls[i]? = some c)
      (hphase : c.phase = .saving texts) :
      Step m (.saves i) { m.move i c .saved with row := some (upsert m.row (buildReport c.findings texts)) }
  | fails {m : Desk} {i : ℕ} {c : Call} (hc : m.calls[i]? = some c) (hphase : c.phase.Waits) :
      Step m (.fails i) (m.move i c .failed)

/-- The desk, from a job without findings, calls and row on. -/
def system : TransitionSystem Desk Event where
  init m := m = ⟨[], [], none⟩
  step := Step

open TransitionSystem

/-- The row has what a call writes of its findings. -/
structure Reflects (row : Report) (findings : List Finding) : Prop where
  count : row.findingCount = totalFindings findings
  severity : row.findingsBySeverity = calculateSeverity findings
  tags : row.tags = extractTags findings

/-- The row has at least as many findings as every call that wrote it. -/
def Desk.Kept (m : Desk) : Prop :=
  ∀ c ∈ m.calls, c.phase = .saved → ∃ row, m.row = some row ∧ totalFindings c.findings ≤ row.findingCount

/-- If all calls have come to their end without a failure, the row is that of a call with the most findings. -/
def Desk.Final (m : Desk) : Prop :=
  m.calls ≠ [] → (∀ c ∈ m.calls, c.phase = .returned ∨ c.phase = .saved) →
    ∃ row c, m.row = some row ∧ c ∈ m.calls ∧ c.phase = .saved ∧ Reflects row c.findings ∧
      ∀ d ∈ m.calls, totalFindings d.findings ≤ totalFindings c.findings

/-- When a call writes the row, no call that was made after it, with more findings, has written it. -/
def InOrder (m : Desk) : Event → Prop
  | .saves i => ∀ j c d, i < j → m.calls[i]? = some c → m.calls[j]? = some d → d.phase = .saved →
      totalFindings d.findings ≤ totalFindings c.findings
  | _ => True

variable {m m' : Desk} {i : ℕ} {c d : Call} {findings : List Finding} {texts : Texts} {phase : Phase} {e : Event}
  {ts : List (Transition Desk Event)}

/-! ## Findings and rows -/

/-- The number is a double, or `Infinity`. -/
def IsDouble (n : ℕ) : Prop := Rounding.spacing 53 n ∣ n

/-- A power of two is a double. -/
theorem isDouble_two_pow (k : ℕ) : IsDouble (2 ^ k) := by
  unfold IsDouble Rounding.spacing
  rw [Nat.log_pow Nat.one_lt_two]
  exact Nat.pow_dvd_pow 2 (by omega)

/-- A rounded number is a double. -/
theorem isDouble_toDouble (n : ℕ) : IsDouble (toDouble n) := by
  unfold toDouble
  rcases min_choice (Rounding.nearest 53 n) (2^1024) with h | h
  · rw [h]
    exact Rounding.spacing_dvd_nearest (by decide) n
  · rw [h]
    exact isDouble_two_pow _

/-- More findings never make a sum smaller. -/
theorem le_toDouble_add {sum : ℕ} (hsum : IsDouble sum) (hle : sum ≤ 2^1024) (count : ℕ) :
    sum ≤ toDouble (sum + count) :=
  le_min (Rounding.le_nearest (by decide) hsum (Nat.le_add_right _ _)) hle

/-- Numbers up to 2^53 are exact. -/
theorem toDouble_of_le {n : ℕ} (h : n ≤ 2^53) : toDouble n = n := by
  unfold toDouble
  rw [Rounding.nearest_of_le (by decide) h]
  have hpow : ∀ k, 53 ≤ k → 2^53 ≤ 2^k := fun k hk => Nat.pow_le_pow_right Nat.two_pos hk
  exact min_eq_left (Nat.le_trans h (hpow _ (by omega)))

theorem le_foldl_count (findings : List Finding) {sum : ℕ} (hsum : IsDouble sum) (hle : sum ≤ 2^1024) :
    sum ≤ findings.foldl (fun sum finding => toDouble (sum + finding.count)) sum := by
  induction findings generalizing sum with
  | nil => exact Nat.le_refl _
  | cons finding findings ih =>
    exact Nat.le_trans (le_toDouble_add hsum hle finding.count) (ih (isDouble_toDouble _) (min_le_right _ _))

/-- A total is a double, of the finite ones or the next. -/
theorem isDouble_totalFindings (findings : List Finding) :
    IsDouble (totalFindings findings) ∧ totalFindings findings ≤ 2^1024 := by
  rcases List.eq_nil_or_concat' findings with rfl | ⟨before, last, rfl⟩
  · exact ⟨Nat.dvd_zero _, Nat.zero_le _⟩
  · unfold totalFindings
    rw [List.foldl_concat]
    exact ⟨isDouble_toDouble _, min_le_right _ _⟩

/-- A longer list has no smaller total. -/
theorem totalFindings_mono {findings' : List Finding} (h : findings <+: findings') :
    totalFindings findings ≤ totalFindings findings' := by
  obtain ⟨more, rfl⟩ := h
  obtain ⟨hdouble, hle⟩ := isDouble_totalFindings findings
  unfold totalFindings
  rw [List.foldl_append]
  exact le_foldl_count more hdouble hle

theorem reflects_upsert (row : Option Report) (findings : List Finding) (texts : Texts) :
    Reflects (upsert row (buildReport findings texts)) findings := by
  cases row with
  | none => exact ⟨rfl, rfl, rfl⟩
  | some row => exact ⟨rfl, rfl, rfl⟩

/-! ## The invariant -/

/-- What holds of the desk at any time. -/
structure Desk.Sound (m : Desk) : Prop where
  /-- A call knew what the calls before it knew. -/
  ordered : (m.calls.map Call.findings).Pairwise (· <+: ·)
  known : ∀ findings ∈ m.calls.map Call.findings, findings <+: m.findings
  checking : ∀ c ∈ m.calls, c.phase = .checking → c.findings = []
  returned : ∀ c ∈ m.calls, c.phase = .returned → c.findings = [] ∧ m.row.isSome = true
  written : ∀ row, m.row = some row → ∃ c ∈ m.calls, c.phase = .saved ∧ Reflects row c.findings

/-- A call after a move is the one that moved, or was there before. -/
theorem mem_move (hd : d ∈ (m.move i c phase).calls) : d = { c with phase := phase } ∨ d ∈ m.calls :=
  (List.mem_or_eq_of_mem_set hd).symm

theorem saved_mem_move (hc : m.calls[i]? = some c) (hwaits : c.phase.Waits) (hd : d ∈ m.calls)
    (hsaved : d.phase = .saved) : d ∈ (m.move i c phase).calls := by
  refine Keyed.mem_set_of_ne hc hd ?_
  rintro rfl
  rw [hsaved] at hwaits
  exact hwaits

/-- The call that moved is there. -/
theorem self_mem_move (hc : m.calls[i]? = some c) : { c with phase := phase } ∈ (m.move i c phase).calls := by
  obtain ⟨hlt, -⟩ := List.getElem?_eq_some_iff.mp hc
  exact List.mem_of_getElem? (List.getElem?_set_self hlt)

theorem map_findings_move (hc : m.calls[i]? = some c) :
    (m.move i c phase).calls.map Call.findings = m.calls.map Call.findings := Keyed.map_set hc rfl

theorem Desk.Sound.move (h : m.Sound) (hc : m.calls[i]? = some c) (hwaits : c.phase.Waits)
    (hchecking : phase ≠ .checking) (hreturned : phase = .returned → c.findings = [] ∧ m.row.isSome = true) :
    (m.move i c phase).Sound where
  ordered := by
    rw [map_findings_move hc]
    exact h.ordered
  known := by
    rw [map_findings_move hc]
    exact h.known
  checking d hd hphase := by
    rcases mem_move hd with rfl | hd
    · exact absurd hphase hchecking
    · exact h.checking d hd hphase
  returned d hd hphase := by
    rcases mem_move hd with rfl | hd
    · exact hreturned hphase
    · exact h.returned d hd hphase
  written row hrow := by
    obtain ⟨d, hd, hsaved, hreflects⟩ := h.written row hrow
    exact ⟨d, saved_mem_move hc hwaits hd hsaved, hsaved, hreflects⟩

/-- Every step keeps what holds of the desk. -/
theorem Step.sound (h : m.Sound) (hstep : Step m e m') : m'.Sound := by
  cases hstep with
  | @finds more =>
    exact { h with known := fun findings hfindings => (h.known findings hfindings).trans (List.prefix_append _ _) }
  | calls =>
    refine ⟨?_, ?_, ?_, ?_, ?_⟩
    · rw [List.map_append, List.pairwise_append]
      refine ⟨h.ordered, List.pairwise_singleton _ _, fun findings hfindings last hlast => ?_⟩
      rw [List.mem_singleton.mp hlast]
      exact h.known findings hfindings
    · intro findings hfindings
      rw [List.map_append] at hfindings
      rcases List.mem_append.mp hfindings with hfindings | hfindings
      · exact h.known findings hfindings
      · have hlast := List.mem_singleton.mp hfindings
        exact hlast ▸ List.prefix_rfl
    · intro d hd hphase
      rcases List.mem_append.mp hd with hd | hd
      · exact h.checking d hd hphase
      · rw [List.mem_singleton.mp hd] at hphase ⊢
        unfold firstPhase at hphase
        split_ifs at hphase with hnone
        exact hnone
    · intro d hd hphase
      rcases List.mem_append.mp hd with hd | hd
      · exact h.returned d hd hphase
      · rw [List.mem_singleton.mp hd] at hphase
        unfold firstPhase at hphase
        split_ifs at hphase
    · intro row hrow
      obtain ⟨d, hd, hsaved⟩ := h.written row hrow
      exact ⟨d, List.mem_append_left _ hd, hsaved⟩
  | @checks i c hc hphase =>
    refine h.move hc (by rw [hphase]; trivial) ?_ ?_
    · split_ifs <;> exact fun hnot => nomatch hnot
    · intro hreturned
      split_ifs at hreturned with hrow
      exact ⟨h.checking c (List.mem_of_getElem? hc) hphase, hrow⟩
  | prepares hc hphase =>
    exact h.move hc (by rw [hphase]; trivial) (fun hnot => nomatch hnot) fun hnot => nomatch hnot
  | fails hc hphase => exact h.move hc hphase (fun hnot => nomatch hnot) fun hnot => nomatch hnot
  | @saves i c texts hc hphase =>
    have hmoved : (m.move i c .saved).Sound :=
      h.move hc (by rw [hphase]; trivial) (fun hnot => nomatch hnot) fun hnot => nomatch hnot
    refine { hmoved with
      returned := fun d hd hreturned => ⟨(hmoved.returned d hd hreturned).1, rfl⟩
      written := fun row hrow => ?_ }
    obtain rfl := Option.some.inj hrow
    exact ⟨_, self_mem_move hc, rfl, reflects_upsert m.row c.findings texts⟩

theorem sound_of_reachable (hm : system.Reachable m) : m.Sound := by
  refine hm.induct (I := Desk.Sound) ?_ ?_
  · rintro m rfl
    exact ⟨.nil, by simp, by simp, by simp, fun _ hrow => nomatch hrow⟩
  · intro m e m' _ hsound hstep
    exact Step.sound hsound hstep

theorem Desk.Sound.knew (h : m.Sound) {j : ℕ} (hlt : i < j) (hc : m.calls[i]? = some c)
    (hd : m.calls[j]? = some d) : c.findings <+: d.findings := by
  obtain ⟨hi, rfl⟩ := List.getElem?_eq_some_iff.mp hc
  obtain ⟨hj, rfl⟩ := List.getElem?_eq_some_iff.mp hd
  have hordered := List.pairwise_iff_getElem.mp h.ordered i j (by simpa using hi) (by simpa using hj) hlt
  rwa [List.getElem_map, List.getElem_map] at hordered

/-! ## One step -/

theorem Desk.Kept.final (hsound : m.Sound) (h : m.Kept) : m.Final := by
  intro hcalls hended
  -- A call that returned early has found a row.
  have hrow : m.row.isSome = true := by
    obtain ⟨c, hc⟩ := List.exists_mem_of_ne_nil _ hcalls
    rcases hended c hc with hreturned | hsaved
    · exact (hsound.returned c hc hreturned).2
    · obtain ⟨row, hrow, -⟩ := h c hc hsaved
      rw [hrow]
      rfl
  obtain ⟨row, hrow⟩ := Option.isSome_iff_exists.mp hrow
  obtain ⟨c, hc, hsaved, hreflects⟩ := hsound.written row hrow
  refine ⟨row, c, hrow, hc, hsaved, hreflects, fun d hd => ?_⟩
  rcases hended d hd with hreturned | hsaved
  · rw [(hsound.returned d hd hreturned).1]
    exact Nat.zero_le _
  · obtain ⟨row', hrow', hle⟩ := h d hd hsaved
    rw [hrow, Option.some.injEq] at hrow'
    rw [← hreflects.count, hrow']
    exact hle

theorem Desk.Kept.move (h : m.Kept) (hsaved : phase ≠ .saved) : (m.move i c phase).Kept := by
  intro d hd hphase
  rcases mem_move hd with rfl | hd
  · exact absurd hphase hsaved
  · exact h d hd hphase

theorem kept_saves_iff (hsound : m.Sound) (hc : m.calls[i]? = some c)
    (hphase : c.phase = .saving texts) :
    Desk.Kept { m.move i c .saved with row := some (upsert m.row (buildReport c.findings texts)) } ↔
      InOrder m (.saves i) := by
  have hcount := (reflects_upsert m.row c.findings texts).count
  constructor
  · intro hkept j c' d hlt hc' hd hsaved
    obtain rfl := Option.some.inj (hc.symm.trans hc')
    have hwaits : c.phase.Waits := by
      rw [hphase]
      trivial
    obtain ⟨row, hrow, hle⟩ := hkept d (saved_mem_move hc hwaits (List.mem_of_getElem? hd) hsaved) hsaved
    rw [← Option.some.inj hrow, hcount] at hle
    exact hle
  · intro horder d hd hsaved
    refine ⟨_, rfl, ?_⟩
    rw [hcount]
    rcases mem_move hd with rfl | hd
    · exact Nat.le_refl _
    · obtain ⟨j, hj⟩ := List.getElem?_of_mem hd
      rcases Nat.lt_trichotomy i j with hlt | rfl | hgt
      · exact horder j c d hlt hc hj hsaved
      · rw [hc] at hj
        rw [Option.some.inj hj]
      · exact totalFindings_mono (hsound.knew hgt hj hc)

theorem Step.kept_iff (hsound : m.Sound) (h : m.Kept) (hstep : Step m e m') : m'.Kept ↔ InOrder m e := by
  cases hstep with
  | finds => exact iff_of_true h trivial
  | calls =>
    refine iff_of_true (fun d hd hsaved => ?_) trivial
    rcases List.mem_append.mp hd with hd | hd
    · exact h d hd hsaved
    · rw [List.mem_singleton.mp hd] at hsaved
      unfold firstPhase at hsaved
      split_ifs at hsaved
  | checks hc hphase =>
    refine iff_of_true (h.move ?_) trivial
    split_ifs <;> exact fun hnot => nomatch hnot
  | prepares hc hphase => exact iff_of_true (h.move fun hnot => nomatch hnot) trivial
  | fails hc hphase => exact iff_of_true (h.move fun hnot => nomatch hnot) trivial
  | saves hc hphase => exact kept_saves_iff hsound hc hphase

/-! ## Every run -/

/-- In every run: the row always has as many findings as every call has written, and is in the end that of a call with
the most findings, if and only if no call ever writes it after one that was made later, with more findings. -/
theorem kept_iff_inOrder (hr : system.Run ts m) :
    Throughout (fun m => m.Kept ∧ m.Final) ts m ↔ ∀ tr ∈ ts, InOrder tr.src tr.label := by
  refine Run.forall_iff (C := InOrder) ?_ ?_ hr
  · rintro m rfl
    exact ⟨by simp [Desk.Kept], fun hcalls => absurd rfl hcalls⟩
  · intro m e m' hm h hstep
    have hsound := sound_of_reachable hm
    rw [← Step.kept_iff hsound h.1 hstep]
    exact and_iff_left_of_imp fun hkept => hkept.final (Step.sound hsound hstep)

/-! ## Two calls -/

/-- A call that could not resolve anything. -/
def blankTexts : Texts := ⟨"", "", none, "", "", "", "", "", "", [], 0⟩

/-- An agent's five findings. -/
def fiveFindings : Finding := ⟨some 5, some 1, none, none, none, none⟩

/-- The call has written the row. -/
def Phase.isSaved : Phase → Bool
  | .saved => true
  | _ => false

/-- What is read of a desk: which calls have written, how many findings each of them knew, and how many there are in
the row. -/
def Desk.counts (m : Desk) : List (Bool × ℕ) × Option ℕ :=
  (m.calls.map fun c => (c.phase.isSaved, totalFindings c.findings), m.row.map Report.findingCount)

/-- An event that takes place. -/
def Desk.play (m : Desk) : Event → Option Desk
  | .finds findings => some { m with findings := m.findings ++ findings }
  | .calls => some { m with calls := m.calls ++ [⟨m.findings, firstPhase m.findings⟩] }
  | .checks i =>
    match m.calls[i]? with
    | some ⟨findings, .checking⟩ =>
      some (m.move i ⟨findings, .checking⟩ (if m.row.isSome = true then .returned else .preparing))
    | _ => none
  | .prepares i texts =>
    match m.calls[i]? with
    | some ⟨findings, .preparing⟩ => some (m.move i ⟨findings, .preparing⟩ (.saving texts))
    | _ => none
  | .saves i =>
    match m.calls[i]? with
    | some ⟨findings, .saving texts⟩ =>
      some { m.move i ⟨findings, .saving texts⟩ .saved with row := some (upsert m.row (buildReport findings texts)) }
    | _ => none
  | .fails _ => none

theorem plays_system : system.Plays Desk.play fun _ move e => e = move := by
  intro m move m' h
  refine ⟨move, rfl, ?_⟩
  unfold Desk.play at h
  split at h
  · rw [← Option.some.inj h]
    exact .finds
  · rw [← Option.some.inj h]
    exact .calls
  · split at h
    · rename_i hc
      rw [← Option.some.inj h]
      exact .checks hc rfl
    · cases h
  · split at h
    · rename_i hc
      rw [← Option.some.inj h]
      exact .prepares hc rfl
    · cases h
  · split at h
    · rename_i hc
      rw [← Option.some.inj h]
      exact .saves hc rfl
    · cases h
  · cases h

/-- No call that was made later, with more findings, has written the row that the event writes. -/
def Desk.inOrder (m : Desk) : Event → Bool
  | .saves i => (m.calls.drop (i + 1)).all fun d => !d.phase.isSaved ||
      m.calls[i]?.all fun c => decide (totalFindings d.findings ≤ totalFindings c.findings)
  | _ => true

theorem inOrder_of_play (h : m.inOrder e = true) : InOrder m e := by
  cases e with
  | saves i =>
    intro j c d hlt hc hd hsaved
    have hmem : d ∈ m.calls.drop (i + 1) := by
      refine List.mem_of_getElem? (i := j - (i + 1)) ?_
      rw [List.getElem?_drop, Nat.add_sub_cancel' hlt]
      exact hd
    have hchecked := List.all_eq_true.mp h d hmem
    rw [hc, hsaved] at hchecked
    simpa [Phase.isSaved] using hchecked
  | _ => trivial

/-- The winners are selected before there are findings, the report is published after, and each call is through before
the other one is made. -/
theorem kept_iff_inOrder_twoCalls : ∃ ts m, system.Run ts m ∧ Throughout (fun m => m.Kept ∧ m.Final) ts m ∧
    m.counts = ([(true, 0), (true, 5)], some 5) := by
  have hplay : (([.calls, .checks 0, .prepares 0 blankTexts, .saves 0, .finds [fiveFindings], .calls,
      .prepares 1 blankTexts, .saves 1] : List Event).foldlM
        (fun m e => if m.inOrder e = true then m.play e else none) ⟨[], [], none⟩).map Desk.counts =
      some ([(true, 0), (true, 5)], some 5) := by decide +kernel
  obtain ⟨ts, m, hr, hcounts, hfrom, -⟩ := plays_system.guarded.exists_run rfl hplay
  refine ⟨ts, m, hr, (kept_iff_inOrder hr).mpr fun tr htr => inOrder_of_play ?_, hcounts⟩
  obtain ⟨e, -, hcomes⟩ := hfrom tr htr
  rw [hcomes.means.1]
  exact hcomes.means.2

/-- The first call is slow, and writes over the row of the second one, which has five findings. -/
theorem not_kept_slowCall :
    ¬ ∀ ts m, system.Run ts m → Throughout (fun m => m.Kept ∧ m.Final) ts m := by
  intro hall
  have hplay : (([.calls, .checks 0, .finds [fiveFindings], .calls, .prepares 1 blankTexts, .saves 1,
      .prepares 0 blankTexts, .saves 0] : List Event).foldlM Desk.play ⟨[], [], none⟩).map Desk.counts =
      some ([(true, 0), (true, 5)], some 0) := by decide +kernel
  obtain ⟨ts, m, hr, hcounts, -⟩ := plays_system.exists_run rfl hplay
  obtain ⟨hkept, -⟩ := (hall ts m hr).2
  obtain ⟨hcalls, hrow⟩ := Prod.mk.inj hcounts
  have hlast : (true, 5) ∈ m.calls.map fun c => (c.phase.isSaved, totalFindings c.findings) := by
    rw [hcalls]
    simp
  obtain ⟨c, hc, heq⟩ := List.mem_map.mp hlast
  obtain ⟨hsaved, htotal⟩ := Prod.mk.inj heq
  have hphase : c.phase = .saved := by
    unfold Phase.isSaved at hsaved
    split at hsaved
    · assumption
    · cases hsaved
  obtain ⟨row, hm, hle⟩ := hkept c hc hphase
  rw [hm, Option.map_some, Option.some.injEq] at hrow
  omega

/-! ## The findings by severity

A finding is counted once by `totalFindings` and once more by `calculateSeverity`, each with its own way out for what
is missing: a record with a `criticalCount` only is one finding for the one and as many as are critical for the other,
critical findings are counted even if there are fewer findings, and a severity that is none of the five is left out. -/

/-- The findings of all severities. -/
def FindingsBySeverity.total (counts : FindingsBySeverity) : ℕ :=
  counts.critical + counts.high + counts.medium + counts.low + counts.info

/-- The keys of `EMPTY_FINDINGS`. -/
def severities : List String := ["critical", "high", "medium", "low", "info"]

/-- The critical findings of an aggregate record. -/
def Finding.critical (finding : Finding) : ℕ := (finding.criticalCount.map wholeCount).getD 0

/-- The finding is an aggregate record. -/
def Finding.Aggregate (finding : Finding) : Prop :=
  finding.findingsCount.isSome = true ∨ finding.criticalCount.isSome = true

/-- What the finding adds to the findings by severity. -/
def Finding.bySeverity (finding : Finding) : ℕ :=
  if finding.findingsCount.isSome ∨ finding.criticalCount.isSome then
    max finding.critical ((finding.findingsCount.map wholeCount).getD finding.critical)
  else if ((finding.severity.or finding.level).getD "info").toLower ∈ severities then 1 else 0

/-- The findings of a stored report are those of its severities, and no aggregate record adds more critical findings
to it than findings. -/
structure AddsUp (findings : List Finding) : Prop where
  sum : (calculateSeverity findings).total = totalFindings findings
  stored : ∀ row texts, (upsert row (buildReport findings texts)).findingsBySeverity.total =
    (upsert row (buildReport findings texts)).findingCount
  critical : ∀ finding ∈ findings, finding.Aggregate → finding.critical ≤ finding.count

/-- An aggregate record that says both has no more critical findings than findings, one that says only how many are
critical has one, and the severity of a single finding is one of the five, or missing. -/
def Finding.Regular (finding : Finding) : Prop :=
  match finding.findingsCount, finding.criticalCount with
  | some total, some critical => wholeCount critical ≤ wholeCount total
  | some _, none => True
  | none, some critical => wholeCount critical = 1
  | none, none => ((finding.severity.or finding.level).getD "info").toLower ∈ severities

theorem FindingsBySeverity.total_add (counts : FindingsBySeverity) (severity : String) (h : counts.total < 2^53) :
    (counts.add severity).total = counts.total + if severity ∈ severities then 1 else 0 := by
  unfold FindingsBySeverity.add severities
  unfold FindingsBySeverity.total at h ⊢
  split
  case h_6 hcritical hhigh hmedium hlow hinfo =>
    have hnot : severity ∉ ["critical", "high", "medium", "low", "info"] := by
      simp only [List.mem_cons, List.not_mem_nil, or_false, not_or]
      exact ⟨hcritical, hhigh, hmedium, hlow, hinfo⟩
    rw [if_neg hnot, Nat.add_zero]
  all_goals
    rw [if_pos (by simp)]
    dsimp only
    rw [toDouble_of_le (by omega)]
    omega

/-- As long as the sums stay exact, a finding adds to the severities what it is to add. -/
theorem total_addSeverity (counts : FindingsBySeverity) (finding : Finding)
    (h : counts.total + finding.bySeverity ≤ 2^53) :
    (addSeverity counts finding).total = counts.total + finding.bySeverity := by
  unfold addSeverity
  unfold Finding.bySeverity at h ⊢
  split_ifs at h ⊢ with haggregate hknown
  · unfold FindingsBySeverity.total Finding.critical at h ⊢
    dsimp only
    generalize (finding.criticalCount.map wholeCount).getD 0 = critical at h ⊢
    generalize (finding.findingsCount.map wholeCount).getD critical = total at h ⊢
    rw [toDouble_of_le (n := total - critical) (by omega), toDouble_of_le (by omega), toDouble_of_le (by omega)]
    omega
  · rw [FindingsBySeverity.total_add _ _ (by omega), if_pos hknown]
  · by_cases hfull : counts.total < 2^53
    · rw [FindingsBySeverity.total_add _ _ hfull, if_neg hknown]
    · simp only [severities, List.mem_cons, List.not_mem_nil, or_false, not_or] at hknown
      unfold FindingsBySeverity.add
      split
      case h_6 => rfl
      all_goals simp_all

theorem total_foldl_addSeverity (counts : FindingsBySeverity) (findings : List Finding)
    (h : counts.total + (findings.map Finding.bySeverity).sum ≤ 2^53) :
    (findings.foldl addSeverity counts).total = counts.total + (findings.map Finding.bySeverity).sum := by
  induction findings generalizing counts with
  | nil => rfl
  | cons finding findings ih =>
    rw [List.map_cons, List.sum_cons] at h ⊢
    have hfirst := total_addSeverity counts finding (by omega)
    rw [List.foldl_cons, ih _ (by omega), hfirst]
    omega

theorem foldl_count {findings : List Finding} {sum : ℕ} (h : sum + (findings.map Finding.count).sum ≤ 2^53) :
    findings.foldl (fun sum finding => toDouble (sum + finding.count)) sum =
      sum + (findings.map Finding.count).sum := by
  induction findings generalizing sum with
  | nil => rfl
  | cons finding findings ih =>
    rw [List.map_cons, List.sum_cons] at h ⊢
    rw [List.foldl_cons, toDouble_of_le (by omega), ih (by omega)]
    omega

theorem Finding.bySeverity_of_aggregate {finding : Finding} (h : finding.Aggregate) :
    finding.bySeverity = max finding.critical ((finding.findingsCount.map wholeCount).getD finding.critical) :=
  if_pos h

theorem Finding.bySeverity_of_not_aggregate {finding : Finding} (h : ¬ finding.Aggregate) :
    finding.bySeverity =
      if ((finding.severity.or finding.level).getD "info").toLower ∈ severities then 1 else 0 := if_neg h

theorem Finding.bySeverity_le_count {finding : Finding}
    (h : finding.Aggregate → finding.critical ≤ finding.count) : finding.bySeverity ≤ finding.count := by
  by_cases haggregate : finding.Aggregate
  · rw [Finding.bySeverity_of_aggregate haggregate]
    refine max_le (h haggregate) ?_
    have hcritical := h haggregate
    unfold Finding.count at hcritical ⊢
    cases hcount : finding.findingsCount with
    | none =>
      rw [hcount] at hcritical
      exact hcritical
    | some total => exact Nat.le_refl _
  · rw [Finding.bySeverity_of_not_aggregate haggregate]
    have hcount : finding.count = 1 := by
      have hnone : finding.findingsCount = none := by
        rw [← Option.not_isSome_iff_eq_none]
        exact fun hsome => haggregate (.inl hsome)
      rw [Finding.count, hnone]
      rfl
    split_ifs <;> omega

theorem Finding.regular_iff (finding : Finding) :
    finding.Regular ↔
      finding.bySeverity = finding.count ∧ (finding.Aggregate → finding.critical ≤ finding.count) := by
  by_cases haggregate : finding.Aggregate
  · rw [Finding.bySeverity_of_aggregate haggregate]
    unfold Finding.Aggregate at haggregate
    unfold Finding.Regular Finding.Aggregate Finding.count Finding.critical
    cases hcount : finding.findingsCount with
    | none =>
      cases hcritical : finding.criticalCount with
      | none => simp [hcount, hcritical] at haggregate
      | some critical => simp; omega
    | some total =>
      cases hcritical : finding.criticalCount with
      | none => simp
      | some critical => simp
  · rw [Finding.bySeverity_of_not_aggregate haggregate]
    have hnone : finding.findingsCount = none ∧ finding.criticalCount = none := by
      simpa [Finding.Aggregate] using haggregate
    unfold Finding.Regular Finding.count
    rw [hnone.1, hnone.2]
    simp [haggregate]

/-- For every list of findings whose counts come to `2 ^ 53` at most, so that the sums are exact: the severities of its
report add up to its findings, with no more critical findings than findings in a record, if and only if every finding
is regular. -/
theorem addsUp_iff_regular (findings : List Finding) (hexact : (findings.map Finding.count).sum ≤ 2^53) :
    AddsUp findings ↔ ∀ finding ∈ findings, finding.Regular := by
  have hcount : totalFindings findings = (findings.map Finding.count).sum := by
    rw [totalFindings, foldl_count (by omega)]
    exact Nat.zero_add _
  have hsum : (∀ finding ∈ findings, finding.bySeverity ≤ finding.count) →
      (calculateSeverity findings).total = (findings.map Finding.bySeverity).sum := by
    intro hle
    have hbound := Nat.le_trans (List.sum_le_sum hle) hexact
    have hempty : EMPTY_FINDINGS.total = 0 := rfl
    rw [calculateSeverity, total_foldl_addSeverity _ _ (by omega), hempty]
    exact Nat.zero_add _
  constructor
  · intro h finding hfinding
    refine finding.regular_iff.mpr ⟨?_, h.critical finding hfinding⟩
    have hle : ∀ other ∈ findings, other.bySeverity ≤ other.count :=
      fun other hother => Finding.bySeverity_le_count (h.critical other hother)
    -- No finding adds more to the severities than to the findings, so that none adds less.
    by_contra hne
    refine Nat.ne_of_lt (List.sum_lt_sum Finding.bySeverity Finding.count hle ⟨finding, hfinding, ?_⟩)
      ((hsum hle).symm.trans (h.sum.trans hcount))
    exact Nat.lt_of_le_of_ne (hle finding hfinding) hne
  · intro hregular
    have heach : ∀ finding ∈ findings, finding.bySeverity = finding.count :=
      fun finding hfinding => (finding.regular_iff.mp (hregular finding hfinding)).1
    have heq : (calculateSeverity findings).total = totalFindings findings := by
      rw [hsum fun finding hfinding => (heach finding hfinding).le, hcount]
      congr 1
      exact List.map_congr_left heach
    refine ⟨heq, fun row texts => ?_, fun finding hfinding => (finding.regular_iff.mp (hregular finding hfinding)).2⟩
    have hreflects := reflects_upsert row findings texts
    rw [hreflects.severity, hreflects.count]
    exact heq

/-- Two aggregate records and an item: nine findings, three of them critical. -/
theorem addsUp_iff_regular_three : AddsUp [⟨some 5, some 1, none, none, none, none⟩,
    ⟨some 3, some 2, none, none, none, none⟩, ⟨none, none, some "HIGH", none, none, none⟩] := by
  refine (addsUp_iff_regular _ (by decide +kernel)).mpr ?_
  simp only [List.forall_mem_cons, List.not_mem_nil, false_imp_iff, implies_true, and_true]
  exact ⟨(by decide +kernel : wholeCount 1 ≤ wholeCount 5), (by decide +kernel : wholeCount 2 ≤ wholeCount 3),
    (by decide +kernel : "HIGH".toLower ∈ severities)⟩

/-- A record that has three critical findings and no number of findings is one finding with three severities. -/
theorem not_addsUp_criticalOnly : ¬ ∀ findings, AddsUp findings := by
  intro hall
  have hsum := (hall [⟨none, some 3, none, none, none, none⟩]).sum
  have hseverity : (calculateSeverity [⟨none, some 3, none, none, none, none⟩]).total = 3 := by decide +kernel
  have htotal : totalFindings [⟨none, some 3, none, none, none, none⟩] = 1 := by decide +kernel
  omega

end AuditGuard.ReportStore
