import AuditGuard.Reporting.Model

/-!
# Reports: messages that are delivered again

What comes out for a job, over everything that happens to it one thing after the other: messages with findings, the
selection of winners, changes of the roster, the publication of the report, by the number of messages, the timer or
the report agent, the payments that `settleAll` builds, and the pass of `updateReputation`. `handleFindings` pushes
every message, so a message that is delivered again before that pass makes a difference, whatever it says
(`outcome_eq_iff`).
-/

namespace AuditGuard.Reporting

open Evm
open Orchestrator (AddressText AgentEntry)

/-- What happens to a job. -/
inductive Occurrence
  | findings (msg : FindingsMsg)
  | winners (winners : List AddressText)
  | roster (roster : List AgentEntry)
  /-- The timer of the first finding runs out. -/
  | timeout
  /-- The report agent publishes a report. -/
  | report
  /-- `settleAll` reads the job. -/
  | settle
  /-- `updateReputation` is through with the findings. -/
  | updateReputation

/-- What comes out of a job: the totals that were published, the manifest, and the deltas. -/
structure Outcome where
  totals : Option Totals
  manifest : Option (Except String (Option (List Payment)))
  updates : Option (List ReputationUpdate)
deriving DecidableEq

/-- A job, with the roster and with what has come out so far. -/
structure Docket where
  findings : List Finding
  winners : List AddressText
  roster : List AgentEntry
  reportPublished : Bool
  outcome : Outcome

/-- `autoPublishReport`, up to the publication. -/
def Docket.autoPublishReport (s : Docket) : Docket :=
  if s.reportPublished = true then s
  else { s with
    reportPublished := true
    outcome := { s.outcome with totals := some (reportTotals s.findings) } }

/-- `handleFindings`. -/
def Docket.handleFindings (cfg : Config) (msg : FindingsMsg) (s : Docket) : Docket :=
  let s := { s with findings := s.findings ++ [msg.toFinding s.roster] }
  if cfg.autoPublishAfterFindings ≤ s.findings.length then s.autoPublishReport else s

/-- What comes of an occurrence. The job is settled, and its reputation updated, once. -/
def Docket.next (cfg : Config) (s : Docket) : Occurrence → Docket
  | .findings msg => s.handleFindings cfg msg
  | .winners winners => { s with winners := winners }
  | .roster roster => { s with roster := roster }
  | .timeout => s.autoPublishReport
  | .report => { s with reportPublished := true }
  | .settle => { s with outcome := { s.outcome with
      manifest := s.outcome.manifest <|> some (buildManifest cfg s.roster s.winners s.findings) } }
  | .updateReputation => { s with outcome := { s.outcome with
      updates := s.outcome.updates <|> some (s.findings.map Finding.reputationUpdate) } }

/-- What comes of one thing after the other. -/
def Docket.run (cfg : Config) (s : Docket) (es : List Occurrence) : Docket := es.foldl (Docket.next cfg) s

/-- What comes out of a settlement, whose last part is the pass of `updateReputation`. -/
def outcome (cfg : Config) (s : Docket) (es : List Occurrence) : Outcome :=
  (s.run cfg (es ++ [.updateReputation])).outcome

/-- The message of an occurrence. -/
def Occurrence.message : Occurrence → List FindingsMsg
  | .findings msg => [msg]
  | _ => []

/-- `es'` is `es` with messages delivered again, each after it was handled. -/
inductive Redelivered : List FindingsMsg → List Occurrence → List Occurrence → Prop
  | nil (handled : List FindingsMsg) : Redelivered handled [] []
  | next {handled : List FindingsMsg} {es es' : List Occurrence} (e : Occurrence)
      (h : Redelivered (handled ++ e.message) es es') : Redelivered handled (e :: es) (e :: es')
  | again {handled : List FindingsMsg} {es es' : List Occurrence} {msg : FindingsMsg} (hmsg : msg ∈ handled)
      (h : Redelivered handled es es') : Redelivered handled es (.findings msg :: es')

/-! ## How many findings there are -/

/-- The number of messages among the occurrences. -/
def messages (es : List Occurrence) : List FindingsMsg := es.flatMap Occurrence.message

variable {cfg : Config} {s : Docket} {es es' : List Occurrence} {handled : List FindingsMsg}

theorem autoPublishReport_findings (s : Docket) : s.autoPublishReport.findings = s.findings ∧
    s.autoPublishReport.outcome.updates = s.outcome.updates := by
  unfold Docket.autoPublishReport
  split_ifs <;> exact ⟨rfl, rfl⟩

theorem next_length (e : Occurrence) :
    (s.next cfg e).findings.length = s.findings.length + e.message.length := by
  cases e with
  | findings msg =>
    simp only [Docket.next, Docket.handleFindings]
    split_ifs
    · rw [(autoPublishReport_findings _).1, List.length_append]
      rfl
    · rw [List.length_append]
      rfl
  | timeout => exact congrArg List.length (autoPublishReport_findings s).1
  | _ => rfl

theorem run_length (cfg : Config) (s : Docket) (es : List Occurrence) :
    (s.run cfg es).findings.length = s.findings.length + (messages es).length := by
  induction es generalizing s with
  | nil => rfl
  | cons e es ih =>
    have hrest := ih (s.next cfg e)
    rw [next_length] at hrest
    unfold Docket.run messages at hrest ⊢
    rw [List.foldl_cons, hrest, List.flatMap_cons, List.length_append]
    omega

theorem next_updates (hs : s.outcome.updates = none) (e : Occurrence) (he : e ≠ .updateReputation) :
    (s.next cfg e).outcome.updates = none := by
  cases e with
  | findings msg =>
    simp only [Docket.next, Docket.handleFindings]
    split_ifs
    · rw [(autoPublishReport_findings _).2]
      exact hs
    · exact hs
  | timeout => exact (autoPublishReport_findings s).2.trans hs
  | updateReputation => exact absurd rfl he
  | _ => exact hs

theorem run_updates (hs : s.outcome.updates = none) (hes : ∀ e ∈ es, e ≠ .updateReputation) :
    (s.run cfg es).outcome.updates = none := by
  induction es generalizing s with
  | nil => exact hs
  | cons e es ih =>
    have hnext : (s.next cfg e).outcome.updates = none := next_updates hs e (hes e List.mem_cons_self)
    exact ih hnext fun e' he' => hes e' (List.mem_cons_of_mem _ he')

theorem outcome_updates (hs : s.outcome.updates = none) (hes : ∀ e ∈ es, e ≠ .updateReputation) :
    (outcome cfg s es).updates = some ((s.run cfg es).findings.map Finding.reputationUpdate) := by
  unfold outcome Docket.run
  rw [List.foldl_append, List.foldl_cons, List.foldl_nil]
  have hnone : (s.run cfg es).outcome.updates = none := run_updates hs hes
  unfold Docket.run at hnone
  simp only [Docket.next, hnone]
  rfl

/-! ## Messages that are delivered again -/

theorem Redelivered.mem (h : Redelivered handled es es') {e : Occurrence} (he : e ∈ es') :
    e ∈ es ∨ ∃ msg, e = .findings msg := by
  induction h with
  | nil => exact .inl he
  | next e' _ ih =>
    rcases List.mem_cons.mp he with rfl | he
    · exact .inl List.mem_cons_self
    · exact (ih he).imp_left (List.mem_cons_of_mem _)
  | again _ _ ih =>
    rcases List.mem_cons.mp he with rfl | he
    · exact .inr ⟨_, rfl⟩
    · exact ih he

theorem Redelivered.length (h : Redelivered handled es es') :
    (messages es).length ≤ (messages es').length ∧ ((messages es').length = (messages es).length → es' = es) := by
  unfold messages
  induction h with
  | nil => exact ⟨Nat.le_refl _, fun _ => rfl⟩
  | next e _ ih =>
    simp only [List.flatMap_cons, List.length_append]
    refine ⟨by omega, fun heq => ?_⟩
    rw [ih.2 (by omega)]
  | again _ _ ih =>
    simp only [List.flatMap_cons, List.length_append, Occurrence.message, List.length_singleton]
    exact ⟨by omega, fun heq => by omega⟩

/-- Messages that are delivered again before the settlement of a job is over leave what comes out unchanged only if
there are none: every one of them adds a delta of its own. -/
theorem outcome_eq_iff (h : Redelivered handled es es') (hs : s.outcome.updates = none)
    (hes : ∀ e ∈ es, e ≠ .updateReputation) : outcome cfg s es' = outcome cfg s es ↔ es' = es := by
  constructor
  · intro heq
    have hes' : ∀ e ∈ es', e ≠ .updateReputation := by
      intro e he
      rcases h.mem he with he | ⟨msg, rfl⟩
      · exact hes e he
      · nofun
    have hupdates := congrArg Outcome.updates heq
    rw [outcome_updates hs hes', outcome_updates hs hes] at hupdates
    have hlength := congrArg List.length (Option.some.inj hupdates)
    rw [List.length_map, List.length_map, run_length, run_length] at hlength
    exact h.length.2 (by omega)
  · intro heq
    rw [heq]

/-! ## A message that is delivered twice -/

/-- Nothing has come. -/
def sampleDocket : Docket := ⟨[], [], [], false, ⟨none, none, none⟩⟩

/-- Two winners report, and are settled. -/
def sampleSettlement : List Occurrence := [.winners [.address 1, .address 2],
  .findings (sampleMsg "fuzzer" 1), .findings (sampleMsg "static" 2), .timeout, .settle]

/-- The same, but the first report comes twice. -/
def sampleRedelivery : List Occurrence := [.winners [.address 1, .address 2],
  .findings (sampleMsg "fuzzer" 1), .findings (sampleMsg "fuzzer" 1), .findings (sampleMsg "static" 2), .timeout,
  .settle]

theorem redelivered_sample : Redelivered [] sampleSettlement sampleRedelivery :=
  .next _ (.next _ (.again (by decide) (.next _ (.next _ (.next _ (.nil _))))))

/-- The totals of the report, the payments and the deltas are others than without the second delivery. -/
theorem redelivery_changes_pay : Redelivered [] sampleSettlement sampleRedelivery ∧
    (outcome sampleConfig sampleDocket sampleRedelivery).totals ≠
      (outcome sampleConfig sampleDocket sampleSettlement).totals ∧
    (outcome sampleConfig sampleDocket sampleRedelivery).manifest ≠
      (outcome sampleConfig sampleDocket sampleSettlement).manifest ∧
    (outcome sampleConfig sampleDocket sampleRedelivery).updates ≠
      (outcome sampleConfig sampleDocket sampleSettlement).updates := by
  refine ⟨redelivered_sample, ?_, ?_, ?_⟩ <;> decide +kernel

/-- So the outcome is another one. -/
theorem outcome_eq_iff_sample : outcome sampleConfig sampleDocket sampleRedelivery ≠
    outcome sampleConfig sampleDocket sampleSettlement := by
  have hbefore : ∀ e ∈ sampleSettlement, e ≠ .updateReputation := by
    simp [sampleSettlement]
  intro heq
  have hsame := congrArg List.length ((outcome_eq_iff redelivered_sample rfl hbefore).mp heq)
  exact absurd hsame (by decide)

end AuditGuard.Reporting
