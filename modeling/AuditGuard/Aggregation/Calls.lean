import AuditGuard.Aggregation.Model

/-!
# The calls of the jobs

A step is about one job, and leaves the others. How often a submission is counted in the published reports of its job
changes only where a step publishes one.
-/

namespace AuditGuard.Aggregation

open TransitionSystem

variable {config : Config} {s s' : State} {e : Event} {x : Submission} {jobId : JobId} {job : JobFindings}
  {phase : Phase} {answer : Answer} {overlap : ℕ → ℕ → ℚ} {totals : Totals} {agents : List String}

/-! ## Counting -/

/-- How often a message counts a submission in a report of its job. -/
def Message.counts (x : Submission) : Message → ℕ
  | .reportPublished jobId totals _ => if jobId = x.jobId then totals.counted.count x else 0
  | _ => 0

/-- How often a submission is counted in the published reports of its job. -/
def State.timesCounted (s : State) (x : Submission) : ℕ := (s.auditLog.map (Message.counts x)).sum

/-! ## One job at a time -/

/-- What the agent has of a job is the same in both states. -/
structure SameJob (jobId : JobId) (s s' : State) : Prop where
  jobFindings : s'.jobFindings jobId = s.jobFindings jobId
  timers : s'.timers jobId = s.timers jobId
  calls : s'.calls jobId = s.calls jobId

/-- When a call goes on, the other jobs stay as they are. -/
theorem State.goesOn_other {jobId' : JobId} (hne : jobId ≠ jobId') (next : Next) :
    SameJob jobId s (s.goesOn jobId' next) := by
  cases next with
  | awaits phase => exact ⟨rfl, rfl, Function.update_of_ne hne ..⟩
  | deletes => exact ⟨Function.update_of_ne hne .., rfl, Function.update_of_ne hne ..⟩
  | stops => exact ⟨rfl, rfl, Function.update_of_ne hne ..⟩

theorem Step.same (hstep : Step config s e s') (hne : jobId ≠ e.jobId) : SameJob jobId s s' := by
  cases hstep with
  | receives =>
    unfold handleAgentCommsMessage
    dsimp only
    refine ⟨Function.update_of_ne hne .., ?_, rfl⟩
    dsimp only
    split_ifs
    · rfl
    · exact Function.update_of_ne hne ..
  | @fires jobId' overlap hpos =>
    have htimers := Function.update_of_ne hne (s.timers jobId' - 1) s.timers
    unfold aggregateAndPublish
    dsimp only
    split
    · exact ⟨rfl, htimers, rfl⟩
    · split_ifs
      · exact ⟨rfl, htimers, rfl⟩
      all_goals
        obtain ⟨hjobFindings, htimers', hcalls⟩ := State.goesOn_other hne _
        exact ⟨hjobFindings.trans (Function.update_of_ne hne ..), htimers'.trans htimers, hcalls⟩
  | @resumes jobId' job phase answer overlap hjob hcall =>
    obtain ⟨hjobFindings, htimers, hcalls⟩ := State.goesOn_other hne (resume config overlap jobId' job phase answer)
    exact ⟨hjobFindings, htimers, hcalls⟩

theorem timesCounted_append {messages : List Message} (h : s'.auditLog = s.auditLog ++ messages) :
    s'.timesCounted x = s.timesCounted x + (messages.map (Message.counts x)).sum := by
  unfold State.timesCounted
  rw [h, List.map_append, List.sum_append]

theorem counts_message {message : Message} (hne : x.jobId ≠ jobId) (h : message ∈ phase.message jobId) :
    message.counts x = 0 := by
  cases phase with
  | publishingReport totals agentCount =>
    obtain rfl := Option.some.inj h
    exact if_neg (Ne.symm hne)
  | settlementFailed => obtain rfl := Option.some.inj h; rfl
  | updatingReputation => obtain rfl := Option.some.inj h; rfl
  | publishingMetadata => obtain rfl := Option.some.inj h; rfl
  | _ => cases h

theorem resumes_auditLog : (s.resumes config overlap jobId job phase answer).auditLog =
    s.auditLog ++ if answer.landed then (phase.message jobId).toList else [] := rfl

theorem State.goesOn_received (next : Next) : (s.goesOn jobId next).received = s.received := by
  cases next <;> rfl

theorem State.goesOn_auditLog (next : Next) : (s.goesOn jobId next).auditLog = s.auditLog := by
  cases next <;> rfl

theorem aggregateAndPublish_auditLog : (aggregateAndPublish config overlap jobId s).auditLog = s.auditLog := by
  unfold aggregateAndPublish
  split
  · rfl
  · split_ifs
    · rfl
    all_goals exact State.goesOn_auditLog _

theorem aggregateAndPublish_received : (aggregateAndPublish config overlap jobId s).received = s.received := by
  unfold aggregateAndPublish
  split
  · rfl
  · split_ifs
    · rfl
    all_goals exact State.goesOn_received _

theorem Step.other (hstep : Step config s e s') (hne : x.jobId ≠ e.jobId) :
    s'.timesCounted x = s.timesCounted x ∧ (x ∈ s'.received ↔ x ∈ s.received) := by
  cases hstep with
  | @receives y =>
    refine ⟨rfl, ?_⟩
    change x ∈ s.received ++ [y] ↔ _
    rw [List.mem_append, List.mem_singleton, or_iff_left]
    rintro rfl
    exact hne rfl
  | fires hpos =>
    unfold State.timesCounted
    rw [aggregateAndPublish_auditLog, aggregateAndPublish_received]
    exact ⟨rfl, Iff.rfl⟩
  | @resumes jobId job phase answer overlap hjob hcall =>
    constructor
    · have hzero : ∀ message ∈ if answer.landed then (phase.message jobId).toList else [],
          message.counts x = 0 := by
        intro message hmessage
        split_ifs at hmessage
        · exact counts_message hne (Option.mem_toList.mp hmessage)
        · cases hmessage
      rw [timesCounted_append resumes_auditLog, List.sum_eq_zero, Nat.add_zero]
      intro n hn
      obtain ⟨message, hmessage, rfl⟩ := List.mem_map.mp hn
      exact hzero message hmessage
    · unfold State.resumes
      dsimp only
      rw [State.goesOn_received]

end AuditGuard.Aggregation
