import Mathlib.Data.Rat.Floor
import AuditGuard.Library.Transition

/-!
# The aggregation of submissions

What the report agent does with the `FINDINGS_SUBMITTED` messages of a job: `handleAgentCommsMessage` notes them in
the job's record, and arms a timer with the first of them; the timer calls `aggregateAndPublish`, which adds them up,
publishes a report of them and deletes the record. The call waits for what it asks of the chain, of HCS and of the
store, and messages and timers come in between; each of its waits ends in a step of its own.

A message that HCS publishes may land although the call throws, since `publish` waits for a receipt. What the report
says of the findings themselves, the agents' scores and the payments made of them are left out, besides whether the
list of the payments can be made: nothing that is modelled reads them. What goes wrong with the store, the file or the
database is only logged.
-/

namespace AuditGuard.Aggregation

/-! ## Submissions -/

/-- The id of a job. Nothing checks that a message has it as a text. -/
inductive JobId
  | text (id : String)
  | number (id : ℕ)
deriving DecidableEq

/-- A `FINDINGS_SUBMITTED` message. What is missing, or empty, is `none`. -/
structure Submission where
  jobId : JobId
  agentId : String
  timestamp : ℕ
  /-- Zero where it is missing. -/
  findingsCount : ℕ
  hasFindingsCount : Bool
  criticalCount : ℕ
  highCount : Option ℕ
  mediumCount : Option ℕ
  lowCount : Option ℕ
  evmAddress : Option String
  contractAddress : Option String
  deployerAddress : Option String
deriving DecidableEq

/-- What `jobFindings` has of a job. -/
structure JobFindings where
  submissions : List Submission
  /-- A timer was armed for the record. -/
  timer : Bool
  aggregating : Bool
  /-- A `Map` from agents to EVM addresses. -/
  agentAddresses : String → Option String
  contractAddress : Option String
  deployerAddress : Option String

/-- The record of a job without submissions. -/
def JobFindings.empty : JobFindings := ⟨[], false, false, fun _ => none, none, none⟩

/-- The record with one more submission; a timer is armed if none was. -/
def JobFindings.push (job : JobFindings) (submission : Submission) : JobFindings :=
  { job with
    submissions := job.submissions ++ [submission]
    timer := true
    agentAddresses := match submission.evmAddress with
      | some evmAddress => Function.update job.agentAddresses submission.agentId (some evmAddress)
      | none => job.agentAddresses
    contractAddress := job.contractAddress.or submission.contractAddress
    deployerAddress := job.deployerAddress.or submission.deployerAddress }

/-- `parseUnits(findingsCount.toString(), 8)` does not throw: from `10^21` on, a number is written with an exponent. -/
def Submission.billable (submission : Submission) : Bool :=
  submission.hasFindingsCount && decide (submission.findingsCount < 10^21)

/-! ## Totals -/

/-- What the submissions add up to. -/
structure Totals where
  /-- The submissions that are added up; the code does not keep them. -/
  counted : List Submission
  totalFindings : ℕ
  uniqueFindings : ℕ
  totalCritical : ℕ
  totalHigh : ℕ
  totalMedium : ℕ
  totalLow : ℕ
  duplicateCount : ℕ
deriving DecidableEq

/-- `Math.round`, of a number that is not negative. -/
def round (x : ℚ) : ℕ := ⌊x + 1 / 2⌋.toNat

/-- The mocked overlaps between every two submissions; `overlap i j` is drawn for the submissions `i` and `j`. -/
def duplicateCount (overlap : ℕ → ℕ → ℚ) (submissions : List Submission) : ℕ :=
  (submissions.zipIdx.map fun first => ((submissions.zipIdx.drop (first.2 + 1)).map fun second =>
    round (min first.1.findingsCount second.1.findingsCount * overlap first.2 second.2)).sum).sum

/-- The findings of the submissions, each as often as it was found. -/
def totalFindings (submissions : List Submission) : ℕ := (submissions.map Submission.findingsCount).sum

/-- Adds the submissions up. -/
def aggregate (overlap : ℕ → ℕ → ℚ) (submissions : List Submission) : Totals where
  counted := submissions
  totalFindings := totalFindings submissions
  uniqueFindings := max 1 (totalFindings submissions - duplicateCount overlap submissions)
  totalCritical := (submissions.map Submission.criticalCount).sum
  totalHigh := (submissions.map fun submission => submission.highCount.getD 0).sum
  totalMedium := (submissions.map fun submission => submission.mediumCount.getD 0).sum
  totalLow := (submissions.map fun submission => submission.lowCount.getD 0).sum
  duplicateCount := duplicateCount overlap submissions

/-- The keys of `agentScores`, in the order of a `Map`. -/
def scoredAgents (submissions : List Submission) : List String :=
  submissions.foldl (fun agents submission =>
    if submission.agentId ∈ agents then agents else agents ++ [submission.agentId]) []

/-- What a call does with the submissions throws: `jobId.slice`, or the payment of an agent, for its last submission. -/
def JobFindings.throws (jobId : JobId) (job : JobFindings) : Bool :=
  match jobId with
  | .number _ => true
  | .text _ => (scoredAgents job.submissions).any fun agentId =>
      (job.submissions.findRev? fun submission => submission.agentId = agentId).any fun submission =>
        !submission.billable

/-! ## Calls -/

/-- The settings. -/
structure Config where
  /-- `DEMO_MODE`. -/
  demoMode : Bool
  /-- `STRICT_LIVE`. -/
  strictLive : Bool
  /-- `DIRECT_SETTLEMENT`. -/
  directSettlement : Bool

/-- The messages that the agent publishes to the audit log. -/
inductive Message
  | settlementFailed (jobId : JobId)
  | reputationUpdated (jobId : JobId) (targetAgentId targetAddress : String)
  | reportPublished (jobId : JobId) (totals : Totals) (agentCount : ℕ)
  | reportMetadata (jobId : JobId) (deployer : Option String) (agentCount findingCount : ℕ)
deriving DecidableEq

/-- What a call of `aggregateAndPublish` waits for. -/
inductive Phase
  /-- `ensureOperationalHbar`. -/
  | preflight
  /-- `settleJob`. -/
  | settling (totals : Totals)
  /-- The message that the settlement has failed. -/
  | settlementFailed
  /-- The `REPUTATION_UPDATED` of an agent; `rest` come after it. -/
  | updatingReputation (totals : Totals) (targetAgentId targetAddress : String) (rest : List String)
  /-- `REPORT_PUBLISHED`. -/
  | publishingReport (totals : Totals) (agentCount : ℕ)
  /-- The GET and the DELETE of the findings store. -/
  | takingFindings (totals : Totals)
  /-- The file. -/
  | writingReport (totals : Totals) (agentCount : ℕ)
  /-- The database. -/
  | savingReport (totals : Totals) (deployer : Option String) (agentCount : ℕ)
  /-- `REPORT_METADATA`. -/
  | publishingMetadata (totals : Totals) (deployer : Option String) (agentCount : ℕ)
deriving DecidableEq

/-- The totals that a call has. -/
def Phase.totals : Phase → Option Totals
  | .preflight | .settlementFailed => none
  | .settling totals | .updatingReputation totals .. | .publishingReport totals _ | .takingFindings totals
  | .writingReport totals _ | .savingReport totals .. | .publishingMetadata totals .. => some totals

/-- How a wait ends. -/
inductive Answer
  | returns
  /-- What was sent may have `landed`. -/
  | throws (landed : Bool)
deriving DecidableEq

/-- What was sent has landed. -/
def Answer.landed : Answer → Bool
  | .returns => true
  | .throws landed => landed

/-- How a call goes on. -/
inductive Next
  | awaits (phase : Phase)
  /-- To its end, where it deletes the record. -/
  | deletes
  /-- It returns early, or throws. -/
  | stops

/-- The next `REPUTATION_UPDATED`, and after the last of them the report. -/
def updateReputations (job : JobFindings) (totals : Totals) : List String → Phase
  | [] => .publishingReport totals job.submissions.length
  | agentId :: rest =>
    .updatingReputation totals agentId ((job.agentAddresses agentId).getD "unknown") rest

theorem totals_updateReputations {job : JobFindings} {totals : Totals} {agents : List String} :
    (updateReputations job totals agents).totals = some totals := by
  cases agents <;> rfl

/-- The call adds the submissions up, and begins to pay and publish. -/
def takeTotals (config : Config) (overlap : ℕ → ℕ → ℚ) (job : JobFindings) : Phase :=
  if config.directSettlement then .settling (aggregate overlap job.submissions)
  else updateReputations job (aggregate overlap job.submissions) (scoredAgents job.submissions)

/-- The call takes the totals, or throws before that; nothing resets `aggregating` then. -/
def startTotals (config : Config) (overlap : ℕ → ℕ → ℚ) (jobId : JobId) (job : JobFindings) : Next :=
  if job.throws jobId then .stops else .awaits (takeTotals config overlap job)

/-- What a call has published when its wait ends. -/
def Phase.message (jobId : JobId) : Phase → Option Message
  | .settlementFailed => some (.settlementFailed jobId)
  | .updatingReputation _ targetAgentId targetAddress _ =>
    some (.reputationUpdated jobId targetAgentId targetAddress)
  | .publishingReport totals agentCount => some (.reportPublished jobId totals agentCount)
  | .publishingMetadata totals deployer agentCount =>
    some (.reportMetadata jobId deployer agentCount totals.totalFindings)
  | _ => none

/-- How a call goes on when its wait ends. -/
def resume (config : Config) (overlap : ℕ → ℕ → ℚ) (jobId : JobId) (job : JobFindings) : Phase → Answer → Next
  | .preflight, _ => startTotals config overlap jobId job
  | .settling totals, answer =>
    if answer ≠ .returns ∧ config.strictLive = true ∧ config.demoMode = false then .awaits .settlementFailed
    else .awaits (updateReputations job totals (scoredAgents totals.counted))
  | .settlementFailed, _ => .stops
  | .updatingReputation totals _ _ rest, .returns => .awaits (updateReputations job totals rest)
  | .updatingReputation .., .throws _ => .stops
  | .publishingReport totals _, .returns => .awaits (.takingFindings totals)
  | .publishingReport .., .throws _ => .stops
  | .takingFindings totals, _ => .awaits (.writingReport totals job.submissions.length)
  | .writingReport totals agentCount, _ => .awaits (.savingReport totals job.deployerAddress agentCount)
  | .savingReport totals deployer agentCount, _ => .awaits (.publishingMetadata totals deployer agentCount)
  | .publishingMetadata .., .returns => .deletes
  | .publishingMetadata .., .throws _ => .stops

/-! ## The agent -/

/-- The report agent. -/
structure State where
  jobFindings : JobId → Option JobFindings
  /-- How many timers are armed for a job. -/
  timers : JobId → ℕ
  /-- The call of `aggregateAndPublish` for a job, unless it has ended. -/
  calls : JobId → Option Phase
  auditLog : List Message
  /-- The submissions that have been received; the code does not keep them. -/
  received : List Submission

/-- What can happen. -/
inductive Event
  /-- A message is delivered. -/
  | receives (submission : Submission)
  /-- A timer ends. -/
  | fires (jobId : JobId) (overlap : ℕ → ℕ → ℚ)
  /-- What a call waits for ends. -/
  | resumes (jobId : JobId) (answer : Answer) (overlap : ℕ → ℕ → ℚ)

/-- The job of an event. -/
def Event.jobId : Event → JobId
  | .receives submission => submission.jobId
  | .fires jobId _ => jobId
  | .resumes jobId _ _ => jobId

/-- `handleAgentCommsMessage`, of a submission. -/
def handleAgentCommsMessage (submission : Submission) (s : State) : State :=
  let job := (s.jobFindings submission.jobId).getD .empty
  { s with
    jobFindings := Function.update s.jobFindings submission.jobId (some (job.push submission))
    timers := if job.timer then s.timers
      else Function.update s.timers submission.jobId (s.timers submission.jobId + 1)
    received := s.received ++ [submission] }

/-- The call of a job goes on. -/
def State.goesOn (s : State) (jobId : JobId) : Next → State
  | .awaits phase => { s with calls := Function.update s.calls jobId (some phase) }
  | .deletes => { s with
      jobFindings := Function.update s.jobFindings jobId none
      calls := Function.update s.calls jobId none }
  | .stops => { s with calls := Function.update s.calls jobId none }

/-- `aggregateAndPublish`, up to its first wait. -/
def aggregateAndPublish (config : Config) (overlap : ℕ → ℕ → ℚ) (jobId : JobId) (s : State) : State :=
  match s.jobFindings jobId with
  | none => s
  | some job =>
    if job.submissions = [] ∨ job.aggregating = true then s
    else State.goesOn
      { s with jobFindings := Function.update s.jobFindings jobId (some { job with aggregating := true }) } jobId
      (if config.demoMode then startTotals config overlap jobId job else .awaits .preflight)

/-- A wait of a call ends: what it has sent is on the audit log if it has landed. -/
def State.resumes (config : Config) (overlap : ℕ → ℕ → ℚ) (jobId : JobId) (job : JobFindings)
    (phase : Phase) (answer : Answer) (s : State) : State :=
  { s.goesOn jobId (resume config overlap jobId job phase answer) with
    auditLog := s.auditLog ++ if answer.landed then (phase.message jobId).toList else [] }

/-- One step. -/
inductive Step (config : Config) (s : State) : Event → State → Prop
  | receives {submission : Submission} :
      Step config s (.receives submission) (handleAgentCommsMessage submission s)
  | fires {jobId : JobId} {overlap : ℕ → ℕ → ℚ} (h : 0 < s.timers jobId) :
      Step config s (.fires jobId overlap) (aggregateAndPublish config overlap jobId
        { s with timers := Function.update s.timers jobId (s.timers jobId - 1) })
  | resumes {jobId : JobId} {job : JobFindings} {phase : Phase} {answer : Answer} {overlap : ℕ → ℕ → ℚ}
      (hjob : s.jobFindings jobId = some job) (hcall : s.calls jobId = some phase) :
      Step config s (.resumes jobId answer overlap) (s.resumes config overlap jobId job phase answer)

/-- The agent has just started. -/
def State.initial : State := ⟨fun _ => none, fun _ => 0, fun _ => none, [], []⟩

/-- The report agent. -/
def system (config : Config) : TransitionSystem State Event where
  init s := s = .initial
  step := Step config

end AuditGuard.Aggregation
