import AuditGuard.Reporting.Model

/-!
# Reports: the handlers of a job

The handlers of `orchestrator.js` that a job comes to after its auction: `handleFindings`, `autoPublishReport`,
`handleReportPublished` and `settleAll`, for one job. As a job is an object that handlers hold by reference, the desk
keeps all objects of the job's key, and which of them is in the map.

A handler of a report is the `await` at which it is suspended (`Awaiting`), and `resume` is what it does with the
answer until the next one. Left out are the tokens and the documents that a report leads to, and the winner selection
that it asks for, which is a task of its own.
-/

namespace AuditGuard.Reporting

open Evm
open Orchestrator (AddressText AgentEntry)

/-- A job object, as far as reports go. -/
structure JobObject where
  findings : List Finding
  winners : List AddressText
  reportPublished : Bool
  settled : Bool

/-- A new job object. -/
def JobObject.blank : JobObject := ⟨[], [], false, false⟩

/-- A settlement that the handler `handler` came to with winners. -/
structure Attempt where
  handler : ℕ
  winners : List AddressText

/-- What the handlers share. -/
structure Desk where
  /-- The objects of the job, by their numbers. -/
  object : ℕ → JobObject
  /-- How many there are. -/
  created : ℕ
  /-- The one in the map of jobs. -/
  current : Option ℕ
  roster : List AgentEntry
  /-- The timers of first findings that have not run out. -/
  timers : ℕ
  /-- The tasks that are going to store a new object for the job, because they found none. -/
  lookups : ℕ
  /-- The settlements that were tried, oldest first. -/
  attempts : List Attempt

/-- What a report says: its critical findings, and who may be the report agent. -/
structure Report where
  agentId : String
  reportAgentAddress : Option AddressText
  criticalFindings : ℚ

/-- Where the handler of a report is suspended. -/
inductive Awaiting
  /-- The job on the chain, in `hydrateReportMetadataFromChain`. -/
  | hydrate
  | reportLog
  | alert
  /-- `isJobAlreadySettledOnChain`. -/
  | settledCheck
  | preview (payments : List Payment) (reportAgent : AddressText)
  | guardBalance (payments : List Payment) (reportAgent : AddressText) (totalDisbursed : ℕ)
  | operationalHbar (payments : List Payment) (reportAgent : AddressText) (totalDisbursed : ℕ)
  | guardAllowance (payments : List Payment) (reportAgent : AddressText) (totalDisbursed : ℕ)
  /-- The deposit, with its receipt. -/
  | deposit (payments : List Payment) (reportAgent : AddressText) (totalDisbursed : ℕ)
  /-- The settlement, without its receipt. -/
  | settleJob (payments : List Payment) (reportAgent : AddressText)
  | settledLog
  /-- The message about a finding, and the hook after it. -/
  | reputation (finding : ℕ)
  | jobCompleted
  | finished
deriving DecidableEq

/-- What is awaited. -/
@[reducible]
def Awaiting.Answer : Awaiting → Type
  | hydrate => List AddressText
  | settledCheck => Bool
  | preview _ _ => ℕ
  | guardBalance _ _ _ => ℕ
  | _ => Unit

/-- The handler of a report, with the job object that it holds, and whether it has published the report. -/
structure Handler where
  report : Report
  job : ℕ
  published : Bool
  pos : Awaiting

namespace Desk

/-- An assignment to the fields of an object. -/
def update (m : Desk) (v : ℕ) (f : JobObject → JobObject) : Desk :=
  { m with object := Function.update m.object v (f (m.object v)) }

/-- A new object, which is not in the map yet. -/
def create (m : Desk) : Desk :=
  { m with object := Function.update m.object m.created JobObject.blank, created := m.created + 1 }

/-- `setJobByKey`. -/
def setJobByKey (m : Desk) (v : ℕ) : Desk := { m with current := some v }

/-- `getJobByKey(key) ?? {…}`. -/
def getOrCreate (m : Desk) : Desk × ℕ :=
  match m.current with
  | some v => (m, v)
  | none => (m.create, m.created)

end Desk

/-! ## The messages -/

/-- `handleReportPublished`, up to its first `await`. -/
def handleReportPublished (report : Report) (m : Desk) : Desk × Handler :=
  let (m, v) := m.getOrCreate
  (m, ⟨report, v, false, .hydrate⟩)

/-- `autoPublishReport`: nothing if the report is published. -/
def autoPublishReport (v : ℕ) (m : Desk) : Desk × List Handler :=
  if (m.object v).reportPublished = true then (m, [])
  else
    let (m, h) := handleReportPublished ⟨"", none, (reportTotals (m.object v).findings).criticalFindings⟩ m
    (m, [h])

/-- `handleFindings`. -/
def handleFindings (cfg : Config) (msg : FindingsMsg) (m : Desk) : Desk × List Handler :=
  let (m, v) := m.getOrCreate
  let m := (m.update v fun job => { job with findings := job.findings ++ [msg.toFinding m.roster] }).setJobByKey v
  let job := m.object v
  let m := if job.findings.length = 1 ∧ job.reportPublished = false then { m with timers := m.timers + 1 } else m
  if cfg.autoPublishAfterFindings ≤ job.findings.length then autoPublishReport v m else (m, [])

/-- The timer of a first finding runs out. -/
def publishTimeout (m : Desk) : Desk × List Handler :=
  let m := { m with timers := m.timers - 1 }
  match m.current with
  | none => (m, [])
  | some v => autoPublishReport v m

/-! ## The settlement -/

/-- `resolveReportAgentAddress`. -/
def resolveReportAgentAddress (orchestratorAddress : Address) (roster : List AgentEntry) (report : Report) :
    AddressText :=
  ((report.reportAgentAddress.filter isAddress) <|> ((rosterAddress roster report.agentId).filter isAddress)).getD
    (.address orchestratorAddress)

/-- `settleAll` is over, and `updateReputation` begins. -/
def afterSettle (job : JobObject) : Awaiting := if job.findings = [] then .jobCompleted else .reputation 0

/-- `settleAll`, up to its first `await`. -/
def enterSettleAll (job : JobObject) : Awaiting :=
  if job.findings = [] ∨ job.settled = true then afterSettle job else .settledCheck

/-- The payments, if it comes to that. A score that is not whole is an error that nothing catches. -/
def startSettlement (cfg : Config) (roster : List AgentEntry) (reportAgent : AddressText) (job : JobObject) :
    Awaiting :=
  match buildManifest cfg roster job.winners job.findings with
  | .error _ => .finished
  | .ok none => afterSettle job
  | .ok (some payments) => if isAddress reportAgent = true then .preview payments reportAgent else afterSettle job

/-- The next finding that `updateReputation` goes over. -/
def nextFinding (job : JobObject) (finding : ℕ) : Awaiting :=
  if finding + 1 < job.findings.length then .reputation (finding + 1) else .jobCompleted

/-- What is awaited next, after the report was published. -/
def next (cfg : Config) (orchestratorAddress : Address) (roster : List AgentEntry) (report : Report)
    (job : JobObject) : (pos : Awaiting) → Except String pos.Answer → Awaiting
  | .reportLog, .ok () => .alert
  | .reportLog, .error _ => .finished
  | .alert, .ok () => enterSettleAll job
  | .alert, .error _ => if cfg.criticalThreshold ≤ report.criticalFindings then .finished else enterSettleAll job
  | .settledCheck, .ok true => afterSettle job
  | .settledCheck, _ => startSettlement cfg roster (resolveReportAgentAddress orchestratorAddress roster report) job
  | .preview payments reportAgent, .ok totalDisbursed =>
    if totalDisbursed = 0 then afterSettle job else .guardBalance payments reportAgent totalDisbursed
  | .preview _ _, .error _ => afterSettle job
  | .guardBalance payments reportAgent totalDisbursed, .ok guardBalance =>
    if guardBalance < totalDisbursed then afterSettle job else .operationalHbar payments reportAgent totalDisbursed
  | .guardBalance payments reportAgent totalDisbursed, .error _ =>
    .operationalHbar payments reportAgent totalDisbursed
  | .operationalHbar payments reportAgent totalDisbursed, .ok () =>
    .guardAllowance payments reportAgent totalDisbursed
  | .operationalHbar _ _ _, .error _ => afterSettle job
  | .guardAllowance payments reportAgent totalDisbursed, .ok () => .deposit payments reportAgent totalDisbursed
  | .guardAllowance _ _ _, .error _ => afterSettle job
  | .deposit payments reportAgent _, .ok () => .settleJob payments reportAgent
  | .deposit _ _ _, .error _ => afterSettle job
  | .settleJob _ _, .ok () => .settledLog
  | .settleJob _ _, .error _ => afterSettle job
  | .settledLog, _ => afterSettle job
  | .reputation finding, .ok () => nextFinding job finding
  | .reputation _, .error _ => .finished
  | _, _ => .finished

/-! ## The handler -/

/-- The winners that the chain has are taken over, if the job has none. -/
def hydrateReportMetadataFromChain (v : ℕ) (a : Except String (List AddressText)) (m : Desk) : Desk :=
  match a with
  | .error _ => m
  | .ok chainWinners =>
    if (m.object v).winners = [] ∧ chainWinners ≠ [] then
      (m.update v fun job => { job with winners := chainWinners }).setJobByKey v
    else m

/-- The part of `handleReportPublished` after the job was hydrated: nothing if the report is published. -/
def publish (h : Handler) (m : Desk) : Desk × Handler :=
  if (m.object h.job).reportPublished = true then (m, { h with pos := .finished })
  else ((m.update h.job fun job => { job with reportPublished := true }).setJobByKey h.job,
    { h with published := true, pos := .reportLog })

/-- The job is marked settled. -/
def Desk.markSettled (m : Desk) (v : ℕ) : Desk :=
  (m.update v fun job => { job with settled := true }).setJobByKey v

/-- What the handler with the number `d` does with an answer to what it awaits at `pos`. -/
def react (cfg : Config) (orchestratorAddress : Address) (d : ℕ) (h : Handler) (m : Desk) :
    (pos : Awaiting) → Except String pos.Answer → Desk × Handler
  | .hydrate, a => publish h (hydrateReportMetadataFromChain h.job a m)
  | .settledCheck, .ok true => (m.markSettled h.job, { h with pos := afterSettle (m.object h.job) })
  | .settledCheck, a =>
    let pos := next cfg orchestratorAddress m.roster h.report (m.object h.job) .settledCheck a
    if (m.object h.job).winners = [] then (m, { h with pos := pos })
    else ({ m with attempts := m.attempts ++ [⟨d, (m.object h.job).winners⟩] }, { h with pos := pos })
  | .settleJob _ _, .ok () => (m.markSettled h.job, { h with pos := .settledLog })
  | pos, a => (m, { h with pos := next cfg orchestratorAddress m.roster h.report (m.object h.job) pos a })

/-- What the handler with the number `d` does with an answer. -/
def resume (cfg : Config) (orchestratorAddress : Address) (d : ℕ) (h : Handler) (a : Except String h.pos.Answer)
    (m : Desk) : Desk × Handler := react cfg orchestratorAddress d h m h.pos a

end AuditGuard.Reporting
