import AuditGuard.Reporting.Model

/-!
# What the agents submit

The end of an audit in `agents/static-analysis/index.ts`, `agents/fuzzer/index.ts` and
`agents/llm-contextual/index.ts`: the findings, which are those of a tool or those of a generator that stands in for
it, and the FINDINGS_SUBMITTED message that `simulateAuditCycle` makes of them. What a generator draws at random is
given. In strict live mode the LLM agent submits nothing that its generator made.
-/

namespace AuditGuard.Reporting

open Evm
open Orchestrator (AddressText AgentEntry)

/-- `Severity`. -/
inductive Severity
  | critical
  | high
  | medium
  | low
  | info
deriving DecidableEq

/-- `Finding` of the agents. -/
structure AgentFinding where
  id : String
  severity : Severity
  title : String
  description : String
  confidence : ℚ
  agentId : String
  timestamp : ℕ
  /-- Whether a generator made the finding; a tool leaves it out. -/
  isMock : Option Bool
deriving DecidableEq

/-- An agent, with what its generator reads of the audit. -/
inductive Agent
  | staticAnalysis (contractType : String) (loc : ℕ)
  | fuzzer (hasExternalData : Bool)
  | llmContextual (hasDepAnalysis : Bool)
deriving DecidableEq

/-- `AGENT_ID`. -/
def Agent.agentId : Agent → String
  | .staticAnalysis _ _ => "static-analysis-047"
  | .fuzzer _ => "fuzzer-012"
  | .llmContextual _ => "llm-contextual-003"

/-! ## The generators -/

/-- What a generator draws for a finding. -/
structure Draw where
  severity : Severity
  title : String
  confidence : ℚ
  timestamp : ℕ
deriving DecidableEq

/-- `String(n).padStart(3, "0")`. -/
def padStart (n : ℕ) : String :=
  String.ofList (List.replicate (3 - (toString n).length) '0') ++ toString n

/-- What the generators have in common. -/
def generated (idPrefix agentId description : String) (isMock : Option Bool) (i : ℕ) (draw : Draw) : AgentFinding where
  id := idPrefix ++ padStart (i + 1)
  severity := draw.severity
  title := draw.title
  description
  confidence := draw.confidence
  agentId
  timestamp := draw.timestamp
  isMock

/-- A finding of an agent's generator: only the fuzzer's says that it is a mock. The LLM agent's raises its first
finding to high where none is high or critical, which is as if it had drawn so. -/
def generateFinding : Agent → ℕ → Draw → AgentFinding
  | .staticAnalysis contractType loc => generated "SA-" "static-analysis-047"
      ("Static analysis finding in " ++ contractType ++ " contract (" ++ toString loc ++ " LOC)") none
  | .fuzzer hasExternalData => generated "FZ-" "fuzzer-012"
      ("Fuzz testing finding (simulated — no fuzz tool available)" ++
        if hasExternalData = true then " [used external data]" else "") (some true)
  | .llmContextual hasDepAnalysis => generated "LLM-" "llm-contextual-003"
      ("Deep semantic analysis finding" ++
        if hasDepAnalysis = true then " (informed by dependency analysis)" else "") none

/-- An entry of an agent's list of findings, with where it came from. -/
inductive Entry
  | tool (finding : AgentFinding)
  | generated (i : ℕ) (draw : Draw)
deriving DecidableEq

/-- The finding of an entry. -/
def Entry.finding (agent : Agent) : Entry → AgentFinding
  | .tool finding => finding
  | .generated i draw => generateFinding agent i draw

/-- The finding of a tool. -/
def Entry.tool? : Entry → Option AgentFinding
  | .tool finding => some finding
  | .generated _ _ => none

/-- What the generator has drawn. -/
def Entry.draw? : Entry → Option Draw
  | .tool _ => none
  | .generated _ draw => some draw

/-- `runStaticAnalysisOrFallback` and `runFuzzOrFallback`, and `analyzeWithAI` but for a model that finds nothing: the
findings of the service, or else those of the generator. -/
def runOrFallback (service : Option (List AgentFinding)) (draws : List Draw) : List Entry :=
  match service with
  | some (finding :: findings) => (finding :: findings).map .tool
  | _ => draws.mapIdx Entry.generated

/-! ## The message -/

/-- How many findings are critical. -/
def criticals (findings : List AgentFinding) : ℕ := findings.countP fun f => f.severity = .critical

/-- What the messages have in common. -/
def submission (agentId : String) (isMock : Bool) (hashOf : List AgentFinding → String) (evmAddress : Address)
    (findings : List AgentFinding) : FindingsMsg where
  agentId
  findingsHash := hashOf findings
  evmAddress := some (.address evmAddress)
  findingsCount := some findings.length
  criticalCount := some (if isMock = true then 0 else (criticals findings : ℚ))
  isMock

/-- The fuzzer's `isMock`. -/
def isMock (findings : List AgentFinding) : Bool := !findings.isEmpty && findings.all fun f => f.isMock = some true

/-- The message of the static analysis agent, which has no `isMock`. -/
def staticAnalysisSubmission := submission "static-analysis-047" false

/-- The message of the fuzzer. -/
def fuzzerSubmission (hashOf : List AgentFinding → String) (evmAddress : Address) (findings : List AgentFinding) :
    FindingsMsg := submission "fuzzer-012" (isMock findings) hashOf evmAddress findings

/-- The message of the LLM agent, which has no `isMock` either: its `usedFallback` is not read. -/
def llmContextualSubmission := submission "llm-contextual-003" false

/-- The message of an agent. -/
def Agent.submission : Agent → (List AgentFinding → String) → Address → List AgentFinding → FindingsMsg
  | .staticAnalysis _ _ => staticAnalysisSubmission
  | .fuzzer _ => fuzzerSubmission
  | .llmContextual _ => llmContextualSubmission

/-- An audit that ends with a message. -/
structure Audit where
  agent : Agent
  evmAddress : Address
  entries : List Entry
deriving DecidableEq

namespace Audit

variable (a : Audit)

/-- Its list of findings. -/
def findings : List AgentFinding := a.entries.map (Entry.finding a.agent)

/-- The findings of its tool. -/
def tools : List AgentFinding := a.entries.filterMap Entry.tool?

/-- What its generator has drawn. -/
def draws : List Draw := a.entries.filterMap Entry.draw?

/-- Its message, as the orchestrator keeps it. -/
def toFinding (hashOf : List AgentFinding → String) (roster : List AgentEntry) (a : Audit) : Finding :=
  (a.agent.submission hashOf a.evmAddress a.findings).toFinding roster

end Audit

end AuditGuard.Reporting
