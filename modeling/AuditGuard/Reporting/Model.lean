import AuditGuard.Orchestrator.Model
import AuditGuard.PaymentSettlement.System

/-!
# Reports: findings, payments and deltas

What `orchestrator.js` makes of the findings of a job: the record that `handleFindings` pushes, the totals that
`autoPublishReport` publishes, the payments that `settleAll` builds, and the deltas of `updateReputation`. Counts are
numbers, which `BigInt` refuses if they are not whole; amounts are in the smallest unit of GUARD. The metadata of the
contract that a message carries is left out, for nothing here reads it.
-/

namespace AuditGuard.Reporting

open Evm
open Orchestrator (AddressText AgentEntry normalizeAddress)

/-- The settings: the amounts after `parseUnits`, and when a report is published. -/
structure Config where
  totalGuard : ℕ
  bonusPerCritical : ℕ
  autoPublishAfterFindings : ℕ
  /-- From how many critical findings on an alert is published. -/
  criticalThreshold : ℚ

/-- A FINDINGS_SUBMITTED message. -/
structure FindingsMsg where
  agentId : String
  findingsHash : String
  evmAddress : Option AddressText
  findingsCount : Option ℚ
  criticalCount : Option ℚ
  isMock : Bool
deriving DecidableEq

/-- An entry of `job.findings`. -/
structure Finding where
  agentId : String
  evmAddress : Option AddressText
  findingsHash : String
  findingsCount : ℚ
  criticalCount : ℚ
deriving DecidableEq

/-- `roster.get`, of which only the address is read. -/
def rosterAddress (roster : List AgentEntry) (agentId : String) : Option AddressText :=
  (roster.find? fun entry => entry.agentId = agentId).map AgentEntry.evmAddress

/-- The text is an address. -/
def isAddress (a : AddressText) : Bool := (normalizeAddress a).isSome

/-- An address in lower case. -/
def toLowerCase : AddressText → AddressText
  | .address a => .address a
  | .text s => .text s.toLower

/-- What `handleFindings` makes of a message: the critical findings of a mock do not count, and the address is that of
the message if it is one, or else that of the roster. -/
def FindingsMsg.toFinding (roster : List AgentEntry) (msg : FindingsMsg) : Finding where
  agentId := msg.agentId
  evmAddress := (msg.evmAddress.filter isAddress) <|> rosterAddress roster msg.agentId
  findingsHash := msg.findingsHash
  findingsCount := msg.findingsCount.getD 0
  criticalCount := if msg.isMock = true then 0 else msg.criticalCount.getD 0

/-! ## The report -/

/-- The totals of `autoPublishReport`. -/
structure Totals where
  totalFindings : ℚ
  criticalFindings : ℚ
deriving DecidableEq

/-- What `autoPublishReport` adds up. -/
def reportTotals (findings : List Finding) : Totals where
  totalFindings := (findings.map Finding.findingsCount).sum
  criticalFindings := (findings.map Finding.criticalCount).sum

/-! ## The payments -/

/-- What a winner's findings have added up to. -/
structure Contribution where
  recipient : AddressText
  agentId : String
  score : ℚ
  critical : ℚ
deriving DecidableEq

/-- The address that a finding counts for. -/
def Finding.recipient (roster : List AgentEntry) (finding : Finding) : Option AddressText :=
  (finding.evmAddress.filter isAddress) <|> rosterAddress roster finding.agentId

/-- The score of a finding, which is also the delta of its agent's reputation. -/
def Finding.score (finding : Finding) : ℚ := finding.findingsCount + 2 * finding.criticalCount

/-- The address is that of a winner. -/
def isWinner (winners : List AddressText) (address : AddressText) : Bool :=
  address.truthy && decide (toLowerCase address ∈ winners.map toLowerCase)

/-- The body of the first loop of `settleAll`. -/
def addContribution (roster : List AgentEntry) (winners : List AddressText) (scores : List Contribution)
    (finding : Finding) : List Contribution :=
  match finding.recipient roster with
  | none => scores
  | some address =>
    if isWinner winners address = false then scores
    else if scores.any (fun c => toLowerCase c.recipient = toLowerCase address) = true then
      scores.map fun c => if toLowerCase c.recipient = toLowerCase address then
        { c with score := c.score + finding.score, critical := c.critical + finding.criticalCount } else c
    else scores ++ [⟨address, finding.agentId, finding.score, finding.criticalCount⟩]

/-- `contributorScores`, in the order of the map. -/
def contributorScores (roster : List AgentEntry) (winners : List AddressText) (findings : List Finding) :
    List Contribution := findings.foldl (addContribution roster winners) []

/-- Those that are paid. -/
def settlementScores (roster : List AgentEntry) (winners : List AddressText) (findings : List Finding) :
    List Contribution := (contributorScores roster winners findings).filter fun c => 0 < c.score

/-- `BigInt` of a number, which throws unless the number is whole. -/
def toBigInt (x : ℚ) : Option ℤ := if x.den = 1 then some x.num else none

theorem toBigInt_natCast (n : ℕ) : toBigInt (n : ℚ) = some (n : ℚ).num := if_pos (Rat.den_natCast n)

/-- A line of the manifest, of which the fee is 0 and the type that of a main audit. -/
structure Payment where
  recipient : AddressText
  basePayment : ℤ
  bonus : ℤ
  agentId : String
deriving DecidableEq

/-- The payment of a winner out of the pool, which `BigInt` division splits in proportion to the scores. -/
def toPayment (cfg : Config) (totalScore : ℤ) (c : Contribution) : Option Payment := do
  let score ← toBigInt c.score
  let critical ← toBigInt c.critical
  pure {
    recipient := c.recipient
    basePayment := (cfg.totalGuard * score).tdiv totalScore
    bonus := cfg.bonusPerCritical * critical
    agentId := c.agentId }

/-- The payments, unless a score is not whole. -/
def buildPayments (cfg : Config) (scores : List Contribution) : Option (List Payment) := do
  let totalScore ← toBigInt (scores.map Contribution.score).sum
  scores.mapM (toPayment cfg totalScore)

/-- The manifest of `settleAll`, if it comes to that: there are findings, winners, and findings of winners with a
score. -/
def buildManifest (cfg : Config) (roster : List AgentEntry) (winners : List AddressText) (findings : List Finding) :
    Except String (Option (List Payment)) :=
  let scores := settlementScores roster winners findings
  if findings = [] ∨ winners = [] ∨ scores = [] then .ok none
  else match buildPayments cfg scores with
    | none => .error "RangeError"
    | some payments => .ok (some payments)

/-! ## The reputation -/

/-- A REPUTATION_UPDATED message, without the job. -/
structure ReputationUpdate where
  agentId : String
  delta : ℚ
deriving DecidableEq

/-- What `updateReputation` publishes for a finding. -/
def Finding.reputationUpdate (finding : Finding) : ReputationUpdate := ⟨finding.agentId, finding.score⟩

/-! ## Samples -/

/-- A budget of 30 GUARD, of which two are for each critical finding. -/
def sampleConfig : Config where
  totalGuard := 30 * 10^8
  bonusPerCritical := 2 * 10^8
  autoPublishAfterFindings := 3
  criticalThreshold := 1

/-- A message about three findings. -/
def sampleMsg (agentId : String) (evmAddress : Address) : FindingsMsg :=
  ⟨agentId, "0xaaa111", some (.address evmAddress), some 3, none, false⟩

end AuditGuard.Reporting
