import AuditGuard.AuditAuction.Model
import AuditGuard.Library.Routine

/-!
# The orchestrator: memory and requests

What the class of `orchestrator.js` keeps of jobs, and what its methods ask for. The methods are cooperative tasks
that give the processor away at every `await`.

A job is an object that tasks hold by reference, so that the memory keeps the objects of each key, and the map of
jobs has the number of the current one; the array of a job's bidders is kept the same way. Job ids are numbers.
Timers, log lines and metrics are left out, and so are the payloads of messages that nothing here reads.
-/

namespace AuditGuard.Orchestrator

open Evm
open AuditAuction (AuditJob AgentBid JobStatus)

/-- A value where an address is expected, which may be any text. -/
inductive AddressText
  | address (a : Address)
  | text (s : String)
deriving DecidableEq

/-- `normalizeAddress`. -/
def normalizeAddress : AddressText → Option Address
  | .address a => some a
  | .text _ => none

/-- The value counts as true. -/
def AddressText.truthy : AddressText → Bool
  | .address _ => true
  | .text s => s ≠ ""

/-- A bid in a job's list of bidders. Amounts are in GUARD. -/
structure LocalBid where
  agentId : String
  evmAddress : AddressText
  bidAmount : ℚ
  collateral : ℚ
  estimatedTimeSec : ℚ
  reputation : ℚ
  timestamp : ℕ
  onChainBidIndex : Option ℕ

/-- Why a job is marked cancelled: the reason given, and whether its cancellation was refused because the job was
terminal already. -/
structure CancelledReason where
  code : String
  alreadyTerminal : Bool

/-- Why a job is marked terminal. -/
inductive TerminalReason
  | cancelled
  | cancelAlreadyTerminal
  | reconcileSkipTerminal

/-- A job object. -/
structure Job where
  contractAddress : Option Address
  /-- The array of the bidders, by its number. -/
  bidders : ℕ
  winners : List AddressText
  reportPublished : Bool
  cancelledOnChain : Bool
  cancelledReason : Option CancelledReason
  terminalOnChain : Bool
  terminalReason : Option TerminalReason
  rehydratedForSelection : Bool
  hcsBidCount : ℕ
  auctionDeadlineSec : Option ℕ
  failureReason : Option String

/-- A job object of which only the address of the contract is known, with the bidders in the array `bidders`. -/
def Job.blank (contractAddress : Option Address) (bidders : ℕ) : Job where
  contractAddress := contractAddress
  bidders := bidders
  winners := []
  reportPublished := false
  cancelledOnChain := false
  cancelledReason := none
  terminalOnChain := false
  terminalReason := none
  rehydratedForSelection := false
  hcsBidCount := 0
  auctionDeadlineSec := none
  failureReason := none

/-- What the roster has of an agent. -/
structure AgentEntry where
  agentId : String
  evmAddress : AddressText
  stake : ℚ
  reputation : ℚ
  endpoint : Bool

/-- What the tasks share. -/
structure Memory where
  /-- The map of jobs: for each key, the number of its object. -/
  jobs : List (ℕ × ℕ)
  object : ℕ → ℕ → Job
  bidders : ℕ → ℕ → List LocalBid
  /-- For each key, how many objects and arrays there are. -/
  created : ℕ → ℕ
  inflightCloseJobs : ℕ → Bool
  inflightSelectWinnerJobs : ℕ → Bool
  reconcileCloseCooldown : ℕ → ℕ
  staleAuctionReconcileCursor : ℕ
  isReconcileRunning : Bool
  roster : List AgentEntry

/-- An orchestrator that has just started. -/
def Memory.empty : Memory where
  jobs := []
  object _ _ := Job.blank none 0
  bidders _ _ := []
  created _ := 0
  inflightCloseJobs _ := false
  inflightSelectWinnerJobs _ := false
  reconcileCloseCooldown _ := 0
  staleAuctionReconcileCursor := 0
  isReconcileRunning := false
  roster := []

/-- The settings, and the order of the bids by their scores, which are floating-point numbers: whatever they are,
the order has every bid with its place once. -/
structure Config where
  auctionCloseSingleflightEnabled : Bool
  rehydrateMissingJobForSelection : Bool
  winnerSelectionStartupBackfillMaxJobs : ℕ
  staleAuctionReconcileMaxPerCycle : ℕ
  staleAuctionReconcileMaxSelectsPerCycle : ℕ
  staleAuctionReconcileMaxInspectPerCycle : ℕ
  staleAuctionReconcileFailureCooldownMs : ℕ
  minStake : ℚ
  rank : List LocalBid → List (LocalBid × ℕ)
  rank_perm : ∀ bids, (rank bids).Perm bids.zipIdx

/-- A message to the audit log. -/
inductive AuditMessage
  | winnerSelected (jobId : ℕ) (winners : List Address)
  | other (type : String) (jobId : ℕ) (reasonCode : String)
deriving DecidableEq

/-- What a task asks for and waits for: a read of the auction contract, a transaction to it, a look at the HBAR of
the orchestrator, a message to the audit log or to an agent, a pause, and the end of what another task does. Next to
a selection of winners is kept what the job object has as its winners when it is sent. -/
inductive Request
  | getJob (jobId : ℕ)
  | getBidCount (jobId : ℕ)
  | getBidsForJob (jobId : ℕ)
  | getActiveJobs
  | cancelJob (jobId : ℕ)
  | selectWinners (jobId : ℕ) (recorded : List AddressText) (winningBidIndices : List ℕ)
  | ensureOrchestratorOperationalHbar
  | publishAuditLog (message : AuditMessage)
  | taskAssigned (jobId : ℕ) (winner : AddressText)
  | sleep (ms : ℕ)
  | existingClose (jobId : ℕ)
  | existingSelect (jobId : ℕ)
  | settleAll (jobId : ℕ)
deriving DecidableEq

/-- What a request is answered with. -/
@[reducible]
def Response : Request → Type
  | .getJob _ => AuditJob
  | .getBidCount _ => ℕ
  | .getBidsForJob _ => List AgentBid
  | .getActiveJobs => List ℕ
  | .existingClose _ => Bool
  | .settleAll _ => Bool
  | _ => Unit

/-- What `evaluateWinnerSelectionReadiness` is told by its caller. -/
structure ReadinessHint where
  chainStatus : Option JobStatus
  deadlineSec : Option ℕ
  onChainBidCount : Option ℕ

/-- A caller that tells nothing. -/
def ReadinessHint.none : ReadinessHint := ⟨.none, .none, .none⟩

/-- What `evaluateWinnerSelectionReadiness` decides on. -/
structure ReadinessInputs where
  jobId : ℕ
  isLocal : Bool
  /-- The job on the chain, unless the read failed. -/
  chainJob : Option AuditJob
  hint : ReadinessHint
  localDeadlineSec : Option ℕ
  nowSec : ℕ
  /-- The number of bids on the chain, unless the read failed. -/
  onChainBidCount : Option ℕ

/-- What the tasks tell: what a readiness check decides on, the bids that are scored, and, when a selection is sent,
the winners that the job object has and those that were selected. -/
inductive Note
  | readiness (inputs : ReadinessInputs)
  | scoring (jobId : ℕ) (bidders : List LocalBid)
  | sending (jobId : ℕ) (recorded selected : List AddressText)

/-- A `BID_SUBMITTED` message. -/
structure BidMessage where
  agentId : String
  jobId : ℕ
  contractAddress : AddressText
  bidAmount : ℚ
  collateral : ℚ
  estimatedTimeSec : ℚ
  reputation : Option ℚ
  evmAddress : Option AddressText
  timestamp : ℕ

/-- The tasks that are started by a timer, an event or a message, or by another task. -/
inductive Start
  | requestWinnerSelection (jobId : ℕ) (sourcePath : String) (hint : ReadinessHint)
  | reconcileExpiredActiveAuctions
  | bootstrapWinnerSelectionFromActiveJobs
  | winnersSelected (jobId : ℕ) (winners : List Address)
  | jobCancelled (jobId : ℕ) (reason : String)
  | bidSubmitted (message : BidMessage)
  | jobRecorded (jobId : ℕ) (contractAddress : Address) (auctionDeadlineSec : ℕ)
  | findings (jobId : ℕ) (contractAddress : Option Address)
  | reportPublished (jobId : ℕ)
  | agentRegistered (roster : List AgentEntry)
  | publishAuditLog (message : AuditMessage)
  | taskAssigned (jobId : ℕ) (winner : AddressText)

/-- A method of the orchestrator. -/
abbrev Async := Routine Memory Note Start Request Response

/-! ## The memory -/

namespace Memory

/-- An entry of the map of jobs is written. -/
def putJob (key version : ℕ) : List (ℕ × ℕ) → List (ℕ × ℕ)
  | [] => [(key, version)]
  | entry :: jobs => if entry.1 = key then (key, version) :: jobs else entry :: putJob key version jobs

/-- `getJobByKey`. -/
def getJobByKey (m : Memory) (key : ℕ) : Option ℕ := m.jobs.lookup key

/-- `setJobByKey`. -/
def setJobByKey (m : Memory) (key version : ℕ) : Memory := { m with jobs := putJob key version m.jobs }

/-- An assignment to the fields of a job object. -/
def update (m : Memory) (key version : ℕ) (f : Job → Job) : Memory :=
  { m with object := fun k v => if k = key ∧ v = version then f (m.object k v) else m.object k v }

/-- A new object for a key, with the bidders in the array `bidders`. -/
def create (m : Memory) (key : ℕ) (job : Job) : Memory :=
  { m with
    object := fun k v => if k = key ∧ v = m.created key then job else m.object k v
    created := Function.update m.created key (m.created key + 1) }

/-- A new array for a key, under the number that its next object would have. -/
def createArray (m : Memory) (key : ℕ) (bids : List LocalBid) : Memory :=
  { m with
    bidders := fun k i => if k = key ∧ i = m.created key then bids else m.bidders k i
    created := Function.update m.created key (m.created key + 1) }

/-- `findAgentIdByAddress`, which is empty if there is none. -/
def findAgentIdByAddress (m : Memory) (a : Address) : String :=
  ((m.roster.find? fun entry => normalizeAddress entry.evmAddress = some a).map AgentEntry.agentId).getD ""

/-- What the roster has of an agent. -/
def agent (m : Memory) (agentId : String) : Option AgentEntry :=
  m.roster.find? fun entry => entry.agentId = agentId

end Memory

/-! ## Errors -/

/-- A text contains another one, whatever the case of its letters. -/
def mentions (message part : String) : Bool :=
  (message.toList.map Char.toLower).tails.any (part.toList.map Char.toLower).isPrefixOf

/-- `isNonceTooLowError`. -/
def isNonceTooLowError (message : String) : Bool := mentions message "nonce too low"

/-- `isInsufficientFundsError`. -/
def isInsufficientFundsError (message : String) : Bool :=
  ["insufficient funds", "insufficient_payer_balance", "orchestrator_hbar_low"].any (mentions message)

/-- The text contains `server response 5` and two digits after it. -/
def mentionsServerError (message : String) : Bool :=
  (message.toList.map Char.toLower).tails.any fun rest =>
    "server response 5".toList.isPrefixOf rest &&
      match rest.drop 17 with
      | c :: d :: _ => c.isDigit && d.isDigit
      | _ => false

/-- `isTransientRpcError`. -/
def isTransientRpcError (message : String) : Bool :=
  ["502 bad gateway", "timeout", "timed out", "unavailable", "fetch failed", "busy", "temporar"].any
    (mentions message) || mentionsServerError message

/-- `isAuctionTerminalError`. -/
def isAuctionTerminalError (message : String) : Bool :=
  ["only open jobs cancellable", "invalid job status", "job does not exist", "already completed",
    "already cancelled"].any (mentions message)

/-- The condition for another attempt at a transaction. -/
def retriable (message : String) : Bool :=
  isNonceTooLowError message || isInsufficientFundsError message || isTransientRpcError message

end AuditGuard.Orchestrator
