import AuditGuard.Library.Evm
import AuditGuard.Library.Transition

/-!
# The scanner

`scanCycle` of `agents/scanner/index.ts` in one process, with what it calls: it asks the mirror node for the contracts
that are newer than its cursor, and publishes a discovery for each of them, the oldest first. The mirror node answers
the newest first, and no more than a page of them. Cycles follow one another; contracts may be deployed at any time.

A timestamp is the number that `toConsensusBigInt` makes of it. What `createDiscoveryFromMirror` reads elsewhere is
left open: it throws, or returns the payload that the contract has. Audit log messages, which nothing waits for, are
left out.
-/

namespace AuditGuard.Scanner

open Evm

/-- The settings. -/
structure Config where
  /-- `CONTRACT_FETCH_LIMIT`. -/
  fetchLimit : ℕ
  /-- `SCANNER_MAX_DISCOVERIES_PER_CYCLE`. -/
  maxDiscoveries : ℕ
  /-- `STRICT_LIVE && !DEMO_MODE`. -/
  strictLive : Bool
  /-- The mirror node knows the timestamp filter. -/
  filters : Bool
  /-- The cursor at the start. -/
  start : ℕ

/-- `HOT_LEAD_RISK_THRESHOLD`. -/
def HOT_LEAD_RISK_THRESHOLD : ℚ := 80

/-- What of a discovery's payload is checked or compared. -/
structure Payload where
  estimatedLOC : ℚ
  riskScore : ℚ
  budget : ℚ
deriving DecidableEq

/-- A contract at the mirror node, with the payload of its discovery. -/
structure MirrorContract where
  /-- The address, if it is one. -/
  evmAddress : Option Address
  createdTimestamp : ℕ
  payload : Payload
deriving DecidableEq

/-- Why a payload is rejected. -/
inductive PayloadError
  | estimatedLOC (value : ℚ)
  | riskScore (value : ℚ)
  | budget (value : ℚ)
deriving DecidableEq

/-- `validateDiscoveryPayload`, of a payload with an address. -/
def validateDiscoveryPayload (payload : Payload) : Except PayloadError Unit := do
  if payload.estimatedLOC.den ≠ 1 ∨ payload.estimatedLOC ≤ 0 then throw (.estimatedLOC payload.estimatedLOC)
  if payload.riskScore.den ≠ 1 ∨ payload.riskScore < 0 ∨ 100 < payload.riskScore then
    throw (.riskScore payload.riskScore)
  if payload.budget ≤ 0 then throw (.budget payload.budget)

/-- The payload is accepted. -/
def Payload.accepted (payload : Payload) : Bool := (validateDiscoveryPayload payload).isOk

/-- What a cycle is at. -/
structure Loop where
  /-- What is left of `discoveredContracts`. -/
  rest : List MirrorContract
  processedThisCycle : ℕ
  /-- The contracts of the cycle that have had no failure of their own in it; the code does not keep them. -/
  unfailed : List MirrorContract
deriving DecidableEq

/-- The scanner and the mirror node. -/
structure State where
  /-- The contracts at the mirror node, the oldest first. -/
  contracts : List MirrorContract
  lastSeenTimestamp : ℕ
  seenContracts : List Address
  /-- The discoveries that were published, the last one first. -/
  published : List Address
  hotLeadListingEnabled : Bool
  loop : Option Loop
  /-- For each cycle that is over, its contracts that have had no failure of their own in it; the code does not keep
  them. -/
  turns : List MirrorContract
deriving DecidableEq

/-- `fetchNewContractsSinceCursor`. -/
def fetchNewContractsSinceCursor (cfg : Config) (s : State) : List MirrorContract :=
  let newestFirst := s.contracts.reverse
  let query := if cfg.filters = true then newestFirst.filter fun c => s.lastSeenTimestamp < c.createdTimestamp
    else newestFirst
  let body := query.take cfg.fetchLimit
  ((body.filter fun c => c.evmAddress.isSome).filter fun c =>
    s.lastSeenTimestamp < c.createdTimestamp).insertionSort fun a b => a.createdTimestamp ≤ b.createdTimestamp

/-! ## One contract -/

/-- How it goes with `createListing`. -/
inductive Listing
  | listed
  /-- It fails because the scanner is not an active agent. -/
  | inactiveAgent
  | failed
deriving DecidableEq

/-- How it goes with `publishDiscoverySafe`, and with `attemptScannerPayerRecovery` if the payer is exhausted. -/
inductive Publishing
  | published
  | failed
  | recovered
  | exhausted
deriving DecidableEq

/-- How it goes with a contract. -/
inductive Outcome
  /-- `createDiscoveryFromMirror` throws. -/
  | throws
  | discovers (listing : Listing) (publishing : Publishing)
deriving DecidableEq

/-- The hot lead is tried. -/
def lists (s : State) (c : MirrorContract) : Bool :=
  decide (HOT_LEAD_RISK_THRESHOLD < c.payload.riskScore) && s.hotLeadListingEnabled

/-- The contract is given up after a listing that failed. -/
def givesUp (cfg : Config) (s : State) (c : MirrorContract) (listing : Listing) : Bool :=
  lists s c && decide (listing = .failed) && cfg.strictLive

/-- What a listing that failed does to `hotLeadListingEnabled`. -/
def afterListing (s : State) (c : MirrorContract) (listing : Listing) : State :=
  if lists s c = true ∧ listing = .inactiveAgent then { s with hotLeadListingEnabled := false } else s

/-- The cycle goes on with the next contract. -/
def continueLoop (s : State) (L : Loop) : State := { s with loop := some L }

/-- The cycle is over. -/
def endLoop (s : State) (unfailed : List MirrorContract) : State :=
  { s with loop := none, turns := unfailed ++ s.turns }

/-- The public discovery of a contract, which the cycle `L` goes on from. -/
def publishDiscovery (s : State) (c : MirrorContract) (a : Address) (L : Loop) : Publishing → State
  | .published => continueLoop
      { s with published := a :: s.published, lastSeenTimestamp := c.createdTimestamp }
      { L with processedThisCycle := L.processedThisCycle + 1 }
  | .exhausted => { s with loop := none }
  | _ => continueLoop s { L with unfailed := L.unfailed.erase c }

/-- The body of the loop for a contract of which `L` is left. -/
def process (cfg : Config) (s : State) (c : MirrorContract) (L : Loop) : Outcome → State
  | .throws => endLoop s (L.unfailed.erase c)
  | .discovers listing publishing =>
    match c.evmAddress with
    | none => endLoop s (L.unfailed.erase c)
    | some a =>
      if a ∈ s.seenContracts then continueLoop s L
      else
        let s := { s with seenContracts := a :: s.seenContracts }
        if c.payload.accepted = false ∧ cfg.strictLive = true then continueLoop s L
        else if givesUp cfg s c listing = true then continueLoop s { L with unfailed := L.unfailed.erase c }
        else publishDiscovery (afterListing s c listing) c a L publishing

/-! ## The system -/

/-- What happens. -/
inductive Event
  | deploy (c : MirrorContract)
  /-- A cycle in which the payer is not ready, or the mirror node does not answer. -/
  | idle
  | fetch
  | contract (outcome : Outcome)
  /-- The loop has come to the end of its list, or to the cap. -/
  | ends
deriving DecidableEq

/-- A new contract is the newest one, and has an address of its own. -/
def New (s : State) (c : MirrorContract) : Prop :=
  ∀ d ∈ s.contracts, d.createdTimestamp < c.createdTimestamp ∧ ∀ a, c.evmAddress = some a → d.evmAddress ≠ some a

/-- One step. -/
inductive Step (cfg : Config) : State → Event → State → Prop
  | deploy {s c} (hnew : New s c) : Step cfg s (.deploy c) { s with contracts := s.contracts ++ [c] }
  | idle {s} (hloop : s.loop = none) : Step cfg s .idle s
  | fetch {s} (hloop : s.loop = none) : Step cfg s .fetch
      { s with loop := some ⟨fetchNewContractsSinceCursor cfg s, 0, fetchNewContractsSinceCursor cfg s⟩ }
  | contract {s c rest processed unfailed outcome} (hloop : s.loop = some ⟨c :: rest, processed, unfailed⟩)
      (hcap : processed < cfg.maxDiscoveries) :
      Step cfg s (.contract outcome) (process cfg s c ⟨rest, processed, unfailed⟩ outcome)
  | ends {s L} (hloop : s.loop = some L) (hend : L.rest = [] ∨ cfg.maxDiscoveries ≤ L.processedThisCycle) :
      Step cfg s .ends (endLoop s L.unfailed)

/-- A process starts without having seen anything. -/
def Fresh (cfg : Config) (s : State) : Prop :=
  s.contracts = [] ∧ s.lastSeenTimestamp = cfg.start ∧ s.seenContracts = [] ∧ s.published = [] ∧ s.loop = none ∧
    s.turns = []

/-- The system. -/
def system (cfg : Config) : TransitionSystem State Event where
  init := Fresh cfg
  step := Step cfg

end AuditGuard.Scanner
