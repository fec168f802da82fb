import AuditGuard.AuditAuction.System
import AuditGuard.Orchestrator.Tasks

/-!
# Discoveries: the handler

`handleDiscovery` of `orchestrator.js`, from the message to the record of the job. It opens an auction for a contract
that was discovered: it passes over duplicates and payloads that are not valid, waits for its turn at the lock of
`withCreateAuditJobLock`, and tries to create the job on the chain, several times if the errors look like passing
ones.

A handler is the `await` at which it is suspended, with the local variables that are still needed (`Awaiting`), and
`resume` is what it does with the answer until it awaits the next one. The lock is a chain of promises, which are
numbered: a handler replaces the last promise by its own, waits for the one before it, and resolves its own at the
end. Payloads of messages are left out, and so are the invitations of agents after the job was recorded.
-/

namespace AuditGuard.Discovery

open Evm
open Orchestrator (AddressText normalizeAddress Memory Job hasOpenJobForContract isInsufficientFundsError retriable)
open AuditAuction (AuditJob)

/-- The payload of a discovery. A number is what `Number` makes of the field, if that is finite. -/
structure Payload where
  contractAddress : AddressText
  contractType : Option String
  budget : Option ℚ
  riskScore : Option ℚ
  estimatedLOC : Option ℚ

/-- The settings, and `parseUnits` with the decimals of the token, which may throw. -/
structure Config where
  discoveryDedupeEnabled : Bool
  discoveryDedupeTtlMs : ℕ
  minRiskScore : ℚ
  createMaxAttempts : ℕ
  auctionDurationSec : ℕ
  winnerWaitMs : ℕ
  strictLive : Bool
  parseUnits : ℚ → Except String ℕ

/-- What is read off the receipt of a transaction: its status, and the number and the deadline of the job in its
`JobPosted` log, if the log can be parsed. -/
structure Receipt where
  status : Option ℕ
  jobPosted : Option (ℕ × ℕ)

/-- Where a handler is suspended. -/
inductive Awaiting
  | rosterBootstrap
  | dedupedLog
  | rejectedLog
  /-- The promise before its own in the chain of the lock. -/
  | lock
  | operationalHbar (attempt : ℕ)
  | nextJobId (attempt : ℕ)
  /-- The transaction is being sent. -/
  | createAuditJob (attempt : ℕ) (expectedOnChainJobId : Option ℕ)
  /-- `tx.wait()`. -/
  | receipt (attempt : ℕ) (expectedOnChainJobId : Option ℕ)
  | postTxNextJobId (attempt : ℕ) (parsedDeadlineSec : Option ℕ)
  /-- The deadline is looked up. -/
  | getJob (onChainJobId : ℕ)
  | topUp (attempt : ℕ) (error : String)
  | deferredLog (attempt : ℕ) (error : String)
  | retryingLog (attempt : ℕ) (error : String)
  | backoff (attempt : ℕ)
  /-- `withCreateAuditJobLock`, which returns. -/
  | opened (jobId auctionDeadlineSec : ℕ)
  /-- `withCreateAuditJobLock`, which throws. -/
  | failed (error : String)
  | txFailedLog (error : String)
  | abortedLog (error : String)
  | jobFailedLog
  | jobCreatedLog
  | finished
deriving DecidableEq

namespace Awaiting

/-- What is awaited. -/
@[reducible]
def Answer : Awaiting → Type
  | nextJobId _ => Option ℕ
  | postTxNextJobId _ _ => Option ℕ
  | receipt _ _ => Option Receipt
  | getJob _ => AuditJob
  | _ => Unit

/-- The handler holds the lock. -/
def locked : Awaiting → Bool
  | operationalHbar _ | nextJobId _ | createAuditJob _ _ | receipt _ _ | postTxNextJobId _ _ | getJob _ => true
  | topUp _ _ | deferredLog _ _ | retryingLog _ _ | backoff _ => true
  | _ => false

/-- The handler holds the lock or waits for it. -/
def queued (pos : Awaiting) : Bool := pos.locked || pos = lock

end Awaiting

/-- A handler, with the number of its promise in the chain of the lock. -/
structure Handler where
  payload : Payload
  ticket : ℕ
  pos : Awaiting

/-- A record of a job that a discovery stored. -/
structure Stored where
  jobId : ℕ
  contractAddress : AddressText
  discovery : ℕ

/-- What the handlers share: the jobs, the times at which contracts were seen, and the promises of the lock, with the
number of the last one. -/
structure Desk where
  jobs : Memory
  recentDiscovery : Address → ℕ
  createAuditJobLock : ℕ
  resolved : ℕ → Bool
  stored : List Stored

/-- An orchestrator that has just started, where the lock is `Promise.resolve()`. -/
def Desk.empty : Desk where
  jobs := Memory.empty
  recentDiscovery _ := 0
  createAuditJobLock := 0
  resolved n := n = 0
  stored := []

/-! ## The message -/

/-- `shouldDedupeDiscovery`, with the time at which a duplicate is seen. -/
def shouldDedupeDiscovery (cfg : Config) (nowMs : ℕ) (contractAddress : AddressText) (m : Desk) : Bool × Desk :=
  if cfg.discoveryDedupeEnabled = false then (false, m)
  else match normalizeAddress contractAddress with
    | none => (false, m)
    | some a =>
      let seenAt := m.recentDiscovery a
      let withinTtl : Bool := 0 < seenAt ∧ nowMs - seenAt ≤ cfg.discoveryDedupeTtlMs
      if withinTtl = false ∧ hasOpenJobForContract m.jobs (nowMs / 1000) a = false then (false, m)
      else (true, { m with recentDiscovery := Function.update m.recentDiscovery a nowMs })

/-- `markDiscoverySeen`. -/
def markDiscoverySeen (nowMs : ℕ) (contractAddress : AddressText) (m : Desk) : Desk :=
  match normalizeAddress contractAddress with
  | none => m
  | some a => { m with recentDiscovery := Function.update m.recentDiscovery a nowMs }

/-- `validateDiscoveryPayload`, with what its errors begin with. -/
def validateDiscoveryPayload (payload : Payload) : Except String Unit :=
  if normalizeAddress payload.contractAddress = none then .error "invalid contractAddress"
  else if payload.budget.all (· ≤ 0) = true then .error "invalid budget"
  else if payload.riskScore.all (fun r => r.den ≠ 1 ∨ r < 0 ∨ 100 < r) = true then .error "invalid riskScore"
  else if payload.estimatedLOC.all (· < 0) = true then .error "invalid estimatedLOC"
  else .ok ()

/-- The contract is not worth an audit. -/
def lowRisk (cfg : Config) (payload : Payload) : Bool :=
  0 < cfg.minRiskScore ∧ payload.riskScore.getD 0 < cfg.minRiskScore

/-- The part of `handleDiscovery` before the lock, and the first half of `withCreateAuditJobLock`. -/
def receive (cfg : Config) (nowMs : ℕ) (h : Handler) (m : Desk) : Desk × Handler :=
  match shouldDedupeDiscovery cfg nowMs h.payload.contractAddress m with
  | (true, m) => (m, { h with pos := .dedupedLog })
  | (false, m) =>
    match validateDiscoveryPayload h.payload with
    | .error _ => (m, { h with pos := .rejectedLog })
    | .ok () =>
      if lowRisk cfg h.payload = true then (m, { h with pos := .finished })
      else
        ({ markDiscoverySeen nowMs h.payload.contractAddress m with
            createAuditJobLock := m.createAuditJobLock + 1 },
          { h with ticket := m.createAuditJobLock + 1, pos := .lock })

/-! ## The attempts -/

/-- A number as a `uint256`, unless it is none. -/
def toUint256 (x : ℚ) : Option (UInt 256) :=
  if h : x.den = 1 ∧ 0 ≤ x.num ∧ x.num.toNat < 2^256 then some ⟨x.num.toNat, h.2.2⟩ else none

/-- The call of `createAuditJob`, unless its arguments cannot be encoded. -/
def createCall (cfg : Config) (payload : Payload) : Option AuditAuction.Call := do
  let contractAddress ← normalizeAddress payload.contractAddress
  let riskScore ← toUint256 (payload.riskScore.getD 0)
  let budgetWei ← (cfg.parseUnits (payload.budget.getD 0)).toOption
  let budgetWei ← toUint256 budgetWei
  let estimatedLOC ← toUint256 (payload.estimatedLOC.getD 0)
  let auctionDurationSec ← toUint256 cfg.auctionDurationSec
  pure (.createAuditJob contractAddress "hedera-testnet" (payload.contractType.getD "unknown") riskScore budgetWei
    estimatedLOC auctionDurationSec)

/-- The wait before another attempt, with the messages before it. -/
def deferral (attempt : ℕ) (error : String) : Awaiting :=
  if attempt = 1 then .deferredLog attempt error else .retryingLog attempt error

/-- An attempt has failed. -/
def caught (cfg : Config) (attempt : ℕ) (error : String) : Awaiting :=
  if isInsufficientFundsError error = true ∧ attempt < cfg.createMaxAttempts then .topUp attempt error
  else if retriable error = false ∨ cfg.createMaxAttempts ≤ attempt then .failed error
  else deferral attempt error

/-- The deadline is known, or it is looked up. -/
def resolveDeadline (onChainJobId : ℕ) (parsedDeadlineSec : Option ℕ) : Awaiting :=
  match parsedDeadlineSec with
  | some deadline => if 0 < deadline then .opened onChainJobId deadline else .getJob onChainJobId
  | none => .getJob onChainJobId

/-- The transaction has a receipt, which counts as a failure if there is none or its status is not 1. -/
def Receipt.failed : Option Receipt → Bool
  | none => true
  | some receipt => receipt.status.any (· ≠ 1)

/-- The job is the one in the log, or else the one that was expected, or else it is looked up. -/
def resolveJob (attempt : ℕ) (expectedOnChainJobId : Option ℕ) (receipt : Receipt) : Awaiting :=
  match receipt.jobPosted.map Prod.fst <|> expectedOnChainJobId with
  | some onChainJobId => resolveDeadline onChainJobId (receipt.jobPosted.map Prod.snd)
  | none => .postTxNextJobId attempt (receipt.jobPosted.map Prod.snd)

/-- The deadline if the chain does not have one. -/
def fallbackDeadlineSec (cfg : Config) (nowMs : ℕ) : ℕ := nowMs / 1000 + max 1 ((cfg.winnerWaitMs + 999) / 1000)

/-- What is awaited next, after the lock was taken. -/
def next (cfg : Config) (nowMs : ℕ) (payload : Payload) : (pos : Awaiting) → Except String pos.Answer → Awaiting
  | .dedupedLog, _ => .finished
  | .rejectedLog, _ => .finished
  | .lock, _ =>
    match cfg.parseUnits (payload.budget.getD 0) with
    | .ok _ => .operationalHbar 1
    | .error error => .failed error
  | .operationalHbar attempt, .ok () => .nextJobId attempt
  | .operationalHbar attempt, .error error => caught cfg attempt error
  | .nextJobId attempt, .ok expected => .createAuditJob attempt expected
  | .nextJobId attempt, .error error => caught cfg attempt error
  | .createAuditJob attempt expected, .ok () => .receipt attempt expected
  | .createAuditJob attempt _, .error error => caught cfg attempt error
  | .receipt attempt _, .error error => caught cfg attempt error
  | .receipt attempt _, .ok none => caught cfg attempt "createAuditJob tx failed"
  | .receipt attempt expected, .ok (some receipt) =>
    if Receipt.failed (some receipt) = true then caught cfg attempt "createAuditJob tx failed"
    else resolveJob attempt expected receipt
  | .postTxNextJobId attempt parsedDeadlineSec, .ok (some postTxNextJobId) =>
    if 0 < postTxNextJobId then resolveDeadline (postTxNextJobId - 1) parsedDeadlineSec
    else caught cfg attempt "createAuditJob succeeded but JobPosted jobId could not be resolved"
  | .postTxNextJobId attempt _, _ =>
    caught cfg attempt "createAuditJob succeeded but JobPosted jobId could not be resolved"
  | .getJob onChainJobId, .ok onChainJob =>
    .opened onChainJobId (if 0 < onChainJob.auctionDeadline then onChainJob.auctionDeadline
      else fallbackDeadlineSec cfg nowMs)
  | .getJob onChainJobId, .error _ => .opened onChainJobId (fallbackDeadlineSec cfg nowMs)
  | .topUp attempt error, _ => deferral attempt error
  | .deferredLog attempt error, _ => .retryingLog attempt error
  | .retryingLog attempt _, _ => .backoff attempt
  | .backoff attempt, _ => .operationalHbar (attempt + 1)
  | .failed error, _ => .txFailedLog error
  | .txFailedLog error, .ok () => .abortedLog error
  | .txFailedLog _, .error _ => .finished
  | .abortedLog _, _ => if cfg.strictLive = true then .jobFailedLog else .finished
  | .opened _ _, _ => .jobCreatedLog
  | _, _ => .finished

/-! ## The handler -/

/-- The record of the job is stored. -/
def Desk.store (m : Desk) (discovery jobId : ℕ) (contractAddress : AddressText) (auctionDeadlineSec : ℕ) : Desk :=
  { m with
    jobs := (m.jobs.create jobId { Job.blank (normalizeAddress contractAddress) (m.jobs.created jobId) with
      auctionDeadlineSec := some auctionDeadlineSec }).setJobByKey jobId (m.jobs.created jobId)
    stored := m.stored ++ [⟨jobId, contractAddress, discovery⟩] }

/-- The promise of a handler is resolved. -/
def Desk.release (m : Desk) (ticket : ℕ) : Desk := { m with resolved := Function.update m.resolved ticket true }

/-- A handler that leaves the lock resolves its promise. -/
def Desk.leave (m : Desk) (ticket : ℕ) (pos pos' : Awaiting) : Desk :=
  if pos.queued = true ∧ pos'.queued = false then m.release ticket else m

/-- What the handler with the number `discovery` does with an answer. -/
def resume (cfg : Config) (nowMs discovery : ℕ) (h : Handler) (a : Except String h.pos.Answer) (m : Desk) :
    Desk × Handler :=
  let pos' := next cfg nowMs h.payload h.pos a
  match h.pos with
  | .rosterBootstrap => receive cfg nowMs h m
  | .opened jobId auctionDeadlineSec =>
    (m.store discovery jobId h.payload.contractAddress auctionDeadlineSec, { h with pos := pos' })
  | pos => (m.leave h.ticket pos pos', { h with pos := pos' })

end AuditGuard.Discovery
