import AuditGuard.AuditAuction.Records
import AuditGuard.Discovery.Model

/-!
# Discoveries: the handlers and the chain

Any number of handlers, next to the auction contract. A transaction that was sent may land at any time, or never, and
what is reported of it may be true or not: a failure may be reported for a transaction that has landed or is going to.
A receipt is reported only for a transaction that has landed, and a receipt with a failed status only for one that has
not. Anybody may call the contract at any time, but no other account creates jobs. The rest of the orchestrator may do
what it likes to the jobs, but it does not remove any.

The handlers are numbered in the order of their messages, which stands for `createCorrelationId`.
-/

namespace AuditGuard.Discovery

open Evm TransitionSystem
open Orchestrator (Memory)

/-- The auction contract, the GUARD token, and the time of the latest block. -/
abbrev Chain := World AuditAuction.State

/-- A transaction that was sent in an attempt of a discovery. -/
structure Sent where
  discovery : ℕ
  attempt : ℕ
  call : AuditAuction.Call

/-- A transaction that has landed, with the job that it created. -/
structure Landed where
  discovery : ℕ
  attempt : ℕ
  jobId : ℕ
deriving DecidableEq

/-- The handlers with what they share, the chain, and the transactions. -/
structure Intake where
  handlers : List Handler
  desk : Desk
  chain : Chain
  sent : List Sent
  landed : List Landed
  nowMs : ℕ

namespace Intake

/-- The jobs that a discovery has created. -/
def created (p : Intake) (discovery : ℕ) : List ℕ :=
  (p.landed.filter fun l => l.discovery = discovery).map Landed.jobId

/-- The transaction of an attempt has landed. -/
def hasLanded (p : Intake) (discovery attempt : ℕ) : Bool :=
  p.landed.any fun l => l.discovery = discovery ∧ l.attempt = attempt

/-- The answer may come. -/
def serves (p : Intake) (discovery ticket : ℕ) : (pos : Awaiting) → Except String pos.Answer → Bool
  | .lock, .ok () => p.desk.resolved (ticket - 1)
  | .lock, .error _ => false
  | .nextJobId _, .ok n => n = some p.chain.state.nextJobId
  | .postTxNextJobId _ _, .ok n => n = some p.chain.state.nextJobId
  | .createAuditJob attempt _, .ok () => p.sent.any fun s => s.discovery = discovery ∧ s.attempt = attempt
  | .receipt attempt _, .ok (some receipt) =>
    if Receipt.failed (some receipt) = true then p.hasLanded discovery attempt = false
    else p.landed.any fun l =>
      l.discovery = discovery ∧ l.attempt = attempt ∧ receipt.jobPosted.all fun posted =>
        posted = (l.jobId, (p.chain.state.jobs l.jobId).auctionDeadline)
  | .getJob jobId, .ok job => job = p.chain.state.jobs jobId ∧ job.jobId ≠ 0
  | .finished, _ => false
  | _, _ => true

/-- The transaction that a handler sends when it comes to a place. -/
def sends (cfg : Config) (discovery : ℕ) (h : Handler) : List Sent :=
  match h.pos with
  | .createAuditJob attempt _ => ((createCall cfg h.payload).map fun c => ⟨discovery, attempt, c⟩).toList
  | _ => []

/-- A handler goes on with an answer. -/
def answer (cfg : Config) (p : Intake) (discovery : ℕ) (h : Handler) (a : Except String h.pos.Answer) : Intake :=
  let resumed := resume cfg p.nowMs discovery h a p.desk
  { p with
    handlers := p.handlers.set discovery resumed.2
    desk := resumed.1
    sent := p.sent ++ sends cfg discovery resumed.2 }

end Intake

/-- What happens. -/
inductive Event
  | receive (payload : Payload)
  | answer (discovery : ℕ) (pos : Awaiting) (a : Except String pos.Answer)
  | land (discovery attempt : ℕ)
  | move
  | others
  | tick

variable (this : Address) (cfg : Config)

/-- The steps: a message comes in, a handler gets an answer, a transaction lands, the contract is called by anybody,
the rest of the orchestrator works on the jobs, and time passes. -/
inductive Step : Intake → Event → Intake → Prop
  | receive {p : Intake} {payload : Payload} :
      Step p (.receive payload) { p with handlers := p.handlers ++ [⟨payload, 0, .rosterBootstrap⟩] }
  | answer {p : Intake} {discovery : ℕ} {h : Handler} {a : Except String h.pos.Answer}
      (hh : p.handlers[discovery]? = some h) (hserves : p.serves discovery h.ticket h.pos a = true) :
      Step p (.answer discovery h.pos a) (p.answer cfg discovery h a)
  | land {p : Intake} {sent : Sent} {env : AuditAuction.Env} {w : Chain} (hsent : sent ∈ p.sent)
      (hnew : p.hasLanded sent.discovery sent.attempt = false)
      (h : (AuditAuction.contract this).Step p.chain (.call env sent.call) w) :
      Step p (.land sent.discovery sent.attempt) { p with
        chain := w
        landed := p.landed ++ [⟨sent.discovery, sent.attempt, p.chain.state.nextJobId⟩] }
  | move {p : Intake} {l : Label AuditAuction.Env AuditAuction.Call} {w : Chain}
      (h : (AuditAuction.contract this).Step p.chain l w) (hl : ∀ env c, l = .call env c → c.creates = false) :
      Step p .move { p with chain := w }
  | others {p : Intake} {jobs : Memory}
      (hjobs : ∀ key, p.desk.jobs.getJobByKey key ≠ none → jobs.getJobByKey key ≠ none) :
      Step p .others { p with desk := { p.desk with jobs := jobs } }
  | tick {p : Intake} {nowMs : ℕ} (ht : p.nowMs ≤ nowMs) : Step p .tick { p with nowMs := nowMs }

/-- The orchestrator, just started, next to an auction contract with whatever history. -/
def system : TransitionSystem Intake Event where
  init p := p.handlers = [] ∧ p.desk = Desk.empty ∧ p.sent = [] ∧ p.landed = [] ∧
    (AuditAuction.contract this).system.Reachable p.chain
  step := Step this cfg

/-- What happened in a run. -/
abbrev Trace := List (Transition Intake Event)

/-! ## Computed runs -/

/-- What is to happen: a message, an answer to the handler of a discovery, or the landing of the transaction at an
index of those that were sent. -/
inductive Move
  | receive (payload : Payload)
  | answer (discovery : ℕ) (pos : Awaiting) (a : Except String pos.Answer)
  | land (index : ℕ) (env : AuditAuction.Env)

/-- What comes of a move, if it is possible. -/
def Intake.play (p : Intake) : Move → Option Intake
  | .receive payload => some { p with handlers := p.handlers ++ [⟨payload, 0, .rosterBootstrap⟩] }
  | .answer discovery pos a =>
    match p.handlers[discovery]? with
    | none => none
    | some h =>
      if heq : pos = h.pos then
        if p.serves discovery h.ticket h.pos (heq ▸ a) = true then some (p.answer cfg discovery h (heq ▸ a)) else none
      else none
  | .land index env =>
    match p.sent[index]? with
    | none => none
    | some sent =>
      if p.hasLanded sent.discovery sent.attempt = false ∧ env.sender ≠ this ∧ env.sender ≠ 0 ∧
          p.chain.now ≤ env.timestamp then
        match AuditAuction.exec this env sent.call p.chain with
        | .error _ => none
        | .ok w => some { p with
            chain := { w with now := env.timestamp }
            landed := p.landed ++ [⟨sent.discovery, sent.attempt, p.chain.state.nextJobId⟩] }
      else none

variable {this cfg}

/-- The event is an answer only if the move is the same answer. -/
def Move.Means (move : Move) (e : Event) : Prop :=
  ∀ discovery pos a, e = .answer discovery pos a → move = .answer discovery pos a

theorem plays : (system this cfg).Plays (Intake.play this cfg) fun _ move e => move.Means e := by
  intro p move p' h
  cases move with
  | receive payload =>
    obtain rfl := Option.some.inj h
    exact ⟨_, by rintro _ _ _ ⟨⟩, .receive⟩
  | answer discovery pos a =>
    unfold Intake.play at h
    dsimp only at h
    split at h
    · cases h
    · rename_i handler hh
      split_ifs at h with heq hserves
      subst heq
      obtain rfl := Option.some.inj h
      refine ⟨_, ?_, .answer hh hserves⟩
      rintro _ _ _ ⟨⟩
      rfl
  | land index env =>
    unfold Intake.play at h
    dsimp only at h
    split at h
    · cases h
    · rename_i sent hsent
      split_ifs at h with hcond
      obtain ⟨hnew, hsender, hzero, hnow⟩ := hcond
      split at h
      · cases h
      · rename_i w hexec
        obtain rfl := Option.some.inj h
        have hstep : (AuditAuction.contract this).Step p.chain (.call env sent.call) { w with now := env.timestamp } :=
          .call hsender hzero hnow hexec
        exact ⟨_, by rintro _ _ _ ⟨⟩, .land (List.mem_of_getElem? hsent) hnew hstep⟩

end AuditGuard.Discovery
