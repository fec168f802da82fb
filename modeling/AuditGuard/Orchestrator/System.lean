import AuditGuard.AuditAuction.Records
import AuditGuard.Orchestrator.Tasks

/-!
# The orchestrator and the auction contract

The tasks of the orchestrator as a pool, with the auction contract as the world. Anybody may call the contract at any
time. A read answers with what the contract has at that moment, or fails. A transaction succeeds when its call took
effect; when it fails, the call was refused, and then the error has the text of the refusal, or something went wrong
on the way, and then the call may have taken effect all the same, or do so later, as a call by anybody. An error of
the latter kind says nothing of what `isAuctionTerminalError` looks for.
-/

namespace AuditGuard.Orchestrator

open Evm TransitionSystem
open AuditAuction (Later Keeps AuditJob AgentBid JobStatus)

/-- The auction contract, the GUARD token, and the time of the latest block. -/
abbrev Chain := World AuditAuction.State

/-- What the error of a refused call says. -/
def revertText : Revert → String
  | .require message => message
  | .custom name => name
  | .overflow => "Panic due to OVERFLOW(17)"
  | .underflow => "Panic due to OVERFLOW(17)"
  | .callFailed => "execution reverted"

variable (this : Address)

/-- A transaction and its outcome. -/
inductive Transaction (c : AuditAuction.Call) : Chain → Except String Unit → Chain → Prop
  | mined {env : AuditAuction.Env} {w w' : Chain} (h : (AuditAuction.contract this).Step w (.call env c) w') :
      Transaction c w (.ok ()) w'
  | refused {env : AuditAuction.Env} {w : Chain} {e : Revert} {text : String}
      (h : AuditAuction.exec this env c w = .error e)
      (htext : isAuctionTerminalError text = isAuctionTerminalError (revertText e)) :
      Transaction c w (.error text) w
  | failed {w : Chain} {text : String} (htext : isAuctionTerminalError text = false) :
      Transaction c w (.error text) w

/-- How a request is answered. -/
def serves (w : Chain) : (r : Request) → Except String (Response r) → Chain → Prop
  | .getJob jobId, a, w' => w' = w ∧ ∀ job, a = .ok job → job = w.state.jobs jobId ∧ job.jobId ≠ 0
  | .getBidCount jobId, a, w' =>
    w' = w ∧ ∀ n, a = .ok n → n = (w.state.jobBids jobId).length ∧ (w.state.jobs jobId).jobId ≠ 0
  | .getBidsForJob jobId, a, w' =>
    w' = w ∧ ∀ bids, a = .ok bids → bids = w.state.jobBids jobId ∧ (w.state.jobs jobId).jobId ≠ 0
  | .getActiveJobs, a, w' => w' = w ∧ ∀ ids, a = .ok ids → ids = w.state.activeJobIds
  | .cancelJob jobId, a, w' => ∃ id : UInt 256, (id : ℕ) = jobId ∧ Transaction this (.cancelJob id) w a w'
  | .selectWinners jobId _ winningBidIndices, a, w' =>
    ∃ (id : UInt 256) (indices : List (UInt 256)), (id : ℕ) = jobId ∧
      indices.map Fin.val = winningBidIndices ∧ Transaction this (.selectWinners id indices) w a w'
  | .existingClose _, _, w' => w' = w
  | .existingSelect _, _, w' => w' = w
  | .settleAll _, _, w' => w' = w
  | _, a, w' => w' = w ∧ ∀ text, a = .error text → isAuctionTerminalError text = false

/-- The tasks that may be started from outside. Events are true of the contract, a job is recorded only when it was
posted, and nobody outside hints at what a readiness check reads. -/
def triggers (w : Chain) : Start → Prop
  | .requestWinnerSelection _ _ hint => hint = .none
  | .winnersSelected jobId winners => ∀ a ∈ winners, a ∈ (w.state.jobs jobId).winningAgents
  | .jobCancelled jobId _ => (w.state.jobs jobId).status = .cancelled
  | .jobRecorded jobId _ _ => (w.state.jobs jobId).jobId ≠ 0
  | .publishAuditLog _ => False
  | .taskAssigned _ _ => False
  | _ => True

theorem Transaction.later {this : Address} {c : AuditAuction.Call} {w w' : Chain} {a : Except String Unit}
    (h : Transaction this c w a w') : Later this w w' := by
  cases h with
  | mined h => exact ⟨_, .single h⟩
  | refused => exact ⟨_, .nil⟩
  | failed => exact ⟨_, .nil⟩

theorem serves_later {this : Address} {w w' : Chain} {r : Request} {a : Except String (Response r)}
    (h : serves this w r a w') : Later this w w' := by
  cases r with
  | cancelJob =>
    obtain ⟨id, -, h⟩ := h
    exact h.later
  | selectWinners =>
    obtain ⟨id, indices, -, -, h⟩ := h
    exact h.later
  | existingClose | existingSelect | settleAll =>
    obtain rfl : w' = w := h
    exact ⟨_, .nil⟩
  | _ =>
    obtain ⟨rfl, -⟩ := h
    exact ⟨_, .nil⟩

/-- The orchestrator, just started, next to an auction contract with whatever history. -/
def orchestrator (cfg : Config) : Routine.System Memory Note Start Request Chain Response where
  later := Later this
  later_refl _ := ⟨_, .nil⟩
  later_trans := by
    rintro w w' w'' ⟨ls, h⟩ ⟨ls', h'⟩
    exact ⟨_, h.append h'⟩
  serves _ := serves this
  serves_later _ _ _ _ _ := serves_later
  triggers := triggers
  body := task cfg
  initial m w := m = Memory.empty ∧ (AuditAuction.contract this).system.Reachable w

/-- The tasks with their memory, next to the contract. -/
abbrev Tasks := Routine.Pool Memory Note Start Request Chain Response

/-- What happened in a run. -/
abbrev Trace := List (Transition Tasks (Routine.Label Note Start))

/-! ## Refused cancellations -/

section Refusals

variable {this : Address} {env : AuditAuction.Env} {w : Chain} {jobId : ℕ} {e : Revert}

/-- Errors of which none is terminal. -/
def Harmless {α : Type} (x : Tx α) : Prop :=
  ∀ e, x = .error e → isAuctionTerminalError (revertText e) = false

theorem Harmless.bind {α β : Type} {x : Tx α} {f : α → Tx β} (hx : Harmless x) (hf : ∀ a, Harmless (f a)) :
    Harmless (x >>= f) := by
  intro e h
  rw [bind_eq_error] at h
  rcases h with h | ⟨a, -, h⟩
  · exact hx e h
  · exact hf a e h

theorem harmless_pure {α : Type} (a : α) : Harmless (pure a : Tx α) := fun _ h => absurd h pure_ne_error

theorem harmless_require {c : Prop} [Decidable c] {message : String}
    (h : isAuctionTerminalError message = false) : Harmless (require c message) := by
  intro e he
  rw [(require_eq_error.mp he).2]
  exact h

theorem harmless_require_of {c : Prop} [Decidable c] {message : String} (h : c) :
    Harmless (require c message) := by
  intro e he
  exact absurd h (require_eq_error.mp he).1

theorem harmless_transferGuard (src dst : Address) (amount : ℕ) (w : Chain) :
    Harmless (AuditAuction.transferGuard env src dst amount w) := by
  unfold AuditAuction.transferGuard Hts.transfer Hts.transferGuard
  refine .bind (.bind (harmless_require (by decide +kernel)) fun _ => ?_) fun _ => harmless_pure _
  exact .bind (harmless_require (by decide +kernel)) fun _ => harmless_pure _

theorem harmless_refundBid (bid : AgentBid) (w : Chain) :
    Harmless (AuditAuction.refundBid this env jobId bid w) := by
  simp only [AuditAuction.refundBid]
  split_ifs
  · exact .bind (harmless_transferGuard _ _ _ _) fun _ => harmless_pure _
  · exact harmless_pure _
  · exact harmless_pure _

theorem harmless_refundBids (bids : List AgentBid) (w : Chain) :
    Harmless (AuditAuction.refundBids this env jobId bids w) := by
  induction bids generalizing w with
  | nil => exact harmless_pure _
  | cons bid bids ih => exact .bind (harmless_refundBid bid w) fun _ => .bind (ih _) fun _ => harmless_pure _

theorem cancelJob_refused {id : UInt 256} (h : AuditAuction.exec this env (.cancelJob id) w = .error e)
    (hterminal : isAuctionTerminalError (revertText e) = true) :
    (w.state.jobs id).jobId = 0 ∨ (w.state.jobs id).status ≠ .auctionOpen := by
  by_contra hlive
  rw [not_or, not_not] at hlive
  obtain ⟨hexists, hopen⟩ := hlive
  have hharmless : Harmless (AuditAuction.exec this env (.cancelJob id) w) := by
    unfold AuditAuction.exec
    split_ifs
    · rintro e ⟨⟩
      decide +kernel
    · simp only [AuditAuction.cancelJob, AuditAuction.onlyOrchestrator, AuditAuction.whenNotPaused]
      refine .bind (harmless_require (by decide +kernel)) fun _ => .bind ?_ fun _ => ?_
      · intro e he
        rw [(modifier_eq_error.mp he).2]
        decide +kernel
      · -- The two requirements whose messages are terminal are met.
        refine .bind (harmless_require_of hexists) fun _ => .bind (harmless_require_of hopen) fun _ => ?_
        exact .bind (harmless_refundBids _ _) fun _ => harmless_pure _
  rw [hharmless e h] at hterminal
  cases hterminal

end Refusals

end AuditGuard.Orchestrator
