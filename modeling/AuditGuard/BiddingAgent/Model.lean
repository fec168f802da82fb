import AuditGuard.Library.Transition

/-!
# The bids of an agent

What the static analysis agent, and the fuzzer and the LLM agent in the same way, does from the invitation to an
auction to the work on a job that it has won: `handleAgentCommsMessage` of an `AUCTION_INVITE` with the task that it
queues, and the handlers of `WinnersSelected` and `JobCancelled`. Every wait ends in a step of its own, and messages,
events and transactions come in between, over any number of jobs.

The job lock and the bid queue only make handlers wait for one another; here they may go on in any order. A
transaction that `submitBid` sends may land at any time as long as the auction is open, whether the call returns or
not, and need not land at all. How the agent gets at its prices, balances and allowances is left open.
-/

namespace AuditGuard.BiddingAgent

/-- What of an invitation goes into the record of a job, with what is known of the contract. -/
structure Invite where
  jobId : ℕ
  contractAddress : String
  deployerAddress : String
  contractType : String
  loc : ℕ
deriving DecidableEq

/-- What the agent makes of an error. -/
inductive BidError
  /-- `duplicate_bid`. -/
  | duplicate
  /-- A timeout, or another error that `isRetriableBidFailure` finds. -/
  | ambiguous
  | other
deriving DecidableEq

/-- `maxAttempts`. -/
def maxAttempts : ℕ := 3

/-- What a handler waits for. -/
inductive Phase
  /-- The message that it does not bid: its policy is against it. -/
  | skipping
  /-- Whether the agent is active, and has its balances and its allowance. -/
  | preparing
  /-- Its turn in the queue, and whether the window is open. -/
  | queued
  /-- `hasAgentBid`. -/
  | asking
  /-- Whether the window is open, and the end of the scouting. -/
  | scouting
  /-- `submitBid`. -/
  | submitting (attempt : ℕ)
  /-- `hasAgentBid`, after an ambiguous failure. -/
  | rechecking (attempt : ℕ)
  /-- Whether the window is open, and the time to the next attempt. -/
  | retrying (attempt : ℕ)
  /-- The `BID_SUBMITTED` message. -/
  | publishing
  /-- The balances, and the message that the bid has failed. -/
  | failing
  | ended
deriving DecidableEq

/-- How a wait ends: with yes, also where there is only this answer; with no; or with an error. -/
inductive Answer
  | yes
  | no
  | throws (error : BidError)
deriving DecidableEq

/-- How a handler goes on. -/
inductive Next
  | awaits (phase : Phase)
  /-- It calls `submitBid`. -/
  | submits (attempt : ℕ)
  /-- The bid is submitted: it notes it, and publishes the message. -/
  | records
  /-- The bid was there already: it notes that it has bid. -/
  | remembers
  /-- It comes to the `catch` block. -/
  | fails (error : BidError)
  /-- It returns, through its `finally` block. -/
  | ends
  /-- It returns before it comes to the `try` block. -/
  | skips
  /-- It throws, and its caller cleans up. -/
  | crashes

/-- The phase that a handler goes on to. -/
def Next.phase : Next → Phase
  | .awaits phase => phase
  | .submits attempt => .submitting attempt
  | .records => .publishing
  | .fails _ => .failing
  | .remembers | .ends | .skips | .crashes => .ended

/-- How a handler goes on when its wait ends, with an answer that it can have. -/
def resume : Phase → Answer → Option Next
  | .skipping, .yes => some .skips
  | .skipping, .throws _ => some .crashes
  | .preparing, .yes => some (.awaits .queued)
  | .queued, .yes => some (.awaits .asking)
  | .asking, .yes => some .remembers
  | .asking, .no => some (.awaits .scouting)
  | .scouting, .yes => some (.submits 1)
  | .preparing, .no | .queued, .no | .scouting, .no => some .ends
  | .submitting _, .yes => some .records
  | .submitting _, .throws .duplicate => some .remembers
  | .submitting attempt, .throws .ambiguous => some (.awaits (.rechecking attempt))
  | .submitting attempt, .throws .other => some (.awaits (.retrying attempt))
  | .rechecking _, .yes => some .remembers
  | .rechecking attempt, .no | .rechecking attempt, .throws _ => some (.awaits (.retrying attempt))
  | .retrying attempt, .yes => if attempt < maxAttempts then some (.submits (attempt + 1)) else none
  | .retrying _, .no => some .ends
  | .publishing, .yes => some .ends
  | .failing, .yes => some .ends
  | .failing, .throws _ => some .crashes
  | .preparing, .throws error | .queued, .throws error | .asking, .throws error | .scouting, .throws error
  | .retrying _, .throws error | .publishing, .throws error => some (.fails error)
  | _, _ => none

/-- A handler of an `AUCTION_INVITE`. -/
structure Handler where
  invite : Invite
  phase : Phase
deriving DecidableEq

/-- How an auction has ended; `named` says that the agent is among the winners. -/
inductive Outcome
  | selected (named : Bool)
  | cancelled
deriving DecidableEq

/-- The agent, and what the auction has of it. -/
structure State where
  /-- How many calls of `submitBid` may still land. -/
  sent : ℕ → ℕ
  /-- `hasAgentBid`, of the agent. -/
  bids : ℕ → Bool
  outcome : ℕ → Option Outcome
  bidInFlightJobs : ℕ → Bool
  bidSubmittedJobs : ℕ → Bool
  pendingJobs : ℕ → Option Invite
  handlers : List Handler
  /-- The calls of `simulateAuditCycle` for a job. -/
  started : ℕ → List Invite
  /-- The jobs of the `BID_SUBMITTED` messages that are published. -/
  published : List ℕ
  /-- The jobs for which a publishing of the message has failed. -/
  unpublished : List ℕ
  /-- The event that ends the auction has come to the agent. -/
  delivered : ℕ → Bool

/-- A handler goes on to a phase. -/
def State.move (s : State) (i : ℕ) (h : Handler) (phase : Phase) : State :=
  { s with handlers := s.handlers.set i { h with phase := phase } }

/-- A handler goes on. -/
def State.goesOn (s : State) (i : ℕ) (h : Handler) : Next → State
  | .awaits phase => s.move i h phase
  | .submits attempt => { s.move i h (.submitting attempt) with
      sent := Function.update s.sent h.invite.jobId (s.sent h.invite.jobId + 1) }
  | .records => { s.move i h .publishing with
      bidSubmittedJobs := Function.update s.bidSubmittedJobs h.invite.jobId true
      pendingJobs := Function.update s.pendingJobs h.invite.jobId (some h.invite) }
  | .remembers => { s.move i h .ended with
      bidSubmittedJobs := Function.update s.bidSubmittedJobs h.invite.jobId true
      bidInFlightJobs := Function.update s.bidInFlightJobs h.invite.jobId false }
  | .fails error => { s.move i h .failing with
      bidSubmittedJobs := if error = .duplicate then Function.update s.bidSubmittedJobs h.invite.jobId true
        else s.bidSubmittedJobs }
  | .ends => { s.move i h .ended with
      bidInFlightJobs := Function.update s.bidInFlightJobs h.invite.jobId false }
  | .skips => s.move i h .ended
  | .crashes => { s.move i h .ended with
      bidInFlightJobs := Function.update s.bidInFlightJobs h.invite.jobId false
      pendingJobs := Function.update s.pendingJobs h.invite.jobId none }

/-- A wait of a handler ends. A `BID_SUBMITTED` that is being published may have `landed` although the call throws. -/
def State.resumes (s : State) (i : ℕ) (h : Handler) (answer : Answer) (landed : Bool) (next : Next) : State :=
  { s.goesOn i h next with
    published := if h.phase = .publishing ∧ (answer = .yes ∨ landed = true) then h.invite.jobId :: s.published
      else s.published
    unpublished := if h.phase = .publishing ∧ answer ≠ .yes then h.invite.jobId :: s.unpublished
      else s.unpublished }

/-- An invitation comes: the agent has a bid already, or its policy is against it, or it prepares one. -/
def State.invites (s : State) (invite : Invite) (bids : Bool) : State :=
  if s.bidSubmittedJobs invite.jobId = true ∨ (s.pendingJobs invite.jobId).isSome = true ∨
      s.bidInFlightJobs invite.jobId = true then s
  else if bids then { s with
    bidInFlightJobs := Function.update s.bidInFlightJobs invite.jobId true
    handlers := s.handlers ++ [⟨invite, .preparing⟩] }
  else { s with handlers := s.handlers ++ [⟨invite, .skipping⟩] }

/-- The handlers of `WinnersSelected` and `JobCancelled`: the agent forgets its bid, and works on the job if it is
named and has the record of the job. -/
def State.delivers (s : State) (jobId : ℕ) (outcome : Outcome) : State :=
  { s with
    bidSubmittedJobs := Function.update s.bidSubmittedJobs jobId false
    pendingJobs := Function.update s.pendingJobs jobId none
    started := if outcome = .selected true then
        Function.update s.started jobId (s.started jobId ++ (s.pendingJobs jobId).toList)
      else s.started
    delivered := Function.update s.delivered jobId true }

/-- What can happen. -/
inductive Event
  | invites (invite : Invite) (bids : Bool)
  | resumes (i : ℕ) (answer : Answer) (landed : Bool)
  /-- A transaction of the agent lands. -/
  | lands (jobId : ℕ)
  /-- The auction ends. -/
  | closes (jobId : ℕ) (outcome : Outcome)
  /-- The event that it has ended comes to the agent. -/
  | delivers (jobId : ℕ)
deriving DecidableEq

/-- One step. -/
inductive Step (s : State) : Event → State → Prop
  | invites {invite : Invite} {bids : Bool} : Step s (.invites invite bids) (s.invites invite bids)
  | resumes {i : ℕ} {h : Handler} {answer : Answer} {landed : Bool} {next : Next} (hi : s.handlers[i]? = some h)
      (hnext : resume h.phase answer = some next) :
      Step s (.resumes i answer landed) (s.resumes i h answer landed next)
  -- an agent has one bid, in an auction that is open
  | lands {jobId : ℕ} (hsent : 0 < s.sent jobId) (hopen : s.outcome jobId = none) (hnew : s.bids jobId = false) :
      Step s (.lands jobId) { s with
        sent := Function.update s.sent jobId (s.sent jobId - 1)
        bids := Function.update s.bids jobId true }
  -- an auction ends once, and a winner has bid
  | closes {jobId : ℕ} {outcome : Outcome} (hopen : s.outcome jobId = none)
      (hbids : outcome = .selected true → s.bids jobId = true) :
      Step s (.closes jobId outcome) { s with outcome := Function.update s.outcome jobId (some outcome) }
  | delivers {jobId : ℕ} {outcome : Outcome} (houtcome : s.outcome jobId = some outcome) :
      Step s (.delivers jobId) (s.delivers jobId outcome)

/-- The agent has just started, and has not bid. -/
def State.initial : State :=
  ⟨fun _ => 0, fun _ => false, fun _ => none, fun _ => false, fun _ => false, fun _ => none, [], fun _ => [], [], [],
    fun _ => false⟩

/-- The agent. -/
def system : TransitionSystem State Event where
  init s := s = .initial
  step := Step

end AuditGuard.BiddingAgent
