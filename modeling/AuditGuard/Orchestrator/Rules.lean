import AuditGuard.Library.Triple
import AuditGuard.Orchestrator.System

/-!
# The orchestrator: what its tasks rely on and guarantee

The invariant says what the marks of a job object are worth, and that a bidder with a place on the chain is the one
that bids there. The rules say when a cancellation and a selection may be sent, and whom a message may call a winner.
Two defects of the code keep it from meeting them in every run. What a run must be spared is said of the notes, and
is asked for only where it matters: `close` stands for what is assumed and shown of cancellations, `select` for
selections.
-/

namespace AuditGuard.Orchestrator

open Evm TransitionSystem
open AuditAuction (Later Keeps AuditJob AgentBid JobStatus)

/-- The answers that a task got. -/
abbrev History := List (Routine.Served Chain Request Response)

/-- The agents that bid for a job, in the order of their bids. -/
def agents (w : Chain) (jobId : ℕ) : List Address := (w.state.jobBids jobId).map AgentBid.agent

/-! ## The invariant -/

/-- What the marks and the deadline of a job object are worth. -/
structure JobSound (w : Chain) (jobId : ℕ) (job : Job) : Prop where
  cancelled : job.cancelledOnChain = true → (w.state.jobs jobId).status = .cancelled ∨
    (job.cancelledReason.any CancelledReason.alreadyTerminal = true ∧ (w.state.jobs jobId).status ≠ .auctionOpen)
  terminal : job.terminalOnChain = true →
    ((w.state.jobs jobId).status = .completed ∨ (w.state.jobs jobId).status = .cancelled) ∨
      ((job.terminalReason = some .cancelAlreadyTerminal ∨ job.terminalReason = some .reconcileSkipTerminal) ∧
        (w.state.jobs jobId).status ≠ .auctionOpen)
  deadline : job.auctionDeadlineSec ≠ none → (w.state.jobs jobId).jobId ≠ 0

/-- A bidder with a place on the chain is the one that bids there. -/
def BidderSound (w : Chain) (jobId : ℕ) (bid : LocalBid) : Prop :=
  ∀ i, bid.onChainBidIndex = some i → ∃ a, bid.evmAddress = .address a ∧ (agents w jobId)[i]? = some a

/-- The invariant. -/
structure Inv (this : Address) (m : Memory) (w : Chain) : Prop where
  reachable : (AuditAuction.contract this).system.Reachable w
  jobs : ∀ key v, JobSound w key (m.object key v)
  bidders : ∀ key i, ∀ bid ∈ m.bidders key i, BidderSound w key bid

/-! ## The rules -/

/-- The bids of a job were counted, or read, and there were this many. -/
inductive BidsRead (jobId n : ℕ) : Routine.Served Chain Request Response → Prop
  | count {src dst : Chain} {time : ℕ} : BidsRead jobId n ⟨.getBidCount jobId, .ok n, src, dst, time⟩
  | bids {bids : List AgentBid} {src dst : Chain} {time : ℕ} (h : bids.length = n) :
      BidsRead jobId n ⟨.getBidsForJob jobId, .ok bids, src, dst, time⟩

/-- The bids of a job were read, when it had none. -/
def EmptyRead (h : History) (jobId : ℕ) : Prop :=
  ∃ e ∈ h, BidsRead jobId 0 e ∧ e.src.state.jobBids jobId = []

/-- The deadline of a job has passed, at a time in milliseconds. -/
def DeadlinePassed (w : Chain) (jobId t : ℕ) : Prop := (w.state.jobs jobId).auctionDeadline ≤ t / 1000

variable (this : Address) (cfg : Config) (close select : Prop)

/-- A job may be closed: it is on the chain, and its auction was seen to end without bids. -/
def MayClose (jobId : ℕ) (h : History) (w : Chain) (t : ℕ) : Prop :=
  (w.state.jobs jobId).jobId ≠ 0 ∧ (close → EmptyRead h jobId ∧ DeadlinePassed w jobId t)

/-- A readiness check that finds no bids has read their number, and if it goes by the deadline of the local job, then
that is not before the one on the chain. -/
def ReadinessGood (w : Chain) (inputs : ReadinessInputs) : Prop :=
  inputs.reasonCode = .noOnchainBids →
    inputs.onChainBidCount ≠ none ∧
      (inputs.hint.deadlineSec = none → inputs.chainJob = none →
        ∀ d, inputs.localDeadlineSec = some d → (w.state.jobs inputs.jobId).auctionDeadline ≤ d)

/-- The best of the bids that are scored has its place on the chain. -/
def ScoringGood (bidders : List LocalBid) : Prop :=
  ∀ best, (cfg.rank bidders).head? = some best → best.1.onChainBidIndex ≠ none

/-- The agents are the winners on the chain. -/
def Winners (w : Chain) (jobId : ℕ) (winners : List Address) : Prop :=
  ∀ a ∈ winners, a ∈ (w.state.jobs jobId).winningAgents

/-- The winner of an assignment is one on the chain. -/
def AssignedSound (w : Chain) (jobId : ℕ) (winner : AddressText) : Prop :=
  ∃ a, winner = .address a ∧ a ∈ (w.state.jobs jobId).winningAgents

/-- The index is the place of the bid of the one winner that is recorded. -/
def IndicesSound (w : Chain) (jobId : ℕ) (recorded : List AddressText) (indices : List ℕ) : Prop :=
  ∃ a i, recorded = [.address a] ∧ indices = [i] ∧ (agents w jobId)[i]? = some a

/-- What is assumed of a note. -/
def assumes (w : Chain) : Note → Prop
  | .readiness inputs => close → ReadinessGood w inputs
  | .scoring _ bidders => select → ScoringGood cfg bidders
  | .sending _ recorded selected => select → recorded = selected

/-- The requests that may be sent. -/
def allows (h : History) (w : Chain) (t : ℕ) : Request → Prop
  | .cancelJob jobId => MayClose close jobId h w t
  | .selectWinners jobId recorded indices => select → IndicesSound w jobId recorded indices
  | .publishAuditLog (.winnerSelected jobId winners) => select → Winners w jobId winners
  | .taskAssigned jobId winner => select → AssignedSound w jobId winner
  | _ => True

/-- A hint tells that there are bids. -/
def HintSound (w : Chain) (jobId : ℕ) (hint : ReadinessHint) : Prop :=
  (w.state.jobs jobId).jobId ≠ 0 ∧
    ∃ n, hint.onChainBidCount = some n ∧ 0 < n ∧ n ≤ (agents w jobId).length

/-- The tasks that may be started. -/
def may (w : Chain) : Start → Prop
  | .requestWinnerSelection jobId _ hint => hint = .none ∨ HintSound w jobId hint
  | .publishAuditLog (.winnerSelected jobId winners) => select → Winners w jobId winners
  | .publishAuditLog _ => True
  | .taskAssigned jobId winner => select → AssignedSound w jobId winner
  | s => triggers w s

/-- What the tasks rely on and guarantee. -/
def rules : Routine.Rules Memory Note Start Request Chain Response where
  inv := Inv this
  assumes w _ := assumes cfg close select w
  allows h _ := allows close select h
  may _ w _ := may select w

/-! ## What stays -/

section Later

variable {this : Address} {cfg : Config} {close select : Prop} {m : Memory} {w w' : Chain} {jobId : ℕ}
  {h : History} {t t' : ℕ}

theorem agents_later (hk : Keeps w.state w'.state jobId) {i : ℕ} {a : Address}
    (h : (agents w jobId)[i]? = some a) : (agents w' jobId)[i]? = some a := by
  obtain ⟨hlt, rfl⟩ := List.getElem?_eq_some_iff.mp h
  exact List.prefix_iff_getElem?.mp hk.bidders i hlt

theorem agents_length_later (hk : Keeps w.state w'.state jobId) :
    (agents w jobId).length ≤ (agents w' jobId).length := hk.bidders.length_le

theorem JobSound.later {job : Job} (hjob : JobSound w jobId job) (hk : Keeps w.state w'.state jobId) :
    JobSound w' jobId job where
  cancelled hmark := by
    rcases hjob.cancelled hmark with hstatus | ⟨hreason, hover⟩
    · exact .inl ((hk.settled (.inr hstatus)).trans hstatus)
    · exact .inr ⟨hreason, hk.ended hover⟩
  terminal hmark := by
    rcases hjob.terminal hmark with hstatus | ⟨hreason, hover⟩
    · rw [hk.settled hstatus]
      exact .inl hstatus
    · exact .inr ⟨hreason, hk.ended hover⟩
  deadline hmark := hk.posted (hjob.deadline hmark)

theorem BidderSound.later {bid : LocalBid} (hbid : BidderSound w jobId bid) (hk : Keeps w.state w'.state jobId) :
    BidderSound w' jobId bid := by
  intro i hi
  obtain ⟨a, haddress, ha⟩ := hbid i hi
  exact ⟨a, haddress, agents_later hk ha⟩

theorem Inv.later (hm : Inv this m w) (hw : Later this w w') : Inv this m w' := by
  obtain ⟨hreachable, hk⟩ := hw.keeps hm.reachable
  exact {
    reachable := hreachable
    jobs := fun key v => (hm.jobs key v).later (hk key)
    bidders := fun key i bid hbid => (hm.bidders key i bid hbid).later (hk key) }

theorem MayClose.later (hclose : MayClose close jobId h w t) (hk : Keeps w.state w'.state jobId) (ht : t ≤ t')
    {h' : History} (hh : ∀ e ∈ h, e ∈ h') : MayClose close jobId h' w' t' := by
  refine ⟨hk.posted hclose.1, fun hc => ?_⟩
  obtain ⟨⟨e, he, hread⟩, hpassed⟩ := hclose.2 hc
  refine ⟨⟨e, hh e he, hread⟩, ?_⟩
  unfold DeadlinePassed at hpassed ⊢
  rw [hk.deadline hclose.1]
  exact hpassed.trans (Nat.div_le_div_right ht)

theorem Winners.later {winners : List Address} (hwin : Winners w jobId winners)
    (hk : Keeps w.state w'.state jobId) : Winners w' jobId winners :=
  fun a ha => hk.winners a (hwin a ha)

theorem AssignedSound.later {winner : AddressText} (hwin : AssignedSound w jobId winner)
    (hk : Keeps w.state w'.state jobId) : AssignedSound w' jobId winner := by
  obtain ⟨a, rfl, ha⟩ := hwin
  exact ⟨a, rfl, hk.winners a ha⟩

theorem IndicesSound.later {recorded : List AddressText} {indices : List ℕ}
    (hsound : IndicesSound w jobId recorded indices) (hk : Keeps w.state w'.state jobId) :
    IndicesSound w' jobId recorded indices := by
  obtain ⟨a, i, hrecorded, hindex, ha⟩ := hsound
  exact ⟨a, i, hrecorded, hindex, agents_later hk ha⟩

theorem HintSound.later {hint : ReadinessHint} (hhint : HintSound w jobId hint)
    (hk : Keeps w.state w'.state jobId) : HintSound w' jobId hint := by
  obtain ⟨hposted, n, hn, hpos, hle⟩ := hhint
  exact ⟨hk.posted hposted, n, hn, hpos, hle.trans (agents_length_later hk)⟩

theorem may_later {s : Start} (hs : may select w s) (hk : ∀ jobId, Keeps w.state w'.state jobId) :
    may select w' s := by
  cases s with
  | requestWinnerSelection jobId _ hint => exact hs.imp_right fun hhint => hhint.later (hk jobId)
  | publishAuditLog message =>
    cases message with
    | winnerSelected jobId winners => exact fun hsel => (hs hsel).later (hk jobId)
    | other => trivial
  | taskAssigned jobId winner => exact fun hsel => (hs hsel).later (hk jobId)
  | winnersSelected jobId winners => exact Winners.later hs (hk jobId)
  | jobCancelled jobId _ =>
    have hstatus : (w.state.jobs jobId).status = .cancelled := hs
    exact ((hk jobId).settled (.inr hstatus)).trans hstatus
  | jobRecorded jobId _ _ => exact (hk jobId).posted hs
  | _ => exact hs

theorem may_of_triggers {s : Start} (hs : triggers w s) : may select w s := by
  cases s with
  | requestWinnerSelection => exact .inl hs
  | publishAuditLog => exact absurd hs id
  | taskAssigned => exact absurd hs id
  | _ => exact hs

end Later

/-! ## Writing the memory -/

namespace Inv

variable {this : Address} {m : Memory} {w : Chain} {key v : ℕ}

theorem empty (hw : (AuditAuction.contract this).system.Reachable w) : Inv this Memory.empty w where
  reachable := hw
  jobs _ _ := ⟨nofun, nofun, fun h => absurd rfl h⟩
  bidders _ _ _ h := absurd h List.not_mem_nil

theorem congr (hm : Inv this m w) {m' : Memory} (hobject : m'.object = m.object) (hbidders : m'.bidders = m.bidders) :
    Inv this m' w where
  reachable := hm.reachable
  jobs := hobject ▸ hm.jobs
  bidders := hbidders ▸ hm.bidders

theorem setJobByKey (hm : Inv this m w) (key v : ℕ) : Inv this (m.setJobByKey key v) w := hm.congr rfl rfl

theorem update (hm : Inv this m w) {f : Job → Job} (hf : ∀ job, JobSound w key job → JobSound w key (f job)) :
    Inv this (m.update key v f) w where
  reachable := hm.reachable
  jobs k i := by
    unfold Memory.update
    dsimp only
    split_ifs with h
    · obtain ⟨rfl, rfl⟩ := h
      exact hf _ (hm.jobs k i)
    · exact hm.jobs k i
  bidders := hm.bidders

theorem create (hm : Inv this m w) {job : Job} (hjob : JobSound w key job) : Inv this (m.create key job) w where
  reachable := hm.reachable
  jobs k i := by
    unfold Memory.create
    dsimp only
    split_ifs with h
    · obtain ⟨rfl, -⟩ := h
      exact hjob
    · exact hm.jobs k i
  bidders := hm.bidders

theorem createArray (hm : Inv this m w) {bids : List LocalBid} (hbids : ∀ bid ∈ bids, BidderSound w key bid) :
    Inv this (m.createArray key bids) w where
  reachable := hm.reachable
  jobs := hm.jobs
  bidders k i bid hbid := by
    unfold Memory.createArray at hbid
    dsimp only at hbid
    split_ifs at hbid with h
    · obtain ⟨rfl, -⟩ := h
      exact hbids bid hbid
    · exact hm.bidders k i bid hbid

theorem pushBid (hm : Inv this m w) {array : ℕ} {bid : LocalBid} (hbid : bid.onChainBidIndex = none) :
    Inv this (m.pushBid key array bid) w where
  reachable := hm.reachable
  jobs := hm.jobs
  bidders k i b hb := by
    unfold Memory.pushBid at hb
    dsimp only at hb
    split_ifs at hb with h
    · rcases List.mem_append.mp hb with hb | hb
      · exact hm.bidders k i b hb
      · intro n hn
        rw [List.mem_singleton.mp hb, hbid] at hn
        cases hn
    · exact hm.bidders k i b hb

end Inv

theorem JobSound.blank (w : Chain) (key : ℕ) (contractAddress : Option Address) (bidders : ℕ) :
    JobSound w key (Job.blank contractAddress bidders) := ⟨nofun, nofun, fun h => absurd rfl h⟩

theorem JobSound.congr {w : Chain} {key : ℕ} {job job' : Job} (hjob : JobSound w key job)
    (hcancelled : job'.cancelledOnChain = job.cancelledOnChain)
    (hcancelledReason : job'.cancelledReason = job.cancelledReason)
    (hterminal : job'.terminalOnChain = job.terminalOnChain)
    (hterminalReason : job'.terminalReason = job.terminalReason)
    (hdeadline : job'.auctionDeadlineSec = job.auctionDeadlineSec) : JobSound w key job' where
  cancelled := by
    rw [hcancelled, hcancelledReason]
    exact hjob.cancelled
  terminal := by
    rw [hterminal, hterminalReason]
    exact hjob.terminal
  deadline := by
    rw [hdeadline]
    exact hjob.deadline

theorem JobSound.setDeadline {w : Chain} {key : ℕ} {job job' : Job} (hjob : JobSound w key job)
    (hposted : (w.state.jobs key).jobId ≠ 0) (hcancelled : job'.cancelledOnChain = job.cancelledOnChain)
    (hcancelledReason : job'.cancelledReason = job.cancelledReason)
    (hterminal : job'.terminalOnChain = job.terminalOnChain)
    (hterminalReason : job'.terminalReason = job.terminalReason) : JobSound w key job' where
  cancelled := by
    rw [hcancelled, hcancelledReason]
    exact hjob.cancelled
  terminal := by
    rw [hterminal, hterminalReason]
    exact hjob.terminal
  deadline _ := hposted

theorem mapOnChainBidsToLocal_sound {w : Chain} {key : ℕ} (m : Memory) {onChainBids : List AgentBid}
    (h : onChainBids.map AgentBid.agent <+: agents w key) :
    ∀ bid ∈ mapOnChainBidsToLocal m onChainBids, BidderSound w key bid := by
  intro bid hbid
  obtain ⟨i, hlt, rfl⟩ := List.mem_mapIdx.mp hbid
  rintro j ⟨⟩
  refine ⟨onChainBids[i].agent, rfl, ?_⟩
  have hlt' : i < (onChainBids.map AgentBid.agent).length := by rwa [List.length_map]
  rw [List.prefix_iff_getElem?.mp h i hlt', List.getElem_map]

end AuditGuard.Orchestrator
