import AuditGuard.AuditAuction.Emissions
import AuditGuard.Deployment.SettlementAuction
import AuditGuard.Inft.Courses
import AuditGuard.Inft.Linking

/-!
# From the chain to the iNFT of a job

`AuditAuction` and `PaymentSettlement` on one chain, and the event listener, which handles the events that they emit,
in order. The Audit Job iNFTs are minted by other processes. The event listener has in its storage those that were
minted before it was started.

A step is a step of the chain, the handling of the next event, which may be delivered once more, or a mint.
-/

namespace AuditGuard.Inft

open Deployment Evm TransitionSystem

/-- The state of an iNFT that corresponds to the status of a job. -/
def jobState : AuditAuction.JobStatus → AuditJobState
  | .auctionOpen => .auctionOpen
  | .biddingClosed => .biddingClosed
  | .auditingInProgress => .auditingInProgress
  | .reportPending => .reportPending
  | .completed => .completed
  | .cancelled => .cancelled

/-- The status that an event reports, and of which job. -/
def Event.report : Event → Option (ℕ × AuditAuction.JobStatus)
  | .auction e => e.report
  | _ => none

/-- The job that an event is about. -/
def Event.jobOf : Event → Option ℕ
  | .auction (.jobPosted jobId _ _ _ _ _ _ _) => some jobId
  | .auction (.bidSubmitted jobId _ _ _ _ _ _) => some jobId
  | .auction (.bidUpdated jobId _ _ _ _ _) => some jobId
  | .auction (.winnersSelected jobId _ _ _) => some jobId
  | .auction (.bidRefunded jobId _ _) => some jobId
  | .auction (.escrowReleased jobId _ _ _ _) => some jobId
  | .auction (.agentSlashed jobId _ _ _) => some jobId
  | .auction (.jobCompleted jobId) => some jobId
  | .auction (.jobCancelled jobId) => some jobId
  | .auction (.registryCallFailed jobId _ _) => some jobId
  | .settlement (.jobSettled _ jobId _ _ _ _) => some jobId
  | _ => none

/-- What an Audit Job iNFT was minted for: the `jobId` of the discovery, 0 if it had none, and the address of the
contract. -/
structure Discovery where
  jobId : ℕ
  contractAddress : String
deriving DecidableEq

/-- The chain, the event listener, and what lies between them. -/
structure Feed where
  chain : SettlementWorld
  /-- What Audit Job iNFTs were minted for so far. -/
  minted : List Discovery
  /-- The jobs whose iNFT was minted when they were posted. -/
  covered : List ℕ
  /-- The events that were emitted and not handled yet, oldest first. -/
  pending : List Event
  /-- The status of each job as the events that were handled report it. -/
  reported : ℕ → Option AuditAuction.JobStatus
  listener : Listener

/-- The events of a step of the chain. A settlement has the auction complete the job before it reports it. -/
def newEvents (w w' : SettlementWorld) : List Event :=
  (w'.state.2.log.drop w.state.2.log.length).map .auction ++
    (w'.state.1.log.drop w.state.1.log.length).map .settlement

/-- The job that an event posts, if an iNFT was minted for it: one for the contract, or with the number of the job. -/
def Event.covers (hex : Address → String) (minted : List Discovery) : Event → Option ℕ
  | .auction (.jobPosted jobId contractAddress _ _ _ _ _ _) =>
    if ∃ d ∈ minted, d.jobId = jobId ∨ d.contractAddress = hex contractAddress then some jobId else none
  | _ => none

/-- What is reported after an event. -/
def Event.hear (reported : ℕ → Option AuditAuction.JobStatus) (e : Event) : ℕ → Option AuditAuction.JobStatus :=
  match e.report with
  | none => reported
  | some (jobId, status) => Function.update reported jobId (some status)

/-- The metadata that the event listener has in its storage when it is started, as `findSerialBy` reads them. -/
def Listener.storage (l : Listener) : StorageAdapter JobIndex.AuditJob where
  cache serial := (l.auditJobs serial).map fun job => ⟨job.jobId, job.contractAddress⟩
  index := l.jobSerials

/-- The event listener was just started: its index is filled from storage, and nothing has happened to the Audit Job
iNFTs since they were minted. -/
structure Listener.Started (minted : List Discovery) (l : Listener) : Prop where
  index : l.jobIndex = JobIndex.World.initIndices l.storage
  jobs : ∀ serial job, l.auditJobs serial = some job →
    job = .mint job.jobId job.contractAddress ∧ ⟨job.jobId, job.contractAddress⟩ ∈ minted

/-- What may happen next. -/
inductive FeedLabel
  | chain (l : SettlementLabel)
  /-- The event listener handles the next event, which may be delivered again. -/
  | handles (again : Bool)
  /-- Another process mints an Audit Job iNFT, of which the storage of the event listener learns nothing. -/
  | mints (d : Discovery)

/-- The steps. -/
inductive FeedStep (hex : Address → String) (settlement auction : Address) : Feed → FeedLabel → Feed → Prop
  | chain {w : Feed} {l : SettlementLabel} {c : SettlementWorld}
      (h : (settlementAuction settlement auction).system.step w.chain l c) :
      FeedStep hex settlement auction w (.chain l) { w with
        chain := c
        covered := w.covered ++ (newEvents w.chain c).filterMap (Event.covers hex w.minted)
        pending := w.pending ++ newEvents w.chain c }
  | handles {w : Feed} {e : Event} {rest : List Event} {again : Bool} (h : w.pending = e :: rest) :
      FeedStep hex settlement auction w (.handles again) { w with
        pending := if again then e :: rest else rest
        reported := e.hear w.reported
        listener := handle hex w.listener e }
  | mints {w : Feed} {d : Discovery} :
      FeedStep hex settlement auction w (.mints d) { w with minted := d :: w.minted }

/-- The system, from the deployment of the contracts and the start of the event listener on. -/
def feed (hex : Address → String) (settlement auction : Address) : TransitionSystem Feed FeedLabel where
  init w := (settlementAuction settlement auction).system.init w.chain ∧ w.covered = [] ∧ w.pending = [] ∧
    (∀ jobId, w.reported jobId = none) ∧ w.listener.Started w.minted
  step := FeedStep hex settlement auction

/-- The job is linked to an iNFT whose state corresponds to the status that was last reported of the job, and whose
history is a chain. Once no report of the job is pending, it is the status on the chain. -/
structure Tracks (w : Feed) (jobId : ℕ) : Prop where
  shown : ∀ status, w.reported jobId = some status → ∃ serial job, w.listener.jobIndex jobId = some serial ∧
    w.listener.auditJobs serial = some job ∧ job.state = jobState status ∧ job.course.Chained
  current : (∀ e ∈ w.pending, ∀ status, e.report ≠ some (jobId, status)) →
    w.reported jobId = w.chain.state.2.statusOf jobId

/-- The iNFT of a job follows the chain throughout a run, if it was minted before the job was posted. -/
structure FollowsChain (hex : Address → String) (jobId : ℕ) (ts : List (Transition Feed FeedLabel)) (w : Feed) :
    Prop where
  /-- From `JobPosted` on, no event of the job leads to a transition that is refused. -/
  unrefused : ∀ tr ∈ ts, ∀ again, tr.label = .handles again → ∀ e rest, tr.src.pending = e :: rest →
    e.jobOf = some jobId → jobId ∈ tr.src.covered → (tr.dst.reported jobId).isSome →
      ¬ Refused (runHandler (dispatch hex e) tr.src.listener).1
  tracked : Throughout (fun w => jobId ∈ w.covered → Tracks w jobId) ts w

/-- The job shares its iNFT with the job `other`, and the table has a transition from its state to `target`. -/
def Moves (w : Feed) (jobId other : ℕ) (target : AuditJobState) : Prop :=
  ∃ serial job, w.listener.jobIndex jobId = some serial ∧ w.listener.jobIndex other = some serial ∧
    w.listener.auditJobs serial = some job ∧ target ∈ job.state.allowed

/-- The condition on the next event, as far as the job `jobId` is concerned.
- When the job is posted, the event listener finds an iNFT, and one that is open or can be opened.
- An event of another job that has the same iNFT does not move it.
- That a settlement completed the job is reported after the auction has reported it. -/
def Undisturbed (hex : Address → String) (jobId : ℕ) (w : Feed) : Event → Prop
  | .auction (.jobPosted id contractAddress _ _ _ _ _ _) => id = jobId → ∃ serial job,
      w.listener.findJob hex id contractAddress = some serial ∧ w.listener.auditJobs serial = some job ∧
        (job.state = .auctionOpen ∨ .auctionOpen ∈ job.state.allowed)
  | .auction (.winnersSelected id _ _ _) => id ≠ jobId → (w.reported jobId).isSome →
    ¬ Moves w jobId id .auditingInProgress
  | .auction (.jobCompleted id) => id ≠ jobId → (w.reported jobId).isSome → ¬ Moves w jobId id .completed
  | .auction (.jobCancelled id) => id ≠ jobId → (w.reported jobId).isSome → ¬ Moves w jobId id .cancelled
  | .settlement (.jobSettled _ id _ _ _ _) => (w.reported jobId).isSome →
      if id = jobId then w.reported jobId = some .completed else ¬ Moves w jobId id .completed
  | _ => True

/-- Each event that is handled meets the condition, if the job is covered. -/
def CarefulFor (hex : Address → String) (jobId : ℕ) (w : Feed) : FeedLabel → Prop
  | .handles _ => jobId ∈ w.covered → ∀ e rest, w.pending = e :: rest → Undisturbed hex jobId w e
  | _ => True

end AuditGuard.Inft
