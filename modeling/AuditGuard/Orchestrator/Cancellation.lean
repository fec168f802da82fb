import AuditGuard.Library.Replay
import AuditGuard.Orchestrator.Selecting

/-!
# The orchestrator: every task keeps to the rules

The reconciliation, the startup and the handlers, and with them the pool as a whole (`meets`): in every run, the
invariant holds and every request that was sent was allowed.

## The orchestrator: are auctions with bids cancelled?

A readiness check takes a failed count of the bids for a count of zero, and where the job cannot be read it goes by
the deadline of the local job, which may be earlier than the one on the chain.
-/

namespace AuditGuard.Orchestrator

section

open Evm TransitionSystem Routine
open AuditAuction (Later Keeps AuditJob AgentBid JobStatus)

variable {S : Setting} {P : Setting.Fact} {key v : ℕ}

/-! ## Reconciliation -/

theorem stays_activeJobIds (hP : S.Steady P) : S.Stays P activeJobIds :=
  .tryCatch (stays_call hP fun _ _ _ => trivial) fun _ => Stays.bind Stays.memory fun _ => Stays.pure _

theorem steady_now (now : ℕ) : S.Steady fun _ _ t => now ≤ t :=
  fun _ _ _ _ _ _ _ _ hle ha => hle.trans (ha.before.trans ha.after)

theorem Setting.weaken {α : Type} {x : Async α} {F : Setting.Fact} (hx : S.Stays (fun h w t => P h w t ∧ F h w t) x) :
    S.Triple (fun h w t => P h w t ∧ F h w t) x (fun _ => P) (fun _ => P) :=
  hx.mono (fun _ _ _ => id) (fun _ _ _ _ hp => hp.1) (fun _ _ _ _ hp => hp.1)

theorem JobSound.markSkipTerminal {w : Chain} {job : Job} (hjob : JobSound w key job)
    (hover : (w.state.jobs key).status ≠ .auctionOpen) : JobSound w key job.markSkipTerminal :=
  ⟨hjob.cancelled, fun _ => .inr ⟨.inr rfl, hover⟩, hjob.deadline⟩

theorem stays_reconcileClose (hP : S.Steady P) (nowMs : ℕ) (hclose : ∀ h w t, P h w t → MayClose S.close key h w t) :
    S.Stays P (reconcileClose S.cfg nowMs key) := by
  refine .tryCatch (.bind (stays_closeExpiredAuction hP hclose _) fun closed => ?_) fun _ => stays_setCooldown _ _
  exact Triple.ite (fun _ => stays_setCooldown _ _) fun _ => stays_deleteCooldown

theorem stays_reconcileSelect (nowMs closeAttempts selectAttempts : ℕ) {hint : ReadinessHint}
    (hhint : ∀ h w t, P h w t → HintSound w key hint) :
    S.Stays P (reconcileSelect S.cfg nowMs key closeAttempts selectAttempts hint) := by
  refine Triple.ite (fun _ => .bind (stays_setCooldown _ _) fun _ => Stays.pure _) fun _ => ?_
  refine .bind (Triple.spawn fun h w t hp => .inr (hhint h w t hp)) fun _ => ?_
  exact .bind stays_deleteCooldown fun _ => Stays.pure _

/-- The reconciliation of one job. -/
theorem stays_reconcileJob (hP : S.Steady P) {nowMs : ℕ} (hnow : ∀ h w t, P h w t → nowMs ≤ t) (v : Option ℕ)
    (closeAttempts selectAttempts : ℕ) :
    S.Stays P (reconcileJob S.cfg nowMs key v closeAttempts selectAttempts) := by
  have hcatch : S.Stays P (do
      setCooldown S.cfg key nowMs
      pure (closeAttempts, selectAttempts)) := .bind (stays_setCooldown _ _) fun _ => Stays.pure _
  refine .tryCatch (Triple.bind (triple_getJob hP) fun chainJob => ?_) fun _ => hcatch
  have hsteady : S.Steady fun h w t => P h w t ∧ JobRead key chainJob w := hP.and (steady_jobRead chainJob)
  refine Triple.ite (fun hstatus => Setting.weaken ?_) fun _ =>
    Triple.ite (fun _ => Setting.weaken (Stays.pure _)) fun hexpired => ?_
  · cases v with
    | none => exact Stays.pure _
    | some v =>
      refine .bind (stays_writeJob fun h w t job hp hjob => ?_) fun _ => Stays.pure _
      exact hjob.markSkipTerminal (hp.2.2.2.1 hstatus)
  · refine Triple.bind ((triple_getOnChainBidCount hsteady).mono (fun _ _ _ => id) (fun _ _ _ _ => id)
      fun _ _ _ _ hp => hp.1) fun n => ?_
    have hsteady' : S.Steady fun h w t => (P h w t ∧ JobRead key chainJob w) ∧ CountRead key n h w t :=
      hsteady.and (steady_countRead n)
    refine Triple.ite (fun hpos => ?_) fun hzero => ?_
    · refine (stays_reconcileSelect nowMs closeAttempts selectAttempts ?_).mono (fun _ _ _ => id)
        (fun _ _ _ _ hp => hp.1.1) (fun _ _ _ _ hp => hp.1.1)
      exact fun h w t hp => ⟨hp.2.1, n, rfl, hpos, hp.2.2.1⟩
    · -- The bids were counted, and the deadline was read.
      have hclose : ∀ h w t, (P h w t ∧ JobRead key chainJob w) ∧ CountRead key n h w t →
          MayClose S.close key h w t := by
        rintro h w t ⟨⟨hp, hjob⟩, hcount⟩
        refine ⟨hcount.1, fun _ => ⟨hcount.2.2 (by omega), ?_⟩⟩
        have hdeadline := hjob.2.1
        have hle := Nat.div_le_div_right (c := 1000) (hnow h w t hp)
        unfold DeadlinePassed
        omega
      have hrest : S.Stays _ (do
          reconcileClose S.cfg nowMs key
          pure (closeAttempts + 1, selectAttempts)) :=
        .bind (stays_reconcileClose hsteady' nowMs hclose) fun _ => Stays.pure _
      exact hrest.mono (fun _ _ _ => id) (fun _ _ _ _ hp => hp.1.1) (fun _ _ _ _ hp => hp.1.1)

theorem stays_reconcileJobs (hP : S.Steady P) {nowMs : ℕ} (hnow : ∀ h w t, P h w t → nowMs ≤ t) (keys : List ℕ)
    (closeAttempts selectAttempts : ℕ) : S.Stays P (reconcileJobs S.cfg nowMs keys closeAttempts selectAttempts) := by
  induction keys generalizing closeAttempts selectAttempts with
  | nil => exact Stays.pure _
  | cons key keys ih =>
    refine Triple.ite (fun _ => Stays.pure _) fun _ => Stays.bind Stays.memory fun m => ?_
    refine Triple.ite (fun _ => ih _ _) fun _ => ?_
    exact .bind (stays_reconcileJob hP hnow _ _ _) fun attempts => ih _ _

theorem stays_reconcileInner (hP : S.Steady P) : S.Stays P (reconcileExpiredActiveAuctionsInner S.cfg) := by
  refine .bind (stays_activeJobIds hP) fun activeIds => ?_
  refine Triple.bind (Triple.time (Q := fun now h w t => P h w t ∧ now ≤ t) fun _ _ t hp => ⟨hp, Nat.le_refl t⟩)
    fun nowMs => Setting.weaken ?_
  refine Triple.ite (fun _ => Stays.pure _) fun _ => Stays.bind Stays.memory fun m => ?_
  refine .bind (stays_modify fun _ _ _ _ hinv _ => hinv.congr rfl rfl) fun _ => ?_
  exact stays_reconcileJobs (hP.and (steady_now nowMs)) (fun _ _ _ hp => hp.2) _ _ _

theorem stays_reconcile (hP : S.Steady P) : S.Stays P (reconcileExpiredActiveAuctions S.cfg) := by
  refine Stays.bind Stays.memory fun m => Triple.ite (fun _ => Stays.pure _) fun _ => ?_
  exact stays_bracket (stays_reconcileInner hP) (fun _ _ hinv => hinv.congr rfl rfl)
    fun _ _ hinv => hinv.congr rfl rfl

/-! ## Startup -/

theorem Inv.jobOrBlank {this : Address} {m : Memory} {w : Chain} (hm : Inv this m w) (key : ℕ) :
    JobSound w key (m.jobOrBlank key) := by
  unfold Memory.jobOrBlank
  split
  · exact hm.jobs key _
  · exact JobSound.blank _ _ _ _

theorem stays_bootstrapJobs (hP : S.Steady P) (nowSec : ℕ) (keys : List ℕ) (scheduled : ℕ) :
    S.Stays P (bootstrapJobs S.cfg nowSec keys scheduled) := by
  induction keys generalizing scheduled with
  | nil => exact Stays.pure _
  | cons key keys ih =>
    refine Triple.ite (fun _ => Stays.pure _) fun _ => ?_
    refine Triple.bind (triple_attemptJob hP) fun chainJob => ?_
    cases chainJob with
    | none => exact (ih scheduled).pre fun _ _ _ hp => hp.1
    | some chainJob =>
      refine Triple.ite (fun _ => (ih scheduled).pre fun _ _ _ hp => hp.1) fun _ => ?_
      refine Triple.bind (Triple.modify fun h m w t hinv hp => ?_) fun _ => ?_
      · have hposted := hp.2 (Option.some_ne_none _)
        have hbase := hinv.jobOrBlank key
        refine Inv.setJobByKey (Inv.create hinv ?_) _ _
        exact hbase.setDeadline hposted rfl rfl rfl rfl
      · refine Triple.bind (Q := fun _ => P) ?_ fun _ => ih (scheduled + 1)
        refine Setting.weaken (stays_scheduleWinnerSelection _ fun h w t hp => ?_)
        exact hp.2 (Option.some_ne_none _)

theorem stays_bootstrap (hP : S.Steady P) : S.Stays P (bootstrapWinnerSelectionFromActiveJobs S.cfg) :=
  .bind (stays_activeJobIds hP) fun _ => .bind .time fun _ => stays_bootstrapJobs hP _ _ _

/-! ## Handlers -/

theorem stays_handleBidSubmitted (msg : BidMessage) : S.Stays P (handleBidSubmitted S.cfg msg) := by
  refine Stays.bind Stays.memory fun m => ?_
  dsimp only
  split
  · exact Stays.pure _
  · refine Triple.ite (fun _ => Stays.pure _) fun _ => Triple.ite (fun _ => Stays.pure _) fun _ => ?_
    refine Triple.ite (fun _ => Stays.pure _) fun _ => Triple.ite (fun _ => ?_) fun _ => ?_
    · exact Triple.spawn fun _ _ _ _ => trivial
    · refine .bind (stays_modify fun _ _ _ _ hinv _ => hinv.pushBid rfl) fun _ => ?_
      exact stays_writeJob fun _ _ _ _ _ hjob => hjob.congr rfl rfl rfl rfl rfl

theorem stays_handleWinnersSelected {winners : List Address}
    (hwinners : ∀ h w t, P h w t → Winners w key winners) : S.Stays P (handleWinnersSelected key winners) := by
  refine Stays.bind Stays.memory fun m => ?_
  split
  · exact Stays.pure _
  · refine .bind (stays_modify fun _ _ _ _ hinv _ => hinv.update fun _ hjob => ?_) fun _ => ?_
    · exact hjob.congr rfl rfl rfl rfl rfl
    · refine Triple.ite (fun _ => Stays.pure _) fun _ => Triple.spawn fun h w t hp _ a ha => ?_
      exact hwinners h w t hp a (List.mem_dedup.mp ha)

theorem stays_handleJobCancelled (reason : String)
    (hstatus : ∀ h w t, P h w t → (w.state.jobs key).status = .cancelled) :
    S.Stays P (handleJobCancelled key reason) := by
  refine Stays.bind Stays.memory fun m => ?_
  split
  · exact Stays.pure _
  · refine .bind (stays_writeJob fun h w t _ hp hjob => hjob.markCancelled (hstatus h w t hp) reason) fun _ => ?_
    exact Triple.spawn fun _ _ _ _ => trivial

theorem stays_recordJob (hP : S.Steady P) (contractAddress : Address) (deadline : ℕ)
    (hposted : ∀ h w t, P h w t → (w.state.jobs key).jobId ≠ 0) :
    S.Stays P (recordJob key contractAddress deadline) := by
  refine .bind (stays_modify fun h m w t hinv hp => ?_) fun _ => ?_
  · have hblank := JobSound.blank w key none 0
    refine Inv.setJobByKey (Inv.create hinv ?_) _ _
    exact hblank.setDeadline (hposted h w t hp) rfl rfl rfl rfl
  · exact .bind (stays_ignore (stays_publish hP _ _)) fun _ => stays_scheduleWinnerSelection _ hposted

theorem stays_jobAtHand : S.Stays P (jobAtHand key) := by
  refine Stays.bind Stays.memory fun m => ?_
  split
  · exact Stays.pure _
  · refine .bind (stays_modify fun _ _ _ _ hinv _ => ?_) fun _ => Stays.pure _
    exact hinv.create (JobSound.blank _ _ _ _)

theorem stays_handleFindings (contractAddress : Option Address) : S.Stays P (handleFindings key contractAddress) :=
  .bind stays_jobAtHand fun _ => stays_writeJob fun _ _ _ _ _ hjob => hjob.congr rfl rfl rfl rfl rfl

theorem stays_handleReportPublished (hP : S.Steady P) : S.Stays P (handleReportPublished key) := by
  refine .bind stays_jobAtHand fun v => ?_
  have hhydrate : S.Stays P (hydrateReportMetadataFromChain key v) := by
    refine stays_ignore (Triple.bind (triple_getJob hP) fun chainJob => Setting.weaken ?_)
    exact stays_writeJob fun _ _ _ _ _ hjob => hjob.congr rfl rfl rfl rfl rfl
  refine .bind hhydrate fun _ => Stays.bind Stays.memory fun m => Triple.ite (fun _ => Stays.pure _) fun _ => ?_
  refine .bind (stays_writeJob fun _ _ _ _ _ hjob => hjob.congr rfl rfl rfl rfl rfl) fun _ => ?_
  refine .bind (stays_publish hP _ _) fun _ => Stays.bind Stays.memory fun m => ?_
  have hsettle : S.Stays P (do
      if (← call (Request.settleAll key)) = true then writeJob key v id) := by
    refine .bind (stays_call hP fun _ _ _ => trivial) fun written => ?_
    exact Triple.ite (fun _ => stays_writeJob fun _ _ _ _ _ => id) fun _ => Stays.pure _
  split_ifs
  · exact .bind (Triple.spawn fun _ _ _ _ => .inl rfl) fun _ => hsettle
  · exact hsettle

/-! ## The pool -/

theorem steady_may (s : Start) : S.Steady fun _ w _ => may S.select w s :=
  steady_chain fun _ _ hf hk => may_later hf hk

theorem stays_task (s : Start) : S.Stays (fun _ w _ => may S.select w s) (task S.cfg s) := by
  have hsteady := steady_may (S := S) s
  cases s with
  | requestWinnerSelection key sourcePath hint =>
    exact stays_requestWinnerSelection hsteady sourcePath hint fun _ _ _ hs => hs
  | reconcileExpiredActiveAuctions => exact stays_reconcile hsteady
  | bootstrapWinnerSelectionFromActiveJobs => exact stays_bootstrap hsteady
  | winnersSelected key winners => exact stays_handleWinnersSelected fun _ _ _ hs => hs
  | jobCancelled key reason => exact stays_handleJobCancelled reason fun _ _ _ hs => hs
  | bidSubmitted message => exact stays_handleBidSubmitted message
  | jobRecorded key contractAddress deadline =>
    exact stays_recordJob hsteady contractAddress deadline fun _ _ _ hs => hs
  | findings key contractAddress => exact stays_handleFindings contractAddress
  | reportPublished key => exact stays_handleReportPublished hsteady
  | agentRegistered roster => exact stays_modify fun _ _ _ _ hinv _ => hinv.congr rfl rfl
  | publishAuditLog message =>
    refine stays_ignore (Stays.call hsteady fun h m w t _ hs => ?_)
    cases message with
    | winnerSelected => exact hs
    | other => trivial
  | taskAssigned key winner => exact stays_ignore (Stays.call hsteady fun h m w t _ hs => hs)

theorem meets (S : Setting) : Routine.Meets S.system S.rules where
  initial m w h := by
    obtain ⟨rfl, hreachable⟩ := h
    exact .empty hreachable
  inv_later m w w' hinv hw := hinv.later hw
  may_later h m w t s w' t' hinv hs hw ht :=
    may_later hs (Later.keeps (show (AuditAuction.contract S.this).system.Reachable w from hinv.reachable) hw).2
  triggered w t s hs := may_of_triggers hs
  body s h m w t hs hinv _ := (stays_task s).sat hinv hs

end

section

open Evm TransitionSystem Routine
open AuditAuction (AuditJob sampleEnv sample_run)

/-- Every cancellation that is being sent is of a job whose bids were read, when there were none, and whose deadline
has passed. -/
def CancelsJustified (p : Tasks) : Prop :=
  ∀ h jobId k, (h, Routine.await (Request.cancelJob jobId) k) ∈ p.tasks →
    EmptyRead h jobId ∧ DeadlinePassed p.world jobId p.now

/-- The readiness checks of a run that find no bids have read their number, and those that go by the deadline of the
local job go by one that is not before the one on the chain. -/
def ReadinessChecked (ts : Trace) : Prop :=
  ∀ tr ∈ ts, ∀ notes, tr.label = .run notes →
    ∀ inputs, Note.readiness inputs ∈ notes → ReadinessGood tr.src.world inputs

variable {this : Address} {cfg : Config} {p : Tasks} {ts : Trace}

/-- Where the readiness checks are sound, auctions with bids are not cancelled. -/
theorem cancels_justified (hr : (orchestrator this cfg).system.Run ts p) (hchecked : ReadinessChecked ts) :
    CancelsJustified p := by
  let S : Setting := ⟨this, cfg, True, False⟩
  have hlabels : ∀ tr ∈ ts, tr.label.Meets S.rules tr.src := by
    intro tr htr
    cases hlabel : tr.label with
    | run notes =>
      intro n hn
      cases n with
      | readiness inputs => exact fun _ => hchecked tr htr notes hlabel inputs hn
      | scoring => exact False.elim
      | sending => exact False.elim
    | _ => trivial
  have hkept := System.run_kept (meets S) hr hlabels
  intro h jobId k htask
  obtain ⟨m₀, w₀, t₀, hinv, hlater, ht, hallows⟩ := hkept.sent_allowed htask
  obtain ⟨-, hkeeps⟩ := AuditAuction.Later.keeps hinv.reachable hlater
  have hmay : MayClose True jobId h p.world p.now :=
    MayClose.later hallows (hkeeps jobId) ht fun e he => he
  exact hmay.2 trivial

/-! ## Samples -/

/-- A configuration that takes bids in their order. -/
def sampleConfig : Config where
  auctionCloseSingleflightEnabled := true
  rehydrateMissingJobForSelection := true
  winnerSelectionStartupBackfillMaxJobs := 10
  staleAuctionReconcileMaxPerCycle := 10
  staleAuctionReconcileMaxSelectsPerCycle := 10
  staleAuctionReconcileMaxInspectPerCycle := 10
  staleAuctionReconcileFailureCooldownMs := 60000
  minStake := 0
  rank bids := bids.zipIdx
  rank_perm _ := List.Perm.refl _

/-- A job with a deadline after a minute, and with so many bids. -/
def sampleJob (bidCount : ℕ) : AuditJob where
  jobId := 1
  contractAddress := 4
  contractChain := "hedera"
  discoveryTimestamp := 0
  auctionDeadline := 60
  initialRiskScore := 10
  budgetAvailable := 200 * 10^8
  lineCount := 100
  contractType := "token"
  status := .auctionOpen
  winningAgents := []
  totalEscrowedAmount := 0
  bidCount := bidCount

theorem initial_run (cfg : Config) {w : Chain} (hw : (AuditAuction.contract this).system.Reachable w) (now : ℕ) :
    (orchestrator this cfg).system.Run [] ⟨Memory.empty, w, now, []⟩ := .init ⟨⟨rfl, hw⟩, rfl⟩

/-- The answers to the selection of winners for an expired job, up to its cancellation. -/
def cancelScript (bidCount : ℕ) (count : Except String ℕ) : List (Reply Request Response) := [
  ⟨.getJob 1, .ok (sampleJob bidCount)⟩,
  ⟨.getBidCount 1, count⟩,
  ⟨.publishAuditLog (.other "WINNER_SELECTION_DEFERRED" 1 "no_onchain_bids"), .ok ()⟩,
  ⟨.ensureOrchestratorOperationalHbar, .ok ()⟩]

/-- What becomes of that selection. -/
def cancelReplay (w : Chain) (bidCount : ℕ) (count : Except String ℕ) :
    Replayed Memory Note Start Request Chain Response :=
  replay w 70000 (cancelScript bidCount count) [] (requestWinnerSelection sampleConfig 1 "timer" .none) Memory.empty

theorem exists_cancelReplay {w : Chain} {bidCount : ℕ} (count : Except String ℕ)
    (hw : (AuditAuction.contract 1).system.Reachable w) (hjob : w.state.jobs 1 = sampleJob bidCount)
    (hcount : ∀ n, count = .ok n → n = (w.state.jobBids 1).length) :
    ∃ ts p, (orchestrator 1 sampleConfig).system.Run ts p ∧
      ((cancelReplay w bidCount count).history, (cancelReplay w bidCount count).rest) ∈ p.tasks ∧
      Silent ⟨Memory.empty, w, 70000, []⟩ (cancelReplay w bidCount count).notes ts := by
  have hserves : ∀ reply ∈ cancelScript bidCount count,
      (orchestrator 1 sampleConfig).serves 70000 w reply.req reply.answer w := by
    intro reply hreply
    simp only [cancelScript, List.mem_cons, List.not_mem_nil, or_false] at hreply
    rcases hreply with rfl | rfl | rfl | rfl
    · refine ⟨rfl, ?_⟩
      rintro job ⟨⟩
      exact ⟨hjob.symm, Nat.one_ne_zero⟩
    · refine ⟨rfl, fun n hn => ⟨hcount n hn, ?_⟩⟩
      rw [hjob]
      exact Nat.one_ne_zero
    · exact ⟨rfl, nofun⟩
    · exact ⟨rfl, nofun⟩
  have hs : (orchestrator 1 sampleConfig).triggers w (.requestWinnerSelection 1 "timer" .none) :=
    show ReadinessHint.none = .none from rfl
  obtain ⟨ts, p, hr, -, -, -, htask, hsilent⟩ :=
    System.exists_replay (initial_run sampleConfig hw 70000) hs hserves
  exact ⟨ts, p, hr, htask, hsilent⟩

/-- The number of bids cannot be read, and the job is cancelled, although it has a bid. -/
theorem cancels_with_bids : ¬ ∀ (this : Address) (cfg : Config) (ts : Trace) (p : Tasks),
    (orchestrator this cfg).system.Run ts p → CancelsJustified p := by
  intro hall
  obtain ⟨_, w, hcalls, hr, -⟩ := sample_run [
    (sampleEnv 5 0, .createAuditJob 4 "hedera" "token" 10 (200 * 10^8) 100 60),
    (sampleEnv 2 1, .submitBid 1 (100 * 10^8) (50 * 10^8) 100 "defi")] (by decide) rfl
  have hjob := read_ok hcalls (fun w => w.state.jobs 1) (b := sampleJob 1) (by decide +kernel)
  have hbids := read_ok hcalls (fun w => (w.state.jobBids 1).length) (b := 1) (by decide +kernel)
  obtain ⟨ts, p, hr', htask, -⟩ := exists_cancelReplay (.error "timeout") hr.reachable hjob nofun
  have hsent : ∃ k, (cancelReplay w 1 (.error "timeout")).rest = .await (Request.cancelJob 1) k := ⟨_, rfl⟩
  obtain ⟨k, hk⟩ := hsent
  rw [hk] at htask
  obtain ⟨⟨e, he, -, hempty⟩, -⟩ := hall _ _ _ _ hr' _ 1 k htask
  rcases replay_history e he with he | hsrc
  · cases he
  · rw [hsrc] at hempty
    rw [hempty] at hbids
    cases hbids

/-- The number of bids is read, and the job is cancelled without any. -/
theorem cancels_justified_sample : ∃ ts p, (orchestrator 1 sampleConfig).system.Run ts p ∧ CancelsJustified p ∧
    ∃ h k, (h, Routine.await (Request.cancelJob 1) k) ∈ p.tasks := by
  obtain ⟨_, w, hcalls, hr, -⟩ := sample_run [
    (sampleEnv 5 0, .createAuditJob 4 "hedera" "token" 10 (200 * 10^8) 100 60)] (by decide) rfl
  have hjob := read_ok hcalls (fun w => w.state.jobs 1) (b := sampleJob 0) (by decide +kernel)
  have hbids := read_ok hcalls (fun w => (w.state.jobBids 1).length) (b := 0) (by decide +kernel)
  have hcount : ∀ n, (.ok 0 : Except String ℕ) = .ok n → n = (w.state.jobBids 1).length := by
    rintro n ⟨⟩
    exact hbids.symm
  obtain ⟨ts, p, hr', htask, hsilent⟩ := exists_cancelReplay _ hr.reachable hjob hcount
  have hsent : ∃ k, (cancelReplay w 0 (.ok 0)).rest = .await (Request.cancelJob 1) k := ⟨_, rfl⟩
  obtain ⟨k, hk⟩ := hsent
  rw [hk] at htask
  have hnotes : (cancelReplay w 0 (.ok 0)).notes =
      [.readiness ⟨1, false, some (sampleJob 0), .none, none, 70, some 0⟩] := rfl
  refine ⟨ts, p, hr', cancels_justified hr' ?_, _, k, htask⟩
  intro tr htr notes hlabel inputs hinputs
  have htold := (hsilent tr htr).2.2 notes hlabel _ hinputs
  rw [hnotes, List.mem_singleton] at htold
  cases htold
  exact fun _ => ⟨nofun, fun _ => nofun⟩

end

end AuditGuard.Orchestrator
