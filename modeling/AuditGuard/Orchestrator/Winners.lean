import AuditGuard.Orchestrator.Cancellation

/-!
# The orchestrator: is the recorded winner the one on the chain?

A bid that was read from the chain has its place there, and a bid that came as a message has only its place in the
list of bidders, which `winningBidIndices` takes for the other one. That goes wrong when the bids cannot be read, or
when a message comes in after they were. Where the best bid has its place on the chain, and nobody overwrites the
recorded winner before the selection is sent, the selection is of the recorded winner, and only agents that won on the
chain are announced and assigned.
-/

namespace AuditGuard.Orchestrator

open Evm TransitionSystem Routine
open AuditAuction (AuditJob AgentBid sampleEnv sample_run)

/-- Every selection that is being sent is of the recorded winner, by the place of its bid on the chain, and every
winner that is being announced or assigned is one on the chain. -/
structure SelectionsJustified (p : Tasks) : Prop where
  indices : ∀ h jobId recorded winningBidIndices k,
    (h, Routine.await (Request.selectWinners jobId recorded winningBidIndices) k) ∈ p.tasks →
      IndicesSound p.world jobId recorded winningBidIndices
  announced : ∀ h jobId winners k,
    (h, Routine.await (Request.publishAuditLog (.winnerSelected jobId winners)) k) ∈ p.tasks →
      Winners p.world jobId winners
  assigned : ∀ h jobId winner k, (h, Routine.await (Request.taskAssigned jobId winner) k) ∈ p.tasks →
    AssignedSound p.world jobId winner

/-- In the run, the best of the bids that are scored has its place on the chain, and the winners that a job object has
when a selection is sent are those that were selected. -/
def BestBidsPlaced (cfg : Config) (ts : Trace) : Prop :=
  ∀ tr ∈ ts, ∀ notes, tr.label = .run notes →
    (∀ jobId bidders, Note.scoring jobId bidders ∈ notes → ScoringGood cfg bidders) ∧
      ∀ jobId recorded selected, Note.sending jobId recorded selected ∈ notes → recorded = selected

variable {this : Address} {cfg : Config} {p : Tasks} {ts : Trace}

/-- Where the best bids have their places on the chain, the recorded winners are those on the chain. -/
theorem selections_justified (hr : (orchestrator this cfg).system.Run ts p) (hplaced : BestBidsPlaced cfg ts) :
    SelectionsJustified p := by
  let S : Setting := ⟨this, cfg, False, True⟩
  have hlabels : ∀ tr ∈ ts, tr.label.Meets S.rules tr.src := by
    intro tr htr
    cases hlabel : tr.label with
    | run notes =>
      intro n hn
      cases n with
      | readiness => exact False.elim
      | scoring jobId bidders => exact fun _ => (hplaced tr htr notes hlabel).1 jobId bidders hn
      | sending jobId recorded selected => exact fun _ => (hplaced tr htr notes hlabel).2 jobId recorded selected hn
    | _ => trivial
  have hkept := System.run_kept (meets S) hr hlabels
  constructor
  case indices =>
    intro h jobId recorded indices k htask
    obtain ⟨m₀, w₀, t₀, hinv, hlater, -, hallows⟩ := hkept.sent_allowed htask
    have hsound : IndicesSound w₀ jobId recorded indices := hallows trivial
    exact hsound.later ((AuditAuction.Later.keeps hinv.reachable hlater).2 jobId)
  case announced =>
    intro h jobId winners k htask
    obtain ⟨m₀, w₀, t₀, hinv, hlater, -, hallows⟩ := hkept.sent_allowed htask
    have hwinners : Winners w₀ jobId winners := hallows trivial
    exact hwinners.later ((AuditAuction.Later.keeps hinv.reachable hlater).2 jobId)
  case assigned =>
    intro h jobId winner k htask
    obtain ⟨m₀, w₀, t₀, hinv, hlater, -, hallows⟩ := hkept.sent_allowed htask
    have hassigned : AssignedSound w₀ jobId winner := hallows trivial
    exact hassigned.later ((AuditAuction.Later.keeps hinv.reachable hlater).2 jobId)

/-! ## Samples -/

/-- The bids of the agents 2 and 3. -/
def sampleBids : List AgentBid := [
  ⟨2, 1, 100 * 10^8, 50 * 10^8, 5000, 100, "defi", .pending, 1⟩,
  ⟨3, 1, 90 * 10^8, 50 * 10^8, 5000, 100, "defi", .pending, 1⟩]

/-- The message about the bid of agent 3. -/
def sampleMessage : BidMessage where
  agentId := "b"
  jobId := 1
  contractAddress := .address 4
  bidAmount := 90
  collateral := 50
  estimatedTimeSec := 100
  reputation := some 50
  evmAddress := some (.address 3)
  timestamp := 1

/-- The answers to the selection of winners, with what comes of the read of the bids, up to the selection itself. -/
def selectScript (bids : Except String (List AgentBid)) : List (Reply Request Response) := [
  ⟨.getJob 1, .ok (sampleJob 2)⟩,
  ⟨.getBidCount 1, .ok 2⟩,
  ⟨.getJob 1, .ok (sampleJob 2)⟩,
  ⟨.getBidsForJob 1, bids⟩,
  ⟨.publishAuditLog (.other "WINNER_SELECTION_SUMMARY" 1 ""), .ok ()⟩,
  ⟨.ensureOrchestratorOperationalHbar, .ok ()⟩]

/-- A task that is answered from a script. -/
def sampleReplay (script : List (Reply Request Response)) (s : Start) (m : Memory) :
    Replayed Memory Note Start Request Chain Response :=
  replay AuditAuction.sampleWorld 70000 script [] (task sampleConfig s) m

/-- The answer to the announcement of the job. -/
def createdScript : List (Reply Request Response) := [⟨.publishAuditLog (.other "JOB_CREATED" 1 ""), .ok ()⟩]

/-- The job is recorded. -/
def createdReplay : Replayed Memory Note Start Request Chain Response :=
  sampleReplay createdScript (.jobRecorded 1 4 60) Memory.empty

/-- The bid of agent 3 comes as a message. -/
def bidReplay : Replayed Memory Note Start Request Chain Response :=
  sampleReplay [] (.bidSubmitted sampleMessage) createdReplay.mem

/-- What becomes of the selection. -/
def selectReplay (bids : Except String (List AgentBid)) : Replayed Memory Note Start Request Chain Response :=
  sampleReplay (selectScript bids) (.requestWinnerSelection 1 "timer" .none) bidReplay.mem

/-- What the three tasks told. -/
def sampleNotes (bids : Except String (List AgentBid)) : List Note :=
  createdReplay.notes ++ bidReplay.notes ++ (selectReplay bids).notes

/-- Such a note does not stand against `BestBidsPlaced`. -/
def Note.placed (cfg : Config) : Note → Bool
  | .readiness _ => true
  | .scoring _ bidders => (cfg.rank bidders).head?.all fun best => best.1.onChainBidIndex.isSome
  | .sending _ recorded selected => recorded = selected

theorem exists_sampleReplay {w : Chain} {script : List (Reply Request Response)} {s : Start} {q : Tasks}
    (hr : (orchestrator 1 sampleConfig).system.Run ts q) (hw : q.world = w) (hnow : q.now = 70000)
    (hs : triggers w s) (hserves : ∀ reply ∈ script, serves 1 w reply.req reply.answer w) :
    ∃ ts' q', (orchestrator 1 sampleConfig).system.Run (ts ++ ts') q' ∧ q'.world = w ∧ q'.now = 70000 ∧
      q'.mem = (sampleReplay script s q.mem).mem ∧ (∃ h, (h, (sampleReplay script s q.mem).rest) ∈ q'.tasks) ∧
      ∀ tr ∈ ts', ∀ notes, tr.label = .run notes → ∀ n ∈ notes, n ∈ (sampleReplay script s q.mem).notes := by
  obtain ⟨m, w, now, tasks⟩ := q
  subst hw hnow
  obtain ⟨ts', q', hr', hmem, hw', hnow', htask, hsilent⟩ := System.exists_replay hr hs hserves
  obtain ⟨hmem', hrest, hnotes⟩ := replay_world AuditAuction.sampleWorld w 70000 script [] [] (task sampleConfig s) m
  rw [sampleReplay, hmem', hrest, hnotes]
  exact ⟨ts', q', hr', hw', hnow', hmem, ⟨_, htask⟩, fun tr htr => (hsilent tr htr).2.2⟩

theorem selectScript_served {w : Chain} {bids : Except String (List AgentBid)} (hjob : w.state.jobs 1 = sampleJob 2)
    (hcount : (w.state.jobBids 1).length = 2) (hbids : ∀ b, bids = .ok b → b = w.state.jobBids 1) :
    ∀ reply ∈ selectScript bids, serves 1 w reply.req reply.answer w := by
  have hposted : (w.state.jobs 1).jobId ≠ 0 := by
    rw [hjob]
    exact Nat.one_ne_zero
  have hread : serves 1 w (.getJob 1) (.ok (sampleJob 2)) w := by
    refine ⟨rfl, ?_⟩
    rintro job ⟨⟩
    exact ⟨hjob.symm, Nat.one_ne_zero⟩
  intro reply hreply
  simp only [selectScript, List.mem_cons, List.not_mem_nil, or_false] at hreply
  rcases hreply with rfl | rfl | rfl | rfl | rfl | rfl
  · exact hread
  · refine ⟨rfl, ?_⟩
    rintro n ⟨⟩
    exact ⟨hcount.symm, hposted⟩
  · exact hread
  · exact ⟨rfl, fun b hb => ⟨hbids b hb, hposted⟩⟩
  · exact ⟨rfl, nofun⟩
  · exact ⟨rfl, nofun⟩

theorem exists_selectReplay {w : Chain} (bids : Except String (List AgentBid))
    (hw : (AuditAuction.contract 1).system.Reachable w) (hjob : w.state.jobs 1 = sampleJob 2)
    (hcount : (w.state.jobBids 1).length = 2) (hbids : ∀ b, bids = .ok b → b = w.state.jobBids 1) :
    ∃ ts p, (orchestrator 1 sampleConfig).system.Run ts p ∧ p.world = w ∧
      (∃ h, (h, (selectReplay bids).rest) ∈ p.tasks) ∧
      ∀ tr ∈ ts, ∀ notes, tr.label = .run notes → ∀ n ∈ notes, n ∈ sampleNotes bids := by
  have hcreated : ∀ reply ∈ createdScript, serves 1 w reply.req reply.answer w := by
    intro reply hreply
    rw [List.mem_singleton.mp hreply]
    exact ⟨rfl, nofun⟩
  have hposted : triggers w (.jobRecorded 1 4 60) := by
    rw [triggers, hjob]
    exact Nat.one_ne_zero
  obtain ⟨ts₁, p₁, hr₁, hw₁, hnow₁, hmem₁, -, hnotes₁⟩ :=
    exists_sampleReplay (initial_run sampleConfig hw 70000) rfl rfl hposted hcreated
  obtain ⟨ts₂, p₂, hr₂, hw₂, hnow₂, hmem₂, -, hnotes₂⟩ :=
    exists_sampleReplay hr₁ hw₁ hnow₁ (show triggers w (.bidSubmitted sampleMessage) from trivial)
      (show ∀ reply ∈ ([] : List (Reply Request Response)), _ from nofun)
  obtain ⟨ts₃, p₃, hr₃, hw₃, -, -, htask, hnotes₃⟩ :=
    exists_sampleReplay hr₂ hw₂ hnow₂ (show triggers w (.requestWinnerSelection 1 "timer" .none) from rfl)
      (selectScript_served hjob hcount hbids)
  rw [hmem₁] at hmem₂ hnotes₂
  rw [hmem₂] at htask hnotes₃
  refine ⟨_, p₃, hr₃, hw₃, htask, ?_⟩
  intro tr htr notes hlabel n hn
  simp only [List.nil_append, List.mem_append] at htr
  rcases htr with (htr | htr) | htr
  · exact List.mem_append_left _ (List.mem_append_left _ (hnotes₁ tr htr notes hlabel n hn))
  · exact List.mem_append_left _ (List.mem_append_right _ (hnotes₂ tr htr notes hlabel n hn))
  · exact List.mem_append_right _ (hnotes₃ tr htr notes hlabel n hn)

theorem exists_sampleAuction : ∃ w, (AuditAuction.contract 1).system.Reachable w ∧ w.state.jobs 1 = sampleJob 2 ∧
    w.state.jobBids 1 = sampleBids := by
  obtain ⟨_, w, hcalls, hr, -⟩ := sample_run [
    (sampleEnv 5 0, .createAuditJob 4 "hedera" "token" 10 (200 * 10^8) 100 60),
    (sampleEnv 2 1, .submitBid 1 (100 * 10^8) (50 * 10^8) 100 "defi"),
    (sampleEnv 3 1, .submitBid 1 (90 * 10^8) (50 * 10^8) 100 "defi")] (by decide) rfl
  have hjob := read_ok hcalls (fun w => w.state.jobs 1) (b := sampleJob 2) (by decide +kernel)
  have hbids := read_ok hcalls (fun w => w.state.jobBids 1) (b := sampleBids) (by decide +kernel)
  exact ⟨w, hr.reachable, hjob, hbids⟩

/-- The bids cannot be read, and the place of the one bid that came as a message is taken for its place on the
chain, where another agent's bid is. -/
theorem selects_another : ¬ ∀ (this : Address) (cfg : Config) (ts : Trace) (p : Tasks),
    (orchestrator this cfg).system.Run ts p → SelectionsJustified p := by
  intro hall
  obtain ⟨w, hw, hjob, hbids⟩ := exists_sampleAuction
  have hcount : (w.state.jobBids 1).length = 2 := by
    rw [hbids]
    rfl
  obtain ⟨ts, p, hr, hworld, ⟨h, htask⟩, -⟩ := exists_selectReplay (.error "timeout") hw hjob hcount nofun
  have hasks : (selectReplay (.error "timeout")).rest.asks = some (Request.selectWinners 1 [.address 3] [0]) := by
    decide +kernel
  obtain ⟨k, hk⟩ := exists_await hasks
  rw [hk] at htask
  obtain ⟨a, i, hrecorded, hindex, ha⟩ := (hall _ _ _ _ hr).indices _ 1 _ _ k htask
  obtain rfl : 3 = a := by simpa using hrecorded
  obtain rfl : 0 = i := by simpa using hindex
  rw [hworld, agents, hbids] at ha
  revert ha
  decide

/-- The bids are read, and the recorded winner is selected. -/
theorem selections_justified_sample : ∃ ts p, (orchestrator 1 sampleConfig).system.Run ts p ∧
    SelectionsJustified p ∧
      ∃ h k, (h, Routine.await (Request.selectWinners 1 [.address 2] [0]) k) ∈ p.tasks := by
  obtain ⟨w, hw, hjob, hbids⟩ := exists_sampleAuction
  have hcount : (w.state.jobBids 1).length = 2 := by
    rw [hbids]
    rfl
  have hread : ∀ b, (.ok sampleBids : Except String (List AgentBid)) = .ok b → b = w.state.jobBids 1 := by
    rintro b ⟨⟩
    exact hbids.symm
  obtain ⟨ts, p, hr, -, ⟨h, htask⟩, hnotes⟩ := exists_selectReplay (.ok sampleBids) hw hjob hcount hread
  have hasks : (selectReplay (.ok sampleBids)).rest.asks = some (Request.selectWinners 1 [.address 2] [0]) := by
    decide +kernel
  obtain ⟨k, hk⟩ := exists_await hasks
  rw [hk] at htask
  refine ⟨ts, p, hr, selections_justified hr ?_, _, k, htask⟩
  have hplaced : ∀ n ∈ sampleNotes (.ok sampleBids), n.placed sampleConfig = true := by decide +kernel
  intro tr htr notes hlabel
  refine ⟨fun jobId bidders hscoring => ?_, fun jobId recorded selected hsending => ?_⟩
  · have hhead := hplaced _ (hnotes tr htr notes hlabel _ hscoring)
    intro best hbest
    rw [Note.placed, hbest] at hhead
    exact Option.isSome_iff_ne_none.mp hhead
  · exact of_decide_eq_true (hplaced _ (hnotes tr htr notes hlabel _ hsending))

end AuditGuard.Orchestrator
