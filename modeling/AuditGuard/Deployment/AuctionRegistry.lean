import AuditGuard.Library.Composition
import AuditGuard.AuditAuction.System
import AuditGuard.AgentRegistry.Effects

/-!
# AuditAuction and AgentRegistry: what arrives in the registry

The auction reports to the registry under `try`, so that a report that the registry refuses goes by without a
trace but an event. The registry takes a completed job from its orchestrator or its auction, and a slash from
its orchestrator only. The auction is not the orchestrator: no slash arrives, and a completed job does if the
registry has no other reason to refuse it.
-/

namespace AuditGuard.Deployment

open Evm TransitionSystem

/-! ## The registry's part -/

section Registry

open AgentRegistry

/-- The registry can record a completed job: it is not paused, it knows the agent, and no counter, weight or
sum leaves its type. -/
structure Recordable (s : State) (agent : Address) (validFindings falsePos falseNeg : ℕ) : Prop where
  unpaused : s.paused = false
  registered : (s.agents agent).agentAddress ≠ 0
  jobs : (s.agents agent).completedJobs + 1 < 2^256
  findings : (s.agents agent).successfulFindings + validFindings < 2^256
  positives : (s.agents agent).falsePositives + falsePos < 2^256
  negatives : (s.agents agent).falseNegatives + falseNeg < 2^256
  weights : validFindings * 50 < 2^256 ∧ falsePos * 100 < 2^256 ∧ falseNeg * 200 < 2^256
  difference : -2^(256 - 1) ≤ toSigned 256 (validFindings * 50) - toSigned 256 (falsePos * 100) ∧
    toSigned 256 (validFindings * 50) - toSigned 256 (falsePos * 100) < 2^(256 - 1)
  delta : -2^(256 - 1) ≤ toSigned 256 (validFindings * 50) - toSigned 256 (falsePos * 100) -
      toSigned 256 (falseNeg * 200) ∧
    toSigned 256 (validFindings * 50) - toSigned 256 (falsePos * 100) -
      toSigned 256 (falseNeg * 200) < 2^(256 - 1)
  score : -2^(256 - 1) ≤ toSigned 256 (s.agents agent).reputationScore +
      (toSigned 256 (validFindings * 50) - toSigned 256 (falsePos * 100) -
        toSigned 256 (falseNeg * 200)) ∧
    toSigned 256 (s.agents agent).reputationScore +
      (toSigned 256 (validFindings * 50) - toSigned 256 (falsePos * 100) -
        toSigned 256 (falseNeg * 200)) < 2^(256 - 1)

/-- The findings are added to the agent's counters, once. -/
structure FindingsAdded (agent : Address) (validFindings falsePos falseNeg : ℕ) (s s' : State) : Prop where
  findings : (s'.agents agent).successfulFindings = (s.agents agent).successfulFindings + validFindings
  positives : (s'.agents agent).falsePositives = (s.agents agent).falsePositives + falsePos
  negatives : (s'.agents agent).falseNegatives = (s.agents agent).falseNegatives + falseNeg

/-- The slash is taken from the agent's stake, and a slash of the whole stake leaves the agent slashed. -/
structure StakeSlashed (agent : Address) (slashBasisPoints : ℕ) (s s' : State) : Prop where
  stake : (s'.agents agent).stakedAmount + (s.agents agent).stakedAmount * slashBasisPoints / 10000 =
    (s.agents agent).stakedAmount
  status : slashBasisPoints = 10000 → (s'.agents agent).status = .slashed

variable {env : Env} {s s' : State} {agent : Address} {validFindings falsePos falseNeg : ℕ}

theorem recordable_of_ok (h : recordJobCompletion env agent validFindings falsePos falseNeg s = .ok s') :
    Recordable s agent validFindings falsePos falseNeg ∧
      FindingsAdded agent validFindings falsePos falseNeg s s' := by
  simp only [recordJobCompletion, applyReputationDelta, getExistingProfile, bind_eq_ok, require_eq_ok,
    modifier_eq_ok, checkedAdd_eq_ok, checkedMul_eq_ok, checkedSubInt_eq_ok, checkedAddInt_eq_ok,
    pure_eq_ok] at h
  obtain ⟨_, -, _, hunpaused, _, ⟨_, hregistered, rfl⟩, _, ⟨hjobs, rfl⟩, _, ⟨hfindings, rfl⟩, _,
    ⟨hpositives, rfl⟩, _, ⟨hnegatives, rfl⟩, _, ⟨hvalid, rfl⟩, _, ⟨hpositive, rfl⟩, _, ⟨hnegative, rfl⟩,
    _, ⟨hdifference, rfl⟩, _, ⟨hdelta, rfl⟩, s₁, ⟨_, ⟨_, -, rfl⟩, _, ⟨hscore, rfl⟩, rfl⟩, rfl⟩ := h
  simp only [State.setProfile_agents, Function.update_self] at hscore
  refine ⟨⟨hunpaused, hregistered, hjobs, hfindings, hpositives, hnegatives,
    ⟨hvalid, hpositive, hnegative⟩, hdifference, hdelta, hscore⟩, ?_⟩
  constructor <;> simp only [State.emit_agents, State.setProfile_agents, Function.update_self]

theorem Recordable.succeeds (env : Env) (h : Recordable s agent validFindings falsePos falseNeg)
    (hsender : env.sender = s.auctionContract) :
    ∃ s', recordJobCompletion env agent validFindings falsePos falseNeg s = .ok s' := by
  simp only [recordJobCompletion, onlyOrchestratorOrAuction, applyReputationDelta, getExistingProfile,
    bind_eq_ok, require_eq_ok, modifier_eq_ok, checkedAdd_eq_ok, checkedMul_eq_ok, checkedSubInt_eq_ok,
    checkedAddInt_eq_ok, pure_eq_ok]
  refine ⟨_, (), .inr hsender, (), h.unpaused, _, ⟨(), h.registered, rfl⟩, _, ⟨h.jobs, rfl⟩, _,
    ⟨h.findings, rfl⟩, _, ⟨h.positives, rfl⟩, _, ⟨h.negatives, rfl⟩, _, ⟨h.weights.1, rfl⟩, _,
    ⟨h.weights.2.1, rfl⟩, _, ⟨h.weights.2.2, rfl⟩, _, ⟨h.difference, rfl⟩, _, ⟨h.delta, rfl⟩, _,
    ⟨_, ⟨(), ?_, rfl⟩, _, ⟨?_, rfl⟩, rfl⟩, rfl⟩
  · simp only [State.setProfile_agents, Function.update_self]
    exact h.registered
  · simp only [State.setProfile_agents, Function.update_self]
    exact h.score

end Registry

/-! ## The two contracts -/

/-- The environment of a call that the auction makes. -/
def auctionEnv (auction : Address) (env : AuditAuction.Env) : AgentRegistry.Env where
  sender := auction
  value := 0
  timestamp := env.timestamp
  transferAnswer := env.transferAnswer
  associateAnswer := env.associateAnswer

/-- The call to the registry that a call of the auction makes under `try`. -/
def registryCall : AuditAuction.Call → Option AgentRegistry.Call
  | .releaseEscrow _ agent _ _ validFindings falsePos falseNeg =>
    some (.recordJobCompletion agent validFindings falsePos falseNeg)
  | .slashAgentBid _ agent slashBasisPoints => some (.slashAgent agent slashBasisPoints)
  | _ => none

/-- The reason that the handlers of `try` find in a call's outcome, if it reverts. -/
def refusal {α : Type} : Tx α → Option String
  | .ok _ => none
  | .error (.require message) => some message
  | .error _ => some "unknown"

/-- The auction and the registry, while the registry is the auction's. The registry's `slashAgent` is the only
call here whose outcome may depend on the ledger; it is judged on the ledger before the auction's payments. -/
def auctionRegistry (auction registry : Address) :
    Composition AuditAuction.State AuditAuction.Env AuditAuction.Call
      AgentRegistry.State AgentRegistry.Env AgentRegistry.Call where
  caller := AuditAuction.contract auction
  callee := AgentRegistry.contract registry
  hear w c env :=
    if w.state.1.agentRegistry = registry then { env with
      hasCode := Function.update env.hasCode registry true
      isActiveAgent := fun agent => AgentRegistry.isActiveAgent agent w.state.2
      getAgentReputation := fun agent => AgentRegistry.getAgentReputation agent w.state.2
      registryRefusal := (registryCall c).bind fun call =>
        refusal (AgentRegistry.exec registry (auctionEnv auction env) call w.snd) }
    else env
  makes env c s :=
    if s.agentRegistry = registry then (registryCall c).map fun call => (auctionEnv auction env, call)
    else none
  msg_hear w c env := by
    split
    · rfl
    · rfl
  msg_makes env c s call h := by
    split at h
    · obtain ⟨_, -, rfl⟩ := Option.map_eq_some_iff.mp h
      exact ⟨rfl, rfl⟩
    · exact nomatch h

/-- A state of the auction and of the registry. -/
abbrev AuctionWorld := World (AuditAuction.State × AgentRegistry.State)

/-- A call to one of the two. -/
abbrev AuctionCall := Either AuditAuction.Env AuditAuction.Call AgentRegistry.Env AgentRegistry.Call

/-- What a step of the two is. -/
abbrev AuctionLabel := JointLabel AuditAuction.Env AuditAuction.Call AgentRegistry.Env AgentRegistry.Call

/-- The wiring of the deployment: the registry has the auction, and the auction's orchestrator. -/
structure AuctionWired (auction registry : Address) (w : AuctionWorld) : Prop where
  agentRegistry : w.state.1.agentRegistry = registry
  orchestrator : w.state.2.orchestrator = w.state.1.orchestrator
  auctionContract : w.state.2.auctionContract = auction

/-- What the auction reports arrives in the registry. -/
def Arrives (w : AuctionWorld) (l : AuctionLabel) (w' : AuctionWorld) : Prop :=
  match l with
  | .call (.caller _ (.slashAgentBid _ agent slashBasisPoints)) =>
    0 < (w.state.2.agents agent).stakedAmount * (slashBasisPoints : ℕ) / 10000 →
      StakeSlashed agent slashBasisPoints w.state.2 w'.state.2
  | .call (.caller _ (.releaseEscrow _ agent _ _ validFindings falsePos falseNeg)) =>
    FindingsAdded agent validFindings falsePos falseNeg w.state.2 w'.state.2
  | _ => True

/-- There is nothing to slash in the registry, and the registry can record a completed job, unless there are
no findings. -/
def Acceptable (w : AuctionWorld) (l : AuctionLabel) : Prop :=
  match l with
  | .call (.caller _ (.slashAgentBid _ agent slashBasisPoints)) =>
    (w.state.2.agents agent).stakedAmount * (slashBasisPoints : ℕ) / 10000 = 0
  | .call (.caller _ (.releaseEscrow _ agent _ _ validFindings falsePos falseNeg)) =>
    Recordable w.state.2 agent validFindings falsePos falseNeg ∨
      (validFindings : ℕ) = 0 ∧ (falsePos : ℕ) = 0 ∧ (falseNeg : ℕ) = 0
  | _ => True

variable {auction registry : Address} {w w' : AuctionWorld} {l : AuctionLabel} {env : AuditAuction.Env}
  {agent : Address}

/-! ## One step -/

theorem relayed {c : AuditAuction.Call} {call : AgentRegistry.Call}
    (hwired : AuctionWired auction registry w) (hcall : registryCall c = some call)
    (h : (auctionRegistry auction registry).exec (.caller env c) w = .ok w') :
    (∃ w₁, AuditAuction.exec auction ((auctionRegistry auction registry).hear w c env) c w.fst = .ok w₁) ∧
    ∃ token, w'.state.2 = ((AgentRegistry.contract registry).attempt (auctionEnv auction env) call
      ⟨w.state.2, token, w.now⟩).state := by
  obtain ⟨w₁, hexec, rfl⟩ := Composition.exec_caller_ok.mp h
  refine ⟨⟨w₁, hexec⟩, w₁.token, ?_⟩
  have hmakes : (auctionRegistry auction registry).makes env c w.state.1 =
      some (auctionEnv auction env, call) := by
    unfold auctionRegistry
    dsimp only
    rw [if_pos hwired.agentRegistry, hcall]
    rfl
  rw [hmakes]
  rfl

theorem release_arrives_iff {jobId payment bonus validFindings falsePos falseNeg : UInt 256}
    (hwired : AuctionWired auction registry w)
    (h : (auctionRegistry auction registry).exec (.caller env
      (.releaseEscrow jobId agent payment bonus validFindings falsePos falseNeg)) w = .ok w') :
    FindingsAdded agent validFindings falsePos falseNeg w.state.2 w'.state.2 ↔
      Recordable w.state.2 agent validFindings falsePos falseNeg ∨
        (validFindings : ℕ) = 0 ∧ (falsePos : ℕ) = 0 ∧ (falseNeg : ℕ) = 0 := by
  obtain ⟨-, token, hstate⟩ := relayed hwired rfl h
  rw [hstate]
  have hrecord := Contract.attempt_onState (C := AgentRegistry.contract registry)
    (w := ⟨w.state.2, token, w.now⟩) (auctionEnv auction env)
    (.recordJobCompletion agent validFindings falsePos falseNeg)
    (AgentRegistry.recordJobCompletion (auctionEnv auction env) agent validFindings falsePos falseNeg)
    rfl
  -- The auction catches a failure, so the registry has either recorded the job or kept its state.
  rcases hrecord with ⟨s, hok, heq⟩ | ⟨e, herror, heq⟩
  · obtain ⟨hrecordable, hadded⟩ := recordable_of_ok hok
    rw [heq]
    exact ⟨fun _ => .inl hrecordable, fun _ => hadded⟩
  · rw [heq]
    constructor
    · intro hadded
      have hvalid := hadded.findings
      have hpositive := hadded.positives
      have hnegative := hadded.negatives
      dsimp only at hvalid hpositive hnegative
      right
      omega
    · rintro (hrecordable | ⟨hvalid, hpositive, hnegative⟩)
      · obtain ⟨s, hok⟩ := hrecordable.succeeds (auctionEnv auction env) hwired.auctionContract.symm
        rw [hok] at herror
        exact nomatch herror
      · rw [hvalid, hpositive, hnegative]
        exact ⟨rfl, rfl, rfl⟩

theorem slash_kept_out {jobId slashBasisPoints : UInt 256} (hwired : AuctionWired auction registry w)
    (hsender : env.sender ≠ auction)
    (h : (auctionRegistry auction registry).exec (.caller env
      (.slashAgentBid jobId agent slashBasisPoints)) w = .ok w') : w'.state.2 = w.state.2 := by
  obtain ⟨⟨w₁, hexec⟩, token, hstate⟩ := relayed hwired rfl h
  -- The sender is the auction's orchestrator, and so the registry's; the auction is not.
  have horchestrator : ((auctionRegistry auction registry).hear w
      (.slashAgentBid jobId agent slashBasisPoints) env).sender = w.state.1.orchestrator := by
    unfold AuditAuction.exec at hexec
    split_ifs at hexec
    simp only [AuditAuction.slashAgentBid, AuditAuction.onlyOrchestrator, bind_eq_ok, require_eq_ok]
      at hexec
    obtain ⟨_, horchestrator, -⟩ := hexec
    exact horchestrator
  have hmsg : ((auctionRegistry auction registry).hear w
      (.slashAgentBid jobId agent slashBasisPoints) env).sender = env.sender :=
    congrArg Msg.sender ((auctionRegistry auction registry).msg_hear w _ env)
  have hrefused : auction ≠ w.state.2.orchestrator := by
    rw [hwired.orchestrator, ← horchestrator, hmsg]
    exact hsender.symm
  rw [hstate]
  unfold Contract.attempt
  have hcall : (AgentRegistry.contract registry).exec (auctionEnv auction env)
      (.slashAgent agent slashBasisPoints) ⟨w.state.2, token, w.now⟩ =
      .error (.require "AgentRegistry: caller is not orchestrator") := by
    change AgentRegistry.slashAgent registry _ agent slashBasisPoints _ = _
    unfold AgentRegistry.slashAgent require
    rw [if_neg (show (auctionEnv auction env).sender ≠ w.state.2.orchestrator from hrefused)]
    rfl
  rw [hcall]

theorem Step.arrives_iff (hwired : AuctionWired auction registry w)
    (h : (auctionRegistry auction registry).Step w l w') : Arrives w l w' ↔ Acceptable w l := by
  cases h with
  | elsewhere => exact Iff.rfl
  | @call c _ _ hs hexec =>
    obtain ⟨⟨hcaller, -⟩, -⟩ := hs
    cases c with
    | callee env c => exact Iff.rfl
    | caller env c =>
      cases c with
      | releaseEscrow jobId agent payment bonus validFindings falsePos falseNeg =>
        exact release_arrives_iff hwired hexec
      | slashAgentBid jobId agent slashBasisPoints =>
        have hsame := slash_kept_out hwired hcaller hexec
        unfold Arrives Acceptable
        dsimp only
        rw [hsame]
        constructor
        · intro harrives
          -- A slash of something would have lowered the stake.
          by_contra hpos
          have hstake := (harrives (Nat.pos_of_ne_zero hpos)).stake
          omega
        · intro hzero hpos
          omega
      | _ => exact Iff.rfl

/-- In every run, what the auction reports while it is wired to the registry arrives there, if and only if no
slash has anything to take there, and the registry can record every completed job with findings. -/
theorem reports_arrive_iff {ts : List (Transition AuctionWorld AuctionLabel)}
    (hr : (auctionRegistry auction registry).system.Run ts w) :
    (∀ tr ∈ ts, AuctionWired auction registry tr.src → Arrives tr.src tr.label tr.dst) ↔
      ∀ tr ∈ ts, AuctionWired auction registry tr.src → Acceptable tr.src tr.label := by
  refine forall₂_congr fun tr htr => forall_congr' fun hwired => ?_
  exact Step.arrives_iff hwired (hr.step_of_mem tr htr).2

/-! ## A slashed winner

The auction at address 1 and the registry at address 30, wired by the registry's owner. The agent 2 registers
with 500 GUARD, and wins a job. The auction holds tokens to pay with. -/

/-- The two contracts, just deployed. -/
def auctionWorld : AuctionWorld where
  state := (AuditAuction.State.fresh 9 7 30 5 10, AgentRegistry.State.fresh 9 7)
  token := ((Ledger.single 2 (2 * 10^12) TokenLedger.two_trillion_lt).transfer 2 1 (10^12)).getD
    (Ledger.single 2 0 TokenLedger.zero_lt)
  now := 0

/-- The calls up to the selection of the winner. -/
def assignedCalls : List AuctionCall := [
  .callee (AgentRegistry.sampleEnv 9 0) (.setOrchestratorAndAuction 5 1),
  .callee (AgentRegistry.sampleEnv 2 1)
    (.registerAgent "agent-2" "https://agent-2" ["fuzzing"] (500 * 10^8)),
  .caller (AuditAuction.sampleEnv 5 2) (.createAuditJob 4 "hedera" "token" 10 (200 * 10^8) 100 60),
  .caller (AuditAuction.sampleEnv 2 3) (.submitBid 1 (100 * 10^8) (50 * 10^8) 100 "defi"),
  .caller (AuditAuction.sampleEnv 5 63) (.selectWinners 1 [0])]

/-- The winner is paid, with one finding. -/
def reportedCalls : List AuctionCall :=
  assignedCalls ++ [.caller (AuditAuction.sampleEnv 5 64) (.releaseEscrow 1 2 (10 * 10^8) 0 1 0 0)]

/-- The winner is slashed in full. -/
def swallowedCalls : List AuctionCall :=
  assignedCalls ++ [.caller (AuditAuction.sampleEnv 5 64) (.slashAgentBid 1 2 10000)]

theorem auction_run (calls : List AuctionCall) (hs : (auctionRegistry 1 30).Scheduled 0 calls)
    (h : ((auctionRegistry 1 30).execAll calls auctionWorld).isOk = true) :
    ∃ ts w, (auctionRegistry 1 30).execAll calls auctionWorld = .ok w ∧
      (auctionRegistry 1 30).system.Run ts w ∧
      (auctionRegistry 1 30).trace calls auctionWorld = .ok ts := by
  have hinit : (auctionRegistry 1 30).system.init auctionWorld :=
    ⟨⟨⟨9, 7, 30, 5, 10, rfl⟩, ⟨9, 7, rfl⟩⟩, by decide, by decide⟩
  exact Composition.exists_run hinit hs h

/-- The equivalence on the run with the finding, which arrives. -/
theorem reports_arrive_iff_reported : ∃ ts w, (auctionRegistry 1 30).system.Run ts w ∧
    ((∀ tr ∈ ts, AuctionWired 1 30 tr.src → Arrives tr.src tr.label tr.dst) ↔
      ∀ tr ∈ ts, AuctionWired 1 30 tr.src → Acceptable tr.src tr.label) ∧
    (w.state.2.agents 2).successfulFindings = 1 := by
  obtain ⟨ts, w, hcalls, hr, -⟩ := auction_run reportedCalls (by decide) rfl
  have hfindings := read_ok hcalls (fun w => (w.state.2.agents 2).successfulFindings) (b := 1)
    (by decide +kernel)
  exact ⟨ts, w, hr, reports_arrive_iff hr, hfindings⟩

/-- The agent is slashed in full by the auction, and keeps its whole stake in the registry. -/
theorem slash_swallowed : ∃ ts w, (auctionRegistry 1 30).system.Run ts w ∧
    ∃ tr ∈ ts, AuctionWired 1 30 tr.src ∧
      tr.label = .call (.caller (AuditAuction.sampleEnv 5 64) (.slashAgentBid 1 2 10000)) ∧
      (tr.src.state.2.agents 2).stakedAmount = 500 * 10^8 ∧
      (tr.dst.state.2.agents 2).stakedAmount = 500 * 10^8 ∧
      (tr.dst.state.2.agents 2).status = .active ∧
      ¬ Arrives tr.src tr.label tr.dst := by
  obtain ⟨ts, w, hcalls, hr, htrace⟩ := auction_run swallowedCalls (by decide) rfl
  have hlabel := read_ok htrace (fun ts => ts[5]?.map Transition.label)
    (b := some (.call (.caller (AuditAuction.sampleEnv 5 64) (.slashAgentBid 1 2 10000)))) rfl
  have hparties := read_ok htrace (fun ts => ts[5]?.map fun tr => (tr.src.state.1.agentRegistry,
      tr.src.state.2.orchestrator, tr.src.state.1.orchestrator, tr.src.state.2.auctionContract))
    (b := some (30, 5, 5, 1)) (by decide +kernel)
  have hstakes := read_ok htrace (fun ts => ts[5]?.map fun tr =>
      ((tr.src.state.2.agents 2).stakedAmount, (tr.dst.state.2.agents 2).stakedAmount))
    (b := some (500 * 10^8, 500 * 10^8)) (by decide +kernel)
  have hstatus := read_ok htrace (fun ts => ts[5]?.map fun tr => (tr.dst.state.2.agents 2).status)
    (b := some .active) rfl
  obtain ⟨tr, htr, hcall⟩ := Option.map_eq_some_iff.mp hlabel
  rw [htr] at hparties hstakes hstatus
  obtain ⟨hregistry, hscorer, horchestrator, hauction⟩ : _ ∧ _ ∧ _ ∧ _ := by
    simpa only [Option.map_some, Option.some.injEq, Prod.mk.injEq] using hparties
  obtain ⟨hbefore, hafter⟩ := Prod.mk.inj (Option.some.inj hstakes)
  have hmem := List.mem_of_getElem? htr
  have hwired : AuctionWired 1 30 tr.src := ⟨hregistry, hscorer.trans horchestrator.symm, hauction⟩
  refine ⟨ts, w, hr, tr, hmem, hwired, hcall, hbefore, hafter, Option.some.inj hstatus, ?_⟩
  -- The registry had something to take.
  rw [Step.arrives_iff hwired (hr.step_of_mem tr hmem).2, hcall]
  unfold Acceptable
  dsimp only
  rw [hbefore]
  decide

end AuditGuard.Deployment
