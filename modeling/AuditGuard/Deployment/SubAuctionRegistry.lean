import AuditGuard.Library.Composition
import AuditGuard.SubAuction.Settling
import AuditGuard.AgentRegistry.Effects

/-!
# SubAuction and AgentRegistry: funds that get stuck

The last thing that `acceptResult` and `claimExpired` do is a call to `updateReputation` of the registry, which
is not under `try`. The registry takes updates from its orchestrator and its auction only, and the deployment
makes the sub-auction neither: both functions always revert. A sub-job that is delivered can still be disputed,
but one whose deadline has passed without a delivery has no way out.
-/

namespace AuditGuard.Deployment

open Evm TransitionSystem
open SubAuction (SubJobStatus SettledOut)

/-! ## The two contracts -/

/-- The environment of a call that the sub-auction makes. -/
def subAuctionEnv (subAuction : Address) (env : SubAuction.Env) : AgentRegistry.Env where
  sender := subAuction
  value := 0
  timestamp := env.timestamp
  transferAnswer := env.transferAnswer
  associateAnswer := env.associateAnswer

/-- The call to the registry with which a call of the sub-auction ends. -/
def reputationCall (s : SubAuction.State) : SubAuction.Call → Option AgentRegistry.Call
  | .acceptResult subJobId =>
    some (.updateReputation (s.subJobs subJobId).selectedAgent ⟨200, by decide⟩)
  | .claimExpired subJobId =>
    some (.updateReputation (s.subJobs subJobId).selectedAgent ⟨-300, by decide⟩)
  | _ => none

/-- The sub-auction and the registry, while the registry is the sub-auction's. -/
def subAuctionRegistry (subAuction registry : Address) :
    Composition SubAuction.State SubAuction.Env SubAuction.Call
      AgentRegistry.State AgentRegistry.Env AgentRegistry.Call where
  caller := SubAuction.contract subAuction
  callee := AgentRegistry.contract registry
  hear w c env :=
    if w.state.1.agentRegistry = registry then { env with
      hasCode := Function.update env.hasCode registry true
      isActiveAgent := fun agent => AgentRegistry.isActiveAgent agent w.state.2
      takesUpdate := (reputationCall w.state.1 c).elim env.takesUpdate fun call =>
        (AgentRegistry.exec registry (subAuctionEnv subAuction env) call w.snd).isOk }
    else env
  makes env c s :=
    if s.agentRegistry = registry then
      (reputationCall s c).map fun call => (subAuctionEnv subAuction env, call)
    else none
  msg_hear w c env := by
    split
    · rfl
    · rfl
  msg_makes env c s call h := by
    split at h
    · obtain ⟨_, -, rfl⟩ := Option.map_eq_some_iff.mp h
      exact ⟨rfl, rfl⟩
    · exact nomatch h

/-- A state of the sub-auction and of the registry. -/
abbrev SubAuctionWorld := World (SubAuction.State × AgentRegistry.State)

/-- A call to one of the two. -/
abbrev SubAuctionCall :=
  Either SubAuction.Env SubAuction.Call AgentRegistry.Env AgentRegistry.Call

/-- An account that may call: neither of the two contracts, and not address zero. -/
def External (subAuction registry : Address) (a : Address) : Prop :=
  a ≠ subAuction ∧ a ≠ registry ∧ a ≠ 0

/-- The wiring of the deployment: the sub-auction knows the registry and the main auction, the registry's
scorers are the orchestrator's account and the main auction, and nothing is paused. -/
structure SubAuctionWired (subAuction registry : Address) (w : SubAuctionWorld) : Prop where
  agentRegistry : w.state.1.agentRegistry = registry
  mainAuction : w.state.1.mainAuction = w.state.2.auctionContract
  auctionContract : External subAuction registry w.state.2.auctionContract
  orchestrator : External subAuction registry w.state.2.orchestrator
  running : w.state.1.paused = false ∧ w.state.2.paused = false

/-- A call in the latest block, from outside: no HBAR is sent, HTS takes the transfers, and the main auction
answers with the orchestrator. -/
structure Offered (subAuction registry : Address) (w : SubAuctionWorld) (env : SubAuction.Env) : Prop where
  serves : SubAuction.Serves w.state.2.orchestrator env
  sender : External subAuction registry env.sender
  now : env.timestamp = w.now

/-- The deadline of the sub-job has passed, and nothing was delivered. -/
def Late (subJobId : UInt 256) (w : SubAuctionWorld) : Prop :=
  (w.state.1.subJobs subJobId).status = .inProgress ∧ (w.state.1.subJobs subJobId).slaDeadline < w.now

/-- Calls of the requester, of the selected agent and of the orchestrator bring the sub-job to its end, and
everything that was paid in for it is paid out. -/
def CanBeEnded (subAuction registry : Address) (subJobId : UInt 256) (w : SubAuctionWorld) : Prop :=
  ∃ calls : List (SubAuction.Env × SubAuction.Call),
    (∀ call ∈ calls, Offered subAuction registry w call.1 ∧
      (call.1.sender = (w.state.1.subJobs subJobId).requester ∨
        call.1.sender = (w.state.1.subJobs subJobId).selectedAgent ∨
        call.1.sender = w.state.2.orchestrator)) ∧
    ∃ w', (subAuctionRegistry subAuction registry).execAll
        (calls.map fun call => .caller call.1 call.2) w = .ok w' ∧
      SettledOut subAuction w'.state.1 subJobId

/-- Anybody can claim a sub-job whose deadline has passed, the requester can accept what was delivered, and the
sub-job can be brought to its end. -/
structure Unstuck (subAuction registry : Address) (subJobId : UInt 256) (w : SubAuctionWorld) : Prop where
  expired : Late subJobId w → ∀ env, Offered subAuction registry w env →
    ∃ w', (subAuctionRegistry subAuction registry).exec (.caller env (.claimExpired subJobId)) w = .ok w'
  delivered : (w.state.1.subJobs subJobId).status = .delivered →
    ∀ env, Offered subAuction registry w env → env.sender = (w.state.1.subJobs subJobId).requester →
      ∃ w', (subAuctionRegistry subAuction registry).exec (.caller env (.acceptResult subJobId)) w = .ok w'
  settles : CanBeEnded subAuction registry subJobId w

variable {subAuction registry : Address} {w w' : SubAuctionWorld} {subJobId : UInt 256}
  {env : SubAuction.Env}

/-! ## Reachable states -/

theorem hear_sender (c : SubAuction.Call) :
    ((subAuctionRegistry subAuction registry).hear w c env).sender = env.sender :=
  congrArg Msg.sender ((subAuctionRegistry subAuction registry).msg_hear w c env)

theorem hear_timestamp (c : SubAuction.Call) :
    ((subAuctionRegistry subAuction registry).hear w c env).timestamp = env.timestamp :=
  congrArg Msg.timestamp ((subAuctionRegistry subAuction registry).msg_hear w c env)

theorem reputationCall_eq {s : SubAuction.State} {c : SubAuction.Call} {call : AgentRegistry.Call}
    (h : reputationCall s c = some call) : ∃ agent delta, call = .updateReputation agent delta := by
  cases c with
  | acceptResult | claimExpired => exact ⟨_, _, (Option.some.inj h).symm⟩
  | _ => exact nomatch h

theorem update_inv {env : AgentRegistry.Env} {agent : Address} {delta : SInt 256}
    {v v' : World AgentRegistry.State}
    (h : AgentRegistry.exec registry env (.updateReputation agent delta) v = .ok v') :
    (env.sender = v.state.orchestrator ∨ env.sender = v.state.auctionContract) ∧ v'.token = v.token := by
  unfold AgentRegistry.exec at h
  split_ifs at h
  obtain ⟨s, hupdate, rfl⟩ := onState_eq_ok.mp h
  simp only [AgentRegistry.updateReputation, AgentRegistry.onlyOrchestratorOrAuction, bind_eq_ok,
    require_eq_ok] at hupdate
  obtain ⟨_, hscorer, -⟩ := hupdate
  exact ⟨hscorer, rfl⟩

theorem updates_unspent : (subAuctionRegistry subAuction registry).Unspent := by
  intro env c s call v v' hmakes hexec
  unfold subAuctionRegistry at hmakes
  dsimp only at hmakes
  split at hmakes
  · obtain ⟨update, hupdate, rfl⟩ := Option.map_eq_some_iff.mp hmakes
    obtain ⟨agent, delta, rfl⟩ := reputationCall_eq hupdate
    have hcall : AgentRegistry.exec registry (subAuctionEnv subAuction env)
        (.updateReputation agent delta) v = .ok v' := hexec
    rw [(update_inv hcall).2]
  · exact nomatch hmakes

theorem reachable_subAuction (hw : (subAuctionRegistry subAuction registry).system.Reachable w) :
    (SubAuction.contract subAuction).system.Reachable w.fst :=
  Composition.reachable_caller AgentRegistry.spares updates_unspent hw

theorem parties_external (hw : (subAuctionRegistry subAuction registry).system.Reachable w) (id : ℕ) :
    (w.state.1.file id).Sound registry ∧ (w.state.1.file id).Sound 0 := by
  induction hw generalizing id with
  | @init w h =>
    obtain ⟨⟨hfresh, -⟩, -⟩ := h
    have hblank : ∀ a, (w.state.1.file id).Sound a := by
      intro a
      have hfresh : (SubAuction.contract a).fresh w.state.1 := hfresh
      exact (SubAuction.sound_fresh w.token hfresh).files id
    exact ⟨hblank registry, hblank 0⟩
  | @step w l w' hw hstep ih =>
    have hb : (SubAuction.books w.fst).Sound subAuction :=
      SubAuction.reachable_sound (reachable_subAuction hw)
    cases hstep with
    | elsewhere => exact ih id
    | @call c _ _ hs hexec =>
      cases c with
      | callee env c =>
        obtain ⟨v, -, rfl⟩ := Composition.exec_callee_ok.mp hexec
        exact ih id
      | caller env c =>
        obtain ⟨⟨hthis, hother⟩, hzero, -⟩ := hs
        obtain ⟨v, hcall, rfl⟩ := Composition.exec_caller_ok.mp hexec
        have hthis' : ((subAuctionRegistry subAuction registry).hear w c env).sender ≠ subAuction := by
          rw [hear_sender]
          exact hthis
        -- A new party is the sender of the call, which is neither the registry nor zero.
        constructor
        · refine SubAuction.exec_seen hb hthis' ?_ (fun id => (ih id).1) hcall id
          rw [hear_sender]
          exact hother
        · refine SubAuction.exec_seen hb hthis' ?_ (fun id => (ih id).2) hcall id
          rw [hear_sender]
          exact hzero

theorem requester_external (hw : (subAuctionRegistry subAuction registry).system.Reachable w)
    (hposted : (w.state.1.subJobs subJobId).subJobId ≠ 0) :
    External subAuction registry (w.state.1.subJobs subJobId).requester := by
  have hb : (SubAuction.books w.fst).Sound subAuction :=
    SubAuction.reachable_sound (reachable_subAuction hw)
  obtain ⟨hregistry, hzero⟩ := parties_external hw subJobId
  have hfile := SubAuction.file_posted hposted
  exact ⟨(hb.files subJobId).requester hfile, hregistry.requester hfile, hzero.requester hfile⟩

theorem selected_external (hw : (subAuctionRegistry subAuction registry).system.Reachable w)
    (hbusy : (w.state.1.subJobs subJobId).status.Busy) :
    External subAuction registry (w.state.1.subJobs subJobId).selectedAgent := by
  have hb : (SubAuction.books w.fst).Sound subAuction :=
    SubAuction.reachable_sound (reachable_subAuction hw)
  obtain ⟨hregistry, hzero⟩ := parties_external hw subJobId
  obtain ⟨b, hmem, -, hagent, -⟩ := (hb.files subJobId).busy hbusy
  change b.agent = (w.state.1.subJobs subJobId).selectedAgent at hagent
  rw [← hagent]
  exact ⟨(hb.files subJobId).others b hmem, hregistry.others b hmem, hzero.others b hmem⟩

/-! ## What is refused -/

theorem takesUpdate_of_ok {s : SubAuction.State} {c : SubAuction.Call} {call : AgentRegistry.Call}
    {v v' : World SubAuction.State} (hcall : reputationCall s c = some call)
    (h : SubAuction.exec subAuction env c v = .ok v') : env.takesUpdate = true := by
  have hupdates : ∀ {agent delta} {s s' : SubAuction.State},
      SubAuction.updateReputation env agent delta s = .ok s' → env.takesUpdate = true := by
    intro agent delta s s' hupdate
    unfold SubAuction.updateReputation at hupdate
    split_ifs at hupdate with htakes
    exact htakes.2
  unfold SubAuction.exec at h
  split_ifs at h
  cases c with
  | acceptResult subJobId =>
    simp only [SubAuction.acceptResult, bind_eq_ok, Prod.exists] at h
    obtain ⟨_, -, _, -, _, -, _, -, _, _, -, _, -, _, -, s', hupdate, -⟩ := h
    exact hupdates hupdate
  | claimExpired subJobId =>
    simp only [SubAuction.claimExpired, bind_eq_ok, Prod.exists] at h
    obtain ⟨_, -, _, -, _, -, _, -, _, -, _, _, -, _, -, _, -, _, -, _, -, _, -, s', hupdate, -⟩ := h
    exact hupdates hupdate
  | _ => cases hcall

theorem settlement_refused {c : SubAuction.Call} {call : AgentRegistry.Call}
    (hwired : SubAuctionWired subAuction registry w) (hcall : reputationCall w.state.1 c = some call) :
    (subAuctionRegistry subAuction registry).exec (.caller env c) w ≠ .ok w' := by
  intro h
  obtain ⟨v, hexec, -⟩ := Composition.exec_caller_ok.mp h
  have htakes := takesUpdate_of_ok hcall hexec
  have hheard : ((subAuctionRegistry subAuction registry).hear w c env).takesUpdate =
      (AgentRegistry.exec registry (subAuctionEnv subAuction env) call w.snd).isOk := by
    unfold subAuctionRegistry
    dsimp only
    rw [if_pos hwired.agentRegistry, hcall]
    rfl
  rw [hheard] at htakes
  obtain ⟨v', hupdate⟩ := exists_eq_ok htakes
  obtain ⟨agent, delta, rfl⟩ := reputationCall_eq hcall
  -- The sub-auction is the sender, and no scorer.
  rcases (update_inv hupdate).1 with hscorer | hscorer
  · exact hwired.orchestrator.1 hscorer.symm
  · exact hwired.auctionContract.1 hscorer.symm

/-! ## What succeeds -/

theorem hear_serves {orchestrator : Address} (c : SubAuction.Call) (h : SubAuction.Serves orchestrator env) :
    SubAuction.Serves orchestrator ((subAuctionRegistry subAuction registry).hear w c env) := by
  obtain ⟨hvalue, hanswer, horchestrator⟩ := h
  unfold subAuctionRegistry
  dsimp only
  split
  · exact ⟨hvalue, hanswer, horchestrator⟩
  · exact ⟨hvalue, hanswer, horchestrator⟩

theorem exec_alone {c : SubAuction.Call} {v : World SubAuction.State}
    (hnone : reputationCall w.state.1 c = none)
    (h : SubAuction.exec subAuction ((subAuctionRegistry subAuction registry).hear w c env) c w.fst = .ok v) :
    (subAuctionRegistry subAuction registry).exec (.caller env c) w =
      .ok ⟨(v.state, w.state.2), v.token, env.timestamp⟩ := by
  refine Composition.exec_caller_alone ?_ h
  unfold subAuctionRegistry
  dsimp only
  rw [hnone]
  split <;> rfl

/-- A sub-job whose parties and whose orchestrator may call. -/
structure Live (subAuction registry : Address) (subJobId : UInt 256) (w : SubAuctionWorld) : Prop where
  settleable : SubAuction.Settleable subAuction subJobId w.fst
  orchestrator : External subAuction registry w.state.2.orchestrator
  requester : External subAuction registry (w.state.1.subJobs subJobId).requester
  selectedAgent : (w.state.1.subJobs subJobId).status.Busy →
    External subAuction registry (w.state.1.subJobs subJobId).selectedAgent

/-- A call of `sender` in the latest block. -/
def offeredEnv (sender : Address) (w : SubAuctionWorld) : SubAuction.Env where
  sender := sender
  value := 0
  timestamp := w.now
  hasCode := fun _ => true
  isActiveAgent := fun _ => true
  takesUpdate := true
  winningAgents := fun _ => none
  orchestrator := some w.state.2.orchestrator
  transferAnswer := Hts.HTS_SUCCESS
  associateAnswer := Hts.HTS_SUCCESS

theorem offeredEnv_offered {sender : Address} (h : External subAuction registry sender) :
    Offered subAuction registry w (offeredEnv sender w) := ⟨⟨rfl, rfl, rfl⟩, h, rfl⟩

theorem CanBeEnded.after {sender : Address} {c : SubAuction.Call} {v : World SubAuction.State}
    (hsender : External subAuction registry sender)
    (hparty : sender = (w.state.1.subJobs subJobId).requester ∨
      sender = (w.state.1.subJobs subJobId).selectedAgent ∨ sender = w.state.2.orchestrator)
    (hexec : (subAuctionRegistry subAuction registry).exec (.caller (offeredEnv sender w) c) w =
      .ok ⟨(v.state, w.state.2), v.token, w.now⟩)
    (hrequester : (v.state.subJobs subJobId).requester = (w.state.1.subJobs subJobId).requester)
    (hselected : (v.state.subJobs subJobId).selectedAgent = (w.state.1.subJobs subJobId).selectedAgent)
    (h : CanBeEnded subAuction registry subJobId ⟨(v.state, w.state.2), v.token, w.now⟩) :
    CanBeEnded subAuction registry subJobId w := by
  obtain ⟨calls, hcalls, w', hall, hsettled⟩ := h
  refine ⟨(offeredEnv sender w, c) :: calls, ?_, w', ?_, hsettled⟩
  · rw [List.forall_mem_cons]
    refine ⟨⟨offeredEnv_offered hsender, hparty⟩, fun call hcall => ?_⟩
    obtain ⟨hoffered, hparty⟩ := hcalls call hcall
    dsimp only at hparty
    rw [hrequester, hselected] at hparty
    exact ⟨⟨hoffered.serves, hoffered.sender, hoffered.now⟩, hparty⟩
  · exact Composition.execAll_append.mpr ⟨_, Composition.execAll_singleton.mpr hexec, hall⟩

theorem CanBeEnded.last {sender : Address} {c : SubAuction.Call} {v : World SubAuction.State}
    (hsender : External subAuction registry sender)
    (hparty : sender = (w.state.1.subJobs subJobId).requester ∨
      sender = (w.state.1.subJobs subJobId).selectedAgent ∨ sender = w.state.2.orchestrator)
    (hexec : (subAuctionRegistry subAuction registry).exec (.caller (offeredEnv sender w) c) w =
      .ok ⟨(v.state, w.state.2), v.token, w.now⟩)
    (h : SettledOut subAuction v.state subJobId) : CanBeEnded subAuction registry subJobId w := by
  refine ⟨[(offeredEnv sender w, c)], ?_, _, Composition.execAll_singleton.mpr hexec, h⟩
  intro call hcall
  rw [List.mem_singleton.mp hcall]
  exact ⟨offeredEnv_offered hsender, hparty⟩

namespace Live

theorem next (h : Live subAuction registry subJobId w) {v : World SubAuction.State}
    (hv : SubAuction.Settleable subAuction subJobId v)
    (hbusy : (w.state.1.subJobs subJobId).status.Busy)
    (hrequester : (v.state.subJobs subJobId).requester = (w.state.1.subJobs subJobId).requester)
    (hselected : (v.state.subJobs subJobId).selectedAgent = (w.state.1.subJobs subJobId).selectedAgent) :
    Live subAuction registry subJobId ⟨(v.state, w.state.2), v.token, w.now⟩ := by
  constructor
  case settleable => exact ⟨hv.sound, hv.covered, hv.running, hv.mainAuction, hv.posted⟩
  case orchestrator => exact h.orchestrator
  case requester =>
    dsimp only
    rw [hrequester]
    exact h.requester
  case selectedAgent =>
    intro _
    dsimp only
    rw [hselected]
    exact h.selectedAgent hbusy

theorem cancel (h : Live subAuction registry subJobId w)
    (hopen : (w.state.1.subJobs subJobId).status = .opened) :
    CanBeEnded subAuction registry subJobId w := by
  have hserves := (offeredEnv_offered (w := w) h.requester).serves
  obtain ⟨v, hexec, hsettled⟩ := h.settleable.cancel (hear_serves (w := w) (.cancelSubAuction subJobId) hserves)
    (hear_sender _) hopen
  exact .last h.requester (.inl rfl) (exec_alone rfl hexec) hsettled

theorem resolve (h : Live subAuction registry subJobId w)
    (hdisputed : (w.state.1.subJobs subJobId).status = .disputed) :
    CanBeEnded subAuction registry subJobId w := by
  have hserves := (offeredEnv_offered (w := w) h.orchestrator).serves
  obtain ⟨v, hexec, hsettled⟩ := h.settleable.resolve
    (hear_serves (w := w) (.resolveDispute subJobId true) hserves) h.orchestrator.2.2 (hear_sender _) hdisputed
  exact .last h.orchestrator (.inr (.inr rfl)) (exec_alone rfl hexec) hsettled

theorem dispute (h : Live subAuction registry subJobId w)
    (hdelivered : (w.state.1.subJobs subJobId).status = .delivered) :
    CanBeEnded subAuction registry subJobId w := by
  have hserves := (offeredEnv_offered (w := w) h.requester).serves
  have hreason : 0 < ("incomplete" : String).utf8ByteSize := by decide
  obtain ⟨v, hexec, hv, hjob⟩ := h.settleable.dispute
    (hear_serves (w := w) (.disputeResult subJobId "incomplete") hserves) hreason (hear_sender _) hdelivered
  have hrequester : (v.state.subJobs subJobId).requester = (w.state.1.subJobs subJobId).requester := by
    rw [hjob]
    rfl
  have hselected : (v.state.subJobs subJobId).selectedAgent =
      (w.state.1.subJobs subJobId).selectedAgent := by
    rw [hjob]
    rfl
  have hlive := h.next hv (.inr (.inl hdelivered)) hrequester hselected
  refine .after h.requester (.inl rfl) (exec_alone rfl hexec) hrequester hselected (hlive.resolve ?_)
  dsimp only
  rw [hjob]

theorem deliver (h : Live subAuction registry subJobId w)
    (hprogress : (w.state.1.subJobs subJobId).status = .inProgress)
    (htime : w.now ≤ (w.state.1.subJobs subJobId).slaDeadline) :
    CanBeEnded subAuction registry subJobId w := by
  have hagent := h.selectedAgent (.inl hprogress)
  have hserves := (offeredEnv_offered (w := w) hagent).serves
  have hhash : (1 : UInt 256) ≠ 0 := by decide
  have htime : ((subAuctionRegistry subAuction registry).hear w (.deliverResult subJobId 1)
      (offeredEnv (w.state.1.subJobs subJobId).selectedAgent w)).timestamp ≤
      (w.state.1.subJobs subJobId).slaDeadline := by
    rw [hear_timestamp]
    exact htime
  obtain ⟨v, hexec, hv, hjob⟩ := h.settleable.deliver
    (hear_serves (w := w) (.deliverResult subJobId 1) hserves) hhash (hear_sender _) hprogress htime
  have hrequester : (v.state.subJobs subJobId).requester = (w.state.1.subJobs subJobId).requester := by
    rw [hjob]
    rfl
  have hselected : (v.state.subJobs subJobId).selectedAgent =
      (w.state.1.subJobs subJobId).selectedAgent := by
    rw [hjob]
    rfl
  -- The dispute that follows is the requester's, who is the same as before.
  have hlive := h.next hv (.inl hprogress) hrequester hselected
  refine .after hagent (.inr (.inl rfl)) (exec_alone rfl hexec) hrequester hselected (hlive.dispute ?_)
  dsimp only
  rw [hjob]

theorem canBeEnded (h : Live subAuction registry subJobId w)
    (htime : ¬ Late subJobId w) : CanBeEnded subAuction registry subJobId w := by
  have hended : (w.state.1.subJobs subJobId).status.Ended → CanBeEnded subAuction registry subJobId w := by
    intro hended
    exact ⟨[], by simp, w, rfl, hended, SubAuction.paidOut_of_sound h.settleable.sound hended⟩
  cases hstatus : (w.state.1.subJobs subJobId).status with
  | opened => exact h.cancel hstatus
  | biddingClosed => exact absurd hstatus (h.settleable.sound.files subJobId).phase
  | inProgress => exact h.deliver hstatus (not_lt.mp fun hlate => htime ⟨hstatus, hlate⟩)
  | delivered => exact h.dispute hstatus
  | disputed => exact h.resolve hstatus
  | accepted => exact hended (.inl hstatus)
  | expired => exact hended (.inr (.inl hstatus))
  | cancelled => exact hended (.inr (.inr hstatus))

end Live

theorem live_of_reachable (hw : (subAuctionRegistry subAuction registry).system.Reachable w)
    (hwired : SubAuctionWired subAuction registry w)
    (hposted : (w.state.1.subJobs subJobId).subJobId ≠ 0) : Live subAuction registry subJobId w := by
  have hreachable := reachable_subAuction hw
  have hauction : w.state.1.mainAuction ≠ 0 := by
    rw [hwired.mainAuction]
    exact hwired.auctionContract.2.2
  constructor
  case settleable =>
    exact ⟨SubAuction.reachable_sound hreachable, SubAuction.reachable_covered hreachable, hwired.running.1,
      hauction, hposted⟩
  case orchestrator => exact hwired.orchestrator
  case requester => exact requester_external hw hposted
  case selectedAgent => exact fun hbusy => selected_external hw hbusy

/-- In every reachable state of the wired contracts, a sub-job is unstuck if and only if it is neither past its
deadline without a delivery nor delivered. -/
theorem unstuck_iff (hw : (subAuctionRegistry subAuction registry).system.Reachable w)
    (hwired : SubAuctionWired subAuction registry w)
    (hposted : (w.state.1.subJobs subJobId).subJobId ≠ 0) :
    Unstuck subAuction registry subJobId w ↔
      ¬ Late subJobId w ∧ (w.state.1.subJobs subJobId).status ≠ .delivered := by
  constructor
  · intro h
    constructor
    · intro hlate
      obtain ⟨w', hexec⟩ := h.expired hlate _ (offeredEnv_offered hwired.orchestrator)
      exact settlement_refused hwired rfl hexec
    · intro hdelivered
      obtain ⟨w', hexec⟩ := h.delivered hdelivered _
        (offeredEnv_offered (requester_external hw hposted)) rfl
      exact settlement_refused hwired rfl hexec
  · rintro ⟨htime, hundelivered⟩
    constructor
    · exact fun hlate => absurd hlate htime
    · exact fun hdelivered => absurd hdelivered hundelivered
    · exact (live_of_reachable hw hwired hposted).canBeEnded htime

/-! ## A sub-job that nobody can end

The sub-auction at address 1 and the registry at address 30, whose scorers are the orchestrator 5 and the main
auction 4. The agents 2 and 3 are registered; 3 is to work for 2 until the time 70, and does not deliver. -/

/-- The two contracts, just deployed. -/
def subAuctionWorld : SubAuctionWorld where
  state := (SubAuction.State.fresh 9 7 30 4 10, AgentRegistry.State.fresh 9 7)
  token := SubAuction.sampleWorld.token
  now := 0

/-- The calls up to the selection of the agent 3. -/
def hiredCalls : List SubAuctionCall := [
  .callee (AgentRegistry.sampleEnv 9 0) (.setOrchestratorAndAuction 5 4),
  .callee (AgentRegistry.sampleEnv 2 1)
    (.registerAgent "agent-2" "https://agent-2" ["fuzzing"] (100 * 10^8)),
  .callee (AgentRegistry.sampleEnv 3 2)
    (.registerAgent "agent-3" "https://agent-3" ["fuzzing"] (100 * 10^8)),
  .caller (SubAuction.sampleEnv 2 10)
    (.createSubAuction 1 "fuzz the parser" "fuzzing" (100 * 10^8) 60 120),
  .caller (SubAuction.sampleEnv 3 11) (.submitSubBid 1 (80 * 10^8) 30 (40 * 10^8)),
  .caller (SubAuction.sampleEnv 2 12) (.selectSubContractor 1 0)]

/-- And then time passes. -/
def lateCalls : List SubAuctionCall := hiredCalls ++ [.callee (AgentRegistry.sampleEnv 2 71) (.addStake 1)]

/-- What the wiring is for the two contracts. -/
def Wires (w : SubAuctionWorld) : Prop :=
  (w.state.1.agentRegistry = 30 ∧ w.state.1.mainAuction = 4) ∧
    (w.state.2.auctionContract = 4 ∧ w.state.2.orchestrator = 5) ∧
    w.state.1.paused = false ∧ w.state.2.paused = false

instance (w : SubAuctionWorld) : Decidable (Wires w) := inferInstanceAs (Decidable (_ ∧ _))

theorem Wires.wired (h : Wires w) : SubAuctionWired 1 30 w := by
  obtain ⟨⟨hregistry, hmain⟩, ⟨hauction, horchestrator⟩, hrunning⟩ := h
  constructor
  case agentRegistry => exact hregistry
  case mainAuction => rw [hmain, hauction]
  case auctionContract =>
    rw [hauction]
    exact ⟨by decide, by decide, by decide⟩
  case orchestrator =>
    rw [horchestrator]
    exact ⟨by decide, by decide, by decide⟩
  case running => exact hrunning

theorem reachable_calls (calls : List SubAuctionCall) (hs : (subAuctionRegistry 1 30).Scheduled 0 calls)
    (h : ((subAuctionRegistry 1 30).execAll calls subAuctionWorld).isOk = true) :
    ∃ w, (subAuctionRegistry 1 30).execAll calls subAuctionWorld = .ok w ∧
      (subAuctionRegistry 1 30).system.Reachable w := by
  have hinit : (subAuctionRegistry 1 30).system.init subAuctionWorld :=
    ⟨⟨⟨9, 7, 30, 4, 10, rfl⟩, ⟨9, 7, rfl⟩⟩, by decide, by decide⟩
  obtain ⟨ts, w, hcalls, hr, -⟩ := Composition.exists_run hinit hs h
  exact ⟨w, hcalls, hr.reachable⟩

/-- The equivalence on the sub-job in progress, which can still be brought to its end. -/
theorem unstuck_iff_hired : ∃ w, (subAuctionRegistry 1 30).system.Reachable w ∧ Unstuck 1 30 1 w ∧
    (w.state.1.subJobs 1).status = .inProgress := by
  obtain ⟨w, hcalls, hw⟩ := reachable_calls hiredCalls (by decide) rfl
  have hwires : Wires w := of_decide_eq_true (read_ok hcalls (fun w => decide (Wires w)) (by decide +kernel))
  obtain ⟨hexists, hprogress, hdeadline, hnow⟩ : _ ∧ _ ∧ _ ∧ _ := of_decide_eq_true
    (read_ok hcalls (fun w => decide ((w.state.1.subJobs 1).subJobId ≠ 0 ∧
      (w.state.1.subJobs 1).status = .inProgress ∧ (w.state.1.subJobs 1).slaDeadline = 70 ∧ w.now = 12))
      (by decide +kernel))
  have hiff : Unstuck 1 30 1 w ↔ _ := unstuck_iff hw hwires.wired hexists
  refine ⟨w, hw, hiff.mpr ⟨?_, ?_⟩, hprogress⟩
  · rintro ⟨-, hlate⟩
    change (w.state.1.subJobs 1).slaDeadline < w.now at hlate
    omega
  · change (w.state.1.subJobs 1).status ≠ _
    rw [hprogress]
    decide

/-- The deadline of the sub-job has passed, and nobody can claim it: 80 GUARD of payment and 40 GUARD of
collateral stay in the contract. -/
theorem late_sub_job_stuck : ∃ w, (subAuctionRegistry 1 30).system.Reachable w ∧ SubAuctionWired 1 30 w ∧
    (AgentRegistry.isActiveAgent 2 w.state.2 = true ∧ AgentRegistry.isActiveAgent 3 w.state.2 = true) ∧
    w.token.balance 1 = 120 * 10^8 ∧ Late 1 w ∧
    (∀ env w', (subAuctionRegistry 1 30).exec (.caller env (.claimExpired 1)) w ≠ .ok w') ∧
    ¬ Unstuck 1 30 1 w := by
  obtain ⟨w, hcalls, hw⟩ := reachable_calls lateCalls (by decide) rfl
  have hwires : Wires w := of_decide_eq_true (read_ok hcalls (fun w => decide (Wires w)) (by decide +kernel))
  obtain ⟨hprogress, hdeadline, hnow⟩ : _ ∧ _ ∧ _ := of_decide_eq_true
    (read_ok hcalls (fun w => decide ((w.state.1.subJobs 1).status = .inProgress ∧
      (w.state.1.subJobs 1).slaDeadline = 70 ∧ w.now = 71)) (by decide +kernel))
  have hactive := of_decide_eq_true (read_ok hcalls (fun w => decide
    (AgentRegistry.isActiveAgent 2 w.state.2 = true ∧ AgentRegistry.isActiveAgent 3 w.state.2 = true))
    (by decide +kernel))
  have hbalance := read_ok hcalls (fun w => w.token.balance 1) (b := 120 * 10^8) (by decide +kernel)
  have hlate : Late 1 w := by
    refine ⟨hprogress, ?_⟩
    change (w.state.1.subJobs 1).slaDeadline < w.now
    omega
  have hrefused : ∀ env w', (subAuctionRegistry 1 30).exec (.caller env (.claimExpired 1)) w ≠ .ok w' :=
    fun env w' => settlement_refused hwires.wired rfl
  refine ⟨w, hw, hwires.wired, hactive, hbalance, hlate, hrefused, fun h => ?_⟩
  obtain ⟨w', hexec⟩ := h.expired hlate _ (offeredEnv_offered hwires.wired.orchestrator)
  exact hrefused _ w' hexec

end AuditGuard.Deployment
