import AuditGuard.Library.Composition
import AuditGuard.StakingManager.Scoring
import AuditGuard.AgentRegistry.Effects

/-!
# StakingManager and AgentRegistry: the reversal of a reputation penalty

A slash asks the registry for a change of the agent's reputation, an approved appeal for its opposite. The
registry clamps both times, and both times the penalty is looked up. `changed` is the change that arrives; the
second one undoes the first one if what arrived of the penalty is what is taken back, or if the
reputation was at an end of its range and the clamp hides the difference.
-/

namespace AuditGuard.Deployment

open Evm TransitionSystem
open StakingManager (SlashReason IsInt256 scoring)

/-! ## The registry's part -/

/-- The reputation of an agent. -/
def reputation (s : AgentRegistry.State) (agent : Address) : ℕ := (s.agents agent).reputationScore

/-- The registry takes a change of the agent's reputation. -/
def Takes (s : AgentRegistry.State) (agent : Address) (d : ℤ) : Prop :=
  s.paused = false ∧ IsInt256 (reputation s agent + d)

instance (s : AgentRegistry.State) (agent : Address) (d : ℤ) : Decidable (Takes s agent d) :=
  inferInstanceAs (Decidable (_ ∧ _))

/-- What arrives of a change: as much as fits between 0 and 10000. -/
def changed (s : AgentRegistry.State) (agent : Address) (d : ℤ) : ℤ :=
  if Takes s agent d then max (-(reputation s agent : ℤ)) (min (10000 - reputation s agent) d) else 0

/-- The environment of a call that the staking manager makes. -/
def stakingEnv (staking : Address) (env : StakingManager.Env) : AgentRegistry.Env where
  sender := staking
  value := 0
  timestamp := env.timestamp
  transferAnswer := env.transferAnswer
  associateAnswer := env.associateAnswer

section Registry

variable {s s' : AgentRegistry.State} {env : AgentRegistry.Env} {agent : Address} {d : ℤ}

theorem toSigned_reputation (h : reputation s agent ≤ 10000) :
    toSigned 256 (reputation s agent) = reputation s agent := by
  unfold toSigned
  rw [Int.bmod_eq_of_le]
  · norm_num
  · norm_num
    omega

theorem clamp_eq (s : AgentRegistry.State) (agent : Address) (d : ℤ) :
    ((AgentRegistry.clampReputation (reputation s agent + d)).toNat : ℤ) =
      reputation s agent + max (-(reputation s agent : ℤ)) (min (10000 - reputation s agent) d) := by
  unfold AgentRegistry.clampReputation
  split_ifs <;> omega

theorem updateReputation_takes (hr : reputation s agent ≤ 10000)
    (h : AgentRegistry.updateReputation env agent d s = .ok s') :
    Takes s agent d ∧ (reputation s' agent : ℤ) = reputation s agent + changed s agent d := by
  simp only [AgentRegistry.updateReputation, AgentRegistry.applyReputationDelta,
    AgentRegistry.getExistingProfile, bind_eq_ok, modifier_eq_ok, checkedAddInt_eq_ok, pure_eq_ok] at h
  obtain ⟨_, -, _, hunpaused, _, ⟨_, -, rfl⟩, _, ⟨hrange, rfl⟩, rfl⟩ := h
  rw [show (s.agents agent).reputationScore = reputation s agent from rfl,
    toSigned_reputation hr] at hrange
  have htakes : Takes s agent d := ⟨hunpaused, hrange⟩
  refine ⟨htakes, ?_⟩
  unfold changed
  rw [if_pos htakes, ← clamp_eq]
  unfold reputation
  simp only [AgentRegistry.State.emit_agents, AgentRegistry.State.setProfile_agents, Function.update_self]
  rw [show (s.agents agent).reputationScore = reputation s agent from rfl, toSigned_reputation hr]

theorem Takes.succeeds (env : AgentRegistry.Env) (h : Takes s agent d) (hr : reputation s agent ≤ 10000)
    (hscorer : env.sender = s.orchestrator ∨ env.sender = s.auctionContract)
    (hregistered : (s.agents agent).agentAddress ≠ 0) :
    ∃ s', AgentRegistry.updateReputation env agent d s = .ok s' := by
  simp only [AgentRegistry.updateReputation, AgentRegistry.onlyOrchestratorOrAuction,
    AgentRegistry.applyReputationDelta, AgentRegistry.getExistingProfile, bind_eq_ok, require_eq_ok,
    modifier_eq_ok, checkedAddInt_eq_ok, pure_eq_ok]
  refine ⟨_, (), hscorer, (), h.1, _, ⟨(), hregistered, rfl⟩, _, ⟨?_, rfl⟩, rfl⟩
  rw [show (s.agents agent).reputationScore = reputation s agent from rfl, toSigned_reputation hr]
  exact h.2

end Registry

/-! ## The two contracts -/

/-- The call to the registry by which the staking manager asks for a change. -/
def scoringCall (staking : Address) (env : StakingManager.Env) (change : Address × ℤ) :
    Option (AgentRegistry.Env × AgentRegistry.Call) :=
  if h : IsInt256 change.2 then
    some (stakingEnv staking env, .updateReputation change.1 ⟨change.2, h⟩)
  else none

/-- The staking manager and the registry, while the registry is the staking manager's. -/
def stakingRegistry (staking registry : Address) :
    Composition StakingManager.State StakingManager.Env StakingManager.Call
      AgentRegistry.State AgentRegistry.Env AgentRegistry.Call where
  caller := StakingManager.contract staking
  callee := AgentRegistry.contract registry
  hear w _ env :=
    if w.state.1.agentRegistry = registry then { env with
      hasCode := Function.update env.hasCode registry true
      isActiveAgent := fun agent => AgentRegistry.isActiveAgent agent w.state.2 }
    else env
  makes env c s :=
    if s.agentRegistry = registry then (scoring s c).bind (scoringCall staking env) else none
  msg_hear w c env := by
    split
    · rfl
    · rfl
  msg_makes env c s call h := by
    split at h
    · obtain ⟨change, -, hcall⟩ := Option.bind_eq_some_iff.mp h
      unfold scoringCall at hcall
      split_ifs at hcall
      obtain rfl := Option.some.inj hcall
      exact ⟨rfl, rfl⟩
    · exact nomatch h

/-- A state of the staking manager and of the registry. -/
abbrev StakingWorld := World (StakingManager.State × AgentRegistry.State)

/-- A call to one of the two. -/
abbrev StakingCall :=
  Either StakingManager.Env StakingManager.Call AgentRegistry.Env AgentRegistry.Call

/-- What a step of the two is. -/
abbrev StakingLabel :=
  JointLabel StakingManager.Env StakingManager.Call AgentRegistry.Env AgentRegistry.Call

/-- The staking manager knows the registry, and is one of its scorers. -/
structure ScoringWired (staking registry : Address) (w : StakingWorld) : Prop where
  agentRegistry : w.state.1.agentRegistry = registry
  deployed : registry ≠ 0
  scorer : staking = w.state.2.orchestrator ∨ staking = w.state.2.auctionContract

/-- A slash of a registered agent at `w₀`, and the approval of the appeal against it at `w₂`. In between there
may be any steps, as long as the agent's reputation is the same again. -/
structure Appealed (staking registry : Address) (agent : Address) (reason : SlashReason)
    (w₀ w₁ w₂ w₃ : StakingWorld) : Prop where
  before : ScoringWired staking registry w₀
  registered : (w₀.state.2.agents agent).agentAddress ≠ 0
  range : reputation w₀.state.2 agent ≤ 10000
  slash : ∃ env jobId subJobId evidenceHash, (stakingRegistry staking registry).Step w₀
    (.call (.caller env (.initiateSlash agent jobId subJobId reason evidenceHash))) w₁
  between : ∃ ls, Path (stakingRegistry staking registry).Step w₁ ls w₂
  unchanged : reputation w₂.state.2 agent = reputation w₁.state.2 agent
  after : ScoringWired staking registry w₂
  approval : ∃ env slashId, (slashId : UInt 256).val = w₀.state.1.nextSlashId ∧
    (stakingRegistry staking registry).Step w₂
      (.call (.caller env (.resolveAppeal slashId true))) w₃

/-- What the approval takes back is what arrived of the penalty, or the clamp hides the difference. -/
def Reversible (agent : Address) (reason : SlashReason) (w₀ w₂ : StakingWorld) : Prop :=
  let r := reputation w₀.state.2 agent
  let arrived := changed w₀.state.2 agent (w₀.state.1.reputationPenalties reason)
  let penalty := w₂.state.1.reputationPenalties reason
  if Takes w₂.state.2 agent (-penalty) then
    penalty = arrived ∨ (r = 0 ∧ arrived ≤ penalty) ∨ (r = 10000 ∧ penalty ≤ arrived)
  else arrived = 0

variable {staking registry agent : Address} {reason : SlashReason} {w w' w₀ w₁ w₂ w₃ : StakingWorld}

/-! ## Invariants -/

theorem staking_exec_ok {env : StakingManager.Env} {c : StakingManager.Call}
    (h : (stakingRegistry staking registry).exec (.caller env c) w = .ok w') :
    ∃ v : StakingManager.World, StakingManager.exec staking
        ((stakingRegistry staking registry).hear w c env) c ⟨w.state.1, w.token⟩ = .ok v ∧
      w'.state.1 = v.state ∧
      ∃ token, w'.state.2 = ((stakingRegistry staking registry).relay
        ((stakingRegistry staking registry).makes env c w.state.1) ⟨w.state.2, token, w.now⟩).state := by
  obtain ⟨u, hexec, rfl⟩ := Composition.exec_caller_ok.mp h
  change (do
    let w' ← StakingManager.exec staking _ c ⟨w.state.1, w.token⟩
    pure ⟨w'.state, w'.guard, w.now⟩ : Tx (World StakingManager.State)) = .ok u at hexec
  rw [bind_eq_ok] at hexec
  obtain ⟨v, hexec, hpure⟩ := hexec
  rw [pure_eq_ok] at hpure
  subst hpure
  exact ⟨v, hexec, rfl, _, rfl⟩

theorem Step.kept {l : StakingLabel} (h : (stakingRegistry staking registry).Step w l w') :
    StakingManager.Kept w.state.1 w'.state.1 := by
  cases h with
  | elsewhere => exact .of_eq rfl rfl rfl
  | @call c _ _ hs hexec =>
    cases c with
    | caller env c =>
      obtain ⟨v, hcall, hstate, -⟩ := staking_exec_ok hexec
      rw [hstate]
      exact StakingManager.exec_kept hcall
    | callee env c =>
      obtain ⟨u, -, rfl⟩ := Composition.exec_callee_ok.mp hexec
      exact .of_eq rfl rfl rfl

theorem penalty_range (hw : (stakingRegistry staking registry).system.Reachable w)
    (reason : SlashReason) : IsInt256 (w.state.1.reputationPenalties reason) := by
  induction hw with
  | @init w h =>
    obtain ⟨⟨⟨deployer, guardToken, agentRegistry, treasury, hdeploy⟩, -⟩, -⟩ := h
    obtain ⟨_, _, _, _, hstate⟩ := StakingManager.Deployed.state_eq (w := ⟨w.state.1, w.token⟩)
      ⟨deployer, guardToken, agentRegistry, treasury, hdeploy⟩
    rw [show w.state.1 = _ from hstate]
    change IsInt256 (StakingManager.initialReputationPenalty reason)
    cases reason <;> decide
  | step _ h ih =>
    rcases (Step.kept h).penalty reason with hsame | hfits
    · rw [hsame]
      exact ih
    · exact hfits

theorem Step.registered {l : StakingLabel} (hw : (stakingRegistry staking registry).system.Reachable w)
    (h : (stakingRegistry staking registry).Step w l w')
    (hregistered : (w.state.2.agents agent).agentAddress ≠ 0) :
    (w'.state.2.agents agent).agentAddress ≠ 0 := by
  cases h with
  | elsewhere => exact hregistered
  | @call c _ _ hs hexec =>
    obtain ⟨-, hzero, -⟩ := hs
    cases c with
    | callee env c =>
      obtain ⟨u, hcall, rfl⟩ := Composition.exec_callee_ok.mp hexec
      exact AgentRegistry.registered_stays hcall hzero hregistered
    | caller env c =>
      obtain ⟨v, -, -, token, hstate⟩ := staking_exec_ok hexec
      rw [hstate]
      unfold Composition.relay
      split
      · exact hregistered
      · next call hmakes =>
        have hsender := ((stakingRegistry staking registry).msg_makes env c _ call hmakes).1
        -- The relayed call is the staking manager's, which is not address zero.
        unfold Contract.attempt
        split
        · next u hcall =>
          have hstaking : call.1.sender ≠ 0 := by
            rw [show call.1.sender = staking from hsender]
            exact (Composition.distinct hw).2
          have hstays := AgentRegistry.registered_stays hcall hstaking hregistered
          exact hstays
        · exact hregistered

/-! ## The two changes -/

/-- A call of the staking manager that asks for the change `d`, or for none if `d` is zero, changes the
reputation by what arrives of `d`. -/
theorem reputation_changed {env : StakingManager.Env} {c : StakingManager.Call} {d : ℤ}
    {token : TokenLedger} {now : ℕ} (hwired : ScoringWired staking registry w)
    (hregistered : (w.state.2.agents agent).agentAddress ≠ 0) (hr : reputation w.state.2 agent ≤ 10000)
    (hasks : scoring w.state.1 c = if d ≠ 0 ∧ w.state.1.agentRegistry ≠ 0 then some (agent, d) else none)
    (hd : d ≠ 0 → w.state.1.agentRegistry ≠ 0 → IsInt256 d) :
    (reputation ((stakingRegistry staking registry).relay
      ((stakingRegistry staking registry).makes env c w.state.1) ⟨w.state.2, token, now⟩).state agent : ℤ) =
      reputation w.state.2 agent + changed w.state.2 agent d := by
  have hmakes : (stakingRegistry staking registry).makes env c w.state.1 =
      (scoring w.state.1 c).bind (scoringCall staking env) := if_pos hwired.agentRegistry
  have hne : w.state.1.agentRegistry ≠ 0 := by
    rw [hwired.agentRegistry]
    exact hwired.deployed
  rw [hmakes, hasks]
  rcases eq_or_ne d 0 with rfl | hscored
  · -- no call, and nothing would arrive
    have hnothing : changed w.state.2 agent 0 = 0 := by
      unfold changed
      split_ifs <;> omega
    rw [if_neg (fun h => h.1 rfl), hnothing]
    exact (add_zero _).symm
  · have hfits := hd hscored hne
    have hcall : scoringCall staking env (agent, d) =
      some (stakingEnv staking env, .updateReputation agent ⟨d, hfits⟩) := dif_pos hfits
    rw [if_pos ⟨hscored, hne⟩, Option.bind_some, hcall]
    have hupdate := Contract.attempt_onState (C := AgentRegistry.contract registry)
      (w := ⟨w.state.2, token, now⟩) (stakingEnv staking env) (.updateReputation agent ⟨d, hfits⟩)
      (AgentRegistry.updateReputation (stakingEnv staking env) agent d) rfl
    change (reputation ((AgentRegistry.contract registry).attempt (stakingEnv staking env)
      (.updateReputation agent ⟨d, hfits⟩) ⟨w.state.2, token, now⟩).state agent : ℤ) = _
    -- A failed update is swallowed, and fails exactly if nothing should arrive.
    rcases hupdate with ⟨s, hok, heq⟩ | ⟨e, herror, heq⟩
    · rw [heq]
      exact (updateReputation_takes hr hok).2
    · rw [heq]
      unfold changed
      rw [if_neg, add_zero]
      intro htakes
      obtain ⟨s, hok⟩ := htakes.succeeds (stakingEnv staking env) hr hwired.scorer hregistered
      rw [hok] at herror
      exact nomatch herror

theorem changed_range (s : AgentRegistry.State) (agent : Address) (d : ℤ) (h : reputation s agent ≤ 10000) :
    0 ≤ reputation s agent + changed s agent d ∧ reputation s agent + changed s agent d ≤ 10000 := by
  unfold changed
  split_ifs <;> omega

theorem taken_back_iff {s s' : AgentRegistry.State} {penalty arrived : ℤ}
    (hr : reputation s agent ≤ 10000)
    (hr' : (reputation s' agent : ℤ) = reputation s agent + arrived)
    (hrange : 0 ≤ reputation s agent + arrived ∧ reputation s agent + arrived ≤ 10000) :
    (reputation s' agent + changed s' agent (-penalty) : ℤ) = reputation s agent ↔
      if Takes s' agent (-penalty) then
        penalty = arrived ∨ (reputation s agent = 0 ∧ arrived ≤ penalty) ∨
          (reputation s agent = 10000 ∧ penalty ≤ arrived)
      else arrived = 0 := by
  obtain ⟨hlow, hhigh⟩ := hrange
  unfold changed
  split_ifs with htakes
  · omega
  · omega

theorem slash_changes {env : StakingManager.Env} {jobId subJobId evidenceHash : UInt 256}
    (hw : (stakingRegistry staking registry).system.Reachable w) (hwired : ScoringWired staking registry w)
    (hregistered : (w.state.2.agents agent).agentAddress ≠ 0) (hr : reputation w.state.2 agent ≤ 10000)
    (h : (stakingRegistry staking registry).Step w
      (.call (.caller env (.initiateSlash agent jobId subJobId reason evidenceHash))) w') :
    (reputation w'.state.2 agent : ℤ) = reputation w.state.2 agent +
        changed w.state.2 agent (w.state.1.reputationPenalties reason) ∧
      w.state.1.nextSlashId < w'.state.1.nextSlashId ∧
      (w'.state.1.slashRecords w.state.1.nextSlashId).agent = agent ∧
      (w'.state.1.slashRecords w.state.1.nextSlashId).reason = reason := by
  cases h with
  | call hs hexec =>
    obtain ⟨v, hcall, hstate, token, hregistry⟩ := staking_exec_ok hexec
    constructor
    · rw [hregistry]
      exact reputation_changed hwired hregistered hr rfl fun _ _ => penalty_range hw reason
    · rw [hstate]
      unfold StakingManager.exec at hcall
      split_ifs at hcall
      exact (StakingManager.initiateSlash_kept (StakingManager.onState_eq_ok.mp hcall).1).2

theorem approval_changes {env : StakingManager.Env} {slashId : UInt 256}
    (hw : (stakingRegistry staking registry).system.Reachable w) (hwired : ScoringWired staking registry w)
    (hregistered : (w.state.2.agents agent).agentAddress ≠ 0) (hr : reputation w.state.2 agent ≤ 10000)
    (hagent : (w.state.1.slashRecords slashId).agent = agent)
    (hreason : (w.state.1.slashRecords slashId).reason = reason)
    (h : (stakingRegistry staking registry).Step w
      (.call (.caller env (.resolveAppeal slashId true))) w') :
    (reputation w'.state.2 agent : ℤ) = reputation w.state.2 agent +
      changed w.state.2 agent (-w.state.1.reputationPenalties reason) := by
  cases h with
  | call hs hexec =>
    obtain ⟨v, hcall, hstate, token, hregistry⟩ := staking_exec_ok hexec
    unfold StakingManager.exec at hcall
    split_ifs at hcall
    have hnegated := (StakingManager.resolveAppeal_approved hcall).2
    dsimp only at hnegated
    rw [hreason] at hnegated
    have hasks : scoring w.state.1 (.resolveAppeal slashId true) =
        if -w.state.1.reputationPenalties reason ≠ 0 ∧ w.state.1.agentRegistry ≠ 0 then
          some (agent, -w.state.1.reputationPenalties reason) else none := by
      simp only [scoring, hagent, hreason, ne_eq, neg_eq_zero]
    rw [hregistry]
    refine reputation_changed hwired hregistered hr hasks fun hne hknown => ?_
    -- The penalty fits its type and is not its least value, so its opposite fits as well.
    have hrange := penalty_range hw reason
    have hlow := hnegated (neg_ne_zero.mp hne) hknown
    unfold IsInt256 at hrange ⊢
    omega

/-- For every agent, reason, penalties and reputation: the approval of an appeal restores the reputation from
before the slash if and only if the penalty is reversible. -/
theorem penalty_reversed_iff (hw : (stakingRegistry staking registry).system.Reachable w₀)
    (h : Appealed staking registry agent reason w₀ w₁ w₂ w₃) :
    reputation w₃.state.2 agent = reputation w₀.state.2 agent ↔ Reversible agent reason w₀ w₂ := by
  obtain ⟨env, jobId, subJobId, evidenceHash, hslash⟩ := h.slash
  obtain ⟨ls, hpath⟩ := h.between
  obtain ⟨env', slashId, hid, happroval⟩ := h.approval
  have hw₁ : (stakingRegistry staking registry).system.Reachable w₁ := .step hw hslash
  -- What is known at the slash is still known at the approval.
  have hpast : (stakingRegistry staking registry).system.Reachable w₂ ∧
      (w₂.state.2.agents agent).agentAddress ≠ 0 ∧ StakingManager.Kept w₁.state.1 w₂.state.1 := by
    refine hpath.induct (P := fun w => (stakingRegistry staking registry).system.Reachable w ∧
      (w.state.2.agents agent).agentAddress ≠ 0 ∧ StakingManager.Kept w₁.state.1 w.state.1) ?_ ?_
    · rintro w l w' ⟨hreachable, hregistered, hkept⟩ hstep
      exact ⟨.step hreachable hstep, Step.registered hreachable hstep hregistered,
        hkept.trans (Step.kept hstep)⟩
    · exact ⟨hw₁, Step.registered hw hslash h.registered, .of_eq rfl rfl rfl⟩
  obtain ⟨hw₂, hregistered, hkept⟩ := hpast
  obtain ⟨harrives, hnext, hagent, hreason⟩ := slash_changes hw h.before h.registered h.range hslash
  have hrange := changed_range w₀.state.2 agent (w₀.state.1.reputationPenalties reason) h.range
  have hstill : (reputation w₂.state.2 agent : ℤ) = reputation w₀.state.2 agent +
      changed w₀.state.2 agent (w₀.state.1.reputationPenalties reason) := by
    rw [h.unchanged]
    exact harrives
  have hr₂ : reputation w₂.state.2 agent ≤ 10000 := by omega
  rw [← hid] at hnext hagent hreason
  have hback := approval_changes hw₂ h.after hregistered hr₂ ((hkept.agent _ hnext).trans hagent)
    ((hkept.reason _ hnext).trans hreason) happroval
  rw [← Nat.cast_inj (R := ℤ), hback]
  exact taken_back_iff h.range hstill hrange

/-! ## An appeal

The staking manager at address 40 and the registry at address 30, of which it is a scorer. The agent 2
registers and stakes, 5 slashes it for a false positive, which costs 100 points, and the owner 9 approves the
appeal. -/

/-- The two contracts, just deployed. -/
def stakingWorld : StakingWorld where
  state := (StakingManager.State.fresh 9 7 30 8, AgentRegistry.State.fresh 9 7)
  token := Ledger.single 2 (10^12) TokenLedger.trillion_lt
  now := 0

/-- The calls up to the slash. -/
def stakedCalls : List StakingCall := [
  .callee (AgentRegistry.sampleEnv 9 0) (.setOrchestratorAndAuction 5 40),
  .callee (AgentRegistry.sampleEnv 2 1)
    (.registerAgent "agent-2" "https://agent-2" ["fuzzing"] (100 * 10^8)),
  .caller (StakingManager.sampleEnv 2 2) (.stake (1000 * 10^8)),
  .caller (StakingManager.sampleEnv 9 3) (.admin (.addAuthorizedSlasher 5))]

/-- The same for an agent with a reputation of 50. -/
def lowCalls : List StakingCall :=
  stakedCalls ++ [.callee (AgentRegistry.sampleEnv 9 4) (.seedAgentReputation 2 50)]

/-- The slash. -/
def slashCall : StakingCall :=
  .caller (StakingManager.sampleEnv 5 5) (.initiateSlash 2 1 0 .falsePositive 7)

/-- The appeal. -/
def appealCall : StakingCall := .caller (StakingManager.sampleEnv 2 6) (.fileAppeal 1 "accurate")

/-- The approval. -/
def approvalCall : StakingCall := .caller (StakingManager.sampleEnv 9 7) (.resolveAppeal 1 true)

/-- The state is wired, and the agent 2 registered with a reputation in range. -/
def Ready (w : StakingWorld) : Prop :=
  (w.state.1.agentRegistry = 30 ∧ w.state.2.auctionContract = 40) ∧
    (w.state.2.agents 2).agentAddress ≠ 0 ∧ reputation w.state.2 2 ≤ 10000 ∧ w.state.1.nextSlashId = 1

instance (w : StakingWorld) : Decidable (Ready w) := inferInstanceAs (Decidable (_ ∧ _))

/-- The slash, the appeal and the approval after other calls. -/
theorem appealed_after {calls : List StakingCall} (r : ℕ) (hs : (stakingRegistry 40 30).Scheduled 0 calls)
    (hall : (stakingRegistry 40 30).Scheduled 0 (calls ++ [slashCall, appealCall, approvalCall]))
    (h : ((stakingRegistry 40 30).execAll (calls ++ [slashCall, appealCall, approvalCall])
      stakingWorld).isOk = true)
    (hready : ((stakingRegistry 40 30).execAll calls stakingWorld).map (fun w => decide (Ready w)) =
      .ok true)
    (hslashed : ((stakingRegistry 40 30).execAll (calls ++ [slashCall]) stakingWorld).map
      (fun w => reputation w.state.2 2) = .ok r)
    (happealed : ((stakingRegistry 40 30).execAll (calls ++ [slashCall, appealCall]) stakingWorld).map
      (fun w => decide ((w.state.1.agentRegistry = 30 ∧ w.state.2.auctionContract = 40) ∧
        reputation w.state.2 2 = r)) = .ok true) :
    ∃ w₀ w₁ w₂ w₃, (stakingRegistry 40 30).system.Reachable w₀ ∧
      (stakingRegistry 40 30).execAll calls stakingWorld = .ok w₀ ∧
      (stakingRegistry 40 30).execAll (calls ++ [slashCall, appealCall, approvalCall]) stakingWorld =
        .ok w₃ ∧
      Appealed 40 30 2 .falsePositive w₀ w₁ w₂ w₃ := by
  obtain ⟨w₃, hw₃⟩ := exists_eq_ok h
  obtain ⟨w₀, hw₀, hrest⟩ := Composition.execAll_append.mp hw₃
  obtain ⟨w₁, hslash, hrest'⟩ := Composition.execAll_append.mp
    (show (stakingRegistry 40 30).execAll ([slashCall] ++ [appealCall, approvalCall]) w₀ = .ok w₃
      from hrest)
  obtain ⟨w₂, happeal, happroval⟩ := Composition.execAll_append.mp
    (show (stakingRegistry 40 30).execAll ([appealCall] ++ [approvalCall]) w₁ = .ok w₃ from hrest')
  have hw₁ := Composition.execAll_append.mpr ⟨w₀, hw₀, hslash⟩
  have hw₂ := Composition.execAll_append.mpr ⟨w₁, hw₁, happeal⟩
  rw [List.append_assoc] at hw₂
  -- The three calls are steps.
  have hsend := Composition.scheduled_execAll (w := stakingWorld) hall hw₀
  have hsend₁ : (stakingRegistry 40 30).Scheduled w₁.now [appealCall, approvalCall] :=
    Composition.scheduled_execAll hsend hslash
  have hsend₂ : (stakingRegistry 40 30).Scheduled w₂.now [approvalCall] :=
    Composition.scheduled_execAll hsend₁ happeal
  have hinit : (stakingRegistry 40 30).system.init stakingWorld :=
    ⟨⟨⟨9, 7, 30, 8, rfl⟩, ⟨9, 7, rfl⟩⟩, by decide, by decide⟩
  obtain ⟨ts, hrun, -⟩ := Composition.run_execAll (.init (S := (stakingRegistry 40 30).system) hinit) hs hw₀
  obtain ⟨⟨hregistry, hscorer⟩, hregistered, hrange, hid⟩ := of_decide_eq_true (read_ok hw₀ _ hready)
  have hr := read_ok hw₁ _ hslashed
  obtain ⟨⟨hregistry₂, hscorer₂⟩, hr₂⟩ := of_decide_eq_true (read_ok hw₂ _ happealed)
  refine ⟨w₀, w₁, w₂, w₃, hrun.reachable, hw₀, hw₃, ?_⟩
  constructor
  case before => exact ⟨hregistry, by decide, .inr hscorer.symm⟩
  case registered => exact hregistered
  case range => exact hrange
  case slash => exact ⟨_, _, _, _, .call hsend.1 (Composition.execAll_singleton.mp hslash)⟩
  case between => exact ⟨_, .single (.call hsend₁.1 (Composition.execAll_singleton.mp happeal))⟩
  case unchanged => rw [hr₂, hr]
  case after => exact ⟨hregistry₂, by decide, .inr hscorer₂.symm⟩
  case approval => exact ⟨_, 1, hid.symm, .call hsend₂.1 (Composition.execAll_singleton.mp happroval)⟩

/-- The equivalence on the appeal of an agent with a reputation of 5000, which is restored. -/
theorem penalty_reversed_iff_restored : ∃ w₀ w₂ w₃ : StakingWorld,
    (stakingRegistry 40 30).system.Reachable w₀ ∧
    (reputation w₃.state.2 2 = reputation w₀.state.2 2 ↔ Reversible 2 .falsePositive w₀ w₂) ∧
    reputation w₀.state.2 2 = 5000 ∧ reputation w₃.state.2 2 = 5000 := by
  obtain ⟨w₀, w₁, w₂, w₃, hw, hcalls, hcalls', happealed⟩ := appealed_after 4900
    (show (stakingRegistry 40 30).Scheduled 0 stakedCalls by decide) (by decide) rfl (by decide +kernel)
    (by decide +kernel) (by decide +kernel)
  have hbefore := read_ok hcalls (fun w => reputation w.state.2 2) (b := 5000) (by decide +kernel)
  have hafter := read_ok hcalls' (fun w => reputation w.state.2 2) (b := 5000) (by decide +kernel)
  exact ⟨w₀, w₂, w₃, hw, penalty_reversed_iff hw happealed, hbefore, hafter⟩

/-- An agent with a reputation of 50 comes out of a slash and an approved appeal with 100. -/
theorem appeal_raises_reputation : ∃ w₀ w₁ w₂ w₃ : StakingWorld,
    (stakingRegistry 40 30).system.Reachable w₀ ∧ Appealed 40 30 2 .falsePositive w₀ w₁ w₂ w₃ ∧
    reputation w₀.state.2 2 = 50 ∧ reputation w₃.state.2 2 = 100 := by
  obtain ⟨w₀, w₁, w₂, w₃, hw, hcalls, hcalls', happealed⟩ := appealed_after 0
    (show (stakingRegistry 40 30).Scheduled 0 lowCalls by decide) (by decide) rfl (by decide +kernel)
    (by decide +kernel) (by decide +kernel)
  have hbefore := read_ok hcalls (fun w => reputation w.state.2 2) (b := 50) (by decide +kernel)
  have hafter := read_ok hcalls' (fun w => reputation w.state.2 2) (b := 100) (by decide +kernel)
  exact ⟨w₀, w₁, w₂, w₃, hw, happealed, hbefore, hafter⟩

end AuditGuard.Deployment
