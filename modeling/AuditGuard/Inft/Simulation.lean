import AuditGuard.Inft.Mirror
import AuditGuard.StakingManager.Activity

/-!
# The mirror of the stakes in every run

The listener handles the events of `StakingManager` in the order of the log. What it has mirrored of an agent after
some call is what it had mirrored before, with the events of the call (`mirrored_step_iff`), so that a run is mirrored
throughout exactly if each of its calls is one that the mirror can show.
-/

namespace AuditGuard.Inft

open Evm StakingManager TransitionSystem

variable {hex : Address → String} {l : Listener} {agent : Address} {serial : ℕ}

/-! ## The listener -/

/-- The staking details after some events, of which only those of the agent count. -/
def mirrorAll (agent : Address) (events : List StakingManager.Event) (staking : Staking) : Staking :=
  events.foldl (fun staking e => if stakingAgent e = some agent then mirror e staking else staking) staking

/-- The agent's iNFT has these staking details. -/
def Listener.Holds (l : Listener) (agent : Address) (serial : ℕ) (staking : Staking) : Prop :=
  ∃ p, l.Knows agent serial p ∧ p.staking = some staking

/-- An event of the contract changes what is mirrored if it is one of the agent. -/
theorem Listener.Holds.handle {staking : Staking} (h : l.Holds agent serial staking) (e : StakingManager.Event) :
    (handle hex l (.staking e)).Holds agent serial
      (if stakingAgent e = some agent then mirror e staking else staking) := by
  obtain ⟨p, hp, hstaking⟩ := h
  rw [handle_staking]
  cases hagent : stakingAgent e with
  | none => exact ⟨p, hp, hstaking⟩
  | some a =>
    dsimp only
    rcases eq_or_ne a agent with rfl | hne
    · rw [if_pos rfl]
      exact ⟨_, hp.onProfile _, profileEffect_staking e hstaking⟩
    · rw [if_neg (by simpa using hne)]
      exact ⟨p, hp.onProfile_of_ne hne _, hstaking⟩

/-- The events of a log, one after the other. -/
theorem Listener.Holds.handleAll {staking : Staking} (h : l.Holds agent serial staking)
    (events : List StakingManager.Event) :
    (handleAll hex (events.map .staking) l).Holds agent serial (mirrorAll agent events staking) := by
  induction events generalizing l staking with
  | nil => exact h
  | cons e events ih => exact ih (h.handle e)

/-- Events of others change nothing. -/
theorem mirrorAll_of_forall {es : List StakingManager.Event} (h : ∀ e ∈ es, stakingAgent e ≠ some agent)
    (staking : Staking) : mirrorAll agent es staking = staking := by
  induction es with
  | nil => rfl
  | cons e es ih =>
    rw [List.forall_mem_cons] at h
    change mirrorAll agent es (if stakingAgent e = some agent then mirror e staking else staking) = _
    rw [if_neg h.1]
    exact ih h.2

/-- Nor do events that say nothing of stakes. -/
theorem mirrorAll_of_quiet {es : List StakingManager.Event} (h : ∀ e ∈ es, ∀ staking, stakingUpdate staking e = none)
    (staking : Staking) : mirrorAll agent es staking = staking := by
  induction es with
  | nil => rfl
  | cons e es ih =>
    rw [List.forall_mem_cons] at h
    change mirrorAll agent es (if stakingAgent e = some agent then mirror e staking else staking) = _
    rw [mirror, h.1, ite_self]
    exact ih h.2

/-! ## One operation -/

/-- What the log says of an operation. -/
def Emitted (b : Books) : BookOp → List StakingManager.Event → Prop
  | .deposit a x, es => es = [.staked a x ((b.positions a).total + x)]
  | .request a x, es => ∃ completesAt, es = [.unstakeRequested a x completesAt]
  | .complete a, es => es = [.unstakeCompleted a (b.positions a).unbonding]
  | .deactivate a, es => ∃ completesAt,
    es = [.agentDeactivating a, .unstakeRequested a (b.positions a).available completesAt]
  | .lock a x, es => ∃ jobId, es = [.stakeLocked a x jobId]
  | .unlock a x, es => ∃ jobId, es = [.stakeUnlocked a x jobId]
  | .slash a bps, es => ∃ slashId reason evidenceHash jobId,
    es = [.slashInitiated slashId a reason ((b.positions a).slashAmount bps) bps evidenceHash jobId]
  | .approve id, es => es = [.appealApproved id (b.slashes id).agent (b.slashes id).amount]
  | .deny _ _, es => ∀ e ∈ es, ∀ staking, stakingUpdate staking e = none

/-- The condition on an operation under which the mirror of an agent shows it. -/
def ShownOp (agent : Address) (b : Books) : BookOp → Prop
  | .deposit a x => a = agent → (b.positions agent).locked = 0 ∧ (b.positions agent).unbonding = 0 ∧
    ((b.positions agent).status = .active ∨
      (b.positions agent).status = .withdrawn ∧ initialMinStake ≤ (b.positions agent).total + x)
  | .complete a => a = agent → (b.positions agent).effective = 0 ∨ (b.positions agent).status = .active ∨
    (b.positions agent).status = .unbonding ∧ initialMinStake ≤ (b.positions agent).effective
  | .slash a bps => a = agent → (b.positions agent).slashAmount bps = 0
  | .approve id => (b.slashes id).agent = agent →
    (b.positions agent).status = .unbonding ∨ (b.positions agent).status = .withdrawn →
      (b.positions agent).total + (b.slashes id).amount < initialMinStake
  | _ => True

section Operations

variable {this a : Address} {b b' : Books} {op : BookOp} {es : List StakingManager.Event} {staking : Staking}
  {p : Position}

theorem shows_update_iff {C : Prop} (h : staking.Shows (b.positions agent))
    (hes : ∀ e ∈ es, stakingAgent e = some a)
    (hself : a = agent → ((es.foldl (fun staking e => mirror e staking) staking).Shows p ↔ C)) :
    (mirrorAll agent es staking).Shows (Function.update b.positions a p agent) ↔ (a = agent → C) := by
  rcases eq_or_ne a agent with rfl | hne
  · have hall : mirrorAll a es staking = es.foldl (fun staking e => mirror e staking) staking := by
      refine List.foldl_ext _ _ _ fun staking e he => ?_
      rw [if_pos (hes e he)]
    rw [hall, Function.update_self, hself rfl]
    exact ⟨fun hc _ => hc, fun hc => hc rfl⟩
  · rw [Function.update_of_ne hne.symm, mirrorAll_of_forall]
    · exact iff_of_true h fun ha => absurd ha hne
    · intro e he hagent
      rw [hes e he, Option.some.injEq] at hagent
      exact hne hagent

theorem shows_update (h : staking.Shows (b.positions agent)) (hes : ∀ e ∈ es, stakingAgent e = some a)
    (hself : a = agent → (es.foldl (fun staking e => mirror e staking) staking).Shows p) :
    (mirrorAll agent es staking).Shows (Function.update b.positions a p agent) :=
  (shows_update_iff (C := True) h hes fun ha => iff_of_true (hself ha) trivial).mpr fun _ => trivial

/-- The mirror shows an operation exactly under its condition. -/
theorem shows_step_iff (h : staking.Shows (b.positions agent)) (hstep : BookStep this initialMinStake b op b')
    (hes : Emitted b op es) : (mirrorAll agent es staking).Shows (b'.positions agent) ↔ ShownOp agent b op := by
  cases hstep with
  | @deposit a x guard hx ha hpay =>
    obtain rfl := hes
    refine shows_update_iff h (by simp [stakingAgent]) ?_
    rintro rfl
    exact shows_deposit_iff a h
  | @request a x hx hactive hle hnone hmin =>
    obtain ⟨completesAt, rfl⟩ := hes
    refine iff_of_true (shows_update h (by simp [stakingAgent]) ?_) trivial
    rintro rfl
    exact shows_request a h hle hnone completesAt
  | @complete a guard hpos ha hpay =>
    obtain rfl := hes
    refine shows_update_iff h (by simp [stakingAgent]) ?_
    rintro rfl
    exact shows_complete_iff a h
  | @deactivate a hstatus hlocked hnone hpos =>
    obtain ⟨completesAt, rfl⟩ := hes
    refine iff_of_true (shows_update h (by simp [stakingAgent]) ?_) trivial
    rintro rfl
    exact shows_deactivate a h hnone completesAt
  | @lock a x hx hle =>
    obtain ⟨jobId, rfl⟩ := hes
    refine iff_of_true (shows_update h (by simp [stakingAgent]) ?_) trivial
    rintro rfl
    exact shows_lock a h hle jobId
  | @unlock a x hx hle =>
    obtain ⟨jobId, rfl⟩ := hes
    refine iff_of_true (shows_update h (by simp [stakingAgent]) ?_) trivial
    rintro rfl
    exact shows_unlock a h hle jobId
  | @slash a bps hpos hbps =>
    obtain ⟨slashId, reason, evidenceHash, jobId, rfl⟩ := hes
    refine shows_update_iff h (by simp [stakingAgent]) ?_
    rintro rfl
    exact shows_slash_iff a h hbps slashId reason evidenceHash jobId
  | @approve id hpending =>
    obtain rfl := hes
    refine shows_update_iff h (by simp [stakingAgent]) ?_
    rintro rfl
    exact shows_restore_iff (b.slashes id).agent h id
  | deny => exact iff_of_true ((mirrorAll_of_quiet hes staking).symm ▸ h) trivial

theorem positions_of_deny {ops : List BookOp} (hsteps : BookSteps this initialMinStake b ops b')
    (hops : ∀ op ∈ ops, ∃ id treasury, op = .deny id treasury) : b'.positions = b.positions := by
  refine hsteps.induct_mem (P := fun c => c.positions = b.positions) (fun c op d hop hc hstep => ?_) rfl
  obtain ⟨id, treasury, rfl⟩ := hops op hop
  cases hstep
  exact hc

end Operations

/-! ## The chain -/

/-- The staking details equal the fields of a stake on chain. -/
structure Staking.Mirrors (staking : Staking) (info : StakeInfo) : Prop where
  totalStaked : staking.totalStaked = toGuard info.totalStaked
  availableStake : staking.availableStake = toGuard info.availableStake
  lockedStake : staking.lockedStake = toGuard info.lockedStake
  unbondingAmount : staking.unbondingAmount = toGuard info.unbondingAmount
  status : staking.status = info.status

/-- The mirror shows the stake of a position. -/
theorem mirrors_iff_shows {staking : Staking} {info : StakeInfo} (h : info.Split) :
    staking.Mirrors info ↔ staking.Shows info.position := by
  rw [StakeInfo.Split] at h
  constructor
  · rintro ⟨htotal, havailable, hlocked, hunbonding, hstatus⟩
    exact ⟨h ▸ htotal, havailable, hlocked, hunbonding, hstatus⟩
  · rintro ⟨htotal, havailable, hlocked, hunbonding, hstatus⟩
    exact ⟨h ▸ htotal, havailable, hlocked, hunbonding, hstatus⟩

/-- After the listener `l` has handled the events of the log, the staking details of the agent's profile equal the
agent's stake. -/
def Mirrored (hex : Address → String) (l : Listener) (agent : Address) (w : World) : Prop :=
  ∃ serial profile staking, (handleAll hex (w.state.log.map .staking) l).profileOf agent = some (serial, profile) ∧
    profile.staking = some staking ∧ staking.Mirrors (w.state.stakes agent)

/-- The condition on a step from `w` under which the mirror of an agent shows it.
- A stake: nothing is locked and nothing unbonds, and the agent is active afterwards.
- A completed unstaking: it leaves nothing, or an active agent.
- A slash: it takes nothing.
- An approved appeal: an agent that left does not come to the minimum by it. -/
def Shown (agent : Address) (w : World) : Label → Prop
  | .call env (.stake amount) =>
    let info := w.state.stakes agent
    env.sender = agent → info.lockedStake = 0 ∧ info.unbondingAmount = 0 ∧ (info.status = .active ∨
      info.status = .withdrawn ∧ w.state.minStakeForActive ≤ info.totalStaked + amount)
  | .call env .completeUnstake =>
    let info := w.state.stakes agent
    let rest := info.totalStaked - info.unbondingAmount
    env.sender = agent → rest = 0 ∨ info.status = .active ∨
      info.status = .unbonding ∧ w.state.minStakeForActive ≤ rest
  | .call _ (.initiateSlash slashed _ _ reason _) =>
    slashed = agent → (w.state.stakes agent).totalStaked * w.state.slashRates reason / 10000 = 0
  | .call _ (.resolveAppeal slashId true) =>
    let info := w.state.stakes agent
    let record := w.state.slashRecords slashId
    record.agent = agent → info.status = .unbonding ∨ info.status = .withdrawn →
      info.totalStaked + record.slashedAmount < w.state.minStakeForActive
  | _ => True

variable {this : Address} {env : Env} {w w' : World} {ts : List (Transition World StakingManager.Label)}

theorem Listener.Registered.holds (h : l.Registered agent serial 0) :
    l.Holds agent serial ⟨0, 0, 0, 0, none, .active, []⟩ := by
  obtain ⟨reputation, hprofile⟩ := h.profile
  exact ⟨_, ⟨h.index, h.own, hprofile⟩, rfl⟩

/-- What is mirrored is what the events of the log make of an empty stake. -/
theorem mirrored_iff (h : l.Registered agent serial 0) (hw : w.state.core.Faithful) :
    Mirrored hex l agent w ↔ (mirrorAll agent w.state.log ⟨0, 0, 0, 0, none, .active, []⟩).Shows
      (w.state.stakes agent).position := by
  have hsplit : (w.state.stakes agent).Split := hw.split agent
  rw [← mirrors_iff_shows hsplit]
  have hholds : (handleAll hex (w.state.log.map .staking) l).Holds agent serial _ := h.holds.handleAll w.state.log
  obtain ⟨profile, hknows, hstaking⟩ := hholds
  have hof := hknows.profileOf
  constructor
  · rintro ⟨serial', profile', staking', hof', hstaking', hmirrors⟩
    rw [hof, Option.some.injEq, Prod.mk.injEq] at hof'
    obtain ⟨rfl, rfl⟩ := hof'
    rw [hstaking, Option.some.injEq] at hstaking'
    exact hstaking' ▸ hmirrors
  · exact fun hmirrors => ⟨serial, profile, _, hof, hstaking, hmirrors⟩

section Steps

variable {c : Call} {ops : List BookOp} {es : List StakingManager.Event} {staking : Staking}

/-- The mirror shows a call exactly under its condition. -/
theorem shows_call_iff (hw : w.state.core.Faithful) (h : staking.Shows (w.books.positions agent))
    (hdoes : c.Does env w ops) (hrefines : Refines this w w' ops) (hemits : c.Emits env w es) :
    (mirrorAll agent es staking).Shows (w'.books.positions agent) ↔ Shown agent w (.call env c) := by
  have hsteps := hrefines.books
  have hmin : w.state.minStakeForActive = initialMinStake := hw.minStake
  have hsplit (a : Address) : (w.state.stakes a).totalStaked = (w.books.positions a).total := hw.split a
  cases c with
  | stake amount =>
    obtain rfl := hdoes
    obtain rfl := hemits
    rw [hsplit env.sender]
    refine (shows_step_iff h hsteps.of_singleton rfl).trans ?_
    simp only [Shown, ShownOp, hmin, hsplit agent]
    rfl
  | requestUnstake amount =>
    obtain rfl := hdoes
    exact shows_step_iff h hsteps.of_singleton hemits
  | completeUnstake =>
    obtain rfl := hdoes
    refine (shows_step_iff h hsteps.of_singleton hemits).trans ?_
    have heffective := StakeInfo.Split.effective (hsplit agent)
    simp only [Shown, ShownOp, hmin, heffective]
    rfl
  | deactivate =>
    obtain rfl := hdoes
    exact shows_step_iff h hsteps.of_singleton hemits
  | lockStake a amount jobId =>
    obtain rfl := hdoes
    exact shows_step_iff h hsteps.of_singleton ⟨jobId, hemits⟩
  | unlockStake a amount jobId =>
    obtain rfl := hdoes
    exact shows_step_iff h hsteps.of_singleton ⟨jobId, hemits⟩
  | initiateSlash a jobId subJobId reason evidenceHash =>
    obtain rfl := hdoes
    obtain rfl := hemits
    rw [hsplit a]
    refine (shows_step_iff h hsteps.of_singleton ⟨_, reason, evidenceHash, jobId, rfl⟩).trans ?_
    simp only [Shown, ShownOp, hsplit agent]
    rfl
  | fileAppeal slashId reason =>
    obtain rfl := hdoes
    obtain rfl := hemits
    rw [hsteps.of_nil, mirrorAll_of_quiet (by simp [stakingUpdate])]
    exact iff_of_true h trivial
  | resolveAppeal slashId approved =>
    cases approved with
    | true =>
      obtain rfl := hdoes
      obtain rfl := hemits
      refine (shows_step_iff h hsteps.of_singleton rfl).trans ?_
      simp only [Shown, ShownOp, hmin, hsplit agent]
      rfl
    | false =>
      obtain rfl := hdoes
      obtain rfl := hemits
      refine (shows_step_iff h hsteps.of_singleton ?_).trans Iff.rfl
      simp [Emitted, stakingUpdate]
  | finalizeExpiredAppeals =>
    obtain ⟨ids, rfl⟩ := hdoes
    rw [positions_of_deny hsteps (by simp), mirrorAll_of_quiet]
    · exact iff_of_true h trivial
    · intro e he staking
      obtain ⟨slashId, rfl⟩ := hemits e he
      rfl
  | admin c =>
    obtain rfl := hdoes
    rw [hsteps.of_nil, mirrorAll_of_quiet]
    · exact iff_of_true h trivial
    · intro e he staking
      have hparameter := hemits e he
      cases e with
      | slashRateUpdated | unbondingPeriodUpdated | guardTokenAssociated => rfl
      | _ => exact hparameter.elim

/-- A step keeps the stake mirrored exactly if the mirror can show it. -/
theorem mirrored_step_iff (hl : l.Registered agent serial 0) (hw : (system this).Reachable w)
    (h : Mirrored hex l agent w) {label : StakingManager.Label} (hstep : Step this w label w') :
    Mirrored hex l agent w' ↔ Shown agent w label := by
  have hfaithful := reachable_faithful hw
  cases hstep with
  | call hs h0 hexec =>
    obtain ⟨ops, hdoes, hrefines⟩ := exec_ok hfaithful hs h0 hexec
    obtain ⟨es, hlog, hemits⟩ := exec_emits hfaithful hexec
    rw [mirrored_iff hl hfaithful] at h
    rw [mirrored_iff hl hrefines.faithful, hlog, mirrorAll, List.foldl_append]
    exact shows_call_iff hfaithful h hdoes hrefines hemits
  | elsewhere _ => exact iff_of_true h trivial

/-- The profile of an agent that registered before it staked equals the agent's stake throughout a run of the
contract, whenever its events have been handled in order, exactly if the mirror can show each step of the run. -/
theorem mirrors_iff (hl : l.Registered agent serial 0) (hr : (system this).Run ts w) :
    Throughout (Mirrored hex l agent) ts w ↔ ∀ tr ∈ ts, Shown agent tr.src tr.label := by
  refine hr.forall_iff (C := Shown agent) (fun w hinit => ?_) fun w label w' hw h hstep =>
    mirrored_step_iff hl hw h hstep
  rw [mirrored_iff hl (reachable_faithful (.init hinit))]
  obtain ⟨deployer, guardToken, agentRegistry, treasury, hstate⟩ := hinit.state_eq
  rw [hstate]
  exact ⟨toGuard_zero.symm, toGuard_zero.symm, toGuard_zero.symm, toGuard_zero.symm, rfl⟩

end Steps

/-! ## A sample run -/

instance (agent : Address) (w : World) : (l : StakingManager.Label) → Decidable (Shown agent w l)
  | .call _ (.stake _) => inferInstanceAs (Decidable (_ → _ ∧ _ ∧ (_ ∨ _ ∧ _)))
  | .call _ .completeUnstake => inferInstanceAs (Decidable (_ → _ ∨ _ ∨ _ ∧ _))
  | .call _ (.initiateSlash _ _ _ _ _) => inferInstanceAs (Decidable (_ → _))
  | .call _ (.resolveAppeal _ true) => inferInstanceAs (Decidable (_ → _ ∨ _ → _))
  | .call _ (.resolveAppeal _ false) | .call _ (.requestUnstake _) | .call _ .deactivate | .call _ (.lockStake ..)
  | .call _ (.unlockStake ..) | .call _ (.fileAppeal ..) | .call _ .finalizeExpiredAppeals | .call _ (.admin _)
  | .elsewhere => isTrue trivial

/-- A call by an account other than the contract. -/
def playCall (w : World) (call : Env × Call) : Option World :=
  if call.1.sender ≠ 1 ∧ call.1.sender ≠ 0 then (StakingManager.exec 1 call.1 call.2 w).toOption else none

/-- A call is a step. -/
theorem plays_playCall : (system 1).Plays playCall fun _ call l => l = .call call.1 call.2 := by
  intro w call w' h
  rw [playCall, Option.ite_none_right_eq_some] at h
  obtain ⟨⟨hthis, hzero⟩, hexec⟩ := h
  refine ⟨_, rfl, .call hthis hzero ?_⟩
  cases hresult : StakingManager.exec 1 call.1 call.2 w with
  | error e => rw [hresult] at hexec; cases hexec
  | ok w₁ => rw [hresult] at hexec; exact congrArg _ (Option.some.inj hexec)

/-- Agents 2 and 3 hold tokens. -/
def twoAgents : World :=
  { sampleWorld with
    guard := ((Ledger.single 2 (2 * 10^12) TokenLedger.two_trillion_lt).transfer 2 3 (10^12)).getD
      (Ledger.single 2 0 TokenLedger.zero_lt) }

/-- Agent 2 stakes 1000 GUARD, has some locked for a job and unlocked, and takes 300 back. Agent 3 is slashed
meanwhile, and appeals with success. -/
def workedCalls : List (Env × Call) :=
  slasherCalls ++ [
    (sampleEnv 2 0, .stake (1000 * 10^8)),
    (sampleEnv 3 1, .stake (500 * 10^8)),
    (sampleEnv 5 2, .lockStake 2 (200 * 10^8) 7),
    (sampleEnv 5 3, .initiateSlash 3 7 0 .falsePositive 0),
    (sampleEnv 2 4, .requestUnstake (300 * 10^8)),
    (sampleEnv 3 5, .fileAppeal 1 "The finding is right."),
    (sampleEnv 5 6, .unlockStake 2 (200 * 10^8) 7),
    (sampleEnv 9 7, .resolveAppeal 1 true),
    (sampleEnv 2 86404, .completeUnstake)]

/-- The agent's stake is mirrored throughout, and 700 GUARD of it are left. -/
theorem mirrors_worked : ∃ ts w, (system 1).Run ts w ∧
    (w.state.stakes 2).totalStaked = 700 * 10^8 ∧ (w.state.stakes 2).availableStake = 700 * 10^8 ∧
    Throughout (Mirrored (fun _ => "") sampleListener 2) ts w := by
  have hplay : (workedCalls.foldlM (fun w call =>
      if decide (Shown 2 w (.call call.1 call.2)) = true then playCall w call else none) twoAgents).map
        (fun w => ((w.state.stakes 2).totalStaked, (w.state.stakes 2).availableStake)) =
      some (700 * 10^8, 700 * 10^8) := by decide +kernel
  obtain ⟨ts, w, hr, hread, hfrom, -⟩ := plays_playCall.guarded.exists_run
    (show Deployed twoAgents from ⟨9, 7, 0, 8, rfl⟩) hplay
  refine ⟨ts, w, hr, congrArg Prod.fst hread, congrArg Prod.snd hread, ?_⟩
  rw [mirrors_iff sampleListener_registered hr]
  intro tr htr
  obtain ⟨call, -, hcomes⟩ := hfrom tr htr
  obtain ⟨hlabel, hshown⟩ := hcomes.means
  rw [hlabel]
  exact of_decide_eq_true hshown

/-- A slash of 5% on a stake of 1000 GUARD, of which all is available. -/
def availableSlashCalls : List (Env × Call) :=
  slasherCalls ++ [
    (sampleEnv 2 0, .stake (1000 * 10^8)),
    (sampleEnv 5 1, .initiateSlash 2 0 0 .falsePositive 0)]

/-- On chain 950 GUARD are available then, and 1000 in the profile. -/
theorem not_mirrors_slash : ∃ w, execAll 1 availableSlashCalls sampleWorld = .ok w ∧ (system 1).Reachable w ∧
    (w.state.stakes 2).availableStake = 950 * 10^8 ∧ sampleListener.Registered 2 1 0 ∧
    ¬ Mirrored (fun _ => "") sampleListener 2 w := by
  obtain ⟨w, hcalls, hw⟩ := sample_reachable
    (show ∀ call ∈ availableSlashCalls, call.1.sender ≠ 1 ∧ call.1.sender ≠ 0 by decide) rfl
  have hlog := sample_read (fun w => w.state.log) hcalls
    (a := [.staked 2 (1000 * 10^8) (1000 * 10^8),
      .slashInitiated 1 2 .falsePositive (50 * 10^8) 500 0 0]) (by decide +kernel)
  have havailable := sample_read (fun w => (w.state.stakes 2).availableStake) hcalls (a := 950 * 10^8)
    (by decide +kernel)
  refine ⟨w, hcalls, hw, havailable, sampleListener_registered, fun h => ?_⟩
  rw [mirrored_iff sampleListener_registered (reachable_faithful hw), hlog] at h
  have hshown : toGuard (1000 * 10^8) = toGuard (w.state.stakes 2).availableStake := h.available
  rw [havailable, toGuard_inj] at hshown
  norm_num at hshown

end AuditGuard.Inft
