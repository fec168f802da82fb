import AuditGuard.Inft.Listener

/-!
# What the handlers do

A handler on an event of `StakingManager` changes one profile, that of the event's agent, and by a function of the
profile alone (`handle_staking`). A handler of `AuditAuction` may change an audit job besides.
-/

namespace AuditGuard.Inft

open Evm StakingManager

variable {α β : Type} {l : Listener} {serial : ℕ}

/-- A handler on a listener: what it returns or throws, and what it leaves. -/
def exec (h : Handler α) (l : Listener) : Except String α × Listener := h.run.run l

/-- A handler that returns. -/
@[simp]
theorem exec_pure (a : α) (l : Listener) : exec (pure a) l = (.ok a, l) := rfl

theorem exec_bind (x : Handler α) (f : α → Handler β) (l : Listener) :
    exec (x >>= f) l = match exec x l with
      | (.ok a, l') => exec (f a) l'
      | (.error e, l') => (.error e, l') := by
  change (ExceptT.bindCont f (x.run.run l).1).run (x.run.run l).2 = _
  unfold exec
  cases x.run.run l with
  | mk result l' => cases result <;> rfl

theorem exec_bind_ok {x : Handler α} {f : α → Handler β} {a : α} {l' : Listener} (hx : exec x l = (.ok a, l')) :
    exec (x >>= f) l = exec (f a) l' := by
  rw [exec_bind, hx]

theorem exec_bind_error {x : Handler α} {f : α → Handler β} {e : String} {l' : Listener}
    (hx : exec x l = (.error e, l')) : exec (x >>= f) l = (.error e, l') := by
  rw [exec_bind, hx]

/-- A handler that looks at the listener. -/
@[simp]
theorem exec_get_bind (f : Listener → Handler β) (l : Listener) : exec (get >>= f) l = exec (f l) l := rfl

/-- A handler that changes the listener. -/
@[simp]
theorem exec_modify (f : Listener → Listener) (l : Listener) : exec (modify f) l = (.ok (), f l) := rfl

theorem handle_eq (hex : Address → String) (l : Listener) (e : Event) :
    handle hex l e = (exec (dispatch hex e) l).2 := rfl

/-! ## One profile -/

/-- The profile of an agent, with its serial number. -/
def Listener.profileOf (l : Listener) (agent : Address) : Option (ℕ × AgentProfile) :=
  (l.agentIndex agent).bind fun serial => (l.agentProfiles serial).map fun profile => (serial, profile)

/-- A change of the profile of an agent, if it has one. -/
def Listener.onProfile (l : Listener) (agent : Address) (f : AgentProfile → AgentProfile) : Listener :=
  match l.profileOf agent with
  | none => l
  | some (serial, profile) => l.saveProfile serial (f profile)

/-- The agent has an iNFT of its own, minted when it had staked so much. -/
structure Listener.Registered (l : Listener) (agent : Address) (serial : ℕ) (stakedAmount : ℚ) : Prop where
  index : l.agentIndex agent = some serial
  own : ∀ a, l.agentIndex a = some serial → a = agent
  profile : ∃ reputation, l.agentProfiles serial = some (.mint agent stakedAmount reputation)

/-- The agent has an iNFT of its own, with this profile. -/
structure Listener.Knows (l : Listener) (agent : Address) (serial : ℕ) (p : AgentProfile) : Prop where
  index : l.agentIndex agent = some serial
  own : ∀ a, l.agentIndex a = some serial → a = agent
  profile : l.agentProfiles serial = some p

theorem Listener.Knows.profileOf {agent : Address} {p : AgentProfile} (h : l.Knows agent serial p) :
    l.profileOf agent = some (serial, p) := by
  simp [Listener.profileOf, h.index, h.profile]

theorem Listener.Knows.onProfile {agent : Address} {p : AgentProfile} (h : l.Knows agent serial p)
    (f : AgentProfile → AgentProfile) : (l.onProfile agent f).Knows agent serial (f p) := by
  have hchange : l.onProfile agent f = l.saveProfile serial (f p) := by
    simp only [Listener.onProfile, h.profileOf]
  rw [hchange]
  exact ⟨h.index, h.own, Function.update_self ..⟩

theorem Listener.Knows.onProfile_of_ne {agent a : Address} {p : AgentProfile} (h : l.Knows agent serial p)
    (ha : a ≠ agent) (f : AgentProfile → AgentProfile) : (l.onProfile a f).Knows agent serial p := by
  unfold Listener.onProfile Listener.profileOf
  cases hindex : l.agentIndex a with
  | none => simpa [hindex] using h
  | some serial' =>
    have hne : serial ≠ serial' := by
      rintro rfl
      exact ha (h.own a hindex)
    cases hprofile : l.agentProfiles serial' with
    | none => simpa [hprofile] using h
    | some profile =>
      simp only [Option.bind_some, hprofile, Option.map_some]
      exact ⟨h.index, h.own, (Function.update_of_ne hne ..).trans h.profile⟩

theorem exec_changeProfile_none (h : l.agentProfiles serial = none) (f : AgentProfile → AgentProfile) :
    exec (changeProfile serial f) l = (.error ("Agent Profile iNFT #" ++ toString serial ++ " not found"), l) := by
  unfold changeProfile
  rw [exec_get_bind, h]
  rfl

theorem exec_changeProfile_some {p : AgentProfile} (h : l.agentProfiles serial = some p)
    (f : AgentProfile → AgentProfile) : exec (changeProfile serial f) l = (.ok (), l.saveProfile serial (f p)) := by
  unfold changeProfile
  rw [exec_get_bind, h]
  rfl

/-- What was saved last counts. -/
@[simp]
theorem saveProfile_saveProfile (p q : AgentProfile) :
    (l.saveProfile serial p).saveProfile serial q = l.saveProfile serial q := by
  unfold Listener.saveProfile
  rw [Function.update_idem]

/-- What was saved is what is loaded. -/
@[simp]
theorem saveProfile_self (p : AgentProfile) : (l.saveProfile serial p).agentProfiles serial = some p :=
  Function.update_self ..

theorem exec_changeProfile_saved (p : AgentProfile) (f : AgentProfile → AgentProfile) :
    exec (changeProfile serial f) (l.saveProfile serial p) = (.ok (), l.saveProfile serial (f p)) := by
  rw [exec_changeProfile_some (saveProfile_self p), saveProfile_saveProfile]

theorem exec_withAgent {agent : Address} {k : ℕ → Handler Unit} {f : AgentProfile → AgentProfile}
    (hnone : ∀ serial, l.agentProfiles serial = none → (exec (k serial) l).2 = l)
    (hsome : ∀ serial p, l.agentProfiles serial = some p → (exec (k serial) l).2 = l.saveProfile serial (f p)) :
    (exec (withAgent agent k) l).2 = l.onProfile agent f := by
  unfold withAgent Listener.onProfile Listener.profileOf
  rw [exec_get_bind]
  cases hserial : l.agentIndex agent with
  | none => rfl
  | some serial =>
    cases hprofile : l.agentProfiles serial with
    | none => simpa [hprofile] using hnone serial hprofile
    | some p => simpa [hprofile] using hsome serial p hprofile

theorem exec_withAgent_change (agent : Address) (f : AgentProfile → AgentProfile) :
    (exec (withAgent agent fun serial => changeProfile serial f) l).2 = l.onProfile agent f :=
  exec_withAgent (fun serial h => by rw [exec_changeProfile_none h])
    (fun serial p h => by rw [exec_changeProfile_some h])

theorem exec_withAgent_staking (agent : Address) (u : Staking → StakingUpdate) :
    (exec (withAgent agent fun serial => currentStaking serial >>= fun staking =>
      updateAgentStakingDetails serial (u staking)) l).2 =
      l.onProfile agent fun p => p.updateAgentStakingDetails (u (p.staking.getD .empty)) := by
  have hread : ∀ serial, exec (currentStaking serial) l =
      (.ok (((l.agentProfiles serial).bind AgentProfile.staking).getD .empty), l) := fun _ => rfl
  refine exec_withAgent (fun serial h => ?_) (fun serial p h => ?_)
  · rw [exec_bind_ok (hread serial), updateAgentStakingDetails, exec_changeProfile_none h]
  · rw [exec_bind_ok (hread serial), updateAgentStakingDetails, exec_changeProfile_some h, h]
    rfl

/-! ## Events of StakingManager -/

/-- The agent of an event that is handled. -/
def stakingAgent : StakingManager.Event → Option Address
  | .staked agent _ _ | .unstakeRequested agent _ _ | .unstakeCompleted agent _ | .stakeLocked agent _ _
  | .stakeUnlocked agent _ _ | .slashInitiated _ agent _ _ _ _ _ | .appealFiled _ agent _
  | .appealApproved _ agent _ | .appealDenied _ agent _ | .agentDeactivating agent => some agent
  | .appealExpired _ | .slashRateUpdated _ _ _ | .unbondingPeriodUpdated _ _ | .guardTokenAssociated _ => none

/-- The update of the staking details that a handler makes, from those that it finds. -/
def stakingUpdate (staking : Staking) : StakingManager.Event → Option StakingUpdate
  | .staked _ _ newTotal => some {
      totalStaked := some (toGuard newTotal)
      availableStake := some (toGuard newTotal)
      status := some .active
      action := "stake" }
  | .unstakeRequested _ amount completesAt => some {
      availableStake := some (max 0 (staking.availableStake - toGuard amount))
      unbondingAmount := some (toGuard amount)
      unbondingCompleteAt := some (some completesAt)
      action := "unstake_request" }
  | .unstakeCompleted _ amount =>
    let newTotal := max 0 (staking.totalStaked - toGuard amount)
    some {
      totalStaked := some newTotal
      unbondingAmount := some 0
      unbondingCompleteAt := some none
      status := some (if newTotal = 0 then .withdrawn else .active)
      action := "unstake_complete" }
  | .stakeLocked _ amount _ => some {
      lockedStake := some (staking.lockedStake + toGuard amount)
      availableStake := some (max 0 (staking.availableStake - toGuard amount))
      action := "lock" }
  | .stakeUnlocked _ amount _ => some {
      lockedStake := some (max 0 (staking.lockedStake - toGuard amount))
      availableStake := some (staking.availableStake + toGuard amount)
      action := "unlock" }
  | .slashInitiated _ _ _ slashedAmount slashBasisPoints _ _ =>
    let newTotal := max 0 (staking.totalStaked - toGuard slashedAmount)
    some {
      totalStaked := some newTotal
      status := some (if slashBasisPoints = 10000 ∨ newTotal < 100 then .frozen else staking.status)
      action := "slash" }
  | .appealApproved _ _ restoredAmount =>
    let newTotal := staking.totalStaked + toGuard restoredAmount
    some {
      totalStaked := some newTotal
      availableStake := some (staking.availableStake + toGuard restoredAmount)
      status := some (if 100 ≤ newTotal then .active else staking.status)
      action := "appeal_approved" }
  | .agentDeactivating _ => some { status := some .unbonding, action := "deactivate" }
  | _ => none

/-- The update that a handler makes on a profile with staking details, or on one without. -/
def updateStaking (e : StakingManager.Event) (p : AgentProfile) : AgentProfile :=
  match stakingUpdate (p.staking.getD .empty) e with
  | none => p
  | some u => p.updateAgentStakingDetails u

/-- What the handler of a slash or an appeal does before it comes to the staking details. -/
def slashEffect : StakingManager.Event → AgentProfile → AgentProfile
  | .slashInitiated slashId _ reason slashedAmount slashBasisPoints evidenceHash jobId, p =>
    (p.recordSlashOnAgent {
      slashId := slashId
      jobId := jobId
      subJobId := 0
      reason := reason
      slashBasisPoints := slashBasisPoints
      slashedAmount := toGuard slashedAmount
      evidenceHash := evidenceHash
      slashedBy := "StakingManager"
      appealStatus := .pending
      appealReason := none }).updateAgentReputation (-repPenalties reason) (slashReasonName reason) jobId
  | .appealFiled slashId _ reason, p => p.updateSlashAppeal slashId .pending (some reason) 0
  | .appealApproved slashId _ restoredAmount, p =>
    let p := p.updateSlashAppeal slashId .approved none (toGuard restoredAmount)
    match p.slashHistory.find? (·.slashId = slashId) with
    | none => p
    | some slashEntry =>
      p.updateAgentReputation (repPenalties slashEntry.reason) "appeal_approved" slashEntry.jobId
  | .appealDenied slashId _ _, p => p.updateSlashAppeal slashId .denied none 0
  | _, p => p

/-- The events of slashes and appeals, whose handlers leave a profile without staking details without them. -/
def leavesMissing : StakingManager.Event → Bool
  | .slashInitiated _ _ _ _ _ _ _ | .appealApproved _ _ _ => true
  | _ => false

/-- What the handler of an event does to the profile of its agent. -/
def profileEffect (e : StakingManager.Event) (p : AgentProfile) : AgentProfile :=
  let p := slashEffect e p
  if leavesMissing e ∧ p.staking = none then p else updateStaking e p

theorem exec_loadProfile_saved (q : AgentProfile) :
    exec (loadProfile serial) (l.saveProfile serial q) = (.ok (some q), l.saveProfile serial q) := by
  change (Except.ok ((l.saveProfile serial q).agentProfiles serial), _) = _
  rw [saveProfile_self]

/-- An appeal is none of the staking details. -/
@[simp]
theorem updateSlashAppeal_staking (slashId : ℕ) (status : AppealStatus) (reason : Option String) (restored : ℚ)
    (p : AgentProfile) : (p.updateSlashAppeal slashId status reason restored).staking = p.staking := by
  unfold AgentProfile.updateSlashAppeal
  cases p.slashHistory.findIdx? (·.slashId = slashId) with
  | none => rfl
  | some i =>
    dsimp only
    split_ifs <;> rfl

theorem slashEffect_staking (e : StakingManager.Event) (p : AgentProfile) : (slashEffect e p).staking = p.staking := by
  cases e with
  | appealApproved slashId agent restoredAmount =>
    simp only [slashEffect]
    rw [← updateSlashAppeal_staking slashId .approved none (toGuard restoredAmount) p]
    cases (p.updateSlashAppeal slashId .approved none (toGuard restoredAmount)).slashHistory.find?
      (·.slashId = slashId) <;> rfl
  | appealFiled | appealDenied => exact updateSlashAppeal_staking ..
  | _ => rfl

theorem exec_onSlashInitiated (slashId : ℕ) (agent : Address) (reason : SlashReason)
    (slashedAmount slashBasisPoints : ℕ) (evidenceHash : UInt 256) (jobId : ℕ) :
    (exec (onSlashInitiated slashId agent reason slashedAmount slashBasisPoints evidenceHash jobId) l).2 =
      l.onProfile agent (profileEffect
        (.slashInitiated slashId agent reason slashedAmount slashBasisPoints evidenceHash jobId)) := by
  refine exec_withAgent (fun serial h => ?_) (fun serial p h => ?_)
  · rw [recordSlashOnAgent, exec_bind_error (exec_changeProfile_none h _)]
  · rw [recordSlashOnAgent, exec_bind_ok (exec_changeProfile_some h _), updateAgentReputation,
      exec_bind_ok (exec_changeProfile_saved _ _)]
    rw [exec_bind_ok (exec_loadProfile_saved _)]
    unfold profileEffect
    -- The staking details are what they were before the slash was recorded.
    cases hstaking : p.staking with
    | none =>
      have hskip : (slashEffect (.slashInitiated slashId agent reason slashedAmount slashBasisPoints evidenceHash
        jobId) p).staking = none := hstaking
      rw [if_pos ⟨rfl, hskip⟩]
      simp [AgentProfile.updateAgentReputation, AgentProfile.recordSlashOnAgent, hstaking, slashEffect]
    | some staking =>
      have hkeep : (slashEffect (.slashInitiated slashId agent reason slashedAmount slashBasisPoints evidenceHash
        jobId) p).staking = some staking := hstaking
      rw [if_neg (by rw [hkeep]; simp), updateStaking, hkeep]
      simp only [AgentProfile.updateAgentReputation, AgentProfile.recordSlashOnAgent, hstaking, Option.bind_some,
        updateAgentStakingDetails, exec_changeProfile_saved]
      simp [stakingUpdate, slashEffect, AgentProfile.updateAgentReputation, AgentProfile.recordSlashOnAgent, hstaking]

/-- An approved appeal is noted, the penalty is taken back if the slash is known, and the staking details are updated
where there are any. -/
theorem exec_onAppealApproved (slashId : ℕ) (agent : Address) (restoredAmount : ℕ) :
    (exec (onAppealApproved slashId agent restoredAmount) l).2 =
      l.onProfile agent (profileEffect (.appealApproved slashId agent restoredAmount)) := by
  refine exec_withAgent (fun serial h => ?_) (fun serial p h => ?_)
  · rw [updateSlashAppeal, exec_bind_error (exec_changeProfile_none h _)]
  · rw [updateSlashAppeal, exec_bind_ok (exec_changeProfile_some h _), exec_bind_ok (exec_loadProfile_saved _)]
    generalize hq : p.updateSlashAppeal slashId .approved none (toGuard restoredAmount) = q
    -- What happens last, to a profile with the staking details of `q`.
    have hnone : q.staking = none → ∀ r : AgentProfile, r.staking = q.staking →
        slashEffect (.appealApproved slashId agent restoredAmount) p = r →
        l.saveProfile serial r =
          l.saveProfile serial (profileEffect (.appealApproved slashId agent restoredAmount) p) := by
      intro hq r hstaking heffect
      unfold profileEffect
      dsimp only
      rw [heffect, hstaking, hq, if_pos ⟨rfl, rfl⟩]
    have hsome : ∀ staking, q.staking = some staking → ∀ r : AgentProfile, r.staking = q.staking →
        slashEffect (.appealApproved slashId agent restoredAmount) p = r →
        (exec (updateAgentStakingDetails serial {
          totalStaked := some (staking.totalStaked + toGuard restoredAmount)
          availableStake := some (staking.availableStake + toGuard restoredAmount)
          status := some (if 100 ≤ staking.totalStaked + toGuard restoredAmount then .active else staking.status)
          action := "appeal_approved" }) (l.saveProfile serial r)).2 =
          l.saveProfile serial (profileEffect (.appealApproved slashId agent restoredAmount) p) := by
      intro staking hq r hstaking heffect
      have hnot : ¬ (leavesMissing (.appealApproved slashId agent restoredAmount) = true ∧
          (some staking : Option Staking) = none) := fun h => Option.some_ne_none staking h.2
      unfold profileEffect
      dsimp only
      rw [heffect, hstaking, hq, if_neg hnot, updateStaking, hstaking, hq]
      exact congrArg Prod.snd (exec_changeProfile_saved _ _)
    dsimp only
    cases hentry : q.slashHistory.find? (·.slashId = slashId) with
    | none =>
      have heffect : slashEffect (.appealApproved slashId agent restoredAmount) p = q := by
        simp only [slashEffect, hq, hentry]
      cases hstaking : q.staking with
      | none => exact hnone hstaking q rfl heffect
      | some staking => exact hsome staking hstaking q rfl heffect
    | some slashEntry =>
      dsimp only
      rw [updateAgentReputation, exec_bind_ok (exec_changeProfile_saved _ _)]
      have heffect : slashEffect (.appealApproved slashId agent restoredAmount) p =
          q.updateAgentReputation (repPenalties slashEntry.reason) "appeal_approved" slashEntry.jobId := by
        simp only [slashEffect, hq, hentry]
      cases hstaking : q.staking with
      | none => exact hnone hstaking _ rfl heffect
      | some staking => exact hsome staking hstaking _ rfl heffect

theorem handle_staking (hex : Address → String) (l : Listener) (e : StakingManager.Event) :
    handle hex l (.staking e) = match stakingAgent e with
      | none => l
      | some agent => l.onProfile agent (profileEffect e) := by
  rw [handle_eq]
  cases e with
  | staked agent amount newTotal => exact exec_withAgent_change agent _
  | unstakeRequested agent amount completesAt => exact exec_withAgent_staking agent _
  | unstakeCompleted agent amount => exact exec_withAgent_staking agent _
  | stakeLocked agent amount jobId => exact exec_withAgent_staking agent _
  | stakeUnlocked agent amount jobId => exact exec_withAgent_staking agent _
  | slashInitiated slashId agent reason slashedAmount slashBasisPoints evidenceHash jobId =>
    exact exec_onSlashInitiated ..
  | appealFiled slashId agent reason => exact exec_withAgent_change agent _
  | appealApproved slashId agent restoredAmount => exact exec_onAppealApproved ..
  | appealDenied slashId agent finalizedAmount => exact exec_withAgent_change agent _
  | agentDeactivating agent => exact exec_withAgent_change agent _
  | _ => rfl

/-! ## A sample listener -/

/-- A listener that knows the iNFT of agent 2. -/
def sampleListener : Listener where
  jobIndex _ := none
  agentIndex a := if a = 2 then some 1 else none
  jobSerials := []
  auditJobs _ := none
  agentProfiles serial := if serial = 1 then some (.mint 2 0 0) else none

theorem sampleListener_registered : sampleListener.Registered 2 1 0 where
  index := rfl
  own a h := by
    by_contra hne
    have hnone : sampleListener.agentIndex a = none := if_neg hne
    rw [hnone] at h
    cases h
  profile := ⟨0, rfl⟩

end AuditGuard.Inft
