import AuditGuard.DelegatedStaking.System
import AuditGuard.StakingManager.Appeals

/-!
# The slash relay

The orchestrator's bridge from `StakingManager` to `DelegatedStaking`, from `subscribeContractEvents` and
`_finalizeSlash` of `orchestrator.js`. It remembers every initiated slash in the memory of its process, and when the
slash is confirmed, takes it from there and asks `DelegatedStaking` to slash the delegators too.

The system is the orchestrator between the two contracts, which go on with all calls by all callers. An event of the
log of `StakingManager` is delivered at least once, the first time in the order of the log, and again at any later
time. A transaction that was sent lands or is reverted at any time, also after the orchestrator was told of an error,
and also after its process was started anew.
-/

namespace AuditGuard.SlashRelay

open Evm TransitionSystem

/-! ## The orchestrator -/

/-- An entry of `_pendingSlashes`. -/
structure PendingSlash where
  agent : Address
  slashBps : ℕ
deriving DecidableEq

/-- The event that had `_finalizeSlash` called. -/
inductive Trigger
  | appealDenied
  | appealExpired
deriving DecidableEq, Repr

/-- What a call of `_finalizeSlash` waits for. -/
inductive Pos
  /-- `propagateDelegatedSlash`, whose answer is the transaction. -/
  | propagateDelegatedSlash
  /-- The receipt. -/
  | wait
  /-- The publication of the audit log, whose failure it ignores. -/
  | publishAuditLog
  | finished
deriving DecidableEq, Repr

/-- What became of the transaction of a call. -/
inductive TxStatus
  | unsent
  | sent
  | landed
  /-- It was refused on chain, or dropped. -/
  | reverted
deriving DecidableEq, Repr

/-- A call of `_finalizeSlash` that found its slash pending. -/
structure Task where
  slashId : ℕ
  trigger : Trigger
  slash : PendingSlash
  pos : Pos
  tx : TxStatus
deriving DecidableEq

/-- The message `SLASH_PROPAGATED` of the audit log. -/
structure SlashPropagated where
  slashId : ℕ
  agent : Address
  slashBps : ℕ
  trigger : Trigger
deriving DecidableEq

/-- What the relay of the orchestrator holds. -/
structure Relay where
  /-- `_pendingSlashes`. -/
  pendingSlashes : ℕ → Option PendingSlash
  /-- The calls of `_finalizeSlash`, oldest first, those of earlier processes included. -/
  tasks : List Task
  /-- The messages given to `publishAuditLog`, oldest first. -/
  published : List SlashPropagated

namespace Relay

/-- The relay of a process that has just subscribed. -/
def empty : Relay := ⟨fun _ => none, [], []⟩

/-- The listener to `SlashInitiated`. -/
def slashInitiated (slashId : ℕ) (agent : Address) (slashBasisPoints : ℕ) (r : Relay) : Relay :=
  { r with pendingSlashes := Function.update r.pendingSlashes slashId (some ⟨agent, slashBasisPoints⟩) }

/-- `_finalizeSlash`, up to its first `await`. A slash that is not pending is skipped. -/
def finalizeSlash (slashId : ℕ) (trigger : Trigger) (r : Relay) : Relay :=
  match r.pendingSlashes slashId with
  | none => r
  | some slash => { r with
      pendingSlashes := Function.update r.pendingSlashes slashId none
      tasks := r.tasks ++ [⟨slashId, trigger, slash, .propagateDelegatedSlash, .unsent⟩] }

/-- The listeners to an event of `StakingManager`. There is none to `AppealApproved`. -/
def onEvent : StakingManager.Event → Relay → Relay
  | .slashInitiated slashId agent _ _ slashBasisPoints _ _ => slashInitiated slashId agent slashBasisPoints
  | .appealDenied slashId _ _ => finalizeSlash slashId .appealDenied
  | .appealExpired slashId => finalizeSlash slashId .appealExpired
  | _ => id

/-- A new process subscribes: `_pendingSlashes` is a new map, and what the calls of the old process waited for is
lost. Their transactions are not. -/
def restart (r : Relay) : Relay :=
  { r with
    pendingSlashes := fun _ => none
    tasks := r.tasks.map fun t => { t with pos := .finished } }

/-- Something becomes of the transaction of the call `d`. -/
def setTx (d : ℕ) (t : Task) (tx : TxStatus) (r : Relay) : Relay :=
  { r with tasks := r.tasks.set d { t with tx := tx } }

/-- The call `d` goes on to `pos`. -/
def move (d : ℕ) (t : Task) (pos : Pos) (r : Relay) : Relay :=
  { r with tasks := r.tasks.set d { t with pos := pos } }

/-- `_finalizeSlash`, from the answer of an `await` to the next: an error is only logged. -/
def resume (d : ℕ) (t : Task) (a : Except String Unit) (r : Relay) : Relay :=
  match t.pos, a with
  | .propagateDelegatedSlash, .ok () => r.move d t .wait
  | .wait, .ok () => { r.move d t .publishAuditLog with
      published := r.published ++ [⟨t.slashId, t.slash.agent, t.slash.slashBps, t.trigger⟩] }
  | _, _ => r.move d t .finished

end Relay

/-! ## The system -/

/-- The addresses of the two contracts and of the orchestrator. -/
structure Setup where
  stakingManager : Address
  delegatedStaking : DelegatedStaking.Deployment
  orchestratorAddress : Address

/-- The relay between the contracts. -/
structure Bridge where
  relay : Relay
  staking : StakingManager.World
  delegated : DelegatedStaking.World
  /-- How many events of the log of `StakingManager` were delivered. -/
  delivered : ℕ
  /-- The calls of `propagateSlash` that succeeded for the relay, oldest first, with the ids of their slashes. -/
  propagated : List (ℕ × PendingSlash)

/-- What happens. -/
inductive Event
  | staking (l : StakingManager.Label)
  | delegated (l : DelegatedStaking.Label)
  /-- The event with this index is delivered. -/
  | deliver (i : ℕ)
  | send (d : ℕ)
  | land (d : ℕ) (env : DelegatedStaking.Env) (slashBps : UInt 256)
  | revert (d : ℕ)
  | answer (d : ℕ) (a : Except String Unit)
  | restart

/-- An answer that the call may get: a transaction has been sent when its hash is known, and has landed when there is
a receipt. An error is always possible. -/
def Task.serves (t : Task) (a : Except String Unit) : Bool :=
  match t.pos, a with
  | .finished, _ => false
  | .propagateDelegatedSlash, .ok () => t.tx ≠ .unsent
  | .wait, .ok () => t.tx = .landed
  | _, _ => true

variable (S : Setup)

/-- The steps. -/
inductive Step : Bridge → Event → Bridge → Prop
  | staking {b : Bridge} {l : StakingManager.Label} {w : StakingManager.World}
      (h : StakingManager.Step S.stakingManager b.staking l w) : Step b (.staking l) { b with staking := w }
  | delegated {b : Bridge} {l : DelegatedStaking.Label} {w : DelegatedStaking.World}
      (h : DelegatedStaking.Step S.delegatedStaking b.delegated l w) :
      Step b (.delegated l) { b with delegated := w }
  | deliver {b : Bridge} {i : ℕ} {e : StakingManager.Event} (he : b.staking.state.log[i]? = some e)
      (hi : i ≤ b.delivered) :
      Step b (.deliver i) { b with relay := b.relay.onEvent e, delivered := max b.delivered (i + 1) }
  | send {b : Bridge} {d : ℕ} {t : Task} (ht : b.relay.tasks[d]? = some t)
      (hpos : t.pos = .propagateDelegatedSlash) (htx : t.tx = .unsent) :
      Step b (.send d) { b with relay := b.relay.setTx d t .sent }
  | land {b : Bridge} {d : ℕ} {t : Task} {env : DelegatedStaking.Env} {slashBps : UInt 256}
      {w : DelegatedStaking.World} (ht : b.relay.tasks[d]? = some t) (htx : t.tx = .sent)
      (hsender : env.sender = S.orchestratorAddress) (hbps : slashBps.val = t.slash.slashBps)
      (h : DelegatedStaking.Step S.delegatedStaking b.delegated
        (.call env (.propagateSlash t.slash.agent slashBps)) w) :
      Step b (.land d env slashBps) { b with
        relay := b.relay.setTx d t .landed
        delegated := w
        propagated := b.propagated ++ [(t.slashId, t.slash)] }
  | revert {b : Bridge} {d : ℕ} {t : Task} (ht : b.relay.tasks[d]? = some t) (htx : t.tx = .sent) :
      Step b (.revert d) { b with relay := b.relay.setTx d t .reverted }
  | answer {b : Bridge} {d : ℕ} {t : Task} {a : Except String Unit} (ht : b.relay.tasks[d]? = some t)
      (hserves : t.serves a = true) : Step b (.answer d a) { b with relay := b.relay.resume d t a }
  | restart (b : Bridge) : Step b .restart { b with relay := b.relay.restart }

/-- The bridge, before any event was delivered. -/
def system : TransitionSystem Bridge Event where
  init b := (StakingManager.system S.stakingManager).Reachable b.staking ∧
    (DelegatedStaking.system S.delegatedStaking).Reachable b.delegated ∧ b.relay = .empty ∧ b.delivered = 0 ∧
    b.propagated = []
  step := Step S

/-! ## Computed runs -/

/-- What comes of an event, if it is possible. What the contracts do for others is not computed. -/
def Bridge.play (b : Bridge) : Event → Option Bridge
  | .staking _ => none
  | .delegated _ => none
  | .deliver i =>
    match b.staking.state.log[i]? with
    | none => none
    | some e =>
      if i ≤ b.delivered then
        some { b with relay := b.relay.onEvent e, delivered := max b.delivered (i + 1) }
      else none
  | .send d =>
    match b.relay.tasks[d]? with
    | none => none
    | some t =>
      if t.pos = .propagateDelegatedSlash ∧ t.tx = .unsent then
        some { b with relay := b.relay.setTx d t .sent }
      else none
  | .land d env slashBps =>
    match b.relay.tasks[d]? with
    | none => none
    | some t =>
      if t.tx = .sent ∧ env.sender = S.orchestratorAddress ∧ env.sender ≠ S.delegatedStaking.this ∧
          slashBps.val = t.slash.slashBps then
        match DelegatedStaking.exec S.delegatedStaking env (.propagateSlash t.slash.agent slashBps) b.delegated with
        | .error _ => none
        | .ok w => some { b with
            relay := b.relay.setTx d t .landed
            delegated := w
            propagated := b.propagated ++ [(t.slashId, t.slash)] }
      else none
  | .revert d =>
    match b.relay.tasks[d]? with
    | none => none
    | some t => if t.tx = .sent then some { b with relay := b.relay.setTx d t .reverted } else none
  | .answer d a =>
    match b.relay.tasks[d]? with
    | none => none
    | some t => if t.serves a = true then some { b with relay := b.relay.resume d t a } else none
  | .restart => some { b with relay := b.relay.restart }

variable {S}

/-- What can be computed is a step. -/
theorem step_of_play {b b' : Bridge} {e : Event} (h : b.play S e = some b') : Step S b e b' := by
  cases e with
  | staking | delegated => cases h
  | deliver i =>
    unfold Bridge.play at h
    dsimp only at h
    split at h
    · cases h
    · rename_i e he
      split_ifs at h with hi
      obtain rfl := Option.some.inj h
      exact .deliver he hi
  | send d =>
    unfold Bridge.play at h
    dsimp only at h
    split at h
    · cases h
    · rename_i t ht
      split_ifs at h with hcond
      obtain rfl := Option.some.inj h
      exact .send ht hcond.1 hcond.2
  | land d env slashBps =>
    unfold Bridge.play at h
    dsimp only at h
    split at h
    · cases h
    · rename_i t ht
      split_ifs at h with hcond
      obtain ⟨htx, hsender, hthis, hbps⟩ := hcond
      split at h
      · cases h
      · rename_i w hexec
        obtain rfl := Option.some.inj h
        exact .land ht htx hsender hbps (.call hthis hexec)
  | revert d =>
    unfold Bridge.play at h
    dsimp only at h
    split at h
    · cases h
    · rename_i t ht
      split_ifs at h with htx
      obtain rfl := Option.some.inj h
      exact .revert ht htx
  | answer d a =>
    unfold Bridge.play at h
    dsimp only at h
    split at h
    · cases h
    · rename_i t ht
      split_ifs at h with hserves
      obtain rfl := Option.some.inj h
      exact .answer ht hserves
  | restart =>
    obtain rfl := Option.some.inj h
    exact .restart b

theorem plays : (system S).Plays (Bridge.play S) fun _ e e' => e' = e :=
  fun _ _ _ h => ⟨_, rfl, step_of_play h⟩

/-! ## A sample relay -/

/-- The two contracts at address 1, and the relay with account 6. -/
def sampleSetup : Setup := ⟨1, DelegatedStaking.sampleDeployment, 6⟩

/-- Account 2 is slashed twice. The first slash is confirmed when the time for an appeal is over, and the appeal
against the second is approved. -/
def slashingCalls : List (StakingManager.Env × StakingManager.Call) :=
  StakingManager.slasherCalls ++ [
    (StakingManager.sampleEnv 2 0, .stake (1000 * 10^8)),
    (StakingManager.sampleEnv 5 1, .initiateSlash 2 0 0 .falsePositive 0),
    (StakingManager.sampleEnv 5 2, .initiateSlash 2 0 0 .falseNegative 0),
    (StakingManager.sampleEnv 2 3, .fileAppeal 2 "the finding was there"),
    (StakingManager.sampleEnv 9 4, .resolveAppeal 2 true),
    (StakingManager.sampleEnv 6 50000, .finalizeExpiredAppeals)]

/-- The orchestrator may propagate slashes, and account 2 has delegated to itself. -/
def wiringCalls : List (DelegatedStaking.Env × DelegatedStaking.Call) :=
  [(DelegatedStaking.sampleEnv 9 0, .admin (.setStakingManager 6)),
    (DelegatedStaking.sampleEnv 2 0, .delegate 2 (10 * 10^8))]

/-- The slashes are logged, and nothing has been relayed. -/
def sampleBridge : Bridge where
  relay := .empty
  staking := (StakingManager.execAll 1 slashingCalls StakingManager.sampleWorld).toOption.getD
    StakingManager.sampleWorld
  delegated := (DelegatedStaking.execAll DelegatedStaking.sampleDeployment wiringCalls
    DelegatedStaking.sampleWorld).toOption.getD DelegatedStaking.sampleWorld
  delivered := 0
  propagated := []

theorem sample_init : (system sampleSetup).init sampleBridge := by
  obtain ⟨w, hcalls, hw⟩ := StakingManager.sample_reachable
    (show ∀ call ∈ slashingCalls, call.1.sender ≠ 1 ∧ call.1.sender ≠ 0 by decide) (by decide +kernel)
  obtain ⟨v, hwiring, hv⟩ := DelegatedStaking.sample_reachable
    (show ∀ call ∈ wiringCalls, call.1.sender ≠ 1 by decide) (by decide +kernel)
  refine ⟨?_, ?_, rfl, rfl, rfl⟩
  · unfold sampleBridge
    rw [hcalls]
    exact hw
  · unfold sampleBridge
    rw [hwiring]
    exact hv

/-- The events of the slashes are delivered. -/
def deliveries : List Event := [.deliver 0, .deliver 1, .deliver 2, .deliver 3, .deliver 4, .deliver 5]

/-- A call succeeds. -/
def succeeds (d : ℕ) (slashBps : UInt 256) : List Event :=
  [.send d, .answer d (.ok ()), .land d (DelegatedStaking.sampleEnv 6 50001) slashBps, .answer d (.ok ()),
    .answer d (.ok ())]

end AuditGuard.SlashRelay
