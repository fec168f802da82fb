import AuditGuard.DelegatedStaking.System

/-!
# What a call does to the books

The books are the delegation records, the pools' tallies, the delegator lists and the log. Whatever
the call, it changes them in few ways: it changes one record together with its pool (`RecordStep`
lists how), it distributes a share over a pool, or it leaves them alone. `BookStep` says so once, and
the loops over delegations are sequences of such steps. Every invariant of the books is proved from
`BookStep`.

A record is seen through its `Entry`, the numbers that the books are about.
-/

namespace AuditGuard.DelegatedStaking

open Evm

/-! ## Reading the log -/

/-- What an event says was claimed from the pool of `agent`. -/
def Event.claimed (agent : Address) : Event → ℕ
  | .rewardsClaimed _ g reward => if g = agent then reward else 0
  | _ => 0

/-- The delegators that an event says delegated to `agent`. -/
def Event.backer (agent : Address) : Event → List Address
  | .delegated delegator g _ _ => if g = agent then [delegator] else []
  | _ => []

/-- The rewards claimed so far from the pool of `agent`. -/
def claimedOf (log : List Event) (agent : Address) : ℕ := (log.map (Event.claimed agent)).sum

/-- The addresses that have ever delegated to `agent`. -/
def backers (log : List Event) (agent : Address) : Finset Address :=
  (log.flatMap (Event.backer agent)).toFinset

@[simp]
theorem claimedOf_append (log : List Event) (e : Event) (agent : Address) :
    claimedOf (log ++ [e]) agent = claimedOf log agent + e.claimed agent := by
  simp [claimedOf]

@[simp]
theorem backers_append (log : List Event) (e : Event) (agent : Address) :
    backers (log ++ [e]) agent = backers log agent ∪ (e.backer agent).toFinset := by
  simp [backers, List.toFinset_append]

theorem backers_delegated (log : List Event) (delegator agent : Address) (amount total : ℕ)
    (g : Address) : backers (log ++ [.delegated delegator agent amount total]) g =
      if g = agent then insert delegator (backers log g) else backers log g := by
  rcases eq_or_ne g agent with rfl | hg
  · simp [Event.backer]
  · simp [Event.backer, hg, hg.symm]

/-! ## Records -/

/-- The numbers of a delegation record and of its pool. -/
structure Entry where
  amount : ℕ
  unbonding : ℕ
  pending : ℕ
  paid : ℕ
  active : Bool
  total : ℕ
  stored : ℕ
  accrued : ℕ
  count : ℕ

/-- The entry of a record in its pool. -/
def entryOf (d : Delegation) (pool : AgentDelegationPool) : Entry where
  amount := d.amount
  unbonding := d.unbondingAmount
  pending := d.pendingRewards
  paid := d.rewardPerTokenPaid
  active := d.active
  total := pool.totalDelegated
  stored := pool.rewardPerTokStored
  accrued := pool.totalRewardsAccrued
  count := pool.delegatorCount

/-- The entry of `delegator` at `agent`. -/
def State.entry (s : State) (delegator agent : Address) : Entry :=
  entryOf (s.delegations (delegator, agent)) (s.agentPools agent)

/-- What a call does to one record, with the amounts. -/
inductive RecordOp
  | deposit (amount : ℕ)
  | unbond (amount : ℕ)
  | complete (amount : ℕ)
  | claim (reward : ℕ)
  | slash (activeSlash unbondingSlash : ℕ)

/-- How an operation moves a total of active amounts. -/
def RecordOp.retotal : RecordOp → ℕ → ℕ
  | .deposit amount, total => total + amount
  | .unbond amount, total => total - amount
  | .slash activeSlash _, total => total - activeSlash
  | _, total => total

/-- The reward that an operation pays. -/
def RecordOp.claimed : RecordOp → ℕ
  | .claim reward => reward
  | _ => 0

/-- GUARD that an operation must find in the contract. -/
def RecordOp.inflow : RecordOp → ℕ
  | .deposit amount => amount
  | _ => 0

/-- GUARD that an operation lets out of the contract. -/
def RecordOp.outflow : RecordOp → ℕ
  | .complete amount => amount
  | .claim reward => reward
  | .slash activeSlash unbondingSlash => activeSlash + unbondingSlash
  | _ => 0

/-- Whether an operation is a deposit. -/
def RecordOp.isDeposit : RecordOp → Bool
  | .deposit _ => true
  | _ => false

/-- A credit `v` that rounds down from what the entry has earned. -/
def Entry.Credits (e : Entry) (v : ℕ) : Prop := v * PRECISION ≤ e.amount * (e.stored - e.paid)

/-- The steps of a record. -/
inductive RecordStep (e : Entry) : RecordOp → Entry → Prop
  /-- A delegation is opened, or settled and increased. -/
  | deposit (x v : ℕ) (hx : 0 < x) (hv : e.Credits v) (ht : e.total + x < 2^96)
      (hc : e.active = false → e.count + 1 < 2^32) :
      RecordStep e (.deposit x) { e with
        amount := e.amount + x
        pending := e.pending + v
        paid := e.stored
        active := true
        total := e.total + x
        count := if e.active then e.count else e.count + 1 }
  /-- A delegation is settled, and a part of it goes into unbonding. -/
  | unbond (x v : ℕ) (ha : e.active = true) (hu : e.unbonding = 0) (hpos : 0 < x)
      (hx : x ≤ e.amount) (hv : e.Credits v) :
      RecordStep e (.unbond x) { e with
        amount := e.amount - x
        unbonding := x
        pending := e.pending + v
        paid := e.stored
        total := e.total - x }
  /-- The unbonding is paid out, and a record without active amount closes. -/
  | complete (ha : e.active = true) (hu : 0 < e.unbonding) :
      RecordStep e (.complete e.unbonding) { e with
        unbonding := 0
        active := decide (e.amount ≠ 0)
        count := if e.amount = 0 then e.count - 1 else e.count }
  /-- A delegation is settled, and all that is settled is paid. -/
  | claim (v : ℕ) (ha : e.active = true) (hv : e.Credits v) :
      RecordStep e (.claim (e.pending + v)) { e with pending := 0, paid := e.stored }
  /-- Both amounts are cut, without settling, and a record with nothing left closes. -/
  | slash (a u : ℕ) (ha : e.active = true) (hpos : 0 < e.amount) (hax : a ≤ e.amount)
      (hux : u ≤ e.unbonding) :
      RecordStep e (.slash a u) { e with
        amount := e.amount - a
        unbonding := e.unbonding - u
        active := !decide (e.amount - a = 0 ∧ e.unbonding - u = 0)
        total := e.total - a
        count := if e.amount - a = 0 ∧ e.unbonding - u = 0 then e.count - 1 else e.count }

/-! ## The books -/

/-- What only the owner's functions change. -/
structure Settings where
  owner : Address
  paused : Bool
  guardToken : Address
  stakingManager : Address
  agentRegistry : Address
  treasury : Address
  hbarPool : Address
  authorizedDistributors : Address → Bool
  minDelegation : ℕ
  unbondingPeriod : ℕ
  maxDelegatorsPerAgent : ℕ
  defaultRewardBps : ℕ

/-- The settings of a state. -/
def State.settings (s : State) : Settings where
  owner := s.owner
  paused := s.paused
  guardToken := s.guardToken
  stakingManager := s.stakingManager
  agentRegistry := s.agentRegistry
  treasury := s.treasury
  hbarPool := s.hbarPool
  authorizedDistributors := s.authorizedDistributors
  minDelegation := s.minDelegation
  unbondingPeriod := s.unbondingPeriod
  maxDelegatorsPerAgent := s.maxDelegatorsPerAgent
  defaultRewardBps := s.defaultRewardBps

@[simp]
theorem settings_emit (s : State) (e : Event) : (s.emit e).settings = s.settings := rfl

@[simp]
theorem settings_setDelegation (s : State) (key : Address × Address) (d : Delegation) :
    (s.setDelegation key d).settings = s.settings := rfl

@[simp]
theorem settings_setPool (s : State) (agent : Address) (pool : AgentDelegationPool) :
    (s.setPool agent pool).settings = s.settings := rfl

@[simp]
theorem settings_setAllAgents (s : State) (total : ℕ) :
    (s.setAllAgents total).settings = s.settings := rfl

/-- The delegator lists are those of the other state. -/
structure SameLists (s s' : State) : Prop where
  delegatorAgents : s'.delegatorAgents = s.delegatorAgents
  agentDelegators : s'.agentDelegators = s.agentDelegators
  inDelegatorAgents : s'.inDelegatorAgents = s.inDelegatorAgents
  inAgentDelegators : s'.inAgentDelegators = s.inAgentDelegators

/-- The state with `delegator` and `agent` on each other's lists. -/
def State.listed (s : State) (delegator agent : Address) : State :=
  addToAgentDelegators agent delegator (addToDelegatorAgents delegator agent s)

/-- The state with the lists that an operation leaves: a deposit that opens a delegation lists it. -/
def State.relisted (s : State) (delegator agent : Address) (op : RecordOp) : State :=
  if op.isDeposit ∧ (s.entry delegator agent).active = false then s.listed delegator agent else s

/-- The record of `delegator` at `agent` takes a step, with its pool, and nothing else in the books
changes. -/
structure RecordChange (s s' : State) (delegator agent : Address) (op : RecordOp) : Prop where
  delegations : s'.delegations =
    Function.update s.delegations (delegator, agent) (s'.delegations (delegator, agent))
  agentPools : s'.agentPools = Function.update s.agentPools agent (s'.agentPools agent)
  step : RecordStep (s.entry delegator agent) op (s'.entry delegator agent)
  all : s'.totalDelegatedAllAgents = op.retotal s.totalDelegatedAllAgents
  settings : s'.settings = s.settings
  lists : SameLists (s.relisted delegator agent op) s'
  claimed : ∀ g, claimedOf s'.log g = claimedOf s.log g + if g = agent then op.claimed else 0
  backers : ∀ g, backers s'.log g =
    if op.isDeposit ∧ g = agent then insert delegator (backers s.log g) else backers s.log g

section RecordChange

variable {s s' : State} {delegator agent : Address} {op : RecordOp}

theorem RecordChange.delegations_of_ne (h : RecordChange s s' delegator agent op)
    {key : Address × Address} (hkey : key ≠ (delegator, agent)) :
    s'.delegations key = s.delegations key := by
  rw [h.delegations, Function.update_of_ne hkey]

theorem RecordChange.agentPools_of_ne (h : RecordChange s s' delegator agent op) {g : Address}
    (hg : g ≠ agent) : s'.agentPools g = s.agentPools g := by
  rw [h.agentPools, Function.update_of_ne hg]

theorem RecordStep.accumulator {e e' : Entry} (h : RecordStep e op e') :
    e'.stored = e.stored ∧ e'.accrued = e.accrued := by
  cases h <;> exact ⟨rfl, rfl⟩

theorem RecordStep.active_or_deposit {e e' : Entry} (h : RecordStep e op e') :
    e.active = true ∨ op.isDeposit = true := by
  cases h with
  | deposit => exact .inr rfl
  | unbond x v ha | complete ha | claim v ha | slash a u ha => exact .inl ha

end RecordChange

/-- A share is distributed over the pool of `agent`, and nothing else in the books changes. -/
structure Distribution (s s' : State) (agent : Address) (share : ℕ) : Prop where
  delegations : s'.delegations = s.delegations
  agentPools : s'.agentPools = Function.update s.agentPools agent { s.agentPools agent with
    rewardPerTokStored := (s.agentPools agent).rewardPerTokStored +
      share * PRECISION / (s.agentPools agent).totalDelegated
    totalRewardsAccrued := (s.agentPools agent).totalRewardsAccrued + share }
  total_pos : 0 < (s.agentPools agent).totalDelegated
  accrued_lt : (s.agentPools agent).totalRewardsAccrued + share < 2^96
  all : s'.totalDelegatedAllAgents = s.totalDelegatedAllAgents
  settings : s'.settings = s.settings
  lists : SameLists s s'
  claimed : ∀ g, claimedOf s'.log g = claimedOf s.log g
  backers : ∀ g, DelegatedStaking.backers s'.log g = DelegatedStaking.backers s.log g

/-- Nothing in the books changes. -/
structure SameBooks (s s' : State) : Prop where
  delegations : s'.delegations = s.delegations
  entry : ∀ delegator agent, s'.entry delegator agent = s.entry delegator agent
  all : s'.totalDelegatedAllAgents = s.totalDelegatedAllAgents
  lists : SameLists s s'
  claimed : ∀ g, claimedOf s'.log g = claimedOf s.log g
  backers : ∀ g, DelegatedStaking.backers s'.log g = DelegatedStaking.backers s.log g

/-- The label of a step of the books. -/
inductive BookOp
  | record (delegator agent : Address) (op : RecordOp)
  | distribute (agent : Address) (share : ℕ)
  | idle
  | admin

/-- The steps of the books. -/
inductive BookStep (s s' : State) : BookOp → Prop
  | record {delegator agent : Address} {op : RecordOp} (h : RecordChange s s' delegator agent op) :
      BookStep s s' (.record delegator agent op)
  | distribute {agent : Address} {share : ℕ} (h : Distribution s s' agent share) :
      BookStep s s' (.distribute agent share)
  | idle (h : SameBooks s s') (hs : s'.settings = s.settings) : BookStep s s' .idle
  | admin (h : SameBooks s s') : BookStep s s' .admin

/-- A sequence of steps of the books. -/
abbrev BookSteps : State → List BookOp → State → Prop :=
  TransitionSystem.Path fun s op s' => BookStep s s' op

theorem BookStep.steps {s s' : State} {op : BookOp} (h : BookStep s s' op) :
    BookSteps s [op] s' := .single h

theorem BookStep.settings {s s' : State} {op : BookOp} (h : BookStep s s' op) (hop : op ≠ .admin) :
    s'.settings = s.settings := by
  cases h with
  | record h => exact h.settings
  | distribute h => exact h.settings
  | idle _ hs => exact hs
  | admin _ => exact absurd rfl hop

theorem BookSteps.settings {s s' : State} {ops : List BookOp} (h : BookSteps s ops s')
    (hops : BookOp.admin ∉ ops) : s'.settings = s.settings := by
  induction h with
  | nil => rfl
  | snoc _ hstep ih =>
    rw [List.mem_append, List.mem_singleton, not_or] at hops
    rw [hstep.settings (Ne.symm hops.2), ih hops.1]

/-- GUARD that a step must find in the contract. -/
def BookOp.inflow : BookOp → ℕ
  | .record _ _ op => op.inflow
  | .distribute _ share => share
  | _ => 0

/-- GUARD that a step lets out of the contract. -/
def BookOp.outflow : BookOp → ℕ
  | .record _ _ op => op.outflow
  | _ => 0

/-- The inflow of a sequence. -/
def inflow (ops : List BookOp) : ℕ := (ops.map BookOp.inflow).sum

/-- The outflow of a sequence. -/
def outflow (ops : List BookOp) : ℕ := (ops.map BookOp.outflow).sum

@[simp]
theorem inflow_append (ops ops' : List BookOp) : inflow (ops ++ ops') = inflow ops + inflow ops' := by
  simp [inflow]

@[simp]
theorem outflow_append (ops ops' : List BookOp) :
    outflow (ops ++ ops') = outflow ops + outflow ops' := by
  simp [outflow]

end AuditGuard.DelegatedStaking
