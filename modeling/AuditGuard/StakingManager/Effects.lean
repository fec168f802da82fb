import AuditGuard.StakingManager.Books

/-!
# StakingManager: what a call does

The storage as books, and the effect on them of each function on storage. A function writes the stake
of one agent, or a slash record with it, or only what the books leave out. The lemma of each function
says which position it writes, and that the total stays split into the pools.
-/

namespace AuditGuard.StakingManager

open Evm

/-! ## The storage as books -/

/-- The position that a stake records. -/
def StakeInfo.position (info : StakeInfo) : Position where
  opened := info.agent ≠ 0
  available := info.availableStake
  locked := info.lockedStake
  unbonding := info.unbondingAmount
  status := info.status

/-- The total is split into the three pools. -/
def StakeInfo.Split (info : StakeInfo) : Prop := info.totalStaked = info.position.total

/-- The slash that a record records. -/
def SlashRecord.slash (record : SlashRecord) : Slash where
  agent := record.agent
  amount := record.slashedAmount
  status := record.appealStatus

/-- The part of the storage that is about stakes and slashes: the records, the counters that the
contract keeps next to them, and the rules that it never or rarely changes. -/
structure Core where
  stakes : Address → StakeInfo
  slashRecords : ℕ → SlashRecord
  nextSlashId : ℕ
  slashEscrowBalance : ℕ
  agentTotalSlashed : Address → ℕ
  totalSlashedAllTime : ℕ
  minStakeForActive : ℕ
  slashRates : SlashReason → ℕ

namespace Core

/-- The books that the core records, with the ledger `guard`. -/
def books (c : Core) (guard : TokenLedger) : Books where
  guard := guard
  positions := fun a => (c.stakes a).position
  slashes := fun i => (c.slashRecords i).slash
  nextSlashId := c.nextSlashId

/-- Writes an agent's stake. -/
@[simps -fullyApplied]
def setStake (c : Core) (agent : Address) (info : StakeInfo) : Core :=
  { c with stakes := Function.update c.stakes agent info }

/-- Writes a slash record. -/
@[simps -fullyApplied]
def setRecord (c : Core) (slashId : ℕ) (record : SlashRecord) : Core :=
  { c with slashRecords := Function.update c.slashRecords slashId record }

theorem books_setStake (c : Core) (agent : Address) (info : StakeInfo) (guard : TokenLedger) :
    (c.setStake agent info).books guard = (c.books guard).setPosition agent info.position := by
  simp only [books, setStake, Books.setPosition, Books.mk.injEq, true_and, and_true]
  funext a
  rw [Function.apply_update (fun _ => StakeInfo.position)]

theorem books_setRecord (c : Core) (slashId : ℕ) (record : SlashRecord) (guard : TokenLedger) :
    (c.setRecord slashId record).books guard = (c.books guard).setSlash slashId record.slash := by
  simp only [books, setRecord, Books.setSlash, Books.mk.injEq, true_and, and_true]
  funext i
  rw [Function.apply_update (fun _ => SlashRecord.slash)]

/-- Writes the escrow. -/
@[simps -fullyApplied]
def setEscrow (c : Core) (escrow : ℕ) : Core := { c with slashEscrowBalance := escrow }

/-- Writes the counters of slashed amounts. -/
@[simps -fullyApplied]
def setSlashed (c : Core) (escrow : ℕ) (agent : Address) (agentTotal allTime : ℕ) : Core :=
  { c with
    slashEscrowBalance := escrow
    agentTotalSlashed := Function.update c.agentTotalSlashed agent agentTotal
    totalSlashedAllTime := allTime }

/-- Writes the next slash id. -/
@[simps -fullyApplied]
def setNextSlashId (c : Core) (next : ℕ) : Core := { c with nextSlashId := next }

end Core

/-- The storage's core. -/
def State.core (s : State) : Core where
  stakes := s.stakes
  slashRecords := s.slashRecords
  nextSlashId := s.nextSlashId
  slashEscrowBalance := s.slashEscrowBalance
  agentTotalSlashed := s.agentTotalSlashed
  totalSlashedAllTime := s.totalSlashedAllTime
  minStakeForActive := s.minStakeForActive
  slashRates := s.slashRates

/-- The books of the contract. -/
def World.books (w : World) : Books := w.state.core.books w.guard

section Core

variable (s : State) (env : Env)

@[simp]
theorem core_emit (e : Event) : (s.emit e).core = s.core := rfl

@[simp]
theorem core_recordSnapshot (agent : Address) (amount : ℕ) (action : String) (jobId : ℕ) :
    (s.recordSnapshot env agent amount action jobId).core = s.core := rfl

@[simp]
theorem core_setStake (agent : Address) (info : StakeInfo) :
    (s.setStake agent info).core = s.core.setStake agent info := rfl

theorem core_emit_setStake (agent a : Address) (info : StakeInfo) (amount : ℕ) (action : String)
    (jobId : ℕ) (e : Event) :
    (((s.setStake agent info).recordSnapshot env a amount action jobId).emit e).core =
      s.core.setStake agent info := rfl

@[simp]
theorem core_setEscrow (escrow : ℕ) : (s.setEscrow escrow).core = s.core.setEscrow escrow := rfl

@[simp]
theorem core_setSlashed (escrow : ℕ) (agent : Address) (agentTotal allTime : ℕ) :
    (s.setSlashed escrow agent agentTotal allTime).core =
      s.core.setSlashed escrow agent agentTotal allTime := rfl

@[simp]
theorem core_setRecord (slashId : ℕ) (record : SlashRecord) :
    (s.setRecord slashId record).core = s.core.setRecord slashId record := rfl

theorem core_emit_setRecord (agent a : Address) (info : StakeInfo) (slashId : ℕ)
    (record : SlashRecord) (amount : ℕ) (action : String) (jobId : ℕ) (e : Event) :
    ((((s.setStake agent info).setRecord slashId record).recordSnapshot env a amount action
      jobId).emit e).core = (s.core.setStake agent info).setRecord slashId record := rfl

end Core

/-! ## Stakes -/

section Stakes

variable {env : Env} {s s' : State} {agent : Address} {amount jobId : ℕ}

theorem creditStake_ok (hsplit : (s.stakes env.sender).Split) (h0 : env.sender ≠ 0)
    (h : creditStake env amount s = .ok s') : ∃ info, s'.core = s.core.setStake env.sender info ∧
      info.Split ∧
      info.position = (s.stakes env.sender).position.deposit s.minStakeForActive amount := by
  simp only [creditStake, bind_eq_ok, checkedAdd_eq_ok, pure_eq_ok] at h
  obtain ⟨total, ⟨-, htotal⟩, available, ⟨-, havailable⟩, rfl⟩ := h
  refine ⟨_, core_emit_setStake .., ?_⟩
  generalize s.stakes env.sender = i at hsplit htotal havailable ⊢
  -- A first stake sets the owner and the date, which leaves the amounts as they were.
  have hsum : i.totalStaked + amount = total := by
    split_ifs at htotal <;> exact htotal
  have hadd : i.availableStake + amount = available := by
    split_ifs at havailable <;> exact havailable
  rw [StakeInfo.Split] at hsplit
  simp only [Position.deposit, ← hsplit, hsum]
  simp only [StakeInfo.Split, StakeInfo.position, Position.total] at hsplit ⊢
  by_cases hfirst : i.agent = 0 <;>
    by_cases hstatus : i.status = .withdrawn ∧ s.minStakeForActive ≤ total <;>
    simp [hfirst, hstatus, h0] <;> omega

theorem requestUnstake_ok (hsplit : (s.stakes env.sender).Split)
    (h : requestUnstake env amount s = .ok s') : ∃ info, s'.core = s.core.setStake env.sender info ∧
      info.Split ∧ info.position = (s.stakes env.sender).position.request amount ∧
      0 < amount ∧ (s.stakes env.sender).status = .active ∧
      amount ≤ (s.stakes env.sender).availableStake ∧
      (s.stakes env.sender).unbondingAmount = 0 ∧
      s.minStakeForActive ≤ (s.stakes env.sender).totalStaked - amount := by
  simp only [requestUnstake, bind_eq_ok, modifier_eq_ok, require_eq_ok, checkedSub_eq_ok,
    checkedAdd_eq_ok, pure_eq_ok] at h
  obtain ⟨_, -, _, -, _, hactive, _, hpos, _, hle, _, hnone, _, ⟨-, rfl⟩, _, hmin, _, ⟨-, rfl⟩,
    completesAt, -, rfl⟩ := h
  refine ⟨_, core_emit_setStake .., ?_, rfl, hpos, hactive, hle, hnone, hmin⟩
  simp only [StakeInfo.Split, StakeInfo.position, Position.total] at hsplit ⊢
  omega

theorem releaseUnbonding_ok (hsplit : (s.stakes env.sender).Split)
    (h : releaseUnbonding env s = .ok (amount, s')) : ∃ info, s'.core = s.core.setStake env.sender info ∧
      info.Split ∧
      info.position = (s.stakes env.sender).position.complete s.minStakeForActive ∧
      amount = (s.stakes env.sender).unbondingAmount ∧ 0 < amount := by
  simp only [releaseUnbonding, bind_eq_ok, require_eq_ok, checkedSub_eq_ok, pure_eq_ok,
    Prod.mk.injEq] at h
  obtain ⟨_, hpos, _, -, total, ⟨-, htotal⟩, rfl, rfl⟩ := h
  refine ⟨_, core_setStake .., ?_⟩
  generalize s.stakes env.sender = i at hsplit htotal hpos ⊢
  have heffective : i.position.effective = total := by
    rw [StakeInfo.Split, Position.total] at hsplit
    rw [Position.effective]
    simp only [StakeInfo.position] at hsplit ⊢
    omega
  simp only [Position.complete, heffective]
  simp only [StakeInfo.Split, StakeInfo.position, Position.total, Position.effective]
    at heffective ⊢
  by_cases hzero : total = 0
  · simp [hzero, hpos]
    omega
  · by_cases hstatus : i.status = .unbonding ∧ s.minStakeForActive ≤ total <;>
      simp [hzero, hstatus, hpos] <;> omega

theorem deactivate_ok (hsplit : (s.stakes env.sender).Split) (h : deactivate env s = .ok s') :
    ∃ info, s'.core = s.core.setStake env.sender info ∧ info.Split ∧
      info.position = (s.stakes env.sender).position.deactivate ∧
      ((s.stakes env.sender).status = .active ∨ (s.stakes env.sender).status = .unbonding) ∧
      (s.stakes env.sender).lockedStake = 0 ∧ (s.stakes env.sender).unbondingAmount = 0 ∧
      0 < (s.stakes env.sender).availableStake := by
  simp only [deactivate, bind_eq_ok, modifier_eq_ok, require_eq_ok, checkedAdd_eq_ok,
    pure_eq_ok] at h
  obtain ⟨_, -, _, -, _, hstatus, _, hlocked, _, hnone, _, hpos, completesAt, -, rfl⟩ := h
  refine ⟨_, (core_emit ..).trans (core_emit_setStake ..), ?_, rfl, hstatus, hlocked, hnone, hpos⟩
  simp only [StakeInfo.Split, StakeInfo.position, Position.total] at hsplit ⊢
  omega

theorem lockStake_ok (hsplit : (s.stakes agent).Split)
    (h : lockStake env agent amount jobId s = .ok s') : ∃ info, s'.core = s.core.setStake agent info ∧
      info.Split ∧ info.position = (s.stakes agent).position.lock amount ∧ 0 < amount ∧
      amount ≤ (s.stakes agent).availableStake := by
  simp only [lockStake, bind_eq_ok, require_eq_ok, checkedSub_eq_ok, checkedAdd_eq_ok,
    pure_eq_ok] at h
  obtain ⟨_, -, _, hpos, _, -, _, hle, _, ⟨-, rfl⟩, _, ⟨-, rfl⟩, rfl⟩ := h
  refine ⟨_, core_emit_setStake .., ?_, rfl, hpos, hle⟩
  simp only [StakeInfo.Split, StakeInfo.position, Position.total] at hsplit ⊢
  omega

theorem unlockStake_ok (hsplit : (s.stakes agent).Split)
    (h : unlockStake env agent amount jobId s = .ok s') : ∃ info, s'.core = s.core.setStake agent info ∧
      info.Split ∧ info.position = (s.stakes agent).position.unlock amount ∧ 0 < amount ∧
      amount ≤ (s.stakes agent).lockedStake := by
  simp only [unlockStake, bind_eq_ok, require_eq_ok, checkedSub_eq_ok, checkedAdd_eq_ok,
    pure_eq_ok] at h
  obtain ⟨_, -, _, hpos, _, -, _, hle, _, ⟨-, rfl⟩, _, ⟨-, rfl⟩, rfl⟩ := h
  refine ⟨_, core_emit_setStake .., ?_, rfl, hpos, hle⟩
  simp only [StakeInfo.Split, StakeInfo.position, Position.total] at hsplit ⊢
  omega

end Stakes

/-! ## Slashes -/

theorem takeFrom_eq (pool remaining : ℕ) :
    takeFrom pool remaining = .ok (pool - remaining, remaining - pool) := by
  unfold takeFrom
  dsimp only
  split_ifs with h
  · rw [checkedSub_of_le h.le, ok_bind, checkedSub_of_le le_rfl, Nat.sub_self,
      Nat.sub_eq_zero_of_le h.le]
    rfl
  · rw [checkedSub_of_le le_rfl, ok_bind, checkedSub_of_le (Nat.le_of_not_lt h), Nat.sub_self,
      Nat.sub_eq_zero_of_le (Nat.le_of_not_lt h)]
    rfl

theorem takeFrom_if_eq (pool remaining : ℕ) :
    (if 0 < remaining then takeFrom pool remaining else pure (pool, remaining)) =
      .ok (pool - remaining, remaining - pool) := by
  split_ifs with h
  · exact takeFrom_eq pool remaining
  · rw [Nat.eq_zero_of_not_pos h, Nat.sub_zero, Nat.zero_sub]
    rfl

section Slashes

variable {env : Env} {s s' : State} {agent : Address} {info info' : StakeInfo} {bps x : ℕ}

/-- The stake that a deduction of `x` leaves. -/
def StakeInfo.charged (info : StakeInfo) (x : ℕ) : StakeInfo := { info with
  totalStaked := info.totalStaked - x
  availableStake := info.availableStake - x
  lockedStake := info.lockedStake - (x - info.availableStake)
  unbondingAmount := info.unbondingAmount - (x - info.availableStake - info.lockedStake) }

theorem deductSlash_eq (hbps : bps ≤ 10000) (hfits : info.totalStaked * bps < 2^256) :
    deductSlash info bps = .ok (info.totalStaked * bps / 10000,
      info.charged (info.totalStaked * bps / 10000)) := by
  have hle := share_le hbps info.totalStaked
  simp only [deductSlash, checkedMul_of_lt hfits, ok_bind, if_neg (Nat.not_lt_of_le hle),
    checkedSub_of_le hle, takeFrom_eq info.availableStake, takeFrom_if_eq]
  rfl

theorem deductSlash_ok (hbps : bps ≤ 10000) (h : deductSlash info bps = .ok (x, info')) :
    x = info.totalStaked * bps / 10000 ∧ info' = info.charged x := by
  by_cases hfits : info.totalStaked * bps < 2^256
  · rw [deductSlash_eq hbps hfits, Except.ok.injEq, Prod.mk.injEq] at h
    obtain ⟨rfl, rfl⟩ := h
    exact ⟨rfl, rfl⟩
  · rw [deductSlash, checkedMul, if_neg hfits] at h
    cases h

theorem StakeInfo.Split.charged (h : info.Split) (hx : x ≤ info.totalStaked) :
    (info.charged x).Split := by
  have htotal := Position.total_charge (p := info.position) (x := x) (h ▸ hx)
  have hposition : (info.charged x).position = info.position.charge x := rfl
  rw [Split] at h ⊢
  rw [hposition]
  simp only [StakeInfo.charged]
  omega

theorem tryCall_core {target : Address} {c : BestEffort} (h : tryCall env target c s = .ok s') :
    s'.core = s.core := by
  unfold tryCall at h
  split_ifs at h
  cases h
  rfl

theorem applyReputationPenalty_core {reason : SlashReason}
    (h : applyReputationPenalty env agent reason s = .ok s') : s'.core = s.core := by
  unfold applyReputationPenalty at h
  dsimp only at h
  split_ifs at h
  · exact tryCall_core h
  · rw [pure_eq_ok.mp h]

theorem reverseReputationPenalty_core {record : SlashRecord}
    (h : reverseReputationPenalty env record s = .ok s') : s'.core = s.core := by
  unfold reverseReputationPenalty at h
  dsimp only at h
  split_ifs at h
  · obtain ⟨_, -, h⟩ := bind_eq_ok.mp h
    exact tryCall_core h
  · rw [pure_eq_ok.mp h]

theorem propagateSlash_core (h : propagateSlash env agent bps s = .ok s') : s'.core = s.core := by
  unfold propagateSlash at h
  split_ifs at h
  · exact tryCall_core h
  · rw [pure_eq_ok.mp h]

/-- `initiateSlash` takes a slash from the stake into escrow, under the next id. -/
theorem initiateSlash_ok {jobId subJobId : ℕ} {reason : SlashReason} {evidenceHash : UInt 256}
    (hsplit : (s.stakes agent).Split) (hbps : s.slashRates reason ≤ 10000)
    (h : initiateSlash env agent jobId subJobId reason evidenceHash s = .ok s') :
    ∃ info record, s'.core =
        ((((s.core.setRecord s.nextSlashId record).setNextSlashId (s.nextSlashId + 1)).setSlashed
          (s.slashEscrowBalance + record.slashedAmount) agent
          (s.agentTotalSlashed agent + record.slashedAmount)
          (s.totalSlashedAllTime + record.slashedAmount)).setStake agent info) ∧
      info.Split ∧
      info.position = (s.stakes agent).position.slash s.minStakeForActive (s.slashRates reason) ∧
      record.slash =
        ⟨agent, (s.stakes agent).position.slashAmount (s.slashRates reason), .pending⟩ ∧
      record.slashId = s.nextSlashId ∧ 0 < (s.stakes agent).totalStaked := by
  simp only [initiateSlash, bind_eq_ok, modifier_eq_ok, require_eq_ok, checkedAdd_eq_ok,
    createSlashRecord, pure_eq_ok, Prod.exists] at h
  obtain ⟨_, -, _, -, _, -, _, hpos, _, -, x, charged, hdeduct, escrow, ⟨-, rfl⟩, next, ⟨-, rfl⟩,
    s₁, ⟨deadline, -, rfl⟩, total, ⟨-, rfl⟩, allTime, ⟨-, rfl⟩, s₂, hpenalty, hpropagate⟩ := h
  obtain ⟨hx, hcharged⟩ := deductSlash_ok hbps hdeduct
  have hpenalty := applyReputationPenalty_core hpenalty
  have hmin : s₂.minStakeForActive = s.minStakeForActive :=
    congrArg Core.minStakeForActive hpenalty
  have hcore := propagateSlash_core hpropagate
  rw [core_emit_setStake, hpenalty, hmin] at hcore
  -- The books slash the total of the parts, the code the stored total; the two agree.
  have hamount : (s.stakes agent).position.slashAmount (s.slashRates reason) = x := by
    rw [Position.slashAmount, ← hsplit, hx]
  have hle : x ≤ (s.stakes agent).totalStaked := hx ▸ share_le hbps _
  refine ⟨_, _, hcore, ?_, ?_, ?_, rfl, hpos⟩
  · have hsplit := hsplit.charged hle
    rw [← hcharged] at hsplit
    split_ifs <;> exact hsplit
  · have htotal : (s.stakes agent).totalStaked - x = charged.totalStaked := by rw [hcharged]; rfl
    rw [Position.slash, hamount, ← hsplit, htotal]
    by_cases hfreeze : charged.totalStaked < s.minStakeForActive ∨ s.slashRates reason = 10000
    · rw [if_pos hfreeze, if_pos hfreeze, hcharged]
      rfl
    · rw [if_neg hfreeze, if_neg hfreeze, hcharged]
      rfl
  · rw [hamount]
    rfl

theorem fileAppeal_ok {slashId : ℕ} {reason : String}
    (h : fileAppeal env slashId reason s = .ok s') : ∃ record,
      s'.core = s.core.setRecord slashId record ∧
      record.slash = (s.slashRecords slashId).slash ∧
      record.slashId = (s.slashRecords slashId).slashId ∧
      (s.slashRecords slashId).slashId ≠ 0 := by
  simp only [fileAppeal, bind_eq_ok, require_eq_ok, pure_eq_ok] at h
  obtain ⟨_, hid, _, -, _, -, _, -, _, -, rfl⟩ := h
  exact ⟨_, core_emit .., rfl, rfl, hid⟩

theorem approveAppeal_ok {slashId : ℕ} {record : SlashRecord}
    (hsplit : (s.stakes record.agent).Split)
    (h : approveAppeal env slashId record s = .ok s') : ∃ info, s'.core =
        ((s.core.setSlashed (s.slashEscrowBalance - record.slashedAmount) record.agent
          (s.agentTotalSlashed record.agent - record.slashedAmount)
          (s.totalSlashedAllTime - record.slashedAmount)).setStake record.agent info).setRecord
            slashId { record with appealStatus := .approved } ∧
      info.Split ∧ info.position = (s.stakes record.agent).position.restore s.minStakeForActive
        record.slashedAmount := by
  simp only [approveAppeal, bind_eq_ok, checkedAdd_eq_ok, checkedSub_eq_ok, pure_eq_ok] at h
  obtain ⟨total, ⟨-, htotal⟩, available, ⟨-, havailable⟩, escrow, ⟨-, rfl⟩, _, ⟨-, rfl⟩, _,
    ⟨-, rfl⟩, s₁, hpenalty, rfl⟩ := h
  have hpenalty := reverseReputationPenalty_core hpenalty
  have hmin : s₁.minStakeForActive = s.minStakeForActive :=
    congrArg Core.minStakeForActive hpenalty
  refine ⟨_, (core_emit_setRecord ..).trans (congrArg (fun c : Core =>
    (c.setStake record.agent _).setRecord slashId _) (hpenalty.trans (core_setSlashed ..))), ?_⟩
  rw [hmin]
  generalize s.stakes record.agent = i at hsplit htotal havailable ⊢
  rw [StakeInfo.Split] at hsplit
  rw [Position.restore, ← hsplit, htotal]
  simp only [StakeInfo.Split, StakeInfo.position, Position.total] at hsplit ⊢
  -- The slash returns to the available part, and may thaw the agent.
  by_cases hthaw : i.status = .frozen ∧ s.minStakeForActive ≤ total <;>
    simp [hthaw, havailable] <;> omega

theorem execAdmin_ok {c : AdminCall} (hrates : ∀ reason, s.slashRates reason ≤ 10000)
    (h : execAdmin env c s = .ok s') : ∃ rates, s'.core = { s.core with slashRates := rates } ∧
      ∀ reason, rates reason ≤ 10000 := by
  simp only [execAdmin, bind_eq_ok, modifier_eq_ok] at h
  obtain ⟨_, -, h⟩ := h
  cases c with
  | setSlashRate reason basisPoints =>
    simp only [bind_eq_ok, require_eq_ok, pure_eq_ok] at h
    obtain ⟨_, hle, rfl⟩ := h
    refine ⟨_, rfl, fun r => ?_⟩
    rcases eq_or_ne r reason with rfl | hr
    · simpa using hle
    · simpa [hr] using hrates r
  | addAuthorizedSlasher | setTreasury | associateGuardToken | pause | unpause
  | transferOwnership =>
    simp only [bind_eq_ok, require_eq_ok, modifier_eq_ok, pure_eq_ok] at h
    obtain ⟨_, -, rfl⟩ := h
    exact ⟨_, rfl, hrates⟩
  | _ =>
    rw [← pure_eq_ok.mp h]
    exact ⟨_, rfl, hrates⟩

end Slashes

end AuditGuard.StakingManager
