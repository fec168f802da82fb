import AuditGuard.StakingManager.Effects

/-!
# StakingManager refines its books

The storage is faithful to its books when each total is split into the pools and each counter is the
sum that the books define. A call on faithful storage leaves faithful storage, and takes the books
through the operations that `Call.Does` lists (`exec_ok`). What holds of the books in every run thus
holds of the contract.
-/

namespace AuditGuard.StakingManager

open Evm

namespace Core

/-- The sum of `w` over the slash records. -/
def sumRecords (c : Core) (w : Slash → ℕ) : ℕ :=
  ∑ i ∈ Finset.range c.nextSlashId, w (c.slashRecords i).slash

/-- The storage keeps its totals and counters as the books define them. -/
structure Faithful (c : Core) : Prop where
  split : ∀ a, (c.stakes a).Split
  escrow : c.slashEscrowBalance = c.sumRecords Slash.escrowed
  agentTotal : ∀ a, c.agentTotalSlashed a = c.sumRecords (Slash.chargedTo a)
  allTime : c.totalSlashedAllTime = c.sumRecords Slash.charged
  unused : ∀ i, c.nextSlashId ≤ i → c.slashRecords i = SlashRecord.zero
  minStake : c.minStakeForActive = initialMinStake
  rates_le : ∀ reason, c.slashRates reason ≤ 10000

variable {c : Core} {slashId : ℕ} {record : SlashRecord}

theorem Faithful.lt_next (h : c.Faithful) (hid : (c.slashRecords slashId).slashId ≠ 0) :
    slashId < c.nextSlashId := by
  by_contra hge
  rw [h.unused slashId (Nat.le_of_not_lt hge)] at hid
  exact hid rfl

theorem Faithful.lt_next_of_pending (h : c.Faithful)
    (hpending : (c.slashRecords slashId).appealStatus = .pending) : slashId < c.nextSlashId := by
  by_contra hge
  rw [h.unused slashId (Nat.le_of_not_lt hge)] at hpending
  cases hpending

theorem sumRecords_setRecord (hid : slashId < c.nextSlashId) (record : SlashRecord)
    (w : Slash → ℕ) : (c.setRecord slashId record).sumRecords w + w (c.slashRecords slashId).slash =
      c.sumRecords w + w record.slash :=
  Sums.sum_update_of_mem (Finset.mem_range.mpr hid) c.slashRecords record fun _ r => w r.slash

theorem sumRecords_append (c : Core) (record : SlashRecord) (w : Slash → ℕ) :
    ((c.setRecord c.nextSlashId record).setNextSlashId (c.nextSlashId + 1)).sumRecords w =
      c.sumRecords w + w record.slash :=
  Sums.sum_range_push c.slashRecords c.nextSlashId record fun r => w r.slash

namespace Faithful

theorem setStake (h : c.Faithful) {a : Address} {info : StakeInfo} (hsplit : info.Split) :
    (c.setStake a info).Faithful where
  split a' := by
    rw [setStake_stakes]
    rcases eq_or_ne a' a with rfl | ha
    · rwa [Function.update_self]
    · rw [Function.update_of_ne ha]
      exact h.split a'
  escrow := h.escrow
  agentTotal := h.agentTotal
  allTime := h.allTime
  unused := h.unused
  minStake := h.minStake
  rates_le := h.rates_le

theorem setRecord (h : c.Faithful) (hid : slashId < c.nextSlashId)
    (hslash : record.slash = (c.slashRecords slashId).slash) :
    (c.setRecord slashId record).Faithful := by
  have hsum : ∀ w, (c.setRecord slashId record).sumRecords w = c.sumRecords w := by
    intro w
    have hmoved := sumRecords_setRecord hid record w
    rw [hslash] at hmoved
    exact Nat.add_right_cancel hmoved
  exact {
    split := h.split
    escrow := h.escrow.trans (hsum _).symm
    agentTotal := fun a => (h.agentTotal a).trans (hsum _).symm
    allTime := h.allTime.trans (hsum _).symm
    unused := fun i hi => by
      rw [setRecord_slashRecords, Function.update_of_ne (lt_of_lt_of_le hid hi).ne']
      exact h.unused i hi
    minStake := h.minStake
    rates_le := h.rates_le }

theorem setRates (h : c.Faithful) {rates : SlashReason → ℕ} (hrates : ∀ r, rates r ≤ 10000) :
    ({ c with slashRates := rates } : Core).Faithful :=
  ⟨h.split, h.escrow, h.agentTotal, h.allTime, h.unused, h.minStake, hrates⟩

theorem slash (h : c.Faithful) {a : Address} {x : ℕ} (hslash : record.slash = ⟨a, x, .pending⟩) :
    (((c.setRecord c.nextSlashId record).setNextSlashId (c.nextSlashId + 1)).setSlashed
      (c.slashEscrowBalance + x) a (c.agentTotalSlashed a + x)
      (c.totalSlashedAllTime + x)).Faithful where
  split := h.split
  escrow := by
    have hsum := sumRecords_append c record Slash.escrowed
    rw [hslash] at hsum
    exact (congrArg (· + x) h.escrow).trans hsum.symm
  agentTotal g := by
    have hsum := sumRecords_append c record (Slash.chargedTo g)
    rw [hslash, ← h.agentTotal g] at hsum
    refine Eq.trans ?_ hsum.symm
    rw [setSlashed_agentTotalSlashed]
    rcases eq_or_ne g a with rfl | hg
    · simp [Slash.chargedTo, Slash.charged]
    · simp [Slash.chargedTo, hg, hg.symm]
  allTime := by
    have hsum := sumRecords_append c record Slash.charged
    rw [hslash] at hsum
    exact (congrArg (· + x) h.allTime).trans hsum.symm
  unused i hi := by
    have hlt : c.nextSlashId < i := hi
    simp only [setSlashed_slashRecords, setNextSlashId_slashRecords, setRecord_slashRecords]
    rw [Function.update_of_ne hlt.ne']
    exact h.unused i hlt.le
  minStake := h.minStake
  rates_le := h.rates_le

theorem approve (h : c.Faithful) (hrecord : c.slashRecords slashId = record)
    (hpending : record.appealStatus = .pending) :
    ((c.setSlashed (c.slashEscrowBalance - record.slashedAmount) record.agent
      (c.agentTotalSlashed record.agent - record.slashedAmount)
      (c.totalSlashedAllTime - record.slashedAmount)).setRecord slashId
        { record with appealStatus := .approved }).Faithful := by
  have hid : slashId < c.nextSlashId := h.lt_next_of_pending (hrecord ▸ hpending)
  have hsum := sumRecords_setRecord hid { record with appealStatus := .approved }
  rw [hrecord] at hsum
  -- The slash was pending, so that it counts in every sum, and no more once it is approved.
  exact {
    split := h.split
    escrow := by
      have hsum := hsum Slash.escrowed
      have hescrow := h.escrow
      refine Eq.trans ?_ (Nat.eq_sub_of_add_eq hsum).symm
      simp [SlashRecord.slash, Slash.escrowed, hpending, hescrow]
    agentTotal := fun g => by
      have hsum := hsum (Slash.chargedTo g)
      have htotal := h.agentTotal g
      refine Eq.trans ?_ (Nat.eq_sub_of_add_eq hsum).symm
      rw [setRecord_agentTotalSlashed, setSlashed_agentTotalSlashed]
      rcases eq_or_ne g record.agent with rfl | hg
      · simp [SlashRecord.slash, Slash.chargedTo, Slash.charged, hpending, htotal]
      · simp [SlashRecord.slash, Slash.chargedTo, hg, hg.symm, htotal]
    allTime := by
      have hsum := hsum Slash.charged
      have htotal := h.allTime
      refine Eq.trans ?_ (Nat.eq_sub_of_add_eq hsum).symm
      simp [SlashRecord.slash, Slash.charged, hpending, htotal]
    unused := fun i hi => by
      rw [setRecord_slashRecords, Function.update_of_ne (lt_of_lt_of_le hid hi).ne']
      exact h.unused i hi
    minStake := h.minStake
    rates_le := h.rates_le }

theorem deny (h : c.Faithful) (hrecord : c.slashRecords slashId = record)
    (hpending : record.appealStatus = .pending) :
    ((c.setEscrow (c.slashEscrowBalance - record.slashedAmount)).setRecord slashId
      { record with appealStatus := .denied }).Faithful := by
  have hid : slashId < c.nextSlashId := h.lt_next_of_pending (hrecord ▸ hpending)
  have hsum := sumRecords_setRecord hid { record with appealStatus := .denied }
  rw [hrecord] at hsum
  -- What the slash cost its agent stays counted; only the escrow loses it.
  exact {
    split := h.split
    escrow := by
      have hsum := hsum Slash.escrowed
      have hescrow := h.escrow
      refine Eq.trans ?_ (Nat.eq_sub_of_add_eq hsum).symm
      simp [SlashRecord.slash, Slash.escrowed, hpending, hescrow]
    agentTotal := fun g => by
      have hsum := hsum (Slash.chargedTo g)
      have htotal := h.agentTotal g
      refine Eq.trans ?_ (Nat.eq_sub_of_add_eq hsum).symm
      simp [SlashRecord.slash, Slash.chargedTo, Slash.charged, hpending, htotal]
    allTime := by
      have hsum := hsum Slash.charged
      have htotal := h.allTime
      refine Eq.trans ?_ (Nat.eq_sub_of_add_eq hsum).symm
      simp [SlashRecord.slash, Slash.charged, hpending, htotal]
    unused := fun i hi => by
      rw [setRecord_slashRecords, Function.update_of_ne (lt_of_lt_of_le hid hi).ne']
      exact h.unused i hi
    minStake := h.minStake
    rates_le := h.rates_le }

end Faithful

end Core

theorem faithful_fresh (deployer guardToken agentRegistry treasury : Address) :
    (State.fresh deployer guardToken agentRegistry treasury).core.Faithful where
  split _ := rfl
  escrow := rfl
  agentTotal _ := by
    simp [State.core, State.fresh, Core.sumRecords, SlashRecord.slash, SlashRecord.zero,
      Slash.chargedTo, Slash.charged]
  allTime := rfl
  unused _ _ := rfl
  minStake := rfl
  rates_le := initialSlashRate_le

/-! ## Calls -/

/-- The operations that a call from `w` takes the books through. -/
def Call.Does (env : Env) (w : World) : Call → List BookOp → Prop
  | .stake amount, ops => ops = [.deposit env.sender amount]
  | .requestUnstake amount, ops => ops = [.request env.sender amount]
  | .completeUnstake, ops => ops = [.complete env.sender]
  | .deactivate, ops => ops = [.deactivate env.sender]
  | .lockStake agent amount _, ops => ops = [.lock agent amount]
  | .unlockStake agent amount _, ops => ops = [.unlock agent amount]
  | .initiateSlash agent _ _ reason _, ops => ops = [.slash agent (w.state.slashRates reason)]
  | .fileAppeal _ _, ops => ops = []
  | .resolveAppeal slashId true, ops => ops = [.approve slashId]
  | .resolveAppeal slashId false, ops => ops = [.deny slashId w.state.treasury]
  | .finalizeExpiredAppeals, ops =>
    ∃ ids : List ℕ, ops = ids.map fun slashId => .deny slashId w.state.treasury
  | .admin _, ops => ops = []

/-- Faithful storage, which the operations `ops` lead to from the books of `w`. -/
structure Refines (this : Address) (w w' : World) (ops : List BookOp) : Prop where
  faithful : w'.state.core.Faithful
  books : BookSteps this initialMinStake w.books ops w'.books

section Calls

variable {this : Address} {env : Env} {w w' : World} {amount : ℕ}

theorem Refines.of_setStake {agent : Address} {info : StakeInfo} {op : BookOp}
    (hw : w.state.core.Faithful) (hcore : w'.state.core = w.state.core.setStake agent info)
    (hsplit : info.Split) (hop : BookStep this initialMinStake w.books op
      ((w.books.setPosition agent info.position).setGuard w'.guard)) : Refines this w w' [op] where
  faithful := hcore ▸ hw.setStake hsplit
  books := by
    have hbooks : w'.books = (w.books.setPosition agent info.position).setGuard w'.guard := by
      rw [World.books, hcore, Core.books_setStake]
      rfl
    exact hbooks ▸ .single hop

theorem stake_refines (hw : w.state.core.Faithful) (hs : env.sender ≠ this) (h0 : env.sender ≠ 0)
    (h : stake this env amount w = .ok w') : Refines this w w' [.deposit env.sender amount] := by
  simp only [stake, bind_eq_ok, modifier_eq_ok, require_eq_ok, transferGuard_eq_ok, pure_eq_ok] at h
  obtain ⟨_, -, _, hpos, _, -, w₁, ⟨-, htransfer, hstate⟩, s', hcredit, rfl⟩ := h
  rw [hstate] at hcredit
  obtain ⟨info, hcore, hsplit, hposition⟩ := creditStake_ok (hw.split env.sender) h0 hcredit
  refine .of_setStake hw hcore hsplit ?_
  rw [hposition, show w.state.minStakeForActive = initialMinStake from hw.minStake]
  exact .deposit hpos hs htransfer

theorem requestUnstake_refines (hw : w.state.core.Faithful)
    (h : onState (requestUnstake env amount) w = .ok w') :
    Refines this w w' [.request env.sender amount] := by
  rw [onState_eq_ok] at h
  obtain ⟨info, hcore, hsplit, hposition, hpos, hactive, hle, hnone, hmin⟩ :=
    requestUnstake_ok (hw.split env.sender) h.1
  refine .of_setStake hw hcore hsplit ?_
  rw [hposition, h.2]
  refine .request hpos hactive hle hnone ?_
  have hsplit : (w.state.stakes env.sender).Split := hw.split env.sender
  rw [show w.state.minStakeForActive = initialMinStake from hw.minStake, hsplit] at hmin
  exact hmin

theorem completeUnstake_refines (hw : w.state.core.Faithful) (hs : env.sender ≠ this)
    (h : completeUnstake this env w = .ok w') : Refines this w w' [.complete env.sender] := by
  simp only [completeUnstake, bind_eq_ok, transferGuard_eq_ok, pure_eq_ok, Prod.exists] at h
  obtain ⟨amount, s', hrelease, w₁, ⟨-, htransfer, hstate⟩, rfl⟩ := h
  obtain ⟨info, hcore, hsplit, hposition, rfl, hpos⟩ :=
    releaseUnbonding_ok (hw.split env.sender) hrelease
  rw [← hstate] at hcore
  refine .of_setStake hw ((core_emit ..).trans ((core_recordSnapshot ..).trans hcore)) hsplit ?_
  rw [hposition, show w.state.minStakeForActive = initialMinStake from hw.minStake]
  exact .complete hpos hs htransfer

theorem deactivate_refines (hw : w.state.core.Faithful) (h : onState (deactivate env) w = .ok w') :
    Refines this w w' [.deactivate env.sender] := by
  rw [onState_eq_ok] at h
  obtain ⟨info, hcore, hsplit, hposition, hstatus, hlocked, hnone, hpos⟩ :=
    deactivate_ok (hw.split env.sender) h.1
  refine .of_setStake hw hcore hsplit ?_
  rw [hposition, h.2]
  exact .deactivate hstatus hlocked hnone hpos

theorem lockStake_refines {agent : Address} {jobId : ℕ} (hw : w.state.core.Faithful)
    (h : onState (lockStake env agent amount jobId) w = .ok w') :
    Refines this w w' [.lock agent amount] := by
  rw [onState_eq_ok] at h
  obtain ⟨info, hcore, hsplit, hposition, hpos, hle⟩ := lockStake_ok (hw.split agent) h.1
  refine .of_setStake hw hcore hsplit ?_
  rw [hposition, h.2]
  exact .lock hpos hle

theorem unlockStake_refines {agent : Address} {jobId : ℕ} (hw : w.state.core.Faithful)
    (h : onState (unlockStake env agent amount jobId) w = .ok w') :
    Refines this w w' [.unlock agent amount] := by
  rw [onState_eq_ok] at h
  obtain ⟨info, hcore, hsplit, hposition, hpos, hle⟩ := unlockStake_ok (hw.split agent) h.1
  refine .of_setStake hw hcore hsplit ?_
  rw [hposition, h.2]
  exact .unlock hpos hle

theorem initiateSlash_refines {agent : Address} {jobId subJobId : ℕ} {reason : SlashReason}
    {evidenceHash : UInt 256} (hw : w.state.core.Faithful)
    (h : onState (initiateSlash env agent jobId subJobId reason evidenceHash) w = .ok w') :
    Refines this w w' [.slash agent (w.state.slashRates reason)] := by
  rw [onState_eq_ok] at h
  obtain ⟨info, record, hcore, hsplit, hposition, hslash, -, hpos⟩ :=
    initiateSlash_ok (hw.split agent) (hw.rates_le reason) h.1
  have hstake : (w.state.stakes agent).Split := hw.split agent
  rw [show w.state.minStakeForActive = initialMinStake from hw.minStake] at hposition
  -- The storage stays faithful, and the books make one slash.
  constructor
  · have hamount : record.slashedAmount =
        (w.state.stakes agent).position.slashAmount (w.state.slashRates reason) :=
      congrArg Slash.amount hslash
    rw [hcore, hamount]
    exact (hw.slash hslash).setStake hsplit
  · have hbooks : w'.books = w.books.slash initialMinStake agent (w.state.slashRates reason) := by
      have hrecord := Core.books_setRecord w.state.core w.state.nextSlashId record w.guard
      rw [hslash] at hrecord
      rw [World.books, hcore, Core.books_setStake, hposition, h.2]
      exact congrArg (fun b : Books => ({ b with nextSlashId := w.state.nextSlashId + 1 } :
        Books).setPosition agent _) hrecord
    rw [hbooks]
    refine .single (.slash ?_ (hw.rates_le reason))
    rw [hstake] at hpos
    exact hpos

theorem fileAppeal_refines {slashId : ℕ} {reason : String} (hw : w.state.core.Faithful)
    (h : onState (fileAppeal env slashId reason) w = .ok w') : Refines this w w' [] := by
  rw [onState_eq_ok] at h
  obtain ⟨record, hcore, hslash, -, hid⟩ := fileAppeal_ok h.1
  constructor
  · exact hcore ▸ hw.setRecord (hw.lt_next hid) hslash
  · have hbooks : w'.books = w.books := by
      rw [World.books, hcore, Core.books_setRecord, hslash, h.2]
      exact congrArg (fun slashes => ({ w.books with slashes := slashes } : Books))
        (Function.update_eq_self slashId w.books.slashes)
    exact hbooks ▸ .nil

theorem denyAppeal_ok {slashId : ℕ} (h : denyAppeal this env slashId w = .ok w') :
    w'.state = (w.state.setEscrow
        (w.state.slashEscrowBalance - (w.state.slashRecords slashId).slashedAmount)).setRecord slashId
          { w.state.slashRecords slashId with appealStatus := .denied } ∧
      w.guard.transfer this w.state.treasury (w.state.slashRecords slashId).slashedAmount =
        some w'.guard := by
  simp only [denyAppeal, bind_eq_ok, checkedSub_eq_ok, transferGuard_eq_ok, pure_eq_ok] at h
  obtain ⟨escrow, ⟨-, rfl⟩, w₁, ⟨-, htransfer, hstate⟩, rfl⟩ := h
  rw [hstate]
  exact ⟨rfl, htransfer⟩

theorem denyAppeal_refines {slashId : ℕ} (hw : w.state.core.Faithful)
    (hpending : (w.state.slashRecords slashId).appealStatus = .pending)
    (h : denyAppeal this env slashId w = .ok w') :
    Refines this w w' [.deny slashId w.state.treasury] := by
  obtain ⟨hstate, htransfer⟩ := denyAppeal_ok h
  have hcore := congrArg State.core hstate
  rw [core_setRecord, core_setEscrow] at hcore
  have hbooks : w'.books = w.books.deny slashId w'.guard := by
    rw [World.books, hcore, Core.books_setRecord]
    rfl
  constructor
  · rw [hcore]
    exact hw.deny rfl hpending
  · rw [hbooks]
    exact .single (.deny hpending htransfer)

theorem approveAppeal_refines {slashId : ℕ} (hw : w.state.core.Faithful)
    (hpending : (w.state.slashRecords slashId).appealStatus = .pending)
    (h : onState (approveAppeal env slashId (w.state.slashRecords slashId)) w = .ok w') :
    Refines this w w' [.approve slashId] := by
  rw [onState_eq_ok] at h
  obtain ⟨info, hcore, hsplit, hposition⟩ := approveAppeal_ok (hw.split _) h.1
  rw [show w.state.minStakeForActive = initialMinStake from hw.minStake] at hposition
  constructor
  · rw [hcore]
    exact (hw.approve rfl hpending).setStake hsplit
  · have hbooks : w'.books = w.books.approve initialMinStake slashId := by
      rw [World.books, hcore, Core.books_setRecord, Core.books_setStake, hposition, h.2]
      rfl
    rw [hbooks]
    exact .single (.approve hpending)

theorem Refines.nil (hw : w.state.core.Faithful) : Refines this w w [] := ⟨hw, .nil⟩

theorem Refines.append {w₁ : World} {ops ops' : List BookOp} (h : Refines this w w₁ ops)
    (h' : Refines this w₁ w' ops') : Refines this w w' (ops ++ ops') :=
  ⟨h'.faithful, h.books.append h'.books⟩

theorem Refines.emit {ops : List BookOp} (h : Refines this w w' ops) (e : Event) :
    Refines this w (w'.emit e) ops := ⟨h.faithful, h.books⟩

theorem finalizeAppeal_refines {slashId : ℕ} (hw : w.state.core.Faithful)
    (h : finalizeAppeal this env w slashId = .ok w') : w'.state.treasury = w.state.treasury ∧
      ∃ ids : List ℕ, Refines this w w' (ids.map fun i => .deny i w.state.treasury) := by
  unfold finalizeAppeal at h
  dsimp only at h
  split_ifs at h with hexpired
  · simp only [bind_eq_ok, pure_eq_ok] at h
    obtain ⟨w₁, hdeny, rfl⟩ := h
    have htreasury : w₁.state.treasury = w.state.treasury := by
      rw [(denyAppeal_ok hdeny).1]
      rfl
    exact ⟨htreasury, [slashId], (denyAppeal_refines hw hexpired.1 hdeny).emit _⟩
  · rw [← pure_eq_ok.mp h]
    exact ⟨rfl, [], .nil hw⟩

theorem finalizeLoop_refines {slashIds : List ℕ} (hw : w.state.core.Faithful)
    (h : slashIds.foldlM (finalizeAppeal this env) w = .ok w') :
    ∃ ids : List ℕ, Refines this w w' (ids.map fun i => .deny i w.state.treasury) := by
  induction slashIds generalizing w with
  | nil =>
    rw [List.foldlM_nil, pure_eq_ok] at h
    exact ⟨[], h ▸ .nil hw⟩
  | cons slashId slashIds ih =>
    rw [List.foldlM_cons, bind_eq_ok] at h
    obtain ⟨w₁, h₁, h⟩ := h
    obtain ⟨htreasury, ids, hpass⟩ := finalizeAppeal_refines hw h₁
    obtain ⟨ids', hrest⟩ := ih hpass.faithful h
    rw [htreasury] at hrest
    refine ⟨ids ++ ids', ?_⟩
    rw [List.map_append]
    exact hpass.append hrest

theorem resolveAppeal_refines {slashId : ℕ} {approved : Bool} (hw : w.state.core.Faithful)
    (h : resolveAppeal this env slashId approved w = .ok w') :
    Refines this w w' (if approved then [.approve slashId]
      else [.deny slashId w.state.treasury]) := by
  simp only [resolveAppeal, bind_eq_ok, modifier_eq_ok, require_eq_ok] at h
  obtain ⟨_, -, _, -, _, hpending, _, -, h⟩ := h
  cases approved with
  | true => exact approveAppeal_refines hw hpending h
  | false =>
    simp only [Bool.false_eq_true, if_false, bind_eq_ok, pure_eq_ok] at h ⊢
    obtain ⟨w₁, hdeny, rfl⟩ := h
    exact (denyAppeal_refines hw hpending hdeny).emit _

theorem exec_ok {c : Call} (hw : w.state.core.Faithful) (hs : env.sender ≠ this)
    (h0 : env.sender ≠ 0) (h : exec this env c w = .ok w') :
    ∃ ops, c.Does env w ops ∧ Refines this w w' ops := by
  unfold exec at h
  split_ifs at h
  cases c with
  | stake amount => exact ⟨_, rfl, stake_refines hw hs h0 h⟩
  | requestUnstake amount => exact ⟨_, rfl, requestUnstake_refines hw h⟩
  | completeUnstake => exact ⟨_, rfl, completeUnstake_refines hw hs h⟩
  | deactivate => exact ⟨_, rfl, deactivate_refines hw h⟩
  | lockStake agent amount jobId => exact ⟨_, rfl, lockStake_refines hw h⟩
  | unlockStake agent amount jobId => exact ⟨_, rfl, unlockStake_refines hw h⟩
  | initiateSlash agent jobId subJobId reason evidenceHash =>
    exact ⟨_, rfl, initiateSlash_refines hw h⟩
  | fileAppeal slashId reason => exact ⟨_, rfl, fileAppeal_refines hw h⟩
  | resolveAppeal slashId approved =>
    refine ⟨_, ?_, resolveAppeal_refines hw h⟩
    cases approved <;> rfl
  -- The loop settles whichever slashes have expired.
  | finalizeExpiredAppeals =>
    obtain ⟨ids, hids⟩ := finalizeLoop_refines hw h
    exact ⟨_, ⟨ids, rfl⟩, hids⟩
  | admin c =>
    obtain ⟨hadmin, hguard⟩ := onState_eq_ok.mp h
    obtain ⟨rates, hcore, hrates⟩ := execAdmin_ok hw.rates_le hadmin
    refine ⟨[], rfl, hcore ▸ hw.setRates hrates, ?_⟩
    have hbooks : w'.books = w.books := by
      rw [World.books, hcore, hguard]
      rfl
    exact hbooks ▸ .nil

theorem reachable_faithful (hw : (system this).Reachable w) : w.state.core.Faithful := by
  refine hw.induct (I := fun w => w.state.core.Faithful) ?_ ?_
  · intro w h
    obtain ⟨deployer, guardToken, agentRegistry, treasury, hstate⟩ := h.state_eq
    exact hstate ▸ faithful_fresh deployer guardToken agentRegistry treasury
  · rintro w l w' - hfaithful (⟨hs, h0, h⟩ | h)
    · obtain ⟨ops, -, hrefines⟩ := exec_ok hfaithful hs h0 h
      exact hrefines.faithful
    · exact hfaithful

theorem step_books {l : Label} (hw : (system this).Reachable w) (h : Step this w l w') :
    (∃ ops, BookSteps this initialMinStake w.books ops w'.books) ∨
      ∃ guard : TokenLedger, w.guard.balance this ≤ guard.balance this ∧
        w'.books = w.books.setGuard guard := by
  cases h with
  | call hs h0 h =>
    obtain ⟨ops, -, hrefines⟩ := exec_ok (reachable_faithful hw) hs h0 h
    exact .inl ⟨ops, hrefines.books⟩
  | elsewhere h => exact .inr ⟨_, h, rfl⟩

end Calls

end AuditGuard.StakingManager
