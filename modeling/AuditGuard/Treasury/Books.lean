import Mathlib.Algebra.BigOperators.Intervals
import AuditGuard.Treasury.System

/-!
# Treasury: the books balance

Five totals, two histories and the contract's tokens. Revenue comes in by `receiveFee` only, and leaves what is
pending by `distribute`, which records where it went, or by `emergencyWithdraw`, which does not. A distribution
loses nothing to rounding: the validators and the reserve get the floor of their parts, and the rest, at most two
units above the floor of its own part, is burned.
-/

namespace AuditGuard.Treasury

open Evm TransitionSystem

/-- The accounting part of the storage. -/
structure Books where
  totalRevenue : ℕ
  totalDistributed : ℕ
  pendingBalance : ℕ
  totalBurned : ℕ
  revenueBySource : FeeSource → ℕ
  revenueHistory : List RevenueRecord
  nextDistributionId : ℕ
  distributions : ℕ → DistributionRecord

/-- The books in the storage. -/
def books (s : State) : Books where
  totalRevenue := s.totalRevenue
  totalDistributed := s.totalDistributed
  pendingBalance := s.pendingBalance
  totalBurned := s.totalBurned
  revenueBySource := s.revenueBySource
  revenueHistory := s.revenueHistory
  nextDistributionId := s.nextDistributionId
  distributions := s.distributions

/-- The distribution record splits its total, and its burn is at most two units above the floor of the burn
address's part under the configuration. -/
def Splits (config : DistributionConfig) (record : DistributionRecord) : Prop :=
  record.ucpAmount + record.reserveAmount + record.burnAmount = record.totalDistributed ∧
  record.burnAmount ≤ record.totalDistributed * config.burnPercent / 100 + 2

/-- What a call that succeeds does to the books and to the ledger. -/
inductive Effect (this : Address) (env : Env) (config : DistributionConfig) (b : Books)
    (token : TokenLedger) : Call → Books → TokenLedger → Prop
  | receive {source : FeeSource} {amount jobId : UInt 256} {record : RevenueRecord}
      {token' : TokenLedger} (hamount : record.amount = amount)
      (htoken : token.transfer env.sender this amount = some token') :
      Effect this env config b token (.receiveFee source amount jobId) { b with
        totalRevenue := b.totalRevenue + amount
        pendingBalance := b.pendingBalance + amount
        revenueBySource := Function.update b.revenueBySource source (b.revenueBySource source + amount)
        revenueHistory := b.revenueHistory ++ [record] } token'
  | distribute {record : DistributionRecord} {token' : TokenLedger}
      (htotal : record.totalDistributed = b.pendingBalance) (hsplits : Splits config record) :
      Effect this env config b token .distribute { b with
        totalDistributed := b.totalDistributed + b.pendingBalance
        pendingBalance := 0
        totalBurned := b.totalBurned + record.burnAmount
        nextDistributionId := b.nextDistributionId + 1
        distributions := Function.update b.distributions b.nextDistributionId record } token'
  | withdraw {recipient : Address} {amount : UInt 256} {token' : TokenLedger}
      (htoken : token.transfer this recipient amount = some token') :
      Effect this env config b token (.emergencyWithdraw recipient amount)
        { b with pendingBalance := b.pendingBalance - amount } token'
  | administer {c : Call} (hdistribute : c ≠ .distribute) : Effect this env config b token c b token

variable {this : Address} {env : Env} {config : DistributionConfig} {b b' : Books}
  {token token' : TokenLedger} {c : Call} {s s' : State} {w w' : World State} {amount : ℕ}
  {ts : List (Transition (World State) (Label Env Call))}

/-! ## What a call does -/

theorem split_ok {ucp reserve burn : ℕ} (h : split config amount = .ok (ucp, reserve, burn)) :
    ucp + reserve + burn = amount ∧ burn ≤ amount * config.burnPercent / 100 + 2 := by
  simp only [split, bind_eq_ok, pure_eq_ok, checkedMul_eq_ok, checkedSub_eq_ok, Prod.mk.injEq] at h
  obtain ⟨_, ⟨-, rfl⟩, _, ⟨-, rfl⟩, _, ⟨hucp, rfl⟩, _, ⟨hreserve, rfl⟩, rfl, rfl, rfl⟩ := h
  have hwhole : amount * config.ucpValidatorsPercent + amount * config.protocolReservePercent +
      amount * config.burnPercent = amount * 100 := by
    rw [← Nat.mul_add, ← Nat.mul_add, config.sum_eq]
  constructor <;> omega

theorem split_ne_underflow : split config amount ≠ .error .underflow := by
  have hparts : amount * config.ucpValidatorsPercent + amount * config.protocolReservePercent ≤
      amount * 100 := by
    rw [← Nat.mul_add]
    exact Nat.mul_le_mul_left _ (by have hsum := config.sum_eq; omega)
  intro h
  simp only [split, bind_eq_error, checkedMul_eq_error, checkedMul_eq_ok, checkedSub_eq_error,
    checkedSub_eq_ok, pure_ne_error, reduceCtorEq, and_false, false_or] at h
  obtain ⟨_, ⟨-, rfl⟩, _, ⟨-, rfl⟩, h⟩ := h
  rcases h with ⟨hucp, -⟩ | ⟨_, ⟨-, rfl⟩, ⟨hreserve, -⟩ | ⟨_, -, h⟩⟩
  · omega
  · omega

theorem payTarget_ok {target : Address} (h : payTarget this env target amount w = .ok w') :
    w'.state = w.state := by
  unfold payTarget at h
  split_ifs at h
  · simp only [transferGuard, Hts.transfer_eq_ok] at h
    obtain ⟨-, token, -, rfl⟩ := h
    rfl
  · rw [pure_eq_ok] at h
    rw [h]

theorem receiveFee_effect {source : FeeSource} {amount jobId : UInt 256}
    (h : receiveFee this env source amount jobId w = .ok w') :
    Effect this env w.state.distributionConfig (books w.state) w.token (.receiveFee source amount jobId)
      (books w'.state) w'.token := by
  simp only [receiveFee, recordFee, transferGuard, Hts.transfer_eq_ok, bind_eq_ok, onState_eq_ok,
    checkedAdd_eq_ok, pure_eq_ok] at h
  obtain ⟨_, -, _, -, _, ⟨-, token, htoken, rfl⟩, _, ⟨_, ⟨-, rfl⟩, _, ⟨-, rfl⟩, _, ⟨-, rfl⟩, rfl⟩, rfl⟩ := h
  exact .receive rfl htoken

theorem distribute_effect (h : distribute this env w = .ok w') :
    Effect this env w.state.distributionConfig (books w.state) w.token .distribute (books w'.state)
      w'.token := by
  simp only [distribute, recordDistribution, bind_eq_ok, onState_eq_ok, checkedAdd_eq_ok, pure_eq_ok,
    Prod.exists] at h
  obtain ⟨_, -, _, -, ucp, reserve, burn, hsplit, w₁, hucp, w₂, hreserve, w₃, hburn, _,
    ⟨totalBurned, hburned, _, ⟨-, rfl⟩, _, ⟨-, rfl⟩, rfl⟩, rfl⟩ := h
  rw [payTarget_ok hburn, payTarget_ok hreserve, payTarget_ok hucp] at hburned ⊢
  obtain rfl : totalBurned = w.state.totalBurned + burn := by
    split_ifs at hburned
    · exact (checkedAdd_eq_ok.mp hburned).2.symm
    · rw [pure_eq_ok] at hburned
      omega
  have hsplits : Splits w.state.distributionConfig
      ⟨w.state.nextDistributionId, w.state.pendingBalance, ucp, reserve, burn, env.timestamp⟩ :=
    split_ok hsplit
  exact .distribute rfl hsplits

theorem emergencyWithdraw_effect {recipient : Address} {amount : UInt 256}
    (h : emergencyWithdraw this env recipient amount w = .ok w') :
    Effect this env w.state.distributionConfig (books w.state) w.token
      (.emergencyWithdraw recipient amount) (books w'.state) w'.token := by
  simp only [emergencyWithdraw, transferGuard, Hts.transfer_eq_ok, bind_eq_ok, pure_eq_ok] at h
  obtain ⟨_, -, _, -, _, -, _, ⟨-, token, htoken, rfl⟩, pending, hpending, rfl⟩ := h
  obtain rfl : pending = w.state.pendingBalance - amount := by
    split_ifs at hpending
    · exact (checkedSub_eq_ok.mp hpending).2.symm
    · rw [pure_eq_ok] at hpending
      dsimp only at *
      omega
  exact .withdraw htoken

theorem exec_effect (h : exec this env c w = .ok w') :
    Effect this env w.state.distributionConfig (books w.state) w.token c (books w'.state) w'.token := by
  unfold exec at h
  split_ifs at h
  cases c with
  | receiveFee => exact receiveFee_effect h
  | distribute => exact distribute_effect h
  | emergencyWithdraw => exact emergencyWithdraw_effect h
  -- The other calls work on storage alone, and not on the books.
  | setDistributionConfig =>
    obtain ⟨s, hs, rfl⟩ := onState_eq_ok.mp h
    simp only [setDistributionConfig, bind_eq_ok] at hs
    obtain ⟨_, -, _, -, _, -, hs⟩ := hs
    split_ifs at hs
    rw [pure_eq_ok] at hs
    subst hs
    exact .administer (by simp)
  | setDistributionTargets =>
    obtain ⟨s, hs, rfl⟩ := onState_eq_ok.mp h
    simp only [setDistributionTargets, bind_eq_ok, pure_eq_ok] at hs
    obtain ⟨_, -, _, -, _, -, _, -, rfl⟩ := hs
    exact .administer (by simp)
  | setDiscountParameters | addAuthorizedSource | associateGuardToken | transferOwnership =>
    obtain ⟨s, hs, rfl⟩ := onState_eq_ok.mp h
    simp only [setDiscountParameters, addAuthorizedSource, associateGuardToken, transferOwnership,
      bind_eq_ok, pure_eq_ok] at hs
    obtain ⟨_, -, _, -, rfl⟩ := hs
    exact .administer (by simp)
  | setAutoDistributeThreshold | removeAuthorizedSource | setStakingManager | setAgentRegistry |
      renounceOwnership =>
    obtain ⟨s, hs, rfl⟩ := onState_eq_ok.mp h
    simp only [setAutoDistributeThreshold, removeAuthorizedSource, setStakingManager, setAgentRegistry,
      renounceOwnership, bind_eq_ok, pure_eq_ok] at hs
    obtain ⟨_, -, rfl⟩ := hs
    exact .administer (by simp)

theorem payTarget_ne_underflow {target : Address} :
    payTarget this env target amount w ≠ .error .underflow := by
  unfold payTarget
  split_ifs
  · exact Hts.transfer_ne_underflow
  · simp

theorem recordDistribution_ne_underflow {ucp reserve burn : ℕ} :
    recordDistribution env amount ucp reserve burn s ≠ .error .underflow := by
  intro h
  simp only [recordDistribution, bind_eq_error, checkedAdd_eq_error, pure_ne_error, reduceCtorEq,
    and_false, exists_false, or_false] at h
  split_ifs at h
  · simp at h
  · simp at h

theorem distribute_ne_underflow : distribute this env w ≠ .error .underflow := by
  intro h
  simp only [distribute, onState, bind_eq_error, require_eq_error, reduceCtorEq, and_false,
    pure_ne_error, exists_false, or_false, split_ne_underflow, payTarget_ne_underflow,
    recordDistribution_ne_underflow] at h

/-! ## What every reachable state keeps -/

/-- The totals are the sums of the histories, and every distribution was split. -/
structure Kept (b : Books) : Prop where
  bySource : b.totalRevenue = ∑ source, b.revenueBySource source
  history : b.totalRevenue = (b.revenueHistory.map RevenueRecord.amount).sum
  next_pos : 1 ≤ b.nextDistributionId
  distributed : b.totalDistributed =
    ∑ id ∈ Finset.Ico 1 b.nextDistributionId, (b.distributions id).totalDistributed
  burned : b.totalBurned = ∑ id ∈ Finset.Ico 1 b.nextDistributionId, (b.distributions id).burnAmount
  covered : b.totalDistributed + b.pendingBalance ≤ b.totalRevenue

theorem sum_Ico_push {α : Type} (f : ℕ → α) {n : ℕ} (hn : 1 ≤ n) (v : α) (share : α → ℕ) :
    ∑ id ∈ Finset.Ico 1 (n + 1), share (Function.update f n v id) =
      ∑ id ∈ Finset.Ico 1 n, share (f id) + share v := by
  rw [Finset.sum_Ico_succ_top hn, Function.update_self]
  congr 1
  refine Finset.sum_congr rfl fun id hid => ?_
  rw [Function.update_of_ne (Finset.mem_Ico.mp hid).2.ne]

theorem Effect.kept (h : Effect this env config b token c b' token') (hb : Kept b) : Kept b' := by
  cases h with
  | @receive source amount jobId record _ hamount htoken =>
    exact { hb with
      bySource := by
        have hsum := Sums.sum_update b.revenueBySource source (b.revenueBySource source + amount) id
        have hold := hb.bySource
        simp only [id] at hsum
        dsimp only
        omega
      history := by
        have hold := hb.history
        simp only [List.map_append, List.sum_append, List.map_singleton, List.sum_singleton, hamount]
        omega
      covered := by
        have hold := hb.covered
        dsimp only
        omega }
  | @distribute record _ htotal hsplits =>
    exact { hb with
      next_pos := hb.next_pos.trans (Nat.le_succ _)
      distributed := by
        rw [sum_Ico_push _ hb.next_pos _ DistributionRecord.totalDistributed, ← hb.distributed, htotal]
      burned := by
        rw [sum_Ico_push _ hb.next_pos _ DistributionRecord.burnAmount, ← hb.burned]
      covered := hb.covered }
  | withdraw htoken =>
    exact { hb with
      covered := by
        have hold := hb.covered
        dsimp only
        omega }
  | administer => exact hb

theorem Kept.fresh (this : Address) {s : State} (hs : (contract this).fresh s) : Kept (books s) := by
  obtain ⟨deployer, guardToken, ucpValidatorPool, protocolReserve, burnAddress, hs⟩ := hs
  simp only [deploy, bind_eq_ok, pure_eq_ok] at hs
  obtain ⟨_, -, _, -, _, -, _, -, _, -, rfl⟩ := hs
  exact {
    bySource := rfl
    history := rfl
    next_pos := le_rfl
    distributed := rfl
    burned := rfl
    covered := le_rfl }

theorem Kept.of_reachable (hw : (contract this).system.Reachable w) : Kept (books w.state) := by
  refine hw.induct (I := fun w => Kept (books w.state)) (fun _ h => Kept.fresh this h) ?_
  intro w l w' _ hb hstep
  cases hstep with
  | call hs h0 ht hexec => exact (exec_effect hexec).kept hb
  | elsewhere h ht => exact hb

/-! ## The books over a run -/

/-- The transition is a `distribute` that made the record with this number: it distributed what was pending,
and split it under the configuration then in force. -/
def Distributes (id : ℕ) (record : DistributionRecord)
    (tr : Transition (World State) (Label Env Call)) : Prop :=
  (∃ env, tr.label = .call env .distribute) ∧ tr.src.state.nextDistributionId = id ∧
  record.totalDistributed = tr.src.state.pendingBalance ∧
  Splits tr.src.state.distributionConfig record

/-- The books of the treasury at the end of a run. -/
structure Balanced (this : Address) (ts : List (Transition (World State) (Label Env Call)))
    (w : World State) : Prop where
  bySource : w.state.totalRevenue = ∑ source, w.state.revenueBySource source
  history : w.state.totalRevenue = (w.state.revenueHistory.map RevenueRecord.amount).sum
  distributed : w.state.totalDistributed =
    ∑ id ∈ Finset.Ico 1 w.state.nextDistributionId, (w.state.distributions id).totalDistributed
  burned : w.state.totalBurned =
    ∑ id ∈ Finset.Ico 1 w.state.nextDistributionId, (w.state.distributions id).burnAmount
  /-- Every record was made by a `distribute` of the run. -/
  records : ∀ id ∈ Finset.Ico 1 w.state.nextDistributionId,
    ∃ tr ∈ ts, Distributes id (w.state.distributions id) tr
  /-- A distribution does not fail in its subtractions. -/
  safe : ∀ env, distribute this env w ≠ .error .underflow
  covered : w.state.totalDistributed + w.state.pendingBalance ≤ w.state.totalRevenue
  /-- Without emergencies, nothing is missing. -/
  complete : (∀ tr ∈ ts, ∀ env recipient amount,
      tr.label ≠ .call env (.emergencyWithdraw recipient amount)) →
    w.state.totalDistributed + w.state.pendingBalance = w.state.totalRevenue
  backed : w.state.pendingBalance ≤ w.token.balance this

theorem Effect.records (h : Effect this env config b token c b' token') :
    ∀ id ∈ Finset.Ico 1 b'.nextDistributionId,
      (id ∈ Finset.Ico 1 b.nextDistributionId ∧ b'.distributions id = b.distributions id) ∨
      (c = .distribute ∧ b.nextDistributionId = id ∧
        (b'.distributions id).totalDistributed = b.pendingBalance ∧
        Splits config (b'.distributions id)) := by
  intro id hid
  cases h with
  | @distribute record _ htotal hsplits =>
    rw [Finset.mem_Ico] at hid
    rcases eq_or_ne id b.nextDistributionId with rfl | hne
    · simp only [Function.update_self]
      exact .inr ⟨trivial, trivial, htotal, hsplits⟩
    · refine .inl ⟨Finset.mem_Ico.mpr ?_, Function.update_of_ne hne _ _⟩
      dsimp only at hid
      omega
  | receive => exact .inl ⟨hid, rfl⟩
  | withdraw => exact .inl ⟨hid, rfl⟩
  | administer => exact .inl ⟨hid, rfl⟩

theorem records_run (hr : (contract this).system.Run ts w) :
    ∀ id ∈ Finset.Ico 1 w.state.nextDistributionId,
      ∃ tr ∈ ts, Distributes id (w.state.distributions id) tr := by
  induction hr with
  | @init w hinit =>
    obtain ⟨deployer, guardToken, ucpValidatorPool, protocolReserve, burnAddress, hs⟩ := hinit
    simp only [deploy, bind_eq_ok, pure_eq_ok] at hs
    obtain ⟨_, -, _, -, _, -, _, -, _, -, hs⟩ := hs
    rw [← hs]
    simp [State.fresh]
  | @step ts w w' l hr hstep ih =>
    intro id hid
    cases hstep with
    | elsewhere h ht =>
      obtain ⟨tr, htr, hmade⟩ := ih id hid
      exact ⟨tr, List.mem_append_left _ htr, hmade⟩
    | @call env c _ w' hs h0 ht hexec =>
      rcases (exec_effect hexec).records id hid with ⟨hold, hsame⟩ | ⟨rfl, hnext, htotal, hsplits⟩
      · obtain ⟨tr, htr, hmade⟩ := ih id hold
        refine ⟨tr, List.mem_append_left _ htr, ?_⟩
        change Distributes id ((books w'.state).distributions id) tr
        rw [hsame]
        exact hmade
      · exact ⟨_, List.mem_append_right _ (List.mem_singleton_self _), ⟨env, rfl⟩, hnext, htotal, hsplits⟩

theorem Effect.complete (h : Effect this env config b token c b' token')
    (hc : ∀ recipient amount, c ≠ .emergencyWithdraw recipient amount)
    (hb : b.totalDistributed + b.pendingBalance = b.totalRevenue) :
    b'.totalDistributed + b'.pendingBalance = b'.totalRevenue := by
  cases h with
  | receive hamount htoken =>
    dsimp only
    omega
  | distribute htotal hsplits => exact hb
  | @withdraw recipient amount _ htoken => exact absurd rfl (hc recipient amount)
  | administer => exact hb

theorem complete_run (hr : (contract this).system.Run ts w)
    (hts : ∀ tr ∈ ts, ∀ env recipient amount,
      tr.label ≠ .call env (.emergencyWithdraw recipient amount)) :
    w.state.totalDistributed + w.state.pendingBalance = w.state.totalRevenue := by
  induction hr with
  | @init w hinit =>
    obtain ⟨deployer, guardToken, ucpValidatorPool, protocolReserve, burnAddress, hs⟩ := hinit
    simp only [deploy, bind_eq_ok, pure_eq_ok] at hs
    obtain ⟨_, -, _, -, _, -, _, -, _, -, hs⟩ := hs
    rw [← hs]
    rfl
  | @step ts w w' l hr hstep ih =>
    have hbefore := ih fun tr htr => hts tr (List.mem_append_left _ htr)
    cases hstep with
    | elsewhere h ht => exact hbefore
    | @call env c _ w' hs h0 ht hexec =>
      refine (exec_effect hexec).complete (fun recipient amount hc => ?_) hbefore
      refine hts ⟨w, .call env c, _⟩ (List.mem_append_right _ (List.mem_singleton_self _)) env recipient
        amount ?_
      rw [hc]

theorem Effect.backed (h : Effect this env config b token c b' token') (hs : env.sender ≠ this)
    (hb : b.pendingBalance ≤ token.balance this) : b'.pendingBalance ≤ token'.balance this := by
  cases h with
  | receive hamount htoken =>
    rw [Ledger.transfer_balance_dst htoken hs]
    dsimp only
    omega
  | distribute htotal hsplits => exact Nat.zero_le _
  | withdraw htoken =>
    have hleft := Ledger.transfer_src_le htoken
    dsimp only
    omega
  | administer => exact hb

/-- What is pending is there. -/
theorem backed_of_reachable (hw : (contract this).system.Reachable w) :
    w.state.pendingBalance ≤ w.token.balance this := by
  refine hw.induct (I := fun w => w.state.pendingBalance ≤ w.token.balance this) ?_ ?_
  · rintro w ⟨deployer, guardToken, ucpValidatorPool, protocolReserve, burnAddress, hs⟩
    simp only [deploy, bind_eq_ok, pure_eq_ok] at hs
    obtain ⟨_, -, _, -, _, -, _, -, _, -, hs⟩ := hs
    rw [← hs]
    exact Nat.zero_le _
  · intro w l w' _ hb hstep
    cases hstep with
    | call hs h0 ht hexec => exact (exec_effect hexec).backed hs hb
    | elsewhere h ht => exact hb.trans h

/-- The books of the treasury balance at the end of every run. -/
theorem treasury_balanced (hr : (contract this).system.Run ts w) : Balanced this ts w := by
  have hb := Kept.of_reachable hr.reachable
  exact {
    bySource := hb.bySource
    history := hb.history
    distributed := hb.distributed
    burned := hb.burned
    records := records_run hr
    safe := fun _ => distribute_ne_underflow
    covered := hb.covered
    complete := complete_run hr
    backed := backed_of_reachable hr.reachable }

/-! ## A sample run -/

/-- The account 2 becomes a source and pays a fee, which is distributed, and a second one, of which the owner
withdraws a part. -/
def feeCalls : List (Env × Call) :=
  [(sampleEnv 9 0, .addAuthorizedSource 2),
    (sampleEnv 2 1, .receiveFee .auditPlatformFee 101 1),
    (sampleEnv 9 2, .distribute),
    (sampleEnv 2 3, .receiveFee .subAuctionFee 50 2),
    (sampleEnv 9 4, .emergencyWithdraw 8 30)]

/-- The books after two fees, a distribution that burns eleven of 101 units, and an emergency. -/
theorem treasury_balanced_sample : ∃ ts w, (contract 1).system.Run ts w ∧ Balanced 1 ts w ∧
    w.state.totalRevenue = 151 ∧ w.state.totalDistributed = 101 ∧ w.state.totalBurned = 11 ∧
    w.state.pendingBalance = 20 := by
  obtain ⟨ts, w, hcalls, hr, -⟩ := sample_run feeCalls (by decide) rfl
  have hread := read_ok hcalls (fun w => (w.state.totalRevenue, w.state.totalDistributed,
    w.state.totalBurned, w.state.pendingBalance)) (b := (151, 101, 11, 20)) (by decide +kernel)
  obtain ⟨hrevenue, hdistributed, hburned, hpending⟩ : _ ∧ _ ∧ _ ∧ _ := by
    simpa only [Prod.mk.injEq] using hread
  exact ⟨ts, w, hr, treasury_balanced hr, hrevenue, hdistributed, hburned, hpending⟩

end AuditGuard.Treasury
