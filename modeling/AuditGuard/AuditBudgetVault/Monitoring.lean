import AuditGuard.AuditBudgetVault.Vaults

/-!
# AuditBudgetVault: what the views offer for monitoring

`getVaultBalance` and `getMonitoringBudgetRemaining` state what may be drawn for monitoring. The second one has
the rule of the weekly window on its own, and there it returns the weekly budget as it is. A budget of zero sets
no limit, so that for such a vault the view offers nothing as soon as a week is over, while a draw succeeds. In
all other cases the views and the draw agree.
-/

namespace AuditGuard.AuditBudgetVault

open Evm TransitionSystem

/-- `getVaultBalance`. -/
def getVaultBalance (contractAddress : Address) (s : State) : Tx ℕ := do
  let vault ← getActiveVault contractAddress s
  pure vault.currentBalance

/-- `getMonitoringBudgetRemaining`. -/
def getMonitoringBudgetRemaining (env : Env) (contractAddress : Address) (s : State) : Tx ℕ := do
  let vault ← getActiveVault contractAddress s
  let elapsed ← checkedAdd 256 vault.weeklyResetTimestamp WEEK
  if elapsed ≤ env.timestamp then pure vault.weeklyMonitoringBudget
  else monitoringBudgetRemaining vault

/-- The views return, and the amount is within both of their answers. -/
def Offers (env : Env) (contractAddress : Address) (amount : ℕ) (s : State) : Prop :=
  ∃ balance remaining, getVaultBalance contractAddress s = .ok balance ∧
    getMonitoringBudgetRemaining env contractAddress s = .ok remaining ∧ amount ≤ min balance remaining

/-- The call draws the amount for monitoring. -/
def Draws (this : Address) (env : Env) (contractAddress agent : Address) (amount : UInt 256) (w : World State) :
    Prop :=
  ∃ w', exec this env (.drawMonitoringPayment contractAddress agent amount) w = .ok w'

/-- The window ended at a time that is a `uint256`. -/
def VaultInfo.Ended (now : ℕ) (vault : VaultInfo) : Prop :=
  vault.Elapsed now ∧ vault.weeklyResetTimestamp + WEEK < 2^256

/-- The vault has the amount, its monitoring is not limited, and a week is over since its window started. -/
structure Unlimited (env : Env) (contractAddress : Address) (amount : ℕ) (s : State) : Prop where
  active : (s.vaults contractAddress).active = true
  covered : amount ≤ (s.vaults contractAddress).currentBalance
  unlimited : (s.vaults contractAddress).weeklyMonitoringBudget = 0
  ended : (s.vaults contractAddress).Ended env.timestamp

/-- The caller may draw, the recipient is an account, and HTS takes the transfer. -/
structure Authorised (env : Env) (agent : Address) (w : World State) : Prop where
  drawer : env.sender = w.state.authorizedDrawer
  noValue : env.value = 0
  agent : agent ≠ 0
  transfer : env.transferAnswer = Hts.HTS_SUCCESS

variable {this a agent : Address} {env : Env} {c : Call} {w w' : World State} {v v' : VaultInfo}
  {token token' : TokenLedger} {amount : ℕ} {s : State}

/-! ## Bounds of a vault -/

/-- What was paid for monitoring in the window was deposited and is not in the balance, so that its sum with
an amount that is there is a `uint256`. -/
structure VaultInfo.Bounded (v : VaultInfo) : Prop where
  spent : v.weeklyMonitoringSpent + v.currentBalance ≤ v.totalDeposited
  deposited : v.totalDeposited < 2^256
  budget : v.weeklyMonitoringBudget < 2^256

theorem VaultInfo.roll_spent_le (now : ℕ) (v : VaultInfo) :
    (v.roll now).weeklyMonitoringSpent ≤ v.weeklyMonitoringSpent := by
  unfold VaultInfo.roll
  dsimp only
  split_ifs
  · exact Nat.zero_le _
  · exact le_rfl

theorem Effect.bounded (h : Effect this env v token c v' token') (hv : v.Bounded)
    (hdeposited : v'.totalDeposited < 2^256) : v'.Bounded := by
  have hspent := hv.spent
  have hrolled := v.roll_spent_le env.timestamp
  obtain ⟨spent, reset, hroll⟩ := v.roll_eq env.timestamp
  rw [hroll] at hrolled
  dsimp only at hrolled
  refine ⟨?_, hdeposited, ?_⟩
  · cases h with
    | create hnew => exact le_rfl
    | deposit hactive htoken =>
      dsimp only [VaultInfo.deposited]
      omega
    | drawMonitoringPayment hactive hle hbudget htoken =>
      rw [hroll]
      dsimp only [VaultInfo.drawn, VaultInfo.audited]
      omega
    | updateVaultRules hactive hbounty =>
      rw [hroll]
      dsimp only
      omega
    | drawPayment hactive hle htoken | drawBounty hactive hle hbounty htoken | withdrawExcess hactive hle htoken =>
      dsimp only [VaultInfo.drawn, VaultInfo.audited]
      omega
  · cases h with
    | @create a budget allocation hnew => exact budget.isLt
    | @updateVaultRules a budget allocation hactive hbounty => exact budget.isLt
    | drawMonitoringPayment hactive hle hbudget htoken =>
      rw [hroll]
      exact hv.budget
    | deposit | drawPayment | drawBounty | withdrawExcess => exact hv.budget

theorem deposit_totalDeposited_lt (h : deposit this env a amount w = .ok w') :
    (w'.state.vaults a).totalDeposited < 2^256 := by
  simp only [deposit, getActiveVault, transferGuard, Hts.transfer_eq_ok, bind_eq_ok, pure_eq_ok,
    require_eq_ok, checkedAdd_eq_ok] at h
  obtain ⟨_, -, _, ⟨_, -, rfl⟩, _, ⟨-, _, -, rfl⟩, _, ⟨hfits, rfl⟩, _, ⟨-, rfl⟩, rfl⟩ := h
  dsimp only [State.setVault, State.emit]
  rw [Function.update_self]
  exact hfits

theorem exec_totalDeposited_lt (h : exec this env c w = .ok w')
    (hw : (w.state.vaults a).totalDeposited < 2^256) : (w'.state.vaults a).totalDeposited < 2^256 := by
  rcases exec_effect h with ⟨a', hvault, v, heffect, hwrite⟩ | ⟨-, hvaults, -⟩
  · rcases eq_or_ne a a' with rfl | hne
    · have hsame : w'.state.vaults a = v := by
        rw [hwrite, Function.update_self]
      generalize w'.token = token' at heffect
      obtain ⟨spent, reset, hroll⟩ := (w.state.vaults a).roll_eq env.timestamp
      cases heffect with
      | deposit hactive htoken =>
        obtain rfl := Option.some.inj hvault
        unfold exec at h
        split_ifs at h
        exact deposit_totalDeposited_lt h
      | create hnew =>
        rw [hsame]
        exact Nat.two_pow_pos 256
      | drawMonitoringPayment hactive hle hbudget htoken =>
        rw [hsame, hroll]
        exact hw
      | updateVaultRules hactive hbounty =>
        rw [hsame, hroll]
        exact hw
      | drawPayment | drawBounty | withdrawExcess =>
        rw [hsame]
        exact hw
    · rw [hwrite, Function.update_of_ne hne]
      exact hw
  · rw [hvaults]
    exact hw

theorem bounded_of_reachable (hw : (contract this).system.Reachable w) (a : Address) :
    (w.state.vaults a).Bounded := by
  refine hw.induct (I := fun w => (w.state.vaults a).Bounded) ?_ ?_
  · rintro w ⟨deployer, guardToken, hs⟩
    simp only [deploy, bind_eq_ok, pure_eq_ok] at hs
    obtain ⟨_, -, _, -, hs⟩ := hs
    rw [← hs]
    exact ⟨le_rfl, Nat.two_pow_pos 256, Nat.two_pow_pos 256⟩
  · intro w l w' _ hbounded hstep
    have hdeposited : (w'.state.vaults a).totalDeposited < 2^256 := by
      cases hstep with
      | elsewhere h ht => exact hbounded.deposited
      | @call env c _ w' hs h0 ht hexec =>
        have hcall : exec this env c w = .ok w' := hexec
        have hdeposited := exec_totalDeposited_lt hcall hbounded.deposited
        exact hdeposited
    rcases vault_step hstep a with ⟨env, c, -, -, -, heffect⟩ | ⟨hsame, -⟩
    · exact heffect.bounded hbounded hdeposited
    · rw [hsame]
      exact hbounded

/-! ## The draw and the views -/

theorem resetWeeklyIfNeeded_eq_ok : resetWeeklyIfNeeded env v = .ok v' ↔
    v.weeklyResetTimestamp + WEEK < 2^256 ∧ v' = v.roll env.timestamp := by
  constructor
  · intro h
    refine ⟨?_, resetWeeklyIfNeeded_ok h⟩
    simp only [resetWeeklyIfNeeded, bind_eq_ok, checkedAdd_eq_ok] at h
    obtain ⟨_, ⟨hfits, -⟩, -⟩ := h
    exact hfits
  · rintro ⟨hfits, rfl⟩
    simp only [resetWeeklyIfNeeded, bind_eq_ok, checkedAdd_eq_ok]
    refine ⟨_, ⟨hfits, rfl⟩, ?_⟩
    split_ifs with helapsed
    · have hrolled : v.Elapsed env.timestamp := helapsed
      simp only [VaultInfo.roll, if_pos hrolled]
      rfl
    · have hrunning : ¬v.Elapsed env.timestamp := helapsed
      simp only [VaultInfo.roll, if_neg hrunning]
      rfl

theorem monitoringBudgetRemaining_isOk (v : VaultInfo) :
    ∃ remaining, monitoringBudgetRemaining v = .ok remaining := by
  unfold monitoringBudgetRemaining
  split_ifs with hunlimited hspent
  · exact ⟨_, rfl⟩
  · exact ⟨_, rfl⟩
  · exact ⟨_, checkedSub_eq_ok.mpr ⟨by omega, rfl⟩⟩

/-- What a draw asks for, besides its caller. -/
structure Drawable (env : Env) (amount : ℕ) (v : VaultInfo) : Prop where
  active : v.active = true
  covered : amount ≤ v.currentBalance
  fits : v.weeklyResetTimestamp + WEEK < 2^256
  limited : v.weeklyMonitoringBudget ≠ 0 →
    (v.roll env.timestamp).weeklyMonitoringSpent + amount ≤ v.weeklyMonitoringBudget

/-- In a reachable state, the drawer draws what the vault lets it draw. -/
theorem draws_iff (hw : (contract this).system.Reachable w) (h : Authorised env agent w) {amount : UInt 256}
    (hpos : 0 < amount.val) :
    Draws this env a agent amount w ↔ Drawable env amount (w.state.vaults a) := by
  have hexec : exec this env (.drawMonitoringPayment a agent amount) w =
      drawMonitoringPayment this env a agent amount w := if_neg (not_not.mpr h.noValue)
  unfold Draws
  rw [hexec]
  constructor
  · rintro ⟨w', hdraw⟩
    obtain ⟨v, heffect, -⟩ := drawMonitoringPayment_effect hdraw
    simp only [drawMonitoringPayment, getActiveVault, bind_eq_ok, pure_eq_ok, require_eq_ok] at hdraw
    obtain ⟨_, -, _, -, _, -, _, ⟨_, hactive, rfl⟩, _, hcovered, rolled, hroll, -⟩ := hdraw
    generalize w'.token = token' at heffect
    cases heffect with
    | drawMonitoringPayment _ _ hbudget _ =>
      exact ⟨hactive, hcovered, (resetWeeklyIfNeeded_eq_ok.mp hroll).1, hbudget⟩
  · rintro ⟨hactive, hcovered, hfits, hlimited⟩
    have hbounded := bounded_of_reachable hw a
    have hspent := hbounded.spent
    have hdeposited := hbounded.deposited
    have hbudget := hbounded.budget
    have hless := (w.state.vaults a).roll_spent_le env.timestamp
    have hreset : resetWeeklyIfNeeded env (w.state.vaults a) = .ok ((w.state.vaults a).roll env.timestamp) :=
      resetWeeklyIfNeeded_eq_ok.mpr ⟨hfits, rfl⟩
    obtain ⟨spent, reset, hroll⟩ := (w.state.vaults a).roll_eq env.timestamp
    rw [hroll] at hless hlimited hreset
    dsimp only at hless hlimited
    -- The contract holds what the vault has.
    have hbacked : amount.val ≤ w.token.balance this := by
      have hsolvent := solvent_of_reachable hw
      have hsingle := Finset.single_le_sum (f := fun a => (w.state.vaults a).currentBalance)
        (fun _ _ => Nat.zero_le _) (Finset.mem_univ a)
      unfold Solvent at hsolvent
      omega
    let vault : VaultInfo := { w.state.vaults a with
      weeklyMonitoringSpent := spent + amount
      weeklyResetTimestamp := reset
      currentBalance := (w.state.vaults a).currentBalance - amount
      lastAuditTimestamp := env.timestamp }
    obtain ⟨token, htransfer⟩ := Hts.transfer_succeeds "AuditBudgetVault"
      { w with state := w.state.setVault a vault } agent h.transfer hbacked
    obtain ⟨remaining, hremaining⟩ := monitoringBudgetRemaining_isOk vault
    have hchecked : (if (w.state.vaults a).weeklyMonitoringBudget ≠ 0 then do
        let spent ← checkedAdd 256 spent amount
        require (spent ≤ (w.state.vaults a).weeklyMonitoringBudget) "AuditBudgetVault: weekly budget exceeded"
        else pure ()) = (.ok () : Tx Unit) := by
      split_ifs with hbudgeted
      · have hle := hlimited hbudgeted
        rw [checkedAdd_of_lt (by omega)]
        exact if_pos hle
      · rfl
    simp only [drawMonitoringPayment, onlyAuthorizedDrawer, getActiveVault, transferGuard, bind_eq_ok, pure_eq_ok,
      require_eq_ok]
    have hspends : spent + amount.val < 2^256 := by omega
    exact ⟨_, (), h.drawer, (), h.agent, (), hpos, _, ⟨(), hactive, rfl⟩, (), hcovered, _, hreset, (), hchecked,
      _, checkedSub_of_le hcovered, _, checkedAdd_of_lt hspends, _, htransfer, remaining, hremaining, rfl⟩

/-- What `getMonitoringBudgetRemaining` answers. -/
def VaultInfo.remaining (now : ℕ) (v : VaultInfo) : ℕ :=
  if v.Elapsed now then v.weeklyMonitoringBudget
  else if v.weeklyMonitoringBudget = 0 then v.currentBalance
  else v.weeklyMonitoringBudget - v.weeklyMonitoringSpent

theorem getMonitoringBudgetRemaining_eq_ok {remaining : ℕ} (hactive : (s.vaults a).active = true) :
    getMonitoringBudgetRemaining env a s = .ok remaining ↔
      (s.vaults a).weeklyResetTimestamp + WEEK < 2^256 ∧ remaining = (s.vaults a).remaining env.timestamp := by
  simp only [getMonitoringBudgetRemaining, getActiveVault, bind_eq_ok, pure_eq_ok, require_eq_ok, checkedAdd_eq_ok]
  generalize s.vaults a = v at hactive
  have hanswer : ((if v.weeklyResetTimestamp + WEEK ≤ env.timestamp then pure v.weeklyMonitoringBudget
      else monitoringBudgetRemaining v) : Tx ℕ) = .ok (v.remaining env.timestamp) := by
    unfold VaultInfo.remaining monitoringBudgetRemaining
    by_cases helapsed : v.Elapsed env.timestamp
    · rw [if_pos helapsed]
      exact if_pos helapsed
    · rw [if_neg helapsed, if_neg (show ¬ v.weeklyResetTimestamp + WEEK ≤ env.timestamp from helapsed)]
      split_ifs with hunlimited hspent
      · rfl
      · rw [Nat.sub_eq_zero_of_le hspent]
        rfl
      · exact checkedSub_of_le (by omega)
  constructor
  · rintro ⟨_, ⟨_, -, rfl⟩, _, ⟨hfits, rfl⟩, hremaining⟩
    rw [hanswer, Except.ok.injEq] at hremaining
    exact ⟨hfits, hremaining.symm⟩
  · rintro ⟨hfits, rfl⟩
    exact ⟨v, ⟨(), hactive, rfl⟩, _, ⟨hfits, rfl⟩, hanswer⟩

theorem offers_iff : Offers env a amount s ↔ (s.vaults a).active = true ∧
    amount ≤ (s.vaults a).currentBalance ∧ (s.vaults a).weeklyResetTimestamp + WEEK < 2^256 ∧
    amount ≤ (s.vaults a).remaining env.timestamp := by
  constructor
  · rintro ⟨balance, remaining, hbalance, hremaining, hle⟩
    simp only [getVaultBalance, getActiveVault, bind_eq_ok, pure_eq_ok, require_eq_ok] at hbalance
    obtain ⟨_, ⟨_, hactive, rfl⟩, rfl⟩ := hbalance
    obtain ⟨hfits, rfl⟩ := (getMonitoringBudgetRemaining_eq_ok hactive).mp hremaining
    exact ⟨hactive, hle.trans (min_le_left _ _), hfits, hle.trans (min_le_right _ _)⟩
  · rintro ⟨hactive, hcovered, hfits, hle⟩
    refine ⟨_, _, ?_, (getMonitoringBudgetRemaining_eq_ok hactive).mpr ⟨hfits, rfl⟩, le_min hcovered hle⟩
    simp only [getVaultBalance, getActiveVault, bind_eq_ok, pure_eq_ok, require_eq_ok]
    exact ⟨_, ⟨(), hactive, rfl⟩, rfl⟩

theorem remaining_iff (hpos : 0 < amount) (hcovered : amount ≤ v.currentBalance) :
    ((v.weeklyMonitoringBudget ≠ 0 →
        (v.roll env.timestamp).weeklyMonitoringSpent + amount ≤ v.weeklyMonitoringBudget) ↔
      amount ≤ v.remaining env.timestamp) ↔
    ¬ (v.weeklyMonitoringBudget = 0 ∧ v.Elapsed env.timestamp) := by
  unfold VaultInfo.remaining VaultInfo.roll
  dsimp only
  by_cases helapsed : v.Elapsed env.timestamp
  · rw [if_pos helapsed, if_pos helapsed, Nat.zero_add, and_iff_left helapsed]
    by_cases hunlimited : v.weeklyMonitoringBudget = 0
    · -- A draw is not limited, and the view answers zero.
      rw [hunlimited]
      omega
    · exact iff_of_true ⟨fun h => h hunlimited, fun h _ => h⟩ hunlimited
  · rw [if_neg helapsed, if_neg helapsed]
    refine iff_of_true ?_ fun h => helapsed h.2
    by_cases hunlimited : v.weeklyMonitoringBudget = 0
    · rw [if_pos hunlimited]
      exact iff_of_true (fun h => absurd hunlimited h) hcovered
    · rw [if_neg hunlimited]
      omega

/-- In every reachable state and at every time, a draw for monitoring succeeds exactly for the amounts that the
views offer, if and only if it is not the case that the vault has the amount, its monitoring is not limited, and
a week is over since its window started. -/
theorem draws_iff_offers (hw : (contract this).system.Reachable w) (h : Authorised env agent w) {amount : UInt 256}
    (hpos : 0 < amount.val) :
    (Draws this env a agent amount w ↔ Offers env a amount w.state) ↔ ¬ Unlimited env a amount w.state := by
  rw [draws_iff hw h hpos, offers_iff]
  by_cases hasked : (w.state.vaults a).active = true ∧ amount.val ≤ (w.state.vaults a).currentBalance ∧
      (w.state.vaults a).weeklyResetTimestamp + WEEK < 2^256
  · obtain ⟨hactive, hcovered, hfits⟩ := hasked
    have hremaining := @remaining_iff env _ _ hpos hcovered
    constructor
    · rintro hagree ⟨-, -, hunlimited, hended⟩
      refine hremaining.mp ⟨fun hlimited => ?_, fun hle => ?_⟩ ⟨hunlimited, hended.1⟩
      · exact (hagree.mp ⟨hactive, hcovered, hfits, hlimited⟩).2.2.2
      · exact (hagree.mpr ⟨hactive, hcovered, hfits, hle⟩).limited
    · intro hlimited
      have hsame := hremaining.mpr fun ⟨hunlimited, helapsed⟩ =>
        hlimited ⟨hactive, hcovered, hunlimited, helapsed, hfits⟩
      constructor
      · exact fun hdraw => ⟨hactive, hcovered, hfits, hsame.mp hdraw.limited⟩
      · exact fun hoffer => ⟨hactive, hcovered, hfits, hsame.mpr hoffer.2.2.2⟩
  · -- Neither the draw nor the views return.
    refine iff_of_true (iff_of_false ?_ ?_) ?_
    · exact fun hdraw => hasked ⟨hdraw.active, hdraw.covered, hdraw.fits⟩
    · exact fun hoffer => hasked ⟨hoffer.1, hoffer.2.1, hoffer.2.2.1⟩
    · exact fun hunlimited => hasked ⟨hunlimited.active, hunlimited.covered, hunlimited.ended.2⟩

/-! ## A vault without a limit -/

/-- A vault without a weekly budget, which has 1000. -/
def unlimitedCalls : List (Env × Call) :=
  [(sampleEnv 9 0, .setAuthorizedDrawer 5),
    (sampleEnv 2 0, .createVault 20 0 0),
    (sampleEnv 2 1, .deposit 20 1000)]

theorem exists_unlimited : ∃ w, (contract 1).system.Reachable w ∧ w.state.authorizedDrawer = 5 ∧
    (w.state.vaults 20).active = true ∧ (w.state.vaults 20).currentBalance = 1000 ∧
    (w.state.vaults 20).weeklyMonitoringBudget = 0 ∧ (w.state.vaults 20).weeklyResetTimestamp = 0 := by
  obtain ⟨ts, w, hcalls, hr, -⟩ := sample_run unlimitedCalls (by decide) rfl
  have hread := read_ok hcalls (fun w => (w.state.authorizedDrawer, (w.state.vaults 20).active,
    (w.state.vaults 20).currentBalance, (w.state.vaults 20).weeklyMonitoringBudget,
    (w.state.vaults 20).weeklyResetTimestamp)) (b := (5, true, 1000, 0, 0)) (by decide +kernel)
  simp only [Prod.mk.injEq] at hread
  exact ⟨w, hr.reachable, hread⟩

/-- In the week of its creation, the draw of 100 from the vault without a limit and the views agree. -/
theorem draws_iff_offers_unlimited : ∃ w, (contract 1).system.Reachable w ∧
    ((Draws 1 (sampleEnv 5 604799) 20 6 100 w ↔ Offers (sampleEnv 5 604799) 20 100 w.state) ↔
      ¬ Unlimited (sampleEnv 5 604799) 20 100 w.state) ∧
    ¬ Unlimited (sampleEnv 5 604799) 20 100 w.state := by
  obtain ⟨w, hw, hdrawer, -, -, -, hreset⟩ := exists_unlimited
  refine ⟨w, hw, draws_iff_offers hw ⟨hdrawer.symm, rfl, by decide, rfl⟩ (by decide), fun h => ?_⟩
  have helapsed : (w.state.vaults 20).weeklyResetTimestamp + 604800 ≤ 604799 := h.ended.1
  omega

/-- A week after its creation, the views offer nothing of the vault without a limit, and the draw succeeds. -/
theorem not_draws_iff_offers : ¬ ∀ (this : Address) (w : World State) (env : Env) (a agent : Address)
    (amount : UInt 256), (contract this).system.Reachable w → Authorised env agent w → 0 < amount.val →
      (Draws this env a agent amount w ↔ Offers env a amount w.state) := by
  intro hall
  obtain ⟨w, hw, hdrawer, hactive, hbalance, hbudget, hreset⟩ := exists_unlimited
  have hauthorised : Authorised (sampleEnv 5 604800) 6 w := ⟨hdrawer.symm, rfl, by decide, rfl⟩
  have hagree := hall 1 w (sampleEnv 5 604800) 20 6 100 hw hauthorised (by decide)
  rw [draws_iff hw hauthorised (by decide), offers_iff] at hagree
  have helapsed : (w.state.vaults 20).Elapsed 604800 := by
    change (w.state.vaults 20).weeklyResetTimestamp + 604800 ≤ 604800
    omega
  have hfits : (w.state.vaults 20).weeklyResetTimestamp + 604800 < 2^256 := by
    rw [hreset]
    decide
  have hcovered : 100 ≤ (w.state.vaults 20).currentBalance := by omega
  obtain ⟨-, -, -, hle⟩ := hagree.mp ⟨hactive, hcovered, hfits, fun h => absurd hbudget h⟩
  unfold VaultInfo.remaining at hle
  rw [if_pos (show (w.state.vaults 20).Elapsed (sampleEnv 5 604800).timestamp from helapsed), hbudget] at hle
  exact absurd hle (by decide)

end AuditGuard.AuditBudgetVault
