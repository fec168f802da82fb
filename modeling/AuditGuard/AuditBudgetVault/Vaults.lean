import AuditGuard.AuditBudgetVault.Effects

/-!
# AuditBudgetVault: vaults are separate and solvent

One token balance backs all vaults. Each vault's balance is what was deposited into it less what left it, its
bounties stay within their allocation, and while its weekly budget is a constant, the monitoring payments of one
window add up to at most the budget.
-/

namespace AuditGuard.AuditBudgetVault

open Evm TransitionSystem

/-- What a call deposits into the vault at `a`. -/
def Call.deposits (a : Address) : Call → ℕ
  | .deposit contractAddress amount => if contractAddress = a then amount else 0
  | _ => 0

/-- What a call pays for monitoring out of the vault at `a`. -/
def Call.monitors (a : Address) : Call → ℕ
  | .drawMonitoringPayment contractAddress _ amount => if contractAddress = a then amount else 0
  | _ => 0

/-- What a call draws or withdraws from the vault at `a`. -/
def Call.takes (a : Address) : Call → ℕ
  | .drawPayment contractAddress _ amount => if contractAddress = a then amount else 0
  | .drawMonitoringPayment contractAddress _ amount => if contractAddress = a then amount else 0
  | .drawBounty contractAddress _ amount => if contractAddress = a then amount else 0
  | .withdrawExcess contractAddress amount => if contractAddress = a then amount else 0
  | _ => 0

/-- An amount of a call, for a transition. -/
def ofCall (f : Call → ℕ) (tr : Transition (World State) (Label Env Call)) : ℕ :=
  match tr.label with
  | .call _ c => f c
  | .elsewhere _ _ => 0

/-- The monitoring payments out of the vault at `a` in the window that starts at `start`. -/
def paidIn (a : Address) (start : ℕ) (ts : List (Transition (World State) (Label Env Call))) : ℕ :=
  (ts.map fun tr => if (tr.dst.state.vaults a).weeklyResetTimestamp = start
    then ofCall (Call.monitors a) tr else 0).sum

/-- The weekly budget of the vault at `a` is `B` before and after the transition. -/
def Constant (a : Address) (B : ℕ) (tr : Transition (World State) (Label Env Call)) : Prop :=
  (tr.src.state.vaults a).weeklyMonitoringBudget = B ∧
    (tr.dst.state.vaults a).weeklyMonitoringBudget = B

/-- The contract holds what its vaults have. -/
def Solvent (this : Address) (w : World State) : Prop :=
  ∑ a, (w.state.vaults a).currentBalance ≤ w.token.balance this

/-- The vaults at the end of a run. -/
structure Separate (this : Address) (ts : List (Transition (World State) (Label Env Call)))
    (w : World State) : Prop where
  solvent : Solvent this w
  /-- A vault has what was deposited into it, less what left it. -/
  accounted : ∀ a, (w.state.vaults a).currentBalance + (ts.map (ofCall (Call.takes a))).sum =
    (w.state.vaults a).totalDeposited
  deposited : ∀ a, (w.state.vaults a).totalDeposited = (ts.map (ofCall (Call.deposits a))).sum
  bounty : ∀ a, (w.state.vaults a).criticalBountySpent ≤ (w.state.vaults a).criticalBountyAllocation
  /-- While the budget is constant and limits anything, it limits every window. -/
  monitoring : ∀ a B, 0 < B → ∀ ts₁ seg ts₂, ts = ts₁ ++ seg ++ ts₂ → (∀ tr ∈ seg, Constant a B tr) →
    ∀ start, paidIn a start seg ≤ B
  /-- A call writes no vault but the one it names. -/
  frame : ∀ tr ∈ ts, ∀ env c, tr.label = .call env c → ∀ a, c.vault ≠ some a →
    tr.dst.state.vaults a = tr.src.state.vaults a

variable {this a : Address} {env : Env} {c : Call} {w w' : World State} {v v' : VaultInfo}
  {token token' : TokenLedger} {ts seg : List (Transition (World State) (Label Env Call))} {B : ℕ}

/-! ## One vault -/

/-- What a vault keeps. A vault that was never created is empty. -/
structure VaultInfo.Kept (v : VaultInfo) : Prop where
  bounty : v.criticalBountySpent ≤ v.criticalBountyAllocation
  uncreated : v.depositor = 0 → v = VaultInfo.zero

theorem Effect.kept (h : Effect this env v token c v' token') (h0 : env.sender ≠ 0) (hv : v.Kept) :
    v'.Kept := by
  -- An active vault was created.
  have hcreated : v.active = true → v.depositor ≠ 0 := by
    intro hactive hzero
    rw [hv.uncreated hzero] at hactive
    cases hactive
  cases h with
  | create hnew => exact ⟨Nat.zero_le _, fun h => absurd h h0⟩
  | deposit hactive htoken => exact ⟨hv.bounty, fun h => absurd h (hcreated hactive)⟩
  | drawPayment hactive hle htoken => exact ⟨hv.bounty, fun h => absurd h (hcreated hactive)⟩
  | drawMonitoringPayment hactive hle hbudget htoken =>
    obtain ⟨spent, reset, hrolled⟩ := v.roll_eq env.timestamp
    rw [hrolled]
    exact ⟨hv.bounty, fun h => absurd h (hcreated hactive)⟩
  | drawBounty hactive hle hbounty htoken => exact ⟨hbounty, fun h => absurd h (hcreated hactive)⟩
  | withdrawExcess hactive hle htoken => exact ⟨hv.bounty, fun h => absurd h (hcreated hactive)⟩
  | updateVaultRules hactive hbounty =>
    obtain ⟨spent, reset, hrolled⟩ := v.roll_eq env.timestamp
    rw [hrolled]
    exact ⟨hbounty, fun h => absurd h (hcreated hactive)⟩

theorem Effect.balance (h : Effect this env v token c v' token') (hv : v.Kept) (hc : c.vault = some a) :
    v'.currentBalance + c.takes a = v.currentBalance + c.deposits a ∧
      v'.totalDeposited = v.totalDeposited + c.deposits a := by
  cases h with
  | create hnew =>
    -- A vault that is created was empty.
    rw [hv.uncreated hnew]
    exact ⟨rfl, rfl⟩
  | updateVaultRules hactive hbounty =>
    obtain ⟨spent, reset, hrolled⟩ := v.roll_eq env.timestamp
    rw [hrolled]
    exact ⟨rfl, rfl⟩
  | deposit hactive htoken =>
    obtain rfl := Option.some.inj hc
    simp [Call.takes, Call.deposits, VaultInfo.deposited]
  | drawPayment hactive hle htoken =>
    obtain rfl := Option.some.inj hc
    simp only [Call.takes, Call.deposits, VaultInfo.drawn, VaultInfo.audited, if_true]
    omega
  | drawMonitoringPayment hactive hle hbudget htoken =>
    obtain rfl := Option.some.inj hc
    obtain ⟨spent, reset, hrolled⟩ := v.roll_eq env.timestamp
    simp only [Call.takes, Call.deposits, VaultInfo.drawn, VaultInfo.audited, hrolled, if_true]
    omega
  | drawBounty hactive hle hbounty htoken =>
    obtain rfl := Option.some.inj hc
    simp only [Call.takes, Call.deposits, VaultInfo.drawn, VaultInfo.audited, if_true]
    omega
  | withdrawExcess hactive hle htoken =>
    obtain rfl := Option.some.inj hc
    simp only [Call.takes, Call.deposits, VaultInfo.drawn, if_true]
    omega

theorem Effect.backed (h : Effect this env v token c v' token') (hs : env.sender ≠ this)
    (hv : v.Kept) : token.balance this + v'.currentBalance ≤ token'.balance this + v.currentBalance := by
  have hdrawn : ∀ (recipient : Address) (amount : ℕ), amount ≤ v.currentBalance →
      token.transfer this recipient amount = some token' →
      token.balance this + (v.currentBalance - amount) ≤ token'.balance this + v.currentBalance := by
    intro recipient amount hle htoken
    have hleft := Ledger.transfer_src_le htoken
    omega
  cases h with
  | create hnew =>
    rw [hv.uncreated hnew]
    exact le_rfl
  | updateVaultRules hactive hbounty =>
    obtain ⟨spent, reset, hrolled⟩ := v.roll_eq env.timestamp
    rw [hrolled]
  | deposit hactive htoken =>
    rw [Ledger.transfer_balance_dst htoken hs, VaultInfo.deposited]
    dsimp only
    omega
  | drawPayment hactive hle htoken => exact hdrawn _ _ hle htoken
  | drawMonitoringPayment hactive hle hbudget htoken =>
    obtain ⟨spent, reset, hrolled⟩ := v.roll_eq env.timestamp
    rw [hrolled]
    exact hdrawn _ _ hle htoken
  | drawBounty hactive hle hbounty htoken => exact hdrawn _ _ hle htoken
  | withdrawExcess hactive hle htoken => exact hdrawn _ _ hle htoken

theorem Call.other (h : c.vault ≠ some a) : c.takes a = 0 ∧ c.deposits a = 0 ∧ c.monitors a = 0 := by
  cases c <;> simp_all [Call.vault, Call.takes, Call.deposits, Call.monitors]

/-! ## All vaults over a run -/

variable {l : Label Env Call}

theorem vault_step (h : (contract this).Step w l w') (a : Address) :
    (∃ env c, l = .call env c ∧ c.vault = some a ∧ env.sender ≠ 0 ∧
      Effect this env (w.state.vaults a) w.token c (w'.state.vaults a) w'.token) ∨
    (w'.state.vaults a = w.state.vaults a ∧ ∀ env c, l = .call env c → c.vault ≠ some a) := by
  cases h with
  | elsewhere h ht => exact .inr ⟨rfl, fun _ _ h => nomatch h⟩
  | @call env c _ w' hs h0 ht hexec =>
    rcases exec_effect hexec with ⟨a', hvault, v, heffect, hwrite⟩ | ⟨hnone, hvaults, -⟩
    · rcases eq_or_ne a a' with rfl | hne
      · refine .inl ⟨env, c, rfl, hvault, h0, ?_⟩
        change Effect this env _ _ c (w'.state.vaults a) w'.token
        rw [hwrite, Function.update_self]
        exact heffect
      · refine .inr ⟨?_, ?_⟩
        · change w'.state.vaults a = _
          rw [hwrite, Function.update_of_ne hne]
        · rintro _ _ hlabel hsome
          cases hlabel
          exact hne (Option.some.inj (hsome.symm.trans hvault))
    · refine .inr ⟨congrFun hvaults a, ?_⟩
      rintro _ _ hlabel hsome
      cases hlabel
      rw [hnone] at hsome
      cases hsome

theorem kept_of_reachable (hw : (contract this).system.Reachable w) (a : Address) :
    (w.state.vaults a).Kept := by
  refine hw.induct (I := fun w => (w.state.vaults a).Kept) ?_ ?_
  · rintro w ⟨deployer, guardToken, hs⟩
    simp only [deploy, bind_eq_ok, pure_eq_ok] at hs
    obtain ⟨_, -, _, -, hs⟩ := hs
    rw [← hs]
    exact ⟨le_rfl, fun _ => rfl⟩
  · intro w l w' _ hkept hstep
    rcases vault_step hstep a with ⟨env, c, -, -, h0, heffect⟩ | ⟨hsame, -⟩
    · exact heffect.kept h0 hkept
    · rw [hsame]
      exact hkept

/-- The vaults are solvent in every reachable state. -/
theorem solvent_of_reachable (hw : (contract this).system.Reachable w) : Solvent this w := by
  refine hw.induct (I := Solvent this) ?_ ?_
  · rintro w ⟨deployer, guardToken, hs⟩
    simp only [deploy, bind_eq_ok, pure_eq_ok] at hs
    obtain ⟨_, -, _, -, hs⟩ := hs
    unfold Solvent
    rw [← hs]
    exact (Finset.sum_eq_zero fun _ _ => rfl).trans_le (Nat.zero_le _)
  · intro w l w' hw hsolvent hstep
    cases hstep with
    | elsewhere h ht => exact hsolvent.trans h
    | @call env c _ w' hs h0 ht hexec =>
      unfold Solvent at hsolvent ⊢
      dsimp only
      rcases exec_effect hexec with ⟨a, -, v, heffect, hwrite⟩ | ⟨-, hvaults, htoken⟩
      · have hsum := Sums.sum_update w.state.vaults a v VaultInfo.currentBalance
        have hbacked := heffect.backed hs (kept_of_reachable hw a)
        rw [hwrite]
        omega
      · rw [hvaults, htoken]
        exact hsolvent

theorem accounted_run (hr : (contract this).system.Run ts w) (a : Address) :
    (w.state.vaults a).currentBalance + (ts.map (ofCall (Call.takes a))).sum =
      (w.state.vaults a).totalDeposited ∧
    (w.state.vaults a).totalDeposited = (ts.map (ofCall (Call.deposits a))).sum := by
  induction hr with
  | init hinit =>
    obtain ⟨deployer, guardToken, hs⟩ := hinit
    simp only [deploy, bind_eq_ok, pure_eq_ok] at hs
    obtain ⟨_, -, _, -, hs⟩ := hs
    rw [← hs]
    exact ⟨rfl, rfl⟩
  | @step ts w w' l hr hstep ih =>
    obtain ⟨hbalance, hdeposited⟩ := ih
    simp only [List.map_append, List.sum_append, List.map_singleton, List.sum_singleton]
    rcases vault_step hstep a with ⟨env, c, rfl, hvault, -, heffect⟩ | ⟨hsame, hother⟩
    · obtain ⟨hmoved, hadded⟩ := heffect.balance (kept_of_reachable hr.reachable a) hvault
      simp only [ofCall]
      omega
    · rw [hsame]
      cases l with
      | elsewhere token now => exact ⟨hbalance, hdeposited⟩
      | call env c =>
        obtain ⟨htakes, hdeposits, -⟩ := Call.other (hother env c rfl)
        simp only [ofCall, htakes, hdeposits]
        exact ⟨hbalance, hdeposited⟩

/-! ## The monitoring budget -/

/-- After payments of `paid R` in each window `R`, none of them exceeds the budget, the current window knows at
least what was paid in it, and nothing was paid in a later one. -/
structure Within (B : ℕ) (paid : ℕ → ℕ) (start spent : ℕ) : Prop where
  le_budget : ∀ R, paid R ≤ B
  le_spent : paid start ≤ spent
  later : ∀ R, start < R → paid R = 0

variable {paid : ℕ → ℕ} {start spent x : ℕ}

theorem Within.pay (h : Within B paid start spent) (hx : spent + x ≤ B) :
    Within B (fun R => paid R + if start = R then x else 0) start (spent + x) where
  le_budget R := by
    have hR := h.le_budget R
    have hspent := h.le_spent
    split_ifs with heq
    · rw [← heq]
      omega
    · exact hR
  le_spent := by
    have hspent := h.le_spent
    rw [if_pos rfl]
    omega
  later R hR := by
    rw [if_neg hR.ne, h.later R hR]

theorem Within.roll (h : Within B paid start spent) {start' : ℕ} (hlt : start < start') :
    Within B paid start' 0 where
  le_budget := h.le_budget
  le_spent := (h.later start' hlt).le
  later R hR := h.later R (hlt.trans hR)

theorem Within.rolled (h : Within B paid v.weeklyResetTimestamp v.weeklyMonitoringSpent) (now : ℕ) :
    Within B paid (v.roll now).weeklyResetTimestamp (v.roll now).weeklyMonitoringSpent := by
  unfold VaultInfo.roll
  dsimp only
  split_ifs with helapsed
  · have hpos : 0 < WEEK := by decide
    unfold VaultInfo.Elapsed at helapsed
    exact h.roll (by omega)
  · exact h

theorem Effect.within (h : Effect this env v token c v' token') (hc : c.vault = some a) (hv : v.Kept)
    (hpos : 0 < B) (hbudget : v.weeklyMonitoringBudget = B)
    (hwithin : Within B paid v.weeklyResetTimestamp v.weeklyMonitoringSpent) :
    Within B (fun R => paid R + if v'.weeklyResetTimestamp = R then c.monitors a else 0)
      v'.weeklyResetTimestamp v'.weeklyMonitoringSpent := by
  -- A call that pays nothing for monitoring leaves the payments as they are.
  have hnothing : ∀ start spent, Within B paid start spent →
      Within B (fun R => paid R + if start = R then 0 else 0) start spent := by
    intro start spent h
    simpa using h
  cases h with
  | create hnew =>
    -- A vault that is created had no budget.
    rw [hv.uncreated hnew] at hbudget
    exact absurd hbudget.symm hpos.ne'
  | drawMonitoringPayment hactive hle hfits htoken =>
    obtain rfl := Option.some.inj hc
    simp only [Call.monitors, if_true]
    refine (hwithin.rolled env.timestamp).pay ?_
    rw [← hbudget]
    exact hfits (hbudget.symm ▸ hpos.ne')
  | updateVaultRules hactive hbounty => exact hnothing _ _ (hwithin.rolled env.timestamp)
  | deposit hactive htoken => exact hnothing _ _ hwithin
  | drawPayment hactive hle htoken => exact hnothing _ _ hwithin
  | drawBounty hactive hle hbounty htoken => exact hnothing _ _ hwithin
  | withdrawExcess hactive hle htoken => exact hnothing _ _ hwithin

/-- While the budget is `B`, no window pays more. -/
theorem within_run (hpos : 0 < B) {ts₁ : List (Transition (World State) (Label Env Call))}
    (hr : (contract this).system.Run (ts₁ ++ seg) w) (hconstant : ∀ tr ∈ seg, Constant a B tr) :
    Within B (fun start => paidIn a start seg) (w.state.vaults a).weeklyResetTimestamp
      (w.state.vaults a).weeklyMonitoringSpent := by
  have hempty : ∀ start spent, Within B (fun start => paidIn a start []) start spent :=
    fun _ _ => ⟨fun _ => Nat.zero_le _, Nat.zero_le _, fun _ _ => rfl⟩
  generalize hts : ts₁ ++ seg = ts at hr
  induction hr generalizing seg with
  | init _ =>
    obtain ⟨-, rfl⟩ := List.append_eq_nil_iff.mp hts
    exact hempty _ _
  | @step ts w w' l hr hstep ih =>
    rcases List.eq_nil_or_concat seg with rfl | ⟨seg, last, rfl⟩
    · exact hempty _ _
    · rw [List.concat_eq_append] at hts hconstant ⊢
      rw [← List.append_assoc] at hts
      obtain ⟨rfl, hlast⟩ := List.append_inj' hts rfl
      obtain rfl := List.singleton_inj.mp hlast
      have hbefore := ih (fun tr htr => hconstant tr (List.mem_append_left _ htr)) rfl
      obtain ⟨hbudget, -⟩ := hconstant _ (List.mem_append_right _ (List.mem_singleton_self _))
      have hpaid : ∀ start, paidIn a start (seg ++ [⟨w, l, w'⟩]) = paidIn a start seg +
          if (w'.state.vaults a).weeklyResetTimestamp = start
            then ofCall (Call.monitors a) ⟨w, l, w'⟩ else 0 := by
        intro start
        simp only [paidIn, List.map_append, List.sum_append, List.map_singleton, List.sum_singleton]
      simp only [hpaid]
      rcases vault_step hstep a with ⟨env, c, rfl, hvault, -, heffect⟩ | ⟨hsame, hother⟩
      · exact heffect.within hvault (kept_of_reachable hr.reachable a) hpos hbudget hbefore
      · have hzero : ofCall (Call.monitors a) ⟨w, l, w'⟩ = 0 := by
          cases l with
          | elsewhere token now => rfl
          | call env c => exact (Call.other (hother env c rfl)).2.2
        rw [hzero, hsame]
        simpa using hbefore

/-- In every run, the vaults are separate and solvent. -/
theorem vaults_separate (hr : (contract this).system.Run ts w) : Separate this ts w where
  solvent := solvent_of_reachable hr.reachable
  accounted a := (accounted_run hr a).1
  deposited a := (accounted_run hr a).2
  bounty a := (kept_of_reachable hr.reachable a).bounty
  monitoring a B hpos ts₁ seg ts₂ hts hconstant start := by
    subst hts
    -- The segment ends a run.
    obtain ⟨w', hr'⟩ : ∃ w', (contract this).system.Run (ts₁ ++ seg) w' := by
      cases ts₂ with
      | nil => exact ⟨w, by rwa [List.append_nil] at hr⟩
      | cons tr ts₂ => exact ⟨tr.src, hr.before.1⟩
    exact (within_run hpos hr' hconstant).le_budget start
  frame tr htr env c hlabel a hvault := by
    rcases vault_step (hr.step_of_mem tr htr).2 a with ⟨env', c', hlabel', hvault', -⟩ | ⟨hsame, -⟩
    · rw [hlabel] at hlabel'
      cases hlabel'
      exact absurd hvault' hvault
    · exact hsame

/-! ## A sample run -/

/-- Two vaults. The first one pays for an audit, for monitoring in two windows and for a bounty, the second one
gives back what it does not need. -/
def vaultCalls : List (Env × Call) :=
  [(sampleEnv 9 0, .setAuthorizedDrawer 5),
    (sampleEnv 2 0, .createVault 20 100 50),
    (sampleEnv 3 1, .createVault 30 0 0),
    (sampleEnv 2 2, .deposit 20 1000),
    (sampleEnv 3 3, .deposit 30 500),
    (sampleEnv 5 4, .drawPayment 20 6 300),
    (sampleEnv 5 5, .drawMonitoringPayment 20 6 100),
    (sampleEnv 5 604801, .drawMonitoringPayment 20 6 60),
    (sampleEnv 5 604802, .drawBounty 20 6 50),
    (sampleEnv 3 604803, .withdrawExcess 30 200)]

/-- The vaults after the sample run. -/
theorem vaults_separate_sample : ∃ ts w, (contract 1).system.Run ts w ∧ Separate 1 ts w ∧
    (w.state.vaults 20).currentBalance = 490 ∧ (w.state.vaults 30).currentBalance = 300 := by
  obtain ⟨ts, w, hcalls, hr, -⟩ := sample_run vaultCalls (by decide) rfl
  have hread := read_ok hcalls
    (fun w => ((w.state.vaults 20).currentBalance, (w.state.vaults 30).currentBalance))
    (b := (490, 300)) (by decide +kernel)
  exact ⟨ts, w, hr, vaults_separate hr, Prod.mk.inj hread⟩

end AuditGuard.AuditBudgetVault
