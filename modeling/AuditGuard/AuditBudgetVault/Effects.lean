import AuditGuard.AuditBudgetVault.System

/-!
# AuditBudgetVault: what a call does to the vaults

What each function does to the vaults and to the ledger if it returns, and from these one relation for all calls.
Every call writes at most the vault that it names.
-/

namespace AuditGuard.AuditBudgetVault

open Evm

namespace VaultInfo

/-- A week is over since the window of the vault started. -/
def Elapsed (now : ℕ) (vault : VaultInfo) : Prop := vault.weeklyResetTimestamp + WEEK ≤ now

instance (now : ℕ) (vault : VaultInfo) : Decidable (vault.Elapsed now) :=
  inferInstanceAs (Decidable (_ ≤ _))

/-- The vault with its window rolled on to the time `now`, if a week is over. -/
def roll (now : ℕ) (vault : VaultInfo) : VaultInfo :=
  { vault with
    weeklyMonitoringSpent := if vault.Elapsed now then 0 else vault.weeklyMonitoringSpent
    weeklyResetTimestamp := if vault.Elapsed now then now else vault.weeklyResetTimestamp }

theorem roll_eq (now : ℕ) (vault : VaultInfo) : ∃ spent reset, vault.roll now =
    { vault with
      weeklyMonitoringSpent := spent
      weeklyResetTimestamp := reset } := ⟨_, _, rfl⟩

/-- The vault after a deposit. -/
def deposited (amount : ℕ) (vault : VaultInfo) : VaultInfo :=
  { vault with
    totalDeposited := vault.totalDeposited + amount
    currentBalance := vault.currentBalance + amount }

/-- The vault after an amount left it. -/
def drawn (amount : ℕ) (vault : VaultInfo) : VaultInfo :=
  { vault with currentBalance := vault.currentBalance - amount }

/-- The vault after an audit at the time `now`. -/
def audited (now : ℕ) (vault : VaultInfo) : VaultInfo := { vault with lastAuditTimestamp := now }

end VaultInfo

/-- The vault that a call works on. -/
def Call.vault : Call → Option Address
  | .createVault contractAddress _ _ => some contractAddress
  | .deposit contractAddress _ => some contractAddress
  | .drawPayment contractAddress _ _ => some contractAddress
  | .drawMonitoringPayment contractAddress _ _ => some contractAddress
  | .drawBounty contractAddress _ _ => some contractAddress
  | .withdrawExcess contractAddress _ => some contractAddress
  | .updateVaultRules contractAddress _ _ => some contractAddress
  | .setAuthorizedDrawer _ => none
  | .associateGuardToken => none
  | .transferOwnership _ => none
  | .renounceOwnership => none

/-- What a call that succeeds writes into the vault it names, and does to the ledger. -/
inductive Effect (this : Address) (env : Env) (v : VaultInfo) (token : TokenLedger) :
    Call → VaultInfo → TokenLedger → Prop
  | create {a : Address} {budget allocation : UInt 256} (hnew : v.depositor = 0) :
      Effect this env v token (.createVault a budget allocation)
        ⟨a, env.sender, 0, 0, budget, 0, env.timestamp, allocation, 0, 0, true⟩ token
  | deposit {a : Address} {amount : UInt 256} {token' : TokenLedger} (hactive : v.active = true)
      (htoken : token.transfer env.sender this amount = some token') :
      Effect this env v token (.deposit a amount) (v.deposited amount) token'
  | drawPayment {a agent : Address} {amount : UInt 256} {token' : TokenLedger}
      (hactive : v.active = true) (hle : amount ≤ v.currentBalance)
      (htoken : token.transfer this agent amount = some token') :
      Effect this env v token (.drawPayment a agent amount)
        ((v.drawn amount).audited env.timestamp) token'
  | drawMonitoringPayment {a agent : Address} {amount : UInt 256} {token' : TokenLedger}
      (hactive : v.active = true) (hle : amount ≤ v.currentBalance)
      (hbudget : v.weeklyMonitoringBudget ≠ 0 →
        (v.roll env.timestamp).weeklyMonitoringSpent + amount ≤ v.weeklyMonitoringBudget)
      (htoken : token.transfer this agent amount = some token') :
      Effect this env v token (.drawMonitoringPayment a agent amount)
        { ((v.roll env.timestamp).drawn amount).audited env.timestamp with
          weeklyMonitoringSpent := (v.roll env.timestamp).weeklyMonitoringSpent + amount } token'
  | drawBounty {a agent : Address} {amount : UInt 256} {token' : TokenLedger}
      (hactive : v.active = true) (hle : amount ≤ v.currentBalance)
      (hbounty : v.criticalBountySpent + amount ≤ v.criticalBountyAllocation)
      (htoken : token.transfer this agent amount = some token') :
      Effect this env v token (.drawBounty a agent amount)
        { (v.drawn amount).audited env.timestamp with
          criticalBountySpent := v.criticalBountySpent + amount } token'
  | withdrawExcess {a : Address} {amount : UInt 256} {token' : TokenLedger}
      (hactive : v.active = true) (hle : amount ≤ v.currentBalance)
      (htoken : token.transfer this v.depositor amount = some token') :
      Effect this env v token (.withdrawExcess a amount) (v.drawn amount) token'
  | updateVaultRules {a : Address} {budget allocation : UInt 256} (hactive : v.active = true)
      (hbounty : v.criticalBountySpent ≤ allocation) :
      Effect this env v token (.updateVaultRules a budget allocation)
        { v.roll env.timestamp with
          weeklyMonitoringBudget := budget
          criticalBountyAllocation := allocation } token

/-- The call has its effect on the vault at `a`, and writes no other vault. -/
def Writes (this : Address) (env : Env) (c : Call) (a : Address) (w w' : World State) : Prop :=
  ∃ v, Effect this env (w.state.vaults a) w.token c v w'.token ∧
    w'.state.vaults = Function.update w.state.vaults a v

variable {this a : Address} {env : Env} {c : Call} {s s' : State} {w w' : World State}

theorem resetWeeklyIfNeeded_ok {v v' : VaultInfo} (h : resetWeeklyIfNeeded env v = .ok v') :
    v' = v.roll env.timestamp := by
  simp only [resetWeeklyIfNeeded, bind_eq_ok, checkedAdd_eq_ok] at h
  obtain ⟨_, ⟨-, rfl⟩, h⟩ := h
  split_ifs at h with helapsed
  · have hrolled : v.Elapsed env.timestamp := helapsed
    simp only [VaultInfo.roll, if_pos hrolled]
    exact (pure_eq_ok.mp h).symm
  · have hrunning : ¬ v.Elapsed env.timestamp := helapsed
    simp only [VaultInfo.roll, if_neg hrunning]
    exact (pure_eq_ok.mp h).symm

theorem deposit_effect {amount : UInt 256} (h : deposit this env a amount w = .ok w') :
    Writes this env (.deposit a amount) a w w' := by
  simp only [deposit, getActiveVault, transferGuard, Hts.transfer_eq_ok, bind_eq_ok, pure_eq_ok,
    require_eq_ok, checkedAdd_eq_ok] at h
  obtain ⟨_, -, _, ⟨_, hactive, rfl⟩, _, ⟨-, token, htoken, rfl⟩, _, ⟨-, rfl⟩, _, ⟨-, rfl⟩, rfl⟩ := h
  exact ⟨_, .deposit hactive htoken, rfl⟩

theorem drawPayment_effect {agent : Address} {amount : UInt 256}
    (h : drawPayment this env a agent amount w = .ok w') :
    Writes this env (.drawPayment a agent amount) a w w' := by
  simp only [drawPayment, getActiveVault, transferGuard, Hts.transfer_eq_ok, bind_eq_ok, pure_eq_ok,
    require_eq_ok, checkedSub_eq_ok] at h
  obtain ⟨_, -, _, -, _, -, _, ⟨_, hactive, rfl⟩, _, hle, _, ⟨-, rfl⟩, _, ⟨-, token, htoken, rfl⟩, rfl⟩ := h
  exact ⟨_, .drawPayment hactive hle htoken, rfl⟩

theorem drawMonitoringPayment_effect {agent : Address} {amount : UInt 256}
    (h : drawMonitoringPayment this env a agent amount w = .ok w') :
    Writes this env (.drawMonitoringPayment a agent amount) a w w' := by
  simp only [drawMonitoringPayment, getActiveVault, transferGuard, Hts.transfer_eq_ok, bind_eq_ok,
    pure_eq_ok, require_eq_ok, checkedSub_eq_ok, checkedAdd_eq_ok] at h
  obtain ⟨_, -, _, -, _, -, _, ⟨_, hactive, rfl⟩, _, hle, v, hroll, _, hbudget, _, ⟨-, rfl⟩, _, ⟨-, rfl⟩,
    _, ⟨-, token, htoken, rfl⟩, _, -, rfl⟩ := h
  -- The rolled window stays a variable, so that nobody has to count the seconds of a week.
  have hrolled := resetWeeklyIfNeeded_ok hroll
  have hsame : v.weeklyMonitoringBudget = (w.state.vaults a).weeklyMonitoringBudget := by
    obtain ⟨spent, reset, heq⟩ := VaultInfo.roll_eq env.timestamp (w.state.vaults a)
    rw [hrolled, heq]
  refine ⟨{ (v.drawn amount).audited env.timestamp with
    weeklyMonitoringSpent := v.weeklyMonitoringSpent + amount }, ?_, rfl⟩
  rw [hrolled]
  refine .drawMonitoringPayment hactive hle (fun hlimited => ?_) htoken
  rw [hsame, if_pos hlimited] at hbudget
  simp only [bind_eq_ok, checkedAdd_eq_ok, require_eq_ok] at hbudget
  obtain ⟨_, ⟨-, rfl⟩, hfits⟩ := hbudget
  rw [← hrolled]
  exact hfits

theorem drawBounty_effect {agent : Address} {amount : UInt 256}
    (h : drawBounty this env a agent amount w = .ok w') :
    Writes this env (.drawBounty a agent amount) a w w' := by
  simp only [drawBounty, getActiveVault, transferGuard, Hts.transfer_eq_ok, bind_eq_ok, pure_eq_ok,
    require_eq_ok, checkedSub_eq_ok, checkedAdd_eq_ok] at h
  obtain ⟨_, -, _, -, _, -, _, ⟨_, hactive, rfl⟩, _, hle, _, ⟨-, rfl⟩, _, hbounty, _, ⟨-, rfl⟩, _, ⟨-, rfl⟩,
    _, ⟨-, token, htoken, rfl⟩, _, -, rfl⟩ := h
  exact ⟨_, .drawBounty hactive hle hbounty htoken, rfl⟩

theorem withdrawExcess_effect {amount : UInt 256} (h : withdrawExcess this env a amount w = .ok w') :
    Writes this env (.withdrawExcess a amount) a w w' := by
  simp only [withdrawExcess, getActiveVault, transferGuard, Hts.transfer_eq_ok, bind_eq_ok, pure_eq_ok,
    require_eq_ok, checkedSub_eq_ok] at h
  obtain ⟨_, -, _, ⟨_, hactive, rfl⟩, _, -, _, hle, _, ⟨-, rfl⟩, _, ⟨-, token, htoken, rfl⟩, rfl⟩ := h
  exact ⟨_, .withdrawExcess hactive hle htoken, rfl⟩

theorem updateVaultRules_effect {budget allocation : UInt 256}
    (h : updateVaultRules env a budget allocation w.state = .ok s) :
    Writes this env (.updateVaultRules a budget allocation) a w { w with state := s } := by
  simp only [updateVaultRules, getActiveVault, bind_eq_ok, pure_eq_ok, require_eq_ok] at h
  obtain ⟨_, ⟨_, hactive, rfl⟩, _, -, _, hbounty, v, hroll, rfl⟩ := h
  obtain rfl := resetWeeklyIfNeeded_ok hroll
  exact ⟨_, .updateVaultRules hactive hbounty, rfl⟩

theorem exec_effect (h : exec this env c w = .ok w') :
    (∃ a, c.vault = some a ∧ Writes this env c a w w') ∨
      (c.vault = none ∧ w'.state.vaults = w.state.vaults ∧ w'.token = w.token) := by
  unfold exec at h
  split_ifs at h
  cases c with
  | createVault a budget allocation =>
    obtain ⟨s, hs, rfl⟩ := onState_eq_ok.mp h
    simp only [createVault, bind_eq_ok, pure_eq_ok, require_eq_ok] at hs
    obtain ⟨_, -, _, hnew, rfl⟩ := hs
    exact .inl ⟨a, rfl, _, .create hnew, rfl⟩
  | deposit a amount => exact .inl ⟨a, rfl, deposit_effect h⟩
  | drawPayment a agent amount => exact .inl ⟨a, rfl, drawPayment_effect h⟩
  | drawMonitoringPayment a agent amount => exact .inl ⟨a, rfl, drawMonitoringPayment_effect h⟩
  | drawBounty a agent amount => exact .inl ⟨a, rfl, drawBounty_effect h⟩
  | withdrawExcess a amount => exact .inl ⟨a, rfl, withdrawExcess_effect h⟩
  | updateVaultRules a budget allocation =>
    obtain ⟨s, hs, rfl⟩ := onState_eq_ok.mp h
    exact .inl ⟨a, rfl, updateVaultRules_effect hs⟩
  -- The other calls administer the contract.
  | setAuthorizedDrawer | associateGuardToken | transferOwnership =>
    obtain ⟨s, hs, rfl⟩ := onState_eq_ok.mp h
    simp only [setAuthorizedDrawer, associateGuardToken, transferOwnership, bind_eq_ok, pure_eq_ok] at hs
    obtain ⟨_, -, _, -, rfl⟩ := hs
    exact .inr ⟨rfl, rfl, rfl⟩
  | renounceOwnership =>
    obtain ⟨s, hs, rfl⟩ := onState_eq_ok.mp h
    simp only [renounceOwnership, bind_eq_ok, pure_eq_ok] at hs
    obtain ⟨_, -, rfl⟩ := hs
    exact .inr ⟨rfl, rfl, rfl⟩

end AuditGuard.AuditBudgetVault
