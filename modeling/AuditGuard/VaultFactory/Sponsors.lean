import AuditGuard.VaultFactory.Model

/-!
# VaultFactory: who sponsors which vault

A vault keeps a list of its depositors, and the factory a list of the vaults of each depositor, each with flags of its
own that keep duplicates out. Both are exact (`sponsors_exact`): the vault has those who deposited, and the factory those
who deposited or created the vault. The registry lists every vault once, for one contract (`registry_exact`).
-/

namespace AuditGuard.AuditVault

open Evm

/-- What a vault keeps of its deployment and of its depositors. -/
structure Sponsorship where
  initialized : Bool
  factory : Address
  depositors : List Address
  isDepositor : Address → Bool

/-- The part of the storage. -/
def State.sponsorship (s : State) : Sponsorship := ⟨s.initialized, s.factory, s.depositors, s.isDepositor⟩

/-- One more depositor. -/
def Sponsorship.add (s : Sponsorship) (depositor : Address) : Sponsorship :=
  if s.isDepositor depositor = false then
    { s with
      depositors := s.depositors ++ [depositor]
      isDepositor := Function.update s.isDepositor depositor true }
  else s

variable {this : Address} {env : Env} {s s' : State} {w w' : World State} {amount : ℕ}

theorem trackDepositor_sponsorship (h : trackDepositor env s = .ok s') :
    s'.sponsorship = s.sponsorship.add env.sender := by
  unfold trackDepositor at h
  split_ifs at h with hnew
  · simp only [bind_eq_ok, pure_eq_ok] at h
    obtain ⟨_, -, rfl⟩ := h
    exact (if_pos hnew).symm
  · rw [pure_eq_ok] at h
    rw [← h]
    exact (if_neg hnew).symm

theorem transferGuard_state {src dst : Address} (h : transferGuard env src dst amount w = .ok w') :
    w'.state = w.state := by
  simp only [transferGuard, Hts.transfer_eq_ok] at h
  obtain ⟨-, _, -, rfl⟩ := h
  rfl

theorem sponsorship_emit (s : State) (e : Event) : (s.emit e).sponsorship = s.sponsorship := rfl

theorem fundBountyPool_sponsorship (h : fundBountyPool amount s = .ok s') : s'.sponsorship = s.sponsorship := by
  unfold fundBountyPool at h
  split_ifs at h
  · simp only [bind_eq_ok, pure_eq_ok] at h
    obtain ⟨_, -, _, -, rfl⟩ := h
    rfl
  · rw [pure_eq_ok] at h
    rw [h]

theorem triggerOnThreshold_sponsorship (h : triggerOnThreshold env s = .ok s') : s'.sponsorship = s.sponsorship := by
  simp only [triggerOnThreshold, bind_eq_ok] at h
  obtain ⟨crossed, -, h⟩ := h
  split_ifs at h
  · simp only [bind_eq_ok, pure_eq_ok] at h
    obtain ⟨_, -, rfl⟩ := h
    rfl
  · rw [pure_eq_ok] at h
    rw [h]

theorem deposit_sponsorship (h : deposit this env amount w = .ok w') :
    w'.state.sponsorship = w.state.sponsorship.add env.sender := by
  simp only [deposit, creditDeposit, bind_eq_ok, pure_eq_ok] at h
  obtain ⟨_, -, _, -, w₁, htransfer, s₅, ⟨s₁, htrack, _, -, _, -, _, -, s₃, hfund, s₄, htrigger, rfl⟩, rfl⟩ := h
  rw [transferGuard_state htransfer] at htrack
  have hfunded := fundBountyPool_sponsorship hfund
  calc s₄.sponsorship = s₃.sponsorship := triggerOnThreshold_sponsorship htrigger
    _ = s₁.sponsorship := hfunded
    _ = w.state.sponsorship.add env.sender := trackDepositor_sponsorship htrack

theorem resetWeeklyIfNeeded_sponsorship (h : resetWeeklyIfNeeded env s = .ok s') :
    s'.sponsorship = s.sponsorship := by
  simp only [resetWeeklyIfNeeded, bind_eq_ok, pure_eq_ok] at h
  obtain ⟨_, -, rfl⟩ := h
  split_ifs <;> rfl

theorem payMonitor_sponsorship {agent : Address} {owed : ℕ} (h : payMonitor this env agent owed w = .ok w') :
    w'.state.sponsorship = w.state.sponsorship := by
  simp only [payMonitor, debitMonitoring, bind_eq_ok, pure_eq_ok] at h
  obtain ⟨_, ⟨_, -, _, -, rfl⟩, w₁, htransfer, rfl⟩ := h
  rw [sponsorship_emit, transferGuard_state htransfer]
  rfl

theorem settleMonitoring_sponsorship (h : settleMonitoring this env w = .ok w') :
    w'.state.sponsorship = w.state.sponsorship := by
  unfold settleMonitoring at h
  dsimp only at h
  split_ifs at h
  · rw [pure_eq_ok] at h
    rw [h]
  · simp only [bind_eq_ok] at h
    obtain ⟨s₁, hreset, owed, -, h⟩ := h
    have hrolled := resetWeeklyIfNeeded_sponsorship hreset
    split_ifs at h
    · exact (payMonitor_sponsorship h).trans hrolled
    · rw [pure_eq_ok] at h
      rw [← h]
      exact hrolled

theorem outbidMonitor_sponsorship {weeklyRate : ℕ} (h : outbidMonitor this env weeklyRate w = .ok w') :
    w'.state.sponsorship = w.state.sponsorship := by
  unfold outbidMonitor at h
  dsimp only at h
  split_ifs at h
  · simp only [bind_eq_ok, pure_eq_ok] at h
    obtain ⟨_, -, w₁, hsettle, rfl⟩ := h
    have hsettled := settleMonitoring_sponsorship hsettle
    exact hsettled
  · rw [pure_eq_ok] at h
    rw [h]

/-- The call is a deposit. -/
def Call.isDeposit : Call → Bool
  | .deposit _ => true
  | _ => false

/-- Of an initialized vault, only a deposit changes it. -/
theorem exec_sponsorship {c : Call} (hw : w.state.initialized = true) (h : exec this env c w = .ok w') :
    w'.state.sponsorship =
      if c.isDeposit = true then w.state.sponsorship.add env.sender else w.state.sponsorship := by
  unfold exec at h
  split_ifs at h
  cases c with
  | deposit x => exact deposit_sponsorship h
  | initializeVault =>
    simp [initializeVault, hw] at h
  | associateGuardToken =>
    simp only [onState_eq_ok, associateGuardToken, bind_eq_ok, pure_eq_ok] at h
    obtain ⟨_, ⟨_, -, _, -, rfl⟩, rfl⟩ := h
    rfl
  | withdraw x =>
    simp only [withdraw, debitWithdrawal, bind_eq_ok, pure_eq_ok] at h
    obtain ⟨_, ⟨_, -, _, -, _, -, _, -, _, -, _, -, rfl⟩, w₁, htransfer, rfl⟩ := h
    have hmoved := congrArg State.sponsorship (transferGuard_state htransfer)
    exact hmoved
  | reserveForAuction x =>
    simp only [onState_eq_ok, reserveForAuction, bind_eq_ok, pure_eq_ok] at h
    obtain ⟨_, ⟨_, -, _, -, _, -, _, -, _, -, _, -, rfl⟩, rfl⟩ := h
    rfl
  | drawPayment recipient x =>
    simp only [drawPayment, debitPayment, bind_eq_ok, pure_eq_ok] at h
    obtain ⟨_, ⟨_, -, _, -, _, -, _, -, _, -, _, -, rfl⟩, w₁, htransfer, rfl⟩ := h
    have hmoved := congrArg State.sponsorship (transferGuard_state htransfer)
    exact hmoved
  | releaseReservation x =>
    simp only [onState_eq_ok, releaseReservation, bind_eq_ok, pure_eq_ok] at h
    obtain ⟨_, ⟨_, -, _, -, _, -, _, -, rfl⟩, rfl⟩ := h
    rfl
  | drawBounty recipient x =>
    simp only [drawBounty, debitBounty, bind_eq_ok, pure_eq_ok] at h
    obtain ⟨_, ⟨_, -, _, -, _, -, _, -, _, -, _, -, _, -, rfl⟩, w₁, htransfer, rfl⟩ := h
    have hmoved := congrArg State.sponsorship (transferGuard_state htransfer)
    exact hmoved
  | applyForMonitoring x =>
    simp only [applyForMonitoring, bind_eq_ok, pure_eq_ok] at h
    obtain ⟨_, -, _, -, _, -, _, -, _, -, w₁, houtbid, rfl⟩ := h
    have houtbid := outbidMonitor_sponsorship houtbid
    exact houtbid
  | claimMonitoringPayment =>
    simp only [claimMonitoringPayment, bind_eq_ok] at h
    obtain ⟨_, -, _, -, s₁, hreset, owed, -, _, -, h⟩ := h
    exact (payMonitor_sponsorship h).trans (resetWeeklyIfNeeded_sponsorship hreset)
  | cancelMonitoring =>
    simp only [cancelMonitoring, bind_eq_ok, pure_eq_ok] at h
    obtain ⟨_, -, _, -, w₁, hsettle, rfl⟩ := h
    have hsettle := settleMonitoring_sponsorship hsettle
    exact hsettle
  | recordAuditCompletion x =>
    simp only [onState_eq_ok, recordAuditCompletion, bind_eq_ok, pure_eq_ok] at h
    obtain ⟨_, ⟨_, -, _, -, _, -, rfl⟩, rfl⟩ := h
    rfl
  | checkAndTriggerReaudit =>
    simp only [onState_eq_ok, checkAndTriggerReaudit, bind_eq_ok, pure_eq_ok] at h
    obtain ⟨_, ⟨_, -, _, -, _, -, _, -, _, -, _, -, rfl⟩, rfl⟩ := h
    rfl
  | updateConfig newConfig =>
    simp only [onState_eq_ok, updateConfig, bind_eq_ok, pure_eq_ok] at h
    obtain ⟨_, ⟨_, -, _, -, rfl⟩, rfl⟩ := h
    rfl
  | setAuthorizedDrawer drawer authorized =>
    simp only [onState_eq_ok, setAuthorizedDrawer, bind_eq_ok, pure_eq_ok] at h
    obtain ⟨_, ⟨_, -, rfl⟩, rfl⟩ := h
    rfl

end AuditGuard.AuditVault

namespace AuditGuard.VaultFactory

open Evm TransitionSystem

variable {predictVaultAddress : Address → Address} {this : Address} {env : Env} {s s' : State} {w w' : World State}

/-! ## What a call does -/

/-- The part of the factory's storage that is about its vaults. -/
def Registry.index (r : Registry) :
    (Address → Address) × List Address × (Address → Bool) × (Address → List Address) × (Address × Address → Bool) :=
  (r.vaultFor, r.allVaults, r.isVault, r.depositorVaults, r.depositorHasVault)

/-- The registry with a new vault. -/
def Registry.addVault (r : Registry) (contractAddress vaultAddress : Address) : Registry :=
  { r with
    vaultFor := Function.update r.vaultFor contractAddress vaultAddress
    allVaults := r.allVaults ++ [vaultAddress]
    isVault := Function.update r.isVault vaultAddress true }

/-- What a call does to the index and to the vaults. -/
inductive Effect (predictVaultAddress : Address → Address) (this : Address) (env : Env) (s : State) :
    Call → State → Prop
  | created {contractAddress : Address} {contractChain : String} {config : AuditVault.VaultConfig}
      {vault : AuditVault.State} (hcontract : s.registry.vaultFor contractAddress = 0)
      (hzero : predictVaultAddress contractAddress ≠ 0) (hfree : s.vaults (predictVaultAddress contractAddress) = none)
      (hvault : vault.sponsorship = ⟨true, this, [], fun _ => false⟩) :
      Effect predictVaultAddress this env s (.createVault contractAddress contractChain config)
        ⟨(s.registry.addVault contractAddress (predictVaultAddress contractAddress)).addDepositorVault env.sender
            (predictVaultAddress contractAddress),
          Function.update s.vaults (predictVaultAddress contractAddress) (some vault)⟩
  | called {vaultAddress : Address} {c : AuditVault.Call} {vault vault' : AuditVault.State}
      (hvault : s.vaults vaultAddress = some vault)
      (hvault' : vault.initialized = true → vault'.sponsorship =
        if c.isDeposit = true then vault.sponsorship.add env.sender else vault.sponsorship) :
      Effect predictVaultAddress this env s (.callVault vaultAddress c)
        ⟨if firstDeposit env vault c = true then s.registry.addDepositorVault env.sender vaultAddress else s.registry,
          Function.update s.vaults vaultAddress (some vault')⟩
  | kept {c : RegistryCall} {r : Registry} (hindex : s.registry.isVault env.sender = false → r.index = s.registry.index) :
      Effect predictVaultAddress this env s (.registry c) { s with registry := r }

theorem createVault_effect {contractAddress : Address} {contractChain : String} {config : AuditVault.VaultConfig}
    (h : createVault predictVaultAddress this env contractAddress contractChain config s = .ok s') :
    Effect predictVaultAddress this env s (.createVault contractAddress contractChain config) s' := by
  simp only [createVault, bind_eq_ok, require_eq_ok, pure_eq_ok] at h
  obtain ⟨_, -, _, hcontract, blank, hdeploy, vault, hinitialize, rfl⟩ := h
  unfold deployVault at hdeploy
  split_ifs at hdeploy with htaken
  push Not at htaken
  obtain ⟨hzero, -, hfree⟩ := htaken
  obtain rfl := Except.ok.inj hdeploy
  simp only [AuditVault.initializeVault, bind_eq_ok, pure_eq_ok] at hinitialize
  obtain ⟨_, -, _, -, _, -, _, -, rfl⟩ := hinitialize
  refine .created hcontract hzero (by simpa using hfree) ?_
  unfold tryAssociate
  split
  · next vault hassociate =>
    simp only [AuditVault.associateGuardToken, bind_eq_ok, pure_eq_ok] at hassociate
    obtain ⟨_, -, _, -, rfl⟩ := hassociate
    rfl
  · rfl

theorem callVault_effect {vaultAddress : Address} {c : AuditVault.Call}
    (h : callVault this env vaultAddress c w = .ok w') :
    Effect predictVaultAddress this env w.state (.callVault vaultAddress c) w'.state := by
  simp only [callVault, bind_eq_ok, orRevert_eq_ok, pure_eq_ok] at h
  obtain ⟨vault, hvault, w₁, hexec, r, hregister, rfl⟩ := h
  have hr : r = if firstDeposit env vault c = true then w.state.registry.addDepositorVault env.sender vaultAddress
      else w.state.registry := by
    unfold notifyFactory at hregister
    split_ifs at hregister with hfirst
    · simp only [registerDepositor, bind_eq_ok, pure_eq_ok] at hregister
      obtain ⟨_, -, _, -, rfl⟩ := hregister
      exact (if_pos hfirst).symm
    · rw [pure_eq_ok] at hregister
      rw [if_neg hfirst, hregister]
  subst hr
  exact .called hvault fun hinitialized => AuditVault.exec_sponsorship hinitialized hexec

theorem execRegistry_index {c : RegistryCall} {r r' : Registry} (hsender : r.isVault env.sender = false)
    (h : execRegistry env c r = .ok r') : r'.index = r.index := by
  cases c with
  | registerDepositor depositor vault =>
    simp only [execRegistry, registerDepositor, bind_eq_ok, require_eq_ok] at h
    obtain ⟨_, hvault, -⟩ := h
    rw [hsender] at hvault
    cases hvault
  | onAutoAuditTriggered contractAddress reason =>
    simp only [execRegistry, onAutoAuditTriggered, bind_eq_ok, pure_eq_ok] at h
    obtain ⟨_, -, rfl⟩ := h
    rfl
  | renounceOwnership =>
    simp only [execRegistry, bind_eq_ok, pure_eq_ok] at h
    obtain ⟨_, -, rfl⟩ := h
    rfl
  | _ =>
    simp only [execRegistry, bind_eq_ok, pure_eq_ok] at h
    obtain ⟨_, -, _, -, rfl⟩ := h
    rfl

theorem exec_effect {c : Call} (h : exec predictVaultAddress this env c w = .ok w') :
    w.state.vaults env.sender = none ∧ Effect predictVaultAddress this env w.state c w'.state := by
  unfold exec at h
  split_ifs at h with hrefused
  push Not at hrefused
  refine ⟨by simpa using hrefused.2, ?_⟩
  cases c with
  | createVault contractAddress contractChain config =>
    obtain ⟨s, hs, rfl⟩ := onState_eq_ok.mp h
    exact createVault_effect hs
  | callVault vaultAddress c => exact callVault_effect h
  | registry c =>
    obtain ⟨s, hs, rfl⟩ := onState_eq_ok.mp h
    simp only [bind_eq_ok, pure_eq_ok] at hs
    obtain ⟨r, hr, rfl⟩ := hs
    exact .kept fun hsender => execRegistry_index hsender hr

/-! ## The registry -/

/-- The registry lists its vaults, which are deployed, once each, and knows one contract for each of them; and every list
of depositors or vaults is as its flags say. -/
structure Registered (s : State) : Prop where
  nodup : s.registry.allVaults.Nodup
  listed : ∀ v, v ∈ s.registry.allVaults ↔ s.registry.isVault v = true
  covers : ∀ c, s.registry.vaultFor c ≠ 0 → s.registry.isVault (s.registry.vaultFor c) = true
  covered : ∀ v, s.registry.isVault v = true → ∃! c, s.registry.vaultFor c = v
  nonzero : s.registry.isVault 0 = false
  deployed : ∀ v, s.registry.isVault v = true ↔ (s.vaults v).isSome = true
  flagged : PushOnce.Flagged s.registry.depositorVaults s.registry.depositorHasVault
  vault : ∀ v vault, s.vaults v = some vault → vault.initialized = true ∧ vault.depositors.Nodup ∧
    ∀ d, d ∈ vault.depositors ↔ vault.isDepositor d = true

theorem Registered.deployment (owner guardToken agentRegistry : Address) :
    Registered (State.deployed owner guardToken agentRegistry) where
  nodup := List.nodup_nil
  listed v := by simp [State.deployed]
  covers c hc := absurd rfl hc
  covered v hv := by simp [State.deployed] at hv
  nonzero := rfl
  deployed v := by simp [State.deployed]
  flagged := .empty
  vault v vault hv := by simp [State.deployed] at hv

theorem Registered.addVault (h : Registered s) {contractAddress vaultAddress : Address}
    (hcontract : s.registry.vaultFor contractAddress = 0) (hzero : vaultAddress ≠ 0)
    (hfree : s.vaults vaultAddress = none) (v : Address)
    (hv : (s.registry.addVault contractAddress vaultAddress).isVault v = true) :
    ∃! c, (s.registry.addVault contractAddress vaultAddress).vaultFor c = v := by
  have hnew : s.registry.isVault vaultAddress ≠ true := fun hvault => by
    simpa [hfree] using (h.deployed _).mp hvault
  dsimp only [Registry.addVault] at hv ⊢
  rcases eq_or_ne v vaultAddress with rfl | hne
  · refine ⟨contractAddress, Function.update_self .., fun c hc => ?_⟩
    by_contra hother
    beta_reduce at hc
    rw [Function.update_of_ne hother] at hc
    exact hnew (hc ▸ h.covers c (hc ▸ hzero))
  · rw [Function.update_of_ne hne] at hv
    have hpositive : v ≠ 0 := by
      rintro rfl
      rw [h.nonzero] at hv
      cases hv
    obtain ⟨c, hc, hunique⟩ := h.covered v hv
    have hother : c ≠ contractAddress := by
      rintro rfl
      exact hpositive (hc.symm.trans hcontract)
    refine ⟨c, (Function.update_of_ne hother _ _).trans hc, fun c' hc' => ?_⟩
    beta_reduce at hc'
    rcases eq_or_ne c' contractAddress with rfl | hc''
    · rw [Function.update_self] at hc'
      exact absurd hc'.symm hne
    · rw [Function.update_of_ne hc''] at hc'
      exact hunique c' hc'

theorem listed_add {vault vault' : AuditVault.State} {depositor : Address}
    (h : vault'.sponsorship = vault.sponsorship.add depositor) (hnodup : vault.depositors.Nodup)
    (hlisted : ∀ d, d ∈ vault.depositors ↔ vault.isDepositor d = true) :
    vault'.initialized = vault.initialized ∧ vault'.depositors.Nodup ∧
      (∀ d, d ∈ vault'.depositors ↔ vault'.isDepositor d = true) ∧
      ∀ d, vault'.isDepositor d = true ↔ vault.isDepositor d = true ∨ d = depositor := by
  unfold AuditVault.State.sponsorship AuditVault.Sponsorship.add at h
  split_ifs at h with hnew
  · simp only [AuditVault.Sponsorship.mk.injEq] at h
    obtain ⟨hinitialized, -, hdepositors, hflags⟩ := h
    have hfresh : depositor ∉ vault.depositors := fun hmem => by
      simp [(hlisted depositor).mp hmem] at hnew
    have hadd : ∀ d, vault'.isDepositor d = true ↔ vault.isDepositor d = true ∨ d = depositor := by
      intro d
      rw [hflags, Function.update_apply]
      split_ifs with hd <;> simp [hd]
    refine ⟨hinitialized, ?_, fun d => ?_, hadd⟩
    · rw [hdepositors, List.nodup_append_comm]
      exact List.nodup_cons.mpr ⟨hfresh, hnodup⟩
    · rw [hadd, hdepositors, List.mem_append, List.mem_singleton, hlisted]
  · simp only [AuditVault.Sponsorship.mk.injEq] at h
    obtain ⟨hinitialized, -, hdepositors, hflags⟩ := h
    refine ⟨hinitialized, by rw [hdepositors]; exact hnodup, fun d => by rw [hdepositors, hflags]; exact hlisted d,
      fun d => ?_⟩
    rw [hflags, iff_self_or]
    rintro rfl
    simpa using hnew

/-- A call keeps the registry. -/
theorem Registered.step {c : Call} (h : Registered s) (hsender : s.vaults env.sender = none)
    (heffect : Effect predictVaultAddress this env s c s') : Registered s' := by
  cases heffect with
  | @created contractAddress _ _ vault hcontract hzero hfree hvault =>
    have hnew : predictVaultAddress contractAddress ∉ s.registry.allVaults := by
      rw [h.listed, h.deployed, hfree]
      exact Bool.false_ne_true
    refine ⟨?_, fun v => ?_, fun c hc => ?_, fun v hv => h.addVault hcontract hzero hfree v hv, ?_, fun v => ?_,
      h.flagged.push _ _, fun v vault' hv => ?_⟩
    · change (s.registry.allVaults ++ [predictVaultAddress contractAddress]).Nodup
      rw [List.nodup_append_comm]
      exact List.nodup_cons.mpr ⟨hnew, h.nodup⟩
    · change v ∈ s.registry.allVaults ++ [predictVaultAddress contractAddress] ↔
        Function.update s.registry.isVault (predictVaultAddress contractAddress) true v = true
      rw [List.mem_append, List.mem_singleton, h.listed, Function.update_apply]
      split_ifs with hv <;> simp [hv]
    · change Function.update s.registry.isVault (predictVaultAddress contractAddress) true
        (Function.update s.registry.vaultFor contractAddress (predictVaultAddress contractAddress) c) = true
      change Function.update s.registry.vaultFor contractAddress (predictVaultAddress contractAddress) c ≠ 0 at hc
      rcases eq_or_ne c contractAddress with rfl | hother
      · rw [Function.update_self, Function.update_self]
      · rw [Function.update_of_ne hother] at hc ⊢
        rw [Function.update_apply]
        split_ifs
        · rfl
        · exact h.covers c hc
    · change Function.update s.registry.isVault (predictVaultAddress contractAddress) true 0 = false
      rw [Function.update_of_ne hzero.symm]
      exact h.nonzero
    · change Function.update s.registry.isVault (predictVaultAddress contractAddress) true v = true ↔
        (Function.update s.vaults (predictVaultAddress contractAddress) (some vault) v).isSome = true
      rw [Function.update_apply, Function.update_apply]
      split_ifs
      · simp
      · exact h.deployed v
    · change Function.update s.vaults (predictVaultAddress contractAddress) (some vault) v = some vault' at hv
      rw [Function.update_apply] at hv
      split_ifs at hv
      · obtain rfl := Option.some.inj hv
        simp only [AuditVault.State.sponsorship, AuditVault.Sponsorship.mk.injEq] at hvault
        obtain ⟨hinitialized, -, hdepositors, hflags⟩ := hvault
        refine ⟨hinitialized, by rw [hdepositors]; exact List.nodup_nil, fun d => by simp [hdepositors, hflags]⟩
      · exact h.vault v vault' hv
  | @called vaultAddress c vault vault' hvault hvault' =>
    obtain ⟨hinitialized, hnodup, hlisted⟩ := h.vault vaultAddress vault hvault
    have hvault' := hvault' hinitialized
    have hafter : vault'.initialized = true ∧ vault'.depositors.Nodup ∧
        ∀ d, d ∈ vault'.depositors ↔ vault'.isDepositor d = true := by
      split_ifs at hvault'
      · obtain ⟨hsame, hnodup', hlisted', -⟩ := listed_add hvault' hnodup hlisted
        exact ⟨hsame.trans hinitialized, hnodup', hlisted'⟩
      · simp only [AuditVault.State.sponsorship, AuditVault.Sponsorship.mk.injEq] at hvault'
        obtain ⟨hsame, -, hdepositors, hflags⟩ := hvault'
        rw [hsame, hdepositors, hflags]
        exact ⟨hinitialized, hnodup, hlisted⟩
    have hdeployed : ∀ v, s.registry.isVault v = true ↔
        (Function.update s.vaults vaultAddress (some vault') v).isSome = true := by
      intro v
      rw [h.deployed, Function.update_apply]
      split_ifs with hv
      · rw [hv, hvault, Option.isSome_some, Option.isSome_some]
      · exact Iff.rfl
    have hvaults : ∀ v vault'', Function.update s.vaults vaultAddress (some vault') v = some vault'' →
        vault''.initialized = true ∧ vault''.depositors.Nodup ∧
          ∀ d, d ∈ vault''.depositors ↔ vault''.isDepositor d = true := by
      intro v vault'' hv
      rw [Function.update_apply] at hv
      split_ifs at hv
      · obtain rfl := Option.some.inj hv
        exact hafter
      · exact h.vault v vault'' hv
    by_cases hfirst : firstDeposit env vault c = true
    · rw [if_pos hfirst]
      exact ⟨h.nodup, h.listed, h.covers, h.covered, h.nonzero, hdeployed, h.flagged.push _ _, hvaults⟩
    · rw [if_neg hfirst]
      exact ⟨h.nodup, h.listed, h.covers, h.covered, h.nonzero, hdeployed, h.flagged, hvaults⟩
  | @kept c r hindex =>
    have hnone : s.registry.isVault env.sender = false := by
      rw [← Bool.not_eq_true, h.deployed, hsender]
      exact Bool.false_ne_true
    have hindex := hindex hnone
    simp only [Registry.index, Prod.mk.injEq] at hindex
    obtain ⟨hvaultFor, hallVaults, hisVault, hdepositorVaults, hflags⟩ := hindex
    constructor
    · exact hallVaults ▸ h.nodup
    · simpa only [hallVaults, hisVault] using h.listed
    · simpa only [hvaultFor, hisVault] using h.covers
    · simpa only [hvaultFor, hisVault] using h.covered
    · simpa only [hisVault] using h.nonzero
    · simpa only [hisVault] using h.deployed
    · simpa only [hdepositorVaults, hflags] using h.flagged
    · exact h.vault

theorem registered (hw : (contract predictVaultAddress this).system.Reachable w) : Registered w.state := by
  induction hw with
  | init h =>
    obtain ⟨owner, guardToken, agentRegistry, -, hstate⟩ := h
    rw [hstate]
    exact .deployment owner guardToken agentRegistry
  | step hs h ih =>
    cases h with
    | call _ _ _ hexec =>
      obtain ⟨hsender, heffect⟩ := exec_effect hexec
      exact ih.step hsender heffect
    | elsewhere _ _ => exact ih

/-! ## The history -/

/-- The step creates the vault `v`, as `d`. -/
def Creates (predictVaultAddress : Address → Address) (d v : Address) (l : Label Env Call) : Prop :=
  ∃ env contractAddress contractChain config,
    l = .call env (.createVault contractAddress contractChain config) ∧ env.sender = d ∧
      predictVaultAddress contractAddress = v

/-- The step deposits into the vault `v`, as `d`. -/
def Deposits (d v : Address) (l : Label Env Call) : Prop :=
  ∃ env amount, l = .call env (.callVault v (.deposit amount)) ∧ env.sender = d

/-- Some step of a run is of a kind. -/
def Occurred (P : Label Env Call → Prop) (ts : List (Transition (World State) (Label Env Call))) : Prop :=
  ∃ tr ∈ ts, P tr.label

theorem occurred_snoc {P : Label Env Call → Prop} {ts : List (Transition (World State) (Label Env Call))}
    {tr : Transition (World State) (Label Env Call)} : Occurred P (ts ++ [tr]) ↔ Occurred P ts ∨ P tr.label := by
  simp [Occurred, or_and_right, exists_or]

theorem deposits_callVault {d v vaultAddress : Address} {c : AuditVault.Call} :
    Deposits d v (.call env (.callVault vaultAddress c)) ↔ c.isDeposit = true ∧ v = vaultAddress ∧ d = env.sender := by
  constructor
  · rintro ⟨env', amount, heq, rfl⟩
    obtain ⟨rfl, hcall⟩ := Label.call.inj heq
    obtain ⟨rfl, rfl⟩ := Call.callVault.inj hcall
    exact ⟨rfl, rfl, rfl⟩
  · rintro ⟨hdeposit, rfl, rfl⟩
    cases c with
    | deposit amount => exact ⟨env, amount, rfl, rfl⟩
    | _ => cases hdeposit

theorem not_deposits_createVault {d v contractAddress : Address} {contractChain : String}
    {config : AuditVault.VaultConfig} :
    ¬ Deposits d v (.call env (.createVault contractAddress contractChain config)) := by
  rintro ⟨env', amount, heq, -⟩
  cases heq

theorem creates_createVault {d v contractAddress : Address} {contractChain : String}
    {config : AuditVault.VaultConfig} :
    Creates predictVaultAddress d v (.call env (.createVault contractAddress contractChain config)) ↔
      v = predictVaultAddress contractAddress ∧ d = env.sender := by
  constructor
  · rintro ⟨env', contractAddress', contractChain', config', heq, rfl, rfl⟩
    obtain ⟨rfl, hcall⟩ := Label.call.inj heq
    obtain ⟨rfl, rfl, rfl⟩ := Call.createVault.inj hcall
    exact ⟨rfl, rfl⟩
  · rintro ⟨rfl, rfl⟩
    exact ⟨env, contractAddress, contractChain, config, rfl, rfl, rfl⟩

theorem not_creates_callVault {d v vaultAddress : Address} {c : AuditVault.Call} :
    ¬ Creates predictVaultAddress d v (.call env (.callVault vaultAddress c)) := by
  rintro ⟨env', contractAddress, contractChain, config, heq, -⟩
  cases heq

/-- What is listed is what has happened. -/
structure Sponsored (predictVaultAddress : Address → Address)
    (ts : List (Transition (World State) (Label Env Call))) (s : State) : Prop where
  vault : ∀ v vault, s.vaults v = some vault → ∀ d, vault.isDepositor d = true ↔ Occurred (Deposits d v) ts
  fresh : ∀ v, s.vaults v = none → ∀ d, ¬ Occurred (Deposits d v) ts
  index : ∀ d v, v ∈ s.registry.depositorVaults d ↔
    Occurred (Creates predictVaultAddress d v) ts ∨ Occurred (Deposits d v) ts

theorem firstDeposit_iff {vault : AuditVault.State} {c : AuditVault.Call} :
    firstDeposit env vault c = true ↔ c.isDeposit = true ∧ vault.isDepositor env.sender = false := by
  cases c <;> simp [firstDeposit, AuditVault.Call.isDeposit]

/-- A call is listed as it happens. -/
theorem Sponsored.step {ts : List (Transition (World State) (Label Env Call))} {c : Call} (hs : Registered s)
    (h : Sponsored predictVaultAddress ts s) (heffect : Effect predictVaultAddress this env s c s')
    {tr : Transition (World State) (Label Env Call)} (htr : tr.label = .call env c)
    (hsender : s.vaults env.sender = none) : Sponsored predictVaultAddress (ts ++ [tr]) s' := by
  cases heffect with
  | @created contractAddress _ _ vault hcontract hzero hfree hvault =>
    refine ⟨fun v vault' hv d => ?_, fun v hv d => ?_, fun d v => ?_⟩
    · rw [occurred_snoc, htr, or_iff_left not_deposits_createVault]
      change Function.update s.vaults (predictVaultAddress contractAddress) (some vault) v = some vault' at hv
      rw [Function.update_apply] at hv
      split_ifs at hv with hnew
      · -- Nobody has deposited into a vault that was not there.
        obtain rfl := Option.some.inj hv
        simp only [AuditVault.State.sponsorship, AuditVault.Sponsorship.mk.injEq] at hvault
        rw [hvault.2.2.2, hnew]
        exact iff_of_false Bool.false_ne_true (h.fresh _ hfree d)
      · exact h.vault v vault' hv d
    · rw [occurred_snoc, htr, or_iff_left not_deposits_createVault]
      change Function.update s.vaults (predictVaultAddress contractAddress) (some vault) v = none at hv
      rw [Function.update_apply] at hv
      split_ifs at hv
      exact h.fresh v hv d
    · rw [occurred_snoc, occurred_snoc, htr, or_iff_left (a := Occurred _ ts) not_deposits_createVault,
        creates_createVault]
      have hpush := hs.flagged.mem_push env.sender (predictVaultAddress contractAddress) d v
      refine hpush.trans ?_
      rw [h.index]
      tauto
  | @called vaultAddress c vault vault' hvault hvault' =>
    obtain ⟨hinitialized, hnodup, hlisted⟩ := hs.vault vaultAddress vault hvault
    have hvault' := hvault' hinitialized
    have hflags : ∀ d, vault'.isDepositor d = true ↔
        vault.isDepositor d = true ∨ c.isDeposit = true ∧ d = env.sender := by
      intro d
      split_ifs at hvault' with hdeposit
      · obtain ⟨-, -, -, hadd⟩ := listed_add hvault' hnodup hlisted
        rw [hadd, hdeposit]
        simp
      · simp only [AuditVault.State.sponsorship, AuditVault.Sponsorship.mk.injEq] at hvault'
        rw [hvault'.2.2.2]
        simp [hdeposit]
    refine ⟨fun v vault'' hv d => ?_, fun v hv d => ?_, fun d v => ?_⟩
    · rw [occurred_snoc, htr, deposits_callVault]
      dsimp only at hv
      rw [Function.update_apply] at hv
      split_ifs at hv with hsame
      · obtain rfl := Option.some.inj hv
        rw [hflags, h.vault vaultAddress vault hvault, hsame]
        simp
      · rw [h.vault v vault'' hv]
        simp [hsame]
    · rw [occurred_snoc, htr, deposits_callVault]
      dsimp only at hv
      rw [Function.update_apply] at hv
      split_ifs at hv with hsame
      have hfresh := h.fresh v hv d
      tauto
    · rw [occurred_snoc, occurred_snoc, htr, or_iff_left (a := Occurred (Creates _ d v) ts) not_creates_callVault,
        deposits_callVault]
      have hold := h.vault vaultAddress vault hvault
      by_cases hfirst : firstDeposit env vault c = true
      · rw [if_pos hfirst]
        have hpush := hs.flagged.mem_push env.sender vaultAddress d v
        refine hpush.trans ?_
        rw [h.index, (firstDeposit_iff.mp hfirst).1]
        tauto
      · -- The sender has deposited before, and is listed.
        rw [if_neg hfirst, h.index]
        have hbefore : c.isDeposit = true ∧ v = vaultAddress ∧ d = env.sender → Occurred (Deposits d v) ts := by
          rintro ⟨hdeposit, rfl, rfl⟩
          rw [← hold]
          by_contra hno
          exact hfirst (firstDeposit_iff.mpr ⟨hdeposit, by simpa using hno⟩)
        tauto
  | @kept c r hindex =>
    have hnone : s.registry.isVault env.sender = false := by
      rw [← Bool.not_eq_true, hs.deployed, hsender]
      exact Bool.false_ne_true
    have hdeposits : ∀ d v, ¬ Deposits d v tr.label := by
      rintro d v ⟨env', amount, heq, -⟩
      rw [htr] at heq
      cases heq
    have hcreates : ∀ d v, ¬ Creates predictVaultAddress d v tr.label := by
      rintro d v ⟨env', _, _, _, heq, -⟩
      rw [htr] at heq
      cases heq
    have hindex := hindex hnone
    simp only [Registry.index, Prod.mk.injEq] at hindex
    refine ⟨fun v vault hv d => ?_, fun v hv d => ?_, fun d v => ?_⟩
    · rw [occurred_snoc, or_iff_left (hdeposits d v)]
      exact h.vault v vault hv d
    · rw [occurred_snoc, or_iff_left (hdeposits d v)]
      exact h.fresh v hv d
    · rw [occurred_snoc, occurred_snoc, or_iff_left (hdeposits d v), or_iff_left (hcreates d v), hindex.2.2.2.1]
      exact h.index d v

theorem sponsored {ts : List (Transition (World State) (Label Env Call))}
    (hr : (contract predictVaultAddress this).system.Run ts w) : Sponsored predictVaultAddress ts w.state := by
  induction hr with
  | init h =>
    obtain ⟨owner, guardToken, agentRegistry, -, hstate⟩ := h
    rw [hstate]
    exact ⟨fun v vault hv => by simp [State.deployed] at hv, fun v _ d h => by simp [Occurred] at h,
      fun d v => by simp [State.deployed, Occurred]⟩
  | step hr h ih =>
    have hregistered := registered hr.reachable
    cases h with
    | call _ _ _ hexec =>
      obtain ⟨hsender, heffect⟩ := exec_effect hexec
      exact ih.step hregistered heffect rfl hsender
    | elsewhere _ _ =>
      have hdeposits : ∀ d v token now, ¬ Deposits d v (.elsewhere token now) := by
        rintro d v token now ⟨_, _, heq, -⟩
        cases heq
      have hcreates : ∀ d v token now, ¬ Creates predictVaultAddress d v (.elsewhere token now) := by
        rintro d v token now ⟨_, _, _, _, heq, -⟩
        cases heq
      refine ⟨fun v vault hv d => ?_, fun v hv d => ?_, fun d v => ?_⟩
      · rw [occurred_snoc, or_iff_left (hdeposits d v _ _)]
        exact ih.vault v vault hv d
      · rw [occurred_snoc, or_iff_left (hdeposits d v _ _)]
        exact ih.fresh v hv d
      · rw [occurred_snoc, occurred_snoc, or_iff_left (hdeposits d v _ _), or_iff_left (hcreates d v _ _)]
        exact ih.index d v

/-- In every run, the factory lists a vault under those who created it or deposited into it, once each, and every vault
lists those who deposited into it, once each. -/
theorem sponsors_exact {ts : List (Transition (World State) (Label Env Call))}
    (hr : (contract predictVaultAddress this).system.Run ts w) :
    (∀ d v, Occurred (Creates predictVaultAddress d v) ts ∨ Occurred (Deposits d v) ts →
      (w.state.registry.depositorVaults d).count v = 1) ∧
    (∀ d v, ¬ (Occurred (Creates predictVaultAddress d v) ts ∨ Occurred (Deposits d v) ts) →
      (w.state.registry.depositorVaults d).count v = 0) ∧
    ∀ v vault, w.state.vaults v = some vault →
      vault.depositors.Nodup ∧ ∀ d, d ∈ vault.depositors ↔ Occurred (Deposits d v) ts := by
  have hregistered := registered hr.reachable
  have hsponsored := sponsored hr
  refine ⟨fun d v hyes => ?_, fun d v hno => ?_, fun v vault hv => ?_⟩
  · exact List.count_eq_one_of_mem (hregistered.flagged.nodup d) ((hsponsored.index d v).mpr hyes)
  · exact List.count_eq_zero_of_not_mem (mt (hsponsored.index d v).mp hno)
  · obtain ⟨-, hnodup, hlisted⟩ := hregistered.vault v vault hv
    exact ⟨hnodup, fun d => (hlisted d).trans (hsponsored.vault v vault hv d)⟩

theorem trace_labels {C : Contract State Env Call} {calls : List (Env × Call)}
    {ts : List (Transition (World State) (Label Env Call))} (h : C.trace calls w = .ok ts) :
    ts.map Transition.label = calls.map fun call => .call call.1 call.2 := by
  induction calls generalizing w ts with
  | nil =>
    rw [Contract.trace, pure_eq_ok] at h
    rw [← h]
    rfl
  | cons call calls ih =>
    simp only [Contract.trace, bind_eq_ok, pure_eq_ok] at h
    obtain ⟨w₁, -, ts', hts', rfl⟩ := h
    rw [List.map_cons, List.map_cons, ih hts']

/-- The factory at its deployment. -/
def sampleWorld : World State where
  state := State.deployed 1 7 6
  token := Ledger.single 2 (10^12) TokenLedger.trillion_lt
  now := 0

/-- Where the vault of a contract is deployed. -/
def samplePredict (contractAddress : Address) : Address := if contractAddress = 4 then 5 else 8

/-- A call at an address that is free. -/
def sampleEnv (sender : Address) : Env where
  toEnv := AuditVault.sampleEnv sender 0
  occupied := fun _ => false

/-- The account 2 sponsors the vault of 3 twice. -/
def sampleCalls : List (Env × Call) :=
  [(sampleEnv 3, .createVault 4 "hedera-testnet" AuditVault.sampleConfig),
    (sampleEnv 2, .callVault 5 (.deposit (10^9))), (sampleEnv 2, .callVault 5 (.deposit (10^9)))]

theorem sample_run : ∃ ts w, (contract samplePredict 9).system.Run ts w ∧
    (contract samplePredict 9).trace sampleCalls sampleWorld = .ok ts := by
  have hfresh : (contract samplePredict 9).fresh sampleWorld.state := ⟨1, 7, 6, by decide, rfl⟩
  have hs : (contract samplePredict 9).Scheduled sampleWorld.now sampleCalls := by decide +kernel
  have hok : ((contract samplePredict 9).execAll sampleCalls sampleWorld).isOk = true := by decide +kernel
  obtain ⟨ts, w, -, hr, htrace⟩ := Contract.exists_run hfresh hs hok
  exact ⟨ts, w, hr, htrace⟩

/-- The factory lists the vault once under each of the two. -/
theorem sponsors_exact_sample : ∃ ts w, (contract samplePredict 9).system.Run ts w ∧
    (w.state.registry.depositorVaults 3).count 5 = 1 ∧ (w.state.registry.depositorVaults 2).count 5 = 1 := by
  obtain ⟨ts, w, hr, htrace⟩ := sample_run
  have hlabels := trace_labels htrace
  have hlabel : ∀ l ∈ sampleCalls.map (fun call => Label.call call.1 call.2), ∃ tr ∈ ts, tr.label = l := by
    intro l hl
    rw [← hlabels] at hl
    exact List.mem_map.mp hl
  obtain ⟨tr, htr, hcreate⟩ := hlabel _ (.head _)
  obtain ⟨tr', htr', hdeposit⟩ := hlabel _ (.tail _ (.head _))
  obtain ⟨hyes, -, -⟩ := sponsors_exact hr
  refine ⟨ts, w, hr, hyes 3 5 (.inl ⟨tr, htr, ?_⟩), hyes 2 5 (.inr ⟨tr', htr', ?_⟩)⟩
  · exact ⟨sampleEnv 3, 4, "hedera-testnet", AuditVault.sampleConfig, hcreate, rfl, by decide⟩
  · exact ⟨sampleEnv 2, 10^9, hdeposit, rfl⟩

theorem registry_exact (hw : (contract predictVaultAddress this).system.Reachable w) :
    w.state.registry.allVaults.Nodup ∧
      (∀ v, v ∈ w.state.registry.allVaults ↔ w.state.registry.isVault v = true) ∧
      ∀ v, w.state.registry.isVault v = true → ∃! c, w.state.registry.vaultFor c = v := by
  have hregistered := registered hw
  exact ⟨hregistered.nodup, hregistered.listed, hregistered.covered⟩

end AuditGuard.VaultFactory
