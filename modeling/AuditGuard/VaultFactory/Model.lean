import AuditGuard.AuditVault.System
import AuditGuard.Library.Listed

/-!
# VaultFactory: the registry and its vaults

The storage of `VaultFactory.sol` together with that of the vaults that it has created, under all calls of either by all
callers. A vault calls the factory back from `deposit`, and when it triggers an audit. The factory answers on its own
storage, which the vault does not read, so that the callback may be taken after the vault's own part. The events of the
factory are left out, and so are the functions that only read, but for `getVaultsByPriority`.
-/

namespace AuditGuard.VaultFactory

open Evm
open AuditVault (VaultConfig)

/-- The storage of the factory. -/
structure Registry where
  owner : Address
  guardToken : Address
  agentRegistry : Address
  /-- The contracts that draw from the vaults, zero where one is not set. -/
  auctionContract : Address
  paymentSettlement : Address
  /-- The vault of a covered contract, zero if there is none. -/
  vaultFor : Address → Address
  allVaults : List Address
  depositorVaults : Address → List Address
  isVault : Address → Bool
  depositorHasVault : Address × Address → Bool

/-- The storage of the factory and of its vaults. -/
structure State where
  registry : Registry
  vaults : Address → Option AuditVault.State

/-- What a call reads from outside: what a vault reads, and which other accounts have code. -/
structure Env extends AuditVault.Env where
  occupied : Address → Bool

/-- The storage after deployment. -/
def State.deployed (owner guardToken agentRegistry : Address) : State where
  registry := {
    owner := owner
    guardToken := guardToken
    agentRegistry := agentRegistry
    auctionContract := 0
    paymentSettlement := 0
    vaultFor := fun _ => 0
    allVaults := []
    depositorVaults := fun _ => []
    isVault := fun _ => false
    depositorHasVault := fun _ => false }
  vaults := fun _ => none

/-- The modifier `onlyOwner`. -/
def onlyOwner (env : Env) (r : Registry) : Tx Unit :=
  modifier (env.sender = r.owner) "OwnableUnauthorizedAccount"

/-- Lists a vault under a depositor, unless it is listed there already. -/
def Registry.addDepositorVault (r : Registry) (depositor vault : Address) : Registry :=
  { r with
    depositorVaults := (PushOnce.push r.depositorVaults r.depositorHasVault depositor vault).1
    depositorHasVault := (PushOnce.push r.depositorVaults r.depositorHasVault depositor vault).2 }

/-- `registerDepositor`, called by `sender`. -/
def registerDepositor (sender depositor vault : Address) (r : Registry) : Tx Registry := do
  require (r.isVault sender = true) "VaultFactory: caller is not a vault"
  require (sender = vault) "VaultFactory: vault mismatch"
  pure (r.addDepositorVault depositor vault)

/-- `onAutoAuditTriggered`, called by `sender`. -/
def onAutoAuditTriggered (sender : Address) (r : Registry) : Tx Registry := do
  require (r.isVault sender = true) "VaultFactory: caller is not a vault"
  pure r

/-- The contracts that may draw from a new vault. -/
def Registry.drawers (r : Registry) : List Address :=
  [r.auctionContract, r.paymentSettlement].filter fun drawer => drawer ≠ 0

section

-- The address that CREATE2 gives the vault of a contract, and the address of the factory.
variable (predictVaultAddress : Address → Address) (this : Address) (env : Env)

/-- The deployment with CREATE2, which fails where there is code already. -/
def deployVault (vaultAddress : Address) (s : State) : Tx AuditVault.State :=
  if vaultAddress = 0 ∨ env.occupied vaultAddress = true ∨ (s.vaults vaultAddress).isSome = true then .error .callFailed
  else .ok AuditVault.State.blank

/-- `associateGuardToken` of a vault, of which a failure is caught. -/
def tryAssociate (vault : AuditVault.State) : AuditVault.State :=
  match AuditVault.associateGuardToken env.toEnv vault with
  | .ok vault => vault
  | .error _ => vault

/-- `createVault`. -/
def createVault (contractAddress : Address) (contractChain : String) (config : VaultConfig) (s : State) :
    Tx State := do
  require (contractAddress ≠ 0) "VaultFactory: contract address is zero"
  require (s.registry.vaultFor contractAddress = 0) "VaultFactory: vault already exists"
  let vaultAddress := predictVaultAddress contractAddress
  let vault ← deployVault env vaultAddress s
  let vault ← AuditVault.initializeVault { env.toEnv with sender := this } contractAddress contractChain env.sender
    s.registry.guardToken s.registry.agentRegistry config s.registry.drawers vault
  let registry := { s.registry with
    vaultFor := Function.update s.registry.vaultFor contractAddress vaultAddress
    allVaults := s.registry.allVaults ++ [vaultAddress]
    isVault := Function.update s.registry.isVault vaultAddress true }
  pure {
    registry := registry.addDepositorVault env.sender vaultAddress
    vaults := Function.update s.vaults vaultAddress (some (tryAssociate env vault)) }

/-- The call of a vault is the first deposit of its sender there. -/
def firstDeposit (vault : AuditVault.State) : AuditVault.Call → Bool
  | .deposit _ => !vault.isDepositor env.sender
  | _ => false

/-- The callback of a first deposit. -/
def notifyFactory (vaultAddress : Address) (vault : AuditVault.State) (c : AuditVault.Call) (r : Registry) : Tx Registry :=
  if firstDeposit env vault c = true then registerDepositor vaultAddress env.sender vaultAddress r else pure r

/-- A call of the vault at `vaultAddress`, with the callback to the factory. -/
def callVault (vaultAddress : Address) (c : AuditVault.Call) (w : World State) : Tx (World State) := do
  let vault ← orRevert .callFailed (w.state.vaults vaultAddress)
  let factoryAccepts := decide (vault.factory = this) && w.state.registry.isVault vaultAddress
  let w' ← AuditVault.exec vaultAddress { env.toEnv with factoryAccepts := factoryAccepts } c ⟨vault, w.token, w.now⟩
  let registry ← notifyFactory env vaultAddress vault c w.state.registry
  pure {
    state := ⟨registry, Function.update w.state.vaults vaultAddress (some w'.state)⟩
    token := w'.token
    now := w'.now }

/-- The functions that change the storage of the factory alone. -/
inductive RegistryCall
  | registerDepositor (depositor vault : Address)
  | onAutoAuditTriggered (contractAddress : Address) (reason : String)
  | setAuctionContract (auctionContract : Address)
  | setPaymentSettlement (paymentSettlement : Address)
  | setAgentRegistry (agentRegistry : Address)
  | associateGuardToken
  | transferOwnership (newOwner : Address)
  | renounceOwnership

/-- One of them. -/
def execRegistry (c : RegistryCall) (r : Registry) : Tx Registry :=
  match c with
  | .registerDepositor depositor vault => registerDepositor env.sender depositor vault r
  | .onAutoAuditTriggered _ _ => onAutoAuditTriggered env.sender r
  | .setAuctionContract auctionContract => do
    onlyOwner env r
    require (auctionContract ≠ 0) "VaultFactory: address is zero"
    pure { r with auctionContract := auctionContract }
  | .setPaymentSettlement paymentSettlement => do
    onlyOwner env r
    require (paymentSettlement ≠ 0) "VaultFactory: address is zero"
    pure { r with paymentSettlement := paymentSettlement }
  | .setAgentRegistry agentRegistry => do
    onlyOwner env r
    require (agentRegistry ≠ 0) "VaultFactory: address is zero"
    pure { r with agentRegistry := agentRegistry }
  | .associateGuardToken => do
    onlyOwner env r
    require (env.associateAnswer = Hts.HTS_SUCCESS ∨ env.associateAnswer = Hts.HTS_TOKEN_ALREADY_ASSOCIATED)
      "VaultFactory: token association failed"
    pure r
  | .transferOwnership newOwner => do
    onlyOwner env r
    modifier (newOwner ≠ 0) "OwnableInvalidOwner"
    pure { r with owner := newOwner }
  | .renounceOwnership => do
    onlyOwner env r
    pure { r with owner := 0 }

/-- The calls of the factory and of its vaults. -/
inductive Call
  | createVault (contractAddress : Address) (contractChain : String) (config : VaultConfig)
  | callVault (vaultAddress : Address) (c : AuditVault.Call)
  | registry (c : RegistryCall)

/-- One call. No function is payable, and a vault sends no message but those of its functions. -/
def exec (c : Call) (w : World State) : Tx (World State) :=
  if env.value ≠ 0 ∨ (w.state.vaults env.sender).isSome = true then .error .callFailed
  else match c with
  | .createVault contractAddress contractChain config =>
    onState (createVault predictVaultAddress this env contractAddress contractChain config) w
  | .callVault vaultAddress c => callVault this env vaultAddress c w
  | .registry c => onState (fun s => do
    let registry ← execRegistry env c s.registry
    pure { s with registry := registry }) w

end

/-- The factory at the address `this`, with its vaults. -/
def contract (predictVaultAddress : Address → Address) (this : Address) : Contract State Env Call where
  this := this
  fresh s := ∃ owner guardToken agentRegistry, guardToken ≠ 0 ∧ s = State.deployed owner guardToken agentRegistry
  msg env := env.toMsg
  exec := exec predictVaultAddress this

end AuditGuard.VaultFactory
