import AuditGuard.Library.SelectionSort
import AuditGuard.VaultFactory.Sponsors

/-!
# VaultFactory: vaults by priority

`getVaultsByPriority` sorts the vaults by descending balance, with the balances in an array of their own
(`vaults_by_priority`).
-/

namespace AuditGuard.VaultFactory

open Evm

/-- `getVaultsByPriority`, of the registered vaults and what they answer to `currentBalance`. -/
def getVaultsByPriority (allVaults : List Address) (currentBalance : Address → ℕ) : Array Address × Array ℕ :=
  let vaults := allVaults.toArray
  let balances := vaults.map currentBalance
  SelectionSort.sort vaults.size (vaults, balances)

/-- What a vault answers to `currentBalance`. -/
def State.currentBalance (s : State) (vault : Address) : ℕ :=
  ((s.vaults vault).map AuditVault.State.currentBalance).getD 0

/-- The arrays are of one length, the vaults are those registered, each with its balance, and no balance is followed by a
greater one. -/
structure ByPriority (allVaults : List Address) (currentBalance : Address → ℕ) (vaults : Array Address)
    (balances : Array ℕ) : Prop where
  size : balances.size = vaults.size
  perm : vaults.toList.Perm allVaults
  balance : ∀ (i : ℕ) vault, vaults[i]? = some vault → balances[i]? = some (currentBalance vault)
  descending : balances.toList.Pairwise fun a b => b ≤ a

theorem getVaultsByPriority_sorted (allVaults : List Address) (currentBalance : Address → ℕ) :
    ByPriority allVaults currentBalance (getVaultsByPriority allVaults currentBalance).1
      (getVaultsByPriority allVaults currentBalance).2 := by
  have haligned : (getVaultsByPriority allVaults currentBalance).2 =
      (getVaultsByPriority allVaults currentBalance).1.map currentBalance := SelectionSort.sort_aligned _ _
  refine ⟨?_, ?_, fun i vault hi => ?_, SelectionSort.sort_descending _ _⟩
  · rw [haligned, Array.size_map]
  · exact Array.perm_iff_toList_perm.mp (SelectionSort.sort_perm currentBalance allVaults.toArray)
  · rw [haligned, Array.getElem?_map, hi, Option.map_some]

/-- For any vaults and balances, the vaults are sorted; and in every reachable state, the registry lists every vault
once, and each is the vault of exactly one contract. -/
theorem vaults_by_priority (predictVaultAddress : Address → Address) (this : Address) :
    (∀ allVaults currentBalance, ByPriority allVaults currentBalance
      (getVaultsByPriority allVaults currentBalance).1 (getVaultsByPriority allVaults currentBalance).2) ∧
    ∀ w, (contract predictVaultAddress this).system.Reachable w → w.state.registry.allVaults.Nodup ∧
      (∀ v, v ∈ w.state.registry.allVaults ↔ w.state.registry.isVault v = true) ∧
      ∀ v, w.state.registry.isVault v = true → ∃! c, w.state.registry.vaultFor c = v :=
  ⟨getVaultsByPriority_sorted, fun _ hw => registry_exact hw⟩

/-- Three vaults, of which the last two have the same balance. -/
example : getVaultsByPriority [5, 6, 8] (fun v => if v = 5 then 10 else 20) = (#[6, 8, 5], #[20, 20, 10]) := by
  decide +kernel

/-- The factory after two deposits. -/
theorem vaults_by_priority_sample : ∃ w, (contract samplePredict 9).system.Reachable w ∧
    w.state.registry.allVaults.Nodup ∧
    ByPriority w.state.registry.allVaults w.state.currentBalance
      (getVaultsByPriority w.state.registry.allVaults w.state.currentBalance).1
      (getVaultsByPriority w.state.registry.allVaults w.state.currentBalance).2 := by
  obtain ⟨ts, w, hr, -⟩ := sample_run
  obtain ⟨hsorted, hregistry⟩ := vaults_by_priority samplePredict 9
  exact ⟨w, hr.reachable, (hregistry w hr.reachable).1, hsorted _ _⟩

end AuditGuard.VaultFactory
