import AuditGuard.AgentRegistry.System

/-!
# AgentRegistry: what a finished job does to the reputation

`recordJobCompletion` multiplies the counts as `uint256`, converts the products to `int256` without a check, and clamps
the sum to the range of reputations. Where a product has the highest bit, the conversion takes `2^256` from it. The new
reputation is the clamped sum over the integers exactly if these losses cancel, or leave a sum that is not positive
anyhow (`reputation_eq_iff`).
-/

namespace AuditGuard.AgentRegistry

open Evm

/-- The score of a job over the integers, within the range of reputations. -/
def scored (reputation validFindings falsePos falseNeg : ℕ) : ℤ :=
  max 0 (min 10000 (reputation + 50 * validFindings - 100 * falsePos - 200 * falseNeg))

/-- How often `int256` takes `2^256` from a product. -/
def wraps (product : ℕ) : ℤ := if product < 2^255 then 0 else 1

/-- What the conversions of the three products add to the sum, in multiples of `2^256`. -/
def surplus (validFindings falsePos falseNeg : ℕ) : ℤ :=
  wraps (falsePos * 100) + wraps (falseNeg * 200) - wraps (validFindings * 50)

/-- Nothing is added, or so little that the sum is still not positive. -/
def Harmless (reputation validFindings falsePos falseNeg : ℕ) : Prop :=
  surplus validFindings falsePos falseNeg = 0 ∨ 0 < surplus validFindings falsePos falseNeg ∧
    reputation + 50 * validFindings - 100 * falsePos - 200 * falseNeg +
      surplus validFindings falsePos falseNeg * 2^256 ≤ (0 : ℤ)

variable {env : Env} {agent : Address} {s s' : State} {a b c r : ℕ}

theorem toSigned_eq (h : a < 2^256) : toSigned 256 a = a - wraps a * 2^256 := by
  unfold toSigned wraps
  rw [Int.bmod_def]
  split_ifs <;> omega

theorem clampReputation_eq (z : ℤ) : clampReputation z = max 0 (min 10000 z) := by
  unfold clampReputation
  split_ifs <;> omega

theorem recordJobCompletion_score (hr : (s.agents agent).reputationScore ≤ 10000)
    (h : recordJobCompletion env agent a b c s = .ok s') :
    a * 50 < 2^256 ∧ b * 100 < 2^256 ∧ c * 200 < 2^256 ∧
      toSigned 256 (a * 50) - toSigned 256 (b * 100) < 2^255 ∧
      -2^255 ≤ toSigned 256 (a * 50) - toSigned 256 (b * 100) - toSigned 256 (c * 200) ∧
      toSigned 256 (a * 50) - toSigned 256 (b * 100) - toSigned 256 (c * 200) < 2^255 ∧
      ((s'.agents agent).reputationScore : ℤ) = max 0 (min 10000 ((s.agents agent).reputationScore +
        (toSigned 256 (a * 50) - toSigned 256 (b * 100) - toSigned 256 (c * 200)))) := by
  simp only [recordJobCompletion, applyReputationDelta, getExistingProfile, bind_eq_ok, require_eq_ok,
    checkedAdd_eq_ok, checkedMul_eq_ok, checkedSubInt_eq_ok, checkedAddInt_eq_ok, pure_eq_ok] at h
  obtain ⟨_, -, _, -, _, ⟨_, hexists, rfl⟩, _, ⟨-, rfl⟩, _, ⟨-, rfl⟩, _, ⟨-, rfl⟩, _, ⟨-, rfl⟩, _, ⟨ha, rfl⟩,
    _, ⟨hb, rfl⟩, _, ⟨hc, rfl⟩, _, ⟨hfirst, rfl⟩, _, ⟨hsecond, rfl⟩, _, ⟨_, ⟨_, -, rfl⟩, updated, ⟨-, rfl⟩, rfl⟩,
    rfl⟩ := h
  have hreputation : toSigned 256 (s.agents agent).reputationScore = (s.agents agent).reputationScore := by
    rw [toSigned_eq (by omega), wraps, if_pos (by omega), zero_mul, sub_zero]
  have hwidth : 256 - 1 = 255 := rfl
  rw [hwidth] at hfirst hsecond
  refine ⟨ha, hb, hc, hfirst.2, hsecond.1, hsecond.2, ?_⟩
  simp only [State.emit_agents, State.setProfile_agents, Function.update_self, hreputation, clampReputation_eq]
  exact Int.toNat_of_nonneg (le_max_left _ _)

/-- The reputation after a job is the score over the integers exactly if the conversions do no harm. -/
theorem reputation_eq_iff {validFindings falsePos falseNeg : UInt 256}
    (hr : (s.agents agent).reputationScore ≤ 10000)
    (h : recordJobCompletion env agent validFindings falsePos falseNeg s = .ok s') :
    ((s'.agents agent).reputationScore : ℤ) =
        scored (s.agents agent).reputationScore validFindings falsePos falseNeg ↔
      Harmless (s.agents agent).reputationScore validFindings falsePos falseNeg := by
  obtain ⟨ha, hb, hc, hfirst, hlow, hhigh, hscore⟩ := recordJobCompletion_score hr h
  rw [hscore]
  rw [toSigned_eq ha, toSigned_eq hb] at hfirst
  rw [toSigned_eq ha, toSigned_eq hb, toSigned_eq hc] at hlow hhigh ⊢
  unfold scored Harmless surplus
  generalize (s.agents agent).reputationScore = r at hr
  -- Each product is converted as it is, or loses `2^256`.
  unfold wraps at *
  split_ifs at * <;> omega

/-- The calls by which the agent 2 registers with the sample contract. -/
def registrationCalls : List (Env × Call) :=
  [(sampleEnv 9 0, .setOrchestratorAndAuction 5 4),
    (sampleEnv 2 1, .registerAgent "agent-2" "https://agent-2" ["fuzzing"] (500 * 10^8))]

/-- A job with three findings and an error. -/
theorem reputation_eq_iff_sample : ∃ w s', (contract 1).execAll registrationCalls sampleWorld = .ok w ∧
    recordJobCompletion (sampleEnv 5 2) 2 3 1 0 w.state = .ok s' ∧
    ((s'.agents 2).reputationScore : ℤ) = scored 5000 3 1 0 := by
  obtain ⟨w, hcalls⟩ := exists_eq_ok (show ((contract 1).execAll registrationCalls sampleWorld).isOk = true from rfl)
  obtain ⟨s', hjob⟩ := exists_eq_ok (read_ok hcalls
    (fun w => (recordJobCompletion (sampleEnv 5 2) 2 3 1 0 w.state).isOk) (b := true) (by decide +kernel))
  have hreputation := read_ok hcalls (fun w => (w.state.agents 2).reputationScore) (b := 5000) rfl
  have hexact := @reputation_eq_iff _ _ _ _ 3 1 0 (by rw [hreputation]; decide) hjob
  rw [hreputation] at hexact
  exact ⟨w, s', hcalls, hjob, hexact.mpr (.inl (by decide +kernel))⟩

/-- So many findings that fifty times as many are just `2^255` and some more. -/
def manyFindings : ℕ := 2^255 / 50 + 1

/-- With them the reputation falls to zero, while without any it would have stayed. -/
theorem not_reputation_eq : ∃ w s' s'', (contract 1).execAll registrationCalls sampleWorld = .ok w ∧
    recordJobCompletion (sampleEnv 5 2) 2 manyFindings 0 0 w.state = .ok s' ∧
    recordJobCompletion (sampleEnv 5 2) 2 0 0 0 w.state = .ok s'' ∧
    (s'.agents 2).reputationScore = 0 ∧ (s''.agents 2).reputationScore = 5000 ∧
    scored (w.state.agents 2).reputationScore manyFindings 0 0 = 10000 := by
  obtain ⟨w, hcalls⟩ := exists_eq_ok (show ((contract 1).execAll registrationCalls sampleWorld).isOk = true from rfl)
  obtain ⟨s', hmany⟩ := exists_eq_ok (read_ok hcalls
    (fun w => (recordJobCompletion (sampleEnv 5 2) 2 manyFindings 0 0 w.state).isOk) (b := true) (by decide +kernel))
  obtain ⟨s'', hnone⟩ := exists_eq_ok (read_ok hcalls
    (fun w => (recordJobCompletion (sampleEnv 5 2) 2 0 0 0 w.state).isOk) (b := true) (by decide +kernel))
  have hzero := read_ok hcalls (fun w => (recordJobCompletion (sampleEnv 5 2) 2 manyFindings 0 0 w.state).map
    fun s => (s.agents 2).reputationScore) (b := .ok 0) (by decide +kernel)
  have hsame := read_ok hcalls (fun w => (recordJobCompletion (sampleEnv 5 2) 2 0 0 0 w.state).map
    fun s => (s.agents 2).reputationScore) (b := .ok 5000) (by decide +kernel)
  have hscore := read_ok hcalls (fun w => scored (w.state.agents 2).reputationScore manyFindings 0 0) (b := 10000)
    (by decide +kernel)
  exact ⟨w, s', s'', hcalls, hmany, hnone, read_ok hmany (fun s => (s.agents 2).reputationScore) hzero,
    read_ok hnone (fun s => (s.agents 2).reputationScore) hsame, hscore⟩

end AuditGuard.AgentRegistry
