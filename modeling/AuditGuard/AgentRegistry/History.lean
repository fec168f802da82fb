import AuditGuard.AgentRegistry.Effects

/-!
# AgentRegistry: can an agent launder its reputation?

An agent may register, stake, withdraw, ask for promotion and leave as it likes. Scores, counters and the
mark of a slashed agent are for others to change. But an agent that leaves and registers again gets a blank
profile, and a slashed agent may leave. What the agents do by themselves launders nothing exactly when the
agent does not register in between, or has nothing to gain from a blank profile.
-/

namespace AuditGuard.AgentRegistry

open Evm TransitionSystem

/-- The functions that an agent calls for itself. -/
def Call.SelfService : Call → Prop
  | .registerAgent _ _ _ _ => True
  | .addStake _ => True
  | .requestPromotion => True
  | .withdrawStake _ => True
  | .deregisterAgent => True
  | _ => False

/-- A call of these functions, by whomever, or what happens elsewhere. -/
def SelfService : Label Env Call → Prop
  | .call _ c => c.SelfService
  | .elsewhere _ _ => True

/-- The agent registers. -/
def Registers (agent : Address) (l : Label Env Call) : Prop :=
  ∃ env agentId ucpEndpoint specializations stakeAmount,
    l = .call env (.registerAgent agentId ucpEndpoint specializations stakeAmount) ∧ env.sender = agent

/-- The agent leaves. -/
def Leaves (agent : Address) (l : Label Env Call) : Prop :=
  ∃ env, l = .call env .deregisterAgent ∧ env.sender = agent

/-- The agent registers, and does not leave again. -/
def Rejoins (agent : Address) (ls : List (Label Env Call)) : Prop :=
  ∃ pre l post, ls = pre ++ l :: post ∧ Registers agent l ∧ ∀ l' ∈ post, ¬ Leaves agent l'

/-- From the profile `p` to the profile `p'`, the reputation was not raised, no counter was lowered, and a
slashed agent did not become active. -/
def Unlaundered (p p' : AgentProfile) : Prop :=
  p'.reputationScore ≤ p.reputationScore ∧ p.completedJobs ≤ p'.completedJobs ∧
    p.falsePositives ≤ p'.falsePositives ∧ p.falseNegatives ≤ p'.falseNegatives ∧
    ¬ (p.status = .slashed ∧ p'.status = .active)

/-- The agent does not register, or it gains nothing by that: its reputation is not below that of a new
agent, its counters are zero, and if it was slashed, it leaves again. -/
def NothingToGain (agent : Address) (p : AgentProfile) (ls : List (Label Env Call)) : Prop :=
  (∃ l ∈ ls, Registers agent l) →
    NEW_AGENT_INITIAL_REPUTATION ≤ p.reputationScore ∧ p.completedJobs = 0 ∧
      p.falsePositives = 0 ∧ p.falseNegatives = 0 ∧ (p.status = .slashed → ¬ Rejoins agent ls)

variable {this agent : Address} {p p' : AgentProfile} {w w' : World State} {l : Label Env Call}
  {ls : List (Label Env Call)}

theorem rejoins_snoc :
    Rejoins agent (ls ++ [l]) ↔ Registers agent l ∨ Rejoins agent ls ∧ ¬ Leaves agent l := by
  constructor
  · rintro ⟨pre, l', post, hall, hregisters, hstays⟩
    rcases List.eq_nil_or_concat post with rfl | ⟨post, last, rfl⟩
    · obtain ⟨-, hl⟩ := List.append_inj' hall rfl
      rw [List.singleton_inj.mp hl]
      exact .inl hregisters
    · rw [List.concat_eq_append, ← List.cons_append, ← List.append_assoc] at hall
      obtain ⟨rfl, hl⟩ := List.append_inj' hall rfl
      rw [List.singleton_inj.mp hl]
      refine .inr ⟨⟨pre, l', post, rfl, hregisters, fun l₁ h₁ => hstays l₁ ?_⟩, hstays last ?_⟩
      · rw [List.concat_eq_append]
        exact List.mem_append_left _ h₁
      · rw [List.concat_eq_append]
        exact List.mem_append_right _ (List.mem_singleton_self _)
  · rintro (hregisters | ⟨⟨pre, l', post, rfl, hregisters, hstays⟩, hstay⟩)
    · exact ⟨ls, l, [], rfl, hregisters, by simp⟩
    · refine ⟨pre, l', post ++ [l], by simp, hregisters, fun l₁ h₁ => ?_⟩
      rcases List.mem_append.mp h₁ with h₁ | h₁
      · exact hstays l₁ h₁
      · rw [List.mem_singleton.mp h₁]
        exact hstay

/-- Scores and counters are the same. -/
structure SameScores (p p' : AgentProfile) : Prop where
  reputationScore : p'.reputationScore = p.reputationScore
  completedJobs : p'.completedJobs = p.completedJobs
  falsePositives : p'.falsePositives = p.falsePositives
  falseNegatives : p'.falseNegatives = p.falseNegatives

/-- The scores and counters of a new agent. -/
structure BlankScores (p : AgentProfile) : Prop where
  reputationScore : p.reputationScore = NEW_AGENT_INITIAL_REPUTATION
  completedJobs : p.completedJobs = 0
  falsePositives : p.falsePositives = 0
  falseNegatives : p.falseNegatives = 0

/-- What a step that agents make by themselves does to the profile of one agent. -/
inductive Moved (agent : Address) (l : Label Env Call) (p p' : AgentProfile) : Prop
  | registered (hregisters : Registers agent l) (hblank : BlankScores p')
      (hactive : p'.status = .active)
  | left (hleaves : Leaves agent l) (hnot : ¬ Registers agent l) (hsame : SameScores p p')
      (hinactive : p'.status = .inactive)
  | other (hstays : ¬ Leaves agent l) (hnot : ¬ Registers agent l) (hsame : SameScores p p')
      (hstatus : p'.status = p.status ∨ p.status = .suspended ∧ p'.status = .active)

theorem SameScores.refl (p : AgentProfile) : SameScores p p := ⟨rfl, rfl, rfl, rfl⟩

theorem Moved.of_eq (hstays : ¬ Leaves agent l) (hnot : ¬ Registers agent l) (h : p' = p) :
    Moved agent l p p' := by
  rw [h]
  exact .other hstays hnot (.refl p) (.inl rfl)

theorem not_leaves {env : Env} {c : Call} (h : c = .deregisterAgent → agent ≠ env.sender) :
    ¬ Leaves agent (.call env c) := by
  rintro ⟨env', heq, hsender⟩
  cases heq
  exact h rfl hsender.symm

theorem not_registers {env : Env} {c : Call}
    (h : ∀ agentId ucpEndpoint specializations stakeAmount,
      c = .registerAgent agentId ucpEndpoint specializations stakeAmount → agent ≠ env.sender) :
    ¬ Registers agent (.call env c) := by
  rintro ⟨env', _, _, _, _, heq, hsender⟩
  cases heq
  exact h _ _ _ _ rfl hsender.symm

theorem BookStep.profile {b b' : Books} {a : Address} {op : ProfileOp} (h : BookStep this b a op b')
    (agent : Address) : agent ≠ a ∧ b'.profiles agent = b.profiles agent ∨
      agent = a ∧ ProfileStep agent (b.profiles agent) op (b'.profiles agent) := by
  cases h with
  | step hstep hpay =>
    dsimp only
    rcases eq_or_ne agent a with rfl | hne
    · rw [Function.update_self]
      exact .inr ⟨rfl, hstep⟩
    · rw [Function.update_of_ne hne]
      exact .inl ⟨hne, rfl⟩

/-- What agents do by themselves, for the profile of one agent. -/
theorem Step.moved (h : (contract this).Step w l w') (hself : SelfService l) :
    Moved agent l (w.state.agents agent) (w'.state.agents agent) := by
  cases h with
  | elsewhere _ _ =>
    -- Nothing happens to the profile, and the label is no call.
    refine .of_eq ?_ ?_ rfl
    · rintro ⟨env, heq, -⟩
      cases heq
    · rintro ⟨env, _, _, _, _, heq, -⟩
      cases heq
  | @call env c w w' hs h0 ht hexec =>
    have hcall : exec this env c w = .ok w' := hexec
    -- What agents do by themselves, they do to their own profile.
    obtain ⟨op, hdoes, hbook⟩ : ∃ op, c.Does env w.state env.sender op ∧
        BookStep this (books w) env.sender op (books w') := by
      rcases exec_ok hcall with ⟨a, op, hdoes, hbook⟩ | ⟨hnone, -⟩
      · have hsender : a = env.sender := by
          cases c with
          | registerAgent | addStake | requestPromotion | withdrawStake | deregisterAgent =>
            exact hdoes.1
          | _ => exact absurd hself id
        subst hsender
        exact ⟨op, hdoes, hbook⟩
      · cases c with
        | registerAgent | addStake | requestPromotion | withdrawStake | deregisterAgent =>
          exact absurd ⟨rfl, rfl⟩ (hnone _ _)
        | _ => exact absurd hself id
    -- Another agent's call leaves the profile alone; the agent's own is one of five.
    rcases hbook.profile agent with ⟨hne, hsame⟩ | ⟨hsender, hstep⟩
    · exact .of_eq (not_leaves fun _ => hne) (not_registers fun _ _ _ _ _ => hne) hsame
    · change ProfileStep agent (w.state.agents agent) op (w'.state.agents agent) at hstep
      dsimp only
      generalize w.state.agents agent = p at hstep
      generalize w'.state.agents agent = p' at hstep
      cases c with
      | registerAgent agentId ucpEndpoint specializations stakeAmount =>
        obtain ⟨-, rfl⟩ := hdoes
        cases hstep
        exact .registered ⟨env, _, _, _, _, rfl, hsender.symm⟩ ⟨rfl, rfl, rfl, rfl⟩ rfl
      | deregisterAgent =>
        obtain ⟨-, rfl⟩ := hdoes
        cases hstep
        exact .left ⟨env, rfl, hsender.symm⟩ (not_registers nofun) ⟨rfl, rfl, rfl, rfl⟩ rfl
      | addStake amount =>
        obtain ⟨-, rfl⟩ := hdoes
        cases hstep
        refine .other (not_leaves nofun) (not_registers nofun) ⟨rfl, rfl, rfl, rfl⟩ ?_
        dsimp only
        split_ifs with hreactivated
        · exact .inr ⟨hreactivated.1, rfl⟩
        · exact .inl rfl
      | requestPromotion | withdrawStake =>
        obtain ⟨-, rfl⟩ := hdoes
        cases hstep
        exact .other (not_leaves nofun) (not_registers nofun) ⟨rfl, rfl, rfl, rfl⟩ (.inl rfl)
      | _ => exact absurd hself id

/-! ## A sequence of steps -/

/-- What a sequence of steps that agents make by themselves did to the profile of one agent. If it did not
register, its scores and counters are as before, and it is not active if it was slashed. If it did, they are
those of a new agent, and it is active exactly if it did not leave again. -/
structure Since (agent : Address) (ls : List (Label Env Call)) (p p' : AgentProfile) : Prop where
  kept : (¬ ∃ l ∈ ls, Registers agent l) → SameScores p p' ∧
    (p.status = .slashed → p'.status = .slashed ∨ p'.status = .inactive)
  blank : (∃ l ∈ ls, Registers agent l) → BlankScores p' ∧ p'.status ≠ .suspended ∧
    (p'.status = .active ↔ Rejoins agent ls)

theorem BlankScores.of_same (h : BlankScores p) (hsame : SameScores p p') : BlankScores p' :=
  ⟨hsame.reputationScore.trans h.reputationScore, hsame.completedJobs.trans h.completedJobs,
    hsame.falsePositives.trans h.falsePositives, hsame.falseNegatives.trans h.falseNegatives⟩

theorem SameScores.trans {p₁ p₂ p₃ : AgentProfile} (h : SameScores p₁ p₂) (h' : SameScores p₂ p₃) :
    SameScores p₁ p₃ :=
  ⟨h'.reputationScore.trans h.reputationScore, h'.completedJobs.trans h.completedJobs,
    h'.falsePositives.trans h.falsePositives, h'.falseNegatives.trans h.falseNegatives⟩

/-- One more step. -/
theorem Since.snoc {p₁ p₂ p₃ : AgentProfile} (h : Since agent ls p₁ p₂) (hm : Moved agent l p₂ p₃) :
    Since agent (ls ++ [l]) p₁ p₃ := by
  have hany : (∃ l' ∈ ls ++ [l], Registers agent l') ↔
      (∃ l' ∈ ls, Registers agent l') ∨ Registers agent l := by
    simp only [List.mem_append, List.mem_singleton, or_and_right, exists_or, exists_eq_left]
  -- A registration starts over, a departure ends it, and anything else changes nothing here.
  cases hm with
  | registered hregisters hblank hactive =>
    constructor
    · exact fun hnone => absurd (hany.mpr (.inr hregisters)) hnone
    · intro _
      refine ⟨hblank, by simp [hactive], ?_⟩
      exact iff_of_true hactive (rejoins_snoc.mpr (.inl hregisters))
  | left hleaves hnot hsame hinactive =>
    constructor
    · intro hnone
      obtain ⟨hkept, -⟩ := h.kept fun hsome => hnone (hany.mpr (.inl hsome))
      exact ⟨hkept.trans hsame, fun _ => .inr hinactive⟩
    · intro hsome
      obtain ⟨hblank, -, -⟩ := h.blank ((hany.mp hsome).resolve_right hnot)
      refine ⟨hblank.of_same hsame, by simp [hinactive], ?_⟩
      refine iff_of_false (by simp [hinactive]) fun hrejoins => ?_
      exact ((rejoins_snoc.mp hrejoins).resolve_left hnot).2 hleaves
  | other hstays hnot hsame hstatus =>
    constructor
    · intro hnone
      obtain ⟨hkept, hslashed⟩ := h.kept fun hsome => hnone (hany.mpr (.inl hsome))
      refine ⟨hkept.trans hsame, fun hwas => ?_⟩
      rcases hstatus with heq | ⟨hsuspended, -⟩
      · rw [heq]
        exact hslashed hwas
      · rcases hslashed hwas with hbefore | hbefore <;> rw [hsuspended] at hbefore <;> cases hbefore
    · intro hsome
      obtain ⟨hblank, hnotSuspended, hrejoins⟩ := h.blank ((hany.mp hsome).resolve_right hnot)
      have heq : p₃.status = p₂.status := hstatus.resolve_right fun h => hnotSuspended h.1
      refine ⟨hblank.of_same hsame, heq ▸ hnotSuspended, ?_⟩
      rw [heq, hrejoins, rejoins_snoc]
      simp only [hnot, hstays, not_false_eq_true, and_true, false_or]

theorem since_path (h : Path (contract this).Step w ls w') (hself : ∀ l ∈ ls, SelfService l) :
    Since agent ls (w.state.agents agent) (w'.state.agents agent) := by
  induction h with
  | nil =>
    constructor
    · exact fun _ => ⟨.refl _, .inl⟩
    · rintro ⟨l, hl, -⟩
      cases hl
  | @snoc w₁ w₂ ls l hpath hstep ih =>
    have hfirst := ih fun l' hl' => hself l' (List.mem_append_left _ hl')
    exact hfirst.snoc (Step.moved hstep (hself l (by simp)))

/-- What agents do by themselves launders an agent's record exactly when the agent registers in between and
has something to gain by that. -/
theorem unlaundered_iff (h : Path (contract this).Step w ls w') (hself : ∀ l ∈ ls, SelfService l) :
    Unlaundered (w.state.agents agent) (w'.state.agents agent) ↔
      NothingToGain agent (w.state.agents agent) ls := by
  have hsince : Since agent ls (w.state.agents agent) (w'.state.agents agent) := since_path h hself
  generalize w.state.agents agent = p at hsince
  generalize w'.state.agents agent = p' at hsince
  unfold Unlaundered NothingToGain
  -- After a registration the record is that of a new agent, whatever it was before.
  by_cases hregisters : ∃ l ∈ ls, Registers agent l
  · obtain ⟨hblank, -, hactive⟩ := hsince.blank hregisters
    rw [hblank.reputationScore, hblank.completedJobs, hblank.falsePositives, hblank.falseNegatives,
      hactive, not_and]
    simp only [Nat.le_zero, hregisters, true_imp_iff]
  · obtain ⟨hsame, hslashed⟩ := hsince.kept hregisters
    refine iff_of_true ⟨hsame.reputationScore.le, hsame.completedJobs.ge, hsame.falsePositives.ge,
      hsame.falseNegatives.ge, ?_⟩ fun h => absurd h hregisters
    rintro ⟨hwas, hactive⟩
    rcases hslashed hwas with heq | heq <;> rw [heq] at hactive <;> cases hactive

/-! ## A slashed agent that starts again -/

/-- The calls by which the agent 2 registers, is scored for a job with a false positive, and is slashed. -/
def slashedCalls : List (Env × Call) :=
  [(sampleEnv 9 0, .setOrchestratorAndAuction 5 4),
    (sampleEnv 2 1, .registerAgent "agent-2" "https://agent-2" ["fuzzing"] (500 * 10^8)),
    (sampleEnv 5 2, .recordJobCompletion 2 0 1 0),
    (sampleEnv 5 3, .slashAgent 2 10000)]

/-- The calls by which it starts again. -/
def restartCalls : List (Env × Call) :=
  [(sampleEnv 2 4, .deregisterAgent),
    (sampleEnv 2 5, .registerAgent "agent-2" "https://agent-2" ["fuzzing"] (100 * 10^8))]

theorem restarted : ∃ w w', (contract 1).system.Reachable w ∧
    Path (contract 1).Step w (restartCalls.map fun call => .call call.1 call.2) w' ∧
    (w.state.agents 2).agentAddress = 2 ∧ (w.state.agents 2).status = .slashed ∧
    (w.state.agents 2).reputationScore = 4900 ∧
    (w.state.agents 2).completedJobs = 1 ∧ (w.state.agents 2).falsePositives = 1 ∧
    (w'.state.agents 2).status = .active ∧ (w'.state.agents 2).reputationScore = 5000 ∧
    (w'.state.agents 2).completedJobs = 0 ∧ (w'.state.agents 2).falsePositives = 0 := by
  obtain ⟨ts, w, hcalls, hr, -⟩ := sample_run slashedCalls (by decide) rfl
  have hnow : w.now = 3 := read_ok hcalls (fun w => w.now) rfl
  have hrestart := read_ok hcalls (fun w => ((contract 1).execAll restartCalls w).isOk) (b := true) rfl
  obtain ⟨w', hcalls'⟩ := exists_eq_ok hrestart
  -- The restart is a sequence of steps from the slashed state.
  have hscheduled : (contract 1).Scheduled w.now restartCalls := by
    rw [hnow]
    decide
  have hpath := Contract.path_execAll hscheduled hcalls'
  have hagent := read_ok hcalls (fun w => (w.state.agents 2).agentAddress) (b := 2) rfl
  have hbefore := read_ok hcalls (fun w => ((w.state.agents 2).status,
    (w.state.agents 2).reputationScore, (w.state.agents 2).completedJobs,
    (w.state.agents 2).falsePositives)) (b := (.slashed, 4900, 1, 1)) (by decide +kernel)
  have hafter := read_ok hcalls (fun w => ((contract 1).execAll restartCalls w).map fun w' =>
    ((w'.state.agents 2).status, (w'.state.agents 2).reputationScore,
      (w'.state.agents 2).completedJobs, (w'.state.agents 2).falsePositives))
    (b := .ok (.active, 5000, 0, 0)) (by decide +kernel)
  have hlast := read_ok hcalls' (fun w' => ((w'.state.agents 2).status,
    (w'.state.agents 2).reputationScore, (w'.state.agents 2).completedJobs,
    (w'.state.agents 2).falsePositives)) (b := (.active, 5000, 0, 0)) hafter
  simp only [Prod.mk.injEq] at hbefore hlast
  obtain ⟨hslashed, hreputation, hjobs, hpositives⟩ := hbefore
  obtain ⟨hactive, hreputation', hjobs', hpositives'⟩ := hlast
  exact ⟨w, w', hr.reachable, hpath, hagent, hslashed, hreputation, hjobs, hpositives, hactive, hreputation',
    hjobs', hpositives'⟩

/-- The equivalence for the slashed agent that starts again, where both sides fail. -/
theorem unlaundered_iff_restarted : ∃ w w' : World State,
    (Unlaundered (w.state.agents 2) (w'.state.agents 2) ↔
      NothingToGain 2 (w.state.agents 2) (restartCalls.map fun call => .call call.1 call.2)) ∧
    ¬ Unlaundered (w.state.agents 2) (w'.state.agents 2) := by
  obtain ⟨w, w', -, hpath, -, hslashed, -, -, -, hactive, -⟩ := restarted
  refine ⟨w, w', unlaundered_iff hpath ?_, fun h => h.2.2.2.2 ⟨hslashed, hactive⟩⟩
  intro l hl
  obtain ⟨call, hcall, rfl⟩ := List.mem_map.mp hl
  rcases List.mem_pair.mp hcall with rfl | rfl <;> trivial

/-- The slashed agent is active again, with the reputation of a new agent and without the false positive. -/
theorem slashed_agent_laundered : ∃ w w', (contract 1).system.Reachable w ∧
    Path (contract 1).Step w (restartCalls.map fun call => .call call.1 call.2) w' ∧
    (w.state.agents 2).agentAddress ≠ 0 ∧
    ¬ Unlaundered (w.state.agents 2) (w'.state.agents 2) := by
  obtain ⟨w, w', hw, hpath, hagent, hslashed, -, -, -, hactive, -⟩ := restarted
  refine ⟨w, w', hw, hpath, ?_, fun h => h.2.2.2.2 ⟨hslashed, hactive⟩⟩
  rw [hagent]
  decide

end AuditGuard.AgentRegistry
