import AuditGuard.Inft.Economics

/-!
# The economics of a profile in every history

A history is any sequence of events that the listener handles, in any order and with any repetition. The profile of an
agent agrees with the tally of its events throughout a history exactly if every event is one that can be counted.
-/

namespace AuditGuard.Inft

open Evm StakingManager TransitionSystem

variable {hex : Address → String} {l : Listener} {agent : Address} {serial amount : ℕ} {p : AgentProfile} {t : Tally}

/-- Histories grow by one event after the other. -/
def histories : TransitionSystem (List Event) Event where
  init h := h = []
  step h e h' := h' = h ++ [e]

theorem exists_history (events : List Event) : ∃ ts, histories.Run ts events := by
  induction events using List.reverseRecOn with
  | nil => exact ⟨[], .init rfl⟩
  | append_singleton events e ih =>
    obtain ⟨ts, hr⟩ := ih
    exact ⟨_, hr.step (l := e) rfl⟩

/-- What an event does to the profile of its agent. -/
def eventEffect : Event → AgentProfile → AgentProfile
  | .staking e => profileEffect e
  | .auction (.agentSlashed jobId _ slashedAmount slashBasisPoints) =>
    slashedInAuction jobId slashedAmount slashBasisPoints
  | _ => id

theorem handleAll_snoc (hex : Address → String) (events : List Event) (e : Event) (l : Listener) :
    handleAll hex (events ++ [e]) l = handle hex (handleAll hex events l) e := List.foldl_concat ..

theorem Framed.knows {J : AuditJob → AuditJob → Prop} {K : AgentProfile → AgentProfile → Prop} {l' : Listener}
    (h : Framed J K l l') (hl : l.Knows agent serial p) : ∃ p', l'.Knows agent serial p' ∧ K p p' := by
  obtain ⟨p', hp', hK⟩ := h.profiles serial p hl.profile
  refine ⟨p', ⟨?_, ?_, hp'⟩, hK⟩
  · rw [h.agents]
    exact hl.index
  · rw [h.agents]
    exact hl.own

/-- The profile of an agent after an event: changed by the event if it is the agent's, and else untouched. -/
theorem handle_knows (hl : l.Knows agent serial p) (e : Event) : ∃ p', (handle hex l e).Knows agent serial p' ∧
    if eventAgent e = some agent then p' = eventEffect e p else Untouched p p' := by
  have hsame : Untouched p p := respects_untouched.profile_refl p
  -- Of a change of one profile, seen from the agent.
  have hprofile : ∀ (a : Address) (f : AgentProfile → AgentProfile), ∃ p', (l.onProfile a f).Knows agent serial p' ∧
      if some a = some agent then p' = f p else Untouched p p' := by
    intro a f
    rcases eq_or_ne a agent with rfl | hne
    · exact ⟨_, hl.onProfile f, by rw [if_pos rfl]⟩
    · refine ⟨p, hl.onProfile_of_ne hne f, ?_⟩
      rw [if_neg (by simpa using hne)]
      exact hsame
  cases e with
  | settlement e =>
    obtain ⟨p', hp', hK⟩ := (frames_onPaymentSettlement respects_untouched e l).knows hl
    exact ⟨p', hp', by rw [if_neg (by simp [eventAgent])]; exact hK⟩
  | staking e =>
    rw [handle_staking]
    cases hagent : stakingAgent e with
    | none =>
      refine ⟨p, hl, ?_⟩
      rw [if_neg (by simp [eventAgent, hagent])]
      exact hsame
    | some a =>
      have heventAgent : eventAgent (.staking e) = some a := hagent
      rw [heventAgent]
      exact hprofile a (profileEffect e)
  | auction e =>
    by_cases hslash : ∃ jobId a slashedAmount bps, e = .agentSlashed jobId a slashedAmount bps
    · obtain ⟨jobId, a, slashedAmount, bps, rfl⟩ := hslash
      have hexec : handle hex l (.auction (.agentSlashed jobId a slashedAmount bps)) =
          l.onProfile a (slashedInAuction jobId slashedAmount bps) := exec_onAgentSlashed ..
      rw [hexec]
      exact hprofile a _
    · have hother : ∀ jobId a slashedAmount bps, e ≠ .agentSlashed jobId a slashedAmount bps :=
        fun jobId a slashedAmount bps heq => hslash ⟨jobId, a, slashedAmount, bps, heq⟩
      have hframes : Frames (fun _ _ => True) Untouched (onAuditAuction hex e) :=
        frames_onAuditAuction respects_untouched hother
      obtain ⟨p', hp', hK⟩ := (hframes l).knows hl
      refine ⟨p', hp', ?_⟩
      have hnone : eventAgent (.auction e) = none := by
        cases e with
        | agentSlashed => exact absurd rfl (hother _ _ _ _)
        | _ => rfl
      rw [hnone, if_neg (by simp)]
      exact hK

theorem consistent_event_iff {e : Event} (he : eventAgent e = some agent) (hp : p.Regular) (ht : 0 ≤ t.auctionSlashed)
    (h : p.Consistent t) :
    (eventEffect e p).Regular ∧ ((eventEffect e p).Consistent (t.count e) ↔ Countable p t e) := by
  cases e with
  | staking e => exact ⟨regular_profileEffect e hp, consistent_staking_iff hp ht h e⟩
  | settlement e => cases he
  | auction e =>
    cases e with
    | agentSlashed jobId a slashedAmount bps =>
      obtain ⟨hregular, hconsistent⟩ := slashedInAuction_keeps (p := p) (t := t) jobId slashedAmount bps a
      exact ⟨hregular hp, iff_of_true (hconsistent h) trivial⟩
    | _ => cases he

theorem auctionSlashed_nonneg (agent : Address) (x : ℚ) (events : List Event) :
    0 ≤ (tally agent x events).auctionSlashed := by
  induction events using List.reverseRecOn with
  | nil => exact le_rfl
  | append_singleton events e ih =>
    rw [tally, List.foldl_concat]
    change 0 ≤ (if eventAgent e = some agent then (tally agent x events).count e
      else tally agent x events).auctionSlashed
    split_ifs
    · unfold Tally.count
      split
      · exact ih
      · exact ih
      · split_ifs <;> exact ih
      · split_ifs <;> exact ih
      · exact add_nonneg ih (toGuard_nonneg _)
      · exact ih
    · exact ih

theorem registered_knows (hl : l.Registered agent serial (toGuard amount)) (events : List Event) :
    ∃ p, (handleAll hex events l).Knows agent serial p ∧ p.Regular := by
  induction events using List.reverseRecOn with
  | nil =>
    obtain ⟨reputation, hprofile⟩ := hl.profile
    exact ⟨_, ⟨hl.index, hl.own, hprofile⟩, ⟨_, rfl, toGuard_nonneg amount, rfl⟩, by simp [AgentProfile.mint]⟩
  | append_singleton events e ih =>
    obtain ⟨p, hknows, hregular⟩ := ih
    obtain ⟨p', hknows', heffect⟩ := @handle_knows hex _ _ _ _ hknows e
    rw [handleAll_snoc]
    refine ⟨p', hknows', ?_⟩
    split_ifs at heffect with hagent
    · rw [heffect]
      cases e with
      | staking e => exact regular_profileEffect e hregular
      | settlement e => exact hregular
      | auction e =>
        cases e with
        | agentSlashed jobId a slashedAmount bps =>
          exact (slashedInAuction_keeps (t := ⟨0, 0, 0, [], []⟩) jobId slashedAmount bps a).1 hregular
        | _ => exact hregular
    · exact heffect.keeps (t := ⟨0, 0, 0, [], []⟩) |>.1 hregular

/-- After a history that the listener `l` has handled, the economics of the agent's profile are consistent: with the
staking details, with the slash history, and with a tally that counts each slash and each restoration once. -/
def ConsistentAfter (hex : Address → String) (l : Listener) (agent : Address) (amount : ℕ) (events : List Event) :
    Prop :=
  ∃ serial p, (handleAll hex events l).profileOf agent = some (serial, p) ∧
    p.Consistent (tally agent (toGuard amount) events)

/-- The next event of a history is one of another agent, or can be counted. -/
def CountableAfter (hex : Address → String) (l : Listener) (agent : Address) (amount : ℕ) (events : List Event)
    (e : Event) : Prop :=
  eventAgent e = some agent → ∀ serial p, (handleAll hex events l).profileOf agent = some (serial, p) →
    Countable p (tally agent (toGuard amount) events) e

/-- The economics of an agent that registered are consistent throughout a history exactly if each of its events can be
counted. -/
theorem economics_iff (hl : l.Registered agent serial (toGuard amount)) {events : List Event}
    {ts : List (Transition (List Event) Event)} (hr : histories.Run ts events) :
    Throughout (ConsistentAfter hex l agent amount) ts events ↔
      ∀ tr ∈ ts, CountableAfter hex l agent amount tr.src tr.label := by
  refine hr.forall_iff (C := CountableAfter hex l agent amount) ?_ ?_
  · rintro _ rfl
    obtain ⟨reputation, hprofile⟩ := hl.profile
    refine ⟨serial, _, Listener.Knows.profileOf ⟨hl.index, hl.own, hprofile⟩, ?_⟩
    constructor
    · rintro staking ⟨⟩
      rfl
    · exact (add_zero _).symm
    · rfl
    · rfl
  · rintro events e _ - ⟨serial', q, hof, hconsistent⟩ rfl
    obtain ⟨p, hknows, hregular⟩ := @registered_knows hex _ _ _ _ hl events
    rw [hknows.profileOf, Option.some.injEq, Prod.mk.injEq] at hof
    obtain ⟨rfl, rfl⟩ := hof
    obtain ⟨p', hknows', heffect⟩ := @handle_knows hex _ _ _ _ hknows e
    rw [← handleAll_snoc] at hknows'
    have hafter : ConsistentAfter hex l agent amount (events ++ [e]) ↔
        p'.Consistent (tally agent (toGuard amount) (events ++ [e])) := by
      constructor
      · rintro ⟨_, _, hof, h⟩
        rw [hknows'.profileOf, Option.some.injEq, Prod.mk.injEq] at hof
        obtain ⟨rfl, rfl⟩ := hof
        exact h
      · exact fun h => ⟨_, _, hknows'.profileOf, h⟩
    rw [hafter, tally, List.foldl_concat]
    change p'.Consistent (if eventAgent e = some agent then (tally agent (toGuard amount) events).count e
      else tally agent (toGuard amount) events) ↔ _
    split_ifs at heffect ⊢ with hagent
    · rw [heffect, (consistent_event_iff hagent hregular (auctionSlashed_nonneg ..) hconsistent).2]
      constructor
      · intro hcountable _ serial'' q hof
        rw [hknows.profileOf, Option.some.injEq, Prod.mk.injEq] at hof
        obtain ⟨rfl, rfl⟩ := hof
        exact hcountable
      · exact fun h => h hagent _ _ hknows.profileOf
    · rw [heffect.keeps.2]
      exact iff_of_true hconsistent fun h => absurd h hagent

/-- A stake of 1000 GUARD, and a slash of 100. -/
def slashHistory : List Event :=
  [.staking (.staked 2 (1000 * 10^8) (1000 * 10^8)), .staking (.slashInitiated 1 2 .falsePositive (100 * 10^8) 1000 0 7)]

/-- The sample listener counts both once. -/
theorem economics_slash : ∃ ts, histories.Run ts slashHistory ∧
    Throughout (ConsistentAfter (fun _ => "") sampleListener 2 0) ts slashHistory := by
  have hregistered : sampleListener.Registered 2 1 (toGuard 0) := by
    rw [toGuard_zero]
    exact sampleListener_registered
  have hempty : histories.Run [] [] := .init rfl
  have hstaked := hempty.step (l := .staking (.staked 2 (1000 * 10^8) (1000 * 10^8))) rfl
  have hslashed := hstaked.step (l := .staking (.slashInitiated 1 2 .falsePositive (100 * 10^8) 1000 0 7)) rfl
  refine ⟨_, hslashed, (economics_iff hregistered hslashed).mpr ?_⟩
  simp only [List.nil_append, List.cons_append, List.forall_mem_cons, List.not_mem_nil, false_imp_iff, implies_true,
    and_true]
  refine ⟨fun _ _ _ _ => trivial, fun _ serial p hof => ⟨?_, fun hmem => absurd hmem (by decide +kernel)⟩⟩
  have hamount : p.economics.stakedAmount = toGuard (1000 * 10^8) := by
    obtain ⟨-, rfl⟩ := Prod.mk.inj (Option.some.inj hof)
    rfl
  rw [hamount, toGuard_le]
  norm_num

/-- Two slashes, of 100 GUARD and of 50, of which the first is restored by an appeal, and the event of that appeal
once more. -/
def redeliveredHistory : List Event :=
  [.staking (.staked 2 (1000 * 10^8) (1000 * 10^8)),
    .staking (.slashInitiated 1 2 .falsePositive (100 * 10^8) 1000 0 7),
    .staking (.slashInitiated 2 2 .falsePositive (50 * 10^8) 1000 0 8),
    .staking (.appealFiled 1 2 "no duty"),
    .staking (.appealApproved 1 2 (100 * 10^8)),
    .staking (.appealApproved 1 2 (100 * 10^8))]

/-- Then the second slash is no more in `totalSlashed`, and the restoration twice in `stakedAmount`. -/
theorem not_economics_redelivered :
    sampleListener.Registered 2 1 (toGuard 0) ∧ (∃ ts, histories.Run ts redeliveredHistory) ∧
    ((handleAll (fun _ => "") redeliveredHistory sampleListener).profileOf 2).map
      (fun q => (q.2.economics.totalSlashed, q.2.charged, q.2.economics.stakedAmount)) = some (0, 50, 1050) ∧
    ¬ ConsistentAfter (fun _ => "") sampleListener 2 0 redeliveredHistory := by
  have hvalues : ((handleAll (fun _ => "") redeliveredHistory sampleListener).profileOf 2).map
      (fun q => (q.2.economics.totalSlashed, q.2.charged, q.2.economics.stakedAmount)) = some (0, 50, 1050) := by
    decide +kernel
  refine ⟨toGuard_zero.symm ▸ sampleListener_registered, exists_history _, hvalues, ?_⟩
  rintro ⟨serial, p, hof, hconsistent⟩
  rw [hof, Option.map_some, Option.some.injEq, Prod.mk.injEq, Prod.mk.injEq] at hvalues
  have hrecorded := hconsistent.recorded
  have hauction : (tally 2 (toGuard 0) redeliveredHistory).auctionSlashed = 0 := by decide +kernel
  rw [hvalues.1, hvalues.2.1, hauction] at hrecorded
  norm_num at hrecorded

end AuditGuard.Inft
