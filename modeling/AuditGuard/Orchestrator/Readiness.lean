import AuditGuard.Orchestrator.Closing

/-!
# The orchestrator: readiness checks

What a read of the chain tells, and what `evaluateWinnerSelectionReadiness` makes of it: where it finds no bids, the
job may be closed, if the inputs are good, and where it finds the job ready, there are bids.
-/

namespace AuditGuard.Orchestrator

open Evm TransitionSystem Routine
open AuditAuction (Later Keeps AuditJob AgentBid JobStatus)

variable {S : Setting} {α : Type} {P : Setting.Fact} {key v : ℕ}

/-! ## Reads -/

/-- What `getJob` tells. -/
def JobRead (key : ℕ) (job : AuditJob) (w : Chain) : Prop :=
  (w.state.jobs key).jobId ≠ 0 ∧ job.auctionDeadline = (w.state.jobs key).auctionDeadline ∧
    (job.status ≠ .auctionOpen → (w.state.jobs key).status ≠ .auctionOpen) ∧
    ∀ a ∈ job.winningAgents, a ∈ (w.state.jobs key).winningAgents

theorem JobRead.later {job : AuditJob} {w w' : Chain} (h : JobRead key job w)
    (hk : Keeps w.state w'.state key) : JobRead key job w' := by
  obtain ⟨hposted, hdeadline, hover, hwinners⟩ := h
  refine ⟨hk.posted hposted, hdeadline.trans (hk.deadline hposted).symm, fun hstatus => hk.ended (hover hstatus), ?_⟩
  exact fun a ha => hk.winners a (hwinners a ha)

theorem steady_jobRead (job : AuditJob) : S.Steady fun _ w _ => JobRead key job w :=
  steady_chain fun _ _ hf hk => hf.later (hk key)

theorem triple_getJob (hP : S.Steady P) :
    S.Triple P (getJob key) (fun job h w t => P h w t ∧ JobRead key job w) (fun _ => P) := by
  refine Triple.call (fun h m w t _ _ => trivial) ?_ ?_
  · intro h m w t job src dst time w' t' hinv hp ha
    refine ⟨hP h m w t _ w' t' hinv hp ha, ?_⟩
    have hserved : serves S.this src (.getJob key) (.ok job) dst := ha.served
    obtain ⟨rfl, hjob⟩ := hserved
    obtain ⟨rfl, hposted⟩ := hjob job rfl
    have hk := (Later.keeps (Later.keeps hinv.reachable ha.sent).1 ha.arrived).2 key
    exact JobRead.later ⟨hposted, rfl, id, fun _ => id⟩ hk
  · exact fun h m w t e src dst time w' t' hinv hp ha => hP h m w t _ w' t' hinv hp ha

/-- A job that is read, if the read succeeds, was posted. -/
theorem triple_attemptJob (hP : S.Steady P) : S.Triple P (attempt (getJob key))
    (fun chainJob h w t => P h w t ∧ (chainJob ≠ none → (w.state.jobs key).jobId ≠ 0)) (fun _ => P) :=
  Triple.attempt ((triple_getJob hP).mono (fun _ _ _ => id)
    (fun _ _ _ _ hp => ⟨hp.1, fun _ => hp.2.1⟩) (fun _ _ _ _ hp => ⟨hp, fun hn => absurd rfl hn⟩))

/-- What `getOnChainBidCount` tells. -/
def CountRead (key n : ℕ) : Setting.Fact := fun h w _ =>
  (w.state.jobs key).jobId ≠ 0 ∧ n ≤ (agents w key).length ∧ (n = 0 → EmptyRead h key)

theorem steady_countRead (n : ℕ) : S.Steady (CountRead key n) := by
  refine steady_of fun h w t h' w' t' hf hh hk _ => ⟨(hk key).posted hf.1, ?_, fun hn => ?_⟩
  · exact hf.2.1.trans (agents_length_later (hk key))
  · obtain ⟨e, he, hread⟩ := hf.2.2 hn
    exact ⟨e, hh e he, hread⟩

theorem triple_getOnChainBidCount (hP : S.Steady P) :
    S.Triple P (getOnChainBidCount key) (fun n h w t => P h w t ∧ CountRead key n h w t) (fun _ => P) := by
  refine Triple.call (fun h m w t _ _ => trivial) ?_ ?_
  · intro h m w t n src dst time w' t' hinv hp ha
    refine ⟨hP h m w t _ w' t' hinv hp ha, ?_⟩
    have hserved : serves S.this src (.getBidCount key) (.ok n) dst := ha.served
    obtain ⟨rfl, hread⟩ := hserved
    obtain ⟨hn, hposted⟩ := hread n rfl
    have hk := (Later.keeps (Later.keeps hinv.reachable ha.sent).1 ha.arrived).2 key
    refine ⟨hk.posted hposted, ?_, ?_⟩
    · have hlength : (agents dst key).length = n := by rw [hn, agents, List.length_map]
      rw [← hlength]
      exact agents_length_later hk
    · rintro rfl
      exact ⟨_, List.mem_append_right _ (List.mem_singleton_self _), .count, List.length_eq_zero_iff.mp hn.symm⟩
  · exact fun h m w t e src dst time w' t' hinv hp ha => hP h m w t _ w' t' hinv hp ha

theorem triple_getOnChainBids (hP : S.Steady P) {n : ℕ} (hn : ∀ h w t, P h w t → n ≤ (agents w key).length) :
    S.Triple P (getOnChainBids key)
      (fun bids h w t => P h w t ∧ (n ≤ bids.length ∧ bids.map AgentBid.agent <+: agents w key)) (fun _ => P) := by
  refine Triple.call (fun h m w t _ _ => trivial) ?_ ?_
  · intro h m w t bids src dst time w' t' hinv hp ha
    refine ⟨hP h m w t _ w' t' hinv hp ha, ?_⟩
    have hserved : serves S.this src (.getBidsForJob key) (.ok bids) dst := ha.served
    obtain ⟨rfl, hread⟩ := hserved
    obtain ⟨rfl, -⟩ := hread bids rfl
    obtain ⟨hsrc, hk⟩ := Later.keeps hinv.reachable ha.sent
    have hlength := (hn h w t hp).trans (agents_length_later (hk key))
    rw [agents, List.length_map] at hlength
    exact ⟨hlength, ((Later.keeps hsrc ha.arrived).2 key).bidders⟩
  · exact fun h m w t e src dst time w' t' hinv hp ha => hP h m w t _ w' t' hinv hp ha

/-! ## Readiness -/

/-- What a readiness check is worth: where it finds no bids, the job may be closed, where it finds the job ready,
there are bids, and a job of which it knows the deadline is on the chain. -/
structure Readiness (S : Setting) (inputs : ReadinessInputs) (h : History) (w : Chain) (t : ℕ) : Prop where
  noBids : inputs.reasonCode = .noOnchainBids → MayClose S.close inputs.jobId h w t
  ready : inputs.reasonCode = .ready → ∃ n, inputs.onChainBidCount = some n ∧ 0 < n ∧ n ≤ (agents w inputs.jobId).length
  posted : inputs.deadlineSec ≠ none → (w.state.jobs inputs.jobId).jobId ≠ 0

theorem steady_readiness (inputs : ReadinessInputs) : S.Steady (Readiness S inputs) := by
  refine steady_of fun h w t h' w' t' hf hh hk ht => ⟨fun hcode => ?_, fun hcode => ?_, fun hd => ?_⟩
  · exact (hf.noBids hcode).later (hk _) ht hh
  · obtain ⟨n, hn, hpos, hle⟩ := hf.ready hcode
    exact ⟨n, hn, hpos, hle.trans (agents_length_later (hk _))⟩
  · exact (hk _).posted (hf.posted hd)

theorem ReadinessInputs.deadlineSec_eq_some {inputs : ReadinessInputs} {d : ℕ} (hhint : inputs.hint.deadlineSec = none)
    (hd : inputs.deadlineSec = some d) :
    (∃ job, inputs.chainJob = some job ∧ (d = job.auctionDeadline ∨ job.auctionDeadline = 0)) ∨
      (inputs.chainJob = none ∧ inputs.localDeadlineSec = some d) := by
  unfold ReadinessInputs.deadlineSec at hd
  rw [hhint] at hd
  cases hchain : inputs.chainJob with
  | some job =>
    refine .inl ⟨job, rfl, ?_⟩
    by_cases hzero : job.auctionDeadline = 0
    · exact .inr hzero
    · have hpos : 0 < job.auctionDeadline := Nat.pos_of_ne_zero hzero
      rw [hchain] at hd
      simp [List.findSome?, Option.filter, hpos] at hd
      exact .inl hd.symm
  | none =>
    refine .inr ⟨rfl, ?_⟩
    rw [hchain] at hd
    cases hlocal : inputs.localDeadlineSec with
    | none => simp [List.findSome?, Option.filter, hlocal] at hd
    | some d' =>
      rw [hlocal] at hd
      by_cases hpos : 0 < d'
      · simp [List.findSome?, Option.filter, hpos] at hd
        rw [hd]
      · simp [List.findSome?, Option.filter, hpos] at hd

/-- What a readiness check knows of its inputs. -/
structure InputsSound (inputs : ReadinessInputs) (h : History) (w : Chain) (t : ℕ) : Prop where
  hint : inputs.hint = .none ∨ HintSound w inputs.jobId inputs.hint
  chainJob : ∀ job, inputs.chainJob = some job → JobRead inputs.jobId job w
  localDeadline : inputs.localDeadlineSec ≠ none → (w.state.jobs inputs.jobId).jobId ≠ 0
  now : inputs.nowSec ≤ t / 1000
  hinted : ∀ n, inputs.hint.onChainBidCount = some n → inputs.onChainBidCount = some n
  counted : inputs.hint.onChainBidCount = none → ∀ n, inputs.onChainBidCount = some n →
    CountRead inputs.jobId n h w t

namespace InputsSound

variable {inputs : ReadinessInputs} {h : History} {w : Chain} {t : ℕ}

theorem posted (hi : InputsSound inputs h w t) (hd : inputs.deadlineSec ≠ none) :
    (w.state.jobs inputs.jobId).jobId ≠ 0 := by
  rcases hi.hint with hhint | hhint
  · obtain ⟨d, hd⟩ := Option.ne_none_iff_exists'.mp hd
    have hnone : inputs.hint.deadlineSec = none := by rw [hhint]; rfl
    rcases ReadinessInputs.deadlineSec_eq_some hnone hd with ⟨job, hjob, -⟩ | ⟨-, hlocal⟩
    · exact (hi.chainJob job hjob).1
    · exact hi.localDeadline (by rw [hlocal]; exact Option.some_ne_none d)
  · exact hhint.1

theorem ready (hi : InputsSound inputs h w t) (hcode : inputs.reasonCode = .ready) :
    ∃ n, inputs.onChainBidCount = some n ∧ 0 < n ∧ n ≤ (agents w inputs.jobId).length := by
  have hcount : inputs.onChainBidCount.getD 0 ≠ 0 := by
    intro hzero
    unfold ReadinessInputs.reasonCode at hcode
    split_ifs at hcode
  cases hn : inputs.onChainBidCount with
  | none =>
    rw [hn] at hcount
    exact absurd rfl hcount
  | some n =>
    rw [hn] at hcount
    refine ⟨n, rfl, Nat.pos_of_ne_zero hcount, ?_⟩
    cases hhint : inputs.hint.onChainBidCount with
    | none => exact (hi.counted hhint n hn).2.1
    | some n' =>
      rcases hi.hint with hnone | ⟨-, k, hk, -, hle⟩
      · rw [hnone] at hhint
        cases hhint
      · have hsame := hi.hinted k hk
        rw [hn] at hsame
        exact Option.some_inj.mp hsame ▸ hle

theorem noBids {close : Prop} (hi : InputsSound inputs h w t) (hgood : close → ReadinessGood w inputs)
    (hcode : inputs.reasonCode = .noOnchainBids) : MayClose close inputs.jobId h w t := by
  have hfound : inputs.deadlineReached = true ∧ inputs.onChainBidCount.getD 0 = 0 := by
    unfold ReadinessInputs.reasonCode at hcode
    split_ifs at hcode with h₁ h₂ h₃ h₄
    exact ⟨Bool.eq_true_of_not_eq_false h₃, h₄⟩
  obtain ⟨hreached, hzero⟩ := hfound
  unfold ReadinessInputs.deadlineReached at hreached
  rw [Option.any_eq_true] at hreached
  obtain ⟨d, hd, hle⟩ := hreached
  have hle : d ≤ inputs.nowSec := of_decide_eq_true hle
  refine ⟨hi.posted (by rw [hd]; exact Option.some_ne_none d), fun hclose => ?_⟩
  obtain ⟨hcounted, hlocal⟩ := hgood hclose hcode
  obtain ⟨n, hn⟩ := Option.ne_none_iff_exists'.mp hcounted
  rw [hn, Option.getD_some] at hzero
  subst hzero
  -- A caller that hints has seen bids.
  have hnone : inputs.hint = .none := by
    rcases hi.hint with hnone | ⟨-, k, hk, hpos, -⟩
    · exact hnone
    · have hsame := hi.hinted k hk
      rw [hn] at hsame
      exact absurd (Option.some_inj.mp hsame) (Nat.ne_of_lt hpos)
  have hread := hi.counted (by rw [hnone]; rfl) 0 hn
  refine ⟨hread.2.2 rfl, ?_⟩
  have hpassed : (w.state.jobs inputs.jobId).auctionDeadline ≤ inputs.nowSec := by
    have hhint : inputs.hint.deadlineSec = none := by rw [hnone]; rfl
    rcases ReadinessInputs.deadlineSec_eq_some hhint hd with ⟨job, hjob, hdead⟩ | ⟨hchain, hsome⟩
    · have hdeadline := (hi.chainJob job hjob).2.1
      omega
    · have hearlier := hlocal hhint hchain d hsome
      omega
  exact hpassed.trans hi.now

end InputsSound

theorem triple_bidCount (hP : S.Steady P) (hint : ReadinessHint) :
    S.Triple P (readinessBidCount key hint)
      (fun count h w t => P h w t ∧ (∀ n, hint.onChainBidCount = some n → count = some n) ∧
        (hint.onChainBidCount = none → ∀ n, count = some n → CountRead key n h w t))
      (fun _ => P) := by
  unfold readinessBidCount
  cases hhint : hint.onChainBidCount with
  | some count =>
    refine Triple.pure fun h w t hp => ⟨hp, ?_, nofun⟩
    rintro n ⟨⟩
    rfl
  | none =>
    refine Triple.attempt ((triple_getOnChainBidCount hP).mono (fun _ _ _ => id) ?_ ?_)
    · rintro n h w t ⟨hp, hread⟩
      refine ⟨hp, nofun, fun _ n' hn => ?_⟩
      rw [← Option.some_inj.mp hn]
      exact hread
    · exact fun _ h w t hp => ⟨hp, nofun, fun _ _ => nofun⟩

/-- `evaluateWinnerSelectionReadiness`. -/
theorem triple_readiness (hP : S.Steady P) (hint : ReadinessHint)
    (hhint : ∀ h w t, P h w t → hint = .none ∨ HintSound w key hint) :
    S.Triple P (evaluateWinnerSelectionReadiness key hint)
      (fun inputs h w t => P h w t ∧ inputs.jobId = key ∧ Readiness S inputs h w t) (fun _ => P) := by
  refine Triple.bind (Triple.memory (Q := fun _ => P) fun _ _ _ _ _ hp => hp) fun m₀ => ?_
  -- The job on the chain.
  have hjob : S.Triple P (attempt (getJob key))
      (fun chainJob h w t => P h w t ∧ ∀ job, chainJob = some job → JobRead key job w) (fun _ => P) := by
    refine Triple.attempt ((triple_getJob hP).mono (fun _ _ _ => id) ?_ ?_)
    · rintro job h w t ⟨hp, hread⟩
      refine ⟨hp, fun job' hjob => ?_⟩
      rw [← Option.some_inj.mp hjob]
      exact hread
    · exact fun _ h w t hp => ⟨hp, nofun⟩
  refine Triple.bind hjob fun chainJob => ?_
  have hsteady₁ : S.Steady fun h w t => P h w t ∧ ∀ job, chainJob = some job → JobRead key job w :=
    hP.and (steady_chain fun _ _ hf hk job hjob => (hf job hjob).later (hk key))
  -- The job at hand, and the time.
  refine Triple.bind (Triple.memory (Q := fun m h w t =>
    (P h w t ∧ ∀ job, chainJob = some job → JobRead key job w) ∧
      ∀ v, (m.object key v).auctionDeadlineSec ≠ none → (w.state.jobs key).jobId ≠ 0) ?_) fun m => ?_
  · exact fun h m w t hinv hp => ⟨hp, fun v => (hinv.jobs key v).deadline⟩
  refine Triple.bind (Triple.time (Q := fun now h w t =>
    ((P h w t ∧ ∀ job, chainJob = some job → JobRead key job w) ∧
      ∀ v, (m.object key v).auctionDeadlineSec ≠ none → (w.state.jobs key).jobId ≠ 0) ∧ now ≤ t) ?_) fun now => ?_
  · exact fun h w t hp => ⟨hp, Nat.le_refl t⟩
  have hsteady₂ : S.Steady fun h w t => ((P h w t ∧ ∀ job, chainJob = some job → JobRead key job w) ∧
      ∀ v, (m.object key v).auctionDeadlineSec ≠ none → (w.state.jobs key).jobId ≠ 0) ∧ now ≤ t := by
    refine Steady.and (hsteady₁.and ?_) ?_
    · exact steady_chain fun _ _ hf hk v hd => (hk key).posted (hf v hd)
    · exact fun _ _ _ t _ _ t' _ hle ha => hle.trans (ha.before.trans ha.after)
  refine Triple.bind ((triple_bidCount hsteady₂ hint).mono (fun _ _ _ => id) (fun _ _ _ _ => id)
    fun _ _ _ _ hp => hp.1.1.1) fun count => ?_
  -- All of it together.
  refine Triple.bind Triple.tell fun _ => Triple.pure ?_
  rintro h w t ⟨⟨⟨⟨⟨hp, hchain⟩, hlocal⟩, hnow⟩, hhinted, hcounted⟩, hgood⟩
  have hdeadline : ((m₀.getJobByKey key).bind fun v => (m.object key v).auctionDeadlineSec) ≠ none →
      (w.state.jobs key).jobId ≠ 0 := by
    intro hd
    obtain ⟨d, hd⟩ := Option.ne_none_iff_exists'.mp hd
    obtain ⟨v, -, hv⟩ := Option.bind_eq_some_iff.mp hd
    exact hlocal v (by rw [hv]; exact Option.some_ne_none d)
  have hsound : InputsSound ⟨key, (m₀.getJobByKey key).isSome, chainJob, hint,
      (m₀.getJobByKey key).bind fun v => (m.object key v).auctionDeadlineSec, now / 1000, count⟩ h w t := {
    hint := hhint h w t hp
    chainJob := hchain
    localDeadline := hdeadline
    now := Nat.div_le_div_right hnow
    hinted := hhinted
    counted := hcounted }
  exact ⟨hp, rfl, fun hcode => hsound.noBids hgood hcode, hsound.ready, hsound.posted⟩

end AuditGuard.Orchestrator
