import AuditGuard.SubAuction.Effects

/-!
# SubAuction: is there a chance to deliver?

The deadline for the result is fixed when the sub-job is created, and the requester selects a bid whenever
it likes. A selected agent that finds the deadline passed can only be slashed. Whether every selection
leaves a chance to deliver depends on one thing only: that it happens within the sub-job's
`slaDurationSeconds`, counted from its creation.
-/

namespace AuditGuard.SubAuction

open Evm TransitionSystem

/-- The transition creates the sub-job `id`, with the deadline for its result. -/
def Creates (id deadline : ℕ) (tr : Transition (World State) (Label Env Call)) : Prop :=
  ∃ env parentJobId taskDescription requiredSpecialization paymentAmount slaDurationSeconds
      auctionDurationSeconds,
    tr.label = .call env (.createSubAuction parentJobId taskDescription requiredSpecialization
      paymentAmount slaDurationSeconds auctionDurationSeconds) ∧
    tr.src.state.nextSubJobId = id ∧ deadline = env.timestamp + slaDurationSeconds

/-- The transition selects a bid for the sub-job `id`. -/
def Selects (id : ℕ) (tr : Transition (World State) (Label Env Call)) : Prop :=
  ∃ env subJobId bidIndex, tr.label = .call env (.selectSubContractor subJobId bidIndex) ∧
    subJobId.val = id

/-- The transition is a successful `claimExpired` for the sub-job `id`. -/
def Expires (id : ℕ) (tr : Transition (World State) (Label Env Call)) : Prop :=
  ∃ env subJobId, tr.label = .call env (.claimExpired subJobId) ∧ subJobId.val = id

/-- At the time `t`, `deliverResult` by the agent would succeed. -/
def CanDeliver (this agent : Address) (id t : ℕ) (w : World State) : Prop :=
  ∃ (env : Env) (subJobId resultHash : UInt 256), env.sender = agent ∧ env.timestamp = t ∧
    subJobId.val = id ∧ (exec this env (.deliverResult subJobId resultHash) w).isOk = true

/-- Nobody is slashed for the sub-job `id` without a chance to deliver: before every `claimExpired` the agent
was selected, and between the two there was a moment at which its delivery would have succeeded; and every
selection leaves the deadline ahead. -/
def Fair (this : Address) (id : ℕ) (ts : List (Transition (World State) (Label Env Call))) : Prop :=
  (∀ pre expiry post, ts = pre ++ expiry :: post → Expires id expiry →
    ∃ pre₁ selection mid, pre = pre₁ ++ selection :: mid ∧ Selects id selection ∧
      ∃ moment ∈ selection.dst :: mid.map Transition.dst, ∃ t, moment.now ≤ t ∧ t ≤ expiry.dst.now ∧
        CanDeliver this (expiry.src.state.subJobs id).selectedAgent id t moment) ∧
  ∀ selection ∈ ts, Selects id selection →
    selection.dst.now ≤ (selection.dst.state.subJobs id).slaDeadline

/-- Bids are selected for the sub-job `id` within its `slaDurationSeconds`, counted from its creation. -/
def InTime (id : ℕ) (ts : List (Transition (World State) (Label Env Call))) : Prop :=
  ∀ creation ∈ ts, ∀ deadline, Creates id deadline creation →
    ∀ selection ∈ ts, Selects id selection → selection.dst.now ≤ deadline

variable {this : Address} {env : Env} {w w' : World State} {id : ℕ} {l : Label Env Call}
  {ts : List (Transition (World State) (Label Env Call))}

/-! ## What a step does to one sub-job -/

theorem Step.file (hw : (contract this).system.Reachable w) (h : (contract this).Step w l w') :
    w'.state.file id = w.state.file id ∨ ∃ env c op, l = .call env c ∧
      c.Does env w.state (.job id op) ∧ SubStep this (w.state.file id) op (w'.state.file id) := by
  have hb := reachable_sound hw
  cases h with
  | elsewhere _ _ => exact .inl rfl
  | @call env c w w' hs h0 ht hexec =>
    rcases exec_ok hb hs hexec with ⟨op, hdoes, hstep⟩ | ⟨-, hsame⟩
    · rcases hstep.file id with hsame | ⟨op, rfl, hjob⟩
      · exact .inl hsame
      · exact .inr ⟨env, c, op, rfl, hdoes, hjob⟩
    · exact .inl (congrFun (congrArg Books.files hsame) id)

theorem Call.Does.creates {c : Call} {requester : Address} {payment slaDeadline : ℕ}
    (h : c.Does env w.state (.job id (.create requester payment slaDeadline))) :
    Creates id slaDeadline ⟨w, .call env c, w'⟩ := by
  cases c with
  | createSubAuction parentJobId taskDescription requiredSpecialization paymentAmount
      slaDurationSeconds auctionDurationSeconds =>
    simp only [Does, BookOp.job.injEq, SubOp.create.injEq] at h
    obtain ⟨hid, -, -, hdeadline⟩ := h
    exact ⟨env, parentJobId, taskDescription, requiredSpecialization, paymentAmount,
      slaDurationSeconds, auctionDurationSeconds, rfl, hid.symm, hdeadline⟩
  | resolveDispute subJobId inFavorOfContractor => cases inFavorOfContractor <;> simp [Does] at h
  | _ => simp [Does] at h

theorem Call.Does.selects {c : Call} {i : ℕ} {b : SubBid}
    (h : c.Does env w.state (.job id (.select i b))) : Selects id ⟨w, .call env c, w'⟩ := by
  cases c with
  | selectSubContractor subJobId bidIndex =>
    simp only [Does, BookOp.job.injEq, SubOp.select.injEq] at h
    obtain ⟨b, hid, -, -⟩ := h
    exact ⟨env, subJobId, bidIndex, rfl, hid.symm⟩
  | resolveDispute subJobId inFavorOfContractor => cases inFavorOfContractor <;> simp [Does] at h
  | _ => simp [Does] at h

theorem SubStep.of_inProgress {f f' : SubJobFile} {op : SubOp} (h : SubStep this f op f')
    (hprogress : f'.status = .inProgress) : ∃ i b, op = .select i b := by
  cases h with
  | @select _ i b => exact ⟨i, b, rfl⟩
  | create => simp [SubJobFile.blank] at hprogress
  | bid _ hopen =>
    dsimp only at hprogress
    rw [hopen] at hprogress
    cases hprogress
  | slash _ hstatus =>
    rcases hstatus with ⟨-, -, rfl⟩ | ⟨-, -, rfl⟩ <;> cases hprogress
  | _ => cases hprogress

theorem SubStep.of_expired {f f' : SubJobFile} {b : SubBid} {percent : ℕ}
    (h : SubStep this f (.slash b percent .expired) f') : f.status = .inProgress := by
  cases h with
  | slash hposted hstatus =>
    rcases hstatus with ⟨-, -, hresult⟩ | ⟨hprogress, -, -⟩
    · cases hresult
    · exact hprogress

theorem SubStep.deadline {f f' : SubJobFile} {op : SubOp} (h : SubStep this f op f') :
    (∃ requester payment, op = .create requester payment f'.slaDeadline) ∧ f.posted = false ∨
      (∀ requester payment slaDeadline, op ≠ .create requester payment slaDeadline) ∧
        f.posted = true ∧ f'.slaDeadline = f.slaDeadline := by
  cases h with
  | @create requester payment => exact .inl ⟨⟨requester, payment, rfl⟩, rfl⟩
  | bid hposted | select hposted | deliver hposted | dispute hposted | pay hposted | slash hposted
  | cancel hposted => exact .inr ⟨fun _ _ _ h => (nomatch h), hposted, rfl⟩

theorem Step.creates {deadline : ℕ} (hw : (contract this).system.Reachable w)
    (h : (contract this).Step w l w') (hcreates : Creates id deadline ⟨w, l, w'⟩) :
    ∃ requester payment, SubStep this (w.state.file id) (.create requester payment deadline)
      (w'.state.file id) := by
  obtain ⟨env, parentJobId, taskDescription, requiredSpecialization, paymentAmount,
    slaDurationSeconds, auctionDurationSeconds, rfl, rfl, rfl⟩ := hcreates
  cases h with
  | call hs h0 ht hexec =>
    have hcall : exec this env (.createSubAuction parentJobId taskDescription requiredSpecialization
      paymentAmount slaDurationSeconds auctionDurationSeconds) w = .ok _ := hexec
    rcases exec_ok (reachable_sound hw) hs hcall with ⟨op, rfl, hstep⟩ | ⟨hidle, -⟩
    · exact ⟨_, _, hstep.of_job⟩
    · exact absurd rfl (hidle _)

theorem Step.selects (hw : (contract this).system.Reachable w) (h : (contract this).Step w l w')
    (hselects : Selects id ⟨w, l, w'⟩) :
    (∃ i b, SubStep this (w.state.file id) (.select i b) (w'.state.file id)) ∧
      w'.state.paused = false := by
  obtain ⟨env, subJobId, bidIndex, rfl, rfl⟩ := hselects
  cases h with
  | call hs h0 ht hexec =>
    have hcall : exec this env (.selectSubContractor subJobId bidIndex) _ = .ok _ := hexec
    constructor
    · rcases exec_ok (reachable_sound hw) hs hcall with ⟨op, ⟨b, rfl⟩, hstep⟩ | ⟨hidle, -⟩
      · exact ⟨_, b, hstep.of_job⟩
      · exact absurd ⟨SubBid.zero, rfl⟩ (hidle _)
    · unfold exec at hcall
      split_ifs at hcall
      have hselect : selectSubContractor this env subJobId bidIndex _ = .ok _ := hcall
      have hunpaused := selectSubContractor_unpaused hselect
      exact hunpaused

theorem Step.expires (hw : (contract this).system.Reachable w) (h : (contract this).Step w l w')
    (hexpires : Expires id ⟨w, l, w'⟩) : (w.state.file id).status = .inProgress := by
  obtain ⟨env, subJobId, rfl, rfl⟩ := hexpires
  cases h with
  | call hs h0 ht hexec =>
    have hcall : exec this env (.claimExpired subJobId) _ = .ok _ := hexec
    rcases exec_ok (reachable_sound hw) hs hcall with ⟨op, ⟨b, rfl⟩, hstep⟩ | ⟨hidle, -⟩
    · exact hstep.of_job.of_expired
    · exact absurd ⟨SubBid.zero, rfl⟩ (hidle _)

theorem Step.keeps_deadline (hw : (contract this).system.Reachable w)
    (h : (contract this).Step w l w') (hposted : (w.state.file id).posted = true) :
    (w'.state.file id).posted = true ∧
      (w'.state.file id).slaDeadline = (w.state.file id).slaDeadline := by
  rcases Step.file hw h with hsame | ⟨env, c, op, -, -, hjob⟩
  · rw [hsame]
    exact ⟨hposted, rfl⟩
  · rcases hjob.deadline with ⟨-, hunposted⟩ | ⟨-, -, hkept⟩
    · rw [hunposted] at hposted
      cases hposted
    · exact ⟨hjob.posted, hkept⟩

/-! ## A whole run -/

/-- What a run tells about the sub-job `id`: it was created once, with the deadline that it still has, also
when a bid was selected; and if work is in progress, nothing happened to the sub-job since the selection. -/
structure Timeline (id : ℕ) (ts : List (Transition (World State) (Label Env Call))) (f : SubJobFile) :
    Prop where
  created : f.posted = true → ∃ tr ∈ ts, Creates id f.slaDeadline tr
  creation : ∀ tr ∈ ts, ∀ deadline, Creates id deadline tr →
    f.posted = true ∧ f.slaDeadline = deadline
  selection : ∀ tr ∈ ts, Selects id tr →
    f.posted = true ∧ f.slaDeadline = (tr.dst.state.file id).slaDeadline
  progress : f.status = .inProgress → ∃ pre selection mid, ts = pre ++ selection :: mid ∧
    Selects id selection ∧ selection.dst.state.file id = f ∧ selection.dst.state.paused = false

/-- A step continues the timeline. -/
theorem Timeline.step (hw : (contract this).system.Reachable w) (ht : Timeline id ts (w.state.file id))
    (h : (contract this).Step w l w') : Timeline id (ts ++ [⟨w, l, w'⟩]) (w'.state.file id) := by
  constructor
  case created =>
    intro hposted'
    -- A sub-job that existed before was created by an earlier transition, and a new one by this.
    by_cases hposted : (w.state.file id).posted = true
    · obtain ⟨tr, htr, hcreates⟩ := ht.created hposted
      rw [(Step.keeps_deadline hw h hposted).2]
      exact ⟨tr, List.mem_append_left _ htr, hcreates⟩
    · refine ⟨_, List.mem_append_right _ (List.mem_singleton_self _), ?_⟩
      rcases Step.file hw h with hsame | ⟨env, c, op, hl, hdoes, hjob⟩
      · rw [hsame] at hposted'
        exact absurd hposted' hposted
      · subst hl
        rcases hjob.deadline with ⟨⟨requester, payment, rfl⟩, -⟩ | ⟨-, hbefore, -⟩
        · exact hdoes.creates
        · exact absurd hbefore hposted
  case creation =>
    intro tr htr deadline hcreates
    rcases List.mem_append.mp htr with htr | htr
    · obtain ⟨hposted, rfl⟩ := ht.creation tr htr deadline hcreates
      exact Step.keeps_deadline hw h hposted
    · rw [List.mem_singleton] at htr
      subst htr
      obtain ⟨requester, payment, hjob⟩ := Step.creates hw h hcreates
      generalize w'.state.file id = f' at hjob ⊢
      generalize w.state.file id = f at hjob
      cases hjob
      exact ⟨rfl, rfl⟩
  case selection =>
    intro tr htr hselects
    rcases List.mem_append.mp htr with htr | htr
    · obtain ⟨hposted, hdeadline⟩ := ht.selection tr htr hselects
      rw [← hdeadline]
      exact Step.keeps_deadline hw h hposted
    · rw [List.mem_singleton] at htr
      subst htr
      obtain ⟨⟨i, b, hjob⟩, -⟩ := Step.selects hw h hselects
      exact ⟨hjob.posted, rfl⟩
  case progress =>
    intro hprogress
    rcases Step.file hw h with hsame | ⟨env, c, op, hl, hdoes, hjob⟩
    · rw [hsame] at hprogress ⊢
      obtain ⟨pre, selection, mid, rfl, hselects, hfile, hpaused⟩ := ht.progress hprogress
      exact ⟨pre, selection, mid ++ [⟨w, l, w'⟩], by simp, hselects, hfile, hpaused⟩
    · subst hl
      obtain ⟨i, b, rfl⟩ := hjob.of_inProgress hprogress
      have hselects : Selects id ⟨w, .call env c, w'⟩ := hdoes.selects
      exact ⟨ts, _, [], rfl, hselects, rfl, (Step.selects hw h hselects).2⟩

theorem timeline (id : ℕ) (hr : (contract this).system.Run ts w) : Timeline id ts (w.state.file id) := by
  induction hr with
  | @init w hfresh =>
    obtain ⟨deployer, guardToken, agentRegistry, mainAuction, treasury, hstate⟩ :=
      fresh_state_eq (show (contract this).fresh w.state from hfresh)
    have hblank : w.state.file id = SubJobFile.blank := by
      rw [hstate]
      rfl
    rw [hblank]
    constructor <;> simp [SubJobFile.blank]
  | step hr h ih => exact ih.step hr.reachable h

theorem canDeliver_of_inProgress (hposted : (w.state.file id).posted = true) (hid : id < 2^256)
    (hprogress : (w.state.file id).status = .inProgress) (hpaused : w.state.paused = false) {t : ℕ}
    (ht : t ≤ (w.state.file id).slaDeadline) :
    CanDeliver this (w.state.subJobs id).selectedAgent id t w := by
  have hexists : (w.state.subJobs id).subJobId ≠ 0 := of_decide_eq_true hposted
  have hone : (1 : UInt 256) ≠ 0 := by decide
  obtain ⟨s, hdelivers⟩ : ∃ s, deliverResult (sampleEnv (w.state.subJobs id).selectedAgent t) id
      (1 : UInt 256) w.state = .ok s := by
    simp only [deliverResult, whenNotPaused, getExistingSubJob, bind_eq_ok, modifier_eq_ok,
      require_eq_ok, pure_eq_ok]
    exact ⟨_, (), hpaused, _, ⟨(), hexists, rfl⟩, (), rfl, (), hprogress, (), ht, (), hone, rfl⟩
  refine ⟨sampleEnv (w.state.subJobs id).selectedAgent t, ⟨id, hid⟩, 1, rfl, rfl, rfl, ?_⟩
  have hexec : exec this (sampleEnv (w.state.subJobs id).selectedAgent t)
      (.deliverResult ⟨id, hid⟩ 1) w = .ok { w with state := s } := onState_eq_ok.mpr ⟨s, hdelivers, rfl⟩
  rw [hexec]
  rfl

/-- In every run, nobody is slashed for a sub-job without a chance to deliver, and every selection leaves the
deadline ahead, exactly when bids are selected for it within its `slaDurationSeconds`, counted from its
creation. -/
theorem fair_iff_inTime (hr : (contract this).system.Run ts w) : Fair this id ts ↔ InTime id ts := by
  have htimeline := timeline id hr
  constructor
  · rintro ⟨-, hahead⟩ creation hcreation deadline hcreates selection hselection hselects
    have hdeadline := (htimeline.creation creation hcreation deadline hcreates).2
    have hselected := (htimeline.selection selection hselection hselects).2
    have hnow := hahead selection hselection hselects
    change selection.dst.now ≤ (selection.dst.state.file id).slaDeadline at hnow
    omega
  · intro hintime
    have hahead : ∀ selection ∈ ts, Selects id selection →
        selection.dst.now ≤ (selection.dst.state.subJobs id).slaDeadline := by
      intro selection hselection hselects
      obtain ⟨hposted, hselected⟩ := htimeline.selection selection hselection hselects
      obtain ⟨creation, hcreation, hcreates⟩ := htimeline.created hposted
      have hnow := hintime creation hcreation _ hcreates selection hselection hselects
      rw [hselected] at hnow
      exact hnow
    refine ⟨?_, hahead⟩
    rintro pre expiry post rfl hexpires
    -- What expires is in progress, so a selection came before, after which the agent could deliver.
    obtain ⟨hpre, hstep⟩ := hr.before
    have hprogress := Step.expires hpre.reachable hstep hexpires
    obtain ⟨pre₁, selection, mid, rfl, hselects, hfile, hpaused⟩ :=
      (timeline id hpre).progress hprogress
    have hmem : selection ∈ pre₁ ++ selection :: mid := by simp
    have hnow : selection.dst.now ≤ expiry.dst.now :=
      (Contract.run_now_le hpre selection hmem).trans (Contract.Step.now_le hstep)
    refine ⟨pre₁, selection, mid, rfl, hselects, selection.dst, List.mem_cons_self .., selection.dst.now,
      le_rfl, hnow, ?_⟩
    have hposted := ((timeline id hpre).selection selection hmem hselects).1
    rw [← hfile] at hposted hprogress
    have hagent : (expiry.src.state.subJobs id).selectedAgent =
        (selection.dst.state.subJobs id).selectedAgent := congrArg SubJobFile.selected hfile.symm
    rw [hagent]
    obtain ⟨env, subJobId, rfl⟩ : ∃ (env : Env) (subJobId : UInt 256), subJobId.val = id := by
      obtain ⟨env, subJobId, -, hid⟩ := hexpires
      exact ⟨env, subJobId, hid⟩
    exact canDeliver_of_inProgress hposted subJobId.isLt hprogress hpaused
      (hahead selection (List.mem_append_left _ hmem) hselects)

/-! ## A bid selected after the deadline -/

/-- The calls on a sub-job with a deadline after a minute, for which the requester selects a bid after a
hundred seconds. -/
def lateCalls : List (Env × Call) :=
  [(sampleEnv 2 0, .createSubAuction 1 "fuzz the parser" "fuzzing" (100 * 10^8) 60 120),
    (sampleEnv 3 1, .submitSubBid 1 (80 * 10^8) 30 (40 * 10^8)),
    (sampleEnv 2 100, .selectSubContractor 1 0),
    (sampleEnv 8 100, .claimExpired 1)]

theorem not_fair_late {ts : List (Transition (World State) (Label Env Call))}
    (htrace : (contract 1).trace lateCalls sampleWorld = .ok ts) : ¬ Fair 1 1 ts := by
  have hlabel := read_ok htrace (fun ts => ts[2]?.map Transition.label)
    (b := some (.call (sampleEnv 2 100) (.selectSubContractor 1 0))) rfl
  have htimes := read_ok htrace
    (fun ts => ts[2]?.map fun tr => (tr.dst.now, (tr.dst.state.subJobs 1).slaDeadline))
    (b := some (100, 60)) rfl
  obtain ⟨selection, hselection, hcall⟩ := Option.map_eq_some_iff.mp hlabel
  rw [hselection] at htimes
  obtain ⟨hnow, hdeadline⟩ := Prod.mk.inj (Option.some.inj htimes)
  rintro ⟨-, hahead⟩
  have hle := hahead selection (List.mem_of_getElem? hselection) ⟨_, _, _, hcall, rfl⟩
  rw [hnow, hdeadline] at hle
  omega

/-- The equivalence on the run with the late selection, where both sides fail. -/
theorem fair_iff_inTime_late : ∃ ts w, (contract 1).system.Run ts w ∧
    (Fair 1 1 ts ↔ InTime 1 ts) ∧ ¬ InTime 1 ts := by
  obtain ⟨ts, w, hcalls, hr, htrace⟩ := sample_run lateCalls (by decide) rfl
  have hiff : Fair 1 1 ts ↔ InTime 1 ts := fair_iff_inTime hr
  exact ⟨ts, w, hr, hiff, fun hintime => not_fair_late htrace (hiff.mpr hintime)⟩

/-- The agent is slashed in the block in which it was selected. -/
theorem slashed_when_selected : ∃ ts w, (contract 1).system.Run ts w ∧ ¬ Fair 1 1 ts ∧
    (w.state.subJobs 1).status = .expired ∧ (w.state.subJobs 1).selectedAgent = 3 ∧
    w.token.balance 10 = 10 * 10^8 := by
  obtain ⟨ts, w, hcalls, hr, htrace⟩ := sample_run lateCalls (by decide) rfl
  have hjob := read_ok hcalls
    (fun w => ((w.state.subJobs 1).status, (w.state.subJobs 1).selectedAgent))
    (b := (.expired, 3)) rfl
  have htreasury := read_ok hcalls (fun w => w.token.balance 10) (b := 10 * 10^8) (by decide +kernel)
  obtain ⟨hstatus, hagent⟩ := Prod.mk.inj hjob
  exact ⟨ts, w, hr, not_fair_late htrace, hstatus, hagent, htreasury⟩

end AuditGuard.SubAuction
