import AuditGuard.Reporting.System

/-!
# Reports: what the handlers leave of the desk

Findings are only added, a report stays published, and a handler keeps its job. Where the report of every job object
is published and no settlement is under way, none is ever tried again (`Closed`).
-/

namespace AuditGuard.Reporting

open Evm TransitionSystem
open Orchestrator (AddressText AgentEntry)

variable {S : Setup} {p p' : Office} {e : Event} {d v : ℕ} {h h' : Handler} {m m' : Desk} {report : Report}
  {msg : FindingsMsg}

/-! ## Desks -/

/-- Objects keep their findings and whether their report is published, and the timers and the tasks that store new
objects stay. An object comes into the map only if it is there. -/
structure Desk.Keeps (m m' : Desk) : Prop where
  findings : ∀ v, (m'.object v).findings = (m.object v).findings
  published : ∀ v, (m'.object v).reportPublished = (m.object v).reportPublished
  created : m'.created = m.created
  timers : m'.timers = m.timers
  lookups : m'.lookups = m.lookups

theorem Desk.Keeps.refl (m : Desk) : m.Keeps m := ⟨fun _ => rfl, fun _ => rfl, rfl, rfl, rfl⟩

theorem Desk.Keeps.trans {m'' : Desk} (hk : m.Keeps m') (hk' : m'.Keeps m'') : m.Keeps m'' where
  findings v := (hk'.findings v).trans (hk.findings v)
  published v := (hk'.published v).trans (hk.published v)
  created := hk'.created.trans hk.created
  timers := hk'.timers.trans hk.timers
  lookups := hk'.lookups.trans hk.lookups

theorem Desk.keeps_update (m : Desk) (v : ℕ) (f : JobObject → JobObject)
    (hfindings : ∀ job, (f job).findings = job.findings)
    (hpublished : ∀ job, (f job).reportPublished = job.reportPublished) : m.Keeps (m.update v f) := by
  refine ⟨fun w => ?_, fun w => ?_, rfl, rfl, rfl⟩
  · by_cases hw : w = v
    · subst hw
      simp only [Desk.update, Function.update_self, hfindings]
    · simp only [Desk.update, Function.update_of_ne hw]
  · by_cases hw : w = v
    · subst hw
      simp only [Desk.update, Function.update_self, hpublished]
    · simp only [Desk.update, Function.update_of_ne hw]

theorem Desk.keeps_setJobByKey (m : Desk) (v : ℕ) : m.Keeps (m.setJobByKey v) :=
  ⟨fun _ => rfl, fun _ => rfl, rfl, rfl, rfl⟩

theorem Desk.keeps_markSettled (m : Desk) (v : ℕ) : m.Keeps (m.markSettled v) :=
  (m.keeps_update v (fun job => { job with settled := true }) (fun _ => rfl) fun _ => rfl).trans
    (Desk.keeps_setJobByKey _ v)

theorem keeps_hydrate (v : ℕ) (a : Except String (List AddressText)) (m : Desk) :
    m.Keeps (hydrateReportMetadataFromChain v a m) ∧
      ((hydrateReportMetadataFromChain v a m).current = m.current ∨
        (hydrateReportMetadataFromChain v a m).current = some v) ∧
      (hydrateReportMetadataFromChain v a m).attempts = m.attempts := by
  unfold hydrateReportMetadataFromChain
  cases a with
  | error error => exact ⟨.refl m, .inl rfl, rfl⟩
  | ok chainWinners =>
    dsimp only
    split_ifs
    · exact ⟨(m.keeps_update v (fun job => { job with winners := chainWinners }) (fun _ => rfl) fun _ => rfl).trans
        (Desk.keeps_setJobByKey _ v), .inr rfl, rfl⟩
    · exact ⟨.refl m, .inl rfl, rfl⟩

/-! ## Answers -/

/-- What a handler does that is past the publication: it goes to the next place, and leaves the findings and the
reports alone. -/
structure GoesOn (S : Setup) (d : ℕ) (h : Handler) (a : Except String h.pos.Answer) (m : Desk) : Prop where
  handler : (resume S.cfg S.orchestratorAddress d h a m).2 =
    { h with pos := next S.cfg S.orchestratorAddress m.roster h.report (m.object h.job) h.pos a }
  keeps : m.Keeps (resume S.cfg S.orchestratorAddress d h a m).1
  current : (resume S.cfg S.orchestratorAddress d h a m).1.current = m.current ∨
    (resume S.cfg S.orchestratorAddress d h a m).1.current = some h.job
  attempts : ∃ attempts, (resume S.cfg S.orchestratorAddress d h a m).1.attempts = m.attempts ++ attempts ∧
    ∀ attempt ∈ attempts, h.pos = .settledCheck ∧ attempt.winners ≠ []

/-- A handler publishes its report, or it is past that. -/
theorem resume_cases (S : Setup) (d : ℕ) (m : Desk) (a : Except String h.pos.Answer) :
    (h.pos = .hydrate ∧ ∃ b, resume S.cfg S.orchestratorAddress d h a m =
      publish h (hydrateReportMetadataFromChain h.job b m)) ∨ (h.pos ≠ .hydrate ∧ GoesOn S d h a m) := by
  obtain ⟨report, job, published, pos⟩ := h
  cases pos with
  | hydrate => exact .inl ⟨rfl, a, rfl⟩
  | settledCheck =>
    refine .inr ⟨nofun, ?_⟩
    by_cases hsettled : a = .ok true
    · subst hsettled
      exact ⟨rfl, m.keeps_markSettled job, .inr rfl, [], (List.append_nil _).symm, nofun⟩
    · have hreact : resume S.cfg S.orchestratorAddress d ⟨report, job, published, .settledCheck⟩ a m =
          (if (m.object job).winners = [] then m
            else { m with attempts := m.attempts ++ [⟨d, (m.object job).winners⟩] },
          ⟨report, job, published,
            next S.cfg S.orchestratorAddress m.roster report (m.object job) .settledCheck a⟩) := by
        rcases a with error | _ | _
        · simp only [resume, react]
          split_ifs <;> rfl
        · simp only [resume, react]
          split_ifs <;> rfl
        · exact absurd rfl hsettled
      constructor
      · rw [hreact]
      · rw [hreact]
        dsimp only
        split_ifs
        · exact .refl m
        · exact ⟨fun _ => rfl, fun _ => rfl, rfl, rfl, rfl⟩
      · rw [hreact]
        dsimp only
        split_ifs <;> exact .inl rfl
      · rw [hreact]
        dsimp only
        split_ifs with hwinners
        · exact ⟨[], (List.append_nil _).symm, nofun⟩
        · refine ⟨_, rfl, fun attempt hattempt => ⟨rfl, ?_⟩⟩
          rw [List.mem_singleton.mp hattempt]
          exact hwinners
  | settleJob payments reportAgent =>
    refine .inr ⟨nofun, ?_⟩
    cases a with
    | error error => exact ⟨rfl, .refl m, .inl rfl, [], (List.append_nil _).symm, nofun⟩
    | ok answer => exact ⟨rfl, m.keeps_markSettled job, .inr rfl, [], (List.append_nil _).symm, nofun⟩
  | _ => exact .inr ⟨nofun, rfl, .refl m, .inl rfl, [], (List.append_nil _).symm, nofun⟩

/-! ## Messages -/

/-- The objects that are there keep their findings and whether their report is published; a new one is blank. -/
structure Desk.Grows (m m' : Desk) : Prop where
  findings : ∀ v < m.created, (m'.object v).findings = (m.object v).findings
  published : ∀ v < m.created, (m'.object v).reportPublished = (m.object v).reportPublished
  fresh : ∀ v < m'.created, v < m.created ∨ m'.object v = JobObject.blank
  created : m.created ≤ m'.created

theorem Desk.Keeps.grows (hk : m.Keeps m') : m.Grows m' where
  findings v _ := hk.findings v
  published v _ := hk.published v
  fresh _ hv := .inl (hk.created ▸ hv)
  created := hk.created.ge

theorem Desk.grows_create (m : Desk) : m.Grows m.create where
  findings v hv := by simp [Desk.create, Function.update_of_ne hv.ne]
  published v hv := by simp [Desk.create, Function.update_of_ne hv.ne]
  fresh w hw := by
    rcases Nat.lt_succ_iff_lt_or_eq.mp (show w < m.created + 1 from hw) with hlt | rfl
    · exact .inl hlt
    · exact .inr (by simp [Desk.create])
  created := Nat.le_succ _

theorem getOrCreate_spec (hcurrent : ∀ v, m.current = some v → v < m.created) :
    m.Grows m.getOrCreate.1 ∧ m.getOrCreate.2 < m.getOrCreate.1.created ∧
      m.getOrCreate.1.timers = m.timers ∧ m.getOrCreate.1.lookups = m.lookups ∧
      m.getOrCreate.1.attempts = m.attempts ∧ m.getOrCreate.1.current = m.current ∧
      (∀ v, m.current = some v → m.getOrCreate = (m, v)) := by
  unfold Desk.getOrCreate
  cases hv : m.current with
  | none => exact ⟨m.grows_create, Nat.lt_succ_self _, rfl, rfl, rfl, hv, nofun⟩
  | some v =>
    refine ⟨(Desk.Keeps.refl m).grows, hcurrent v hv, rfl, rfl, rfl, hv, ?_⟩
    rintro w ⟨⟩
    rfl

/-- What becomes of the desk when a message or a timer is dealt with: the handlers that it starts wait for the chain,
and hold an object that is there. -/
structure Admits (m m' : Desk) (started : List Handler) : Prop where
  published : ∀ v < m.created, (m'.object v).reportPublished = (m.object v).reportPublished
  fresh : ∀ v < m'.created, v < m.created ∨ (m'.object v).reportPublished = false
  created : m.created ≤ m'.created
  lookups : m'.lookups = m.lookups
  attempts : m'.attempts = m.attempts
  handlers : ∀ h ∈ started, h.pos = .hydrate ∧ h.published = false ∧ h.job < m'.created
  current : ∀ v, m'.current = some v → v < m'.created
  same : m.current ≠ none → m'.created = m.created

theorem handleReportPublished_admits (hcurrent : ∀ v, m.current = some v → v < m.created) (report : Report) :
    Admits m (handleReportPublished report m).1 [(handleReportPublished report m).2] ∧
      (handleReportPublished report m).1.timers = m.timers ∧ m.Grows (handleReportPublished report m).1 ∧
      (handleReportPublished report m).1.current = m.current := by
  obtain ⟨hgrows, hjob, htimers, hlookups, hattempts, hsame, hthere⟩ := getOrCreate_spec hcurrent
  refine ⟨⟨hgrows.published, fun v hv => ?_, hgrows.created, hlookups, hattempts, ?_, fun v hv => ?_, fun hsome => ?_⟩,
    htimers, hgrows, hsame⟩
  · refine (hgrows.fresh v hv).imp_right fun hblank => ?_
    change (m.getOrCreate.1.object v).reportPublished = false
    rw [hblank]
    rfl
  · intro h hh
    rw [List.mem_singleton] at hh
    subst hh
    exact ⟨rfl, rfl, hjob⟩
  · exact lt_of_lt_of_le (hcurrent v (hsame ▸ hv)) hgrows.created
  · obtain ⟨v, hv⟩ := Option.ne_none_iff_exists'.mp hsome
    change m.getOrCreate.1.created = m.created
    rw [hthere v hv]

theorem autoPublishReport_admits (hcurrent : ∀ v, m.current = some v → v < m.created) (v : ℕ) :
    Admits m (autoPublishReport v m).1 (autoPublishReport v m).2 ∧ (autoPublishReport v m).1.timers = m.timers ∧
      m.Grows (autoPublishReport v m).1 ∧ (autoPublishReport v m).1.current = m.current ∧
      ((m.object v).reportPublished = false → (autoPublishReport v m).2 ≠ []) ∧
      ((m.object v).reportPublished = true → (autoPublishReport v m).2 = []) := by
  unfold autoPublishReport
  split_ifs with hpublished
  · refine ⟨⟨fun _ _ => rfl, fun w hw => .inl hw, Nat.le_refl _, rfl, rfl, by simp, hcurrent, fun _ => rfl⟩, rfl,
      (Desk.Keeps.refl m).grows, rfl, fun hnot => ?_, fun _ => rfl⟩
    rw [hpublished] at hnot
    cases hnot
  · obtain ⟨hadmits, htimers, hgrows, hsame⟩ := handleReportPublished_admits hcurrent
      ⟨"", none, (reportTotals (m.object v).findings).criticalFindings⟩
    exact ⟨hadmits, htimers, hgrows, hsame, fun _ => List.cons_ne_nil _ _, fun hnot => absurd hnot hpublished⟩

/-- The desk after a finding was pushed, with the timer of the first one. -/
def Desk.pushFinding (m : Desk) (msg : FindingsMsg) : Desk :=
  let r := m.getOrCreate
  let m' := (r.1.update r.2 fun job => { job with findings := job.findings ++ [msg.toFinding r.1.roster] }).setJobByKey
    r.2
  if (m'.object r.2).findings.length = 1 ∧ (m'.object r.2).reportPublished = false then
    { m' with timers := m'.timers + 1 } else m'

theorem handleFindings_eq (cfg : Config) (msg : FindingsMsg) (m : Desk) :
    handleFindings cfg msg m =
      if cfg.autoPublishAfterFindings ≤ ((m.pushFinding msg).object m.getOrCreate.2).findings.length then
        autoPublishReport m.getOrCreate.2 (m.pushFinding msg) else (m.pushFinding msg, []) := by
  have hobject : ((m.pushFinding msg).object m.getOrCreate.2).findings =
      (((m.getOrCreate.1.update m.getOrCreate.2 fun job =>
        { job with findings := job.findings ++ [msg.toFinding m.getOrCreate.1.roster] }).setJobByKey
          m.getOrCreate.2).object m.getOrCreate.2).findings := by
    unfold Desk.pushFinding
    dsimp only
    split_ifs <;> rfl
  rw [hobject]
  rfl

/-- What a finding leaves of the desk. Where its object has no published report and had no finding before, the timer
is set. -/
structure Pushes (m m' : Desk) (v : ℕ) : Prop where
  current : m'.current = some v
  there : v < m'.created
  created : m.created ≤ m'.created
  has : (m'.object v).findings ≠ []
  keeps : ∀ w < m.created, (m.object w).findings ≠ [] → (m'.object w).findings ≠ []
  published : ∀ w < m.created, (m'.object w).reportPublished = (m.object w).reportPublished
  fresh : ∀ w < m'.created, w < m.created ∨ (m'.object w).reportPublished = false
  lookups : m'.lookups = m.lookups
  attempts : m'.attempts = m.attempts
  timers : m.timers ≤ m'.timers
  same : m.current ≠ none → m'.created = m.created
  first : (m'.object v).reportPublished = true ∨ 0 < m'.timers ∨ (v < m.created ∧ (m.object v).findings ≠ [])

/-- A finding is pushed to the object in the map, or to a new one. -/
theorem pushFinding_pushes (hcurrent : ∀ v, m.current = some v → v < m.created) (msg : FindingsMsg) :
    Pushes m (m.pushFinding msg) m.getOrCreate.2 := by
  obtain ⟨hgrows, hthere, htimers, hlookups, hattempts, -, hsame⟩ := getOrCreate_spec hcurrent
  generalize hr : m.getOrCreate = r at *
  obtain ⟨n, v⟩ := r
  dsimp only at hgrows hthere htimers hlookups hattempts
  have hcreated : m.current ≠ none → n.created = m.created := by
    intro hsome
    obtain ⟨w, hw⟩ := Option.ne_none_iff_exists'.mp hsome
    rw [(Prod.mk.inj (hsame w hw)).1]
  set finding := msg.toFinding n.roster
  set q : Desk := (n.update v fun job => { job with findings := job.findings ++ [finding] }).setJobByKey v with hq
  have hself : q.object v = { n.object v with findings := (n.object v).findings ++ [finding] } := by
    simp [hq, Desk.setJobByKey, Desk.update]
  have hother : ∀ w, w ≠ v → q.object w = n.object w := fun w hw => by
    simp [hq, Desk.setJobByKey, Desk.update, hw]
  have hfindings : ∀ w, (n.object w).findings ≠ [] → (q.object w).findings ≠ [] := by
    intro w hw
    by_cases hwv : w = v
    · subst hwv
      rw [hself]
      simp
    · rwa [hother w hwv]
  have hpublished : ∀ w, (q.object w).reportPublished = (n.object w).reportPublished := by
    intro w
    by_cases hwv : w = v
    · subst hwv
      rw [hself]
    · rw [hother w hwv]
  -- All but the timers is the same with and without the timer.
  have hpush : ∀ q' : Desk, q'.object = q.object → q'.created = q.created → q'.current = q.current →
      q'.lookups = q.lookups → q'.attempts = q.attempts → q.timers ≤ q'.timers →
      ((q.object v).findings.length = 1 → (q.object v).reportPublished = false → 0 < q'.timers) →
      Pushes m q' v := by
    intro q' hobject hcreated' hcur hlook hatt htim hfirst
    refine {
      current := hcur
      there := hcreated' ▸ hthere
      created := hcreated' ▸ hgrows.created
      has := ?_
      keeps := fun w hw hne => ?_
      published := fun w hw => ?_
      fresh := fun w hw => ?_
      lookups := hlook.trans hlookups
      attempts := hatt.trans hattempts
      timers := htimers ▸ htim
      same := fun hsome => hcreated'.trans (hcreated hsome)
      first := ?_ }
    · rw [hobject, hself]
      simp
    · rw [hobject]
      exact hfindings w (hgrows.findings w hw ▸ hne)
    · rw [hobject, hpublished, hgrows.published w hw]
    · rcases hgrows.fresh w (hcreated' ▸ hw) with hold | hblank
      · exact .inl hold
      · rw [hobject, hpublished, hblank]
        exact .inr rfl
    · rw [hobject]
      rcases hp : (q.object v).reportPublished with _ | _
      · right
        by_cases hone : (q.object v).findings.length = 1
        · exact .inl (hfirst hone hp)
        · right
          -- There was a finding before this one, so the object is not new.
          have hne : (n.object v).findings ≠ [] := by
            intro hnil
            rw [hself, hnil] at hone
            exact hone rfl
          rcases hgrows.fresh v hthere with hold | hblank
          · exact ⟨hold, hgrows.findings v hold ▸ hne⟩
          · rw [hblank] at hne
            exact absurd rfl hne
      · exact .inl rfl
  unfold Desk.pushFinding
  rw [hr]
  dsimp only
  split_ifs with hone
  · exact hpush _ rfl rfl rfl rfl rfl (Nat.le_succ _) fun _ _ => Nat.succ_pos _
  · exact hpush _ rfl rfl rfl rfl rfl (Nat.le_refl _) fun hlen hp => absurd ⟨hlen, hp⟩ hone

theorem handleFindings_admits (cfg : Config) (msg : FindingsMsg)
    (hcurrent : ∀ v, m.current = some v → v < m.created) :
    Admits m (handleFindings cfg msg m).1 (handleFindings cfg msg m).2 ∧
      (handleFindings cfg msg m).1.timers = (m.pushFinding msg).timers ∧
      (m.pushFinding msg).Grows (handleFindings cfg msg m).1 ∧
      (handleFindings cfg msg m).1.current = (m.pushFinding msg).current := by
  have hpush := pushFinding_pushes hcurrent msg
  have hthere : ∀ v, (m.pushFinding msg).current = some v → v < (m.pushFinding msg).created := by
    intro v hv
    obtain rfl := Option.some.inj (hpush.current.symm.trans hv)
    exact hpush.there
  rw [handleFindings_eq]
  split_ifs
  · obtain ⟨hadmits, htimers, hgrows, hsame, -⟩ := autoPublishReport_admits hthere m.getOrCreate.2
    refine ⟨⟨fun v hv => ?_, fun v hv => ?_, hpush.created.trans hadmits.created, hadmits.lookups.trans hpush.lookups,
      hadmits.attempts.trans hpush.attempts, hadmits.handlers, hadmits.current, fun hsome => ?_⟩, htimers, hgrows,
      hsame⟩
    · rw [hadmits.published v (lt_of_lt_of_le hv hpush.created), hpush.published v hv]
    · rcases hadmits.fresh v hv with hold | hnew
      · refine (hpush.fresh v hold).imp_right fun hnew => ?_
        rw [hadmits.published v hold]
        exact hnew
      · exact .inr hnew
    · rw [hadmits.same (hpush.current ▸ nofun), hpush.same hsome]
  · exact ⟨⟨hpush.published, hpush.fresh, hpush.created, hpush.lookups, hpush.attempts, by simp, hthere, hpush.same⟩,
    rfl,
      (Desk.Keeps.refl _).grows, rfl⟩

theorem publishTimeout_some (hv : m.current = some v) :
    publishTimeout m = autoPublishReport v { m with timers := m.timers - 1 } := by
  unfold publishTimeout
  simp only [hv]

theorem publishTimeout_none (hnone : m.current = none) :
    publishTimeout m = ({ m with timers := m.timers - 1 }, []) := by
  unfold publishTimeout
  simp only [hnone]

theorem publishTimeout_admits (hcurrent : ∀ v, m.current = some v → v < m.created) :
    Admits m (publishTimeout m).1 (publishTimeout m).2 ∧ m.Grows (publishTimeout m).1 ∧
      (publishTimeout m).1.current = m.current ∧
      ∀ v, m.current = some v → ((m.object v).reportPublished = false → (publishTimeout m).2 ≠ []) ∧
        ((m.object v).reportPublished = true → (publishTimeout m).2 = []) := by
  cases hv : m.current with
  | none =>
    rw [publishTimeout_none hv]
    exact ⟨⟨fun _ _ => rfl, fun _ hw => .inl hw, Nat.le_refl _, rfl, rfl, by simp, hcurrent, fun _ => rfl⟩,
      ⟨fun _ _ => rfl, fun _ _ => rfl, fun _ hw => .inl hw, Nat.le_refl _⟩, hv, nofun⟩
  | some v =>
    rw [publishTimeout_some hv]
    obtain ⟨hadmits, -, hgrows, hsame, hstarts, hnone⟩ :=
      autoPublishReport_admits (show ∀ w, { m with timers := m.timers - 1 }.current = some w →
        w < { m with timers := m.timers - 1 }.created from hcurrent) v
    refine ⟨⟨hadmits.published, hadmits.fresh, hadmits.created, hadmits.lookups, hadmits.attempts, hadmits.handlers,
      hadmits.current, hadmits.same⟩, ⟨hgrows.findings, hgrows.published, hgrows.fresh, hgrows.created⟩,
      hsame.trans hv, ?_⟩
    rintro w ⟨⟩
    exact ⟨hstarts, hnone⟩

end AuditGuard.Reporting
