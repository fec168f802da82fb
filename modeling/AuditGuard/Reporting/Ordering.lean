import AuditGuard.Reporting.Effects

/-!
# Reports: the order of the events

A report is published once for a job object, and its `settleAll` looks at the winners once. If they are not recorded
by then, the settlement is skipped, and the mark `reportPublished` keeps every later report and timer from trying it
again: whatever order the events come in, the settlement is run if and only if the winners come before that look
(`settlement_run`, `settlement_lost`).
-/

namespace AuditGuard.Reporting

open Evm TransitionSystem
open Orchestrator (AddressText AgentEntry)

variable {S : Setup} {ts : Trace} {p p' : Office} {e : Event} {d v : ℕ} {h h' : Handler} {m m' : Desk}

/-! ## What settles a job -/

/-- Nothing is under way: every handler is through, and every timer has run out. -/
def Office.Quiet (p : Office) : Prop := p.desk.timers = 0 ∧ ∀ h ∈ p.handlers, h.pos = .finished

/-- All calls succeed. -/
def Succeeds (ts : Trace) : Prop :=
  ∀ tr ∈ ts, ∀ (d : ℕ) (pos : Awaiting) (error : String), tr.label ≠ .answer d pos (.error error)

/-- A message with findings was handled. -/
def Submitted (ts : Trace) : Prop := ∃ tr ∈ ts, ∃ msg, tr.label = .findings msg

/-- Winners are selected, and one of them has submitted findings with a score. -/
def Settleable (ts : Trace) : Prop :=
  ∃ tr ∈ ts, ∃ tr' ∈ ts, ∃ winners msg address, tr.label = .winnersSelected winners ∧ tr'.label = .findings msg ∧
    (msg.toFinding tr'.src.desk.roster).recipient tr'.src.desk.roster = some address ∧
    isWinner winners address = true ∧ 0 < (msg.toFinding tr'.src.desk.roster).score

/-- When `settleAll` looks at its job there are findings, and winners when it looks for them, and the job is not
settled already. -/
def Timely (S : Setup) (tr : Transition Office Event) : Prop :=
  ∀ (d : ℕ) (h : Handler), tr.src.handlers[d]? = some h →
    (∀ a, tr.label = .answer d .alert a →
      (tr.src.desk.object h.job).findings ≠ [] ∧ (tr.src.desk.object h.job).settled = false) ∧
    (∀ a, tr.label = .answer d .settledCheck a →
      (tr.src.desk.object h.job).winners ≠ [] ∧ tr.src.isJobSettled S = false)

/-! ## Handlers that publish -/

/-- There is someone who publishes a report, or will. -/
def Office.Engaged (p : Office) : Prop :=
  0 < p.desk.timers ∨ ∃ h ∈ p.handlers, h.pos = .hydrate ∨ h.published = true

/-- What holds of a job's handlers at any time. -/
structure Tended (p : Office) : Prop where
  current : ∀ v, p.desk.current = some v → v < p.desk.created
  jobs : ∀ h ∈ p.handlers, h.job < p.desk.created
  /-- Someone has published the report of an object. -/
  published : ∀ v < p.desk.created, (p.desk.object v).reportPublished = true → ∃ h ∈ p.handlers, h.published = true
  /-- Findings stay in the map, and someone looks after them. -/
  engaged : (∃ v < p.desk.created, (p.desk.object v).findings ≠ []) → p.desk.current ≠ none ∧ p.Engaged
  /-- Settlements are tried with winners. -/
  attempts : ∀ attempt ∈ p.desk.attempts, attempt.winners ≠ []

theorem mem_answer {a : Except String h.pos.Answer} (hmem : h' ∈ (p.answer S d h a).handlers) :
    h' = (resume S.cfg S.orchestratorAddress d h a p.desk).2 ∨ h' ∈ p.handlers := by
  rcases List.mem_or_eq_of_mem_set hmem with hold | rfl
  · exact .inr hold
  · exact .inl rfl

theorem mem_answer_of_mem {a : Except String h.pos.Answer} (hh : p.handlers[d]? = some h) (hmem : h' ∈ p.handlers) :
    h' = h ∨ h' ∈ (p.answer S d h a).handlers := by
  obtain ⟨i, hi⟩ := List.mem_iff_getElem?.mp hmem
  by_cases hid : i = d
  · subst hid
    exact .inl (Option.some.inj (hi.symm.trans hh))
  · refine .inr (List.mem_iff_getElem?.mpr ⟨i, ?_⟩)
    exact (List.getElem?_set_ne (Ne.symm hid)).trans hi

theorem resumed_mem {a : Except String h.pos.Answer} (hh : p.handlers[d]? = some h) :
    (resume S.cfg S.orchestratorAddress d h a p.desk).2 ∈ (p.answer S d h a).handlers :=
  List.mem_iff_getElem?.mpr ⟨d, List.getElem?_set_self (List.getElem?_eq_some_iff.mp hh).1⟩

/-- What a handler leaves of the desk, and of itself, when it goes on. -/
structure Answered (h h' : Handler) (m m' : Desk) : Prop where
  created : m'.created = m.created
  timers : m'.timers = m.timers
  lookups : m'.lookups = m.lookups
  findings : ∀ v, (m'.object v).findings = (m.object v).findings
  current : m'.current = m.current ∨ m'.current = some h.job
  job : h'.job = h.job
  stays : h.published = true → h'.published = true
  /-- A report stays published. -/
  keeps : ∀ v, (m.object v).reportPublished = true → (m'.object v).reportPublished = true
  /-- An object whose report is published now had it published before, or the handler has done it. -/
  published : ∀ v, (m'.object v).reportPublished = true → (m.object v).reportPublished = true ∨ h'.published = true
  /-- No attempt is forgotten, and new ones are made with winners. -/
  attempts : ∃ attempts, m'.attempts = m.attempts ++ attempts ∧ ∀ attempt ∈ attempts, attempt.winners ≠ []
  /-- A handler that waits for the chain publishes, or finds the report published. -/
  hydrated : h.pos = .hydrate → h'.published = true ∨ (m.object h.job).reportPublished = true

theorem publish_answered (h : Handler) (m : Desk) : Answered h (publish h m).2 m (publish h m).1 := by
  unfold publish
  split_ifs with hpublished
  · exact ⟨rfl, rfl, rfl, fun _ => rfl, .inl rfl, rfl, id, fun _ => id, fun _ => .inl,
    ⟨[], (List.append_nil _).symm, nofun⟩,
      fun _ => .inr hpublished⟩
  · refine ⟨rfl, rfl, rfl, fun v => ?_, .inr rfl, rfl, fun _ => rfl, fun v hv => ?_, fun _ _ => .inr rfl,
      ⟨[], (List.append_nil _).symm, nofun⟩, fun _ => .inl rfl⟩
    · by_cases hv : v = h.job
      · subst hv
        simp [Desk.setJobByKey, Desk.update]
      · simp [Desk.setJobByKey, Desk.update, hv]
    · by_cases hvj : v = h.job
      · subst hvj
        simp [Desk.setJobByKey, Desk.update]
      · simpa [Desk.setJobByKey, Desk.update, hvj] using hv

/-- Whatever a handler does, it is something of that kind. -/
theorem resume_answered (S : Setup) (d : ℕ) (m : Desk) (a : Except String h.pos.Answer) :
    Answered h (resume S.cfg S.orchestratorAddress d h a m).2 m (resume S.cfg S.orchestratorAddress d h a m).1 := by
  rcases resume_cases S d m a with ⟨-, b, heq⟩ | ⟨hpos, hgoes⟩
  · obtain ⟨hkeeps, hcurrent, hattempts⟩ := keeps_hydrate h.job b m
    have hpub := publish_answered h (hydrateReportMetadataFromChain h.job b m)
    rw [heq]
    refine {
      created := hpub.created.trans hkeeps.created
      timers := hpub.timers.trans hkeeps.timers
      lookups := hpub.lookups.trans hkeeps.lookups
      findings := fun v => (hpub.findings v).trans (hkeeps.findings v)
      current := ?_
      job := hpub.job
      stays := hpub.stays
      keeps := fun v hv => hpub.keeps v ((hkeeps.published v).trans hv)
      published := fun v hv => (hpub.published v hv).imp_left fun hold => (hkeeps.published v).symm.trans hold
      attempts := hattempts ▸ hpub.attempts
      hydrated := fun hpos => (hpub.hydrated hpos).imp_right fun hold => (hkeeps.published h.job).symm.trans hold }
    rcases hpub.current with hsame | hjob
    · rw [hsame]
      exact hcurrent
    · exact .inr hjob
  · have hhandler := hgoes.handler
    exact {
      created := hgoes.keeps.created
      timers := hgoes.keeps.timers
      lookups := hgoes.keeps.lookups
      findings := hgoes.keeps.findings
      current := hgoes.current
      job := by rw [hhandler]
      stays := fun hpub => by rw [hhandler]; exact hpub
      keeps := fun v hv => (hgoes.keeps.published v).trans hv
      published := fun v hv => .inl ((hgoes.keeps.published v).symm.trans hv)
      attempts := by
        obtain ⟨attempts, heq, hnew⟩ := hgoes.attempts
        exact ⟨attempts, heq, fun attempt hattempt => (hnew attempt hattempt).2⟩
      hydrated := fun h => absurd h hpos }

/-- An answer keeps the handlers in order. -/
theorem Tended.answer (hp : Tended p) (hh : p.handlers[d]? = some h) (a : Except String h.pos.Answer) :
    Tended (p.answer S d h a) := by
  have hmem : h ∈ p.handlers := List.mem_of_getElem? hh
  have hres : Answered h (resume S.cfg S.orchestratorAddress d h a p.desk).2 p.desk (p.answer S d h a).desk :=
    resume_answered S d p.desk a
  -- Whoever has published is there afterwards.
  have hstay : (∃ x ∈ p.handlers, x.published = true) → ∃ x ∈ (p.answer S d h a).handlers, x.published = true := by
    rintro ⟨x, hx, hxp⟩
    rcases mem_answer_of_mem (S := S) (a := a) hh hx with rfl | hx
    · exact ⟨_, resumed_mem hh, hres.stays hxp⟩
    · exact ⟨x, hx, hxp⟩
  constructor
  case current =>
    intro v hv
    rw [hres.created]
    rcases hres.current with hsame | hjob
    · exact hp.current v (hsame ▸ hv)
    · obtain rfl := Option.some.inj (hjob.symm.trans hv)
      exact hp.jobs h hmem
  case jobs =>
    intro x hx
    rw [hres.created]
    rcases mem_answer hx with rfl | hx
    · rw [hres.job]
      exact hp.jobs h hmem
    · exact hp.jobs x hx
  case published =>
    intro v hv hpub
    rcases hres.published v hpub with hold | hnew
    · exact hstay (hp.published v (hres.created ▸ hv) hold)
    · exact ⟨_, resumed_mem hh, hnew⟩
  case engaged =>
    rintro ⟨v, hv, hne⟩
    obtain ⟨hcur, hengaged⟩ := hp.engaged ⟨v, hres.created ▸ hv, hres.findings v ▸ hne⟩
    constructor
    · rcases hres.current with hsame | hjob
      · rw [hsame]
        exact hcur
      · rw [hjob]
        nofun
    · rcases hengaged with htimers | ⟨x, hx, hpos⟩
      · exact .inl (hres.timers ▸ htimers)
      · rcases mem_answer_of_mem (S := S) (a := a) hh hx with rfl | hx
        · rcases hpos with hpos | hpub
          · -- The handler publishes, or someone else has.
            rcases hres.hydrated hpos with hnew | hold
            · exact .inr ⟨_, resumed_mem hh, .inr hnew⟩
            · obtain ⟨y, hy, hyp⟩ := hstay (hp.published _ (hp.jobs _ hmem) hold)
              exact .inr ⟨y, hy, .inr hyp⟩
          · exact .inr ⟨_, resumed_mem hh, .inr (hres.stays hpub)⟩
        · exact .inr ⟨x, hx, hpos⟩
  case attempts =>
    obtain ⟨attempts, heq, hnew⟩ := hres.attempts
    intro attempt hattempt
    rw [heq] at hattempt
    rcases List.mem_append.mp hattempt with hold | hattempt
    · exact hp.attempts attempt hold
    · exact hnew attempt hattempt

theorem Tended.enrol {started : List Handler} (hp : Tended p) (ha : Admits p.desk m' started)
    (hengaged : (∃ v < m'.created, (m'.object v).findings ≠ []) →
      m'.current ≠ none ∧ (p.enrol (m', started)).Engaged) : Tended (p.enrol (m', started)) where
  current := ha.current
  jobs x hx := by
    rcases List.mem_append.mp hx with hx | hx
    · exact lt_of_lt_of_le (hp.jobs x hx) ha.created
    · exact (ha.handlers x hx).2.2
  published v hv hpub := by
    rcases ha.fresh v hv with hold | hnew
    · obtain ⟨x, hx, hxp⟩ := hp.published v hold ((ha.published v hold).symm.trans hpub)
      exact ⟨x, List.mem_append_left _ hx, hxp⟩
    · exact absurd (hnew.symm.trans hpub) nofun
  engaged := hengaged
  attempts := ha.attempts ▸ hp.attempts

theorem Office.Engaged.enrol {started : List Handler} (h : p.Engaged) (htimers : p.desk.timers ≤ m'.timers) :
    (p.enrol (m', started)).Engaged := by
  rcases h with h | ⟨x, hx, hpos⟩
  · exact .inl (lt_of_lt_of_le h htimers)
  · exact .inr ⟨x, List.mem_append_left _ hx, hpos⟩

theorem Tended.findings (hp : Tended p) (msg : FindingsMsg) :
    Tended (p.enrol (handleFindings S.cfg msg p.desk)) := by
  have hpush := pushFinding_pushes hp.current msg
  obtain ⟨hadmits, htimers, -, hsame⟩ := handleFindings_admits S.cfg msg hp.current
  generalize handleFindings S.cfg msg p.desk = r at hadmits htimers hsame ⊢
  obtain ⟨m', started⟩ := r
  dsimp only at hadmits htimers hsame
  refine hp.enrol hadmits fun _ => ⟨?_, ?_⟩
  · rw [hsame, hpush.current]
    nofun
  · rcases hpush.first with hpub | hfirst | ⟨hold, hne⟩
    · rcases hpush.fresh _ hpush.there with hold | hnew
      · obtain ⟨x, hx, hxp⟩ := hp.published _ hold ((hpush.published _ hold).symm.trans hpub)
        exact .inr ⟨x, List.mem_append_left _ hx, .inr hxp⟩
      · exact absurd (hnew.symm.trans hpub) nofun
    · exact .inl (htimers ▸ hfirst)
    · exact (hp.engaged ⟨_, hold, hne⟩).2.enrol (htimers ▸ hpush.timers)

theorem Tended.report (hp : Tended p) (report : Report) :
    Tended (p.enrol ((handleReportPublished report p.desk).1, [(handleReportPublished report p.desk).2])) := by
  obtain ⟨hadmits, htimers, hgrows, hsame⟩ := handleReportPublished_admits hp.current report
  refine hp.enrol hadmits ?_
  rintro ⟨v, hv, hne⟩
  rcases hgrows.fresh v hv with hold | hblank
  · obtain ⟨hcur, hengaged⟩ := hp.engaged ⟨v, hold, hgrows.findings v hold ▸ hne⟩
    exact ⟨hsame ▸ hcur, hengaged.enrol htimers.ge⟩
  · rw [hblank] at hne
    exact absurd rfl hne

theorem Tended.timeout (hp : Tended p) : Tended (p.enrol (publishTimeout p.desk)) := by
  obtain ⟨hadmits, hgrows, hsame, hstarts⟩ := publishTimeout_admits hp.current
  generalize publishTimeout p.desk = r at hadmits hgrows hsame hstarts ⊢
  obtain ⟨m', started⟩ := r
  dsimp only at hadmits hgrows hsame hstarts
  refine hp.enrol hadmits ?_
  rintro ⟨w, hw, hne⟩
  rcases hgrows.fresh w hw with hold | hblank
  · obtain ⟨hcur, -⟩ := hp.engaged ⟨w, hold, hgrows.findings w hold ▸ hne⟩
    refine ⟨hsame ▸ hcur, ?_⟩
    obtain ⟨v, hv⟩ := Option.ne_none_iff_exists'.mp hcur
    rcases hpub : (p.desk.object v).reportPublished with _ | _
    · obtain ⟨x, hx⟩ := List.exists_mem_of_ne_nil _ ((hstarts v hv).1 hpub)
      exact .inr ⟨x, List.mem_append_right _ hx, .inl (hadmits.handlers x hx).1⟩
    · obtain ⟨x, hx, hxp⟩ := hp.published v (hp.current v hv) hpub
      exact .inr ⟨x, List.mem_append_left _ hx, .inr hxp⟩
  · rw [hblank] at hne
    exact absurd rfl hne

theorem Tended.congr (hp : Tended p) (hhandlers : p'.handlers = p.handlers) (hkeeps : p.desk.Keeps p'.desk)
    (hcurrent : ∀ v, p'.desk.current = some v → v < p.desk.created)
    (hsome : p.desk.current ≠ none → p'.desk.current ≠ none) (hattempts : p'.desk.attempts = p.desk.attempts) :
    Tended p' where
  current v hv := hkeeps.created ▸ hcurrent v hv
  jobs x hx := by
    rw [hkeeps.created]
    exact hp.jobs x (hhandlers ▸ hx)
  published v hv hpub := by
    rw [hhandlers]
    exact hp.published v (hkeeps.created ▸ hv) (hkeeps.published v ▸ hpub)
  engaged := by
    rintro ⟨v, hv, hne⟩
    obtain ⟨hcur, hengaged⟩ := hp.engaged ⟨v, hkeeps.created ▸ hv, hkeeps.findings v ▸ hne⟩
    refine ⟨hsome hcur, ?_⟩
    unfold Office.Engaged at hengaged ⊢
    rw [hkeeps.timers, hhandlers]
    exact hengaged
  attempts := hattempts ▸ hp.attempts

theorem Tended.adopt (hp : Tended p) (lookups : ℕ) :
    Tended { p with desk := { p.desk.create.setJobByKey p.desk.created with lookups := lookups } } := by
  have hgrows := p.desk.grows_create
  constructor
  case current =>
    intro v hv
    obtain rfl := Option.some.inj (show some p.desk.created = some v from hv)
    exact Nat.lt_succ_self _
  case jobs => exact fun x hx => (hp.jobs x hx).trans (Nat.lt_succ_self _)
  case published =>
    intro v hv hpub
    rcases hgrows.fresh v hv with hold | hblank
    · exact hp.published v hold ((hgrows.published v hold).symm.trans hpub)
    · exact absurd ((congrArg JobObject.reportPublished hblank).symm.trans hpub) nofun
  case engaged =>
    rintro ⟨v, hv, hne⟩
    refine ⟨nofun, ?_⟩
    rcases hgrows.fresh v hv with hold | hblank
    · exact (hp.engaged ⟨v, hold, hgrows.findings v hold ▸ hne⟩).2
    · exact absurd (congrArg JobObject.findings hblank) hne
  case attempts => exact hp.attempts

theorem tended (hr : (system S).Reachable p) : Tended p := by
  refine hr.induct (fun p hp => ?_) fun p e p' _ hp hstep => ?_
  · obtain ⟨hhandlers, -, hcreated, hcurrent, -, hattempts, -⟩ := hp
    exact ⟨by simp [hcurrent], by simp [hhandlers], by simp [hcreated], by simp [hcreated], by simp [hattempts]⟩
  · cases hstep with
    | findings msg => exact hp.findings msg
    | report report => exact hp.report report
    | timeout => exact hp.timeout
    | answer hh => exact hp.answer hh _
    | winnersSelected winners hv | assign winners hv =>
      exact hp.congr rfl (p.desk.keeps_update _ (fun job => { job with winners := winners }) (fun _ => rfl)
        fun _ => rfl) hp.current id rfl
    | @restore v hv =>
      refine hp.congr rfl (p.desk.keeps_setJobByKey v) (fun w hw => ?_) (fun _ => nofun) rfl
      obtain rfl := Option.some.inj (show some v = some w from hw)
      exact hv
    | lookUp => exact ⟨hp.current, hp.jobs, hp.published, hp.engaged, hp.attempts⟩
    | adopt => exact hp.adopt _
    | roster => exact hp.congr rfl ⟨fun _ => rfl, fun _ => rfl, rfl, rfl, rfl⟩ hp.current id rfl
    | land | move => exact hp.congr rfl (.refl _) hp.current id rfl

/-! ## The settlement is run -/

/-- A handler that has published its report is on the way to the settlement, or a settlement was tried. -/
def OnTheWay (m : Desk) (pos : Awaiting) : Prop :=
  pos = .reportLog ∨ pos = .alert ∨ pos = .settledCheck ∨ m.attempts ≠ []

theorem OnTheWay.mono {pos : Awaiting} {attempts : List Attempt} (hw : OnTheWay m pos)
    (hm : m'.attempts = m.attempts ++ attempts) : OnTheWay m' pos := by
  unfold OnTheWay at hw ⊢
  rw [hm]
  rcases hw with hw | hw | hw | hw
  · exact .inl hw
  · exact .inr (.inl hw)
  · exact .inr (.inr (.inl hw))
  · exact .inr (.inr (.inr (List.append_ne_nil_of_left_ne_nil hw _)))

/-- Where `settleAll` comes in time, a handler on the way goes on to the settlement. -/
theorem OnTheWay.answer {a : Except String h.pos.Answer} (hw : OnTheWay p.desk h.pos)
    (hh : p.handlers[d]? = some h) (hserves : p.serves S d h.pos a = true) (hok : ∃ b, a = .ok b)
    (htimely : Timely S ⟨p, .answer d h.pos a, p.answer S d h a⟩) :
    OnTheWay (p.answer S d h a).desk (resume S.cfg S.orchestratorAddress d h a p.desk).2.pos := by
  obtain ⟨b, rfl⟩ := hok
  obtain ⟨halert, hcheck⟩ := htimely d h hh
  have hanswered : Answered h _ p.desk (p.answer S d h (.ok b)).desk := resume_answered S d p.desk (.ok b)
  obtain ⟨attempts, hattempts, -⟩ := hanswered.attempts
  obtain ⟨report, job, published, pos⟩ := h
  rcases hw with hw | hw | hw | hw
  · dsimp only at hw
    subst hw
    exact .inr (.inl rfl)
  · dsimp only at hw
    subst hw
    obtain ⟨hfindings, hunsettled⟩ := halert (.ok b) rfl
    refine .inr (.inr (.inl ?_))
    change enterSettleAll (p.desk.object job) = .settledCheck
    unfold enterSettleAll
    rw [if_neg]
    rintro (hnil | hsettled)
    · exact hfindings hnil
    · rw [hunsettled] at hsettled
      cases hsettled
  · dsimp only at hw
    subst hw
    obtain ⟨hwinners, hunsettled⟩ := hcheck (.ok b) rfl
    have hb : b = false := (of_decide_eq_true hserves).trans hunsettled
    subst hb
    refine .inr (.inr (.inr ?_))
    have hdesk : (p.answer S d ⟨report, job, published, .settledCheck⟩ (.ok false)).desk.attempts =
        p.desk.attempts ++ [⟨d, (p.desk.object job).winners⟩] := by
      simp only [Office.answer, resume, react, if_neg hwinners]
    rw [hdesk]
    exact List.append_ne_nil_of_right_ne_nil _ (List.cons_ne_nil _ _)
  · exact .inr (.inr (.inr (hattempts ▸ List.append_ne_nil_of_left_ne_nil hw _)))

/-- What holds over a run whose settlements come in time: findings that were handled are still there, and whoever has
published is on the way to the settlement. -/
structure Heading (ts : Trace) (p : Office) : Prop where
  submitted : Submitted ts → ∃ v < p.desk.created, (p.desk.object v).findings ≠ []
  onTheWay : ∀ h ∈ p.handlers, h.published = true → OnTheWay p.desk h.pos

theorem Submitted.of_append {tr : Transition Office Event} (hs : Submitted (ts ++ [tr]))
    (hlabel : ∀ msg, tr.label ≠ .findings msg) : Submitted ts := by
  obtain ⟨tr', htr, msg, hmsg⟩ := hs
  rcases List.mem_append.mp htr with htr | htr
  · exact ⟨tr', htr, msg, hmsg⟩
  · rw [List.mem_singleton.mp htr] at hmsg
    exact absurd hmsg (hlabel msg)

theorem onTheWay_admit {started : List Handler} (hw : ∀ h ∈ p.handlers, h.published = true → OnTheWay p.desk h.pos)
    (ha : Admits p.desk m' started) :
    ∀ h ∈ (p.enrol (m', started)).handlers, h.published = true → OnTheWay m' h.pos := by
  intro x hx hpub
  rcases List.mem_append.mp hx with hx | hx
  · exact (hw x hx hpub).mono (ha.attempts.trans (List.append_nil _).symm)
  · exact absurd ((ha.handlers x hx).2.1.symm.trans hpub) nofun

/-- Over a run in which all calls succeed and settlements come in time, that is so. -/
theorem heading (hr : (system S).Run ts p) (hok : Succeeds ts) (htimely : ∀ tr ∈ ts, Timely S tr) :
    Heading ts p := by
  induction hr with
  | init hinit =>
    obtain ⟨hhandlers, -⟩ := hinit
    refine ⟨?_, by simp [hhandlers]⟩
    rintro ⟨tr, htr, -⟩
    cases htr
  | @step ts p p' e hr hstep ih =>
    have hp := ih (fun tr htr => hok tr (List.mem_append_left _ htr)) fun tr htr =>
      htimely tr (List.mem_append_left _ htr)
    have ht := tended hr.reachable
    have hlast : (⟨p, e, p'⟩ : Transition Office Event) ∈ ts ++ [⟨p, e, p'⟩] :=
      List.mem_append_right _ (List.mem_singleton_self _)
    have hoklast := hok _ hlast
    have htimelylast := htimely _ hlast
    cases hstep with
    | findings msg =>
      have hpush := pushFinding_pushes ht.current msg
      obtain ⟨hadmits, -, hgrows, -⟩ := handleFindings_admits S.cfg msg ht.current
      refine ⟨fun _ => ⟨_, lt_of_lt_of_le hpush.there hgrows.created, ?_⟩, onTheWay_admit hp.onTheWay hadmits⟩
      change ((handleFindings S.cfg msg p.desk).1.object _).findings ≠ []
      rw [hgrows.findings _ hpush.there]
      exact hpush.has
    | report report =>
      obtain ⟨hadmits, -, hgrows, -⟩ := handleReportPublished_admits ht.current report
      refine ⟨fun hs => ?_, onTheWay_admit hp.onTheWay hadmits⟩
      obtain ⟨v, hv, hne⟩ := hp.submitted (hs.of_append fun _ => nofun)
      exact ⟨v, lt_of_lt_of_le hv hgrows.created, (hgrows.findings v hv).symm ▸ hne⟩
    | timeout =>
      obtain ⟨hadmits, hgrows, -⟩ := publishTimeout_admits ht.current
      refine ⟨fun hs => ?_, onTheWay_admit hp.onTheWay hadmits⟩
      obtain ⟨v, hv, hne⟩ := hp.submitted (hs.of_append fun _ => nofun)
      exact ⟨v, lt_of_lt_of_le hv hgrows.created, (hgrows.findings v hv).symm ▸ hne⟩
    | @answer d h a hh hserves =>
      have hanswered : Answered h _ p.desk (p.answer S d h a).desk := resume_answered S d p.desk a
      obtain ⟨attempts, hattempts, -⟩ := hanswered.attempts
      refine ⟨fun hs => ?_, fun x hx hpub => ?_⟩
      · obtain ⟨v, hv, hne⟩ := hp.submitted (hs.of_append fun _ => nofun)
        exact ⟨v, hanswered.created ▸ hv, (hanswered.findings v).symm ▸ hne⟩
      · rcases mem_answer hx with rfl | hx
        · by_cases hbefore : h.published = true
          · refine (hp.onTheWay h (List.mem_of_getElem? hh) hbefore).answer hh hserves ?_ htimelylast
            cases a with
            | error error => exact absurd rfl (hoklast d h.pos error)
            | ok b => exact ⟨b, rfl⟩
          · -- It has published just now.
            rcases resume_cases S d p.desk a with ⟨-, b, heq⟩ | ⟨-, hgoes⟩
            · rw [heq] at hpub ⊢
              unfold publish at hpub ⊢
              split_ifs at hpub ⊢
              · exact absurd hpub hbefore
              · exact .inl rfl
            · rw [hgoes.handler] at hpub
              exact absurd hpub hbefore
        · exact (hp.onTheWay x hx hpub).mono hattempts
    | winnersSelected winners hv | assign winners hv =>
      refine ⟨fun hs => ?_, fun x hx hpub => (hp.onTheWay x hx hpub).mono (List.append_nil _).symm⟩
      obtain ⟨v, hv, hne⟩ := hp.submitted (hs.of_append fun _ => nofun)
      refine ⟨v, hv, ?_⟩
      rw [(p.desk.keeps_update _ (fun job => { job with winners := winners }) (fun _ => rfl) fun _ => rfl).findings v]
      exact hne
    | restore | lookUp | roster | land | move =>
      refine ⟨fun hs => hp.submitted (hs.of_append fun _ => nofun), fun x hx hpub => ?_⟩
      exact (hp.onTheWay x hx hpub).mono (List.append_nil _).symm
    | adopt =>
      refine ⟨fun hs => ?_, fun x hx hpub => (hp.onTheWay x hx hpub).mono (List.append_nil _).symm⟩
      obtain ⟨v, hv, hne⟩ := hp.submitted (hs.of_append fun _ => nofun)
      exact ⟨v, hv.trans (Nat.lt_succ_self _), ((p.desk.grows_create).findings v hv).symm ▸ hne⟩

/-- Once findings were handled and everything is through, a settlement was run with winners, if `settleAll` came in
time. -/
theorem settlement_run (hr : (system S).Run ts p) (hquiet : p.Quiet) (hok : Succeeds ts) (hs : Submitted ts)
    (htimely : ∀ tr ∈ ts, Timely S tr) : ∃ attempt ∈ p.desk.attempts, attempt.winners ≠ [] := by
  have htended := tended hr.reachable
  have hheading := heading hr hok htimely
  obtain ⟨-, hengaged⟩ := htended.engaged (hheading.submitted hs)
  obtain ⟨htimers, hover⟩ := hquiet
  rcases hengaged with hpos | ⟨h, hh, hpos | hpub⟩
  · omega
  · have hpos' := hover h hh
    rw [hpos] at hpos'
    cases hpos'
  · have hway := hheading.onTheWay h hh hpub
    unfold OnTheWay at hway
    rw [hover h hh] at hway
    rcases hway with hway | hway | hway | hway
    · cases hway
    · cases hway
    · cases hway
    · obtain ⟨attempt, hattempt⟩ := List.exists_mem_of_ne_nil _ hway
      exact ⟨attempt, hattempt, htended.attempts attempt hattempt⟩

/-! ## The settlement is lost -/

/-- A handler at this place is not on the way to a settlement, unless its report gets published. -/
def Awaiting.late : Awaiting → Bool
  | .hydrate | .settledLog | .reputation _ | .jobCompleted | .finished => true
  | _ => false

/-- The report of every job object is published, and no settlement is under way. -/
structure Closed (p : Office) : Prop where
  current : p.desk.current ≠ none
  lookups : p.desk.lookups = 0
  published : ∀ v < p.desk.created, (p.desk.object v).reportPublished = true
  late : ∀ h ∈ p.handlers, h.pos.late = true

theorem afterSettle_late (job : JobObject) : (afterSettle job).late = true := by
  unfold afterSettle
  split_ifs <;> rfl

theorem next_late {pos : Awaiting} (cfg : Config) (orchestratorAddress : Address) (roster : List AgentEntry)
    (report : Report) (job : JobObject) (a : Except String pos.Answer) (hpos : pos.late = true) :
    (next cfg orchestratorAddress roster report job pos a).late = true := by
  cases pos with
  | hydrate | jobCompleted | finished => rfl
  | settledLog => exact afterSettle_late job
  | reputation finding =>
    cases a with
    | error error => rfl
    | ok answer =>
      change (nextFinding job finding).late = true
      unfold nextFinding
      split_ifs <;> rfl
  | _ => cases hpos

theorem Closed.enrol {started : List Handler} (hp : Closed p) (ha : Admits p.desk m' started)
    (hcurrent : m'.current ≠ none) : Closed (p.enrol (m', started)) where
  current := hcurrent
  lookups := ha.lookups.trans hp.lookups
  published v hv := by
    have hold : v < p.desk.created := ha.same hp.current ▸ hv
    exact (ha.published v hold).trans (hp.published v hold)
  late x hx := by
    rcases List.mem_append.mp hx with hx | hx
    · exact hp.late x hx
    · rw [(ha.handlers x hx).1]
      rfl

/-- Where all is published, it stays so, and no settlement is tried any more. -/
theorem Closed.step (hp : Closed p) (ht : Tended p) (hstep : Step S p e p') :
    Closed p' ∧ p'.desk.attempts = p.desk.attempts := by
  cases hstep with
  | findings msg =>
    have hpush := pushFinding_pushes ht.current msg
    obtain ⟨hadmits, -, -, hsame⟩ := handleFindings_admits S.cfg msg ht.current
    have hcurrent : (handleFindings S.cfg msg p.desk).1.current ≠ none := by
      rw [hsame, hpush.current]
      nofun
    exact ⟨hp.enrol hadmits hcurrent, hadmits.attempts⟩
  | report report =>
    obtain ⟨hadmits, -, -, hsame⟩ := handleReportPublished_admits ht.current report
    exact ⟨hp.enrol hadmits (hsame ▸ hp.current), hadmits.attempts⟩
  | timeout =>
    obtain ⟨hadmits, -, hsame, -⟩ := publishTimeout_admits ht.current
    have hcurrent : (publishTimeout p.desk).1.current ≠ none := by
      rw [hsame]
      exact hp.current
    exact ⟨hp.enrol hadmits hcurrent, hadmits.attempts⟩
  | @answer d h a hh hserves =>
    have hmem := List.mem_of_getElem? hh
    have hanswered : Answered h _ p.desk (p.answer S d h a).desk := resume_answered S d p.desk a
    have hlate : (resume S.cfg S.orchestratorAddress d h a p.desk).2.pos.late = true ∧
        (p.answer S d h a).desk.attempts = p.desk.attempts := by
      rcases resume_cases S d p.desk a with ⟨-, b, heq⟩ | ⟨-, hgoes⟩
      · -- The report of its object is published, whatever the chain says.
        obtain ⟨hkeeps, -, hattempts⟩ := keeps_hydrate h.job b p.desk
        have hpub : ((hydrateReportMetadataFromChain h.job b p.desk).object h.job).reportPublished = true :=
          (hkeeps.published h.job).trans (hp.published _ (ht.jobs h hmem))
        change _ ∧ (resume S.cfg S.orchestratorAddress d h a p.desk).1.attempts = _
        rw [heq]
        unfold publish
        rw [if_pos hpub]
        exact ⟨rfl, hattempts⟩
      · obtain ⟨attempts, heq, hnew⟩ := hgoes.attempts
        constructor
        · rw [hgoes.handler]
          exact next_late _ _ _ _ _ a (hp.late h hmem)
        · change (resume S.cfg S.orchestratorAddress d h a p.desk).1.attempts = _
          rw [heq]
          cases attempts with
          | nil => exact List.append_nil _
          | cons attempt attempts =>
            have hpos := (hnew attempt List.mem_cons_self).1
            have hpast := hp.late h hmem
            rw [hpos] at hpast
            cases hpast
    refine ⟨⟨?_, hanswered.lookups.trans hp.lookups, fun v hv => ?_, fun x hx => ?_⟩, hlate.2⟩
    · rcases hanswered.current with hsame | hjob
      · exact hsame ▸ hp.current
      · rw [hjob]
        nofun
    · exact hanswered.keeps v (hp.published v (hanswered.created ▸ hv))
    · rcases mem_answer hx with rfl | hx
      · exact hlate.1
      · exact hp.late x hx
  | @winnersSelected v winners hv | @assign v winners hv =>
    have hkeeps := p.desk.keeps_update v (fun job => { job with winners := winners }) (fun _ => rfl) fun _ => rfl
    exact ⟨⟨hp.current, hp.lookups, fun w hw => (hkeeps.published w).trans (hp.published w hw), hp.late⟩, rfl⟩
  | restore => exact ⟨⟨nofun, hp.lookups, hp.published, hp.late⟩, rfl⟩
  | lookUp hnone => exact absurd hnone hp.current
  | adopt hlookups => exact absurd hp.lookups hlookups.ne'
  | roster | land | move => exact ⟨⟨hp.current, hp.lookups, hp.published, hp.late⟩, rfl⟩

theorem settlement_lost (hr : (system S).Reachable p) (hp : Closed p) {es : List Event}
    (hpath : Path (Step S) p es p') :
    p'.desk.attempts = p.desk.attempts ∧ ∀ h ∈ p'.handlers, h.pos.late = true := by
  have hkept : (system S).Reachable p' ∧ Closed p' ∧ p'.desk.attempts = p.desk.attempts := by
    induction hpath with
    | nil => exact ⟨hr, hp, rfl⟩
    | snoc _ hstep ih =>
      obtain ⟨hq, hclosed, heq⟩ := ih
      obtain ⟨hclosed', heq'⟩ := hclosed.step (tended hq) hstep
      exact ⟨.step hq hstep, hclosed', heq'.trans heq⟩
  exact ⟨hkept.2.2, hkept.2.1.late⟩

/-! ## Samples -/

/-- The settlement of the sample job from the publication of its report on, up to the reading of the winners. -/
def publishMoves : List Move := [
  .answer 0 .hydrate (.ok []),
  .answer 0 .reportLog (.ok ()),
  .answer 0 .alert (.ok ()),
  .answer 0 .settledCheck (.ok false)]

/-- The rest of its handler. -/
def reputationMoves : List Move := [.answer 0 (.reputation 0) (.ok ()), .answer 0 .jobCompleted (.ok ())]

theorem Office.quiet_of_over (htimers : p.desk.timers = 0) (hpos : p.handlers.map Handler.pos = [.finished]) :
    p.Quiet := by
  refine ⟨htimers, fun h hh => ?_⟩
  have hmem : h.pos ∈ p.handlers.map Handler.pos := List.mem_map_of_mem hh
  rw [hpos] at hmem
  exact List.mem_singleton.mp hmem

/-- An answer is not an error. -/
def Move.succeeds : Move → Bool
  | .answer _ _ (.error _) => false
  | _ => true

/-- Moves that succeed make a run without failures. -/
theorem succeeds_of_moves {moves : List Move} (ok : Office → Move → Bool)
    (hmoves : ∀ move ∈ moves, move.succeeds = true)
    (hlabels : ∀ tr ∈ ts, ∃ move ∈ moves, tr.label = move.event tr.src ∧ ok tr.src move = true) : Succeeds ts := by
  intro tr htr d pos error heq
  obtain ⟨move, hmove, hlabel, -⟩ := hlabels tr htr
  rw [heq] at hlabel
  have hgood := hmoves move hmove
  rw [Move.eq_of_event hlabel] at hgood
  cases hgood

/-- The move is not a settlement that comes too early. -/
def Office.inTime (S : Setup) (p : Office) : Move → Bool
  | .answer d .alert _ => (p.handlers[d]?).all fun h =>
    (p.desk.object h.job).findings ≠ [] ∧ (p.desk.object h.job).settled = false
  | .answer d .settledCheck _ => (p.handlers[d]?).all fun h =>
    (p.desk.object h.job).winners ≠ [] ∧ p.isJobSettled S = false
  | _ => true

theorem timely_of_moves {moves : List Move}
    (hlabels : ∀ tr ∈ ts, ∃ move ∈ moves, tr.label = move.event tr.src ∧ tr.src.inTime S move = true) :
    ∀ tr ∈ ts, Timely S tr := by
  intro tr htr d h hh
  obtain ⟨move, -, hlabel, hgood⟩ := hlabels tr htr
  constructor
  · intro a heq
    rw [heq] at hlabel
    rw [Move.eq_of_event hlabel, Office.inTime, hh] at hgood
    exact of_decide_eq_true hgood
  · intro a heq
    rw [heq] at hlabel
    rw [Move.eq_of_event hlabel, Office.inTime, hh] at hgood
    exact of_decide_eq_true hgood

/-- The timer publishes the report before the winners are selected, and the settlement is never run. -/
theorem report_before_winners : ¬ ∀ (S : Setup) (ts : Trace) (p : Office), (system S).Run ts p → p.Quiet →
    Succeeds ts → Settleable ts → ∃ attempt ∈ p.desk.attempts, attempt.winners ≠ [] := by
  intro hall
  set moves : List Move := [.findings (sampleMsg "fuzzer" 2), .timeout] ++ publishMoves ++
    [.winnersSelected [.address 2]] ++ reputationMoves with hmoves
  have hplay : (moves.foldlM (Office.playIf sampleSetup fun _ _ => true) sampleOffice).map (fun p =>
      (p.desk.timers, p.handlers.map Handler.pos, p.desk.attempts.map Attempt.winners)) =
      some (0, [.finished], []) := by decide +kernel
  obtain ⟨ts, p, hr, hread, hlabels, hall'⟩ := exists_played hplay
  have htimers : p.desk.timers = 0 := congrArg Prod.fst hread
  have hpos : p.handlers.map Handler.pos = [.finished] := congrArg (fun r => r.2.1) hread
  have hattempts : p.desk.attempts.map Attempt.winners = [] := congrArg (fun r => r.2.2) hread
  have hquiet := Office.quiet_of_over htimers hpos
  have hgood : ∀ move ∈ moves, move.succeeds = true := by
    rw [hmoves]
    decide +kernel
  have hsucceeds := succeeds_of_moves (fun _ _ => true) hgood hlabels
  have hsettleable : Settleable ts := by
    obtain ⟨tr, htr, hlabel⟩ := hall' (.winnersSelected [.address 2]) (by simp [hmoves])
    obtain ⟨tr', htr', hlabel'⟩ := hall' (.findings (sampleMsg "fuzzer" 2)) (by simp [hmoves])
    refine ⟨tr, htr, tr', htr', [.address 2], sampleMsg "fuzzer" 2, .address 2, hlabel, hlabel', rfl, by decide, ?_⟩
    simp [Finding.score, FindingsMsg.toFinding, sampleMsg]
  obtain ⟨attempt, hattempt, -⟩ := hall _ _ _ hr hquiet hsucceeds hsettleable
  have hmem : attempt.winners ∈ p.desk.attempts.map Attempt.winners := List.mem_map_of_mem hattempt
  rw [hattempts] at hmem
  cases hmem

/-- The deposit of the sample settlement, and the settlement itself. -/
def settleMoves : List Move :=
  let payments : List Payment := [⟨.address 2, 30 * 10^8, 0, "fuzzer"⟩]
  [.answer 0 (.preview payments (.address 5)) (.ok (315 * 10^7)),
    .answer 0 (.guardBalance payments (.address 5) (315 * 10^7)) (.ok (10^12)),
    .answer 0 (.operationalHbar payments (.address 5) (315 * 10^7)) (.ok ()),
    .answer 0 (.guardAllowance payments (.address 5) (315 * 10^7)) (.ok ()),
    .land 0 (PaymentSettlement.sampleEnv 5 70),
    .answer 0 (.deposit payments (.address 5) (315 * 10^7)) (.ok ()),
    .land 1 (PaymentSettlement.sampleEnv 5 80),
    .answer 0 (.settleJob payments (.address 5)) (.ok ()),
    .answer 0 .settledLog (.ok ())]

/-- The winners are selected before the report is published, and the settlement is run. -/
theorem settlement_run_sample : ∃ ts p, (system sampleSetup).Run ts p ∧
    (∃ attempt ∈ p.desk.attempts, attempt.winners ≠ []) ∧ p.isJobSettled sampleSetup = true := by
  set moves : List Move := [.findings (sampleMsg "fuzzer" 2), .winnersSelected [.address 2], .timeout] ++
    publishMoves ++ settleMoves ++ reputationMoves with hmoves
  have hplay : (moves.foldlM (Office.playIf sampleSetup (Office.inTime sampleSetup)) sampleOffice).map (fun p =>
      (p.desk.timers, p.handlers.map Handler.pos, p.isJobSettled sampleSetup)) = some (0, [.finished], true) := by
    decide +kernel
  obtain ⟨ts, p, hr, hread, hlabels, hall⟩ := exists_played hplay
  have htimers : p.desk.timers = 0 := congrArg Prod.fst hread
  have hpos : p.handlers.map Handler.pos = [.finished] := congrArg (fun r => r.2.1) hread
  have hquiet := Office.quiet_of_over htimers hpos
  have hgood : ∀ move ∈ moves, move.succeeds = true := by
    rw [hmoves]
    decide +kernel
  have hsucceeds := succeeds_of_moves _ hgood hlabels
  have hsubmitted : Submitted ts := by
    obtain ⟨tr, htr, hlabel⟩ := hall (.findings (sampleMsg "fuzzer" 2)) (by simp [hmoves])
    exact ⟨tr, htr, _, hlabel⟩
  exact ⟨ts, p, hr, settlement_run hr hquiet hsucceeds hsubmitted (timely_of_moves hlabels),
    congrArg (fun r => r.2.2) hread⟩

end AuditGuard.Reporting
