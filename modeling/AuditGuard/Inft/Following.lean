import AuditGuard.Inft.Feed

/-!
# The iNFT of a job follows the chain

The events that are pending tell of each job, in the order of its life, what happened to it since the last report
(`Leads`). An event of the job itself is therefore never refused once the job is linked; what can go wrong is that the
event listener finds no iNFT for the job or one that is done with, as where a contract is audited a second time, and
that another job moves the iNFT. `followsChain_iff` says that nothing else can.
-/

namespace AuditGuard.Inft

open Deployment Evm TransitionSystem

variable {hex : Address → String} {settlement auction : Address} {jobId : ℕ} {w w' : Feed} {l : FeedLabel}
  {e : Event}

/-! ## Reports -/

/-- The reports lead from one status of a job to another in the order of the job's life. The first may repeat what was
reported last. -/
def Leads (jobId : ℕ) : Option AuditAuction.JobStatus → List (ℕ × AuditAuction.JobStatus) →
    Option AuditAuction.JobStatus → Prop
  | o, [], o' => o = o'
  | o, r :: rs, o' => if r.1 = jobId then (o = some r.2 ∨ AuditAuction.Follows o r.2) ∧ Leads jobId (some r.2) rs o'
      else Leads jobId o rs o'

theorem Leads.append {o o' o'' : Option AuditAuction.JobStatus} {rs rs' : List (ℕ × AuditAuction.JobStatus)}
    (h : Leads jobId o rs o') (h' : Leads jobId o' rs' o'') : Leads jobId o (rs ++ rs') o'' := by
  induction rs generalizing o with
  | nil =>
    have hsame : o = o' := h
    rwa [hsame]
  | cons r rs ih =>
    rw [List.cons_append]
    unfold Leads at h ⊢
    split_ifs at h ⊢
    · exact ⟨h.1, ih h.2⟩
    · exact ih h

theorem Leads.of_silent {o o' : Option AuditAuction.JobStatus} {rs : List (ℕ × AuditAuction.JobStatus)}
    (h : Leads jobId o rs o') (hsilent : ∀ r ∈ rs, r.1 ≠ jobId) : o = o' := by
  induction rs with
  | nil => exact h
  | cons r rs ih =>
    rw [List.forall_mem_cons] at hsilent
    unfold Leads at h
    rw [if_neg hsilent.1] at h
    exact ih h hsilent.2

theorem Leads.eq_none {o : Option AuditAuction.JobStatus} {rs : List (ℕ × AuditAuction.JobStatus)}
    (h : Leads jobId o rs none) : o = none := by
  induction rs generalizing o with
  | nil => exact h
  | cons r rs ih =>
    unfold Leads at h
    split_ifs at h
    · exact absurd (ih h.2) (by simp)
    · exact ih h

theorem hear_of_none {reported : ℕ → Option AuditAuction.JobStatus}
    (h : e.report = none) : e.hear reported = reported := by
  rw [Event.hear, h]

theorem hear_of_some {reported : ℕ → Option AuditAuction.JobStatus} {r : ℕ × AuditAuction.JobStatus}
    (h : e.report = some r) : e.hear reported = Function.update reported r.1 (some r.2) := by
  rw [Event.hear, h]

/-! ## The chain -/

theorem step_announces {c c' : SettlementWorld} {l : SettlementLabel}
    (hc : (settlementAuction settlement auction).system.Reachable c)
    (hstep : (settlementAuction settlement auction).system.step c l c') :
    AuditAuction.Announces c.state.2 c'.state.2 := by
  have hsame : ∀ s, AuditAuction.Announces s s := fun s => .inl (.refl s)
  have hsound : (AuditAuction.books c.snd).Sound auction :=
    AuditAuction.reachable_sound (Composition.reachable_callee PaymentSettlement.spares hc)
  cases hstep with
  | elsewhere => exact hsame _
  | @call c₁ _ _ hs h =>
    cases c₁ with
    | callee env c₂ =>
      obtain ⟨w₂, hexec, rfl⟩ := Composition.exec_callee_ok.mp h
      exact AuditAuction.exec_announces (w := c.snd) hsound hexec
    | caller env c₁ =>
      obtain ⟨w₁, -, rfl⟩ := Composition.exec_caller_ok.mp h
      -- The books of the auction are as sound as before, whatever the settlement has paid.
      have hsound : (AuditAuction.books ⟨c.state.2, w₁.token, c.now⟩).Sound auction :=
        ⟨hsound.files, hsound.unused, hsound.first, hsound.active_nodup, hsound.active_iff⟩
      dsimp only
      unfold Composition.relay
      split
      · exact hsame _
      · unfold Contract.attempt
        split
        · next w₂ hexec =>
          have hannounces : AuditAuction.Announces c.state.2 w₂.state := AuditAuction.exec_announces hsound hexec
          exact hannounces
        · exact hsame _

theorem reports_newEvents {c c' : SettlementWorld} {reports : List (ℕ × AuditAuction.JobStatus)}
    (h : AuditAuction.Emits c.state.2 c'.state.2 reports) : (newEvents c c').filterMap Event.report = reports := by
  obtain ⟨es, hlog, rfl⟩ := h
  have hsettlement : ∀ es : List PaymentSettlement.Event, (es.map Event.settlement).filterMap Event.report = [] := by
    intro es
    rw [List.filterMap_map]
    exact List.filterMap_eq_nil_iff.mpr fun e _ => rfl
  unfold newEvents
  rw [hlog, List.drop_left, List.filterMap_append, hsettlement, List.append_nil, List.filterMap_map]
  rfl

theorem leads_newEvents {c c' : SettlementWorld} (h : AuditAuction.Announces c.state.2 c'.state.2) :
    Leads jobId (c.state.2.statusOf jobId) ((newEvents c c').filterMap Event.report) (c'.state.2.statusOf jobId) := by
  rcases h with hsilent | ⟨id, status, hfollows, hemits, hstatuses⟩
  · rw [reports_newEvents hsilent.emits, hsilent.statuses]
    rfl
  · rw [reports_newEvents hemits, hstatuses]
    unfold Leads
    dsimp only
    split_ifs with hid
    · rw [hid] at hfollows ⊢
      rw [Function.update_self]
      exact ⟨.inr hfollows, rfl⟩
    · rw [Function.update_of_ne (Ne.symm hid)]
      rfl

theorem statusOf_of_covers {c c' : SettlementWorld} {minted : List Discovery}
    (h : AuditAuction.Announces c.state.2 c'.state.2)
    (hcovers : jobId ∈ (newEvents c c').filterMap (Event.covers hex minted)) : c.state.2.statusOf jobId = none := by
  obtain ⟨e, he, hcovers⟩ := List.mem_filterMap.mp hcovers
  -- The event reports that the job is open.
  have hreport : e.report = some (jobId, .auctionOpen) := by
    unfold Event.covers at hcovers
    split at hcovers
    · split_ifs at hcovers
      rw [Option.some.injEq] at hcovers
      rw [← hcovers]
      rfl
    · cases hcovers
  have hmem : (jobId, AuditAuction.JobStatus.auctionOpen) ∈ (newEvents c c').filterMap Event.report :=
    List.mem_filterMap.mpr ⟨e, he, hreport⟩
  rcases h with hsilent | ⟨id, status, hfollows, hemits, -⟩
  · rw [reports_newEvents hsilent.emits] at hmem
    cases hmem
  · rw [reports_newEvents hemits, List.mem_singleton, Prod.mk.injEq] at hmem
    obtain ⟨rfl, rfl⟩ := hmem
    generalize c.state.2.statusOf jobId = o at hfollows
    cases hfollows
    rfl

/-! ## What always holds -/

/-- The chain is in order, what is pending leads to it, and the histories are chains. -/
structure Ordered (settlement auction : Address) (w : Feed) : Prop where
  chain : (settlementAuction settlement auction).system.Reachable w.chain
  leads : ∀ jobId, Leads jobId (w.reported jobId) (w.pending.filterMap Event.report) (w.chain.state.2.statusOf jobId)
  chained : ∀ serial c, w.listener.courses serial = some c → c.Chained

theorem chained_apply {courses : ℕ → Option Course} (h : ∀ serial c, courses serial = some c → c.Chained) (t : Turn) :
    ∀ serial c, t.apply courses serial = some c → c.Chained := by
  intro serial c hc
  unfold Turn.apply at hc
  by_cases hserial : serial = t.serial
  · rw [hserial, Function.update_self] at hc
    obtain ⟨c₀, hc₀, rfl⟩ := Option.map_eq_some_iff.mp hc
    exact (h _ c₀ hc₀).move
  · rw [Function.update_of_ne hserial] at hc
    exact h serial c hc

theorem leads_handled {rest : List Event} {o : Option AuditAuction.JobStatus}
    {reported : ℕ → Option AuditAuction.JobStatus}
    (h : Leads jobId (reported jobId) ((e :: rest).filterMap Event.report) o) (again : Bool) :
    Leads jobId (e.hear reported jobId) ((if again then e :: rest else rest).filterMap Event.report) o := by
  cases hreport : e.report with
  | none =>
    rw [List.filterMap_cons_none hreport] at h
    rw [hear_of_none hreport]
    split_ifs
    · rwa [List.filterMap_cons_none hreport]
    · exact h
  | some r =>
    rw [List.filterMap_cons_some hreport] at h
    rw [hear_of_some hreport]
    unfold Leads at h
    by_cases hid : r.1 = jobId
    · rw [if_pos hid] at h
      rw [← hid, Function.update_self, hid]
      split_ifs
      · rw [List.filterMap_cons_some hreport]
        unfold Leads
        rw [if_pos hid]
        exact ⟨.inl rfl, h.2⟩
      · exact h.2
    · rw [if_neg hid] at h
      rw [Function.update_of_ne (Ne.symm hid)]
      split_ifs
      · rw [List.filterMap_cons_some hreport]
        unfold Leads
        rwa [if_neg hid]
      · exact h

theorem chained_handle (h : ∀ serial c, w.listener.courses serial = some c → c.Chained) (e : Event) :
    ∀ serial c, (handle hex w.listener e).courses serial = some c → c.Chained := by
  obtain ⟨-, hcourses, -⟩ := handle_courses hex w.listener e
  rw [hcourses]
  cases w.listener.turn hex e with
  | none => exact h
  | some t => exact chained_apply h t

theorem ordered_of_reachable (hw : (feed hex settlement auction).Reachable w) : Ordered settlement auction w := by
  refine hw.induct (I := Ordered settlement auction) ?_ fun w l w' _ ho hstep => ?_
  · rintro w ⟨hchain, -, hpending, hreported, hstarted⟩
    refine ⟨.init hchain, fun jobId => ?_, fun serial c hc => ?_⟩
    · -- No job is posted yet.
      obtain ⟨⟨-, hfresh⟩, -⟩ := hchain
      obtain ⟨deployer, guardToken, agentRegistry, orchestrator, treasury, hstate⟩ :=
        AuditAuction.fresh_state_eq (show (AuditAuction.contract auction).fresh _ from hfresh)
      rw [hpending, hreported, hstate]
      rfl
    · -- An iNFT that was just minted is discovered.
      obtain ⟨job, hjob, rfl⟩ := Option.map_eq_some_iff.mp hc
      obtain ⟨hmint, -⟩ := hstarted.jobs serial job hjob
      rw [hmint]
      exact ⟨List.isChain_singleton _, rfl⟩
  · cases hstep with
    | mints => exact ⟨ho.chain, ho.leads, ho.chained⟩
    | chain h =>
      have hannounces := step_announces ho.chain h
      refine ⟨.step ho.chain h, fun jobId => ?_, ho.chained⟩
      dsimp only
      rw [List.filterMap_append]
      exact (ho.leads jobId).append (leads_newEvents hannounces)
    | @handles e rest again h =>
      refine ⟨ho.chain, fun jobId => leads_handled ?_ again, chained_handle ho.chained e⟩
      rw [← h]
      exact ho.leads jobId

/-! ## What an event does to the iNFT of a job -/

/-- The job is linked to an iNFT that is in the state. -/
def Shows (index : ℕ → Option ℕ) (courses : ℕ → Option Course) (jobId : ℕ) (s : AuditJobState) : Prop :=
  ∃ serial c, index jobId = some serial ∧ courses serial = some c ∧ c.current = s

theorem Turn.apply_of_ne {courses : ℕ → Option Course} {t : Turn} {serial : ℕ} (h : serial ≠ t.serial) :
    t.apply courses serial = courses serial := Function.update_of_ne h ..

theorem Turn.apply_self {courses : ℕ → Option Course} {t : Turn} {c : Course} (h : courses t.serial = some c) :
    t.apply courses t.serial = some (c.move t.target t.trigger) := by
  unfold Turn.apply
  rw [Function.update_self, h, Option.map_some]

theorem jobState_injective : Function.Injective jobState := by
  intro status status' h
  cases status <;> cases status' <;> simp [jobState] at h ⊢

theorem jobState_mem_allowed {status status' : AuditAuction.JobStatus}
    (h : AuditAuction.Follows (some status) status') : jobState status' ∈ (jobState status).allowed := by
  cases h <;> decide

theorem not_mem_allowed_jobState (status : AuditAuction.JobStatus) :
    AuditJobState.auctionOpen ∉ (jobState status).allowed := by
  cases status <;> decide

theorem tracks_iff (ho : Ordered settlement auction w) : Tracks w jobId ↔ ∀ status, w.reported jobId = some status →
    Shows w.listener.jobIndex w.listener.courses jobId (jobState status) := by
  constructor
  · intro h status hstatus
    obtain ⟨serial, job, hindex, hjob, hstate, -⟩ := h.shown status hstatus
    exact ⟨serial, job.course, hindex, by rw [Listener.courses, hjob, Option.map_some], hstate⟩
  · intro h
    constructor
    case shown =>
      intro status hstatus
      obtain ⟨serial, c, hindex, hc, hstate⟩ := h status hstatus
      have hchained := ho.chained serial c hc
      obtain ⟨job, hjob, rfl⟩ := Option.map_eq_some_iff.mp hc
      exact ⟨serial, job, hindex, hjob, hstate, hchained⟩
    case current =>
      intro hsilent
      refine (ho.leads jobId).of_silent fun r hr => ?_
      obtain ⟨e, he, hreport⟩ := List.mem_filterMap.mp hr
      rintro rfl
      exact hsilent e he r.2 hreport

/-- The next event is not refused if it is one of the job, and the iNFT of the job shows what is reported then. -/
structure Served (hex : Address → String) (jobId : ℕ) (w : Feed) (e : Event) : Prop where
  unrefused : e.jobOf = some jobId → (e.hear w.reported jobId).isSome →
    ¬ Refused (runHandler (dispatch hex e) w.listener).1
  shown : ∀ status, e.hear w.reported jobId = some status →
    Shows (handle hex w.listener e).jobIndex (handle hex w.listener e).courses jobId (jobState status)

theorem moves_iff {serial other : ℕ} {c : Course} {target : AuditJobState}
    (hindex : w.listener.jobIndex jobId = some serial)
    (hc : w.listener.courses serial = some c) :
    Moves w jobId other target ↔ w.listener.jobIndex other = some serial ∧ target ∈ c.current.allowed := by
  obtain ⟨job, hjob, rfl⟩ := Option.map_eq_some_iff.mp hc
  constructor
  · rintro ⟨serial', job', hindex', hother, hjob', hallowed⟩
    rw [hindex, Option.some.injEq] at hindex'
    rw [← hindex'] at hother hjob'
    rw [hjob, Option.some.injEq] at hjob'
    rw [← hjob'] at hallowed
    exact ⟨hother, hallowed⟩
  · rintro ⟨hother, hallowed⟩
    exact ⟨serial, job, hindex, hother, hjob, hallowed⟩

theorem shows_turn_iff {index : ℕ → Option ℕ} {courses : ℕ → Option Course} {serial other : ℕ} {c : Course}
    {target : AuditJobState} {trigger : String} {turn : Option Turn} (hindex : index jobId = some serial)
    (hc : courses serial = some c) (hturn : turn = (index other).map fun serial => ⟨serial, target, trigger⟩) :
    Shows index (turn.elim courses (Turn.apply · courses)) jobId c.current ↔
      ¬ (index other = some serial ∧ target ∈ c.current.allowed) := by
  rw [hturn]
  cases hother : index other with
  | none => exact iff_of_true ⟨serial, c, hindex, hc, rfl⟩ (by simp)
  | some serial' =>
    rw [Option.map_some, Option.elim_some, Option.some.injEq]
    by_cases hserial : serial' = serial
    · have hmoved : Turn.apply ⟨serial', target, trigger⟩ courses serial = some (c.move target trigger) := by
        rw [← hserial] at hc ⊢
        exact Turn.apply_self (t := ⟨serial', target, trigger⟩) hc
      rw [and_iff_right hserial]
      constructor
      · rintro ⟨serial'', c', hindex', hc', hcurrent⟩ hallowed
        rw [hindex, Option.some.injEq] at hindex'
        rw [← hindex', hmoved, Option.some.injEq] at hc'
        -- The transition has left a state that no transition leads back to at once.
        have htarget : (c.move target trigger).current = target := Course.move_current.mpr (.inr hallowed)
        rw [← hc', htarget] at hcurrent
        rw [← hcurrent] at hallowed
        exact not_mem_allowed_self target hallowed
      · intro hallowed
        exact ⟨serial, _, hindex, hmoved, by rw [Course.move, if_neg hallowed]⟩
    · refine iff_of_true ⟨serial, c, hindex, ?_, rfl⟩ fun h => hserial h.1
      rw [Turn.apply_of_ne (t := ⟨serial', target, trigger⟩) (Ne.symm hserial)]
      exact hc

theorem served_other_iff (hshown : ∀ status, w.reported jobId = some status →
      Shows w.listener.jobIndex w.listener.courses jobId (jobState status))
    {other : ℕ} {target : AuditJobState} {trigger : String} (hjob : e.jobOf ≠ some jobId)
    (hhear : e.hear w.reported jobId = w.reported jobId) (hlinked : w.listener.linked hex e = w.listener.jobIndex)
    (hturn : w.listener.turn hex e = (w.listener.jobIndex other).map fun serial => ⟨serial, target, trigger⟩) :
    Served hex jobId w e ↔ ((w.reported jobId).isSome → ¬ Moves w jobId other target) := by
  obtain ⟨hindex, hcourses, -⟩ := handle_courses hex w.listener e
  rw [hlinked] at hindex
  have hserved : Served hex jobId w e ↔ ∀ status, w.reported jobId = some status →
      Shows w.listener.jobIndex ((w.listener.turn hex e).elim w.listener.courses (Turn.apply · w.listener.courses)) jobId
        (jobState status) := by
    rw [← hindex, ← hcourses, ← hhear]
    exact ⟨fun h => h.shown, fun h => ⟨fun hown => absurd hown hjob, h⟩⟩
  rw [hserved]
  cases hreported : w.reported jobId with
  | none => simp
  | some status =>
    obtain ⟨serial, c, hlink, hc, hcurrent⟩ := hshown status hreported
    rw [moves_iff hlink hc, ← shows_turn_iff hlink hc hturn]
    simp [hcurrent]

/-- An event of the job itself that reports a status other than the first. -/
theorem served_own (ho : Ordered settlement auction w) (hshown : ∀ status, w.reported jobId = some status →
      Shows w.listener.jobIndex w.listener.courses jobId (jobState status))
    {rest : List Event} (hpending : w.pending = e :: rest) {status : AuditAuction.JobStatus} {trigger : String}
    (hreport : e.report = some (jobId, status)) (hstatus : status ≠ .auctionOpen)
    (hlinked : w.listener.linked hex e = w.listener.jobIndex)
    (hturn : w.listener.turn hex e =
      (w.listener.jobIndex jobId).map fun serial => ⟨serial, jobState status, trigger⟩) : Served hex jobId w e := by
  -- What was reported last is the status itself, or one that it follows.
  have hleads := ho.leads jobId
  rw [hpending, List.filterMap_cons_some hreport] at hleads
  unfold Leads at hleads
  rw [if_pos rfl] at hleads
  obtain ⟨before, hbefore, hallowed⟩ : ∃ before, w.reported jobId = some before ∧
      (jobState before = jobState status ∨ jobState status ∈ (jobState before).allowed) := by
    rcases hleads.1 with hsame | hfollows
    · exact ⟨status, hsame, .inl rfl⟩
    · cases hreported : w.reported jobId with
      | none =>
        rw [hreported] at hfollows
        cases hfollows
        exact absurd rfl hstatus
      | some before =>
        rw [hreported] at hfollows
        exact ⟨before, rfl, .inr (jobState_mem_allowed hfollows)⟩
  obtain ⟨serial, c, hindex, hc, hcurrent⟩ := hshown before hbefore
  obtain ⟨hindex', hcourses, hrefused⟩ := handle_courses hex w.listener e
  rw [hindex, Option.map_some] at hturn
  rw [hturn] at hcourses hrefused
  rw [← hcurrent] at hallowed
  constructor
  case unrefused =>
    intro _ _ h
    obtain ⟨t, ht, hfails⟩ := hrefused.mp h
    rw [Option.some.injEq] at ht
    rw [← ht, Turn.fails_iff (t := ⟨serial, jobState status, trigger⟩) hc] at hfails
    rcases hallowed with hsame | hallowed
    · exact hfails.1 hsame
    · exact hfails.2 hallowed
  case shown =>
    intro status' hstatus'
    rw [hear_of_some hreport, Function.update_self, Option.some.injEq] at hstatus'
    rw [← hstatus']
    refine ⟨serial, c.move (jobState status) trigger, ?_, ?_, Course.move_current.mpr hallowed⟩
    · rw [hindex', hlinked, hindex]
    · rw [hcourses, Option.elim_some]
      exact Turn.apply_self (t := ⟨serial, jobState status, trigger⟩) hc

theorem served_of_idle (hshown : ∀ status, w.reported jobId = some status →
      Shows w.listener.jobIndex w.listener.courses jobId (jobState status))
    (hreport : e.report = none) (hlinked : w.listener.linked hex e = w.listener.jobIndex)
    (hturn : w.listener.turn hex e = none) : Served hex jobId w e := by
  obtain ⟨hindex, hcourses, hrefused⟩ := handle_courses hex w.listener e
  rw [hturn] at hcourses hrefused
  constructor
  case unrefused =>
    intro _ _ h
    obtain ⟨t, ht, -⟩ := hrefused.mp h
    cases ht
  case shown =>
    rw [hear_of_none hreport, hindex, hlinked, hcourses]
    exact hshown

/-- The job is posted. -/
theorem served_posted_iff {contractAddress : Address} (hreport : e.report = some (jobId, .auctionOpen))
    (hlinked : w.listener.linked hex e =
      Function.update w.listener.jobIndex jobId (w.listener.findJob hex jobId contractAddress))
    (hturn : w.listener.turn hex e = (w.listener.findJob hex jobId contractAddress).map fun serial =>
      ⟨serial, .auctionOpen, "AuditAuction.JobPosted"⟩) :
    Served hex jobId w e ↔ ∃ serial job, w.listener.findJob hex jobId contractAddress = some serial ∧
      w.listener.auditJobs serial = some job ∧ (job.state = .auctionOpen ∨ .auctionOpen ∈ job.state.allowed) := by
  obtain ⟨hindex, hcourses, hrefused⟩ := handle_courses hex w.listener e
  have hheard : e.hear w.reported jobId = some .auctionOpen := by
    rw [hear_of_some hreport]
    exact Function.update_self ..
  have hfound : (handle hex w.listener e).jobIndex jobId = w.listener.findJob hex jobId contractAddress := by
    rw [hindex, hlinked, Function.update_self]
  rw [hturn] at hcourses hrefused
  constructor
  · intro h
    obtain ⟨serial, c', hlink, hc', hcurrent⟩ := h.shown .auctionOpen hheard
    rw [hfound] at hlink
    rw [hcourses, hlink, Option.map_some, Option.elim_some] at hc'
    -- The iNFT that was found is open now, and so it was before, or it could be opened.
    cases hc : w.listener.courses serial with
    | none =>
      rw [Turn.apply_none (t := ⟨serial, .auctionOpen, "AuditAuction.JobPosted"⟩) hc, hc] at hc'
      cases hc'
    | some c =>
      rw [Turn.apply_self (t := ⟨serial, .auctionOpen, "AuditAuction.JobPosted"⟩) hc, Option.some.injEq] at hc'
      obtain ⟨job, hjob, rfl⟩ := Option.map_eq_some_iff.mp hc
      rw [← hc'] at hcurrent
      exact ⟨serial, job, hlink, hjob, Course.move_current.mp hcurrent⟩
  · rintro ⟨serial, job, hlink, hjob, hopen⟩
    have hc : w.listener.courses serial = some job.course := by rw [Listener.courses, hjob, Option.map_some]
    rw [hlink, Option.map_some] at hcourses hrefused
    constructor
    case unrefused =>
      intro _ _ h
      obtain ⟨t, ht, hfails⟩ := hrefused.mp h
      rw [Option.some.injEq] at ht
      rw [← ht, Turn.fails_iff (t := ⟨serial, .auctionOpen, "AuditAuction.JobPosted"⟩) hc] at hfails
      rcases hopen with hopen | hopen
      · exact hfails.1 hopen
      · exact hfails.2 hopen
    case shown =>
      intro status hstatus
      rw [hheard, Option.some.injEq] at hstatus
      rw [← hstatus]
      refine ⟨serial, job.course.move .auctionOpen "AuditAuction.JobPosted", hfound.trans hlink, ?_, ?_⟩
      · rw [hcourses, Option.elim_some]
        exact Turn.apply_self (t := ⟨serial, .auctionOpen, "AuditAuction.JobPosted"⟩) hc
      · exact Course.move_current.mpr hopen

theorem served_posted_other (hshown : ∀ status, w.reported jobId = some status →
      Shows w.listener.jobIndex w.listener.courses jobId (jobState status))
    {other : ℕ} {contractAddress : Address} (hother : other ≠ jobId) (hjob : e.jobOf = some other)
    (hreport : e.report = some (other, .auctionOpen))
    (hlinked : w.listener.linked hex e =
      Function.update w.listener.jobIndex other (w.listener.findJob hex other contractAddress))
    (hturn : w.listener.turn hex e = (w.listener.findJob hex other contractAddress).map fun serial =>
      ⟨serial, .auctionOpen, "AuditAuction.JobPosted"⟩) : Served hex jobId w e := by
  obtain ⟨hindex, hcourses, -⟩ := handle_courses hex w.listener e
  constructor
  case unrefused =>
    intro hown
    rw [hjob, Option.some.injEq] at hown
    exact absurd hown hother
  case shown =>
    intro status hstatus
    rw [hear_of_some hreport, Function.update_of_ne (Ne.symm hother)] at hstatus
    obtain ⟨serial, c, hlink, hc, hcurrent⟩ := hshown status hstatus
    refine ⟨serial, c, ?_, ?_, hcurrent⟩
    · rw [hindex, hlinked, Function.update_of_ne (Ne.symm hother), hlink]
    · rw [hcourses, hturn]
      cases w.listener.findJob hex other contractAddress with
      | none => exact hc
      | some serial' =>
        rw [Option.map_some, Option.elim_some]
        by_cases hserial : serial' = serial
        · have hkept : c.move .auctionOpen "AuditAuction.JobPosted" = c := by
            refine if_neg ?_
            rw [hcurrent]
            exact not_mem_allowed_jobState status
          rw [← hserial] at hc ⊢
          rw [Turn.apply_self (t := ⟨serial', .auctionOpen, "AuditAuction.JobPosted"⟩) hc, hkept]
        · rw [Turn.apply_of_ne (t := ⟨serial', .auctionOpen, "AuditAuction.JobPosted"⟩) (Ne.symm hserial)]
          exact hc

/-- The job is settled. -/
theorem served_settled_iff (hshown : ∀ status, w.reported jobId = some status →
      Shows w.listener.jobIndex w.listener.courses jobId (jobState status))
    {trigger : String} (hjob : e.jobOf = some jobId) (hreport : e.report = none)
    (hlinked : w.listener.linked hex e = w.listener.jobIndex)
    (hturn : w.listener.turn hex e = (w.listener.jobIndex jobId).map fun serial => ⟨serial, .completed, trigger⟩) :
    Served hex jobId w e ↔ ((w.reported jobId).isSome → w.reported jobId = some .completed) := by
  obtain ⟨hindex, hcourses, hrefused⟩ := handle_courses hex w.listener e
  have hheard : e.hear w.reported = w.reported := hear_of_none hreport
  rw [hlinked] at hindex
  cases hreported : w.reported jobId with
  | none =>
    refine iff_of_true ⟨?_, ?_⟩ (by simp)
    · rw [hheard, hreported]
      simp
    · rw [hheard, hreported]
      simp
  | some status =>
    obtain ⟨serial, c, hlink, hc, hcurrent⟩ := hshown status hreported
    have hcompleted : status = .completed ↔ c.current = .completed := by
      rw [hcurrent]
      exact (jobState_injective.eq_iff (b := .completed)).symm
    rw [hlink, Option.map_some] at hturn
    rw [hturn] at hcourses hrefused
    have hkept : Shows (handle hex w.listener e).jobIndex (handle hex w.listener e).courses jobId c.current ↔
        .completed ∉ c.current.allowed := by
      have hiff := shows_turn_iff hlink hc (rfl : ((w.listener.jobIndex jobId).map fun serial =>
        (⟨serial, .completed, trigger⟩ : Turn)) = _)
      rw [hlink, Option.map_some, and_iff_right rfl] at hiff
      rw [hindex, hcourses]
      exact hiff
    have hfails : Refused (runHandler (dispatch hex e) w.listener).1 ↔
        c.current ≠ .completed ∧ .completed ∉ c.current.allowed := by
      rw [hrefused, ← fails_iff_exists]
      exact Turn.fails_iff (t := ⟨serial, .completed, trigger⟩) hc
    simp only [Option.isSome_some, true_imp_iff, Option.some.injEq, hcompleted]
    constructor
    · intro h
      have hallowed := hkept.mp (hcurrent ▸ h.shown status (by rw [hheard, hreported]))
      have hnot := h.unrefused hjob (by rw [hheard, hreported]; rfl)
      rw [hfails] at hnot
      by_contra hne
      exact hnot ⟨hne, hallowed⟩
    · intro hstate
      constructor
      case unrefused =>
        intro _ _ h
        exact (hfails.mp h).1 hstate
      case shown =>
        intro status' hstatus'
        rw [hheard, hreported, Option.some.injEq] at hstatus'
        rw [← hstatus', ← hcurrent]
        refine hkept.mpr ?_
        rw [hstate]
        exact not_mem_allowed_self .completed

/-- The next event serves a tracked job if and only if it does not disturb it. -/
theorem served_iff (ho : Ordered settlement auction w) (htracks : Tracks w jobId) {rest : List Event}
    (hpending : w.pending = e :: rest) : Served hex jobId w e ↔ Undisturbed hex jobId w e := by
  have hshown := (tracks_iff ho).mp htracks
  -- An event of another job, which reports a status.
  have hother : ∀ {id : ℕ} {status : AuditAuction.JobStatus}, id ≠ jobId → e.jobOf = some id →
      e.report = some (id, status) → e.jobOf ≠ some jobId ∧ e.hear w.reported jobId = w.reported jobId := by
    intro id status hid hjob hreport
    refine ⟨by rw [hjob]; simpa using hid, ?_⟩
    rw [hear_of_some hreport]
    exact Function.update_of_ne (Ne.symm hid) ..
  -- An event that reports a status other than the first.
  have hreports : ∀ {id : ℕ} {status : AuditAuction.JobStatus} {trigger : String}, status ≠ .auctionOpen →
      e.jobOf = some id → e.report = some (id, status) → w.listener.linked hex e = w.listener.jobIndex →
      (w.listener.turn hex e = (w.listener.jobIndex id).map fun serial => ⟨serial, jobState status, trigger⟩) →
      (Served hex jobId w e ↔ (id ≠ jobId → (w.reported jobId).isSome → ¬ Moves w jobId id (jobState status))) := by
    intro id status trigger hstatus hjob hreport hlinked hturn
    by_cases hid : id = jobId
    · rw [hid] at hreport hturn
      exact iff_of_true (served_own ho hshown hpending hreport hstatus hlinked hturn) fun hne => absurd hid hne
    · obtain ⟨hne, hhear⟩ := hother hid hjob hreport
      rw [served_other_iff hshown hne hhear hlinked hturn]
      exact ⟨fun h _ => h, fun h => h hid⟩
  cases e with
  | staking e => exact iff_of_true (served_of_idle hshown rfl rfl rfl) trivial
  | settlement e =>
    cases e with
    | jobSettled settlementId id totalDisbursed platformFee reportFees recipientCount =>
      unfold Undisturbed
      dsimp only
      by_cases hid : id = jobId
      · rw [if_pos hid]
        rw [← hid] at hshown ⊢
        exact served_settled_iff hshown rfl rfl rfl rfl
      · rw [if_neg hid]
        refine served_other_iff hshown ?_ rfl rfl rfl
        simpa [Event.jobOf] using hid
    | _ => exact iff_of_true (served_of_idle hshown rfl rfl rfl) trivial
  | auction e =>
    cases e with
    | jobPosted id contractAddress contractChain contractType budgetAvailable auctionDeadline risk lineCount =>
      unfold Undisturbed
      dsimp only
      by_cases hid : id = jobId
      · rw [forall_prop_of_true hid]
        rw [← hid]
        exact served_posted_iff rfl rfl rfl
      · exact iff_of_true (served_posted_other hshown hid rfl rfl rfl rfl) fun h => absurd h hid
    | winnersSelected id winners totalEscrowed platformFee => exact hreports (by simp) rfl rfl rfl rfl
    | jobCompleted id => exact hreports (by simp) rfl rfl rfl rfl
    | jobCancelled id => exact hreports (by simp) rfl rfl rfl rfl
    | _ => exact iff_of_true (served_of_idle hshown rfl rfl rfl) trivial

/-! ## The result -/

/-- A step serves the job. -/
def Serves (hex : Address → String) (jobId : ℕ) (w : Feed) (l : FeedLabel) (w' : Feed) : Prop :=
  ∀ again, l = .handles again → ∀ e rest, w.pending = e :: rest → e.jobOf = some jobId → jobId ∈ w.covered →
    (w'.reported jobId).isSome → ¬ Refused (runHandler (dispatch hex e) w.listener).1

theorem tracks_chain {l : SettlementLabel} {c : SettlementWorld} (ho : Ordered settlement auction w)
    (ho' : Ordered settlement auction w') (hw' : w' = { w with
      chain := c
      covered := w.covered ++ (newEvents w.chain c).filterMap (Event.covers hex w.minted)
      pending := w.pending ++ newEvents w.chain c })
    (hstep : (settlementAuction settlement auction).system.step w.chain l c)
    (htracks : jobId ∈ w.covered → Tracks w jobId) : jobId ∈ w'.covered → Tracks w' jobId := by
  intro hcovered
  rw [tracks_iff ho']
  rw [hw'] at hcovered ⊢
  dsimp only at hcovered ⊢
  rcases List.mem_append.mp hcovered with hcovered | hcovered
  · exact (tracks_iff ho).mp (htracks hcovered)
  · -- Nothing was reported of a job that is only now posted.
    have hnone := statusOf_of_covers (step_announces ho.chain hstep) hcovered
    have hleads := ho.leads jobId
    rw [hnone] at hleads
    rw [hleads.eq_none]
    simp

theorem step_iff (ho : Ordered settlement auction w) (ho' : Ordered settlement auction w')
    (htracks : jobId ∈ w.covered → Tracks w jobId) (hstep : FeedStep hex settlement auction w l w') :
    (Serves hex jobId w l w' ∧ (jobId ∈ w'.covered → Tracks w' jobId)) ↔ CarefulFor hex jobId w l := by
  cases hstep with
  | mints =>
    refine iff_of_true ⟨?_, ?_⟩ trivial
    · rintro again ⟨⟩
    · intro hcovered
      rw [tracks_iff ho']
      exact (tracks_iff ho).mp (htracks hcovered)
  | chain h =>
    refine iff_of_true ⟨?_, tracks_chain ho ho' rfl h htracks⟩ trivial
    rintro again ⟨⟩
  | @handles e rest again h =>
    unfold CarefulFor
    dsimp only
    by_cases hcovered : jobId ∈ w.covered
    · have hserved : Served hex jobId w e ↔ Undisturbed hex jobId w e := served_iff ho (htracks hcovered) h
      constructor
      · rintro ⟨hserves, htracks'⟩ - e' rest' hpending
        rw [h, List.cons.injEq] at hpending
        rw [← hpending.1, ← hserved]
        exact ⟨fun hjob hsome => hserves again rfl e rest h hjob hcovered hsome,
          (tracks_iff ho').mp (htracks' hcovered)⟩
      · intro hcareful
        have hserved := hserved.mpr (hcareful hcovered e rest h)
        refine ⟨?_, fun _ => (tracks_iff ho').mpr hserved.shown⟩
        intro _ _ e' rest' hpending hjob _ hsome
        rw [h, List.cons.injEq] at hpending
        rw [← hpending.1] at hjob ⊢
        exact hserved.unrefused hjob hsome
    · refine iff_of_true ⟨?_, fun h => absurd h hcovered⟩ fun h => absurd h hcovered
      intro _ _ _ _ _ _ h
      exact absurd h hcovered

/-- In a run of the two contracts and the event listener, the iNFT of a job follows the chain, if it was minted before
the job was posted, if and only if each event that is handled meets the condition. -/
theorem followsChain_iff {ts : List (Transition Feed FeedLabel)} (hr : (feed hex settlement auction).Run ts w) :
    FollowsChain hex jobId ts w ↔ ∀ tr ∈ ts, CarefulFor hex jobId tr.src tr.label := by
  have hfollows : FollowsChain hex jobId ts w ↔ (∀ tr ∈ ts, Serves hex jobId tr.src tr.label tr.dst) ∧
      Throughout (fun w => jobId ∈ w.covered → Tracks w jobId) ts w :=
    ⟨fun h => ⟨h.unrefused, h.tracked⟩, fun h => ⟨h.1, h.2⟩⟩
  rw [hfollows]
  have hrule : ∀ w l w', (feed hex settlement auction).Reachable w → (jobId ∈ w.covered → Tracks w jobId) →
      FeedStep hex settlement auction w l w' →
      ((Serves hex jobId w l w' ∧ (jobId ∈ w'.covered → Tracks w' jobId)) ↔ CarefulFor hex jobId w l) :=
    fun w l w' hw htracks hstep =>
      step_iff (ordered_of_reachable hw) (ordered_of_reachable (hw.step hstep)) htracks hstep
  refine hr.forall_steps_iff (I := fun w => jobId ∈ w.covered → Tracks w jobId) ?_ fun w l w' hw htracks hstep => ?_
  · rintro w ⟨-, hcovered, -⟩
    have hnone : jobId ∈ w.covered → Tracks w jobId := by
      rw [hcovered]
      intro h
      cases h
    exact ⟨hnone, hnone⟩
  · have hiff := hrule w l w' hw htracks hstep
    exact ⟨hiff, fun hcareful => (hiff.mpr hcareful).2⟩

/-! ## Runs that are played -/

instance (w : Feed) (jobId other : ℕ) (target : AuditJobState) : Decidable (Moves w jobId other target) :=
  decidable_of_iff (∃ serial ∈ w.listener.jobIndex jobId, w.listener.jobIndex other = some serial ∧
      ∃ job ∈ w.listener.auditJobs serial, target ∈ job.state.allowed) (by simp [Moves])

instance (hex : Address → String) (jobId : ℕ) (w : Feed) : DecidablePred (Undisturbed hex jobId w)
  | .auction (.jobPosted id contractAddress _ _ _ _ _ _) =>
    decidable_of_iff (id = jobId → ∃ serial ∈ w.listener.findJob hex id contractAddress,
      ∃ job ∈ w.listener.auditJobs serial, job.state = .auctionOpen ∨ .auctionOpen ∈ job.state.allowed)
      (by simp [Undisturbed])
  | .auction (.winnersSelected id _ _ _) =>
    inferInstanceAs (Decidable (id ≠ jobId → (w.reported jobId).isSome → ¬ Moves w jobId id .auditingInProgress))
  | .auction (.jobCompleted id) =>
    inferInstanceAs (Decidable (id ≠ jobId → (w.reported jobId).isSome → ¬ Moves w jobId id .completed))
  | .auction (.jobCancelled id) =>
    inferInstanceAs (Decidable (id ≠ jobId → (w.reported jobId).isSome → ¬ Moves w jobId id .cancelled))
  | .settlement (.jobSettled _ id _ _ _ _) =>
    inferInstanceAs (Decidable ((w.reported jobId).isSome →
      if id = jobId then w.reported jobId = some .completed else ¬ Moves w jobId id .completed))
  | .auction (.bidSubmitted ..) | .auction (.bidUpdated ..) | .auction (.bidRefunded ..)
  | .auction (.escrowReleased ..) | .auction (.agentSlashed ..) | .auction (.guardTokenAssociated _)
  | .auction (.auditSchedulerSet _) | .auction (.registryCallFailed ..) | .settlement (.subJobSettled ..)
  | .settlement (.fundsDeposited ..) | .settlement (.fundsWithdrawn ..) | .staking _ => .isTrue trivial

instance (hex : Address → String) (jobId : ℕ) (w : Feed) : DecidablePred (CarefulFor hex jobId w)
  | .handles _ => decidable_of_iff (jobId ∈ w.covered → ∀ e ∈ w.pending.head?, Undisturbed hex jobId w e) <| by
      refine imp_congr_right fun _ => ⟨fun h e rest hpending => h e (by rw [hpending]; rfl), fun h e he => ?_⟩
      obtain ⟨rest, hpending⟩ := List.head?_eq_some_iff.mp he
      exact h e rest hpending
  | .chain _ => .isTrue trivial
  | .mints _ => .isTrue trivial

/-- What is played: a call, or the handling of the next event. -/
inductive FeedMove
  | call (c : SettlementCall)
  | handles

/-- The label of a move. -/
def FeedMove.label : FeedMove → FeedLabel
  | .call c => .chain (.call c)
  | .handles => .handles false

/-- The state after a move. -/
def Feed.play (hex : Address → String) (settlement auction : Address) (w : Feed) : FeedMove → Option Feed
  | .call c =>
    if (settlementAuction settlement auction).Sendable w.chain.now c then
      match (settlementAuction settlement auction).exec c w.chain with
      | .ok chain => some { w with
        chain := chain
        covered := w.covered ++ (newEvents w.chain chain).filterMap (Event.covers hex w.minted)
        pending := w.pending ++ newEvents w.chain chain }
      | .error _ => none
    else none
  | .handles =>
    match w.pending with
    | [] => none
    | e :: rest => some { w with
      pending := rest
      reported := e.hear w.reported
      listener := handle hex w.listener e }

theorem plays_feed : (feed hex settlement auction).Plays (Feed.play hex settlement auction)
    fun _ move l => l = move.label := by
  intro w move w' h
  refine ⟨_, rfl, ?_⟩
  cases move with
  | call c =>
    unfold Feed.play at h
    dsimp only at h
    split_ifs at h with hsend
    split at h
    case h_1 chain hexec =>
      rw [Option.some.injEq] at h
      rw [← h]
      exact .chain (.call hsend hexec)
    case h_2 => cases h
  | handles =>
    unfold Feed.play at h
    dsimp only at h
    split at h
    case h_1 => cases h
    case h_2 e rest hpending =>
      rw [Option.some.injEq] at h
      rw [← h]
      exact @FeedStep.handles _ _ _ _ e rest false hpending

/-!
## Samples

The contracts as they are deployed in `SettlementAuction`, and an iNFT that was minted for the contract at address 4.
-/

/-- Some addresses as texts. -/
def sampleHex (a : Address) : String := if a = 4 then "0x4" else "0x"

/-- The feed with one iNFT, of which nothing was reported. -/
def sampleFeed : Feed where
  chain := settlementWorld
  minted := [⟨0, "0x4"⟩]
  covered := []
  pending := []
  reported _ := none
  listener := {
    jobIndex _ := none
    agentIndex _ := none
    jobSerials := [1]
    auditJobs serial := if serial = 1 then some (.mint 0 "0x4") else none
    agentProfiles _ := none }

theorem sampleFeed_init : (feed sampleHex 20 1).init sampleFeed := by
  refine ⟨⟨⟨⟨9, 7, 6, 1, 8, 10, 5, rfl⟩, ⟨9, 7, 6, 5, 10, rfl⟩⟩, by decide, by decide⟩, rfl, rfl, fun _ => rfl, ?_⟩
  constructor
  case index => rfl
  case jobs =>
    intro serial job hjob
    change (if serial = 1 then some (AuditJob.mint 0 "0x4") else none) = some job at hjob
    split_ifs at hjob
    rw [Option.some.injEq] at hjob
    rw [← hjob]
    exact ⟨rfl, List.mem_singleton_self _⟩

/-- A job from its posting to its completion. -/
def auditMoves : List FeedMove := [
  .call (.callee (AuditAuction.sampleEnv 5 0) (.createAuditJob 4 "hedera" "token" 10 (200 * 10^8) 100 60)),
  .handles,
  .call (.callee (AuditAuction.sampleEnv 2 1) (.submitBid 1 0 (50 * 10^8) 100 "defi")),
  .handles,
  .call (.callee (AuditAuction.sampleEnv 5 61) (.selectWinners 1 [0])),
  .handles,
  .call (.callee (AuditAuction.sampleEnv 5 62) (.releaseEscrow 1 2 0 0 1 0 0)),
  .call (.callee (AuditAuction.sampleEnv 5 63) (.completeJob 1)),
  .handles,
  .handles]

/-- The iNFT follows the job from its posting to its completion. -/
theorem followsChain_completed : ∃ ts w, (feed sampleHex 20 1).Run ts w ∧ FollowsChain sampleHex 1 ts w ∧
    w.chain.state.2.statusOf 1 = some .completed ∧ (w.listener.auditJobs 1).map AuditJob.state = some .completed := by
  have hplays : (feed sampleHex 20 1).Plays
      (fun w move => if decide (CarefulFor sampleHex 1 w move.label) = true then w.play sampleHex 20 1 move else none)
      (fun w move l => l = move.label ∧ decide (CarefulFor sampleHex 1 w move.label) = true) := plays_feed.guarded
  have hplay : (auditMoves.foldlM (fun w move =>
        if decide (CarefulFor sampleHex 1 w move.label) = true then w.play sampleHex 20 1 move else none) sampleFeed).map
      (fun w => (w.chain.state.2.statusOf 1, (w.listener.auditJobs 1).map AuditJob.state)) =
        some (some .completed, some .completed) := by decide +kernel
  obtain ⟨ts, w, hr, hread, hfrom, -⟩ := hplays.exists_run sampleFeed_init hplay
  refine ⟨ts, w, hr, (followsChain_iff hr).mpr fun tr htr => ?_, congrArg Prod.fst hread, congrArg Prod.snd hread⟩
  obtain ⟨move, -, hcomes⟩ := hfrom tr htr
  obtain ⟨hlabel, hcareful⟩ := hcomes.means
  rw [hlabel]
  exact of_decide_eq_true hcareful

/-- A contract whose audit was cancelled, and that is posted again. -/
def reauditMoves : List FeedMove := [
  .call (.callee (AuditAuction.sampleEnv 5 0) (.createAuditJob 4 "hedera" "token" 10 (200 * 10^8) 100 60)),
  .call (.callee (AuditAuction.sampleEnv 5 1) (.cancelJob 1)),
  .call (.callee (AuditAuction.sampleEnv 5 2) (.createAuditJob 4 "hedera" "token" 10 (200 * 10^8) 100 60)),
  .handles,
  .handles,
  .handles]

/-- The iNFT of the second job stays cancelled while the job is open. -/
theorem not_followsChain_reaudit : ¬ ∀ hex settlement auction jobId ts w, (feed hex settlement auction).Run ts w →
    FollowsChain hex jobId ts w := by
  intro hall
  have hplay : (reauditMoves.foldlM (Feed.play sampleHex 20 1) sampleFeed).map (fun w =>
      (decide (2 ∈ w.covered), w.reported 2, w.listener.jobIndex 2, (w.listener.auditJobs 1).map AuditJob.state)) =
        some (true, some .auctionOpen, some 1, some .cancelled) := by decide +kernel
  obtain ⟨ts, w, hr, hread, -, -⟩ := plays_feed.exists_run sampleFeed_init hplay
  simp only [Prod.mk.injEq, decide_eq_true_eq] at hread
  obtain ⟨hcovered, hreported, hindex, hstate⟩ := hread
  have htracks := (hall sampleHex 20 1 2 ts w hr).tracked.2 hcovered
  obtain ⟨serial, job, hindex', hjob, hopen, -⟩ := htracks.shown .auctionOpen hreported
  rw [hindex, Option.some.injEq] at hindex'
  rw [← hindex'] at hjob
  rw [hjob, Option.map_some, hopen] at hstate
  simp [jobState] at hstate

end AuditGuard.Inft
