import AuditGuard.Inft.Effects

/-!
# The course of a job

The part of an audit job's metadata under `state`: the current state, and the history of how it was reached. A handler
tries at most one transition, of one iNFT (`Listener.turn`), and `handle_courses` says what comes of it. Whatever else
a handler does leaves all courses as they are (`Steady`).
-/

namespace AuditGuard.Inft

open Evm StakingManager

/-- `state` in the metadata. -/
structure Course where
  current : AuditJobState
  history : List StateChange

/-- The course of an audit job. -/
def AuditJob.course (job : AuditJob) : Course := ⟨job.state, job.history⟩

/-- The courses of the stored audit jobs. -/
def Listener.courses (l : Listener) (serial : ℕ) : Option Course := (l.auditJobs serial).map AuditJob.course

/-- The course with a transition, if the table allows it. -/
def Course.move (target : AuditJobState) (trigger : String) (c : Course) : Course :=
  if target ∈ c.current.allowed then ⟨target, c.history ++ [⟨some c.current, target, trigger⟩]⟩ else c

/-- The history is a chain of allowed transitions, which ends in the current state. -/
structure Course.Chained (c : Course) : Prop where
  steps : c.history.IsChain fun before after => after.source = some before.target ∧ after.target ∈ before.target.allowed
  ends : c.history.getLast?.map StateChange.target = some c.current

/-- What `transitionAuditJobState` throws. -/
def refusal (source target : AuditJobState) : String :=
  "Invalid state transition: " ++ source.name ++ " -> " ++ target.name

/-- The result is that a transition was refused. -/
def Refused {α : Type} (result : Except String α) : Prop := ∃ source target, result = .error (refusal source target)

/-- A transition of one iNFT. -/
structure Turn where
  serial : ℕ
  target : AuditJobState
  trigger : String

/-- The courses after a transition. -/
def Turn.apply (t : Turn) (courses : ℕ → Option Course) : ℕ → Option Course :=
  Function.update courses t.serial ((courses t.serial).map (Course.move t.target t.trigger))

/-- The transition is refused. -/
def Turn.Fails (t : Turn) (courses : ℕ → Option Course) : Prop :=
  ∃ c, courses t.serial = some c ∧ c.current ≠ t.target ∧ t.target ∉ c.current.allowed

/-- The iNFT that `_onAuditAuction_JobPosted` takes for the job. -/
def Listener.findJob (hex : Address → String) (l : Listener) (jobId : ℕ) (contractAddress : Address) : Option ℕ :=
  (l.jobIndex jobId).or (l.findByContract (hex contractAddress))

/-- The transition that the handler of an event tries. -/
def Listener.turn (hex : Address → String) (l : Listener) : Event → Option Turn
  | .auction (.jobPosted jobId contractAddress _ _ _ _ _ _) =>
    (l.findJob hex jobId contractAddress).map fun serial => ⟨serial, .auctionOpen, "AuditAuction.JobPosted"⟩
  | .auction (.winnersSelected jobId _ _ _) =>
    (l.jobIndex jobId).map fun serial => ⟨serial, .auditingInProgress, "AuditAuction.WinnersSelected"⟩
  | .auction (.jobCompleted jobId) =>
    (l.jobIndex jobId).map fun serial => ⟨serial, .completed, "AuditAuction.JobCompleted"⟩
  | .auction (.jobCancelled jobId) =>
    (l.jobIndex jobId).map fun serial => ⟨serial, .cancelled, "AuditAuction.JobCancelled"⟩
  | .settlement (.jobSettled _ jobId _ _ _ _) =>
    (l.jobIndex jobId).map fun serial => ⟨serial, .completed, "PaymentSettlement.JobSettled"⟩
  | _ => none

/-- The index after an event: a job that is posted is linked to the iNFT that is found. -/
def Listener.linked (hex : Address → String) (l : Listener) : Event → ℕ → Option ℕ
  | .auction (.jobPosted jobId contractAddress _ _ _ _ _ _) =>
    Function.update l.jobIndex jobId (l.findJob hex jobId contractAddress)
  | _ => l.jobIndex

variable {α β : Type} {l l' : Listener} {serial : ℕ} {target : AuditJobState} {trigger : String} {c : Course} {t : Turn}

/-! ## Courses -/

theorem not_mem_allowed_self (s : AuditJobState) : s ∉ s.allowed := by cases s <;> decide

theorem Course.Chained.move (h : c.Chained) : (c.move target trigger).Chained := by
  unfold Course.move
  split_ifs with hallowed
  · refine ⟨?_, by rw [List.getLast?_concat, Option.map_some]⟩
    refine List.isChain_append.mpr ⟨h.steps, List.isChain_singleton _, fun last hlast next hnext => ?_⟩
    have hends := h.ends
    rw [Option.mem_def] at hlast
    rw [hlast, Option.map_some, Option.some.injEq] at hends
    rw [List.head?_cons, Option.mem_some] at hnext
    rw [← hnext, hends]
    exact ⟨rfl, hallowed⟩
  · exact h

theorem Course.move_current : (c.move target trigger).current = target ↔
    c.current = target ∨ target ∈ c.current.allowed := by
  unfold Course.move
  split_ifs with hallowed
  · exact iff_of_true rfl (.inr hallowed)
  · rw [or_iff_left hallowed]

theorem transitionAuditJobState_course (job : AuditJob) :
    (∃ job', job.transitionAuditJobState target trigger = .ok job' ∧ job'.course = job.course.move target trigger ∧
      ¬ (job.state ≠ target ∧ target ∉ job.state.allowed)) ∨
    job.transitionAuditJobState target trigger = .error (refusal job.state target) ∧
      job.course.move target trigger = job.course ∧ job.state ≠ target ∧ target ∉ job.state.allowed := by
  unfold AuditJob.transitionAuditJobState Course.move
  have hcurrent : job.course.current = job.state := rfl
  rw [hcurrent]
  split_ifs with hsame hallowed hallowed
  · rw [hsame] at hallowed
    exact absurd hallowed (not_mem_allowed_self target)
  · exact .inl ⟨job, rfl, rfl, fun h => h.1 hsame⟩
  · exact .inl ⟨_, rfl, rfl, fun h => h.2 hallowed⟩
  · exact .inr ⟨rfl, rfl, hsame, hallowed⟩

/-! ## Messages -/

theorem append_ne_append {a b : String} {x y : Char} (ha : a.toList.head? = some x) (hb : b.toList.head? = some y)
    (hne : x ≠ y) (rest rest' : String) : a ++ rest ≠ b ++ rest' := by
  intro h
  have hhead := congrArg (fun s : String => s.toList.head?) h
  simp only [String.toList_append, List.head?_append, ha, hb, Option.some_or] at hhead
  exact hne (Option.some.inj hhead)

theorem not_refused_job (serial : ℕ) :
    ¬ Refused (.error ("Audit Job iNFT #" ++ toString serial ++ " not found") : Except String α) := by
  rintro ⟨source, target, h⟩
  have hmessage := Except.error.inj h
  unfold refusal at hmessage
  rw [String.append_assoc, String.append_assoc, String.append_assoc] at hmessage
  exact append_ne_append (x := 'A') (y := 'I') (by decide) (by decide) (by decide) _ _ hmessage

theorem not_refused_profile (serial : ℕ) :
    ¬ Refused (.error ("Agent Profile iNFT #" ++ toString serial ++ " not found") : Except String α) := by
  rintro ⟨source, target, h⟩
  have hmessage := Except.error.inj h
  unfold refusal at hmessage
  rw [String.append_assoc, String.append_assoc, String.append_assoc] at hmessage
  exact append_ne_append (x := 'A') (y := 'I') (by decide) (by decide) (by decide) _ _ hmessage

theorem not_refused_ok (a : α) : ¬ Refused (.ok a : Except String α) := by
  rintro ⟨source, target, h⟩
  cases h

/-! ## Handlers that leave the courses alone -/

/-- The index and the courses are the same. -/
def SameCourses (l l' : Listener) : Prop := l'.jobIndex = l.jobIndex ∧ l'.courses = l.courses

/-- Whatever the handler comes to, it leaves the index and all courses as they are, and no transition is refused. -/
def Steady (h : Handler α) : Prop := ∀ l, SameCourses l (exec h l).2 ∧ ¬ Refused (exec h l).1

theorem SameCourses.saveJob {job old : AuditJob} (hold : l.auditJobs serial = some old)
    (hjob : job.course = old.course) :
    SameCourses l (l.saveJob serial job) := by
  refine ⟨rfl, ?_⟩
  funext serial'
  unfold Listener.courses
  rw [Listener.saveJob_auditJobs]
  by_cases hserial : serial' = serial
  · rw [hserial, Function.update_self, hold, Option.map_some, Option.map_some, hjob]
  · rw [Function.update_of_ne hserial]

namespace Steady

theorem pure (a : α) : Steady (Pure.pure a : Handler α) := fun _ => ⟨⟨rfl, rfl⟩, not_refused_ok a⟩

theorem bind {x : Handler α} {f : α → Handler β} (hx : Steady x) (hf : ∀ a, Steady (f a)) : Steady (x >>= f) := by
  intro l
  obtain ⟨⟨hindex, hcourses⟩, hfirst⟩ := hx l
  cases hexec : exec x l with
  | mk result l' =>
    rw [hexec] at hindex hcourses hfirst
    cases result with
    | error e =>
      rw [exec_bind_error hexec]
      refine ⟨⟨hindex, hcourses⟩, ?_⟩
      rintro ⟨source, target, h⟩
      rw [Except.error.injEq] at h
      exact hfirst ⟨source, target, by rw [h]⟩
    | ok a =>
      rw [exec_bind_ok hexec]
      obtain ⟨⟨hindex', hcourses'⟩, hlast⟩ := hf a l'
      exact ⟨⟨hindex'.trans hindex, hcourses'.trans hcourses⟩, hlast⟩

theorem get_bind {f : Listener → Handler β} (hf : ∀ l, SameCourses l (exec (f l) l).2 ∧ ¬ Refused (exec (f l) l).1) :
    Steady (get >>= f) := hf

theorem changeJob {f : AuditJob → AuditJob} (hf : ∀ job, (f job).course = job.course) (serial : ℕ) :
    Steady (changeJob serial fun job => .ok (f job)) := by
  refine get_bind fun l => ?_
  cases hjob : l.auditJobs serial with
  | none => exact ⟨⟨rfl, rfl⟩, not_refused_job serial⟩
  | some job => exact ⟨.saveJob hjob (hf job), not_refused_ok ()⟩

theorem changeProfile (f : AgentProfile → AgentProfile) (serial : ℕ) : Steady (changeProfile serial f) := by
  refine get_bind fun l => ?_
  cases l.agentProfiles serial with
  | none => exact ⟨⟨rfl, rfl⟩, not_refused_profile serial⟩
  | some p => exact ⟨⟨rfl, rfl⟩, not_refused_ok ()⟩

theorem withJob {k : ℕ → Handler Unit} (hk : ∀ serial, Steady (k serial)) (jobId : ℕ) : Steady (withJob jobId k) := by
  refine get_bind fun l => ?_
  cases l.jobIndex jobId with
  | none => exact Steady.pure () l
  | some serial => exact hk serial l

theorem withAgent {k : ℕ → Handler Unit} (hk : ∀ serial, Steady (k serial)) (agent : Address) :
    Steady (withAgent agent k) := by
  refine get_bind fun l => ?_
  cases l.agentIndex agent with
  | none => exact Steady.pure () l
  | some serial => exact hk serial l

theorem forM {k : Address → Handler Unit} (hk : ∀ agent, Steady (k agent)) (agents : List Address) :
    Steady (agents.forM k) := by
  induction agents with
  | nil => exact .pure ()
  | cons agent agents ih => exact .bind (hk agent) fun _ => ih

theorem countBid (serial : ℕ) : Steady (countBid serial) := by
  intro l
  rw [Inft.countBid, exec_modify]
  dsimp only
  cases hjob : l.auditJobs serial with
  | none => exact ⟨⟨rfl, rfl⟩, not_refused_ok ()⟩
  | some job =>
    dsimp only
    cases job.auction with
    | none => exact ⟨⟨rfl, rfl⟩, not_refused_ok ()⟩
    | some auction => exact ⟨.saveJob hjob rfl, not_refused_ok ()⟩

end Steady

/-! ## Handlers that try a transition -/

/-- Whatever the handler comes to, the transition was tried, and no other course was touched. -/
def Tries (t : Turn) (h : Handler α) : Prop :=
  ∀ l, (exec h l).2.jobIndex = l.jobIndex ∧ (exec h l).2.courses = t.apply l.courses ∧
    (Refused (exec h l).1 ↔ t.Fails l.courses)

theorem Turn.apply_none {courses : ℕ → Option Course} (h : courses t.serial = none) : t.apply courses = courses := by
  unfold Turn.apply
  rw [h, Option.map_none, ← h]
  exact Function.update_eq_self t.serial courses

theorem Turn.fails_iff {courses : ℕ → Option Course} (h : courses t.serial = some c) :
    t.Fails courses ↔ c.current ≠ t.target ∧ t.target ∉ c.current.allowed := by
  unfold Turn.Fails
  simp [h]

theorem Turn.not_fails_none {courses : ℕ → Option Course} (h : courses t.serial = none) : ¬ t.Fails courses := by
  rintro ⟨c, hc, -⟩
  rw [h] at hc
  cases hc

theorem fails_iff_exists {courses : ℕ → Option Course} :
    t.Fails courses ↔ ∃ t', some t = some t' ∧ t'.Fails courses := by
  simp

theorem Tries.transition (serial : ℕ) (target : AuditJobState) (trigger : String) :
    Tries ⟨serial, target, trigger⟩ (transitionAuditJobState serial target trigger) := by
  intro l
  unfold transitionAuditJobState changeJob
  rw [exec_get_bind]
  cases hjob : l.auditJobs serial with
  | none =>
    have hnone : l.courses serial = none := by rw [Listener.courses, hjob, Option.map_none]
    exact ⟨rfl, (Turn.apply_none (t := ⟨serial, target, trigger⟩) hnone).symm,
      iff_of_false (not_refused_job serial) (Turn.not_fails_none hnone)⟩
  | some job =>
    have hsome : l.courses serial = some job.course := by rw [Listener.courses, hjob, Option.map_some]
    rw [Turn.fails_iff (t := ⟨serial, target, trigger⟩) hsome]
    rcases @transitionAuditJobState_course target trigger job with
      ⟨job', hok, hcourse, hallowed⟩ | ⟨herror, hcourse, hrefused⟩
    · dsimp only
      rw [hok]
      refine ⟨rfl, ?_, iff_of_false (not_refused_ok ()) hallowed⟩
      funext serial'
      change (Function.update l.auditJobs serial (some job') serial').map AuditJob.course = _
      unfold Turn.apply
      dsimp only
      by_cases hserial : serial' = serial
      · rw [hserial, Function.update_self, Function.update_self, hsome, Option.map_some, Option.map_some, hcourse]
      · rw [Function.update_of_ne hserial, Function.update_of_ne hserial]
        rfl
    · dsimp only
      rw [herror]
      refine ⟨rfl, ?_, iff_of_true ⟨job.state, target, rfl⟩ hrefused⟩
      unfold Turn.apply
      dsimp only
      rw [hsome, Option.map_some, hcourse, ← hsome]
      exact (Function.update_eq_self serial l.courses).symm

theorem Tries.bind {x : Handler α} {f : α → Handler β} (hx : Tries t x) (hf : ∀ a, Steady (f a)) :
    Tries t (x >>= f) := by
  intro l
  obtain ⟨hindex, hcourses, hrefused⟩ := hx l
  cases hexec : exec x l with
  | mk result l' =>
    rw [hexec] at hindex hcourses hrefused
    cases result with
    | error e =>
      rw [exec_bind_error hexec]
      refine ⟨hindex, hcourses, Iff.trans ?_ hrefused⟩
      unfold Refused
      simp only [Except.error.injEq]
    | ok a =>
      rw [exec_bind_ok hexec]
      obtain ⟨⟨hindex', hcourses'⟩, hlast⟩ := hf a l'
      exact ⟨hindex'.trans hindex, hcourses'.trans hcourses,
        iff_of_false hlast fun h => not_refused_ok a (hrefused.mpr h)⟩

theorem exec_withJob_tries {k : ℕ → Handler Unit} (hk : ∀ serial, Tries ⟨serial, target, trigger⟩ (k serial))
    (jobId : ℕ) (l : Listener) {turn : Option Turn}
    (hturn : turn = (l.jobIndex jobId).map fun serial => ⟨serial, target, trigger⟩) :
    (exec (withJob jobId k) l).2.jobIndex = l.jobIndex ∧
      (exec (withJob jobId k) l).2.courses = turn.elim l.courses (Turn.apply · l.courses) ∧
      (Refused (exec (withJob jobId k) l).1 ↔ ∃ t, turn = some t ∧ t.Fails l.courses) := by
  unfold withJob
  rw [exec_get_bind, hturn]
  cases l.jobIndex jobId with
  | none => exact ⟨rfl, rfl, iff_of_false (not_refused_ok ()) (by simp)⟩
  | some serial =>
    obtain ⟨hindex, hcourses, hrefused⟩ := hk serial l
    exact ⟨hindex, hcourses, hrefused.trans fails_iff_exists⟩

theorem Tries.after {x : Handler α} {f : α → Handler β} (hx : Steady x) (hf : ∀ a, Tries t (f a))
    (hmissing : ∀ l e, (exec x l).1 = .error e → l.courses t.serial = none) : Tries t (x >>= f) := by
  intro l
  obtain ⟨⟨hindex, hcourses⟩, hfirst⟩ := hx l
  have hnone := hmissing l
  cases hexec : exec x l with
  | mk result l' =>
    rw [hexec] at hindex hcourses hfirst hnone
    cases result with
    | error e =>
      have hnone := hnone e rfl
      rw [exec_bind_error hexec, Turn.apply_none hnone]
      refine ⟨hindex, hcourses, iff_of_false ?_ (Turn.not_fails_none hnone)⟩
      rintro ⟨source, target, h⟩
      rw [Except.error.injEq] at h
      exact hfirst ⟨source, target, by rw [h]⟩
    | ok a =>
      rw [exec_bind_ok hexec]
      obtain ⟨hindex', hcourses', hrefused⟩ := hf a l'
      dsimp only at hindex hcourses
      rw [hcourses] at hcourses' hrefused
      exact ⟨hindex'.trans hindex, hcourses', hrefused⟩

theorem Tries.unless (serial : ℕ) (target : AuditJobState) (trigger : String) : Tries ⟨serial, target, trigger⟩ (do
    match (← get).auditJobs serial with
    | none => pure ()
    | some metadata => if metadata.state ≠ target then transitionAuditJobState serial target trigger) := by
  intro l
  rw [exec_get_bind]
  cases hjob : l.auditJobs serial with
  | none =>
    have hnone : l.courses serial = none := by rw [Listener.courses, hjob, Option.map_none]
    exact ⟨rfl, (Turn.apply_none (t := ⟨serial, target, trigger⟩) hnone).symm,
      iff_of_false (not_refused_ok ()) (Turn.not_fails_none hnone)⟩
  | some job =>
    dsimp only
    by_cases hstate : job.state = target
    · -- The iNFT is in the state already.
      have hsome : l.courses serial = some job.course := by rw [Listener.courses, hjob, Option.map_some]
      have hsame : job.course.move target trigger = job.course := by
        have hnot : target ∉ job.course.current.allowed := by
          change target ∉ job.state.allowed
          rw [hstate]
          exact not_mem_allowed_self target
        exact if_neg hnot
      rw [if_neg (fun h => h hstate), Turn.fails_iff (t := ⟨serial, target, trigger⟩) hsome]
      refine ⟨rfl, ?_, iff_of_false (not_refused_ok ()) fun h => h.1 hstate⟩
      unfold Turn.apply
      dsimp only
      rw [hsome, Option.map_some, hsame, ← hsome]
      exact (Function.update_eq_self serial l.courses).symm
    · rw [if_pos hstate]
      exact Tries.transition serial target trigger l

/-! ## The handlers -/

theorem courses_of_error {f : AuditJob → AuditJob} {e : String}
    (h : (exec (changeJob serial fun job => .ok (f job)) l).1 = .error e) : l.courses serial = none := by
  unfold changeJob at h
  rw [exec_get_bind] at h
  cases hjob : l.auditJobs serial with
  | none => rw [Listener.courses, hjob, Option.map_none]
  | some job =>
    rw [hjob] at h
    cases h

/-- What the handler of `JobPosted` does to the courses. -/
theorem exec_onJobPosted (hex : Address → String) (l : Listener) (jobId : ℕ) (contractAddress : Address)
    (budgetAvailable auctionDeadline : ℕ) {turn : Option Turn}
    (hturn : turn = (l.findJob hex jobId contractAddress).map fun serial =>
      ⟨serial, .auctionOpen, "AuditAuction.JobPosted"⟩) :
    (exec (onJobPosted hex jobId contractAddress budgetAvailable auctionDeadline) l).2.jobIndex =
        Function.update l.jobIndex jobId (l.findJob hex jobId contractAddress) ∧
      (exec (onJobPosted hex jobId contractAddress budgetAvailable auctionDeadline) l).2.courses =
        turn.elim l.courses (Turn.apply · l.courses) ∧
      (Refused (exec (onJobPosted hex jobId contractAddress budgetAvailable auctionDeadline) l).1 ↔
        ∃ t, turn = some t ∧ t.Fails l.courses) := by
  have hrest : ∀ serial, Tries ⟨serial, .auctionOpen, "AuditAuction.JobPosted"⟩ (do
      transitionAuditJobState serial .auctionOpen "AuditAuction.JobPosted"
      updateAuctionData serial {
        deadline := some auctionDeadline
        budgetGuard := some (toGuard budgetAvailable)
        totalBids := some 0
        winningAgents := some []
        platformFeePaid := some 0 }) := by
    intro serial
    refine Tries.bind (Tries.transition serial .auctionOpen _) fun _ => ?_
    exact Steady.changeJob (f := (·.updateAuctionData _)) (fun job => rfl) serial
  unfold onJobPosted
  rw [exec_get_bind, hturn]
  change _ ∧ _ ∧ _
  unfold Listener.findJob
  cases hfind : (l.jobIndex jobId).or (l.findByContract (hex contractAddress)) with
  | none =>
    -- Neither was the job linked before, nor is it now.
    have hindex : l.jobIndex jobId = none := (Option.or_eq_none_iff.mp hfind).1
    have hsame : Function.update l.jobIndex jobId none = l.jobIndex := by
      rw [← hindex]
      exact Function.update_eq_self jobId l.jobIndex
    exact ⟨hsame.symm, rfl, iff_of_false (not_refused_ok ()) (by simp)⟩
  | some serial =>
    dsimp only
    rw [exec_bind_ok (exec_modify _ l)]
    -- The iNFT gets the number of the job, and keeps its course.
    cases hjob : l.auditJobs serial with
    | none =>
      obtain ⟨hindex, hcourses, hrefused⟩ := hrest serial (l.link jobId serial)
      exact ⟨hindex, hcourses, hrefused.trans fails_iff_exists⟩
    | some job =>
      dsimp only
      rw [exec_bind_ok (exec_modify _ _)]
      obtain ⟨hindex, hcourses, hrefused⟩ :=
        hrest serial ((l.link jobId serial).saveJob serial { job with jobId := jobId })
      have hsame : SameCourses (l.link jobId serial)
          ((l.link jobId serial).saveJob serial { job with jobId := jobId }) :=
        SameCourses.saveJob hjob rfl
      rw [hsame.2] at hcourses hrefused
      exact ⟨hindex, hcourses, hrefused.trans fails_iff_exists⟩

theorem steady_onStakingManager (e : StakingManager.Event) : Steady (onStakingManager e) := by
  have hload : ∀ serial, Steady (loadProfile serial) := fun serial => .get_bind fun l =>
    Steady.pure (l.agentProfiles serial) l
  have hcurrent : ∀ serial, Steady (currentStaking serial) := fun serial => .bind (hload serial) fun _ => .pure _
  cases e with
  | staked | agentDeactivating | appealFiled | appealDenied => exact .withAgent (fun serial => .changeProfile _ serial) _
  | unstakeRequested | unstakeCompleted | stakeLocked | stakeUnlocked =>
    exact .withAgent (fun serial => .bind (hcurrent serial) fun staking => .changeProfile _ serial) _
  | slashInitiated slashId agent reason slashedAmount slashBasisPoints evidenceHash jobId =>
    refine .withAgent (fun serial => .bind (.changeProfile _ serial) fun _ => .bind (.changeProfile _ serial) fun _ =>
      .bind (hload serial) fun profile => ?_) agent
    cases profile.bind AgentProfile.staking with
    | none => exact .pure ()
    | some staking => exact .changeProfile _ serial
  | appealApproved slashId agent restoredAmount =>
    refine .withAgent (fun serial => .bind (.changeProfile _ serial) fun _ =>
      .bind (hload serial) fun profile => ?_) agent
    cases profile with
    | none => exact .pure ()
    | some agentData =>
      dsimp only
      -- The reputation comes back if the slash is known, and the stake if there are staking details.
      cases agentData.slashHistory.find? (·.slashId = slashId) with
      | none =>
        cases agentData.staking with
        | none => exact .pure ()
        | some staking => exact .changeProfile _ serial
      | some slashEntry =>
        refine .bind (.changeProfile _ serial) fun _ => ?_
        cases agentData.staking with
        | none => exact .pure ()
        | some staking => exact .changeProfile _ serial
  | _ => exact .pure ()

/-- What an event does to the index and to the courses, and when a transition is refused. -/
theorem handle_courses (hex : Address → String) (l : Listener) (e : Event) :
    (handle hex l e).jobIndex = l.linked hex e ∧
      (handle hex l e).courses = (l.turn hex e).elim l.courses (Turn.apply · l.courses) ∧
      (Refused (runHandler (dispatch hex e) l).1 ↔ ∃ t, l.turn hex e = some t ∧ t.Fails l.courses) := by
  have hsteady : ∀ {h : Handler Unit}, Steady h → (exec h l).2.jobIndex = l.jobIndex ∧
      (exec h l).2.courses = l.courses ∧
        (Refused (exec h l).1 ↔ ∃ t, (none : Option Turn) = some t ∧ t.Fails l.courses) :=
    fun hh => ⟨(hh l).1.1, (hh l).1.2, iff_of_false (hh l).2 (by simp)⟩
  have hmetrics : ∀ u agent, Steady (withAgent agent fun serial => updateAgentMetrics serial u) :=
    fun u => .withAgent (.changeProfile _)
  have hauction : ∀ update serial, Steady (updateAuctionData serial update) :=
    fun update => Steady.changeJob (f := (·.updateAuctionData update)) fun job => rfl
  cases e with
  | settlement e =>
    cases e with
    | jobSettled settlementId jobId totalDisbursed platformFee reportFees recipientCount =>
      refine exec_withJob_tries (fun serial => ?_) jobId l rfl
      have hpayments : ∀ update, Steady (updatePaymentData serial update) :=
        fun update => Steady.changeJob (f := (·.updatePaymentData update)) (fun job => rfl) serial
      refine Tries.after (hpayments _) (fun _ => Tries.unless serial .completed _) fun l e herror => ?_
      exact courses_of_error (f := (·.updatePaymentData _)) herror
    | _ => exact hsteady (.pure ())
  | auction e =>
    cases e with
    | jobPosted jobId contractAddress contractChain contractType budgetAvailable auctionDeadline _ _ =>
      exact exec_onJobPosted hex l jobId contractAddress budgetAvailable auctionDeadline rfl
    | winnersSelected jobId winners totalEscrowed platformFee =>
      refine exec_withJob_tries (fun serial => ?_) jobId l rfl
      exact Tries.bind (Tries.transition serial .auditingInProgress _) fun _ =>
        .bind (hauction _ serial) fun _ => .forM (hmetrics _) winners
    | jobCompleted jobId => exact exec_withJob_tries (fun serial => Tries.transition serial .completed _) jobId l rfl
    | jobCancelled jobId => exact exec_withJob_tries (fun serial => Tries.transition serial .cancelled _) jobId l rfl
    | bidSubmitted jobId agent bidAmount collateralLocked reputationAtBid specialization estimatedCompletionTime =>
      refine hsteady (.withJob (fun serial => ?_) jobId)
      have hparticipant : ∀ participant, Steady (addJobParticipant serial participant) :=
        fun participant => Steady.changeJob (f := (·.addJobParticipant participant)) (fun job => rfl) serial
      exact .bind (hparticipant _) fun _ => .bind (.countBid serial) fun _ => hmetrics _ agent
    | escrowReleased jobId agent payment bonus collateralReturned =>
      refine hsteady (.withJob (fun serial => ?_) jobId)
      have hpayments : ∀ update, Steady (updatePaymentData serial update) :=
        fun update => Steady.changeJob (f := (·.updatePaymentData update)) (fun job => rfl) serial
      exact .bind (hpayments _) fun _ => hmetrics _ agent
    | agentSlashed jobId agent slashedAmount slashBasisPoints =>
      refine hsteady (.withAgent (fun serial => ?_) agent)
      exact .bind (.changeProfile _ serial) fun _ => .changeProfile _ serial
    | _ => exact hsteady (.pure ())
  | staking e => exact hsteady (steady_onStakingManager e)

end AuditGuard.Inft
