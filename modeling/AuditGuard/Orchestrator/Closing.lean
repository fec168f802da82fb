import AuditGuard.Orchestrator.Rules

/-!
# The orchestrator: closing keeps to the rules

The requests that every method makes, and `closeExpiredAuction`. It is sent only for a job that may be closed, and
when a cancellation is refused because the job is terminal, then its auction is over.
-/

namespace AuditGuard.Orchestrator

open Evm TransitionSystem Routine
open AuditAuction (Later Keeps AuditJob AgentBid JobStatus)

/-- Where the orchestrator works: the auction contract, the settings, and what is asked for of cancellations and of
selections. -/
structure Setting where
  this : Address
  cfg : Config
  close : Prop
  select : Prop

namespace Setting

variable (S : Setting) {α : Type}

/-- The pool of tasks. -/
abbrev system : Routine.System Memory Note Start Request Chain Response := orchestrator S.this S.cfg

/-- What they rely on and guarantee. -/
abbrev rules : Routine.Rules Memory Note Start Request Chain Response :=
  Orchestrator.rules S.this S.cfg S.close S.select

/-- What a task may know. -/
abbrev Fact := Routine.Fact Request Chain Response

/-- The fact survives an await. -/
abbrev Steady (F : Fact) : Prop := Routine.Steady S.system S.rules F

/-- The task meets the rules from `P` on, and ends with `Q`, or throws with `E`. -/
abbrev Triple (P : Fact) (x : Async α) (Q : α → Fact) (E : String → Fact) : Prop :=
  Routine.Triple S.system S.rules P x Q E

/-- The task meets the rules under `P`. -/
abbrev Stays (P : Fact) (x : Async α) : Prop := Routine.Stays S.system S.rules P x

end Setting

variable {S : Setting} {α : Type} {P : Setting.Fact} {key v : ℕ}

/-! ## Steady facts -/

theorem steady_of {F : Setting.Fact} (hF : ∀ h w t h' w' t', F h w t → (∀ e ∈ h, e ∈ h') →
    (∀ jobId, Keeps w.state w'.state jobId) → t ≤ t' → F h' w' t') : S.Steady F := by
  intro h m w t e w' t' hinv hf ha
  have hw : S.system.later w w' := S.system.later_trans _ _ _ ha.sent
    (S.system.later_trans _ _ _ (S.system.serves_later _ _ _ _ _ ha.served) ha.arrived)
  refine hF h w t _ w' t' hf (fun e he => List.mem_append_left _ he) ?_ (ha.before.trans ha.after)
  exact (Later.keeps (show (AuditAuction.contract S.this).system.Reachable w from hinv.reachable) hw).2

theorem steady_chain {F : Chain → Prop}
    (hF : ∀ w w' : Chain, F w → (∀ jobId, Keeps w.state w'.state jobId) → F w') :
    S.Steady fun _ w _ => F w :=
  steady_of fun _ w _ _ w' _ hf _ hk _ => hF w w' hf hk

theorem steady_cancelled : S.Steady fun _ w _ => (w.state.jobs key).status = .cancelled :=
  steady_chain fun _ _ hf hk => ((hk key).settled (.inr hf)).trans hf

/-- An error that says that a job is terminal is true of it. -/
def Refused (key : ℕ) (error : String) : Setting.Fact := fun _ w _ =>
  isAuctionTerminalError error = true → (w.state.jobs key).status ≠ .auctionOpen

/-! ## Requests and messages -/

theorem stays_call {r : Request} (hP : S.Steady P) (hr : ∀ h w t, allows S.close S.select h w t r) :
    S.Stays P (call r) := Stays.call hP fun h _ w t _ _ => hr h w t

theorem call_refused {r : Request} (hP : S.Steady P) (hr : ∀ h w t, allows S.close S.select h w t r)
    (herror : ∀ w w' text, serves S.this w r (.error text) w' → isAuctionTerminalError text = false) :
    S.Triple P (call r) (fun _ => P) (fun e h w t => P h w t ∧ Refused key e h w t) := by
  refine Triple.call (fun h _ w t _ _ => hr h w t) ?_ ?_
  · exact fun h m w t a src dst time w' t' hinv hp ha => hP h m w t _ w' t' hinv hp ha
  · intro h m w t e src dst time w' t' hinv hp ha
    refine ⟨hP h m w t _ w' t' hinv hp ha, fun hterminal => ?_⟩
    have hfalse := herror src dst e ha.served
    rw [hfalse] at hterminal
    cases hterminal

theorem stays_ignore {x : Async Unit} (hx : S.Stays P x) : S.Stays P (ignore x) :=
  hx.tryCatch fun _ => .pure _

theorem stays_publish (hP : S.Steady P) (type : String) (reasonCode : String) :
    S.Stays P (publishAuditLog type key reasonCode) := stays_call hP fun _ _ _ => trivial

theorem stays_timing (hP : S.Steady P) (result : String) : S.Stays P (publishWinnerSelectionTiming key result) :=
  stays_ignore (stays_publish hP _ _)

theorem stays_deferred (hP : S.Steady P) (reasonCode : String) :
    S.Stays P (publishWinnerSelectionDeferred key reasonCode) := stays_ignore (stays_publish hP _ _)

theorem stays_ensureHbar (hP : S.Steady P) : S.Stays P ensureOrchestratorOperationalHbar :=
  stays_call hP fun _ _ _ => trivial

theorem stays_beforeRetry (hP : S.Steady P) (error : String) (left : ℕ) : S.Stays P (beforeRetry error left) := by
  have hsleep : S.Stays P (call (Request.sleep (350 * (3 - left)))) := stays_call hP fun _ _ _ => trivial
  unfold beforeRetry
  split_ifs
  · exact .bind (stays_ignore (stays_ensureHbar hP)) fun _ => hsleep
  · exact hsleep

theorem stays_modify {f : Memory → Memory} (hf : ∀ h m w t, Inv S.this m w → P h w t → Inv S.this (f m) w) :
    S.Stays P (modify f) := Triple.modify hf

theorem stays_writeJob {f : Job → Job} (hf : ∀ h w t job, P h w t → JobSound w key job → JobSound w key (f job)) :
    S.Stays P (writeJob key v f) :=
  stays_modify fun h _ w t hinv hp => (hinv.update fun job => hf h w t job hp).setJobByKey _ _

theorem stays_bracket {first last : Memory → Memory} {x : Async α} (hx : S.Stays P x)
    (hfirst : ∀ m w, Inv S.this m w → Inv S.this (first m) w)
    (hlast : ∀ m w, Inv S.this m w → Inv S.this (last m) w) : S.Stays P (bracket first last x) := by
  have hend : S.Stays P (modify last) := stays_modify fun _ m w _ hinv _ => hlast m w hinv
  refine .bind (stays_modify fun _ m w _ hinv _ => hfirst m w hinv) fun _ => ?_
  exact .bind (hx.tryCatch fun _ => .bind hend fun _ => .fail _) fun _ => .bind hend fun _ => .pure _

/-! ## `closeExpiredAuction` -/

theorem JobSound.markCancelled {w : Chain} {job : Job} (hjob : JobSound w key job)
    (hstatus : (w.state.jobs key).status = .cancelled) (reasonCode : String) :
    JobSound w key (job.markCancelled reasonCode) :=
  ⟨fun _ => .inl hstatus, fun _ => .inl (.inr hstatus), hjob.deadline⟩

theorem JobSound.markAlreadyTerminal {w : Chain} {job : Job} (hjob : JobSound w key job)
    (hover : (w.state.jobs key).status ≠ .auctionOpen) (reasonCode : String) :
    JobSound w key (job.markAlreadyTerminal reasonCode) :=
  ⟨fun _ => .inr ⟨rfl, hover⟩, fun _ => .inr ⟨.inl rfl, hover⟩, hjob.deadline⟩

theorem call_cancelJob (hP : S.Steady P) (hclose : ∀ h w t, P h w t → MayClose S.close key h w t) :
    S.Triple P (call (Request.cancelJob key))
      (fun _ h w t => P h w t ∧ (w.state.jobs key).status = .cancelled)
      (fun e h w t => P h w t ∧ Refused key e h w t) := by
  refine Triple.call (fun h m w t _ hp => hclose h w t hp) ?_ ?_
  · intro h m w t a src dst time w' t' hinv hp ha
    refine ⟨hP h m w t _ w' t' hinv hp ha, ?_⟩
    have hsrc := (hinv.later ha.sent).reachable
    obtain ⟨id, rfl, htx⟩ := ha.served
    cases htx with
    | mined hstep =>
      have hstatus : (dst.state.jobs id).status = .cancelled := by
        cases hstep with
        | call _ _ _ hexec =>
          have hstatus := AuditAuction.exec_cancelJob_status hexec
          exact hstatus
      have hk := (Later.keeps (hsrc.step hstep) ha.arrived).2 id
      exact (hk.settled (.inr hstatus)).trans hstatus
  · intro h m w t e src dst time w' t' hinv hp ha
    refine ⟨hP h m w t _ w' t' hinv hp ha, fun hterminal => ?_⟩
    obtain ⟨hsrc, hk⟩ := Later.keeps hinv.reachable ha.sent
    have hposted := (hk key).posted (hclose h w t hp).1
    obtain ⟨id, rfl, htx⟩ := ha.served
    cases htx with
    | refused hexec htext =>
      rw [htext] at hterminal
      have hover : (src.state.jobs id).status ≠ .auctionOpen :=
        (cancelJob_refused hexec hterminal).resolve_left hposted
      exact ((Later.keeps hsrc ha.arrived).2 id).ended hover
    | failed htext =>
      rw [htext] at hterminal
      cases hterminal

theorem triple_cancelAttempt (hP : S.Steady P) (hclose : ∀ h w t, P h w t → MayClose S.close key h w t)
    (reasonCode : String) : S.Triple P (cancelAttempt key v reasonCode) (fun _ => P)
      (fun e h w t => P h w t ∧ Refused key e h w t) := by
  unfold cancelAttempt
  refine Triple.bind (call_refused hP (fun _ _ _ => trivial) fun _ _ text hs => hs.2 text rfl) fun _ => ?_
  refine Triple.bind (call_cancelJob hP hclose) fun _ => ?_
  have hsteady : S.Steady fun h w t => P h w t ∧ (w.state.jobs key).status = .cancelled :=
    hP.and steady_cancelled
  have hwrite : S.Triple (fun h w t => P h w t ∧ (w.state.jobs key).status = .cancelled)
      (writeJob key v (Job.markCancelled reasonCode))
      (fun _ h w t => P h w t ∧ (w.state.jobs key).status = .cancelled)
      (fun e h w t => P h w t ∧ Refused key e h w t) :=
    Triple.modify fun h m w t hinv hp =>
      (hinv.update fun job hjob => hjob.markCancelled hp.2 reasonCode).setJobByKey _ _
  refine Triple.bind hwrite fun _ => ?_
  refine Triple.bind (Triple.pre (call_refused hP (fun _ _ _ => trivial) fun _ _ text hs => hs.2 text rfl)
    fun _ _ _ hp => hp.1) fun _ => ?_
  exact Triple.pure fun _ _ _ hp => hp

theorem stays_cancelAttempts (hP : S.Steady P) (hclose : ∀ h w t, P h w t → MayClose S.close key h w t)
    (reasonCode : String) (left : ℕ) : S.Stays P (cancelAttempts key v reasonCode left) := by
  have hfailed : S.Stays P (cancelFailed key) := .bind (stays_publish hP _ _) fun _ => .pure _
  induction left with
  | zero => exact hfailed
  | succ left ih =>
    refine Triple.tryCatch (triple_cancelAttempt hP hclose reasonCode) fun e => Triple.ite ?_ ?_
    · intro hterminal
      refine Triple.bind (Triple.modify fun h m w t hinv hp => ?_) fun _ => Triple.pure fun _ _ _ hp => hp.1
      exact (hinv.update fun job hjob => hjob.markAlreadyTerminal (hp.2 hterminal) reasonCode).setJobByKey _ _
    · intro _
      refine Triple.pre (Triple.ite (fun _ => ?_) fun _ => hfailed) fun _ _ _ hp => hp.1
      exact .bind (stays_beforeRetry hP _ _) fun _ => ih

theorem stays_jobToClose : S.Stays P (jobToClose key) := by
  refine .bind .memory fun m => ?_
  split
  · exact .pure _
  · refine .bind (stays_modify fun _ _ _ _ hinv _ => ?_) fun _ => .pure _
    exact (hinv.create (JobSound.blank _ _ _ _)).setJobByKey _ _

theorem stays_closeExpiredAuction (hP : S.Steady P) (hclose : ∀ h w t, P h w t → MayClose S.close key h w t)
    (reasonCode : String) : S.Stays P (closeExpiredAuction S.cfg key reasonCode) := by
  refine .bind stays_jobToClose fun v => .bind .memory fun m => ?_
  have hattempts := stays_cancelAttempts (v := v) hP hclose reasonCode 3
  refine Triple.ite (fun _ => Stays.pure _) fun _ => Triple.ite (fun _ => hattempts) fun _ => ?_
  refine Triple.ite (fun _ => ?_) fun _ => ?_
  · refine .bind (stays_ignore (stays_publish hP _ _)) fun _ => ?_
    exact stays_call hP fun _ _ _ => trivial
  · exact stays_bracket hattempts (fun _ _ hinv => hinv.congr rfl rfl) fun _ _ hinv => hinv.congr rfl rfl

end AuditGuard.Orchestrator
