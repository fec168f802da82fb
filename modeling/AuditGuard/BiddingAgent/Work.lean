import AuditGuard.BiddingAgent.Model

/-!
# Work on what is won

An agent that is named as a winner is to work on the job, once, and to publish a `BID_SUBMITTED` exactly for the bids
that it has. It starts to work from the record in `pendingJobs`, which only the path makes on which `submitBid`
returns: where the agent finds that an attempt that failed has landed after all, it only notes that it has bid. In
every run in which a bid lands only while the agent tries, or when it has the record, and no handler gives up on a bid
that is there, all of it holds.
-/

namespace AuditGuard.BiddingAgent

open TransitionSystem

variable {contractOf : ℕ → String} {s s' : State} {e : Event} {i jobId : ℕ} {h : Handler} {p : Phase → Bool}
  {phase : Phase} {answer : Answer} {landed : Bool} {next : Next} {ts : List (Transition State Event)}

/-! ## What is to hold -/

/-- A handler of the job is at a phase of a kind. -/
def State.Has (s : State) (jobId : ℕ) (p : Phase → Bool) : Prop :=
  ∃ (i : ℕ) (h : Handler), s.handlers[i]? = some h ∧ h.invite.jobId = jobId ∧ p h.phase = true

/-- Another handler of the job is at a phase of a kind. -/
def State.HasOther (s : State) (i jobId : ℕ) (p : Phase → Bool) : Prop :=
  ∃ (j : ℕ) (h : Handler), j ≠ i ∧ s.handlers[j]? = some h ∧ h.invite.jobId = jobId ∧ p h.phase = true

/-- The handler has not ended. -/
def Phase.running (phase : Phase) : Bool := decide (phase ≠ .ended)

/-- The handler tries to bid. -/
def Phase.tries : Phase → Bool
  | .submitting _ | .rechecking _ | .retrying _ => true
  | _ => false

/-- The handler publishes that it has bid. -/
def Phase.publishes (phase : Phase) : Bool := decide (phase = .publishing)

/-- The agent has been told that it is among the winners of the job. -/
def State.Won (s : State) (jobId : ℕ) : Prop :=
  s.delivered jobId = true ∧ s.outcome jobId = some (.selected true)

/-- The agent works on what it has won, once, and on nothing else, and publishes what it has bid. -/
structure State.Kept (contractOf : ℕ → String) (s : State) : Prop where
  worked : ∀ jobId, s.Won jobId → (s.started jobId).map Invite.contractAddress = [contractOf jobId]
  idle : ∀ jobId, ¬s.Won jobId → s.started jobId = []
  told : ∀ jobId ∈ s.published, s.bids jobId = true
  tells : ∀ jobId, s.bids jobId = true →
    jobId ∈ s.published ∨ jobId ∈ s.unpublished ∨ s.Has jobId Phase.running

/-- The message that the agent has bid is published, or is being published, or its publishing has failed. -/
def State.Told (s : State) (jobId : ℕ) : Prop :=
  jobId ∈ s.published ∨ jobId ∈ s.unpublished ∨ s.Has jobId Phase.publishes

/-- A handler can stop to try to bid: there is no bid, or the agent knows of it, or another handler still tries. -/
def State.CanStop (s : State) (i jobId : ℕ) : Prop :=
  s.bids jobId = true →
    ((s.delivered jobId = true ∨ s.pendingJobs jobId ≠ none) ∧ s.Told jobId) ∨ s.HasOther i jobId Phase.tries

/-- No bid gets lost when a wait ends. -/
def CarefulAnswer (contractOf : ℕ → String) (s : State) (i : ℕ) (invite : Invite) (landed : Bool) :
    Phase → Answer → Prop
  -- the invitation has the contract of the job
  | .submitting _, .yes => invite.contractAddress = contractOf invite.jobId
  -- the handler stops to try
  | .submitting _, .throws .duplicate | .rechecking _, .yes | .retrying _, .no | .retrying _, .throws _ =>
    s.CanStop i invite.jobId
  -- the bid of the message is there
  | .publishing, .yes => s.bids invite.jobId = true
  | .publishing, .throws _ => landed = true → s.bids invite.jobId = true
  -- the record of the job is deleted
  | .skipping, .throws _ | .failing, .throws _ =>
    s.bids invite.jobId = true → s.delivered invite.jobId = true ∨ s.Has invite.jobId Phase.tries
  | _, _ => True

/-- No bid gets lost by the step. -/
def Careful (contractOf : ℕ → String) (s : State) : Event → Prop
  | .resumes i answer landed => ∀ h, s.handlers[i]? = some h →
      CarefulAnswer contractOf s i h.invite landed h.phase answer
  -- the agent tries to bid, or has the record of the job
  | .lands jobId => s.pendingJobs jobId ≠ none ∨ s.Has jobId Phase.tries
  -- the agent does not try to bid any longer, and has no new record of a job that it was named for before
  | .delivers jobId => s.outcome jobId = some (.selected true) →
      ¬s.Has jobId Phase.tries ∧ (s.delivered jobId = true → s.pendingJobs jobId = none)
  | _ => True

/-! ## Handlers -/

theorem getElem?_move (hi : s.handlers[i]? = some h) (j : ℕ) : (s.move i h phase).handlers[j]? =
    if j = i then some { h with phase := phase } else s.handlers[j]? := by
  obtain ⟨hlt, -⟩ := List.getElem?_eq_some_iff.mp hi
  unfold State.move
  dsimp only
  rw [List.getElem?_set]
  by_cases hij : i = j
  · subst hij
    rw [if_pos rfl, if_pos hlt, if_pos rfl]
  · rw [if_neg hij, if_neg (Ne.symm hij)]

theorem State.HasOther.move (hother : s.HasOther i jobId p) (hi : s.handlers[i]? = some h) :
    (s.move i h phase).Has jobId p := by
  obtain ⟨j, h', hne, hj, hjob, hp⟩ := hother
  exact ⟨j, h', by rw [getElem?_move hi, if_neg hne, hj], hjob, hp⟩

theorem has_move (hi : s.handlers[i]? = some h) (hp : p phase = true) : (s.move i h phase).Has h.invite.jobId p :=
  ⟨i, { h with phase := phase }, by rw [getElem?_move hi, if_pos rfl], rfl, hp⟩

theorem State.Has.other (hhas : s.Has jobId p) (hi : s.handlers[i]? = some h) :
    s.HasOther i jobId p ∨ h.invite.jobId = jobId ∧ p h.phase = true := by
  obtain ⟨j, h', hj, hjob, hp⟩ := hhas
  by_cases hij : j = i
  · subst hij
    obtain rfl := Option.some.inj (hj.symm.trans hi)
    exact .inr ⟨hjob, hp⟩
  · exact .inl ⟨j, h', hij, hj, hjob, hp⟩

theorem State.Has.move (hhas : s.Has jobId p) (hi : s.handlers[i]? = some h)
    (hkeep : p h.phase = true → p phase = true) : (s.move i h phase).Has jobId p := by
  rcases hhas.other hi with hother | ⟨rfl, hp⟩
  · exact hother.move hi
  · exact has_move hi (hkeep hp)

/-! ## The invariant -/

/-- What holds at any time in a run in which no bid gets lost. -/
structure State.Sound (contractOf : ℕ → String) (s : State) : Prop where
  pending : ∀ jobId invite, s.pendingJobs jobId = some invite → invite.contractAddress = contractOf jobId
  recorded : ∀ jobId, s.bids jobId = true →
    s.delivered jobId = true ∨ s.pendingJobs jobId ≠ none ∨ s.Has jobId Phase.tries
  worked : ∀ jobId, s.Won jobId → (s.started jobId).map Invite.contractAddress = [contractOf jobId]
  idle : ∀ jobId, ¬s.Won jobId → s.started jobId = []
  told : ∀ jobId ∈ s.published, s.bids jobId = true
  pendingTold : ∀ jobId, s.pendingJobs jobId ≠ none → s.Told jobId
  bidTold : ∀ jobId, s.bids jobId = true → s.Told jobId ∨ s.Has jobId Phase.tries
  closed : ∀ jobId, s.delivered jobId = true → s.outcome jobId ≠ none
  named : ∀ jobId, s.outcome jobId = some (.selected true) → s.bids jobId = true

theorem State.Has.running (hhas : s.Has jobId p) (hp : p .ended = false) : s.Has jobId Phase.running := by
  obtain ⟨i, h, hi, hjob, hphase⟩ := hhas
  refine ⟨i, h, hi, hjob, decide_eq_true fun hended => ?_⟩
  rw [hended, hp] at hphase
  cases hphase

theorem State.Sound.kept (hs : s.Sound contractOf) : s.Kept contractOf where
  worked := hs.worked
  idle := hs.idle
  told := hs.told
  tells jobId hbids := by
    rcases hs.bidTold jobId hbids with (hpublished | hunpublished | hpublishes) | htries
    · exact .inl hpublished
    · exact .inr (.inl hunpublished)
    · exact .inr (.inr (hpublishes.running rfl))
    · exact .inr (.inr (htries.running rfl))

theorem sound_initial : State.initial.Sound contractOf := by
  refine ⟨?_, ?_, ?_, ?_, ?_, ?_, ?_, ?_, ?_⟩ <;> simp [State.initial, State.Won]

/-- What the auction and the work are is the same in both states. -/
structure SameWork (s s' : State) : Prop where
  bids : s'.bids = s.bids
  outcome : s'.outcome = s.outcome
  delivered : s'.delivered = s.delivered
  started : s'.started = s.started

theorem SameWork.won (hsame : SameWork s s') : s'.Won jobId ↔ s.Won jobId := by
  unfold State.Won
  rw [hsame.delivered, hsame.outcome]

/-- The record of a job stays, or is one of its contract and told of, or is deleted where it is not needed. -/
inductive Record (contractOf : ℕ → String) (s s' : State) (jobId : ℕ) : Prop
  | stays (hsame : s'.pendingJobs jobId = s.pendingJobs jobId)
  | noted {invite : Invite} (hinvite : s'.pendingJobs jobId = some invite)
      (hcontract : invite.contractAddress = contractOf jobId) (htold : s'.Told jobId)
  | deleted (hnone : s'.pendingJobs jobId = none)
      (hrecorded : s.bids jobId = true → s.delivered jobId = true ∨ s'.Has jobId Phase.tries)

/-- A step of a handler keeps the invariant. -/
theorem State.Sound.change (hs : s.Sound contractOf) (hsame : SameWork s s')
    (hpublished : ∀ jobId ∈ s'.published, jobId ∈ s.published ∨ s.bids jobId = true)
    (htold : ∀ jobId, s.Told jobId → s'.Told jobId) (hrecord : ∀ jobId, Record contractOf s s' jobId)
    (htries : ∀ jobId, s.bids jobId = true → s.Has jobId Phase.tries → s'.Has jobId Phase.tries ∨
      (s.delivered jobId = true ∨ s'.pendingJobs jobId ≠ none) ∧ s'.Told jobId) : s'.Sound contractOf where
  pending jobId invite hinvite := by
    cases hrecord jobId with
    | stays hstays => exact hs.pending jobId invite (hstays ▸ hinvite)
    | noted hnoted hcontract =>
      obtain rfl := Option.some.inj (hnoted.symm.trans hinvite)
      exact hcontract
    | deleted hnone =>
      rw [hnone] at hinvite
      cases hinvite
  recorded jobId hbids := by
    rw [hsame.bids] at hbids
    rw [hsame.delivered]
    rcases hs.recorded jobId hbids with hdelivered | hpending | hhas
    · exact .inl hdelivered
    · cases hrecord jobId with
      | stays hstays => exact .inr (.inl (hstays ▸ hpending))
      | noted hnoted => exact .inr (.inl (by rw [hnoted]; exact Option.some_ne_none _))
      | deleted _ hrecorded => exact (hrecorded hbids).imp_right .inr
    · rcases htries jobId hbids hhas with hhas | ⟨hdelivered | hpending, -⟩
      · exact .inr (.inr hhas)
      · exact .inl hdelivered
      · exact .inr (.inl hpending)
  worked jobId := by
    rw [hsame.started, hsame.won]
    exact hs.worked jobId
  idle jobId := by
    rw [hsame.started, hsame.won]
    exact hs.idle jobId
  told jobId hjob := by
    rw [hsame.bids]
    exact (hpublished jobId hjob).elim (hs.told jobId) id
  pendingTold jobId hpending := by
    cases hrecord jobId with
    | stays hstays => exact htold jobId (hs.pendingTold jobId (hstays ▸ hpending))
    | noted _ _ htold => exact htold
    | deleted hnone => exact absurd hnone hpending
  bidTold jobId hbids := by
    rw [hsame.bids] at hbids
    rcases hs.bidTold jobId hbids with htold' | hhas
    · exact .inl (htold jobId htold')
    · exact (htries jobId hbids hhas).elim .inr fun hknown => .inl hknown.2
  closed jobId := by
    rw [hsame.delivered, hsame.outcome]
    exact hs.closed jobId
  named jobId := by
    rw [hsame.outcome, hsame.bids]
    exact hs.named jobId

/-! ## Steps of a handler -/

theorem has_resumes : (s.resumes i h answer landed next).Has jobId p ↔ (s.move i h next.phase).Has jobId p := by
  cases next <;> rfl

theorem sameWork_resumes : SameWork s (s.resumes i h answer landed next) := by
  cases next <;> exact ⟨rfl, rfl, rfl, rfl⟩

theorem told_resumes (hi : s.handlers[i]? = some h) (htold : s.Told jobId) :
    (s.resumes i h answer landed next).Told jobId := by
  unfold State.Told State.resumes
  dsimp only
  rcases htold with hpublished | hunpublished | hpublishes
  · refine .inl ?_
    split_ifs
    · exact List.mem_cons_of_mem _ hpublished
    · exact hpublished
  · refine .inr (.inl ?_)
    split_ifs
    · exact List.mem_cons_of_mem _ hunpublished
    · exact hunpublished
  · rcases hpublishes.other hi with hother | ⟨rfl, hphase⟩
    · exact .inr (.inr (has_resumes.mpr (hother.move hi)))
    · have hpublishing : h.phase = .publishing := of_decide_eq_true hphase
      by_cases hanswer : answer = .yes
      · rw [if_pos ⟨hpublishing, .inl hanswer⟩]
        exact .inl List.mem_cons_self
      · rw [if_pos (show h.phase = .publishing ∧ answer ≠ .yes from ⟨hpublishing, hanswer⟩)]
        exact .inr (.inl List.mem_cons_self)

theorem published_resumes (hnext : resume h.phase answer = some next)
    (hcareful : CarefulAnswer contractOf s i h.invite landed h.phase answer) :
    ∀ jobId ∈ (s.resumes i h answer landed next).published, jobId ∈ s.published ∨ s.bids jobId = true := by
  intro jobId hjob
  unfold State.resumes at hjob
  dsimp only at hjob
  split_ifs at hjob with hpublishes
  · obtain ⟨hphase, hanswer⟩ := hpublishes
    rw [hphase] at hcareful hnext
    rcases List.mem_cons.mp hjob with rfl | hjob
    · refine .inr ?_
      cases answer with
      | yes => exact hcareful
      | no => cases hnext
      | throws error => exact hcareful (by simpa using hanswer)
    · exact .inl hjob
  · exact .inl hjob

theorem resume_records (hnext : resume phase answer = some .records) :
    ∃ attempt, phase = .submitting attempt ∧ answer = .yes := by
  cases phase with
  | submitting attempt =>
    cases answer with
    | yes => exact ⟨attempt, rfl, rfl⟩
    | no => cases hnext
    | throws error => cases error <;> cases hnext
  | retrying attempt =>
    cases answer with
    | yes =>
      unfold resume at hnext
      dsimp only at hnext
      split_ifs at hnext
      cases hnext
    | _ => cases hnext
  | _ => cases answer <;> cases hnext

theorem resume_crashes (hnext : resume phase answer = some .crashes) :
    (phase = .skipping ∨ phase = .failing) ∧ ∃ error, answer = .throws error := by
  cases phase with
  | skipping =>
    cases answer with
    | throws error => exact ⟨.inl rfl, error, rfl⟩
    | _ => cases hnext
  | failing =>
    cases answer with
    | throws error => exact ⟨.inr rfl, error, rfl⟩
    | _ => cases hnext
  | submitting attempt =>
    cases answer with
    | throws error => cases error <;> cases hnext
    | _ => cases hnext
  | retrying attempt =>
    cases answer with
    | yes =>
      unfold resume at hnext
      dsimp only at hnext
      split_ifs at hnext
      cases hnext
    | _ => cases hnext
  | _ => cases answer <;> cases hnext

/-- A handler that tries to bid goes on to try, or notes the bid, or stops. -/
theorem resume_tries {invite : Invite} (hnext : resume phase answer = some next) (htries : phase.tries = true)
    (hcareful : CarefulAnswer contractOf s i invite landed phase answer) :
    next.phase.tries = true ∨ next = .records ∨ s.CanStop i invite.jobId := by
  cases phase with
  | submitting attempt =>
    cases answer with
    | yes => exact .inr (.inl (Option.some.inj hnext).symm)
    | no => cases hnext
    | throws error =>
      cases error with
      | duplicate => exact .inr (.inr hcareful)
      | ambiguous =>
        obtain rfl := Option.some.inj hnext
        exact .inl rfl
      | other =>
        obtain rfl := Option.some.inj hnext
        exact .inl rfl
  | rechecking attempt =>
    cases answer with
    | yes => exact .inr (.inr hcareful)
    | no =>
      obtain rfl := Option.some.inj hnext
      exact .inl rfl
    | throws error =>
      obtain rfl := Option.some.inj hnext
      exact .inl rfl
  | retrying attempt =>
    cases answer with
    | yes =>
      unfold resume at hnext
      dsimp only at hnext
      split_ifs at hnext
      obtain rfl := Option.some.inj hnext
      exact .inl rfl
    | no => exact .inr (.inr hcareful)
    | throws error => exact .inr (.inr hcareful)
  | _ => cases htries

theorem pendingJobs_resumes (hrecords : next ≠ .records) (hcrashes : next ≠ .crashes) :
    (s.resumes i h answer landed next).pendingJobs = s.pendingJobs := by
  cases next with
  | records => exact absurd rfl hrecords
  | crashes => exact absurd rfl hcrashes
  | _ => rfl

theorem record_resumes (hi : s.handlers[i]? = some h) (hnext : resume h.phase answer = some next)
    (hcareful : CarefulAnswer contractOf s i h.invite landed h.phase answer) :
    Record contractOf s (s.resumes i h answer landed next) jobId := by
  by_cases hrecords : next = .records
  · subst hrecords
    obtain ⟨attempt, hphase, rfl⟩ := resume_records hnext
    rw [hphase] at hcareful
    by_cases hjob : jobId = h.invite.jobId
    · subst hjob
      exact .noted (Function.update_self ..) hcareful (.inr (.inr (has_resumes.mpr (has_move hi rfl))))
    · exact .stays (Function.update_of_ne hjob ..)
  by_cases hcrashes : next = .crashes
  · subst hcrashes
    obtain ⟨hphase, error, rfl⟩ := resume_crashes hnext
    have hbids : s.bids h.invite.jobId = true →
        s.delivered h.invite.jobId = true ∨ s.Has h.invite.jobId Phase.tries := by
      rcases hphase with hphase | hphase <;> rw [hphase] at hcareful <;> exact hcareful
    by_cases hjob : jobId = h.invite.jobId
    · subst hjob
      refine .deleted (Function.update_self ..) fun hbid => (hbids hbid).imp_right fun hhas => ?_
      refine has_resumes.mpr (hhas.move hi fun htries => ?_)
      rcases hphase with hphase | hphase <;> rw [hphase] at htries <;> cases htries
    · exact .stays (Function.update_of_ne hjob ..)
  exact .stays (congrFun (pendingJobs_resumes hrecords hcrashes) jobId)

theorem State.Sound.resumes (hs : s.Sound contractOf) (hi : s.handlers[i]? = some h)
    (hnext : resume h.phase answer = some next)
    (hcareful : CarefulAnswer contractOf s i h.invite landed h.phase answer) :
    (s.resumes i h answer landed next).Sound contractOf := by
  refine hs.change sameWork_resumes (published_resumes hnext hcareful) (fun _ => told_resumes hi)
    (fun _ => record_resumes hi hnext hcareful) fun jobId hbids hhas => ?_
  rcases hhas.other hi with hother | ⟨rfl, htries⟩
  · exact .inl (has_resumes.mpr (hother.move hi))
  · rcases resume_tries hnext htries hcareful with hkeep | rfl | hstop
    · exact .inl (has_resumes.mpr (has_move hi hkeep))
    · refine .inr ⟨.inr ?_, .inr (.inr (has_resumes.mpr (has_move hi rfl)))⟩
      change Function.update s.pendingJobs h.invite.jobId (some h.invite) h.invite.jobId ≠ none
      rw [Function.update_self]
      exact Option.some_ne_none _
    · rcases hstop hbids with ⟨hdelivered | hpending, htold⟩ | hother
      · exact .inr ⟨.inl hdelivered, told_resumes hi htold⟩
      · cases record_resumes hi hnext hcareful with
        | stays hstays => exact .inr ⟨.inr (hstays ▸ hpending), told_resumes hi htold⟩
        | noted hnoted =>
          exact .inr ⟨.inr (by rw [hnoted]; exact Option.some_ne_none _), told_resumes hi htold⟩
        | deleted _ hrecorded =>
          exact (hrecorded hbids).elim (fun hdelivered => .inr ⟨.inl hdelivered, told_resumes hi htold⟩) .inl
      · exact .inl (has_resumes.mpr (hother.move hi))

/-! ## The other steps -/

theorem State.Sound.invites (hs : s.Sound contractOf) (invite : Invite) (bids : Bool) :
    (s.invites invite bids).Sound contractOf := by
  have happend : ∀ {s' : State} {h : Handler}, s'.handlers = s.handlers ++ [h] →
      ∀ {jobId p}, s.Has jobId p → s'.Has jobId p := by
    rintro s' h hhandlers jobId p ⟨i, h', hi, hjob, hp⟩
    refine ⟨i, h', ?_, hjob, hp⟩
    rw [hhandlers]
    exact List.getElem?_append_left (List.getElem?_eq_some_iff.mp hi).1 ▸ hi
  have hsound : ∀ {s' : State} {h : Handler}, s'.handlers = s.handlers ++ [h] → SameWork s s' →
      s'.pendingJobs = s.pendingJobs → s'.published = s.published → s'.unpublished = s.unpublished →
        s'.Sound contractOf := by
    intro s' h hhandlers hsame hpending hpublished hunpublished
    refine hs.change hsame (fun jobId hjob => .inl (hpublished ▸ hjob)) (fun jobId htold => ?_)
      (fun jobId => .stays (congrFun hpending jobId)) fun jobId _ hhas => .inl (happend hhandlers hhas)
    unfold State.Told
    rw [hpublished, hunpublished]
    exact htold.imp_right (Or.imp_right (happend hhandlers))
  unfold State.invites
  split_ifs
  · exact hs
  · exact hsound rfl ⟨rfl, rfl, rfl, rfl⟩ rfl rfl rfl
  · exact hsound rfl ⟨rfl, rfl, rfl, rfl⟩ rfl rfl rfl

theorem State.Sound.lands (hs : s.Sound contractOf) (hopen : s.outcome jobId = none)
    (hcareful : s.pendingJobs jobId ≠ none ∨ s.Has jobId Phase.tries) :
    State.Sound contractOf { s with
      sent := Function.update s.sent jobId (s.sent jobId - 1)
      bids := Function.update s.bids jobId true } := by
  have hbids : ∀ {jobId'}, Function.update s.bids jobId true jobId' = true →
      jobId' = jobId ∨ s.bids jobId' = true := by
    intro jobId' hbid
    by_cases hjob : jobId' = jobId
    · exact .inl hjob
    · rw [Function.update_of_ne hjob] at hbid
      exact .inr hbid
  have hstays : ∀ {jobId'}, s.bids jobId' = true → Function.update s.bids jobId true jobId' = true := by
    intro jobId' hbid
    by_cases hjob : jobId' = jobId
    · rw [hjob, Function.update_self]
    · rw [Function.update_of_ne hjob]
      exact hbid
  refine ⟨hs.pending, fun jobId' hbid => ?_, hs.worked, hs.idle, fun jobId' hjob => hstays (hs.told jobId' hjob),
    hs.pendingTold, fun jobId' hbid => ?_, hs.closed, fun jobId' hnamed => hstays (hs.named jobId' hnamed)⟩
  · rcases hbids hbid with rfl | hbid
    · exact .inr hcareful
    · exact hs.recorded jobId' hbid
  · rcases hbids hbid with rfl | hbid
    · exact hcareful.imp_left (hs.pendingTold jobId')
    · exact hs.bidTold jobId' hbid

theorem State.Sound.closes {outcome : Outcome} (hs : s.Sound contractOf) (hopen : s.outcome jobId = none)
    (hbids : outcome = .selected true → s.bids jobId = true) :
    State.Sound contractOf { s with outcome := Function.update s.outcome jobId (some outcome) } := by
  have hnot : s.delivered jobId ≠ true := fun hdelivered => hs.closed jobId hdelivered hopen
  -- What becomes of the auction of the job is not known to the agent, and the others stay.
  have hwon : ∀ {jobId'}, State.Won { s with outcome := Function.update s.outcome jobId (some outcome) } jobId' ↔
      s.Won jobId' := by
    intro jobId'
    by_cases hjob : jobId' = jobId
    · rw [hjob]
      exact iff_of_false (fun h => hnot h.1) fun h => hnot h.1
    · unfold State.Won
      dsimp only
      rw [Function.update_of_ne hjob]
  refine ⟨hs.pending, hs.recorded, fun jobId' h => hs.worked jobId' (hwon.mp h),
    fun jobId' h => hs.idle jobId' (mt hwon.mpr h), hs.told, hs.pendingTold, hs.bidTold, fun jobId' hdelivered => ?_,
    fun jobId' hnamed => ?_⟩
  · dsimp only at hdelivered ⊢
    by_cases hjob : jobId' = jobId
    · rw [hjob, Function.update_self]
      exact Option.some_ne_none _
    · rw [Function.update_of_ne hjob]
      exact hs.closed jobId' hdelivered
  · dsimp only at hnamed ⊢
    by_cases hjob : jobId' = jobId
    · subst hjob
      rw [Function.update_self] at hnamed
      exact hbids (Option.some.inj hnamed)
    · rw [Function.update_of_ne hjob] at hnamed
      exact hs.named jobId' hnamed

theorem delivers_of_ne {outcome : Outcome} {jobId' : ℕ} (hne : jobId' ≠ jobId) :
    (s.delivers jobId outcome).pendingJobs jobId' = s.pendingJobs jobId' ∧
      (s.delivers jobId outcome).delivered jobId' = s.delivered jobId' ∧
        (s.delivers jobId outcome).started jobId' = s.started jobId' := by
  unfold State.delivers
  refine ⟨Function.update_of_ne hne .., Function.update_of_ne hne .., ?_⟩
  dsimp only
  split_ifs
  · exact Function.update_of_ne hne ..
  · rfl

theorem delivers_self (s : State) (jobId : ℕ) (outcome : Outcome) :
    (s.delivers jobId outcome).pendingJobs jobId = none ∧ (s.delivers jobId outcome).delivered jobId = true ∧
      (s.delivers jobId outcome).started jobId = s.started jobId ++
        if outcome = .selected true then (s.pendingJobs jobId).toList else [] := by
  unfold State.delivers
  refine ⟨Function.update_self .., Function.update_self .., ?_⟩
  dsimp only
  split_ifs
  · exact Function.update_self ..
  · exact (List.append_nil _).symm

theorem State.Sound.started (hs : s.Sound contractOf) (houtcome : s.outcome jobId = some (.selected true))
    (hcareful : ¬s.Has jobId Phase.tries ∧ (s.delivered jobId = true → s.pendingJobs jobId = none)) :
    (s.started jobId ++ (s.pendingJobs jobId).toList).map Invite.contractAddress = [contractOf jobId] := by
  by_cases hdelivered : s.delivered jobId = true
  · rw [hcareful.2 hdelivered, Option.toList_none, List.append_nil]
    exact hs.worked jobId ⟨hdelivered, houtcome⟩
  · have hpending : s.pendingJobs jobId ≠ none := by
      rcases hs.recorded jobId (hs.named jobId houtcome) with h | h | h
      · exact absurd h hdelivered
      · exact h
      · exact absurd h hcareful.1
    obtain ⟨invite, hinvite⟩ := Option.ne_none_iff_exists'.mp hpending
    rw [hs.idle jobId fun hwon => hdelivered hwon.1, hinvite, List.nil_append, Option.toList_some, List.map_singleton,
      hs.pending jobId invite hinvite]

/-- The agent is told that an auction has ended, and works on the job if it is named. -/
theorem State.Sound.delivers {outcome : Outcome} (hs : s.Sound contractOf)
    (houtcome : s.outcome jobId = some outcome) (hcareful : Careful contractOf s (.delivers jobId)) :
    (s.delivers jobId outcome).Sound contractOf := by
  obtain ⟨hpending, hdelivered, hstarted⟩ := delivers_self s jobId outcome
  have hwon : (s.delivers jobId outcome).Won jobId ↔ outcome = .selected true := by
    refine ⟨fun hwon => ?_, fun hnamed => ⟨hdelivered, hnamed ▸ houtcome⟩⟩
    exact Option.some.inj (houtcome.symm.trans hwon.2)
  have hother : ∀ {jobId'}, jobId' ≠ jobId → ((s.delivers jobId outcome).Won jobId' ↔ s.Won jobId') := by
    intro jobId' hne
    unfold State.Won
    rw [(delivers_of_ne hne).2.1]
    rfl
  refine ⟨fun jobId' invite hinvite => ?_, fun jobId' hbid => ?_, fun jobId' hwon' => ?_, fun jobId' hnot => ?_,
    hs.told, fun jobId' hsome => ?_, hs.bidTold, fun jobId' hdelivered' => ?_, hs.named⟩
  · by_cases hjob : jobId' = jobId
    · rw [hjob, hpending] at hinvite
      cases hinvite
    · rw [(delivers_of_ne hjob).1] at hinvite
      exact hs.pending jobId' invite hinvite
  · by_cases hjob : jobId' = jobId
    · rw [hjob]
      exact .inl hdelivered
    · rw [(delivers_of_ne hjob).1, (delivers_of_ne hjob).2.1]
      exact hs.recorded jobId' hbid
  · by_cases hjob : jobId' = jobId
    · subst hjob
      obtain rfl := hwon.mp hwon'
      rw [hstarted, if_pos rfl]
      exact hs.started houtcome (hcareful houtcome)
    · rw [(delivers_of_ne hjob).2.2]
      exact hs.worked jobId' ((hother hjob).mp hwon')
  · by_cases hjob : jobId' = jobId
    · subst hjob
      rw [hstarted, if_neg (mt hwon.mpr hnot), List.append_nil]
      refine hs.idle jobId' fun hwon' => mt hwon.mpr hnot ?_
      exact Option.some.inj (houtcome.symm.trans hwon'.2)
    · rw [(delivers_of_ne hjob).2.2]
      exact hs.idle jobId' (mt (hother hjob).mpr hnot)
  · by_cases hjob : jobId' = jobId
    · rw [hjob] at hsome
      exact absurd hpending hsome
    · rw [(delivers_of_ne hjob).1] at hsome
      exact hs.pendingTold jobId' hsome
  · by_cases hjob : jobId' = jobId
    · rw [hjob]
      exact fun hnone => Option.some_ne_none _ (houtcome.symm.trans hnone)
    · rw [(delivers_of_ne hjob).2.1] at hdelivered'
      exact hs.closed jobId' hdelivered'

theorem Step.sound (hstep : Step s e s') (hs : s.Sound contractOf) (hcareful : Careful contractOf s e) :
    s'.Sound contractOf := by
  cases hstep with
  | invites => exact hs.invites _ _
  | resumes hi hnext => exact hs.resumes hi hnext (hcareful _ hi)
  | lands hsent hopen hnew => exact hs.lands hopen hcareful
  | closes hopen hbids => exact hs.closes hopen hbids
  | delivers houtcome => exact hs.delivers houtcome hcareful

/-! ## Every run -/

/-- In every run in which no bid gets lost, the agent works on what it has won, and publishes what it has bid. -/
theorem works_of_careful (hr : system.Run ts s) (hcareful : ∀ tr ∈ ts, Careful contractOf tr.src tr.label) :
    Throughout (State.Kept contractOf) ts s := by
  refine Run.throughout (I := State.Sound contractOf) ?_
    (fun _ _ _ hs hcareful hstep => Step.sound hstep hs hcareful) (fun _ => State.Sound.kept) hr hcareful
  rintro _ rfl
  exact sound_initial

/-! ## Two runs -/

/-- Makes an event happen, if it can. -/
def State.play (s : State) : Event → Option State
  | .invites invite bids => some (s.invites invite bids)
  | .resumes i answer landed =>
    match s.handlers[i]? with
    | some h => (resume h.phase answer).map (s.resumes i h answer landed)
    | none => none
  | .lands jobId =>
    if 0 < s.sent jobId ∧ s.outcome jobId = none ∧ s.bids jobId = false then some { s with
      sent := Function.update s.sent jobId (s.sent jobId - 1)
      bids := Function.update s.bids jobId true } else none
  | .closes jobId outcome =>
    if s.outcome jobId = none ∧ (outcome = .selected true → s.bids jobId = true) then
      some { s with outcome := Function.update s.outcome jobId (some outcome) } else none
  | .delivers jobId => (s.outcome jobId).map (s.delivers jobId)

theorem plays : system.Plays State.play fun _ move e => e = move := by
  intro s move s' hplay
  refine ⟨move, rfl, ?_⟩
  unfold State.play at hplay
  split at hplay
  · obtain rfl := Option.some.inj hplay
    exact .invites
  · split at hplay
    · rename_i hi
      obtain ⟨next, hnext, rfl⟩ := Option.map_eq_some_iff.mp hplay
      exact .resumes hi hnext
    · cases hplay
  · split_ifs at hplay with hlands
    obtain rfl := Option.some.inj hplay
    exact .lands hlands.1 hlands.2.1 hlands.2.2
  · split_ifs at hplay with hcloses
    obtain rfl := Option.some.inj hplay
    exact .closes hcloses.1 hcloses.2
  · obtain ⟨outcome, houtcome, rfl⟩ := Option.map_eq_some_iff.mp hplay
    exact .delivers houtcome

/-- No handler stops to try, and none throws. -/
def goesOnWell (contractOf : ℕ → String) (s : State) (invite : Invite) : Phase → Answer → Bool
  | .submitting _, .yes => decide (invite.contractAddress = contractOf invite.jobId)
  | .submitting _, .throws .duplicate | .rechecking _, .yes | .retrying _, .no | .retrying _, .throws _ => false
  | .publishing, .yes => s.bids invite.jobId
  | .publishing, .throws _ | .skipping, .throws _ | .failing, .throws _ => false
  | _, _ => true

/-- No bid gets lost, as far as one can see. -/
def State.careful (contractOf : ℕ → String) (s : State) : Event → Bool
  | .resumes i answer _ => (s.handlers[i]?).all fun h => goesOnWell contractOf s h.invite h.phase answer
  | .lands jobId => s.handlers.any fun h => decide (h.invite.jobId = jobId) && h.phase.tries
  | .delivers jobId => !s.delivered jobId && s.handlers.all fun h => !h.phase.tries
  | _ => true

theorem carefulAnswer_of_goesOnWell {invite : Invite} (hwell : goesOnWell contractOf s invite phase answer = true) :
    CarefulAnswer contractOf s i invite landed phase answer := by
  cases phase with
  | submitting attempt =>
    cases answer with
    | yes =>
      have hcontract : invite.contractAddress = contractOf invite.jobId := of_decide_eq_true hwell
      exact hcontract
    | no => trivial
    | throws error =>
      cases error with
      | duplicate => cases hwell
      | _ => trivial
  | rechecking attempt =>
    cases answer with
    | yes => cases hwell
    | _ => trivial
  | retrying attempt =>
    cases answer with
    | yes => trivial
    | _ => cases hwell
  | publishing =>
    cases answer with
    | yes => exact hwell
    | no => trivial
    | throws error => cases hwell
  | skipping =>
    cases answer with
    | throws error => cases hwell
    | _ => trivial
  | failing =>
    cases answer with
    | throws error => cases hwell
    | _ => trivial
  | _ => trivial

theorem careful_of_play (hcareful : s.careful contractOf e = true) : Careful contractOf s e := by
  cases e with
  | resumes i answer landed =>
    intro h hi
    unfold State.careful at hcareful
    dsimp only at hcareful
    rw [hi] at hcareful
    exact carefulAnswer_of_goesOnWell hcareful
  | lands jobId =>
    obtain ⟨h, hmem, htries⟩ := List.any_eq_true.mp hcareful
    obtain ⟨hjob, htries⟩ := (Bool.and_eq_true _ _).mp htries
    obtain ⟨i, hi⟩ := List.mem_iff_getElem?.mp hmem
    exact .inr ⟨i, h, hi, of_decide_eq_true hjob, htries⟩
  | delivers jobId =>
    obtain ⟨hnew, hall⟩ := (Bool.and_eq_true _ _).mp hcareful
    refine fun _ => ⟨?_, fun hdelivered => ?_⟩
    · rintro ⟨i, h, hi, -, htries⟩
      have hnot := List.all_eq_true.mp hall h (List.mem_of_getElem? hi)
      rw [htries] at hnot
      cases hnot
    · rw [hdelivered] at hnew
      cases hnew
  | _ => trivial

/-- An invitation for the job 7. -/
def sampleInvite : Invite := ⟨7, "0xC1", "0xD1", "lending", 400⟩

/-- The agent is invited, and comes to the sending of its bid. -/
def sampleAttempt : List Event :=
  [.invites sampleInvite true, .resumes 0 .yes false, .resumes 0 .yes false, .resumes 0 .no false,
    .resumes 0 .yes false]

/-- The agent is selected, and is told so. -/
def sampleSelection : List Event := [.closes 7 (.selected true), .delivers 7]

/-- The first attempt fails, and the second one lands. -/
def sampleCareful : List Event :=
  sampleAttempt ++ [.resumes 0 (.throws .ambiguous) false, .resumes 0 .no false, .resumes 0 .yes false, .lands 7,
    .resumes 0 .yes false, .resumes 0 .yes false] ++ sampleSelection

/-- The bid lands, and its answer is lost. -/
def sampleTimeout : List Event :=
  sampleAttempt ++ [.lands 7, .resumes 0 (.throws .ambiguous) false, .resumes 0 .yes false] ++ sampleSelection

/-- The agent works on the job. -/
theorem works_of_careful_sample : ∃ ts s, system.Run ts s ∧ s.started 7 = [sampleInvite] ∧ s.published = [7] ∧
    Throughout (State.Kept fun _ => "0xC1") ts s := by
  have hplay : (sampleCareful.foldlM (fun s e =>
      if State.careful (fun _ => "0xC1") s e = true then s.play e else none) State.initial).map
      (fun s => (s.started 7, s.published)) = some ([sampleInvite], [7]) := by decide +kernel
  obtain ⟨ts, s, hr, hread, hfrom, -⟩ := plays.guarded.exists_run rfl hplay
  obtain ⟨hstarted, hpublished⟩ := Prod.mk.inj hread
  refine ⟨ts, s, hr, hstarted, hpublished, works_of_careful hr fun tr htr => careful_of_play ?_⟩
  obtain ⟨e, -, hcomes⟩ := hfrom tr htr
  rw [hcomes.means.1]
  exact hcomes.means.2

/-- The agent has won, and does not work. -/
theorem not_kept_timeout : ¬ ∀ (contractOf : ℕ → String) (ts : List (Transition State Event)) (s : State),
    system.Run ts s → s.Kept contractOf := by
  intro hall
  have hplay : (sampleTimeout.foldlM State.play State.initial).map
      (fun s => (s.delivered 7, s.outcome 7, s.started 7)) = some (true, some (.selected true), []) := by
    decide +kernel
  obtain ⟨ts, s, hr, hread, -, -⟩ := plays.exists_run rfl hplay
  obtain ⟨hdelivered, hread⟩ := Prod.mk.inj hread
  obtain ⟨houtcome, hstarted⟩ := Prod.mk.inj hread
  have hworked := (hall (fun _ => "0xC1") ts s hr).worked 7 ⟨hdelivered, houtcome⟩
  rw [hstarted] at hworked
  cases hworked

end AuditGuard.BiddingAgent
