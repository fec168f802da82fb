import AuditGuard.Orchestrator.Cursor

/-!
# The orchestrator: what a cycle of the reconciliation does

A cycle of the reconciliation looks at a window of the active jobs. What it finds there decides what it does: an
expired auction with bids has its winners selected, unless the cycle has started as many selections as it may; every
expired auction without bids that it comes to is closed, since the cap on the closes only ends the cycle together with
the cap on the selections.

`inspectJobs` is the loop of the reconciliation that also returns what it found, and `Inspects` says without tasks what
that can be.
-/

namespace AuditGuard.Orchestrator

open Routine

/-- What a cycle finds of a job: it passes over the job, or the auction is expired, with bids or without. -/
inductive Finding
  | passedOver
  | withBids
  | withoutBids
deriving DecidableEq

/-- What `reconcileJob` does as long as no request fails, and also returns what it finds. -/
def lookAtJob (cfg : Config) (nowMs key : ℕ) (v : Option ℕ) (closeAttempts selectAttempts : ℕ) :
    Async (Finding × ℕ × ℕ) := do
  let chainJob ← getJob key
  if chainJob.status ≠ .auctionOpen then do
    match v with
    | some v => writeJob key v Job.markSkipTerminal
    | none => pure ()
    pure (.passedOver, closeAttempts, selectAttempts)
  else if chainJob.auctionDeadline = 0 ∨ nowMs / 1000 < chainJob.auctionDeadline then
    pure (.passedOver, closeAttempts, selectAttempts)
  else do
    let onChainBidCount ← getOnChainBidCount key
    if 0 < onChainBidCount then do
      let attempts ← reconcileSelect cfg nowMs key closeAttempts selectAttempts
        ⟨some chainJob.status, some chainJob.auctionDeadline, some onChainBidCount⟩
      pure (.withBids, attempts)
    else do
      reconcileClose cfg nowMs key
      pure (.withoutBids, closeAttempts + 1, selectAttempts)

/-- `reconcileJob`, which also returns what it finds. -/
def inspectJob (cfg : Config) (nowMs key : ℕ) (v : Option ℕ) (closeAttempts selectAttempts : ℕ) :
    Async (Finding × ℕ × ℕ) :=
  (lookAtJob cfg nowMs key v closeAttempts selectAttempts).tryCatch fun _ => do
    setCooldown cfg key nowMs
    pure (.passedOver, closeAttempts, selectAttempts)

/-- `reconcileJobs`, which also returns what it finds of the jobs that it comes to. -/
def inspectJobs (cfg : Config) (nowMs : ℕ) : List ℕ → ℕ → ℕ → Async (List (ℕ × Finding))
  | [], _, _ => pure []
  | key :: keys, closeAttempts, selectAttempts => do
    if cfg.staleAuctionReconcileMaxPerCycle ≤ closeAttempts ∧
        cfg.staleAuctionReconcileMaxSelectsPerCycle ≤ selectAttempts then pure []
    else do
      let m ← memory
      if (m.getJobByKey key).any (fun v => (m.object key v).skipsReconcile) = true ∨
          nowMs < m.reconcileCloseCooldown key then do
        let found ← inspectJobs cfg nowMs keys closeAttempts selectAttempts
        pure ((key, .passedOver) :: found)
      else do
        let attempts ← inspectJob cfg nowMs key (m.getJobByKey key) closeAttempts selectAttempts
        let found ← inspectJobs cfg nowMs keys attempts.2.1 attempts.2.2
        pure ((key, attempts.1) :: found)

/-- `_reconcileExpiredActiveAuctionsInner` from where the active jobs are known, which also returns what it finds. -/
def inspectActive (cfg : Config) (activeIds : List ℕ) : Async (List (ℕ × Finding)) := do
  let nowMs ← time
  if activeIds = [] then pure []
  else do
    let m ← memory
    let inspectCount := min (max 1 cfg.staleAuctionReconcileMaxInspectPerCycle) activeIds.length
    let startIndex := m.staleAuctionReconcileCursor % activeIds.length
    modify fun m => { m with staleAuctionReconcileCursor := (startIndex + inspectCount) % activeIds.length }
    inspectJobs cfg nowMs ((activeIds.rotate startIndex).take inspectCount) 0 0

/-! ## The loop that returns what it finds is the loop -/

variable {cfg : Config} {nowMs key : ℕ} {keys : List ℕ} {closeAttempts selectAttempts : ℕ}

/-- The code looks at a job as `inspectJob` does. -/
theorem reconcileJob_eq (v : Option ℕ) : reconcileJob cfg nowMs key v closeAttempts selectAttempts =
    (inspectJob cfg nowMs key v closeAttempts selectAttempts).bind fun attempts => .done attempts.2 := by
  unfold reconcileJob inspectJob lookAtJob
  rw [tryCatch_bind_done]
  refine congrArg (fun x => Routine.tryCatch x _) ?_
  refine Eq.trans ?_ (Routine.bind_assoc (getJob key) _ _).symm
  refine congrArg (Routine.bind (getJob key)) (funext fun chainJob => ?_)
  by_cases hstatus : chainJob.status ≠ .auctionOpen
  · rw [if_pos hstatus, if_pos hstatus]
    cases v <;> rfl
  rw [if_neg hstatus, if_neg hstatus]
  by_cases hexpired : chainJob.auctionDeadline = 0 ∨ nowMs / 1000 < chainJob.auctionDeadline
  · rw [if_pos hexpired, if_pos hexpired]
    rfl
  rw [if_neg hexpired, if_neg hexpired]
  refine Eq.trans ?_ (Routine.bind_assoc (getOnChainBidCount key) _ _).symm
  refine congrArg (Routine.bind (getOnChainBidCount key)) (funext fun onChainBidCount => ?_)
  by_cases hpos : 0 < onChainBidCount
  · rw [if_pos hpos, if_pos hpos]
    exact ((Routine.bind_assoc _ _ _).trans (bind_done _)).symm
  · rw [if_neg hpos, if_neg hpos]
    exact (Routine.bind_assoc (reconcileClose cfg nowMs key)
      (fun _ => .done (Finding.withoutBids, closeAttempts + 1, selectAttempts)) fun a => .done a.2).symm

/-- And at the jobs of a window. -/
theorem reconcileJobs_eq : reconcileJobs cfg nowMs keys closeAttempts selectAttempts =
    (inspectJobs cfg nowMs keys closeAttempts selectAttempts).bind fun _ => .done () := by
  induction keys generalizing closeAttempts selectAttempts with
  | nil => rfl
  | cons key keys ih =>
    unfold reconcileJobs inspectJobs
    split_ifs with hcaps
    · rfl
    refine congrArg get (funext fun m => ?_)
    change ite _ _ _ = Routine.bind (ite _ _ _) _
    split_ifs with hskip
    · rw [ih]
      exact (Routine.bind_assoc (inspectJobs cfg nowMs keys closeAttempts selectAttempts)
        (fun found => .done ((key, Finding.passedOver) :: found)) fun _ => .done ()).symm
    · rw [reconcileJob_eq]
      refine (Routine.bind_assoc _ _ _).trans ?_
      refine Eq.trans ?_ (Routine.bind_assoc _ _ _).symm
      refine congrArg (Routine.bind _) (funext fun attempts => ?_)
      exact ih.trans (Routine.bind_assoc (inspectJobs cfg nowMs keys attempts.2.1 attempts.2.2)
        (fun found => .done ((key, attempts.1) :: found)) fun _ => .done ()).symm

/-- A cycle of the code is `inspectActive`, whose findings it drops. -/
theorem reconcileExpiredActiveAuctionsInner_eq : reconcileExpiredActiveAuctionsInner cfg =
    activeJobIds.bind fun activeIds => (inspectActive cfg activeIds).bind fun _ => .done () := by
  refine congrArg (Routine.bind activeJobIds) (funext fun activeIds => ?_)
  refine congrArg clock (funext fun nowMs => ?_)
  change ite _ _ _ = Routine.bind (ite _ _ _) _
  split_ifs with hempty
  · rfl
  refine congrArg get (funext fun m => congrArg get (funext fun m' => congrArg (set _) ?_))
  exact reconcileJobs_eq

/-! ## What a cycle comes to -/

/-- The counts of the attempts after a job was found to be so, where at most `maxSelects` selections are started. -/
def Finding.next (maxSelects : ℕ) : Finding → ℕ → ℕ → ℕ × ℕ
  | .passedOver, closeAttempts, selectAttempts => (closeAttempts, selectAttempts)
  | .withBids, closeAttempts, selectAttempts =>
    if maxSelects ≤ selectAttempts then (closeAttempts, selectAttempts) else (closeAttempts, selectAttempts + 1)
  | .withoutBids, closeAttempts, selectAttempts => (closeAttempts + 1, selectAttempts)

/-- The jobs that are closed. -/
def closed (found : List (ℕ × Finding)) : List ℕ :=
  (found.filter fun p => p.2 = .withoutBids).map Prod.fst

/-- The jobs for which a selection is started, where so many may be. -/
def dispatched (selects : ℕ) (found : List (ℕ × Finding)) : List ℕ :=
  ((found.filter fun p => p.2 = .withBids).take selects).map Prod.fst

/-- The loop comes to these jobs and finds this: it ends where both caps are reached. -/
inductive Inspects (maxCloses maxSelects : ℕ) : List ℕ → ℕ → ℕ → List (ℕ × Finding) → Prop
  | nil {closeAttempts selectAttempts : ℕ} : Inspects maxCloses maxSelects [] closeAttempts selectAttempts []
  | stop {key : ℕ} {keys : List ℕ} {closeAttempts selectAttempts : ℕ}
      (h : maxCloses ≤ closeAttempts ∧ maxSelects ≤ selectAttempts) :
      Inspects maxCloses maxSelects (key :: keys) closeAttempts selectAttempts []
  | look {key : ℕ} {keys : List ℕ} {closeAttempts selectAttempts : ℕ} {f : Finding} {found : List (ℕ × Finding)}
      (h : ¬ (maxCloses ≤ closeAttempts ∧ maxSelects ≤ selectAttempts))
      (hrest : Inspects maxCloses maxSelects keys (f.next maxSelects closeAttempts selectAttempts).1
        (f.next maxSelects closeAttempts selectAttempts).2 found) :
      Inspects maxCloses maxSelects (key :: keys) closeAttempts selectAttempts ((key, f) :: found)

/-- The tasks are selections of winners for the jobs. -/
def Selections (ss : List Start) (keys : List ℕ) : Prop :=
  List.Forall₂ (fun s key => ∃ hint, s = .requestWinnerSelection key "reconcile" hint) ss keys

/-- What is started for a job that was found to be so. -/
def Finding.starts (maxSelects selectAttempts key : ℕ) : Finding → List ℕ
  | .withBids => if maxSelects ≤ selectAttempts then [] else [key]
  | _ => []

section Findings

variable (maxSelects closeAttempts selectAttempts key : ℕ)

@[simp] theorem Finding.next_passedOver : Finding.passedOver.next maxSelects closeAttempts selectAttempts =
    (closeAttempts, selectAttempts) := rfl

@[simp] theorem Finding.next_withBids : Finding.withBids.next maxSelects closeAttempts selectAttempts =
    if maxSelects ≤ selectAttempts then (closeAttempts, selectAttempts)
    else (closeAttempts, selectAttempts + 1) := rfl

@[simp] theorem Finding.next_withoutBids : Finding.withoutBids.next maxSelects closeAttempts selectAttempts =
    (closeAttempts + 1, selectAttempts) := rfl

@[simp] theorem Finding.starts_passedOver : Finding.passedOver.starts maxSelects selectAttempts key = [] := rfl

@[simp] theorem Finding.starts_withBids : Finding.withBids.starts maxSelects selectAttempts key =
    if maxSelects ≤ selectAttempts then [] else [key] := rfl

@[simp] theorem Finding.starts_withoutBids : Finding.withoutBids.starts maxSelects selectAttempts key = [] := rfl

end Findings

variable {m m' : Memory} {ss : List Start} {found : List (ℕ × Finding)}

theorem reconcileClose_ok {res : Except String Unit}
    (h : Comes LeavesCursor (reconcileClose cfg nowMs key) m ss res m') : res = .ok () := by
  rcases comes_tryCatch.mp h with ⟨_, hres, -⟩ | ⟨message, m₁, ss₁, ss₂, -, ⟨-, hres, -⟩, -⟩
  · exact hres
  · exact hres

theorem comes_reconcileSelect {hint : ReadinessHint} {res : Except String (ℕ × ℕ)}
    (h : Comes LeavesCursor (reconcileSelect cfg nowMs key closeAttempts selectAttempts hint) m ss res m') :
    res = .ok (Finding.withBids.next cfg.staleAuctionReconcileMaxSelectsPerCycle closeAttempts selectAttempts) ∧
      Selections ss (Finding.withBids.starts cfg.staleAuctionReconcileMaxSelectsPerCycle selectAttempts key) ∧
      LeavesCursor m m' := by
  rw [Finding.next_withBids, Finding.starts_withBids]
  unfold reconcileSelect at h
  split_ifs at h ⊢ with hcap
  · obtain ⟨rfl, hres, rfl⟩ := h
    exact ⟨hres, .nil, rfl⟩
  · obtain ⟨ss', rfl, rfl, hres, rfl⟩ := h
    exact ⟨hres, .cons ⟨hint, rfl⟩ .nil, rfl⟩

theorem comes_call_bind {α : Type} {r : Request} {f : Response r → Async α} {res : Except String α}
    (h : Comes LeavesCursor ((call r).bind f) m ss res m') :
    (∃ a m₁, LeavesCursor m m₁ ∧ Comes LeavesCursor (f a) m₁ ss res m') ∨
      ∃ message, res = .error message ∧ ss = [] ∧ LeavesCursor m m' := by
  obtain ⟨answer, m₁, hm₁, h⟩ := h
  cases answer with
  | ok a => exact .inl ⟨a, m₁, hm₁, h⟩
  | error message =>
    obtain ⟨rfl, hres, rfl⟩ := h
    exact .inr ⟨message, hres, rfl, hm₁⟩

/-- What the inspection of a job comes to, unless a request fails. -/
def Inspected (cfg : Config) (key closeAttempts selectAttempts : ℕ) (m : Memory) (ss : List Start)
    (attempts : Finding × ℕ × ℕ) (m' : Memory) : Prop :=
  attempts.2 = attempts.1.next cfg.staleAuctionReconcileMaxSelectsPerCycle closeAttempts selectAttempts ∧
    Selections ss (attempts.1.starts cfg.staleAuctionReconcileMaxSelectsPerCycle selectAttempts key) ∧
    LeavesCursor m m'

/-- A look at a job starts a selection if it has bids and may, and nothing if a request fails. -/
theorem comes_lookAtJob {v : Option ℕ} {res : Except String (Finding × ℕ × ℕ)}
    (h : Comes LeavesCursor (lookAtJob cfg nowMs key v closeAttempts selectAttempts) m ss res m') :
    (∃ attempts, res = .ok attempts ∧ Inspected cfg key closeAttempts selectAttempts m ss attempts m') ∨
      ∃ message, res = .error message ∧ ss = [] ∧ LeavesCursor m m' := by
  rcases comes_call_bind h with ⟨chainJob, m₁, hm₁, h⟩ | hfailed
  swap
  · exact .inr hfailed
  by_cases hstatus : chainJob.status ≠ .auctionOpen
  · -- The job is passed over, and may be marked.
    rw [if_pos hstatus] at h
    cases v with
    | none =>
      obtain ⟨rfl, hres, rfl⟩ := h
      exact .inl ⟨_, hres, rfl, .nil, hm₁⟩
    | some v =>
      obtain ⟨rfl, hres, rfl⟩ := h
      exact .inl ⟨_, hres, rfl, .nil, hm₁⟩
  rw [if_neg hstatus] at h
  by_cases hexpired : chainJob.auctionDeadline = 0 ∨ nowMs / 1000 < chainJob.auctionDeadline
  · rw [if_pos hexpired] at h
    obtain ⟨rfl, hres, rfl⟩ := h
    exact .inl ⟨_, hres, rfl, .nil, hm₁⟩
  rw [if_neg hexpired] at h
  rcases comes_call_bind h with ⟨onChainBidCount, m₂, hm₂, h⟩ | ⟨message, hres, hss, hm₂⟩
  swap
  · exact .inr ⟨message, hres, hss, hm₂.trans hm₁⟩
  by_cases hpos : 0 < onChainBidCount
  · rw [if_pos hpos] at h
    rcases comes_bind.mp h with ⟨attempts, m₃, ss₁, ss₂, hselect, ⟨rfl, hres, rfl⟩, rfl⟩ | ⟨message, -, hselect⟩
    · obtain ⟨hattempts, hstarts, hm₃⟩ := comes_reconcileSelect hselect
      refine .inl ⟨_, hres, Except.ok.inj hattempts, ?_, hm₃.trans (hm₂.trans hm₁)⟩
      rw [List.append_nil]
      exact hstarts
    · have herror := (comes_reconcileSelect hselect).1
      cases herror
  · rw [if_neg hpos] at h
    rcases comes_bind.mp h with ⟨_, m₃, ss₁, ss₂, hclose, ⟨rfl, hres, rfl⟩, rfl⟩ | ⟨message, -, hclose⟩
    · obtain ⟨hstarts, hm₃⟩ := (aside_reconcileClose _).comes (fun _ _ h => h) hclose
      obtain rfl := List.eq_nil_iff_forall_not_mem.mpr hstarts
      exact .inl ⟨_, hres, rfl, .nil, hm₃.trans (hm₂.trans hm₁)⟩
    · have herror := reconcileClose_ok hclose
      cases herror

theorem comes_inspectJob {v : Option ℕ} {res : Except String (Finding × ℕ × ℕ)}
    (h : Comes LeavesCursor (inspectJob cfg nowMs key v closeAttempts selectAttempts) m ss res m') :
    ∃ attempts, res = .ok attempts ∧ Inspected cfg key closeAttempts selectAttempts m ss attempts m' := by
  rcases comes_tryCatch.mp h with ⟨attempts, rfl, hlook⟩ | ⟨message, m₁, ss₁, ss₂, hlook, ⟨rfl, hres, rfl⟩, rfl⟩
  · rcases comes_lookAtJob hlook with hlook | ⟨message, hres, -⟩
    · exact hlook
    · cases hres
  · rcases comes_lookAtJob hlook with ⟨_, hres, -⟩ | ⟨_, -, rfl, hm₁⟩
    · cases hres
    · exact ⟨_, hres, rfl, .nil, hm₁⟩

theorem selections_nil (selects : ℕ) : Selections [] (dispatched selects []) := by
  simp [Selections, dispatched]

theorem dispatched_cons (maxSelects closeAttempts : ℕ) (f : Finding) :
    dispatched (maxSelects - selectAttempts) ((key, f) :: found) = f.starts maxSelects selectAttempts key ++
      dispatched (maxSelects - (f.next maxSelects closeAttempts selectAttempts).2) found := by
  cases f with
  | passedOver => simp [dispatched]
  | withoutBids => simp [dispatched]
  | withBids =>
    rw [Finding.next_withBids, Finding.starts_withBids]
    split_ifs with hcap
    · simp [dispatched, Nat.sub_eq_zero_of_le hcap]
    · obtain ⟨n, hn⟩ : ∃ n, maxSelects - selectAttempts = n + 1 := ⟨maxSelects - selectAttempts - 1, by omega⟩
      have hn' : maxSelects - (selectAttempts + 1) = n := by omega
      simp [dispatched, hn, hn']

/-- The loop does not throw. What it finds is what a loop can find, and it starts the selections of that. -/
theorem comes_inspectJobs {res : Except String (List (ℕ × Finding))}
    (h : Comes LeavesCursor (inspectJobs cfg nowMs keys closeAttempts selectAttempts) m ss res m') :
    ∃ found, res = .ok found ∧
      Inspects cfg.staleAuctionReconcileMaxPerCycle cfg.staleAuctionReconcileMaxSelectsPerCycle keys closeAttempts
        selectAttempts found ∧
      Selections ss (dispatched (cfg.staleAuctionReconcileMaxSelectsPerCycle - selectAttempts) found) ∧
      LeavesCursor m m' := by
  induction keys generalizing closeAttempts selectAttempts m ss res with
  | nil =>
    obtain ⟨rfl, hres, rfl⟩ := h
    exact ⟨[], hres, .nil, selections_nil _, rfl⟩
  | cons key keys ih =>
    unfold inspectJobs at h
    split_ifs at h with hcaps
    · obtain ⟨rfl, hres, rfl⟩ := h
      exact ⟨[], hres, .stop hcaps, selections_nil _, rfl⟩
    change Comes _ (ite _ _ _) _ _ _ _ at h
    split_ifs at h with hskip
    · rcases comes_bind.mp h with ⟨found, m₁, ss₁, ss₂, hloop, ⟨rfl, hres, rfl⟩, rfl⟩ | ⟨message, -, hloop⟩
      · obtain ⟨_, heq, hinspects, hstarts, hm₁⟩ := ih hloop
        rw [← Except.ok.inj heq] at hinspects hstarts
        refine ⟨_, hres, .look hcaps hinspects, ?_, hm₁⟩
        rw [List.append_nil]
        exact hstarts
      · obtain ⟨_, heq, -⟩ := ih hloop
        cases heq
    · rcases comes_bind.mp h with ⟨attempts, m₁, ss₁, ss₂, hjob, hafter, rfl⟩ | ⟨message, -, hjob⟩
      swap
      · obtain ⟨_, heq, -⟩ := comes_inspectJob hjob
        cases heq
      obtain ⟨_, heq, hnext, hselections, hm₁⟩ := comes_inspectJob hjob
      rw [← Except.ok.inj heq] at hnext hselections
      rcases comes_bind.mp hafter with ⟨found, m₂, ss₃, ss₄, hloop, ⟨rfl, hres, rfl⟩, rfl⟩ | ⟨message, -, hloop⟩
      · obtain ⟨_, heq', hinspects, hstarts, hm₂⟩ := ih hloop
        rw [← Except.ok.inj heq'] at hinspects hstarts
        rw [hnext] at hinspects hstarts
        refine ⟨_, hres, .look hcaps hinspects, ?_, hm₂.trans hm₁⟩
        rw [List.append_nil, dispatched_cons _ closeAttempts]
        exact List.rel_append hselections hstarts
      · obtain ⟨_, heq', -⟩ := ih hloop
        cases heq'

/-! ## Every finding can come up -/

/-- The memory has nothing on the job that keeps the reconciliation from it. -/
structure Memory.Fresh (m : Memory) (key : ℕ) : Prop where
  job : m.getJobByKey key = none
  cooldown : m.reconcileCloseCooldown key = 0
  inflight : m.inflightCloseJobs key = false

/-- What the memory has on the other jobs is as before. -/
def KeepsOthers (key : ℕ) (m m' : Memory) : Prop := ∀ other, other ≠ key → m.Fresh other → m'.Fresh other

theorem lookup_putJob {other : ℕ} (hne : other ≠ key) (v : ℕ) (jobs : List (ℕ × ℕ)) :
    (Memory.putJob key v jobs).lookup other = jobs.lookup other := by
  have hfalse : (other == key) = false := beq_eq_false_iff_ne.mpr hne
  induction jobs with
  | nil => rw [Memory.putJob, List.lookup_cons, hfalse]
  | cons entry jobs ih =>
    obtain ⟨k, v'⟩ := entry
    unfold Memory.putJob
    split_ifs with hkey
    · rw [show k = key from hkey, List.lookup_cons, List.lookup_cons, hfalse]
    · rw [List.lookup_cons, List.lookup_cons, ih]

theorem keepsOthers_setCooldown (m : Memory) (until' : ℕ) : KeepsOthers key m
    { m with reconcileCloseCooldown := Function.update m.reconcileCloseCooldown key until' } :=
  fun _ hne h => ⟨h.job, (Function.update_of_ne hne _ _).trans h.cooldown, h.inflight⟩

theorem comes_cancelAttempts (m : Memory) (v : ℕ) (reasonCode : String) :
    Comes LeavesCursor (cancelAttempts key v reasonCode 3) m [] (.ok false) m := by
  refine comes_tryCatch.mpr (.inr ⟨"", m, [], [], ⟨.error "", m, rfl, rfl, rfl, rfl⟩, ?_, rfl⟩)
  rw [if_neg (by decide +kernel), if_neg (by decide +kernel)]
  exact ⟨.ok (), m, rfl, rfl, rfl, rfl⟩

theorem comes_jobToClose (m : Memory) (hjob : m.getJobByKey key = none) :
    Comes LeavesCursor (jobToClose key) m [] (.ok (m.created key))
      ((m.create key (Job.blank none (m.created key))).setJobByKey key (m.created key)) := by
  refine comes_bind.mpr (.inl ⟨m, m, [], [], ⟨rfl, rfl, rfl⟩, ?_, rfl⟩)
  rw [hjob]
  exact ⟨rfl, rfl, rfl⟩

theorem exists_comes_closeExpiredAuction (cfg : Config) (reasonCode : String) (h : m.Fresh key) :
    ∃ m', Comes LeavesCursor (closeExpiredAuction cfg key reasonCode) m [] (.ok false) m' ∧ KeepsOthers key m m' := by
  let m₁ := (m.create key (Job.blank none (m.created key))).setJobByKey key (m.created key)
  have hothers : KeepsOthers key m m₁ :=
    fun _ hne h => ⟨(lookup_putJob hne _ _).trans h.job, h.cooldown, h.inflight⟩
  have hopen : ¬ (m₁.object key (m.created key)).cancelledOnChain = true := by
    simp [m₁, Memory.create, Memory.setJobByKey, Job.blank]
  have hinflight : ¬ m₁.inflightCloseJobs key = true := by
    rw [show m₁.inflightCloseJobs key = m.inflightCloseJobs key from rfl, h.inflight]
    exact Bool.false_ne_true
  by_cases hsingle : cfg.auctionCloseSingleflightEnabled = false
  · refine ⟨m₁, comes_bind.mpr (.inl ⟨_, m₁, [], [], comes_jobToClose m h.job, ?_, rfl⟩), hothers⟩
    refine comes_bind.mpr (.inl ⟨m₁, m₁, [], [], ⟨rfl, rfl, rfl⟩, ?_, rfl⟩)
    rw [if_neg hopen, if_pos hsingle]
    exact comes_cancelAttempts m₁ _ _
  · let m₂ := { m₁ with inflightCloseJobs := Function.update m₁.inflightCloseJobs key true }
    refine ⟨{ m₂ with inflightCloseJobs := Function.update m₂.inflightCloseJobs key false },
      comes_bind.mpr (.inl ⟨_, m₁, [], [], comes_jobToClose m h.job, ?_, rfl⟩), ?_⟩
    · refine comes_bind.mpr (.inl ⟨m₁, m₁, [], [], ⟨rfl, rfl, rfl⟩, ?_, rfl⟩)
      rw [if_neg hopen, if_neg hsingle, if_neg hinflight]
      refine comes_bind.mpr (.inl ⟨(), m₂, [], [], ⟨rfl, rfl, rfl⟩, ?_, rfl⟩)
      refine comes_bind.mpr (.inl ⟨false, m₂, [], [], ?_, ⟨rfl, rfl, rfl⟩, rfl⟩)
      exact comes_tryCatch.mpr (.inl ⟨false, rfl, comes_cancelAttempts m₂ _ _⟩)
    · intro other hne hfresh
      have hfresh₁ := hothers other hne hfresh
      refine ⟨hfresh₁.job, hfresh₁.cooldown, ?_⟩
      exact (Function.update_of_ne hne _ _).trans ((Function.update_of_ne hne _ _).trans hfresh₁.inflight)

theorem exists_comes_reconcileClose (cfg : Config) (nowMs : ℕ) (h : m.Fresh key) :
    ∃ m', Comes LeavesCursor (reconcileClose cfg nowMs key) m [] (.ok ()) m' ∧ KeepsOthers key m m' := by
  obtain ⟨m₁, hclose, hothers⟩ := exists_comes_closeExpiredAuction cfg "reconcile_expired_active_job" h
  let until' := nowMs + cfg.staleAuctionReconcileFailureCooldownMs
  refine ⟨{ m₁ with reconcileCloseCooldown := Function.update m₁.reconcileCloseCooldown key until' }, ?_, ?_⟩
  · refine comes_tryCatch.mpr (.inl ⟨(), rfl, comes_bind.mpr (.inl ⟨false, m₁, [], [], hclose, ?_, rfl⟩)⟩)
    rw [if_pos rfl]
    exact ⟨rfl, rfl, rfl⟩
  · exact fun other hne hfresh => keepsOthers_setCooldown m₁ until' other hne (hothers other hne hfresh)

theorem exists_comes_reconcileSelect (cfg : Config) (nowMs closeAttempts selectAttempts : ℕ) (hint : ReadinessHint)
    (m : Memory) : ∃ ss m', Comes LeavesCursor (reconcileSelect cfg nowMs key closeAttempts selectAttempts hint) m ss
      (.ok (Finding.withBids.next cfg.staleAuctionReconcileMaxSelectsPerCycle closeAttempts selectAttempts)) m' ∧
      KeepsOthers key m m' := by
  rw [Finding.next_withBids]
  unfold reconcileSelect
  split_ifs with hcap
  · exact ⟨[], _, ⟨rfl, rfl, rfl⟩, keepsOthers_setCooldown m _⟩
  · exact ⟨_, _, ⟨[], rfl, rfl, rfl, rfl⟩, keepsOthers_setCooldown m _⟩

/-- A job with an expired auction. -/
def expiredJob (key : ℕ) : AuditAuction.AuditJob where
  jobId := key
  contractAddress := 4
  contractChain := "hedera"
  discoveryTimestamp := 0
  auctionDeadline := 1
  initialRiskScore := 10
  budgetAvailable := 200 * 10^8
  lineCount := 100
  contractType := "token"
  status := .auctionOpen
  winningAgents := []
  totalEscrowedAmount := 0
  bidCount := 0

theorem exists_comes_inspectJob (cfg : Config) (closeAttempts selectAttempts : ℕ) (hnow : 1000 ≤ nowMs)
    (h : m.Fresh key) (f : Finding) : ∃ ss m',
      Comes LeavesCursor (inspectJob cfg nowMs key none closeAttempts selectAttempts) m ss
        (.ok (f, f.next cfg.staleAuctionReconcileMaxSelectsPerCycle closeAttempts selectAttempts)) m' ∧
      KeepsOthers key m m' := by
  have hopen : ¬ (expiredJob key).status ≠ .auctionOpen := not_not.mpr rfl
  have hexpired : ¬ ((expiredJob key).auctionDeadline = 0 ∨ nowMs / 1000 < (expiredJob key).auctionDeadline) := by
    change ¬ (1 = 0 ∨ nowMs / 1000 < 1)
    omega
  cases f with
  | passedOver =>
    refine ⟨[], _, comes_tryCatch.mpr (.inr ⟨"", m, [], [], ⟨.error "", m, rfl, rfl, rfl, rfl⟩, ?_, rfl⟩),
      keepsOthers_setCooldown m (nowMs + cfg.staleAuctionReconcileFailureCooldownMs)⟩
    exact ⟨rfl, rfl, rfl⟩
  | withBids =>
    obtain ⟨ss, m', hselect, hothers⟩ := exists_comes_reconcileSelect cfg nowMs closeAttempts selectAttempts
      ⟨some (expiredJob key).status, some (expiredJob key).auctionDeadline, some 1⟩ m
    refine ⟨ss, m', comes_tryCatch.mpr (.inl ⟨_, rfl, comes_bind.mpr (.inl ⟨expiredJob key, m, [], ss, ?_, ?_, rfl⟩)⟩),
      hothers⟩
    · exact ⟨.ok (expiredJob key), m, rfl, rfl, rfl, rfl⟩
    rw [if_neg hopen, if_neg hexpired]
    refine comes_bind.mpr (.inl ⟨1, m, [], ss, ⟨.ok 1, m, rfl, rfl, rfl, rfl⟩, ?_, rfl⟩)
    rw [if_pos Nat.one_pos]
    exact comes_bind.mpr (.inl ⟨_, m', ss, [], hselect, ⟨rfl, rfl, rfl⟩, (List.append_nil ss).symm⟩)
  | withoutBids =>
    obtain ⟨m', hclose, hothers⟩ := exists_comes_reconcileClose cfg nowMs h
    refine ⟨[], m', comes_tryCatch.mpr (.inl ⟨_, rfl, comes_bind.mpr (.inl ⟨expiredJob key, m, [], [], ?_, ?_, rfl⟩)⟩),
      hothers⟩
    · exact ⟨.ok (expiredJob key), m, rfl, rfl, rfl, rfl⟩
    rw [if_neg hopen, if_neg hexpired]
    refine comes_bind.mpr (.inl ⟨0, m, [], [], ⟨.ok 0, m, rfl, rfl, rfl, rfl⟩, ?_, rfl⟩)
    rw [if_neg (Nat.lt_irrefl 0)]
    exact comes_bind.mpr (.inl ⟨(), m', [], [], hclose, ⟨rfl, rfl, rfl⟩, rfl⟩)

theorem exists_comes_inspectJobs (cfg : Config) (hnow : 1000 ≤ nowMs) (hkeys : keys.Nodup)
    (hfresh : ∀ key ∈ keys, m.Fresh key)
    (h : Inspects cfg.staleAuctionReconcileMaxPerCycle cfg.staleAuctionReconcileMaxSelectsPerCycle keys closeAttempts
      selectAttempts found) :
    ∃ ss m', Comes LeavesCursor (inspectJobs cfg nowMs keys closeAttempts selectAttempts) m ss (.ok found) m' := by
  induction h generalizing m with
  | nil => exact ⟨[], m, rfl, rfl, rfl⟩
  | stop hcaps =>
    refine ⟨[], m, ?_⟩
    unfold inspectJobs
    rw [if_pos hcaps]
    exact ⟨rfl, rfl, rfl⟩
  | @look key keys closeAttempts selectAttempts f found hcaps hrest ih =>
    obtain ⟨hkey, hkeys⟩ := List.nodup_cons.mp hkeys
    have hnew := hfresh key List.mem_cons_self
    obtain ⟨ss₁, m₁, hjob, hothers⟩ := exists_comes_inspectJob cfg closeAttempts selectAttempts hnow hnew f
    have hfresh₁ : ∀ other ∈ keys, m₁.Fresh other := fun other hother =>
      hothers other (fun heq => hkey (heq ▸ hother)) (hfresh other (List.mem_cons_of_mem _ hother))
    obtain ⟨ss₂, m₂, hloop⟩ := ih hkeys hfresh₁
    refine ⟨ss₁ ++ ss₂, m₂, ?_⟩
    have hskip : ¬ ((m.getJobByKey key).any (fun v => (m.object key v).skipsReconcile) = true ∨
        nowMs < m.reconcileCloseCooldown key) := by
      rw [hnew.job, hnew.cooldown]
      simp
    unfold inspectJobs
    rw [if_neg hcaps]
    refine comes_bind.mpr (.inl ⟨m, m, [], ss₁ ++ ss₂, ⟨rfl, rfl, rfl⟩, ?_, rfl⟩)
    rw [if_neg hskip, hnew.job]
    refine comes_bind.mpr (.inl ⟨_, m₁, ss₁, ss₂, hjob, ?_, rfl⟩)
    exact comes_bind.mpr (.inl ⟨found, m₂, ss₂, [], hloop, ⟨rfl, rfl, rfl⟩, (List.append_nil ss₂).symm⟩)

end AuditGuard.Orchestrator
