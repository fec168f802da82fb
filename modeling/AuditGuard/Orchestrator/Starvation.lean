import AuditGuard.Library.RotatingWindow
import AuditGuard.Orchestrator.Cycles

/-!
# The orchestrator: which expired auctions the reconciliation gets to

Nothing caps the closes of a cycle as long as it may start a selection, so that the cap on the closes holds only of
windows that have enough selections before the closes. And the cycles start at places that differ by multiples of
`gcd n k`, where `n` is the number of active jobs and `k` the length of the window: a job is starved if too many jobs
with bids are among the `gcd n k - 1` ones before it.
-/

namespace AuditGuard.Orchestrator

open Routine RotatingWindow

/-- The number of jobs that are so. -/
def numOf (kind : ℕ → Finding) (f : Finding) (keys : List ℕ) : ℕ := keys.countP fun key => kind key = f

/-- A job that is so is acted on behind such jobs: it gets one of the selections, or one of the closes that are
certain. -/
def Reached (maxCloses maxSelects : ℕ) (kind : ℕ → Finding) (before : List ℕ) (key : ℕ) : Prop :=
  numOf kind .withBids before < maxSelects ∨
    kind key = .withoutBids ∧ numOf kind .withoutBids before < maxCloses

/-- The cycle acts on a job: it closes it, or starts a selection for it. -/
def ActsOn (maxSelects : ℕ) (found : List (ℕ × Finding)) (key : ℕ) : Prop :=
  key ∈ closed found ∨ key ∈ dispatched maxSelects found

variable {maxCloses maxSelects closeAttempts selectAttempts key : ℕ} {keys before behind : List ℕ}
  {kind : ℕ → Finding} {found : List (ℕ × Finding)} {f : Finding}

/-! ## One cycle -/

theorem numOf_cons (kind : ℕ → Finding) (f : Finding) (key : ℕ) (keys : List ℕ) :
    numOf kind f (key :: keys) = (if kind key = f then 1 else 0) + numOf kind f keys := by
  unfold numOf
  rw [List.countP_cons, Nat.add_comm]
  simp

theorem Inspects.subset (h : Inspects maxCloses maxSelects keys closeAttempts selectAttempts found) :
    ∀ p ∈ found, p.1 ∈ keys := by
  induction h with
  | nil => simp
  | stop => simp
  | look h hrest ih =>
    intro p hp
    rcases List.mem_cons.mp hp with rfl | hp
    · exact List.mem_cons_self
    · exact List.mem_cons_of_mem _ (ih p hp)

theorem Inspects.length_le (h : Inspects maxCloses maxSelects keys closeAttempts selectAttempts found) :
    found.length ≤ keys.length := by
  induction h with
  | nil => exact le_rfl
  | stop => exact Nat.zero_le _
  | look h hrest ih => exact Nat.succ_le_succ ih

theorem Inspects.eq_nil (h : Inspects 0 0 keys closeAttempts selectAttempts found) : found = [] := by
  cases h with
  | nil => rfl
  | stop => rfl
  | look hcaps => exact absurd ⟨Nat.zero_le _, Nat.zero_le _⟩ hcaps

theorem not_actsOn {selects : ℕ} (hfound : ∀ p ∈ found, p.1 ≠ key) : ¬ ActsOn selects found key := by
  rintro (h | h)
  · obtain ⟨p, hp, hkey⟩ := List.mem_map.mp h
    exact hfound p (List.mem_of_mem_filter hp) hkey
  · obtain ⟨p, hp, hkey⟩ := List.mem_map.mp h
    exact hfound p (List.mem_of_mem_filter (List.mem_of_mem_take hp)) hkey

theorem actsOn_cons (closeAttempts : ℕ) {other : ℕ} :
    ActsOn (maxSelects - selectAttempts) ((other, f) :: found) key ↔
      (key = other ∧ (f = .withoutBids ∨ f = .withBids ∧ selectAttempts < maxSelects)) ∨
        ActsOn (maxSelects - (f.next maxSelects closeAttempts selectAttempts).2) found key := by
  unfold ActsOn
  rw [dispatched_cons _ closeAttempts]
  cases f with
  | passedOver => simp [closed]
  | withoutBids => simp [closed, or_assoc]
  | withBids =>
    rw [Finding.next_withBids, Finding.starts_withBids]
    split_ifs with hcap
    · have hlt : ¬ selectAttempts < maxSelects := not_lt.mpr hcap
      simp [closed, hlt]
    · have hlt : selectAttempts < maxSelects := not_le.mp hcap
      simp only [closed, List.filter_cons, reduceCtorEq, decide_false, Bool.false_eq_true, if_false, false_or,
        hlt, and_true, List.singleton_append, List.mem_cons]
      exact or_left_comm

/-- Whether the cycle acts on a job depends on the jobs before it. -/
theorem Inspects.actsOn_iff
    (h : Inspects maxCloses maxSelects (before ++ key :: behind) closeAttempts selectAttempts found)
    (hkind : ∀ p ∈ found, p.2 = kind p.1) (hexpired : kind key ≠ .passedOver) (hbefore : key ∉ before)
    (hbehind : key ∉ behind) :
    ActsOn (maxSelects - selectAttempts) found key ↔
      selectAttempts + numOf kind .withBids before < maxSelects ∨
        kind key = .withoutBids ∧ closeAttempts + numOf kind .withoutBids before < maxCloses := by
  induction before generalizing closeAttempts selectAttempts found with
  | nil =>
    have hnone : ∀ f, numOf kind f [] = 0 := fun _ => rfl
    rw [hnone, hnone, Nat.add_zero, Nat.add_zero]
    cases h with
    | stop hcaps =>
      have hnot : ¬ ActsOn (maxSelects - selectAttempts) [] key := not_actsOn (by simp)
      exact iff_of_false hnot (by omega)
    | @look _ _ _ _ f found hcaps hrest =>
      have hf : f = kind key := hkind _ List.mem_cons_self
      have hnot : ¬ ActsOn (maxSelects - (f.next maxSelects closeAttempts selectAttempts).2) found key :=
        not_actsOn fun p hp hkey => hbehind (hkey ▸ hrest.subset p hp)
      rw [actsOn_cons closeAttempts, hf]
      rw [hf] at hnot
      have hcases : kind key = .withBids ∨ kind key = .withoutBids := by
        cases hkey : kind key with
        | passedOver => exact absurd hkey hexpired
        | withBids => exact .inl rfl
        | withoutBids => exact .inr rfl
      rcases hcases with hkey | hkey
      · rw [hkey] at hnot ⊢
        simp only [hnot, or_false, true_and, reduceCtorEq, false_and, false_or]
      · rw [hkey] at hnot ⊢
        simp only [hnot, or_false, true_and, true_or, true_iff]
        omega
  | cons other before ih =>
    have hne : key ≠ other := fun heq => hbefore (heq ▸ List.mem_cons_self)
    have hbefore' : key ∉ before := fun hmem => hbefore (List.mem_cons_of_mem _ hmem)
    rw [numOf_cons, numOf_cons]
    cases h with
    | stop hcaps =>
      have hnot : ¬ ActsOn (maxSelects - selectAttempts) [] key := not_actsOn (by simp)
      exact iff_of_false hnot (by omega)
    | @look _ _ _ _ f found hcaps hrest =>
      have hf : f = kind other := hkind _ List.mem_cons_self
      rw [actsOn_cons closeAttempts, ih hrest (fun p hp => hkind p (List.mem_cons_of_mem _ hp)) hbefore', ← hf]
      simp only [hne, false_and, false_or]
      cases f with
      | passedOver => simp
      | withoutBids => simp [Nat.add_assoc]
      | withBids =>
        rw [Finding.next_withBids]
        by_cases hcap : maxSelects ≤ selectAttempts
        · -- The selections are used up, so that the counts of bids do not matter any more.
          have hold : ¬ selectAttempts + (1 + numOf kind .withBids before) < maxSelects := by omega
          have hnew : ¬ selectAttempts + numOf kind .withBids before < maxSelects := by omega
          simp [hcap, hold, hnew]
        · simp [hcap, Nat.add_assoc]

/-- A job without bids that comes behind as many such jobs as may be closed comes behind as many jobs with bids as may
have a selection started, so that the cycle does not come to it. -/
def ClosesCapped (maxCloses maxSelects : ℕ) (kind : ℕ → Finding) (closeAttempts selectAttempts : ℕ)
    (keys : List ℕ) : Prop :=
  ∀ before key behind, keys = before ++ key :: behind → kind key = .withoutBids →
    maxCloses ≤ closeAttempts + numOf kind .withoutBids before →
      maxSelects ≤ selectAttempts + numOf kind .withBids before

theorem closesCapped_nil : ClosesCapped maxCloses maxSelects kind closeAttempts selectAttempts [] :=
  fun _ _ _ heq => absurd heq.symm (List.append_ne_nil_of_right_ne_nil _ (List.cons_ne_nil _ _))

theorem closesCapped_cons : ClosesCapped maxCloses maxSelects kind closeAttempts selectAttempts (key :: keys) ↔
    (kind key = .withoutBids → maxCloses ≤ closeAttempts → maxSelects ≤ selectAttempts) ∧
      ∀ before key' behind, keys = before ++ key' :: behind → kind key' = .withoutBids →
        maxCloses ≤ closeAttempts + ((if kind key = .withoutBids then 1 else 0) + numOf kind .withoutBids before) →
          maxSelects ≤ selectAttempts + ((if kind key = .withBids then 1 else 0) + numOf kind .withBids before) := by
  constructor
  · intro h
    refine ⟨h [] key keys rfl, fun before key' behind heq hkey' hcloses => ?_⟩
    have hselects := h (key :: before) key' behind (by rw [heq, List.cons_append]) hkey'
    rw [numOf_cons, numOf_cons] at hselects
    exact hselects hcloses
  · rintro ⟨hfirst, hrest⟩ before key' behind heq hkey' hcloses
    cases before with
    | nil =>
      obtain ⟨rfl, -⟩ := List.cons_eq_cons.mp heq
      exact hfirst hkey' hcloses
    | cons _ before =>
      obtain ⟨rfl, htail⟩ := List.cons_eq_cons.mp heq
      rw [numOf_cons] at hcloses ⊢
      exact hrest before key' behind htail hkey' hcloses

theorem Inspects.closes_le_iff (h : Inspects maxCloses maxSelects keys closeAttempts selectAttempts found)
    (hkind : ∀ p ∈ found, p.2 = kind p.1) (hle : closeAttempts ≤ maxCloses) :
    closeAttempts + (closed found).length ≤ maxCloses ↔
      ClosesCapped maxCloses maxSelects kind closeAttempts selectAttempts keys := by
  induction h with
  | nil => exact iff_of_true hle closesCapped_nil
  | stop hcaps => exact iff_of_true hle fun _ _ _ _ _ _ => hcaps.2.trans (Nat.le_add_right _ _)
  | @look key keys closeAttempts selectAttempts f found hcaps hrest ih =>
    have hf : f = kind key := hkind _ List.mem_cons_self
    have hkind' : ∀ p ∈ found, p.2 = kind p.1 := fun p hp => hkind p (List.mem_cons_of_mem _ hp)
    rw [closesCapped_cons, ← hf]
    cases f with
    | passedOver => simpa [closed, ClosesCapped] using ih hkind' hle
    | withBids =>
      have hclosed : closed ((key, Finding.withBids) :: found) = closed found := rfl
      rw [hclosed]
      by_cases hcap : maxSelects ≤ selectAttempts
      · -- The selections are used up, and the closes are not: they are capped however many there are.
        rw [Finding.next_withBids, if_pos hcap] at ih
        refine (ih hkind' hle).trans (iff_of_true ?_ ⟨fun _ _ => hcap, ?_⟩)
        · exact fun _ _ _ _ _ _ => hcap.trans (Nat.le_add_right _ _)
        · exact fun _ _ _ _ _ _ => hcap.trans (Nat.le_add_right _ _)
      · rw [Finding.next_withBids, if_neg hcap] at ih
        simpa [ClosesCapped, Nat.add_assoc] using ih hkind' hle
    | withoutBids =>
      have hclosed : (closed ((key, Finding.withoutBids) :: found)).length = (closed found).length + 1 := rfl
      rw [hclosed]
      rcases Nat.lt_or_ge closeAttempts maxCloses with hlt | hge
      · have hih := ih hkind' hlt
        rw [Finding.next_withoutBids] at hih
        have hnot : ¬ maxCloses ≤ closeAttempts := not_le.mpr hlt
        simpa [ClosesCapped, Nat.add_assoc, Nat.add_comm, Nat.add_left_comm, hnot] using hih
      · have hselects : ¬ maxSelects ≤ selectAttempts := fun h => hcaps ⟨hge, h⟩
        refine iff_of_false (by omega) fun h => hselects (h.1 rfl hge)

theorem exists_inspects (maxCloses maxSelects : ℕ) (kind : ℕ → Finding) (keys : List ℕ)
    (closeAttempts selectAttempts : ℕ) : ∃ found,
      Inspects maxCloses maxSelects keys closeAttempts selectAttempts found ∧ ∀ p ∈ found, p.2 = kind p.1 := by
  induction keys generalizing closeAttempts selectAttempts with
  | nil => exact ⟨[], .nil, by simp⟩
  | cons key keys ih =>
    by_cases hcaps : maxCloses ≤ closeAttempts ∧ maxSelects ≤ selectAttempts
    · exact ⟨[], .stop hcaps, by simp⟩
    · obtain ⟨found, hrest, hkind⟩ := ih ((kind key).next maxSelects closeAttempts selectAttempts).1
        ((kind key).next maxSelects closeAttempts selectAttempts).2
      refine ⟨(key, kind key) :: found, .look hcaps hrest, fun p hp => ?_⟩
      rcases List.mem_cons.mp hp with rfl | hp
      · rfl
      · exact hkind p hp

/-! ## Runs of cycles -/

/-- The number of jobs in the window of a cycle. -/
def inspectCount (cfg : Config) (activeIds : List ℕ) : ℕ :=
  min (max 1 cfg.staleAuctionReconcileMaxInspectPerCycle) activeIds.length

/-- The distance of the places at which cycles start. -/
def stride (cfg : Config) (activeIds : List ℕ) : ℕ := activeIds.length.gcd (inspectCount cfg activeIds)

/-- Cycles over the same active jobs, one after the other, with the memory before each, the tasks that it starts, and
what it finds. Between two cycles, nobody writes the cursor. -/
def Reconciles (cfg : Config) (activeIds : List ℕ) (ms : ℕ → Memory) (ss : ℕ → List Start)
    (founds : ℕ → List (ℕ × Finding)) : Prop :=
  ∀ t, ∃ m', Comes LeavesCursor (inspectActive cfg activeIds) (ms t) (ss t) (.ok (founds t)) m' ∧
    LeavesCursor m' (ms (t + 1))

/-- What is promised of cycles over jobs of which it is known what each of them is: the caps hold, and there is a
number of cycles in which each expired auction is acted on. -/
structure Promised (cfg : Config) (activeIds : List ℕ) (kind : ℕ → Finding) (ss : ℕ → List Start)
    (founds : ℕ → List (ℕ × Finding)) : Prop where
  closes : ∀ t, (closed (founds t)).length ≤ cfg.staleAuctionReconcileMaxPerCycle
  selects : ∀ t, (ss t).length ≤ cfg.staleAuctionReconcileMaxSelectsPerCycle
  inspects : ∀ t, (founds t).length ≤ cfg.staleAuctionReconcileMaxInspectPerCycle
  acts : ∃ bound, ∀ key ∈ activeIds, kind key ≠ .passedOver →
    ∃ t < bound, ActsOn cfg.staleAuctionReconcileMaxSelectsPerCycle (founds t) key

/-- When the promises are kept, wherever the cursor is. -/
structure Balanced (cfg : Config) (activeIds : List ℕ) (kind : ℕ → Finding) : Prop where
  /-- No job without bids is one too many in a window, unless there are enough jobs with bids before it. -/
  closes : ∀ s, ClosesCapped cfg.staleAuctionReconcileMaxPerCycle cfg.staleAuctionReconcileMaxSelectsPerCycle kind 0 0
    (window activeIds s (inspectCount cfg activeIds))
  /-- The cap on the inspections is not zero, or nothing is inspected. -/
  inspects : activeIds = [] ∨ 0 < cfg.staleAuctionReconcileMaxInspectPerCycle ∨
    cfg.staleAuctionReconcileMaxPerCycle = 0 ∧ cfg.staleAuctionReconcileMaxSelectsPerCycle = 0
  /-- Not too many jobs with bids are among the ones before an expired auction, up to the distance of the starts. -/
  acts : ∀ j key, activeIds[j]? = some key → kind key ≠ .passedOver →
    Reached cfg.staleAuctionReconcileMaxPerCycle cfg.staleAuctionReconcileMaxSelectsPerCycle kind
      (window activeIds (j + activeIds.length - (stride cfg activeIds - 1)) (stride cfg activeIds - 1)) key

variable {cfg : Config} {activeIds : List ℕ} {m m' : Memory} {ss : List Start}

theorem comes_inspectActive (hne : activeIds ≠ [])
    (h : Comes LeavesCursor (inspectActive cfg activeIds) m ss (.ok found) m') :
    Inspects cfg.staleAuctionReconcileMaxPerCycle cfg.staleAuctionReconcileMaxSelectsPerCycle
      (window activeIds m.staleAuctionReconcileCursor (inspectCount cfg activeIds)) 0 0 found ∧
    Selections ss (dispatched cfg.staleAuctionReconcileMaxSelectsPerCycle found) ∧
    m'.staleAuctionReconcileCursor =
      (m.staleAuctionReconcileCursor % activeIds.length + inspectCount cfg activeIds) % activeIds.length := by
  obtain ⟨nowMs, h⟩ := h
  change Comes _ (ite _ _ _) _ _ _ _ at h
  rw [if_neg hne] at h
  obtain ⟨_, hres, hinspects, hstarts, hcursor⟩ := comes_inspectJobs h
  rw [← Except.ok.inj hres] at hinspects hstarts
  rw [← window_mod]
  exact ⟨hinspects, hstarts, hcursor⟩

theorem exists_comes_inspectActive (hne : activeIds ≠ []) (hnodup : activeIds.Nodup) (c : ℕ)
    (h : Inspects cfg.staleAuctionReconcileMaxPerCycle cfg.staleAuctionReconcileMaxSelectsPerCycle
      (window activeIds c (inspectCount cfg activeIds)) 0 0 found) :
    ∃ ss m', Comes LeavesCursor (inspectActive cfg activeIds)
      { Memory.empty with staleAuctionReconcileCursor := c } ss (.ok found) m' := by
  rw [← window_mod] at h
  have hwindow : (window activeIds (c % activeIds.length) (inspectCount cfg activeIds)).Nodup :=
    (List.take_sublist _ _).nodup (List.nodup_rotate.mpr hnodup)
  obtain ⟨ss, m', hloop⟩ := exists_comes_inspectJobs cfg (le_refl 1000) hwindow
    (m := { Memory.empty with
      staleAuctionReconcileCursor := (c % activeIds.length + inspectCount cfg activeIds) % activeIds.length })
    (fun _ _ => ⟨rfl, rfl, rfl⟩) h
  refine ⟨ss, m', 1000, ?_⟩
  change Comes _ (ite _ _ _) _ _ _ _
  rw [if_neg hne]
  exact hloop

theorem Reconciles.cursor {ms : ℕ → Memory} {ss : ℕ → List Start} {founds : ℕ → List (ℕ × Finding)}
    (hne : activeIds ≠ []) (h : Reconciles cfg activeIds ms ss founds) (t : ℕ) :
    (ms t).staleAuctionReconcileCursor % activeIds.length =
      ((ms 0).staleAuctionReconcileCursor + t * inspectCount cfg activeIds) % activeIds.length := by
  induction t with
  | zero => rw [Nat.zero_mul, Nat.add_zero]
  | succ t ih =>
    obtain ⟨m', hcycle, hcursor⟩ := h t
    rw [hcursor, (comes_inspectActive hne hcycle).2.2, Nat.mod_mod, ih, Nat.mod_add_mod]
    ring_nf

/-! ## The conditions are enough -/

theorem numOf_append (kind : ℕ → Finding) (f : Finding) (keys keys' : List ℕ) :
    numOf kind f (keys ++ keys') = numOf kind f keys + numOf kind f keys' := List.countP_append

theorem Reached.of_append (h : Reached maxCloses maxSelects kind (keys ++ before) key) :
    Reached maxCloses maxSelects kind before key := by
  unfold Reached at h ⊢
  rw [numOf_append, numOf_append] at h
  rcases h with h | ⟨hkey, h⟩
  · exact .inl (by omega)
  · exact .inr ⟨hkey, by omega⟩

theorem inspectCount_le (cfg : Config) (activeIds : List ℕ) : inspectCount cfg activeIds ≤ activeIds.length :=
  Nat.min_le_right _ _

theorem inspectCount_pos (cfg : Config) (hne : activeIds ≠ []) : 0 < inspectCount cfg activeIds := by
  have hpos := List.length_pos_iff.mpr hne
  unfold inspectCount
  omega

theorem stride_le (cfg : Config) (hne : activeIds ≠ []) : stride cfg activeIds ≤ inspectCount cfg activeIds :=
  Nat.gcd_le_right _ (inspectCount_pos cfg hne)

theorem actsOn_iff_reached {s d : ℕ} (hnodup : activeIds.Nodup)
    (h : Inspects maxCloses maxSelects (window activeIds s (inspectCount cfg activeIds)) 0 0 found)
    (hkind : ∀ p ∈ found, p.2 = kind p.1) (hexpired : kind key ≠ .passedOver) (hd : d < inspectCount cfg activeIds)
    (hplace : activeIds[(s + d) % activeIds.length]? = some key) :
    ActsOn maxSelects found key ↔ Reached maxCloses maxSelects kind (window activeIds s d) key := by
  obtain ⟨behind, hsplit⟩ := window_split hd (inspectCount_le cfg activeIds) hplace
  have hwindow : (window activeIds s (inspectCount cfg activeIds)).Nodup :=
    (List.take_sublist _ _).nodup (List.nodup_rotate.mpr hnodup)
  rw [hsplit] at h hwindow
  obtain ⟨-, htail, hdisjoint⟩ := List.nodup_append.mp hwindow
  have hbefore : key ∉ window activeIds s d := fun hmem => hdisjoint key hmem key List.mem_cons_self rfl
  have hacts := h.actsOn_iff hkind hexpired hbefore (List.nodup_cons.mp htail).1
  rw [Nat.sub_zero, Nat.zero_add, Nat.zero_add] at hacts
  exact hacts

/-- In every run of cycles that are balanced, the promises are kept. -/
theorem Balanced.promised (hb : Balanced cfg activeIds kind) (hnodup : activeIds.Nodup) {ms : ℕ → Memory}
    {ss : ℕ → List Start} {founds : ℕ → List (ℕ × Finding)} (h : Reconciles cfg activeIds ms ss founds)
    (hkind : ∀ t, ∀ p ∈ founds t, p.2 = kind p.1) : Promised cfg activeIds kind ss founds := by
  rcases eq_or_ne activeIds [] with rfl | hne
  · -- Without active jobs a cycle does nothing.
    have hnothing : ∀ t, ss t = [] ∧ founds t = [] := by
      intro t
      obtain ⟨m', ⟨nowMs, hss, hfound, -⟩, -⟩ := h t
      exact ⟨hss, Except.ok.inj hfound⟩
    refine ⟨fun t => ?_, fun t => ?_, fun t => ?_, 0, fun key hkey => absurd hkey List.not_mem_nil⟩
    · rw [(hnothing t).2]
      exact Nat.zero_le _
    · rw [(hnothing t).1]
      exact Nat.zero_le _
    · rw [(hnothing t).2]
      exact Nat.zero_le _
  have hcycle : ∀ t, Inspects cfg.staleAuctionReconcileMaxPerCycle cfg.staleAuctionReconcileMaxSelectsPerCycle
      (window activeIds (ms t).staleAuctionReconcileCursor (inspectCount cfg activeIds)) 0 0 (founds t) ∧
      Selections (ss t) (dispatched cfg.staleAuctionReconcileMaxSelectsPerCycle (founds t)) := by
    intro t
    obtain ⟨m', hcomes, -⟩ := h t
    obtain ⟨hinspects, hstarts, -⟩ := comes_inspectActive hne hcomes
    exact ⟨hinspects, hstarts⟩
  constructor
  · intro t
    have hle := ((hcycle t).1.closes_le_iff (hkind t) (Nat.zero_le _)).mpr (hb.closes _)
    rwa [Nat.zero_add] at hle
  · intro t
    rw [(hcycle t).2.length_eq, dispatched, List.length_map, List.length_take]
    exact Nat.min_le_left _ _
  · intro t
    have hlength := (hcycle t).1.length_le
    rw [length_window (inspectCount_le cfg activeIds)] at hlength
    rcases hb.inspects with hempty | hpos | ⟨hcloses, hselects⟩
    · exact absurd hempty hne
    · unfold inspectCount at hlength
      omega
    · -- Both caps are reached before the first job.
      have hinspects := (hcycle t).1
      rw [hcloses, hselects] at hinspects
      rw [hinspects.eq_nil]
      exact Nat.zero_le _
  · refine ⟨activeIds.length, fun key hkey hexpired => ?_⟩
    obtain ⟨j, hj⟩ := List.mem_iff_getElem?.mp hkey
    have hlt := (List.getElem?_eq_some_iff.mp hj).1
    obtain ⟨t, ht, d, hd, hround⟩ := @exists_round _ (inspectCount cfg activeIds) _ (by omega)
      (ms 0).staleAuctionReconcileCursor hlt
    have hreached := hb.acts j key hj hexpired
    have hcursor := h.cursor hne t
    have hstride := stride_le cfg hne
    have hcount := inspectCount_le cfg activeIds
    change d < stride cfg activeIds at hd
    refine ⟨t, ht, ?_⟩
    have hinspects := (hcycle t).1
    rw [window_congr hcursor] at hinspects
    have hdlt : d < inspectCount cfg activeIds := by omega
    rw [← hround] at hj
    rw [actsOn_iff_reached hnodup hinspects (hkind t) hexpired hdlt hj]
    -- The jobs before it in the window are the last ones of those that are not too many.
    obtain ⟨e, he⟩ : ∃ e, stride cfg activeIds - 1 = e + d := ⟨stride cfg activeIds - 1 - d, by omega⟩
    rw [he, window_add (by omega)] at hreached
    have hstart : (j + activeIds.length - (e + d) + e) % activeIds.length =
        ((ms 0).staleAuctionReconcileCursor + t * inspectCount cfg activeIds) % activeIds.length := by
      rw [show j + activeIds.length - (e + d) + e = j + activeIds.length - d by omega]
      exact place_before hround (by omega)
    rw [window_congr hstart] at hreached
    exact hreached.of_append

/-! ## The conditions are needed -/

theorem exists_reconciles (cfg : Config) (hne : activeIds ≠ []) (hnodup : activeIds.Nodup) (kind : ℕ → Finding)
    (c : ℕ) : ∃ ms ss founds, Reconciles cfg activeIds ms ss founds ∧
      (∀ t, ∀ p ∈ founds t, p.2 = kind p.1) ∧ (ms 0).staleAuctionReconcileCursor = c := by
  have hcycle : ∀ c, ∃ found ss m', Comes LeavesCursor (inspectActive cfg activeIds)
      { Memory.empty with staleAuctionReconcileCursor := c } ss (.ok found) m' ∧ ∀ p ∈ found, p.2 = kind p.1 := by
    intro c
    obtain ⟨found, hinspects, hkind⟩ := exists_inspects cfg.staleAuctionReconcileMaxPerCycle
      cfg.staleAuctionReconcileMaxSelectsPerCycle kind (window activeIds c (inspectCount cfg activeIds)) 0 0
    obtain ⟨ss, m', hcomes⟩ := exists_comes_inspectActive hne hnodup c hinspects
    exact ⟨found, ss, m', hcomes, hkind⟩
  choose found ss m' hcomes hkind using hcycle
  -- Each cycle starts where the one before has left the cursor.
  let cursor : ℕ → ℕ := Nat.rec c fun _ x => (m' x).staleAuctionReconcileCursor
  refine ⟨fun t => { Memory.empty with staleAuctionReconcileCursor := cursor t }, fun t => ss (cursor t),
    fun t => found (cursor t), fun t => ⟨m' (cursor t), hcomes (cursor t), rfl⟩, fun t => hkind (cursor t), rfl⟩

/-- If the promises are kept in every run, the cycles are balanced. -/
theorem balanced_of_promised (hnodup : activeIds.Nodup)
    (h : ∀ ms ss founds, Reconciles cfg activeIds ms ss founds → (∀ t, ∀ p ∈ founds t, p.2 = kind p.1) →
      Promised cfg activeIds kind ss founds) : Balanced cfg activeIds kind := by
  rcases eq_or_ne activeIds [] with rfl | hne
  · refine ⟨fun s => ?_, .inl rfl, fun j key hj => by simp at hj⟩
    rw [window, List.rotate_nil, List.take_nil]
    exact closesCapped_nil
  have hrun : ∀ c, ∃ founds, (∀ t, ∀ p ∈ founds t, p.2 = kind p.1) ∧
      (∀ t, Inspects cfg.staleAuctionReconcileMaxPerCycle cfg.staleAuctionReconcileMaxSelectsPerCycle
        (window activeIds (c + t * inspectCount cfg activeIds) (inspectCount cfg activeIds)) 0 0 (founds t)) ∧
      ∃ ss, Promised cfg activeIds kind ss founds := by
    intro c
    obtain ⟨ms, ss, founds, hrun, hkind, hcursor⟩ := exists_reconciles cfg hne hnodup kind c
    refine ⟨founds, hkind, fun t => ?_, ss, h ms ss founds hrun hkind⟩
    obtain ⟨m', hcomes, -⟩ := hrun t
    have hinspects := (comes_inspectActive hne hcomes).1
    rw [window_congr (hrun.cursor hne t), hcursor] at hinspects
    exact hinspects
  constructor
  · intro s
    obtain ⟨founds, hkind, hinspects, ss, hpromised⟩ := hrun s
    have hfirst := hinspects 0
    rw [Nat.zero_mul, Nat.add_zero] at hfirst
    refine (hfirst.closes_le_iff (hkind 0) (Nat.zero_le _)).mp ?_
    rw [Nat.zero_add]
    exact hpromised.closes 0
  · obtain ⟨founds, hkind, hinspects, ss, hpromised⟩ := hrun 0
    have hlength := hpromised.inspects 0
    have hfirst := hinspects 0
    have hpos : 0 < (window activeIds (0 + 0 * inspectCount cfg activeIds) (inspectCount cfg activeIds)).length := by
      rw [length_window (inspectCount_le cfg activeIds)]
      exact inspectCount_pos cfg hne
    generalize window activeIds (0 + 0 * inspectCount cfg activeIds) (inspectCount cfg activeIds) = keys at *
    generalize founds 0 = found at *
    cases hfirst with
    | nil => exact absurd hpos (Nat.lt_irrefl 0)
    | stop hcaps => exact .inr (.inr ⟨Nat.le_zero.mp hcaps.1, Nat.le_zero.mp hcaps.2⟩)
    | look hcaps hrest => exact .inr (.inl (Nat.lt_of_lt_of_le (Nat.succ_pos _) hlength))
  · intro j key hj hexpired
    have hlt := (List.getElem?_eq_some_iff.mp hj).1
    obtain ⟨c, hlate⟩ := @exists_late activeIds.length (inspectCount cfg activeIds) j
    obtain ⟨founds, hkind, hinspects, ss, hpromised⟩ := hrun c
    obtain ⟨bound, hacts⟩ := hpromised.acts
    obtain ⟨t, -, hact⟩ := hacts key (List.mem_of_getElem? hj) hexpired
    -- The job is in the window of that cycle, with all that are too many before it.
    have hmem : key ∈ window activeIds (c + t * inspectCount cfg activeIds) (inspectCount cfg activeIds) := by
      by_contra hnot
      refine not_actsOn (fun p hp hkey => hnot ?_) hact
      rw [← hkey]
      exact (hinspects t).subset p hp
    obtain ⟨d, hd, hplace⟩ := exists_place hmem
    have hreached := (actsOn_iff_reached hnodup (hinspects t) (hkind t) hexpired hd hplace).mp hact
    have hround : (c + t * inspectCount cfg activeIds + d) % activeIds.length = j := by
      have hlt' := (List.getElem?_eq_some_iff.mp hplace).1
      exact (List.getElem?_inj hlt' hnodup).mp (hplace.trans hj.symm)
    have hle : stride cfg activeIds ≤ d + 1 := hlate t d (by rw [hround, Nat.mod_eq_of_lt hlt])
    have hcount := inspectCount_le cfg activeIds
    obtain ⟨e, rfl⟩ : ∃ e, d = e + (stride cfg activeIds - 1) := ⟨d - (stride cfg activeIds - 1), by omega⟩
    rw [window_add (by omega)] at hreached
    have hstart : (j + activeIds.length - (stride cfg activeIds - 1)) % activeIds.length =
        (c + t * inspectCount cfg activeIds + e) % activeIds.length :=
      place_before (by rw [Nat.add_assoc, hround]) (by omega)
    rw [window_congr hstart]
    exact hreached.of_append

theorem numOf_le (kind : ℕ → Finding) (f : Finding) (keys : List ℕ) : numOf kind f keys ≤ keys.length :=
  List.countP_le_length

theorem balanced_of_few (hcloses : activeIds.length ≤ cfg.staleAuctionReconcileMaxPerCycle)
    (hselects : activeIds.length ≤ cfg.staleAuctionReconcileMaxSelectsPerCycle)
    (hinspects : 0 < cfg.staleAuctionReconcileMaxInspectPerCycle) : Balanced cfg activeIds kind where
  closes s before key behind heq _ hle := by
    have hlength := congrArg List.length heq
    rw [length_window (inspectCount_le cfg activeIds), List.length_append, List.length_cons] at hlength
    have hcount := inspectCount_le cfg activeIds
    have hnum := numOf_le kind .withoutBids before
    omega
  inspects := .inr (.inl hinspects)
  acts j key hj _ := by
    have hlt := (List.getElem?_eq_some_iff.mp hj).1
    have hpos : 0 < stride cfg activeIds := Nat.gcd_pos_of_pos_left _ (by omega)
    have hstride : stride cfg activeIds ≤ activeIds.length := Nat.gcd_le_left _ (by omega)
    have hnum := numOf_le kind .withBids
      (window activeIds (j + activeIds.length - (stride cfg activeIds - 1)) (stride cfg activeIds - 1))
    rw [length_window (by omega)] at hnum
    exact .inl (by omega)

/-- For every list of different active jobs of which it is known what each of them is: in every run of cycles, from
every cursor on, the caps hold and every expired auction is acted on in some number of cycles, exactly if the cycles
are balanced. -/
theorem promised_iff (hnodup : activeIds.Nodup) :
    (∀ ms ss founds, Reconciles cfg activeIds ms ss founds → (∀ t, ∀ p ∈ founds t, p.2 = kind p.1) →
      Promised cfg activeIds kind ss founds) ↔ Balanced cfg activeIds kind :=
  ⟨balanced_of_promised hnodup, fun hb _ _ _ hrun hkind => hb.promised hnodup hrun hkind⟩

/-- The first job has bids, and the others have none. -/
def sampleKind (key : ℕ) : Finding := if key = 1 then .withBids else .withoutBids

/-- Two jobs, one with bids and one without, and caps of ten. -/
theorem promised_iff_sample : Balanced sampleConfig [1, 2] sampleKind ∧
    ∀ ms ss founds, Reconciles sampleConfig [1, 2] ms ss founds → (∀ t, ∀ p ∈ founds t, p.2 = sampleKind p.1) →
      Promised sampleConfig [1, 2] sampleKind ss founds := by
  have hbalanced : Balanced sampleConfig [1, 2] sampleKind :=
    balanced_of_few (by decide) (by decide) (by decide)
  exact ⟨hbalanced, (@promised_iff sampleKind sampleConfig [1, 2] (by decide)).mpr hbalanced⟩

/-- Settings with one close and one selection a cycle. -/
def tightConfig : Config :=
  { sampleConfig with staleAuctionReconcileMaxPerCycle := 1, staleAuctionReconcileMaxSelectsPerCycle := 1 }

/-- Of two expired auctions without bids both are closed in one cycle, and of two with bids the second one is never
acted on. -/
theorem not_promised : (∃ ms ss founds, Reconciles tightConfig [1, 2] ms ss founds ∧
      (∀ t, ∀ p ∈ founds t, p.2 = .withoutBids) ∧ ¬ (closed (founds 0)).length ≤ 1) ∧
    ∃ ms ss founds, Reconciles tightConfig [1, 2] ms ss founds ∧ (∀ t, ∀ p ∈ founds t, p.2 = .withBids) ∧
      ∀ t, ¬ ActsOn 1 (founds t) 2 := by
  have hne : [1, 2] ≠ ([] : List ℕ) := List.cons_ne_nil _ _
  constructor
  · obtain ⟨ms, ss, founds, hrun, hkind, hcursor⟩ :=
      exists_reconciles tightConfig hne (by decide) (fun _ => .withoutBids) 0
    refine ⟨ms, ss, founds, hrun, hkind, fun hle => ?_⟩
    obtain ⟨m', hcomes, -⟩ := hrun 0
    have hinspects := (comes_inspectActive hne hcomes).1
    rw [hcursor] at hinspects
    have hcapped := (@Inspects.closes_le_iff _ _ _ _ _ (fun _ => .withoutBids) _ hinspects (hkind 0)
      (Nat.zero_le _)).mp (by rw [Nat.zero_add]; exact hle)
    have hselects := hcapped [1] 2 [] rfl rfl (by decide)
    exact absurd hselects (by decide)
  · obtain ⟨ms, ss, founds, hrun, hkind, hcursor⟩ :=
      exists_reconciles tightConfig hne (by decide) (fun _ => .withBids) 0
    refine ⟨ms, ss, founds, hrun, hkind, fun t hact => ?_⟩
    obtain ⟨m', hcomes, -⟩ := hrun t
    have hinspects := (comes_inspectActive hne hcomes).1
    -- Every cycle starts at the first job, since the window is the whole list.
    have hstart : (ms t).staleAuctionReconcileCursor % [1, 2].length = 0 % [1, 2].length := by
      rw [hrun.cursor hne t, hcursor]
      change (0 + t * 2) % 2 = 0
      omega
    rw [window_congr hstart] at hinspects
    have hreached := (@actsOn_iff_reached _ _ 2 (fun _ => .withBids) _ tightConfig [1, 2] 0 1 (by decide) hinspects
      (hkind t) (by decide) (by decide) rfl).mp hact
    unfold Reached at hreached
    exact absurd hreached (by decide)

end AuditGuard.Orchestrator
