import Mathlib.Data.List.Basic

/-!
# Labelled transition systems

A system is a set of initial states and a labelled step relation. `Reachable` is what its steps can reach, and `Run`
is a path with every transition it took, so that a property can speak about the order of steps and not only about the
states.

The proof rules are an inductive invariant, which may lean on what is already known of reachable states
(`Reachable.induct`); an invariant that the steps of a run keep which meet a
condition (`Run.throughout`); a property that a run keeps exactly when all its steps meet a condition
(`Run.forall_iff`, and `Run.forall_steps_iff` for a property of steps); and a state of affairs that a run leaves at
most once (`Run.leaves_le_one`).

## Computed runs

Where the steps of a system can be computed, a sequence of moves is played from a state, and what it leads to is read
off. `Plays.exists_run` turns a computation into a run, with the moves that its transitions come from.
-/

/-- A labelled transition system. -/
structure TransitionSystem (State Label : Type*) where
  /-- The initial states. -/
  init : State → Prop
  /-- One step, under its label. -/
  step : State → Label → State → Prop

/-- One transition of a run: where it starts, its label, and where it ends. -/
structure Transition (State Label : Type*) where
  /-- The state before. -/
  src : State
  /-- The label of the step. -/
  label : Label
  /-- The state after. -/
  dst : State

namespace TransitionSystem

variable {State Label : Type*} {S : TransitionSystem State Label}

/-- The states that the system can reach. -/
inductive Reachable (S : TransitionSystem State Label) : State → Prop
  | init {s : State} (h : S.init s) : Reachable S s
  | step {s t : State} {l : Label} (hs : Reachable S s) (h : S.step s l t) : Reachable S t

/-- The runs of the system: the transitions taken so far, in order, and the state they end in. -/
inductive Run (S : TransitionSystem State Label) : List (Transition State Label) → State → Prop
  | init {s : State} (h : S.init s) : Run S [] s
  | step {ts : List (Transition State Label)} {s t : State} {l : Label} (hr : Run S ts s)
      (h : S.step s l t) : Run S (ts ++ [⟨s, l, t⟩]) t

/-- A sequence of steps from `s`, with their labels in order. -/
inductive Path (step : State → Label → State → Prop) (s : State) : List Label → State → Prop
  | nil : Path step s [] s
  | snoc {t u : State} {ls : List Label} {l : Label} (h : Path step s ls t) (hstep : step t l u) :
      Path step s (ls ++ [l]) u

namespace Path

variable {step : State → Label → State → Prop} {s t u : State} {ls ls' : List Label} {l : Label}

theorem single (h : step s l t) : Path step s [l] t := .snoc .nil h

theorem of_nil (h : Path step s [] t) : t = s := by
  generalize hls : ([] : List Label) = ls at h
  cases h with
  | nil => rfl
  | snoc _ _ => simp at hls

theorem of_snoc (h : Path step s (ls ++ [l]) u) : ∃ t, Path step s ls t ∧ step t l u := by
  generalize hls : ls ++ [l] = ls' at h
  cases h with
  | nil => simp at hls
  | @snoc t _ ls' l' h hstep =>
    obtain ⟨rfl, hl⟩ := List.append_inj' hls rfl
    rw [List.singleton_inj.mp hl]
    exact ⟨t, h, hstep⟩

theorem of_singleton (h : Path step s [l] t) : step s l t := by
  obtain ⟨s', hnil, hstep⟩ := of_snoc (show Path step s ([] ++ [l]) t from h)
  rwa [hnil.of_nil] at hstep

theorem append (h : Path step s ls t) (h' : Path step t ls' u) : Path step s (ls ++ ls') u := by
  induction h' with
  | nil => simpa using h
  | snoc _ hstep ih =>
    rw [← List.append_assoc]
    exact .snoc ih hstep

theorem induct_mem {P : State → Prop} (h : Path step s ls t)
    (hP : ∀ s l t, l ∈ ls → P s → step s l t → P t) (hs : P s) : P t := by
  induction h with
  | nil => exact hs
  | snoc _ hstep ih =>
    refine hP _ _ _ (by simp) (ih fun s l t hl => ?_) hstep
    exact hP s l t (List.mem_append_left _ hl)

/-- What every step keeps holds at the end of a path. -/
theorem induct {P : State → Prop} (hP : ∀ s l t, P s → step s l t → P t) (hs : P s)
    (h : Path step s ls t) : P t := h.induct_mem (fun s l t _ => hP s l t) hs

end Path

/-- The system with only the steps that `allowed` admits. -/
def restrict (S : TransitionSystem State Label) (allowed : State → Label → Prop) :
    TransitionSystem State Label where
  init := S.init
  step s l t := allowed s l ∧ S.step s l t

/-- An invariant holds in every reachable state. -/
theorem Reachable.induct {I : State → Prop} (h0 : ∀ s, S.init s → I s)
    (hstep : ∀ s l t, S.Reachable s → I s → S.step s l t → I t) {s : State}
    (hs : S.Reachable s) : I s := by
  induction hs with
  | init h => exact h0 _ h
  | step hs h ih => exact hstep _ _ _ hs ih h

theorem Reachable.of_restrict {allowed : State → Label → Prop} {s : State}
    (hs : (S.restrict allowed).Reachable s) : S.Reachable s := by
  induction hs with
  | init h => exact .init h
  | step _ h ih => exact .step ih h.2

/-- A run ends in a reachable state. -/
theorem Run.reachable {ts : List (Transition State Label)} {s : State} (hr : S.Run ts s) :
    S.Reachable s := by
  induction hr with
  | init h => exact .init h
  | step _ h ih => exact .step ih h

/-- And every reachable state ends a run. -/
theorem Reachable.exists_run {s : State} (hs : S.Reachable s) : ∃ ts, S.Run ts s := by
  induction hs with
  | init h => exact ⟨[], .init h⟩
  | step _ h ih =>
    obtain ⟨ts, hr⟩ := ih
    exact ⟨_, .step hr h⟩

theorem Run.step_of_mem {ts : List (Transition State Label)} {s : State} (hr : S.Run ts s) :
    ∀ tr ∈ ts, S.Reachable tr.src ∧ S.step tr.src tr.label tr.dst := by
  induction hr with
  | init _ => simp
  | step hr h ih =>
    intro tr htr
    rcases List.mem_append.mp htr with htr | htr
    · exact ih tr htr
    · rw [List.mem_singleton] at htr
      subst htr
      exact ⟨hr.reachable, h⟩

/-- Each transition of a run comes after a run. -/
theorem Run.before {ts ts' : List (Transition State Label)} {tr : Transition State Label} {s : State}
    (hr : S.Run (ts ++ tr :: ts') s) : S.Run ts tr.src ∧ S.step tr.src tr.label tr.dst := by
  generalize hall : ts ++ tr :: ts' = all at hr
  induction hr generalizing ts' with
  | init _ => simp at hall
  | @step us s t l hr h ih =>
    rcases List.eq_nil_or_concat ts' with rfl | ⟨ts', last, rfl⟩
    · obtain ⟨rfl, hlast⟩ := List.append_inj' hall rfl
      rw [List.singleton_inj.mp hlast]
      exact ⟨hr, h⟩
    · rw [List.concat_eq_append, ← List.cons_append, ← List.append_assoc] at hall
      exact ih (List.append_inj' hall rfl).1

/-- `P` holds of every state that the run visits, its last one included. -/
def Throughout (P : State → Prop) (ts : List (Transition State Label)) (s : State) : Prop :=
  (∀ tr ∈ ts, P tr.src) ∧ P s

theorem Throughout.before_last {P : State → Prop} {ts : List (Transition State Label)} {s t : State}
    {l : Label} (h : Throughout P (ts ++ [⟨s, l, t⟩]) t) : Throughout P ts s :=
  ⟨fun tr htr => h.1 tr (List.mem_append_left _ htr), h.1 ⟨s, l, t⟩ (by simp)⟩

theorem Throughout.dst {P : State → Prop} {ts : List (Transition State Label)} {s : State}
    (h : Throughout P ts s) (hr : S.Run ts s) : ∀ tr ∈ ts, P tr.dst := by
  induction hr with
  | init _ => simp
  | step _ _ ih =>
    intro tr htr
    rcases List.mem_append.mp htr with htr | htr
    · exact ih h.before_last tr htr
    · rw [List.mem_singleton.mp htr]
      exact h.2

/-- An invariant that steps under a condition keep holds throughout a run of such steps. -/
theorem Run.throughout {I P : State → Prop} {C : State → Label → Prop} (h0 : ∀ s, S.init s → I s)
    (hstep : ∀ s l t, I s → C s l → S.step s l t → I t) (hP : ∀ s, I s → P s)
    {ts : List (Transition State Label)} {s : State} (hr : S.Run ts s) (hC : ∀ tr ∈ ts, C tr.src tr.label) :
    Throughout P ts s := by
  have hI : I s ∧ Throughout P ts s := by
    induction hr with
    | init h => exact ⟨h0 _ h, by simp, hP _ (h0 _ h)⟩
    | @step ts s t l hr h ih =>
      obtain ⟨hs, hthroughout⟩ := ih fun tr htr => hC tr (List.mem_append_left _ htr)
      have ht : I t := hstep s l t hs (hC ⟨s, l, t⟩ (by simp)) h
      refine ⟨ht, fun tr htr => ?_, hP t ht⟩
      rcases List.mem_append.mp htr with htr | htr
      · exact hthroughout.1 tr htr
      · rw [List.mem_singleton.mp htr]
        exact hP s hs
  exact hI.2

/-- Where each step keeps `P` exactly if it meets `C`, a run has `P` throughout exactly if all its steps do. -/
theorem Run.forall_iff {P : State → Prop} {C : State → Label → Prop} (h0 : ∀ s, S.init s → P s)
    (hstep : ∀ s l t, S.Reachable s → P s → S.step s l t → (P t ↔ C s l))
    {ts : List (Transition State Label)} {s : State} (hr : S.Run ts s) :
    Throughout P ts s ↔ ∀ tr ∈ ts, C tr.src tr.label := by
  induction hr with
  | init h => simp [Throughout, h0 _ h]
  | @step ts s t l hr h ih =>
    simp only [Throughout, List.mem_append, List.mem_singleton, or_imp, forall_and,
      forall_eq] at ih ⊢
    constructor
    · rintro ⟨⟨hts, hs⟩, ht⟩
      exact ⟨ih.mp ⟨hts, hs⟩, (hstep s l t hr.reachable hs h).mp ht⟩
    · rintro ⟨hC, hCs⟩
      obtain ⟨hts, hs⟩ := ih.mpr hC
      exact ⟨⟨hts, hs⟩, (hstep s l t hr.reachable hs h).mpr hCs⟩

/-- The same, with a property of each transition and an invariant beside them. -/
theorem Run.forall_steps_iff {I P : State → Prop} {K : State → Label → State → Prop} {C : State → Label → Prop}
    (h0 : ∀ s, S.init s → I s ∧ P s)
    (hstep : ∀ s l t, S.Reachable s → I s → S.step s l t → (K s l t ∧ P t ↔ C s l) ∧ (C s l → I t))
    {ts : List (Transition State Label)} {s : State} (hr : S.Run ts s) :
    (∀ tr ∈ ts, K tr.src tr.label tr.dst) ∧ Throughout P ts s ↔ ∀ tr ∈ ts, C tr.src tr.label := by
  have hI : ∀ {ts s}, S.Run ts s → (∀ tr ∈ ts, C tr.src tr.label) → I s := by
    intro ts s hr
    induction hr with
    | init h => exact fun _ => (h0 _ h).1
    | @step ts s t l hr h ih =>
      intro hC
      have hs : I s := ih fun tr htr => hC tr (List.mem_append_left _ htr)
      exact (hstep s l t hr.reachable hs h).2 (hC ⟨s, l, t⟩ (by simp))
  induction hr with
  | init h => simp [Throughout, (h0 _ h).2]
  | @step ts s t l hr h ih =>
    simp only [Throughout, List.mem_append, List.mem_singleton, or_imp, forall_and,
      forall_eq] at ih ⊢
    constructor
    · rintro ⟨⟨hKs, hK⟩, ⟨hts, hs⟩, ht⟩
      have hC := ih.mp ⟨hKs, hts, hs⟩
      exact ⟨hC, (hstep s l t hr.reachable (hI hr hC) h).1.mp ⟨hK, ht⟩⟩
    · rintro ⟨hC, hCs⟩
      obtain ⟨hKs, hts, hs⟩ := ih.mpr hC
      obtain ⟨hK, ht⟩ := (hstep s l t hr.reachable (hI hr hC) h).1.mpr hCs
      exact ⟨⟨hKs, hK⟩, ⟨hts, hs⟩, ht⟩

/-- What is left for good is left once at most. -/
theorem Run.leaves_le_one (P Gone : State → Prop) [DecidablePred P]
    (hleave : ∀ s l t, S.Reachable s → S.step s l t → P s → ¬ P t → Gone t)
    (hgone : ∀ s l t, S.Reachable s → S.step s l t → Gone s → Gone t)
    (hnot : ∀ s, Gone s → ¬ P s) {ts : List (Transition State Label)} {s : State}
    (hr : S.Run ts s) : ts.countP (fun tr => P tr.src ∧ ¬ P tr.dst) ≤ 1 := by
  -- Either nothing was left yet, or it is gone by now.
  suffices h : ts.countP (fun tr => P tr.src ∧ ¬ P tr.dst) = 0 ∨
      (ts.countP (fun tr => P tr.src ∧ ¬ P tr.dst) = 1 ∧ Gone s) by omega
  induction hr with
  | init _ => simp
  | @step ts s t l hr h ih =>
    rw [List.countP_append, List.countP_singleton]
    by_cases hl : P s ∧ ¬ P t
    · have h0 := ih.resolve_right fun hg => hnot s hg.2 hl.1
      rw [h0, if_pos (decide_eq_true hl)]
      exact .inr ⟨rfl, hleave s l t hr.reachable h hl.1 hl.2⟩
    · rw [if_neg (by simpa using hl), Nat.add_zero]
      exact ih.imp_right fun hg => ⟨hg.1, hgone s l t hr.reachable h hg.2⟩

end TransitionSystem

namespace TransitionSystem

variable {State Label Move α : Type*} {S : TransitionSystem State Label} {play : State → Move → Option State}
  {means : State → Move → Label → Prop} {s t : State} {moves : List Move} {ts : List (Transition State Label)}

/-- What can be played is a step, under a label that the move means. -/
def Plays (S : TransitionSystem State Label) (play : State → Move → Option State)
    (means : State → Move → Label → Prop) : Prop :=
  ∀ s move t, play s move = some t → ∃ l, means s move l ∧ S.step s l t

/-- The transition comes from the move. -/
structure ComesFrom (play : State → Move → Option State) (means : State → Move → Label → Prop)
    (tr : Transition State Label) (move : Move) : Prop where
  means : means tr.src move tr.label
  played : play tr.src move = some tr.dst

/-- A run goes on with the moves of a list. -/
theorem Plays.run (hplays : S.Plays play means) (hr : S.Run ts s) (h : moves.foldlM play s = some t) :
    ∃ ts', S.Run (ts ++ ts') t ∧ (∀ tr ∈ ts', ∃ move ∈ moves, ComesFrom play means tr move) ∧
      ∀ move ∈ moves, ∃ tr ∈ ts', ComesFrom play means tr move := by
  induction moves generalizing ts s with
  | nil =>
    obtain rfl := Option.some.inj h
    exact ⟨[], by rwa [List.append_nil], by simp, by simp⟩
  | cons move moves ih =>
    rw [List.foldlM_cons, Option.bind_eq_bind, Option.bind_eq_some_iff] at h
    obtain ⟨u, hu, h⟩ := h
    obtain ⟨l, hmeans, hstep⟩ := hplays s move u hu
    obtain ⟨ts', hr', hfrom, hto⟩ := ih (hr.step hstep) h
    rw [List.append_assoc] at hr'
    refine ⟨_, hr', fun tr htr => ?_, fun move' hmove => ?_⟩
    · rcases List.mem_append.mp htr with htr | htr
      · obtain rfl := List.mem_singleton.mp htr
        exact ⟨move, List.mem_cons_self, hmeans, hu⟩
      · obtain ⟨move', hmove, hcomes⟩ := hfrom tr htr
        exact ⟨move', List.mem_cons_of_mem _ hmove, hcomes⟩
    · rcases List.mem_cons.mp hmove with rfl | hmove
      · exact ⟨_, List.mem_append_left _ (List.mem_singleton_self _), hmeans, hu⟩
      · obtain ⟨tr, htr, hcomes⟩ := hto move' hmove
        exact ⟨tr, List.mem_append_right _ htr, hcomes⟩

/-- A computation from an initial state is a run. -/
theorem Plays.exists_run {f : State → α} {b : α} (hplays : S.Plays play means) (hinit : S.init s)
    (h : (moves.foldlM play s).map f = some b) :
    ∃ ts t, S.Run ts t ∧ f t = b ∧ (∀ tr ∈ ts, ∃ move ∈ moves, ComesFrom play means tr move) ∧
      ∀ move ∈ moves, ∃ tr ∈ ts, ComesFrom play means tr move := by
  obtain ⟨t, hplay, hf⟩ := Option.map_eq_some_iff.mp h
  obtain ⟨ts, hr, hfrom, hto⟩ := hplays.run (.init hinit) hplay
  exact ⟨_, t, hr, hf, hfrom, hto⟩

/-- The moves may be tested first. -/
theorem Plays.guarded {ok : State → Move → Bool} (hplays : S.Plays play means) :
    S.Plays (fun s move => if ok s move = true then play s move else none) fun s move l =>
      means s move l ∧ ok s move = true := by
  intro s move t h
  dsimp only at h
  split_ifs at h with hok
  obtain ⟨l, hmeans, hstep⟩ := hplays s move t h
  exact ⟨l, ⟨hmeans, hok⟩, hstep⟩

end TransitionSystem
