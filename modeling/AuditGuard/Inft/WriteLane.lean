import AuditGuard.Library.Keyed
import AuditGuard.Library.Transition
import Mathlib.Data.List.Infix

/-!
# The write lane of the 0g storage

`_enqueueWrite` of `storage-0g.js`. Each call chains its operation to the promise `_writeQueue`, and puts its own
promise in its place, with a `catch` that makes it one that is not rejected. An operation that fails since a
transaction with its nonce is pending is started once more, 20 seconds later, before its promise is settled.
-/

namespace AuditGuard.Inft.WriteLane

open TransitionSystem

variable {α : Type}

/-- The message of an error is one of a pending transaction. -/
def Stale (message : String) : Prop :=
  "replacement".toList <:+: message.toList ∨ "underpriced".toList <:+: message.toList

instance : DecidablePred Stale := fun _ => inferInstanceAs (Decidable (_ ∨ _))

/-- How often the operation of a call was started. -/
inductive Attempt
  | first
  | second
deriving DecidableEq

/-- Where a call stands. An error is the text that the code reads of it. -/
inductive Phase (α : Type)
  /-- Its operation waits for the promise that it is chained to. -/
  | queued
  | running (attempt : Attempt)
  /-- The 20 seconds before the second attempt. -/
  | delayed
  /-- The promise that the caller has is settled. -/
  | settled (outcome : Except String α)
  /-- The promise with the `catch` is resolved, too. -/
  | caught (outcome : Except String α)

/-- A call, with the call whose promise it is chained to, unless it is the first one. -/
structure Call (α : Type) where
  after : Option ℕ
  phase : Phase α

/-- What happens to the operation of a call, and to the promise that its caller has. -/
inductive Entry (α : Type)
  | started (i : ℕ)
  | ended (i : ℕ) (outcome : Except String α)
  | settled (i : ℕ) (outcome : Except String α)

/-- The calls, the one whose promise is `_writeQueue`, and what has happened. -/
structure State (α : Type) where
  calls : List (Call α)
  writeQueue : Option ℕ
  log : List (Entry α)

/-- The promise that a call is chained to is resolved. -/
def State.Resolved (s : State α) : Option ℕ → Prop
  | none => True
  | some i => ∃ c outcome, s.calls[i]? = some c ∧ c.phase = .caught outcome

/-- How `runWithRetry` goes on when an attempt has ended. -/
def afterAttempt : Attempt → Except String α → Phase α
  | .first, .error message => if Stale message then .delayed else .settled (.error message)
  | _, outcome => .settled outcome

/-- The outcome that the caller gets. -/
def settlement (i : ℕ) : Phase α → List (Entry α)
  | .settled outcome => [.settled i outcome]
  | _ => []

/-- A call goes on. -/
def State.move (s : State α) (i : ℕ) (c : Call α) (phase : Phase α) (entries : List (Entry α)) : State α :=
  { s with calls := s.calls.set i { c with phase := phase }, log := s.log ++ entries }

/-- What can happen. -/
inductive Event (α : Type)
  | calls
  | starts (i : ℕ)
  | ends (i : ℕ) (outcome : Except String α)
  | wakes (i : ℕ)
  | catches (i : ℕ)

/-- One step. -/
inductive Step (s : State α) : Event α → State α → Prop
  | calls : Step s .calls
      { s with calls := s.calls ++ [⟨s.writeQueue, .queued⟩], writeQueue := some s.calls.length }
  | starts {i : ℕ} {c : Call α} (hc : s.calls[i]? = some c) (hphase : c.phase = .queued)
      (hafter : s.Resolved c.after) : Step s (.starts i) (s.move i c (.running .first) [.started i])
  | ends {i : ℕ} {c : Call α} {attempt : Attempt} {outcome : Except String α} (hc : s.calls[i]? = some c)
      (hphase : c.phase = .running attempt) :
      Step s (.ends i outcome) (s.move i c (afterAttempt attempt outcome)
        (.ended i outcome :: settlement i (afterAttempt attempt outcome)))
  | wakes {i : ℕ} {c : Call α} (hc : s.calls[i]? = some c) (hphase : c.phase = .delayed) :
      Step s (.wakes i) (s.move i c (.running .second) [.started i])
  | catches {i : ℕ} {c : Call α} {outcome : Except String α} (hc : s.calls[i]? = some c)
      (hphase : c.phase = .settled outcome) : Step s (.catches i) (s.move i c (.caught outcome) [])

/-- The storage, from the `Promise.resolve()` of its constructor on. -/
def system : TransitionSystem (State α) (Event α) where
  init s := s = ⟨[], none, []⟩
  step := Step

/-! ## What is claimed of a run -/

/-- The course of a call: its operation is started once, or, after a failure with a pending transaction, twice; and
its caller gets the outcome of the last attempt. -/
inductive Course (i : ℕ) : Except String α → List (Entry α) → Prop
  | once {outcome : Except String α} (h : ∀ message, outcome = .error message → ¬ Stale message) :
      Course i outcome [.started i, .ended i outcome, .settled i outcome]
  | twice {message : String} {outcome : Except String α} (h : Stale message) :
      Course i outcome [.started i, .ended i (.error message), .started i, .ended i outcome, .settled i outcome]

/-- The courses of the first calls, in their order. -/
inductive Courses : ℕ → List (Entry α) → Prop
  | nil : Courses 0 []
  | snoc {k : ℕ} {log course : List (Entry α)} {outcome : Except String α} (h : Courses k log)
      (hcourse : Course k outcome course) : Courses (k + 1) (log ++ course)

/-- A course as far as it has come. -/
inductive Begun (i : ℕ) : List (Entry α) → Prop
  | queued : Begun i []
  | first : Begun i [.started i]
  | delayed {message : String} (h : Stale message) : Begun i [.started i, .ended i (.error message)]
  | second {message : String} (h : Stale message) : Begun i [.started i, .ended i (.error message), .started i]
  | settled {outcome : Except String α} {course : List (Entry α)} (h : Course i outcome course) : Begun i course

/-- Call after call has taken its course, and at most one of them is under way. -/
def State.Serial (s : State α) : Prop :=
  ∃ k done rest, k ≤ s.calls.length ∧ Courses k done ∧ s.log = done ++ rest ∧ Begun k rest ∧
    (k = s.calls.length → rest = [])

/-- Two operations that are under way are the same. -/
def State.OneAtATime (s : State α) : Prop :=
  ∀ (i j : ℕ) (c d : Call α) (attempt attempt' : Attempt), s.calls[i]? = some c → s.calls[j]? = some d →
    c.phase = .running attempt → d.phase = .running attempt' → i = j

/-- A step that is not a call. -/
def Goes (s : State α) (e : Event α) (t : State α) : Prop := e ≠ .calls ∧ Step s e t

/-- How many steps a call has before it, at most. -/
def Phase.work : Phase α → ℕ
  | .queued => 5
  | .running .first => 4
  | .delayed => 3
  | .running .second => 2
  | .settled _ => 1
  | .caught _ => 0

/-- How many steps all calls have before them, at most. -/
def State.work (s : State α) : ℕ := (s.calls.map fun c => c.phase.work).sum

/-- Whatever the outcomes are, the calls that were made come to their end. -/
def State.Finishes (s : State α) : Prop :=
  ∀ events t, Path Goes s events t → events.length ≤ s.work ∧
    ((∀ e t', ¬ Goes t e t') → ∀ c ∈ t.calls, ∃ outcome, c.phase = .caught outcome)

/-! ## The invariant -/

/-- The call before. -/
def previous : ℕ → Option ℕ
  | 0 => none
  | i + 1 => some i

/-- How far the course of a call has come in its phase. -/
inductive Progress (k : ℕ) : Option (Phase α) → List (Entry α) → Prop
  | absent : Progress k none []
  | queued : Progress k (some .queued) []
  | first : Progress k (some (.running .first)) [.started k]
  | delayed {message : String} (h : Stale message) :
      Progress k (some .delayed) [.started k, .ended k (.error message)]
  | second {message : String} (h : Stale message) :
      Progress k (some (.running .second)) [.started k, .ended k (.error message), .started k]
  | settled {outcome : Except String α} {course : List (Entry α)} (h : Course k outcome course) :
      Progress k (some (.settled outcome)) course

/-- The calls before the call `k` are over, and those after it have not begun. -/
structure State.Sound (s : State α) (k : ℕ) (done rest : List (Entry α)) : Prop where
  writeQueue : s.writeQueue = previous s.calls.length
  after : ∀ i c, s.calls[i]? = some c → c.after = previous i
  caught : ∀ i < k, ∃ c outcome, s.calls[i]? = some c ∧ c.phase = .caught outcome
  later : ∀ i c, k < i → s.calls[i]? = some c → c.phase = .queued
  courses : Courses k done
  log : s.log = done ++ rest
  progress : Progress k (s.calls[k]?.map Call.phase) rest

variable {s t : State α} {k i : ℕ} {c : Call α} {phase : Phase α} {done rest entries : List (Entry α)}
  {outcome : Except String α} {e : Event α}

theorem State.Sound.le_length (h : s.Sound k done rest) : k ≤ s.calls.length := by
  by_contra hlt
  obtain ⟨c, outcome, hc, -⟩ := h.caught s.calls.length (by omega)
  simp at hc

theorem State.Sound.progress_of (h : s.Sound k done rest) (hc : s.calls[k]? = some c) :
    Progress k (some c.phase) rest := by
  have hprogress := h.progress
  rwa [hc] at hprogress

theorem State.Sound.index_eq (h : s.Sound k done rest) (hc : s.calls[i]? = some c) (hqueued : c.phase ≠ .queued)
    (hcaught : ∀ outcome, c.phase ≠ .caught outcome) : i = k := by
  rcases Nat.lt_trichotomy i k with hlt | heq | hgt
  · obtain ⟨d, outcome, hd, hphase⟩ := h.caught i hlt
    rw [hc] at hd
    obtain rfl := Option.some.inj hd
    exact absurd hphase (hcaught outcome)
  · exact heq
  · exact absurd (h.later i c hgt hc) hqueued

theorem State.Sound.index_eq_of_resolved (h : s.Sound k done rest) (hc : s.calls[i]? = some c)
    (hqueued : c.phase = .queued) (hafter : s.Resolved c.after) : i = k := by
  rcases Nat.lt_trichotomy i k with hlt | heq | hgt
  · obtain ⟨d, outcome, hd, hphase⟩ := h.caught i hlt
    rw [hc] at hd
    obtain rfl := Option.some.inj hd
    rw [hqueued] at hphase
    cases hphase
  · exact heq
  · -- The call before it is not over.
    obtain ⟨j, rfl⟩ : ∃ j, i = j + 1 := ⟨i - 1, by omega⟩
    rw [h.after _ c hc] at hafter
    obtain ⟨d, outcome, hd, hphase⟩ := hafter
    rcases Nat.lt_or_eq_of_le (Nat.le_of_lt_succ hgt) with hlt | rfl
    · rw [h.later j d hlt hd] at hphase
      cases hphase
    · have hprogress := h.progress_of hd
      rw [hphase] at hprogress
      cases hprogress

theorem getElem?_move_ne {j : ℕ} (hne : i ≠ j) : (s.move i c phase entries).calls[j]? = s.calls[j]? :=
  List.getElem?_set_ne hne

theorem getElem?_move_self (hc : s.calls[i]? = some c) :
    (s.move i c phase entries).calls[i]? = some { c with phase := phase } := by
  obtain ⟨hlt, -⟩ := List.getElem?_eq_some_iff.mp hc
  exact List.getElem?_set_self hlt

theorem State.Sound.after_move (h : s.Sound k done rest) (hc : s.calls[i]? = some c) :
    ∀ j d, (s.move i c phase entries).calls[j]? = some d → d.after = previous j := by
  intro j d hd
  by_cases hne : i = j
  · subst hne
    rw [getElem?_move_self hc] at hd
    obtain rfl := Option.some.inj hd
    exact h.after i c hc
  · rw [getElem?_move_ne hne] at hd
    exact h.after j d hd

theorem State.Sound.move (h : s.Sound k done rest) (hc : s.calls[k]? = some c)
    (hprogress : Progress k (some phase) (rest ++ entries)) :
    (s.move k c phase entries).Sound k done (rest ++ entries) where
  writeQueue := by
    rw [State.move, List.length_set]
    exact h.writeQueue
  after := h.after_move hc
  caught i hlt := by
    obtain ⟨d, outcome, hd, hphase⟩ := h.caught i hlt
    exact ⟨d, outcome, (getElem?_move_ne (by omega)).trans hd, hphase⟩
  later i d hlt hd := by
    rw [getElem?_move_ne (by omega)] at hd
    exact h.later i d hlt hd
  courses := h.courses
  log := by
    rw [← List.append_assoc, ← h.log]
    rfl
  progress := by
    rw [getElem?_move_self hc]
    exact hprogress

theorem State.Sound.catches (h : s.Sound k done rest) (hc : s.calls[k]? = some c) (hphase : c.phase = .settled outcome) :
    (s.move k c (.caught outcome) []).Sound (k + 1) (done ++ rest) [] := by
  have hprogress := h.progress_of hc
  rw [hphase] at hprogress
  cases hprogress with
  | settled hcourse =>
    refine ⟨?_, h.after_move hc, fun i hlt => ?_, fun i d hlt hd => ?_, h.courses.snoc hcourse, ?_, ?_⟩
    · rw [State.move, List.length_set]
      exact h.writeQueue
    · rcases Nat.lt_or_eq_of_le (Nat.le_of_lt_succ hlt) with hlt | rfl
      · obtain ⟨d, outcome', hd, hcaught⟩ := h.caught i hlt
        exact ⟨d, outcome', (getElem?_move_ne (by omega)).trans hd, hcaught⟩
      · exact ⟨_, outcome, getElem?_move_self hc, rfl⟩
    · rw [getElem?_move_ne (by omega)] at hd
      exact h.later i d (by omega) hd
    · rw [State.move, h.log]
    · rw [getElem?_move_ne (by omega)]
      cases hnext : s.calls[k + 1]? with
      | none => exact .absent
      | some d =>
        have hqueued := h.later (k + 1) d (by omega) hnext
        rw [Option.map_some, hqueued]
        exact .queued

theorem State.Sound.calls (h : s.Sound k done rest) :
    State.Sound { s with calls := s.calls ++ [⟨s.writeQueue, .queued⟩], writeQueue := some s.calls.length }
      k done rest := by
  have hle := h.le_length
  have hnew : ∀ i d, (s.calls ++ [⟨s.writeQueue, .queued⟩])[i]? = some d →
      s.calls[i]? = some d ∨ i = s.calls.length ∧ d = ⟨s.writeQueue, .queued⟩ := by
    intro i d hd
    rcases Nat.lt_trichotomy i s.calls.length with hlt | rfl | hgt
    · rw [List.getElem?_append_left hlt] at hd
      exact .inl hd
    · rw [List.getElem?_concat_length] at hd
      exact .inr ⟨rfl, (Option.some.inj hd).symm⟩
    · rw [List.getElem?_eq_none (by rw [List.length_append, List.length_singleton]; omega)] at hd
      cases hd
  refine ⟨?_, fun i d hd => ?_, fun i hlt => ?_, fun i d hlt hd => ?_, h.courses, h.log, ?_⟩
  · rw [List.length_append]
    rfl
  · rcases hnew i d hd with hd | ⟨rfl, rfl⟩
    · exact h.after i d hd
    · exact h.writeQueue
  · obtain ⟨d, outcome, hd, hphase⟩ := h.caught i hlt
    exact ⟨d, outcome, (List.getElem?_append_left (by omega)).trans hd, hphase⟩
  · rcases hnew i d hd with hd | ⟨rfl, rfl⟩
    · exact h.later i d hlt hd
    · rfl
  · have hprogress := h.progress
    rcases Nat.lt_or_eq_of_le hle with hlt | rfl
    · rwa [List.getElem?_append_left hlt]
    · -- The call is the next one.
      rw [List.getElem?_eq_none (Nat.le_refl _)] at hprogress
      rw [List.getElem?_concat_length]
      cases hprogress
      exact .queued

theorem Step.sound (h : s.Sound k done rest) (hstep : Step s e t) : ∃ k done rest, t.Sound k done rest := by
  cases hstep with
  | calls => exact ⟨k, done, rest, h.calls⟩
  | starts hc hphase hafter =>
    obtain rfl := h.index_eq_of_resolved hc hphase hafter
    have hprogress := h.progress_of hc
    rw [hphase] at hprogress
    cases hprogress
    exact ⟨_, done, _, h.move hc .first⟩
  | @ends i c attempt outcome hc hphase =>
    obtain rfl := h.index_eq hc (by rw [hphase]; simp) (by rw [hphase]; simp)
    have hprogress := h.progress_of hc
    rw [hphase] at hprogress
    refine ⟨i, done, _, h.move hc ?_⟩
    cases hprogress with
    | first =>
      cases outcome with
      | ok value => exact .settled (.once fun message heq => by cases heq)
      | error message =>
        by_cases hstale : Stale message
        · rw [afterAttempt, if_pos hstale]
          exact .delayed hstale
        · rw [afterAttempt, if_neg hstale]
          refine .settled (.once fun message' heq => ?_)
          rwa [← Except.error.inj heq]
    | second hstale => exact .settled (.twice hstale)
  | wakes hc hphase =>
    obtain rfl := h.index_eq hc (by rw [hphase]; simp) (by rw [hphase]; simp)
    have hprogress := h.progress_of hc
    rw [hphase] at hprogress
    cases hprogress with
    | delayed hstale => exact ⟨_, done, _, h.move hc (.second hstale)⟩
  | catches hc hphase =>
    obtain rfl := h.index_eq hc (by rw [hphase]; simp) (by rw [hphase]; simp)
    exact ⟨_, _, _, h.catches hc hphase⟩

theorem sound_of_reachable (hs : system.Reachable s) : ∃ k done rest, s.Sound k done rest := by
  refine hs.induct (I := fun s => ∃ k done rest, s.Sound k done rest) ?_ ?_
  · rintro s rfl
    refine ⟨0, [], [], rfl, ?_, ?_, ?_, .nil, rfl, .absent⟩
    · intro i c hc
      cases hc
    · intro i hlt
      exact absurd hlt (Nat.not_lt_zero i)
    · intro i c _ hc
      cases hc
  · rintro s e t _ ⟨k, done, rest, h⟩ hstep
    exact Step.sound h hstep

/-! ## What follows of the log and of the calls -/

theorem Progress.begun {p : Option (Phase α)} (h : Progress k p rest) : Begun k rest := by
  cases h with
  | absent => exact .queued
  | queued => exact .queued
  | first => exact .first
  | delayed hstale => exact .delayed hstale
  | second hstale => exact .second hstale
  | settled hcourse => exact .settled hcourse

theorem State.Sound.serial (h : s.Sound k done rest) : s.Serial := by
  refine ⟨k, done, rest, h.le_length, h.courses, h.log, h.progress.begun, fun heq => ?_⟩
  have hprogress := h.progress
  rw [List.getElem?_eq_none (le_of_eq heq.symm)] at hprogress
  cases hprogress
  rfl

theorem State.Sound.oneAtATime (h : s.Sound k done rest) : s.OneAtATime := by
  intro i j c d attempt attempt' hc hd hphase hphase'
  rw [h.index_eq hc (by rw [hphase]; simp) (by rw [hphase]; simp),
    h.index_eq hd (by rw [hphase']; simp) (by rw [hphase']; simp)]

theorem work_move (hc : s.calls[i]? = some c) (hlt : phase.work < c.phase.work) :
    (s.move i c phase entries).work < s.work := by
  have hsum := Keyed.sum_map_set (fun c : Call α => c.phase.work) (b := { c with phase := phase }) hc
  unfold State.work State.move
  dsimp only at hsum ⊢
  omega

theorem work_afterAttempt (attempt : Attempt) (outcome : Except String α) :
    (afterAttempt attempt outcome).work < (Phase.running attempt : Phase α).work := by
  unfold afterAttempt
  split
  · split_ifs <;> simp [Phase.work]
  · cases attempt <;> simp [Phase.work]

theorem Goes.work_lt (h : Goes s e t) : t.work < s.work := by
  obtain ⟨hne, hstep⟩ := h
  cases hstep with
  | calls => exact absurd rfl hne
  | starts hc hphase => exact work_move hc (by simp [hphase, Phase.work])
  | ends hc hphase => exact work_move hc (by rw [hphase]; exact work_afterAttempt ..)
  | wakes hc hphase => exact work_move hc (by simp [hphase, Phase.work])
  | catches hc hphase => exact work_move hc (by simp [hphase, Phase.work])

theorem State.Sound.exists_goes (h : s.Sound k done rest) (hlt : k < s.calls.length) : ∃ e t, Goes s e t := by
  have hc := List.getElem?_eq_getElem hlt
  have hprogress := h.progress_of hc
  cases hphase : s.calls[k].phase with
  | queued =>
    refine ⟨.starts k, _, by simp, .starts hc hphase ?_⟩
    rw [h.after k _ hc]
    -- The call before it is over.
    cases k with
    | zero => trivial
    | succ j => exact h.caught j (Nat.lt_succ_self j)
  | running attempt => exact ⟨.ends k (.error ""), _, by simp, .ends hc hphase⟩
  | delayed => exact ⟨.wakes k, _, by simp, .wakes hc hphase⟩
  | settled outcome => exact ⟨.catches k, _, by simp, .catches hc hphase⟩
  | caught outcome =>
    rw [hphase] at hprogress
    cases hprogress

/-- From every reachable state all work comes to an end. -/
theorem finishes_of_reachable (hs : system.Reachable s) : s.Finishes := by
  intro events t hpath
  constructor
  · have hwork : events.length + t.work ≤ s.work := by
      induction hpath with
      | nil => simp
      | snoc _ hstep ih =>
        have hlt := Goes.work_lt hstep
        rw [List.length_append, List.length_singleton]
        omega
    omega
  · intro hstuck c hc
    have ht : system.Reachable t :=
      hpath.induct (P := system.Reachable) (fun u e v hu hstep => .step hu hstep.2) hs
    obtain ⟨k, done, rest, h⟩ := sound_of_reachable ht
    obtain ⟨i, hi⟩ := List.getElem?_of_mem hc
    obtain ⟨hlt, -⟩ := List.getElem?_eq_some_iff.mp hi
    -- All calls are over, since the call `k` could go on.
    have hk : t.calls.length ≤ k := by
      by_contra hk
      obtain ⟨e, t', hgoes⟩ := h.exists_goes (by omega)
      exact hstuck e t' hgoes
    obtain ⟨d, outcome, hd, hphase⟩ := h.caught i (by omega)
    rw [hi] at hd
    obtain rfl := Option.some.inj hd
    exact ⟨outcome, hphase⟩

/-- In every reachable state: operations run one at a time, in the order of the calls, each is started once or, after
a failure with a pending transaction, twice in a row, each caller gets the outcome of the last attempt, and the calls
come to their end whatever fails. -/
theorem serial_of_reachable (hs : system.Reachable s) : s.Serial ∧ s.OneAtATime ∧ s.Finishes := by
  obtain ⟨k, done, rest, h⟩ := sound_of_reachable hs
  exact ⟨h.serial, h.oneAtATime, finishes_of_reachable hs⟩

/-- The first of two calls meets a pending transaction, and is to be started again. -/
theorem serial_of_reachable_pending : ∃ s : State ℕ, s.log =
      [.started 0, .ended 0 (.error "replacement transaction underpriced"), .started 0] ∧
    s.calls.length = 2 ∧ s.Serial ∧ s.OneAtATime ∧ s.Finishes := by
  have hstale : Stale "replacement transaction underpriced" := by decide
  have hdelayed : afterAttempt .first (.error "replacement transaction underpriced" : Except String ℕ) = .delayed := by
    rw [afterAttempt, if_pos hstale]
  have h0 : (system (α := ℕ)).Reachable ⟨[], none, []⟩ := .init rfl
  have h1 := h0.step .calls
  have h2 := h1.step .calls
  have h3 := h2.step (.starts (i := 0) rfl rfl trivial)
  have hends : Step (⟨[⟨none, .running .first⟩, ⟨some 0, .queued⟩], some 1, [.started 0]⟩ : State ℕ)
      (.ends 0 (.error "replacement transaction underpriced")) _ := .ends (c := ⟨none, .running .first⟩) rfl rfl
  have h4 := h3.step hends
  have h5 := h4.step (.wakes (i := 0) rfl hdelayed)
  refine ⟨_, ?_, ?_, serial_of_reachable h5⟩
  · simp [State.move, hdelayed, settlement]
  · rfl

end AuditGuard.Inft.WriteLane
