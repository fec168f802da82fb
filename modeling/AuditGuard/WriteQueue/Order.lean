import AuditGuard.Library.Transition
import Mathlib.Data.List.Nodup
import Mathlib.Data.List.Perm.Basic

/-!
# The write queue

All transactions of the orchestrator go through one queue (`_enqueueWriteWithPriority`, `_drainWriteQueue` and
`_dequeueNextWriteTask` of `orchestrator/src/contract-client.js`). A call adds a task and runs the drain loop, which
waits for one task after another. With the fast winner path a task of high priority goes before the normal ones, and a
counter of successful tasks of high priority makes the loop take a normal task now and then.

A step is a call, or the end of a task that a drain loop waits for.
-/

namespace AuditGuard.WriteQueue

section

/-- The priority of a task. -/
inductive Priority
  | high
  | normal
deriving DecidableEq

/-- `priority === "high" ? "high" : "normal"`. -/
def normalizedPriority (priority : String) : Priority := if priority = "high" then .high else .normal

/-- A task: the call that it comes from, and its priority. -/
structure Task where
  /-- How many calls came before. -/
  call : ℕ
  priority : Priority
deriving DecidableEq

/-- Whether a task is one of those that others may go before. -/
def Task.isNormal (t : Task) : Bool := t.priority ≠ .high

/-- The settings of a client. -/
structure Config where
  fastWinnerPathEnabled : Bool
  writeQueueMaxHighStreak : ℕ

variable {ε α : Type*}

/-- What happens to tasks. -/
inductive Event (ε α : Type*)
  | enqueued (t : Task)
  /-- `sendFn` is called. -/
  | started (t : Task)
  /-- The promise of the task is resolved or rejected. -/
  | settled (t : Task) (outcome : Except ε α)

/-- A client, with what has happened. -/
structure Client (ε α : Type*) where
  writeQueue : List Task
  writeQueueRunning : Bool
  highPriorityStreak : ℕ
  /-- The tasks that drain loops wait for. -/
  drains : List Task
  history : List (Event ε α)

/-- The client that was just constructed. -/
def Client.fresh : Client ε α := ⟨[], false, 0, [], []⟩

/-! ## What has happened -/

/-- The tasks of all calls, in order. -/
def arrivals (h : List (Event ε α)) : List Task := h.filterMap fun e => match e with
  | .enqueued t => some t
  | _ => none

/-- The tasks that were started, in order. -/
def starts (h : List (Event ε α)) : List Task := h.filterMap fun e => match e with
  | .started t => some t
  | _ => none

/-- The promises that were settled, with their outcomes. -/
def settlements (h : List (Event ε α)) : List (Task × Except ε α) := h.filterMap fun e => match e with
  | .settled t outcome => some (t, outcome)
  | _ => none

/-! ## The code -/

/-- Where `_enqueueWriteWithPriority` puts a task. -/
def place (cfg : Config) (t : Task) (queue : List Task) : List Task :=
  if cfg.fastWinnerPathEnabled ∧ t.priority = .high then
    match queue.findIdx? Task.isNormal with
    | none => queue ++ [t]
    | some firstNormalIndex => queue.insertIdx firstNormalIndex t
  else queue ++ [t]

/-- `_dequeueNextWriteTask()`: the task and what is left of the queue. -/
def dequeueNextWriteTask (cfg : Config) (streak : ℕ) (queue : List Task) : Option (Task × List Task) :=
  let normalIndex :=
    if cfg.fastWinnerPathEnabled ∧ 0 < cfg.writeQueueMaxHighStreak ∧ cfg.writeQueueMaxHighStreak ≤ streak then
      queue.findIdx? Task.isNormal
    else none
  match normalIndex, queue with
  | some i, queue => queue[i]?.map fun t => (t, queue.eraseIdx i)
  | none, [] => none
  | none, first :: rest => some (first, rest)

namespace Client

/-- One turn of the loop in `_drainWriteQueue()`, up to its next await or its end. -/
def drain (cfg : Config) (c : Client ε α) : Client ε α :=
  match dequeueNextWriteTask cfg c.highPriorityStreak c.writeQueue with
  | none => { c with writeQueueRunning := false }
  | some (t, rest) =>
    { c with writeQueue := rest, drains := c.drains ++ [t], history := c.history ++ [.started t] }

/-- `_enqueueWriteWithPriority(sendFn, priority)`. -/
def enqueueWriteWithPriority (cfg : Config) (priority : String) (c : Client ε α) : Client ε α :=
  let t : Task := ⟨(arrivals c.history).length, normalizedPriority priority⟩
  let c := { c with writeQueue := place cfg t c.writeQueue, history := c.history ++ [.enqueued t] }
  if c.writeQueueRunning then c else drain cfg { c with writeQueueRunning := true }

/-- The counter after a task. -/
def streakAfter (t : Task) (outcome : Except ε α) (streak : ℕ) : ℕ :=
  match outcome with
  | .ok _ => if t.priority = .high then streak + 1 else 0
  | .error _ => streak

/-- A drain loop goes on after the task that it waits for. -/
def settle (cfg : Config) (i : ℕ) (outcome : Except ε α) (c : Client ε α) : Option (Client ε α) :=
  c.drains[i]?.map fun t =>
    drain cfg { c with
      drains := c.drains.eraseIdx i
      history := c.history ++ [.settled t outcome]
      highPriorityStreak := streakAfter t outcome c.highPriorityStreak }

end Client

/-- What can happen next. -/
inductive Label (ε α : Type*)
  | enqueue (priority : String)
  | settle (i : ℕ) (outcome : Except ε α)

/-- One step. -/
def step (cfg : Config) (c : Client ε α) : Label ε α → Option (Client ε α)
  | .enqueue priority => some (c.enqueueWriteWithPriority cfg priority)
  | .settle i outcome => c.settle cfg i outcome

/-- A client and its callers. -/
def system (ε α : Type*) (cfg : Config) : TransitionSystem (Client ε α) (Label ε α) where
  init c := c = .fresh
  step c l c' := step cfg c l = some c'

/-! ## The queue -/

variable {cfg : Config} {t : Task} {queue rest : List Task} {streak : ℕ}

/-- Of the queue with the fast winner path, the tasks of high priority come first. -/
def Sorted (cfg : Config) (queue : List Task) : Prop :=
  cfg.fastWinnerPathEnabled → ∃ high normal : List Task,
    queue = high ++ normal ∧ (∀ t ∈ high, t.isNormal = false) ∧ ∀ t ∈ normal, t.isNormal = true

theorem exists_of_findIdx? {i : ℕ} (h : queue.findIdx? Task.isNormal = some i) :
    ∃ before n after, queue = before ++ n :: after ∧ i = before.length ∧ n.isNormal = true ∧
      ∀ u ∈ before, u.isNormal = false := by
  obtain ⟨hlt, hp, hbefore⟩ := List.findIdx?_eq_some_iff_getElem.mp h
  refine ⟨queue.take i, queue[i], queue.drop (i + 1), ?_, ?_, hp, fun u hu => ?_⟩
  · rw [List.getElem_cons_drop, List.take_append_drop]
  · rw [List.length_take, Nat.min_eq_left (Nat.le_of_lt hlt)]
  · obtain ⟨j, hj, rfl⟩ := List.mem_take_iff_getElem.mp hu
    exact Bool.eq_false_iff.mpr (hbefore j (Nat.lt_of_lt_of_le hj (Nat.min_le_left _ _)))

theorem isNormal_eq_false_iff : t.isNormal = false ↔ t.priority = .high := by
  unfold Task.isNormal
  rw [decide_eq_false_iff_not, not_not]

theorem insertIdx_length (before after : List Task) (t : Task) :
    (before ++ after).insertIdx before.length t = before ++ t :: after := by
  induction before with
  | nil => rfl
  | cons u before ih => rw [List.cons_append, List.length_cons, List.insertIdx_succ_cons, ih, List.cons_append]

/-- The place of a new task is after all tasks of its priority. -/
theorem exists_place (hs : Sorted cfg queue) (t : Task) :
    ∃ before after, queue = before ++ after ∧ place cfg t queue = before ++ t :: after ∧
      (∀ u ∈ after, u.priority ≠ t.priority) ∧ Sorted cfg (place cfg t queue) := by
  by_cases hfast : cfg.fastWinnerPathEnabled = true
  case neg =>
    have hplace : place cfg t queue = queue ++ [t] := if_neg fun h => hfast h.1
    exact ⟨queue, [], (List.append_nil _).symm, hplace, by simp, fun h => absurd h hfast⟩
  obtain ⟨high, normal, rfl, hhigh, hnormal⟩ := hs hfast
  by_cases ht : t.priority = .high
  case neg =>
    have hplace : place cfg t (high ++ normal) = (high ++ normal) ++ [t] := if_neg fun h => ht h.2
    refine ⟨high ++ normal, [], (List.append_nil _).symm, hplace, by simp, fun _ => ?_⟩
    refine ⟨high, normal ++ [t], by rw [hplace, List.append_assoc], hhigh, fun u hu => ?_⟩
    rcases List.mem_append.mp hu with hu | hu
    · exact hnormal u hu
    · rw [List.mem_singleton.mp hu]
      exact decide_eq_true ht
  have hplace : place cfg t (high ++ normal) = high ++ t :: normal := by
    unfold place
    rw [if_pos ⟨hfast, ht⟩]
    cases hi : (high ++ normal).findIdx? Task.isNormal with
    | none =>
      -- no task is normal
      cases normal with
      | nil => rw [List.append_nil]
      | cons n normal =>
        have hn := List.findIdx?_eq_none_iff.mp hi n (List.mem_append_right _ List.mem_cons_self)
        rw [hnormal n List.mem_cons_self] at hn
        cases hn
    | some i =>
      have hlength : i = high.length := by
        rw [List.findIdx?_append, List.findIdx?_eq_none_iff.mpr hhigh, Option.none_or] at hi
        obtain ⟨j, hj, rfl⟩ := Option.map_eq_some_iff.mp hi
        cases normal with
        | nil => cases hj
        | cons n normal =>
          rw [List.findIdx?_cons, if_pos (hnormal n List.mem_cons_self)] at hj
          cases hj
          exact Nat.zero_add _
      dsimp only
      rw [hlength, insertIdx_length]
  refine ⟨high, normal, rfl, hplace, fun u hu hp => ?_, fun _ => ?_⟩
  · have hu := hnormal u hu
    rw [isNormal_eq_false_iff.mpr (hp.trans ht)] at hu
    cases hu
  · refine ⟨high ++ [t], normal, by rw [hplace, List.append_assoc]; rfl, fun u hu => ?_, hnormal⟩
    rcases List.mem_append.mp hu with hu | hu
    · exact hhigh u hu
    · rw [List.mem_singleton.mp hu]
      exact isNormal_eq_false_iff.mpr ht

theorem dequeue_some (h : dequeueNextWriteTask cfg streak queue = some (t, rest)) :
    ∃ before after, queue = before ++ t :: after ∧ rest = before ++ after ∧
      (∀ u ∈ before, u.priority ≠ t.priority) ∧
      (cfg.fastWinnerPathEnabled → 0 < cfg.writeQueueMaxHighStreak → cfg.writeQueueMaxHighStreak ≤ streak →
        (∃ u ∈ queue, u.isNormal) → t.isNormal) := by
  unfold dequeueNextWriteTask at h
  dsimp only at h
  split at h
  · next i hi =>
    split_ifs at hi
    obtain ⟨before, n, after, rfl, rfl, hn, hbefore⟩ := exists_of_findIdx? hi
    simp only [List.getElem?_append_right (Nat.le_refl _), Nat.sub_self, List.getElem?_cons_zero, Option.map_some,
      List.eraseIdx_append_of_length_le (Nat.le_refl _), List.eraseIdx_cons_zero, Option.some.injEq, Prod.mk.injEq] at h
    obtain ⟨rfl, rfl⟩ := h
    refine ⟨before, after, rfl, rfl, fun u hu hp => ?_, fun _ _ _ _ => hn⟩
    have hhigh := isNormal_eq_false_iff.mp (hbefore u hu)
    rw [isNormal_eq_false_iff.mpr (hp.symm.trans hhigh)] at hn
    cases hn
  · cases h
  · next first more hnone =>
    obtain ⟨rfl, rfl⟩ := Prod.mk.inj (Option.some.inj h)
    refine ⟨[], more, rfl, rfl, by simp, fun h₁ h₂ h₃ ⟨u, hu, hp⟩ => ?_⟩
    rw [if_pos ⟨h₁, h₂, h₃⟩] at hnone
    have hu := List.findIdx?_eq_none_iff.mp hnone u hu
    rw [hp] at hu
    cases hu

theorem eq_nil_of_dequeue (h : dequeueNextWriteTask cfg streak queue = none) : queue = [] := by
  unfold dequeueNextWriteTask at h
  dsimp only at h
  split at h
  · next i hi =>
    split_ifs at hi
    obtain ⟨before, n, after, rfl, rfl, -, -⟩ := exists_of_findIdx? hi
    simp at h
  · rfl
  · cases h

end

section

variable {ε α : Type*} {cfg : Config} {c : Client ε α}

/-- What the lists of a client have to do with what has happened. -/
structure Books (cfg : Config) (c : Client ε α) : Prop where
  sorted : Sorted cfg c.writeQueue
  /-- A task knows how many came before it. -/
  numbered : ∀ (i : ℕ) (t : Task), (arrivals c.history)[i]? = some t → t.call = i
  /-- Of each priority the calls are the tasks that were started and, after them, those that wait. -/
  order : ∀ p, (starts c.history ++ c.writeQueue).filter (·.priority = p) =
    (arrivals c.history).filter (·.priority = p)
  /-- The tasks that were started are settled, in this order, but for those that are waited for. -/
  own : (settlements c.history).map Prod.fst ++ c.drains = starts c.history

/-- One drain loop is active, or none is and the queue is empty. -/
def Serial (c : Client ε α) : Prop :=
  (c.writeQueueRunning = true ∧ ∃ t, c.drains = [t]) ∨
    (c.writeQueueRunning = false ∧ c.drains = [] ∧ c.writeQueue = [])

/-- What holds between two steps. -/
structure Orderly (cfg : Config) (c : Client ε α) : Prop extends Books cfg c where
  serial : Serial c

/-! ## Histories -/

section Histories

variable {h h' : List (Event ε α)} {t : Task} {outcome : Except ε α}

theorem arrivals_append : arrivals (h ++ h') = arrivals h ++ arrivals h' := List.filterMap_append ..

theorem starts_append : starts (h ++ h') = starts h ++ starts h' := List.filterMap_append ..

theorem settlements_append : settlements (h ++ h') = settlements h ++ settlements h' := List.filterMap_append ..

end Histories

/-! ## Steps -/

theorem Sorted.sublist {queue rest : List Task} (hs : Sorted cfg queue) (h : rest.Sublist queue) : Sorted cfg rest := by
  intro hfast
  obtain ⟨high, normal, rfl, hhigh, hnormal⟩ := hs hfast
  obtain ⟨high', normal', rfl, hsub, hsub'⟩ := List.sublist_append_iff.mp h
  exact ⟨high', normal', rfl, fun t ht => hhigh t (hsub.subset ht), fun t ht => hnormal t (hsub'.subset ht)⟩

theorem filter_eq_nil {p : Priority} {l : List Task} (h : ∀ u ∈ l, u.priority ≠ p) : l.filter (·.priority = p) = [] :=
  List.filter_eq_nil_iff.mpr fun u hu hp => h u hu (of_decide_eq_true hp)

theorem filter_cons_self {t : Task} {p : Priority} (h : t.priority = p) (l : List Task) :
    (t :: l).filter (·.priority = p) = t :: l.filter (·.priority = p) := List.filter_cons_of_pos (decide_eq_true h)

theorem filter_cons_other {t : Task} {p : Priority} (h : t.priority ≠ p) (l : List Task) :
    (t :: l).filter (·.priority = p) = l.filter (·.priority = p) := List.filter_cons_of_neg (by simpa using h)

theorem eq_of_getElem?_singleton {t u : Task} {i : ℕ} (h : [t][i]? = some u) : i = 0 ∧ t = u := by
  rw [List.getElem?_singleton] at h
  split_ifs at h with hi
  exact ⟨hi, Option.some.inj h⟩

/-- Adding a task keeps the books. -/
theorem Books.place (hc : Books cfg c) (p : Priority) :
    Books cfg { c with
      writeQueue := WriteQueue.place cfg ⟨(arrivals c.history).length, p⟩ c.writeQueue
      history := c.history ++ [.enqueued ⟨(arrivals c.history).length, p⟩] } := by
  set t : Task := ⟨(arrivals c.history).length, p⟩ with ht
  obtain ⟨before, after, hqueue, hplace, hafter, hsorted⟩ := exists_place hc.sorted t
  have harrivals : arrivals (c.history ++ [.enqueued t]) = arrivals c.history ++ [t] := arrivals_append
  have hstarts : starts (c.history ++ [.enqueued t]) = starts c.history := by
    rw [starts_append]
    exact List.append_nil _
  constructor
  case sorted => exact hsorted
  case numbered =>
    intro i u hu
    dsimp only at hu
    rw [harrivals, List.getElem?_append] at hu
    split_ifs at hu with hlt
    · exact hc.numbered i u hu
    · obtain ⟨hi, rfl⟩ := eq_of_getElem?_singleton hu
      rw [ht]
      dsimp only
      omega
  case order =>
    intro q
    dsimp only
    have horder := hc.order q
    rw [hqueue, List.filter_append, List.filter_append] at horder
    rw [hstarts, harrivals, hplace, List.filter_append, List.filter_append, List.filter_append, ← horder]
    by_cases hq : p = q
    · have hnone : after.filter (·.priority = q) = [] := filter_eq_nil fun u hu => hq ▸ hafter u hu
      rw [filter_cons_self hq, filter_cons_self hq, hnone, List.filter_nil, List.append_nil, List.append_assoc]
    · rw [filter_cons_other hq, filter_cons_other hq, List.filter_nil, List.append_nil]
  case own =>
    dsimp only
    rw [hstarts, settlements_append, ← hc.own]
    exact congrArg (List.map Prod.fst · ++ c.drains) (List.append_nil _)

theorem Books.drain (hc : Books cfg c) (hrunning : c.writeQueueRunning = true) (hdrains : c.drains = []) :
    Orderly cfg (c.drain cfg) := by
  unfold Client.drain
  split
  · next hnone =>
    exact ⟨⟨hc.sorted, hc.numbered, hc.order, hc.own⟩, .inr ⟨rfl, hdrains, eq_nil_of_dequeue hnone⟩⟩
  · next t rest hsome =>
    obtain ⟨before, after, hqueue, hrest, hbefore, -⟩ := dequeue_some hsome
    have hsub : rest.Sublist c.writeQueue := by
      rw [hqueue, hrest]
      exact (List.Sublist.refl before).append (List.sublist_cons_self t after)
    have harrivals : arrivals (c.history ++ [.started t]) = arrivals c.history := by
      rw [arrivals_append]
      exact List.append_nil _
    have hstarts : starts (c.history ++ [.started t]) = starts c.history ++ [t] := starts_append
    refine ⟨⟨hc.sorted.sublist hsub, fun i u hu => hc.numbered i u (harrivals ▸ hu), fun p => ?_, ?_⟩,
      .inl ⟨hrunning, t, by rw [hdrains]; rfl⟩⟩
    · have horder := hc.order p
      rw [hqueue, List.filter_append, List.filter_append] at horder
      dsimp only
      rw [harrivals, hstarts, hrest, ← horder, List.append_assoc, List.filter_append, List.filter_append,
        List.filter_append]
      by_cases hp : t.priority = p
      · have hnone : before.filter (·.priority = p) = [] := filter_eq_nil fun u hu => hp ▸ hbefore u hu
        rw [hnone, filter_cons_self hp, filter_cons_self hp, List.filter_nil]
        rfl
      · rw [filter_cons_other hp, filter_cons_other hp, List.filter_nil, List.nil_append]
    · dsimp only
      rw [hstarts, settlements_append, ← hc.own, hdrains]
      simp [settlements]

theorem Books.settle {t : Task} (hc : Books cfg c) (hdrains : c.drains = [t]) (outcome : Except ε α) (streak : ℕ) :
    Books cfg { c with
      drains := []
      history := c.history ++ [.settled t outcome]
      highPriorityStreak := streak } := by
  have harrivals : arrivals (c.history ++ [.settled t outcome]) = arrivals c.history := by
    rw [arrivals_append]
    exact List.append_nil _
  have hstarts : starts (c.history ++ [.settled t outcome]) = starts c.history := by
    rw [starts_append]
    exact List.append_nil _
  refine ⟨hc.sorted, fun i u hu => hc.numbered i u (harrivals ▸ hu), fun p => ?_, ?_⟩
  · dsimp only
    rw [harrivals, hstarts]
    exact hc.order p
  · have hown := hc.own
    rw [hdrains] at hown
    dsimp only
    rw [hstarts, settlements_append, List.map_append, List.append_nil]
    exact hown

theorem settle_eq_some {i : ℕ} {outcome : Except ε α} {c' : Client ε α} (hs : Serial c)
    (h : c.settle cfg i outcome = some c') :
    ∃ t, c.drains = [t] ∧ i = 0 ∧ c.writeQueueRunning = true ∧
      c' = Client.drain cfg { c with
        drains := []
        history := c.history ++ [.settled t outcome]
        highPriorityStreak := Client.streakAfter t outcome c.highPriorityStreak } := by
  obtain ⟨t, ht, rfl⟩ := Option.map_eq_some_iff.mp h
  rcases hs with ⟨hrunning, u, hu⟩ | ⟨-, hnone, -⟩
  · rw [hu] at ht ⊢
    obtain ⟨rfl, rfl⟩ := eq_of_getElem?_singleton ht
    exact ⟨u, rfl, rfl, hrunning, rfl⟩
  · rw [hnone] at ht
    simp at ht

theorem orderly_fresh : Orderly cfg (.fresh : Client ε α) where
  sorted _ := ⟨[], [], rfl, by simp, by simp⟩
  numbered i t h := by simp [Client.fresh, arrivals] at h
  order _ := rfl
  own := rfl
  serial := .inr ⟨rfl, rfl, rfl⟩

theorem Orderly.step {c' : Client ε α} {l : Label ε α} (hc : Orderly cfg c)
    (h : step cfg c l = some c') : Orderly cfg c' := by
  cases l with
  | enqueue priority =>
    obtain rfl := Option.some.inj h
    have hplaced := hc.toBooks.place (normalizedPriority priority)
    unfold Client.enqueueWriteWithPriority
    dsimp only
    split_ifs with hrunning
    · refine ⟨hplaced, .inl ⟨hrunning, ?_⟩⟩
      rcases hc.serial with ⟨-, hdrains⟩ | ⟨hnot, -⟩
      · exact hdrains
      · rw [hrunning] at hnot
        cases hnot
    · rcases hc.serial with ⟨hrun, -⟩ | ⟨-, hdrains, -⟩
      · exact absurd hrun hrunning
      · exact Books.drain ⟨hplaced.sorted, hplaced.numbered, hplaced.order, hplaced.own⟩ rfl hdrains
  | settle i outcome =>
    obtain ⟨t, hdrains, -, hrunning, rfl⟩ := settle_eq_some hc.serial h
    exact (hc.toBooks.settle hdrains outcome _).drain hrunning rfl

theorem reachable_orderly (hc : (system ε α cfg).Reachable c) : Orderly cfg c := by
  refine hc.induct (fun c hc => ?_) fun c l c' _ ih h => ih.step h
  rw [hc]
  exact orderly_fresh

/-! ## What the books say -/

theorem Books.perm (hc : Books cfg c) : (starts c.history ++ c.writeQueue).Perm (arrivals c.history) := by
  refine List.perm_iff_count.mpr fun t => ?_
  have hcount : ∀ l : List Task, l.count t = (l.filter (·.priority = t.priority)).count t := fun l => by
    rw [List.count_filter (by simp)]
  rw [hcount (starts c.history ++ c.writeQueue), hcount (arrivals c.history), hc.order]

theorem Books.nodup (hc : Books cfg c) : (arrivals c.history).Nodup := by
  refine List.nodup_iff_getElem?_ne_getElem?.mpr fun i j hij hj heq => ?_
  obtain ⟨t, ht⟩ : ∃ t, (arrivals c.history)[j]? = some t := ⟨_, List.getElem?_eq_getElem hj⟩
  have hi := hc.numbered i t (heq.trans ht)
  have hj := hc.numbered j t ht
  omega

/-- How many tasks are not settled. -/
def Client.outstanding (c : Client ε α) : ℕ := c.drains.length + c.writeQueue.length

theorem drain_facts (cfg : Config) (c : Client ε α) :
    (c.drain cfg).outstanding = c.outstanding ∧ arrivals (c.drain cfg).history = arrivals c.history ∧
      settlements (c.drain cfg).history = settlements c.history := by
  unfold Client.drain
  split
  · exact ⟨rfl, rfl, rfl⟩
  · next t rest hsome =>
    obtain ⟨before, after, hqueue, hrest, -⟩ := dequeue_some hsome
    refine ⟨?_, ?_, ?_⟩
    · unfold Client.outstanding
      rw [hqueue, hrest]
      simp only [List.length_append, List.length_cons, List.length_nil]
      omega
    · exact arrivals_append.trans (List.append_nil _)
    · exact settlements_append.trans (List.append_nil _)

/-- Whatever their outcomes are, the tasks that are there are settled one after the other, and then none is left. -/
theorem Orderly.exists_finish (hc : Orderly cfg c) (outcomes : List (Except ε α))
    (hlength : outcomes.length = c.outstanding) :
    ∃ c', TransitionSystem.Path (system ε α cfg).step c (outcomes.map (.settle 0)) c' ∧ c'.outstanding = 0 ∧
      arrivals c'.history = arrivals c.history ∧
      (settlements c'.history).map Prod.snd = (settlements c.history).map Prod.snd ++ outcomes := by
  induction outcomes generalizing c with
  | nil => exact ⟨c, .nil, hlength.symm, rfl, (List.append_nil _).symm⟩
  | cons outcome outcomes ih =>
    rw [List.length_cons] at hlength
    rcases hc.serial with ⟨-, t, ht⟩ | ⟨-, hdrains, hqueue⟩
    · obtain ⟨c₁, hstep⟩ : ∃ c₁, WriteQueue.step cfg c (.settle 0 outcome) = some c₁ := by
        unfold WriteQueue.step Client.settle
        rw [ht]
        exact ⟨_, rfl⟩
      obtain ⟨u, hu, -, -, hc₁⟩ := settle_eq_some hc.serial hstep
      have hfacts := drain_facts cfg { c with
        drains := []
        history := c.history ++ [.settled u outcome]
        highPriorityStreak := Client.streakAfter u outcome c.highPriorityStreak }
      rw [← hc₁] at hfacts
      obtain ⟨houtstanding, harrivals, hsettlements⟩ := hfacts
      have hless : c₁.outstanding + 1 = c.outstanding := by
        rw [houtstanding]
        unfold Client.outstanding
        rw [hu]
        simp only [List.length_nil, List.length_singleton]
        omega
      obtain ⟨c', hpath, hnone, harrivals', hsettlements'⟩ := ih (hc.step hstep) (by omega)
      refine ⟨c', (TransitionSystem.Path.single hstep).append hpath, hnone, ?_, ?_⟩
      · rw [harrivals', harrivals, arrivals_append]
        exact List.append_nil _
      · rw [hsettlements', hsettlements, settlements_append, List.map_append, List.append_assoc]
        rfl
    · unfold Client.outstanding at hlength
      rw [hdrains, hqueue] at hlength
      simp at hlength

end

end AuditGuard.WriteQueue
