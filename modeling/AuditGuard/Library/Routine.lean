import AuditGuard.Library.Transition

/-!
# Cooperative tasks

Tasks that share a memory and take turns: a task has the processor until it awaits the answer to a request, and while
it waits, other tasks run, the world outside moves, and time passes. A request may fail, and a failure that nothing
catches ends the task. `Routine` is such a program, `Routine.System` is a pool of them under every schedule and every
behaviour of the world.

The proof rules are those of a program logic with a shared invariant: a task may rely on the invariant whenever it
gets the processor, and must have it restored when it awaits (`Routine.Sat`, `Routine.Sat.bind`,
`Routine.Sat.tryCatch`). If every task that can be started meets its specification, then in every reachable state the
invariant holds and every request that was sent is one that the specification allows (`Routine.System.run_kept`). What
a task has been answered so far is part of the specification, and so are notes, by which a task tells what it is about
to decide on.
-/

/-- A program that shares the memory `Mem`, starts others out of `Start`, and sends requests `Req`. -/
inductive Routine (Mem Note Start Req : Type) (Res : Req → Type) (α : Type) : Type
  /-- The task returns. -/
  | done (a : α)
  /-- The task throws. -/
  | fail (message : String)
  /-- It reads the memory. -/
  | get (k : Mem → Routine Mem Note Start Req Res α)
  /-- It writes the memory. -/
  | set (m : Mem) (k : Routine Mem Note Start Req Res α)
  /-- It reads the clock. -/
  | clock (k : ℕ → Routine Mem Note Start Req Res α)
  /-- It tells what it sees, which has no effect. -/
  | note (n : Note) (k : Routine Mem Note Start Req Res α)
  /-- It starts another task, and does not wait for it. -/
  | start (s : Start) (k : Routine Mem Note Start Req Res α)
  /-- It sends a request and waits for the answer. -/
  | await (r : Req) (k : Except String (Res r) → Routine Mem Note Start Req Res α)

namespace Routine

variable {Mem Note Start Req World : Type} {Res : Req → Type} {α β : Type}

/-- One task after the other. -/
def bind : Routine Mem Note Start Req Res α → (α → Routine Mem Note Start Req Res β) →
    Routine Mem Note Start Req Res β
  | done a, f => f a
  | fail message, _ => fail message
  | get k, f => get fun m => (k m).bind f
  | set m k, f => set m (k.bind f)
  | clock k, f => clock fun now => (k now).bind f
  | note n k, f => note n (k.bind f)
  | start s k, f => start s (k.bind f)
  | await r k, f => await r fun a => (k a).bind f

/-- What a failure is caught with. -/
def tryCatch : Routine Mem Note Start Req Res α → (String → Routine Mem Note Start Req Res α) →
    Routine Mem Note Start Req Res α
  | done a, _ => done a
  | fail message, f => f message
  | get k, f => get fun m => (k m).tryCatch f
  | set m k, f => set m (k.tryCatch f)
  | clock k, f => clock fun now => (k now).tryCatch f
  | note n k, f => note n (k.tryCatch f)
  | start s k, f => start s (k.tryCatch f)
  | await r k, f => await r fun a => (k a).tryCatch f

instance : Monad (Routine Mem Note Start Req Res) where
  pure := done
  bind := bind

instance : MonadExceptOf String (Routine Mem Note Start Req Res) where
  throw := fail
  tryCatch := tryCatch

/-- The memory. -/
def memory : Routine Mem Note Start Req Res Mem := get done

/-- The time. -/
def time : Routine Mem Note Start Req Res ℕ := clock done

/-- A change of the memory. -/
def modify (f : Mem → Mem) : Routine Mem Note Start Req Res Unit := get fun m => set (f m) (done ())

/-- Telling what it sees. -/
def tell (n : Note) : Routine Mem Note Start Req Res Unit := note n (done ())

/-- Starting another task. -/
def spawn (s : Start) : Routine Mem Note Start Req Res Unit := start s (done ())

/-- The answer to a request, which throws if the request failed. -/
def call (r : Req) : Routine Mem Note Start Req Res (Res r) :=
  await r fun
    | .ok a => done a
    | .error message => fail message

/-- The task's answer, or none if it failed. -/
def attempt (x : Routine Mem Note Start Req Res α) : Routine Mem Note Start Req Res (Option α) :=
  (x.bind fun a => done (some a)).tryCatch fun _ => done none

/-- What a task does until it waits or ends: the memory it leaves, what it told, what it started, and the task that
is left. -/
structure Ran (Mem Note Start Req : Type) (Res : Req → Type) (α : Type) where
  mem : Mem
  notes : List Note
  starts : List Start
  rest : Routine Mem Note Start Req Res α

/-- A task with the processor. -/
def run (now : ℕ) : Routine Mem Note Start Req Res α → Mem → Ran Mem Note Start Req Res α
  | done a, m => ⟨m, [], [], done a⟩
  | fail message, m => ⟨m, [], [], fail message⟩
  | get k, m => (k m).run now m
  | set m k, _ => k.run now m
  | clock k, m => (k now).run now m
  | note n k, m =>
    let ran := k.run now m
    { ran with notes := n :: ran.notes }
  | start s k, m =>
    let ran := k.run now m
    { ran with starts := s :: ran.starts }
  | await r k, m => ⟨m, [], [], await r k⟩

/-! ## Specifications -/

/-- An answer that a task got, at its time, with the world before and after it. -/
structure Served (World Req : Type) (Res : Req → Type) where
  req : Req
  answer : Except String (Res req)
  src : World
  dst : World
  time : ℕ

/-- A pool of tasks: how the world moves and answers, what the tasks do, and when one may be started from
outside. -/
structure System (Mem Note Start Req World : Type) (Res : Req → Type) where
  /-- The world moves, by any number of steps. -/
  later : World → World → Prop
  later_refl : ∀ w, later w w
  later_trans : ∀ w w' w'', later w w' → later w' w'' → later w w''
  /-- The world answers a request, at a time. -/
  serves : ℕ → World → (r : Req) → Except String (Res r) → World → Prop
  serves_later : ∀ t w r a w', serves t w r a w' → later w w'
  triggers : World → Start → Prop
  body : Start → Routine Mem Note Start Req Res Unit
  initial : Mem → World → Prop

/-- What the tasks rely on and what they guarantee. -/
structure Rules (Mem Note Start Req World : Type) (Res : Req → Type) where
  /-- What holds of the memory and the world whenever no task has the processor. -/
  inv : Mem → World → Prop
  /-- What is assumed of what a task tells. -/
  assumes : World → ℕ → Note → Prop
  /-- The requests that a task may send, after what it was answered. -/
  allows : List (Served World Req Res) → Mem → World → ℕ → Req → Prop
  /-- The tasks that may be started, after what their starter was answered. -/
  may : List (Served World Req Res) → World → ℕ → Start → Prop

variable (Y : System Mem Note Start Req World Res) (R : Rules Mem Note Start Req World Res)

/-- The answer `e` comes to a request that was sent at the time `t` in the world `w`, after the answers `h`, and
arrives at the time `t'` in the world `w'`. -/
structure Arrives (h : List (Served World Req Res)) (w : World) (t : ℕ) (e : Served World Req Res) (w' : World)
    (t' : ℕ) : Prop where
  sent : Y.later w e.src
  before : t ≤ e.time
  served : Y.serves e.time e.src e.req e.answer e.dst
  arrived : Y.later e.dst w'
  after : e.time ≤ t'
  known : ∀ e' ∈ h, Y.later e'.dst e.src

/-- The task, with the processor, ends with `Q`, or throws with `E`, and does on its way only what the rules
admit. -/
def Sat (Q : α → List (Served World Req Res) → Mem → World → ℕ → Prop)
    (E : String → List (Served World Req Res) → Mem → World → ℕ → Prop) :
    Routine Mem Note Start Req Res α → List (Served World Req Res) → Mem → World → ℕ → Prop
  | done a, h, m, w, t => Q a h m w t
  | fail message, h, m, w, t => E message h m w t
  | get k, h, m, w, t => Sat Q E (k m) h m w t
  | set m k, h, _, w, t => Sat Q E k h m w t
  | clock k, h, m, w, t => Sat Q E (k t) h m w t
  | note n k, h, m, w, t => R.assumes w t n → Sat Q E k h m w t
  | start s k, h, m, w, t => R.may h w t s ∧ Sat Q E k h m w t
  | await r k, h, m, w, t => R.inv m w ∧ R.allows h m w t r ∧
      ∀ a src dst time m' w' t', Arrives Y h w t ⟨r, a, src, dst, time⟩ w' t' → R.inv m' w' →
        Sat Q E (k a) (h ++ [⟨r, a, src, dst, time⟩]) m' w' t'

variable {Y} {R} {Q Q' : α → List (Served World Req Res) → Mem → World → ℕ → Prop}
  {E E' : String → List (Served World Req Res) → Mem → World → ℕ → Prop}
  {x : Routine Mem Note Start Req Res α} {h : List (Served World Req Res)} {m : Mem} {w : World} {t : ℕ}

/-- What holds at the end may be weakened. -/
theorem Sat.mono (hx : Sat Y R Q E x h m w t) (hQ : ∀ a h m w t, Q a h m w t → Q' a h m w t)
    (hE : ∀ message h m w t, E message h m w t → E' message h m w t) : Sat Y R Q' E' x h m w t := by
  induction x generalizing h m w t with
  | done a => exact hQ _ _ _ _ _ hx
  | fail message => exact hE _ _ _ _ _ hx
  | get k ih => exact ih m hx
  | set m k ih => exact ih hx
  | clock k ih => exact ih t hx
  | note n k ih => exact fun hn => ih (hx hn)
  | start s k ih => exact ⟨hx.1, ih hx.2⟩
  | await r k ih =>
    obtain ⟨hinv, hallows, hk⟩ := hx
    exact ⟨hinv, hallows, fun a src dst time m' w' t' harrives hinv' =>
      ih a (hk a src dst time m' w' t' harrives hinv')⟩

/-- The rule of a sequence. -/
theorem Sat.bind {f : α → Routine Mem Note Start Req Res β}
    {Q' : β → List (Served World Req Res) → Mem → World → ℕ → Prop}
    (hx : Sat Y R (fun a h m w t => Sat Y R Q' E (f a) h m w t) E x h m w t) :
    Sat Y R Q' E (x.bind f) h m w t := by
  induction x generalizing h m w t with
  | done a => exact hx
  | fail message => exact hx
  | get k ih => exact ih m hx
  | set m k ih => exact ih hx
  | clock k ih => exact ih t hx
  | note n k ih => exact fun hn => ih (hx hn)
  | start s k ih => exact ⟨hx.1, ih hx.2⟩
  | await r k ih =>
    obtain ⟨hinv, hallows, hk⟩ := hx
    exact ⟨hinv, hallows, fun a src dst time m' w' t' harrives hinv' =>
      ih a (hk a src dst time m' w' t' harrives hinv')⟩

/-- The rule of an error that is caught. -/
theorem Sat.tryCatch {f : String → Routine Mem Note Start Req Res α}
    (hx : Sat Y R Q (fun message h m w t => Sat Y R Q E (f message) h m w t) x h m w t) :
    Sat Y R Q E (x.tryCatch f) h m w t := by
  induction x generalizing h m w t with
  | done a => exact hx
  | fail message => exact hx
  | get k ih => exact ih m hx
  | set m k ih => exact ih hx
  | clock k ih => exact ih t hx
  | note n k ih => exact fun hn => ih (hx hn)
  | start s k ih => exact ⟨hx.1, ih hx.2⟩
  | await r k ih =>
    obtain ⟨hinv, hallows, hk⟩ := hx
    exact ⟨hinv, hallows, fun a src dst time m' w' t' harrives hinv' =>
      ih a (hk a src dst time m' w' t' harrives hinv')⟩

/-- What is left of a task when it waits still meets its specification. -/
theorem Sat.run (hx : Sat Y R Q E x h m w t) (hnotes : ∀ n ∈ (x.run t m).notes, R.assumes w t n) :
    Sat Y R Q E (x.run t m).rest h (x.run t m).mem w t ∧ ∀ s ∈ (x.run t m).starts, R.may h w t s := by
  induction x generalizing m with
  | done a => exact ⟨hx, by simp [Routine.run]⟩
  | fail message => exact ⟨hx, by simp [Routine.run]⟩
  | get k ih => exact ih m hx hnotes
  | set m k ih => exact ih hx hnotes
  | clock k ih => exact ih t hx hnotes
  | note n k ih =>
    simp only [Routine.run, List.forall_mem_cons] at hnotes
    exact ih (hx hnotes.1) hnotes.2
  | start s k ih =>
    obtain ⟨hrest, hstarts⟩ := ih hx.2 hnotes
    refine ⟨hrest, ?_⟩
    simp only [Routine.run, List.forall_mem_cons]
    exact ⟨hx.1, hstarts⟩
  | await r k ih => exact ⟨hx, by simp [Routine.run]⟩

/-! ## Pools of tasks -/

/-- The memory, the world, the time, and the tasks that were started, each with the answers it got. -/
structure Pool (Mem Note Start Req World : Type) (Res : Req → Type) where
  mem : Mem
  world : World
  now : ℕ
  tasks : List (List (Served World Req Res) × Routine Mem Note Start Req Res Unit)

/-- What a step of a pool is. -/
inductive Label (Note Start : Type)
  | start (s : Start)
  | answer
  | run (notes : List Note)
  | move
  | tick

section Pools

variable (Y)

/-- The steps of a pool: a task is started from outside, a request is answered, a task has the processor until it
waits or ends, the world moves, and time passes. -/
inductive Step : Pool Mem Note Start Req World Res → Label Note Start → Pool Mem Note Start Req World Res → Prop
  | start {p : Pool Mem Note Start Req World Res} {s : Start} (hs : Y.triggers p.world s) :
      Step p (.start s) { p with tasks := p.tasks ++ [([], Y.body s)] }
  | answer {p : Pool Mem Note Start Req World Res} {h : List (Served World Req Res)} {r : Req}
      {k : Except String (Res r) → Routine Mem Note Start Req Res Unit} {a : Except String (Res r)} {w : World}
      {before after : List (List (Served World Req Res) × Routine Mem Note Start Req Res Unit)}
      (htasks : p.tasks = before ++ (h, .await r k) :: after) (hserves : Y.serves p.now p.world r a w) :
      Step p .answer { p with
        world := w
        tasks := before ++ (h ++ [⟨r, a, p.world, w, p.now⟩], k a) :: after }
  | run {p : Pool Mem Note Start Req World Res} {h : List (Served World Req Res)}
      {x : Routine Mem Note Start Req Res Unit}
      {before after : List (List (Served World Req Res) × Routine Mem Note Start Req Res Unit)}
      (htasks : p.tasks = before ++ (h, x) :: after) :
      Step p (.run (x.run p.now p.mem).notes) { p with
        mem := (x.run p.now p.mem).mem
        tasks := before ++ (h, (x.run p.now p.mem).rest) :: after ++
          (x.run p.now p.mem).starts.map fun s => (h, Y.body s) }
  | move {p : Pool Mem Note Start Req World Res} {w : World} (hw : Y.later p.world w) :
      Step p .move { p with world := w }
  | tick {p : Pool Mem Note Start Req World Res} {now : ℕ} (ht : p.now ≤ now) :
      Step p .tick { p with now := now }

/-- The pool, from nothing started on, under every schedule. -/
def System.system : TransitionSystem (Pool Mem Note Start Req World Res) (Label Note Start) where
  init p := Y.initial p.mem p.world ∧ p.tasks = []
  step := Step Y

end Pools

variable (Y R) in
/-- The tasks meet their specification: they restore the invariant, and every task that may be started does only
what the rules admit. -/
structure Meets : Prop where
  initial : ∀ m w, Y.initial m w → R.inv m w
  inv_later : ∀ m w w', R.inv m w → Y.later w w' → R.inv m w'
  may_later : ∀ h m w t s w' t', R.inv m w → R.may h w t s → Y.later w w' → t ≤ t' → R.may h w' t' s
  triggered : ∀ w t s, Y.triggers w s → R.may [] w t s
  body : ∀ s h m w t, R.may h w t s → R.inv m w → (∀ e ∈ h, Y.later e.dst w) →
    Sat Y R (fun _ _ m w _ => R.inv m w) (fun _ _ m w _ => R.inv m w) (Y.body s) h m w t

variable (Y R) in
/-- A task without the processor: it waits for an answer to a request that it was allowed to send, or it is ready to
run. -/
inductive Waits (h : List (Served World Req Res)) : Routine Mem Note Start Req Res Unit → World → ℕ → Prop
  | sent {r : Req} {k : Except String (Res r) → Routine Mem Note Start Req Res Unit} {w : World} {t : ℕ}
      (hsent : ∃ m₀ w₀ t₀, R.inv m₀ w₀ ∧ Y.later w₀ w ∧ t₀ ≤ t ∧ R.allows h m₀ w₀ t₀ r)
      (hk : ∀ a src dst time m' w' t', Arrives Y h w t ⟨r, a, src, dst, time⟩ w' t' → R.inv m' w' →
        Sat Y R (fun _ _ m w _ => R.inv m w) (fun _ _ m w _ => R.inv m w) (k a)
          (h ++ [⟨r, a, src, dst, time⟩]) m' w' t') : Waits h (.await r k) w t
  | ready {x : Routine Mem Note Start Req Res Unit} {w : World} {t : ℕ}
      (hx : ∀ m' w' t', Y.later w w' → t ≤ t' → R.inv m' w' →
        Sat Y R (fun _ _ m w _ => R.inv m w) (fun _ _ m w _ => R.inv m w) x h m' w' t') : Waits h x w t

variable (Y R) in
/-- The invariant holds of the memory and the world, and every task is in order. -/
structure Kept (p : Pool Mem Note Start Req World Res) : Prop where
  inv : R.inv p.mem p.world
  known : ∀ task ∈ p.tasks, ∀ e ∈ task.1, Y.later e.dst p.world
  waits : ∀ task ∈ p.tasks, Waits Y R task.1 task.2 p.world p.now

variable {w' : World} {t' : ℕ} {y : Routine Mem Note Start Req Res Unit}
  {p p' : Pool Mem Note Start Req World Res} {l : Label Note Start}

theorem Arrives.of_later {e : Served World Req Res} {w'' : World} {t'' : ℕ} (he : Arrives Y h w' t' e w'' t'')
    (hw : Y.later w w') (ht : t ≤ t') : Arrives Y h w t e w'' t'' :=
  { he with
    sent := Y.later_trans _ _ _ hw he.sent
    before := Nat.le_trans ht he.before }

theorem Waits.later (hy : Waits Y R h y w t) (hw : Y.later w w') (ht : t ≤ t') : Waits Y R h y w' t' := by
  cases hy with
  | sent hsent hk =>
    obtain ⟨m₀, w₀, t₀, hinv₀, hw₀, ht₀, hallows⟩ := hsent
    refine .sent ⟨m₀, w₀, t₀, hinv₀, Y.later_trans _ _ _ hw₀ hw, Nat.le_trans ht₀ ht, hallows⟩ ?_
    exact fun a src dst time m' w'' t'' harrives => hk a src dst time m' w'' t'' (harrives.of_later hw ht)
  | ready hx =>
    exact .ready fun m' w'' t'' hw' ht' => hx m' w'' t'' (Y.later_trans _ _ _ hw hw') (Nat.le_trans ht ht')

/-- The task waits, or it has ended. -/
inductive Halted : Routine Mem Note Start Req Res α → Prop
  | done {a : α} : Halted (.done a)
  | fail {message : String} : Halted (.fail message)
  | await {r : Req} {k : Except String (Res r) → Routine Mem Note Start Req Res α} : Halted (.await r k)

theorem run_halted (x : Routine Mem Note Start Req Res α) (t : ℕ) (m : Mem) : Halted (x.run t m).rest := by
  induction x generalizing m with
  | done a => exact .done
  | fail message => exact .fail
  | get k ih => exact ih m m
  | set m' k ih => exact ih m'
  | clock k ih => exact ih t m
  | note n k ih => exact ih m
  | start s k ih => exact ih m
  | await r k ih => exact .await

theorem Halted.waits (hy : Halted y)
    (hsat : Sat Y R (fun _ _ m w _ => R.inv m w) (fun _ _ m w _ => R.inv m w) y h m w t) :
    R.inv m w ∧ Waits Y R h y w t := by
  cases hy with
  | done => exact ⟨hsat, .ready fun m' w' t' _ _ hinv => hinv⟩
  | fail => exact ⟨hsat, .ready fun m' w' t' _ _ hinv => hinv⟩
  | await =>
    obtain ⟨hinv, hallows, hk⟩ := hsat
    exact ⟨hinv, .sent ⟨m, w, t, hinv, Y.later_refl w, Nat.le_refl t, hallows⟩ hk⟩

theorem Meets.waits (hY : Meets Y R) {s : Start} (hinv : R.inv m w) (hs : R.may h w t s)
    (hknown : ∀ e ∈ h, Y.later e.dst w) : Waits Y R h (Y.body s) w t := by
  refine .ready fun m' w' t' hw ht hinv' => ?_
  refine hY.body s h m' w' t' (hY.may_later _ _ _ _ _ _ _ hinv hs hw ht) hinv' fun e he => ?_
  exact Y.later_trans _ _ _ (hknown e he) hw

theorem Kept.later (hp : Kept Y R p) (hinv : R.inv p.mem w') (hw : Y.later p.world w') (ht : p.now ≤ t') :
    Kept Y R { p with world := w', now := t' } where
  inv := hinv
  known task htask e he := Y.later_trans _ _ _ (hp.known task htask e he) hw
  waits task htask := (hp.waits task htask).later hw ht

theorem Waits.sat (hy : Waits Y R h y w t) (hinv : R.inv m w) (hnotes : ∀ n ∈ (y.run t m).notes, R.assumes w t n) :
    (R.inv (y.run t m).mem w ∧ Waits Y R h (y.run t m).rest w t) ∧
      ∀ s ∈ (y.run t m).starts, R.may h w t s := by
  cases hy with
  | sent hsent hk => exact ⟨⟨hinv, .sent hsent hk⟩, by simp [Routine.run]⟩
  | ready hx =>
    have hsat := hx m w t (Y.later_refl w) (Nat.le_refl t) hinv
    obtain ⟨hrest, hstarts⟩ := hsat.run hnotes
    exact ⟨(run_halted y t m).waits hrest, hstarts⟩

theorem Waits.answer {r : Req} {k : Except String (Res r) → Routine Mem Note Start Req Res Unit}
    (hy : Waits Y R h (.await r k) w t) (hinv : R.inv m w) {a : Except String (Res r)}
    (hserves : Y.serves t w r a w') (hknown : ∀ e ∈ h, Y.later e.dst w) :
    Waits Y R (h ++ [⟨r, a, w, w', t⟩]) (k a) w' t := by
  refine .ready fun m' w'' t'' hw ht hinv' => ?_
  have harrives : Arrives Y h w t ⟨r, a, w, w', t⟩ w'' t'' := ⟨Y.later_refl w, Nat.le_refl t, hserves, hw, ht, hknown⟩
  cases hy with
  | sent hsent hk => exact hk a w w' t m' w'' t'' harrives hinv'
  | ready hx => exact (hx m w t (Y.later_refl w) (Nat.le_refl t) hinv).2.2 a w w' t m' w'' t'' harrives hinv'

theorem Waits.sent_allowed {r : Req} {k : Except String (Res r) → Routine Mem Note Start Req Res Unit}
    (hy : Waits Y R h (.await r k) w t) (hinv : R.inv m w) :
    ∃ m₀ w₀ t₀, R.inv m₀ w₀ ∧ Y.later w₀ w ∧ t₀ ≤ t ∧ R.allows h m₀ w₀ t₀ r := by
  cases hy with
  | sent hsent hk => exact hsent
  | ready hx =>
    have hsat := hx m w t (Y.later_refl w) (Nat.le_refl t) hinv
    exact ⟨m, w, t, hinv, Y.later_refl w, Nat.le_refl t, hsat.2.1⟩

theorem mem_replaced {τ : Type} {before after : List τ} {new task : τ} (old : τ)
    (h : task ∈ before ++ new :: after) : task = new ∨ task ∈ before ++ old :: after := by
  rcases List.mem_append.mp h with h | h
  · exact .inr (List.mem_append_left _ h)
  · rcases List.mem_cons.mp h with h | h
    · exact .inl h
    · exact .inr (List.mem_append_right _ (List.mem_cons_of_mem _ h))

/-- The step meets the assumptions, if it is a task telling what it sees. -/
def Label.Meets (R : Rules Mem Note Start Req World Res) (p : Pool Mem Note Start Req World Res) :
    Label Note Start → Prop
  | .run notes => ∀ n ∈ notes, R.assumes p.world p.now n
  | _ => True

/-- A step keeps everything in order. -/
theorem Step.kept (hY : Meets Y R) (hp : Kept Y R p) (hstep : Step Y p l p') (hl : l.Meets R p) :
    Kept Y R p' := by
  cases hstep with
  | start hs =>
    exact { hp with
      known := fun task htask e he => by
        rcases List.mem_append.mp htask with htask | htask
        · exact hp.known task htask e he
        · rw [List.mem_singleton.mp htask] at he
          exact absurd he List.not_mem_nil
      waits := fun task htask => by
        rcases List.mem_append.mp htask with htask | htask
        · exact hp.waits task htask
        · rw [List.mem_singleton.mp htask]
          exact hY.waits hp.inv (hY.triggered _ _ _ hs) (by simp) }
  | @answer h r k a w before after htasks hserves =>
    have hw := Y.serves_later _ _ _ _ _ hserves
    have hkept := hp.later (hY.inv_later _ _ _ hp.inv hw) hw (Nat.le_refl p.now)
    have htask : (h, Routine.await r k) ∈ p.tasks := by
      rw [htasks]
      simp
    have hknown := hp.known _ htask
    have hgoes := (hp.waits _ htask).answer hp.inv hserves hknown
    exact {
      inv := hkept.inv
      known := fun task htask e he => by
        rcases mem_replaced (h, Routine.await r k) htask with rfl | hold
        · rcases List.mem_append.mp he with he | he
          · exact Y.later_trans _ _ _ (hknown e he) hw
          · rw [List.mem_singleton.mp he]
            exact Y.later_refl w
        · exact hkept.known task (htasks ▸ hold) e he
      waits := fun task htask => by
        rcases mem_replaced (h, Routine.await r k) htask with rfl | hold
        · exact hgoes
        · exact hkept.waits task (htasks ▸ hold) }
  | @run h x before after htasks =>
    have htask : (h, x) ∈ p.tasks := by
      rw [htasks]
      simp
    have hknown := hp.known _ htask
    obtain ⟨⟨hinv, hrest⟩, hstarts⟩ := (hp.waits _ htask).sat hp.inv hl
    exact {
      inv := hinv
      known := fun task htask e he => by
        rcases List.mem_append.mp htask with htask | htask
        · rcases mem_replaced (h, x) htask with rfl | hold
          · exact hknown e he
          · exact hp.known task (htasks ▸ hold) e he
        · obtain ⟨s, -, rfl⟩ := List.mem_map.mp htask
          exact hknown e he
      waits := fun task htask => by
        rcases List.mem_append.mp htask with htask | htask
        · rcases mem_replaced (h, x) htask with rfl | hold
          · exact hrest
          · exact hp.waits task (htasks ▸ hold)
        · obtain ⟨s, hs, rfl⟩ := List.mem_map.mp htask
          exact hY.waits hp.inv (hstarts s hs) hknown }
  | move hw => exact hp.later (hY.inv_later _ _ _ hp.inv hw) hw (Nat.le_refl _)
  | tick ht => exact hp.later hp.inv (Y.later_refl _) ht

/-- A run keeps everything in order. -/
theorem System.run_kept (hY : Meets Y R) {ts : List (Transition (Pool Mem Note Start Req World Res) (Label Note Start))}
    (hr : Y.system.Run ts p) (hts : ∀ tr ∈ ts, tr.label.Meets R tr.src) : Kept Y R p := by
  induction hr with
  | init h =>
    exact {
      inv := hY.initial _ _ h.1
      known := by simp [h.2]
      waits := by simp [h.2] }
  | step _ hstep ih =>
    refine Step.kept hY (ih fun tr htr => hts tr (List.mem_append_left _ htr)) hstep ?_
    exact hts ⟨_, _, _⟩ (List.mem_append_right _ (List.mem_singleton_self _))

theorem Kept.sent_allowed (hp : Kept Y R p) {r : Req} {k : Except String (Res r) → Routine Mem Note Start Req Res Unit}
    (htask : (h, .await r k) ∈ p.tasks) :
    ∃ m₀ w₀ t₀, R.inv m₀ w₀ ∧ Y.later w₀ p.world ∧ t₀ ≤ p.now ∧ R.allows h m₀ w₀ t₀ r :=
  (hp.waits _ htask).sent_allowed hp.inv

end Routine
