import AuditGuard.Library.Routine

/-!
# Replaying a task

A task that is started in a pool and has its requests answered in the order of a script, while nothing else happens,
is a run (`Routine.System.exists_replay`). What it comes to is computed by `Routine.replay`, which is how a concrete
history is shown to be one.

What a task may come to whatever it is answered is `Routine.Comes`. A task of which every step leaves a part of
the memory alone is `Routine.Leaves`. Where all tasks but some do so, a step that changes that part is one of these
(`Step.descends`).
-/

namespace Routine

open TransitionSystem

variable {Mem Note Start Req World α : Type} {Res : Req → Type}

/-- A request with its answer. -/
structure Reply (Req : Type) (Res : Req → Type) where
  req : Req
  answer : Except String (Res req)

/-- Where a task is after a script: the memory, its answers, what is left of it, and what it told. -/
structure Replayed (Mem Note Start Req World : Type) (Res : Req → Type) where
  mem : Mem
  history : List (Served World Req Res)
  rest : Routine Mem Note Start Req Res Unit
  notes : List Note

/-- A task with the processor, and then the answers of the script, as long as they are to what it asks. -/
def replay [DecidableEq Req] (w : World) (now : ℕ) : List (Reply Req Res) → List (Served World Req Res) →
    Routine Mem Note Start Req Res Unit → Mem → Replayed Mem Note Start Req World Res
  | [], h, x, m => ⟨(x.run now m).mem, h, (x.run now m).rest, (x.run now m).notes⟩
  | reply :: script, h, x, m =>
    match (x.run now m).rest with
    | .await r k =>
      if hr : reply.req = r then
        let next := replay w now script (h ++ [⟨r, hr ▸ reply.answer, w, w, now⟩]) (k (hr ▸ reply.answer))
          (x.run now m).mem
        { next with notes := (x.run now m).notes ++ next.notes }
      else ⟨(x.run now m).mem, h, .await r k, (x.run now m).notes⟩
    | y => ⟨(x.run now m).mem, h, y, (x.run now m).notes⟩

variable {Y : System Mem Note Start Req World Res}
  {ts : List (Transition (Pool Mem Note Start Req World Res) (Label Note Start))}
  {p : Pool Mem Note Start Req World Res}

/-- The steps are those of one task, which tells no more than `notes`, while the world stands still. -/
def Silent (p : Pool Mem Note Start Req World Res) (notes : List Note)
    (ts : List (Transition (Pool Mem Note Start Req World Res) (Label Note Start))) : Prop :=
  ∀ tr ∈ ts, tr.src.world = p.world ∧ tr.src.now = p.now ∧ ∀ told, tr.label = .run told → ∀ n ∈ told, n ∈ notes

theorem Silent.snoc {notes : List Note} (h : Silent p notes ts) {p' q : Pool Mem Note Start Req World Res}
    {l : Label Note Start} (hw : p'.world = p.world) (hnow : p'.now = p.now)
    (hl : ∀ told, l = .run told → ∀ n ∈ told, n ∈ notes) : Silent p notes (ts ++ [⟨p', l, q⟩]) := by
  intro tr htr
  rcases List.mem_append.mp htr with htr | htr
  · exact h tr htr
  · rw [List.mem_singleton.mp htr]
    exact ⟨hw, hnow, hl⟩

theorem Silent.mono {notes notes' : List Note} (h : Silent p notes ts) (hsub : ∀ n ∈ notes, n ∈ notes') :
    Silent p notes' ts := fun tr htr =>
  ⟨(h tr htr).1, (h tr htr).2.1, fun told hl n hn => hsub n ((h tr htr).2.2 told hl n hn)⟩

theorem Silent.run {notes : List Note} (h : Silent p notes ts) {p' q : Pool Mem Note Start Req World Res}
    (hw : p'.world = p.world) (hnow : p'.now = p.now) (told : List Note) :
    Silent p (notes ++ told) (ts ++ [⟨p', .run told, q⟩]) := by
  refine (h.mono fun n hn => List.mem_append_left _ hn).snoc hw hnow ?_
  rintro told' ⟨⟩ n hn
  exact List.mem_append_right _ hn

variable {ts₀ : List (Transition (Pool Mem Note Start Req World Res) (Label Note Start))}
  {h : List (Served World Req Res)} {x : Routine Mem Note Start Req Res Unit}
  {before after : List (List (Served World Req Res) × Routine Mem Note Start Req Res Unit)}
  {q : Pool Mem Note Start Req World Res} {notes : List Note}

theorem exists_turn (hr : Y.system.Run (ts₀ ++ ts) q) (hsilent : Silent p notes ts) (hw : q.world = p.world)
    (hnow : q.now = p.now) (htasks : q.tasks = before ++ (h, x) :: after) :
    ∃ ts' q', Y.system.Run (ts₀ ++ ts') q' ∧ q'.mem = (x.run p.now q.mem).mem ∧ q'.world = p.world ∧
      q'.now = p.now ∧ (∃ after', q'.tasks = before ++ (h, (x.run p.now q.mem).rest) :: after') ∧
      Silent p (notes ++ (x.run p.now q.mem).notes) ts' := by
  have hran := hr.step (Step.run htasks)
  rw [List.append_assoc, hnow] at hran
  refine ⟨_, _, hran, rfl, hw, rfl, ⟨_, List.append_assoc _ _ _⟩, hsilent.run hw hnow _⟩

theorem exists_answer {r : Req} {k : Except String (Res r) → Routine Mem Note Start Req Res Unit}
    {a : Except String (Res r)} (hr : Y.system.Run (ts₀ ++ ts) q) (hsilent : Silent p notes ts)
    (hw : q.world = p.world) (hnow : q.now = p.now) (htasks : q.tasks = before ++ (h, .await r k) :: after)
    (hserves : Y.serves p.now p.world r a p.world) :
    ∃ ts' q', Y.system.Run (ts₀ ++ ts') q' ∧ q'.mem = q.mem ∧ q'.world = p.world ∧ q'.now = p.now ∧
      q'.tasks = before ++ (h ++ [⟨r, a, p.world, p.world, p.now⟩], k a) :: after ∧ Silent p notes ts' := by
  have hserves' : Y.serves q.now q.world r a p.world := by
    rw [hw, hnow]
    exact hserves
  have hanswered := hr.step (Step.answer htasks hserves')
  rw [List.append_assoc, hw, hnow] at hanswered
  exact ⟨_, _, hanswered, rfl, rfl, rfl, rfl, hsilent.snoc hw hnow nofun⟩

theorem run_replay [DecidableEq Req] {script : List (Reply Req Res)}
    (hserves : ∀ reply ∈ script, Y.serves p.now p.world reply.req reply.answer p.world)
    (hr : Y.system.Run (ts₀ ++ ts) q) (hsilent : Silent p notes ts) (hw : q.world = p.world)
    (hnow : q.now = p.now) (htasks : q.tasks = before ++ (h, x) :: after) :
    ∃ ts' q', Y.system.Run (ts₀ ++ ts') q' ∧ q'.mem = (replay p.world p.now script h x q.mem).mem ∧
      q'.world = p.world ∧ q'.now = p.now ∧
      ((replay p.world p.now script h x q.mem).history, (replay p.world p.now script h x q.mem).rest) ∈ q'.tasks ∧
      Silent p (notes ++ (replay p.world p.now script h x q.mem).notes) ts' := by
  induction script generalizing h x q notes ts after with
  | nil =>
    obtain ⟨ts', q', hr', hmem, hw', hnow', ⟨after', htasks'⟩, hsilent'⟩ := exists_turn hr hsilent hw hnow htasks
    refine ⟨ts', q', hr', hmem, hw', hnow', ?_, hsilent'⟩
    rw [htasks']
    exact List.mem_append_right _ List.mem_cons_self
  | cons reply script ih =>
    obtain ⟨ts', q', hr', hmem, hw', hnow', ⟨after', htasks'⟩, hsilent'⟩ := exists_turn hr hsilent hw hnow htasks
    have hmem' : (h, (x.run p.now q.mem).rest) ∈ q'.tasks := by
      rw [htasks']
      exact List.mem_append_right _ List.mem_cons_self
    unfold replay
    split
    · rename_i r k hrest
      rw [hrest] at htasks' hmem'
      split_ifs with hreq
      · -- Its request is answered, and the task goes on.
        subst hreq
        have hserved := hserves reply List.mem_cons_self
        obtain ⟨ts'', q'', hr'', hmem'', hw'', hnow'', htasks'', hsilent''⟩ :=
          exists_answer hr' hsilent' hw' hnow' htasks' hserved
        have hnext := ih (fun reply hreply => hserves reply (List.mem_cons_of_mem _ hreply)) hr'' hsilent'' hw''
          hnow'' htasks''
        rw [hmem'', hmem, List.append_assoc] at hnext
        exact hnext
      · exact ⟨ts', q', hr', hmem, hw', hnow', hmem', hsilent'⟩
    · exact ⟨ts', q', hr', hmem, hw', hnow', hmem', hsilent'⟩

theorem System.exists_replay [DecidableEq Req] {script : List (Reply Req Res)} {s : Start}
    (hr : Y.system.Run ts₀ p) (hs : Y.triggers p.world s)
    (hserves : ∀ reply ∈ script, Y.serves p.now p.world reply.req reply.answer p.world) :
    ∃ ts p', Y.system.Run (ts₀ ++ ts) p' ∧ p'.mem = (replay p.world p.now script [] (Y.body s) p.mem).mem ∧
      p'.world = p.world ∧ p'.now = p.now ∧
      ((replay p.world p.now script [] (Y.body s) p.mem).history,
        (replay p.world p.now script [] (Y.body s) p.mem).rest) ∈ p'.tasks ∧
      Silent p (replay p.world p.now script [] (Y.body s) p.mem).notes ts := by
  have hstarted := hr.step (Step.start hs)
  have hsilent : Silent p [] [⟨p, .start s, { p with tasks := p.tasks ++ [([], Y.body s)] }⟩] := by
    intro tr htr
    rw [List.mem_singleton.mp htr]
    exact ⟨rfl, rfl, nofun⟩
  exact run_replay hserves hstarted hsilent rfl rfl rfl

theorem replay_world [DecidableEq Req] (w w' : World) (now : ℕ) (script : List (Reply Req Res))
    (h h' : List (Served World Req Res)) (x : Routine Mem Note Start Req Res Unit) (m : Mem) :
    (replay w now script h x m).mem = (replay w' now script h' x m).mem ∧
      (replay w now script h x m).rest = (replay w' now script h' x m).rest ∧
      (replay w now script h x m).notes = (replay w' now script h' x m).notes := by
  induction script generalizing h h' x m with
  | nil => exact ⟨rfl, rfl, rfl⟩
  | cons reply script ih =>
    unfold replay
    split
    · split_ifs with hreq
      · obtain ⟨hmem, hrest, hnotes⟩ := ih (h ++ [_]) (h' ++ [_]) _ _
        exact ⟨hmem, hrest, congrArg ((x.run now m).notes ++ ·) hnotes⟩
      · exact ⟨rfl, rfl, rfl⟩
    · exact ⟨rfl, rfl, rfl⟩

/-- The request whose answer a task waits for. -/
def asks : Routine Mem Note Start Req Res α → Option Req
  | await r _ => some r
  | _ => none

theorem exists_await {y : Routine Mem Note Start Req Res α} {r : Req} (hy : y.asks = some r) :
    ∃ k, y = .await r k := by
  cases y with
  | await r' k =>
    obtain rfl : r' = r := Option.some.inj hy
    exact ⟨k, rfl⟩
  | _ => cases hy

theorem replay_history [DecidableEq Req] {w : World} {now : ℕ} {script : List (Reply Req Res)} {m : Mem} :
    ∀ e ∈ (replay w now script h x m).history, e ∈ h ∨ e.src = w := by
  induction script generalizing h x m with
  | nil => exact fun e he => .inl he
  | cons reply script ih =>
    intro e he
    unfold replay at he
    split at he
    · split_ifs at he with hreq
      · rcases ih e he with he | he
        · rcases List.mem_append.mp he with he | he
          · exact .inl he
          · rw [List.mem_singleton.mp he]
            exact .inr rfl
        · exact .inr he
      · exact .inl he
    · exact .inl he

/-! ## What a task may come to -/

section Comes

variable {α β δ : Type} {others : Mem → Mem → Prop} {m m' : Mem} {ss : List Start}

/-- The task, with the processor, comes to the result `res`, leaves the memory `m'`, and has started the tasks `ss`.
While it waits, others change the memory as `others` admits, and an answer is any answer. -/
def Comes (others : Mem → Mem → Prop) :
    Routine Mem Note Start Req Res α → Mem → List Start → Except String α → Mem → Prop
  | done a, m, ss, res, m' => ss = [] ∧ res = .ok a ∧ m' = m
  | fail message, m, ss, res, m' => ss = [] ∧ res = .error message ∧ m' = m
  | get k, m, ss, res, m' => Comes others (k m) m ss res m'
  | set m₁ k, _, ss, res, m' => Comes others k m₁ ss res m'
  | clock k, m, ss, res, m' => ∃ now, Comes others (k now) m ss res m'
  | note _ k, m, ss, res, m' => Comes others k m ss res m'
  | start s k, m, ss, res, m' => ∃ ss', ss = s :: ss' ∧ Comes others k m ss' res m'
  | await _ k, m, ss, res, m' => ∃ a m₁, others m m₁ ∧ Comes others (k a) m₁ ss res m'

/-- Sequences associate. -/
theorem bind_assoc (x : Routine Mem Note Start Req Res α) (f : α → Routine Mem Note Start Req Res β)
    (g : β → Routine Mem Note Start Req Res δ) : (x.bind f).bind g = x.bind fun a => (f a).bind g := by
  induction x with
  | done a => rfl
  | fail message => rfl
  | get k ih => exact congrArg get (funext ih)
  | set m k ih => exact congrArg (set m) ih
  | clock k ih => exact congrArg clock (funext ih)
  | note n k ih => exact congrArg (note n) ih
  | start s k ih => exact congrArg (start s) ih
  | await r k ih => exact congrArg (await r) (funext ih)

theorem bind_done (x : Routine Mem Note Start Req Res α) : x.bind done = x := by
  induction x with
  | done a => rfl
  | fail message => rfl
  | get k ih => exact congrArg get (funext ih)
  | set m k ih => exact congrArg (set m) ih
  | clock k ih => exact congrArg clock (funext ih)
  | note n k ih => exact congrArg (note n) ih
  | start s k ih => exact congrArg (start s) ih
  | await r k ih => exact congrArg (await r) (funext ih)

theorem tryCatch_bind_done (x : Routine Mem Note Start Req Res α) (h : String → Routine Mem Note Start Req Res α)
    (g : α → β) : (x.tryCatch h).bind (fun a => done (g a)) =
      (x.bind fun a => done (g a)).tryCatch fun message => (h message).bind fun a => done (g a) := by
  induction x with
  | done a => rfl
  | fail message => rfl
  | get k ih => exact congrArg get (funext ih)
  | set m k ih => exact congrArg (set m) ih
  | clock k ih => exact congrArg clock (funext ih)
  | note n k ih => exact congrArg (note n) ih
  | start s k ih => exact congrArg (start s) ih
  | await r k ih => exact congrArg (await r) (funext ih)

/-- One task after the other. -/
theorem comes_bind {x : Routine Mem Note Start Req Res α} {f : α → Routine Mem Note Start Req Res β}
    {res : Except String β} : Comes others (x.bind f) m ss res m' ↔
      (∃ a m₁ ss₁ ss₂, Comes others x m ss₁ (.ok a) m₁ ∧ Comes others (f a) m₁ ss₂ res m' ∧ ss = ss₁ ++ ss₂) ∨
        ∃ message, res = .error message ∧ Comes others x m ss (.error message) m' := by
  induction x generalizing m ss with
  | done a =>
    constructor
    · exact fun h => .inl ⟨a, m, [], ss, ⟨rfl, rfl, rfl⟩, h, rfl⟩
    · rintro (⟨a', m₁, ss₁, ss₂, ⟨rfl, ha, rfl⟩, h, rfl⟩ | ⟨message, -, -, hres, -⟩)
      · rw [← Except.ok.inj ha] at *
        exact h
      · cases hres
  | fail message =>
    constructor
    · exact fun h => .inr ⟨message, h.2.1, h.1, rfl, h.2.2⟩
    · rintro (⟨a', m₁, ss₁, ss₂, ⟨-, ha, -⟩, -⟩ | ⟨message', rfl, hss, hmessage, hm⟩)
      · cases ha
      · rw [Except.error.inj hmessage]
        exact ⟨hss, rfl, hm⟩
  | get k ih => exact ih m
  | set m₁ k ih => exact ih
  | clock k ih =>
    constructor
    · rintro ⟨now, h⟩
      rcases (ih now).mp h with ⟨a, m₁, ss₁, ss₂, hx, hf, hss⟩ | ⟨message, hres, hx⟩
      · exact .inl ⟨a, m₁, ss₁, ss₂, ⟨now, hx⟩, hf, hss⟩
      · exact .inr ⟨message, hres, now, hx⟩
    · rintro (⟨a, m₁, ss₁, ss₂, ⟨now, hx⟩, hf, hss⟩ | ⟨message, hres, now, hx⟩)
      · exact ⟨now, (ih now).mpr (.inl ⟨a, m₁, ss₁, ss₂, hx, hf, hss⟩)⟩
      · exact ⟨now, (ih now).mpr (.inr ⟨message, hres, hx⟩)⟩
  | note n k ih => exact ih
  | start s k ih =>
    constructor
    · rintro ⟨ss', rfl, h⟩
      rcases ih.mp h with ⟨a, m₁, ss₁, ss₂, hx, hf, rfl⟩ | ⟨message, hres, hx⟩
      · exact .inl ⟨a, m₁, s :: ss₁, ss₂, ⟨ss₁, rfl, hx⟩, hf, rfl⟩
      · exact .inr ⟨message, hres, ss', rfl, hx⟩
    · rintro (⟨a, m₁, _, ss₂, ⟨ss₁, rfl, hx⟩, hf, rfl⟩ | ⟨message, hres, ss', rfl, hx⟩)
      · exact ⟨ss₁ ++ ss₂, rfl, ih.mpr (.inl ⟨a, m₁, ss₁, ss₂, hx, hf, rfl⟩)⟩
      · exact ⟨ss', rfl, ih.mpr (.inr ⟨message, hres, hx⟩)⟩
  | await r k ih =>
    constructor
    · rintro ⟨a, m₁, hm₁, h⟩
      rcases (ih a).mp h with ⟨b, m₂, ss₁, ss₂, hx, hf, hss⟩ | ⟨message, hres, hx⟩
      · exact .inl ⟨b, m₂, ss₁, ss₂, ⟨a, m₁, hm₁, hx⟩, hf, hss⟩
      · exact .inr ⟨message, hres, a, m₁, hm₁, hx⟩
    · rintro (⟨b, m₂, ss₁, ss₂, ⟨a, m₁, hm₁, hx⟩, hf, hss⟩ | ⟨message, hres, a, m₁, hm₁, hx⟩)
      · exact ⟨a, m₁, hm₁, (ih a).mpr (.inl ⟨b, m₂, ss₁, ss₂, hx, hf, hss⟩)⟩
      · exact ⟨a, m₁, hm₁, (ih a).mpr (.inr ⟨message, hres, hx⟩)⟩

/-- A task whose failure is caught. -/
theorem comes_tryCatch {x : Routine Mem Note Start Req Res α} {f : String → Routine Mem Note Start Req Res α}
    {res : Except String α} : Comes others (x.tryCatch f) m ss res m' ↔
      (∃ a, res = .ok a ∧ Comes others x m ss (.ok a) m') ∨
        ∃ message m₁ ss₁ ss₂, Comes others x m ss₁ (.error message) m₁ ∧ Comes others (f message) m₁ ss₂ res m' ∧
          ss = ss₁ ++ ss₂ := by
  induction x generalizing m ss with
  | done a =>
    constructor
    · exact fun h => .inl ⟨a, h.2.1, h.1, rfl, h.2.2⟩
    · rintro (⟨a', rfl, h⟩ | ⟨message, m₁, ss₁, ss₂, ⟨-, hres, -⟩, -⟩)
      · exact h
      · cases hres
  | fail message =>
    constructor
    · exact fun h => .inr ⟨message, m, [], ss, ⟨rfl, rfl, rfl⟩, h, rfl⟩
    · rintro (⟨a, -, -, hres, -⟩ | ⟨message', m₁, ss₁, ss₂, ⟨rfl, hmessage, rfl⟩, h, rfl⟩)
      · cases hres
      · rw [← Except.error.inj hmessage] at *
        exact h
  | get k ih => exact ih m
  | set m₁ k ih => exact ih
  | clock k ih =>
    constructor
    · rintro ⟨now, h⟩
      rcases (ih now).mp h with ⟨a, hres, hx⟩ | ⟨message, m₁, ss₁, ss₂, hx, hf, hss⟩
      · exact .inl ⟨a, hres, now, hx⟩
      · exact .inr ⟨message, m₁, ss₁, ss₂, ⟨now, hx⟩, hf, hss⟩
    · rintro (⟨a, hres, now, hx⟩ | ⟨message, m₁, ss₁, ss₂, ⟨now, hx⟩, hf, hss⟩)
      · exact ⟨now, (ih now).mpr (.inl ⟨a, hres, hx⟩)⟩
      · exact ⟨now, (ih now).mpr (.inr ⟨message, m₁, ss₁, ss₂, hx, hf, hss⟩)⟩
  | note n k ih => exact ih
  | start s k ih =>
    constructor
    · rintro ⟨ss', rfl, h⟩
      rcases ih.mp h with ⟨a, hres, hx⟩ | ⟨message, m₁, ss₁, ss₂, hx, hf, rfl⟩
      · exact .inl ⟨a, hres, ss', rfl, hx⟩
      · exact .inr ⟨message, m₁, s :: ss₁, ss₂, ⟨ss₁, rfl, hx⟩, hf, rfl⟩
    · rintro (⟨a, hres, ss', rfl, hx⟩ | ⟨message, m₁, _, ss₂, ⟨ss₁, rfl, hx⟩, hf, rfl⟩)
      · exact ⟨ss', rfl, ih.mpr (.inl ⟨a, hres, hx⟩)⟩
      · exact ⟨ss₁ ++ ss₂, rfl, ih.mpr (.inr ⟨message, m₁, ss₁, ss₂, hx, hf, rfl⟩)⟩
  | await r k ih =>
    constructor
    · rintro ⟨a, m₁, hm₁, h⟩
      rcases (ih a).mp h with ⟨b, hres, hx⟩ | ⟨message, m₂, ss₁, ss₂, hx, hf, hss⟩
      · exact .inl ⟨b, hres, a, m₁, hm₁, hx⟩
      · exact .inr ⟨message, m₂, ss₁, ss₂, ⟨a, m₁, hm₁, hx⟩, hf, hss⟩
    · rintro (⟨b, hres, a, m₁, hm₁, hx⟩ | ⟨message, m₂, ss₁, ss₂, ⟨a, m₁, hm₁, hx⟩, hf, hss⟩)
      · exact ⟨a, m₁, hm₁, (ih a).mpr (.inl ⟨b, hres, hx⟩)⟩
      · exact ⟨a, m₁, hm₁, (ih a).mpr (.inr ⟨message, m₂, ss₁, ss₂, hx, hf, hss⟩)⟩

end Comes

/-! ## What a task leaves alone -/

section Leaves

variable {α β γ : Type} {kept : Mem → γ} {may : Start → Prop} {m m' : Mem}

/-- From the memory on, the task writes nothing of what is `kept` of the memory, and starts only tasks that `may` be
started. While it waits, the memory may become any other. -/
def LeavesFrom (kept : Mem → γ) (may : Start → Prop) : Routine Mem Note Start Req Res α → Mem → Prop
  | done _, _ => True
  | fail _, _ => True
  | get k, m => LeavesFrom kept may (k m) m
  | set m' k, m => kept m' = kept m ∧ LeavesFrom kept may k m'
  | clock k, m => ∀ now, LeavesFrom kept may (k now) m
  | note _ k, m => LeavesFrom kept may k m
  | start s k, m => may s ∧ LeavesFrom kept may k m
  | await _ k, _ => ∀ a m', LeavesFrom kept may (k a) m'

/-- The task writes nothing of what is kept, whatever the memory is. -/
def Leaves (kept : Mem → γ) (may : Start → Prop) (x : Routine Mem Note Start Req Res α) : Prop :=
  ∀ m, LeavesFrom kept may x m

theorem LeavesFrom.bind {x : Routine Mem Note Start Req Res α} {f : α → Routine Mem Note Start Req Res β}
    (hx : LeavesFrom kept may x m) (hf : ∀ a, Leaves kept may (f a)) : LeavesFrom kept may (x.bind f) m := by
  induction x generalizing m with
  | done a => exact hf a m
  | fail message => trivial
  | get k ih => exact ih m hx
  | set m₁ k ih => exact ⟨hx.1, ih hx.2⟩
  | clock k ih => exact fun now => ih now (hx now)
  | note n k ih => exact ih hx
  | start s k ih => exact ⟨hx.1, ih hx.2⟩
  | await r k ih => exact fun a m₁ => ih a (hx a m₁)

theorem LeavesFrom.tryCatch {x : Routine Mem Note Start Req Res α} {g : String → Routine Mem Note Start Req Res α}
    (hx : LeavesFrom kept may x m) (hg : ∀ message, Leaves kept may (g message)) :
    LeavesFrom kept may (x.tryCatch g) m := by
  induction x generalizing m with
  | done a => trivial
  | fail message => exact hg message m
  | get k ih => exact ih m hx
  | set m₁ k ih => exact ⟨hx.1, ih hx.2⟩
  | clock k ih => exact fun now => ih now (hx now)
  | note n k ih => exact ih hx
  | start s k ih => exact ⟨hx.1, ih hx.2⟩
  | await r k ih => exact fun a m₁ => ih a (hx a m₁)

theorem LeavesFrom.comes {others : Mem → Mem → Prop} (hothers : ∀ m m', others m m' → kept m' = kept m)
    {x : Routine Mem Note Start Req Res α} {ss : List Start} {res : Except String α}
    (hx : LeavesFrom kept may x m) (h : Comes others x m ss res m') : (∀ s ∈ ss, may s) ∧ kept m' = kept m := by
  induction x generalizing m ss with
  | done a =>
    obtain ⟨rfl, -, rfl⟩ := h
    exact ⟨List.forall_mem_nil _, rfl⟩
  | fail message =>
    obtain ⟨rfl, -, rfl⟩ := h
    exact ⟨List.forall_mem_nil _, rfl⟩
  | get k ih => exact ih m hx h
  | set m₁ k ih =>
    obtain ⟨hstarts, hkept⟩ := ih hx.2 h
    exact ⟨hstarts, hkept.trans hx.1⟩
  | clock k ih =>
    obtain ⟨now, h⟩ := h
    exact ih now (hx now) h
  | note n k ih => exact ih hx h
  | start s k ih =>
    obtain ⟨ss', rfl, h⟩ := h
    obtain ⟨hstarts, hkept⟩ := ih hx.2 h
    exact ⟨List.forall_mem_cons.mpr ⟨hx.1, hstarts⟩, hkept⟩
  | await r k ih =>
    obtain ⟨a, m₁, hm₁, h⟩ := h
    obtain ⟨hstarts, hkept⟩ := ih a (hx a m₁) h
    exact ⟨hstarts, hkept.trans (hothers m m₁ hm₁)⟩

theorem LeavesFrom.run {x : Routine Mem Note Start Req Res α} (hx : LeavesFrom kept may x m) (now : ℕ) :
    kept (x.run now m).mem = kept m ∧ (∀ s ∈ (x.run now m).starts, may s) ∧
      Leaves kept may (x.run now m).rest := by
  induction x generalizing m with
  | done a => exact ⟨rfl, List.forall_mem_nil _, fun _ => trivial⟩
  | fail message => exact ⟨rfl, List.forall_mem_nil _, fun _ => trivial⟩
  | get k ih => exact ih m hx
  | set m₁ k ih =>
    obtain ⟨hkept, hrest⟩ := ih hx.2
    exact ⟨hkept.trans hx.1, hrest⟩
  | clock k ih => exact ih now (hx now)
  | note n k ih => exact ih hx
  | start s k ih =>
    obtain ⟨hkept, hstarts, hrest⟩ := ih hx.2
    exact ⟨hkept, List.forall_mem_cons.mpr ⟨hx.1, hstarts⟩, hrest⟩
  | await r k ih => exact ⟨rfl, List.forall_mem_nil _, fun _ => hx⟩

namespace Leaves

variable {x : Routine Mem Note Start Req Res α} {f : α → Routine Mem Note Start Req Res β}

theorem pure (a : α) : Leaves kept may (pure a : Routine Mem Note Start Req Res α) := fun _ => trivial

theorem fail (message : String) : Leaves kept may (fail message : Routine Mem Note Start Req Res α) :=
  fun _ => trivial

theorem bind (hx : Leaves kept may x) (hf : ∀ a, Leaves kept may (f a)) : Leaves kept may (x.bind f) :=
  fun m => (hx m).bind hf

theorem tryCatch {g : String → Routine Mem Note Start Req Res α} (hx : Leaves kept may x)
    (hg : ∀ message, Leaves kept may (g message)) : Leaves kept may (x.tryCatch g) :=
  fun m => (hx m).tryCatch hg

theorem memory : Leaves kept may (memory : Routine Mem Note Start Req Res Mem) := fun _ => trivial

theorem time : Leaves kept may (time : Routine Mem Note Start Req Res ℕ) := fun _ _ => trivial

theorem modify {f : Mem → Mem} (hf : ∀ m, kept (f m) = kept m) :
    Leaves kept may (modify f : Routine Mem Note Start Req Res Unit) := fun m => ⟨hf m, trivial⟩

theorem tell (n : Note) : Leaves kept may (tell n : Routine Mem Note Start Req Res Unit) := fun _ => trivial

theorem spawn {s : Start} (hs : may s) : Leaves kept may (spawn s : Routine Mem Note Start Req Res Unit) :=
  fun _ => ⟨hs, trivial⟩

theorem call (r : Req) : Leaves kept may (call r : Routine Mem Note Start Req Res (Res r)) := by
  intro m a m₁
  cases a with
  | ok a => trivial
  | error message => trivial

theorem attempt (hx : Leaves kept may x) : Leaves kept may x.attempt :=
  (hx.bind fun a => Leaves.pure (some a)).tryCatch fun _ => Leaves.pure none

end Leaves

/-! ## Who writes -/

section Writers

variable (Y : System Mem Note Start Req World Res) (writer : Start → Prop)

/-- The task is what is left of one that was started as a writer. -/
inductive Descends : Routine Mem Note Start Req Res Unit → Prop
  | start {s : Start} (hs : writer s) : Descends (Y.body s)
  | run {x : Routine Mem Note Start Req Res Unit} (hx : Descends x) (now : ℕ) (m : Mem) :
    Descends (x.run now m).rest
  | answer {r : Req} {k : Except String (Res r) → Routine Mem Note Start Req Res Unit}
    (h : Descends (.await r k)) (a : Except String (Res r)) : Descends (k a)

variable {Y writer} {p p' : Pool Mem Note Start Req World Res} {label : Label Note Start}

theorem leaves_or_descends (hY : ∀ s, ¬ writer s → Leaves kept may (Y.body s)) (hp : Y.system.Reachable p) :
    ∀ task ∈ p.tasks, Leaves kept may task.2 ∨ Descends Y writer task.2 := by
  have hbody : ∀ s, Leaves kept may (Y.body s) ∨ Descends Y writer (Y.body s) := by
    intro s
    by_cases hs : writer s
    · exact .inr (.start hs)
    · exact .inl (hY s hs)
  refine Reachable.induct (I := fun p => ∀ task ∈ p.tasks, Leaves kept may task.2 ∨ Descends Y writer task.2)
    (fun p hinit => ?_) (fun p l p' _ ih hstep => ?_) hp
  · rw [hinit.2]
    exact List.forall_mem_nil _
  intro task htask
  cases hstep with
  | start hs =>
    rcases List.mem_append.mp htask with htask | htask
    · exact ih task htask
    · rw [List.mem_singleton.mp htask]
      exact hbody _
  | @answer h r k a w before after htasks hserves =>
    rcases mem_replaced (h, Routine.await r k) htask with rfl | hold
    · rcases ih _ (htasks ▸ List.mem_append_right _ (.head _)) with hleaves | hdescends
      · exact .inl fun m => hleaves m a m
      · exact .inr (hdescends.answer a)
    · exact ih task (htasks ▸ hold)
  | @run h x before after htasks =>
    rcases List.mem_append.mp htask with htask | htask
    · rcases mem_replaced (h, x) htask with rfl | hold
      · rcases ih _ (htasks ▸ List.mem_append_right _ (.head _)) with hleaves | hdescends
        · exact .inl ((hleaves p.mem).run p.now).2.2
        · exact .inr (hdescends.run p.now p.mem)
      · exact ih task (htasks ▸ hold)
    · obtain ⟨s, -, rfl⟩ := List.mem_map.mp htask
      exact hbody s
  | move hw => exact ih task htask
  | tick ht => exact ih task htask

theorem Step.descends (hY : ∀ s, ¬ writer s → Leaves kept may (Y.body s)) (hp : Y.system.Reachable p)
    (hstep : Step Y p label p') (hchanged : kept p'.mem ≠ kept p.mem) :
    ∃ task ∈ p.tasks, Descends Y writer task.2 ∧ p'.mem = (task.2.run p.now p.mem).mem := by
  cases hstep with
  | @run h x before after htasks =>
    have htask : (h, x) ∈ p.tasks := htasks ▸ List.mem_append_right _ (.head _)
    rcases leaves_or_descends hY hp _ htask with hleaves | hdescends
    · exact absurd ((hleaves p.mem).run p.now).1 hchanged
    · exact ⟨_, htask, hdescends, rfl⟩
  | start | answer | move | tick => exact absurd rfl hchanged

end Writers

end Leaves

end Routine
