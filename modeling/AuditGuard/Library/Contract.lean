import AuditGuard.Library.Evm
import AuditGuard.Library.Transition

/-!
# A contract under all calls

A contract keeps its storage, and it has an account in the ledger of a token. Every call is one atomic
step, by any other account, and the times of the blocks never fall. Between calls the rest of the chain
moves the token as it likes, except out of the contract: nobody else may spend what it holds.

A list of calls that the contract takes one after the other is a run (`Contract.run_execAll`), which is
how a concrete history is shown to be one.
-/

namespace Evm

open TransitionSystem

/-- A contract's storage, the ledger of the token, and the time of the latest block. -/
structure World (State : Type) where
  state : State
  token : TokenLedger
  now : ℕ

/-- A function on storage alone, as a call. -/
def onState {State : Type} (f : State → Tx State) (w : World State) : Tx (World State) := do
  let state ← f w.state
  pure { w with state := state }

/-- A call on storage alone leaves the ledger as it is. -/
@[simp]
theorem onState_eq_ok {State : Type} {f : State → Tx State} {w w' : World State} :
    onState f w = .ok w' ↔ ∃ s, f w.state = .ok s ∧ w' = { w with state := s } := by
  simp only [onState, bind_eq_ok, pure_eq_ok, @eq_comm _ w']

/-- What a step is: a call with its environment, or what happens elsewhere, which leaves the token's
ledger and the time as given. -/
inductive Label (Env Call : Type)
  | call (env : Env) (c : Call)
  | elsewhere (token : TokenLedger) (now : ℕ)

/-- A contract at an address: the storage that a deployment may leave, the message of an environment,
and what a call does. -/
structure Contract (State Env Call : Type) where
  this : Address
  fresh : State → Prop
  msg : Env → Msg
  exec : Env → Call → World State → Tx (World State)

namespace Contract

variable {State Env Call : Type} (C : Contract State Env Call)

/-- The steps: a call that does not revert, by an account other than the contract itself, and what
happens elsewhere, which takes no token from the contract. No message is sent from address zero. -/
inductive Step : World State → Label Env Call → World State → Prop
  | call {env : Env} {c : Call} {w w' : World State} (hs : (C.msg env).sender ≠ C.this)
      (h0 : (C.msg env).sender ≠ 0) (ht : w.now ≤ (C.msg env).timestamp)
      (h : C.exec env c w = .ok w') :
      Step w (.call env c) { w' with now := (C.msg env).timestamp }
  | elsewhere {w : World State} {token : TokenLedger} {now : ℕ}
      (h : w.token.balance C.this ≤ token.balance C.this) (ht : w.now ≤ now) :
      Step w (.elsewhere token now) { w with token := token, now := now }

/-- The contract, from its deployment on, under all calls by all callers. -/
def system : TransitionSystem (World State) (Label Env Call) where
  init w := C.fresh w.state
  step := C.Step

/-- The contract by itself: it starts without tokens, and nobody gives it any but through its calls. -/
def closed : TransitionSystem (World State) (Label Env Call) where
  init w := C.fresh w.state ∧ w.token.balance C.this = 0
  step w l w' := C.Step w l w' ∧
    ∀ token now, l = .elsewhere token now → token.balance C.this = w.token.balance C.this

/-- A call takes no tokens but from its sender and from the contract. -/
def Spares : Prop :=
  ∀ env c (w w' : World State), C.exec env c w = .ok w' →
    ∀ a, a ≠ C.this → a ≠ (C.msg env).sender → w.token.balance a ≤ w'.token.balance a

/-- What a transaction leaves, whether its call reverts or not. -/
def attempt (env : Env) (c : Call) (w : World State) : World State :=
  match C.exec env c w with
  | .ok w' => { w' with now := (C.msg env).timestamp }
  | .error _ => { w with now := (C.msg env).timestamp }

/-- The calls of a list, one after the other. -/
def execAll (calls : List (Env × Call)) (w : World State) : Tx (World State) :=
  calls.foldlM (fun w call => do
    let w ← C.exec call.1 call.2 w
    pure { w with now := (C.msg call.1).timestamp }) w

/-- The transitions of the calls of a list. -/
def trace : List (Env × Call) → World State → Tx (List (Transition (World State) (Label Env Call)))
  | [], _ => pure []
  | call :: calls, w => do
    let w₁ ← C.exec call.1 call.2 w
    let w' := { w₁ with now := (C.msg call.1).timestamp }
    let ts ← trace calls w'
    pure (⟨w, .call call.1 call.2, w'⟩ :: ts)

/-- The calls of a list are sent by accounts other than the contract, in the order of their times, none
of which is before `now`. -/
def Scheduled : ℕ → List (Env × Call) → Prop
  | _, [] => True
  | now, call :: calls =>
    ((C.msg call.1).sender ≠ C.this ∧ (C.msg call.1).sender ≠ 0 ∧ now ≤ (C.msg call.1).timestamp) ∧
      Scheduled (C.msg call.1).timestamp calls

instance decidableScheduled : ∀ (now : ℕ) (calls : List (Env × Call)),
    Decidable (C.Scheduled now calls)
  | _, [] => .isTrue trivial
  | _, call :: calls => @instDecidableAnd _ _ _ (decidableScheduled (C.msg call.1).timestamp calls)

variable {C} {w w' : World State} {ts : List (Transition (World State) (Label Env Call))}
  {calls : List (Env × Call)}

/-- No calls. -/
@[simp]
theorem execAll_nil : C.execAll [] w = .ok w' ↔ w = w' := by
  rw [execAll, List.foldlM_nil, pure_eq_ok]

/-- One call, and then the others. -/
@[simp]
theorem execAll_cons {call : Env × Call} : C.execAll (call :: calls) w = .ok w' ↔
    ∃ w₁, C.exec call.1 call.2 w = .ok w₁ ∧
      C.execAll calls { w₁ with now := (C.msg call.1).timestamp } = .ok w' := by
  simp only [execAll, List.foldlM_cons, bind_eq_ok, pure_eq_ok]
  constructor
  · rintro ⟨_, ⟨w₁, hexec, rfl⟩, h⟩
    exact ⟨w₁, hexec, h⟩
  · rintro ⟨w₁, hexec, h⟩
    exact ⟨_, ⟨w₁, hexec, rfl⟩, h⟩

theorem attempt_of_error {env : Env} {c : Call} {e : Revert} (h : C.exec env c w = .error e) :
    C.attempt env c w = { w with now := (C.msg env).timestamp } := by
  unfold attempt
  rw [h]

theorem attempt_onState (env : Env) (c : Call) (f : State → Tx State)
    (h : C.exec env c w = onState f w) :
    (∃ s, f w.state = .ok s ∧ (C.attempt env c w).state = s) ∨
      ∃ e, f w.state = .error e ∧ (C.attempt env c w).state = w.state := by
  unfold attempt
  rw [h]
  cases hf : f w.state with
  | ok s => exact .inl ⟨s, rfl, by simp only [onState, hf, ok_bind, pure, Except.pure]⟩
  | error e => exact .inr ⟨e, rfl, by simp only [onState, hf, bind, Except.bind]⟩

theorem reachable_attempt {env : Env} {c : Call} (hw : C.system.Reachable w)
    (hs : (C.msg env).sender ≠ C.this) (h0 : (C.msg env).sender ≠ 0)
    (ht : w.now ≤ (C.msg env).timestamp) : C.system.Reachable (C.attempt env c w) := by
  unfold attempt
  split
  · next w' hexec => exact .step hw (.call hs h0 ht hexec)
  · exact .step hw (.elsewhere le_rfl ht)

theorem Step.now_le {l : Label Env Call} (h : C.Step w l w') : w.now ≤ w'.now := by
  cases h with
  | call hs h0 ht h => exact ht
  | elsewhere h ht => exact ht

theorem run_now_le (hr : C.system.Run ts w) : ∀ tr ∈ ts, tr.dst.now ≤ w.now := by
  induction hr with
  | init _ => simp
  | step _ h ih =>
    intro tr htr
    rcases List.mem_append.mp htr with htr | htr
    · exact (ih tr htr).trans (Step.now_le h)
    · rw [List.mem_singleton.mp htr]

theorem run_execAll_of {S : TransitionSystem (World State) (Label Env Call)}
    (hS : ∀ w env c w', C.Step w (.call env c) w' → S.step w (.call env c) w') (hr : S.Run ts w)
    (hs : C.Scheduled w.now calls) (h : C.execAll calls w = .ok w') :
    ∃ ts', S.Run (ts ++ ts') w' ∧ C.trace calls w = .ok ts' := by
  induction calls generalizing w ts with
  | nil =>
    rw [execAll_nil] at h
    subst h
    exact ⟨[], by rwa [List.append_nil], rfl⟩
  | cons call calls ih =>
    rw [execAll_cons] at h
    obtain ⟨w₁, hexec, h⟩ := h
    obtain ⟨⟨hsender, h0, ht⟩, hs⟩ := hs
    have hstep : C.Step w (.call call.1 call.2) { w₁ with now := (C.msg call.1).timestamp } :=
      .call hsender h0 ht hexec
    obtain ⟨ts', hrun, htrace⟩ := ih (Run.step hr (hS _ _ _ _ hstep)) hs h
    rw [List.append_assoc] at hrun
    refine ⟨_, hrun, ?_⟩
    simp only [trace, hexec, htrace, ok_bind]
    rfl

theorem run_execAll (hr : C.system.Run ts w) (hs : C.Scheduled w.now calls)
    (h : C.execAll calls w = .ok w') :
    ∃ ts', C.system.Run (ts ++ ts') w' ∧ C.trace calls w = .ok ts' :=
  run_execAll_of (fun _ _ _ _ hstep => hstep) hr hs h

theorem exists_closed_run (hfresh : C.fresh w.state) (hzero : w.token.balance C.this = 0)
    (hs : C.Scheduled w.now calls) (h : (C.execAll calls w).isOk = true) :
    ∃ ts w', C.execAll calls w = .ok w' ∧ C.closed.Run ts w' := by
  obtain ⟨w', hw'⟩ := exists_eq_ok h
  have hcall : ∀ w env c w', C.Step w (.call env c) w' → C.closed.step w (.call env c) w' := by
    intro w env c w' hstep
    exact ⟨hstep, fun _ _ hl => nomatch hl⟩
  obtain ⟨ts, hrun, -⟩ := run_execAll_of hcall (.init (S := C.closed) ⟨hfresh, hzero⟩) hs hw'
  exact ⟨ts, w', hw', hrun⟩

theorem reachable_of_closed (hw : C.closed.Reachable w) : C.system.Reachable w := by
  induction hw with
  | init h => exact .init h.1
  | step _ h ih => exact .step ih h.1

theorem exists_run (hfresh : C.fresh w.state) (hs : C.Scheduled w.now calls)
    (h : (C.execAll calls w).isOk = true) :
    ∃ ts w', C.execAll calls w = .ok w' ∧ C.system.Run ts w' ∧ C.trace calls w = .ok ts := by
  obtain ⟨w', hw'⟩ := exists_eq_ok h
  obtain ⟨ts, hrun, htrace⟩ := run_execAll (.init (S := C.system) hfresh) hs hw'
  exact ⟨ts, w', hw', hrun, htrace⟩

theorem path_execAll (hs : C.Scheduled w.now calls) (h : C.execAll calls w = .ok w') :
    Path C.Step w (calls.map fun call => .call call.1 call.2) w' := by
  induction calls generalizing w with
  | nil =>
    rw [execAll_nil] at h
    subst h
    exact .nil
  | cons call calls ih =>
    rw [execAll_cons] at h
    obtain ⟨w₁, hexec, h⟩ := h
    obtain ⟨⟨hsender, h0, ht⟩, hs⟩ := hs
    exact (Path.single (.call hsender h0 ht hexec)).append (ih hs h)

end Contract

theorem read_ok {α β : Type} {x : Tx α} {a : α} (hx : x = .ok a) (f : α → β) {b : β}
    (h : x.map f = .ok b) : f a = b := by
  rw [hx] at h
  exact Except.ok.inj h

end Evm
