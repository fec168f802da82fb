import AuditGuard.Library.Contract

/-!
# Two contracts on one chain

A caller and a callee share the ledger of the token and the time of the blocks. What a call of the caller
hears from the callee is what the callee answers in the state it is in, and the call that it makes there takes
effect in the callee, or reverts there. The other steps are those of the two contracts by themselves.

What is known of the reachable states of one of them is known of its part of the reachable states of both, if the
other takes no tokens from it (`Contract.Spares`).
-/

namespace Evm

open TransitionSystem

/-- A contract that calls another one: what a call hears from the callee in the state of both, and the call
that it makes there, if any, as long as it does not revert. -/
structure Composition (S₁ E₁ C₁ S₂ E₂ C₂ : Type) where
  caller : Contract S₁ E₁ C₁
  callee : Contract S₂ E₂ C₂
  hear : World (S₁ × S₂) → C₁ → E₁ → E₁
  makes : E₁ → C₁ → S₁ → Option (E₂ × C₂)
  /-- The message is not what is heard. -/
  msg_hear : ∀ w c env, caller.msg (hear w c env) = caller.msg env
  /-- The caller sends its call itself, in the same block. -/
  msg_makes : ∀ env c s call, makes env c s = some call →
    (callee.msg call.1).sender = caller.this ∧
      (callee.msg call.1).timestamp = (caller.msg env).timestamp

/-- A call of one of two contracts, with its environment. -/
inductive Either (E₁ C₁ E₂ C₂ : Type)
  | caller (env : E₁) (c : C₁)
  | callee (env : E₂) (c : C₂)

/-- What a step of two contracts is: a call, or what happens elsewhere. -/
inductive JointLabel (E₁ C₁ E₂ C₂ : Type)
  | call (c : Either E₁ C₁ E₂ C₂)
  | elsewhere (token : TokenLedger) (now : ℕ)

/-- The caller's part of the chain. -/
@[simps]
def World.fst {S₁ S₂ : Type} (w : World (S₁ × S₂)) : World S₁ := ⟨w.state.1, w.token, w.now⟩

/-- The callee's part of the chain. -/
@[simps]
def World.snd {S₁ S₂ : Type} (w : World (S₁ × S₂)) : World S₂ := ⟨w.state.2, w.token, w.now⟩

namespace Composition

variable {S₁ E₁ C₁ S₂ E₂ C₂ : Type} (K : Composition S₁ E₁ C₁ S₂ E₂ C₂)

/-- The message of a call. -/
def msg : Either E₁ C₁ E₂ C₂ → Msg
  | .caller env _ => K.caller.msg env
  | .callee env _ => K.callee.msg env

/-- The callee after the call that the caller makes, whether it reverts there or not. -/
def relay (call : Option (E₂ × C₂)) (w : World S₂) : World S₂ :=
  match call with
  | none => w
  | some call => K.callee.attempt call.1 call.2 w

/-- A call. What the caller makes of it stands before what the callee makes of the caller's own call. -/
def exec : Either E₁ C₁ E₂ C₂ → World (S₁ × S₂) → Tx (World (S₁ × S₂))
  | .caller env c, w => do
    let w₁ ← K.caller.exec (K.hear w c env) c w.fst
    let w₂ := K.relay (K.makes env c w.state.1) ⟨w.state.2, w₁.token, w.now⟩
    pure ⟨(w₁.state, w₂.state), w₂.token, (K.caller.msg env).timestamp⟩
  | .callee env c, w => do
    let w₂ ← K.callee.exec env c w.snd
    pure ⟨(w.state.1, w₂.state), w₂.token, (K.callee.msg env).timestamp⟩

/-- A call may be sent: by an account other than the two contracts and not by address zero, and not before
the time of the latest block. -/
def Sendable (now : ℕ) (c : Either E₁ C₁ E₂ C₂) : Prop :=
  ((K.msg c).sender ≠ K.caller.this ∧ (K.msg c).sender ≠ K.callee.this) ∧ (K.msg c).sender ≠ 0 ∧
    now ≤ (K.msg c).timestamp

instance (now : ℕ) (c : Either E₁ C₁ E₂ C₂) : Decidable (K.Sendable now c) :=
  inferInstanceAs (Decidable (_ ∧ _))

/-- The steps: a call that does not revert, and what happens elsewhere, which takes no tokens from the two
contracts. -/
inductive Step : World (S₁ × S₂) → JointLabel E₁ C₁ E₂ C₂ → World (S₁ × S₂) → Prop
  | call {c : Either E₁ C₁ E₂ C₂} {w w' : World (S₁ × S₂)} (hs : K.Sendable w.now c)
      (h : K.exec c w = .ok w') : Step w (.call c) w'
  | elsewhere {w : World (S₁ × S₂)} {token : TokenLedger} {now : ℕ}
      (h₁ : w.token.balance K.caller.this ≤ token.balance K.caller.this)
      (h₂ : w.token.balance K.callee.this ≤ token.balance K.callee.this) (ht : w.now ≤ now) :
      Step w (.elsewhere token now) { w with token := token, now := now }

/-- The two contracts, from their deployment at different addresses on, under all calls by all callers. -/
def system : TransitionSystem (World (S₁ × S₂)) (JointLabel E₁ C₁ E₂ C₂) where
  init w := (K.caller.fresh w.state.1 ∧ K.callee.fresh w.state.2) ∧
    K.caller.this ≠ K.callee.this ∧ K.caller.this ≠ 0
  step := K.Step

/-- The calls of a list, one after the other. -/
def execAll (calls : List (Either E₁ C₁ E₂ C₂)) (w : World (S₁ × S₂)) : Tx (World (S₁ × S₂)) :=
  calls.foldlM (fun w c => K.exec c w) w

/-- The transitions of the calls of a list. -/
def trace : List (Either E₁ C₁ E₂ C₂) → World (S₁ × S₂) →
    Tx (List (Transition (World (S₁ × S₂)) (JointLabel E₁ C₁ E₂ C₂)))
  | [], _ => pure []
  | c :: calls, w => do
    let w' ← K.exec c w
    let ts ← trace calls w'
    pure (⟨w, .call c, w'⟩ :: ts)

/-- The calls of a list may be sent one after the other. -/
def Scheduled : ℕ → List (Either E₁ C₁ E₂ C₂) → Prop
  | _, [] => True
  | now, c :: calls => K.Sendable now c ∧ Scheduled (K.msg c).timestamp calls

instance decidableScheduled : ∀ (now : ℕ) (calls : List (Either E₁ C₁ E₂ C₂)),
    Decidable (K.Scheduled now calls)
  | _, [] => .isTrue trivial
  | _, c :: calls => @instDecidableAnd _ _ _ (decidableScheduled (K.msg c).timestamp calls)

variable {K} {w w' : World (S₁ × S₂)} {ts : List (Transition (World (S₁ × S₂)) (JointLabel E₁ C₁ E₂ C₂))}
  {calls : List (Either E₁ C₁ E₂ C₂)}

/-! ## Calls -/

theorem exec_caller_ok {env : E₁} {c : C₁} : K.exec (.caller env c) w = .ok w' ↔
    ∃ w₁, K.caller.exec (K.hear w c env) c w.fst = .ok w₁ ∧
      w' = ⟨(w₁.state, (K.relay (K.makes env c w.state.1) ⟨w.state.2, w₁.token, w.now⟩).state),
        (K.relay (K.makes env c w.state.1) ⟨w.state.2, w₁.token, w.now⟩).token,
        (K.caller.msg env).timestamp⟩ := by
  simp only [exec, bind_eq_ok, pure_eq_ok, @eq_comm _ w']

theorem exec_callee_ok {env : E₂} {c : C₂} : K.exec (.callee env c) w = .ok w' ↔
    ∃ w₂, K.callee.exec env c w.snd = .ok w₂ ∧
      w' = ⟨(w.state.1, w₂.state), w₂.token, (K.callee.msg env).timestamp⟩ := by
  simp only [exec, bind_eq_ok, pure_eq_ok, @eq_comm _ w']

theorem exec_caller_alone {env : E₁} {c : C₁} {w₁ : World S₁} (hnone : K.makes env c w.state.1 = none)
    (h : K.caller.exec (K.hear w c env) c w.fst = .ok w₁) : K.exec (.caller env c) w =
      .ok ⟨(w₁.state, w.state.2), w₁.token, (K.caller.msg env).timestamp⟩ := by
  refine exec_caller_ok.mpr ⟨w₁, h, ?_⟩
  rw [hnone]
  rfl

theorem exec_now {c : Either E₁ C₁ E₂ C₂} (h : K.exec c w = .ok w') : w'.now = (K.msg c).timestamp := by
  cases c with
  | caller env c =>
    obtain ⟨w₁, -, rfl⟩ := exec_caller_ok.mp h
    rfl
  | callee env c =>
    obtain ⟨w₂, -, rfl⟩ := exec_callee_ok.mp h
    rfl

/-! ## The parts -/

theorem distinct (hw : K.system.Reachable w) : K.caller.this ≠ K.callee.this ∧ K.caller.this ≠ 0 := by
  induction hw with
  | init h => exact h.2
  | step _ _ ih => exact ih

theorem reachable_relay {env : E₁} {c : C₁} {s : S₁} {w : World S₂} (hw : K.callee.system.Reachable w)
    (hne : K.caller.this ≠ K.callee.this) (h0 : K.caller.this ≠ 0)
    (ht : w.now ≤ (K.caller.msg env).timestamp) :
    K.callee.system.Reachable { K.relay (K.makes env c s) w with
      now := (K.caller.msg env).timestamp } := by
  unfold relay
  split
  · exact .step hw (.elsewhere le_rfl ht)
  · next call hmakes =>
    obtain ⟨hsender, htime⟩ := K.msg_makes env c s call hmakes
    have hnow : (K.callee.attempt call.1 call.2 w).now = (K.caller.msg env).timestamp := by
      unfold Contract.attempt
      split <;> exact htime
    have hreachable : K.callee.system.Reachable (K.callee.attempt call.1 call.2 w) := by
      refine Contract.reachable_attempt hw ?_ ?_ ?_
      · rwa [hsender]
      · rwa [hsender]
      · rwa [htime]
    rw [← hnow]
    exact hreachable

/-- The callee of a composition is in a reachable state. -/
theorem reachable_callee (hspares : K.caller.Spares) (hw : K.system.Reachable w) :
    K.callee.system.Reachable w.snd := by
  refine hw.induct (I := fun w => K.callee.system.Reachable w.snd) ?_ ?_
  · rintro w ⟨⟨-, hfresh⟩, -⟩
    exact .init hfresh
  intro w l w' hw ih hstep
  obtain ⟨hne, h0⟩ := distinct hw
  cases hstep with
  | elsewhere h₁ h₂ ht => exact .step ih (.elsewhere h₂ ht)
  | @call c _ _ hs h =>
    obtain ⟨⟨-, hcallee⟩, hzero, ht⟩ := hs
    cases c with
    | caller env c =>
      obtain ⟨w₁, hexec, rfl⟩ := exec_caller_ok.mp h
      have htoken := hspares _ _ _ _ hexec K.callee.this hne.symm (by rw [K.msg_hear]; exact hcallee.symm)
      have hmoved : K.callee.system.Reachable ⟨w.state.2, w₁.token, w.now⟩ :=
        .step ih (.elsewhere htoken le_rfl)
      exact reachable_relay hmoved hne h0 ht
    | callee env c =>
      obtain ⟨w₂, hexec, rfl⟩ := exec_callee_ok.mp h
      exact .step ih (.call hcallee hzero ht hexec)

/-- The caller's calls in the callee take no tokens from the caller. -/
def Unspent (K : Composition S₁ E₁ C₁ S₂ E₂ C₂) : Prop :=
  ∀ env c s call (w w' : World S₂), K.makes env c s = some call →
    K.callee.exec call.1 call.2 w = .ok w' →
    w.token.balance K.caller.this ≤ w'.token.balance K.caller.this

/-- And so is the caller. -/
theorem reachable_caller (hspares : K.callee.Spares) (hunspent : K.Unspent)
    (hw : K.system.Reachable w) : K.caller.system.Reachable w.fst := by
  refine hw.induct (I := fun w => K.caller.system.Reachable w.fst) ?_ ?_
  · rintro w ⟨⟨hfresh, -⟩, -⟩
    exact .init hfresh
  intro w l w' hw ih hstep
  obtain ⟨hne, h0⟩ := distinct hw
  cases hstep with
  | elsewhere h₁ h₂ ht => exact .step ih (.elsewhere h₁ ht)
  | @call c _ _ hs h =>
    obtain ⟨⟨hcaller, -⟩, hzero, ht⟩ := hs
    cases c with
    | caller env c =>
      obtain ⟨w₁, hexec, rfl⟩ := exec_caller_ok.mp h
      have hcalled : K.caller.system.Reachable { w₁ with now := (K.caller.msg env).timestamp } := by
        rw [← K.msg_hear w c env]
        refine .step ih (.call ?_ ?_ ?_ hexec)
        · rwa [K.msg_hear]
        · rwa [K.msg_hear]
        · rwa [K.msg_hear]
      -- For the caller, what the callee does in between happens elsewhere.
      refine .step hcalled (.elsewhere ?_ le_rfl)
      unfold relay
      split
      · exact le_rfl
      · next call hmakes =>
        unfold Contract.attempt
        split
        · next w₂ hcall => exact hunspent _ _ _ _ _ _ hmakes hcall
        · exact le_rfl
    | callee env c =>
      obtain ⟨w₂, hexec, rfl⟩ := exec_callee_ok.mp h
      exact .step ih (.elsewhere (hspares _ _ _ _ hexec K.caller.this hne hcaller.symm) ht)

/-! ## Lists of calls -/

theorem execAll_append {calls' : List (Either E₁ C₁ E₂ C₂)} : K.execAll (calls ++ calls') w = .ok w' ↔
    ∃ w₁, K.execAll calls w = .ok w₁ ∧ K.execAll calls' w₁ = .ok w' := by
  unfold execAll
  rw [List.foldlM_append, bind_eq_ok]

theorem execAll_singleton {c : Either E₁ C₁ E₂ C₂} : K.execAll [c] w = .ok w' ↔ K.exec c w = .ok w' := by
  unfold execAll
  rw [List.foldlM_cons, bind_eq_ok]
  simp only [List.foldlM_nil, pure_eq_ok, exists_eq_right]

theorem run_execAll (hr : K.system.Run ts w) (hs : K.Scheduled w.now calls)
    (h : K.execAll calls w = .ok w') :
    ∃ ts', K.system.Run (ts ++ ts') w' ∧ K.trace calls w = .ok ts' := by
  induction calls generalizing w ts with
  | nil =>
    rw [execAll, List.foldlM_nil, pure_eq_ok] at h
    subst h
    exact ⟨[], by rwa [List.append_nil], rfl⟩
  | cons c calls ih =>
    rw [execAll, List.foldlM_cons, bind_eq_ok] at h
    obtain ⟨w₁, hexec, h⟩ := h
    obtain ⟨hsend, hs⟩ := hs
    rw [← exec_now hexec] at hs
    obtain ⟨ts', hrun, htrace⟩ := ih (Run.step hr (.call hsend hexec)) hs h
    rw [List.append_assoc] at hrun
    refine ⟨_, hrun, ?_⟩
    simp only [trace, hexec, htrace, ok_bind]
    rfl

theorem scheduled_execAll {calls' : List (Either E₁ C₁ E₂ C₂)} (hs : K.Scheduled w.now (calls ++ calls'))
    (h : K.execAll calls w = .ok w') : K.Scheduled w'.now calls' := by
  induction calls generalizing w with
  | nil =>
    rw [execAll, List.foldlM_nil, pure_eq_ok] at h
    rw [← h]
    exact hs
  | cons c calls ih =>
    rw [execAll, List.foldlM_cons, bind_eq_ok] at h
    obtain ⟨w₁, hexec, h⟩ := h
    obtain ⟨-, hs⟩ := hs
    rw [← exec_now hexec] at hs
    exact ih hs h

theorem exists_run (hinit : K.system.init w) (hs : K.Scheduled w.now calls)
    (h : (K.execAll calls w).isOk = true) :
    ∃ ts w', K.execAll calls w = .ok w' ∧ K.system.Run ts w' ∧ K.trace calls w = .ok ts := by
  obtain ⟨w', hw'⟩ := exists_eq_ok h
  obtain ⟨ts, hrun, htrace⟩ := run_execAll (.init (S := K.system) hinit) hs hw'
  exact ⟨ts, w', hw', hrun, htrace⟩

end Composition

end Evm
