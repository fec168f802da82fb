import AuditGuard.AuditScheduler.Pending

/-!
# AuditScheduler: who can change a live schedule?

`cancelSchedule` asks for the schedule's owner, the contract's owner or the orchestrator, and `triggerAudit`
and `onRedeployDetected` ask for the orchestrator or the contract itself. `scheduleAudit`, which replaces a
live schedule, asks for nobody. A stranger leaves live schedules as they are exactly if it does not call it.
-/

namespace AuditGuard.AuditScheduler

open Evm Alarms TransitionSystem

/-- The call is made by a stranger to the live schedule of the contract `c`: neither its owner, nor the
scheduler's owner, nor the orchestrator, nor the scheduler itself. -/
def Stranger (this c : Address) (env : Env) (call : Call) (s : State) : Prop :=
  (s.schedules c).active = true ∧ caller this env call ≠ (s.schedules c).owner ∧
    caller this env call ≠ s.owner ∧ caller this env call ≠ s.orchestrator ∧
    caller this env call ≠ this

/-- A transition that is made by a stranger leaves the live schedule as it is, in all its fields. -/
def LeavesLive (this c : Address) (tr : Transition (World State) (Label Env Call)) : Prop :=
  ∀ env call, tr.label = .call env call → Stranger this c env call tr.src.state →
    tr.dst.state.schedules c = tr.src.state.schedules c

/-- The transition is not a `scheduleAudit` by which a stranger replaces the live schedule. -/
def NotReplaced (this c : Address) (tr : Transition (World State) (Label Env Call)) : Prop :=
  ∀ env intervalSeconds mode, tr.label = .call env (.scheduleAudit c intervalSeconds mode) →
    ¬ Stranger this c env (.scheduleAudit c intervalSeconds mode) tr.src.state

variable {this c : Address} {env : Env} {s : State} {b b' : Books} {due : ℕ} {call : Call}
  {w w' : World State} {ts : List (Transition (World State) (Label Env Call))}

theorem Creates.owner (h : Creates c due b b') : (b'.schedules c).owner = (b.schedules c).owner := by
  cases h with
  | created hnew hnull =>
    dsimp only
    rw [Function.update_self]
  | refused =>
    unfold Books.deactivate
    rw [Books.write_schedules, Function.update_self]

theorem ScheduleStep.owner {intervalSeconds : UInt 256} {mode : TriggerMode}
    (h : ScheduleStep this env s (.scheduleAudit c intervalSeconds mode) b') :
    (b'.schedules c).owner = env.sender := by
  cases h with
  | schedule hreleased h =>
    rw [h.owner, Books.write_schedules, Function.update_self]
  | await hreleased => rw [Books.write_schedules, Function.update_self]
  | idle hschedules _ _ _ => exact absurd rfl (hschedules _ _ _)

/-- Whatever else a stranger calls leaves the schedule as it is. -/
theorem ScheduleStep.keeps_live (hb : (books s).Sound) (h : ScheduleStep this env s call b')
    (hstranger : Stranger this c env call s)
    (hother : ∀ intervalSeconds mode, call ≠ .scheduleAudit c intervalSeconds mode) :
    b'.schedules c = s.schedules c := by
  obtain ⟨hactive, howner, hdeployer, horchestrator, hthis⟩ := hstranger
  cases h with
  | @schedule k intervalSeconds b b' hreleased h =>
    have hne : c ≠ k := by
      rintro rfl
      exact hother _ _ rfl
    obtain ⟨hsound, hschedules⟩ := sound_released hb hreleased
    have hsame := (sameFor_write b _ hne).trans (h.sameFor (hsound.write_same (by
      rw [Books.pointers, hschedules])) hne)
    rw [hsame.1, hschedules]
  | @await k intervalSeconds b hreleased =>
    have hne : c ≠ k := by
      rintro rfl
      exact hother _ _ rfl
    obtain ⟨-, hschedules⟩ := sound_released hb hreleased
    rw [(sameFor_write b _ hne).1, hschedules]
  | @cancel k hlive hcaller =>
    have hne : c ≠ k := by
      rintro rfl
      rcases hcaller with h | h | h
      · exact howner h
      · exact hdeployer h
      · exact horchestrator h
    exact ((hb.sameFor_release hne).trans (sameFor_write _ _ hne)).1
  | @trigger k b' htriggerable hcaller h =>
    -- Only the orchestrator and the scheduler itself get this far.
    rcases hcaller with h | h
    · exact absurd h hthis
    · exact absurd h horchestrator
  | redeploy hcaller _ _ _ => exact absurd hcaller horchestrator
  | fired _ _ _ => exact absurd rfl hthis
  | misfired _ _ => rfl
  | idle => rfl

theorem Step.leavesLive_iff (hw : (contract this).system.Reachable w) {l : Label Env Call}
    (h : (contract this).Step w l w') : LeavesLive this c ⟨w, l, w'⟩ ↔ NotReplaced this c ⟨w, l, w'⟩ := by
  cases h with
  | elsewhere _ _ => exact iff_of_true (fun _ _ h => (nomatch h)) fun _ _ _ h => (nomatch h)
  | @call env call w w' hs h0 ht hexec =>
    have hstep := exec_ok (show exec this env call w = .ok w' from hexec)
    constructor
    · rintro hleaves env intervalSeconds mode hcall hstranger
      obtain ⟨rfl, rfl⟩ := hcall
      -- The schedule is the stranger's now.
      have hsame := hleaves _ _ rfl hstranger
      have howner : (w'.state.schedules c).owner = env.sender := hstep.owner
      dsimp only at hsame
      rw [hsame] at howner
      exact hstranger.2.1 howner.symm
    · rintro hkept env call hcall hstranger
      obtain ⟨rfl, rfl⟩ := hcall
      refine hstep.keeps_live (reachable_sound hw) hstranger ?_
      rintro intervalSeconds mode rfl
      exact hkept _ _ _ rfl hstranger

/-- In every run, strangers leave the live schedule of a contract as it is, exactly when no stranger replaces
it by `scheduleAudit`. -/
theorem live_schedule_kept_iff (hr : (contract this).system.Run ts w) :
    (∀ tr ∈ ts, LeavesLive this c tr) ↔ ∀ tr ∈ ts, NotReplaced this c tr := by
  have hsteps := hr.step_of_mem
  refine forall₂_congr fun tr htr => ?_
  obtain ⟨hsrc, hstep⟩ := hsteps tr htr
  exact Step.leavesLive_iff hsrc hstep

/-! ## A schedule that a stranger takes over -/

/-- The agent 2 schedules an audit of the contract 50 every thirty days, and the agent 3 replaces the schedule
by one of a year. -/
def takeoverCalls : List (Env × Call) :=
  [(sampleEnv 2 0 100, .scheduleAudit 50 (30 * 86400) .timeBased),
    (sampleEnv 3 1 101, .scheduleAudit 50 (365 * 86400) .timeBased)]

theorem taken_over {ts : List (Transition (World State) (Label Env Call))}
    (htrace : (contract 1).trace takeoverCalls sampleWorld = .ok ts) :
    ∃ tr ∈ ts, tr.label = .call (sampleEnv 3 1 101) (.scheduleAudit 50 (365 * 86400) .timeBased) ∧
      Stranger 1 50 (sampleEnv 3 1 101) (.scheduleAudit 50 (365 * 86400) .timeBased) tr.src.state ∧
      (tr.src.state.schedules 50).owner = 2 ∧ (tr.dst.state.schedules 50).owner = 3 ∧
      (tr.src.state.schedules 50).nextAuditDue = 30 * 86400 ∧
      (tr.dst.state.schedules 50).nextAuditDue = 1 + 365 * 86400 := by
  have hlabel := read_ok htrace (fun ts => ts[1]?.map Transition.label)
    (b := some (.call (sampleEnv 3 1 101) (.scheduleAudit 50 (365 * 86400) .timeBased))) rfl
  have hparties := read_ok htrace (fun ts => ts[1]?.map fun tr => ((tr.src.state.schedules 50).active,
      (tr.src.state.schedules 50).owner, tr.src.state.owner, tr.src.state.orchestrator,
      (tr.dst.state.schedules 50).owner))
    (b := some (true, 2, 9, 5, 3)) (by decide +kernel)
  have hdue := read_ok htrace (fun ts => ts[1]?.map fun tr => ((tr.src.state.schedules 50).nextAuditDue,
      (tr.dst.state.schedules 50).nextAuditDue))
    (b := some (30 * 86400, 1 + 365 * 86400)) (by decide +kernel)
  obtain ⟨tr, htr, hcall⟩ := Option.map_eq_some_iff.mp hlabel
  rw [htr] at hparties hdue
  obtain ⟨hactive, howner, hdeployer, horchestrator, hnew⟩ : _ ∧ _ ∧ _ ∧ _ ∧ _ := by
    simpa only [Option.map_some, Option.some.injEq, Prod.mk.injEq] using hparties
  obtain ⟨hbefore, hafter⟩ := Prod.mk.inj (Option.some.inj hdue)
  refine ⟨tr, List.mem_of_getElem? htr, hcall, ⟨hactive, ?_⟩, howner, hnew, hbefore, hafter⟩
  -- The agent 3 is none of the schedule's owner, the contract's owner and the orchestrator.
  rw [howner, hdeployer, horchestrator]
  decide

/-- The equivalence on the run with the takeover, where both sides fail. -/
theorem live_schedule_kept_iff_takeover : ∃ ts w, (contract 1).system.Run ts w ∧
    ((∀ tr ∈ ts, LeavesLive 1 50 tr) ↔ ∀ tr ∈ ts, NotReplaced 1 50 tr) ∧
    ¬ ∀ tr ∈ ts, NotReplaced 1 50 tr := by
  obtain ⟨ts, w, -, hr, htrace⟩ := sample_run takeoverCalls (by decide) rfl
  obtain ⟨tr, htr, hcall, hstranger, -⟩ := taken_over htrace
  exact ⟨ts, w, hr, live_schedule_kept_iff hr, fun h => h tr htr _ _ _ hcall hstranger⟩

/-- A stranger owns the schedule that it replaced, and the next audit is due a year later instead of a
month. -/
theorem live_schedule_taken : ∃ ts w, (contract 1).system.Run ts w ∧
    ∃ tr ∈ ts, Stranger 1 50 (sampleEnv 3 1 101) (.scheduleAudit 50 (365 * 86400) .timeBased)
        tr.src.state ∧
      (tr.src.state.schedules 50).owner = 2 ∧ (tr.dst.state.schedules 50).owner = 3 ∧
      (tr.src.state.schedules 50).nextAuditDue = 30 * 86400 ∧
      (tr.dst.state.schedules 50).nextAuditDue = 1 + 365 * 86400 ∧ ¬ LeavesLive 1 50 tr := by
  obtain ⟨ts, w, -, hr, htrace⟩ := sample_run takeoverCalls (by decide) rfl
  obtain ⟨tr, htr, hcall, hstranger, howner, hnew, hbefore, hafter⟩ := taken_over htrace
  refine ⟨ts, w, hr, tr, htr, hstranger, howner, hnew, hbefore, hafter, fun h => ?_⟩
  have hsame := h _ _ hcall hstranger
  rw [hsame, howner] at hnew
  exact absurd hnew (by decide)

end AuditGuard.AuditScheduler
