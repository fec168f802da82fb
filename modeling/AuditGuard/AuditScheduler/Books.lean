import AuditGuard.AuditScheduler.System

/-!
# AuditScheduler: what a step does to the schedules

The schedules of all contracts and what is pending at the service are the books. `ScheduleStep` says what a
call that succeeds does to them, who may make it, and what it found. In every book that a step leaves, the
address that a contract's schedule points to is never another contract's pending schedule (`Sound`), so that
a step for one contract is of no concern to another.
-/

namespace AuditGuard.AuditScheduler

open Evm Alarms

/-- The schedules of all contracts, and what is pending at the service. -/
structure Books where
  schedules : Address → AuditSchedule
  hss : Hss

namespace Books

/-- Writes the schedule of a contract. -/
@[simps]
def write (b : Books) (c : Address) (sched : AuditSchedule) : Books :=
  { b with schedules := Function.update b.schedules c sched }

/-- Deletes the schedule that a contract's schedule points to, if it points to one. -/
@[simps]
def release (b : Books) (c : Address) : Books :=
  { b with hss := if (b.schedules c).currentScheduleAddr ≠ 0 then
      b.hss.cancel (b.schedules c).currentScheduleAddr else b.hss }

/-- `_deactivate`. -/
def deactivate (b : Books) (c : Address) : Books :=
  (b.release c).write c { b.schedules c with currentScheduleAddr := 0, active := false }

/-- What is pending for a contract. -/
def pendingFor (b : Books) (c : Address) : List (Alarm Address Address) := b.hss.ofKey c

/-- The addresses that the schedules point to. -/
def pointers (b : Books) (c : Address) : Address := (b.schedules c).currentScheduleAddr

/-- No schedule points to what is pending for another contract. -/
def Sound (b : Books) : Prop := b.hss.Held 0 b.pointers

end Books

/-- The books in the contract's state. -/
def books (s : State) : Books := ⟨s.schedules, s.hss⟩

/-- The two outcomes of `_createSchedule`: there is a new schedule, and the contract's schedule points to it,
or the contract's schedule is deactivated. -/
inductive Creates (c : Address) (due : ℕ) (b : Books) : Books → Prop
  | created {address : Address} (hnew : address ∉ b.hss.issued) (hnull : address ≠ 0) :
      Creates c due b ⟨Function.update b.schedules c
        { b.schedules c with currentScheduleAddr := address }, b.hss.set address c due hnew⟩
  | refused : Creates c due b (b.deactivate c)

/-- `triggerAudit` succeeds, if the caller may call it. -/
def AuditSchedule.Triggerable (sched : AuditSchedule) : Prop :=
  sched.active = true ∧ sched.timesTriggered + 1 < 2^256 ∧
    (sched.mode = .timeBased → sched.nextAuditDue + sched.intervalSeconds < 2^256)

/-- What `triggerAudit` does. -/
inductive Triggers (c : Address) (b : Books) : Books → Prop
  | timeBased {b' : Books} (hmode : (b.schedules c).mode = .timeBased)
      (h : Creates c ((b.schedules c).nextAuditDue + (b.schedules c).intervalSeconds) (b.write c
        { b.schedules c with
          timesTriggered := (b.schedules c).timesTriggered + 1
          currentScheduleAddr := 0
          nextAuditDue := (b.schedules c).nextAuditDue + (b.schedules c).intervalSeconds }) b') :
      Triggers c b b'
  | redeploy (hmode : (b.schedules c).mode = .redeploy) :
      Triggers c b (b.write c { b.schedules c with
        timesTriggered := (b.schedules c).timesTriggered + 1
        currentScheduleAddr := 0 })

/-- What a call does to the books, who may make it, and what it found there. -/
inductive ScheduleStep (this : Address) (env : Env) (s : State) : Call → Books → Prop
  | schedule {c : Address} {intervalSeconds : UInt 256} {b b' : Books}
      (hreleased : b = if (s.schedules c).active = true then (books s).release c else books s)
      (h : Creates c (env.timestamp + intervalSeconds) (b.write c
        { owner := env.sender
          mode := .timeBased
          intervalSeconds := intervalSeconds
          nextAuditDue := env.timestamp + intervalSeconds
          currentScheduleAddr := (s.schedules c).currentScheduleAddr
          timesTriggered := 0
          active := true }) b') :
      ScheduleStep this env s (.scheduleAudit c intervalSeconds .timeBased) b'
  | await {c : Address} {intervalSeconds : UInt 256} {b : Books}
      (hreleased : b = if (s.schedules c).active = true then (books s).release c else books s) :
      ScheduleStep this env s (.scheduleAudit c intervalSeconds .redeploy) (b.write c
        { owner := env.sender
          mode := .redeploy
          intervalSeconds := 0
          nextAuditDue := 0
          currentScheduleAddr := 0
          timesTriggered := 0
          active := true })
  | cancel {c : Address} (hactive : (s.schedules c).active = true)
      (hcaller : env.sender = (s.schedules c).owner ∨ env.sender = s.owner ∨
        env.sender = s.orchestrator) :
      ScheduleStep this env s (.cancelSchedule c) ((books s).deactivate c)
  | trigger {c : Address} {b' : Books} (htriggerable : (s.schedules c).Triggerable)
      (hcaller : env.sender = this ∨ env.sender = s.orchestrator) (h : Triggers c (books s) b') :
      ScheduleStep this env s (.triggerAudit c) b'
  | redeploy {c : Address} {b' : Books} (hcaller : env.sender = s.orchestrator)
      (hactive : (s.schedules c).active = true) (hmode : (s.schedules c).mode = .redeploy)
      (h : Creates c (env.timestamp + REDEPLOY_DELAY) (((books s).release c).write c
        { s.schedules c with
          currentScheduleAddr := 0
          nextAuditDue := env.timestamp + REDEPLOY_DELAY }) b') :
      ScheduleStep this env s (.onRedeployDetected c) b'
  | fired {entry : Alarm Address Address} {b' : Books} (hentry : entry ∈ s.hss.pending)
      (htriggerable : (s.schedules entry.key).Triggerable)
      (h : Triggers entry.key ⟨s.schedules, s.hss.cancel entry.handle⟩ b') :
      ScheduleStep this env s (.fire entry.handle) b'
  | misfired {entry : Alarm Address Address} (hentry : entry ∈ s.hss.pending)
      (hfails : ¬ (s.schedules entry.key).Triggerable) :
      ScheduleStep this env s (.fire entry.handle) ⟨s.schedules, s.hss.cancel entry.handle⟩
  | idle {c : Call} (hschedules : ∀ a intervalSeconds mode, c ≠ .scheduleAudit a intervalSeconds mode)
      (hcancels : ∀ a, c ≠ .cancelSchedule a) (htriggers : ∀ a, c ≠ .triggerAudit a)
      (hfires : ∀ a, c ≠ .fire a) : ScheduleStep this env s c (books s)

variable {this c k : Address} {env : Env} {s : State} {b b' : Books} {due : ℕ} {sched : AuditSchedule}

/-! ## The books stay sound -/

theorem pointers_write (b : Books) (c : Address) (sched : AuditSchedule) :
    (b.write c sched).pointers = Function.update b.pointers c sched.currentScheduleAddr := by
  funext k
  unfold Books.pointers Books.write
  dsimp only
  rcases eq_or_ne k c with rfl | hne
  · rw [Function.update_self, Function.update_self]
  · rw [Function.update_of_ne hne, Function.update_of_ne hne]

theorem Books.Sound.write_same (hb : b.Sound) (hsame : sched.currentScheduleAddr = b.pointers c) :
    (b.write c sched).Sound := by
  unfold Books.Sound
  rw [pointers_write, hsame, Function.update_eq_self]
  exact hb

theorem Books.Sound.write_zero (hb : b.Sound) (hzero : sched.currentScheduleAddr = 0) :
    (b.write c sched).Sound := by
  unfold Books.Sound
  rw [pointers_write, hzero]
  exact Clock.Held.forget hb c

theorem Books.Sound.cancel (hb : b.Sound) (handle : Address) :
    Books.Sound ⟨b.schedules, b.hss.cancel handle⟩ := Clock.Held.cancel hb handle

theorem Books.Sound.release_eq (hb : b.Sound) (c : Address) :
    b.release c = ⟨b.schedules, b.hss.cancel (b.pointers c)⟩ := by
  unfold Books.release Books.pointers
  split_ifs with hzero
  · rfl
  · rw [not_not] at hzero
    rw [hzero, Clock.Held.cancel_null hb]

theorem Books.Sound.release (hb : b.Sound) (c : Address) : (b.release c).Sound := by
  rw [hb.release_eq c]
  exact hb.cancel _

theorem Books.Sound.deactivate (hb : b.Sound) (c : Address) : (b.deactivate c).Sound :=
  (hb.release c).write_zero rfl

theorem Creates.sound (h : Creates c due b b') (hb : b.Sound) : b'.Sound := by
  cases h with
  | created hnew hnull =>
    have hpointers := pointers_write b c
    have hheld := Clock.Held.set hb hnew hnull c due
    unfold Books.Sound
    rw [← hpointers { b.schedules c with currentScheduleAddr := _ }] at hheld
    exact hheld
  | refused => exact hb.deactivate c

theorem Triggers.sound (h : Triggers c b b') (hb : b.Sound) : b'.Sound := by
  cases h with
  | timeBased hmode h => exact h.sound (hb.write_zero rfl)
  | redeploy hmode => exact hb.write_zero rfl

theorem sound_released (hb : (books s).Sound)
    (h : b = if (s.schedules c).active = true then (books s).release c else books s) :
    b.Sound ∧ b.schedules = s.schedules := by
  rw [h]
  split_ifs
  · exact ⟨hb.release c, rfl⟩
  · exact ⟨hb, rfl⟩

theorem ScheduleStep.sound {call : Call} (h : ScheduleStep this env s call b')
    (hb : (books s).Sound) : b'.Sound := by
  cases h with
  | schedule hreleased h =>
    obtain ⟨hsound, hschedules⟩ := sound_released hb hreleased
    refine h.sound (hsound.write_same ?_)
    rw [Books.pointers, hschedules]
  | await hreleased => exact (sound_released hb hreleased).1.write_zero rfl
  | cancel hactive hcaller => exact hb.deactivate _
  | trigger htriggerable hcaller h => exact h.sound hb
  | redeploy hcaller hactive hmode h => exact h.sound ((hb.release _).write_zero rfl)
  | fired hentry htriggerable h => exact h.sound (hb.cancel _)
  | misfired hentry hfails => exact hb.cancel _
  | idle => exact hb

end AuditGuard.AuditScheduler
