import AuditGuard.AuditScheduler.Effects

/-!
# AuditScheduler: is one callback pending?

A schedule that is active and time-based keeps itself alive: its pending callback makes the next one. The
contract knows the pending callback by `currentScheduleAddr`, and everything that makes a new callback deletes
that one first, except `triggerAudit`. When the network calls it, the callback is gone already. When the
orchestrator calls it while a callback is pending, that callback is left behind.
-/

namespace AuditGuard.AuditScheduler

open Evm Alarms TransitionSystem

/-- At most one callback is pending for the contract, none if its schedule is inactive, one if it is active
and time-based, and the schedule knows its address. -/
structure OnePending (c : Address) (b : Books) : Prop where
  le_one : (b.pendingFor c).length ≤ 1
  inactive : (b.schedules c).active = false → (b.pendingFor c).length = 0
  timeBased : (b.schedules c).active = true → (b.schedules c).mode = .timeBased →
    (b.pendingFor c).length = 1
  current : ∀ e ∈ b.pendingFor c, e.handle = (b.schedules c).currentScheduleAddr

/-- The orchestrator calls `triggerAudit` for the contract only while no callback is pending for it, and when
a callback of an active time-based schedule fires, `triggerAudit` does not overflow. -/
def Call.KeepsTrack (c : Address) (s : State) : Call → Prop
  | .triggerAudit contractAddress => contractAddress = c → s.hss.ofKey c = []
  | .fire scheduleAddress => ∀ e ∈ s.hss.ofKey c, e.handle = scheduleAddress →
      (s.schedules c).active = true → (s.schedules c).mode = .timeBased →
        (s.schedules c).timesTriggered + 1 < 2^256 ∧
          (s.schedules c).nextAuditDue + (s.schedules c).intervalSeconds < 2^256
  | _ => True

/-- The same for a step. -/
def KeepsTrack (c : Address) (w : World State) : Label Env Call → Prop
  | .call _ call => call.KeepsTrack c w.state
  | .elsewhere _ _ => True

/-- The transition is a successful `cancelSchedule` for the contract. -/
def Cancels (c : Address) (tr : Transition (World State) (Label Env Call)) : Prop :=
  ∃ env, tr.label = .call env (.cancelSchedule c)

variable {this c k : Address} {env : Env} {s : State} {b b' b'' : Books} {due : ℕ}
  {sched : AuditSchedule} {call : Call} {w w' : World State}

/-! ## One contract at a time -/

/-- For the contract `c`, nothing changed. -/
def Books.SameFor (c : Address) (b b' : Books) : Prop :=
  b'.schedules c = b.schedules c ∧ b'.pendingFor c = b.pendingFor c

theorem Books.SameFor.trans (h : b.SameFor c b') (h' : b'.SameFor c b'') : b.SameFor c b'' :=
  ⟨h'.1.trans h.1, h'.2.trans h.2⟩

theorem Books.SameFor.onePending_iff (h : Books.SameFor c b b') : OnePending c b' ↔ OnePending c b := by
  obtain ⟨hsched, hpending⟩ := h
  constructor
  · rintro ⟨hle, hinactive, htime, hcurrent⟩
    rw [hpending] at hle hinactive htime hcurrent
    rw [hsched] at hinactive htime hcurrent
    exact ⟨hle, hinactive, htime, hcurrent⟩
  · rintro ⟨hle, hinactive, htime, hcurrent⟩
    rw [← hpending] at hle hinactive htime hcurrent
    rw [← hsched] at hinactive htime hcurrent
    exact ⟨hle, hinactive, htime, hcurrent⟩

theorem sameFor_write (b : Books) (sched : AuditSchedule) (hne : c ≠ k) :
    Books.SameFor c b (b.write k sched) := ⟨Function.update_of_ne hne .., rfl⟩

theorem Books.Sound.sameFor_release (hb : b.Sound) (hne : c ≠ k) :
    Books.SameFor c b (b.release k) := by
  rw [hb.release_eq k]
  exact ⟨rfl, Clock.Held.ofKey_cancel_ne hb hne⟩

theorem Creates.sameFor (h : Creates k due b b') (hb : b.Sound) (hne : c ≠ k) :
    Books.SameFor c b b' := by
  cases h with
  | created hnew hnull => exact ⟨Function.update_of_ne hne .., Clock.ofKey_set_ne hnew hne⟩
  | refused => exact (hb.sameFor_release hne).trans (sameFor_write _ _ hne)

theorem Triggers.sameFor (h : Triggers k b b') (hb : b.Sound) (hne : c ≠ k) :
    Books.SameFor c b b' := by
  cases h with
  | timeBased hmode h =>
    exact (sameFor_write _ _ hne).trans (h.sameFor (hb.write_zero rfl) hne)
  | redeploy hmode => exact sameFor_write _ _ hne

/-! ## The contract itself -/

theorem onePending_of_nil (hnil : b.pendingFor c = [])
    (hidle : (b.schedules c).active = true → (b.schedules c).mode ≠ .timeBased) : OnePending c b := by
  constructor
  case le_one => simp [hnil]
  case inactive => simp [hnil]
  case timeBased => exact fun hactive hmode => absurd hmode (hidle hactive)
  case current => simp [hnil]

theorem onePending_deactivate_iff : OnePending c (b.deactivate c) ↔
    (b.release c).pendingFor c = [] := by
  have hinactive : ((b.deactivate c).schedules c).active = false := by
    unfold Books.deactivate Books.write
    dsimp only
    rw [Function.update_self]
  constructor
  · intro h
    exact List.eq_nil_of_length_eq_zero (h.inactive hinactive)
  · intro hnil
    refine onePending_of_nil hnil fun hactive => ?_
    rw [hinactive] at hactive
    cases hactive

theorem OnePending.release_nil (hp : OnePending c b) (hb : b.Sound) :
    (b.release c).pendingFor c = [] := by
  rw [hb.release_eq c]
  exact Clock.Tracked.ofKey_cancel_eq_nil hp.current

theorem release_nil (hnil : b.pendingFor c = []) : (b.release c).pendingFor c = [] := by
  unfold Books.pendingFor Books.release at *
  dsimp only
  split_ifs
  · rw [Clock.ofKey_cancel, hnil]
    rfl
  · exact hnil

theorem Creates.onePending (h : Creates c due b b') (hactive : (b.schedules c).active = true)
    (hnil : b.pendingFor c = []) : OnePending c b' := by
  cases h with
  | @created address hnew hnull =>
    have hpending : Books.pendingFor ⟨Function.update b.schedules c
        { b.schedules c with currentScheduleAddr := address }, b.hss.set address c due hnew⟩ c =
        [⟨address, c, due⟩] := by
      have hset := Clock.ofKey_set_self hnew c due
      rw [show b.hss.ofKey c = [] from hnil] at hset
      exact hset
    constructor
    case le_one => simp [hpending]
    case inactive => simp [hactive]
    case timeBased => simp [hpending]
    case current => simp [hpending]
  | refused => exact onePending_deactivate_iff.mpr (release_nil hnil)

theorem Creates.nil_of_onePending (h : Creates c due b b') (hzero : (b.schedules c).currentScheduleAddr = 0)
    (hp : OnePending c b') : b.pendingFor c = [] := by
  cases h with
  | @created address hnew hnull =>
    refine (Clock.tracked_set_iff hnew c due).mp ?_
    have hcurrent := hp.current
    dsimp only at hcurrent
    rw [Function.update_self] at hcurrent
    exact hcurrent
  | refused =>
    have hreleased := onePending_deactivate_iff.mp hp
    unfold Books.release at hreleased
    rw [if_neg (not_not.mpr hzero)] at hreleased
    exact hreleased

theorem Triggers.onePending_iff (h : Triggers c b b') (hb : b.Sound)
    (hactive : (b.schedules c).active = true) : OnePending c b' ↔ b.pendingFor c = [] := by
  cases h with
  | timeBased hmode h =>
    constructor
    · intro hp
      refine h.nil_of_onePending ?_ hp
      rw [Books.write_schedules, Function.update_self]
    · intro hnil
      refine h.onePending ?_ hnil
      rw [Books.write_schedules, Function.update_self]
      exact hactive
  | redeploy hmode =>
    constructor
    · -- What is pending would have the address zero, to which the schedule points now.
      intro hp
      rw [List.eq_nil_iff_forall_not_mem]
      intro e he
      have hzero := hp.current e he
      rw [Books.write_schedules, Function.update_self] at hzero
      exact hb.ne_null e (Clock.mem_ofKey.mp he).1 hzero
    · intro hnil
      refine onePending_of_nil hnil fun _ hmode' => ?_
      rw [Books.write_schedules, Function.update_self, hmode] at hmode'
      cases hmode'

theorem OnePending.released_nil (hp : OnePending c (books s)) (hb : (books s).Sound)
    (h : b = if (s.schedules c).active = true then (books s).release c else books s) :
    b.pendingFor c = [] := by
  rw [h]
  split_ifs with hactive
  · exact hp.release_nil hb
  · rw [Bool.not_eq_true] at hactive
    exact List.eq_nil_of_length_eq_zero (hp.inactive hactive)

theorem sameFor_released (hb : (books s).Sound) (hne : c ≠ k)
    (h : b = if (s.schedules k).active = true then (books s).release k else books s) :
    Books.SameFor c (books s) b := by
  rw [h]
  split_ifs
  · exact hb.sameFor_release hne
  · exact ⟨rfl, rfl⟩

theorem OnePending.fired_nil {entry : Alarm Address Address} (hp : OnePending entry.key (books s))
    (hentry : entry ∈ s.hss.pending) :
    (s.hss.cancel entry.handle).ofKey entry.key = [] := by
  have hcurrent := hp.current entry (Clock.mem_ofKey.mpr ⟨hentry, rfl⟩)
  rw [hcurrent]
  exact Clock.Tracked.ofKey_cancel_eq_nil hp.current

/-- A step leaves the contract as it should be exactly if it keeps track. -/
theorem ScheduleStep.onePending_iff (hb : (books s).Sound) (hp : OnePending c (books s))
    (h : ScheduleStep this env s call b') : OnePending c b' ↔ call.KeepsTrack c s := by
  -- A step for another contract changes nothing.
  have hother : ∀ {b₁ : Books}, Books.SameFor c (books s) b₁ → OnePending c b₁ :=
    fun hsame => hsame.onePending_iff.mpr hp
  cases h with
  | @schedule k intervalSeconds b b' hreleased h =>
    refine iff_of_true ?_ trivial
    obtain ⟨hsound, hschedules⟩ := sound_released hb hreleased
    rcases eq_or_ne c k with rfl | hne
    · have hnil := hp.released_nil hb hreleased
      refine h.onePending ?_ hnil
      rw [Books.write_schedules, Function.update_self]
    · refine hother ((sameFor_released hb hne hreleased).trans ((sameFor_write _ _ hne).trans
        (h.sameFor (hsound.write_same ?_) hne)))
      rw [Books.pointers, hschedules]
  | @await k intervalSeconds b hreleased =>
    refine iff_of_true ?_ trivial
    rcases eq_or_ne c k with rfl | hne
    · have hnil := hp.released_nil hb hreleased
      refine onePending_of_nil hnil fun _ hmode => ?_
      rw [Books.write_schedules, Function.update_self] at hmode
      cases hmode
    · exact hother ((sameFor_released hb hne hreleased).trans (sameFor_write _ _ hne))
  | @cancel k hactive hcaller =>
    refine iff_of_true ?_ trivial
    rcases eq_or_ne c k with rfl | hne
    · exact onePending_deactivate_iff.mpr (hp.release_nil hb)
    · exact hother ((hb.sameFor_release hne).trans (sameFor_write _ _ hne))
  | @trigger k b' htriggerable hcaller h =>
    unfold Call.KeepsTrack
    rcases eq_or_ne c k with rfl | hne
    · rw [h.onePending_iff hb htriggerable.1]
      exact ⟨fun hnil _ => hnil, fun hkeeps => hkeeps rfl⟩
    · exact iff_of_true (hother (h.sameFor hb hne)) fun heq => absurd heq.symm hne
  | @redeploy k b' hcaller hactive hmode h =>
    refine iff_of_true ?_ trivial
    rcases eq_or_ne c k with rfl | hne
    · refine h.onePending ?_ (hp.release_nil hb)
      rw [Books.write_schedules, Function.update_self]
      exact hactive
    · exact hother ((hb.sameFor_release hne).trans ((sameFor_write _ _ hne).trans
        (h.sameFor ((hb.release k).write_zero rfl) hne)))
  | @fired entry b' hentry htriggerable h =>
    rcases eq_or_ne c entry.key with rfl | hne
    · refine iff_of_true ?_ fun _ _ _ _ hmode => ⟨htriggerable.2.1, htriggerable.2.2 hmode⟩
      exact (h.onePending_iff (hb.cancel _) htriggerable.1).mpr (hp.fired_nil hentry)
    · have hsame : Books.SameFor c (books s) ⟨s.schedules, s.hss.cancel entry.handle⟩ :=
        ⟨rfl, Clock.ofKey_cancel_other hentry hne⟩
      refine iff_of_true (hother (hsame.trans (h.sameFor (hb.cancel _) hne))) fun e he hhandle => ?_
      obtain ⟨he, hkey⟩ := Clock.mem_ofKey.mp he
      rw [Clock.eq_of_handle_eq he hentry hhandle] at hkey
      exact absurd hkey.symm hne
  | @misfired entry hentry hfails =>
    rcases eq_or_ne c entry.key with rfl | hne
    · have hnil := hp.fired_nil hentry
      constructor
      · intro hp' e he hhandle hactive hmode
        have hone := hp'.timeBased hactive hmode
        unfold Books.pendingFor at hone
        rw [hnil] at hone
        cases hone
      · intro hkeeps
        refine onePending_of_nil hnil fun hactive hmode => hfails ⟨hactive, ?_⟩
        obtain ⟨htimes, hdue⟩ :=
          hkeeps entry (Clock.mem_ofKey.mpr ⟨hentry, rfl⟩) rfl hactive hmode
        exact ⟨htimes, fun _ => hdue⟩
    · refine iff_of_true (hother ⟨rfl, Clock.ofKey_cancel_other hentry hne⟩) fun e he hhandle => ?_
      obtain ⟨he, hkey⟩ := Clock.mem_ofKey.mp he
      rw [Clock.eq_of_handle_eq he hentry hhandle] at hkey
      exact absurd hkey.symm hne
  | @idle call hschedules hcancels htriggers hfires =>
    refine iff_of_true hp ?_
    cases call with
    | triggerAudit a => exact absurd rfl (htriggers a)
    | fire a => exact absurd rfl (hfires a)
    | _ => trivial

theorem Step.onePending_iff (hw : (contract this).system.Reachable w) (hp : OnePending c (books w.state))
    {l : Label Env Call} (h : (contract this).Step w l w') :
    OnePending c (books w'.state) ↔ KeepsTrack c w l := by
  cases h with
  | elsewhere _ _ => exact iff_of_true hp trivial
  | call hs h0 ht hexec => exact (exec_ok hexec).onePending_iff (reachable_sound hw) hp

theorem Step.inactive_of_cancels {l : Label Env Call} (h : (contract this).Step w l w')
    (hcancels : Cancels c ⟨w, l, w'⟩) : (w'.state.schedules c).active = false := by
  obtain ⟨env, rfl⟩ := hcancels
  cases h with
  | @call _ _ _ w' hs h0 ht hexec =>
    have hcall : exec this env (.cancelSchedule c) _ = .ok w' := hexec
    have hstep := exec_ok hcall
    change ((books w'.state).schedules c).active = false
    generalize books w'.state = b' at hstep ⊢
    cases hstep with
    | cancel hactive hcaller =>
      unfold Books.deactivate
      rw [Books.write_schedules, Function.update_self]
    | idle _ hcancels _ _ => exact absurd rfl (hcancels c)

/-- In every run and for every contract, one callback is pending as it should be and `cancelSchedule` leaves
nothing pending, exactly when every step keeps track. -/
theorem one_pending_iff {ts : List (Transition (World State) (Label Env Call))}
    (hr : (contract this).system.Run ts w) :
    (Throughout (fun w => OnePending c (books w.state)) ts w ∧
      ∀ tr ∈ ts, Cancels c tr → tr.dst.state.hss.ofKey c = []) ↔
    ∀ tr ∈ ts, KeepsTrack c tr.src tr.label := by
  have hiff : Throughout (fun w => OnePending c (books w.state)) ts w ↔
      ∀ tr ∈ ts, KeepsTrack c tr.src tr.label := by
    refine hr.forall_iff ?_ fun w l w' hw hp hstep => Step.onePending_iff hw hp hstep
    intro w hfresh
    obtain ⟨deployer, guardToken, auctionContract, orchestrator, minAuditBudget, hstate⟩ :=
      fresh_state_eq this (show (contract this).fresh w.state from hfresh)
    rw [hstate]
    exact onePending_of_nil rfl fun h => nomatch h
  rw [← hiff]
  refine and_iff_left_of_imp fun hone tr htr hcancels => ?_
  -- What holds before the call and is kept by it holds after it.
  obtain ⟨hsrc, hstep⟩ := hr.step_of_mem tr htr
  have hdst := (Step.onePending_iff hsrc (hone.1 tr htr) hstep).mpr (hiff.mp hone tr htr)
  exact List.eq_nil_of_length_eq_zero (hdst.inactive (Step.inactive_of_cancels hstep hcancels))

/-! ## A callback that is left behind -/

/-- The agent 2 schedules an audit of the contract 50 every thirty days, the orchestrator triggers one by
hand, and the agent cancels the schedule. -/
def orphanCalls : List (Env × Call) :=
  [(sampleEnv 2 0 100, .scheduleAudit 50 (30 * 86400) .timeBased),
    (sampleEnv 5 1 101, .triggerAudit 50),
    (sampleEnv 2 2 102, .cancelSchedule 50)]

theorem not_one_pending_orphan {ts : List (Transition (World State) (Label Env Call))}
    (htrace : (contract 1).trace orphanCalls sampleWorld = .ok ts) :
    ∃ tr ∈ ts, (tr.src.state.hss.ofKey 50).length = 2 ∧ Cancels 50 tr ∧
      (tr.dst.state.hss.ofKey 50).map Alarm.handle = [100] := by
  have hlabel := read_ok htrace (fun ts => ts[2]?.map Transition.label)
    (b := some (.call (sampleEnv 2 2 102) (.cancelSchedule 50))) rfl
  have hpending := read_ok htrace (fun ts => ts[2]?.map fun tr =>
      ((tr.src.state.hss.ofKey 50).length, (tr.dst.state.hss.ofKey 50).map Alarm.handle))
    (b := some (2, [100])) (by decide +kernel)
  obtain ⟨tr, htr, hcall⟩ := Option.map_eq_some_iff.mp hlabel
  rw [htr] at hpending
  obtain ⟨htwo, hleft⟩ := Prod.mk.inj (Option.some.inj hpending)
  exact ⟨tr, List.mem_of_getElem? htr, htwo, ⟨_, hcall⟩, hleft⟩

/-- The equivalence on the run with the callback that is left behind, where both sides fail. -/
theorem one_pending_iff_orphan : ∃ ts w, (contract 1).system.Run ts w ∧
    ((Throughout (fun w => OnePending 50 (books w.state)) ts w ∧
      ∀ tr ∈ ts, Cancels 50 tr → tr.dst.state.hss.ofKey 50 = []) ↔
      ∀ tr ∈ ts, KeepsTrack 50 tr.src tr.label) ∧
    ¬ ∀ tr ∈ ts, KeepsTrack 50 tr.src tr.label := by
  obtain ⟨ts, w, -, hr, htrace⟩ := sample_run orphanCalls (by decide) rfl
  obtain ⟨tr, htr, htwo, -, -⟩ := not_one_pending_orphan htrace
  have hiff : (Throughout (fun w => OnePending 50 (books w.state)) ts w ∧
      ∀ tr ∈ ts, Cancels 50 tr → tr.dst.state.hss.ofKey 50 = []) ↔
      ∀ tr ∈ ts, KeepsTrack 50 tr.src tr.label := one_pending_iff hr
  refine ⟨ts, w, hr, hiff, fun h => ?_⟩
  have hone := ((hiff.mpr h).1.1 tr htr).le_one
  have hlength : ((books tr.src.state).pendingFor 50).length = 2 := htwo
  omega

/-- Two callbacks are pending for the contract, and one is still pending after its schedule was
cancelled. -/
theorem callback_left_behind : ∃ ts w, (contract 1).system.Run ts w ∧
    ∃ tr ∈ ts, (tr.src.state.hss.ofKey 50).length = 2 ∧ Cancels 50 tr ∧
      (tr.dst.state.hss.ofKey 50).map Alarm.handle = [100] ∧
      ¬ OnePending 50 (books tr.src.state) := by
  obtain ⟨ts, w, -, hr, htrace⟩ := sample_run orphanCalls (by decide) rfl
  obtain ⟨tr, htr, htwo, hcancels, hleft⟩ := not_one_pending_orphan htrace
  refine ⟨ts, w, hr, tr, htr, htwo, hcancels, hleft, fun h => ?_⟩
  have hone := h.le_one
  have hlength : ((books tr.src.state).pendingFor 50).length = 2 := htwo
  omega

end AuditGuard.AuditScheduler
