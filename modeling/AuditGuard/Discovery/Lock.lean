import AuditGuard.Discovery.System

/-!
# Discoveries: the lock

The promises of `withCreateAuditJobLock` are resolved in the order of their numbers, and a handler that is through
has the first number that is not. So no two handlers try to create a job at the same time.
-/

namespace AuditGuard.Discovery

open Evm TransitionSystem

variable {this : Address} {cfg : Config} {nowMs d d' attempt : ℕ} {payload : Payload} {pos : Awaiting}
  {h h' : Handler} {m : Desk} {p p' : Intake} {e : Event}

/-! ## What a handler does with an answer -/

theorem caught_cases (cfg : Config) (attempt : ℕ) (error : String) :
    caught cfg attempt error = .topUp attempt error ∨ caught cfg attempt error = .deferredLog attempt error ∨
      caught cfg attempt error = .retryingLog attempt error ∨ caught cfg attempt error = .failed error := by
  unfold caught deferral
  split_ifs <;> simp

theorem resolveDeadline_cases (jobId : ℕ) (parsedDeadlineSec : Option ℕ) :
    (∃ deadline, resolveDeadline jobId parsedDeadlineSec = .opened jobId deadline) ∨
      resolveDeadline jobId parsedDeadlineSec = .getJob jobId := by
  unfold resolveDeadline
  cases parsedDeadlineSec with
  | none => exact .inr rfl
  | some deadline =>
    dsimp only
    split_ifs
    · exact .inl ⟨deadline, rfl⟩
    · exact .inr rfl

theorem caught_locked (cfg : Config) (attempt : ℕ) (error : String) :
    (caught cfg attempt error).queued = false ∨ (caught cfg attempt error).locked = true := by
  rcases caught_cases cfg attempt error with h | h | h | h <;> rw [h]
  · exact .inr rfl
  · exact .inr rfl
  · exact .inr rfl
  · exact .inl rfl

theorem resolveDeadline_locked (jobId : ℕ) (parsedDeadlineSec : Option ℕ) :
    (resolveDeadline jobId parsedDeadlineSec).queued = false ∨
      (resolveDeadline jobId parsedDeadlineSec).locked = true := by
  rcases resolveDeadline_cases jobId parsedDeadlineSec with ⟨deadline, h⟩ | h <;> rw [h]
  · exact .inl rfl
  · exact .inr rfl

theorem resolveJob_locked (attempt : ℕ) (expected : Option ℕ) (receipt : Receipt) :
    (resolveJob attempt expected receipt).queued = false ∨ (resolveJob attempt expected receipt).locked = true := by
  unfold resolveJob
  split
  · exact resolveDeadline_locked _ _
  · exact .inr rfl

theorem next_locked (a : Except String pos.Answer) : (next cfg nowMs payload pos a).queued = false ∨
    pos.queued = true ∧ (next cfg nowMs payload pos a).locked = true := by
  by_cases hpos : pos.queued = true
  · refine Or.imp_right (fun hlocked => ⟨hpos, hlocked⟩) ?_
    unfold next
    split
    case h_3 =>
      split
      · exact .inr rfl
      · exact .inl rfl
    case h_12 =>
      split_ifs
      · exact caught_locked _ _ _
      · exact resolveJob_locked _ _ _
    case h_13 =>
      split_ifs
      · exact resolveDeadline_locked _ _
      · exact caught_locked _ _ _
    case h_17 =>
      unfold deferral
      split_ifs <;> exact .inr rfl
    case h_24 => cases hpos
    all_goals first | exact caught_locked _ _ _ | exact .inl rfl | exact .inr rfl
  · left
    unfold next
    split
    case h_24 => split_ifs <;> rfl
    all_goals first | rfl | exact absurd rfl hpos

/-- What an answer does about the lock: the handler stays outside, joins the queue with the next promise, goes on with
the lock, or leaves and resolves its promise. -/
inductive LockMove (h : Handler) (m : Desk) (m' : Desk) (h' : Handler) : Prop
  | outside (hpos : h.pos.queued = false) (hpos' : h'.pos.queued = false)
      (hlast : m'.createAuditJobLock = m.createAuditJobLock) (hresolved : m'.resolved = m.resolved)
  | join (hpos : h.pos.queued = false) (hpos' : h'.pos = .lock) (hticket : h'.ticket = m.createAuditJobLock + 1)
      (hlast : m'.createAuditJobLock = m.createAuditJobLock + 1) (hresolved : m'.resolved = m.resolved)
  | hold (hpos : h.pos.queued = true) (hpos' : h'.pos.locked = true) (hticket : h'.ticket = h.ticket)
      (hlast : m'.createAuditJobLock = m.createAuditJobLock) (hresolved : m'.resolved = m.resolved)
  | leave (hpos : h.pos.queued = true) (hpos' : h'.pos.queued = false)
      (hlast : m'.createAuditJobLock = m.createAuditJobLock)
      (hresolved : m'.resolved = Function.update m.resolved h.ticket true)

theorem shouldDedupeDiscovery_desk (cfg : Config) (nowMs : ℕ) (contractAddress : Orchestrator.AddressText)
    (m : Desk) : ∃ recent, (shouldDedupeDiscovery cfg nowMs contractAddress m).2 =
      { m with recentDiscovery := recent } := by
  unfold shouldDedupeDiscovery
  split_ifs
  · exact ⟨_, rfl⟩
  · split
    · exact ⟨_, rfl⟩
    · dsimp only
      split_ifs <;> exact ⟨_, rfl⟩

theorem markDiscoverySeen_desk (nowMs : ℕ) (contractAddress : Orchestrator.AddressText) (m : Desk) :
    ∃ recent, markDiscoverySeen nowMs contractAddress m = { m with recentDiscovery := recent } := by
  unfold markDiscoverySeen
  split <;> exact ⟨_, rfl⟩

theorem receive_cases (cfg : Config) (nowMs : ℕ) (h : Handler) (m : Desk) : ∃ recent,
    (∃ q, (q = .dedupedLog ∨ q = .rejectedLog ∨ q = .finished) ∧
      receive cfg nowMs h m = ({ m with recentDiscovery := recent }, { h with pos := q })) ∨
    receive cfg nowMs h m =
      ({ m with recentDiscovery := recent, createAuditJobLock := m.createAuditJobLock + 1 },
        { h with ticket := m.createAuditJobLock + 1, pos := .lock }) := by
  obtain ⟨recent, hrecent⟩ := shouldDedupeDiscovery_desk cfg nowMs h.payload.contractAddress m
  unfold receive
  split
  case h_1 m' heq =>
    obtain rfl : m' = _ := (congrArg Prod.snd heq).symm.trans hrecent
    exact ⟨recent, .inl ⟨_, .inl rfl, rfl⟩⟩
  case h_2 m' heq =>
    obtain rfl : m' = _ := (congrArg Prod.snd heq).symm.trans hrecent
    split
    · exact ⟨recent, .inl ⟨_, .inr (.inl rfl), rfl⟩⟩
    · split_ifs
      · exact ⟨recent, .inl ⟨_, .inr (.inr rfl), rfl⟩⟩
      · obtain ⟨recent', hrecent'⟩ := markDiscoverySeen_desk nowMs h.payload.contractAddress
          { m with recentDiscovery := recent }
        refine ⟨recent', .inr ?_⟩
        rw [hrecent']

theorem resume_cases (cfg : Config) (nowMs d : ℕ) (m : Desk) (a : Except String h.pos.Answer) :
    (h.pos = .rosterBootstrap ∧ resume cfg nowMs d h a m = receive cfg nowMs h m) ∨
    (∃ jobId deadline, h.pos = .opened jobId deadline ∧ resume cfg nowMs d h a m =
      (m.store d jobId h.payload.contractAddress deadline, { h with pos := .jobCreatedLog })) ∨
    (h.pos ≠ .rosterBootstrap ∧ ∀ jobId deadline, h.pos ≠ .opened jobId deadline) ∧
      resume cfg nowMs d h a m = (m.leave h.ticket h.pos (next cfg nowMs h.payload h.pos a),
        { h with pos := next cfg nowMs h.payload h.pos a }) := by
  obtain ⟨payload, ticket, pos⟩ := h
  cases pos with
  | rosterBootstrap => exact .inl ⟨rfl, rfl⟩
  | opened jobId deadline => exact .inr (.inl ⟨jobId, deadline, rfl, rfl⟩)
  | _ => exact .inr (.inr ⟨⟨nofun, nofun⟩, rfl⟩)

theorem resume_lockMove (a : Except String h.pos.Answer) :
    LockMove h m (resume cfg nowMs d h a m).1 (resume cfg nowMs d h a m).2 := by
  rcases resume_cases cfg nowMs d m a with ⟨hpos, hres⟩ | ⟨jobId, deadline, hpos, hres⟩ | ⟨-, hres⟩
  · have hout : h.pos.queued = false := by
      rw [hpos]
      rfl
    rw [hres]
    obtain ⟨recent, ⟨q, hq, heq⟩ | heq⟩ := receive_cases cfg nowMs h m
    · rw [heq]
      refine .outside hout ?_ rfl rfl
      rcases hq with rfl | rfl | rfl <;> rfl
    · rw [heq]
      exact .join hout rfl rfl rfl rfl
  · rw [hres]
    refine .outside ?_ rfl rfl rfl
    rw [hpos]
    rfl
  · rw [hres]
    dsimp only
    rcases hpos : h.pos.queued with _ | _
    · have hstay : m.leave h.ticket h.pos (next cfg nowMs h.payload h.pos a) = m :=
        if_neg fun hq => Bool.false_ne_true (hpos.symm.trans hq.1)
      rw [hstay]
      refine .outside hpos ?_ rfl rfl
      exact (next_locked a).resolve_right fun hq => Bool.false_ne_true (hpos.symm.trans hq.1)
    · rcases hout : (next cfg nowMs h.payload h.pos a).queued with _ | _
      · have hleave : m.leave h.ticket h.pos (next cfg nowMs h.payload h.pos a) = m.release h.ticket :=
          if_pos ⟨hpos, hout⟩
        rw [hleave]
        exact .leave hpos hout rfl rfl
      · have hstay : m.leave h.ticket h.pos (next cfg nowMs h.payload h.pos a) = m :=
          if_neg fun hq => Bool.false_ne_true (hq.2.symm.trans hout)
        rw [hstay]
        have hlocked := (next_locked a).resolve_left fun hq => Bool.false_ne_true (hq.symm.trans hout)
        exact .hold hpos hlocked.2 rfl rfl rfl

/-! ## The chain of promises -/

/-- The promises up to the number `r` are resolved. The handlers of the queue have different ones of the others, and
one that holds the lock has the first of them. -/
structure LockSound (p : Intake) (r : ℕ) : Prop where
  resolved : ∀ n, p.desk.resolved n = true ↔ n ≤ r
  last : r ≤ p.desk.createAuditJobLock
  queued : ∀ (d : ℕ) (h : Handler), p.handlers[d]? = some h → h.pos.queued = true →
    r < h.ticket ∧ h.ticket ≤ p.desk.createAuditJobLock
  locked : ∀ (d : ℕ) (h : Handler), p.handlers[d]? = some h → h.pos.locked = true → h.ticket = r + 1
  unique : ∀ (d d' : ℕ) (h h' : Handler), p.handlers[d]? = some h → p.handlers[d']? = some h' →
    h.pos.queued = true → h'.pos.queued = true → h.ticket = h'.ticket → d = d'

theorem queued_of_locked (hpos : pos.locked = true) : pos.queued = true := by
  unfold Awaiting.queued
  rw [hpos, Bool.true_or]

variable {r : ℕ}

theorem LockSound.turn (hp : LockSound p r) (hh : p.handlers[d]? = some h) (hpos : h.pos.queued = true)
    {a : Except String h.pos.Answer} (hserves : p.serves d h.ticket h.pos a = true) : h.ticket = r + 1 := by
  by_cases hlocked : h.pos.locked = true
  · exact hp.locked d h hh hlocked
  · obtain ⟨hlt, -⟩ := hp.queued d h hh hpos
    obtain ⟨payload, ticket, pos⟩ := h
    obtain rfl : pos = .lock := by
      unfold Awaiting.queued at hpos
      rw [Bool.eq_false_of_not_eq_true hlocked, Bool.false_or] at hpos
      exact of_decide_eq_true hpos
    cases a with
    | error => cases hserves
    | ok =>
      have hle : ticket - 1 ≤ r := (hp.resolved _).mp hserves
      dsimp only at hlt ⊢
      omega

theorem handlers_set {hs : List Handler} (hd : hs[d]? = some h) {i : ℕ} {x : Handler}
    (hx : (hs.set d h')[i]? = some x) : (i = d ∧ x = h') ∨ (i ≠ d ∧ hs[i]? = some x) := by
  rcases eq_or_ne i d with rfl | hne
  · have hlt : i < hs.length := (List.getElem?_eq_some_iff.mp hd).1
    rw [List.getElem?_set_self hlt] at hx
    exact .inl ⟨rfl, (Option.some.inj hx).symm⟩
  · rw [List.getElem?_set_ne hne.symm] at hx
    exact .inr ⟨hne, hx⟩

theorem handlers_append {hs : List Handler} {i : ℕ} {x : Handler} (hx : (hs ++ [h'])[i]? = some x) :
    (i = hs.length ∧ x = h') ∨ hs[i]? = some x := by
  rcases lt_or_ge i hs.length with hlt | hge
  · rw [List.getElem?_append_left hlt] at hx
    exact .inr hx
  · rw [List.getElem?_append_right hge, List.getElem?_singleton] at hx
    split_ifs at hx with hi
    exact .inl ⟨by omega, (Option.some.inj hx).symm⟩

/-- A handler goes on, and the chain is in order if its place is, and if the others still have theirs. -/
theorem LockSound.set {q : Intake} {r' : ℕ} (hp : LockSound p r) (hh : p.handlers[d]? = some h)
    (hset : q.handlers = p.handlers.set d h') (hresolved : ∀ n, q.desk.resolved n = true ↔ n ≤ r')
    (hlast : r' ≤ q.desk.createAuditJobLock)
    (hself : h'.pos.queued = true → r' < h'.ticket ∧ h'.ticket ≤ q.desk.createAuditJobLock)
    (hlocked : h'.pos.locked = true → h'.ticket = r' + 1)
    (hothers : ∀ (i : ℕ) (x : Handler), i ≠ d → p.handlers[i]? = some x → x.pos.queued = true →
      (r' < x.ticket ∧ x.ticket ≤ q.desk.createAuditJobLock) ∧ (x.pos.locked = true → x.ticket = r' + 1) ∧
        (h'.pos.queued = true → x.ticket ≠ h'.ticket)) : LockSound q r' where
  resolved := hresolved
  last := hlast
  queued i x hx hq := by
    rw [hset] at hx
    rcases handlers_set hh hx with ⟨-, rfl⟩ | ⟨hi, hx⟩
    · exact hself hq
    · exact (hothers i x hi hx hq).1
  locked i x hx hq := by
    rw [hset] at hx
    rcases handlers_set hh hx with ⟨-, rfl⟩ | ⟨hi, hx⟩
    · exact hlocked hq
    · exact (hothers i x hi hx (queued_of_locked hq)).2.1 hq
  unique i j x y hx hy hxq hyq heq := by
    rw [hset] at hx hy
    rcases handlers_set hh hx with ⟨hi, rfl⟩ | ⟨hi, hxold⟩ <;> rcases handlers_set hh hy with ⟨hj, rfl⟩ | ⟨hj, hyold⟩
    · exact hi.trans hj.symm
    · exact absurd heq.symm ((hothers j y hj hyold hyq).2.2 hxq)
    · exact absurd heq ((hothers i x hi hxold hxq).2.2 hyq)
    · exact hp.unique _ _ _ _ hxold hyold hxq hyq heq

/-- An answer keeps the chain of promises in order. -/
theorem LockSound.answer (hp : LockSound p r) (hh : p.handlers[d]? = some h) {a : Except String h.pos.Answer}
    (hserves : p.serves d h.ticket h.pos a = true) : ∃ r', LockSound (p.answer cfg d h a) r' := by
  have hmove : LockMove h p.desk (p.answer cfg d h a).desk (resume cfg p.nowMs d h a p.desk).2 := resume_lockMove a
  have hset : (p.answer cfg d h a).handlers = p.handlers.set d (resume cfg p.nowMs d h a p.desk).2 := rfl
  generalize p.answer cfg d h a = q at hmove hset
  generalize (resume cfg p.nowMs d h a p.desk).2 = h' at hmove hset
  cases hmove with
  | outside hpos hpos' hlast hresolved =>
    have hno : h'.pos.queued ≠ true := fun hq => Bool.false_ne_true (hpos'.symm.trans hq)
    refine ⟨r, hp.set hh hset (hresolved ▸ hp.resolved) (hlast ▸ hp.last) (fun hq => absurd hq hno)
      (fun hq => absurd (queued_of_locked hq) hno) fun i x hi hx hq =>
        ⟨?_, hp.locked i x hx, fun hq' => absurd hq' hno⟩⟩
    rw [hlast]
    exact hp.queued i x hx hq
  | join hpos hpos' hticket hlast hresolved =>
    have hle := hp.last
    refine ⟨r, hp.set hh hset (hresolved ▸ hp.resolved) (by omega) (fun _ => by omega) (fun hq => ?_)
      fun i x hi hx hq => ?_⟩
    · rw [hpos'] at hq
      cases hq
    · obtain ⟨hlt, hle⟩ := hp.queued i x hx hq
      exact ⟨by omega, hp.locked i x hx, fun _ => by omega⟩
  | hold hpos hpos' hticket hlast hresolved =>
    have hturn := hp.turn hh hpos hserves
    refine ⟨r, hp.set hh hset (hresolved ▸ hp.resolved) (hlast ▸ hp.last) (fun _ => ?_)
      (fun _ => hticket.trans hturn) fun i x hi hx hq => ⟨?_, hp.locked i x hx, fun _ heq => ?_⟩⟩
    · rw [hticket, hlast]
      exact hp.queued _ h hh hpos
    · rw [hlast]
      exact hp.queued i x hx hq
    · exact hi (hp.unique _ _ _ _ hx hh hq hpos (heq.trans hticket))
  | leave hpos hpos' hlast hresolved =>
    have hturn := hp.turn hh hpos hserves
    have hno : h'.pos.queued ≠ true := fun hq => Bool.false_ne_true (hpos'.symm.trans hq)
    obtain ⟨-, hle⟩ := hp.queued d h hh hpos
    refine ⟨r + 1, hp.set hh hset (fun n => ?_) (by omega) (fun hq => absurd hq hno)
      (fun hq => absurd (queued_of_locked hq) hno) fun i x hi hx hq => ?_⟩
    · rw [hresolved, hturn]
      rcases eq_or_ne n (r + 1) with rfl | hne
      · simp
      · rw [Function.update_of_ne hne, hp.resolved]
        omega
    · obtain ⟨hlt, hle'⟩ := hp.queued i x hx hq
      have hne : x.ticket ≠ h.ticket := fun heq => hi (hp.unique _ _ _ _ hx hh hq hpos heq)
      refine ⟨by omega, fun hlocked => ?_, fun hq' => absurd hq' hno⟩
      -- Nobody else held the lock.
      have heq := hp.locked i x hx hlocked
      omega

theorem LockSound.receive (hp : LockSound p r) (payload : Payload) :
    LockSound { p with handlers := p.handlers ++ [⟨payload, 0, .rosterBootstrap⟩] } r := by
  have hold : ∀ (i : ℕ) (x : Handler), (p.handlers ++ [⟨payload, 0, .rosterBootstrap⟩])[i]? = some x →
      x.pos.queued = true → p.handlers[i]? = some x := by
    intro i x hx hq
    rcases handlers_append hx with ⟨-, rfl⟩ | hx
    · cases hq
    · exact hx
  exact {
    resolved := hp.resolved
    last := hp.last
    queued := fun i x hx hq => hp.queued i x (hold i x hx hq) hq
    locked := fun i x hx hq => hp.locked i x (hold i x hx (queued_of_locked hq)) hq
    unique := fun i j x y hx hy hxq hyq => hp.unique i j x y (hold i x hx hxq) (hold j y hy hyq) hxq hyq }

/-- The chain is in order in every reachable state. -/
theorem exists_lockSound (hp : (system this cfg).Reachable p) : ∃ r, LockSound p r := by
  refine hp.induct (I := fun p => ∃ r, LockSound p r) ?_ ?_
  · rintro p ⟨hhandlers, hdesk, -⟩
    refine ⟨0, ?_, ?_, ?_, ?_, ?_⟩
    · intro n
      rw [hdesk]
      simp [Desk.empty]
    · exact Nat.zero_le _
    · simp [hhandlers]
    · simp [hhandlers]
    · simp [hhandlers]
  · rintro p e p' - ⟨r, hr⟩ hstep
    cases hstep with
    | receive => exact ⟨r, hr.receive _⟩
    | answer hh hserves => exact hr.answer hh hserves
    | _ => exact ⟨r, { hr with }⟩

/-- At most one handler holds the lock. -/
theorem locked_unique (hp : (system this cfg).Reachable p) (hh : p.handlers[d]? = some h)
    (hh' : p.handlers[d']? = some h') (hlocked : h.pos.locked = true) (hlocked' : h'.pos.locked = true) : d = d' := by
  obtain ⟨r, hr⟩ := exists_lockSound hp
  refine hr.unique d d' h h' hh hh' (queued_of_locked hlocked) (queued_of_locked hlocked') ?_
  rw [hr.locked d h hh hlocked, hr.locked d' h' hh' hlocked']

end AuditGuard.Discovery
