import AuditGuard.Discovery.Creating

/-!
# Discoveries: duplicates

A discovery is decided when the roster is there, in one step: it is accepted, and goes on to the lock, or it is passed
over. The time that `recentDiscovery` has for a contract is that of the last discovery of it that was accepted or
passed over as a duplicate (`Noted`), so a duplicate that is passed over puts off the next acceptance, while a
discovery that is rejected, or not worth an audit, does not. From this follows when exactly a discovery is accepted
(`accepted_iff_unseen`).
-/

namespace AuditGuard.Discovery

open Evm TransitionSystem

variable {this : Address} {cfg : Config} {nowMs d : ℕ} {payload : Payload} {pos : Awaiting} {c : Address}
  {h : Handler} {m : Desk} {p p' : Intake} {e : Event} {ts : Trace}

/-! ## Decisions -/

/-- The transition decides the discovery `d`, which comes to `pos`. -/
def Decides (tr : Transition Intake Event) (d : ℕ) (payload : Payload) (pos : Awaiting) : Prop :=
  ∃ a h h', tr.label = .answer d .rosterBootstrap a ∧ tr.src.handlers[d]? = some h ∧ h.payload = payload ∧
    tr.dst.handlers[d]? = some h' ∧ h'.pos = pos

/-- The transition decides a discovery of the contract. -/
def DecidesOn (tr : Transition Intake Event) (d : ℕ) (c : Address) (pos : Awaiting) : Prop :=
  ∃ payload, Orchestrator.normalizeAddress payload.contractAddress = some c ∧ Decides tr d payload pos

/-- A discovery of the contract is accepted. -/
def Accepts (c : Address) (tr : Transition Intake Event) : Prop := ∃ d, DecidesOn tr d c .lock

/-- A discovery of the contract is accepted, or passed over as a duplicate. -/
def Sees (c : Address) (tr : Transition Intake Event) : Prop :=
  ∃ d, DecidesOn tr d c .lock ∨ DecidesOn tr d c .dedupedLog

/-- The contract was seen within the time that counts. -/
def Desk.recent (cfg : Config) (nowMs : ℕ) (c : Address) (m : Desk) : Prop :=
  0 < m.recentDiscovery c ∧ nowMs - m.recentDiscovery c ≤ cfg.discoveryDedupeTtlMs

instance : Decidable (m.recent cfg nowMs c) := inferInstanceAs (Decidable (_ ∧ _))

/-- There is a reason to pass over a discovery of the contract: it was seen, or it has an open job. -/
def Desk.duplicate (cfg : Config) (nowMs : ℕ) (c : Address) (m : Desk) : Prop :=
  m.recent cfg nowMs c ∨ Orchestrator.hasOpenJobForContract m.jobs (nowMs / 1000) c = true

/-- What becomes of a discovery, and of the times that the desk notes. -/
inductive Received (cfg : Config) (nowMs : ℕ) (payload : Payload) (m m' : Desk) (pos : Awaiting) : Prop
  | deduped (c : Address) (hcontract : Orchestrator.normalizeAddress payload.contractAddress = some c)
      (hpos : pos = .dedupedLog) (hdup : m.duplicate cfg nowMs c)
      (hnoted : m'.recentDiscovery = Function.update m.recentDiscovery c nowMs)
  | rejected (hpos : pos = .rejectedLog) (hinvalid : validateDiscoveryPayload payload ≠ .ok ())
      (hnoted : m'.recentDiscovery = m.recentDiscovery)
  | lowRisk (hpos : pos = .finished) (hrisk : lowRisk cfg payload = true)
      (hnoted : m'.recentDiscovery = m.recentDiscovery)
  | accepted (c : Address) (hcontract : Orchestrator.normalizeAddress payload.contractAddress = some c)
      (hpos : pos = .lock) (hnew : cfg.discoveryDedupeEnabled = true → ¬ m.duplicate cfg nowMs c)
      (hnoted : m'.recentDiscovery = Function.update m.recentDiscovery c nowMs)

theorem shouldDedupeDiscovery_eq (cfg : Config) (nowMs : ℕ) (contractAddress : Orchestrator.AddressText) (m : Desk) :
    (shouldDedupeDiscovery cfg nowMs contractAddress m = (false, m) ∧
      ∀ c, Orchestrator.normalizeAddress contractAddress = some c → cfg.discoveryDedupeEnabled = true →
        ¬ m.duplicate cfg nowMs c) ∨
    ∃ c, Orchestrator.normalizeAddress contractAddress = some c ∧ m.duplicate cfg nowMs c ∧
      shouldDedupeDiscovery cfg nowMs contractAddress m =
        (true, { m with recentDiscovery := Function.update m.recentDiscovery c nowMs }) := by
  unfold shouldDedupeDiscovery
  split_ifs with hoff
  · exact .inl ⟨rfl, fun c _ hon => by simp [hoff] at hon⟩
  · split
    case h_1 hnone => exact .inl ⟨rfl, fun c hc => by simp [hnone] at hc⟩
    case h_2 a ha =>
      dsimp only
      split_ifs with hnew
      · obtain ⟨hrecent, hopen⟩ := hnew
        refine .inl ⟨rfl, fun c hc _ => ?_⟩
        obtain rfl : a = c := Option.some.inj (ha.symm.trans hc)
        rintro (hseen | hjob)
        · exact absurd (decide_eq_true hseen) (Bool.eq_false_iff.mp hrecent)
        · simp [hopen] at hjob
      · refine .inr ⟨a, ha, ?_, rfl⟩
        by_cases hseen : m.recent cfg nowMs a
        · exact .inl hseen
        · refine .inr ?_
          by_contra hopen
          exact hnew ⟨decide_eq_false hseen, by simpa using hopen⟩

theorem exists_contract (h : validateDiscoveryPayload payload = .ok ()) :
    ∃ c, Orchestrator.normalizeAddress payload.contractAddress = some c := by
  unfold validateDiscoveryPayload at h
  split_ifs at h with hnone
  exact Option.ne_none_iff_exists'.mp hnone

theorem receive_received (cfg : Config) (nowMs : ℕ) (h : Handler) (m : Desk) :
    Received cfg nowMs h.payload m (receive cfg nowMs h m).1 (receive cfg nowMs h m).2.pos := by
  unfold receive
  rcases shouldDedupeDiscovery_eq cfg nowMs h.payload.contractAddress m with ⟨heq, hnew⟩ | ⟨c, hc, hdup, heq⟩
  · rw [heq]
    dsimp only
    split
    case h_1 error hinvalid => exact .rejected rfl (by simp [hinvalid]) rfl
    case h_2 hvalid =>
      split_ifs with hrisk
      · exact .lowRisk rfl hrisk rfl
      · obtain ⟨c, hc⟩ := exists_contract hvalid
        refine .accepted c hc rfl (hnew c hc) ?_
        simp [markDiscoverySeen, hc]
  · rw [heq]
    exact .deduped c hc rfl hdup rfl

theorem resume_recentDiscovery (a : Except String h.pos.Answer) (hpos : h.pos ≠ .rosterBootstrap) :
    (resume cfg nowMs d h a m).1.recentDiscovery = m.recentDiscovery := by
  rcases resume_cases cfg nowMs d m a with ⟨hroster, -⟩ | ⟨jobId, deadline, -, heq⟩ | ⟨-, heq⟩
  · exact absurd hroster hpos
  · rw [heq]
    rfl
  · rw [heq]
    dsimp only
    unfold Desk.leave
    split_ifs <;> rfl

/-- After a step the noted times are as before, or a discovery was decided. -/
theorem noted_or_decides (hstep : Step this cfg p e p') :
    (p'.desk.recentDiscovery = p.desk.recentDiscovery ∧ ∀ d payload pos, ¬ Decides ⟨p, e, p'⟩ d payload pos) ∨
    ∃ d payload pos, Decides ⟨p, e, p'⟩ d payload pos ∧
      (∀ d' payload' pos', Decides ⟨p, e, p'⟩ d' payload' pos' → d' = d ∧ payload' = payload ∧ pos' = pos) ∧
      Received cfg p.nowMs payload p.desk p'.desk pos := by
  cases hstep with
  | @answer d h a hh hserves =>
    by_cases hpos : h.pos = .rosterBootstrap
    · right
      have hafter : (p.answer cfg d h a).handlers[d]? = some (resume cfg p.nowMs d h a p.desk).2 :=
        List.getElem?_set_self (List.getElem?_eq_some_iff.mp hh).1
      have heq : resume cfg p.nowMs d h a p.desk = receive cfg p.nowMs h p.desk := by
        unfold resume
        dsimp only
        split
        · rfl
        all_goals simp_all
      refine ⟨d, h.payload, _, ⟨hpos ▸ a, h, _, ?_, hh, rfl, hafter, rfl⟩, ?_, ?_⟩
      · obtain ⟨payload, ticket, pos⟩ := h
        dsimp only at hpos
        subst hpos
        rfl
      · rintro d' payload' pos' ⟨a', h', y, hlabel, hh', rfl, hy, rfl⟩
        obtain ⟨rfl, -, -⟩ := Event.answer.inj hlabel
        obtain rfl := Option.some.inj (hh.symm.trans hh')
        obtain rfl := Option.some.inj (hafter.symm.trans hy)
        exact ⟨rfl, rfl, rfl⟩
      · rw [heq]
        have hreceived := receive_received cfg p.nowMs h p.desk
        unfold Intake.answer
        dsimp only
        rw [heq]
        exact hreceived
    · refine .inl ⟨resume_recentDiscovery a hpos, ?_⟩
      rintro d' payload' pos' ⟨a', h', y, hlabel, -⟩
      exact hpos (Event.answer.inj hlabel).2.1
  | _ =>
    refine .inl ⟨rfl, ?_⟩
    rintro d' payload' pos' ⟨a', h', y, hlabel, -⟩
    cases hlabel

/-- A contract that is seen has the present time noted; the times of the others stay. -/
theorem seen_or_kept (c : Address) (hstep : Step this cfg p e p') :
    (Sees c ⟨p, e, p'⟩ ∧ p'.desk.recentDiscovery c = p.nowMs) ∨
    (¬ Sees c ⟨p, e, p'⟩ ∧ p'.desk.recentDiscovery c = p.desk.recentDiscovery c) := by
  rcases noted_or_decides hstep with ⟨hnoted, hnone⟩ | ⟨d, payload, pos, hdec, hunique, hreceived⟩
  · refine .inr ⟨?_, congrFun hnoted c⟩
    rintro ⟨d, ⟨payload, -, hdec⟩ | ⟨payload, -, hdec⟩⟩
    · exact hnone _ _ _ hdec
    · exact hnone _ _ _ hdec
  · -- The discovery is of one contract, and comes to one place.
    have hsees : Sees c ⟨p, e, p'⟩ → Orchestrator.normalizeAddress payload.contractAddress = some c ∧
        (pos = .lock ∨ pos = .dedupedLog) := by
      rintro ⟨d', ⟨payload', hc, hdec'⟩ | ⟨payload', hc, hdec'⟩⟩
      · obtain ⟨-, rfl, rfl⟩ := hunique _ _ _ hdec'
        exact ⟨hc, .inl rfl⟩
      · obtain ⟨-, rfl, rfl⟩ := hunique _ _ _ hdec'
        exact ⟨hc, .inr rfl⟩
    have hmarked : ∀ c', Orchestrator.normalizeAddress payload.contractAddress = some c' →
        (pos = .lock ∨ pos = .dedupedLog) →
        p'.desk.recentDiscovery = Function.update p.desk.recentDiscovery c' p.nowMs →
        (Sees c ⟨p, e, p'⟩ ∧ p'.desk.recentDiscovery c = p.nowMs) ∨
          (¬ Sees c ⟨p, e, p'⟩ ∧ p'.desk.recentDiscovery c = p.desk.recentDiscovery c) := by
      intro c' hc' hpos hnoted
      rw [hnoted]
      by_cases hcc : c = c'
      · subst hcc
        rw [Function.update_self]
        refine .inl ⟨⟨d, ?_⟩, rfl⟩
        rcases hpos with rfl | rfl
        · exact .inl ⟨payload, hc', hdec⟩
        · exact .inr ⟨payload, hc', hdec⟩
      · rw [Function.update_of_ne hcc]
        refine .inr ⟨fun hs => hcc ?_, rfl⟩
        exact Option.some.inj ((hsees hs).1.symm.trans hc')
    cases hreceived with
    | deduped c' hc' hpos hdup hnoted => exact hmarked c' hc' (.inr hpos) hnoted
    | accepted c' hc' hpos hnew hnoted => exact hmarked c' hc' (.inl hpos) hnoted
    | rejected hpos hinvalid hnoted =>
      refine .inr ⟨fun hs => ?_, congrFun hnoted c⟩
      rcases (hsees hs).2 with hp | hp <;> simp [hpos] at hp
    | lowRisk hpos hrisk hnoted =>
      refine .inr ⟨fun hs => ?_, congrFun hnoted c⟩
      rcases (hsees hs).2 with hp | hp <;> simp [hpos] at hp

/-! ## What the desk has noted -/

/-- The noted time of a contract is the last one at which it was seen, or 0 if it never was. -/
structure Noted (ts : Trace) (p : Intake) (c : Address) : Prop where
  /-- It was never seen later. -/
  latest : ∀ tr ∈ ts, Sees c tr → tr.src.nowMs ≤ p.desk.recentDiscovery c
  /-- It was seen then. -/
  seen : p.desk.recentDiscovery c = 0 ∨ ∃ tr ∈ ts, Sees c tr ∧ tr.src.nowMs = p.desk.recentDiscovery c
  /-- That is not to come. -/
  past : p.desk.recentDiscovery c ≤ p.nowMs

theorem Step.nowMs_le (hstep : Step this cfg p e p') : p.nowMs ≤ p'.nowMs := by
  cases hstep with
  | tick ht => exact ht
  | _ => exact Nat.le_refl _

theorem noted_run (hr : (system this cfg).Run ts p) (c : Address) : Noted ts p c := by
  induction hr with
  | init hinit =>
    obtain ⟨-, hdesk, -⟩ := hinit
    refine ⟨by simp, .inl ?_, ?_⟩ <;> simp [hdesk, Desk.empty]
  | @step ts p p' e hr hstep ih =>
    have hnow := Step.nowMs_le hstep
    rcases seen_or_kept c hstep with ⟨hsees, hnoted⟩ | ⟨hnot, hnoted⟩
    · refine ⟨fun tr htr hs => ?_, .inr ⟨_, List.mem_append_right _ (List.mem_singleton_self _), hsees, hnoted.symm⟩,
        hnoted ▸ hnow⟩
      rw [hnoted]
      rcases List.mem_append.mp htr with htr | htr
      · exact (ih.latest tr htr hs).trans ih.past
      · rw [List.mem_singleton.mp htr]
    · refine ⟨fun tr htr hs => ?_, ?_, hnoted ▸ ih.past.trans hnow⟩
      · rw [hnoted]
        rcases List.mem_append.mp htr with htr | htr
        · exact ih.latest tr htr hs
        · rw [List.mem_singleton.mp htr] at hs
          exact absurd hs hnot
      · rw [hnoted]
        refine ih.seen.imp_right ?_
        rintro ⟨tr, htr, hs, heq⟩
        exact ⟨tr, List.mem_append_left _ htr, hs, heq⟩

/-! ## Whose jobs are created -/

/-- The discovery was accepted. -/
def Accepted (ts : Trace) (d : ℕ) (payload : Payload) : Prop := ∃ tr ∈ ts, Decides tr d payload .lock

theorem Accepted.mono {ts' : Trace} (ha : Accepted ts d payload) : Accepted (ts ++ ts') d payload := by
  obtain ⟨tr, htr, hdec⟩ := ha
  exact ⟨tr, List.mem_append_left _ htr, hdec⟩

/-- Whoever is in the queue of the lock was accepted, and so was everyone who has sent a transaction. -/
structure Accounted (ts : Trace) (p : Intake) : Prop where
  /-- The queue. -/
  queued : ∀ (d : ℕ) (h : Handler), p.handlers[d]? = some h → h.pos.queued = true → Accepted ts d h.payload
  /-- The transactions. -/
  sent : ∀ s ∈ p.sent, ∃ h, p.handlers[s.discovery]? = some h ∧ Accepted ts s.discovery h.payload
  /-- Those that have landed. -/
  landed : ∀ l ∈ p.landed, ∃ h, p.handlers[l.discovery]? = some h ∧ Accepted ts l.discovery h.payload

theorem accepted_of_queued (hh : p.handlers[d]? = some h) {a : Except String h.pos.Answer}
    (hold : h.pos.queued = true → Accepted ts d h.payload)
    (hq : (resume cfg p.nowMs d h a p.desk).2.pos.queued = true) :
    Accepted (ts ++ [⟨p, .answer d h.pos a, p.answer cfg d h a⟩]) d h.payload := by
  rcases resume_cases cfg p.nowMs d p.desk a with ⟨hroster, heq⟩ | ⟨jobId, deadline, -, heq⟩ | ⟨-, heq⟩
  · -- The message itself is decided.
    have hafter : (p.answer cfg d h a).handlers[d]? = some (resume cfg p.nowMs d h a p.desk).2 :=
      List.getElem?_set_self (List.getElem?_eq_some_iff.mp hh).1
    refine ⟨_, List.mem_append_right _ (List.mem_singleton_self _), hroster ▸ a, h, _, ?_, hh, rfl, hafter, ?_⟩
    · obtain ⟨payload, ticket, pos⟩ := h
      dsimp only at hroster
      subst hroster
      rfl
    · rw [heq] at hq ⊢
      cases receive_received cfg p.nowMs h p.desk with
      | accepted c hc hpos => exact hpos
      | deduped c hc hpos => rw [hpos] at hq; cases hq
      | rejected hpos => rw [hpos] at hq; cases hq
      | lowRisk hpos => rw [hpos] at hq; cases hq
  · rw [heq] at hq
    cases hq
  · rw [heq] at hq
    rcases next_locked a with hout | ⟨hin, -⟩
    · rw [hout] at hq
      cases hq
    · exact (hold hin).mono

/-- An answer keeps the account. -/
theorem Accounted.answer (hp : Accounted ts p) (hh : p.handlers[d]? = some h) {a : Except String h.pos.Answer} :
    Accounted (ts ++ [⟨p, .answer d h.pos a, p.answer cfg d h a⟩]) (p.answer cfg d h a) := by
  have hpayload : (resume cfg p.nowMs d h a p.desk).2.payload = h.payload := resume_payload a
  have hmoved : ∀ (i : ℕ) (x : Handler), p.handlers[i]? = some x → ∃ y, (p.answer cfg d h a).handlers[i]? = some y ∧
      y.payload = x.payload ∧ (i ≠ d → y = x) ∧ (i = d → y = (resume cfg p.nowMs d h a p.desk).2) :=
    fun i x hx => exists_handler_set hh hpayload hx
  have hqueue : (resume cfg p.nowMs d h a p.desk).2.pos.queued = true →
      Accepted (ts ++ [⟨p, .answer d h.pos a, p.answer cfg d h a⟩]) d h.payload :=
    accepted_of_queued hh (hp.queued d h hh)
  constructor
  case queued =>
    intro i y hy hq
    by_cases hi : i = d
    · subst hi
      obtain ⟨y', hy', -, -, hself⟩ := hmoved i h hh
      obtain rfl := Option.some.inj (hy.symm.trans hy')
      rw [hself rfl] at hq ⊢
      rw [hpayload]
      exact hqueue hq
    · have hx : p.handlers[i]? = some y := (List.getElem?_set_ne (Ne.symm hi)).symm.trans hy
      exact (hp.queued i y hx hq).mono
  case sent =>
    intro s hs
    rcases List.mem_append.mp hs with hs | hs
    · obtain ⟨x, hx, hacc⟩ := hp.sent s hs
      obtain ⟨y, hy, hyp, -⟩ := hmoved _ x hx
      exact ⟨y, hy, hyp ▸ hacc.mono⟩
    · obtain ⟨hd, htrying, -⟩ := sends_cases hs
      obtain ⟨y, hy, hyp, -, hself⟩ := hmoved d h hh
      refine ⟨y, hd ▸ hy, ?_⟩
      rw [hyp, hd]
      refine hqueue ?_
      cases hpos : (resume cfg p.nowMs d h a p.desk).2.pos with
      | createAuditJob | receipt => rfl
      | _ => rw [hpos] at htrying; cases htrying
  case landed =>
    intro l hl
    obtain ⟨x, hx, hacc⟩ := hp.landed l hl
    obtain ⟨y, hy, hyp, -⟩ := hmoved _ x hx
    exact ⟨y, hy, hyp ▸ hacc.mono⟩

theorem Accounted.frame (hp : Accounted ts p) (tr : Transition Intake Event) (q : Intake)
    (hhandlers : ∀ (i : ℕ) (x : Handler), p.handlers[i]? = some x → q.handlers[i]? = some x)
    (hqueued : ∀ (i : ℕ) (x : Handler), q.handlers[i]? = some x → x.pos.queued = true → p.handlers[i]? = some x)
    (hsent : q.sent = p.sent) (hlanded : q.landed = p.landed) : Accounted (ts ++ [tr]) q where
  queued i x hx hq := (hp.queued i x (hqueued i x hx hq) hq).mono
  sent s hs := by
    obtain ⟨x, hx, hacc⟩ := hp.sent s (hsent ▸ hs)
    exact ⟨x, hhandlers _ x hx, hacc.mono⟩
  landed l hl := by
    obtain ⟨x, hx, hacc⟩ := hp.landed l (hlanded ▸ hl)
    exact ⟨x, hhandlers _ x hx, hacc.mono⟩

theorem accounted_run (hr : (system this cfg).Run ts p) : Accounted ts p := by
  induction hr with
  | init hinit =>
    obtain ⟨hhandlers, -, hsent, hlanded, -⟩ := hinit
    constructor
    · simp [hhandlers]
    · simp [hsent]
    · simp [hlanded]
  | @step ts p _ _ _ hstep ih =>
    cases hstep with
    | receive =>
      refine ih.frame _ _ (fun i x hx => ?_) (fun i x hx hq => ?_) rfl rfl
      · rw [List.getElem?_append_left (List.getElem?_eq_some_iff.mp hx).1]
        exact hx
      · rcases handlers_append hx with ⟨-, rfl⟩ | hx
        · cases hq
        · exact hx
    | answer hh hserves => exact ih.answer hh
    | @land sent env w hsent hnew h =>
      refine { queued := fun i x hx hq => (ih.queued i x hx hq).mono, sent := fun s hs => ?_, landed := fun l hl => ?_ }
      · obtain ⟨x, hx, hacc⟩ := ih.sent s hs
        exact ⟨x, hx, hacc.mono⟩
      · rcases List.mem_append.mp hl with hl | hl
        · obtain ⟨x, hx, hacc⟩ := ih.landed l hl
          exact ⟨x, hx, hacc.mono⟩
        · obtain rfl := List.mem_singleton.mp hl
          obtain ⟨x, hx, hacc⟩ := ih.sent sent hsent
          exact ⟨x, hx, hacc.mono⟩
    | move | others | tick => exact ih.frame _ _ (fun _ _ hx => hx) (fun _ _ hx _ => hx) rfl rfl

/-! ## When a discovery is accepted -/

/-- A valid discovery that is worth an audit is accepted exactly if none of the transitions before it that count for
its contract is within the time that counts, and the contract has no open job. -/
def DecidedBy (counts : Address → Transition Intake Event → Prop) (cfg : Config) (ts : Trace) : Prop :=
  ∀ (pre post : Trace) (tr : Transition Intake Event), ts = pre ++ tr :: post →
    ∀ (d : ℕ) (c : Address) (pos : Awaiting) (payload : Payload),
      Orchestrator.normalizeAddress payload.contractAddress = some c → validateDiscoveryPayload payload = .ok () →
      lowRisk cfg payload = false → Decides tr d payload pos →
      (pos = .lock ↔ (∀ tr' ∈ pre, counts c tr' → tr'.src.nowMs + cfg.discoveryDedupeTtlMs < tr.src.nowMs) ∧
        Orchestrator.hasOpenJobForContract tr.src.desk.jobs (tr.src.nowMs / 1000) c = false)

/-- `Date.now()` counts from 1970, and is not 0. -/
def Clocked (ts : Trace) : Prop := ∀ tr ∈ ts, 0 < tr.src.nowMs

/-- Which discoveries are accepted, where the ones that count are those that were accepted or passed over as
duplicates. -/
structure Deduplicated (cfg : Config) (ts : Trace) (p : Intake) : Prop where
  /-- What decides. -/
  decided : DecidedBy Sees cfg ts
  /-- Two discoveries of a contract are not accepted within the time that counts. -/
  apart : ∀ (pre mid post : Trace) (tr tr' : Transition Intake Event), ts = pre ++ tr :: mid ++ tr' :: post →
    ∀ c, Accepts c tr → Accepts c tr' → tr.src.nowMs + cfg.discoveryDedupeTtlMs < tr'.src.nowMs
  /-- A job is created for a discovery of its contract that was accepted. -/
  creators : ∀ l ∈ p.landed, ∃ tr ∈ ts, DecidesOn tr l.discovery (p.chain.state.jobs l.jobId).contractAddress .lock

theorem Noted.not_recent_iff (cfg : Config) (hn : Noted ts p c) (hclock : Clocked ts) :
    ¬ p.desk.recent cfg p.nowMs c ↔
      ∀ tr ∈ ts, Sees c tr → tr.src.nowMs + cfg.discoveryDedupeTtlMs < p.nowMs := by
  have hpast := hn.past
  unfold Desk.recent
  constructor
  · intro hnot tr htr hsees
    have hlatest := hn.latest tr htr hsees
    have hpos := hclock tr htr
    omega
  · rintro hall ⟨hpos, hwithin⟩
    rcases hn.seen with hzero | ⟨tr, htr, hsees, heq⟩
    · omega
    · have hbefore := hall tr htr hsees
      omega

theorem Decides.received (hdec : Decides ⟨p, e, p'⟩ d payload pos) (hstep : Step this cfg p e p') :
    Received cfg p.nowMs payload p.desk p'.desk pos := by
  rcases noted_or_decides hstep with ⟨-, hnone⟩ | ⟨d', payload', pos', -, hunique, hreceived⟩
  · exact absurd hdec (hnone _ _ _)
  · obtain ⟨-, rfl, rfl⟩ := hunique _ _ _ hdec
    exact hreceived

theorem Accepts.not_recent (ha : Accepts c ⟨p, e, p'⟩) (hon : cfg.discoveryDedupeEnabled = true)
    (hstep : Step this cfg p e p') : ¬ p.desk.recent cfg p.nowMs c := by
  obtain ⟨d, payload, hc, hdec⟩ := ha
  cases hdec.received hstep with
  | accepted c' hc' _ hnew =>
    obtain rfl := Option.some.inj (hc.symm.trans hc')
    exact fun hrecent => hnew hon (.inl hrecent)
  | deduped _ _ hpos => cases hpos
  | rejected hpos => cases hpos
  | lowRisk hpos => cases hpos

theorem Decides.lock_iff (hdec : Decides ⟨p, e, p'⟩ d payload pos) (hon : cfg.discoveryDedupeEnabled = true)
    (hc : Orchestrator.normalizeAddress payload.contractAddress = some c)
    (hvalid : validateDiscoveryPayload payload = .ok ()) (hrisk : lowRisk cfg payload = false)
    (hstep : Step this cfg p e p') : pos = .lock ↔ ¬ p.desk.duplicate cfg p.nowMs c := by
  cases hdec.received hstep with
  | accepted c' hc' hpos hnew =>
    obtain rfl := Option.some.inj (hc.symm.trans hc')
    exact ⟨fun _ => hnew hon, fun _ => hpos⟩
  | deduped c' hc' hpos hdup =>
    obtain rfl := Option.some.inj (hc.symm.trans hc')
    exact ⟨fun hlock => by simp [hpos] at hlock, fun hnot => absurd hdup hnot⟩
  | rejected _ hinvalid => exact absurd hvalid hinvalid
  | lowRisk _ hlow =>
    rw [hrisk] at hlow
    cases hlow

/-- With deduplication on, a discovery is accepted exactly if its contract was not seen within the time that counts
and has no open job; so two that are accepted are further apart than that, and only accepted ones create jobs. -/
theorem accepted_iff_unseen (hr : (system this cfg).Run ts p) (hon : cfg.discoveryDedupeEnabled = true)
    (hclock : Clocked ts) : Deduplicated cfg ts p := by
  constructor
  case decided =>
    rintro pre post tr rfl d c pos payload hc hvalid hrisk hdec
    obtain ⟨hbefore, hstep⟩ := hr.before
    have hnoted := (noted_run hbefore c).not_recent_iff cfg fun tr' htr' =>
      hclock tr' (List.mem_append_left _ htr')
    rw [hdec.lock_iff hon hc hvalid hrisk hstep, ← hnoted]
    unfold Desk.duplicate
    rw [not_or, Bool.not_eq_true]
  case apart =>
    rintro pre mid post tr tr' rfl c ha ha'
    obtain ⟨hbefore, hstep⟩ := hr.before
    have hnoted := (noted_run hbefore c).not_recent_iff cfg fun tr' htr' =>
      hclock tr' (List.mem_append_left _ htr')
    refine hnoted.mp (ha'.not_recent hon hstep) tr (by simp) ?_
    obtain ⟨d, hd⟩ := ha
    exact ⟨d, .inl hd⟩
  case creators =>
    intro l hl
    obtain ⟨-, -, x, hx, hcontract⟩ := (tracked_run hr).landed l hl
    obtain ⟨y, hy, tr, htr, hdec⟩ := (accounted_run hr).landed l hl
    obtain rfl := Option.some.inj (hx.symm.trans hy)
    refine ⟨tr, htr, x.payload, ?_, hdec⟩
    rw [hcontract]
    rfl

/-! ## A duplicate that puts off the next acceptance -/

/-- The sample discovery comes in. -/
def Intake.takeIn (p : Intake) : Intake := { p with handlers := p.handlers ++ [⟨samplePayload, 0, .rosterBootstrap⟩] }

/-- It is decided. -/
def Intake.decided (p : Intake) : Intake :=
  p.takeIn.answer sampleConfig p.handlers.length ⟨samplePayload, 0, .rosterBootstrap⟩ (.ok ())

/-- The two transitions. -/
def Intake.deciding (p : Intake) : Trace := [⟨p, .receive samplePayload, p.takeIn⟩,
  ⟨p.takeIn, .answer p.handlers.length .rosterBootstrap (.ok ()), p.decided⟩]

theorem run_deciding (hr : (system 1 sampleConfig).Run ts p) :
    (system 1 sampleConfig).Run (ts ++ p.deciding) p.decided := by
  have hin : (system 1 sampleConfig).Run (ts ++ [⟨p, .receive samplePayload, p.takeIn⟩]) p.takeIn := hr.step .receive
  have hlast : p.takeIn.handlers[p.handlers.length]? = some ⟨samplePayload, 0, .rosterBootstrap⟩ := by
    unfold Intake.takeIn
    exact List.getElem?_concat_length
  have hstep : Step 1 sampleConfig p.takeIn (.answer p.handlers.length .rosterBootstrap (.ok ())) p.decided :=
    .answer hlast rfl
  have hdecided := hin.step hstep
  rwa [List.append_assoc] at hdecided

/-- A discovery is accepted, and passed over once more shortly before the time is over that counts. -/
def seenTwice : Intake := { sampleIntake.decided with nowMs := 130000 }.decided

/-- What happens until then. -/
def seenTwiceTrace : Trace :=
  [] ++ sampleIntake.deciding ++ [⟨sampleIntake.decided, .tick, { sampleIntake.decided with nowMs := 130000 }⟩] ++
    { sampleIntake.decided with nowMs := 130000 }.deciding ++ [⟨seenTwice, .tick, { seenTwice with nowMs := 130001 }⟩]

theorem run_seenTwice : (system 1 sampleConfig).Run seenTwiceTrace { seenTwice with nowMs := 130001 } := by
  have hfirst := run_deciding (.init sample_init)
  have hwait : Step 1 sampleConfig sampleIntake.decided .tick { sampleIntake.decided with nowMs := 130000 } :=
    .tick (by decide)
  have hsecond := run_deciding (hfirst.step hwait)
  exact hsecond.step (.tick (show (130000 : ℕ) ≤ 130001 by decide))

theorem seenTwice_pos : (seenTwice.handlers[1]?).map Handler.pos = some .dedupedLog := by decide +kernel

theorem seenThrice_pos : ({ seenTwice with nowMs := 130001 }.decided.handlers[2]?).map Handler.pos =
    some .dedupedLog := by decide +kernel

theorem seenTwice_open : Orchestrator.hasOpenJobForContract seenTwice.desk.jobs (130001 / 1000) 4 = false := by
  decide +kernel

theorem Decides.cameTo {tr : Transition Intake Event} (hdec : Decides tr d payload pos) :
    (∃ a, tr.label = .answer d .rosterBootstrap a) ∧ (tr.dst.handlers[d]?).map Handler.pos = some pos := by
  obtain ⟨a, x, y, hlabel, -, -, hy, rfl⟩ := hdec
  exact ⟨⟨a, hlabel⟩, by rw [hy]; rfl⟩

theorem seenTwice_accepts {tr : Transition Intake Event} (htr : tr ∈ seenTwiceTrace) (ha : Accepts c tr) :
    tr.src.nowMs = 70000 := by
  obtain ⟨d, payload, -, hdec⟩ := ha
  obtain ⟨⟨a, hlabel⟩, hpos⟩ := hdec.cameTo
  simp only [seenTwiceTrace, Intake.deciding, List.nil_append, List.cons_append, List.mem_cons, List.not_mem_nil,
    or_false] at htr
  rcases htr with rfl | rfl | rfl | rfl | rfl | rfl
  · rfl
  · rfl
  · rfl
  · cases hlabel
  · obtain ⟨rfl, -⟩ := Event.answer.inj hlabel
    have hdeduped := seenTwice_pos.symm.trans hpos
    cases hdeduped
  · cases hlabel

theorem clocked_seenTwice : Clocked (seenTwiceTrace ++ { seenTwice with nowMs := 130001 }.deciding) := by
  intro tr htr
  simp only [seenTwiceTrace, Intake.deciding, List.nil_append, List.cons_append, List.mem_cons, List.not_mem_nil,
    or_false] at htr
  rcases htr with rfl | rfl | rfl | rfl | rfl | rfl | rfl | rfl <;> decide

/-- A discovery is passed over although the last one that was accepted is long ago, and there is no open job: a
duplicate in between has put it off. -/
theorem duplicate_postpones : ¬ ∀ (this : Address) (cfg : Config) (ts : Trace) (p : Intake),
    (system this cfg).Run ts p → cfg.discoveryDedupeEnabled = true → Clocked ts → DecidedBy Accepts cfg ts := by
  intro hall
  have hr := run_deciding run_seenTwice
  have hclaim := hall _ _ _ _ hr rfl clocked_seenTwice
  have hdec : Decides ⟨{ seenTwice with nowMs := 130001 }.takeIn,
      .answer 2 .rosterBootstrap (.ok ()), { seenTwice with nowMs := 130001 }.decided⟩ 2 samplePayload .dedupedLog := by
    obtain ⟨y, hy, hpos⟩ := Option.map_eq_some_iff.mp seenThrice_pos
    exact ⟨.ok (), ⟨samplePayload, 0, .rosterBootstrap⟩, y, rfl, rfl, rfl, hy, hpos⟩
  have hiff := hclaim (seenTwiceTrace ++ [⟨_, .receive samplePayload, { seenTwice with nowMs := 130001 }.takeIn⟩]) [] _
    (by rw [List.append_assoc]; rfl) 2 4 .dedupedLog samplePayload rfl (by decide +kernel) (by decide +kernel) hdec
  refine absurd (hiff.mpr ⟨fun tr htr ha => ?_, seenTwice_open⟩) (by decide)
  rcases List.mem_append.mp htr with htr | htr
  · rw [seenTwice_accepts htr ha]
    decide
  · obtain rfl := List.mem_singleton.mp htr
    obtain ⟨d, payload, -, hdec⟩ := ha
    obtain ⟨⟨a, hlabel⟩, -⟩ := hdec.cameTo
    cases hlabel

/-- Of three discoveries of a contract, the first is accepted. -/
theorem accepted_iff_unseen_sample : ∃ ts p, (system 1 sampleConfig).Run ts p ∧ Deduplicated sampleConfig ts p ∧
    p.handlers.map Handler.pos = [.lock, .dedupedLog, .dedupedLog] := by
  have hr := run_deciding run_seenTwice
  exact ⟨_, _, hr, accepted_iff_unseen hr rfl clocked_seenTwice, by decide +kernel⟩

end AuditGuard.Discovery
