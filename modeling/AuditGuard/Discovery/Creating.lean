import AuditGuard.Discovery.Lock

/-!
# Discoveries: the jobs that are created

An error that is reported for the transaction of an attempt, and that looks like a passing one, leads to another
attempt with another transaction, whether the first one has landed or not. So a discovery may create several jobs, and
some that are not recorded. Where a failure is reported only for a transaction that never lands, a discovery that is
through has created the job that it recorded and no other.
-/

namespace AuditGuard.Discovery

open Evm TransitionSystem
open Orchestrator (Memory)

/-! ## The condition -/

namespace Awaiting

/-- The attempt whose transaction is on its way. -/
def trying : Awaiting → Option ℕ
  | createAuditJob attempt _ => some attempt
  | receipt attempt _ => some attempt
  | _ => none

/-- The answer reports that the transaction has failed. -/
def fails : (pos : Awaiting) → Except String pos.Answer → Bool
  | createAuditJob _ _, .error _ => true
  | receipt _ _, .error _ => true
  | receipt _ _, .ok answer => Receipt.failed answer
  | _, _ => false

/-- The handler is through with the creation of its job, and with its record. -/
def settled : Awaiting → Bool
  | dedupedLog | rejectedLog | failed _ | txFailedLog _ | abortedLog _ | jobFailedLog | jobCreatedLog | finished => true
  | _ => false

end Awaiting

/-- In the run, the transaction of an attempt is reported to have failed. -/
def Reported (ts : Trace) (discovery attempt : ℕ) : Prop :=
  ∃ tr ∈ ts, ∃ pos a, tr.label = .answer discovery pos a ∧ pos.trying = some attempt ∧ pos.fails a = true

/-- In the run, the transaction of an attempt lands. -/
def Lands (ts : Trace) (discovery attempt : ℕ) : Prop := ∃ tr ∈ ts, tr.label = .land discovery attempt

/-- A failure is reported only for a transaction that never lands. -/
def FailuresTrue (ts : Trace) : Prop :=
  ∀ discovery attempt, Reported ts discovery attempt → ¬ Lands ts discovery attempt

/-- A discovery creates one job at most, no discovery that is through has created a job that is not recorded, and a
record is of a job that its discovery has created, for its contract. -/
structure DiscoveriesSound (p : Intake) : Prop where
  once : ∀ discovery, (p.created discovery).length ≤ 1
  recorded : ∀ (discovery : ℕ) (h : Handler), p.handlers[discovery]? = some h → h.pos.settled = true →
    ∀ jobId ∈ p.created discovery, p.desk.jobs.getJobByKey jobId ≠ none
  tracked : ∀ record ∈ p.desk.stored, record.jobId ∈ p.created record.discovery ∧
    record.contractAddress = .address (p.chain.state.jobs record.jobId).contractAddress

variable {this : Address} {cfg : Config} {nowMs d d' k : ℕ} {payload : Payload} {pos : Awaiting}
  {h h' : Handler} {m : Desk} {p p' : Intake} {e : Event} {ts ts' : Trace}

theorem Reported.mono (hr : Reported ts d k) : Reported (ts ++ ts') d k := by
  obtain ⟨tr, htr, hreported⟩ := hr
  exact ⟨tr, List.mem_append_left _ htr, hreported⟩

theorem Lands.mono (hl : Lands ts d k) : Lands (ts ++ ts') d k := by
  obtain ⟨tr, htr, hland⟩ := hl
  exact ⟨tr, List.mem_append_left _ htr, hland⟩

theorem FailuresTrue.before (ht : FailuresTrue (ts ++ ts')) : FailuresTrue ts :=
  fun d k hr hl => ht d k hr.mono hl.mono

/-! ## The books of the transactions -/

/-- What is known of the transactions of a run, and of the records. -/
structure Tracked (this : Address) (cfg : Config) (ts : Trace) (p : Intake) : Prop where
  chain : (AuditAuction.contract this).system.Reachable p.chain
  sent : ∀ s ∈ p.sent, ∃ h, p.handlers[s.discovery]? = some h ∧ createCall cfg h.payload = some s.call ∧
    (h.pos.trying = some s.attempt ∨ p.hasLanded s.discovery s.attempt = true ∨ Reported ts s.discovery s.attempt)
  landed : ∀ l ∈ p.landed, Lands ts l.discovery l.attempt ∧ (p.chain.state.jobs l.jobId).jobId ≠ 0 ∧
    ∃ h, p.handlers[l.discovery]? = some h ∧
      h.payload.contractAddress = .address (p.chain.state.jobs l.jobId).contractAddress
  stored : ∀ record ∈ p.desk.stored, ∃ h, p.handlers[record.discovery]? = some h ∧
    h.payload.contractAddress = record.contractAddress

theorem resume_payload (a : Except String h.pos.Answer) :
    (resume cfg nowMs d h a m).2.payload = h.payload := by
  rcases resume_cases cfg nowMs d m a with ⟨-, hres⟩ | ⟨jobId, deadline, -, hres⟩ | ⟨-, hres⟩
  · rw [hres]
    obtain ⟨recent, ⟨q, -, heq⟩ | heq⟩ := receive_cases cfg nowMs h m <;> rw [heq]
  · rw [hres]
  · rw [hres]

theorem landed_of_receipt {ticket : ℕ} {expected : Option ℕ} {receipt : Receipt}
    (hreceipt : Receipt.failed (some receipt) = false)
    (hserves : p.serves d ticket (.receipt k expected) (.ok (some receipt)) = true) :
    ∃ l ∈ p.landed, l.discovery = d ∧ l.attempt = k ∧
      ∀ posted, receipt.jobPosted = some posted → posted.1 = l.jobId := by
  simp only [Intake.serves, hreceipt, Bool.false_eq_true, if_false, List.any_eq_true, decide_eq_true_eq] at hserves
  obtain ⟨l, hl, hd, hk, hposted⟩ := hserves
  refine ⟨l, hl, hd, hk, fun posted hp => ?_⟩
  rw [hp, Option.all_some, decide_eq_true_eq] at hposted
  exact congrArg Prod.fst hposted

theorem hasLanded_of_mem {l : Landed} (hl : l ∈ p.landed) : p.hasLanded l.discovery l.attempt = true := by
  unfold Intake.hasLanded
  rw [List.any_eq_true]
  exact ⟨l, hl, decide_eq_true ⟨rfl, rfl⟩⟩

theorem next_trying {ticket : ℕ} {a : Except String pos.Answer} (hpos : pos.trying = some k)
    (hserves : p.serves d ticket pos a = true) : (next cfg nowMs payload pos a).trying = some k ∨
      pos.fails a = true ∨ p.hasLanded d k = true := by
  cases pos with
  | createAuditJob attempt expected =>
    cases a with
    | ok => exact .inl hpos
    | error => exact .inr (.inl rfl)
  | receipt attempt expected =>
    obtain rfl : attempt = k := Option.some.inj hpos
    rcases a with error | _ | receipt
    · exact .inr (.inl rfl)
    · exact .inr (.inl rfl)
    · rcases hfailed : Receipt.failed (some receipt) with _ | _
      · obtain ⟨l, hl, rfl, rfl, -⟩ := landed_of_receipt hfailed hserves
        exact .inr (.inr (hasLanded_of_mem hl))
      · exact .inr (.inl hfailed)
  | _ => cases hpos

theorem sends_cases {s : Sent} (hs : s ∈ Intake.sends cfg d h) :
    s.discovery = d ∧ h.pos.trying = some s.attempt ∧ createCall cfg h.payload = some s.call := by
  unfold Intake.sends at hs
  split at hs
  · rename_i attempt expected hpos
    rw [hpos]
    rw [Option.mem_toList, Option.map_eq_some_iff] at hs
    obtain ⟨c, hc, rfl⟩ := hs
    exact ⟨rfl, rfl, hc⟩
  · cases hs

theorem createCall_eq {c : AuditAuction.Call} (hc : createCall cfg payload = some c) :
    ∃ contractAddress chain type risk budget lines duration, payload.contractAddress = .address contractAddress ∧
      c = .createAuditJob contractAddress chain type risk budget lines duration := by
  simp only [createCall, Option.bind_eq_bind, Option.bind_eq_some_iff, Option.pure_def, Option.some.injEq] at hc
  obtain ⟨contractAddress, hcontract, risk, -, _, -, budget, -, lines, -, duration, -, rfl⟩ := hc
  refine ⟨contractAddress, _, _, risk, budget, lines, duration, ?_, rfl⟩
  unfold Orchestrator.normalizeAddress at hcontract
  split at hcontract
  · rename_i heq
    rw [heq, Option.some.inj hcontract]
  · cases hcontract

theorem exists_handler_set {hs : List Handler} (hd : hs[d]? = some h) (hpayload : h'.payload = h.payload) {i : ℕ}
    {x : Handler} (hx : hs[i]? = some x) :
    ∃ y, (hs.set d h')[i]? = some y ∧ y.payload = x.payload ∧ (i ≠ d → y = x) ∧ (i = d → y = h') := by
  rcases eq_or_ne i d with rfl | hne
  · obtain rfl := Option.some.inj (hd.symm.trans hx)
    have hlt := (List.getElem?_eq_some_iff.mp hd).1
    exact ⟨h', List.getElem?_set_self hlt, hpayload, fun hne => absurd rfl hne, fun _ => rfl⟩
  · rw [List.getElem?_set_ne hne.symm]
    exact ⟨x, hx, rfl, fun _ => rfl, fun heq => absurd heq hne⟩

theorem resume_pos (a : Except String h.pos.Answer) (hpos : h.pos.trying = some k) :
    (resume cfg nowMs d h a m).2.pos = next cfg nowMs h.payload h.pos a := by
  rcases resume_cases cfg nowMs d m a with ⟨hroster, -⟩ | ⟨jobId, deadline, hopened, -⟩ | ⟨-, hres⟩
  · rw [hroster] at hpos
    cases hpos
  · rw [hopened] at hpos
    cases hpos
  · rw [hres]

theorem resume_stored {a : Except String h.pos.Answer} {record : Stored}
    (hrecord : record ∈ (resume cfg nowMs d h a m).1.stored) : record ∈ m.stored ∨
      (∃ deadline, h.pos = .opened record.jobId deadline) ∧ record.discovery = d ∧
        record.contractAddress = h.payload.contractAddress := by
  rcases resume_cases cfg nowMs d m a with ⟨-, hres⟩ | ⟨jobId, deadline, hpos, hres⟩ | ⟨-, hres⟩
  · rw [hres] at hrecord
    obtain ⟨recent, ⟨q, -, heq⟩ | heq⟩ := receive_cases cfg nowMs h m
    · rw [heq] at hrecord
      exact .inl hrecord
    · rw [heq] at hrecord
      exact .inl hrecord
  · rw [hres] at hrecord
    rcases List.mem_append.mp hrecord with hrecord | hrecord
    · exact .inl hrecord
    · obtain rfl := List.mem_singleton.mp hrecord
      exact .inr ⟨⟨deadline, hpos⟩, rfl, rfl⟩
  · rw [hres] at hrecord
    have hsame : (m.leave h.ticket h.pos (next cfg nowMs h.payload h.pos a)).stored = m.stored := by
      unfold Desk.leave
      split_ifs <;> rfl
    exact .inl (hsame ▸ hrecord)

/-- An answer keeps the books. -/
theorem Tracked.answer (hp : Tracked this cfg ts p) (hh : p.handlers[d]? = some h)
    {a : Except String h.pos.Answer} (hserves : p.serves d h.ticket h.pos a = true) :
    Tracked this cfg (ts ++ [⟨p, .answer d h.pos a, p.answer cfg d h a⟩]) (p.answer cfg d h a) := by
  have hpayload : (resume cfg p.nowMs d h a p.desk).2.payload = h.payload := resume_payload a
  have hmoved : ∀ (i : ℕ) (x : Handler), p.handlers[i]? = some x → ∃ y, (p.answer cfg d h a).handlers[i]? = some y ∧
      y.payload = x.payload ∧ (i ≠ d → y = x) ∧ (i = d → y = (resume cfg p.nowMs d h a p.desk).2) :=
    fun i x hx => exists_handler_set hh hpayload hx
  refine { chain := hp.chain, sent := ?_, landed := ?_, stored := ?_ }
  · intro s hs
    rcases List.mem_append.mp hs with hs | hs
    · obtain ⟨x, hx, hcall, hstate⟩ := hp.sent s hs
      obtain ⟨y, hy, hyp, hother, hself⟩ := hmoved _ x hx
      refine ⟨y, hy, hyp ▸ hcall, ?_⟩
      rcases hstate with htrying | hlanded | hreported
      · by_cases hd : s.discovery = d
        · -- Its own handler goes on.
          obtain rfl : h = x := Option.some.inj (hh.symm.trans (hd ▸ hx))
          rw [hself hd, resume_pos a htrying, hd]
          rcases next_trying htrying hserves with hstill | hfails | hlanded
          · exact .inl hstill
          · exact .inr (.inr ⟨_, List.mem_append_right _ (List.mem_singleton_self _), _, a, rfl, htrying, hfails⟩)
          · exact .inr (.inl hlanded)
        · exact .inl (hother hd ▸ htrying)
      · exact .inr (.inl hlanded)
      · exact .inr (.inr hreported.mono)
    · obtain ⟨hd, htrying, hcall⟩ := sends_cases hs
      obtain ⟨y, hy, -, -, hself⟩ := hmoved d h hh
      rw [hself rfl] at hy
      refine ⟨_, ?_, hcall, .inl htrying⟩
      rw [hd]
      exact hy
  · intro l hl
    obtain ⟨hlands, hposted, x, hx, hcontract⟩ := hp.landed l hl
    obtain ⟨y, hy, hyp, -⟩ := hmoved _ x hx
    exact ⟨hlands.mono, hposted, y, hy, hyp ▸ hcontract⟩
  · intro record hrecord
    rcases resume_stored hrecord with hold | ⟨-, hd, hcontract⟩
    · obtain ⟨x, hx, hcontract⟩ := hp.stored record hold
      obtain ⟨y, hy, hyp, -⟩ := hmoved _ x hx
      exact ⟨y, hy, hyp ▸ hcontract⟩
    · obtain ⟨y, hy, hyp, -⟩ := hmoved d h hh
      refine ⟨y, hd ▸ hy, ?_⟩
      rw [hyp, hcontract]

theorem Tracked.land (hp : Tracked this cfg ts p) {s : Sent} {env : AuditAuction.Env} {w : Chain}
    (hs : s ∈ p.sent) (h : (AuditAuction.contract this).Step p.chain (.call env s.call) w) :
    w.state.nextJobId = p.chain.state.nextJobId + 1 ∧ (w.state.jobs p.chain.state.nextJobId).jobId ≠ 0 ∧
      ∃ h, p.handlers[s.discovery]? = some h ∧
        h.payload.contractAddress = .address (w.state.jobs p.chain.state.nextJobId).contractAddress := by
  obtain ⟨x, hx, hcall, -⟩ := hp.sent s hs
  obtain ⟨contractAddress, chain, type, risk, budget, lines, duration, hcontract, hcreate⟩ := createCall_eq hcall
  rw [hcreate] at h
  have hfirst : 0 < p.chain.state.nextJobId := (AuditAuction.reachable_sound hp.chain).first
  cases h with
  | @call _ _ _ w' _ _ _ hexec =>
    change AuditAuction.exec this env (.createAuditJob contractAddress chain type risk budget lines duration) p.chain =
      .ok w' at hexec
    obtain ⟨hnext, hid, haddress⟩ := AuditAuction.exec_createAuditJob hexec
    refine ⟨hnext, ?_, x, hx, ?_⟩
    · dsimp only
      rw [hid]
      exact hfirst.ne'
    · dsimp only
      rw [haddress]
      exact hcontract

theorem Tracked.frame (hp : Tracked this cfg ts p) (tr : Transition Intake Event) (q : Intake)
    (hhandlers : ∀ (i : ℕ) (x : Handler), p.handlers[i]? = some x → q.handlers[i]? = some x)
    (hsent : q.sent = p.sent) (hlanded : q.landed = p.landed) (hstored : q.desk.stored = p.desk.stored)
    (hchain : (AuditAuction.contract this).system.Reachable q.chain)
    (hkeeps : ∀ jobId, AuditAuction.Keeps p.chain.state q.chain.state jobId) : Tracked this cfg (ts ++ [tr]) q where
  chain := hchain
  sent s hs := by
    obtain ⟨x, hx, hcall, hstate⟩ := hp.sent s (hsent ▸ hs)
    refine ⟨x, hhandlers _ x hx, hcall, hstate.imp_right (Or.imp (fun h => ?_) Reported.mono)⟩
    unfold Intake.hasLanded
    rw [hlanded]
    exact h
  landed l hl := by
    obtain ⟨hlands, hposted, x, hx, hcontract⟩ := hp.landed l (hlanded ▸ hl)
    refine ⟨hlands.mono, (hkeeps _).posted hposted, x, hhandlers _ x hx, ?_⟩
    rw [(hkeeps _).contractAddress hposted]
    exact hcontract
  stored record hrecord := by
    obtain ⟨x, hx, hcontract⟩ := hp.stored record (hstored ▸ hrecord)
    exact ⟨x, hhandlers _ x hx, hcontract⟩

/-- The books of a run are in order. -/
theorem tracked_run (hr : (system this cfg).Run ts p) : Tracked this cfg ts p := by
  induction hr with
  | init hinit =>
    obtain ⟨hhandlers, hdesk, hsent, hlanded, hchain⟩ := hinit
    exact {
      chain := hchain
      sent := by simp [hsent]
      landed := by simp [hlanded]
      stored := by simp [hdesk, Desk.empty] }
  | @step ts p _ _ _ hstep ih =>
    cases hstep with
    | receive =>
      refine ih.frame _ _ (fun i x hx => ?_) rfl rfl rfl ih.chain fun _ => .refl _ _
      rw [List.getElem?_append_left (List.getElem?_eq_some_iff.mp hx).1]
      exact hx
    | answer hh hserves => exact ih.answer hh hserves
    | @land sent env w hsent hnew h =>
      set q : Intake := { p with
        chain := w
        landed := p.landed ++ [⟨sent.discovery, sent.attempt, p.chain.state.nextJobId⟩] }
      have hmoved := ih.frame ⟨p, .land sent.discovery sent.attempt, q⟩ { p with chain := w } (fun _ _ hx => hx) rfl
        rfl rfl (ih.chain.step h) fun jobId => AuditAuction.Step.keeps_job ih.chain h jobId
      refine { chain := hmoved.chain, sent := fun s hs => ?_, landed := fun l hl => ?_, stored := hmoved.stored }
      · obtain ⟨x, hx, hcall, hstate⟩ := hmoved.sent s hs
        refine ⟨x, hx, hcall, hstate.imp_right (Or.imp_left fun h => ?_)⟩
        exact List.any_append.trans (by rw [show (p.landed.any _) = true from h, Bool.true_or])
      · rcases List.mem_append.mp hl with hl | hl
        · exact hmoved.landed l hl
        · obtain rfl := List.mem_singleton.mp hl
          obtain ⟨-, hposted, hcontract⟩ := ih.land hsent h
          exact ⟨⟨_, List.mem_append_right _ (List.mem_singleton_self _), rfl⟩, hposted, hcontract⟩
    | move h hl =>
      exact ih.frame _ _ (fun _ _ hx => hx) rfl rfl rfl (ih.chain.step h) fun jobId =>
        AuditAuction.Step.keeps_job ih.chain h jobId
    | others => exact ih.frame _ _ (fun _ _ hx => hx) rfl rfl rfl ih.chain fun _ => .refl _ _
    | tick => exact ih.frame _ _ (fun _ _ hx => hx) rfl rfl rfl ih.chain fun _ => .refl _ _

/-! ## What a discovery has created -/

/-- While its transaction is on its way, a discovery has created the job that it expects, or it expects the next one
and has created none. -/
def Trying (p : Intake) (d attempt : ℕ) (expected : Option ℕ) : Prop :=
  (p.created d = [] ∧ expected = some p.chain.state.nextJobId) ∨
    ∃ jobId, expected = some jobId ∧ p.created d = [jobId] ∧ p.hasLanded d attempt = true

/-- What a discovery has created when its handler is at a place. -/
def Progress (p : Intake) (d : ℕ) : Awaiting → Prop
  | .createAuditJob attempt expected => Trying p d attempt expected
  | .receipt attempt expected => Trying p d attempt expected
  | .postTxNextJobId _ _ => False
  | .getJob jobId => p.created d = [jobId]
  | .opened jobId _ => p.created d = [jobId]
  | .jobCreatedLog | .finished => (p.created d).length ≤ 1 ∧ ∀ jobId ∈ p.created d, p.desk.jobs.getJobByKey jobId ≠ none
  | _ => p.created d = []

theorem mem_created {l : Landed} (hl : l ∈ p.landed) : l.jobId ∈ p.created l.discovery :=
  List.mem_map_of_mem (List.mem_filter.mpr ⟨hl, decide_eq_true rfl⟩)

theorem hasLanded_of_created (hd : p.created d = []) (attempt : ℕ) : p.hasLanded d attempt = false := by
  rw [Bool.eq_false_iff]
  intro hlanded
  obtain ⟨l, hl, heq⟩ := List.any_eq_true.mp hlanded
  obtain ⟨rfl, -⟩ := of_decide_eq_true heq
  have hmem := mem_created hl
  rw [hd] at hmem
  cases hmem

theorem Trying.created_nil {expected : Option ℕ} (ht : Trying p d k expected) (hlanded : p.hasLanded d k = false) :
    p.created d = [] := by
  rcases ht with ⟨hnil, -⟩ | ⟨jobId, -, -, htrue⟩
  · exact hnil
  · rw [hlanded] at htrue
    cases htrue

theorem progress_caught (hd : p.created d = []) (attempt : ℕ) (error : String) :
    Progress p d (caught cfg attempt error) := by
  rcases caught_cases cfg attempt error with h | h | h | h <;> rw [h] <;> exact hd

theorem progress_resolveDeadline {jobId : ℕ} (hd : p.created d = [jobId]) (parsedDeadlineSec : Option ℕ) :
    Progress p d (resolveDeadline jobId parsedDeadlineSec) := by
  rcases resolveDeadline_cases jobId parsedDeadlineSec with ⟨deadline, h⟩ | h <;> rw [h] <;> exact hd

theorem progress_resolveJob {ticket : ℕ} {expected : Option ℕ} {receipt : Receipt} (ht : Trying p d k expected)
    (hreceipt : Receipt.failed (some receipt) = false)
    (hserves : p.serves d ticket (.receipt k expected) (.ok (some receipt)) = true) :
    Progress p d (resolveJob k expected receipt) := by
  obtain ⟨l, hl, rfl, rfl, hposted⟩ := landed_of_receipt hreceipt hserves
  rcases ht with ⟨hnil, -⟩ | ⟨jobId, rfl, hcreated, -⟩
  · exact absurd (hasLanded_of_mem hl) (by rw [hasLanded_of_created hnil]; exact Bool.false_ne_true)
  · have hjob : l.jobId = jobId := List.mem_singleton.mp (hcreated ▸ mem_created hl)
    have hfound : (receipt.jobPosted.map Prod.fst <|> some jobId) = some jobId := by
      rcases hlog : receipt.jobPosted with _ | posted
      · rfl
      · exact congrArg some ((hposted posted hlog).trans hjob)
    unfold resolveJob
    rw [hfound]
    exact progress_resolveDeadline hcreated _

/-- An answer keeps the progress of a handler, where it reports no failure of a transaction that has landed. -/
theorem progress_next (cfg : Config) (nowMs : ℕ) (payload : Payload) {ticket : ℕ} {a : Except String pos.Answer}
    (hp : Progress p d pos)
    (hserves : p.serves d ticket pos a = true)
    (hfails : ∀ attempt, pos.trying = some attempt → pos.fails a = true → p.hasLanded d attempt = false)
    (hpos : pos ≠ .rosterBootstrap ∧ ∀ jobId deadline, pos ≠ .opened jobId deadline) :
    Progress p d (next cfg nowMs payload pos a) := by
  have hover : p.created d = [] → Progress p d .finished := by
    intro hnil
    unfold Progress
    rw [hnil]
    exact ⟨Nat.zero_le _, nofun⟩
  cases pos with
  | rosterBootstrap => exact absurd rfl hpos.1
  | opened jobId deadline => exact absurd rfl (hpos.2 jobId deadline)
  | postTxNextJobId => exact hp.elim
  | dedupedLog | rejectedLog | jobFailedLog => exact hover hp
  | deferredLog | retryingLog | backoff | failed | jobCreatedLog | finished => exact hp
  | lock =>
    simp only [next]
    split <;> exact hp
  | operationalHbar attempt =>
    cases a with
    | ok => exact hp
    | error error => exact progress_caught hp attempt error
  | nextJobId attempt =>
    cases a with
    | ok expected => exact .inl ⟨hp, of_decide_eq_true hserves⟩
    | error error => exact progress_caught hp attempt error
  | createAuditJob attempt expected =>
    cases a with
    | ok => exact hp
    | error error => exact progress_caught (hp.created_nil (hfails attempt rfl rfl)) attempt error
  | receipt attempt expected =>
    rcases a with error | _ | receipt
    · exact progress_caught (hp.created_nil (hfails attempt rfl rfl)) attempt error
    · exact progress_caught (hp.created_nil (hfails attempt rfl rfl)) attempt _
    · simp only [next]
      split_ifs with hfailed
      · exact progress_caught (hp.created_nil (hfails attempt rfl hfailed)) attempt _
      · exact progress_resolveJob hp (Bool.eq_false_of_not_eq_true hfailed) hserves
  | getJob jobId => cases a <;> exact hp
  | topUp attempt error =>
    simp only [next, deferral]
    split_ifs <;> exact hp
  | txFailedLog error =>
    cases a with
    | ok => exact hp
    | error => exact hover hp
  | abortedLog error =>
    simp only [next]
    split_ifs
    · exact hp
    · exact hover hp

theorem Progress.congr (hp : Progress p d pos) (hcreated : p'.created d = p.created d)
    (hlanded : ∀ attempt, p'.hasLanded d attempt = p.hasLanded d attempt)
    (hnext : pos.locked = true → p'.chain.state.nextJobId = p.chain.state.nextJobId)
    (hjobs : ∀ key, p.desk.jobs.getJobByKey key ≠ none → p'.desk.jobs.getJobByKey key ≠ none) :
    Progress p' d pos := by
  have htrying : ∀ attempt expected, pos.locked = true → Trying p d attempt expected →
      Trying p' d attempt expected := by
    intro attempt expected hlocked ht
    unfold Trying
    rw [hcreated, hlanded, hnext hlocked]
    exact ht
  unfold Progress at hp ⊢
  split at hp
  · exact htrying _ _ rfl hp
  · exact htrying _ _ rfl hp
  · exact hp
  · exact hcreated.trans hp
  · exact hcreated.trans hp
  · rw [hcreated]
    exact ⟨hp.1, fun jobId hjob => hjobs jobId (hp.2 jobId hjob)⟩
  · rw [hcreated]
    exact ⟨hp.1, fun jobId hjob => hjobs jobId (hp.2 jobId hjob)⟩
  · exact hcreated.trans hp

theorem lookup_putJob (jobId version key : ℕ) (jobs : List (ℕ × ℕ)) :
    (Memory.putJob jobId version jobs).lookup key = if key = jobId then some version else jobs.lookup key := by
  have hlookup : ∀ (k v : ℕ) (rest : List (ℕ × ℕ)),
      ((k, v) :: rest).lookup key = if key = k then some v else rest.lookup key := by
    intro k v rest
    rw [List.lookup_cons]
    split_ifs with hkey
    · rw [beq_iff_eq.mpr hkey]
    · rw [beq_eq_false_iff_ne.mpr hkey]
  induction jobs with
  | nil => exact hlookup _ _ _
  | cons entry jobs ih =>
    obtain ⟨k, v⟩ := entry
    unfold Memory.putJob
    dsimp only
    rcases eq_or_ne k jobId with rfl | hne
    · rw [if_pos rfl, hlookup, hlookup]
      split_ifs <;> rfl
    · rw [if_neg hne, hlookup, ih, hlookup]
      split_ifs with hk hjob
      · exact absurd (hk.symm.trans hjob) hne
      · rfl
      · rfl
      · rfl

theorem getJobByKey_store (m : Desk) (jobId deadline : ℕ) (contractAddress : Orchestrator.AddressText) (key : ℕ)
    (hkey : key = jobId ∨ m.jobs.getJobByKey key ≠ none) :
    (m.store d jobId contractAddress deadline).jobs.getJobByKey key ≠ none := by
  have heq : (m.store d jobId contractAddress deadline).jobs.getJobByKey key =
      if key = jobId then some (m.jobs.created jobId) else m.jobs.getJobByKey key := lookup_putJob _ _ _ _
  rw [heq]
  split_ifs with hjob
  · exact nofun
  · exact hkey.resolve_left hjob

theorem leave_jobs (m : Desk) (ticket : ℕ) (pos pos' : Awaiting) : (m.leave ticket pos pos').jobs = m.jobs := by
  unfold Desk.leave
  split_ifs <;> rfl

theorem resume_jobs (a : Except String h.pos.Answer) {key : ℕ} (hkey : m.jobs.getJobByKey key ≠ none) :
    (resume cfg nowMs d h a m).1.jobs.getJobByKey key ≠ none := by
  rcases resume_cases cfg nowMs d m a with ⟨-, hres⟩ | ⟨jobId, deadline, -, hres⟩ | ⟨-, hres⟩
  · rw [hres]
    obtain ⟨recent, ⟨q, -, heq⟩ | heq⟩ := receive_cases cfg nowMs h m <;> rw [heq] <;> exact hkey
  · rw [hres]
    exact getJobByKey_store m jobId deadline _ key (.inr hkey)
  · rw [hres]
    dsimp only
    rw [leave_jobs]
    exact hkey

/-- The progress of every handler, and what the records are of. -/
structure Sound (p : Intake) : Prop where
  progress : ∀ (d : ℕ) (h : Handler), p.handlers[d]? = some h → Progress p d h.pos
  stored : ∀ record ∈ p.desk.stored, record.jobId ∈ p.created record.discovery

theorem Progress.answer (hp : Progress p d h.pos) {a : Except String h.pos.Answer}
    (hserves : p.serves d h.ticket h.pos a = true)
    (hfails : ∀ attempt, h.pos.trying = some attempt → h.pos.fails a = true → p.hasLanded d attempt = false) :
    Progress (p.answer cfg d h a) d (resume cfg p.nowMs d h a p.desk).2.pos := by
  have hover : p.created d = [] → Progress (p.answer cfg d h a) d .finished := by
    intro hnil
    have hsame : (p.answer cfg d h a).created d = [] := hnil
    unfold Progress
    rw [hsame]
    exact ⟨Nat.zero_le _, nofun⟩
  rcases resume_cases cfg p.nowMs d p.desk a with ⟨hpos, hres⟩ | ⟨jobId, deadline, hpos, hres⟩ | ⟨hpos, hres⟩
  · rw [hpos] at hp
    have hnil : p.created d = [] := hp
    obtain ⟨recent, ⟨q, rfl | rfl | rfl, heq⟩ | heq⟩ := receive_cases cfg p.nowMs h p.desk <;> rw [hres, heq]
    · exact hnil
    · exact hnil
    · exact hover hnil
    · exact hnil
  · rw [hpos] at hp
    have hcreated : (p.answer cfg d h a).created d = [jobId] := hp
    have hdesk : (p.answer cfg d h a).desk = p.desk.store d jobId h.payload.contractAddress deadline :=
      congrArg Prod.fst hres
    rw [hres]
    unfold Progress
    dsimp only
    rw [hcreated, hdesk]
    exact ⟨Nat.le_refl 1, fun key hkey => getJobByKey_store _ _ _ _ key (.inl (List.mem_singleton.mp hkey))⟩
  · rw [hres]
    have hnext := progress_next cfg p.nowMs h.payload hp hserves hfails hpos
    exact hnext.congr rfl (fun _ => rfl) (fun _ => rfl) fun key hkey => resume_jobs a hkey

theorem Sound.answer (hp : Sound p) (hh : p.handlers[d]? = some h) {a : Except String h.pos.Answer}
    (hserves : p.serves d h.ticket h.pos a = true)
    (hfails : ∀ attempt, h.pos.trying = some attempt → h.pos.fails a = true → p.hasLanded d attempt = false) :
    Sound (p.answer cfg d h a) := by
  have hprogress := hp.progress d h hh
  constructor
  case progress =>
    intro i x hx
    rcases handlers_set hh hx with ⟨rfl, rfl⟩ | ⟨-, hx⟩
    · exact hprogress.answer hserves hfails
    · exact (hp.progress i x hx).congr rfl (fun _ => rfl) (fun _ => rfl) fun key hkey => resume_jobs a hkey
  case stored =>
    intro record hrecord
    rcases resume_stored hrecord with hold | ⟨⟨deadline, hpos⟩, hd, -⟩
    · exact hp.stored record hold
    · rw [hpos] at hprogress
      have hcreated : p.created d = [record.jobId] := hprogress
      change record.jobId ∈ p.created record.discovery
      rw [hd, hcreated]
      exact List.mem_singleton_self _

theorem created_land (p : Intake) (w : Chain) (l : Landed) (i : ℕ) :
    { p with chain := w, landed := p.landed ++ [l] }.created i =
      p.created i ++ if l.discovery = i then [l.jobId] else [] := by
  unfold Intake.created
  dsimp only
  rw [List.filter_append, List.map_append]
  split_ifs with hi
  · simp [hi]
  · simp [hi]

theorem hasLanded_land (p : Intake) (w : Chain) (l : Landed) (i attempt : ℕ) :
    { p with chain := w, landed := p.landed ++ [l] }.hasLanded i attempt =
      (p.hasLanded i attempt || decide (l.discovery = i ∧ l.attempt = attempt)) := by
  unfold Intake.hasLanded
  dsimp only
  rw [List.any_append, List.any_cons, List.any_nil, Bool.or_false]

theorem progress_trying (htrying : pos.trying = some k) :
    ∃ expected, ∀ q i, Progress q i pos ↔ Trying q i k expected := by
  cases pos with
  | createAuditJob attempt expected | receipt attempt expected =>
    obtain rfl := Option.some.inj htrying
    exact ⟨expected, fun _ _ => Iff.rfl⟩
  | _ => cases htrying

theorem Sound.land (hr : (system this cfg).Reachable p) (hp : Sound p) {s : Sent} {w : Chain}
    (hh : p.handlers[s.discovery]? = some h) (htrying : h.pos.trying = some s.attempt)
    (hnew : p.hasLanded s.discovery s.attempt = false) :
    Sound { p with
      chain := w
      landed := p.landed ++ [⟨s.discovery, s.attempt, p.chain.state.nextJobId⟩] } := by
  have hprogress := hp.progress _ h hh
  have hlocked : h.pos.locked = true := by
    revert htrying
    cases h.pos <;> first | exact fun _ => rfl | exact nofun
  constructor
  case progress =>
    intro i x hx
    rcases eq_or_ne s.discovery i with rfl | hne
    · obtain rfl := Option.some.inj (hh.symm.trans hx)
      obtain ⟨expected, htry⟩ := progress_trying htrying
      rw [htry] at hprogress ⊢
      rcases hprogress with ⟨hnil, hexpected⟩ | ⟨-, -, -, hlanded⟩
      · refine .inr ⟨p.chain.state.nextJobId, hexpected, ?_, ?_⟩
        · rw [created_land, hnil, if_pos rfl, List.nil_append]
        · rw [hasLanded_land, decide_eq_true ⟨rfl, rfl⟩, Bool.or_true]
      · rw [hnew] at hlanded
        cases hlanded
    · refine (hp.progress i x hx).congr ?_ ?_ ?_ fun _ hkey => hkey
      · rw [created_land, if_neg hne, List.append_nil]
      · intro attempt
        rw [hasLanded_land, decide_eq_false fun heq => hne heq.1, Bool.or_false]
      · intro hx'
        exact absurd (locked_unique hr hh hx hlocked hx') hne
  case stored =>
    intro record hrecord
    rw [created_land]
    exact List.mem_append_left _ (hp.stored record hrecord)

theorem Tracked.created_nil (hp : Tracked this cfg ts p) (hd : p.handlers[d]? = none) : p.created d = [] := by
  unfold Intake.created
  rw [List.map_eq_nil_iff, List.filter_eq_nil_iff]
  intro l hl heq
  obtain ⟨-, -, y, hy, -⟩ := hp.landed l hl
  rw [of_decide_eq_true heq, hd] at hy
  cases hy

theorem Progress.length_le (hp : Progress p d pos) : (p.created d).length ≤ 1 := by
  have htrying : ∀ attempt expected, Trying p d attempt expected → (p.created d).length ≤ 1 := by
    rintro attempt expected (⟨hnil, -⟩ | ⟨jobId, -, hcreated, -⟩)
    · rw [hnil]
      exact Nat.zero_le 1
    · rw [hcreated]
      exact Nat.le_refl 1
  unfold Progress at hp
  split at hp
  · exact htrying _ _ hp
  · exact htrying _ _ hp
  · exact hp.elim
  · rw [hp]
    exact Nat.le_refl 1
  · rw [hp]
    exact Nat.le_refl 1
  · exact hp.1
  · exact hp.1
  · rw [hp]
    exact Nat.zero_le 1

theorem Progress.recorded (hp : Progress p d pos) (hsettled : pos.settled = true) :
    ∀ jobId ∈ p.created d, p.desk.jobs.getJobByKey jobId ≠ none := by
  have hnil : p.created d = [] → ∀ jobId ∈ p.created d, p.desk.jobs.getJobByKey jobId ≠ none := by
    intro hnil jobId hjob
    rw [hnil] at hjob
    cases hjob
  cases pos with
  | dedupedLog | rejectedLog | failed | txFailedLog | abortedLog | jobFailedLog => exact hnil hp
  | jobCreatedLog | finished => exact hp.2
  | _ => cases hsettled

/-- Where failures are reported only for transactions that never land, the handlers make their progress. -/
theorem sound_run (hr : (system this cfg).Run ts p) (ht : FailuresTrue ts) : Sound p := by
  induction hr with
  | init hinit =>
    obtain ⟨hhandlers, hdesk, -⟩ := hinit
    exact {
      progress := by simp [hhandlers]
      stored := by simp [hdesk, Desk.empty] }
  | @step ts p _ _ hr hstep ih =>
    have hp := ih ht.before
    have htracked := tracked_run hr
    cases hstep with
    | @receive payload =>
      refine { progress := fun i x hx => ?_, stored := hp.stored }
      rcases handlers_append hx with ⟨rfl, rfl⟩ | hx
      · -- No transaction is of a discovery that has not come in.
        exact htracked.created_nil (List.getElem?_eq_none (Nat.le_refl _))
      · exact (hp.progress i x hx).congr rfl (fun _ => rfl) (fun _ => rfl) fun _ hkey => hkey
    | @answer discovery h a hh hserves =>
      refine hp.answer hh hserves fun attempt htrying hfails => ?_
      -- Otherwise a failure is reported for a transaction that has landed.
      rw [Bool.eq_false_iff]
      intro hlanded
      obtain ⟨l, hl, heq⟩ := List.any_eq_true.mp hlanded
      obtain ⟨rfl, rfl⟩ := of_decide_eq_true heq
      exact ht l.discovery l.attempt ⟨_, List.mem_append_right _ (List.mem_singleton_self _), _, a, rfl, htrying, hfails⟩
        (htracked.landed l hl).1.mono
    | @land sent env w hsent hnew h =>
      obtain ⟨x, hx, -, htrying | hlanded | hreported⟩ := htracked.sent sent hsent
      · exact hp.land hr.reachable hx htrying hnew
      · rw [hnew] at hlanded
        cases hlanded
      · refine absurd ?_ (ht sent.discovery sent.attempt hreported.mono)
        exact ⟨_, List.mem_append_right _ (List.mem_singleton_self _), rfl⟩
    | move h hl =>
      have hnext := AuditAuction.Step.nextJobId htracked.chain h hl
      exact {
        progress := fun d h hh => (hp.progress d h hh).congr rfl (fun _ => rfl) (fun _ => hnext) fun _ hkey => hkey
        stored := hp.stored }
    | others hjobs =>
      exact {
        progress := fun d h hh => (hp.progress d h hh).congr rfl (fun _ => rfl) (fun _ => rfl) hjobs
        stored := hp.stored }
    | tick =>
      exact {
        progress := fun d h hh => (hp.progress d h hh).congr rfl (fun _ => rfl) (fun _ => rfl) fun _ hkey => hkey
        stored := hp.stored }

/-- Where failures are reported only for transactions that never land, every discovery creates one job at most, and
records it. -/
theorem discoveries_sound (hr : (system this cfg).Run ts p) (ht : FailuresTrue ts) : DiscoveriesSound p := by
  have hsound := sound_run hr ht
  have htracked := tracked_run hr
  constructor
  case once =>
    intro d
    rcases hd : p.handlers[d]? with _ | h
    · rw [htracked.created_nil hd]
      exact Nat.zero_le 1
    · exact (hsound.progress d h hd).length_le
  case recorded =>
    intro d h hh hsettled
    exact (hsound.progress d h hh).recorded hsettled
  case tracked =>
    intro record hrecord
    have hcreated := hsound.stored record hrecord
    refine ⟨hcreated, ?_⟩
    obtain ⟨x, hx, hcontract⟩ := htracked.stored record hrecord
    obtain ⟨l, hl, hjob⟩ := List.mem_map.mp hcreated
    obtain ⟨hl, hd⟩ := List.mem_filter.mp hl
    obtain ⟨-, -, y, hy, haddress⟩ := htracked.landed l hl
    rw [of_decide_eq_true hd, hx] at hy
    obtain rfl := Option.some.inj hy
    rw [← hcontract, haddress, hjob]

/-! ## Samples -/

/-- The configuration with a memory of a minute. -/
def sampleConfig : Config where
  discoveryDedupeEnabled := true
  discoveryDedupeTtlMs := 60000
  minRiskScore := 0
  createMaxAttempts := 6
  auctionDurationSec := 60
  winnerWaitMs := 60000
  strictLive := true
  parseUnits amount := .ok (amount * 10^8).num.toNat

/-- A discovery with a budget of 200 GUARD. -/
def samplePayload : Payload where
  contractAddress := .address 4
  contractType := some "token"
  budget := some 200
  riskScore := some 10
  estimatedLOC := some 100

/-- Nothing has been received. -/
def sampleIntake : Intake where
  handlers := []
  desk := Desk.empty
  chain := AuditAuction.sampleWorld
  sent := []
  landed := []
  nowMs := 70000

theorem sample_init : (system 1 sampleConfig).init sampleIntake :=
  ⟨rfl, rfl, rfl, rfl, .init ⟨9, 7, 6, 5, 10, rfl⟩⟩

/-- A discovery comes in and has its first transaction sent, which lands. -/
def createMoves : List Move := [
  .receive samplePayload,
  .answer 0 .rosterBootstrap (.ok ()),
  .answer 0 .lock (.ok ()),
  .answer 0 (.operationalHbar 1) (.ok ()),
  .answer 0 (.nextJobId 1) (.ok (some 1)),
  .answer 0 (.createAuditJob 1 (some 1)) (.ok ()),
  .land 0 (AuditAuction.sampleEnv 5 70)]

/-- The wait for its receipt runs out of time, and another transaction is sent, which lands as well. -/
def retryMoves : List Move := [
  .answer 0 (.receipt 1 (some 1)) (.error "timeout"),
  .answer 0 (.deferredLog 1 "timeout") (.ok ()),
  .answer 0 (.retryingLog 1 "timeout") (.ok ()),
  .answer 0 (.backoff 1) (.ok ()),
  .answer 0 (.operationalHbar 2) (.ok ()),
  .answer 0 (.nextJobId 2) (.ok (some 2)),
  .answer 0 (.createAuditJob 2 (some 2)) (.ok ()),
  .land 1 (AuditAuction.sampleEnv 5 80)]

/-- The receipt comes, and the job is recorded. -/
def recordMoves : List Move := [
  .answer 0 (.receipt 1 (some 1)) (.ok (some ⟨some 1, some (1, 130)⟩)),
  .answer 0 (.opened 1 130) (.ok ())]

theorem exists_played {α : Type} {moves : List Move} {f : Intake → α} {b : α}
    (h : (moves.foldlM (Intake.play 1 sampleConfig) sampleIntake).map f = some b) :
    ∃ ts p, (system 1 sampleConfig).Run ts p ∧ f p = b ∧
      ∀ tr ∈ ts, ∀ discovery pos a, tr.label = .answer discovery pos a → .answer discovery pos a ∈ moves := by
  obtain ⟨ts, p, hr, hf, hfrom, -⟩ := plays.exists_run sample_init h
  refine ⟨ts, p, hr, hf, fun tr htr discovery pos a heq => ?_⟩
  obtain ⟨move, hmove, hcomes⟩ := hfrom tr htr
  rw [← hcomes.means discovery pos a heq]
  exact hmove

/-- A discovery creates two jobs, after a failure was reported for a transaction that had landed. -/
theorem creates_twice : ¬ ∀ (this : Address) (cfg : Config) (ts : Trace) (p : Intake),
    (system this cfg).Run ts p → DiscoveriesSound p := by
  intro hall
  have hplay : ((createMoves ++ retryMoves).foldlM (Intake.play 1 sampleConfig) sampleIntake).map
      (fun p => p.created 0) = some [1, 2] := by decide +kernel
  obtain ⟨ts, p, hr, hcreated, -⟩ := exists_played hplay
  have hle := (hall _ _ _ _ hr).once 0
  rw [hcreated] at hle
  exact absurd hle (by decide)

/-- The answer does not report a failure. -/
def Move.honest : Move → Bool
  | .answer _ pos a => pos.fails a = false
  | _ => true

/-- No failure is reported, and the discovery records the job that it has created. -/
theorem discoveries_sound_sample : ∃ ts p, (system 1 sampleConfig).Run ts p ∧ DiscoveriesSound p ∧
    p.created 0 = [1] ∧ p.desk.jobs.getJobByKey 1 = some 0 := by
  have hplay : ((createMoves ++ recordMoves).foldlM (Intake.play 1 sampleConfig) sampleIntake).map
      (fun p => (p.created 0, p.desk.jobs.getJobByKey 1)) = some ([1], some 0) := by decide +kernel
  obtain ⟨ts, p, hr, hread, hlabels⟩ := exists_played hplay
  have hhonest : ∀ move ∈ createMoves ++ recordMoves, move.honest = true := by decide +kernel
  refine ⟨ts, p, hr, discoveries_sound hr ?_, congrArg Prod.fst hread, congrArg Prod.snd hread⟩
  rintro discovery attempt ⟨tr, htr, pos, a, hlabel, -, hfails⟩
  have hfine := of_decide_eq_true (hhonest _ (hlabels tr htr discovery pos a hlabel))
  rw [hfails] at hfine
  cases hfine

end AuditGuard.Discovery
