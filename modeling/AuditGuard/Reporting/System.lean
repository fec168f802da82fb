import AuditGuard.Reporting.Handlers

/-!
# Reports: the handlers of a job and the settlement contract

Any number of report handlers of one job, next to the settlement contract. A transaction that was sent may land at any
time, or never, and a failure that is reported of it may be true or not; a receipt is reported only for a transaction
that has landed. The settlement itself is sent without waiting for its receipt. Anybody may call the contract at any
time.

The other tasks of the orchestrator record winners on the job objects, put an object that they hold back into the map,
and store a new one if they have found none, which takes them a while.
-/

namespace AuditGuard.Reporting

open Evm TransitionSystem
open Orchestrator (AddressText AgentEntry normalizeAddress)

/-- The settlement contract, the GUARD token, and the time of the latest block. -/
abbrev Chain := World PaymentSettlement.State

/-- The two transactions of a settlement. -/
inductive Part
  | deposit
  | settle
deriving DecidableEq

instance : LawfulBEq (ℕ × Part) := inferInstance

/-- A transaction that a handler has sent. -/
structure Sent where
  handler : ℕ
  part : Part
  call : PaymentSettlement.Call

/-- The handlers with what they share, the chain, and the transactions. -/
structure Office where
  handlers : List Handler
  desk : Desk
  chain : Chain
  sent : List Sent
  landed : List (ℕ × Part)

/-- A number as a `uint256`, unless it is none. -/
def toUint256 (x : ℤ) : Option (UInt 256) :=
  if h : 0 ≤ x ∧ x.toNat < 2^256 then some ⟨x.toNat, h.2⟩ else none

/-- A line of the manifest as an argument, unless it cannot be encoded. -/
def Payment.toArg (payment : Payment) : Option PaymentSettlement.ItemArg := do
  let recipient ← normalizeAddress payment.recipient
  let basePayment ← toUint256 payment.basePayment
  let bonus ← toUint256 payment.bonus
  pure ⟨recipient, basePayment, bonus, ⟨0, by norm_num⟩, .mainAudit, "Report-settlement:" ++ payment.agentId⟩

/-- The call of `depositSettlementFunds`. -/
def depositCall (totalDisbursed : ℕ) : Option PaymentSettlement.Call :=
  (toUint256 totalDisbursed).map .depositSettlementFunds

/-- The call of `settleJob`. -/
def settleCall (jobId : UInt 256) (payments : List Payment) (reportAgent : AddressText) :
    Option PaymentSettlement.Call := do
  let reportAgent ← normalizeAddress reportAgent
  let payments ← payments.mapM Payment.toArg
  pure (.settleJob jobId payments reportAgent)

/-- The transaction that a handler sends when it comes to a place. -/
def sends (jobId : UInt 256) (d : ℕ) : Awaiting → List Sent
  | .deposit _ _ totalDisbursed => ((depositCall totalDisbursed).map fun c => ⟨d, .deposit, c⟩).toList
  | .settleJob payments reportAgent => ((settleCall jobId payments reportAgent).map fun c => ⟨d, .settle, c⟩).toList
  | _ => []

/-- What happens. -/
inductive Event
  | findings (msg : FindingsMsg)
  | report (report : Report)
  | timeout
  | answer (d : ℕ) (pos : Awaiting) (a : Except String pos.Answer)
  /-- The event of the auction contract. -/
  | winnersSelected (winners : List AddressText)
  /-- A task records winners on an object. -/
  | assign (v : ℕ) (winners : List AddressText)
  /-- A task puts an object into the map. -/
  | restore (v : ℕ)
  /-- A task finds no object, and is going to store one. -/
  | lookUp
  | adopt
  | roster (roster : List AgentEntry)
  | land (d : ℕ) (part : Part)
  | move

/-- Who the handlers work for: the settings, the account of the orchestrator, and the job. -/
structure Setup where
  cfg : Config
  orchestratorAddress : Address
  /-- The settlement contract. -/
  paymentSettlement : Address
  jobId : UInt 256

namespace Office

variable (S : Setup) (p : Office)

/-- `isJobSettled`. -/
def isJobSettled : Bool := p.chain.state.jobToSettlement S.jobId ≠ 0

/-- The answer may come. -/
def serves (d : ℕ) : (pos : Awaiting) → Except String pos.Answer → Bool
  | .settledCheck, .ok settled => settled = p.isJobSettled S
  | .deposit _ _ _, .ok () => (d, Part.deposit) ∈ p.landed
  | .settleJob _ _, .ok () => p.sent.any fun s => s.handler = d ∧ s.part = .settle
  | .finished, _ => false
  | _, _ => true

/-- A handler goes on with an answer. -/
def answer (d : ℕ) (h : Handler) (a : Except String h.pos.Answer) : Office :=
  let resumed := resume S.cfg S.orchestratorAddress d h a p.desk
  { p with
    handlers := p.handlers.set d resumed.2
    desk := resumed.1
    sent := p.sent ++ sends S.jobId d resumed.2.pos }

/-- A message or a timer is dealt with, which may start handlers. -/
def enrol (started : Desk × List Handler) : Office :=
  { p with handlers := p.handlers ++ started.2, desk := started.1 }

end Office

variable (S : Setup)

/-- The steps. -/
inductive Step : Office → Event → Office → Prop
  | findings (p : Office) (msg : FindingsMsg) : Step p (.findings msg) (p.enrol (handleFindings S.cfg msg p.desk))
  | report (p : Office) (report : Report) : Step p (.report report)
      (p.enrol ((handleReportPublished report p.desk).1, [(handleReportPublished report p.desk).2]))
  | timeout {p : Office} (htimers : 0 < p.desk.timers) : Step p .timeout (p.enrol (publishTimeout p.desk))
  | answer {p : Office} {d : ℕ} {h : Handler} {a : Except String h.pos.Answer} (hh : p.handlers[d]? = some h)
      (hserves : p.serves S d h.pos a = true) : Step p (.answer d h.pos a) (p.answer S d h a)
  | winnersSelected {p : Office} {v : ℕ} (winners : List AddressText) (hv : p.desk.current = some v) :
      Step p (.winnersSelected winners)
        { p with desk := p.desk.update v fun job => { job with winners := winners } }
  | assign {p : Office} {v : ℕ} (winners : List AddressText) (hv : v < p.desk.created) :
      Step p (.assign v winners) { p with desk := p.desk.update v fun job => { job with winners := winners } }
  | restore {p : Office} {v : ℕ} (hv : v < p.desk.created) :
      Step p (.restore v) { p with desk := p.desk.setJobByKey v }
  | lookUp {p : Office} (hnone : p.desk.current = none) :
      Step p .lookUp { p with desk := { p.desk with lookups := p.desk.lookups + 1 } }
  | adopt {p : Office} (hlookups : 0 < p.desk.lookups) :
      Step p .adopt { p with desk := { p.desk.create.setJobByKey p.desk.created with lookups := p.desk.lookups - 1 } }
  | roster (p : Office) (roster : List AgentEntry) :
      Step p (.roster roster) { p with desk := { p.desk with roster := roster } }
  | land {p : Office} {s : Sent} {env : PaymentSettlement.Env} {w : Chain} (hs : s ∈ p.sent)
      (hnew : (s.handler, s.part) ∉ p.landed) (hsender : env.sender = S.orchestratorAddress)
      (h : (PaymentSettlement.contract S.paymentSettlement).Step p.chain (.call env s.call) w) :
      Step p (.land s.handler s.part) { p with chain := w, landed := p.landed ++ [(s.handler, s.part)] }
  | move {p : Office} {l : Label PaymentSettlement.Env PaymentSettlement.Call} {w : Chain}
      (h : (PaymentSettlement.contract S.paymentSettlement).Step p.chain l w) : Step p .move { p with chain := w }

/-- A job that no report handler has come to yet, next to a settlement contract with whatever history. -/
def system : TransitionSystem Office Event where
  init p := p.handlers = [] ∧ p.desk.object = (fun _ => JobObject.blank) ∧ p.desk.created = 0 ∧
    p.desk.current = none ∧ p.desk.timers = 0 ∧ p.desk.attempts = [] ∧ p.sent = [] ∧ p.landed = [] ∧
    (PaymentSettlement.contract S.paymentSettlement).system.Reachable p.chain
  step := Step S

/-- What happened in a run. -/
abbrev Trace := List (Transition Office Event)

/-! ## Computed runs -/

/-- What is to happen: a message, a timer, an answer to a handler, the selection of winners, or the landing of the
transaction at an index of those that were sent. -/
inductive Move
  | findings (msg : FindingsMsg)
  | report (report : Report)
  | timeout
  | answer (d : ℕ) (pos : Awaiting) (a : Except String pos.Answer)
  | winnersSelected (winners : List AddressText)
  | land (index : ℕ) (env : PaymentSettlement.Env)

/-- The event of a move; a landing is that of a transaction. -/
def Move.event (p : Office) : Move → Event
  | .findings msg => .findings msg
  | .report r => .report r
  | .timeout => .timeout
  | .answer d pos a => .answer d pos a
  | .winnersSelected selected => .winnersSelected selected
  | .land index _ =>
    match p.sent[index]? with
    | none => .move
    | some s => .land s.handler s.part

theorem Move.eq_of_event {p : Office} {move : Move} {d : ℕ} {pos : Awaiting} {a : Except String pos.Answer}
    (h : Event.answer d pos a = move.event p) : move = .answer d pos a := by
  cases move with
  | answer d' pos' a' =>
    obtain ⟨rfl, rfl, ha⟩ := Event.answer.inj h
    rw [eq_of_heq ha]
  | land index env =>
    simp only [Move.event] at h
    split at h <;> cases h
  | _ => cases h

/-- What comes of a move, if it is possible. -/
def Office.play (p : Office) : Move → Option Office
  | .findings msg => some (p.enrol (handleFindings S.cfg msg p.desk))
  | .report report =>
    some (p.enrol ((handleReportPublished report p.desk).1, [(handleReportPublished report p.desk).2]))
  | .timeout => if 0 < p.desk.timers then some (p.enrol (publishTimeout p.desk)) else none
  | .answer d pos a =>
    match p.handlers[d]? with
    | none => none
    | some h =>
      if heq : pos = h.pos then
        if p.serves S d h.pos (heq ▸ a) = true then some (p.answer S d h (heq ▸ a)) else none
      else none
  | .winnersSelected winners =>
    match p.desk.current with
    | none => none
    | some v => some { p with desk := p.desk.update v fun job => { job with winners := winners } }
  | .land index env =>
    match p.sent[index]? with
    | none => none
    | some s =>
      if (s.handler, s.part) ∉ p.landed ∧ env.sender = S.orchestratorAddress ∧
          env.sender ≠ S.paymentSettlement ∧ env.sender ≠ 0 ∧ p.chain.now ≤ env.timestamp then
        match PaymentSettlement.exec S.paymentSettlement env s.call p.chain with
        | .error _ => none
        | .ok w => some { p with
            chain := { w with now := env.timestamp }
            landed := p.landed ++ [(s.handler, s.part)] }
      else none

variable {S}

/-- A move is a step. -/
theorem step_of_play {p p' : Office} {move : Move} (h : p.play S move = some p') :
    Step S p (move.event p) p' := by
  cases move with
  | findings msg =>
    obtain rfl := Option.some.inj h
    exact .findings p msg
  | report report =>
    obtain rfl := Option.some.inj h
    exact .report p report
  | timeout =>
    unfold Office.play at h
    split_ifs at h with htimers
    obtain rfl := Option.some.inj h
    exact .timeout htimers
  | answer d pos a =>
    unfold Office.play at h
    dsimp only at h
    split at h
    · cases h
    · rename_i handler hh
      split_ifs at h with heq hserves
      subst heq
      obtain rfl := Option.some.inj h
      exact .answer hh hserves
  | winnersSelected winners =>
    unfold Office.play at h
    dsimp only at h
    split at h
    · cases h
    · rename_i v hv
      obtain rfl := Option.some.inj h
      exact .winnersSelected winners hv
  | land index env =>
    unfold Office.play at h
    dsimp only at h
    split at h
    · cases h
    · rename_i s hs
      split_ifs at h with hcond
      obtain ⟨hnew, hsender, hthis, hzero, hnow⟩ := hcond
      split at h
      · cases h
      · rename_i w hexec
        obtain rfl := Option.some.inj h
        have hstep : (PaymentSettlement.contract S.paymentSettlement).Step p.chain (.call env s.call)
            { w with now := env.timestamp } := .call hthis hzero hnow hexec
        unfold Move.event
        dsimp only
        rw [hs]
        exact .land (List.mem_of_getElem? hs) hnew hsender hstep

/-- A move, if it is possible and the state is as it should be. -/
def Office.playIf (S : Setup) (ok : Office → Move → Bool) (p : Office) (move : Move) : Option Office :=
  if ok p move = true then p.play S move else none

theorem plays (ok : Office → Move → Bool) :
    (system S).Plays (Office.playIf S ok) fun p move e => e = move.event p ∧ ok p move = true :=
  Plays.guarded fun _ _ _ h => ⟨_, rfl, step_of_play h⟩

/-! ## A sample job -/

/-- The orchestrator 5, the contract 1 and the job 3. -/
def sampleSetup : Setup := ⟨sampleConfig, 5, 1, ⟨3, by norm_num⟩⟩

/-- Nothing has come. -/
def sampleOffice : Office where
  handlers := []
  desk := ⟨fun _ => JobObject.blank, 0, none, [], 0, 0, []⟩
  chain := PaymentSettlement.sampleWorld
  sent := []
  landed := []

theorem sample_init : (system sampleSetup).init sampleOffice :=
  ⟨rfl, rfl, rfl, rfl, rfl, rfl, rfl, rfl, .init ⟨9, 7, 6, 4, 8, 10, 5, rfl⟩⟩

theorem exists_played {α : Type} {ok : Office → Move → Bool} {moves : List Move} {f : Office → α} {b : α}
    (h : (moves.foldlM (Office.playIf sampleSetup ok) sampleOffice).map f = some b) :
    ∃ ts p, (system sampleSetup).Run ts p ∧ f p = b ∧
      (∀ tr ∈ ts, ∃ move ∈ moves, tr.label = move.event tr.src ∧ ok tr.src move = true) ∧
      ∀ move ∈ moves, ∃ tr ∈ ts, tr.label = move.event tr.src := by
  obtain ⟨ts, p, hr, hf, hfrom, hto⟩ := (plays ok).exists_run sample_init h
  refine ⟨ts, p, hr, hf, fun tr htr => ?_, fun move hmove => ?_⟩
  · obtain ⟨move, hmove, hcomes⟩ := hfrom tr htr
    exact ⟨move, hmove, hcomes.means⟩
  · obtain ⟨tr, htr, hcomes⟩ := hto move hmove
    exact ⟨tr, htr, hcomes.means.1⟩

end AuditGuard.Reporting
