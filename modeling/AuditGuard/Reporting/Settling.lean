import AuditGuard.PaymentSettlement.Settlement
import AuditGuard.Reporting.Ordering

/-!
# Reports: the deposit of a settlement

A settlement is a deposit and a call of `settleJob` that spends it. Where the second fails after the first has landed,
the GUARD stays in the contract: `settleAll` does not withdraw it, and as the report is published, no later report or
timer tries the settlement again. The orchestrator's funds are safe exactly where every deposit that lands is followed
by a settlement that lands (`atomic_settlement`).
-/

namespace AuditGuard.Reporting

open Evm TransitionSystem
open Orchestrator (AddressText AgentEntry)

variable {S : Setup} {ts : Trace} {p p' : Office} {e : Event} {d : ℕ} {h h' : Handler}

/-! ## Atomic settlements -/

/-- The handler is in the middle of a settlement, as far as transactions go. -/
def Awaiting.spending : Awaiting → Bool
  | .deposit _ _ _ | .settleJob _ _ => true
  | _ => false

/-- The handler waits for the receipt of its deposit. -/
def Awaiting.depositing : Awaiting → Bool
  | .deposit _ _ _ => true
  | _ => false

/-- The GUARD that a call brings to the contract. -/
def deposited : PaymentSettlement.Call → ℕ
  | .depositSettlementFunds amount => amount.val
  | _ => 0

/-- The GUARD of the settlement of `d` remains in the contract: the deposit has landed, and the contract still holds
as much. -/
def GuardRemains (S : Setup) (p : Office) (d : ℕ) : Prop :=
  (d, Part.deposit) ∈ p.landed ∧ ∃ s ∈ p.sent, s.handler = d ∧ s.part = .deposit ∧
    deposited s.call ≤ p.chain.token.balance S.paymentSettlement

instance : Decidable (GuardRemains S p d) := inferInstanceAs (Decidable (_ ∧ _))

/-- The orchestrator can still come to settle the job. -/
def CanSettle (S : Setup) (p : Office) : Prop :=
  ∃ es p', Path (Step S) p es p' ∧ ∃ h ∈ p'.handlers, ∃ payments reportAgent, h.pos = .settleJob payments reportAgent

/-- A settlement is atomic for the orchestrator's funds: once a handler is through with it, the job is settled, or no
GUARD of it remains in the contract, or the orchestrator can still settle the job. -/
def Atomic (S : Setup) (p : Office) : Prop :=
  ∀ (d : ℕ) (h : Handler), p.handlers[d]? = some h → h.pos.spending = false →
    p.isJobSettled S = true ∨ ¬ GuardRemains S p d ∨ CanSettle S p

/-- A deposit that is reported as failed has not landed, and does not land later; and the settlement that spends it
has landed by the time it is answered, unless the job is settled by then anyway. -/
def Consumed (S : Setup) (tr : Transition Office Event) : Prop :=
  (∀ d payments reportAgent totalDisbursed error,
    tr.label = .answer d (.deposit payments reportAgent totalDisbursed) (.error error) →
      (d, Part.deposit) ∉ tr.src.landed) ∧
  (∀ d, tr.label = .land d .deposit → ∃ h, tr.src.handlers[d]? = some h ∧ h.pos.depositing = true) ∧
  (∀ d payments reportAgent a, tr.label = .answer d (.settleJob payments reportAgent) a →
    (d, Part.settle) ∈ tr.src.landed ∨ tr.src.isJobSettled S = true)

/-! ## Settlements that land -/

theorem settleJob_of_sends {pos : Awaiting} {s : Sent} (hs : s ∈ sends S.jobId d pos) (hpart : s.part = .settle) :
    ∃ payments reportAgent, s.call = .settleJob S.jobId payments reportAgent := by
  cases pos with
  | deposit payments reportAgent totalDisbursed =>
    obtain ⟨c, -, rfl⟩ := Option.mem_map.mp (Option.mem_toList.mp hs)
    cases hpart
  | settleJob payments reportAgent =>
    obtain ⟨c, hc, rfl⟩ := Option.mem_map.mp (Option.mem_toList.mp hs)
    simp only [settleCall, Option.mem_def, Option.bind_eq_bind, Option.bind_eq_some_iff] at hc
    obtain ⟨address, -, args, -, hcall⟩ := hc
    exact ⟨args, address, (Option.some.inj hcall).symm⟩
  | _ => cases hs

theorem isJobSettled_mono {w : Chain} {l : Label PaymentSettlement.Env PaymentSettlement.Call}
    (hp : (PaymentSettlement.contract S.paymentSettlement).system.Reachable p.chain)
    (h : (PaymentSettlement.contract S.paymentSettlement).Step p.chain l w) (hs : p.isJobSettled S = true) :
    ({ p with chain := w } : Office).isJobSettled S = true :=
  decide_eq_true (PaymentSettlement.Step.keeps_settled hp h (of_decide_eq_true hs))

theorem isJobSettled_of_settleJob {w : Chain} {env : PaymentSettlement.Env} {payments : List PaymentSettlement.ItemArg}
    {reportAgent : Address} (hp : (PaymentSettlement.contract S.paymentSettlement).system.Reachable p.chain)
    (h : (PaymentSettlement.contract S.paymentSettlement).Step p.chain
      (.call env (.settleJob S.jobId payments reportAgent)) w) :
    ({ p with chain := w } : Office).isJobSettled S = true :=
  decide_eq_true (PaymentSettlement.Step.settles hp h ⟨env, S.jobId, payments, reportAgent, rfl, rfl⟩).2

/-! ## Deposits that are spent -/

/-- A settlement that has landed has settled the job, and a deposit that has landed is being spent, if the job is not
settled. -/
structure Spent (S : Setup) (p : Office) : Prop where
  chain : (PaymentSettlement.contract S.paymentSettlement).system.Reachable p.chain
  sent : ∀ s ∈ p.sent, s.part = .settle → ∃ payments reportAgent, s.call = .settleJob S.jobId payments reportAgent
  settled : ∀ d, (d, Part.settle) ∈ p.landed → p.isJobSettled S = true
  landed : ∀ d, (d, Part.deposit) ∈ p.landed → p.isJobSettled S = true ∨
    ∃ h, p.handlers[d]? = some h ∧ h.pos.spending = true

theorem spending_of_depositing {pos : Awaiting} (hpos : pos.depositing = true) : pos.spending = true := by
  cases pos with
  | deposit => rfl
  | _ => cases hpos

theorem Spent.answer (hp : Spent S p) (hh : p.handlers[d]? = some h) {a : Except String h.pos.Answer}
    (hcons : Consumed S ⟨p, .answer d h.pos a, p.answer S d h a⟩) : Spent S (p.answer S d h a) where
  chain := hp.chain
  sent s hs hpart := by
    rcases List.mem_append.mp hs with hs | hs
    · exact hp.sent s hs hpart
    · exact settleJob_of_sends hs hpart
  settled := hp.settled
  landed := by
    intro i hi
    rcases hp.landed i hi with hsettled | ⟨x, hx, hspending⟩
    · exact .inl hsettled
    · by_cases hid : i = d
      · subst hid
        obtain rfl := Option.some.inj (hh.symm.trans hx)
        obtain ⟨hdeposit, -, hsettle⟩ := hcons
        obtain ⟨report, job, published, pos⟩ := h
        cases pos with
        | deposit payments reportAgent totalDisbursed =>
          cases a with
          | error error => exact absurd hi (hdeposit i payments reportAgent totalDisbursed error rfl)
          | ok answer =>
            right
            exact ⟨_, List.getElem?_set_self (List.getElem?_eq_some_iff.mp hh).1, rfl⟩
        | settleJob payments reportAgent =>
          left
          rcases hsettle i payments reportAgent a rfl with hlanded | hsettled
          · exact hp.settled i hlanded
          · exact hsettled
        | _ => cases hspending
      · exact .inr ⟨x, (List.getElem?_set_ne (Ne.symm hid)).trans hx, hspending⟩

theorem Spent.enrol {m' : Desk} {started : List Handler} (hp : Spent S p) : Spent S (p.enrol (m', started)) where
  chain := hp.chain
  sent := hp.sent
  settled := hp.settled
  landed d hd := (hp.landed d hd).imp_right fun ⟨h, hh, hspending⟩ =>
    ⟨h, (List.getElem?_append_left (List.getElem?_eq_some_iff.mp hh).1).trans hh, hspending⟩

theorem Spent.move {w : Chain} {l : Label PaymentSettlement.Env PaymentSettlement.Call} (hp : Spent S p)
    (h : (PaymentSettlement.contract S.paymentSettlement).Step p.chain l w) : Spent S { p with chain := w } where
  chain := hp.chain.step h
  sent := hp.sent
  settled d hd := isJobSettled_mono hp.chain h (hp.settled d hd)
  landed d hd := (hp.landed d hd).imp_left (isJobSettled_mono hp.chain h)

theorem Spent.land {w : Chain} {s : Sent} {env : PaymentSettlement.Env} (hp : Spent S p) (hs : s ∈ p.sent)
    (h : (PaymentSettlement.contract S.paymentSettlement).Step p.chain (.call env s.call) w)
    (hcons : s.part = .deposit → ∃ h, p.handlers[s.handler]? = some h ∧ h.pos.depositing = true) :
    Spent S { p with chain := w, landed := p.landed ++ [(s.handler, s.part)] } where
  chain := hp.chain.step h
  sent := hp.sent
  settled d hd := by
    rcases List.mem_append.mp hd with hd | hd
    · exact isJobSettled_mono hp.chain h (hp.settled d hd)
    · obtain ⟨-, hpart⟩ := Prod.mk.inj (List.mem_singleton.mp hd)
      obtain ⟨payments, reportAgent, hcall⟩ := hp.sent s hs hpart.symm
      rw [hcall] at h
      exact isJobSettled_of_settleJob (p := p) hp.chain h
  landed d hd := by
    rcases List.mem_append.mp hd with hd | hd
    · exact (hp.landed d hd).imp_left (isJobSettled_mono hp.chain h)
    · obtain ⟨rfl, hpart⟩ := Prod.mk.inj (List.mem_singleton.mp hd)
      obtain ⟨x, hx, hpos⟩ := hcons hpart.symm
      exact .inr ⟨x, hx, spending_of_depositing hpos⟩

theorem spent (hr : (system S).Run ts p) (hcons : ∀ tr ∈ ts, Consumed S tr) : Spent S p := by
  induction hr with
  | init hinit =>
    obtain ⟨-, -, -, -, -, -, hsent, hlanded, hchain⟩ := hinit
    exact ⟨hchain, by simp [hsent], by simp [hlanded], by simp [hlanded]⟩
  | @step ts p p' e hr hstep ih =>
    have hp := ih fun tr htr => hcons tr (List.mem_append_left _ htr)
    have hlast := hcons ⟨p, e, p'⟩ (List.mem_append_right _ (List.mem_singleton_self _))
    cases hstep with
    | findings | report | timeout => exact hp.enrol
    | answer hh hserves => exact hp.answer hh hlast
    | winnersSelected | assign | restore | lookUp | adopt | roster =>
      exact ⟨hp.chain, hp.sent, hp.settled, hp.landed⟩
    | @land s env w hs hnew hsender hexec =>
      exact hp.land hs hexec fun hpart => hlast.2.1 s.handler (by rw [hpart])
    | move hexec => exact hp.move hexec

/-- Where every deposit that lands is followed by a settlement that lands, the settlement is atomic for the
orchestrator's funds. -/
theorem atomic_settlement (hr : (system S).Run ts p) (hcons : ∀ tr ∈ ts, Consumed S tr) : Atomic S p := by
  intro d h hh hpos
  by_cases hlanded : (d, Part.deposit) ∈ p.landed
  · rcases (spent hr hcons).landed d hlanded with hsettled | ⟨x, hx, hspending⟩
    · exact .inl hsettled
    · obtain rfl := Option.some.inj (hh.symm.trans hx)
      rw [hpos] at hspending
      cases hspending
  · exact .inr (.inl fun hremains => hlanded hremains.1)

/-! ## Samples -/

/-- The move leaves no deposit behind. -/
def Office.consumes (S : Setup) (p : Office) : Move → Bool
  | .answer d (.deposit _ _ _) (.error _) => (d, Part.deposit) ∉ p.landed
  | .answer d (.settleJob _ _) _ => (d, Part.settle) ∈ p.landed ∨ p.isJobSettled S = true
  | .land index _ => (p.sent[index]?).all fun s =>
    s.part = .settle ∨ (p.handlers[s.handler]?).any (fun h => h.pos.depositing) = true
  | _ => true

theorem consumed_of_moves {moves : List Move}
    (hlabels : ∀ tr ∈ ts, ∃ move ∈ moves, tr.label = move.event tr.src ∧ tr.src.consumes S move = true) :
    ∀ tr ∈ ts, Consumed S tr := by
  intro tr htr
  obtain ⟨move, -, hlabel, hgood⟩ := hlabels tr htr
  refine ⟨fun d payments reportAgent totalDisbursed error heq => ?_, fun d heq => ?_,
    fun d payments reportAgent a heq => ?_⟩
  · rw [heq] at hlabel
    rw [Move.eq_of_event hlabel] at hgood
    exact of_decide_eq_true hgood
  · rw [heq] at hlabel
    cases move with
    | land index env =>
      unfold Move.event at hlabel
      unfold Office.consumes at hgood
      dsimp only at hlabel hgood
      cases hsent : tr.src.sent[index]? with
      | none =>
        rw [hsent] at hlabel
        cases hlabel
      | some s =>
        rw [hsent] at hlabel hgood
        obtain ⟨hd, hpart⟩ := Event.land.inj hlabel
        rcases of_decide_eq_true hgood with hsettle | hany
        · rw [hsettle] at hpart
          cases hpart
        · rw [hd]
          exact Option.any_eq_true _ _ |>.mp hany
    | _ => cases hlabel
  · rw [heq] at hlabel
    rw [Move.eq_of_event hlabel] at hgood
    exact of_decide_eq_true hgood

/-- The moves of the sample job up to the deposit, with its receipt. -/
def depositMoves : List Move :=
  [.findings (sampleMsg "fuzzer" 2), .winnersSelected [.address 2], .timeout] ++ publishMoves ++ settleMoves.take 6

/-- The settlement is reverted. -/
def revertMoves : List Move :=
  [.answer 0 (.settleJob [⟨.address 2, 30 * 10^8, 0, "fuzzer"⟩] (.address 5)) (.error "execution reverted")]

/-- The settlement lands, and the job is settled. -/
theorem atomic_settlement_sample : ∃ ts p, (system sampleSetup).Run ts p ∧ p.isJobSettled sampleSetup = true ∧
    (0, Part.deposit) ∈ p.landed ∧ Atomic sampleSetup p := by
  have hplay : ((depositMoves ++ settleMoves.drop 6 ++ reputationMoves).foldlM
      (Office.playIf sampleSetup (Office.consumes sampleSetup)) sampleOffice).map (fun p =>
      (p.isJobSettled sampleSetup, decide ((0, Part.deposit) ∈ p.landed))) = some (true, true) := by decide +kernel
  obtain ⟨ts, p, hr, hread, hlabels, -⟩ := exists_played hplay
  exact ⟨ts, p, hr, congrArg Prod.fst hread, of_decide_eq_true (congrArg Prod.snd hread),
    atomic_settlement hr (consumed_of_moves hlabels)⟩

/-- The deposit lands, the settlement is reverted, and the report stays published: the GUARD remains for good. -/
theorem deposit_remains : ¬ ∀ (S : Setup) (ts : Trace) (p : Office), (system S).Run ts p → Atomic S p := by
  intro hall
  have hplay : ((depositMoves ++ revertMoves ++ reputationMoves).foldlM
      (Office.playIf sampleSetup fun _ _ => true) sampleOffice).map (fun p =>
      (p.handlers.map Handler.pos, decide (p.isJobSettled sampleSetup = false ∧ GuardRemains sampleSetup p 0 ∧
        p.desk.current = some 0 ∧ p.desk.lookups = 0 ∧ p.desk.created = 1 ∧
        (p.desk.object 0).reportPublished = true))) = some ([.finished], true) := by decide +kernel
  obtain ⟨ts, p, hr, hread, -, -⟩ := exists_played hplay
  have hpos : p.handlers.map Handler.pos = [.finished] := congrArg Prod.fst hread
  obtain ⟨hsettled, hremains, hcurrent, hlookups, hcreated, hpublished⟩ := of_decide_eq_true (congrArg Prod.snd hread)
  obtain ⟨h, hh, hover⟩ := List.map_eq_singleton_iff.mp hpos
  have hclosed : Closed p := by
    refine ⟨by rw [hcurrent]; nofun, hlookups, fun v hv => ?_, fun x hx => ?_⟩
    · obtain rfl : v = 0 := by omega
      exact hpublished
    · rw [hh] at hx
      rw [List.mem_singleton.mp hx, hover]
      rfl
  rcases hall _ _ _ hr 0 h (by rw [hh]; rfl) (by rw [hover]; rfl) with hjob | hgone | hcan
  · rw [hsettled] at hjob
    cases hjob
  · exact hgone hremains
  · -- Whoever comes to settle the job again would not be late.
    obtain ⟨es, p', hpath, x, hx, payments, reportAgent, hsettle⟩ := hcan
    have hlate := (settlement_lost hr.reachable hclosed hpath).2 x hx
    rw [hsettle] at hlate
    cases hlate

end AuditGuard.Reporting
