import AuditGuard.AuditAuction.Jobs

/-!
# AuditAuction: the books

All jobs together, with the ledger of the GUARD token. Every step in the life of a job takes a deposit of
collateral, or makes payments, or neither. What the contract owes is the collateral of all bids and the
escrow of all jobs; a step moves it by what it takes and pays, except that the selection of winners puts
their pay into escrow without taking it from anybody.
-/

namespace AuditGuard.AuditAuction

open Evm TransitionSystem

/-- The refunds of the pending bids. -/
def refunds (bids : List AgentBid) : List (Address × ℕ) :=
  (bids.filter fun b => b.status = .pending).map fun b => (b.agent, b.collateralLocked)

namespace JobOp

/-- The collateral that a step takes from an agent. -/
def deposit : JobOp → Option (Address × ℕ)
  | .bid b => some (b.agent, b.collateralLocked)
  | .rebid old b => some (b.agent, b.collateralLocked - old.collateralLocked)
  | _ => none

/-- What a step pays to whom. -/
def payments (treasury : Address) : JobOp → List (Address × ℕ)
  | .rebid old b => [(b.agent, old.collateralLocked - b.collateralLocked)]
  | .select _ p fee => (treasury, fee) :: refunds p.bids
  | .release b payout => [(b.agent, payout), (b.agent, b.collateralLocked)]
  | .slash b slashed => [(treasury, slashed), (b.agent, b.collateralLocked - slashed)]
  | .cancel bids => refunds bids
  | _ => []

/-- The pay that a step puts into escrow, the fee included. -/
def promise : JobOp → ℕ
  | .select _ p _ => p.total
  | _ => 0

/-- The active jobs after a step in the life of the job `id`. -/
def activate (id : ℕ) : JobOp → List ℕ → List ℕ
  | .post _, active => active ++ [id]
  | .complete, active => SwapPop.remove id active
  | .cancel _, active => SwapPop.remove id active
  | _, active => active

end JobOp

/-- A deposit of an agent, if there is one. -/
def takeDeposit (this : Address) : Option (Address × ℕ) → TokenLedger → Option TokenLedger
  | none, token => some token
  | some (a, x), token => token.transfer a this x

/-- All jobs, with the parameters that their steps use, and the ledger of the GUARD token. -/
structure Books where
  token : TokenLedger
  nextJobId : ℕ
  files : ℕ → JobFile
  active : List ℕ
  treasury : Address
  feePercent : ℕ

/-- The operations on the books. -/
inductive BookOp
  | post (budget : ℕ)
  | job (id : ℕ) (op : JobOp)
  | configure (treasury : Address) (feePercent : ℕ)

/-- One operation on the books of the contract at `this`. -/
inductive BookStep (this : Address) : Books → BookOp → Books → Prop
  | post {b : Books} {budget : ℕ} {f : JobFile}
      (hstep : JobStep this (b.files b.nextJobId) (.post budget) f) :
      BookStep this b (.post budget) { b with
        nextJobId := b.nextJobId + 1
        files := Function.update b.files b.nextJobId f
        active := b.active ++ [b.nextJobId] }
  | job {b : Books} {id : ℕ} {op : JobOp} {f : JobFile} {token₁ token : TokenLedger}
      (hposted : (b.files id).posted = true) (hstep : JobStep this (b.files id) op f)
      (hfee : ∀ picks p fee, op = .select picks p fee → fee = p.total * b.feePercent / 100)
      (htake : takeDeposit this op.deposit b.token = some token₁)
      (hpay : token₁.payAll this (op.payments b.treasury) = some token) :
      BookStep this b (.job id op) { b with
        token := token
        files := Function.update b.files id f
        active := op.activate id b.active }
  | configure {b : Books} {treasury : Address} {feePercent : ℕ} :
      BookStep this b (.configure treasury feePercent)
        { b with treasury := treasury, feePercent := feePercent }

theorem BookStep.of_job {this : Address} {b b' : Books} {id : ℕ} {op : JobOp}
    (h : BookStep this b (.job id op) b') : JobStep this (b.files id) op (b'.files id) ∧
      ∃ token₁, takeDeposit this op.deposit b.token = some token₁ ∧
        token₁.payAll this (op.payments b.treasury) = some b'.token := by
  cases h with
  | job hposted hjob hfee htake hpay =>
    dsimp only
    rw [Function.update_self]
    exact ⟨hjob, _, htake, hpay⟩

/-! ## What is owed -/

/-- The collateral of a job's bids. -/
def JobFile.collateral (f : JobFile) : ℕ := (f.bids.map AgentBid.collateralLocked).sum

/-- What the contract owes for a job. -/
def JobFile.owed (f : JobFile) : ℕ := f.collateral + f.escrow

/-- What the contract owes. -/
def Books.owed (b : Books) : ℕ := ∑ id ∈ Finset.range b.nextJobId, (b.files id).owed

theorem collateral_refund (bids : List AgentBid) :
    ((bids.map AgentBid.refund).map AgentBid.collateralLocked).sum + ((refunds bids).map Prod.snd).sum =
      (bids.map AgentBid.collateralLocked).sum := by
  induction bids with
  | nil => rfl
  | cons b bids ih =>
    simp only [refunds] at ih ⊢
    by_cases hpending : b.status = .pending
    · rw [List.filter_cons_of_pos (by simpa using hpending)]
      simp only [List.map_cons, List.sum_cons, AgentBid.refund, if_pos hpending]
      omega
    · rw [List.filter_cons_of_neg (by simpa using hpending)]
      simp only [List.map_cons, List.sum_cons, AgentBid.refund, if_neg hpending]
      omega

theorem map_picks {β : Type} {p p' : Picks} {picks : List ℕ} {g : AgentBid → β}
    (hg : ∀ b, g { b with status := .accepted } = g b) (h : Path PickStep p picks p') :
    p'.bids.map g = p.bids.map g := by
  refine h.induct (P := fun p' => p'.bids.map g = p.bids.map g) ?_ rfl
  intro q i q' hq hstep
  cases hstep with
  | @accept bid hi hpending =>
    rw [← hq]
    exact Keyed.map_set hi (hg bid)

/-- The deposit of a step, zero if there is none. -/
def JobOp.inflow (op : JobOp) : ℕ := (op.deposit.map Prod.snd).getD 0

/-- What a step pays in all. -/
def JobOp.outflow (treasury : Address) (op : JobOp) : ℕ := ((op.payments treasury).map Prod.snd).sum

/-- A step moves what is owed for the job by what it takes and pays, and by the pay that it promises. -/
theorem JobStep.owed {this : Address} {f f' : JobFile} {op : JobOp} (treasury : Address)
    (hsound : f.Sound this) (h : JobStep this f op f') :
    f'.owed + op.outflow treasury = f.owed + op.inflow + op.promise := by
  unfold JobFile.owed JobFile.collateral JobOp.outflow JobOp.inflow
  cases h with
  | post => rfl
  | bid hposted hopen hother hnone hpending hmin hbudget =>
    simp only [JobOp.deposit, JobOp.payments, JobOp.promise, Option.map_some, Option.getD_some,
      List.map_append, List.sum_append, List.map_nil, List.sum_nil, List.map_cons, List.sum_cons]
    omega
  | @rebid _ i old b hposted hopen hi hagent hpending hmin hbudget =>
    have hmoved := Keyed.sum_map_set (b := b) AgentBid.collateralLocked hi
    simp only [JobOp.deposit, JobOp.payments, JobOp.promise, Option.map_some, Option.getD_some,
      List.map_nil, List.sum_nil, List.map_cons, List.sum_cons]
    omega
  | @select _ _ p fee hposted hopen hpicks hbudget hfee =>
    -- Before the selection there is no escrow, so that the promise is all of it.
    have hopen := hsound.isOpen hopen
    have hescrow := (hsound.early (.inl hopen)).2
    have hrefund := collateral_refund p.bids
    have hpicked : (p.bids.map AgentBid.collateralLocked).sum =
        (f.bids.map AgentBid.collateralLocked).sum := congrArg List.sum (map_picks (fun _ => rfl) hpicks)
    simp only [JobOp.deposit, JobOp.payments, JobOp.promise, Option.map_none, Option.getD_none,
      List.map_cons, List.sum_cons]
    omega
  | @release _ i _ bid hposted hprogress hunpaid hi haccepted hle =>
    have hmoved := Keyed.sum_map_set (b := { bid with collateralLocked := 0 })
      AgentBid.collateralLocked hi
    simp only [JobOp.deposit, JobOp.payments, JobOp.promise, Option.map_none, Option.getD_none,
      List.map_nil, List.sum_nil, List.map_cons, List.sum_cons] at hmoved ⊢
    omega
  | @slash _ i _ bid hposted hprogress hunpaid hi haccepted hle =>
    have hmoved := Keyed.sum_map_set (b := { bid with collateralLocked := 0, status := .refunded })
      AgentBid.collateralLocked hi
    simp only [JobOp.deposit, JobOp.payments, JobOp.promise, Option.map_none, Option.getD_none,
      List.map_nil, List.sum_nil, List.map_cons, List.sum_cons] at hmoved ⊢
    omega
  | complete hposted hprogress hcount hescrow => rfl
  | cancel hposted hopen =>
    have hrefund := collateral_refund f.bids
    simp only [JobOp.deposit, JobOp.payments, JobOp.promise, Option.map_none, Option.getD_none]
    omega

/-! ## The invariant of all jobs -/

/-- The job is neither completed nor cancelled. -/
def JobFile.Active (f : JobFile) : Prop :=
  f.posted = true ∧ f.status ≠ .completed ∧ f.status ≠ .cancelled

/-- Every job is sound, ids that were not given are unused, and the list of active jobs is exact. -/
structure Books.Sound (this : Address) (b : Books) : Prop where
  files : ∀ id, (b.files id).Sound this
  unused : ∀ id, b.nextJobId ≤ id → b.files id = JobFile.blank
  first : 0 < b.nextJobId
  active_nodup : b.active.Nodup
  active_iff : ∀ id, id ∈ b.active ↔ (b.files id).Active

theorem Books.Sound.lt_of_posted {this : Address} {b : Books} (h : b.Sound this) {id : ℕ}
    (hposted : (b.files id).posted = true) : id < b.nextJobId := by
  by_contra hge
  rw [h.unused id (Nat.le_of_not_lt hge)] at hposted
  cases hposted

theorem activate_iff {this : Address} {f f' : JobFile} {op : JobOp} {active : List ℕ} {id : ℕ}
    (hnodup : active.Nodup) (hposted : f.posted = true) (hactive : id ∈ active ↔ f.Active)
    (h : JobStep this f op f') : id ∈ op.activate id active ↔ f'.Active := by
  unfold JobFile.Active at hactive ⊢
  cases h with
  | post => simp [JobFile.blank] at hposted
  | bid | rebid | release | slash => exact hactive
  | select _ hopen =>
    refine iff_of_true (hactive.mpr ⟨hposted, ?_, ?_⟩) ⟨hposted, by simp, by simp⟩
    · rcases hopen with hopen | hopen <;> rw [hopen] <;> simp
    · rcases hopen with hopen | hopen <;> rw [hopen] <;> simp
  | complete => simp [JobOp.activate, SwapPop.mem_remove_iff hnodup]
  | cancel => simp [JobOp.activate, SwapPop.mem_remove_iff hnodup]

theorem nodup_activate {this : Address} {f f' : JobFile} {op : JobOp} {active : List ℕ} {id : ℕ}
    (hnodup : active.Nodup) (hposted : f.posted = true) (h : JobStep this f op f') :
    (op.activate id active).Nodup := by
  cases h with
  | post => simp [JobFile.blank] at hposted
  | complete | cancel => exact SwapPop.nodup_remove hnodup
  | _ => exact hnodup

theorem mem_activate_of_ne {op : JobOp} {active : List ℕ} {id i : ℕ} (hnodup : active.Nodup)
    (hne : i ≠ id) : i ∈ op.activate id active ↔ i ∈ active := by
  cases op with
  | post => simp [JobOp.activate, hne]
  | complete | cancel => simp [JobOp.activate, SwapPop.mem_remove_iff hnodup, hne]
  | _ => rfl

/-- Every operation keeps the invariant. -/
theorem Books.Sound.step {this : Address} {b b' : Books} {op : BookOp} (h : b.Sound this)
    (hstep : BookStep this b op b') : b'.Sound this := by
  cases hstep with
  | configure => exact ⟨h.files, h.unused, h.first, h.active_nodup, h.active_iff⟩
  | @post budget f hjob =>
    -- The new id was not given before, and so is not in the list.
    have hblank := h.unused b.nextJobId le_rfl
    have hnew : b.nextJobId ∉ b.active := by
      intro hmem
      have hposted := ((h.active_iff _).mp hmem).1
      rw [hblank] at hposted
      cases hposted
    constructor
    case files =>
      intro id
      dsimp only
      rcases eq_or_ne id b.nextJobId with rfl | hne
      · rw [Function.update_self]
        exact (h.files _).step hjob
      · rw [Function.update_of_ne hne]
        exact h.files id
    case unused =>
      intro id hid
      dsimp only at hid ⊢
      rw [Function.update_of_ne (by omega)]
      exact h.unused id (by omega)
    case first => exact Nat.succ_pos _
    case active_nodup =>
      change (b.active ++ [b.nextJobId]).Nodup
      rw [List.nodup_append]
      refine ⟨h.active_nodup, List.nodup_singleton _, ?_⟩
      intro id hid id' hid' heq
      rw [heq, List.mem_singleton.mp hid'] at hid
      exact hnew hid
    case active_iff =>
      intro id
      dsimp only
      rcases eq_or_ne id b.nextJobId with rfl | hne
      · rw [Function.update_self]
        refine iff_of_true (by simp) ?_
        generalize b.files b.nextJobId = f₀ at hjob
        cases hjob
        exact ⟨rfl, by simp [JobFile.blank], by simp [JobFile.blank]⟩
      · rw [Function.update_of_ne hne, ← h.active_iff id]
        simp [hne]
  | @job id op f token₁ token hposted hjob hfee htake hpay =>
    have hlt := h.lt_of_posted hposted
    constructor
    case files =>
      intro i
      dsimp only
      rcases eq_or_ne i id with rfl | hne
      · rw [Function.update_self]
        exact (h.files _).step hjob
      · rw [Function.update_of_ne hne]
        exact h.files i
    case unused =>
      intro i hi
      dsimp only at hi ⊢
      rw [Function.update_of_ne (by omega)]
      exact h.unused i hi
    case first => exact h.first
    case active_nodup => exact nodup_activate h.active_nodup hposted hjob
    case active_iff =>
      intro i
      dsimp only
      rcases eq_or_ne i id with rfl | hne
      · rw [Function.update_self]
        exact activate_iff h.active_nodup hposted (h.active_iff i) hjob
      · rw [Function.update_of_ne hne, mem_activate_of_ne h.active_nodup hne]
        exact h.active_iff i

end AuditGuard.AuditAuction
