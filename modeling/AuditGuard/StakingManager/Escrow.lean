import AuditGuard.Library.Listed
import AuditGuard.StakingManager.Refinement

/-!
# The escrow of StakingManager

A slash moves GUARD from a stake into escrow, and its settlement moves it on, back to the stake or to
the treasury. The contract holds at least all stakes and the escrow together in every reachable state,
and its counters are the sums over the slash records (`World.InBalance`). In a run each record leaves
the status PENDING at most once, and the step in which it does moves its amount exactly once, to where
its new status says (`Transition.Settles`).
-/

namespace AuditGuard.StakingManager

section

open Evm TransitionSystem

variable {this : Address} {minStake : ℕ} {b b' : Books} {op : BookOp} {ops : List BookOp}

/-! ## Solvency of the books -/

namespace Books

theorem staked_setPosition (b : Books) (a : Address) (p : Position) :
    (b.setPosition a p).staked + (b.positions a).total = b.staked + p.total :=
  Sums.sum_update b.positions a p Position.total

theorem escrow_setSlash {id : ℕ} (hid : id < b.nextSlashId) (s : Slash) :
    (b.setSlash id s).escrow + (b.slashes id).escrowed = b.escrow + s.escrowed :=
  Sums.sum_update_of_mem (Finset.mem_range.mpr hid) b.slashes s fun _ => Slash.escrowed

theorem escrow_slash (b : Books) (minStake : ℕ) (a : Address) (bps : ℕ) :
    (b.slash minStake a bps).escrow = b.escrow + (b.positions a).slashAmount bps :=
  Sums.sum_range_push b.slashes b.nextSlashId _ Slash.escrowed

/-- The contract holds all stakes and the escrow together, and slashes are under ids that were
given. -/
structure Sound (this : Address) (b : Books) : Prop where
  solvent : b.staked + b.escrow ≤ b.guard.balance this
  unused : ∀ i, b.nextSlashId ≤ i → b.slashes i = Slash.zero

namespace Sound

theorem lt_next (h : b.Sound this) {id : ℕ} (hpending : (b.slashes id).status = .pending) :
    id < b.nextSlashId := by
  by_contra hge
  rw [h.unused id (Nat.le_of_not_lt hge)] at hpending
  cases hpending

theorem setPosition (h : b.Sound this) {a : Address} {p : Position} (guard : TokenLedger)
    (hcovered : b.guard.balance this + p.total ≤ guard.balance this + (b.positions a).total) :
    ((b.setPosition a p).setGuard guard).Sound this where
  solvent := by
    have hmoved := staked_setPosition b a p
    have hsolvent := h.solvent
    change (b.setPosition a p).staked + b.escrow ≤ guard.balance this
    omega
  unused := h.unused

theorem unused_settle (h : b.Sound this) {id : ℕ} (hid : id < b.nextSlashId)
    (status : AppealStatus) {i : ℕ} (hi : b.nextSlashId ≤ i) :
    (b.setSlash id ((b.slashes id).settle status)).slashes i = Slash.zero := by
  rw [setSlash_slashes, Function.update_of_ne (lt_of_lt_of_le hid hi).ne']
  exact h.unused i hi

theorem escrow_settle (h : b.Sound this) {id : ℕ} (hpending : (b.slashes id).status = .pending)
    {status : AppealStatus} (hsettled : status ≠ .pending) :
    (b.setSlash id ((b.slashes id).settle status)).escrow + (b.slashes id).amount = b.escrow := by
  have hmoved := escrow_setSlash (h.lt_next hpending) ((b.slashes id).settle status)
  have hbefore : (b.slashes id).escrowed = (b.slashes id).amount := if_pos hpending
  have hafter : ((b.slashes id).settle status).escrowed = 0 := if_neg hsettled
  omega

/-- Every operation keeps the contract solvent. -/
theorem step (h : b.Sound this) (hstep : BookStep this minStake b op b') : b'.Sound this := by
  cases hstep with
  | deposit hx ha hpay =>
    refine h.setPosition _ ?_
    have hreceived := Ledger.transfer_balance_dst hpay ha
    simp only [Position.deposit, Position.total]
    omega
  | request hx hactive hle hnone hmin =>
    refine h.setPosition b.guard ?_
    simp only [Position.request, Position.total]
    omega
  | complete hpos ha hpay =>
    refine h.setPosition _ ?_
    have hpaid := Ledger.transfer_src_le hpay
    simp only [Position.complete, Position.total]
    omega
  | deactivate hstatus hlocked hnone hpos =>
    refine h.setPosition b.guard ?_
    simp only [Position.deactivate, Position.total]
    omega
  | lock hx hle =>
    refine h.setPosition b.guard ?_
    simp only [Position.lock, Position.total]
    omega
  | unlock hx hle =>
    refine h.setPosition b.guard ?_
    simp only [Position.unlock, Position.total]
    omega
  -- A slash moves stake into escrow, and a settlement moves it out again, to the agent or the treasury.
  | @slash a bps hpos hbps =>
    have hsolvent := h.solvent
    constructor
    · have hmoved := staked_setPosition b a ((b.positions a).slash minStake bps)
      have hcharged : ((b.positions a).slash minStake bps).total + _ = _ :=
        Position.total_slash hbps
      rw [escrow_slash]
      change (b.setPosition a ((b.positions a).slash minStake bps)).staked +
        (b.escrow + (b.positions a).slashAmount bps) ≤ b.guard.balance this
      omega
    · intro i hi
      have hlt : b.nextSlashId < i := hi
      exact (Function.update_of_ne hlt.ne' _ b.slashes).trans (h.unused i hlt.le)
  | @approve id hpending =>
    have hsolvent := h.solvent
    refine ⟨?_, fun i => h.unused_settle (h.lt_next hpending) .approved⟩
    have hstaked := staked_setPosition b (b.slashes id).agent
      ((b.positions (b.slashes id).agent).restore minStake (b.slashes id).amount)
    have hescrow := h.escrow_settle hpending (by decide : AppealStatus.approved ≠ .pending)
    have hrestored : ((b.positions (b.slashes id).agent).restore minStake (b.slashes id).amount).total =
        (b.positions (b.slashes id).agent).total + (b.slashes id).amount := by
      simp only [Position.restore, Position.total]
      omega
    change (b.setPosition (b.slashes id).agent _).staked +
      (b.setSlash id ((b.slashes id).settle .approved)).escrow ≤ b.guard.balance this
    omega
  | @deny id treasury guard hpending hpay =>
    have hsolvent := h.solvent
    refine ⟨?_, fun i => h.unused_settle (h.lt_next hpending) .denied⟩
    have hescrow := h.escrow_settle hpending (by decide : AppealStatus.denied ≠ .pending)
    have hpaid := Ledger.transfer_src_le hpay
    change b.staked + (b.setSlash id ((b.slashes id).settle .denied)).escrow ≤ guard.balance this
    omega

end Sound

end Books

/-! ## Settlements in the books -/

theorem BookStep.slashes (hb : b.Sound this) (h : BookStep this minStake b op b') (i : ℕ) :
    b'.slashes i = b.slashes i ∨ (b.slashes i).status = .none ∨
      (b.slashes i).status = .pending ∧
        (op = .approve i ∧ b'.slashes i = (b.slashes i).settle .approved ∨
          ∃ treasury, op = .deny i treasury ∧ b'.slashes i = (b.slashes i).settle .denied) := by
  cases h with
  | slash =>
    rcases eq_or_ne i b.nextSlashId with rfl | hi
    · exact .inr (.inl (by rw [hb.unused _ le_rfl]; rfl))
    · exact .inl (Function.update_of_ne hi ..)
  | @approve id hpending =>
    rcases eq_or_ne i id with rfl | hi
    · exact .inr (.inr ⟨hpending, .inl ⟨rfl, Function.update_self ..⟩⟩)
    · exact .inl (Function.update_of_ne hi ..)
  | @deny id treasury guard hpending hpay =>
    rcases eq_or_ne i id with rfl | hi
    · exact .inr (.inr ⟨hpending, .inr ⟨treasury, rfl, Function.update_self ..⟩⟩)
    · exact .inl (Function.update_of_ne hi ..)
  | _ => exact .inl rfl

theorem BookSteps.settled (hb : b.Sound this) (h : BookSteps this minStake b ops b') {i : ℕ}
    (hnone : (b.slashes i).status ≠ .none) (hpending : (b.slashes i).status ≠ .pending) :
    b'.slashes i = b.slashes i := by
  refine (h.induct (P := fun c => c.Sound this ∧ c.slashes i = b.slashes i) ?_ ⟨hb, rfl⟩).2
  rintro c op c' ⟨hc, hsame⟩ hstep
  refine ⟨hc.step hstep, ?_⟩
  rw [← hsame] at hnone hpending
  rcases hstep.slashes hc i with h | h | ⟨h, -⟩
  · exact h.trans hsame
  · exact absurd h hnone
  · exact absurd h hpending

theorem BookSteps.pending (hb : b.Sound this) (h : BookSteps this minStake b ops b')
    (hops : ∀ op ∈ ops, ∀ i treasury, op ≠ .approve i ∧ op ≠ .deny i treasury) {i : ℕ}
    (hpending : (b.slashes i).status = .pending) : b'.slashes i = b.slashes i := by
  suffices hboth : b'.Sound this ∧ b'.slashes i = b.slashes i from hboth.2
  induction h with
  | nil => exact ⟨hb, rfl⟩
  | @snoc c d ops op hsteps hstep ih =>
    obtain ⟨hc, hsame⟩ := ih fun op hop => hops op (List.mem_append_left _ hop)
    refine ⟨hc.step hstep, ?_⟩
    have hop := hops op (List.mem_append_right _ (List.mem_singleton_self op)) i
    rcases hstep.slashes hc i with h | h | ⟨-, ⟨h, -⟩ | ⟨treasury, h, -⟩⟩
    · exact h.trans hsame
    · rw [hsame, hpending] at h
      cases h
    · exact absurd h (hop 0).1
    · exact absurd h (hop treasury).2

/-- The sum of `w` over the slashes that were pending in `b` and have the status `status` in `b'`. -/
def Books.settledSum (b b' : Books) (status : AppealStatus) (w : Slash → ℕ) : ℕ :=
  ∑ i ∈ Finset.range b.nextSlashId,
    if (b.slashes i).status = .pending ∧ (b'.slashes i).status = status then w (b.slashes i) else 0

/-- The books `b'` are `b` after some settlements: approved slashes went back to the stakes, and
denied ones to the treasury. -/
structure Settlement (this treasury : Address) (b b' : Books) : Prop where
  next : b'.nextSlashId = b.nextSlashId
  slashes : ∀ i, b'.slashes i = b.slashes i ∨ (b.slashes i).status = .pending ∧
    (b'.slashes i = (b.slashes i).settle .approved ∨ b'.slashes i = (b.slashes i).settle .denied)
  available : ∀ a, (b'.positions a).available = (b.positions a).available +
    b.settledSum b' .approved fun s => if s.agent = a then s.amount else 0
  locked : ∀ a, (b'.positions a).locked = (b.positions a).locked
  unbonding : ∀ a, (b'.positions a).unbonding = (b.positions a).unbonding
  guard : this ≠ treasury → b'.guard.balance =
    Ledger.moved b.guard.balance this treasury (b.settledSum b' .denied Slash.amount)

namespace Settlement

variable {treasury : Address} {c : Books} {id : ℕ}

theorem refl (b : Books) : Settlement this treasury b b := by
  have hnone : ∀ status ≠ .pending, ∀ w, b.settledSum b status w = 0 := by
    intro status hstatus w
    refine Finset.sum_eq_zero fun i _ => if_neg ?_
    rintro ⟨hpending, hsame⟩
    exact hstatus (hsame.symm.trans hpending)
  exact {
    next := rfl
    slashes := fun i => .inl rfl
    available := fun a => by rw [hnone _ (by decide), Nat.add_zero]
    locked := fun a => rfl
    unbonding := fun a => rfl
    guard := fun _ => by rw [hnone _ (by decide), Ledger.moved_zero] }

theorem of_pending (h : Settlement this treasury b c) (hpending : (c.slashes id).status = .pending) :
    c.slashes id = b.slashes id := by
  rcases h.slashes id with hsame | ⟨-, hsettled | hsettled⟩
  · exact hsame
  · rw [hsettled] at hpending
    cases hpending
  · rw [hsettled] at hpending
    cases hpending

theorem settledSum_settle (h : Settlement this treasury b c) (hid : id < b.nextSlashId)
    (hpending : (c.slashes id).status = .pending) (status status' : AppealStatus)
    (hstatus : status ≠ .pending) (w : Slash → ℕ) :
    b.settledSum (c.setSlash id ((c.slashes id).settle status')) status w =
      b.settledSum c status w + if status' = status then w (c.slashes id) else 0 := by
  have hsum := Sums.sum_update_of_mem (Finset.mem_range.mpr hid) c.slashes
    ((c.slashes id).settle status') fun i s =>
      if (b.slashes i).status = .pending ∧ s.status = status then w (b.slashes i) else 0
  rw [← h.of_pending hpending] at hsum
  have hbefore : ¬ ((c.slashes id).status = .pending ∧ (c.slashes id).status = status) := fun h =>
    hstatus (h.2.symm.trans h.1)
  rw [if_neg hbefore, Nat.add_zero] at hsum
  refine hsum.trans ?_
  simp only [hpending, Slash.settle, true_and]
  rfl

theorem slashes_settle (h : Settlement this treasury b c) (hpending : (c.slashes id).status = .pending)
    {status : AppealStatus} (hstatus : status = .approved ∨ status = .denied) (i : ℕ) :
    (c.setSlash id ((c.slashes id).settle status)).slashes i = b.slashes i ∨
      (b.slashes i).status = .pending ∧
        ((c.setSlash id ((c.slashes id).settle status)).slashes i = (b.slashes i).settle .approved ∨
          (c.setSlash id ((c.slashes id).settle status)).slashes i =
            (b.slashes i).settle .denied) := by
  rw [Books.setSlash_slashes]
  rcases eq_or_ne i id with rfl | hi
  · rw [Function.update_self, ← h.of_pending hpending]
    rcases hstatus with rfl | rfl
    · exact .inr ⟨hpending, .inl rfl⟩
    · exact .inr ⟨hpending, .inr rfl⟩
  · rw [Function.update_of_ne hi]
    exact h.slashes i

theorem approve (h : Settlement this treasury b c) (hid : id < b.nextSlashId)
    (hpending : (c.slashes id).status = .pending) :
    Settlement this treasury b (c.approve minStake id) where
  next := h.next
  slashes := h.slashes_settle hpending (.inl rfl)
  available a := by
    have hsum := h.settledSum_settle hid hpending .approved .approved (by decide)
      fun s => if s.agent = a then s.amount else 0
    rw [if_pos rfl] at hsum
    refine Eq.trans ?_ (congrArg _ hsum).symm
    rw [← Nat.add_assoc, ← h.available a]
    -- Only the agent of the slash gets it back.
    rcases eq_or_ne a (c.slashes id).agent with rfl | ha
    · simp [Books.approve, Position.restore]
    · simp [Books.approve, ha, ha.symm]
  locked a := by
    rw [← h.locked a]
    rcases eq_or_ne a (c.slashes id).agent with rfl | ha
    · simp [Books.approve, Position.restore]
    · simp [Books.approve, ha]
  unbonding a := by
    rw [← h.unbonding a]
    rcases eq_or_ne a (c.slashes id).agent with rfl | ha
    · simp [Books.approve, Position.restore]
    · simp [Books.approve, ha]
  guard hne := by
    have hsum := h.settledSum_settle hid hpending .denied .approved (by decide) Slash.amount
    rw [if_neg (by decide), Nat.add_zero] at hsum
    refine (h.guard hne).trans ?_
    rw [← hsum]
    rfl

theorem deny (h : Settlement this treasury b c) (hid : id < b.nextSlashId)
    (hpending : (c.slashes id).status = .pending) {guard : TokenLedger}
    (hpay : c.guard.transfer this treasury (c.slashes id).amount = some guard) :
    Settlement this treasury b (c.deny id guard) where
  next := h.next
  slashes := h.slashes_settle hpending (.inr rfl)
  available a := by
    have hsum := h.settledSum_settle hid hpending .approved .denied (by decide)
      fun s => if s.agent = a then s.amount else 0
    rw [if_neg (by decide), Nat.add_zero] at hsum
    refine (h.available a).trans ?_
    rw [← hsum]
    rfl
  locked := h.locked
  unbonding := h.unbonding
  guard hne := by
    have hsum := h.settledSum_settle hid hpending .denied .denied (by decide) Slash.amount
    rw [if_pos rfl] at hsum
    have hmoved := (Ledger.transfer_eq_some hpay).2
    rw [h.guard hne, Ledger.moved_moved _ hne, ← hsum] at hmoved
    exact hmoved

end Settlement

theorem BookSteps.settlement {treasury : Address} (hb : b.Sound this)
    (h : BookSteps this minStake b ops b')
    (hops : ∀ op ∈ ops, ∃ id, op = .approve id ∨ op = .deny id treasury) :
    Settlement this treasury b b' ∧ b'.Sound this := by
  induction h with
  | nil => exact ⟨.refl b, hb⟩
  | @snoc c d ops op hsteps hstep ih =>
    obtain ⟨hsettlement, hsound⟩ := ih fun op hop => hops op (List.mem_append_left _ hop)
    refine ⟨?_, hsound.step hstep⟩
    have hnext := hsettlement.next
    obtain ⟨id, rfl | rfl⟩ := hops op (List.mem_append_right _ (List.mem_singleton_self op))
    · cases hstep with
      | approve hpending => exact hsettlement.approve (hnext ▸ hsound.lt_next hpending) hpending
    · cases hstep with
      | deny hpending hpay => exact hsettlement.deny (hnext ▸ hsound.lt_next hpending) hpending hpay

/-! ## The contract -/

section Contract

variable {env : Env} {w w' : World} {l : Label}

theorem reachable_sound (hw : (system this).Reachable w) : w.books.Sound this := by
  refine hw.induct (I := fun w => w.books.Sound this) ?_ ?_
  · intro w h
    obtain ⟨deployer, guardToken, agentRegistry, treasury, hstate⟩ := h.state_eq
    rw [World.books, hstate]
    refine ⟨?_, fun _ _ => rfl⟩
    have hstaked : ((State.fresh deployer guardToken agentRegistry treasury).core.books
        w.guard).staked = 0 := Finset.sum_eq_zero fun _ _ => rfl
    rw [hstaked]
    exact Nat.zero_le _
  · intro w l w' hr hsound hstep
    rcases step_books hr hstep with ⟨ops, hops⟩ | ⟨guard, hle, hbooks⟩
    · exact hops.induct (fun _ _ _ h => h.step) hsound
    · rw [hbooks]
      exact ⟨hsound.solvent.trans hle, hsound.unused⟩

/-- The counters are the sums over the slash records, no record is above them, and the contract holds
what it owes. -/
structure World.InBalance (this : Address) (w : World) : Prop where
  escrow : w.state.slashEscrowBalance = ∑ i ∈ Finset.range w.state.nextSlashId,
    if (w.state.slashRecords i).appealStatus = .pending then (w.state.slashRecords i).slashedAmount
    else 0
  agentTotal : ∀ a, w.state.agentTotalSlashed a = ∑ i ∈ Finset.range w.state.nextSlashId,
    if (w.state.slashRecords i).agent = a ∧ (w.state.slashRecords i).appealStatus ≠ .approved then
      (w.state.slashRecords i).slashedAmount
    else 0
  allTime : w.state.totalSlashedAllTime = ∑ a, w.state.agentTotalSlashed a
  unused : ∀ i, w.state.nextSlashId ≤ i → w.state.slashRecords i = SlashRecord.zero
  solvent : ∑ a, (w.state.stakes a).totalStaked + w.state.slashEscrowBalance ≤
    w.guard.balance this

/-- The books are in balance in every reachable state. -/
theorem reachable_inBalance (hw : (system this).Reachable w) : w.InBalance this := by
  have hfaithful := reachable_faithful hw
  have hsound := reachable_sound hw
  exact {
    escrow := hfaithful.escrow
    agentTotal := fun a => by
      refine (hfaithful.agentTotal a).trans (Finset.sum_congr rfl fun i _ => ?_)
      rw [Slash.chargedTo, Slash.charged, ite_and, ite_not]
      rfl
    allTime := by
      have hcharged := hfaithful.allTime
      rw [Core.sumRecords, ← Finset.sum_congr rfl fun i _ => Slash.sum_chargedTo _,
        Finset.sum_comm] at hcharged
      exact hcharged.trans (Finset.sum_congr rfl fun a _ => (hfaithful.agentTotal a).symm)
    unused := hfaithful.unused
    solvent := by
      have hsolvent := hsound.solvent
      rw [show w.books.escrow = w.state.slashEscrowBalance from hfaithful.escrow.symm] at hsolvent
      refine le_trans (Nat.add_le_add_right (Finset.sum_le_sum fun a _ => ?_) _) hsolvent
      exact (hfaithful.split a).le }

/-- The calls that settle slashes. -/
def Label.settles : Label → Bool
  | .call _ (.resolveAppeal _ _) => true
  | .call _ .finalizeExpiredAppeals => true
  | _ => false

/-- The sum of `f` over the slash records that are pending in `w` and have the status `status` in
`w'`. -/
def World.settled (w w' : World) (status : AppealStatus) (f : SlashRecord → ℕ) : ℕ :=
  ∑ i ∈ Finset.range w.state.nextSlashId,
    if (w.state.slashRecords i).appealStatus = .pending ∧
      (w'.state.slashRecords i).appealStatus = status then f (w.state.slashRecords i) else 0

/-- The step from `w` to `w'` settles slashes as it should. A pending record keeps its agent and its
amount, and stays pending except for a step that settles, which makes it APPROVED or DENIED. Such a step
returns to each agent exactly the amounts of its records that it approved, and pays to the treasury
exactly the amounts of the records that it denied. -/
structure Settles (this : Address) (w : World) (l : Label) (w' : World) : Prop where
  record : ∀ i, (w.state.slashRecords i).appealStatus = .pending →
    (w'.state.slashRecords i).agent = (w.state.slashRecords i).agent ∧
    (w'.state.slashRecords i).slashedAmount = (w.state.slashRecords i).slashedAmount ∧
    ((w'.state.slashRecords i).appealStatus = .pending ∨ l.settles = true ∧
      ((w'.state.slashRecords i).appealStatus = .approved ∨
        (w'.state.slashRecords i).appealStatus = .denied))
  restored : l.settles = true → ∀ a,
    (w'.state.stakes a).totalStaked = (w.state.stakes a).totalStaked +
      w.settled w' .approved (fun r => if r.agent = a then r.slashedAmount else 0) ∧
    (w'.state.stakes a).availableStake = (w.state.stakes a).availableStake +
      w.settled w' .approved (fun r => if r.agent = a then r.slashedAmount else 0)
  paid : l.settles = true → w.state.treasury ≠ this → w'.guard.balance =
    Ledger.moved w.guard.balance this w.state.treasury
      (w.settled w' .denied SlashRecord.slashedAmount)

theorem Call.Does.settlements {c : Call} (h : c.Does env w ops)
    (hc : (Label.call env c).settles = true) :
    ∀ op ∈ ops, ∃ id, op = .approve id ∨ op = .deny id w.state.treasury := by
  cases c with
  | resolveAppeal slashId approved =>
    cases approved with
    | true =>
      rw [Call.Does] at h
      simp [h]
    | false =>
      rw [Call.Does] at h
      simp [h]
  | finalizeExpiredAppeals =>
    obtain ⟨ids, rfl⟩ := h
    simp
  | _ => cases hc

theorem Call.Does.no_settlement {c : Call} (h : c.Does env w ops)
    (hc : (Label.call env c).settles = false) :
    ∀ op ∈ ops, ∀ i treasury, op ≠ .approve i ∧ op ≠ .deny i treasury := by
  cases c with
  | resolveAppeal | finalizeExpiredAppeals => cases hc
  | _ =>
    rw [Call.Does] at h
    simp [h]

theorem record_of_slash_eq {i : ℕ}
    (h : (w'.state.slashRecords i).slash = (w.state.slashRecords i).slash) :
    (w'.state.slashRecords i).agent = (w.state.slashRecords i).agent ∧
      (w'.state.slashRecords i).slashedAmount = (w.state.slashRecords i).slashedAmount ∧
      (w'.state.slashRecords i).appealStatus = (w.state.slashRecords i).appealStatus :=
  ⟨congrArg Slash.agent h, congrArg Slash.amount h, congrArg Slash.status h⟩

/-- Every step from a reachable state settles slashes as it should. -/
theorem step_settles (hw : (system this).Reachable w) (h : Step this w l w') :
    Settles this w l w' := by
  have hfaithful := reachable_faithful hw
  have hfaithful' := reachable_faithful (Reachable.step hw h)
  have hsound := reachable_sound hw
  cases h with
  | elsewhere =>
    exact ⟨fun i hpending => ⟨rfl, rfl, .inl hpending⟩, nofun, nofun⟩
  | @call env c _ _ hs h0 h =>
    obtain ⟨ops, hdoes, hrefines⟩ := exec_ok hfaithful hs h0 h
    -- Only two kinds of calls settle slashes; the others leave every pending one pending.
    rcases hsettles : (Label.call env c).settles with _ | _
    · refine ⟨fun i hpending => ?_, fun h => ?_, fun h => ?_⟩
      · have hsame := hrefines.books.pending hsound (hdoes.no_settlement hsettles) hpending
        obtain ⟨hagent, hamount, hstatus⟩ := record_of_slash_eq hsame
        exact ⟨hagent, hamount, .inl (hstatus.trans hpending)⟩
      · rw [hsettles] at h
        cases h
      · rw [hsettles] at h
        cases h
    · have hsettlement := (hrefines.books.settlement hsound (hdoes.settlements hsettles)).1
      refine ⟨fun i hpending => ?_, fun _ a => ?_, fun _ hne => hsettlement.guard hne.symm⟩
      · rcases hsettlement.slashes i with hsame | ⟨-, hsettled⟩
        · obtain ⟨hagent, hamount, hstatus⟩ := record_of_slash_eq hsame
          exact ⟨hagent, hamount, .inl (hstatus.trans hpending)⟩
        · have hagent : (w'.books.slashes i).agent = (w.books.slashes i).agent := by
            rcases hsettled with h | h <;> rw [h] <;> rfl
          have hamount : (w'.books.slashes i).amount = (w.books.slashes i).amount := by
            rcases hsettled with h | h <;> rw [h] <;> rfl
          refine ⟨hagent, hamount, .inr ⟨hsettles, ?_⟩⟩
          exact hsettled.imp (congrArg Slash.status) (congrArg Slash.status)
      · have havailable := hsettlement.available a
        refine ⟨?_, havailable⟩
        have hlocked := hsettlement.locked a
        have hunbonding := hsettlement.unbonding a
        have hbefore : (w.state.stakes a).totalStaked = (w.books.positions a).total :=
          hfaithful.split a
        have hafter : (w'.state.stakes a).totalStaked = (w'.books.positions a).total :=
          hfaithful'.split a
        rw [hafter, hbefore, Position.total, havailable, hlocked, hunbonding, Position.total]
        change _ = _ + w.books.settledSum w'.books .approved fun s =>
          if s.agent = a then s.amount else 0
        omega

theorem step_settled (hw : (system this).Reachable w) (h : Step this w l w') {i : ℕ}
    (hsettled : (w.state.slashRecords i).appealStatus = .approved ∨
      (w.state.slashRecords i).appealStatus = .denied) :
    (w'.state.slashRecords i).appealStatus = .approved ∨
      (w'.state.slashRecords i).appealStatus = .denied := by
  rcases step_books hw h with ⟨ops, hops⟩ | ⟨guard, -, hbooks⟩
  · have hsame := hops.settled (reachable_sound hw) (i := i) ?_ ?_
    · have hstatus := (record_of_slash_eq hsame).2.2
      rwa [hstatus]
    · rcases hsettled with h | h <;> exact fun hnone => nomatch h.symm.trans hnone
    · rcases hsettled with h | h <;> exact fun hpending => nomatch h.symm.trans hpending
  · have hsame := congrFun (congrArg Books.slashes hbooks) i
    have hstatus := (record_of_slash_eq hsame).2.2
    rwa [hstatus]

/-- In every run the state that it ends in is in balance, each slash record has left PENDING at most
once, and each step has settled slashes as it should. -/
theorem slashes_settle_once {ts : List (Transition World Label)} (hr : (system this).Run ts w) :
    w.InBalance this ∧
    (∀ i, ts.countP (fun tr => (tr.src.state.slashRecords i).appealStatus = .pending ∧
      ¬ (tr.dst.state.slashRecords i).appealStatus = .pending) ≤ 1) ∧
    ∀ tr ∈ ts, Settles this tr.src tr.label tr.dst := by
  refine ⟨reachable_inBalance hr.reachable, fun i => ?_, fun tr htr => ?_⟩
  · refine Run.leaves_le_one (fun w => (w.state.slashRecords i).appealStatus = .pending)
      (fun w => (w.state.slashRecords i).appealStatus = .approved ∨
        (w.state.slashRecords i).appealStatus = .denied) ?_ ?_ ?_ hr
    · intro w l w' hw h hpending hleft
      exact (((step_settles hw h).record i hpending).2.2.resolve_left hleft).2
    · exact fun w l w' hw h => step_settled hw h
    · rintro w (h | h) hpending <;> exact nomatch h.symm.trans hpending
  · obtain ⟨hreachable, hstep⟩ := hr.step_of_mem tr htr
    exact step_settles hreachable hstep

/-- A slash that was appealed and approved, and one that expired. -/
def settledCalls : List (Env × Call) :=
  slasherCalls ++ [
    (sampleEnv 2 0, .stake (1000 * 10^8)),
    (sampleEnv 5 1, .initiateSlash 2 0 0 .falsePositive 0),
    (sampleEnv 5 2, .initiateSlash 2 0 0 .falseNegative 0),
    (sampleEnv 2 3, .fileAppeal 1 "the finding was right"),
    (sampleEnv 9 4, .resolveAppeal 1 true),
    (sampleEnv 6 50000, .finalizeExpiredAppeals)]

/-- A run with one slash of each outcome. -/
theorem slashes_settle_once_sample : ∃ ts w, (system 1).Run ts w ∧
    (w.state.slashRecords 1).appealStatus = .approved ∧
    (w.state.slashRecords 2).appealStatus = .denied ∧ w.guard.balance 8 = 95 * 10^8 ∧
    w.InBalance 1 ∧ ∀ tr ∈ ts, Settles 1 tr.src tr.label tr.dst := by
  obtain ⟨w, hcalls, hw⟩ := sample_reachable
    (show ∀ call ∈ settledCalls, call.1.sender ≠ 1 ∧ call.1.sender ≠ 0 by decide) rfl
  obtain ⟨ts, hrun⟩ := hw.exists_run
  obtain ⟨hbalance, -, hsettles⟩ := slashes_settle_once hrun
  exact ⟨ts, w, hrun, sample_read (fun w => (w.state.slashRecords 1).appealStatus) hcalls rfl,
    sample_read (fun w => (w.state.slashRecords 2).appealStatus) hcalls rfl,
    sample_read (fun w => w.guard.balance 8) hcalls rfl, hbalance, hsettles⟩

end Contract

end

section

open Evm TransitionSystem

variable {this : Address} {w : World}

theorem totalStaked_le_balance (hw : (system this).Reachable w) (agent : Address) :
    (w.state.stakes agent).totalStaked ≤ w.guard.balance this := by
  have hsolvent := (reachable_inBalance hw).solvent
  have hle : (w.state.stakes agent).totalStaked ≤ ∑ a, (w.state.stakes a).totalStaked :=
    Finset.single_le_sum_of_canonicallyOrdered (f := fun a => (w.state.stakes a).totalStaked)
      (Finset.mem_univ agent)
  omega

theorem totalStaked_lt (hw : (system this).Reachable w) (agent : Address) :
    (w.state.stakes agent).totalStaked < 2^63 :=
  lt_of_le_of_lt (totalStaked_le_balance hw agent) (w.guard.balance_lt this)

/-- What `_deductSlash` returns on a stake that is split: the exact share, taken from the pools in
order, with nothing left over. -/
structure ExactSlash (info : StakeInfo) (bps : ℕ) (x : ℕ) (info' : StakeInfo) : Prop where
  amount : x = info.totalStaked * bps / 10000
  total : info'.totalStaked + x = info.totalStaked
  pools : info'.availableStake + info'.lockedStake + info'.unbondingAmount + x =
    info.availableStake + info.lockedStake + info.unbondingAmount
  pools_le : info'.availableStake ≤ info.availableStake ∧ info'.lockedStake ≤ info.lockedStake ∧
    info'.unbondingAmount ≤ info.unbondingAmount
  locked : info'.lockedStake < info.lockedStake → info'.availableStake = 0
  unbonding : info'.unbondingAmount < info.unbondingAmount →
    info'.availableStake = 0 ∧ info'.lockedStake = 0

theorem exactSlash_charged {info : StakeInfo} (hsplit : info.Split) {bps : ℕ} (hbps : bps ≤ 10000) :
    ExactSlash info bps (info.totalStaked * bps / 10000)
      (info.charged (info.totalStaked * bps / 10000)) := by
  have hle := share_le hbps info.totalStaked
  generalize hx : info.totalStaked * bps / 10000 = x at hle
  have htotal : (info.position.charge x).total + x = info.position.total :=
    Position.total_charge (hsplit ▸ hle)
  exact {
    amount := hx.symm
    total := Nat.sub_add_cancel hle
    pools := htotal
    pools_le := ⟨Nat.sub_le .., Nat.sub_le .., Nat.sub_le ..⟩
    locked := Position.available_of_charge_locked (p := info.position)
    unbonding := Position.others_of_charge_unbonding (p := info.position) }

/-- In every reachable state every stake is split into its three pools, every slash rate is at most
100%, and a slash of at most 100% takes exactly its share, from the pools in order. -/
theorem stake_partition (hw : (system this).Reachable w) (agent : Address) :
    (w.state.stakes agent).totalStaked = (w.state.stakes agent).availableStake +
      (w.state.stakes agent).lockedStake + (w.state.stakes agent).unbondingAmount ∧
    (∀ reason, w.state.slashRates reason ≤ 10000) ∧
    ∀ bps ≤ 10000, ∃ x info', deductSlash (w.state.stakes agent) bps = .ok (x, info') ∧
      ExactSlash (w.state.stakes agent) bps x info' := by
  have hfaithful := reachable_faithful hw
  refine ⟨hfaithful.split agent, hfaithful.rates_le, fun bps hbps => ?_⟩
  have hfits : (w.state.stakes agent).totalStaked * bps < 2^256 := by
    calc (w.state.stakes agent).totalStaked * bps ≤ 2^63 * 10000 :=
          Nat.mul_le_mul (totalStaked_lt hw agent).le hbps
      _ < 2^256 := by norm_num
  exact ⟨_, _, deductSlash_eq hbps hfits, exactSlash_charged (hfaithful.split agent) hbps⟩

/-- A stake of 1000 GUARD of which 300 are locked and 600 unbond. -/
def splitCalls : List (Env × Call) :=
  slasherCalls ++ [
    (sampleEnv 2 0, .stake (1000 * 10^8)),
    (sampleEnv 5 1, .lockStake 2 (300 * 10^8) 4),
    (sampleEnv 2 2, .requestUnstake (600 * 10^8))]

/-- A slash of 50% exhausts the 100 GUARD available and the 300 locked before it takes 100 of the
unbonding. -/
theorem stake_partition_sample : ∃ w, (system 1).Reachable w ∧
    (w.state.stakes 2).availableStake = 100 * 10^8 ∧ (w.state.stakes 2).lockedStake = 300 * 10^8 ∧
    ∃ info', deductSlash (w.state.stakes 2) 5000 = .ok (500 * 10^8, info') ∧
      ExactSlash (w.state.stakes 2) 5000 (500 * 10^8) info' := by
  obtain ⟨w, hcalls, hw⟩ := sample_reachable
    (show ∀ call ∈ splitCalls, call.1.sender ≠ 1 ∧ call.1.sender ≠ 0 by decide) rfl
  obtain ⟨x, info', hdeduct, hexact⟩ := (stake_partition hw 2).2.2 5000 (by norm_num)
  have htotal := sample_read (fun w => (w.state.stakes 2).totalStaked) hcalls (a := 1000 * 10^8) rfl
  obtain rfl : x = 500 * 10^8 := by
    rw [hexact.amount, htotal]
    norm_num
  exact ⟨w, hw, sample_read (fun w => (w.state.stakes 2).availableStake) hcalls rfl,
    sample_read (fun w => (w.state.stakes 2).lockedStake) hcalls rfl, info', hdeduct, hexact⟩

/-! ## What is pending -/

/-- `getPendingAppeals`. -/
def getPendingAppeals (s : State) : Option (List ℕ) :=
  Counted.collectIds (fun i => (s.slashRecords i).appealStatus = .pending) s.nextSlashId

theorem BookStep.first {minStake : ℕ} {b b' : Books} {op : BookOp} (h : BookStep this minStake b op b')
    (hfirst : 0 < b.nextSlashId ∧ (b.slashes 0).status = .none) :
    0 < b'.nextSlashId ∧ (b'.slashes 0).status = .none := by
  obtain ⟨hnext, hnone⟩ := hfirst
  cases h with
  | slash => exact ⟨Nat.succ_pos _, (congrArg Slash.status (Function.update_of_ne hnext.ne ..)).trans hnone⟩
  | @approve id hpending | @deny id _ _ hpending =>
    have hid : 0 ≠ id := by
      rintro rfl
      exact nomatch hnone.symm.trans hpending
    exact ⟨hnext, (congrArg Slash.status (Function.update_of_ne hid ..)).trans hnone⟩
  | _ => exact ⟨hnext, hnone⟩

theorem reachable_first (hw : (system this).Reachable w) : (w.state.slashRecords 0).appealStatus = .none := by
  refine (Reachable.induct (I := fun w => 0 < w.books.nextSlashId ∧ (w.books.slashes 0).status = .none)
    ?_ ?_ hw).2
  · intro w h
    obtain ⟨deployer, guardToken, agentRegistry, treasury, hstate⟩ := h.state_eq
    rw [World.books, hstate]
    exact ⟨Nat.one_pos, rfl⟩
  · intro w l w' hr hfirst hstep
    rcases step_books hr hstep with ⟨ops, hops⟩ | ⟨guard, -, hbooks⟩
    · exact hops.induct (P := fun b => 0 < b.nextSlashId ∧ (b.slashes 0).status = .none)
        (fun _ _ _ h hstep => hstep.first h) hfirst
    · rw [hbooks]
      exact hfirst

/-- In every reachable state the view of the pending appeals does not revert. It returns the ids of exactly the
records that are pending, in ascending order, and what these have taken is the escrow. -/
theorem getPendingAppeals_exact (hw : (system this).Reachable w) : ∃ slashIds,
    getPendingAppeals w.state = some slashIds ∧ slashIds.Pairwise (· < ·) ∧
    (∀ slashId, slashId ∈ slashIds ↔ (w.state.slashRecords slashId).appealStatus = .pending) ∧
    (slashIds.map fun slashId => (w.state.slashRecords slashId).slashedAmount).sum = w.state.slashEscrowBalance := by
  have hbalance := reachable_inBalance hw
  obtain ⟨slashIds, hcollect, hsorted, hids⟩ := Counted.exists_collectIds
    (fun i => (w.state.slashRecords i).appealStatus = .pending) w.state.nextSlashId
  have hlt : ∀ i, (w.state.slashRecords i).appealStatus = .pending → i < w.state.nextSlashId := by
    intro i hpending
    by_contra hge
    rw [hbalance.unused i (Nat.le_of_not_lt hge)] at hpending
    cases hpending
  have hmem : ∀ i, i ∈ slashIds ↔ (w.state.slashRecords i).appealStatus = .pending := by
    intro i
    rw [hids, decide_eq_true_eq]
    refine ⟨fun h => h.2.2, fun hpending => ⟨Nat.pos_of_ne_zero ?_, hlt i hpending, hpending⟩⟩
    rintro rfl
    exact nomatch (reachable_first hw).symm.trans hpending
  refine ⟨slashIds, hcollect, hsorted, hmem, ?_⟩
  rw [← List.sum_toFinset _ (hsorted.imp ne_of_lt), hbalance.escrow, ← Finset.sum_filter]
  refine Finset.sum_congr (Finset.ext fun i => ?_) fun _ _ => rfl
  rw [List.mem_toFinset, hmem, Finset.mem_filter, Finset.mem_range]
  exact ⟨fun hpending => ⟨hlt i hpending, hpending⟩, And.right⟩

/-- Two slashes are pending, and the agent's escrow is theirs. -/
theorem getPendingAppeals_exact_sample : ∃ w, (system 1).Reachable w ∧ getPendingAppeals w.state = some [1, 2] ∧
    ([1, 2].map fun slashId => (w.state.slashRecords slashId).slashedAmount).sum = w.state.slashEscrowBalance := by
  obtain ⟨w, hcalls, hw⟩ := sample_reachable
    (show ∀ call ∈ settledCalls.take 4, call.1.sender ≠ 1 ∧ call.1.sender ≠ 0 by decide) rfl
  obtain ⟨slashIds, hids, -, -, hsum⟩ := getPendingAppeals_exact hw
  have hread := sample_read (fun w => getPendingAppeals w.state) hcalls (a := some [1, 2]) rfl
  obtain rfl := Option.some.inj (hids.symm.trans hread)
  exact ⟨w, hw, hread, hsum⟩

end

end AuditGuard.StakingManager
