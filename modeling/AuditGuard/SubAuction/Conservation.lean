import AuditGuard.SubAuction.Effects

/-!
# SubAuction: what comes in goes out

The contract holds exactly what it owes: the payments of the sub-jobs that are not settled, and the
collateral of all bids. There is one exception. Its owner may make the contract its own treasury, and then
what is slashed stays in its account, where nobody is owed it.
-/

namespace AuditGuard.SubAuction

open Evm TransitionSystem

/-- The payments of the sub-jobs that are not settled, and the collateral of all bids. -/
def State.owed (s : State) : ℕ :=
  ∑ id ∈ Finset.range s.nextSubJobId,
    ((if (s.subJobs id).status.Ended then 0 else (s.subJobs id).paymentAmount) +
      ((s.subBids id).map SubBid.collateralLocked).sum)

/-- The transfers made for a sub-job. -/
def State.transfersOf (s : State) (id : ℕ) : List Transfer :=
  s.transfers.filter fun t => t.subJobId = id

/-- Exactly one bid of the sub-job is accepted. It is the selected agent's, `_findSelectedBidIndex` finds it,
and its price is the payment. -/
def HasContractor (s : State) (id : ℕ) : Prop :=
  ∃ i b, findSelectedBidIndex (s.subBids id) (s.subJobs id).selectedAgent = (true, i) ∧
    (s.subBids id)[i]? = some b ∧ b.status = .accepted ∧ b.agent = (s.subJobs id).selectedAgent ∧
    b.proposedPrice = (s.subJobs id).paymentAmount ∧
    ∀ j c, (s.subBids id)[j]? = some c → c.status = .accepted → j = i

/-- No collateral is left, and what was paid in for the sub-job was paid out. -/
def PaidOut (this : Address) (s : State) (id : ℕ) : Prop :=
  (∀ b ∈ s.subBids id, b.collateralLocked = 0) ∧
    paidOut this (s.transfersOf id) = paidIn this (s.transfersOf id)

/-- The transfer is between the contract and a party to its sub-job: the requester, a bidder, or as the
recipient the treasury. The contract pays itself only as its own treasury. -/
def BetweenParties (this treasury : Address) (s : State) (t : Transfer) : Prop :=
  t.Proper this treasury (s.subJobs t.subJobId).requester (s.subBids t.subJobId) ∧
    (t.src = this → t.dst = this → treasury = this)

variable {this : Address} {w w' : World State} {l : Label Env Call}

theorem findSelectedBidIndex_of_mem {bids : List SubBid} (hnodup : (bids.map SubBid.agent).Nodup)
    {i : ℕ} {b : SubBid} (hi : bids[i]? = some b) : findSelectedBidIndex bids b.agent = (true, i) := by
  unfold findSelectedBidIndex
  cases hfind : bids.findIdx? (·.agent = b.agent) with
  | none =>
    rw [List.findIdx?_eq_none_iff] at hfind
    have hnot := hfind b (List.mem_of_getElem? hi)
    simp at hnot
  | some j =>
    rw [List.findIdx?_eq_some_iff_getElem] at hfind
    obtain ⟨hlt, hagent, -⟩ := hfind
    have hagent := of_decide_eq_true hagent
    rw [Keyed.index_unique hnodup (List.getElem?_eq_getElem hlt) hi hagent]

theorem hasContractor_of_sound (hb : (books w).Sound this) {id : ℕ}
    (hbusy : (w.state.subJobs id).status.Busy) : HasContractor w.state id := by
  have hsound := hb.files id
  obtain ⟨b, hmem, haccepted, hagent, hprice, hothers⟩ := hsound.busy hbusy
  obtain ⟨i, hi⟩ := List.mem_iff_getElem?.mp hmem
  refine ⟨i, b, ?_, hi, haccepted, hagent, hprice, ?_⟩
  · have hfound := findSelectedBidIndex_of_mem hsound.nodup hi
    rwa [hagent] at hfound
  · intro j c hj hc
    by_contra hne
    have hother : c.agent ≠ b.agent := fun heq => hne (Keyed.index_unique hsound.nodup hj hi heq)
    have hrefunded := (hothers c (List.mem_of_getElem? hj) hother).1
    rw [hc] at hrefunded
    cases hrefunded

theorem paidOut_of_sound (hb : (books w).Sound this) {id : ℕ}
    (hended : (w.state.subJobs id).status.Ended) : PaidOut this w.state id := by
  have hsound := hb.files id
  refine ⟨hsound.ended hended, ?_⟩
  have hnothing : ((books w).files id).owed = 0 := by
    have hcollateral := hsound.collateral_ended hended
    unfold SubJobFile.owed
    rw [if_pos (show ((books w).files id).status.Ended from hended), hcollateral]
  have hconserved := hb.conserved id
  rw [hnothing, Nat.add_zero] at hconserved
  exact hconserved

theorem self_treasury {treasury requester : Address} {bids : List SubBid} {t : Transfer}
    (h : t.Proper this treasury requester bids) (hrequester : requester ≠ this)
    (hothers : ∀ b ∈ bids, b.agent ≠ this) (hsrc : t.src = this) (hdst : t.dst = this) :
    treasury = this := by
  rcases h with ⟨-, heq | ⟨b, hb, heq⟩ | heq⟩ | ⟨-, hne, -⟩
  · exact absurd (heq.symm.trans hdst) hrequester
  · exact absurd (heq.trans hdst) (hothers b hb)
  · exact heq.symm.trans hdst
  · exact absurd hsrc hne

theorem BookStep.between {b b' : Books} {bookOp : BookOp} (hb : b.Sound this)
    (h : BookStep this b bookOp b') : ∃ new, b'.transfers = b.transfers ++ new ∧ ∀ t ∈ new,
      t.Proper this b.treasury (b'.files t.subJobId).requester (b'.files t.subJobId).bids ∧
        (t.src = this → t.dst = this → b.treasury = this) := by
  cases h with
  | configure => exact ⟨[], (List.append_nil _).symm, by simp⟩
  | @job id next op f token hid hstep hpay =>
    refine ⟨_, rfl, fun t ht => ?_⟩
    have hproper := hstep.proper (hb.files id) t ht
    have hsound := (hb.files id).step hstep
    rw [(mem_transfers ht).1]
    dsimp only
    rw [Function.update_self]
    exact ⟨hproper, self_treasury hproper (hsound.requester hstep.posted) hsound.others⟩

theorem Step.between (hb : (books w).Sound this) (hstep : (contract this).Step w l w') :
    ∃ new, w'.state.transfers = w.state.transfers ++ new ∧
      ∀ t ∈ new, BetweenParties this w.state.treasury w'.state t := by
  cases hstep with
  | @call env c w w' hs h0 ht h =>
    rcases exec_ok hb hs h with ⟨op, -, hstep⟩ | ⟨-, hsame⟩
    · exact hstep.between hb
    · have hkept : (books w').transfers = (books w).transfers := congrArg Books.transfers hsame
      exact ⟨[], hkept.trans (List.append_nil _).symm, by simp⟩
  | elsewhere _ _ => exact ⟨[], (List.append_nil _).symm, by simp⟩

theorem closed_balance (hw : (contract this).closed.Reachable w) :
    w.token.balance this = w.state.owed + selfPaid this w.state.transfers := by
  refine hw.induct (I := fun w => w.token.balance this =
    w.state.owed + selfPaid this w.state.transfers) ?_ ?_
  · rintro w ⟨hfresh, hzero⟩
    obtain ⟨deployer, guardToken, agentRegistry, mainAuction, treasury, hstate⟩ :=
      fresh_state_eq (show (contract this).fresh w.state from hfresh)
    have hnone : w.state.owed + selfPaid this w.state.transfers = 0 := by
      rw [hstate]
      rfl
    rw [hnone]
    exact hzero
  · rintro w l w' hw hbalance ⟨hstep, helsewhere⟩
    have hb := reachable_sound (Contract.reachable_of_closed hw)
    cases hstep with
    | @call env c w w' hs h0 ht h =>
      -- The balance moves with what is owed, or nothing moves.
      rcases exec_ok hb hs h with ⟨op, -, hstep⟩ | ⟨-, hsame⟩
      · have hmoved := hstep.balance hb
        change w'.token.balance this + (w.state.owed + selfPaid this w.state.transfers) =
          w.token.balance this + (w'.state.owed + selfPaid this w'.state.transfers) at hmoved
        change w'.token.balance this = w'.state.owed + selfPaid this w'.state.transfers
        omega
      · have hkept : (books w').token.balance this = (books w').owed +
            selfPaid this (books w').transfers := by
          rw [hsame]
          exact hbalance
        exact hkept
    | @elsewhere w token now _ _ => exact (helsewhere token now rfl).trans hbalance

/-- Whatever calls the contract takes, it holds exactly what it owes and what it paid to itself as its own
treasury; while an agent is at work, its bid is the one that is accepted, at the price that is owed; of a
settled sub-job nothing is left, and everything that came in went out; and every transfer was between the
contract and a party to its sub-job. -/
theorem escrow_conserved {ts : List (Transition (World State) (Label Env Call))}
    (hr : (contract this).closed.Run ts w) :
    w.token.balance this = w.state.owed + selfPaid this w.state.transfers ∧
    (∀ id, (w.state.subJobs id).status.Busy → HasContractor w.state id) ∧
    (∀ id, (w.state.subJobs id).status.Ended → PaidOut this w.state id) ∧
    ∀ tr ∈ ts, ∃ new, tr.dst.state.transfers = tr.src.state.transfers ++ new ∧
      ∀ t ∈ new, BetweenParties this tr.src.state.treasury tr.dst.state t := by
  have hb := reachable_sound (Contract.reachable_of_closed hr.reachable)
  refine ⟨closed_balance hr.reachable, fun id hbusy => hasContractor_of_sound hb hbusy,
    fun id hended => paidOut_of_sound hb hended, fun tr htr => ?_⟩
  obtain ⟨hsrc, hstep⟩ := hr.step_of_mem tr htr
  exact Step.between (reachable_sound (Contract.reachable_of_closed hsrc)) hstep.1

/-- The calls on a sub-job whose result is delivered and accepted. -/
def acceptedCalls : List (Env × Call) :=
  [(sampleEnv 2 0, .createSubAuction 1 "fuzz the parser" "fuzzing" (100 * 10^8) 60 120),
    (sampleEnv 3 1, .submitSubBid 1 (80 * 10^8) 30 (40 * 10^8)),
    (sampleEnv 2 2, .selectSubContractor 1 0),
    (sampleEnv 3 3, .deliverResult 1 7),
    (sampleEnv 2 4, .acceptResult 1)]

/-- The conservation on a run in which a result is accepted. -/
theorem escrow_conserved_accepted : ∃ ts w, (contract 1).closed.Run ts w ∧
    w.token.balance 1 = w.state.owed + selfPaid 1 w.state.transfers ∧
    PaidOut 1 w.state 1 ∧ (w.state.subJobs 1).status = .accepted := by
  obtain ⟨ts, w, hcalls, hr⟩ := closed_sample_run acceptedCalls (by decide) rfl
  have hstatus := read_ok hcalls (fun w => (w.state.subJobs 1).status) (b := .accepted) rfl
  obtain ⟨hbalance, -, hended, -⟩ := escrow_conserved hr
  exact ⟨ts, w, hr, hbalance, hended 1 (.inl hstatus), hstatus⟩

/-! ## The contract as its own treasury -/

/-- The calls on a sub-job that expires after the owner made the contract its own treasury. -/
def selfTreasuryCalls : List (Env × Call) :=
  [(sampleEnv 9 0, .setTreasury 1),
    (sampleEnv 2 0, .createSubAuction 1 "fuzz the parser" "fuzzing" (100 * 10^8) 60 120),
    (sampleEnv 3 1, .submitSubBid 1 (80 * 10^8) 30 (40 * 10^8)),
    (sampleEnv 2 2, .selectSubContractor 1 0),
    (sampleEnv 9 61, .claimExpired 1)]

/-- A quarter of the collateral stays in the contract's account, although it owes nothing any more. -/
theorem slashed_stays_in_contract : ∃ w, (contract 1).closed.Reachable w ∧ w.state.owed = 0 ∧
    w.token.balance 1 = 10 * 10^8 ∧ w.token.balance 1 ≠ w.state.owed := by
  obtain ⟨ts, w, hcalls, hr⟩ := closed_sample_run selfTreasuryCalls (by decide) rfl
  have howed := read_ok hcalls (fun w => w.state.owed) (b := 0) (by decide +kernel)
  have hbalance := read_ok hcalls (fun w => w.token.balance 1) (b := 10 * 10^8) (by decide +kernel)
  refine ⟨w, hr.reachable, howed, hbalance, ?_⟩
  rw [howed, hbalance]
  norm_num

end AuditGuard.SubAuction
