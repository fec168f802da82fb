import AuditGuard.SubAuction.SubJobs

/-!
# SubAuction: the books

All sub-jobs together, with the ledger of the GUARD token and the list of the transfers made. Every step in
the life of a sub-job makes its transfers, and moves what is owed for the sub-job by what they bring in and
take out.
-/

namespace AuditGuard.SubAuction

open Evm

/-! ## Transfers -/

/-- A transfer out of the contract for a sub-job, unless the amount is zero. -/
def payout (this : Address) (id : ℕ) (recipient : Address) (amount : ℕ) : List Transfer :=
  if 0 < amount then [⟨id, this, recipient, amount⟩] else []

/-- Transfers out of the contract for a sub-job. -/
def payouts (this : Address) (id : ℕ) (payments : List (Address × ℕ)) : List Transfer :=
  payments.flatMap fun payment => payout this id payment.1 payment.2

/-- A transfer as the ledger takes it. -/
def Transfer.move (t : Transfer) : Address × Address × ℕ := (t.src, t.dst, t.amount)

/-- What transfers take out of the contract. -/
def paidOut (this : Address) (transfers : List Transfer) : ℕ :=
  (transfers.map fun t => if t.src = this then t.amount else 0).sum

/-- What transfers bring in from others. -/
def paidIn (this : Address) (transfers : List Transfer) : ℕ :=
  (transfers.map fun t => if t.src = this then 0 else t.amount).sum

/-- What the contract paid to itself. -/
def selfPaid (this : Address) (transfers : List Transfer) : ℕ :=
  (transfers.map fun t => if t.src = this ∧ t.dst = this then t.amount else 0).sum

/-- The payments of a step in the life of the sub-job. -/
def SubOp.payments (treasury : Address) (f : SubJobFile) : SubOp → List (Address × ℕ)
  | .create _ _ _ => []
  | .bid _ => []
  | .select i b =>
    demotions (· = i) (f.bids.set i { b with status := .accepted }) ++
      [(f.requester, f.payment - b.proposedPrice)]
  | .deliver => []
  | .dispute => []
  | .pay b => [(f.selected, b.proposedPrice), (f.selected, b.collateralLocked)]
  | .slash b percent _ => [(f.requester, b.proposedPrice),
    (treasury, b.collateralLocked * percent / 100),
    (f.selected, b.collateralLocked - b.collateralLocked * percent / 100)]
  | .cancel => f.bids.map (fun b => (b.agent, b.refunded)) ++ [(f.requester, f.payment)]

/-- The transfers of a step in the life of the sub-job `id`. -/
def SubOp.transfers (this treasury : Address) (id : ℕ) (f : SubJobFile) : SubOp → List Transfer
  | .create requester payment _ => [⟨id, requester, this, payment⟩]
  | .bid b => [⟨id, b.agent, this, b.collateralLocked⟩]
  | op => payouts this id (op.payments treasury f)

variable {this treasury : Address} {id : ℕ} {f f' : SubJobFile} {op : SubOp}

theorem paidOut_append (ts ts' : List Transfer) :
    paidOut this (ts ++ ts') = paidOut this ts + paidOut this ts' := by
  simp [paidOut]

theorem paidIn_append (ts ts' : List Transfer) :
    paidIn this (ts ++ ts') = paidIn this ts + paidIn this ts' := by
  simp [paidIn]

theorem selfPaid_append (this : Address) (ts ts' : List Transfer) :
    selfPaid this (ts ++ ts') = selfPaid this ts + selfPaid this ts' := by
  simp [selfPaid]

theorem paidOut_payouts (payments : List (Address × ℕ)) :
    paidOut this (payouts this id payments) = (payments.map Prod.snd).sum := by
  induction payments with
  | nil => rfl
  | cons payment payments ih =>
    rw [payouts, List.flatMap_cons, paidOut_append]
    have hhead : paidOut this (payout this id payment.1 payment.2) = payment.2 := by
      unfold payout
      split_ifs with hpos
      · simp [paidOut]
      · simp only [paidOut, List.map_nil, List.sum_nil]
        omega
    rw [hhead, List.map_cons, List.sum_cons]
    exact congrArg _ ih

theorem mem_payouts {payments : List (Address × ℕ)} {t : Transfer}
    (h : t ∈ payouts this id payments) :
    t.subJobId = id ∧ t.src = this ∧ (t.dst, t.amount) ∈ payments := by
  obtain ⟨payment, hpayment, ht⟩ := List.mem_flatMap.mp h
  unfold payout at ht
  split_ifs at ht
  · rw [List.mem_singleton] at ht
    rw [ht]
    exact ⟨rfl, rfl, hpayment⟩
  · cases ht

theorem paidIn_payouts (payments : List (Address × ℕ)) :
    paidIn this (payouts this id payments) = 0 := by
  refine List.sum_eq_zero fun x hx => ?_
  obtain ⟨t, ht, rfl⟩ := List.mem_map.mp hx
  exact if_pos (mem_payouts ht).2.1

/-! ## What is owed -/

/-- The collateral of a sub-job's bids. -/
def SubJobFile.collateral (f : SubJobFile) : ℕ := (f.bids.map SubBid.collateralLocked).sum

/-- What the contract owes for a sub-job: the payment until it is settled, and the collateral. -/
def SubJobFile.owed (f : SubJobFile) : ℕ :=
  (if f.status.Ended then 0 else f.payment) + f.collateral

theorem collateral_demote (b : SubBid) :
    b.demote.collateralLocked + b.demotion = b.collateralLocked := by
  unfold SubBid.demote SubBid.demotion
  split <;> simp_all

theorem collateral_demoteOthers (p : ℕ → Prop) [DecidablePred p] (bids : List SubBid) :
    ((demoteOthers p bids).map SubBid.collateralLocked).sum +
      ((demotions p bids).map Prod.snd).sum = (bids.map SubBid.collateralLocked).sum := by
  induction bids generalizing p with
  | nil => rfl
  | cons b bids ih =>
    have htail := ih fun j => p (j + 1)
    simp only [demoteOthers, demotions, List.mapIdx_cons, List.map_cons, List.sum_cons] at htail ⊢
    have hhead : (if p 0 then b else b.demote).collateralLocked +
        (if p 0 then (b.agent, 0) else (b.agent, b.demotion)).2 = b.collateralLocked := by
      split_ifs
      · rfl
      · exact collateral_demote b
    omega

theorem collateral_refund (bids : List SubBid) :
    ((bids.map SubBid.refund).map SubBid.collateralLocked).sum +
      ((bids.map fun b => (b.agent, b.refunded)).map Prod.snd).sum =
      (bids.map SubBid.collateralLocked).sum := by
  induction bids with
  | nil => rfl
  | cons b bids ih =>
    simp only [List.map_cons, List.sum_cons]
    have hhead : b.refund.collateralLocked + b.refunded = b.collateralLocked := by
      unfold SubBid.refund SubBid.refunded SubBid.settle
      split_ifs <;> simp
    omega

theorem SubJobFile.Sound.collateral_ended (h : f.Sound this) (hended : f.status.Ended) :
    f.collateral = 0 := by
  refine List.sum_eq_zero fun x hx => ?_
  obtain ⟨b, hb, rfl⟩ := List.mem_map.mp hx
  exact h.ended hended b hb

theorem paidIn_singleton (id : ℕ) {src : Address} (dst : Address) (amount : ℕ) (h : src ≠ this) :
    paidIn this [⟨id, src, dst, amount⟩] = amount ∧ paidOut this [⟨id, src, dst, amount⟩] = 0 := by
  simp [paidIn, paidOut, h]

theorem owed_of_payouts (payments : List (Address × ℕ))
    (h : f'.owed + (payments.map Prod.snd).sum = f.owed) :
    f'.owed + paidOut this (payouts this id payments) =
      f.owed + paidIn this (payouts this id payments) := by
  rw [paidOut_payouts, paidIn_payouts]
  exact h

theorem SubJobFile.Sound.owed_settle (h : f.Sound this) {i : ℕ} {b : SubBid} (result : SubJobStatus)
    (hbusy : f.status.Busy) (hended : result.Ended) (hi : f.bids[i]? = some b)
    (hselected : b.agent = f.selected) :
    SubJobFile.owed { f with status := result, bids := f.bids.set i b.settle } +
      (b.proposedPrice + b.collateralLocked) = f.owed := by
  have hmoved := Keyed.sum_map_set (b := b.settle) SubBid.collateralLocked hi
  have hzero := (h.settle hbusy hended hi hselected).collateral_ended hended
  have hprice := (h.selected_bid hbusy hi hselected).2.1
  have hrunning : ¬ f.status.Ended := by
    rcases hbusy with hstatus | hstatus | hstatus <;> simp [SubJobStatus.Ended, hstatus]
  have hsettled : b.settle.collateralLocked = 0 := rfl
  unfold SubJobFile.owed SubJobFile.collateral at *
  rw [if_pos hended, if_neg hrunning]
  dsimp only at hzero ⊢
  omega

/-- A step moves what is owed for the sub-job by what its transfers bring in and take out. -/
theorem SubStep.owed (treasury : Address) (id : ℕ) (hsound : f.Sound this)
    (h : SubStep this f op f') :
    f'.owed + paidOut this (op.transfers this treasury id f) =
      f.owed + paidIn this (op.transfers this treasury id f) := by
  cases h with
  | @create requester payment slaDeadline hother =>
    obtain ⟨hin, hout⟩ := paidIn_singleton id this payment hother
    unfold SubOp.transfers
    rw [hin, hout]
    simp [SubJobFile.owed, SubJobFile.collateral, SubJobFile.blank, SubJobStatus.Ended]
  | @bid _ b hposted hopen hother hnone hpending hprice =>
    obtain ⟨hin, hout⟩ := paidIn_singleton id this b.collateralLocked hother
    unfold SubOp.transfers
    rw [hin, hout]
    simp only [SubJobFile.owed, SubJobFile.collateral, List.map_append, List.sum_append,
      List.map_singleton, List.sum_singleton]
    omega
  -- The others get their collateral back, and the requester what the bid is below the payment.
  | @select _ i b hposted hopen hi hpending =>
    have hopen := hsound.isOpen hopen
    refine owed_of_payouts _ ?_
    have hprice := (hsound.opened hopen b (List.mem_of_getElem? hi)).2
    have hdemoted := collateral_demoteOthers (· = i) (f.bids.set i { b with status := .accepted })
    have hmoved := Keyed.sum_map_set (b := { b with status := .accepted }) SubBid.collateralLocked hi
    simp only [SubOp.payments, SubJobFile.owed, SubJobFile.collateral, SubJobStatus.Ended, hopen,
      List.map_append, List.sum_append, List.map_singleton, List.sum_singleton, reduceCtorEq, or_self,
      if_false]
    dsimp only at hmoved
    omega
  | deliver hposted hprogress =>
    refine owed_of_payouts [] ?_
    simp [SubJobFile.owed, SubJobFile.collateral, SubJobStatus.Ended, hprogress]
  | dispute hposted hdelivered =>
    refine owed_of_payouts [] ?_
    simp [SubJobFile.owed, SubJobFile.collateral, SubJobStatus.Ended, hdelivered]
  | @pay _ i b hposted hstatus hi hselected =>
    have hsettled := hsound.owed_settle .accepted (.inr hstatus) (.inl rfl) hi hselected
    refine owed_of_payouts _ ?_
    simpa only [SubOp.payments, List.map_cons, List.sum_cons, List.map_nil, List.sum_nil,
      Nat.add_zero] using hsettled
  | @slash _ i percent b result hposted hstatus hi hselected =>
    have hbusy : f.status.Busy := by
      rcases hstatus with ⟨hdisputed, -, -⟩ | ⟨hprogress, -, -⟩
      · exact .inr (.inr hdisputed)
      · exact .inl hprogress
    have hended : result.Ended := by
      rcases hstatus with ⟨-, -, rfl⟩ | ⟨-, -, rfl⟩
      · exact .inr (.inr rfl)
      · exact .inr (.inl rfl)
    have hpercent : percent ≤ 100 := by
      rcases hstatus with ⟨-, rfl, -⟩ | ⟨-, rfl, -⟩ <;> norm_num
    have hsettled := hsound.owed_settle result hbusy hended hi hselected
    -- The slashed part goes to the treasury, the rest back to the agent.
    have hslashed : b.collateralLocked * percent / 100 ≤ b.collateralLocked := by
      refine Nat.div_le_of_le_mul ?_
      rw [Nat.mul_comm 100]
      exact Nat.mul_le_mul_left _ hpercent
    refine owed_of_payouts _ ?_
    simp only [SubOp.payments, List.map_cons, List.sum_cons, List.map_nil, List.sum_nil,
      Nat.add_zero]
    omega
  | cancel hposted hopen =>
    refine owed_of_payouts _ ?_
    have hrefund := collateral_refund f.bids
    simp only [SubOp.payments, SubJobFile.owed, SubJobFile.collateral, SubJobStatus.Ended, hopen,
      List.map_append, List.sum_append, List.map_singleton, List.sum_singleton, reduceCtorEq, or_self,
      or_true, if_false, if_true]
    omega

/-! ## All sub-jobs -/

/-- All sub-jobs, with the ledger of the GUARD token, the treasury, and the transfers made so far. -/
structure Books where
  token : TokenLedger
  nextSubJobId : ℕ
  files : ℕ → SubJobFile
  treasury : Address
  transfers : List Transfer

/-- The operations on the books. -/
inductive BookOp
  | job (id : ℕ) (op : SubOp)
  | configure (treasury : Address)

/-- One operation on the books of the contract at `this`. A step in the life of a sub-job is that of one
that was posted, or it takes the next id. -/
inductive BookStep (this : Address) : Books → BookOp → Books → Prop
  | job {b : Books} {id next : ℕ} {op : SubOp} {f : SubJobFile} {token : TokenLedger}
      (hid : (b.files id).posted = true ∧ next = b.nextSubJobId ∨
        id = b.nextSubJobId ∧ next = b.nextSubJobId + 1)
      (hstep : SubStep this (b.files id) op f)
      (hpay : b.token.transferAll ((op.transfers this b.treasury id (b.files id)).map Transfer.move) =
        some token) :
      BookStep this b (.job id op) { b with
        token := token
        nextSubJobId := next
        files := Function.update b.files id f
        transfers := b.transfers ++ op.transfers this b.treasury id (b.files id) }
  | configure {b : Books} {treasury : Address} :
      BookStep this b (.configure treasury) { b with treasury := treasury }

theorem BookStep.of_job {this : Address} {b b' : Books} {id : ℕ} {op : SubOp}
    (h : BookStep this b (.job id op) b') : SubStep this (b.files id) op (b'.files id) := by
  cases h with
  | job hid hstep hpay =>
    dsimp only
    rw [Function.update_self]
    exact hstep

theorem BookStep.file {this : Address} {b b' : Books} {bookOp : BookOp} (h : BookStep this b bookOp b')
    (id : ℕ) : b'.files id = b.files id ∨
      ∃ op, bookOp = .job id op ∧ SubStep this (b.files id) op (b'.files id) := by
  cases h with
  | configure => exact .inl rfl
  | @job i next op f token hid hstep hpay =>
    dsimp only
    rcases eq_or_ne id i with rfl | hne
    · rw [Function.update_self]
      exact .inr ⟨op, rfl, hstep⟩
    · rw [Function.update_of_ne hne]
      exact .inl rfl

/-- What the contract owes. -/
def Books.owed (b : Books) : ℕ := ∑ id ∈ Finset.range b.nextSubJobId, (b.files id).owed

/-- The transfers made for a sub-job. -/
def Books.transfersOf (b : Books) (id : ℕ) : List Transfer :=
  b.transfers.filter fun t => t.subJobId = id

/-- Every sub-job is sound, ids that were not given are unused, and what was paid in for a sub-job and not
paid out is what is owed for it. -/
structure Books.Sound (this : Address) (b : Books) : Prop where
  files : ∀ id, (b.files id).Sound this
  unused : ∀ id, b.nextSubJobId ≤ id → b.files id = SubJobFile.blank
  first : 0 < b.nextSubJobId
  conserved : ∀ id, paidOut this (b.transfersOf id) + (b.files id).owed =
    paidIn this (b.transfersOf id)

variable {b b' : Books} {bookOp : BookOp}

theorem Books.Sound.lt_of_posted (h : b.Sound this) {id : ℕ} (hposted : (b.files id).posted = true) :
    id < b.nextSubJobId := by
  by_contra hge
  rw [h.unused id (Nat.le_of_not_lt hge)] at hposted
  cases hposted

theorem mem_transfers {t : Transfer} (h : t ∈ op.transfers this treasury id f) :
    t.subJobId = id ∧ (t.src = this ∨ t.dst = this) := by
  cases op with
  | create requester payment slaDeadline =>
    rw [List.mem_singleton.mp h]
    exact ⟨rfl, .inr rfl⟩
  | bid b =>
    rw [List.mem_singleton.mp h]
    exact ⟨rfl, .inr rfl⟩
  | _ =>
    obtain ⟨hid, hsrc, -⟩ := mem_payouts h
    exact ⟨hid, .inl hsrc⟩

theorem received_eq {ts : List Transfer} (h : ∀ t ∈ ts, t.src = this ∨ t.dst = this) :
    (ts.map fun t => if t.dst = this then t.amount else 0).sum =
      paidIn this ts + selfPaid this ts := by
  induction ts with
  | nil => rfl
  | cons t ts ih =>
    rw [List.forall_mem_cons] at h
    have htail := ih h.2
    have hhead : (if t.dst = this then t.amount else 0) =
        (if t.src = this then 0 else t.amount) +
          if t.src = this ∧ t.dst = this then t.amount else 0 := by
      rcases eq_or_ne t.src this with hsrc | hsrc
      · simp only [hsrc, if_true, true_and, Nat.zero_add]
      · have hdst := h.1.resolve_left hsrc
        simp [hsrc, hdst]
    unfold paidIn selfPaid at *
    simp only [List.map_cons, List.sum_cons]
    omega

theorem transferAll_this {ts : List Transfer} {token token' : TokenLedger}
    (h : token.transferAll (ts.map Transfer.move) = some token')
    (hthis : ∀ t ∈ ts, t.src = this ∨ t.dst = this) :
    token'.balance this + paidOut this ts = token.balance this + paidIn this ts +
      selfPaid this ts := by
  have hmoved := Ledger.transferAll_balance h this
  rw [List.map_map, List.map_map] at hmoved
  have hreceived := received_eq hthis
  have hsent : (ts.map ((fun t : Address × Address × ℕ => if t.1 = this then t.2.2 else 0) ∘
      Transfer.move)).sum = paidOut this ts := rfl
  have hgot : (ts.map ((fun t : Address × Address × ℕ => if t.2.1 = this then t.2.2 else 0) ∘
      Transfer.move)).sum = (ts.map fun t => if t.dst = this then t.amount else 0).sum := rfl
  omega

theorem BookStep.balance (hb : b.Sound this) (h : BookStep this b bookOp b') :
    b'.token.balance this + (b.owed + selfPaid this b.transfers) =
      b.token.balance this + (b'.owed + selfPaid this b'.transfers) := by
  cases h with
  | configure => rfl
  | @job id next op f token hid hstep hpay =>
    have howed := hstep.owed b.treasury id (hb.files id)
    have hmoved := transferAll_this hpay fun t ht => (mem_transfers ht).2
    -- Only the file of the one sub-job is written, which may be new.
    have htotal : ∑ i ∈ Finset.range next, (Function.update b.files id f i).owed +
        (b.files id).owed = b.owed + f.owed := by
      rcases hid with ⟨hposted, rfl⟩ | ⟨rfl, rfl⟩
      · have hlt := hb.lt_of_posted hposted
        exact Sums.sum_update_of_mem (Finset.mem_range.mpr hlt) b.files f fun _ => SubJobFile.owed
      · have hnone : (b.files b.nextSubJobId).owed = 0 := by
          rw [hb.unused _ le_rfl]
          rfl
        rw [hnone, Nat.add_zero]
        exact Sums.sum_range_push b.files b.nextSubJobId f SubJobFile.owed
    have hself := selfPaid_append this b.transfers
      (op.transfers this b.treasury id (b.files id))
    change token.balance this + _ = _ + (∑ i ∈ Finset.range next, (Function.update b.files id f i).owed +
      selfPaid this (b.transfers ++ op.transfers this b.treasury id (b.files id)))
    omega

/-- Every operation keeps the invariant. -/
theorem Books.Sound.step (hb : b.Sound this) (h : BookStep this b bookOp b') : b'.Sound this := by
  cases h with
  | configure => exact ⟨hb.files, hb.unused, hb.first, hb.conserved⟩
  | @job id next op f token hid hstep hpay =>
    have hnext : b.nextSubJobId ≤ next := by
      rcases hid with ⟨-, rfl⟩ | ⟨-, rfl⟩ <;> omega
    have hlt : id < next := by
      rcases hid with ⟨hposted, rfl⟩ | ⟨rfl, rfl⟩
      · exact hb.lt_of_posted hposted
      · exact Nat.lt_succ_self _
    constructor
    case files =>
      intro i
      dsimp only
      rcases eq_or_ne i id with rfl | hne
      · rw [Function.update_self]
        exact (hb.files i).step hstep
      · rw [Function.update_of_ne hne]
        exact hb.files i
    case unused =>
      intro i hi
      dsimp only at hi ⊢
      rw [Function.update_of_ne (by omega)]
      exact hb.unused i (by omega)
    case first => exact Nat.lt_of_lt_of_le hb.first hnext
    case conserved =>
      intro i
      have hbefore := hb.conserved i
      unfold Books.transfersOf at *
      dsimp only
      rw [List.filter_append, paidOut_append, paidIn_append]
      rcases eq_or_ne i id with rfl | hne
      · -- All transfers of the step are for its sub-job, and none for another.
        have hall : (op.transfers this b.treasury i (b.files i)).filter (fun t => t.subJobId = i) =
            op.transfers this b.treasury i (b.files i) := by
          refine List.filter_eq_self.mpr fun t ht => ?_
          exact decide_eq_true (mem_transfers ht).1
        have howed := hstep.owed b.treasury i (hb.files i)
        rw [hall, Function.update_self]
        omega
      · have hnone : (op.transfers this b.treasury id (b.files id)).filter
            (fun t => t.subJobId = i) = [] := by
          refine List.filter_eq_nil_iff.mpr fun t ht heq => hne ?_
          rw [← of_decide_eq_true heq]
          exact (mem_transfers ht).1
        rw [hnone, Function.update_of_ne hne]
        exact hbefore

/-! ## Who pays and who is paid -/

/-- The transfer goes from the contract to the requester, a bidder or the treasury, or from the requester or
a bidder to the contract. -/
def Transfer.Proper (this treasury requester : Address) (bids : List SubBid) (t : Transfer) : Prop :=
  t.src = this ∧ (t.dst = requester ∨ (∃ b ∈ bids, b.agent = t.dst) ∨ t.dst = treasury) ∨
    t.dst = this ∧ t.src ≠ this ∧ (t.src = requester ∨ ∃ b ∈ bids, b.agent = t.src)

theorem proper_of_payouts {requester : Address} {bids : List SubBid} (payments : List (Address × ℕ))
    (h : ∀ payment ∈ payments, payment.1 = requester ∨ (∃ b ∈ bids, b.agent = payment.1) ∨
      payment.1 = treasury) :
    ∀ t ∈ payouts this id payments, t.Proper this treasury requester bids := by
  intro t ht
  obtain ⟨-, hsrc, hmem⟩ := mem_payouts ht
  exact .inl ⟨hsrc, h _ hmem⟩

theorem agent_of_demotions {p : ℕ → Prop} [DecidablePred p] {bids : List SubBid}
    {payment : Address × ℕ} (h : payment ∈ demotions p bids) : ∃ b ∈ bids, b.agent = payment.1 := by
  obtain ⟨j, hj⟩ := List.mem_iff_getElem?.mp h
  rw [demotions, List.getElem?_mapIdx] at hj
  obtain ⟨b, hb, rfl⟩ := Option.map_eq_some_iff.mp hj
  refine ⟨b, List.mem_of_getElem? hb, ?_⟩
  split_ifs <;> rfl

theorem selected_settle {i : ℕ} {b : SubBid} (hi : f.bids[i]? = some b)
    (hselected : b.agent = f.selected) : ∃ c ∈ f.bids.set i b.settle, c.agent = f.selected := by
  have hagents : (f.bids.set i b.settle).map SubBid.agent = f.bids.map SubBid.agent :=
    Keyed.map_set hi rfl
  exact (bidders_congr hagents f.selected).mpr ⟨b, List.mem_of_getElem? hi, hselected⟩

/-- Every transfer of a step is between the contract and the requester, a bidder or the treasury. -/
theorem SubStep.proper (hsound : f.Sound this) (h : SubStep this f op f') :
    ∀ t ∈ op.transfers this treasury id f, t.Proper this treasury f'.requester f'.bids := by
  cases h with
  | create hother =>
    intro t ht
    rw [List.mem_singleton.mp ht]
    exact .inr ⟨rfl, hother, .inl rfl⟩
  | @bid _ b hposted hopen hother hnone hpending hprice =>
    intro t ht
    rw [List.mem_singleton.mp ht]
    exact .inr ⟨rfl, hother, .inr ⟨b, by simp, rfl⟩⟩
  | @select _ i b hposted hopen hi hpending =>
    refine proper_of_payouts _ fun payment hpayment => ?_
    rcases List.mem_append.mp hpayment with hmem | hmem
    · refine .inr (.inl ?_)
      obtain ⟨c, hc, hagent⟩ := agent_of_demotions hmem
      refine (bidders_congr ?_ payment.1).mpr ⟨c, hc, hagent⟩
      exact agent_demoteOthers _ _
    · rw [List.mem_singleton.mp hmem]
      exact .inl rfl
  | deliver hposted hprogress => exact proper_of_payouts [] (by simp)
  | dispute hposted hdelivered => exact proper_of_payouts [] (by simp)
  | @pay _ i b hposted hstatus hi hselected =>
    -- The selected agent stays among the bidders.
    have hbidder := selected_settle hi hselected
    refine proper_of_payouts _ fun payment hpayment => ?_
    simp only [SubOp.payments, List.mem_cons, List.not_mem_nil, or_false] at hpayment
    rcases hpayment with rfl | rfl <;> exact .inr (.inl hbidder)
  | @slash _ i percent b result hposted hstatus hi hselected =>
    have hbidder := selected_settle hi hselected
    refine proper_of_payouts _ fun payment hpayment => ?_
    simp only [SubOp.payments, List.mem_cons, List.not_mem_nil, or_false] at hpayment
    rcases hpayment with rfl | rfl | rfl
    · exact .inl rfl
    · exact .inr (.inr rfl)
    · exact .inr (.inl hbidder)
  | cancel hposted hopen =>
    refine proper_of_payouts _ fun payment hpayment => ?_
    rcases List.mem_append.mp hpayment with hmem | hmem
    · obtain ⟨c, hc, rfl⟩ := List.mem_map.mp hmem
      exact .inr (.inl ((bidders_congr (agent_refund f.bids) c.agent).mpr ⟨c, hc, rfl⟩))
    · rw [List.mem_singleton.mp hmem]
      exact .inl rfl

end AuditGuard.SubAuction
