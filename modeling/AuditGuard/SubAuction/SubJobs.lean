import AuditGuard.Library.Keyed
import AuditGuard.SubAuction.Model

/-!
# SubAuction: the life of a sub-job

What the auction is for, seen from one sub-job: the requester pays in and agents bid with collateral; the
requester selects a bid, and the others are refunded; the selected agent delivers or not; and what was paid
in goes back to the requester, to the bidders, and to the treasury. Who calls, and what the treasury and the
ledger are, is left out here.

`SubJobFile.Sound` is the invariant of a sub-job, which every step keeps (`SubJobFile.Sound.step`).
-/

namespace AuditGuard.SubAuction

open Evm

/-- The file of a sub-job: its state and its bids. -/
structure SubJobFile where
  posted : Bool
  status : SubJobStatus
  requester : Address
  payment : ℕ
  slaDeadline : ℕ
  selected : Address
  bids : List SubBid
  hasBid : Address → Bool

/-- The file of a sub-job that was not posted. -/
def SubJobFile.blank : SubJobFile := ⟨false, .opened, 0, 0, 0, 0, [], fun _ => false⟩

/-- The selected agent is at work, or its delivery is under discussion. -/
def SubJobStatus.Busy (status : SubJobStatus) : Prop :=
  status = .inProgress ∨ status = .delivered ∨ status = .disputed

/-- The sub-job is settled. -/
def SubJobStatus.Ended (status : SubJobStatus) : Prop :=
  status = .accepted ∨ status = .expired ∨ status = .cancelled

instance (status : SubJobStatus) : Decidable status.Busy := by
  unfold SubJobStatus.Busy
  infer_instance

instance (status : SubJobStatus) : Decidable status.Ended := by
  unfold SubJobStatus.Ended
  infer_instance

namespace SubBid

/-- What another bid becomes when one is selected. -/
def demote (bid : SubBid) : SubBid :=
  match bid.status with
  | .pending | .rejected => { bid with collateralLocked := 0, status := .refunded }
  | .accepted => { bid with status := .rejected }
  | .refunded => bid

/-- The collateral that another bid gets back when one is selected. -/
def demotion (bid : SubBid) : ℕ :=
  match bid.status with
  | .pending | .rejected => bid.collateralLocked
  | _ => 0

/-- A bid whose collateral is out. -/
def settle (bid : SubBid) : SubBid := { bid with collateralLocked := 0, status := .refunded }

/-- What a bid becomes when the auction is cancelled. -/
def refund (bid : SubBid) : SubBid :=
  if bid.status = .pending ∨ bid.status = .accepted then bid.settle else bid

/-- The collateral that a bid gets back when the auction is cancelled. -/
def refunded (bid : SubBid) : ℕ :=
  if bid.status = .pending ∨ bid.status = .accepted then bid.collateralLocked else 0

end SubBid

/-- The bids after those were demoted whose index is not `p`. -/
def demoteOthers (p : ℕ → Prop) [DecidablePred p] (bids : List SubBid) : List SubBid :=
  bids.mapIdx fun j b => if p j then b else b.demote

/-- What the bids get back whose index is not `p`. -/
def demotions (p : ℕ → Prop) [DecidablePred p] (bids : List SubBid) : List (Address × ℕ) :=
  bids.mapIdx fun j b => if p j then (b.agent, 0) else (b.agent, b.demotion)

/-- The steps in the life of a sub-job, with what they are given. -/
inductive SubOp
  | create (requester : Address) (payment slaDeadline : ℕ)
  | bid (b : SubBid)
  | select (i : ℕ) (b : SubBid)
  | deliver
  | dispute
  | pay (b : SubBid)
  | slash (b : SubBid) (percent : ℕ) (result : SubJobStatus)
  | cancel

/-- One step in the life of a sub-job, with the conditions under which it takes place. The contract itself,
at `this`, neither requests nor bids. -/
inductive SubStep (this : Address) : SubJobFile → SubOp → SubJobFile → Prop
  | create {requester : Address} {payment slaDeadline : ℕ} (hother : requester ≠ this) :
      SubStep this SubJobFile.blank (.create requester payment slaDeadline) { SubJobFile.blank with
        posted := true
        requester := requester
        payment := payment
        slaDeadline := slaDeadline }
  | bid {f : SubJobFile} {b : SubBid} (hposted : f.posted = true) (hopen : f.status = .opened)
      (hother : b.agent ≠ this) (hnone : f.hasBid b.agent = false) (hpending : b.status = .pending)
      (hprice : b.proposedPrice ≤ f.payment) :
      SubStep this f (.bid b) { f with
        bids := f.bids ++ [b]
        hasBid := Function.update f.hasBid b.agent true }
  | select {f : SubJobFile} {i : ℕ} {b : SubBid} (hposted : f.posted = true)
      (hopen : f.status = .opened ∨ f.status = .biddingClosed) (hi : f.bids[i]? = some b)
      (hpending : b.status = .pending) :
      SubStep this f (.select i b) { f with
        status := .inProgress
        payment := min b.proposedPrice f.payment
        selected := b.agent
        bids := demoteOthers (· = i) (f.bids.set i { b with status := .accepted }) }
  | deliver {f : SubJobFile} (hposted : f.posted = true) (hprogress : f.status = .inProgress) :
      SubStep this f .deliver { f with status := .delivered }
  | dispute {f : SubJobFile} (hposted : f.posted = true) (hdelivered : f.status = .delivered) :
      SubStep this f .dispute { f with status := .disputed }
  | pay {f : SubJobFile} {i : ℕ} {b : SubBid} (hposted : f.posted = true)
      (hstatus : f.status = .delivered ∨ f.status = .disputed) (hi : f.bids[i]? = some b)
      (hselected : b.agent = f.selected) :
      SubStep this f (.pay b) { f with status := .accepted, bids := f.bids.set i b.settle }
  | slash {f : SubJobFile} {i percent : ℕ} {b : SubBid} {result : SubJobStatus}
      (hposted : f.posted = true)
      (hstatus : f.status = .disputed ∧ percent = 50 ∧ result = .cancelled ∨
        f.status = .inProgress ∧ percent = 25 ∧ result = .expired)
      (hi : f.bids[i]? = some b) (hselected : b.agent = f.selected) :
      SubStep this f (.slash b percent result) { f with
        status := result
        bids := f.bids.set i b.settle }
  | cancel {f : SubJobFile} (hposted : f.posted = true) (hopen : f.status = .opened) :
      SubStep this f .cancel { f with status := .cancelled, bids := f.bids.map SubBid.refund }

/-! ## The invariant -/

/-- The invariant of a sub-job. -/
structure SubJobFile.Sound (this : Address) (f : SubJobFile) : Prop where
  nodup : (f.bids.map SubBid.agent).Nodup
  hasBid_iff : ∀ a, f.hasBid a = true ↔ ∃ b ∈ f.bids, b.agent = a
  others : ∀ b ∈ f.bids, b.agent ≠ this
  requester : f.posted = true → f.requester ≠ this
  phase : f.status ≠ .biddingClosed
  opened : f.status = .opened → ∀ b ∈ f.bids, b.status = .pending ∧ b.proposedPrice ≤ f.payment
  busy : f.status.Busy → ∃ b ∈ f.bids, b.status = .accepted ∧ b.agent = f.selected ∧
    b.proposedPrice = f.payment ∧
    ∀ c ∈ f.bids, c.agent ≠ b.agent → c.status = .refunded ∧ c.collateralLocked = 0
  ended : f.status.Ended → ∀ b ∈ f.bids, b.collateralLocked = 0

variable {this : Address} {f f' : SubJobFile} {op : SubOp}

theorem SubStep.posted (h : SubStep this f op f') : f'.posted = true := by
  cases h with
  | create => rfl
  | bid hposted | select hposted | deliver hposted | dispute hposted | pay hposted | slash hposted
  | cancel hposted => exact hposted

theorem agent_demoteOthers (p : ℕ → Prop) [DecidablePred p] (bids : List SubBid) :
    (demoteOthers p bids).map SubBid.agent = bids.map SubBid.agent := by
  have hagent : ∀ b : SubBid, b.demote.agent = b.agent := by
    intro b
    unfold SubBid.demote
    split <;> rfl
  refine List.ext_getElem? fun j => ?_
  simp only [demoteOthers, List.getElem?_map, List.getElem?_mapIdx, Option.map_map]
  congr 1
  funext b
  simp only [Function.comp_apply]
  split_ifs
  · rfl
  · exact hagent b

theorem agent_refund (bids : List SubBid) :
    (bids.map SubBid.refund).map SubBid.agent = bids.map SubBid.agent := by
  rw [List.map_map]
  refine List.map_congr_left fun b _ => ?_
  simp only [Function.comp_apply, SubBid.refund, SubBid.settle]
  split_ifs <;> rfl

theorem bidders_congr {bids bids' : List SubBid}
    (h : bids'.map SubBid.agent = bids.map SubBid.agent) (a : Address) :
    (∃ c ∈ bids', c.agent = a) ↔ ∃ c ∈ bids, c.agent = a := by
  have hmem := congrArg (a ∈ ·) h
  simpa only [List.mem_map, eq_iff_iff] using hmem

theorem SubJobFile.sound_blank (this : Address) : SubJobFile.blank.Sound this := by
  constructor <;> simp [SubJobFile.blank, SubJobStatus.Busy, SubJobStatus.Ended]

theorem mem_demoteOthers {bids : List SubBid} (hnodup : (bids.map SubBid.agent).Nodup) {i : ℕ}
    {a b : SubBid} (hi : bids[i]? = some b) {c : SubBid} :
    c ∈ demoteOthers (· = i) (bids.set i a) ↔
      c = a ∨ ∃ d ∈ bids, d.agent ≠ b.agent ∧ c = d.demote := by
  have hlt := (List.getElem?_eq_some_iff.mp hi).1
  -- At the selected index stands the accepted bid, elsewhere a demoted one.
  have hat : ∀ j, (demoteOthers (· = i) (bids.set i a))[j]? =
      if j = i then some a else bids[j]?.map SubBid.demote := by
    intro j
    rw [demoteOthers, List.getElem?_mapIdx]
    rcases eq_or_ne j i with rfl | hne
    · rw [List.getElem?_set_self hlt, if_pos rfl, Option.map_some, if_pos rfl]
    · rw [List.getElem?_set_ne hne.symm, if_neg hne]
      simp only [if_neg hne]
  constructor
  · intro hc
    obtain ⟨j, hj⟩ := List.mem_iff_getElem?.mp hc
    rw [hat j] at hj
    split_ifs at hj with heq
    · exact .inl (Option.some.inj hj).symm
    · obtain ⟨d, hd, rfl⟩ := Option.map_eq_some_iff.mp hj
      refine .inr ⟨d, List.mem_of_getElem? hd, fun hagent => heq ?_, rfl⟩
      exact Keyed.index_unique hnodup hd hi hagent
  · rintro (rfl | ⟨d, hd, hne, rfl⟩)
    · exact List.mem_iff_getElem?.mpr ⟨i, by rw [hat, if_pos rfl]⟩
    · obtain ⟨j, hj⟩ := List.mem_iff_getElem?.mp hd
      have hji : j ≠ i := by
        rintro rfl
        rw [hj] at hi
        exact hne (congrArg SubBid.agent (Option.some.inj hi))
      exact List.mem_iff_getElem?.mpr ⟨j, by rw [hat, if_neg hji, hj, Option.map_some]⟩

namespace SubJobFile.Sound

theorem rebid (h : f.Sound this) {bids : List SubBid}
    (hagents : bids.map SubBid.agent = f.bids.map SubBid.agent) :
    (bids.map SubBid.agent).Nodup ∧ (∀ a, f.hasBid a = true ↔ ∃ b ∈ bids, b.agent = a) ∧
      ∀ b ∈ bids, b.agent ≠ this := by
  refine ⟨hagents ▸ h.nodup, fun a => (h.hasBid_iff a).trans (bidders_congr hagents a).symm, ?_⟩
  intro b hb
  obtain ⟨c, hc, heq⟩ := (bidders_congr hagents b.agent).mp ⟨b, hb, rfl⟩
  rw [← heq]
  exact h.others c hc

theorem isOpen (h : f.Sound this) (hopen : f.status = .opened ∨ f.status = .biddingClosed) :
    f.status = .opened := hopen.resolve_right h.phase

/-- A submitted bid. -/
theorem submit (h : f.Sound this) {b : SubBid} (hopen : f.status = .opened) (hother : b.agent ≠ this)
    (hnone : f.hasBid b.agent = false) (hpending : b.status = .pending)
    (hprice : b.proposedPrice ≤ f.payment) :
    Sound this { f with
      bids := f.bids ++ [b]
      hasBid := Function.update f.hasBid b.agent true } := by
  -- An agent bids once, so the new bid is its first.
  have hfirst : ∀ c ∈ f.bids, c.agent ≠ b.agent := by
    intro c hc heq
    have hbidder := (h.hasBid_iff b.agent).mpr ⟨c, hc, heq⟩
    rw [hnone] at hbidder
    cases hbidder
  constructor
  case nodup =>
    change ((f.bids ++ [b]).map SubBid.agent).Nodup
    rw [List.map_append, List.nodup_append]
    refine ⟨h.nodup, by simp, ?_⟩
    intro a ha a' ha' heq
    obtain ⟨c, hc, rfl⟩ := List.mem_map.mp ha
    obtain ⟨d, hd, rfl⟩ := List.mem_map.mp ha'
    rw [List.mem_singleton.mp hd] at heq
    exact hfirst c hc heq
  case hasBid_iff =>
    intro a
    dsimp only
    rcases eq_or_ne a b.agent with rfl | hne
    · rw [Function.update_self]
      exact iff_of_true rfl ⟨b, by simp, rfl⟩
    · rw [Function.update_of_ne hne, h.hasBid_iff a]
      simp [hne.symm]
  case others =>
    intro c hc
    rcases List.mem_append.mp hc with hc | hc
    · exact h.others c hc
    · rw [List.mem_singleton.mp hc]
      exact hother
  case requester => exact h.requester
  case phase => exact h.phase
  case opened =>
    intro _ c hc
    rcases List.mem_append.mp hc with hc | hc
    · exact h.opened hopen c hc
    · rw [List.mem_singleton.mp hc]
      exact ⟨hpending, hprice⟩
  case busy =>
    intro hbusy
    simp [SubJobStatus.Busy, hopen] at hbusy
  case ended =>
    intro hended
    simp [SubJobStatus.Ended, hopen] at hended

/-- A selection. -/
theorem choose (h : f.Sound this) {i : ℕ} {b : SubBid}
    (hopen : f.status = .opened) (hi : f.bids[i]? = some b) :
    Sound this { f with
      status := .inProgress
      payment := min b.proposedPrice f.payment
      selected := b.agent
      bids := demoteOthers (· = i) (f.bids.set i { b with status := .accepted }) } := by
  have hmem := List.mem_of_getElem? hi
  have hbids : ∀ c, c ∈ demoteOthers (· = i) (f.bids.set i { b with status := .accepted }) ↔ _ :=
    fun c => mem_demoteOthers h.nodup hi
  have hagents : (demoteOthers (· = i) (f.bids.set i { b with status := .accepted })).map
      SubBid.agent = f.bids.map SubBid.agent := by
    rw [agent_demoteOthers]
    exact Keyed.map_set hi rfl
  obtain ⟨hnodup, hhas, hothers⟩ := h.rebid hagents
  constructor
  case nodup => exact hnodup
  case hasBid_iff => exact hhas
  case others => exact hothers
  case requester => exact h.requester
  case phase => simp
  case opened =>
    intro hopened
    cases hopened
  -- Only the selected bid keeps its collateral.
  case busy =>
    intro _
    refine ⟨{ b with status := .accepted }, (hbids _).mpr (.inl rfl), rfl, rfl, ?_, ?_⟩
    · exact (min_eq_left (h.opened hopen b hmem).2).symm
    · intro c hc hne
      rcases (hbids c).mp hc with rfl | ⟨d, hd, -, rfl⟩
      · exact absurd rfl hne
      · have hpending := (h.opened hopen d hd).1
        unfold SubBid.demote
        rw [hpending]
        exact ⟨rfl, rfl⟩
  case ended =>
    intro hended
    simp [SubJobStatus.Ended] at hended

theorem selected_bid (h : f.Sound this) (hbusy : f.status.Busy) {i : ℕ} {b : SubBid}
    (hi : f.bids[i]? = some b) (hselected : b.agent = f.selected) :
    b.status = .accepted ∧ b.proposedPrice = f.payment ∧
      ∀ c ∈ f.bids, c.agent ≠ b.agent → c.collateralLocked = 0 := by
  obtain ⟨a, ha, haccepted, hagent, hprice, hothers⟩ := h.busy hbusy
  have hsame : b = a :=
    Keyed.record_unique h.nodup (List.mem_of_getElem? hi) ha (hselected.trans hagent.symm)
  rw [hsame]
  exact ⟨haccepted, hprice, fun c hc hne => (hothers c hc hne).2⟩

theorem settle (h : f.Sound this) {i : ℕ} {b : SubBid} {result : SubJobStatus}
    (hbusy : f.status.Busy) (hended : result.Ended) (hi : f.bids[i]? = some b)
    (hselected : b.agent = f.selected) :
    Sound this { f with status := result, bids := f.bids.set i b.settle } := by
  have hagents : (f.bids.set i b.settle).map SubBid.agent = f.bids.map SubBid.agent :=
    Keyed.map_set hi rfl
  obtain ⟨hnodup, hhas, hothers⟩ := h.rebid hagents
  obtain ⟨-, -, hzero⟩ := h.selected_bid hbusy hi hselected
  constructor
  case nodup => exact hnodup
  case hasBid_iff => exact hhas
  case others => exact hothers
  case requester => exact h.requester
  case phase => rcases hended with rfl | rfl | rfl <;> simp
  case opened =>
    intro hopened
    rcases hended with rfl | rfl | rfl <;> cases hopened
  case busy =>
    intro hbusy'
    rcases hended with rfl | rfl | rfl <;> simp [SubJobStatus.Busy] at hbusy'
  case ended =>
    intro _ c hc
    rcases (Keyed.mem_set_iff h.nodup hi).mp hc with rfl | ⟨hc, hne⟩
    · rfl
    · exact hzero c hc hne

theorem proceed (h : f.Sound this) {result : SubJobStatus} (hbusy : f.status.Busy)
    (hbusy' : result.Busy) : Sound this { f with status := result } := by
  constructor
  case nodup => exact h.nodup
  case hasBid_iff => exact h.hasBid_iff
  case others => exact h.others
  case requester => exact h.requester
  case phase => rcases hbusy' with rfl | rfl | rfl <;> simp
  case opened =>
    intro hopened
    rcases hbusy' with rfl | rfl | rfl <;> cases hopened
  case busy => exact fun _ => h.busy hbusy
  case ended =>
    intro hended
    rcases hbusy' with rfl | rfl | rfl <;> simp [SubJobStatus.Ended] at hended

theorem cancel (h : f.Sound this) (hopen : f.status = .opened) :
    Sound this { f with status := .cancelled, bids := f.bids.map SubBid.refund } := by
  obtain ⟨hnodup, hhas, hothers⟩ := h.rebid (agent_refund f.bids)
  constructor
  case nodup => exact hnodup
  case hasBid_iff => exact hhas
  case others => exact hothers
  case requester => exact h.requester
  case phase => simp
  case opened =>
    intro hopened
    cases hopened
  case busy =>
    intro hbusy
    simp [SubJobStatus.Busy] at hbusy
  case ended =>
    intro _ c hc
    obtain ⟨b, hb, rfl⟩ := List.mem_map.mp hc
    have hpending := (h.opened hopen b hb).1
    unfold SubBid.refund
    rw [if_pos (.inl hpending)]
    rfl

theorem step (h : f.Sound this) (hstep : SubStep this f op f') : f'.Sound this := by
  cases hstep with
  | create hother =>
    constructor <;> simp [SubJobFile.blank, SubJobStatus.Busy, SubJobStatus.Ended, hother]
  | bid hposted hopen hother hnone hpending hprice =>
    exact h.submit hopen hother hnone hpending hprice
  | select hposted hopen hi hpending => exact h.choose (h.isOpen hopen) hi
  | deliver hposted hprogress => exact h.proceed (.inl hprogress) (.inr (.inl rfl))
  | dispute hposted hdelivered => exact h.proceed (.inr (.inl hdelivered)) (.inr (.inr rfl))
  | pay hposted hstatus hi hselected => exact h.settle (.inr hstatus) (.inl rfl) hi hselected
  | slash hposted hstatus hi hselected =>
    rcases hstatus with ⟨hdisputed, -, rfl⟩ | ⟨hprogress, -, rfl⟩
    · exact h.settle (.inr (.inr hdisputed)) (.inr (.inr rfl)) hi hselected
    · exact h.settle (.inl hprogress) (.inr (.inl rfl)) hi hselected
  | cancel hposted hopen => exact h.cancel hopen

end SubJobFile.Sound

end AuditGuard.SubAuction
