import AuditGuard.AuditAuction.Model
import AuditGuard.Library.Keyed

/-!
# AuditAuction: the life of a job

What the auction is for, seen from one job: agents bid with collateral while the auction is open; the
orchestrator accepts some of the bids; each winner is paid, or loses collateral; and the job is completed
when all winners are paid and the escrow is empty. Who calls, deadlines, scores and the tokens are left out
here.

`JobFile.Sound` is the invariant of a job, which every step keeps (`JobFile.Sound.step`).
-/

namespace AuditGuard.AuditAuction

open Evm TransitionSystem

/-- The file of a job: its state, its bids, and what was paid. -/
structure JobFile where
  posted : Bool
  status : JobStatus
  budget : ℕ
  winners : List Address
  escrow : ℕ
  bidCount : ℕ
  bids : List AgentBid
  hasBid : Address → Bool
  paid : Address → Bool
  paidCount : ℕ
  /-- What the winners got so far, besides collateral. -/
  payouts : ℕ
  /-- The platform fee. -/
  fee : ℕ

/-- The file of a job that was not posted. -/
def JobFile.blank : JobFile :=
  ⟨false, .auctionOpen, 0, [], 0, 0, [], fun _ => false, fun _ => false, 0, 0, 0⟩

/-- A pending bid is refunded; any other one stays. -/
def AgentBid.refund (bid : AgentBid) : AgentBid :=
  if bid.status = .pending then { bid with status := .refunded, collateralLocked := 0 } else bid

/-- Who bids, and how much. -/
def AgentBid.offer (bid : AgentBid) : Address × ℕ := (bid.agent, bid.bidAmount)

/-- The sum of the bids of the winners. -/
def winningAmount (winners : List Address) (offers : List (Address × ℕ)) : ℕ :=
  (offers.map fun offer => if offer.1 ∈ winners then offer.2 else 0).sum

/-- The bids while the winners are picked, with the winners so far and the sum of their bids. -/
structure Picks where
  bids : List AgentBid
  winners : List Address
  total : ℕ

/-- One pending bid is accepted, by its index. -/
inductive PickStep : Picks → ℕ → Picks → Prop
  | accept {p : Picks} {i : ℕ} {bid : AgentBid} (hi : p.bids[i]? = some bid)
      (hpending : bid.status = .pending) : PickStep p i
        ⟨p.bids.set i { bid with status := .accepted }, p.winners ++ [bid.agent],
          p.total + bid.bidAmount⟩

/-- The steps in the life of a job, with what they take or leave. -/
inductive JobOp
  | post (budget : ℕ)
  | bid (b : AgentBid)
  | rebid (old b : AgentBid)
  | select (picks : List ℕ) (p : Picks) (fee : ℕ)
  | release (b : AgentBid) (payout : ℕ)
  | slash (b : AgentBid) (slashed : ℕ)
  | complete
  | cancel (bids : List AgentBid)

/-- One step in the life of a job, with the conditions under which it takes place. The contract itself, at
`this`, does not bid. -/
inductive JobStep (this : Address) : JobFile → JobOp → JobFile → Prop
  | post {budget : ℕ} :
      JobStep this JobFile.blank (.post budget)
        { JobFile.blank with posted := true, budget := budget }
  | bid {f : JobFile} {b : AgentBid} (hposted : f.posted = true) (hopen : f.status = .auctionOpen)
      (hother : b.agent ≠ this) (hnone : f.hasBid b.agent = false) (hpending : b.status = .pending)
      (hmin : MIN_BID_COLLATERAL ≤ b.collateralLocked) (hbudget : b.bidAmount ≤ f.budget) :
      JobStep this f (.bid b) { f with
        bids := f.bids ++ [b]
        hasBid := Function.update f.hasBid b.agent true
        bidCount := f.bidCount + 1 }
  | rebid {f : JobFile} {i : ℕ} {old b : AgentBid} (hposted : f.posted = true)
      (hopen : f.status = .auctionOpen) (hi : f.bids[i]? = some old) (hagent : b.agent = old.agent)
      (hpending : b.status = .pending) (hmin : MIN_BID_COLLATERAL ≤ b.collateralLocked)
      (hbudget : b.bidAmount ≤ f.budget) :
      JobStep this f (.rebid old b) { f with bids := f.bids.set i b }
  | select {f : JobFile} {picks : List ℕ} {p : Picks} {fee : ℕ} (hposted : f.posted = true)
      (hopen : f.status = .auctionOpen ∨ f.status = .biddingClosed)
      (hpicks : Path PickStep ⟨f.bids, f.winners, 0⟩ picks p) (hbudget : p.total ≤ f.budget)
      (hfee : fee ≤ p.total) :
      JobStep this f (.select picks p fee) { f with
        status := .auditingInProgress
        winners := p.winners
        escrow := p.total - fee
        fee := f.fee + fee
        bids := p.bids.map AgentBid.refund }
  | release {f : JobFile} {i payout : ℕ} {bid : AgentBid} (hposted : f.posted = true)
      (hprogress : f.status = .auditingInProgress ∨ f.status = .reportPending)
      (hunpaid : f.paid bid.agent = false) (hi : f.bids[i]? = some bid)
      (haccepted : bid.status = .accepted) (hle : payout ≤ f.escrow) :
      JobStep this f (.release bid payout) { f with
        escrow := f.escrow - payout
        payouts := f.payouts + payout
        bids := f.bids.set i { bid with collateralLocked := 0 }
        paid := Function.update f.paid bid.agent true
        paidCount := f.paidCount + 1 }
  | slash {f : JobFile} {i slashed : ℕ} {bid : AgentBid} (hposted : f.posted = true)
      (hprogress : f.status = .auditingInProgress ∨ f.status = .reportPending)
      (hunpaid : f.paid bid.agent = false) (hi : f.bids[i]? = some bid)
      (haccepted : bid.status = .accepted) (hle : slashed ≤ bid.collateralLocked) :
      JobStep this f (.slash bid slashed) { f with
        bids := f.bids.set i { bid with collateralLocked := 0, status := .refunded } }
  | complete {f : JobFile} (hposted : f.posted = true)
      (hprogress : f.status = .auditingInProgress ∨ f.status = .reportPending)
      (hcount : f.paidCount = f.winners.length) (hescrow : f.escrow = 0) :
      JobStep this f .complete { f with status := .completed }
  | cancel {f : JobFile} (hposted : f.posted = true) (hopen : f.status = .auctionOpen) :
      JobStep this f (.cancel f.bids) { f with
        status := .cancelled
        bids := f.bids.map AgentBid.refund }

/-! ## The invariant -/

/-- What holds of a bid for a job with the given status, budget and winners. -/
structure BidSound (status : JobStatus) (budget : ℕ) (winners : List Address) (b : AgentBid) :
    Prop where
  open_of_pending : b.status = .pending → status = .auctionOpen
  pending_of_open : status = .auctionOpen → b.status = .pending
  collateral_of_pending : b.status = .pending → MIN_BID_COLLATERAL ≤ b.collateralLocked
  amount_of_pending : b.status = .pending → b.bidAmount ≤ budget
  winner_of_accepted : b.status = .accepted → b.agent ∈ winners
  collateral_of_refunded : b.status = .refunded → b.collateralLocked = 0
  not_rejected : b.status ≠ .rejected

/-- The invariant of a job. -/
structure JobFile.Sound (this : Address) (f : JobFile) : Prop where
  nodup : (f.bids.map AgentBid.agent).Nodup
  hasBid_iff : ∀ a, f.hasBid a = true ↔ ∃ b ∈ f.bids, b.agent = a
  bidCount : f.bidCount = f.bids.length
  others : ∀ b ∈ f.bids, b.agent ≠ this
  phase : f.status = .auctionOpen ∨ f.status = .auditingInProgress ∨ f.status = .completed ∨
    f.status = .cancelled
  bid : ∀ b ∈ f.bids, BidSound f.status f.budget f.winners b
  early : f.status = .auctionOpen ∨ f.status = .cancelled → f.winners = [] ∧ f.escrow = 0
  winners_nodup : f.winners.Nodup
  winners_bid : ∀ a ∈ f.winners, ∃ b ∈ f.bids, b.agent = a
  paid : ∀ a, f.paid a = true → a ∈ f.winners ∧ ∀ b ∈ f.bids, b.agent = a → b.collateralLocked = 0
  paidCount : f.paidCount = (Finset.univ.filter fun a => f.paid a = true).card
  conserved : f.payouts + f.fee + f.escrow = winningAmount f.winners (f.bids.map AgentBid.offer)
  within : winningAmount f.winners (f.bids.map AgentBid.offer) ≤ f.budget
  completed : f.status = .completed → f.escrow = 0 ∧ ∀ a ∈ f.winners, f.paid a = true

variable {this : Address} {f f' : JobFile} {op : JobOp}

theorem offer_refund (bids : List AgentBid) :
    (bids.map AgentBid.refund).map AgentBid.offer = bids.map AgentBid.offer := by
  rw [List.map_map]
  refine List.map_congr_left fun b _ => ?_
  simp only [Function.comp_apply, AgentBid.refund]
  split_ifs <;> rfl

theorem agent_refund (bids : List AgentBid) :
    (bids.map AgentBid.refund).map AgentBid.agent = bids.map AgentBid.agent := by
  rw [List.map_map]
  refine List.map_congr_left fun b _ => ?_
  simp only [Function.comp_apply, AgentBid.refund]
  split_ifs <;> rfl

/-- Without winners nothing is to be paid. -/
theorem winningAmount_nil (offers : List (Address × ℕ)) : winningAmount [] offers = 0 := by
  refine List.sum_eq_zero fun x hx => ?_
  obtain ⟨offer, -, rfl⟩ := List.mem_map.mp hx
  exact if_neg List.not_mem_nil

theorem winningAmount_concat {winners : List Address} {bids : List AgentBid} {bid : AgentBid}
    (hnodup : (bids.map AgentBid.agent).Nodup) (hmem : bid ∈ bids) (hnew : bid.agent ∉ winners) :
    winningAmount (winners ++ [bid.agent]) (bids.map AgentBid.offer) =
      winningAmount winners (bids.map AgentBid.offer) + bid.bidAmount := by
  have hone := Keyed.sum_map_eq_key AgentBid.bidAmount hnodup hmem
  rw [← hone]
  unfold winningAmount
  rw [List.map_map, List.map_map, ← List.sum_map_add]
  congr 1
  refine List.map_congr_left fun b _ => ?_
  change (if b.agent ∈ winners ++ [bid.agent] then b.bidAmount else 0) =
    (if b.agent ∈ winners then b.bidAmount else 0) + if b.agent = bid.agent then b.bidAmount else 0
  rcases eq_or_ne b.agent bid.agent with heq | hne
  · rw [heq, if_pos (by simp), if_neg hnew, if_pos rfl, Nat.zero_add]
  · have hsame : b.agent ∈ winners ++ [bid.agent] ↔ b.agent ∈ winners := by simp [hne]
    rw [if_congr hsame rfl rfl, if_neg hne, Nat.add_zero]

/-! ## Picking the winners -/

/-- The invariant of the picks, from the bids of the file `f`. -/
structure Picks.Sound (f : JobFile) (p : Picks) : Prop where
  offers : p.bids.map AgentBid.offer = f.bids.map AgentBid.offer
  nodup : (p.bids.map AgentBid.agent).Nodup
  bid : ∀ b ∈ p.bids, b.status = .pending ∧ b.agent ∉ p.winners ∨
    b.status = .accepted ∧ b.agent ∈ p.winners
  winners_nodup : p.winners.Nodup
  winners_bid : ∀ a ∈ p.winners, ∃ b ∈ p.bids, b.agent = a
  total : p.total = winningAmount p.winners (p.bids.map AgentBid.offer)

/-- Accepting a bid keeps the invariant of the picks. -/
theorem Picks.Sound.step {p p' : Picks} {i : ℕ} (h : p.Sound f) (hstep : PickStep p i p') :
    p'.Sound f := by
  cases hstep with
  | @accept bid hi hpending =>
    have hmem := List.mem_of_getElem? hi
    have hnew : bid.agent ∉ p.winners := by
      rcases h.bid bid hmem with ⟨-, hnot⟩ | ⟨haccepted, -⟩
      · exact hnot
      · rw [hpending] at haccepted
        cases haccepted
    -- The accepted bid has the agent and the amount of the pending one.
    have hoffers : (p.bids.set i { bid with status := .accepted }).map AgentBid.offer =
        p.bids.map AgentBid.offer := Keyed.map_set hi rfl
    have hagents : (p.bids.set i { bid with status := .accepted }).map AgentBid.agent =
        p.bids.map AgentBid.agent := Keyed.map_set hi rfl
    have hset : ∀ c, c ∈ p.bids.set i { bid with status := .accepted } ↔
        c = { bid with status := .accepted } ∨ c ∈ p.bids ∧ c.agent ≠ bid.agent :=
      fun c => Keyed.mem_set_iff h.nodup hi
    constructor
    case offers => exact hoffers.trans h.offers
    case nodup =>
      rw [hagents]
      exact h.nodup
    case bid =>
      intro b hb
      rcases (hset b).mp hb with rfl | ⟨hb, hne⟩
      · exact .inr ⟨rfl, by simp⟩
      · rcases h.bid b hb with ⟨hb, hnot⟩ | ⟨hb, hin⟩
        · exact .inl ⟨hb, by simp [hnot, hne]⟩
        · exact .inr ⟨hb, List.mem_append_left _ hin⟩
    case winners_nodup =>
      rw [List.nodup_append]
      refine ⟨h.winners_nodup, List.nodup_singleton _, ?_⟩
      intro a ha a' ha' heq
      rw [List.mem_singleton] at ha'
      rw [heq, ha'] at ha
      exact hnew ha
    case winners_bid =>
      intro a ha
      rcases List.mem_append.mp ha with ha | ha
      · obtain ⟨b, hb, rfl⟩ := h.winners_bid a ha
        refine ⟨b, (hset b).mpr (.inr ⟨hb, ?_⟩), rfl⟩
        intro heq
        rw [heq] at ha
        exact hnew ha
      · rw [List.mem_singleton] at ha
        exact ⟨_, (hset _).mpr (.inl rfl), ha.symm⟩
    case total =>
      dsimp only
      rw [hoffers, winningAmount_concat h.nodup hmem hnew, h.total]

/-- Before the first pick nobody has won. -/
theorem JobFile.Sound.picks (h : f.Sound this) (hopen : f.status = .auctionOpen) :
    Picks.Sound f ⟨f.bids, f.winners, 0⟩ := by
  obtain ⟨hwinners, -⟩ := h.early (.inl hopen)
  rw [hwinners]
  constructor
  case offers => rfl
  case nodup => exact h.nodup
  case bid =>
    intro b hb
    exact .inl ⟨(h.bid b hb).pending_of_open hopen, List.not_mem_nil⟩
  case winners_nodup => exact List.nodup_nil
  case winners_bid =>
    intro a ha
    cases ha
  case total => exact (winningAmount_nil _).symm

/-! ## Every step keeps the invariant -/

theorem JobFile.sound_blank (this : Address) : JobFile.blank.Sound this := by
  constructor <;> simp [JobFile.blank, winningAmount]

namespace JobFile.Sound

/-- A submitted bid. -/
theorem submit (h : f.Sound this) {b : AgentBid} (hopen : f.status = .auctionOpen)
    (hother : b.agent ≠ this) (hnone : f.hasBid b.agent = false) (hpending : b.status = .pending)
    (hmin : MIN_BID_COLLATERAL ≤ b.collateralLocked) (hbudget : b.bidAmount ≤ f.budget) :
    Sound this { f with
      bids := f.bids ++ [b]
      hasBid := Function.update f.hasBid b.agent true
      bidCount := f.bidCount + 1 } := by
  obtain ⟨hwinners, -⟩ := h.early (.inl hopen)
  -- Nobody has won yet, so that nobody is paid.
  have hunpaid : ∀ a, f.paid a ≠ true := by
    intro a ha
    have hmem := (h.paid a ha).1
    rw [hwinners] at hmem
    cases hmem
  -- The flag says that the agent has no other bid.
  have hfirst : ∀ c ∈ f.bids, c.agent ≠ b.agent := by
    intro c hc heq
    have hbidder := (h.hasBid_iff b.agent).mpr ⟨c, hc, heq⟩
    rw [hnone] at hbidder
    cases hbidder
  constructor
  case nodup =>
    change ((f.bids ++ [b]).map AgentBid.agent).Nodup
    rw [List.map_append, List.nodup_append]
    refine ⟨h.nodup, by simp, ?_⟩
    intro a ha a' ha' heq
    obtain ⟨c, hc, rfl⟩ := List.mem_map.mp ha
    obtain ⟨d, hd, rfl⟩ := List.mem_map.mp ha'
    rw [List.mem_singleton.mp hd] at heq
    exact hfirst c hc heq
  case hasBid_iff =>
    intro a
    dsimp only
    rcases eq_or_ne a b.agent with rfl | hne
    · rw [Function.update_self]
      exact iff_of_true rfl ⟨b, by simp, rfl⟩
    · rw [Function.update_of_ne hne, h.hasBid_iff a]
      constructor
      · rintro ⟨c, hc, rfl⟩
        exact ⟨c, List.mem_append_left _ hc, rfl⟩
      · rintro ⟨c, hc, rfl⟩
        rcases List.mem_append.mp hc with hc | hc
        · exact ⟨c, hc, rfl⟩
        · rw [List.mem_singleton.mp hc] at hne
          exact absurd rfl hne
  case bidCount =>
    dsimp only
    rw [h.bidCount, List.length_append, List.length_singleton]
  case others =>
    intro c hc
    rcases List.mem_append.mp hc with hc | hc
    · exact h.others c hc
    · rw [List.mem_singleton.mp hc]
      exact hother
  case phase => exact h.phase
  case bid =>
    intro c hc
    rcases List.mem_append.mp hc with hc | hc
    · exact h.bid c hc
    · rw [List.mem_singleton.mp hc]
      constructor <;> simp [hopen, hpending, hmin, hbudget]
  case early => exact h.early
  case winners_nodup => exact h.winners_nodup
  case winners_bid =>
    intro a ha
    rw [show f.winners = [] from hwinners] at ha
    cases ha
  case paid =>
    intro a ha
    exact absurd ha (hunpaid a)
  case paidCount => exact h.paidCount
  case conserved =>
    have hconserved := h.conserved
    dsimp only
    rw [hwinners, winningAmount_nil] at hconserved ⊢
    exact hconserved
  case within =>
    dsimp only
    rw [hwinners, winningAmount_nil]
    exact Nat.zero_le _
  case completed => exact h.completed

/-- Bids of the same agents have the same bidders. -/
theorem bidders_congr {bids bids' : List AgentBid}
    (h : bids'.map AgentBid.agent = bids.map AgentBid.agent) (a : Address) :
    (∃ c ∈ bids', c.agent = a) ↔ ∃ c ∈ bids, c.agent = a := by
  have hmem := congrArg (a ∈ ·) h
  simpa only [List.mem_map, eq_iff_iff] using hmem

/-- A bid in the place of another one of its agent. The other bids stay as they are. -/
theorem replace_bid (h : f.Sound this) {i : ℕ} {old b : AgentBid} (hi : f.bids[i]? = some old)
    (hagent : b.agent = old.agent) (hbid : BidSound f.status f.budget f.winners b)
    (hpaid : f.paid old.agent = true → b.collateralLocked = 0)
    (hamount : winningAmount f.winners ((f.bids.set i b).map AgentBid.offer) =
      winningAmount f.winners (f.bids.map AgentBid.offer)) :
    Sound this { f with bids := f.bids.set i b } := by
  -- The bids are the new one and those of the others.
  have hset : ∀ c, c ∈ f.bids.set i b ↔ c = b ∨ c ∈ f.bids ∧ c.agent ≠ old.agent :=
    fun c => Keyed.mem_set_iff h.nodup hi
  have hagents : (f.bids.set i b).map AgentBid.agent = f.bids.map AgentBid.agent :=
    Keyed.map_set hi hagent
  constructor
  case nodup =>
    rw [hagents]
    exact h.nodup
  case hasBid_iff =>
    intro a
    rw [bidders_congr hagents a]
    exact h.hasBid_iff a
  case bidCount =>
    dsimp only
    rw [List.length_set]
    exact h.bidCount
  case others =>
    intro c hc
    rcases (hset c).mp hc with rfl | ⟨hc, -⟩
    · rw [hagent]
      exact h.others old (List.mem_of_getElem? hi)
    · exact h.others c hc
  case phase => exact h.phase
  case bid =>
    intro c hc
    rcases (hset c).mp hc with rfl | ⟨hc, -⟩
    · exact hbid
    · exact h.bid c hc
  case early => exact h.early
  case winners_nodup => exact h.winners_nodup
  case winners_bid =>
    intro a ha
    rw [bidders_congr hagents a]
    exact h.winners_bid a ha
  case paid =>
    intro a ha
    obtain ⟨hwinner, hzero⟩ := h.paid a ha
    refine ⟨hwinner, fun c hc hca => ?_⟩
    rcases (hset c).mp hc with rfl | ⟨hc, -⟩
    · rw [← hca, hagent] at ha
      exact hpaid ha
    · exact hzero c hc hca
  case paidCount => exact h.paidCount
  case conserved =>
    dsimp only
    rw [hamount]
    exact h.conserved
  case within =>
    dsimp only
    rw [hamount]
    exact h.within
  case completed => exact h.completed

/-- A bid that replaces the agent's own. -/
theorem resubmit (h : f.Sound this) {i : ℕ} {old b : AgentBid} (hopen : f.status = .auctionOpen)
    (hi : f.bids[i]? = some old) (hagent : b.agent = old.agent) (hpending : b.status = .pending)
    (hmin : MIN_BID_COLLATERAL ≤ b.collateralLocked) (hbudget : b.bidAmount ≤ f.budget) :
    Sound this { f with bids := f.bids.set i b } := by
  obtain ⟨hwinners, -⟩ := h.early (.inl hopen)
  refine h.replace_bid hi hagent ?_ ?_ ?_
  · constructor <;> simp [hopen, hpending, hmin, hbudget]
  · -- Nobody has won yet, so that nobody is paid.
    intro hpaid
    have hwinner := (h.paid _ hpaid).1
    rw [hwinners] at hwinner
    cases hwinner
  · rw [hwinners, winningAmount_nil, winningAmount_nil]

/-- Bidding is never closed by itself. -/
theorem isOpen (h : f.Sound this)
    (hopen : f.status = .auctionOpen ∨ f.status = .biddingClosed) : f.status = .auctionOpen := by
  rcases hopen with hopen | hclosed
  · exact hopen
  · rcases h.phase with hphase | hphase | hphase | hphase <;> rw [hclosed] at hphase <;> cases hphase

/-- No report is ever pending. -/
theorem inProgress (h : f.Sound this)
    (hprogress : f.status = .auditingInProgress ∨ f.status = .reportPending) :
    f.status = .auditingInProgress := by
  rcases hprogress with hprogress | hprogress
  · exact hprogress
  · rcases h.phase with hphase | hphase | hphase | hphase <;> rw [hprogress] at hphase <;> cases hphase

/-- An accepted bid that loses its collateral, by payment or by slash. The other bids stay as they are. -/
theorem settle_bid (h : f.Sound this) {i : ℕ} {bid b : AgentBid}
    (hprogress : f.status = .auditingInProgress) (hi : f.bids[i]? = some bid)
    (haccepted : bid.status = .accepted) (hagent : b.agent = bid.agent)
    (hamount : b.bidAmount = bid.bidAmount) (hcollateral : b.collateralLocked = 0)
    (hstatus : b.status = .accepted ∨ b.status = .refunded) :
    Sound this { f with bids := f.bids.set i b } := by
  have hwinner := (h.bid bid (List.mem_of_getElem? hi)).winner_of_accepted haccepted
  -- What was offered stays as it is, and so does the winning amount.
  have hoffers : (f.bids.set i b).map AgentBid.offer = f.bids.map AgentBid.offer := by
    refine Keyed.map_set hi ?_
    rw [AgentBid.offer, AgentBid.offer, hagent, hamount]
  refine h.replace_bid hi hagent ?_ (fun _ => hcollateral) (by rw [hoffers])
  rw [hprogress]
  rcases hstatus with hstatus | hstatus
  · constructor <;> simp [hstatus, hagent, hwinner]
  · constructor <;> simp [hstatus, hcollateral]

/-- A payment to a winner, whose collateral is back. -/
theorem payout (h : f.Sound this) {a : Address} {x : ℕ} (hprogress : f.status = .auditingInProgress)
    (hwinner : a ∈ f.winners) (hunpaid : f.paid a = false)
    (hzero : ∀ b ∈ f.bids, b.agent = a → b.collateralLocked = 0) (hle : x ≤ f.escrow) :
    Sound this { f with
      escrow := f.escrow - x
      payouts := f.payouts + x
      paid := Function.update f.paid a true
      paidCount := f.paidCount + 1 } := by
  constructor
  case nodup => exact h.nodup
  case hasBid_iff => exact h.hasBid_iff
  case bidCount => exact h.bidCount
  case others => exact h.others
  case phase => exact h.phase
  case bid => exact h.bid
  case early =>
    intro hearly
    rw [show f.status = .auditingInProgress from hprogress] at hearly
    rcases hearly with hearly | hearly <;> cases hearly
  case winners_nodup => exact h.winners_nodup
  case winners_bid => exact h.winners_bid
  case paid =>
    intro c hc
    rcases eq_or_ne c a with rfl | hne
    · exact ⟨hwinner, hzero⟩
    · dsimp only at hc
      rw [Function.update_of_ne hne] at hc
      exact h.paid c hc
  case paidCount =>
    have hcount := h.paidCount
    -- One more agent is marked as paid.
    have hfilter : (Finset.univ.filter fun c => Function.update f.paid a true c = true) =
        insert a (Finset.univ.filter fun c => f.paid c = true) := by
      ext c
      simp only [Finset.mem_filter, Finset.mem_univ, true_and, Finset.mem_insert]
      rcases eq_or_ne c a with rfl | hne
      · simp
      · simp [hne]
    dsimp only
    rw [hfilter, Finset.card_insert_of_notMem (by simp [hunpaid]), hcount]
  case conserved =>
    have hconserved := h.conserved
    dsimp only
    omega
  case within => exact h.within
  case completed =>
    intro hcompleted
    rw [show f.status = .auditingInProgress from hprogress] at hcompleted
    cases hcompleted

/-- The refund of all pending bids, which ends the auction. -/
theorem end_auction (h : f.Sound this) (hopen : f.status = .auctionOpen) {p : Picks} {x : ℕ}
    {status : JobStatus} (hp : p.Sound f) (hbudget : p.total ≤ f.budget) (hx : x ≤ p.total)
    (hstatus : status = .auditingInProgress ∨
      status = .cancelled ∧ p.winners = [] ∧ p.total = 0) :
    Sound this { f with
      status := status
      winners := p.winners
      escrow := p.total - x
      fee := f.fee + x
      bids := p.bids.map AgentBid.refund } := by
  obtain ⟨hwinners, hescrow⟩ := h.early (.inl hopen)
  -- Neither the picks nor the refunds change who bid.
  have hagents : (p.bids.map AgentBid.refund).map AgentBid.agent = f.bids.map AgentBid.agent := by
    rw [agent_refund]
    have hfst := congrArg (List.map Prod.fst) hp.offers
    rw [List.map_map, List.map_map] at hfst
    exact hfst
  have hended : status ≠ .auctionOpen ∧ status ≠ .completed := by
    rcases hstatus with rfl | ⟨rfl, -⟩ <;> simp
  constructor
  case nodup =>
    rw [hagents]
    exact h.nodup
  case hasBid_iff =>
    intro a
    rw [bidders_congr hagents a]
    exact h.hasBid_iff a
  case bidCount =>
    have hlength := congrArg List.length hagents
    rw [List.length_map, List.length_map AgentBid.agent] at hlength
    exact h.bidCount.trans hlength.symm
  case others =>
    intro b hb
    obtain ⟨c, hc, heq⟩ := (bidders_congr hagents b.agent).mp ⟨b, hb, rfl⟩
    rw [← heq]
    exact h.others c hc
  case phase => rcases hstatus with rfl | ⟨rfl, -⟩ <;> simp
  case bid =>
    intro b hb
    obtain ⟨c, hc, rfl⟩ := List.mem_map.mp hb
    -- A bid is pending and refunded, or accepted and kept.
    rcases hp.bid c hc with ⟨hpending, -⟩ | ⟨haccepted, hwinner⟩
    · unfold AgentBid.refund
      rw [if_pos hpending]
      constructor <;> simp [hended.1]
    · have hkept : c.refund = c := by
        unfold AgentBid.refund
        rw [haccepted]
        rfl
      rw [hkept]
      constructor <;> simp [haccepted, hwinner, hended.1]
  case early =>
    dsimp only
    rintro (hearly | hearly)
    · exact absurd hearly hended.1
    · rcases hstatus with rfl | ⟨-, hnone, hzero⟩
      · cases hearly
      · exact ⟨hnone, by rw [hzero, Nat.zero_sub]⟩
  case winners_nodup => exact hp.winners_nodup
  case winners_bid =>
    intro a ha
    rw [bidders_congr hagents a, ← bidders_congr (agent_refund p.bids ▸ hagents) a]
    exact hp.winners_bid a ha
  case paid =>
    intro a ha
    have hwinner := (h.paid a ha).1
    rw [hwinners] at hwinner
    cases hwinner
  case paidCount => exact h.paidCount
  case conserved =>
    have hconserved := h.conserved
    have htotal := hp.total
    rw [hwinners, winningAmount_nil] at hconserved
    dsimp only
    rw [offer_refund]
    omega
  case within =>
    have htotal := hp.total
    dsimp only
    rw [offer_refund]
    omega
  case completed => exact fun hcompleted => absurd hcompleted hended.2

/-- The completion of a job of which all winners are paid. -/
theorem close (h : f.Sound this) (hprogress : f.status = .auditingInProgress)
    (hcount : f.paidCount = f.winners.length) (hescrow : f.escrow = 0) :
    Sound this { f with status := .completed } := by
  -- The paid agents are winners, and there are as many of them.
  have hpaid : (Finset.univ.filter fun a => f.paid a = true) = f.winners.toFinset := by
    refine Finset.eq_of_subset_of_card_le ?_ ?_
    · intro a ha
      rw [Finset.mem_filter] at ha
      exact List.mem_toFinset.mpr (h.paid a ha.2).1
    · rw [List.toFinset_card_of_nodup h.winners_nodup, ← hcount, h.paidCount]
  constructor
  case nodup => exact h.nodup
  case hasBid_iff => exact h.hasBid_iff
  case bidCount => exact h.bidCount
  case others => exact h.others
  case phase => exact .inr (.inr (.inl rfl))
  case bid =>
    intro b hb
    have hbid := h.bid b hb
    have hnot : b.status ≠ .pending := by
      intro hpending
      have hopen := hbid.open_of_pending hpending
      rw [hprogress] at hopen
      cases hopen
    exact ⟨fun hpending => absurd hpending hnot, fun hopen => (nomatch hopen),
      hbid.collateral_of_pending, hbid.amount_of_pending, hbid.winner_of_accepted,
      hbid.collateral_of_refunded, hbid.not_rejected⟩
  case early => rintro (hearly | hearly) <;> cases hearly
  case winners_nodup => exact h.winners_nodup
  case winners_bid => exact h.winners_bid
  case paid => exact h.paid
  case paidCount => exact h.paidCount
  case conserved => exact h.conserved
  case within => exact h.within
  case completed =>
    intro _
    refine ⟨hescrow, fun a ha => ?_⟩
    have hmem := List.mem_toFinset.mpr ha
    rw [← hpaid, Finset.mem_filter] at hmem
    exact hmem.2

/-- Every step keeps the invariant. -/
theorem step (h : f.Sound this) (hstep : JobStep this f op f') : f'.Sound this := by
  cases hstep with
  | post =>
    constructor <;> simp [JobFile.blank, winningAmount]
  | bid hposted hopen hother hnone hpending hmin hbudget =>
    exact h.submit hopen hother hnone hpending hmin hbudget
  | rebid hposted hopen hi hagent hpending hmin hbudget =>
    exact h.resubmit hopen hi hagent hpending hmin hbudget
  | @select _ _ p _ hposted hopen hpicks hbudget hfee =>
    have hopen := h.isOpen hopen
    -- The loop over the picks keeps its own invariant.
    have hp : p.Sound f := hpicks.induct (fun _ _ _ hp hstep => hp.step hstep) (h.picks hopen)
    exact h.end_auction hopen hp hbudget hfee (.inl rfl)
  | @release _ i _ bid hposted hprogress hunpaid hi haccepted hle =>
    have hwinner := (h.bid bid (List.mem_of_getElem? hi)).winner_of_accepted haccepted
    -- A payment is two changes: the collateral goes back, and the winner is marked as paid.
    have hsettled := h.settle_bid (h.inProgress hprogress) hi haccepted
      (b := { bid with collateralLocked := 0 }) rfl rfl rfl (.inl haccepted)
    refine hsettled.payout (h.inProgress hprogress) hwinner hunpaid ?_ hle
    intro c hc hca
    rcases (Keyed.mem_set_iff h.nodup hi).mp hc with rfl | ⟨-, hne⟩
    · rfl
    · exact absurd hca hne
  | slash hposted hprogress hunpaid hi haccepted hle =>
    exact h.settle_bid (h.inProgress hprogress) hi haccepted rfl rfl rfl (.inr rfl)
  | complete hposted hprogress hcount hescrow =>
    exact h.close (h.inProgress hprogress) hcount hescrow
  | cancel hposted hopen =>
    obtain ⟨hwinners, hescrow⟩ := h.early (.inl hopen)
    -- A cancellation is an end of the auction at which nobody is picked.
    have hended := h.end_auction (p := ⟨f.bids, f.winners, 0⟩) (x := 0) hopen (h.picks hopen)
      (Nat.zero_le _) le_rfl (.inr ⟨rfl, hwinners, rfl⟩)
    have hsame : { f with status := .cancelled, bids := f.bids.map AgentBid.refund } = { f with
        status := .cancelled
        escrow := 0
        bids := f.bids.map AgentBid.refund } := by rw [hescrow]
    rw [hsame]
    exact hended

theorem ended (h : f.Sound this) (hended : f.status = .completed ∨ f.status = .cancelled) :
    (∀ b ∈ f.bids, b.collateralLocked = 0) ∧ f.escrow = 0 := by
  have hnotOpen : f.status ≠ .auctionOpen := by
    rcases hended with hended | hended <;> rw [hended] <;> simp
  refine ⟨fun b hb => ?_, ?_⟩
  · have hbid := h.bid b hb
    cases hstatus : b.status with
    | pending => exact absurd (hbid.open_of_pending hstatus) hnotOpen
    | refunded => exact hbid.collateral_of_refunded hstatus
    | rejected => exact absurd hstatus hbid.not_rejected
    | accepted =>
      have hwinner := hbid.winner_of_accepted hstatus
      rcases hended with hended | hended
      · exact (h.paid b.agent ((h.completed hended).2 b.agent hwinner)).2 b hb rfl
      · rw [(h.early (.inr hended)).1] at hwinner
        cases hwinner
  · rcases hended with hended | hended
    · exact (h.completed hended).1
    · exact (h.early (.inr hended)).2

end JobFile.Sound

end AuditGuard.AuditAuction
