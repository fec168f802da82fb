import AuditGuard.AgentRegistry.Model
import AuditGuard.AuditAuction.Lifecycle
import AuditGuard.Library.InsertionSort

/-!
# AuditAuction: the ranking of bids

`calculateBidScore` weighs reputation, price, speed and tier, and `rankBids` sorts the bids by their scores. A job
has a budget above zero and no bid above its budget, so that the scores do not revert. The ranking is then a
permutation of the bids, the highest score first, in which bids with the same score stay in the order in which
they were submitted.
-/

namespace AuditGuard.AuditAuction

open Evm TransitionSystem
open AgentRegistry (AgentTier)

/-- The estimated completion time, in seconds, from which on speed counts nothing. -/
def MAX_SPEED_TIME : ℕ := 86400

/-- `a / b`, which panics where `b` is zero. -/
def checkedDiv (a b : ℕ) : Tx ℕ := if b = 0 then .error .overflow else .ok (a / b)

/-- The bonus of a tier. -/
def tierBonus : AgentTier → ℕ
  | .specialized => 250
  | .premium => 500
  | _ => 0

/-- `calculateBidScore`, where the agent registry has the tiers `getAgentTier`. -/
def calculateBidScore (env : Env) (getAgentTier : Address → AgentTier) (jobId bidIndex : ℕ) (s : State) :
    Tx ℕ := do
  let job := s.jobs jobId
  require (job.jobId ≠ 0) "AuditAuction: job does not exist"
  require (bidIndex < (s.jobBids jobId).length) "AuditAuction: invalid bid index"
  let bid := (s.jobBids jobId).getD bidIndex AgentBid.zero
  let weightedReputation ← checkedMul 256 bid.reputationAtBid 55
  let reputationComponent := weightedReputation / 100
  let saving ← checkedSub job.budgetAvailable bid.bidAmount
  let saving ← checkedMul 256 saving 25
  let saving ← checkedMul 256 saving 100
  let priceComponent ← checkedDiv saving job.budgetAvailable
  let cappedEta := if MAX_SPEED_TIME < bid.estimatedCompletionTime then MAX_SPEED_TIME
    else bid.estimatedCompletionTime
  let early ← checkedSub MAX_SPEED_TIME cappedEta
  let early ← checkedMul 256 early 15
  let early ← checkedMul 256 early 100
  let speedComponent ← checkedDiv early MAX_SPEED_TIME
  readRegistry env s
  let score ← checkedAdd 256 reputationComponent priceComponent
  let score ← checkedAdd 256 score speedComponent
  checkedAdd 256 score (tierBonus (getAgentTier bid.agent))

/-- `rankBids`. The loops are those of `InsertionSort.sort`, on the array of the indices. -/
def rankBids (env : Env) (getAgentTier : Address → AgentTier) (jobId : ℕ) (s : State) : Tx (List ℕ) := do
  require ((s.jobs jobId).jobId ≠ 0) "AuditAuction: job does not exist"
  InsertionSort.sort (fun bidIndex => calculateBidScore env getAgentTier jobId bidIndex s)
    (List.range (s.jobBids jobId).length)

/-- The score of a bid of an agent with the tier, for a job with the budget. -/
def bidScore (budget : ℕ) (tier : AgentTier) (bid : AgentBid) : ℕ :=
  bid.reputationAtBid * 55 / 100 + (budget - bid.bidAmount) * 25 * 100 / budget +
    (MAX_SPEED_TIME - min bid.estimatedCompletionTime MAX_SPEED_TIME) * 15 * 100 / MAX_SPEED_TIME + tierBonus tier

/-- What a bid has to be to have a score, for a job with the budget. -/
structure Scorable (budget : ℕ) (bid : AgentBid) : Prop where
  pos : 0 < budget
  amount : bid.bidAmount ≤ budget
  fits : budget * 2500 < 2^256
  reputation : bid.reputationAtBid ≤ 10000

variable {this : Address} {env : Env} {getAgentTier : Address → AgentTier} {jobId bidIndex budget : ℕ}
  {s : State} {w w' : World State} {bid : AgentBid} {tier : AgentTier}

/-! ## The score -/

theorem checkedDiv_of_pos {a b : ℕ} (h : 0 < b) : checkedDiv a b = .ok (a / b) := if_neg h.ne'

theorem checkedDiv_eq_ok {a b n : ℕ} : checkedDiv a b = .ok n ↔ 0 < b ∧ a / b = n := by
  unfold checkedDiv
  split_ifs with h
  · simp [h]
  · simp [Nat.pos_of_ne_zero h]

theorem cappedEta_eq (eta : ℕ) :
    (if MAX_SPEED_TIME < eta then MAX_SPEED_TIME else eta) = min eta MAX_SPEED_TIME := by
  split_ifs with h
  · exact (min_eq_right h.le).symm
  · exact (min_eq_left (not_lt.mp h)).symm

theorem tierBonus_le (tier : AgentTier) : tierBonus tier ≤ 500 := by
  cases tier <;> decide

theorem part_le {part whole weight : ℕ} (h : part ≤ whole) : part * weight / whole ≤ weight :=
  Nat.div_le_of_le_mul (Nat.mul_le_mul_right weight h)

theorem bidScore_le (h : Scorable budget bid) : bidScore budget tier bid ≤ 10000 := by
  have hreputation : bid.reputationAtBid * 55 / 100 ≤ 5500 := by
    have hle := h.reputation
    omega
  have hprice : (budget - bid.bidAmount) * 25 * 100 / budget ≤ 2500 := by
    rw [Nat.mul_assoc]
    exact part_le (Nat.sub_le _ _)
  have hspeed : (MAX_SPEED_TIME - min bid.estimatedCompletionTime MAX_SPEED_TIME) * 15 * 100 / MAX_SPEED_TIME ≤
      1500 := by
    rw [Nat.mul_assoc]
    exact part_le (Nat.sub_le _ _)
  have htier := tierBonus_le tier
  unfold bidScore
  omega

theorem calculateBidScore_of_scorable (hexists : (s.jobs jobId).jobId ≠ 0)
    (hreads : readRegistry env s = .ok ()) (hbid : (s.jobBids jobId)[bidIndex]? = some bid)
    (h : Scorable (s.jobs jobId).budgetAvailable bid) :
    calculateBidScore env getAgentTier jobId bidIndex s =
      .ok (bidScore (s.jobs jobId).budgetAvailable (getAgentTier bid.agent) bid) := by
  obtain ⟨hlt, -⟩ := List.getElem?_eq_some_iff.mp hbid
  have hget : (s.jobBids jobId).getD bidIndex AgentBid.zero = bid := by
    rw [List.getD_eq_getElem?_getD, hbid]
    rfl
  have hscore := @bidScore_le _ _ (getAgentTier bid.agent) h
  obtain ⟨hpos, hamount, hfits, hreputation⟩ := h
  have hsaving : (s.jobs jobId).budgetAvailable - bid.bidAmount ≤ (s.jobs jobId).budgetAvailable := Nat.sub_le _ _
  have hearly : MAX_SPEED_TIME - min bid.estimatedCompletionTime MAX_SPEED_TIME ≤ MAX_SPEED_TIME := Nat.sub_le _ _
  have hmax : MAX_SPEED_TIME = 86400 := rfl
  have hsmall : ∀ {n : ℕ}, n ≤ 10000 → n < 2^256 := fun h => h.trans_lt (by decide)
  unfold bidScore at hscore
  simp only [calculateBidScore, bind_eq_ok, require_eq_ok, hget, cappedEta_eq]
  exact ⟨(), hexists, (), hlt, _, checkedMul_of_lt (by omega), _, checkedSub_of_le hamount, _,
    checkedMul_of_lt (by omega), _, checkedMul_of_lt (by omega), _, checkedDiv_of_pos hpos, _,
    checkedSub_of_le (min_le_right _ _), _, checkedMul_of_lt (by omega), _, checkedMul_of_lt (by omega), _,
    checkedDiv_of_pos (by decide), (), hreads,
    _, checkedAdd_of_lt (hsmall ((Nat.le_add_right _ _).trans ((Nat.le_add_right _ _).trans hscore))),
    _, checkedAdd_of_lt (hsmall ((Nat.le_add_right _ _).trans hscore)), checkedAdd_of_lt (hsmall hscore)⟩

theorem calculateBidScore_ok {score : ℕ} (hbid : (s.jobBids jobId)[bidIndex]? = some bid)
    (h : calculateBidScore env getAgentTier jobId bidIndex s = .ok score) :
    bid.bidAmount ≤ (s.jobs jobId).budgetAvailable ∧
      score = bidScore (s.jobs jobId).budgetAvailable (getAgentTier bid.agent) bid := by
  have hget : (s.jobBids jobId).getD bidIndex AgentBid.zero = bid := by
    rw [List.getD_eq_getElem?_getD, hbid]
    rfl
  simp only [calculateBidScore, bind_eq_ok, hget, cappedEta_eq, checkedMul_eq_ok, checkedSub_eq_ok,
    checkedDiv_eq_ok, checkedAdd_eq_ok] at h
  obtain ⟨_, -, _, -, _, ⟨-, rfl⟩, _, ⟨hamount, rfl⟩, _, ⟨-, rfl⟩, _, ⟨-, rfl⟩, _, ⟨-, rfl⟩, _, ⟨-, rfl⟩, _,
    ⟨-, rfl⟩, _, ⟨-, rfl⟩, _, ⟨-, rfl⟩, _, -, _, ⟨-, rfl⟩, _, ⟨-, rfl⟩, -, rfl⟩ := h
  exact ⟨hamount, rfl⟩

/-- The bid has at least the reputation of the other one, at most its amount and at most its time. -/
structure AsGood (bid other : AgentBid) : Prop where
  reputation : other.reputationAtBid ≤ bid.reputationAtBid
  amount : bid.bidAmount ≤ other.bidAmount
  eta : bid.estimatedCompletionTime ≤ other.estimatedCompletionTime

theorem bidScore_mono {other : AgentBid} (h : AsGood bid other) :
    bidScore budget tier other ≤ bidScore budget tier bid := by
  obtain ⟨hreputation, hamount, heta⟩ := h
  unfold bidScore
  gcongr

/-! ## The bids of a job -/

/-- What holds of a job: it has a budget, and no bid is above it. -/
structure JobFile.Priced (f : JobFile) : Prop where
  budget : f.posted = true → 0 < f.budget
  amount : ∀ b ∈ f.bids, b.bidAmount ≤ f.budget

theorem amount_le_of_mem_set {bids : List AgentBid} {i : ℕ} (hbids : ∀ b ∈ bids, b.bidAmount ≤ budget)
    (hbid : bid.bidAmount ≤ budget) : ∀ b ∈ bids.set i bid, b.bidAmount ≤ budget := by
  intro b hb
  rcases List.mem_or_eq_of_mem_set hb with hb | rfl
  · exact hbids b hb
  · exact hbid

theorem amount_le_of_offers {bids bids' : List AgentBid}
    (hoffers : bids'.map AgentBid.offer = bids.map AgentBid.offer) (hbids : ∀ b ∈ bids, b.bidAmount ≤ budget) :
    ∀ b ∈ bids', b.bidAmount ≤ budget := by
  intro b hb
  have hmem : b.offer ∈ bids.map AgentBid.offer := hoffers ▸ List.mem_map_of_mem hb
  obtain ⟨b', hb', heq⟩ := List.mem_map.mp hmem
  have hamount : b'.bidAmount = b.bidAmount := congrArg Prod.snd heq
  rw [← hamount]
  exact hbids b' hb'

theorem JobStep.priced {f f' : JobFile} {op : JobOp} (hsound : f.Sound this) (hf : f.Priced)
    (hpost : ∀ budget, op = .post budget → 0 < budget) (h : JobStep this f op f') : f'.Priced := by
  obtain ⟨hbudget, hamount⟩ := hf
  cases h with
  | post => exact ⟨fun _ => hpost _ rfl, fun b hb => absurd hb List.not_mem_nil⟩
  | @bid _ b hposted hopen hother hnone hpending hmin hle =>
    refine ⟨hbudget, fun b' hb' => ?_⟩
    rcases List.mem_append.mp hb' with hb' | hb'
    · exact hamount b' hb'
    · rw [List.mem_singleton.mp hb']
      exact hle
  | rebid hposted hopen hi hagent hpending hmin hle => exact ⟨hbudget, amount_le_of_mem_set hamount hle⟩
  | @select _ picks p fee hposted hopen hpicks hle hfee =>
    have hp : p.Sound f :=
      hpicks.induct (fun _ _ _ hp hstep => hp.step hstep) (hsound.picks (hsound.isOpen hopen))
    exact ⟨hbudget, amount_le_of_offers ((offer_refund _).trans hp.offers) hamount⟩
  | @release _ i payout bid hposted hprogress hunpaid hi =>
    have hle : bid.bidAmount ≤ f.budget := hamount bid (List.mem_of_getElem? hi)
    exact ⟨hbudget, amount_le_of_mem_set hamount hle⟩
  | @slash _ i slashed bid hposted hprogress hunpaid hi =>
    have hle : bid.bidAmount ≤ f.budget := hamount bid (List.mem_of_getElem? hi)
    exact ⟨hbudget, amount_le_of_mem_set hamount hle⟩
  | complete => exact ⟨hbudget, hamount⟩
  | cancel => exact ⟨hbudget, amount_le_of_offers (offer_refund _) hamount⟩

theorem BookStep.priced {b b' : Books} {op : BookOp} (hsound : ∀ id, (b.files id).Sound this)
    (hb : ∀ id, (b.files id).Priced) (hpost : ∀ budget, op = .post budget → 0 < budget)
    (h : BookStep this b op b') (id : ℕ) : (b'.files id).Priced := by
  cases h with
  | configure => exact hb id
  | @post budget f hjob =>
    rcases eq_or_ne id b.nextJobId with rfl | hne
    · dsimp only
      rw [Function.update_self]
      refine hjob.priced (hsound _) (hb _) fun _ heq => ?_
      rw [← JobOp.post.inj heq]
      exact hpost budget rfl
    · dsimp only
      rw [Function.update_of_ne hne]
      exact hb id
  | @job id' op f token₁ token hposted hjob hfee htake hpay =>
    rcases eq_or_ne id id' with rfl | hne
    · dsimp only
      rw [Function.update_self]
      refine hjob.priced (hsound _) (hb _) ?_
      rintro budget rfl
      -- A job that was posted is not posted again.
      generalize b.files id = blank at hjob hposted
      cases hjob
      cases hposted
    · dsimp only
      rw [Function.update_of_ne hne]
      exact hb id

theorem budget_pos_of_exec {contractAddress : Address} {contractChain contractType : String}
    {initialRiskScore budgetAvailable lineCount auctionDurationSeconds : UInt 256}
    (h : exec this env (.createAuditJob contractAddress contractChain contractType initialRiskScore budgetAvailable
      lineCount auctionDurationSeconds) w = .ok w') : 0 < budgetAvailable.val := by
  unfold exec at h
  split_ifs at h
  rw [onState_eq_ok] at h
  obtain ⟨s, h, rfl⟩ := h
  simp only [createAuditJob, bind_eq_ok, require_eq_ok] at h
  obtain ⟨_, -, _, -, _, -, _, -, _, -, _, -, _, hbudget, -⟩ := h
  exact hbudget

theorem budget_pos_of_does {c : Call} (h : exec this env c w = .ok w') (hdoes : c.Does (.post budget)) :
    0 < budget := by
  cases c with
  | createAuditJob contractAddress contractChain contractType initialRiskScore budgetAvailable lineCount
      auctionDurationSeconds =>
    rw [BookOp.post.inj hdoes]
    exact budget_pos_of_exec h
  | submitBid | completeJob | cancelJob | slashAgentBid | updateBid | selectWinners | releaseEscrow =>
    simp [Call.Does] at hdoes
  | pause | unpause | associateGuardToken => exact hdoes.elim
  | admin c => cases c <;> simp [Call.Does] at hdoes

theorem priced_of_reachable (hw : (contract this).system.Reachable w) (jobId : ℕ) :
    (w.state.file jobId).Priced := by
  refine hw.induct (I := fun w => ∀ jobId, (w.state.file jobId).Priced) ?_ ?_ jobId
  · rintro w hinit jobId
    obtain ⟨deployer, guardToken, agentRegistry, orchestrator, treasury, hs⟩ :=
      fresh_state_eq (show (contract this).fresh w.state from hinit)
    have hblank : w.state.file jobId = JobFile.blank := by
      rw [hs]
      rfl
    rw [hblank]
    exact ⟨fun h => absurd h Bool.false_ne_true, fun b hb => absurd hb List.not_mem_nil⟩
  · intro w l w' hw hpriced hstep jobId
    cases hstep with
    | elsewhere _ _ => exact hpriced jobId
    | @call env c _ w' hs h0 ht hexec =>
      have hcall : exec this env c w = .ok w' := hexec
      have hsound := reachable_sound hw
      change ((books w').files jobId).Priced
      rcases exec_ok hsound hs hcall with ⟨op, hdoes, hbook⟩ | ⟨-, hsame⟩
      · refine hbook.priced hsound.files hpriced ?_ jobId
        rintro budget rfl
        exact budget_pos_of_does hcall hdoes
      · rw [hsame]
        exact hpriced jobId

/-! ## The ranking -/

/-- Of two computed scores for jobs with the same budget, to agents with the same tier, the one of the bid that is
as good as the other is not lower. -/
def Monotone (env : Env) (getAgentTier : Address → AgentTier) : Prop :=
  ∀ (s s' : State) (jobId jobId' i i' : ℕ) (bid bid' : AgentBid) (score score' : ℕ),
    (s.jobs jobId).budgetAvailable = (s'.jobs jobId').budgetAvailable →
    (s.jobBids jobId)[i]? = some bid → (s'.jobBids jobId')[i']? = some bid' →
    getAgentTier bid.agent = getAgentTier bid'.agent → AsGood bid bid' →
    calculateBidScore env getAgentTier jobId i s = .ok score →
    calculateBidScore env getAgentTier jobId' i' s' = .ok score' → score' ≤ score

/-- For every job whose bids are as `submitBid` and `updateBid` leave them, `rankBids` returns the indices of the
bids, each once, with the highest score first, and with the bids of one score as they were submitted. All scores
are in their range, and `calculateBidScore` is monotone. -/
theorem rankBids_ranks (hw : (contract this).system.Reachable w) (hexists : (w.state.jobs jobId).jobId ≠ 0)
    (hreads : readRegistry env w.state = .ok ())
    (hreputation : ∀ b ∈ w.state.jobBids jobId, b.reputationAtBid ≤ 10000)
    (hbudget : (w.state.jobs jobId).budgetAvailable * 2500 < 2^256) :
    (∃ (score : ℕ → ℕ) (ranked : List ℕ), rankBids env getAgentTier jobId w.state = .ok ranked ∧
      ranked.Perm (List.range (w.state.jobBids jobId).length) ∧
      ranked.Pairwise (fun i j => score j < score i ∨ score i = score j ∧ i < j) ∧
      ∀ i < (w.state.jobBids jobId).length,
        calculateBidScore env getAgentTier jobId i w.state = .ok (score i) ∧ score i ≤ 10000) ∧
    Monotone env getAgentTier := by
  obtain ⟨hpos, hamount⟩ := priced_of_reachable hw jobId
  have hscorable : ∀ b ∈ w.state.jobBids jobId, Scorable (w.state.jobs jobId).budgetAvailable b := fun b hb =>
    ⟨hpos (decide_eq_true hexists), hamount b hb, hbudget, hreputation b hb⟩
  let score := fun i => bidScore (w.state.jobs jobId).budgetAvailable
    (getAgentTier ((w.state.jobBids jobId).getD i AgentBid.zero).agent)
    ((w.state.jobBids jobId).getD i AgentBid.zero)
  have hscore : ∀ i < (w.state.jobBids jobId).length,
      calculateBidScore env getAgentTier jobId i w.state = .ok (score i) ∧ score i ≤ 10000 := by
    intro i hi
    have hget : (w.state.jobBids jobId)[i]? = some ((w.state.jobBids jobId).getD i AgentBid.zero) := by
      rw [List.getD_eq_getElem?_getD, List.getElem?_eq_getElem hi]
      rfl
    have hsound := hscorable _ (List.mem_of_getElem? hget)
    exact ⟨calculateBidScore_of_scorable hexists hreads hget hsound, bidScore_le hsound⟩
  constructor
  · obtain ⟨ranked, hsort, hperm, hranked⟩ := @InsertionSort.sort_spec _ _ _ _ _ score (· < ·) _
      (fun i hi => (hscore i (List.mem_range.mp hi)).1) List.pairwise_lt_range
    refine ⟨score, ranked, ?_, hperm, hranked, hscore⟩
    simp only [rankBids, bind_eq_ok, require_eq_ok]
    exact ⟨(), hexists, hsort⟩
  · intro s s' jobId jobId' i i' bid bid' x x' hsame hbid hbid' htier hgood hx hx'
    obtain ⟨-, rfl⟩ := calculateBidScore_ok hbid hx
    obtain ⟨-, rfl⟩ := calculateBidScore_ok hbid' hx'
    rw [hsame, htier]
    exact bidScore_mono hgood

/-! ## The ranking of a sample auction -/

/-- The two bids of a job: the cheaper one was submitted later, and is first. -/
theorem rankBids_ranks_twoBids : ∃ w, (contract 1).system.Reachable w ∧
    ((∃ (score : ℕ → ℕ) (ranked : List ℕ),
      rankBids (sampleEnv 4 3) (fun _ => .commodity) 1 w.state = .ok ranked ∧
      ranked.Perm (List.range (w.state.jobBids 1).length) ∧
      ranked.Pairwise (fun i j => score j < score i ∨ score i = score j ∧ i < j) ∧
      ∀ i < (w.state.jobBids 1).length,
        calculateBidScore (sampleEnv 4 3) (fun _ => .commodity) 1 i w.state = .ok (score i) ∧ score i ≤ 10000) ∧
    Monotone (sampleEnv 4 3) fun _ => .commodity) ∧
    rankBids (sampleEnv 4 3) (fun _ => .commodity) 1 w.state = .ok [1, 0] := by
  obtain ⟨ts, w, hcalls, hr, -⟩ := sample_run (twoJobsCalls.take 4) (by decide) rfl
  have hread := read_ok hcalls (fun w => (rankBids (sampleEnv 4 3) (fun _ => .commodity) 1 w.state,
    (w.state.jobs 1).jobId, (w.state.jobs 1).budgetAvailable, (w.state.jobBids 1).map AgentBid.reputationAtBid))
    (b := (.ok [1, 0], 1, 200 * 10^8, [5000, 5000])) (by decide +kernel)
  simp only [Prod.mk.injEq] at hread
  obtain ⟨hranked, hjob, hbudget, hreputations⟩ := hread
  refine ⟨w, hr.reachable, rankBids_ranks hr.reachable (by omega) rfl ?_ (by rw [hbudget]; decide), hranked⟩
  intro b hb
  have hmem : b.reputationAtBid ∈ (w.state.jobBids 1).map AgentBid.reputationAtBid := List.mem_map_of_mem hb
  rw [hreputations] at hmem
  simp at hmem
  omega

end AuditGuard.AuditAuction
