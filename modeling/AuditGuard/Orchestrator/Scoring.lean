import Mathlib.Tactic.Positivity
import Mathlib.Tactic.Ring
import AuditGuard.AuditAuction.Ranking
import AuditGuard.Orchestrator.Cancellation

/-!
# The orchestrator: the scores of the bids

The orchestrator has scores of its own: reputation, price and speed, where the price is seen against the highest
bid and the time against the slowest one, and no tiers. The contract sees the price against the budget of the job
and the time against one day, and adds a bonus for the tier. So the bid that the orchestrator picks need not be the
first one of `rankBids`; but it is not behind any bid that it can be compared with in reputation, price and time.
-/

namespace AuditGuard.Orchestrator

open Evm
open AuditAuction (AgentBid AsGood Scorable bidScore calculateBidScore calculateBidScore_ok tierBonus)
open AgentRegistry (AgentTier)

/-- The maximum of the values, of which each zero counts as one, and of one. -/
def maxOrOne (values : List ℚ) : ℚ := (values.map fun x => if x = 0 then 1 else x).foldr max 1

/-- `maxBid`. -/
def maxBid (bidders : List LocalBid) : ℚ := maxOrOne (bidders.map LocalBid.bidAmount)

/-- `maxTime`. -/
def maxTime (bidders : List LocalBid) : ℚ := maxOrOne (bidders.map LocalBid.estimatedTimeSec)

/-- `score`. -/
def LocalBid.score (bidders : List LocalBid) (b : LocalBid) : ℚ :=
  let repScore := b.reputation / 100 * (55 / 100)
  let priceScore := (1 - b.bidAmount / maxBid bidders) * (25 / 100)
  let speedScore := (1 - b.estimatedTimeSec / maxTime bidders) * (20 / 100)
  repScore + priceScore + speedScore

/-- `scored`, after it is sorted. -/
def scored (bidders : List LocalBid) : List (LocalBid × ℕ) :=
  bidders.zipIdx.insertionSort fun a b => b.1.score bidders ≤ a.1.score bidders

theorem scored_perm (bidders : List LocalBid) : (scored bidders).Perm bidders.zipIdx :=
  List.perm_insertionSort _ _

/-- The settings, with the order by these scores. -/
def Config.scoring (cfg : Config) : Config := { cfg with rank := scored, rank_perm := scored_perm }

/-- The index of the bid that is picked for a job with the bids on the chain. -/
def picked (cfg : Config) (m : Memory) (onChainBids : List AgentBid) : List ℕ :=
  winningBidIndices (selectedWinners cfg.scoring (mapOnChainBidsToLocal m onChainBids))

/-! ## What the scores weigh -/

/-- The highest amount, or one GUARD. -/
def highest (bids : List AgentBid) : ℕ := (bids.map AgentBid.bidAmount).foldr max (10^8)

/-- The longest time, or one second. -/
def slowest (bids : List AgentBid) : ℕ := (bids.map AgentBid.estimatedCompletionTime).foldr max 1

/-- Reputation on some scale, price and speed, as 55 to 25 to 20. -/
def weighed (scale : ℚ) (bids : List AgentBid) (bid : AgentBid) : ℚ :=
  scale * bid.reputationAtBid * 55 + (1 - (bid.bidAmount : ℚ) / highest bids) * 25 +
    (1 - (bid.estimatedCompletionTime : ℚ) / slowest bids) * 20

/-- The bid `best` at `pick` is the first one with the highest value. -/
def FirstBest (value : AgentBid → ℚ) (bids : List AgentBid) (pick : ℕ) (best : AgentBid) : Prop :=
  bids[pick]? = some best ∧
    ∀ i bid, bids[i]? = some bid → value bid ≤ value best ∧ (i < pick → value bid < value best)

variable {bids : List AgentBid} {bid best other : AgentBid} {scale : ℚ} {cfg : Config} {m : Memory} {pick : ℕ}

theorem le_foldr_max (d : ℕ) (values : List ℕ) : d ≤ values.foldr max d := by
  induction values with
  | nil => exact le_rfl
  | cons n values ih => exact ih.trans (le_max_right _ _)

theorem maxOrOne_div {d : ℕ} (hd : 0 < d) (values : List ℕ) :
    maxOrOne (values.map fun n : ℕ => (n : ℚ) / d) = (values.foldr max d : ℕ) / (d : ℚ) := by
  have hpos : (0 : ℚ) < d := Nat.cast_pos.mpr hd
  unfold maxOrOne
  induction values with
  | nil => exact (div_self hpos.ne').symm
  | cons n values ih =>
    have hone : (1 : ℚ) ≤ (values.foldr max d : ℕ) / (d : ℚ) := by
      rw [one_le_div hpos]
      exact Nat.cast_le.mpr (le_foldr_max d values)
    simp only [List.map_cons, List.foldr_cons, ih]
    split_ifs with hzero
    · -- A zero counts as one, which is no more than the rest.
      have hn : n = 0 := by
        have hcast := (div_eq_zero_iff.mp hzero).resolve_right hpos.ne'
        exact Nat.cast_eq_zero.mp hcast
      rw [max_eq_right hone, hn, Nat.zero_max]
    · rw [Nat.cast_max, ← max_div_div_right hpos.le]

theorem getElem?_mapOnChainBidsToLocal {i : ℕ} (h : bids[i]? = some bid) :
    ∃ b, (mapOnChainBidsToLocal m bids)[i]? = some b ∧ b.bidAmount = toGuardAmount bid.bidAmount ∧
      b.estimatedTimeSec = bid.estimatedCompletionTime ∧ b.reputation = bid.reputationAtBid ∧
      b.onChainBidIndex = some i := by
  unfold mapOnChainBidsToLocal
  rw [List.getElem?_mapIdx, h]
  exact ⟨_, rfl, rfl, rfl, rfl, rfl⟩

theorem maxBid_eq : maxBid (mapOnChainBidsToLocal m bids) = highest bids / 10^8 := by
  have hamounts : (mapOnChainBidsToLocal m bids).map LocalBid.bidAmount =
      (bids.map AgentBid.bidAmount).map fun n : ℕ => (n : ℚ) / (10^8 : ℕ) := by
    refine List.ext_getElem? fun i => ?_
    rw [List.map_map, List.getElem?_map, List.getElem?_map, mapOnChainBidsToLocal, List.getElem?_mapIdx]
    cases bids[i]? with
    | none => rfl
    | some bid =>
      simp [toGuardAmount]
      norm_num
  unfold maxBid highest
  rw [hamounts, maxOrOne_div (by positivity)]
  norm_cast

theorem maxTime_eq : maxTime (mapOnChainBidsToLocal m bids) = slowest bids := by
  have htimes : (mapOnChainBidsToLocal m bids).map LocalBid.estimatedTimeSec =
      (bids.map AgentBid.estimatedCompletionTime).map fun n : ℕ => (n : ℚ) / (1 : ℕ) := by
    refine List.ext_getElem? fun i => ?_
    rw [List.map_map, List.getElem?_map, List.getElem?_map, mapOnChainBidsToLocal, List.getElem?_mapIdx]
    cases bids[i]? with
    | none => rfl
    | some bid => simp
  unfold maxTime slowest
  rw [htimes, maxOrOne_div one_pos, Nat.cast_one, div_one]

theorem score_eq {i : ℕ} {b : LocalBid} (h : bids[i]? = some bid)
    (hb : (mapOnChainBidsToLocal m bids)[i]? = some b) :
    b.score (mapOnChainBidsToLocal m bids) = weighed (1 / 100) bids bid / 100 := by
  obtain ⟨b', hb', hamount, htime, hreputation, -⟩ := getElem?_mapOnChainBidsToLocal h
  rw [Option.some.inj (hb.symm.trans hb')]
  have hprice : toGuardAmount bid.bidAmount / ((highest bids : ℚ) / 10^8) = bid.bidAmount / highest bids :=
    div_div_div_cancel_right₀ (by norm_num) _ _
  simp only [LocalBid.score, weighed, hamount, htime, hreputation, maxBid_eq, maxTime_eq, hprice]
  ring

theorem picked_firstBest (hne : bids ≠ []) :
    ∃ pick best, picked cfg m bids = [pick] ∧ FirstBest (weighed (1 / 100) bids) bids pick best := by
  cases hscored : scored (mapOnChainBidsToLocal m bids) with
  | nil =>
    have hperm := scored_perm (mapOnChainBidsToLocal m bids)
    rw [hscored] at hperm
    have hnil := List.zipIdx_eq_nil_iff.mp hperm.symm.eq_nil
    exact absurd (List.mapIdx_eq_nil_iff.mp hnil) hne
  | cons first rest =>
    obtain ⟨b, pick⟩ := first
    obtain ⟨hb, hbest⟩ := InsertionSort.insertionSort_zipIdx_head hscored
    have hlt : pick < bids.length := by
      have hlt := (List.getElem?_eq_some_iff.mp hb).1
      rwa [mapOnChainBidsToLocal, List.length_mapIdx] at hlt
    have hget := List.getElem?_eq_getElem hlt
    obtain ⟨b', hb', -, -, -, hindex⟩ := @getElem?_mapOnChainBidsToLocal _ _ m _ hget
    rw [← Option.some.inj (hb.symm.trans hb')] at hindex
    refine ⟨pick, bids[pick], ?_, hget, fun i bid hi => ?_⟩
    · have hselected : selectedWinners cfg.scoring (mapOnChainBidsToLocal m bids) = [(b, pick)] := by
        rw [selectedWinners_eq]
        change (scored _).head?.toList = _
        rw [hscored]
        rfl
      rw [picked, hselected]
      simp [winningBidIndices, hindex]
    · obtain ⟨b'', hb'', -⟩ := @getElem?_mapOnChainBidsToLocal _ _ m _ hi
      obtain ⟨hle, hstrict⟩ := hbest i b'' hb''
      rw [score_eq hi hb'', score_eq hget hb] at hle hstrict
      exact ⟨(div_le_div_iff_of_pos_right (by norm_num)).mp hle,
        fun hi => (div_lt_div_iff_of_pos_right (by norm_num)).mp (hstrict hi)⟩

/-! ## Bids that can be compared -/

theorem asGood_of_weighed_le (hscale : 0 < scale) (h : AsGood other best)
    (hle : weighed scale bids other ≤ weighed scale bids best) : AsGood best other := by
  have hhighest : (0 : ℚ) < highest bids := by
    have hle : 10^8 ≤ highest bids := le_foldr_max _ _
    exact Nat.cast_pos.mpr (by omega)
  have hslowest : (0 : ℚ) < slowest bids := by
    have hle : 1 ≤ slowest bids := le_foldr_max _ _
    exact Nat.cast_pos.mpr (by omega)
  obtain ⟨hreputation, hamount, heta⟩ := h
  have h₁ : scale * best.reputationAtBid ≤ scale * other.reputationAtBid :=
    mul_le_mul_of_nonneg_left (Nat.cast_le.mpr hreputation) hscale.le
  have h₂ : (other.bidAmount : ℚ) / highest bids ≤ best.bidAmount / highest bids :=
    div_le_div_of_nonneg_right (Nat.cast_le.mpr hamount) hhighest.le
  have h₃ : (other.estimatedCompletionTime : ℚ) / slowest bids ≤ best.estimatedCompletionTime / slowest bids :=
    div_le_div_of_nonneg_right (Nat.cast_le.mpr heta) hslowest.le
  -- Each of the three parts is at least that of `best`, and their sum is at most its sum.
  unfold weighed at hle
  refine ⟨?_, ?_, ?_⟩
  · have hle' : scale * other.reputationAtBid ≤ scale * best.reputationAtBid := by linarith
    exact Nat.cast_le.mp (le_of_mul_le_mul_left hle' hscale)
  · have hle' : (best.bidAmount : ℚ) / highest bids ≤ other.bidAmount / highest bids := by linarith
    exact Nat.cast_le.mp ((div_le_div_iff_of_pos_right hhighest).mp hle')
  · have hle' : (best.estimatedCompletionTime : ℚ) / slowest bids ≤ other.estimatedCompletionTime / slowest bids := by
      linarith
    exact Nat.cast_le.mp ((div_le_div_iff_of_pos_right hslowest).mp hle')

/-- The bids can be compared: one of them is as good as the other. -/
def Comparable (bid other : AgentBid) : Prop := AsGood bid other ∨ AsGood other bid

/-- The bid that is picked for a job has the highest score on the chain. -/
def PicksMaximal (cfg : Config) (m : Memory) (env : AuditAuction.Env) (getAgentTier : Address → AgentTier) (jobId : ℕ)
    (s : AuditAuction.State) : Prop :=
  ∀ pick ∈ picked cfg m (s.jobBids jobId), ∀ i < (s.jobBids jobId).length, ∀ x y,
    calculateBidScore env getAgentTier jobId i s = .ok x →
    calculateBidScore env getAgentTier jobId pick s = .ok y → x ≤ y

/-- For every job with bids, the bid that is picked is the first one with the highest score by reputation, price
against the highest bid and speed against the slowest one, as 55 to 25 to 20. On the chain it scores at least as
much as every bid that can be compared with it and has no higher bonus for its tier. So its score is the highest
one if any two of the bids can be compared and their agents have the same tier. -/
theorem picked_comparable : ∃ scale : ℚ, 0 < scale ∧ ∀ (cfg : Config) (m : Memory) (env : AuditAuction.Env)
    (getAgentTier : Address → AgentTier) (jobId : ℕ) (s : AuditAuction.State), s.jobBids jobId ≠ [] →
    (∃ pick best, picked cfg m (s.jobBids jobId) = [pick] ∧
      FirstBest (weighed scale (s.jobBids jobId)) (s.jobBids jobId) pick best ∧
      ∀ i bid x y, (s.jobBids jobId)[i]? = some bid → Comparable bid best →
        tierBonus (getAgentTier bid.agent) ≤ tierBonus (getAgentTier best.agent) →
        calculateBidScore env getAgentTier jobId i s = .ok x →
        calculateBidScore env getAgentTier jobId pick s = .ok y → x ≤ y) ∧
    ((∀ bid ∈ s.jobBids jobId, ∀ other ∈ s.jobBids jobId, Comparable bid other ∧
      getAgentTier bid.agent = getAgentTier other.agent) → PicksMaximal cfg m env getAgentTier jobId s) := by
  refine ⟨1 / 100, by norm_num, fun cfg m env getAgentTier jobId s hne => ?_⟩
  obtain ⟨pick, best, hpicked, hfirst⟩ := @picked_firstBest _ cfg m hne
  have hscores : ∀ i bid x y, (s.jobBids jobId)[i]? = some bid → Comparable bid best →
      tierBonus (getAgentTier bid.agent) ≤ tierBonus (getAgentTier best.agent) →
      calculateBidScore env getAgentTier jobId i s = .ok x →
      calculateBidScore env getAgentTier jobId pick s = .ok y → x ≤ y := by
    intro i bid x y hi hcomparable htier hx hy
    have hgood : AsGood best bid := by
      rcases hcomparable with hgood | hgood
      · exact asGood_of_weighed_le (by norm_num) hgood (hfirst.2 i bid hi).1
      · exact hgood
    obtain ⟨-, rfl⟩ := calculateBidScore_ok hi hx
    obtain ⟨-, rfl⟩ := calculateBidScore_ok hfirst.1 hy
    calc bidScore _ (getAgentTier bid.agent) bid
        ≤ bidScore _ (getAgentTier bid.agent) best := AuditAuction.bidScore_mono hgood
      _ ≤ bidScore _ (getAgentTier best.agent) best := Nat.add_le_add_left htier _
  refine ⟨⟨pick, best, hpicked, hfirst, hscores⟩, fun hall pick' hpick' i hi x y hx hy => ?_⟩
  rw [hpicked, List.mem_singleton] at hpick'
  subst hpick'
  have hbid := List.getElem?_eq_getElem hi
  obtain ⟨hcomparable, htier⟩ := hall _ (List.mem_of_getElem? hbid) best (List.mem_of_getElem? hfirst.1)
  exact hscores i _ x y hbid hcomparable (le_of_eq (congrArg tierBonus htier)) hx hy

/-! ## Two sample bids -/

/-- A job for 1000 GUARD. The bids of the agents 2 and 3 are of the same reputation: the first one is the faster one
by 100 seconds, and the second one the cheaper one by 100 GUARD. -/
def fastAndCheap : List (AuditAuction.Env × AuditAuction.Call) := [
  (AuditAuction.sampleEnv 5 0, .createAuditJob 4 "hedera" "token" 10 (1000 * 10^8) 100 60),
  (AuditAuction.sampleEnv 2 1, .submitBid 1 (600 * 10^8) (60 * 10^8) 100 "defi"),
  (AuditAuction.sampleEnv 3 1, .submitBid 1 (500 * 10^8) (60 * 10^8) 200 "defi")]

theorem fastAndCheap_run : ∃ w, (AuditAuction.contract 1).system.Reachable w ∧
    picked sampleConfig Memory.empty (w.state.jobBids 1) = [0] ∧
    (w.state.jobBids 1).length = 2 ∧
    calculateBidScore (AuditAuction.sampleEnv 4 3) (fun _ => .commodity) 1 0 w.state = .ok 5248 ∧
    calculateBidScore (AuditAuction.sampleEnv 4 3) (fun _ => .commodity) 1 1 w.state = .ok 5496 := by
  obtain ⟨ts, w, hcalls, hr, -⟩ := AuditAuction.sample_run fastAndCheap (by decide) rfl
  have hread := read_ok hcalls (fun w => (picked sampleConfig Memory.empty (w.state.jobBids 1),
    (w.state.jobBids 1).length,
    calculateBidScore (AuditAuction.sampleEnv 4 3) (fun _ => .commodity) 1 0 w.state,
    calculateBidScore (AuditAuction.sampleEnv 4 3) (fun _ => .commodity) 1 1 w.state))
    (b := ([0], 2, .ok 5248, .ok 5496)) (by decide +kernel)
  simp only [Prod.mk.injEq] at hread
  exact ⟨w, hr.reachable, hread⟩

/-- The fast bid is the first one with the highest score. -/
theorem picked_comparable_fastAndCheap : ∃ w, (AuditAuction.contract 1).system.Reachable w ∧ ∃ scale best,
    0 < scale ∧ FirstBest (weighed scale (w.state.jobBids 1)) (w.state.jobBids 1) 0 best := by
  obtain ⟨w, hw, hpicked, hlength, -⟩ := fastAndCheap_run
  obtain ⟨scale, hscale, h⟩ := picked_comparable
  have hne : w.state.jobBids 1 ≠ [] := List.length_pos_iff.mp (by omega)
  obtain ⟨⟨pick, best, hpick, hfirst, -⟩, -⟩ :=
    h sampleConfig Memory.empty (AuditAuction.sampleEnv 4 3) (fun _ => .commodity) 1 w.state hne
  rw [hpicked, List.cons_eq_cons] at hpick
  obtain ⟨rfl, -⟩ := hpick
  exact ⟨w, hw, scale, best, hscale, hfirst⟩

/-- The fast bid is picked, but the cheap one has the higher score on the chain. -/
theorem not_picksMaximal : ∃ w, (AuditAuction.contract 1).system.Reachable w ∧
    ¬PicksMaximal sampleConfig Memory.empty (AuditAuction.sampleEnv 4 3) (fun _ => .commodity) 1 w.state := by
  obtain ⟨w, hw, hpicked, hlength, hfast, hcheap⟩ := fastAndCheap_run
  refine ⟨w, hw, fun h => ?_⟩
  have hmem : 0 ∈ picked sampleConfig Memory.empty (w.state.jobBids 1) := by
    rw [hpicked]
    exact List.mem_singleton_self 0
  have hle := h 0 hmem 1 (by omega) _ _ hcheap hfast
  omega

end AuditGuard.Orchestrator
