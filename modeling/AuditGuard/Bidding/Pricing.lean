import AuditGuard.Bidding.Policy
import Mathlib.Data.List.Induction

/-!
# Bidding: the dynamic price

The static analysis agent multiplies its bids by a number that follows its win rate: `updatePricingAfterOutcome` is
to raise it when the agent wins too often, and to lower it when it wins too rarely. Its one caller, the handler of
`WinnersSelected`, calls it only when the agent has won, so that the win rate that is used is one from the first win
on; and the set point that the multiplier is drawn to falls as the win rate rises, so that the agent gets the cheaper
the more it wins (`price_eq`).

Numbers are exact rational numbers.
-/

namespace AuditGuard.Bidding

/-- What the price depends on. -/
structure Pricing where
  totalBids : ℕ
  totalWins : ℕ
  bidMultiplier : ℚ
deriving DecidableEq

/-- The agent has just started. -/
def Pricing.initial : Pricing := ⟨0, 0, 1⟩

/-- The target of the win rate. -/
def target : ℚ := 0.45

/-- The win rate that is used. -/
def Pricing.winRate (pricing : Pricing) : ℚ :=
  if 0 < pricing.totalBids then pricing.totalWins / pricing.totalBids else 0.5

/-- The set point of a win rate, which the multiplier is drawn to. -/
def setPoint (winRate : ℚ) : ℚ := 1 + (target - winRate)

/-- The multiplier after one that is drawn to the set point of a win rate, within its bounds. -/
def steer (pricingAlpha bidMultiplier winRate : ℚ) : ℚ :=
  max 0.5 (min 2.0 (bidMultiplier * (1 - pricingAlpha) + setPoint winRate * pricingAlpha))

/-- The bids and wins with one more. -/
def Pricing.count (pricing : Pricing) (won : Bool) : Pricing :=
  { pricing with
    totalBids := pricing.totalBids + 1
    totalWins := if won then pricing.totalWins + 1 else pricing.totalWins }

/-- `updatePricingAfterOutcome`. -/
def Pricing.updatePricingAfterOutcome (pricingAlpha : ℚ) (won : Bool) (pricing : Pricing) : Pricing :=
  { pricing.count won with
    bidMultiplier := steer pricingAlpha pricing.bidMultiplier (pricing.count won).winRate }

/-- What the handler of `WinnersSelected` does to the price of an agent that has the job in `pendingJobs`, or in
`bidSubmittedJobs`, and is named or not. -/
def Pricing.onWinnerSelected (pricingAlpha : ℚ) (pending hadSubmittedBid isWinner : Bool) (pricing : Pricing) :
    Pricing :=
  if pending = false ∧ hadSubmittedBid = false then pricing
  else if isWinner = false then pricing
  else if pending = false then pricing
  else pricing.updatePricingAfterOutcome pricingAlpha true

/-- `calculateBid`, of a contract that the agent may be specialized in. -/
def calculateBid (pricing : Pricing) (specialized : Bool) (estimatedLOC estimatedTimeSec : ℚ) : StrategyBid :=
  let bid := (10 + estimatedLOC * 0.002) * pricing.bidMultiplier
  let bid := if specialized then bid * 0.9 else bid
  ⟨some (roundGuard bid), some (roundGuard (bid * 0.5)), some estimatedTimeSec⟩

/-! ## Auctions -/

/-- An auction that the agent has bid in, as it is when its `WinnersSelected` comes. -/
structure Auction where
  pending : Bool
  hadSubmittedBid : Bool
  /-- The event names the agent. -/
  isWinner : Bool
  bid : pending = true ∨ hadSubmittedBid = true

variable {pricingAlpha : ℚ} {history before : List Auction} {auction : Auction} {pricing : Pricing}

/-- The price after the auctions. -/
def price (pricingAlpha : ℚ) (history : List Auction) : Pricing :=
  history.foldl (fun pricing auction =>
    pricing.onWinnerSelected pricingAlpha auction.pending auction.hadSubmittedBid auction.isWinner) .initial

/-- The wins, of the auctions that are decided. -/
def wins (history : List Auction) : ℕ := history.countP Auction.isWinner

/-- After an outcome, the win rate that is used is that of the auctions that are decided, the multiplier is within its
bounds and grows with the win rate, and its set point is above one if the agent wins too often and below one if it
wins too rarely. -/
structure SteersAfter (pricingAlpha : ℚ) (before : List Auction) (auction : Auction) : Prop where
  winRate : (price pricingAlpha (before ++ [auction])).winRate =
    wins (before ++ [auction]) / (before ++ [auction]).length
  bounds : 1 / 2 ≤ (price pricingAlpha (before ++ [auction])).bidMultiplier ∧
    (price pricingAlpha (before ++ [auction])).bidMultiplier ≤ 2
  monotone : ∀ (before' : List Auction) (auction' : Auction),
    (price pricingAlpha before).bidMultiplier = (price pricingAlpha before').bidMultiplier →
    (price pricingAlpha (before ++ [auction])).winRate ≤ (price pricingAlpha (before' ++ [auction'])).winRate →
    (price pricingAlpha (before ++ [auction])).bidMultiplier ≤
      (price pricingAlpha (before' ++ [auction'])).bidMultiplier
  above : target < (price pricingAlpha (before ++ [auction])).winRate →
    1 < setPoint (price pricingAlpha (before ++ [auction])).winRate
  below : (price pricingAlpha (before ++ [auction])).winRate < target →
    setPoint (price pricingAlpha (before ++ [auction])).winRate < 1

/-- The price steers towards the target after every outcome of the history. -/
def Steers (pricingAlpha : ℚ) (history : List Auction) : Prop :=
  ∀ before auction, before ++ [auction] <+: history → SteersAfter pricingAlpha before auction

/-! ## The multiplier -/

theorem onWinnerSelected_eq (pricingAlpha : ℚ) (auction : Auction) (pricing : Pricing) :
    pricing.onWinnerSelected pricingAlpha auction.pending auction.hadSubmittedBid auction.isWinner =
      if auction.isWinner = true ∧ auction.pending = true then pricing.updatePricingAfterOutcome pricingAlpha true
      else pricing := by
  unfold Pricing.onWinnerSelected
  cases auction.pending <;> cases auction.hadSubmittedBid <;> cases auction.isWinner <;> simp

theorem price_append (pricingAlpha : ℚ) (before : List Auction) (auction : Auction) :
    price pricingAlpha (before ++ [auction]) =
      if auction.isWinner = true ∧ auction.pending = true then
        (price pricingAlpha before).updatePricingAfterOutcome pricingAlpha true
      else price pricingAlpha before := by
  unfold price
  rw [List.foldl_append, List.foldl_cons, List.foldl_nil, onWinnerSelected_eq]

/-- The auctions whose outcome is counted: the agent is named, and still waits for it. -/
def counted (history : List Auction) : ℕ := history.countP fun auction => auction.isWinner ∧ auction.pending

/-- A win rate of one draws the multiplier towards 0.45, from where one half stops it. -/
theorem steer_one (h0 : 0 ≤ pricingAlpha) (h1 : pricingAlpha ≤ 1) {y : ℚ} (hle : y ≤ 1) :
    steer pricingAlpha (max 0.5 (0.45 + 0.55 * y)) 1 = max 0.5 (0.45 + 0.55 * (y * (1 - pricingAlpha))) := by
  have hdrawn : max 0.5 (0.45 + 0.55 * y) * (1 - pricingAlpha) + setPoint 1 * pricingAlpha =
      max (0.5 - 0.05 * pricingAlpha) (0.45 + 0.55 * (y * (1 - pricingAlpha))) := by
    rw [max_mul_of_nonneg _ _ (by linarith), ← max_add_add_right, setPoint, target]
    congr 1 <;> ring
  have hbelow : 0.45 + 0.55 * (y * (1 - pricingAlpha)) ≤ 2 := by
    have hprod := mul_le_one₀ hle (by linarith : (0 : ℚ) ≤ 1 - pricingAlpha) (by linarith)
    linarith
  have hstops : max 0.5 (0.5 - 0.05 * pricingAlpha) = 0.5 := max_eq_left (by linarith)
  rw [steer, hdrawn, min_eq_right (max_le (by linarith) (by linarith)), ← max_assoc, hstops]

theorem price_eq (h0 : 0 ≤ pricingAlpha) (h1 : pricingAlpha ≤ 1) (history : List Auction) :
    price pricingAlpha history = ⟨counted history, counted history,
      max 0.5 (0.45 + 0.55 * (1 - pricingAlpha)^counted history)⟩ := by
  induction history using List.reverseRecOn with
  | nil => norm_num [price, Pricing.initial, counted]
  | append_singleton before auction ih =>
    have hcounted : counted (before ++ [auction]) =
        counted before + if auction.isWinner = true ∧ auction.pending = true then 1 else 0 := by
      simp [counted, List.countP_append, List.countP_cons]
    rw [price_append, hcounted]
    split_ifs
    · -- All that is counted is won.
      have hrate : (Pricing.count (price pricingAlpha before) true).winRate = 1 := by
        rw [ih]
        simp only [Pricing.winRate, Pricing.count, Nat.succ_pos, if_true]
        exact div_self (by positivity)
      unfold Pricing.updatePricingAfterOutcome
      rw [hrate, ih, pow_succ, steer_one h0 h1 (pow_le_one₀ (by linarith) (by linarith))]
      rfl
    · exact ih

/-- After every history all bids that are counted are won, the multiplier is a function of their number alone, and
what the agent bids for a contract never rises again, whatever it wins or loses later. -/
theorem bids_never_rise (h0 : 0 ≤ pricingAlpha) (h1 : pricingAlpha ≤ 1) (history later : List Auction)
    (specialized : Bool) {estimatedLOC : ℚ} (hloc : 0 ≤ estimatedLOC) (estimatedTimeSec : ℚ) :
    price pricingAlpha history = ⟨counted history, counted history,
      max 0.5 (0.45 + 0.55 * (1 - pricingAlpha)^counted history)⟩ ∧
    ∃ amount amount', (calculateBid (price pricingAlpha history) specialized estimatedLOC estimatedTimeSec).amount =
        some amount ∧
      (calculateBid (price pricingAlpha (history ++ later)) specialized estimatedLOC estimatedTimeSec).amount =
        some amount' ∧ amount' ≤ amount := by
  refine ⟨price_eq h0 h1 history, _, _, rfl, rfl, roundGuard_mono ?_⟩
  have hmultiplier : (price pricingAlpha (history ++ later)).bidMultiplier ≤
      (price pricingAlpha history).bidMultiplier := by
    have hcounted : counted (history ++ later) = counted history + counted later := List.countP_append ..
    have hpow := pow_le_pow_of_le_one (by linarith : (0 : ℚ) ≤ 1 - pricingAlpha) (by linarith)
      (Nat.le_add_right (counted history) (counted later))
    rw [price_eq h0 h1, price_eq h0 h1, hcounted]
    refine max_le_max le_rfl ?_
    linarith
  have hbid : (10 + estimatedLOC * 0.002) * (price pricingAlpha (history ++ later)).bidMultiplier ≤
      (10 + estimatedLOC * 0.002) * (price pricingAlpha history).bidMultiplier := by gcongr
  split_ifs
  · linarith
  · exact hbid

/-- Two wins with a weight of one half. -/
theorem bids_never_rise_wins :
    price (1 / 2) [⟨true, true, true, .inl rfl⟩, ⟨true, true, true, .inl rfl⟩] = ⟨2, 2, 0.5875⟩ := by
  rw [(@bids_never_rise (1 / 2) (by norm_num) (by norm_num)
    [⟨true, true, true, .inl rfl⟩, ⟨true, true, true, .inl rfl⟩] [] false 100 (by norm_num) 60).1]
  norm_num [counted]

/-! ## Every history -/

theorem not_steersAfter_nil (pricingAlpha : ℚ) (auction : Auction) : ¬ SteersAfter pricingAlpha [] auction := by
  intro h
  have hprice := price_append pricingAlpha [] auction
  by_cases hwon : auction.isWinner = true ∧ auction.pending = true
  · -- The win rate is one, and the set point below it.
    rw [if_pos hwon] at hprice
    have hrate : (price pricingAlpha ([] ++ [auction])).winRate = 1 := by
      rw [hprice]
      norm_num [Pricing.winRate, Pricing.updatePricingAfterOutcome, Pricing.count, price, Pricing.initial]
    have habove := h.above
    rw [hrate] at habove
    norm_num [target, setPoint] at habove
  · -- The outcome is not counted.
    rw [if_neg hwon] at hprice
    have hrate := h.winRate
    rw [hprice] at hrate
    have hhalf : (price pricingAlpha []).winRate = 1 / 2 := by norm_num [price, Pricing.initial, Pricing.winRate]
    rw [hhalf] at hrate
    cases hwinner : auction.isWinner with
    | false => norm_num [wins, hwinner] at hrate
    | true => norm_num [wins, hwinner] at hrate

/-- For every history, the price steers towards the target if and only if no auction of it has been decided. -/
theorem steers_iff_undecided (pricingAlpha : ℚ) (history : List Auction) :
    Steers pricingAlpha history ↔ history = [] := by
  constructor
  · intro h
    cases history with
    | nil => rfl
    | cons auction rest =>
      exact absurd (h [] auction ⟨rest, rfl⟩) (not_steersAfter_nil pricingAlpha auction)
  · rintro rfl before auction hprefix
    have hnil := List.prefix_nil.mp hprefix
    simp at hnil

/-- The first auction is won, and the price falls below what it was. -/
theorem not_steers_firstWin : ¬ ∀ pricingAlpha, 0 < pricingAlpha → pricingAlpha < 1 →
    ∀ history, Steers pricingAlpha history := by
  intro hall
  have hsteers := hall 0.3 (by norm_num) (by norm_num) [⟨true, true, true, .inl rfl⟩] [] _ List.prefix_rfl
  have habove := hsteers.above
  norm_num [price, Pricing.initial, Pricing.onWinnerSelected, Pricing.updatePricingAfterOutcome, Pricing.count,
    Pricing.winRate, setPoint, target] at habove

end AuditGuard.Bidding
