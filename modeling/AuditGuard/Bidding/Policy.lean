import Mathlib.Data.Rat.Floor

/-!
# Bidding: the policy of a bid

`computeLiveBid` of `agents/shared/bid-policy.ts` turns the bid of a strategy into one that can be submitted: within
the budget of the invite, and with the collateral of the policy. `computeScoutedBid` then undercuts the lowest bid that
was observed. Budget, amount and collateral are each rounded to cents, and rounding goes both ways: `admissible_iff`
says when the submitted integers are within the limits all the same, and `improves_iff` when scouting keeps its
promises.

Numbers are exact rational numbers.
-/

namespace AuditGuard.Bidding

/-- A number, or none that is finite. -/
abbrev Numeric := Option ℚ

/-- `StrategyBid`. -/
structure StrategyBid where
  amount : Numeric
  collateral : Numeric
  estimatedTimeSec : Numeric

/-- `BidPolicy`. -/
structure BidPolicy where
  minCollateralGuard : ℚ
  collateralBufferGuard : ℚ
  enforceBudgetCap : Bool

/-- `ComputedLiveBid`. -/
structure ComputedLiveBid where
  amount : ℚ
  collateral : ℚ
  estimatedTimeSec : Numeric
  amountWei : ℤ
  collateralWei : ℤ
  inviteBudget : Option ℚ
deriving DecidableEq

/-- `BidSkipDecision`, which is one to skip. -/
structure BidSkipDecision where
  reasonCode : String
  reason : String
deriving DecidableEq

/-- A bid, or the decision to make none. -/
inductive Decision
  | bid (b : ComputedLiveBid)
  | skip (d : BidSkipDecision)
deriving DecidableEq

/-- `roundGuard`: to cents, and from half a cent up. -/
def roundGuard (value : ℚ) : ℚ := ⌊value * 100 + 1 / 2⌋ / 100

/-- `safeGuard`. -/
def safeGuard : Numeric → ℚ
  | none => 0
  | some n => if n < 0 then 0 else n

/-- `safeBudget`, of the number that the value is. -/
def safeBudget (value : Numeric) : Option ℚ := value.map fun n => roundGuard (max 0 n)

/-- `parseUnits(value.toFixed(2), 8)` of a number that is not negative. From `10^21` on `toFixed` writes an exponent,
which `parseUnits` does not read. -/
def parseUnits (value : ℚ) : Except String ℤ :=
  if value < 10^21 then .ok (⌊value * 100 + 1 / 2⌋ * 10^6) else .error "invalid FixedNumber string value"

/-- The collateral of the policy. -/
def BidPolicy.minCollateral (policy : BidPolicy) : ℚ :=
  roundGuard (safeGuard (some policy.minCollateralGuard) + safeGuard (some policy.collateralBufferGuard))

/-- The bid with its amounts in units. -/
def makeBid (amount collateral : ℚ) (estimatedTimeSec : Numeric) (inviteBudget : Option ℚ) :
    Except String Decision := do
  let amountWei ← parseUnits amount
  let collateralWei ← parseUnits collateral
  pure (.bid ⟨amount, collateral, estimatedTimeSec, amountWei, collateralWei, inviteBudget⟩)

/-- `computeLiveBid`. -/
def computeLiveBid (strategyBid : StrategyBid) (inviteBudget : Numeric) (policy : BidPolicy) :
    Except String Decision :=
  let normalizedBudget := safeBudget inviteBudget
  let amount := roundGuard (safeGuard strategyBid.amount)
  let collateral := max (roundGuard (safeGuard strategyBid.collateral)) policy.minCollateral
  if amount ≤ 0 then .ok (.skip ⟨"invalid_bid_amount", "Computed bid amount is not positive"⟩)
  else match policy.enforceBudgetCap, normalizedBudget with
    | true, some budget =>
      if budget ≤ 0 then .ok (.skip ⟨"invalid_budget", "Invite budget is zero or missing"⟩)
      else makeBid (if budget < amount then budget else amount) collateral strategyBid.estimatedTimeSec (some budget)
    | _, _ => makeBid amount collateral strategyBid.estimatedTimeSec normalizedBudget

/-- `RebidPolicy`. -/
structure RebidPolicy extends BidPolicy where
  maxBidFractionOfBudget : ℚ

/-- The floor of a bid, which is zero where the budget is not known. -/
def RebidPolicy.floor (policy : RebidPolicy) (inviteBudget : Numeric) : ℚ :=
  match safeBudget inviteBudget with
  | some budget => if 0 < budget then roundGuard (budget * max 0 (min 1 policy.maxBidFractionOfBudget)) else 0
  | none => 0

/-- The amount after scouting: the lowest observed bid is undercut where it beats the own one. -/
def undercut (floor amount : ℚ) : Option ℚ → ℚ
  | none => amount
  | some lowest =>
    if 0 < lowest ∧ lowest < amount then
      if 0 < floor then max floor (roundGuard (lowest * (95 / 100))) else max (1 / 100) (roundGuard (lowest * (95 / 100)))
    else amount

/-- `computeScoutedBid`. -/
def computeScoutedBid (strategyBid : StrategyBid) (inviteBudget : Numeric) (lowestCompetitorBid : Option ℚ)
    (policy : RebidPolicy) : Except String Decision := do
  match ← computeLiveBid strategyBid inviteBudget policy.toBidPolicy with
  | .skip d => pure (.skip d)
  | .bid base =>
    let amount := undercut (policy.floor inviteBudget) base.amount lowestCompetitorBid
    if amount ≤ 0 then
      pure (.skip ⟨"invalid_bid_amount", "Computed scouted bid amount is not positive"⟩)
    else
      makeBid amount (max base.collateral policy.minCollateral) base.estimatedTimeSec (safeBudget inviteBudget)

/-! ## Rounding -/

variable {x y : ℚ}

theorem roundGuard_roundGuard (x : ℚ) : roundGuard (roundGuard x) = roundGuard x := by
  unfold roundGuard
  rw [div_mul_cancel₀ _ (by norm_num : (100 : ℚ) ≠ 0), add_comm, Int.floor_add_intCast]
  norm_num

theorem roundGuard_mono (h : x ≤ y) : roundGuard x ≤ roundGuard y := by
  unfold roundGuard
  have hfloor : ⌊x * 100 + 1 / 2⌋ ≤ ⌊y * 100 + 1 / 2⌋ := Int.floor_le_floor (by linarith)
  have hcast : (⌊x * 100 + 1 / 2⌋ : ℚ) ≤ ⌊y * 100 + 1 / 2⌋ := by exact_mod_cast hfloor
  linarith

theorem roundGuard_nonneg (h : 0 ≤ x) : 0 ≤ roundGuard x := by
  have hzero : roundGuard 0 = 0 := by norm_num [roundGuard]
  rw [← hzero]
  exact roundGuard_mono h

theorem cent_le (hx : roundGuard x = x) (hpos : 0 < x) : 1 / 100 ≤ x := by
  rw [← hx] at hpos ⊢
  unfold roundGuard at *
  have hfloor : (0 : ℚ) < ⌊x * 100 + 1 / 2⌋ := by
    by_contra hle
    linarith
  have hone : (1 : ℚ) ≤ ⌊x * 100 + 1 / 2⌋ := by exact_mod_cast hfloor
  linarith

theorem parseUnits_roundGuard {units : ℤ} (hx : roundGuard x = x) (h : parseUnits x = .ok units) :
    (units : ℚ) = x * 10^8 := by
  unfold parseUnits at h
  split_ifs at h
  obtain rfl := Except.ok.inj h
  have hfloor : (⌊x * 100 + 1 / 2⌋ : ℚ) = x * 100 := by
    have hdiv : (⌊x * 100 + 1 / 2⌋ : ℚ) / 100 = x := hx
    linarith
  push_cast
  rw [hfloor]
  ring

/-! ## The policy -/

variable {strategyBid : StrategyBid} {inviteBudget : Numeric} {policy : BidPolicy} {b : ComputedLiveBid}
  {amount collateral : ℚ} {estimatedTimeSec : Numeric} {budget : Option ℚ}

theorem makeBid_ok {d : Decision} (h : makeBid amount collateral estimatedTimeSec budget = .ok d) :
    ∃ amountWei collateralWei, parseUnits amount = .ok amountWei ∧ parseUnits collateral = .ok collateralWei ∧
      d = .bid ⟨amount, collateral, estimatedTimeSec, amountWei, collateralWei, budget⟩ := by
  unfold makeBid at h
  cases hamount : parseUnits amount with
  | error e => simp [hamount, bind, Except.bind] at h
  | ok amountWei =>
    cases hcollateral : parseUnits collateral with
    | error e => simp [hamount, hcollateral, bind, Except.bind] at h
    | ok collateralWei =>
      simp only [hamount, hcollateral, bind, Except.bind, pure, Except.pure, Except.ok.injEq] at h
      exact ⟨amountWei, collateralWei, rfl, rfl, h.symm⟩

/-- The amount of a bid: that of the strategy, or the budget where that is less and counts. -/
def BidPolicy.cappedAmount (policy : BidPolicy) (amount : Numeric) (inviteBudget : Numeric) : ℚ :=
  match policy.enforceBudgetCap, safeBudget inviteBudget with
  | true, some budget => min (roundGuard (safeGuard amount)) budget
  | _, _ => roundGuard (safeGuard amount)

theorem computeLiveBid_bid (h : computeLiveBid strategyBid inviteBudget policy = .ok (.bid b)) :
    0 < b.amount ∧ b.amount = policy.cappedAmount strategyBid.amount inviteBudget ∧
      b.collateral = max (roundGuard (safeGuard strategyBid.collateral)) policy.minCollateral ∧
      parseUnits b.amount = .ok b.amountWei ∧ parseUnits b.collateral = .ok b.collateralWei := by
  unfold computeLiveBid at h
  unfold BidPolicy.cappedAmount
  dsimp only at h
  by_cases hamount : roundGuard (safeGuard strategyBid.amount) ≤ 0
  · rw [if_pos hamount] at h
    cases h
  rw [if_neg hamount] at h
  have hpositive := not_le.mp hamount
  cases hcap : policy.enforceBudgetCap with
  | false =>
    simp only [hcap] at h
    obtain ⟨_, _, hwei, hcollateral, hb⟩ := makeBid_ok h
    obtain rfl := Decision.bid.inj hb
    exact ⟨hpositive, rfl, rfl, hwei, hcollateral⟩
  | true =>
    cases hbudget : safeBudget inviteBudget with
    | none =>
      simp only [hcap, hbudget] at h
      obtain ⟨_, _, hwei, hcollateral, hb⟩ := makeBid_ok h
      obtain rfl := Decision.bid.inj hb
      exact ⟨hpositive, rfl, rfl, hwei, hcollateral⟩
    | some budget =>
      simp only [hcap, hbudget] at h
      split_ifs at h with hzero hless
      · cases h
      · obtain ⟨_, _, hwei, hcollateral, hb⟩ := makeBid_ok h
        obtain rfl := Decision.bid.inj hb
        exact ⟨not_le.mp hzero, (min_eq_right hless.le).symm, rfl, hwei, hcollateral⟩
      · obtain ⟨_, _, hwei, hcollateral, hb⟩ := makeBid_ok h
        obtain rfl := Decision.bid.inj hb
        exact ⟨hpositive, (min_eq_left (not_lt.mp hless)).symm, rfl, hwei, hcollateral⟩

theorem computeLiveBid_rounded (h : computeLiveBid strategyBid inviteBudget policy = .ok (.bid b)) :
    roundGuard b.amount = b.amount ∧ roundGuard b.collateral = b.collateral := by
  obtain ⟨-, hamount, hcollateral, -, -⟩ := computeLiveBid_bid h
  have hmax : ∀ {x y : ℚ}, roundGuard x = x → roundGuard y = y →
      roundGuard (max x y) = max x y ∧ roundGuard (min x y) = min x y := by
    intro x y hx hy
    rcases le_total x y with hle | hle
    · rw [max_eq_right hle, min_eq_left hle]
      exact ⟨hy, hx⟩
    · rw [max_eq_left hle, min_eq_right hle]
      exact ⟨hx, hy⟩
  constructor
  · rw [hamount]
    unfold BidPolicy.cappedAmount
    cases policy.enforceBudgetCap with
    | false => exact roundGuard_roundGuard _
    | true =>
      cases inviteBudget with
      | none => exact roundGuard_roundGuard _
      | some B => exact (hmax (roundGuard_roundGuard _) (roundGuard_roundGuard _)).2
  · rw [hcollateral]
    exact (hmax (roundGuard_roundGuard _) (roundGuard_roundGuard _)).1

/-- The bid is within the limits: positive, at most the budget, and with the collateral of the policy. -/
structure ComputedLiveBid.Admissible (b : ComputedLiveBid) (inviteBudget : ℚ) (policy : BidPolicy) : Prop where
  positive : 0 < b.amountWei
  amount : (b.amountWei : ℚ) ≤ inviteBudget * 10^8
  collateral : (policy.minCollateralGuard + policy.collateralBufferGuard) * 10^8 ≤ b.collateralWei

/-- Rounding does not raise the budget above itself, or the strategy asks for no more than that anyhow; and it does not
lower the collateral of the policy, or the strategy offers enough anyhow. -/
structure RoundsWell (strategyBid : StrategyBid) (inviteBudget : ℚ) (policy : BidPolicy) : Prop where
  amount : roundGuard inviteBudget ≤ inviteBudget ∨ roundGuard (safeGuard strategyBid.amount) ≤ inviteBudget
  collateral : policy.minCollateralGuard + policy.collateralBufferGuard ≤ policy.minCollateral ∨
    policy.minCollateralGuard + policy.collateralBufferGuard ≤ roundGuard (safeGuard strategyBid.collateral)

/-- A computed bid is within the limits exactly if rounding does no harm. -/
theorem admissible_iff {B : ℚ} (hB : 0 < B) (hcap : policy.enforceBudgetCap = true)
    (h : computeLiveBid strategyBid (some B) policy = .ok (.bid b)) :
    b.Admissible B policy ↔ RoundsWell strategyBid B policy := by
  obtain ⟨hpositive, hamount, hcollateral, hwei, hcollateralWei⟩ := computeLiveBid_bid h
  obtain ⟨hrounded, hrounded'⟩ := computeLiveBid_rounded h
  have hunits := parseUnits_roundGuard hrounded hwei
  have hunits' := parseUnits_roundGuard hrounded' hcollateralWei
  have hpow : (0 : ℚ) < 10^8 := by norm_num
  have hcapped : b.amount = min (roundGuard (safeGuard strategyBid.amount)) (roundGuard B) := by
    rw [hamount]
    unfold BidPolicy.cappedAmount safeBudget
    rw [hcap, Option.map_some, max_eq_right hB.le]
  constructor
  · rintro ⟨-, hbudget, hmin⟩
    rw [hunits, mul_le_mul_iff_left₀ hpow, hcapped, min_le_iff] at hbudget
    rw [hunits', mul_le_mul_iff_left₀ hpow, hcollateral, le_max_iff] at hmin
    exact ⟨hbudget.symm, hmin.symm⟩
  · rintro ⟨hbudget, hmin⟩
    refine ⟨?_, ?_, ?_⟩
    · have hwei : (0 : ℚ) < b.amountWei := by
        rw [hunits]
        exact mul_pos hpositive hpow
      exact_mod_cast hwei
    · rw [hunits, mul_le_mul_iff_left₀ hpow, hcapped, min_le_iff]
      exact hbudget.symm
    · rw [hunits', mul_le_mul_iff_left₀ hpow, hcollateral, le_max_iff]
      exact hmin.symm

/-- A policy that bids a quarter of the budget at most. -/
def samplePolicy : RebidPolicy where
  minCollateralGuard := 25
  collateralBufferGuard := 5
  enforceBudgetCap := true
  maxBidFractionOfBudget := 1 / 4

/-- A bid of five GUARD for a budget of a hundred. -/
theorem admissible_sample : ∃ b, computeLiveBid ⟨some 5, some 30, some 60⟩ (some 100) samplePolicy.toBidPolicy =
    .ok (.bid b) ∧ b.Admissible 100 samplePolicy.toBidPolicy := by
  have hbid : computeLiveBid ⟨some 5, some 30, some 60⟩ (some 100) samplePolicy.toBidPolicy =
      .ok (.bid ⟨5, 30, some 60, 5 * 10^8, 30 * 10^8, some 100⟩) := by decide +kernel
  exact ⟨_, hbid, (admissible_iff (by norm_num) rfl hbid).mpr
    ⟨.inl (by decide +kernel), .inl (by decide +kernel)⟩⟩

/-- A budget of 100.006 GUARD is rounded up, and the bid takes all of that. -/
theorem not_admissible : ∃ b, computeLiveBid ⟨some 150, some 30, some 60⟩ (some 100.006) samplePolicy.toBidPolicy =
    .ok (.bid b) ∧ ¬ (b.amountWei : ℚ) ≤ 100.006 * 10^8 := by
  refine ⟨⟨100.01, 30, some 60, 10001 * 10^6, 30 * 10^8, some 100.01⟩, by decide +kernel, ?_⟩
  norm_num

/-! ## Scouting -/

variable {scouting : RebidPolicy} {lowest : Option ℚ} {s : ComputedLiveBid}

/-- What scouting promises of a bid: it is no higher than the one that it starts from, and has the same collateral;
it is the same where nobody bids less; and where somebody does, it is less than that or as low as the floor allows. -/
structure ComputedLiveBid.Improves (base : ComputedLiveBid) (floor : ℚ) (lowest : Option ℚ) (s : ComputedLiveBid) :
    Prop where
  amount : s.amount ≤ base.amount
  collateral : s.collateral = base.collateral
  same : (∀ c, lowest = some c → base.amount ≤ c) → s.amount = base.amount
  lower : ∀ c, lowest = some c → 0 < c → c < base.amount →
    s.amount < c ∨ s.amount = floor ∧ c * (95 / 100) ≤ floor
  floor : ¬ (s.amount < floor ∧ s.amount < base.amount)

/-- Nobody bids less, or the floor is not above the base bid, and there is a whole cent between the observed bid and
95% of it, or a floor that hides that there is none. -/
def Undercuttable (base floor : ℚ) (lowest : Option ℚ) : Prop :=
  ∀ c, lowest = some c → 0 < c → c < base → floor ≤ base ∧
    (0 < floor ∧ roundGuard (c * (95 / 100)) ≤ floor ∨ max (1 / 100) (roundGuard (c * (95 / 100))) < c)

/-- The amount after scouting keeps what is promised of it exactly if the lowest bid can be undercut. -/
theorem undercut_iff (lowest : Option ℚ) {base floor : ℚ} (hbase : roundGuard base = base) (hfloor : 0 ≤ floor) :
    (undercut floor base lowest ≤ base ∧ ((∀ c, lowest = some c → base ≤ c) → undercut floor base lowest = base) ∧
      (∀ c, lowest = some c → 0 < c → c < base → undercut floor base lowest < c ∨
        undercut floor base lowest = floor ∧ c * (95 / 100) ≤ floor) ∧
      ¬ (undercut floor base lowest < floor ∧ undercut floor base lowest < base)) ↔
    Undercuttable base floor lowest := by
  unfold Undercuttable
  cases lowest with
  | none =>
    have hnone : ∀ {c : ℚ}, none ≠ some c := fun h => Option.some_ne_none _ h.symm
    exact iff_of_true ⟨le_rfl, fun _ => rfl, fun c hc => absurd hc hnone, fun h => lt_irrefl _ h.2⟩
      fun c hc => absurd hc hnone
  | some c =>
    simp only [Option.some.injEq, forall_eq']
    by_cases hc : 0 < c ∧ c < base
    · obtain ⟨hpos, hlt⟩ := hc
      have hle : roundGuard (c * (95 / 100)) ≤ base := hbase ▸ roundGuard_mono (by linarith)
      have hcent := cent_le hbase (hpos.trans hlt)
      have hrounded := roundGuard_roundGuard (c * (95 / 100))
      have hvalue : undercut floor base (some c) = if 0 < floor then max floor (roundGuard (c * (95 / 100)))
          else max (1 / 100) (roundGuard (c * (95 / 100))) := if_pos ⟨hpos, hlt⟩
      rw [hvalue]
      generalize roundGuard (c * (95 / 100)) = u at hle hrounded
      have hnot : ¬ base ≤ c := not_le.mpr hlt
      simp only [hpos, hlt, hnot, false_imp_iff, true_imp_iff, true_and]
      by_cases hfloored : 0 < floor
      · rw [if_pos hfloored]
        simp only [hfloored, true_and]
        rcases le_or_gt u floor with hu | hu
        · -- The floor is what comes out, and it is below `c`, or above 95% of it.
          rw [max_eq_left hu]
          constructor
          · exact fun h => ⟨h.1, .inl hu⟩
          · rintro ⟨hfloor, -⟩
            refine ⟨hfloor, ?_, fun h => lt_irrefl _ h.1⟩
            rcases lt_or_ge floor c with hbelow | habove
            · exact .inl hbelow
            · exact .inr ⟨rfl, by linarith⟩
        · rw [max_eq_right hu.le, max_eq_right (cent_le hrounded (hfloored.trans hu))]
          constructor
          · rintro ⟨-, hless | ⟨heq, -⟩, -⟩
            · exact ⟨hu.le.trans hle, .inr hless⟩
            · exact absurd heq hu.ne'
          · rintro ⟨-, hfloor | hless⟩
            · exact absurd hfloor (not_le.mpr hu)
            · exact ⟨hle, .inl hless, fun h => lt_asymm h.1 hu⟩
      · obtain rfl : floor = 0 := le_antisymm (not_lt.mp hfloored) hfloor
        rw [if_neg hfloored]
        have hpositive : 0 < max (1 / 100) u := lt_max_of_lt_left (by norm_num)
        simp only [lt_irrefl, false_and, false_or]
        constructor
        · rintro ⟨-, hless | ⟨heq, -⟩, -⟩
          · exact ⟨(hpos.trans hlt).le, hless⟩
          · exact absurd heq hpositive.ne'
        · rintro ⟨-, hless⟩
          exact ⟨max_le hcent hle, .inl hless, fun h => lt_asymm h.1 hpositive⟩
    · have hsame : undercut floor base (some c) = base := if_neg hc
      rw [hsame]
      refine iff_of_true ⟨le_rfl, fun _ => rfl, fun hpos hlt => absurd ⟨hpos, hlt⟩ hc, fun h => lt_irrefl _ h.2⟩ ?_
      exact fun hpos hlt => absurd ⟨hpos, hlt⟩ hc

theorem undercut_pos {base floor : ℚ} (hbase : 0 < base) : 0 < undercut floor base lowest := by
  cases lowest with
  | none => exact hbase
  | some c =>
    unfold undercut
    dsimp only
    split_ifs with hless hfloor
    · exact lt_max_of_lt_left hfloor
    · exact lt_max_of_lt_left (by norm_num)
    · exact hbase

theorem RebidPolicy.floor_nonneg (policy : RebidPolicy) (inviteBudget : Numeric) : 0 ≤ policy.floor inviteBudget := by
  unfold RebidPolicy.floor
  split
  · rename_i budget _
    split_ifs with hbudget
    · exact roundGuard_nonneg (mul_nonneg hbudget.le (le_max_left _ _))
    · exact le_rfl
  · exact le_rfl

theorem computeScoutedBid_of_bid
    (h : computeLiveBid strategyBid inviteBudget scouting.toBidPolicy = .ok (.bid b)) :
    computeScoutedBid strategyBid inviteBudget lowest scouting =
      makeBid (undercut (scouting.floor inviteBudget) b.amount lowest) b.collateral b.estimatedTimeSec
        (safeBudget inviteBudget) := by
  obtain ⟨hpositive, -, hcollateral, -, -⟩ := computeLiveBid_bid h
  have hmax : max b.collateral scouting.minCollateral = b.collateral := by
    rw [hcollateral]
    exact max_eq_left (le_max_right _ _)
  have hamount : 0 < undercut (scouting.floor inviteBudget) b.amount lowest := undercut_pos hpositive
  simp only [computeScoutedBid, h, bind, Except.bind, if_neg (not_le.mpr hamount), hmax]

theorem parseUnits_of_le {units : ℤ} (hle : x ≤ y) (h : parseUnits y = .ok units) :
    ∃ fewer, parseUnits x = .ok fewer := by
  unfold parseUnits at h ⊢
  split_ifs at h with hy
  exact ⟨_, if_pos (hle.trans_lt hy)⟩

/-- Scouting keeps its promises exactly if the lowest bid can be undercut. -/
theorem improves_iff (lowest : Option ℚ)
    (h : computeLiveBid strategyBid inviteBudget scouting.toBidPolicy = .ok (.bid b)) :
    (∃ s, computeScoutedBid strategyBid inviteBudget lowest scouting = .ok (.bid s) ∧
      b.Improves (scouting.floor inviteBudget) lowest s) ↔
    Undercuttable b.amount (scouting.floor inviteBudget) lowest := by
  rw [computeScoutedBid_of_bid h]
  obtain ⟨-, -, -, hwei, hcollateralWei⟩ := computeLiveBid_bid h
  obtain ⟨hrounded, -⟩ := computeLiveBid_rounded h
  have hundercut := undercut_iff lowest hrounded (scouting.floor_nonneg inviteBudget)
  constructor
  · rintro ⟨s, hs, himproves⟩
    obtain ⟨_, _, -, -, heq⟩ := makeBid_ok hs
    obtain rfl := Decision.bid.inj heq
    exact hundercut.mp ⟨himproves.amount, himproves.same, himproves.lower, himproves.floor⟩
  · intro hcan
    obtain ⟨hamount, hsame, hlower, hfloor⟩ := hundercut.mpr hcan
    -- The units are there, since there are those of the base bid.
    obtain ⟨amountWei, hunits⟩ := parseUnits_of_le hamount hwei
    refine ⟨⟨undercut (scouting.floor inviteBudget) b.amount lowest, b.collateral, b.estimatedTimeSec, amountWei,
      b.collateralWei, safeBudget inviteBudget⟩, ?_, ⟨hamount, rfl, hsame, hlower, hfloor⟩⟩
    simp only [makeBid, hunits, hcollateralWei, bind, Except.bind, pure, Except.pure]

/-- Somebody bids twenty GUARD where the own bid is forty. -/
theorem improves_sample : ∃ b s,
    computeLiveBid ⟨some 40, some 30, some 60⟩ (some 60) samplePolicy.toBidPolicy = .ok (.bid b) ∧
      computeScoutedBid ⟨some 40, some 30, some 60⟩ (some 60) (some 20) samplePolicy = .ok (.bid s) ∧
      b.Improves (samplePolicy.floor (some 60)) (some 20) s := by
  have hbid : computeLiveBid ⟨some 40, some 30, some 60⟩ (some 60) samplePolicy.toBidPolicy =
      .ok (.bid ⟨40, 30, some 60, 40 * 10^8, 30 * 10^8, some 60⟩) := by decide +kernel
  have hfloor : samplePolicy.floor (some 60) = 15 := by decide +kernel
  have hround : roundGuard (20 * (95 / 100)) = 19 := by norm_num [roundGuard]
  obtain ⟨s, hs, himproves⟩ := (improves_iff (some 20) hbid).mpr (by
    rintro c ⟨⟩ - -
    rw [hfloor, hround]
    norm_num)
  exact ⟨_, s, hbid, hs, himproves⟩

/-- The floor of a budget of 120 GUARD is thirty, which is more than an own bid of twenty: with a bid of ten to
undercut, the bid goes up. -/
theorem not_improves : ∃ b s,
    computeLiveBid ⟨some 20, some 30, some 60⟩ (some 120) samplePolicy.toBidPolicy = .ok (.bid b) ∧
      computeScoutedBid ⟨some 20, some 30, some 60⟩ (some 120) (some 10) samplePolicy = .ok (.bid s) ∧
      ¬ s.amount ≤ b.amount :=
  ⟨⟨20, 30, some 60, 20 * 10^8, 30 * 10^8, some 120⟩, ⟨30, 30, some 60, 30 * 10^8, 30 * 10^8, some 120⟩,
    by decide +kernel, by decide +kernel, by norm_num⟩

end AuditGuard.Bidding
