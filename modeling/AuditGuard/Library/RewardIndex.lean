import Mathlib.Algebra.BigOperators.Ring.Finset
import Mathlib.Algebra.Order.BigOperators.Group.Finset
import Mathlib.Tactic.Ring
import AuditGuard.Library.Sums

/-!
# Reward accumulators

Rewards are shared among holders in proportion to their stakes without a loop over the holders. A
global index counts the rewards per unit of stake, scaled by a precision, and each holder keeps the
index at which it last settled. What a holder is owed and has not settled is its stake times the
growth of the index since then.

Both divisions round down, so the accumulator is to be solvent: what was claimed, what is settled
and what is still to be settled never exceed what was accrued. `Sound` is the invariant. It holds the liabilities
scaled by the precision, before the second division, since only there do they add up. Every step
keeps it (`Sound.step`), and `Sound.claimable_le` reads solvency off it.

Settling is given slack: it may credit any amount that rounds down from what was earned.
-/

/-- A holder's account in a reward accumulator. -/
structure RewardAccount where
  /-- The holder's stake. -/
  stake : ℕ
  /-- Rewards settled and not yet claimed. -/
  pending : ℕ
  /-- The index at which the holder last settled. -/
  paid : ℕ

/-- A reward accumulator over the holders `ι`. -/
structure RewardIndex (ι : Type*) where
  /-- The holders' accounts. -/
  account : ι → RewardAccount
  /-- The stake that distributions are divided by. -/
  total : ℕ
  /-- Rewards per unit of stake so far, times the precision. -/
  index : ℕ
  /-- All rewards ever distributed. -/
  accrued : ℕ
  /-- All rewards ever claimed. -/
  claimed : ℕ

namespace RewardIndex

variable {ι : Type*} [DecidableEq ι] {precision : ℕ}

/-- The index's growth over the account's stake since it settled, in scaled units. -/
def growth (index : ℕ) (a : RewardAccount) : ℕ := a.stake * (index - a.paid)

/-- What the account has earned since it settled, rounded down. -/
def earned (precision index : ℕ) (a : RewardAccount) : ℕ := growth index a / precision

/-- What the accumulator owes the account, in scaled units. -/
def liability (precision index : ℕ) (a : RewardAccount) : ℕ :=
  a.pending * precision + growth index a

/-- The accumulator with the account of `i` replaced, and the tallies that go with it. -/
def setAccount (r : RewardIndex ι) (i : ι) (a : RewardAccount) (total claimed : ℕ) : RewardIndex ι :=
  { r with account := Function.update r.account i a, total := total, claimed := claimed }

/-- The steps of an accumulator. -/
inductive Step (precision : ℕ) (r : RewardIndex ι) : RewardIndex ι → Prop
  /-- Credit `i` with `v`, at most what it has earned, and move its checkpoint to the index. -/
  | settle (i : ι) (v : ℕ) (hv : v * precision ≤ growth r.index (r.account i)) :
      Step precision r (r.setAccount i
        { r.account i with pending := (r.account i).pending + v, paid := r.index } r.total r.claimed)
  /-- Change the stake of `i`, which has settled. -/
  | restake (i : ι) (x total : ℕ) (hp : (r.account i).paid = r.index)
      (ht : total + (r.account i).stake = r.total + x) :
      Step precision r (r.setAccount i { r.account i with stake := x } total r.claimed)
  /-- Cut the stake of `i` by `x` without settling it. -/
  | slash (i : ι) (x : ℕ) (hx : x ≤ (r.account i).stake) :
      Step precision r (r.setAccount i { r.account i with stake := (r.account i).stake - x }
        (r.total - x) r.claimed)
  /-- Pay `i` all it has settled. -/
  | claim (i : ι) :
      Step precision r (r.setAccount i { r.account i with pending := 0 } r.total
        (r.claimed + (r.account i).pending))
  /-- Share `share` among the stakes. -/
  | distribute (share : ℕ) (ht : 0 < r.total) :
      Step precision r { r with
        index := r.index + share * precision / r.total, accrued := r.accrued + share }

/-- The accumulator's runs. -/
abbrev Steps (precision : ℕ) : RewardIndex ι → RewardIndex ι → Prop :=
  Relation.ReflTransGen (Step precision)

/-- Replacing an account twice. -/
@[simp]
theorem setAccount_setAccount (r : RewardIndex ι) (i : ι) (a a' : RewardAccount)
    (total total' claimed claimed' : ℕ) :
    (r.setAccount i a total claimed).setAccount i a' total' claimed' =
      r.setAccount i a' total' claimed' := by
  simp [setAccount]

theorem setAccount_self (r : RewardIndex ι) (i : ι) :
    r.setAccount i (r.account i) r.total r.claimed = r := by
  simp [setAccount]

/-- The replaced account. -/
@[simp]
theorem setAccount_account (r : RewardIndex ι) (i : ι) (a : RewardAccount) (total claimed : ℕ) :
    (r.setAccount i a total claimed).account i = a := by
  simp [setAccount]

theorem Steps.settle_restake (r : RewardIndex ι) (i : ι) (v x total : ℕ)
    (hv : v * precision ≤ growth r.index (r.account i))
    (ht : total + (r.account i).stake = r.total + x) :
    Steps precision r (r.setAccount i ⟨x, (r.account i).pending + v, r.index⟩ total r.claimed) := by
  have hsettle : Step precision r _ := .settle i v hv
  refine (Relation.ReflTransGen.single hsettle).tail ?_
  have hrestake : Step precision (r.setAccount i
      { r.account i with pending := (r.account i).pending + v, paid := r.index } r.total r.claimed) _ :=
    .restake i x total (by simp [setAccount]) (by simpa [setAccount] using ht)
  simp only [setAccount_setAccount, setAccount_account] at hrestake
  exact hrestake

theorem Steps.settle_claim (r : RewardIndex ι) (i : ι) (v : ℕ)
    (hv : v * precision ≤ growth r.index (r.account i)) :
    Steps precision r (r.setAccount i ⟨(r.account i).stake, 0, r.index⟩ r.total
      (r.claimed + ((r.account i).pending + v))) := by
  have hsettle : Step precision r _ := .settle i v hv
  refine (Relation.ReflTransGen.single hsettle).tail ?_
  have hclaim : Step precision (r.setAccount i
      { r.account i with pending := (r.account i).pending + v, paid := r.index } r.total r.claimed) _ :=
    .claim i
  simp only [setAccount_setAccount, setAccount_account] at hclaim
  exact hclaim

variable [Fintype ι]

/-- A sound accumulator: the divisor is the sum of the stakes, no checkpoint is ahead of the index,
and the scaled liabilities are covered by what was accrued and not claimed. -/
structure Sound (precision : ℕ) (r : RewardIndex ι) : Prop where
  /-- The divisor of a distribution is the sum of the stakes. -/
  total_eq : r.total = ∑ i, (r.account i).stake
  /-- No checkpoint is ahead of the index. -/
  paid_le : ∀ i, (r.account i).paid ≤ r.index
  /-- The liabilities are covered. -/
  covered : ∑ i, liability precision r.index (r.account i) + r.claimed * precision ≤
    r.accrued * precision

omit [DecidableEq ι] in
theorem sound_of_empty {r : RewardIndex ι} (h : ∀ i, r.account i = ⟨0, 0, 0⟩) (ht : r.total = 0)
    (hc : r.claimed = 0) : Sound precision r where
  total_eq := by simp [h, ht]
  paid_le := by simp [h]
  covered := by simp [h, hc, liability, growth]

theorem Sound.setAccount {r : RewardIndex ι} (h : Sound precision r) (i : ι) (a : RewardAccount)
    (total claimed : ℕ) (hp : a.paid ≤ r.index) (ht : total + (r.account i).stake = r.total + a.stake)
    (hl : liability precision r.index a + claimed * precision ≤
      liability precision r.index (r.account i) + r.claimed * precision) :
    Sound precision (r.setAccount i a total claimed) where
  total_eq := by
    have hs := Sums.sum_update r.account i a RewardAccount.stake
    have := h.total_eq
    simp only [RewardIndex.setAccount]
    omega
  paid_le j := by
    simp only [RewardIndex.setAccount, Function.update_apply]
    split_ifs
    · exact hp
    · exact h.paid_le j
  covered := by
    have hs := Sums.sum_update r.account i a (liability precision r.index)
    have := h.covered
    simp only [RewardIndex.setAccount]
    omega

omit [DecidableEq ι] [Fintype ι] in
theorem growth_add {index : ℕ} (δ : ℕ) {a : RewardAccount} (h : a.paid ≤ index) :
    growth (index + δ) a = growth index a + a.stake * δ := by
  have hd : index + δ - a.paid = index - a.paid + δ := by omega
  rw [growth, growth, hd, Nat.mul_add]

omit [DecidableEq ι] in
theorem Sound.distribute {r : RewardIndex ι} (h : Sound precision r) (share : ℕ) :
    Sound precision { r with
      index := r.index + share * precision / r.total, accrued := r.accrued + share } where
  total_eq := h.total_eq
  paid_le i := (h.paid_le i).trans (Nat.le_add_right _ _)
  covered := by
    have hsum : ∑ i, liability precision (r.index + share * precision / r.total) (r.account i) =
        ∑ i, liability precision r.index (r.account i) +
          r.total * (share * precision / r.total) := by
      rw [h.total_eq, Finset.sum_mul, ← Finset.sum_add_distrib]
      refine Finset.sum_congr rfl fun i _ => ?_
      rw [liability, liability, growth_add _ (h.paid_le i), Nat.add_assoc]
    have hmul := Nat.mul_div_le (share * precision) r.total
    have hcov := h.covered
    dsimp only
    rw [hsum, Nat.add_mul]
    omega

/-- A step keeps the pool solvent. -/
theorem Sound.step {r r' : RewardIndex ι} (h : Sound precision r) (hs : Step precision r r') :
    Sound precision r' := by
  cases hs with
  | settle i v hv =>
    refine h.setAccount i _ _ _ le_rfl rfl ?_
    simp only [liability, growth, Nat.sub_self, Nat.mul_zero, Nat.add_mul] at hv ⊢
    omega
  | restake i x total hp ht =>
    refine h.setAccount i _ _ _ (h.paid_le i) ht ?_
    simp only [liability, growth, hp, Nat.sub_self, Nat.mul_zero]
    exact le_rfl
  -- A smaller stake grows by less, so the liability can only go down.
  | slash i x hx =>
    have htot : (r.account i).stake ≤ r.total := by
      rw [h.total_eq]
      exact Finset.single_le_sum_of_canonicallyOrdered
        (f := fun i => (r.account i).stake) (Finset.mem_univ i)
    refine h.setAccount i _ _ _ (h.paid_le i) (by dsimp only; omega) ?_
    have hmul : ((r.account i).stake - x) * (r.index - (r.account i).paid) ≤
        (r.account i).stake * (r.index - (r.account i).paid) :=
      Nat.mul_le_mul_right _ (Nat.sub_le _ _)
    simp only [liability, growth]
    omega
  | claim i =>
    refine h.setAccount i _ _ _ (h.paid_le i) rfl ?_
    simp only [liability, growth, Nat.add_mul, Nat.zero_mul]
    omega
  | distribute share _ => exact h.distribute share

theorem Sound.steps {r r' : RewardIndex ι} (h : Sound precision r) (hs : Steps precision r r') :
    Sound precision r' := by
  induction hs with
  | refl => exact h
  | tail _ hstep ih => exact ih.step hstep

variable {r : RewardIndex ι}

omit [DecidableEq ι] in
/-- Each account can be paid. -/
theorem Sound.liability_le (h : Sound precision r) (i : ι) :
    liability precision r.index (r.account i) + r.claimed * precision ≤ r.accrued * precision := by
  have hle : liability precision r.index (r.account i) ≤
      ∑ j, liability precision r.index (r.account j) :=
    Finset.single_le_sum_of_canonicallyOrdered
      (f := fun j => liability precision r.index (r.account j)) (Finset.mem_univ i)
  have hcov := h.covered
  omega

omit [DecidableEq ι] in
/-- All accounts together can be paid. -/
theorem Sound.claimable_le (h : Sound precision r) (hpos : 0 < precision) :
    r.claimed + ∑ i, ((r.account i).pending + earned precision r.index (r.account i)) ≤
      r.accrued := by
  refine Nat.le_of_mul_le_mul_right ?_ hpos
  have hle : (∑ i, ((r.account i).pending + earned precision r.index (r.account i))) * precision ≤
      ∑ i, liability precision r.index (r.account i) := by
    rw [Finset.sum_mul]
    refine Finset.sum_le_sum fun i _ => ?_
    rw [Nat.add_mul, liability]
    exact Nat.add_le_add_left (Nat.div_mul_le_self _ _) _
  have hcov := h.covered
  rw [Nat.add_mul]
  omega

/-! ## Cutting a stake without settling it -/

theorem sub_div_eq_iff {a b n : ℕ} (hb : b ≤ a) (hn : 0 < n) : (a - b) / n = a / n ↔ b ≤ a % n := by
  have hdiv := Nat.div_add_mod a n
  constructor
  · intro h
    have hle := Nat.div_mul_le_self (a - b) n
    rw [h, Nat.mul_comm] at hle
    omega
  · intro h
    refine Nat.div_eq_of_lt_le ?_ ?_
    · rw [Nat.mul_comm]
      omega
    · have hlt := Nat.mod_lt a hn
      rw [Nat.add_mul, Nat.one_mul, Nat.mul_comm]
      omega

theorem earned_cut_eq_iff {index x : ℕ} {a : RewardAccount} (hx : x ≤ a.stake)
    (hpos : 0 < precision) :
    earned precision index { a with stake := a.stake - x } = earned precision index a ↔
      x * (index - a.paid) ≤ growth index a % precision := by
  simp only [earned, growth, Nat.sub_mul]
  exact sub_div_eq_iff (Nat.mul_le_mul_right _ hx) hpos

end RewardIndex
