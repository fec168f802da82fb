import Mathlib.Algebra.GroupWithZero.Nat
import Mathlib.Algebra.Order.BigOperators.Group.Finset
import AuditGuard.Library.Sums

/-!
# Token ledgers

A ledger assigns a balance to each account of a finite type. The ledger carries the bound on its
supply: the balances sum to less than `cap`, so that no balance, and no sum of balances of distinct
accounts, leaves the number format that the token uses. A transfer moves exactly its amount, or does
not happen, and keeps the supply.
-/

/-- Balances of a token whose whole supply stays below `cap`. -/
structure Ledger (Account : Type*) [Fintype Account] (cap : ℕ) where
  /-- The balance of each account. -/
  balance : Account → ℕ
  /-- The supply fits the token's number format. -/
  supply_lt : ∑ a, balance a < cap

namespace Ledger

variable {Account : Type*} [Fintype Account] [DecidableEq Account] {cap : ℕ}

omit [DecidableEq Account] in
theorem balance_lt (l : Ledger Account cap) (a : Account) : l.balance a < cap :=
  lt_of_le_of_lt (Finset.single_le_sum_of_canonicallyOrdered (Finset.mem_univ a)) l.supply_lt

/-- The balances after `n` units moved from `src` to `dst`. -/
def moved (balance : Account → ℕ) (src dst : Account) (n : ℕ) : Account → ℕ :=
  let debited := Function.update balance src (balance src - n)
  Function.update debited dst (debited dst + n)

theorem sum_moved (balance : Account → ℕ) (src dst : Account) (n : ℕ) (h : n ≤ balance src) :
    ∑ a, moved balance src dst n a = ∑ a, balance a := by
  have hs := Sums.sum_update balance src (balance src - n) id
  have hd := Sums.sum_update (Function.update balance src (balance src - n)) dst
    (Function.update balance src (balance src - n) dst + n) id
  simp only [id] at hs hd
  simp only [moved]
  omega

omit [Fintype Account] in
theorem moved_zero (balance : Account → ℕ) (src dst : Account) :
    moved balance src dst 0 = balance := by
  simp [moved]

omit [Fintype Account] in
theorem moved_moved (balance : Account → ℕ) {src dst : Account} (h : src ≠ dst) (m n : ℕ) :
    moved (moved balance src dst m) src dst n = moved balance src dst (m + n) := by
  funext a
  rcases eq_or_ne a dst with rfl | hd
  · simp [moved, h.symm, Nat.add_assoc]
  · rcases eq_or_ne a src with rfl | hs
    · simp [moved, h, Nat.sub_sub]
    · simp [moved, hd, hs]

/-- `n` units from `src` to `dst`, when `src` has them. -/
def transfer (l : Ledger Account cap) (src dst : Account) (n : ℕ) : Option (Ledger Account cap) :=
  if h : n ≤ l.balance src then
    some ⟨moved l.balance src dst n, by rw [sum_moved _ _ _ _ h]; exact l.supply_lt⟩
  else none

/-- Payments out of one account, one after the other, when it has them all. -/
def payAll (src : Account) (payments : List (Account × ℕ)) (l : Ledger Account cap) :
    Option (Ledger Account cap) :=
  payments.foldlM (fun l payment => l.transfer src payment.1 payment.2) l

/-- Transfers one after the other, each with its sender, its receiver and its amount. -/
def transferAll (transfers : List (Account × Account × ℕ)) (l : Ledger Account cap) :
    Option (Ledger Account cap) :=
  transfers.foldlM (fun l t => l.transfer t.1 t.2.1 t.2.2) l

/-- A ledger in which one account holds the whole supply `n`. -/
def single (a : Account) (n : ℕ) (h : n < cap) : Ledger Account cap where
  balance := Function.update 0 a n
  supply_lt := by
    have hs := Sums.sum_update (0 : Account → ℕ) a n id
    simp only [id, Pi.zero_apply, Finset.sum_const_zero] at hs
    omega

theorem single_balance (a : Account) (n : ℕ) (h : n < cap) : (single a n h).balance a = n := by
  simp [single]

/-- A ledger in which each account that meets `p` holds `n`. -/
def spread (p : Account → Prop) [DecidablePred p] (n : ℕ)
    (h : (Finset.univ.filter p).card * n < cap) : Ledger Account cap where
  balance a := if p a then n else 0
  supply_lt := by
    rw [← Finset.sum_filter, Finset.sum_const_nat fun _ _ => rfl]
    exact h

theorem transfer_isSome_iff (l : Ledger Account cap) (src dst : Account) (n : ℕ) :
    (∃ l', l.transfer src dst n = some l') ↔ n ≤ l.balance src := by
  unfold transfer
  split_ifs with h <;> simp [h]

theorem transfer_zero (l : Ledger Account cap) (src dst : Account) :
    l.transfer src dst 0 = some l := by
  unfold transfer
  rw [dif_pos (Nat.zero_le _)]
  simp only [moved_zero]

variable {l l' : Ledger Account cap} {src dst : Account} {n : ℕ}

theorem transfer_eq_some (h : l.transfer src dst n = some l') :
    n ≤ l.balance src ∧ l'.balance = moved l.balance src dst n := by
  unfold transfer at h
  split_ifs at h with hn
  · cases h
    exact ⟨hn, rfl⟩

theorem transfer_balance_other (h : l.transfer src dst n = some l') {a : Account} (hs : a ≠ src)
    (hd : a ≠ dst) : l'.balance a = l.balance a := by
  rw [(transfer_eq_some h).2, moved, Function.update_of_ne hd, Function.update_of_ne hs]

theorem transfer_balance_src (h : l.transfer src dst n = some l') (hne : src ≠ dst) :
    l'.balance src + n = l.balance src := by
  obtain ⟨hn, hb⟩ := transfer_eq_some h
  rw [hb, moved, Function.update_of_ne hne, Function.update_self]
  omega

theorem transfer_balance_dst (h : l.transfer src dst n = some l') (hne : src ≠ dst) :
    l'.balance dst = l.balance dst + n := by
  rw [(transfer_eq_some h).2, moved, Function.update_self, Function.update_of_ne hne.symm]

theorem transfer_balance_self (h : l.transfer src src n = some l') (a : Account) :
    l'.balance a = l.balance a := by
  obtain ⟨hn, hb⟩ := transfer_eq_some h
  rw [hb, moved]
  rcases eq_or_ne a src with rfl | ha
  · rw [Function.update_self, Function.update_self]
    omega
  · rw [Function.update_of_ne ha, Function.update_of_ne ha]

theorem transfer_src_le (h : l.transfer src dst n = some l') :
    l.balance src ≤ l'.balance src + n := by
  rcases eq_or_ne src dst with rfl | hne
  · rw [transfer_balance_self h]
    omega
  · rw [transfer_balance_src h hne]

theorem le_transfer_balance (h : l.transfer src dst n = some l') {a : Account} (hs : a ≠ src) :
    l.balance a ≤ l'.balance a := by
  rcases eq_or_ne a dst with rfl | hd
  · rw [transfer_balance_dst h hs.symm]
    omega
  · rw [transfer_balance_other h hs hd]

/-- No payments, or one payment and then the others. -/
@[simp]
theorem payAll_nil : l.payAll src [] = some l := rfl

@[simp]
theorem payAll_cons {payment : Account × ℕ} {payments : List (Account × ℕ)} :
    l.payAll src (payment :: payments) =
      (l.transfer src payment.1 payment.2).bind (payAll src payments) := rfl

theorem payAll_append {payments payments' : List (Account × ℕ)} :
    l.payAll src (payments ++ payments') =
      (l.payAll src payments).bind (payAll src payments') := List.foldlM_append

theorem payAll_balance_src {payments : List (Account × ℕ)} (h : l.payAll src payments = some l')
    (hne : ∀ payment ∈ payments, payment.1 ≠ src) :
    l'.balance src + (payments.map Prod.snd).sum = l.balance src := by
  induction payments generalizing l with
  | nil =>
    obtain rfl := Option.some.inj h
    rfl
  | cons payment payments ih =>
    rw [payAll_cons, Option.bind_eq_some_iff] at h
    obtain ⟨l₁, hfirst, hrest⟩ := h
    rw [List.forall_mem_cons] at hne
    have hpaid := transfer_balance_src hfirst hne.1.symm
    have htail := ih hrest hne.2
    rw [List.map_cons, List.sum_cons]
    omega

theorem payAll_src_le {payments : List (Account × ℕ)} (h : l.payAll src payments = some l') :
    l.balance src ≤ l'.balance src + (payments.map Prod.snd).sum := by
  induction payments generalizing l with
  | nil =>
    obtain rfl := Option.some.inj h
    rfl
  | cons payment payments ih =>
    rw [payAll_cons, Option.bind_eq_some_iff] at h
    obtain ⟨l₁, hfirst, hrest⟩ := h
    have hpaid := transfer_src_le hfirst
    have htail := ih hrest
    rw [List.map_cons, List.sum_cons]
    omega

theorem payAll_balance_other {payments : List (Account × ℕ)} (h : l.payAll src payments = some l')
    {a : Account} (ha : a ≠ src) :
    l'.balance a = l.balance a + (payments.map fun payment => if payment.1 = a then payment.2 else 0).sum := by
  induction payments generalizing l with
  | nil =>
    obtain rfl := Option.some.inj h
    rfl
  | cons payment payments ih =>
    rw [payAll_cons, Option.bind_eq_some_iff] at h
    obtain ⟨l₁, hfirst, hrest⟩ := h
    have htail := ih hrest
    rw [List.map_cons, List.sum_cons, htail]
    split_ifs with hpaid
    · subst hpaid
      rw [transfer_balance_dst hfirst ha.symm, Nat.add_assoc]
    · rw [transfer_balance_other hfirst ha fun h => hpaid h.symm, Nat.zero_add]

theorem transfer_balance (h : l.transfer src dst n = some l') (a : Account) :
    l'.balance a + (if src = a then n else 0) = l.balance a + if dst = a then n else 0 := by
  rcases eq_or_ne src dst with rfl | hne
  · rw [transfer_balance_self h]
  · rcases eq_or_ne src a with rfl | hs
    · rw [if_pos rfl, if_neg hne.symm, transfer_balance_src h hne, Nat.add_zero]
    · rcases eq_or_ne dst a with rfl | hd
      · rw [if_neg hs, if_pos rfl, transfer_balance_dst h hne, Nat.add_zero]
      · rw [if_neg hs, if_neg hd, transfer_balance_other h hs.symm hd.symm]

/-- What was sent can be sent back, and then the ledger is as it was. -/
theorem transfer_back (h : l.transfer src dst n = some l') (hne : src ≠ dst) : l'.transfer dst src n = some l := by
  obtain ⟨l'', hback⟩ := (transfer_isSome_iff l' dst src n).mpr (by
    rw [transfer_balance_dst h hne]
    exact Nat.le_add_left ..)
  have hsame : l''.balance = l.balance := by
    funext a
    have hthere := transfer_balance h a
    have hhere := transfer_balance hback a
    omega
  obtain ⟨balance, _⟩ := l
  obtain ⟨balance'', _⟩ := l''
  obtain rfl : balance'' = balance := hsame
  exact hback

theorem transferAll_append {transfers transfers' : List (Account × Account × ℕ)} :
    l.transferAll (transfers ++ transfers') =
      (l.transferAll transfers).bind (transferAll transfers') := List.foldlM_append

theorem transferAll_balance {transfers : List (Account × Account × ℕ)}
    (h : l.transferAll transfers = some l') (a : Account) :
    l'.balance a + (transfers.map fun t => if t.1 = a then t.2.2 else 0).sum =
      l.balance a + (transfers.map fun t => if t.2.1 = a then t.2.2 else 0).sum := by
  induction transfers generalizing l with
  | nil =>
    obtain rfl := Option.some.inj h
    rfl
  | cons t transfers ih =>
    rw [transferAll, List.foldlM_cons] at h
    obtain ⟨l₁, hfirst, hrest⟩ := Option.bind_eq_some_iff.mp h
    have hmoved := transfer_balance hfirst a
    have htail := ih hrest
    rw [List.map_cons, List.map_cons, List.sum_cons, List.sum_cons]
    omega

theorem le_transferAll_balance {transfers : List (Account × Account × ℕ)}
    (h : l.transferAll transfers = some l') {a : Account} (hne : ∀ t ∈ transfers, t.1 ≠ a) :
    l.balance a ≤ l'.balance a := by
  have hmoved := transferAll_balance h a
  have hnothing : (transfers.map fun t => if t.1 = a then t.2.2 else 0).sum = 0 := by
    refine List.sum_eq_zero fun x hx => ?_
    obtain ⟨t, ht, rfl⟩ := List.mem_map.mp hx
    exact if_neg (hne t ht)
  omega

end Ledger
