import Mathlib.Algebra.BigOperators.Group.List.Basic
import Mathlib.Algebra.GroupWithZero.Nat

/-!
# Topping up a wallet

`ensureOperationalHbar` of `hbar-autotopup.ts` and `ensureBidCollateralBalance` of `guard-autotopup.ts`: one donor
after another sends what is missing, up to a maximum and down to its reserve, and the recipient's balance is read after
each transfer. All that a donor does stands in one `try` block, so that any error counts as a transfer that has failed.

A transfer may have landed although there is an error: then the amount that is reported is too small, and the next
donor sends as much again. Where a transfer is confirmed and only the balance cannot be read after it, the amount is
reported, but the loop goes on with the balance of before. `Safe` says when this does no harm.

Amounts are in the smallest unit, and none of the settings is negative. Gas is left out.
-/

namespace AuditGuard.TopUp

/-- How a transfer ends. -/
inductive Transfer
  /-- There is an error, and nothing has landed. -/
  | refused
  /-- There is an error, and the transfer has landed. -/
  | lost
  /-- The transfer is confirmed; then the balance of the recipient can be `read`, or not. -/
  | confirmed (read : Bool)

/-- The wallet of a donor key, and what it meets when it is asked. -/
structure Donor where
  /-- In lower case. -/
  address : String
  /-- The wallet can be made of its key. -/
  wallet : Bool
  balance : ℕ
  /-- The balance can be read. -/
  readable : Bool
  transfer : Transfer

/-- The settings of a top-up. -/
structure Settings where
  /-- `TOP_UP_ENABLED`. -/
  enabled : Bool
  /-- `DONOR_MIN_RESERVE_WEI`. -/
  donorMinReserve : ℕ
  /-- `TOP_UP_MAX_TRANSFER_WEI`; there is no maximum if it is zero. -/
  topUpMaxTransfer : ℕ

/-- The variables of the loop, and what has really happened. -/
structure Tally where
  currentBalance : ℕ
  toppedUp : ℕ
  donorAddressesUsed : List String
  /-- What the recipient has. -/
  balance : ℕ
  /-- The transfers that have landed. -/
  sent : List (Donor × ℕ)

/-- What a donor sends if so much is `missing`. -/
def Settings.transferAmount (s : Settings) (donor : Donor) (missing : ℕ) : ℕ :=
  let transferAmount := if 0 < s.topUpMaxTransfer ∧ s.topUpMaxTransfer < missing then s.topUpMaxTransfer else missing
  min transferAmount (donor.balance - s.donorMinReserve)

/-- A transfer lands. -/
def Tally.land (tally : Tally) (donor : Donor) (amount : ℕ) : Tally :=
  { tally with balance := tally.balance + amount, sent := tally.sent ++ [(donor, amount)] }

/-- The `try` block of a transfer. -/
def Tally.transfer (tally : Tally) (donor : Donor) (amount : ℕ) : Tally :=
  match donor.transfer with
  | .refused => tally
  | .lost => tally.land donor amount
  | .confirmed read =>
    let landed := { tally.land donor amount with toppedUp := tally.toppedUp + amount }
    if read then { landed with currentBalance := landed.balance } else landed

/-- The donor is among those that were used. -/
def Tally.uses (tally : Tally) (donor : Donor) : Tally :=
  { tally with donorAddressesUsed :=
      if donor.address ∈ tally.donorAddressesUsed then tally.donorAddressesUsed
      else tally.donorAddressesUsed ++ [donor.address] }

/-- The loop over the donors. -/
def topUp (s : Settings) (required target : ℕ) (recipient : String) : Tally → List Donor → Tally
  | tally, [] => tally
  | tally, donor :: rest =>
    if required ≤ tally.currentBalance then tally
    else if donor.wallet = false ∨ donor.address = recipient then topUp s required target recipient tally rest
    else if donor.readable = false ∨ donor.balance ≤ s.donorMinReserve then
      topUp s required target recipient (tally.uses donor) rest
    else if target ≤ tally.currentBalance then tally.uses donor
    else
      let amount := s.transferAmount donor (target - tally.currentBalance)
      if amount = 0 then topUp s required target recipient (tally.uses donor) rest
      else topUp s required target recipient ((tally.uses donor).transfer donor amount) rest

/-- What a call returns. -/
structure Result where
  ok : Bool
  balanceWei : ℕ
  attemptedTopUp : Bool
  toppedUpWei : ℕ
  reason : Option String
  reasonCode : Option String
  donorAddressesUsed : Option (List String)

/-- A call at its end: what it returns, unless it throws, what the recipient has, and the transfers that landed. -/
structure Ended where
  result : Option Result
  balance : ℕ
  sent : List (Donor × ℕ)

/-- The settings of `hbar-autotopup.ts`. -/
structure HbarSettings extends Settings where
  /-- `MIN_REQUIRED_WEI`. -/
  minRequired : ℕ
  /-- `TARGET_BALANCE_WEI`. -/
  targetBalance : ℕ

/-- What is required: `requiredWei`, or what the settings say. -/
def HbarSettings.required (s : HbarSettings) (requiredWei : ℕ) : ℕ :=
  if 0 < requiredWei then requiredWei else s.minRequired

/-- The target of a top-up. -/
def HbarSettings.target (s : HbarSettings) (requiredWei : ℕ) : ℕ :=
  if s.required requiredWei < s.targetBalance then s.targetBalance else s.required requiredWei

/-- `ensureOperationalHbar`, of a recipient whose balance can be `readable` at first or not. -/
def ensureOperationalHbar (s : HbarSettings) (provider readable : Bool) (recipient : String)
    (requiredWei initialBalance : ℕ) (donors : List Donor) : Ended :=
  let untouched (result : Option Result) : Ended := ⟨result, initialBalance, []⟩
  if provider = false then
    untouched (some ⟨false, 0, false, 0, some "HBAR top-up unavailable: missing provider", some "hbar_topup_failed",
      some []⟩)
  else if readable = false then untouched none
  else if s.required requiredWei ≤ initialBalance then
    untouched (some ⟨true, initialBalance, false, 0, none, none, some []⟩)
  else if s.enabled = false then
    untouched (some ⟨false, initialBalance, false, 0, some "Insufficient payer HBAR for transaction fees",
      some "insufficient_payer_hbar", some []⟩)
  else if donors = [] then
    untouched (some ⟨false, initialBalance, true, 0,
      some "Insufficient payer HBAR and no valid top-up donor keys configured", some "hbar_topup_failed", some []⟩)
  else
    let tally := topUp s.toSettings (s.required requiredWei) (s.target requiredWei) recipient
      ⟨initialBalance, 0, [], initialBalance, []⟩ donors
    if s.required requiredWei ≤ tally.currentBalance then
      ⟨some ⟨true, tally.currentBalance, true, tally.toppedUp, none, none, some tally.donorAddressesUsed⟩,
        tally.balance, tally.sent⟩
    else
      ⟨some ⟨false, tally.currentBalance, true, tally.toppedUp,
        some ("Insufficient payer HBAR for transaction fees after auto top-up attempt " ++
          "(donors exhausted or unable to fund gas)"),
        some "insufficient_payer_hbar_after_topup", some tally.donorAddressesUsed⟩, tally.balance, tally.sent⟩

/-- The settings of `guard-autotopup.ts`. -/
structure GuardSettings extends Settings where
  /-- `TOP_UP_BUFFER_WEI`. -/
  topUpBuffer : ℕ

/-- `ensureBidCollateralBalance`, of a recipient whose balance can be `readable` at first or not. -/
def ensureBidCollateralBalance (s : GuardSettings) (readable : Bool) (recipient : String)
    (requiredWei initialBalance : ℕ) (donors : List Donor) : Ended :=
  let untouched (result : Option Result) : Ended := ⟨result, initialBalance, []⟩
  if readable = false then untouched none
  else if requiredWei ≤ initialBalance then untouched (some ⟨true, initialBalance, false, 0, none, none, none⟩)
  else if s.enabled = false then
    untouched (some ⟨false, initialBalance, false, 0, some "Insufficient GUARD balance for bid collateral", none, none⟩)
  else if donors = [] then
    untouched (some ⟨false, initialBalance, true, 0,
      some "Insufficient GUARD balance and no valid top-up donor keys configured", none, some []⟩)
  else
    let tally := topUp s.toSettings requiredWei (requiredWei + s.topUpBuffer) recipient
      ⟨initialBalance, 0, [], initialBalance, []⟩ donors
    if requiredWei ≤ tally.currentBalance then
      ⟨some ⟨true, tally.currentBalance, true, tally.toppedUp, none, none, some tally.donorAddressesUsed⟩,
        tally.balance, tally.sent⟩
    else
      ⟨some ⟨false, tally.currentBalance, true, tally.toppedUp,
        some ("Insufficient GUARD balance for bid collateral after auto top-up attempt " ++
          "(donors exhausted or unable to pay transfer fees)"),
        none, some tally.donorAddressesUsed⟩, tally.balance, tally.sent⟩

/-! ## What is claimed of a call -/

/-- What was sent. -/
def total (sent : List (Donor × ℕ)) : ℕ := (sent.map Prod.snd).sum

/-- Each donor sends at most once, at most the maximum, and keeps its reserve; all of them send no more than is missing
to the target; what is reported was sent, and the call is successful exactly if the recipient has what is required. -/
structure Sound (s : Settings) (required target initialBalance : ℕ) (donors : List Donor) (ended : Ended) : Prop where
  once : (ended.sent.map Prod.fst).Sublist donors
  maximum : ∀ x ∈ ended.sent, x.2 ≤ s.topUpMaxTransfer
  reserve : ∀ x ∈ ended.sent, s.donorMinReserve + x.2 ≤ x.1.balance
  total : total ended.sent ≤ target - initialBalance
  received : ended.balance = initialBalance + TopUp.total ended.sent
  reported : ∀ result, ended.result = some result → result.toppedUpWei = TopUp.total ended.sent
  ok : ∀ result, ended.result = some result → (result.ok = true ↔ required ≤ ended.balance)

/-- What a donor is asked for when so much is `missing`, if it is asked. -/
def Settings.offer (s : Settings) (recipient : String) (missing : ℕ) (donor : Donor) : Option ℕ :=
  if donor.wallet = false ∨ donor.address = recipient ∨ donor.readable = false ∨ donor.balance ≤ s.donorMinReserve then
    none
  else some (s.transferAmount donor missing)

/-- The donors do no harm to a recipient that is `believed` to have so much, and has `unseen` besides: no transfer
lands with an error; together with what is unseen, each stays within what is missing to the target, and within a
maximum that is set; and in the end nothing is unseen that makes up what is required. -/
def Safe (s : Settings) (required target : ℕ) (recipient : String) : ℕ → ℕ → List Donor → Prop
  | believed, unseen, [] => required ≤ believed + unseen → required ≤ believed
  | believed, unseen, donor :: rest =>
    if required ≤ believed then True
    else match s.offer recipient (target - believed) donor with
      | none => Safe s required target recipient believed unseen rest
      | some amount => match donor.transfer with
        | .refused => Safe s required target recipient believed unseen rest
        | .lost => False
        | .confirmed read =>
          0 < s.topUpMaxTransfer ∧ unseen + amount ≤ target - believed ∧
            if read then Safe s required target recipient (believed + unseen + amount) 0 rest
            else Safe s required target recipient believed (unseen + amount) rest

variable {s : Settings} {required target initialBalance amount missing : ℕ} {recipient : String} {donor : Donor}
  {donors rest : List Donor} {tally : Tally}

/-! ## One donor -/

theorem transferAmount_pos (hmissing : 0 < missing) (hreserve : s.donorMinReserve < donor.balance) :
    0 < s.transferAmount donor missing := by
  unfold Settings.transferAmount
  dsimp only
  split_ifs <;> omega

theorem transferAmount_le_missing : s.transferAmount donor missing ≤ missing := by
  unfold Settings.transferAmount
  dsimp only
  split_ifs <;> omega

theorem reserve_add_transferAmount_le (hreserve : s.donorMinReserve < donor.balance) :
    s.donorMinReserve + s.transferAmount donor missing ≤ donor.balance := by
  unfold Settings.transferAmount
  dsimp only
  omega

theorem transferAmount_le_maximum (hmax : 0 < s.topUpMaxTransfer) :
    s.transferAmount donor missing ≤ s.topUpMaxTransfer := by
  unfold Settings.transferAmount
  dsimp only
  split_ifs <;> omega

/-- What is known of an offer. -/
structure Settings.Offers (s : Settings) (donor : Donor) (missing amount : ℕ) : Prop where
  pos : 0 < amount
  missing : amount ≤ missing
  reserve : s.donorMinReserve + amount ≤ donor.balance
  maximum : 0 < s.topUpMaxTransfer → amount ≤ s.topUpMaxTransfer

theorem offers_of_offer (hmissing : 0 < missing) (h : s.offer recipient missing donor = some amount) :
    s.Offers donor missing amount := by
  unfold Settings.offer at h
  split_ifs at h with hskip
  obtain rfl := Option.some.inj h
  have hreserve : s.donorMinReserve < donor.balance := by
    by_contra hle
    exact hskip (.inr (.inr (.inr (by omega))))
  exact ⟨transferAmount_pos hmissing hreserve, transferAmount_le_missing, reserve_add_transferAmount_le hreserve,
    transferAmount_le_maximum⟩

/-- A tally with other donors that were used. -/
def Tally.withUsed (tally : Tally) (used : List String) : Tally := { tally with donorAddressesUsed := used }

theorem topUp_cons (hlt : tally.currentBalance < required) (hle : required ≤ target) :
    ∃ used, topUp s required target recipient tally (donor :: rest) =
      topUp s required target recipient
        (match s.offer recipient (target - tally.currentBalance) donor with
          | none => tally.withUsed used
          | some amount => (tally.withUsed used).transfer donor amount) rest := by
  have hmissing : 0 < target - tally.currentBalance := by omega
  rw [topUp, if_neg (by omega)]
  unfold Settings.offer
  by_cases hskip : donor.wallet = false ∨ donor.address = recipient
  · refine ⟨tally.donorAddressesUsed, ?_⟩
    rw [if_pos hskip, if_pos (by tauto)]
    rfl
  · by_cases hread : donor.readable = false ∨ donor.balance ≤ s.donorMinReserve
    · refine ⟨(tally.uses donor).donorAddressesUsed, ?_⟩
      rw [if_neg hskip, if_pos hread, if_pos (by tauto)]
      rfl
    · refine ⟨(tally.uses donor).donorAddressesUsed, ?_⟩
      have hpos : 0 < s.transferAmount donor (target - tally.currentBalance) :=
        transferAmount_pos hmissing (by omega)
      have hnone : ¬ (donor.wallet = false ∨ donor.address = recipient ∨ donor.readable = false ∨
          donor.balance ≤ s.donorMinReserve) := by tauto
      have htarget : ¬ target ≤ tally.currentBalance := by omega
      rw [if_neg hskip, if_neg hread, if_neg htarget, if_neg hnone]
      dsimp only
      rw [if_neg (Nat.pos_iff_ne_zero.mp hpos)]
      rfl

/-! ## Every donor -/

/-- What holds of the tally at any time. -/
structure Tally.Fair (s : Settings) (initialBalance : ℕ) (tally : Tally) : Prop where
  balance : tally.balance = initialBalance + total tally.sent
  current : tally.currentBalance ≤ tally.balance
  toppedUp : tally.toppedUp ≤ total tally.sent
  sent : ∀ x ∈ tally.sent, 0 < x.2 ∧ s.donorMinReserve + x.2 ≤ x.1.balance

theorem Tally.Fair.withUsed (h : tally.Fair s initialBalance) (used : List String) :
    (tally.withUsed used).Fair s initialBalance := ⟨h.balance, h.current, h.toppedUp, h.sent⟩

theorem total_append (sent : List (Donor × ℕ)) (donor : Donor) (amount : ℕ) :
    total (sent ++ [(donor, amount)]) = total sent + amount := by
  simp [total]

theorem Tally.Fair.land (h : tally.Fair s initialBalance) (hoffers : s.Offers donor missing amount) :
    (tally.land donor amount).Fair s initialBalance where
  balance := by
    have hbalance := h.balance
    simp only [Tally.land, total_append]
    omega
  current := by
    have hcurrent := h.current
    simp only [Tally.land]
    omega
  toppedUp := by
    have htoppedUp := h.toppedUp
    simp only [Tally.land, total_append]
    omega
  sent x hx := by
    rcases List.mem_append.mp hx with hx | hx
    · exact h.sent x hx
    · rw [List.mem_singleton.mp hx]
      exact ⟨hoffers.pos, hoffers.reserve⟩

theorem transfer_refused (h : donor.transfer = .refused) : tally.transfer donor amount = tally := by
  rw [Tally.transfer, h]

theorem transfer_lost (h : donor.transfer = .lost) : tally.transfer donor amount = tally.land donor amount := by
  rw [Tally.transfer, h]

theorem transfer_confirmed {read : Bool} (h : donor.transfer = .confirmed read) :
    tally.transfer donor amount =
      { tally.land donor amount with
        toppedUp := tally.toppedUp + amount
        currentBalance := if read then tally.balance + amount else tally.currentBalance } := by
  rw [Tally.transfer, h]
  cases read <;> rfl

theorem Tally.Fair.transfer (h : tally.Fair s initialBalance) (hoffers : s.Offers donor missing amount) :
    (tally.transfer donor amount).Fair s initialBalance := by
  have hland := h.land hoffers
  have htoppedUp : tally.toppedUp + amount ≤ total (tally.land donor amount).sent := by
    have hle := h.toppedUp
    simp only [Tally.land, total_append]
    omega
  cases htransfer : donor.transfer with
  | refused =>
    rw [transfer_refused htransfer]
    exact h
  | lost =>
    rw [transfer_lost htransfer]
    exact hland
  | confirmed read =>
    rw [transfer_confirmed htransfer]
    cases read
    · exact ⟨hland.balance, hland.current, htoppedUp, hland.sent⟩
    · exact ⟨hland.balance, Nat.le_refl _, htoppedUp, hland.sent⟩

/-- A donor sends nothing, or one amount. -/
theorem sent_transfer (tally : Tally) (donor : Donor) (amount : ℕ) :
    (tally.transfer donor amount).sent = tally.sent ∨
      (tally.transfer donor amount).sent = tally.sent ++ [(donor, amount)] := by
  cases htransfer : donor.transfer with
  | refused => exact .inl (congrArg Tally.sent (transfer_refused htransfer))
  | lost => exact .inr (congrArg Tally.sent (transfer_lost htransfer))
  | confirmed read => exact .inr (congrArg Tally.sent (transfer_confirmed htransfer))

theorem topUp_fair (hle : required ≤ target) (h : tally.Fair s initialBalance) :
    (topUp s required target recipient tally donors).Fair s initialBalance := by
  induction donors generalizing tally with
  | nil => exact h
  | cons donor rest ih =>
    by_cases hlt : tally.currentBalance < required
    · obtain ⟨used, heq⟩ := topUp_cons (s := s) hlt hle
      rw [heq]
      cases hoffer : s.offer recipient (target - tally.currentBalance) donor with
      | none => exact ih (h.withUsed used)
      | some amount => exact ih ((h.withUsed used).transfer (offers_of_offer (by omega) hoffer))
    · rw [topUp, if_pos (by omega)]
      exact h

theorem topUp_sublist (hle : required ≤ target) :
    ((topUp s required target recipient tally donors).sent.map Prod.fst).Sublist
      (tally.sent.map Prod.fst ++ donors) := by
  induction donors generalizing tally with
  | nil =>
    rw [topUp, List.append_nil]
  | cons donor rest ih =>
    by_cases hlt : tally.currentBalance < required
    · obtain ⟨used, heq⟩ := topUp_cons (s := s) hlt hle
      rw [heq]
      refine ih.trans ?_
      have hskip : (tally.sent.map Prod.fst ++ rest).Sublist (tally.sent.map Prod.fst ++ donor :: rest) :=
        List.Sublist.append (List.Sublist.refl _) (List.sublist_cons_self donor rest)
      cases s.offer recipient (target - tally.currentBalance) donor with
      | none => exact hskip
      | some amount =>
        dsimp only
        rcases sent_transfer (tally.withUsed used) donor amount with hsent | hsent
        · rw [hsent]
          exact hskip
        · rw [hsent, List.map_append, List.append_assoc]
          exact List.Sublist.refl _
    · rw [topUp, if_pos (by omega)]
      exact List.sublist_append_left _ _

/-! ## What is safe -/

/-- What is claimed of a tally before the end of the loop. -/
structure Tally.Good (s : Settings) (target : ℕ) (tally : Tally) : Prop where
  maximum : ∀ x ∈ tally.sent, x.2 ≤ s.topUpMaxTransfer
  target : tally.sent ≠ [] → tally.balance ≤ target
  reported : tally.toppedUp = total tally.sent

theorem good_withUsed_iff {used : List String} : (tally.withUsed used).Good s target ↔ tally.Good s target :=
  ⟨fun h => ⟨h.maximum, h.target, h.reported⟩, fun h => ⟨h.maximum, h.target, h.reported⟩⟩

theorem not_good_lost (h : tally.Fair s initialBalance) (hoffers : s.Offers donor missing amount) :
    ¬ (tally.land donor amount).Good s target := by
  intro hgood
  have hreported := hgood.reported
  have htoppedUp := h.toppedUp
  have hpos := hoffers.pos
  simp only [Tally.land, total_append] at hreported
  omega

theorem good_confirmed_iff {tally' : Tally} (h : tally.Fair s initialBalance) (hlt : tally.currentBalance < target)
    (hoffers : s.Offers donor missing amount) (hsent : tally'.sent = tally.sent ++ [(donor, amount)])
    (hbalance : tally'.balance = tally.balance + amount) (htoppedUp : tally'.toppedUp = tally.toppedUp + amount) :
    tally'.Good s target ↔ tally.Good s target ∧ 0 < s.topUpMaxTransfer ∧
      tally.balance - tally.currentBalance + amount ≤ target - tally.currentBalance := by
  have hcurrent := h.current
  have hpos := hoffers.pos
  have hmem : (donor, amount) ∈ tally'.sent := by
    rw [hsent]
    exact List.mem_append_right _ (List.mem_singleton_self _)
  constructor
  · intro hgood
    have htarget := hgood.target (List.ne_nil_of_mem hmem)
    have hmaximum := hgood.maximum _ hmem
    have hreported := hgood.reported
    rw [hsent, total_append] at hreported
    refine ⟨⟨fun x hx => ?_, fun _ => by omega, by omega⟩, by dsimp only at hmaximum; omega, by omega⟩
    exact hgood.maximum x (by rw [hsent]; exact List.mem_append_left _ hx)
  · rintro ⟨hgood, hmaximum, hmissing⟩
    refine ⟨fun x hx => ?_, fun _ => by omega, ?_⟩
    · rw [hsent] at hx
      rcases List.mem_append.mp hx with hx | hx
      · exact hgood.maximum x hx
      · rw [List.mem_singleton.mp hx]
        exact hoffers.maximum hmaximum
    · rw [hsent, total_append, htoppedUp, hgood.reported]

/-- The donors leave the tally as it should be, with nothing unseen that is required, exactly if it was so before and
they are safe. -/
theorem topUp_good_iff (hle : required ≤ target) (h : tally.Fair s initialBalance) :
    (topUp s required target recipient tally donors).Good s target ∧
        (required ≤ (topUp s required target recipient tally donors).balance →
          required ≤ (topUp s required target recipient tally donors).currentBalance) ↔
      tally.Good s target ∧
        Safe s required target recipient tally.currentBalance (tally.balance - tally.currentBalance) donors := by
  have hcurrent := h.current
  induction donors generalizing tally with
  | nil =>
    have hsum : tally.currentBalance + (tally.balance - tally.currentBalance) = tally.balance := by omega
    rw [topUp, Safe, hsum]
  | cons donor rest ih =>
    by_cases hlt : tally.currentBalance < required
    · obtain ⟨used, heq⟩ := topUp_cons (s := s) hlt hle
      rw [heq, Safe, if_neg (by omega)]
      cases hoffer : s.offer recipient (target - tally.currentBalance) donor with
      | none => exact (ih (h.withUsed used) hcurrent).trans (and_congr_left fun _ => good_withUsed_iff)
      | some amount =>
        have hoffers := offers_of_offer (by omega) hoffer
        have hfair := (h.withUsed used).transfer hoffers
        refine (ih hfair hfair.current).trans ?_
        have hmissing : tally.currentBalance < target := by omega
        dsimp only
        cases htransfer : donor.transfer with
        | refused =>
          rw [transfer_refused htransfer]
          exact and_congr_left fun _ => good_withUsed_iff
        | lost =>
          rw [transfer_lost htransfer]
          exact iff_of_false (fun h' => not_good_lost (h.withUsed used) hoffers h'.1) fun h' => h'.2
        | confirmed read =>
          rw [transfer_confirmed htransfer]
          refine (and_congr_left' (good_confirmed_iff h hmissing hoffers rfl rfl rfl)).trans ?_
          rw [and_assoc, and_assoc]
          -- Either the balance is read, and nothing is unseen, or the amount is unseen, too.
          cases read with
          | true =>
            have hsum : tally.currentBalance + (tally.balance - tally.currentBalance) + amount =
              tally.balance + amount := by omega
            dsimp only [Tally.land, Tally.withUsed]
            rw [if_pos rfl, if_pos rfl, hsum, Nat.sub_self]
          | false =>
            have hunseen : tally.balance + amount - tally.currentBalance =
              tally.balance - tally.currentBalance + amount := by omega
            dsimp only [Tally.land, Tally.withUsed]
            rw [if_neg Bool.false_ne_true, if_neg Bool.false_ne_true, hunseen]
    · rw [topUp, if_pos (by omega), Safe, if_pos (by omega)]
      exact and_congr_right fun _ => iff_of_true (fun _ => by omega) trivial

/-! ## Every call -/

theorem sound_untouched_iff (result : Option Result) :
    Sound s required target initialBalance donors ⟨result, initialBalance, []⟩ ↔
      ∀ r, result = some r → r.toppedUpWei = 0 ∧ (r.ok = true ↔ required ≤ initialBalance) := by
  constructor
  · intro h r hr
    exact ⟨h.reported r hr, h.ok r hr⟩
  · intro h
    refine ⟨List.nil_sublist _, ?_, ?_, Nat.zero_le _, rfl, fun r hr => (h r hr).1, fun r hr => (h r hr).2⟩
    · intro x hx
      exact absurd hx List.not_mem_nil
    · intro x hx
      exact absurd hx List.not_mem_nil

/-- A call that asks the donors is sound exactly if they are safe. -/
theorem sound_topUp_iff {r : Result} (hle : required ≤ target) (hlt : initialBalance < required)
    (htally : tally = topUp s required target recipient ⟨initialBalance, 0, [], initialBalance, []⟩ donors)
    (hreported : r.toppedUpWei = tally.toppedUp) (hok : r.ok = true ↔ required ≤ tally.currentBalance) :
    Sound s required target initialBalance donors ⟨some r, tally.balance, tally.sent⟩ ↔
      Safe s required target recipient initialBalance 0 donors := by
  have hstart : Tally.Fair s initialBalance ⟨initialBalance, 0, [], initialBalance, []⟩ :=
    ⟨rfl, Nat.le_refl _, Nat.le_refl _, fun x hx => absurd hx List.not_mem_nil⟩
  have hgood : Tally.Good s target ⟨initialBalance, 0, [], initialBalance, []⟩ :=
    ⟨fun x hx => absurd hx List.not_mem_nil, fun hne => absurd rfl hne, rfl⟩
  have hfair : tally.Fair s initialBalance := htally ▸ topUp_fair hle hstart
  have hsublist : (tally.sent.map Prod.fst).Sublist donors := htally ▸ topUp_sublist hle
  have hiff : (tally.Good s target ∧ (required ≤ tally.balance → required ≤ tally.currentBalance)) ↔
      Safe s required target recipient initialBalance 0 donors := by
    rw [htally, topUp_good_iff hle hstart, and_iff_right hgood, Nat.sub_self]
  rw [← hiff]
  have hbalance := hfair.balance
  have hcurrent := hfair.current
  constructor
  · intro h
    have htotal := h.total
    dsimp only at htotal
    refine ⟨⟨h.maximum, fun _ => by omega, ?_⟩, ?_⟩
    · rw [← hreported]
      exact h.reported r rfl
    · exact fun henough => hok.mp ((h.ok r rfl).mpr henough)
  · rintro ⟨h, henough⟩
    refine ⟨hsublist, h.maximum, fun x hx => (hfair.sent x hx).2, ?_, hbalance, ?_, ?_⟩
    · by_cases hnil : tally.sent = []
      · rw [hnil]
        exact Nat.zero_le _
      · have htarget := h.target hnil
        dsimp only
        omega
    · rintro r' ⟨⟩
      rw [hreported]
      exact h.reported
    · rintro r' ⟨⟩
      rw [hok]
      exact ⟨fun h' => Nat.le_trans h' hcurrent, henough⟩

theorem HbarSettings.required_le_target (s : HbarSettings) (requiredWei : ℕ) :
    s.required requiredWei ≤ s.target requiredWei := by
  unfold HbarSettings.target
  split_ifs <;> omega

theorem sound_hbar_iff (s : HbarSettings) (provider readable : Bool) (recipient : String)
    (requiredWei initialBalance : ℕ) (donors : List Donor) :
    Sound s.toSettings (s.required requiredWei) (s.target requiredWei) initialBalance donors
        (ensureOperationalHbar s provider readable recipient requiredWei initialBalance donors) ↔
      (provider = false → initialBalance < s.required requiredWei) ∧
        (provider = true → readable = true → initialBalance < s.required requiredWei → s.enabled = true →
          Safe s.toSettings (s.required requiredWei) (s.target requiredWei) recipient initialBalance 0 donors) := by
  have hle := s.required_le_target requiredWei
  unfold ensureOperationalHbar
  dsimp only
  split_ifs with hprovider hreadable henough henabled hdonors hok
  · rw [sound_untouched_iff]
    simp [hprovider]
  · rw [sound_untouched_iff]
    simp [hprovider, hreadable]
  · rw [sound_untouched_iff]
    simp [hprovider, henough, Nat.not_lt.mpr henough]
  · rw [sound_untouched_iff]
    simp [hprovider, henough, henabled]
  · rw [sound_untouched_iff]
    simp [hprovider, henough, hdonors, Safe]
  all_goals
    rw [sound_topUp_iff hle (by omega) rfl rfl (by simp [hok])]
    rw [Bool.not_eq_false] at hprovider hreadable henabled
    simp [hprovider, hreadable, henabled, Nat.lt_of_not_le henough]

theorem sound_guard_iff (s : GuardSettings) (readable : Bool) (recipient : String)
    (requiredWei initialBalance : ℕ) (donors : List Donor) :
    Sound s.toSettings requiredWei (requiredWei + s.topUpBuffer) initialBalance donors
        (ensureBidCollateralBalance s readable recipient requiredWei initialBalance donors) ↔
      (readable = true → initialBalance < requiredWei → s.enabled = true →
        Safe s.toSettings requiredWei (requiredWei + s.topUpBuffer) recipient initialBalance 0 donors) := by
  have hle : requiredWei ≤ requiredWei + s.topUpBuffer := Nat.le_add_right _ _
  unfold ensureBidCollateralBalance
  dsimp only
  split_ifs with hreadable henough henabled hdonors hok
  · rw [sound_untouched_iff]
    simp [hreadable]
  · rw [sound_untouched_iff]
    simp [henough, Nat.not_lt.mpr henough]
  · rw [sound_untouched_iff]
    simp [henough, henabled]
  · rw [sound_untouched_iff]
    simp [henough, hdonors, Safe]
  all_goals
    rw [sound_topUp_iff hle (by omega) rfl rfl (by simp [hok])]
    rw [Bool.not_eq_false] at hreadable henabled
    simp [hreadable, henabled, Nat.lt_of_not_le henough]

/-- For every call of either function: it is sound if and only if the donors are safe where they are asked, and, of
HBAR, the recipient has too little where there is no provider. -/
theorem sound_iff_safe (recipient : String) (requiredWei initialBalance : ℕ) (donors : List Donor) (readable : Bool) :
    (∀ (s : HbarSettings) (provider : Bool),
      Sound s.toSettings (s.required requiredWei) (s.target requiredWei) initialBalance donors
          (ensureOperationalHbar s provider readable recipient requiredWei initialBalance donors) ↔
        (provider = false → initialBalance < s.required requiredWei) ∧
          (provider = true → readable = true → initialBalance < s.required requiredWei → s.enabled = true →
            Safe s.toSettings (s.required requiredWei) (s.target requiredWei) recipient initialBalance 0 donors)) ∧
    ∀ s : GuardSettings,
      Sound s.toSettings requiredWei (requiredWei + s.topUpBuffer) initialBalance donors
          (ensureBidCollateralBalance s readable recipient requiredWei initialBalance donors) ↔
        (readable = true → initialBalance < requiredWei → s.enabled = true →
          Safe s.toSettings requiredWei (requiredWei + s.topUpBuffer) recipient initialBalance 0 donors) :=
  ⟨fun s provider => sound_hbar_iff s provider readable recipient requiredWei initialBalance donors,
    fun s => sound_guard_iff s readable recipient requiredWei initialBalance donors⟩

/-- The donor's transfer lands although an error is reported, and is not counted. -/
theorem not_sound_lost : ¬ ∀ (s : HbarSettings) (donors : List Donor),
    Sound s.toSettings (s.required 25) (s.target 25) 0 donors
      (ensureOperationalHbar s true true "0x11" 25 0 donors) := by
  intro hall
  have hsound := hall ⟨⟨true, 150, 200⟩, 25, 100⟩ [⟨"0x22", true, 1000, true, .lost⟩]
  have hreported := hsound.reported _ rfl
  exact absurd hreported (by decide +kernel)

end AuditGuard.TopUp
