import AuditGuard.DataMarketplace.System
import AuditGuard.Library.Keyed

/-!
# DataMarketplace: is a paid subscription shortened?

What a buyer is entitled to is read off its latest purchase record. `renewSubscription` extends that record,
from its end on if that is still to come. `purchaseData` appends a record that counts from now, and forgets
what was left. Entitlements are never shortened, and always extended by what was paid for, exactly when no
buyer buys a subscription again while it runs.
-/

namespace AuditGuard.DataMarketplace

open Evm TransitionSystem

/-- The end of the subscription according to a buyer's latest record, zero if there is none. -/
def entitlementIn (records : List Purchase) (buyer : Address) : ℕ :=
  let (found, index) := findLatestPurchaseIndex records buyer
  if found = true then (records.getD index Purchase.zero).subscriptionExpiresAt else 0

/-- The end of a buyer's subscription, as `isSubscriptionActive` sees it. -/
def entitlement (s : State) (listingId : ℕ) (buyer : Address) : ℕ :=
  entitlementIn (s.purchases listingId) buyer

/-! ## The latest record -/

variable {records records' : List Purchase} {buyer b : Address} {n i : ℕ} {p : Purchase}

theorem findLatestPurchaseFrom_congr
    (h : ∀ j < n, (records'.getD j Purchase.zero).buyer = (records.getD j Purchase.zero).buyer) :
    findLatestPurchaseFrom records' buyer n = findLatestPurchaseFrom records buyer n := by
  induction n with
  | zero => rfl
  | succ n ih =>
    unfold findLatestPurchaseFrom
    rw [h n (Nat.lt_succ_self n), ih fun j hj => h j (hj.trans (Nat.lt_succ_self n))]

theorem findLatestPurchaseFrom_ok (h : findLatestPurchaseFrom records buyer n = (true, i)) :
    i < n ∧ (records.getD i Purchase.zero).buyer = buyer := by
  induction n with
  | zero => cases h
  | succ n ih =>
    unfold findLatestPurchaseFrom at h
    split_ifs at h with hbuyer
    · obtain ⟨-, rfl⟩ := Prod.mk.inj h
      exact ⟨Nat.lt_succ_self _, hbuyer⟩
    · obtain ⟨hlt, hfound⟩ := ih h
      exact ⟨hlt.trans (Nat.lt_succ_self n), hfound⟩

theorem entitlementIn_append (records : List Purchase) (p : Purchase) (b : Address) :
    entitlementIn (records ++ [p]) b =
      if p.buyer = b then p.subscriptionExpiresAt else entitlementIn records b := by
  have hlast : (records ++ [p]).getD records.length Purchase.zero = p := by
    simp [List.getD_eq_getElem?_getD]
  have hfirst : ∀ j < records.length,
      (records ++ [p]).getD j Purchase.zero = records.getD j Purchase.zero := by
    intro j hj
    rw [List.getD_eq_getElem?_getD, List.getElem?_append_left hj, List.getD_eq_getElem?_getD]
  unfold entitlementIn findLatestPurchaseIndex
  rw [List.length_append, List.length_singleton, findLatestPurchaseFrom, hlast]
  split_ifs with hbuyer
  · simp only [if_true, hlast]
  · rw [findLatestPurchaseFrom_congr fun j hj => congrArg Purchase.buyer (hfirst j hj)]
    rcases hfind : findLatestPurchaseFrom records b records.length with ⟨found, index⟩
    cases found with
    | false => rfl
    | true => simp only [if_true, hfirst index (findLatestPurchaseFrom_ok hfind).1]

theorem entitlementIn_set (hfind : findLatestPurchaseIndex records buyer = (true, i))
    (hbuyer : p.buyer = buyer) (b : Address) :
    entitlementIn (records.set i p) b =
      if b = buyer then p.subscriptionExpiresAt else entitlementIn records b := by
  obtain ⟨hlt, hfound⟩ := findLatestPurchaseFrom_ok hfind
  have hat : ∀ j, (records.set i p).getD j Purchase.zero =
      if j = i then p else records.getD j Purchase.zero := by
    intro j
    rw [List.getD_eq_getElem?_getD, List.getD_eq_getElem?_getD]
    rcases eq_or_ne j i with rfl | hne
    · rw [List.getElem?_set_self hlt, if_pos rfl, Option.getD_some]
    · rw [List.getElem?_set_ne hne.symm, if_neg hne]
  -- The record keeps its buyer, so the scan for any buyer ends where it ended before.
  have hscan : findLatestPurchaseIndex (records.set i p) b = findLatestPurchaseIndex records b := by
    unfold findLatestPurchaseIndex
    rw [List.length_set]
    refine findLatestPurchaseFrom_congr fun j _ => ?_
    rw [hat j]
    split_ifs with hj
    · rw [hj, hfound, hbuyer]
    · rfl
  unfold entitlementIn
  rw [hscan]
  split_ifs with hb
  · rw [hb, hfind]
    simp only [if_true, hat]
  · rcases hfind' : findLatestPurchaseIndex records b with ⟨found, index⟩
    cases found with
    | false => rfl
    | true =>
      have hne : index ≠ i := by
        rintro rfl
        exact hb ((findLatestPurchaseFrom_ok hfind').2.symm.trans hfound)
      simp only [if_true, hat, if_neg hne]

/-! ## What a call writes -/

/-- What a call does to the purchase records: a purchase appends a record of the sender, a renewal and a
rating rewrite its latest one, and other calls leave the records as they are. -/
inductive PurchaseStep (env : Env) (s : State) : Call → (ℕ → List Purchase) → Prop
  | buy {listingId : UInt 256} {p : Purchase} (hbuyer : p.buyer = env.sender)
      (hexpires : (s.listings listingId).listingType = .subscription →
        p.subscriptionExpiresAt = env.timestamp + (s.listings listingId).subscriptionPeriod) :
      PurchaseStep env s (.purchaseData listingId)
        (Function.update s.purchases listingId (s.purchases listingId ++ [p]))
  | renew {listingId : UInt 256} {i : ℕ} {p : Purchase} (hbuyer : p.buyer = env.sender)
      (hfind : findLatestPurchaseIndex (s.purchases listingId) env.sender = (true, i))
      (hexpires : p.subscriptionExpiresAt = max (entitlement s listingId env.sender) env.timestamp +
        (s.listings listingId).subscriptionPeriod) :
      PurchaseStep env s (.renewSubscription listingId)
        (Function.update s.purchases listingId ((s.purchases listingId).set i p))
  | rate {listingId : UInt 256} {rating : UInt 8} {i : ℕ} {p : Purchase} (hbuyer : p.buyer = env.sender)
      (hfind : findLatestPurchaseIndex (s.purchases listingId) env.sender = (true, i))
      (hexpires : p.subscriptionExpiresAt = entitlement s listingId env.sender) :
      PurchaseStep env s (.ratePurchase listingId rating)
        (Function.update s.purchases listingId ((s.purchases listingId).set i p))
  | unsold {c : Call} {purchases : ℕ → List Purchase} (hsame : purchases = s.purchases)
      (hbuy : ∀ listingId, c ≠ .purchaseData listingId)
      (hrenew : ∀ listingId, c ≠ .renewSubscription listingId) : PurchaseStep env s c purchases

variable {this : Address} {env : Env} {s s' : State} {w w' : World State}

theorem pay_ok {recipient : Address} {amount : ℕ} (h : pay this env recipient amount w = .ok w') :
    w'.state = w.state := by
  unfold pay at h
  split_ifs at h
  · simp only [transferGuard, Hts.transfer_eq_ok] at h
    obtain ⟨-, token, -, rfl⟩ := h
    rfl
  · rw [pure_eq_ok] at h
    rw [h]

theorem processSalePayment_ok {buyer seller : Address} {price platformFee : ℕ}
    (h : processSalePayment this env buyer seller price w = .ok (platformFee, w')) :
    w'.state = w.state := by
  simp only [processSalePayment, bind_eq_ok, Prod.exists] at h
  obtain ⟨fee, payment, -, h⟩ := h
  split_ifs at h
  · rw [pure_eq_ok] at h
    rw [← (Prod.mk.inj h).2]
  · simp only [transferGuard, Hts.transfer_eq_ok, bind_eq_ok, pure_eq_ok, Prod.mk.injEq] at h
    obtain ⟨_, ⟨-, token, -, rfl⟩, w₁, hseller, w₂, htreasury, -, rfl⟩ := h
    rw [pay_ok htreasury, pay_ok hseller]

theorem purchaseData_ok {listingId : UInt 256}
    (h : purchaseData this env listingId w = .ok w') :
    PurchaseStep env w.state (.purchaseData listingId) w'.state.purchases := by
  simp only [purchaseData, getExistingListing, createPurchaseRecord, bind_eq_ok, pure_eq_ok,
    checkedAdd_eq_ok, Prod.exists] at h
  obtain ⟨_, -, _, ⟨_, -, rfl⟩, _, -, _, -, _, -, fee, w₁, hpay, s₁, ⟨_, ⟨-, rfl⟩, expires, hexpires,
    rfl⟩, _, -, _, -, rfl⟩ := h
  have hstate := processSalePayment_ok hpay
  dsimp only [State.emit, State.setListing, State.setPurchases]
  rw [hstate]
  refine .buy rfl fun hsubscription => ?_
  rw [if_pos hsubscription, checkedAdd_eq_ok] at hexpires
  exact hexpires.2.symm

theorem renewSubscription_ok {listingId : UInt 256}
    (h : renewSubscription this env listingId w = .ok w') :
    PurchaseStep env w.state (.renewSubscription listingId) w'.state.purchases := by
  simp only [renewSubscription, getExistingListing, bind_eq_ok, pure_eq_ok, Prod.exists] at h
  obtain ⟨_, -, _, ⟨_, -, rfl⟩, _, -, _, -, _, -, fee, w₁, hpay, h⟩ := h
  rw [processSalePayment_ok hpay] at h
  rcases hfind : findLatestPurchaseIndex (w.state.purchases listingId) env.sender with ⟨found, i⟩
  simp only [hfind, require_eq_ok, checkedAdd_eq_ok] at h
  obtain ⟨_, rfl, _, ⟨-, rfl⟩, _, -, rfl⟩ := h
  refine .renew (findLatestPurchaseFrom_ok hfind).2 hfind ?_
  unfold entitlement entitlementIn
  rw [hfind]
  simp only [if_true]
  congr 1
  split_ifs with hrunning
  · exact (max_eq_left hrunning.le).symm
  · exact (max_eq_right (not_lt.mp hrunning)).symm

theorem ratePurchase_ok {listingId : UInt 256} {rating : UInt 8}
    (h : ratePurchase env listingId rating s = .ok s') :
    PurchaseStep env s (.ratePurchase listingId rating) s'.purchases := by
  simp only [ratePurchase, getExistingListing, bind_eq_ok, pure_eq_ok] at h
  obtain ⟨_, -, _, -, _, ⟨_, -, rfl⟩, h⟩ := h
  rcases hfind : findLatestPurchaseIndex (s.purchases listingId) env.sender with ⟨found, i⟩
  simp only [hfind, require_eq_ok] at h
  obtain ⟨_, rfl, rfl⟩ := h
  refine .rate (findLatestPurchaseFrom_ok hfind).2 hfind ?_
  unfold entitlement entitlementIn
  rw [hfind]
  simp only [if_true]

theorem createListing_ok {parentJobId price subscriptionPeriod maxBuyers durationSeconds : ℕ}
    {title description : String} {category : DataCategory} {listingType : ListingType}
    {contentHash : UInt 256}
    (h : createListing env parentJobId title description category listingType price
      subscriptionPeriod contentHash maxBuyers durationSeconds s = .ok s') :
    s'.purchases = s.purchases := by
  simp only [createListing, bind_eq_ok, pure_eq_ok] at h
  obtain ⟨_, -, _, -, _, -, _, -, rfl⟩ := h
  rfl

theorem delistData_ok {listingId : ℕ} (h : delistData env listingId s = .ok s') :
    s'.purchases = s.purchases := by
  simp only [delistData, bind_eq_ok, pure_eq_ok] at h
  obtain ⟨_, -, _, -, rfl⟩ := h
  rfl

theorem updatePrice_ok {listingId newPrice : ℕ} (h : updatePrice env listingId newPrice s = .ok s') :
    s'.purchases = s.purchases := by
  simp only [updatePrice, bind_eq_ok, pure_eq_ok] at h
  obtain ⟨_, -, _, -, _, -, _, -, rfl⟩ := h
  rfl

theorem exec_ok {c : Call} (h : exec this env c w = .ok w') :
    PurchaseStep env w.state c w'.state.purchases := by
  unfold exec at h
  split_ifs at h
  cases c with
  | purchaseData listingId => exact purchaseData_ok h
  | renewSubscription listingId => exact renewSubscription_ok h
  | ratePurchase listingId rating =>
    obtain ⟨s, hs, rfl⟩ := onState_eq_ok.mp h
    exact ratePurchase_ok hs
  -- The other calls sell nothing.
  | tipSeller listingId amount =>
    simp only [tipSeller, transferGuard, Hts.transfer_eq_ok, bind_eq_ok, pure_eq_ok] at h
    obtain ⟨_, -, _, -, _, -, _, -, _, ⟨-, token, -, rfl⟩, rfl⟩ := h
    exact .unsold rfl (by rintro _ ⟨⟩) (by rintro _ ⟨⟩)
  | createListing =>
    obtain ⟨s, hs, rfl⟩ := onState_eq_ok.mp h
    exact .unsold (createListing_ok hs) (by rintro _ ⟨⟩) (by rintro _ ⟨⟩)
  | delistData =>
    obtain ⟨s, hs, rfl⟩ := onState_eq_ok.mp h
    exact .unsold (delistData_ok hs) (by rintro _ ⟨⟩) (by rintro _ ⟨⟩)
  | updatePrice =>
    obtain ⟨s, hs, rfl⟩ := onState_eq_ok.mp h
    exact .unsold (updatePrice_ok hs) (by rintro _ ⟨⟩) (by rintro _ ⟨⟩)
  | renounceOwnership =>
    obtain ⟨s, hs, rfl⟩ := onState_eq_ok.mp h
    simp only [renounceOwnership, bind_eq_ok, pure_eq_ok] at hs
    obtain ⟨_, -, rfl⟩ := hs
    exact .unsold rfl (by rintro _ ⟨⟩) (by rintro _ ⟨⟩)
  | _ =>
    obtain ⟨s, hs, rfl⟩ := onState_eq_ok.mp h
    simp only [setTreasury, setPlatformFeePercent, setAgentRegistry, transferOwnership, bind_eq_ok,
      pure_eq_ok] at hs
    obtain ⟨_, -, _, -, rfl⟩ := hs
    exact .unsold rfl (by rintro _ ⟨⟩) (by rintro _ ⟨⟩)

/-! ## What a step does to an entitlement -/

/-- The transition is a successful `purchaseData` of the listing by the buyer. -/
def Buys (listing : ℕ) (buyer : Address) (tr : Transition (World State) (Label Env Call)) : Prop :=
  ∃ env listingId, tr.label = .call env (.purchaseData listingId) ∧ listingId.val = listing ∧
    env.sender = buyer

/-- The transition is a successful `renewSubscription` of the listing by the buyer. -/
def Renews (listing : ℕ) (buyer : Address) (tr : Transition (World State) (Label Env Call)) : Prop :=
  ∃ env listingId, tr.label = .call env (.renewSubscription listingId) ∧ listingId.val = listing ∧
    env.sender = buyer

/-- The transition does not shorten what the buyer is entitled to, and if the buyer pays for a period, that
period is counted from the end of the subscription or from now, whichever is later. -/
def Extends (listing : ℕ) (buyer : Address) (tr : Transition (World State) (Label Env Call)) : Prop :=
  entitlement tr.src.state listing buyer ≤ entitlement tr.dst.state listing buyer ∧
  (Buys listing buyer tr ∨ Renews listing buyer tr →
    entitlement tr.dst.state listing buyer =
      max (entitlement tr.src.state listing buyer) tr.dst.now +
        (tr.src.state.listings listing).subscriptionPeriod)

variable {listing : ℕ} {l : Label Env Call} {ts : List (Transition (World State) (Label Env Call))}

theorem entitlementIn_update_ne {purchases : ℕ → List Purchase} {listingId : ℕ}
    (records : List Purchase) (hne : listing ≠ listingId) :
    entitlementIn (Function.update purchases listingId records listing) buyer =
      entitlementIn (purchases listing) buyer := by
  rw [Function.update_of_ne hne]

/-- What a step does to the entitlement of a buyer for a subscription listing. -/
theorem entitlement_step (h : (contract this).Step w l w')
    (hsubscription : (w.state.listings listing).listingType = .subscription) :
    (Buys listing buyer ⟨w, l, w'⟩ ∧ entitlement w'.state listing buyer =
      w'.now + (w.state.listings listing).subscriptionPeriod) ∨
    (¬ Buys listing buyer ⟨w, l, w'⟩ ∧ Renews listing buyer ⟨w, l, w'⟩ ∧
      entitlement w'.state listing buyer = max (entitlement w.state listing buyer) w'.now +
        (w.state.listings listing).subscriptionPeriod) ∨
    (¬ Buys listing buyer ⟨w, l, w'⟩ ∧ ¬ Renews listing buyer ⟨w, l, w'⟩ ∧
      entitlement w'.state listing buyer = entitlement w.state listing buyer) := by
  unfold entitlement
  cases h with
  | elsewhere _ _ => exact .inr (.inr ⟨fun ⟨_, _, h, _⟩ => (nomatch h), fun ⟨_, _, h, _⟩ => (nomatch h), rfl⟩)
  | @call env c w w' hs h0 ht hexec =>
    have hstep := exec_ok (show exec this env c w = .ok w' from hexec)
    dsimp only
    generalize w'.state.purchases = purchases at hstep ⊢
    cases hstep with
    -- A purchase appends a record, which shadows the earlier ones of its buyer.
    | @buy listingId p hbuyer hexpires =>
      by_cases hmine : listingId.val = listing ∧ env.sender = buyer
      · obtain ⟨rfl, rfl⟩ := hmine
        refine .inl ⟨⟨env, listingId, rfl, rfl, rfl⟩, ?_⟩
        rw [Function.update_self, entitlementIn_append, if_pos hbuyer, hexpires hsubscription]
        rfl
      · refine .inr (.inr ⟨?_, fun ⟨_, _, h, _⟩ => (nomatch h), ?_⟩)
        · rintro ⟨_, _, hcall, hid, hsender⟩
          cases hcall
          exact hmine ⟨hid, hsender⟩
        · rcases eq_or_ne listing listingId.val with rfl | hne
          · rw [Function.update_self, entitlementIn_append,
              if_neg fun h => hmine ⟨rfl, hbuyer.symm.trans h⟩]
          · exact entitlementIn_update_ne _ hne
    -- A renewal writes over the latest record of its buyer.
    | @renew listingId i p hbuyer hfind hexpires =>
      by_cases hmine : listingId.val = listing ∧ env.sender = buyer
      · obtain ⟨rfl, rfl⟩ := hmine
        refine .inr (.inl ⟨fun ⟨_, _, h, _⟩ => (nomatch h), ⟨env, listingId, rfl, rfl, rfl⟩, ?_⟩)
        rw [Function.update_self, entitlementIn_set hfind hbuyer, if_pos rfl, hexpires]
        rfl
      · refine .inr (.inr ⟨fun ⟨_, _, h, _⟩ => (nomatch h), ?_, ?_⟩)
        · rintro ⟨_, _, hcall, hid, hsender⟩
          cases hcall
          exact hmine ⟨hid, hsender⟩
        · rcases eq_or_ne listing listingId.val with rfl | hne
          · rw [Function.update_self, entitlementIn_set hfind hbuyer,
              if_neg fun h => hmine ⟨rfl, h.symm⟩]
          · exact entitlementIn_update_ne _ hne
    -- A rating writes over the same record, and keeps when it expires.
    | @rate listingId rating i p hbuyer hfind hexpires =>
      refine .inr (.inr ⟨fun ⟨_, _, h, _⟩ => (nomatch h), fun ⟨_, _, h, _⟩ => (nomatch h), ?_⟩)
      rcases eq_or_ne listing listingId.val with rfl | hne
      · rw [Function.update_self, entitlementIn_set hfind hbuyer]
        split_ifs with hb
        · rw [hb]
          exact hexpires
        · rfl
      · exact entitlementIn_update_ne _ hne
    | @unsold _ purchases hsame hbuy hrenew =>
      refine .inr (.inr ⟨?_, ?_, by rw [hsame]⟩)
      · rintro ⟨_, listingId, hcall, -, -⟩
        cases hcall
        exact hbuy listingId rfl
      · rintro ⟨_, listingId, hcall, -, -⟩
        cases hcall
        exact hrenew listingId rfl

theorem extends_iff (h : (contract this).Step w l w')
    (hsubscription : (w.state.listings listing).listingType = .subscription) :
    Extends listing buyer ⟨w, l, w'⟩ ↔
      (Buys listing buyer ⟨w, l, w'⟩ → entitlement w.state listing buyer ≤ w'.now) := by
  unfold Extends
  dsimp only
  rcases entitlement_step h hsubscription with ⟨hbuys, hafter⟩ | ⟨hbuys, hrenews, hafter⟩ |
    ⟨hbuys, hrenews, hafter⟩
  · -- A purchase sets the entitlement to one period from now, whatever was left of it.
    rw [hafter]
    constructor
    · rintro ⟨-, hpaid⟩ -
      have hmax := hpaid (.inl hbuys)
      have hle := le_max_left (entitlement w.state listing buyer) w'.now
      omega
    · intro hended
      have hmax : max (entitlement w.state listing buyer) w'.now = w'.now :=
        max_eq_right (hended hbuys)
      rw [hmax]
      exact ⟨(hended hbuys).trans (Nat.le_add_right _ _), fun _ => rfl⟩
  · rw [hafter]
    have hle := le_max_left (entitlement w.state listing buyer) w'.now
    exact iff_of_true ⟨hle.trans (Nat.le_add_right _ _), fun _ => rfl⟩ fun h => absurd h hbuys
  · rw [hafter]
    exact iff_of_true ⟨le_rfl, fun h => absurd h (not_or.mpr ⟨hbuys, hrenews⟩)⟩
      fun h => absurd h hbuys

/-- In every run, a buyer's entitlement for a subscription listing is never shortened and every payment of
the buyer extends it, exactly when the buyer buys the subscription only while none is running. -/
theorem subscription_extended_iff (hr : (contract this).system.Run ts w) :
    (∀ tr ∈ ts, (tr.src.state.listings listing).listingType = .subscription →
      Extends listing buyer tr) ↔
    ∀ tr ∈ ts, (tr.src.state.listings listing).listingType = .subscription →
      Buys listing buyer tr → entitlement tr.src.state listing buyer ≤ tr.dst.now := by
  have hsteps := hr.step_of_mem
  refine forall₂_congr fun tr htr => forall_congr' fun hsubscription => ?_
  exact extends_iff (hsteps tr htr).2 hsubscription

/-! ## A subscription that is bought again -/

/-- The agent 2 sells a subscription for thirty days. The agent 3 buys it, renews it twice, and buys it
once more. -/
def rebuyCalls : List (Env × Call) :=
  [(sampleEnv 2 0, .createListing 1 "feed" "all findings" .threatIntel .subscription (10 * 10^8)
      (30 * 86400) 1 0 0),
    (sampleEnv 3 1, .purchaseData 1),
    (sampleEnv 3 2, .renewSubscription 1),
    (sampleEnv 3 3, .renewSubscription 1),
    (sampleEnv 3 4, .purchaseData 1)]

theorem not_extends_again {ts : List (Transition (World State) (Label Env Call))}
    (htrace : (contract 1).trace rebuyCalls sampleWorld = .ok ts) :
    ∃ tr ∈ ts, (tr.src.state.listings 1).listingType = .subscription ∧ Buys 1 3 tr ∧
      entitlement tr.src.state 1 3 = 1 + 90 * 86400 ∧ entitlement tr.dst.state 1 3 = 4 + 30 * 86400 ∧
      tr.dst.now = 4 := by
  have hlabel := read_ok htrace (fun ts => ts[4]?.map Transition.label)
    (b := some (.call (sampleEnv 3 4) (.purchaseData 1))) rfl
  have htype := read_ok htrace
    (fun ts => ts[4]?.map fun tr => (tr.src.state.listings 1).listingType) (b := some .subscription) rfl
  have hends := read_ok htrace (fun ts => ts[4]?.map fun tr => (entitlement tr.src.state 1 3,
    entitlement tr.dst.state 1 3, tr.dst.now))
    (b := some (1 + 90 * 86400, 4 + 30 * 86400, 4)) (by decide +kernel)
  obtain ⟨tr, htr, hcall⟩ := Option.map_eq_some_iff.mp hlabel
  rw [htr] at htype hends
  obtain ⟨hbefore, hafter, hnow⟩ : _ ∧ _ ∧ _ := by
    simpa only [Option.map_some, Option.some.injEq, Prod.mk.injEq] using hends
  exact ⟨tr, List.mem_of_getElem? htr, Option.some.inj htype, ⟨_, _, hcall, rfl, rfl⟩, hbefore, hafter,
    hnow⟩

/-- The equivalence on the run of the agent that buys again, where both sides fail. -/
theorem subscription_extended_iff_again : ∃ ts w, (contract 1).system.Run ts w ∧
    ((∀ tr ∈ ts, (tr.src.state.listings 1).listingType = .subscription → Extends 1 3 tr) ↔
      ∀ tr ∈ ts, (tr.src.state.listings 1).listingType = .subscription → Buys 1 3 tr →
        entitlement tr.src.state 1 3 ≤ tr.dst.now) ∧
    ¬ ∀ tr ∈ ts, (tr.src.state.listings 1).listingType = .subscription → Extends 1 3 tr := by
  obtain ⟨ts, w, -, hr, htrace⟩ := sample_run rebuyCalls (by decide) rfl
  obtain ⟨tr, htr, htype, hbuys, hbefore, hafter, -⟩ := not_extends_again htrace
  refine ⟨ts, w, hr, subscription_extended_iff hr, fun h => ?_⟩
  have hle := (h tr htr htype).1
  omega

/-- The purchase takes sixty days off the subscription. -/
theorem subscription_shortened : ∃ ts w, (contract 1).system.Run ts w ∧
    ∃ tr ∈ ts, (tr.src.state.listings 1).listingType = .subscription ∧ Buys 1 3 tr ∧
      entitlement tr.src.state 1 3 = 1 + 90 * 86400 ∧ entitlement tr.dst.state 1 3 = 4 + 30 * 86400 ∧
      ¬ Extends 1 3 tr := by
  obtain ⟨ts, w, -, hr, htrace⟩ := sample_run rebuyCalls (by decide) rfl
  obtain ⟨tr, htr, htype, hbuys, hbefore, hafter, -⟩ := not_extends_again htrace
  refine ⟨ts, w, hr, tr, htr, htype, hbuys, hbefore, hafter, fun h => ?_⟩
  have hle := h.1
  omega

end AuditGuard.DataMarketplace
