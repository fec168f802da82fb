import AuditGuard.DataMarketplace.Effects

/-!
# DataMarketplace: does the buyer cap count buyers?

`purchaseData` raises `buyerCount` at every purchase, and a subscription may be bought by a buyer that has
access already. The guard that the cap puts on purchases stands in front of renewals too: once the last place
is taken, the subscribers cannot renew. A listing is in order throughout a run exactly when no subscription is
bought twice by a buyer or up to its cap, and no renewal would overflow.
-/

namespace AuditGuard.DataMarketplace

open Evm TransitionSystem

/-- The accounts that have access to a listing. -/
def buyers (s : State) (listing : ℕ) : Finset Address :=
  Finset.univ.filter fun a => s.hasBuyerAccess listing a = true

/-- The buyer's renewal succeeds now, whenever the registry knows the buyer as an active agent, HTS takes the
transfers, and the buyer has the price. -/
def CanRenew (this : Address) (listing : ℕ) (buyer : Address) (w : World State) : Prop :=
  ∀ (env : Env) (token : TokenLedger), env.sender = buyer → env.timestamp = w.now →
    env.hasCode w.state.agentRegistry = true → env.isActiveAgent buyer = true →
    env.transferAnswer = Hts.HTS_SUCCESS → (w.state.listings listing).price ≤ token.balance buyer →
    ∃ w', renewSubscription this env listing { w with token := token } = .ok w'

/-- The listing takes no more renewals: it is delisted or expired. -/
def Ended (listing : DataListing) (now : ℕ) : Prop :=
  listing.status = .delisted ∨ (listing.expiresAt ≠ 0 ∧ listing.expiresAt < now)

/-- What the buyer cap promises of a listing. -/
structure InOrder (this : Address) (listing : ℕ) (w : World State) : Prop where
  /-- The counter counts the accounts with access. -/
  counted : (w.state.listings listing).buyerCount = (buyers w.state listing).card
  /-- The counter stays within the cap. -/
  capped : 0 < (w.state.listings listing).maxBuyers →
    (w.state.listings listing).buyerCount ≤ (w.state.listings listing).maxBuyers
  /-- A listing is sold out only to as many buyers as the cap allows. -/
  soldOut : (w.state.listings listing).status = .soldOut → 0 < (w.state.listings listing).maxBuyers ∧
    (w.state.listings listing).maxBuyers ≤ (buyers w.state listing).card
  /-- Subscribers can renew. -/
  renews : (w.state.listings listing).listingType = .subscription →
    ¬ Ended (w.state.listings listing) w.now →
    ∀ buyer, w.state.hasBuyerAccess listing buyer = true → CanRenew this listing buyer w

/-- A purchase of a subscription is by a buyer without access, and leaves a place below the cap. -/
def Admits (listing : ℕ) (tr : Transition (World State) (Label Env Call)) : Prop :=
  ∀ buyer, Buys listing buyer tr → (tr.src.state.listings listing).listingType = .subscription →
    tr.src.state.hasBuyerAccess listing buyer = false ∧
    (0 < (tr.src.state.listings listing).maxBuyers →
      (tr.src.state.listings listing).buyerCount + 1 < (tr.src.state.listings listing).maxBuyers)

/-- A renewal by a subscriber, at a price that an account can hold, would not overflow. -/
def Fits (listing : ℕ) (w : World State) : Prop :=
  (w.state.listings listing).listingType = .subscription →
    ¬ Ended (w.state.listings listing) w.now → (w.state.listings listing).price < 2^63 →
    ∀ buyer, w.state.hasBuyerAccess listing buyer = true →
      max (entitlement w.state listing buyer) w.now +
        (w.state.listings listing).subscriptionPeriod < 2^256 ∧
      (w.state.listings listing).totalRevenue + (w.state.listings listing).price < 2^256

variable {this buyer : Address} {env : Env} {b b' : Books} {token token' : TokenLedger} {c : Call}
  {listing next listingId : ℕ} {l : DataListing} {records : List Purchase} {access : Address → Bool}
  {w w' : World State} {ts : List (Transition (World State) (Label Env Call))}

theorem buyers_eq (hb : Kept this (books w.state)) :
    buyers w.state listing = ((w.state.purchases listing).map Purchase.buyer).toFinset := by
  ext a
  rw [buyers, Finset.mem_filter_univ, List.mem_toFinset]
  exact (hb.listing listing).recorded a

/-! ## When a renewal succeeds -/

theorem pay_succeeds (this recipient : Address) {amount : ℕ}
    (hanswer : env.transferAnswer = Hts.HTS_SUCCESS) (hcovered : amount ≤ w.token.balance this) :
    ∃ token, pay this env recipient amount w = .ok { w with token := token } ∧
      w.token.balance this ≤ token.balance this + amount := by
  obtain ⟨token, htoken⟩ := (w.token.transfer_isSome_iff this recipient amount).mpr hcovered
  refine ⟨token, ?_, Ledger.transfer_src_le htoken⟩
  unfold pay
  split_ifs with hpositive
  · exact Hts.transfer_eq_ok.mpr ⟨hanswer, token, htoken, rfl⟩
  · obtain rfl : amount = 0 := by omega
    rw [Ledger.transfer_zero] at htoken
    rw [← Option.some.inj htoken]
    rfl

theorem feeBreakdown_succeeds {s : State} (seller : Address) {price : ℕ}
    (hcode : env.hasCode s.agentRegistry = true) (hpercent : s.platformFeePercent ≤ 10)
    (hprice : price < 2^63) : ∃ platformFee ≤ price,
      feeBreakdown env seller price s = .ok (platformFee, price - platformFee) := by
  unfold feeBreakdown
  rw [if_pos hcode, ok_bind]
  generalize hrate : (if HIGH_REP_DISCOUNT_THRESHOLD ≤ env.getAgentReputation seller
    then HIGH_REP_FEE_PERCENT else s.platformFeePercent) = feePercent
  have hle : feePercent ≤ 10 := by
    rw [← hrate]
    split_ifs
    · decide
    · exact hpercent
  have hproduct : price * feePercent ≤ price * 10 := Nat.mul_le_mul_left _ hle
  have hfee : price * feePercent / 100 ≤ price := by omega
  dsimp only
  rw [checkedMul_of_lt (by omega), ok_bind, checkedSub_of_le hfee, ok_bind]
  exact ⟨_, hfee, rfl⟩

theorem processSalePayment_succeeds (this seller : Address) {price : ℕ}
    (hcode : env.hasCode w.state.agentRegistry = true) (hpercent : w.state.platformFeePercent ≤ 10)
    (hanswer : env.transferAnswer = Hts.HTS_SUCCESS) (hcovered : price ≤ w.token.balance buyer) :
    ∃ platformFee w', processSalePayment this env buyer seller price w = .ok (platformFee, w') := by
  obtain ⟨fee, hfee, hbreakdown⟩ := feeBreakdown_succeeds seller hcode hpercent
    (hcovered.trans_lt (w.token.balance_lt buyer))
  unfold processSalePayment
  rw [hbreakdown, ok_bind]
  split_ifs with hprice
  · exact ⟨fee, w, rfl⟩
  · obtain ⟨token₁, htoken₁⟩ := (w.token.transfer_isSome_iff buyer this price).mpr hcovered
    have hheld : price ≤ token₁.balance this := by
      have hmoved := Ledger.transfer_balance htoken₁ this
      rw [if_pos rfl] at hmoved
      split_ifs at hmoved with hself
      · rw [hself] at hcovered
        omega
      · omega
    obtain ⟨token₂, hpay₂, hleft⟩ := pay_succeeds this seller (w := { w with token := token₁ })
      hanswer (show price - fee ≤ token₁.balance this by omega)
    dsimp only at hleft
    obtain ⟨token₃, hpay₃, -⟩ := pay_succeeds this w.state.treasury (w := { w with token := token₂ })
      hanswer (show fee ≤ token₂.balance this by omega)
    refine ⟨fee, { w with token := token₃ }, ?_⟩
    dsimp only at hpay₂ hpay₃ ⊢
    rw [transferGuard, Hts.transfer_eq_ok.mpr ⟨hanswer, token₁, htoken₁, rfl⟩, ok_bind, hpay₂, ok_bind]
    dsimp only
    rw [hpay₃, ok_bind]
    rfl

theorem entitlement_found {s : State} {i : ℕ}
    (hfind : findLatestPurchaseIndex (s.purchases listing) buyer = (true, i)) :
    entitlement s listing buyer =
      ((s.purchases listing).getD i Purchase.zero).subscriptionExpiresAt := by
  unfold entitlement entitlementIn
  rw [hfind]
  rfl

theorem renewSubscription_checks (h : renewSubscription this env listing w = .ok w') :
    (w.state.listings listing).status = .active ∧
    max (entitlement w.state listing env.sender) env.timestamp +
      (w.state.listings listing).subscriptionPeriod < 2^256 ∧
    (w.state.listings listing).totalRevenue + (w.state.listings listing).price < 2^256 := by
  simp only [renewSubscription, getExistingListing, bind_eq_ok, pure_eq_ok, Prod.exists] at h
  obtain ⟨_, -, _, ⟨_, -, rfl⟩, _, hpurchasable, _, -, _, -, fee, w₁, hpay, h⟩ := h
  rw [processSalePayment_ok hpay] at h
  rcases hfind : findLatestPurchaseIndex (w.state.purchases listing) env.sender with ⟨found, i⟩
  simp only [hfind, require_eq_ok, checkedAdd_eq_ok] at h
  obtain ⟨_, rfl, _, ⟨hend, -⟩, _, ⟨hrevenue, -⟩, -⟩ := h
  refine ⟨(requirePurchasableListing_ok hpurchasable).1, ?_, hrevenue⟩
  rw [entitlement_found hfind, max_comm, max_def_lt]
  exact hend

theorem findLatestPurchaseFrom_found {n : ℕ} (hn : n ≤ records.length)
    (h : buyer ∈ (records.take n).map Purchase.buyer) :
    (findLatestPurchaseFrom records buyer n).1 = true := by
  induction n with
  | zero => simp at h
  | succ n ih =>
    have hget : (records.getD n Purchase.zero) = records[n] := by
      rw [List.getD_eq_getElem?_getD, List.getElem?_eq_getElem hn, Option.getD_some]
    unfold findLatestPurchaseFrom
    split_ifs with hlast
    · rfl
    · refine ih (by omega) ?_
      rw [List.take_succ_eq_append_getElem hn, List.map_append, List.mem_append] at h
      refine h.resolve_right fun hmem => hlast ?_
      rw [hget]
      exact (List.mem_singleton.mp hmem).symm

/-- A subscriber of a listing that is open and below its cap can renew, unless something overflows. -/
theorem canRenew (hb : Kept this (books w.state)) (hactive : (w.state.listings listing).status = .active)
    (hopen : ¬ Ended (w.state.listings listing) w.now)
    (hplace : 0 < (w.state.listings listing).maxBuyers →
      (w.state.listings listing).buyerCount < (w.state.listings listing).maxBuyers)
    (hsubscription : (w.state.listings listing).listingType = .subscription)
    (haccess : w.state.hasBuyerAccess listing buyer = true) (hfits : Fits listing w) :
    CanRenew this listing buyer w := by
  rintro env token rfl hnow hcode hagent hanswer hcovered
  have hprice := hcovered.trans_lt (token.balance_lt _)
  obtain ⟨hend, hrevenue⟩ := hfits hsubscription hopen hprice _ haccess
  have hrecord := ((hb.listing listing).recorded _).mp haccess
  have hexists : (w.state.listings listing).listingId ≠ 0 := by
    intro hzero
    rw [((hb.listing listing).unwritten hzero).2] at hrecord
    simp at hrecord
  -- The purchase that gave access is found.
  have hfound : (findLatestPurchaseIndex (w.state.purchases listing) env.sender).1 = true := by
    refine findLatestPurchaseFrom_found le_rfl ?_
    rw [List.take_length]
    exact hrecord
  rcases hfind : findLatestPurchaseIndex (w.state.purchases listing) env.sender with ⟨found, i⟩
  obtain rfl : found = true := by rw [hfind] at hfound; exact hfound
  have hpurchasable : requirePurchasableListing env (w.state.listings listing) = .ok () := by
    have hexpired : isExpired env (w.state.listings listing) = false := by
      unfold isExpired
      rw [hnow, decide_eq_false_iff_not]
      exact fun hexpired => hopen (.inr hexpired)
    unfold requirePurchasableListing
    rw [require_of hactive, ok_bind, require_of hexpired, ok_bind]
    split_ifs with hmax
    · exact require_of (hplace hmax)
    · rfl
  obtain ⟨fee, w₁, hpay⟩ := processSalePayment_succeeds this (w.state.listings listing).seller
    (w := { w with token := token }) hcode hb.percent_le hanswer hcovered
  have hstate := processSalePayment_ok hpay
  dsimp only at hstate
  rw [entitlement_found hfind, max_comm, max_def_lt, ← hnow] at hend
  unfold renewSubscription requireActiveAgent getExistingListing
  dsimp only
  rw [if_pos hcode, ok_bind, require_of hagent, ok_bind, require_of hexists, ok_bind]
  simp only [pure, Except.pure, ok_bind]
  rw [hpurchasable, ok_bind, require_of hsubscription, ok_bind, require_of haccess, ok_bind, hpay,
    ok_bind]
  dsimp only
  rw [hstate, hfind]
  dsimp only
  rw [require_of rfl, ok_bind, checkedAdd_of_lt hend, ok_bind, checkedAdd_of_lt hrevenue, ok_bind]
  exact ⟨_, rfl⟩

/-! ## The cap over a run -/

/-- What a listing keeps while subscriptions are bought once and below the cap. -/
structure Served (listing : DataListing) (access : Address → Bool) : Prop where
  counted : listing.buyerCount = (Finset.univ.filter fun a => access a = true).card
  soldOut : listing.status = .soldOut →
    0 < listing.maxBuyers ∧ listing.maxBuyers ≤ listing.buyerCount
  subscribable : listing.listingType = .subscription → listing.status ≠ .delisted →
    listing.status = .active ∧ (0 < listing.maxBuyers → listing.buyerCount < listing.maxBuyers)

theorem card_grant (haccess : access buyer = false) :
    (Finset.univ.filter fun a => Function.update access buyer true a = true).card =
      (Finset.univ.filter fun a => access a = true).card + 1 := by
  have hinsert : (Finset.univ.filter fun a => Function.update access buyer true a = true) =
      insert buyer (Finset.univ.filter fun a => access a = true) := by
    ext a
    rw [Finset.mem_insert, Finset.mem_filter_univ, Finset.mem_filter_univ, Function.update_apply]
    split_ifs with ha <;> simp [ha]
  rw [hinsert, Finset.card_insert_of_notMem]
  simp [haccess]

/-- A call keeps a listing served, if it is no purchase of a subscription by a buyer that has access or up to
the cap. -/
theorem Effect.served (h : Effect this env b token c b' token') (hb : Kept this b)
    (hserved : Served (b.listings listing) (b.hasBuyerAccess listing))
    (hadmits : ∀ listingId : UInt 256, c = .purchaseData listingId → listingId.val = listing →
      (b.listings listing).listingType = .subscription → b.hasBuyerAccess listing env.sender = false ∧
      (0 < (b.listings listing).maxBuyers →
        (b.listings listing).buyerCount + 1 < (b.listings listing).maxBuyers)) :
    Served (b'.listings listing) (b'.hasBuyerAccess listing) := by
  cases h with
  | @create _ _ _ _ _ _ _ _ _ _ l hid hseller hstatus hcount hrevenue =>
    rcases eq_or_ne listing b.nextListingId with rfl | hne
    · have hold := hb.listing b.nextListingId
      have hzero : (b.listings b.nextListingId).listingId = 0 := by
        by_contra hexists
        exact absurd (hold.existing hexists) (lt_irrefl _)
      have hcounter := (hold.unwritten hzero).1
      simp only [Books.setListing, Function.update_self]
      exact {
        counted := by
          rw [hcount]
          exact hserved.counted
        soldOut := by simp [hstatus]
        subscribable := fun _ _ => ⟨hstatus, fun _ => by omega⟩ }
    · rw [show _ = b.listings listing from Books.setListing_of_ne hne]
      exact hserved
  | @buy listingId purchase _ hexists hpurchasable hnew hpays hbuyer hpaid =>
    rcases eq_or_ne listing listingId.val with rfl | hne
    · obtain ⟨hactive, -, hplace⟩ := requirePurchasableListing_ok hpurchasable
      have hfirst : b.hasBuyerAccess listingId env.sender = false := by
        by_cases htype : (b.listings listingId).listingType = .subscription
        · exact (hadmits listingId rfl rfl htype).1
        · exact hnew htype
      simp only [Books.setListing, Books.grant, Books.setPurchases, Function.update_self,
        DataListing.sold]
      exact {
        counted := by
          rw [card_grant hfirst]
          exact congrArg (· + 1) hserved.counted
        soldOut := by
          dsimp only
          split_ifs with hfull
          · exact fun _ => hfull
          · simp [hactive]
        subscribable := by
          intro htype _
          have hroom := (hadmits listingId rfl rfl htype).2
          dsimp only
          rw [if_neg fun hfull => absurd (hroom hfull.1) (not_lt.mpr hfull.2)]
          exact ⟨hactive, hroom⟩ }
    · simp only [Books.setListing, Books.grant, Books.setPurchases, Function.update_of_ne hne]
      exact hserved
  | @renew listingId i purchase _ hexists hpays hfind hbuyer hpaid =>
    rcases eq_or_ne listing listingId.val with rfl | hne
    · simp only [Books.setListing, Books.setPurchases, Function.update_self]
      exact ⟨hserved.counted, hserved.soldOut, hserved.subscribable⟩
    · simp only [Books.setListing, Books.setPurchases, Function.update_of_ne hne]
      exact hserved
  | @delist listingId hexists =>
    rcases eq_or_ne listing listingId.val with rfl | hne
    · simp only [Books.setListing, Function.update_self]
      exact ⟨hserved.counted, by simp, fun _ h => absurd rfl h⟩
    · rw [show _ = b.listings listing from Books.setListing_of_ne hne]
      exact hserved
  | @reprice listingId newPrice hexists hactive =>
    rcases eq_or_ne listing listingId.val with rfl | hne
    · simp only [Books.setListing, Function.update_self]
      exact ⟨hserved.counted, hserved.soldOut, hserved.subscribable⟩
    · rw [show _ = b.listings listing from Books.setListing_of_ne hne]
      exact hserved
  | _ => exact hserved

theorem Served.inOrder (hserved : Served (w.state.listings listing) (w.state.hasBuyerAccess listing))
    (hb : Kept this (books w.state)) (hfits : Fits listing w) : InOrder this listing w where
  counted := hserved.counted
  capped := (hb.listing listing).capped
  soldOut hstatus := by
    obtain ⟨hmax, hfull⟩ := hserved.soldOut hstatus
    exact ⟨hmax, hserved.counted ▸ hfull⟩
  renews hsubscription hopen buyer haccess := by
    obtain ⟨hactive, hplace⟩ := hserved.subscribable hsubscription fun h => hopen (.inl h)
    exact canRenew hb hactive hopen hplace hsubscription haccess hfits

theorem served_run (hr : (contract this).system.Run ts w) (hadmits : ∀ tr ∈ ts, Admits listing tr) :
    Served (w.state.listings listing) (w.state.hasBuyerAccess listing) := by
  induction hr with
  | @init w hinit =>
    have hb := Kept.fresh this hinit
    obtain ⟨deployer, guardToken, agentRegistry, treasury, hs⟩ := hinit
    simp only [deploy, bind_eq_ok, pure_eq_ok] at hs
    obtain ⟨_, -, _, -, _, -, _, -, hs⟩ := hs
    rw [← hs]
    exact {
      counted := by simp [State.fresh, DataListing.zero]
      soldOut := by rintro ⟨⟩
      subscribable := by rintro ⟨⟩ }
  | @step ts w w' l hr hstep ih =>
    have hserved := ih fun tr htr => hadmits tr (List.mem_append_left _ htr)
    have hlast := hadmits ⟨w, l, w'⟩ (by simp)
    cases hstep with
    | elsewhere h ht => exact hserved
    | call hs h0 ht hexec =>
      refine (exec_effect hexec).served (Kept.of_reachable hr.reachable) hserved ?_
      rintro listingId rfl hid
      exact hlast _ ⟨_, listingId, rfl, hid, rfl⟩

theorem CanRenew.checks (h : CanRenew this listing buyer w)
    (hprice : (w.state.listings listing).price < 2^63) :
    (w.state.listings listing).status = .active ∧
    max (entitlement w.state listing buyer) w.now +
      (w.state.listings listing).subscriptionPeriod < 2^256 ∧
    (w.state.listings listing).totalRevenue + (w.state.listings listing).price < 2^256 := by
  let env : Env := ⟨⟨buyer, 0, w.now⟩, fun _ => true, fun _ => true, fun _ => 0, Hts.HTS_SUCCESS⟩
  obtain ⟨w', hrenew⟩ := h env (Ledger.single buyer _ hprice) rfl rfl rfl rfl rfl
    (Ledger.single_balance buyer _ hprice).ge
  exact renewSubscription_checks hrenew

theorem InOrder.fits (h : InOrder this listing w) : Fits listing w := by
  intro hsubscription hopen hprice buyer haccess
  exact ((h.renews hsubscription hopen buyer haccess).checks hprice).2

theorem Effect.purchase {listingId : UInt 256}
    (h : Effect this env b token (.purchaseData listingId) b' token') :
    requirePurchasableListing env (b.listings listingId) = .ok () ∧
    (b.listings listingId).price < 2^63 ∧
    b'.listings listingId = (b.listings listingId).sold ∧
    b'.hasBuyerAccess listingId = Function.update (b.hasBuyerAccess listingId) env.sender true := by
  cases h with
  | buy hexists hpurchasable hnew hpays hbuyer hpaid =>
    obtain ⟨fee, hle, htransfers⟩ := hpays
    rw [saleTransfers, Ledger.transferAll, List.foldlM_cons] at htransfers
    obtain ⟨token₁, hfirst, -⟩ := Option.bind_eq_some_iff.mp htransfers
    have hcovered := (Ledger.transfer_eq_some hfirst).1
    refine ⟨hpurchasable, hcovered.trans_lt (token.balance_lt _), ?_, ?_⟩
    · exact Function.update_self _ _ _
    · exact Function.update_self _ _ _

/-- A purchase that leaves a listing in order is admitted. -/
theorem admits_of_inOrder {l : Label Env Call} (h : (contract this).Step w l w')
    (hbefore : InOrder this listing w) (hafter : InOrder this listing w') :
    Admits listing ⟨w, l, w'⟩ := by
  rintro buyer ⟨env, listingId, hcall, rfl, rfl⟩ hsubscription
  dsimp only at hcall hsubscription ⊢
  subst hcall
  cases h with
  | @call _ _ _ w' hs h0 ht hexec =>
    obtain ⟨hpurchasable, hprice, hsold, hgranted⟩ :=
      (exec_effect (show exec this env (.purchaseData listingId) w = .ok w' from hexec)).purchase
    simp only [books] at hpurchasable hprice hsold hgranted
    obtain ⟨hactive, hopen, -⟩ := requirePurchasableListing_ok hpurchasable
    have hcounted := hafter.counted
    rw [buyers, hsold, hgranted, DataListing.sold] at hcounted
    constructor
    · -- A buyer that has access already would be counted again.
      by_contra haccess
      rw [Bool.not_eq_false] at haccess
      have hsame : Function.update (w.state.hasBuyerAccess listingId) env.sender true =
          w.state.hasBuyerAccess listingId := by
        rw [← haccess, Function.update_eq_self]
      rw [hsame] at hcounted
      have hcount := hbefore.counted
      rw [buyers] at hcount
      dsimp only at hcounted
      omega
    · -- At the cap the listing is sold out, and its newest subscriber cannot renew.
      intro hmax
      by_contra hfull
      have hrenews := hafter.renews
      rw [hgranted, hsold] at hrenews
      have hcan := hrenews hsubscription ?_ env.sender (Function.update_self _ _ _)
      · have hstatus := (hcan.checks ?_).1
        · rw [hsold, DataListing.sold] at hstatus
          dsimp only at hstatus
          rw [if_pos ⟨hmax, not_lt.mp hfull⟩] at hstatus
          cases hstatus
        · rw [hsold]
          exact hprice
      · rintro (hdelisted | hexpired)
        · unfold DataListing.sold at hdelisted
          dsimp only at hdelisted
          rw [if_pos ⟨hmax, not_lt.mp hfull⟩] at hdelisted
          cases hdelisted
        · change (w.state.listings listingId).expiresAt ≠ 0 ∧
            (w.state.listings listingId).expiresAt < env.timestamp at hexpired
          omega

/-- In every run, a listing is in order in every state exactly when its subscription is never bought by a
buyer that has access nor up to its cap, and no renewal would overflow. -/
theorem buyers_in_order_iff (hr : (contract this).system.Run ts w) :
    Throughout (InOrder this listing) ts w ↔
      (∀ tr ∈ ts, Admits listing tr) ∧ Throughout (Fits listing) ts w := by
  constructor
  · intro horder
    have hsteps := hr.step_of_mem
    have hafter := horder.dst hr
    refine ⟨fun tr htr => ?_, fun tr htr => (horder.1 tr htr).fits, horder.2.fits⟩
    exact admits_of_inOrder (hsteps tr htr).2 (horder.1 tr htr) (hafter tr htr)
  · rintro ⟨hadmits, hfits⟩
    -- Every state of the run is the end of the run up to it.
    have hbefore : ∀ tr ∈ ts, InOrder this listing tr.src := by
      intro tr htr
      obtain ⟨ts₁, ts₂, rfl⟩ := List.append_of_mem htr
      have hbefore := hr.before.1
      have hserved := served_run hbefore fun tr' htr' => hadmits tr' (List.mem_append_left _ htr')
      exact hserved.inOrder (Kept.of_reachable hbefore.reachable) (hfits.1 tr htr)
    exact ⟨hbefore, (served_run hr hadmits).inOrder (Kept.of_reachable hr.reachable) hfits.2⟩

/-! ## A subscription that sells out to one buyer -/

/-- The agent 2 sells a subscription to at most two buyers, and the agent 3 buys it twice. -/
def twiceCalls : List (Env × Call) :=
  [(sampleEnv 2 0, .createListing 1 "feed" "all findings" .threatIntel .subscription (10 * 10^8)
      (30 * 86400) 1 2 0),
    (sampleEnv 3 1, .purchaseData 1),
    (sampleEnv 3 2, .purchaseData 1)]

theorem twice_state {w : World State} (hcalls : (contract 1).execAll twiceCalls sampleWorld = .ok w)
    (hw : (contract 1).system.Reachable w) :
    (w.state.listings 1).buyerCount = 2 ∧ (buyers w.state 1).card = 1 ∧
      (w.state.listings 1).status = .soldOut ∧ ¬ CanRenew 1 1 3 w := by
  have hcount := read_ok hcalls (fun w => (w.state.listings 1).buyerCount) (b := 2) (by decide +kernel)
  have hbuyers := read_ok hcalls
    (fun w => ((w.state.purchases 1).map Purchase.buyer).toFinset.card) (b := 1) (by decide +kernel)
  have hstatus := read_ok hcalls (fun w => (w.state.listings 1).status) (b := .soldOut)
    (by decide +kernel)
  have hprice := read_ok hcalls (fun w => decide ((w.state.listings 1).price < 2^63)) (b := true)
    (by decide +kernel)
  rw [← buyers_eq (Kept.of_reachable hw)] at hbuyers
  refine ⟨hcount, hbuyers, hstatus, fun hcan => ?_⟩
  have hactive := (hcan.checks (of_decide_eq_true hprice)).1
  rw [hstatus] at hactive
  cases hactive

/-- The equivalence on the run of the agent that buys twice, where both sides fail. -/
theorem buyers_in_order_iff_twice : ∃ ts w, (contract 1).system.Run ts w ∧
    (Throughout (InOrder 1 1) ts w ↔ (∀ tr ∈ ts, Admits 1 tr) ∧ Throughout (Fits 1) ts w) ∧
    ¬ Throughout (InOrder 1 1) ts w := by
  obtain ⟨ts, w, hcalls, hr, -⟩ := sample_run twiceCalls (by decide) rfl
  obtain ⟨hcount, hbuyers, -, -⟩ := twice_state hcalls hr.reachable
  refine ⟨ts, w, hr, buyers_in_order_iff hr, fun horder => ?_⟩
  have hcounted := horder.2.counted
  omega

/-- The buyer cap does not count buyers: one buyer that buys twice sells the listing out, and cannot renew. -/
theorem not_in_order : ∃ w, (contract 1).system.Reachable w ∧ (w.state.listings 1).buyerCount = 2 ∧
    (buyers w.state 1).card = 1 ∧ (w.state.listings 1).status = .soldOut ∧ ¬ CanRenew 1 1 3 w ∧
    ¬ InOrder 1 1 w := by
  obtain ⟨ts, w, hcalls, hr, -⟩ := sample_run twiceCalls (by decide) rfl
  obtain ⟨hcount, hbuyers, hstatus, hcan⟩ := twice_state hcalls hr.reachable
  refine ⟨w, hr.reachable, hcount, hbuyers, hstatus, hcan, fun horder => ?_⟩
  have hcounted := horder.counted
  omega

end AuditGuard.DataMarketplace
