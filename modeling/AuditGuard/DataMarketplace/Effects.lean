import AuditGuard.DataMarketplace.Subscriptions

/-!
# DataMarketplace: what a call does to the books

The books are the storage without the log, the number of the next purchase and the addresses that no property
here is about. What each function does to them and to the ledger, if it returns, makes one relation for all
calls. A sale is three transfers, whatever its amounts are: the price from the buyer to the contract, and from
there the seller's part and the fee.
-/

namespace AuditGuard.DataMarketplace

open Evm TransitionSystem

/-- The part of the storage that sales are about. -/
structure Books where
  listings : ℕ → DataListing
  purchases : ℕ → List Purchase
  hasBuyerAccess : ℕ → Address → Bool
  nextListingId : ℕ
  platformFeePercent : ℕ
  treasury : Address

/-- The books in the storage. -/
@[simps]
def books (s : State) : Books where
  listings := s.listings
  purchases := s.purchases
  hasBuyerAccess := s.hasBuyerAccess
  nextListingId := s.nextListingId
  platformFeePercent := s.platformFeePercent
  treasury := s.treasury

namespace Books

/-- Writes a listing. -/
def setListing (b : Books) (listingId : ℕ) (listing : DataListing) : Books :=
  { b with listings := Function.update b.listings listingId listing }

/-- Writes the purchases of a listing. -/
def setPurchases (b : Books) (listingId : ℕ) (purchases : List Purchase) : Books :=
  { b with purchases := Function.update b.purchases listingId purchases }

/-- Gives a buyer access. -/
def grant (b : Books) (listingId : ℕ) (buyer : Address) : Books :=
  let hasAccess := Function.update (b.hasBuyerAccess listingId) buyer true
  { b with hasBuyerAccess := Function.update b.hasBuyerAccess listingId hasAccess }

end Books

/-- A listing after one more purchase. -/
def DataListing.sold (listing : DataListing) : DataListing :=
  { listing with
    buyerCount := listing.buyerCount + 1
    totalRevenue := listing.totalRevenue + listing.price
    status := if 0 < listing.maxBuyers ∧ listing.maxBuyers ≤ listing.buyerCount + 1 then .soldOut
      else listing.status }

/-- A listing after a renewal. -/
def DataListing.renewed (listing : DataListing) : DataListing :=
  { listing with totalRevenue := listing.totalRevenue + listing.price }

/-- The transfers of a sale at a price, of which `platformFee` is the treasury's. -/
def saleTransfers (this buyer seller treasury : Address) (price platformFee : ℕ) :
    List (Address × Address × ℕ) :=
  [(buyer, this, price), (this, seller, price - platformFee), (this, treasury, platformFee)]

/-- The tokens of a sale of a listing to a buyer go where they belong. -/
def Pays (this buyer : Address) (b : Books) (listing : DataListing) (token token' : TokenLedger) : Prop :=
  ∃ platformFee ≤ listing.price, token.transferAll
    (saleTransfers this buyer listing.seller b.treasury listing.price platformFee) = some token'

/-- What a call that succeeds does to the books and to the ledger. -/
inductive Effect (this : Address) (env : Env) (b : Books) (token : TokenLedger) :
    Call → Books → TokenLedger → Prop
  | create {parentJobId price subscriptionPeriod contentHash maxBuyers durationSeconds : UInt 256}
      {title description : String} {category : DataCategory} {listingType : ListingType}
      {listing : DataListing} (hid : listing.listingId = b.nextListingId)
      (hseller : listing.seller = env.sender)
      (hstatus : listing.status = .active)
      (hcount : listing.buyerCount = (b.listings b.nextListingId).buyerCount)
      (hrevenue : listing.totalRevenue = (b.listings b.nextListingId).totalRevenue) :
      Effect this env b token (.createListing parentJobId title description category listingType price
        subscriptionPeriod contentHash maxBuyers durationSeconds)
        { b.setListing b.nextListingId listing with nextListingId := b.nextListingId + 1 } token
  | buy {listingId : UInt 256} {purchase : Purchase} {token' : TokenLedger}
      (hexists : (b.listings listingId).listingId ≠ 0)
      (hpurchasable : requirePurchasableListing env (b.listings listingId) = .ok ())
      (hnew : (b.listings listingId).listingType ≠ .subscription →
        b.hasBuyerAccess listingId env.sender = false)
      (hpays : Pays this env.sender b (b.listings listingId) token token')
      (hbuyer : purchase.buyer = env.sender)
      (hpaid : purchase.pricePaid = (b.listings listingId).price) :
      Effect this env b token (.purchaseData listingId)
        (((b.setPurchases listingId (b.purchases listingId ++ [purchase])).grant listingId
          env.sender).setListing listingId (b.listings listingId).sold) token'
  | renew {listingId : UInt 256} {i : ℕ} {purchase : Purchase} {token' : TokenLedger}
      (hexists : (b.listings listingId).listingId ≠ 0)
      (hpays : Pays this env.sender b (b.listings listingId) token token')
      (hfind : findLatestPurchaseIndex (b.purchases listingId) env.sender = (true, i))
      (hbuyer : purchase.buyer = env.sender)
      (hpaid : purchase.pricePaid = (b.listings listingId).price) :
      Effect this env b token (.renewSubscription listingId)
        ((b.setPurchases listingId ((b.purchases listingId).set i purchase)).setListing listingId
          (b.listings listingId).renewed) token'
  | tip {listingId amount : UInt 256} {token' : TokenLedger}
      (hexists : (b.listings listingId).listingId ≠ 0)
      (htoken : token.transfer env.sender (b.listings listingId).seller amount = some token') :
      Effect this env b token (.tipSeller listingId amount) b token'
  | rate {listingId : UInt 256} {rating : UInt 8} {i : ℕ} {purchase : Purchase}
      (hfind : findLatestPurchaseIndex (b.purchases listingId) env.sender = (true, i))
      (hbuyer : purchase.buyer = env.sender) :
      Effect this env b token (.ratePurchase listingId rating)
        (b.setPurchases listingId ((b.purchases listingId).set i purchase)) token
  | delist {listingId : UInt 256} (hexists : (b.listings listingId).listingId ≠ 0) :
      Effect this env b token (.delistData listingId)
        (b.setListing listingId { b.listings listingId with status := .delisted }) token
  | reprice {listingId newPrice : UInt 256} (hexists : (b.listings listingId).listingId ≠ 0)
      (hactive : (b.listings listingId).status = .active) :
      Effect this env b token (.updatePrice listingId newPrice)
        (b.setListing listingId { b.listings listingId with price := newPrice }) token
  | setTreasury {treasury : Address} :
      Effect this env b token (.setTreasury treasury) { b with treasury := treasury } token
  | setPlatformFeePercent {feePercent : UInt 256} (hle : feePercent.val ≤ 10) :
      Effect this env b token (.setPlatformFeePercent feePercent)
        { b with platformFeePercent := feePercent } token
  | setAgentRegistry {agentRegistry : Address} :
      Effect this env b token (.setAgentRegistry agentRegistry) b token
  | transferOwnership {newOwner : Address} :
      Effect this env b token (.transferOwnership newOwner) b token
  | renounceOwnership : Effect this env b token .renounceOwnership b token

variable {this : Address} {env : Env} {s s' : State} {w w' : World State}

theorem pay_moves {recipient : Address} {amount : ℕ} (h : pay this env recipient amount w = .ok w') :
    ∃ token, w.token.transfer this recipient amount = some token ∧ w' = { w with token := token } := by
  unfold pay at h
  split_ifs at h with hpositive
  · simp only [transferGuard, Hts.transfer_eq_ok] at h
    obtain ⟨-, token, htoken, rfl⟩ := h
    exact ⟨token, htoken, rfl⟩
  · rw [pure_eq_ok] at h
    obtain rfl : amount = 0 := by omega
    exact ⟨w.token, Ledger.transfer_zero _ _ _, h.symm⟩

theorem processSalePayment_moves {buyer seller : Address} {price platformFee : ℕ}
    (h : processSalePayment this env buyer seller price w = .ok (platformFee, w')) :
    platformFee ≤ price ∧ ∃ token, w.token.transferAll
      (saleTransfers this buyer seller w.state.treasury price platformFee) = some token ∧
      w' = { w with token := token } := by
  simp only [processSalePayment, feeBreakdown, bind_eq_ok, pure_eq_ok, checkedSub_eq_ok, Prod.exists,
    Prod.mk.injEq] at h
  obtain ⟨fee, payment, ⟨_, -, _, -, _, ⟨hle, rfl⟩, rfl, rfl⟩, h⟩ := h
  split_ifs at h with hprice
  · -- A sale for nothing returns early, and its transfers would move nothing.
    rw [pure_eq_ok] at h
    obtain ⟨rfl, rfl⟩ := Prod.mk.inj h
    refine ⟨hle, w.token, ?_, rfl⟩
    rw [hprice] at hle ⊢
    rw [Nat.le_zero.mp hle]
    simp only [saleTransfers, Ledger.transferAll, List.foldlM_cons, List.foldlM_nil,
      Ledger.transfer_zero, Option.bind_eq_bind, Option.bind_some, Nat.sub_zero, Option.pure_def]
  · simp only [transferGuard, Hts.transfer_eq_ok, bind_eq_ok, pure_eq_ok, Prod.mk.injEq] at h
    obtain ⟨_, ⟨-, token₁, htoken₁, rfl⟩, w₂, hseller, w₃, htreasury, rfl, rfl⟩ := h
    obtain ⟨token₂, htoken₂, rfl⟩ := pay_moves hseller
    obtain ⟨token₃, htoken₃, rfl⟩ := pay_moves htreasury
    refine ⟨hle, token₃, ?_, rfl⟩
    dsimp only at htoken₂ htoken₃
    simp only [saleTransfers, Ledger.transferAll, List.foldlM_cons, List.foldlM_nil, htoken₁, htoken₂,
      htoken₃, Option.bind_eq_bind, Option.bind_some, Option.pure_def]

theorem createListing_effect {parentJobId price subscriptionPeriod contentHash maxBuyers
    durationSeconds : UInt 256} {title description : String} {category : DataCategory}
    {listingType : ListingType} (token : TokenLedger)
    (h : createListing env parentJobId title description category listingType price
      subscriptionPeriod contentHash maxBuyers durationSeconds s = .ok s') :
    Effect this env (books s) token (.createListing parentJobId title description category listingType
      price subscriptionPeriod contentHash maxBuyers durationSeconds) (books s') token := by
  simp only [createListing, bind_eq_ok, pure_eq_ok, checkedAdd_eq_ok] at h
  obtain ⟨_, -, _, -, _, ⟨-, rfl⟩, expiresAt, -, rfl⟩ := h
  exact .create rfl rfl rfl rfl rfl

theorem purchaseData_effect {listingId : UInt 256} (h : purchaseData this env listingId w = .ok w') :
    Effect this env (books w.state) w.token (.purchaseData listingId) (books w'.state) w'.token := by
  simp only [purchaseData, getExistingListing, createPurchaseRecord, bind_eq_ok, pure_eq_ok,
    require_eq_ok, checkedAdd_eq_ok, Prod.exists] at h
  obtain ⟨_, -, _, ⟨_, hexists, rfl⟩, _, hpurchasable, _, -, _, hnew, fee, w₁, hpay, s₁,
    ⟨_, ⟨-, rfl⟩, expires, -, rfl⟩, _, ⟨-, rfl⟩, _, ⟨-, rfl⟩, rfl⟩ := h
  obtain ⟨hle, token, htoken, rfl⟩ := processSalePayment_moves hpay
  refine .buy hexists hpurchasable (fun hone => ?_) ⟨fee, hle, htoken⟩ rfl rfl
  rw [books_listings] at hone
  rw [if_pos hone, require_eq_ok] at hnew
  exact hnew

theorem renewSubscription_effect {listingId : UInt 256}
    (h : renewSubscription this env listingId w = .ok w') :
    Effect this env (books w.state) w.token (.renewSubscription listingId) (books w'.state)
      w'.token := by
  simp only [renewSubscription, getExistingListing, bind_eq_ok, pure_eq_ok, require_eq_ok,
    Prod.exists] at h
  obtain ⟨_, -, _, ⟨_, hexists, rfl⟩, _, -, _, -, _, -, fee, w₁, hpay, h⟩ := h
  obtain ⟨hle, token, htoken, rfl⟩ := processSalePayment_moves hpay
  rcases hfind : findLatestPurchaseIndex (w.state.purchases listingId) env.sender with ⟨found, i⟩
  simp only [hfind, checkedAdd_eq_ok] at h
  obtain ⟨_, rfl, _, ⟨-, rfl⟩, _, ⟨-, rfl⟩, rfl⟩ := h
  exact .renew hexists ⟨fee, hle, htoken⟩ hfind (findLatestPurchaseFrom_ok hfind).2 rfl

theorem ratePurchase_effect {listingId : UInt 256} {rating : UInt 8} (token : TokenLedger)
    (h : ratePurchase env listingId rating s = .ok s') :
    Effect this env (books s) token (.ratePurchase listingId rating) (books s') token := by
  simp only [ratePurchase, getExistingListing, bind_eq_ok, pure_eq_ok] at h
  obtain ⟨_, -, _, -, _, ⟨_, -, rfl⟩, h⟩ := h
  rcases hfind : findLatestPurchaseIndex (s.purchases listingId) env.sender with ⟨found, i⟩
  simp only [hfind, require_eq_ok] at h
  obtain ⟨_, rfl, rfl⟩ := h
  exact .rate hfind (findLatestPurchaseFrom_ok hfind).2

/-- Every call that succeeds has its effect. -/
theorem exec_effect {c : Call} (h : exec this env c w = .ok w') :
    Effect this env (books w.state) w.token c (books w'.state) w'.token := by
  unfold exec at h
  split_ifs at h
  cases c with
  | purchaseData listingId => exact purchaseData_effect h
  | renewSubscription listingId => exact renewSubscription_effect h
  | tipSeller listingId amount =>
    simp only [tipSeller, getExistingListing, transferGuard, Hts.transfer_eq_ok, bind_eq_ok,
      pure_eq_ok, require_eq_ok] at h
    obtain ⟨_, -, _, -, _, ⟨_, hexists, rfl⟩, _, -, _, ⟨-, token, htoken, rfl⟩, rfl⟩ := h
    exact .tip hexists htoken
  -- The other calls work on storage alone.
  | createListing =>
    obtain ⟨s, hs, rfl⟩ := onState_eq_ok.mp h
    exact createListing_effect w.token hs
  | ratePurchase listingId rating =>
    obtain ⟨s, hs, rfl⟩ := onState_eq_ok.mp h
    exact ratePurchase_effect w.token hs
  | delistData listingId =>
    obtain ⟨s, hs, rfl⟩ := onState_eq_ok.mp h
    simp only [delistData, getExistingListing, bind_eq_ok, pure_eq_ok, require_eq_ok] at hs
    obtain ⟨_, ⟨_, hexists, rfl⟩, _, -, rfl⟩ := hs
    exact .delist hexists
  | updatePrice listingId newPrice =>
    obtain ⟨s, hs, rfl⟩ := onState_eq_ok.mp h
    simp only [updatePrice, getExistingListing, bind_eq_ok, pure_eq_ok, require_eq_ok] at hs
    obtain ⟨_, ⟨_, hexists, rfl⟩, _, -, _, hactive, _, -, rfl⟩ := hs
    exact .reprice hexists hactive
  | setTreasury treasury =>
    obtain ⟨s, hs, rfl⟩ := onState_eq_ok.mp h
    simp only [setTreasury, bind_eq_ok, pure_eq_ok] at hs
    obtain ⟨_, -, _, -, rfl⟩ := hs
    exact .setTreasury
  | setPlatformFeePercent feePercent =>
    obtain ⟨s, hs, rfl⟩ := onState_eq_ok.mp h
    simp only [setPlatformFeePercent, bind_eq_ok, pure_eq_ok, require_eq_ok] at hs
    obtain ⟨_, -, _, hle, rfl⟩ := hs
    exact .setPlatformFeePercent hle
  | setAgentRegistry agentRegistry =>
    obtain ⟨s, hs, rfl⟩ := onState_eq_ok.mp h
    simp only [setAgentRegistry, bind_eq_ok, pure_eq_ok] at hs
    obtain ⟨_, -, _, -, rfl⟩ := hs
    exact .setAgentRegistry
  | transferOwnership newOwner =>
    obtain ⟨s, hs, rfl⟩ := onState_eq_ok.mp h
    simp only [transferOwnership, bind_eq_ok, pure_eq_ok] at hs
    obtain ⟨_, -, _, -, rfl⟩ := hs
    exact .transferOwnership
  | renounceOwnership =>
    obtain ⟨s, hs, rfl⟩ := onState_eq_ok.mp h
    simp only [renounceOwnership, bind_eq_ok, pure_eq_ok] at hs
    obtain ⟨_, -, rfl⟩ := hs
    exact .renounceOwnership

/-! ## What every reachable state keeps -/

/-- What the functions keep of one listing: access goes by the purchase records, a listing that was never
written is empty, the contract sells nothing itself, and the counter is within the cap. -/
structure ListingKept (this : Address) (next listingId : ℕ) (listing : DataListing)
    (records : List Purchase) (access : Address → Bool) : Prop where
  recorded : ∀ a, access a = true ↔ a ∈ records.map Purchase.buyer
  existing : listing.listingId ≠ 0 → listingId < next
  unwritten : listing.listingId = 0 → listing.buyerCount = 0 ∧ records = []
  seller : listing.listingId ≠ 0 → listing.seller ≠ this
  capped : 0 < listing.maxBuyers → listing.buyerCount ≤ listing.maxBuyers

/-- What the functions keep of the books. -/
structure Kept (this : Address) (b : Books) : Prop where
  next_pos : 0 < b.nextListingId
  percent_le : b.platformFeePercent ≤ 10
  listing : ∀ id, ListingKept this b.nextListingId id (b.listings id) (b.purchases id) (b.hasBuyerAccess id)

variable {buyer : Address} {b b' : Books} {token token' : TokenLedger} {c : Call}
  {listing next listingId : ℕ} {l : DataListing} {records : List Purchase} {access : Address → Bool}

theorem ListingKept.mono {next' : ℕ} (h : ListingKept this next listingId l records access)
    (hle : next ≤ next') : ListingKept this next' listingId l records access :=
  { h with existing := fun hexists => (h.existing hexists).trans_le hle }

theorem ListingKept.rewrite {l' : DataListing} (h : ListingKept this next listingId l records access)
    (hid : l'.listingId = l.listingId) (hexists : l.listingId ≠ 0)
    (hcapped : 0 < l'.maxBuyers → l'.buyerCount ≤ l'.maxBuyers) (hseller : l'.seller = l.seller) :
    ListingKept this next listingId l' records access where
  recorded := h.recorded
  existing hne := h.existing (hid ▸ hne)
  unwritten hzero := absurd (hid ▸ hzero) hexists
  capped := hcapped
  seller hne := hseller ▸ h.seller (hid ▸ hne)

theorem map_buyer_set {i : ℕ} {p : Purchase}
    (hfind : findLatestPurchaseIndex records buyer = (true, i)) (hbuyer : p.buyer = buyer) :
    (records.set i p).map Purchase.buyer = records.map Purchase.buyer := by
  obtain ⟨hlt, hfound⟩ := findLatestPurchaseFrom_ok hfind
  have hget : records[i]? = some (records.getD i Purchase.zero) := by
    rw [List.getD_eq_getElem?_getD, List.getElem?_eq_getElem hlt, Option.getD_some]
  exact Keyed.map_set hget (hbuyer.trans hfound.symm)

theorem ListingKept.rerecord {records' : List Purchase}
    (h : ListingKept this next listingId l records access)
    (hsame : records'.map Purchase.buyer = records.map Purchase.buyer) :
    ListingKept this next listingId l records' access where
  recorded a := by rw [h.recorded, hsame]
  existing := h.existing
  unwritten hzero := by
    obtain ⟨hcount, rfl⟩ := h.unwritten hzero
    exact ⟨hcount, List.map_eq_nil_iff.mp hsame⟩
  capped := h.capped
  seller := h.seller

theorem requirePurchasableListing_ok (h : requirePurchasableListing env l = .ok ()) :
    l.status = .active ∧ (l.expiresAt = 0 ∨ env.timestamp ≤ l.expiresAt) ∧
      (0 < l.maxBuyers → l.buyerCount < l.maxBuyers) := by
  simp only [requirePurchasableListing, bind_eq_ok, require_eq_ok] at h
  obtain ⟨_, hstatus, _, hexpired, hcap⟩ := h
  unfold isExpired at hexpired
  rw [decide_eq_false_iff_not] at hexpired
  refine ⟨hstatus, by omega, fun hmax => ?_⟩
  rw [if_pos hmax, require_eq_ok] at hcap
  exact hcap

theorem Kept.write (hb : Kept this b) (listing : ℕ) (hnext : b.nextListingId ≤ b'.nextListingId)
    (hpercent : b'.platformFeePercent ≤ 10)
    (hother : ∀ id, id ≠ listing → b'.listings id = b.listings id ∧
      b'.purchases id = b.purchases id ∧ b'.hasBuyerAccess id = b.hasBuyerAccess id)
    (hwritten : ListingKept this b'.nextListingId listing (b'.listings listing) (b'.purchases listing)
      (b'.hasBuyerAccess listing)) : Kept this b' where
  next_pos := hb.next_pos.trans_le hnext
  percent_le := hpercent
  listing id := by
    rcases eq_or_ne id listing with rfl | hne
    · exact hwritten
    · obtain ⟨hlisting, hpurchases, haccess⟩ := hother id hne
      rw [hlisting, hpurchases, haccess]
      exact (hb.listing id).mono hnext

theorem Books.setListing_of_ne {id : ℕ} (hne : id ≠ listing) :
    (b.setListing listing l).listings id = b.listings id := Function.update_of_ne hne _ _

/-- Every call keeps what the books keep. -/
theorem Effect.kept (h : Effect this env b token c b' token') (hs : env.sender ≠ this)
    (hb : Kept this b) : Kept this b' := by
  cases h with
  | @create _ _ _ _ _ _ _ _ _ _ l hid hseller hstatus hcount hrevenue =>
    -- The number is not taken, so that the place is empty.
    have hold := hb.listing b.nextListingId
    have hzero : (b.listings b.nextListingId).listingId = 0 := by
      by_contra hexists
      exact absurd (hold.existing hexists) (lt_irrefl _)
    have hcounter := (hold.unwritten hzero).1
    refine hb.write b.nextListingId (Nat.le_succ _) hb.percent_le
      (fun id hne => ⟨Books.setListing_of_ne hne, rfl, rfl⟩) ?_
    simp only [Books.setListing, Function.update_self]
    exact {
      recorded := hold.recorded
      existing := fun _ => Nat.lt_succ_self _
      unwritten := fun hnone => absurd (hid ▸ hnone) hb.next_pos.ne'
      seller := fun _ => hseller ▸ hs
      capped := fun _ => by omega }
  | @buy listingId purchase _ hexists hpurchasable hnew hpays hbuyer hpaid =>
    have hold := hb.listing listingId
    obtain ⟨-, -, hplace⟩ := requirePurchasableListing_ok hpurchasable
    refine hb.write listingId.val le_rfl hb.percent_le (fun id hne => ?_) ?_
    · exact ⟨Function.update_of_ne hne _ _, Function.update_of_ne hne _ _, Function.update_of_ne hne _ _⟩
    · simp only [Books.setListing, Books.grant, Books.setPurchases, Function.update_self]
      exact {
        recorded := fun a => by
          rw [List.map_append, List.map_singleton, List.mem_append, List.mem_singleton, ← hold.recorded,
            hbuyer, Function.update_apply]
          split_ifs with ha
          · simp [ha]
          · simp [ha]
        existing := hold.existing
        unwritten := fun hnone => absurd hnone hexists
        seller := hold.seller
        capped := hplace }
  | @renew listingId i purchase _ hexists hpays hfind hbuyer hpaid =>
    have hold := hb.listing listingId
    refine hb.write listingId.val le_rfl hb.percent_le (fun id hne => ?_) ?_
    · exact ⟨Function.update_of_ne hne _ _, Function.update_of_ne hne _ _, rfl⟩
    · simp only [Books.setListing, Books.setPurchases, Function.update_self]
      exact (hold.rerecord (map_buyer_set hfind hbuyer)).rewrite rfl hexists hold.capped rfl
  | @rate listingId rating i purchase hfind hbuyer =>
    refine hb.write listingId.val le_rfl hb.percent_le (fun id hne => ?_) ?_
    · exact ⟨rfl, Function.update_of_ne hne _ _, rfl⟩
    · simp only [Books.setPurchases, Function.update_self]
      exact (hb.listing listingId).rerecord (map_buyer_set hfind hbuyer)
  | @delist listingId hexists =>
    refine hb.write listingId.val le_rfl hb.percent_le
      (fun id hne => ⟨Books.setListing_of_ne hne, rfl, rfl⟩) ?_
    simp only [Books.setListing, Function.update_self]
    exact (hb.listing listingId).rewrite rfl hexists (hb.listing listingId).capped rfl
  | @reprice listingId newPrice hexists hactive =>
    refine hb.write listingId.val le_rfl hb.percent_le
      (fun id hne => ⟨Books.setListing_of_ne hne, rfl, rfl⟩) ?_
    simp only [Books.setListing, Function.update_self]
    exact (hb.listing listingId).rewrite rfl hexists (hb.listing listingId).capped rfl
  | setPlatformFeePercent hle => exact { hb with percent_le := hle }
  | setTreasury => exact { hb with }
  | _ => exact hb

theorem Kept.fresh (this : Address) {s : State} (hs : (contract this).fresh s) : Kept this (books s) := by
  obtain ⟨deployer, guardToken, agentRegistry, treasury, hs⟩ := hs
  simp only [deploy, bind_eq_ok, pure_eq_ok] at hs
  obtain ⟨_, -, _, -, _, -, _, -, rfl⟩ := hs
  exact {
    next_pos := Nat.one_pos
    percent_le := by simp [State.fresh]
    listing := fun id => {
      recorded := by simp [State.fresh]
      existing := fun h => absurd rfl h
      unwritten := fun _ => ⟨rfl, rfl⟩
      seller := fun h => absurd rfl h
      capped := fun h => absurd h (lt_irrefl 0) } }

theorem Kept.of_reachable (hw : (contract this).system.Reachable w) : Kept this (books w.state) := by
  refine hw.induct (I := fun w => Kept this (books w.state)) (fun _ h => Kept.fresh this h) ?_
  intro w l w' _ hb hstep
  cases hstep with
  | call hs h0 ht hexec => exact (exec_effect hexec).kept hs hb
  | elsewhere h ht => exact hb

end AuditGuard.DataMarketplace
