import AuditGuard.Hts
import AuditGuard.DataMarketplace.Model

/-!
# DataMarketplace: calls and runs

The external functions of `DataMarketplace.sol` that move GUARD, and the contract under all calls by all
callers, from its deployment on. The contract calls HTS, which calls nobody, and reads the agent registry.
The token's address has no setter, so that one ledger is enough.
-/

namespace AuditGuard.DataMarketplace

open Evm

/-- `_transferGuard`. -/
def transferGuard (env : Env) (src dst : Address) (amount : ℕ) (w : World State) : Tx (World State) :=
  Hts.transfer "DataMarketplace" env.transferAnswer src dst amount w

variable (this : Address) (env : Env)

/-- A payment out of the contract, unless the amount is zero. -/
def pay (recipient : Address) (amount : ℕ) (w : World State) : Tx (World State) :=
  if 0 < amount then transferGuard env this recipient amount w else pure w

/-- `_processSalePayment`. -/
def processSalePayment (buyer seller : Address) (price : ℕ) (w : World State) :
    Tx (ℕ × World State) := do
  let (platformFee, sellerPayment) ← feeBreakdown env seller price w.state
  if price = 0 then pure (platformFee, w)
  else do
    let w ← transferGuard env buyer this price w
    let w ← pay this env seller sellerPayment w
    let w ← pay this env w.state.treasury platformFee w
    pure (platformFee, w)

/-- `purchaseData`. -/
def purchaseData (listingId : ℕ) (w : World State) : Tx (World State) := do
  requireActiveAgent env env.sender w.state
  let listing ← getExistingListing listingId w.state
  requirePurchasableListing env listing
  require (env.sender ≠ listing.seller) "DataMarketplace: seller cannot buy own listing"
  let _ ← (if listing.listingType ≠ .subscription then
    require (w.state.hasBuyerAccess listingId env.sender = false)
      "DataMarketplace: buyer already has access"
    else pure ())
  let (platformFee, w) ← processSalePayment this env env.sender listing.seller listing.price w
  let s ← createPurchaseRecord env listing listingId env.sender w.state
  let buyerCount ← checkedAdd 256 listing.buyerCount 1
  let totalRevenue ← checkedAdd 256 listing.totalRevenue listing.price
  let hasAccess := Function.update (s.hasBuyerAccess listingId) env.sender true
  let s := { s with hasBuyerAccess := Function.update s.hasBuyerAccess listingId hasAccess }
  let s := s.setListing listingId { listing with
    buyerCount := buyerCount
    totalRevenue := totalRevenue
    status := if 0 < listing.maxBuyers ∧ listing.maxBuyers ≤ buyerCount then .soldOut
      else listing.status }
  pure { w with state := s.emit (.dataPurchased listingId env.sender listing.seller listing.price
    platformFee) }

/-- `renewSubscription`. -/
def renewSubscription (listingId : ℕ) (w : World State) : Tx (World State) := do
  requireActiveAgent env env.sender w.state
  let listing ← getExistingListing listingId w.state
  requirePurchasableListing env listing
  require (listing.listingType = .subscription) "DataMarketplace: listing is not subscription"
  require (w.state.hasBuyerAccess listingId env.sender = true)
    "DataMarketplace: buyer has no prior purchase"
  let (_, w) ← processSalePayment this env env.sender listing.seller listing.price w
  let (found, index) := findLatestPurchaseIndex (w.state.purchases listingId) env.sender
  require (found = true) "DataMarketplace: purchase not found"
  let purchase := (w.state.purchases listingId).getD index Purchase.zero
  let baseTimestamp := if env.timestamp < purchase.subscriptionExpiresAt
    then purchase.subscriptionExpiresAt else env.timestamp
  let subscriptionExpiresAt ← checkedAdd 256 baseTimestamp listing.subscriptionPeriod
  let s := w.state.setPurchases listingId ((w.state.purchases listingId).set index { purchase with
    subscriptionExpiresAt := subscriptionExpiresAt
    pricePaid := listing.price
    purchasedAt := env.timestamp
    accessGranted := true })
  let totalRevenue ← checkedAdd 256 listing.totalRevenue listing.price
  let s := s.setListing listingId { listing with totalRevenue := totalRevenue }
  pure { w with state := s.emit (.subscriptionRenewed listingId env.sender subscriptionExpiresAt) }

/-- `tipSeller`. -/
def tipSeller (listingId amount : ℕ) (w : World State) : Tx (World State) := do
  requireActiveAgent env env.sender w.state
  require (0 < amount) "DataMarketplace: amount is zero"
  let listing ← getExistingListing listingId w.state
  require (env.sender ≠ listing.seller) "DataMarketplace: seller cannot tip self"
  let w ← transferGuard env env.sender listing.seller amount w
  pure { w with state := w.state.emit (.tipSent listingId env.sender listing.seller amount) }

/-- The state-changing external functions with their arguments. -/
inductive Call
  | createListing (parentJobId : UInt 256) (title description : String) (category : DataCategory)
      (listingType : ListingType) (price subscriptionPeriod contentHash maxBuyers
      durationSeconds : UInt 256)
  | purchaseData (listingId : UInt 256)
  | renewSubscription (listingId : UInt 256)
  | tipSeller (listingId amount : UInt 256)
  | ratePurchase (listingId : UInt 256) (rating : UInt 8)
  | delistData (listingId : UInt 256)
  | updatePrice (listingId newPrice : UInt 256)
  | setTreasury (treasury : Address)
  | setPlatformFeePercent (feePercent : UInt 256)
  | setAgentRegistry (agentRegistry : Address)
  | transferOwnership (newOwner : Address)
  | renounceOwnership

/-- One call. No function is payable, so that a message with HBAR is refused. -/
def exec (c : Call) (w : World State) : Tx (World State) :=
  if env.value ≠ 0 then .error .callFailed
  else match c with
  | .createListing parentJobId title description category listingType price subscriptionPeriod
      contentHash maxBuyers durationSeconds =>
    onState (createListing env parentJobId title description category listingType price
      subscriptionPeriod contentHash maxBuyers durationSeconds) w
  | .purchaseData listingId => purchaseData this env listingId w
  | .renewSubscription listingId => renewSubscription this env listingId w
  | .tipSeller listingId amount => tipSeller env listingId amount w
  | .ratePurchase listingId rating => onState (ratePurchase env listingId rating) w
  | .delistData listingId => onState (delistData env listingId) w
  | .updatePrice listingId newPrice => onState (updatePrice env listingId newPrice) w
  | .setTreasury treasury => onState (setTreasury env treasury) w
  | .setPlatformFeePercent feePercent => onState (setPlatformFeePercent env feePercent) w
  | .setAgentRegistry agentRegistry => onState (setAgentRegistry env agentRegistry) w
  | .transferOwnership newOwner => onState (transferOwnership env newOwner) w
  | .renounceOwnership => onState (renounceOwnership env) w

/-- The storage that the constructor leaves. -/
def State.fresh (deployer guardToken agentRegistry treasury : Address) : State where
  owner := deployer
  guardToken := guardToken
  agentRegistry := agentRegistry
  treasury := treasury
  platformFeePercent := 3
  nextListingId := 1
  nextPurchaseId := 1
  listings := fun _ => DataListing.zero
  purchases := fun _ => []
  hasBuyerAccess := fun _ _ => false
  log := []

/-- The constructor, called by `deployer`. -/
def deploy (deployer guardToken agentRegistry treasury : Address) : Tx State := do
  modifier (deployer ≠ 0) "OwnableInvalidOwner"
  require (guardToken ≠ 0) "DataMarketplace: guard token is zero"
  require (agentRegistry ≠ 0) "DataMarketplace: registry is zero"
  require (treasury ≠ 0) "DataMarketplace: treasury is zero"
  pure (State.fresh deployer guardToken agentRegistry treasury)

/-- The contract, at the address `this`. -/
def contract : Contract State Env Call where
  this := this
  fresh s := ∃ deployer guardToken agentRegistry treasury,
    deploy deployer guardToken agentRegistry treasury = .ok s
  msg := Env.toMsg
  exec := exec this

/-! ## A sample marketplace

The contract at address 1, deployed by 9, with GUARD at 7, the agent registry at 6 and the treasury 10. The
agents 2 and 3 hold tokens, and every outside condition is met. -/

/-- The marketplace at its deployment. -/
def sampleWorld : World State where
  state := State.fresh 9 7 6 10
  token := ((Ledger.single 2 (2 * 10^12) TokenLedger.two_trillion_lt).transfer 2 3 (10^12)).getD
    (Ledger.single 2 0 TokenLedger.zero_lt)
  now := 0

/-- A call without HBAR, of which everything outside succeeds. -/
def sampleEnv (sender : Address) (timestamp : ℕ) : Env where
  sender := sender
  value := 0
  timestamp := timestamp
  hasCode := fun _ => true
  isActiveAgent := fun _ => true
  getAgentReputation := fun _ => 5000
  transferAnswer := Hts.HTS_SUCCESS

theorem sample_run (calls : List (Env × Call)) (hs : (contract 1).Scheduled 0 calls)
    (h : ((contract 1).execAll calls sampleWorld).isOk = true) :
    ∃ ts w, (contract 1).execAll calls sampleWorld = .ok w ∧ (contract 1).system.Run ts w ∧
      (contract 1).trace calls sampleWorld = .ok ts :=
  Contract.exists_run ⟨9, 7, 6, 10, rfl⟩ hs h

end AuditGuard.DataMarketplace
