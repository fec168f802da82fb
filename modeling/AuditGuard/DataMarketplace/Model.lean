import AuditGuard.Library.Contract

/-!
# DataMarketplace: storage and internal functions

The data of `DataMarketplace.sol` and its functions on storage alone. The array of a listing's purchases is a
list, and a mapping is a function. The lists of listings by seller and by job and of purchases by buyer,
which only views read, are left out. Where a `uint256` field comes out of an operation, the operation makes
the check that the compiler makes.
-/

namespace AuditGuard.DataMarketplace

open Evm

/-- Listing sale model. -/
inductive ListingType
  | oneTime
  | subscription
  | tip
deriving DecidableEq

/-- Category for data product discovery. -/
inductive DataCategory
  | scanReport
  | dependencyAnalysis
  | exploitDatabase
  | hotLead
  | fuzzingSeeds
  | threatIntel
  | auditFinding
  | other
deriving DecidableEq

/-- Listing lifecycle status. -/
inductive ListingStatus
  | active
  | soldOut
  | expired
  | delisted
deriving DecidableEq

/-- A data listing. -/
structure DataListing where
  /-- Zero if the listing does not exist. -/
  listingId : ℕ
  seller : Address
  parentJobId : ℕ
  title : String
  description : String
  category : DataCategory
  listingType : ListingType
  price : ℕ
  subscriptionPeriod : ℕ
  contentHash : UInt 256
  /-- Zero if there may be any number of buyers. -/
  maxBuyers : ℕ
  buyerCount : ℕ
  listedAt : ℕ
  /-- Zero if the listing never expires. -/
  expiresAt : ℕ
  status : ListingStatus
  totalRevenue : ℕ
deriving DecidableEq

/-- A listing that was never written. -/
def DataListing.zero : DataListing :=
  ⟨0, 0, 0, "", "", .scanReport, .oneTime, 0, 0, 0, 0, 0, 0, 0, .active, 0⟩

/-- A purchase record of a listing and a buyer. -/
structure Purchase where
  purchaseId : ℕ
  listingId : ℕ
  buyer : Address
  pricePaid : ℕ
  purchasedAt : ℕ
  subscriptionExpiresAt : ℕ
  accessGranted : Bool
  rating : ℕ
deriving DecidableEq

/-- A purchase that was never written. -/
def Purchase.zero : Purchase := ⟨0, 0, 0, 0, 0, 0, false, 0⟩

/-- The contract's events. -/
inductive Event
  | dataListed (listingId : ℕ) (seller : Address) (parentJobId : ℕ) (title : String)
      (category : DataCategory) (listingType : ListingType) (price : ℕ) (contentHash : UInt 256)
  | dataPurchased (listingId : ℕ) (buyer seller : Address) (pricePaid platformFee : ℕ)
  | subscriptionRenewed (listingId : ℕ) (buyer : Address) (newExpiresAt : ℕ)
  | tipSent (listingId : ℕ) (buyer seller : Address) (amount : ℕ)
  | dataRated (listingId : ℕ) (buyer : Address) (rating : ℕ)
  | dataDelisted (listingId : ℕ)
  | priceUpdated (listingId oldPrice newPrice : ℕ)
deriving DecidableEq

/-- The contract's storage, with the log of its events. -/
structure State where
  owner : Address
  guardToken : Address
  agentRegistry : Address
  treasury : Address
  platformFeePercent : ℕ
  nextListingId : ℕ
  nextPurchaseId : ℕ
  listings : ℕ → DataListing
  purchases : ℕ → List Purchase
  hasBuyerAccess : ℕ → Address → Bool
  /-- The events emitted so far, oldest first. -/
  log : List Event

/-- What a call reads from outside the contract: its message, which addresses hold code, what the agent
registry reports, and what HTS answers. A transfer that HTS refuses reverts the call, so that one answer
stands for all transfers of a call. -/
structure Env extends Msg where
  hasCode : Address → Bool
  isActiveAgent : Address → Bool
  getAgentReputation : Address → ℕ
  transferAnswer : ℤ

namespace State

/-- Appends an event to the log. -/
@[simps -fullyApplied]
def emit (s : State) (e : Event) : State := { s with log := s.log ++ [e] }

/-- Writes a listing. -/
@[simps -fullyApplied]
def setListing (s : State) (listingId : ℕ) (listing : DataListing) : State :=
  { s with listings := Function.update s.listings listingId listing }

/-- Writes the purchases of a listing. -/
@[simps -fullyApplied]
def setPurchases (s : State) (listingId : ℕ) (purchases : List Purchase) : State :=
  { s with purchases := Function.update s.purchases listingId purchases }

end State

/-- Reputation threshold for the discounted platform fee. -/
def HIGH_REP_DISCOUNT_THRESHOLD : ℕ := 8500

/-- Reduced fee percent for sellers of high reputation. -/
def HIGH_REP_FEE_PERCENT : ℕ := 1

/-- The modifier `onlyOwner`. -/
def onlyOwner (env : Env) (s : State) : Tx Unit :=
  modifier (env.sender = s.owner) "OwnableUnauthorizedAccount"

/-- `_requireActiveAgent`. -/
def requireActiveAgent (env : Env) (agent : Address) (s : State) : Tx Unit := do
  let active ← (if env.hasCode s.agentRegistry = true then .ok (env.isActiveAgent agent)
    else .error .callFailed : Tx Bool)
  require (active = true) "DataMarketplace: inactive agent"

/-- `_getExistingListing`. -/
def getExistingListing (listingId : ℕ) (s : State) : Tx DataListing := do
  require ((s.listings listingId).listingId ≠ 0) "DataMarketplace: listing does not exist"
  pure (s.listings listingId)

/-- `_isExpired`. -/
def isExpired (env : Env) (listing : DataListing) : Bool :=
  decide (listing.expiresAt ≠ 0 ∧ listing.expiresAt < env.timestamp)

/-- `_requirePurchasableListing`. -/
def requirePurchasableListing (env : Env) (listing : DataListing) : Tx Unit := do
  require (listing.status = .active) "DataMarketplace: listing not active"
  require (isExpired env listing = false) "DataMarketplace: listing expired"
  if 0 < listing.maxBuyers then
    require (listing.buyerCount < listing.maxBuyers) "DataMarketplace: listing sold out"
  else pure ()

/-- The loop of `_findLatestPurchaseIndex`, with the indices below `i` still to come. -/
def findLatestPurchaseFrom (records : List Purchase) (buyer : Address) : ℕ → Bool × ℕ
  | 0 => (false, 0)
  | i + 1 => if (records.getD i Purchase.zero).buyer = buyer then (true, i)
    else findLatestPurchaseFrom records buyer i

/-- `_findLatestPurchaseIndex`, in the purchases of a listing. -/
def findLatestPurchaseIndex (records : List Purchase) (buyer : Address) : Bool × ℕ :=
  findLatestPurchaseFrom records buyer records.length

/-- `_feeBreakdown`, without the percentage that its callers drop: the platform fee, and what is left for the
seller. -/
def feeBreakdown (env : Env) (seller : Address) (price : ℕ) (s : State) : Tx (ℕ × ℕ) := do
  let reputation ← (if env.hasCode s.agentRegistry = true then .ok (env.getAgentReputation seller)
    else .error .callFailed : Tx ℕ)
  let feePercent := if HIGH_REP_DISCOUNT_THRESHOLD ≤ reputation then HIGH_REP_FEE_PERCENT
    else s.platformFeePercent
  let product ← checkedMul 256 price feePercent
  let platformFee := product / 100
  let sellerPayment ← checkedSub price platformFee
  pure (platformFee, sellerPayment)

/-- `_validateListingInput`. -/
def validateListingInput (title description : String) (listingType : ListingType)
    (subscriptionPeriod : ℕ) (contentHash : UInt 256) : Tx Unit := do
  require (0 < title.utf8ByteSize) "DataMarketplace: empty title"
  require (0 < description.utf8ByteSize) "DataMarketplace: empty description"
  require (contentHash ≠ 0) "DataMarketplace: empty content hash"
  if listingType = .subscription then
    require (0 < subscriptionPeriod) "DataMarketplace: subscription period is zero"
  else require (subscriptionPeriod = 0) "DataMarketplace: non-subscription period must be zero"

/-- `createListing`. -/
def createListing (env : Env) (parentJobId : ℕ) (title description : String) (category : DataCategory)
    (listingType : ListingType) (price subscriptionPeriod : ℕ) (contentHash : UInt 256)
    (maxBuyers durationSeconds : ℕ) (s : State) : Tx State := do
  requireActiveAgent env env.sender s
  validateListingInput title description listingType subscriptionPeriod contentHash
  let listingId := s.nextListingId
  let nextListingId ← checkedAdd 256 listingId 1
  let expiresAt ← (if 0 < durationSeconds then checkedAdd 256 env.timestamp durationSeconds else pure 0)
  let s := { s with nextListingId := nextListingId }
  let s := s.setListing listingId { s.listings listingId with
    listingId := listingId
    seller := env.sender
    parentJobId := parentJobId
    title := title
    description := description
    category := category
    listingType := listingType
    price := price
    subscriptionPeriod := subscriptionPeriod
    contentHash := contentHash
    maxBuyers := maxBuyers
    listedAt := env.timestamp
    expiresAt := expiresAt
    status := .active }
  pure (s.emit (.dataListed listingId env.sender parentJobId title category listingType price contentHash))

/-- `_createPurchaseRecord`. -/
def createPurchaseRecord (env : Env) (listing : DataListing) (listingId : ℕ) (buyer : Address)
    (s : State) : Tx State := do
  let purchaseId := s.nextPurchaseId
  let nextPurchaseId ← checkedAdd 256 purchaseId 1
  let subscriptionExpiresAt ← (if listing.listingType = .subscription then
    checkedAdd 256 env.timestamp listing.subscriptionPeriod else pure 0)
  let s := { s with nextPurchaseId := nextPurchaseId }
  pure (s.setPurchases listingId (s.purchases listingId ++ [{
    purchaseId := purchaseId
    listingId := listingId
    buyer := buyer
    pricePaid := listing.price
    purchasedAt := env.timestamp
    subscriptionExpiresAt := subscriptionExpiresAt
    accessGranted := true
    rating := 0 }]))

/-- `ratePurchase`. -/
def ratePurchase (env : Env) (listingId rating : ℕ) (s : State) : Tx State := do
  require (1 ≤ rating ∧ rating ≤ 5) "DataMarketplace: rating must be 1-5"
  require (s.hasBuyerAccess listingId env.sender = true) "DataMarketplace: buyer has no access"
  let _ ← getExistingListing listingId s
  let (found, index) := findLatestPurchaseIndex (s.purchases listingId) env.sender
  require (found = true) "DataMarketplace: purchase not found"
  let purchase := (s.purchases listingId).getD index Purchase.zero
  let s := s.setPurchases listingId ((s.purchases listingId).set index { purchase with rating := rating })
  pure (s.emit (.dataRated listingId env.sender rating))

/-- `delistData`. -/
def delistData (env : Env) (listingId : ℕ) (s : State) : Tx State := do
  let listing ← getExistingListing listingId s
  require (env.sender = listing.seller) "DataMarketplace: caller is not seller"
  let s := s.setListing listingId { listing with status := .delisted }
  pure (s.emit (.dataDelisted listingId))

/-- `updatePrice`. -/
def updatePrice (env : Env) (listingId newPrice : ℕ) (s : State) : Tx State := do
  let listing ← getExistingListing listingId s
  require (env.sender = listing.seller) "DataMarketplace: caller is not seller"
  require (listing.status = .active) "DataMarketplace: listing not active"
  require (isExpired env listing = false) "DataMarketplace: listing expired"
  let s := s.setListing listingId { listing with price := newPrice }
  pure (s.emit (.priceUpdated listingId listing.price newPrice))

/-- `setTreasury`. -/
def setTreasury (env : Env) (treasury : Address) (s : State) : Tx State := do
  onlyOwner env s
  require (treasury ≠ 0) "DataMarketplace: treasury is zero"
  pure { s with treasury := treasury }

/-- `setPlatformFeePercent`. -/
def setPlatformFeePercent (env : Env) (feePercent : ℕ) (s : State) : Tx State := do
  onlyOwner env s
  require (feePercent ≤ 10) "DataMarketplace: fee exceeds maximum"
  pure { s with platformFeePercent := feePercent }

/-- `setAgentRegistry`. -/
def setAgentRegistry (env : Env) (agentRegistry : Address) (s : State) : Tx State := do
  onlyOwner env s
  require (agentRegistry ≠ 0) "DataMarketplace: registry is zero"
  pure { s with agentRegistry := agentRegistry }

/-- `transferOwnership`. -/
def transferOwnership (env : Env) (newOwner : Address) (s : State) : Tx State := do
  onlyOwner env s
  modifier (newOwner ≠ 0) "OwnableInvalidOwner"
  pure { s with owner := newOwner }

/-- `renounceOwnership`. -/
def renounceOwnership (env : Env) (s : State) : Tx State := do
  onlyOwner env s
  pure { s with owner := 0 }

end AuditGuard.DataMarketplace
