import AuditGuard.Hts
import AuditGuard.SubAuction.Model

/-!
# SubAuction: calls and runs

The external functions of `SubAuction.sol`, which act on the storage and on the ledger of the GUARD token,
and the contract under all calls by all callers, from its deployment on. The contract calls HTS, which calls
nobody, and the agent registry and the main auction, which do not call back; what they do with tokens of
their own is a movement elsewhere. The token's address has no setter, so that one ledger is enough.
-/

namespace AuditGuard.SubAuction

open Evm

/-- `_transferGuard`, for a sub-job. -/
def transferGuard (env : Env) (subJobId : ℕ) (src dst : Address) (amount : ℕ) (w : World State) :
    Tx (World State) := do
  let w ← Hts.transfer "SubAuction" env.transferAnswer src dst amount w
  pure { w with state := w.state.record ⟨subJobId, src, dst, amount⟩ }

variable (this : Address) (env : Env)

/-- A transfer out of the contract, unless the amount is zero. -/
def pay (subJobId : ℕ) (recipient : Address) (amount : ℕ) (w : World State) : Tx (World State) :=
  if 0 < amount then transferGuard env subJobId this recipient amount w else pure w

/-- `createSubAuction`. -/
def createSubAuction (parentJobId : ℕ) (taskDescription requiredSpecialization : String)
    (paymentAmount slaDurationSeconds auctionDurationSeconds : ℕ) (w : World State) :
    Tx (World State) := do
  whenNotPaused w.state
  require (w.state.mainAuction ≠ 0) "SubAuction: main auction is zero"
  require (0 < taskDescription.utf8ByteSize) "SubAuction: empty task description"
  require (0 < requiredSpecialization.utf8ByteSize) "SubAuction: empty specialization"
  require (MIN_PAYMENT ≤ paymentAmount) "SubAuction: payment below minimum"
  require (0 < slaDurationSeconds) "SubAuction: SLA duration is zero"
  require (0 < auctionDurationSeconds) "SubAuction: auction duration is zero"
  let active ← readActiveAgent env env.sender w.state
  require (active = true) "SubAuction: inactive requester"
  let winningAgents ← orRevert .callFailed (env.winningAgents parentJobId)
  require (env.sender ∈ winningAgents) "SubAuction: requester not parent winner"
  let subJobId := w.state.nextSubJobId
  let w ← transferGuard env subJobId env.sender this paymentAmount w
  let nextSubJobId ← checkedAdd 256 subJobId 1
  let slaDeadline ← checkedAdd 256 env.timestamp slaDurationSeconds
  let auctionDeadline ← checkedAdd 256 env.timestamp auctionDurationSeconds
  let s := { w.state with nextSubJobId := nextSubJobId }
  let s := s.setSubJob subJobId { s.subJobs subJobId with
    subJobId := subJobId
    parentJobId := parentJobId
    requester := env.sender
    taskDescription := taskDescription
    requiredSpecialization := requiredSpecialization
    paymentAmount := paymentAmount
    slaDeadline := slaDeadline
    auctionDeadline := auctionDeadline
    status := .opened
    createdAt := env.timestamp }
  pure { w with state := s.emit (.subAuctionCreated subJobId parentJobId env.sender taskDescription
    requiredSpecialization paymentAmount slaDeadline auctionDeadline) }

/-- `submitSubBid`. -/
def submitSubBid (subJobId proposedPrice estimatedTime collateralAmount : ℕ) (w : World State) :
    Tx (World State) := do
  whenNotPaused w.state
  let subJob ← getExistingSubJob subJobId w.state
  require (subJob.status = .opened) "SubAuction: sub-job not open"
  require (env.timestamp < subJob.auctionDeadline) "SubAuction: auction expired"
  let active ← readActiveAgent env env.sender w.state
  require (active = true) "SubAuction: inactive bidder"
  require (env.sender ≠ subJob.requester) "SubAuction: requester cannot bid"
  require (proposedPrice ≤ subJob.paymentAmount) "SubAuction: proposed price exceeds payment"
  require (MIN_SUB_COLLATERAL ≤ collateralAmount) "SubAuction: collateral below minimum"
  require (w.state.hasAgentSubBid subJobId env.sender = false) "SubAuction: bid already submitted"
  let w ← transferGuard env subJobId env.sender this collateralAmount w
  let s := w.state.setSubBids subJobId (w.state.subBids subJobId ++ [{
    agent := env.sender
    subJobId := subJobId
    proposedPrice := proposedPrice
    estimatedTime := estimatedTime
    collateralLocked := collateralAmount
    status := .pending
    timestamp := env.timestamp }])
  let hasBid := Function.update (s.hasAgentSubBid subJobId) env.sender true
  let s := { s with hasAgentSubBid := Function.update s.hasAgentSubBid subJobId hasBid }
  pure { w with state := s.emit (.subBidSubmitted subJobId env.sender proposedPrice collateralAmount
    estimatedTime) }

/-- The body of the loop of `selectSubContractor`, for a bid that is not the selected one. -/
def demoteBid (subJobId : ℕ) (bid : SubBid) (w : World State) : Tx (SubBid × World State) :=
  match bid.status with
  | .pending | .rejected => do
    let w ← pay this env subJobId bid.agent bid.collateralLocked w
    pure ({ bid with collateralLocked := 0, status := .refunded }, w)
  | .accepted => pure ({ bid with status := .rejected }, w)
  | .refunded => pure (bid, w)

/-- The loop of `selectSubContractor`, from the index `i` on. -/
def demoteBids (subJobId bidIndex : ℕ) : ℕ → List SubBid → World State → Tx (List SubBid × World State)
  | _, [], w => pure ([], w)
  | i, bid :: bids, w => do
    let (bid, w) ← (if i = bidIndex then pure (bid, w) else demoteBid this env subJobId bid w)
    let (bids, w) ← demoteBids subJobId bidIndex (i + 1) bids w
    pure (bid :: bids, w)

/-- `selectSubContractor`. A status `BIDDING_CLOSED` that it writes is overwritten by its end. -/
def selectSubContractor (subJobId bidIndex : ℕ) (w : World State) : Tx (World State) := do
  whenNotPaused w.state
  let subJob ← getExistingSubJob subJobId w.state
  require (env.sender = subJob.requester) "SubAuction: caller is not requester"
  require (subJob.status = .opened ∨ subJob.status = .biddingClosed)
    "SubAuction: invalid sub-job status"
  let subJob := if subJob.status = .opened ∧ subJob.auctionDeadline ≤ env.timestamp then
    { subJob with status := .biddingClosed } else subJob
  let bids := w.state.subBids subJobId
  require (0 < bids.length) "SubAuction: no bids"
  let selected ← orRevert (.require "SubAuction: invalid bid index") bids[bidIndex]?
  require (selected.status = .pending) "SubAuction: bid not pending"
  let agreedPrice := selected.proposedPrice
  let bids := bids.set bidIndex { selected with status := .accepted }
  let (bids, w) ← demoteBids this env subJobId bidIndex 0 bids w
  let discount := subJob.paymentAmount - agreedPrice
  let w ← pay this env subJobId subJob.requester discount w
  let s := w.state.setSubBids subJobId bids
  let s := s.setSubJob subJobId { subJob with
    paymentAmount := min agreedPrice subJob.paymentAmount
    selectedAgent := selected.agent
    status := .inProgress }
  pure { w with state := s.emit (.subContractorSelected subJobId selected.agent agreedPrice) }

/-- The part that the settlement functions share: the selected bid is found, its collateral released, and
the bid marked as refunded. -/
def takeSelectedBid (subJobId : ℕ) (subJob : SubJob) (s : State) : Tx (SubBid × State) := do
  let (found, bidIndex) := findSelectedBidIndex (s.subBids subJobId) subJob.selectedAgent
  require (found = true) "SubAuction: selected bid not found"
  let selectedBid := (s.subBids subJobId).getD bidIndex SubBid.zero
  pure (selectedBid, s.setSubBids subJobId ((s.subBids subJobId).set bidIndex { selectedBid with
    collateralLocked := 0
    status := .refunded }))

/-- `acceptResult`. -/
def acceptResult (subJobId : ℕ) (w : World State) : Tx (World State) := do
  whenNotPaused w.state
  let subJob ← getExistingSubJob subJobId w.state
  require (env.sender = subJob.requester) "SubAuction: caller is not requester"
  require (subJob.status = .delivered) "SubAuction: result not delivered"
  let (selectedBid, s) ← takeSelectedBid subJobId subJob w.state
  let payment := selectedBid.proposedPrice
  let collateral := selectedBid.collateralLocked
  let w ← pay this env subJobId subJob.selectedAgent payment { w with state := s }
  let w ← pay this env subJobId subJob.selectedAgent collateral w
  let s := w.state.setSubJob subJobId { subJob with
    status := .accepted
    completedAt := env.timestamp }
  let s ← updateReputation env subJob.selectedAgent 200 s
  pure { w with state := s.emit (.resultAccepted subJobId payment) }

/-- The two ways in which `resolveDispute` settles, up to the time of completion. -/
def settleDispute (subJobId : ℕ) (inFavorOfContractor : Bool) (subJob : SubJob)
    (payment collateral : ℕ) (w : World State) : Tx (SubJobStatus × World State) :=
  if inFavorOfContractor = true then do
    let w ← pay this env subJobId subJob.selectedAgent payment w
    let w ← pay this env subJobId subJob.selectedAgent collateral w
    pure (.accepted, w)
  else do
    let w ← pay this env subJobId subJob.requester payment w
    let product ← checkedMul 256 collateral 50
    let slashed := product / 100
    let refund ← checkedSub collateral slashed
    let w ← pay this env subJobId w.state.treasury slashed w
    let w ← pay this env subJobId subJob.selectedAgent refund w
    pure (.cancelled, w)

/-- `resolveDispute`. -/
def resolveDispute (subJobId : ℕ) (inFavorOfContractor : Bool) (w : World State) :
    Tx (World State) := do
  whenNotPaused w.state
  let subJob ← getExistingSubJob subJobId w.state
  let orchestrator ← getMainAuctionOrchestrator env w.state
  require (env.sender = orchestrator) "SubAuction: caller is not orchestrator"
  require (subJob.status = .disputed) "SubAuction: sub-job not disputed"
  let (selectedBid, s) ← takeSelectedBid subJobId subJob w.state
  let (status, w) ← settleDispute this env subJobId inFavorOfContractor subJob selectedBid.proposedPrice
    selectedBid.collateralLocked { w with state := s }
  let s := w.state.setSubJob subJobId { subJob with status := status, completedAt := env.timestamp }
  pure { w with state := s.emit (.disputeResolved subJobId inFavorOfContractor) }

/-- `claimExpired`. -/
def claimExpired (subJobId : ℕ) (w : World State) : Tx (World State) := do
  whenNotPaused w.state
  let subJob ← getExistingSubJob subJobId w.state
  require (subJob.status = .inProgress) "SubAuction: sub-job not in progress"
  require (subJob.slaDeadline < env.timestamp) "SubAuction: SLA not expired"
  require (subJob.resultHash = 0) "SubAuction: already delivered"
  let (selectedBid, s) ← takeSelectedBid subJobId subJob w.state
  let payment := selectedBid.proposedPrice
  let collateral := selectedBid.collateralLocked
  let product ← checkedMul 256 collateral 25
  let slashedAmount := product / 100
  let refundAmount ← checkedSub collateral slashedAmount
  let w ← pay this env subJobId subJob.requester payment { w with state := s }
  let w ← pay this env subJobId w.state.treasury slashedAmount w
  let w ← pay this env subJobId subJob.selectedAgent refundAmount w
  let s := w.state.setSubJob subJobId { subJob with
    status := .expired
    completedAt := env.timestamp }
  let s ← updateReputation env subJob.selectedAgent (-300) s
  pure { w with state := s.emit (.subJobExpired subJobId subJob.selectedAgent slashedAmount) }

/-- The body of the loop of `cancelSubAuction`. -/
def refundBid (subJobId : ℕ) (bid : SubBid) (w : World State) : Tx (SubBid × World State) :=
  if bid.status = .pending ∨ bid.status = .accepted then do
    let w ← pay this env subJobId bid.agent bid.collateralLocked w
    pure ({ bid with collateralLocked := 0, status := .refunded }, w)
  else pure (bid, w)

/-- The loop of `cancelSubAuction`. -/
def refundBids (subJobId : ℕ) : List SubBid → World State → Tx (List SubBid × World State)
  | [], w => pure ([], w)
  | bid :: bids, w => do
    let (bid, w) ← refundBid this env subJobId bid w
    let (bids, w) ← refundBids subJobId bids w
    pure (bid :: bids, w)

/-- `cancelSubAuction`. -/
def cancelSubAuction (subJobId : ℕ) (w : World State) : Tx (World State) := do
  whenNotPaused w.state
  let subJob ← getExistingSubJob subJobId w.state
  require (env.sender = subJob.requester) "SubAuction: caller is not requester"
  require (subJob.status = .opened) "SubAuction: only open jobs cancellable"
  let (bids, w) ← refundBids this env subJobId (w.state.subBids subJobId) w
  let w ← pay this env subJobId subJob.requester subJob.paymentAmount w
  let s := w.state.setSubBids subJobId bids
  let s := s.setSubJob subJobId { subJob with status := .cancelled, completedAt := env.timestamp }
  pure { w with state := s.emit (.subAuctionCancelled subJobId) }

/-- `associateGuardToken`. -/
def associateGuardToken (s : State) : Tx State := do
  require (env.associateAnswer = Hts.HTS_SUCCESS ∨
    env.associateAnswer = Hts.HTS_TOKEN_ALREADY_ASSOCIATED) "SubAuction: token association failed"
  pure s

/-- The state-changing external functions with their arguments. -/
inductive Call
  | createSubAuction (parentJobId : UInt 256) (taskDescription requiredSpecialization : String)
      (paymentAmount slaDurationSeconds auctionDurationSeconds : UInt 256)
  | submitSubBid (subJobId proposedPrice estimatedTime collateralAmount : UInt 256)
  | selectSubContractor (subJobId bidIndex : UInt 256)
  | deliverResult (subJobId resultHash : UInt 256)
  | acceptResult (subJobId : UInt 256)
  | disputeResult (subJobId : UInt 256) (reason : String)
  | resolveDispute (subJobId : UInt 256) (inFavorOfContractor : Bool)
  | claimExpired (subJobId : UInt 256)
  | cancelSubAuction (subJobId : UInt 256)
  | setMainAuction (mainAuction : Address)
  | setAgentRegistry (agentRegistry : Address)
  | setTreasury (treasury : Address)
  | associateGuardToken
  | pause
  | unpause
  | transferOwnership (newOwner : Address)
  | renounceOwnership

/-- One call. No function is payable, so that a message with HBAR is refused. -/
def exec (c : Call) (w : World State) : Tx (World State) :=
  if env.value ≠ 0 then .error .callFailed
  else match c with
  | .createSubAuction parentJobId taskDescription requiredSpecialization paymentAmount
      slaDurationSeconds auctionDurationSeconds =>
    createSubAuction this env parentJobId taskDescription requiredSpecialization paymentAmount
      slaDurationSeconds auctionDurationSeconds w
  | .submitSubBid subJobId proposedPrice estimatedTime collateralAmount =>
    submitSubBid this env subJobId proposedPrice estimatedTime collateralAmount w
  | .selectSubContractor subJobId bidIndex => selectSubContractor this env subJobId bidIndex w
  | .deliverResult subJobId resultHash => onState (deliverResult env subJobId resultHash) w
  | .acceptResult subJobId => acceptResult this env subJobId w
  | .disputeResult subJobId reason => onState (disputeResult env subJobId reason) w
  | .resolveDispute subJobId inFavorOfContractor =>
    resolveDispute this env subJobId inFavorOfContractor w
  | .claimExpired subJobId => claimExpired this env subJobId w
  | .cancelSubAuction subJobId => cancelSubAuction this env subJobId w
  | .setMainAuction mainAuction => onState (setMainAuction env mainAuction) w
  | .setAgentRegistry agentRegistry => onState (setAgentRegistry env agentRegistry) w
  | .setTreasury treasury => onState (setTreasury env treasury) w
  | .associateGuardToken => onState (associateGuardToken env) w
  | .pause => onState (pause env) w
  | .unpause => onState (unpause env) w
  | .transferOwnership newOwner => onState (transferOwnership env newOwner) w
  | .renounceOwnership => onState (renounceOwnership env) w

/-- The storage that the constructor leaves. -/
def State.fresh (deployer guardToken agentRegistry mainAuction treasury : Address) : State where
  owner := deployer
  paused := false
  guardToken := guardToken
  agentRegistry := agentRegistry
  mainAuction := mainAuction
  treasury := treasury
  nextSubJobId := 1
  subJobs := fun _ => SubJob.zero
  subBids := fun _ => []
  hasAgentSubBid := fun _ _ => false
  log := []
  updates := []
  transfers := []

/-- The constructor, called by `deployer`. -/
def deploy (deployer guardToken agentRegistry mainAuction treasury : Address) : Tx State := do
  modifier (deployer ≠ 0) "OwnableInvalidOwner"
  require (guardToken ≠ 0) "SubAuction: guard token is zero"
  require (agentRegistry ≠ 0) "SubAuction: registry is zero"
  require (treasury ≠ 0) "SubAuction: treasury is zero"
  pure (State.fresh deployer guardToken agentRegistry mainAuction treasury)

/-- The contract, at the address `this`. -/
def contract : Contract State Env Call where
  this := this
  fresh s := ∃ deployer guardToken agentRegistry mainAuction treasury,
    deploy deployer guardToken agentRegistry mainAuction treasury = .ok s
  msg := Env.toMsg
  exec := exec this

variable {this} in
theorem fresh_state_eq {s : State} (h : (contract this).fresh s) :
    ∃ deployer guardToken agentRegistry mainAuction treasury,
      s = State.fresh deployer guardToken agentRegistry mainAuction treasury := by
  obtain ⟨deployer, guardToken, agentRegistry, mainAuction, treasury, h⟩ := h
  simp only [deploy, bind_eq_ok, modifier_eq_ok, require_eq_ok, pure_eq_ok] at h
  obtain ⟨_, -, _, -, _, -, _, -, h⟩ := h
  exact ⟨deployer, guardToken, agentRegistry, mainAuction, treasury, h.symm⟩

/-! ## A sample sub-auction

The contract at address 1, deployed by 9, with GUARD at 7, the agent registry at 6, the main auction at 4,
its orchestrator 5 and the treasury 10. The agents 2 and 3 hold tokens, and every outside condition is met. -/

/-- The sub-auction at its deployment. -/
def sampleWorld : World State where
  state := State.fresh 9 7 6 4 10
  token := ((Ledger.single 2 (2 * 10^12) TokenLedger.two_trillion_lt).transfer 2 3 (10^12)).getD
    (Ledger.single 2 0 TokenLedger.zero_lt)
  now := 0

/-- A call without HBAR, of which everything outside succeeds. -/
def sampleEnv (sender : Address) (timestamp : ℕ) : Env where
  sender := sender
  value := 0
  timestamp := timestamp
  hasCode := fun _ => true
  isActiveAgent := fun _ => true
  takesUpdate := true
  winningAgents := fun _ => some [2]
  orchestrator := some 5
  transferAnswer := Hts.HTS_SUCCESS
  associateAnswer := Hts.HTS_SUCCESS

theorem sample_run (calls : List (Env × Call)) (hs : (contract 1).Scheduled 0 calls)
    (h : ((contract 1).execAll calls sampleWorld).isOk = true) :
    ∃ ts w, (contract 1).execAll calls sampleWorld = .ok w ∧ (contract 1).system.Run ts w ∧
      (contract 1).trace calls sampleWorld = .ok ts :=
  Contract.exists_run ⟨9, 7, 6, 4, 10, rfl⟩ hs h

theorem closed_sample_run (calls : List (Env × Call)) (hs : (contract 1).Scheduled 0 calls)
    (h : ((contract 1).execAll calls sampleWorld).isOk = true) :
    ∃ ts w, (contract 1).execAll calls sampleWorld = .ok w ∧ (contract 1).closed.Run ts w :=
  Contract.exists_closed_run ⟨9, 7, 6, 4, 10, rfl⟩ rfl hs h

end AuditGuard.SubAuction
