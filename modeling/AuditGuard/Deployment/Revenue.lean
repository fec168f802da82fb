import AuditGuard.AuditAuction.System
import AuditGuard.DataMarketplace.System
import AuditGuard.DelegatedStaking.System
import AuditGuard.PaymentSettlement.System
import AuditGuard.StakingManager.System
import AuditGuard.SubAuction.System
import AuditGuard.Treasury.Books

/-!
# The treasury and the contracts that pay to it

Six contracts send fees and slashes to the treasury, with transfers of the token to its address. The treasury books
what comes in by `receiveFee`, which takes a fee from an authorized source, and the sources are these six. None of
them has a call to `receiveFee`, and HTS calls nobody: a transfer leaves the treasury's storage alone.

The seven contracts share the ledgers and the time, and see what other contracts answer in the environment. The
world carries one number that no code reads, the sum of what the six have sent to the treasury.
-/

namespace AuditGuard.Deployment

open Evm TransitionSystem

/-- The contracts that pay to the treasury. -/
inductive Payer
  | auditAuction
  | subAuction
  | stakingManager
  | paymentSettlement
  | dataMarketplace
  | delegatedStaking
deriving DecidableEq

/-- Where everything is deployed. -/
structure Wiring where
  guardToken : Address
  treasury : Address
  payer : Payer → Address
  /-- The `guardToken` of the `HbarPool` at an address, if there is one. -/
  hbarPools : Address → Option Address
  payer_ne : ∀ p, payer p ≠ treasury
  not_pool : hbarPools (payer .delegatedStaking) = none

/-- The storages of the seven contracts, the ledgers, the time of the latest block, and what the six contracts
have sent to the treasury. -/
structure Chain where
  treasury : Treasury.State
  auditAuction : AuditAuction.State
  subAuction : SubAuction.State
  stakingManager : StakingManager.State
  paymentSettlement : PaymentSettlement.State
  dataMarketplace : DataMarketplace.State
  delegatedStaking : DelegatedStaking.State
  /-- The ledger of each token, by the token's address. -/
  tokens : Address → TokenLedger
  hbar : TokenLedger
  now : ℕ
  sent : ℕ

/-- A call of the treasury or of a contract that pays to it, with its environment. -/
inductive RevenueCall
  | treasury (env : Treasury.Env) (c : Treasury.Call)
  | auditAuction (env : AuditAuction.Env) (c : AuditAuction.Call)
  | subAuction (env : SubAuction.Env) (c : SubAuction.Call)
  | stakingManager (env : StakingManager.Env) (c : StakingManager.Call)
  | paymentSettlement (env : PaymentSettlement.Env) (c : PaymentSettlement.Call)
  | dataMarketplace (env : DataMarketplace.Env) (c : DataMarketplace.Call)
  | delegatedStaking (env : DelegatedStaking.Env) (c : DelegatedStaking.Call)

/-- The message of a call. -/
def RevenueCall.msg : RevenueCall → Msg
  | .treasury env _ => env.toMsg
  | .auditAuction env _ => env.toMsg
  | .subAuction env _ => env.toMsg
  | .stakingManager env _ => env.toMsg
  | .paymentSettlement env _ => env.toMsg
  | .dataMarketplace env _ => env.toMsg
  | .delegatedStaking env _ => env.toMsg

/-- The contract that is called, if it is one of the six. -/
def RevenueCall.payer : RevenueCall → Option Payer
  | .treasury _ _ => none
  | .auditAuction _ _ => some .auditAuction
  | .subAuction _ _ => some .subAuction
  | .stakingManager _ _ => some .stakingManager
  | .paymentSettlement _ _ => some .paymentSettlement
  | .dataMarketplace _ _ => some .dataMarketplace
  | .delegatedStaking _ _ => some .delegatedStaking

variable (A : Wiring)

/-- What the treasury has. -/
def Chain.treasuryBalance (x : Chain) : ℕ := (x.tokens A.guardToken).balance A.treasury

/-- The part of the chain that a contract with the storage `s` sees. -/
def Chain.seenBy {S : Type} (x : Chain) (s : S) : World S := ⟨s, x.tokens A.guardToken, x.now⟩

/-- The chain with another ledger of GUARD. -/
def Chain.setGuard (x : Chain) (guard : TokenLedger) : Chain :=
  { x with tokens := Function.update x.tokens A.guardToken guard }

/-- A call in the contract that it is made to. -/
def execRevenue : RevenueCall → Chain → Tx Chain
  | .treasury env c, x => do
    let w ← Treasury.exec A.treasury env c (x.seenBy A x.treasury)
    pure { x.setGuard A w.token with treasury := w.state }
  | .auditAuction env c, x => do
    let w ← AuditAuction.exec (A.payer .auditAuction) env c (x.seenBy A x.auditAuction)
    pure { x.setGuard A w.token with auditAuction := w.state }
  | .subAuction env c, x => do
    let w ← SubAuction.exec (A.payer .subAuction) env c (x.seenBy A x.subAuction)
    pure { x.setGuard A w.token with subAuction := w.state }
  | .stakingManager env c, x => do
    let w ← StakingManager.exec (A.payer .stakingManager) env c ⟨x.stakingManager, x.tokens A.guardToken⟩
    pure { x.setGuard A w.guard with stakingManager := w.state }
  | .paymentSettlement env c, x => do
    let w ← PaymentSettlement.exec (A.payer .paymentSettlement) env c (x.seenBy A x.paymentSettlement)
    pure { x.setGuard A w.token with paymentSettlement := w.state }
  | .dataMarketplace env c, x => do
    let w ← DataMarketplace.exec (A.payer .dataMarketplace) env c (x.seenBy A x.dataMarketplace)
    pure { x.setGuard A w.token with dataMarketplace := w.state }
  | .delegatedStaking env c, x => do
    let w ← DelegatedStaking.exec ⟨A.payer .delegatedStaking, A.hbarPools, A.not_pool⟩ env c
      ⟨x.delegatedStaking, x.tokens, x.hbar⟩
    pure { x with delegatedStaking := w.state, tokens := w.tokens, hbar := w.hbar }

/-- The time and the sum of what was sent, after a call. -/
def Chain.record (c : RevenueCall) (x y : Chain) : Chain :=
  { y with
    now := c.msg.timestamp
    sent := if c.payer = none then x.sent
      else x.sent + (y.treasuryBalance A - x.treasuryBalance A) }

/-- What a step is: a call, or what happens elsewhere. -/
inductive RevenueLabel
  | call (c : RevenueCall)
  | elsewhere (tokens : Address → TokenLedger) (hbar : TokenLedger) (now : ℕ)

/-- A call may be sent: not by address zero, not by the contract itself and not before the latest block. The
treasury calls none of the six, and none of the six calls the treasury. -/
def Sends (now : ℕ) (c : RevenueCall) : Prop :=
  (c.msg.sender ≠ A.treasury ∧ c.msg.sender ≠ 0 ∧ now ≤ c.msg.timestamp) ∧
    match c.payer with
    | none => ∀ p, c.msg.sender ≠ A.payer p
    | some p => c.msg.sender ≠ A.payer p

/-- The steps: a call that does not revert, and what happens elsewhere, which takes no tokens from the seven
contracts. -/
inductive RevenueStep : Chain → RevenueLabel → Chain → Prop
  | call {c : RevenueCall} {x y : Chain} (hs : Sends A x.now c) (h : execRevenue A c x = .ok y) :
      RevenueStep x (.call c) (Chain.record A c x y)
  | elsewhere {x : Chain} {tokens : Address → TokenLedger} {hbar : TokenLedger} {now : ℕ}
      (htreasury : ∀ t, (x.tokens t).balance A.treasury ≤ (tokens t).balance A.treasury)
      (hpayer : ∀ p t, (x.tokens t).balance (A.payer p) ≤ (tokens t).balance (A.payer p))
      (ht : x.now ≤ now) :
      RevenueStep x (.elsewhere tokens hbar now) { x with tokens := tokens, hbar := hbar, now := now }

/-- The contracts are wired: the treasury is the treasury of the six, its authorized sources are the six, and all
work with the same GUARD. -/
structure Wired (x : Chain) : Prop where
  auditAuction : x.auditAuction.treasury = A.treasury ∧ x.auditAuction.guardToken = A.guardToken
  subAuction : x.subAuction.treasury = A.treasury ∧ x.subAuction.guardToken = A.guardToken
  stakingManager : x.stakingManager.treasury = A.treasury ∧ x.stakingManager.guardToken = A.guardToken
  paymentSettlement : x.paymentSettlement.treasury = A.treasury ∧ x.paymentSettlement.guardToken = A.guardToken
  dataMarketplace : x.dataMarketplace.treasury = A.treasury ∧ x.dataMarketplace.guardToken = A.guardToken
  delegatedStaking : x.delegatedStaking.treasury = A.treasury ∧ x.delegatedStaking.guardToken = A.guardToken
  treasury : x.treasury.guardToken = A.guardToken
  sources : ∀ a, x.treasury.authorizedSources a = true ↔ ∃ p, a = A.payer p

/-- The contracts were just deployed, and the treasury's owner has configured it: no fee has come, and the treasury
holds nothing, since a token arrives after its association only. -/
structure RevenueInit (x : Chain) : Prop where
  treasury : ∃ s, (Treasury.contract A.treasury).fresh s ∧ Treasury.books x.treasury = Treasury.books s
  auditAuction : (AuditAuction.contract (A.payer .auditAuction)).fresh x.auditAuction
  subAuction : (SubAuction.contract (A.payer .subAuction)).fresh x.subAuction
  stakingManager : StakingManager.Deployed ⟨x.stakingManager, x.tokens A.guardToken⟩
  paymentSettlement : (PaymentSettlement.contract (A.payer .paymentSettlement)).fresh x.paymentSettlement
  dataMarketplace : (DataMarketplace.contract (A.payer .dataMarketplace)).fresh x.dataMarketplace
  delegatedStaking : DelegatedStaking.Deployed ⟨x.delegatedStaking, x.tokens, x.hbar⟩
  balance : x.treasuryBalance A = 0
  sent : x.sent = 0

/-- The seven contracts, wired from the start on, under all calls by all callers that leave them so. -/
def revenueSystem : TransitionSystem Chain RevenueLabel where
  init x := RevenueInit A x ∧ Wired A x
  step x l y := RevenueStep A x l y ∧ Wired A y

/-- The treasury sees its revenue: it has booked what the six contracts sent, it holds what it has booked as
pending, and what it has not paid out yet it will pay out with the next distribution. -/
structure Seen (x : Chain) : Prop where
  revenue : x.treasury.totalRevenue = x.sent
  balance : x.treasuryBalance A = x.treasury.pendingBalance
  paid : x.treasury.totalDistributed + x.treasury.pendingBalance = x.sent

/-- The step brings the treasury nothing: no call of the six contracts sends it GUARD, and nobody else sends it
GUARD directly. -/
def Quiet (x : Chain) : RevenueLabel → Prop
  | .call c => c.payer ≠ none → ∀ y, execRevenue A c x = .ok y → y.treasuryBalance A = x.treasuryBalance A
  | .elsewhere tokens _ _ => (tokens A.guardToken).balance A.treasury = x.treasuryBalance A

variable {A} {x y : Chain} {c : RevenueCall} {l : RevenueLabel}
  {ts : List (Transition Chain RevenueLabel)}

/-! ## What the treasury books -/

theorem receiveFee_authorized {this : Address} {env : Treasury.Env} {source : Treasury.FeeSource}
    {amount jobId : UInt 256} {w w' : World Treasury.State}
    (h : Treasury.exec this env (.receiveFee source amount jobId) w = .ok w') :
    w.state.authorizedSources env.sender = true := by
  unfold Treasury.exec at h
  split_ifs at h
  simp only [Treasury.receiveFee, bind_eq_ok, require_eq_ok] at h
  obtain ⟨_, hauthorized, -⟩ := h
  exact hauthorized

theorem distribute_pending {this : Address} {env : Treasury.Env} {w w' : World Treasury.State}
    (h : Treasury.exec this env .distribute w = .ok w') : 0 < w.state.pendingBalance := by
  unfold Treasury.exec at h
  split_ifs at h
  simp only [Treasury.distribute, bind_eq_ok, require_eq_ok] at h
  obtain ⟨_, hpending, -⟩ := h
  exact hpending

/-- Nothing was booked. -/
structure Unbooked (s : Treasury.State) : Prop where
  revenue : s.totalRevenue = 0
  distributed : s.totalDistributed = 0
  pending : s.pendingBalance = 0

theorem exec_idle {this : Address} {env : Treasury.Env} {c : Treasury.Call} {w w' : World Treasury.State}
    (h : Treasury.exec this env c w = .ok w') (hsource : w.state.authorizedSources env.sender ≠ true)
    (hw : Unbooked w.state) :
    Unbooked w'.state ∧ (w.token.balance this = 0 → w'.token.balance this = 0) := by
  obtain ⟨hrevenue, hdistributed, hpending⟩ := hw
  have hidle : ∀ b' token', Treasury.Effect this env w.state.distributionConfig (Treasury.books w.state)
      w.token c b' token' →
      (b'.totalRevenue = 0 ∧ b'.totalDistributed = 0 ∧ b'.pendingBalance = 0) ∧
      (w.token.balance this = 0 → token'.balance this = 0) := by
    intro b' token' heffect
    cases heffect with
    | receive => exact absurd (receiveFee_authorized h) hsource
    | distribute => exact absurd (distribute_pending h) (by omega)
    | @withdraw recipient amount _ htoken =>
      refine ⟨⟨hrevenue, hdistributed, by simp [Treasury.books, hpending]⟩, fun hzero => ?_⟩
      -- The amount is nothing, since the treasury has nothing.
      have hamount : amount.val ≤ 0 := hzero ▸ (Ledger.transfer_eq_some htoken).1
      have hmoved := Ledger.transfer_balance htoken this
      split_ifs at hmoved <;> omega
    | administer => exact ⟨⟨hrevenue, hdistributed, hpending⟩, id⟩
  obtain ⟨⟨hrevenue, hdistributed, hpending⟩, hmoved⟩ := hidle _ _ (Treasury.exec_effect h)
  exact ⟨⟨hrevenue, hdistributed, hpending⟩, hmoved⟩

theorem execRevenue_treasury (h : execRevenue A c x = .ok y) (hc : c.payer ≠ none) :
    y.treasury = x.treasury := by
  cases c with
  | treasury env c => exact absurd rfl hc
  | auditAuction | subAuction | stakingManager | paymentSettlement | dataMarketplace | delegatedStaking =>
    simp only [execRevenue, bind_eq_ok, pure_eq_ok] at h
    obtain ⟨w, -, rfl⟩ := h
    rfl

theorem execRevenue_eq_ok {env : Treasury.Env} {c : Treasury.Call} :
    execRevenue A (.treasury env c) x = .ok y ↔
      ∃ w, Treasury.exec A.treasury env c (x.seenBy A x.treasury) = .ok w ∧
        { x.setGuard A w.token with treasury := w.state } = y := by
  simp only [execRevenue, bind_eq_ok, pure_eq_ok]

theorem Sends.not_source {env : Treasury.Env} {c : Treasury.Call} (hs : Sends A x.now (.treasury env c))
    (hx : Wired A x) : x.treasury.authorizedSources env.sender ≠ true := by
  intro hsource
  obtain ⟨p, hp⟩ := (hx.sources _).mp hsource
  exact hs.2 p hp

theorem reachable_wired (hx : (revenueSystem A).Reachable x) : Wired A x := by
  cases hx with
  | init h => exact h.2
  | step _ h => exact h.2

theorem reachable_unbooked (hx : (revenueSystem A).Reachable x) : Unbooked x.treasury := by
  refine hx.induct (I := fun x => Unbooked x.treasury) ?_ ?_
  · rintro x ⟨hinit, -⟩
    obtain ⟨s, ⟨deployer, guardToken, pool, reserve, burn, hs⟩, hbooks⟩ := hinit.treasury
    simp only [Treasury.deploy, bind_eq_ok, pure_eq_ok] at hs
    obtain ⟨_, -, _, -, _, -, _, -, _, -, rfl⟩ := hs
    simp only [Treasury.books, Treasury.Books.mk.injEq] at hbooks
    obtain ⟨hrevenue, hdistributed, hpending, -⟩ := hbooks
    exact ⟨hrevenue, hdistributed, hpending⟩
  rintro x l y hx ih ⟨hstep, -⟩
  cases hstep with
  | elsewhere htreasury hpayer ht => exact ih
  | @call c _ y hs h =>
    cases hc : c.payer with
    | some p =>
      have hsame := execRevenue_treasury h (by simp [hc])
      exact hsame ▸ ih
    | none =>
      cases c with
      | treasury env c =>
        obtain ⟨w, hexec, rfl⟩ := execRevenue_eq_ok.mp h
        exact (exec_idle hexec (hs.not_source (reachable_wired hx)) ih).1
      | auditAuction | subAuction | stakingManager | paymentSettlement | dataMarketplace |
        delegatedStaking => cases hc

/-! ## What the treasury sees -/

theorem seen_iff (hx : (revenueSystem A).Reachable x) :
    Seen A x ↔ x.sent = 0 ∧ x.treasuryBalance A = 0 := by
  obtain ⟨hrevenue, hdistributed, hpending⟩ := reachable_unbooked hx
  constructor
  · rintro ⟨hsent, hbalance, -⟩
    omega
  · rintro ⟨hsent, hbalance⟩
    constructor <;> omega

/-- The ledger that is put in place is that of GUARD. -/
@[simp]
theorem setGuard_treasuryBalance (guard : TokenLedger) :
    (x.setGuard A guard).treasuryBalance A = guard.balance A.treasury := by
  simp [Chain.setGuard, Chain.treasuryBalance]

theorem seen_step (hx : (revenueSystem A).Reachable x) (hseen : Seen A x)
    (hstep : (revenueSystem A).step x l y) : Seen A y ↔ Quiet A x l := by
  rw [seen_iff (hx.step hstep)]
  obtain ⟨hsent, hzero⟩ := (seen_iff hx).mp hseen
  obtain ⟨hstep, -⟩ := hstep
  cases hstep with
  | elsewhere htreasury hpayer ht =>
    unfold Quiet
    rw [hzero]
    exact and_iff_right hsent
  | @call c _ y hs h =>
    cases hc : c.payer with
    | some p =>
      have hquiet : Quiet A x (.call c) ↔ y.treasuryBalance A = 0 := by
        simp only [Quiet, h, hc, hzero, ne_eq, reduceCtorEq, not_false_eq_true, forall_const,
          Except.ok.injEq, forall_eq']
      have hrecord : (Chain.record A c x y).sent = y.treasuryBalance A := by
        simp only [Chain.record, hc, hsent, hzero, reduceCtorEq, if_false, Nat.zero_add, Nat.sub_zero]
      rw [hquiet, hrecord]
      exact and_iff_left_of_imp id
    | none =>
      refine iff_of_true ⟨?_, ?_⟩ fun hne => absurd hc hne
      · simp only [Chain.record, hc, if_true, hsent]
      cases c with
      | treasury env c =>
        obtain ⟨w, hexec, rfl⟩ := execRevenue_eq_ok.mp h
        have hidle := exec_idle hexec (hs.not_source (reachable_wired hx)) (reachable_unbooked hx)
        exact (setGuard_treasuryBalance w.token).trans (hidle.2 hzero)
      | auditAuction | subAuction | stakingManager | paymentSettlement | dataMarketplace |
        delegatedStaking => cases hc

/-- The treasury sees its revenue throughout a run exactly if no step of the run brings it any. -/
theorem revenue_seen_iff (hr : (revenueSystem A).Run ts x) :
    Throughout (Seen A) ts x ↔ ∀ tr ∈ ts, Quiet A tr.src tr.label := by
  refine hr.forall_iff (fun x hinit => ?_) fun x l y hx hseen hstep => seen_step hx hseen hstep
  exact (seen_iff (.init hinit)).mpr ⟨hinit.1.sent, hinit.1.balance⟩

/-! ## A sale with a fee -/

/-- Calls one after the other. -/
def execRevenueAll (A : Wiring) (calls : List RevenueCall) (x : Chain) : Tx Chain :=
  calls.foldlM (fun x c => do
    let y ← execRevenue A c x
    pure (Chain.record A c x y)) x

theorem marketplace_wired {env : DataMarketplace.Env} {c : DataMarketplace.Call}
    (h : execRevenue A (.dataMarketplace env c) x = .ok y) (hx : Wired A x)
    (htreasury : y.dataMarketplace.treasury = A.treasury)
    (htoken : y.dataMarketplace.guardToken = A.guardToken) :
    Wired A (Chain.record A (.dataMarketplace env c) x y) := by
  simp only [execRevenue, bind_eq_ok, pure_eq_ok] at h
  obtain ⟨w, -, rfl⟩ := h
  exact { hx with dataMarketplace := ⟨htreasury, htoken⟩ }

theorem not_pool_none : (none : Option Address) = none := rfl

/-- The marketplace at 1 and the other contracts, with GUARD at 7 and the treasury at 10. -/
def revenueWiring : Wiring where
  guardToken := 7
  treasury := 10
  payer
    | .dataMarketplace => 1
    | .auditAuction => 21
    | .subAuction => 22
    | .stakingManager => 23
    | .paymentSettlement => 24
    | .delegatedStaking => 25
  hbarPools := fun _ => none
  payer_ne p := by cases p <;> decide
  not_pool := not_pool_none

/-- The sources of the sample treasury. -/
def isPayer (a : Address) : Bool :=
  [1, 21, 22, 23, 24, 25].any fun p : Address => p = a

/-- The contracts, all deployed by 9 and wired. -/
def revenueChain : Chain where
  treasury := { Treasury.State.fresh 9 7 11 12 13 with authorizedSources := isPayer }
  auditAuction := AuditAuction.State.fresh 9 7 6 8 10
  subAuction := SubAuction.State.fresh 9 7 6 21 10
  stakingManager := StakingManager.State.fresh 9 7 6 10
  paymentSettlement := PaymentSettlement.State.fresh 9 7 6 21 22 10 8
  dataMarketplace := DataMarketplace.State.fresh 9 7 6 10
  delegatedStaking := DelegatedStaking.State.fresh 9 7 10
  tokens := fun _ => DataMarketplace.sampleWorld.token
  hbar := Ledger.single 2 0 TokenLedger.zero_lt
  now := 0
  sent := 0

theorem revenueChain_wired : Wired revenueWiring revenueChain where
  auditAuction := ⟨rfl, rfl⟩
  subAuction := ⟨rfl, rfl⟩
  stakingManager := ⟨rfl, rfl⟩
  paymentSettlement := ⟨rfl, rfl⟩
  dataMarketplace := ⟨rfl, rfl⟩
  delegatedStaking := ⟨rfl, rfl⟩
  treasury := rfl
  sources a := by
    simp only [revenueChain, isPayer, List.any_cons, List.any_nil, Bool.or_false, Bool.or_eq_true,
      decide_eq_true_eq, eq_comm (b := a)]
    constructor
    · rintro (h | h | h | h | h | h)
      · exact ⟨.dataMarketplace, h⟩
      · exact ⟨.auditAuction, h⟩
      · exact ⟨.subAuction, h⟩
      · exact ⟨.stakingManager, h⟩
      · exact ⟨.paymentSettlement, h⟩
      · exact ⟨.delegatedStaking, h⟩
    · rintro ⟨p, rfl⟩
      cases p <;> simp [revenueWiring]

theorem revenueChain_init : (revenueSystem revenueWiring).init revenueChain := by
  refine ⟨?_, revenueChain_wired⟩
  exact {
    treasury := ⟨_, ⟨9, 7, 11, 12, 13, rfl⟩, rfl⟩
    auditAuction := ⟨9, 7, 6, 8, 10, rfl⟩
    subAuction := ⟨9, 7, 6, 21, 10, rfl⟩
    stakingManager := ⟨9, 7, 6, 10, rfl⟩
    paymentSettlement := ⟨9, 7, 6, 21, 22, 10, 8, rfl⟩
    dataMarketplace := ⟨9, 7, 6, 10, rfl⟩
    delegatedStaking := ⟨9, 7, 10, 22, rfl⟩
    balance := by decide +kernel
    sent := rfl }

/-- The agent 2 offers data for ten GUARD. -/
def listingCall : RevenueCall := .dataMarketplace (DataMarketplace.sampleEnv 2 0)
  (.createListing 1 "feed" "all findings" .threatIntel .oneTime (10 * 10^8) 0 1 2 0)

/-- The agent 3 buys it. -/
def purchaseCall : RevenueCall := .dataMarketplace (DataMarketplace.sampleEnv 3 1) (.purchaseData 1)

theorem sale_run : ∃ ts x, (revenueSystem revenueWiring).Run ts x ∧ x.sent = 3 * 10^7 ∧
    x.treasuryBalance revenueWiring = 3 * 10^7 := by
  obtain ⟨y, hlisting⟩ := exists_eq_ok (x := execRevenue revenueWiring listingCall revenueChain)
    (by decide +kernel)
  obtain ⟨z, hpurchase⟩ := exists_eq_ok (x := execRevenueAll revenueWiring [listingCall, purchaseCall]
    revenueChain) (by decide +kernel)
  have hsent := read_ok hpurchase (fun x => (x.sent, x.treasuryBalance revenueWiring))
    (b := (3 * 10^7, 3 * 10^7)) (by decide +kernel)
  have hkept := read_ok hpurchase (fun x => (x.dataMarketplace.treasury, x.dataMarketplace.guardToken))
    (b := (10, 7)) (by decide +kernel)
  have hkept' := read_ok hlisting (fun x => (x.dataMarketplace.treasury, x.dataMarketplace.guardToken))
    (b := (10, 7)) (by decide +kernel)
  simp only [execRevenueAll, List.foldlM_cons, List.foldlM_nil, hlisting, bind_eq_ok, pure_eq_ok,
    ok_bind] at hpurchase
  obtain ⟨_, rfl, _, ⟨w, hbuy, rfl⟩, rfl⟩ := hpurchase
  obtain ⟨htreasury, htoken⟩ := Prod.ext_iff.mp hkept
  obtain ⟨htreasury', htoken'⟩ := Prod.ext_iff.mp hkept'
  have hwired := marketplace_wired hlisting revenueChain_wired htreasury' htoken'
  have hwired' := marketplace_wired hbuy hwired htreasury htoken
  -- The agents 2 and 3 send the calls, one after the other.
  have hlists : Sends revenueWiring 0 listingCall :=
    ⟨by decide, show (2 : Address) ≠ 1 by decide⟩
  have hbuys : Sends revenueWiring 0 purchaseCall :=
    ⟨by decide, show (3 : Address) ≠ 1 by decide⟩
  have hrun := Run.init revenueChain_init
  exact ⟨_, _, (hrun.step ⟨.call hlists hlisting, hwired⟩).step ⟨.call hbuys hbuy, hwired'⟩,
    Prod.ext_iff.mp hsent⟩

/-- The equivalence on the run with the sale, where both sides fail. -/
theorem revenue_seen_iff_sale : ∃ ts x, (revenueSystem revenueWiring).Run ts x ∧
    (Throughout (Seen revenueWiring) ts x ↔ ∀ tr ∈ ts, Quiet revenueWiring tr.src tr.label) ∧
    ¬ Throughout (Seen revenueWiring) ts x := by
  obtain ⟨ts, x, hr, hsent, -⟩ := sale_run
  refine ⟨ts, x, hr, revenue_seen_iff hr, fun hseen => ?_⟩
  have hnothing := ((seen_iff hr.reachable).mp hseen.2).1
  omega

/-- The fee of the sale is with the treasury, which has booked nothing, and will not pay it out. -/
theorem fee_unseen : ∃ x, (revenueSystem revenueWiring).Reachable x ∧ x.sent = 3 * 10^7 ∧
    x.treasuryBalance revenueWiring = 3 * 10^7 ∧ x.treasury.totalRevenue = 0 ∧
    x.treasury.pendingBalance = 0 ∧ ¬ Seen revenueWiring x := by
  obtain ⟨ts, x, hr, hsent, hbalance⟩ := sale_run
  have hunbooked := reachable_unbooked hr.reachable
  refine ⟨x, hr.reachable, hsent, hbalance, hunbooked.revenue, hunbooked.pending, fun hseen => ?_⟩
  have hnothing := ((seen_iff hr.reachable).mp hseen).1
  omega

end AuditGuard.Deployment
