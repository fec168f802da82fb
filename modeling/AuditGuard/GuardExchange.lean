import AuditGuard.Library.ConstantProduct
import AuditGuard.Library.Contract

/-!
# GuardExchange: storage, calls and runs

`GuardExchange.sol`, a pool that exchanges HBAR and GUARD, under all calls by all callers. It moves GUARD through the
token's ERC20 functions and HBAR with the stipend of `transfer`, which no recipient can call back with. Between calls
the rest of the chain moves both currencies as it likes, except out of the contract.

## GuardExchange: trading keeps the pool whole

A trade is a constant-product exchange with a fee of 30 basis points.
-/

namespace AuditGuard.GuardExchange

section

open Evm

/-- The contract's events. -/
inductive Event
  | liquidityAdded (hbarAdded guardAdded hbarReserve guardReserve : ℕ)
  | liquidityRemoved (hbarRemoved guardRemoved hbarReserve guardReserve : ℕ)
  | swap (sender : Address) (hbarIn guardIn hbarOut guardOut : ℕ)
deriving DecidableEq

/-- The contract's storage, with the log of its events. -/
structure State where
  owner : Address
  guardToken : Address
  hbarReserve : ℕ
  guardReserve : ℕ
  /-- The events emitted so far, oldest first. -/
  log : List Event

/-- Appends an event to the log. -/
@[simps -fullyApplied]
def State.emit (s : State) (e : Event) : State := { s with log := s.log ++ [e] }

/-- The contract's storage, with the ledgers of HBAR and of GUARD. -/
structure World where
  state : State
  hbar : TokenLedger
  guard : TokenLedger

/-- What a call reads from outside the contract: its sender and value, whether the token takes its transfer
(an association, an allowance or a pause is the token's business), and whether the recipient takes HBAR. -/
structure Env where
  sender : Address
  value : ℕ
  tokenAccepts : Bool
  recipientPayable : Bool

/-- The fee, in basis points. -/
def FEE_BPS : ℕ := 30

/-- A whole, in basis points. -/
def BPS : ℕ := 10000

/-- `getAmountOut`. -/
def getAmountOut (amountIn reserveIn reserveOut : ℕ) : Tx ℕ := do
  require (0 < amountIn) "GuardExchange: zero amount in"
  require (0 < reserveIn ∧ 0 < reserveOut) "GuardExchange: invalid reserves"
  let amountInWithFee ← checkedMul 256 amountIn (BPS - FEE_BPS)
  let numerator ← checkedMul 256 amountInWithFee reserveOut
  let whole ← checkedMul 256 reserveIn BPS
  let denominator ← checkedAdd 256 whole amountInWithFee
  pure (numerator / denominator)

/-- `getAmountIn`. -/
def getAmountIn (amountOut reserveIn reserveOut : ℕ) : Tx ℕ := do
  require (amountOut < reserveOut) "GuardExchange: amount out too large"
  require (0 < reserveIn ∧ 0 < reserveOut) "GuardExchange: invalid reserves"
  let product ← checkedMul 256 reserveIn amountOut
  let numerator ← checkedMul 256 product BPS
  let rest ← checkedSub reserveOut amountOut
  let denominator ← checkedMul 256 rest (BPS - FEE_BPS)
  checkedAdd 256 (numerator / denominator) 1

/-- The modifier `onlyOwner`. -/
def onlyOwner (env : Env) (s : State) : Tx Unit :=
  modifier (env.sender = s.owner) "OwnableUnauthorizedAccount"

/-- A transfer of GUARD, which reverts with the message if the token refuses it. -/
def moveGuard (env : Env) (message : String) (src dst : Address) (amount : ℕ) (w : World) : Tx World := do
  require (env.tokenAccepts = true) message
  let guard ← orRevert (.require message) (w.guard.transfer src dst amount)
  pure { w with guard := guard }

/-- A transfer of HBAR out of the contract at `this`. -/
def sendHbar (this : Address) (env : Env) (recipient : Address) (amount : ℕ) (w : World) : Tx World := do
  let hbar ← orRevert .callFailed
    (if env.recipientPayable = true then w.hbar.transfer this recipient amount else none)
  pure { w with hbar := hbar }

variable (this : Address) (env : Env)

/-- The value of a message to a payable function, which arrives first. -/
def receiveValue (w : World) : Tx World := do
  let hbar ← orRevert .callFailed (w.hbar.transfer env.sender this env.value)
  pure { w with hbar := hbar }

/-- A function that is not payable refuses a message with HBAR. -/
def nonPayable : Tx Unit := if env.value ≠ 0 then .error .callFailed else pure ()

/-- `addLiquidity`. -/
def addLiquidity (guardAmount : ℕ) (w : World) : Tx World := do
  let w ← receiveValue this env w
  onlyOwner env w.state
  require (0 < env.value) "GuardExchange: zero hbar"
  require (0 < guardAmount) "GuardExchange: zero guard"
  let w ← moveGuard env "GuardExchange: guard transferFrom failed" env.sender this guardAmount w
  let hbarReserve ← checkedAdd 256 w.state.hbarReserve env.value
  let guardReserve ← checkedAdd 256 w.state.guardReserve guardAmount
  let s := { w.state with hbarReserve := hbarReserve, guardReserve := guardReserve }
  pure { w with state := s.emit (.liquidityAdded env.value guardAmount hbarReserve guardReserve) }

/-- `removeLiquidity`. -/
def removeLiquidity (hbarAmount guardAmount : ℕ) (w : World) : Tx World := do
  nonPayable env
  onlyOwner env w.state
  require (hbarAmount ≤ w.state.hbarReserve) "GuardExchange: hbar exceeds reserve"
  require (guardAmount ≤ w.state.guardReserve) "GuardExchange: guard exceeds reserve"
  let hbarReserve ← checkedSub w.state.hbarReserve hbarAmount
  let guardReserve ← checkedSub w.state.guardReserve guardAmount
  let s := { w.state with hbarReserve := hbarReserve, guardReserve := guardReserve }
  let w ← sendHbar this env s.owner hbarAmount { w with state := s }
  let w ← moveGuard env "GuardExchange: guard transfer failed" this s.owner guardAmount w
  pure { w with state := w.state.emit (.liquidityRemoved hbarAmount guardAmount hbarReserve guardReserve) }

/-- `buyGuard`. -/
def buyGuard (minGuardOut : ℕ) (w : World) : Tx World := do
  let w ← receiveValue this env w
  require (0 < env.value) "GuardExchange: zero hbar in"
  require (0 < w.state.hbarReserve ∧ 0 < w.state.guardReserve) "GuardExchange: pool empty"
  let guardOut ← getAmountOut env.value w.state.hbarReserve w.state.guardReserve
  require (minGuardOut ≤ guardOut) "GuardExchange: slippage"
  require (guardOut < w.state.guardReserve) "GuardExchange: insufficient liquidity"
  let hbarReserve ← checkedAdd 256 w.state.hbarReserve env.value
  let guardReserve ← checkedSub w.state.guardReserve guardOut
  let s := { w.state with hbarReserve := hbarReserve, guardReserve := guardReserve }
  let w ← moveGuard env "GuardExchange: guard transfer failed" this env.sender guardOut
    { w with state := s }
  pure { w with state := w.state.emit (.swap env.sender env.value 0 0 guardOut) }

/-- `sellGuard`. -/
def sellGuard (guardIn minHbarOut : ℕ) (w : World) : Tx World := do
  nonPayable env
  require (0 < guardIn) "GuardExchange: zero guard in"
  require (0 < w.state.hbarReserve ∧ 0 < w.state.guardReserve) "GuardExchange: pool empty"
  let hbarOut ← getAmountOut guardIn w.state.guardReserve w.state.hbarReserve
  require (minHbarOut ≤ hbarOut) "GuardExchange: slippage"
  require (hbarOut < w.state.hbarReserve) "GuardExchange: insufficient liquidity"
  let w ← moveGuard env "GuardExchange: guard transferFrom failed" env.sender this guardIn w
  let guardReserve ← checkedAdd 256 w.state.guardReserve guardIn
  let hbarReserve ← checkedSub w.state.hbarReserve hbarOut
  let s := { w.state with hbarReserve := hbarReserve, guardReserve := guardReserve }
  let w ← sendHbar this env env.sender hbarOut { w with state := s }
  pure { w with state := w.state.emit (.swap env.sender 0 guardIn hbarOut 0) }

/-- `transferOwnership`. -/
def transferOwnership (newOwner : Address) (w : World) : Tx World := do
  nonPayable env
  onlyOwner env w.state
  modifier (newOwner ≠ 0) "OwnableInvalidOwner"
  pure { w with state := { w.state with owner := newOwner } }

/-- `renounceOwnership`. -/
def renounceOwnership (w : World) : Tx World := do
  nonPayable env
  onlyOwner env w.state
  pure { w with state := { w.state with owner := 0 } }

/-- The state-changing external functions with their arguments. -/
inductive Call
  | addLiquidity (guardAmount : UInt 256)
  | removeLiquidity (hbarAmount guardAmount : UInt 256)
  | buyGuard (minGuardOut : UInt 256)
  | sellGuard (guardIn minHbarOut : UInt 256)
  | transferOwnership (newOwner : Address)
  | renounceOwnership
deriving DecidableEq

/-- One call. -/
def exec (c : Call) (w : World) : Tx World :=
  match c with
  | .addLiquidity guardAmount => addLiquidity this env guardAmount w
  | .removeLiquidity hbarAmount guardAmount => removeLiquidity this env hbarAmount guardAmount w
  | .buyGuard minGuardOut => buyGuard this env minGuardOut w
  | .sellGuard guardIn minHbarOut => sellGuard this env guardIn minHbarOut w
  | .transferOwnership newOwner => transferOwnership env newOwner w
  | .renounceOwnership => renounceOwnership env w

/-- What a step is: a call with its environment, or what happens elsewhere. -/
inductive Label
  | call (env : Env) (c : Call)
  | elsewhere (hbar guard : TokenLedger)

/-- The steps: a call that does not revert, by an account other than the contract itself, and what happens
elsewhere, which takes nothing from the contract. -/
inductive Step : World → Label → World → Prop
  | call {env : Env} {c : Call} {w w' : World} (hs : env.sender ≠ this)
      (h : exec this env c w = .ok w') : Step w (.call env c) w'
  | elsewhere {w : World} {hbar guard : TokenLedger} (hhbar : w.hbar.balance this ≤ hbar.balance this)
      (hguard : w.guard.balance this ≤ guard.balance this) :
      Step w (.elsewhere hbar guard) { w with hbar := hbar, guard := guard }

/-- The storage that the constructor leaves. -/
def State.fresh (deployer guardToken : Address) : State where
  owner := deployer
  guardToken := guardToken
  hbarReserve := 0
  guardReserve := 0
  log := []

/-- The constructor, called by `deployer`, with what HTS answers to the association. -/
def deploy (deployer guardToken : Address) (associateAnswer : ℤ) : Tx State := do
  modifier (deployer ≠ 0) "OwnableInvalidOwner"
  require (guardToken ≠ 0) "GuardExchange: guard token is zero"
  require (associateAnswer = 22) "GuardExchange: HTS association failed"
  pure (State.fresh deployer guardToken)

/-- The contract at the address `this`, from its deployment on, under all calls by all callers. -/
def system : TransitionSystem World Label where
  init w := ∃ deployer guardToken answer, deploy deployer guardToken answer = .ok w.state
  step := Step this

end

section

open Evm TransitionSystem ConstantProduct

/-- The product of the reserves. -/
def State.product (s : State) : ℕ := s.hbarReserve * s.guardReserve

/-- Both reserves hold something. -/
def State.Stocked (s : State) : Prop := 0 < s.hbarReserve ∧ 0 < s.guardReserve

/-- The contract at `this` has at least its reserves. -/
structure Backed (this : Address) (w : World) : Prop where
  hbar : w.state.hbarReserve ≤ w.hbar.balance this
  guard : w.state.guardReserve ≤ w.guard.balance this

/-- The calls with which the owner changes the liquidity. -/
def Call.ChangesLiquidity : Call → Prop
  | .addLiquidity _ | .removeLiquidity _ _ => True
  | _ => False

/-- The trades. -/
def Call.Trades : Call → Prop
  | .buyGuard _ | .sellGuard _ _ => True
  | _ => False

/-- The step changes the liquidity. -/
def Label.ChangesLiquidity : Label → Prop
  | .call _ c => c.ChangesLiquidity
  | .elsewhere _ _ => False

/-- The step is a trade by `trader`. -/
def Label.TradeBy (trader : Address) : Label → Prop
  | .call env c => env.sender = trader ∧ c.Trades
  | .elsewhere _ _ => False

/-- What a trade does: the sender gives one of the currencies to the pool and gets an output of the other. -/
inductive Swap (this : Address) (env : Env) (w w' : World) : Prop
  | buy (hstocked : w.state.Stocked)
      (hin : w'.state.hbarReserve = w.state.hbarReserve + env.value)
      (hout : w'.state.guardReserve = w.state.guardReserve -
        amountOut 9970 10000 env.value w.state.hbarReserve w.state.guardReserve)
      (hhbar : w.hbar.transfer env.sender this env.value = some w'.hbar)
      (hguard : w.guard.transfer this env.sender
        (amountOut 9970 10000 env.value w.state.hbarReserve w.state.guardReserve) = some w'.guard)
  | sell {guardIn : ℕ} (hstocked : w.state.Stocked)
      (hin : w'.state.guardReserve = w.state.guardReserve + guardIn)
      (hout : w'.state.hbarReserve = w.state.hbarReserve -
        amountOut 9970 10000 guardIn w.state.guardReserve w.state.hbarReserve)
      (hguard : w.guard.transfer env.sender this guardIn = some w'.guard)
      (hhbar : w.hbar.transfer this env.sender
        (amountOut 9970 10000 guardIn w.state.guardReserve w.state.hbarReserve) = some w'.hbar)

variable {this : Address} {env : Env} {w w' : World} {c : Call} {l : Label} {ls : List Label}

/-! ## What a call does -/

theorem getAmountOut_ok {amountIn reserveIn reserveOut out : ℕ}
    (h : getAmountOut amountIn reserveIn reserveOut = .ok out) :
    0 < reserveIn ∧ 0 < reserveOut ∧ out = amountOut 9970 10000 amountIn reserveIn reserveOut := by
  simp only [getAmountOut, bind_eq_ok, require_eq_ok, checkedMul_eq_ok, checkedAdd_eq_ok, pure_eq_ok] at h
  obtain ⟨_, -, _, ⟨hin, hout⟩, _, ⟨-, rfl⟩, _, ⟨-, rfl⟩, _, ⟨-, rfl⟩, _, ⟨-, rfl⟩, rfl⟩ := h
  exact ⟨hin, hout, rfl⟩

theorem getAmountOut_lt {amountIn reserveIn reserveOut out : ℕ}
    (h : getAmountOut amountIn reserveIn reserveOut = .ok out) : out < reserveOut := by
  obtain ⟨hin, hout, rfl⟩ := getAmountOut_ok h
  exact amountOut_lt (by norm_num) hin hout

theorem getAmountIn_ok {amountOut reserveIn reserveOut x : ℕ}
    (h : getAmountIn amountOut reserveIn reserveOut = .ok x) :
    amountOut < reserveOut ∧ 0 < reserveIn ∧ x = amountIn 9970 10000 amountOut reserveIn reserveOut := by
  simp only [getAmountIn, bind_eq_ok, require_eq_ok, checkedMul_eq_ok, checkedAdd_eq_ok, checkedSub_eq_ok] at h
  obtain ⟨_, hlt, _, ⟨hin, -⟩, _, ⟨-, rfl⟩, _, ⟨-, rfl⟩, _, ⟨-, rfl⟩, _, ⟨-, rfl⟩, -, rfl⟩ := h
  exact ⟨hlt, hin, rfl⟩

theorem getAmountOut_cases {amountIn reserveIn reserveOut : ℕ} (hx : 0 < amountIn) (hin : 0 < reserveIn)
    (hout : 0 < reserveOut) :
    getAmountOut amountIn reserveIn reserveOut = .error .overflow ∨
      getAmountOut amountIn reserveIn reserveOut = .ok (amountOut 9970 10000 amountIn reserveIn reserveOut) := by
  cases h : getAmountOut amountIn reserveIn reserveOut with
  | error e =>
    refine .inl (congrArg Except.error ?_)
    simp only [getAmountOut, require_of hx, require_of (And.intro hin hout), bind_eq_error, checkedMul_eq_error,
      checkedAdd_eq_error, pure_ne_error] at h
    grind
  | ok out => exact .inr (congrArg Except.ok (getAmountOut_ok h).2.2)

theorem getAmountIn_cases {amountOut reserveIn reserveOut : ℕ} (hin : 0 < reserveIn) (hlt : amountOut < reserveOut) :
    getAmountIn amountOut reserveIn reserveOut = .error .overflow ∨
      getAmountIn amountOut reserveIn reserveOut = .ok (amountIn 9970 10000 amountOut reserveIn reserveOut) := by
  cases h : getAmountIn amountOut reserveIn reserveOut with
  | error e =>
    refine .inl (congrArg Except.error ?_)
    have hreserves : 0 < reserveIn ∧ 0 < reserveOut := ⟨hin, by omega⟩
    simp only [getAmountIn, require_of hlt, require_of hreserves, checkedSub_of_le hlt.le, bind_eq_error,
      checkedMul_eq_error, checkedAdd_eq_error] at h
    grind
  | ok x => exact .inr (congrArg Except.ok (getAmountIn_ok h).2.2)

/-- The quotes invert: an input that is quoted for an output is enough for it, and at most one more than any other
that is. An output grows with the input and leaves a part of the reserve. Only overflows are excepted. -/
theorem quotes_invert {reserveIn reserveOut : ℕ} (hin : 0 < reserveIn) (hout : 0 < reserveOut) :
    (∀ out, 0 < out → out < reserveOut → getAmountIn out reserveIn reserveOut = .error .overflow ∨
      ∃ x, getAmountIn out reserveIn reserveOut = .ok x ∧ 0 < x ∧
        (getAmountOut x reserveIn reserveOut = .error .overflow ∨
          ∃ out', getAmountOut x reserveIn reserveOut = .ok out' ∧ out ≤ out') ∧
        ∀ y out', 0 < y → getAmountOut y reserveIn reserveOut = .ok out' → out ≤ out' → x ≤ y + 1) ∧
    ∀ x y out out', x ≤ y → getAmountOut x reserveIn reserveOut = .ok out →
      getAmountOut y reserveIn reserveOut = .ok out' → out ≤ out' ∧ out' < reserveOut := by
  constructor
  · intro out _ hlt
    refine (getAmountIn_cases hin hlt).imp_right fun hx => ⟨_, hx, Nat.succ_pos _, ?_, ?_⟩
    · refine (getAmountOut_cases (Nat.succ_pos _) hin hout).imp_right fun hquote => ⟨_, hquote, ?_⟩
      exact le_amountOut_amountIn (by norm_num) (by norm_num) hin hlt
    · intro y out' _ hquote hle
      rw [(getAmountOut_ok hquote).2.2] at hle
      exact amountIn_le (by norm_num) (by norm_num) hin hlt hle
  · intro x y out out' hxy hsmaller hlarger
    refine ⟨?_, getAmountOut_lt hlarger⟩
    rw [(getAmountOut_ok hsmaller).2.2, (getAmountOut_ok hlarger).2.2]
    exact amountOut_mono (by norm_num) hin hout hxy

/-- A pool of one million HBAR and two million GUARD. -/
theorem quotes_invert_sample : ∃ x, getAmountIn 1000 (10^14) (2 * 10^14) = .ok x ∧
    ∃ out, getAmountOut x (10^14) (2 * 10^14) = .ok out ∧ 1000 ≤ out := by
  obtain ⟨hinvert, -⟩ := quotes_invert (show (0 : ℕ) < 10^14 by norm_num) (show (0 : ℕ) < 2 * 10^14 by norm_num)
  rcases hinvert 1000 (by norm_num) (by norm_num) with hoverflow | ⟨x, hx, -, hquote, -⟩
  · exact absurd hoverflow (by decide +kernel)
  · refine ⟨x, hx, hquote.resolve_left ?_⟩
    obtain rfl := Except.ok.inj (hx.symm.trans (show getAmountIn 1000 (10^14) (2 * 10^14) = .ok 502 by decide +kernel))
    decide +kernel

theorem moveGuard_eq_ok {message : String} {src dst : Address} {amount : ℕ} :
    moveGuard env message src dst amount w = .ok w' ↔ env.tokenAccepts = true ∧
      ∃ guard, w.guard.transfer src dst amount = some guard ∧ { w with guard := guard } = w' := by
  simp only [moveGuard, bind_eq_ok, require_eq_ok, orRevert_eq_ok, pure_eq_ok, exists_const]

theorem moveGuard_eq_error {message : String} {src dst : Address} {amount : ℕ} {e : Revert}
    (h : moveGuard env message src dst amount w = .error e) : e = .require message := by
  simp only [moveGuard, bind_eq_error, require_eq_error, orRevert_eq_error, pure_ne_error, and_false,
    exists_false, or_false] at h
  rcases h with ⟨-, rfl⟩ | ⟨_, -, -, rfl⟩
  · rfl
  · rfl

theorem sendHbar_eq_ok {recipient : Address} {amount : ℕ} :
    sendHbar this env recipient amount w = .ok w' ↔ env.recipientPayable = true ∧
      ∃ hbar, w.hbar.transfer this recipient amount = some hbar ∧ { w with hbar := hbar } = w' := by
  simp only [sendHbar, bind_eq_ok, orRevert_eq_ok, pure_eq_ok]
  split_ifs with hpay
  · simp [hpay]
  · simp [hpay]

theorem sendHbar_eq_error {recipient : Address} {amount : ℕ} {e : Revert}
    (h : sendHbar this env recipient amount w = .error e) : e = .callFailed := by
  simp only [sendHbar, bind_eq_error, orRevert_eq_error, pure_ne_error, and_false, exists_false,
    or_false] at h
  exact h.2

theorem receiveValue_eq_ok :
    receiveValue this env w = .ok w' ↔
      ∃ hbar, w.hbar.transfer env.sender this env.value = some hbar ∧ { w with hbar := hbar } = w' := by
  simp only [receiveValue, bind_eq_ok, orRevert_eq_ok, pure_eq_ok]

theorem receiveValue_eq_error {e : Revert} (h : receiveValue this env w = .error e) : e = .callFailed := by
  simp only [receiveValue, bind_eq_error, orRevert_eq_error, pure_ne_error, and_false, exists_false,
    or_false] at h
  exact h.2

theorem buyGuard_swap {minGuardOut : ℕ} (h : buyGuard this env minGuardOut w = .ok w') :
    Swap this env w w' := by
  simp only [buyGuard, bind_eq_ok, receiveValue_eq_ok, require_eq_ok, checkedAdd_eq_ok, checkedSub_eq_ok,
    moveGuard_eq_ok, pure_eq_ok] at h
  obtain ⟨_, ⟨hbar, hhbar, rfl⟩, _, -, _, hstocked, guardOut, hamount, _, -, _, -, _, ⟨-, rfl⟩, _, ⟨-, rfl⟩,
    _, ⟨-, guard, hguard, rfl⟩, rfl⟩ := h
  obtain ⟨-, -, rfl⟩ := getAmountOut_ok hamount
  exact .buy hstocked rfl rfl hhbar hguard

theorem sellGuard_swap {guardIn minHbarOut : ℕ} (h : sellGuard this env guardIn minHbarOut w = .ok w') :
    Swap this env w w' := by
  simp only [sellGuard, bind_eq_ok, require_eq_ok, checkedAdd_eq_ok, checkedSub_eq_ok, moveGuard_eq_ok,
    sendHbar_eq_ok, pure_eq_ok] at h
  obtain ⟨_, -, _, -, _, hstocked, hbarOut, hamount, _, -, _, -, _, ⟨-, guard, hguard, rfl⟩, _, ⟨-, rfl⟩,
    _, ⟨-, rfl⟩, _, ⟨-, hbar, hhbar, rfl⟩, rfl⟩ := h
  obtain ⟨-, -, rfl⟩ := getAmountOut_ok hamount
  exact .sell hstocked rfl rfl hguard hhbar

theorem exec_swap (h : exec this env c w = .ok w') (hc : c.Trades) : Swap this env w w' := by
  cases c with
  | buyGuard minGuardOut => exact buyGuard_swap h
  | sellGuard guardIn minHbarOut => exact sellGuard_swap h
  | addLiquidity | removeLiquidity | transferOwnership | renounceOwnership => exact absurd hc id

theorem exec_administer (h : exec this env c w = .ok w') (hc : ¬ c.ChangesLiquidity) (hc' : ¬ c.Trades) :
    w'.state.hbarReserve = w.state.hbarReserve ∧ w'.state.guardReserve = w.state.guardReserve ∧
      w'.hbar = w.hbar ∧ w'.guard = w.guard := by
  cases c with
  | addLiquidity | removeLiquidity => exact absurd trivial hc
  | buyGuard | sellGuard => exact absurd trivial hc'
  | transferOwnership newOwner =>
    simp only [exec, transferOwnership, bind_eq_ok, pure_eq_ok] at h
    obtain ⟨_, -, _, -, _, -, rfl⟩ := h
    exact ⟨rfl, rfl, rfl, rfl⟩
  | renounceOwnership =>
    simp only [exec, renounceOwnership, bind_eq_ok, pure_eq_ok] at h
    obtain ⟨_, -, _, -, rfl⟩ := h
    exact ⟨rfl, rfl, rfl, rfl⟩

/-- What the checks on the output revert with. -/
def insufficientLiquidity : Revert := .require "GuardExchange: insufficient liquidity"

theorem moveGuard_ne_insufficient {message : String} {src dst : Address} {amount : ℕ}
    (hm : message ≠ "GuardExchange: insufficient liquidity") :
    moveGuard env message src dst amount w ≠ .error insufficientLiquidity := by
  intro h
  exact hm (Revert.require.inj (moveGuard_eq_error h)).symm

theorem nonPayable_ne_insufficient : nonPayable env ≠ .error insufficientLiquidity := by
  unfold nonPayable
  split_ifs <;> simp [insufficientLiquidity]

theorem receiveValue_ne_insufficient : receiveValue this env w ≠ .error insufficientLiquidity :=
  fun h => nomatch receiveValue_eq_error h

theorem sendHbar_ne_insufficient {recipient : Address} {amount : ℕ} :
    sendHbar this env recipient amount w ≠ .error insufficientLiquidity :=
  fun h => nomatch sendHbar_eq_error h

theorem getAmountOut_ne_insufficient {amountIn reserveIn reserveOut : ℕ} :
    getAmountOut amountIn reserveIn reserveOut ≠ .error insufficientLiquidity := by
  refine bind_ne_error (require_ne_error (by decide)) fun _ _ => ?_
  refine bind_ne_error (require_ne_error (by decide)) fun _ _ => ?_
  refine bind_ne_error (by simp [insufficientLiquidity]) fun _ _ => ?_
  refine bind_ne_error (by simp [insufficientLiquidity]) fun _ _ => ?_
  refine bind_ne_error (by simp [insufficientLiquidity]) fun _ _ => ?_
  refine bind_ne_error (by simp [insufficientLiquidity]) fun _ _ => ?_
  exact pure_ne_error

theorem buyGuard_ne_insufficient {minGuardOut : ℕ} :
    buyGuard this env minGuardOut w ≠ .error insufficientLiquidity := by
  refine bind_ne_error receiveValue_ne_insufficient fun w₁ _ => ?_
  refine bind_ne_error (require_ne_error (by decide)) fun _ _ => ?_
  refine bind_ne_error (require_ne_error (by decide)) fun _ _ => ?_
  refine bind_ne_error getAmountOut_ne_insufficient fun guardOut hamount => ?_
  refine bind_ne_error (require_ne_error (by decide)) fun _ _ => ?_
  -- The check at hand passes.
  rw [require_of (getAmountOut_lt hamount), ok_bind]
  refine bind_ne_error (by simp [insufficientLiquidity]) fun _ _ => ?_
  refine bind_ne_error (by simp [insufficientLiquidity]) fun _ _ => ?_
  refine bind_ne_error (moveGuard_ne_insufficient (by decide)) fun _ _ => ?_
  exact pure_ne_error

theorem sellGuard_ne_insufficient {guardIn minHbarOut : ℕ} :
    sellGuard this env guardIn minHbarOut w ≠ .error insufficientLiquidity := by
  refine bind_ne_error nonPayable_ne_insufficient fun _ _ => ?_
  refine bind_ne_error (require_ne_error (by decide)) fun _ _ => ?_
  refine bind_ne_error (require_ne_error (by decide)) fun _ _ => ?_
  refine bind_ne_error getAmountOut_ne_insufficient fun hbarOut hamount => ?_
  refine bind_ne_error (require_ne_error (by decide)) fun _ _ => ?_
  rw [require_of (getAmountOut_lt hamount), ok_bind]
  refine bind_ne_error (moveGuard_ne_insufficient (by decide)) fun _ _ => ?_
  refine bind_ne_error (by simp [insufficientLiquidity]) fun _ _ => ?_
  refine bind_ne_error (by simp [insufficientLiquidity]) fun _ _ => ?_
  refine bind_ne_error sendHbar_ne_insufficient fun _ _ => ?_
  exact pure_ne_error

/-! ## What the steps keep -/

theorem Swap.product_le (h : Swap this env w w') : w.state.product ≤ w'.state.product := by
  cases h with
  | buy hstocked hin hout _ _ =>
    unfold State.product
    rw [hin, hout]
    exact ConstantProduct.product_le (by norm_num) (by norm_num)
  | sell hstocked hin hout _ _ =>
    unfold State.product
    rw [hin, hout, Nat.mul_comm, Nat.mul_comm (_ - _)]
    exact ConstantProduct.product_le (by norm_num) (by norm_num)

theorem Swap.stocked (h : Swap this env w w') : w'.state.Stocked := by
  cases h with
  | buy hstocked hin hout _ _ =>
    have hlt : amountOut 9970 10000 env.value w.state.hbarReserve w.state.guardReserve <
        w.state.guardReserve := amountOut_lt (by norm_num) hstocked.1 hstocked.2
    unfold State.Stocked at *
    omega
  | @sell guardIn hstocked hin hout _ _ =>
    have hlt : amountOut 9970 10000 guardIn w.state.guardReserve w.state.hbarReserve <
        w.state.hbarReserve := amountOut_lt (by norm_num) hstocked.2 hstocked.1
    unfold State.Stocked at *
    omega

theorem Swap.backed (h : Swap this env w w') (hs : env.sender ≠ this) (hw : Backed this w) :
    Backed this w' := by
  obtain ⟨hbacked, gbacked⟩ := hw
  cases h with
  | buy hstocked hin hout hhbar hguard =>
    have hgot := Ledger.transfer_balance_dst hhbar hs
    have hgave := Ledger.transfer_balance_src hguard hs.symm
    constructor <;> omega
  | sell hstocked hin hout hguard hhbar =>
    have hgot := Ledger.transfer_balance_dst hguard hs
    have hgave := Ledger.transfer_balance_src hhbar hs.symm
    constructor <;> omega

theorem Swap.conserved (h : Swap this env w w') (hs : env.sender ≠ this) :
    w'.hbar.balance env.sender + w'.state.hbarReserve = w.hbar.balance env.sender + w.state.hbarReserve ∧
    w'.guard.balance env.sender + w'.state.guardReserve =
      w.guard.balance env.sender + w.state.guardReserve := by
  cases h with
  | buy hstocked hin hout hhbar hguard =>
    have hlt : amountOut 9970 10000 env.value w.state.hbarReserve w.state.guardReserve <
        w.state.guardReserve := amountOut_lt (by norm_num) hstocked.1 hstocked.2
    have hgave := Ledger.transfer_balance_src hhbar hs
    have hgot := Ledger.transfer_balance_dst hguard hs.symm
    constructor <;> omega
  | @sell guardIn hstocked hin hout hguard hhbar =>
    have hlt : amountOut 9970 10000 guardIn w.state.guardReserve w.state.hbarReserve <
        w.state.hbarReserve := amountOut_lt (by norm_num) hstocked.2 hstocked.1
    have hgave := Ledger.transfer_balance_src hguard hs
    have hgot := Ledger.transfer_balance_dst hhbar hs.symm
    constructor <;> omega

theorem addLiquidity_backed {guardAmount : ℕ} (h : addLiquidity this env guardAmount w = .ok w')
    (hs : env.sender ≠ this) (hw : Backed this w) : Backed this w' := by
  simp only [addLiquidity, bind_eq_ok, receiveValue_eq_ok, moveGuard_eq_ok, checkedAdd_eq_ok, pure_eq_ok] at h
  obtain ⟨_, ⟨hbar, hhbar, rfl⟩, _, -, _, -, _, -, _, ⟨-, guard, hguard, rfl⟩, _, ⟨-, rfl⟩, _, ⟨-, rfl⟩,
    rfl⟩ := h
  have hgot := Ledger.transfer_balance_dst hhbar hs
  have ggot := Ledger.transfer_balance_dst hguard hs
  obtain ⟨hbacked, gbacked⟩ := hw
  constructor
  · rw [State.emit_hbarReserve]
    dsimp only
    omega
  · rw [State.emit_guardReserve]
    dsimp only at *
    omega

theorem removeLiquidity_backed {hbarAmount guardAmount : ℕ}
    (h : removeLiquidity this env hbarAmount guardAmount w = .ok w') (hw : Backed this w) :
    Backed this w' := by
  simp only [removeLiquidity, bind_eq_ok, sendHbar_eq_ok, moveGuard_eq_ok, require_eq_ok, checkedSub_eq_ok,
    pure_eq_ok] at h
  obtain ⟨_, -, _, -, _, -, _, -, _, ⟨-, rfl⟩, _, ⟨-, rfl⟩, _, ⟨-, hbar, hhbar, rfl⟩, _,
    ⟨-, guard, hguard, rfl⟩, rfl⟩ := h
  have hgave := Ledger.transfer_src_le hhbar
  have ggave := Ledger.transfer_src_le hguard
  obtain ⟨hbacked, gbacked⟩ := hw
  constructor
  · rw [State.emit_hbarReserve]
    dsimp only
    omega
  · rw [State.emit_guardReserve]
    dsimp only at *
    omega

theorem Step.backed (h : Step this w l w') (hw : Backed this w) : Backed this w' := by
  cases h with
  | @call env c _ _ hs h =>
    by_cases hc : c.Trades
    · exact (exec_swap h hc).backed hs hw
    by_cases hc' : c.ChangesLiquidity
    · cases c with
      | addLiquidity guardAmount => exact addLiquidity_backed h hs hw
      | removeLiquidity hbarAmount guardAmount => exact removeLiquidity_backed h hw
      | buyGuard | sellGuard | transferOwnership | renounceOwnership => exact absurd hc' id
    · obtain ⟨hr, gr, hb, gb⟩ := exec_administer h hc' hc
      constructor
      · rw [hr, hb]
        exact hw.hbar
      · rw [gr, gb]
        exact hw.guard
  | elsewhere hhbar hguard => exact ⟨hw.hbar.trans hhbar, hw.guard.trans hguard⟩

/-- The reserves are backed in every reachable state. -/
theorem reachable_backed (hw : (system this).Reachable w) : Backed this w := by
  refine hw.induct (I := Backed this) (fun w hw => ?_) fun w l w' _ hI h => Step.backed h hI
  obtain ⟨deployer, guardToken, answer, h⟩ := hw
  simp only [deploy, bind_eq_ok, pure_eq_ok] at h
  obtain ⟨_, -, _, -, _, -, hfresh⟩ := h
  constructor
  · rw [← hfresh]
    exact Nat.zero_le _
  · rw [← hfresh]
    exact Nat.zero_le _

theorem Step.product_le (h : Step this w l w') (hl : ¬ l.ChangesLiquidity) :
    w.state.product ≤ w'.state.product ∧ (w.state.Stocked → w'.state.Stocked) := by
  cases h with
  | @call env c _ _ hs h =>
    by_cases hc : c.Trades
    · have hswap := exec_swap h hc
      exact ⟨hswap.product_le, fun _ => hswap.stocked⟩
    · obtain ⟨hr, gr, -, -⟩ := exec_administer h hl hc
      unfold State.product State.Stocked
      rw [hr, gr]
      exact ⟨le_rfl, id⟩
  | elsewhere hhbar hguard => exact ⟨le_rfl, id⟩

theorem Step.swap {trader : Address} (h : Step this w l w') (hl : l.TradeBy trader) :
    ∃ env, env.sender = trader ∧ trader ≠ this ∧ Swap this env w w' := by
  cases h with
  | @call env c _ _ hs h =>
    obtain ⟨rfl, hc⟩ := hl
    exact ⟨env, rfl, hs, exec_swap h hc⟩
  | elsewhere _ _ => exact absurd hl id

/-! ## What a sequence of steps keeps -/

/-- What `trader` and the pool have together of each currency. -/
def wealth (trader : Address) (w : World) : ℕ × ℕ :=
  (w.hbar.balance trader + w.state.hbarReserve, w.guard.balance trader + w.state.guardReserve)

theorem eq_of_not_stocked {trader : Address} (h : Path (Step this) w ls w')
    (hls : ∀ l ∈ ls, l.TradeBy trader) (hw : ¬ w.state.Stocked) : w' = w := by
  refine h.induct_mem (P := fun x => x = w) (fun x l y hl hx hstep => ?_) rfl
  subst hx
  obtain ⟨env, -, -, hswap⟩ := hstep.swap (hls l hl)
  cases hswap with
  | buy hstocked | sell hstocked => exact absurd hstocked hw

theorem wealth_eq {trader : Address} (h : Path (Step this) w ls w') (hls : ∀ l ∈ ls, l.TradeBy trader) :
    wealth trader w' = wealth trader w := by
  refine h.induct_mem (P := fun x => wealth trader x = wealth trader w) (fun x l y hl hx hstep => ?_) rfl
  obtain ⟨env, rfl, hs, hswap⟩ := hstep.swap (hls l hl)
  obtain ⟨hconserved, gconserved⟩ := hswap.conserved hs
  rw [← hx]
  exact Prod.ext hconserved gconserved

/-- What makes the pool safe along a sequence of steps from `w` to `w'`: the product does not fall and no
reserve runs out unless the owner changes the liquidity; the reserves are backed; no call reverts for want of
liquidity; and a trader that does all the steps does not end with as much of both currencies and more of one,
whatever product the pool is left with. -/
structure Safe (this : Address) (w : World) (ls : List Label) (w' : World) : Prop where
  product_le : (∀ l ∈ ls, ¬ l.ChangesLiquidity) → w.state.product ≤ w'.state.product
  stocked : (∀ l ∈ ls, ¬ l.ChangesLiquidity) → w.state.Stocked → w'.state.Stocked
  backed : Backed this w'
  sufficient : ∀ env c, exec this env c w' ≠ .error insufficientLiquidity
  no_gain : ∀ trader, (∀ l ∈ ls, l.TradeBy trader) →
    ¬ (w.hbar.balance trader ≤ w'.hbar.balance trader ∧ w.guard.balance trader ≤ w'.guard.balance trader ∧
      (w.hbar.balance trader < w'.hbar.balance trader ∨ w.guard.balance trader < w'.guard.balance trader))

theorem path_product_le (h : Path (Step this) w ls w') (hls : ∀ l ∈ ls, ¬ l.ChangesLiquidity) :
    w.state.product ≤ w'.state.product ∧ (w.state.Stocked → w'.state.Stocked) := by
  refine h.induct_mem (P := fun x => w.state.product ≤ x.state.product ∧ (w.state.Stocked → x.state.Stocked))
    (fun x l y hl hx hstep => ?_) ⟨le_rfl, id⟩
  obtain ⟨hle, hstocked⟩ := hstep.product_le (hls l hl)
  exact ⟨hx.1.trans hle, hstocked ∘ hx.2⟩

theorem Label.TradeBy.not_changesLiquidity {trader : Address} (h : l.TradeBy trader) :
    ¬ l.ChangesLiquidity := by
  cases l with
  | call env c => cases c <;> simp_all [Label.TradeBy, Label.ChangesLiquidity, Call.Trades, Call.ChangesLiquidity]
  | elsewhere hbar guard => exact id

theorem trades_no_gain {trader : Address} (h : Path (Step this) w ls w')
    (hls : ∀ l ∈ ls, l.TradeBy trader) :
    ¬ (w.hbar.balance trader ≤ w'.hbar.balance trader ∧ w.guard.balance trader ≤ w'.guard.balance trader ∧
      (w.hbar.balance trader < w'.hbar.balance trader ∨
        w.guard.balance trader < w'.guard.balance trader)) := by
  by_cases hstocked : w.state.Stocked
  · obtain ⟨hhbar, hguard⟩ := Prod.ext_iff.mp (wealth_eq h hls)
    have hproduct := (path_product_le h fun l hl => (hls l hl).not_changesLiquidity).1
    exact ConstantProduct.no_gain hstocked.1 hstocked.2 hhbar hguard hproduct
  · rw [eq_of_not_stocked h hls hstocked]
    simp

theorem exec_ne_insufficient : exec this env c w ≠ .error insufficientLiquidity := by
  cases c with
  | addLiquidity guardAmount =>
    refine bind_ne_error receiveValue_ne_insufficient fun w₁ _ => ?_
    refine bind_ne_error (by simp [onlyOwner, insufficientLiquidity]) fun _ _ => ?_
    refine bind_ne_error (require_ne_error (by decide)) fun _ _ => ?_
    refine bind_ne_error (require_ne_error (by decide)) fun _ _ => ?_
    refine bind_ne_error (moveGuard_ne_insufficient (by decide)) fun _ _ => ?_
    refine bind_ne_error (by simp [insufficientLiquidity]) fun _ _ => ?_
    refine bind_ne_error (by simp [insufficientLiquidity]) fun _ _ => ?_
    exact pure_ne_error
  | removeLiquidity hbarAmount guardAmount =>
    refine bind_ne_error nonPayable_ne_insufficient fun _ _ => ?_
    refine bind_ne_error (by simp [onlyOwner, insufficientLiquidity]) fun _ _ => ?_
    refine bind_ne_error (require_ne_error (by decide)) fun _ _ => ?_
    refine bind_ne_error (require_ne_error (by decide)) fun _ _ => ?_
    refine bind_ne_error (by simp [insufficientLiquidity]) fun _ _ => ?_
    refine bind_ne_error (by simp [insufficientLiquidity]) fun _ _ => ?_
    refine bind_ne_error sendHbar_ne_insufficient fun _ _ => ?_
    refine bind_ne_error (moveGuard_ne_insufficient (by decide)) fun _ _ => ?_
    exact pure_ne_error
  | buyGuard minGuardOut => exact buyGuard_ne_insufficient
  | sellGuard guardIn minHbarOut => exact sellGuard_ne_insufficient
  | transferOwnership newOwner =>
    refine bind_ne_error nonPayable_ne_insufficient fun _ _ => ?_
    refine bind_ne_error (by simp [onlyOwner, insufficientLiquidity]) fun _ _ => ?_
    refine bind_ne_error (by simp [insufficientLiquidity]) fun _ _ => ?_
    exact pure_ne_error
  | renounceOwnership =>
    refine bind_ne_error nonPayable_ne_insufficient fun _ _ => ?_
    refine bind_ne_error (by simp [onlyOwner, insufficientLiquidity]) fun _ _ => ?_
    exact pure_ne_error

/-- The pool is safe along every sequence of steps from every reachable state. -/
theorem pool_safe (hw : (system this).Reachable w) (h : Path (Step this) w ls w') : Safe this w ls w' where
  product_le hls := (path_product_le h hls).1
  stocked hls := (path_product_le h hls).2
  backed := h.induct (P := Backed this) (fun _ _ _ hx hstep => hstep.backed hx) (reachable_backed hw)
  sufficient _ _ := exec_ne_insufficient
  no_gain _ hls := trades_no_gain h hls

/-! ## A sample -/

/-- A call by `sender` with `value`, whose transfers go through. -/
def Env.sample (sender : Address) (value : ℕ) : Env := ⟨sender, value, true, true⟩

/-- The calls of a list, one after the other. -/
def execAll (this : Address) (calls : List (Env × Call)) (w : World) : Tx World :=
  calls.foldlM (fun w call => exec this call.1 call.2 w) w

theorem path_execAll {calls : List (Env × Call)} (hs : ∀ call ∈ calls, call.1.sender ≠ this)
    (h : execAll this calls w = .ok w') :
    Path (Step this) w (calls.map fun call => .call call.1 call.2) w' := by
  induction calls generalizing w with
  | nil =>
    simp only [execAll, List.foldlM_nil, pure_eq_ok] at h
    subst h
    exact .nil
  | cons call calls ih =>
    simp only [execAll, List.foldlM_cons, bind_eq_ok] at h
    obtain ⟨w₁, hexec, h⟩ := h
    rw [List.forall_mem_cons] at hs
    exact (Path.single (.call hs.1 hexec)).append (ih hs.2 h)

/-- A fresh pool, whose owner 1 has some of both currencies. -/
def World.sample : World where
  state := State.fresh 1 7
  hbar := .single 1 1000000 (by norm_num)
  guard := .single 1 1000000 (by norm_num)

/-- The owner fills the pool. -/
def fillingCalls : List (Env × Call) := [(.sample 1 100000, .addLiquidity 200000)]

/-- The owner buys GUARD, and sells it again. -/
def tradingCalls : List (Env × Call) := [(.sample 1 1000, .buyGuard 1900), (.sample 1 0, .sellGuard 1974 900)]

/-- Buying and selling again leaves seven units of HBAR in the pool. -/
theorem pool_safe_sample : ∃ w ls w', (system 5).Reachable w ∧ Safe 5 w ls w' ∧
    (w.state.hbarReserve, w.state.guardReserve) = (100000, 200000) ∧
    (w'.state.hbarReserve, w'.state.guardReserve) = (100007, 200000) := by
  have hinit : (system 5).Reachable World.sample := .init ⟨1, 7, 22, rfl⟩
  obtain ⟨w, hfilled⟩ := exists_eq_ok (x := execAll 5 fillingCalls World.sample) (by decide +kernel)
  obtain ⟨w', htraded⟩ := exists_eq_ok (x := execAll 5 (fillingCalls ++ tradingCalls) World.sample)
    (by decide +kernel)
  have htrades : execAll 5 tradingCalls w = .ok w' := by
    rw [execAll, List.foldlM_append] at htraded
    rw [execAll] at hfilled
    rwa [hfilled, ok_bind] at htraded
  have hw : (system 5).Reachable w := (path_execAll (by decide) hfilled).induct
    (P := (system 5).Reachable) (fun _ _ _ hx hstep => .step hx hstep) hinit
  refine ⟨w, _, w', hw, pool_safe hw (path_execAll (by decide) htrades), ?_, ?_⟩
  · exact read_ok hfilled (fun w => (w.state.hbarReserve, w.state.guardReserve))
      (b := (100000, 200000)) (by decide +kernel)
  · exact read_ok htraded (fun w => (w.state.hbarReserve, w.state.guardReserve))
      (b := (100007, 200000)) (by decide +kernel)

end

end AuditGuard.GuardExchange
