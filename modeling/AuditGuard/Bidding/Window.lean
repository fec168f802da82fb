import Mathlib.Data.Rat.Floor
import AuditGuard.AuditAuction.System

/-!
# Bidding: the window of a bid

Before an agent bids, `getBidWindowSnapshot` of `static-analysis/index.ts` (and of the other agents) asks the auction
for the job, and says whether the auction is open and how long it is still open. Then the agent scouts for a random
time, at most half of what remains less a margin. What it reads of the job goes by names that the record of the
contract does not have, so that the window is the one of the hint that came with the invite.

Times are exact integers, and a second is a natural number.
-/

namespace AuditGuard.Bidding

open AuditAuction (AuditJob JobStatus)
open Evm

/-- The status as the ABI has it, a `uint8`. -/
def statusCode : JobStatus → ℕ
  | .auctionOpen => 0
  | .biddingClosed => 1
  | .auditingInProgress => 2
  | .reportPending => 3
  | .completed => 4
  | .cancelled => 5

/-- `getAuction` of the contract client, which is `getJob` of the contract. -/
def getAuction (jobId : ℕ) (s : AuditAuction.State) : Tx AuditJob := do
  require ((s.jobs jobId).jobId ≠ 0) "AuditAuction: job does not exist"
  pure (s.jobs jobId)

/-- The number under a name in the record that ethers decodes, which has the names of the ABI. -/
def getValue (job : AuditJob) : String → Option ℕ
  | "jobId" => some job.jobId
  | "discoveryTimestamp" => some job.discoveryTimestamp
  | "auctionDeadline" => some job.auctionDeadline
  | "initialRiskScore" => some job.initialRiskScore
  | "budgetAvailable" => some job.budgetAvailable
  | "lineCount" => some job.lineCount
  | "status" => some (statusCode job.status)
  | "totalEscrowedAmount" => some job.totalEscrowedAmount
  | "bidCount" => some job.bidCount
  | _ => none

/-- What a snapshot says of the window. -/
inductive ReasonCode
  | auctionNotOpen
  | deadlineWindowExhausted
  | ok
deriving DecidableEq

/-- A number of milliseconds, which may be `POSITIVE_INFINITY`. -/
inductive Millis
  | finite (ms : ℤ)
  | infinity
deriving DecidableEq

/-- The number is at most a finite one. -/
def Millis.atMost (bound : ℤ) : Millis → Bool
  | .finite ms => decide (ms ≤ bound)
  | .infinity => false

/-- The number is greater than zero. -/
def Millis.positive : Millis → Bool
  | .finite ms => decide (0 < ms)
  | .infinity => true

/-- What `getBidWindowSnapshot` returns. -/
structure Snapshot where
  remainingMs : Millis
  reasonCode : ReasonCode
deriving DecidableEq

/-- `normalizeDeadlineHintSec`. The argument is the number that `Number(value)` is, if it is finite. -/
def normalizeDeadlineHintSec (value : Option ℚ) : Option ℤ :=
  match value with
  | some deadline => if deadline ≤ 0 then none else some ⌊deadline⌋
  | none => none

/-- `getRemainingMsFromDeadline`, at the time `now` of `Date.now()`. -/
def getRemainingMsFromDeadline (now : ℕ) (deadlineSec : Option ℤ) : Millis :=
  match deadlineSec with
  | some deadlineSec => if deadlineSec ≤ 0 then .infinity else .finite (deadlineSec * 1000 - now)
  | none => .infinity

/-- `getBidWindowSnapshot`, where `auction` is what `getAuction` returns, or `none` if it throws, and `margin` is
`BID_DEADLINE_SAFETY_MARGIN_MS`. -/
def getBidWindowSnapshot (margin now : ℕ) (auction : Option AuditJob) (deadlineHintSec : Option ℚ) : Snapshot :=
  let chainDeadlineSec := auction.bind fun job =>
    normalizeDeadlineHintSec ((getValue job "deadline").map Nat.cast)
  let effectiveDeadlineSec := chainDeadlineSec.or (normalizeDeadlineHintSec deadlineHintSec)
  let jobState := auction.bind fun job => getValue job "jobState"
  if jobState ≠ none ∧ jobState ≠ some 0 then ⟨.finite 0, .auctionNotOpen⟩
  else
    let remainingMs := getRemainingMsFromDeadline now effectiveDeadlineSec
    if remainingMs.atMost margin then ⟨remainingMs, .deadlineWindowExhausted⟩
    else ⟨remainingMs, .ok⟩

/-- The largest delay of `setTimeout`. A delay that is larger, or less than one, becomes one. -/
def TIMEOUT_MAX : ℤ := 2147483647

/-- The time for which `sleep` waits. -/
def sleepMs : Millis → ℤ
  | .finite ms => if 1 ≤ ms ∧ ms ≤ TIMEOUT_MAX then ms else 1
  | .infinity => 1

/-- `randomInt(0, max)`, where `random` is what `Math.random()` returns. Zero times infinity is not a number. -/
def randomInt (random : ℚ) : Millis → Option Millis
  | .finite max => some (.finite ⌊random * (max + 1)⌋)
  | .infinity => if random = 0 then none else some .infinity

/-- `maxScoutMs`. -/
def maxScoutMs (margin : ℕ) : Millis → Millis
  | .finite remainingMs => .finite (max 0 (remainingMs / 2 - margin))
  | .infinity => .infinity

/-- The time that the scouting takes, at a snapshot with the remaining time. -/
def scoutingMs (margin : ℕ) (random : ℚ) (remainingMs : Millis) : ℤ :=
  let scoutMs := if (maxScoutMs margin remainingMs).positive then randomInt random (maxScoutMs margin remainingMs)
    else some (.finite 0)
  match scoutMs with
  | some scoutMs => if scoutMs.positive then sleepMs scoutMs else 0
  | none => 0

/-- What remains of the auction of a job on the chain, at the time `now`. -/
def chainRemainingMs (now : ℕ) (job : AuditJob) : ℤ := (job.auctionDeadline : ℤ) * 1000 - now

/-- A snapshot that is `ok` is one of an open auction with more than the margin left, and after the scouting there is
still more than the margin left. -/
structure SafeWindow (margin now : ℕ) (job : AuditJob) (deadlineHintSec : Option ℚ) : Prop where
  isOpen : (getBidWindowSnapshot margin now (some job) deadlineHintSec).reasonCode = .ok →
    job.status = .auctionOpen ∧ margin < chainRemainingMs now job
  scouting : (getBidWindowSnapshot margin now (some job) deadlineHintSec).reasonCode = .ok →
    ∀ random : ℚ, 0 ≤ random → random < 1 →
      margin < chainRemainingMs now job -
        scoutingMs margin random (getBidWindowSnapshot margin now (some job) deadlineHintSec).remainingMs

/-- The window of the hint is over: it is a deadline, and no more than the margin ahead. -/
def HintOver (margin now : ℕ) (hint : Option ℚ) : Prop :=
  ∃ deadline, hint = some deadline ∧ 1 ≤ deadline ∧ ⌊deadline⌋ * 1000 - now ≤ margin

/-- The auction is open for long enough, also after the longest scouting that the hint leads to. Without a hint that
is a deadline, the scouting takes one millisecond at most. -/
structure OpenForLong (margin now : ℕ) (job : AuditJob) (hint : Option ℚ) : Prop where
  isOpen : job.status = .auctionOpen
  remaining : margin < chainRemainingMs now job
  hinted : ∀ deadline, hint = some deadline → 1 ≤ deadline →
    (⌊deadline⌋ * 1000 - now) / 2 < chainRemainingMs now job ∨ margin + TIMEOUT_MAX < chainRemainingMs now job
  unhinted : (∀ deadline, hint = some deadline → deadline < 1) → margin + 1 < chainRemainingMs now job

variable {margin now : ℕ} {job : AuditJob} {hint : Option ℚ} {random : ℚ} {deadline : ℚ}

/-! ## The snapshot -/

theorem getValue_none (job : AuditJob) : getValue job "deadline" = none ∧ getValue job "jobState" = none :=
  ⟨rfl, rfl⟩

/-- The remaining time by the hint alone. -/
def hintRemainingMs (now : ℕ) (hint : Option ℚ) : Millis :=
  getRemainingMsFromDeadline now (normalizeDeadlineHintSec hint)

theorem getBidWindowSnapshot_eq (margin now : ℕ) (job : AuditJob) (hint : Option ℚ) :
    getBidWindowSnapshot margin now (some job) hint =
      if (hintRemainingMs now hint).atMost margin
      then ⟨hintRemainingMs now hint, .deadlineWindowExhausted⟩ else ⟨hintRemainingMs now hint, .ok⟩ := by
  obtain ⟨hdeadline, hstate⟩ := getValue_none job
  unfold getBidWindowSnapshot
  dsimp only
  rw [Option.bind_some, Option.bind_some, hstate, hdeadline, if_neg fun h => h.1 rfl]
  rfl

theorem hintRemainingMs_some (h : 1 ≤ deadline) :
    hintRemainingMs now (some deadline) = .finite (⌊deadline⌋ * 1000 - now) := by
  have hfloor : 1 ≤ ⌊deadline⌋ := Int.le_floor.mpr (by exact_mod_cast h)
  have hpos : ¬ deadline ≤ 0 := not_le.mpr (lt_of_lt_of_le one_pos h)
  unfold hintRemainingMs normalizeDeadlineHintSec getRemainingMsFromDeadline
  dsimp only
  rw [if_neg hpos]
  dsimp only
  rw [if_neg (by omega)]

theorem hintRemainingMs_none (h : ∀ deadline, hint = some deadline → deadline < 1) :
    hintRemainingMs now hint = .infinity := by
  unfold hintRemainingMs normalizeDeadlineHintSec getRemainingMsFromDeadline
  cases hint with
  | none => rfl
  | some deadline =>
    have hlt : ⌊deadline⌋ < 1 := Int.floor_lt.mpr (by exact_mod_cast h deadline rfl)
    dsimp only
    split_ifs
    · rfl
    · dsimp only
      rw [if_pos (by omega)]

/-! ## The scouting -/

theorem scoutingMs_infinity (random : ℚ) : scoutingMs margin random .infinity = if random = 0 then 0 else 1 := by
  have hscout : (maxScoutMs margin .infinity).positive = true := rfl
  unfold scoutingMs
  rw [if_pos hscout]
  unfold maxScoutMs randomInt
  dsimp only
  split_ifs <;> rfl

theorem maxScoutMs_finite (remaining : ℤ) :
    maxScoutMs margin (.finite remaining) = .finite (max 0 (remaining / 2 - margin)) := rfl

theorem scoutingMs_finite (remaining : ℤ) : scoutingMs margin random (.finite remaining) =
    if 0 < remaining / 2 - margin then
      if 0 < ⌊random * ((remaining / 2 - margin : ℤ) + 1)⌋ then
        sleepMs (.finite ⌊random * ((remaining / 2 - margin : ℤ) + 1)⌋) else 0
    else 0 := by
  have hpositive : ∀ ms : ℤ, (Millis.finite ms).positive = true ↔ 0 < ms := fun ms => decide_eq_true_iff
  unfold scoutingMs
  rw [maxScoutMs_finite]
  dsimp only
  by_cases hpos : 0 < remaining / 2 - margin
  · have hmax : max 0 (remaining / 2 - margin) = remaining / 2 - margin := max_eq_right hpos.le
    rw [hmax, if_pos hpos, if_pos ((hpositive _).mpr hpos)]
    unfold randomInt
    dsimp only
    by_cases hdrawn : 0 < ⌊random * ((remaining / 2 - margin : ℤ) + 1)⌋
    · rw [if_pos hdrawn, if_pos ((hpositive _).mpr hdrawn)]
    · rw [if_neg hdrawn, if_neg fun h => hdrawn ((hpositive _).mp h)]
  · have hmax : max 0 (remaining / 2 - margin) = 0 := max_eq_left (not_lt.mp hpos)
    rw [hmax, if_neg hpos, if_neg fun h => absurd ((hpositive 0).mp h) (lt_irrefl 0)]
    rfl

theorem floor_draw_le {most : ℤ} (hmost : 0 < most) (hrandom : random < 1) :
    ⌊random * (most + 1)⌋ ≤ most := by
  have hlt : random * (most + 1) < most + 1 := by
    have hpos : (0 : ℚ) < most + 1 := by exact_mod_cast (by omega : 0 < most + 1)
    nlinarith
  have hfloor : ⌊random * (most + 1)⌋ < most + 1 := Int.floor_lt.mpr (by exact_mod_cast hlt)
  omega

theorem exists_draw (most drawn : ℤ) (hpos : 0 ≤ drawn) (hle : drawn ≤ most) :
    ∃ random : ℚ, 0 ≤ random ∧ random < 1 ∧ ⌊random * (most + 1)⌋ = drawn := by
  have hmost : (0 : ℚ) < most + 1 := by exact_mod_cast (by omega : 0 < most + 1)
  refine ⟨drawn / (most + 1), ?_, ?_, ?_⟩
  · exact div_nonneg (by exact_mod_cast hpos) hmost.le
  · rw [div_lt_one hmost]
    exact_mod_cast (by omega : drawn < most + 1)
  · rw [div_mul_cancel₀ _ hmost.ne', Int.floor_intCast]

theorem scouting_finite_iff {remaining left : ℤ} (hleft : (margin : ℤ) < left) :
    (∀ random : ℚ, 0 ≤ random → random < 1 →
        margin < left - scoutingMs margin random (.finite remaining)) ↔
      remaining / 2 < left ∨ margin + TIMEOUT_MAX < left := by
  have hmax : TIMEOUT_MAX = 2147483647 := rfl
  constructor
  · intro hall
    by_contra hnot
    -- The longest scouting that does not become shorter by its overflow leaves too little.
    obtain ⟨random, hnonneg, hlt, hdrawn⟩ := exists_draw (remaining / 2 - margin)
      (min (remaining / 2 - margin) TIMEOUT_MAX) (by omega) (min_le_left _ _)
    have hleast := hall random hnonneg hlt
    rw [scoutingMs_finite, if_pos (by omega), hdrawn, if_pos (by omega)] at hleast
    unfold sleepMs at hleast
    dsimp only at hleast
    rw [if_pos (by omega)] at hleast
    omega
  · intro hlong random hnonneg hlt
    rw [scoutingMs_finite]
    split_ifs with hpos hdrawn
    · have hle := @floor_draw_le random _ hpos hlt
      unfold sleepMs
      dsimp only
      split_ifs <;> omega
    · omega
    · omega

theorem scouting_infinity_iff {left : ℤ} :
    (∀ random : ℚ, 0 ≤ random → random < 1 → margin < left - scoutingMs margin random .infinity) ↔
      margin + 1 < left := by
  constructor
  · intro hall
    have hhalf := hall (1 / 2) (by norm_num) (by norm_num)
    rw [scoutingMs_infinity, if_neg (by norm_num)] at hhalf
    omega
  · intro hlong random _ _
    rw [scoutingMs_infinity]
    split_ifs <;> omega

/-! ## Safe windows -/

theorem snapshot_infinity (h : hintRemainingMs now hint = .infinity) :
    getBidWindowSnapshot margin now (some job) hint = ⟨.infinity, .ok⟩ := by
  rw [getBidWindowSnapshot_eq, h]
  rfl

/-- The window is safe if and only if the hint is a deadline that is over, or the auction is open for long enough. -/
theorem safeWindow_iff (margin now : ℕ) (job : AuditJob) (hint : Option ℚ) :
    SafeWindow margin now job hint ↔ HintOver margin now hint ∨ OpenForLong margin now job hint := by
  by_cases hdeadline : ∃ deadline, hint = some deadline ∧ 1 ≤ deadline
  · obtain ⟨deadline, rfl, hge⟩ := hdeadline
    have hremaining : hintRemainingMs now (some deadline) = _ := hintRemainingMs_some hge
    have hsnapshot := getBidWindowSnapshot_eq margin now job (some deadline)
    rw [hremaining] at hsnapshot
    by_cases hover : ⌊deadline⌋ * 1000 - (now : ℤ) ≤ margin
    · -- The agent does not bid.
      have hatMost : (Millis.finite (⌊deadline⌋ * 1000 - now)).atMost margin = true := decide_eq_true hover
      rw [if_pos hatMost] at hsnapshot
      refine iff_of_true ⟨?_, ?_⟩ (.inl ⟨deadline, rfl, hge, hover⟩)
      · rw [hsnapshot]
        exact fun h => nomatch h
      · rw [hsnapshot]
        exact fun h => nomatch h
    · have hmore : ¬(Millis.finite (⌊deadline⌋ * 1000 - now)).atMost margin = true := fun hle =>
        hover (of_decide_eq_true hle)
      rw [if_neg hmore] at hsnapshot
      constructor
      · rintro ⟨hopen, hscouting⟩
        rw [hsnapshot] at hopen hscouting
        obtain ⟨hstatus, hleft⟩ := hopen rfl
        refine .inr ⟨hstatus, hleft, ?_, fun hnot => absurd hge (not_le.mpr (hnot deadline rfl))⟩
        rintro _ heq -
        obtain rfl := Option.some.inj heq
        exact (scouting_finite_iff hleft).mp (hscouting rfl)
      · rintro (⟨_, heq, -, hle⟩ | hlong)
        · obtain rfl := Option.some.inj heq
          exact absurd hle hover
        · constructor
          · exact fun _ => ⟨hlong.isOpen, hlong.remaining⟩
          · rw [hsnapshot]
            exact fun _ => (scouting_finite_iff hlong.remaining).mpr (hlong.hinted deadline rfl hge)
  · have hnone : ∀ deadline, hint = some deadline → deadline < 1 :=
      fun deadline heq => not_le.mp fun hge => hdeadline ⟨deadline, heq, hge⟩
    have hsnapshot : getBidWindowSnapshot margin now (some job) hint = ⟨.infinity, .ok⟩ :=
      snapshot_infinity (hintRemainingMs_none hnone)
    constructor
    · rintro ⟨hopen, hscouting⟩
      rw [hsnapshot] at hopen hscouting
      obtain ⟨hstatus, hleft⟩ := hopen rfl
      exact .inr ⟨hstatus, hleft, fun deadline heq hge => absurd ⟨deadline, heq, hge⟩ hdeadline,
        fun _ => scouting_infinity_iff.mp (hscouting rfl)⟩
    · rintro (⟨deadline, heq, hge, -⟩ | hlong)
      · exact absurd ⟨deadline, heq, hge⟩ hdeadline
      · constructor
        · exact fun _ => ⟨hlong.isOpen, hlong.remaining⟩
        · rw [hsnapshot]
          exact fun _ => scouting_infinity_iff.mpr (hlong.unhinted hnone)

/-- A hint that is the deadline on the chain makes the window of an open auction safe. -/
example (hdeadline : 0 < job.auctionDeadline) (hopen : job.status = .auctionOpen) :
    SafeWindow margin now job (some job.auctionDeadline) := by
  have hge : (1 : ℚ) ≤ job.auctionDeadline := by exact_mod_cast hdeadline
  have hfloor : ⌊(job.auctionDeadline : ℚ)⌋ = job.auctionDeadline := Int.floor_natCast _
  rw [safeWindow_iff]
  by_cases hover : chainRemainingMs now job ≤ margin
  · refine .inl ⟨_, rfl, hge, ?_⟩
    rw [hfloor]
    exact hover
  · refine .inr ⟨hopen, not_le.mp hover, ?_, fun h => absurd hge (not_le.mpr (h _ rfl))⟩
    rintro _ heq -
    rw [← Option.some.inj heq, hfloor]
    unfold chainRemainingMs at hover ⊢
    omega

/-! ## A window that is not safe -/

/-- An auction that is open until second 60, and the time after it: an invite without a deadline leads to a bid. -/
theorem not_safeWindow : ¬ ∀ (w : World AuditAuction.State) (jobId : ℕ) (job : AuditJob) (margin now : ℕ)
    (hint : Option ℚ), (AuditAuction.contract 1).system.Reachable w → getAuction jobId w.state = .ok job →
      SafeWindow margin now job hint := by
  intro hall
  obtain ⟨ts, w, hcalls, hr, -⟩ := AuditAuction.sample_run (AuditAuction.twoJobsCalls.take 1) (by decide) rfl
  have hread := read_ok hcalls (fun w => ((w.state.jobs 1).jobId, (w.state.jobs 1).auctionDeadline))
    (b := (1, 60)) (by decide +kernel)
  simp only [Prod.mk.injEq] at hread
  obtain ⟨hexists, hdeadline⟩ := hread
  have hrequire : require ((w.state.jobs 1).jobId ≠ 0) "AuditAuction: job does not exist" = .ok () :=
    if_pos (by omega)
  have hget : getAuction 1 w.state = .ok (w.state.jobs 1) := by
    unfold getAuction
    rw [hrequire]
    rfl
  have hsafe := hall w 1 _ 15000 61000 none hr.reachable hget
  rw [safeWindow_iff] at hsafe
  rcases hsafe with ⟨_, hnone, -⟩ | hlong
  · cases hnone
  · have hleft := hlong.remaining
    unfold chainRemainingMs at hleft
    rw [hdeadline] at hleft
    omega

end AuditGuard.Bidding
