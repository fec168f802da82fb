import AuditGuard.Inft.Frames
import AuditGuard.Inft.Mirror
import Mathlib.Tactic.Ring

/-!
# The economics of a profile

A slash changes `economics` and `slashHistory` in one service call and the staking details in another, and an approved
appeal takes the slash back in the same way. Next to the profile a tally is kept of the events, which counts each
slash and each approved restoration by its id, once. The profile agrees with it and with itself exactly as long as no
event is handled that was handled before, or that returns another amount than the slash took (`economics_iff`).
-/

namespace AuditGuard.Inft

open Evm StakingManager TransitionSystem

/-! ## The tally -/

/-- What the events of an agent come to. -/
structure Tally where
  /-- What is staked by the stakes, the completed unstakings, the slashes and the restorations. -/
  staked : ℚ
  /-- What was slashed, less what was restored. -/
  slashed : ℚ
  /-- The part of it that `AuditAuction` slashed. -/
  auctionSlashed : ℚ
  /-- The slashes of `StakingManager` that were counted. -/
  slashes : List ℕ
  /-- The restorations that were counted, by their slashes. -/
  restorations : List ℕ

/-- The agent whose profile an event changes, if it is one of stakes or slashes. -/
def eventAgent : Event → Option Address
  | .staking e => stakingAgent e
  | .auction (.agentSlashed _ agent _ _) => some agent
  | _ => none

/-- The tally with an event of the agent. A slash that was counted is not counted again, nor is a restoration. -/
def Tally.count (t : Tally) : Event → Tally
  | .staking (.staked _ _ newTotal) => { t with staked := toGuard newTotal }
  | .staking (.unstakeCompleted _ amount) => { t with staked := max 0 (t.staked - toGuard amount) }
  | .staking (.slashInitiated slashId _ _ slashedAmount _ _ _) =>
    if slashId ∈ t.slashes then t
    else { t with
      staked := t.staked - toGuard slashedAmount
      slashed := t.slashed + toGuard slashedAmount
      slashes := slashId :: t.slashes }
  | .staking (.appealApproved slashId _ restoredAmount) =>
    if slashId ∈ t.restorations then t
    else { t with
      staked := t.staked + toGuard restoredAmount
      slashed := t.slashed - toGuard restoredAmount
      restorations := slashId :: t.restorations }
  | .auction (.agentSlashed _ _ slashedAmount _) => { t with
    slashed := t.slashed + toGuard slashedAmount
    auctionSlashed := t.auctionSlashed + toGuard slashedAmount }
  | _ => t

/-- The tally of an agent that registered with a stake, after some events. -/
def tally (agent : Address) (stakedAmount : ℚ) (events : List Event) : Tally :=
  events.foldl (fun t e => if eventAgent e = some agent then t.count e else t) ⟨stakedAmount, 0, 0, [], []⟩

/-! ## A profile -/

/-- What a slash counts for as long as its appeal is not approved. -/
def SlashEntry.charged (entry : SlashEntry) : ℚ := if entry.appealStatus = .approved then 0 else entry.slashedAmount

/-- The slashes whose appeals are not approved. -/
def AgentProfile.charged (p : AgentProfile) : ℚ := (p.slashHistory.map SlashEntry.charged).sum

/-- The first entry of a slash. -/
def AgentProfile.entry? (p : AgentProfile) (slashId : ℕ) : Option SlashEntry :=
  p.slashHistory.find? (·.slashId = slashId)

/-- What the approval of an appeal gives back, as far as the profile knows. -/
def AgentProfile.due (p : AgentProfile) (slashId : ℕ) : ℚ := ((p.entry? slashId).map SlashEntry.charged).getD 0

/-- The economics of a profile are consistent with its other parts and with the tally. -/
structure AgentProfile.Consistent (p : AgentProfile) (t : Tally) : Prop where
  /-- `stakedAmount` is the total of the staking details. -/
  synced : ∀ staking, p.staking = some staking → p.economics.stakedAmount = staking.totalStaked
  /-- `totalSlashed` is what the slash history and the slashes of `AuditAuction` add up to. -/
  recorded : p.economics.totalSlashed = p.charged + t.auctionSlashed
  /-- Slashes and restorations were counted once in `stakedAmount`. -/
  staked : p.economics.stakedAmount = t.staked
  /-- Slashes and restorations were counted once in `totalSlashed`. -/
  slashed : p.economics.totalSlashed = t.slashed

/-- The condition on an event of the agent under which it leaves the profile consistent.
- A slash: the stake covers it, and it takes nothing if it was counted.
- An appeal that is filed or denied: none of a slash that was restored, unless that took nothing.
- An approved appeal: it restores what the slash took, and nothing if it was counted, or if the profile does not know the
  slash. -/
def Countable (p : AgentProfile) (t : Tally) : Event → Prop
  | .staking (.slashInitiated slashId _ _ slashedAmount _ _ _) =>
    toGuard slashedAmount ≤ p.economics.stakedAmount ∧ (slashId ∈ t.slashes → slashedAmount = 0)
  | .staking (.appealFiled slashId _ _) | .staking (.appealDenied slashId _ _) =>
    ∀ entry, p.entry? slashId = some entry → entry.appealStatus = .approved → entry.slashedAmount = 0
  | .staking (.appealApproved slashId _ restoredAmount) =>
    toGuard restoredAmount = p.due slashId ∧ (slashId ∈ t.restorations → restoredAmount = 0)
  | _ => True

/-- What is always so of a profile: it has staking details, with which `stakedAmount` is in sync, and no amount is
negative. -/
structure AgentProfile.Regular (p : AgentProfile) : Prop where
  staking : ∃ staking, p.staking = some staking ∧ 0 ≤ staking.totalStaked ∧
    p.economics.stakedAmount = staking.totalStaked
  entries : ∀ entry ∈ p.slashHistory, 0 ≤ entry.slashedAmount

theorem toGuard_nonneg (a : ℕ) : 0 ≤ toGuard a := by
  rw [← toGuard_zero, toGuard_le]
  exact Nat.zero_le a

theorem toGuard_eq_zero (a : ℕ) : toGuard a = 0 ↔ a = 0 := by rw [← toGuard_zero, toGuard_inj]

theorem modify_findIdx? {α : Type*} (q : α → Bool) (g : α → α) (l : List α) :
    (l.findIdx? q = none ∧ l.find? q = none) ∨
      ∃ i before a after, l.findIdx? q = some i ∧ l = before ++ a :: after ∧ l.find? q = some a ∧
        l.modify i g = before ++ g a :: after := by
  induction l with
  | nil => exact .inl ⟨rfl, rfl⟩
  | cons b l ih =>
    by_cases hb : q b = true
    · exact .inr ⟨0, [], b, l, by simp [List.findIdx?_cons, hb], rfl, by simp [hb], rfl⟩
    · rcases ih with ⟨hidx, hfind⟩ | ⟨i, before, a, after, hidx, rfl, hfind, hmodify⟩
      · exact .inl ⟨by simp [List.findIdx?_cons, hb, hidx], by simp [hb, hfind]⟩
      · exact .inr ⟨i + 1, b :: before, a, after, by simp [List.findIdx?_cons, hb, hidx], rfl, by simp [hb, hfind],
          by simp [hmodify]⟩

theorem updateSlashAppeal_cases (p : AgentProfile) (slashId : ℕ) (status : AppealStatus) (reason : Option String)
    (restored : ℚ) :
    (p.entry? slashId = none ∧ p.updateSlashAppeal slashId status reason restored = p) ∨
      ∃ before entry after entry', p.entry? slashId = some entry ∧ p.slashHistory = before ++ entry :: after ∧
        (p.updateSlashAppeal slashId status reason restored).slashHistory = before ++ entry' :: after ∧
        entry'.slashedAmount = entry.slashedAmount ∧ entry'.appealStatus = status ∧
        (p.updateSlashAppeal slashId status reason restored).economics =
          if status = .approved ∧ restored ≠ 0 then { p.economics with
            totalSlashed := max 0 (p.economics.totalSlashed - restored)
            stakedAmount := p.economics.stakedAmount + restored }
          else p.economics := by
  rcases modify_findIdx? (·.slashId = slashId) (fun record : SlashEntry => { record with
      appealStatus := status
      appealReason := (reason.filter (· ≠ "")).or record.appealReason }) p.slashHistory with
    ⟨hidx, hfind⟩ | ⟨i, before, entry, after, hidx, hhistory, hfind, hmodify⟩
  · exact .inl ⟨hfind, by rw [AgentProfile.updateSlashAppeal, hidx]⟩
  · refine .inr ⟨before, entry, after, { entry with
      appealStatus := status
      appealReason := (reason.filter (· ≠ "")).or entry.appealReason }, hfind, hhistory, ?_, rfl, rfl, ?_⟩
    · rw [AgentProfile.updateSlashAppeal, hidx]
      dsimp only
      rw [← hmodify]
      split_ifs <;> rfl
    · rw [AgentProfile.updateSlashAppeal, hidx]
      dsimp only
      split_ifs <;> rfl

variable {p : AgentProfile} {t : Tally} {slashId : ℕ}

theorem charged_split {before after : List SlashEntry} {entry : SlashEntry}
    (h : p.slashHistory = before ++ entry :: after) :
    p.charged = entry.charged + ((before ++ after).map SlashEntry.charged).sum := by
  rw [AgentProfile.charged, h]
  simp only [List.map_append, List.map_cons, List.sum_append, List.sum_cons]
  ring

theorem charged_nonneg {entry : SlashEntry} (h : 0 ≤ entry.slashedAmount) : 0 ≤ entry.charged := by
  unfold SlashEntry.charged
  split_ifs
  · exact le_rfl
  · exact h

theorem due_le (h : p.Regular) (slashId : ℕ) : 0 ≤ p.due slashId ∧ p.due slashId ≤ p.charged := by
  have hall : ∀ x ∈ p.slashHistory.map SlashEntry.charged, 0 ≤ x := by
    simp only [List.mem_map]
    rintro _ ⟨entry, hentry, rfl⟩
    exact charged_nonneg (h.entries entry hentry)
  unfold AgentProfile.due
  cases hentry : p.entry? slashId with
  | none => exact ⟨le_rfl, List.sum_nonneg hall⟩
  | some entry =>
    have hmem : entry ∈ p.slashHistory := List.mem_of_find?_eq_some hentry
    exact ⟨charged_nonneg (h.entries entry hmem), List.single_le_sum hall _ (List.mem_map_of_mem hmem)⟩

/-! ## One event of StakingManager -/

section Staking

variable {staking : Staking} {e : StakingManager.Event}

theorem profileEffect_eq (e : StakingManager.Event) (h : p.staking = some staking) :
    (profileEffect e p).slashHistory = (slashEffect e p).slashHistory ∧
      (profileEffect e p).economics.totalSlashed = (slashEffect e p).economics.totalSlashed ∧
      (profileEffect e p).economics.stakedAmount =
        ((stakingUpdate staking e).bind StakingUpdate.totalStaked).getD (slashEffect e p).economics.stakedAmount := by
  have hkeep : (slashEffect e p).staking = some staking := (slashEffect_staking e p).trans h
  unfold profileEffect
  dsimp only
  rw [if_neg (by rw [hkeep]; simp), updateStaking, hkeep, Option.getD_some]
  cases stakingUpdate staking e with
  | none => exact ⟨rfl, rfl, rfl⟩
  | some u => exact ⟨rfl, rfl, rfl⟩

theorem slashEffect_economics (he : ∀ slashId agent restoredAmount, e ≠ .appealApproved slashId agent restoredAmount)
    (he' : ∀ slashId agent reason slashedAmount bps evidenceHash jobId,
      e ≠ .slashInitiated slashId agent reason slashedAmount bps evidenceHash jobId) :
    (slashEffect e p).economics = p.economics := by
  cases e with
  | slashInitiated => exact absurd rfl (he' _ _ _ _ _ _ _)
  | appealApproved => exact absurd rfl (he _ _ _)
  | appealFiled slashId agent reason =>
    rcases updateSlashAppeal_cases p slashId .pending (some reason) 0 with ⟨-, hsame⟩ | ⟨_, _, _, _, -, -, -, -, -, h⟩
    · exact congrArg AgentProfile.economics hsame
    · exact h
  | appealDenied slashId agent finalizedAmount =>
    rcases updateSlashAppeal_cases p slashId .denied none 0 with ⟨-, hsame⟩ | ⟨_, _, _, _, -, -, -, -, -, h⟩
    · exact congrArg AgentProfile.economics hsame
    · exact h
  | _ => rfl

theorem synced_profileEffect (e : StakingManager.Event) (h : p.staking = some staking)
    (hsync : p.economics.stakedAmount = staking.totalStaked) :
    (profileEffect e p).economics.stakedAmount = (mirror e staking).totalStaked := by
  obtain ⟨-, -, hstaked⟩ := profileEffect_eq e h
  rw [hstaked, mirror]
  cases e with
  | slashInitiated | appealApproved | staked | unstakeCompleted => rfl
  | _ =>
    rw [slashEffect_economics (by simp) (by simp), hsync]
    rfl

theorem updateSlashAppeal_nonneg (h : ∀ entry ∈ p.slashHistory, 0 ≤ entry.slashedAmount) (slashId : ℕ)
    (status : AppealStatus) (reason : Option String) (restored : ℚ) :
    ∀ entry ∈ (p.updateSlashAppeal slashId status reason restored).slashHistory, 0 ≤ entry.slashedAmount := by
  rcases updateSlashAppeal_cases p slashId status reason restored with
    ⟨-, hsame⟩ | ⟨before, entry, after, entry', -, hhistory, hhistory', hamount, -, -⟩
  · rw [hsame]
    exact h
  · rw [hhistory', List.forall_mem_append, List.forall_mem_cons, hamount]
    rw [hhistory, List.forall_mem_append, List.forall_mem_cons] at h
    exact h

theorem mirror_nonneg (e : StakingManager.Event) (h : 0 ≤ staking.totalStaked) : 0 ≤ (mirror e staking).totalStaked := by
  cases e with
  | staked | unstakeCompleted | slashInitiated =>
    first
    | exact le_max_left _ _
    | exact toGuard_nonneg _
  | appealApproved => exact add_nonneg h (toGuard_nonneg _)
  | _ => exact h

theorem regular_profileEffect (e : StakingManager.Event) (h : p.Regular) : (profileEffect e p).Regular := by
  obtain ⟨staking, hstaking, hnonneg, hsync⟩ := h.staking
  refine ⟨⟨_, profileEffect_staking e hstaking, mirror_nonneg e hnonneg, synced_profileEffect e hstaking hsync⟩, ?_⟩
  rw [(profileEffect_eq e hstaking).1]
  cases e with
  | slashInitiated slashId agent reason slashedAmount bps evidenceHash jobId =>
    change ∀ entry ∈ p.slashHistory ++ [_], 0 ≤ entry.slashedAmount
    rw [List.forall_mem_append, List.forall_mem_singleton]
    exact ⟨h.entries, toGuard_nonneg _⟩
  | appealApproved slashId agent restoredAmount =>
    have hupdated := updateSlashAppeal_nonneg h.entries slashId .approved none (toGuard restoredAmount)
    simp only [slashEffect]
    cases (p.updateSlashAppeal slashId .approved none (toGuard restoredAmount)).slashHistory.find?
      (·.slashId = slashId) <;> exact hupdated
  | appealFiled slashId agent reason => exact updateSlashAppeal_nonneg h.entries slashId .pending (some reason) 0
  | appealDenied slashId agent finalizedAmount => exact updateSlashAppeal_nonneg h.entries slashId .denied none 0
  | _ => exact h.entries

theorem consistent_iff (h : p.Regular) : p.Consistent t ↔ p.economics.totalSlashed = p.charged + t.auctionSlashed ∧
    p.economics.stakedAmount = t.staked ∧ p.economics.totalSlashed = t.slashed := by
  refine ⟨fun hc => ⟨hc.recorded, hc.staked, hc.slashed⟩, fun ⟨hrecorded, hstaked, hslashed⟩ => ?_⟩
  obtain ⟨staking, hstaking, -, hsync⟩ := h.staking
  refine ⟨fun staking' hstaking' => ?_, hrecorded, hstaked, hslashed⟩
  rw [hstaking, Option.some.injEq] at hstaking'
  exact hstaking' ▸ hsync

/-- A slash leaves the profile consistent exactly under its condition. -/
theorem consistent_slash_iff (hp : p.Regular) (h : p.Consistent t) (agent : Address) (reason : SlashReason)
    (slashedAmount bps : ℕ) (evidenceHash : UInt 256) (jobId : ℕ) :
    (profileEffect (.slashInitiated slashId agent reason slashedAmount bps evidenceHash jobId) p).Consistent
        (t.count (.staking (.slashInitiated slashId agent reason slashedAmount bps evidenceHash jobId))) ↔
      Countable p t (.staking (.slashInitiated slashId agent reason slashedAmount bps evidenceHash jobId)) := by
  rw [consistent_iff (regular_profileEffect _ hp)]
  obtain ⟨staking, hstaking, hnonneg, hsync⟩ := hp.staking
  obtain ⟨hhistory, htotal, hamount⟩ := profileEffect_eq
    (.slashInitiated slashId agent reason slashedAmount bps evidenceHash jobId) hstaking
  have hcharged : (profileEffect (.slashInitiated slashId agent reason slashedAmount bps evidenceHash jobId) p).charged =
      p.charged + toGuard slashedAmount := by
    rw [AgentProfile.charged, hhistory, AgentProfile.charged]
    simp [slashEffect, AgentProfile.updateAgentReputation, AgentProfile.recordSlashOnAgent, SlashEntry.charged]
  have htotal : (profileEffect (.slashInitiated slashId agent reason slashedAmount bps evidenceHash jobId)
      p).economics.totalSlashed = p.economics.totalSlashed + toGuard slashedAmount := htotal
  have hamount : (profileEffect (.slashInitiated slashId agent reason slashedAmount bps evidenceHash jobId)
      p).economics.stakedAmount = max 0 (p.economics.stakedAmount - toGuard slashedAmount) := by
    rw [hamount, hsync]
    rfl
  have hzero := toGuard_eq_zero slashedAmount
  rw [hcharged, htotal, hamount]
  rw [← hsync] at hnonneg
  simp only [Tally.count, Countable, ← hzero]
  clear hzero hcharged htotal hamount hhistory
  generalize toGuard slashedAmount = x
  have hrecorded := h.recorded
  have hstaked := h.staked
  have hslashed := h.slashed
  by_cases hmem : slashId ∈ t.slashes
  · simp only [hmem, if_true, true_imp_iff]
    constructor
    · rintro ⟨-, -, hx⟩
      have hx : x = 0 := by linarith
      exact ⟨hx ▸ hnonneg, hx⟩
    · rintro ⟨-, rfl⟩
      rw [sub_zero, add_zero, add_zero, max_eq_right hnonneg]
      exact ⟨hrecorded, hstaked, hslashed⟩
  · simp only [hmem, if_false, false_imp_iff, and_true]
    constructor
    · rintro ⟨-, hmax, -⟩
      rw [← hstaked] at hmax
      exact sub_nonneg.mp (hmax ▸ le_max_left _ _)
    · intro hle
      rw [max_eq_right (sub_nonneg.mpr hle), hstaked, hslashed]
      refine ⟨?_, rfl, rfl⟩
      rw [← hslashed, hrecorded]
      ring

theorem approved_eq (hnonneg : 0 ≤ p.economics.totalSlashed) (agent : Address) (restoredAmount : ℕ) :
    (slashEffect (.appealApproved slashId agent restoredAmount) p).charged = p.charged - p.due slashId ∧
      (slashEffect (.appealApproved slashId agent restoredAmount) p).economics.totalSlashed =
        if p.entry? slashId = none then p.economics.totalSlashed
        else max 0 (p.economics.totalSlashed - toGuard restoredAmount) := by
  have hslash : (slashEffect (.appealApproved slashId agent restoredAmount) p).slashHistory =
      (p.updateSlashAppeal slashId .approved none (toGuard restoredAmount)).slashHistory ∧
      (slashEffect (.appealApproved slashId agent restoredAmount) p).economics =
        (p.updateSlashAppeal slashId .approved none (toGuard restoredAmount)).economics := by
    simp only [slashEffect]
    cases (p.updateSlashAppeal slashId .approved none (toGuard restoredAmount)).slashHistory.find?
      (·.slashId = slashId) <;> exact ⟨rfl, rfl⟩
  rcases updateSlashAppeal_cases p slashId .approved none (toGuard restoredAmount) with
    ⟨hnone, hsame⟩ | ⟨before, entry, after, entry', hentry, hhistory, hhistory', -, hstatus, heconomics⟩
  · rw [AgentProfile.charged, hslash.1, hslash.2, hsame, if_pos hnone, AgentProfile.due, hnone]
    exact ⟨(sub_zero _).symm, rfl⟩
  · have hcharged := charged_split (hslash.1.trans hhistory')
    have hzero : entry'.charged = 0 := if_pos hstatus
    have hdue : p.due slashId = entry.charged := by rw [AgentProfile.due, hentry]; rfl
    have hknown : p.entry? slashId ≠ none := by simp [hentry]
    rw [hcharged, charged_split hhistory, hzero, hdue, hslash.2, heconomics, if_neg hknown]
    refine ⟨by ring, ?_⟩
    by_cases hr : toGuard restoredAmount = 0
    · rw [if_neg (fun h => h.2 hr), hr, sub_zero, max_eq_right hnonneg]
    · rw [if_pos ⟨rfl, hr⟩]

/-- An approved appeal leaves the profile consistent exactly under its condition. -/
theorem consistent_approval_iff (hp : p.Regular) (ht : 0 ≤ t.auctionSlashed) (h : p.Consistent t) (agent : Address)
    (restoredAmount : ℕ) :
    (profileEffect (.appealApproved slashId agent restoredAmount) p).Consistent
        (t.count (.staking (.appealApproved slashId agent restoredAmount))) ↔
      Countable p t (.staking (.appealApproved slashId agent restoredAmount)) := by
  rw [consistent_iff (regular_profileEffect _ hp)]
  obtain ⟨staking, hstaking, -, hsync⟩ := hp.staking
  obtain ⟨hdue, hdue_le⟩ := due_le hp slashId
  have hrecorded := h.recorded
  have hstaked := h.staked
  have hslashed := h.slashed
  have hle : p.due slashId ≤ p.economics.totalSlashed := by linarith
  obtain ⟨hhistory, htotal, hamount⟩ := profileEffect_eq (.appealApproved slashId agent restoredAmount) hstaking
  obtain ⟨hcharged, htotal'⟩ := @approved_eq p slashId (hdue.trans hle) agent restoredAmount
  have hcharged : (profileEffect (.appealApproved slashId agent restoredAmount) p).charged =
      p.charged - p.due slashId := by
    rw [← hcharged, AgentProfile.charged, hhistory]
    rfl
  have hamount : (profileEffect (.appealApproved slashId agent restoredAmount) p).economics.stakedAmount =
      p.economics.stakedAmount + toGuard restoredAmount := by
    rw [hamount, hsync]
    rfl
  have hzero := toGuard_eq_zero restoredAmount
  rw [hcharged, htotal, htotal', hamount]
  simp only [Tally.count, Countable, ← hzero]
  clear hzero hamount htotal htotal' hcharged hhistory
  generalize toGuard restoredAmount = r
  by_cases hentry : p.entry? slashId = none
  · -- A slash that the profile does not know can only be given back nothing.
    have hnone : p.due slashId = 0 := by rw [AgentProfile.due, hentry]; rfl
    rw [if_pos hentry, hnone]
    by_cases hmem : slashId ∈ t.restorations
    · simp only [hmem, if_true, true_imp_iff]
      constructor
      · rintro ⟨-, hr, -⟩
        have hr : r = 0 := by linarith
        exact ⟨hr, hr⟩
      · rintro ⟨rfl, -⟩
        exact ⟨by linarith, by linarith, hslashed⟩
    · simp only [hmem, if_false, false_imp_iff, and_true]
      constructor
      · rintro ⟨-, -, hr⟩
        linarith
      · rintro rfl
        exact ⟨by linarith, by linarith, by linarith⟩
  · rw [if_neg hentry]
    by_cases hmem : slashId ∈ t.restorations
    · simp only [hmem, if_true, true_imp_iff]
      constructor
      · rintro ⟨hmax, hr, -⟩
        have hr : r = 0 := by linarith
        rw [hr, sub_zero, max_eq_right (hdue.trans hle)] at hmax
        exact ⟨by linarith, hr⟩
      · rintro ⟨hr, hzero⟩
        rw [← hr, hzero, sub_zero, max_eq_right (hdue.trans hle)]
        exact ⟨by linarith, by linarith, hslashed⟩
    · simp only [hmem, if_false, false_imp_iff, and_true]
      constructor
      · rintro ⟨hmax, -, hmax'⟩
        linarith
      · rintro rfl
        rw [max_eq_right (sub_nonneg.mpr hle)]
        exact ⟨by linarith, by linarith, by linarith⟩

theorem consistent_appeal_iff (hp : p.Regular) (h : p.Consistent t) {status : AppealStatus}
    (hstatus : status ≠ .approved)
    {reason : Option String} (he : slashEffect e p = p.updateSlashAppeal slashId status reason 0)
    (hupdate : stakingUpdate (p.staking.getD .empty) e = none) (hcount : t.count (.staking e) = t) :
    (profileEffect e p).Consistent (t.count (.staking e)) ↔
      ∀ entry, p.entry? slashId = some entry → entry.appealStatus = .approved → entry.slashedAmount = 0 := by
  obtain ⟨staking, hstaking, -, hsync⟩ := hp.staking
  rw [hstaking, Option.getD_some] at hupdate
  obtain ⟨hhistory, htotal, hamount⟩ := profileEffect_eq e hstaking
  rw [hupdate] at hamount
  rw [consistent_iff (regular_profileEffect _ hp), hcount, AgentProfile.charged, hhistory, htotal, hamount, he]
  have hrecorded := h.recorded
  rcases updateSlashAppeal_cases p slashId status reason 0 with
    ⟨hnone, hsame⟩ | ⟨before, entry, after, entry', hentry, hold, hnew, hsize, hstatus', heconomics⟩
  · rw [hsame, hnone]
    exact iff_of_true ⟨hrecorded, h.staked, h.slashed⟩ (by simp)
  · rw [heconomics, if_neg (by simp), ← AgentProfile.charged, charged_split hnew]
    have hcharged : entry'.charged = entry.slashedAmount := by
      rw [SlashEntry.charged, hstatus', if_neg hstatus, hsize]
    have hbefore := charged_split hold
    rw [hcharged]
    have hkeeps : p.economics.totalSlashed = entry.slashedAmount +
        ((before ++ after).map SlashEntry.charged).sum + t.auctionSlashed ↔ entry.charged = entry.slashedAmount := by
      constructor <;> intro hsum <;> linarith
    refine (and_iff_left ⟨h.staked, h.slashed⟩).trans (hkeeps.trans ?_)
    rw [hentry, SlashEntry.charged]
    constructor
    · rintro hsum entry' hsome happroved
      obtain rfl := Option.some.inj hsome
      rw [← hsum, if_pos happroved]
    · intro hall
      split_ifs with happroved
      · exact (hall entry rfl happroved).symm
      · rfl

theorem consistent_plain (hp : p.Regular) (h : p.Consistent t) (heffect : slashEffect e p = p)
    (hslashed : (t.count (.staking e)).slashed = t.slashed)
    (hauction : (t.count (.staking e)).auctionSlashed = t.auctionSlashed)
    (hstaked : ∀ staking, p.staking = some staking → p.economics.stakedAmount = staking.totalStaked →
      ((stakingUpdate staking e).bind StakingUpdate.totalStaked).getD p.economics.stakedAmount =
        (t.count (.staking e)).staked) :
    (profileEffect e p).Consistent (t.count (.staking e)) := by
  rw [consistent_iff (regular_profileEffect _ hp)]
  obtain ⟨staking, hstaking, -, hsync⟩ := hp.staking
  obtain ⟨hhistory, htotal, hamount⟩ := profileEffect_eq e hstaking
  rw [AgentProfile.charged, hhistory, htotal, hamount, heffect, hslashed, hauction]
  exact ⟨h.recorded, hstaked staking hstaking hsync, h.slashed⟩

theorem consistent_staking_iff (hp : p.Regular) (ht : 0 ≤ t.auctionSlashed) (h : p.Consistent t)
    (e : StakingManager.Event) :
    (profileEffect e p).Consistent (t.count (.staking e)) ↔ Countable p t (.staking e) := by
  cases e with
  | slashInitiated slashId agent reason slashedAmount bps evidenceHash jobId =>
    exact consistent_slash_iff hp h agent reason slashedAmount bps evidenceHash jobId
  | appealApproved slashId agent restoredAmount => exact consistent_approval_iff hp ht h agent restoredAmount
  | appealFiled slashId agent reason => exact consistent_appeal_iff hp h (by decide) rfl rfl rfl
  | appealDenied slashId agent finalizedAmount => exact consistent_appeal_iff hp h (by decide) rfl rfl rfl
  | unstakeCompleted agent amount =>
    refine iff_of_true (consistent_plain hp h rfl rfl rfl fun staking _ hsync => ?_) trivial
    change max 0 (staking.totalStaked - toGuard amount) = max 0 (t.staked - toGuard amount)
    rw [← hsync, h.staked]
  | staked => exact iff_of_true (consistent_plain hp h rfl rfl rfl fun _ _ _ => rfl) trivial
  | _ => exact iff_of_true (consistent_plain hp h rfl rfl rfl fun _ _ _ => h.staked) trivial

end Staking

/-! ## Events of the other contracts -/

/-- Neither the stake nor the slashes have changed. -/
structure Untouched (p p' : AgentProfile) : Prop where
  staking : p'.staking = p.staking
  slashHistory : p'.slashHistory = p.slashHistory
  stakedAmount : p'.economics.stakedAmount = p.economics.stakedAmount
  totalSlashed : p'.economics.totalSlashed = p.economics.totalSlashed

theorem untouched_metrics {u : MetricsUpdate} (hu : u.totalSlashed = 0) (p : AgentProfile) :
    Untouched p (p.updateAgentMetrics u) where
  staking := rfl
  slashHistory := rfl
  stakedAmount := rfl
  totalSlashed := by
    change p.economics.totalSlashed + u.totalSlashed = p.economics.totalSlashed
    rw [hu, add_zero]

theorem respects_untouched : Respects (fun _ _ => True) Untouched where
  job_refl _ := trivial
  job_trans _ _ _ _ _ := trivial
  profile_refl _ := ⟨rfl, rfl, rfl, rfl⟩
  profile_trans _ _ _ h h' := ⟨h'.staking.trans h.staking, h'.slashHistory.trans h.slashHistory,
    h'.stakedAmount.trans h.stakedAmount, h'.totalSlashed.trans h.totalSlashed⟩
  jobId _ _ := trivial
  transition _ _ _ _ _ := trivial
  participant _ _ := trivial
  auction _ _ := trivial
  bids _ _ _ := trivial
  payments _ _ := trivial
  metrics p _ hu := untouched_metrics hu p

theorem Untouched.keeps {p' : AgentProfile} (h : Untouched p p') :
    (p.Regular → p'.Regular) ∧ (p'.Consistent t ↔ p.Consistent t) := by
  have hcharged : p'.charged = p.charged := by rw [AgentProfile.charged, h.slashHistory]; rfl
  refine ⟨fun hp => ⟨?_, ?_⟩, ?_⟩
  · rw [h.staking, h.stakedAmount]
    exact hp.staking
  · rw [h.slashHistory]
    exact hp.entries
  · constructor
    · rintro ⟨hsync, hrecorded, hstaked, hslashed⟩
      rw [h.staking, h.stakedAmount] at hsync
      rw [h.totalSlashed] at hrecorded hslashed
      rw [h.stakedAmount] at hstaked
      exact ⟨hsync, hcharged ▸ hrecorded, hstaked, hslashed⟩
    · rintro ⟨hsync, hrecorded, hstaked, hslashed⟩
      rw [← h.staking, ← h.stakedAmount] at hsync
      rw [← h.totalSlashed] at hrecorded hslashed
      rw [← h.stakedAmount] at hstaked
      exact ⟨hsync, hcharged.symm ▸ hrecorded, hstaked, hslashed⟩

/-- The profile after a slash of `AuditAuction`. -/
def slashedInAuction (jobId slashedAmount slashBasisPoints : ℕ) (p : AgentProfile) : AgentProfile :=
  (p.updateAgentReputation (-slashBasisPoints) "slash_penalty" jobId).updateAgentMetrics
    { totalSlashed := toGuard slashedAmount }

theorem slashedInAuction_keeps (jobId slashedAmount slashBasisPoints : ℕ) (agent : Address) :
    (p.Regular → (slashedInAuction jobId slashedAmount slashBasisPoints p).Regular) ∧
      (p.Consistent t → (slashedInAuction jobId slashedAmount slashBasisPoints p).Consistent
        (t.count (.auction (.agentSlashed jobId agent slashedAmount slashBasisPoints)))) := by
  refine ⟨fun hp => ⟨hp.staking, hp.entries⟩, fun h => ⟨h.synced, ?_, h.staked, ?_⟩⟩
  · change p.economics.totalSlashed + toGuard slashedAmount = p.charged + (t.auctionSlashed + toGuard slashedAmount)
    rw [h.recorded, add_assoc]
  · change p.economics.totalSlashed + toGuard slashedAmount = t.slashed + toGuard slashedAmount
    rw [h.slashed]

end AuditGuard.Inft
