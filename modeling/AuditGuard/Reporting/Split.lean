import AuditGuard.Library.OrderedMap
import AuditGuard.Library.ProRata
import AuditGuard.Reporting.Model

/-!
# Reports: how a settlement is split

The loop of `settleAll` that adds up what the findings of each winner count for, and the payments that come of it. Here
addresses are texts: two of them are the same if they are in lower case, and the findings of one agent may spell its
address in several ways. The split is exact, and depends neither on the order of the findings nor on how the counts are
spread over them (`settlement_split`).

Counts are natural numbers, and the sums are exact, as the doubles of the code are below 2^53. With the addresses of
the model of the reports, the payments are those of its manifest (`buildManifest_eq`).
-/

namespace AuditGuard.Reporting.Split

open Orchestrator (AddressText AgentEntry)

/-- What `settleAll` asks of a text: `ethers.isAddress`, `toLowerCase`, and whether it is other than empty. -/
structure Texts (Text : Type) where
  isAddress : Text → Bool
  toLowerCase : Text → Text
  truthy : Text → Bool

/-- An entry of `job.findings`. -/
structure Finding (Text : Type) where
  agentId : String
  evmAddress : Option Text
  findingsCount : ℕ
  criticalCount : ℕ

/-- An entry of `contributorScores`. -/
structure Contribution (Text : Type) where
  recipient : Text
  agentId : String
  score : ℕ
  critical : ℕ

/-- An entry of `payments`. -/
structure Payment (Text : Type) where
  recipient : Text
  basePayment : ℕ
  bonus : ℕ
  agentId : String
deriving DecidableEq

variable {Text : Type} [DecidableEq Text] (texts : Texts Text) (roster : String → Option Text) (winners : List Text)

/-- The score of a finding. -/
def Finding.score (finding : Finding Text) : ℕ := finding.findingsCount + 2 * finding.criticalCount

/-- The address of a finding, which is that of the roster if it has none itself. -/
def Finding.address (finding : Finding Text) : Option Text :=
  (finding.evmAddress.filter texts.isAddress) <|> roster finding.agentId

/-- The address that a finding counts for, if it is that of a winner. -/
def Finding.contributor (finding : Finding Text) : Option Text :=
  (finding.address texts roster).filter fun address =>
    texts.truthy address && decide (texts.toLowerCase address ∈ winners.map texts.toLowerCase)

/-- The body of the loop over the findings. -/
def addContribution (contributorScores : OrderedMap Text (Contribution Text)) (finding : Finding Text) :
    OrderedMap Text (Contribution Text) :=
  match finding.contributor texts roster winners with
  | none => contributorScores
  | some address =>
    let current := (contributorScores.get (texts.toLowerCase address)).getD ⟨address, finding.agentId, 0, 0⟩
    contributorScores.set (texts.toLowerCase address)
      { current with
        score := current.score + finding.score
        critical := current.critical + finding.criticalCount }

/-- `contributorScores`. -/
def contributorScores (findings : List (Finding Text)) : OrderedMap Text (Contribution Text) :=
  findings.foldl (addContribution texts roster winners) OrderedMap.empty

/-- `scores`. -/
def scores (findings : List (Finding Text)) : List (Contribution Text) :=
  ((contributorScores texts roster winners findings).entries.map Prod.snd).filter fun f => 0 < f.score

variable (cfg : Config)

/-- The payment of a contributor. -/
def toPayment (totalScore : ℕ) (f : Contribution Text) : Payment Text where
  recipient := f.recipient
  basePayment := cfg.totalGuard * f.score / totalScore
  bonus := cfg.bonusPerCritical * f.critical
  agentId := f.agentId

/-- The payments that `settleAll` has a preview calculated of, if it comes to that. -/
def settleAll (findings : List (Finding Text)) : Option (List (Payment Text)) :=
  let scores := scores texts roster winners findings
  if findings = [] ∨ winners = [] ∨ scores = [] then none
  else
    let totalScore := (scores.map Contribution.score).sum
    some (scores.map (toPayment cfg (if totalScore = 0 then 1 else totalScore)))

/-! ## What an address is credited with -/

variable {texts roster winners cfg} {findings findings' : List (Finding Text)} {finding : Finding Text} {k : Text}

variable (texts roster winners) in
/-- The key under which a finding counts. -/
def Finding.key (finding : Finding Text) : Option Text :=
  (finding.contributor texts roster winners).map texts.toLowerCase

variable (texts roster winners) in
/-- What is credited to the address `k`. -/
def credited (count : Finding Text → ℕ) (findings : List (Finding Text)) (k : Text) : ℕ :=
  ((findings.filter fun finding => finding.key texts roster winners = some k).map count).sum

variable (texts roster winners) in
/-- The score of all winners. -/
def totalScore (findings : List (Finding Text)) : ℕ :=
  ((findings.filter fun finding => (finding.key texts roster winners).isSome).map Finding.score).sum

theorem credited_append (count : Finding Text → ℕ) (findings findings' : List (Finding Text)) (k : Text) :
    credited texts roster winners count (findings ++ findings') k =
      credited texts roster winners count findings k + credited texts roster winners count findings' k := by
  unfold credited
  rw [List.filter_append, List.map_append, List.sum_append]

theorem credited_singleton (count : Finding Text → ℕ) (finding : Finding Text) (k : Text) :
    credited texts roster winners count [finding] k =
      if finding.key texts roster winners = some k then count finding else 0 := by
  unfold credited
  by_cases hkey : finding.key texts roster winners = some k <;> simp [hkey]

theorem totalScore_append (findings findings' : List (Finding Text)) :
    totalScore texts roster winners (findings ++ findings') =
      totalScore texts roster winners findings + totalScore texts roster winners findings' := by
  unfold totalScore
  rw [List.filter_append, List.map_append, List.sum_append]

/-- What has been added up of the findings so far. -/
structure Tally (texts : Texts Text) (roster : String → Option Text) (winners : List Text)
    (findings : List (Finding Text)) (m : OrderedMap Text (Contribution Text)) : Prop where
  recipient : ∀ k c, m.get k = some c → texts.toLowerCase c.recipient = k ∧ k ∈ winners.map texts.toLowerCase
  score : ∀ k, (m.get k).elim 0 Contribution.score = credited texts roster winners Finding.score findings k
  critical : ∀ k, (m.get k).elim 0 Contribution.critical = credited texts roster winners Finding.criticalCount findings k
  total : (m.entries.map fun e => e.2.score).sum = totalScore texts roster winners findings

/-- One more finding. -/
theorem Tally.snoc {m : OrderedMap Text (Contribution Text)} (h : Tally texts roster winners findings m)
    (finding : Finding Text) :
    Tally texts roster winners (findings ++ [finding]) (addContribution texts roster winners m finding) := by
  unfold addContribution
  cases haddress : finding.contributor texts roster winners with
  | none =>
    -- The finding counts for nobody.
    have hkey : finding.key texts roster winners = none := by rw [Finding.key, haddress, Option.map_none]
    have hcredit : ∀ count k, credited texts roster winners count [finding] k = 0 := by
      intro count k
      rw [credited_singleton, hkey, if_neg (by simp)]
    refine ⟨h.recipient, fun k => ?_, fun k => ?_, ?_⟩
    · rw [credited_append, hcredit]
      exact h.score k
    · rw [credited_append, hcredit]
      exact h.critical k
    · rw [totalScore_append, h.total]
      simp [totalScore, hkey]
  | some address =>
    have hkey : finding.key texts roster winners = some (texts.toLowerCase address) := by
      rw [Finding.key, haddress, Option.map_some]
    have hwinner : texts.toLowerCase address ∈ winners.map texts.toLowerCase := by
      have hcounts := (Option.filter_eq_some_iff.mp haddress).2
      exact of_decide_eq_true (Bool.and_eq_true_iff.mp hcounts).2
    dsimp only
    generalize hcurrent : (m.get (texts.toLowerCase address)).getD ⟨address, finding.agentId, 0, 0⟩ = current
    have hrecipient : texts.toLowerCase current.recipient = texts.toLowerCase address := by
      rw [← hcurrent]
      cases hget : m.get (texts.toLowerCase address) with
      | none => rfl
      | some c => exact (h.recipient _ _ hget).1
    have hscore : (m.get (texts.toLowerCase address)).elim 0 Contribution.score = current.score := by
      rw [← hcurrent]
      cases m.get (texts.toLowerCase address) <;> rfl
    have hcritical : (m.get (texts.toLowerCase address)).elim 0 Contribution.critical = current.critical := by
      rw [← hcurrent]
      cases m.get (texts.toLowerCase address) <;> rfl
    refine ⟨fun k c hget => ?_, fun k => ?_, fun k => ?_, ?_⟩
    · rw [OrderedMap.get_set] at hget
      split_ifs at hget with hk
      · obtain rfl := Option.some.inj hget
        exact ⟨by rw [hk]; exact hrecipient, by rw [hk]; exact hwinner⟩
      · exact h.recipient k c hget
    · rw [credited_append, credited_singleton, hkey, ← h.score, OrderedMap.get_set]
      split_ifs with hk hk'
      · rw [hk, hscore]
        rfl
      · exact absurd (congrArg some hk).symm hk'
      · exact absurd (Option.some.inj ‹_›).symm hk
      · rfl
    · rw [credited_append, credited_singleton, hkey, ← h.critical, OrderedMap.get_set]
      split_ifs with hk hk'
      · rw [hk, hcritical]
        rfl
      · exact absurd (congrArg some hk).symm hk'
      · exact absurd (Option.some.inj ‹_›).symm hk
      · rfl
    · rw [totalScore_append, ← h.total]
      have hset := OrderedMap.sum_map_set (fun e => e.2.score) m (texts.toLowerCase address)
        { current with
          score := current.score + finding.score
          critical := current.critical + finding.criticalCount }
      have hone : totalScore texts roster winners [finding] = finding.score := by simp [totalScore, hkey]
      dsimp only at hset
      have hold : (m.get (texts.toLowerCase address)).elim 0 (fun old => old.score) = current.score := hscore
      omega

/-- The map of the contributors has what is credited to each. -/
theorem tally (findings : List (Finding Text)) :
    Tally texts roster winners findings (contributorScores texts roster winners findings) := by
  induction findings using List.reverseRecOn with
  | nil => exact ⟨fun k c h => by simp [contributorScores, OrderedMap.empty, OrderedMap.get] at h, fun _ => rfl,
      fun _ => rfl, rfl⟩
  | append_singleton findings finding ih =>
    unfold contributorScores at ih ⊢
    rw [List.foldl_append]
    exact ih.snoc finding

/-- A score is what is credited to a winner. -/
theorem scores_credited {c : Contribution Text} (hc : c ∈ scores texts roster winners findings) :
    0 < c.score ∧ texts.toLowerCase c.recipient ∈ winners.map texts.toLowerCase ∧
      c.score = credited texts roster winners Finding.score findings (texts.toLowerCase c.recipient) ∧
      c.critical = credited texts roster winners Finding.criticalCount findings (texts.toLowerCase c.recipient) := by
  have htally : Tally texts roster winners findings (contributorScores texts roster winners findings) := tally findings
  obtain ⟨hmem, hpositive⟩ := List.mem_filter.mp hc
  obtain ⟨⟨k, c⟩, he, rfl⟩ := List.mem_map.mp hmem
  have hget := OrderedMap.get_eq_some_iff.mpr he
  obtain ⟨hrecipient, hwinner⟩ := htally.recipient k c hget
  have hscore := htally.score k
  have hcritical := htally.critical k
  rw [hget] at hscore hcritical
  dsimp only at hrecipient ⊢
  rw [hrecipient]
  exact ⟨of_decide_eq_true hpositive, hwinner, hscore, hcritical⟩

/-- Whoever is credited with anything has a score. -/
theorem exists_scores (hk : 0 < credited texts roster winners Finding.score findings k) :
    ∃ c ∈ scores texts roster winners findings, texts.toLowerCase c.recipient = k := by
  have htally : Tally texts roster winners findings (contributorScores texts roster winners findings) := tally findings
  have hscore := htally.score k
  cases hget : (contributorScores texts roster winners findings).get k with
  | none =>
    rw [hget, Option.elim_none] at hscore
    omega
  | some c =>
    rw [hget, Option.elim_some] at hscore
    refine ⟨c, List.mem_filter.mpr ⟨?_, decide_eq_true (by omega)⟩, (htally.recipient k c hget).1⟩
    exact List.mem_map_of_mem (OrderedMap.get_eq_some_iff.mp hget)

/-- Nobody is scored twice. -/
theorem scores_nodup (findings : List (Finding Text)) :
    ((scores texts roster winners findings).map fun c => texts.toLowerCase c.recipient).Nodup := by
  have htally : Tally texts roster winners findings (contributorScores texts roster winners findings) := tally findings
  unfold scores
  rw [List.filter_map, List.map_map]
  have hkeys : ∀ e ∈ (contributorScores texts roster winners findings).entries.filter
      ((fun f => decide (0 < f.score)) ∘ Prod.snd),
      ((fun c : Contribution Text => texts.toLowerCase c.recipient) ∘ Prod.snd) e = e.1 := by
    rintro ⟨k, c⟩ he
    exact (htally.recipient k c (OrderedMap.get_eq_some_iff.mpr (List.mem_of_mem_filter he))).1
  rw [List.map_congr_left hkeys]
  exact (List.filter_sublist.map Prod.fst).nodup (contributorScores texts roster winners findings).nodup

theorem sum_map_filter_pos {α : Type*} (f : α → ℕ) (l : List α) :
    ((l.filter fun a => 0 < f a).map f).sum = (l.map f).sum := by
  induction l with
  | nil => rfl
  | cons a l ih =>
    rw [List.filter_cons, List.map_cons, List.sum_cons, ← ih]
    split_ifs with ha
    · rw [List.map_cons, List.sum_cons]
    · have hzero : f a = 0 := by simpa using ha
      omega

/-- The scores add up to the total. -/
theorem sum_scores (findings : List (Finding Text)) :
    ((scores texts roster winners findings).map Contribution.score).sum = totalScore texts roster winners findings := by
  have htally : Tally texts roster winners findings (contributorScores texts roster winners findings) := tally findings
  rw [← htally.total, scores, sum_map_filter_pos, List.map_map]
  rfl

theorem totalScore_pos (h : scores texts roster winners findings ≠ []) :
    0 < totalScore texts roster winners findings := by
  obtain ⟨c, hc⟩ := List.exists_mem_of_ne_nil _ h
  rw [← sum_scores]
  calc 0 < c.score := (scores_credited hc).1
    _ ≤ _ := List.single_le_sum (fun _ _ => Nat.zero_le _) _ (List.mem_map_of_mem hc)

theorem ne_nil_of_scores (h : scores texts roster winners findings ≠ []) : findings ≠ [] ∧ winners ≠ [] := by
  constructor
  · rintro rfl
    exact h rfl
  · rintro rfl
    obtain ⟨c, hc⟩ := List.exists_mem_of_ne_nil _ h
    simpa using (scores_credited hc).2.1

/-- The payments are made of the scores, if there are any. -/
theorem settleAll_eq (findings : List (Finding Text)) :
    settleAll texts roster winners cfg findings =
      if scores texts roster winners findings = [] then none
      else some ((scores texts roster winners findings).map
        (toPayment cfg (totalScore texts roster winners findings))) := by
  unfold settleAll
  dsimp only
  by_cases hscores : scores texts roster winners findings = []
  · rw [if_pos (.inr (.inr hscores)), if_pos hscores]
  · obtain ⟨hfindings, hwinners⟩ := ne_nil_of_scores hscores
    have htotal := totalScore_pos hscores
    rw [if_neg (by simp [hfindings, hwinners, hscores]), if_neg hscores, sum_scores, if_neg htotal.ne']

/-! ## The split -/

/-- The payments split the pool among the winners by what their findings count for. -/
structure Exact (texts : Texts Text) (roster : String → Option Text) (winners : List Text) (cfg : Config)
    (findings : List (Finding Text)) (payments : List (Payment Text)) : Prop where
  distinct : (payments.map fun p => texts.toLowerCase p.recipient).Nodup
  winner : ∀ p ∈ payments, texts.toLowerCase p.recipient ∈ winners.map texts.toLowerCase
  positive : ∀ p ∈ payments, 0 < credited texts roster winners Finding.score findings (texts.toLowerCase p.recipient)
  basePayment : ∀ p ∈ payments, p.basePayment =
    cfg.totalGuard * credited texts roster winners Finding.score findings (texts.toLowerCase p.recipient) /
      totalScore texts roster winners findings
  sum_le : (payments.map Payment.basePayment).sum ≤ cfg.totalGuard
  lt_sum : cfg.totalGuard < (payments.map Payment.basePayment).sum + payments.length
  bonus : ∀ p ∈ payments, p.bonus =
    cfg.bonusPerCritical * credited texts roster winners Finding.criticalCount findings (texts.toLowerCase p.recipient)

/-- The payments of a settlement split the pool. -/
theorem settleAll_exact {payments : List (Payment Text)}
    (h : settleAll texts roster winners cfg findings = some payments) :
    Exact texts roster winners cfg findings payments := by
  rw [settleAll_eq] at h
  split_ifs at h with hscores
  obtain rfl := Option.some.inj h
  have hbase : ((scores texts roster winners findings).map
      (toPayment cfg (totalScore texts roster winners findings))).map Payment.basePayment =
      ((scores texts roster winners findings).map Contribution.score).map fun w =>
        cfg.totalGuard * w / ((scores texts roster winners findings).map Contribution.score).sum := by
    rw [sum_scores, List.map_map, List.map_map]
    rfl
  have hpositive : 0 < ((scores texts roster winners findings).map Contribution.score).sum := by
    rw [sum_scores]
    exact totalScore_pos hscores
  constructor
  · rw [List.map_map]
    exact scores_nodup findings
  · intro p hp
    obtain ⟨c, hc, rfl⟩ := List.mem_map.mp hp
    exact (scores_credited hc).2.1
  · intro p hp
    obtain ⟨c, hc, rfl⟩ := List.mem_map.mp hp
    obtain ⟨hscore, -, hcredited, -⟩ := scores_credited hc
    exact hcredited ▸ hscore
  · intro p hp
    obtain ⟨c, hc, rfl⟩ := List.mem_map.mp hp
    obtain ⟨-, -, hcredited, -⟩ := scores_credited hc
    simp only [toPayment, hcredited]
  · rw [hbase]
    exact ProRata.sum_div_le _ hpositive
  · have hlength := ProRata.lt_sum_div cfg.totalGuard hpositive
    rw [hbase]
    simpa using hlength
  · intro p hp
    obtain ⟨c, hc, rfl⟩ := List.mem_map.mp hp
    obtain ⟨-, -, -, hcredited⟩ := scores_credited hc
    simp only [toPayment, hcredited]

/-- The findings come in another order, or one of them is split into several that count for the same address and have
the same totals. -/
inductive Regrouped (texts : Texts Text) (roster : String → Option Text) (winners : List Text) :
    List (Finding Text) → List (Finding Text) → Prop
  | perm {findings findings' : List (Finding Text)} (h : findings.Perm findings') :
      Regrouped texts roster winners findings findings'
  | split {finding : Finding Text} {parts : List (Finding Text)} (rest : List (Finding Text))
      (hkey : ∀ part ∈ parts, part.key texts roster winners = finding.key texts roster winners)
      (hfindings : (parts.map Finding.findingsCount).sum = finding.findingsCount)
      (hcritical : (parts.map Finding.criticalCount).sum = finding.criticalCount) :
      Regrouped texts roster winners (finding :: rest) (parts ++ rest)
  | trans {findings findings' findings'' : List (Finding Text)} (h : Regrouped texts roster winners findings findings')
      (h' : Regrouped texts roster winners findings' findings'') :
      Regrouped texts roster winners findings findings''

omit [DecidableEq Text] in
theorem sum_score (parts : List (Finding Text)) : (parts.map Finding.score).sum =
    (parts.map Finding.findingsCount).sum + 2 * (parts.map Finding.criticalCount).sum := by
  induction parts with
  | nil => rfl
  | cons part parts ih =>
    simp only [List.map_cons, List.sum_cons, Finding.score] at ih ⊢
    omega

/-- Regrouping changes no sum. -/
theorem Regrouped.sum_eq (h : Regrouped texts roster winners findings findings') (p : Option Text → Bool)
    (count : Finding Text → ℕ) (hcount : count = Finding.score ∨ count = Finding.criticalCount) :
    ((findings.filter fun finding => p (finding.key texts roster winners)).map count).sum =
      ((findings'.filter fun finding => p (finding.key texts roster winners)).map count).sum := by
  induction h with
  | perm h => exact ((h.filter _).map count).sum_eq
  | @split finding parts rest hkey hfindings hcritical =>
    have hsum : (parts.map count).sum = count finding := by
      rcases hcount with rfl | rfl
      · rw [sum_score, hfindings, hcritical]
        rfl
      · exact hcritical
    rw [List.filter_append, List.map_append, List.sum_append, List.filter_cons]
    cases hp : p (finding.key texts roster winners) with
    | true =>
      have hparts : ∀ part ∈ parts, p (part.key texts roster winners) = true := fun part hpart =>
        (hkey part hpart).symm ▸ hp
      rw [List.filter_eq_self.mpr hparts, hsum, if_pos rfl, List.map_cons, List.sum_cons]
    | false =>
      have hparts : ∀ part ∈ parts, ¬ p (part.key texts roster winners) = true := fun part hpart => by
        rw [hkey part hpart, hp]
        exact Bool.false_ne_true
      rw [List.filter_eq_nil_iff.mpr hparts, if_neg Bool.false_ne_true]
      simp
  | trans _ _ ih ih' => exact ih.trans ih'

/-- The manifest as a set: who is paid what. -/
def manifest (texts : Texts Text) (payments : List (Payment Text)) : Finset (Text × ℕ × ℕ) :=
  (payments.map fun p => (texts.toLowerCase p.recipient, p.basePayment, p.bonus)).toFinset

/-- What the manifest pays, by what is credited. -/
theorem mem_manifest_iff {payments : List (Payment Text)}
    (h : settleAll texts roster winners cfg findings = some payments) (k : Text) (basePayment bonus : ℕ) :
    (k, basePayment, bonus) ∈ manifest texts payments ↔
      0 < credited texts roster winners Finding.score findings k ∧
        basePayment = cfg.totalGuard * credited texts roster winners Finding.score findings k /
          totalScore texts roster winners findings ∧
        bonus = cfg.bonusPerCritical * credited texts roster winners Finding.criticalCount findings k := by
  have hexact := settleAll_exact h
  unfold manifest
  rw [List.mem_toFinset, List.mem_map]
  constructor
  · rintro ⟨p, hp, heq⟩
    obtain ⟨rfl, rfl, rfl⟩ : texts.toLowerCase p.recipient = k ∧ p.basePayment = basePayment ∧ p.bonus = bonus := by
      simpa only [Prod.mk.injEq] using heq
    exact ⟨hexact.positive p hp, hexact.basePayment p hp, hexact.bonus p hp⟩
  · rintro ⟨hpositive, rfl, rfl⟩
    obtain ⟨c, hc, rfl⟩ := exists_scores hpositive
    rw [settleAll_eq] at h
    split_ifs at h
    obtain rfl := Option.some.inj h
    have hp := List.mem_map_of_mem (f := toPayment cfg (totalScore texts roster winners findings)) hc
    refine ⟨_, hp, ?_⟩
    rw [hexact.basePayment _ hp, hexact.bonus _ hp]
    rfl

/-- Nothing is settled if nothing is credited to anybody. -/
theorem settleAll_eq_none_iff : settleAll texts roster winners cfg findings = none ↔
    ∀ k, credited texts roster winners Finding.score findings k = 0 := by
  rw [settleAll_eq]
  constructor
  · intro h k
    split_ifs at h with hscores
    by_contra hk
    obtain ⟨c, hc, -⟩ := exists_scores (Nat.pos_of_ne_zero hk)
    rw [hscores] at hc
    cases hc
  · intro h
    refine if_pos (List.eq_nil_iff_forall_not_mem.mpr fun c hc => ?_)
    obtain ⟨hpositive, -, hscore, -⟩ := scores_credited hc
    rw [h] at hscore
    omega

/-- The split is exact, and the same however the findings are grouped. -/
theorem settlement_split (texts : Texts Text) (roster : String → Option Text) (winners : List Text) (cfg : Config)
    (findings : List (Finding Text)) :
    (∀ payments, settleAll texts roster winners cfg findings = some payments →
      Exact texts roster winners cfg findings payments) ∧
    ∀ findings', Regrouped texts roster winners findings findings' →
      (settleAll texts roster winners cfg findings').map (manifest texts) =
        (settleAll texts roster winners cfg findings).map (manifest texts) := by
  refine ⟨fun payments h => settleAll_exact h, fun findings' h => ?_⟩
  have hscore : ∀ k, credited texts roster winners Finding.score findings' k =
      credited texts roster winners Finding.score findings k := fun k =>
    (h.sum_eq (fun key => decide (key = some k)) Finding.score (.inl rfl)).symm
  have hcritical : ∀ k, credited texts roster winners Finding.criticalCount findings' k =
      credited texts roster winners Finding.criticalCount findings k := fun k =>
    (h.sum_eq (fun key => decide (key = some k)) Finding.criticalCount (.inr rfl)).symm
  have htotal : totalScore texts roster winners findings' = totalScore texts roster winners findings :=
    (h.sum_eq Option.isSome Finding.score (.inl rfl)).symm
  cases hpaid : settleAll texts roster winners cfg findings with
  | none =>
    have hnone : settleAll texts roster winners cfg findings' = none :=
      settleAll_eq_none_iff.mpr fun k => (hscore k).trans (settleAll_eq_none_iff.mp hpaid k)
    rw [hnone]
  | some payments =>
    cases hpaid' : settleAll texts roster winners cfg findings' with
    | none =>
      have hnone : settleAll texts roster winners cfg findings = none :=
        settleAll_eq_none_iff.mpr fun k => (hscore k).symm.trans (settleAll_eq_none_iff.mp hpaid' k)
      rw [hnone] at hpaid
      cases hpaid
    | some payments' =>
      rw [Option.map_some, Option.map_some, Option.some.injEq]
      ext ⟨k, basePayment, bonus⟩
      rw [mem_manifest_iff hpaid, mem_manifest_iff hpaid', hscore, hcritical, htotal]

/-- Letters, in which case does not count. -/
def sampleTexts : Texts Char := ⟨fun _ => true, Char.toLower, fun _ => true⟩

/-- Findings of two agents, one of which has its letter in both cases. -/
def sampleFindings : List (Finding Char) :=
  [⟨"static", some 'A', 1, 1⟩, ⟨"fuzzer", some 'b', 1, 0⟩, ⟨"static", some 'a', 2, 0⟩]

/-- Five parts of thirty GUARD go to the first, and one to the second, in either order. -/
theorem settlement_split_sample :
    Exact sampleTexts (fun _ => none) ['a', 'B'] sampleConfig sampleFindings
        [⟨'A', 25 * 10^8, 2 * 10^8, "static"⟩, ⟨'b', 5 * 10^8, 0, "fuzzer"⟩] ∧
      (settleAll sampleTexts (fun _ => none) ['a', 'B'] sampleConfig sampleFindings.reverse).map
          (manifest sampleTexts) =
        (settleAll sampleTexts (fun _ => none) ['a', 'B'] sampleConfig sampleFindings).map (manifest sampleTexts) := by
  have hsplit := settlement_split sampleTexts (fun _ => none) ['a', 'B'] sampleConfig sampleFindings
  have hsettle : settleAll sampleTexts (fun _ => none) ['a', 'B'] sampleConfig sampleFindings =
      some [⟨'A', 25 * 10^8, 2 * 10^8, "static"⟩, ⟨'b', 5 * 10^8, 0, "fuzzer"⟩] := by decide +kernel
  have hreverse : sampleFindings.Perm sampleFindings.reverse := (List.reverse_perm sampleFindings).symm
  exact ⟨hsplit.1 _ hsettle, hsplit.2 _ (.perm hreverse)⟩

/-! ## The split in the model of the reports -/

section

variable {agents : List AgentEntry} {winners : List AddressText} {cfg : Config} {findings : List (Finding AddressText)}

/-- The addresses of the messages and of the roster. -/
def addressTexts : Texts AddressText := ⟨Reporting.isAddress, Reporting.toLowerCase, AddressText.truthy⟩

/-- A finding, of which the hash does not matter here. -/
def Finding.toReporting (finding : Finding AddressText) : Reporting.Finding :=
  ⟨finding.agentId, finding.evmAddress, "", finding.findingsCount, finding.criticalCount⟩

/-- A contribution in the model of the reports. -/
def Contribution.toReporting (c : Contribution AddressText) : Reporting.Contribution :=
  ⟨c.recipient, c.agentId, c.score, c.critical⟩

/-- A payment in the model of the reports. -/
def Payment.toReporting (p : Payment AddressText) : Reporting.Payment := ⟨p.recipient, p.basePayment, p.bonus, p.agentId⟩

theorem score_toReporting (finding : Finding AddressText) : finding.toReporting.score = (finding.score : ℚ) := by
  simp [Finding.toReporting, Finding.score, Reporting.Finding.score]

/-- A finding is added in both models alike. -/
theorem addContribution_toReporting {m : OrderedMap AddressText (Contribution AddressText)}
    (hkeys : ∀ e ∈ m.entries, Reporting.toLowerCase e.2.recipient = e.1) (finding : Finding AddressText) :
    Reporting.addContribution agents winners (m.entries.map fun e => e.2.toReporting) finding.toReporting =
      (addContribution addressTexts (rosterAddress agents) winners m finding).entries.map fun e => e.2.toReporting := by
  have hrecipient : finding.toReporting.recipient agents = finding.address addressTexts (rosterAddress agents) := rfl
  have hcontributor : finding.contributor addressTexts (rosterAddress agents) winners =
      (finding.address addressTexts (rosterAddress agents)).filter (Reporting.isWinner winners) := rfl
  unfold Reporting.addContribution addContribution
  rw [hrecipient, hcontributor]
  cases finding.address addressTexts (rosterAddress agents) with
  | none => rfl
  | some address =>
    rw [Option.filter_some]
    cases hwinner : Reporting.isWinner winners address with
    | false => simp [hwinner]
    | true =>
      have hany : ((m.entries.map fun e => e.2.toReporting).any fun c =>
          Reporting.toLowerCase c.recipient = Reporting.toLowerCase address) = true ↔
            Reporting.toLowerCase address ∈ m.entries.map Prod.fst := by
        simp only [List.any_map, List.any_eq_true, Function.comp, decide_eq_true_eq, List.mem_map]
        exact exists_congr fun e => and_congr_right fun he => by rw [← hkeys e he]; rfl
      have hlower : addressTexts.toLowerCase address = Reporting.toLowerCase address := rfl
      simp only [hwinner, if_true, Bool.true_eq_false, if_false, hlower]
      by_cases hmem : Reporting.toLowerCase address ∈ m.entries.map Prod.fst
      · rw [if_pos (hany.mpr hmem), OrderedMap.entries_set_of_mem hmem, OrderedMap.overwrite, List.map_map, List.map_map]
        refine List.map_congr_left fun e he => ?_
        dsimp only [Function.comp]
        have hkey : Reporting.toLowerCase e.2.toReporting.recipient = e.1 := hkeys e he
        rw [hkey]
        split_ifs with hsame
        · have hget : m.get (Reporting.toLowerCase address) = some e.2 :=
            OrderedMap.get_eq_some_iff.mpr (by rw [← hsame]; exact he)
          rw [hget, Option.getD_some, score_toReporting]
          simp [Contribution.toReporting, Finding.toReporting]
        · rfl
      · rw [if_neg (hany.not.mpr hmem), OrderedMap.entries_set_of_not_mem hmem, OrderedMap.get_eq_none hmem, List.map_append,
          score_toReporting]
        simp [Contribution.toReporting, Finding.toReporting]

/-- The contributors of both models are the same. -/
theorem contributorScores_toReporting (findings : List (Finding AddressText)) :
    Reporting.contributorScores agents winners (findings.map Finding.toReporting) =
      (contributorScores addressTexts (rosterAddress agents) winners findings).entries.map
        fun e => e.2.toReporting := by
  induction findings using List.reverseRecOn with
  | nil => rfl
  | append_singleton findings finding ih =>
    have htally : Tally addressTexts (rosterAddress agents) winners findings
        (contributorScores addressTexts (rosterAddress agents) winners findings) := tally findings
    unfold Reporting.contributorScores contributorScores at ih ⊢
    unfold contributorScores at htally
    rw [List.map_append, List.foldl_append, List.foldl_append, ih]
    exact addContribution_toReporting
      (fun e he => (htally.recipient e.1 e.2 (OrderedMap.get_eq_some_iff.mpr he)).1) finding

/-- So are the scores that are settled. -/
theorem settlementScores_toReporting (findings : List (Finding AddressText)) :
    settlementScores agents winners (findings.map Finding.toReporting) =
      (scores addressTexts (rosterAddress agents) winners findings).map Contribution.toReporting := by
  unfold settlementScores scores
  rw [contributorScores_toReporting, List.filter_map, List.filter_map, List.map_map]
  refine congrArg (List.map _) (List.filter_congr fun e _ => ?_)
  simp [Contribution.toReporting]

/-- And so is each payment. -/
theorem toPayment_toReporting (totalScore : ℕ) (c : Contribution AddressText) :
    Reporting.toPayment cfg totalScore c.toReporting = some (toPayment cfg totalScore c).toReporting := by
  unfold Reporting.toPayment Contribution.toReporting
  simp only [toBigInt_natCast, Rat.num_natCast, Option.bind_eq_bind, Option.bind_some]
  rfl

/-- The manifest of a report is this split, as long as the counts are natural numbers. -/
theorem buildManifest_eq (findings : List (Finding AddressText)) :
    buildManifest cfg agents winners (findings.map Finding.toReporting) =
      .ok ((settleAll addressTexts (rosterAddress agents) winners cfg findings).map
        (List.map Payment.toReporting)) := by
  unfold buildManifest settleAll
  rw [settlementScores_toReporting]
  simp only [List.map_eq_nil_iff]
  generalize hscores : scores addressTexts (rosterAddress agents) winners findings = cs
  by_cases hnone : findings = [] ∨ winners = [] ∨ cs = []
  · rw [if_pos hnone, if_pos hnone]
    rfl
  · have htotal : (cs.map Contribution.score).sum ≠ 0 := by
      rw [not_or, not_or] at hnone
      rw [← hscores, sum_scores]
      exact (totalScore_pos (hscores ▸ hnone.2.2)).ne'
    have hsum : ((cs.map Contribution.toReporting).map Reporting.Contribution.score).sum =
        ((cs.map Contribution.score).sum : ℕ) := by
      clear hscores hnone htotal
      induction cs with
      | nil => rfl
      | cons c cs ih =>
        simp only [List.map_cons, List.sum_cons, ih, Nat.cast_add]
        rfl
    have hpayments : buildPayments cfg (cs.map Contribution.toReporting) =
        some ((cs.map (toPayment cfg (cs.map Contribution.score).sum)).map Payment.toReporting) := by
      unfold buildPayments
      rw [hsum, toBigInt_natCast, Rat.num_natCast]
      simp only [Option.bind_eq_bind, Option.bind_some]
      rw [List.mapM_map, List.map_map, ← Option.pure_def, ← List.mapM_pure]
      exact congrArg (List.mapM · cs) (funext fun c => toPayment_toReporting _ c)
    rw [if_neg hnone, if_neg hnone, hpayments, if_neg htotal]
    rfl

end

end AuditGuard.Reporting.Split
