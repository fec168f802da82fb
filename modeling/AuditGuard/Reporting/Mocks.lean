import Mathlib.Tactic.Ring
import AuditGuard.Reporting.Agents

/-!
# What generated findings earn

Two runs of a job in which the tools of the agents find the same, and the generators contribute what they like. The
orchestrator counts every finding of a message, mock or not, and leaves out only the critical ones of a message that
is marked as a mock, which only the fuzzer's is. So a generated finding has a weight in the score of its message, and
two runs earn the same exactly if the weights are the same, and the bonuses for the critical ones.
-/

namespace AuditGuard.Reporting

open Evm
open Orchestrator (AddressText AgentEntry)

variable {cfg : Config} {hashOf : List AgentFinding → String} {roster : List AgentEntry} {winners : List AddressText}
  {a b : Audit} {as bs : List Audit}

/-! ## Two runs -/

/-- The audits differ at most in what the generator has contributed. -/
structure SameTools (a b : Audit) : Prop where
  agent : a.agent = b.agent
  evmAddress : a.evmAddress = b.evmAddress
  tools : a.tools = b.tools

/-- A job that is settled. -/
structure Settlement where
  roster : List AgentEntry
  winners : List AddressText
  /-- How many of the messages `settleAll` has read. -/
  read : ℕ

/-- What comes of the findings. -/
@[ext]
structure Earnings where
  manifest : Except String (Option (List Payment))
  deltas : List ReputationUpdate

/-- What comes of the audits of a job: the manifest of `settleAll`, and the deltas of `updateReputation`, which also
goes through the messages that have come in the meantime. -/
def earnings (cfg : Config) (hashOf : List AgentFinding → String) (job : Settlement) (audits : List Audit) : Earnings :=
  let findings := audits.map (Audit.toFinding hashOf job.roster)
  { manifest := buildManifest cfg job.roster job.winners (findings.take job.read)
    deltas := findings.map Finding.reputationUpdate }

/-! ## Weights -/

namespace Audit

variable (a : Audit)

/-- The message counts no critical finding if the fuzzer's tool has none that is not marked as a mock. -/
def silent : Bool :=
  match a.agent with
  | .fuzzer _ => a.tools.all fun f => f.isMock = some true
  | _ => false

/-- How many critical findings of the tool the message counts. -/
def toolCriticals : ℕ := if a.silent = true then 0 else Reporting.criticals a.tools

/-- How many critical findings of the generator the message counts. -/
def generatedCriticals : ℕ := if a.silent = true then 0 else a.draws.countP fun draw => draw.severity = .critical

/-- What the generated findings add to the score of the message. -/
def weight : ℕ := a.draws.length + 2 * a.generatedCriticals

/-- How many critical findings the message counts. -/
def criticalCount : ℕ := a.toolCriticals + a.generatedCriticals

/-- The score of the message. -/
def score : ℕ := a.tools.length + 2 * a.toolCriticals + a.weight

end Audit

theorem countP_findings (agent : Agent) (p : AgentFinding → Bool) (q : Draw → Bool)
    (h : ∀ i draw, p (generateFinding agent i draw) = q draw) (entries : List Entry) :
    (entries.map (Entry.finding agent)).countP p =
      (entries.filterMap Entry.tool?).countP p + (entries.filterMap Entry.draw?).countP q := by
  induction entries with
  | nil => rfl
  | cons entry entries ih =>
    cases entry with
    | tool finding =>
      simp only [List.map_cons, List.filterMap_cons, Entry.tool?, Entry.draw?, Entry.finding, List.countP_cons]
      omega
    | generated i draw =>
      simp only [List.map_cons, List.filterMap_cons, Entry.tool?, Entry.draw?, Entry.finding, List.countP_cons, h]
      omega

theorem all_findings (agent : Agent) (p : AgentFinding → Bool)
    (h : ∀ i draw, p (generateFinding agent i draw) = true) (entries : List Entry) :
    (entries.map (Entry.finding agent)).all p = (entries.filterMap Entry.tool?).all p := by
  induction entries with
  | nil => rfl
  | cons entry entries ih =>
    cases entry with
    | tool finding => simp only [List.map_cons, List.filterMap_cons, Entry.tool?, Entry.finding, List.all_cons, ih]
    | generated i draw =>
      simp only [List.map_cons, List.filterMap_cons, Entry.tool?, Entry.finding, List.all_cons, ih, h, Bool.true_and]

theorem length_findings (a : Audit) : a.findings.length = a.tools.length + a.draws.length := by
  have hcount := countP_findings a.agent (fun _ => true) (fun _ => true) (fun _ _ => rfl) a.entries
  simp only [List.countP_true] at hcount
  exact hcount

theorem criticals_findings (a : Audit) :
    criticals a.findings = criticals a.tools + a.draws.countP fun draw => draw.severity = .critical := by
  refine countP_findings a.agent _ _ (fun i draw => ?_) a.entries
  cases a.agent <;> rfl

theorem isMock_findings {hasExternalData : Bool} (hagent : a.agent = .fuzzer hasExternalData) :
    isMock a.findings = (!a.findings.isEmpty && a.silent) := by
  have hall : (a.findings.all fun f => f.isMock = some true) = a.tools.all fun f => f.isMock = some true := by
    refine all_findings a.agent _ (fun i draw => ?_) a.entries
    rw [hagent]
    rfl
  unfold isMock Audit.silent
  rw [hagent, hall]

theorem criticalCount_eq (a : Audit) :
    a.criticalCount = if a.silent = true then 0 else criticals a.findings := by
  unfold Audit.criticalCount Audit.toolCriticals Audit.generatedCriticals
  split_ifs
  · rfl
  · exact (criticals_findings a).symm

theorem submission_criticalCount (agentId : String) (mock : Bool) (findings : List AgentFinding) (evmAddress : Address) :
    ((submission agentId mock hashOf evmAddress findings).toFinding roster).criticalCount =
      ((if mock = true then 0 else criticals findings : ℕ) : ℚ) := by
  unfold submission FindingsMsg.toFinding
  cases mock <;> simp

theorem toFinding_criticalCount (a : Audit) : (a.toFinding hashOf roster).criticalCount = (a.criticalCount : ℚ) := by
  have hcount := criticalCount_eq a
  unfold Audit.silent at hcount
  unfold Audit.toFinding Agent.submission
  cases hagent : a.agent with
  | staticAnalysis contractType loc =>
    rw [hagent] at hcount
    rw [hcount]
    exact submission_criticalCount _ _ _ _
  | llmContextual hasDepAnalysis =>
    rw [hagent] at hcount
    rw [hcount]
    exact submission_criticalCount _ _ _ _
  | fuzzer hasExternalData =>
    have hmock := isMock_findings hagent
    dsimp only
    unfold fuzzerSubmission
    rw [submission_criticalCount, hmock, criticalCount_eq]
    -- A message without findings is not marked, and has no critical ones.
    cases hempty : a.findings with
    | nil => cases a.silent <;> rfl
    | cons f fs => rfl

theorem toFinding_score (a : Audit) : (a.toFinding hashOf roster).score = (a.score : ℚ) := by
  have hcount : (a.toFinding hashOf roster).findingsCount = (a.findings.length : ℚ) := by
    unfold Audit.toFinding Agent.submission
    cases a.agent <;> rfl
  unfold Finding.score
  rw [hcount, toFinding_criticalCount, length_findings]
  unfold Audit.score Audit.criticalCount Audit.weight
  push_cast
  ring

theorem toFinding_recipient (a : Audit) :
    (a.toFinding hashOf roster).recipient roster = some (.address a.evmAddress) := by
  unfold Audit.toFinding Agent.submission
  cases a.agent <;> rfl

theorem toFinding_agentId (a : Audit) : (a.toFinding hashOf roster).agentId = a.agent.agentId := by
  unfold Audit.toFinding Agent.submission
  cases a.agent <;> rfl

namespace SameTools

theorem silent (h : SameTools a b) : a.silent = b.silent := by
  unfold Audit.silent
  rw [h.agent, h.tools]

theorem toolCriticals (h : SameTools a b) : a.toolCriticals = b.toolCriticals := by
  unfold Audit.toolCriticals
  rw [h.silent, h.tools]

theorem score_iff (h : SameTools a b) : a.score = b.score ↔ a.weight = b.weight := by
  unfold Audit.score
  rw [h.toolCriticals, h.tools]
  omega

end SameTools

/-! ## The deltas -/

theorem deltas_iff (h : List.Forall₂ SameTools as bs) :
    (as.map (Audit.toFinding hashOf roster)).map Finding.reputationUpdate =
        (bs.map (Audit.toFinding hashOf roster)).map Finding.reputationUpdate ↔
      List.Forall₂ (fun a b => a.weight = b.weight) as bs := by
  induction h with
  | nil => exact iff_of_true rfl .nil
  | @cons a b as bs hab _ ih =>
    rw [List.forall₂_cons, ← ih, ← hab.score_iff]
    simp only [List.map_cons, List.cons.injEq, Finding.reputationUpdate, ReputationUpdate.mk.injEq, toFinding_agentId,
      toFinding_score, hab.agent, true_and, Nat.cast_inj]

/-! ## The payments -/

/-- What the messages of an address add up to. -/
def creditedTo (address : Address) (count : Audit → ℕ) (audits : List Audit) : ℕ :=
  ((audits.filter fun a => a.evmAddress = address).map count).sum

theorem creditedTo_snoc (address : Address) (count : Audit → ℕ) (audits : List Audit) (a : Audit) :
    creditedTo address count (audits ++ [a]) =
      creditedTo address count audits + if a.evmAddress = address then count a else 0 := by
  unfold creditedTo
  rw [List.filter_append, List.map_append, List.sum_append]
  by_cases haddress : a.evmAddress = address <;> simp [haddress]

theorem creditedTo_eq_zero {address : Address} (count : Audit → ℕ) (h : ∀ a ∈ as, a.evmAddress ≠ address) :
    creditedTo address count as = 0 := by
  unfold creditedTo
  rw [List.filter_eq_nil_iff.mpr fun a ha => by simpa using h a ha]
  rfl

/-- The contribution is what a winner's messages add up to. -/
def Contribution.Credited (winners : List AddressText) (audits : List Audit) (c : Contribution) : Prop :=
  ∃ address, c.recipient = .address address ∧ isWinner winners (.address address) = true ∧
    c.critical = (creditedTo address Audit.criticalCount audits : ℚ) ∧
    c.score = (creditedTo address Audit.score audits : ℚ)

theorem Contribution.Credited.other {c : Contribution} (h : c.Credited winners as)
    (hother : c.recipient ≠ .address a.evmAddress) : c.Credited winners (as ++ [a]) := by
  obtain ⟨address, hrecipient, hwins, hcritical, hscore⟩ := h
  have hne : a.evmAddress ≠ address := by
    rintro rfl
    exact hother hrecipient
  refine ⟨address, hrecipient, hwins, ?_, ?_⟩
  · rw [creditedTo_snoc, if_neg hne, Nat.add_zero, hcritical]
  · rw [creditedTo_snoc, if_neg hne, Nat.add_zero, hscore]

theorem Contribution.Credited.own {c : Contribution} (h : c.Credited winners as)
    (hown : c.recipient = .address a.evmAddress) :
    Contribution.Credited winners (as ++ [a]) { c with
      score := c.score + (a.toFinding hashOf roster).score
      critical := c.critical + (a.toFinding hashOf roster).criticalCount } := by
  obtain ⟨address, hrecipient, hwins, hcritical, hscore⟩ := h
  obtain rfl := AddressText.address.inj (hrecipient.symm.trans hown)
  refine ⟨_, hrecipient, hwins, ?_, ?_⟩
  · rw [creditedTo_snoc, if_pos rfl, Nat.cast_add, ← hcritical, toFinding_criticalCount]
  · rw [creditedTo_snoc, if_pos rfl, Nat.cast_add, ← hscore, toFinding_score]

/-- The contributions are those of the winners who have sent messages. -/
structure Tally (winners : List AddressText) (audits : List Audit) (scores : List Contribution) : Prop where
  credited : ∀ c ∈ scores, c.Credited winners audits
  complete : ∀ a ∈ audits, isWinner winners (.address a.evmAddress) = true →
    ∃ c ∈ scores, c.recipient = .address a.evmAddress

theorem Tally.find_iff {scores : List Contribution} (h : Tally winners as scores) {c : Contribution} (hc : c ∈ scores)
    (address : Address) : toLowerCase c.recipient = toLowerCase (.address address) ↔ c.recipient = .address address := by
  obtain ⟨address', hrecipient, -⟩ := h.credited c hc
  rw [hrecipient]
  exact Iff.rfl

/-- One more message. -/
theorem Tally.snoc {scores : List Contribution} (h : Tally winners as scores) (a : Audit) :
    Tally winners (as ++ [a]) (addContribution roster winners scores (a.toFinding hashOf roster)) := by
  unfold addContribution
  rw [toFinding_recipient]
  dsimp only
  split_ifs with hwinner hknown
  · -- The address is not that of a winner, so that nothing is credited.
    refine ⟨fun c hc => (h.credited c hc).other fun hown => ?_, fun a' ha' hwins => ?_⟩
    · obtain ⟨address, hrecipient, hwins, -⟩ := h.credited c hc
      rw [AddressText.address.inj (hrecipient.symm.trans hown), hwinner] at hwins
      cases hwins
    · rcases List.mem_append.mp ha' with ha' | ha'
      · exact h.complete a' ha' hwins
      · rw [List.mem_singleton.mp ha', hwinner] at hwins
        cases hwins
  · -- The winner has a contribution, which grows.
    refine ⟨fun c' hc' => ?_, fun a' ha' hwins => ?_⟩
    · obtain ⟨c, hc, rfl⟩ := List.mem_map.mp hc'
      split_ifs with hown
      · exact (h.credited c hc).own ((h.find_iff hc _).mp hown)
      · exact (h.credited c hc).other (mt (h.find_iff hc _).mpr hown)
    · have hhas : ∃ c ∈ scores, c.recipient = .address a'.evmAddress := by
        rcases List.mem_append.mp ha' with ha' | ha'
        · exact h.complete a' ha' hwins
        · obtain ⟨c, hc, hsame⟩ := List.any_eq_true.mp hknown
          rw [List.mem_singleton.mp ha']
          exact ⟨c, hc, (h.find_iff hc _).mp (of_decide_eq_true hsame)⟩
      obtain ⟨c, hc, hrecipient⟩ := hhas
      refine ⟨_, List.mem_map_of_mem hc, ?_⟩
      split_ifs <;> exact hrecipient
  · -- The winner has none yet, and so no messages.
    have hnew : ∀ c ∈ scores, c.recipient ≠ .address a.evmAddress := fun c hc hown =>
      hknown (List.any_eq_true.mpr ⟨c, hc, decide_eq_true ((h.find_iff hc _).mpr hown)⟩)
    have hwins := Bool.of_not_eq_false hwinner
    have hfirst : ∀ a' ∈ as, a'.evmAddress ≠ a.evmAddress := by
      intro a' ha' heq
      obtain ⟨c, hc, hrecipient⟩ := h.complete a' ha' (by rw [heq]; exact hwins)
      exact hnew c hc (by rw [hrecipient, heq])
    refine ⟨fun c hc => ?_, fun a' ha' hwins' => ?_⟩
    · rcases List.mem_append.mp hc with hc | hc
      · exact (h.credited c hc).other (hnew c hc)
      · rw [List.mem_singleton.mp hc]
        refine ⟨a.evmAddress, rfl, hwins, ?_, ?_⟩
        · rw [creditedTo_snoc, if_pos rfl, creditedTo_eq_zero _ hfirst, Nat.zero_add, toFinding_criticalCount]
        · rw [creditedTo_snoc, if_pos rfl, creditedTo_eq_zero _ hfirst, Nat.zero_add, toFinding_score]
    · rcases List.mem_append.mp ha' with ha' | ha'
      · obtain ⟨c, hc, hrecipient⟩ := h.complete a' ha' hwins'
        exact ⟨c, List.mem_append_left _ hc, hrecipient⟩
      · rw [List.mem_singleton.mp ha']
        exact ⟨_, List.mem_append_right _ (List.mem_singleton_self _), rfl⟩

theorem tally (as : List Audit) :
    Tally winners as (contributorScores roster winners (as.map (Audit.toFinding hashOf roster))) := by
  induction as using List.reverseRecOn with
  | nil => exact ⟨by simp [contributorScores], by simp⟩
  | append_singleton as a ih =>
    unfold contributorScores at ih ⊢
    rw [List.map_append, List.foldl_append]
    exact ih.snoc a

/-! ## Payments of two runs -/

/-- The contributions differ at most in the critical findings. -/
structure Contribution.Alike (c d : Contribution) : Prop where
  recipient : c.recipient = d.recipient
  agentId : c.agentId = d.agentId
  score : c.score = d.score

theorem addContribution_alike {cs ds : List Contribution} (h : List.Forall₂ Contribution.Alike cs ds)
    (hab : SameTools a b) (hweight : a.weight = b.weight) :
    List.Forall₂ Contribution.Alike (addContribution roster winners cs (a.toFinding hashOf roster))
      (addContribution roster winners ds (b.toFinding hashOf roster)) := by
  have hscore : (a.toFinding hashOf roster).score = (b.toFinding hashOf roster).score := by
    rw [toFinding_score, toFinding_score, hab.score_iff.mpr hweight]
  have hknown : ∀ address, (cs.any fun c => decide (toLowerCase c.recipient = address)) =
      ds.any fun d => decide (toLowerCase d.recipient = address) := by
    intro address
    induction h with
    | nil => rfl
    | cons hcd _ ih => rw [List.any_cons, List.any_cons, ih, hcd.recipient]
  unfold addContribution
  rw [toFinding_recipient, toFinding_recipient, ← hab.evmAddress]
  dsimp only
  rw [hknown]
  split_ifs
  · exact h
  · rw [List.forall₂_map_left_iff, List.forall₂_map_right_iff]
    refine h.imp fun c d hcd => ?_
    rw [hcd.recipient]
    split_ifs
    · exact ⟨rfl, hcd.agentId, by rw [hcd.score, hscore]⟩
    · exact hcd
  · refine List.rel_append h (.cons ⟨rfl, ?_, hscore⟩ .nil)
    rw [toFinding_agentId, toFinding_agentId, hab.agent]

theorem contributorScores_alike (h : List.Forall₂ SameTools as bs)
    (hweights : List.Forall₂ (fun a b => a.weight = b.weight) as bs) :
    List.Forall₂ Contribution.Alike (contributorScores roster winners (as.map (Audit.toFinding hashOf roster)))
      (contributorScores roster winners (bs.map (Audit.toFinding hashOf roster))) := by
  have hfold : ∀ cs ds, List.Forall₂ Contribution.Alike cs ds → List.Forall₂ Contribution.Alike
      ((as.map (Audit.toFinding hashOf roster)).foldl (addContribution roster winners) cs)
      ((bs.map (Audit.toFinding hashOf roster)).foldl (addContribution roster winners) ds) := by
    induction h with
    | nil => exact fun _ _ hcd => hcd
    | cons hab _ ih =>
      obtain ⟨hweight, hweights⟩ := List.forall₂_cons.mp hweights
      exact fun cs ds hcd => ih hweights _ _ (addContribution_alike hcd hab hweight)
  exact hfold [] [] .nil

theorem settlementScores_alike (h : List.Forall₂ SameTools as bs)
    (hweights : List.Forall₂ (fun a b => a.weight = b.weight) as bs) :
    List.Forall₂ Contribution.Alike (settlementScores roster winners (as.map (Audit.toFinding hashOf roster)))
      (settlementScores roster winners (bs.map (Audit.toFinding hashOf roster))) := by
  refine List.rel_filter (fun c d hcd => ?_) (contributorScores_alike h hweights)
  dsimp only
  rw [hcd.score]

/-- The payment of a contribution whose numbers are whole. -/
def paymentOf (cfg : Config) (totalScore : ℤ) (c : Contribution) : Payment where
  recipient := c.recipient
  basePayment := (cfg.totalGuard * c.score.num).tdiv totalScore
  bonus := cfg.bonusPerCritical * c.critical.num
  agentId := c.agentId

theorem exists_sum_score {scores : List Contribution} (h : ∀ c ∈ scores, c.Credited winners as) :
    ∃ n : ℕ, (scores.map Contribution.score).sum = n := by
  induction scores with
  | nil => exact ⟨0, rfl⟩
  | cons c scores ih =>
    obtain ⟨n, hn⟩ := ih fun d hd => h d (List.mem_cons_of_mem _ hd)
    obtain ⟨address, -, -, -, hscore⟩ := h c List.mem_cons_self
    refine ⟨creditedTo address Audit.score as + n, ?_⟩
    rw [List.map_cons, List.sum_cons, hn, hscore, Nat.cast_add]

theorem buildPayments_eq {scores : List Contribution} (h : ∀ c ∈ scores, c.Credited winners as) :
    buildPayments cfg scores = some (scores.map (paymentOf cfg (scores.map Contribution.score).sum.num)) := by
  obtain ⟨n, hn⟩ := exists_sum_score h
  unfold buildPayments
  rw [hn, toBigInt_natCast]
  generalize (n : ℚ).num = totalScore
  change scores.mapM (toPayment cfg totalScore) = _
  induction scores generalizing n with
  | nil => rfl
  | cons c scores ih =>
    obtain ⟨address, -, -, hcritical, hscore⟩ := h c List.mem_cons_self
    have hc : toPayment cfg totalScore c = some (paymentOf cfg totalScore c) := by
      unfold toPayment paymentOf
      rw [hscore, hcritical, toBigInt_natCast, toBigInt_natCast]
      rfl
    obtain ⟨m, hm⟩ := exists_sum_score fun d hd => h d (List.mem_cons_of_mem _ hd)
    rw [List.mapM_cons, hc, ih (fun d hd => h d (List.mem_cons_of_mem _ hd)) m hm]
    rfl

theorem buildManifest_eq (as : List Audit) :
    buildManifest cfg roster winners (as.map (Audit.toFinding hashOf roster)) =
      if settlementScores roster winners (as.map (Audit.toFinding hashOf roster)) = [] then .ok none
      else .ok (some ((settlementScores roster winners (as.map (Audit.toFinding hashOf roster))).map
        (paymentOf cfg ((settlementScores roster winners (as.map (Audit.toFinding hashOf roster))).map
          Contribution.score).sum.num))) := by
  have htally : Tally winners as (contributorScores roster winners (as.map (Audit.toFinding hashOf roster))) := tally as
  have hcredited : ∀ c ∈ settlementScores roster winners (as.map (Audit.toFinding hashOf roster)),
      c.Credited winners as := fun c hc => htally.credited c (List.mem_filter.mp hc).1
  have hwinners : winners = [] → settlementScores roster winners (as.map (Audit.toFinding hashOf roster)) = [] := by
    rintro rfl
    refine List.eq_nil_iff_forall_not_mem.mpr fun c hc => ?_
    obtain ⟨address, -, hwins, -⟩ := hcredited c hc
    simp [isWinner] at hwins
  have hfindings : as.map (Audit.toFinding hashOf roster) = [] →
      settlementScores roster winners (as.map (Audit.toFinding hashOf roster)) = [] := by
    intro hnil
    rw [hnil]
    rfl
  unfold buildManifest
  dsimp only
  by_cases hscores : settlementScores roster winners (as.map (Audit.toFinding hashOf roster)) = []
  · rw [if_pos (.inr (.inr hscores)), if_pos hscores]
  · have hneither : ¬(as.map (Audit.toFinding hashOf roster) = [] ∨ winners = [] ∨
        settlementScores roster winners (as.map (Audit.toFinding hashOf roster)) = []) := by
      rintro (hnil | hnil | hnil)
      · exact hscores (hfindings hnil)
      · exact hscores (hwinners hnil)
      · exact hscores hnil
    rw [if_neg hneither, if_neg hscores, buildPayments_eq hcredited]

theorem payments_iff {cs ds : List Contribution} (totalScore : ℤ) (h : List.Forall₂ Contribution.Alike cs ds)
    (hcs : ∀ c ∈ cs, c.Credited winners as) (hds : ∀ d ∈ ds, d.Credited winners bs) :
    cs.map (paymentOf cfg totalScore) = ds.map (paymentOf cfg totalScore) ↔
      cfg.bonusPerCritical = 0 ∨ List.Forall₂ (fun c d => c.critical = d.critical) cs ds := by
  induction h with
  | nil => exact iff_of_true rfl (.inr .nil)
  | @cons c d cs ds hcd _ ih =>
    have hrest := ih (fun c hc => hcs c (List.mem_cons_of_mem _ hc)) fun d hd => hds d (List.mem_cons_of_mem _ hd)
    obtain ⟨address, -, -, hc, -⟩ := hcs c List.mem_cons_self
    obtain ⟨address', -, -, hd, -⟩ := hds d List.mem_cons_self
    have hpay : paymentOf cfg totalScore c = paymentOf cfg totalScore d ↔
        cfg.bonusPerCritical = 0 ∨ c.critical = d.critical := by
      unfold paymentOf
      rw [Payment.mk.injEq, hcd.recipient, hcd.agentId, hcd.score, hc, hd]
      simp only [true_and, and_true, Rat.num_natCast, Nat.cast_inj, mul_eq_mul_left_iff, Nat.cast_eq_zero]
      exact or_comm
    rw [List.map_cons, List.map_cons, List.cons.injEq, hpay, hrest, List.forall₂_cons, or_and_left]

theorem manifest_iff (h : List.Forall₂ SameTools as bs)
    (hweights : List.Forall₂ (fun a b => a.weight = b.weight) as bs) :
    buildManifest cfg roster winners (as.map (Audit.toFinding hashOf roster)) =
        buildManifest cfg roster winners (bs.map (Audit.toFinding hashOf roster)) ↔
      cfg.bonusPerCritical = 0 ∨ List.Forall₂ (fun c d => c.critical = d.critical)
        (settlementScores roster winners (as.map (Audit.toFinding hashOf roster)))
        (settlementScores roster winners (bs.map (Audit.toFinding hashOf roster))) := by
  have halike : List.Forall₂ Contribution.Alike
      (settlementScores roster winners (as.map (Audit.toFinding hashOf roster)))
      (settlementScores roster winners (bs.map (Audit.toFinding hashOf roster))) := settlementScores_alike h hweights
  have hcs : ∀ c ∈ settlementScores roster winners (as.map (Audit.toFinding hashOf roster)), c.Credited winners as :=
    fun c hc => (tally as).credited c (List.mem_filter.mp hc).1
  have hds : ∀ d ∈ settlementScores roster winners (bs.map (Audit.toFinding hashOf roster)), d.Credited winners bs :=
    fun d hd => (tally bs).credited d (List.mem_filter.mp hd).1
  rw [buildManifest_eq, buildManifest_eq]
  revert halike hcs hds
  generalize settlementScores roster winners (as.map (Audit.toFinding hashOf roster)) = cs
  generalize settlementScores roster winners (bs.map (Audit.toFinding hashOf roster)) = ds
  intro halike hcs hds
  have hscores : cs.map Contribution.score = ds.map Contribution.score := by
    clear hcs hds
    induction halike with
    | nil => rfl
    | cons hcd _ ih => rw [List.map_cons, List.map_cons, hcd.score, ih]
  have hnil : cs = [] ↔ ds = [] := by
    rw [← List.length_eq_zero_iff, ← List.length_eq_zero_iff, halike.length_eq]
  by_cases hempty : cs = []
  · rw [if_pos hempty, if_pos (hnil.mp hempty), hempty, hnil.mp hempty]
    exact iff_of_true rfl (.inr .nil)
  · rw [if_neg hempty, if_neg (mt hnil.mpr hempty), Except.ok.injEq, Option.some.injEq, hscores,
      payments_iff _ halike hcs hds]

theorem creditedTo_add (address : Address) (count count' : Audit → ℕ) (as : List Audit) :
    creditedTo address (fun a => count a + count' a) as =
      creditedTo address count as + creditedTo address count' as := by
  unfold creditedTo
  induction as.filter fun a => a.evmAddress = address with
  | nil => rfl
  | cons a as ih =>
    simp only [List.map_cons, List.sum_cons]
    omega

theorem creditedTo_congr {count : Audit → ℕ} (address : Address) (h : List.Forall₂ SameTools as bs)
    (hcount : List.Forall₂ (fun a b => count a = count b) as bs) :
    creditedTo address count as = creditedTo address count bs := by
  unfold creditedTo
  induction h with
  | nil => rfl
  | cons hab _ ih =>
    obtain ⟨hcd, hcount⟩ := List.forall₂_cons.mp hcount
    simp only [List.filter_cons, hab.evmAddress]
    split_ifs
    · rw [List.map_cons, List.map_cons, List.sum_cons, List.sum_cons, hcd, ih hcount]
    · exact ih hcount

theorem scores_eq (h : List.Forall₂ SameTools as bs)
    (hweights : List.Forall₂ (fun a b => a.weight = b.weight) as bs) :
    List.Forall₂ (fun a b => a.score = b.score) as bs := by
  induction h with
  | nil => exact .nil
  | cons hab _ ih =>
    obtain ⟨hweight, hweights⟩ := List.forall₂_cons.mp hweights
    exact .cons (hab.score_iff.mpr hweight) (ih hweights)

theorem creditedTo_criticalCount_le (address : Address) (as : List Audit) :
    creditedTo address Audit.criticalCount as ≤ creditedTo address Audit.score as := by
  unfold creditedTo
  induction as.filter fun a => a.evmAddress = address with
  | nil => exact Nat.le_refl _
  | cons a as ih =>
    have hle : a.criticalCount ≤ a.score := by
      unfold Audit.criticalCount Audit.score Audit.weight
      omega
    simp only [List.map_cons, List.sum_cons]
    omega

/-- The critical findings of the winners are as many exactly if those of their generators are. -/
theorem criticals_iff (h : List.Forall₂ SameTools as bs)
    (hweights : List.Forall₂ (fun a b => a.weight = b.weight) as bs) :
    List.Forall₂ (fun c d => c.critical = d.critical)
        (settlementScores roster winners (as.map (Audit.toFinding hashOf roster)))
        (settlementScores roster winners (bs.map (Audit.toFinding hashOf roster))) ↔
      ∀ address, isWinner winners (.address address) = true →
        creditedTo address Audit.generatedCriticals as = creditedTo address Audit.generatedCriticals bs := by
  have halike : List.Forall₂ Contribution.Alike
      (settlementScores roster winners (as.map (Audit.toFinding hashOf roster)))
      (settlementScores roster winners (bs.map (Audit.toFinding hashOf roster))) := settlementScores_alike h hweights
  have hscores : ∀ address, creditedTo address Audit.score as = creditedTo address Audit.score bs := fun address =>
    creditedTo_congr address h (scores_eq h hweights)
  have htools : ∀ address, creditedTo address Audit.toolCriticals as = creditedTo address Audit.toolCriticals bs :=
    fun address => creditedTo_congr address h (h.imp fun _ _ hab => hab.toolCriticals)
  have hcriticals : ∀ address, creditedTo address Audit.criticalCount as = creditedTo address Audit.criticalCount bs ↔
      creditedTo address Audit.generatedCriticals as = creditedTo address Audit.generatedCriticals bs := by
    intro address
    have has := creditedTo_add address Audit.toolCriticals Audit.generatedCriticals as
    have hbs := creditedTo_add address Audit.toolCriticals Audit.generatedCriticals bs
    have htool := htools address
    change creditedTo address Audit.criticalCount as = _ at has
    change creditedTo address Audit.criticalCount bs = _ at hbs
    omega
  have htally : Tally winners as (contributorScores roster winners (as.map (Audit.toFinding hashOf roster))) := tally as
  constructor
  · intro hsame address hwins
    rw [← hcriticals]
    rcases Nat.eq_zero_or_pos (creditedTo address Audit.score as) with hzero | hpos
    · -- Without a score there are no critical findings either.
      have has := creditedTo_criticalCount_le address as
      have hbs := creditedTo_criticalCount_le address bs
      have hscore := hscores address
      omega
    · -- Otherwise the winner is paid in both runs.
      have hsent : ∃ a ∈ as, a.evmAddress = address := by
        by_contra hnone
        have hzero := creditedTo_eq_zero Audit.score fun a ha heq => hnone ⟨a, ha, heq⟩
        omega
      obtain ⟨a, ha, rfl⟩ := hsent
      obtain ⟨c, hc, hrecipient⟩ := htally.complete a ha hwins
      obtain ⟨address, hrecipient', -, hcritical, hscore⟩ := htally.credited c hc
      obtain rfl := AddressText.address.inj (hrecipient.symm.trans hrecipient')
      have hpaid : c ∈ settlementScores roster winners (as.map (Audit.toFinding hashOf roster)) := by
        refine List.mem_filter.mpr ⟨hc, decide_eq_true ?_⟩
        rw [hscore]
        exact_mod_cast hpos
      obtain ⟨i, hi, rfl⟩ := List.getElem_of_mem hpaid
      have hi' := hi
      rw [halike.length_eq] at hi'
      have hequal := (List.forall₂_iff_get.mp hsame).2 i hi hi'
      have hsent := ((List.forall₂_iff_get.mp halike).2 i hi hi').recipient
      have hpaid' := List.getElem_mem hi'
      obtain ⟨address', hrecipient'', -, hcritical', -⟩ := (tally bs).credited _ (List.mem_filter.mp hpaid').1
      obtain rfl := AddressText.address.inj (hrecipient.symm.trans (hsent.trans hrecipient''))
      have hcast := hcritical.symm.trans (hequal.trans hcritical')
      exact_mod_cast hcast
  · intro hsame
    refine List.forall₂_iff_zip.mpr ⟨halike.length_eq, fun {c d} hcd => ?_⟩
    obtain ⟨hc, hd⟩ := List.of_mem_zip hcd
    obtain ⟨address, hrecipient, hwins, hcritical, -⟩ := (tally as).credited c (List.mem_filter.mp hc).1
    obtain ⟨address', hrecipient', -, hcritical', -⟩ := (tally bs).credited d (List.mem_filter.mp hd).1
    have hsent : c.recipient = d.recipient := (List.forall₂_zip halike hcd).recipient
    rw [hrecipient, hrecipient'] at hsent
    obtain rfl := AddressText.address.inj hsent
    rw [hcritical, hcritical', (hcriticals address).mpr (hsame address hwins)]

/-! ## Earnings of two runs -/

/-- The generated findings earn as much in both runs: they weigh as much in every message, and, if there is a bonus,
those that are settled have as many critical ones of each winner. -/
structure SameWeight (cfg : Config) (job : Settlement) (as bs : List Audit) : Prop where
  weights : List.Forall₂ (fun a b => a.weight = b.weight) as bs
  bonuses : cfg.bonusPerCritical = 0 ∨ ∀ address, isWinner job.winners (.address address) = true →
    creditedTo address Audit.generatedCriticals (as.take job.read) =
      creditedTo address Audit.generatedCriticals (bs.take job.read)

/-- Two runs that differ only in what the generators have contributed earn the same if and only if it earns as much in
both. -/
theorem earnings_iff (cfg : Config) (hashOf : List AgentFinding → String) (job : Settlement)
    (h : List.Forall₂ SameTools as bs) :
    earnings cfg hashOf job as = earnings cfg hashOf job bs ↔ SameWeight cfg job as bs := by
  have hread : List.Forall₂ SameTools (as.take job.read) (bs.take job.read) := List.forall₂_take _ h
  have hmanifest : List.Forall₂ (fun a b => a.weight = b.weight) as bs →
      ((earnings cfg hashOf job as).manifest = (earnings cfg hashOf job bs).manifest ↔
        cfg.bonusPerCritical = 0 ∨ ∀ address, isWinner job.winners (.address address) = true →
          creditedTo address Audit.generatedCriticals (as.take job.read) =
            creditedTo address Audit.generatedCriticals (bs.take job.read)) := by
    intro hweights
    have hweights' := List.forall₂_take job.read hweights
    unfold earnings
    dsimp only
    rw [← List.map_take, ← List.map_take, manifest_iff hread hweights', criticals_iff hread hweights']
  constructor
  · intro heq
    have hweights := (deltas_iff h).mp (congrArg Earnings.deltas heq)
    exact ⟨hweights, (hmanifest hweights).mp (congrArg Earnings.manifest heq)⟩
  · intro hsame
    exact Earnings.ext ((hmanifest hsame.weights).mpr hsame.bonuses) ((deltas_iff h).mpr hsame.weights)

/-! ## An agent whose service is down -/

/-- What was drawn for a generated finding. -/
def sampleDraw (severity : Severity) (title : String) : Draw := ⟨severity, title, 3 / 4, 1700000000000⟩

/-- A finding of the tool. -/
def sampleToolFinding : AgentFinding :=
  ⟨"FZ-001", .high, "Unchecked return value", "call at line 12", 9 / 10, "fuzzer-012", 1700000000000, none⟩

/-- What two agents report, one of them with these entries. -/
def sampleAudits (entries : List Entry) : List Audit :=
  [⟨.staticAnalysis "lending" 1200, 1, entries⟩, ⟨.fuzzer false, 2, runOrFallback (some [sampleToolFinding]) []⟩]

/-- The first agent generates its findings. -/
def sampleFallback (title : String) : List Audit := sampleAudits
  (runOrFallback none [sampleDraw .critical title, sampleDraw .low title, sampleDraw .low title])

/-- Both won, and two messages have been read. -/
def sampleSettled : Settlement := ⟨[], [.address 1, .address 2], 2⟩

theorem sampleAudits_sameTools {entries entries' : List Entry}
    (h : entries.filterMap Entry.tool? = entries'.filterMap Entry.tool?) :
    List.Forall₂ SameTools (sampleAudits entries) (sampleAudits entries') :=
  .cons ⟨rfl, rfl, h⟩ (.cons ⟨rfl, rfl, rfl⟩ .nil)

/-- Three generated findings, one of them critical, earn a winner base pay, a bonus and reputation. -/
theorem fallback_earns : ¬ ∀ (cfg : Config) (hashOf : List AgentFinding → String) (job : Settlement)
    (as bs : List Audit), List.Forall₂ SameTools as bs → earnings cfg hashOf job as = earnings cfg hashOf job bs := by
  intro hall
  have heq := hall sampleConfig (fun _ => "0xaaa111") sampleSettled (sampleFallback "Reentrancy") (sampleAudits [])
    (sampleAudits_sameTools rfl)
  have hmanifest : (earnings sampleConfig (fun _ => "0xaaa111") sampleSettled (sampleFallback "Reentrancy")).manifest ≠
      (earnings sampleConfig (fun _ => "0xaaa111") sampleSettled (sampleAudits [])).manifest := by decide +kernel
  exact hmanifest (congrArg Earnings.manifest heq)

/-- Other texts earn as much. -/
theorem earnings_iff_texts :
    earnings sampleConfig (fun _ => "0xaaa111") sampleSettled (sampleFallback "Reentrancy") =
      earnings sampleConfig (fun _ => "0xaaa111") sampleSettled (sampleFallback "Oracle manipulation") := by
  have htools : List.Forall₂ SameTools (sampleFallback "Reentrancy") (sampleFallback "Oracle manipulation") :=
    sampleAudits_sameTools rfl
  refine (earnings_iff sampleConfig (fun _ => "0xaaa111") sampleSettled htools).mpr ⟨by decide +kernel, .inr ?_⟩
  exact fun address _ => creditedTo_congr address htools (by decide +kernel)

end AuditGuard.Reporting
