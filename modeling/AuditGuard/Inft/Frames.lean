import AuditGuard.Inft.Effects

/-!
# What handlers leave alone

A relation between audit jobs before and after, and one between agent profiles, that every change of a handler
respects, hold of all iNFTs when the handler is done, however far it came (`Framed`). The agents stay in the index
under their serial numbers.
-/

namespace AuditGuard.Inft

open Evm StakingManager

variable {α β : Type} {J : AuditJob → AuditJob → Prop} {K : AgentProfile → AgentProfile → Prop} {l l' l'' : Listener}
  {serial : ℕ}

/-- Every job of `l` is still there and `J` relates it to what it was, and so is every profile. -/
structure Framed (J : AuditJob → AuditJob → Prop) (K : AgentProfile → AgentProfile → Prop) (l l' : Listener) :
    Prop where
  agents : l'.agentIndex = l.agentIndex
  serials : l'.jobSerials = l.jobSerials
  jobs : ∀ serial job, l.auditJobs serial = some job → ∃ job', l'.auditJobs serial = some job' ∧ J job job'
  profiles : ∀ serial p, l.agentProfiles serial = some p → ∃ p', l'.agentProfiles serial = some p' ∧ K p p'

/-- The relations of a frame compose. -/
structure Composable (J : AuditJob → AuditJob → Prop) (K : AgentProfile → AgentProfile → Prop) : Prop where
  job_refl : ∀ job, J job job
  job_trans : ∀ job job' job'', J job job' → J job' job'' → J job job''
  profile_refl : ∀ p, K p p
  profile_trans : ∀ p p' p'', K p p' → K p' p'' → K p p''

theorem Framed.refl (hc : Composable J K) (l : Listener) : Framed J K l l where
  agents := rfl
  serials := rfl
  jobs _ job h := ⟨job, h, hc.job_refl job⟩
  profiles _ p h := ⟨p, h, hc.profile_refl p⟩

theorem Framed.trans (hc : Composable J K) (h : Framed J K l l') (h' : Framed J K l' l'') : Framed J K l l'' where
  agents := h'.agents.trans h.agents
  serials := h'.serials.trans h.serials
  jobs serial job hjob := by
    obtain ⟨job', hjob', hJ⟩ := h.jobs serial job hjob
    obtain ⟨job'', hjob'', hJ'⟩ := h'.jobs serial job' hjob'
    exact ⟨job'', hjob'', hc.job_trans _ _ _ hJ hJ'⟩
  profiles serial p hp := by
    obtain ⟨p', hp', hK⟩ := h.profiles serial p hp
    obtain ⟨p'', hp'', hK'⟩ := h'.profiles serial p' hp'
    exact ⟨p'', hp'', hc.profile_trans _ _ _ hK hK'⟩

theorem Framed.saveJob (hc : Composable J K) {job : AuditJob}
    (hJ : ∀ old, l.auditJobs serial = some old → J old job) : Framed J K l (l.saveJob serial job) where
  agents := rfl
  serials := rfl
  jobs serial' old h := by
    rw [Listener.saveJob_auditJobs]
    rcases eq_or_ne serial' serial with rfl | hne
    · exact ⟨job, Function.update_self .., hJ old h⟩
    · exact ⟨old, (Function.update_of_ne hne ..).trans h, hc.job_refl old⟩
  profiles _ p h := ⟨p, h, hc.profile_refl p⟩

theorem Framed.saveProfile (hc : Composable J K) {profile : AgentProfile}
    (hK : ∀ old, l.agentProfiles serial = some old → K old profile) : Framed J K l (l.saveProfile serial profile) where
  agents := rfl
  serials := rfl
  jobs _ job h := ⟨job, h, hc.job_refl job⟩
  profiles serial' old h := by
    rw [Listener.saveProfile_agentProfiles]
    rcases eq_or_ne serial' serial with rfl | hne
    · exact ⟨profile, Function.update_self .., hK old h⟩
    · exact ⟨old, (Function.update_of_ne hne ..).trans h, hc.profile_refl old⟩

theorem Framed.link (hc : Composable J K) (jobId serial : ℕ) : Framed J K l (l.link jobId serial) where
  agents := rfl
  serials := rfl
  jobs _ job h := ⟨job, h, hc.job_refl job⟩
  profiles _ p h := ⟨p, h, hc.profile_refl p⟩

/-- Whatever the handler comes to, what it leaves is framed. -/
def Frames (J : AuditJob → AuditJob → Prop) (K : AgentProfile → AgentProfile → Prop) (h : Handler α) : Prop :=
  ∀ l, Framed J K l (exec h l).2

namespace Frames

theorem pure (hc : Composable J K) (a : α) : Frames J K (Pure.pure a : Handler α) := fun l => .refl hc l

theorem bind (hc : Composable J K) {x : Handler α} {f : α → Handler β} (hx : Frames J K x)
    (hf : ∀ a, Frames J K (f a)) : Frames J K (x >>= f) := by
  intro l
  have hfirst := hx l
  rw [exec_bind]
  cases hexec : exec x l with
  | mk result l' =>
    rw [hexec] at hfirst
    cases result with
    | ok a => exact hfirst.trans hc (hf a l')
    | error e => exact hfirst

theorem get_bind {f : Listener → Handler β} (hf : ∀ l, Framed J K l (exec (f l) l).2) :
    Frames J K (get >>= f) := fun l => hf l

theorem changeJob (hc : Composable J K) {f : AuditJob → Except String AuditJob}
    (hf : ∀ job job', f job = .ok job' → J job job') (serial : ℕ) : Frames J K (changeJob serial f) := by
  refine get_bind fun l => ?_
  cases hjob : l.auditJobs serial with
  | none => exact .refl hc l
  | some job =>
    dsimp only
    cases hchange : f job with
    | error e => exact .refl hc l
    | ok job' =>
      refine .saveJob hc fun old hold => ?_
      rw [hjob, Option.some.injEq] at hold
      exact hold ▸ hf job job' hchange

theorem changeProfile (hc : Composable J K) {f : AgentProfile → AgentProfile} (hf : ∀ p, K p (f p)) (serial : ℕ) :
    Frames J K (changeProfile serial f) := by
  refine get_bind fun l => ?_
  cases hprofile : l.agentProfiles serial with
  | none => exact .refl hc l
  | some p =>
    refine .saveProfile hc fun old hold => ?_
    rw [hprofile, Option.some.injEq] at hold
    exact hold ▸ hf p

theorem withJob (hc : Composable J K) {k : ℕ → Handler Unit} (hk : ∀ serial, Frames J K (k serial)) (jobId : ℕ) :
    Frames J K (withJob jobId k) := by
  refine get_bind fun l => ?_
  cases l.jobIndex jobId with
  | none => exact .refl hc l
  | some serial => exact hk serial l

theorem withAgent (hc : Composable J K) {k : ℕ → Handler Unit} (hk : ∀ serial, Frames J K (k serial))
    (agent : Address) : Frames J K (withAgent agent k) := by
  refine get_bind fun l => ?_
  cases l.agentIndex agent with
  | none => exact .refl hc l
  | some serial => exact hk serial l

theorem forM (hc : Composable J K) {k : Address → Handler Unit} (hk : ∀ agent, Frames J K (k agent))
    (agents : List Address) : Frames J K (agents.forM k) := by
  induction agents with
  | nil => exact .pure hc ()
  | cons agent agents ih => exact .bind hc (hk agent) fun _ => ih

end Frames

/-! ## Events of AuditAuction and PaymentSettlement -/

/-- The relations respect every change that the handlers of `AuditAuction` and of `PaymentSettlement` make, apart from
the slash of an agent. -/
structure Respects (J : AuditJob → AuditJob → Prop) (K : AgentProfile → AgentProfile → Prop) : Prop
    extends Composable J K where
  jobId : ∀ job id, J job { job with jobId := id }
  transition : ∀ job job' newState trigger, job.transitionAuditJobState newState trigger = .ok job' → J job job'
  participant : ∀ job participant, J job (job.addJobParticipant participant)
  auction : ∀ job update, J job (job.updateAuctionData update)
  bids : ∀ (job : AuditJob) (auction : Auction) count,
    J job { job with auction := some { auction with totalBids := count } }
  payments : ∀ job update, J job (job.updatePaymentData update)
  metrics : ∀ p u, u.totalSlashed = 0 → K p (p.updateAgentMetrics u)

variable {hex : Address → String}

theorem frames_countBid (h : Respects J K) (serial : ℕ) : Frames J K (countBid serial) := by
  intro l
  rw [countBid, exec_modify]
  dsimp only
  cases hjob : l.auditJobs serial with
  | none => exact .refl h.toComposable l
  | some job =>
    dsimp only
    cases job.auction with
    | none => exact .refl h.toComposable l
    | some auction =>
      refine .saveJob h.toComposable fun old hold => ?_
      rw [hjob, Option.some.injEq] at hold
      exact hold ▸ h.bids job auction _

theorem frames_onJobPosted (h : Respects J K) (jobId : ℕ) (contractAddress : Address)
    (budgetAvailable auctionDeadline : ℕ) :
    Frames J K (onJobPosted hex jobId contractAddress budgetAvailable auctionDeadline) := by
  have hc := h.toComposable
  have hrest : ∀ serial, Frames J K (do
      transitionAuditJobState serial .auctionOpen "AuditAuction.JobPosted"
      updateAuctionData serial {
        deadline := some auctionDeadline
        budgetGuard := some (toGuard budgetAvailable)
        totalBids := some 0
        winningAgents := some []
        platformFeePaid := some 0 }) := fun serial =>
    .bind hc (.changeJob hc (fun job job' => h.transition job job' _ _) serial) fun _ =>
      .changeJob hc (fun job job' hjob => Except.ok.inj hjob ▸ h.auction job _) serial
  refine Frames.get_bind fun l => ?_
  cases (l.jobIndex jobId).or (l.findByContract (hex contractAddress)) with
  | none => exact .refl hc l
  | some serial =>
    dsimp only
    rw [exec_bind_ok (exec_modify _ l)]
    refine (Framed.link hc jobId serial).trans hc ?_
    cases hjob : l.auditJobs serial with
    | none => exact hrest serial _
    | some job =>
      dsimp only
      rw [exec_bind_ok (exec_modify _ _)]
      refine Framed.trans hc (.saveJob hc fun old hold => ?_) (hrest serial _)
      have hold : l.auditJobs serial = some old := hold
      rw [hjob, Option.some.injEq] at hold
      exact hold ▸ h.jobId job jobId

theorem frames_onAuditAuction (h : Respects J K) {e : AuditAuction.Event}
    (he : ∀ jobId agent slashedAmount slashBasisPoints, e ≠ .agentSlashed jobId agent slashedAmount slashBasisPoints) :
    Frames J K (onAuditAuction hex e) := by
  have hc := h.toComposable
  have htransition : ∀ newState trigger serial, Frames J K (transitionAuditJobState serial newState trigger) :=
    fun newState trigger => .changeJob hc fun job job' => h.transition job job' newState trigger
  have hmetrics : ∀ u : MetricsUpdate, u.totalSlashed = 0 → ∀ agent,
      Frames J K (withAgent agent fun serial => updateAgentMetrics serial u) :=
    fun u hu => .withAgent hc (.changeProfile hc fun p => h.metrics p u hu)
  have hauction : ∀ update serial, Frames J K (updateAuctionData serial update) :=
    fun update => .changeJob hc fun job job' hjob => Except.ok.inj hjob ▸ h.auction job update
  cases e with
  | jobPosted jobId contractAddress contractChain contractType budgetAvailable auctionDeadline _ _ =>
    exact frames_onJobPosted h jobId contractAddress budgetAvailable auctionDeadline
  | bidSubmitted jobId agent bidAmount collateralLocked reputationAtBid specialization estimatedCompletionTime =>
    refine Frames.withJob hc (fun serial => .bind hc (.changeJob hc ?_ serial) fun _ =>
      .bind hc (frames_countBid h serial) fun _ => hmetrics _ rfl agent) jobId
    exact fun job job' hjob => Except.ok.inj hjob ▸ h.participant job _
  | winnersSelected jobId winners totalEscrowed platformFee =>
    exact Frames.withJob hc (fun serial => .bind hc (htransition _ _ serial) fun _ =>
      .bind hc (hauction _ serial) fun _ => .forM hc (hmetrics _ rfl) winners) jobId
  | escrowReleased jobId agent payment bonus collateralReturned =>
    refine Frames.withJob hc (fun serial => .bind hc (.changeJob hc ?_ serial) fun _ => hmetrics _ rfl agent) jobId
    exact fun job job' hjob => Except.ok.inj hjob ▸ h.payments job _
  | agentSlashed jobId agent slashedAmount slashBasisPoints => exact absurd rfl (he _ _ _ _)
  | jobCompleted jobId => exact Frames.withJob hc (htransition _ _) jobId
  | jobCancelled jobId => exact Frames.withJob hc (htransition _ _) jobId
  | _ => exact Frames.pure hc ()

theorem frames_onPaymentSettlement (h : Respects J K) (e : PaymentSettlement.Event) :
    Frames J K (onPaymentSettlement e) := by
  have hc := h.toComposable
  cases e with
  | jobSettled settlementId jobId totalDisbursed platformFee reportFees recipientCount =>
    refine Frames.withJob hc (fun serial => .bind hc (.changeJob hc ?_ serial) fun _ =>
      .get_bind fun l => ?_) jobId
    · exact fun job job' hjob => Except.ok.inj hjob ▸ h.payments job _
    · cases l.auditJobs serial with
      | none => exact .refl hc l
      | some job =>
        dsimp only
        split_ifs
        · exact Frames.changeJob hc (fun job job' => h.transition job job' _ _) serial l
        · exact .refl hc l
  | _ => exact Frames.pure hc ()

theorem exec_onAgentSlashed (jobId : ℕ) (agent : Address) (slashedAmount slashBasisPoints : ℕ) :
    (exec (onAgentSlashed jobId agent slashedAmount slashBasisPoints) l).2 = l.onProfile agent fun p =>
      (p.updateAgentReputation (-slashBasisPoints) "slash_penalty" jobId).updateAgentMetrics
        { totalSlashed := toGuard slashedAmount } := by
  refine exec_withAgent (fun serial hnone => ?_) (fun serial p hp => ?_)
  · rw [updateAgentReputation, exec_bind_error (exec_changeProfile_none hnone _)]
  · rw [updateAgentReputation, exec_bind_ok (exec_changeProfile_some hp _), updateAgentMetrics,
      exec_changeProfile_saved]

end AuditGuard.Inft
