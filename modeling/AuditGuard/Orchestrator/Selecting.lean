import AuditGuard.Orchestrator.Readiness

/-!
# The orchestrator: selection keeps to the rules

Where there are bids, the way to a cancellation is barred: the bids cannot be read without being seen, and if they
cannot be read, their number is known. A selection is sent with indices that are right if the best bid has its place
on the chain, and who is called a winner afterwards is one there.
-/

namespace AuditGuard.Orchestrator

open Evm TransitionSystem Routine
open AuditAuction (Later Keeps AuditJob AgentBid JobStatus)

variable {S : Setting} {P : Setting.Fact} {key v : ℕ}

/-! ## Hydration -/

theorem Inv.setBidders {this : Address} {m : Memory} {w : Chain} (hm : Inv this m w) {bids : List AgentBid}
    (hbids : bids.map AgentBid.agent <+: agents w key) : Inv this (setBidders key v bids m) w := by
  unfold Orchestrator.setBidders
  refine Inv.setJobByKey (Inv.update (hm.createArray (mapOnChainBidsToLocal_sound m hbids)) fun job hjob => ?_) _ _
  exact hjob.congr rfl rfl rfl rfl rfl

theorem triple_hydrateBidders (hP : S.Steady P) {n : ℕ} (hpos : 0 < n)
    (hn : ∀ h w t, P h w t → n ≤ (agents w key).length) :
    S.Triple P (hydrateBidders key v (some n)) (fun count h w t => P h w t ∧ ∃ k, count = some k ∧ 0 < k)
      (fun _ => P) := by
  refine Triple.tryCatch (E := fun _ => P) ?_ fun _ => Triple.pure fun _ _ _ hp => ⟨hp, n, rfl, hpos⟩
  refine Triple.bind (triple_getOnChainBids hP hn) fun bids => ?_
  refine Triple.bind (Triple.modify fun h m w t hinv hp => hinv.setBidders hp.2.2) fun _ => Triple.pure ?_
  exact fun h w t hp => ⟨hp.1, bids.length, rfl, hpos.trans_le hp.2.1⟩

theorem JobSound.hydrated {w : Chain} (hposted : (w.state.jobs key).jobId ≠ 0) (chainJob : AuditJob) (bidders : ℕ) :
    JobSound w key (Job.hydrated chainJob bidders) :=
  (JobSound.blank w key none bidders).setDeadline hposted rfl rfl rfl rfl

theorem stays_hydrateJobForSelection (hP : S.Steady P) : S.Stays P (hydrateJobForSelection S.cfg key) := by
  refine Triple.ite (fun _ => Stays.pure _) fun _ => ?_
  refine Triple.bind (triple_attemptJob hP) fun chainJob => ?_
  cases chainJob with
  | none => exact Triple.pure fun _ _ _ hp => hp.1
  | some chainJob =>
    refine Triple.ite (fun _ => Triple.pure fun _ _ _ hp => hp.1) fun _ => ?_
    have hsteady : S.Steady fun h w t => P h w t ∧ (some chainJob ≠ none → (w.state.jobs key).jobId ≠ 0) :=
      hP.and (steady_chain fun _ _ hf hk hn => (hk key).posted (hf hn))
    have hbids : S.Triple (fun h w t => P h w t ∧ (some chainJob ≠ none → (w.state.jobs key).jobId ≠ 0))
        ((getOnChainBids key).tryCatch fun _ => pure [])
        (fun bids h w t => (P h w t ∧ (some chainJob ≠ none → (w.state.jobs key).jobId ≠ 0)) ∧
          bids.map AgentBid.agent <+: agents w key) (fun _ => P) := by
      refine Triple.tryCatch ((triple_getOnChainBids hsteady fun _ _ _ _ => Nat.zero_le _).mono (fun _ _ _ => id)
        (fun _ _ _ _ hp => ⟨hp.1, hp.2.2⟩) (fun _ _ _ _ => id)) fun _ => Triple.pure ?_
      exact fun _ _ _ hp => ⟨hp, List.nil_prefix⟩
    refine Triple.bind hbids fun bids => ?_
    refine Triple.bind (Triple.memory fun _ _ _ _ _ hp => hp) fun m => ?_
    refine Triple.bind (Triple.modify fun h m w t hinv hp => ?_) fun _ => Triple.pure fun _ _ _ hp => hp.1.1
    have hposted := hp.1.2 (Option.some_ne_none chainJob)
    exact Inv.setJobByKey (Inv.create (Inv.createArray hinv (mapOnChainBidsToLocal_sound m hp.2))
      (JobSound.hydrated hposted _ _)) _ _

/-! ## Sending a selection -/

/-- What is known of a selection: it is of one bid, by an agent whose place on the chain is the index. -/
def SelectionSound (key : ℕ) (selected : List (LocalBid × ℕ)) (w : Chain) : Prop :=
  ∃ bid a i, selected = [bid] ∧ bid.1.evmAddress = .address a ∧ winningBidIndices selected = [i] ∧
    (agents w key)[i]? = some a

theorem steady_selection (selected : List (LocalBid × ℕ)) :
    S.Steady fun _ w _ => S.select → SelectionSound key selected w := by
  refine steady_chain fun w w' hf hk hsel => ?_
  obtain ⟨bid, a, i, hselected, haddress, hindex, ha⟩ := hf hsel
  exact ⟨bid, a, i, hselected, haddress, hindex, agents_later (hk key) ha⟩

theorem selectedWinners_eq (cfg : Config) (bidders : List LocalBid) :
    selectedWinners cfg bidders = (cfg.rank bidders).head?.toList := by
  unfold selectedWinners
  cases cfg.rank bidders with
  | nil => rfl
  | cons best bids =>
    unfold selectDistinct
    rw [if_neg List.not_mem_nil]
    cases bids <;> rfl

theorem selectionSound_of_best {w : Chain} {cfg : Config} {bidders : List LocalBid} (hne : bidders ≠ [])
    (hsound : ∀ bid ∈ bidders, BidderSound w key bid) (hgood : ScoringGood cfg bidders) :
    SelectionSound key (selectedWinners cfg bidders) w := by
  rw [selectedWinners_eq]
  have hperm := cfg.rank_perm bidders
  cases hrank : cfg.rank bidders with
  | nil =>
    rw [hrank] at hperm
    have hzip := hperm.symm.eq_nil
    exact absurd (List.zipIdx_eq_nil_iff.mp hzip) hne
  | cons best bids =>
    have hbest : (cfg.rank bidders).head? = some best := by
      rw [hrank]
      rfl
    obtain ⟨i, hi⟩ := Option.ne_none_iff_exists'.mp (hgood best hbest)
    have hmem : best ∈ bidders.zipIdx := by
      rw [hrank] at hperm
      exact hperm.subset List.mem_cons_self
    obtain ⟨a, haddress, ha⟩ := hsound best.1 (List.fst_mem_of_mem_zipIdx hmem) i hi
    refine ⟨best, a, i, rfl, haddress, ?_, ha⟩
    simp [winningBidIndices, hi]

theorem SelectionSound.winnerAddresses {selected : List (LocalBid × ℕ)} {w : Chain}
    (h : SelectionSound key selected w) : ∃ a i, winnerAddresses selected = [.address a] ∧
      winningBidIndices selected = [i] ∧ (agents w key)[i]? = some a ∧
        ∀ bid ∈ selected, bid.1.evmAddress = .address a := by
  obtain ⟨bid, a, i, rfl, haddress, hindex, ha⟩ := h
  refine ⟨a, i, ?_, hindex, ha, fun bid' hbid' => ?_⟩
  · simp [Orchestrator.winnerAddresses, haddress, AddressText.truthy]
  · rw [List.mem_singleton.mp hbid']
    exact haddress

/-- The agents that were selected are winners on the chain. -/
def SelectionDone (key : ℕ) (selected : List (LocalBid × ℕ)) (w : Chain) : Prop :=
  ∃ a, winnerAddresses selected = [.address a] ∧ a ∈ (w.state.jobs key).winningAgents ∧
    ∀ bid ∈ selected, bid.1.evmAddress = .address a

theorem steady_done (selected : List (LocalBid × ℕ)) :
    S.Steady fun _ w _ => S.select → SelectionDone key selected w := by
  refine steady_chain fun w w' hf hk hsel => ?_
  obtain ⟨a, hwinners, ha, hall⟩ := hf hsel
  exact ⟨a, hwinners, (hk key).winners a ha, hall⟩

/-- The selection is sent, and when it succeeds, it has been made. -/
theorem triple_sendSelection (hP : S.Steady P) {selected : List (LocalBid × ℕ)}
    (hsound : ∀ h w t, P h w t → S.select → SelectionSound key selected w) :
    S.Triple P (sendSelection key v selected)
      (fun _ h w t => P h w t ∧ (S.select → SelectionDone key selected w)) (fun _ => P) := by
  intro h m w t hinv hp hnote
  refine ⟨hinv, ?_, ?_⟩
  · intro hsel
    obtain ⟨a, i, hwinners, hindex, ha, -⟩ := (hsound h w t hp hsel).winnerAddresses
    exact ⟨a, i, (hnote hsel).trans hwinners, hindex, ha⟩
  · intro answer src dst time m' w' t' ha hinv'
    have hp' := hP h m w t _ w' t' hinv hp ha
    cases answer with
    | error e => exact ⟨hinv', hp'⟩
    | ok u =>
      refine ⟨hinv', hp', fun hsel => ?_⟩
      obtain ⟨a, i, hwinners, hindex, hplace, hall⟩ := (hsound h w t hp hsel).winnerAddresses
      obtain ⟨hsrc, hk⟩ := Later.keeps (show (AuditAuction.contract S.this).system.Reachable w from hinv.reachable)
        ha.sent
      have hplace : (agents src key)[i]? = some a := agents_later (hk key) hplace
      have hserved : serves S.this src (.selectWinners key (m.object key v).winners (winningBidIndices selected))
        (.ok u) dst := ha.served
      obtain ⟨id, indices, rfl, hindices, htx⟩ := hserved
      cases htx with
      | mined hstep =>
        have hwinner : a ∈ (dst.state.jobs id).winningAgents := by
          cases hstep with
          | call _ _ _ hexec =>
            have hi : i ∈ indices.map Fin.val := by
              rw [hindices, hindex]
              exact List.mem_singleton_self i
            obtain ⟨a', hwon, hget⟩ := AuditAuction.exec_selectWinners_winners hexec i hi
            have hsame : some a' = some a := hget.symm.trans hplace
            rw [← Option.some_inj.mp hsame]
            exact hwon
        have hkept := (Later.keeps (hsrc.step hstep) ha.arrived).2 id
        exact ⟨a, hwinners, hkept.winners a hwinner, hall⟩

theorem stays_publishWinners (hP : S.Steady P) {selected : List (LocalBid × ℕ)}
    (hdone : ∀ h w t, P h w t → S.select → SelectionDone key selected w) :
    S.Stays P (publishWinnerSelectedAuditLog key (winnerAddresses selected)) := by
  refine Triple.ite (fun _ => Stays.pure _) fun _ => stays_ignore (Stays.call hP fun h m w t _ hp hsel => ?_)
  obtain ⟨a, hwinners, ha, -⟩ := hdone h w t hp hsel
  intro b hb
  rw [hwinners] at hb
  have hb : b = a := by simpa [normalizeWinnerAddresses, normalizeAddress] using hb
  rw [hb]
  exact ha

theorem stays_dispatchTasks {winners : List (LocalBid × ℕ)}
    (hwinners : ∀ h w t, P h w t → S.select → ∀ bid ∈ winners, AssignedSound w key bid.1.evmAddress) :
    S.Stays P (dispatchTasks key winners) := by
  induction winners with
  | nil => exact Stays.pure _
  | cons winner winners ih =>
    have hrest := ih fun h w t hp hsel bid hbid => hwinners h w t hp hsel bid (List.mem_cons_of_mem _ hbid)
    refine .bind .memory fun m => ?_
    split_ifs
    · refine .bind (Triple.spawn fun h w t hp hsel => ?_) fun _ => hrest
      exact hwinners h w t hp hsel winner List.mem_cons_self
    · exact hrest

theorem stays_selectAttempt (hP : S.Steady P) {selected : List (LocalBid × ℕ)}
    (hsound : ∀ h w t, P h w t → S.select → SelectionSound key selected w) :
    S.Stays P (selectAttempt key v selected) := by
  refine .bind (stays_ensureHbar hP) fun _ => Triple.bind (triple_sendSelection hP hsound) fun _ => ?_
  have hsteady : S.Steady fun h w t => P h w t ∧ (S.select → SelectionDone key selected w) :=
    hP.and (steady_done selected)
  have hrest : S.Stays (fun h w t => P h w t ∧ (S.select → SelectionDone key selected w)) (do
      publishWinnerSelectedAuditLog key (winnerAddresses selected)
      dispatchTasks key selected
      writeJob key v id
      publishWinnerSelectionTiming key "success") := by
    refine .bind (stays_publishWinners hsteady fun _ _ _ hp => hp.2) fun _ => ?_
    refine .bind (stays_dispatchTasks fun h w t hp hsel bid hbid => ?_) fun _ => ?_
    · obtain ⟨a, -, ha, hall⟩ := hp.2 hsel
      exact ⟨a, hall bid hbid, ha⟩
    · exact .bind (stays_writeJob fun _ _ _ _ _ => id) fun _ => stays_timing hsteady _
  exact hrest.mono (fun _ _ _ => id) (fun _ _ _ _ hp => hp.1) (fun _ _ _ _ hp => hp.1)

theorem stays_selectFailed (hP : S.Steady P) (error : String) : S.Stays P (selectFailed key v error) := by
  refine .bind (stays_writeJob fun _ _ _ _ _ hjob => hjob.congr rfl rfl rfl rfl rfl) fun _ => ?_
  exact .bind (stays_publish hP _ _) fun _ => .bind (stays_publish hP _ _) fun _ => stays_timing hP _

theorem stays_setCooldown (cfg : Config) (nowMs : ℕ) : S.Stays P (setCooldown cfg key nowMs) :=
  stays_modify fun _ _ _ _ hinv _ => hinv.congr rfl rfl

theorem stays_deleteCooldown : S.Stays P (deleteCooldown key) :=
  stays_modify fun _ _ _ _ hinv _ => hinv.congr rfl rfl

theorem stays_selectAttempts (hP : S.Steady P) {selected : List (LocalBid × ℕ)}
    (hsound : ∀ h w t, P h w t → S.select → SelectionSound key selected w) (left : ℕ) :
    S.Stays P (selectAttempts S.cfg key v selected left) := by
  induction left with
  | zero => exact Stays.pure _
  | succ left ih =>
    refine .tryCatch (stays_selectAttempt hP hsound) fun e => Triple.ite (fun _ => ?_) fun _ => ?_
    · exact .bind (stays_beforeRetry hP _ _) fun _ => ih
    · exact .bind (stays_selectFailed hP _) fun _ => Stays.bind Stays.time fun _ => stays_setCooldown _ _

theorem stays_selectFrom (hP : S.Steady P) {bidders : List LocalBid} (hne : bidders ≠ [])
    (hsound : ∀ h w t, P h w t → ∀ bid ∈ bidders, BidderSound w key bid) :
    S.Stays P (selectFrom S.cfg key v bidders) := by
  refine Triple.bind (Q := fun _ h w t => P h w t ∧ (S.select → SelectionSound key (selectedWinners S.cfg bidders) w))
    (Triple.tell.mono (fun _ _ _ => id) ?_ fun _ _ _ _ => id) fun _ => ?_
  · rintro _ h w t ⟨hp, hgood⟩
    exact ⟨hp, fun hsel => selectionSound_of_best hne (hsound h w t hp) (hgood hsel)⟩
  have hsteady : S.Steady fun h w t =>
      P h w t ∧ (S.select → SelectionSound key (selectedWinners S.cfg bidders) w) := hP.and (steady_selection _)
  have hrest : S.Stays (fun h w t => P h w t ∧ (S.select → SelectionSound key (selectedWinners S.cfg bidders) w)) (do
      modify fun m => m.update key v fun job => { job with winners := winnerAddresses (selectedWinners S.cfg bidders) }
      if winningBidIndices (selectedWinners S.cfg bidders) = [] then selectFailed key v "No valid winning bid indices"
      else selectAttempts S.cfg key v (selectedWinners S.cfg bidders) 3) := by
    refine .bind (stays_modify fun _ _ _ _ hinv _ => hinv.update fun _ hjob => ?_) fun _ => ?_
    · exact hjob.congr rfl rfl rfl rfl rfl
    · exact Triple.ite (fun _ => stays_selectFailed hsteady _) fun _ =>
        stays_selectAttempts hsteady (fun _ _ _ hp => hp.2) 3
  exact hrest.mono (fun _ _ _ => id) (fun _ _ _ _ hp => hp.1) (fun _ _ _ _ hp => hp.1)

theorem stays_selectFromNone (hP : S.Steady P) {n : ℕ} (hpos : 0 < n) :
    S.Stays P (selectFromNone S.cfg key v (some n)) := by
  refine Triple.bind (Q := fun count h w t => P h w t ∧ count = n) (Triple.pure fun _ _ _ hp => ⟨hp, rfl⟩)
    fun count => Triple.of_pre ?_
  rintro _ _ _ ⟨-, rfl⟩
  have hne : ¬ count = 0 := Nat.ne_of_gt hpos
  have hrest : S.Stays P (do
      writeJob key v fun job => { job with
        failureReason := some (if 0 < count then "On-chain bids exist but local bidder hydration failed"
          else "No bids collected before winner deadline") }
      publishAuditLog "JOB_FAILED" key "select_winners"
      if count = 0 then discard (closeExpiredAuction S.cfg key "no_bids_before_deadline")
      publishWinnerSelectionTiming key (if 0 < count then "failed" else "skipped")) := by
    refine .bind (stays_writeJob fun _ _ _ _ _ hjob => hjob.congr rfl rfl rfl rfl rfl) fun _ => ?_
    refine .bind (stays_publish hP _ _) fun _ => ?_
    rw [if_neg hne]
    exact stays_timing hP _
  exact hrest.pre fun _ _ _ hp => hp.1

/-! ## `selectWinnersOnChain` and `requestWinnerSelection` -/

theorem stays_jobToSelect (hP : S.Steady P) : S.Stays P (jobToSelect S.cfg key) := by
  refine .bind .memory fun m => ?_
  split
  · exact Stays.pure _
  · exact stays_hydrateJobForSelection hP

/-- `runSelect` keeps to the rules where bids were counted. -/
theorem stays_runSelect (hP : S.Steady P) {readiness : ReadinessInputs}
    (hbids : ∀ h w t, P h w t →
      ∃ n, readiness.onChainBidCount = some n ∧ 0 < n ∧ n ≤ (agents w key).length) :
    S.Stays P (runSelect S.cfg key readiness) := by
  refine .bind (stays_jobToSelect hP) fun found => ?_
  cases found with
  | none =>
    refine Stays.bind Stays.time fun _ => .bind (stays_setCooldown _ _) fun _ => ?_
    exact .bind (stays_ignore (stays_publish hP _ _)) fun _ => stays_timing hP _
  | some v =>
    refine .bind (Triple.attempt ((triple_getJob hP).mono (fun _ _ _ => id) (fun _ _ _ _ hp => hp.1)
      fun _ _ _ _ => id)) fun onChainJob => ?_
    cases onChainJob with
    | none => exact Stays.pure _
    | some onChainJob =>
      refine Triple.ite (fun _ => ?_) fun _ => Triple.of_pre fun h₀ w₀ t₀ hp₀ => ?_
      · exact .bind (stays_ignore (stays_publish hP _ _)) fun _ => stays_timing hP _
      obtain ⟨n, hn, hpos, -⟩ := hbids h₀ w₀ t₀ hp₀
      have hle : ∀ h w t, P h w t → n ≤ (agents w key).length := by
        intro h w t hp
        obtain ⟨n', hn', -, hle⟩ := hbids h w t hp
        rw [hn] at hn'
        exact Option.some_inj.mp hn' ▸ hle
      rw [hn]
      refine Triple.bind (triple_hydrateBidders hP hpos hle) fun count => Triple.of_pre ?_
      rintro _ _ _ ⟨-, k, rfl, hk⟩
      have hrest : S.Stays P (do
          ignore (publishAuditLog "WINNER_SELECTION_SUMMARY" key "")
          let m ← memory
          if m.bidders key (m.object key v).bidders = [] then selectFromNone S.cfg key v (some k)
          else selectFrom S.cfg key v (m.bidders key (m.object key v).bidders)) := by
        refine .bind (stays_ignore (stays_publish hP _ _)) fun _ => ?_
        refine Triple.bind (Q := fun m h w t => P h w t ∧
          ∀ bid ∈ m.bidders key (m.object key v).bidders, BidderSound w key bid) ?_ fun m => ?_
        · exact Triple.memory fun h m w t hinv hp => ⟨hp, hinv.bidders key _⟩
        · refine Triple.ite (fun _ => (stays_selectFromNone hP hk).pre fun _ _ _ hp => hp.1) fun hne => ?_
          have hsteady : S.Steady fun h w t => P h w t ∧
              ∀ bid ∈ m.bidders key (m.object key v).bidders, BidderSound w key bid :=
            hP.and (steady_chain fun _ _ hf hk bid hbid => (hf bid hbid).later (hk key))
          exact (stays_selectFrom hsteady hne fun _ _ _ hp => hp.2).mono (fun _ _ _ => id)
            (fun _ _ _ _ hp => hp.1) (fun _ _ _ _ hp => hp.1)
      exact hrest.pre fun _ _ _ hp => hp.1

theorem stays_selectWinnersOnChain (hP : S.Steady P) {readiness : ReadinessInputs}
    (hbids : ∀ h w t, P h w t →
      ∃ n, readiness.onChainBidCount = some n ∧ 0 < n ∧ n ≤ (agents w key).length) :
    S.Stays P (selectWinnersOnChain S.cfg key readiness) := by
  refine .bind .memory fun m => Triple.ite (fun _ => stays_runSelect hP hbids) fun _ => ?_
  refine Triple.ite (fun _ => ?_) fun _ => ?_
  · refine .bind (stays_ignore (stays_publish hP _ _)) fun _ => ?_
    exact stays_call hP fun _ _ _ => trivial
  · exact stays_bracket (stays_runSelect hP hbids) (fun _ _ hinv => hinv.congr rfl rfl)
      fun _ _ hinv => hinv.congr rfl rfl

theorem stays_scheduleWinnerSelection (auctionDeadlineSec : ℕ)
    (hposted : ∀ h w t, P h w t → (w.state.jobs key).jobId ≠ 0) :
    S.Stays P (scheduleWinnerSelection key auctionDeadlineSec) := by
  refine stays_modify fun h m w t hinv hp => ?_
  split
  · exact hinv
  · refine (hinv.update fun job hjob => ?_).setJobByKey _ _
    exact hjob.setDeadline (hposted h w t hp) rfl rfl rfl rfl

theorem stays_requestWinnerSelection (hP : S.Steady P) (sourcePath : String) (hint : ReadinessHint)
    (hhint : ∀ h w t, P h w t → hint = .none ∨ HintSound w key hint) :
    S.Stays P (requestWinnerSelection S.cfg key sourcePath hint) := by
  refine Triple.bind (triple_readiness hP hint hhint) fun readiness => ?_
  have hsteady : S.Steady fun h w t => P h w t ∧ readiness.jobId = key ∧ Readiness S readiness h w t :=
    hP.and ((steady_const _).and (steady_readiness readiness))
  have hweaken : ∀ {x : Async Unit}, S.Stays (fun h w t => P h w t ∧ readiness.jobId = key ∧
      Readiness S readiness h w t) x → S.Triple (fun h w t => P h w t ∧ readiness.jobId = key ∧
      Readiness S readiness h w t) x (fun _ => P) (fun _ => P) :=
    fun hx => hx.mono (fun _ _ _ => id) (fun _ _ _ _ hp => hp.1) (fun _ _ _ _ hp => hp.1)
  refine hweaken ?_
  cases hcode : readiness.reasonCode with
  | ready =>
    refine stays_selectWinnersOnChain hsteady ?_
    rintro h w t ⟨-, rfl, hready⟩
    exact hready.ready hcode
  | deadlineNotReached =>
    refine .bind (stays_deferred hsteady _) fun _ => ?_
    cases hdeadline : readiness.deadlineSec with
    | none => exact stays_timing hsteady _
    | some deadlineSec =>
      refine .bind (stays_scheduleWinnerSelection _ ?_) fun _ => stays_timing hsteady _
      rintro h w t ⟨-, rfl, hready⟩
      exact hready.posted (by rw [hdeadline]; exact Option.some_ne_none _)
  | noOnchainBids =>
    refine .bind (stays_deferred hsteady _) fun _ => ?_
    have hmay : ∀ h w t, P h w t ∧ readiness.jobId = key ∧ Readiness S readiness h w t →
        MayClose S.close key h w t := by
      rintro h w t ⟨-, rfl, hready⟩
      exact hready.noBids hcode
    refine .bind (.bind (stays_closeExpiredAuction hsteady hmay _) fun _ => Stays.pure _) fun _ => ?_
    exact stays_timing hsteady _
  | notFound => exact .bind (stays_deferred hsteady _) fun _ => stays_timing hsteady _
  | terminalStatus => exact .bind (stays_deferred hsteady _) fun _ => stays_timing hsteady _

end AuditGuard.Orchestrator
