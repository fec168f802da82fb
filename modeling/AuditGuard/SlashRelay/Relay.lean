import AuditGuard.Library.Pointwise
import AuditGuard.SlashRelay.Model

/-!
# The slash relay: each confirmed slash once

What the relay is for: every confirmed slash is propagated, once, and no slash whose appeal was approved
(`Relayed`). The latter is so in every run, since the contract never both confirms a slash and approves its appeal.
The rest depends on where failures, restarts and repeated deliveries fall: the entry of a slash is deleted before its
transaction, is kept in memory alone, and comes back when its `SlashInitiated` is delivered once more. A run in which
none of this does harm (`Careful`) relays (`relayed_of_careful`).
-/

namespace AuditGuard.SlashRelay

open Evm TransitionSystem

variable {S : Setup} {b b' : Bridge} {e : Event} {r : Relay} {t t' : Task} {id : ℕ} {slash : PendingSlash}

/-! ## What is relayed -/

/-- The event is the initiation of the slash. -/
def Initiates (e : StakingManager.Event) (id : ℕ) (slash : PendingSlash) : Prop :=
  ∃ reason slashedAmount evidenceHash jobId,
    e = .slashInitiated id slash.agent reason slashedAmount slash.slashBps evidenceHash jobId

/-- The slash was initiated. -/
def Bridge.Initiated (b : Bridge) (id : ℕ) (slash : PendingSlash) : Prop :=
  ∃ e ∈ b.staking.state.log, Initiates e id slash

/-- The slashes whose confirmation was delivered. -/
def Bridge.confirmed (b : Bridge) : List ℕ :=
  (b.staking.state.log.take b.delivered).filterMap StakingManager.Event.confirmed

/-- The slashes that were propagated. -/
def Bridge.slashed (b : Bridge) : List ℕ := b.propagated.map Prod.fst

/-- A call for the slash is under way. -/
def Relay.UnderWay (r : Relay) (id : ℕ) : Prop := ∃ t ∈ r.tasks, t.slashId = id ∧ t.pos ≠ .finished

instance (r : Relay) (id : ℕ) : Decidable (r.UnderWay id) := inferInstanceAs (Decidable (∃ _ ∈ _, _))

/-- Nothing is doubled and nothing is lost. -/
structure Relayed (b : Bridge) : Prop where
  once : b.slashed.Nodup
  initiated : ∀ p ∈ b.propagated, b.Initiated p.1 p.2
  notApproved : ∀ id ∈ b.slashed, ∀ agent restoredAmount,
    .appealApproved id agent restoredAmount ∉ b.staking.state.log
  kept : ∀ id ∈ b.confirmed, id ∈ b.slashed ∨ b.relay.pendingSlashes id ≠ none ∨ b.relay.UnderWay id

/-! ## When it is -/

/-- The transaction of the call has not landed, and cannot any more. -/
def Task.Spent (t : Task) : Prop := t.tx = .reverted ∨ t.tx = .unsent ∧ t.pos ≠ .propagateDelegatedSlash

instance (t : Task) : Decidable t.Spent := inferInstanceAs (Decidable (_ ∨ _))

/-- No entry of a slash is used or missed wrongly. A confirmation finds an entry only if no earlier transaction for
the slash landed or can land, and finds none only if the slash was propagated or a call for it is under way. A call
fails only if its transaction landed, or else there is an entry again, or another call. The process is started anew
only when every confirmed slash was propagated. -/
def Careful (b : Bridge) : Event → Prop
  | .deliver i => ∀ id ∈ b.staking.state.log[i]?.bind StakingManager.Event.confirmed,
      if b.relay.pendingSlashes id = none then id ∈ b.slashed ∨ b.relay.UnderWay id
      else ∀ t ∈ b.relay.tasks, t.slashId = id → t.Spent
  | .answer d (.error _) => ∀ t ∈ b.relay.tasks[d]?, t.pos = .publishAuditLog ∨ t.tx = .landed ∨
      b.relay.pendingSlashes t.slashId ≠ none ∨
      ∃ u ∈ b.relay.tasks.eraseIdx d, u.slashId = t.slashId ∧ u.pos ≠ .finished
  | .restart => ∀ id ∈ b.confirmed, id ∈ b.slashed
  | _ => True

instance : DecidablePred (Careful b) := fun e =>
  match e with
  | .deliver _ => inferInstanceAs (Decidable (∀ _ ∈ _, _))
  | .answer _ (.error _) => inferInstanceAs (Decidable (∀ _ ∈ _, _))
  | .restart => inferInstanceAs (Decidable (∀ _ ∈ _, _))
  | .answer _ (.ok _) | .staking _ | .delegated _ | .send _ | .land .. | .revert _ => inferInstanceAs (Decidable True)

/-! ## Logs -/

theorem mem_confirmed : id ∈ b.confirmed ↔
    ∃ i < b.delivered, ∃ e, b.staking.state.log[i]? = some e ∧ e.confirmed = some id := by
  unfold Bridge.confirmed
  rw [List.mem_filterMap]
  constructor
  · rintro ⟨e, he, hid⟩
    obtain ⟨i, hi, rfl⟩ := List.mem_take_iff_getElem.mp he
    have hlt : i < b.delivered ∧ i < b.staking.state.log.length := by omega
    exact ⟨i, hlt.1, _, List.getElem?_eq_getElem hlt.2, hid⟩
  · rintro ⟨i, hi, e, he, hid⟩
    obtain ⟨hlt, rfl⟩ := List.getElem?_eq_some_iff.mp he
    exact ⟨_, List.mem_take_iff_getElem.mpr ⟨i, by omega, rfl⟩, hid⟩

theorem confirmed_mono (hlog : b.staking.state.log <+: b'.staking.state.log) (hdelivered : b.delivered ≤ b'.delivered)
    (hid : id ∈ b.confirmed) : id ∈ b'.confirmed := by
  obtain ⟨i, hi, e, he, hconfirmed⟩ := mem_confirmed.mp hid
  refine mem_confirmed.mpr ⟨i, hi.trans_le hdelivered, e, ?_, hconfirmed⟩
  obtain ⟨es, hes⟩ := hlog
  obtain ⟨hlt, -⟩ := List.getElem?_eq_some_iff.mp he
  rw [← hes, List.getElem?_append_left hlt, he]

theorem Initiated.mono (hlog : b.staking.state.log <+: b'.staking.state.log) (h : b.Initiated id slash) :
    b'.Initiated id slash := by
  obtain ⟨e, he, hinitiates⟩ := h
  exact ⟨e, hlog.subset he, hinitiates⟩

theorem Step.log_prefix (hb : (StakingManager.system S.stakingManager).Reachable b.staking) (h : Step S b e b') :
    b.staking.state.log <+: b'.staking.state.log := by
  cases h with
  | staking h =>
    obtain ⟨es, hlog, -⟩ := (StakingManager.Step.grows hb h).log
    exact ⟨es, hlog.symm⟩
  | _ => exact List.prefix_rfl

theorem reachable_staking (hb : (system S).Reachable b) :
    (StakingManager.system S.stakingManager).Reachable b.staking := by
  refine hb.induct (I := fun b => (StakingManager.system S.stakingManager).Reachable b.staking)
    (fun b (h : (system S).init b) => h.1) fun b e b' _ ih h => ?_
  cases h with
  | staking h => exact ih.step h
  | _ => exact ih

/-! ## What a step does to the calls -/

/-- How a call goes on. -/
structure Task.Advances (t t' : Task) : Prop where
  slashId : t'.slashId = t.slashId
  slash : t'.slash = t.slash
  spent : t.Spent → t'.Spent
  landed : t.tx = .landed → t'.tx = .landed

theorem Task.Advances.refl (t : Task) : t.Advances t := ⟨rfl, rfl, id, id⟩

theorem Task.Advances.of_move {pos : Pos}
    (hpos : t.tx = .unsent → pos = .finished) : t.Advances { t with pos := pos } where
  slashId := rfl
  slash := rfl
  spent hspent := by
    rcases hspent with hreverted | ⟨hunsent, -⟩
    · exact .inl hreverted
    · refine .inr ⟨hunsent, ?_⟩
      rw [hpos hunsent]
      nofun
  landed hlanded := hlanded

theorem Task.Advances.of_tx {tx : TxStatus} (hspent : ¬ t.Spent) (hlanded : t.tx ≠ .landed) :
    t.Advances { t with tx := tx } where
  slashId := rfl
  slash := rfl
  spent h := absurd h hspent
  landed h := absurd h hlanded

theorem resume_cases {d : ℕ} {a : Except String Unit} (hserves : t.serves a = true) (r : Relay) :
    ∃ pos, (r.resume d t a).tasks = r.tasks.set d { t with pos := pos } ∧
      (r.resume d t a).pendingSlashes = r.pendingSlashes ∧ (t.tx = .unsent → pos = .finished) ∧
      (pos = .publishAuditLog → t.tx = .landed) ∧
      (pos = .finished → t.pos = .publishAuditLog ∨ ∃ error, a = .error error) := by
  obtain ⟨slashId, trigger, slash, pos, tx⟩ := t
  rcases a with error | ⟨⟩
  · refine ⟨.finished, ?_, ?_, fun _ => rfl, nofun, fun _ => .inr ⟨error, rfl⟩⟩
    · cases pos <;> rfl
    · cases pos <;> rfl
  · cases pos with
    | propagateDelegatedSlash =>
      have hsent : tx ≠ .unsent := of_decide_eq_true hserves
      exact ⟨.wait, rfl, rfl, fun h => absurd h hsent, nofun, nofun⟩
    | wait =>
      have hlanded : tx = .landed := of_decide_eq_true hserves
      have hsent : tx ≠ .unsent := by
        rw [hlanded]
        nofun
      exact ⟨.publishAuditLog, rfl, rfl, fun h => absurd h hsent, fun _ => hlanded, nofun⟩
    | publishAuditLog => exact ⟨.finished, rfl, rfl, fun _ => rfl, nofun, fun _ => .inl rfl⟩
    | finished => cases hserves

theorem Task.not_spent_of_sent (htx : t.tx = .sent) : ¬ t.Spent := by
  unfold Task.Spent
  simp [htx]

theorem Task.not_spent_of_unsent (hpos : t.pos = .propagateDelegatedSlash) (htx : t.tx = .unsent) : ¬ t.Spent := by
  unfold Task.Spent
  simp [hpos, htx]

theorem Step.advances (h : Step S b e b') (he : ∀ i, e ≠ .deliver i) :
    Pointwise Task.Advances b.relay.tasks b'.relay.tasks := by
  cases h with
  | staking | delegated => exact .refl .refl _
  | deliver => exact absurd rfl (he _)
  | send ht hpos htx => exact .set .refl ht (.of_tx (Task.not_spent_of_unsent hpos htx) (by simp [htx]))
  | land ht htx | revert ht htx => exact .set .refl ht (.of_tx (Task.not_spent_of_sent htx) (by simp [htx]))
  | @answer d t a ht hserves =>
    obtain ⟨pos, htasks, -, hunsent, -⟩ := resume_cases (d := d) hserves b.relay
    dsimp only
    rw [htasks]
    exact .set .refl ht (.of_move hunsent)
  | restart => exact .map (fun t => .of_move fun _ => rfl) _

theorem onEvent_cases (e : StakingManager.Event) (r : Relay) :
    (∃ id slash, Initiates e id slash ∧ e.confirmed = none ∧
      r.onEvent e = { r with pendingSlashes := Function.update r.pendingSlashes id (some slash) }) ∨
    (∃ id trigger, e.confirmed = some id ∧ r.onEvent e = r.finalizeSlash id trigger) ∨
    (e.confirmed = none ∧ r.onEvent e = r) := by
  cases e with
  | slashInitiated slashId agent reason slashedAmount slashBps evidenceHash jobId =>
    exact .inl ⟨slashId, ⟨agent, slashBps⟩, ⟨reason, slashedAmount, evidenceHash, jobId, rfl⟩, rfl, rfl⟩
  | appealDenied slashId => exact .inr (.inl ⟨slashId, .appealDenied, rfl, rfl⟩)
  | appealExpired slashId => exact .inr (.inl ⟨slashId, .appealExpired, rfl, rfl⟩)
  | _ => exact .inr (.inr ⟨rfl, rfl⟩)

/-! ## What holds in any run -/

/-- What the relay holds comes from the log, and what it takes for landed has landed. -/
structure Sound (b : Bridge) : Prop where
  pending : ∀ id slash, b.relay.pendingSlashes id = some slash → b.Initiated id slash
  initiated : ∀ t ∈ b.relay.tasks, b.Initiated t.slashId t.slash
  confirmed : ∀ t ∈ b.relay.tasks, t.slashId ∈ b.confirmed
  audited : ∀ t ∈ b.relay.tasks, t.pos = .publishAuditLog → t.tx = .landed
  landed : ∀ t ∈ b.relay.tasks, t.tx = .landed → t.slashId ∈ b.slashed
  propagated : ∀ p ∈ b.propagated, ∃ t ∈ b.relay.tasks, t.tx = .landed ∧ t.slashId = p.1 ∧ t.slash = p.2
  delivered : b.delivered ≤ b.staking.state.log.length

theorem Sound.advance (hb : Sound b) (hlog : b.staking.state.log <+: b'.staking.state.log)
    (hdelivered : b'.delivered = b.delivered) (htasks : Pointwise Task.Advances b.relay.tasks b'.relay.tasks)
    (hpending : ∀ id slash, b'.relay.pendingSlashes id = some slash → b.relay.pendingSlashes id = some slash)
    (haudited : ∀ t ∈ b'.relay.tasks, t.pos = .publishAuditLog → t.tx = .landed)
    (hlanded : ∀ t ∈ b'.relay.tasks, t.tx = .landed → t.slashId ∈ b'.slashed)
    (hpropagated : ∀ p ∈ b'.propagated, p ∈ b.propagated ∨
      ∃ t ∈ b'.relay.tasks, t.tx = .landed ∧ t.slashId = p.1 ∧ t.slash = p.2) : Sound b' where
  pending id slash h := Initiated.mono hlog (hb.pending id slash (hpending id slash h))
  initiated t' ht' := by
    obtain ⟨t, ht, hadvances⟩ := htasks.mem_back ht'
    rw [hadvances.slashId, hadvances.slash]
    exact Initiated.mono hlog (hb.initiated t ht)
  confirmed t' ht' := by
    obtain ⟨t, ht, hadvances⟩ := htasks.mem_back ht'
    rw [hadvances.slashId]
    exact confirmed_mono hlog hdelivered.ge (hb.confirmed t ht)
  audited := haudited
  landed := hlanded
  propagated p hp := by
    rcases hpropagated p hp with hold | hnew
    · obtain ⟨t, ht, hlanded, hid, hslash⟩ := hb.propagated p hold
      obtain ⟨t', ht', hadvances⟩ := htasks.mem_forth ht
      exact ⟨t', ht', hadvances.landed hlanded, hadvances.slashId.trans hid, hadvances.slash.trans hslash⟩
    · exact hnew
  delivered := by
    rw [hdelivered]
    exact hb.delivered.trans hlog.length_le

theorem Sound.setTx {d : ℕ} {tx : TxStatus} (hb : Sound b) (ht : b.relay.tasks[d]? = some t) (hspent : ¬ t.Spent)
    (hold : t.tx ≠ .landed) (hnew : tx ≠ .landed) : Sound { b with relay := b.relay.setTx d t tx } := by
  have hpoint : Pointwise Task.Advances b.relay.tasks (b.relay.setTx d t tx).tasks :=
    .set .refl ht (.of_tx hspent hold)
  refine hb.advance List.prefix_rfl rfl hpoint (fun _ _ h => h) (fun u hu haudit => ?_) (fun u hu hlanded => ?_)
    fun p hp => .inl hp
  · rcases List.mem_or_eq_of_mem_set hu with hu | rfl
    · exact hb.audited u hu haudit
    · exact absurd (hb.audited t (List.mem_of_getElem? ht) haudit) hold
  · rcases List.mem_or_eq_of_mem_set hu with hu | rfl
    · exact hb.landed u hu hlanded
    · exact absurd hlanded hnew

theorem Sound.land {d : ℕ} {w : DelegatedStaking.World} (hb : Sound b) (ht : b.relay.tasks[d]? = some t)
    (htx : t.tx = .sent) : Sound { b with
      relay := b.relay.setTx d t .landed
      delegated := w
      propagated := b.propagated ++ [(t.slashId, t.slash)] } := by
  have hlt := (List.getElem?_eq_some_iff.mp ht).1
  have hpoint : Pointwise Task.Advances b.relay.tasks (b.relay.setTx d t .landed).tasks :=
    .set .refl ht (.of_tx (Task.not_spent_of_sent htx) (by simp [htx]))
  have hslashed : ∀ id ∈ b.slashed, id ∈ (b.propagated ++ [(t.slashId, t.slash)]).map Prod.fst := by
    intro id hid
    rw [List.map_append]
    exact List.mem_append_left _ hid
  refine hb.advance List.prefix_rfl rfl hpoint (fun _ _ h => h) (fun u hu haudit => ?_) (fun u hu hlanded => ?_)
    fun p hp => ?_
  · rcases List.mem_or_eq_of_mem_set hu with hu | rfl
    · exact hb.audited u hu haudit
    · rfl
  · rcases List.mem_or_eq_of_mem_set hu with hu | rfl
    · exact hslashed _ (hb.landed u hu hlanded)
    · exact List.mem_map_of_mem (List.mem_append_right _ (List.mem_singleton_self _))
  · rcases List.mem_append.mp hp with hp | hp
    · exact .inl hp
    · obtain rfl := List.mem_singleton.mp hp
      exact .inr ⟨_, List.mem_set hlt _, rfl, rfl, rfl⟩

/-- A delivery leaves what the relay holds true of the log. -/
theorem Sound.deliver {i : ℕ} {e : StakingManager.Event} (hb : Sound b) (he : b.staking.state.log[i]? = some e) :
    Sound { b with relay := b.relay.onEvent e, delivered := max b.delivered (i + 1) } := by
  have hmono : ∀ id ∈ b.confirmed, id ∈ ({ b with
      relay := b.relay.onEvent e, delivered := max b.delivered (i + 1) } : Bridge).confirmed :=
    fun id hid => confirmed_mono (b := b) List.prefix_rfl (le_max_left b.delivered (i + 1)) hid
  have hdelivered : max b.delivered (i + 1) ≤ b.staking.state.log.length :=
    max_le hb.delivered (List.getElem?_eq_some_iff.mp he).1
  rcases onEvent_cases e b.relay with ⟨id, slash, hinitiates, -, hevent⟩ | ⟨id, trigger, hid, hevent⟩ | ⟨-, hevent⟩
  · rw [hevent] at hmono ⊢
    constructor
    case pending =>
      intro id' slash' h
      dsimp only at h
      rcases eq_or_ne id' id with rfl | hne
      · rw [Function.update_self] at h
        obtain rfl := Option.some.inj h
        exact ⟨e, List.mem_of_getElem? he, hinitiates⟩
      · rw [Function.update_of_ne hne] at h
        exact hb.pending id' slash' h
    case initiated => exact hb.initiated
    case confirmed => exact fun t ht => hmono _ (hb.confirmed t ht)
    case audited => exact hb.audited
    case landed => exact hb.landed
    case propagated => exact hb.propagated
    case delivered => exact hdelivered
  · rw [hevent] at hmono ⊢
    unfold Relay.finalizeSlash at hmono ⊢
    cases hslash : b.relay.pendingSlashes id with
    | none =>
      rw [hslash] at hmono
      exact ⟨hb.pending, hb.initiated, fun t ht => hmono _ (hb.confirmed t ht), hb.audited, hb.landed, hb.propagated,
        hdelivered⟩
    | some slash =>
      rw [hslash] at hmono
      dsimp only at hmono ⊢
      constructor
      case pending =>
        intro id' slash' h
        dsimp only at h
        rcases eq_or_ne id' id with rfl | hne
        · rw [Function.update_self] at h
          cases h
        · rw [Function.update_of_ne hne] at h
          exact hb.pending id' slash' h
      case initiated =>
        intro t ht
        rcases List.mem_append.mp ht with ht | ht
        · exact hb.initiated t ht
        · obtain rfl := List.mem_singleton.mp ht
          exact hb.pending id slash hslash
      case confirmed =>
        intro t ht
        rcases List.mem_append.mp ht with ht | ht
        · exact hmono _ (hb.confirmed t ht)
        · obtain rfl := List.mem_singleton.mp ht
          exact mem_confirmed.mpr ⟨i, by dsimp only; omega, e, he, hid⟩
      case audited =>
        intro t ht haudit
        rcases List.mem_append.mp ht with ht | ht
        · exact hb.audited t ht haudit
        · obtain rfl := List.mem_singleton.mp ht
          cases haudit
      case landed =>
        intro t ht hlanded
        rcases List.mem_append.mp ht with ht | ht
        · exact hb.landed t ht hlanded
        · obtain rfl := List.mem_singleton.mp ht
          cases hlanded
      case propagated =>
        intro p hp
        obtain ⟨t, ht, hlanded⟩ := hb.propagated p hp
        exact ⟨t, List.mem_append_left _ ht, hlanded⟩
      case delivered => exact hdelivered
  · rw [hevent] at hmono ⊢
    exact ⟨hb.pending, hb.initiated, fun t ht => hmono _ (hb.confirmed t ht), hb.audited, hb.landed, hb.propagated,
      hdelivered⟩

theorem Step.sound (hstaking : (StakingManager.system S.stakingManager).Reachable b.staking) (hb : Sound b)
    (h : Step S b e b') : Sound b' := by
  have hlog := h.log_prefix hstaking
  cases h with
  | staking | delegated =>
    exact hb.advance hlog rfl (.refl .refl _) (fun _ _ h => h) hb.audited hb.landed fun p hp => .inl hp
  | deliver he hi => exact hb.deliver he
  | send ht hpos htx => exact hb.setTx ht (Task.not_spent_of_unsent hpos htx) (by simp [htx]) nofun
  | land ht htx hsender hbps h => exact hb.land ht htx
  | revert ht htx => exact hb.setTx ht (Task.not_spent_of_sent htx) (by simp [htx]) nofun
  | @answer d t a ht hserves =>
    obtain ⟨pos, htasks, hpending, hunsent, hpos, -⟩ := resume_cases (d := d) hserves b.relay
    have hpoint : Pointwise Task.Advances b.relay.tasks (b.relay.resume d t a).tasks := by
      rw [htasks]
      exact .set .refl ht (.of_move hunsent)
    refine hb.advance hlog rfl hpoint (fun id slash h => hpending ▸ h) (fun u hu haudit => ?_)
      (fun u hu hlanded => ?_) fun p hp => .inl hp
    · dsimp only at hu
      rw [htasks] at hu
      rcases List.mem_or_eq_of_mem_set hu with hu | rfl
      · exact hb.audited u hu haudit
      · exact hpos haudit
    · dsimp only at hu
      rw [htasks] at hu
      rcases List.mem_or_eq_of_mem_set hu with hu | rfl
      · exact hb.landed u hu hlanded
      · exact hb.landed t (List.mem_of_getElem? ht) hlanded
  | restart =>
    refine hb.advance hlog rfl (.map (fun t => .of_move fun _ => rfl) _) nofun
      (fun u hu haudit => ?_) (fun u hu hlanded => ?_) fun p hp => .inl hp
    · obtain ⟨t, -, rfl⟩ := List.mem_map.mp hu
      cases haudit
    · obtain ⟨t, ht, rfl⟩ := List.mem_map.mp hu
      exact hb.landed t ht hlanded

/-- What the relay holds is true in every reachable state. -/
theorem reachable_sound (hb : (system S).Reachable b) : Sound b := by
  refine hb.induct (fun b (h : (system S).init b) => ?_) fun b e b' hb ih h => h.sound (reachable_staking hb) ih
  obtain ⟨-, -, hrelay, hdelivered, hpropagated⟩ := h
  obtain ⟨relay, staking, delegated, delivered, propagated⟩ := b
  dsimp only at hrelay hdelivered hpropagated
  subst hrelay hdelivered hpropagated
  exact ⟨nofun, nofun, nofun, nofun, nofun, nofun, Nat.zero_le _⟩

/-! ## What a careful run keeps -/

/-- Of the calls for a slash only one can have landed or still land, and no confirmed slash is lost. -/
structure Kept (b : Bridge) : Prop where
  single : Sole Task.slashId (fun t => ¬ t.Spent) b.relay.tasks
  once : b.slashed.Nodup
  kept : ∀ id ∈ b.confirmed, id ∈ b.slashed ∨ b.relay.pendingSlashes id ≠ none ∨ b.relay.UnderWay id

theorem confirmed_eq (hb : Sound b) (hlog : b.staking.state.log <+: b'.staking.state.log)
    (hdelivered : b'.delivered = b.delivered) : b'.confirmed = b.confirmed := by
  obtain ⟨es, hes⟩ := hlog
  unfold Bridge.confirmed
  rw [← hes, hdelivered, List.take_append_of_le_length hb.delivered]

theorem underWay_setTx {d : ℕ} {tx : TxStatus} (ht : r.tasks[d]? = some t) (h : r.UnderWay id) :
    (r.setTx d t tx).UnderWay id := by
  have hpoint : Pointwise (fun t t' => t'.slashId = t.slashId ∧ t'.pos = t.pos) r.tasks (r.setTx d t tx).tasks :=
    .set (fun _ => ⟨rfl, rfl⟩) ht ⟨rfl, rfl⟩
  obtain ⟨u, hu, hid, hpos⟩ := h
  obtain ⟨u', hu', hid', hpos'⟩ := hpoint.mem_forth hu
  exact ⟨u', hu', hid'.trans hid, hpos' ▸ hpos⟩

theorem Kept.of_setTx {d : ℕ} {tx : TxStatus} (hk : Kept b) (ht : b.relay.tasks[d]? = some t)
    {propagated : List (ℕ × PendingSlash)}
    (hslashed : ∀ id ∈ b.slashed, id ∈ propagated.map Prod.fst) :
    ∀ id ∈ b.confirmed, id ∈ propagated.map Prod.fst ∨ (b.relay.setTx d t tx).pendingSlashes id ≠ none ∨
      (b.relay.setTx d t tx).UnderWay id := by
  intro id hid
  rcases hk.kept id hid with hdone | hpending | hunder
  · exact .inl (hslashed id hdone)
  · exact .inr (.inl hpending)
  · exact .inr (.inr (underWay_setTx ht hunder))

theorem Kept.nodup_land {d : ℕ} (hb : Sound b) (hk : Kept b) (ht : b.relay.tasks[d]? = some t) (htx : t.tx = .sent) :
    ((b.propagated ++ [(t.slashId, t.slash)]).map Prod.fst).Nodup := by
  rw [List.map_append]
  refine List.Nodup.append hk.once (List.nodup_singleton _) ?_
  rw [List.map_singleton, List.disjoint_singleton]
  intro hmem
  obtain ⟨p, hp, hid⟩ := List.mem_map.mp hmem
  obtain ⟨u, hu, hlanded, huid, -⟩ := hb.propagated p hp
  obtain ⟨i, hi⟩ := List.mem_iff_getElem?.mp hu
  have hlive : ¬ u.Spent := by
    unfold Task.Spent
    simp [hlanded]
  -- The call that landed and the one that lands are the same, which cannot be.
  have hsame := hk.single i d u t hi ht (huid.trans hid) hlive (Task.not_spent_of_sent htx)
  subst hsame
  obtain rfl := Option.some.inj (hi.symm.trans ht)
  rw [hlanded] at htx
  cases htx

theorem Kept.answer {d : ℕ} {a : Except String Unit} (hb : Sound b) (hk : Kept b) (hc : Careful b (.answer d a))
    (ht : b.relay.tasks[d]? = some t) (hserves : t.serves a = true) :
    ∀ id ∈ b.confirmed, id ∈ b.slashed ∨ (b.relay.resume d t a).pendingSlashes id ≠ none ∨
      (b.relay.resume d t a).UnderWay id := by
  obtain ⟨pos, htasks, hpending, -, -, hover⟩ := resume_cases (d := d) hserves b.relay
  have hlt := (List.getElem?_eq_some_iff.mp ht).1
  have htmem := List.mem_of_getElem? ht
  unfold Relay.UnderWay
  rw [htasks, hpending]
  intro id hid
  rcases hk.kept id hid with hdone | hentry | ⟨u, hu, huid, hupos⟩
  · exact .inl hdone
  · exact .inr (.inl hentry)
  · obtain ⟨i, hi⟩ := List.mem_iff_getElem?.mp hu
    rcases eq_or_ne d i with rfl | hne
    · obtain rfl := Option.some.inj (ht.symm.trans hi)
      by_cases hpos : pos = .finished
      · -- The call ends, which it does after its transaction landed, or with an error.
        rcases hover hpos with haudit | ⟨error, rfl⟩
        · exact .inl (huid ▸ hb.landed t htmem (hb.audited t htmem haudit))
        · rcases hc t ht with haudit | hlanded | hentry | ⟨v, hv, hvid, hvpos⟩
          · exact .inl (huid ▸ hb.landed t htmem (hb.audited t htmem haudit))
          · exact .inl (huid ▸ hb.landed t htmem hlanded)
          · exact .inr (.inl (huid ▸ hentry))
          · obtain ⟨j, hj, hvj⟩ := List.mem_eraseIdx_iff_getElem?.mp hv
            refine .inr (.inr ⟨v, ?_, hvid.trans huid, hvpos⟩)
            refine List.mem_of_getElem? (i := j) ?_
            rwa [List.getElem?_set_ne (Ne.symm hj)]
      · exact .inr (.inr ⟨_, List.mem_set hlt _, huid, hpos⟩)
    · refine .inr (.inr ⟨u, List.mem_of_getElem? (i := i) ?_, huid, hupos⟩)
      rwa [List.getElem?_set_ne hne]

theorem confirmed_deliver {i : ℕ} {e : StakingManager.Event} (he : b.staking.state.log[i]? = some e)
    (hi : i ≤ b.delivered) (hid : id ∈ ({ b with
      relay := b.relay.onEvent e, delivered := max b.delivered (i + 1) } : Bridge).confirmed) :
    id ∈ b.confirmed ∨ e.confirmed = some id := by
  obtain ⟨j, hj, e', he', hconfirmed⟩ := mem_confirmed.mp hid
  dsimp only at hj he'
  rcases Nat.lt_or_ge j b.delivered with hlt | hge
  · exact .inl (mem_confirmed.mpr ⟨j, hlt, e', he', hconfirmed⟩)
  · obtain rfl : j = i := by omega
    obtain rfl := Option.some.inj (he.symm.trans he')
    exact .inr hconfirmed

/-- A careful delivery starts no second call for a slash, and none is lost. -/
theorem Kept.deliver {i : ℕ} {e : StakingManager.Event} (hk : Kept b) (hc : Careful b (.deliver i))
    (he : b.staking.state.log[i]? = some e) (hi : i ≤ b.delivered) :
    Kept { b with relay := b.relay.onEvent e, delivered := max b.delivered (i + 1) } := by
  have hold : ∀ id, id ∈ ({ b with
      relay := b.relay.onEvent e, delivered := max b.delivered (i + 1) } : Bridge).confirmed →
      id ∈ b.confirmed ∨ e.confirmed = some id := fun id hid => confirmed_deliver he hi hid
  rcases onEvent_cases e b.relay with
    ⟨id, slash, -, hnone, hevent⟩ | ⟨id, trigger, hconfirmed, hevent⟩ | ⟨hnone, hevent⟩
  · -- An entry is written, and every other stays.
    rw [hevent] at hold ⊢
    refine ⟨hk.single, hk.once, fun id' hid' => ?_⟩
    have hid := (hold id' hid').resolve_right (by rw [hnone]; nofun)
    refine (hk.kept id' hid).imp_right (Or.imp_left fun hentry => ?_)
    dsimp only
    rcases eq_or_ne id' id with rfl | hne
    · rw [Function.update_self]
      nofun
    · rwa [Function.update_of_ne hne]
  · have hcase := hc id (by rw [he, Option.bind_some, hconfirmed]; rfl)
    rw [hevent] at hold ⊢
    unfold Relay.finalizeSlash at hold ⊢
    cases hslash : b.relay.pendingSlashes id with
    | none =>
      rw [if_pos hslash] at hcase
      rw [hslash] at hold
      refine ⟨hk.single, hk.once, fun id' hid' => ?_⟩
      rcases hold id' hid' with hid | hid
      · exact hk.kept id' hid
      · obtain rfl := Option.some.inj (hconfirmed.symm.trans hid)
        exact hcase.imp_right .inr
    | some slash =>
      rw [if_neg (by rw [hslash]; nofun)] at hcase
      rw [hslash] at hold
      refine ⟨hk.single.append fun t ht hid hlive => hlive (hcase t ht hid), hk.once, fun id' hid' => ?_⟩
      dsimp only
      rcases eq_or_ne id' id with rfl | hne
      · exact .inr (.inr ⟨_, List.mem_append_right _ (List.mem_singleton_self _), rfl, nofun⟩)
      · have hid := (hold id' hid').resolve_right fun h => hne (Option.some.inj (h.symm.trans hconfirmed))
        rcases hk.kept id' hid with hdone | hentry | ⟨t, ht, htid, hpos⟩
        · exact .inl hdone
        · exact .inr (.inl (by rwa [Function.update_of_ne hne]))
        · exact .inr (.inr ⟨t, List.mem_append_left _ ht, htid, hpos⟩)
  · rw [hevent] at hold ⊢
    refine ⟨hk.single, hk.once, fun id' hid' => ?_⟩
    exact hk.kept id' ((hold id' hid').resolve_right (by rw [hnone]; nofun))

theorem Step.kept (hstaking : (StakingManager.system S.stakingManager).Reachable b.staking) (hb : Sound b)
    (hk : Kept b) (hc : Careful b e) (h : Step S b e b') : Kept b' := by
  have hlog := h.log_prefix hstaking
  by_cases hdeliver : ∃ i, e = .deliver i
  · obtain ⟨i, rfl⟩ := hdeliver
    cases h with
    | deliver he hi => exact hk.deliver hc he hi
  · -- The calls go on, and what is live was live.
    have hsingle : Sole Task.slashId (fun t => ¬ t.Spent) b'.relay.tasks :=
      hk.single.pointwise (h.advances fun i he => hdeliver ⟨i, he⟩) (fun t t' hadvances => hadvances.slashId)
        fun t t' hadvances => mt hadvances.spent
    cases h with
    | staking | delegated =>
      refine ⟨hsingle, hk.once, fun id hid => ?_⟩
      rw [confirmed_eq hb hlog rfl] at hid
      exact hk.kept id hid
    | deliver => exact absurd ⟨_, rfl⟩ hdeliver
    | send ht hpos htx => exact ⟨hsingle, hk.once, hk.of_setTx ht fun id hid => hid⟩
    | land ht htx hsender hbps h =>
      refine ⟨hsingle, hk.nodup_land hb ht htx, hk.of_setTx ht fun id hid => ?_⟩
      rw [List.map_append]
      exact List.mem_append_left _ hid
    | revert ht htx => exact ⟨hsingle, hk.once, hk.of_setTx ht fun id hid => hid⟩
    | answer ht hserves => exact ⟨hsingle, hk.once, hk.answer hb hc ht hserves⟩
    | restart => exact ⟨hsingle, hk.once, fun id hid => .inl (hc id hid)⟩

/-- In a run of careful steps no confirmed slash is forgotten. -/
theorem kept_run {ts : List (Transition Bridge Event)} (hr : (system S).Run ts b)
    (hcareful : ∀ tr ∈ ts, Careful tr.src tr.label) : Kept b := by
  induction hr with
  | init h =>
    obtain ⟨-, -, hrelay, hdelivered, hpropagated⟩ := h
    refine ⟨?_, ?_, fun id hid => ?_⟩
    · rw [hrelay]
      exact Sole.nil
    · unfold Bridge.slashed
      rw [hpropagated]
      exact List.nodup_nil
    · unfold Bridge.confirmed at hid
      rw [hdelivered] at hid
      cases hid
  | @step ts b b' e hr h ih =>
    have hk := ih fun tr htr => hcareful tr (List.mem_append_left _ htr)
    have hc : Careful b e := hcareful ⟨b, e, b'⟩ (List.mem_append_right _ (List.mem_singleton_self _))
    exact h.kept (reachable_staking hr.reachable) (reachable_sound hr.reachable) hk hc

/-! ## The relay -/

theorem Sound.confirmed_of_slashed (hb : Sound b) (hid : id ∈ b.slashed) : id ∈ b.confirmed := by
  obtain ⟨p, hp, rfl⟩ := List.mem_map.mp hid
  obtain ⟨t, ht, -, htid, -⟩ := hb.propagated p hp
  rw [← htid]
  exact hb.confirmed t ht

theorem Sound.initiated_of_propagated (hb : Sound b) {p : ℕ × PendingSlash} (hp : p ∈ b.propagated) :
    b.Initiated p.1 p.2 := by
  obtain ⟨t, ht, -, hid, hslash⟩ := hb.propagated p hp
  rw [← hid, ← hslash]
  exact hb.initiated t ht

theorem not_approved (hb : (system S).Reachable b) (hid : id ∈ b.slashed) (agent : Address) (restoredAmount : ℕ) :
    .appealApproved id agent restoredAmount ∉ b.staking.state.log := by
  obtain ⟨i, -, e, he, hconfirmed⟩ := mem_confirmed.mp ((reachable_sound hb).confirmed_of_slashed hid)
  exact StakingManager.not_approved_of_confirmed (reachable_staking hb) (List.mem_of_getElem? he) hconfirmed agent
    restoredAmount

/-- In a careful run nothing is doubled and nothing is lost. -/
theorem relayed_of_careful {ts : List (Transition Bridge Event)} (hr : (system S).Run ts b)
    (hcareful : ∀ tr ∈ ts, Careful tr.src tr.label) : Relayed b := by
  have hk := kept_run hr hcareful
  exact {
    once := hk.once
    initiated := fun p hp => (reachable_sound hr.reachable).initiated_of_propagated hp
    notApproved := fun id hid => not_approved hr.reachable hid
    kept := hk.kept }

/-- An event, if it is possible and the step is careful. -/
def Bridge.playCareful (S : Setup) (b : Bridge) (e : Event) : Option Bridge :=
  if decide (Careful b e) = true then b.play S e else none

/-- The first slash of the sample is propagated, and stays so when its events are delivered again to a new process. -/
theorem relayed_sample : ∃ ts b, (system sampleSetup).Run ts b ∧ b.slashed = [1] ∧ Relayed b := by
  have hplay : ((deliveries ++ succeeds 0 500 ++ [Event.restart, Event.deliver 5]).foldlM
      (Bridge.playCareful sampleSetup) sampleBridge).map Bridge.slashed = some [1] := by decide +kernel
  have hplays : (system sampleSetup).Plays (Bridge.playCareful sampleSetup) fun b e e' =>
      e' = e ∧ decide (Careful b e) = true := plays.guarded
  obtain ⟨ts, b, hr, hslashed, hfrom, -⟩ := hplays.exists_run sample_init hplay
  refine ⟨ts, b, hr, hslashed, relayed_of_careful hr fun tr htr => ?_⟩
  obtain ⟨e, -, hcomes⟩ := hfrom tr htr
  obtain ⟨hlabel, hcareful⟩ := hcomes.means
  rw [hlabel]
  exact of_decide_eq_true hcareful

/-- The node refuses the transaction of a confirmed slash, and the slash is lost. -/
theorem refused_slash_lost : ¬ ∀ (S : Setup) (ts : List (Transition Bridge Event)) (b : Bridge),
    (system S).Run ts b → Relayed b := by
  intro hall
  have hplay : ((deliveries ++ [Event.answer 0 (.error "insufficient funds")]).foldlM
      (Bridge.play sampleSetup) sampleBridge).map (fun b => decide (1 ∈ b.confirmed ∧ 1 ∉ b.slashed ∧
        b.relay.pendingSlashes 1 = none ∧ ¬ b.relay.UnderWay 1)) = some true := by decide +kernel
  obtain ⟨ts, b, hr, hread, -, -⟩ := plays.exists_run sample_init hplay
  obtain ⟨hconfirmed, hslashed, hpending, hunder⟩ := of_decide_eq_true hread
  rcases (hall _ _ _ hr).kept 1 hconfirmed with h | h | h
  · exact hslashed h
  · exact h hpending
  · exact hunder h

end AuditGuard.SlashRelay
