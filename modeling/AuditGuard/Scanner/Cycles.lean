import AuditGuard.Scanner.Model

/-!
# What the scanner publishes

A contract gets lost in three ways: it is remembered as seen before its discovery is published, and the publication
fails; it is not among the newest when more contracts are new than the mirror node answers; or it comes after one of
which no discovery can be made, for then the loop is left. In every run in which these do not happen, each contract
whose discovery is valid is published, once, and the cursor does not get past it before.
-/

namespace AuditGuard.Scanner

open Evm TransitionSystem

variable {cfg : Config} {s s' : State} {c d : MirrorContract} {a : Address} {L : Loop} {e : Event} {outcome : Outcome}
  {ts : List (Transition State Event)}

/-! ## What is to hold -/

/-- The contract is to be published: it is younger than the scanner, and has an address and a payload that is
accepted. -/
structure MirrorContract.Due (cfg : Config) (c : MirrorContract) (a : Address) : Prop where
  younger : cfg.start < c.createdTimestamp
  address : c.evmAddress = some a
  accepted : c.payload.accepted = true

/-- How many contracts are older than a contract, but younger than the scanner. -/
def State.older (cfg : Config) (s : State) (c : MirrorContract) : ℕ :=
  s.contracts.countP fun d => cfg.start < d.createdTimestamp ∧ d.createdTimestamp < c.createdTimestamp

/-- What the scanner is for. -/
structure State.Faithful (cfg : Config) (s : State) : Prop where
  once : s.published.Nodup
  /-- The cursor does not pass a contract that is not published. -/
  passed : ∀ c ∈ s.contracts, ∀ a, c.Due cfg a → c.createdTimestamp ≤ s.lastSeenTimestamp → a ∈ s.published
  /-- A contract is published once it has had as many cycles without a failure of its own as it takes to publish those
  that are older. -/
  eventually : ∀ c ∈ s.contracts, ∀ a, c.Due cfg a → s.older cfg c < cfg.maxDiscoveries * s.turns.count c →
    a ∈ s.published

/-- The discovery is published if it comes to that. -/
def Outcome.publishes (cfg : Config) (s : State) (c : MirrorContract) : Outcome → Bool
  | .throws => false
  | .discovers listing publishing => !givesUp cfg s c listing && decide (publishing = .published)

/-- No contract gets lost in the step. -/
def Careful (cfg : Config) (s : State) : Event → Prop
  | .fetch => (s.contracts.filter fun c => s.lastSeenTimestamp < c.createdTimestamp).length ≤ cfg.fetchLimit
  | .contract outcome => ∀ c rest processed unfailed, s.loop = some ⟨c :: rest, processed, unfailed⟩ →
    -- no exception in front of a contract that is still to be published
    (outcome = .throws → ∀ d ∈ rest, ∀ a, d.Due cfg a → a ∈ s.seenContracts) ∧
    -- no failure after the contract is remembered
      (outcome ≠ .throws → ∀ a, c.Due cfg a → a ∉ s.seenContracts → outcome.publishes cfg s c = true)
  | _ => True

/-! ## One contract -/

/-- How the loop goes on from a contract. -/
inductive Goes (cfg : Config) (s : State) (c : MirrorContract) (L : Loop) : Outcome → State → Prop
  | throws : Goes cfg s c L .throws (endLoop s (L.unfailed.erase c))
  | nameless {outcome : Outcome} (ha : c.evmAddress = none) : Goes cfg s c L outcome (endLoop s (L.unfailed.erase c))
  | seen {outcome : Outcome} {a : Address} (ha : c.evmAddress = some a) (hseen : a ∈ s.seenContracts) :
      Goes cfg s c L outcome (continueLoop s L)
  | rejected {outcome : Outcome} {a : Address} (ha : c.evmAddress = some a) (hseen : a ∉ s.seenContracts)
      (hrejected : c.payload.accepted = false) :
      Goes cfg s c L outcome (continueLoop { s with seenContracts := a :: s.seenContracts } L)
  | lost {outcome : Outcome} {a : Address} {enabled : Bool} {loop : Option Loop} (ha : c.evmAddress = some a)
      (hseen : a ∉ s.seenContracts)
      (hthrows : outcome ≠ .throws) (hlost : outcome.publishes cfg s c = false)
      (hloop : ∀ L', loop = some L' → L' = { L with unfailed := L.unfailed.erase c }) :
      Goes cfg s c L outcome { s with
        seenContracts := a :: s.seenContracts, hotLeadListingEnabled := enabled, loop := loop }
  | published {outcome : Outcome} {a : Address} {enabled : Bool} (ha : c.evmAddress = some a)
      (hseen : a ∉ s.seenContracts) :
      Goes cfg s c L outcome { s with
        seenContracts := a :: s.seenContracts, hotLeadListingEnabled := enabled, published := a :: s.published,
        lastSeenTimestamp := c.createdTimestamp,
        loop := some { L with processedThisCycle := L.processedThisCycle + 1 } }

theorem process_goes (cfg : Config) (s : State) (c : MirrorContract) (L : Loop) (outcome : Outcome) :
    Goes cfg s c L outcome (process cfg s c L outcome) := by
  cases outcome with
  | throws => exact .throws
  | discovers listing publishing =>
    unfold process
    cases ha : c.evmAddress with
    | none => exact .nameless ha
    | some a =>
      dsimp only
      split_ifs with hseen hrejected hgivesUp
      · exact .seen ha hseen
      · exact .rejected ha hseen hrejected.1
      · refine .lost ha hseen (by simp) ?_ fun L' hL' => (Option.some.inj hL').symm
        have hlost : givesUp cfg s c listing = true := hgivesUp
        unfold Outcome.publishes
        dsimp only
        rw [hlost]
        rfl
      · have hgoes : ∀ enabled, Goes cfg s c L (.discovers listing publishing) (publishDiscovery
            { s with seenContracts := a :: s.seenContracts, hotLeadListingEnabled := enabled } c a L publishing) := by
          intro enabled
          cases publishing with
          | published => exact .published ha hseen
          | failed => exact .lost ha hseen (by simp) (by simp [Outcome.publishes]) fun L' hL' =>
            (Option.some.inj hL').symm
          | recovered =>
            exact .lost ha hseen (by simp) (by simp [Outcome.publishes]) fun L' hL' => (Option.some.inj hL').symm
          | exhausted => exact .lost ha hseen (by simp) (by simp [Outcome.publishes]) fun L' hL' => nomatch hL'
        unfold afterListing
        split_ifs
        · exact hgoes false
        · exact hgoes s.hotLeadListingEnabled

/-! ## What the mirror node answers -/

/-- Contracts are in the order of their creation. -/
def Ascending (contracts : List MirrorContract) : Prop :=
  contracts.Pairwise fun c d => c.createdTimestamp < d.createdTimestamp

theorem Ascending.eq {contracts : List MirrorContract} (h : Ascending contracts) (hc : c ∈ contracts)
    (hd : d ∈ contracts) (heq : c.createdTimestamp = d.createdTimestamp) : c = d := by
  have hsymm : Std.Symm fun c d : MirrorContract => c.createdTimestamp ≠ d.createdTimestamp :=
    ⟨fun _ _ hne => hne.symm⟩
  by_contra hne
  exact List.Pairwise.forall (h.imp Nat.ne_of_lt) hc hd hne heq

theorem Ascending.split {contracts : List MirrorContract} (h : Ascending contracts) (cursor : ℕ) :
    contracts.filter (fun c => !decide (cursor < c.createdTimestamp)) ++
      contracts.filter (fun c => cursor < c.createdTimestamp) = contracts := by
  induction contracts with
  | nil => rfl
  | cons c contracts ih =>
    obtain ⟨hc, hcontracts⟩ := List.pairwise_cons.mp h
    by_cases hnewer : cursor < c.createdTimestamp
    · have hall : ∀ d ∈ c :: contracts, cursor < d.createdTimestamp := by
        intro d hd
        rcases List.mem_cons.mp hd with rfl | hd
        · exact hnewer
        · exact hnewer.trans (hc d hd)
      rw [List.filter_eq_self.mpr fun d hd => decide_eq_true (hall d hd),
        List.filter_eq_nil_iff.mpr fun d hd => by simp [hall d hd], List.nil_append]
    · rw [List.filter_cons_of_pos (by simp [hnewer]), List.filter_cons_of_neg (by simp [hnewer]), List.cons_append,
        ih hcontracts]

theorem filter_take {contracts : List MirrorContract} (h : Ascending contracts) (cursor limit : ℕ) (filters : Bool)
    (hlimit : (contracts.filter fun c => cursor < c.createdTimestamp).length ≤ limit) :
    ((if filters = true then contracts.reverse.filter fun c => cursor < c.createdTimestamp
      else contracts.reverse).take limit).filter (fun c => cursor < c.createdTimestamp) =
      (contracts.filter fun c => cursor < c.createdTimestamp).reverse := by
  split_ifs
  · rw [List.filter_reverse, List.take_of_length_le (by rwa [List.length_reverse]), List.filter_reverse,
      List.filter_filter]
    simp
  · have hreverse := congrArg List.reverse (h.split cursor)
    rw [List.reverse_append] at hreverse
    rw [← hreverse, List.take_append, List.take_of_length_le (by rwa [List.length_reverse]), List.filter_append,
      List.filter_reverse, List.filter_filter]
    have hold : ((contracts.filter fun c => !decide (cursor < c.createdTimestamp)).reverse.take
        (limit - (contracts.filter fun c => cursor < c.createdTimestamp).reverse.length)).filter
        (fun c => cursor < c.createdTimestamp) = [] := by
      refine List.filter_eq_nil_iff.mpr fun c hc => ?_
      have hc' := List.mem_reverse.mp (List.mem_of_mem_take hc)
      simpa using (List.mem_filter.mp hc').2
    rw [hold, List.append_nil]
    simp

theorem sort_reverse {contracts : List MirrorContract} (h : Ascending contracts) :
    (contracts.reverse.insertionSort fun a b => a.createdTimestamp ≤ b.createdTimestamp) = contracts := by
  have htotal : Std.Total fun a b : MirrorContract => a.createdTimestamp ≤ b.createdTimestamp :=
    ⟨fun a b => Nat.le_total _ _⟩
  have htrans : IsTrans MirrorContract fun a b => a.createdTimestamp ≤ b.createdTimestamp :=
    ⟨fun a b c hab hbc => Nat.le_trans hab hbc⟩
  refine List.Perm.eq_of_pairwise (fun a b ha hb hab hba => ?_) (List.pairwise_insertionSort _ _)
    (h.imp Nat.le_of_lt) ((List.perm_insertionSort _ _).trans contracts.reverse_perm)
  have ha' : a ∈ contracts := List.mem_reverse.mp ((List.mem_insertionSort _).mp ha)
  exact h.eq ha' hb (Nat.le_antisymm hab hba)

theorem fetch_eq (h : Ascending s.contracts)
    (hlimit : (s.contracts.filter fun c => s.lastSeenTimestamp < c.createdTimestamp).length ≤ cfg.fetchLimit) :
    fetchNewContractsSinceCursor cfg s =
      s.contracts.filter fun c => c.evmAddress.isSome && decide (s.lastSeenTimestamp < c.createdTimestamp) := by
  unfold fetchNewContractsSinceCursor
  dsimp only
  rw [List.filter_filter]
  have hcomm : ∀ l : List MirrorContract,
      l.filter (fun c => decide (s.lastSeenTimestamp < c.createdTimestamp) && c.evmAddress.isSome) =
      (l.filter fun c => s.lastSeenTimestamp < c.createdTimestamp).filter fun c => c.evmAddress.isSome := by
    intro l
    rw [List.filter_filter]
    simp only [Bool.and_comm]
  have hall : s.contracts.filter (fun c => c.evmAddress.isSome && decide (s.lastSeenTimestamp < c.createdTimestamp)) =
      (s.contracts.filter fun c => s.lastSeenTimestamp < c.createdTimestamp).filter fun c => c.evmAddress.isSome := by
    rw [List.filter_filter]
  rw [hcomm, filter_take h _ _ _ hlimit, hall, List.filter_reverse]
  have hsorted : Ascending ((s.contracts.filter fun c => s.lastSeenTimestamp < c.createdTimestamp).filter
      fun c => c.evmAddress.isSome) := (h.filter _).filter _
  revert hsorted
  generalize (s.contracts.filter fun c => decide (s.lastSeenTimestamp < c.createdTimestamp)).filter
    (fun c => c.evmAddress.isSome) = new
  intro hsorted
  exact sort_reverse hsorted

/-! ## The invariant -/

/-- The contract is published. -/
def State.hasPublished (s : State) (c : MirrorContract) : Bool := c.evmAddress.any fun a => decide (a ∈ s.published)

/-- How many of the older contracts are published. -/
def State.olderPublished (cfg : Config) (s : State) (c : MirrorContract) : ℕ :=
  s.contracts.countP fun d =>
    (cfg.start < d.createdTimestamp ∧ d.createdTimestamp < c.createdTimestamp) ∧ s.hasPublished d = true

/-- What holds of a cycle. -/
structure LoopSound (cfg : Config) (s : State) (L : Loop) : Prop where
  ascending : Ascending L.rest
  new : ∀ c ∈ L.rest, c ∈ s.contracts ∧ c.evmAddress.isSome = true ∧ s.lastSeenTimestamp < c.createdTimestamp
  /-- What is to be published is in the list, or has come later. -/
  pending : ∀ c ∈ s.contracts, ∀ a, c.Due cfg a → a ∉ s.published → s.lastSeenTimestamp < c.createdTimestamp →
    c ∈ L.rest ∨ ∀ d ∈ L.rest, d.createdTimestamp < c.createdTimestamp
  single : L.unfailed.Nodup
  known : ∀ c ∈ L.unfailed, c ∈ s.contracts
  waiting : ∀ c ∈ L.unfailed, ∀ a, c.Due cfg a → a ∉ s.published → c ∈ L.rest
  /-- What the cycle has published is older than what is left. -/
  earlier : ∀ c ∈ L.rest, ∀ a, c.Due cfg a → a ∉ s.published →
    cfg.maxDiscoveries * s.turns.count c + L.processedThisCycle ≤ s.olderPublished cfg c

/-- What holds at any time in a run in which no contract gets lost. -/
structure State.Sound (cfg : Config) (s : State) : Prop where
  ascending : Ascending s.contracts
  distinct : ∀ c ∈ s.contracts, ∀ d ∈ s.contracts, ∀ a, c.evmAddress = some a → d.evmAddress = some a → c = d
  once : s.published.Nodup
  remembered : ∀ a ∈ s.published, a ∈ s.seenContracts
  seen : ∀ a ∈ s.seenContracts, ∃ c ∈ s.contracts, c.evmAddress = some a
  /-- What is remembered is published, if it is to be. -/
  handled : ∀ c ∈ s.contracts, ∀ a, c.Due cfg a → a ∈ s.seenContracts → a ∈ s.published
  passed : ∀ c ∈ s.contracts, ∀ a, c.Due cfg a → c.createdTimestamp ≤ s.lastSeenTimestamp → a ∈ s.published
  cursor : cfg.start ≤ s.lastSeenTimestamp ∧
    (s.lastSeenTimestamp = cfg.start ∨ ∃ c ∈ s.contracts, c.createdTimestamp = s.lastSeenTimestamp)
  turned : ∀ c ∈ s.turns, c ∈ s.contracts
  counted : ∀ c ∈ s.contracts, ∀ a, c.Due cfg a → a ∉ s.published →
    cfg.maxDiscoveries * s.turns.count c ≤ s.olderPublished cfg c
  looping : ∀ L, s.loop = some L → LoopSound cfg s L

theorem State.Sound.faithful (h : s.Sound cfg) : s.Faithful cfg where
  once := h.once
  passed := h.passed
  eventually c hc a hdue hturns := by
    by_contra hnot
    have hcounted := h.counted c hc a hdue hnot
    have hle : s.olderPublished cfg c ≤ s.older cfg c := by
      refine List.countP_mono_left fun d _ hd => ?_
      simp only [decide_eq_true_eq] at hd ⊢
      exact hd.1
    omega

theorem Fresh.sound (h : Fresh cfg s) : s.Sound cfg := by
  obtain ⟨hcontracts, hcursor, hseen, hpublished, hloop, hturns⟩ := h
  refine ⟨?_, ?_, ?_, ?_, ?_, ?_, ?_, ⟨by rw [hcursor], .inl hcursor⟩, ?_, ?_, ?_⟩
  · rw [hcontracts]
    exact .nil
  all_goals simp [hcontracts, hseen, hpublished, hloop, hturns]

theorem olderPublished_deploy (hnew : New s d) (hc : c ∈ s.contracts) :
    State.olderPublished cfg { s with contracts := s.contracts ++ [d] } c = s.olderPublished cfg c := by
  have hlater : ¬ d.createdTimestamp < c.createdTimestamp := Nat.not_lt.mpr (Nat.le_of_lt (hnew c hc).1)
  unfold State.olderPublished
  rw [List.countP_append, List.countP_singleton, if_neg (by simp [hlater]), Nat.add_zero]
  rfl

/-- A deployment keeps the invariant. -/
theorem State.Sound.deploy (h : s.Sound cfg) (hnew : New s d) :
    State.Sound cfg { s with contracts := s.contracts ++ [d] } := by
  have hmem : ∀ {c}, c ∈ s.contracts ++ [d] → c ∈ s.contracts ∨ c = d := fun hc =>
    (List.mem_append.mp hc).imp_right List.mem_singleton.mp
  have hfirst : d ∉ s.contracts := fun hd => absurd (hnew d hd).1 (Nat.lt_irrefl _)
  have hunturned : s.turns.count d = 0 := List.count_eq_zero.mpr fun hd => hfirst (h.turned d hd)
  refine ⟨?_, ?_, h.once, h.remembered, ?_, ?_, ?_, ⟨h.cursor.1, ?_⟩, ?_, ?_, ?_⟩
  · refine List.pairwise_append.mpr ⟨h.ascending, List.pairwise_singleton _ _, fun c hc c' hc' => ?_⟩
    rw [List.mem_singleton.mp hc']
    exact (hnew c hc).1
  · intro c hc c' hc' a hca hca'
    rcases hmem hc with hold | rfl
    · rcases hmem hc' with hold' | rfl
      · exact h.distinct c hold c' hold' a hca hca'
      · exact absurd hca ((hnew c hold).2 a hca')
    · rcases hmem hc' with hold' | rfl
      · exact absurd hca' ((hnew c' hold').2 a hca)
      · rfl
  · intro a ha
    obtain ⟨c, hc, hca⟩ := h.seen a ha
    exact ⟨c, List.mem_append_left _ hc, hca⟩
  · intro c hc a hdue ha
    rcases hmem hc with hc | rfl
    · exact h.handled c hc a hdue ha
    · obtain ⟨c', hc', hca'⟩ := h.seen a ha
      exact absurd hca' ((hnew c' hc').2 a hdue.address)
  · intro c hc a hdue hle
    rcases hmem hc with hc | rfl
    · exact h.passed c hc a hdue hle
    · have hyounger := hdue.younger
      dsimp only at hle
      rcases h.cursor.2 with hstart | ⟨c', hc', hcursor⟩
      · omega
      · have hlater := (hnew c' hc').1
        omega
  · exact h.cursor.2.imp_right fun ⟨c, hc, hcursor⟩ => ⟨c, List.mem_append_left _ hc, hcursor⟩
  · exact fun c hc => List.mem_append_left _ (h.turned c hc)
  · intro c hc a hdue hnot
    rcases hmem hc with hc | rfl
    · rw [olderPublished_deploy hnew hc]
      exact h.counted c hc a hdue hnot
    · dsimp only
      rw [hunturned]
      exact Nat.zero_le _
  · intro L hL
    have hloop := h.looping L hL
    refine ⟨hloop.ascending, ?_, ?_, hloop.single, ?_, hloop.waiting, ?_⟩
    · intro c hc
      obtain ⟨hc, hnamed, hlt⟩ := hloop.new c hc
      exact ⟨List.mem_append_left _ hc, hnamed, hlt⟩
    · intro c hc a hdue hnot hlt
      rcases hmem hc with hc | rfl
      · exact hloop.pending c hc a hdue hnot hlt
      · exact .inr fun c' hc' => (hnew c' (hloop.new c' hc').1).1
    · exact fun c hc => List.mem_append_left _ (hloop.known c hc)
    · intro c hc a hdue hnot
      rw [olderPublished_deploy hnew (hloop.new c hc).1]
      exact hloop.earlier c hc a hdue hnot

theorem State.Sound.fetch (h : s.Sound cfg)
    (hlimit : (s.contracts.filter fun c => s.lastSeenTimestamp < c.createdTimestamp).length ≤ cfg.fetchLimit) :
    State.Sound cfg { s with
      loop := some ⟨fetchNewContractsSinceCursor cfg s, 0, fetchNewContractsSinceCursor cfg s⟩ } := by
  refine { h with looping := fun L hL => ?_ }
  obtain rfl := Option.some.inj hL
  rw [fetch_eq h.ascending hlimit]
  have hmem : ∀ c ∈ s.contracts.filter fun c =>
      c.evmAddress.isSome && decide (s.lastSeenTimestamp < c.createdTimestamp),
      c ∈ s.contracts ∧ c.evmAddress.isSome = true ∧ s.lastSeenTimestamp < c.createdTimestamp := by
    intro c hc
    obtain ⟨hc, hnew⟩ := List.mem_filter.mp hc
    obtain ⟨hnamed, hlt⟩ := (Bool.and_eq_true _ _).mp hnew
    exact ⟨hc, hnamed, of_decide_eq_true hlt⟩
  have hnodup : s.contracts.Nodup := h.ascending.imp fun hlt heq => by
    rw [heq] at hlt
    exact absurd hlt (Nat.lt_irrefl _)
  have hnew : ∀ c ∈ s.contracts, ∀ a, c.Due cfg a → s.lastSeenTimestamp < c.createdTimestamp →
      c ∈ s.contracts.filter fun c => c.evmAddress.isSome && decide (s.lastSeenTimestamp < c.createdTimestamp) := by
    intro c hc a hdue hlt
    refine List.mem_filter.mpr ⟨hc, ?_⟩
    rw [hdue.address, decide_eq_true hlt]
    rfl
  refine ⟨h.ascending.filter _, hmem, ?_, hnodup.filter _, fun c hc => (hmem c hc).1, ?_, ?_⟩
  · exact fun c hc a hdue _ hlt => .inl (hnew c hc a hdue hlt)
  · exact fun c hc _ _ _ => hc
  · exact fun c hc a hdue hnot => h.counted c (hmem c hc).1 a hdue hnot

theorem State.Sound.leave {unfailed : List MirrorContract} (h : s.Sound cfg) (hknown : ∀ c ∈ unfailed, c ∈ s.contracts)
    (hcounted : ∀ c ∈ s.contracts, ∀ a, c.Due cfg a → a ∉ s.published →
      cfg.maxDiscoveries * (unfailed.count c + s.turns.count c) ≤ s.olderPublished cfg c) :
    State.Sound cfg (endLoop s unfailed) := by
  refine { h with turned := ?_, counted := ?_, looping := fun L hL => nomatch hL }
  · intro c hc
    rcases List.mem_append.mp hc with hc | hc
    · exact hknown c hc
    · exact h.turned c hc
  · intro c hc a hdue hnot
    dsimp only [endLoop]
    rw [List.count_append]
    exact hcounted c hc a hdue hnot

theorem State.Sound.ends (h : s.Sound cfg) (hloop : s.loop = some L)
    (hend : L.rest = [] ∨ cfg.maxDiscoveries ≤ L.processedThisCycle) : State.Sound cfg (endLoop s L.unfailed) := by
  have hL := h.looping L hloop
  refine h.leave hL.known fun c hc a hdue hnot => ?_
  by_cases hturn : c ∈ L.unfailed
  · -- The contract is still in the list, so that the cap was reached.
    have hrest := hL.waiting c hturn a hdue hnot
    have hearlier := hL.earlier c hrest a hdue hnot
    rcases hend with hend | hend
    · rw [hend] at hrest
      cases hrest
    · rw [List.count_eq_one_of_mem hL.single hturn, Nat.mul_add, Nat.mul_one]
      omega
  · rw [List.count_eq_zero.mpr hturn, Nat.zero_add]
    exact h.counted c hc a hdue hnot

theorem LoopSound.next {rest unfailed unfailed' : List MirrorContract} {processed : ℕ}
    (h : LoopSound cfg s ⟨c :: rest, processed, unfailed⟩) (hpublished : ∀ a, c.Due cfg a → a ∈ s.published)
    (hsub : unfailed'.Sublist unfailed) : LoopSound cfg s ⟨rest, processed, unfailed'⟩ := by
  have hrest : ∀ c' a, c'.Due cfg a → a ∉ s.published → c' ∈ c :: rest → c' ∈ rest := by
    intro c' a hdue hnot hc'
    rcases List.mem_cons.mp hc' with rfl | hc'
    · exact absurd (hpublished a hdue) hnot
    · exact hc'
  refine ⟨(List.pairwise_cons.mp h.ascending).2, fun d hd => h.new d (List.mem_cons_of_mem _ hd), ?_,
    h.single.sublist hsub,
    fun d hd => h.known d (hsub.subset hd), ?_, fun d hd => h.earlier d (List.mem_cons_of_mem _ hd)⟩
  · intro d hd a hdue hnot hlt
    rcases h.pending d hd a hdue hnot hlt with hd | hlater
    · exact .inl (hrest d a hdue hnot hd)
    · exact .inr fun d' hd' => hlater d' (List.mem_cons_of_mem _ hd')
  · exact fun d hd a hdue hnot => hrest d a hdue hnot (h.waiting d (hsub.subset hd) a hdue hnot)

theorem State.Sound.remember {enabled : Bool} {loop : Option Loop} (h : s.Sound cfg) (hc : c ∈ s.contracts)
    (ha : c.evmAddress = some a) (hdue : ¬ c.Due cfg a) (hloop : ∀ L, loop = some L → LoopSound cfg s L) :
    State.Sound cfg { s with
      seenContracts := a :: s.seenContracts, hotLeadListingEnabled := enabled, loop := loop } := by
  refine { h with
    remembered := fun b hb => List.mem_cons_of_mem _ (h.remembered b hb)
    seen := fun b hb => ?_
    handled := fun d hd b hdue' hb => ?_
    looping := fun L hL => ?_ }
  · rcases List.mem_cons.mp hb with rfl | hb
    · exact ⟨c, hc, ha⟩
    · exact h.seen b hb
  · rcases List.mem_cons.mp hb with rfl | hb
    · obtain rfl := h.distinct c hc d hd b ha hdue'.address
      exact absurd hdue' hdue
    · exact h.handled d hd b hdue' hb
  · obtain ⟨hasc, hnew, hpending, hsingle, hknown, hwaiting, hearlier⟩ := hloop L hL
    exact ⟨hasc, hnew, hpending, hsingle, hknown, hwaiting, hearlier⟩

theorem countP_add_one_le {α : Type*} {p q : α → Bool} {l : List α} {x : α} (hx : x ∈ l) (hp : p x = false)
    (hq : q x = true) (hpq : ∀ y, p y = true → q y = true) : l.countP p + 1 ≤ l.countP q := by
  obtain ⟨pre, post, rfl⟩ := List.append_of_mem hx
  have hpre : pre.countP p ≤ pre.countP q := List.countP_mono_left fun y _ => hpq y
  have hpost : post.countP p ≤ post.countP q := List.countP_mono_left fun y _ => hpq y
  rw [List.countP_append, List.countP_append, List.countP_cons, List.countP_cons, if_pos hq, hp]
  simp only [Bool.false_eq_true, if_false]
  omega

theorem hasPublished_iff (ha : c.evmAddress = some a) : s.hasPublished c = true ↔ a ∈ s.published := by
  unfold State.hasPublished
  rw [ha]
  exact decide_eq_true_iff

theorem olderPublished_publish (hc : c ∈ s.contracts) (ha : c.evmAddress = some a) (hnot : a ∉ s.published)
    (hyounger : cfg.start < c.createdTimestamp) (hcontracts : s'.contracts = s.contracts)
    (hpublished : s'.published = a :: s.published) :
    s.olderPublished cfg d + (if c.createdTimestamp < d.createdTimestamp then 1 else 0) ≤ s'.olderPublished cfg d := by
  have hmono : ∀ d', s.hasPublished d' = true → s'.hasPublished d' = true := by
    intro d' hd'
    cases hd : d'.evmAddress with
    | none =>
      unfold State.hasPublished at hd'
      rw [hd] at hd'
      cases hd'
    | some b =>
      rw [hasPublished_iff hd] at hd' ⊢
      rw [hpublished]
      exact List.mem_cons_of_mem _ hd'
  unfold State.olderPublished
  rw [hcontracts]
  split_ifs with hlt
  · refine countP_add_one_le hc ?_ ?_ fun d' hd' => ?_
    · simp [hasPublished_iff ha, hnot]
    · simp [hasPublished_iff ha, hpublished, hyounger, hlt]
    · simp only [decide_eq_true_eq] at hd' ⊢
      exact ⟨hd'.1, hmono d' hd'.2⟩
  · refine List.countP_mono_left fun d' _ hd' => ?_
    simp only [decide_eq_true_eq] at hd' ⊢
    exact ⟨hd'.1, hmono d' hd'.2⟩

/-- The discovery of a contract is published. -/
theorem State.Sound.publish {enabled : Bool} (h : s.Sound cfg)
    (hL : LoopSound cfg s ⟨c :: L.rest, L.processedThisCycle, L.unfailed⟩) (ha : c.evmAddress = some a)
    (hseen : a ∉ s.seenContracts) :
    State.Sound cfg { s with
      seenContracts := a :: s.seenContracts, hotLeadListingEnabled := enabled, published := a :: s.published,
      lastSeenTimestamp := c.createdTimestamp,
      loop := some { L with processedThisCycle := L.processedThisCycle + 1 } } := by
  obtain ⟨hc, -, hlt⟩ := hL.new c List.mem_cons_self
  obtain ⟨hbehind, hasc⟩ := List.pairwise_cons.mp hL.ascending
  have hnot : a ∉ s.published := fun hpublished => hseen (h.remembered a hpublished)
  have hyounger : cfg.start < c.createdTimestamp := Nat.lt_of_le_of_lt h.cursor.1 hlt
  refine ⟨h.ascending, h.distinct, List.nodup_cons.mpr ⟨hnot, h.once⟩, ?_, ?_, ?_, ?_,
    ⟨Nat.le_of_lt hyounger, .inr ⟨c, hc, rfl⟩⟩,
    h.turned, ?_, ?_⟩
  · exact fun b hb => List.mem_cons.mpr ((List.mem_cons.mp hb).imp_right (h.remembered b))
  · intro b hb
    rcases List.mem_cons.mp hb with rfl | hb
    · exact ⟨c, hc, ha⟩
    · exact h.seen b hb
  · exact fun d hd b hdue hb => List.mem_cons.mpr ((List.mem_cons.mp hb).imp_right (h.handled d hd b hdue))
  · intro d hd b hdue hle
    refine List.mem_cons.mpr (or_iff_not_imp_right.mpr fun hnot' => ?_)
    rcases Nat.lt_or_ge s.lastSeenTimestamp d.createdTimestamp with hnew | hold
    · -- What is to be published and not newer than this one is this one.
      have hsame : d = c := by
        rcases hL.pending d hd b hdue hnot' hnew with hmem | hlater
        · rcases List.mem_cons.mp hmem with heq | hmem
          · exact heq
          · exact absurd (hbehind d hmem) (Nat.not_lt.mpr hle)
        · exact absurd (hlater c List.mem_cons_self) (Nat.not_lt.mpr hle)
      rw [hsame] at hdue
      exact Option.some.inj (hdue.address.symm.trans ha)
    · exact absurd (h.passed d hd b hdue hold) hnot'
  · intro d hd b hdue hnot'
    have hnot'' : b ∉ s.published := fun hb => hnot' (List.mem_cons_of_mem _ hb)
    exact (h.counted d hd b hdue hnot'').trans
      ((Nat.le_add_right _ _).trans (olderPublished_publish hc ha hnot hyounger rfl rfl))
  · intro L' hL'
    obtain rfl := Option.some.inj hL'
    have hsub : ∀ b, b ∉ a :: s.published → b ∉ s.published := fun b hb hpublished =>
      hb (List.mem_cons_of_mem _ hpublished)
    have hother : ∀ d b, d.Due cfg b → b ∉ a :: s.published → d ≠ c := by
      rintro d b hdue hb rfl
      exact hb (List.mem_cons.mpr (.inl (Option.some.inj (hdue.address.symm.trans ha))))
    refine ⟨hasc, fun d hd => ?_, fun d hd b hdue hb hlt' => ?_, hL.single, hL.known, fun d hd b hdue hb => ?_,
      fun d hd b hdue hb => ?_⟩
    · obtain ⟨hd', hnamed, -⟩ := hL.new d (List.mem_cons_of_mem _ hd)
      exact ⟨hd', hnamed, hbehind d hd⟩
    · rcases hL.pending d hd b hdue (hsub b hb) (hlt.trans hlt') with hmem | hlater
      · exact .inl ((List.mem_cons.mp hmem).resolve_left (hother d b hdue hb))
      · exact .inr fun d' hd' => hlater d' (List.mem_cons_of_mem _ hd')
    · exact (List.mem_cons.mp (hL.waiting d hd b hdue (hsub b hb))).resolve_left (hother d b hdue hb)
    · have hearlier := hL.earlier d (List.mem_cons_of_mem _ hd) b hdue (hsub b hb)
      dsimp only at hearlier ⊢
      refine Nat.le_trans ?_ (olderPublished_publish hc ha hnot hyounger rfl rfl)
      rw [if_pos (hbehind d hd)]
      omega

/-- The loop goes on from a contract without losing one. -/
theorem State.Sound.contract {rest unfailed : List MirrorContract} {processed : ℕ} (h : s.Sound cfg)
    (hloop : s.loop = some ⟨c :: rest, processed, unfailed⟩) (hcareful : Careful cfg s (.contract outcome)) :
    State.Sound cfg (process cfg s c ⟨rest, processed, unfailed⟩ outcome) := by
  have hL := h.looping _ hloop
  obtain ⟨hthrows, hpublishes⟩ := hcareful c rest processed unfailed hloop
  obtain ⟨hc, hnamed, -⟩ := hL.new c List.mem_cons_self
  have hgoes := process_goes cfg s c ⟨rest, processed, unfailed⟩ outcome
  generalize process cfg s c ⟨rest, processed, unfailed⟩ outcome = s' at hgoes
  cases hgoes with
  | throws =>
    refine h.leave (fun d hd => hL.known d (List.mem_of_mem_erase hd)) fun d hd b hdue hnot => ?_
    -- What is still to be published has not had its turn.
    have hturn : d ∉ unfailed.erase c := by
      intro hturn
      obtain ⟨hne, hunfailed⟩ := (List.Nodup.mem_erase_iff hL.single).mp hturn
      have hrest := (List.mem_cons.mp (hL.waiting d hunfailed b hdue hnot)).resolve_left hne
      exact hnot (h.handled d hd b hdue (hthrows rfl d hrest b hdue))
    rw [List.count_eq_zero.mpr hturn, Nat.zero_add]
    exact h.counted d hd b hdue hnot
  | nameless hnone =>
    rw [hnone] at hnamed
    cases hnamed
  | @seen _ a ha hseen =>
    have hdone : ∀ b, c.Due cfg b → b ∈ s.published := by
      intro b hdue
      obtain rfl := Option.some.inj (ha.symm.trans hdue.address)
      exact h.handled c hc a hdue hseen
    obtain ⟨hasc, hnew, hpending, hsingle, hknown, hwaiting, hearlier⟩ := LoopSound.next hL hdone (List.Sublist.refl _)
    refine { h with looping := fun L hL' => ?_ }
    obtain rfl := Option.some.inj hL'
    exact ⟨hasc, hnew, hpending, hsingle, hknown, hwaiting, hearlier⟩
  | @rejected _ a ha hseen hrejected =>
    have hdue : ¬ c.Due cfg a := fun hdue => by
      rw [hdue.accepted] at hrejected
      cases hrejected
    refine h.remember hc ha hdue fun L hL' => ?_
    obtain rfl := Option.some.inj hL'
    exact LoopSound.next hL (fun b hdue' => absurd ⟨hdue'.younger, ha, hdue'.accepted⟩ hdue) (List.Sublist.refl _)
  | @lost _ a _ _ ha hseen hnot hlost hnext =>
    have hdue : ¬ c.Due cfg a := fun hdue => by
      rw [hpublishes hnot a hdue hseen] at hlost
      cases hlost
    refine h.remember hc ha hdue fun L hL' => ?_
    rw [hnext L hL']
    exact LoopSound.next hL (fun b hdue' => absurd ⟨hdue'.younger, ha, hdue'.accepted⟩ hdue) List.erase_sublist
  | published ha hseen => exact h.publish hL ha hseen

theorem Step.sound (hstep : Step cfg s e s') (h : s.Sound cfg) (hcareful : Careful cfg s e) : s'.Sound cfg := by
  cases hstep with
  | deploy hnew => exact h.deploy hnew
  | idle hloop => exact h
  | fetch hloop => exact h.fetch hcareful
  | contract hloop hcap => exact h.contract hloop hcareful
  | ends hloop hend => exact h.ends hloop hend

/-! ## Every run -/

/-- In every run in which no contract gets lost: none is published twice, the cursor passes none before, and each is
published once it has had enough cycles. -/
theorem faithful_of_careful (hr : (system cfg).Run ts s) (hcareful : ∀ tr ∈ ts, Careful cfg tr.src tr.label) :
    Throughout (State.Faithful cfg) ts s :=
  Run.throughout (fun _ => Fresh.sound) (fun _ _ _ hsound hcareful hstep => Step.sound hstep hsound hcareful)
    (fun _ => State.Sound.faithful) hr hcareful

/-! ## Two contracts -/

/-- Makes an event happen, if it can. -/
def State.play (cfg : Config) (s : State) : Event → Option State
  | .deploy c =>
    if (s.contracts.all fun d => decide (d.createdTimestamp < c.createdTimestamp) &&
        (c.evmAddress.isNone || decide (d.evmAddress ≠ c.evmAddress))) = true then
      some { s with contracts := s.contracts ++ [c] }
    else none
  | .idle => if s.loop = none then some s else none
  | .fetch =>
    if s.loop = none then
      some { s with loop := some ⟨fetchNewContractsSinceCursor cfg s, 0, fetchNewContractsSinceCursor cfg s⟩ }
    else none
  | .contract outcome =>
    match s.loop with
    | some ⟨c :: rest, processed, unfailed⟩ =>
      if processed < cfg.maxDiscoveries then some (process cfg s c ⟨rest, processed, unfailed⟩ outcome) else none
    | _ => none
  | .ends =>
    match s.loop with
    | some L => if L.rest = [] ∨ cfg.maxDiscoveries ≤ L.processedThisCycle then some (endLoop s L.unfailed) else none
    | none => none

theorem plays (cfg : Config) : (system cfg).Plays (State.play cfg) fun _ move e => e = move := by
  intro s move s' h
  refine ⟨move, rfl, ?_⟩
  unfold State.play at h
  split at h
  · rename_i c
    split_ifs at h with hnew
    obtain rfl := Option.some.inj h
    refine .deploy fun d hd => ?_
    have hd' := List.all_eq_true.mp hnew d hd
    rw [Bool.and_eq_true, Bool.or_eq_true] at hd'
    refine ⟨of_decide_eq_true hd'.1, fun a ha hsame => ?_⟩
    rcases hd'.2 with hnone | hother
    · rw [ha] at hnone
      cases hnone
    · exact of_decide_eq_true hother (hsame.trans ha.symm)
  · split_ifs at h with hloop
    obtain rfl := Option.some.inj h
    exact .idle hloop
  · split_ifs at h with hloop
    obtain rfl := Option.some.inj h
    exact .fetch hloop
  · split at h
    · rename_i hloop
      split_ifs at h with hcap
      obtain rfl := Option.some.inj h
      exact .contract hloop hcap
    · cases h
  · split at h
    · rename_i hloop
      split_ifs at h with hend
      obtain rfl := Option.some.inj h
      exact .ends hloop hend
    · cases h

/-- All goes well. -/
def State.smooth (cfg : Config) (s : State) : Event → Bool
  | .fetch => decide ((s.contracts.filter fun c => s.lastSeenTimestamp < c.createdTimestamp).length ≤ cfg.fetchLimit)
  | .contract outcome => decide (outcome = .discovers .listed .published)
  | _ => true

theorem careful_of_smooth (h : s.smooth cfg e = true) : Careful cfg s e := by
  cases e with
  | fetch =>
    have hlimit := of_decide_eq_true h
    exact hlimit
  | contract outcome =>
    dsimp only [State.smooth] at h
    obtain rfl := of_decide_eq_true h
    intro c rest processed unfailed _
    refine ⟨by simp, fun _ a _ _ => ?_⟩
    simp [Outcome.publishes, givesUp]
  | deploy c => trivial
  | idle => trivial
  | ends => trivial

/-- The configuration of the scanner. -/
def sampleConfig : Config := ⟨25, 5, true, true, 100⟩

/-- Before the first cycle. -/
def sampleState : State := ⟨[], 100, [], [], true, none, []⟩

/-- A contract that the mirror node lists. -/
def sampleContract (a : Address) (createdTimestamp : ℕ) : MirrorContract := ⟨some a, createdTimestamp, ⟨1200, 50, 10⟩⟩

/-- A cycle that finds two contracts. -/
def sampleCycle (first second : Publishing) : List Event := [
  .deploy (sampleContract 1 110),
  .deploy (sampleContract 2 120),
  .fetch,
  .contract (.discovers .listed first),
  .contract (.discovers .listed second),
  .ends]

/-- Both are published. -/
theorem faithful_of_careful_sample : ∃ ts s, (system sampleConfig).Run ts s ∧ s.published = [2, 1] ∧
    Throughout (State.Faithful sampleConfig) ts s := by
  have hplay : ((sampleCycle .published .published).foldlM
      (fun s e => if s.smooth sampleConfig e = true then s.play sampleConfig e else none) sampleState).map
      State.published = some [2, 1] := by decide +kernel
  obtain ⟨ts, s, hr, hpublished, hfrom, -⟩ :=
    (plays sampleConfig).guarded.exists_run ⟨rfl, rfl, rfl, rfl, rfl, rfl⟩ hplay
  refine ⟨ts, s, hr, hpublished, faithful_of_careful hr fun tr htr => careful_of_smooth ?_⟩
  obtain ⟨e, -, hcomes⟩ := hfrom tr htr
  rw [hcomes.means.1]
  exact hcomes.means.2

/-- The discovery of the first one cannot be published, and the second one takes the cursor past it. -/
theorem not_faithful_failedPublish :
    ¬ ∀ (cfg : Config) (ts : List (Transition State Event)) (s : State), (system cfg).Run ts s → s.Faithful cfg := by
  intro hall
  have hplay : ((sampleCycle .failed .published).foldlM (State.play sampleConfig) sampleState).map
      (fun s => (s.contracts, s.lastSeenTimestamp, s.published)) =
      some ([sampleContract 1 110, sampleContract 2 120], 120, [2]) := by decide +kernel
  obtain ⟨ts, s, hr, hread, -, -⟩ := (plays sampleConfig).exists_run ⟨rfl, rfl, rfl, rfl, rfl, rfl⟩ hplay
  obtain ⟨hcontracts, hread⟩ := Prod.mk.inj hread
  obtain ⟨hcursor, hpublished⟩ := Prod.mk.inj hread
  have hpassed := (hall sampleConfig ts s hr).passed (sampleContract 1 110) (by simp [hcontracts]) 1
    ⟨by decide, rfl, by decide +kernel⟩ (by rw [hcursor]; decide)
  rw [hpublished] at hpassed
  exact absurd hpassed (by decide)

end AuditGuard.Scanner
