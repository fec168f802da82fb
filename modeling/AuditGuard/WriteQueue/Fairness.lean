import AuditGuard.WriteQueue.Order
import Mathlib.Data.List.Induction

/-!
# Normal tasks get their turn

With the fast winner path, a normal task that waits should see at most `writeQueueMaxHighStreak` tasks of high
priority in a row. The counter that the loop compares with this bound only counts tasks that succeed. So the bound is
kept in every run in which no task of high priority fails while a normal one waits (`serves_of_careful`).
-/

namespace AuditGuard.WriteQueue

variable {ε α : Type*} {cfg : Config} {c : Client ε α}

/-- A normal task that waits has seen at most `k` tasks of high priority in a row. -/
def Fair (k : ℕ) (c : Client ε α) : Prop :=
  ∀ before n after, c.history = before ++ .enqueued n :: after → n ∈ c.writeQueue → n.priority = .normal →
    ∀ block, block <:+: starts after → (∀ t ∈ block, t.priority = .high) → block.length ≤ k

/-- What the queue is for. -/
structure Serves (cfg : Config) (c : Client ε α) : Prop where
  /-- Every call is a task of its own, which waits or was started once. -/
  distinct : (arrivals c.history).Nodup
  once : (starts c.history ++ c.writeQueue).Perm (arrivals c.history)
  /-- The promises of the tasks that were started are settled, in this order, but for the one that is waited for. -/
  own : (settlements c.history).map Prod.fst ++ c.drains = starts c.history
  /-- No two tasks run at a time. -/
  serial : c.drains.length ≤ 1
  /-- Tasks of one priority start in the order of their calls. -/
  order : ∀ p, (starts c.history ++ c.writeQueue).filter (·.priority = p) =
    (arrivals c.history).filter (·.priority = p)
  /-- Whatever comes of them, all tasks that are there get settled, with their outcomes. -/
  finish : ∀ outcomes : List (Except ε α), outcomes.length = c.outstanding →
    ∃ c', TransitionSystem.Path (system ε α cfg).step c (outcomes.map (.settle 0)) c' ∧ c'.outstanding = 0 ∧
      arrivals c'.history = arrivals c.history ∧
      (settlements c'.history).map Prod.snd = (settlements c.history).map Prod.snd ++ outcomes
  fair : cfg.fastWinnerPathEnabled → 0 < cfg.writeQueueMaxHighStreak → Fair cfg.writeQueueMaxHighStreak c

/-- With the fast winner path, no task of high priority fails while a normal one waits. -/
def Careful (cfg : Config) (c : Client ε α) : Label ε α → Prop
  | .enqueue _ => True
  | .settle i (.error _) => cfg.fastWinnerPathEnabled → 0 < cfg.writeQueueMaxHighStreak →
      ∀ t, c.drains[i]? = some t → t.priority = .high → ∀ n ∈ c.writeQueue, n.priority = .high
  | .settle _ (.ok _) => True

/-! ## What a waiting task has seen -/

/-- How many tasks of high priority in a row may have been started last. -/
def allowance (c : Client ε α) : ℕ :=
  match c.drains with
  | [] => c.highPriorityStreak
  | t :: _ => if t.priority = .high then c.highPriorityStreak + 1 else 0

theorem allowance_cons {t : Task} {ts : List Task} (h : c.drains = t :: ts) :
    allowance c = if t.priority = .high then c.highPriorityStreak + 1 else 0 := by
  unfold allowance
  rw [h]

/-- What a normal task that waits has seen: the tasks of high priority that were started last are counted. -/
def Patient (cfg : Config) (c : Client ε α) : Prop :=
  ∀ before n after, c.history = before ++ .enqueued n :: after → n ∈ c.writeQueue → n.priority = .normal →
    (∀ block, block <:+ starts after → (∀ t ∈ block, t.priority = .high) → block.length ≤ allowance c) ∧
    ∀ block, block <:+: starts after → (∀ t ∈ block, t.priority = .high) →
      block.length ≤ cfg.writeQueueMaxHighStreak

theorem split_snoc {h before after : List (Event ε α)} {e e' : Event ε α} (heq : h ++ [e] = before ++ e' :: after) :
    (after = [] ∧ h = before ∧ e = e') ∨ ∃ after', after = after' ++ [e] ∧ h = before ++ e' :: after' := by
  rcases List.eq_nil_or_concat after with rfl | ⟨after', last, rfl⟩
  · obtain ⟨rfl, hlast⟩ := List.append_inj' heq rfl
    exact .inl ⟨rfl, rfl, List.singleton_inj.mp hlast⟩
  · rw [List.concat_eq_append, ← List.cons_append, ← List.append_assoc] at heq
    obtain ⟨rfl, hlast⟩ := List.append_inj' heq rfl
    exact .inr ⟨after', by rw [List.concat_eq_append, List.singleton_inj.mp hlast], rfl⟩

/-- Starting a task: of high priority, if the counter allows it, or a normal one. -/
theorem Patient.drain (hc : Patient cfg c) (hfast : cfg.fastWinnerPathEnabled = true)
    (hpos : 0 < cfg.writeQueueMaxHighStreak) (hdrains : c.drains = []) : Patient cfg (c.drain cfg) := by
  unfold Client.drain
  split
  · next hnone =>
    intro before n after _ hn
    dsimp only at hn
    rw [eq_nil_of_dequeue hnone] at hn
    cases hn
  · next t rest hsome =>
    obtain ⟨before', after', hqueue, hrest, -, hcounted⟩ := dequeue_some hsome
    intro before n after hhistory hn hnormal
    dsimp only at hhistory hn
    have hwaits : n ∈ c.writeQueue := by
      rw [hrest] at hn
      rw [hqueue]
      rcases List.mem_append.mp hn with hn | hn
      · exact List.mem_append_left _ hn
      · exact List.mem_append_right _ (List.mem_cons_of_mem t hn)
    rcases split_snoc hhistory with ⟨-, -, hne⟩ | ⟨seen, rfl, hbefore⟩
    · cases hne
    obtain ⟨hlast, hall⟩ := hc before n seen hbefore hwaits hnormal
    have hstarts : starts (seen ++ [.started t]) = starts seen ++ [t] := starts_append
    have hempty : allowance c = c.highPriorityStreak := by
      unfold allowance
      rw [hdrains]
    rw [hempty] at hlast
    -- a task of high priority is only started when the counter is below the bound
    have hbelow : t.priority = .high → c.highPriorityStreak < cfg.writeQueueMaxHighStreak := by
      intro ht
      by_contra hge
      have hisNormal := hcounted hfast hpos (Nat.le_of_not_lt hge) ⟨n, hwaits, by
        unfold Task.isNormal
        rw [hnormal]
        rfl⟩
      rw [isNormal_eq_false_iff.mpr ht] at hisNormal
      cases hisNormal
    have hsuffix : ∀ block, block <:+ starts seen ++ [t] → (∀ u ∈ block, u.priority = .high) →
        block.length ≤ if t.priority = .high then c.highPriorityStreak + 1 else 0 := by
      intro block hblock hhigh
      rcases List.eq_nil_or_concat block with rfl | ⟨block', u, rfl⟩
      · exact Nat.zero_le _
      · rw [List.concat_eq_append] at hblock hhigh ⊢
        obtain ⟨earlier, hearlier⟩ := hblock
        rw [← List.append_assoc] at hearlier
        obtain ⟨hseen, hu⟩ := List.append_inj' hearlier rfl
        obtain rfl := List.singleton_inj.mp hu
        rw [if_pos (hhigh u (List.mem_append_right _ List.mem_cons_self)), List.length_append, List.length_singleton]
        have hle := hlast block' ⟨earlier, hseen⟩ fun v hv => hhigh v (List.mem_append_left _ hv)
        omega
    constructor
    · rw [hstarts]
      intro block hblock hhigh
      have hlater : allowance { c with
          writeQueue := rest, drains := c.drains ++ [t], history := c.history ++ [.started t] } =
          if t.priority = .high then c.highPriorityStreak + 1 else 0 :=
        allowance_cons (congrArg (· ++ [t]) hdrains)
      rw [hlater]
      exact hsuffix block hblock hhigh
    · rw [hstarts]
      intro block hblock hhigh
      rcases List.infix_concat_iff.mp hblock with hblock | hblock
      · have hle := hsuffix block hblock hhigh
        split_ifs at hle with ht
        · have hlt := hbelow ht
          omega
        · omega
      · exact hall block hblock hhigh

theorem Patient.settle {t : Task} {outcome : Except ε α} (hc : Patient cfg c) (hdrains : c.drains = [t])
    (hcareful : ∀ e, outcome = .error e → t.priority = .high → ∀ n ∈ c.writeQueue, n.priority = .high) :
    Patient cfg { c with
      drains := []
      history := c.history ++ [.settled t outcome]
      highPriorityStreak := Client.streakAfter t outcome c.highPriorityStreak } := by
  intro before n after hhistory hn hnormal
  rcases split_snoc hhistory with ⟨-, -, hne⟩ | ⟨seen, rfl, hbefore⟩
  · cases hne
  obtain ⟨hlast, hall⟩ := hc before n seen hbefore hn hnormal
  have hstarts : starts (seen ++ [.settled t outcome]) = starts seen := by
    rw [starts_append]
    exact List.append_nil _
  rw [hstarts]
  refine ⟨fun block hblock hhigh => ?_, hall⟩
  have hle := hlast block hblock hhigh
  unfold allowance at hle ⊢
  rw [hdrains] at hle
  dsimp only at hle ⊢
  unfold Client.streakAfter
  cases outcome with
  | ok a => exact hle
  | error e =>
    dsimp only
    split_ifs at hle with ht
    · have hhigh := hcareful e rfl ht n hn
      rw [hnormal] at hhigh
      cases hhigh
    · omega

theorem Patient.place {t : Task} (hc : Patient cfg c) (hb : Books cfg c) (ht : t.call = (arrivals c.history).length) :
    Patient cfg { c with
      writeQueue := WriteQueue.place cfg t c.writeQueue
      history := c.history ++ [.enqueued t] } := by
  intro before n after hhistory hn hnormal
  rcases split_snoc hhistory with ⟨rfl, -, -⟩ | ⟨seen, rfl, hbefore⟩
  · have hnone : ∀ block : List Task, block <:+: starts ([] : List (Event ε α)) → block.length ≤ 0 := fun block h =>
      h.length_le
    exact ⟨fun block h _ => Nat.le_trans (hnone block h.isInfix) (Nat.zero_le _),
      fun block h _ => Nat.le_trans (hnone block h) (Nat.zero_le _)⟩
  have hstarts : starts (seen ++ [.enqueued t]) = starts seen := by
    rw [starts_append]
    exact List.append_nil _
  rw [hstarts]
  -- the task of an earlier call has an earlier number
  have hne : n ≠ t := by
    rintro rfl
    have hmem : n ∈ arrivals c.history := by
      rw [hbefore, arrivals_append]
      exact List.mem_append_right _ List.mem_cons_self
    obtain ⟨i, hi⟩ := List.mem_iff_getElem?.mp hmem
    have hcall := hb.numbered i n hi
    have hlt := (List.getElem?_eq_some_iff.mp hi).1
    omega
  obtain ⟨first, second, hqueue, hplace, -⟩ := exists_place hb.sorted t
  refine hc before n seen hbefore ?_ hnormal
  dsimp only at hn
  rw [hplace] at hn
  rw [hqueue]
  rcases List.mem_append.mp hn with hn | hn
  · exact List.mem_append_left _ hn
  · exact List.mem_append_right _ (List.mem_of_ne_of_mem hne hn)

theorem Patient.step {c' : Client ε α} {l : Label ε α} (hc : Patient cfg c) (ho : Orderly cfg c)
    (hfast : cfg.fastWinnerPathEnabled = true) (hpos : 0 < cfg.writeQueueMaxHighStreak)
    (hcareful : Careful cfg c l) (h : WriteQueue.step cfg c l = some c') : Patient cfg c' := by
  cases l with
  | enqueue priority =>
    obtain rfl := Option.some.inj h
    have hplaced := hc.place (t := ⟨(arrivals c.history).length, normalizedPriority priority⟩) ho.toBooks rfl
    unfold Client.enqueueWriteWithPriority
    dsimp only
    split_ifs with hrunning
    · exact hplaced
    · rcases ho.serial with ⟨hrun, -⟩ | ⟨-, hdrains, -⟩
      · exact absurd hrun hrunning
      · exact Patient.drain (c := { c with
          writeQueue := WriteQueue.place cfg ⟨(arrivals c.history).length, normalizedPriority priority⟩ c.writeQueue
          history := c.history ++ [.enqueued ⟨(arrivals c.history).length, normalizedPriority priority⟩]
          writeQueueRunning := true }) hplaced hfast hpos hdrains
  | settle i outcome =>
    obtain ⟨t, hdrains, rfl, -, rfl⟩ := settle_eq_some ho.serial h
    refine (hc.settle hdrains fun e he ht => ?_).drain hfast hpos rfl
    subst he
    exact hcareful hfast hpos t (by rw [hdrains]; rfl) ht

theorem Orderly.serves (ho : Orderly cfg c)
    (hc : cfg.fastWinnerPathEnabled = true → 0 < cfg.writeQueueMaxHighStreak → Patient cfg c) : Serves cfg c where
  distinct := ho.nodup
  once := ho.perm
  own := ho.own
  serial := by
    rcases ho.serial with ⟨-, t, ht⟩ | ⟨-, hnone, -⟩
    · rw [ht]
      exact Nat.le_refl _
    · rw [hnone]
      exact Nat.zero_le _
  order := ho.order
  finish := ho.exists_finish
  fair hfast hpos before n after hhistory hn hnormal := (hc hfast hpos before n after hhistory hn hnormal).2

/-- In every run in which no task of high priority fails while a normal one waits, the queue serves its callers. -/
theorem serves_of_careful {ts : List (Transition (Client ε α) (Label ε α))} (hr : (system ε α cfg).Run ts c)
    (hcareful : ∀ tr ∈ ts, Careful cfg tr.src tr.label) : Serves cfg c := by
  refine (reachable_orderly hr.reachable).serves fun hfast hpos => ?_
  induction hr with
  | init h =>
    intro before n after hhistory
    rw [h] at hhistory
    simp [Client.fresh] at hhistory
  | step hr h ih =>
    refine (ih fun tr htr => hcareful tr (List.mem_append_left _ htr)).step (reachable_orderly hr.reachable) hfast hpos
      (hcareful _ (List.mem_append_right _ List.mem_cons_self)) h

theorem exists_run (cfg : Config) (ls : List (Label ε α)) (h : ls.foldlM (step cfg) .fresh = some c) :
    ∃ ts, (system ε α cfg).Run ts c ∧ ts.map Transition.label = ls := by
  induction ls using List.reverseRecOn generalizing c with
  | nil => exact ⟨[], .init (Option.some.inj h).symm, rfl⟩
  | append_singleton ls l ih =>
    rw [List.foldlM_append, Option.bind_eq_bind, Option.bind_eq_some_iff] at h
    obtain ⟨c', hls, hl⟩ := h
    obtain ⟨ts, hr, rfl⟩ := ih hls
    rw [List.foldlM_cons, Option.bind_eq_bind, Option.bind_eq_some_iff] at hl
    obtain ⟨c'', hstep, hnil⟩ := hl
    obtain rfl := Option.some.inj hnil
    exact ⟨_, hr.step hstep, by rw [List.map_append]; rfl⟩

/-- A client that lets at most one task of high priority go before a normal one that waits. -/
def exampleConfig : Config := ⟨true, 1⟩

/-- A task of high priority succeeds while a normal one waits, and then the normal one starts. -/
theorem serves_of_success :
    ∃ c : Client Unit Unit, Serves exampleConfig c ∧ starts c.history = [⟨0, .high⟩, ⟨1, .normal⟩] := by
  obtain ⟨ts, hr, hlabels⟩ := exists_run exampleConfig
    [.enqueue "high", .enqueue "normal", .enqueue "high", .settle 0 (.ok ())] rfl
  refine ⟨_, serves_of_careful hr fun tr htr => ?_, rfl⟩
  have hlabel := hlabels ▸ List.mem_map_of_mem htr
  simp only [List.mem_cons, List.not_mem_nil, or_false] at hlabel
  rcases hlabel with h | h | h | h <;> rw [h] <;> exact trivial

/-- The tasks of high priority that fail are not counted: a normal task sees two of them where the bound is one. -/
theorem not_serves_of_failures :
    ¬ ∀ c : Client Unit Unit, (system Unit Unit exampleConfig).Reachable c → Serves exampleConfig c := by
  intro h
  obtain ⟨ts, hr, -⟩ := exists_run exampleConfig
    [.enqueue "high", .enqueue "normal", .enqueue "high", .settle 0 (.error ()), .enqueue "high",
      .settle 0 (.error ())] rfl
  have hserves := h _ hr.reachable
  have hfair := hserves.fair rfl (by decide) [.enqueued ⟨0, .high⟩, .started ⟨0, .high⟩] ⟨1, .normal⟩
    [.enqueued ⟨2, .high⟩, .settled ⟨0, .high⟩ (.error ()), .started ⟨2, .high⟩, .enqueued ⟨3, .high⟩,
      .settled ⟨2, .high⟩ (.error ()), .started ⟨3, .high⟩] rfl (by decide) rfl [⟨2, .high⟩, ⟨3, .high⟩]
    (List.infix_refl _) (by decide)
  exact absurd hfair (by decide)

end AuditGuard.WriteQueue
