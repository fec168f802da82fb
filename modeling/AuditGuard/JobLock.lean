import AuditGuard.Library.Transition

/-!
# The job lock of the agents

`JobLockManager` (`agents/shared/job-lock.ts`) keeps, for every job key, the promise of the last caller. A caller of
`withLock` takes the promise that it finds, or a resolved one if there is none, puts its own in its place, and waits.
When its `fn` is through, in one way or the other, it resolves its promise and deletes the entry of the key: whatever
promise the entry holds by then.

Callers are numbered in the order of their calls. A step of the system is what one caller does without giving up
control.

## Mutual exclusion under the job lock

While every caller finds the promise of the caller before it, the promises are a queue, and `fn` runs for one caller
at a time (`safe_of_covered`). The `finally` block deletes the entry of the key even where it is another caller's by
then, and the caller that comes next finds none: it overtakes whoever is waiting or running.
-/

namespace AuditGuard.JobLock

section

variable {Key : Type*}

/-- Where a caller of `withLock` stands: at `await prevLock`, at `await fn()`, where `fn` is through and the caller
has not gone on yet, and where it has gone through its `finally`. -/
inductive Phase where
  | waiting
  | running
  | settled (threw : Bool)
  | done (threw : Bool)
  deriving DecidableEq

/-- The caller has called its `fn`. -/
def Phase.Begun : Phase → Prop
  | .waiting => False
  | _ => True

/-- The caller's `fn` is through. -/
def Phase.Ended : Phase → Prop
  | .settled _ => True
  | .done _ => True
  | _ => False

/-- The caller has resolved its promise. -/
def Phase.Resolved : Phase → Prop
  | .done _ => True
  | _ => False

/-- A call of `withLock`. -/
structure Caller (Key : Type*) where
  /-- The key of the job. -/
  jobKey : Key
  /-- The promise that the caller waits for; a resolved one if there is none. -/
  prevLock : Option ℕ
  /-- Where it stands. -/
  phase : Phase

/-- A lock manager, with everyone who has called it. -/
structure Manager (Key : Type*) where
  /-- The calls, in their order. -/
  callers : List (Caller Key)
  /-- The promise that the map has for a key. -/
  locks : Key → Option ℕ

/-- The caller `i` has come to the phase. -/
def Manager.At (m : Manager Key) (i : ℕ) (phase : Phase) : Prop :=
  ∃ c, m.callers[i]? = some c ∧ c.phase = phase

/-- The promise of caller `i` is resolved. -/
def Manager.Resolved (m : Manager Key) (i : ℕ) : Prop :=
  ∃ c, m.callers[i]? = some c ∧ c.phase.Resolved

/-- Caller `i` goes on to the phase. -/
def Manager.move (m : Manager Key) (i : ℕ) (c : Caller Key) (phase : Phase) : Manager Key :=
  { m with callers := m.callers.set i { c with phase := phase } }

/-- What happens at a lock manager. -/
inductive Event (Key : Type*) where
  | arrive (jobKey : Key)
  | begin (i : ℕ)
  | settle (i : ℕ) (threw : Bool)
  | release (i : ℕ)

variable [DecidableEq Key]

/-- `withLock` up to its first `await`: the caller takes the promise it finds and leaves its own. -/
def Manager.arrive (m : Manager Key) (jobKey : Key) : Manager Key where
  callers := m.callers ++ [⟨jobKey, m.locks jobKey, .waiting⟩]
  locks := Function.update m.locks jobKey (some m.callers.length)

/-- The `finally` block: the promise is resolved, and the entry of the key deleted. -/
def Manager.release (m : Manager Key) (i : ℕ) (c : Caller Key) (threw : Bool) : Manager Key :=
  { m.move i c (.done threw) with locks := Function.update m.locks c.jobKey none }

/-- One step of one caller. A caller that waits goes on once its promise is resolved; its `fn` ends at some time, with
a value or an error; and the `finally` block follows in both cases. -/
inductive Step : Manager Key → Event Key → Manager Key → Prop
  | arrive (m : Manager Key) (jobKey : Key) : Step m (.arrive jobKey) (m.arrive jobKey)
  | begin {m : Manager Key} {i : ℕ} {c : Caller Key} (hc : m.callers[i]? = some c) (hphase : c.phase = .waiting)
      (hprev : ∀ p, c.prevLock = some p → m.Resolved p) : Step m (.begin i) (m.move i c .running)
  | settle {m : Manager Key} {i : ℕ} {c : Caller Key} {threw : Bool} (hc : m.callers[i]? = some c)
      (hphase : c.phase = .running) : Step m (.settle i threw) (m.move i c (.settled threw))
  | release {m : Manager Key} {i : ℕ} {c : Caller Key} {threw : Bool} (hc : m.callers[i]? = some c)
      (hphase : c.phase = .settled threw) : Step m (.release i) (m.release i c threw)

/-- A lock manager over its life. -/
def system : TransitionSystem (Manager Key) (Event Key) where
  init m := m.callers = [] ∧ ∀ k, m.locks k = none
  step := Step

end

section

open TransitionSystem

variable {Key : Type*} {m m' : Manager Key} {i j p q : ℕ} {k : Key} {c d : Caller Key} {phase : Phase}

/-- At most one caller's `fn` runs for a key. -/
def Manager.Exclusive (m : Manager Key) : Prop :=
  ∀ (i j : ℕ) (c d : Caller Key), m.callers[i]? = some c → m.callers[j]? = some d → c.jobKey = d.jobKey →
    c.phase = .running → d.phase = .running → i = j

/-- A caller's `fn` is not called before that of an earlier caller on its key. -/
def Manager.InOrder (m : Manager Key) : Prop :=
  ∀ (i j : ℕ) (c d : Caller Key), i < j → m.callers[i]? = some c → m.callers[j]? = some d → c.jobKey = d.jobKey →
    d.phase.Begun → c.phase.Begun

section Safety

variable [DecidableEq Key]

/-- A caller can go on once those before it on its own key are through, whether they threw or not; and a caller whose
`fn` is through, in whichever way, can resolve its promise. -/
def Manager.Unblocked (m : Manager Key) : Prop :=
  (∀ (j : ℕ) (c : Caller Key), m.callers[j]? = some c → c.phase = .waiting →
    (∀ (i : ℕ) (d : Caller Key), i < j → m.callers[i]? = some d → d.jobKey = c.jobKey → d.phase.Resolved) →
    ∃ m', Step m (.begin j) m') ∧
  ∀ (i : ℕ) (c : Caller Key) (threw : Bool), m.callers[i]? = some c → c.phase = .settled threw →
    ∃ m', Step m (.release i) m' ∧ m'.Resolved i

/-- What the lock is for. -/
structure Manager.Safe (m : Manager Key) : Prop where
  /-- The callers on a key exclude one another. -/
  exclusive : m.Exclusive
  /-- They run in the order of their calls. -/
  inOrder : m.InOrder
  /-- They wait for nothing else. -/
  unblocked : m.Unblocked

/-- Whoever finds no entry for its key comes when everyone before it on the key is through. -/
def Covered (m : Manager Key) : Event Key → Prop
  | .arrive k => m.locks k = none →
    ∀ (i : ℕ) (c : Caller Key), m.callers[i]? = some c → c.jobKey = k → c.phase.Ended
  | _ => True

end Safety

/-! ## What a step does -/

/-- The key that a caller has called for. -/
def Manager.key (m : Manager Key) (i : ℕ) : Option Key := (m.callers[i]?).map Caller.jobKey

/-- The caller's `fn` is through. -/
def Manager.Ended (m : Manager Key) (i : ℕ) : Prop := ∃ c, m.callers[i]? = some c ∧ c.phase.Ended

theorem Manager.key_of_getElem? (hc : m.callers[i]? = some c) : m.key i = some c.jobKey := by
  unfold Manager.key
  rw [hc]
  rfl

theorem Manager.exists_of_key (h : m.key i = some k) : ∃ c, m.callers[i]? = some c ∧ c.jobKey = k :=
  Option.map_eq_some_iff.mp h

/-- A caller that goes on: where it stood and where it stands. It goes forward; it calls its `fn` when the promise it
waits for is resolved; and it puts nothing into the map. -/
structure Advance (m m' : Manager Key) (i : ℕ) (c : Caller Key) (phase : Phase) : Prop where
  /-- The caller. -/
  caller : m.callers[i]? = some c
  /-- It alone goes on. -/
  callers : m'.callers = m.callers.set i { c with phase := phase }
  /-- An `fn` that is through stays so. -/
  ended : c.phase.Ended → phase.Ended
  /-- It is called after the promise is resolved. -/
  begun : phase.Begun → c.phase.Begun ∨ ∀ p, c.prevLock = some p → m.Resolved p
  /-- The entries are from before. -/
  locks : ∀ (k : Key) (n : ℕ), m'.locks k = some n → m.locks k = some n

theorem Step.cases [DecidableEq Key] {e : Event Key} (h : Step m e m') :
    (∃ k, e = .arrive k ∧ m' = m.arrive k) ∨ ∃ i c phase, Advance m m' i c phase := by
  cases h with
  | arrive k => exact .inl ⟨k, rfl, rfl⟩
  | @begin i c hc hphase hprev =>
    refine .inr ⟨i, c, .running, hc, rfl, fun hended => ?_, fun _ => .inr hprev, fun _ _ => id⟩
    rw [hphase] at hended
    cases hended
  | @settle i c threw hc hphase =>
    refine .inr ⟨i, c, .settled threw, hc, rfl, fun _ => trivial, fun _ => .inl ?_, fun _ _ => id⟩
    rw [hphase]
    trivial
  | @release i c threw hc hphase =>
    refine .inr ⟨i, c, .done threw, hc, rfl, fun _ => trivial, fun _ => .inl ?_, fun k n hn => ?_⟩
    · rw [hphase]
      trivial
    · -- The entry of the caller's own key is gone.
      by_cases hk : k = c.jobKey
      · subst hk
        simp [Manager.release] at hn
      · simpa [Manager.release, hk] using hn

namespace Advance

variable (h : Advance m m' i c phase)
include h

theorem origin {d : Caller Key} (hd : m'.callers[j]? = some d) :
    (j = i ∧ d = { c with phase := phase }) ∨ (j ≠ i ∧ m.callers[j]? = some d) := by
  rw [h.callers, List.getElem?_set] at hd
  by_cases hj : i = j
  · rw [if_pos hj, if_pos (List.getElem?_eq_some_iff.mp h.caller).1] at hd
    exact .inl ⟨hj.symm, (Option.some.inj hd).symm⟩
  · rw [if_neg hj] at hd
    exact .inr ⟨Ne.symm hj, hd⟩

theorem key : m'.key j = m.key j := by
  unfold Manager.key
  rw [h.callers, List.getElem?_set]
  split_ifs with hj hlt
  · subst hj
    rw [h.caller]
    rfl
  · subst hj
    rw [List.getElem?_eq_none (by omega)]
  · rfl

theorem length : m'.callers.length = m.callers.length := by
  rw [h.callers, List.length_set]

theorem ended_mono (hj : m.Ended j) : m'.Ended j := by
  obtain ⟨d, hd, hended⟩ := hj
  by_cases hji : j = i
  · subst hji
    rw [h.caller] at hd
    obtain rfl := Option.some.inj hd
    refine ⟨{ c with phase := phase }, ?_, h.ended hended⟩
    rw [h.callers, List.getElem?_set_self (List.getElem?_eq_some_iff.mp h.caller).1]
  · refine ⟨d, ?_, hended⟩
    rwa [h.callers, List.getElem?_set_ne (Ne.symm hji)]

end Advance

section Arrival

variable [DecidableEq Key]

theorem arrive_origin {jobKey : Key} (hd : (m.arrive jobKey).callers[j]? = some d) :
    m.callers[j]? = some d ∨ (j = m.callers.length ∧ d = ⟨jobKey, m.locks jobKey, .waiting⟩) := by
  unfold Manager.arrive at hd
  rw [List.getElem?_append] at hd
  split_ifs at hd with hj
  · exact .inl hd
  · refine .inr ?_
    have hlen : j < m.callers.length + 1 := by
      have hlt := (List.getElem?_eq_some_iff.mp hd).1
      simp only [List.length_singleton] at hlt
      omega
    have hj : j = m.callers.length := by omega
    subst hj
    simp only [Nat.sub_self, List.getElem?_cons_zero, Option.some.injEq] at hd
    exact ⟨rfl, hd.symm⟩

theorem arrive_getElem? {jobKey : Key} (hj : j < m.callers.length) :
    (m.arrive jobKey).callers[j]? = m.callers[j]? := List.getElem?_append_left hj

theorem arrive_key {jobKey : Key} (hj : j < m.callers.length) : (m.arrive jobKey).key j = m.key j := by
  unfold Manager.key
  rw [arrive_getElem? hj]

theorem arrive_key_last (jobKey : Key) : (m.arrive jobKey).key m.callers.length = some jobKey := by
  unfold Manager.key Manager.arrive
  rw [List.getElem?_concat_length]
  rfl

theorem arrive_ended {jobKey : Key} (h : m.Ended j) : (m.arrive jobKey).Ended j := by
  obtain ⟨c, hc, hended⟩ := h
  refine ⟨c, ?_, hended⟩
  rwa [arrive_getElem? (List.getElem?_eq_some_iff.mp hc).1]

end Arrival

/-! ## The chain of promises -/

/-- The last caller on the key before `j` is `p`. -/
structure Last (m : Manager Key) (k : Key) (p j : ℕ) : Prop where
  /-- It comes before. -/
  lt : p < j
  /-- It is on the key. -/
  key : m.key p = some k
  /-- Nobody between them is. -/
  between : ∀ q, p < q → q < j → m.key q ≠ some k

theorem Last.of_keys (h : Last m k p j) (hkeys : ∀ q < j, m'.key q = m.key q) : Last m' k p j where
  lt := h.lt
  key := (hkeys p h.lt).trans h.key
  between q hpq hqj := by
    rw [hkeys q hqj]
    exact h.between q hpq hqj

/-- A caller waits for the last one before it on its key, and so will the next one, if it finds a promise. -/
structure Chained (m : Manager Key) : Prop where
  /-- The promises taken. -/
  prev : ∀ (j : ℕ) (c : Caller Key) (p : ℕ), m.callers[j]? = some c → c.prevLock = some p → Last m c.jobKey p j
  /-- The promises in the map. -/
  entry : ∀ (k : Key) (n : ℕ), m.locks k = some n → Last m k n m.callers.length

theorem Chained.step [DecidableEq Key] {e : Event Key} (h : Chained m) (hstep : Step m e m') : Chained m' := by
  rcases hstep.cases with ⟨jobKey, -, rfl⟩ | ⟨i, c, phase, hadv⟩
  · have hkeys : ∀ q < m.callers.length, (m.arrive jobKey).key q = m.key q := fun q hq => arrive_key hq
    constructor
    · intro j d p hd hp
      rcases arrive_origin hd with hd | ⟨rfl, rfl⟩
      · have hj := (List.getElem?_eq_some_iff.mp hd).1
        exact (h.prev j d p hd hp).of_keys fun q hq => hkeys q (Nat.lt_trans hq hj)
      · exact (h.entry jobKey p hp).of_keys hkeys
    · intro k n hn
      have hlen : (m.arrive jobKey).callers.length = m.callers.length + 1 := by simp [Manager.arrive]
      rw [hlen]
      by_cases hk : k = jobKey
      · -- The entry is the newcomer's.
        subst hk
        have hn' : m.callers.length = n := by simpa [Manager.arrive] using hn
        subst hn'
        exact ⟨by omega, arrive_key_last k, fun q hq hq' => absurd hq' (by omega)⟩
      · have hn' : m.locks k = some n := by simpa [Manager.arrive, hk] using hn
        have hlast := h.entry k n hn'
        refine ⟨by have := hlast.lt; omega, (hkeys n hlast.lt).trans hlast.key, fun q hnq hq => ?_⟩
        by_cases hq' : q = m.callers.length
        · subst hq'
          rw [arrive_key_last]
          exact fun heq => hk (Option.some.inj heq).symm
        · rw [hkeys q (by omega)]
          exact hlast.between q hnq (by omega)
  · constructor
    · intro j d p hd hp
      rcases hadv.origin hd with ⟨rfl, rfl⟩ | ⟨-, hd⟩
      · exact (h.prev j c p hadv.caller hp).of_keys fun q _ => hadv.key
      · exact (h.prev j d p hd hp).of_keys fun q _ => hadv.key
    · intro k n hn
      rw [hadv.length]
      exact (h.entry k n (hadv.locks k n hn)).of_keys fun q _ => hadv.key

/-- The calls of a key are chained in every reachable state. -/
theorem chained_of_reachable [DecidableEq Key] (h : system.Reachable m) : Chained m := by
  refine h.induct (fun m hm => ?_) fun m e m' _ hinv hstep => hinv.step hstep
  constructor
  · intro j c p hc
    simp [hm.1] at hc
  · intro k n hn
    simp [hm.2 k] at hn

/-! ## The order of the callers -/

/-- Whoever has no one to wait for comes after the others on its key, and whoever has called its `fn` does too. -/
structure Ordered (m : Manager Key) : Prop where
  /-- Nobody is overtaken by a caller that found no promise. -/
  free : ∀ (j : ℕ) (c : Caller Key), m.callers[j]? = some c → c.prevLock = none →
    ∀ i < j, m.key i = some c.jobKey → m.Ended i
  /-- Nobody is overtaken by a caller that runs. -/
  order : ∀ (j : ℕ) (c : Caller Key), m.callers[j]? = some c → c.phase.Begun →
    ∀ i < j, m.key i = some c.jobKey → m.Ended i

theorem Manager.Resolved.begun (h : m.Resolved p) :
    ∃ c, m.callers[p]? = some c ∧ c.phase.Begun ∧ c.phase.Ended := by
  obtain ⟨c, hc, hresolved⟩ := h
  cases hphase : c.phase with
  | done threw => exact ⟨c, hc, by simp [hphase, Phase.Begun], by simp [hphase, Phase.Ended]⟩
  | waiting => simp [hphase, Phase.Resolved] at hresolved
  | running => simp [hphase, Phase.Resolved] at hresolved
  | settled threw => simp [hphase, Phase.Resolved] at hresolved

theorem Ordered.before_free (h : Ordered m) (hchain : Chained m) (hc : m.callers[j]? = some c)
    (hprev : ∀ p, c.prevLock = some p → m.Resolved p) (hij : i < j) (hkey : m.key i = some c.jobKey) :
    m.Ended i := by
  cases hp : c.prevLock with
  | none => exact h.free j c hc hp i hij hkey
  | some p =>
    have hlast := hchain.prev j c p hc hp
    obtain ⟨d, hd, hbegun, hended⟩ := (hprev p hp).begun
    rcases Nat.lt_trichotomy i p with hip | rfl | hpi
    · refine h.order p d hd hbegun i hip (hkey.trans ?_)
      rw [← hlast.key, Manager.key_of_getElem? hd]
    · exact ⟨d, hd, hended⟩
    · exact absurd hkey (hlast.between i hpi hij)

theorem Ordered.step [DecidableEq Key] {e : Event Key} (h : Ordered m) (hchain : Chained m)
    (hstep : Step m e m') (hcov : Covered m e) : Ordered m' := by
  rcases hstep.cases with ⟨jobKey, rfl, rfl⟩ | ⟨i, c, phase, hadv⟩
  · constructor
    · intro j d hd hprev i hij hkey
      rcases arrive_origin hd with hd | ⟨rfl, rfl⟩
      · have hj := (List.getElem?_eq_some_iff.mp hd).1
        rw [arrive_key (Nat.lt_trans hij hj)] at hkey
        exact arrive_ended (h.free j d hd hprev i hij hkey)
      · rw [arrive_key hij] at hkey
        obtain ⟨c, hc, hck⟩ := Manager.exists_of_key hkey
        exact arrive_ended ⟨c, hc, hcov hprev i c hc hck⟩
    · intro j d hd hbegun i hij hkey
      rcases arrive_origin hd with hd | ⟨rfl, rfl⟩
      · have hj := (List.getElem?_eq_some_iff.mp hd).1
        rw [arrive_key (Nat.lt_trans hij hj)] at hkey
        exact arrive_ended (h.order j d hd hbegun i hij hkey)
      · cases hbegun
  · constructor
    · intro j d hd hprev i hij hkey
      rw [hadv.key] at hkey
      rcases hadv.origin hd with ⟨rfl, rfl⟩ | ⟨-, hd⟩
      · exact hadv.ended_mono (h.free j c hadv.caller hprev i hij hkey)
      · exact hadv.ended_mono (h.free j d hd hprev i hij hkey)
    · intro j d hd hbegun i hij hkey
      rw [hadv.key] at hkey
      rcases hadv.origin hd with ⟨rfl, rfl⟩ | ⟨-, hd⟩
      · rcases hadv.begun hbegun with hbefore | hprev
        · exact hadv.ended_mono (h.order j c hadv.caller hbefore i hij hkey)
        · exact hadv.ended_mono (h.before_free hchain hadv.caller hprev hij hkey)
      · exact hadv.ended_mono (h.order j d hd hbegun i hij hkey)

theorem ordered_of_covered [DecidableEq Key] {ts : List (Transition (Manager Key) (Event Key))}
    (hr : system.Run ts m) (hcov : ∀ tr ∈ ts, Covered tr.src tr.label) : Ordered m := by
  induction hr with
  | init h =>
    constructor <;>
    · intro j c hc
      simp [h.1] at hc
  | step hr hstep ih =>
    have hbefore := ih fun tr htr => hcov tr (List.mem_append_left _ htr)
    exact hbefore.step (chained_of_reachable hr.reachable) hstep
      (hcov _ (List.mem_append_right _ (List.mem_singleton_self _)))

/-! ## What the lock is for -/

theorem Phase.Begun.of_running {phase : Phase} (h : phase = .running) : phase.Begun ∧ ¬ phase.Ended := by
  rw [h]
  exact ⟨trivial, id⟩

theorem Phase.Ended.begun {phase : Phase} (h : phase.Ended) : phase.Begun := by
  cases phase with
  | waiting => cases h
  | running => trivial
  | settled threw => trivial
  | done threw => trivial

theorem Ordered.ended (h : Ordered m) (hij : i < j) (hc : m.callers[i]? = some c) (hd : m.callers[j]? = some d)
    (hkey : c.jobKey = d.jobKey) (hbegun : d.phase.Begun) : c.phase.Ended := by
  have hi : m.key i = some d.jobKey := by rw [Manager.key_of_getElem? hc, hkey]
  obtain ⟨c', hc', hended⟩ := h.order j d hd hbegun i hij hi
  rw [hc] at hc'
  obtain rfl := Option.some.inj hc'
  exact hended

theorem Ordered.exclusive (h : Ordered m) : m.Exclusive := by
  intro i j c d hc hd hkey hci hdj
  have hcr := Phase.Begun.of_running hci
  have hdr := Phase.Begun.of_running hdj
  rcases Nat.lt_trichotomy i j with hij | hij | hij
  · exact absurd (h.ended hij hc hd hkey hdr.1) hcr.2
  · exact hij
  · exact absurd (h.ended hij hd hc hkey.symm hcr.1) hdr.2

theorem Ordered.inOrder (h : Ordered m) : m.InOrder := fun _ _ _ _ hij hc hd hkey hbegun =>
  (h.ended hij hc hd hkey hbegun).begun

theorem Chained.unblocked [DecidableEq Key] (h : Chained m) : m.Unblocked := by
  constructor
  · intro j c hc hphase hbefore
    refine ⟨_, .begin hc hphase fun p hp => ?_⟩
    have hlast := h.prev j c p hc hp
    obtain ⟨d, hd, hkey⟩ := Manager.exists_of_key hlast.key
    exact ⟨d, hd, hbefore p d hlast.lt hd hkey⟩
  · intro i c threw hc hphase
    refine ⟨_, .release hc hphase, { c with phase := .done threw }, ?_, trivial⟩
    exact List.getElem?_set_self (List.getElem?_eq_some_iff.mp hc).1

/-- While every caller that finds no promise comes after the others on its key are through, the lock excludes: at most
one `fn` of a key runs at a time, the callers of a key run in the order of their calls, and nobody waits for another
key or for an `fn` that has thrown. -/
theorem safe_of_covered [DecidableEq Key] {ts : List (Transition (Manager Key) (Event Key))}
    (hr : system.Run ts m) (hcov : ∀ tr ∈ ts, Covered tr.src tr.label) : m.Safe where
  exclusive := (ordered_of_covered hr hcov).exclusive
  inOrder := (ordered_of_covered hr hcov).inOrder
  unblocked := (chained_of_reachable hr.reachable).unblocked

/-- Nothing is locked. -/
def sampleManager : Manager String := ⟨[], fun _ => none⟩

/-- Two callers exclude one another: the second runs after the first has thrown. -/
theorem safe_of_covered_sample : ∃ (ts : List (Transition (Manager String) (Event String)))
    (m : Manager String), system.Run ts m ∧ m.Safe ∧ m.At 0 (.done true) ∧ m.At 1 .running := by
  have h0 : system.Run [] sampleManager := .init ⟨rfl, fun _ => rfl⟩
  have h1 := h0.step (Step.arrive _ "job123")
  have h2 := h1.step (Step.arrive _ "job123")
  have h3 := h2.step (show Step _ (.begin 0) _ from .begin rfl rfl nofun)
  have h4 := h3.step (show Step _ (.settle 0 true) _ from .settle rfl rfl)
  have h5 := h4.step (show Step _ (.release 0) _ from .release rfl rfl)
  have h6 := h5.step (show Step _ (.begin 1) _ from .begin rfl rfl fun p hp => by
    obtain rfl : p = 0 := (Option.some.inj hp).symm
    exact ⟨_, rfl, trivial⟩)
  refine ⟨_, _, h6, safe_of_covered h6 ?_, ⟨_, rfl, rfl⟩, ⟨_, rfl, rfl⟩⟩
  intro tr htr
  simp only [List.nil_append, List.cons_append, List.mem_cons, List.not_mem_nil, or_false] at htr
  rcases htr with rfl | rfl | rfl | rfl | rfl | rfl
  · intro _ i c hc
    cases hc
  · nofun
  all_goals trivial

/-- The first caller finishes, the second runs, and a third finds no promise: it runs beside the second. -/
theorem third_caller_overlaps : ¬ ∀ (ts : List (Transition (Manager String) (Event String))) (m : Manager String),
    system.Run ts m → m.Safe := by
  intro hall
  have h0 : system.Run [] sampleManager := .init ⟨rfl, fun _ => rfl⟩
  have h1 := h0.step (Step.arrive _ "job123")
  have h2 := h1.step (Step.arrive _ "job123")
  have h3 := h2.step (show Step _ (.begin 0) _ from .begin rfl rfl nofun)
  have h4 := h3.step (show Step _ (.settle 0 false) _ from .settle rfl rfl)
  have h5 := h4.step (show Step _ (.release 0) _ from .release rfl rfl)
  have h6 := h5.step (show Step _ (.begin 1) _ from .begin rfl rfl fun p hp => by
    obtain rfl : p = 0 := (Option.some.inj hp).symm
    exact ⟨_, rfl, trivial⟩)
  have h7 := h6.step (Step.arrive _ "job123")
  have h8 := h7.step (show Step _ (.begin 2) _ from .begin rfl rfl nofun)
  have hboth := (hall _ _ h8).exclusive 1 2 _ _ rfl rfl rfl rfl rfl
  omega

end

end AuditGuard.JobLock
