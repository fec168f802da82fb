import AuditGuard.Library.Evm
import AuditGuard.Library.OrderedMap
import AuditGuard.Library.Transition

/-!
# Scheduled audits: triggers and their retries

An `AuditTriggered` event of the scheduler is announced in the audit log, and then the contract is looked at by the
enrichment service and published as a discovery. If that fails, the trigger goes to a queue, which a timer works
through from time to time. The queue holds one entry for a contract and a schedule.

`publishScheduledDiscoveryWithEnrichment` is run by the handlers of the events, which run next to each other, and by
`processScheduledEnrichmentQueue`, of which there is one at a time; it takes its entries from a copy of the queue.
Whoever awaits it goes on at once when it returns.

## Scheduled audits: triggers that are dropped

A trigger is dropped where the message that announces it fails, and where the message that the enrichment has failed
fails; and where its entry of the queue is lost: the handler of an earlier trigger replaces it, or the loop deletes or
replaces what it finds under the key of the entry that it took from its copy.
-/

namespace AuditGuard.Enrichment

section

open Evm TransitionSystem

/-- What is known of a trigger, with the times that it was tried, and the time from which on it is tried again. -/
structure Payload where
  contractAddress : Address
  scheduleAddress : Address
  triggeredAt : ℕ
  timesTriggered : ℕ
  retryCount : ℕ
  nextAttemptAt : ℕ
deriving DecidableEq

/-- A contract and a schedule. -/
abbrev Key := Address × Address

/-- `scheduledEnrichmentQueueKey`. -/
def Payload.key (payload : Payload) : Key := (payload.contractAddress, payload.scheduleAddress)

/-- The settings. -/
structure Config where
  scheduledEnrichmentMaxAttempts : ℕ
  scheduledEnrichmentRetryIntervalMs : ℕ

/-! ## Publishing a discovery -/

/-- Where `publishScheduledDiscoveryWithEnrichment` is suspended. -/
inductive Awaiting
  /-- The enrichment service. -/
  | enrichment (attempt : ℕ)
  | backoff (attempt : ℕ)
  | publishDiscovery
  /-- The message that it has failed. -/
  | failedLog
deriving DecidableEq

/-- What it does next: it awaits something, it returns whether a discovery was published, or it throws. -/
inductive Outcome
  | awaits (pos : Awaiting)
  | returned (success : Bool)
  | thrown (error : String)

/-- What `publishScheduledDiscoveryWithEnrichment` does with an answer. -/
def publishScheduledDiscoveryWithEnrichment (cfg : Config) : Awaiting → Except String Unit → Outcome
  | .enrichment _, .ok () => .awaits .publishDiscovery
  | .enrichment attempt, .error _ =>
    if attempt < max 1 cfg.scheduledEnrichmentMaxAttempts then .awaits (.backoff attempt) else .awaits .failedLog
  | .backoff attempt, _ => .awaits (.enrichment (attempt + 1))
  | .publishDiscovery, .ok () => .returned true
  | .publishDiscovery, .error _ => .awaits .failedLog
  | .failedLog, .ok () => .returned false
  | .failedLog, .error error => .thrown error

/-! ## The queue -/

/-- `scheduledEnrichmentQueue`. -/
abbrev Queue := OrderedMap Key Payload

/-- `queueScheduledEnrichment`. -/
def queueScheduledEnrichment (cfg : Config) (nowMs : ℕ) (payload : Payload) (queue : Queue) : Queue :=
  let retryCount := max payload.retryCount (((queue.get payload.key).map Payload.retryCount).getD 0)
  queue.set payload.key { payload with
    retryCount := retryCount
    nextAttemptAt := nowMs + cfg.scheduledEnrichmentRetryIntervalMs }

/-- The entry of a trigger that was tried again in vain. -/
def retryLater (cfg : Config) (nowMs : ℕ) (payload : Payload) : Payload :=
  { payload with
    retryCount := payload.retryCount + 1
    nextAttemptAt := nowMs + cfg.scheduledEnrichmentRetryIntervalMs }

/-- `processScheduledEnrichmentQueue` while it is in flight: the time at which it began, the entry that it is at with
the place where publishing it is suspended, and the entries after it. -/
structure Loop where
  nowMs : ℕ
  entry : Key × Payload
  pos : Awaiting
  rest : List (Key × Payload)

/-- The loop comes to the next entry that is due, if there is one. -/
def Loop.next (nowMs : ℕ) : List (Key × Payload) → Option Loop
  | [] => none
  | entry :: rest =>
    if nowMs < entry.2.nextAttemptAt then Loop.next nowMs rest else some ⟨nowMs, entry, .enrichment 1, rest⟩

/-! ## The handlers -/

/-- Where the handler of an event is. -/
inductive Place
  /-- The message that announces the trigger. -/
  | triggeredLog
  | publishing (pos : Awaiting)
  | finished
deriving DecidableEq

/-- The handler of an event, with the number of discoveries that were published before. -/
structure Handler where
  payload : Payload
  publishedBefore : ℕ
  place : Place
deriving DecidableEq

/-- The orchestrator: the handlers, the queue, the loop if it is in flight, the triggers whose discoveries were
published, and the time. -/
structure State where
  handlers : List Handler
  scheduledEnrichmentQueue : Queue
  loop : Option Loop
  published : List Payload
  nowMs : ℕ

/-- What happens. -/
inductive Event
  | triggered (contractAddress scheduleAddress : Address) (triggeredAt timesTriggered : ℕ)
  | answer (d : ℕ) (a : Except String Unit)
  /-- The timer of the queue. -/
  | process
  | answerLoop (a : Except String Unit)
  | tick

namespace State

variable (cfg : Config) (s : State)

/-- An event comes in. -/
def trigger (contractAddress scheduleAddress : Address) (triggeredAt timesTriggered : ℕ) : State :=
  let enrichmentPayload := ⟨contractAddress, scheduleAddress, triggeredAt, timesTriggered, 0, 0⟩
  { s with handlers := s.handlers ++ [⟨enrichmentPayload, s.published.length, .triggeredLog⟩] }

/-- The handler `d` is at another place. -/
def move (d : ℕ) (h : Handler) (place : Place) : State :=
  { s with handlers := s.handlers.set d { h with place := place } }

/-- The handler `d` of an event goes on with an answer. -/
def answer (d : ℕ) (h : Handler) (a : Except String Unit) : State :=
  match h.place with
  | .triggeredLog =>
    match a with
    | .ok () => s.move d h (.publishing (.enrichment 1))
    | .error _ => s.move d h .finished
  | .publishing pos =>
    match publishScheduledDiscoveryWithEnrichment cfg pos a with
    | .awaits pos => s.move d h (.publishing pos)
    | .returned true => { s.move d h .finished with published := s.published ++ [h.payload] }
    | .returned false => { s.move d h .finished with
        scheduledEnrichmentQueue :=
          queueScheduledEnrichment cfg s.nowMs { h.payload with retryCount := 1 } s.scheduledEnrichmentQueue }
    | .thrown _ => s.move d h .finished
  | .finished => s

/-- `processScheduledEnrichmentQueue` begins, unless it is in flight. -/
def process : State :=
  if s.loop.isSome = true then s else { s with loop := Loop.next s.nowMs s.scheduledEnrichmentQueue.entries }

/-- The loop goes on with an answer. -/
def answerLoop (l : Loop) (a : Except String Unit) : State :=
  match publishScheduledDiscoveryWithEnrichment cfg l.pos a with
  | .awaits pos => { s with loop := some { l with pos := pos } }
  | .returned true => { s with
      published := s.published ++ [l.entry.2]
      scheduledEnrichmentQueue := s.scheduledEnrichmentQueue.delete l.entry.1
      loop := Loop.next l.nowMs l.rest }
  | .returned false => { s with
      scheduledEnrichmentQueue := s.scheduledEnrichmentQueue.set l.entry.1 (retryLater cfg s.nowMs l.entry.2)
      loop := Loop.next l.nowMs l.rest }
  | .thrown _ => { s with loop := none }

end State

variable (cfg : Config)

/-- The steps. -/
inductive Step : State → Event → State → Prop
  | triggered (s : State) (contractAddress scheduleAddress : Address) (triggeredAt timesTriggered : ℕ) :
      Step s (.triggered contractAddress scheduleAddress triggeredAt timesTriggered)
        (s.trigger contractAddress scheduleAddress triggeredAt timesTriggered)
  | answer {s : State} {d : ℕ} {h : Handler} (a : Except String Unit) (hh : s.handlers[d]? = some h)
      (hplace : h.place ≠ .finished) : Step s (.answer d a) (s.answer cfg d h a)
  | process (s : State) : Step s .process s.process
  | answerLoop {s : State} {l : Loop} (a : Except String Unit) (hl : s.loop = some l) :
      Step s (.answerLoop a) (s.answerLoop cfg l a)
  | tick {s : State} {nowMs : ℕ} (hle : s.nowMs ≤ nowMs) : Step s .tick { s with nowMs := nowMs }

/-- An orchestrator that has just started. -/
def system : TransitionSystem State Event where
  init s := s.handlers = [] ∧ s.scheduledEnrichmentQueue = OrderedMap.empty ∧ s.loop = none ∧ s.published = []
  step := Step cfg

/-- What happened in a run. -/
abbrev Trace := List (Transition State Event)

end

section

open Evm TransitionSystem

variable {cfg : Config} {ts : Trace} {s s' : State} {e : Event} {d : ℕ} {h : Handler} {l : Loop} {key : Key} {n : ℕ}

/-! ## Triggers that are served, and entries that are kept -/

/-- The trigger number `n` of a contract and a schedule was published among the discoveries in `published`, or is in
the queue; a later trigger stands for an earlier one. -/
def Served (queue : Queue) (published : List Payload) (key : Key) (n : ℕ) : Prop :=
  (∃ payload ∈ published, payload.key = key ∧ n ≤ payload.timesTriggered) ∨
    ∃ entry, queue.get key = some entry ∧ n ≤ entry.timesTriggered

/-- Every event whose handler is through has led to a discovery that was published after it was received, or it is in
the queue. -/
def NoneDropped (s : State) : Prop :=
  ∀ h ∈ s.handlers, h.place = .finished → Served s.scheduledEnrichmentQueue (s.published.drop h.publishedBefore)
    h.payload.key h.payload.timesTriggered

/-- No entry of the queue is lost before its trigger is published. -/
def KeepsEntries (tr : Transition State Event) : Prop :=
  ∀ key entry, tr.src.scheduledEnrichmentQueue.get key = some entry →
    Served tr.dst.scheduledEnrichmentQueue tr.dst.published key entry.timesTriggered

/-- What is in the queue under the key of a payload is not of a later trigger. -/
def Latest (queue : Queue) (payload : Payload) : Prop :=
  ∀ entry, queue.get payload.key = some entry → entry.timesTriggered ≤ payload.timesTriggered

instance {queue : Queue} {payload : Payload} : Decidable (Latest queue payload) :=
  inferInstanceAs (Decidable (∀ entry ∈ queue.get payload.key, entry.timesTriggered ≤ payload.timesTriggered))

/-- The messages of the handler that nothing catches do not fail, and a handler and the loop do not touch the entry of
a later trigger. -/
structure Careful (tr : Transition State Event) : Prop where
  logged : ∀ d h error, tr.label = .answer d (.error error) → tr.src.handlers[d]? = some h →
    h.place ≠ .triggeredLog ∧ h.place ≠ .publishing .failedLog
  queued : ∀ d h, tr.label = .answer d (.ok ()) → tr.src.handlers[d]? = some h → h.place = .publishing .failedLog →
    Latest tr.src.scheduledEnrichmentQueue h.payload
  processed : ∀ l, tr.label = .answerLoop (.ok ()) → tr.src.loop = some l →
    l.pos = .publishDiscovery ∨ l.pos = .failedLog → Latest tr.src.scheduledEnrichmentQueue l.entry.2

/-! ## Entries -/

/-- Payloads are under their own keys, and no handler has come before the time at which it began. -/
structure Sound (s : State) : Prop where
  queue : ∀ entry ∈ s.scheduledEnrichmentQueue.entries, entry.2.key = entry.1
  loop : ∀ l, s.loop = some l → l.entry.2.key = l.entry.1 ∧ ∀ entry ∈ l.rest, entry.2.key = entry.1
  handlers : ∀ h ∈ s.handlers, h.publishedBefore ≤ s.published.length

theorem loop_next_keyed {nowMs : ℕ} {rest : List (Key × Payload)} (hrest : ∀ entry ∈ rest, entry.2.key = entry.1)
    (hl : Loop.next nowMs rest = some l) : l.entry.2.key = l.entry.1 ∧ ∀ entry ∈ l.rest, entry.2.key = entry.1 := by
  induction rest with
  | nil => cases hl
  | cons entry rest ih =>
    have htail : ∀ entry ∈ rest, entry.2.key = entry.1 := fun x hx => hrest x (List.mem_cons_of_mem _ hx)
    unfold Loop.next at hl
    split_ifs at hl with hdue
    · exact ih htail hl
    · obtain rfl := Option.some.inj hl
      exact ⟨hrest entry List.mem_cons_self, htail⟩

theorem keyed_set {queue : Queue} (hqueue : ∀ entry ∈ queue.entries, entry.2.key = entry.1) {payload : Payload} :
    ∀ entry ∈ (queue.set payload.key payload).entries, entry.2.key = entry.1 := by
  intro entry hentry
  rcases OrderedMap.mem_set.mp hentry with rfl | ⟨hold, -⟩
  · rfl
  · exact hqueue entry hold

/-! ## What a step does to the queue -/

/-- What a step does to the queue and to the discoveries, if it is careful. -/
inductive Change (queue : Queue) (published : List Payload) : Queue → List Payload → Prop
  | publish (payloads : List Payload) : Change queue published queue (published ++ payloads)
  | write {payload : Payload} (hlatest : Latest queue payload) :
      Change queue published (queue.set payload.key payload) published
  | finish {payload : Payload} (hlatest : Latest queue payload) :
      Change queue published (queue.delete payload.key) (published ++ [payload])

theorem Change.refl (queue : Queue) (published : List Payload) : Change queue published queue published := by
  have h : Change queue published queue (published ++ []) := .publish []
  rwa [List.append_nil] at h

theorem Served.change {queue queue' : Queue} {published published' : List Payload} {since : ℕ}
    (hserved : Served queue (published.drop since) key n) (hsince : since ≤ published.length)
    (hchange : Change queue published queue' published') : Served queue' (published'.drop since) key n := by
  cases hchange with
  | publish payloads =>
    rw [List.drop_append_of_le_length hsince]
    exact hserved.imp_left fun ⟨payload, hmem, hkey, hle⟩ => ⟨payload, List.mem_append_left _ hmem, hkey, hle⟩
  | @write payload hlatest =>
    refine hserved.imp_right fun ⟨entry, hentry, hle⟩ => ?_
    by_cases hkey : key = payload.key
    · subst hkey
      refine ⟨payload, ?_, hle.trans (hlatest entry hentry)⟩
      rw [OrderedMap.get_set, if_pos rfl]
    · refine ⟨entry, ?_, hle⟩
      rw [OrderedMap.get_set, if_neg hkey]
      exact hentry
  | @finish payload hlatest =>
    rw [List.drop_append_of_le_length hsince]
    rcases hserved with ⟨other, hmem, hkey, hle⟩ | ⟨entry, hentry, hle⟩
    · exact .inl ⟨other, List.mem_append_left _ hmem, hkey, hle⟩
    · by_cases hkey : key = payload.key
      · subst hkey
        exact .inl ⟨payload, List.mem_append_right _ (List.mem_singleton_self _), rfl, hle.trans (hlatest entry hentry)⟩
      · refine .inr ⟨entry, ?_, hle⟩
        rw [OrderedMap.get_delete, if_neg hkey]
        exact hentry

/-- What a careful answer to the handler of an event does: the handler is through only if its trigger is served. -/
structure Answered (s : State) (d : ℕ) (h : Handler) (s' : State) : Prop where
  change : Change s.scheduledEnrichmentQueue s.published s'.scheduledEnrichmentQueue s'.published
  loop : s'.loop = s.loop
  handlers : ∃ place, s'.handlers = s.handlers.set d { h with place := place } ∧
    (place = .finished → h.place ≠ .finished → h.publishedBefore ≤ s.published.length →
      Served s'.scheduledEnrichmentQueue (s'.published.drop h.publishedBefore) h.payload.key h.payload.timesTriggered)

theorem answered_move {place : Place} (hplace : place ≠ .finished) : Answered s d h (s.move d h place) where
  change := .refl _ _
  loop := rfl
  handlers := ⟨place, rfl, fun hover => absurd hover hplace⟩

theorem queueScheduledEnrichment_eq (cfg : Config) (nowMs : ℕ) (payload : Payload) (queue : Queue) :
    ∃ entry : Payload, entry.key = payload.key ∧ entry.timesTriggered = payload.timesTriggered ∧
      queueScheduledEnrichment cfg nowMs payload queue = queue.set entry.key entry := by
  unfold queueScheduledEnrichment
  dsimp only
  exact ⟨{ payload with
    retryCount := max payload.retryCount (((queue.get payload.key).map Payload.retryCount).getD 0)
    nextAttemptAt := nowMs + cfg.scheduledEnrichmentRetryIntervalMs }, rfl, rfl, rfl⟩

/-- What a careful answer does. -/
theorem answered {a : Except String Unit} (hover : h.place ≠ .finished)
    (hlogged : ∀ error, a = .error error → h.place ≠ .triggeredLog ∧ h.place ≠ .publishing .failedLog)
    (hqueued : a = .ok () → h.place = .publishing .failedLog → Latest s.scheduledEnrichmentQueue h.payload) :
    Answered s d h (s.answer cfg d h a) := by
  obtain ⟨payload, publishedBefore, place⟩ := h
  cases place with
  | finished => exact absurd rfl hover
  | triggeredLog =>
    cases a with
    | ok answer => exact answered_move (by nofun)
    | error error => exact absurd rfl (hlogged error rfl).1
  | publishing pos =>
    cases pos with
    | enrichment attempt =>
      cases a with
      | ok answer => exact answered_move (by nofun)
      | error error =>
        unfold State.answer publishScheduledDiscoveryWithEnrichment
        dsimp only
        split_ifs
        · exact answered_move (by nofun)
        · exact answered_move (by nofun)
    | backoff attempt => exact answered_move (by nofun)
    | publishDiscovery =>
      cases a with
      | ok answer =>
        refine ⟨.publish [payload], rfl, .finished, rfl, fun _ _ hle => .inl ⟨payload, ?_, rfl, le_rfl⟩⟩
        change payload ∈ (s.published ++ [payload]).drop publishedBefore
        rw [List.drop_append_of_le_length hle]
        exact List.mem_append_right _ (List.mem_singleton_self _)
      | error error => exact answered_move (by nofun)
    | failedLog =>
      cases a with
      | ok answer =>
        obtain ⟨entry, hkey, htimes, hset⟩ :=
          queueScheduledEnrichment_eq cfg s.nowMs { payload with retryCount := 1 } s.scheduledEnrichmentQueue
        have hlatest : Latest s.scheduledEnrichmentQueue entry := by
          intro other hother
          rw [hkey] at hother
          exact (hqueued rfl rfl other hother).trans htimes.ge
        have hqueue :
            (s.answer cfg d ⟨payload, publishedBefore, .publishing .failedLog⟩ (.ok ())).scheduledEnrichmentQueue =
            s.scheduledEnrichmentQueue.set entry.key entry := hset
        refine ⟨hqueue ▸ .write hlatest, rfl, .finished, rfl, fun _ _ _ => .inr ⟨entry, ?_, htimes.ge⟩⟩
        rw [hqueue, OrderedMap.get_set]
        exact if_pos hkey.symm
      | error error => exact absurd rfl (hlogged error rfl).2

theorem answerLoop_change {a : Except String Unit} (hs : Sound s) (hl : s.loop = some l)
    (hprocessed : a = .ok () → l.pos = .publishDiscovery ∨ l.pos = .failedLog →
      Latest s.scheduledEnrichmentQueue l.entry.2) :
    Change s.scheduledEnrichmentQueue s.published (s.answerLoop cfg l a).scheduledEnrichmentQueue
      (s.answerLoop cfg l a).published := by
  have hsame := Change.refl s.scheduledEnrichmentQueue s.published
  obtain ⟨hkey, -⟩ := hs.loop l hl
  obtain ⟨nowMs, ⟨key, payload⟩, pos, rest⟩ := l
  dsimp only at hkey hprocessed
  subst hkey
  cases pos with
  | enrichment attempt =>
    cases a with
    | ok answer => exact hsame
    | error error =>
      unfold State.answerLoop publishScheduledDiscoveryWithEnrichment
      dsimp only
      split_ifs
      · exact hsame
      · exact hsame
  | backoff attempt => exact hsame
  | publishDiscovery =>
    cases a with
    | ok answer => exact .finish (hprocessed rfl (.inl rfl))
    | error error => exact hsame
  | failedLog =>
    cases a with
    | ok answer =>
      have hlatest : Latest s.scheduledEnrichmentQueue (retryLater cfg s.nowMs payload) := hprocessed rfl (.inr rfl)
      exact .write hlatest
    | error error => exact hsame

/-! ## Whole runs -/

theorem Change.keyed {queue queue' : Queue} {published published' : List Payload}
    (hchange : Change queue published queue' published') (hqueue : ∀ entry ∈ queue.entries, entry.2.key = entry.1) :
    (∀ entry ∈ queue'.entries, entry.2.key = entry.1) ∧ published.length ≤ published'.length := by
  cases hchange with
  | publish payloads =>
    rw [List.length_append]
    exact ⟨hqueue, by omega⟩
  | write hlatest => exact ⟨keyed_set hqueue, le_rfl⟩
  | finish hlatest =>
    rw [List.length_append]
    exact ⟨fun entry hentry => hqueue entry (List.mem_filter.mp hentry).1, by omega⟩

theorem answerLoop_loop {l' : Loop} {a : Except String Unit} (hl' : (s.answerLoop cfg l a).loop = some l') :
    (l'.entry = l.entry ∧ l'.rest = l.rest) ∨ Loop.next l.nowMs l.rest = some l' := by
  unfold State.answerLoop at hl'
  split at hl'
  · obtain rfl := Option.some.inj hl'
    exact .inl ⟨rfl, rfl⟩
  · exact .inr hl'
  · exact .inr hl'
  · cases hl'

/-- What is preserved along a careful run. -/
structure Kept (s : State) : Prop where
  sound : Sound s
  served : NoneDropped s

/-- A careful step keeps what is preserved, and loses no entry. -/
theorem Kept.step (hs : Kept s) (hstep : Step cfg s e s') (hcareful : Careful ⟨s, e, s'⟩) :
    Kept s' ∧ KeepsEntries ⟨s, e, s'⟩ := by
  obtain ⟨hlogged, hqueued, hprocessed⟩ := hcareful
  -- Whatever happens to the queue and to the discoveries, what is served stays so.
  have hkeeps : Change s.scheduledEnrichmentQueue s.published s'.scheduledEnrichmentQueue s'.published →
      KeepsEntries ⟨s, e, s'⟩ := by
    intro hchange key entry hentry
    have hserved : Served s.scheduledEnrichmentQueue (s.published.drop 0) key entry.timesTriggered :=
      .inr ⟨entry, hentry, le_rfl⟩
    exact hserved.change (Nat.zero_le _) hchange
  have hsame := Change.refl s.scheduledEnrichmentQueue s.published
  cases hstep with
  | triggered =>
    refine ⟨⟨⟨hs.sound.queue, hs.sound.loop, fun h hh => ?_⟩, fun h hh hover => ?_⟩, hkeeps hsame⟩
    · rcases List.mem_append.mp hh with hh | hh
      · exact hs.sound.handlers h hh
      · rw [List.mem_singleton.mp hh]
        exact le_rfl
    · rcases List.mem_append.mp hh with hh | hh
      · exact hs.served h hh hover
      · rw [List.mem_singleton.mp hh] at hover
        cases hover
  | @answer d h a hh hplace =>
    have hmem := List.mem_of_getElem? hh
    have hanswered : Answered s d h (s.answer cfg d h a) := by
      refine answered hplace (fun error heq => ?_) fun heq hpos => ?_
      · exact hlogged d h error (by rw [heq]) hh
      · exact hqueued d h (by rw [heq]) hh hpos
    obtain ⟨hchange, hloop, place, hhandlers, hserved⟩ := hanswered
    obtain ⟨hkeyed, hlength⟩ := hchange.keyed hs.sound.queue
    refine ⟨⟨⟨hkeyed, by rw [hloop]; exact hs.sound.loop, fun x hx => ?_⟩, fun x hx hover => ?_⟩, hkeeps hchange⟩
    · rw [hhandlers] at hx
      rcases List.mem_or_eq_of_mem_set hx with hx | rfl
      · exact (hs.sound.handlers x hx).trans hlength
      · exact (hs.sound.handlers h hmem).trans hlength
    · rw [hhandlers] at hx
      rcases List.mem_or_eq_of_mem_set hx with hx | rfl
      · exact (hs.served x hx hover).change (hs.sound.handlers x hx) hchange
      · exact hserved hover hplace (hs.sound.handlers h hmem)
  | process =>
    refine ⟨⟨⟨?_, ?_, ?_⟩, ?_⟩, hkeeps ?_⟩
    all_goals unfold State.process
    all_goals split_ifs
    · exact hs.sound.queue
    · exact hs.sound.queue
    · exact hs.sound.loop
    · exact fun l hl => loop_next_keyed hs.sound.queue hl
    · exact hs.sound.handlers
    · exact hs.sound.handlers
    · exact hs.served
    · exact hs.served
    · exact hsame
    · exact hsame
  | @answerLoop l a hl =>
    have hchange : Change s.scheduledEnrichmentQueue s.published
        (s.answerLoop cfg l a).scheduledEnrichmentQueue (s.answerLoop cfg l a).published := by
      refine answerLoop_change hs.sound hl fun heq hpos => ?_
      exact hprocessed l (by rw [heq]) hl hpos
    obtain ⟨hkeyed, hlength⟩ := hchange.keyed hs.sound.queue
    obtain ⟨hkey, hrest⟩ := hs.sound.loop l hl
    have hhandlers : (s.answerLoop cfg l a).handlers = s.handlers := by
      unfold State.answerLoop
      split <;> rfl
    refine ⟨⟨⟨hkeyed, fun l' hl' => ?_, fun x hx => ?_⟩, fun x hx hover => ?_⟩, hkeeps hchange⟩
    · rcases answerLoop_loop hl' with ⟨hentry, hsame⟩ | hnext
      · rw [hentry, hsame]
        exact ⟨hkey, hrest⟩
      · exact loop_next_keyed hrest hnext
    · rw [hhandlers] at hx
      exact (hs.sound.handlers x hx).trans hlength
    · rw [hhandlers] at hx
      exact (hs.served x hx hover).change (hs.sound.handlers x hx) hchange
  | tick => exact ⟨⟨⟨hs.sound.queue, hs.sound.loop, hs.sound.handlers⟩, hs.served⟩, hkeeps hsame⟩

/-- Where the messages of the handlers do not fail, and the entry of a later trigger is not touched, no trigger is
dropped, and no entry of the queue is lost before its trigger is published. -/
theorem none_dropped (hr : (system cfg).Run ts s) (hcareful : ∀ tr ∈ ts, Careful tr) :
    NoneDropped s ∧ ∀ tr ∈ ts, KeepsEntries tr := by
  have hkept : Kept s ∧ ∀ tr ∈ ts, KeepsEntries tr := by
    induction hr with
    | init hinit =>
      obtain ⟨hhandlers, hqueue, hloop, hpublished⟩ := hinit
      refine ⟨⟨⟨?_, ?_, ?_⟩, ?_⟩, by simp⟩
      · simp [hqueue, OrderedMap.empty]
      · simp [hloop]
      · simp [hhandlers]
      · simp [NoneDropped, hhandlers]
    | @step ts s s' e hr hstep ih =>
      obtain ⟨hs, hkeeps⟩ := ih fun tr htr => hcareful tr (List.mem_append_left _ htr)
      have hlast := hs.step hstep (hcareful _ (List.mem_append_right _ (List.mem_singleton_self _)))
      refine ⟨hlast.1, fun tr htr => ?_⟩
      rcases List.mem_append.mp htr with htr | htr
      · exact hkeeps tr htr
      · rw [List.mem_singleton.mp htr]
        exact hlast.2
  exact ⟨hkept.1.served, hkept.2⟩

/-! ## Samples -/

/-- What comes of an event, if it is possible. -/
def State.play (cfg : Config) (s : State) : Event → Option State
  | .triggered contractAddress scheduleAddress triggeredAt timesTriggered =>
    some (s.trigger contractAddress scheduleAddress triggeredAt timesTriggered)
  | .answer d a =>
    match s.handlers[d]? with
    | none => none
    | some h => if h.place ≠ .finished then some (s.answer cfg d h a) else none
  | .process => some s.process
  | .answerLoop a =>
    match s.loop with
    | none => none
    | some l => some (s.answerLoop cfg l a)
  | .tick => some s

theorem plays : (system cfg).Plays (State.play cfg) fun _ e e' => e' = e := by
  intro s e s' h
  refine ⟨e, rfl, ?_⟩
  cases e with
  | triggered =>
    obtain rfl := Option.some.inj h
    exact .triggered ..
  | answer d a =>
    unfold State.play at h
    dsimp only at h
    split at h
    · cases h
    · rename_i handler hh
      split_ifs at h with hplace
      obtain rfl := Option.some.inj h
      exact .answer a hh hplace
  | process =>
    obtain rfl := Option.some.inj h
    exact .process s
  | answerLoop a =>
    unfold State.play at h
    dsimp only at h
    split at h
    · cases h
    · rename_i l hl
      obtain rfl := Option.some.inj h
      exact .answerLoop a hl
  | tick =>
    obtain rfl := Option.some.inj h
    exact .tick le_rfl

/-- The event is careful. -/
def State.careful (s : State) : Event → Bool
  | .answer d (.error _) => (s.handlers[d]?).all fun h => h.place ≠ .triggeredLog ∧ h.place ≠ .publishing .failedLog
  | .answer d (.ok ()) => (s.handlers[d]?).all fun h =>
    h.place = .publishing .failedLog → Latest s.scheduledEnrichmentQueue h.payload
  | .answerLoop (.ok ()) => s.loop.all fun l =>
    l.pos = .publishDiscovery ∨ l.pos = .failedLog → Latest s.scheduledEnrichmentQueue l.entry.2
  | _ => true

theorem careful_of_play {tr : Transition State Event} (hcareful : tr.src.careful tr.label = true) : Careful tr := by
  refine ⟨fun d h error heq hh => ?_, fun d h heq hh hplace => ?_, fun l heq hl hpos => ?_⟩
  · rw [heq, State.careful, hh] at hcareful
    exact of_decide_eq_true hcareful
  · rw [heq, State.careful, hh] at hcareful
    exact of_decide_eq_true hcareful hplace
  · rw [heq, State.careful, hl] at hcareful
    exact of_decide_eq_true hcareful hpos

/-- The enrichment is attempted once. -/
def sampleConfig : Config := ⟨1, 0⟩

/-- Nothing has been triggered. -/
def sampleState : State := ⟨[], OrderedMap.empty, none, [], 1000⟩

/-- The first trigger of a contract, whose enrichment fails. -/
def queueMoves : List Event := [
  .triggered 2 3 900 1,
  .answer 0 (.ok ()),
  .answer 0 (.error "classifier is down"),
  .answer 0 (.ok ())]

/-- The second trigger, whose enrichment fails. -/
def queueAgainMoves : List Event := [
  .triggered 2 3 950 2,
  .answer 1 (.ok ()),
  .answer 1 (.error "classifier is down"),
  .answer 1 (.ok ())]

/-- The timer of the queue. -/
def processMoves : List Event := [.process]

/-- The entry that the loop is at is published. -/
def publishMoves : List Event := [.answerLoop (.ok ()), .answerLoop (.ok ())]

/-- Both triggers are queued, and the later one is published for both. -/
theorem none_dropped_sample : ∃ ts s, (system sampleConfig).Run ts s ∧
    s.published.map Payload.timesTriggered = [2] ∧ NoneDropped s ∧ ∀ tr ∈ ts, KeepsEntries tr := by
  have hplay : ((queueMoves ++ queueAgainMoves ++ processMoves ++ publishMoves).foldlM
      (fun s e => if s.careful e = true then s.play sampleConfig e else none) sampleState).map
      (fun s => s.published.map Payload.timesTriggered) = some [2] := by decide +kernel
  obtain ⟨ts, s, hr, hpublished, hfrom, -⟩ := plays.guarded.exists_run ⟨rfl, rfl, rfl, rfl⟩ hplay
  refine ⟨ts, s, hr, hpublished, none_dropped hr fun tr htr => careful_of_play ?_⟩
  obtain ⟨e, -, hcomes⟩ := hfrom tr htr
  rw [hcomes.means.1]
  exact hcomes.means.2

/-- The second trigger is queued while the loop publishes the first one, and its entry is deleted with the other. -/
theorem later_trigger_dropped : ¬ ∀ (cfg : Config) (ts : Trace) (s : State), (system cfg).Run ts s →
    NoneDropped s := by
  intro hall
  have hplay : ((queueMoves ++ processMoves ++ queueAgainMoves ++ publishMoves).foldlM (State.play sampleConfig)
      sampleState).map (fun s => (s.handlers, s.scheduledEnrichmentQueue.entries, s.published)) =
      some ([⟨⟨2, 3, 900, 1, 0, 0⟩, 0, .finished⟩, ⟨⟨2, 3, 950, 2, 0, 0⟩, 0, .finished⟩], [],
        [⟨2, 3, 900, 1, 1, 1000⟩]) := by
    decide +kernel
  obtain ⟨ts, s, hr, hread, -, -⟩ := plays.exists_run ⟨rfl, rfl, rfl, rfl⟩ hplay
  obtain ⟨hhandlers, hread⟩ := Prod.mk.inj hread
  obtain ⟨hqueue, hpublished⟩ := Prod.mk.inj hread
  have hserved := hall _ _ _ hr ⟨⟨2, 3, 950, 2, 0, 0⟩, 0, .finished⟩ (by simp [hhandlers]) rfl
  rw [hpublished] at hserved
  rcases hserved with ⟨payload, hmem, -, hle⟩ | ⟨entry, hentry, -⟩
  · obtain rfl := List.mem_singleton.mp hmem
    exact absurd hle (by decide)
  · have hmem := OrderedMap.get_eq_some_iff.mp hentry
    rw [hqueue] at hmem
    cases hmem

end

end AuditGuard.Enrichment
