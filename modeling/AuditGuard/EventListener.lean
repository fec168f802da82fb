import AuditGuard.Library.Transition
import Mathlib.Data.List.Infix
import Mathlib.Data.List.Pairwise

/-!
# The event listener's cursor

The listener asks a mirror node for the logs of a contract that are younger than its cursor, gives every log that it
can decode to a handler, and moves the cursor to the timestamp of that log (`fetchContractLogs`, `decodeLog` and
`_pollAllContracts` of `packages/inft/src/event-listener.js`). Every contract, and every vault, has logs and a cursor
of its own, so one of them is modelled.

The mirror node adds logs while the listener works. A query may fail, which is caught and gives no logs; a handler
may throw, which is caught too.

## What the listener delivers

A log is lost when its handler throws, when it has the timestamp of a log that was the last one handled before it came
or at the end of the page before, and no log comes through after a page of which none can be decoded.
-/

namespace AuditGuard.EventListener

section

variable {β : Type*}

/-- A log of the contract. -/
structure Log (β : Type*) where
  /-- Its place among the logs of the contract. -/
  index : ℕ
  /-- The consensus timestamp. -/
  timestamp : ℕ
  /-- `decodeLog(iface, log)`. -/
  decoded : Option β

/-- Whether the log has an event that the listener knows. -/
def Log.decodable (l : Log β) : Bool := l.decoded.isSome

/-- The logs of a contract and what the listener has done with them. -/
structure Feed (β : Type*) where
  /-- The logs that the mirror node has. -/
  logs : List (Log β)
  cursor : Option ℕ
  /-- The logs that were given to handlers, and whether the handler returned. -/
  dispatched : List (Log β × Bool)

/-- `timestamp=gt:cursor`; without a cursor all logs. -/
def beyond (cursor : Option ℕ) (l : Log β) : Bool := cursor.all fun c => c < l.timestamp

/-- `fetchContractLogs(contract, cursor)`: the first page. -/
def fetchContractLogs (logs : List (Log β)) (cursor : Option ℕ) : List (Log β) := (logs.filter (beyond cursor)).take 50

/-- What follows the first page. -/
def afterPage (logs : List (Log β)) (cursor : Option ℕ) : List (Log β) := (logs.filter (beyond cursor)).drop 50

namespace Feed

/-- Gives a log to its handler, unless it cannot be decoded, and moves the cursor. -/
def handle (returns : ℕ → Bool) (f : Feed β) (l : Log β) : Feed β :=
  match l.decoded with
  | none => f
  | some _ => { f with dispatched := f.dispatched ++ [(l, returns l.index)], cursor := some l.timestamp }

/-- One poll of the contract whose query succeeds. -/
def poll (returns : ℕ → Bool) (f : Feed β) : Feed β := (fetchContractLogs f.logs f.cursor).foldl (handle returns) f

end Feed

/-- What can happen next. -/
inductive Label (β : Type*)
  /-- The mirror node has a new log. -/
  | append (timestamp : ℕ) (decoded : Option β)
  /-- The listener polls: the query fails, or it succeeds and handlers return or throw. -/
  | poll (returns : Option (ℕ → Bool))

/-- A poll whose query succeeds. -/
def Label.succeeds : Label β → Bool
  | .append _ _ | .poll none => false
  | .poll (some _) => true

/-- One step. Consensus timestamps do not decrease. -/
def step (f : Feed β) : Label β → Option (Feed β)
  | .append timestamp decoded =>
    if ∀ l ∈ f.logs, l.timestamp ≤ timestamp then
      some { f with logs := f.logs ++ [⟨f.logs.length, timestamp, decoded⟩] }
    else none
  | .poll none => some f
  | .poll (some returns) => some (f.poll returns)

/-- A mirror node and a listener that was just started. -/
def system (β : Type*) : TransitionSystem (Feed β) (Label β) where
  init f := f = ⟨[], none, []⟩
  step f l f' := step f l = some f'

/-! ## Handling a page -/

variable {f : Feed β} {returns : ℕ → Bool} {page : List (Log β)}

theorem foldl_handle (returns : ℕ → Bool) (page : List (Log β)) (f : Feed β) :
    page.foldl (Feed.handle returns) f =
      { f with
        dispatched := f.dispatched ++ (page.filter Log.decodable).map fun l => (l, returns l.index)
        cursor := (((page.filter Log.decodable).getLast?).map Log.timestamp).or f.cursor } := by
  induction page generalizing f with
  | nil => simp
  | cons l page ih =>
    rw [List.foldl_cons, ih]
    unfold Feed.handle
    split
    · next hnone =>
      rw [List.filter_cons_of_neg (by simp [Log.decodable, hnone])]
    · next e hsome =>
      rw [List.filter_cons_of_pos (by simp [Log.decodable, hsome]), List.getLast?_cons, List.map_cons]
      cases (page.filter Log.decodable).getLast? with
      | none => simp
      | some last => simp

theorem of_step_append {f' : Feed β} {timestamp : ℕ} {decoded : Option β}
    (h : step f (.append timestamp decoded) = some f') :
    (∀ l ∈ f.logs, l.timestamp ≤ timestamp) ∧
      f' = { f with logs := f.logs ++ [⟨f.logs.length, timestamp, decoded⟩] } := by
  change (if ∀ l ∈ f.logs, l.timestamp ≤ timestamp then some _ else none) = some f' at h
  split_ifs at h with hlast
  exact ⟨hlast, (Option.some.inj h).symm⟩

theorem poll_logs : (f.poll returns).logs = f.logs := by
  unfold Feed.poll
  rw [foldl_handle]

end

section

variable {β : Type*} {f f' : Feed β} {l : Label β}

/-- What the listener is for. -/
structure Delivers (ts : List (Transition (Feed β) (Label β))) (f : Feed β) : Prop where
  /-- The cursor is past no log that was not delivered. -/
  passed : ∀ l ∈ f.logs, l.decodable = true → beyond f.cursor l = false → (l, true) ∈ f.dispatched
  /-- Logs are handled in their order. -/
  ordered : (f.dispatched.map fun e => e.1.index).Pairwise (· < ·)
  /-- After as many successful polls as there were logs to deliver, they are all delivered. -/
  eventually : ∀ ts₁ tr ts₂, ts = ts₁ ++ tr :: ts₂ →
    (tr.dst.logs.filter fun l => l.decodable && beyond tr.dst.cursor l).length ≤
    ts₂.countP (fun tr => tr.label.succeeds) →
    ∀ l ∈ tr.dst.logs, l.decodable = true → (l, true) ∈ f.dispatched

/-- No log gets lost in the step. -/
def Careful (f : Feed β) : Label β → Prop
  -- a new log does not have the timestamp that the cursor is at
  | .append timestamp decoded => decoded.isSome → f.cursor ≠ some timestamp
  | .poll none => True
  -- all handlers return, no log after the page has the timestamp of one in it, and a full page has a log to handle
  | .poll (some returns) =>
    (∀ l ∈ fetchContractLogs f.logs f.cursor, l.decodable = true → returns l.index = true) ∧
      (∀ l ∈ fetchContractLogs f.logs f.cursor, ∀ l' ∈ afterPage f.logs f.cursor,
        l.decodable = true → l'.decodable = true → l'.timestamp ≠ l.timestamp) ∧
      ((fetchContractLogs f.logs f.cursor).length = 50 →
        ∃ l ∈ fetchContractLogs f.logs f.cursor, l.decodable = true)

/-! ## Logs in order -/

/-- Timestamps do not decrease. -/
def Ascending (logs : List (Log β)) : Prop := logs.Pairwise fun l l' => l.timestamp ≤ l'.timestamp

theorem Ascending.split {logs : List (Log β)} (h : Ascending logs) (cursor : Option ℕ) :
    logs.filter (fun l => !beyond cursor l) ++ logs.filter (beyond cursor) = logs := by
  induction logs with
  | nil => rfl
  | cons l logs ih =>
    obtain ⟨hl, hlogs⟩ := List.pairwise_cons.mp h
    by_cases hbeyond : beyond cursor l = true
    · -- all that follow are beyond the cursor as well
      have hall : ∀ l' ∈ l :: logs, beyond cursor l' = true := by
        intro l' hl'
        rcases List.mem_cons.mp hl' with rfl | hl'
        · exact hbeyond
        · have hle := hl l' hl'
          cases cursor with
          | none => rfl
          | some c =>
            simp only [beyond, Option.all_some, decide_eq_true_eq] at hbeyond ⊢
            omega
      rw [List.filter_eq_self.mpr hall, List.filter_eq_nil_iff.mpr fun l' hl' => by simp [hall l' hl'], List.nil_append]
    · rw [List.filter_cons_of_pos (by simpa using hbeyond), List.filter_cons_of_neg hbeyond, List.cons_append, ih hlogs]

theorem Ascending.pages {logs : List (Log β)} (h : Ascending logs) (cursor : Option ℕ) :
    logs.filter (fun l => !beyond cursor l) ++ (fetchContractLogs logs cursor ++ afterPage logs cursor) = logs := by
  unfold fetchContractLogs afterPage
  rw [List.take_append_drop, h.split]

/-- What holds between two steps. -/
structure Settled (f : Feed β) : Prop where
  ascending : Ascending f.logs
  /-- A log has its place as its index. -/
  numbered : f.logs.map Log.index = List.range f.logs.length
  /-- The cursor is not ahead of the logs. -/
  within : ∀ c, f.cursor = some c → ∃ l ∈ f.logs, c ≤ l.timestamp
  /-- The logs that can be decoded are delivered up to the cursor. -/
  delivered : f.dispatched =
    ((f.logs.filter fun l => !beyond f.cursor l).filter Log.decodable).map fun l => (l, true)

theorem Settled.pairwise_index (h : Settled f) : f.logs.Pairwise fun l l' => l.index < l'.index := by
  refine List.pairwise_map.mp ?_
  rw [h.numbered]
  exact List.pairwise_lt_range

theorem Settled.index_lt (h : Settled f) {l : Log β} (hl : l ∈ f.logs) : l.index < f.logs.length := by
  have hmem := List.mem_map_of_mem (f := Log.index) hl
  rw [h.numbered] at hmem
  exact List.mem_range.mp hmem

/-! ## Steps -/

theorem Settled.append (h : Settled f) {timestamp : ℕ} {decoded : Option β}
    (hlast : ∀ l ∈ f.logs, l.timestamp ≤ timestamp) (hcareful : decoded.isSome → f.cursor ≠ some timestamp) :
    Settled { f with logs := f.logs ++ [⟨f.logs.length, timestamp, decoded⟩] } where
  ascending := List.pairwise_append.mpr
    ⟨h.ascending, List.pairwise_singleton _ _, fun l hl l' hl' => by
      rw [List.mem_singleton.mp hl']
      exact hlast l hl⟩
  numbered := by
    rw [List.map_append, h.numbered, List.length_append, List.length_singleton, List.range_succ]
    rfl
  within c hc := by
    obtain ⟨l, hl, hle⟩ := h.within c hc
    exact ⟨l, List.mem_append_left _ hl, hle⟩
  delivered := by
    dsimp only
    rw [h.delivered, List.filter_append, List.filter_append]
    have hnone : ([⟨f.logs.length, timestamp, decoded⟩].filter fun l : Log β => !beyond f.cursor l).filter
        Log.decodable = [] := by
      rw [List.filter_filter, List.filter_eq_nil_iff]
      intro l hl
      rw [List.mem_singleton.mp hl]
      simp only [Log.decodable, Bool.and_eq_true, Bool.not_eq_true', not_and, Bool.not_eq_false]
      intro hdecoded
      cases hc : f.cursor with
      | none => rfl
      | some c =>
        obtain ⟨l, hl, hle⟩ := h.within c hc
        have hle' := hlast l hl
        have hne := hcareful hdecoded
        rw [hc] at hne
        have hne : c ≠ timestamp := fun heq => hne (by rw [heq])
        simp only [beyond, Option.all_some, decide_eq_true_eq]
        omega
    rw [hnone, List.append_nil]

theorem exists_last (page : List (Log β)) :
    (∀ l ∈ page, l.decodable = false) ∨ ∃ last ∈ page, last.decodable = true ∧
      (page.filter Log.decodable).getLast? = some last := by
  cases hlast : (page.filter Log.decodable).getLast? with
  | none =>
    have hnil := List.getLast?_eq_none_iff.mp hlast
    exact .inl fun l hl => Bool.eq_false_iff.mpr (List.filter_eq_nil_iff.mp hnil l hl)
  | some last =>
    obtain ⟨hmem, hdecodable⟩ := List.mem_filter.mp (List.mem_of_getLast? hlast)
    exact .inr ⟨last, hmem, hdecodable, rfl⟩

theorem le_last {page : List (Log β)} (h : Ascending page) {last l : Log β}
    (hlast : (page.filter Log.decodable).getLast? = some last) (hl : l ∈ page) (hdecodable : l.decodable = true) :
    l.timestamp ≤ last.timestamp := by
  obtain ⟨first, hfirst⟩ := List.getLast?_eq_some_iff.mp hlast
  have hmem : l ∈ first ++ [last] := hfirst ▸ List.mem_filter.mpr ⟨hl, hdecodable⟩
  have hsorted : Ascending (first ++ [last]) := hfirst ▸ h.sublist List.filter_sublist
  rcases List.mem_append.mp hmem with hmem | hmem
  · exact (List.pairwise_append.mp hsorted).2.2 l hmem last List.mem_cons_self
  · rw [List.mem_singleton.mp hmem]

/-- A careful poll delivers the page. -/
theorem Settled.poll (h : Settled f) {returns : ℕ → Bool} (hcareful : Careful f (.poll (some returns))) :
    Settled (f.poll returns) := by
  obtain ⟨hreturns, htimestamps, -⟩ := hcareful
  have hlogs := h.ascending.pages f.cursor
  set passed := f.logs.filter fun l => !beyond f.cursor l with hpassed
  set page := fetchContractLogs f.logs f.cursor with hpage
  set rest := afterPage f.logs f.cursor with hrest
  have hsub : page.Sublist f.logs := (List.take_sublist _ _).trans List.filter_sublist
  have hbeyond : ∀ l ∈ page, beyond f.cursor l = true := fun l hl =>
    (List.mem_filter.mp (List.mem_of_mem_take hl)).2
  have hascending : Ascending (passed ++ (page ++ rest)) := hlogs.symm ▸ h.ascending
  have hascending' : Ascending (page ++ rest) := (List.pairwise_append.mp hascending).2.1
  have hsorted : Ascending page := (List.pairwise_append.mp hascending').1
  have hmap : (page.filter Log.decodable).map (fun l => (l, returns l.index)) =
      (page.filter Log.decodable).map fun l => (l, true) := by
    refine List.map_congr_left fun l hl => ?_
    rw [hreturns l (List.mem_filter.mp hl).1 (List.mem_filter.mp hl).2]
  unfold Feed.poll
  rw [foldl_handle, ← hpage, hmap]
  rcases exists_last page with hnone | ⟨last, hlastmem, hdecodable, hlast⟩
  case inl =>
    have hnil : page.filter Log.decodable = [] := List.filter_eq_nil_iff.mpr fun l hl => by simp [hnone l hl]
    rw [hnil]
    exact ⟨h.ascending, h.numbered, h.within, (List.append_nil _).trans h.delivered⟩
  case inr =>
    rw [hlast]
    refine ⟨h.ascending, h.numbered, fun c hc => ?_, ?_⟩
    · obtain rfl : last.timestamp = c := Option.some.inj hc
      exact ⟨last, hsub.subset hlastmem, Nat.le_refl _⟩
    dsimp only [Option.map_some, Option.some_or]
    rw [h.delivered, ← List.map_append, ← hpassed]
    refine congrArg (List.map _) ?_
    -- up to the new cursor there are the logs up to the old one and those of the page
    have hfirst : (passed.filter fun l => !beyond (some last.timestamp) l) = passed := by
      refine List.filter_eq_self.mpr fun l hl => ?_
      have hle := (List.pairwise_append.mp hascending).2.2 l hl last (List.mem_append_left _ hlastmem)
      simp only [beyond, Option.all_some, Bool.not_eq_true', decide_eq_false_iff_not]
      omega
    have hsecond : (page.filter fun l => !beyond (some last.timestamp) l).filter Log.decodable =
        page.filter Log.decodable := by
      rw [List.filter_filter]
      refine List.filter_congr fun l hl => ?_
      cases hl' : l.decodable with
      | false => rfl
      | true =>
        have hle := le_last hsorted hlast hl hl'
        simp only [beyond, Option.all_some, Bool.true_and, Bool.not_eq_true', decide_eq_false_iff_not]
        omega
    have hthird : (rest.filter fun l => !beyond (some last.timestamp) l).filter Log.decodable = [] := by
      rw [List.filter_filter, List.filter_eq_nil_iff]
      intro l hl
      simp only [beyond, Option.all_some, Bool.and_eq_true, Bool.not_eq_true', decide_eq_false_iff_not, not_and,
        Nat.not_lt]
      intro hl' hle
      have hge := (List.pairwise_append.mp hascending').2.2 last hlastmem l hl
      exact htimestamps last hlastmem l hl hdecodable hl' (by omega)
    conv_rhs => rw [← hlogs]
    rw [List.filter_append, List.filter_append, hfirst, List.filter_append, List.filter_append, hsecond, hthird,
      List.append_nil]

theorem Settled.step (h : Settled f) (hcareful : Careful f l) (hstep : EventListener.step f l = some f') :
    Settled f' := by
  cases l with
  | append timestamp decoded =>
    obtain ⟨hlast, rfl⟩ := of_step_append hstep
    exact h.append hlast hcareful
  | poll returns =>
    cases returns with
    | none =>
      obtain rfl := Option.some.inj hstep
      exact h
    | some returns =>
      obtain rfl := Option.some.inj hstep
      exact h.poll hcareful

/-! ## Progress -/

/-- How many of the first `n` logs are to be delivered. -/
def pending (n : ℕ) (f : Feed β) : ℕ :=
  (f.logs.filter fun l => decide (l.index < n) && (l.decodable && beyond f.cursor l)).length

theorem pending_le {n : ℕ} {cursor : Option ℕ} (h : ∀ l ∈ f.logs, beyond cursor l = true → beyond f.cursor l = true)
    (hless : ∀ x ∈ f.logs, x.index < n → x.decodable = true → beyond f.cursor x = true →
      ∃ y ∈ f.logs, y.index < n ∧ y.decodable = true ∧ beyond f.cursor y = true ∧ beyond cursor y = false) :
    (f.logs.filter fun l => decide (l.index < n) && (l.decodable && beyond cursor l)).length ≤ pending n f - 1 := by
  unfold pending
  set waiting := f.logs.filter fun l => decide (l.index < n) && (l.decodable && beyond f.cursor l) with hwaiting
  have hfilter : (f.logs.filter fun l => decide (l.index < n) && (l.decodable && beyond cursor l)) =
      waiting.filter (beyond cursor) := by
    rw [hwaiting, List.filter_filter]
    refine List.filter_congr fun l hl => ?_
    cases hbeyond : beyond cursor l with
    | false => simp
    | true => rw [h l hl hbeyond, Bool.true_and]
  have hmem : ∀ l, l ∈ waiting ↔ l ∈ f.logs ∧ l.index < n ∧ l.decodable = true ∧ beyond f.cursor l = true := by
    intro l
    rw [hwaiting, List.mem_filter]
    simp only [Bool.and_eq_true, decide_eq_true_eq]
  rw [hfilter]
  rcases List.eq_nil_or_concat waiting with hnil | ⟨some', x, hx⟩
  · rw [hnil]
    exact Nat.le_refl _
  · obtain ⟨hlogs, hindex, hdecodable, hbeyond⟩ := (hmem x).mp (by rw [hx]; simp)
    obtain ⟨y, hy, hindex', hdecodable', hbeyond', hpassed⟩ := hless x hlogs hindex hdecodable hbeyond
    have hlt := (List.length_filter_lt_length_iff_exists (p := beyond cursor)).mpr
      ⟨y, (hmem y).mpr ⟨hy, hindex', hdecodable', hbeyond'⟩, by simp [hpassed]⟩
    omega

/-- A careful poll delivers a log that is to be delivered, if there is one. -/
theorem Settled.pending_poll (h : Settled f) {returns : ℕ → Bool} (hcareful : Careful f (.poll (some returns))) (n : ℕ) :
    pending n (f.poll returns) ≤ pending n f - 1 := by
  obtain ⟨-, -, hfull⟩ := hcareful
  have hlogs := h.ascending.pages f.cursor
  set page := fetchContractLogs f.logs f.cursor with hpage
  set rest := afterPage f.logs f.cursor with hrest
  have hsplit : ∀ x ∈ f.logs, beyond f.cursor x = true → x ∈ page ∨ x ∈ rest := by
    intro x hx hbeyond
    have hmem : x ∈ page ++ rest := by
      rw [hpage, hrest]
      unfold fetchContractLogs afterPage
      rw [List.take_append_drop]
      exact List.mem_filter.mpr ⟨hx, hbeyond⟩
    exact List.mem_append.mp hmem
  have hascending := h.ascending
  have hindex := h.pairwise_index
  rw [← hlogs] at hascending hindex
  have hascending' : Ascending (page ++ rest) := (List.pairwise_append.mp hascending).2.1
  have hindex' := (List.pairwise_append.mp hindex).2.1
  have hmem : ∀ l ∈ page, l ∈ f.logs ∧ beyond f.cursor l = true := fun l hl =>
    List.mem_filter.mp (List.mem_of_mem_take hl)
  have hpoll : f.poll returns = { f with
      dispatched := f.dispatched ++ (page.filter Log.decodable).map fun l => (l, returns l.index)
      cursor := (((page.filter Log.decodable).getLast?).map Log.timestamp).or f.cursor } := foldl_handle returns page f
  rw [hpoll]
  rcases exists_last page with hnone | ⟨last, hlastmem, hdecodable, hlast⟩
  case inl =>
    have hnil : page.filter Log.decodable = [] := List.filter_eq_nil_iff.mpr fun l hl => by simp [hnone l hl]
    rw [hnil]
    refine pending_le (fun l _ hbeyond => hbeyond) fun x hx _ hdecodable hbeyond => ?_
    -- the page is not full, so nothing follows it
    have hrestnil : rest = [] := by
      refine List.drop_eq_nil_iff.mpr ?_
      by_contra hlt
      have hlength : page.length = 50 := by
        rw [hpage]
        unfold fetchContractLogs
        rw [List.length_take]
        omega
      obtain ⟨l, hl, hdecodable⟩ := hfull hlength
      rw [hnone l hl] at hdecodable
      cases hdecodable
    rcases hsplit x hx hbeyond with hx | hx
    · rw [hnone x hx] at hdecodable
      cases hdecodable
    · rw [hrestnil] at hx
      cases hx
  case inr =>
    rw [hlast]
    obtain ⟨hlastlogs, hlastbeyond⟩ := hmem last hlastmem
    have hpassed : ∀ l : Log β, l.timestamp ≤ last.timestamp → beyond (some last.timestamp) l = false := by
      intro l hle
      simp only [beyond, Option.all_some, decide_eq_false_iff_not]
      omega
    change (f.logs.filter fun l => decide (l.index < n) && (l.decodable && beyond (some last.timestamp) l)).length ≤ _
    refine pending_le (fun l _ hbeyond => ?_) fun x hx hlt hdecodable' hbeyond => ?_
    · cases hc : f.cursor with
      | none => rfl
      | some c =>
        rw [hc] at hlastbeyond
        simp only [beyond, Option.all_some, decide_eq_true_eq] at hbeyond hlastbeyond ⊢
        omega
    rcases hsplit x hx hbeyond with hxpage | hxrest
    · exact ⟨x, hx, hlt, hdecodable', hbeyond,
        hpassed x (le_last (List.pairwise_append.mp hascending').1 hlast hxpage hdecodable')⟩
    · -- the last log of the page comes before this one
      have hless := (List.pairwise_append.mp hindex').2.2 last hlastmem x hxrest
      exact ⟨last, hlastlogs, by omega, hdecodable, hlastbeyond, hpassed last (Nat.le_refl _)⟩

theorem pending_append {n timestamp : ℕ} {decoded : Option β} (hn : n ≤ f.logs.length) :
    pending n { f with logs := f.logs ++ [⟨f.logs.length, timestamp, decoded⟩] } = pending n f := by
  unfold pending
  dsimp only
  rw [List.filter_append, List.filter_cons_of_neg, List.filter_nil, List.append_nil]
  have hlt : ¬ f.logs.length < n := by omega
  simp [hlt]

theorem Settled.pending_step (h : Settled f) (hcareful : Careful f l) (hstep : EventListener.step f l = some f') {n : ℕ}
    (hn : n ≤ f.logs.length) :
    n ≤ f'.logs.length ∧ pending n f' ≤ pending n f - (if l.succeeds then 1 else 0) := by
  cases l with
  | append timestamp decoded =>
    obtain ⟨hlast, rfl⟩ := of_step_append hstep
    exact ⟨by dsimp only; rw [List.length_append]; omega, Nat.le_of_eq (pending_append hn)⟩
  | poll returns =>
    cases returns with
    | none =>
      obtain rfl := Option.some.inj hstep
      exact ⟨hn, Nat.le_refl _⟩
    | some returns =>
      obtain rfl := Option.some.inj hstep
      exact ⟨by rw [poll_logs]; exact hn, h.pending_poll hcareful n⟩

theorem mem_logs_step (hstep : EventListener.step f l = some f') {x : Log β} (hx : x ∈ f.logs) : x ∈ f'.logs := by
  cases l with
  | append timestamp decoded =>
    obtain ⟨hlast, rfl⟩ := of_step_append hstep
    exact List.mem_append_left _ hx
  | poll returns =>
    cases returns with
    | none =>
      obtain rfl := Option.some.inj hstep
      exact hx
    | some returns =>
      obtain rfl := Option.some.inj hstep
      rw [poll_logs]
      exact hx

/-! ## Runs -/

variable {ts : List (Transition (Feed β) (Label β))}

theorem settled_of_careful (hr : (system β).Run ts f) (hcareful : ∀ tr ∈ ts, Careful tr.src tr.label) : Settled f := by
  induction hr with
  | init h =>
    rw [h]
    exact ⟨List.Pairwise.nil, rfl, (by rintro c ⟨⟩), rfl⟩
  | step hr h ih =>
    exact (ih fun tr htr => hcareful tr (List.mem_append_left _ htr)).step
      (hcareful _ (List.mem_append_right _ List.mem_cons_self)) h

theorem pending_of_careful (hr : (system β).Run ts f) (hcareful : ∀ tr ∈ ts, Careful tr.src tr.label)
    {ts₁ ts₂ : List (Transition (Feed β) (Label β))} {tr : Transition (Feed β) (Label β)} (hts : ts = ts₁ ++ tr :: ts₂) :
    tr.dst.logs.length ≤ f.logs.length ∧ (∀ x ∈ tr.dst.logs, x ∈ f.logs) ∧
      pending tr.dst.logs.length f ≤ pending tr.dst.logs.length tr.dst - ts₂.countP fun tr => tr.label.succeeds := by
  induction hr generalizing ts₂ with
  | init h => simp at hts
  | @step us s t l hr h ih =>
    rcases List.eq_nil_or_concat ts₂ with rfl | ⟨ts₂', last, rfl⟩
    · obtain ⟨rfl, hlast⟩ := List.append_inj' hts rfl
      obtain rfl := List.singleton_inj.mp hlast
      exact ⟨Nat.le_refl _, fun x hx => hx, Nat.le_refl _⟩
    · rw [List.concat_eq_append, ← List.cons_append, ← List.append_assoc] at hts
      obtain ⟨hus, hlast⟩ := List.append_inj' hts rfl
      obtain rfl := List.singleton_inj.mp hlast
      have hcareful' : ∀ tr ∈ us, Careful tr.src tr.label := fun tr htr => hcareful tr (List.mem_append_left _ htr)
      obtain ⟨hlength, hmem, hle⟩ := ih hcareful' hus
      obtain ⟨hlength', hle'⟩ := (settled_of_careful hr hcareful').pending_step
        (hcareful _ (List.mem_append_right _ List.mem_cons_self)) h hlength
      refine ⟨hlength', fun x hx => mem_logs_step h (hmem x hx), ?_⟩
      rw [List.concat_eq_append, List.countP_append, List.countP_singleton]
      omega

/-- In every run whose steps lose no log, the listener delivers. -/
theorem delivers_of_careful (hr : (system β).Run ts f) (hcareful : ∀ tr ∈ ts, Careful tr.src tr.label) :
    Delivers ts f := by
  have h := settled_of_careful hr hcareful
  have hpassed : ∀ l ∈ f.logs, l.decodable = true → beyond f.cursor l = false → (l, true) ∈ f.dispatched := by
    intro l hl hdecodable hbeyond
    rw [h.delivered]
    refine List.mem_map_of_mem (List.mem_filter.mpr ⟨List.mem_filter.mpr ⟨hl, ?_⟩, hdecodable⟩)
    rw [hbeyond]
    rfl
  refine ⟨hpassed, ?_, fun ts₁ tr ts₂ hts henough x hx hdecodable => ?_⟩
  · rw [h.delivered, List.map_map]
    exact List.pairwise_map.mpr (h.pairwise_index.sublist (List.filter_sublist.trans List.filter_sublist))
  · obtain ⟨-, hmem, hle⟩ := pending_of_careful hr hcareful hts
    obtain ⟨hr', hstep⟩ := (hts ▸ hr).before
    have hdst : Settled tr.dst := by
      have hsrc := settled_of_careful hr' fun t ht => hcareful t (by rw [hts]; exact List.mem_append_left _ ht)
      exact hsrc.step (hcareful tr (by rw [hts]; simp)) hstep
    have hall : pending tr.dst.logs.length tr.dst =
        (tr.dst.logs.filter fun l => l.decodable && beyond tr.dst.cursor l).length := by
      unfold pending
      refine congrArg List.length (List.filter_congr fun l hl => ?_)
      rw [decide_eq_true (hdst.index_lt hl), Bool.true_and]
    have hzero : pending tr.dst.logs.length f = 0 := by omega
    refine hpassed x (hmem x hx) hdecodable (Bool.eq_false_iff.mpr fun hbeyond => ?_)
    have hnot := List.filter_eq_nil_iff.mp (List.length_eq_zero_iff.mp hzero) x (hmem x hx)
    rw [hdecodable, hbeyond, decide_eq_true (hdst.index_lt hx)] at hnot
    exact hnot rfl

instance (f : Feed β) (l : Label β) : Decidable (Careful f l) :=
  match l with
  | .append timestamp decoded => inferInstanceAs (Decidable (decoded.isSome = true → f.cursor ≠ some timestamp))
  | .poll none => isTrue trivial
  | .poll (some _) => inferInstanceAs (Decidable (_ ∧ _ ∧ (_ → _)))

theorem plays_step : (system β).Plays step fun _ move l => l = move := fun _ move _ h => ⟨move, rfl, h⟩

/-- A full page with a log that cannot be decoded, and after a query that fails the two logs of the next page. -/
def pagesPolled : List (Label Unit) :=
  (List.range 52).map (fun n => .append (n + 1) (if n = 3 then none else some ())) ++
    [.poll (some fun _ => true), .poll none, .poll (some fun _ => true)]

/-- The 51 logs that can be decoded are delivered, in their order. -/
theorem delivers_two_pages : ∃ (ts : List (Transition (Feed Unit) (Label Unit))) (f : Feed Unit), Delivers ts f ∧
    f.cursor = some 52 ∧ f.dispatched.map (fun e => e.1.index) = (List.range 52).erase 3 := by
  have hplay : (pagesPolled.foldlM
      (fun f l => if decide (Careful f l) = true then step f l else none) ⟨[], none, []⟩).map
        (fun f => (f.cursor, f.dispatched.map fun e => e.1.index)) = some (some 52, (List.range 52).erase 3) := by
    decide +kernel
  obtain ⟨ts, f, hr, hread, hfrom, -⟩ := plays_step.guarded.exists_run rfl hplay
  refine ⟨ts, f, delivers_of_careful hr fun tr htr => ?_, congrArg Prod.fst hread, congrArg Prod.snd hread⟩
  obtain ⟨move, -, hcomes⟩ := hfrom tr htr
  obtain ⟨hlabel, hcareful⟩ := hcomes.means
  rw [hlabel]
  exact of_decide_eq_true hcareful

/-- A log whose handler throws is lost. -/
theorem not_delivers_after_throw :
    ¬ ∀ (ts : List (Transition (Feed Unit) (Label Unit))) (f : Feed Unit), (system Unit).Run ts f → Delivers ts f := by
  intro h
  have hstart : (system Unit).Run [] ⟨[], none, []⟩ := .init rfl
  have hlog : (system Unit).step ⟨[], none, []⟩ (.append 1 (some ())) ⟨[⟨0, 1, some ()⟩], none, []⟩ := rfl
  have hpoll : (system Unit).step ⟨[⟨0, 1, some ()⟩], none, []⟩ (.poll (some fun _ => false))
      ⟨[⟨0, 1, some ()⟩], some 1, [(⟨0, 1, some ()⟩, false)]⟩ := rfl
  have hdelivers := h _ _ ((hstart.step hlog).step hpoll)
  have hmem := hdelivers.passed ⟨0, 1, some ()⟩ List.mem_cons_self rfl rfl
  rw [List.mem_singleton] at hmem
  exact absurd (congrArg Prod.snd hmem) (by decide)

end

end AuditGuard.EventListener
