import AuditGuard.Library.Transition

/-!
# The blobs of the 0g storage

`uploadBlob`, `downloadBlob`, `_initZg` and `_handleZgFailure` of `storage-0g.js`. A blob goes to 0g under its Merkle
root, or, where 0g is not available, into a local file that is named after 16 digits of its keccak hash. A failure is
counted, and the third one makes 0g unavailable for good. Other operations may initialize 0g, and count failures, too.

## What was handed out, and what can be fetched

`uploadBlob` returns a hash in any case. And once 0g is unavailable, `downloadBlob` looks for a blob that is on 0g in
the local files. `fetchable_iff_careful` says when none of this happens.
-/

namespace AuditGuard.Inft.Blobs

open TransitionSystem

/-- The bytes of a blob. -/
abbrev Bytes := List UInt8

/-- A hash, as it is written: `0x`, and hexadecimal digits. -/
abbrev Hash := List Char

/-- What the code gets from its libraries. -/
structure Hashing where
  keccak256 : Bytes → Hash
  /-- `tree.rootHash()`, of the file with these bytes. -/
  rootHash : Bytes → Hash
  /-- What is written into a file of the text that `toString("utf8")` makes of the bytes of a buffer. -/
  rewritten : Bytes → Bytes

/-- Data to store: a string, by its UTF-8 bytes, or a buffer. -/
structure Data where
  isString : Bool
  bytes : Bytes

/-- Where a blob is stored. -/
inductive Place
  | file (name : List Char)
  | remote (root : Hash)

/-- A hash that `uploadBlob` has returned for some data, and where it has stored them, if it has. -/
structure Receipt where
  hash : Hash
  bytes : Bytes
  place : Option Place

/-- The storage adapter, the local files, the blobs on 0g, and the hashes that were handed out. -/
structure State where
  zgInitialized : Bool
  zgAvailable : Bool
  zgDisabledManually : Bool
  failureCount : ℕ
  /-- The files of `data/blobs`. -/
  files : List Char → Option Bytes
  remote : Hash → Option Bytes
  handed : List Receipt

/-- `_maxFailures`. -/
def maxFailures : ℕ := 3

/-- The name of a local file. -/
def blobName (hash : Hash) : List Char := (hash.drop 2).take 16

/-- What is written into a local file. -/
def Data.written (hashing : Hashing) (data : Data) : Bytes :=
  if data.isString then data.bytes else hashing.rewritten data.bytes

/-- `_initZg`, which `succeeds` or not if it does anything. -/
def State.initZg (succeeds : Bool) (s : State) : State :=
  if s.zgDisabledManually = true then s
  else if s.zgInitialized = true then s
  else { s with zgInitialized := true, zgAvailable := succeeds }

/-- `_handleZgFailure`. -/
def State.handleZgFailure (s : State) : State :=
  if maxFailures ≤ s.failureCount + 1 then
    { s with failureCount := s.failureCount + 1, zgAvailable := false, zgDisabledManually := true }
  else { s with failureCount := s.failureCount + 1 }

/-- A hash is handed out. -/
def State.hand (s : State) (receipt : Receipt) : State := { s with handed := s.handed ++ [receipt] }

/-- How an upload to 0g ends. -/
inductive Outcome
  /-- There is an error before the upload. -/
  | processingError
  | uploaded
  /-- There is an error of the upload, or after it: the blob may be `stored` all the same. -/
  | uploadError (stored : Bool)

/-- The blob is on 0g. -/
def State.store (s : State) (root : Hash) (bytes : Bytes) : State :=
  { s with remote := Function.update s.remote root (some bytes) }

/-- 0g is not used. -/
def State.Offline (s : State) : Prop := s.zgAvailable = false ∨ s.zgDisabledManually = true

instance (s : State) : Decidable s.Offline := inferInstanceAs (Decidable (_ ∨ _))

/-- `uploadBlob`. -/
def State.uploadBlob (hashing : Hashing) (data : Data) (succeeds : Bool) (outcome : Outcome) (s : State) : State :=
  let s := s.initZg succeeds
  let hash := hashing.keccak256 data.bytes
  let root := hashing.rootHash data.bytes
  if s.Offline then
    { s with files := Function.update s.files (blobName hash) (some (data.written hashing)) }.hand
      ⟨hash, data.bytes, some (.file (blobName hash))⟩
  else match outcome with
    | .processingError => s.handleZgFailure.hand ⟨hash, data.bytes, none⟩
    | .uploaded => (s.store root data.bytes).hand ⟨root, data.bytes, some (.remote root)⟩
    | .uploadError true =>
      (s.store root data.bytes).handleZgFailure.hand ⟨root, data.bytes, some (.remote root)⟩
    | .uploadError false => s.handleZgFailure.hand ⟨root, data.bytes, none⟩

/-- Where `downloadBlob` looks for a blob. -/
def State.lookup (s : State) (hash : Hash) : Option Bytes :=
  if s.Offline then s.files (blobName hash) else s.remote hash

/-- `downloadBlob`, without a failure of 0g. -/
def State.downloadBlob (succeeds : Bool) (hash : Hash) (s : State) : Option Bytes := (s.initZg succeeds).lookup hash

/-- What can happen: a blob is uploaded, another operation initializes 0g, or a failure of one is counted. -/
inductive Event
  | uploads (data : Data) (succeeds : Bool) (outcome : Outcome)
  | opens (succeeds : Bool)
  | fails

/-- What an event does. -/
def State.next (hashing : Hashing) (s : State) : Event → State
  | .uploads data succeeds outcome => s.uploadBlob hashing data succeeds outcome
  | .opens succeeds => s.initZg succeeds
  | .fails => s.handleZgFailure

/-- The storage adapter, with no blobs in local files, and those on 0g under their Merkle roots. -/
def system (hashing : Hashing) : TransitionSystem State Event where
  init s := ∃ remote, (∀ root bytes, remote root = some bytes → hashing.rootHash bytes = root) ∧
    s = ⟨false, false, false, 0, fun _ => none, remote, []⟩
  step s e t := t = s.next hashing e

/-- Every blob can be fetched by the hash that was handed out for it, and different ones are stored in different
places. -/
structure State.Fetchable (s : State) : Prop where
  fetch : ∀ r ∈ s.handed, ∀ succeeds, s.downloadBlob succeeds r.hash = some r.bytes
  place : ∀ r ∈ s.handed, ∀ r' ∈ s.handed, ∀ place, r.place = some place → r'.place = some place → r.bytes = r'.bytes

/-- An upload into a local file is one of text, and of no other blob with a hash that is shortened to the same name;
one to 0g has its blob there in the end; and no failure makes 0g unavailable as long as hashes were handed out. -/
def Careful (hashing : Hashing) (s : State) : Event → Prop
  | .uploads data succeeds outcome =>
    if (s.initZg succeeds).Offline then
      data.written hashing = data.bytes ∧
        ∀ r ∈ s.handed, blobName r.hash = blobName (hashing.keccak256 data.bytes) → r.bytes = data.bytes
    else match outcome with
      | .processingError =>
        s.failureCount + 1 < maxFailures ∧ s.remote (hashing.keccak256 data.bytes) = some data.bytes
      | .uploaded => True
      | .uploadError stored =>
        s.failureCount + 1 < maxFailures ∧
          (stored = true ∨ s.remote (hashing.rootHash data.bytes) = some data.bytes)
  | .opens _ => True
  | .fails => s.zgAvailable = true → s.handed = [] ∨ s.failureCount + 1 < maxFailures

/-! ## The invariant -/

/-- What holds of the storage at any time. -/
structure State.Sound (hashing : Hashing) (s : State) : Prop where
  fresh : s.zgInitialized = false → s.zgDisabledManually = false → s.handed = [] ∧ ∀ name, s.files name = none
  online : s.zgAvailable = true → s.zgInitialized = true ∧ s.zgDisabledManually = false ∧
    (∀ name, s.files name = none) ∧ ∀ r ∈ s.handed, ∀ name, r.place ≠ some (.file name)
  remote : ∀ root bytes, s.remote root = some bytes → hashing.rootHash bytes = root
  file : ∀ r ∈ s.handed, ∀ name, r.place = some (.file name) → blobName r.hash = name
  root : ∀ r ∈ s.handed, ∀ root, r.place = some (.remote root) → hashing.rootHash r.bytes = root

variable {hashing : Hashing} {s t : State} {data : Data} {succeeds : Bool} {outcome : Outcome} {e : Event}
  {receipt : Receipt}

theorem State.Sound.not_offline_iff (h : s.Sound hashing) : ¬ s.Offline ↔ s.zgAvailable = true := by
  unfold State.Offline
  constructor
  · intro hoffline
    simpa using fun hfalse => hoffline (.inl hfalse)
  · rintro honline (hfalse | hdisabled)
    · rw [honline] at hfalse
      cases hfalse
    · rw [(h.online honline).2.1] at hdisabled
      cases hdisabled

theorem State.Sound.initZg (h : s.Sound hashing) : (s.initZg succeeds).Sound hashing := by
  unfold State.initZg
  split_ifs with hdisabled hinitialized
  · exact h
  · exact h
  · rw [Bool.not_eq_true] at hdisabled hinitialized
    obtain ⟨hhanded, hfiles⟩ := h.fresh hinitialized hdisabled
    refine ⟨fun hnot => Bool.noConfusion hnot, fun _ => ⟨rfl, hdisabled, hfiles, ?_⟩, h.remote, h.file, h.root⟩
    intro r hr
    rw [hhanded] at hr
    cases hr

theorem State.Sound.handleZgFailure (h : s.Sound hashing) : s.handleZgFailure.Sound hashing := by
  unfold State.handleZgFailure
  split_ifs
  · exact ⟨fun _ hnot => Bool.noConfusion hnot, fun hnot => Bool.noConfusion hnot, h.remote, h.file, h.root⟩
  · exact ⟨h.fresh, h.online, h.remote, h.file, h.root⟩

theorem State.Sound.store (h : s.Sound hashing) (bytes : Bytes) :
    (s.store (hashing.rootHash bytes) bytes).Sound hashing := by
  refine ⟨h.fresh, h.online, fun root bytes' hbytes => ?_, h.file, h.root⟩
  unfold State.store at hbytes
  dsimp only at hbytes
  rw [Function.update_apply] at hbytes
  split_ifs at hbytes with heq
  · rw [← Option.some.inj hbytes, heq]
  · exact h.remote root bytes' hbytes

theorem State.Sound.hand (h : s.Sound hashing) (hready : s.zgInitialized = true ∨ s.zgDisabledManually = true)
    (hfile : ∀ name, receipt.place = some (.file name) → s.Offline ∧ blobName receipt.hash = name)
    (hroot : ∀ root, receipt.place = some (.remote root) → hashing.rootHash receipt.bytes = root) :
    (s.hand receipt).Sound hashing := by
  have hmem : ∀ {r}, r ∈ (s.hand receipt).handed → r ∈ s.handed ∨ r = receipt := by
    intro r hr
    rcases List.mem_append.mp hr with hr | hr
    · exact .inl hr
    · exact .inr (List.mem_singleton.mp hr)
  refine ⟨fun hnot hnot' => ?_, fun honline => ?_, h.remote, fun r hr name hname => ?_, fun r hr root hplace => ?_⟩
  · rcases hready with hready | hready
    · exact Bool.noConfusion (hready.symm.trans hnot)
    · exact Bool.noConfusion (hready.symm.trans hnot')
  · obtain ⟨hinitialized, hdisabled, hfiles, hplaces⟩ := h.online honline
    refine ⟨hinitialized, hdisabled, hfiles, fun r hr name hname => ?_⟩
    rcases hmem hr with hr | rfl
    · exact hplaces r hr name hname
    · exact h.not_offline_iff.mpr honline (hfile name hname).1
  · rcases hmem hr with hr | rfl
    · exact h.file r hr name hname
    · exact (hfile name hname).2
  · rcases hmem hr with hr | rfl
    · exact h.root r hr root hplace
    · exact hroot root hplace

theorem initZg_ready (succeeds : Bool) (s : State) :
    (s.initZg succeeds).zgInitialized = true ∨ (s.initZg succeeds).zgDisabledManually = true := by
  unfold State.initZg
  split_ifs with hdisabled hinitialized
  · exact .inr hdisabled
  · exact .inl hinitialized
  · exact .inl rfl

theorem initZg_blobs (succeeds : Bool) (s : State) :
    (s.initZg succeeds).handed = s.handed ∧ (s.initZg succeeds).failureCount = s.failureCount ∧
      (s.initZg succeeds).remote = s.remote := by
  unfold State.initZg
  split_ifs <;> exact ⟨rfl, rfl, rfl⟩

theorem State.Sound.initZg_eq (h : s.Sound hashing) (hne : s.handed ≠ []) : s.initZg succeeds = s := by
  unfold State.initZg
  split_ifs with hdisabled hinitialized
  · rfl
  · rfl
  · rw [Bool.not_eq_true] at hdisabled hinitialized
    exact absurd (h.fresh hinitialized hdisabled).1 hne

theorem handleZgFailure_ready (h : s.zgInitialized = true ∨ s.zgDisabledManually = true) :
    s.handleZgFailure.zgInitialized = true ∨ s.handleZgFailure.zgDisabledManually = true := by
  unfold State.handleZgFailure
  split_ifs
  · exact .inr rfl
  · exact h

theorem handed_handleZgFailure (s : State) : s.handleZgFailure.handed = s.handed := by
  unfold State.handleZgFailure
  split_ifs <;> rfl

/-- An event keeps what holds. -/
theorem State.Sound.next (h : s.Sound hashing) (e : Event) : (s.next hashing e).Sound hashing := by
  cases e with
  | opens succeeds => exact h.initZg
  | fails => exact h.handleZgFailure
  | uploads data succeeds outcome =>
    have hinit : (s.initZg succeeds).Sound hashing := h.initZg
    have hready := initZg_ready succeeds s
    unfold State.next State.uploadBlob
    dsimp only
    split_ifs with hoffline
    · have hsound : State.Sound hashing { s.initZg succeeds with
          files := Function.update (s.initZg succeeds).files (blobName (hashing.keccak256 data.bytes))
            (some (data.written hashing)) } := by
        refine ⟨fun hnot hnot' => ?_, fun honline => ?_, hinit.remote, hinit.file, hinit.root⟩
        · rcases hready with hready | hready
          · exact Bool.noConfusion (hready.symm.trans hnot)
          · exact Bool.noConfusion (hready.symm.trans hnot')
        · exact absurd hoffline (hinit.not_offline_iff.mpr honline)
      refine hsound.hand hready ?_ ?_
      · rintro name ⟨⟩
        exact ⟨hoffline, rfl⟩
      · rintro root ⟨⟩
    · cases outcome with
      | processingError =>
        refine hinit.handleZgFailure.hand (handleZgFailure_ready hready) ?_ ?_ <;> rintro _ ⟨⟩
      | uploaded =>
        refine (hinit.store data.bytes).hand hready ?_ ?_
        · rintro name ⟨⟩
        · rintro root ⟨⟩
          rfl
      | uploadError stored =>
        cases stored with
        | true =>
          refine (hinit.store data.bytes).handleZgFailure.hand (handleZgFailure_ready hready) ?_ ?_
          · rintro name ⟨⟩
          · rintro root ⟨⟩
            rfl
        | false =>
          refine hinit.handleZgFailure.hand (handleZgFailure_ready hready) ?_ ?_ <;> rintro _ ⟨⟩

theorem sound_of_reachable (hs : (system hashing).Reachable s) : s.Sound hashing := by
  refine hs.induct (I := State.Sound hashing) ?_ ?_
  · rintro s ⟨remote, hremote, rfl⟩
    refine ⟨fun _ _ => ⟨rfl, fun _ => rfl⟩, fun hnot => Bool.noConfusion hnot, hremote, ?_, ?_⟩
    · intro r hr
      cases hr
    · intro r hr
      cases hr
  · rintro s e t _ h rfl
    exact h.next e

/-! ## What can be fetched -/

/-- Every blob is where it is looked for. -/
def State.Kept (s : State) : Prop := ∀ r ∈ s.handed, s.lookup r.hash = some r.bytes

theorem State.Sound.fetchable_iff (h : s.Sound hashing) (hroot : Function.Injective hashing.rootHash) :
    s.Fetchable ↔ s.Kept := by
  constructor
  · intro hfetch r hr
    have hdownload := hfetch.fetch r hr true
    unfold State.downloadBlob at hdownload
    rwa [h.initZg_eq (List.ne_nil_of_mem hr)] at hdownload
  · intro hkept
    refine ⟨fun r hr succeeds => ?_, fun r hr r' hr' place hplace hplace' => ?_⟩
    · unfold State.downloadBlob
      rw [h.initZg_eq (List.ne_nil_of_mem hr)]
      exact hkept r hr
    · cases place with
      | remote root => exact hroot ((h.root r hr root hplace).trans (h.root r' hr' root hplace').symm)
      | file name =>
        -- There are files only where 0g is not used.
        have hoffline : s.Offline := by
          by_contra honline
          exact (h.online (h.not_offline_iff.mp honline)).2.2.2 r hr name hplace
        have hlookup := hkept r hr
        have hlookup' := hkept r' hr'
        rw [State.lookup, if_pos hoffline, h.file r hr name hplace] at hlookup
        rw [State.lookup, if_pos hoffline, h.file r' hr' name hplace'] at hlookup'
        exact Option.some.inj (hlookup.symm.trans hlookup')

theorem kept_hand_iff : (s.hand receipt).Kept ↔ s.Kept ∧ s.lookup receipt.hash = some receipt.bytes := by
  unfold State.Kept
  constructor
  · intro h
    exact ⟨fun r hr => h r (List.mem_append_left _ hr), h receipt (List.mem_append_right _ (List.mem_singleton_self _))⟩
  · rintro ⟨hkept, hreceipt⟩ r hr
    rcases List.mem_append.mp hr with hr | hr
    · exact hkept r hr
    · rw [List.mem_singleton.mp hr]
      exact hreceipt

theorem State.Kept.initZg (hkept : s.Kept) (h : s.Sound hashing) : (s.initZg succeeds).Kept := by
  intro r hr
  rw [(initZg_blobs succeeds s).1] at hr
  rw [h.initZg_eq (List.ne_nil_of_mem hr)]
  exact hkept r hr

theorem lookup_handleZgFailure (h : s.failureCount + 1 < maxFailures ∨ s.Offline) (hash : Hash) :
    s.handleZgFailure.lookup hash = s.lookup hash := by
  unfold State.handleZgFailure
  split_ifs with hlast
  · have hoffline : s.Offline := h.resolve_left (Nat.not_lt.mpr hlast)
    have hafter : State.Offline { s with
      failureCount := s.failureCount + 1, zgAvailable := false, zgDisabledManually := true } := .inl rfl
    rw [State.lookup, State.lookup, if_pos hoffline, if_pos hafter]
  · rfl

theorem lookup_lastFailure (h : s.Sound hashing) (honline : ¬ s.Offline) (hlast : ¬ s.failureCount + 1 < maxFailures)
    (hash : Hash) : s.handleZgFailure.lookup hash = none := by
  have hfiles := (h.online (h.not_offline_iff.mp honline)).2.2.1
  unfold State.handleZgFailure
  rw [if_pos (Nat.not_lt.mp hlast), State.lookup, if_pos (.inl rfl)]
  exact hfiles _

theorem kept_failure_iff (h : s.Sound hashing) (honline : ¬ s.Offline) (hkept : s.Kept) :
    (s.handleZgFailure.hand receipt).Kept ↔
      s.failureCount + 1 < maxFailures ∧ s.remote receipt.hash = some receipt.bytes := by
  rw [kept_hand_iff]
  by_cases hlast : s.failureCount + 1 < maxFailures
  · have hlookup := lookup_handleZgFailure (.inl hlast)
    have hbefore : s.handleZgFailure.Kept := by
      intro r hr
      rw [handed_handleZgFailure] at hr
      rw [hlookup]
      exact hkept r hr
    rw [hlookup, State.lookup, if_neg honline, and_iff_right hbefore, and_iff_right hlast]
  · rw [lookup_lastFailure h honline hlast]
    exact iff_of_false (fun hnot => by cases hnot.2) fun hnot => hlast hnot.1

theorem State.Kept.store (hkept : s.Kept) (h : s.Sound hashing) (hroot : Function.Injective hashing.rootHash)
    (honline : ¬ s.Offline) (bytes : Bytes) : (s.store (hashing.rootHash bytes) bytes).Kept := by
  intro r hr
  have hlookup := hkept r hr
  rw [State.lookup, if_neg honline] at hlookup
  have honline' : ¬ (s.store (hashing.rootHash bytes) bytes).Offline := honline
  rw [State.lookup, if_neg honline']
  unfold State.store
  dsimp only
  rw [Function.update_apply]
  split_ifs with heq
  · rw [hroot ((h.remote _ _ hlookup).trans heq)]
  · exact hlookup

theorem kept_local_iff (hoffline : s.Offline) (hkept : s.Kept) (hash : Hash) (bytes written : Bytes)
    (place : Option Place) :
    (State.hand { s with files := Function.update s.files (blobName hash) (some written) } ⟨hash, bytes, place⟩).Kept ↔
      written = bytes ∧ ∀ r ∈ s.handed, blobName r.hash = blobName hash → r.bytes = bytes := by
  have hoffline' : State.Offline { s with
    files := Function.update s.files (blobName hash) (some written) } := hoffline
  have hlookup : ∀ hash', State.lookup { s with files := Function.update s.files (blobName hash) (some written) } hash' =
      if blobName hash' = blobName hash then some written else s.lookup hash' := by
    intro hash'
    rw [State.lookup, if_pos hoffline', State.lookup, if_pos hoffline]
    exact Function.update_apply ..
  rw [kept_hand_iff, hlookup, if_pos rfl, Option.some.injEq]
  constructor
  · rintro ⟨hothers, rfl⟩
    refine ⟨rfl, fun r hr heq => ?_⟩
    have hother := hothers r hr
    rw [hlookup, if_pos heq] at hother
    exact (Option.some.inj hother).symm
  · rintro ⟨rfl, hothers⟩
    refine ⟨fun r hr => ?_, rfl⟩
    rw [hlookup]
    split_ifs with heq
    · rw [hothers r hr heq]
    · exact hkept r hr

/-! ## Every run -/

/-- An event keeps the blobs where they are looked for exactly if it is careful. -/
theorem kept_next_iff (hroot : Function.Injective hashing.rootHash) (h : s.Sound hashing) (hkept : s.Kept)
    (e : Event) : (s.next hashing e).Kept ↔ Careful hashing s e := by
  cases e with
  | opens succeeds => exact iff_of_true (hkept.initZg h) trivial
  | fails =>
    by_cases hsame : s.failureCount + 1 < maxFailures ∨ s.Offline
    · refine iff_of_true (fun r hr => ?_) fun honline => ?_
      · change s.handleZgFailure.lookup r.hash = some r.bytes
        rw [lookup_handleZgFailure hsame]
        exact hkept r ((handed_handleZgFailure s) ▸ hr)
      · exact .inr (hsame.resolve_right (h.not_offline_iff.mpr honline))
    · obtain ⟨hlast, honline⟩ := not_or.mp hsame
      constructor
      · intro hafter _
        refine .inl (List.eq_nil_iff_forall_not_mem.mpr fun r hr => ?_)
        have hlookup := hafter r ((handed_handleZgFailure s).symm ▸ hr)
        change s.handleZgFailure.lookup r.hash = some r.bytes at hlookup
        rw [lookup_lastFailure h honline hlast] at hlookup
        cases hlookup
      · intro hcareful r hr
        have hnil := (hcareful (h.not_offline_iff.mp honline)).resolve_right hlast
        have hmem : r ∈ s.handed := (handed_handleZgFailure s) ▸ hr
        rw [hnil] at hmem
        cases hmem
  | uploads data succeeds outcome =>
    have hinit : (s.initZg succeeds).Sound hashing := h.initZg
    have hkeptInit : (s.initZg succeeds).Kept := hkept.initZg h
    obtain ⟨hhanded, hcount, hremote⟩ := initZg_blobs succeeds s
    unfold State.next State.uploadBlob Careful
    dsimp only
    split_ifs with hoffline
    · rw [kept_local_iff hoffline hkeptInit, hhanded]
    · cases outcome with
      | processingError =>
        dsimp only
        rw [kept_failure_iff hinit hoffline hkeptInit, hcount, hremote]
      | uploaded =>
        refine iff_of_true (kept_hand_iff.mpr ⟨hkeptInit.store hinit hroot hoffline data.bytes, ?_⟩) trivial
        have honline : ¬ ((s.initZg succeeds).store (hashing.rootHash data.bytes) data.bytes).Offline := hoffline
        rw [State.lookup, if_neg honline]
        exact Function.update_self ..
      | uploadError stored =>
        cases stored with
        | true =>
          have honline : ¬ ((s.initZg succeeds).store (hashing.rootHash data.bytes) data.bytes).Offline := hoffline
          dsimp only
          rw [kept_failure_iff (hinit.store data.bytes) honline (hkeptInit.store hinit hroot hoffline data.bytes)]
          have hstored : ((s.initZg succeeds).store (hashing.rootHash data.bytes) data.bytes).remote
              (hashing.rootHash data.bytes) = some data.bytes := Function.update_self ..
          have hsame : ((s.initZg succeeds).store (hashing.rootHash data.bytes) data.bytes).failureCount =
              s.failureCount := hcount
          rw [hsame]
          exact and_congr_right fun _ => iff_of_true hstored (.inl rfl)
        | false =>
          dsimp only
          rw [kept_failure_iff hinit hoffline hkeptInit, hcount, hremote]
          simp

/-- In every run: every blob can be fetched by the hash that was handed out for it, and different ones are in
different places, if and only if every event is careful. -/
theorem fetchable_iff_careful {hashing : Hashing} (hroot : Function.Injective hashing.rootHash)
    {ts : List (Transition State Event)} {s : State} (hr : (system hashing).Run ts s) :
    Throughout State.Fetchable ts s ↔ ∀ tr ∈ ts, Careful hashing tr.src tr.label := by
  refine Run.forall_iff (C := Careful hashing) ?_ ?_ hr
  · rintro s ⟨remote, hremote, rfl⟩
    refine ⟨?_, ?_⟩
    · intro r hr
      cases hr
    · intro r hr
      cases hr
  · rintro s e t hs h rfl
    have hsound := sound_of_reachable hs
    rw [(hsound.next e).fetchable_iff hroot]
    exact kept_next_iff hroot hsound ((hsound.fetchable_iff hroot).mp h) e

/-! ## Two uploads -/

/-- Bytes as characters. -/
def characters (bytes : Bytes) : Hash := bytes.map fun byte => Char.ofNat byte.toNat

theorem characters_injective : Function.Injective characters := by
  have htoNat : ∀ n < 256, (Char.ofNat n).toNat = n := by decide +kernel
  refine List.map_injective_iff.mpr fun a b h => UInt8.toNat_inj.mp ?_
  have heq := congrArg Char.toNat h
  rwa [htoNat _ a.toNat_lt, htoNat _ b.toNat_lt] at heq

/-- The bytes of the text `hello`. -/
def hello : Bytes := [104, 101, 108, 108, 111]

/-- Libraries with the hash and the Merkle root of `hello`. -/
def helloHashing : Hashing where
  keccak256 bytes :=
    if bytes = hello then "0x1c8aff950685c2ed4bc3174f3472287b56d9517b9c948127319a09a7a36deac8".toList
    else 'x' :: characters bytes
  rootHash bytes :=
    if bytes = hello then "0x3c0a2457170aa849c8f7051e23d7874a362be798d95fbb333c901c6cf19dca5a".toList
    else 'x' :: characters bytes
  rewritten := id

theorem marked_injective {hash : Hash} (hmark : hash.head? = some '0') :
    Function.Injective fun bytes => if bytes = hello then hash else 'x' :: characters bytes := by
  have hne : ∀ bytes, hash ≠ 'x' :: characters bytes := by
    rintro bytes rfl
    exact absurd (Option.some.inj hmark) (by decide)
  intro a b h
  dsimp only at h
  split_ifs at h with ha hb hb
  · rw [ha, hb]
  · exact absurd h (hne b)
  · exact absurd h.symm (hne a)
  · exact characters_injective (List.cons.inj h).2

/-- Without blobs, and before anything is initialized. -/
def State.fresh : State := ⟨false, false, false, 0, fun _ => none, fun _ => none, []⟩

theorem run_fresh (hashing : Hashing) : (system hashing).Run [] State.fresh := by
  refine .init ⟨fun _ => none, ?_, rfl⟩
  intro root bytes hnone
  cases hnone

/-- A text is on 0g, also after a failure that is not the third; and it is in a local file if there is no key. -/
theorem fetchable_hello :
    (∃ ts s, (system helloHashing).Run ts s ∧ ts.length = 2 ∧ s.zgAvailable = true ∧ s.handed.length = 1 ∧
      Throughout State.Fetchable ts s) ∧
    ∃ ts s, (system helloHashing).Run ts s ∧ s.files "1c8aff950685c2ed".toList = some hello ∧
      Throughout State.Fetchable ts s := by
  have hroot : Function.Injective helloHashing.rootHash := marked_injective rfl
  constructor
  · have hr := ((run_fresh helloHashing).step (l := .uploads ⟨true, hello⟩ true .uploaded) rfl).step (l := .fails) rfl
    refine ⟨_, _, hr, rfl, rfl, rfl, (fetchable_iff_careful hroot hr).mpr fun tr htr => ?_⟩
    rcases List.mem_cons.mp htr with rfl | htr
    · trivial
    · obtain rfl := List.mem_singleton.mp htr
      exact fun _ => .inr (by decide)
  · have hr := (run_fresh helloHashing).step (l := .uploads ⟨true, hello⟩ false .uploaded) rfl
    refine ⟨_, _, hr, by decide, (fetchable_iff_careful hroot hr).mpr fun tr htr => ?_⟩
    obtain rfl := List.mem_singleton.mp htr
    exact ⟨rfl, fun r hr => by cases hr⟩

/-- The upload fails, and its Merkle root is handed out all the same. -/
theorem not_fetchable_uploadError : ¬ ∀ hashing : Hashing, Function.Injective hashing.keccak256 →
    Function.Injective hashing.rootHash → ∀ ts s, (system hashing).Run ts s → Throughout State.Fetchable ts s := by
  intro hall
  have hr := (run_fresh helloHashing).step (l := .uploads ⟨true, hello⟩ true (.uploadError false)) rfl
  have hfetch := (hall helloHashing (marked_injective rfl) (marked_injective rfl) _ _ hr).2.fetch
  have hdownload := hfetch ⟨_, hello, none⟩ (List.mem_singleton_self _) true
  cases hdownload

end AuditGuard.Inft.Blobs
