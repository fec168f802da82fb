import AuditGuard.Inft.Storage
import AuditGuard.Library.Transition

/-!
# The index of jobs

The event listener (`event-listener.js`) links each on-chain job to an Audit Job iNFT. `_onAuditAuction_JobPosted`
looks the job up in `_jobIndex`, and else searches all iNFTs for one of the audited contract; `_initIndices` fills the
index again from storage when the process is started. The iNFTs are minted by the discovery listener and by the
orchestrator, each with a storage adapter of its own.

A step is a mint with its save, an event, a save of something else, or the restart of a process.
-/

namespace AuditGuard.JobIndex

section

/-- What the metadata of an Audit Job iNFT says of its job: `jobId`, and `target.contractAddress`. -/
structure AuditJob where
  jobId : ℕ
  contractAddress : String

/-- The event listener's index, and the storage. -/
structure World where
  /-- `_jobIndex`. -/
  jobIndex : ℕ → Option ℕ
  storages : Storages AuditJob
  /-- The serial numbers that the ledger has given. -/
  serials : List ℕ

namespace World

/-- No iNFT was minted yet. -/
def fresh : World := ⟨fun _ => none, .fresh, []⟩

variable (w : World)

/-- The adapter of the event listener. -/
def listener : StorageAdapter AuditJob := w.storages.storage .eventListener

/-- `_initIndices()`, for the Audit Job iNFTs. -/
def initIndices (a : StorageAdapter AuditJob) : ℕ → Option ℕ :=
  a.listAll.foldl (fun index item =>
    if item.jobId = 0 then index
    else Function.update index item.jobId (a.findSerialBy fun job => job.jobId = item.jobId)) fun _ => none

/-- `mintAuditJobINFT(discoveryEvent)`, which gets a serial number from the ledger. The `jobId` of the discovery is 0
if it has none. -/
def mintAuditJobINFT (p : Process) (serial : ℕ) (contractAddress : String) (jobId : ℕ) : World :=
  { w with
    storages := w.storages.save p serial ⟨jobId, contractAddress⟩
    serials := serial :: w.serials }

/-- The serial number that `_onAuditAuction_JobPosted` links a job to. No serial number is 0, and `!serial` asks
whether there is none. -/
def findJob (jobId : ℕ) (contractAddress : String) : Option ℕ :=
  match w.jobIndex jobId with
  | some serial => some serial
  | none => w.listener.findSerialBy fun job => job.contractAddress = contractAddress

/-- `_onAuditAuction_JobPosted(args)`: what it does to the index and to the `jobId` of the iNFT. -/
def onJobPosted (jobId : ℕ) (contractAddress : String) : World :=
  match w.findJob jobId contractAddress with
  | none => w
  | some serial =>
    let w := { w with jobIndex := Function.update w.jobIndex jobId (some serial) }
    match w.listener.cache serial with
    | none => w
    | some metadata => { w with storages := w.storages.save .eventListener serial { metadata with jobId := jobId } }

/-- A process is started again. -/
def restart (p : Process) : World :=
  let w := { w with storages := w.storages.restart p }
  if p = .eventListener then { w with jobIndex := initIndices w.listener } else w

end World

/-- What may happen next. -/
inductive Label
  /-- An Audit Job iNFT is minted by a process. -/
  | mints (p : Process) (serial : ℕ) (contractAddress : String) (jobId : ℕ)
  /-- The event listener handles a `JobPosted` event. -/
  | jobPosted (jobId : ℕ) (contractAddress : String)
  /-- A process saves an iNFT of another collection, or an Audit Job iNFT that keeps its job. -/
  | savesOther (p : Process) (isNew : Bool)
  | restarts (p : Process)

/-- The step under a label. -/
def next (w : World) : Label → World
  | .mints p serial contractAddress jobId => w.mintAuditJobINFT p serial contractAddress jobId
  | .jobPosted jobId contractAddress => w.onJobPosted jobId contractAddress
  | .savesOther p isNew => { w with storages := w.storages.saveOther p isNew }
  | .restarts p => w.restart p

/-- When a step can be taken: the event listener mints no Audit Job iNFTs, serial numbers are given once and count
from 1, and so do the jobs of the auction. -/
def enabled (w : World) : Label → Prop
  | .mints p serial _ _ => p ≠ .eventListener ∧ 0 < serial ∧ serial ∉ w.serials
  | .jobPosted jobId _ => 0 < jobId
  | _ => True

instance (w : World) : DecidablePred (enabled w)
  | .mints p serial _ _ => inferInstanceAs (Decidable (p ≠ .eventListener ∧ 0 < serial ∧ serial ∉ w.serials))
  | .jobPosted jobId _ => inferInstanceAs (Decidable (0 < jobId))
  | .savesOther _ _ => .isTrue trivial
  | .restarts _ => .isTrue trivial

/-- The system. -/
def system : TransitionSystem World Label where
  init w := w = .fresh
  step w l w' := enabled w l ∧ w' = next w l

/-- Each job has its own iNFT, throughout a run. -/
structure Exclusive (ts : List (Transition World Label)) (w : World) : Prop where
  /-- No iNFT is that of two jobs. -/
  injective : TransitionSystem.Throughout
    (fun w => ∀ j j' serial, w.jobIndex j = some serial → w.jobIndex j' = some serial → j = j') ts w
  /-- A job that is linked stays linked to its iNFT. -/
  kept : ∀ tr ∈ ts, ∀ j serial, tr.src.jobIndex j = some serial → tr.dst.jobIndex j = some serial
  /-- The iNFT of a job has its number. -/
  recorded : TransitionSystem.Throughout
    (fun w => ∀ j serial, w.jobIndex j = some serial →
      ∃ metadata, w.listener.cache serial = some metadata ∧ metadata.jobId = j) ts w
  /-- A job is not linked to the iNFT of another job. -/
  apart : ∀ tr ∈ ts, ∀ j contractAddress, tr.label = .jobPosted j contractAddress →
    ∀ serial, tr.dst.jobIndex j = some serial → ∀ j', j' ≠ j → tr.src.jobIndex j' ≠ some serial

end

section

open TransitionSystem

variable {w : World} {l : Label} {j serial : ℕ} {contractAddress : String}

/-- The iNFT of a linked job has its number. -/
def Recorded (w : World) : Prop :=
  ∀ j serial, w.jobIndex j = some serial → ∃ metadata, w.listener.cache serial = some metadata ∧ metadata.jobId = j

/-- The files have a job at an iNFT: its metadata has the number of the job, and that of no iNFT before it has. -/
def Stored (files : StorageFiles AuditJob) (j serial : ℕ) : Prop :=
  (∃ metadata, files.store serial = some metadata ∧ metadata.jobId = j) ∧
    ∃ before after, files.index = before ++ serial :: after ∧
      ∀ other ∈ before, ∀ metadata, files.store other = some metadata → metadata.jobId ≠ j

/-- A job that is posted and not yet linked does not find the iNFT of another job; and when the event listener is
started again, the files have each linked job at its iNFT. -/
def Careful (w : World) : Label → Prop
  | .jobPosted j contractAddress => w.jobIndex j = none →
    ∀ serial, w.listener.findSerialBy (fun job => job.contractAddress = contractAddress) = some serial →
      ∀ j', w.jobIndex j' ≠ some serial
  | .restarts p => p = .eventListener → ∀ j serial, w.jobIndex j = some serial → Stored w.storages.files j serial
  | _ => True

/-! ## The index after a restart -/

theorem foldl_index (items : List AuditJob) (v index : ℕ → Option ℕ) (j : ℕ) :
    items.foldl (fun index item => if item.jobId = 0 then index else Function.update index item.jobId (v item.jobId))
      index j = if j ≠ 0 ∧ ∃ item ∈ items, item.jobId = j then v j else index j := by
  induction items generalizing index with
  | nil => simp
  | cons item items ih =>
    rw [List.foldl_cons, ih]
    by_cases hzero : item.jobId = 0
    · rw [if_pos hzero]
      refine if_congr ?_ rfl rfl
      constructor
      · rintro ⟨hj, item', hmem, hitem⟩
        exact ⟨hj, item', List.mem_cons_of_mem _ hmem, hitem⟩
      · rintro ⟨hj, item', hmem, hitem⟩
        rcases List.mem_cons.mp hmem with rfl | hmem
        · exact absurd (hitem.symm.trans hzero) hj
        · exact ⟨hj, item', hmem, hitem⟩
    · rw [if_neg hzero]
      by_cases hj : item.jobId = j
      · rw [hj, Function.update_self, ite_self, if_pos ⟨hj ▸ hzero, item, List.mem_cons_self, hj⟩]
      · rw [Function.update_of_ne (Ne.symm hj)]
        simp [hj]

theorem initIndices_apply (a : StorageAdapter AuditJob) (j : ℕ) :
    World.initIndices a j = if j = 0 then none else a.findSerialBy fun job => job.jobId = j := by
  have hfold := foldl_index a.listAll (fun j => a.findSerialBy fun job => job.jobId = j) (fun _ => none) j
  have hinit : World.initIndices a j = if j ≠ 0 ∧ ∃ item ∈ a.listAll, item.jobId = j then
      a.findSerialBy fun job => job.jobId = j else none := hfold
  rw [hinit]
  by_cases hj : j = 0
  · simp [hj]
  · rw [if_neg hj]
    split
    case isTrue => rfl
    case isFalse hnone =>
      have hfind : ¬(a.findSerialBy fun job => job.jobId = j).isSome := by
        rw [StorageAdapter.findSerialBy_isSome]
        simpa [hj] using hnone
      rw [Option.not_isSome_iff_eq_none] at hfind
      exact hfind.symm

theorem find_opened_iff {files : StorageFiles AuditJob} :
    ((StorageAdapter.opened files).findSerialBy fun job => job.jobId = j) = some serial ↔ Stored files j serial := by
  unfold StorageAdapter.findSerialBy Stored
  rw [List.find?_eq_some_iff_append]
  simp [StorageAdapter.opened, Option.any_eq_true, Option.any_eq_false]

/-! ## What a step does to the links -/

theorem restart_listener (w : World) : (w.restart .eventListener).listener = .opened w.storages.files ∧
    (w.restart .eventListener).jobIndex = World.initIndices (.opened w.storages.files) := by
  have hstorage : (w.storages.restart .eventListener).storage .eventListener = .opened w.storages.files := by
    simp [Storages.restart, Storages.storage]
  exact ⟨hstorage, congrArg World.initIndices hstorage⟩

/-- The event listener has its adapter, and no job 0. -/
def Started (w : World) : Prop := (w.storages.adapter .eventListener).isSome ∧ w.jobIndex 0 = none

theorem Started.next (hw : Started w) (h : enabled w l) : Started (next w l) := by
  obtain ⟨hadapter, hzero⟩ := hw
  have hupdate : ∀ (p : Process) (a : StorageAdapter AuditJob),
      (Function.update w.storages.adapter p (some a) .eventListener).isSome := by
    intro p a
    by_cases hp : .eventListener = p
    · rw [hp, Function.update_self]
      rfl
    · rwa [Function.update_of_ne hp]
  cases l with
  | mints p serial contractAddress jobId => exact ⟨hupdate p _, hzero⟩
  | savesOther p isNew => exact ⟨hupdate p _, hzero⟩
  | jobPosted jobId contractAddress =>
    have hne : 0 ≠ jobId := Nat.ne_of_lt h
    simp only [JobIndex.next, World.onJobPosted]
    split
    case h_1 => exact ⟨hadapter, hzero⟩
    case h_2 serial hfind =>
      have hzero' : Function.update w.jobIndex jobId (some serial) 0 = none := by rwa [Function.update_of_ne hne]
      split
      case h_1 => exact ⟨hadapter, hzero'⟩
      case h_2 => exact ⟨hupdate .eventListener _, hzero'⟩
  | restarts p =>
    cases p with
    | eventListener =>
      obtain ⟨-, hindex⟩ := restart_listener w
      refine ⟨by simp [JobIndex.next, World.restart, Storages.restart], ?_⟩
      calc (w.restart .eventListener).jobIndex 0 = World.initIndices (.opened w.storages.files) 0 := by rw [hindex]
        _ = none := by rw [initIndices_apply, if_pos rfl]
    | discoveryListener => exact ⟨by simpa [JobIndex.next, World.restart, Storages.restart] using hadapter, hzero⟩
    | orchestrator => exact ⟨by simpa [JobIndex.next, World.restart, Storages.restart] using hadapter, hzero⟩

theorem started_of_reachable (hw : system.Reachable w) : Started w := by
  refine hw.induct (I := Started) ?_ fun w l w' _ hs hstep => ?_
  · rintro w rfl
    exact ⟨rfl, rfl⟩
  · rw [hstep.2]
    exact hs.next hstep.1

/-- The links of a step stay, and the iNFT of each job has its number. -/
def Keeps (w w' : World) : Prop := ∀ j serial, w.jobIndex j = some serial → w'.jobIndex j = some serial

theorem keeps_and_recorded_of_eq {w' : World} (hw : Recorded w) (hindex : w'.jobIndex = w.jobIndex)
    (hlistener : w'.listener = w.listener) : Keeps w w' ∧ Recorded w' := by
  constructor
  · intro j serial h
    rwa [hindex]
  · intro j serial h
    rw [hindex] at h
    rw [hlistener]
    exact hw j serial h

theorem onJobPosted_eq {metadata : AuditJob} (hfind : w.findJob j contractAddress = some serial)
    (hcache : w.listener.cache serial = some metadata) : w.onJobPosted j contractAddress =
      { w with
        jobIndex := Function.update w.jobIndex j (some serial)
        storages := w.storages.save .eventListener serial { metadata with jobId := j } } := by
  unfold World.onJobPosted
  rw [hfind]
  dsimp only
  have hlistener : World.listener { w with jobIndex := Function.update w.jobIndex j (some serial) } = w.listener := rfl
  split
  case h_1 hnone =>
    rw [hlistener, hcache] at hnone
    cases hnone
  case h_2 metadata' hsome =>
    rw [hlistener, hcache, Option.some.injEq] at hsome
    rw [hsome]

/-- A job is linked to an iNFT: all is well if the iNFT is not that of another job. -/
theorem link_iff (hw : Recorded w) {metadata : AuditJob} (hj : w.jobIndex j = none ∨ w.jobIndex j = some serial)
    (hfind : w.findJob j contractAddress = some serial) (hcache : w.listener.cache serial = some metadata) :
    Keeps w (w.onJobPosted j contractAddress) ∧ Recorded (w.onJobPosted j contractAddress) ↔
      ∀ j', j' ≠ j → w.jobIndex j' ≠ some serial := by
  rw [onJobPosted_eq hfind hcache]
  have hlistener : (w.storages.save .eventListener serial { metadata with jobId := j }).storage .eventListener =
      w.listener.save serial { metadata with jobId := j } := Storages.storage_save_self
  constructor
  · rintro ⟨hkeeps, hrecorded⟩ j' hne hj'
    obtain ⟨metadata', hmetadata', rfl⟩ := hrecorded j' serial (hkeeps j' serial hj')
    unfold World.listener at hmetadata'
    rw [hlistener, StorageAdapter.cache_save_self] at hmetadata'
    exact hne (congrArg AuditJob.jobId (Option.some.inj hmetadata')).symm
  · intro hapart
    constructor
    · intro j' serial' hj'
      dsimp only
      by_cases heq : j' = j
      · rcases hj with hnone | hsome
        · rw [heq, hnone] at hj'
          cases hj'
        · rw [heq, hsome] at hj'
          rw [heq, Function.update_self, hj']
      · rwa [Function.update_of_ne heq]
    · intro j' serial' hj'
      unfold World.listener
      rw [hlistener]
      dsimp only at hj'
      by_cases heq : j' = j
      · rw [heq, Function.update_self, Option.some.injEq] at hj'
        rw [← hj', heq]
        exact ⟨_, StorageAdapter.cache_save_self, rfl⟩
      · rw [Function.update_of_ne heq] at hj'
        have hne : serial' ≠ serial := by
          rintro rfl
          exact hapart j' heq hj'
        rw [StorageAdapter.cache_save_of_ne hne]
        exact hw j' serial' hj'

/-- A job that is posted. -/
theorem onJobPosted_iff (hw : Recorded w) : Keeps w (w.onJobPosted j contractAddress) ∧
    Recorded (w.onJobPosted j contractAddress) ↔ Careful w (.jobPosted j contractAddress) := by
  unfold Careful
  dsimp only
  cases hindex : w.jobIndex j with
  | some serial =>
    -- The job was posted before.
    have hfind : w.findJob j contractAddress = some serial := by rw [World.findJob, hindex]
    obtain ⟨metadata, hcache, hjob⟩ := hw j serial hindex
    rw [link_iff hw (.inr hindex) hfind hcache]
    refine iff_of_true (fun j' hne hj' => ?_) fun hnone => by cases hnone
    obtain ⟨metadata', hcache', hjob'⟩ := hw j' serial hj'
    rw [hcache, Option.some.injEq] at hcache'
    rw [← hjob', ← hcache'] at hne
    exact hne hjob
  | none =>
    have hsearch : w.findJob j contractAddress =
        w.listener.findSerialBy fun job => job.contractAddress = contractAddress := by rw [World.findJob, hindex]
    rw [← hsearch]
    cases hfind : w.findJob j contractAddress with
    | none =>
      have hstep : w.onJobPosted j contractAddress = w := by rw [World.onJobPosted, hfind]
      rw [hstep]
      exact iff_of_true (keeps_and_recorded_of_eq hw rfl rfl) (by simp)
    | some serial =>
      obtain ⟨-, metadata, hcache, -⟩ := StorageAdapter.cache_of_findSerialBy (hsearch.symm.trans hfind)
      rw [link_iff hw (.inl hindex) hfind hcache]
      constructor
      · intro hapart _ serial' hserial j' hj'
        obtain rfl := Option.some.inj hserial
        refine hapart j' ?_ hj'
        rintro rfl
        rw [hindex] at hj'
        cases hj'
      · intro hcareful j' _
        exact hcareful rfl serial rfl j'

theorem restart_iff (hzero : w.jobIndex 0 = none) : Keeps w (w.restart .eventListener) ∧
    Recorded (w.restart .eventListener) ↔ Careful w (.restarts .eventListener) := by
  obtain ⟨hlistener, hindex⟩ := restart_listener w
  have happly : ∀ j serial, j ≠ 0 →
      ((w.restart .eventListener).jobIndex j = some serial ↔ Stored w.storages.files j serial) := by
    intro j serial hj
    rw [hindex, initIndices_apply, if_neg hj, find_opened_iff]
  have hne : ∀ j serial, w.jobIndex j = some serial → j ≠ 0 := by
    rintro j serial hj rfl
    rw [hzero] at hj
    cases hj
  constructor
  · rintro ⟨hkeeps, -⟩ - j serial hj
    exact (happly j serial (hne j serial hj)).mp (hkeeps j serial hj)
  · intro hcareful
    refine ⟨fun j serial hj => (happly j serial (hne j serial hj)).mpr (hcareful rfl j serial hj), ?_⟩
    intro j serial hj
    have hj0 : j ≠ 0 := by
      rintro rfl
      rw [hindex, initIndices_apply, if_pos rfl] at hj
      cases hj
    obtain ⟨⟨metadata, hstore, hjob⟩, -⟩ := (happly j serial hj0).mp hj
    rw [hlistener]
    exact ⟨metadata, hstore, hjob⟩

theorem next_iff (hs : Started w) (hw : Recorded w) (h : enabled w l) :
    Keeps w (next w l) ∧ Recorded (next w l) ↔ Careful w l := by
  have hother : ∀ (p : Process) (d : Storages AuditJob), p ≠ .eventListener →
      d.adapter .eventListener = w.storages.adapter .eventListener →
      d.storage .eventListener = w.listener := fun p d _ hd => Storages.storage_congr hd hs.1
  cases l with
  | jobPosted j contractAddress => exact onJobPosted_iff hw
  | mints p serial contractAddress jobId =>
    have hlistener : (next w (.mints p serial contractAddress jobId)).listener = w.listener :=
      Storages.storage_congr (Function.update_of_ne h.1.symm ..) hs.1
    exact iff_of_true (keeps_and_recorded_of_eq hw rfl hlistener) trivial
  | savesOther p isNew =>
    have hlistener : (next w (.savesOther p isNew)).listener = w.listener := by
      by_cases hp : p = .eventListener
      · rw [hp]
        exact Storages.storage_saveOther_self
      · exact Storages.storage_congr (Function.update_of_ne (Ne.symm hp) ..) hs.1
    exact iff_of_true (keeps_and_recorded_of_eq hw rfl hlistener) trivial
  | restarts p =>
    by_cases hp : p = .eventListener
    · rw [hp]
      exact restart_iff hs.2
    · have hlistener : (next w (.restarts p)).listener = w.listener := by
        simp only [next, World.restart, if_neg hp]
        exact Storages.storage_congr (Function.update_of_ne (Ne.symm hp) ..) hs.1
      have hindex : (next w (.restarts p)).jobIndex = w.jobIndex := by simp only [next, World.restart, if_neg hp]
      exact iff_of_true (keeps_and_recorded_of_eq hw hindex hlistener) fun heq => absurd heq hp

/-! ## The result -/

theorem exclusive_iff_keeps {ts : List (Transition World Label)} (hr : system.Run ts w) :
    Exclusive ts w ↔ (∀ tr ∈ ts, Keeps tr.src tr.dst) ∧ Throughout Recorded ts w := by
  have hinjective : ∀ {w : World}, Recorded w → ∀ j j' serial, w.jobIndex j = some serial →
      w.jobIndex j' = some serial → j = j' := by
    intro w hw j j' serial hj hj'
    obtain ⟨metadata, hcache, hjob⟩ := hw j serial hj
    obtain ⟨metadata', hcache', hjob'⟩ := hw j' serial hj'
    rw [hcache, Option.some.injEq] at hcache'
    rw [← hjob, ← hjob', hcache']
  constructor
  · intro h
    exact ⟨h.kept, h.recorded⟩
  · rintro ⟨hkeeps, hrecorded⟩
    refine ⟨⟨fun tr htr => hinjective (hrecorded.1 tr htr), hinjective hrecorded.2⟩, hkeeps, hrecorded, ?_⟩
    intro tr htr j contractAddress _ serial hj j' hne hj'
    have hdst : Recorded tr.dst := hrecorded.dst hr tr htr
    exact hne (hinjective hdst j' j serial (hkeeps tr htr j' serial hj') hj)

/-- Throughout a run each job has its own iNFT, if and only if no job that is posted is given the iNFT of another job,
and at each restart of the event listener the files have each linked job at its iNFT. -/
theorem exclusive_iff {ts : List (Transition World Label)} (hr : system.Run ts w) :
    Exclusive ts w ↔ ∀ tr ∈ ts, Careful tr.src tr.label := by
  rw [exclusive_iff_keeps hr]
  refine hr.forall_steps_iff (I := Recorded) (K := fun w _ w' => Keeps w w') ?_ fun w l w' hreach hw hstep => ?_
  · rintro w rfl
    have hrecorded : Recorded .fresh := fun j serial hj => by cases hj
    exact ⟨hrecorded, hrecorded⟩
  · rw [hstep.2]
    have hiff := next_iff (started_of_reachable hreach) hw hstep.1
    exact ⟨hiff, fun hcareful => (hiff.mpr hcareful).2⟩

theorem Run.next {ts : List (Transition World Label)} (hr : system.Run ts w) (h : enabled w l) :
    system.Run (ts ++ [⟨w, l, JobIndex.next w l⟩]) (JobIndex.next w l) := hr.step ⟨h, rfl⟩

/-- An audit job was minted, and the event listener is restarted. -/
def sample : World := next (next .fresh (.mints .discoveryListener 1 "0xa" 0)) (.restarts .eventListener)

theorem sample_run : system.Run
    [⟨.fresh, .mints .discoveryListener 1 "0xa" 0, next .fresh (.mints .discoveryListener 1 "0xa" 0)⟩,
      ⟨next .fresh (.mints .discoveryListener 1 "0xa" 0), .restarts .eventListener, sample⟩] sample := by
  have hstart : system.Run [] World.fresh := .init rfl
  have hmint : enabled World.fresh (.mints .discoveryListener 1 "0xa" 0) := by decide
  exact Run.next (l := .restarts .eventListener) (Run.next hstart hmint) trivial

/-- The listener was started when two contracts had their iNFTs, and jobs for both were posted since. -/
def sampleLinked : World :=
  next (next (next (next (next .fresh (.mints .discoveryListener 1 "0xa" 0)) (.mints .discoveryListener 2 "0xb" 0))
    (.restarts .eventListener)) (.jobPosted 1 "0xa")) (.jobPosted 2 "0xb")

theorem sampleLinked_index :
    sampleLinked.jobIndex = Function.update (Function.update (fun _ => none) 1 (some 1)) 2 (some 2) := rfl

/-- Two jobs on two contracts, and a restart after they were linked. -/
theorem exclusive_two_jobs : ∃ ts w, system.Run ts w ∧ Exclusive ts w ∧ w.jobIndex 1 = some 1 ∧
    w.jobIndex 2 = some 2 := by
  have hstart : system.Run [] World.fresh := .init rfl
  have hfirst := Run.next (l := .mints .discoveryListener 1 "0xa" 0) hstart (by decide)
  have hsecond := Run.next (l := .mints .discoveryListener 2 "0xb" 0) hfirst (by decide)
  have hstarted := Run.next (l := .restarts .eventListener) hsecond trivial
  have hposted := Run.next (l := .jobPosted 1 "0xa") hstarted (by decide)
  have hlinked := Run.next (l := .jobPosted 2 "0xb") hposted (by decide)
  have hr := Run.next (l := .restarts .eventListener) hlinked trivial
  refine ⟨_, _, hr, (exclusive_iff hr).mpr fun tr htr => ?_, by decide +kernel, by decide +kernel⟩
  simp only [List.cons_append, List.nil_append, List.mem_cons, List.not_mem_nil, or_false] at htr
  rcases htr with rfl | rfl | rfl | rfl | rfl | rfl
  · trivial
  · trivial
  · intro _ j serial hj
    cases hj
  · intro _ serial _ j' hj'
    cases hj'
  · -- The second contract is that of the second iNFT.
    intro _ serial hfound j' hj'
    obtain rfl : 2 = serial := Option.some.inj hfound
    have hindex : Function.update (fun _ => none) 1 (some 1) j' = some 2 := hj'
    rw [Function.update_apply] at hindex
    split_ifs at hindex
    cases hindex
  · intro _ j serial hj
    have hindex : sampleLinked.jobIndex j = some serial := hj
    rw [sampleLinked_index, Function.update_apply, Function.update_apply] at hindex
    split_ifs at hindex with htwo hone
    · obtain rfl := Option.some.inj hindex
      subst htwo
      exact ⟨⟨_, rfl, rfl⟩, [1], [], rfl, by decide +kernel⟩
    · obtain rfl := Option.some.inj hindex
      subst hone
      exact ⟨⟨_, rfl, rfl⟩, [], [2], rfl, nofun⟩

/-- A contract that is audited a second time: the second job is linked to the iNFT of the first. -/
theorem not_exclusive_reaudit : ¬ ∀ ts w, system.Run ts w → Exclusive ts w := by
  intro hall
  have hr := Run.next (l := .jobPosted 2 "0xa") (Run.next (l := .jobPosted 1 "0xa") sample_run (by decide)) (by decide)
  have hlinked : (next (next sample (.jobPosted 1 "0xa")) (.jobPosted 2 "0xa")).jobIndex 1 = some 1 ∧
      (next (next sample (.jobPosted 1 "0xa")) (.jobPosted 2 "0xa")).jobIndex 2 = some 1 := by decide +kernel
  exact absurd ((hall _ _ hr).injective.2 1 2 1 hlinked.1 hlinked.2) (by decide)

end

end AuditGuard.JobIndex
