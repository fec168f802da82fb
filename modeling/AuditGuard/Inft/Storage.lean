import Mathlib.Data.List.Basic

/-!
# The storage of the iNFTs

`StorageAdapter` of `packages/inft/src/storage-0g.js`, for the iNFTs of one collection. Three processes mint iNFTs,
and each of them has an adapter of its own: a cache of metadata and an index of serial numbers. The files are read
when an adapter is constructed, and never after. A save writes the whole cache of the process over the file of all
processes, and the index too if the iNFT is new to it.
-/

namespace AuditGuard

/-- The processes that mint iNFTs. -/
inductive Process
  /-- `discovery-listener.js`. -/
  | discoveryListener
  /-- `event-listener.js`. -/
  | eventListener
  /-- The orchestrator, through `inft-bridge.js`. -/
  | orchestrator
deriving DecidableEq

/-- The files at `LOCAL_STORE_PATH` and `INDEX_PATH`. -/
structure StorageFiles (α : Type*) where
  store : ℕ → Option α
  index : List ℕ

/-- An adapter, and what it holds of the collection. -/
structure StorageAdapter (α : Type*) where
  /-- `_cache`. -/
  cache : ℕ → Option α
  /-- `_index[collectionKey]`. -/
  index : List ℕ

variable {α : Type*}

/-- The files before anything is saved. -/
def StorageFiles.empty : StorageFiles α := ⟨fun _ => none, []⟩

namespace StorageAdapter

/-- The constructor: `_loadIndex()` and `_loadLocalStore()`. -/
def opened (files : StorageFiles α) : StorageAdapter α := ⟨files.store, files.index⟩

/-- `save(collectionKey, serialNumber, metadata)`: what the adapter holds after it. -/
def save (serial : ℕ) (metadata : α) (a : StorageAdapter α) : StorageAdapter α where
  cache := Function.update a.cache serial (some metadata)
  index := if serial ∈ a.index then a.index else a.index ++ [serial]

/-- `_saveLocalStore()`, and with a serial number that is new to the process, the file of `_updateIndex`. -/
def write (isNew : Bool) (a : StorageAdapter α) (files : StorageFiles α) : StorageFiles α where
  store := a.cache
  index := if isNew then a.index else files.index

/-- `listAll(collectionKey)`. -/
def listAll (a : StorageAdapter α) : List α := a.index.filterMap a.cache

/-- `findSerialBy(collectionKey, field, value)`, for the iNFTs whose field has the value. -/
def findSerialBy (hasValue : α → Bool) (a : StorageAdapter α) : Option ℕ :=
  a.index.find? fun serial => (a.cache serial).any hasValue

variable {a : StorageAdapter α} {hasValue : α → Bool} {serial : ℕ} {metadata : α}

theorem cache_of_findSerialBy (h : a.findSerialBy hasValue = some serial) :
    serial ∈ a.index ∧ ∃ metadata, a.cache serial = some metadata ∧ hasValue metadata = true := by
  have hfound := List.find?_some h
  rw [Option.any_eq_true] at hfound
  exact ⟨List.mem_of_find?_eq_some h, hfound⟩

theorem findSerialBy_isSome : (a.findSerialBy hasValue).isSome ↔ ∃ metadata ∈ a.listAll, hasValue metadata = true := by
  unfold findSerialBy listAll
  rw [List.find?_isSome]
  constructor
  · rintro ⟨serial, hserial, hany⟩
    obtain ⟨metadata, hcache, hvalue⟩ := (Option.any_eq_true _ _).mp hany
    exact ⟨metadata, List.mem_filterMap.mpr ⟨serial, hserial, hcache⟩, hvalue⟩
  · rintro ⟨metadata, hmem, hvalue⟩
    obtain ⟨serial, hserial, hcache⟩ := List.mem_filterMap.mp hmem
    exact ⟨serial, hserial, by rw [hcache]; exact hvalue⟩

@[simp] theorem cache_save_self : (a.save serial metadata).cache serial = some metadata := Function.update_self ..

theorem cache_save_of_ne {other : ℕ} (h : other ≠ serial) : (a.save serial metadata).cache other = a.cache other :=
  Function.update_of_ne h ..

end StorageAdapter

/-- The adapters of the processes, and their files. The orchestrator constructs its adapter when it first needs it. -/
structure Storages (α : Type*) where
  adapter : Process → Option (StorageAdapter α)
  files : StorageFiles α

namespace Storages

/-- Nothing was saved yet. -/
def fresh : Storages α where
  adapter p := if p = .orchestrator then none else some (.opened .empty)
  files := .empty

variable (d : Storages α) (p : Process)

/-- The adapter of a process. -/
def storage : StorageAdapter α := (d.adapter p).getD (.opened d.files)

/-- The adapter is constructed if it was not yet. -/
def construct : Storages α := { d with adapter := Function.update d.adapter p (some (d.storage p)) }

/-- A process saves an iNFT of the collection. -/
def save (serial : ℕ) (metadata : α) : Storages α where
  adapter := Function.update d.adapter p (some ((d.storage p).save serial metadata))
  files := ((d.storage p).save serial metadata).write (serial ∉ (d.storage p).index) d.files

/-- A process saves an iNFT of another collection, whose serial number may be new to it. -/
def saveOther (isNew : Bool) : Storages α where
  adapter := Function.update d.adapter p (some (d.storage p))
  files := (d.storage p).write isNew d.files

/-- A process is started again. -/
def restart : Storages α :=
  { d with adapter := Function.update d.adapter p (if p = .orchestrator then none else some (.opened d.files)) }

variable {d p} {d' : Storages α} {serial : ℕ} {metadata : α} {isNew : Bool}

theorem storage_congr (h : d'.adapter p = d.adapter p) (hp : (d.adapter p).isSome) : d'.storage p = d.storage p := by
  obtain ⟨a, ha⟩ := Option.isSome_iff_exists.mp hp
  unfold storage
  rw [h, ha]
  rfl

@[simp] theorem storage_save_self : (d.save p serial metadata).storage p = (d.storage p).save serial metadata := by
  simp [storage, save]

@[simp] theorem storage_saveOther_self : (d.saveOther p isNew).storage p = d.storage p := by
  simp [storage, saveOther]

end Storages

end AuditGuard
