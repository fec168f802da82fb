import AuditGuard.Inft.Storage
import AuditGuard.Library.Transition

/-!
# The minting of Contract Health iNFTs

A Contract Health iNFT is minted by the discovery listener for a discovery message (the handler of `main` in
`discovery-listener.js`), by the event listener for a `VaultCreated` event (`_onVaultFactory_VaultCreated` of
`event-listener.js`), and by the orchestrator for a published report (`handleReportPublished` of `orchestrator.js`).
Each of the three processes looks into a map of its own first.

Between two awaits a handler runs without interruption. The handlers of discovery messages run concurrently, and so do
the mints of the orchestrator; the event listener handles one event after the other. A mint that was sent is taken or
refused by the ledger at any time, also after its handler was told of an error, or its process ended.

What a handler looks at says nothing of the mints of other processes, of the mints that other handlers wait for, and
of those that an error or a restart made its process forget. `certain_iff_careful` says when this does no harm: a map
has every mint of its own process that was not lost and that no handler still waits for (`World.Recorded`).
-/

namespace AuditGuard.ContractHealth

/-- The address of the audited contract, in the metadata of a Contract Health iNFT. -/
structure Metadata where
  contractAddress : String

/-- What a handler waits for. -/
inductive Pos
  /-- `mintAuditJobINFT`. -/
  | mintAuditJob
  /-- The publication of the new Audit Job iNFT. -/
  | publishAuditJob
  /-- `_mintNFT("contractHealth", metadata)`, whose transaction is the mint `m`. -/
  | mintNFT (m : ℕ)
  /-- What is left of `storage.save` for the new iNFT. -/
  | save (serial : ℕ)
  /-- `updateContractVaultInfo`, before its save. -/
  | updateVault (serial : ℕ)
  /-- The last publication. -/
  | publish
  | finished
deriving DecidableEq

/-- Whether the await may throw. The errors of a save are caught where they occur. -/
def Pos.throws : Pos → Bool
  | .save _ => false
  | .finished => false
  | _ => true

/-- A handler that was called. -/
structure Task where
  process : Process
  contractAddress : String
  pos : Pos

/-- What the ledger did with a mint. -/
inductive Outcome
  | pending
  | minted (serial : ℕ)
  | refused
deriving DecidableEq

/-- Whether an iNFT was minted. -/
def Outcome.isMinted : Outcome → Bool
  | .minted _ => true
  | _ => false

/-- A transaction that mints a Contract Health iNFT for an address. -/
structure Mint where
  process : Process
  contractAddress : String
  outcome : Outcome

/-- `address.toLowerCase()`. -/
def toLowerCase (address : String) : String := address.toLower

/-- The three processes, their files, and the ledger. -/
structure World where
  /-- The map of the discovery listener. -/
  knownContracts : String → Option ℕ
  /-- `_contractIndex` of the event listener. -/
  contractIndex : String → Option ℕ
  /-- The set of the orchestrator. -/
  contractHealthNFTMinted : List String
  storages : Storages Metadata
  /-- All handlers, oldest first. -/
  tasks : List Task
  /-- All mints, oldest first. -/
  mints : List Mint
  /-- The mints that their process knows nothing of any more; the code does not keep it. -/
  lost : ℕ → Bool

/-- Nothing was minted yet. -/
def World.fresh : World where
  knownContracts _ := none
  contractIndex _ := none
  contractHealthNFTMinted := []
  storages := .fresh
  tasks := []
  mints := []
  lost _ := false

namespace World

variable (w : World)

/-- `_initIndices()`, for the Contract Health iNFTs. -/
def initIndices (a : StorageAdapter Metadata) : String → Option ℕ :=
  a.listAll.foldl (fun index item =>
    if item.contractAddress = "" then index
    else Function.update index (toLowerCase item.contractAddress)
      (a.findSerialBy fun m => m.contractAddress = item.contractAddress)) fun _ => none

/-- The task `d` goes on to `pos`. -/
def move (d : ℕ) (pos : Pos) : World := { w with tasks := w.tasks.modify d fun t => { t with pos := pos } }

/-- A handler is called, which first waits at `pos`. -/
def call (p : Process) (contractAddress : String) (pos : Pos) : World :=
  { w with tasks := w.tasks ++ [⟨p, contractAddress, pos⟩] }

/-- `mintContractHealthINFT(contractInfo)`, up to its first await. -/
def mintContractHealthINFT (p : Process) (contractAddress : String) : World :=
  { w with mints := w.mints ++ [⟨p, contractAddress, .pending⟩] }

/-- A handler of the task `d` goes on after its await. -/
def resume (d : ℕ) (t : Task) : Option World :=
  match t.pos with
  | .mintAuditJob => some { w.move d .publishAuditJob with storages := w.storages.saveOther t.process true }
  | .publishAuditJob =>
    match w.knownContracts (toLowerCase t.contractAddress) with
    | none => some ((w.mintContractHealthINFT .discoveryListener t.contractAddress).move d (.mintNFT w.mints.length))
    | some _ => some (w.move d .finished)
  | .mintNFT m =>
    -- The receipt has the serial number.
    match w.mints[m]?.map Mint.outcome with
    | some (.minted serial) =>
      some { w.move d (.save serial) with storages := w.storages.save t.process serial ⟨t.contractAddress⟩ }
    | _ => none
  | .save serial =>
    let key := toLowerCase t.contractAddress
    match t.process with
    | .discoveryListener =>
      some { w.move d .publish with knownContracts := Function.update w.knownContracts key (some serial) }
    | .eventListener =>
      some { w.move d (.updateVault serial) with
        contractIndex := Function.update w.contractIndex key (some serial) }
    | .orchestrator => some (w.move d .finished)
  | .updateVault serial =>
    match (w.storages.storage t.process).cache serial with
    | some metadata => some { w.move d .publish with storages := w.storages.save t.process serial metadata }
    | none => some (w.move d .finished)
  | .publish => some (w.move d .finished)
  | .finished => none

/-- A `VaultCreated` event is handled, up to the first await. -/
def vaultCreated (contractAddress : String) : World :=
  match w.contractIndex (toLowerCase contractAddress) with
  | none =>
    (w.mintContractHealthINFT .eventListener contractAddress).call .eventListener contractAddress
      (.mintNFT w.mints.length)
  | some serial => w.call .eventListener contractAddress (.updateVault serial)

/-- The part of `handleReportPublished` that mints, with or without credentials. -/
def reportPublished (credentials : Bool) (contractAddress : String) : World :=
  let key := toLowerCase contractAddress
  if key = "" ∨ key ∈ w.contractHealthNFTMinted then w
  else
    let w := { w with contractHealthNFTMinted := w.contractHealthNFTMinted ++ [key] }
    if credentials then
      -- `ensureService()` constructs the adapter.
      let w := { w with storages := w.storages.construct .orchestrator }
      (w.mintContractHealthINFT .orchestrator contractAddress).call .orchestrator contractAddress
        (.mintNFT w.mints.length)
    else w

/-- A process has the contract in its map, or in its set. -/
def knows (p : Process) (key : String) : Bool :=
  match p with
  | .discoveryListener => (w.knownContracts key).isSome
  | .eventListener => (w.contractIndex key).isSome
  | .orchestrator => decide (key ∈ w.contractHealthNFTMinted)

/-- The process ends, and is started again. -/
def reopen (p : Process) : World :=
  { w with
    tasks := w.tasks.map fun (t : Task) => if t.process = p then { t with pos := .finished } else t
    storages := w.storages.restart p }

/-- The maps of a process are in its memory. The event listener fills its own again from the files. -/
def emptyMaps (p : Process) : World :=
  match p with
  | .discoveryListener => { w with knownContracts := fun _ => none }
  | .eventListener => { w with contractIndex := initIndices (w.storages.storage p) }
  | .orchestrator => { w with contractHealthNFTMinted := [] }

/-- The mints of the process that are in no map after its restart are lost. -/
def forget (p : Process) : World :=
  { w with lost := fun m => w.lost m || w.mints[m]?.any fun mint =>
    mint.process = p && !w.knows p (toLowerCase mint.contractAddress) }

/-- The process is restarted. -/
def restart (p : Process) : World := ((w.reopen p).emptyMaps p).forget p

/-- The handler of a task throws. Its process does not get to know of the mint that it waited for, unless the
orchestrator does, which has noted the contract before. -/
def throw (d : ℕ) (t : Task) : World :=
  { w.move d .finished with lost := fun m => w.lost m || (decide (t.pos = .mintNFT m) && t.process ≠ .orchestrator) }

/-! ## The ledger -/

/-- The ledger does something with the mint `m`. -/
def settle (m : ℕ) (outcome : Outcome) : World :=
  { w with mints := w.mints.modify m fun mint => { mint with outcome := outcome } }

/-- How many mints the ledger took. -/
def supply : ℕ := w.mints.countP fun m => m.outcome.isMinted

end World

/-! ## The system -/

/-- What may happen next. -/
inductive Label
  /-- A discovery message comes. -/
  | discovery (contractAddress : String)
  /-- The event listener comes to a `VaultCreated` event. -/
  | vaultCreated (contractAddress : String)
  /-- A report is published. -/
  | reportPublished (contractAddress : String)
  /-- The await of a handler is over, and it goes on. -/
  | goesOn (d : ℕ)
  /-- The await of a handler throws, and the handler ends. -/
  | throws (d : ℕ)
  /-- A process saves an iNFT of another collection. -/
  | savesOther (p : Process) (isNew : Bool)
  | restarts (p : Process)
  /-- The ledger takes a mint. -/
  | lands (m : ℕ)
  /-- The ledger refuses a mint, or it never came there. -/
  | refuses (m : ℕ)

/-- The step under a label, where it can be taken. -/
def next (credentials : Bool) (w : World) : Label → Option World
  | .discovery contractAddress => some (w.call .discoveryListener contractAddress .mintAuditJob)
  | .vaultCreated contractAddress =>
    -- The loop of the event listener waits for each handler.
    if ∀ t ∈ w.tasks, t.process = .eventListener → t.pos = .finished then some (w.vaultCreated contractAddress)
    else none
  | .reportPublished contractAddress => some (w.reportPublished credentials contractAddress)
  | .goesOn d => w.tasks[d]?.bind (w.resume d)
  | .throws d => w.tasks[d]?.bind fun t => if t.pos.throws then some (w.throw d t) else none
  | .savesOther p isNew => some { w with storages := w.storages.saveOther p isNew }
  | .restarts p => some (w.restart p)
  | .lands m =>
    if w.mints[m]?.map Mint.outcome = some .pending then some (w.settle m (.minted (w.supply + 1))) else none
  | .refuses m => if w.mints[m]?.map Mint.outcome = some .pending then some (w.settle m .refused) else none

/-- The system, with or without credentials for the orchestrator. -/
def system (credentials : Bool) : TransitionSystem World Label where
  init w := w = .fresh
  step w l w' := next credentials w l = some w'

/-- Each contract has at most one Contract Health iNFT, whatever the case of its address. -/
def World.Unique (w : World) : Prop :=
  ∀ key, (w.mints.countP fun m => toLowerCase m.contractAddress = key ∧ m.outcome.isMinted) ≤ 1

open TransitionSystem

variable {credentials : Bool} {w w' : World} {l : Label} {m : ℕ}

/-- How many mints of a contract the ledger has taken. -/
def World.taken (w : World) (key : String) : ℕ :=
  w.mints.countP fun m => toLowerCase m.contractAddress = key ∧ m.outcome.isMinted

/-- How many mints of a contract the ledger has taken, or may still take. -/
def World.live (w : World) (key : String) : ℕ :=
  w.mints.countP fun m => toLowerCase m.contractAddress = key ∧ m.outcome ≠ .refused

/-- The process that looks into its map, and the address that it looks for. -/
def looks (credentials : Bool) (w : World) : Label → Option (Process × String)
  | .vaultCreated a => some (.eventListener, a)
  | .reportPublished a => if toLowerCase a = "" ∨ credentials = false then none else some (.orchestrator, a)
  | .goesOn d => w.tasks[d]?.bind fun t =>
      if t.pos = .publishAuditJob then some (.discoveryListener, t.contractAddress) else none
  | _ => none

/-- A handler waits for a mint, or saves its iNFT, and has not written its map yet. -/
def Pos.minting : Pos → Bool
  | .mintNFT _ | .save _ => true
  | _ => false

/-- A process that looks for a contract has it in its map, or each mint of it that was not refused is one of this very
process, was lost in no error and no restart, and has no handler of the process under way that is still to write the
map. -/
def Careful (credentials : Bool) (w : World) (l : Label) : Prop :=
  ∀ look ∈ looks credentials w l, w.knows look.1 (toLowerCase look.2) = true ∨
    ∀ mint ∈ w.mints.zipIdx, toLowerCase mint.1.contractAddress = toLowerCase look.2 → mint.1.outcome ≠ .refused →
      mint.1.process = look.1 ∧ w.lost mint.2 = false ∧
        ∀ t ∈ w.tasks, t.process = look.1 → toLowerCase t.contractAddress = toLowerCase look.2 →
          t.pos.minting = false

/-- The mint that a step sends: its process, and its address. -/
def sends (credentials : Bool) (w : World) (l : Label) : Option (Process × String) :=
  (looks credentials w l).filter fun look => !w.knows look.1 (toLowerCase look.2)

/-- A mint is sent only for a contract of which no mint was taken, or may still be. -/
def SendsFirst (credentials : Bool) (w : World) (l : Label) : Prop :=
  ∀ look ∈ sends credentials w l, w.live (toLowerCase look.2) = 0

/-- Whether a step is one of the ledger. -/
def Label.ofLedger : Label → Bool
  | .lands _ => true
  | .refuses _ => true
  | _ => false

/-- Whatever the ledger does with the mints that were sent, each contract has at most one iNFT. -/
def Certain (credentials : Bool) (w : World) : Prop :=
  ∀ ls w', (∀ l ∈ ls, l.ofLedger = true) → Path (system credentials).step w ls w' → w'.Unique

/-! ## What a step does to the mints -/

/-- A pending mint becomes what the ledger makes of it, and the others stay. -/
theorem exists_settle (h : w.mints[m]?.map Mint.outcome = some .pending) :
    ∃ pre p address post, w.mints = pre ++ ⟨p, address, .pending⟩ :: post ∧
      ∀ outcome, (w.settle m outcome).mints = pre ++ ⟨p, address, outcome⟩ :: post := by
  obtain ⟨mint, hmint, hpending⟩ := Option.map_eq_some_iff.mp h
  obtain ⟨hm, hget⟩ := List.getElem?_eq_some_iff.mp hmint
  refine ⟨w.mints.take m, mint.process, mint.contractAddress, w.mints.drop (m + 1), ?_, fun outcome => ?_⟩
  · calc w.mints = w.mints.take m ++ w.mints[m] :: w.mints.drop (m + 1) := by simp
      _ = _ := by rw [hget, ← hpending]
  · calc (w.settle m outcome).mints = w.mints.modify m fun mint => { mint with outcome := outcome } := rfl
      _ = w.mints.take m ++ { w.mints[m] with outcome := outcome } :: w.mints.drop (m + 1) :=
        List.modify_eq_take_cons_drop hm
      _ = _ := by rw [hget]

/-- Who does not look sends no mint. -/
theorem sends_of_looks_none (h : looks credentials w l = none) : sends credentials w l = none := by
  rw [sends, h]
  rfl

/-- Who looks sends the mint, unless the contract is in its map. -/
theorem sends_of_looks {look : Process × String} (h : looks credentials w l = some look) :
    sends credentials w l = if w.knows look.1 (toLowerCase look.2) = true then none else some look := by
  rw [sends, h, Option.filter_some]
  cases w.knows look.1 (toLowerCase look.2) <;> rfl

theorem mints_restart (p : Process) : (w.restart p).mints = w.mints := by cases p <;> rfl

theorem vaultCreated_eq (a : String) : w.vaultCreated a =
    if w.knows .eventListener (toLowerCase a) = true then
      w.call .eventListener a (.updateVault ((w.contractIndex (toLowerCase a)).getD 0))
    else (w.mintContractHealthINFT .eventListener a).call .eventListener a (.mintNFT w.mints.length) := by
  unfold World.vaultCreated World.knows
  dsimp only
  cases w.contractIndex (toLowerCase a) <;> rfl

theorem reportPublished_eq (a : String) : w.reportPublished credentials a =
    if toLowerCase a = "" ∨ w.knows .orchestrator (toLowerCase a) = true then w
    else if credentials = true then
      (({ w with
        contractHealthNFTMinted := w.contractHealthNFTMinted ++ [toLowerCase a]
        storages := w.storages.construct .orchestrator } : World).mintContractHealthINFT .orchestrator a).call
          .orchestrator a (.mintNFT w.mints.length)
    else { w with contractHealthNFTMinted := w.contractHealthNFTMinted ++ [toLowerCase a] } := by
  unfold World.reportPublished World.knows
  dsimp only
  simp only [decide_eq_true_eq]

theorem resume_publishAuditJob {d : ℕ} {t : Task} (hpos : t.pos = .publishAuditJob) : w.resume d t = some
    (if w.knows .discoveryListener (toLowerCase t.contractAddress) = true then w.move d .finished
    else (w.mintContractHealthINFT .discoveryListener t.contractAddress).move d (.mintNFT w.mints.length)) := by
  unfold World.resume World.knows
  rw [hpos]
  dsimp only
  cases w.knownContracts (toLowerCase t.contractAddress) <;> rfl

/-- A handler that goes on elsewhere sends nothing. -/
theorem mints_resume {d : ℕ} {t : Task} (hpos : t.pos ≠ .publishAuditJob) (h : w.resume d t = some w') :
    w'.mints = w.mints ∧ w'.lost = w.lost := by
  obtain ⟨p, a, pos⟩ := t
  unfold World.resume at h
  dsimp only at h
  split at h
  case h_2 => exact absurd rfl hpos
  case h_7 => cases h
  case h_4 =>
    cases p <;> obtain rfl := Option.some.inj h <;> exact ⟨rfl, rfl⟩
  case h_3 =>
    split at h
    · obtain rfl := Option.some.inj h
      exact ⟨rfl, rfl⟩
    · cases h
  case h_5 =>
    split at h <;> obtain rfl := Option.some.inj h <;> exact ⟨rfl, rfl⟩
  all_goals
    obtain rfl := Option.some.inj h
    exact ⟨rfl, rfl⟩

/-- A step of a process sends the mint that it sends, and no other. -/
theorem mints_next (h : next credentials w l = some w') (hl : l.ofLedger = false) :
    w'.mints = w.mints ++ (sends credentials w l).toList.map (fun look => ⟨look.1, look.2, .pending⟩) := by
  cases l with
  | discovery a =>
    obtain rfl := Option.some.inj h
    simp [World.call, @sends_of_looks_none credentials w (.discovery a) rfl]
  | vaultCreated a =>
    simp only [next, Option.ite_none_right_eq_some, Option.some.injEq] at h
    obtain ⟨-, rfl⟩ := h
    rw [vaultCreated_eq, sends_of_looks (l := .vaultCreated a) rfl]
    split_ifs
    · simp [World.call]
    · simp [World.call, World.mintContractHealthINFT]
  | reportPublished a =>
    obtain rfl := Option.some.inj h
    rw [reportPublished_eq]
    by_cases hlook : toLowerCase a = "" ∨ credentials = false
    · have hlooks : looks credentials w (.reportPublished a) = none := if_pos hlook
      rw [sends_of_looks_none hlooks]
      split_ifs with hknown hcredentials
      · simp
      · simp_all
      · simp
    · have hlooks : looks credentials w (.reportPublished a) = some (.orchestrator, a) := if_neg hlook
      rw [sends_of_looks hlooks]
      rw [not_or, Bool.not_eq_false] at hlook
      simp only [hlook.1, hlook.2, false_or, if_true]
      split_ifs
      · simp
      · simp [World.call, World.mintContractHealthINFT]
  | goesOn d =>
    simp only [next, Option.bind_eq_some_iff] at h
    obtain ⟨t, ht, hresume⟩ := h
    by_cases hpos : t.pos = .publishAuditJob
    · have hlooks : looks credentials w (.goesOn d) = some (.discoveryListener, t.contractAddress) := by
        simp [looks, ht, hpos]
      rw [resume_publishAuditJob hpos] at hresume
      rw [sends_of_looks hlooks, ← Option.some.inj hresume]
      split_ifs
      · simp [World.move]
      · simp [World.move, World.mintContractHealthINFT]
    · have hlooks : looks credentials w (.goesOn d) = none := by simp [looks, ht, hpos]
      rw [sends_of_looks_none hlooks, (mints_resume hpos hresume).1]
      simp
  | throws d =>
    simp only [next, Option.bind_eq_some_iff, Option.ite_none_right_eq_some, Option.some.injEq] at h
    obtain ⟨t, -, -, rfl⟩ := h
    simp [World.throw, World.move, sends, looks]
  | savesOther p isNew =>
    obtain rfl := Option.some.inj h
    simp [sends, looks]
  | restarts p =>
    obtain rfl := Option.some.inj h
    rw [mints_restart]
    simp [sends, looks]
  | lands m => cases hl
  | refuses m => cases hl

/-- The ledger settles one mint that was pending. -/
theorem mints_next_of_ledger (h : next credentials w l = some w') (hl : l.ofLedger = true) :
    sends credentials w l = none ∧ ∃ pre p address outcome post, w.mints = pre ++ ⟨p, address, .pending⟩ :: post ∧
      w'.mints = pre ++ ⟨p, address, outcome⟩ :: post := by
  have hdecides : ∀ m outcome, w.mints[m]?.map Mint.outcome = some .pending → w.settle m outcome = w' →
      ∃ pre p address outcome post, w.mints = pre ++ ⟨p, address, .pending⟩ :: post ∧
        w'.mints = pre ++ ⟨p, address, outcome⟩ :: post := by
    intro m outcome hpending hw'
    obtain ⟨pre, p, address, post, hmints, hsettle⟩ := exists_settle hpending
    exact ⟨pre, p, address, outcome, post, hmints, by rw [← hw', hsettle]⟩
  cases l with
  | lands m =>
    simp only [next, Option.ite_none_right_eq_some, Option.some.injEq] at h
    exact ⟨sends_of_looks_none rfl, hdecides m _ h.1 h.2⟩
  | refuses m =>
    simp only [next, Option.ite_none_right_eq_some, Option.some.injEq] at h
    exact ⟨sends_of_looks_none rfl, hdecides m _ h.1 h.2⟩
  | _ => cases hl

/-- A step of a process adds what it sends to the live mints. -/
theorem live_next (h : next credentials w l = some w') (hl : l.ofLedger = false) (key : String) :
    w'.live key = w.live key + (sends credentials w l).toList.countP fun look => toLowerCase look.2 = key := by
  unfold World.live
  rw [mints_next h hl, List.countP_append, List.countP_map]
  congr 2
  funext a
  simp

/-- The ledger adds no live mint. -/
theorem live_next_of_ledger (h : next credentials w l = some w') (hl : l.ofLedger = true) (key : String) :
    w'.live key ≤ w.live key := by
  obtain ⟨-, pre, p, address, outcome, post, hmints, hmints'⟩ := mints_next_of_ledger h hl
  have hone : ([⟨p, address, outcome⟩] : List Mint).countP
      (fun m => toLowerCase m.contractAddress = key ∧ m.outcome ≠ .refused) ≤
      ([⟨p, address, .pending⟩] : List Mint).countP
        (fun m => toLowerCase m.contractAddress = key ∧ m.outcome ≠ .refused) := by
    by_cases hkey : toLowerCase address = key
    · simp only [List.countP_singleton, hkey]
      cases outcome <;> simp
    · simp [hkey]
  unfold World.live
  rw [hmints, hmints', List.append_cons pre ⟨p, address, outcome⟩, List.append_cons pre ⟨p, address, .pending⟩]
  simp only [List.countP_append]
  omega

/-- A step keeps at most one mint for each contract if and only if it sends none but the first. -/
theorem live_le_one_iff (hw : ∀ key, w.live key ≤ 1) (h : next credentials w l = some w') :
    (∀ key, w'.live key ≤ 1) ↔ SendsFirst credentials w l := by
  unfold SendsFirst
  cases hl : l.ofLedger with
  | true =>
    obtain ⟨hsends, -⟩ := mints_next_of_ledger h hl
    rw [hsends]
    constructor
    · intro _ a ha
      cases ha
    · intro _ key
      exact Nat.le_trans (live_next_of_ledger h hl key) (hw key)
  | false =>
    have hlive := live_next h hl
    cases hsends : sends credentials w l with
    | none =>
      rw [hsends] at hlive
      simpa [hlive] using hw
    | some a =>
      rw [hsends] at hlive
      simp only [Option.toList_some, List.countP_singleton, decide_eq_true_eq] at hlive
      constructor
      · intro hw' b hb
        obtain rfl := Option.some.inj hb
        have hkey := hw' (toLowerCase a.2)
        rw [hlive, if_pos rfl] at hkey
        omega
      · intro hcareful key
        have hzero := hcareful a rfl
        have hkey := hw key
        rw [hlive]
        split
        case isTrue heq =>
          rw [← heq]
          omega
        case isFalse => omega

/-! ## What the ledger may do -/

/-- What was taken is live. -/
theorem World.taken_le_live (key : String) : w.taken key ≤ w.live key := by
  apply List.countP_mono_left
  intro m _ hm
  simp only [decide_eq_true_eq] at hm ⊢
  refine ⟨hm.1, fun hrefused => ?_⟩
  rw [hrefused] at hm
  exact absurd hm.2 (by decide)

/-- The ledger can take every mint that is pending. -/
theorem exists_all_taken (w : World) : ∃ ls w', (∀ l ∈ ls, l.ofLedger = true) ∧
    Path (system credentials).step w ls w' ∧ ∀ key, w'.taken key = w.live key := by
  -- By induction on the number of mints that are pending.
  generalize hn : w.mints.countP (fun m => m.outcome = .pending) = n
  induction n generalizing w with
  | zero =>
    refine ⟨[], w, by simp, .nil, fun key => List.countP_congr fun m hm => ?_⟩
    have hpending := List.countP_eq_zero.mp hn m hm
    cases hout : m.outcome <;> simp_all [Outcome.isMinted]
  | succ n ih =>
    obtain ⟨mint, hmem, hpending⟩ := List.countP_pos_iff.mp
      (by omega : 0 < w.mints.countP (fun m => m.outcome = .pending))
    obtain ⟨m, hget⟩ := List.mem_iff_getElem?.mp hmem
    have hm : w.mints[m]?.map Mint.outcome = some .pending := by
      rw [hget]
      simpa using hpending
    obtain ⟨pre, p, address, post, hmints, hsettle⟩ := exists_settle hm
    have hstep : next credentials w (.lands m) = some (w.settle m (.minted (w.supply + 1))) := if_pos hm
    have hcount : (w.settle m (.minted (w.supply + 1))).mints.countP (fun m => m.outcome = .pending) = n := by
      rw [hmints] at hn
      rw [hsettle]
      simp only [List.countP_append, List.countP_cons, decide_true, if_true, reduceCtorEq, decide_false,
        Bool.false_eq_true, if_false] at hn ⊢
      omega
    obtain ⟨ls, w', hls, hpath, htaken⟩ := ih _ hcount
    refine ⟨.lands m :: ls, w', ?_, Path.append (.single hstep) hpath, fun key => ?_⟩
    · intro l hl
      rcases List.mem_cons.mp hl with rfl | hl
      · rfl
      · exact hls l hl
    · rw [htaken]
      unfold World.live
      rw [hmints, hsettle]
      simp [List.countP_cons]

/-- There is one iNFT for a contract at most, whatever the ledger does, if there is one live mint at most. -/
theorem certain_iff : Certain credentials w ↔ ∀ key, w.live key ≤ 1 := by
  constructor
  · intro hcertain key
    obtain ⟨ls, w', hls, hpath, htaken⟩ := @exists_all_taken credentials w
    rw [← htaken]
    exact hcertain ls w' hls hpath key
  · intro hw ls w' hls hpath
    have hw' : ∀ key, w'.live key ≤ 1 :=
      hpath.induct_mem (P := fun w => ∀ key, w.live key ≤ 1)
        (fun s l t hl hs hstep key => Nat.le_trans (live_next_of_ledger hstep (hls l hl) key) (hs key)) hw
    exact fun key => Nat.le_trans (World.taken_le_live key) (hw' key)

/-! ## What the maps have -/

/-- A handler of the process of the mint is still to write its map. -/
def World.UnderWay (w : World) (m : ℕ) (mint : Mint) : Prop :=
  mint.process ≠ .orchestrator ∧ ∃ (d : ℕ) (t : Task), w.tasks[d]? = some t ∧ t.process = mint.process ∧
    toLowerCase t.contractAddress = toLowerCase mint.contractAddress ∧
    (t.pos = .mintNFT m ∨ ∃ serial, t.pos = .save serial)

/-- Each mint that was not lost is in the map of its process, or has a handler under way. -/
structure World.Recorded (w : World) : Prop where
  started : ∀ t ∈ w.tasks, t.pos = .mintAuditJob ∨ t.pos = .publishAuditJob → t.process = .discoveryListener
  recorded : ∀ m mint, w.mints[m]? = some mint → w.lost m = false →
    w.knows mint.process (toLowerCase mint.contractAddress) = true ∨ w.UnderWay m mint

namespace World.Recorded

theorem fresh : World.fresh.Recorded where
  started := by simp [World.fresh]
  recorded := by simp [World.fresh]

/-- A handler is called. -/
theorem call {p : Process} {a : String} {pos : Pos} (h : w.Recorded)
    (hpos : pos = .mintAuditJob ∨ pos = .publishAuditJob → p = .discoveryListener) : (w.call p a pos).Recorded where
  started t ht hstart := by
    rcases List.mem_append.mp ht with ht | ht
    · exact h.started t ht hstart
    · obtain rfl := List.mem_singleton.mp ht
      exact hpos hstart
  recorded m mint hmint hlost := by
    refine (h.recorded m mint hmint hlost).imp id fun ⟨hne, d, t, ht, hway⟩ => ⟨hne, d, t, ?_, hway⟩
    exact (List.getElem?_append_left (List.getElem?_eq_some_iff.mp ht).1).trans ht

/-- A handler goes straight to the waiting for a mint. -/
theorem call_mintNFT {p : Process} {a : String} {m : ℕ} (h : w.Recorded) : (w.call p a (.mintNFT m)).Recorded :=
  h.call nofun

/-- A mint is sent that is in the map of its process, or has a handler. -/
theorem mint {p : Process} {a : String} (h : w.Recorded)
    (hnew : w.knows p (toLowerCase a) = true ∨ w.UnderWay w.mints.length ⟨p, a, .pending⟩) :
    (w.mintContractHealthINFT p a).Recorded where
  started := h.started
  recorded m mint hmint hlost := by
    rcases Nat.lt_trichotomy m w.mints.length with hlt | rfl | hgt
    · exact h.recorded m mint ((List.getElem?_append_left hlt).symm.trans hmint) hlost
    · obtain rfl : ⟨p, a, .pending⟩ = mint := Option.some.inj (List.getElem?_concat_length.symm.trans hmint)
      exact hnew
    · have hlen := (List.getElem?_eq_some_iff.mp hmint).1
      simp only [mintContractHealthINFT, List.length_append, List.length_singleton] at hlen
      omega

/-- The maps get more, and nothing else changes. -/
theorem of_knows (h : w.Recorded) (hmints : w'.mints = w.mints) (hlost : w'.lost = w.lost) (htasks : w'.tasks = w.tasks)
    (hknows : ∀ p key, w.knows p key = true → w'.knows p key = true) : w'.Recorded where
  started := by
    rw [htasks]
    exact h.started
  recorded m mint hmint hm := by
    rw [hmints] at hmint
    rw [hlost] at hm
    refine (h.recorded m mint hmint hm).imp (hknows _ _) fun hway => ?_
    unfold UnderWay at hway ⊢
    rwa [htasks]

/-- A handler goes on. If it was under way with a mint that is not lost now, it is still, or has written its map. -/
theorem move {d : ℕ} {t : Task} {pos : Pos} (h : w.Recorded) (ht : w.tasks[d]? = some t) (hmints : w'.mints = w.mints)
    (hlost : ∀ m, w'.lost m = false → w.lost m = false) (htasks : w'.tasks = (w.move d pos).tasks)
    (hpos : pos = .mintAuditJob ∨ pos = .publishAuditJob → t.process = .discoveryListener)
    (hknows : ∀ p key, w.knows p key = true → w'.knows p key = true)
    (hown : ∀ m, w'.lost m = false → t.process ≠ .orchestrator →
      (t.pos = .mintNFT m ∨ ∃ serial, t.pos = .save serial) →
      w'.knows t.process (toLowerCase t.contractAddress) = true ∨ pos = .mintNFT m ∨ ∃ serial, pos = .save serial) :
    w'.Recorded where
  started t' ht' hstart := by
    rw [htasks] at ht'
    obtain ⟨i, hi⟩ := List.mem_iff_getElem?.mp ht'
    rw [World.move, List.getElem?_modify] at hi
    obtain ⟨t₀, ht₀, rfl⟩ := Option.map_eq_some_iff.mp hi
    by_cases hdi : d = i
    · subst hdi
      obtain rfl := Option.some.inj (ht.symm.trans ht₀)
      simp only [if_true] at hstart ⊢
      exact hpos hstart
    · simp only [hdi, if_false] at hstart ⊢
      exact h.started t₀ (List.mem_of_getElem? ht₀) hstart
  recorded m mint hmint hm := by
    rw [hmints] at hmint
    rcases h.recorded m mint hmint (hlost m hm) with hknown | ⟨hne, i, t', ht', hprocess, haddress, hway⟩
    · exact .inl (hknows _ _ hknown)
    · have hmoved : w'.tasks[i]? = some (if d = i then { t' with pos := pos } else t') := by
        rw [htasks, World.move, List.getElem?_modify, ht']
        by_cases hdi : d = i <;> simp [hdi]
      by_cases hdi : d = i
      · subst hdi
        obtain rfl := Option.some.inj (ht.symm.trans ht')
        rw [if_pos rfl] at hmoved
        rcases hown m hm (by rwa [hprocess]) hway with hknown | hstill
        · rw [hprocess, haddress] at hknown
          exact .inl hknown
        · exact .inr ⟨hne, d, _, hmoved, hprocess, haddress, hstill⟩
      · rw [if_neg hdi] at hmoved
        exact .inr ⟨hne, i, t', hmoved, hprocess, haddress, hway⟩

/-- The ledger does something with a mint. -/
theorem settle {outcome : Outcome} (h : w.Recorded) : (w.settle m outcome).Recorded where
  started := h.started
  recorded i mint hmint hlost := by
    rw [World.settle, List.getElem?_modify] at hmint
    obtain ⟨mint₀, hmint₀, rfl⟩ := Option.map_eq_some_iff.mp hmint
    have hold := h.recorded i mint₀ hmint₀ hlost
    by_cases hmi : m = i
    · simp only [hmi, if_true]
      exact hold
    · simp only [hmi, if_false]
      exact hold

/-- A process starts again, and forgets the mints that are in no map of it then. -/
theorem restart (h : w.Recorded) (p : Process) : (w.restart p).Recorded where
  started t ht hstart := by
    have htasks : (w.restart p).tasks = (w.reopen p).tasks := by cases p <;> rfl
    rw [htasks] at ht
    obtain ⟨t₀, ht₀, rfl⟩ := List.mem_map.mp ht
    by_cases hp : t₀.process = p
    · simp [hp] at hstart
    · simp only [hp, if_false] at hstart ⊢
      exact h.started t₀ ht₀ hstart
  recorded m mint hmint hlost := by
    rw [mints_restart] at hmint
    have hforgets : (w.restart p).lost m = (w.lost m || decide (mint.process = p) &&
        !(w.restart p).knows p (toLowerCase mint.contractAddress)) := by
      cases p <;> simp [World.restart, World.forget, World.emptyMaps, World.reopen, hmint, World.knows]
    rw [hforgets, Bool.or_eq_false_iff, Bool.and_eq_false_imp] at hlost
    by_cases hp : mint.process = p
    · left
      simpa [hp] using hlost.2
    · refine (h.recorded m mint hmint hlost.1).imp (fun hknown => ?_)
        fun ⟨hne, d, t, ht, hprocess, hway⟩ => ⟨hne, d, t, ?_, hprocess, hway⟩
      · rw [← hknown]
        cases p <;> cases hq : mint.process <;> first | exact absurd hq hp | rfl
      · have htasks : (w.restart p).tasks = (w.reopen p).tasks := by cases p <;> rfl
        rw [htasks, World.reopen, List.getElem?_map, ht, Option.map_some, if_neg (by rwa [hprocess])]

end World.Recorded

/-- A handler that goes on keeps the invariant. -/
theorem recorded_resume {d : ℕ} {t : Task} (hw : w.Recorded) (ht : w.tasks[d]? = some t)
    (h : w.resume d t = some w') : w'.Recorded := by
  by_cases hpos : t.pos = .publishAuditJob
  · have hprocess := hw.started t (List.mem_of_getElem? ht) (.inr hpos)
    have hmoves : ∀ pos : Pos, (pos = .finished ∨ pos = .mintNFT w.mints.length) → (w.move d pos).Recorded := by
      intro pos hto
      refine hw.move ht rfl (fun _ h => h) rfl (fun _ => hprocess) (fun _ _ h => h) fun m _ _ hway => ?_
      simp [hpos] at hway
    rw [resume_publishAuditJob hpos, Option.some.injEq] at h
    split_ifs at h
    · rw [← h]
      exact hmoves _ (.inl rfl)
    · rw [← h]
      refine World.Recorded.mint (w := w.move d (.mintNFT w.mints.length)) (hmoves _ (.inr rfl)) (.inr ?_)
      refine ⟨nofun, d, { t with pos := .mintNFT w.mints.length }, ?_, hprocess, rfl, .inl rfl⟩
      simp [World.move, ht]
  · obtain ⟨p, a, pos⟩ := t
    unfold World.resume at h
    dsimp only at h hpos
    cases pos with
    | publishAuditJob => exact absurd rfl hpos
    | finished => cases h
    | mintAuditJob =>
      obtain rfl := Option.some.inj h
      exact hw.move ht rfl (fun _ h => h) rfl (fun _ => hw.started _ (List.mem_of_getElem? ht) (.inl rfl))
        (fun _ _ h => h) fun m _ _ hway => by simp at hway
    | mintNFT m =>
      dsimp only at h
      split at h
      · obtain rfl := Option.some.inj h
        exact hw.move ht rfl (fun _ h => h) rfl nofun (fun _ _ h => h) fun _ _ _ _ => .inr (.inr ⟨_, rfl⟩)
      · cases h
    | save serial =>
      cases p with
      | discoveryListener =>
        obtain rfl := Option.some.inj h
        refine hw.move ht rfl (fun _ h => h) rfl nofun (fun p key hknown => ?_) fun _ _ _ _ => .inl ?_
        · cases p <;> simp_all [World.knows, World.move, Function.update_apply, apply_ite]
        · simp [World.knows]
      | eventListener =>
        obtain rfl := Option.some.inj h
        refine hw.move ht rfl (fun _ h => h) rfl nofun (fun p key hknown => ?_) fun _ _ _ _ => .inl ?_
        · cases p <;> simp_all [World.knows, World.move, Function.update_apply, apply_ite]
        · simp [World.knows]
      | orchestrator =>
        obtain rfl := Option.some.inj h
        exact hw.move ht rfl (fun _ h => h) rfl nofun (fun _ _ h => h) fun _ _ hne _ => absurd rfl hne
    | updateVault serial =>
      dsimp only at h
      split at h <;> obtain rfl := Option.some.inj h <;>
        exact hw.move ht rfl (fun _ h => h) rfl nofun (fun _ _ h => h) fun m _ _ hway => by simp at hway
    | publish =>
      obtain rfl := Option.some.inj h
      exact hw.move ht rfl (fun _ h => h) rfl nofun (fun _ _ h => h) fun m _ _ hway => by simp at hway

/-- A step keeps the invariant. -/
theorem recorded_next (hw : w.Recorded) (h : next credentials w l = some w') : w'.Recorded := by
  cases l with
  | discovery a =>
    obtain rfl := Option.some.inj h
    exact hw.call fun _ => rfl
  | vaultCreated a =>
    simp only [next, Option.ite_none_right_eq_some, Option.some.injEq] at h
    obtain ⟨-, rfl⟩ := h
    rw [vaultCreated_eq]
    split_ifs
    · exact hw.call nofun
    · refine World.Recorded.mint (w := w.call .eventListener a (.mintNFT w.mints.length)) hw.call_mintNFT (.inr ?_)
      exact ⟨nofun, w.tasks.length, _, List.getElem?_concat_length, rfl, rfl, .inl rfl⟩
  | reportPublished a =>
    obtain rfl := Option.some.inj h
    rw [reportPublished_eq]
    split_ifs
    · exact hw
    · have hnoted : ({ w with
          contractHealthNFTMinted := w.contractHealthNFTMinted ++ [toLowerCase a]
          storages := w.storages.construct .orchestrator } : World).Recorded := by
        refine hw.of_knows rfl rfl rfl fun p key hknown => ?_
        cases p <;> simp_all [World.knows]
      have hcalled := hnoted.call_mintNFT (p := .orchestrator) (a := a) (m := w.mints.length)
      exact hcalled.mint (.inl (by simp [World.knows, World.call]))
    · refine hw.of_knows rfl rfl rfl fun p key hknown => ?_
      cases p <;> simp_all [World.knows]
  | goesOn d =>
    simp only [next, Option.bind_eq_some_iff] at h
    obtain ⟨t, ht, hresume⟩ := h
    exact recorded_resume hw ht hresume
  | throws d =>
    simp only [next, Option.bind_eq_some_iff, Option.ite_none_right_eq_some, Option.some.injEq] at h
    obtain ⟨t, ht, hthrows, rfl⟩ := h
    refine hw.move ht rfl (fun m hm => ?_) rfl (by simp) (fun _ _ h => h) fun m hm hne hway => ?_
    · exact (Bool.or_eq_false_iff.mp hm).1
    · rcases hway with hpos | ⟨serial, hpos⟩
      · simp [World.throw, hpos, hne] at hm
      · simp [hpos, Pos.throws] at hthrows
  | savesOther p isNew =>
    obtain rfl := Option.some.inj h
    exact hw.of_knows rfl rfl rfl fun _ _ h => h
  | restarts p =>
    obtain rfl := Option.some.inj h
    exact hw.restart p
  | lands m =>
    simp only [next, Option.ite_none_right_eq_some, Option.some.injEq] at h
    rw [← h.2]
    exact hw.settle
  | refuses m =>
    simp only [next, Option.ite_none_right_eq_some, Option.some.injEq] at h
    rw [← h.2]
    exact hw.settle

/-- It holds in every reachable state. -/
theorem recorded_of_reachable (h : (system credentials).Reachable w) : w.Recorded :=
  h.induct (I := World.Recorded) (fun w (hinit : w = .fresh) => hinit ▸ .fresh)
    fun _ _ _ _ hw hstep => recorded_next hw hstep

/-- A process that is careful sends no mint but the first: what it does not find in its map, nobody has minted. -/
theorem careful_iff (hw : w.Recorded) : Careful credentials w l ↔ SendsFirst credentials w l := by
  constructor
  · intro hcareful look hlook
    obtain ⟨hlooks, hunknown⟩ := Option.mem_filter_iff.mp hlook
    rw [Bool.not_eq_true'] at hunknown
    refine List.countP_eq_zero.mpr fun mint hmem hlive => ?_
    simp only [decide_eq_true_eq] at hlive
    obtain ⟨m, hm⟩ := List.mem_iff_getElem?.mp hmem
    rcases hcareful look hlooks with hknown | halone
    · rw [hunknown] at hknown
      cases hknown
    · obtain ⟨hprocess, hlost, hnone⟩ := halone (mint, m) (List.mem_zipIdx_iff_getElem?.mpr hm) hlive.1 hlive.2
      rcases hw.recorded m mint hm hlost with hknown | ⟨-, d, t, ht, htp, hta, hway⟩
      · rw [hprocess, hlive.1, hunknown] at hknown
        cases hknown
      · have hidle := hnone t (List.mem_of_getElem? ht) (htp.trans hprocess) (hta.trans hlive.1)
        rcases hway with hpos | ⟨serial, hpos⟩ <;> rw [hpos] at hidle <;> cases hidle
  · intro hfirst look hlook
    cases hknown : w.knows look.1 (toLowerCase look.2) with
    | true => exact .inl rfl
    | false =>
      have hzero := hfirst look (Option.mem_filter_iff.mpr ⟨hlook, by simp [hknown]⟩)
      refine .inr fun mint hmint hkey hout => ?_
      have hmem := List.mem_of_getElem? (List.mem_zipIdx_iff_getElem?.mp hmint)
      exact absurd (decide_eq_true (And.intro hkey hout)) (List.countP_eq_zero.mp hzero _ hmem)

/-! ## The result -/

/-- In a run, each contract has at most one Contract Health iNFT, whatever the ledger does with the mints that were
sent, if and only if each process that looks for a contract has it in its map, or is the one that minted it, has lost
none of these mints, and has no handler under way that is still to write the map. -/
theorem certain_iff_careful {ts : List (Transition World Label)} (hr : (system credentials).Run ts w) :
    Throughout (Certain credentials) ts w ↔ ∀ tr ∈ ts, Careful credentials tr.src tr.label := by
  apply hr.forall_iff
  · rintro w rfl
    rw [certain_iff]
    exact fun key => Nat.zero_le 1
  · intro w l w' hm hw hstep
    rw [certain_iff] at hw ⊢
    rw [live_le_one_iff hw hstep]
    exact (careful_iff (recorded_of_reachable hm)).symm

instance : Decidable (Careful credentials w l) := inferInstanceAs (Decidable (∀ a ∈ _, _))

theorem plays_next : (system credentials).Plays (next credentials) fun _ move l => l = move :=
  fun _ move _ h => ⟨move, rfl, h⟩

/-- Two discovery messages of one contract, one after the other, and a `VaultCreated` event of another contract. -/
theorem certain_one_after_the_other : ∃ ts w, (system true).Run ts w ∧ Throughout (Certain true) ts w ∧
    w.taken "0xa" = 1 ∧ w.taken "0xb" = 1 := by
  have hplays : (system true).Plays
      (fun w l => if decide (Careful true w l) = true then next true w l else none)
      (fun w move l => l = move ∧ decide (Careful true w move) = true) := plays_next.guarded
  have hplay : ([.discovery "0xA", .goesOn 0, .goesOn 0, .lands 0, .goesOn 0, .goesOn 0, .discovery "0xa", .goesOn 1,
      .goesOn 1, .vaultCreated "0xB", .lands 1].foldlM
        (fun w l => if decide (Careful true w l) = true then next true w l else none) World.fresh).map
      (fun w => (w.taken "0xa", w.taken "0xb")) = some (1, 1) := by decide +kernel
  obtain ⟨ts, w, hr, htaken, hfrom, -⟩ := hplays.exists_run rfl hplay
  refine ⟨ts, w, hr, (certain_iff_careful hr).mpr fun tr htr => ?_, congrArg Prod.fst htaken,
    congrArg Prod.snd htaken⟩
  obtain ⟨move, -, hcomes⟩ := hfrom tr htr
  obtain ⟨hlabel, hcareful⟩ := hcomes.means
  rw [hlabel]
  exact of_decide_eq_true hcareful

/-- Two discovery messages of one contract that are handled concurrently: both handlers look into the map before one
of them writes it. -/
theorem not_unique_concurrent : ¬ ∀ credentials ts w, (system credentials).Run ts w → w.Unique := by
  intro hall
  have hplay : ([.discovery "0xA", .discovery "0xa", .goesOn 0, .goesOn 1, .goesOn 0, .goesOn 1, .lands 0,
      .lands 1].foldlM (next true) World.fresh).map (fun w => w.taken "0xa") = some 2 := by decide +kernel
  obtain ⟨ts, w, hr, htaken, -⟩ := plays_next.exists_run rfl hplay
  have hunique : w.taken "0xa" ≤ 1 := hall true ts w hr "0xa"
  omega

end AuditGuard.ContractHealth
