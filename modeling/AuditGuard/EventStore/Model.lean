import AuditGuard.Library.Tables
import AuditGuard.Library.Transition
import Mathlib.Algebra.Order.Ring.Rat

/-!
# The stores of the events API

`packages/events-api/src/db.js` has two stores: `PgDb`, whose tables are in PostgreSQL, and `InMemoryDb`, which is
used when no database is configured. Both have the same tables. A table has its columns (`Table`), and an upsert says
for each of them what happens where it is given and where it is not (`Merge`): these two are what the methods of one
store differ in.

The statements of `PgDb` are given their meaning in SQL: the parameters are converted to the types of their columns, or
the statement is refused; `INSERT … ON CONFLICT (key) DO UPDATE` replaces the row of the key, `EXCLUDED` is the row
that was proposed, and `COALESCE` takes the first of its arguments that is not null. What a query gives back of a
value that a column of a type was given is up to the database and its client (`Postgres`): a number of a `REAL` column
is rounded, one of a `BIGINT` column comes back as a text. Times are in milliseconds.
-/

namespace AuditGuard.EventStore

/-! ## Values -/

/-- A value of JavaScript that is given to a store, or comes back from it. -/
inductive Value
  /-- `undefined`, of a field that is absent, or `null`. -/
  | null
  | text (s : String)
  | texts (l : List String)
  | number (x : ℚ)
  | flag (b : Bool)
deriving DecidableEq

/-- `a ?? b`. -/
def Value.orElse (a b : Value) : Value := if a = .null then b else a

/-- `COALESCE(excluded, stored)`. -/
def Value.coalesce (excluded stored : Value) : Value := if excluded = .null then stored else excluded

/-- A text that may be absent. -/
def Value.ofText : Option String → Value
  | some s => .text s
  | none => .null

/-- A flag that may be absent. -/
def Value.ofFlag : Option Bool → Value
  | some b => .flag b
  | none => .null

/-- The types of the columns. -/
inductive ColumnType
  | text
  | textArray
  | real
  | integer
  | bigint
  | boolean

/-- PostgreSQL and its client. -/
structure Postgres where
  /-- What a query gives back of a value that a column of the type was given; nothing where the database refuses it. -/
  column : ColumnType → Value → Option Value
  /-- A value that is stored is not null. -/
  notNull : ∀ {type value}, column type value ≠ some .null
  /-- A text that is not refused comes back as it is. -/
  text : ∀ {s value}, column .text (.text s) = some value → value = .text s
  /-- A short text of letters, digits and hyphens is not refused. -/
  plain : ∀ s : String, s.length ≤ 20 → s.toList.all (fun c => c.isAlphanum || c = '-') →
    (column .text (.text s)).isSome
  noTexts : column .textArray (.texts []) = some (.texts [])
  realZero : column .real (.number 0) = some (.number 0)
  integerZero : column .integer (.number 0) = some (.number 0)
  /-- The client gives the integers of 64 bits as texts. -/
  bigintZero : column .bigint (.number 0) = some (.text "0")
  flag : ∀ b, column .boolean (.flag b) = some (.flag b)

/-! ## Tables -/

/-- A row: the values of its columns, and its two times. A table with one time has it twice. -/
structure Row (C : Type) where
  values : C → Value
  /-- `created_at`, `registered_at` or `received_at`. -/
  createdAt : ℕ
  /-- `updated_at` or `last_seen_at`. -/
  updatedAt : ℕ

/-- What the schema says of a table, and the time that its queries order by. -/
structure Table (C : Type) where
  columns : List C
  complete : ∀ c, c ∈ columns
  key : C
  type : C → ColumnType
  /-- The columns that are not `NOT NULL`. -/
  nullable : C → Bool
  orderedByCreation : Bool

/-- What an upsert does with each column. -/
structure Merge (C : Type) where
  /-- What `PgDb` gives for a field that is absent, and what `InMemoryDb` comes to at last. -/
  standard : C → Value
  /-- `column = COALESCE(EXCLUDED.column, table.column)`, where the others have `column = EXCLUDED.column`. -/
  coalesced : C → Bool
  /-- `field ?? existing.column ?? standard`, where the others have `field ?? standard`. -/
  kept : C → Bool

variable {C : Type}

/-- The key of a row. -/
def Table.keyOf (t : Table C) (r : Row C) : Value := r.values t.key

/-- The time of a row that the queries order by. -/
def Table.time (t : Table C) (r : Row C) : ℕ := if t.orderedByCreation then r.createdAt else r.updatedAt

namespace PgDb

variable (pg : Postgres) (t : Table C) (m : Merge C)

/-- A value in a column of a table. -/
def cell (c : C) (value : Value) : Option Value :=
  if value = .null then if t.nullable c then some .null else none else pg.column (t.type c) value

/-- The parameters of a statement in their columns, unless one of them is refused. -/
def row (parameters : C → Value) : Option (C → Value) :=
  if ∀ c ∈ t.columns, (cell pg t c (parameters c)).isSome then some fun c => (cell pg t c (parameters c)).getD .null
  else none

/-- `INSERT … ON CONFLICT (key) DO NOTHING`. A row that the table's reference forbids is refused. -/
def insert (allowed : (C → Value) → Bool) (given : C → Value) (now : ℕ) (rows : List (Row C)) : List (Row C) :=
  match row pg t given with
  | none => rows
  | some values => if allowed values then Tables.insert t.keyOf ⟨values, now, now⟩ rows else rows

/-- The row that an upsert leaves. -/
def upsertRow [DecidableEq C] (now : ℕ) (excluded : C → Value) : Option (Row C) → Row C
  | none => ⟨excluded, now, now⟩
  | some stored => ⟨fun c =>
      if c = t.key then stored.values c
      else if m.coalesced c then (excluded c).coalesce (stored.values c)
      else excluded c, stored.createdAt, now⟩

/-- `INSERT … ON CONFLICT (key) DO UPDATE SET …`. -/
def upsert [DecidableEq C] (given : C → Value) (now : ℕ) (rows : List (Row C)) : List (Row C) :=
  match row pg t fun c => (given c).orElse (m.standard c) with
  | none => rows
  | some excluded => Tables.upsert t.keyOf (excluded t.key) (upsertRow t m now excluded) rows

end PgDb

namespace InMemoryDb

variable (t : Table C) (m : Merge C)

/-- `insertEvent` and `insertBidSkip`. -/
def insert (given : C → Value) (now : ℕ) (rows : List (Row C)) : List (Row C) :=
  Tables.insert t.keyOf ⟨given, now, now⟩ rows

/-- The row that an upsert sets. -/
def upsertRow (given : C → Value) (now : ℕ) : Option (Row C) → Row C
  | none => ⟨fun c => (given c).orElse (m.standard c), now, now⟩
  | some existing => ⟨fun c =>
      if m.kept c then (given c).orElse ((existing.values c).orElse (m.standard c))
      else (given c).orElse (m.standard c), existing.createdAt, now⟩

/-- `upsertJob`, `upsertAgent`, `upsertSchedule` and `upsertVault`. -/
def upsert (given : C → Value) (now : ℕ) (rows : List (Row C)) : List (Row C) :=
  Tables.upsert t.keyOf (given t.key) (upsertRow m given now) rows

end InMemoryDb

/-! ## The tables of the schema -/

/-- The columns of `audit_events`. -/
inductive EventColumn
  | id | source | topicId | messageType | agentId | messageTimestamp | payloadJson | rawJson
deriving DecidableEq

/-- The table `audit_events`. -/
def auditEvents : Table EventColumn where
  columns := [.id, .source, .topicId, .messageType, .agentId, .messageTimestamp, .payloadJson, .rawJson]
  complete c := by cases c <;> decide
  key := .id
  type
    | .messageTimestamp => .bigint
    | _ => .text
  nullable _ := false
  orderedByCreation := true

/-- The columns of `bid_skips`. -/
inductive BidSkipColumn
  | id | eventId | jobId | agentId | reasonCode | reason | inviteBudget | bidAmount
deriving DecidableEq

/-- The table `bid_skips`. -/
def bidSkips : Table BidSkipColumn where
  columns := [.id, .eventId, .jobId, .agentId, .reasonCode, .reason, .inviteBudget, .bidAmount]
  complete c := by cases c <;> decide
  key := .id
  type
    | .jobId => .integer
    | .inviteBudget | .bidAmount => .real
    | _ => .text
  nullable
    | .id | .eventId | .agentId => false
    | _ => true
  orderedByCreation := true

/-- The columns of `audit_jobs`. -/
inductive JobColumn
  | jobId | contractAddress | deployerAddress | contractType | status | budgetGuard | winnerAddresses | findingCount
deriving DecidableEq

/-- The table `audit_jobs`. -/
def auditJobs : Table JobColumn where
  columns := [.jobId, .contractAddress, .deployerAddress, .contractType, .status, .budgetGuard, .winnerAddresses,
    .findingCount]
  complete c := by cases c <;> decide
  key := .jobId
  type
    | .budgetGuard => .real
    | .winnerAddresses => .textArray
    | .findingCount => .integer
    | _ => .text
  nullable _ := false
  orderedByCreation := false

/-- The columns of `registered_agents`. -/
inductive AgentColumn
  | evmAddress | agentId | specializations | reputation | tier | status | stakeGuard
deriving DecidableEq

/-- The table `registered_agents`. -/
def registeredAgents : Table AgentColumn where
  columns := [.evmAddress, .agentId, .specializations, .reputation, .tier, .status, .stakeGuard]
  complete c := by cases c <;> decide
  key := .evmAddress
  type
    | .specializations => .textArray
    | .reputation => .integer
    | .stakeGuard => .real
    | _ => .text
  nullable _ := false
  orderedByCreation := false

/-- The columns of `audit_schedules`. -/
inductive ScheduleColumn
  | contractAddress | ownerAddress | scheduleAddress | nextAuditDue | mode | intervalSeconds | timesTriggered | active
deriving DecidableEq

/-- The table `audit_schedules`. -/
def auditSchedules : Table ScheduleColumn where
  columns := [.contractAddress, .ownerAddress, .scheduleAddress, .nextAuditDue, .mode, .intervalSeconds, .timesTriggered,
    .active]
  complete c := by cases c <;> decide
  key := .contractAddress
  type
    | .nextAuditDue | .intervalSeconds => .bigint
    | .mode | .timesTriggered => .integer
    | .active => .boolean
    | _ => .text
  nullable _ := false
  orderedByCreation := false

/-- The columns of `audit_vaults`. -/
inductive VaultColumn
  | contractAddress | vaultAddress | creator | contractChain | active
deriving DecidableEq

/-- The table `audit_vaults`. -/
def auditVaults : Table VaultColumn where
  columns := [.contractAddress, .vaultAddress, .creator, .contractChain, .active]
  complete c := by cases c <;> decide
  key := .contractAddress
  type
    | .active => .boolean
    | _ => .text
  nullable _ := false
  orderedByCreation := true

/-! ## The calls -/

/-- `address.toLowerCase()`. -/
def toLowerCase (address : String) : String := address.toLower

/-- The arguments of `insertEvent`. -/
structure EventInsert where
  id : String
  source : String
  topicId : String
  messageType : String
  agentId : String
  messageTimestamp : Value
  payloadJson : String
  rawJson : String
  receivedAt : ℕ

/-- The parameters of the statement, by their columns. -/
def EventInsert.given (e : EventInsert) : EventColumn → Value
  | .id => .text e.id
  | .source => .text e.source
  | .topicId => .text e.topicId
  | .messageType => .text e.messageType
  | .agentId => .text e.agentId
  | .messageTimestamp => e.messageTimestamp
  | .payloadJson => .text e.payloadJson
  | .rawJson => .text e.rawJson

/-- The arguments of `insertBidSkip`. -/
structure BidSkipInsert where
  id : String
  eventId : String
  jobId : Value
  agentId : String
  reasonCode : Option String
  reason : Option String
  inviteBudget : Value
  bidAmount : Value
  createdAt : ℕ

/-- The parameters of the statement, by their columns. -/
def BidSkipInsert.given (b : BidSkipInsert) : BidSkipColumn → Value
  | .id => .text b.id
  | .eventId => .text b.eventId
  | .jobId => b.jobId
  | .agentId => .text b.agentId
  | .reasonCode => .ofText b.reasonCode
  | .reason => .ofText b.reason
  | .inviteBudget => b.inviteBudget
  | .bidAmount => b.bidAmount

/-- The argument of `upsertJob`. -/
structure JobUpsert where
  jobId : String
  contractAddress : String
  deployerAddress : Option String
  contractType : Option String
  status : Option String
  budgetGuard : Value
  winnerAddresses : Option (List String)
  findingCount : Value

/-- The arguments, by their columns; those left out are null. -/
def JobUpsert.given (u : JobUpsert) : JobColumn → Value
  | .jobId => .text u.jobId
  | .contractAddress => .text u.contractAddress
  | .deployerAddress => .ofText u.deployerAddress
  | .contractType => .ofText u.contractType
  | .status => .ofText u.status
  | .budgetGuard => u.budgetGuard
  | .winnerAddresses => (u.winnerAddresses.map Value.texts).getD .null
  | .findingCount => u.findingCount

/-- What `upsertJob` does. -/
def upsertJob : Merge JobColumn where
  standard
    | .jobId | .contractAddress => .null
    | .deployerAddress => .text ""
    | .contractType => .text "unknown"
    | .status => .text "open"
    | .budgetGuard => .number 0
    | .winnerAddresses => .texts []
    | .findingCount => .number 0
  coalesced
    | .contractAddress | .status => false
    | _ => true
  kept
    | .jobId | .contractAddress | .status => false
    | _ => true

/-- The argument of `upsertAgent`. -/
structure AgentUpsert where
  evmAddress : String
  agentId : Option String
  specializations : Option (List String)
  reputation : Value
  tier : Option String
  status : Option String
  stakeGuard : Value

/-- The arguments, by their columns; those left out are null. -/
def AgentUpsert.given (u : AgentUpsert) : AgentColumn → Value
  | .evmAddress => .text (toLowerCase u.evmAddress)
  | .agentId => .ofText u.agentId
  | .specializations => (u.specializations.map Value.texts).getD .null
  | .reputation => u.reputation
  | .tier => .ofText u.tier
  | .status => .ofText u.status
  | .stakeGuard => u.stakeGuard

/-- What `upsertAgent` does. -/
def upsertAgent : Merge AgentColumn where
  standard
    | .evmAddress => .null
    | .agentId => .text ""
    | .specializations => .texts []
    | .reputation => .number 0
    | .tier => .text "standard"
    | .status => .text "active"
    | .stakeGuard => .number 0
  coalesced
    | .status => false
    | _ => true
  kept
    | .evmAddress | .status => false
    | _ => true

/-- The argument of `upsertSchedule`. -/
structure ScheduleUpsert where
  contractAddress : String
  ownerAddress : Option String
  scheduleAddress : Option String
  nextAuditDue : Value
  mode : Value
  intervalSeconds : Value
  timesTriggered : Value
  active : Option Bool

/-- The arguments, by their columns; those left out are null. -/
def ScheduleUpsert.given (u : ScheduleUpsert) : ScheduleColumn → Value
  | .contractAddress => .text (toLowerCase u.contractAddress)
  | .ownerAddress => .ofText u.ownerAddress
  | .scheduleAddress => .ofText u.scheduleAddress
  | .nextAuditDue => u.nextAuditDue
  | .mode => u.mode
  | .intervalSeconds => u.intervalSeconds
  | .timesTriggered => u.timesTriggered
  | .active => .ofFlag u.active

/-- What `upsertSchedule` does. -/
def upsertSchedule : Merge ScheduleColumn where
  standard
    | .contractAddress => .null
    | .ownerAddress | .scheduleAddress => .text ""
    | .nextAuditDue | .mode | .intervalSeconds | .timesTriggered => .number 0
    | .active => .flag true
  coalesced
    | .active => false
    | _ => true
  kept
    | .contractAddress => false
    | _ => true

/-- The argument of `upsertVault`. -/
structure VaultUpsert where
  contractAddress : String
  vaultAddress : String
  creator : Option String
  contractChain : Option String
  active : Option Bool

/-- The arguments, by their columns; those left out are null. -/
def VaultUpsert.given (u : VaultUpsert) : VaultColumn → Value
  | .contractAddress => .text (toLowerCase u.contractAddress)
  | .vaultAddress => .text (toLowerCase u.vaultAddress)
  | .creator => .ofText u.creator
  | .contractChain => .ofText u.contractChain
  | .active => .ofFlag u.active

/-- What `upsertVault` does. -/
def upsertVault : Merge VaultColumn where
  standard
    | .contractAddress | .vaultAddress => .null
    | .creator => .text ""
    | .contractChain => .text "hedera-testnet"
    | .active => .flag true
  coalesced
    | .creator | .contractChain => true
    | _ => false
  kept
    | .contractAddress | .vaultAddress => false
    | _ => true

/-- A call of a store, apart from the queries. -/
inductive Call
  | insertEvent (e : EventInsert)
  | insertBidSkip (b : BidSkipInsert)
  | upsertJob (u : JobUpsert)
  | upsertAgent (u : AgentUpsert)
  | upsertSchedule (u : ScheduleUpsert)
  | upsertVault (u : VaultUpsert)

/-! ## The stores -/

/-- The tables of a store. -/
structure Store where
  auditEvents : List (Row EventColumn)
  bidSkips : List (Row BidSkipColumn)
  auditJobs : List (Row JobColumn)
  registeredAgents : List (Row AgentColumn)
  auditSchedules : List (Row ScheduleColumn)
  auditVaults : List (Row VaultColumn)

/-- A store that is empty. -/
def Store.empty : Store := ⟨[], [], [], [], [], []⟩

/-- The event that a bid skip refers to is stored. -/
def Store.references (db : Store) (values : BidSkipColumn → Value) : Bool :=
  db.auditEvents.any fun e => e.values .id = values .eventId

/-- A call of `PgDb`. -/
def PgDb.run (pg : Postgres) (now : ℕ) (db : Store) : Call → Store
  | .insertEvent e => { db with
    auditEvents := PgDb.insert pg EventStore.auditEvents (fun _ => true) e.given e.receivedAt db.auditEvents }
  | .insertBidSkip b => { db with
    bidSkips := PgDb.insert pg EventStore.bidSkips db.references b.given b.createdAt db.bidSkips }
  | .upsertJob u => { db with auditJobs := PgDb.upsert pg EventStore.auditJobs upsertJob u.given now db.auditJobs }
  | .upsertAgent u => { db with
    registeredAgents := PgDb.upsert pg EventStore.registeredAgents upsertAgent u.given now db.registeredAgents }
  | .upsertSchedule u => { db with
    auditSchedules := PgDb.upsert pg EventStore.auditSchedules upsertSchedule u.given now db.auditSchedules }
  | .upsertVault u => { db with
    auditVaults := PgDb.upsert pg EventStore.auditVaults upsertVault u.given now db.auditVaults }

/-- A call of `InMemoryDb`. -/
def InMemoryDb.run (now : ℕ) (db : Store) : Call → Store
  | .insertEvent e => { db with
    auditEvents := InMemoryDb.insert EventStore.auditEvents e.given e.receivedAt db.auditEvents }
  | .insertBidSkip b => { db with
    bidSkips := InMemoryDb.insert EventStore.bidSkips b.given b.createdAt db.bidSkips }
  | .upsertJob u => { db with auditJobs := InMemoryDb.upsert EventStore.auditJobs upsertJob u.given now db.auditJobs }
  | .upsertAgent u => { db with
    registeredAgents := InMemoryDb.upsert EventStore.registeredAgents upsertAgent u.given now db.registeredAgents }
  | .upsertSchedule u => { db with
    auditSchedules := InMemoryDb.upsert EventStore.auditSchedules upsertSchedule u.given now db.auditSchedules }
  | .upsertVault u => { db with
    auditVaults := InMemoryDb.upsert EventStore.auditVaults upsertVault u.given now db.auditVaults }

/-! ## Queries -/

/-- A column has the text that is wanted. An empty text is no condition. -/
def hasText (wanted : Option String) (c : C) (r : Row C) : Bool :=
  match wanted with
  | none => true
  | some text => text = "" ∨ r.values c = .text text

/-- A column has the flag that is wanted. -/
def hasFlag (wanted : Option Bool) (c : C) (r : Row C) : Bool :=
  match wanted with
  | none => true
  | some flag => r.values c = .flag flag

/-- A query gives the same rows in both stores, apart from their times: each answer that the database may give is what
the store in memory answers. -/
def SameRows (t : Table C) (wanted : Row C → Bool) (pg mem : List (Row C)) : Prop :=
  ∀ limit, 0 < limit → ∀ answer, Tables.Selects pg wanted t.time limit answer →
    answer.map Row.values = (Tables.latest mem wanted t.time limit).map Row.values

/-- Every query gives the same rows in both stores. Limits are positive, as the routes give them. -/
structure Agree (pg mem : Store) : Prop where
  queryEvents : ∀ messageType agentId topicId, SameRows auditEvents
    (fun r => hasText messageType .messageType r && hasText agentId .agentId r && hasText topicId .topicId r)
    pg.auditEvents mem.auditEvents
  queryBidSkips : ∀ reasonCode agentId, SameRows bidSkips
    (fun r => hasText reasonCode .reasonCode r && hasText agentId .agentId r) pg.bidSkips mem.bidSkips
  queryJobs : ∀ status contractAddress, SameRows auditJobs
    (fun r => hasText status .status r && hasText contractAddress .contractAddress r) pg.auditJobs mem.auditJobs
  getJobById : ∀ jobId, (Tables.lookup auditJobs.keyOf (.text jobId) pg.auditJobs).map Row.values =
    (Tables.lookup auditJobs.keyOf (.text jobId) mem.auditJobs).map Row.values
  queryAgents : ∀ status, SameRows registeredAgents (hasText status .status) pg.registeredAgents mem.registeredAgents
  querySchedules : ∀ active, SameRows auditSchedules (hasFlag active .active) pg.auditSchedules mem.auditSchedules
  queryVaults : ∀ active, SameRows auditVaults (hasFlag active .active) pg.auditVaults mem.auditVaults

/-! ## The system -/

/-- The two stores. -/
structure Stores where
  pg : Store
  mem : Store

/-- Both stores are given the same calls, each at its time. -/
def system (pg : Postgres) : TransitionSystem Stores (Call × ℕ) where
  init s := s = ⟨.empty, .empty⟩
  step s l s' := s' = ⟨PgDb.run pg l.2 s.pg l.1, InMemoryDb.run l.2 s.mem l.1⟩

end AuditGuard.EventStore
