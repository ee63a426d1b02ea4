import GoffyOs.Python.DateTime
import GoffyOs.Python.Sqlite
import GoffyOs.Python.Uuid
import Mathlib.Data.PNat.Notation

/-!
# The operator audit log (`goffy_hub/operator_audit.py`)

The Hub keeps a bounded, hash-chained trail of operator events in a SQLite database. This module
embeds the log: the two tables with what their `STRICT` schemas admit, the parsing of stored rows,
`_verify_stored_rows`, and the operations `record`, `check_store` and the constructor.

* Text columns are `SqlText`: a stored byte string need not be UTF-8, and `sqlite3` then fails the
  query. Integer and hash columns carry the bounds that SQLite and the `CHECK`s enforce.
* `AuditError` separates `OperatorAuditStoreError` from the built-in exceptions that parsing can
  raise; each operation says which of them reaches its caller.
* A `Fault` says where SQLite itself fails during a transaction; the transaction is then rolled back
  and the caller sees `OperatorAuditStoreError`.
* The time zone of the host (`zone`) matters only for stored timestamps without an offset.
-/

namespace GoffyHub.OperatorAudit

open Python

def maxAuditTextLength : ℕ := 80

/-- `AUDIT_HASH_DOMAIN`. -/
def auditHashDomain : Bytes := utf8 "goffy-operator-audit-v1".toList ++ [0]

/-- `GENESIS_AUDIT_HASH`. -/
def genesisAuditHash : Digest := ⟨List.replicate 32 0, List.length_replicate⟩

def currentAuditSchemaVersion : ℤ := 3

/-! ### Tokens -/

/-- The alphabet of `AUDIT_TOKEN_PATTERN`. -/
def isTokenChar (c : Char) : Bool :=
  ('a' ≤ c && c ≤ 'z') || ('0' ≤ c && c ≤ '9') || c == '_' || c == '.' || c == ':' || c == '-'

/-- `AUDIT_TOKEN_PATTERN.fullmatch`. -/
def matchesTokenPattern (s : Str) : Bool :=
  1 ≤ s.length && s.length ≤ 80 && s.all isTokenChar

/-- A safe bounded token: what `_audit_token` returns. -/
abbrev AuditToken := {s : Str // matchesTokenPattern s = true}

theorem AuditToken.length_le (t : AuditToken) : t.val.length ≤ 80 := by
  have h := t.property
  simp only [matchesTokenPattern, Bool.and_eq_true, decide_eq_true_eq] at h
  exact h.1.2

/-- `_audit_token`; `none` is `ValueError`. -/
def auditToken (value : Str) : Option AuditToken :=
  let normalized := lower (strip value)
  if h : matchesTokenPattern normalized = true then
    some ⟨normalized.take maxAuditTextLength, by
      have hle : normalized.length ≤ maxAuditTextLength := AuditToken.length_le ⟨normalized, h⟩
      rw [List.take_of_length_le hle]
      exact h⟩
  else none

/-! ### Events and their hash -/

/-- `OperatorAuditEvent`. -/
structure OperatorAuditEvent where
  sequence : ℕ
  recordedAt : NaiveDateTime
  source : AuditToken
  action : AuditToken
  outcome : AuditToken
  principalKind : AuditToken
  credentialId : Option UUID := none
  detailCode : Option AuditToken := none
  previousHash : Option Str := none
  eventHash : Option Str := none
  deriving DecidableEq

/-- A field of the hash preimage: its UTF-8 bytes behind their length in four bytes. -/
def lengthPrefixed (field : Str) : Bytes :=
  (Positional.digits 256 4 (utf8 field).length).map UInt8.ofNat ++ utf8 field

/-- The fields that `_audit_event_hash` hashes, in its order. -/
def hashedFields (event : OperatorAuditEvent) : List Str :=
  [natStr event.sequence, serializeDatetime event.recordedAt, event.source.val, event.action.val,
   event.outcome.val, event.principalKind.val, (event.credentialId.map uuidStr).getD [],
   (event.detailCode.map Subtype.val).getD []]

/-- The bytes that `_audit_event_hash` feeds to SHA-256. -/
def auditPreimage (event : OperatorAuditEvent) (previousHash : Digest) : Bytes :=
  auditHashDomain ++ (previousHash.val ++ (hashedFields event).flatMap lengthPrefixed)

/-- `_audit_event_hash`. -/
def auditEventHash (event : OperatorAuditEvent) (previousHash : Digest) : Digest :=
  sha256 (auditPreimage event previousHash)

/-- `_StoredAuditRow`: a parsed row. Its event repeats both hashes in hexadecimal, and its sequence
is a positive SQLite integer. -/
structure StoredAuditRow where
  event : OperatorAuditEvent
  previousHash : Digest
  eventHash : Digest
  positive : 0 < event.sequence
  fits : event.sequence < 2 ^ 63
  previousHex : event.previousHash = some (hex previousHash.val)
  eventHex : event.eventHash = some (hex eventHash.val)
  deriving DecidableEq

/-- `_AuditChainTip`. -/
structure AuditChainTip where
  sequence : ℕ
  eventHash : Digest
  deriving DecidableEq

/-! ### Verification -/

/-- The three answers of `_verify_stored_rows`. -/
inductive Integrity
  | verified
  | retentionGap
  | tamperDetected
  deriving DecidableEq, Repr

/-- The loop of `_verify_stored_rows`: every row names the expected predecessor and carries its own
hash. -/
def rowsLinked : Digest → List StoredAuditRow → Bool
  | _, [] => true
  | expectedPrevious, row :: rows =>
    row.previousHash = expectedPrevious &&
      (auditEventHash row.event row.previousHash = row.eventHash && rowsLinked row.eventHash rows)

/-- `_verify_stored_rows`. -/
def verifyStoredRows (rows : List StoredAuditRow) (chainTip highWaterMark : Option AuditChainTip) :
    Integrity :=
  match chainTip, highWaterMark with
  | some tip, some mark =>
    match rows with
    | [] =>
      if tip.sequence = 0 ∧ tip.eventHash = genesisAuditHash ∧ mark.sequence = 0 ∧
          mark.eventHash = genesisAuditHash then .verified
      else .tamperDetected
    | first :: rest =>
      let expectedPrevious :=
        if first.event.sequence = 1 then genesisAuditHash else first.previousHash
      let status := if first.event.sequence = 1 then Integrity.verified else .retentionGap
      let last := (first :: rest).getLast (List.cons_ne_nil first rest)
      if rowsLinked expectedPrevious (first :: rest) = false then .tamperDetected
      else if tip.sequence ≠ last.event.sequence ∨ tip.eventHash ≠ last.eventHash then
        .tamperDetected
      else if mark.sequence ≠ tip.sequence ∨ mark.eventHash ≠ tip.eventHash then .tamperDetected
      else status
  | _, _ => .tamperDetected

/-! ### The database -/

/-- A row of `operator_audit_events`, with texts of type `τ`. -/
structure AuditRow (τ : Type) where
  sequence : ℕ
  recordedAt : τ
  source : τ
  action : τ
  outcome : τ
  principalKind : τ
  credentialId : Option τ
  detailCode : Option τ
  previousHash : Digest
  eventHash : Digest
  positive : 0 < sequence
  fits : sequence < 2 ^ 63

/-- The table `operator_audit_events` in the order of its primary key. -/
abbrev AuditTable := {rows : List (AuditRow SqlText) // rows.Pairwise (·.sequence < ·.sequence)}

/-- The keys of `operator_audit_metadata` that the log uses. -/
inductive MetadataKey
  | chainTipSequence
  | chainTipHash
  | highWaterSequence
  | highWaterHash
  deriving DecidableEq

/-- The database file. -/
structure Database where
  userVersion : ℤ
  events : AuditTable
  metadata : MetadataKey → Option SqlText

/-- A database file that was just created. -/
def Database.empty : Database := ⟨0, ⟨[], List.Pairwise.nil⟩, fun _ => none⟩

/-- What reaches the caller of an operation. -/
inductive AuditError
  | store (message : String)
  | exn (e : Exn)
  deriving DecidableEq, Repr

def operationFailed : AuditError := .store "operator audit database operation failed"
def integrityCheckFailed : AuditError := .store "operator audit database integrity check failed"

/-- `fetchall` decodes every text of a row; `none` is `sqlite3.OperationalError`. -/
def AuditRow.decode (row : AuditRow SqlText) : Option (AuditRow Str) := do
  let recordedAt ← row.recordedAt
  let source ← row.source
  let action ← row.action
  let outcome ← row.outcome
  let principalKind ← row.principalKind
  let credentialId ← match row.credentialId with
    | none => some none
    | some text => text.map some
  let detailCode ← match row.detailCode with
    | none => some none
    | some text => text.map some
  return { row with recordedAt, source, action, outcome, principalKind, credentialId, detailCode }

/-- A value or `ValueError`. -/
def orValueError {α : Type} : Option α → Except Exn α
  | some a => .ok a
  | none => .error .valueError

/-- Parse an optional column. -/
def parseOptional {α : Type} (parse : Str → Option α) : Option Str → Except Exn (Option α)
  | none => .ok none
  | some text => (orValueError (parse text)).map some

/-- `_row_to_stored_event`. The schema leaves no hash of another length than 32. -/
def rowToStoredEvent (zone : NaiveDateTime → Except Exn ℤ) (row : AuditRow Str) :
    Except Exn StoredAuditRow := do
  let recordedAt ← parseDatetime zone row.recordedAt
  let source ← orValueError (auditToken row.source)
  let action ← orValueError (auditToken row.action)
  let outcome ← orValueError (auditToken row.outcome)
  let principalKind ← orValueError (auditToken row.principalKind)
  let credentialId ← parseOptional parseUuid row.credentialId
  let detailCode ← parseOptional auditToken row.detailCode
  return {
    event := {
      sequence := row.sequence, recordedAt, source, action, outcome, principalKind, credentialId
      detailCode, previousHash := some (hex row.previousHash.val)
      eventHash := some (hex row.eventHash.val) }
    previousHash := row.previousHash
    eventHash := row.eventHash
    positive := row.positive
    fits := row.fits
    previousHex := rfl
    eventHex := rfl }

/-- `_fetch_stored_rows`: all rows are decoded before the first one is parsed. -/
def fetchStoredRows (zone : NaiveDateTime → Except Exn ℤ) (events : AuditTable) :
    Except AuditError (List StoredAuditRow) :=
  match events.val.mapM AuditRow.decode with
  | none => .error operationFailed
  | some rows => (rows.mapM (rowToStoredEvent zone)).mapError .exn

/-- The two metadata values of `_read_chain_metadata` as a tip; `none` when one is malformed. -/
def parseChainTip (sequence hash : Str) : Option AuditChainTip := do
  let n ← parseInt 10 sequence
  let b ← fromHex hash
  if h : 0 ≤ n ∧ b.length = 32 then return ⟨n.toNat, ⟨b, h.2⟩⟩ else none

/-- `_read_chain_metadata`. -/
def readChainMetadata (metadata : MetadataKey → Option SqlText) (sequenceKey hashKey : MetadataKey) :
    Except AuditError (Option AuditChainTip) :=
  match metadata sequenceKey, metadata hashKey with
  | some none, _ => .error operationFailed
  | _, some none => .error operationFailed
  | some (some sequence), some (some hash) => .ok (parseChainTip sequence hash)
  | _, _ => .ok none

/-- `_read_chain_tip`. -/
def readChainTip (db : Database) : Except AuditError (Option AuditChainTip) :=
  readChainMetadata db.metadata .chainTipSequence .chainTipHash

/-- `_read_high_water_mark`. -/
def readHighWaterMark (db : Database) : Except AuditError (Option AuditChainTip) :=
  readChainMetadata db.metadata .highWaterSequence .highWaterHash

/-- `_write_chain_metadata`. -/
def writeChainMetadata (sequenceKey hashKey : MetadataKey) (tip : AuditChainTip)
    (metadata : MetadataKey → Option SqlText) : MetadataKey → Option SqlText :=
  Function.update
    (Function.update metadata sequenceKey (some (some (natStr tip.sequence))))
    hashKey (some (some (hex tip.eventHash.val)))

/-- `_write_chain_tip`. -/
def writeChainTip (tip : AuditChainTip) (db : Database) : Database :=
  { db with metadata := writeChainMetadata .chainTipSequence .chainTipHash tip db.metadata }

/-- `_write_high_water_mark`. -/
def writeHighWaterMark (tip : AuditChainTip) (db : Database) : Database :=
  { db with metadata := writeChainMetadata .highWaterSequence .highWaterHash tip db.metadata }

/-- The reads and the verification at the start and at the end of every transaction. -/
def verifyDatabase (zone : NaiveDateTime → Except Exn ℤ) (db : Database) :
    Except AuditError (List StoredAuditRow × Integrity) := do
  let rows ← fetchStoredRows zone db.events
  let chainTip ← readChainTip db
  let highWaterMark ← readHighWaterMark db
  return (rows, verifyStoredRows rows chainTip highWaterMark)

/-- The texts of an event as `INSERT` binds them. -/
def toAuditRow (row : StoredAuditRow) : AuditRow SqlText where
  sequence := row.event.sequence
  recordedAt := some (serializeDatetime row.event.recordedAt)
  source := some row.event.source.val
  action := some row.event.action.val
  outcome := some row.event.outcome.val
  principalKind := some row.event.principalKind.val
  credentialId := row.event.credentialId.map fun u => some (uuidStr u)
  detailCode := row.event.detailCode.map fun t => some t.val
  previousHash := row.previousHash
  eventHash := row.eventHash
  positive := row.positive
  fits := row.fits

/-- `INSERT` of a row behind all others, which is where the log inserts. -/
def insertLast (events : AuditTable) (row : AuditRow SqlText) : Option AuditTable :=
  if h : ∀ r ∈ events.val, r.sequence < row.sequence then
    some ⟨events.val ++ [row], List.pairwise_append.2
      ⟨events.property, List.pairwise_singleton _ _, fun r hr x hx => by
        rw [List.mem_singleton.1 hx]; exact h r hr⟩⟩
  else none

/-- `_prune_oldest`: the table without its oldest rows beyond `maxEvents`, and the sequences of the
deleted rows. -/
def pruneOldest (maxEvents : ℕ+) (events : AuditTable) : AuditTable × List ℕ :=
  let deleteCount := events.val.length - maxEvents
  (⟨events.val.drop deleteCount, events.property.sublist (List.drop_sublist _ _)⟩,
   (events.val.take deleteCount).map AuditRow.sequence)

/-! ### The operations -/

/-- `OperatorAuditLog`; `persistent` is `_database_path is not None`. -/
structure OperatorAuditLog where
  maxEvents : ℕ+
  persistent : Bool
  events : List OperatorAuditEvent
  nextSequence : ℕ
  lastHash : Digest
  integrity : Integrity

/-- What a committed `_persist_event` leaves behind. -/
structure Persisted where
  row : StoredAuditRow
  db : Database
  deleted : List ℕ

/-- The row that `_persist_event` appends behind `rows`; `none` when its sequence exceeds a SQLite
integer (`OverflowError`). -/
def nextRow (rows : List StoredAuditRow) (event : OperatorAuditEvent) : Option StoredAuditRow :=
  let previousHash := (rows.getLast?.map StoredAuditRow.eventHash).getD genesisAuditHash
  let sequence := (rows.getLast?.map fun last => last.event.sequence + 1).getD 1
  let sequenceEvent : OperatorAuditEvent :=
    { event with sequence := sequence, previousHash := none, eventHash := none }
  let eventHash := auditEventHash sequenceEvent previousHash
  if fits : sequence < 2 ^ 63 then
    some {
      event := { sequenceEvent with
        previousHash := some (hex previousHash.val), eventHash := some (hex eventHash.val) }
      previousHash := previousHash
      eventHash := eventHash
      positive := by
        show 0 < sequence
        cases h : rows.getLast? <;> simp [sequence, h]
      fits := fits
      previousHex := rfl
      eventHex := rfl }
  else none

/-- `_persist_event`: the value it gives `_integrity`, if any, and its outcome. -/
def persistEvent (zone : NaiveDateTime → Except Exn ℤ) (maxEvents : ℕ+) (db : Database)
    (event : OperatorAuditEvent) (fault : Fault) :
    Option Integrity × Except AuditError Persisted :=
  if fault = .opening then (none, .error operationFailed)
  else match verifyDatabase zone db with
    | .error e => (none, .error e)
    | .ok (rows, integrity) =>
      if integrity = .tamperDetected then (some integrity, .error integrityCheckFailed)
      else match nextRow rows event with
        | none => (none, .error (.exn .overflowError))
        | some row =>
          match insertLast db.events (toAuditRow row) with
          | none => (none, .error operationFailed)
          | some events =>
            if fault = .writing then (none, .error operationFailed)
            else
              let tip : AuditChainTip := ⟨row.event.sequence, row.eventHash⟩
              let written := writeHighWaterMark tip (writeChainTip tip { db with events := events })
              let pruned := pruneOldest maxEvents written.events
              let db' := { written with events := pruned.1 }
              match verifyDatabase zone db' with
              | .error e => (none, .error e)
              | .ok (_, integrity) =>
                if fault = .committing then (some integrity, .error operationFailed)
                else (some integrity, .ok ⟨row, db', pruned.2⟩)

/-- The arguments of `record`. -/
structure RecordArgs where
  source : Str
  action : Str
  outcome : Str
  principalKind : Str
  credentialId : Option UUID := none
  detailCode : Option Str := none

/-- `_as_utc`: a naive reading of the clock counts as UTC. -/
def asUtc (d : DateTime) : Except Exn NaiveDateTime :=
  match d.offset with
  | none => .ok d.wall
  | some _ => astimezoneUtc (fun _ => .ok 0) d

/-- The event that `record` builds from its arguments. -/
def baseEvent (sequence : ℕ) (now : DateTime) (args : RecordArgs) :
    Except Exn OperatorAuditEvent := do
  let recordedAt ← asUtc now
  let source ← orValueError (auditToken args.source)
  let action ← orValueError (auditToken args.action)
  let outcome ← orValueError (auditToken args.outcome)
  let principalKind ← orValueError (auditToken args.principalKind)
  let detailCode ← parseOptional auditToken args.detailCode
  return { sequence, recordedAt, source, action, outcome, principalKind
           credentialId := args.credentialId, detailCode }

/-- The in-memory part of a successful `record`. -/
def OperatorAuditLog.remember (log : OperatorAuditLog) (event : OperatorAuditEvent) :
    OperatorAuditLog :=
  let events := log.events ++ [event]
  { log with events := events.drop (events.length - log.maxEvents)
             nextSequence := event.sequence + 1 }

/-- The result of `record`: the log and the database after it, the sequences it pruned, and what
the caller gets. -/
structure Recorded where
  log : OperatorAuditLog
  db : Database
  deleted : List ℕ
  result : Except AuditError (OperatorAuditEvent × Option StoredAuditRow)

/-- `record`. -/
def record (zone : NaiveDateTime → Except Exn ℤ) (log : OperatorAuditLog) (db : Database)
    (now : DateTime) (args : RecordArgs) (fault : Fault) : Recorded :=
  match baseEvent log.nextSequence now args with
  | .error e => ⟨log, db, [], .error (.exn e)⟩
  | .ok event =>
    if log.persistent then
      match persistEvent zone log.maxEvents db event fault with
      | (integrity, .error e) =>
        ⟨{ log with integrity := integrity.getD log.integrity }, db, [], .error e⟩
      | (integrity, .ok p) =>
        ⟨{ log with integrity := integrity.getD log.integrity
                    lastHash := p.row.eventHash }.remember p.row.event,
          p.db, p.deleted, .ok (p.row.event, some p.row)⟩
    else ⟨log.remember event, db, [], .ok (event, none)⟩

section Record

variable {zone : NaiveDateTime → Except Exn ℤ} {log : OperatorAuditLog} {db : Database}
  {now : DateTime} {args : RecordArgs} {fault : Fault} {event : OperatorAuditEvent}
  {integrity : Option Integrity}

/-- A persistent `record` that raises. -/
theorem record_of_error {e : AuditError}
    (hlog : log.persistent = true) (hbase : baseEvent log.nextSequence now args = .ok event)
    (hp : persistEvent zone log.maxEvents db event fault = (integrity, .error e)) :
    record zone log db now args fault =
      ⟨{ log with integrity := integrity.getD log.integrity }, db, [], .error e⟩ := by
  unfold record
  simp only [hbase]
  rw [if_pos hlog]
  simp only [hp]

/-- A persistent `record` that succeeds. -/
theorem record_of_ok {p : Persisted}
    (hlog : log.persistent = true) (hbase : baseEvent log.nextSequence now args = .ok event)
    (hp : persistEvent zone log.maxEvents db event fault = (integrity, .ok p)) :
    record zone log db now args fault =
      ⟨{ log with integrity := integrity.getD log.integrity
                  lastHash := p.row.eventHash }.remember p.row.event,
        p.db, p.deleted, .ok (p.row.event, some p.row)⟩ := by
  unfold record
  simp only [hbase]
  rw [if_pos hlog]
  simp only [hp]

theorem record_of_baseEvent_error {e : Exn}
    (hbase : baseEvent log.nextSequence now args = .error e) :
    record zone log db now args fault = ⟨log, db, [], .error (.exn e)⟩ := by
  unfold record
  simp only [hbase]

end Record

/-- `check_store`: the log after it and its outcome. `ValueError` is turned into
`OperatorAuditStoreError`. -/
def checkStore (zone : NaiveDateTime → Except Exn ℤ) (log : OperatorAuditLog) (db : Database)
    (fault : Fault) : OperatorAuditLog × Except AuditError Unit :=
  if log.persistent = false then (log, .ok ())
  else if fault = .opening then (log, .error operationFailed)
  else match verifyDatabase zone db with
    | .error (.exn .valueError) => (log, .error integrityCheckFailed)
    | .error e => (log, .error e)
    | .ok (_, integrity) =>
      if fault = .committing then (log, .error operationFailed)
      else if integrity = .tamperDetected then
        ({ log with integrity := integrity }, .error integrityCheckFailed)
      else ({ log with integrity := integrity }, .ok ())

/-- The tip that `_refresh_chain_tip_metadata` selects: the last row of the table. -/
def lastRowTip (db : Database) : AuditChainTip :=
  (db.events.val.getLast?.map fun row => ⟨row.sequence, row.eventHash⟩).getD ⟨0, genesisAuditHash⟩

/-- What `_initialize_schema` has read when it comes to its first write. -/
inductive Migration
  | refreshChainTip (tip : AuditChainTip)
  | addHighWaterMark (tip : AuditChainTip)
  | upToDate
  deriving DecidableEq

def metadataInvalid : AuditError := .store "operator audit database metadata is invalid"

/-- The start of `_initialize_schema`: `PRAGMA user_version` and `CREATE TABLE IF NOT EXISTS`. A
table that does not exist is an empty one here. -/
def readSchemaVersion (db : Database) : Except AuditError ℤ :=
  if db.userVersion ∉ [0, 1, 2, currentAuditSchemaVersion] then
    .error (.store "operator audit database schema is unsupported")
  else .ok db.userVersion

/-- The `SELECT` of `_initialize_schema`: the last row for versions before 2, the chain tip for
version 2. -/
def readMigration (schemaVersion : ℤ) (db : Database) : Except AuditError Migration :=
  if schemaVersion < 2 then .ok (.refreshChainTip (lastRowTip db))
  else if schemaVersion < 3 then do
    match ← readChainTip db with
    | none => .error metadataInvalid
    | some tip => .ok (.addHighWaterMark tip)
  else .ok .upToDate

/-- The writes of `_initialize_schema`. Python opens a transaction at the first `INSERT`, so the
chain tip is read back inside of it. -/
def writeMigration (migration : Migration) (db : Database) : Except AuditError Database := do
  let db ← match migration with
    | .refreshChainTip tip => do
      let db := writeChainTip tip db
      match ← readChainTip db with
      | none => .error metadataInvalid
      | some tip => .ok (writeHighWaterMark tip db)
    | .addHighWaterMark tip => .ok (writeHighWaterMark tip db)
    | .upToDate => .ok db
  return { db with userVersion := currentAuditSchemaVersion }

/-- `_initialize_schema`, which also migrates the metadata of versions before 3, when nobody else
writes to the database between its reads and its writes. -/
def initializeSchema (db : Database) : Except AuditError Database := do
  let schemaVersion ← readSchemaVersion db
  let migration ← readMigration schemaVersion db
  writeMigration migration db

/-- What `_load_persistent_events` leaves behind. -/
structure Loaded where
  log : OperatorAuditLog
  db : Database
  deleted : List ℕ

/-- The log that `_load_persistent_events` builds from the rows it has read. -/
def loadedLog (maxEvents : ℕ+) (rows : List StoredAuditRow) (integrity : Integrity) :
    OperatorAuditLog where
  maxEvents := maxEvents
  persistent := true
  events := (rows.drop (rows.length - maxEvents)).map StoredAuditRow.event
  nextSequence := (rows.getLast?.map fun last => last.event.sequence + 1).getD 1
  lastHash := (rows.getLast?.map StoredAuditRow.eventHash).getD genesisAuditHash
  integrity := integrity

/-- `_load_persistent_events`. -/
def loadPersistentEvents (zone : NaiveDateTime → Except Exn ℤ) (maxEvents : ℕ+) (db : Database)
    (fault : Fault) : Except AuditError Loaded :=
  if fault = .opening then .error operationFailed
  else match verifyDatabase zone db with
    | .error e => .error e
    | .ok (rows, integrity) =>
      if integrity = .tamperDetected then
        if fault = .committing then .error operationFailed
        else .ok ⟨loadedLog maxEvents rows integrity, db, []⟩
      else
        let pruned := pruneOldest maxEvents db.events
        let db' := { db with events := pruned.1 }
        if fault = .writing then .error operationFailed
        else match verifyDatabase zone db' with
          | .error e => .error e
          | .ok (rows, integrity) =>
            if fault = .committing then .error operationFailed
            else .ok ⟨loadedLog maxEvents rows integrity, db', pruned.2⟩

/-- The constructor of `OperatorAuditLog` on a database file. The schema is committed before the
events are loaded, so it stays when loading fails. -/
def construct (zone : NaiveDateTime → Except Exn ℤ) (maxEvents : ℕ+) (db : Database)
    (schemaFault loadFault : Fault) : Database × Except AuditError Loaded :=
  if schemaFault ≠ .none then
    (db, .error (.store "operator audit database could not be initialized"))
  else match initializeSchema db with
    | .error e => (db, .error e)
    | .ok db =>
      match loadPersistentEvents zone maxEvents db loadFault with
      | .error e => (db, .error e)
      | .ok loaded => (loaded.db, .ok loaded)

end GoffyHub.OperatorAudit
