import GoffyOs.Hub.OperatorAuditChain
import GoffyOs.Lib.Machine
import Mathlib.Data.List.Nodup

/-!
# Runs of the operator audit log

Several instances of `OperatorAuditLog`, in one or more processes, work on one database, with any
clock reading, arguments and SQLite failure. The loading of a constructor call, `record` and
`check_store` are one transaction and one step each. `_initialize_schema` is three steps: its
`PRAGMA user_version` and its `SELECT` run outside of a transaction, which Python opens at the first
`INSERT`, so other instances may write to the database in between. The history of a run collects
the rows that were recorded and the sequences that were pruned.

`Holds db history k tip` says that the database holds an honest chain of which the first `k` rows
were pruned, and metadata that name `tip`. It holds of every reachable state (`Consistent`), with
the tip of the chain as long as no constructor writes metadata that it has read too early
(`FreshMigrations`). Retention, verification and tamper evidence follow from it.
-/

namespace GoffyHub.OperatorAudit

open Python

/-- An instance: its constructor has read the schema version, or the rest of what it migrates, or is
between its two transactions, or it has returned. -/
inductive Instance
  | opening (maxEvents : ℕ+) (schemaVersion : ℤ)
  | migrating (maxEvents : ℕ+) (migration : Migration)
  | initialized (maxEvents : ℕ+)
  | ready (log : OperatorAuditLog)

/-- `_initialize_schema` has returned. -/
def Instance.isInitialized : Instance → Bool
  | .opening _ _ | .migrating _ _ => false
  | .initialized _ | .ready _ => true

/-- The database file and the instances that use it. -/
structure System where
  db : Database
  instances : ℕ → Option Instance

/-- The steps: the reads and the transactions of each instance. -/
inductive Action
  | readSchemaVersion (i : ℕ) (maxEvents : ℕ+) (fault : Fault)
  | readMigration (i : ℕ) (fault : Fault)
  | writeMigration (i : ℕ) (fault : Fault)
  | loadPersistentEvents (i : ℕ) (fault : Fault)
  | record (i : ℕ) (now : DateTime) (args : RecordArgs) (fault : Fault)
  | checkStore (i : ℕ) (fault : Fault)

/-- What a run leaves in its history. -/
inductive Event
  | recorded (row : StoredAuditRow)
  | pruned (sequence : ℕ)

/-- A new database file without instances. -/
def System.initial : System := ⟨Database.empty, fun _ => none⟩

def System.setInstance (s : System) (i : ℕ) (inst : Option Instance) : System :=
  { s with instances := Function.update s.instances i inst }

@[simp] theorem System.setInstance_db (s : System) (i : ℕ) (inst : Option Instance) :
    (s.setInstance i inst).db = s.db := rfl

/-- The history of a `record` call: its row when it was committed, then what it pruned. -/
def Recorded.events (r : Recorded) : List Event :=
  match r.result with
  | .ok (_, some row) => .recorded row :: r.deleted.map .pruned
  | _ => []

/-- A step of an instance. A constructor that raises leaves no instance. -/
def step (zone : NaiveDateTime → Except Exn ℤ) : Machine.Step System Action Event
  | s, .readSchemaVersion i maxEvents fault =>
    if fault ≠ .none then some (s.setInstance i none, [])
    else match readSchemaVersion s.db with
      | .error _ => some (s.setInstance i none, [])
      | .ok schemaVersion => some (s.setInstance i (some (.opening maxEvents schemaVersion)), [])
  | s, .readMigration i fault =>
    match s.instances i with
    | some (.opening maxEvents schemaVersion) =>
      if fault ≠ .none then some (s.setInstance i none, [])
      else match readMigration schemaVersion s.db with
        | .error _ => some (s.setInstance i none, [])
        | .ok migration => some (s.setInstance i (some (.migrating maxEvents migration)), [])
    | _ => none
  | s, .writeMigration i fault =>
    match s.instances i with
    | some (.migrating maxEvents migration) =>
      if fault ≠ .none then some (s.setInstance i none, [])
      else match writeMigration migration s.db with
        | .error _ => some (s.setInstance i none, [])
        | .ok db => some ({ s with db := db }.setInstance i (some (.initialized maxEvents)), [])
    | _ => none
  | s, .loadPersistentEvents i fault =>
    match s.instances i with
    | some (.initialized maxEvents) =>
      match loadPersistentEvents zone maxEvents s.db fault with
      | .error _ => some (s.setInstance i none, [])
      | .ok loaded =>
        some ({ s with db := loaded.db }.setInstance i (some (.ready loaded.log)),
          loaded.deleted.map .pruned)
    | _ => none
  | s, .record i now args fault =>
    match s.instances i with
    | some (.ready log) =>
      let r := record zone log s.db now args fault
      some ({ s with db := r.db }.setInstance i (some (.ready r.log)), r.events)
    | _ => none
  | s, .checkStore i fault =>
    match s.instances i with
    | some (.ready log) =>
      some (s.setInstance i (some (.ready (checkStore zone log s.db fault).1)), [])
    | _ => none

/-- What was read for the migration would be read again. -/
def Migration.Fresh (db : Database) : Migration → Prop
  | .refreshChainTip tip => tip = lastRowTip db
  | .addHighWaterMark tip => readChainTip db = .ok (some tip)
  | .upToDate => True

instance (db : Database) : DecidablePred (Migration.Fresh db)
  | .refreshChainTip tip => inferInstanceAs (Decidable (tip = lastRowTip db))
  | .addHighWaterMark tip => inferInstanceAs (Decidable (readChainTip db = .ok (some tip)))
  | .upToDate => inferInstanceAs (Decidable True)

/-- A constructor that is about to write metadata has read nothing that has changed since. -/
def Instance.Fresh (db : Database) : Instance → Prop
  | .migrating _ migration => migration.Fresh db
  | _ => True

instance (db : Database) : DecidablePred (Instance.Fresh db)
  | .migrating _ migration => inferInstanceAs (Decidable (migration.Fresh db))
  | .opening _ _ | .initialized _ | .ready _ => inferInstanceAs (Decidable True)

/-- A constructor that writes metadata finds what it has read before: no other instance has
recorded an event in between. -/
def FreshMigrations (s : System) (_ : List Event) : Action → Prop
  | .writeMigration i .none => ∀ inst ∈ s.instances i, inst.Fresh s.db
  | _ => True

instance (s : System) (es : List Event) : DecidablePred (FreshMigrations s es)
  | .writeMigration i .none => inferInstanceAs (Decidable (∀ inst ∈ s.instances i, inst.Fresh s.db))
  | .writeMigration _ .opening | .writeMigration _ .writing | .writeMigration _ .committing
  | .readSchemaVersion _ _ _ | .readMigration _ _ | .loadPersistentEvents _ _ | .record _ _ _ _
  | .checkStore _ _ => inferInstanceAs (Decidable True)

/-- The rows that a run has recorded. -/
def recordedRows (es : List Event) : List StoredAuditRow :=
  es.filterMap fun
    | .recorded row => some row
    | .pruned _ => none

/-- The sequences that a run has pruned. -/
def prunedSequences (es : List Event) : List ℕ :=
  es.filterMap fun
    | .recorded _ => none
    | .pruned sequence => some sequence

@[simp] theorem recordedRows_append (es fs : List Event) :
    recordedRows (es ++ fs) = recordedRows es ++ recordedRows fs := List.filterMap_append

@[simp] theorem prunedSequences_append (es fs : List Event) :
    prunedSequences (es ++ fs) = prunedSequences es ++ prunedSequences fs := List.filterMap_append

@[simp] theorem recordedRows_pruned (deleted : List ℕ) :
    recordedRows (deleted.map .pruned) = [] := by
  simp [recordedRows, List.filterMap_map]

@[simp] theorem prunedSequences_pruned (deleted : List ℕ) :
    prunedSequences (deleted.map .pruned) = deleted := by
  simp [prunedSequences, List.filterMap_map]

/-! ### The database holds the chain -/

/-- The database holds an honest chain without its first `k` rows, and metadata that name `t`. -/
structure Holds (db : Database) (history : List StoredAuditRow) (k : ℕ) (t : AuditChainTip) :
    Prop where
  version : db.userVersion = currentAuditSchemaVersion
  honest : HonestChain history
  rows : db.events.val = (history.drop k).map toAuditRow
  bound : k < history.length ∨ k = 0
  tip : readChainTip db = .ok (some t)
  mark : readHighWaterMark db = .ok (some t)

/-- The metadata name the tip of the chain. -/
abbrev Stores (db : Database) (history : List StoredAuditRow) (k : ℕ) : Prop :=
  Holds db history k (chainTipOf history)

variable {zone : NaiveDateTime → Except Exn ℤ} {db : Database} {history : List StoredAuditRow}
  {k : ℕ} {t : AuditChainTip}

theorem Holds.verifyDatabase_eq (h : Holds db history k t) :
    verifyDatabase zone db =
      .ok (history.drop k, verifyStoredRows (history.drop k) (some t) (some t)) := by
  rw [verifyDatabase, fetchStoredRows_map zone h.rows, h.tip, h.mark]
  rfl

/-- The verification of every transaction accepts, and says whether anything was pruned. -/
theorem Stores.verifyDatabase_eq (h : Stores db history k) :
    verifyDatabase zone db =
      .ok (history.drop k, if k = 0 then .verified else .retentionGap) := by
  rw [Holds.verifyDatabase_eq h, verifyStoredRows_drop h.honest h.bound]

/-- Metadata that name another tip are reported as tampered. -/
theorem Holds.verifyDatabase_stale (h : Holds db history k t) (hne : t ≠ chainTipOf history) :
    verifyDatabase zone db = .ok (history.drop k, .tamperDetected) := by
  rw [h.verifyDatabase_eq, verifyStoredRows_stale h.honest h.bound hne]

/-- The rows end where the chain does. -/
theorem Holds.getLast?_drop (h : Holds db history k t) :
    (history.drop k).getLast? = history.getLast? := by
  rw [List.getLast?_drop]
  split
  · have := h.bound
    obtain rfl : history = [] := List.length_eq_zero_iff.1 (by omega)
    rfl
  · rfl

/-- A constructor that reads the last row now reads the tip of the chain. -/
theorem Holds.lastRowTip_eq (h : Holds db history k t) : lastRowTip db = chainTipOf history := by
  rw [← h.honest.tip_eq, lastRowTip, h.rows, List.getLast?_map, h.getLast?_drop, Option.map_map]
  rfl

theorem Holds.length_rows (h : Holds db history k t) :
    db.events.val.length = history.length - k := by
  rw [h.rows, List.length_map, List.length_drop]

theorem HonestChain.drop_sequences (h : HonestChain history) (k : ℕ) :
    (history.drop k).map (·.event.sequence) = List.range' (k + 1) (history.length - k) := by
  rw [List.map_drop, h.numbered, List.drop_range']
  simp [Nat.add_comm]

/-- The stored sequence numbers are those that were not pruned. -/
theorem Holds.sequences (h : Holds db history k t) :
    db.events.val.map AuditRow.sequence = List.range' (k + 1) (history.length - k) := by
  rw [h.rows, List.map_map, ← h.honest.drop_sequences k]
  rfl

/-- Pruning moves the start of the retained rows, and never past the last one. -/
theorem Stores.prune (h : Stores db history k) (maxEvents : ℕ+) :
    Stores { db with events := (pruneOldest maxEvents db.events).1 } history
        (k + (pruneOldest maxEvents db.events).2.length) ∧
      (pruneOldest maxEvents db.events).2 =
        List.range' (k + 1) (pruneOldest maxEvents db.events).2.length := by
  have hlen := h.length_rows
  have hpos := maxEvents.pos
  have hdeleted : (pruneOldest maxEvents db.events).2.length =
      db.events.val.length - maxEvents := by simp [pruneOldest]
  refine ⟨⟨h.version, h.honest, ?_, ?_, h.tip, h.mark⟩, ?_⟩
  · rw [hdeleted, ← List.drop_drop, List.map_drop, ← h.rows]
    rfl
  · have := h.bound
    omega
  · rw [hdeleted]
    simp only [pruneOldest, List.map_take, h.sequences]
    exact List.take_range'_of_length_ge (by omega)

/-- Metadata that was written is read back. -/
theorem readChainMetadata_write {sequenceKey hashKey : MetadataKey} (hne : sequenceKey ≠ hashKey)
    {tip : AuditChainTip} (htip : tip.sequence < 2 ^ 63)
    (metadata : MetadataKey → Option SqlText) :
    readChainMetadata (writeChainMetadata sequenceKey hashKey tip metadata) sequenceKey hashKey =
      .ok (some tip) := by
  have hint : parseInt 10 (natStr tip.sequence) = some (tip.sequence : ℤ) :=
    parseInt_natStr ((length_natStr_le htip).trans (by decide))
  have hparse : parseChainTip (natStr tip.sequence) (hex tip.eventHash.val) = some tip := by
    simp [parseChainTip, hint, fromHex_hex, tip.eventHash.property]
  simp only [readChainMetadata, writeChainMetadata, Function.update_self,
    Function.update_of_ne hne, hparse]

theorem readChainTip_write {tip : AuditChainTip} (htip : tip.sequence < 2 ^ 63) (db : Database) :
    readChainTip (writeHighWaterMark tip (writeChainTip tip db)) = .ok (some tip) := by
  have hne : MetadataKey.chainTipSequence ≠ .chainTipHash := by decide
  have h := readChainMetadata_write hne htip db.metadata
  simpa [readChainTip, readChainMetadata, writeHighWaterMark, writeChainTip, writeChainMetadata]
    using h

theorem readHighWaterMark_write {tip : AuditChainTip} (htip : tip.sequence < 2 ^ 63)
    (db : Database) : readHighWaterMark (writeHighWaterMark tip db) = .ok (some tip) :=
  readChainMetadata_write (by decide) htip db.metadata

/-- The database after the writes of `record`, before it prunes. -/
theorem Stores.append (h : Stores db history k) {row : StoredAuditRow}
    (hhonest : HonestChain (history ++ [row])) {events : AuditTable}
    (hinsert : insertLast db.events (toAuditRow row) = some events) :
    Stores (writeHighWaterMark ⟨row.event.sequence, row.eventHash⟩
      (writeChainTip ⟨row.event.sequence, row.eventHash⟩ { db with events := events }))
      (history ++ [row]) k := by
  have htip : (⟨row.event.sequence, row.eventHash⟩ : AuditChainTip) =
      chainTipOf (history ++ [row]) := by
    have hseq : row.event.sequence = history.length + 1 :=
      hhonest.sequence_eq (k := history.length) (by simp)
    simp [chainTipOf, hseq]
  have hevents : events.val = db.events.val ++ [toAuditRow row] := by
    unfold insertLast at hinsert
    split at hinsert
    · rw [← Option.some.inj hinsert]
    · cases hinsert
  have hfits : (chainTipOf (history ++ [row])).sequence < 2 ^ 63 := by
    rw [← htip]
    exact row.fits
  refine ⟨h.version, hhonest, ?_, ?_, ?_, ?_⟩
  · have hk : k ≤ history.length := by
      have := h.bound
      omega
    rw [List.drop_append_of_le_length hk, List.map_append, ← h.rows]
    exact hevents
  · have := h.bound
    simp only [List.length_append, List.length_singleton]
    omega
  · rw [htip]
    exact readChainTip_write hfits _
  · rw [htip]
    exact readHighWaterMark_write hfits _

/-- The row that `record` appends continues the chain. -/
theorem Stores.nextRow_honest (h : Stores db history k) {event : OperatorAuditEvent}
    {row : StoredAuditRow} (hrow : nextRow (history.drop k) event = some row) :
    HonestChain (history ++ [row]) := by
  have hlast := h.getLast?_drop
  have hprev : (history.getLast?.map StoredAuditRow.eventHash).getD genesisAuditHash =
      tipHash genesisAuditHash history := HashChain.getD_getLast? _ _
  have hseq : (history.getLast?.map fun last => last.event.sequence + 1).getD 1 =
      history.length + 1 := by
    cases hl : history.getLast? with
    | none => simp [List.getLast?_eq_none_iff.1 hl]
    | some last =>
      have hpos : 0 < history.length := by
        cases history
        · simp at hl
        · simp
      rw [List.getLast?_eq_getElem?] at hl
      have := h.honest.sequence_eq hl
      simp only [Option.map_some, Option.getD_some]
      omega
  rw [nextRow] at hrow
  simp only [hlast, hprev, hseq] at hrow
  split at hrow
  · cases hrow
    refine ⟨?_, ?_, ?_⟩
    · exact HashChain.linked_append.2 ⟨h.honest.chained, rfl, trivial⟩
    · intro row hmem
      rcases List.mem_append.1 hmem with hmem | hmem
      · exact h.honest.isSealed row hmem
      · obtain rfl := List.mem_singleton.1 hmem
        rfl
    · rw [List.map_append, h.honest.numbered, List.length_append, List.length_singleton,
        List.range'_concat]
      simp [Nat.add_comm]
  · cases hrow

/-! ### The transactions keep it -/

theorem retained_ne_tamper (k : ℕ) :
    (if k = 0 then Integrity.verified else .retentionGap) ≠ .tamperDetected := by
  split <;> simp

variable (zone) in
/-- `_persist_event` raises, with a tamper verdict only on stale metadata, or it appends one row and
prunes the next oldest ones. -/
theorem Holds.persistEvent_cases (h : Holds db history k t) (maxEvents : ℕ+)
    (event : OperatorAuditEvent) (fault : Fault) :
    (∃ integrity e, persistEvent zone maxEvents db event fault = (integrity, .error e) ∧
        (t = chainTipOf history → integrity ≠ some .tamperDetected)) ∨
      ∃ integrity p, persistEvent zone maxEvents db event fault = (some integrity, .ok p) ∧
        integrity ≠ .tamperDetected ∧
        Stores p.db (history ++ [p.row]) (k + p.deleted.length) ∧
        p.deleted = List.range' (k + 1) p.deleted.length := by
  by_cases ht : t = chainTipOf history
  · subst ht
    rw [persistEvent, Stores.verifyDatabase_eq h]
    split
    · exact Or.inl ⟨_, _, rfl, by simp⟩
    simp only [if_neg (retained_ne_tamper k)]
    cases hrow : nextRow (history.drop k) event with
    | none => exact Or.inl ⟨_, _, rfl, by simp⟩
    | some row =>
      simp only
      cases hinsert : insertLast db.events (toAuditRow row) with
      | none => exact Or.inl ⟨_, _, rfl, by simp⟩
      | some events =>
        have hwritten := Stores.append h (Stores.nextRow_honest h hrow) hinsert
        obtain ⟨hpruned, hdeleted⟩ := hwritten.prune maxEvents
        simp only [Stores.verifyDatabase_eq hpruned]
        split
        · exact Or.inl ⟨_, _, rfl, by simp⟩
        · split
          · exact Or.inl ⟨_, _, rfl, fun _ heq => retained_ne_tamper _ (Option.some.inj heq)⟩
          · exact Or.inr ⟨_, _, rfl, retained_ne_tamper _, hpruned, hdeleted⟩
  · -- stale metadata stop every append
    rw [persistEvent, h.verifyDatabase_stale ht]
    split
    · exact Or.inl ⟨_, _, rfl, by simp⟩
    · exact Or.inl ⟨_, _, rfl, fun heq => absurd heq ht⟩

/-- A log on the database that has seen no tampering, as far as the metadata were `good`. -/
structure OperatorAuditLog.Sound (good : Prop) (log : OperatorAuditLog) : Prop where
  persistent : log.persistent = true
  integrity : good → log.integrity ≠ .tamperDetected

variable {good : Prop}

theorem OperatorAuditLog.Sound.set_integrity {log : OperatorAuditLog} (h : log.Sound good)
    {integrity : Option Integrity} (hne : good → integrity ≠ some .tamperDetected) :
    ({ log with integrity := integrity.getD log.integrity } : OperatorAuditLog).Sound good := by
  refine ⟨h.persistent, fun hgood => ?_⟩
  cases integrity with
  | none => exact h.integrity hgood
  | some status => simpa using hne hgood

/-- `_load_persistent_events` raises, or it only prunes the oldest rows. -/
theorem Holds.loadPersistentEvents_cases (h : Holds db history k t)
    (hgood : good → t = chainTipOf history) {maxEvents : ℕ+} {fault : Fault} {loaded : Loaded}
    (hload : loadPersistentEvents zone maxEvents db fault = .ok loaded) :
    Holds loaded.db history (k + loaded.deleted.length) t ∧
      loaded.deleted = List.range' (k + 1) loaded.deleted.length ∧
      loaded.log.Sound good := by
  by_cases ht : t = chainTipOf history
  · subst ht
    obtain ⟨hpruned, hdeleted⟩ := Stores.prune h maxEvents
    rw [loadPersistentEvents, Stores.verifyDatabase_eq h] at hload
    split at hload
    · cases hload
    simp only [if_neg (retained_ne_tamper k), Stores.verifyDatabase_eq hpruned] at hload
    split at hload
    · cases hload
    split at hload
    · cases hload
    · cases hload
      exact ⟨hpruned, hdeleted, rfl, fun _ => retained_ne_tamper _⟩
  · rw [loadPersistentEvents, h.verifyDatabase_stale ht] at hload
    split at hload
    · cases hload
    simp only [if_true] at hload
    split at hload
    · cases hload
    · cases hload
      exact ⟨h, rfl, rfl, fun hg => absurd (hgood hg) ht⟩

/-- The tip is read back in the transaction that has written it. -/
theorem writeMigration_refresh (ht : t.sequence < 2 ^ 63) (db : Database) :
    writeMigration (.refreshChainTip t) db =
      .ok { writeHighWaterMark t (writeChainTip t db) with
        userVersion := currentAuditSchemaVersion } := by
  have hread : readChainTip (writeChainTip t db) = .ok (some t) :=
    readChainMetadata_write (by decide) ht db.metadata
  simp only [writeMigration, hread]
  rfl

/-- The metadata after a migration, whatever they were before. -/
theorem holds_refreshed (ht : t.sequence < 2 ^ 63) (honest : HonestChain history)
    (rows : db.events.val = (history.drop k).map toAuditRow) (bound : k < history.length ∨ k = 0) :
    Holds { writeHighWaterMark t (writeChainTip t db) with
      userVersion := currentAuditSchemaVersion } history k t :=
  ⟨rfl, honest, rows, bound, readChainTip_write ht _, readHighWaterMark_write ht _⟩

/-- A current schema is left as it is. -/
theorem writeMigration_upToDate (h : db.userVersion = currentAuditSchemaVersion) :
    writeMigration .upToDate db = .ok db := by
  cases db
  cases h
  rfl

variable (zone) in
/-- `record` raises and stores nothing, or it stores the next row and prunes the oldest ones. -/
theorem Holds.record_cases (h : Holds db history k t) (hgood : good → t = chainTipOf history)
    {log : OperatorAuditLog} (hlog : log.Sound good) (now : DateTime) (args : RecordArgs)
    (fault : Fault) :
    (record zone log db now args fault).log.Sound good ∧
      ((record zone log db now args fault).db = db ∧
          (record zone log db now args fault).events = [] ∨
        ∃ row deleted, (record zone log db now args fault).events =
            .recorded row :: deleted.map .pruned ∧
          Stores (record zone log db now args fault).db (history ++ [row]) (k + deleted.length) ∧
          deleted = List.range' (k + 1) deleted.length) := by
  cases hbase : baseEvent log.nextSequence now args with
  | error e =>
    rw [record_of_baseEvent_error hbase]
    exact ⟨hlog, Or.inl ⟨rfl, rfl⟩⟩
  | ok event =>
    rcases h.persistEvent_cases zone log.maxEvents event fault with
      ⟨integrity, e, hp, hne⟩ | ⟨integrity, p, hp, hne, hstores, hdeleted⟩
    · rw [record_of_error hlog.persistent hbase hp]
      exact ⟨hlog.set_integrity fun hg => hne (hgood hg), Or.inl ⟨rfl, rfl⟩⟩
    · rw [record_of_ok hlog.persistent hbase hp]
      exact ⟨⟨hlog.persistent, fun _ => hne⟩, Or.inr ⟨p.row, p.deleted, rfl, hstores, hdeleted⟩⟩

theorem Holds.checkStore_sound (h : Holds db history k t) (hgood : good → t = chainTipOf history)
    {log : OperatorAuditLog} (hlog : log.Sound good) (fault : Fault) :
    (checkStore zone log db fault).1.Sound good := by
  rw [checkStore, if_neg (by simp [hlog.persistent]), h.verifyDatabase_eq]
  split
  · exact hlog
  have hset : ({ log with integrity := verifyStoredRows (history.drop k) (some t) (some t) } :
      OperatorAuditLog).Sound good := by
    refine ⟨hlog.persistent, fun hg => ?_⟩
    rw [hgood hg, verifyStoredRows_drop h.honest h.bound]
    exact retained_ne_tamper k
  simp only
  split
  · exact hlog
  split
  · exact hset
  · exact hset

/-- A `record` that raises changes nothing but, at most, its verdict on the store. -/
theorem record_error {log : OperatorAuditLog} {now : DateTime} {args : RecordArgs} {fault : Fault}
    {e : AuditError} (h : (record zone log db now args fault).result = .error e) :
    (record zone log db now args fault).db = db ∧
      (record zone log db now args fault).log.events = log.events ∧
      (record zone log db now args fault).log.nextSequence = log.nextSequence := by
  cases hbase : baseEvent log.nextSequence now args with
  | error e =>
    rw [record_of_baseEvent_error hbase]
    exact ⟨rfl, rfl, rfl⟩
  | ok event =>
    by_cases hlog : log.persistent = true
    · rcases hp : persistEvent zone log.maxEvents db event fault with ⟨integrity, e' | p⟩
      · rw [record_of_error hlog hbase hp]
        exact ⟨rfl, rfl, rfl⟩
      · rw [record_of_ok hlog hbase hp] at h
        cases h
    · unfold record at h
      rw [hbase] at h
      simp [hlog] at h

/-! ### The invariant of a run -/

/-- What an instance relies on: the tip that it has read is readable, and is the genesis tip as long
as nothing was recorded; once it is past `_initialize_schema`, the schema is current. -/
def Instance.Fits (good : Prop) (db : Database) (history : List StoredAuditRow) : Instance → Prop
  | .opening _ schemaVersion =>
    schemaVersion = 0 ∨ schemaVersion = 3 ∧ db.userVersion = currentAuditSchemaVersion
  | .migrating _ (.refreshChainTip tip) =>
    tip.sequence < 2 ^ 63 ∧ (history = [] → tip = chainTipOf [])
  | .migrating _ (.addHighWaterMark _) => False
  | .migrating _ .upToDate => db.userVersion = currentAuditSchemaVersion
  | .initialized _ => db.userVersion = currentAuditSchemaVersion
  | .ready log => db.userVersion = currentAuditSchemaVersion ∧ log.Sound good

/-- The other instances do not mind that the schema becomes current or that a row is recorded. -/
theorem Instance.Fits.mono {inst : Instance} {db' : Database} {history' : List StoredAuditRow}
    (h : inst.Fits good db history)
    (hversion : db.userVersion = currentAuditSchemaVersion →
      db'.userVersion = currentAuditSchemaVersion)
    (hhistory : history' = [] → history = []) : inst.Fits good db' history' := by
  match inst, h with
  | .opening _ _, h => exact h.imp_right fun h => ⟨h.1, hversion h.2⟩
  | .migrating _ (.refreshChainTip _), h => exact ⟨h.1, fun hnil => h.2 (hhistory hnil)⟩
  | .migrating _ .upToDate, h => exact hversion h
  | .initialized _, h => exact hversion h
  | .ready _, h => exact ⟨hversion h.1, h.2⟩

/-- The database is new, or it holds what the run has recorded and not pruned; if the run was `good`,
or nothing is recorded yet, the metadata name the tip of the chain. -/
structure Consistent (good : Prop) (s : System) (es : List Event) : Prop where
  holds : s.db = Database.empty ∧ es = [] ∨
    ∃ t, Holds s.db (recordedRows es) (prunedSequences es).length t ∧
      (good ∨ recordedRows es = [] → t = chainTipOf (recordedRows es))
  pruned : prunedSequences es = List.range' 1 (prunedSequences es).length
  fits : ∀ i inst, s.instances i = some inst → inst.Fits good s.db (recordedRows es)

/-- On a current schema the chain is stored. -/
theorem Consistent.holds_of_version {s : System} {es : List Event} (h : Consistent good s es)
    (hversion : s.db.userVersion = currentAuditSchemaVersion) :
    ∃ t, Holds s.db (recordedRows es) (prunedSequences es).length t ∧
      (good ∨ recordedRows es = [] → t = chainTipOf (recordedRows es)) := by
  rcases h.holds with ⟨hdb, -⟩ | h
  · rw [hdb] at hversion
    exact absurd hversion (by decide)
  · exact h

theorem Consistent.initial : Consistent good System.initial [] where
  holds := Or.inl ⟨rfl, rfl⟩
  pruned := rfl
  fits := by simp [System.initial]

/-- Pruning continues where earlier pruning stopped. -/
theorem range'_append_pruned {pruned deleted : List ℕ}
    (hp : pruned = List.range' 1 pruned.length)
    (hd : deleted = List.range' (pruned.length + 1) deleted.length) :
    pruned ++ deleted = List.range' 1 (pruned ++ deleted).length := by
  rw [List.length_append, ← List.range'_append_1, ← hp, Nat.add_comm 1, ← hd]

section Steps

variable {s : System} {es : List Event} {i : ℕ} {inst : Option Instance}

/-- A step that writes to the database and to one instance. -/
theorem Consistent.write (h : Consistent good s es) {db : Database} {out : List Event}
    (hholds : ∃ t, Holds db (recordedRows (es ++ out)) (prunedSequences (es ++ out)).length t ∧
      (good ∨ recordedRows (es ++ out) = [] → t = chainTipOf (recordedRows (es ++ out))))
    (hpruned : prunedSequences out =
      List.range' ((prunedSequences es).length + 1) (prunedSequences out).length)
    (hinst : ∀ x ∈ inst, x.Fits good db (recordedRows (es ++ out))) :
    Consistent good (({ s with db := db } : System).setInstance i inst) (es ++ out) where
  holds := Or.inr hholds
  pruned := by
    rw [prunedSequences_append]
    exact range'_append_pruned h.pruned hpruned
  fits := by
    obtain ⟨t, hdb, -⟩ := hholds
    intro j x hj
    rcases Machine.update_eq_some_iff.1 hj with ⟨-, rfl⟩ | ⟨-, hj⟩
    · exact hinst x rfl
    · refine (h.fits j x hj).mono (fun _ => hdb.version) ?_
      simp only [recordedRows_append]
      exact fun hnil => (List.append_eq_nil_iff.1 hnil).1

/-- A step that leaves the database alone. -/
theorem Consistent.set_instance (h : Consistent good s es)
    (hinst : ∀ x ∈ inst, x.Fits good s.db (recordedRows es)) :
    Consistent good (s.setInstance i inst) (es ++ []) := by
  rw [List.append_nil]
  refine ⟨h.holds, h.pruned, fun j x hj => ?_⟩
  rcases Machine.update_eq_some_iff.1 hj with ⟨-, rfl⟩ | ⟨-, hj⟩
  · exact hinst x rfl
  · exact h.fits j x hj

/-- The version that a constructor reads is that of a new file or the current one. -/
theorem Consistent.fits_readSchemaVersion (h : Consistent good s es) (maxEvents : ℕ+)
    {schemaVersion : ℤ} (hread : readSchemaVersion s.db = .ok schemaVersion) :
    (Instance.opening maxEvents schemaVersion).Fits good s.db (recordedRows es) := by
  have hversion : schemaVersion = s.db.userVersion := by
    unfold readSchemaVersion at hread
    split at hread
    · cases hread
    · cases hread
      rfl
  rcases h.holds with ⟨hdb, -⟩ | ⟨t, hdb, -⟩
  · refine Or.inl ?_
    rw [hversion, hdb]
    rfl
  · refine Or.inr ⟨?_, hdb.version⟩
    rw [hversion, hdb.version]
    rfl

/-- The last row that a constructor reads is the tip of the chain. -/
theorem Consistent.lastRowTip_eq (h : Consistent good s es) :
    lastRowTip s.db = chainTipOf (recordedRows es) := by
  rcases h.holds with ⟨hdb, rfl⟩ | ⟨t, hdb, -⟩
  · rw [hdb]
    rfl
  · exact hdb.lastRowTip_eq

theorem Consistent.fits_readMigration (h : Consistent good s es) {maxEvents : ℕ+}
    {schemaVersion : ℤ} (hi : s.instances i = some (.opening maxEvents schemaVersion))
    {migration : Migration} (hread : readMigration schemaVersion s.db = .ok migration) :
    (Instance.migrating maxEvents migration).Fits good s.db (recordedRows es) := by
  rcases h.fits i _ hi with rfl | ⟨rfl, hversion⟩
  · cases hread
    refine ⟨?_, fun hnil => by rw [h.lastRowTip_eq, hnil]⟩
    simp only [lastRowTip]
    cases hlast : s.db.events.val.getLast? with
    | none => simp
    | some row => simpa using row.fits
  · cases hread
    exact hversion

/-- The metadata that a constructor writes name the tip of the chain when they are fresh. -/
theorem Consistent.write_migration (h : Consistent good s es) {maxEvents : ℕ+}
    {migration : Migration} (hi : s.instances i = some (.migrating maxEvents migration))
    (hfresh : good → migration.Fresh s.db) {db : Database}
    (hwrite : writeMigration migration s.db = .ok db) :
    Consistent good (({ s with db := db } : System).setInstance i (some (.initialized maxEvents)))
      (es ++ []) := by
  match migration, h.fits i _ hi with
  | .refreshChainTip tip, ⟨hfits, hnil⟩ =>
    rw [writeMigration_refresh hfits] at hwrite
    cases hwrite
    have htip : good ∨ recordedRows es = [] → tip = chainTipOf (recordedRows es) := by
      rintro (hgood | hempty)
      · exact (hfresh hgood).trans h.lastRowTip_eq
      · rw [hempty]
        exact hnil hempty
    refine h.write ⟨tip, ?_, by simpa using htip⟩ rfl fun x hx => ?_
    · rw [List.append_nil]
      rcases h.holds with ⟨hdb, rfl⟩ | ⟨t, hdb, -⟩
      · rw [hdb]
        exact holds_refreshed hfits honestChain_nil rfl (Or.inr rfl)
      · exact holds_refreshed hfits hdb.honest hdb.rows hdb.bound
    · cases hx
      rfl
  | .upToDate, hversion =>
    rw [writeMigration_upToDate hversion] at hwrite
    cases hwrite
    exact h.set_instance fun x hx => by cases hx; exact hversion

end Steps

/-- Every step keeps the invariant. -/
theorem Consistent.step {s s' : System} {es out : List Event} {a : Action}
    (h : Consistent good s es) (hfresh : good → FreshMigrations s es a)
    (hs : step zone s a = some (s', out)) : Consistent good s' (es ++ out) := by
  cases a with
  | readSchemaVersion i maxEvents fault =>
    simp only [OperatorAudit.step] at hs
    split at hs
    · cases hs
      exact h.set_instance (by simp)
    split at hs
    · cases hs
      exact h.set_instance (by simp)
    · rename_i schemaVersion hread
      cases hs
      exact h.set_instance fun x hx => by cases hx; exact h.fits_readSchemaVersion maxEvents hread
  | readMigration i fault =>
    simp only [OperatorAudit.step] at hs
    split at hs
    · rename_i maxEvents schemaVersion hi
      split at hs
      · cases hs
        exact h.set_instance (by simp)
      split at hs
      · cases hs
        exact h.set_instance (by simp)
      · rename_i migration hread
        cases hs
        exact h.set_instance fun x hx => by cases hx; exact h.fits_readMigration hi hread
    · cases hs
  | writeMigration i fault =>
    simp only [OperatorAudit.step] at hs
    split at hs
    · rename_i maxEvents migration hi
      split at hs
      · cases hs
        exact h.set_instance (by simp)
      rename_i hfault
      obtain rfl : fault = .none := not_not.1 hfault
      split at hs
      · cases hs
        exact h.set_instance (by simp)
      · rename_i db hwrite
        cases hs
        exact h.write_migration hi (fun hgood => hfresh hgood _ hi) hwrite
    · cases hs
  | loadPersistentEvents i fault =>
    simp only [OperatorAudit.step] at hs
    split at hs
    · rename_i maxEvents hi
      obtain ⟨t, hholds, htip⟩ := h.holds_of_version (h.fits i _ hi)
      split at hs
      · cases hs
        exact h.set_instance (by simp)
      · rename_i loaded hload
        obtain ⟨hloaded, hdeleted, hsound⟩ :=
          hholds.loadPersistentEvents_cases (fun hgood => htip (Or.inl hgood)) hload
        cases hs
        refine h.write ⟨t, ?_, by simpa using htip⟩ (by simpa using hdeleted) fun x hx => ?_
        · simpa using hloaded
        · cases hx
          exact ⟨hloaded.version, hsound⟩
    · cases hs
  | record i now args fault =>
    simp only [OperatorAudit.step] at hs
    split at hs
    · rename_i log hi
      obtain ⟨hversion, hlog⟩ := h.fits i _ hi
      obtain ⟨t, hholds, htip⟩ := h.holds_of_version hversion
      obtain ⟨hsound, ⟨hdb, hnone⟩ | ⟨row, deleted, hevents, hdb, hdeleted⟩⟩ :=
        hholds.record_cases zone (fun hgood => htip (Or.inl hgood)) hlog now args fault
      · rw [hnone, hdb] at hs
        cases hs
        exact h.set_instance fun x hx => by cases hx; exact ⟨hversion, hsound⟩
      · rw [hevents] at hs
        cases hs
        have hrow : recordedRows (.recorded row :: deleted.map .pruned) = [row] := by
          simp [recordedRows]
        have hpruned : prunedSequences (.recorded row :: deleted.map .pruned) = deleted := by
          simp [prunedSequences]
        refine h.write ⟨_, ?_, fun _ => rfl⟩ (by rwa [hpruned]) fun x hx => ?_
        · rw [recordedRows_append, prunedSequences_append, hrow, hpruned, List.length_append]
          exact hdb
        · cases hx
          exact ⟨hdb.version, hsound⟩
    · cases hs
  | checkStore i fault =>
    simp only [OperatorAudit.step] at hs
    split at hs
    · rename_i log hi
      obtain ⟨hversion, hlog⟩ := h.fits i _ hi
      obtain ⟨t, hholds, htip⟩ := h.holds_of_version hversion
      cases hs
      refine h.set_instance fun x hx => ?_
      cases hx
      exact ⟨hversion, hholds.checkStore_sound (fun hgood => htip (Or.inl hgood)) hlog fault⟩
    · cases hs

/-- In every run the database holds the chain. -/
theorem consistent_of_reaches {s : System} {es : List Event}
    (h : Machine.Reaches (OperatorAudit.step zone) Machine.anyStep System.initial s es) :
    Consistent False s es :=
  h.invariant (I := Consistent False) Consistent.initial
    fun _ _ _ _ _ hI _ hs => hI.step False.elim hs

/-- In a run of fresh migrations the metadata name its tip. -/
theorem consistent_of_fresh {s : System} {es : List Event}
    (h : Machine.Reaches (OperatorAudit.step zone) FreshMigrations System.initial s es) :
    Consistent True s es :=
  h.invariant (I := Consistent True) Consistent.initial
    fun _ _ _ _ _ hI hok hs => hI.step (fun _ => hok) hs

/-! ### Retention and verification over whole runs -/

/-- **Runs of the audit log.** Whatever the instances do, as long as no constructor writes metadata
that another instance's record has overtaken: the stored sequence numbers are contiguous and end at
the number of recorded events; verification never reports tampering and tells exactly whether an
event was ever pruned; and a `record` that raises leaves the rows, the metadata, the events in
memory and the next sequence number as they were. -/
theorem retention_over_runs {s : System} {es : List Event}
    (h : Machine.Reaches (OperatorAudit.step zone) FreshMigrations System.initial s es) :
    s.db.events.val.map AuditRow.sequence =
        List.range' ((prunedSequences es).length + 1)
          ((recordedRows es).length - (prunedSequences es).length) ∧
      (recordedRows es ≠ [] → s.db.events.val ≠ []) ∧
      (∀ i inst, s.instances i = some inst → inst.isInitialized = true →
        ∃ rows, verifyDatabase zone s.db =
          .ok (rows, if prunedSequences es = [] then .verified else .retentionGap)) ∧
      (∀ i log, s.instances i = some (.ready log) →
        log.persistent = true ∧ log.integrity ≠ .tamperDetected) ∧
      ∀ log now args fault e, (record zone log s.db now args fault).result = .error e →
        (record zone log s.db now args fault).db = s.db ∧
        (record zone log s.db now args fault).log.events = log.events ∧
        (record zone log s.db now args fault).log.nextSequence = log.nextSequence := by
  have hc := consistent_of_fresh h
  refine ⟨?_, ?_, ?_, ?_, fun log now args fault e he => record_error he⟩
  · rcases hc.holds with ⟨hdb, rfl⟩ | ⟨t, hholds, -⟩
    · rw [hdb]
      rfl
    · exact hholds.sequences
  · intro hne hnil
    rcases hc.holds with ⟨-, rfl⟩ | ⟨t, hholds, -⟩
    · exact hne rfl
    · have hlen := hholds.length_rows
      have hbound := hholds.bound
      have hpos := List.length_pos_iff.2 hne
      rw [hnil, List.length_nil] at hlen
      omega
  · intro i inst hi hinit
    have hversion : s.db.userVersion = currentAuditSchemaVersion := by
      match inst, hinit, hc.fits i inst hi with
      | .initialized _, _, hfits => exact hfits
      | .ready _, _, hfits => exact hfits.1
    obtain ⟨t, hholds, htip⟩ := hc.holds_of_version hversion
    obtain rfl := htip (Or.inl trivial)
    exact ⟨_, by simpa using Stores.verifyDatabase_eq hholds⟩
  · intro i log hi
    obtain ⟨-, hsound⟩ := hc.fits i _ hi
    exact ⟨hsound.persistent, hsound.integrity trivial⟩

theorem valid_noon : (⟨2026, 7, 20, 12, 0, 0, 0⟩ : Fields).Valid := by decide

/-- Noon of some day, in UTC. -/
def noon : DateTime := ⟨⟨⟨2026, 7, 20, 12, 0, 0, 0⟩, valid_noon⟩, some 0⟩

/-- The issue of a credential. -/
def issued : RecordArgs where
  source := "pairing".toList
  action := "credential.issue".toList
  outcome := "ok".toList
  principalKind := "operator".toList

/-- Two instances that keep a single event are constructed side by side, and record one each. -/
def twoRecords : List Action :=
  [.readSchemaVersion 0 1 .none, .readSchemaVersion 1 1 .none, .readMigration 1 .none,
   .readMigration 0 .none, .writeMigration 0 .none, .writeMigration 1 .none,
   .loadPersistentEvents 1 .none, .loadPersistentEvents 0 .none, .record 0 noon issued .none,
   .record 1 noon issued .none]

/-- The second record prunes the first one. -/
theorem retention_two_records : ∃ s es,
    Machine.run (OperatorAudit.step fun _ => .ok 0) System.initial twoRecords = some (s, es) ∧
      (recordedRows es).length = 2 ∧ prunedSequences es = [1] ∧
      s.db.events.val.map AuditRow.sequence = List.range' 2 1 := by
  have hrun : (Machine.run (OperatorAudit.step fun _ => .ok 0) System.initial twoRecords).map
      (fun r => ((recordedRows r.2).length, prunedSequences r.2)) = some (2, [1]) := by
    decide +kernel
  have hfresh : Machine.Allowed (OperatorAudit.step fun _ => .ok 0) FreshMigrations System.initial
      [] twoRecords := by
    decide +kernel
  obtain ⟨⟨s, es⟩, hs, hes⟩ := Option.map_eq_some_iff.1 hrun
  obtain ⟨hrec, hpruned⟩ := Prod.mk.inj hes
  have hseq := (retention_over_runs (Machine.reaches_of_run hfresh hs)).1
  rw [hrec, hpruned] at hseq
  exact ⟨s, es, hs, hrec, hpruned, hseq⟩

/-- Metadata that are written too late make verification report tampering, in every run. -/
theorem overtaken_migration {s s' : System} {es out : List Event} {i : ℕ} {maxEvents : ℕ+}
    {tip : AuditChainTip}
    (h : Machine.Reaches (OperatorAudit.step zone) Machine.anyStep System.initial s es)
    (hi : s.instances i = some (.migrating maxEvents (.refreshChainTip tip)))
    (hlate : tip ≠ lastRowTip s.db)
    (hs : step zone s (.writeMigration i .none) = some (s', out)) :
    ∃ rows, verifyDatabase zone s'.db = .ok (rows, .tamperDetected) := by
  have hc := consistent_of_reaches h
  obtain ⟨hfits, hnil⟩ := hc.fits i _ hi
  simp only [step, hi, ne_eq, not_true_eq_false, if_false, writeMigration_refresh hfits] at hs
  cases hs
  rw [hc.lastRowTip_eq] at hlate
  rcases hc.holds with ⟨-, rfl⟩ | ⟨t, hdb, -⟩
  · exact absurd (hnil rfl) hlate
  · exact ⟨_, (holds_refreshed hfits hdb.honest hdb.rows hdb.bound).verifyDatabase_stale hlate⟩

/-- The first instance reads an empty table; before it writes what that says, the second one is
constructed and records. -/
def overtakenConstructor : List Action :=
  [.readSchemaVersion 0 1 .none, .readMigration 0 .none, .readSchemaVersion 1 1 .none,
   .readMigration 1 .none, .writeMigration 1 .none, .loadPersistentEvents 1 .none,
   .record 1 noon issued .none, .writeMigration 0 .none, .loadPersistentEvents 0 .none]

/-- Nobody has edited the database, and verification reports tampering. -/
theorem overtaken_constructor_tampers : ∃ s es rows log,
    Machine.run (OperatorAudit.step fun _ => .ok 0) System.initial overtakenConstructor =
        some (s, es) ∧
      (recordedRows es).length = 1 ∧ s.instances 0 = some (.ready log) ∧
      log.integrity = .tamperDetected ∧
      verifyDatabase (fun _ => .ok 0) s.db = .ok (rows, .tamperDetected) := by
  have hrun : (Machine.run (OperatorAudit.step fun _ => .ok 0) System.initial
      overtakenConstructor).map (fun r => ((recordedRows r.2).length,
        match r.1.instances 0 with
        | some (.ready log) => some log.integrity
        | _ => none,
        match verifyDatabase (fun _ => .ok 0) r.1.db with
        | .ok (_, integrity) => some integrity
        | .error _ => none)) = some (1, some .tamperDetected, some .tamperDetected) := by
    decide +kernel
  obtain ⟨⟨s, es⟩, hs, hes⟩ := Option.map_eq_some_iff.1 hrun
  simp only [Prod.mk.injEq] at hes
  obtain ⟨hlen, hlog, hverify⟩ := hes
  split at hlog
  · rename_i log hi
    split at hverify
    · rename_i rows integrity hdb
      cases hverify
      exact ⟨s, es, rows, log, hs, hlen, hi, Option.some.inj hlog, hdb⟩
    · cases hverify
  · cases hlog

/-! ### Tamper evidence -/

/-- Rows with the same hash are the same row, as far as SHA-256 has no collision among them. -/
theorem eq_of_eventHash_eq {P : StoredAuditRow → Prop}
    (hinj : Set.InjOn sha256 {b | ∃ row, P row ∧ b = row.preimage}) {r c : StoredAuditRow}
    (hr : P r) (hc : P c) (hsr : sha256 r.preimage = r.eventHash)
    (hsc : sha256 c.preimage = c.eventHash) (h : r.eventHash = c.eventHash) : r = c := by
  have hpre : r.preimage = c.preimage :=
    hinj ⟨r, hr, rfl⟩ ⟨c, hc, rfl⟩ (hsr.trans (h.trans hsc.symm))
  exact eq_of_preimage_eq hpre h

/-- The tip that `record` wrote last. -/
def recordedTip (es : List Event) : Option AuditChainTip :=
  (recordedRows es).getLast?.map fun row => ⟨row.event.sequence, row.eventHash⟩

/-- **Tamper evidence.** Take the chain that a run has recorded, its metadata as the last `record`
wrote them, and any table of parsed rows. Unless two of the preimages involved collide or one of them
hashes to the genesis value, rows that are not reported as tampered are a suffix of the chain; the
suffix is not empty unless the chain is, and it is the whole chain if the answer is `verified`. -/
theorem tamper_evidence {s : System} {es : List Event}
    (h : Machine.Reaches (OperatorAudit.step zone) Machine.anyStep System.initial s es)
    {tip mark : Option AuditChainTip} (htip : readChainTip s.db = .ok tip)
    (hmark : readHighWaterMark s.db = .ok mark)
    (hleft : ∀ last ∈ recordedTip es, tip = some last ∧ mark = some last)
    {rows : List StoredAuditRow}
    (hinj : Set.InjOn sha256
      {b | ∃ row, (row ∈ rows ∨ row ∈ recordedRows es) ∧ b = row.preimage})
    (hgenesis : ∀ row, row ∈ rows ∨ row ∈ recordedRows es →
      sha256 row.preimage ≠ genesisAuditHash)
    (haccept : verifyStoredRows rows tip mark ≠ .tamperDetected) :
    rows <:+ recordedRows es ∧ (recordedRows es ≠ [] → rows ≠ []) ∧
      (verifyStoredRows rows tip mark = .verified → rows = recordedRows es) := by
  rcases (consistent_of_reaches h).holds with ⟨hdb, -⟩ | ⟨t, hholds, ht⟩
  · -- without metadata nothing is accepted
    rw [hdb] at htip
    cases htip
    exact absurd rfl haccept
  rw [hholds.tip] at htip
  rw [hholds.mark] at hmark
  cases htip
  cases hmark
  -- what `record` wrote, or the constructor when nothing was recorded, is the tip of the chain
  obtain rfl : t = chainTipOf (recordedRows es) := by
    rw [← hholds.honest.tip_eq]
    cases hlast : (recordedRows es).getLast? with
    | none =>
      have hnil := List.getLast?_eq_none_iff.1 hlast
      rw [ht (Or.inr hnil), hnil]
      rfl
    | some row => exact Option.some.inj (hleft _ (by rw [recordedTip, hlast]; rfl)).1
  cases rows with
  | nil =>
    have hnil : recordedRows es = [] := by
      by_contra hne
      refine haccept (if_neg ?_)
      rintro ⟨hlen, -⟩
      exact hne (List.length_eq_zero_iff.1 hlen)
    simp [hnil]
  | cons first rest =>
    rcases verifyStoredRows_cons first rest (chainTipOf (recordedRows es))
      (chainTipOf (recordedRows es)) with ⟨hacc, hanswer⟩ | ⟨-, htamper⟩
    · have hsuffix : first :: rest <:+ recordedRows es := by
        refine HashChain.suffix_of_tip hholds.honest.chained hacc.chained ?_ ?_ (by simp)
          hacc.tip_hash.symm
        · intro r hr c hc
          exact eq_of_eventHash_eq hinj (Or.inl hr) (Or.inr hc) (hacc.isSealed r hr)
            (hholds.honest.isSealed c hc)
        · intro r hr heq
          exact hgenesis r (Or.inl hr) ((hacc.isSealed r hr).trans heq)
      refine ⟨hsuffix, by simp, fun hverified => ?_⟩
      -- a verified table starts with sequence one, which only the first recorded row has
      have hone : first.event.sequence = 1 := by
        by_contra hne
        rw [hanswer, if_neg hne] at hverified
        cases hverified
      obtain ⟨front, hfront⟩ := hsuffix
      have hindex : first.event.sequence = front.length + 1 :=
        hholds.honest.sequence_eq (k := front.length) (by simp [← hfront])
      obtain rfl : front = [] := List.length_eq_zero_iff.1 (by omega)
      exact hfront
    · exact absurd htamper haccept

/-- In a run of fresh migrations the metadata stay as `record` wrote them. -/
theorem metadata_left {s : System} {es : List Event}
    (h : Machine.Reaches (OperatorAudit.step zone) FreshMigrations System.initial s es) :
    ∀ last ∈ recordedTip es,
      readChainTip s.db = .ok (some last) ∧ readHighWaterMark s.db = .ok (some last) := by
  intro last hlast
  rcases (consistent_of_fresh h).holds with ⟨-, rfl⟩ | ⟨t, hholds, ht⟩
  · cases hlast
  · obtain rfl : last = t := by
      rw [ht (Or.inl trivial), ← hholds.honest.tip_eq]
      exact (congrArg (Option.getD · ⟨0, genesisAuditHash⟩) hlast).symm
    exact ⟨hholds.tip, hholds.mark⟩

/-- The row that is left of two records is accepted, and is a suffix of both. -/
theorem tamper_evidence_two_records : ∃ s es tip mark rows,
    Machine.run (OperatorAudit.step fun _ => .ok 0) System.initial twoRecords = some (s, es) ∧
      (recordedRows es).length = 2 ∧ rows.length = 1 ∧
      verifyStoredRows rows tip mark = .retentionGap ∧ rows <:+ recordedRows es := by
  have hrun : (Machine.run (OperatorAudit.step fun _ => .ok 0) System.initial twoRecords).map
      (fun r => ((recordedRows r.2).length, (prunedSequences r.2).length,
        decide ((genesisAuditHash :: (recordedRows r.2).map (sha256 ·.preimage)).Nodup))) =
      some (2, 1, true) := by
    decide +kernel
  have hfresh : Machine.Allowed (OperatorAudit.step fun _ => .ok 0) FreshMigrations System.initial
      [] twoRecords := by
    decide +kernel
  obtain ⟨⟨s, es⟩, hs, hes⟩ := Option.map_eq_some_iff.1 hrun
  simp only [Prod.mk.injEq, decide_eq_true_eq, List.nodup_cons] at hes
  obtain ⟨hlen, hpruned, hgenesis, hnodup⟩ := hes
  have hreach := Machine.reaches_of_run hfresh hs
  obtain ⟨t, hholds, ht⟩ : ∃ t, Holds s.db (recordedRows es) 1 t ∧
      (True ∨ recordedRows es = [] → t = chainTipOf (recordedRows es)) := by
    rcases (consistent_of_fresh hreach).holds with ⟨-, rfl⟩ | h
    · cases hlen
    · rwa [hpruned] at h
  obtain rfl := ht (Or.inl trivial)
  have hleft : ∀ last ∈ recordedTip es, some (chainTipOf (recordedRows es)) = some last ∧
      some (chainTipOf (recordedRows es)) = some last := fun last hlast => by
    have hread := (metadata_left hreach last hlast).1
    rw [hholds.tip] at hread
    exact ⟨Except.ok.inj hread, Except.ok.inj hread⟩
  have hmem : ∀ row, row ∈ (recordedRows es).drop 1 ∨ row ∈ recordedRows es →
      row ∈ recordedRows es := fun row h => h.elim List.mem_of_mem_drop id
  have hgap := verifyStoredRows_drop hholds.honest hholds.bound
  rw [if_neg (by decide)] at hgap
  refine ⟨s, es, _, _, (recordedRows es).drop 1, hs, hlen, by simp [hlen], hgap, ?_⟩
  refine (tamper_evidence (Machine.run_reaches hs) hholds.tip hholds.mark hleft ?_ ?_
    (by rw [hgap]; decide)).1
  · rintro _ ⟨r, hr, rfl⟩ _ ⟨c, hc, rfl⟩ heq
    rw [List.inj_on_of_nodup_map hnodup (hmem r hr) (hmem c hc) heq]
  · intro row hrow heq
    exact hgenesis (heq ▸ List.mem_map_of_mem (hmem row hrow))

end GoffyHub.OperatorAudit
