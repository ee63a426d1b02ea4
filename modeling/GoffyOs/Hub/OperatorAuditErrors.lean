import GoffyOs.Hub.OperatorAuditChain

/-!
# Which exceptions leave the audit log

Parsing a stored row runs validators that raise `ValueError` or `OverflowError`, and callers of the
log handle `OperatorAuditStoreError` only. This module determines for which contents of the database
every operation fails closed.

* Rows are read by `fetchStoredRows`; a text that is not UTF-8 fails the query first, which is a
  store error, and otherwise the first malformed row raises (`fetchStoredRows_cases`).
* `check_store` turns `ValueError` into a store error, the constructor and `record` do not; an
  `OverflowError` of a timestamp passes all three.
* `record` also raises `OverflowError` when the chain has used the last sequence number that SQLite
  can store.

`failsClosedOn_iff` is the exact condition.
-/

namespace GoffyHub.OperatorAudit

open Python

/-- The operation succeeds or raises `OperatorAuditStoreError`. -/
def FailsClosed {α : Type} (r : Except AuditError α) : Prop := ∀ e, r ≠ .error (.exn e)

/-- Every operation fails closed on this database: the constructor, and on any log that uses it
`record`, for arguments and clock readings that are themselves acceptable, and `check_store`. -/
def FailsClosedOn (zone : NaiveDateTime → Except Exn ℤ) (db : Database) : Prop :=
  (∀ maxEvents schemaFault loadFault,
      FailsClosed (construct zone maxEvents db schemaFault loadFault).2) ∧
    (∀ log now args fault event, log.persistent = true →
      baseEvent log.nextSequence now args = .ok event →
      FailsClosed (record zone log db now args fault).result) ∧
    ∀ log fault, FailsClosed (checkStore zone log db fault).2

/-- The texts of a row pass the validators of `_row_to_stored_event`. -/
structure AuditRow.WellFormed (zone : NaiveDateTime → Except Exn ℤ) (row : AuditRow Str) : Prop where
  recordedAt : ∃ d, parseDatetime zone row.recordedAt = .ok d
  source : (auditToken row.source).isSome
  action : (auditToken row.action).isSome
  outcome : (auditToken row.outcome).isSome
  principalKind : (auditToken row.principalKind).isSome
  credentialId : ∀ text ∈ row.credentialId, (parseUuid text).isSome
  detailCode : ∀ text ∈ row.detailCode, (auditToken text).isSome

/-- Every row can be read and is well formed. -/
def AllWellFormed (zone : NaiveDateTime → Except Exn ℤ) (events : AuditTable) : Prop :=
  ∀ row ∈ events.val, ∃ texts, row.decode = some texts ∧ texts.WellFormed zone

/-- Some text of the table is not UTF-8. -/
def Undecodable (events : AuditTable) : Prop := ∃ row ∈ events.val, row.decode = none

/-- The table passes verification and has used the last sequence number of SQLite. -/
def Exhausted (zone : NaiveDateTime → Except Exn ℤ) (db : Database) : Prop :=
  ∃ rows integrity last, verifyDatabase zone db = .ok (rows, integrity) ∧
    integrity ≠ .tamperDetected ∧ rows.getLast? = some last ∧
    last.event.sequence = 2 ^ 63 - 1

section Parsing

variable {zone : NaiveDateTime → Except Exn ℤ}

theorem exists_ok_bind {ε α β : Type} {x : Except ε α} {f : α → Except ε β} :
    (∃ b, x >>= f = .ok b) ↔ ∃ a, x = .ok a ∧ ∃ b, f a = .ok b := by
  cases x with
  | error e => simp [bind, Except.bind]
  | ok a => simp [bind, Except.bind]

theorem exists_orValueError {α : Type} {x : Option α} :
    (∃ a, orValueError x = .ok a) ↔ x.isSome := by
  cases x <;> simp [orValueError]

theorem exists_parseOptional {α : Type} {parse : Str → Option α} {x : Option Str} :
    (∃ a, parseOptional parse x = .ok a) ↔ ∀ text ∈ x, (parse text).isSome := by
  cases x with
  | none => simp [parseOptional]
  | some text => cases h : parse text <;> simp [parseOptional, h, orValueError, Except.map]

/-- A row is parsed exactly when its texts are well formed. -/
theorem exists_rowToStoredEvent {row : AuditRow Str} :
    (∃ stored, rowToStoredEvent zone row = .ok stored) ↔ row.WellFormed zone := by
  simp only [rowToStoredEvent, exists_ok_bind]
  constructor
  · rintro ⟨d, hd, a, ha, b, hb, c, hc, p, hp, u, hu, t, ht, -⟩
    exact ⟨⟨d, hd⟩, exists_orValueError.1 ⟨a, ha⟩, exists_orValueError.1 ⟨b, hb⟩,
      exists_orValueError.1 ⟨c, hc⟩, exists_orValueError.1 ⟨p, hp⟩, exists_parseOptional.1 ⟨u, hu⟩,
      exists_parseOptional.1 ⟨t, ht⟩⟩
  · rintro ⟨⟨d, hd⟩, ha, hb, hc, hp, hu, ht⟩
    obtain ⟨a, ha⟩ := exists_orValueError.2 ha
    obtain ⟨b, hb⟩ := exists_orValueError.2 hb
    obtain ⟨c, hc⟩ := exists_orValueError.2 hc
    obtain ⟨p, hp⟩ := exists_orValueError.2 hp
    obtain ⟨u, hu⟩ := exists_parseOptional.2 hu
    obtain ⟨t, ht⟩ := exists_parseOptional.2 ht
    exact ⟨d, hd, a, ha, b, hb, c, hc, p, hp, u, hu, t, ht, _, rfl⟩

theorem map_eq_of_mapM_eq_some {α β : Type} {f : α → Option β} {l : List α} {bs : List β}
    (h : l.mapM f = some bs) : l.map f = bs.map some := by
  induction l generalizing bs with
  | nil =>
    cases h
    rfl
  | cons a l ih =>
    simp only [List.mapM_cons, Option.bind_eq_bind, Option.bind_eq_some_iff, Option.pure_def,
      Option.some.injEq] at h
    obtain ⟨b, hb, bs, hbs, rfl⟩ := h
    rw [List.map_cons, List.map_cons, hb, ih hbs]

theorem exists_eq_none_of_mapM_eq_none {α β : Type} {f : α → Option β} {l : List α}
    (h : l.mapM f = none) : ∃ a ∈ l, f a = none := by
  induction l with
  | nil => cases h
  | cons a l ih =>
    cases ha : f a with
    | none => exact ⟨a, by simp, ha⟩
    | some b =>
      have hl : l.mapM f = none := by
        rw [List.mapM_cons, ha] at h
        cases hl : l.mapM f with
        | none => rfl
        | some bs => simp [hl] at h
      obtain ⟨x, hx, hnone⟩ := ih hl
      exact ⟨x, by simp [hx], hnone⟩

theorem exists_mapM_ok {ε α β : Type} {f : α → Except ε β} {l : List α} :
    (∃ bs, l.mapM f = .ok bs) ↔ ∀ a ∈ l, ∃ b, f a = .ok b := by
  induction l with
  | nil => simp [pure, Except.pure]
  | cons a l ih =>
    rw [List.mapM_cons, exists_ok_bind, List.forall_mem_cons, ← ih]
    simp only [exists_ok_bind]
    constructor
    · rintro ⟨b, hb, bs, hbs, -⟩
      exact ⟨⟨b, hb⟩, bs, hbs⟩
    · rintro ⟨⟨b, hb⟩, bs, hbs⟩
      exact ⟨b, hb, bs, hbs, _, rfl⟩

end Parsing

section Reading

variable {zone : NaiveDateTime → Except Exn ℤ} {db : Database} {events : AuditTable}

/-- Reading the table: the query fails, or every row is well formed, or a malformed row raises. -/
theorem fetchStoredRows_cases (zone : NaiveDateTime → Except Exn ℤ) (events : AuditTable) :
    (Undecodable events ∧ fetchStoredRows zone events = .error operationFailed) ∨
      (¬ Undecodable events ∧ AllWellFormed zone events ∧
        ∃ rows, fetchStoredRows zone events = .ok rows) ∨
      (¬ Undecodable events ∧ ¬ AllWellFormed zone events ∧
        ∃ e, fetchStoredRows zone events = .error (.exn e)) := by
  cases hdecode : events.val.mapM AuditRow.decode with
  | none =>
    refine Or.inl ⟨exists_eq_none_of_mapM_eq_none hdecode, ?_⟩
    rw [fetchStoredRows, hdecode]
  | some texts =>
    have hmap := map_eq_of_mapM_eq_some hdecode
    have hread : ∀ row ∈ events.val, ∃ t ∈ texts, row.decode = some t := by
      intro row hrow
      have hmem := List.mem_map_of_mem (f := AuditRow.decode) hrow
      rw [hmap] at hmem
      obtain ⟨t, ht, heq⟩ := List.mem_map.1 hmem
      exact ⟨t, ht, heq.symm⟩
    have hun : ¬ Undecodable events := by
      rintro ⟨row, hrow, hnone⟩
      obtain ⟨t, -, ht⟩ := hread row hrow
      rw [hnone] at ht
      cases ht
    have hall : AllWellFormed zone events ↔ ∀ t ∈ texts, t.WellFormed zone := by
      constructor
      · intro h t ht
        have hmem := List.mem_map_of_mem (f := some) ht
        rw [← hmap] at hmem
        obtain ⟨row, hrow, hd⟩ := List.mem_map.1 hmem
        obtain ⟨t', ht', hwf⟩ := h row hrow
        rw [hd] at ht'
        cases ht'
        exact hwf
      · intro h row hrow
        obtain ⟨t, ht, hd⟩ := hread row hrow
        exact ⟨t, hd, h t ht⟩
    have hparse : AllWellFormed zone events ↔
        ∃ rows, texts.mapM (rowToStoredEvent zone) = .ok rows := by
      rw [exists_mapM_ok, hall]
      simp only [exists_rowToStoredEvent]
    cases hrows : texts.mapM (rowToStoredEvent zone) with
    | ok rows =>
      refine Or.inr (Or.inl ⟨hun, hparse.2 ⟨rows, hrows⟩, rows, ?_⟩)
      simp only [fetchStoredRows, hdecode, hrows]
      rfl
    | error e =>
      refine Or.inr (Or.inr ⟨hun, ?_, e, ?_⟩)
      · rw [hparse, hrows]
        simp
      · simp only [fetchStoredRows, hdecode, hrows]
        rfl

theorem failsClosed_readChainMetadata (metadata : MetadataKey → Option SqlText)
    (sequenceKey hashKey : MetadataKey) :
    FailsClosed (readChainMetadata metadata sequenceKey hashKey) := by
  intro e h
  unfold readChainMetadata at h
  split at h <;> cases h

/-- Verification raises a built-in exception exactly when the query succeeds on a malformed row. -/
theorem failsClosed_verifyDatabase :
    FailsClosed (verifyDatabase zone db) ↔ Undecodable db.events ∨ AllWellFormed zone db.events := by
  rcases fetchStoredRows_cases zone db.events with ⟨h, hf⟩ | ⟨-, h, rows, hf⟩ | ⟨hun, h, e, hf⟩
  · refine iff_of_true (fun e he => ?_) (Or.inl h)
    rw [verifyDatabase, hf] at he
    cases he
  · refine iff_of_true (fun e he => ?_) (Or.inr h)
    rw [verifyDatabase, hf] at he
    cases htip : readChainTip db with
    | error e' =>
      rw [htip] at he
      cases he
      exact failsClosed_readChainMetadata _ _ _ e htip
    | ok tip =>
      cases hmark : readHighWaterMark db with
      | error e' =>
        rw [htip, hmark] at he
        cases he
        exact failsClosed_readChainMetadata _ _ _ e hmark
      | ok mark =>
        rw [htip, hmark] at he
        cases he
  · refine iff_of_false (fun hclosed => hclosed e ?_) (by tauto)
    rw [verifyDatabase, hf]
    rfl

theorem allWellFormed_of_verifyDatabase {r : List StoredAuditRow × Integrity}
    (h : verifyDatabase zone db = .ok r) : AllWellFormed zone db.events := by
  rcases fetchStoredRows_cases zone db.events with ⟨-, hf⟩ | ⟨-, hall, -⟩ | ⟨-, -, e, hf⟩
  · rw [verifyDatabase, hf] at h
    cases h
  · exact hall
  · rw [verifyDatabase, hf] at h
    cases h

/-- Retention cannot make a table malformed. -/
theorem AllWellFormed.prune (h : AllWellFormed zone events) (maxEvents : ℕ+) :
    AllWellFormed zone (pruneOldest maxEvents events).1 :=
  fun row hrow => h row (List.mem_of_mem_drop hrow)

/-- Neither can the row that `record` inserts. -/
theorem AllWellFormed.insertLast (h : AllWellFormed zone events) {row : StoredAuditRow}
    {events' : AuditTable} (hinsert : insertLast events (toAuditRow row) = some events') :
    AllWellFormed zone events' := by
  unfold OperatorAudit.insertLast at hinsert
  split at hinsert
  · cases hinsert
    intro r hr
    rcases List.mem_append.1 hr with hr | hr
    · exact h r hr
    · rw [List.mem_singleton.1 hr]
      exact ⟨storedTexts row, decode_toAuditRow row,
        exists_rowToStoredEvent.1 ⟨row, rowToStoredEvent_storedTexts zone row⟩⟩
  · cases hinsert

end Reading

section Operations

variable {zone : NaiveDateTime → Except Exn ℤ} {db : Database}

/-- The next row exceeds SQLite's integers exactly when the last one has used them up. -/
theorem nextRow_eq_none_iff {rows : List StoredAuditRow} {event : OperatorAuditEvent} :
    nextRow rows event = none ↔
      ∃ last, rows.getLast? = some last ∧ last.event.sequence = 2 ^ 63 - 1 := by
  have hdite : nextRow rows event = none ↔
      ¬ (rows.getLast?.map fun last => last.event.sequence + 1).getD 1 < 2 ^ 63 := by
    simp only [nextRow, dite_eq_right_iff, reduceCtorEq, imp_false]
  rw [hdite]
  cases hlast : rows.getLast? with
  | none => simp
  | some last =>
    have := last.fits
    simp only [Option.map_some, Option.getD_some, Option.some.injEq, exists_eq_left']
    omega

theorem readChainTip_cases (db : Database) :
    (∃ message, readChainTip db = .error (.store message)) ∨ ∃ tip, readChainTip db = .ok tip := by
  cases hread : readChainTip db with
  | error e =>
    cases e with
    | store message => exact Or.inl ⟨message, rfl⟩
    | exn e => exact absurd hread (failsClosed_readChainMetadata _ _ _ e)
  | ok tip => exact Or.inr ⟨tip, rfl⟩

theorem readMigration_cases (schemaVersion : ℤ) (db : Database) :
    (∃ message, readMigration schemaVersion db = .error (.store message)) ∨
      ∃ migration, readMigration schemaVersion db = .ok migration := by
  unfold readMigration
  split
  · exact Or.inr ⟨_, rfl⟩
  split
  · rcases readChainTip_cases db with ⟨message, h⟩ | ⟨tip, h⟩
    · exact Or.inl ⟨message, by rw [h]; rfl⟩
    · rw [h]
      cases tip with
      | none => exact Or.inl ⟨_, rfl⟩
      | some tip => exact Or.inr ⟨_, rfl⟩
  · exact Or.inr ⟨_, rfl⟩

theorem writeMigration_cases (migration : Migration) (db : Database) :
    (∃ message, writeMigration migration db = .error (.store message)) ∨
      ∃ db', writeMigration migration db = .ok db' ∧ db'.events = db.events := by
  cases migration with
  | refreshChainTip tip =>
    simp only [writeMigration]
    rcases readChainTip_cases (writeChainTip tip db) with ⟨message, h⟩ | ⟨read, h⟩
    · exact Or.inl ⟨message, by rw [h]; rfl⟩
    · rw [h]
      cases read with
      | none => exact Or.inl ⟨_, rfl⟩
      | some read => exact Or.inr ⟨_, rfl, rfl⟩
  | addHighWaterMark tip => exact Or.inr ⟨_, rfl, rfl⟩
  | upToDate => exact Or.inr ⟨_, rfl, rfl⟩

/-- `_initialize_schema` raises no built-in exception and leaves the rows alone. -/
theorem initializeSchema_cases (db : Database) :
    (∃ message, initializeSchema db = .error (.store message)) ∨
      ∃ db', initializeSchema db = .ok db' ∧ db'.events = db.events := by
  unfold initializeSchema readSchemaVersion
  split
  · exact Or.inl ⟨_, rfl⟩
  have hversion : ∀ f : ℤ → Except AuditError Database,
      (Except.ok db.userVersion >>= f) = f db.userVersion := fun _ => rfl
  rw [hversion]
  rcases readMigration_cases db.userVersion db with ⟨message, h⟩ | ⟨migration, h⟩
  · exact Or.inl ⟨message, by rw [h]; rfl⟩
  · rw [h]
    exact writeMigration_cases migration db

theorem failsClosed_loadPersistentEvents
    (hread : Undecodable db.events ∨ AllWellFormed zone db.events) (maxEvents : ℕ+)
    (fault : Fault) : FailsClosed (loadPersistentEvents zone maxEvents db fault) := by
  intro e he
  unfold loadPersistentEvents at he
  split at he
  · cases he
  split at he
  · rename_i e' hverify
    cases he
    exact failsClosed_verifyDatabase.2 hread e hverify
  · rename_i rows integrity hverify
    have hpruned := (allWellFormed_of_verifyDatabase hverify).prune maxEvents
    split at he
    · split at he <;> cases he
    simp only at he
    split at he
    · cases he
    split at he
    · rename_i e' hverify'
      cases he
      exact failsClosed_verifyDatabase.2 (Or.inr hpruned) e hverify'
    · split at he <;> cases he

theorem failsClosed_construct (hread : Undecodable db.events ∨ AllWellFormed zone db.events)
    (maxEvents : ℕ+) (schemaFault loadFault : Fault) :
    FailsClosed (construct zone maxEvents db schemaFault loadFault).2 := by
  intro e he
  unfold construct at he
  split at he
  · cases he
  rcases initializeSchema_cases db with ⟨message, hinit⟩ | ⟨db', hinit, hevents⟩
  · simp only [hinit] at he
    cases he
  · simp only [hinit] at he
    split at he
    · rename_i e' hload
      cases he
      exact failsClosed_loadPersistentEvents (hevents ▸ hread) maxEvents loadFault e hload
    · cases he

theorem failsClosed_persistEvent (hread : Undecodable db.events ∨ AllWellFormed zone db.events)
    (hlast : ¬ Exhausted zone db) (maxEvents : ℕ+) (event : OperatorAuditEvent) (fault : Fault) :
    FailsClosed (persistEvent zone maxEvents db event fault).2 := by
  intro e he
  rw [persistEvent] at he
  split at he
  · cases he
  cases hverify : verifyDatabase zone db with
  | error e' =>
    simp only [hverify] at he
    cases he
    exact failsClosed_verifyDatabase.2 hread e hverify
  | ok r =>
    obtain ⟨rows, integrity⟩ := r
    simp only [hverify] at he
    split at he
    · cases he
    rename_i htamper
    cases hrow : nextRow rows event with
    | none =>
      obtain ⟨last, hl, hseq⟩ := nextRow_eq_none_iff.1 hrow
      exact hlast ⟨rows, integrity, last, hverify, htamper, hl, hseq⟩
    | some row =>
      simp only [hrow] at he
      cases hinsert : insertLast db.events (toAuditRow row) with
      | none =>
        simp only [hinsert] at he
        cases he
      | some events =>
        simp only [hinsert] at he
        split at he
        · cases he
        have hafter := (allWellFormed_of_verifyDatabase hverify).insertLast hinsert
        split at he
        · rename_i e' hverify'
          cases he
          exact failsClosed_verifyDatabase.2 (Or.inr (hafter.prune maxEvents)) e hverify'
        · split at he <;> cases he

theorem failsClosed_checkStore (hread : Undecodable db.events ∨ AllWellFormed zone db.events)
    (log : OperatorAuditLog) (fault : Fault) : FailsClosed (checkStore zone log db fault).2 := by
  intro e he
  unfold checkStore at he
  split at he
  · cases he
  split at he
  · cases he
  split at he
  · cases he
  · rename_i e' _ hverify
    cases he
    exact failsClosed_verifyDatabase.2 hread e hverify
  · split at he
    · cases he
    · split at he <;> cases he

/-- There is always a call of `record` whose own arguments are acceptable. -/
theorem exists_baseEvent (sequence : ℕ) :
    ∃ now args event, baseEvent sequence now args = .ok event := by
  refine ⟨⟨⟨⟨2026, 7, 20, 12, 0, 0, 0⟩, by decide⟩, none⟩,
    ⟨"hub".toList, "start".toList, "ok".toList, "operator".toList, none, none⟩, ?_⟩
  refine exists_ok_bind.2 ⟨_, rfl, ?_⟩
  simp only [exists_ok_bind, orValueError, parseOptional]
  exact ⟨_, rfl, _, rfl, _, rfl, _, rfl, _, rfl, _, rfl⟩

/-- A log with no events in memory. -/
def emptyLog : OperatorAuditLog := ⟨⟨1, Nat.one_pos⟩, true, [], 1, genesisAuditHash, .verified⟩

/-- **When the audit log fails closed.** Every operation either succeeds or raises
`OperatorAuditStoreError` exactly when the table has a text that is not UTF-8 or only well-formed
rows, and is not a verified table that has used the last sequence number. -/
theorem failsClosedOn_iff (zone : NaiveDateTime → Except Exn ℤ) (db : Database) :
    FailsClosedOn zone db ↔
      (Undecodable db.events ∨ AllWellFormed zone db.events) ∧ ¬ Exhausted zone db := by
  constructor
  · rintro ⟨-, hrecord, -⟩
    obtain ⟨now, args, event, hbase⟩ := exists_baseEvent emptyLog.nextSequence
    have hclosed := hrecord emptyLog now args .none event rfl hbase
    have hraise : ∀ integrity e,
        persistEvent zone emptyLog.maxEvents db event .none ≠ (integrity, .error (.exn e)) := by
      intro integrity e hp
      rw [record_of_error rfl hbase hp] at hclosed
      exact hclosed e rfl
    constructor
    · refine failsClosed_verifyDatabase.1 fun e hverify => hraise none e ?_
      rw [persistEvent, if_neg (by decide), hverify]
    · rintro ⟨rows, integrity, last, hverify, htamper, hlast, hseq⟩
      refine hraise none .overflowError ?_
      rw [persistEvent, if_neg (by decide), hverify]
      simp only [if_neg htamper, nextRow_eq_none_iff.2 ⟨last, hlast, hseq⟩]
  · rintro ⟨hread, hlast⟩
    refine ⟨failsClosed_construct hread, ?_, failsClosed_checkStore hread⟩
    intro log now args fault event hlog hbase e he
    have hpersist := failsClosed_persistEvent hread hlast log.maxEvents event fault
    rcases hp : persistEvent zone log.maxEvents db event fault with ⟨integrity, e' | p⟩
    · rw [record_of_error hlog hbase hp] at he
      cases he
      exact hpersist e (by rw [hp])
    · rw [record_of_ok hlog hbase hp] at he
      cases he

/-- A row that the schema admits, with a blank inside its source token. -/
def malformedRow : AuditRow SqlText where
  sequence := 1
  recordedAt := some "2026-07-20T12:00:00Z".toList
  source := some "bad token".toList
  action := some "start".toList
  outcome := some "ok".toList
  principalKind := some "operator".toList
  credentialId := none
  detailCode := none
  previousHash := genesisAuditHash
  eventHash := genesisAuditHash
  positive := by decide
  fits := by decide

/-- A current database with that row. -/
def malformedDatabase : Database where
  userVersion := currentAuditSchemaVersion
  events := ⟨[malformedRow], List.pairwise_singleton _ _⟩
  metadata := fun
    | .chainTipSequence | .highWaterSequence => some (some "1".toList)
    | .chainTipHash | .highWaterHash => some (some (hex genesisAuditHash.val))

/-- The constructor raises `ValueError` on it. -/
theorem malformed_token_escapes : ¬ FailsClosedOn (fun _ => .ok 0) malformedDatabase := by
  rintro ⟨hconstruct, -, -⟩
  exact hconstruct 1 .none .none .valueError rfl

end Operations

end GoffyHub.OperatorAudit
