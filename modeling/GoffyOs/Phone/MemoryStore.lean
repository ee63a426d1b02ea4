import GoffyOs.Lib.Checks
import GoffyOs.Lib.Sql
import GoffyOs.Phone.PhoneTools

/-!
# The memory store (`phone/AndroidSqliteMemoryStore.kt`)

The phone keeps the memories of its user in a table of at most 100 rows. A memory is written in one
transaction: the row is inserted, the rows beyond the hundredth go, by the time of their creation, and the
row is read back. Where the clock has been set back, the new row is the oldest one of a full table: it is
deleted, it cannot be read back, and the memory is refused (`remembers_iff`).

* The texts of a row are those that were bound. What a cursor gives back of such a text is up to Android
  and SQLite (`getString`): well-formed text comes back, and some surrogates without their partner do not;
* no query compares texts and the schema has no check on them, so that the columns are the numbers;
* the ids are those of `AUTOINCREMENT`: one more than the largest id that there ever was.
-/

namespace GoffyPhone

open Kotlin
open Sql (Value)

def maxMemoryRows : ℕ := 100

/-- The largest row id of SQLite. -/
def maxRowId : ℤ := 2 ^ 63 - 1

/-- What the operations of the store throw. -/
inductive MemoryStoreException
  | illegalArgument (message : String)
  | illegalState (message : String)
  /-- `SQLITE_FULL`: there are no ids left -/
  | full
  deriving DecidableEq

/-! ### Rows -/

/-- A row of `memories`, with the texts that were bound. -/
structure MemoryRow where
  id : ℤ
  text : Str
  provenance : Str
  createdAtEpochMillis : ℤ
  deriving DecidableEq

inductive MemoryColumn
  | id
  | createdAtEpochMillis
  deriving DecidableEq

def MemoryRow.value (row : MemoryRow) : MemoryColumn → Value
  | .id => .integer row.id
  | .createdAtEpochMillis => .integer row.createdAtEpochMillis

/-- `onCreate`. -/
def memorySchema : Sql.Schema MemoryRow MemoryColumn where
  value := MemoryRow.value
  primaryKey := .id
  checks := []

/-- The table, and the largest id that it ever had. -/
structure MemoryTable where
  table : Sql.Table memorySchema
  lastId : ℤ
  lastId_nonneg : 0 ≤ lastId
  lastId_le : lastId ≤ maxRowId
  id_le : ∀ row ∈ table.rows, 0 < row.id ∧ row.id ≤ lastId

namespace MemoryTable

/-- The rows of the table. -/
def rows (t : MemoryTable) : List MemoryRow := t.table.rows

/-- The table with some of its rows. -/
def restrict (t : MemoryTable) (table : Sql.Table memorySchema)
    (h : ∀ row ∈ table.rows, row ∈ t.table.rows) : MemoryTable :=
  { t with table, id_le := fun row hrow => t.id_le row (h row hrow) }

/-- The row that is inserted next. -/
def nextRow (t : MemoryTable) (text provenance : Str) (createdAt : Int64) : MemoryRow where
  id := t.lastId + 1
  text := text
  provenance := provenance
  createdAtEpochMillis := createdAt.toInt

/-- `insertOrThrow`. -/
def insertOrThrow (t : MemoryTable) (text provenance : Str) (createdAt : Int64) :
    Except MemoryStoreException MemoryTable :=
  if h : t.lastId = maxRowId then .error .full
  else .ok {
    table := {
      rows := t.table.rows ++ [t.nextRow text provenance createdAt]
      nodup := by
        rw [List.map_append, List.map_singleton]
        refine List.nodup_append.2 ⟨t.table.nodup, List.nodup_singleton _, ?_⟩
        intro a ha b hb hab
        obtain ⟨row, hrow, rfl⟩ := List.mem_map.1 ha
        have hid : row.id = t.lastId + 1 := Value.integer.inj (hab.trans (List.mem_singleton.1 hb))
        have hle := (t.id_le row hrow).2
        omega
      admitted := fun _ _ => rfl }
    lastId := t.lastId + 1
    lastId_nonneg := by
      have hnonneg := t.lastId_nonneg
      omega
    lastId_le := by
      have hle := t.lastId_le
      omega
    id_le := by
      intro row hrow
      have hnonneg := t.lastId_nonneg
      rcases List.mem_append.1 hrow with hrow | hrow
      · have hle := t.id_le row hrow
        omega
      · obtain rfl := List.mem_singleton.1 hrow
        show 0 < t.lastId + 1 ∧ t.lastId + 1 ≤ t.lastId + 1
        omega }

/-- `ORDER BY created_at_epoch_millis DESC, id DESC`. -/
def newestFirst (a b : MemoryRow) : Bool :=
  if a.createdAtEpochMillis = b.createdAtEpochMillis then b.id ≤ a.id
  else b.createdAtEpochMillis < a.createdAtEpochMillis

/-- `trimToNewestRows`. -/
def trimToNewestRows (t : MemoryTable) : MemoryTable :=
  t.restrict (t.table.keepFirst newestFirst MemoryRow.id maxMemoryRows) fun row hrow => by
    rw [Sql.Table.keepFirst, Sql.Table.rows_foldl_delete] at hrow
    exact List.mem_of_mem_filter hrow

/-- What a cursor reads of a row. -/
def readRow (getString : Str → Str) (row : MemoryRow) : PhoneMemoryEntry where
  memoryId := Int64.ofInt row.id
  text := getString row.text
  createdAtEpochMillis := Int64.ofInt row.createdAtEpochMillis
  provenance := getString row.provenance

/-- `readMemory`. -/
def readMemory (getString : Str → Str) (t : MemoryTable) (memoryId : ℤ) : Option PhoneMemoryEntry :=
  (t.table.find (.integer memoryId)).map (readRow getString)

/-- The body of `remember`: what it returns, and the table after it. An exception rolls the transaction
back. -/
def remember (getString : Str → Str) (t : MemoryTable) (nowMillis : Int64) (text provenance : Str) :
    Except MemoryStoreException (PhoneMemoryEntry × MemoryTable) := do
  if matchesMemoryTextContract text = false then
    throw (.illegalArgument "memory text does not match the local contract")
  if provenance ≠ phoneMemoryProvenanceUserApproved then
    throw (.illegalArgument "memory provenance does not match the local contract")
  if nowMillis ≤ 0 then throw (.illegalArgument "memory timestamp must be positive")
  let inserted ← t.insertOrThrow text provenance nowMillis
  let trimmed := inserted.trimToNewestRows
  match trimmed.readMemory getString (t.lastId + 1) with
  | none => throw (.illegalState "created memory could not be re-read")
  | some stored =>
    if stored.text = text ∧ stored.createdAtEpochMillis = nowMillis then return (stored, trimmed)
    else throw (.illegalState "created memory failed post-write verification")

/-! ### What a trim does -/

section

variable {getString : Str → Str} {t inserted : MemoryTable} {text provenance : Str} {now : Int64}

theorem newestFirst_total (a b : MemoryRow) (h : ¬ newestFirst a b = true) : newestFirst b a = true := by
  unfold newestFirst at h ⊢
  split at h
  case isTrue heq =>
    rw [if_pos heq.symm]
    rw [decide_eq_true_eq] at h ⊢
    omega
  case isFalse hne =>
    rw [if_neg (Ne.symm hne)]
    rw [decide_eq_true_eq] at h ⊢
    omega

theorem newestFirst_trans (a b c : MemoryRow) (h : newestFirst a b = true) (h' : newestFirst b c = true) :
    newestFirst a c = true := by
  unfold newestFirst at h h' ⊢
  split at h <;> split at h' <;> simp only [decide_eq_true_eq] at h h'
  case isTrue.isTrue hab hbc =>
    rw [if_pos (hab.trans hbc), decide_eq_true_eq]
    omega
  all_goals
    rw [if_neg (by omega), decide_eq_true_eq]
    omega

/-- A memory that is older than all others comes last. -/
theorem newestFirst_iff_of_id_lt {a b : MemoryRow} (hid : a.id < b.id) :
    newestFirst a b = true ↔ b.createdAtEpochMillis < a.createdAtEpochMillis := by
  unfold newestFirst
  split
  case isTrue heq =>
    rw [decide_eq_true_eq]
    omega
  case isFalse => rw [decide_eq_true_eq]

theorem rows_insertOrThrow (h : t.insertOrThrow text provenance now = .ok inserted) :
    t.lastId < maxRowId ∧ inserted.rows = t.rows ++ [t.nextRow text provenance now] := by
  unfold insertOrThrow at h
  split at h
  case isTrue => cases h
  case isFalse hne =>
    obtain rfl := Except.ok.inj h
    exact ⟨lt_of_le_of_ne t.lastId_le hne, rfl⟩

theorem exists_insertOrThrow (h : t.lastId < maxRowId) :
    ∃ inserted, t.insertOrThrow text provenance now = .ok inserted := by
  unfold insertOrThrow
  rw [dif_neg (ne_of_lt h)]
  exact ⟨_, rfl⟩

theorem id_lt_nextRow {row : MemoryRow} (hrow : row ∈ t.rows) :
    row.id < (t.nextRow text provenance now).id :=
  Int.lt_add_one_of_le (t.id_le row hrow).2

/-- The rows after the trim: all of them, or all but the oldest one. -/
theorem rows_trim (hlength : t.rows.length ≤ maxMemoryRows)
    (h : t.insertOrThrow text provenance now = .ok inserted) :
    (t.rows.length < maxMemoryRows ∧ inserted.trimToNewestRows.rows = inserted.rows) ∨
      t.rows.length = maxMemoryRows ∧ ∃ last ∈ inserted.rows,
        (∀ row ∈ inserted.rows, row ≠ last → newestFirst row last = true) ∧
        inserted.trimToNewestRows.rows = inserted.rows.filter fun row => row.id ≠ last.id := by
  obtain ⟨-, hrows⟩ := rows_insertOrThrow h
  have hcount : inserted.rows.length = t.rows.length + 1 := by
    rw [hrows, List.length_append, List.length_singleton]
  rcases lt_or_eq_of_le hlength with hlt | hfull
  · refine Or.inl ⟨hlt, ?_⟩
    have hkept : inserted.table.keepFirst newestFirst MemoryRow.id maxMemoryRows = inserted.table :=
      Sql.Table.keepFirst_of_length_le (hcount.trans_le hlt)
    exact congrArg Sql.Table.rows hkept
  · exact Or.inr ⟨hfull, Sql.Table.keepFirst_of_length_succ newestFirst_total newestFirst_trans
      (hcount.trans (congrArg (· + 1) hfull))⟩

/-- What a trim leaves of the rows, where the new row stays. -/
theorem rows_trim_of_mem (hlength : t.rows.length ≤ maxMemoryRows)
    (h : t.insertOrThrow text provenance now = .ok inserted)
    (hmem : t.nextRow text provenance now ∈ inserted.trimToNewestRows.rows) :
    (t.rows.length < maxMemoryRows →
      inserted.trimToNewestRows.rows = t.rows ++ [t.nextRow text provenance now]) ∧
    (t.rows.length = maxMemoryRows → ∃ evicted ∈ t.rows, evicted.createdAtEpochMillis ≤ now.toInt ∧
      inserted.trimToNewestRows.rows =
        (t.rows.filter fun row => row.id ≠ evicted.id) ++ [t.nextRow text provenance now]) := by
  obtain ⟨-, hrows⟩ := rows_insertOrThrow h
  rcases rows_trim hlength h with ⟨hlt, heq⟩ | ⟨hfull, last, hlast, hbefore, heq⟩
  · exact ⟨fun _ => heq.trans hrows, fun hfull => absurd hfull (ne_of_lt hlt)⟩
  · refine ⟨fun hlt => absurd hfull (ne_of_lt hlt), fun _ => ?_⟩
    have hne : t.nextRow text provenance now ≠ last := by
      rintro rfl
      rw [heq] at hmem
      exact of_decide_eq_true (List.mem_filter.1 hmem).2 rfl
    have hold : last ∈ t.rows := by
      rw [hrows] at hlast
      exact (List.mem_append.1 hlast).resolve_right fun hnew => hne (List.mem_singleton.1 hnew).symm
    have hid := @id_lt_nextRow _ text provenance now _ hold
    refine ⟨last, hold, ?_, ?_⟩
    · -- the new row stands before the last one, and has the larger id
      have hnewer := hbefore _ (hrows ▸ List.mem_append_right _ List.mem_cons_self) hne
      unfold newestFirst at hnewer
      split at hnewer
      case isTrue hsame => exact hsame.ge
      case isFalse => exact (of_decide_eq_true hnewer).le
    · rw [heq, hrows, List.filter_append]
      congr 1
      exact List.filter_eq_self.2 fun row hrow => by
        rw [List.mem_singleton.1 hrow]
        exact decide_eq_true (ne_of_gt hid)

/-- The new row stays, unless all rows of a full table are newer. -/
theorem nextRow_mem_trim (hlength : t.rows.length ≤ maxMemoryRows)
    (h : t.insertOrThrow text provenance now = .ok inserted)
    (hclock : t.rows.length < maxMemoryRows ∨ ∃ row ∈ t.rows, row.createdAtEpochMillis ≤ now.toInt) :
    t.nextRow text provenance now ∈ inserted.trimToNewestRows.rows := by
  obtain ⟨-, hrows⟩ := rows_insertOrThrow h
  have hnew : t.nextRow text provenance now ∈ inserted.rows :=
    hrows ▸ List.mem_append_right _ List.mem_cons_self
  rcases rows_trim hlength h with ⟨-, heq⟩ | ⟨hfull, last, hlast, hbefore, heq⟩
  · exact heq ▸ hnew
  · obtain ⟨row, hrow, hle⟩ := hclock.resolve_left (not_lt.2 hfull.ge)
    rw [heq]
    refine List.mem_filter.2 ⟨hnew, decide_eq_true fun hid => ?_⟩
    have hlastEq : t.nextRow text provenance now = last :=
      inserted.table.eq_of_key_eq hnew hlast (congrArg Value.integer hid)
    -- the row that is not newer would stand before the new one
    have hne : row ≠ last := by
      rintro rfl
      exact absurd hid (ne_of_gt (id_lt_nextRow hrow))
    have hfirst := hbefore row (hrows ▸ List.mem_append_left _ hrow) hne
    rw [← hlastEq, newestFirst_iff_of_id_lt (id_lt_nextRow hrow)] at hfirst
    exact absurd hle (not_le.2 hfirst)

/-- What is read of the new row. -/
theorem readRow_nextRow : readRow getString (t.nextRow text provenance now) =
    { memoryId := Int64.ofInt (t.lastId + 1), text := getString text
      createdAtEpochMillis := now, provenance := getString provenance } := by
  unfold readRow nextRow
  rw [Int64.ofInt_toInt]

end

/-! ### Remembering -/

/-- The memory is stored under a new id, and of a full table exactly one row goes. -/
def Remembers (getString : Str → Str) (t : MemoryTable) (now : Int64) (text : Str) : Prop :=
  ∃ stored t', t.remember getString now text phoneMemoryProvenanceUserApproved = .ok (stored, t') ∧
    stored.text = text ∧ ∃ row ∈ t'.rows, readRow getString row = stored ∧ (∀ old ∈ t.rows, old.id ≠ row.id) ∧
      (t.rows.length < maxMemoryRows → t'.rows = t.rows ++ [row]) ∧
      (t.rows.length = maxMemoryRows → ∃ evicted ∈ t.rows,
        t'.rows = (t.rows.filter fun old => old.id ≠ evicted.id) ++ [row])

section

variable {getString : Str → Str} {t : MemoryTable} {now : Int64} {text : Str}

/-- What `remember` comes to, for what it accepts. -/
theorem remember_eq (htext : matchesMemoryTextContract text = true) (hnow : 0 < now) :
    t.remember getString now text phoneMemoryProvenanceUserApproved =
      (t.insertOrThrow text phoneMemoryProvenanceUserApproved now >>= fun inserted =>
        match inserted.trimToNewestRows.readMemory getString (t.lastId + 1) with
        | none => throw (.illegalState "created memory could not be re-read")
        | some stored =>
          if stored.text = text ∧ stored.createdAtEpochMillis = now then
            return (stored, inserted.trimToNewestRows)
          else throw (.illegalState "created memory failed post-write verification")) := by
  unfold remember
  rw [htext, if_neg Bool.false_ne_true.symm, if_neg (not_not.2 rfl), if_neg (Int64.not_le.2 hnow)]

/-- What a memory that is stored says about the table and the clock. -/
theorem Remembers.condition (hlength : t.rows.length ≤ maxMemoryRows)
    (htext : matchesMemoryTextContract text = true) (hnow : 0 < now)
    (h : t.Remembers getString now text) :
    getString text = text ∧ t.lastId < maxRowId ∧
      (t.rows.length < maxMemoryRows ∨ ∃ row ∈ t.rows, row.createdAtEpochMillis ≤ now.toInt) := by
  obtain ⟨stored, t', hok, htextStored, -⟩ := h
  rw [remember_eq htext hnow] at hok
  obtain ⟨inserted, hinsert, hok⟩ := Checks.bind_eq_ok.1 hok
  obtain ⟨hid, hrows⟩ := rows_insertOrThrow hinsert
  split at hok
  case h_1 => cases hok
  case h_2 stored' hread =>
    split at hok
    case isFalse => cases hok
    case isTrue =>
      obtain ⟨rfl, rfl⟩ := Prod.mk.inj (Except.ok.inj hok)
      obtain ⟨row, hrow, rfl⟩ := Option.map_eq_some_iff.1 hread
      have hkey : row.id = t.lastId + 1 := by
        have hsome := List.find?_some hrow
        exact Value.integer.inj (of_decide_eq_true hsome)
      have hmem : row ∈ inserted.trimToNewestRows.rows := List.mem_of_find?_eq_some hrow
      -- the only row with this id is the new one
      have hnew : row = t.nextRow text phoneMemoryProvenanceUserApproved now := by
        have hinserted : row ∈ inserted.rows := by
          rcases rows_trim hlength hinsert with ⟨-, heq⟩ | ⟨-, last, -, -, heq⟩
          · exact heq ▸ hmem
          · exact List.mem_of_mem_filter (heq ▸ hmem)
        rw [hrows] at hinserted
        rcases List.mem_append.1 hinserted with hold | hnew
        · exact absurd hkey (ne_of_lt (@id_lt_nextRow _ text phoneMemoryProvenanceUserApproved now _
            hold))
        · exact List.mem_singleton.1 hnew
      subst hnew
      refine ⟨htextStored, hid, ?_⟩
      rcases lt_or_eq_of_le hlength with hlt | hfull
      · exact Or.inl hlt
      · obtain ⟨evicted, hevicted, hle, -⟩ := (rows_trim_of_mem hlength hinsert hmem).2 hfull
        exact Or.inr ⟨evicted, hevicted, hle⟩

/-- A text that comes back is remembered, if the clock is not behind all rows of a full table. -/
theorem remembers_of_condition (hlength : t.rows.length ≤ maxMemoryRows)
    (htext : matchesMemoryTextContract text = true) (hnow : 0 < now) (hback : getString text = text)
    (hid : t.lastId < maxRowId)
    (hclock : t.rows.length < maxMemoryRows ∨ ∃ row ∈ t.rows, row.createdAtEpochMillis ≤ now.toInt) :
    t.Remembers getString now text := by
  obtain ⟨inserted, hinsert⟩ := @exists_insertOrThrow _ text phoneMemoryProvenanceUserApproved now
    hid
  have hmem := nextRow_mem_trim hlength hinsert hclock
  obtain ⟨hroom, hfull⟩ := rows_trim_of_mem hlength hinsert hmem
  have hfind : inserted.trimToNewestRows.readMemory getString (t.lastId + 1) =
      some (readRow getString (t.nextRow text phoneMemoryProvenanceUserApproved now)) :=
    congrArg (Option.map (readRow getString)) (Sql.Table.find_of_mem hmem)
  have hread : readRow getString (t.nextRow text phoneMemoryProvenanceUserApproved now) =
      ⟨Int64.ofInt (t.lastId + 1), text, now, getString phoneMemoryProvenanceUserApproved⟩ := by
    rw [readRow_nextRow, hback]
  refine ⟨readRow getString (t.nextRow text phoneMemoryProvenanceUserApproved now), inserted.trimToNewestRows,
    ?_, by rw [hread], _, hmem, rfl, fun old hold => ne_of_lt (id_lt_nextRow hold), hroom, fun hlen => ?_⟩
  · rw [remember_eq htext hnow, hinsert, Checks.ok_bind, hfind, hread]
    exact if_pos ⟨rfl, rfl⟩
  · obtain ⟨evicted, hevicted, -, heq⟩ := hfull hlen
    exact ⟨evicted, hevicted, heq⟩

/-- **Remembering.** A text of the contract is remembered exactly if the database gives it back, if there is
an id for it, and if the table has room or a row that is not newer than the clock. -/
theorem remembers_iff (hlength : t.rows.length ≤ maxMemoryRows)
    (htext : matchesMemoryTextContract text = true) (hnow : 0 < now) :
    t.Remembers getString now text ↔ getString text = text ∧ t.lastId < maxRowId ∧
      (t.rows.length < maxMemoryRows ∨ ∃ row ∈ t.rows, row.createdAtEpochMillis ≤ now.toInt) :=
  ⟨fun h => h.condition hlength htext hnow, fun ⟨hback, hid, hclock⟩ =>
    remembers_of_condition hlength htext hnow hback hid hclock⟩

end

/-- A hundred memories of the second millisecond. -/
def fullRows : List MemoryRow :=
  (List.range maxMemoryRows).map fun i =>
    ⟨(i : ℤ) + 1, lit "buy bread", phoneMemoryProvenanceUserApproved, 2⟩

def fullTable : MemoryTable where
  table := {
    rows := fullRows
    nodup := by decide +kernel
    admitted := fun _ _ => rfl }
  lastId := 100
  lastId_nonneg := by decide
  lastId_le := by decide
  id_le := by decide +kernel

/-- A database that keeps the characters of a text. -/
def characters (text : Str) : Str := ofChars (toChars text)

/-- In the millisecond of the others the new memory takes the place of one of them. -/
theorem full_table_remembers : fullTable.Remembers characters 2 (lit "buy milk") :=
  (@remembers_iff characters fullTable 2 (lit "buy milk") (by decide +kernel) (by decide)
    (by decide)).2
    ⟨whole_ofChars "buy milk".toList, by decide, Or.inr
      ⟨⟨1, lit "buy bread", phoneMemoryProvenanceUserApproved, 2⟩, by decide +kernel, by decide⟩⟩

/-- With the clock at the first millisecond the new memory is the one that is evicted. -/
theorem clock_behind_forgets : ¬ ∀ (t : MemoryTable) (now : Int64) (text : Str),
    t.rows.length ≤ maxMemoryRows → matchesMemoryTextContract text = true → 0 < now →
    t.Remembers characters now text := by
  intro h
  have hlength : fullTable.rows.length ≤ maxMemoryRows := by decide +kernel
  have hcondition := (h fullTable 1 (lit "buy milk") hlength (by decide) (by decide)).condition
    hlength (by decide) (by decide)
  rcases hcondition.2.2 with hroom | ⟨row, hrow, hclock⟩
  · exact absurd hroom (by decide +kernel)
  · obtain ⟨i, -, rfl⟩ := List.mem_map.1 hrow
    exact absurd (show (2 : ℤ) ≤ Int64.toInt 1 from hclock) (by decide)

end MemoryTable

end GoffyPhone
