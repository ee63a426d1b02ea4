import GoffyOs.Lib.Ranking
import GoffyOs.Phone.TerminalAuditStore
import Mathlib.Data.Set.List

/-!
# Runs of the audit store

`upsert` inserts a row, orders the table, deletes what comes after the fiftieth row and reads its own
row back. What the store is for is simpler to say: it keeps the newest fifty records, one for each
task (`Newest` of `replaced`). `upserts_keep_newest` connects the two over every run.

A record that is older than fifty others is inserted and deleted again in one transaction; the
transaction then fails, and what it leaves is still the newest fifty (`newest_replaced_iff_of_late`).
-/

namespace GoffyPhone

open Kotlin

/-! ### Loading -/

/-- What `load` returns. -/
structure ClosedTerminalAuditLoadResult where
  records : List ClosedTerminalAuditRecord
  discardedCorruptRows : ℕ

/-- `ORDER BY recorded_at_epoch_millis ASC, task_id ASC`. -/
def oldestFirst (a b : AuditRow) : Bool :=
  if a.recordedAtEpochMillis = b.recordedAtEpochMillis then ¬ b.taskId < a.taskId
  else a.recordedAtEpochMillis < b.recordedAtEpochMillis

/-- One turn of the loop in `loadRecords`. -/
def ClosedTerminalAuditLoadResult.add (result : ClosedTerminalAuditLoadResult) (row : AuditRow) :
    ClosedTerminalAuditLoadResult :=
  match readRow row with
  | .ok record => { result with records := result.records ++ [record] }
  | .error _ => { result with discardedCorruptRows := result.discardedCorruptRows + 1 }

namespace AuditTable

/-- `load`. -/
def load (t : AuditTable) : ClosedTerminalAuditLoadResult :=
  (t.orderBy oldestFirst).foldl ClosedTerminalAuditLoadResult.add ⟨[], 0⟩

/-- The table after a sequence of calls of `upsert`. -/
def upserts (t : AuditTable) (records : List ClosedTerminalAuditRecord) : AuditTable :=
  records.foldl (fun t record => (upsert t record).2) t

end AuditTable

/-! ### The newest rows -/

/-- A row is newer than another one: by its time, and then by its task. -/
def Newer (a b : AuditRow) : Prop :=
  b.recordedAtEpochMillis < a.recordedAtEpochMillis ∨
    b.recordedAtEpochMillis = a.recordedAtEpochMillis ∧ b.taskId < a.taskId

instance : DecidableRel Newer := fun a b => by unfold Newer; infer_instance

/-- The row is one of the newest `n`: fewer than `n` rows are newer. -/
def Newest (n : ℕ) (rows : List AuditRow) (row : AuditRow) : Prop :=
  row ∈ rows ∧ (rows.filter fun other => Newer other row).length < n

/-- The `CHECK` constraints of the table admit the record. -/
def Conforms (record : ClosedTerminalAuditRecord) : Prop :=
  auditSchema.admits (contentValues record.toAuditFields) = true

/-- The rows of a table, with the row of the record in place of the one of its task. -/
def replaced (t : AuditTable) (record : ClosedTerminalAuditRecord) : List AuditRow :=
  (t.rows.filter fun row => row.taskId ≠ (contentValues record.toAuditFields).taskId) ++
    [contentValues record.toAuditFields]

/-- A table that the store has written: at most fifty rows, each the row of a record. -/
structure Kept (t : AuditTable) : Prop where
  length_le : t.rows.length ≤ maxRows
  recorded : ∀ row ∈ t.rows, ∃ record : ClosedTerminalAuditRecord,
    row = contentValues record.toAuditFields

theorem kept_empty : Kept .empty := ⟨Nat.zero_le _, fun _ hrow => absurd hrow List.not_mem_nil⟩

/-! ### The order of the rows -/

theorem Newer.irrefl (a : AuditRow) : ¬ Newer a a := by
  simp [Newer]

theorem Newer.asymm {a b : AuditRow} (h : Newer a b) : ¬ Newer b a := by
  rintro (h' | ⟨heq, h'⟩)
  · rcases h with h | ⟨heq, -⟩ <;> omega
  · rcases h with h | ⟨-, h⟩
    · omega
    · exact List.lt_asymm h h'

theorem newestFirst_iff {a b : AuditRow} :
    newestFirst a b = true ↔ Newer a b ∨
      a.recordedAtEpochMillis = b.recordedAtEpochMillis ∧ a.taskId = b.taskId := by
  have hle : ¬ a.taskId < b.taskId ↔ b.taskId < a.taskId ∨ b.taskId = a.taskId :=
    List.le_iff_lt_or_eq
  rw [newestFirst, Newer]
  split
  case isTrue heq =>
    rw [decide_eq_true_eq, hle, heq]
    simp [eq_comm]
  case isFalse hne => simp [hne, Ne.symm hne]

theorem newestFirst_trans {a b c : AuditRow} (h : newestFirst a b = true)
    (h' : newestFirst b c = true) : newestFirst a c = true := by
  unfold newestFirst at h h' ⊢
  split at h <;> split at h' <;> simp only [decide_eq_true_eq] at h h'
  case isTrue.isTrue hab hbc =>
    rw [if_pos (hab.trans hbc), decide_eq_true_eq]
    exact List.le_trans h' h
  case isTrue.isFalse hab hbc => rw [if_neg (by omega), decide_eq_true_eq]; omega
  case isFalse.isTrue hab hbc => rw [if_neg (by omega), decide_eq_true_eq]; omega
  case isFalse.isFalse hab hbc => rw [if_neg (by omega), decide_eq_true_eq]; omega

theorem newestFirst_of_not {a b : AuditRow} (h : ¬ newestFirst a b = true) :
    newestFirst b a = true := by
  unfold newestFirst at h ⊢
  split at h
  case isTrue hab =>
    rw [decide_eq_true_eq, not_not] at h
    rw [if_pos hab.symm, decide_eq_true_eq]
    exact List.lt_asymm h
  case isFalse hab =>
    rw [decide_eq_true_eq] at h
    rw [if_neg (Ne.symm hab), decide_eq_true_eq]
    omega

theorem oldestFirst_eq (a b : AuditRow) : oldestFirst a b = newestFirst b a := by
  rw [oldestFirst, newestFirst]
  simp only [eq_comm]

namespace AuditTable

theorem eq_of_taskId_eq (t : AuditTable) {row row' : AuditRow} (h : row ∈ t.rows)
    (h' : row' ∈ t.rows) (hid : row.taskId = row'.taskId) : row = row' :=
  t.eq_of_key_eq h h' (congrArg Sql.Value.text hid)

/-- The rows of a table have different tasks, so that of two rows one is strictly newer. -/
theorem newer_of_newestFirst (t : AuditTable) {a b : AuditRow} (ha : a ∈ t.rows) (hb : b ∈ t.rows)
    (hne : a ≠ b) (h : newestFirst a b = true) : Newer a b := by
  rcases newestFirst_iff.1 h with hnewer | ⟨-, hid⟩
  · exact hnewer
  · exact absurd (t.eq_of_taskId_eq ha hb hid) hne

theorem pairwise_newer (t : AuditTable) : (t.orderBy newestFirst).Pairwise Newer := by
  have hperm := t.perm_orderBy newestFirst
  have hsorted : (t.orderBy newestFirst).Pairwise fun a b => newestFirst a b = true := by
    apply Ranking.pairwise_insertionSort
    · exact fun a b c => newestFirst_trans
    · exact fun a b h => h
    · exact fun a b => newestFirst_of_not
  have hnodup : (t.orderBy newestFirst).Nodup := hperm.nodup_iff.2 t.nodup_rows
  exact (hsorted.and hnodup).imp_of_mem fun ha hb h =>
    t.newer_of_newestFirst (hperm.mem_iff.1 ha) (hperm.mem_iff.1 hb) h.2 h.1

theorem pairwise_older (t : AuditTable) :
    (t.orderBy oldestFirst).Pairwise fun a b => Newer b a := by
  have hperm := t.perm_orderBy oldestFirst
  have hsorted : (t.orderBy oldestFirst).Pairwise fun a b => newestFirst b a = true := by
    apply Ranking.pairwise_insertionSort
    · exact fun a b c h h' => newestFirst_trans h' h
    · exact fun a b h => oldestFirst_eq a b ▸ h
    · exact fun a b h => newestFirst_of_not (oldestFirst_eq a b ▸ h)
  have hnodup : (t.orderBy oldestFirst).Nodup := hperm.nodup_iff.2 t.nodup_rows
  exact (hsorted.and hnodup).imp_of_mem fun ha hb h =>
    t.newer_of_newestFirst (hperm.mem_iff.1 hb) (hperm.mem_iff.1 ha) (Ne.symm h.2) h.1

theorem newest_iff (t : AuditTable) {row : AuditRow} :
    Newest maxRows t.rows row ↔ row ∈ (t.orderBy newestFirst).take maxRows := by
  have hperm := t.perm_orderBy newestFirst
  rw [Ranking.mem_take_iff Newer.irrefl (fun _ _ => Newer.asymm) t.pairwise_newer, hperm.mem_iff,
    (hperm.filter _).length_eq, Newest]

/-- The loop over the cursor deletes exactly the rows that are not among the newest. -/
theorem mem_trimToNewestRows_iff (t : AuditTable) {row : AuditRow} :
    row ∈ (trimToNewestRows t).rows ↔ Newest maxRows t.rows row := by
  have hmem := (t.perm_orderBy newestFirst).mem_iff (a := row)
  have hnodup : (t.orderBy newestFirst).Nodup := (t.perm_orderBy _).nodup_iff.2 t.nodup_rows
  have hsplit := List.take_append_drop maxRows (t.orderBy newestFirst)
  rw [← hsplit] at hnodup
  have hdisjoint := List.disjoint_of_nodup_append hnodup
  rw [trimToNewestRows, Sql.Table.mem_foldl_delete, newest_iff]
  constructor
  · rintro ⟨hrow, hkept⟩
    rw [← hmem, ← hsplit, List.mem_append] at hrow
    exact hrow.resolve_right fun hdrop => hkept (List.mem_map_of_mem hdrop)
  · intro htake
    have hrow := hmem.1 (List.mem_of_mem_take htake)
    refine ⟨hrow, fun hdeleted => ?_⟩
    obtain ⟨row', hdrop, hid⟩ := List.mem_map.1 hdeleted
    have hrow' := (t.perm_orderBy newestFirst).mem_iff.1 (List.mem_of_mem_drop hdrop)
    rw [t.eq_of_taskId_eq hrow' hrow hid] at hdrop
    exact hdisjoint htake hdrop

theorem length_trimToNewestRows (t : AuditTable) :
    (trimToNewestRows t).rows.length = min maxRows t.rows.length := by
  have hperm : (trimToNewestRows t).rows.Perm ((t.orderBy newestFirst).take maxRows) := by
    rw [List.perm_ext_iff_of_nodup (trimToNewestRows t).nodup_rows
      (((t.perm_orderBy _).nodup_iff.2 t.nodup_rows).sublist (List.take_sublist _ _))]
    intro row
    rw [mem_trimToNewestRows_iff, newest_iff]
  rw [hperm.length_eq, List.length_take, t.length_orderBy]

/-! ### One call -/

theorem exists_inserted {t : AuditTable} {record : ClosedTerminalAuditRecord}
    (hconforms : Conforms record) :
    ∃ t', t.insertOrReplace (contentValues record.toAuditFields) = some t' ∧
      t'.rows = replaced t record := by
  obtain ⟨t', hinsert, hrows⟩ := Sql.Table.insertOrReplace_of_admits (t := t) hconforms
  refine ⟨t', hinsert, hrows.trans ?_⟩
  rw [replaced, Sql.Table.delete]
  congr 1
  apply List.filter_congr
  intro row _
  simp [Sql.Schema.key, auditSchema, AuditRow.value]

/-- A record that is among the newest is written and returned. -/
theorem upsert_of_newest {t : AuditTable} {record : ClosedTerminalAuditRecord}
    (hconforms : Conforms record)
    (hnewest : Newest maxRows (replaced t record) (contentValues record.toAuditFields)) :
    ∃ t', upsert t record = (.ok record, t') ∧
      (∀ row, row ∈ t'.rows ↔ Newest maxRows (replaced t record) row) ∧
      t'.rows.length = min maxRows (replaced t record).length := by
  obtain ⟨inserted, hinsert, hrows⟩ := exists_inserted (t := t) hconforms
  have hmem : contentValues record.toAuditFields ∈ (trimToNewestRows inserted).rows := by
    rw [mem_trimToNewestRows_iff, hrows]
    exact hnewest
  have hread : readRecord (trimToNewestRows inserted) record.taskId = .ok (some record) := by
    have hfind := (trimToNewestRows inserted).find_of_mem hmem
    rw [readRecord, show (trimToNewestRows inserted).find
      (.text (toChars (uuidToString record.taskId))) = _ from hfind]
    simp only [readRow_contentValues]
    rfl
  refine ⟨trimToNewestRows inserted, ?_, fun row => ?_, ?_⟩
  · rw [upsert, write, hinsert]
    simp only [bind, Except.bind, hread, if_pos]
  · rw [mem_trimToNewestRows_iff, hrows]
  · rw [length_trimToNewestRows, hrows]

/-- A record that is older than fifty others is deleted again before it is read back. -/
theorem upsert_of_late {t : AuditTable} {record : ClosedTerminalAuditRecord}
    (hconforms : Conforms record)
    (hlate : ¬ Newest maxRows (replaced t record) (contentValues record.toAuditFields)) :
    upsert t record = (.error (.illegalState "upserted audit record could not be re-read"), t) := by
  obtain ⟨inserted, hinsert, hrows⟩ := exists_inserted (t := t) hconforms
  have hread : readRecord (trimToNewestRows inserted) record.taskId = .ok none := by
    have hfind : (trimToNewestRows inserted).find
        (.text (toChars (uuidToString record.taskId))) = none := by
      rw [Sql.Table.find, List.find?_eq_none]
      intro row hrow hkey
      rw [mem_trimToNewestRows_iff] at hrow
      have hid : row.taskId = (contentValues record.toAuditFields).taskId := by
        simpa [Sql.Schema.key, auditSchema, AuditRow.value, contentValues] using hkey
      have hself : contentValues record.toAuditFields ∈ inserted.rows := by
        rw [hrows]
        exact List.mem_append_right _ List.mem_cons_self
      rw [eq_of_taskId_eq inserted hrow.1 hself hid, hrows] at hrow
      exact hlate hrow
    rw [readRecord, hfind]
  rw [upsert, write, hinsert]
  simp only [bind, Except.bind, hread]

/-- A record comes too late only for a full table that has no row of its task, and all rows there
are newer. -/
theorem full_of_late {t : AuditTable} {record : ClosedTerminalAuditRecord} (hkept : Kept t)
    (hlate : ¬ Newest maxRows (replaced t record) (contentValues record.toAuditFields)) :
    replaced t record = t.rows ++ [contentValues record.toAuditFields] ∧
      t.rows.length = maxRows ∧
      ∀ row ∈ t.rows, Newer row (contentValues record.toAuditFields) := by
  have hlength := hkept.length_le
  have hself : contentValues record.toAuditFields ∈ replaced t record :=
    List.mem_append_right _ List.mem_cons_self
  have hcount : maxRows ≤ ((replaced t record).filter fun other =>
      Newer other (contentValues record.toAuditFields)).length :=
    not_lt.1 fun hlt => hlate ⟨hself, hlt⟩
  have hirrefl := Newer.irrefl (contentValues record.toAuditFields)
  rw [replaced, List.filter_append, List.filter_filter] at hcount
  simp only [hirrefl, List.filter_cons, List.filter_nil, decide_false, Bool.false_eq_true, if_false,
    List.append_nil] at hcount
  have hle := List.length_filter_le (fun row => decide (Newer row (contentValues
    record.toAuditFields)) && decide (row.taskId ≠ (contentValues record.toAuditFields).taskId)) t.rows
  have hall := List.length_filter_eq_length_iff.1 (le_antisymm hle (hlength.trans hcount))
  simp only [Bool.and_eq_true, decide_eq_true_eq] at hall
  refine ⟨?_, le_antisymm hlength (hcount.trans hle), fun row hrow => (hall row hrow).1⟩
  rw [replaced, List.filter_eq_self.2 fun row hrow => decide_eq_true (hall row hrow).2]

/-- Without the late record, the table is the newest fifty rows. -/
theorem newest_replaced_iff_of_late {t : AuditTable} {record : ClosedTerminalAuditRecord}
    (hkept : Kept t)
    (hlate : ¬ Newest maxRows (replaced t record) (contentValues record.toAuditFields)) :
    (∀ row, row ∈ t.rows ↔ Newest maxRows (replaced t record) row) ∧
      t.rows.length = min maxRows (replaced t record).length := by
  obtain ⟨heq, hfull, hnewer⟩ := full_of_late hkept hlate
  refine ⟨fun row => ⟨fun hrow => ?_, fun hnewest => ?_⟩, ?_⟩
  · refine ⟨heq ▸ List.mem_append_left _ hrow, ?_⟩
    have hlate' : ¬ Newer (contentValues record.toAuditFields) row := (hnewer row hrow).asymm
    have hirrefl := Newer.irrefl row
    rw [heq, List.filter_append, ← hfull]
    simp only [hlate', List.filter_cons, List.filter_nil, decide_false, Bool.false_eq_true, if_false,
      List.append_nil]
    exact List.length_filter_lt_length_iff_exists.2 ⟨row, hrow, by simpa using hirrefl⟩
  · rcases List.mem_append.1 (heq ▸ hnewest.1) with hrow | hrow
    · exact hrow
    · rw [List.mem_singleton.1 hrow] at hnewest
      exact absurd hnewest hlate
  · rw [heq, List.length_append, List.length_singleton]
    omega

/-- What one call returns, and what it leaves. -/
theorem upsert_spec {t : AuditTable} {record : ClosedTerminalAuditRecord} (hkept : Kept t)
    (hconforms : Conforms record) :
    (∀ row, row ∈ (upsert t record).2.rows ↔ Newest maxRows (replaced t record) row) ∧
      (upsert t record).2.rows.length = min maxRows (replaced t record).length ∧
      ((∃ e, (upsert t record).1 = .error e) ↔
        ¬ Newest maxRows (replaced t record) (contentValues record.toAuditFields)) ∧
      (∀ e, (upsert t record).1 = .error e → (upsert t record).2 = t) ∧
      (∀ stored, (upsert t record).1 = .ok stored → stored = record) := by
  by_cases hnewest : Newest maxRows (replaced t record) (contentValues record.toAuditFields)
  · obtain ⟨t', hupsert, hmem, hlength⟩ := upsert_of_newest hconforms hnewest
    rw [hupsert]
    refine ⟨hmem, hlength, ⟨?_, fun h => absurd hnewest h⟩, ?_, ?_⟩
    · rintro ⟨e, h⟩
      cases h
    · rintro e h
      cases h
    · rintro stored h
      cases h
      rfl
  · have hupsert := upsert_of_late hconforms hnewest
    obtain ⟨hmem, hlength⟩ := newest_replaced_iff_of_late hkept hnewest
    rw [hupsert]
    exact ⟨hmem, hlength, ⟨fun _ => hnewest, fun _ => ⟨_, rfl⟩⟩, fun _ _ => rfl, fun _ h => by cases h⟩

theorem kept_upsert {t : AuditTable} {record : ClosedTerminalAuditRecord} (hkept : Kept t)
    (hconforms : Conforms record) : Kept (upsert t record).2 := by
  obtain ⟨hmem, hlength, -⟩ := upsert_spec hkept hconforms
  refine ⟨hlength.le.trans (Nat.min_le_left _ _), fun row hrow => ?_⟩
  rcases List.mem_append.1 ((hmem row).1 hrow).1 with hold | hnew
  · exact hkept.recorded row (List.mem_of_mem_filter hold)
  · exact ⟨record, List.mem_singleton.1 hnew⟩

theorem kept_upserts {t : AuditTable} {records : List ClosedTerminalAuditRecord} (hkept : Kept t)
    (hconforms : ∀ record ∈ records, Conforms record) : Kept (upserts t records) := by
  induction records generalizing t with
  | nil => exact hkept
  | cons record records ih =>
    obtain ⟨hrecord, hrecords⟩ := List.forall_mem_cons.1 hconforms
    exact ih (kept_upsert hkept hrecord) hrecords

/-! ### Loading a kept table -/

theorem foldl_add (result : ClosedTerminalAuditLoadResult)
    (records : List ClosedTerminalAuditRecord) :
    (records.map fun record => contentValues record.toAuditFields).foldl
        ClosedTerminalAuditLoadResult.add result =
      { result with records := result.records ++ records } := by
  induction records generalizing result with
  | nil => simp
  | cons record records ih =>
    rw [List.map_cons, List.foldl_cons, ih, ClosedTerminalAuditLoadResult.add,
      readRow_contentValues]
    simp

/-- Every row of a kept table is read, from the oldest to the newest. -/
theorem load_of_kept {t : AuditTable} (hkept : Kept t) :
    (load t).discardedCorruptRows = 0 ∧
      ((load t).records.map fun record => contentValues record.toAuditFields).Perm t.rows ∧
      (load t).records.Pairwise fun a b =>
        Newer (contentValues b.toAuditFields) (contentValues a.toAuditFields) := by
  have hperm := t.perm_orderBy oldestFirst
  have hrange : t.orderBy oldestFirst ∈ Set.range
      (List.map fun record : ClosedTerminalAuditRecord => contentValues record.toAuditFields) := by
    rw [Set.range_list_map]
    intro row hrow
    obtain ⟨record, rfl⟩ := hkept.recorded row (hperm.mem_iff.1 hrow)
    exact ⟨record, rfl⟩
  obtain ⟨records, hrecords⟩ := hrange
  have hload : load t = ⟨records, 0⟩ := by
    rw [load, ← hrecords, foldl_add]
    rfl
  rw [hload, ← List.pairwise_map (R := fun a b => Newer b a), hrecords]
  exact ⟨rfl, hrecords ▸ hperm, t.pairwise_older⟩

end AuditTable

/-- Over every run of the store, a call leaves the newest fifty rows of the table in which the record
has taken the place of its task's row. It throws exactly if the record is not one of them, and then
the table is the one before the call. What is loaded are the records of the table, from the oldest to
the newest, and no row is discarded. -/
theorem upserts_keep_newest {t₀ : AuditTable} (hkept : Kept t₀)
    (records : List ClosedTerminalAuditRecord) (record : ClosedTerminalAuditRecord)
    (hrecords : ∀ r ∈ records, Conforms r) (hrecord : Conforms record) :
    let t := AuditTable.upserts t₀ records
    let result := (AuditTable.upsert t record).1
    let t' := (AuditTable.upsert t record).2
    (∀ row, row ∈ t'.rows ↔ Newest maxRows (replaced t record) row) ∧
      t'.rows.length = min maxRows (replaced t record).length ∧
      ((∃ e, result = .error e) ↔
        ¬ Newest maxRows (replaced t record) (contentValues record.toAuditFields)) ∧
      (∀ e, result = .error e → t' = t) ∧
      (∀ stored, result = .ok stored → stored = record) ∧
      (AuditTable.load t').discardedCorruptRows = 0 ∧
      ((AuditTable.load t').records.map fun r => contentValues r.toAuditFields).Perm t'.rows ∧
      (AuditTable.load t').records.Pairwise fun a b =>
        Newer (contentValues b.toAuditFields) (contentValues a.toAuditFields) := by
  intro t result t'
  have hkeptRun : Kept t := AuditTable.kept_upserts hkept hrecords
  obtain ⟨hmem, hlength, hthrows, hunchanged, hreturned⟩ := AuditTable.upsert_spec hkeptRun hrecord
  have hload := AuditTable.load_of_kept (AuditTable.kept_upsert hkeptRun hrecord)
  exact ⟨hmem, hlength, hthrows, hunchanged, hreturned, hload⟩

/-! ### A full table -/

/-- The battery's record of task `n`, which ended `n` milliseconds after task 0. -/
def batteryOf (n : Fin 51) : AuditFields :=
  { batteryFields with
    taskId := n.castLE (by decide)
    recordedAtEpochMillis := batteryFields.recordedAtEpochMillis + Int64.ofNat n }

theorem init_batteryOf : ∀ n, (batteryOf n).init = .ok () := by decide +kernel

def batteryRecord (n : Fin 51) : ClosedTerminalAuditRecord := ⟨batteryOf n, init_batteryOf n⟩

def batteryRow (n : Fin 51) : AuditRow := contentValues (batteryRecord n).toAuditFields

theorem conforms_batteryRecord (n : Fin 51) : Conforms (batteryRecord n) := by
  have hadmits := admits_contentValues (AuditFields.init_eq_ok_iff.1 (init_batteryOf n))
  have htool : batteryFields.toolName ≠ some (lit "mac.apps.open") := by decide
  exact hadmits.trans (decide_eq_true htool)

theorem nodup_batteryRows :
    (((List.finRange 51).dropLast.map batteryRow).map auditSchema.key).Nodup := by
  have hkey : ∀ n, auditSchema.key (batteryRow n) = .text (Python.uuidStr ((n : Fin 51).castLE (by decide))) := by
    intro n
    exact congrArg Sql.Value.text (toChars_ofChars _)
  rw [List.map_map]
  refine ((List.nodup_finRange 51).sublist (List.dropLast_sublist _)).map fun m n h => ?_
  have h : auditSchema.key (batteryRow m) = auditSchema.key (batteryRow n) := h
  rw [hkey, hkey] at h
  exact Fin.castLE_injective _ (Python.uuidStr_injective (Sql.Value.text.inj h))

/-- The table of the first fifty tasks. -/
def batteryTable : AuditTable where
  rows := (List.finRange 51).dropLast.map batteryRow
  nodup := nodup_batteryRows
  admitted := List.forall_mem_map.2 fun n _ => conforms_batteryRecord n

theorem kept_batteryTable : Kept batteryTable :=
  ⟨by decide, List.forall_mem_map.2 fun n _ => ⟨batteryRecord n, rfl⟩⟩

/-- Fifty rows are newer than that of task 0. -/
theorem newer_than_first : (replaced batteryTable (batteryRecord 50)).length = 51 ∧
    ((replaced batteryTable (batteryRecord 50)).filter fun other => Newer other (batteryRow 0)).length = 50 ∧
    ((replaced batteryTable (batteryRecord 50)).filter fun other => Newer other (batteryRow 50)).length = 0 := by
  decide +kernel

/-- The record of a new task takes the place of the oldest one. -/
theorem oldest_battery_trimmed : batteryRow 0 ∈ batteryTable.rows ∧
    (AuditTable.upsert batteryTable (batteryRecord 50)).2.rows.length = 50 ∧
    batteryRow 50 ∈ (AuditTable.upsert batteryTable (batteryRecord 50)).2.rows ∧
    batteryRow 0 ∉ (AuditTable.upsert batteryTable (batteryRecord 50)).2.rows ∧
    ¬ ∃ e, (AuditTable.upsert batteryTable (batteryRecord 50)).1 = .error e := by
  obtain ⟨hlength, hfirst, hlast⟩ := newer_than_first
  obtain ⟨hmem, hrows, hthrows, -⟩ := upserts_keep_newest kept_batteryTable [] (batteryRecord 50)
    (fun _ h => absurd h List.not_mem_nil) (conforms_batteryRecord 50)
  have hrun : AuditTable.upserts batteryTable [] = batteryTable := rfl
  rw [hrun] at hmem hrows hthrows
  have hnewest : Newest maxRows (replaced batteryTable (batteryRecord 50)) (batteryRow 50) :=
    ⟨List.mem_append_right _ (List.mem_singleton_self _), by rw [hlast]; decide⟩
  refine ⟨List.mem_map_of_mem (by decide), hrows.trans (by rw [hlength]; rfl), (hmem _).2 hnewest, ?_, ?_⟩
  · intro h
    have hcount := ((hmem _).1 h).2
    rw [hfirst] at hcount
    exact absurd hcount (by decide)
  · exact fun h => hthrows.1 h hnewest
end GoffyPhone
