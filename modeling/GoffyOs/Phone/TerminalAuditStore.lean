import GoffyOs.Phone.TerminalAudit
import Mathlib.Data.List.TakeWhile

/-!
# The audit store (`audit/AndroidSqliteTerminalAuditStore.kt`)

The phone keeps its audit records in a table of at most 50 rows. A record is written in one
transaction: the row is inserted, the oldest rows beyond the fiftieth go, and the record is read back
and compared with what was written.

The rules for a record are written twice, in the `init` block of `ClosedTerminalAuditRecord` and in
the `CHECK` constraints of the table. `upsert_succeeds_iff` says where the two agree: a record of the
tool `mac.apps.open` is one that no table takes.

* Columns declared `NOT NULL` are fields of `AuditRow` that are always there; integers and texts are
  bound to columns of their type;
* texts are stored as characters.
-/

namespace GoffyPhone

open Kotlin
open Python (UUID)
open Sql (Value Cond Expr)

/-! ### Names -/

def AuditSourceSurface.name : AuditSourceSurface → Str
  | .terminalTimeline => lit "TERMINAL_TIMELINE"

def AuditPermission.name : AuditPermission → Str
  | .safe => lit "SAFE"
  | .confirm => lit "CONFIRM"

def TerminalAuditPhase.name : TerminalAuditPhase → Str
  | .verified => lit "VERIFIED"
  | .unverified => lit "UNVERIFIED"
  | .failed => lit "FAILED"
  | .cancelled => lit "CANCELLED"

def AuditApprovalOutcome.name : AuditApprovalOutcome → Str
  | .notRequired => lit "NOT_REQUIRED"
  | .approved => lit "APPROVED"
  | .denied => lit "DENIED"
  | .expired => lit "EXPIRED"
  | .cancelled => lit "CANCELLED"

def TaskEventKind.name : TaskEventKind → Str
  | .observe => lit "OBSERVE"
  | .plan => lit "PLAN"
  | .authorize => lit "AUTHORIZE"
  | .prepare => lit "PREPARE"
  | .tool => lit "TOOL"
  | .result => lit "RESULT"
  | .verify => lit "VERIFY"
  | .error => lit "ERROR"

/-- What the operations of the store throw. -/
inductive AuditStoreException
  /-- a violated `CHECK` -/
  | constraint
  | illegalState (message : String)
  | illegalArgument (message : Str)
  deriving DecidableEq

/-- `valueOf` of an enumeration class: the entry with this name. -/
def valueOf {α : Type} (cls : String) (entries : List α) (name : α → Str) (s : Str) :
    Except AuditStoreException α :=
  match entries.find? fun a => name a = s with
  | some a => .ok a
  | none => .error (.illegalArgument (lit "No enum constant " ++ lit cls ++ lit "." ++ s))

def AuditSourceSurface.valueOf : Str → Except AuditStoreException AuditSourceSurface :=
  GoffyPhone.valueOf "dev.goffy.os.audit.AuditSourceSurface" [.terminalTimeline] name

def ExecutionTarget.valueOf : Str → Except AuditStoreException ExecutionTarget :=
  GoffyPhone.valueOf "dev.goffy.os.protocol.ExecutionTarget" [.phone, .mac, .cloud] name

def AuditPermission.valueOf : Str → Except AuditStoreException AuditPermission :=
  GoffyPhone.valueOf "dev.goffy.os.audit.AuditPermission" [.safe, .confirm] name

def TerminalAuditPhase.valueOf : Str → Except AuditStoreException TerminalAuditPhase :=
  GoffyPhone.valueOf "dev.goffy.os.audit.TerminalAuditPhase"
    [.verified, .unverified, .failed, .cancelled] name

def AuditApprovalOutcome.valueOf : Str → Except AuditStoreException AuditApprovalOutcome :=
  GoffyPhone.valueOf "dev.goffy.os.audit.AuditApprovalOutcome"
    [.notRequired, .approved, .denied, .expired, .cancelled] name

def TaskEventKind.valueOf : Str → Except AuditStoreException TaskEventKind :=
  GoffyPhone.valueOf "dev.goffy.os.agent.TaskEventKind"
    [.observe, .plan, .authorize, .prepare, .tool, .result, .verify, .error] name

/-- `UUID.toString`. -/
def uuidToString (u : UUID) : Str := ofChars (Python.uuidStr u)

/-- `UUID.fromString`: five groups of hexadecimal digits, as `toString` writes them. -/
def uuidFromString (s : Str) : Option UUID :=
  match (toChars s).splitOn '-' with
  | [a, b, c, d, e] =>
    if a.length = 8 ∧ b.length = 4 ∧ c.length = 4 ∧ d.length = 4 ∧ e.length = 12 then
      (Positional.read? 16 (a ++ (b ++ (c ++ (d ++ e))))).bind fun n =>
        if h : n < 2 ^ 128 then some ⟨n, h⟩ else none
    else none
  | _ => none

/-! ### Rows -/

def eventKindSeparator : UInt16 := 44
def maxRows : ℕ := 50

/-- A row of `terminal_audit`. -/
structure AuditRow where
  taskId : List Char
  schemaVersion : ℤ
  recordedAtEpochMillis : ℤ
  protocolVersion : List Char
  sourceSurface : List Char
  executionTarget : List Char
  toolName : Option (List Char)
  permission : Option (List Char)
  terminalPhase : List Char
  approvalOutcome : List Char
  eventKinds : List Char
  deriving DecidableEq

inductive AuditColumn
  | taskId
  | schemaVersion
  | recordedAtEpochMillis
  | protocolVersion
  | sourceSurface
  | executionTarget
  | toolName
  | permission
  | terminalPhase
  | approvalOutcome
  | eventKinds
  deriving DecidableEq

def nullable : Option (List Char) → Value
  | none => .null
  | some s => .text s

def AuditRow.value (row : AuditRow) : AuditColumn → Value
  | .taskId => .text row.taskId
  | .schemaVersion => .integer row.schemaVersion
  | .recordedAtEpochMillis => .integer row.recordedAtEpochMillis
  | .protocolVersion => .text row.protocolVersion
  | .sourceSurface => .text row.sourceSurface
  | .executionTarget => .text row.executionTarget
  | .toolName => nullable row.toolName
  | .permission => nullable row.permission
  | .terminalPhase => .text row.terminalPhase
  | .approvalOutcome => .text row.approvalOutcome
  | .eventKinds => .text row.eventKinds

/-- `column = 'text'`. -/
def isText (c : AuditColumn) (s : String) : Cond AuditColumn :=
  .eq (.column c) (.value (.text s.toList))

/-- The table `CHECK` on the tool, the target and the permission. -/
def capabilityCheck : Cond AuditColumn :=
  .or (.or (.or
    (.and (.isNull (.column .toolName)) (.isNull (.column .permission)))
    (.and (.and
      (.isIn (.column .toolName) "goffy.rom.checklist" ["goffy.rom.features", "goffy.rom.status",
        "mac.apps.list", "mac.clipboard.read", "mac.files.largest", "mac.files.list",
        "mac.processes.list", "mac.system_info", "git.status"])
      (isText .executionTarget "MAC")) (isText .permission "SAFE")))
    (.and (.and
      (.isIn (.column .toolName) "phone.battery.status" ["phone.device.info", "phone.memory.list",
        "phone.ocr.read", "phone.qr.read"])
      (isText .executionTarget "PHONE")) (isText .permission "SAFE")))
    (.and (.and
      (.isIn (.column .toolName) "phone.flashlight.set" ["phone.memory.forget",
        "phone.memory.forget_all", "phone.memory.remember", "phone.memory.update",
        "phone.note.create", "phone.timer.create"])
      (isText .executionTarget "PHONE")) (isText .permission "CONFIRM"))

/-- `createAuditTable`. -/
def auditSchema : Sql.Schema AuditRow AuditColumn where
  value := AuditRow.value
  primaryKey := .taskId
  checks := [
    .eq (.length (.column .taskId)) (.value (.integer 36)),
    .eq (.column .schemaVersion) (.value (.integer auditSchemaVersion.toInt)),
    .lt (.value (.integer 0)) (.column .recordedAtEpochMillis),
    .between (.length (.column .protocolVersion)) 1 32,
    isText .sourceSurface "TERMINAL_TIMELINE",
    .isIn (.column .executionTarget) "PHONE" ["MAC"],
    .isIn (.column .permission) "SAFE" ["CONFIRM"],
    .isIn (.column .terminalPhase) "VERIFIED" ["UNVERIFIED", "FAILED", "CANCELLED"],
    .isIn (.column .approvalOutcome) "NOT_REQUIRED" ["APPROVED", "DENIED", "EXPIRED", "CANCELLED"],
    .le (.length (.column .eventKinds)) (.value (.integer 255)),
    capabilityCheck,
    .or (isText .permission "CONFIRM") (isText .approvalOutcome "NOT_REQUIRED")]

abbrev AuditTable := Sql.Table auditSchema

/-! ### Reading and writing -/

/-- `eventKinds.joinToString(EVENT_KIND_SEPARATOR) { it.name }`. -/
def joinEventKinds (kinds : List TaskEventKind) : Str :=
  [eventKindSeparator].intercalate (kinds.map TaskEventKind.name)

/-- `parseEventKinds`. -/
def parseEventKinds (s : Str) : Except AuditStoreException (List TaskEventKind) :=
  if isBlank s then .ok []
  else (((s.splitOn eventKindSeparator).map trim).filter (· ≠ [])).mapM TaskEventKind.valueOf

/-- The `ContentValues` of a record. -/
def contentValues (r : AuditFields) : AuditRow where
  taskId := toChars (uuidToString r.taskId)
  schemaVersion := r.schemaVersion.toInt
  recordedAtEpochMillis := r.recordedAtEpochMillis.toInt
  protocolVersion := toChars r.protocolVersion
  sourceSurface := toChars r.sourceSurface.name
  executionTarget := toChars r.executionTarget.name
  toolName := r.toolName.map toChars
  permission := r.permission.map fun p => toChars p.name
  terminalPhase := toChars r.phase.name
  approvalOutcome := toChars r.approvalOutcome.name
  eventKinds := toChars (joinEventKinds r.eventKinds)

/-- `Cursor.readRecord`. -/
def readRow (row : AuditRow) : Except AuditStoreException ClosedTerminalAuditRecord := do
  let taskId ← match uuidFromString (ofChars row.taskId) with
    | some u => .ok u
    | none => .error (.illegalArgument (lit "Invalid UUID string: " ++ ofChars row.taskId))
  let sourceSurface ← AuditSourceSurface.valueOf (ofChars row.sourceSurface)
  let executionTarget ← ExecutionTarget.valueOf (ofChars row.executionTarget)
  let permission ← row.permission.mapM fun p => AuditPermission.valueOf (ofChars p)
  let phase ← TerminalAuditPhase.valueOf (ofChars row.terminalPhase)
  let approvalOutcome ← AuditApprovalOutcome.valueOf (ofChars row.approvalOutcome)
  let eventKinds ← parseEventKinds (ofChars row.eventKinds)
  let fields : AuditFields := {
    schemaVersion := Int32.ofInt row.schemaVersion
    taskId := taskId
    recordedAtEpochMillis := Int64.ofInt row.recordedAtEpochMillis
    protocolVersion := ofChars row.protocolVersion
    sourceSurface := sourceSurface
    executionTarget := executionTarget
    toolName := row.toolName.map ofChars
    permission := permission
    phase := phase
    approvalOutcome := approvalOutcome
    eventKinds := eventKinds }
  match ClosedTerminalAuditRecord.new fields with
  | .ok record => .ok record
  | .error message => .error (.illegalArgument message)

/-- `ORDER BY recorded_at_epoch_millis DESC, task_id DESC`. -/
def newestFirst (a b : AuditRow) : Bool :=
  if a.recordedAtEpochMillis = b.recordedAtEpochMillis then ¬ a.taskId < b.taskId
  else b.recordedAtEpochMillis < a.recordedAtEpochMillis

namespace AuditTable

/-- `SQLiteDatabase.readRecord`. -/
def readRecord (t : AuditTable) (taskId : UUID) :
    Except AuditStoreException (Option ClosedTerminalAuditRecord) :=
  match t.find (.text (toChars (uuidToString taskId))) with
  | none => .ok none
  | some row => (readRow row).map some

/-- `trimToNewestRows`. -/
def trimToNewestRows (t : AuditTable) : AuditTable :=
  ((t.orderBy newestFirst).drop maxRows).foldl
    (fun t row => t.delete fun r => r.taskId = row.taskId) t

/-- The body of the transaction in `upsert`. -/
def write (t : AuditTable) (record : ClosedTerminalAuditRecord) :
    Except AuditStoreException (ClosedTerminalAuditRecord × AuditTable) := do
  let inserted ← match t.insertOrReplace (contentValues record.toAuditFields) with
    | some inserted => .ok inserted
    | none => .error .constraint
  let trimmed := trimToNewestRows inserted
  match ← readRecord trimmed record.taskId with
  | none => .error (.illegalState "upserted audit record could not be re-read")
  | some stored =>
    if stored = record then .ok (stored, trimmed)
    else .error (.illegalState "audit record failed post-write verification")

/-- `upsert`: what it returns, and the table afterwards; an exception rolls the transaction back. -/
def upsert (t : AuditTable) (record : ClosedTerminalAuditRecord) :
    Except AuditStoreException ClosedTerminalAuditRecord × AuditTable :=
  match write t record with
  | .ok (stored, t') => (.ok stored, t')
  | .error e => (.error e, t)

end AuditTable

/-! ### A record reads back -/

theorem AuditSourceSurface.valueOf_stored (a : AuditSourceSurface) :
    valueOf (ofChars (toChars a.name)) = .ok a := by
  cases a
  rfl

theorem ExecutionTarget.valueOf_stored (a : ExecutionTarget) :
    valueOf (ofChars (toChars a.name)) = .ok a := by
  cases a <;> rfl

theorem AuditPermission.valueOf_stored (a : AuditPermission) :
    valueOf (ofChars (toChars a.name)) = .ok a := by
  cases a <;> rfl

theorem TerminalAuditPhase.valueOf_stored (a : TerminalAuditPhase) :
    valueOf (ofChars (toChars a.name)) = .ok a := by
  cases a <;> rfl

theorem AuditApprovalOutcome.valueOf_stored (a : AuditApprovalOutcome) :
    valueOf (ofChars (toChars a.name)) = .ok a := by
  cases a <;> rfl

theorem TaskEventKind.valueOf_name (a : TaskEventKind) : valueOf a.name = .ok a := by
  cases a <;> rfl

/-- The groups of a UUID's text make up its digits. -/
theorem uuidHex_groups (u : UUID) :
    (Python.uuidHex u).take 8 ++ (((Python.uuidHex u).drop 8).take 4 ++
      (((Python.uuidHex u).drop 12).take 4 ++ (((Python.uuidHex u).drop 16).take 4 ++
        (Python.uuidHex u).drop 20))) = Python.uuidHex u := by
  have h₁ := List.take_append_drop 4 ((Python.uuidHex u).drop 16)
  have h₂ := List.take_append_drop 4 ((Python.uuidHex u).drop 12)
  have h₃ := List.take_append_drop 4 ((Python.uuidHex u).drop 8)
  rw [List.drop_drop] at h₁ h₂ h₃
  rw [h₁, h₂, h₃, List.take_append_drop]

theorem splitOn_uuidStr (u : UUID) :
    (Python.uuidStr u).splitOn '-' = [(Python.uuidHex u).take 8, ((Python.uuidHex u).drop 8).take 4,
      ((Python.uuidHex u).drop 12).take 4, ((Python.uuidHex u).drop 16).take 4,
      (Python.uuidHex u).drop 20] := by
  have hno : '-' ∉ Python.uuidHex u := fun h => absurd (Python.mem_uuidHex h) (by simp)
  have htext : Python.uuidStr u = ['-'].intercalate [(Python.uuidHex u).take 8,
      ((Python.uuidHex u).drop 8).take 4, ((Python.uuidHex u).drop 12).take 4,
      ((Python.uuidHex u).drop 16).take 4, (Python.uuidHex u).drop 20] := by
    simp [Python.uuidStr, List.intercalate]
  rw [htext]
  apply List.splitOn_intercalate
  · intro l hl hmem
    simp only [List.mem_cons, List.not_mem_nil, or_false] at hl
    rcases hl with rfl | rfl | rfl | rfl | rfl
    · exact hno (List.mem_of_mem_take hmem)
    · exact hno (List.mem_of_mem_drop (List.mem_of_mem_take hmem))
    · exact hno (List.mem_of_mem_drop (List.mem_of_mem_take hmem))
    · exact hno (List.mem_of_mem_drop (List.mem_of_mem_take hmem))
    · exact hno (List.mem_of_mem_drop hmem)
  · simp

theorem uuidFromString_uuidToString (u : UUID) : uuidFromString (uuidToString u) = some u := by
  have hlt : u.val < 16 ^ 32 := lt_of_lt_of_eq u.isLt (by norm_num)
  have hread : Positional.read? 16 (Python.uuidHex u) = some u.val :=
    Positional.read?_write (by decide) le_rfl hlt
  have hlen := Python.length_uuidHex u
  rw [uuidFromString, uuidToString, toChars_ofChars, splitOn_uuidStr]
  simp [hlen, uuidHex_groups, hread]

/-- A name has none of the characters that the encoding of a list gives a meaning. -/
theorem TaskEventKind.name_plain (a : TaskEventKind) :
    eventKindSeparator ∉ a.name ∧ trim a.name = a.name ∧ a.name ≠ [] ∧ isBlank a.name = false ∧
      a.name.length ≤ 9 ∧ Whole a.name := by
  cases a <;> exact ⟨by decide, by decide, by decide, by decide, by decide, whole_ofChars _⟩

theorem mapM_valueOf_name (kinds : List TaskEventKind) :
    (kinds.map TaskEventKind.name).mapM TaskEventKind.valueOf = .ok kinds := by
  induction kinds with
  | nil => rfl
  | cons a kinds ih =>
    rw [List.map_cons, List.mapM_cons, TaskEventKind.valueOf_name, ih]
    rfl

/-- A list that is not empty starts with a name, and a name is not blank. -/
theorem isBlank_joinEventKinds (a : TaskEventKind) (kinds : List TaskEventKind) :
    isBlank (joinEventKinds (a :: kinds)) = false := by
  have hall : ∀ s t : Str, isBlank s = false → isBlank (s ++ t) = false := by
    intro s t h
    simp only [isBlank, List.all_append, Bool.and_eq_false_iff] at h ⊢
    exact Or.inl h
  have ha := a.name_plain.2.2.2.1
  cases kinds with
  | nil => simpa [joinEventKinds, List.intercalate] using ha
  | cons b kinds =>
    rw [joinEventKinds, List.map_cons, List.map_cons, List.intercalate_cons_cons,
      List.append_assoc]
    exact hall _ _ ha

theorem parseEventKinds_joinEventKinds (kinds : List TaskEventKind) :
    parseEventKinds (joinEventKinds kinds) = .ok kinds := by
  cases kinds with
  | nil => rfl
  | cons a kinds =>
    have hsplit : (joinEventKinds (a :: kinds)).splitOn eventKindSeparator =
        (a :: kinds).map TaskEventKind.name := by
      apply List.splitOn_intercalate
      · intro l hl
        obtain ⟨b, -, rfl⟩ := List.mem_map.1 hl
        exact b.name_plain.1
      · simp
    have htrim : ((a :: kinds).map TaskEventKind.name).map trim =
        (a :: kinds).map TaskEventKind.name := by
      rw [List.map_map]
      exact List.map_congr_left fun b _ => b.name_plain.2.1
    have hfilter : ((a :: kinds).map TaskEventKind.name).filter (· ≠ []) =
        (a :: kinds).map TaskEventKind.name := by
      rw [List.filter_eq_self]
      intro l hl
      obtain ⟨b, -, rfl⟩ := List.mem_map.1 hl
      simpa using b.name_plain.2.2.1
    rw [parseEventKinds, isBlank_joinEventKinds, if_neg Bool.false_ne_true, hsplit, htrim, hfilter,
      mapM_valueOf_name]

theorem whole_joinEventKinds (kinds : List TaskEventKind) : Whole (joinEventKinds kinds) := by
  apply whole_intercalate
  · exact whole_ofChars [',']
  · intro s hs
    obtain ⟨a, -, rfl⟩ := List.mem_map.1 hs
    exact a.name_plain.2.2.2.2.2

theorem length_joinEventKinds_le (kinds : List TaskEventKind) :
    (joinEventKinds kinds).length ≤ 10 * kinds.length := by
  induction kinds with
  | nil => simp [joinEventKinds, List.intercalate]
  | cons a kinds ih =>
    have ha := a.name_plain.2.2.2.2.1
    cases kinds with
    | nil =>
      simp only [joinEventKinds, List.map_cons, List.map_nil, List.intercalate_singleton,
        List.length_singleton]
      omega
    | cons b kinds =>
      have hcons : (joinEventKinds (a :: b :: kinds)).length =
          a.name.length + 1 + (joinEventKinds (b :: kinds)).length := by
        simp only [joinEventKinds, List.map_cons, List.intercalate_cons_cons, List.length_append,
          List.length_singleton]
      rw [hcons]
      simp only [List.length_cons] at ih ⊢
      omega

/-- The tools that have a contract. -/
theorem mem_contracts_of_contracted {r : AuditFields} {toolName : Str} (h : r.contracted = true)
    (ht : r.toolName = some toolName) :
    ∃ permission, r.permission = some permission ∧
      (toolName, r.executionTarget, permission) ∈ auditCapabilityContracts := by
  rw [AuditFields.contracted, ht] at h
  simp only [auditContract, Option.map_map, decide_eq_true_eq] at h
  obtain ⟨row, hrow, heq⟩ := Option.map_eq_some_iff.1 h
  obtain ⟨htarget, hpermission⟩ := Prod.mk.inj heq
  have hname : row.1 = toolName := by simpa using List.find?_some hrow
  refine ⟨row.2.2, hpermission.symm, ?_⟩
  rw [← hname, ← htarget]
  exact List.mem_of_find?_eq_some hrow

theorem whole_toolName {r : AuditFields} {toolName : Str} (h : r.contracted = true)
    (ht : r.toolName = some toolName) : Whole toolName := by
  have hall : ∀ row ∈ auditCapabilityContracts, ofChars (toChars row.1) = row.1 := by
    unfold auditCapabilityContracts
    repeat rw [lit_ofList]
    decide +kernel
  obtain ⟨permission, -, hmem⟩ := mem_contracts_of_contracted h ht
  exact hall _ hmem

theorem mapM_permission (p : Option AuditPermission) :
    ((p.map fun p => toChars p.name).mapM fun s => AuditPermission.valueOf (ofChars s)) = .ok p := by
  cases p with
  | none => rfl
  | some p =>
    show (AuditPermission.valueOf (ofChars (toChars p.name))).map some = .ok (some p)
    rw [p.valueOf_stored]
    rfl

theorem readRow_contentValues (record : ClosedTerminalAuditRecord) :
    readRow (contentValues record.toAuditFields) = .ok record := by
  have hr := AuditFields.init_eq_ok_iff.1 record.admitted
  have hprotocol : ofChars (toChars record.protocolVersion) = record.protocolVersion := by
    have hmem := hr.protocolVersion
    simp only [supportedAuditProtocolVersions, List.mem_cons, List.not_mem_nil, or_false] at hmem
    rcases hmem with h | h <;> rw [h] <;> exact whole_ofChars _
  have htool : (record.toolName.map toChars).map ofChars = record.toolName := by
    cases ht : record.toolName with
    | none => rfl
    | some toolName => exact congrArg some (whole_toolName hr.contracted ht)
  have hid : ofChars (toChars (uuidToString record.taskId)) = uuidToString record.taskId :=
    whole_ofChars _
  have hkinds : ofChars (toChars (joinEventKinds record.eventKinds)) =
      joinEventKinds record.eventKinds := whole_joinEventKinds _
  have hnew := record.new_toAuditFields
  simp only [readRow, contentValues, hid, uuidFromString_uuidToString,
    AuditSourceSurface.valueOf_stored, ExecutionTarget.valueOf_stored, mapM_permission,
    TerminalAuditPhase.valueOf_stored, AuditApprovalOutcome.valueOf_stored, hkinds,
    parseEventKinds_joinEventKinds, hprotocol, htool, Int32.ofInt_toInt, Int64.ofInt_toInt]
  simp only [bind, Except.bind]
  rw [hnew]

/-! ### The constraints -/

/-- What the constraint on capabilities makes of the three columns it reads. -/
theorem eval_capabilityCheck (r : AuditFields) :
    capabilityCheck.eval (auditSchema.value (contentValues r)) =
      capabilityCheck.eval fun
        | .executionTarget => .text (toChars r.executionTarget.name)
        | .toolName => nullable (r.toolName.map toChars)
        | .permission => nullable (r.permission.map fun p => toChars p.name)
        | _ => .null := rfl

/-- Of all capabilities that have a contract, the constraint refuses one. -/
theorem passes_capabilityCheck_contract :
    ∀ row ∈ auditCapabilityContracts, (capabilityCheck.passes fun
      | .executionTarget => .text (toChars row.2.1.name)
      | .toolName => .text (toChars row.1)
      | .permission => .text (toChars row.2.2.name)
      | _ => .null) = decide (row.1 ≠ lit "mac.apps.open") := by
  decide +kernel

theorem passes_capabilityCheck {r : AuditFields} (hr : r.Admitted) :
    capabilityCheck.passes (auditSchema.value (contentValues r)) =
      decide (r.toolName ≠ some (lit "mac.apps.open")) := by
  rw [Cond.passes, eval_capabilityCheck]
  have hcontracted := hr.contracted
  cases ht : r.toolName with
  | none =>
    have hp : r.permission = none := by simpa [AuditFields.contracted, ht] using hcontracted
    rw [hp]
    rfl
  | some toolName =>
    obtain ⟨permission, hp, hmem⟩ := mem_contracts_of_contracted hcontracted ht
    have hpass := passes_capabilityCheck_contract _ hmem
    rw [hp]
    exact hpass.trans (by simp)

theorem length_taskId (u : UUID) :
    ((toChars (uuidToString u)).takeWhile (· ≠ '\x00')).length = 36 := by
  have hne : ∀ c ∈ Python.uuidStr u, c ≠ '\x00' := by
    intro c hc
    rcases Python.mem_uuidStr hc with h | rfl
    · obtain ⟨d, hd, rfl⟩ := Positional.mem_write (by decide) h
      have hdigit : ∀ d < 16, Positional.digitChar d ≠ '\x00' := by decide
      exact hdigit d hd
    · decide
  have hself : (Python.uuidStr u).takeWhile (· ≠ '\x00') = Python.uuidStr u := by
    rw [List.takeWhile_eq_self_iff]
    intro c hc
    simpa using hne c hc
  rw [uuidToString, toChars_ofChars, hself]
  simp [Python.uuidStr, Python.length_uuidHex]

theorem length_eventKinds_le {kinds : List TaskEventKind} (h : kinds.length ≤ maxEventKinds) :
    ((toChars (joinEventKinds kinds)).takeWhile (· ≠ '\x00')).length ≤ 255 := by
  have h₁ := (List.takeWhile_prefix (fun c => decide (c ≠ '\x00'))
    (l := toChars (joinEventKinds kinds))).length_le
  have h₂ := length_toChars_le (joinEventKinds kinds)
  have h₃ := length_joinEventKinds_le kinds
  rw [maxEventKinds] at h
  omega

/-- The constraints on columns that hold the name of an entry. -/
theorem passes_names (r : AuditFields) (htarget : r.executionTarget ∈ [ExecutionTarget.phone, .mac]) :
    let row := auditSchema.value (contentValues r)
    (isText .sourceSurface "TERMINAL_TIMELINE").passes row = true ∧
      (Cond.isIn (.column .executionTarget) "PHONE" ["MAC"]).passes row = true ∧
      (Cond.isIn (.column .permission) "SAFE" ["CONFIRM"]).passes row = true ∧
      (Cond.isIn (.column .terminalPhase) "VERIFIED" ["UNVERIFIED", "FAILED", "CANCELLED"]).passes
        row = true ∧
      (Cond.isIn (.column .approvalOutcome) "NOT_REQUIRED"
        ["APPROVED", "DENIED", "EXPIRED", "CANCELLED"]).passes row = true := by
  obtain ⟨_, _, _, _, source, target, _, permission, phase, outcome, _⟩ := r
  refine ⟨?_, ?_, ?_, ?_, ?_⟩
  · cases source
    rfl
  · cases target with
    | phone => rfl
    | mac => rfl
    | cloud => cases htarget with | tail _ h => cases h with | tail _ h => cases h
  · rcases permission with _ | permission
    · rfl
    · cases permission <;> rfl
  · cases phase <;> rfl
  · cases outcome <;> rfl

theorem passes_outcome {r : AuditFields}
    (h : r.permission = some .confirm ∨ r.approvalOutcome = .notRequired) :
    (Cond.or (isText .permission "CONFIRM") (isText .approvalOutcome "NOT_REQUIRED")).passes
      (auditSchema.value (contentValues r)) = true := by
  obtain ⟨_, _, _, _, _, _, _, permission, _, outcome, _⟩ := r
  rcases h with rfl | rfl
  · rfl
  · rcases permission with _ | permission
    · rfl
    · cases permission <;> rfl

/-- The constraints on numbers and lengths. -/
theorem passes_measures {r : AuditFields} (hr : r.Admitted) :
    let row := auditSchema.value (contentValues r)
    (Cond.eq (.length (.column .taskId)) (.value (.integer 36))).passes row = true ∧
      (Cond.eq (.column .schemaVersion) (.value (.integer auditSchemaVersion.toInt))).passes
        row = true ∧
      (Cond.lt (.value (.integer 0)) (.column .recordedAtEpochMillis)).passes row = true ∧
      (Cond.between (.length (.column .protocolVersion)) 1 32).passes row = true ∧
      (Cond.le (.length (.column .eventKinds)) (.value (.integer 255))).passes row = true := by
  have hrecorded : 0 < r.recordedAtEpochMillis.toInt := by
    simpa using Int64.lt_iff_toInt_lt.1 hr.recordedAt
  have hprotocol : r.protocolVersion = lit "0.2.0" := by
    simpa [supportedAuditProtocolVersions, goffyProtocolVersion] using hr.protocolVersion
  have hkinds := length_eventKinds_le hr.eventKinds
  refine ⟨Cond.passes_of_eval ?_, Cond.passes_of_eval ?_, Cond.passes_of_eval ?_,
    Cond.passes_of_eval ?_, Cond.passes_of_eval ?_⟩
  · show some (decide (Value.integer
      ((toChars (uuidToString r.taskId)).takeWhile (· ≠ '\x00')).length = .integer 36)) = _
    rw [length_taskId]
    rfl
  · show some (decide (Value.integer r.schemaVersion.toInt = .integer auditSchemaVersion.toInt)) = _
    rw [hr.schemaVersion]
    rfl
  · exact congrArg some (decide_eq_true hrecorded)
  · obtain ⟨_, _, _, protocol, _, _, _, _, _, _, _⟩ := r
    cases hprotocol
    rfl
  · show some (!decide ((255 : ℤ) <
      ((toChars (joinEventKinds r.eventKinds)).takeWhile (· ≠ '\x00')).length)) = _
    rw [decide_eq_false (by omega)]
    rfl

/-- The `CHECK` constraints admit the row of an admitted record, unless its tool is the one that they
leave out. -/
theorem admits_contentValues {r : AuditFields} (hr : r.Admitted) :
    auditSchema.admits (contentValues r) = decide (r.toolName ≠ some (lit "mac.apps.open")) := by
  obtain ⟨h₁, h₂, h₃, h₄, h₁₀⟩ := passes_measures hr
  obtain ⟨h₅, h₆, h₇, h₈, h₉⟩ := passes_names r hr.executionTarget
  have h₁₁ := passes_capabilityCheck hr
  have h₁₂ := passes_outcome hr.outcome
  rw [Sql.Schema.admits]
  show List.all [_, _, _, _, _, _, _, _, _, _, _, _] _ = _
  simp only [List.all_cons, List.all_nil, Bool.and_true]
  rw [h₁, h₂, h₃, h₄, h₅, h₆, h₇, h₈, h₉, h₁₀, h₁₁, h₁₂]
  simp

/-! ### Writing a record -/

/-- A table that is not full has nothing to trim. -/
theorem AuditTable.trimToNewestRows_of_length_le {t : AuditTable} (h : t.rows.length ≤ maxRows) :
    AuditTable.trimToNewestRows t = t := by
  have hnil : (t.orderBy newestFirst).drop maxRows = [] := by
    rw [List.drop_eq_nil_iff, t.length_orderBy]
    exact h
  rw [AuditTable.trimToNewestRows, hnil, List.foldl_nil]

/-- A record that the constraints admit is written and read back. -/
theorem AuditTable.upsert_of_admits {t : AuditTable} {record : ClosedTerminalAuditRecord}
    (hlen : t.rows.length < maxRows)
    (h : auditSchema.admits (contentValues record.toAuditFields) = true) :
    ∃ t', AuditTable.upsert t record = (.ok record, t') ∧
      AuditTable.readRecord t' record.taskId = .ok (some record) := by
  obtain ⟨t', hinsert, hrows⟩ := Sql.Table.insertOrReplace_of_admits (t := t) h
  have htrim : AuditTable.trimToNewestRows t' = t' := by
    apply AuditTable.trimToNewestRows_of_length_le
    have hle := t.length_delete_le fun r =>
      auditSchema.key r = auditSchema.key (contentValues record.toAuditFields)
    rw [hrows, List.length_append, List.length_singleton]
    omega
  have hread : AuditTable.readRecord t' record.taskId = .ok (some record) := by
    have hfind := Sql.Table.find_insertOrReplace hrows
    rw [AuditTable.readRecord, show t'.find (.text (toChars (uuidToString record.taskId))) = _
      from hfind]
    simp only [readRow_contentValues]
    rfl
  have hwrite : AuditTable.write t record = .ok (record, t') := by
    rw [AuditTable.write, hinsert]
    simp only [bind, Except.bind, htrim, hread, if_pos]
  refine ⟨t', ?_, hread⟩
  rw [AuditTable.upsert, hwrite]

/-- A record whose row violates a constraint is not written. -/
theorem AuditTable.upsert_of_not_admits (t : AuditTable) (record : ClosedTerminalAuditRecord)
    (h : auditSchema.admits (contentValues record.toAuditFields) = false) :
    AuditTable.upsert t record = (.error .constraint, t) := by
  have hnone := Sql.Table.insertOrReplace_eq_none_iff (t := t).2 h
  rw [AuditTable.upsert, AuditTable.write, hnone]
  rfl

/-- Into a table that is not full, a record is written and read back exactly if its tool is not
`mac.apps.open`: the `init` block admits that capability, and the table's `CHECK` does not name it. -/
theorem upsert_succeeds_iff (t : AuditTable) (record : ClosedTerminalAuditRecord)
    (hlen : t.rows.length < maxRows) :
    (auditSchema.admits (contentValues record.toAuditFields) = true ∧
      ∃ t', AuditTable.upsert t record = (.ok record, t') ∧
        AuditTable.readRecord t' record.taskId = .ok (some record)) ↔
      record.toolName ≠ some (lit "mac.apps.open") := by
  have hadmits := admits_contentValues (AuditFields.init_eq_ok_iff.1 record.admitted)
  constructor
  · rintro ⟨h, -⟩
    rw [hadmits] at h
    exact of_decide_eq_true h
  · intro h
    have htrue : auditSchema.admits (contentValues record.toAuditFields) = true := by
      rw [hadmits]
      exact decide_eq_true h
    exact ⟨htrue, AuditTable.upsert_of_admits hlen htrue⟩

/-- The fields of a task that opened an app on the Mac. -/
def appOpenedFields : AuditFields where
  taskId := 1
  recordedAtEpochMillis := 1700000000000
  protocolVersion := goffyProtocolVersion
  sourceSurface := .terminalTimeline
  executionTarget := .mac
  toolName := some (lit "mac.apps.open")
  permission := some .confirm
  phase := .verified
  approvalOutcome := .approved
  eventKinds := [.observe, .plan, .authorize, .prepare, .tool, .result, .verify]

def batteryFields : AuditFields where
  taskId := 2
  recordedAtEpochMillis := 1700000000000
  protocolVersion := goffyProtocolVersion
  sourceSurface := .terminalTimeline
  executionTarget := .phone
  toolName := some (lit "phone.battery.status")
  permission := some .safe
  phase := .verified
  approvalOutcome := .notRequired
  eventKinds := [.observe, .plan, .prepare, .tool, .result, .verify]

/-- The battery's record is written into the empty table. -/
theorem battery_recorded :
    ∃ record : ClosedTerminalAuditRecord, record.toAuditFields = batteryFields ∧
      ∃ t', AuditTable.upsert .empty record = (.ok record, t') ∧
        AuditTable.readRecord t' record.taskId = .ok (some record) := by
  have hinit : batteryFields.init = .ok () := by decide
  have htool : batteryFields.toolName ≠ some (lit "mac.apps.open") := by decide
  exact ⟨⟨batteryFields, hinit⟩, rfl,
    ((upsert_succeeds_iff .empty ⟨batteryFields, hinit⟩ (by decide)).2 htool).2⟩

/-- The record of a task that opened an app is admitted, and the empty table does not take it. -/
theorem app_opened_not_recorded :
    ∃ record : ClosedTerminalAuditRecord, record.toAuditFields = appOpenedFields ∧
      (Sql.Table.empty : AuditTable).rows.length < maxRows ∧
      auditSchema.admits (contentValues record.toAuditFields) = false ∧
      (AuditTable.upsert .empty record).1 = .error .constraint := by
  have hinit : appOpenedFields.init = .ok () := by decide
  have hadmits : auditSchema.admits (contentValues appOpenedFields) = false := by
    rw [admits_contentValues (AuditFields.init_eq_ok_iff.1 hinit)]
    decide
  have hupsert := AuditTable.upsert_of_not_admits .empty ⟨appOpenedFields, hinit⟩ hadmits
  exact ⟨⟨appOpenedFields, hinit⟩, rfl, by decide, hadmits, congrArg Prod.fst hupsert⟩

end GoffyPhone
