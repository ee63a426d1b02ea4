import GoffyOs.Lib.Sql
import GoffyOs.Phone.TaskTimeline

/-!
# The terminal audit (`audit/ClosedTerminalAudit.kt`)

Of every task that has ended the phone keeps a record: which tool ran where, under which permission,
how the task ended and which kinds of events it had, but none of its texts.

* `AuditFields` are the fields of a record, and `ClosedTerminalAuditRecord` are those that its `init`
  block admits;
* `toClosedTerminalAuditRecord` makes a record of a timeline entry and `toTimelineEntry` an entry of
  a record.
-/

namespace GoffyPhone

open Kotlin
open Python (UUID)
open Recent (takeLast)

inductive AuditSourceSurface
  | terminalTimeline
  deriving DecidableEq

inductive AuditPermission
  | safe
  | confirm
  deriving DecidableEq

inductive TerminalAuditPhase
  | verified
  | unverified
  | failed
  | cancelled
  deriving DecidableEq

inductive AuditApprovalOutcome
  | notRequired
  | approved
  | denied
  | expired
  | cancelled
  deriving DecidableEq

/-! ### Records -/

def auditSchemaVersion : Int32 := 1
def maxEventKinds : ℕ := 16
def goffyProtocolVersion : Str := lit "0.2.0"
def supportedAuditProtocolVersions : List Str := [lit "0.2.0", goffyProtocolVersion]

/-- The entries of `AUDIT_CAPABILITY_CONTRACTS`. -/
def auditCapabilityContracts : List (Str × ExecutionTarget × AuditPermission) := [
  (lit "git.status", .mac, .safe),
  (lit "goffy.rom.checklist", .mac, .safe),
  (lit "goffy.rom.features", .mac, .safe),
  (lit "goffy.rom.status", .mac, .safe),
  (lit "mac.apps.list", .mac, .safe),
  (lit "mac.apps.open", .mac, .confirm),
  (lit "mac.clipboard.read", .mac, .safe),
  (lit "mac.files.largest", .mac, .safe),
  (lit "mac.files.list", .mac, .safe),
  (lit "mac.processes.list", .mac, .safe),
  (lit "mac.system_info", .mac, .safe),
  (lit "phone.battery.status", .phone, .safe),
  (lit "phone.device.info", .phone, .safe),
  (lit "phone.flashlight.set", .phone, .confirm),
  (lit "phone.memory.forget", .phone, .confirm),
  (lit "phone.memory.forget_all", .phone, .confirm),
  (lit "phone.memory.list", .phone, .safe),
  (lit "phone.memory.remember", .phone, .confirm),
  (lit "phone.memory.update", .phone, .confirm),
  (lit "phone.note.create", .phone, .confirm),
  (lit "phone.ocr.read", .phone, .safe),
  (lit "phone.qr.read", .phone, .safe),
  (lit "phone.timer.create", .phone, .confirm)]

/-- `AUDIT_CAPABILITY_CONTRACTS[toolName]`. -/
def auditContract (toolName : Str) : Option (ExecutionTarget × AuditPermission) :=
  (auditCapabilityContracts.find? fun row => row.1 = toolName).map Prod.snd

/-- The fields of a `ClosedTerminalAuditRecord`. -/
structure AuditFields where
  schemaVersion : Int32 := auditSchemaVersion
  taskId : UUID
  recordedAtEpochMillis : Int64
  protocolVersion : Str
  sourceSurface : AuditSourceSurface
  executionTarget : ExecutionTarget
  toolName : Option Str
  permission : Option AuditPermission
  phase : TerminalAuditPhase
  approvalOutcome : AuditApprovalOutcome
  eventKinds : List TaskEventKind
  deriving DecidableEq

namespace AuditFields

/-- The tool, the target and the permission match a closed capability contract. -/
def contracted (r : AuditFields) : Bool :=
  match r.toolName with
  | none => r.permission = none
  | some toolName =>
    (auditContract toolName).map (fun c => (c.1, some c.2)) = some (r.executionTarget, r.permission)

/-- The `init` block; the error is the message of the `IllegalArgumentException`. -/
def init (r : AuditFields) : Except Str Unit := do
  if r.schemaVersion ≠ auditSchemaVersion then
    throw (lit "unsupported audit schema version: " ++ ofInt32 r.schemaVersion)
  if ¬ 0 < r.recordedAtEpochMillis then throw (lit "recordedAtEpochMillis must be positive")
  if r.protocolVersion ∉ supportedAuditProtocolVersions then
    throw (lit "unsupported audit protocol version: " ++ r.protocolVersion)
  if r.executionTarget ∉ [ExecutionTarget.phone, .mac] then
    throw (lit "audit execution target must be PHONE or MAC")
  if ¬ r.contracted then
    throw (lit "audit tool, target, and permission must match a closed capability contract")
  if ¬ (r.permission = some .confirm ∨ r.approvalOutcome = .notRequired) then
    throw (lit "only CONFIRM capabilities may record an approval outcome")
  if ¬ r.eventKinds.length ≤ maxEventKinds then throw (lit "eventKinds exceeds 16 items")

/-- What the `init` block admits. -/
structure Admitted (r : AuditFields) : Prop where
  schemaVersion : r.schemaVersion = auditSchemaVersion
  recordedAt : 0 < r.recordedAtEpochMillis
  protocolVersion : r.protocolVersion ∈ supportedAuditProtocolVersions
  executionTarget : r.executionTarget ∈ [ExecutionTarget.phone, .mac]
  contracted : r.contracted = true
  outcome : r.permission = some .confirm ∨ r.approvalOutcome = .notRequired
  eventKinds : r.eventKinds.length ≤ maxEventKinds

/-- One check of the block. -/
theorem check_bind_eq_ok {ε α : Type} {p : Prop} [Decidable p] {e : ε} {rest : Except ε α} {a : α} :
    ((do if p then throw e
         rest) = Except.ok a) ↔ ¬ p ∧ rest = .ok a := by
  by_cases hp : p
  · simp [hp, bind, Except.bind, throw, throwThe, MonadExceptOf.throw]
  · simp [hp]

theorem check_eq_ok {ε : Type} {p : Prop} [Decidable p] {e : ε} :
    ((if p then throw e else pure ()) = (Except.ok () : Except ε Unit)) ↔ ¬ p := by
  by_cases hp : p
  · simp [hp, throw, throwThe, MonadExceptOf.throw]
  · simp [hp, pure, Except.pure]

theorem init_eq_ok_iff {r : AuditFields} : r.init = .ok () ↔ r.Admitted := by
  rw [init]
  iterate 6 rw [check_bind_eq_ok]
  rw [check_eq_ok]
  simp only [not_not]
  constructor
  · rintro ⟨h₁, h₂, h₃, h₄, h₅, h₆, h₇⟩
    exact ⟨h₁, h₂, h₃, h₄, h₅, h₆, h₇⟩
  · rintro ⟨h₁, h₂, h₃, h₄, h₅, h₆, h₇⟩
    exact ⟨h₁, h₂, h₃, h₄, h₅, h₆, h₇⟩

end AuditFields

/-- `ClosedTerminalAuditRecord`: fields that the `init` block admits. -/
structure ClosedTerminalAuditRecord extends AuditFields where
  admitted : toAuditFields.init = .ok ()
  deriving DecidableEq

/-- The constructor. -/
def ClosedTerminalAuditRecord.new (r : AuditFields) : Except Str ClosedTerminalAuditRecord :=
  match h : r.init with
  | .ok () => .ok ⟨r, h⟩
  | .error e => .error e

theorem ClosedTerminalAuditRecord.new_toAuditFields (r : ClosedTerminalAuditRecord) :
    ClosedTerminalAuditRecord.new r.toAuditFields = .ok r := by
  rw [ClosedTerminalAuditRecord.new]
  split
  · rfl
  · rename_i e h
    rw [r.admitted] at h
    cases h

/-! ### Records of timeline entries -/

/-- `TaskPhase.toTerminalAuditPhase`. -/
def TaskPhase.toTerminalAuditPhase : TaskPhase → Option TerminalAuditPhase
  | .verified => some .verified
  | .unverified => some .unverified
  | .failed => some .failed
  | .cancelled => some .cancelled
  | .routing | .awaitingApproval | .preparing | .accepted | .completedUnverified => none

/-- `TerminalAuditPhase.toTaskPhase`. -/
def TerminalAuditPhase.toTaskPhase : TerminalAuditPhase → TaskPhase
  | .verified => .verified
  | .unverified => .unverified
  | .failed => .failed
  | .cancelled => .cancelled

/-- `displaySummary`. -/
def TerminalAuditPhase.displaySummary : TerminalAuditPhase → Str
  | .verified => lit "Recorded task completed with verification"
  | .unverified => lit "Recorded task completed without readable verification"
  | .failed => lit "Recorded task failed"
  | .cancelled => lit "Recorded task was cancelled"

/-- `toAuditPermission`. -/
def toAuditPermission : Option PermissionLevel → Option AuditPermission
  | some .safe => some .safe
  | some .confirm => some .confirm
  | some .sensitive | some .blocked | none => none

/-- `toPermissionLevel`. -/
def toPermissionLevel : Option AuditPermission → Option PermissionLevel
  | some .safe => some .safe
  | some .confirm => some .confirm
  | none => none

namespace TaskTimelineEntry

variable {γ : Type}

/-- `hasErrorCode`. -/
def hasErrorCode (e : TaskTimelineEntry γ) (code : Str) : Bool :=
  e.events.any fun event => event.kind = .error && (code ++ lit ":").isPrefixOf event.message

/-- `approvalOutcome`. -/
def approvalOutcome (e : TaskTimelineEntry γ) : AuditApprovalOutcome :=
  if e.permission ≠ some .confirm then .notRequired
  else if e.phase = .failed ∧ e.hasErrorCode (lit "approval_expired") then .expired
  else if e.phase = .cancelled ∧ e.summary = lit "Approval denied; no tool was invoked" then .denied
  else if e.phase = .cancelled ∧ e.summary = lit "Approval cancelled; no tool was invoked" then
    .cancelled
  else if e.phase = .failed ∧ e.summary = lit "Approval expired; no tool was invoked" then .expired
  else if e.approvalGranted then .approved
  else .cancelled

/-- `toClosedTerminalAuditRecord`, with its default arguments: `none` for an entry that has not ended,
and the message of the exception where the record refuses its fields. -/
def toClosedTerminalAuditRecord (e : TaskTimelineEntry γ) (recordedAtEpochMillis : Int64) :
    Except Str (Option ClosedTerminalAuditRecord) :=
  match e.phase.toTerminalAuditPhase with
  | none => .ok none
  | some terminalPhase =>
    (ClosedTerminalAuditRecord.new {
      taskId := e.id
      recordedAtEpochMillis := recordedAtEpochMillis
      protocolVersion := goffyProtocolVersion
      sourceSurface := .terminalTimeline
      executionTarget := e.executionTarget
      toolName := e.toolName.filter fun name => name ∈ auditCapabilityContracts.map Prod.fst
      permission := toAuditPermission e.permission
      phase := terminalPhase
      approvalOutcome := e.approvalOutcome
      eventKinds := takeLast maxEventKinds (e.events.map TaskTimelineEvent.kind) }).map some

end TaskTimelineEntry

/-- `TaskEventKind.displayMessage`. -/
def TaskEventKind.displayMessage (approvalOutcome : AuditApprovalOutcome)
    (phase : TerminalAuditPhase) : TaskEventKind → Str
  | .observe => lit "Recorded observation step"
  | .plan => lit "Recorded planning step"
  | .authorize =>
    match approvalOutcome with
    | .approved => lit "Recorded approval grant"
    | .denied => lit "Recorded approval denial"
    | .expired => lit "Recorded approval expiry"
    | .cancelled => lit "Recorded approval cancellation"
    | .notRequired => lit "Recorded approval step"
  | .prepare => lit "Recorded preparation step"
  | .tool => lit "Recorded execution step"
  | .result => lit "Recorded result step"
  | .verify =>
    if phase = .unverified then lit "Recorded unverified completion"
    else lit "Recorded verification step"
  | .error => lit "Recorded failure step"

/-- The texts of `displayCommand`. -/
def displayCommands : List (Str × String) := [
  (lit "git.status", "Recorded Git status task"),
  (lit "goffy.rom.checklist", "Recorded GOFFY ROM checklist task"),
  (lit "goffy.rom.features", "Recorded GOFFY ROM feature payload task"),
  (lit "goffy.rom.status", "Recorded GOFFY ROM status task"),
  (lit "mac.apps.list", "Recorded Mac app catalog task"),
  (lit "mac.apps.open", "Recorded Mac app open task"),
  (lit "mac.clipboard.read", "Recorded Mac clipboard task"),
  (lit "mac.files.largest", "Recorded largest Mac files task"),
  (lit "mac.files.list", "Recorded Mac file listing task"),
  (lit "mac.processes.list", "Recorded Mac process list task"),
  (lit "mac.system_info", "Recorded Mac status task"),
  (lit "phone.battery.status", "Recorded battery status task"),
  (lit "phone.device.info", "Recorded device info task"),
  (lit "phone.flashlight.set", "Recorded flashlight action task"),
  (lit "phone.memory.forget", "Recorded memory single-delete task"),
  (lit "phone.memory.forget_all", "Recorded memory deletion task"),
  (lit "phone.memory.list", "Recorded memory inspection task"),
  (lit "phone.memory.remember", "Recorded memory write task"),
  (lit "phone.memory.update", "Recorded memory update task"),
  (lit "phone.note.create", "Recorded private note task"),
  (lit "phone.ocr.read", "Recorded OCR read task"),
  (lit "phone.qr.read", "Recorded QR read task"),
  (lit "phone.timer.create", "Recorded timer task")]

/-- `displayCommand`. -/
def displayCommand : Option Str → Str
  | none => lit "Recorded unsupported task"
  | some toolName =>
    match displayCommands.find? fun row => row.1 = toolName with
    | some (_, text) => lit text
    | none => lit "Recorded task"

/-- `toTimelineEntry`. -/
def ClosedTerminalAuditRecord.toTimelineEntry {γ : Type} (r : ClosedTerminalAuditRecord) :
    TaskTimelineEntry γ where
  id := r.taskId
  command := displayCommand r.toolName
  executionTarget := r.executionTarget
  toolName := r.toolName
  phase := r.phase.toTaskPhase
  summary := r.phase.displaySummary
  events := (takeLast maxEventKinds r.eventKinds).map fun kind =>
    ⟨kind, kind.displayMessage r.approvalOutcome r.phase⟩
  permission := toPermissionLevel r.permission
  terminalAtEpochMillis := some r.recordedAtEpochMillis.toInt
  auditRecordedAtEpochMillis := some r.recordedAtEpochMillis.toInt

end GoffyPhone
