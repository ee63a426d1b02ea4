import GoffyOs.Lib.Dict
import GoffyOs.Lib.Recent
import GoffyOs.Phone.Protocol

/-!
# The task timeline (`agent/GoffyTaskReducer.kt`)

The phone shows its tasks as a timeline of at most 50 entries, of which one may be active. The
operations of `TaskTimelineState` are pure: each one returns the next timeline.

* An entry is changed at the place of the last entry with its id (`indexOfLast`). Most operations
  differ only in what they make of that entry: `onActive` is their common part, and `applyStarting`
  to `applyUnverified` are the changes;
* the shape of a timeline is generic over its entries (`Entry`), so that `TaskTimelineRuns` can run
  the same operations on entries that remember their history;
* results are generic too: `ToolResultContent` is what the timeline asks of a result;
* ids and times that an operation takes from outside are arguments. A failed `require` is an error
  with its message.
-/

namespace GoffyPhone

open Kotlin
open Python (UUID)
open Recent (takeLast indexOfLast)

inductive TaskPhase
  | routing
  | awaitingApproval
  | preparing
  | accepted
  | completedUnverified
  | unverified
  | verified
  | failed
  | cancelled
  deriving DecidableEq

/-- `phase in TERMINAL_PHASES`. -/
def TaskPhase.terminal : TaskPhase → Bool
  | .unverified | .verified | .failed | .cancelled => true
  | _ => false

inductive TaskEventKind
  | observe
  | plan
  | authorize
  | prepare
  | tool
  | result
  | verify
  | error
  deriving DecidableEq

structure TaskTimelineEvent where
  kind : TaskEventKind
  message : Str
  deriving DecidableEq

/-- `LocalModelIntentObservation`; a confidence is taken as it is displayed. -/
inductive LocalModelIntentObservation
  | candidate (intentLabel displayConfidence : Str)
  | disabled (reason : Str)
  | rejected (reason : Str)

/-! ### Entries -/

def maxTimelineItems : ℕ := 50
def maxTaskEvents : ℕ := 16
def maxVerificationChecks : ℕ := 16
def maxCommandLength : ℕ := 2000

structure TaskTimelineEntry (γ : Type) where
  id : UUID
  command : Str
  executionTarget : ExecutionTarget
  toolName : Option Str
  phase : TaskPhase
  summary : Str
  events : List TaskTimelineEvent
  result : Option γ := none
  verificationSummary : Option Str := none
  verificationChecks : List Str := []
  lastProgressSequence : Option Int32 := none
  lastStartAttempt : Option Int32 := none
  executionReady : Bool := false
  permission : Option PermissionLevel := none
  approvalGranted : Bool := false
  terminalAtEpochMillis : Option ℤ := none
  auditRecordedAtEpochMillis : Option ℤ := none

/-- `String.safeText`. -/
def safeText (s : Str) : Str := ifEmpty ((trim s).take 256) (lit "No details available")

/-- What a tool name demands of an entry's authority. -/
inductive Authority
  | unrestricted
  | safe
  | approved
  deriving DecidableEq

/-- A row of `acceptsContent`. -/
structure ToolContract where
  toolName : Str
  executionTarget : ExecutionTarget
  authority : Authority := .unrestricted
  content : ContentType
  /-- the content is also checked with `matchesToolContract` -/
  checked : Bool := true

/-- The rows of `acceptsContent`, in the order of the source. -/
def toolContracts : List ToolContract := [
  { toolName := lit "goffy.rom.checklist", executionTarget := .mac, content := .goffyRomChecklist },
  { toolName := lit "goffy.rom.features", executionTarget := .mac, content := .goffyRomFeatures },
  { toolName := lit "goffy.rom.status", executionTarget := .mac, content := .goffyRomStatus },
  { toolName := lit "git.status", executionTarget := .mac, content := .gitStatus },
  { toolName := lit "mac.clipboard.read", executionTarget := .mac, content := .macClipboardRead },
  { toolName := lit "mac.apps.list", executionTarget := .mac, content := .macAppsList },
  { toolName := lit "mac.apps.open", executionTarget := .mac, authority := .approved
    content := .macAppOpened },
  { toolName := lit "mac.files.largest", executionTarget := .mac, content := .macFilesLargest },
  { toolName := lit "mac.files.list", executionTarget := .mac, content := .macFilesList },
  { toolName := lit "mac.processes.list", executionTarget := .mac, content := .macProcessesList },
  { toolName := lit "mac.system_info", executionTarget := .mac, content := .macSystemInfo
    checked := false },
  { toolName := lit "phone.battery.status", executionTarget := .phone
    content := .phoneBatteryStatus },
  { toolName := lit "phone.device.info", executionTarget := .phone, content := .phoneDeviceInfo },
  { toolName := lit "phone.flashlight.set", executionTarget := .phone, authority := .approved
    content := .phoneFlashlightState, checked := false },
  { toolName := lit "phone.note.create", executionTarget := .phone, authority := .approved
    content := .phoneNoteCreated },
  { toolName := lit "phone.memory.remember", executionTarget := .phone, authority := .approved
    content := .phoneMemoryRemembered },
  { toolName := lit "phone.memory.list", executionTarget := .phone, authority := .safe
    content := .phoneMemoryList },
  { toolName := lit "phone.memory.forget", executionTarget := .phone, authority := .approved
    content := .phoneMemoryDeleted },
  { toolName := lit "phone.memory.forget_all", executionTarget := .phone, authority := .approved
    content := .phoneMemoryForgotten },
  { toolName := lit "phone.memory.update", executionTarget := .phone, authority := .approved
    content := .phoneMemoryUpdated },
  { toolName := lit "phone.ocr.read", executionTarget := .phone, authority := .safe
    content := .phoneOcrRead },
  { toolName := lit "phone.qr.read", executionTarget := .phone, authority := .safe
    content := .phoneQrRead },
  { toolName := lit "phone.timer.create", executionTarget := .phone, authority := .approved
    content := .phoneTimerDispatched }]

namespace TaskTimelineEntry

variable {γ : Type}

/-- The conditions on permission and approval in `acceptsContent`. -/
def hasAuthority (e : TaskTimelineEntry γ) : Authority → Bool
  | .unrestricted => true
  | .safe => e.permission = some .safe
  | .approved => e.permission = some .confirm && e.approvalGranted

/-- `acceptsContent`. -/
def acceptsContent [ToolResultContent γ] (e : TaskTimelineEntry γ) (content : γ) : Bool :=
  match toolContracts.find? fun row => some row.toolName = e.toolName with
  | none => false
  | some row =>
    e.executionTarget = row.executionTarget && e.hasAuthority row.authority &&
      ToolResultContent.type content = row.content &&
      (!row.checked || ToolResultContent.matchesToolContract content)

/-- `withEvent`. -/
def withEvent (e : TaskTimelineEntry γ) (kind : TaskEventKind) (message : Str) :
    TaskTimelineEntry γ :=
  { e with events := takeLast maxTaskEvents (e.events ++ [⟨kind, safeText message⟩]) }

/-- `failSequence`. -/
def failSequence (e : TaskTimelineEntry γ) (message : String) : TaskTimelineEntry γ :=
  { e with phase := .failed, summary := lit message }.withEvent .error (lit message)

/-- `withTerminalTimestamp`. -/
def withTerminalTimestamp (e : TaskTimelineEntry γ) (timestamp : ℤ) : TaskTimelineEntry γ :=
  if e.phase.terminal ∧ e.terminalAtEpochMillis = none then
    { e with terminalAtEpochMillis := some timestamp }
  else e

/-- `startingSummary`. -/
def startingSummary (e : TaskTimelineEntry γ) (attempt : Int32) : Str :=
  match e.executionTarget with
  | .mac => lit (if attempt = 1 then "Starting MAC Hub connection"
      else "Retrying MAC Hub connection safely")
  | .phone => lit (if attempt = 1 then "Starting local PHONE execution"
      else "Retrying local PHONE execution safely")
  | .cloud => lit (if attempt = 1 then "Starting CLOUD execution"
      else "Retrying CLOUD execution safely")

/-- `startingEventMessage`. -/
def startingEventMessage (e : TaskTimelineEntry γ) (attempt : Int32) : Str :=
  match e.executionTarget with
  | .mac => lit "MAC Hub start attempt " ++ ofInt32 attempt
  | .phone => lit "PHONE local start attempt " ++ ofInt32 attempt
  | .cloud => lit "CLOUD start attempt " ++ ofInt32 attempt

/-- `readySummary`. -/
def readySummary (e : TaskTimelineEntry γ) : Str :=
  match e.executionTarget with
  | .mac => lit "MAC capability compatible; invocation sent"
  | .phone => lit "PHONE local execution ready"
  | .cloud => lit "CLOUD execution ready"

/-- `readyEventMessage`. -/
def readyEventMessage (e : TaskTimelineEntry γ) : Str :=
  match e.executionTarget with
  | .mac => lit "Authenticated MAC Hub capability discovered and compatible"
  | .phone => lit "PHONE local execution ready"
  | .cloud => lit "CLOUD execution ready"

/-- `cancellationSummary`. -/
def cancellationSummary (e : TaskTimelineEntry γ) : Str :=
  if e.phase = .awaitingApproval then lit "Approval cancelled; no tool was invoked"
  else if e.permission = some .confirm ∧ e.lastStartAttempt ≠ none then
    lit "Cancellation requested; confirmed action completion is not guaranteed"
  else match e.executionTarget with
    | .mac => lit "Cancelled locally; Hub completion is not guaranteed"
    | .phone => lit "Local PHONE execution cancelled"
    | .cloud => lit "Cancelled locally; remote completion is not guaranteed"

/-- `cancellationEventMessage`. -/
def cancellationEventMessage (e : TaskTimelineEntry γ) : Str :=
  if e.phase = .awaitingApproval then lit "User cancelled before approval; no tool was invoked"
  else if e.permission = some .confirm ∧ e.lastStartAttempt ≠ none then
    lit "User requested cancellation after confirmed execution started"
  else match e.executionTarget with
    | .mac => lit "User cancelled the local Hub connection"
    | .phone => lit "User cancelled local PHONE execution"
    | .cloud => lit "User cancelled the local request"

/-! ### What events make of an entry -/

/-- `applyStarting`. -/
def applyStarting (current : TaskTimelineEntry γ) (attempt : Int32) : TaskTimelineEntry γ :=
  if attempt ≠ current.lastStartAttempt.getD 0 + 1 ∨
      ¬ (current.phase = .routing ∨ current.phase = .preparing) ∨
      current.lastProgressSequence ≠ none ∨
      (current.permission = some .confirm ∧ current.approvalGranted = false) then
    current.failSequence "Execution start event failed ordering checks"
  else
    { current with
      phase := .preparing
      summary := current.startingSummary attempt
      lastStartAttempt := some attempt
      executionReady := false }.withEvent .prepare (current.startingEventMessage attempt)

/-- `applyReady`. -/
def applyReady (current : TaskTimelineEntry γ) : TaskTimelineEntry γ :=
  if current.phase ≠ .preparing ∨ current.lastStartAttempt = none ∨
      current.executionReady = true then
    current.failSequence "Execution ready event failed ordering checks"
  else
    { current with summary := current.readySummary, executionReady := true }.withEvent .prepare
      current.readyEventMessage

/-- The phase that a progress event in its turn leads to. -/
def progressPhase (current : TaskTimelineEntry γ) (progress : ToolProgress) : Option TaskPhase :=
  if progress.stage = lit "accepted" ∧ current.phase = .preparing ∧
      current.executionReady = true ∧ progress.sequence = 0 then some .accepted
  else if progress.stage = lit "completed" ∧ current.phase = .accepted then
    some .completedUnverified
  else none

/-- `applyProgress`. -/
def applyProgress (current : TaskTimelineEntry γ) (progress : ToolProgress) :
    TaskTimelineEntry γ :=
  if some progress.toolName ≠ current.toolName ∨
      progress.executionTarget ≠ current.executionTarget ∨
      progress.sequence ≠ current.lastProgressSequence.getD (-1) + 1 then
    current.failSequence "Progress event failed task ordering checks"
  else match current.progressPhase progress with
    | none => current.failSequence "Progress event arrived outside the expected sequence"
    | some phase =>
      { current with
        phase := phase
        summary := safeText progress.message
        lastProgressSequence := some progress.sequence }.withEvent .tool
        (progress.stage ++ lit ": " ++ progress.message)

/-- `applyResult`. -/
def applyResult [ToolResultContent γ] (current : TaskTimelineEntry γ) (toolName : Str)
    (executionTarget : ExecutionTarget) (content : γ) : TaskTimelineEntry γ :=
  if current.phase ≠ .completedUnverified ∨ some toolName ≠ current.toolName ∨
      executionTarget ≠ current.executionTarget ∨ current.acceptsContent content = false ∨
      current.result.isSome then
    current.failSequence "Tool result arrived outside the expected sequence"
  else
    { current with
      phase := .completedUnverified
      summary := safeText (ToolResultContent.summaryText content)
      result := some content }.withEvent .result (ToolResultContent.summaryText content)

/-- `applyVerification`. -/
def applyVerification (current : TaskTimelineEntry γ) (succeeded : Bool) (summary : Str)
    (checks : List Str) : TaskTimelineEntry γ :=
  if current.phase ≠ .completedUnverified ∨ current.result.isNone then
    current.failSequence "Verification arrived before a structured result"
  else
    { current with
      phase := if succeeded then .verified else .failed
      summary := safeText summary
      verificationSummary := some (safeText summary)
      verificationChecks := checks.take maxVerificationChecks }.withEvent
      (if succeeded then .verify else .error) summary

/-- `applyUnverified`. -/
def applyUnverified (current : TaskTimelineEntry γ) (summary : Str) (checks : List Str) :
    TaskTimelineEntry γ :=
  if current.phase ≠ .completedUnverified ∨ current.result.isNone then
    current.failSequence "Unverified completion arrived before a structured result"
  else
    { current with
      phase := .unverified
      summary := safeText summary
      verificationSummary := some (safeText summary)
      verificationChecks := checks.take maxVerificationChecks }.withEvent .verify summary

/-- The `when` of `apply`. -/
def applyEvent [ToolResultContent γ] (current : TaskTimelineEntry γ) :
    ExecutionEvent γ → TaskTimelineEntry γ
  | .starting attempt => current.applyStarting attempt
  | .ready => current.applyReady
  | .progress payload => current.applyProgress payload
  | .result toolName executionTarget content =>
    current.applyResult toolName executionTarget content
  | .verification succeeded summary checks => current.applyVerification succeeded summary checks
  | .unverified summary checks => current.applyUnverified summary checks
  | .error code message _ =>
    { current with phase := .failed, summary := safeText message }.withEvent .error
      (code ++ lit ": " ++ message)

end TaskTimelineEntry

/-! ### Timelines -/

/-- A timeline of entries of type `ε`: the active task and the entries, oldest first. -/
structure Timeline (ε : Type) where
  activeTaskId : Option UUID := none
  entries : List ε := []

/-- `TaskTimelineState`. -/
abbrev TaskTimelineState (γ : Type) := Timeline (TaskTimelineEntry γ)

/-- A type whose values hold an entry of the timeline. -/
class Entry (γ : outParam Type) (ε : Type) where
  entry : ε → TaskTimelineEntry γ

instance {γ : Type} : Entry γ (TaskTimelineEntry γ) := ⟨id⟩

namespace Timeline

variable {γ ε : Type} [Entry γ ε]

/-- The id of an entry. -/
def idOf (x : ε) : UUID := (Entry.entry x).id

/-- A new entry, with the oldest ones trimmed. -/
def add (s : Timeline ε) (x : ε) : Timeline ε :=
  { s with entries := takeLast maxTimelineItems (s.entries ++ [x]) }

/-- `replaceEntry`: a task that has come to its end is no longer active. -/
def replaceEntry (s : Timeline ε) (index : ℕ) (updated : ε) : Timeline ε where
  activeTaskId := if (Entry.entry updated).phase.terminal then none else s.activeTaskId
  entries := s.entries.set index updated

/-- Change the last entry of a task, where `none` leaves the timeline as it is. -/
def onLast (s : Timeline ε) (taskId : UUID) (missing : Timeline ε)
    (change : ℕ → ε → Option (Timeline ε)) : Timeline ε :=
  match indexOfLast (fun x => idOf x = taskId) s.entries with
  | none => missing
  | some index =>
    match s.entries[index]? with
    | none => missing
    | some x => (change index x).getD s

/-- The common part of the operations on the active task: another task is ignored, and a task without
an entry is no longer active. -/
def onActive (s : Timeline ε) (taskId : UUID) (change : ε → Option ε) : Timeline ε :=
  if some taskId ≠ s.activeTaskId then s
  else s.onLast taskId { s with activeTaskId := none } fun index x =>
    (change x).map (s.replaceEntry index)

/-- The entries of `mergeRestoredAudit`: a `LinkedHashMap` filled with the restored entries and then
with those of the timeline. -/
def mergedEntries (restored entries : List ε) : List ε :=
  ((restored ++ entries).foldl (fun merged x => merged.set (idOf x) x)
    (Dict.empty : Dict UUID ε)).entries.map Prod.snd

/-- The merged timeline. -/
def merge (s : Timeline ε) (restored : List ε) : Timeline ε :=
  { s with entries := takeLast maxTimelineItems (mergedEntries restored s.entries) }

end Timeline

/-! ### The operations -/

namespace TaskTimelineEntry

variable {γ : Type}

/-- What `mergeRestoredAudit` requires of an entry. -/
def isRestorable (e : TaskTimelineEntry γ) : Bool :=
  e.phase.terminal && e.result.isNone && !e.approvalGranted && e.lastProgressSequence.isNone &&
    e.lastStartAttempt.isNone && !e.executionReady && e.terminalAtEpochMillis.isSome

/-- The entry of `start`. -/
def started (taskId : UUID) (plan : GoffyExecutionPlan) : TaskTimelineEntry γ where
  id := taskId
  command := plan.command
  executionTarget := plan.executionTarget
  toolName := some plan.toolName
  phase := .routing
  summary := lit "Deterministic route selected"
  events := [⟨.observe, lit "Received typed command input"⟩,
    ⟨.plan, lit "Route " ++ plan.executionTarget.name ++ lit " to " ++ plan.toolName ++ lit " (" ++
      plan.permission.name ++ lit ")"⟩]
  permission := some plan.permission

/-- The entry of `reject`. -/
def rejected (id : UUID) (normalized summary : Str) (terminalAtEpochMillis : ℤ)
    (executionTarget : ExecutionTarget) (toolName : Option Str)
    (permission : Option PermissionLevel) : TaskTimelineEntry γ where
  id := id
  command := normalized
  executionTarget := executionTarget
  toolName := toolName
  phase := .failed
  summary := safeText summary
  events := [⟨.error, safeText summary⟩]
  permission := permission
  terminalAtEpochMillis := some terminalAtEpochMillis

/-- The entry of `startLocalModelObservation`. -/
def observing (taskId : UUID) (normalized statusSummary : Str) : TaskTimelineEntry γ where
  id := taskId
  command := normalized
  executionTarget := .phone
  toolName := none
  phase := .routing
  summary := lit "Checking local model observe-only fallback"
  events := [⟨.observe, lit "Received typed command input"⟩,
    ⟨.plan, lit "No deterministic route selected"⟩, ⟨.prepare, safeText statusSummary⟩]

/-- `nonExecutableSummary`. -/
def nonExecutableSummary : LocalModelIntentObservation → Str
  | .candidate intentLabel _ => lit "Local model suggested " ++ intentLabel ++
      lit ", but GOFFY needs a deterministic route before execution"
  | .disabled reason | .rejected reason =>
    lit "No safe deterministic route is available for this command yet. " ++ reason

/-- The events of `completeLocalModelObservation`. -/
def observationEvents : LocalModelIntentObservation → List TaskTimelineEvent
  | .candidate intentLabel displayConfidence =>
    [⟨.plan, lit "Local model suggested " ++ intentLabel ++ lit " at " ++ displayConfidence ++
      lit " confidence"⟩, ⟨.error, lit "Deterministic route still required"⟩]
  | .disabled reason | .rejected reason => [⟨.error, reason⟩]

/-- The change of `completeLocalModelObservation`. -/
def observed (current : TaskTimelineEntry γ) (observation : LocalModelIntentObservation)
    (terminalAtEpochMillis : ℤ) : TaskTimelineEntry γ :=
  { current with
    phase := .failed
    summary := safeText (nonExecutableSummary observation)
    terminalAtEpochMillis := some terminalAtEpochMillis
    events := takeLast maxTaskEvents (current.events ++ observationEvents observation) }

/-- The change of `awaitApproval`. -/
def awaitedApproval (current : TaskTimelineEntry γ) (summary : Str) : TaskTimelineEntry γ :=
  if current.phase = .routing ∧ current.permission = some .confirm ∧
      current.approvalGranted = false then
    { current with phase := .awaitingApproval, summary := safeText summary }.withEvent .authorize
      (lit "Waiting for explicit one-time approval")
  else current.failSequence "Approval request failed task ordering checks"

/-- The change of `grantApproval`. -/
def grantedApproval (current : TaskTimelineEntry γ) : TaskTimelineEntry γ :=
  if current.phase = .awaitingApproval ∧ current.permission = some .confirm ∧
      current.approvalGranted = false then
    { current with
      phase := .routing
      summary := lit "Approved once; preparing execution"
      approvalGranted := true }.withEvent .authorize (lit "User approved one execution")
  else current.failSequence "Approval grant failed task ordering checks"

/-- The change of `denyApproval`. -/
def deniedApproval (current : TaskTimelineEntry γ) (summary : Str) :
    Option (TaskTimelineEntry γ) :=
  if current.phase ≠ .awaitingApproval then none
  else some ({ current with phase := .cancelled, summary := safeText summary }.withEvent .authorize
    summary)

/-- The change of `expireApproval`. -/
def expiredApproval (current : TaskTimelineEntry γ) : Option (TaskTimelineEntry γ) :=
  if current.phase ≠ .awaitingApproval then none
  else
    let summary := lit "Approval expired; no tool was invoked"
    some ({ current with phase := .failed, summary := summary }.withEvent .error summary)

/-- The change of `cancelActive`. -/
def cancelled (current : TaskTimelineEntry γ) : TaskTimelineEntry γ :=
  { current with phase := .cancelled, summary := current.cancellationSummary }.withEvent .error
    current.cancellationEventMessage

end TaskTimelineEntry

namespace TaskTimelineState

variable {γ : Type}

open TaskTimelineEntry

/-- `command.trim().take(MAX_COMMAND_LENGTH)`. -/
def normalize (command : Str) : Str := (trim command).take maxCommandLength

def mergeRestoredAudit (s : TaskTimelineState γ) (restored : List (TaskTimelineEntry γ)) :
    Except String (TaskTimelineState γ) :=
  if restored.all isRestorable then .ok (s.merge restored)
  else .error "restored audit entries must be terminal, display-only, and authority-free"

def markAuditRecorded (s : TaskTimelineState γ) (taskId : UUID) (recordedAtEpochMillis : ℤ) :
    Except String (TaskTimelineState γ) :=
  if recordedAtEpochMillis ≤ 0 then .error "audit timestamp must be positive"
  else .ok (s.onLast taskId s fun index e =>
    if e.phase.terminal then
      let marked := { e with auditRecordedAtEpochMillis := some recordedAtEpochMillis }
      some { s with entries := s.entries.set index marked }
    else none)

def start (s : TaskTimelineState γ) (taskId : UUID) (plan : GoffyExecutionPlan) :
    Except String (TaskTimelineState γ) :=
  if s.activeTaskId ≠ none then .error "only one task may run at a time"
  else .ok ({ s with activeTaskId := some taskId }.add (started taskId plan))

def reject (s : TaskTimelineState γ) (id : UUID) (command summary : Str)
    (terminalAtEpochMillis : ℤ) (executionTarget : ExecutionTarget) (toolName : Option Str)
    (permission : Option PermissionLevel) : TaskTimelineState γ :=
  if normalize command = [] then s
  else s.add (rejected id (normalize command) summary terminalAtEpochMillis executionTarget toolName
    permission)

def startLocalModelObservation (s : TaskTimelineState γ) (taskId : UUID)
    (command statusSummary : Str) : Except String (TaskTimelineState γ) :=
  if s.activeTaskId ≠ none then .error "only one task may run at a time"
  else if normalize command = [] then .ok s
  else .ok ({ s with activeTaskId := some taskId }.add
    (observing taskId (normalize command) statusSummary))

/-- The entry is `FAILED` afterwards, so that `replaceEntry` clears the active task. -/
def completeLocalModelObservation (s : TaskTimelineState γ) (taskId : UUID)
    (observation : LocalModelIntentObservation) (terminalAtEpochMillis : ℤ) :
    TaskTimelineState γ :=
  s.onActive taskId fun current => some (current.observed observation terminalAtEpochMillis)

def apply [ToolResultContent γ] (s : TaskTimelineState γ) (taskId : UUID)
    (event : ExecutionEvent γ) (terminalAtEpochMillis : ℤ) : TaskTimelineState γ :=
  s.onActive taskId fun current =>
    some ((current.applyEvent event).withTerminalTimestamp terminalAtEpochMillis)

def awaitApproval (s : TaskTimelineState γ) (taskId : UUID) (summary : Str)
    (terminalAtEpochMillis : ℤ) : TaskTimelineState γ :=
  s.onActive taskId fun current =>
    some ((current.awaitedApproval summary).withTerminalTimestamp terminalAtEpochMillis)

def grantApproval (s : TaskTimelineState γ) (taskId : UUID) (terminalAtEpochMillis : ℤ) :
    TaskTimelineState γ :=
  s.onActive taskId fun current =>
    some (current.grantedApproval.withTerminalTimestamp terminalAtEpochMillis)

def denyApproval (s : TaskTimelineState γ) (taskId : UUID) (summary : Str)
    (terminalAtEpochMillis : ℤ) : TaskTimelineState γ :=
  s.onActive taskId fun current =>
    (current.deniedApproval summary).map (·.withTerminalTimestamp terminalAtEpochMillis)

def expireApproval (s : TaskTimelineState γ) (taskId : UUID) (terminalAtEpochMillis : ℤ) :
    TaskTimelineState γ :=
  s.onActive taskId fun current =>
    current.expiredApproval.map (·.withTerminalTimestamp terminalAtEpochMillis)

/-- The entry is `CANCELLED` afterwards, so that `replaceEntry` clears the active task. -/
def cancelActive (s : TaskTimelineState γ) (terminalAtEpochMillis : ℤ) : TaskTimelineState γ :=
  match s.activeTaskId with
  | none => s
  | some taskId => s.onActive taskId fun current =>
      some (current.cancelled.withTerminalTimestamp terminalAtEpochMillis)

end TaskTimelineState

end GoffyPhone
