import GoffyOs.Phone.TaskTimeline

/-!
# The view model's tasks (`GoffyViewModel.kt`, `GoffyUiState.kt`)

The view model runs one task at a time: a command is routed to a plan, a plan that needs a
confirmation waits for it, and an approved plan is handed to the gateway of the phone or of the Hub,
whose events come back to the timeline.

* `GoffyUiState` is the part of the UI state that tasks use, with the operations of the source;
* a plan that waits for approval is kept twice: as `pendingApproval` in the UI state, and as
  `pendingExecution` in the view model;
* what comes from outside is an argument: random ids, clock readings, the routing decision, the local
  model's status, and which of the hub link's operations happen. The coroutines of the source are
  actions of their own (`taskEvent`, `expirePendingApproval`, `completeLocalModelObservation`, …) that
  may come at any time;
* a `Call` is the start of a gateway invocation.
-/

namespace GoffyPhone

open Kotlin
open Python (UUID)

inductive MacConnectionState
  | disconnected
  | connecting
  | connected
  deriving DecidableEq

structure PendingApproval where
  taskId : UUID
  toolName : Str
  description : Str
  expiresAtEpochMillis : ℤ
  durationSeconds : ℤ

/-- `GoffyUiState`, as far as tasks use it. -/
structure GoffyUiState (γ : Type) where
  macConnection : MacConnectionState := .disconnected
  executionTarget : ExecutionTarget := .phone
  timeline : TaskTimelineState γ := {}
  pendingApproval : Option PendingApproval := none

namespace GoffyUiState

variable {γ : Type}

def isBusy (s : GoffyUiState γ) : Bool := s.timeline.activeTaskId.isSome

def startTask (s : GoffyUiState γ) (taskId : UUID) (plan : GoffyExecutionPlan) :
    Except String (GoffyUiState γ) := do
  let timeline ← s.timeline.start taskId plan
  return { s with executionTarget := plan.executionTarget, timeline := timeline }

def awaitApproval (s : GoffyUiState γ) (approval : PendingApproval) (now : ℤ) : GoffyUiState γ :=
  if some approval.taskId ≠ s.timeline.activeTaskId ∨ s.pendingApproval.isSome then s
  else
    { s with
      timeline := s.timeline.awaitApproval approval.taskId approval.description now
      pendingApproval := some approval }

/-- The approval that is shown is that of this task. -/
def isPending (s : GoffyUiState γ) (taskId : UUID) : Bool :=
  s.pendingApproval.map (·.taskId) = some taskId

def grantApproval (s : GoffyUiState γ) (taskId : UUID) (now : ℤ) : GoffyUiState γ :=
  if s.isPending taskId then
    { s with timeline := s.timeline.grantApproval taskId now, pendingApproval := none }
  else s

def denyApproval (s : GoffyUiState γ) (taskId : UUID) (summary : Str) (now : ℤ) :
    GoffyUiState γ :=
  if s.isPending taskId then
    { s with timeline := s.timeline.denyApproval taskId summary now, pendingApproval := none }
  else s

def expireApproval (s : GoffyUiState γ) (taskId : UUID) (now : ℤ) : GoffyUiState γ :=
  if s.isPending taskId then
    { s with timeline := s.timeline.expireApproval taskId now, pendingApproval := none }
  else s

/-- `entries.lastOrNull { it.id == taskId }?.executionTarget == ExecutionTarget.MAC`. -/
def isMacTask (s : GoffyUiState γ) (taskId : UUID) : Bool :=
  (s.timeline.entries.reverse.find? (·.id = taskId)).any (·.executionTarget = .mac)

/-- The connection after an event of a Mac task. -/
def connectionAfter (s : GoffyUiState γ) : ExecutionEvent γ → MacConnectionState
  | .starting _ => .connecting
  | .ready => .connected
  | .progress _ | .result _ _ _ => s.macConnection
  | .error _ _ _ | .unverified _ _ | .verification _ _ _ => .disconnected

def applyTaskEvent [ToolResultContent γ] (s : GoffyUiState γ) (taskId : UUID)
    (event : ExecutionEvent γ) (now : ℤ) : GoffyUiState γ :=
  if some taskId ≠ s.timeline.activeTaskId then s
  else
    let nextTimeline := s.timeline.apply taskId event now
    { s with
      macConnection :=
        if !s.isMacTask taskId then s.macConnection
        else if nextTimeline.activeTaskId ≠ some taskId then .disconnected
        else s.connectionAfter event
      timeline := nextTimeline
      pendingApproval :=
        if nextTimeline.activeTaskId = some taskId then s.pendingApproval else none }

def rejectCommand (s : GoffyUiState γ) (id : UUID) (command summary : Str) (now : ℤ) :
    GoffyUiState γ :=
  { s with timeline := s.timeline.reject id command summary now .phone none none }

def rejectPlan (s : GoffyUiState γ) (id : UUID) (plan : GoffyExecutionPlan) (summary : Str)
    (now : ℤ) : GoffyUiState γ :=
  { s with
    executionTarget := plan.executionTarget
    timeline := s.timeline.reject id plan.command summary now plan.executionTarget
      (some plan.toolName) (some plan.permission) }

def auditLoaded (s : GoffyUiState γ) (restored : List (TaskTimelineEntry γ)) :
    Except String (GoffyUiState γ) := do
  let timeline ← s.timeline.mergeRestoredAudit restored
  return { s with timeline := timeline }

def auditRecorded (s : GoffyUiState γ) (taskId : UUID) (recordedAtEpochMillis : ℤ) :
    Except String (GoffyUiState γ) := do
  let timeline ← s.timeline.markAuditRecorded taskId recordedAtEpochMillis
  return { s with timeline := timeline }

def cancelActiveTask (s : GoffyUiState γ) (now : ℤ) : GoffyUiState γ :=
  { s with
    macConnection :=
      if s.timeline.activeTaskId.any s.isMacTask then .disconnected else s.macConnection
    timeline := s.timeline.cancelActive now
    pendingApproval := none }

/-- The task part of `hubForgetStarted`, `hubRotationStarted`, `forgetHub` and
`hubForgetVerificationFailed`. -/
def hubTasksCancelled (s : GoffyUiState γ) (now : ℤ) : GoffyUiState γ :=
  { s with
    macConnection := .disconnected
    timeline := s.timeline.cancelActive now
    pendingApproval := none }

/-- The task part of `hubRotationSucceeded` and `hubRotationFailed`. -/
def hubRotationEnded (s : GoffyUiState γ) : GoffyUiState γ :=
  { s with macConnection := .disconnected, pendingApproval := none }

end GoffyUiState

/-! ### The view model -/

structure HubConfig where
  endpoint : Str
  bearerToken : Str
  deriving DecidableEq

structure PendingExecution where
  taskId : UUID
  plan : GoffyExecutionPlan
  expiresAtEpochMillis : ℤ
  hubConfig : Option HubConfig

/-- `PhoneToolAuthorization`. -/
inductive PhoneToolAuthorization
  | safe
  | approved (taskId : UUID) (toolName : Str) (arguments : ToolArguments)
      (expiresAtEpochMillis : ℤ)
  deriving DecidableEq

/-- The start of a gateway invocation. -/
inductive Call
  | phone (taskId : UUID) (plan : GoffyExecutionPlan) (authorization : PhoneToolAuthorization)
  | hub (taskId : UUID) (config : HubConfig) (request : ToolInvocationRequest)
  deriving DecidableEq

/-- The task whose events the call delivers. -/
def Call.taskId : Call → UUID
  | .phone taskId _ _ | .hub taskId _ _ => taskId

/-- `RoutingDecision`. -/
inductive RoutingDecision
  | routed (plan : GoffyExecutionPlan)
  | unsupported (localModelObservation : Option LocalModelIntentObservation)

/-- What is known of the local model when a command is submitted. -/
structure LocalModelRuntime where
  provided : Bool
  observationExecutionAvailable : Bool
  ready : Bool
  summary : Str

/-- `GoffyViewModel`, as far as tasks use it. -/
structure GoffyViewModel (γ : Type) where
  deviceId : Str
  uiState : GoffyUiState γ := {}
  pendingExecution : Option PendingExecution := none
  hubConfig : Option HubConfig := none
  pairedCredentialId : Option UUID := none

/-- What a command is submitted with: random ids, the clock when the command is looked at and when
its approval is shown, the routing decision and the local model. -/
structure Submission where
  command : Str
  decision : RoutingDecision
  localModel : LocalModelRuntime
  rejectId : UUID
  taskId : UUID
  messageId : UUID
  discoveryMessageId : UUID
  now : ℤ
  awaitedAt : ℤ

def approvalTtlMillis : ℤ := 60000
def approvalPreviewLength : ℕ := 160

/-- `Int.displayDuration`. -/
def displayDuration (seconds : Int32) : Str :=
  let counted (n : Int32) (one : String) : Str :=
    ofInt32 n ++ lit (if n = 1 then " " ++ one else " " ++ one ++ "s")
  if seconds % 3600 = 0 then counted (seconds / 3600) "hour"
  else if seconds % 60 = 0 then counted (seconds / 60) "minute"
  else counted seconds "second"

/-- `GoffyExecutionPlan.approvalDescription`. -/
def approvalDescription (plan : GoffyExecutionPlan) : Option Str :=
  if plan.toolName = lit "phone.memory.forget_all" then
    some (lit "Approve deleting all local GOFFY memories from this phone.")
  else match plan.arguments with
    | .phoneMemoryForget memoryId =>
      some (lit "Approve deleting local GOFFY memory #" ++ ofInt64 memoryId ++
        lit " from this phone.")
    | .phoneMemoryRemember text =>
      some (lit "Approve remembering this locally: " ++ text.take approvalPreviewLength)
    | .phoneMemoryUpdate memoryId text =>
      some (lit "Approve updating local GOFFY memory #" ++ ofInt64 memoryId ++ lit " to: " ++
        text.take approvalPreviewLength)
    | .phoneNoteCreate text =>
      some (lit "Approve creating this private note: " ++ text.take approvalPreviewLength)
    | .phoneTimerCreate durationSeconds _ =>
      some (lit "Approve requesting a " ++ displayDuration durationSeconds ++
        lit " system Clock timer. GOFFY will request no second Clock confirmation screen.")
    | .phoneFlashlightSet enabled =>
      some (lit "Approve turning " ++ lit (if enabled then "on" else "off") ++
        lit " the back-camera flashlight. GOFFY will not open the camera or capture images.")
    | .macAppsOpen displayName =>
      some (lit "Approve opening " ++ displayName.take approvalPreviewLength ++
        lit " on your Mac. GOFFY will use only an approved bundle identifier and will not open files.")
    | _ => none

/-- `unsupportedSummary`. -/
def unsupportedSummary (observation : Option LocalModelIntentObservation) : Str :=
  match observation with
  | none => lit "No safe deterministic route is available for this command yet"
  | some observation => TaskTimelineEntry.nonExecutableSummary observation

namespace GoffyViewModel

variable {γ : Type}

/-- A step of the view model: it, and the gateway invocations that were started. -/
abbrev Next (γ : Type) := GoffyViewModel γ × List Call

/-- Assign `mutableUiState.value`. -/
def setUi (vm : GoffyViewModel γ) (uiState : GoffyUiState γ) : GoffyViewModel γ :=
  { vm with uiState := uiState }

/-- `rejectPlan` with the ids and the clock of a submission. -/
def rejectPlan (vm : GoffyViewModel γ) (x : Submission) (plan : GoffyExecutionPlan)
    (summary : String) : GoffyViewModel γ :=
  vm.setUi (vm.uiState.rejectPlan x.rejectId plan (lit summary) x.now)

/-- `executeTask`, where the events of the call come later. -/
def executeTask (vm : GoffyViewModel γ) (taskId : UUID) (plan : GoffyExecutionPlan)
    (calls : List Call) : Except String (Next γ) := do
  let uiState ← vm.uiState.startTask taskId plan
  return (vm.setUi uiState, calls)

def requestApproval (vm : GoffyViewModel γ) (x : Submission) (plan : GoffyExecutionPlan)
    (hubConfig : Option HubConfig) : Except String (Next γ) :=
  match approvalDescription plan with
  | none => .ok (vm.rejectPlan x plan "The confirmation request did not match a typed tool", [])
  | some description => do
    let expiresAt := x.now + approvalTtlMillis
    let approval : PendingApproval := {
      taskId := x.taskId
      toolName := plan.toolName
      description := description
      expiresAtEpochMillis := expiresAt
      durationSeconds := (approvalTtlMillis + 999) / 1000 }
    let uiState ← vm.uiState.startTask x.taskId plan
    let pending : PendingExecution := ⟨x.taskId, plan, expiresAt, hubConfig⟩
    return ({ vm with
      uiState := uiState.awaitApproval approval x.awaitedAt
      pendingExecution := some pending }, [])

def submitPhonePlan (vm : GoffyViewModel γ) (x : Submission) (plan : GoffyExecutionPlan) :
    Except String (Next γ) :=
  match plan.permission with
  | .safe => vm.executeTask x.taskId plan [.phone x.taskId plan .safe]
  | .confirm => vm.requestApproval x plan none
  | .sensitive | .blocked =>
    .ok (vm.rejectPlan x plan "This phone action is blocked in the current security policy", [])

/-- The `MAC` branch of `submitCommand`. -/
def submitMacPlan (codec : ArgumentsCodec) (vm : GoffyViewModel γ) (x : Submission)
    (plan : GoffyExecutionPlan) : Except String (Next γ) :=
  match vm.hubConfig with
  | none =>
    .ok (vm.rejectPlan x plan "Configure a secure GOFFY Hub link before running a Mac task", [])
  | some config =>
    match plan.permission with
    | .safe => do
      let request ← createToolInvocation codec x.messageId x.discoveryMessageId vm.deviceId
        plan.toolName plan.arguments none
      vm.executeTask request.messageId plan [.hub request.messageId config request]
    | .confirm => vm.requestApproval x plan (some config)
    | .sensitive | .blocked =>
      .ok (vm.rejectPlan x plan "This Mac action is blocked in the current security policy", [])

/-- `startLocalModelObservationIfAvailable`: the task that was started, or what the rejection says if
it is not the usual text. -/
def startLocalModelObservationIfAvailable (vm : GoffyViewModel γ) (x : Submission)
    (observation : Option LocalModelIntentObservation) :
    Except String (GoffyViewModel γ ⊕ Option Str) :=
  if !x.localModel.provided then .ok (.inr none)
  else if !x.localModel.observationExecutionAvailable then .ok (.inr none)
  else if let some (.rejected _) := observation then .ok (.inr none)
  else if !x.localModel.ready then
    .ok (.inr (some (lit "No safe deterministic route is available for this command yet. " ++
      lit "Local model observation is unavailable: " ++ x.localModel.summary)))
  else do
    let timeline ← vm.uiState.timeline.startLocalModelObservation x.taskId x.command
      x.localModel.summary
    let uiState := { vm.uiState with executionTarget := .phone, timeline := timeline }
    return .inl (vm.setUi uiState)

def submitCommand (codec : ArgumentsCodec) (vm : GoffyViewModel γ) (x : Submission) :
    Except String (Next γ) :=
  if vm.uiState.isBusy then
    .ok (vm.setUi (vm.uiState.rejectCommand x.rejectId x.command
      (lit "Another task is already running; cancel it before submitting a new command") x.now), [])
  else match x.decision with
    | .unsupported observation => do
      match ← vm.startLocalModelObservationIfAvailable x observation with
      | .inl started => return (started, [])
      | .inr rejectionSummary =>
        return (vm.setUi (vm.uiState.rejectCommand x.rejectId x.command
          (rejectionSummary.getD (unsupportedSummary observation)) x.now), [])
    | .routed plan =>
      match plan.executionTarget with
      | .phone => vm.submitPhonePlan x plan
      | .mac => vm.submitMacPlan codec x plan
      | .cloud =>
        .ok (vm.rejectPlan x plan "Cloud execution is not available in this build", [])

/-! #### Foreground reads -/

/-- What the foreground reads of a QR code and of text differ in. -/
structure ForegroundRead where
  command : Str
  toolName : Str
  busy : Str
  blank : Str

/-- The read of `recordForegroundQrScan`. -/
def qrScan : ForegroundRead where
  command := lit "Read foreground QR code"
  toolName := lit "phone.qr.read"
  busy := lit "Another task is already running; cancel it before scanning a QR code"
  blank := lit "QR scanner returned an empty payload"

/-- The read of `recordForegroundOcrRead`. -/
def ocrRead : ForegroundRead where
  command := lit "Read foreground text"
  toolName := lit "phone.ocr.read"
  busy := lit "Another task is already running; cancel it before reading text"
  blank := lit "OCR scanner returned no readable text"

/-- `qrReadPlan` and `ocrReadPlan`. -/
def ForegroundRead.plan (r : ForegroundRead) : GoffyExecutionPlan where
  command := r.command
  executionTarget := .phone
  toolName := r.toolName
  permission := .safe

/-- `recordForegroundQrScan` and `recordForegroundOcrRead`: the events come from the view model
itself, and no gateway is called. -/
def recordForeground (vm : GoffyViewModel γ) (r : ForegroundRead) (raw : Str)
    (rejectId taskId : UUID) (now : ℤ) : Except String (Next γ) :=
  if vm.uiState.isBusy then
    .ok (vm.setUi (vm.uiState.rejectCommand rejectId r.command r.busy now), [])
  else if isBlank raw then
    .ok (vm.setUi (vm.uiState.rejectCommand rejectId r.command r.blank now), [])
  else vm.executeTask taskId r.plan []

/-- `recordForegroundQrScanUnavailable` and `recordForegroundOcrReadUnavailable`. -/
def recordForegroundUnavailable (vm : GoffyViewModel γ) (r : ForegroundRead) (summary : Str)
    (rejectId : UUID) (now : ℤ) : GoffyViewModel γ :=
  if vm.uiState.isBusy then vm.setUi (vm.uiState.rejectCommand rejectId r.command r.busy now)
  else vm.setUi (vm.uiState.rejectPlan rejectId r.plan summary now)

/-! #### Approvals -/

/-- `expirePendingApproval`. -/
def expirePendingApproval (vm : GoffyViewModel γ) (taskId : UUID) (now : ℤ) : GoffyViewModel γ :=
  match vm.pendingExecution with
  | none => vm
  | some pending =>
    if pending.taskId ≠ taskId then vm
    else { vm with pendingExecution := none, uiState := vm.uiState.expireApproval taskId now }

/-- What an approval reads from outside: the clock, up to three times, and the ids of the request. -/
structure ApprovalInput where
  now : ℤ
  approvedAt : ℤ
  failedAt : ℤ
  messageId : UUID
  discoveryMessageId : UUID

/-- An error that `approvePendingTask` reports by itself. -/
def failApproved [ToolResultContent γ] (vm : GoffyViewModel γ) (taskId : UUID) (now : ℤ)
    (code message : String) : GoffyViewModel γ :=
  vm.setUi (vm.uiState.applyTaskEvent taskId (.error (lit code) (lit message) false) now)

/-- The `when` of `approvePendingTask`. A request that cannot be made is an exception, which leaves
the view model as it is then. -/
def startApproved [ToolResultContent γ] (codec : ArgumentsCodec) (vm : GoffyViewModel γ)
    (pending : PendingExecution) (x : ApprovalInput) : Next γ :=
  match pending.plan.executionTarget with
  | .phone =>
    (vm, [.phone pending.taskId pending.plan (.approved pending.taskId pending.plan.toolName
      pending.plan.arguments pending.expiresAtEpochMillis)])
  | .mac =>
    match pending.hubConfig with
    | none => (vm.failApproved pending.taskId x.failedAt "hub_link_missing"
        "Mac approval could not be bound to a Hub link", [])
    | some config =>
      match vm.pairedCredentialId with
      | none => (vm.failApproved pending.taskId x.failedAt "approval_proof_required"
          "Mac approvals require a paired phone approval key", [])
      | some credentialId =>
        let grant : ToolApprovalGrant :=
          ⟨pending.taskId, credentialId, x.approvedAt, pending.expiresAtEpochMillis⟩
        match createToolInvocation codec x.messageId x.discoveryMessageId vm.deviceId
            pending.plan.toolName pending.plan.arguments (some grant) with
        | .error _ => (vm, [])
        | .ok request => (vm, [.hub pending.taskId config request])
  | .cloud => (vm.failApproved pending.taskId x.failedAt "cloud_unavailable"
      "Cloud execution is not available in this build", [])

/-- `approvePendingTask`. -/
def approvePendingTask [ToolResultContent γ] (codec : ArgumentsCodec) (vm : GoffyViewModel γ)
    (taskId : UUID) (x : ApprovalInput) : Next γ :=
  match vm.pendingExecution with
  | none => (vm, [])
  | some pending =>
    if pending.taskId ≠ taskId then (vm, [])
    else if pending.expiresAtEpochMillis ≤ x.now then
      (vm.expirePendingApproval taskId x.approvedAt, [])
    else
      let granted := { vm with
        pendingExecution := none
        uiState := vm.uiState.grantApproval taskId x.approvedAt }
      granted.startApproved codec pending x

/-- `denyPendingTask`. -/
def denyPendingTask (vm : GoffyViewModel γ) (taskId : UUID) (now : ℤ) : GoffyViewModel γ :=
  match vm.pendingExecution with
  | none => vm
  | some pending =>
    if pending.taskId ≠ taskId then vm
    else { vm with
      pendingExecution := none
      uiState := vm.uiState.denyApproval taskId (lit "Approval denied; no tool was invoked") now }

/-- `cancelActiveTask`. -/
def cancelActiveTask (vm : GoffyViewModel γ) (now : ℤ) : GoffyViewModel γ :=
  match vm.pendingExecution with
  | some pending =>
    { vm with
      pendingExecution := none
      uiState := vm.uiState.denyApproval pending.taskId
        (lit "Approval cancelled; no tool was invoked") now }
  | none => vm.setUi (vm.uiState.cancelActiveTask now)

/-! #### The rest of a task -/

/-- What `collectTask` adds when the events of a task end before the task does. -/
def executionStopped [ToolResultContent γ] (vm : GoffyViewModel γ) (taskId : UUID) (now : ℤ) :
    GoffyViewModel γ :=
  if vm.uiState.timeline.activeTaskId = some taskId then
    vm.failApproved taskId now "execution_stopped" "Execution stopped before verification"
  else vm

/-- What `collectTask` adds when collecting the events fails. -/
def clientFailure [ToolResultContent γ] (vm : GoffyViewModel γ) (taskId : UUID) (now : ℤ) :
    GoffyViewModel γ :=
  vm.failApproved taskId now "client_failure"
    "The Android execution client stopped before verification"

/-- The end of the coroutine of `startLocalModelObservationIfAvailable`. -/
def completeLocalModelObservation (vm : GoffyViewModel γ) (taskId : UUID)
    (observation : LocalModelIntentObservation) (now : ℤ) : GoffyViewModel γ :=
  vm.setUi { vm.uiState with
    timeline := vm.uiState.timeline.completeLocalModelObservation taskId observation now }

/-- The start of `forgetHub`. -/
def forgetHub (vm : GoffyViewModel γ) (now startedAt : ℤ) : GoffyViewModel γ :=
  let cancelled := vm.cancelActiveTask now
  { cancelled with
    hubConfig := none
    pairedCredentialId := none
    uiState := cancelled.uiState.hubTasksCancelled startedAt }

/-- The end of the coroutine of `forgetHub`. -/
def hubForgotten (vm : GoffyViewModel γ) (now : ℤ) : GoffyViewModel γ :=
  vm.setUi (vm.uiState.hubTasksCancelled now)

/-- The start of `rotateHubCredential`. -/
def rotateHubCredential (vm : GoffyViewModel γ) (now startedAt : ℤ) : GoffyViewModel γ :=
  let cancelled := vm.cancelActiveTask now
  cancelled.setUi (cancelled.uiState.hubTasksCancelled startedAt)

/-- The end of the coroutine of `rotateHubCredential`, with the new link or without one. -/
def hubRotationEnded (vm : GoffyViewModel γ) (link : Option (HubConfig × UUID)) :
    GoffyViewModel γ :=
  { vm with
    hubConfig := link.map Prod.fst
    pairedCredentialId := link.map Prod.snd
    uiState := vm.uiState.hubRotationEnded }

end GoffyViewModel

/-! ### Actions -/

/-- What can happen to the view model's tasks. -/
inductive Action (γ : Type)
  | submitCommand (x : Submission)
  | recordForeground (r : GoffyViewModel.ForegroundRead) (raw : Str) (rejectId taskId : UUID)
      (now : ℤ)
  | recordForegroundUnavailable (r : GoffyViewModel.ForegroundRead) (summary : Str)
      (rejectId : UUID) (now : ℤ)
  | approvePendingTask (taskId : UUID) (x : GoffyViewModel.ApprovalInput)
  | denyPendingTask (taskId : UUID) (now : ℤ)
  | expirePendingApproval (taskId : UUID) (now : ℤ)
  | cancelActiveTask (now : ℤ)
  | taskEvent (taskId : UUID) (event : ExecutionEvent γ) (now : ℤ)
  | executionStopped (taskId : UUID) (now : ℤ)
  | clientFailure (taskId : UUID) (now : ℤ)
  | completeLocalModelObservation (taskId : UUID) (observation : LocalModelIntentObservation)
      (now : ℤ)
  | auditLoaded (restored : List (TaskTimelineEntry γ))
  | auditRecorded (taskId : UUID) (recordedAtEpochMillis : ℤ)
  | linkHub (config : Option HubConfig) (credentialId : Option UUID)
  | forgetHub (now startedAt : ℤ)
  | hubForgotten (now : ℤ)
  | rotateHubCredential (now startedAt : ℤ)
  | hubRotationEnded (link : Option (HubConfig × UUID))

/-- The view model after an action; `none` when an exception escapes. What fails with the audit store
is caught, and leaves the timeline as it is. -/
def GoffyViewModel.step {γ : Type} [ToolResultContent γ] (codec : ArgumentsCodec)
    (vm : GoffyViewModel γ) : Action γ → Option (GoffyViewModel γ × List Call)
  | .submitCommand x => (vm.submitCommand codec x).toOption
  | .recordForeground r raw rejectId taskId now =>
    (vm.recordForeground r raw rejectId taskId now).toOption
  | .recordForegroundUnavailable r summary rejectId now =>
    some (vm.recordForegroundUnavailable r summary rejectId now, [])
  | .approvePendingTask taskId x => some (vm.approvePendingTask codec taskId x)
  | .denyPendingTask taskId now => some (vm.denyPendingTask taskId now, [])
  | .expirePendingApproval taskId now => some (vm.expirePendingApproval taskId now, [])
  | .cancelActiveTask now => some (vm.cancelActiveTask now, [])
  | .taskEvent taskId event now =>
    some (vm.setUi (vm.uiState.applyTaskEvent taskId event now), [])
  | .executionStopped taskId now => some (vm.executionStopped taskId now, [])
  | .clientFailure taskId now => some (vm.clientFailure taskId now, [])
  | .completeLocalModelObservation taskId observation now =>
    some (vm.completeLocalModelObservation taskId observation now, [])
  | .auditLoaded restored =>
    some (vm.setUi ((vm.uiState.auditLoaded restored).toOption.getD vm.uiState), [])
  | .auditRecorded taskId recordedAtEpochMillis =>
    some (vm.setUi ((vm.uiState.auditRecorded taskId recordedAtEpochMillis).toOption.getD
      vm.uiState), [])
  | .linkHub config credentialId =>
    some ({ vm with hubConfig := config, pairedCredentialId := credentialId }, [])
  | .forgetHub now startedAt => some (vm.forgetHub now startedAt, [])
  | .hubForgotten now => some (vm.hubForgotten now, [])
  | .rotateHubCredential now startedAt => some (vm.rotateHubCredential now startedAt, [])
  | .hubRotationEnded link => some (vm.hubRotationEnded link, [])

end GoffyPhone
