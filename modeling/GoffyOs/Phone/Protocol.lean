import GoffyOs.Kotlin.Text
import GoffyOs.Python.Uuid

/-!
# The phone's side of the protocol (`protocol/GoffyProtocol.kt`)

The data that plans, tools and gateways exchange, and the requests that `GoffyProtocolCodec` makes
of it.

* Results are generic: `ToolResultContent` is what the timeline asks of a result;
* messages are taken before they are encoded. What the codec makes of the arguments of a call, the
  SHA-256 of their canonical JSON or a `ProtocolException`, is a parameter (`ArgumentsCodec`);
* times are milliseconds since the epoch, and random ids are arguments.
-/

namespace GoffyPhone

open Kotlin
open Python (UUID)

inductive ExecutionTarget
  | phone
  | mac
  | cloud
  deriving DecidableEq

def ExecutionTarget.name : ExecutionTarget → Str
  | .phone => lit "PHONE"
  | .mac => lit "MAC"
  | .cloud => lit "CLOUD"

inductive PermissionLevel
  | safe
  | confirm
  | sensitive
  | blocked
  deriving DecidableEq

def PermissionLevel.name : PermissionLevel → Str
  | .safe => lit "SAFE"
  | .confirm => lit "CONFIRM"
  | .sensitive => lit "SENSITIVE"
  | .blocked => lit "BLOCKED"

/-! ### Results and events -/

/-- The data classes of tool results. -/
inductive ContentType
  | goffyRomChecklist
  | goffyRomFeatures
  | goffyRomStatus
  | gitStatus
  | macAppsList
  | macAppOpened
  | macClipboardRead
  | macFilesLargest
  | macFilesList
  | macProcessesList
  | macSystemInfo
  | phoneBatteryStatus
  | phoneDeviceInfo
  | phoneFlashlightState
  | phoneMemoryDeleted
  | phoneMemoryForgotten
  | phoneMemoryList
  | phoneMemoryRemembered
  | phoneMemoryUpdated
  | phoneNoteCreated
  | phoneOcrRead
  | phoneQrRead
  | phoneTimerDispatched
  deriving DecidableEq

/-- What the timeline asks of a result: its data class, whether it meets its contract, and its
summary. -/
class ToolResultContent (γ : Type) where
  type : γ → ContentType
  matchesToolContract : γ → Bool
  summaryText : γ → Str

/-- A result of which only the data class is looked at. -/
instance : ToolResultContent ContentType where
  type content := content
  matchesToolContract _ := true
  summaryText _ := lit "done"

/-- `ToolProgress`. -/
structure ToolProgress where
  toolName : Str
  executionTarget : ExecutionTarget
  stage : Str
  sequence : Int32
  message : Str
  deriving DecidableEq

/-- `ExecutionEvent`. -/
inductive ExecutionEvent (γ : Type)
  | starting (attempt : Int32)
  | ready
  | progress (payload : ToolProgress)
  | result (toolName : Str) (executionTarget : ExecutionTarget) (content : γ)
  | verification (succeeded : Bool) (summary : Str) (checks : List Str)
  | unverified (summary : Str) (checks : List Str)
  | error (code message : Str) (retryable : Bool)

/-! ### Plans -/

/-- `ToolArguments`. -/
inductive ToolArguments
  | noToolArguments
  | macProcessesList (maxEntries : Int32)
  | macAppsList (maxEntries : Int32)
  | macAppsOpen (displayName : Str)
  | macFilesList (rootIndex : Int32) (relativePath : Str) (maxEntries : Int32)
      (includeHidden : Bool)
  | macFilesLargest (rootIndex : Int32) (relativePath : Str) (maxEntries maxDepth : Int32)
      (includeHidden : Bool)
  | gitStatus (repoIndex maxChanges : Int32) (includeUntracked : Bool)
  | phoneNoteCreate (text : Str)
  | phoneMemoryRemember (text : Str)
  | phoneMemoryForget (memoryId : Int64)
  | phoneMemoryUpdate (memoryId : Int64) (text : Str)
  | phoneTimerCreate (durationSeconds : Int32) (skipClockUi : Bool)
  | phoneFlashlightSet (enabled : Bool)
  deriving DecidableEq

/-- `GoffyExecutionPlan`, without its success criteria, which nothing reads. -/
structure GoffyExecutionPlan where
  command : Str
  executionTarget : ExecutionTarget
  toolName : Str
  permission : PermissionLevel
  arguments : ToolArguments := .noToolArguments
  deriving DecidableEq

/-! ### Invocations -/

/-- What the codec makes of the arguments of a call: `sha256Hex(canonicalJson(…))` of what
`encodeToolArguments` returns, or the message of its `ProtocolException`. -/
abbrev ArgumentsCodec := Str → ToolArguments → Except String Str

/-- `ToolApprovalGrant`. -/
structure ToolApprovalGrant where
  taskId : UUID
  credentialId : UUID
  issuedAtEpochMillis : ℤ
  expiresAtEpochMillis : ℤ
  deriving DecidableEq

/-- `ToolInvocationRequest`, without its encoded messages. -/
structure ToolInvocationRequest where
  messageId : UUID
  toolName : Str
  discoveryMessageId : UUID
  expiresAtEpochMillis : Option ℤ
  deviceId : Str
  approvedTaskId : Option UUID
  approvedCredentialId : Option UUID
  approvedArgumentsSha256 : Option Str
  deriving DecidableEq

/-- `requireBounded`. -/
def requireBounded (field : String) (value : Str) (minimum maximum : ℕ) : Except String Unit :=
  if minimum ≤ value.length ∧ value.length ≤ maximum then .ok ()
  else .error (field ++ " is outside the supported length")

/-- `TOOL_NAME`: `^[a-z][a-z0-9_.]*$`. -/
def matchesToolName (value : Str) : Bool :=
  let lower (c : UInt16) : Bool := 0x61 ≤ c && c ≤ 0x7a
  let other (c : UInt16) : Bool := (0x30 ≤ c && c ≤ 0x39) || c == 0x5f || c == 0x2e
  match value with
  | [] => false
  | c :: cs => lower c && cs.all fun c => lower c || other c

/-- `requireToolName`. -/
def requireToolName (value : Str) : Except String Unit := do
  requireBounded "toolName" value 1 128
  if matchesToolName value then return () else throw "toolName has an invalid format"

/-- `requireApprovalGrant`. -/
def requireApprovalGrant (grant : ToolApprovalGrant) : Except String Unit :=
  if grant.expiresAtEpochMillis ≤ grant.issuedAtEpochMillis then
    .error "approval grant must expire after it is issued"
  else .ok ()

/-- The check of an invocation's deadline. -/
def requireDeadline (deadline : Option ℤ) : Except String Unit :=
  if deadline.any (· ≤ 0) then .error "invocation deadline must be positive" else .ok ()

/-- The check of the two random ids. -/
def requireDistinctIds (messageId discoveryMessageId : UUID) : Except String Unit :=
  if discoveryMessageId = messageId then .error "discovery and invocation IDs must be unique"
  else .ok ()

/-- `createToolInvocation`, where an error is the message of a `ProtocolException`. No caller passes
a deadline other than that of a grant. -/
def createToolInvocation (codec : ArgumentsCodec) (messageId discoveryMessageId : UUID)
    (deviceId toolName : Str) (arguments : ToolArguments) (grant : Option ToolApprovalGrant) :
    Except String ToolInvocationRequest := do
  requireBounded "deviceId" deviceId 1 128
  requireToolName toolName
  let deadline := grant.map (·.expiresAtEpochMillis)
  requireDeadline deadline
  let argumentsSha256 ← codec toolName arguments
  grant.forM requireApprovalGrant
  requireDistinctIds messageId discoveryMessageId
  return {
    messageId := messageId
    toolName := toolName
    discoveryMessageId := discoveryMessageId
    expiresAtEpochMillis := deadline
    deviceId := deviceId
    approvedTaskId := grant.map (·.taskId)
    approvedCredentialId := grant.map (·.credentialId)
    approvedArgumentsSha256 := grant.map fun _ => argumentsSha256 }

/-! ### Approvals of the Hub -/

/-- `HubApprovalRequest`: the payload of an `ApprovalRequest`. -/
structure HubApprovalRequest where
  approvalId : UUID
  taskId : UUID
  toolName : Str
  argumentsSha256 : Str
  issuedAtEpochMillis : ℤ
  expiresAtEpochMillis : ℤ
  deriving DecidableEq

/-- `ApprovalResponseProof`. -/
structure ApprovalResponseProof where
  algorithm : Str
  publicKeySha256 : Str
  signatureBase64 : Str
  deriving DecidableEq

/-- What `approvalSigningPayload` encodes; the phone signs only approvals. -/
structure ApprovalSigningPayload where
  request : HubApprovalRequest
  credentialId : UUID
  approved : Bool := true
  deriving DecidableEq

/-- What `createApprovalResponse` encodes. -/
structure ApprovalResponse where
  deviceId : Str
  correlationId : UUID
  approvalId : UUID
  taskId : UUID
  approved : Bool
  proof : ApprovalResponseProof
  deriving DecidableEq

/-- `SHA256_HEX`: `^[a-f0-9]{64}$`. -/
def matchesSha256Hex (value : Str) : Bool :=
  value.length = 64 && value.all fun c => (0x61 ≤ c && c ≤ 0x66) || (0x30 ≤ c && c ≤ 0x39)

/-- `BASE64`: `^[A-Za-z0-9+/]+={0,2}$`. -/
def matchesBase64 (value : Str) : Bool :=
  let body := (value.reverse.dropWhile (· == 0x3d)).reverse
  value.length - body.length ≤ 2 && !body.isEmpty && body.all fun c =>
    (0x41 ≤ c && c ≤ 0x5a) || (0x61 ≤ c && c ≤ 0x7a) || (0x30 ≤ c && c ≤ 0x39) || c == 0x2b ||
      c == 0x2f

/-- `requireExpectedTool`. -/
def requireExpectedTool (actual expected : Str) : Except String Unit := do
  requireToolName actual
  if actual = expected then return () else throw "event tool does not match the invocation"

/-- The checks of `decodeApprovalRequestOrNull` on the payload. -/
def requireApprovalRequest (payload : HubApprovalRequest) (toolName : Str) (taskId : UUID)
    (argumentsSha256 : Str) : Except String HubApprovalRequest :=
  if payload.taskId ≠ taskId then
    .error "approval request task does not match the approved task"
  else do
    requireExpectedTool payload.toolName toolName
    if !matchesSha256Hex payload.argumentsSha256 then
      throw "approval request argument hash is invalid"
    else if payload.argumentsSha256 ≠ argumentsSha256 then
      throw "approval request arguments do not match the approved task"
    else if payload.expiresAtEpochMillis ≤ 0 then throw "approval request expiry is invalid"
    else if payload.expiresAtEpochMillis ≤ payload.issuedAtEpochMillis then
      throw "approval request expiry is invalid"
    else return payload

/-- `requireApprovalResponseProof`. -/
def requireApprovalResponseProof (proof : ApprovalResponseProof) : Except String Unit :=
  if proof.algorithm ≠ lit "ECDSA_P256_SHA256" then
    .error "approval proof algorithm does not match the local contract"
  else if !matchesSha256Hex proof.publicKeySha256 then
    .error "approval proof public key hash is invalid"
  else if ¬ (64 ≤ proof.signatureBase64.length ∧ proof.signatureBase64.length ≤ 512) ∨
      matchesBase64 proof.signatureBase64 = false then
    .error "approval proof signature is invalid"
  else .ok ()

/-- `createApprovalResponse`, as the gateway calls it. -/
def createApprovalResponse (deviceId : Str) (correlationId : UUID) (request : HubApprovalRequest)
    (proof : ApprovalResponseProof) : Except String ApprovalResponse := do
  requireBounded "deviceId" deviceId 1 128
  requireToolName request.toolName
  requireApprovalResponseProof proof
  return {
    deviceId := deviceId
    correlationId := correlationId
    approvalId := request.approvalId
    taskId := request.taskId
    approved := true
    proof := proof }

/-! ### What the checks say -/

theorem except_bind_eq_ok {α β : Type} {x : Except String α} {f : α → Except String β} {b : β} :
    x >>= f = .ok b ↔ ∃ a, x = .ok a ∧ f a = .ok b := by
  cases x with
  | error message => simp [bind, Except.bind]
  | ok a => simp [bind, Except.bind]

theorem toOption_eq_some {α : Type} {x : Except String α} {a : α} :
    x.toOption = some a ↔ x = .ok a := by
  cases x with
  | error message => simp [Except.toOption]
  | ok b => simp [Except.toOption]

/-- An invocation carries what its grant allows. -/
theorem createToolInvocation_ok {codec : ArgumentsCodec} {messageId discoveryMessageId : UUID}
    {deviceId toolName : Str} {arguments : ToolArguments} {grant : Option ToolApprovalGrant}
    {request : ToolInvocationRequest}
    (h : createToolInvocation codec messageId discoveryMessageId deviceId toolName arguments grant =
      .ok request) : ∃ sha256, codec toolName arguments = .ok sha256 ∧
      requireBounded "deviceId" deviceId 1 128 = .ok () ∧ requireToolName toolName = .ok () ∧
      requireDeadline (grant.map (·.expiresAtEpochMillis)) = .ok () ∧
      request = {
        messageId := messageId
        toolName := toolName
        discoveryMessageId := discoveryMessageId
        expiresAtEpochMillis := grant.map (·.expiresAtEpochMillis)
        deviceId := deviceId
        approvedTaskId := grant.map (·.taskId)
        approvedCredentialId := grant.map (·.credentialId)
        approvedArgumentsSha256 := grant.map fun _ => sha256 } := by
  unfold createToolInvocation at h
  obtain ⟨_, hdevice, h⟩ := except_bind_eq_ok.1 h
  obtain ⟨_, htool, h⟩ := except_bind_eq_ok.1 h
  obtain ⟨_, hdeadline, h⟩ := except_bind_eq_ok.1 h
  obtain ⟨sha256, hsha256, h⟩ := except_bind_eq_ok.1 h
  obtain ⟨_, -, h⟩ := except_bind_eq_ok.1 h
  obtain ⟨_, -, h⟩ := except_bind_eq_ok.1 h
  exact ⟨sha256, hsha256, hdevice, htool, hdeadline, (Except.ok.inj h).symm⟩

/-- A request for this task, tool and hash that expires after it was issued is accepted. -/
theorem requireApprovalRequest_ok {payload : HubApprovalRequest} {toolName : Str}
    (htool : requireToolName toolName = .ok ()) (hname : payload.toolName = toolName)
    (hhex : matchesSha256Hex payload.argumentsSha256 = true)
    (hpositive : 0 < payload.expiresAtEpochMillis)
    (horder : payload.issuedAtEpochMillis < payload.expiresAtEpochMillis) :
    requireApprovalRequest payload toolName payload.taskId payload.argumentsSha256 =
      .ok payload := by
  have hexpected : requireExpectedTool payload.toolName toolName = .ok () := by
    unfold requireExpectedTool
    rw [hname, htool]
    simp [bind, Except.bind, pure, Except.pure]
  unfold requireApprovalRequest
  simp [bind, Except.bind, pure, Except.pure, hexpected, hhex, hpositive.not_ge, horder.not_ge]

end GoffyPhone
