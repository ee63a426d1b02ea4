import GoffyOs.Hub.Auth
import GoffyOs.Hub.Registry
import GoffyOs.Lib.Machine
import Mathlib.Data.Finset.Card

/-!
# The receive loop of `/ws/v1`

`websocket_endpoint` (`goffy_hub/app.py`) hands each received text to `_handle_message`, which
discovers tools, invokes SAFE tools, issues approvals for CONFIRM tools and takes the responses to
them. Connections share the registry and the approval store, and interleave at every await.

* `handleMessage` and `handleApprovalResponse` are the parts of the source's functions up to their
  first await; what a connection awaits is its `Task`, with what the rest of the function needs;
* a send ends with the text sent, with the text too large (the socket is closed and `send_event`
  returns false), or with an exception;
* an exception or a cancellation in any await leaves the loop, and the `finally` block discards the
  pending approvals;
* the protocol models, which are Pydantic's, are the parameter `protocol`. Nothing is assumed of it.
-/

namespace GoffyHub.WebSocket

open Python
open Approval
open Auth (AuthenticatedPrincipal)
open Registry

def maxMessagesPerConnection : ℕ := 64
def websocketConfirmApprovalProofEnabled : Bool := true
def websocketSafeToolPermissions : List PermissionLevel := [.safe]
def websocketConfirmToolPermissions : List PermissionLevel := [.safe, .confirm]

/-! ### Messages -/

/-- `MessageType`. -/
inductive MessageType
  | pairingRequest
  | pairingChallenge
  | pairingResponse
  | pairingSuccess
  | deviceStatus
  | capabilityDiscoveryRequest
  | capabilityDiscoveryResponse
  | userIntent
  | executionPlan
  | approvalRequest
  | approvalResponse
  | toolInvocation
  | toolProgress
  | toolResult
  | toolError
  | verificationResult
  | cancellationRequest
  | heartbeat
  | auditEvent
  deriving DecidableEq

/-- The fields of `MessageEnvelope` that the Hub reads. -/
structure MessageEnvelope where
  messageId : UUID
  messageType : MessageType
  payload : List (Str × Json)

/-- `model_validate_json` and `model_validate` of the protocol models. A discovery request is the
name of the tool. -/
structure Protocol where
  messageEnvelope : Str → Option MessageEnvelope
  approvalResponsePayload : List (Str × Json) → Option ApprovalResponsePayload
  capabilityDiscoveryRequestPayload : List (Str × Json) → Option Str
  toolInvocationPayload : List (Str × Json) → Option ToolInvocationPayload

/-- `ToolErrorPayload`; no error of the endpoint is retryable. -/
structure ToolErrorPayload where
  code : String
  message : String
  deriving DecidableEq

/-! ### Connections -/

/-- `PendingConfirmInvocation`. -/
structure PendingConfirmInvocation where
  originalMessageId : UUID
  invocation : ToolInvocationPayload
  prepared : PreparedToolInvocation
  principalKey : Str
  credentialId : UUID
  approvalPublicKeySpkiDer : Bytes

/-- The function that has called `_execute_prepared_invocation`. -/
inductive Source
  | message
  | approvalResponse (approvalId : UUID)
  deriving DecidableEq

/-- A call of `_execute_prepared_invocation`. -/
structure Execution where
  invocation : ToolInvocationPayload
  prepared : PreparedToolInvocation
  correlationId : UUID
  source : Source

/-- What the endpoint of a connection awaits. -/
inductive Task
  /-- `receive_text` -/
  | receiving
  /-- `_send_error`; afterwards a denied approval is dropped -/
  | sendingError (error : ToolErrorPayload) (correlationId : Option UUID) (denied : Option UUID)
  /-- `_send_error` for a text that is too large, and `close` -/
  | refusing
  | sendingTools (tools : List ToolDefinition) (correlationId : UUID)
  | sendingApprovalRequest (record : IssuedApprovalRecord) (correlationId : UUID)
  /-- the progress message before the tool is invoked -/
  | sendingAccepted (execution : Execution)
  /-- the tool's handler -/
  | invoking (execution : Execution)
  | sendingCompleted (execution : Execution)
  | sendingResult (execution : Execution)
  | sendingVerification (execution : Execution)
  /-- nothing any more -/
  | exited

/-- The local variables of `websocket_endpoint`. -/
structure Connection where
  principal : AuthenticatedPrincipal
  discoveredTools : List Str
  seenMessageIds : Finset UUID
  pending : Dict UUID PendingConfirmInvocation
  outboundClosed : Bool
  task : Task

/-- `_principal_key`. -/
def principalKey (principal : AuthenticatedPrincipal) : Str :=
  match principal.credentialId with
  | some credentialId => principal.kind.value ++ ':' :: uuidStr credentialId
  | none => principal.kind.value ++ ':' :: principal.clientId

/-- `_tool_permissions_for_principal`. -/
def toolPermissionsForPrincipal (principal : AuthenticatedPrincipal) : List PermissionLevel :=
  if websocketConfirmApprovalProofEnabled ∧ principal.credentialId.isSome ∧
      principal.approvalPublicKeySpkiDer.isSome then
    websocketConfirmToolPermissions
  else websocketSafeToolPermissions

/-- A connection that enters the loop. -/
def Connection.opened (principal : AuthenticatedPrincipal) : Connection :=
  ⟨principal, [], ∅, Dict.empty, false, .receiving⟩

/-- `_send_error`. -/
def Connection.sendError (conn : Connection) (code message : String) (correlationId : Option UUID) :
    Connection :=
  { conn with task := .sendingError ⟨code, message⟩ correlationId none }

/-- What a history shows: a connection was opened, a text was received, a message was past the checks
of its id, a discovery found a tool, an approval was issued or consumed on a connection, or the
handler of a tool was started, while the registry had its tool as healthy or not. -/
inductive Event
  | connected (i : ℕ) (principal : AuthenticatedPrincipal)
  | received (i : ℕ) (raw : Str)
  | processed (i : ℕ) (messageId : UUID)
  | discovered (i : ℕ) (toolName : Str)
  | issued (i : ℕ) (record : IssuedApprovalRecord)
  | consumed (i : ℕ) (record : IssuedApprovalRecord) (response : ApprovalResponsePayload)
      (invocation : ToolInvocationPayload) (now : ℤ)
  | started (i : ℕ) (execution : Execution) (healthy : Bool)

/-- What `uuid4` and the clock give while a message is handled. -/
structure Readings where
  approvalId : UUID
  pruneAt : ℤ
  issuedAt : ℤ
  now : ℤ

/-! ### Handling a message -/

/-- The connection and the approval store after a part of a handler, and its events. -/
abbrev Outcome := Connection × PendingApprovals × List Event

/-- `_handle_approval_response`, up to its first await. -/
def handleApprovalResponse (crypto : Crypto) (i : ℕ) (conn : Connection)
    (approvals : PendingApprovals) (response : ApprovalResponsePayload)
    (fallbackCorrelationId : UUID) (now : ℤ) : Outcome :=
  match conn.pending.get? response.approvalId with
  | none =>
    (conn.sendError "approval_invalid" "Approval request is unknown or already consumed."
      (some fallbackCorrelationId), approvals, [])
  | some pending =>
    let correlationId := some pending.originalMessageId
    if pending.principalKey ≠ principalKey conn.principal then
      (conn.sendError "approval_invalid" "Approval request does not match this principal."
        correlationId, approvals, [])
    else match consume crypto approvals (principalKey conn.principal) response pending.invocation
        (some pending.credentialId) (some pending.approvalPublicKeySpkiDer) now with
      | (approvals, .error error) =>
        let denied := if error.code = "approval_denied" then some response.approvalId else none
        ({ conn with task := .sendingError ⟨error.code, error.message⟩ correlationId denied },
          approvals, [])
      | (approvals, .ok record) =>
        let execution := ⟨pending.invocation, pending.prepared, pending.originalMessageId,
          .approvalResponse response.approvalId⟩
        ({ conn with
            pending := conn.pending.pop response.approvalId, task := .sendingAccepted execution },
          approvals, [.consumed i record response pending.invocation now])

/-- `_handle_message` for an approval response. -/
def handleApprovalMessage (protocol : Protocol) (crypto : Crypto) (i : ℕ) (conn : Connection)
    (approvals : PendingApprovals) (envelope : MessageEnvelope) (readings : Readings) : Outcome :=
  let conn := { conn with discoveredTools := [] }
  if websocketConfirmApprovalProofEnabled = false ∨ conn.principal.credentialId = none ∨
      conn.principal.approvalPublicKeySpkiDer = none then
    (conn.sendError "approval_unavailable"
      "CONFIRM WebSocket approvals require device-bound proof and are not enabled."
      (some envelope.messageId), approvals, [])
  else match protocol.approvalResponsePayload envelope.payload with
    | none =>
      (conn.sendError "invalid_approval_response" "Approval response payload is invalid."
        (some envelope.messageId), approvals, [])
    | some response =>
      handleApprovalResponse crypto i conn approvals response envelope.messageId readings.now

/-- `_handle_message` for a discovery request. -/
def handleDiscovery (protocol : Protocol) (registry : ToolRegistry) (i : ℕ) (conn : Connection)
    (approvals : PendingApprovals) (envelope : MessageEnvelope) : Outcome :=
  let conn := { conn with discoveredTools := [] }
  match protocol.capabilityDiscoveryRequestPayload envelope.payload with
  | none =>
    (conn.sendError "invalid_capability_discovery" "Capability discovery payload is invalid."
      (some envelope.messageId), approvals, [])
  | some toolName =>
    match registry.discover toolName (toolPermissionsForPrincipal conn.principal) with
    | [] => ({ conn with task := .sendingTools [] envelope.messageId }, approvals, [])
    | tool :: tools =>
      ({ conn with
          discoveredTools := [tool.name], task := .sendingTools (tool :: tools) envelope.messageId },
        approvals, [.discovered i tool.name])

/-- `_handle_message` for an invocation of a CONFIRM tool: an approval is issued and the invocation
waits for the response to it. -/
def handleConfirm (i : ℕ) (conn : Connection) (approvals : PendingApprovals)
    (envelope : MessageEnvelope) (invocation : ToolInvocationPayload)
    (prepared : PreparedToolInvocation) (readings : Readings) : Outcome :=
  match websocketConfirmApprovalProofEnabled, conn.principal.credentialId,
      conn.principal.approvalPublicKeySpkiDer with
  | true, some credentialId, some approvalPublicKeySpkiDer =>
    match issue approvals (principalKey conn.principal) invocation readings.approvalId
        readings.pruneAt readings.issuedAt with
    | (approvals, .error error) =>
      (conn.sendError error.code error.message (some envelope.messageId), approvals, [])
    | (approvals, .ok record) =>
      let pending := ⟨envelope.messageId, invocation, prepared, principalKey conn.principal,
        credentialId, approvalPublicKeySpkiDer⟩
      ({ conn with
          pending := conn.pending.set record.approvalId pending
          task := .sendingApprovalRequest record envelope.messageId },
        approvals, [.issued i record])
  | _, _, _ =>
    (conn.sendError "tool_not_found" "The requested tool is unavailable or unauthorized."
      (some envelope.messageId), approvals, [])

/-- `_handle_message` for a tool invocation. -/
def handleInvocation (protocol : Protocol) (registry : ToolRegistry) (i : ℕ) (conn : Connection)
    (approvals : PendingApprovals) (envelope : MessageEnvelope) (readings : Readings) : Outcome :=
  let invocationCapabilities := conn.discoveredTools
  let conn := { conn with discoveredTools := [] }
  let reject := fun code message =>
    (conn.sendError code message (some envelope.messageId), approvals, [])
  match protocol.toolInvocationPayload envelope.payload with
  | none => reject "invalid_tool_arguments" "Tool invocation payload is invalid."
  | some invocation =>
    if invocation.toolName ∉ invocationCapabilities then
      reject "capability_discovery_required"
        "Capability discovery must succeed before invoking this tool."
    else match registry.preflight invocation.toolName invocation.arguments with
      | .error .arguments => reject "invalid_tool_arguments" "Arguments do not match the tool schema."
      | .error _ => reject "tool_not_found" "The requested tool is unavailable or unauthorized."
      | .ok prepared =>
        if prepared.definition.permission ∉ toolPermissionsForPrincipal conn.principal then
          reject "tool_not_found" "The requested tool is unavailable or unauthorized."
        else if prepared.definition.permission = .confirm then
          handleConfirm i conn approvals envelope invocation prepared readings
        else if invocation.taskId.isSome then
          reject "approval_unexpected" "Approval task IDs are accepted only for CONFIRM tools."
        else
          ({ conn with
              task := .sendingAccepted ⟨invocation, prepared, envelope.messageId, .message⟩ },
            approvals, [])

/-- `_handle_message` for a message whose id is new on the connection. -/
def dispatch (protocol : Protocol) (crypto : Crypto) (registry : ToolRegistry) (i : ℕ)
    (conn : Connection) (approvals : PendingApprovals) (envelope : MessageEnvelope)
    (readings : Readings) : Outcome :=
  match envelope.messageType with
  | .approvalResponse => handleApprovalMessage protocol crypto i conn approvals envelope readings
  | .capabilityDiscoveryRequest => handleDiscovery protocol registry i conn approvals envelope
  | .toolInvocation => handleInvocation protocol registry i conn approvals envelope readings
  | _ =>
    ({ conn with discoveredTools := [] }.sendError "unsupported_message_type"
      ("This Hub endpoint accepts capability discovery, approval response, " ++
        "and tool invocation messages only.") (some envelope.messageId), approvals, [])

/-- `_handle_message`, up to its first await. -/
def handleMessage (protocol : Protocol) (crypto : Crypto) (registry : ToolRegistry) (i : ℕ)
    (conn : Connection) (approvals : PendingApprovals) (raw : Str) (readings : Readings) : Outcome :=
  match protocol.messageEnvelope raw with
  | none =>
    ({ conn with discoveredTools := [] }.sendError "invalid_message"
      "Message does not match the supported protocol." none, approvals, [])
  | some envelope =>
    if envelope.messageId ∈ conn.seenMessageIds then
      ({ conn with discoveredTools := [] }.sendError "duplicate_message"
        "Message ID has already been used on this connection." (some envelope.messageId),
        approvals, [])
    else if maxMessagesPerConnection ≤ conn.seenMessageIds.card then
      ({ conn with discoveredTools := [] }.sendError "connection_message_limit"
        "Connection message limit reached." (some envelope.messageId), approvals, [])
    else
      let conn := { conn with seenMessageIds := insert envelope.messageId conn.seenMessageIds }
      let outcome := dispatch protocol crypto registry i conn approvals envelope readings
      (outcome.1, outcome.2.1, .processed i envelope.messageId :: outcome.2.2)

/-! ### The loop -/

/-- The `finally` block: `_discard_pending_confirm_invocations`. -/
def exit (conn : Connection) (approvals : PendingApprovals) : Outcome :=
  ({ conn with pending := Dict.empty, task := .exited },
    (conn.pending.entries.map Prod.fst).foldl discard approvals, [])

/-- The end of `_handle_message` in the loop. -/
def finish (conn : Connection) (approvals : PendingApprovals) : Outcome :=
  if conn.outboundClosed then exit conn approvals
  else ({ conn with task := .receiving }, approvals, [])

/-- `invoke_prepared`, up to the start of the handler. `ToolNotFoundError` is not caught. -/
def invokePrepared (registry : ToolRegistry) (i : ℕ) (conn : Connection)
    (approvals : PendingApprovals) (execution : Execution) : Outcome :=
  if registry.isRegistered execution.prepared.definition then
    ({ conn with task := .invoking execution }, approvals,
      [.started i execution (registry.healthy execution.prepared.definition.name)])
  else exit conn approvals

/-- `send_event` returns, with `sent` or after it has closed the socket. -/
def afterSend (registry : ToolRegistry) (i : ℕ) (conn : Connection) (approvals : PendingApprovals)
    (sent : Bool) : Option Outcome :=
  let conn := if sent then conn else { conn with outboundClosed := true }
  match conn.task with
  | .sendingError _ _ none => some (finish conn approvals)
  | .sendingError _ _ (some approvalId) =>
    some (finish { conn with pending := conn.pending.pop approvalId } approvals)
  | .refusing => some (exit conn approvals)
  | .sendingTools _ _ => some (finish conn approvals)
  | .sendingApprovalRequest record _ =>
    if sent then some (finish conn approvals)
    else some (finish { conn with pending := conn.pending.pop record.approvalId }
      (discard approvals record.approvalId))
  | .sendingAccepted execution =>
    if sent then some (invokePrepared registry i conn approvals execution)
    else some (finish conn approvals)
  | .sendingCompleted execution =>
    if sent then some ({ conn with task := .sendingResult execution }, approvals, [])
    else some (finish conn approvals)
  | .sendingResult execution =>
    if sent then some ({ conn with task := .sendingVerification execution }, approvals, [])
    else some (finish conn approvals)
  | .sendingVerification _ => some (finish conn approvals)
  | .receiving | .invoking _ | .exited => none

/-- `invoke_prepared` returns, or raises `ToolExecutionError`. -/
def afterInvoke (conn : Connection) (approvals : PendingApprovals) (succeeded : Bool) :
    Option Outcome :=
  match conn.task with
  | .invoking execution =>
    if succeeded then some ({ conn with task := .sendingCompleted execution }, approvals, [])
    else
      some (conn.sendError "tool_execution_failed" "The tool failed without a verified state change."
        (some execution.correlationId), approvals, [])
  | _ => none

/-! ### The system -/

structure System where
  registry : ToolRegistry
  approvals : PendingApprovals
  connections : ℕ → Option Connection

def System.initial (registry : ToolRegistry) : System := ⟨registry, Dict.empty, fun _ => none⟩

inductive Action
  | connect (i : ℕ) (principal : AuthenticatedPrincipal)
  /-- `receive_text` returns -/
  | receive (i : ℕ) (raw : Str) (readings : Readings)
  /-- `send_event` returns -/
  | send (i : ℕ) (sent : Bool)
  /-- the handler of the tool returns or fails -/
  | invoke (i : ℕ) (succeeded : Bool)
  /-- an await raises: the client has disconnected, the send fails, or the task is cancelled -/
  | interrupt (i : ℕ)
  | setHealth (healthy : Str → Bool)

/-- The endpoint of connection `i` has made a step. -/
def System.apply (s : System) (i : ℕ) (outcome : Outcome) : System × List Event :=
  ({ s with
      approvals := outcome.2.1
      connections := Function.update s.connections i (some outcome.1) }, outcome.2.2)

/-- What the endpoint of a connection does with an action. -/
def react (protocol : Protocol) (crypto : Crypto) (maxMessageBytes : ℕ) (s : System)
    (conn : Connection) : Action → Option Outcome
  | .receive i raw readings =>
    match conn.task with
    | .receiving =>
      if maxMessageBytes < (utf8 raw).length then
        some ({ conn with task := .refusing }, s.approvals, [.received i raw])
      else
        let outcome := handleMessage protocol crypto s.registry i conn s.approvals raw readings
        some (outcome.1, outcome.2.1, .received i raw :: outcome.2.2)
    | _ => none
  | .send i sent => afterSend s.registry i conn s.approvals sent
  | .invoke _ succeeded => afterInvoke conn s.approvals succeeded
  | .interrupt _ =>
    match conn.task with
    | .exited => none
    | _ => some (exit conn s.approvals)
  | _ => none

/-- The connection that an action is about. -/
def Action.connection? : Action → Option ℕ
  | .receive i _ _ | .send i _ | .invoke i _ | .interrupt i => some i
  | _ => none

def step (protocol : Protocol) (crypto : Crypto) (maxMessageBytes : ℕ) :
    Machine.Step System Action Event
  | s, .connect i principal =>
    match s.connections i with
    | some _ => none
    | none => some (s.apply i (Connection.opened principal, s.approvals, [.connected i principal]))
  | s, .setHealth healthy => some ({ s with registry := s.registry.setHealth healthy }, [])
  | s, a => do
    let i ← a.connection?
    let conn ← s.connections i
    let outcome ← react protocol crypto maxMessageBytes s conn a
    return s.apply i outcome

/-- A connection is opened, the health of the tools changes, or the endpoint of one connection makes
a step. -/
theorem step_eq_some {protocol : Protocol} {crypto : Crypto} {maxMessageBytes : ℕ} {s s' : System}
    {a : Action} {out : List Event} (h : step protocol crypto maxMessageBytes s a = some (s', out)) :
    (∃ i principal, s.connections i = none ∧ out = [.connected i principal] ∧
      s' = { s with
        connections := Function.update s.connections i (some (.opened principal)) }) ∨
    (∃ healthy, out = [] ∧ s' = { s with registry := s.registry.setHealth healthy }) ∨
    ∃ i conn outcome, a.connection? = some i ∧ s.connections i = some conn ∧
      react protocol crypto maxMessageBytes s conn a = some outcome ∧
      (s', out) = s.apply i outcome := by
  unfold step at h
  split at h
  · split at h
    · cases h
    · rename_i hnone
      cases h
      exact Or.inl ⟨_, _, hnone, rfl, rfl⟩
  · cases h
    exact Or.inr (Or.inl ⟨_, rfl, rfl⟩)
  · simp only [Option.bind_eq_bind, Option.bind_eq_some_iff, Option.pure_def, Option.some.injEq] at h
    obtain ⟨i, hi, conn, hconn, outcome, hreact, hout⟩ := h
    exact Or.inr (Or.inr ⟨i, conn, outcome, hi, hconn, hreact, hout.symm⟩)

end GoffyHub.WebSocket
