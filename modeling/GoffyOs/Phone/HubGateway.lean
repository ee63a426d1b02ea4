import GoffyOs.Phone.Protocol

/-!
# The gateway to the Hub (`hub/OkHttpHubGateway.kt`)

One invocation opens up to three WebSockets, one after the other. On each of them it asks for the
capability, sends the invocation, answers the Hub's approval request and passes on the events of the
tool.

* `Attempt` holds the flags of one attempt, and `onOpen` to `onFailure` are the callbacks of its
  listener. What `send` and `close` return, and the clock, are arguments of a callback;
* `Invocation` is the loop of `runInvocation` over these attempts. The callbacks of every socket may
  come at any time, also those of a socket whose attempt is over;
* a text message is taken as the codec reads it: its correlation id and its payload, or the message
  of the `ProtocolException`.
-/

namespace GoffyPhone

open Kotlin
open Python (UUID)

/-! ### Messages of the Hub -/

/-- `ExecutionEvent.Error`. -/
structure HubError where
  code : Str
  message : Str
  retryable : Bool
  deriving DecidableEq

def HubError.event {γ : Type} (e : HubError) : ExecutionEvent γ :=
  .error e.code e.message e.retryable

def retryableError (code message : String) : HubError := ⟨lit code, lit message, true⟩
def terminalError (code message : String) : HubError := ⟨lit code, lit message, false⟩

def approvalExpiredError : HubError :=
  terminalError "approval_expired" "The approved action expired before it could be sent."

def approvalProofRequiredError : HubError :=
  terminalError "approval_proof_required"
    "A paired Android approval key is required before this Mac action can run."

def protocolError : HubError :=
  terminalError "protocol_error" "Hub response did not match the supported protocol."

/-- The payloads that the codec accepts. A discovered tool comes with whether its schemas, version,
target, permission and timeout are those of the phone's own contract; progress and results name their
tool. -/
inductive HubPayload (γ : Type)
  | capabilityDiscoveryResponse (tool : Option (Str × Bool))
  | approvalRequest (payload : HubApprovalRequest)
  | toolEvent (toolName : Option Str) (event : ExecutionEvent γ)
  | toolError (error : HubError)

/-- A text message as `decodeInboundEnvelope` reads it. -/
structure HubText (γ : Type) where
  correlationId : UUID
  payload : HubPayload γ

variable {γ : Type}

/-- `decodeInboundEnvelope`. -/
def decodeInboundEnvelope (text : Except String (HubText γ)) (expectedCorrelationId : UUID) :
    Except String (HubPayload γ) := do
  let envelope ← text
  if envelope.correlationId = expectedCorrelationId then return envelope.payload
  else throw "event correlation ID does not match the request"

/-- `CapabilityDiscoveryMessage`, where of a capability only its presence counts. -/
inductive CapabilityDiscoveryMessage
  | response (available : Bool)
  | error (error : HubError)

/-- `decodeCapabilityDiscovery`. -/
def decodeCapabilityDiscovery (text : Except String (HubText γ)) (expectedCorrelationId : UUID)
    (expectedToolName : Str) : Except String CapabilityDiscoveryMessage := do
  requireToolName expectedToolName
  match ← decodeInboundEnvelope text expectedCorrelationId with
  | .capabilityDiscoveryResponse none => return .response false
  | .capabilityDiscoveryResponse (some (name, supported)) => do
    requireExpectedTool name expectedToolName
    if supported then return .response true else throw "unsupported discovered tool"
  | .toolError error => return .error error
  | .approvalRequest _ | .toolEvent _ _ => throw "unexpected discovery response type"

/-- `decodeApprovalRequestOrNull`. -/
def decodeApprovalRequestOrNull (text : Except String (HubText γ)) (request : ToolInvocationRequest) :
    Except String (Option HubApprovalRequest) :=
  match request.approvedTaskId, request.approvedArgumentsSha256 with
  | some taskId, some argumentsSha256 => do
    requireToolName request.toolName
    match ← decodeInboundEnvelope text request.messageId with
    | .approvalRequest payload =>
      return some (← requireApprovalRequest payload request.toolName taskId argumentsSha256)
    | _ => return none
  | _, _ => return none

/-- `decodeEvent`. -/
def decodeEvent (text : Except String (HubText γ)) (expectedCorrelationId : UUID)
    (expectedToolName : Str) : Except String (ExecutionEvent γ) := do
  requireToolName expectedToolName
  match ← decodeInboundEnvelope text expectedCorrelationId with
  | .toolEvent toolName event => do
    toolName.forM (requireExpectedTool · expectedToolName)
    return event
  | .toolError error => return error.event
  | .capabilityDiscoveryResponse _ | .approvalRequest _ => throw "unexpected inbound message type"

/-! ### One attempt -/

inductive AttemptOutcome
  | completed
  | retryableFailure (error : HubError)
  | finalFailure (error : HubError)
  deriving DecidableEq

/-- What the gateway sends. -/
inductive Outbound
  | discovery
  | invocation
  | approvalResponse (response : ApprovalResponse)
  deriving DecidableEq

/-- What a callback does: a message that `send` took or refused, a close with its status, an event
for the task. -/
inductive Effect (γ : Type)
  | send (message : Outbound) (enqueued : Bool)
  | close (status : ℕ)
  | emit (event : ExecutionEvent γ)

/-- The flags of an attempt; `outcome` is what `finish` was first called with. -/
structure Attempt where
  discoverySent : Bool := false
  invocationSent : Bool := false
  terminalEventReceived : Bool := false
  closingOutcome : Option AttemptOutcome := none
  outcome : Option AttemptOutcome := none
  deriving DecidableEq

def normalClosureStatus : ℕ := 1000
def protocolErrorStatus : ℕ := 1002
def approvalClockSkewMillis : ℤ := 5000

/-- The signer, where `none` is an exception. -/
abbrev ApprovalProofSigner := ApprovalSigningPayload → Option ApprovalResponseProof

/-- `isExpired`. -/
def ToolInvocationRequest.isExpired (request : ToolInvocationRequest) (now : ℤ) : Bool :=
  request.expiresAtEpochMillis.any (· ≤ now)

namespace Attempt

/-- `finish`. -/
def finish (s : Attempt) (outcome : AttemptOutcome) : Attempt :=
  if s.outcome.isSome then s else { s with outcome := some outcome }

/-- `closeWithOutcome`; `closed` is what `close` returns. -/
def closeWithOutcome (s : Attempt) (status : ℕ) (outcome : AttemptOutcome) (closed : Bool) :
    Attempt × List (Effect γ) :=
  let closing := { s with closingOutcome := some outcome }
  (if closed then closing else closing.finish outcome, [.close status])

/-- `closeWithProtocolFailure`. -/
def closeWithProtocolFailure (s : Attempt) (closed : Bool) : Attempt × List (Effect γ) :=
  s.closeWithOutcome protocolErrorStatus (.finalFailure protocolError) closed

/-- Something was done before. -/
def andThen (done : List (Effect γ)) (next : Attempt × List (Effect γ)) :
    Attempt × List (Effect γ) := (next.1, done ++ next.2)

/-- `onOpen`. -/
def onOpen (request : ToolInvocationRequest) (s : Attempt) (now : ℤ) (sent closed : Bool) :
    Attempt × List (Effect γ) :=
  if request.isExpired now then
    s.closeWithOutcome normalClosureStatus (.finalFailure approvalExpiredError) closed
  else if sent then ({ s with discoverySent := true }, [.send .discovery true])
  else
    andThen [.send .discovery false] ({ s with discoverySent := false }.closeWithOutcome
      normalClosureStatus (.retryableFailure (retryableError "transport_send_failed"
        "Hub capability discovery could not be sent.")) closed)

/-- `onMessage` before the invocation was sent. -/
def onDiscovery (request : ToolInvocationRequest) (s : Attempt)
    (text : Except String (HubText γ)) (now : ℤ) (sent closed : Bool) :
    Attempt × List (Effect γ) :=
  match decodeCapabilityDiscovery text request.discoveryMessageId request.toolName with
  | .error _ => s.closeWithProtocolFailure closed
  | .ok (.error failure) => s.closeWithOutcome normalClosureStatus (.finalFailure failure) closed
  | .ok (.response false) =>
    s.closeWithOutcome normalClosureStatus (.finalFailure (terminalError "capability_unavailable"
      "The required Hub capability is unavailable.")) closed
  | .ok (.response true) =>
    if request.isExpired now then
      s.closeWithOutcome normalClosureStatus (.finalFailure approvalExpiredError) closed
    else if sent then
      ({ s with invocationSent := true }, [.send .invocation true, .emit .ready])
    else
      andThen [.send .invocation false] ({ s with invocationSent := false }.closeWithOutcome
        normalClosureStatus (.retryableFailure (retryableError "transport_send_failed"
          "Hub request could not be sent.")) closed)

/-- The proof for an approval request; `none` is an exception of the codec or the signer. -/
def approvalProof (signer : ApprovalProofSigner) (approval : HubApprovalRequest)
    (credentialId : UUID) : Option ApprovalResponseProof :=
  match requireToolName approval.toolName with
  | .error _ => none
  | .ok _ => signer { request := approval, credentialId := credentialId }

/-- `onMessage` with an approval request that matches the invocation. The clock is read twice. -/
def onApprovalRequest (request : ToolInvocationRequest) (signer : Option ApprovalProofSigner)
    (s : Attempt) (approval : HubApprovalRequest) (now later : ℤ) (sent closed : Bool) :
    Attempt × List (Effect γ) :=
  if request.isExpired later = true ∨ approval.expiresAtEpochMillis ≤ now then
    s.closeWithOutcome normalClosureStatus (.finalFailure approvalExpiredError) closed
  else if request.expiresAtEpochMillis.any (· < approval.expiresAtEpochMillis) then
    s.closeWithProtocolFailure closed
  else if now + approvalClockSkewMillis < approval.issuedAtEpochMillis then
    s.closeWithProtocolFailure closed
  else match request.approvedCredentialId, signer with
    | some credentialId, some signer =>
      match approvalProof signer approval credentialId with
      | none =>
        s.closeWithOutcome normalClosureStatus (.finalFailure approvalProofRequiredError) closed
      | some proof =>
        match createApprovalResponse request.deviceId request.messageId approval proof with
        | .error _ => s.closeWithProtocolFailure closed
        | .ok response =>
          if sent then (s, [.send (.approvalResponse response) true])
          else
            andThen [.send (.approvalResponse response) false] (s.closeWithOutcome
              normalClosureStatus (.retryableFailure (retryableError "transport_send_failed"
                "Hub approval response could not be sent.")) closed)
    | _, _ =>
      s.closeWithOutcome normalClosureStatus (.finalFailure approvalProofRequiredError) closed

/-- `event is Verification || event is Error`. -/
def endsTool : ExecutionEvent γ → Bool
  | .verification _ _ _ | .error _ _ _ => true
  | _ => false

/-- `onMessage` with an event of the tool. -/
def onEvent (s : Attempt) (event : ExecutionEvent γ) (closed : Bool) :
    Attempt × List (Effect γ) :=
  if endsTool event then
    let received := { s with terminalEventReceived := true }
    (if closed then received else received.finish .completed,
      [.emit event, .close normalClosureStatus])
  else (s, [.emit event])

/-- `onMessage`, for a text. -/
def onText (request : ToolInvocationRequest) (signer : Option ApprovalProofSigner) (s : Attempt)
    (text : Except String (HubText γ)) (now later : ℤ) (sent closed : Bool) :
    Attempt × List (Effect γ) :=
  if !s.invocationSent then s.onDiscovery request text now sent closed
  else match decodeApprovalRequestOrNull text request with
    | .error _ => s.closeWithProtocolFailure closed
    | .ok (some approval) => s.onApprovalRequest request signer approval now later sent closed
    | .ok none =>
      match decodeEvent text request.messageId request.toolName with
      | .error _ => s.closeWithProtocolFailure closed
      | .ok event => s.onEvent event closed

/-- `onClosed`. -/
def onClosed (s : Attempt) : Attempt :=
  match s.closingOutcome with
  | some outcome => s.finish outcome
  | none =>
    if s.terminalEventReceived then s.finish .completed
    else if !s.invocationSent then
      s.finish (.retryableFailure (retryableError "transport_connect_failed"
        (if s.discoverySent then "Hub connection closed before the request was sent."
          else "Hub connection closed before capability discovery was sent.")))
    else
      s.finish (.finalFailure (terminalError "transport_disconnected"
        "Hub connection closed before a terminal event was received."))

/-- `onFailure`, with the status of the response if there is one. -/
def onFailure (s : Attempt) (response : Option ℕ) : Attempt :=
  match s.closingOutcome with
  | some outcome => s.finish outcome
  | none =>
    if s.terminalEventReceived then s.finish .completed
    else match response with
      | some code =>
        if code = 401 ∨ code = 403 then
          s.finish (.finalFailure (terminalError "authentication_failed"
            "Hub authentication failed."))
        else
          s.finish (.finalFailure (terminalError "upgrade_rejected"
            "Hub rejected the WebSocket upgrade."))
      | none =>
        if !s.invocationSent then
          s.finish (.retryableFailure (retryableError "transport_connect_failed"
            "Hub connection failed before the request was sent."))
        else
          s.finish (.finalFailure (terminalError "transport_disconnected"
            "Hub connection was lost before a terminal event was received."))

end Attempt

/-- The callbacks of a WebSocket. -/
inductive Callback (γ : Type)
  | onOpen (now : ℤ) (sent closed : Bool)
  | onText (text : Except String (HubText γ)) (now later : ℤ) (sent closed : Bool)
  | onBytes (closed : Bool)
  | onClosing (code : ℕ)
  | onClosed
  | onFailure (response : Option ℕ)

/-- The listener of an attempt. -/
def Attempt.handle (request : ToolInvocationRequest) (signer : Option ApprovalProofSigner)
    (s : Attempt) : Callback γ → Attempt × List (Effect γ)
  | .onOpen now sent closed => s.onOpen request now sent closed
  | .onText text now later sent closed => s.onText request signer text now later sent closed
  | .onBytes closed => s.closeWithProtocolFailure closed
  | .onClosing code => (s, [.close code])
  | .onClosed => (s.onClosed, [])
  | .onFailure response => (s.onFailure response, [])

/-! ### One invocation -/

def maxAttempts : ℕ := 3

/-- How opening the socket ends. -/
inductive Connection
  | opened
  | illegalState
  | runtimeException

/-- The attempt right after `newWebSocket`. -/
def Attempt.connect : Connection → Attempt
  | .opened => {}
  | .illegalState => Attempt.finish {} (.finalFailure (terminalError "gateway_closed"
      "Hub transport is closed."))
  | .runtimeException => Attempt.finish {} (.retryableFailure (retryableError
      "transport_connect_failed" "Hub connection failed before the request was sent."))

/-- An invocation: its attempts, oldest first, and whether `runInvocation` is over. -/
structure Invocation where
  attempts : List Attempt := []
  ended : Bool := false

/-- What can happen in an invocation: `runInvocation` starts an attempt, a callback comes, the
current attempt takes too long, `runInvocation` goes on with its outcome, or the flow is cancelled. -/
inductive GatewayAction (γ : Type)
  | start (gatewayClosed : Bool) (now : ℤ) (connection : Connection)
  | callback (socket : ℕ) (callback : Callback γ)
  | timeout
  | resume
  | cancel

namespace Invocation

/-- The outcome of the current attempt. -/
def outcome (s : Invocation) : Option AttemptOutcome := s.attempts.getLast?.bind (·.outcome)

/-- `runInvocation` is at the head of its loop: there is no attempt yet, or the last one may be
repeated. -/
def atLoopHead (s : Invocation) : Bool :=
  match s.attempts.getLast? with
  | none => true
  | some attempt =>
    match attempt.outcome with
    | some (.retryableFailure _) => s.attempts.length < maxAttempts
    | _ => false

def timeoutError : HubError :=
  terminalError "hub_response_timeout"
    "Hub discovery or execution exceeded the bounded response window."

/-- One step of an invocation; `none` when it is not possible. -/
def step (request : ToolInvocationRequest) (signer : Option ApprovalProofSigner)
    (s : Invocation) : GatewayAction γ → Option (Invocation × List (Effect γ))
  | .start gatewayClosed now connection =>
    if s.ended || !s.atLoopHead then none
    else if gatewayClosed then some ({ s with ended := true }, [])
    else if request.isExpired now then
      some ({ s with ended := true }, [.emit approvalExpiredError.event])
    else
      some ({ s with attempts := s.attempts ++ [Attempt.connect connection] },
        [.emit (.starting (Int32.ofNat (s.attempts.length + 1)))])
  | .callback socket callback =>
    match s.attempts[socket]? with
    | none => none
    | some attempt =>
      let handled := attempt.handle request signer callback
      some ({ s with attempts := s.attempts.set socket handled.1 }, handled.2)
  | .timeout =>
    -- the attempt is cancelled, also when its outcome was not yet passed on
    if s.ended || s.attempts.isEmpty then none
    else some ({ s with ended := true }, [.emit timeoutError.event])
  | .resume =>
    if s.ended then none
    else match s.outcome with
      | none => none
      | some .completed => some ({ s with ended := true }, [])
      | some (.finalFailure error) => some ({ s with ended := true }, [.emit error.event])
      | some (.retryableFailure error) =>
        if s.attempts.length = maxAttempts then
          some ({ s with ended := true }, [.emit error.event])
        else none
  | .cancel => some ({ s with ended := true }, [])

end Invocation

end GoffyPhone
