import GoffyOs.Hub.WebSocketDiscovery

/-!
# Admission of tool calls

Tools are called over the WebSocket and over MCP (`RegistryMcpAdapter.call_tool` in
`goffy_hub/mcp_server.py`), while the health of the tools is refreshed. A call is admitted by
`preflight`, which asks for a healthy tool. The handler starts at once over MCP; over the WebSocket
it starts after the progress message was sent, and for a CONFIRM tool after the approval.

* The history of the whole Hub stamps what a connection does with the health of the tools at that
  moment, so that a handler's start can be compared with its admission;
* `startAdmitted_of_reaches` is the result over runs: what starts was admitted while its tool was
  healthy;
* `unhealthy_tool_starts` is a run in which the health has changed in between.
-/

namespace GoffyHub.ToolAdmission

open Python
open Approval (Crypto)
open Registry
open WebSocket (Protocol Connection MessageEnvelope Execution Admitted IsInvocation)

/-! ### Calls over MCP -/

/-- The codes of the JSON-RPC errors that `call_tool` raises. -/
inductive McpErrorCode
  | internalError
  | invalidParams
  deriving DecidableEq

/-- How a call ends. -/
inductive McpAnswer
  | result
  | toolError (message : String)
  | protocolError (code : McpErrorCode) (message : String)
  | cancelled
  deriving DecidableEq

/-- A call of `call_tool`. -/
inductive McpCall
  /-- `_call_slots.acquire()` -/
  | queued (name : Str) (arguments : List (Str × Json))
  /-- the handler of the tool -/
  | invoking (prepared : PreparedToolInvocation)
  | answered (answer : McpAnswer)

/-- The part of `call_tool` between the queue and the handler, which has no await. -/
def admitCall (registry : ToolRegistry) (name : Str) (arguments : List (Str × Json)) : McpCall :=
  match registry.preflight name arguments with
  | .error .arguments => .answered (.protocolError .invalidParams "Invalid tool arguments.")
  | .error _ => .answered (.protocolError .invalidParams "Unknown or unauthorized tool.")
  | .ok prepared =>
    if prepared.definition.permission ≠ .safe ∨
        registry.isRegistered prepared.definition = false then
      .answered (.protocolError .invalidParams "Unknown or unauthorized tool.")
    else .invoking prepared

/-! ### The Hub -/

/-- The endpoints of `/ws/v1` with their registry, and the adapter of `/mcp`. -/
structure System where
  socket : WebSocket.System
  callSlots : ℕ
  calls : ℕ → Option McpCall

def System.initial (registry : ToolRegistry) (maxConcurrentCalls : ℕ) : System :=
  ⟨WebSocket.System.initial registry, maxConcurrentCalls, fun _ => none⟩

inductive Action
  | socket (a : WebSocket.Action)
  | callTool (k : ℕ) (name : Str) (arguments : List (Str × Json))
  | acquire (k : ℕ)
  | queueTimeout (k : ℕ)
  /-- `invoke_prepared` returns, or raises `ToolExecutionError` -/
  | invoked (k : ℕ) (succeeded : Bool)
  | cancel (k : ℕ)

/-- What a connection has done, with the health of the tools at that moment, and the start of a
handler over MCP. -/
inductive Event
  | socket (healthy : Str → Bool) (e : WebSocket.Event)
  | started (k : ℕ) (prepared : PreparedToolInvocation) (healthy : Bool)

def System.setCall (s : System) (k : ℕ) (call : McpCall) : System :=
  { s with calls := Function.update s.calls k (some call) }

/-- The call has got a slot. One that is answered at once releases it again. -/
def System.acquired (s : System) (k : ℕ) (name : Str) (arguments : List (Str × Json)) :
    System × List Event :=
  match admitCall s.socket.registry name arguments with
  | .invoking prepared =>
    ({ s.setCall k (.invoking prepared) with callSlots := s.callSlots - 1 },
      [.started k prepared (s.socket.registry.healthy prepared.definition.name)])
  | call => (s.setCall k call, [])

def step (protocol : Protocol) (crypto : Crypto) (maxMessageBytes : ℕ) :
    Machine.Step System Action Event
  | s, .socket a => do
    let (socket, out) ← WebSocket.step protocol crypto maxMessageBytes s.socket a
    return ({ s with socket }, out.map (.socket s.socket.registry.healthy))
  | s, .callTool k name arguments =>
    match s.calls k with
    | none => some (s.setCall k (.queued name arguments), [])
    | _ => none
  | s, .acquire k =>
    match s.calls k with
    | some (.queued name arguments) =>
      if s.callSlots = 0 then none else some (s.acquired k name arguments)
    | _ => none
  | s, .queueTimeout k =>
    match s.calls k with
    | some (.queued _ _) =>
      some (s.setCall k (.answered (.protocolError .internalError "The Hub is busy.")), [])
    | _ => none
  | s, .invoked k succeeded =>
    match s.calls k with
    | some (.invoking _) =>
      let answer := if succeeded then .result
        else .toolError "The tool failed without a verified result."
      some ({ s.setCall k (.answered answer) with callSlots := s.callSlots + 1 }, [])
    | _ => none
  | s, .cancel k =>
    match s.calls k with
    | some (.queued _ _) => some (s.setCall k (.answered .cancelled), [])
    | some (.invoking _) =>
      some ({ s.setCall k (.answered .cancelled) with callSlots := s.callSlots + 1 }, [])
    | _ => none

/-! ### The invariant -/

/-- An earlier message of connection `i` was this invocation, and its tool was healthy then. -/
def AdmittedBefore (protocol : Protocol) (es : List Event) (i : ℕ) (messageId : UUID)
    (invocation : Approval.ToolInvocationPayload) (prepared : PreparedToolInvocation) : Prop :=
  ∃ healthy raw envelope, .socket healthy (.received i raw) ∈ es ∧
    protocol.messageEnvelope raw = some envelope ∧ envelope.messageId = messageId ∧
    IsInvocation protocol envelope invocation ∧
    prepared.definition.name = invocation.toolName ∧ healthy prepared.definition.name = true

/-- What the start of a handler needs of the events before it. -/
def StartAdmitted (protocol : Protocol) (pre : List Event) : Event → Prop
  | .socket _ (.started i execution _) =>
    AdmittedBefore protocol pre i execution.correlationId execution.invocation execution.prepared
  | .started _ _ healthy => healthy = true
  | _ => True

/-- What waits on a connection was admitted. -/
structure AdmissionInv (protocol : Protocol) (es : List Event) (i : ℕ) (conn : Connection) :
    Prop where
  pending : ∀ id p, conn.pending.get? id = some p →
    AdmittedBefore protocol es i p.originalMessageId p.invocation p.prepared
  accepted : ∀ execution, conn.task = .sendingAccepted execution →
    AdmittedBefore protocol es i execution.correlationId execution.invocation execution.prepared

section Invariant

variable {protocol : Protocol} {crypto : Crypto} {registry : ToolRegistry} {maxMessageBytes i : ℕ}
  {conn conn' : Connection} {es : List Event}

theorem AdmittedBefore.mono {messageId : UUID} {invocation : Approval.ToolInvocationPayload}
    {prepared : PreparedToolInvocation}
    (h : AdmittedBefore protocol es i messageId invocation prepared) (out : List Event) :
    AdmittedBefore protocol (es ++ out) i messageId invocation prepared := by
  obtain ⟨healthy, raw, envelope, hmem, hrest⟩ := h
  exact ⟨healthy, raw, envelope, List.mem_append_left _ hmem, hrest⟩

theorem AdmissionInv.mono (h : AdmissionInv protocol es i conn) (out : List Event) :
    AdmissionInv protocol (es ++ out) i conn :=
  ⟨fun id p hp => (h.pending id p hp).mono out, fun e he => (h.accepted e he).mono out⟩

/-- The message that is admitted is in the history. -/
theorem admittedBefore_of_admitted {raw : Str} {envelope : MessageEnvelope}
    {messageId : UUID} {invocation : Approval.ToolInvocationPayload}
    {prepared : PreparedToolInvocation} (hmem : .socket registry.healthy (.received i raw) ∈ es)
    (henvelope : protocol.messageEnvelope raw = some envelope)
    (h : Admitted protocol registry envelope messageId invocation prepared) :
    AdmittedBefore protocol es i messageId invocation prepared := by
  obtain ⟨hname, hhealthy, -⟩ := ToolRegistry.preflight_ok h.preflight
  exact ⟨_, raw, envelope, hmem, henvelope, h.messageId_eq.symm, h.isInvocation, hname,
    hname ▸ hhealthy⟩

/-- The connection after a step. -/
theorem AdmissionInv.scanned {out : List WebSocket.Event} (h : AdmissionInv protocol es i conn)
    (hscanned : WebSocket.Scanned protocol registry i conn conn' out) :
    AdmissionInv protocol (es ++ out.map (.socket registry.healthy)) i conn' := by
  cases hscanned with
  | refused htask _ _ hpending =>
    refine ⟨fun id p hp => ?_, fun execution he => absurd he (htask execution)⟩
    exact (h.pending id p (hpending ▸ hp)).mono _
  | @dispatched raw envelope out _ henvelope _ _ _ hfrom hdispatched =>
    have hmem : Event.socket registry.healthy (.received i raw) ∈
        es ++ (WebSocket.Event.received i raw :: .processed i envelope.messageId :: out).map
          (.socket registry.healthy) := by simp
    refine ⟨fun id p hp => ?_, fun execution he => ?_⟩
    · rcases hfrom id p hp with hold | ⟨-, hadmitted⟩
      · exact (h.pending id p hold).mono _
      · exact admittedBefore_of_admitted hmem henvelope hadmitted
    · cases hdispatched with
      | discovered _ _ htask => exact absurd he (htask execution)
      | accepted hadmitted _ _ _ htask =>
        obtain rfl := WebSocket.Task.sendingAccepted.inj (htask.symm.trans he)
        exact admittedBefore_of_admitted hmem henvelope hadmitted
      | issued _ _ _ _ htask => exact absurd he (htask execution)
      | refused _ htask => exact absurd he (htask execution)
      | consumed hget _ htask =>
        -- the invocation that was approved has waited on the connection
        obtain rfl := WebSocket.Task.sendingAccepted.inj (htask.symm.trans he)
        exact (h.pending _ _ hget).mono _
  | resumed hresumed =>
    have hawaited : WebSocket.Awaited conn conn' := by
      cases hresumed with
      | awaited hawaited => exact hawaited
      | started _ hawaited => exact hawaited
    exact ⟨fun id p hp => (h.pending id p (hawaited.pending id p hp)).mono _,
      fun execution he => absurd he (hawaited.notAccepted execution)⟩

/-- The events of a step. -/
theorem AdmissionInv.startAdmitted {out : List WebSocket.Event} (h : AdmissionInv protocol es i conn)
    (hscanned : WebSocket.Scanned protocol registry i conn conn' out) (healthy : Str → Bool) :
    Machine.AtEach (fun pre => StartAdmitted protocol (es ++ pre)) (out.map (.socket healthy)) := by
  cases hscanned with
  | refused => exact Machine.atEach_cons trivial Machine.atEach_nil
  | dispatched _ _ _ _ _ _ hdispatched =>
    refine Machine.atEach_cons trivial (Machine.atEach_cons trivial ?_)
    cases hdispatched with
    | accepted | refused => exact Machine.atEach_nil
    | discovered | issued | consumed => exact Machine.atEach_cons trivial Machine.atEach_nil
  | resumed hresumed =>
    cases hresumed with
    | awaited => exact Machine.atEach_nil
    | started hbefore _ =>
      refine Machine.atEach_cons ?_ Machine.atEach_nil
      rw [List.append_nil]
      exact h.accepted _ hbefore

/-- A call over MCP starts the handler of a healthy tool. -/
theorem healthy_of_admitCall {name : Str} {arguments : List (Str × Json)}
    {prepared : PreparedToolInvocation} (h : admitCall registry name arguments = .invoking prepared) :
    registry.healthy prepared.definition.name = true := by
  unfold admitCall at h
  split at h
  · cases h
  · cases h
  rename_i hpreflight
  split at h
  · cases h
  · cases h
    obtain ⟨hname, hhealthy, -⟩ := ToolRegistry.preflight_ok hpreflight
    exact hname ▸ hhealthy

end Invariant

/-! ### Runs -/

section Runs

variable {protocol : Protocol} {crypto : Crypto} {maxMessageBytes maxConcurrentCalls : ℕ}
  {s s' : System} {es out : List Event} {a : Action} {registry : ToolRegistry}

/-- Every connection, and every start of a handler. -/
structure AllAdmitted (protocol : Protocol) (s : System) (es : List Event) : Prop where
  connections : ∀ i conn, s.socket.connections i = some conn → AdmissionInv protocol es i conn
  events : Machine.AtEach (StartAdmitted protocol) es

theorem AllAdmitted.socket (h : AllAdmitted protocol s es) {b : WebSocket.Action}
    {socket : WebSocket.System} {out : List WebSocket.Event}
    (hs : WebSocket.step protocol crypto maxMessageBytes s.socket b = some (socket, out)) :
    AllAdmitted protocol { s with socket } (es ++ out.map (.socket s.socket.registry.healthy)) := by
  rcases WebSocket.step_eq_some hs with ⟨i, principal, -, rfl, rfl⟩ | ⟨healthy, rfl, rfl⟩ |
    ⟨i, conn, outcome, hi, hconn, hreact, happly⟩
  · refine ⟨fun j other hj => ?_,
      Machine.atEach_append h.events (Machine.atEach_cons trivial Machine.atEach_nil)⟩
    rcases Machine.update_eq_some_iff.1 hj with ⟨rfl, heq⟩ | ⟨-, hj⟩
    · obtain rfl := Option.some.inj heq
      exact ⟨by simp [Connection.opened], by simp [Connection.opened]⟩
    · exact (h.connections j other hj).mono _
  · rw [List.map_nil, List.append_nil]
    exact ⟨h.connections, h.events⟩
  · cases happly
    have hinv := h.connections i conn hconn
    have hscanned := WebSocket.scanned_react hi hreact
    refine ⟨fun j other hj => ?_,
      Machine.atEach_append h.events (hinv.startAdmitted hscanned _)⟩
    rcases Machine.update_eq_some_iff.1 hj with ⟨rfl, heq⟩ | ⟨-, hj⟩
    · obtain rfl := Option.some.inj heq
      exact hinv.scanned hscanned
    · exact (h.connections j other hj).mono _

/-- A step of a call leaves the connections alone, and starts at most one handler. -/
theorem step_call (hs : step protocol crypto maxMessageBytes s a = some (s', out)) :
    (∃ b socket out', a = .socket b ∧
      WebSocket.step protocol crypto maxMessageBytes s.socket b = some (socket, out') ∧
      s' = { s with socket } ∧ out = out'.map (.socket s.socket.registry.healthy)) ∨
    s'.socket = s.socket ∧ ∀ e ∈ out, ∃ k prepared, e = .started k prepared true := by
  cases a with
  | socket b =>
    simp only [step, Option.bind_eq_bind, Option.bind_eq_some_iff, Option.pure_def,
      Option.some.injEq, Prod.mk.injEq, Prod.exists] at hs
    obtain ⟨socket, out', hs, rfl, rfl⟩ := hs
    exact Or.inl ⟨b, socket, out', rfl, hs, rfl, rfl⟩
  | acquire k =>
    refine Or.inr ?_
    simp only [step] at hs
    split at hs
    · rename_i name arguments _
      split at hs
      · cases hs
      · unfold System.acquired at hs
        split at hs
        · rename_i prepared hcall
          cases hs
          refine ⟨rfl, fun e he => ⟨k, prepared, ?_⟩⟩
          rw [List.mem_singleton.1 he, healthy_of_admitCall hcall]
        · cases hs
          exact ⟨rfl, by simp⟩
    · cases hs
  | callTool k name arguments =>
    refine Or.inr ?_
    simp only [step] at hs
    split at hs
    · cases hs
      exact ⟨rfl, by simp⟩
    · cases hs
  | queueTimeout k =>
    refine Or.inr ?_
    simp only [step] at hs
    split at hs
    · cases hs
      exact ⟨rfl, by simp⟩
    · cases hs
  | invoked k succeeded =>
    refine Or.inr ?_
    simp only [step] at hs
    split at hs
    · cases hs
      exact ⟨rfl, by simp⟩
    · cases hs
  | cancel k =>
    refine Or.inr ?_
    simp only [step] at hs
    split at hs
    · cases hs
      exact ⟨rfl, by simp⟩
    · cases hs
      exact ⟨rfl, by simp⟩
    · cases hs

theorem AllAdmitted.step (h : AllAdmitted protocol s es)
    (hs : ToolAdmission.step protocol crypto maxMessageBytes s a = some (s', out)) :
    AllAdmitted protocol s' (es ++ out) := by
  rcases step_call hs with ⟨b, socket, out', rfl, hs', rfl, rfl⟩ | ⟨hsocket, hout⟩
  · exact h.socket hs'
  · refine ⟨fun i conn hconn => ?_, Machine.atEach_append h.events fun pre e post heq => ?_⟩
    · exact (h.connections i conn (hsocket ▸ hconn)).mono _
    · obtain ⟨k, prepared, rfl⟩ := hout e (by simp [heq])
      rfl

/-- **What starts was admitted.** A handler that is started over MCP is that of a tool the registry
has as healthy. One that is started on a connection is for an invocation that the connection has
received while the registry had its tool as healthy. -/
theorem startAdmitted_of_reaches
    (h : Machine.Reaches (step protocol crypto maxMessageBytes) Machine.anyStep
      (System.initial registry maxConcurrentCalls) s es) :
    Machine.AtEach (StartAdmitted protocol) es := by
  have hinv : AllAdmitted protocol s es := by
    refine h.invariant ⟨?_, Machine.atEach_nil⟩ fun _ _ _ _ _ hinv _ hs => hinv.step hs
    simp [System.initial, WebSocket.System.initial]
  exact hinv.events

/-- Whether the tool of a started handler is healthy, for the starts over the WebSocket and over
MCP. -/
def startedHealthy (es : List Event) : List (Bool × Bool) :=
  es.filterMap fun
    | .socket _ (.started _ _ healthy) => some (true, healthy)
    | .started _ _ healthy => some (false, healthy)
    | _ => none

/-- The tool is called on a connection and over MCP. -/
def callRun : List Action :=
  WebSocket.systemInfoRun.map .socket ++ [.callTool 0 WebSocket.systemInfoTool.name [], .acquire 0]

theorem admitted_calls_start : ∃ s es,
    Machine.Reaches (step WebSocket.systemInfoProtocol WebSocket.deviceCrypto 65536) Machine.anyStep
        (System.initial WebSocket.systemInfoRegistry 4) s es ∧
      startedHealthy es = [(true, true), (false, true)] ∧
      Machine.AtEach (StartAdmitted WebSocket.systemInfoProtocol) es := by
  have hrun : (Machine.run (step WebSocket.systemInfoProtocol WebSocket.deviceCrypto 65536)
      (System.initial WebSocket.systemInfoRegistry 4) callRun).map (fun r => startedHealthy r.2) =
      some [(true, true), (false, true)] := by
    decide +kernel
  obtain ⟨⟨s, es⟩, hs, hstarts⟩ := Option.map_eq_some_iff.1 hrun
  have hreach := Machine.run_reaches hs
  exact ⟨s, es, hreach, hstarts, startAdmitted_of_reaches hreach⟩

/-- The tool becomes unavailable while the progress message of the accepted call is sent. -/
def unavailableRun : List Action :=
  (WebSocket.systemInfoRun.take 4).map .socket ++
    [.socket (.setHealth fun _ => false), .socket (.send 0 true)]

/-- The handler of the tool is started, although the registry has it as unavailable. -/
theorem unhealthy_tool_starts : ∃ s es,
    Machine.Reaches (step WebSocket.systemInfoProtocol WebSocket.deviceCrypto 65536) Machine.anyStep
        (System.initial WebSocket.systemInfoRegistry 4) s es ∧
      startedHealthy es = [(true, false)] := by
  have hrun : (Machine.run (step WebSocket.systemInfoProtocol WebSocket.deviceCrypto 65536)
      (System.initial WebSocket.systemInfoRegistry 4) unavailableRun).map
        (fun r => startedHealthy r.2) = some [(true, false)] := by
    decide +kernel
  obtain ⟨⟨s, es⟩, hs, hstarts⟩ := Option.map_eq_some_iff.1 hrun
  exact ⟨s, es, Machine.run_reaches hs, hstarts⟩

end Runs

end GoffyHub.ToolAdmission
