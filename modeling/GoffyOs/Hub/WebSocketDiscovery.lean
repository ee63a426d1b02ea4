import GoffyOs.Hub.WebSocketApprovals

/-!
# SAFE tools run only after their discovery

A connection may invoke a tool only with the message after the discovery that found it:
`discovered_tools` holds at most that tool, and every message clears it. With `Event.connection` a
history is split by connections; on one connection a message leaves the events `received`,
`processed` and what it has done, in this order.

* `Scanned` says what a step can do to the discovered tools, the seen ids and the task;
* `DiscoveryInv` ties them to the end of the connection's own history;
* `safe_start_needs_discovery` is the result over runs.
-/

namespace GoffyHub.WebSocket

open Python
open Approval
open Auth (AuthenticatedPrincipal)
open Registry

/-! ### Histories of one connection -/

/-- The connection that an event is about. -/
def Event.connection : Event → ℕ
  | .connected i _ | .received i _ | .processed i _ | .discovered i _ | .issued i _
  | .consumed i _ _ _ _ | .started i _ _ => i

/-- The events of a connection. -/
def onConnection (i : ℕ) (es : List Event) : List Event := es.filter (·.connection = i)

/-- The ids of the messages of a connection that were past the checks of their ids. -/
def processedIds (i : ℕ) (es : List Event) : List UUID :=
  es.filterMap fun
    | .processed j messageId => if j = i then some messageId else none
    | _ => none

@[simp] theorem onConnection_append (i : ℕ) (es es' : List Event) :
    onConnection i (es ++ es') = onConnection i es ++ onConnection i es' := List.filter_append ..

@[simp] theorem processedIds_append (i : ℕ) (es es' : List Event) :
    processedIds i (es ++ es') = processedIds i es ++ processedIds i es' := List.filterMap_append ..

theorem onConnection_eq_self {i : ℕ} {es : List Event} (h : ∀ e ∈ es, e.connection = i) :
    onConnection i es = es := List.filter_eq_self.2 fun e he => by simpa using h e he

theorem onConnection_eq_nil {i : ℕ} {es : List Event} (h : ∀ e ∈ es, e.connection ≠ i) :
    onConnection i es = [] := List.filter_eq_nil_iff.2 fun e he => by simpa using h e he

theorem mem_processedIds {i : ℕ} {es : List Event} {messageId : UUID} :
    messageId ∈ processedIds i es ↔ .processed i messageId ∈ es := by
  simp only [processedIds, List.mem_filterMap]
  constructor
  · rintro ⟨e, he, h⟩
    cases e with
    | processed j m =>
      by_cases hj : j = i
      · obtain rfl : m = messageId := by simpa [hj] using h
        exact hj ▸ he
      · simp [hj] at h
    | _ => simp at h
  · intro h
    exact ⟨_, h, by simp⟩

theorem processedIds_eq_nil {i : ℕ} {es : List Event} (h : ∀ e ∈ es, e.connection ≠ i) :
    processedIds i es = [] := by
  rw [List.eq_nil_iff_forall_not_mem]
  intro m hm
  exact h _ (mem_processedIds.1 hm) rfl

/-! ### What a message can do -/

/-- A discovery request for a tool. -/
structure IsDiscovery (protocol : Protocol) (envelope : MessageEnvelope) (toolName : Str) : Prop where
  messageType : envelope.messageType = .capabilityDiscoveryRequest
  payload : protocol.capabilityDiscoveryRequestPayload envelope.payload = some toolName

/-- A tool invocation. -/
structure IsInvocation (protocol : Protocol) (envelope : MessageEnvelope)
    (invocation : ToolInvocationPayload) : Prop where
  messageType : envelope.messageType = .toolInvocation
  payload : protocol.toolInvocationPayload envelope.payload = some invocation

/-- A message is an invocation that passes the preflight. -/
structure Admitted (protocol : Protocol) (registry : ToolRegistry) (envelope : MessageEnvelope)
    (messageId : UUID) (invocation : ToolInvocationPayload) (prepared : PreparedToolInvocation) :
    Prop where
  isInvocation : IsInvocation protocol envelope invocation
  messageId_eq : messageId = envelope.messageId
  preflight : registry.preflight invocation.toolName invocation.arguments = .ok prepared

/-- Every pending invocation is one of a CONFIRM tool. -/
def PendingConfirm (conn : Connection) : Prop :=
  ∀ id p, conn.pending.get? id = some p → p.prepared.definition.permission = .confirm

/-- A connection does not wait to start a handler. -/
def NotAccepted (conn : Connection) : Prop := ∀ execution, conn.task ≠ .sendingAccepted execution

/-- The invocations of `conn'` were pending before, or the message is one of a CONFIRM tool. -/
def PendingFrom (protocol : Protocol) (registry : ToolRegistry) (envelope : MessageEnvelope)
    (conn conn' : Connection) : Prop :=
  ∀ id p, conn'.pending.get? id = some p → conn.pending.get? id = some p ∨
    p.prepared.definition.permission = .confirm ∧
      Admitted protocol registry envelope p.originalMessageId p.invocation p.prepared

/-- What a message does whose id is new on the connection. -/
inductive Dispatched (protocol : Protocol) (registry : ToolRegistry) (i : ℕ) (conn : Connection)
    (envelope : MessageEnvelope) : Connection → List Event → Prop
  | discovered {conn' : Connection} {toolName : Str}
      (hdiscovery : IsDiscovery protocol envelope toolName)
      (htools : conn'.discoveredTools = [toolName]) (htask : NotAccepted conn') :
      Dispatched protocol registry i conn envelope conn' [.discovered i toolName]
  | accepted {conn' : Connection} {execution : Execution}
      (hadmitted : Admitted protocol registry envelope execution.correlationId execution.invocation
        execution.prepared)
      (hfound : execution.invocation.toolName ∈ conn.discoveredTools)
      (hsource : execution.source = .message) (htools : conn'.discoveredTools = [])
      (htask : conn'.task = .sendingAccepted execution) :
      Dispatched protocol registry i conn envelope conn' []
  | issued {conn' : Connection} {invocation : ToolInvocationPayload} {record : IssuedApprovalRecord}
      (hinvocation : IsInvocation protocol envelope invocation)
      (hfound : invocation.toolName ∈ conn.discoveredTools)
      (hrecord : record.toolName = invocation.toolName) (htools : conn'.discoveredTools = [])
      (htask : NotAccepted conn') :
      Dispatched protocol registry i conn envelope conn' [.issued i record]
  | refused {conn' : Connection} (htools : conn'.discoveredTools = []) (htask : NotAccepted conn') :
      Dispatched protocol registry i conn envelope conn' []
  | consumed {conn' : Connection} {record : IssuedApprovalRecord}
      {response : ApprovalResponsePayload} {p : PendingConfirmInvocation} {now : ℤ}
      (hpending : conn.pending.get? response.approvalId = some p)
      (htools : conn'.discoveredTools = [])
      (htask : conn'.task = .sendingAccepted ⟨p.invocation, p.prepared, p.originalMessageId,
        .approvalResponse response.approvalId⟩) :
      Dispatched protocol registry i conn envelope conn'
        [.consumed i record response p.invocation now]

section Messages

variable {protocol : Protocol} {crypto : Crypto} {registry : ToolRegistry} {i : ℕ}
  {conn : Connection} {approvals : PendingApprovals} {envelope : MessageEnvelope}
  {readings : Readings} {outcome : Outcome}

/-- What the lemmas below say of an outcome. -/
structure DispatchOk (protocol : Protocol) (registry : ToolRegistry) (i : ℕ) (conn : Connection)
    (envelope : MessageEnvelope) (outcome : Outcome) : Prop where
  dispatched : Dispatched protocol registry i conn envelope outcome.1 outcome.2.2
  seenMessageIds : outcome.1.seenMessageIds = conn.seenMessageIds
  pending : PendingFrom protocol registry envelope conn outcome.1

theorem pendingFrom_of_eq {conn' : Connection} (h : conn'.pending = conn.pending) :
    PendingFrom protocol registry envelope conn conn' := fun _ _ hp => Or.inl (h ▸ hp)

/-- An error is sent, and no tool is discovered any more. -/
theorem dispatchOk_sendError (code message : String) (correlationId : Option UUID)
    (approvals : PendingApprovals) :
    DispatchOk protocol registry i conn envelope
      ({ conn with discoveredTools := [] }.sendError code message correlationId, approvals, []) where
  dispatched := .refused rfl (by simp [NotAccepted, Connection.sendError])
  seenMessageIds := rfl
  pending := pendingFrom_of_eq rfl

theorem dispatchOk_handleApprovalMessage
    (h : handleApprovalMessage protocol crypto i conn approvals envelope readings = outcome) :
    DispatchOk protocol registry i conn envelope outcome := by
  unfold handleApprovalMessage at h
  simp only at h
  split at h
  · subst h
    exact dispatchOk_sendError ..
  split at h
  · subst h
    exact dispatchOk_sendError ..
  rename_i response _
  unfold handleApprovalResponse at h
  split at h
  · subst h
    exact dispatchOk_sendError ..
  rename_i p hp
  simp only at h
  split at h
  · subst h
    exact dispatchOk_sendError ..
  split at h
  · subst h
    exact ⟨.refused rfl (by simp [NotAccepted]), rfl, pendingFrom_of_eq rfl⟩
  · subst h
    exact ⟨.consumed hp rfl rfl, rfl, fun id p' hp' => Or.inl (Dict.get?_of_get?_pop hp')⟩

theorem dispatchOk_handleDiscovery
    (htype : envelope.messageType = .capabilityDiscoveryRequest)
    (h : handleDiscovery protocol registry i conn approvals envelope = outcome) :
    DispatchOk protocol registry i conn envelope outcome := by
  unfold handleDiscovery at h
  simp only at h
  split at h
  · subst h
    exact dispatchOk_sendError ..
  rename_i toolName hpayload
  split at h
  · subst h
    exact ⟨.refused rfl (by simp [NotAccepted]), rfl, pendingFrom_of_eq rfl⟩
  · rename_i tool tools hfound
    subst h
    -- the registry holds a tool under its own name
    have hname : tool.name = toolName := ToolRegistry.name_of_mem_discover (hfound ▸ List.mem_cons_self)
    exact ⟨.discovered ⟨htype, hname ▸ hpayload⟩ rfl (by simp [NotAccepted]), rfl,
      pendingFrom_of_eq rfl⟩

theorem dispatchOk_handleInvocation
    (htype : envelope.messageType = .toolInvocation)
    (h : handleInvocation protocol registry i conn approvals envelope readings = outcome) :
    DispatchOk protocol registry i conn envelope outcome := by
  unfold handleInvocation at h
  simp only at h
  split at h
  · subst h
    exact dispatchOk_sendError ..
  rename_i invocation hpayload
  split at h
  · subst h
    exact dispatchOk_sendError ..
  rename_i hfound
  split at h
  · subst h
    exact dispatchOk_sendError ..
  · subst h
    exact dispatchOk_sendError ..
  rename_i prepared hpreflight
  split at h
  · subst h
    exact dispatchOk_sendError ..
  split at h
  · rename_i hconfirm
    unfold handleConfirm at h
    split at h
    · split at h
      · subst h
        exact dispatchOk_sendError ..
      · rename_i approvals' record hissue
        subst h
        refine ⟨.issued ⟨htype, hpayload⟩ (not_not.1 hfound) (issue_toolName hissue) rfl
          (by simp [NotAccepted]), rfl, fun id p hp => ?_⟩
        rw [Dict.get?_set] at hp
        split at hp
        · obtain rfl := Option.some.inj hp
          exact Or.inr ⟨hconfirm, ⟨htype, hpayload⟩, rfl, hpreflight⟩
        · exact Or.inl hp
    · subst h
      exact dispatchOk_sendError ..
  split at h
  · subst h
    exact dispatchOk_sendError ..
  · subst h
    exact ⟨.accepted ⟨⟨htype, hpayload⟩, rfl, hpreflight⟩ (not_not.1 hfound) rfl rfl rfl, rfl,
      pendingFrom_of_eq rfl⟩

theorem dispatchOk_dispatch
    (h : dispatch protocol crypto registry i conn approvals envelope readings = outcome) :
    DispatchOk protocol registry i conn envelope outcome := by
  unfold dispatch at h
  split at h
  · exact dispatchOk_handleApprovalMessage h
  · rename_i htype
    exact dispatchOk_handleDiscovery htype h
  · rename_i htype
    exact dispatchOk_handleInvocation htype h
  · subst h
    exact dispatchOk_sendError ..

end Messages

/-- A connection that handles no further message. -/
def Leaving (conn : Connection) : Prop := conn.task = .refusing ∨ conn.task = .exited

/-- The end of an await leaves the discovered tools and the seen ids alone. -/
structure Awaited (conn conn' : Connection) : Prop where
  discoveredTools : conn'.discoveredTools = conn.discoveredTools
  seenMessageIds : conn'.seenMessageIds = conn.seenMessageIds
  notAccepted : NotAccepted conn'
  leaving : Leaving conn → Leaving conn'
  pending : ∀ id p, conn'.pending.get? id = some p → conn.pending.get? id = some p

/-- The rest of a handler runs after an await, and perhaps starts a tool. -/
inductive Resumed (i : ℕ) (conn : Connection) : Connection → List Event → Prop
  | awaited {conn' : Connection} (hawaited : Awaited conn conn') : Resumed i conn conn' []
  | started {conn' : Connection} {execution : Execution} {healthy : Bool}
      (hbefore : conn.task = .sendingAccepted execution) (hawaited : Awaited conn conn') :
      Resumed i conn conn' [.started i execution healthy]

/-- What a step can do to the discovered tools, the seen ids, the pending invocations and the task of
its connection. -/
inductive Scanned (protocol : Protocol) (registry : ToolRegistry) (i : ℕ) (conn : Connection) :
    Connection → List Event → Prop
  /-- a message is not past the checks of its id, or its text is too large -/
  | refused {conn' : Connection} {raw : Str} (htask : NotAccepted conn')
      (htools : conn'.discoveredTools = [] ∨ Leaving conn')
      (hseen : conn'.seenMessageIds = conn.seenMessageIds)
      (hpending : conn'.pending = conn.pending) :
      Scanned protocol registry i conn conn' [.received i raw]
  | dispatched {conn' : Connection} {raw : Str} {envelope : MessageEnvelope} {out : List Event}
      (hbefore : conn.task = .receiving)
      (henvelope : protocol.messageEnvelope raw = some envelope)
      (hfresh : envelope.messageId ∉ conn.seenMessageIds)
      (hroom : conn.seenMessageIds.card < maxMessagesPerConnection)
      (hseen : conn'.seenMessageIds = insert envelope.messageId conn.seenMessageIds)
      (hpending : PendingFrom protocol registry envelope conn conn')
      (hdispatched : Dispatched protocol registry i conn envelope conn' out) :
      Scanned protocol registry i conn conn'
        (.received i raw :: .processed i envelope.messageId :: out)
  | resumed {conn' : Connection} {out : List Event} (hresumed : Resumed i conn conn' out) :
      Scanned protocol registry i conn conn' out

section Steps

variable {protocol : Protocol} {crypto : Crypto} {registry : ToolRegistry} {maxMessageBytes i : ℕ}
  {conn conn₀ : Connection} {approvals : PendingApprovals} {outcome : Outcome}

theorem scanned_handleMessage (hbefore : conn.task = .receiving) (raw : Str) (readings : Readings)
    (h : handleMessage protocol crypto registry i conn approvals raw readings = outcome) :
    Scanned protocol registry i conn outcome.1 (.received i raw :: outcome.2.2) := by
  unfold handleMessage at h
  split at h
  · subst h
    exact .refused (by simp [NotAccepted, Connection.sendError]) (Or.inl rfl) rfl rfl
  rename_i envelope henvelope
  split at h
  · subst h
    exact .refused (by simp [NotAccepted, Connection.sendError]) (Or.inl rfl) rfl rfl
  rename_i hfresh
  split at h
  · subst h
    exact .refused (by simp [NotAccepted, Connection.sendError]) (Or.inl rfl) rfl rfl
  rename_i hroom
  simp only at h
  generalize hinner : dispatch protocol crypto registry i _ approvals envelope readings = inner at h
  obtain ⟨conn', approvals', out⟩ := inner
  obtain ⟨hdispatched, hseen, hpending⟩ := dispatchOk_dispatch hinner
  subst h
  refine .dispatched hbefore henvelope hfresh (not_le.1 hroom) hseen hpending ?_
  -- what the message does depends on the discovered tools, which are those before it
  cases hdispatched with
  | discovered hdiscovery htools htask => exact .discovered hdiscovery htools htask
  | accepted hadmitted hfound hsource htools htask =>
    exact .accepted hadmitted hfound hsource htools htask
  | issued hinvocation hfound hrecord htools htask =>
    exact .issued hinvocation hfound hrecord htools htask
  | refused htools htask => exact .refused htools htask
  | consumed hget htools htask => exact .consumed hget htools htask

/-- The loop is left. -/
theorem awaited_exit (htools : conn₀.discoveredTools = conn.discoveredTools)
    (hseen : conn₀.seenMessageIds = conn.seenMessageIds) (approvals : PendingApprovals) :
    Awaited conn (exit conn₀ approvals).1 where
  discoveredTools := htools
  seenMessageIds := hseen
  notAccepted := by simp [NotAccepted, exit]
  leaving := fun _ => Or.inr rfl
  pending := fun id p hp => by simp [exit] at hp

/-- The loop goes on, or is left when the socket was closed. -/
theorem resumed_finish (htools : conn₀.discoveredTools = conn.discoveredTools)
    (hseen : conn₀.seenMessageIds = conn.seenMessageIds) (hleaving : ¬ Leaving conn)
    (hpending : ∀ id p, conn₀.pending.get? id = some p → conn.pending.get? id = some p)
    (approvals : PendingApprovals) :
    Resumed i conn (finish conn₀ approvals).1 (finish conn₀ approvals).2.2 := by
  unfold finish
  split
  · exact .awaited (awaited_exit htools hseen approvals)
  · exact .awaited ⟨htools, hseen, by simp [NotAccepted], fun h => absurd h hleaving, hpending⟩

theorem resumed_afterSend (sent : Bool)
    (h : afterSend registry i conn approvals sent = some outcome) :
    Resumed i conn outcome.1 outcome.2.2 := by
  unfold afterSend at h
  simp only at h
  generalize hconn₀ : (if sent = true then conn else { conn with outboundClosed := true }) = conn₀
    at h
  have htools : conn₀.discoveredTools = conn.discoveredTools := by
    subst hconn₀
    split <;> rfl
  have hseen : conn₀.seenMessageIds = conn.seenMessageIds := by
    subst hconn₀
    split <;> rfl
  have htask : conn₀.task = conn.task := by
    subst hconn₀
    split <;> rfl
  have hpending : ∀ id p, conn₀.pending.get? id = some p → conn.pending.get? id = some p := by
    subst hconn₀
    split <;> exact fun _ _ hp => hp
  have hpop : ∀ id id' p, (conn₀.pending.pop id).get? id' = some p →
      conn.pending.get? id' = some p :=
    fun id id' p hp => hpending id' p (Dict.get?_of_get?_pop hp)
  -- in every case but the refusal of a text the endpoint does not leave the loop yet
  have hstay : ∀ {task}, conn₀.task = task → task ≠ .refusing → task ≠ .exited → ¬ Leaving conn := by
    rintro task hconn h₁ h₂ (hleaving | hleaving)
    · exact h₁ (hconn.symm.trans (htask.trans hleaving))
    · exact h₂ (hconn.symm.trans (htask.trans hleaving))
  have hon : ∀ {conn' : Connection}, conn'.discoveredTools = conn₀.discoveredTools →
      conn'.seenMessageIds = conn₀.seenMessageIds → conn'.pending = conn₀.pending →
      NotAccepted conn' → ¬ Leaving conn → Awaited conn conn' := by
    intro conn' h₁ h₂ h₃ h₄ h₅
    exact ⟨h₁.trans htools, h₂.trans hseen, h₄, fun h => absurd h h₅,
      fun id p hp => hpending id p (h₃ ▸ hp)⟩
  split at h <;> rename_i heq
  · cases h
    exact resumed_finish htools hseen (hstay heq (by simp) (by simp)) hpending approvals
  · cases h
    exact resumed_finish (by exact htools) (by exact hseen) (hstay heq (by simp) (by simp)) (hpop _)
      approvals
  · cases h
    exact .awaited (awaited_exit htools hseen approvals)
  · cases h
    exact resumed_finish htools hseen (hstay heq (by simp) (by simp)) hpending approvals
  · split at h
    · cases h
      exact resumed_finish htools hseen (hstay heq (by simp) (by simp)) hpending approvals
    · cases h
      exact resumed_finish (by exact htools) (by exact hseen) (hstay heq (by simp) (by simp))
        (hpop _) _
  · rename_i execution
    split at h
    · cases h
      unfold invokePrepared
      split
      · exact .started (htask ▸ heq)
          (hon rfl rfl rfl (by simp [NotAccepted]) (hstay heq (by simp) (by simp)))
      · exact .awaited (awaited_exit htools hseen approvals)
    · cases h
      exact resumed_finish htools hseen (hstay heq (by simp) (by simp)) hpending approvals
  · split at h
    · cases h
      exact .awaited (hon rfl rfl rfl (by simp [NotAccepted]) (hstay heq (by simp) (by simp)))
    · cases h
      exact resumed_finish htools hseen (hstay heq (by simp) (by simp)) hpending approvals
  · split at h
    · cases h
      exact .awaited (hon rfl rfl rfl (by simp [NotAccepted]) (hstay heq (by simp) (by simp)))
    · cases h
      exact resumed_finish htools hseen (hstay heq (by simp) (by simp)) hpending approvals
  · cases h
    exact resumed_finish htools hseen (hstay heq (by simp) (by simp)) hpending approvals
  all_goals cases h

theorem resumed_afterInvoke (succeeded : Bool)
    (h : afterInvoke conn approvals succeeded = some outcome) :
    Resumed i conn outcome.1 outcome.2.2 := by
  unfold afterInvoke at h
  split at h
  · rename_i hbefore
    have hstay : ¬ Leaving conn := by simp [Leaving, hbefore]
    split at h
    · cases h
      exact .awaited ⟨rfl, rfl, by simp [NotAccepted], fun h => absurd h hstay,
        fun _ _ hp => hp⟩
    · cases h
      exact .awaited ⟨rfl, rfl, by simp [NotAccepted, Connection.sendError],
        fun h => absurd h hstay,
        fun _ _ hp => hp⟩
  · cases h

theorem scanned_react {s : System} {a : Action} (hi : a.connection? = some i)
    (h : react protocol crypto maxMessageBytes s conn a = some outcome) :
    Scanned protocol s.registry i conn outcome.1 outcome.2.2 := by
  cases a with
  | connect => cases hi
  | setHealth => cases hi
  | receive j raw readings =>
    obtain rfl := Option.some.inj hi
    simp only [react] at h
    split at h
    · rename_i hbefore
      split at h
      · cases h
        exact .refused (by simp [NotAccepted]) (Or.inr (Or.inl rfl)) rfl rfl
      · generalize hinner : handleMessage protocol crypto s.registry j conn s.approvals raw readings =
          inner at h
        have hscanned := scanned_handleMessage hbefore raw readings hinner
        cases h
        exact hscanned
    · cases h
  | send j sent =>
    obtain rfl := Option.some.inj hi
    exact .resumed (resumed_afterSend sent h)
  | invoke j succeeded => exact .resumed (resumed_afterInvoke succeeded h)
  | interrupt j =>
    simp only [react] at h
    split at h
    · cases h
    · cases h
      exact .resumed (.awaited (awaited_exit rfl rfl s.approvals))

theorem Scanned.pendingConfirm {conn' : Connection} {out : List Event}
    (h : Scanned protocol registry i conn conn' out) (hpending : PendingConfirm conn) :
    PendingConfirm conn' := by
  intro id p hp
  cases h with
  | refused _ _ _ heq => exact hpending id p (heq ▸ hp)
  | dispatched _ _ _ _ _ hfrom =>
    rcases hfrom id p hp with hold | ⟨hconfirm, -⟩
    · exact hpending id p hold
    · exact hconfirm
  | resumed hresumed =>
    cases hresumed with
    | awaited hawaited => exact hpending id p (hawaited.pending id p hp)
    | started _ hawaited => exact hpending id p (hawaited.pending id p hp)

end Steps

/-! ### The invariant -/

/-- The last message of connection `i` was a discovery of a tool. -/
def LastDiscovered (protocol : Protocol) (es : List Event) (i : ℕ) (toolName : Str) : Prop :=
  ∃ pre raw envelope, protocol.messageEnvelope raw = some envelope ∧
    IsDiscovery protocol envelope toolName ∧
    onConnection i es =
      pre ++ [.received i raw, .processed i envelope.messageId, .discovered i toolName]

/-- The last two messages of connection `i` were a discovery of the invoked tool and the invocation,
which has the id `messageId`. -/
def DiscoveredThenInvoked (protocol : Protocol) (es : List Event) (i : ℕ) (messageId : UUID)
    (invocation : ToolInvocationPayload) : Prop :=
  ∃ pre raw₁ envelope₁ raw₂ envelope₂, protocol.messageEnvelope raw₁ = some envelope₁ ∧
    IsDiscovery protocol envelope₁ invocation.toolName ∧
    protocol.messageEnvelope raw₂ = some envelope₂ ∧ IsInvocation protocol envelope₂ invocation ∧
    envelope₂.messageId = messageId ∧
    onConnection i es =
      pre ++ [.received i raw₁, .processed i envelope₁.messageId,
        .discovered i invocation.toolName, .received i raw₂, .processed i messageId]

/-- An execution that waits to start was discovered and invoked, or approved. -/
def AcceptedBy (protocol : Protocol) (es : List Event) (i : ℕ) (execution : Execution) : Prop :=
  (execution.source = .message ∧
    execution.prepared.definition.name = execution.invocation.toolName ∧
    DiscoveredThenInvoked protocol es i execution.correlationId execution.invocation) ∨
  ∃ id, execution.source = .approvalResponse id ∧
    execution.prepared.definition.permission = .confirm

/-- What the history of a connection says about it. -/
structure DiscoveryInv (protocol : Protocol) (es : List Event) (i : ℕ) (conn : Connection) :
    Prop where
  tools : ¬ Leaving conn → conn.discoveredTools = [] ∨
    ∃ toolName, conn.discoveredTools = [toolName] ∧ LastDiscovered protocol es i toolName
  cleared : ∀ execution, conn.task = .sendingAccepted execution → conn.discoveredTools = []
  accepted : ∀ execution, conn.task = .sendingAccepted execution →
    AcceptedBy protocol es i execution
  pending : PendingConfirm conn
  nodup : (processedIds i es).Nodup
  seen : (processedIds i es).toFinset = conn.seenMessageIds
  room : conn.seenMessageIds.card ≤ maxMessagesPerConnection

section Invariant

variable {protocol : Protocol} {registry : ToolRegistry} {i : ℕ} {conn conn' : Connection}
  {es out : List Event} {envelope : MessageEnvelope}

/-- A step of another connection. -/
theorem DiscoveryInv.frame (h : DiscoveryInv protocol es i conn)
    (hout : ∀ e ∈ out, e.connection ≠ i) : DiscoveryInv protocol (es ++ out) i conn := by
  have hon : onConnection i (es ++ out) = onConnection i es := by
    rw [onConnection_append, onConnection_eq_nil hout, List.append_nil]
  have hids : processedIds i (es ++ out) = processedIds i es := by
    rw [processedIds_append, processedIds_eq_nil hout, List.append_nil]
  refine ⟨?_, h.cleared, ?_, h.pending, hids ▸ h.nodup, hids ▸ h.seen, h.room⟩
  · simpa only [LastDiscovered, hon] using h.tools
  · simpa only [AcceptedBy, DiscoveredThenInvoked, hon] using h.accepted

/-- The messages of a connection whose ids were checked, after one more. -/
theorem DiscoveryInv.seen_insert (h : DiscoveryInv protocol es i conn) {messageId : UUID}
    (hfresh : messageId ∉ conn.seenMessageIds)
    (hroom : conn.seenMessageIds.card < maxMessagesPerConnection)
    (hids : processedIds i out = [messageId])
    (hseen : conn'.seenMessageIds = insert messageId conn.seenMessageIds) :
    (processedIds i (es ++ out)).Nodup ∧
      (processedIds i (es ++ out)).toFinset = conn'.seenMessageIds ∧
      conn'.seenMessageIds.card ≤ maxMessagesPerConnection := by
  have hnot : messageId ∉ processedIds i es := by
    intro hmem
    rw [← h.seen] at hfresh
    exact hfresh (List.mem_toFinset.2 hmem)
  refine ⟨?_, ?_, ?_⟩
  · rw [processedIds_append, hids]
    exact h.nodup.append (List.nodup_singleton _) (by simpa using hnot)
  · rw [processedIds_append, hids, List.toFinset_append, h.seen, hseen]
    ext id
    simp
  · rw [hseen, Finset.card_insert_of_notMem hfresh]
    exact hroom

/-- The invoked tool was discovered by the message before. -/
theorem DiscoveryInv.invoked (h : DiscoveryInv protocol es i conn)
    (hbefore : conn.task = .receiving) {invocation : ToolInvocationPayload}
    (hfound : invocation.toolName ∈ conn.discoveredTools) {raw : Str}
    (henvelope : protocol.messageEnvelope raw = some envelope)
    (hinvocation : IsInvocation protocol envelope invocation) :
    DiscoveredThenInvoked protocol (es ++ [.received i raw, .processed i envelope.messageId]) i
      envelope.messageId invocation := by
  rcases h.tools (by simp [Leaving, hbefore]) with hnil | ⟨toolName, htools, hlast⟩
  · rw [hnil] at hfound
    cases hfound
  rw [htools] at hfound
  obtain rfl := List.mem_singleton.1 hfound
  obtain ⟨pre, raw₁, envelope₁, henvelope₁, hdiscovery, hon⟩ := hlast
  refine ⟨pre, raw₁, envelope₁, raw, envelope, henvelope₁, hdiscovery, henvelope, hinvocation, rfl,
    ?_⟩
  have hnew : onConnection i [.received i raw, .processed i envelope.messageId] =
      [.received i raw, .processed i envelope.messageId] :=
    onConnection_eq_self (by simp [Event.connection])
  rw [onConnection_append, hon, hnew, List.append_assoc]
  rfl

/-- What an event needs of the events before it. -/
def DiscoveryOk (protocol : Protocol) (pre : List Event) : Event → Prop
  | .started i execution _ =>
    (execution.prepared.definition.permission = .safe → execution.source = .message) ∧
      (execution.source = .message →
        execution.prepared.definition.name = execution.invocation.toolName ∧
          DiscoveredThenInvoked protocol pre i execution.correlationId execution.invocation)
  | .issued i record => ∃ messageId invocation, record.toolName = invocation.toolName ∧
    DiscoveredThenInvoked protocol pre i messageId invocation
  | .processed i messageId => .processed i messageId ∉ pre
  | _ => True

theorem AcceptedBy.discoveryOk {execution : Execution} (h : AcceptedBy protocol es i execution)
    (healthy : Bool) : DiscoveryOk protocol es (.started i execution healthy) := by
  rcases h with ⟨hsource, hname, hinvoked⟩ | ⟨id, hsource, hpermission⟩
  · exact ⟨fun _ => hsource, fun _ => ⟨hname, hinvoked⟩⟩
  · refine ⟨fun hsafe => ?_, fun hmessage => ?_⟩
    · rw [hpermission] at hsafe
      cases hsafe
    · rw [hsource] at hmessage
      cases hmessage

/-- A message whose id is new, after what was done with it. -/
theorem DiscoveryInv.dispatched (h : DiscoveryInv protocol es i conn) {raw : Str}
    (hbefore : conn.task = .receiving) (henvelope : protocol.messageEnvelope raw = some envelope)
    (hfresh : envelope.messageId ∉ conn.seenMessageIds)
    (hdispatched : Dispatched protocol registry i conn envelope conn' out) :
    Machine.AtEach (fun pre => DiscoveryOk protocol (es ++ pre))
        (.received i raw :: .processed i envelope.messageId :: out) ∧
      (conn'.discoveredTools = [] ∨ ∃ toolName, conn'.discoveredTools = [toolName] ∧
        LastDiscovered protocol (es ++ .received i raw :: .processed i envelope.messageId :: out) i
          toolName) ∧
      ∀ execution, conn'.task = .sendingAccepted execution → conn'.discoveredTools = [] ∧
        AcceptedBy protocol (es ++ .received i raw :: .processed i envelope.messageId :: out) i
          execution := by
  have hnew : Event.processed i envelope.messageId ∉ es := by
    rw [← mem_processedIds]
    intro hmem
    rw [← h.seen] at hfresh
    exact hfresh (List.mem_toFinset.2 hmem)
  have hchecked : ∀ {out : List Event}, Machine.AtEach (fun pre => DiscoveryOk protocol
      (es ++ .received i raw :: .processed i envelope.messageId :: pre)) out →
      Machine.AtEach (fun pre => DiscoveryOk protocol (es ++ pre))
        (.received i raw :: .processed i envelope.messageId :: out) := by
    intro out hout
    refine Machine.atEach_cons trivial (Machine.atEach_cons ?_ hout)
    simpa [DiscoveryOk] using hnew
  cases hdispatched with
  | discovered hdiscovery htools htask =>
    refine ⟨hchecked (Machine.atEach_cons trivial Machine.atEach_nil), Or.inr ⟨_, htools, ?_⟩,
      fun execution hexecution => absurd hexecution (htask execution)⟩
    refine ⟨onConnection i es, raw, envelope, henvelope, hdiscovery, ?_⟩
    rw [onConnection_append]
    congr 1
    exact onConnection_eq_self (by simp [Event.connection])
  | accepted hadmitted hfound hsource htools htask =>
    refine ⟨hchecked Machine.atEach_nil, Or.inl htools, fun execution hexecution => ⟨htools, ?_⟩⟩
    rw [htask] at hexecution
    obtain rfl := Task.sendingAccepted.inj hexecution
    have hinvoked := h.invoked hbefore hfound henvelope hadmitted.isInvocation
    exact Or.inl ⟨hsource, (ToolRegistry.preflight_ok hadmitted.preflight).1,
      hadmitted.messageId_eq ▸ hinvoked⟩
  | issued hinvocation hfound hrecord htools htask =>
    have hinvoked := h.invoked hbefore hfound henvelope hinvocation
    exact ⟨hchecked (Machine.atEach_cons ⟨_, _, hrecord, hinvoked⟩ Machine.atEach_nil), Or.inl htools,
      fun execution hexecution => absurd hexecution (htask execution)⟩
  | refused htools htask =>
    exact ⟨hchecked Machine.atEach_nil, Or.inl htools,
      fun execution hexecution => absurd hexecution (htask execution)⟩
  | consumed hget htools htask =>
    refine ⟨hchecked (Machine.atEach_cons trivial Machine.atEach_nil), Or.inl htools,
      fun execution hexecution => ⟨htools, ?_⟩⟩
    rw [htask] at hexecution
    obtain rfl := Task.sendingAccepted.inj hexecution
    exact Or.inr ⟨_, rfl, h.pending _ _ hget⟩

/-- The events after which the ids that were seen are the same. -/
theorem DiscoveryInv.of_seen_eq (h : DiscoveryInv protocol es i conn)
    (hids : processedIds i out = []) (hseen : conn'.seenMessageIds = conn.seenMessageIds)
    (htools : ¬ Leaving conn' → conn'.discoveredTools = [] ∨ ∃ toolName,
      conn'.discoveredTools = [toolName] ∧ LastDiscovered protocol (es ++ out) i toolName)
    (htask : NotAccepted conn') (hpending : PendingConfirm conn') :
    DiscoveryInv protocol (es ++ out) i conn' where
  tools := htools
  cleared := fun execution hexecution => absurd hexecution (htask execution)
  accepted := fun execution hexecution => absurd hexecution (htask execution)
  pending := hpending
  nodup := by simpa [hids] using h.nodup
  seen := by simpa [hids, hseen] using h.seen
  room := hseen ▸ h.room

/-- The connection after a step, and the events of the step. -/
theorem DiscoveryInv.scanned (h : DiscoveryInv protocol es i conn)
    (hscanned : Scanned protocol registry i conn conn' out) :
    DiscoveryInv protocol (es ++ out) i conn' ∧
      Machine.AtEach (fun pre => DiscoveryOk protocol (es ++ pre)) out := by
  have hpending := hscanned.pendingConfirm h.pending
  cases hscanned with
  | refused htask htools hseen _ =>
    refine ⟨h.of_seen_eq rfl hseen (fun hstay => ?_) htask hpending,
      Machine.atEach_cons trivial Machine.atEach_nil⟩
    exact Or.inl (htools.resolve_right hstay)
  | @dispatched raw envelope out hbefore henvelope hfresh hroom hseen _ hdispatched =>
    obtain ⟨hevents, htools, haccepted⟩ := h.dispatched hbefore henvelope hfresh hdispatched
    have hids : processedIds i (.received i raw :: .processed i envelope.messageId :: out) =
        [envelope.messageId] := by
      cases hdispatched <;> simp [processedIds]
    obtain ⟨hnodup, hseen', hroom'⟩ := h.seen_insert hfresh hroom hids hseen
    exact ⟨⟨fun _ => htools, fun execution he => (haccepted execution he).1,
      fun execution he => (haccepted execution he).2, hpending, hnodup, hseen', hroom'⟩, hevents⟩
  | resumed hresumed =>
    cases hresumed with
    | awaited hawaited =>
      refine ⟨h.of_seen_eq rfl hawaited.seenMessageIds (fun hstay => ?_) hawaited.notAccepted
        hpending, Machine.atEach_nil⟩
      rw [hawaited.discoveredTools, List.append_nil]
      exact h.tools fun hleaving => hstay (hawaited.leaving hleaving)
    | started hbefore hawaited =>
      refine ⟨h.of_seen_eq rfl hawaited.seenMessageIds (fun _ => Or.inl ?_) hawaited.notAccepted
        hpending, Machine.atEach_cons ?_ Machine.atEach_nil⟩
      · rw [hawaited.discoveredTools]
        exact h.cleared _ hbefore
      · rw [List.append_nil]
        exact (h.accepted _ hbefore).discoveryOk _

theorem Scanned.connection_eq (h : Scanned protocol registry i conn conn' out) :
    ∀ e ∈ out, e.connection = i := by
  cases h with
  | refused => simp [Event.connection]
  | dispatched _ _ _ _ _ _ hdispatched => cases hdispatched <;> simp [Event.connection]
  | resumed hresumed => cases hresumed <;> simp [Event.connection]

end Invariant
section Runs

variable {protocol : Protocol} {crypto : Crypto} {maxMessageBytes : ℕ} {s s' : System}
  {es out : List Event} {a : Action} {registry : ToolRegistry}

/-- Every connection, and those that were not opened. -/
structure AllDiscovered (protocol : Protocol) (s : System) (es : List Event) : Prop where
  opened : ∀ i conn, s.connections i = some conn → DiscoveryInv protocol es i conn
  unopened : ∀ i, s.connections i = none → ∀ e ∈ es, e.connection ≠ i
  events : Machine.AtEach (DiscoveryOk protocol) es

theorem discoveryInv_opened {i : ℕ} (principal : AuthenticatedPrincipal)
    (hnone : ∀ e ∈ es, e.connection ≠ i) :
    DiscoveryInv protocol (es ++ [.connected i principal]) i (.opened principal) := by
  have hids : processedIds i (es ++ [.connected i principal]) = [] := by
    rw [processedIds_append, processedIds_eq_nil hnone]
    rfl
  refine ⟨fun _ => Or.inl rfl, ?_, ?_, ?_, ?_, ?_, ?_⟩
  · simp [Connection.opened]
  · simp [Connection.opened]
  · simp [Connection.opened, PendingConfirm]
  · simp [hids]
  · simp [hids, Connection.opened]
  · simp [Connection.opened]

/-- A step of connection `i`, seen by all connections. -/
theorem AllDiscovered.update (h : AllDiscovered protocol s es) {i : ℕ} {conn : Connection}
    {s' : System} (hs : s'.connections = Function.update s.connections i (some conn))
    (hconn : DiscoveryInv protocol (es ++ out) i conn) (hout : ∀ e ∈ out, e.connection = i)
    (hevents : Machine.AtEach (fun pre => DiscoveryOk protocol (es ++ pre)) out) :
    AllDiscovered protocol s' (es ++ out) := by
  refine ⟨fun j other hj => ?_, fun j hj e he => ?_, Machine.atEach_append h.events hevents⟩
  · rw [hs] at hj
    rcases Machine.update_eq_some_iff.1 hj with ⟨rfl, heq⟩ | ⟨hne, hj⟩
    · obtain rfl := Option.some.inj heq
      exact hconn
    · refine (h.opened j other hj).frame fun e he => ?_
      rw [hout e he]
      exact hne.symm
  · rw [hs] at hj
    by_cases hij : j = i
    · simp [hij] at hj
    · rw [Function.update_of_ne hij] at hj
      rcases List.mem_append.1 he with he | he
      · exact h.unopened j hj e he
      · rw [hout e he]
        exact fun heq => hij heq.symm

theorem AllDiscovered.step (h : AllDiscovered protocol s es)
    (hs : WebSocket.step protocol crypto maxMessageBytes s a = some (s', out)) :
    AllDiscovered protocol s' (es ++ out) := by
  rcases step_eq_some hs with ⟨i, principal, hnone, rfl, rfl⟩ | ⟨healthy, rfl, rfl⟩ |
    ⟨i, conn, outcome, hi, hconn, hreact, happly⟩
  · exact h.update rfl (discoveryInv_opened principal (h.unopened i hnone))
      (by simp [Event.connection]) (Machine.atEach_cons trivial Machine.atEach_nil)
  · rw [List.append_nil]
    exact ⟨h.opened, h.unopened, h.events⟩
  · cases happly
    have hinv := h.opened i conn hconn
    have hscanned := scanned_react hi hreact
    obtain ⟨hinv', hevents⟩ := hinv.scanned hscanned
    exact h.update rfl hinv' hscanned.connection_eq hevents

theorem reaches_allDiscovered
    (h : Machine.Reaches (step protocol crypto maxMessageBytes) Machine.anyStep
      (System.initial registry) s es) : AllDiscovered protocol s es := by
  refine h.invariant ⟨?_, ?_, Machine.atEach_nil⟩ fun _ _ _ _ _ hinv _ hs => hinv.step hs
  · simp [System.initial]
  · simp

/-- An event that needs the authority of a discovery: a handler is started, or an approval is issued,
for an invocation. -/
def Event.Authorises (i : ℕ) : Event → Prop
  | .started j execution _ => j = i ∧ execution.source = .message
  | .issued j _ => j = i
  | _ => False

/-- The last two messages before such an event. -/
theorem DiscoveryOk.discoveredThenInvoked {pre : List Event} {e : Event} {i : ℕ}
    (h : DiscoveryOk protocol pre e) (he : e.Authorises i) :
    ∃ messageId invocation, DiscoveredThenInvoked protocol pre i messageId invocation := by
  cases e with
  | started j execution healthy =>
    obtain ⟨rfl, hsource⟩ := he
    exact ⟨_, _, (h.2 hsource).2⟩
  | issued j record =>
    obtain rfl : j = i := he
    obtain ⟨messageId, invocation, -, hinvoked⟩ := h
    exact ⟨_, _, hinvoked⟩
  | _ => exact he.elim

theorem Event.Authorises.connection_eq {e : Event} {i : ℕ} (he : e.Authorises i) :
    e.connection = i := by
  cases e with
  | started j execution healthy => exact he.1
  | issued j record => exact he
  | _ => exact he.elim

/-- The discovery of an invocation comes after every event that an earlier discovery has
authorised. -/
theorem DiscoveredThenInvoked.discovered_mem {pre mid : List Event} {e : Event} {i : ℕ}
    {messageId : UUID} {invocation : ToolInvocationPayload} (he : e.Authorises i)
    (h : DiscoveredThenInvoked protocol (pre ++ e :: mid) i messageId invocation) :
    .discovered i invocation.toolName ∈ mid := by
  obtain ⟨pre', raw₁, envelope₁, raw₂, envelope₂, -, -, -, -, -, hon⟩ := h
  have hmid : onConnection i (pre ++ e :: mid) =
      (onConnection i pre ++ [e]) ++ onConnection i mid := by
    simp [onConnection, he.connection_eq]
  rw [hmid] at hon
  have hafter : Event.discovered i invocation.toolName ∈ onConnection i mid := by
    rcases List.append_eq_append_iff.1 hon with ⟨rest, -, hrest⟩ | ⟨rest, hrest, hlast⟩
    · rw [hrest]
      simp
    -- `e` is none of the last five events, so these are all after it
    rcases List.eq_nil_or_concat rest with rfl | ⟨rest', e', rfl⟩
    · rw [← List.nil_append (onConnection i mid), ← hlast]
      simp
    · obtain rfl : e = e' := by
        rw [List.concat_eq_append, ← List.append_assoc] at hrest
        exact (List.append_inj' hrest rfl).2 |> List.singleton_inj.1
      have hmem : e ∈ [.received i raw₁, .processed i envelope₁.messageId,
          .discovered i invocation.toolName, .received i raw₂, .processed i messageId] := by
        rw [hlast]
        simp
      simp only [List.mem_cons, List.not_mem_nil, or_false] at hmem
      rcases hmem with rfl | rfl | rfl | rfl | rfl <;> exact he.elim
  exact (List.mem_filter.1 hafter).1

/-- **A tool runs only after its discovery.** A handler of a SAFE tool is started only by an
invocation that came right after the discovery of the tool, a discovery authorises one invocation,
and a connection processes at most 64 messages, with different ids. -/
theorem safe_start_needs_discovery
    (h : Machine.Reaches (step protocol crypto maxMessageBytes) Machine.anyStep
      (System.initial registry) s es) :
    Machine.AtEach (DiscoveryOk protocol) es ∧
    (∀ i pre e mid e' post, es = pre ++ e :: mid ++ e' :: post → e.Authorises i →
      e'.Authorises i → ∃ toolName, .discovered i toolName ∈ mid) ∧
    ∀ i, (processedIds i es).Nodup ∧ (processedIds i es).length ≤ maxMessagesPerConnection := by
  have hinv := reaches_allDiscovered h
  refine ⟨hinv.events, ?_, fun i => ?_⟩
  · rintro i pre e mid e' post rfl he he'
    obtain ⟨messageId, invocation, hinvoked⟩ :=
      (hinv.events (pre ++ e :: mid) e' post rfl).discoveredThenInvoked he'
    exact ⟨_, hinvoked.discovered_mem he⟩
  · cases hconn : s.connections i with
    | none =>
      rw [processedIds_eq_nil (hinv.unopened i hconn)]
      simp
    | some conn =>
      have hopened := hinv.opened i conn hconn
      refine ⟨hopened.nodup, ?_⟩
      rw [← List.toFinset_card_of_nodup hopened.nodup, hopened.seen]
      exact hopened.room

/-- The tool that reads what the Hub's machine is. It takes no argument. -/
def systemInfoTool : ToolDefinition where
  objectId := 1
  name := "mac.system_info".toList
  permission := .safe
  inputModel arguments := if arguments.isEmpty then some (.object []) else none

def systemInfoRegistry : ToolRegistry where
  tools := Dict.empty.set systemInfoTool.name systemInfoTool
  healthy _ := true
  names name definition h := by
    rw [Dict.get?_set] at h
    split at h
    · cases h
      assumption
    · simp at h

def systemInfoDiscovery : List (Str × Json) := [("toolName".toList, .str systemInfoTool.name)]

def systemInfoInvocation : List (Str × Json) :=
  [("toolName".toList, .str systemInfoTool.name), ("arguments".toList, .object [])]

/-- The protocol models on these messages. -/
def systemInfoProtocol : Protocol where
  messageEnvelope raw :=
    if raw = messageText 1 "CapabilityDiscoveryRequest" systemInfoDiscovery then
      some ⟨1, .capabilityDiscoveryRequest, systemInfoDiscovery⟩
    else if raw = messageText 2 "ToolInvocation" systemInfoInvocation then
      some ⟨2, .toolInvocation, systemInfoInvocation⟩
    else none
  capabilityDiscoveryRequestPayload payload :=
    if (Json.object payload).dumps = (Json.object systemInfoDiscovery).dumps then
      some systemInfoTool.name
    else none
  toolInvocationPayload payload :=
    if (Json.object payload).dumps = (Json.object systemInfoInvocation).dumps then
      some ⟨systemInfoTool.name, [], none⟩
    else none
  approvalResponsePayload _ := none

def systemInfoRun : List Action :=
  [.connect 0 devicePrincipal,
    .receive 0 (messageText 1 "CapabilityDiscoveryRequest" systemInfoDiscovery) ⟨98, 0, 0, 0⟩,
    .send 0 true,
    .receive 0 (messageText 2 "ToolInvocation" systemInfoInvocation) ⟨99, 1000, 1000, 1000⟩,
    .send 0 true]

/-- The phone discovers the tool and invokes it. -/
theorem discovered_system_info_starts : ∃ s es pre execution healthy post,
    Machine.Reaches (step systemInfoProtocol deviceCrypto 65536) Machine.anyStep
        (System.initial systemInfoRegistry) s es ∧
      es = pre ++ .started 0 execution healthy :: post ∧
      execution.prepared.definition.permission = .safe ∧
      DiscoveredThenInvoked systemInfoProtocol pre 0 execution.correlationId
        execution.invocation := by
  have hrun : (Machine.run (step systemInfoProtocol deviceCrypto 65536)
      (System.initial systemInfoRegistry) systemInfoRun).map (fun r => starts r.2) =
      some [(0, .message, .safe)] := by
    decide +kernel
  obtain ⟨⟨s, es⟩, hs, hstarts⟩ := Option.map_eq_some_iff.1 hrun
  have hreach := Machine.run_reaches hs
  have hmem : (0, Source.message, PermissionLevel.safe) ∈ starts es := by
    rw [hstarts]
    exact List.mem_singleton_self _
  obtain ⟨pre, execution, healthy, post, rfl, hsource, hsafe⟩ := started_of_mem_starts hmem
  have hok := (safe_start_needs_discovery hreach).1 pre _ post rfl
  exact ⟨s, _, pre, execution, healthy, post, hreach, rfl, hsafe, (hok.2 hsource).2⟩

end Runs

end GoffyHub.WebSocket
