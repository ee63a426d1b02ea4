import GoffyOs.Hub.LiveAccess
import Mathlib.Data.Rat.Init

/-!
# MCP sessions

An `initialize` request of the MCP endpoint (`goffy_hub/mcp_server.py`) passes two layers. The
session manager (`GoffyStreamableHTTPSessionManager`) lets the SDK open a session and then
authenticates the token of the request once more; `terminate_client` takes the sessions of a client
out of the manager, for a stale request or for a handler that has revoked or rotated the credential.
Around it `_BoundedHttpMessageMiddleware` counts sessions: it reserves a slot before the request and
records the session after it. `terminate_client` gives the slots of its sessions back by calling
into the middleware.

* `Middleware` and `Manager` hold the fields of the two objects, with their methods;
* a step of the system is what a request or a handler does between two awaits;
* the SDK opens at most one session for a request. Its id is a fresh UUID, and so sessions are named
  by the request that opened them. It enters the session in both dictionaries of the manager at once;
* `time` counts steps, while `now` is a reading of the clock of the event loop.
-/

namespace GoffyHub.McpSessions

open Python
open Approval (Crypto)
open Credentials (CredentialTable IssueArgs)
open LiveAccess (ChangeKind)

/-! ### The middleware -/

/-- The settings of `_BoundedHttpMessageMiddleware` that sessions depend on. -/
structure Settings where
  maxActiveSessions : ℕ
  sessionIdleTimeoutSeconds : ℚ

/-- The fields of `_BoundedHttpMessageMiddleware`. -/
structure Middleware where
  activeSessions : Dict ℕ ℚ
  streamingSessionCounts : Dict ℕ ℤ
  pendingSessions : ℤ

namespace Middleware

def empty : Middleware := ⟨Dict.empty, Dict.empty, 0⟩

/-- `_prune_idle_sessions`. -/
def pruneIdleSessions (settings : Settings) (now : ℚ) (mw : Middleware) : Middleware :=
  let cutoff := now - settings.sessionIdleTimeoutSeconds
  { mw with activeSessions := mw.activeSessions.filter fun sessionId lastActivity =>
      !(lastActivity ≤ cutoff && (mw.streamingSessionCounts.get? sessionId).isNone) }

/-- `_reserve_session_slot`. -/
def reserveSessionSlot (settings : Settings) (now : ℚ) (mw : Middleware) : Middleware × Bool :=
  let mw := mw.pruneIdleSessions settings now
  if mw.activeSessions.size + mw.pendingSessions ≥ settings.maxActiveSessions then (mw, false)
  else ({ mw with pendingSessions := mw.pendingSessions + 1 }, true)

/-- `_release_session_reservation`. -/
def releaseSessionReservation (mw : Middleware) : Middleware :=
  { mw with pendingSessions := mw.pendingSessions - 1 }

/-- `_complete_session_reservation`. -/
def completeSessionReservation (now : ℚ) (sessionId : Option ℕ) (mw : Middleware) : Middleware :=
  let mw := mw.releaseSessionReservation
  match sessionId with
  | none => mw
  | some sessionId => { mw with activeSessions := mw.activeSessions.set sessionId now }

/-- `_touch_session`. -/
def touchSession (now : ℚ) (sessionId : ℕ) (mw : Middleware) : Middleware :=
  if (mw.activeSessions.get? sessionId).isSome then
    { mw with activeSessions := mw.activeSessions.set sessionId now }
  else mw

/-- `_remove_session`. -/
def removeSession (mw : Middleware) (sessionId : ℕ) : Middleware :=
  { mw with
    activeSessions := mw.activeSessions.pop sessionId
    streamingSessionCounts := mw.streamingSessionCounts.pop sessionId }

/-- `remove_sessions`. -/
def removeSessions (mw : Middleware) (sessionIds : List ℕ) : Middleware :=
  sessionIds.foldl removeSession mw

/-- `_mark_session_streaming`. -/
def markSessionStreaming (sessionId : ℕ) (increment : ℤ) (mw : Middleware) : Middleware :=
  let count := (mw.streamingSessionCounts.get? sessionId).getD 0 + increment
  { mw with streamingSessionCounts :=
      if count > 0 then mw.streamingSessionCounts.set sessionId count
      else mw.streamingSessionCounts.pop sessionId }

@[simp] theorem releaseSessionReservation_activeSessions (mw : Middleware) :
    mw.releaseSessionReservation.activeSessions = mw.activeSessions := rfl

@[simp] theorem markSessionStreaming_activeSessions (sessionId : ℕ) (increment : ℤ)
    (mw : Middleware) :
    (mw.markSessionStreaming sessionId increment).activeSessions = mw.activeSessions := rfl

/-- A reservation prunes sessions and adds none. -/
theorem get?_reserveSessionSlot {settings : Settings} {now : ℚ} {mw : Middleware} {sessionId : ℕ}
    (h : mw.activeSessions.get? sessionId = none) :
    (mw.reserveSessionSlot settings now).1.activeSessions.get? sessionId = none := by
  have hprune : (mw.pruneIdleSessions settings now).activeSessions.get? sessionId = none := by
    simp [pruneIdleSessions, Dict.get?_filter, h]
  unfold reserveSessionSlot
  simp only
  split <;> exact hprune

theorem get?_completeSessionReservation {now : ℚ} {sessionId' : Option ℕ} {mw : Middleware}
    {sessionId : ℕ} (h : mw.activeSessions.get? sessionId = none)
    (hne : sessionId' ≠ some sessionId) :
    (mw.completeSessionReservation now sessionId').activeSessions.get? sessionId = none := by
  unfold completeSessionReservation
  cases sessionId' with
  | none => exact h
  | some id =>
    have hid : id ≠ sessionId := fun heq => hne (congrArg some heq)
    simp [Dict.get?_set, hid, h]

/-- Touching a session adds none. -/
theorem get?_touchSession {now : ℚ} {sessionId' : ℕ} {mw : Middleware} {sessionId : ℕ}
    (h : mw.activeSessions.get? sessionId = none) :
    (mw.touchSession now sessionId').activeSessions.get? sessionId = none := by
  unfold touchSession
  split
  · rename_i hsome
    have hne : sessionId' ≠ sessionId := by
      rintro rfl
      rw [h] at hsome
      cases hsome
    simp [Dict.get?_set, hne, h]
  · exact h

theorem get?_removeSession {sessionId' : ℕ} {mw : Middleware} {sessionId : ℕ} :
    (mw.removeSession sessionId').activeSessions.get? sessionId =
      if sessionId' = sessionId then none else mw.activeSessions.get? sessionId := Dict.get?_pop

theorem get?_removeSessions {ids : List ℕ} {mw : Middleware} {sessionId : ℕ} :
    (mw.removeSessions ids).activeSessions.get? sessionId =
      if sessionId ∈ ids then none else mw.activeSessions.get? sessionId := by
  unfold removeSessions
  induction ids generalizing mw with
  | nil => simp
  | cons id ids ih =>
    rw [List.foldl_cons, ih, get?_removeSession]
    by_cases hid : sessionId = id
    · simp [hid]
    · by_cases hmem : sessionId ∈ ids <;> simp [hid, hmem, Ne.symm hid]

end Middleware

/-! ### The session manager -/

/-- The dictionaries of the session manager. -/
structure Manager where
  serverInstances : Finset ℕ
  sessionOwners : Dict ℕ Str

namespace Manager

def empty : Manager := ⟨∅, Dict.empty⟩

/-- The SDK opens a session. -/
def openSession (m : Manager) (sessionId : ℕ) (clientId : Str) : Manager where
  serverInstances := insert sessionId m.serverInstances
  sessionOwners := m.sessionOwners.set sessionId clientId

/-- The sessions that `terminate_client` removes. -/
def sessionsOf (m : Manager) (clientId : Str) : List ℕ :=
  (m.sessionOwners.entries.filter fun entry => entry.2 = clientId).map Prod.fst

/-- What `terminate_client` does to the dictionaries, under `_session_creation_lock`. -/
def removeClient (m : Manager) (clientId : Str) : Manager where
  serverInstances := m.serverInstances.filter (· ∉ m.sessionsOf clientId)
  sessionOwners := m.sessionOwners.filter fun sessionId _ => sessionId ∉ m.sessionsOf clientId

/-- A session ends by itself, or `remove_terminated_session` removes it. -/
def endSession (m : Manager) (sessionId : ℕ) : Manager where
  serverInstances := m.serverInstances.erase sessionId
  sessionOwners := m.sessionOwners.pop sessionId

theorem mem_sessionsOf {m : Manager} {sessionId : ℕ} {clientId : Str} :
    sessionId ∈ m.sessionsOf clientId ↔ m.sessionOwners.get? sessionId = some clientId := by
  simp [sessionsOf, Dict.get?_eq_some_iff]

theorem mem_removeClient {m : Manager} {sessionId : ℕ} {clientId : Str} :
    sessionId ∈ (m.removeClient clientId).serverInstances ↔
      sessionId ∈ m.serverInstances ∧ m.sessionOwners.get? sessionId ≠ some clientId := by
  simp [removeClient, mem_sessionsOf]

theorem get?_removeClient {m : Manager} {sessionId : ℕ} {clientId : Str}
    (h : m.sessionOwners.get? sessionId ≠ some clientId) :
    (m.removeClient clientId).sessionOwners.get? sessionId = m.sessionOwners.get? sessionId := by
  simp only [removeClient, Dict.get?_filter, mem_sessionsOf, h, not_false_eq_true, decide_true]
  cases m.sessionOwners.get? sessionId <;> rfl

end Manager

/-! ### Requests and handlers -/

/-- Where an `initialize` request stands, named by what has happened. `accepted` says whether its
response has status 200 and names the session. -/
inductive Phase
  | authenticated
  /-- there was no slot, status 503 -/
  | rejected
  | reserved
  /-- the SDK has opened the session -/
  | opened
  /-- `super().handle_request` has returned -/
  | responded (accepted : Bool)
  /-- the second authentication has failed -/
  | stale (accepted : Bool)
  /-- `terminate_client` has taken these sessions out of the manager -/
  | terminating (accepted : Bool) (sessionIds : List ℕ)
  /-- the session manager's `handle_request` has returned -/
  | checked (accepted : Bool)
  | completed
  /-- an exception or a cancellation is on its way through the middleware -/
  | releasing
  | aborted
  deriving DecidableEq

/-- An `initialize` request that has passed `RequireAuthMiddleware`. -/
structure Request where
  token : Str
  clientId : Str
  authAt : ℕ
  /-- when the token was last accepted -/
  acceptedAt : ℕ
  phase : Phase
  deriving DecidableEq

/-- A handler whose change is committed: before `terminate_client` takes the sessions out, or
before it calls the middleware back. -/
inductive Change
  | committed (kind : ChangeKind) (c : UUID) (commitAt : ℕ)
  | terminating (kind : ChangeKind) (c : UUID) (commitAt : ℕ) (sessionIds : List ℕ)
  deriving DecidableEq

structure System where
  time : ℕ
  store : CredentialTable
  manager : Manager
  middleware : Middleware
  requests : ℕ → Option Request
  changes : ℕ → Option Change

def System.initial (store : CredentialTable) : System :=
  ⟨0, store, Manager.empty, Middleware.empty, fun _ => none, fun _ => none⟩

inductive Action
  | authenticate (i : ℕ) (token : Str) (fault : Fault)
  | reserve (i : ℕ) (now : ℚ)
  /-- the SDK opens the session -/
  | openSession (i : ℕ)
  /-- the SDK's `handle_request` returns -/
  | respond (i : ℕ) (accepted : Bool)
  | reauthenticate (i : ℕ) (fault : Fault)
  /-- the first part of `terminate_client`, for a stale request -/
  | terminateStale (i : ℕ)
  /-- the rest of `terminate_client`, with the callback -/
  | callbackStale (i : ℕ)
  | complete (i : ℕ) (now : ℚ)
  /-- an exception or a cancellation inside the session manager -/
  | abort (i : ℕ)
  | release (i : ℕ)
  /-- a cancellation before the slot is reserved. Nothing is awaited under the lock of the middleware,
  so it is free whenever a request asks for it, and no request is cancelled there -/
  | cancel (i : ℕ)
  | issue (args : IssueArgs) (accessToken : Str) (credentialId : UUID) (now : DateTime)
      (fault : Fault)
  | revoke (j : ℕ) (c : UUID) (now : DateTime) (fault : Fault)
  | rotate (j : ℕ) (c : UUID) (currentAccessToken newAccessToken : Str) (now : DateTime)
      (fault : Fault)
  /-- the first part of `terminate_client`, for a handler -/
  | terminateClient (j : ℕ)
  /-- the rest of `terminate_client`, with the callback -/
  | callbackClient (j : ℕ)
  /-- `terminate_client` raises before the callback -/
  | failClient (j : ℕ)
  | endSession (sessionId : ℕ)
  /-- `_remove_session`, after `remove_terminated_session` has found the session gone -/
  | removeSession (sessionId : ℕ)
  | touchSession (sessionId : ℕ) (now : ℚ)
  | markSessionStreaming (sessionId : ℕ) (increment : ℤ)

/-- What a history shows: a change was committed, `terminate_client` has returned for it, or a call
of `terminate_client` that had removed some sessions has returned. -/
inductive Event
  | committed (kind : ChangeKind) (c : UUID) (commitAt : ℕ)
  | completed (kind : ChangeKind) (c : UUID) (commitAt : ℕ)
  | terminated (sessionIds : List ℕ)
  deriving DecidableEq

namespace System

def tick (s : System) : System := { s with time := s.time + 1 }

def setRequest (s : System) (i : ℕ) (r : Request) : System :=
  { s with requests := Function.update s.requests i (some r) }

def setChange (s : System) (j : ℕ) (change : Option Change) : System :=
  { s with changes := Function.update s.changes j change }

theorem setRequest_eq_some {s : System} {i i' : ℕ} {r r' : Request} :
    (s.setRequest i r).requests i' = some r' ↔
      (i' = i ∧ r = r') ∨ (i' ≠ i ∧ s.requests i' = some r') := by
  simp [setRequest, Machine.update_eq_some_iff]

theorem setChange_eq_some {s : System} {j j' : ℕ} {change : Option Change} {ch : Change} :
    (s.setChange j change).changes j' = some ch ↔
      (j' = j ∧ change = some ch) ∨ (j' ≠ j ∧ s.changes j' = some ch) :=
  Machine.update_eq_some_iff

/-- A handler has called the store: when the change was made, it goes on to `terminate_client`. -/
def commit (s : System) (j : ℕ) (kind : ChangeKind) (c : UUID) (store : CredentialTable)
    (changed : Bool) : System × List Event :=
  if changed then
    (({ s with store := store }.setChange j (some (.committed kind c s.time))).tick,
      [.committed kind c s.time])
  else ({ s with store := store }.tick, [])

end System

/-- The token is that of a client, as `handle_request` asks after the session was opened. -/
def accepts (crypto : Crypto) (zone : NaiveDateTime → Except Exn ℤ) (authToken : Option Str)
    (store : CredentialTable) (token clientId : Str) (fault : Fault) : Bool :=
  match Auth.authenticateToken crypto zone authToken (some store) token fault with
  | none => false
  | some current => current.clientId = clientId

/-- The second authentication of a request. -/
def Request.reauthenticate (crypto : Crypto) (zone : NaiveDateTime → Except Exn ℤ)
    (authToken : Option Str) (store : CredentialTable) (time : ℕ) (fault : Fault) (r : Request)
    (accepted : Bool) : Request :=
  if accepts crypto zone authToken store r.token r.clientId fault then
    { r with phase := .checked accepted, acceptedAt := time }
  else { r with phase := .stale accepted }

/-- A request or a handler makes a step. -/
def step (crypto : Crypto) (zone : NaiveDateTime → Except Exn ℤ) (authToken : Option Str)
    (settings : Settings) : Machine.Step System Action Event
  | s, .authenticate i token fault =>
    match s.requests i, Auth.authenticateToken crypto zone authToken (some s.store) token fault with
    | none, some principal =>
      if principal.hasScope Auth.safeToolScope then
        some ((s.setRequest i ⟨token, principal.clientId, s.time, s.time, .authenticated⟩).tick, [])
      else none
    | _, _ => none
  | s, .reserve i now =>
    match s.requests i with
    | some r =>
      if r.phase = .authenticated then
        let (middleware, reserved) := s.middleware.reserveSessionSlot settings now
        some (({ s with middleware := middleware }.setRequest i
          { r with phase := if reserved then .reserved else .rejected }).tick, [])
      else none
    | none => none
  | s, .openSession i =>
    match s.requests i with
    | some r =>
      if r.phase = .reserved then
        some (({ s with manager := s.manager.openSession i r.clientId }.setRequest i
          { r with phase := .opened }).tick, [])
      else none
    | none => none
  | s, .respond i accepted =>
    match s.requests i with
    | some r =>
      if r.phase = .opened ∨ (r.phase = .reserved ∧ accepted = false) then
        some ((s.setRequest i { r with phase := .responded accepted }).tick, [])
      else none
    | none => none
  | s, .reauthenticate i fault =>
    match s.requests i with
    | some r =>
      match r.phase with
      | .responded accepted =>
        some ((s.setRequest i
          (r.reauthenticate crypto zone authToken s.store s.time fault accepted)).tick, [])
      | _ => none
    | none => none
  | s, .terminateStale i =>
    match s.requests i with
    | some r =>
      match r.phase with
      | .stale accepted =>
        some (({ s with manager := s.manager.removeClient r.clientId }.setRequest i
          { r with phase := .terminating accepted (s.manager.sessionsOf r.clientId) }).tick, [])
      | _ => none
    | none => none
  | s, .callbackStale i =>
    match s.requests i with
    | some r =>
      match r.phase with
      | .terminating accepted sessionIds =>
        some (({ s with middleware := s.middleware.removeSessions sessionIds }.setRequest i
          { r with phase := .checked accepted }).tick, [.terminated sessionIds])
      | _ => none
    | none => none
  | s, .complete i now =>
    match s.requests i with
    | some r =>
      match r.phase with
      | .checked accepted =>
        let sessionId := if accepted then some i else none
        some (({ s with middleware := s.middleware.completeSessionReservation now sessionId
          }.setRequest i { r with phase := .completed }).tick, [])
      | _ => none
    | none => none
  | s, .abort i =>
    match s.requests i with
    | some r =>
      match r.phase with
      | .reserved | .opened | .responded _ | .stale _ | .terminating _ _ =>
        some ((s.setRequest i { r with phase := .releasing }).tick, [])
      | _ => none
    | none => none
  | s, .release i =>
    match s.requests i with
    | some r =>
      if r.phase = .releasing then
        some (({ s with middleware := s.middleware.releaseSessionReservation }.setRequest i
          { r with phase := .aborted }).tick, [])
      else none
    | none => none
  | s, .cancel i =>
    match s.requests i with
    | some r =>
      if r.phase = .authenticated then
        some ((s.setRequest i { r with phase := .aborted }).tick, [])
      else none
    | none => none
  | s, .issue args accessToken credentialId now fault =>
    some ({ s with store := (Credentials.issue s.store args accessToken credentialId now
      fault).1 }.tick, [])
  | s, .revoke j c now fault =>
    match s.changes j with
    | some _ => none
    | none =>
      match Credentials.revoke zone s.store c now fault with
      | (store, .ok (some _)) => some (s.commit j .revocation c store true)
      | (store, _) => some (s.commit j .revocation c store false)
  | s, .rotate j c current new now fault =>
    match s.changes j with
    | some _ => none
    | none =>
      match Credentials.rotate zone s.store c current new now fault with
      | (store, .ok (some _)) => some (s.commit j .rotation c store true)
      | (store, _) => some (s.commit j .rotation c store false)
  | s, .terminateClient j =>
    match s.changes j with
    | some (.committed kind c t) =>
      some (({ s with manager := s.manager.removeClient (Auth.pairedClientId c) }.setChange j
        (some (.terminating kind c t (s.manager.sessionsOf (Auth.pairedClientId c))))).tick, [])
    | _ => none
  | s, .callbackClient j =>
    match s.changes j with
    | some (.terminating kind c t sessionIds) =>
      some (({ s with middleware := s.middleware.removeSessions sessionIds }.setChange j none).tick,
        [.terminated sessionIds, .completed kind c t])
    | _ => none
  | s, .failClient j =>
    match s.changes j with
    | some (.terminating _ _ _ _) => some ((s.setChange j none).tick, [])
    | _ => none
  | s, .endSession sessionId =>
    some ({ s with manager := s.manager.endSession sessionId }.tick, [])
  | s, .removeSession sessionId =>
    if sessionId ∉ s.manager.serverInstances then
      some ({ s with middleware := s.middleware.removeSession sessionId }.tick, [])
    else none
  | s, .touchSession sessionId now =>
    some ({ s with middleware := s.middleware.touchSession now sessionId }.tick, [])
  | s, .markSessionStreaming sessionId increment =>
    some ({ s with middleware := s.middleware.markSessionStreaming sessionId increment }.tick, [])

end GoffyHub.McpSessions
