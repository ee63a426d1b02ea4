import GoffyOs.Hub.Auth
import GoffyOs.Lib.Machine
import Mathlib.Data.Finset.Basic

/-!
# Live connections and credential changes

`websocket_endpoint` (`goffy_hub/app.py`) authenticates a connection, accepts it, registers it under
its credential, checks once more that the credential is active, and only then receives messages. The
handlers that revoke and rotate credentials (`goffy_hub/pairing_api.py`) commit the change in the
store and then close the registered connections (`goffy_hub/connections.py`). All of these are
separate awaits, so that they interleave freely.

* `register`, `unregister` and `popConnections` are the methods of `WebSocketConnectionRegistry`;
* a step of the system is what one endpoint or one handler does between two awaits. `Endpoint.move`
  holds the steps that involve nothing but the endpoint and the store;
* a closed socket delivers no text, and the server closes the socket of an endpoint that has
  finished; this is what the Hub relies on in its ASGI server;
* `time` counts steps, and endpoints and changes remember when they were authenticated and committed.
-/

namespace GoffyHub.LiveAccess

open Python
open Approval (Crypto)
open Auth (AuthenticatedPrincipal PrincipalKind)
open Credentials (CredentialTable IssueArgs)

/-! ### The registry of connections -/

/-- `_connections`; connections are named by numbers. -/
abbrev Connections := Dict UUID (Finset ℕ)

/-- The connections that are registered under a credential. -/
def live (connections : Connections) (c : UUID) : Finset ℕ := (connections.get? c).getD ∅

/-- `register`. -/
def register (connections : Connections) (c : UUID) (websocket : ℕ) : Connections :=
  connections.set c (insert websocket (live connections c))

/-- `unregister`. -/
def unregister (connections : Connections) (c : UUID) (websocket : ℕ) : Connections :=
  match connections.get? c with
  | none => connections
  | some websockets =>
    let rest := websockets.erase websocket
    if rest = ∅ then connections.pop c else connections.set c rest

theorem live_register (connections : Connections) (c c' : UUID) (websocket : ℕ) :
    live (register connections c websocket) c' =
      if c = c' then insert websocket (live connections c') else live connections c' := by
  unfold live register
  rw [Dict.get?_set]
  split
  · rename_i h
    subst h
    rfl
  · rfl

theorem live_unregister (connections : Connections) (c c' : UUID) (websocket : ℕ) :
    live (unregister connections c websocket) c' =
      if c = c' then (live connections c').erase websocket else live connections c' := by
  unfold unregister
  by_cases hc : c = c'
  · subst hc
    rw [if_pos rfl]
    cases hget : connections.get? c with
    | none => simp [live, hget]
    | some websockets =>
      have hlive : live connections c = websockets := by simp [live, hget]
      rw [hlive]
      simp only
      split
      · rename_i hempty
        simp [live, Dict.get?_pop, hempty]
      · simp [live, Dict.get?_set]
  · rw [if_neg hc]
    split
    · rfl
    · simp only
      split
      · simp [live, Dict.get?_pop, hc]
      · simp [live, Dict.get?_set, hc]

theorem live_pop (connections : Connections) (c c' : UUID) :
    live (connections.pop c) c' = if c = c' then ∅ else live connections c' := by
  unfold live
  rw [Dict.get?_pop]
  split <;> rfl

/-! ### Endpoints -/

/-- Where an endpoint stands, named by what it has done. -/
inductive Phase
  | authenticated
  | accepted
  | registered
  | rejected
  | unregistered
  | receiving
  | handling
  | finishing
  | exited
  deriving DecidableEq

/-- A run of `websocket_endpoint` that has authenticated its principal. -/
structure Endpoint where
  principal : AuthenticatedPrincipal
  authAt : ℕ
  phase : Phase
  closed : Bool
  paired : ∀ c, principal.credentialId = some c → principal.kind = .paired

/-- What an endpoint does by itself. -/
inductive Move
  /-- `accept` and the audit record after it -/
  | accept
  /-- a principal without a credential goes on to the loop at once -/
  | enter
  /-- the second check, with the audit record of a rejection -/
  | check (fault : Fault)
  /-- `close` after a rejection -/
  | close
  /-- `receive_text` returns a message -/
  | receive
  /-- `receive_text` raises `WebSocketDisconnect` -/
  | disconnect
  /-- the message is handled -/
  | handled
  /-- the loop is left by a return or an exception, possibly after closing the socket -/
  | leave (closes : Bool)
  /-- an exception outside the loop ends the endpoint -/
  | fail

/-- The endpoint after a move, if it can make it. -/
def Endpoint.move (authToken : Option Str) (store : CredentialTable) (e : Endpoint) :
    Move → Option Endpoint
  | .accept => if e.phase = .authenticated then some { e with phase := .accepted } else none
  | .enter =>
    if e.phase = .accepted ∧ e.principal.credentialId = none then
      some { e with phase := .receiving }
    else none
  | .check fault =>
    if e.phase = .registered then
      if Auth.isActive authToken (some store) e.principal fault then
        some { e with phase := .receiving }
      else some { e with phase := .rejected }
    else none
  | .close =>
    if e.phase = .unregistered then some { e with phase := .exited, closed := true } else none
  | .receive =>
    if e.phase = .receiving ∧ e.closed = false then some { e with phase := .handling } else none
  | .disconnect =>
    if e.phase = .receiving then some { e with phase := .finishing, closed := true } else none
  | .handled => if e.phase = .handling then some { e with phase := .receiving } else none
  | .leave closes =>
    if e.phase = .receiving ∨ e.phase = .handling then
      some { e with phase := .finishing, closed := e.closed || closes }
    else none
  | .fail =>
    if e.phase ∈ [.authenticated, .accepted, .registered, .rejected, .unregistered] then
      some { e with phase := .exited, closed := true }
    else none

/-- The endpoint after `unregister`, on the rejection path or in the `finally` block. -/
def Endpoint.afterUnregister (e : Endpoint) : Option Endpoint :=
  if e.phase = .rejected then some { e with phase := .unregistered }
  else if e.phase = .finishing then some { e with phase := .exited, closed := true }
  else none

/-! ### The system -/

/-- The two changes of a credential that close its connections. -/
inductive ChangeKind
  | revocation
  | rotation
  deriving DecidableEq

/-- A handler whose change is committed: it is about to pop the registry, or closing sockets. -/
inductive Change
  | committed (kind : ChangeKind) (c : UUID) (commitAt : ℕ)
  | closing (kind : ChangeKind) (c : UUID) (commitAt : ℕ) (sockets : Finset ℕ)

structure System where
  time : ℕ
  store : CredentialTable
  connections : Connections
  endpoints : ℕ → Option Endpoint
  changes : ℕ → Option Change

def System.initial (store : CredentialTable) : System :=
  ⟨0, store, Dict.empty, fun _ => none, fun _ => none⟩

inductive Action
  | connect (i : ℕ) (authorization : Option Str) (fault : Fault)
  | move (i : ℕ) (m : Move)
  | register (i : ℕ)
  | unregister (i : ℕ)
  | issue (args : IssueArgs) (accessToken : Str) (credentialId : UUID) (now : DateTime)
      (fault : Fault)
  | revoke (j : ℕ) (c : UUID) (now : DateTime) (fault : Fault)
  | rotate (j : ℕ) (c : UUID) (currentAccessToken newAccessToken : Str) (now : DateTime)
      (fault : Fault)
  | popConnections (j : ℕ)
  | closeSocket (j i : ℕ)
  | complete (j : ℕ)

/-- The steps of endpoint `i` itself. -/
def Action.isOwn (i : ℕ) : Action → Bool
  | .move i' _ | .register i' | .unregister i' => i' = i
  | _ => false

/-- What a history shows: a change was committed, its handler's registry call has returned, or
`_handle_message` was entered. -/
inductive Event
  | committed (kind : ChangeKind) (c : UUID) (commitAt : ℕ)
  | completed (kind : ChangeKind) (c : UUID) (commitAt : ℕ)
  | handled (i : ℕ) (credentialId : Option UUID) (authAt : ℕ)
  deriving DecidableEq

/-- A message that was received goes to `_handle_message`. -/
def Move.events (i : ℕ) (e : Endpoint) : Move → List Event
  | .receive => [.handled i e.principal.credentialId e.authAt]
  | _ => []

/-- A step takes time. -/
def System.tick (s : System) : System := { s with time := s.time + 1 }

def System.setEndpoint (s : System) (i : ℕ) (e : Endpoint) : System :=
  { s with endpoints := Function.update s.endpoints i (some e) }

def System.setChange (s : System) (j : ℕ) (change : Option Change) : System :=
  { s with changes := Function.update s.changes j change }

/-- The socket of endpoint `i` is closed from outside. -/
def System.closeEndpoint (s : System) (i : ℕ) : System :=
  match s.endpoints i with
  | none => s
  | some e => s.setEndpoint i { e with closed := true }

@[simp] theorem tick_time (s : System) : s.tick.time = s.time + 1 := rfl
@[simp] theorem tick_store (s : System) : s.tick.store = s.store := rfl
@[simp] theorem tick_connections (s : System) : s.tick.connections = s.connections := rfl
@[simp] theorem tick_endpoints (s : System) : s.tick.endpoints = s.endpoints := rfl
@[simp] theorem tick_changes (s : System) : s.tick.changes = s.changes := rfl

@[simp] theorem setEndpoint_time (s : System) (i : ℕ) (e : Endpoint) :
    (s.setEndpoint i e).time = s.time := rfl
@[simp] theorem setEndpoint_store (s : System) (i : ℕ) (e : Endpoint) :
    (s.setEndpoint i e).store = s.store := rfl
@[simp] theorem setEndpoint_connections (s : System) (i : ℕ) (e : Endpoint) :
    (s.setEndpoint i e).connections = s.connections := rfl
@[simp] theorem setEndpoint_changes (s : System) (i : ℕ) (e : Endpoint) :
    (s.setEndpoint i e).changes = s.changes := rfl

@[simp] theorem setChange_time (s : System) (j : ℕ) (change : Option Change) :
    (s.setChange j change).time = s.time := rfl
@[simp] theorem setChange_store (s : System) (j : ℕ) (change : Option Change) :
    (s.setChange j change).store = s.store := rfl
@[simp] theorem setChange_connections (s : System) (j : ℕ) (change : Option Change) :
    (s.setChange j change).connections = s.connections := rfl
@[simp] theorem setChange_endpoints (s : System) (j : ℕ) (change : Option Change) :
    (s.setChange j change).endpoints = s.endpoints := rfl

@[simp] theorem closeEndpoint_time (s : System) (i : ℕ) : (s.closeEndpoint i).time = s.time := by
  unfold System.closeEndpoint
  split <;> rfl
@[simp] theorem closeEndpoint_store (s : System) (i : ℕ) :
    (s.closeEndpoint i).store = s.store := by
  unfold System.closeEndpoint
  split <;> rfl
@[simp] theorem closeEndpoint_connections (s : System) (i : ℕ) :
    (s.closeEndpoint i).connections = s.connections := by
  unfold System.closeEndpoint
  split <;> rfl
@[simp] theorem closeEndpoint_changes (s : System) (i : ℕ) :
    (s.closeEndpoint i).changes = s.changes := by
  unfold System.closeEndpoint
  split <;> rfl

theorem setEndpoint_eq_some {s : System} {i i' : ℕ} {e e' : Endpoint} :
    (s.setEndpoint i e).endpoints i' = some e' ↔
      (i' = i ∧ e = e') ∨ (i' ≠ i ∧ s.endpoints i' = some e') := by
  simp [System.setEndpoint, Machine.update_eq_some_iff]

theorem setChange_eq_some {s : System} {j j' : ℕ} {change : Option Change} {ch : Change} :
    (s.setChange j change).changes j' = some ch ↔
      (j' = j ∧ change = some ch) ∨ (j' ≠ j ∧ s.changes j' = some ch) :=
  Machine.update_eq_some_iff

theorem closeEndpoint_eq_some {s : System} {i i' : ℕ} {e' : Endpoint} :
    (s.closeEndpoint i).endpoints i' = some e' ↔
      (i' = i ∧ ∃ e, s.endpoints i = some e ∧ { e with closed := true } = e') ∨
        (i' ≠ i ∧ s.endpoints i' = some e') := by
  unfold System.closeEndpoint
  split
  · rename_i hnone
    by_cases h : i' = i <;> simp [h, hnone]
  · rename_i e he
    rw [setEndpoint_eq_some, he]
    simp

/-- A handler has called the store: when the change was made, it goes on to the registry. -/
def System.commit (s : System) (j : ℕ) (kind : ChangeKind) (c : UUID) (store : CredentialTable)
    (changed : Bool) : System × List Event :=
  if changed then
    (({ s with store := store }.setChange j (some (.committed kind c s.time))).tick,
      [.committed kind c s.time])
  else ({ s with store := store }.tick, [])

/-- A credential in an authenticated principal is a paired one. -/
theorem paired_of_credential {crypto : Crypto} {zone : NaiveDateTime → Except Exn ℤ}
    {authToken : Option Str} {store : CredentialTable} {authorization : Option Str}
    {fault : Fault} {principal : AuthenticatedPrincipal}
    (h : Auth.authenticateHeader crypto zone authToken (some store) authorization fault =
      some principal) :
    ∀ c, principal.credentialId = some c → principal.kind = .paired := by
  intro c hc
  unfold Auth.authenticateHeader at h
  split at h
  · cases h
  split at h
  · rcases Auth.authenticateToken_cases h with ⟨-, rfl⟩ | ⟨credential, -, rfl⟩
    · cases hc
    · rfl
  · cases h

/-- A step of an endpoint or of a handler. -/
def step (crypto : Crypto) (zone : NaiveDateTime → Except Exn ℤ) (authToken : Option Str) :
    Machine.Step System Action Event
  | s, .connect i authorization fault =>
    match s.endpoints i with
    | some _ => none
    | none =>
      match h : Auth.authenticateHeader crypto zone authToken (some s.store) authorization fault with
      | none => some (s.tick, [])
      | some principal =>
        if principal.hasScope Auth.safeToolScope = false then some (s.tick, [])
        else some ((s.setEndpoint i {
          principal := principal, authAt := s.time, phase := .authenticated, closed := false
          paired := paired_of_credential h }).tick, [])
  | s, .move i m =>
    match s.endpoints i with
    | none => none
    | some e =>
      match e.move authToken s.store m with
      | none => none
      | some e' =>
        some ((s.setEndpoint i e').tick, m.events i e)
  | s, .register i =>
    match s.endpoints i with
    | none => none
    | some e =>
      match e.principal.credentialId with
      | none => none
      | some c =>
        if e.phase = .accepted then
          some (({ s with connections := register s.connections c i }.setEndpoint i
            { e with phase := .registered }).tick, [])
        else none
  | s, .unregister i =>
    match s.endpoints i with
    | none => none
    | some e =>
      match e.afterUnregister with
      | none => none
      | some e' =>
        let connections := match e.principal.credentialId with
          | none => s.connections
          | some c => unregister s.connections c i
        some (({ s with connections := connections }.setEndpoint i e').tick, [])
  | s, .issue args accessToken credentialId now fault =>
    some ({ s with store := (Credentials.issue s.store args accessToken credentialId now
      fault).1 }.tick, [])
  | s, .revoke j c now fault =>
    match s.changes j with
    | some _ => none
    | none =>
      match Credentials.revoke zone s.store c now fault with
      | (store, .ok (some _)) => some (s.commit j .revocation c store true)
      | (store, _) => some (s.commit j .revocation c store false)
  | s, .rotate j c current new now fault =>
    match s.changes j with
    | some _ => none
    | none =>
      match Credentials.rotate zone s.store c current new now fault with
      | (store, .ok (some _)) => some (s.commit j .rotation c store true)
      | (store, _) => some (s.commit j .rotation c store false)
  | s, .popConnections j =>
    match s.changes j with
    | some (.committed kind c t) =>
      some (({ s with connections := s.connections.pop c }.setChange j
        (some (.closing kind c t (live s.connections c)))).tick, [])
    | _ => none
  | s, .closeSocket j i =>
    match s.changes j with
    | some (.closing kind c t sockets) =>
      if i ∈ sockets then
        some (((s.closeEndpoint i).setChange j
          (some (.closing kind c t (sockets.erase i)))).tick, [])
      else none
    | _ => none
  | s, .complete j =>
    match s.changes j with
    | some (.closing kind c t sockets) =>
      if sockets = ∅ then some ((s.setChange j none).tick, [.completed kind c t]) else none
    | _ => none

end GoffyHub.LiveAccess
