import GoffyOs.Hub.Auth
import GoffyOs.Hub.OperatorAudit
import GoffyOs.Hub.Pairing

/-!
# Handlers that change credentials (`goffy_hub/pairing_api.py`)

Four handlers change the credential store: redeeming a pairing challenge, a device that revokes or
rotates its own credential, and the administrator's revocation. Each one checks the request, asks
the audit log whether it can write, records that the change was requested, calls the store in a
worker thread, closes the live access of the credential, and records the change. The first record
must succeed; the last one is best effort, since its failure could not undo the change.

* `Handler` holds what the three handlers for an existing credential differ in;
* a step of the system is what one request does between two awaits. The results of the audit log are
  part of the action, so that a run is also a pattern of audit failures;
* a request whose task is cancelled while its thread runs is `abandoned`: the thread may still commit;
* the audit log is there, as `create_app` passes one to `build_pairing_router`.
-/

namespace GoffyHub.PairingApi

open Python
open Approval (Crypto validateApprovalPublicKeySpkiDer)
open Auth (AuthenticatedPrincipal)
open Credentials (CredentialTable CredentialRow CredentialStoreError IssueArgs)
open OperatorAudit (AuditError RecordArgs)
open Pairing (PendingChallenge PairingError)

deriving instance DecidableEq for CredentialRow
deriving instance DecidableEq for RecordArgs
deriving instance DecidableEq for IssueArgs

def maxPairingRequestBytes : ℕ := 4096

/-! ### Answers -/

/-- `_api_error`. -/
structure ApiError where
  statusCode : ℕ
  code : String
  message : String
  deriving DecidableEq

def operatorAuditUnavailable : ApiError :=
  ⟨503, "operator_audit_unavailable", "Operator audit storage is temporarily unavailable."⟩

/-- `_credential_store_unavailable`. -/
def credentialStoreUnavailable : ApiError :=
  ⟨503, "credential_store_unavailable", "Credential storage is temporarily unavailable."⟩

def loopbackRequired : ApiError :=
  ⟨403, "loopback_required", "Pairing is available on loopback only."⟩

def invalidPairingRequest : ApiError :=
  ⟨400, "invalid_pairing_request", "Pairing request is invalid."⟩

def pairedAuthenticationRequired : ApiError :=
  ⟨401, "authentication_required", "Paired authentication required."⟩

/-- `HubIdentity`. -/
structure HubIdentity where
  hubId : UUID
  fingerprint : Str
  createdAt : NaiveDateTime
  deriving DecidableEq

/-- `HubIdentityTrustContract`, as `_hub_identity_trust_contract` fills it. -/
structure HubIdentityTrustContract where
  schemaVersion : String := "goffy.hub.trust.v1"
  proofKind : String := "loopback_fingerprint_only"
  transportScope : String := "usb_loopback_only"
  publicKeyPinStatus : String := "absent"
  certificatePinStatus : String := "absent"
  trustedLanSupported : Bool := false
  deriving DecidableEq

/-- `PairingBundleHubIdentity`. -/
structure PairingBundleHubIdentity where
  schemaVersion : String := "goffy.hub.identity.v1"
  hubId : UUID
  fingerprint : Str
  createdAt : NaiveDateTime
  mode : String := "usb_loopback"
  verifiedBy : String := "loopback_admin_session"
  trustedLanSupported : Bool := false
  trustContract : HubIdentityTrustContract := {}
  deriving DecidableEq

/-- `_pairing_bundle_identity`. -/
def pairingBundleIdentity (identity : HubIdentity) : PairingBundleHubIdentity where
  hubId := identity.hubId
  fingerprint := identity.fingerprint
  createdAt := identity.createdAt

/-- `PairingSuccessResponse`, `TokenRotationResponse` and `RevocationResponse`. -/
inductive Body
  | pairing (credentialId : UUID) (accessToken : Str) (createdAt : NaiveDateTime)
      (hubIdentity : PairingBundleHubIdentity)
  | rotation (credentialId : UUID) (accessToken : Str) (rotatedAt : NaiveDateTime)
  | revocation (credentialId : UUID) (revoked : Bool)
  deriving DecidableEq

/-- Where an exception that no handler catches comes from. -/
inductive Cause
  | audit
  | pairing
  | credentialStore
  | liveAccess
  deriving DecidableEq

/-- What a request answers; an exception that is not caught is a status 500. -/
inductive Answer
  | success (statusCode : ℕ) (headers : List (String × String)) (body : Body)
  | error (e : ApiError)
  | unhandled (cause : Cause)
  deriving DecidableEq

/-- The answer is an HTTP error because of an audit failure. -/
def Answer.DueToAudit (answer : Answer) : Prop :=
  answer = .error operatorAuditUnavailable ∨ answer = .unhandled .audit

/-- `_prevent_secret_caching`. -/
def noStore : List (String × String) := [("Cache-Control", "no-store"), ("Pragma", "no-cache")]

/-! ### The audit log, as the handlers see it -/

/-- How a call of `check_store` or `record` ends. -/
abbrev AuditResult := Except AuditError Unit

/-- The failure, if there is one, is an `OperatorAuditStoreError`. -/
def IsStoreFailure (result : AuditResult) : Prop := ∀ e, result ≠ .error (.exn e)

/-- `_require_audit_ready_for_credential_mutation`. -/
def requireAuditReady : AuditResult → Except Answer Unit
  | .ok () => .ok ()
  | .error (.store _) => .error (.error operatorAuditUnavailable)
  | .error (.exn _) => .error (.unhandled .audit)

/-- The arguments that `_audit` passes to `record`; a `UUID` counts as true. -/
def auditArgs (action : String) (principal : Option AuthenticatedPrincipal)
    (credentialId : Option UUID) : RecordArgs where
  source := "pairing".toList
  action := action.toList
  outcome := "succeeded".toList
  principalKind := match principal with
    | some p => p.kind.value
    | none => "none".toList
  credentialId := credentialId <|> principal.bind (·.credentialId)

/-- How `_audit` goes on after `record`. -/
def audit (failClosed : Bool) : AuditResult → Except Answer Unit
  | .ok () => .ok ()
  | .error (.store _) => if failClosed then .error (.error operatorAuditUnavailable) else .ok ()
  | .error (.exn _) => .error (.unhandled .audit)

/-! ### Requests -/

/-- `ApprovalPublicKeyRequest`, of which the handler reads two fields. -/
structure ApprovalPublicKeyRequest where
  spkiDerBase64 : Str
  spkiSha256 : Str

/-- `decode_spki_der`; `none` is its `ValueError`. -/
def ApprovalPublicKeyRequest.decodeSpkiDer (crypto : Crypto) (key : ApprovalPublicKeyRequest) :
    Option Bytes := do
  let decoded ← b64decode key.spkiDerBase64
  if hex (sha256 decoded).val ≠ key.spkiSha256 then none
  else match validateApprovalPublicKeySpkiDer crypto decoded with
    | .ok () => some decoded
    | .error _ => none

/-- `PairingRedemptionRequest`. -/
structure PairingRedemptionRequest where
  challengeId : UUID
  pairingToken : Str
  deviceId : Str
  displayName : Str
  approvalPublicKey : ApprovalPublicKeyRequest

/-- What the handlers read of a request. -/
structure Request where
  client : Option Str
  authorization : Option Str
  contentType : Option Str := none
  chunks : List Bytes := []

/-- The settings of the application, and what it uses of its libraries. -/
structure Env where
  crypto : Crypto
  zone : NaiveDateTime → Except Exn ℤ
  authToken : Option Str
  hubIdentity : HubIdentity
  /-- `ip_address(host).is_loopback`; `none` is `ValueError` -/
  isLoopback : Str → Option Bool
  /-- `PairingRedemptionRequest.model_validate_json`; `none` is `ValidationError` -/
  validateRedemption : Bytes → Option PairingRedemptionRequest

/-- `_require_loopback`. -/
def requireLoopback (env : Env) (request : Request) : Except ApiError Unit :=
  match request.client with
  | none => .error loopbackRequired
  | some host => if (env.isLoopback host).getD false then .ok () else .error loopbackRequired

/-- The loop of `_read_redemption` over the chunks of the body, from `total` bytes on. -/
def readChunks : ℕ → List Bytes → Except ApiError Bytes
  | _, [] => .ok []
  | total, chunk :: chunks =>
    if maxPairingRequestBytes < total + chunk.length then
      .error ⟨413, "pairing_request_too_large", "Pairing request is too large."⟩
    else (readChunks (total + chunk.length) chunks).map (chunk ++ ·)

/-- The check of `_read_redemption` before the body arrives. -/
def requireJson (request : Request) : Except ApiError Unit :=
  let mediaType := (request.contentType.getD []).takeWhile (· ≠ ';')
  if lower (strip mediaType) = "application/json".toList then .ok ()
  else .error ⟨415, "json_required", "Pairing redemption requires JSON."⟩

/-- `_read_redemption` once the body is there. -/
def readRedemption (env : Env) (request : Request) : Except ApiError PairingRedemptionRequest := do
  let body ← readChunks 0 request.chunks
  match env.validateRedemption body with
  | some redemption => return redemption
  | none => .error invalidPairingRequest

/-- `_require_paired_principal`, and the handlers' own test for a credential. -/
def requirePairedPrincipal (principal : Option AuthenticatedPrincipal) :
    Except ApiError (AuthenticatedPrincipal × UUID) :=
  match principal with
  | none => .error pairedAuthenticationRequired
  | some p =>
    match p.kind, p.credentialId with
    | .paired, some c => .ok (p, c)
    | _, _ => .error ⟨403, "paired_principal_required", "Paired authentication required."⟩

/-- `_require_loopback_admin` after authentication. -/
def requireAdmin (principal : Option AuthenticatedPrincipal) :
    Except ApiError AuthenticatedPrincipal :=
  match principal with
  | none => .error ⟨401, "authentication_required", "Bootstrap authentication required."⟩
  | some p =>
    if p.hasScope Auth.pairingAdminScope then .ok p
    else .error ⟨403, "insufficient_scope", "Bootstrap administrator scope required."⟩

/-- `_bearer_token_from_request`. -/
def bearerTokenFromRequest (request : Request) : Option Str :=
  request.authorization.bind fun header =>
    if Auth.bearerPrefix.isPrefixOf header then some (header.drop Auth.bearerPrefix.length) else none

/-! ### Operations on the store -/

/-- What the handlers for an existing credential differ in. -/
structure Handler where
  requestedAction : String
  action : String
  missing : ApiError
  headers : List (String × String)

def revokeOwnPairedCredential : Handler where
  requestedAction := "credential.self_revoke_requested"
  action := "credential.self_revoke"
  missing := ⟨409, "credential_not_active", "Paired credential is not active."⟩
  headers := noStore

def rotateOwnPairedCredential : Handler where
  requestedAction := "credential.rotate_requested"
  action := "credential.rotate"
  missing := ⟨409, "credential_rotation_conflict", "Paired credential could not be rotated."⟩
  headers := noStore

def revokePairedCredential : Handler where
  requestedAction := "credential.admin_revoke_requested"
  action := "credential.admin_revoke"
  missing := ⟨404, "credential_not_found", "Active credential was not found."⟩
  headers := []

/-- A change that passed the checks of its handler. -/
inductive Operation
  | redeem (args : IssueArgs)
  | revokeOwn (principal : AuthenticatedPrincipal) (c : UUID)
  | rotateOwn (principal : AuthenticatedPrincipal) (c : UUID) (currentToken : Str)
  | revoke (principal : AuthenticatedPrincipal) (c : UUID)
  deriving DecidableEq

/-- The record before a redemption. -/
def redeemRequested : RecordArgs := auditArgs "challenge.redeem_requested" none none

/-- The record that must succeed before the store is called. -/
def Operation.requested : Operation → RecordArgs
  | .redeem _ => redeemRequested
  | .revokeOwn p c => auditArgs revokeOwnPairedCredential.requestedAction (some p) (some c)
  | .rotateOwn p c _ => auditArgs rotateOwnPairedCredential.requestedAction (some p) (some c)
  | .revoke p c => auditArgs revokePairedCredential.requestedAction (some p) (some c)

/-- The credential that an answer names. -/
def Body.credentialId : Body → UUID
  | .pairing c _ _ _ | .rotation c _ _ | .revocation c _ => c

/-- The record after the change. -/
def Operation.succeeded (body : Body) : Operation → RecordArgs
  | .redeem _ => auditArgs "challenge.redeemed" none (some body.credentialId)
  | .revokeOwn p c => auditArgs revokeOwnPairedCredential.action (some p) (some c)
  | .rotateOwn p c _ => auditArgs rotateOwnPairedCredential.action (some p) (some c)
  | .revoke p c => auditArgs revokePairedCredential.action (some p) (some c)

/-- The call of the store with the body that the handler makes of its value; `none` is the store's
`None`. -/
def Operation.store (env : Env) (table : CredentialTable) (newToken : Str) (newId : UUID)
    (now : DateTime) (fault : Fault) :
    Operation → CredentialTable × Except CredentialStoreError (Option Body)
  | .redeem args =>
    let (table', result) := Credentials.issue table args newToken newId now fault
    (table', result.map fun issued => some (.pairing issued.credential.credentialId
      issued.accessToken issued.credential.createdAt (pairingBundleIdentity env.hubIdentity)))
  | .revokeOwn _ c | .revoke _ c =>
    let (table', result) := Credentials.revoke env.zone table c now fault
    (table', result.map fun revoked => revoked.map fun _ => .revocation c true)
  | .rotateOwn _ c currentToken =>
    let (table', result) := Credentials.rotate env.zone table c currentToken newToken now fault
    (table', result.map fun rotated => rotated.map fun r =>
      .rotation r.credential.credentialId r.accessToken r.rotatedAt)

/-- The answer to an exception of the store. -/
def Operation.storeError : Operation → CredentialStoreError → Answer
  | _, .exn _ => .unhandled .credentialStore
  | .redeem _, .capacity _ =>
    .error ⟨409, "credential_capacity", "Paired device limit reached."⟩
  | .redeem _, .invalidMetadata _ =>
    .error ⟨400, "invalid_device_metadata", "Device metadata is invalid."⟩
  | _, _ => .error credentialStoreUnavailable

/-- The answer when the store had nothing to change; `issue` always returns a credential. -/
def Operation.missing : Operation → Answer
  | .redeem _ => .unhandled .credentialStore
  | .revokeOwn _ _ => .error revokeOwnPairedCredential.missing
  | .rotateOwn _ _ _ => .error rotateOwnPairedCredential.missing
  | .revoke _ _ => .error revokePairedCredential.missing

/-- The answer after the change. -/
def Operation.success (body : Body) : Operation → Answer
  | .redeem _ => .success 201 noStore body
  | .revokeOwn _ _ => .success 200 revokeOwnPairedCredential.headers body
  | .rotateOwn _ _ _ => .success 200 rotateOwnPairedCredential.headers body
  | .revoke _ _ => .success 200 revokePairedCredential.headers body

/-- `on_revoke` closes the live access of a credential; a new one has none. -/
def Operation.closesAccess : Operation → Bool
  | .redeem _ => false
  | _ => true

/-! ### The system -/

/-- The handlers that authenticate their request. -/
inductive Route
  | revokeOwn
  | rotateOwn
  | revoke (c : UUID)

/-- Where a request stands. -/
inductive Phase
  /-- a redemption whose body is arriving -/
  | readingBody (request : Request)
  | authenticating (route : Route) (request : Request)
  | authenticated (route : Route) (request : Request) (principal : Option AuthenticatedPrincipal)
  /-- `PairingService.complete` before its lock -/
  | completing (redemption : PairingRedemptionRequest) (key : Bytes)
  /-- the thread of the store call is running -/
  | storing (op : Operation)
  | stored (op : Operation) (result : Except CredentialStoreError (Option Body))
  | closingAccess (op : Operation) (body : Body)
  /-- cancelled, with the thread of the store call still running -/
  | abandoned (op : Operation)
  | finished

/-- The pending challenges, the store and the requests that were ever received. -/
structure System where
  pending : Dict UUID PendingChallenge
  store : CredentialTable
  requests : ℕ → Option Phase

def System.initial (store : CredentialTable) : System := ⟨Dict.empty, store, fun _ => none⟩

inductive Action
  /-- another handler has begun a challenge -/
  | beginChallenge (pairingToken : Str) (challengeId : UUID) (reading : DateTime) (ttl : ℕ)
  | redeem (i : ℕ) (request : Request)
  | receive (i : ℕ) (route : Route) (request : Request)
  | authenticate (i : ℕ) (fault : Fault)
  /-- from the end of the first await to the next, with the results of `check_store` and `record` -/
  | accept (i : ℕ) (checked recorded : AuditResult)
  /-- the locked section of `complete`, with the clock reading before it -/
  | complete (i : ℕ) (reading : DateTime)
  /-- the thread calls the store -/
  | store (i : ℕ) (newToken : Str) (newId : UUID) (now : DateTime) (fault : Fault)
  /-- the task goes on after the store call -/
  | returned (i : ℕ) (recorded : AuditResult)
  /-- `on_revoke` returns or raises -/
  | closed (i : ℕ) (raised : Bool) (recorded : AuditResult)
  | cancel (i : ℕ)

/-- What a history shows of the requests. -/
inductive Event
  | checked (i : ℕ) (result : AuditResult)
  | recorded (i : ℕ) (args : RecordArgs) (result : AuditResult)
  | committed (i : ℕ) (op : Operation) (result : Except CredentialStoreError (Option Body))
  | closed (i : ℕ) (raised : Bool)
  | answered (i : ℕ) (answer : Answer)
  deriving DecidableEq

def System.setPhase (s : System) (i : ℕ) (phase : Phase) : System :=
  { s with requests := Function.update s.requests i (some phase) }

/-- The request ends with an answer, after the given events. -/
def System.answerAfter (s : System) (i : ℕ) (out : List Event) (answer : Answer) :
    System × List Event := (s.setPhase i .finished, out ++ [.answered i answer])

/-- The request ends with an answer. -/
def System.answer (s : System) (i : ℕ) (answer : Answer) : System × List Event :=
  s.answerAfter i [] answer

/-- The readiness check and the record that must succeed: their events, and how they end. -/
def announce (i : ℕ) (args : RecordArgs) (checked recorded : AuditResult) :
    List Event × Except Answer Unit :=
  match requireAuditReady checked with
  | .error answer => ([.checked i checked], .error answer)
  | .ok () => ([.checked i checked, .recorded i args recorded], audit true recorded)

/-- The checks of a handler on its authenticated request. -/
def Route.operation (request : Request) (principal : Option AuthenticatedPrincipal) :
    Route → Except ApiError Operation
  | .revokeOwn => do
    let (p, c) ← requirePairedPrincipal principal
    return .revokeOwn p c
  | .rotateOwn => do
    let (p, c) ← requirePairedPrincipal principal
    match bearerTokenFromRequest request with
    | none => .error pairedAuthenticationRequired
    | some currentToken => return .rotateOwn p c currentToken
  | .revoke c => do
    let p ← requireAdmin principal
    return .revoke p c

/-- The answer to an exception of `complete` before it calls the store. -/
def pairingError : PairingError → Answer
  | .invalidChallenge _ =>
    .error ⟨400, "invalid_pairing_challenge", "Pairing challenge is invalid or expired."⟩
  | .attemptLimit _ => .error ⟨429, "pairing_attempt_limit", "Pairing attempt limit reached."⟩
  | .base _ | .busy _ | .exn _ => .unhandled .pairing

/-- The best-effort record and the answer. -/
def System.finish (s : System) (i : ℕ) (op : Operation) (body : Body) (recorded : AuditResult) :
    System × List Event :=
  let out := [.recorded i (op.succeeded body) recorded]
  match audit false recorded with
  | .error answer => s.answerAfter i out answer
  | .ok () => s.answerAfter i out (op.success body)

/-- `redeem_pairing_challenge` once the body is there, up to the lock of `complete`. -/
def System.admitRedemption (env : Env) (s : System) (i : ℕ) (request : Request)
    (checked recorded : AuditResult) : System × List Event :=
  match readRedemption env request with
  | .error e => s.answer i (.error e)
  | .ok redemption =>
    match announce i redeemRequested checked recorded with
    | (out, .error answer) => s.answerAfter i out answer
    | (out, .ok ()) =>
      match redemption.approvalPublicKey.decodeSpkiDer env.crypto with
      | none => s.answerAfter i out (.error invalidPairingRequest)
      | some key => (s.setPhase i (.completing redemption key), out)

/-- The other handlers from the end of their authentication to the call of the store. -/
def System.admitChange (s : System) (i : ℕ) (operation : Except ApiError Operation)
    (checked recorded : AuditResult) : System × List Event :=
  match operation with
  | .error e => s.answer i (.error e)
  | .ok op =>
    match announce i op.requested checked recorded with
    | (out, .error answer) => s.answerAfter i out answer
    | (out, .ok ()) => (s.setPhase i (.storing op), out)

/-- The locked section of `complete`. -/
def System.complete (s : System) (i : ℕ) (redemption : PairingRedemptionRequest) (key : Bytes)
    (reading : DateTime) : System × List Event :=
  match Pairing.asUtc reading with
  | .error e => s.answer i (pairingError e)
  | .ok now =>
    let (pending, verdict) :=
      Pairing.lockedComplete s.pending now redemption.challengeId redemption.pairingToken
    let s := { s with pending := pending }
    match verdict.error with
    | some e => s.answer i (pairingError e)
    | none => (s.setPhase i (.storing (.redeem ⟨redemption.deviceId, redemption.displayName,
        some key⟩)), [])

/-- The thread of a store call: a change of the rows is a commit. -/
def System.runStore (env : Env) (s : System) (i : ℕ) (op : Operation) (newToken : Str)
    (newId : UUID) (now : DateTime) (fault : Fault)
    (next : Except CredentialStoreError (Option Body) → Phase) : System × List Event :=
  let (table, result) := op.store env s.store newToken newId now fault
  ({ s with store := table }.setPhase i (next result),
    if table.rows = s.store.rows then [] else [.committed i op result])

/-- The task goes on with what the store call returned. -/
def System.resume (s : System) (i : ℕ) (op : Operation)
    (result : Except CredentialStoreError (Option Body)) (recorded : AuditResult) :
    System × List Event :=
  match result with
  | .error e => s.answer i (op.storeError e)
  | .ok none => s.answer i op.missing
  | .ok (some body) =>
    if op.closesAccess then (s.setPhase i (.closingAccess op body), [])
    else s.finish i op body recorded

/-- `on_revoke` has ended. -/
def System.accessClosed (s : System) (i : ℕ) (op : Operation) (body : Body) (raised : Bool)
    (recorded : AuditResult) : System × List Event :=
  if raised then s.answerAfter i [.closed i true] (.unhandled .liveAccess)
  else
    let (s, out) := s.finish i op body recorded
    (s, .closed i false :: out)

/-- A step of a request. -/
def step (env : Env) : Machine.Step System Action Event
  | s, .beginChallenge pairingToken challengeId reading ttl =>
    match Pairing.prepareBegin pairingToken reading with
    | .error _ => some (s, [])
    | .ok now =>
      some ({ s with
        pending := (Pairing.lockedBegin ttl s.pending now pairingToken challengeId 0).1 }, [])
  | s, .redeem i request =>
    match s.requests i with
    | some _ => none
    | none =>
      match requireLoopback env request, requireJson request with
      | .error e, _ => some (s.answer i (.error e))
      | .ok (), .error e => some (s.answer i (.error e))
      | .ok (), .ok () => some (s.setPhase i (.readingBody request), [])
  | s, .receive i route request =>
    match s.requests i with
    | some _ => none
    | none =>
      match requireLoopback env request with
      | .error e => some (s.answer i (.error e))
      | .ok () => some (s.setPhase i (.authenticating route request), [])
  | s, .authenticate i fault =>
    match s.requests i with
    | some (.authenticating route request) =>
      let principal := Auth.authenticateHeader env.crypto env.zone env.authToken (some s.store)
        request.authorization fault
      some (s.setPhase i (.authenticated route request principal), [])
    | _ => none
  | s, .accept i checked recorded =>
    match s.requests i with
    | some (.readingBody request) => some (s.admitRedemption env i request checked recorded)
    | some (.authenticated route request principal) =>
      some (s.admitChange i (route.operation request principal) checked recorded)
    | _ => none
  | s, .complete i reading =>
    match s.requests i with
    | some (.completing redemption key) => some (s.complete i redemption key reading)
    | _ => none
  | s, .store i newToken newId now fault =>
    match s.requests i with
    | some (.storing op) => some (s.runStore env i op newToken newId now fault (.stored op))
    | some (.abandoned op) =>
      some (s.runStore env i op newToken newId now fault fun _ => .finished)
    | _ => none
  | s, .returned i recorded =>
    match s.requests i with
    | some (.stored op result) => some (s.resume i op result recorded)
    | _ => none
  | s, .closed i raised recorded =>
    match s.requests i with
    | some (.closingAccess op body) =>
      some (s.accessClosed i op body raised recorded)
    | _ => none
  | s, .cancel i =>
    match s.requests i with
    | some (.storing op) => some (s.setPhase i (.abandoned op), [])
    | some (.abandoned _) | none => none
    | some _ => some (s.setPhase i .finished, [])

end GoffyHub.PairingApi
