import GoffyOs.Lib.Jobs
import GoffyOs.Lib.Machine
import GoffyOs.Phone.ViewModel

/-!
# The Hub link (`GoffyViewModel.kt`, `GoffyUiState.kt`)

The view model pairs the phone with a Hub, restores the stored credential when it starts, rotates the
token, forgets the link, and stops a pairing when the app leaves the foreground. Each of these calls
changes the UI state at once and launches a coroutine for the rest. A debug build can also be given a
link by hand (`configureHub`).

* `GoffyUiState` and `GoffyViewModel` are the parts that the link uses, with the credential store and
  the approval signing key next to them;
* a coroutine is a job with its captured values (`LinkTask`) and the point where it stands
  (`LinkPoint`): `resume` runs it to the next point with the outcome of what it waited for;
* the store is read and written on another dispatcher. What was begun there takes place even when the
  job is cancelled meanwhile; everything else of a cancelled job ends in a `CancellationException`
  (`abort`), which no coroutine of the link catches;
* `linkRevision` tells a coroutine whether another call came after it. It is looked at where the source
  looks at it.

What comes from outside is an argument: whether an endpoint is accepted, and the outcome of each call
of the pairing gateway, of the store and of the keystore, which may also take effect and fail.
-/

namespace GoffyPhone.HubLink

open Kotlin
open Python (UUID)

/-- `java.time.Instant`. -/
abbrev Instant := ℤ

inductive HubLinkState
  | loading
  | unpaired
  | pairing
  | paired
  | development
  | forgetting
  | rotating
  | degraded
  deriving DecidableEq

structure HubLinkNotice where
  message : Str
  warning : Bool
  deriving DecidableEq

structure HubIdentityPin where
  hubId : UUID
  fingerprint : Str
  createdAt : Instant
  deriving DecidableEq

/-! ### Credentials -/

/-- `IssuedHubCredential`. -/
structure IssuedHubCredential where
  credentialId : UUID
  accessToken : Str
  createdAt : Instant
  hubIdentity : HubIdentityPin
  deriving DecidableEq

/-- `RotatedHubCredential`. -/
structure RotatedHubCredential where
  accessToken : Str
  rotatedAt : Instant
  deriving DecidableEq

namespace StoredHubCredential

def minTokenLength : ℕ := 32
def maxTokenLength : ℕ := 4096

/-- `[A-Za-z0-9._:-]`. -/
def isDeviceIdChar (c : UInt16) : Bool :=
  0x41 ≤ c && c ≤ 0x5a || 0x61 ≤ c && c ≤ 0x7a || 0x30 ≤ c && c ≤ 0x39 ||
    c = 0x2e || c = 0x5f || c = 0x3a || c = 0x2d

/-- `DEVICE_ID_REGEX.matches`. -/
def matchesDeviceId (s : Str) : Bool :=
  decide (1 ≤ s.length ∧ s.length ≤ 64) && s.all isDeviceIdChar

end StoredHubCredential

open StoredHubCredential in
/-- A credential as it is stored. -/
structure StoredHubCredential where
  endpoint : Str
  credentialId : UUID
  deviceId : Str
  accessToken : Str
  createdAt : Instant
  tokenIssuedAt : Instant
  hubIdentity : HubIdentityPin
  deviceId_matches : matchesDeviceId deviceId = true
  token_length : minTokenLength ≤ accessToken.length ∧ accessToken.length ≤ maxTokenLength
  issued_after : createdAt ≤ tokenIssuedAt
  deriving DecidableEq

namespace StoredHubCredential

/-- `StoredHubCredential.create`, for an endpoint that was accepted before. -/
def create (endpoint : Str) (credentialId : UUID) (deviceId accessToken : Str)
    (createdAt tokenIssuedAt : Instant) (hubIdentity : HubIdentityPin) :
    Option StoredHubCredential :=
  if h : matchesDeviceId deviceId = true ∧
      (minTokenLength ≤ accessToken.length ∧ accessToken.length ≤ maxTokenLength) ∧
      createdAt ≤ tokenIssuedAt then
    some ⟨endpoint, credentialId, deviceId, accessToken, createdAt, tokenIssuedAt, hubIdentity,
      h.1, h.2.1, h.2.2⟩
  else none

def toHubConfig (c : StoredHubCredential) : HubConfig := ⟨c.endpoint, c.accessToken⟩

end StoredHubCredential

inductive HubCredentialLoadResult
  | empty
  | loaded (credential : StoredHubCredential)
  | corrupt
  deriving DecidableEq

/-! ### The UI state -/

/-- `GoffyUiState`, as far as the link uses it. -/
structure GoffyUiState where
  hubLinkState : HubLinkState := .loading
  hubEndpoint : Str
  linkError : Option Str := none
  linkNotice : Option HubLinkNotice := none
  deriving DecidableEq

namespace GoffyUiState

def maxErrorLength : ℕ := 256
def maxNoticeLength : ℕ := 256

def isHubConfigured (s : GoffyUiState) : Bool :=
  s.hubLinkState = .paired || s.hubLinkState = .development

def linkOperationInProgress (s : GoffyUiState) : Bool :=
  s.hubLinkState = .loading || s.hubLinkState = .pairing || s.hubLinkState = .forgetting ||
    s.hubLinkState = .rotating

/-- `HubLinkNotice.bounded`. -/
def bounded (notice : HubLinkNotice) : HubLinkNotice :=
  { notice with message := notice.message.take maxNoticeLength }

def hubConfigured (s : GoffyUiState) (endpoint : Str) (persistent : Bool) : GoffyUiState :=
  { s with
    hubLinkState := if persistent then .paired else .development
    hubEndpoint := endpoint
    linkError := none
    linkNotice := none }

def hubConfigurationRejected (s : GoffyUiState) (message : Str) : GoffyUiState :=
  { s with linkError := some (message.take maxErrorLength), linkNotice := none }

def hubRestoreEmpty (s : GoffyUiState) : GoffyUiState :=
  { s with hubLinkState := .unpaired, linkError := none, linkNotice := none }

def hubRestoreFailed (s : GoffyUiState) (message : Str) : GoffyUiState :=
  { s with
    hubLinkState := .degraded
    linkError := some (message.take maxErrorLength)
    linkNotice := none }

def hubPairingStarted (s : GoffyUiState) (endpoint : Str) : GoffyUiState :=
  { s with hubLinkState := .pairing, hubEndpoint := endpoint, linkError := none, linkNotice := none }

def hubPairingRejected (s : GoffyUiState) (message : Str) : GoffyUiState :=
  { s with
    hubLinkState := .unpaired
    linkError := some (message.take maxErrorLength)
    linkNotice := none }

def hubForgetStarted (s : GoffyUiState) : GoffyUiState :=
  { s with hubLinkState := .forgetting, linkError := none, linkNotice := none }

def hubRotationStarted (s : GoffyUiState) : GoffyUiState :=
  { s with hubLinkState := .rotating, linkError := none, linkNotice := none }

def hubRotationSucceeded (s : GoffyUiState) (notice : HubLinkNotice) : GoffyUiState :=
  { s with hubLinkState := .paired, linkError := none, linkNotice := some (bounded notice) }

def hubRotationFailed (s : GoffyUiState) (message : Str) : GoffyUiState :=
  { s with
    hubLinkState := .degraded
    linkError := some (message.take maxErrorLength)
    linkNotice := none }

def forgetHub (s : GoffyUiState) (defaultEndpoint : Str) (notice : HubLinkNotice) : GoffyUiState :=
  { s with
    hubLinkState := .unpaired
    hubEndpoint := defaultEndpoint
    linkError := none
    linkNotice := some (bounded notice) }

def hubForgetVerificationFailed (s : GoffyUiState) (defaultEndpoint message : Str) : GoffyUiState :=
  { s with
    hubLinkState := .degraded
    hubEndpoint := defaultEndpoint
    linkError := some (message.take maxErrorLength)
    linkNotice := none }

end GoffyUiState

/-! ### Coroutines -/

/-- What `rotateHubCredential` captures of the link. -/
structure Rotation where
  config : HubConfig
  credentialId : UUID
  createdAt : Instant
  hubIdentity : HubIdentityPin
  deriving DecidableEq

/-- The coroutines of the link, with what they capture. `revocation` is the link of a `wasPaired`. -/
inductive LinkTask
  | restoreHubCredential (revision : ℕ)
  | pairHub (revision : ℕ) (endpoint : Str)
  | forgetHub (previous : Option ℕ) (revocation : Option (HubConfig × UUID))
  | rotateHubCredential (revision : ℕ) (previous : Option ℕ) (rotation : Rotation)
  | cancelForegroundPairing (enrollment : Option ℕ)
  deriving DecidableEq

/-- Where a coroutine stands. `rejected` is the message of a `HubPairingException` on the way. -/
inductive LinkPoint
  | join
  | load
  | loaded (result : Option HubCredentialLoadResult)
  | publicKey
  | redeem
  | rotateSelf
  | save (candidate : StoredHubCredential)
  | saved (persisted : Option StoredHubCredential)
  | clear (rejected : Option Str)
  | deleteKey (rejected : Option Str) (cleared : Bool)
  | cleared (rejected : Option Str) (cleared : Bool)
  | revokeSelf (localCleared : Bool)
  deriving DecidableEq

/-- The point is on the credential dispatcher, where cancellation interrupts nothing. -/
def LinkPoint.isBlocking : LinkPoint → Bool
  | .load | .save _ | .clear _ | .deleteKey _ _ => true
  | _ => false

/-- The block that `withContext` runs is under way, so that its job cannot end here. -/
def LinkPoint.isInside : LinkPoint → Bool
  | .deleteKey _ _ => true
  | _ => false

/-- What a coroutine has waited for. A call that failed may have taken effect (`partly`). -/
inductive Outcome
  | returned
  | corrupt
  | issued (credential : IssuedHubCredential)
  | rotated (credential : RotatedHubCredential)
  | rejected (message : Str)
  | failed (partly : Bool)
  deriving DecidableEq

inductive Event
  | keyCreated (job : ℕ)
  | saved (job : ℕ) (credential : StoredHubCredential)
  | cleared (job : ℕ)
  | keyDeleted (job : ℕ)
  | restored (credential : StoredHubCredential)
  | paired (job : ℕ) (credential : StoredHubCredential)
  | rotated (job : ℕ) (credential : StoredHubCredential)
  | forgot (credentialId : UUID)
  | revoked (credentialId : UUID)
  deriving DecidableEq

/-- A link is established. -/
def Event.isLink : Event → Bool
  | .restored _ | .paired _ _ => true
  | _ => false

/-- `GoffyViewModel`, as far as the link uses it, with the credential store and the keystore. -/
structure GoffyViewModel where
  defaultEndpoint : Str
  deviceId : Str
  uiState : GoffyUiState
  hubConfig : Option HubConfig := none
  pairedCredentialId : Option UUID := none
  pairedCredentialCreatedAt : Option Instant := none
  pairedHubIdentity : Option HubIdentityPin := none
  linkJob : Option ℕ := none
  linkRevision : ℕ := 0
  jobs : Jobs LinkTask LinkPoint := .empty
  store : Option StoredHubCredential := none
  approvalKey : Bool := false

namespace GoffyViewModel

/-- A step: the view model afterwards, and what happened. -/
abbrev Next := GoffyViewModel × List Event

def setUi (vm : GoffyViewModel) (uiState : GoffyUiState) : GoffyViewModel :=
  { vm with uiState := uiState }

/-- `linkJob = viewModelScope.launch { … }`. -/
def launch (vm : GoffyViewModel) (task : LinkTask) (point : LinkPoint) : GoffyViewModel :=
  { vm with jobs := vm.jobs.launch task point, linkJob := some vm.jobs.next }

def move (vm : GoffyViewModel) (job : ℕ) (point : LinkPoint) : GoffyViewModel :=
  { vm with jobs := vm.jobs.move job point }

def finish (vm : GoffyViewModel) (job : ℕ) : GoffyViewModel :=
  { vm with jobs := vm.jobs.finish job }

/-- The assignments of `null` before a pairing. -/
def clearPaired (vm : GoffyViewModel) : GoffyViewModel :=
  { vm with
    pairedCredentialId := none
    pairedCredentialCreatedAt := none
    pairedHubIdentity := none }

/-- The assignments of `null` when the link is given up. -/
def clearLink (vm : GoffyViewModel) : GoffyViewModel :=
  { vm.clearPaired with hubConfig := none }

/-- The assignments from a stored credential. -/
def setLink (vm : GoffyViewModel) (c : StoredHubCredential) : GoffyViewModel :=
  { vm with
    hubConfig := some c.toHubConfig
    pairedCredentialId := some c.credentialId
    pairedCredentialCreatedAt := some c.createdAt
    pairedHubIdentity := some c.hubIdentity
    deviceId := c.deviceId }

/-! ### The calls -/

/-- `configureHub`, where `allowed` is `allowDevelopmentTokenConfiguration` and `config` is what
`HubConfig.create` made of its arguments. -/
def configureHub (vm : GoffyViewModel) (allowed : Bool) (config : Except Str HubConfig) :
    GoffyViewModel :=
  if !allowed then
    vm.setUi (vm.uiState.hubConfigurationRejected
      (lit "Manual bearer entry is available only in debug builds."))
  else
    let cancelled := { vm with
      linkRevision := vm.linkRevision + 1
      jobs := vm.jobs.cancel vm.linkJob }
    match config with
    | .error message => cancelled.setUi (vm.uiState.hubConfigurationRejected message)
    | .ok config =>
      { cancelled.clearPaired with
        hubConfig := some config
        uiState := vm.uiState.hubConfigured config.endpoint false }

/-- `pairHub`, where `endpoint` is what `HubEndpoint.create` made of its argument. -/
def pairHub (vm : GoffyViewModel) (endpoint : Except Str Str) : GoffyViewModel :=
  if vm.uiState.linkOperationInProgress then vm
  else if vm.uiState.isHubConfigured then
    vm.setUi (vm.uiState.hubConfigurationRejected
      (lit "Forget the current local link before pairing a different Mac."))
  else
    match endpoint with
    | .error message => vm.clearPaired.setUi (vm.uiState.hubConfigurationRejected message)
    | .ok url =>
      let revision := vm.linkRevision + 1
      ({ vm.clearPaired with
        linkRevision := revision
        uiState := vm.uiState.hubPairingStarted url }).launch (.pairHub revision url) .publicKey

/-- The link that a `forgetHub` has to revoke (`wasPaired`). -/
def revocation (vm : GoffyViewModel) : Option (HubConfig × UUID) :=
  if vm.uiState.hubLinkState = .paired then
    match vm.hubConfig, vm.pairedCredentialId with
    | some config, some credentialId => some (config, credentialId)
    | _, _ => none
  else none

def forgetHub (vm : GoffyViewModel) : Next :=
  (({ vm.clearLink with
      linkRevision := vm.linkRevision + 1
      jobs := vm.jobs.cancel vm.linkJob
      uiState := vm.uiState.hubForgetStarted }).launch (.forgetHub vm.linkJob vm.revocation) .join,
    (vm.revocation.map fun r => .forgot r.2).toList)

/-- The link that can be rotated (`wasPaired` of `rotateHubCredential`). -/
def rotation (vm : GoffyViewModel) : Option Rotation :=
  if vm.uiState.hubLinkState = .paired then
    match vm.hubConfig, vm.pairedCredentialId, vm.pairedCredentialCreatedAt,
      vm.pairedHubIdentity with
    | some config, some credentialId, some createdAt, some hubIdentity =>
      some ⟨config, credentialId, createdAt, hubIdentity⟩
    | _, _, _, _ => none
  else none

def rotateHubCredential (vm : GoffyViewModel) : GoffyViewModel :=
  if vm.uiState.linkOperationInProgress then vm
  else
    match vm.rotation with
    | none =>
      vm.setUi (vm.uiState.hubConfigurationRejected
        (lit "Token rotation requires a paired Hub link."))
    | some rotation =>
      let revision := vm.linkRevision + 1
      ({ vm with
        linkRevision := revision
        jobs := vm.jobs.cancel vm.linkJob
        uiState := vm.uiState.hubRotationStarted }).launch
          (.rotateHubCredential revision vm.linkJob rotation) .join

def cancelForegroundPairing (vm : GoffyViewModel) : GoffyViewModel :=
  if vm.uiState.hubLinkState ≠ .pairing then vm
  else
    ({ vm.clearLink with
      linkRevision := vm.linkRevision + 1
      jobs := vm.jobs.cancel vm.linkJob
      uiState := vm.uiState.hubPairingRejected
        (lit ("Pairing stopped when GOFFY left the foreground. Revoke any newly listed " ++
          "credential on the Mac before trying again.")) }).launch
        (.cancelForegroundPairing vm.linkJob) .join

/-! ### The coroutines -/

/-- `clearLocalHubAuthority`: each half is tried, whatever became of the other. -/
def clearLocalHubAuthority (vm : GoffyViewModel) (job : ℕ) : LinkPoint → Outcome → Option Next
  | .clear rejected, .returned =>
    some ({ vm with store := none }.move job (.deleteKey rejected true), [.cleared job])
  | .clear rejected, .failed partly =>
    some ({ vm with store := if partly then none else vm.store }.move job
      (.deleteKey rejected false), if partly then [.cleared job] else [])
  | .deleteKey rejected cleared, .returned =>
    some ({ vm with approvalKey := false }.move job (.cleared rejected cleared), [.keyDeleted job])
  | .deleteKey rejected _, .failed partly =>
    some ({ vm with approvalKey := vm.approvalKey && !partly }.move job (.cleared rejected false),
      if partly then [.keyDeleted job] else [])
  | _, _ => none

/-- `credentialStore.save`. A write that could not be verified is deleted. -/
def save (vm : GoffyViewModel) (job : ℕ) (candidate : StoredHubCredential) :
    Outcome → Option Next
  | .returned =>
    some ({ vm with store := some candidate }.move job (.saved (some candidate)),
      [.saved job candidate])
  | .failed partly =>
    some ({ vm with store := if partly then none else vm.store }.move job (.saved none), [])
  | _ => none

def restoreFailed (vm : GoffyViewModel) (job : ℕ) (message : String) : GoffyViewModel :=
  (vm.setUi (vm.uiState.hubRestoreFailed (lit message))).finish job

/-- `restoreHubCredential` after the store was read. A loaded credential may have no configuration. -/
def restoreLoaded (vm : GoffyViewModel) (job : ℕ) :
    Option HubCredentialLoadResult → Outcome → Option Next
  | none, .returned =>
    some (vm.restoreFailed job
      "The local Hub credential store is unavailable. Mac access is disabled.", [])
  | some .empty, .returned =>
    some (({ vm with
      pairedCredentialCreatedAt := none
      pairedHubIdentity := none
      uiState := vm.uiState.hubRestoreEmpty }).finish job, [])
  | some .corrupt, .returned =>
    some (vm.clearLink.restoreFailed job
      "The saved Hub credential was unreadable and has been removed. Pair again.", [])
  | some (.loaded c), .returned =>
    some (((vm.setLink c).setUi (vm.uiState.hubConfigured c.endpoint true)).finish job, [.restored c])
  | some (.loaded _), .failed _ => some (vm.clearLink.move job (.clear none), [])
  | _, _ => none

def resumeRestore (vm : GoffyViewModel) (job revision : ℕ) : LinkPoint → Outcome → Option Next
  | .load, .returned =>
    some (vm.move job (.loaded (some (vm.store.elim .empty .loaded))), [])
  | .load, .corrupt =>
    if vm.store.isSome then
      some ({ vm with store := none }.move job (.loaded (some .corrupt)), [])
    else none
  | .load, .failed _ => some (vm.move job (.loaded none), [])
  | .loaded result, outcome =>
    if revision ≠ vm.linkRevision then some (vm.finish job, [])
    else vm.restoreLoaded job result outcome
  | .cleared _ _, .returned =>
    some (vm.restoreFailed job
      "The saved Hub credential was invalid and has been removed. Pair again.", [])
  | point, outcome => vm.clearLocalHubAuthority job point outcome

/-- `pairHub` after the Hub has issued a credential. -/
def pairIssued (vm : GoffyViewModel) (job : ℕ) (endpoint : Str) (issued : IssuedHubCredential) :
    GoffyViewModel :=
  match StoredHubCredential.create endpoint issued.credentialId vm.deviceId issued.accessToken
      issued.createdAt issued.createdAt issued.hubIdentity with
  | some candidate => vm.move job (.save candidate)
  | none => vm.move job (.clear none)

/-- `pairHub` after the credential was stored. -/
def pairSaved (vm : GoffyViewModel) (job revision : ℕ) :
    Option StoredHubCredential → Outcome → Option Next
  | none, .returned => some (vm.move job (.clear none), [])
  | some c, outcome =>
    if revision ≠ vm.linkRevision then some (vm.finish job, [])
    else match outcome with
    | .returned =>
      some (((vm.setLink c).setUi (vm.uiState.hubConfigured c.endpoint true)).finish job,
        [.paired job c])
    | .failed _ => some (vm.move job (.clear none), [])
    | _ => none
  | _, _ => none

/-- The end of a pairing that failed. -/
def pairCleared (vm : GoffyViewModel) (job revision : ℕ) (rejected : Option Str) : GoffyViewModel :=
  if revision ≠ vm.linkRevision then vm.finish job
  else match rejected with
  | some message => (vm.setUi (vm.uiState.hubPairingRejected message)).finish job
  | none =>
    vm.clearLink.restoreFailed job
      ("Pairing could not be stored and was not activated. Revoke any stale " ++
        "credential on the Mac, then create a new challenge.")

def resumePair (vm : GoffyViewModel) (job revision : ℕ) (endpoint : Str) :
    LinkPoint → Outcome → Option Next
  | .publicKey, .returned =>
    some ({ vm with approvalKey := true }.move job .redeem, [.keyCreated job])
  | .publicKey, .failed partly =>
    some ({ vm with approvalKey := vm.approvalKey || partly }.move job (.clear none),
      if partly then [.keyCreated job] else [])
  | .redeem, .issued issued => some (vm.pairIssued job endpoint issued, [])
  | .redeem, .rejected message => some (vm.move job (.clear (some message)), [])
  | .redeem, .failed _ => some (vm.move job (.clear none), [])
  | .save candidate, outcome => vm.save job candidate outcome
  | .saved persisted, outcome => vm.pairSaved job revision persisted outcome
  | .cleared rejected _, .returned => some (vm.pairCleared job revision rejected, [])
  | point, outcome => vm.clearLocalHubAuthority job point outcome

/-- The last assignment of `forgetHub`. -/
def forgotten (vm : GoffyViewModel) (job : ℕ) (localCleared : Bool)
    (remoteVerified : Option Bool) : GoffyViewModel :=
  let ended (message : String) (warning : Bool) : GoffyUiState :=
    vm.uiState.forgetHub vm.defaultEndpoint ⟨lit message, warning⟩
  let failed (message : String) : GoffyUiState :=
    vm.uiState.hubForgetVerificationFailed vm.defaultEndpoint (lit message)
  (vm.setUi (match localCleared, remoteVerified with
    | true, some true => ended "Hub revocation verified; local credential removed." false
    | true, some false =>
      ended "Local credential removed; Hub revocation was not verified. Revoke from Mac." true
    | true, none => ended "Debug Hub link removed from this phone." false
    | false, some true =>
      failed ("Hub revocation was verified, but local credential deletion could not be fully " ++
        "verified. Clear app data before relaunching.")
    | false, _ =>
      failed ("Current Mac access is disabled, but local credential deletion could not be fully " ++
        "verified. Clear app data before relaunching."))).finish job

def resumeForget (vm : GoffyViewModel) (job : ℕ) (previous : Option ℕ)
    (revocation : Option (HubConfig × UUID)) : LinkPoint → Outcome → Option Next
  | .join, .returned =>
    if vm.jobs.isDone previous then some (vm.move job (.clear none), []) else none
  | .cleared _ cleared, .returned =>
    match revocation with
    | none => some (vm.forgotten job cleared none, [])
    | some _ => some (vm.move job (.revokeSelf cleared), [])
  | .revokeSelf cleared, outcome =>
    match revocation, outcome with
    | some (_, credentialId), .returned =>
      some (vm.forgotten job cleared (some true), [.revoked credentialId])
    | some _, .rejected _ | some _, .failed _ => some (vm.forgotten job cleared (some false), [])
    | _, _ => none
  | point, outcome => vm.clearLocalHubAuthority job point outcome

/-- `rotateHubCredential` after something has failed. -/
def rotationFailed (vm : GoffyViewModel) (job revision : ℕ) : GoffyViewModel :=
  if revision = vm.linkRevision then vm.clearLink.move job (.clear none) else vm.finish job

/-- `rotateHubCredential` after the Hub has rotated the token. -/
def rotateIssued (vm : GoffyViewModel) (job revision : ℕ) (rotation : Rotation)
    (rotated : RotatedHubCredential) : GoffyViewModel :=
  match StoredHubCredential.create rotation.config.endpoint rotation.credentialId vm.deviceId
      rotated.accessToken rotation.createdAt rotated.rotatedAt rotation.hubIdentity with
  | some candidate => vm.move job (.save candidate)
  | none => vm.rotationFailed job revision

/-- `rotateHubCredential` after the credential was stored. -/
def rotateSaved (vm : GoffyViewModel) (job revision : ℕ) :
    Option StoredHubCredential → Outcome → Option Next
  | none, .returned => some (vm.rotationFailed job revision, [])
  | some c, outcome =>
    if revision ≠ vm.linkRevision then some (vm.finish job, [])
    else match outcome with
    | .returned =>
      some (((vm.setLink c).setUi (vm.uiState.hubRotationSucceeded
        ⟨lit "Hub token rotated and saved. New Mac requests will reconnect.", false⟩)).finish job,
        [.rotated job c])
    | .failed _ => some (vm.rotationFailed job revision, [])
    | _ => none
  | _, _ => none

def resumeRotate (vm : GoffyViewModel) (job revision : ℕ) (previous : Option ℕ)
    (rotation : Rotation) : LinkPoint → Outcome → Option Next
  | .join, .returned =>
    if vm.jobs.isDone previous then some (vm.move job .rotateSelf, []) else none
  | .rotateSelf, .rotated rotated => some (vm.rotateIssued job revision rotation rotated, [])
  | .rotateSelf, .rejected _ | .rotateSelf, .failed _ => some (vm.rotationFailed job revision, [])
  | .save candidate, outcome => vm.save job candidate outcome
  | .saved persisted, outcome => vm.rotateSaved job revision persisted outcome
  | .cleared _ _, .returned =>
    some ((vm.setUi (vm.uiState.hubRotationFailed (lit ("Hub token rotation was not verified. " ++
      "Mac access is disabled; pair again and inspect Hub credentials.")))).finish job, [])
  | point, outcome => vm.clearLocalHubAuthority job point outcome

/-- The clean-up after `cancelForegroundPairing`. -/
def resumeCleanUp (vm : GoffyViewModel) (job : ℕ) (enrollment : Option ℕ) :
    LinkPoint → Outcome → Option Next
  | .join, .returned =>
    if vm.jobs.isDone enrollment then some (vm.move job (.clear none), []) else none
  | .cleared _ cleared, .returned =>
    some (if cleared then vm.finish job
      else vm.restoreFailed job
        "Pairing stopped, but local credential cleanup could not be fully verified.", [])
  | point, outcome => vm.clearLocalHubAuthority job point outcome

/-- A job goes on with what it has waited for. -/
def resume (vm : GoffyViewModel) (job : ℕ) (point : LinkPoint) (outcome : Outcome) :
    LinkTask → Option Next
  | .restoreHubCredential revision => vm.resumeRestore job revision point outcome
  | .pairHub revision endpoint => vm.resumePair job revision endpoint point outcome
  | .forgetHub previous revocation => vm.resumeForget job previous revocation point outcome
  | .rotateHubCredential revision previous rotation =>
    vm.resumeRotate job revision previous rotation point outcome
  | .cancelForegroundPairing enrollment => vm.resumeCleanUp job enrollment point outcome

/-- The view model after `init`: the stored credential is being read. -/
def initial (defaultEndpoint deviceId : Str) (store : Option StoredHubCredential)
    (approvalKey : Bool) : GoffyViewModel :=
  launch {
    defaultEndpoint := defaultEndpoint
    deviceId := deviceId
    uiState := { hubEndpoint := defaultEndpoint }
    store := store
    approvalKey := approvalKey } (.restoreHubCredential 0) .load

end GoffyViewModel

/-! ### Runs -/

inductive Action
  | configureHub (allowed : Bool) (config : Except Str HubConfig)
  | pairHub (endpoint : Except Str Str)
  | forgetHub
  | rotateHubCredential
  | cancelForegroundPairing
  | resume (job : ℕ) (outcome : Outcome)
  | abort (job : ℕ)

/-- One call, or one coroutine going on. A cancelled job goes on only where it blocks. -/
def step (vm : GoffyViewModel) : Action → Option (GoffyViewModel × List Event)
  | .configureHub allowed config => some (vm.configureHub allowed config, [])
  | .pairHub endpoint => some (vm.pairHub endpoint, [])
  | .forgetHub => some vm.forgetHub
  | .rotateHubCredential => some (vm.rotateHubCredential, [])
  | .cancelForegroundPairing => some (vm.cancelForegroundPairing, [])
  | .resume j outcome =>
    match vm.jobs.get j with
    | none => none
    | some job =>
      if job.cancelled ∧ !job.point.isBlocking then none
      else vm.resume j job.point outcome job.task
  | .abort j =>
    match vm.jobs.get j with
    | none => none
    | some job =>
      if job.cancelled ∧ !job.point.isInside then some (vm.finish j, []) else none

end GoffyPhone.HubLink
