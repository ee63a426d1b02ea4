import GoffyOs.Phone.Protocol

/-!
# The tools of the phone (`capability/PhoneCapabilityRegistry.kt`, `phone/PhoneToolGateway.kt`)

* `PhoneContent` are the results of the local tools, with the contracts of
  `protocol/GoffyToolContracts.kt` and the summaries of the timeline;
* `PhoneTool` are the twelve capabilities. `matchCapability` is the registry's `match`; titles,
  schemas and annotations of a capability are only listed and have no part in it;
* `operation` is the second half of `toAllowedOperation`: what an authorized plan executes, how its
  result is validated and what is reported. Dispatcher and timeout of an operation are left out:
  whether a source answers in time is part of its outcome.
-/

namespace GoffyPhone

open Kotlin

/-! ### Results -/

/-- `isISOControl() || getType == FORMAT`. -/
def isHiddenCharacter (c : UInt16) : Bool := isISOControl c || isFormat c

/-- `isSafeDisplayField`. -/
def isSafeDisplayField (s : Str) (maximum : ℕ) : Bool :=
  !isBlank s && s.length ≤ maximum && !s.any isHiddenCharacter

def maxNoteTextLength : ℕ := 2000
def maxMemoryTextLength : ℕ := 512
def maxPhoneMemoryRows : Int32 := 100
def maxPhoneMemoryListEntries : ℕ := 20
def phoneMemoryProvenanceUserApproved : Str := lit "user_approved_phone_command"

/-- `matchesNoteTextContract`, the same condition as `isSafeDisplayField`. -/
def matchesNoteTextContract (text : Str) : Bool := isSafeDisplayField text maxNoteTextLength

/-- `matchesMemoryTextContract`. -/
def matchesMemoryTextContract (text : Str) : Bool := isSafeDisplayField text maxMemoryTextLength

/-- `PhoneMemoryEntry`; `PhoneMemoryRemembered` and `PhoneMemoryUpdated` have the same fields and the
same contract. -/
structure PhoneMemoryEntry where
  memoryId : Int64
  text : Str
  createdAtEpochMillis : Int64
  provenance : Str
  deriving DecidableEq

/-- `PhoneMemoryEntry.matchesToolContract`. -/
def PhoneMemoryEntry.matchesToolContract (e : PhoneMemoryEntry) : Bool :=
  0 < e.memoryId && matchesMemoryTextContract e.text && 0 < e.createdAtEpochMillis &&
    e.provenance = phoneMemoryProvenanceUserApproved

/-- The results of the local tools. -/
inductive PhoneContent
  | batteryStatus (levelPercent : Int32) (charging : Bool)
  | deviceInfo (manufacturer model androidRelease : Str) (sdkInt : Int32)
      (goffySystemApp goffyHomeCandidate goffyDefaultHome : Bool)
  | flashlightState (enabled stateChanged : Bool)
  | noteCreated (noteId : Int64) (text : Str) (createdAtEpochMillis : Int64)
  | memoryRemembered (entry : PhoneMemoryEntry)
  | memoryList (status : Str) (count : Int32) (truncated : Bool) (entries : List PhoneMemoryEntry)
  | memoryDeleted (memoryId : Int64) (deletedCount remainingCount : Int32)
  | memoryForgotten (deletedCount remainingCount : Int32)
  | memoryUpdated (entry : PhoneMemoryEntry)
  | timerDispatched (durationSeconds : Int32) (clockPackage clockActivity : Str)
      (systemApplication skipClockUiRequested : Bool) (systemAction : Str)
  deriving DecidableEq

/-- `isAllowlistedSystemClockPackage`. -/
def isAllowlistedSystemClockPackage (s : Str) : Bool :=
  s = lit "com.android.deskclock" || s = lit "com.google.android.deskclock"

/-- `[A-Za-z0-9_]`. -/
def isClassNameUnit (c : UInt16) : Bool :=
  (0x41 ≤ c && c ≤ 0x5a) || (0x61 ≤ c && c ≤ 0x7a) || (0x30 ≤ c && c ≤ 0x39) || c == 0x5f

/-- `ANDROID_CLASS_NAME`: at least two names, separated by `.` or `$`. -/
def matchesAndroidClassName (s : Str) : Bool :=
  let names := s.splitOnP fun c => c == 0x2e || c == 0x24
  2 ≤ names.length && names.all fun name => name ≠ [] && name.all isClassNameUnit

/-- `durationSeconds in MIN_TIMER_SECONDS..MAX_TIMER_SECONDS`. -/
def isTimerDuration (durationSeconds : Int32) : Bool :=
  1 ≤ durationSeconds && durationSeconds ≤ 86400

namespace PhoneContent

def type : PhoneContent → ContentType
  | .batteryStatus _ _ => .phoneBatteryStatus
  | .deviceInfo _ _ _ _ _ _ _ => .phoneDeviceInfo
  | .flashlightState _ _ => .phoneFlashlightState
  | .noteCreated _ _ _ => .phoneNoteCreated
  | .memoryRemembered _ => .phoneMemoryRemembered
  | .memoryList _ _ _ _ => .phoneMemoryList
  | .memoryDeleted _ _ _ => .phoneMemoryDeleted
  | .memoryForgotten _ _ => .phoneMemoryForgotten
  | .memoryUpdated _ => .phoneMemoryUpdated
  | .timerDispatched _ _ _ _ _ _ => .phoneTimerDispatched

/-- `matchesToolContract`; there is none for the flashlight. -/
def matchesToolContract : PhoneContent → Bool
  | .batteryStatus levelPercent _ => 0 ≤ levelPercent && levelPercent ≤ 100
  | .deviceInfo manufacturer model androidRelease sdkInt _ goffyHomeCandidate goffyDefaultHome =>
    isSafeDisplayField manufacturer 128 && isSafeDisplayField model 128 &&
      isSafeDisplayField androidRelease 64 && 26 ≤ sdkInt && sdkInt ≤ 10000 &&
      (!goffyDefaultHome || goffyHomeCandidate)
  | .flashlightState _ _ => true
  | .noteCreated noteId text createdAtEpochMillis =>
    0 < noteId && matchesNoteTextContract text && 0 < createdAtEpochMillis
  | .memoryRemembered entry | .memoryUpdated entry => entry.matchesToolContract
  | .memoryList status count truncated entries =>
    status = lit "available" && 0 ≤ count && count ≤ maxPhoneMemoryRows &&
      entries.length ≤ maxPhoneMemoryListEntries && entries.length ≤ count.toInt &&
      truncated = decide (entries.length < count.toInt) &&
      entries.all PhoneMemoryEntry.matchesToolContract
  | .memoryDeleted memoryId deletedCount remainingCount =>
    0 < memoryId && deletedCount = 1 && 0 ≤ remainingCount && remainingCount < maxPhoneMemoryRows
  | .memoryForgotten deletedCount remainingCount =>
    0 ≤ deletedCount && deletedCount ≤ maxPhoneMemoryRows && remainingCount = 0
  | .timerDispatched durationSeconds clockPackage clockActivity systemApplication
      skipClockUiRequested systemAction =>
    isTimerDuration durationSeconds && isAllowlistedSystemClockPackage clockPackage &&
      matchesAndroidClassName clockActivity && (clockPackage ++ lit ".").isPrefixOf clockActivity &&
      systemApplication && skipClockUiRequested &&
      systemAction = lit "android.intent.action.SET_TIMER"

/-- `summaryText`. -/
def summaryText : PhoneContent → Str
  | .batteryStatus levelPercent charging =>
    lit "Battery " ++ ofInt32 levelPercent ++ lit "%: " ++ choose charging "charging" "not charging"
  | .deviceInfo manufacturer model androidRelease sdkInt goffySystemApp goffyHomeCandidate
      goffyDefaultHome =>
    manufacturer ++ lit " " ++ model ++ lit " / Android " ++ androidRelease ++ lit " (API " ++
      ofInt32 sdkInt ++ lit "); GOFFY home=" ++
      (if goffyDefaultHome then lit "default"
        else choose goffyHomeCandidate "available" "not available") ++
      lit ", system=" ++ choose goffySystemApp "yes" "no"
  | .flashlightState enabled stateChanged =>
    lit "Flashlight " ++ choose enabled "on" "off" ++ lit "; state observed" ++
      choose stateChanged " after state change" " (already requested state)"
  | .noteCreated noteId text _ => lit "Note #" ++ ofInt64 noteId ++ lit " stored: " ++ text
  | .memoryRemembered entry =>
    lit "Memory #" ++ ofInt64 entry.memoryId ++ lit " stored with approved provenance"
  | .memoryList _ count truncated entries =>
    if count = 0 then lit "No local memories stored"
    else lit "Read " ++ lit (toString entries.length) ++ lit " of " ++ ofInt32 count ++
      lit " local memories" ++ choose truncated " (truncated)" ""
  | .memoryDeleted memoryId _ remainingCount =>
    lit "Deleted local memory #" ++ ofInt64 memoryId ++ lit "; " ++ ofInt32 remainingCount ++
      lit " remain"
  | .memoryForgotten deletedCount remainingCount =>
    lit "Deleted " ++ ofInt32 deletedCount ++ lit " local memories; " ++ ofInt32 remainingCount ++
      lit " remain"
  | .memoryUpdated entry =>
    lit "Memory #" ++ ofInt64 entry.memoryId ++ lit " updated with approved provenance"
  | .timerDispatched durationSeconds clockPackage _ _ _ _ =>
    lit "Timer intent for " ++ ofInt32 durationSeconds ++ lit " seconds dispatched to " ++
      clockPackage

instance : ToolResultContent PhoneContent := ⟨type, matchesToolContract, summaryText⟩

end PhoneContent

/-! ### Capabilities -/

/-- The capabilities of the phone. -/
inductive PhoneTool
  | batteryStatus
  | deviceInfo
  | flashlightSet
  | memoryForget
  | memoryForgetAll
  | memoryList
  | memoryRemember
  | memoryUpdate
  | noteCreate
  | ocrRead
  | qrRead
  | timerCreate
  deriving DecidableEq

namespace PhoneTool

def all : List PhoneTool :=
  [.batteryStatus, .deviceInfo, .flashlightSet, .memoryForget, .memoryForgetAll, .memoryList,
    .memoryRemember, .memoryUpdate, .noteCreate, .ocrRead, .qrRead, .timerCreate]

def name : PhoneTool → Str
  | .batteryStatus => lit "phone.battery.status"
  | .deviceInfo => lit "phone.device.info"
  | .flashlightSet => lit "phone.flashlight.set"
  | .memoryForget => lit "phone.memory.forget"
  | .memoryForgetAll => lit "phone.memory.forget_all"
  | .memoryList => lit "phone.memory.list"
  | .memoryRemember => lit "phone.memory.remember"
  | .memoryUpdate => lit "phone.memory.update"
  | .noteCreate => lit "phone.note.create"
  | .ocrRead => lit "phone.ocr.read"
  | .qrRead => lit "phone.qr.read"
  | .timerCreate => lit "phone.timer.create"

/-- `definitionsByName[toolName]`. -/
def find (toolName : Str) : Option PhoneTool := all.find? (·.name = toolName)

/-- `metadata.permission`. -/
def permission : PhoneTool → PermissionLevel
  | .batteryStatus | .deviceInfo | .memoryList | .ocrRead | .qrRead => .safe
  | .flashlightSet | .memoryForget | .memoryForgetAll | .memoryRemember | .memoryUpdate
  | .noteCreate | .timerCreate => .confirm

/-- `acceptsArguments`. -/
def acceptsArguments : PhoneTool → ToolArguments → Bool
  | .batteryStatus, .noToolArguments | .deviceInfo, .noToolArguments
  | .memoryList, .noToolArguments | .memoryForgetAll, .noToolArguments
  | .ocrRead, .noToolArguments | .qrRead, .noToolArguments => true
  | .flashlightSet, .phoneFlashlightSet _ => true
  | .noteCreate, .phoneNoteCreate text => matchesNoteTextContract text
  | .memoryRemember, .phoneMemoryRemember text => matchesMemoryTextContract text
  | .memoryForget, .phoneMemoryForget memoryId => 0 < memoryId
  | .memoryUpdate, .phoneMemoryUpdate memoryId text =>
    0 < memoryId && matchesMemoryTextContract text
  | .timerCreate, .phoneTimerCreate durationSeconds skipClockUi =>
    isTimerDuration durationSeconds && skipClockUi
  | _, _ => false

end PhoneTool

/-- `PhoneCapabilityRegistry.match`, for the tool of a plan. Every capability is one of the phone. -/
def matchCapability (plan : GoffyExecutionPlan) : Option PhoneTool :=
  (PhoneTool.find plan.toolName).filter fun tool =>
    plan.executionTarget = .phone && plan.permission = tool.permission &&
      tool.acceptsArguments plan.arguments

/-! ### Operations -/

/-- What `execute` asks of the sources and stores. -/
inductive SourceCall
  | readBatteryStatus
  | readDeviceInfo
  | setFlashlight (enabled : Bool)
  | createNote (text : Str)
  | remember (text provenance : Str)
  | listMemories (maxEntries : ℕ)
  | forget (memoryId : Int64)
  | update (memoryId : Int64) (text provenance : Str)
  | forgetAll
  | createTimer (durationSeconds : Int32) (skipClockUi : Bool)
  deriving DecidableEq

/-- `PhoneToolVerification`. -/
inductive PhoneToolVerification
  | verified (summary : Str) (checks : List Str)
  | unverified (summary : Str) (checks : List Str)

/-- `toEvent`. -/
def PhoneToolVerification.toEvent {γ : Type} : PhoneToolVerification → ExecutionEvent γ
  | .verified summary checks => .verification true summary checks
  | .unverified summary checks => .unverified summary checks

/-- `PhoneToolOperation`. -/
structure PhoneToolOperation where
  toolName : Str
  acceptedMessage : Str
  completedMessage : Str
  failureMessage : Str
  execute : SourceCall
  validate : PhoneContent → Bool
  verification : PhoneToolVerification

/-- A list of literals. -/
def lits (texts : List String) : List Str := texts.map lit

/-- The `when (toolName)` of `toAllowedOperation`. -/
def operation : PhoneTool → ToolArguments → Option PhoneToolOperation
  | .batteryStatus, _ => some {
      toolName := PhoneTool.batteryStatus.name
      acceptedMessage := lit "Battery status read accepted on this phone."
      completedMessage := lit "BatteryManager returned validated local status."
      failureMessage := lit "Battery status is unavailable on this phone"
      execute := .readBatteryStatus
      validate := fun content =>
        content.type = .phoneBatteryStatus && content.matchesToolContract
      verification := .verified (lit "Battery status matched the local tool contract.")
        (lits ["phone tool allowlist", "battery percentage range", "typed output"]) }
  | .deviceInfo, _ => some {
      toolName := PhoneTool.deviceInfo.name
      acceptedMessage := lit "Privacy-minimized device info read accepted on this phone."
      completedMessage := lit "Android Build returned validated display information."
      failureMessage := lit "Device information is unavailable on this phone"
      execute := .readDeviceInfo
      validate := fun content => content.type = .phoneDeviceInfo && content.matchesToolContract
      verification := .verified
        (lit "Device information matched the privacy-minimized local contract.")
        (lits ["phone tool allowlist", "approved display/status fields only",
          "field bounds and control characters", "minimum SDK contract"]) }
  | .flashlightSet, .phoneFlashlightSet enabled => some {
      toolName := PhoneTool.flashlightSet.name
      acceptedMessage := lit "Approved flashlight " ++ choose enabled "on" "off" ++
        lit " request accepted on this phone."
      completedMessage := lit "CameraManager reported the flashlight " ++
        choose enabled "on" "off" ++ lit "."
      failureMessage := lit "The back-camera flashlight could not be set and verified"
      execute := .setFlashlight enabled
      validate := fun
        | .flashlightState enabled' _ => enabled' = enabled
        | _ => false
      verification := .verified (lit "TorchCallback confirmed the approved flashlight state.")
        (lits ["single-use approval", "back-facing flash selection", "exact enabled-state match",
          "CameraManager callback", "callback cleanup"]) }
  | .noteCreate, .phoneNoteCreate text => some {
      toolName := PhoneTool.noteCreate.name
      acceptedMessage := lit "Approved note creation accepted on this phone."
      completedMessage := lit "The app-private note row was written and re-read."
      failureMessage := lit "The note could not be stored and verified"
      execute := .createNote text
      validate := fun
        | .noteCreated noteId text' createdAt =>
          text' = text && (PhoneContent.noteCreated noteId text' createdAt).matchesToolContract
        | _ => false
      verification := .verified (lit "The approved note was stored and re-read successfully.")
        (lits ["single-use approval", "app-private database", "exact text match",
          "post-write row read"]) }
  | .memoryRemember, .phoneMemoryRemember text => some {
      toolName := PhoneTool.memoryRemember.name
      acceptedMessage := lit "Approved memory write accepted on this phone."
      completedMessage := lit "The app-private memory row was written and re-read."
      failureMessage := lit "The memory could not be stored and verified"
      execute := .remember text phoneMemoryProvenanceUserApproved
      validate := fun
        | .memoryRemembered entry => entry.text = text && entry.matchesToolContract
        | _ => false
      verification := .verified (lit "The approved memory was stored and re-read successfully.")
        (lits ["single-use approval", "app-private database", "exact text match",
          "inspectable provenance", "post-write row read"]) }
  | .memoryList, _ => some {
      toolName := PhoneTool.memoryList.name
      acceptedMessage := lit "Local memory inspection accepted on this phone."
      completedMessage := lit "App-private memories were read with a bounded result."
      failureMessage := lit "Local memories could not be read safely"
      execute := .listMemories maxPhoneMemoryListEntries
      validate := fun content => content.type = .phoneMemoryList && content.matchesToolContract
      verification := .verified (lit "Local memories matched the bounded inspectable contract.")
        (lits ["phone tool allowlist", "app-private database", "bounded list size",
          "inspectable provenance"]) }
  | .memoryForget, .phoneMemoryForget memoryId => some {
      toolName := PhoneTool.memoryForget.name
      acceptedMessage := lit "Approved single-memory deletion accepted on this phone."
      completedMessage := lit "The app-private memory row was deleted and verified absent."
      failureMessage := lit "The selected memory could not be deleted and verified"
      execute := .forget memoryId
      validate := fun
        | .memoryDeleted memoryId' deletedCount remainingCount => memoryId' = memoryId &&
          (PhoneContent.memoryDeleted memoryId' deletedCount remainingCount).matchesToolContract
        | _ => false
      verification := .verified
        (lit "The approved memory was deleted after exact-ID verification.")
        (lits ["single-use approval", "app-private database", "exact memory ID",
          "post-delete absence check"]) }
  | .memoryUpdate, .phoneMemoryUpdate memoryId text => some {
      toolName := PhoneTool.memoryUpdate.name
      acceptedMessage := lit "Approved single-memory update accepted on this phone."
      completedMessage := lit "The app-private memory row was updated and re-read."
      failureMessage := lit "The selected memory could not be updated and verified"
      execute := .update memoryId text phoneMemoryProvenanceUserApproved
      validate := fun
        | .memoryUpdated entry =>
          entry.memoryId = memoryId && entry.text = text && entry.matchesToolContract
        | _ => false
      verification := .verified (lit "The approved memory update was re-read successfully.")
        (lits ["single-use approval", "app-private database", "exact memory ID",
          "exact updated text match", "inspectable provenance"]) }
  | .memoryForgetAll, _ => some {
      toolName := PhoneTool.memoryForgetAll.name
      acceptedMessage := lit "Approved memory deletion accepted on this phone."
      completedMessage := lit "All app-private memories were deleted and verified."
      failureMessage := lit "Local memories could not be deleted and verified"
      execute := .forgetAll
      validate := fun content =>
        content.type = .phoneMemoryForgotten && content.matchesToolContract
      verification := .verified (lit "All local memories were deleted after explicit approval.")
        (lits ["single-use approval", "app-private database", "delete count captured",
          "remaining count verified"]) }
  | .timerCreate, .phoneTimerCreate durationSeconds skipClockUi => some {
      toolName := PhoneTool.timerCreate.name
      acceptedMessage := lit "Approved timer creation accepted on this phone."
      completedMessage := lit "The timer intent was sent to an allowlisted system Clock."
      failureMessage := lit "An allowlisted system Clock timer could not be started"
      execute := .createTimer durationSeconds skipClockUi
      validate := fun
        | .timerDispatched durationSeconds' clockPackage clockActivity systemApplication
            skipClockUiRequested systemAction =>
          durationSeconds' = durationSeconds && skipClockUiRequested = skipClockUi &&
            (PhoneContent.timerDispatched durationSeconds' clockPackage clockActivity
              systemApplication skipClockUiRequested systemAction).matchesToolContract
        | _ => false
      verification := .unverified
        (lit "Timer intent dispatched, but Clock timer state is not readable by GOFFY.")
        (lits ["single-use approval", "exact requested duration",
          "explicit allowlisted Clock component", "documented system timer action",
          "Clock postcondition unavailable"]) }
  | _, _ => none

end GoffyPhone
