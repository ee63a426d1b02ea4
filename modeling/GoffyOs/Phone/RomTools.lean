import GoffyOs.Kotlin.Regex
import GoffyOs.Phone.HubTools

/-!
# The ROM tools, on the phone (`protocol/GoffyToolContracts.kt`)

The contracts of `goffy.rom.status`, `goffy.rom.checklist` and `goffy.rom.features`. A text of them is shown when it names no
path and no command.
-/

namespace GoffyPhone

open Kotlin Regex

def goffyRomMilestone : Str := lit "ROM-0"
def maxGoffyRomSummaryLength : ℕ := 192
def maxGoffyRomTimestampLength : ℕ := 64
def maxGoffyRomSchemaLength : ℕ := 64
def maxGoffyRomStatusLength : ℕ := 96
def maxGoffyRomBlockers : ℕ := 8
def maxGoffyRomBlockerLength : ℕ := 160
def maxGoffyRomNextActionLength : ℕ := 192
def maxGoffyRomBlockerCount : ℤ := 10000
def maxGoffyRomChecklistSteps : ℕ := 6
def maxGoffyRomChecklistStepCount : ℤ := 100
def maxGoffyRomChecklistTitleLength : ℕ := 96
def maxGoffyRomChecklistSummaryLength : ℕ := 192
def maxGoffyRomFeatures : ℕ := 8
def maxGoffyRomFeatureCount : ℤ := 100
def maxGoffyRomFeatureTitleLength : ℕ := 96
def maxGoffyRomFeaturePayloadNameLength : ℕ := 96
def maxGoffyRomRuntimePolicyLength : ℕ := 128
def maxGoffyRomToolsPerFeature : ℕ := 12
def maxGoffyRomBlockedActions : ℕ := 12
def maxGoffyRomNotes : ℕ := 4
def maxGoffyRomNoteLength : ℕ := 160
def goffyRomLocalModelPolicy : Str := lit "disabled_by_default_observe_only"
def goffyRomReadyStatus : Str := lit "READY_FOR_ROM0_READINESS_REVIEW"
def goffyRomStatusValues : List Str := [lit "available", lit "missing", lit "invalid"]
def goffyRomInstallDecisionValues : List Str := [lit "BLOCKED", lit "READY_FOR_MANUAL_REVIEW"]
def goffyRomChecklistAvailableStatusValues : List Str := [lit "BLOCKED_EVIDENCE", goffyRomReadyStatus]
def goffyRomChecklistStatusValues : List Str :=
  goffyRomChecklistAvailableStatusValues ++ [lit "MISSING", lit "INVALID"]
def goffyRomChecklistStepStatusValues : List Str := [lit "DONE", lit "READY", lit "BLOCKED"]
def goffyRomChecklistNextStepStatusValues : List Str :=
  goffyRomChecklistStepStatusValues ++ [lit "MISSING", lit "INVALID"]
def goffyRomChecklistStepKindValues : List Str :=
  [lit "LOCAL_READ_ONLY", lit "HUMAN_ONLY", lit "TEMPLATE_ONLY", lit "HUMAN_DECISION"]

def goffyRomFeatureExecutionTargetValues : List Str := [lit "PHONE", lit "MAC", lit "CLOUD"]

/-- `[a-z0-9_]`. -/
def goffyRomNameSet : CharSet := .ranges [('a', 'z'), ('0', '9'), ('_', '_')]

/-- `GOFFY_ROM_SAFE_IDENTIFIER`. -/
def goffyRomSafeIdentifier : Pattern :=
  .inTurn [.start, .one (.ranges [('a', 'z')]), .between (.one goffyRomNameSet) 1 63, .finish]

/-- `GOFFY_ROM_SAFE_TOOL_ID`. -/
def goffyRomSafeToolId : Pattern :=
  .inTurn [.start, .one (.ranges [('a', 'z')]), .star (.one goffyRomNameSet),
    .plus (.inTurn [.one (.char '.'), .one (.ranges [('a', 'z')]), .star (.one goffyRomNameSet)]), .finish]

/-- `GOFFY_ROM_COMMAND_TEXT_PATTERNS`. -/
def goffyRomCommandTextPatterns : List Pattern := [
  .inTurn [.boundary, .oneOf [.literal "adb", .literal "fastboot"], .plus (.one .space),
    .oneOf [.literal "reboot", .literal "shell", .literal "sideload", .literal "push",
      .literal "install", .literal "uninstall", .literal "root", .literal "remount",
      .literal "disable-verity", .literal "enable-verity", .literal "flash", .literal "flashing",
      .literal "oem", .literal "erase", .literal "wipe", .literal "boot", .literal "getvar",
      .literal "devices"], .boundary],
  .inTurn [.boundary, .oneOf [.literal "avbctl", .literal "magisk"], .boundary],
  .inTurn [.boundary, .oneOf [.literal "sh", .literal "su", .literal "pm", .literal "cmd",
    .literal "am", .literal "rm", .literal "dd", .literal "mkfs"], .plus (.one .space)],
  .inTurn [.boundary, .literal "reboot", .plus (.one .space),
    .oneOf [.literal "bootloader", .literal "fastboot", .literal "recovery"], .boundary],
  .inTurn [.boundary, .literal "flash", .plus (.one .space),
    .oneOf [.literal "boot", .literal "system", .literal "vendor", .literal "vbmeta",
      .literal "image"], .boundary],
  .inTurn [.boundary, .literal "boot", .plus (.one .space), .plus (.one .notSpace), .literal ".img",
    .boundary],
  .inTurn [.boundary, .literal "shell", .boundary]]

/-- `[A-Z0-9]{2,8}`. -/
def acronym : Pattern := .between (.one (.ranges [('A', 'Z'), ('0', '9')])) 2 8

/-- `GOFFY_ROM_SAFE_SLASH_TOKEN`. -/
def goffyRomSafeSlashToken : Pattern :=
  .inTurn [.boundary,
    .oneOf [.seq acronym (.plus (.seq (.one (.char '/')) acronym)), .literal "home/system-app",
      .literal "app/default-launcher"], .boundary]

/-- `containsGoffyRomPathLikeText`. -/
def containsGoffyRomPathLikeText (s : Str) : Bool :=
  s.contains backslash || containsIgnoreCase s (lit "file://") ||
    (remove (regex false) goffyRomSafeSlashToken s).contains slash

/-- `isSafeRomStatusField`. -/
def isSafeRomStatusField (s : Str) (maximum : ℕ) : Bool :=
  isSafeDisplayField s maximum && !containsGoffyRomPathLikeText s &&
    !goffyRomCommandTextPatterns.any fun pattern => search (regex true) pattern s

/-! ### `goffy.rom.status` -/

structure GoffyRomStatus where
  status : Str
  milestone : Str
  summary : Str
  generatedAt : Str
  refreshSchemaVersion : Str
  refreshStatus : Str
  packetStatus : Str
  bootloaderVisibilityStatus : Str
  operatorChecklistStatus : Str
  installDecision : Str
  unlockGateStatus : Str
  stockRestoreGateStatus : Str
  gsiCandidateGateStatus : Str
  dsuPreflightGateStatus : Str
  fastbootGateStatus : Str
  destructiveApprovalStatus : Str
  romReady : Bool
  destructiveActions : Str
  blockerCount : ℤ
  blockers : List Str
  blockersTruncated : Bool
  nextAction : Str
  staleReport : Bool
  checkedRefreshReport : Bool
  checkedOperatorChecklist : Bool

/-- What both contracts ask of the blockers that are shown. -/
def blockersMatchCount (blockers : List Str) (blockerCount : ℤ) (blockersTruncated : Bool) : Bool :=
  inRange 0 maxGoffyRomBlockerCount blockerCount && blockers.length ≤ maxGoffyRomBlockers &&
    (blockers.length : ℤ) ≤ blockerCount &&
    (if blockersTruncated then (blockers.length : ℤ) < blockerCount
      else (blockers.length : ℤ) = blockerCount) &&
    blockers.all (isSafeRomStatusField · maxGoffyRomBlockerLength)

/-- `GoffyRomStatus.matchesToolContract`. -/
def GoffyRomStatus.matchesToolContract (s : GoffyRomStatus) : Bool :=
  s.status ∈ goffyRomStatusValues && s.milestone = goffyRomMilestone &&
    isSafeRomStatusField s.summary maxGoffyRomSummaryLength &&
    isSafeRomStatusField s.generatedAt maxGoffyRomTimestampLength &&
    isSafeRomStatusField s.refreshSchemaVersion maxGoffyRomSchemaLength &&
    isSafeRomStatusField s.refreshStatus maxGoffyRomStatusLength &&
    isSafeRomStatusField s.packetStatus maxGoffyRomStatusLength &&
    isSafeRomStatusField s.bootloaderVisibilityStatus maxGoffyRomStatusLength &&
    isSafeRomStatusField s.operatorChecklistStatus maxGoffyRomStatusLength &&
    s.installDecision ∈ goffyRomInstallDecisionValues &&
    isSafeRomStatusField s.unlockGateStatus maxGoffyRomStatusLength &&
    isSafeRomStatusField s.stockRestoreGateStatus maxGoffyRomStatusLength &&
    isSafeRomStatusField s.gsiCandidateGateStatus maxGoffyRomStatusLength &&
    isSafeRomStatusField s.dsuPreflightGateStatus maxGoffyRomStatusLength &&
    isSafeRomStatusField s.fastbootGateStatus maxGoffyRomStatusLength &&
    s.destructiveApprovalStatus = lit "WITHHELD" && s.destructiveActions = lit "withheld" &&
    blockersMatchCount s.blockers s.blockerCount s.blockersTruncated &&
    isSafeRomStatusField s.nextAction maxGoffyRomNextActionLength &&
    (!s.romReady || s.status = lit "available") && (!s.romReady || s.blockerCount = 0) &&
    (!s.romReady || !s.staleReport) && (!s.romReady || s.checkedRefreshReport) &&
    (!s.romReady || s.checkedOperatorChecklist) &&
    (!s.romReady || s.refreshStatus = goffyRomReadyStatus) &&
    (!s.romReady || s.packetStatus = goffyRomReadyStatus) &&
    (!s.romReady || s.operatorChecklistStatus = goffyRomReadyStatus) &&
    (!s.romReady || s.installDecision = lit "READY_FOR_MANUAL_REVIEW") &&
    (!s.romReady || s.unlockGateStatus = lit "READY") &&
    (!s.romReady || s.stockRestoreGateStatus = lit "READY") &&
    (!s.romReady || s.gsiCandidateGateStatus = lit "READY") &&
    (!s.romReady || s.dsuPreflightGateStatus = lit "READY") &&
    (!s.romReady || s.fastbootGateStatus = lit "READY") &&
    (s.romReady || s.installDecision = lit "BLOCKED") && (s.romReady || 0 < s.blockerCount)

/-! ### `goffy.rom.checklist` -/

structure GoffyRomChecklistStep where
  stepIndex : ℤ
  title : Str
  kind : Str
  status : Str
  summary : Str
  blocked : Bool
  blockerCount : ℤ

structure GoffyRomChecklist where
  status : Str
  milestone : Str
  generatedAt : Str
  checklistStatus : Str
  destructiveActions : Str
  totalStepCount : ℤ
  doneStepCount : ℤ
  remainingStepCount : ℤ
  nextSteps : List GoffyRomChecklistStep
  nextStepsTruncated : Bool
  blockerCount : ℤ
  blockers : List Str
  blockersTruncated : Bool
  nextStepTitle : Str
  nextStepStatus : Str
  nextAction : Str
  checkedOperatorChecklist : Bool

/-- `GoffyRomChecklistStep.matchesToolContract`. -/
def GoffyRomChecklistStep.matchesToolContract (s : GoffyRomChecklistStep) : Bool :=
  inRange 1 maxGoffyRomChecklistStepCount s.stepIndex &&
    isSafeRomStatusField s.title maxGoffyRomChecklistTitleLength &&
    s.kind ∈ goffyRomChecklistStepKindValues && s.status ∈ goffyRomChecklistStepStatusValues &&
    isSafeRomStatusField s.summary maxGoffyRomChecklistSummaryLength &&
    inRange 0 maxGoffyRomChecklistStepCount s.blockerCount &&
    s.blocked = (s.status = lit "BLOCKED" || 0 < s.blockerCount)

/-- `GoffyRomChecklist.matchesToolContract`. -/
def GoffyRomChecklist.matchesToolContract (c : GoffyRomChecklist) : Bool :=
  c.status ∈ goffyRomStatusValues && c.milestone = goffyRomMilestone &&
    isSafeRomStatusField c.generatedAt maxGoffyRomTimestampLength &&
    c.checklistStatus ∈ goffyRomChecklistStatusValues && c.destructiveActions = lit "withheld" &&
    inRange 0 maxGoffyRomChecklistStepCount c.totalStepCount &&
    inRange 0 c.totalStepCount c.doneStepCount &&
    c.remainingStepCount = c.totalStepCount - c.doneStepCount &&
    c.nextSteps.length ≤ maxGoffyRomChecklistSteps &&
    (c.nextSteps.length : ℤ) ≤ c.remainingStepCount &&
    (if c.nextStepsTruncated then (c.nextSteps.length : ℤ) < c.remainingStepCount
      else (c.nextSteps.length : ℤ) = c.remainingStepCount) &&
    c.nextSteps.all GoffyRomChecklistStep.matchesToolContract &&
    (c.nextSteps.map (·.stepIndex)).dedup.length = c.nextSteps.length &&
    blockersMatchCount c.blockers c.blockerCount c.blockersTruncated &&
    isSafeRomStatusField c.nextStepTitle maxGoffyRomChecklistTitleLength &&
    c.nextStepStatus ∈ goffyRomChecklistNextStepStatusValues &&
    isSafeRomStatusField c.nextAction maxGoffyRomNextActionLength &&
    (c.status ≠ lit "available" || c.checkedOperatorChecklist) &&
    (c.status = lit "available" || !c.checkedOperatorChecklist) &&
    (c.status ≠ lit "available" || 0 < c.totalStepCount) &&
    (c.status ≠ lit "available" || c.checklistStatus ∈ goffyRomChecklistAvailableStatusValues) &&
    (c.status = lit "available" || c.checklistStatus ∉ goffyRomChecklistAvailableStatusValues)

/-! ### `goffy.rom.features` -/

structure GoffyRomFeature where
  featureIndex : ℤ
  title : Str
  executionTargets : List Str
  mcpTools : List Str
  mcpToolCount : ℤ
  androidPermissionCount : ℤ
  runtimePolicy : Str
  foregroundOnly : Bool
  backgroundAccess : Bool
  privilegedRequired : Bool
  romDestructiveAction : Bool
  appPrivateDestructiveToolCount : ℤ

structure GoffyRomFeatures where
  status : Str
  payloadName : Str
  targetStage : Str
  defaultPerformanceMode : Str
  rom0Flashable : Bool
  privileged : Bool
  platformSigned : Bool
  romDestructiveActionsIncluded : Bool
  appPrivateDestructiveToolsIncluded : Bool
  requiresUserSelectedHome : Bool
  localModelPolicy : Str
  featureCount : ℤ
  features : List GoffyRomFeature
  featuresTruncated : Bool
  mcpToolCount : ℤ
  androidPermissionCount : ℤ
  blockedRomActionCount : ℤ
  blockedRomActions : List Str
  blockedRomActionsTruncated : Bool
  notes : List Str
  notesTruncated : Bool
  destructiveActions : Str
  checkedFeaturePayload : Bool

/-- `GoffyRomFeature.matchesToolContract`. -/
def GoffyRomFeature.matchesToolContract (f : GoffyRomFeature) : Bool :=
  inRange 1 maxGoffyRomFeatureCount f.featureIndex &&
    isSafeRomStatusField f.title maxGoffyRomFeatureTitleLength && !f.executionTargets.isEmpty &&
    f.executionTargets.length ≤ 3 &&
    f.executionTargets.all (· ∈ goffyRomFeatureExecutionTargetValues) &&
    f.mcpTools.length ≤ maxGoffyRomToolsPerFeature && (f.mcpTools.length : ℤ) ≤ f.mcpToolCount &&
    f.mcpTools.all (isMatch (regex false) goffyRomSafeToolId ·) &&
    inRange 0 maxGoffyRomFeatureCount f.mcpToolCount &&
    inRange 0 maxGoffyRomFeatureCount f.androidPermissionCount &&
    isSafeRomStatusField f.runtimePolicy maxGoffyRomRuntimePolicyLength && f.foregroundOnly &&
    !f.backgroundAccess && !f.privilegedRequired && !f.romDestructiveAction &&
    inRange 0 maxGoffyRomFeatureCount f.appPrivateDestructiveToolCount

/-- `GoffyRomFeatures.matchesToolContract`. -/
def GoffyRomFeatures.matchesToolContract (p : GoffyRomFeatures) : Bool :=
  p.status ∈ goffyRomStatusValues &&
    isSafeRomStatusField p.payloadName maxGoffyRomFeaturePayloadNameLength &&
    p.targetStage = goffyRomMilestone && p.defaultPerformanceMode = lit "GOFFY LITE" &&
    !p.rom0Flashable && !p.privileged && !p.platformSigned && !p.romDestructiveActionsIncluded &&
    p.requiresUserSelectedHome && p.localModelPolicy = goffyRomLocalModelPolicy &&
    p.destructiveActions = lit "withheld" && inRange 0 maxGoffyRomFeatureCount p.featureCount &&
    p.features.length ≤ maxGoffyRomFeatures && (p.features.length : ℤ) ≤ p.featureCount &&
    (if p.featuresTruncated then (p.features.length : ℤ) < p.featureCount
      else (p.features.length : ℤ) = p.featureCount) &&
    p.features.all GoffyRomFeature.matchesToolContract &&
    (p.features.map (·.featureIndex)).dedup.length = p.features.length &&
    p.appPrivateDestructiveToolsIncluded =
      p.features.any (fun feature => 0 < feature.appPrivateDestructiveToolCount) &&
    inRange 0 maxGoffyRomFeatureCount p.mcpToolCount &&
    inRange 0 maxGoffyRomFeatureCount p.androidPermissionCount &&
    inRange 0 maxGoffyRomFeatureCount p.blockedRomActionCount &&
    p.blockedRomActions.length ≤ maxGoffyRomBlockedActions &&
    (p.blockedRomActions.length : ℤ) ≤ p.blockedRomActionCount &&
    (if p.blockedRomActionsTruncated then (p.blockedRomActions.length : ℤ) < p.blockedRomActionCount
      else (p.blockedRomActions.length : ℤ) = p.blockedRomActionCount) &&
    p.blockedRomActions.all (isMatch (regex false) goffyRomSafeIdentifier ·) &&
    p.notes.length ≤ maxGoffyRomNotes && p.notes.all (isSafeRomStatusField · maxGoffyRomNoteLength) &&
    (if p.notesTruncated then (p.notes.length : ℤ) < maxGoffyRomFeatureCount else true) &&
    (p.status ≠ lit "available" || p.checkedFeaturePayload) &&
    (p.status = lit "available" || !p.checkedFeaturePayload) &&
    (p.status ≠ lit "available" || 0 < p.featureCount)

end GoffyPhone
