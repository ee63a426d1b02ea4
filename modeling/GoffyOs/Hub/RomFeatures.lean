import GoffyOs.Scripts.RomFeaturePayload

/-!
# The tool `goffy.rom.features`

The Hub shows the feature payload of ROM-0 when the script has no findings about it, when the payload
keeps to the policy, and when its texts, names and counts are within their bounds. Otherwise the answer is
a fixed one, without features.
-/

namespace GoffyHub.RomFeatures

open Python Regex GoffyScripts
open Rom hiding containsPathLikeText textValue

def supportedSchema : Str := "goffy.rom-feature-payload.v1".toList
def maxFeatures : ℕ := 8
def maxFeatureCount : ℕ := 100
def maxFeatureTitleLength : ℕ := 96
def maxRuntimePolicyLength : ℕ := 128
def maxToolIdLength : ℕ := 64
def maxToolsPerFeature : ℕ := 12
def maxBlockedActions : ℕ := 12
def maxBlockedActionLength : ℕ := 64
def maxNotes : ℕ := 4
def maxNoteLength : ℕ := 160
def maxPayloadNameLength : ℕ := 96

/-! ### Texts and names -/

/-- `SAFE_TEXT_SLASH_TOKEN`. -/
def safeTextSlashToken : Pattern :=
  .inTurn [.boundary, .oneOf [acronyms, .literal "home/system-app", .literal "app/default-launcher"],
    .boundary]

/-- `[a-z0-9_]`. -/
def nameSet : CharSet := .ranges [('a', 'z'), ('0', '9'), ('_', '_')]

/-- `IDENTIFIER_PATTERN`. -/
def identifierPattern : Pattern :=
  .inTurn [.start, .one (.ranges [('a', 'z')]), .between (.one nameSet) 1 63, .finish]

/-- `TOOL_ID_PATTERN`. -/
def toolIdPattern : Pattern :=
  .inTurn [.start, .one (.ranges [('a', 'z')]), .star (.one nameSet),
    .plus (.inTurn [.one (.char '.'), .one (.ranges [('a', 'z')]), .star (.one nameSet)]), .finish]

/-- `_contains_path_like_text`. -/
def containsPathLikeText (value : Str) : Bool :=
  contains (casefold value) "file://".toList || value.contains '\\' ||
    (remove (re false) safeTextSlashToken value).contains '/'

/-- `_safe_display_text`. -/
def safeDisplayText (value : Str) (maximum : ℕ) : Except RomError Str :=
  shownText containsPathLikeText value maximum

/-- `_safe_identifier`. -/
def safeIdentifier (value : Str) : Except RomError Str :=
  if isMatch (re false) identifierPattern (strip value) = true then .ok (strip value)
  else .error (.valueError "identifier is unsupported")

/-- `_safe_tool_id`. -/
def safeToolId (value : Str) : Except RomError Str :=
  if (strip value).length ≤ maxToolIdLength ∧ isMatch (re false) toolIdPattern (strip value) = true then
    .ok (strip value)
  else .error (.valueError "tool identifier is unsupported")

/-- `_text_value`. -/
def textValue (value : Option Json) (default : Str) : Str :=
  match value with
  | some (.str s) => if strip s = [] then default else s
  | _ => default

/-- A text field of an output: the bounds of its length, and then its validator. -/
def validDisplay (value : Str) (maxLength maximum : ℕ) : Except RomError Str :=
  if 1 ≤ value.length ∧ value.length ≤ maxLength then safeDisplayText value maximum
  else .error .validationError

/-- A list of names in an output: the bounds of their lengths, and then the validator. -/
def validNames (values : List Str) (maxItems maxLength : ℕ) (validator : Str → Except RomError Str) :
    Except RomError (List Str) := do
  if maxItems < values.length ∨ ∃ value ∈ values, ¬ (1 ≤ value.length ∧ value.length ≤ maxLength) then
    throw .validationError
  values.mapM validator

/-! ### Features -/

/-- `GoffyRomFeatureOutput`. The fields with one value only are left out. -/
structure GoffyRomFeatureOutput where
  featureIndex : ℕ
  title : Str
  executionTargets : List Str
  mcpTools : List Str
  mcpToolCount : ℕ
  androidPermissionCount : ℕ
  runtimePolicy : Str
  appPrivateDestructiveToolCount : ℕ

/-- The validation of `GoffyRomFeatureOutput(…)`. -/
def GoffyRomFeatureOutput.create (f : GoffyRomFeatureOutput) : Except RomError GoffyRomFeatureOutput := do
  if f.featureIndex = 0 then throw .validationError
  validCount f.featureIndex maxFeatureCount
  let title ← validDisplay f.title maxFeatureTitleLength maxRuntimePolicyLength
  validCount f.executionTargets.length 3
  let mcpTools ← validNames f.mcpTools maxToolsPerFeature maxToolIdLength safeToolId
  validCount f.mcpToolCount maxFeatureCount
  validCount f.androidPermissionCount maxFeatureCount
  let runtimePolicy ← validDisplay f.runtimePolicy maxRuntimePolicyLength maxRuntimePolicyLength
  validCount f.appPrivateDestructiveToolCount maxFeatureCount
  return { f with title, mcpTools, runtimePolicy }

/-- `_execution_targets`. -/
def executionTargets (value : Option Json) : Except RomError (List Str) := do
  let targets := stringItems value
  if targets = [] then throw (.valueError "ROM feature execution targets are missing")
  targets.mapM fun target =>
    if target ∈ ["PHONE".toList, "MAC".toList, "CLOUD".toList] then .ok target
    else .error (.valueError "ROM feature execution target is unsupported")

/-- `_mcp_tools`. -/
def mcpTools (value : Option Json) : Except RomError (List Str) := (stringItems value).mapM safeToolId

/-- One round of the loop of `_feature_outputs`; a feature that is not part of ROM-0 is passed over. -/
def featureOutput (index : ℕ) (item : Members) : Except RomError (Option GoffyRomFeatureOutput) := do
  if isTrue (get item "included_in_rom0") = false then return none
  if isTrue (get item "foreground_only") = false then
    throw (.valueError "ROM-0 feature must remain foreground-only")
  if isFalse (get item "background_access") = false then
    throw (.valueError "ROM-0 feature must not request background access")
  if isFalse (get item "privileged_required") = false then
    throw (.valueError "ROM-0 feature must not request privileged authority")
  if isFalse (get item "rom_destructive_action") = false then
    throw (.valueError "ROM-0 feature must not request ROM-destructive actions")
  let title ← safeDisplayText
    (textValue (get item "title") ("GOFFY ROM feature ".toList ++ natStr index)) maxFeatureTitleLength
  let executionTargets ← executionTargets (get item "execution_targets")
  let tools ← mcpTools (get item "mcp_tools")
  let runtimePolicy ← safeDisplayText
    (textValue (get item "runtime_policy") "foreground visible audited".toList) maxRuntimePolicyLength
  let output ← GoffyRomFeatureOutput.create {
    featureIndex := index, title, executionTargets
    mcpTools := tools.take maxToolsPerFeature
    mcpToolCount := tools.length
    androidPermissionCount := (stringItems (get item "android_permissions")).length
    runtimePolicy
    appPrivateDestructiveToolCount := (stringItems (get item "app_private_destructive_tools")).length }
  return some output

/-- The loop of `_feature_outputs`, from an index on. -/
def featureOutputsFrom (index : ℕ) : List Members → Except RomError (List GoffyRomFeatureOutput)
  | [] => .ok []
  | item :: items => do
    let output ← featureOutput index item
    let outputs ← featureOutputsFrom (index + 1) items
    return output.toList ++ outputs

/-- `_feature_outputs`. -/
def featureOutputs (rawFeatures : List Members) : Except RomError (List GoffyRomFeatureOutput) := do
  if maxFeatureCount < rawFeatures.length then
    throw (.valueError "ROM feature payload contains too many features")
  let outputs ← featureOutputsFrom 1 rawFeatures
  if outputs.isEmpty then throw (.valueError "ROM feature payload contains no included ROM-0 features")
  return outputs

/-! ### The answer -/

/-- `GoffyRomFeaturesOutput`. The fields with one value only are left out. -/
structure GoffyRomFeaturesOutput where
  status : Str
  payloadName : Str
  appPrivateDestructiveToolsIncluded : Bool
  featureCount : ℕ
  features : List GoffyRomFeatureOutput
  featuresTruncated : Bool
  mcpToolCount : ℕ
  androidPermissionCount : ℕ
  blockedRomActionCount : ℕ
  blockedRomActions : List Str
  blockedRomActionsTruncated : Bool
  notes : List Str
  notesTruncated : Bool
  checkedFeaturePayload : Bool

/-- The validation of `GoffyRomFeaturesOutput(…)`. -/
def GoffyRomFeaturesOutput.create (o : GoffyRomFeaturesOutput) : Except RomError GoffyRomFeaturesOutput := do
  validLiteral o.status ["available", "missing", "invalid"]
  let payloadName ← validDisplay o.payloadName maxPayloadNameLength maxPayloadNameLength
  validCount o.featureCount maxFeatureCount
  validCount o.features.length maxFeatures
  validCount o.mcpToolCount maxFeatureCount
  validCount o.androidPermissionCount maxFeatureCount
  validCount o.blockedRomActionCount maxFeatureCount
  let blockedRomActions ←
    validNames o.blockedRomActions maxBlockedActions maxBlockedActionLength safeIdentifier
  let notes ← validNames o.notes maxNotes maxNoteLength fun note => safeDisplayText note maxNoteLength
  return { o with payloadName, blockedRomActions, notes }

/-- The answer without features: `_missing_features` and `_invalid_features`. -/
def withoutFeatures (status note : String) : GoffyRomFeaturesOutput where
  status := status.toList
  payloadName := "GOFFY ROM-0 Payload".toList
  appPrivateDestructiveToolsIncluded := false
  featureCount := 0
  features := []
  featuresTruncated := false
  mcpToolCount := 0
  androidPermissionCount := 0
  blockedRomActionCount := 0
  blockedRomActions := []
  blockedRomActionsTruncated := false
  notes := [note.toList]
  notesTruncated := false
  checkedFeaturePayload := false

/-- `_missing_features`. -/
def missingFeatures : Except RomError GoffyRomFeaturesOutput :=
  (withoutFeatures "missing" "GOFFY ROM feature payload is missing").create

/-- `_invalid_features`. -/
def invalidFeatures (note : String) : Except RomError GoffyRomFeaturesOutput :=
  (withoutFeatures "invalid" note).create

/-- `value == expected`, for a number that is zero or one, as booleans are. -/
def isBit (expected : ℤ) (value : Option Json) : Bool :=
  match value with
  | some (.float repr) => if expected = 0 then repr = "0.0".toList ∨ repr = "-0.0".toList
      else repr = "1.0".toList
  | _ => intValue value = some expected

/-- What `_validate_payload_policy` asks of a key. -/
def requiredPolicy : List (String × (Option Json → Bool)) := [
  ("schema_version", (isStr · supportedSchema)),
  ("target_stage", (isStr · "ROM-0".toList)),
  ("default_performance_mode", (isStr · "GOFFY LITE".toList)),
  ("rom0_flashable", isBit 0), ("privileged", isBit 0), ("platform_signed", isBit 0),
  ("rom_destructive_actions_included", isBit 0), ("requires_user_selected_home", isBit 1),
  ("local_model_policy", (isStr · "disabled_by_default_observe_only".toList))]

/-- `_validate_payload_policy`. -/
def validatePayloadPolicy (descriptor : Members) : Except RomError Unit :=
  match requiredPolicy.find? fun required => !required.2 (get descriptor required.1) with
  | none => .ok ()
  | some (key, _) => .error (.valueError ("ROM feature payload " ++ key ++ " is unsupported"))

/-- What the tool finds of a repository. -/
structure Root where
  directoryIsSymlink : Bool
  descriptor : Artifact
  /-- `scripts/validate_rom_feature_payload.py` is a regular file. -/
  hasValidator : Bool
  repository : RomFeatures.Repository

section

variable (containerStr : Json → Str)

/-- `_validate_full_feature_payload_contract`. Where the script raises, that is caught as its findings
are. -/
def validateFullFeaturePayloadContract (root : Root) (descriptor : Members) : Except RomError Unit :=
  if root.hasValidator = false then .error (.valueError "GOFFY ROM feature payload validator is missing")
  else match RomFeatures.validateRomFeaturePayload containerStr root.repository descriptor with
    | some [] => .ok ()
    | _ => .error (.valueError "GOFFY ROM feature payload failed full contract validation")

/-- The body of the `try` of `goffy_rom_features_snapshot`. -/
def availableFeatures (root : Root) (descriptor : Members) : Except RomError GoffyRomFeaturesOutput := do
  validateFullFeaturePayloadContract containerStr root descriptor
  validatePayloadPolicy descriptor
  let outputs ← featureOutputs (RomFeatures.featureObjects
    (RomFeatures.listValue (get descriptor "features")))
  let blockedActions ← (stringItems (get descriptor "blocked_rom_actions")).mapM safeIdentifier
  let notes ← (stringItems (get descriptor "notes")).mapM fun note => safeDisplayText note maxNoteLength
  let payloadName ← safeDisplayText
    (textValue (get descriptor "payload_name") "GOFFY ROM-0 Payload".toList) maxPayloadNameLength
  GoffyRomFeaturesOutput.create {
    status := "available".toList
    payloadName
    appPrivateDestructiveToolsIncluded :=
      isTrue (get descriptor "app_private_destructive_tools_included")
    featureCount := outputs.length
    features := outputs.take maxFeatures
    featuresTruncated := maxFeatures < outputs.length
    mcpToolCount := (outputs.flatMap (·.mcpTools)).dedup.length
    androidPermissionCount := (outputs.map (·.androidPermissionCount)).sum
    blockedRomActionCount := blockedActions.eraseDups.length
    blockedRomActions := blockedActions.eraseDups.take maxBlockedActions
    blockedRomActionsTruncated := maxBlockedActions < blockedActions.eraseDups.length
    notes := notes.eraseDups.take maxNotes
    notesTruncated := maxNotes < notes.eraseDups.length
    checkedFeaturePayload := true }

/-- `goffy_rom_features_snapshot`. -/
def goffyRomFeaturesSnapshot (root : Root) : Except RomError GoffyRomFeaturesOutput :=
  if root.directoryIsSymlink then
    invalidFeatures "GOFFY ROM feature directory is not a regular local directory"
  else match root.descriptor with
    | .missing => missingFeatures
    | .notRegular => invalidFeatures "GOFFY ROM feature payload is not a regular local artifact"
    | .unreadable =>
      invalidFeatures "GOFFY ROM feature payload contains unsafe or unsupported fields"
    | .object descriptor => match availableFeatures containerStr root descriptor with
      | .ok o => .ok o
      | .error _ => invalidFeatures "GOFFY ROM feature payload contains unsafe or unsupported fields"

end

end GoffyHub.RomFeatures
