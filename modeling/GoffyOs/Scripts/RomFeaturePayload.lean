import GoffyOs.Scripts.Values
import Mathlib.Data.Char
import Mathlib.Data.Finset.Sort
import Mathlib.Data.List.Lex

/-!
# The check of the feature payload (`scripts/validate_rom_feature_payload.py`)

The payload says which features ROM-0 has. The script compares it with tables of its own, with two more
descriptors and with the tool names of the phone; what it finds wrong are its findings. A payload without
findings has exactly the eight features of the tables (`covered_of_no_findings`).
-/

namespace GoffyScripts.RomFeatures

open Python Regex
open GoffyHub.Rom (Members get isTrue)

/-! ### Tables -/

def schemaVersion : Str := "goffy.rom-feature-payload.v1".toList
def systemAppSchemaVersion : Str := "goffy.rom-system-app.v1".toList
def productOverlaySchemaVersion : Str := "goffy.rom-product-overlay.v1".toList

/-- A set of texts. -/
def textSet (texts : List String) : Finset Str := (texts.map String.toList).toFinset

/-- `FEATURE_ID_PATTERN`. -/
def featureIdPattern : Pattern :=
  .inTurn [.start, .one (.ranges [('a', 'z')]),
    .between (.one (.ranges [('a', 'z'), ('0', '9'), ('_', '_')])) 2 48, .finish]

/-- `REQUIRED_FEATURE_IDS`. -/
def requiredFeatureIds : Finset Str :=
  textSet ["agent_loop_timeline", "charging_dock_awake", "foreground_voice_camera", "home_surface",
    "local_intent_fallback", "phone_tools", "rom_status", "secure_mac_hub"]

/-- `ALLOWED_EXECUTION_TARGETS`. -/
def allowedExecutionTargets : Finset Str := textSet ["PHONE", "MAC", "CLOUD"]

/-- `ALLOWED_ANDROID_PERMISSIONS`. -/
def allowedAndroidPermissions : Finset Str :=
  textSet ["android.permission.CAMERA", "android.permission.INTERNET", "android.permission.RECORD_AUDIO",
    "com.android.alarm.permission.SET_ALARM"]

/-- `FOREGROUND_ONLY_PERMISSIONS`. -/
def foregroundOnlyPermissions : Finset Str :=
  textSet ["android.permission.CAMERA", "android.permission.RECORD_AUDIO"]

def phoneTools : List String :=
  ["phone.battery.status", "phone.device.info", "phone.flashlight.set", "phone.memory.forget",
    "phone.memory.forget_all", "phone.memory.list", "phone.memory.remember", "phone.memory.update",
    "phone.note.create", "phone.ocr.read", "phone.qr.read", "phone.timer.create"]

def romTools : List String := ["goffy.rom.checklist", "goffy.rom.features", "goffy.rom.status"]

/-- `ALLOWED_MCP_TOOLS`. -/
def allowedMcpTools : Finset Str := textSet (romTools ++ "mac.system_info" :: phoneTools)

/-- What the tables say of a feature: its row in each of the `EXPECTED_FEATURE_…`. -/
structure Expected where
  targets : Finset Str
  androidPermissions : Finset Str
  mcpTools : Finset Str
  appPrivateDestructiveTools : Finset Str

/-- The rows of the four tables. -/
def expectedFeatures : List (String × Expected) := [
  ("agent_loop_timeline", ⟨allowedExecutionTargets, ∅, ∅, ∅⟩),
  ("charging_dock_awake", ⟨textSet ["PHONE"], ∅, ∅, ∅⟩),
  ("foreground_voice_camera",
    ⟨textSet ["PHONE"], foregroundOnlyPermissions, textSet ["phone.ocr.read", "phone.qr.read"], ∅⟩),
  ("home_surface", ⟨textSet ["PHONE"], ∅, textSet ["phone.device.info"], ∅⟩),
  ("local_intent_fallback", ⟨textSet ["PHONE"], ∅, ∅, ∅⟩),
  ("phone_tools",
    ⟨textSet ["PHONE"], textSet ["android.permission.CAMERA", "com.android.alarm.permission.SET_ALARM"],
      textSet phoneTools, textSet ["phone.memory.forget", "phone.memory.forget_all"]⟩),
  ("rom_status", ⟨textSet ["MAC"], ∅, textSet romTools, ∅⟩),
  ("secure_mac_hub",
    ⟨textSet ["MAC"], textSet ["android.permission.INTERNET"],
      textSet (romTools ++ ["mac.system_info"]), ∅⟩)]

/-- `.get(feature_id)` of the tables, which have the same keys. -/
def expectedFeature (featureId : Str) : Option Expected :=
  (expectedFeatures.find? fun row => row.1.toList = featureId).map (·.2)

/-- `REQUIRED_BLOCKED_ACTIONS`. -/
def requiredBlockedActions : Finset Str :=
  textSet ["background_camera", "background_microphone", "disable_verity", "flash_image",
    "platform_signing", "privileged_permission_grants", "reboot_bootloader", "root_or_su",
    "unlock_bootloader", "unrestricted_shell", "wipe_data"]

/-- `REQUIRED_SOURCE_BASIS_MARKERS`. -/
def requiredSourceBasisMarkers : List String :=
  ["PRODUCT_PACKAGES", "AndroidProducts.mk", "privileged permission allowlists", "GSI", "DSU"]

/-- `BLOCKED_TEXT_PATTERNS`. -/
def blockedTextPatterns : List String :=
  ["fastboot flashing unlock", "fastboot oem unlock", "adb reboot bootloader",
    "avbctl disable-verification", "disable-verity", "privileged: true", "platform key",
    "privapp-permissions"]

/-! ### The repository -/

/-- What is at a path. -/
inductive Entry
  | missing
  | directory
  /-- a file, with what `json.loads` reads of it; `none`: reading it raises -/
  | file (json : Option Json)

def Entry.isFile : Entry → Bool
  | .file _ => true
  | _ => false

def Entry.exists : Entry → Bool
  | .missing => false
  | _ => true

/-- What the script reads beside the payload. A path is the list of its parts. -/
structure Repository where
  entry : List Str → Entry
  /-- the text of `GoffyToolNames.kt`; `none`: reading it raises -/
  androidToolNames : Option Str

/-- `load_descriptor`; `none`: it raises. -/
def loadDescriptor : Entry → Option Members
  | .file (some (.object members)) => some members
  | _ => none

/-- `relative_repo_path`, by the parts of the path below the root. -/
def relativeRepoPath (value : Option Json) : Option (List Str) :=
  match value with
  | some (.str path) =>
    let parts := (path.splitOn '/').filter fun part => part ≠ [] ∧ part ≠ ['.']
    if path = [] ∨ path.head? = some '/' ∨ "..".toList ∈ parts then none else some parts
  | _ => none

/-! ### Values -/

/-- `list_value`. -/
def listValue (value : Option Json) : List Json :=
  match value with
  | some (.array items) => items
  | _ => []

/-- `string_list`. -/
def stringList (value : Option Json) : List Str :=
  (listValue value).filterMap fun
    | .str s => some s
    | _ => none

/-- The objects of a list. -/
def featureObjects (features : List Json) : List Members :=
  features.filterMap fun
    | .object members => some members
    | _ => none

/-- A character of `json.dumps`, which writes ASCII only. -/
def escapeAscii (c : Char) : Str :=
  let unit (n : ℕ) : Str := '\\' :: 'u' :: Positional.write 16 4 n
  if c.toNat < 0x7f then escapeChar c
  else if c.toNat < 0x10000 then unit c.toNat
  else unit (0xd800 + (c.toNat - 0x10000) / 0x400) ++ unit (0xdc00 + (c.toNat - 0x10000) % 0x400)

def quoteAscii (s : Str) : Str := '"' :: (s.flatMap escapeAscii ++ ['"'])

/-- Texts with a comma and a space between them. -/
def spacedJoin : List Str → Str
  | [] => []
  | [s] => s
  | s :: t :: rest => s ++ ',' :: ' ' :: spacedJoin (t :: rest)

mutual

/-- `json.dumps(value, sort_keys=True)`. -/
def dumps : Json → Str
  | .null => "null".toList
  | .bool true => "true".toList
  | .bool false => "false".toList
  | .int n => intStr n
  | .float repr => repr
  | .str s => quoteAscii s
  | .array items => '[' :: (spacedJoin (dumpsItems items) ++ [']'])
  | .object members =>
    '{' :: (spacedJoin ((sortMembers (dumpsMembers members)).map fun m =>
      quoteAscii m.1 ++ ':' :: ' ' :: m.2) ++ ['}'])

def dumpsItems : List Json → List Str
  | [] => []
  | item :: items => dumps item :: dumpsItems items

def dumpsMembers : List (Str × Json) → List (Str × Str)
  | [] => []
  | (key, value) :: members => (key, dumps value) :: dumpsMembers members

end

/-! ### The other descriptors -/

/-- `validate_system_app_descriptor`. -/
def validateSystemAppDescriptor (entry : Entry) : Option (List Str) :=
  if !entry.isFile then some ["system_app_descriptor must point to an existing repo file".toList]
  else do
    let descriptor ← loadDescriptor entry
    let homeSurface := match get descriptor "home_surface" with
      | some (.object members) => members
      | _ => []
    return blockIf (isStr (get descriptor "schema_version") systemAppSchemaVersion = false)
        "system_app_descriptor schema_version mismatch".toList ++
      blockIf (isStr (get descriptor "module_name") "GoffyOS".toList = false)
        "system_app_descriptor module_name must be GoffyOS".toList ++
      blockIf (isFalse (get descriptor "privileged") = false)
        "system_app_descriptor must remain non-privileged".toList ++
      blockIf (isFalse (get descriptor "platform_signed") = false)
        "system_app_descriptor must not request platform signing".toList ++
      blockIf (!(get descriptor "privileged_permission_allowlist") matches some (.array []))
        "system_app_descriptor privileged allowlist must remain empty".toList ++
      blockIf (isStr (get homeSurface "policy") "user_selectable_default_home".toList = false)
        "system_app_descriptor must keep user-selectable HOME policy".toList

/-- `validate_product_overlay_descriptor`. -/
def validateProductOverlayDescriptor (entry : Entry) : Option (List Str) :=
  if !entry.isFile then some ["product_overlay_descriptor must point to an existing repo file".toList]
  else do
    let descriptor ← loadDescriptor entry
    return blockIf (isStr (get descriptor "schema_version") productOverlaySchemaVersion = false)
        "product_overlay_descriptor schema_version mismatch".toList ++
      blockIf (isStr (get descriptor "required_module") "GoffyOS".toList = false)
        "product_overlay_descriptor required_module must be GoffyOS".toList ++
      blockIf (isFalse (get descriptor "flashable") = false)
        "product_overlay_descriptor must not claim flashable".toList ++
      blockIf (isFalse (get descriptor "destructive_actions_included") = false)
        "product_overlay_descriptor must not include destructive actions".toList

/-! ### The tool names of the phone -/

/-- `re.findall`, by the first group; the pattern has no empty match. -/
def findAllFrom (p : Pattern) : ℕ → Cursor Char → List Str
  | 0, _ => []
  | fuel + 1, x =>
    match x.rest with
    | [] => []
    | a :: s =>
      match (run (re false) p x).head? with
      | none => findAllFrom p fuel ⟨a :: x.before, s, []⟩
      | some y => y.groupValue 1 :: findAllFrom p fuel ⟨y.before, y.rest, []⟩

/-- `const val PHONE_[A-Z0-9_]+_TOOL = "(phone\.[^"]+)"`. -/
def toolNamePattern : Pattern :=
  .inTurn [.literal "const val PHONE_", .plus (.one (.ranges [('A', 'Z'), ('0', '9'), ('_', '_')])),
    .literal "_TOOL = \"",
    .group 1 (.inTurn [.literal "phone.",
      .plus (.one (.ranges [(Char.ofNat 0, '!'), ('#', Char.ofNat 0x10ffff)]))]),
    .literal "\""]

/-- `source_phone_tool_names`, by the text of the file. -/
def sourcePhoneToolNames (text : Str) : Finset Str :=
  (findAllFrom toolNamePattern text.length (Regex.start text)).toFinset

/-! ### Features -/

section

variable (containerStr : Json → Str)

/-- `str(sorted(texts))`. -/
def sortedText (texts : Finset Str) : Str :=
  containerStr (.array ((texts.sort (· ≤ ·)).map .str))

/-- `validate_phone_tool_source_coverage`. -/
def validatePhoneToolSourceCoverage (features : List Json) (sourcePhoneTools : Finset Str) : List Str :=
  let descriptorPhoneTools : Finset Str :=
    (((featureObjects features).flatMap fun feature => stringList (get feature "mcp_tools")).filter
      fun tool => startswith tool "phone.".toList).toFinset
  blockIf (descriptorPhoneTools ≠ sourcePhoneTools)
    ("descriptor PHONE tools must match Android GoffyToolNames.kt constants (missing=".toList ++
      sortedText containerStr (sourcePhoneTools \ descriptorPhoneTools) ++ ", extra=".toList ++
      sortedText containerStr (descriptorPhoneTools \ sourcePhoneTools) ++ ")".toList)

/-- The policy of the camera and of the microphone. -/
def requiresForegroundPolicy (feature : Members) (androidPermissions : Finset Str) : Prop :=
  (androidPermissions ∩ foregroundOnlyPermissions).Nonempty ∧
    (contains (casefold (getStr containerStr feature "runtime_policy" [])) "foreground".toList = false ∨
      isTrue (get feature "foreground_only") = false)

instance (feature : Members) (androidPermissions : Finset Str) :
    Decidable (requiresForegroundPolicy containerStr feature androidPermissions) :=
  inferInstanceAs (Decidable (_ ∧ _))

/-- The comparison of one field of a feature with its row. -/
def validateExpected (featureId : Str) (field : String) (value : Finset Str) (expected : Option (Finset Str)) :
    List Str :=
  match expected with
  | none => []
  | some row => blockIf (value ≠ row)
      (featureId ++ ": ".toList ++ field.toList ++ " must be exactly ".toList ++ sortedText containerStr row)

/-- `validate_feature`; the path of the source module is looked up in the repository. -/
def validateFeature (entry : List Str → Entry) (feature : Members) : List Str :=
  let featureId := getStr containerStr feature "id" []
  let said (message : String) : Str := featureId ++ ": ".toList ++ message.toList
  let row := expectedFeature featureId
  let executionTargets := (stringList (get feature "execution_targets")).toFinset
  let androidPermissions := (stringList (get feature "android_permissions")).toFinset
  let tools := (stringList (get feature "mcp_tools")).toFinset
  let appPrivateDestructiveTools := (stringList (get feature "app_private_destructive_tools")).toFinset
  blockIf (isMatch (re false) featureIdPattern featureId = false)
      "feature id must be lowercase snake_case".toList ++
    blockIf (isTrue (get feature "included_in_rom0") = false)
      (said "included_in_rom0 must stay true for ROM-0 payload") ++
    blockIf (isFalse (get feature "privileged_required") = false)
      (said "privileged_required must remain false") ++
    blockIf (isFalse (get feature "background_access") = false)
      (said "background_access must remain false") ++
    blockIf (get feature "destructive_action" ≠ none)
      (said "destructive_action is ambiguous; use rom_destructive_action") ++
    blockIf (isFalse (get feature "rom_destructive_action") = false)
      (said "rom_destructive_action must remain false") ++
    blockIf (isTrue (get feature "foreground_only") = false) (said "foreground_only must remain true") ++
    blockIf (executionTargets = ∅ ∨ ¬ executionTargets ⊆ allowedExecutionTargets)
      (said "execution_targets contain unsupported targets") ++
    validateExpected containerStr featureId "execution_targets" executionTargets (row.map (·.targets)) ++
    blockIf (androidPermissions \ allowedAndroidPermissions ≠ ∅)
      (said "android_permissions not approved: " ++
        sortedText containerStr (androidPermissions \ allowedAndroidPermissions)) ++
    validateExpected containerStr featureId "android_permissions" androidPermissions
      (row.map (·.androidPermissions)) ++
    blockIf (requiresForegroundPolicy containerStr feature androidPermissions)
      (said "camera/microphone permissions require foreground policy") ++
    blockIf (tools \ allowedMcpTools ≠ ∅)
      (said "mcp_tools not in ROM-0 allowlist: " ++ sortedText containerStr (tools \ allowedMcpTools)) ++
    validateExpected containerStr featureId "mcp_tools" tools (row.map (·.mcpTools)) ++
    validateExpected containerStr featureId "app_private_destructive_tools" appPrivateDestructiveTools
      (row.map (·.appPrivateDestructiveTools)) ++
    blockIf (appPrivateDestructiveTools \ tools ≠ ∅)
      (said "app_private_destructive_tools must also appear in mcp_tools") ++
    blockIf (((relativeRepoPath (get feature "source_module")).any fun path => (entry path).exists) = false)
      (said "source_module must point to an existing repo path") ++
    blockIf (((get feature "runtime_policy") matches some (.str _)) = false ∨
        isTruthy (get feature "runtime_policy") = false)
      (said "runtime_policy must be a non-empty string") ++
    blockIf (((get feature "audit_policy") matches some (.str _)) = false ∨
        isTruthy (get feature "audit_policy") = false)
      (said "audit_policy must be a non-empty string")

/-- `validate_features`. -/
def validateFeatures (entry : List Str → Entry) (features : List Json) : List Str :=
  if features = [] then ["features must be a non-empty list".toList]
  else
    let objects := featureObjects features
    let ids := objects.map fun feature => getStr containerStr feature "id" []
    let duplicates := (ids.filter fun featureId => 1 < ids.count featureId).toFinset
    blockIf (objects.length ≠ features.length) "features must contain only JSON objects".toList ++
      blockIf (duplicates ≠ ∅)
        ("feature ids must be unique: ".toList ++ sortedText containerStr duplicates) ++
      blockIf (ids.toFinset ≠ requiredFeatureIds)
        ("features must exactly cover ROM-0 feature ids: ".toList ++
          sortedText containerStr requiredFeatureIds) ++
      objects.flatMap (validateFeature containerStr entry)

/-! ### The payload -/

/-- `validate_source_basis`. -/
def validateSourceBasis (value : Option Json) : List Str :=
  let sourceBasis := stringList value
  blockIf (sourceBasis.length < requiredSourceBasisMarkers.length)
      "source_basis must include current AOSP/GSI/DSU reuse decisions".toList ++
    requiredSourceBasisMarkers.flatMap fun marker =>
      blockIf (contains (joinLines sourceBasis) marker.toList = false)
        ("source_basis must mention ".toList ++ marker.toList)

/-- `validate_blocked_actions`. -/
def validateBlockedActions (value : Option Json) : List Str :=
  let blockedActions := (stringList value).toFinset
  blockIf (requiredBlockedActions \ blockedActions ≠ ∅)
      ("blocked_actions missing required entries: ".toList ++
        sortedText containerStr (requiredBlockedActions \ blockedActions)) ++
    blockIf (blockedActions \ requiredBlockedActions ≠ ∅)
      ("blocked_actions contains unreviewed entries: ".toList ++
        sortedText containerStr (blockedActions \ requiredBlockedActions))

/-- `validate_no_blocked_text`. -/
def validateNoBlockedText (descriptor : Members) : List Str :=
  blockedTextPatterns.flatMap fun pattern =>
    blockIf (contains (dumps (.object descriptor)) pattern.toList = true)
      ("descriptor must not contain blocked pattern: ".toList ++ pattern.toList)

/-- The findings about the values at the top of the payload. -/
def validatePolicy (descriptor : Members) : List Str :=
  blockIf (isStr (get descriptor "schema_version") schemaVersion = false)
      "descriptor schema_version mismatch".toList ++
    blockIf (isStr (get descriptor "target_stage") "ROM-0".toList = false)
      "target_stage must remain ROM-0".toList ++
    blockIf (isStr (get descriptor "default_performance_mode") "GOFFY LITE".toList = false)
      "default_performance_mode must remain GOFFY LITE".toList ++
    blockIf (isFalse (get descriptor "rom0_flashable") = false)
      "ROM-0 feature payload must not claim to be flashable".toList ++
    blockIf (isFalse (get descriptor "privileged") = false)
      "ROM-0 feature payload must remain non-privileged".toList ++
    blockIf (isFalse (get descriptor "platform_signed") = false)
      "ROM-0 feature payload must not request platform signing".toList ++
    blockIf (get descriptor "destructive_actions_included" ≠ none)
      ("destructive_actions_included is ambiguous; use rom_destructive_actions_included and " ++
        "app_private_destructive_tools_included").toList ++
    blockIf (isFalse (get descriptor "rom_destructive_actions_included") = false)
      "ROM-0 feature payload must not include ROM/system destructive actions".toList ++
    blockIf (isTrue (get descriptor "app_private_destructive_tools_included") = false)
      "app_private_destructive_tools_included must truthfully acknowledge memory forget tools".toList ++
    blockIf (isTrue (get descriptor "requires_user_selected_home") = false)
      "ROM-0 feature payload must keep HOME user-selected".toList ++
    blockIf (isStr (get descriptor "local_model_policy") "disabled_by_default_observe_only".toList = false)
      "local_model_policy must remain disabled_by_default_observe_only".toList

/-- What is at the path that the payload names. -/
def Repository.entryAt (repository : Repository) (value : Option Json) : Entry :=
  ((relativeRepoPath value).map repository.entry).getD .missing

/-- `validate_rom_feature_payload`; `none`: it raises. -/
def validateRomFeaturePayload (repository : Repository) (descriptor : Members) : Option (List Str) := do
  let systemApp ←
    validateSystemAppDescriptor (repository.entryAt (get descriptor "system_app_descriptor"))
  let productOverlay ←
    validateProductOverlayDescriptor (repository.entryAt (get descriptor "product_overlay_descriptor"))
  let features := listValue (get descriptor "features")
  let toolNames ← repository.androidToolNames
  return validatePolicy descriptor ++ validateSourceBasis (get descriptor "source_basis") ++
    validateBlockedActions containerStr (get descriptor "blocked_rom_actions") ++ systemApp ++
    productOverlay ++ validateFeatures containerStr repository.entry features ++
    validatePhoneToolSourceCoverage containerStr features (sourcePhoneToolNames toolNames) ++
    validateNoBlockedText descriptor

end

/-! ### Without findings -/

section

variable {containerStr : Json → Str} {entry : List Str → Entry} {repository : Repository}
  {feature descriptor : Members} {features : List Json}

theorem card_requiredFeatureIds : requiredFeatureIds.card = 8 := by
  rw [requiredFeatureIds, textSet, List.toFinset_card_of_nodup (by decide)]
  rfl

/-- The tools that delete the user's memories are in the row of the phone's tools. -/
theorem expectedFeature_phone_tools :
    (expectedFeature "phone_tools".toList).map (·.appPrivateDestructiveTools) =
      some (textSet ["phone.memory.forget", "phone.memory.forget_all"]) := rfl

theorem validateExpected_eq_nil {featureId : Str} {field : String} {value row : Finset Str}
    {expected : Option (Finset Str)} (hrow : expected = some row)
    (h : validateExpected containerStr featureId field value expected = []) : value = row := by
  subst hrow
  exact not_not.1 (blockIf_eq_nil.1 h)

/-- A feature without findings is part of ROM-0, and its destructive tools are those of its row. -/
theorem validateFeature_of_no_findings (h : validateFeature containerStr entry feature = []) :
    isTrue (get feature "included_in_rom0") = true ∧
      ∀ row, expectedFeature (getStr containerStr feature "id" []) = some row →
        (stringList (get feature "app_private_destructive_tools")).toFinset =
          row.appPrivateDestructiveTools := by
  unfold validateFeature at h
  simp only [List.append_eq_nil_iff] at h
  obtain ⟨⟨⟨⟨⟨⟨⟨⟨⟨⟨⟨⟨⟨⟨⟨⟨⟨⟨-, hincluded⟩, -⟩, -⟩, -⟩, -⟩, -⟩, -⟩, -⟩, -⟩, -⟩, -⟩, -⟩, -⟩, hdestructive⟩,
    -⟩, -⟩, -⟩, -⟩ := h
  refine ⟨by simpa using blockIf_eq_nil.1 hincluded, fun row hrow => ?_⟩
  rw [hrow] at hdestructive
  exact validateExpected_eq_nil rfl hdestructive

theorem features_eq_of_length (h : (featureObjects features).length = features.length) :
    features = (featureObjects features).map .object := by
  induction features with
  | nil => rfl
  | cons item features ih =>
    have hle : (featureObjects features).length ≤ features.length := List.length_filterMap_le _ _
    cases item with
    | object members =>
      have hcons : featureObjects (.object members :: features) = members :: featureObjects features := rfl
      rw [hcons, List.length_cons, List.length_cons, Nat.add_right_cancel_iff] at h
      rw [hcons, List.map_cons, ← ih h]
    | _ =>
      change (featureObjects features).length = features.length + 1 at h
      omega

/-- What is known of the features of a payload without findings. -/
structure Covered (objects : List Members) : Prop where
  length_eq : objects.length = 8
  included : ∀ feature ∈ objects, isTrue (get feature "included_in_rom0") = true
  /-- There is a feature that deletes memories of the user. -/
  destructive : ∃ feature ∈ objects,
    "phone.memory.forget".toList ∈ stringList (get feature "app_private_destructive_tools")

theorem covered_of_no_findings (h : validateFeatures containerStr entry features = []) :
    features = (featureObjects features).map .object ∧ Covered (featureObjects features) := by
  unfold validateFeatures at h
  split at h
  case isTrue => cases h
  case isFalse =>
    simp only [List.append_eq_nil_iff, blockIf_eq_nil, not_not, ne_eq] at h
    obtain ⟨⟨⟨hlength, hduplicates⟩, hids⟩, hfeatures⟩ := h
    have hfeature : ∀ feature ∈ featureObjects features, validateFeature containerStr entry feature = [] :=
      List.flatMap_eq_nil_iff.1 hfeatures
    set ids := (featureObjects features).map fun feature => getStr containerStr feature "id" [] with hidsDef
    -- Each id is there once, and the ids are the eight of the table.
    have hnodup : ids.Nodup := by
      refine List.nodup_iff_count_le_one.2 fun featureId => ?_
      by_contra hcount
      have hmem : featureId ∈ ids.filter fun featureId => 1 < ids.count featureId :=
        List.mem_filter.2 ⟨List.count_pos_iff.1 (by omega), decide_eq_true (not_le.1 hcount)⟩
      have hmem' := List.mem_toFinset.2 hmem
      rw [hduplicates] at hmem'
      exact absurd hmem' (Finset.notMem_empty _)
    refine ⟨features_eq_of_length hlength, ?_, fun feature hmem =>
      (validateFeature_of_no_findings (hfeature feature hmem)).1, ?_⟩
    · have hcard := List.toFinset_card_of_nodup hnodup
      rw [hids, card_requiredFeatureIds, hidsDef, List.length_map] at hcard
      exact hcard.symm
    · have hphone : "phone_tools".toList ∈ ids := by
        rw [← List.mem_toFinset, hids, requiredFeatureIds, textSet, List.mem_toFinset]
        decide
      obtain ⟨feature, hmem, hid⟩ := List.mem_map.1 hphone
      refine ⟨feature, hmem, ?_⟩
      obtain ⟨row, hrow, htools⟩ := Option.map_eq_some_iff.1 expectedFeature_phone_tools
      have hset := (validateFeature_of_no_findings (hfeature feature hmem)).2 row (hid ▸ hrow)
      rw [← List.mem_toFinset, hset, htools, textSet, List.mem_toFinset]
      decide

/-- **The payload.** A payload without findings acknowledges the tools that delete memories, and it has
the eight features of the tables. -/
theorem payload_of_no_findings (h : validateRomFeaturePayload containerStr repository descriptor = some []) :
    isTrue (get descriptor "app_private_destructive_tools_included") = true ∧
      ∃ objects : List Members, listValue (get descriptor "features") = objects.map .object ∧
        Covered objects := by
  unfold validateRomFeaturePayload at h
  simp only [Option.bind_eq_bind, Option.bind_eq_some_iff, Option.pure_def, Option.some.injEq,
    List.append_eq_nil_iff] at h
  obtain ⟨_, -, _, -, _, -, ⟨⟨⟨⟨⟨⟨⟨hpolicy, -⟩, -⟩, -⟩, -⟩, hfeatures⟩, -⟩, -⟩⟩ := h
  unfold validatePolicy at hpolicy
  simp only [List.append_eq_nil_iff, blockIf_eq_nil] at hpolicy
  obtain ⟨⟨⟨-, hdestructive⟩, -⟩, -⟩ := hpolicy
  exact ⟨by simpa using hdestructive, _, covered_of_no_findings hfeatures⟩

end

end GoffyScripts.RomFeatures
