import GoffyOs.Scripts.FastbootEvidence
import GoffyOs.Scripts.Values

/-!
# The check of the evidence of fastboot (`scripts/verify_rom0_readiness.py`)

`validateFastbootEvidence` reads any JSON object; what it finds wrong in it are its blockers. `str` of a
list or of a dictionary is a parameter.

The last theorem says which evidence of `createFastbootEvidence` it accepts. The evidence and its check
count devices in different texts, and they redact a line either by its serial or by its paths.
-/

namespace GoffyScripts

open Python
open GoffyHub.Rom (Members get isTrue)

/-! ### Sections -/

structure ReadinessSection where
  name : Str
  ok : Bool
  blockers : List Str
  warnings : List Str
  evidence : Option (List (Str × Str))

/-- `append_unsupported_key_blockers`: the blockers that it appends. -/
def unsupportedKeyBlockers (containerStr : Json → Str) (keys : List Str) (allowed : List String) (label : Str) : List Str :=
  let unsupported := keys.filter fun key => !allowed.any (·.toList = key)
  blockIf (unsupported ≠ []) (label ++ " contains unsupported keys: ".toList ++
    containerStr (.array ((unsupported.insertionSort fun a b => ¬ b < a).map .str)))

namespace Fastboot

/-! ### Keys and messages -/

/-- `FASTBOOT_TOP_LEVEL_KEYS`. -/
def topLevelKeys : List String :=
  ["schema_version", "generated_at", "ok", "status", "destructive_actions", "host",
    "manual_bootloader_check", "commands", "blockers", "warnings"]

/-- `FASTBOOT_HOST_KEYS`. -/
def hostKeys : List String := ["fastboot", "fastboot_path", "fastboot_version"]

/-- `FASTBOOT_MANUAL_CHECK_KEYS`. -/
def manualCheckKeys : List String :=
  ["requested", "bootloader_device_visible", "bootloader_device_count", "serials_redacted"]

/-- `FASTBOOT_COMMAND_KEYS`. -/
def commandKeys : List String := ["label", "exit_code", "timed_out", "stdout", "stderr"]

/-- `SAFE_FASTBOOT_WARNINGS`. -/
def safeFastbootWarnings : List Str := [notCheckedWarning]

/-- `SAFE_FASTBOOT_BLOCKERS`. -/
def safeFastbootBlockers : List Str :=
  ["trusted Android SDK fastboot executable is unavailable".toList, "fastboot --version failed".toList,
    "fastboot version could not be parsed".toList, "fastboot devices failed".toList,
    "no manually booted fastboot device is visible".toList]

section

variable (beyond : Char → Bool) (containerStr : Json → Str)

/-- A message that `filtered_fastboot_messages` keeps. -/
def isSafeMessage (allowed : List Str) (message : Str) : Bool :=
  message ∈ allowed && !containsUnredactedFastbootOutput beyond message

/-- `filtered_fastboot_messages`: the safe messages, and the blockers that it appends. -/
def filteredFastbootMessages (messages allowed : List Str) (label : Str) : List Str × List Str :=
  (messages.filter (isSafeMessage beyond allowed),
    (messages.filter fun message => !isSafeMessage beyond allowed message).map fun _ =>
      "ROM fastboot evidence ".toList ++ label ++ " contain unsupported or unredacted text".toList)

/-- `validate_fastboot_manual_check`. -/
def validateFastbootManualCheck (value : Option Json) : Members × List Str :=
  match value with
  | some (.object manual) =>
    let requested := get manual "requested"
    let visible := get manual "bootloader_device_visible"
    let count := intValue (get manual "bootloader_device_count")
    (manual,
      unsupportedKeyBlockers containerStr (manual.map (·.1)) manualCheckKeys
        "fastboot manual bootloader evidence".toList ++
      blockIf (isTrue (get manual "serials_redacted") = false)
        "ROM fastboot evidence serials_redacted must be true".toList ++
      blockIf (isBool requested = false) "ROM fastboot evidence requested must be boolean".toList ++
      blockIf (isBool visible = false)
        "ROM fastboot evidence bootloader_device_visible must be boolean".toList ++
      blockIf (count.all (· < 0) = true)
        "ROM fastboot evidence bootloader_device_count must be a non-negative integer".toList ++
      blockIf (isTrue requested = true ∧ isTrue visible = false)
        "ROM fastboot evidence requested manual bootloader check found no device".toList ++
      blockIf (isTrue visible = true ∧ count.all (· < 1) = true)
        "ROM fastboot evidence visible bootloader device count must be positive".toList)
  | _ => ([], ["ROM fastboot evidence manual_bootloader_check must be an object".toList])

/-- What one command adds to the summary and to the blockers. -/
structure CommandCheck where
  label : Option Str
  successfulLabel : Option Str
  redactedDeviceCount : ℕ
  blockers : List Str

/-- "ROM fastboot evidence command {index} ..." -/
def commandMessage (index : ℕ) (text : Str) : Str :=
  "ROM fastboot evidence command ".toList ++ natStr index ++ ' ' :: text

/-- A round of the loop of `validate_fastboot_commands`. -/
def checkCommand (index : ℕ) (item : Json) : CommandCheck :=
  match item with
  | .object o =>
    let label := getStr containerStr o "label" []
    let normalized := normalizedLabel label
    let labelAllowed := commandLabelAllowed label
    let exitClean := isZero (get o "exit_code")
    let didNotTimeout := isFalse (get o "timed_out")
    let stdout := getStr containerStr o "stdout" []
    let stderr := getStr containerStr o "stderr" []
    { label := some normalized
      successfulLabel :=
        if labelAllowed && exitClean && didNotTimeout then some normalized else none
      redactedDeviceCount :=
        if normalized = devicesLabel then
          countRedactedFastbootDevices stdout + countRedactedFastbootDevices stderr
        else 0
      blockers :=
        unsupportedKeyBlockers containerStr (o.map (·.1)) commandKeys
          ("fastboot command ".toList ++ natStr index) ++
        blockIf (labelAllowed = false) (commandMessage index "is not read-only".toList) ++
        blockIf (exitClean = false) (commandMessage index "did not exit cleanly".toList) ++
        blockIf (didNotTimeout = false) (commandMessage index "timed out".toList) ++
        blockIf (containsUnredactedFastbootOutput beyond stdout = true)
          (commandMessage index "stdout is not fully redacted".toList) ++
        blockIf (containsUnredactedFastbootOutput beyond stderr = true)
          (commandMessage index "stderr is not fully redacted".toList) }
  | _ => ⟨none, none, 0, [commandMessage index "must be an object".toList]⟩

/-- The rounds from an index on. -/
def checkCommands (index : ℕ) : List Json → List CommandCheck
  | [] => []
  | item :: items => checkCommand beyond containerStr index item :: checkCommands (index + 1) items

/-- `FastbootCommandSummary`. -/
structure FastbootCommandSummary where
  successfulLabels : List Str
  redactedFastbootDeviceCount : ℕ

/-- `validate_fastboot_commands`. -/
def validateFastbootCommands (value : Option Json) : FastbootCommandSummary × List Str :=
  match value with
  | some (.array (item :: items)) =>
    let checks := checkCommands beyond containerStr 0 (item :: items)
    (⟨checks.filterMap (·.successfulLabel), (checks.map (·.redactedDeviceCount)).sum⟩,
      checks.flatMap (·.blockers) ++
        blockIf (versionLabel ∉ checks.filterMap (·.label))
          "ROM fastboot evidence must include fastboot --version".toList)
  | _ =>
    (⟨[], 0⟩, ["ROM fastboot evidence commands must include read-only command results".toList])

/-- `validate_fastboot_status_consistency`. -/
def validateFastbootStatusConsistency (status : Str) (manual : Members)
    (summary : FastbootCommandSummary) : List Str :=
  let requested := get manual "requested"
  let visible := get manual "bootloader_device_visible"
  let count := get manual "bootloader_device_count"
  let devicesCount := summary.redactedFastbootDeviceCount
  if status = FastbootStatus.hostReady.value then
    blockIf (isFalse requested = false ∨ isFalse visible = false ∨ isZero count = false)
      "HOST_READY fastboot evidence must not claim bootloader visibility".toList ++
    blockIf (devicesLabel ∈ summary.successfulLabels ∨ devicesCount ≠ 0)
      "HOST_READY fastboot evidence must not include fastboot devices proof".toList
  else if status = FastbootStatus.manualBootloaderVisible.value then
    blockIf (isTrue requested = false ∨ isTrue visible = false ∨ (intValue count).all (· < 1) = true)
      "MANUAL_BOOTLOADER_VISIBLE fastboot evidence requires visible manual check fields".toList ++
    blockIf (devicesLabel ∉ summary.successfulLabels)
      "MANUAL_BOOTLOADER_VISIBLE fastboot evidence requires fastboot devices proof".toList ++
    if devicesCount < 1 then
      ["MANUAL_BOOTLOADER_VISIBLE fastboot evidence requires redacted device output".toList]
    else
      blockIf ((intValue count).any (· ≠ (devicesCount : ℤ)) = true)
        "MANUAL_BOOTLOADER_VISIBLE fastboot device count must match redacted output".toList
  else []

/-- The messages of a payload, by the key that they stand under. -/
def payloadMessages (payload : Members) (key : String) (allowed : List Str) : List Str × List Str :=
  filteredFastbootMessages beyond (stringItems containerStr (get payload key)) allowed key.toList

/-- The blockers of `validate_fastboot_evidence`, for evidence that has been read. -/
def fastbootBlockers (payload : Members) (requireManualVisibility : Bool) : List Str :=
  let payloadBlockers := payloadMessages beyond containerStr payload "blockers" safeFastbootBlockers
  let status := getStr containerStr payload "status" []
  let host := mappingValue containerStr (get payload "host")
  let manual := validateFastbootManualCheck containerStr (get payload "manual_bootloader_check")
  let commands := validateFastbootCommands beyond containerStr (get payload "commands")
  (payloadMessages beyond containerStr payload "warnings" safeFastbootWarnings).2 ++
  unsupportedKeyBlockers containerStr (payload.map (·.1)) topLevelKeys "fastboot evidence".toList ++
  blockIf (isStr (get payload "schema_version") jsonSchemaVersion = false)
    "ROM fastboot evidence schema_version mismatch".toList ++
  payloadBlockers.2 ++
  (if isTrue (get payload "ok") = false then
    if payloadBlockers.1 ≠ [] then payloadBlockers.1
    else ["ROM fastboot evidence is not OK".toList]
  else
    blockIf (payloadBlockers.1 ≠ [])
      "ROM fastboot evidence blockers must be empty when ok is true".toList) ++
  blockIf (isStr (get payload "destructive_actions") "withheld".toList = false)
    "ROM fastboot evidence destructive_actions must be withheld".toList ++
  blockIf (status ≠ FastbootStatus.hostReady.value ∧
      status ≠ FastbootStatus.manualBootloaderVisible.value)
    "ROM fastboot evidence status must be HOST_READY or MANUAL_BOOTLOADER_VISIBLE".toList ++
  unsupportedKeyBlockers containerStr (host.map (·.1)) hostKeys "fastboot host evidence".toList ++
  blockIf (host.lookup "fastboot".toList ≠ some "available".toList)
    "ROM fastboot evidence must show trusted fastboot available".toList ++
  blockIf (host.lookup "fastboot_path".toList ≠ some "<android-sdk>/platform-tools/fastboot".toList)
    "ROM fastboot evidence fastboot_path must be redacted".toList ++
  blockIf ((host.lookup "fastboot_version".toList).all (· = []) = true)
    "ROM fastboot evidence fastboot_version is missing".toList ++
  manual.2 ++ commands.2 ++ validateFastbootStatusConsistency status manual.1 commands.1 ++
  blockIf (requireManualVisibility = true ∧ status ≠ FastbootStatus.manualBootloaderVisible.value)
    "manual bootloader-mode fastboot visibility has not been recorded".toList

/-- `validate_fastboot_evidence`. The path is not there, or it cannot be read as an object, which is the
error's text, or it can. -/
def validateFastbootEvidence (file : Option (Except Str Members)) (requireManualVisibility : Bool) :
    ReadinessSection :=
  match file with
  | none =>
    ⟨"fastboot_evidence".toList, false, ["ROM fastboot evidence JSON was not supplied".toList], [], none⟩
  | some (.error message) => ⟨"fastboot_evidence".toList, false, [message], [], none⟩
  | some (.ok payload) =>
    let blockers := fastbootBlockers beyond containerStr payload requireManualVisibility
    let host := mappingValue containerStr (get payload "host")
    let manual :=
      (validateFastbootManualCheck containerStr (get payload "manual_bootloader_check")).1
    let warnings :=
      (payloadMessages beyond containerStr payload "warnings" safeFastbootWarnings).1 ++
      blockIf (isTruthy (get manual "requested") = false)
        "manual bootloader-mode fastboot visibility is still pending".toList
    { name := "fastboot_evidence".toList
      ok := blockers.isEmpty
      blockers := blockers.eraseDups
      warnings := warnings.eraseDups
      evidence := some
        [("status".toList, getStr containerStr payload "status" []),
          ("fastboot_version".toList, (host.lookup "fastboot_version".toList).getD []),
          ("manual_bootloader_check_requested".toList,
            lower (getStr containerStr manual "requested" "False".toList)),
          ("bootloader_device_visible".toList,
            lower (getStr containerStr manual "bootloader_device_visible" "False".toList)),
          ("bootloader_device_count".toList,
            getStr containerStr manual "bootloader_device_count" "0".toList)] }

end

/-! ### The evidence that is accepted -/

section

variable {beyond : Char → Bool} {containerStr : Json → Str}

/-- What a command's result needs. -/
structure CleanResult (beyond : Char → Bool) (result : CommandResult) : Prop where
  in_time : result.timedOut = false
  stdout : Redactable beyond result.stdout
  stderr : Redactable beyond result.stderr

/-- Each line that is shown as a device has a serial that the script counts: it is in the output, and its
serial is one of `SERIAL_PATTERN`. -/
structure CountsDevices (result : CommandResult) : Prop where
  stdout : ∀ line ∈ strippedLines result.stdout, showsDevice line = true → (validSerial line).isSome = true
  stderr : ∀ line ∈ strippedLines result.stderr, showsDevice line = false

/-- A count is the larger one as long as not all are counted in both. -/
theorem countP_eq_iff {α : Type} {p q : α → Bool} {l : List α} (h : ∀ a ∈ l, p a = true → q a = true) :
    l.countP q = l.countP p ↔ ∀ a ∈ l, q a = true → p a = true := by
  induction l with
  | nil => simp
  | cons a l ih =>
    obtain ⟨ha, hl⟩ := List.forall_mem_cons.1 h
    have hle : l.countP p ≤ l.countP q := List.countP_mono_left hl
    rw [List.countP_cons, List.countP_cons, List.forall_mem_cons, ← ih hl]
    cases hp : p a with
    | true => simp [ha hp]
    | false =>
      cases hq : q a with
      | false => simp
      | true =>
        simp only [if_true, if_false, Bool.false_eq_true]
        constructor
        · intro hcount
          omega
        · rintro ⟨hfalse, -⟩
          exact absurd trivial hfalse

/-- A line with a serial is shown. -/
theorem showsDevice_of_validSerial {line : Str} (h : (validSerial line).isSome = true) :
    showsDevice line = true := by
  obtain ⟨serial, hserial⟩ := Option.isSome_iff_exists.1 h
  rw [showsDevice, (validSerial_eq_some_iff.1 hserial).1]
  rfl

/-- The counts agree if and only if each line that is shown is counted. -/
theorem counts_eq_iff (result : CommandResult) :
    (parseFastbootDevices result.stdout).length =
        countRedactedFastbootDevices (redactFastbootOutput beyond result.stdout) +
          countRedactedFastbootDevices (redactFastbootOutput beyond result.stderr) ↔
      CountsDevices result := by
  have hle : (strippedLines result.stdout).countP (fun line => (validSerial line).isSome) ≤
      (strippedLines result.stdout).countP showsDevice :=
    List.countP_mono_left fun line _ h => showsDevice_of_validSerial h
  have hstdout := countP_eq_iff (l := strippedLines result.stdout)
    fun line _ => @showsDevice_of_validSerial line
  have hstderr : (strippedLines result.stderr).countP showsDevice = 0 ↔
      ∀ line ∈ strippedLines result.stderr, showsDevice line = false := by
    rw [List.countP_eq_zero]
    exact forall₂_congr fun line _ => by rw [Bool.not_eq_true]
  rw [parseFastbootDevices, List.length_filterMap_eq_countP, countRedacted_redact, countRedacted_redact]
  constructor
  · intro h
    exact ⟨hstdout.1 (by omega), hstderr.1 (by omega)⟩
  · intro h
    rw [hstdout.2 h.stdout, hstderr.2 h.stderr]
    rfl

section Accepted

variable {result versionResult devicesResult : CommandResult} {label : Str}

/-- The check of a command that has succeeded. -/
theorem checkCommand_commandOf (index : ℕ) (hlabel : commandLabelAllowed label = true)
    (hexit : result.exitCode = 0) :
    checkCommand beyond containerStr index (.object (commandOf beyond label result).asdict) =
      { label := some (normalizedLabel label)
        successfulLabel := if result.timedOut = true then none else some (normalizedLabel label)
        redactedDeviceCount :=
          if normalizedLabel label = devicesLabel then
            countRedactedFastbootDevices (redactFastbootOutput beyond result.stdout) +
              countRedactedFastbootDevices (redactFastbootOutput beyond result.stderr)
          else 0
        blockers :=
          blockIf (result.timedOut = true) (commandMessage index "timed out".toList) ++
          blockIf (containsUnredactedFastbootOutput beyond
              (redactFastbootOutput beyond result.stdout) = true)
            (commandMessage index "stdout is not fully redacted".toList) ++
          blockIf (containsUnredactedFastbootOutput beyond
              (redactFastbootOutput beyond result.stderr) = true)
            (commandMessage index "stderr is not fully redacted".toList) } := by
  have hkeys : unsupportedKeyBlockers containerStr ((commandOf beyond label result).asdict.map (·.1))
      commandKeys ("fastboot command ".toList ++ natStr index) = [] := rfl
  have hgetLabel : getStr containerStr (commandOf beyond label result).asdict "label" [] = label := rfl
  have hgetExit : get (commandOf beyond label result).asdict "exit_code" =
      some (.int result.exitCode) := rfl
  have hgetTime : get (commandOf beyond label result).asdict "timed_out" =
      some (.bool result.timedOut) := rfl
  have hgetStdout : getStr containerStr (commandOf beyond label result).asdict "stdout" [] =
      redactFastbootOutput beyond result.stdout := rfl
  have hgetStderr : getStr containerStr (commandOf beyond label result).asdict "stderr" [] =
      redactFastbootOutput beyond result.stderr := rfl
  rw [checkCommand, hkeys, hgetLabel, hgetExit, hgetTime, hgetStdout, hgetStderr, hlabel, hexit]
  cases result.timedOut with
  | false => rfl
  | true => rfl

theorem blockers_checkCommand (index : ℕ) (hlabel : commandLabelAllowed label = true)
    (hexit : result.exitCode = 0) :
    (checkCommand beyond containerStr index
      (.object (commandOf beyond label result).asdict)).blockers = [] ↔ CleanResult beyond result := by
  rw [checkCommand_commandOf index hlabel hexit]
  simp only [List.append_eq_nil_iff, blockIf_eq_nil, Bool.not_eq_true, containsUnredacted_redact_iff]
  exact ⟨fun h => ⟨h.1.1, h.1.2, h.2⟩, fun h => ⟨⟨h.in_time, h.stdout⟩, h.stderr⟩⟩

theorem eraseDups_eq_nil_iff {l : List Str} : l.eraseDups = [] ↔ l = [] := by
  constructor
  · intro h
    by_contra hne
    obtain ⟨a, ha⟩ := List.exists_mem_of_ne_nil l hne
    have hmem := List.mem_eraseDups.2 ha
    rw [h] at hmem
    exact List.not_mem_nil hmem
  · rintro rfl
    rfl

/-- The warning is one that the check lets through. -/
theorem isSafeMessage_notCheckedWarning :
    isSafeMessage beyond safeFastbootWarnings notCheckedWarning = true := by
  have hdevices : parseFastbootDevices notCheckedWarning = [] := by decide +kernel
  have hseparators : '/' ∉ notCheckedWarning ∧ '\\' ∉ notCheckedWarning := by decide
  have hposix : Substitution.search (absolutePosixPath beyond) notCheckedWarning = false :=
    searchFrom_of_no_separator isPathMatcher_posix hseparators none
  have hwindows : Substitution.search (absoluteWindowsPath beyond) notCheckedWarning = false :=
    searchFrom_of_no_separator isPathMatcher_windows hseparators none
  rw [isSafeMessage, containsUnredactedFastbootOutput, hdevices, hposix, hwindows, Bool.and_eq_true]
  exact ⟨by decide, rfl⟩

/-- Evidence with no blockers of its own. -/
structure InOrder (e : FastbootEvidence) : Prop where
  schemaVersion : e.schemaVersion = jsonSchemaVersion
  ok : e.ok = true
  status : e.status ≠ .blocked
  destructiveActions : e.destructiveActions = "withheld".toList
  fastboot : e.host.fastboot = "available".toList
  fastbootPath : e.host.fastbootPath = "<android-sdk>/platform-tools/fastboot".toList
  fastbootVersion : e.host.fastbootVersion ≠ []
  blockers : e.blockers = []
  warnings : ∀ w ∈ e.warnings, w = notCheckedWarning

/-- It is accepted if and only if its check for a device, its commands and its status are. -/
theorem fastbootBlockers_eq_nil_iff {e : FastbootEvidence} (h : InOrder e) (required : Bool) :
    fastbootBlockers beyond containerStr e.asdict required = [] ↔
      (validateFastbootManualCheck containerStr
          (some (.object e.manualBootloaderCheck.asdict))).2 = [] ∧
        (validateFastbootCommands beyond containerStr
          (some (.array (e.commands.map fun c => .object c.asdict)))).2 = [] ∧
        validateFastbootStatusConsistency e.status.value e.manualBootloaderCheck.asdict
          (validateFastbootCommands beyond containerStr
            (some (.array (e.commands.map fun c => .object c.asdict)))).1 = [] ∧
        ¬ (required = true ∧ e.status.value ≠ FastbootStatus.manualBootloaderVisible.value) := by
  have hkeys : unsupportedKeyBlockers containerStr (e.asdict.map (·.1)) topLevelKeys
      "fastboot evidence".toList = [] := rfl
  have hschema : isStr (get e.asdict "schema_version") jsonSchemaVersion = true :=
    decide_eq_true h.schemaVersion
  have hok : isTrue (get e.asdict "ok") = true := h.ok
  have hstatusText : getStr containerStr e.asdict "status" [] = e.status.value := rfl
  have hdestructive : isStr (get e.asdict "destructive_actions") "withheld".toList = true :=
    decide_eq_true h.destructiveActions
  obtain ⟨host, hhost, hhostKeys, hfastboot, hpath, hversion⟩ : ∃ host,
      mappingValue containerStr (get e.asdict "host") = host ∧
        unsupportedKeyBlockers containerStr (host.map (·.1)) hostKeys
          "fastboot host evidence".toList = [] ∧
        host.lookup "fastboot".toList = some e.host.fastboot ∧
        host.lookup "fastboot_path".toList = some e.host.fastbootPath ∧
        host.lookup "fastboot_version".toList = some e.host.fastbootVersion :=
    ⟨[("fastboot".toList, e.host.fastboot), ("fastboot_path".toList, e.host.fastbootPath),
      ("fastboot_version".toList, e.host.fastbootVersion)], rfl, rfl, rfl, rfl, rfl⟩
  rw [h.fastboot] at hfastboot
  rw [h.fastbootPath] at hpath
  have hmanual : get e.asdict "manual_bootloader_check" =
      some (.object e.manualBootloaderCheck.asdict) := rfl
  have hcommands : get e.asdict "commands" =
      some (.array (e.commands.map fun c => .object c.asdict)) := rfl
  have hitems : ∀ messages : List Str,
      stringItems containerStr (some (.array (messages.map .str))) = messages := by
    intro messages
    rw [stringItems, List.map_map]
    exact List.map_id messages
  have hmessages : payloadMessages beyond containerStr e.asdict "blockers" safeFastbootBlockers =
      ([], []) := by
    have hget : get e.asdict "blockers" = some (.array (e.blockers.map .str)) := rfl
    rw [payloadMessages, hget, hitems, h.blockers]
    rfl
  -- the one warning there may be is a safe one
  have hwarnings : (payloadMessages beyond containerStr e.asdict "warnings"
      safeFastbootWarnings).2 = [] := by
    have hget : get e.asdict "warnings" = some (.array (e.warnings.map .str)) := rfl
    have hnone : (e.warnings.filter fun w => !isSafeMessage beyond safeFastbootWarnings w) = [] := by
      rw [List.filter_eq_nil_iff]
      intro w hw
      rw [h.warnings w hw, isSafeMessage_notCheckedWarning]
      decide
    rw [payloadMessages, hget, hitems, filteredFastbootMessages, hnone]
    rfl
  have hstatus : ¬ (e.status.value ≠ FastbootStatus.hostReady.value ∧
      e.status.value ≠ FastbootStatus.manualBootloaderVisible.value) := by
    rintro ⟨hready, hvisible⟩
    cases hcase : e.status with
    | hostReady => exact hready (by rw [hcase])
    | manualBootloaderVisible => exact hvisible (by rw [hcase])
    | blocked => exact h.status hcase
  have hversionValue : ¬ (some e.host.fastbootVersion).all (· = []) = true := by
    simpa using h.fastbootVersion
  have hmanualValue : (validateFastbootManualCheck containerStr
      (some (.object e.manualBootloaderCheck.asdict))).1 = e.manualBootloaderCheck.asdict := rfl
  rw [fastbootBlockers]
  simp only [hkeys, hschema, hok, hstatusText, hdestructive, hhost, hhostKeys, hfastboot, hpath,
    hversion, hmanual, hmanualValue, hcommands, hmessages, hwarnings, hstatus, hversionValue,
    List.append_eq_nil_iff, blockIf_eq_nil, Bool.true_eq_false, ne_eq, not_true_eq_false,
    not_false_eq_true, Bool.false_eq_true, if_false, true_and, and_assoc]

theorem normalizedLabel_version : normalizedLabel versionLabel = versionLabel := by decide

theorem normalizedLabel_devices : normalizedLabel devicesLabel = devicesLabel := by decide

theorem versionLabel_ne_devicesLabel : versionLabel ≠ devicesLabel := by decide

/-- The summary and the blockers of one or two commands. -/
theorem validateFastbootCommands_cons (item : Json) (items : List Json) :
    validateFastbootCommands beyond containerStr (some (.array (item :: items))) =
      (⟨(checkCommands beyond containerStr 0 (item :: items)).filterMap (·.successfulLabel),
          ((checkCommands beyond containerStr 0 (item :: items)).map (·.redactedDeviceCount)).sum⟩,
        (checkCommands beyond containerStr 0 (item :: items)).flatMap (·.blockers) ++
          blockIf (versionLabel ∉
              (checkCommands beyond containerStr 0 (item :: items)).filterMap (·.label))
            "ROM fastboot evidence must include fastboot --version".toList) := rfl

/-- What the check of `fastboot --version` says, of a command that has succeeded. -/
theorem check_version (hexit : versionResult.exitCode = 0) :
    let check := checkCommand beyond containerStr 0
      (.object (commandOf beyond versionLabel versionResult).asdict)
    (check.blockers = [] ↔ CleanResult beyond versionResult) ∧ check.label = some versionLabel ∧
      check.successfulLabel ≠ some devicesLabel ∧ check.redactedDeviceCount = 0 := by
  intro check
  have hcheck := @checkCommand_commandOf beyond containerStr _ _ 0 versionLabel_allowed hexit
  rw [normalizedLabel_version] at hcheck
  refine ⟨blockers_checkCommand 0 versionLabel_allowed hexit, congrArg CommandCheck.label hcheck, ?_, ?_⟩
  · rw [congrArg CommandCheck.successfulLabel hcheck]
    split
    · exact fun h => by cases h
    · exact fun h => versionLabel_ne_devicesLabel (Option.some.inj h)
  · rw [congrArg CommandCheck.redactedDeviceCount hcheck]
    dsimp only
    rw [if_neg versionLabel_ne_devicesLabel]

theorem check_devices (hexit : devicesResult.exitCode = 0) :
    let check := checkCommand beyond containerStr 1
      (.object (commandOf beyond devicesLabel devicesResult).asdict)
    (check.blockers = [] ↔ CleanResult beyond devicesResult) ∧
      (check.successfulLabel = some devicesLabel ↔ devicesResult.timedOut = false) ∧
      check.redactedDeviceCount =
        countRedactedFastbootDevices (redactFastbootOutput beyond devicesResult.stdout) +
          countRedactedFastbootDevices (redactFastbootOutput beyond devicesResult.stderr) := by
  intro check
  have hcheck := @checkCommand_commandOf beyond containerStr _ _ 1 devicesLabel_allowed hexit
  rw [normalizedLabel_devices] at hcheck
  refine ⟨blockers_checkCommand 1 devicesLabel_allowed hexit, ?_, ?_⟩
  · rw [congrArg CommandCheck.successfulLabel hcheck]
    cases devicesResult.timedOut with
    | false => exact iff_of_true rfl rfl
    | true => exact iff_of_false (fun h => by cases h) (fun h => by cases h)
  · rw [congrArg CommandCheck.redactedDeviceCount hcheck]
    dsimp only
    rw [if_pos rfl]

/-- The commands of evidence without a check for a device. -/
theorem validateFastbootCommands_one (hexit : versionResult.exitCode = 0) :
    let commands := validateFastbootCommands beyond containerStr
      (some (.array [.object (commandOf beyond versionLabel versionResult).asdict]))
    (commands.2 = [] ↔ CleanResult beyond versionResult) ∧
      devicesLabel ∉ commands.1.successfulLabels ∧ commands.1.redactedFastbootDeviceCount = 0 := by
  intro commands
  obtain ⟨hblockers, hlabel, hsuccessful, hcount⟩ :=
    @check_version beyond containerStr _ hexit
  have hcommands := @validateFastbootCommands_cons beyond containerStr
    (.object (commandOf beyond versionLabel versionResult).asdict) []
  rw [checkCommands, checkCommands] at hcommands
  generalize checkCommand beyond containerStr 0
    (.object (commandOf beyond versionLabel versionResult).asdict) = v
    at hblockers hlabel hsuccessful hcount hcommands
  have hmem : ¬ versionLabel ∉ [v].filterMap (·.label) :=
    not_not.2 (List.mem_filterMap.2 ⟨v, List.mem_singleton_self v, hlabel⟩)
  refine ⟨?_, ?_, ?_⟩
  · rw [congrArg Prod.snd hcommands]
    simp only [List.flatMap_cons, List.flatMap_nil, blockIf_eq_nil.2 hmem, List.append_nil]
    exact hblockers
  · rw [congrArg (fun c => c.1.successfulLabels) hcommands, List.mem_filterMap]
    rintro ⟨check, hcheck, hsome⟩
    rw [List.mem_singleton.1 hcheck] at hsome
    exact hsuccessful hsome
  · rw [congrArg (fun c => c.1.redactedFastbootDeviceCount) hcommands]
    simp only [List.map_cons, List.map_nil, List.sum_cons, List.sum_nil, hcount, Nat.add_zero]

/-- The commands of evidence with a check for a device. -/
theorem validateFastbootCommands_two (hversion : versionResult.exitCode = 0)
    (hdevices : devicesResult.exitCode = 0) :
    let commands := validateFastbootCommands beyond containerStr
      (some (.array [.object (commandOf beyond versionLabel versionResult).asdict,
        .object (commandOf beyond devicesLabel devicesResult).asdict]))
    (commands.2 = [] ↔ CleanResult beyond versionResult ∧ CleanResult beyond devicesResult) ∧
      (devicesLabel ∈ commands.1.successfulLabels ↔ devicesResult.timedOut = false) ∧
      commands.1.redactedFastbootDeviceCount =
        countRedactedFastbootDevices (redactFastbootOutput beyond devicesResult.stdout) +
          countRedactedFastbootDevices (redactFastbootOutput beyond devicesResult.stderr) := by
  intro commands
  obtain ⟨hblockers, hlabel, hsuccessful, hcount⟩ :=
    @check_version beyond containerStr _ hversion
  obtain ⟨hblockers', hsuccessful', hcount'⟩ :=
    @check_devices beyond containerStr _ hdevices
  have hcommands := @validateFastbootCommands_cons beyond containerStr
    (.object (commandOf beyond versionLabel versionResult).asdict)
    [.object (commandOf beyond devicesLabel devicesResult).asdict]
  rw [checkCommands, checkCommands, checkCommands] at hcommands
  generalize checkCommand beyond containerStr 0
    (.object (commandOf beyond versionLabel versionResult).asdict) = v
    at hblockers hlabel hsuccessful hcount hcommands
  generalize checkCommand beyond containerStr 1
    (.object (commandOf beyond devicesLabel devicesResult).asdict) = d
    at hblockers' hsuccessful' hcount' hcommands
  have hmem : ¬ versionLabel ∉ [v, d].filterMap (·.label) :=
    not_not.2 (List.mem_filterMap.2 ⟨v, List.mem_cons_self, hlabel⟩)
  refine ⟨?_, ?_, ?_⟩
  · rw [congrArg Prod.snd hcommands]
    simp only [List.flatMap_cons, List.flatMap_nil, blockIf_eq_nil.2 hmem, List.append_nil,
      List.append_eq_nil_iff, hblockers, hblockers']
  · rw [congrArg (fun c => c.1.successfulLabels) hcommands, List.mem_filterMap, ← hsuccessful']
    constructor
    · rintro ⟨check, hcheck, hsome⟩
      rcases List.mem_cons.1 hcheck with rfl | hcheck
      · exact absurd hsome hsuccessful
      · rwa [List.mem_singleton.1 hcheck] at hsome
    · exact fun h => ⟨d, List.mem_cons_of_mem _ (List.mem_singleton_self d), h⟩
  · rw [congrArg (fun c => c.1.redactedFastbootDeviceCount) hcommands]
    simp only [List.map_cons, List.map_nil, List.sum_cons, List.sum_nil, hcount, hcount', Nat.zero_add,
      Nat.add_zero]

/-- What the check looks for again in the output of the commands that are run. -/
structure Confirmed (beyond : Char → Bool) (versionResult devicesResult : CommandResult)
    (manualBootloaderCheck : Bool) : Prop where
  version : CleanResult beyond versionResult
  devices : manualBootloaderCheck = true →
    CleanResult beyond devicesResult ∧ CountsDevices devicesResult

theorem inOrder_evidenceOf {generatedAt : Str} {path : TrustedPath} (manual : Bool)
    (hversion : versionOf versionResult ≠ []) :
    InOrder (evidenceOf beyond generatedAt path versionResult devicesResult manual) := by
  have hpath : path.text ≠ [] := path.ne_nil
  cases manual with
  | false =>
    exact ⟨rfl, rfl, (fun h => by cases h), rfl, if_pos hpath, if_neg hpath, hversion, rfl,
      fun w hw => List.mem_singleton.1 hw⟩
  | true =>
    exact ⟨rfl, rfl, (fun h => by cases h), rfl, if_pos hpath, if_neg hpath, hversion, rfl,
      fun w hw => absurd hw List.not_mem_nil⟩

/-- The status of the host alone. -/
theorem consistency_hostReady {summary : FastbootCommandSummary}
    (hlabels : devicesLabel ∉ summary.successfulLabels)
    (hcount : summary.redactedFastbootDeviceCount = 0) :
    validateFastbootStatusConsistency FastbootStatus.hostReady.value
      (ManualBootloaderCheck.mk false false 0 true).asdict summary = [] := by
  have hrequested : isFalse (get (ManualBootloaderCheck.mk false false 0 true).asdict "requested") =
      true := rfl
  have hvisible : isFalse (get (ManualBootloaderCheck.mk false false 0 true).asdict
      "bootloader_device_visible") = true := rfl
  have hzero : isZero (get (ManualBootloaderCheck.mk false false 0 true).asdict
      "bootloader_device_count") = true := rfl
  rw [validateFastbootStatusConsistency, if_pos rfl]
  simp only [hrequested, hvisible, hzero, hlabels, hcount, List.append_eq_nil_iff, blockIf_eq_nil,
    Bool.true_eq_false, ne_eq, not_true_eq_false, or_self, not_false_eq_true, and_self]

/-- The check for a device that is visible. -/
theorem manualCheck_visible {count : ℕ} (hpos : 0 < count) :
    (validateFastbootManualCheck containerStr
      (some (.object (ManualBootloaderCheck.mk true true count true).asdict))).2 = [] := by
  generalize hmanual : (ManualBootloaderCheck.mk true true count true).asdict = manual
  have hkeys : unsupportedKeyBlockers containerStr (manual.map (·.1)) manualCheckKeys
      "fastboot manual bootloader evidence".toList = [] := by rw [← hmanual]; rfl
  have hserials : isTrue (get manual "serials_redacted") = true := by rw [← hmanual]; rfl
  have hrequested : get manual "requested" = some (.bool true) := by rw [← hmanual]; rfl
  have hvisible : get manual "bootloader_device_visible" = some (.bool true) := by rw [← hmanual]; rfl
  have hcount : intValue (get manual "bootloader_device_count") = some (count : ℤ) := by
    rw [← hmanual]; rfl
  have hnegative : ¬ (some (count : ℤ)).all (· < 0) = true := by
    simp only [Option.all_some, decide_eq_true_eq]
    omega
  have hsmall : ¬ (some (count : ℤ)).all (· < 1) = true := by
    simp only [Option.all_some, decide_eq_true_eq]
    omega
  have htrue : isTrue (some (.bool true)) = true := rfl
  rw [validateFastbootManualCheck]
  simp only [hkeys, hserials, hrequested, hvisible, hcount, hnegative, hsmall, isBool, htrue,
    List.append_eq_nil_iff, blockIf_eq_nil, Bool.true_eq_false, Bool.false_eq_true, and_false,
    not_false_eq_true, and_self]

/-- The status of a device that is visible: the counts have to agree. -/
theorem consistency_visible {summary : FastbootCommandSummary} {count : ℕ} (hpos : 0 < count) :
    validateFastbootStatusConsistency FastbootStatus.manualBootloaderVisible.value
        (ManualBootloaderCheck.mk true true count true).asdict summary = [] ↔
      devicesLabel ∈ summary.successfulLabels ∧ count = summary.redactedFastbootDeviceCount := by
  have hrequested : isTrue (get (ManualBootloaderCheck.mk true true count true).asdict "requested") =
      true := rfl
  have hvisible : isTrue (get (ManualBootloaderCheck.mk true true count true).asdict
      "bootloader_device_visible") = true := rfl
  have hvalue : intValue (get (ManualBootloaderCheck.mk true true count true).asdict
      "bootloader_device_count") = some (count : ℤ) := rfl
  have hnotReady : FastbootStatus.manualBootloaderVisible.value ≠ FastbootStatus.hostReady.value := by
    decide
  have hsmall : ¬ (some (count : ℤ)).all (· < 1) = true := by
    simp only [Option.all_some, decide_eq_true_eq]
    omega
  rw [validateFastbootStatusConsistency, if_neg hnotReady, if_pos rfl]
  simp only [hrequested, hvisible, hvalue, hsmall, List.append_eq_nil_iff, blockIf_eq_nil,
    Bool.true_eq_false, Bool.false_eq_true, false_or, not_false_eq_true, true_and, not_not]
  refine and_congr_right fun _ => ?_
  by_cases hnone : summary.redactedFastbootDeviceCount < 1
  · rw [if_pos hnone]
    refine iff_of_false (List.cons_ne_nil _ _) ?_
    omega
  · rw [if_neg hnone, blockIf_eq_nil]
    simp only [Option.any_some, decide_eq_true_eq, not_not, Int.natCast_inj]

/-- The evidence of the host alone. -/
theorem fastbootBlockers_hostReady_iff {generatedAt : Str} {path : TrustedPath}
    (hexit : versionResult.exitCode = 0) (hversion : versionOf versionResult ≠ []) :
    fastbootBlockers beyond containerStr
        (evidenceOf beyond generatedAt path versionResult devicesResult false).asdict false = [] ↔
      CleanResult beyond versionResult := by
  obtain ⟨hblockers, hlabels, hcount⟩ :=
    @validateFastbootCommands_one beyond containerStr _ hexit
  have hmanual : (validateFastbootManualCheck containerStr
      (some (.object (ManualBootloaderCheck.mk false false 0 true).asdict))).2 = [] := rfl
  rw [fastbootBlockers_eq_nil_iff (inOrder_evidenceOf false hversion)]
  constructor
  · rintro ⟨-, hcommands, -⟩
    exact hblockers.1 hcommands
  · intro hclean
    exact ⟨hmanual, hblockers.2 hclean, consistency_hostReady hlabels hcount, fun h => by cases h.1⟩

/-- The evidence with a device. -/
theorem fastbootBlockers_visible_iff {generatedAt : Str} {path : TrustedPath}
    (hexit : versionResult.exitCode = 0) (hversion : versionOf versionResult ≠ [])
    (hdevicesExit : devicesResult.exitCode = 0)
    (hdevices : parseFastbootDevices devicesResult.stdout ≠ []) :
    fastbootBlockers beyond containerStr
        (evidenceOf beyond generatedAt path versionResult devicesResult true).asdict true = [] ↔
      CleanResult beyond versionResult ∧ CleanResult beyond devicesResult ∧
        CountsDevices devicesResult := by
  obtain ⟨hblockers, hlabels, hcount⟩ :=
    @validateFastbootCommands_two beyond containerStr _ _ hexit hdevicesExit
  have hpos : 0 < (parseFastbootDevices devicesResult.stdout).length := List.length_pos_iff.2 hdevices
  have hmanual := @manualCheck_visible containerStr _ hpos
  have hconsistent := @consistency_visible ((validateFastbootCommands beyond containerStr
    (some (.array [.object (commandOf beyond versionLabel versionResult).asdict,
      .object (commandOf beyond devicesLabel devicesResult).asdict]))).1)
    _ hpos
  rw [hlabels, hcount, counts_eq_iff] at hconsistent
  rw [fastbootBlockers_eq_nil_iff (inOrder_evidenceOf true hversion)]
  constructor
  · rintro ⟨-, hcommands, hstatus, -⟩
    obtain ⟨hversionClean, hdevicesClean⟩ := hblockers.1 hcommands
    exact ⟨hversionClean, hdevicesClean, (hconsistent.1 hstatus).2⟩
  · rintro ⟨hversionClean, hdevicesClean, hcounts⟩
    exact ⟨hmanual, hblockers.2 ⟨hversionClean, hdevicesClean⟩,
      hconsistent.2 ⟨hdevicesClean.in_time, hcounts⟩, fun h => h.2 rfl⟩

theorem blockers_validateFastbootEvidence (payload : Members) (required : Bool) :
    (validateFastbootEvidence beyond containerStr (some (.ok payload)) required).blockers =
      (fastbootBlockers beyond containerStr payload required).eraseDups := by
  delta validateFastbootEvidence
  dsimp only

/-- **Evidence and its check.** Evidence that is in order passes the check, with a device required where
one was asked for, if and only if the commands did not time out, no line names a path after a device or is
cut to one with a device, and each line that is shown as a device is counted as one. -/
theorem fastboot_evidence_accepted_iff {generatedAt : Str} {fastboot : Option TrustedPath}
    {manualBootloaderCheck : Bool} {e : FastbootEvidence}
    (he : createFastbootEvidence beyond generatedAt fastboot versionResult devicesResult
      manualBootloaderCheck = .ok e) (hok : e.ok = true) :
    (validateFastbootEvidence beyond containerStr (some (.ok e.asdict)) manualBootloaderCheck).blockers =
      [] ↔ Confirmed beyond versionResult devicesResult manualBootloaderCheck := by
  obtain ⟨path, rfl, ⟨hexit, hversion⟩, hdevices⟩ := createFastbootEvidence_ok he hok
  rw [blockers_validateFastbootEvidence, eraseDups_eq_nil_iff]
  cases manualBootloaderCheck with
  | false =>
    rw [fastbootBlockers_hostReady_iff hexit hversion]
    exact ⟨fun h => ⟨h, fun h => by cases h⟩, fun h => h.version⟩
  | true =>
    obtain ⟨hdevicesExit, hparsed⟩ := hdevices rfl
    rw [fastbootBlockers_visible_iff hexit hversion hdevicesExit hparsed]
    exact ⟨fun h => ⟨h.1, fun _ => h.2⟩, fun h => ⟨h.version, h.devices rfl⟩⟩

def demoVersion : CommandResult := ⟨0, "fastboot version 35.0.2-12147458".toList, [], false⟩

def demoDevices (stdout : String) : CommandResult := ⟨0, stdout.toList, [], false⟩

def demoPath : TrustedPath := ⟨"/sdk/platform-tools/fastboot".toList, by decide⟩

/-- The evidence of one device; beyond ASCII nothing is a letter here. -/
def demoEvidence (stdout : String) : FastbootEvidence :=
  evidenceOf (fun _ => false) [] demoPath demoVersion (demoDevices stdout) true

/-- The blockers of this evidence. -/
def demoBlockers (stdout : String) : List Str :=
  (validateFastbootEvidence (fun _ => false) (fun _ => [])
    (some (.ok (demoEvidence stdout).asdict)) true).blockers

theorem one_device_is_accepted : demoBlockers "0123456789ABCDEF\tfastboot\n" = [] :=
  (@fastboot_evidence_accepted_iff _ _ _ _ _ (some demoPath) _ _
    (createFastbootEvidence_eq demoPath (by decide +kernel) fun _ => by decide +kernel) rfl).2
    { version := ⟨rfl, containsUnredacted_redact_iff.1 (by decide +kernel),
        containsUnredacted_redact_iff.1 (by decide +kernel)⟩
      devices := fun _ => ⟨⟨rfl, containsUnredacted_redact_iff.1 (by decide +kernel),
        containsUnredacted_redact_iff.1 (by decide +kernel)⟩,
        (@counts_eq_iff (fun _ => false) _).1 (by decide +kernel)⟩ }

/-- **A path after a device, and a device without a serial.** Both times the evidence is in order, and its
check refuses it. -/
theorem devices_are_rejected :
    (createFastbootEvidence (fun _ => false) [] (some demoPath) demoVersion
        (demoDevices "0123456789ABCDEF\tfastboot usb:/dev/bus\n") true =
        .ok (demoEvidence "0123456789ABCDEF\tfastboot usb:/dev/bus\n") ∧
      (demoEvidence "0123456789ABCDEF\tfastboot usb:/dev/bus\n").ok = true ∧
      demoBlockers "0123456789ABCDEF\tfastboot usb:/dev/bus\n" ≠ []) ∧
    createFastbootEvidence (fun _ => false) [] (some demoPath) demoVersion
        (demoDevices "0123456789ABCDEF\tfastboot\n????????????\tfastboot\n") true =
        .ok (demoEvidence "0123456789ABCDEF\tfastboot\n????????????\tfastboot\n") ∧
      (demoEvidence "0123456789ABCDEF\tfastboot\n????????????\tfastboot\n").ok = true ∧
      demoBlockers "0123456789ABCDEF\tfastboot\n????????????\tfastboot\n" ≠ [] := by
  -- each is refused for the streams of `fastboot devices`, or for the number of its devices
  have hrefused : ∀ stdout, parseFastbootDevices stdout.toList ≠ [] →
      ¬ (CleanResult (fun _ => false) (demoDevices stdout) ∧
        CountsDevices (demoDevices stdout)) → demoBlockers stdout ≠ [] := by
    intro stdout hparsed hfails hblockers
    rw [demoBlockers, blockers_validateFastbootEvidence, eraseDups_eq_nil_iff] at hblockers
    exact hfails ((fastbootBlockers_visible_iff rfl (by decide +kernel) rfl hparsed).1 hblockers).2
  refine ⟨⟨createFastbootEvidence_eq demoPath (by decide +kernel) fun _ => by decide +kernel, rfl,
    hrefused _ (by decide +kernel) fun h => ?_⟩,
    createFastbootEvidence_eq demoPath (by decide +kernel) fun _ => by decide +kernel, rfl,
    hrefused _ (by decide +kernel) fun h => ?_⟩
  · exact absurd (containsUnredacted_redact_iff.2 h.1.stdout) (by decide +kernel)
  · exact absurd ((@counts_eq_iff (fun _ => false) _).2 h.2) (by decide +kernel)

end Accepted

end

end Fastboot

end GoffyScripts
