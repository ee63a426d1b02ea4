import GoffyOs.Hub.RomText
import GoffyOs.Scripts.FastbootRedaction

/-!
# Evidence of fastboot (`scripts/create_rom_fastboot_evidence.py`)

The script runs `fastboot --version` and, when it is asked to look for a device, `fastboot devices`; the
evidence is made of what the two commands print. Their results and the path of the program are
parameters. `createFastbootEvidence_ok` says when the evidence is in order, and what it is then.
-/

namespace GoffyScripts.Fastboot

open Python GoffyHub.Rom

def jsonSchemaVersion : Str := "goffy.rom-fastboot-evidence.v1".toList

inductive FastbootStatus
  | hostReady
  | manualBootloaderVisible
  | blocked
  deriving DecidableEq

def FastbootStatus.value : FastbootStatus → Str
  | .hostReady => "HOST_READY".toList
  | .manualBootloaderVisible => "MANUAL_BOOTLOADER_VISIBLE".toList
  | .blocked => "BLOCKED".toList

structure CommandResult where
  exitCode : ℤ
  stdout : Str
  stderr : Str
  timedOut : Bool

structure Host where
  fastboot : Str
  fastbootPath : Str
  fastbootVersion : Str

structure ManualBootloaderCheck where
  requested : Bool
  bootloaderDeviceVisible : Bool
  bootloaderDeviceCount : ℕ
  serialsRedacted : Bool

structure CommandEvidence where
  label : Str
  exitCode : ℤ
  timedOut : Bool
  stdout : Str
  stderr : Str

structure FastbootEvidence where
  schemaVersion : Str
  generatedAt : Str
  ok : Bool
  status : FastbootStatus
  destructiveActions : Str
  host : Host
  manualBootloaderCheck : ManualBootloaderCheck
  commands : List CommandEvidence
  blockers : List Str
  warnings : List Str

/-- The path of the program: the text of an absolute path, that is not empty. -/
structure TrustedPath where
  text : Str
  ne_nil : text ≠ []

/-! ### Labels -/

def versionLabel : Str := "fastboot --version".toList

def devicesLabel : Str := "fastboot devices".toList

/-- `READ_ONLY_FASTBOOT_LABELS`. -/
def readOnlyFastbootLabels : List Str := [versionLabel, devicesLabel]

/-- `DESTRUCTIVE_FASTBOOT_SUBCOMMANDS`. -/
def destructiveFastbootSubcommands : List Str :=
  ["flash".toList, "erase".toList, "wipe".toList, "boot".toList, "reboot".toList]

/-- `" ".join(label.lower().split())`. -/
def normalizedLabel (label : Str) : Str := joinWords (split (lower label))

/-- `command_has_destructive_term`. -/
def commandHasDestructiveTerm (label : Str) : Bool :=
  match split (lower label) with
  | first :: subcommand :: rest =>
    if first ≠ fastbootWord then true
    else
      subcommand ∈ destructiveFastbootSubcommands ||
        (subcommand :: rest).take 2 ∈
          [["flashing".toList, "unlock".toList], ["oem".toList, "unlock".toList]]
  | _ => true

/-- `command_label_allowed`. -/
def commandLabelAllowed (label : Str) : Bool :=
  normalizedLabel label ∈ readOnlyFastbootLabels && !commandHasDestructiveTerm (normalizedLabel label)

/-! ### The evidence -/

def versionPrefix : Str := "fastboot version".toList

/-- `parse_fastboot_version`. -/
def parseFastbootVersion (text : Str) : Str :=
  match (strippedLines text).find? fun line => startswith (lower line) versionPrefix with
  | some line => (strip (removePrefix line versionPrefix)).take 80
  | none => []

/-- `fastboot_status`. -/
def fastbootStatus (blockers : List Str) (manualBootloaderCheck : Bool) (bootloaderDeviceCount : ℕ) :
    FastbootStatus :=
  if blockers ≠ [] then .blocked
  else if manualBootloaderCheck = true ∧ 0 < bootloaderDeviceCount then .manualBootloaderVisible
  else .hostReady

/-- `redact_path`. -/
def redactPath (path : Str) : Str :=
  if path = [] then [] else "<android-sdk>/platform-tools/fastboot".toList

/-- `build_evidence`. -/
def buildEvidence (generatedAt : Str) (ok : Bool) (status : FastbootStatus) (fastbootPath version : Str)
    (manualBootloaderCheck bootloaderDeviceVisible : Bool) (bootloaderDeviceCount : ℕ)
    (commands : List CommandEvidence) (blockers warnings : List Str) : FastbootEvidence where
  schemaVersion := jsonSchemaVersion
  generatedAt := generatedAt
  ok := ok
  status := status
  destructiveActions := "withheld".toList
  host :=
    { fastboot := if fastbootPath ≠ [] then "available".toList else "missing".toList
      fastbootPath := redactPath fastbootPath
      fastbootVersion := version }
  manualBootloaderCheck :=
    { requested := manualBootloaderCheck
      bootloaderDeviceVisible := bootloaderDeviceVisible
      bootloaderDeviceCount := bootloaderDeviceCount
      serialsRedacted := true }
  commands := commands
  blockers := blockers
  warnings := warnings

section

variable (beyond : Char → Bool)

/-- `command_evidence`. -/
def commandEvidence (label : Str) (result : CommandResult) : Except String CommandEvidence :=
  if commandLabelAllowed label = true then
    .ok
      { label, exitCode := result.exitCode, timedOut := result.timedOut
        stdout := redactFastbootOutput beyond result.stdout
        stderr := redactFastbootOutput beyond result.stderr }
  else .error "fastboot evidence command must be read-only"

/-- The blockers of `fastboot --version`. -/
def versionBlockers (versionResult : CommandResult) (version : Str) : List Str :=
  (if versionResult.exitCode ≠ 0 then ["fastboot --version failed".toList] else []) ++
    if version = [] then ["fastboot version could not be parsed".toList] else []

/-- The blockers of `fastboot devices`. -/
def devicesBlockers (devicesResult : CommandResult) (devices : List Str) : List Str :=
  if devicesResult.exitCode ≠ 0 then ["fastboot devices failed".toList]
  else if devices = [] then ["no manually booted fastboot device is visible".toList]
  else []

def notCheckedWarning : Str :=
  "manual bootloader visibility was not checked; do not reboot automatically".toList

/-- `create_fastboot_evidence`. -/
def createFastbootEvidence (generatedAt : Str) (fastboot : Option TrustedPath)
    (versionResult devicesResult : CommandResult) (manualBootloaderCheck : Bool) :
    Except String FastbootEvidence :=
  match fastboot with
  | none =>
    .ok (buildEvidence generatedAt false .blocked [] [] manualBootloaderCheck false 0 []
      ["trusted Android SDK fastboot executable is unavailable".toList] [])
  | some fastboot => do
    let versionCommand ← commandEvidence beyond versionLabel versionResult
    let version := parseFastbootVersion
      (if versionResult.stdout = [] then versionResult.stderr else versionResult.stdout)
    let blockers := versionBlockers versionResult version
    if manualBootloaderCheck then
      let devicesCommand ← commandEvidence beyond devicesLabel devicesResult
      let devices := parseFastbootDevices devicesResult.stdout
      let blockers := blockers ++ devicesBlockers devicesResult devices
      return buildEvidence generatedAt blockers.isEmpty
        (fastbootStatus blockers manualBootloaderCheck devices.length) fastboot.text version
        manualBootloaderCheck (0 < devices.length) devices.length [versionCommand, devicesCommand]
        blockers.eraseDups []
    else
      return buildEvidence generatedAt blockers.isEmpty
        (fastbootStatus blockers manualBootloaderCheck 0) fastboot.text version manualBootloaderCheck
        (0 < 0) 0 [versionCommand] blockers.eraseDups [notCheckedWarning]

end

/-! ### JSON -/

def Host.asdict (h : Host) : Members :=
  [("fastboot".toList, .str h.fastboot), ("fastboot_path".toList, .str h.fastbootPath),
    ("fastboot_version".toList, .str h.fastbootVersion)]

def ManualBootloaderCheck.asdict (m : ManualBootloaderCheck) : Members :=
  [("requested".toList, .bool m.requested),
    ("bootloader_device_visible".toList, .bool m.bootloaderDeviceVisible),
    ("bootloader_device_count".toList, .int m.bootloaderDeviceCount),
    ("serials_redacted".toList, .bool m.serialsRedacted)]

def CommandEvidence.asdict (c : CommandEvidence) : Members :=
  [("label".toList, .str c.label), ("exit_code".toList, .int c.exitCode),
    ("timed_out".toList, .bool c.timedOut), ("stdout".toList, .str c.stdout),
    ("stderr".toList, .str c.stderr)]

/-- What `json.loads` reads in the text of `render_json`. -/
def FastbootEvidence.asdict (e : FastbootEvidence) : Members :=
  [("schema_version".toList, .str e.schemaVersion), ("generated_at".toList, .str e.generatedAt),
    ("ok".toList, .bool e.ok), ("status".toList, .str e.status.value),
    ("destructive_actions".toList, .str e.destructiveActions), ("host".toList, .object e.host.asdict),
    ("manual_bootloader_check".toList, .object e.manualBootloaderCheck.asdict),
    ("commands".toList, .array (e.commands.map fun c => .object c.asdict)),
    ("blockers".toList, .array (e.blockers.map .str)), ("warnings".toList, .array (e.warnings.map .str))]

/-! ### Evidence that is in order -/

section

variable {beyond : Char → Bool} {generatedAt : Str} {fastboot : Option TrustedPath}
  {versionResult devicesResult : CommandResult} {manual : Bool} {e : FastbootEvidence}

/-- The version that is read: in the output of the command, or in its errors. -/
def versionOf (result : CommandResult) : Str :=
  parseFastbootVersion (if result.stdout = [] then result.stderr else result.stdout)

def commandOf (beyond : Char → Bool) (label : Str) (result : CommandResult) : CommandEvidence where
  label := label
  exitCode := result.exitCode
  timedOut := result.timedOut
  stdout := redactFastbootOutput beyond result.stdout
  stderr := redactFastbootOutput beyond result.stderr

/-- The evidence, where nothing blocks. -/
def evidenceOf (beyond : Char → Bool) (generatedAt : Str) (fastboot : TrustedPath)
    (versionResult devicesResult : CommandResult) (manual : Bool) : FastbootEvidence :=
  let version := commandOf beyond versionLabel versionResult
  let devices := commandOf beyond devicesLabel devicesResult
  let count := (parseFastbootDevices devicesResult.stdout).length
  if manual then
    buildEvidence generatedAt true .manualBootloaderVisible fastboot.text (versionOf versionResult) true true
      count [version, devices] [] []
  else
    buildEvidence generatedAt true .hostReady fastboot.text (versionOf versionResult) false false 0
      [version] [] [notCheckedWarning]

theorem versionLabel_allowed : commandLabelAllowed versionLabel = true := by decide

theorem devicesLabel_allowed : commandLabelAllowed devicesLabel = true := by decide

theorem commandEvidence_eq {label : Str} (h : commandLabelAllowed label = true) (result : CommandResult) :
    commandEvidence beyond label result = .ok (commandOf beyond label result) := if_pos h

theorem versionBlockers_eq_nil_iff {version : Str} :
    versionBlockers versionResult version = [] ↔ versionResult.exitCode = 0 ∧ version ≠ [] := by
  rw [versionBlockers, List.append_eq_nil_iff]
  refine and_congr ?_ ?_
  · by_cases hexit : versionResult.exitCode = 0
    · simp [hexit]
    · simp [hexit]
  · by_cases hversion : version = []
    · simp [hversion]
    · simp [hversion]

theorem devicesBlockers_eq_nil_iff {devices : List Str} :
    devicesBlockers devicesResult devices = [] ↔ devicesResult.exitCode = 0 ∧ devices ≠ [] := by
  rw [devicesBlockers]
  by_cases hexit : devicesResult.exitCode = 0
  · by_cases hdevices : devices = []
    · simp [hexit, hdevices]
    · simp [hexit, hdevices]
  · simp [hexit]

/-- Where the commands succeed, and show a version and a device if one is asked for, the evidence is in
order. -/
theorem createFastbootEvidence_eq (path : TrustedPath)
    (hversion : versionResult.exitCode = 0 ∧ versionOf versionResult ≠ [])
    (hdevices : manual = true →
      devicesResult.exitCode = 0 ∧ parseFastbootDevices devicesResult.stdout ≠ []) :
    createFastbootEvidence beyond generatedAt (some path) versionResult devicesResult manual =
      .ok (evidenceOf beyond generatedAt path versionResult devicesResult manual) := by
  have hversionNone := versionBlockers_eq_nil_iff.2 hversion
  rw [createFastbootEvidence, commandEvidence_eq versionLabel_allowed,
    commandEvidence_eq devicesLabel_allowed]
  cases manual with
  | false =>
    show Except.ok (buildEvidence generatedAt
      (versionBlockers versionResult (versionOf versionResult)).isEmpty
      (fastbootStatus (versionBlockers versionResult (versionOf versionResult)) false 0) path.text
      (versionOf versionResult) false (0 < 0) 0 _
      (versionBlockers versionResult (versionOf versionResult)).eraseDups [notCheckedWarning]) = _
    rw [hversionNone]
    rfl
  | true =>
    have hdevicesNone := devicesBlockers_eq_nil_iff.2 (hdevices rfl)
    have hcount : 0 < (parseFastbootDevices devicesResult.stdout).length :=
      List.length_pos_iff.2 (hdevices rfl).2
    have hstatus : fastbootStatus [] true (parseFastbootDevices devicesResult.stdout).length =
        .manualBootloaderVisible := by
      rw [fastbootStatus, if_neg (by simp), if_pos ⟨rfl, hcount⟩]
    show Except.ok (buildEvidence generatedAt
      (versionBlockers versionResult (versionOf versionResult) ++
        devicesBlockers devicesResult (parseFastbootDevices devicesResult.stdout)).isEmpty
      (fastbootStatus (versionBlockers versionResult (versionOf versionResult) ++
        devicesBlockers devicesResult (parseFastbootDevices devicesResult.stdout)) true
        (parseFastbootDevices devicesResult.stdout).length) path.text (versionOf versionResult) true
      (0 < (parseFastbootDevices devicesResult.stdout).length)
      (parseFastbootDevices devicesResult.stdout).length _
      (versionBlockers versionResult (versionOf versionResult) ++
        devicesBlockers devicesResult (parseFastbootDevices devicesResult.stdout)).eraseDups []) = _
    rw [hversionNone, hdevicesNone, List.append_nil, hstatus, decide_eq_true hcount]
    rfl

/-- The evidence is in order only if the program is there, its commands succeed, and they show a version
and, where it is asked for, a device. -/
theorem createFastbootEvidence_ok
    (he : createFastbootEvidence beyond generatedAt fastboot versionResult devicesResult manual = .ok e)
    (hok : e.ok = true) :
    ∃ path, e = evidenceOf beyond generatedAt path versionResult devicesResult manual ∧
      (versionResult.exitCode = 0 ∧ versionOf versionResult ≠ []) ∧
      (manual = true →
        devicesResult.exitCode = 0 ∧ parseFastbootDevices devicesResult.stdout ≠ []) := by
  cases fastboot with
  | none =>
    obtain rfl := Except.ok.inj he
    cases hok
  | some path =>
    obtain ⟨hversion, hdevices⟩ : (versionResult.exitCode = 0 ∧ versionOf versionResult ≠ []) ∧
        (manual = true →
          devicesResult.exitCode = 0 ∧ parseFastbootDevices devicesResult.stdout ≠ []) := by
      rw [createFastbootEvidence, commandEvidence_eq versionLabel_allowed,
        commandEvidence_eq devicesLabel_allowed] at he
      cases manual with
      | false =>
        obtain rfl := Except.ok.inj he
        have hnone : versionBlockers versionResult (versionOf versionResult) = [] :=
          List.isEmpty_iff.1 hok
        exact ⟨versionBlockers_eq_nil_iff.1 hnone, fun h => by cases h⟩
      | true =>
        obtain rfl := Except.ok.inj he
        have hnone : versionBlockers versionResult (versionOf versionResult) ++
            devicesBlockers devicesResult (parseFastbootDevices devicesResult.stdout) = [] :=
          List.isEmpty_iff.1 hok
        obtain ⟨hversionNone, hdevicesNone⟩ := List.append_eq_nil_iff.1 hnone
        exact ⟨versionBlockers_eq_nil_iff.1 hversionNone,
          fun _ => devicesBlockers_eq_nil_iff.1 hdevicesNone⟩
    rw [createFastbootEvidence_eq path hversion hdevices] at he
    exact ⟨path, (Except.ok.inj he).symm, hversion, hdevices⟩

end

end GoffyScripts.Fastboot
