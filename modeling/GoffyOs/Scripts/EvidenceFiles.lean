import GoffyOs.Scripts.FastbootReadiness

/-!
# Evidence files (`scripts/verify_rom0_readiness.py`)

An evidence file is read as a JSON object, and its check is a section of the readiness report. The checks
catch what `load_json_object` raises, but only an `OSError` and a `ValueError`; what they raise themselves
they do not catch.
-/

namespace GoffyScripts

open Python
open GoffyHub.Rom (Members get isTrue)

/-- An exception, with its text where it is shown. -/
inductive Raised
  | osError (message : Str)
  /-- also `JSONDecodeError` and `UnicodeDecodeError` -/
  | valueError (message : Str)
  | keyError (key : Str)
  | recursionError
  deriving DecidableEq

/-- `except (OSError, ValueError, json.JSONDecodeError) as exc`: the text of what is caught. -/
def Raised.caught : Raised → Option Str
  | .osError message | .valueError message => some message
  | .keyError _ | .recursionError => none

/-- No path, or the answer of `load_json_object`. -/
abbrev EvidenceFile := Option (Except Raised Members)

/-- The section of a file that is not there or cannot be read. -/
def blockedSection (name : Str) (message : Str) : ReadinessSection := ⟨name, false, [message], [], none⟩

/-- The beginning of each check of a file. -/
def validateFile (name missing : Str) (validate : Members → Except Raised ReadinessSection) :
    EvidenceFile → Except Raised ReadinessSection
  | none => .ok (blockedSection name missing)
  | some (.error e) =>
    match e.caught with
    | some message => .ok (blockedSection name message)
    | none => .error e
  | some (.ok payload) => validate payload

/-- The file can be read, or what is raised is caught. -/
def Readable (file : EvidenceFile) : Prop := ∀ e, file = some (.error e) → e.caught.isSome = true

section

variable {name missing : Str} {validate : Members → Except Raised ReadinessSection} {file : EvidenceFile}

/-- A check returns a section if and only if what is raised is caught, and it raises nothing itself. -/
theorem validateFile_returns_iff : (∃ s, validateFile name missing validate file = .ok s) ↔
    Readable file ∧ ∀ payload, file = some (.ok payload) → ∃ s, validate payload = .ok s := by
  match file with
  | none => exact iff_of_true ⟨_, rfl⟩ ⟨fun _ h => (nomatch h), fun _ h => (nomatch h)⟩
  | some (.ok payload) =>
    constructor
    · intro h
      refine ⟨fun _ h => (nomatch h), fun payload' heq => ?_⟩
      cases heq
      exact h
    · exact fun h => h.2 payload rfl
  | some (.error e) =>
    rw [validateFile]
    cases hcaught : e.caught with
    | some message =>
      refine iff_of_true ⟨_, rfl⟩ ⟨fun e' h => ?_, fun _ h => (nomatch h)⟩
      cases h
      rw [hcaught]
      rfl
    | none =>
      refine iff_of_false (by rintro ⟨_, h⟩; cases h) fun h => ?_
      have := h.1 e rfl
      rw [hcaught] at this
      cases this

end

/-! ### The check of fastboot evidence -/

/-- `validate_fastboot_evidence`, with what it does not catch. -/
def validateFastbootFile (beyond : Char → Bool) (containerStr : Json → Str) (requireManualVisibility : Bool) :
    EvidenceFile → Except Raised ReadinessSection :=
  validateFile "fastboot_evidence".toList "ROM fastboot evidence JSON was not supplied".toList
    fun payload => .ok (Fastboot.validateFastbootEvidence beyond containerStr (some (.ok payload))
      requireManualVisibility)

/-- Where nothing is raised, it is `validate_fastboot_evidence`. -/
theorem validateFastbootFile_eq {beyond : Char → Bool} {containerStr : Json → Str} {required : Bool}
    {file : Option (Except Str Members)} :
    validateFastbootFile beyond containerStr required (file.map (·.mapError .valueError)) =
      .ok (Fastboot.validateFastbootEvidence beyond containerStr file required) := by
  match file with
  | none => rfl
  | some (.error message) => rfl
  | some (.ok payload) => rfl

theorem ok_validateFastbootEvidence {beyond : Char → Bool} {containerStr : Json → Str} {payload : Members}
    {required : Bool} :
    (Fastboot.validateFastbootEvidence beyond containerStr (some (.ok payload)) required).ok =
      (Fastboot.fastbootBlockers beyond containerStr payload required).isEmpty := by
  delta Fastboot.validateFastbootEvidence
  dsimp only

/-! ### The check of probe evidence -/

/-- `mapping.get(key, "")`. -/
def textOf (o : List (Str × Str)) (key : String) : Str := (o.lookup key.toList).getD []

namespace Probe

/-- `PROBE_SCHEMA_VERSION`. -/
def schemaVersion : Str := "goffy.rom-feasibility-probe.v1".toList

def expectedCodename : Str := "kansas".toList
def expectedProduct : Str := "kansas_g_sys".toList

/-- `TARGET_DEVICE_EVIDENCE_KEYS`. -/
def targetDeviceEvidenceKeys : List Str :=
  ["model".toList, "codename".toList, "product".toList, "hardware_sku".toList,
    "build_fingerprint".toList, "carrier".toList]

/-- `dsu_package_present`. -/
def dsuPackagePresent (dsu : List (Str × Str)) : Str :=
  if textOf dsu "package_present" ≠ [] then textOf dsu "package_present" else textOf dsu "package_installed"

section

variable (containerStr : Json → Str) (payload : Members)

/-- The evidence of `validate_probe_evidence`. -/
def evidence : List (Str × Str) :=
  let device := mappingValue containerStr (get payload "device")
  let boot := mappingValue containerStr (get payload "boot")
  let properties := mappingValue containerStr (get payload "properties")
  [("model".toList, textOf device "model"), ("codename".toList, textOf device "codename"),
    ("product".toList, textOf device "product"), ("hardware_sku".toList, textOf device "hardware_sku"),
    ("build_fingerprint".toList, textOf properties "ro.build.fingerprint"),
    ("carrier".toList, textOf device "carrier"),
    ("bootloader".toList, textOf boot "vbmeta_device_state"),
    ("rom_path".toList, getStr containerStr payload "rom_path" [])]

/-- The blockers of `validate_probe_evidence`. -/
def blockers : List Str :=
  let device := mappingValue containerStr (get payload "device")
  let boot := mappingValue containerStr (get payload "boot")
  let treble := mappingValue containerStr (get payload "treble")
  let items := stringItems containerStr (get payload "blockers")
  blockIf (isStr (get payload "schema_version") schemaVersion = false)
    "ROM feasibility probe schema_version mismatch".toList ++
  (if isTrue (get payload "ok") = false then
    if items ≠ [] then items else ["ROM feasibility probe is not OK".toList]
  else []) ++
  blockIf (device.lookup "codename".toList ≠ some expectedCodename)
    "ROM probe codename does not match kansas".toList ++
  blockIf (device.lookup "product".toList ≠ some expectedProduct)
    "ROM probe product does not match kansas_g_sys".toList ++
  blockIf (boot.lookup "flash_locked".toList ≠ some "0".toList ∨
      boot.lookup "vbmeta_device_state".toList ≠ some "unlocked".toList)
    "ROM probe does not show an unlocked bootloader".toList ++
  blockIf (treble.lookup "enabled".toList ≠ some "true".toList)
    "ROM probe does not show Treble enabled".toList ++
  blockIf (treble.lookup "dynamic_partitions".toList ≠ some "true".toList)
    "ROM probe does not show dynamic partitions".toList ++
  (targetDeviceEvidenceKeys.filter fun key => (evidence containerStr payload).lookup key = some []).map
    fun key => "ROM probe target_device.".toList ++ key ++ " is missing".toList

/-- `validate_probe_evidence`, of a file that has been read. -/
def validatePayload : ReadinessSection :=
  let dsu := mappingValue containerStr (get payload "dsu")
  { name := "rom_probe".toList
    ok := (blockers containerStr payload).isEmpty
    blockers := blockers containerStr payload
    warnings := (stringItems containerStr (get payload "warnings") ++
      blockIf (dsuPackagePresent dsu ≠ "true".toList)
        "ROM probe did not confirm DSU package availability".toList).eraseDups
    evidence := some (evidence containerStr payload) }

end

end Probe

/-- `validate_probe_evidence`. -/
def validateProbeEvidence (containerStr : Json → Str) : EvidenceFile → Except Raised ReadinessSection :=
  validateFile "rom_probe".toList "ROM feasibility probe JSON was not supplied".toList
    fun payload => .ok (Probe.validatePayload containerStr payload)

end GoffyScripts
