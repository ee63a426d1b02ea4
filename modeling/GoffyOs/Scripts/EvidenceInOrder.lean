import GoffyOs.Scripts.GsiCandidate

/-!
# Evidence in order

What a probe of the device, a run of fastboot and a GSI candidate have to show is said here field by field,
whatever the checks of `verify_rom0_readiness.py` make of it.

`Probe.blockers_eq_nil_iff`, `Fastboot.blockers_eq_nil_iff` and `Gsi.validateGsiPayload_ok_iff` say that the
checks find no blockers if and only if the evidence is in order.
-/

namespace GoffyScripts

open Python
open GoffyHub.Rom (Members get isTrue)

/-! ### Values and keys -/

section Values

variable {value : Option Json} {s : Str}

theorem isTrue_iff : isTrue value = true ↔ value = some (.bool true) := by
  cases value with
  | none => simp [GoffyHub.Rom.isTrue]
  | some value => cases value <;> simp [GoffyHub.Rom.isTrue]

theorem isFalse_iff : isFalse value = true ↔ value = some (.bool false) := by
  cases value with
  | none => simp [isFalse]
  | some value => cases value <;> simp [isFalse]

theorem isStr_iff : isStr value s = true ↔ value = some (.str s) := by
  cases value with
  | none => simp [isStr]
  | some value => cases value <;> simp [isStr]

/-- A count of nothing is a number that is equal to zero. -/
theorem intValue_eq_zero_iff : intValue value = some 0 ↔
    isZero value = true ∧ ¬ (intValue value).all (· < 0) = true := by
  cases value with
  | none => simp [intValue]
  | some value =>
    cases value with
    | int n =>
      simp only [intValue, isZero, Option.some.injEq, decide_eq_true_eq, Option.all_some]
      omega
    | bool b => cases b <;> simp [intValue, isZero]
    | _ => simp [intValue]

end Values

/-- No other keys than these. -/
def OnlyKeys (keys : List Str) (allowed : List String) : Prop := ∀ key ∈ keys, ∃ name ∈ allowed, name.toList = key

theorem unsupportedKeyBlockers_eq_nil_iff {containerStr : Json → Str} {keys : List Str}
    {allowed : List String} {label : Str} :
    unsupportedKeyBlockers containerStr keys allowed label = [] ↔ OnlyKeys keys allowed := by
  rw [unsupportedKeyBlockers, blockIf_eq_nil, not_not, List.filter_eq_nil_iff, OnlyKeys]
  refine forall₂_congr fun key _ => ?_
  rw [Bool.not_eq_true, Bool.not_eq_false', List.any_eq_true]
  simp only [decide_eq_true_eq]

/-- `mapping_value(payload.get(key))`. -/
abbrev mappingOf (containerStr : Json → Str) (payload : Members) (key : String) : List (Str × Str) :=
  mappingValue containerStr (get payload key)

/-! ### The probe -/

namespace Probe

variable {containerStr : Json → Str} {payload : Members}

/-- The device that the ROM is for, with an unlocked bootloader, Treble and dynamic partitions. -/
structure InOrder (containerStr : Json → Str) (payload : Members) : Prop where
  schema_version : get payload "schema_version" = some (.str schemaVersion)
  ok : get payload "ok" = some (.bool true)
  codename : (mappingOf containerStr payload "device").lookup "codename".toList = some expectedCodename
  product : (mappingOf containerStr payload "device").lookup "product".toList = some expectedProduct
  flash_locked : (mappingOf containerStr payload "boot").lookup "flash_locked".toList = some "0".toList
  vbmeta_device_state :
    (mappingOf containerStr payload "boot").lookup "vbmeta_device_state".toList = some "unlocked".toList
  treble : (mappingOf containerStr payload "treble").lookup "enabled".toList = some "true".toList
  dynamic_partitions :
    (mappingOf containerStr payload "treble").lookup "dynamic_partitions".toList = some "true".toList
  model : textOf (mappingOf containerStr payload "device") "model" ≠ []
  hardware_sku : textOf (mappingOf containerStr payload "device") "hardware_sku" ≠ []
  build_fingerprint : textOf (mappingOf containerStr payload "properties") "ro.build.fingerprint" ≠ []
  carrier : textOf (mappingOf containerStr payload "device") "carrier" ≠ []

/-- The texts of the device that are shown. -/
theorem missing_eq_nil_iff {codename product : Str}
    (hcodename : (mappingOf containerStr payload "device").lookup "codename".toList = some codename)
    (hproduct : (mappingOf containerStr payload "device").lookup "product".toList = some product)
    (hne : codename ≠ [] ∧ product ≠ []) :
    (targetDeviceEvidenceKeys.filter fun key => (evidence containerStr payload).lookup key = some []) = [] ↔
      textOf (mappingOf containerStr payload "device") "model" ≠ [] ∧
      textOf (mappingOf containerStr payload "device") "hardware_sku" ≠ [] ∧
      textOf (mappingOf containerStr payload "properties") "ro.build.fingerprint" ≠ [] ∧
      textOf (mappingOf containerStr payload "device") "carrier" ≠ [] := by
  have hmodel : (evidence containerStr payload).lookup "model".toList =
      some (textOf (mappingOf containerStr payload "device") "model") := rfl
  have hcodename' : (evidence containerStr payload).lookup "codename".toList =
      some (textOf (mappingOf containerStr payload "device") "codename") := rfl
  have hproduct' : (evidence containerStr payload).lookup "product".toList =
      some (textOf (mappingOf containerStr payload "device") "product") := rfl
  have hsku : (evidence containerStr payload).lookup "hardware_sku".toList =
      some (textOf (mappingOf containerStr payload "device") "hardware_sku") := rfl
  have hbuild : (evidence containerStr payload).lookup "build_fingerprint".toList =
      some (textOf (mappingOf containerStr payload "properties") "ro.build.fingerprint") := rfl
  have hcarrier : (evidence containerStr payload).lookup "carrier".toList =
      some (textOf (mappingOf containerStr payload "device") "carrier") := rfl
  rw [textOf, hcodename, Option.getD_some] at hcodename'
  rw [textOf, hproduct, Option.getD_some] at hproduct'
  rw [List.filter_eq_nil_iff, targetDeviceEvidenceKeys]
  simp only [List.forall_mem_cons, decide_eq_true_eq, hmodel, hcodename', hproduct', hsku, hbuild, hcarrier,
    Option.some.injEq, hne, not_false_eq_true, true_and, ne_eq]
  exact ⟨fun h => ⟨h.1, h.2.1, h.2.2.1, h.2.2.2.1⟩,
    fun h => ⟨h.1, h.2.1, h.2.2.1, h.2.2.2, fun _ h => absurd h List.not_mem_nil⟩⟩

theorem ok_blockers_eq_nil_iff {ok : Option Json} {items : List Str} {message : Str} :
    (if isTrue ok = false then if items ≠ [] then items else [message] else []) = [] ↔
      ok = some (.bool true) := by
  rw [← isTrue_iff]
  by_cases hitems : items = [] <;> cases isTrue ok <;> simp [hitems]

/-- **The check of a probe.** It finds no blockers if and only if the evidence is in order. -/
theorem blockers_eq_nil_iff : blockers containerStr payload = [] ↔ InOrder containerStr payload := by
  rw [blockers]
  simp only [List.append_eq_nil_iff, blockIf_eq_nil, Bool.not_eq_false, isStr_iff, ok_blockers_eq_nil_iff,
    List.map_eq_nil_iff, not_or, not_not, ne_eq, and_assoc]
  constructor
  · rintro ⟨hschema, hok, hcodename, hproduct, hlocked, hstate, htreble, hdynamic, hmissing⟩
    obtain ⟨hmodel, hsku, hbuild, hcarrier⟩ :=
      (missing_eq_nil_iff hcodename hproduct (by decide)).1 hmissing
    exact ⟨hschema, hok, hcodename, hproduct, hlocked, hstate, htreble, hdynamic, hmodel, hsku, hbuild,
      hcarrier⟩
  · intro h
    have hmissing := (missing_eq_nil_iff h.codename h.product (by decide)).2
      ⟨h.model, h.hardware_sku, h.build_fingerprint, h.carrier⟩
    exact ⟨h.schema_version, h.ok, h.codename, h.product, h.flash_locked, h.vbmeta_device_state, h.treble,
      h.dynamic_partitions, hmissing⟩

end Probe

/-! ### Fastboot -/

namespace Fastboot

section

variable (beyond : Char → Bool) (containerStr : Json → Str)

/-- The label of a command, as it is compared. -/
def labelOf (o : Members) : Str := normalizedLabel (getStr containerStr o "label" [])

/-- The lines of a command that show a device, where it is the one that lists them. -/
def deviceLinesOf (o : Members) : ℕ :=
  if labelOf containerStr o = devicesLabel then
    countRedactedFastbootDevices (getStr containerStr o "stdout" []) +
      countRedactedFastbootDevices (getStr containerStr o "stderr" [])
  else 0

def deviceLines (commands : List Members) : ℕ := (commands.map (deviceLinesOf containerStr)).sum

/-- A command that only reads, has succeeded and shows neither a serial nor a path. -/
structure CommandInOrder (o : Members) : Prop where
  keys : OnlyKeys (o.map (·.1)) commandKeys
  label : labelOf containerStr o = versionLabel ∨ labelOf containerStr o = devicesLabel
  exit_code : isZero (get o "exit_code") = true
  timed_out : get o "timed_out" = some (.bool false)
  stdout : containsUnredactedFastbootOutput beyond (getStr containerStr o "stdout" []) = false
  stderr : containsUnredactedFastbootOutput beyond (getStr containerStr o "stderr" []) = false

/-- A list of such commands, with the one that asks for the version. -/
structure CommandsInOrder (value : Option Json) (commands : List Members) : Prop where
  items : value = some (.array (commands.map .object))
  command : ∀ o ∈ commands, CommandInOrder beyond containerStr o
  version : ∃ o ∈ commands, labelOf containerStr o = versionLabel

/-- No device was asked for, and none is shown. -/
structure ShowsHost (manual : Members) (commands : List Members) : Prop where
  requested : get manual "requested" = some (.bool false)
  visible : get manual "bootloader_device_visible" = some (.bool false)
  count : intValue (get manual "bootloader_device_count") = some 0
  no_device : ∀ o ∈ commands, labelOf containerStr o ≠ devicesLabel

/-- A device was asked for, and the commands show as many as are counted. -/
structure ShowsDevice (manual : Members) (commands : List Members) : Prop where
  requested : get manual "requested" = some (.bool true)
  visible : get manual "bootloader_device_visible" = some (.bool true)
  count : intValue (get manual "bootloader_device_count") = some (deviceLines containerStr commands : ℤ)
  device : 0 < deviceLines containerStr commands

/-- The fields of evidence with this check for a device and these commands. -/
structure FieldsInOrder (payload manual : Members) (commands : List Members) (required : Bool) : Prop where
  keys : OnlyKeys (payload.map (·.1)) topLevelKeys
  schema_version : get payload "schema_version" = some (.str jsonSchemaVersion)
  ok : get payload "ok" = some (.bool true)
  warnings : ∀ w ∈ stringItems containerStr (get payload "warnings"), w = notCheckedWarning
  blockers : stringItems containerStr (get payload "blockers") = []
  destructive_actions : get payload "destructive_actions" = some (.str "withheld".toList)
  host_keys : OnlyKeys ((mappingOf containerStr payload "host").map (·.1)) hostKeys
  fastboot : (mappingOf containerStr payload "host").lookup "fastboot".toList = some "available".toList
  fastboot_path : (mappingOf containerStr payload "host").lookup "fastboot_path".toList =
    some "<android-sdk>/platform-tools/fastboot".toList
  fastboot_version : textOf (mappingOf containerStr payload "host") "fastboot_version" ≠ []
  manual_check : get payload "manual_bootloader_check" = some (.object manual)
  manual_keys : OnlyKeys (manual.map (·.1)) manualCheckKeys
  serials_redacted : get manual "serials_redacted" = some (.bool true)
  command_results : CommandsInOrder beyond containerStr (get payload "commands") commands
  status :
    getStr containerStr payload "status" [] = FastbootStatus.hostReady.value ∧ required = false ∧
        ShowsHost containerStr manual commands ∨
      getStr containerStr payload "status" [] = FastbootStatus.manualBootloaderVisible.value ∧
        ShowsDevice containerStr manual commands

/-- Evidence of a trusted fastboot, and of a device where one is required. -/
def PayloadInOrder (payload : Members) (required : Bool) : Prop :=
  ∃ manual commands, FieldsInOrder beyond containerStr payload manual commands required

end

section

variable {beyond : Char → Bool} {containerStr : Json → Str} {payload manual o : Members}
  {commands : List Members} {required : Bool}

/-! #### Messages -/

theorem filteredFastbootMessages_blockers_iff {messages allowed : List Str} {label : Str} :
    (filteredFastbootMessages beyond messages allowed label).2 = [] ↔
      ∀ m ∈ messages, isSafeMessage beyond allowed m = true := by
  rw [filteredFastbootMessages, List.map_eq_nil_iff, List.filter_eq_nil_iff]
  exact forall₂_congr fun m _ => by rw [Bool.not_eq_true, Bool.not_eq_false']

/-- There is one warning that is let through. -/
theorem warnings_eq_nil_iff :
    (payloadMessages beyond containerStr payload "warnings" safeFastbootWarnings).2 = [] ↔
      ∀ w ∈ stringItems containerStr (get payload "warnings"), w = notCheckedWarning := by
  rw [payloadMessages, filteredFastbootMessages_blockers_iff]
  refine forall₂_congr fun w _ => ?_
  constructor
  · intro h
    rw [isSafeMessage, Bool.and_eq_true, decide_eq_true_eq] at h
    exact List.mem_singleton.1 h.1
  · rintro rfl
    exact isSafeMessage_notCheckedWarning

/-- Evidence that is in order has no blockers of its own, whatever they say. -/
theorem own_blockers_iff (message inconsistent : Str) :
    (payloadMessages beyond containerStr payload "blockers" safeFastbootBlockers).2 = [] ∧
      (if isTrue (get payload "ok") = false then
        if (payloadMessages beyond containerStr payload "blockers" safeFastbootBlockers).1 ≠ [] then
          (payloadMessages beyond containerStr payload "blockers" safeFastbootBlockers).1
        else [message]
      else blockIf ((payloadMessages beyond containerStr payload "blockers" safeFastbootBlockers).1 ≠ [])
        inconsistent) = [] ↔
    get payload "ok" = some (.bool true) ∧ stringItems containerStr (get payload "blockers") = [] := by
  rw [← isTrue_iff, payloadMessages, filteredFastbootMessages_blockers_iff, filteredFastbootMessages]
  generalize stringItems containerStr (get payload "blockers") = messages
  cases hok : GoffyHub.Rom.isTrue (get payload "ok") with
  | false =>
    refine iff_of_false ?_ fun h => Bool.false_ne_true h.1
    rintro ⟨-, h⟩
    rw [if_pos rfl] at h
    split at h
    · contradiction
    · cases h
  | true =>
    rw [if_neg (by decide), blockIf_eq_nil, not_not, List.filter_eq_nil_iff]
    constructor
    · rintro ⟨hsafe, hnone⟩
      refine ⟨rfl, List.eq_nil_iff_forall_not_mem.2 fun m hm => hnone m hm (hsafe m hm)⟩
    · rintro ⟨-, rfl⟩
      exact ⟨fun _ h => absurd h List.not_mem_nil, fun _ h => absurd h List.not_mem_nil⟩

/-! #### Commands -/

/-- A label that is allowed is one of the two. -/
theorem commandLabelAllowed_iff {label : Str} : commandLabelAllowed label = true ↔
    normalizedLabel label = versionLabel ∨ normalizedLabel label = devicesLabel := by
  have hread : ∀ l ∈ readOnlyFastbootLabels, commandHasDestructiveTerm l = false := by decide
  have hmem : normalizedLabel label ∈ readOnlyFastbootLabels ↔
      normalizedLabel label = versionLabel ∨ normalizedLabel label = devicesLabel := by
    rw [readOnlyFastbootLabels, List.mem_cons, List.mem_singleton]
  rw [commandLabelAllowed, Bool.and_eq_true, decide_eq_true_eq, ← hmem]
  refine and_iff_left_of_imp fun h => ?_
  rw [hread _ h]
  rfl

theorem checkCommand_blockers_iff {index : ℕ} {item : Json} :
    (checkCommand beyond containerStr index item).blockers = [] ↔
      ∃ o, item = .object o ∧ CommandInOrder beyond containerStr o := by
  cases item with
  | object o =>
    rw [checkCommand]
    simp only [List.append_eq_nil_iff, blockIf_eq_nil, unsupportedKeyBlockers_eq_nil_iff, Bool.not_eq_false,
      Bool.not_eq_true, commandLabelAllowed_iff, isFalse_iff, and_assoc]
    constructor
    · rintro ⟨hkeys, hlabel, hexit, htime, hstdout, hstderr⟩
      exact ⟨o, rfl, hkeys, hlabel, hexit, htime, hstdout, hstderr⟩
    · rintro ⟨_, heq, h⟩
      cases heq
      exact ⟨h.keys, h.label, h.exit_code, h.timed_out, h.stdout, h.stderr⟩
  | _ =>
    refine iff_of_false (List.cons_ne_nil _ _) ?_
    rintro ⟨_, h, -⟩
    cases h

/-- What a command in order adds to the summary. -/
theorem CommandInOrder.check (h : CommandInOrder beyond containerStr o) (index : ℕ) :
    (checkCommand beyond containerStr index (.object o)).label = some (labelOf containerStr o) ∧
      (checkCommand beyond containerStr index (.object o)).successfulLabel =
        some (labelOf containerStr o) ∧
      (checkCommand beyond containerStr index (.object o)).redactedDeviceCount =
        deviceLinesOf containerStr o := by
  have hsuccess : (commandLabelAllowed (getStr containerStr o "label" []) && isZero (get o "exit_code") &&
      isFalse (get o "timed_out")) = true := by
    rw [commandLabelAllowed_iff.2 h.label, h.exit_code, isFalse_iff.2 h.timed_out]
    rfl
  rw [checkCommand]
  exact ⟨rfl, if_pos hsuccess, rfl⟩

/-- The rounds of commands in order. -/
theorem checkCommands_blockers_iff {items : List Json} : ∀ {n : ℕ},
    (checkCommands beyond containerStr n items).flatMap (·.blockers) = [] ↔
      ∃ commands : List Members, items = commands.map .object ∧ ∀ o ∈ commands, CommandInOrder beyond containerStr o := by
  induction items with
  | nil =>
    intro n
    exact iff_of_true rfl ⟨[], rfl, fun _ h => absurd h List.not_mem_nil⟩
  | cons item items ih =>
    intro n
    rw [checkCommands, List.flatMap_cons, List.append_eq_nil_iff, checkCommand_blockers_iff, ih]
    constructor
    · rintro ⟨⟨o, rfl, ho⟩, commands, rfl, hcommands⟩
      exact ⟨o :: commands, rfl, List.forall_mem_cons.2 ⟨ho, hcommands⟩⟩
    · rintro ⟨commands, heq, hcommands⟩
      cases commands with
      | nil => cases heq
      | cons o commands =>
        cases heq
        obtain ⟨ho, hcommands⟩ := List.forall_mem_cons.1 hcommands
        exact ⟨⟨o, rfl, ho⟩, commands, rfl, hcommands⟩

theorem checkCommands_summary : ∀ {commands : List Members} {n : ℕ},
    (∀ o ∈ commands, CommandInOrder beyond containerStr o) →
    (checkCommands beyond containerStr n (commands.map .object)).filterMap (·.label) =
        commands.map (labelOf containerStr) ∧
      (checkCommands beyond containerStr n (commands.map .object)).filterMap (·.successfulLabel) =
        commands.map (labelOf containerStr) ∧
      ((checkCommands beyond containerStr n (commands.map .object)).map
        (·.redactedDeviceCount)).sum = deviceLines containerStr commands
  | [], _, _ => ⟨rfl, rfl, rfl⟩
  | o :: commands, n, h => by
    obtain ⟨ho, hcommands⟩ := List.forall_mem_cons.1 h
    obtain ⟨hlabel, hsuccessful, hcount⟩ := ho.check n
    obtain ⟨hlabels, hsuccessfuls, hcounts⟩ := checkCommands_summary (n := n + 1) hcommands
    rw [List.map_cons, checkCommands]
    refine ⟨?_, ?_, ?_⟩
    · rw [List.filterMap_cons_some hlabel, hlabels, List.map_cons]
    · rw [List.filterMap_cons_some hsuccessful, hsuccessfuls, List.map_cons]
    · rw [List.map_cons, List.sum_cons, hcount, hcounts, deviceLines, deviceLines, List.map_cons,
        List.sum_cons]

theorem CommandsInOrder.summary {value : Option Json}
    (h : CommandsInOrder beyond containerStr value commands) :
    validateFastbootCommands beyond containerStr value =
      (⟨commands.map (labelOf containerStr), deviceLines containerStr commands⟩, []) := by
  obtain ⟨o, ho, hversion⟩ := h.version
  obtain ⟨hlabels, hsuccessful, hcounts⟩ := checkCommands_summary (n := 0) h.command
  have hblockers := (checkCommands_blockers_iff (n := 0)).2 ⟨commands, rfl, h.command⟩
  have hmem : versionLabel ∈ commands.map (labelOf containerStr) := hversion ▸ List.mem_map_of_mem ho
  rw [h.items]
  cases commands with
  | nil => exact absurd ho List.not_mem_nil
  | cons first rest =>
    rw [List.map_cons] at hlabels hsuccessful hcounts hblockers ⊢
    rw [validateFastbootCommands]
    simp only [hlabels, hsuccessful, hcounts, hblockers, List.nil_append, Prod.mk.injEq, blockIf_eq_nil,
      not_not, true_and]
    exact hmem

theorem validateFastbootCommands_blockers_iff {value : Option Json} :
    (validateFastbootCommands beyond containerStr value).2 = [] ↔
      ∃ commands, CommandsInOrder beyond containerStr value commands := by
  constructor
  · intro h
    unfold validateFastbootCommands at h
    split at h
    · obtain ⟨hblockers, hversion⟩ := List.append_eq_nil_iff.1 h
      obtain ⟨commands, hitems, hcommands⟩ := checkCommands_blockers_iff.1 hblockers
      rw [blockIf_eq_nil, not_not, hitems, (checkCommands_summary hcommands).1] at hversion
      obtain ⟨o, ho, hlabel⟩ := List.mem_map.1 hversion
      exact ⟨commands, by rw [hitems], hcommands, o, ho, hlabel⟩
    · cases h
  · rintro ⟨commands, h⟩
    rw [h.summary]

/-! #### The device -/

/-- What the check for a device looks at, whatever the status. -/
structure ManualFits (manual : Members) : Prop where
  requested : isBool (get manual "requested") = true
  visible : isBool (get manual "bootloader_device_visible") = true
  count : ¬ (intValue (get manual "bootloader_device_count")).all (· < 0) = true
  found : ¬ (isTrue (get manual "requested") = true ∧
    isTrue (get manual "bootloader_device_visible") = false)
  positive : ¬ (isTrue (get manual "bootloader_device_visible") = true ∧
    (intValue (get manual "bootloader_device_count")).all (· < 1) = true)

theorem validateFastbootManualCheck_blockers_iff {value : Option Json} :
    (validateFastbootManualCheck containerStr value).2 = [] ↔
      ∃ manual, value = some (.object manual) ∧ OnlyKeys (manual.map (·.1)) manualCheckKeys ∧
        get manual "serials_redacted" = some (.bool true) ∧ ManualFits manual := by
  unfold validateFastbootManualCheck
  split
  case h_1 manual =>
    simp only [List.append_eq_nil_iff, blockIf_eq_nil, unsupportedKeyBlockers_eq_nil_iff, Bool.not_eq_false,
      isTrue_iff, and_assoc]
    constructor
    · rintro ⟨hkeys, hserials, hrequested, hvisible, hcount, hfound, hpositive⟩
      simp only [← isTrue_iff] at hfound hpositive
      exact ⟨manual, rfl, hkeys, hserials, hrequested, hvisible, hcount, hfound, hpositive⟩
    · rintro ⟨_, heq, hkeys, hserials, h⟩
      cases heq
      simp only [← isTrue_iff]
      exact ⟨hkeys, isTrue_iff.2 hserials, h.requested, h.visible, h.count, h.found, h.positive⟩
  case h_2 hnot =>
    refine iff_of_false (List.cons_ne_nil _ _) ?_
    rintro ⟨manual, heq, -⟩
    exact hnot manual heq

/-- Only the command that lists devices shows one. -/
theorem deviceLines_eq_zero (h : ∀ o ∈ commands, labelOf containerStr o ≠ devicesLabel) :
    deviceLines containerStr commands = 0 := by
  refine List.sum_eq_zero_iff_forall_eq_nat.2 fun n hn => ?_
  obtain ⟨o, ho, rfl⟩ := List.mem_map.1 hn
  exact if_neg (h o ho)

theorem devicesLabel_mem_of_pos (h : 0 < deviceLines containerStr commands) :
    devicesLabel ∈ commands.map (labelOf containerStr) := by
  by_contra hnone
  refine h.ne' (deviceLines_eq_zero fun o ho heq => hnone ?_)
  exact heq ▸ List.mem_map_of_mem ho

section Status

variable {summary : FastbootCommandSummary}
  (hlabels : summary.successfulLabels = commands.map (labelOf containerStr))
  (hlines : summary.redactedFastbootDeviceCount = deviceLines containerStr commands)

include hlabels hlines

theorem showsHost_iff : ShowsHost containerStr manual commands ↔ ManualFits manual ∧
    validateFastbootStatusConsistency FastbootStatus.hostReady.value manual summary = [] := by
  rw [validateFastbootStatusConsistency, if_pos rfl]
  simp only [List.append_eq_nil_iff, blockIf_eq_nil, not_or, Bool.not_eq_false, isFalse_iff, not_not]
  rw [hlabels, hlines]
  constructor
  · intro h
    obtain ⟨hzero, hcount⟩ := intValue_eq_zero_iff.1 h.count
    have hfalse : ¬ GoffyHub.Rom.isTrue (some (.bool false)) = true := by decide
    refine ⟨⟨?_, ?_, hcount, ?_, ?_⟩, ⟨h.requested, h.visible, hzero⟩, fun hmem => ?_,
      deviceLines_eq_zero h.no_device⟩
    · rw [h.requested]
      rfl
    · rw [h.visible]
      rfl
    · rw [h.requested]
      exact fun h => hfalse h.1
    · rw [h.visible]
      exact fun h => hfalse h.1
    · obtain ⟨o, ho, hlabel⟩ := List.mem_map.1 hmem
      exact h.no_device o ho hlabel
  · rintro ⟨hfits, ⟨hrequested, hvisible, hzero⟩, hnone, -⟩
    exact ⟨hrequested, hvisible, intValue_eq_zero_iff.2 ⟨hzero, hfits.count⟩,
      fun o ho hlabel => hnone (hlabel ▸ List.mem_map_of_mem ho)⟩

theorem showsDevice_iff : ShowsDevice containerStr manual commands ↔ ManualFits manual ∧
    validateFastbootStatusConsistency FastbootStatus.manualBootloaderVisible.value manual summary = [] := by
  have hnotReady : FastbootStatus.manualBootloaderVisible.value ≠ FastbootStatus.hostReady.value := by
    decide
  rw [validateFastbootStatusConsistency, if_neg hnotReady, if_pos rfl]
  simp only [List.append_eq_nil_iff, blockIf_eq_nil, not_or, Bool.not_eq_false, isTrue_iff, not_not]
  rw [hlabels, hlines]
  constructor
  · intro h
    have hpos := h.device
    have htrue : ¬ GoffyHub.Rom.isTrue (some (.bool true)) = false := by decide
    have hcount : ∀ n : ℤ, n ≤ 1 →
        ¬ (intValue (get manual "bootloader_device_count")).all (· < n) = true := by
      intro n hn
      rw [h.count, Option.all_some, decide_eq_true_eq]
      omega
    refine ⟨⟨?_, ?_, hcount 0 (by decide), ?_, fun h => hcount 1 le_rfl h.2⟩,
      ⟨⟨h.requested, h.visible, hcount 1 le_rfl⟩, devicesLabel_mem_of_pos h.device⟩, ?_⟩
    · rw [h.requested]
      rfl
    · rw [h.visible]
      rfl
    · rw [h.visible]
      exact fun h => htrue h.2
    · rw [if_neg (by omega), blockIf_eq_nil, h.count, Option.any_some, decide_eq_true_eq, not_not]
  · rintro ⟨-, ⟨⟨hrequested, hvisible, hcount⟩, -⟩, hcounted⟩
    split at hcounted
    case isTrue => cases hcounted
    case isFalse hpos =>
      rw [blockIf_eq_nil] at hcounted
      cases hvalue : intValue (get manual "bootloader_device_count") with
      | none =>
        rw [hvalue] at hcount
        exact absurd rfl hcount
      | some n =>
        rw [hvalue, Option.any_some, decide_eq_true_eq, not_not] at hcounted
        exact ⟨hrequested, hvisible, hvalue.trans (congrArg some hcounted), by omega⟩

end Status

/-! #### The check -/

theorem fastboot_version_iff {host : List (Str × Str)} :
    ¬ (host.lookup "fastboot_version".toList).all (· = []) = true ↔ textOf host "fastboot_version" ≠ [] := by
  rw [textOf]
  cases host.lookup "fastboot_version".toList with
  | none => simp
  | some version => simp

/-- **The check of fastboot.** It finds no blockers if and only if the evidence is in order. -/
theorem blockers_eq_nil_iff : fastbootBlockers beyond containerStr payload required = [] ↔
    PayloadInOrder beyond containerStr payload required := by
  rw [fastbootBlockers]
  simp only [List.append_eq_nil_iff, warnings_eq_nil_iff, unsupportedKeyBlockers_eq_nil_iff,
    validateFastbootCommands_blockers_iff, validateFastbootManualCheck_blockers_iff, and_assoc]
  constructor
  · rintro ⟨hwarnings, hkeys, hschema, hnothing, hown, hdestructive, hstatus, hhostKeys, hfastboot, hpath,
      hversion, ⟨manual, hmanual, hmanualKeys, hserials, hfits⟩, ⟨commands, hcommands⟩, hconsistent,
      hrequired⟩
    obtain ⟨hok, hblockers⟩ := (own_blockers_iff _ _).1 ⟨hnothing, hown⟩
    rw [blockIf_eq_nil, Bool.not_eq_false, isStr_iff] at hschema hdestructive
    rw [blockIf_eq_nil, not_not] at hfastboot hpath
    rw [blockIf_eq_nil, fastboot_version_iff] at hversion
    rw [blockIf_eq_nil] at hstatus hrequired
    rw [hmanual, hcommands.summary] at hconsistent
    refine ⟨manual, commands, hkeys, hschema, hok, hwarnings, hblockers, hdestructive, hhostKeys, hfastboot,
      hpath, hversion, hmanual, hmanualKeys, hserials, hcommands, ?_⟩
    by_cases hready : getStr containerStr payload "status" [] = FastbootStatus.hostReady.value
    · rw [hready] at hconsistent hrequired
      refine Or.inl ⟨hready, ?_, (showsHost_iff rfl rfl).2 ⟨hfits, hconsistent⟩⟩
      cases required with
      | false => rfl
      | true => exact absurd ⟨rfl, by decide⟩ hrequired
    · have hvisible : getStr containerStr payload "status" [] =
          FastbootStatus.manualBootloaderVisible.value := by
        by_contra hvisible
        exact hstatus ⟨hready, hvisible⟩
      rw [hvisible] at hconsistent
      exact Or.inr ⟨hvisible, (showsDevice_iff rfl rfl).2 ⟨hfits, hconsistent⟩⟩
  · rintro ⟨manual, commands, h⟩
    have hown := fun message inconsistent => (@own_blockers_iff beyond containerStr payload message
      inconsistent).2 ⟨h.ok, h.blockers⟩
    have hstatus : ManualFits manual ∧
        validateFastbootStatusConsistency (getStr containerStr payload "status" []) manual
          ⟨commands.map (labelOf containerStr), deviceLines containerStr commands⟩ = [] ∧
        ¬ (getStr containerStr payload "status" [] ≠ FastbootStatus.hostReady.value ∧
          getStr containerStr payload "status" [] ≠ FastbootStatus.manualBootloaderVisible.value) ∧
        ¬ (required = true ∧
          getStr containerStr payload "status" [] ≠ FastbootStatus.manualBootloaderVisible.value) := by
      rcases h.status with ⟨hready, rfl, hhost⟩ | ⟨hvisible, hdevice⟩
      · rw [hready]
        have hconsistent := (@showsHost_iff containerStr manual commands ⟨_, _⟩ rfl rfl).1 hhost
        exact ⟨hconsistent.1, hconsistent.2, fun h => h.1 rfl, fun h => Bool.false_ne_true h.1⟩
      · rw [hvisible]
        have hconsistent := (@showsDevice_iff containerStr manual commands ⟨_, _⟩ rfl rfl).1 hdevice
        exact ⟨hconsistent.1, hconsistent.2, fun h => h.2 rfl, fun h => h.2 rfl⟩
    obtain ⟨hfits, hconsistent, hone, hrequired⟩ := hstatus
    rw [h.manual_check, h.command_results.summary]
    refine ⟨h.warnings, h.keys, ?_, (hown [] []).1, (hown _ _).2, ?_, blockIf_eq_nil.2 hone, h.host_keys,
      ?_, ?_, ?_, ⟨manual, rfl, h.manual_keys, h.serials_redacted, hfits⟩, ⟨commands, h.command_results⟩,
      hconsistent, blockIf_eq_nil.2 hrequired⟩
    · rw [blockIf_eq_nil, Bool.not_eq_false, isStr_iff]
      exact h.schema_version
    · rw [blockIf_eq_nil, Bool.not_eq_false, isStr_iff]
      exact h.destructive_actions
    · rw [blockIf_eq_nil, not_not]
      exact h.fastboot
    · rw [blockIf_eq_nil, not_not]
      exact h.fastboot_path
    · rw [blockIf_eq_nil, fastboot_version_iff]
      exact h.fastboot_version

end

end Fastboot

/-! ### GSI candidates -/

namespace Gsi

section

variable (lib : Library)

/-- A candidate for the device, under a name that asks for nothing. -/
structure CandidateInOrder (candidate : Texts) : Prop where
  keys : OnlyKeys (candidate.map (·.1)) candidateKeys
  android_release : candidate.lookup "android_release".toList = some "16".toList
  architecture : candidate.lookup "architecture".toList = some "arm64".toList ∨
    candidate.lookup "architecture".toList = some "arm64+gms".toList
  image_kind : candidate.lookup "image_kind".toList = some "archive".toList
  license_note_code : candidate.lookup "license_note_code".toList = some "official_google_gsi_terms".toList
  name : isCandidateName (textOf candidate "name") = true
  no_action : candidateNameContainsActionWord (textOf candidate "name") = false

/-- An archive with the checksum that is expected, and a number of bytes. -/
structure ArtifactInOrder (artifact : Texts) : Prop where
  keys : OnlyKeys (artifact.map (·.1)) artifactKeys
  artifact_name : isArchiveName (textOf artifact "artifact_name") = true
  sha256 : isSha256 (lower (textOf artifact "sha256")) = true
  expected_sha256 : lower (textOf artifact "expected_sha256") = lower (textOf artifact "sha256")
  byte_count : isdigit (textOf artifact "byte_count") = true ∧
    ∃ n, parseInt 10 (textOf artifact "byte_count") = some n ∧ 0 < n

/-- The name of the archive says of which family, build and checksum it is. -/
structure NameBinds (candidate artifact : Texts) (metadata : GsiArtifactName) : Prop where
  parses : parseGsiArtifactName (textOf artifact "artifact_name") = some metadata
  family : artifactFamilyArchitectures.lookup (lower metadata.family) = some (textOf candidate "architecture")
  build : buildMatchesAndroidRelease metadata.build (textOf candidate "android_release") = true
  checksum : startswith (lower (textOf artifact "sha256")) (lower metadata.shaPrefix) = true

/-- A URL under which the publisher has the archive. -/
structure Downloads (url artifactName : Str) (parsed : SplitResult) : Prop where
  splits : urlsplit lib.nfkc lib.bracketsFit url = some parsed
  scheme : parsed.scheme = "https".toList
  host : parsed.netloc = officialGsiDownloadHost
  query : parsed.query = []
  fragment : parsed.fragment = []
  path : officialGsiDownloadPath parsed.path artifactName = true

structure SourceInOrder (source : Texts) (artifactName : Str) : Prop where
  keys : OnlyKeys (source.map (·.1)) sourceKeys
  source_url : textOf source "source_url" = officialGsiReleasesUrl
  download_url : ∃ parsed, Downloads lib (textOf source "download_url") artifactName parsed

/-- Nothing was done with the archive but to read it, and its path is not shown. -/
structure SafetyInOrder (safety : Members) : Prop where
  keys : OnlyKeys (safety.map (·.1)) safetyKeys
  execution_authority : (mappingValue lib.containerStr (some (.object safety))).lookup
    "execution_authority".toList = some "OFFLINE_HASH_ONLY".toList
  device_mutation : (mappingValue lib.containerStr (some (.object safety))).lookup
    "device_mutation".toList = some "NONE".toList
  authorization : (mappingValue lib.containerStr (some (.object safety))).lookup
    "authorization".toList = some "NON_AUTHORIZING_EVIDENCE".toList
  destructive_actions : (mappingValue lib.containerStr (some (.object safety))).lookup
    "destructive_actions".toList = some "WITHHELD".toList
  local_path_redacted : get safety "local_path_redacted" = some (.bool true)

/-- Evidence of a candidate from the publisher, whose checksum has been verified. -/
structure InOrder (payload : Members) : Prop where
  keys : OnlyKeys (payload.map (·.1)) topLevelKeys
  schema_version : get payload "schema_version" = some (.str schemaVersion)
  ok : get payload "ok" = some (.bool true)
  status : get payload "status" = some (.str artifactChecksumVerified)
  candidate : CandidateInOrder (part lib payload "candidate")
  artifact : ArtifactInOrder (part lib payload "artifact")
  binding : ∃ metadata, NameBinds (part lib payload "candidate") (part lib payload "artifact") metadata
  source : SourceInOrder lib (part lib payload "source") (textOf (part lib payload "artifact") "artifact_name")
  safety : ∃ safety, get payload "safety" = some (.object safety) ∧ SafetyInOrder lib safety

end

section

variable {lib : Library} {payload : Members} {candidate artifact source : Texts}
  {url artifactName byteCount : Str}

theorem isOfClass_ne_nil {low high : ℕ} {ranges : List (Char × Char)} {s : Str}
    (h : isOfClass low high ranges s = true) (hlow : 0 < low) : s ≠ [] := by
  rintro rfl
  rw [isOfClass, Bool.and_eq_true, Bool.and_eq_true, decide_eq_true_eq, List.length_nil] at h
  omega

theorem validateGsiCandidate_eq_nil_iff :
    validateGsiCandidate lib candidate = [] ↔ CandidateInOrder candidate := by
  rw [validateGsiCandidate]
  simp only [List.append_eq_nil_iff, blockIf_eq_nil, unsupportedKeyBlockers_eq_nil_iff, not_not, ne_eq,
    not_and_or, and_assoc]
  constructor
  · rintro ⟨hkeys, hrelease, harchitecture, hkind, hlicense, hname⟩
    split at hname
    · cases hname
    · split at hname
      · cases hname
      · rename_i hname'
        rw [Bool.not_eq_false] at hname'
        rw [blockIf_eq_nil, Bool.not_eq_true] at hname
        exact ⟨hkeys, hrelease, harchitecture, hkind, hlicense, hname', hname⟩
  · intro h
    refine ⟨h.keys, h.android_release, h.architecture, h.image_kind, h.license_note_code, ?_⟩
    rw [if_neg (isOfClass_ne_nil h.name (by decide)), if_neg (by rw [h.name]; decide), blockIf_eq_nil,
      h.no_action]
    decide

theorem byteCountFails_eq_false_iff : byteCountFails lib byteCount = .ok false ↔
    isdigit byteCount = true ∧ ∃ n, parseInt 10 byteCount = some n ∧ 0 < n := by
  rw [byteCountFails]
  by_cases hdigit : isdigit byteCount = true
  · rw [if_pos hdigit]
    cases parseInt 10 byteCount with
    | none => simp
    | some n => simp [hdigit]
  · rw [if_neg hdigit]
    simp [hdigit]

theorem validateGsiArtifact_eq_nil_iff :
    validateGsiArtifact lib artifact = .ok [] ↔ ArtifactInOrder artifact := by
  rw [validateGsiArtifact, Checks.bind_eq_ok]
  constructor
  · rintro ⟨fails, hfails, h⟩
    have hblockers := Except.ok.inj h
    simp only [List.append_eq_nil_iff, blockIf_eq_nil, unsupportedKeyBlockers_eq_nil_iff,
      Bool.not_eq_false, Bool.not_eq_true, and_assoc] at hblockers
    obtain ⟨hkeys, hname, hsha, hexpected, hsame, rfl⟩ := hblockers
    refine ⟨hkeys, hname, hsha, ?_, byteCountFails_eq_false_iff.1 hfails⟩
    by_contra hne
    exact hsame ⟨isOfClass_ne_nil hsha (by decide), isOfClass_ne_nil hexpected (by decide),
      fun heq => hne heq.symm⟩
  · intro h
    refine ⟨false, byteCountFails_eq_false_iff.2 h.byte_count, congrArg Except.ok ?_⟩
    simp only [List.append_eq_nil_iff, blockIf_eq_nil, unsupportedKeyBlockers_eq_nil_iff,
      Bool.not_eq_false, Bool.not_eq_true, h.expected_sha256, and_assoc]
    exact ⟨h.keys, h.artifact_name, h.sha256, h.sha256, fun h => h.2.2 rfl, trivial⟩

theorem validateGsiArtifactBinding_eq_nil_iff (hsha : lower (textOf artifact "sha256") ≠ []) :
    validateGsiArtifactBinding candidate artifact = .ok [] ↔
      ∃ metadata, NameBinds candidate artifact metadata := by
  rw [validateGsiArtifactBinding]
  cases hparse : parseGsiArtifactName (textOf artifact "artifact_name") with
  | none =>
    refine iff_of_false (fun h => List.cons_ne_nil _ _ (Except.ok.inj h)) ?_
    rintro ⟨metadata, h⟩
    cases hparse.symm.trans h.parses
  | some metadata =>
    dsimp only
    rw [Checks.bind_eq_ok]
    constructor
    · rintro ⟨architecture, harchitecture, h⟩
      have hblockers := Except.ok.inj h
      simp only [List.append_eq_nil_iff, blockIf_eq_nil, Bool.not_eq_false, not_not, not_and] at hblockers
      obtain ⟨⟨rfl, hbuild⟩, hchecksum⟩ := hblockers
      refine ⟨metadata, hparse, ?_, hbuild, hchecksum hsha⟩
      rw [architectureOf] at harchitecture
      split at harchitecture
      · rename_i hlookup
        rw [hlookup, Except.ok.inj harchitecture]
      · cases harchitecture
    · rintro ⟨metadata', h⟩
      cases hparse.symm.trans h.parses
      refine ⟨textOf candidate "architecture", ?_, congrArg Except.ok ?_⟩
      · rw [architectureOf, h.family]
      · simp only [List.append_eq_nil_iff, blockIf_eq_nil, Bool.not_eq_false, not_not, not_and]
        exact ⟨⟨trivial, h.build⟩, fun _ => h.checksum⟩

/-- The page of the releases can be split, whatever NFKC and the check of a literal are. -/
theorem splitUrl_officialGsiReleasesUrl : splitUrl lib officialGsiReleasesUrl =
    .ok ⟨"https".toList, "developer.android.com".toList,
      "/topic/generic-system-image/releases".toList, [], []⟩ := rfl

theorem validateOfficialSourceUrl_eq_nil_iff :
    validateOfficialSourceUrl lib url = .ok [] ↔ url = officialGsiReleasesUrl := by
  rw [validateOfficialSourceUrl]
  constructor
  · intro h
    obtain ⟨parsed, -, h⟩ := Checks.bind_eq_ok.1 h
    have hblockers := Except.ok.inj h
    split_ifs at hblockers
    rw [blockIf_eq_nil, not_not] at hblockers
    exact hblockers
  · rintro rfl
    rw [splitUrl_officialGsiReleasesUrl]
    rfl

theorem hasCredentials_eq_false {parsed : SplitResult} (h : parsed.netloc = officialGsiDownloadHost) :
    hasCredentials parsed = false := by
  have hplain : parsed.netloc.contains '@' = false := by rw [h]; decide
  rw [hasCredentials, SplitResult.username, SplitResult.password, SplitResult.userinfo, hplain]
  rfl

theorem validateOfficialDownloadUrl_eq_nil_iff :
    validateOfficialDownloadUrl lib url artifactName = .ok [] ↔
      ∃ parsed, Downloads lib url artifactName parsed := by
  have hsplit : ∀ parsed, splitUrl lib url = .ok parsed ↔
      urlsplit lib.nfkc lib.bracketsFit url = some parsed := by
    intro parsed
    rw [splitUrl]
    cases urlsplit lib.nfkc lib.bracketsFit url with
    | none => simp
    | some parsed' => simp
  rw [validateOfficialDownloadUrl, Checks.bind_eq_ok]
  refine exists_congr fun parsed => ?_
  rw [hsplit]
  constructor
  · rintro ⟨hparsed, h⟩
    have hblockers := Except.ok.inj h
    split_ifs at hblockers with hscheme hcredentials hquery hhost
    rw [not_or, not_not] at hscheme
    rw [not_or, not_not, not_not] at hquery
    rw [not_not] at hhost
    rw [blockIf_eq_nil, Bool.not_eq_false] at hblockers
    exact ⟨hparsed, hscheme.1, hhost, hquery.1, hquery.2, hblockers⟩
  · intro h
    have hnetloc : parsed.netloc ≠ [] := by rw [h.host]; decide
    refine ⟨h.splits, congrArg Except.ok ?_⟩
    rw [if_neg (by simp [h.scheme, hnetloc]), if_neg (by rw [hasCredentials_eq_false h.host]; decide),
      if_neg (by simp [h.query, h.fragment]), if_neg (by simp [h.host]), blockIf_eq_nil, h.path]
    decide

theorem validateGsiSource_eq_nil_iff :
    validateGsiSource lib source artifactName = .ok [] ↔ SourceInOrder lib source artifactName := by
  rw [validateGsiSource, Checks.bind_eq_ok]
  constructor
  · rintro ⟨sourceFindings, hsource, h⟩
    obtain ⟨downloadFindings, hdownload, h⟩ := Checks.bind_eq_ok.1 h
    have hblockers := Except.ok.inj h
    simp only [List.append_eq_nil_iff, unsupportedKeyBlockers_eq_nil_iff] at hblockers
    obtain ⟨⟨hkeys, rfl⟩, rfl⟩ := hblockers
    exact ⟨hkeys, validateOfficialSourceUrl_eq_nil_iff.1 hsource,
      validateOfficialDownloadUrl_eq_nil_iff.1 hdownload⟩
  · intro h
    refine ⟨[], validateOfficialSourceUrl_eq_nil_iff.2 h.source_url, Checks.bind_eq_ok.2
      ⟨[], validateOfficialDownloadUrl_eq_nil_iff.2 h.download_url, congrArg Except.ok ?_⟩⟩
    simp only [List.append_eq_nil_iff, unsupportedKeyBlockers_eq_nil_iff, and_true]
    exact h.keys

theorem validateGsiSafety_eq_nil_iff {value : Option Json} :
    validateGsiSafety lib value (mappingValue lib.containerStr value) = [] ↔
      ∃ safety, value = some (.object safety) ∧ SafetyInOrder lib safety := by
  unfold validateGsiSafety
  simp only [List.append_eq_nil_iff, blockIf_eq_nil, unsupportedKeyBlockers_eq_nil_iff, not_not, ne_eq,
    Bool.not_eq_false, and_assoc]
  split
  case h_1 safety =>
    rw [isTrue_iff]
    have hkeys : (mappingValue lib.containerStr (some (.object safety))).map (·.1) = safety.map (·.1) := by
      rw [mappingValue, List.map_map]
      rfl
    rw [hkeys]
    constructor
    · rintro ⟨hkeys, hexecution, hmutation, hauthorization, hdestructive, hredacted⟩
      exact ⟨safety, rfl, hkeys, hexecution, hmutation, hauthorization, hdestructive, hredacted⟩
    · rintro ⟨_, heq, h⟩
      cases heq
      exact ⟨h.keys, h.execution_authority, h.device_mutation, h.authorization, h.destructive_actions,
        h.local_path_redacted⟩
  case h_2 hnot =>
    refine iff_of_false (fun h => Bool.false_ne_true h.2.2.2.2.2) ?_
    rintro ⟨safety, heq, -⟩
    exact hnot safety heq

/-- **The check of a GSI candidate.** It returns a section that is in order if and only if the evidence
is. -/
theorem validateGsiPayload_ok_iff :
    (∃ s, validateGsiPayload lib payload = .ok s ∧ s.ok = true) ↔ InOrder lib payload := by
  rw [validateGsiPayload]
  constructor
  · rintro ⟨s, h, hok⟩
    obtain ⟨artifactBlockers, hartifact, h⟩ := Checks.bind_eq_ok.1 h
    obtain ⟨bindingBlockers, hbinding, h⟩ := Checks.bind_eq_ok.1 h
    obtain ⟨sourceBlockers, hsource, h⟩ := Checks.bind_eq_ok.1 h
    cases h
    simp only [List.isEmpty_iff, List.append_eq_nil_iff, blockIf_eq_nil, unsupportedKeyBlockers_eq_nil_iff,
      Bool.not_eq_false, isStr_iff, isTrue_iff, validateGsiCandidate_eq_nil_iff, and_assoc] at hok
    obtain ⟨hkeys, hschema, hok, hstatus, hcandidate, rfl, rfl, rfl, hsafety⟩ := hok
    have hartifact := validateGsiArtifact_eq_nil_iff.1 hartifact
    exact ⟨hkeys, hschema, hok, hstatus, hcandidate, hartifact,
      (validateGsiArtifactBinding_eq_nil_iff (isOfClass_ne_nil hartifact.sha256 (by decide))).1 hbinding,
      validateGsiSource_eq_nil_iff.1 hsource, validateGsiSafety_eq_nil_iff.1 hsafety⟩
  · intro h
    refine ⟨_, Checks.bind_eq_ok.2 ⟨[], validateGsiArtifact_eq_nil_iff.2 h.artifact, Checks.bind_eq_ok.2
      ⟨[], (validateGsiArtifactBinding_eq_nil_iff (isOfClass_ne_nil h.artifact.sha256 (by decide))).2
        h.binding, Checks.bind_eq_ok.2 ⟨[], validateGsiSource_eq_nil_iff.2 h.source, rfl⟩⟩⟩, ?_⟩
    simp only [List.isEmpty_iff, List.append_eq_nil_iff, blockIf_eq_nil, unsupportedKeyBlockers_eq_nil_iff,
      Bool.not_eq_false, isStr_iff, isTrue_iff, validateGsiCandidate_eq_nil_iff, and_assoc]
    exact ⟨h.keys, h.schema_version, h.ok, h.status, h.candidate, trivial, trivial, trivial,
      validateGsiSafety_eq_nil_iff.2 h.safety⟩

end

end Gsi

end GoffyScripts
