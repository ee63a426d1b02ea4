import GoffyOs.Hub.Registry
import GoffyOs.Lib.Machine
import Mathlib.Data.List.Sort
import Mathlib.Data.Rat.Init

/-!
# Registration and health of the tools

`ToolRegistry` (`goffy_hub/registry.py`) with everything that its writers use: `register` fills it
before it is sealed, and `refresh_health` and `mark_all_unavailable` change the health of its tools.
The Hub reports the health with a revision, by which clients notice that the available tools have
changed.

* `register` has its checks in the order of the source, and writes after the last of them;
* `refresh_health` holds the lock while it awaits the probes. A probe may answer anything; a step
  begins, ends or cancels a refresh;
* `RegistryInv` is the invariant of the maps and `ReportInv` that of the reports;
* `toToolRegistry` is the registry that the endpoints see, and `toToolRegistry_step` says that after
  the seal a step only sets its health.
-/

namespace GoffyHub.RegistryHealth

open Python
open Registry (PermissionLevel)

def maxRegisteredTools : ℕ := 32
def maxToolCapabilityBytes : ℕ := 8192
def maxRegistryCapabilityBytes : ℕ := 24576
def maxToolHealthTimeoutSeconds : ℚ := 5

/-! ### Definitions -/

/-- A number of seconds, as a `float`. -/
inductive Seconds
  | finite (value : ℚ)
  | infinite (negative : Bool)
  | nan
  deriving DecidableEq

/-- `0 < t <= MAX_TOOL_HEALTH_TIMEOUT_SECONDS`. -/
def Seconds.isHealthTimeout : Seconds → Bool
  | .finite value => 0 < value ∧ value ≤ maxToolHealthTimeoutSeconds
  | _ => false

/-- `ToolAnnotations`. -/
structure ToolAnnotations where
  readOnlyHint : Bool
  destructiveHint : Bool
  idempotentHint : Bool
  openWorldHint : Bool
  deriving DecidableEq

/-- A `ToolCapability`, by `model_dump_json` of it. -/
structure ToolCapability where
  json : Str
  deriving DecidableEq

/-- The exceptions that `describe` or the dump of its result raises: those that `register` catches
are a `ValidationError` or a `ValueError` of `describe`. -/
inductive DescribeError
  | caught
  | uncaught
  deriving DecidableEq

/-- The fields of `ToolDefinition` that only `register` reads. `annotations` is `none` where it has
not the attributes of `ToolAnnotations`. -/
structure ToolDefinition extends Registry.ToolDefinition where
  healthTimeoutSeconds : Seconds
  annotations : Option ToolAnnotations
  describe : Except DescribeError ToolCapability

/-- The bytes that a capability counts. -/
def ToolCapability.bytes (capability : ToolCapability) : ℕ := (utf8 capability.json).length

/-- The exceptions of `register`. -/
inductive RegisterError
  | runtimeError (message : Str)
  | valueError (message : Str)
  | uncaught
  deriving DecidableEq

/-! ### The registry -/

/-- The fields of `ToolRegistry`. `refreshing` holds the names that the refresh under the lock has
asked for, when there is one. -/
structure ToolRegistry where
  tools : Dict Str ToolDefinition
  capabilities : Dict Str ToolCapability
  healthy : Dict Str Bool
  confirmToolNames : List Str
  capabilityBytes : ℕ
  healthRevision : ℕ
  isSealed : Bool
  refreshing : Option (List Str)

/-- `ToolHealthReport`. -/
structure ToolHealthReport where
  revision : ℕ
  changed : Bool
  availableToolNames : List Str
  tools : List (Str × Bool)
  deriving DecidableEq

/-- `_validate_safe_definition` and `_validate_confirm_definition` compare the hints with what the
permission asks for. -/
def validateHints (permission : String) (expected : ToolAnnotations) (text : Bool → String) :
    Option ToolAnnotations → Except RegisterError Unit
  | none => .error (.valueError "tool metadata is invalid".toList)
  | some annotations =>
    let reject := fun (hint : String) (value : Bool) => Except.error (RegisterError.valueError
      (permission ++ " tools must declare " ++ hint ++ "=" ++ text value).toList)
    if annotations.readOnlyHint ≠ expected.readOnlyHint then
      reject "readOnlyHint" expected.readOnlyHint
    else if annotations.destructiveHint ≠ expected.destructiveHint then
      reject "destructiveHint" expected.destructiveHint
    else if annotations.idempotentHint ≠ expected.idempotentHint then
      reject "idempotentHint" expected.idempotentHint
    else if annotations.openWorldHint ≠ expected.openWorldHint then
      reject "openWorldHint" expected.openWorldHint
    else .ok ()

/-- The hints of a SAFE tool: it only reads. -/
def safeHints : ToolAnnotations := ⟨true, false, true, false⟩

/-- The hints of a CONFIRM tool. -/
def confirmHints : ToolAnnotations := ⟨false, false, false, false⟩

/-- `true` and `false` in the messages. -/
def boolText (value : Bool) : String := if value then "true" else "false"

/-- `_validate_safe_definition`. -/
def validateSafeDefinition (definition : ToolDefinition) : Except RegisterError Unit :=
  validateHints "SAFE" safeHints boolText definition.annotations

namespace ToolRegistry

/-- A new registry. -/
def new (confirmToolNames : List Str) : ToolRegistry :=
  ⟨Dict.empty, Dict.empty, Dict.empty, confirmToolNames, 0, 0, false, none⟩

/-- `_validate_confirm_definition`. -/
def validateConfirmDefinition (registry : ToolRegistry) (definition : ToolDefinition) :
    Except RegisterError Unit :=
  if definition.name ∉ registry.confirmToolNames then
    .error (.valueError "CONFIRM tools require an explicit authorization policy".toList)
  else validateHints "CONFIRM" confirmHints boolText definition.annotations

/-- The checks of the permission in `register`. -/
def checkPermission (registry : ToolRegistry) (definition : ToolDefinition) :
    Except RegisterError Unit :=
  match definition.permission with
  | .blocked => .error (.valueError "blocked tools cannot be registered".toList)
  | .safe => validateSafeDefinition definition
  | .confirm => registry.validateConfirmDefinition definition
  | .sensitive => .error (.valueError "sensitive tools cannot be registered".toList)

/-- The checks of `register`, in their order; the result is the capability. -/
def checkDefinition (registry : ToolRegistry) (definition : ToolDefinition) :
    Except RegisterError ToolCapability :=
  if registry.isSealed then .error (.runtimeError "tool registry is sealed".toList)
  else if (registry.tools.get? definition.name).isSome then
    .error (.valueError ("tool already registered: ".toList ++ definition.name))
  else if maxRegisteredTools ≤ registry.tools.size then
    .error (.valueError "tool registry cannot exceed 32 tools".toList)
  else match registry.checkPermission definition with
    | .error error => .error error
    | .ok () =>
      if definition.healthTimeoutSeconds.isHealthTimeout = false then
        .error (.valueError "tool health timeout must be at most 5 seconds".toList)
      else match definition.describe with
        | .error .caught => .error (.valueError "tool metadata is invalid".toList)
        | .error .uncaught => .error .uncaught
        | .ok capability =>
          if maxToolCapabilityBytes < capability.bytes then
            .error (.valueError "tool capability exceeds the metadata size limit".toList)
          else if maxRegistryCapabilityBytes < registry.capabilityBytes + capability.bytes then
            .error (.valueError "tool registry exceeds the metadata size limit".toList)
          else .ok capability

/-- `register`. -/
def register (registry : ToolRegistry) (definition : ToolDefinition) :
    ToolRegistry × Except RegisterError Unit :=
  match registry.checkDefinition definition with
  | .error error => (registry, .error error)
  | .ok capability =>
    ({ registry with
        tools := registry.tools.set definition.name definition
        capabilities := registry.capabilities.set definition.name capability
        healthy := registry.healthy.set definition.name true
        capabilityBytes := registry.capabilityBytes + capability.bytes }, .ok ())

/-- `dict.fromkeys(self._tools, False)`. -/
def allUnavailable (registry : ToolRegistry) : Dict Str Bool := registry.tools.mapValues fun _ => false

/-- `seal`. -/
def sealRegistry (registry : ToolRegistry) : ToolRegistry :=
  if registry.isSealed then registry
  else { registry with healthy := registry.allUnavailable, isSealed := true }

/-- `sorted(self._tools)`. -/
def sortedNames (registry : ToolRegistry) : List Str :=
  (registry.tools.entries.map Prod.fst).insertionSort fun a b => ¬ b < a

/-- `self._healthy[name]`, for a name of a tool. -/
def isHealthy (registry : ToolRegistry) (name : Str) : Bool := (registry.healthy.get? name).getD false

/-- `_available_tool_names`. -/
def availableToolNames (registry : ToolRegistry) : List Str :=
  registry.sortedNames.filter registry.isHealthy

/-- `_build_health_report`. -/
def buildHealthReport (registry : ToolRegistry) (changed : Bool) : ToolHealthReport where
  revision := registry.healthRevision
  changed := changed
  availableToolNames := registry.availableToolNames
  tools := registry.sortedNames.map fun name => (name, registry.isHealthy name)

/-- `self._health_revision += 1`, when other tools are available than before. -/
def raiseRevision (registry : ToolRegistry) (changed : Bool) : ToolRegistry :=
  if changed then { registry with healthRevision := registry.healthRevision + 1 } else registry

/-- The common end of `refresh_health` and `mark_all_unavailable`: the new health is written, and the
revision is raised when other tools are available than before. -/
def updateHealth (registry : ToolRegistry) (healthy : Dict Str Bool) :
    ToolRegistry × ToolHealthReport :=
  let previousAvailable := registry.availableToolNames
  let registry := { registry with healthy := healthy }
  let changed : Bool := previousAvailable ≠ registry.availableToolNames
  let registry := registry.raiseRevision changed
  (registry, registry.buildHealthReport changed)

/-- `self._healthy.update(results)`, where `probe` gives the results for the names. -/
def probed (registry : ToolRegistry) (names : List Str) (probe : Str → Bool) : Dict Str Bool :=
  names.foldl (fun healthy name => healthy.set name (probe name)) registry.healthy

end ToolRegistry

/-! ### Interleavings -/

inductive Action
  | register (definition : ToolDefinition)
  | sealRegistry
  | healthReport
  /-- `refresh_health` has got the lock and starts the probes -/
  | beginRefresh
  /-- all probes have answered, `true` for a healthy tool -/
  | endRefresh (probe : Str → Bool)
  | cancelRefresh
  | markAllUnavailable

/-- A registration has ended, or a report was made, while the registry was sealed or not. -/
inductive Event
  | registered (definition : ToolDefinition) (result : Except RegisterError Unit)
  | reported (isSealed : Bool) (report : ToolHealthReport)

def step : Machine.Step ToolRegistry Action Event
  | s, .register definition =>
    let (s', result) := s.register definition
    some (s', [.registered definition result])
  | s, .sealRegistry => some (s.sealRegistry, [])
  | s, .healthReport => some (s, [.reported s.isSealed (s.buildHealthReport false)])
  | s, .beginRefresh =>
    match s.refreshing with
    | some _ => none
    | none => some ({ s with refreshing := some s.sortedNames }, [])
  | s, .endRefresh probe =>
    match s.refreshing with
    | none => none
    | some names =>
      let (s', report) := s.updateHealth (s.probed names probe)
      some ({ s' with refreshing := none }, [.reported s.isSealed report])
  | s, .cancelRefresh =>
    match s.refreshing with
    | none => none
    | some _ => some ({ s with refreshing := none }, [])
  | s, .markAllUnavailable =>
    match s.refreshing with
    | some _ => none
    | none =>
      let (s', report) := s.updateHealth s.allUnavailable
      some (s', [.reported s.isSealed report])

/-! ### Registration -/

/-- The tool is SAFE and only reads, or is CONFIRM and in the allowlist. -/
def Permitted (confirmToolNames : List Str) (definition : ToolDefinition) : Prop :=
  (definition.permission = .safe ∧ definition.annotations = some safeHints) ∨
    (definition.permission = .confirm ∧ definition.name ∈ confirmToolNames ∧
      definition.annotations = some confirmHints)

/-- What the checks of `register` have found. -/
structure Checked (registry : ToolRegistry) (definition : ToolDefinition)
    (capability : ToolCapability) : Prop where
  unsealed : registry.isSealed = false
  new : registry.tools.get? definition.name = none
  room : registry.tools.size < maxRegisteredTools
  permitted : Permitted registry.confirmToolNames definition
  described : definition.describe = .ok capability
  bytes_le : registry.capabilityBytes + capability.bytes ≤ maxRegistryCapabilityBytes

theorem validateHints_ok {permission : String} {expected : ToolAnnotations} {text : Bool → String}
    {annotations : Option ToolAnnotations}
    (h : validateHints permission expected text annotations = .ok ()) :
    annotations = some expected := by
  cases annotations with
  | none => cases h
  | some annotations =>
    simp only [validateHints] at h
    split at h
    · cases h
    split at h
    · cases h
    split at h
    · cases h
    split at h
    · cases h
    rename_i h₁ h₂ h₃ h₄
    obtain ⟨r, d, i, o⟩ := annotations
    obtain ⟨r', d', i', o'⟩ := expected
    simp only [ne_eq, not_not] at h₁ h₂ h₃ h₄
    rw [h₁, h₂, h₃, h₄]

theorem checkPermission_ok {registry : ToolRegistry} {definition : ToolDefinition}
    (h : registry.checkPermission definition = .ok ()) :
    Permitted registry.confirmToolNames definition := by
  unfold ToolRegistry.checkPermission at h
  split at h
  · cases h
  · rename_i hsafe
    exact Or.inl ⟨hsafe, validateHints_ok h⟩
  · rename_i hconfirm
    unfold ToolRegistry.validateConfirmDefinition at h
    split at h
    · cases h
    · rename_i hallowed
      exact Or.inr ⟨hconfirm, not_not.1 hallowed, validateHints_ok h⟩
  · cases h

theorem checkDefinition_ok {registry : ToolRegistry} {definition : ToolDefinition}
    {capability : ToolCapability} (h : registry.checkDefinition definition = .ok capability) :
    Checked registry definition capability := by
  unfold ToolRegistry.checkDefinition at h
  split at h
  · cases h
  rename_i hunsealed
  split at h
  · cases h
  rename_i hnew
  split at h
  · cases h
  rename_i hroom
  split at h
  · cases h
  rename_i hpermission
  split at h
  · cases h
  split at h
  · cases h
  · cases h
  rename_i hdescribe
  split at h
  · cases h
  split at h
  · cases h
  rename_i hbytes
  cases h
  exact ⟨by simpa using hunsealed, by simpa using hnew, Nat.lt_of_not_le hroom,
    checkPermission_ok hpermission, hdescribe, Nat.le_of_not_lt hbytes⟩

/-- A registration that fails changes nothing. -/
theorem register_error {registry : ToolRegistry} {definition : ToolDefinition} {error : RegisterError}
    (h : (registry.register definition).2 = .error error) :
    (registry.register definition).1 = registry := by
  unfold ToolRegistry.register at h ⊢
  cases hcheck : registry.checkDefinition definition with
  | error e => rfl
  | ok capability =>
    rw [hcheck] at h
    cases h

/-! ### The maps -/

/-- The invariant of the maps. -/
structure RegistryInv (s : ToolRegistry) : Prop where
  names : ∀ name definition, s.tools.get? name = some definition → definition.name = name
  capabilities : ∀ name, (s.capabilities.get? name).isSome ↔ (s.tools.get? name).isSome
  healthy : ∀ name, (s.healthy.get? name).isSome ↔ (s.tools.get? name).isSome
  size_le : s.tools.size ≤ maxRegisteredTools
  bytes : s.capabilityBytes = (s.capabilities.entries.map fun e => e.2.bytes).sum
  bytes_le : s.capabilityBytes ≤ maxRegistryCapabilityBytes
  permitted : ∀ name definition, s.tools.get? name = some definition →
    Permitted s.confirmToolNames definition
  refreshing : ∀ names, s.refreshing = some names → ∀ name ∈ names, (s.tools.get? name).isSome

section Maps

variable {s s' : ToolRegistry} {a : Action} {out : List Event}

theorem mem_sortedNames {name : Str} : name ∈ s.sortedNames ↔ (s.tools.get? name).isSome := by
  rw [ToolRegistry.sortedNames, List.mem_insertionSort, Dict.mem_keys_iff, Option.isSome_iff_exists]

/-- Setting the health of tools adds no key. -/
theorem isSome_probed {names : List Str} (hnames : ∀ name ∈ names, (s.healthy.get? name).isSome)
    (probe : Str → Bool) (name : Str) :
    ((s.probed names probe).get? name).isSome ↔ (s.healthy.get? name).isSome := by
  unfold ToolRegistry.probed
  generalize s.healthy = healthy at hnames ⊢
  induction names generalizing healthy with
  | nil => rfl
  | cons first names ih =>
    have hfirst := hnames first List.mem_cons_self
    have hset : ∀ k, ((healthy.set first (probe first)).get? k).isSome ↔ (healthy.get? k).isSome := by
      intro k
      rw [Dict.get?_set]
      split
      · rename_i heq
        subst heq
        simp [hfirst]
      · rfl
    rw [List.foldl_cons, ih _ fun k hk => (hset k).2 (hnames k (List.mem_cons_of_mem _ hk)), hset]

theorem RegistryInv.register (h : RegistryInv s) (definition : ToolDefinition) :
    RegistryInv (s.register definition).1 := by
  unfold ToolRegistry.register
  cases hcheck : s.checkDefinition definition with
  | error e => exact h
  | ok capability =>
    have hchecked := checkDefinition_ok hcheck
    have hnone : s.capabilities.get? definition.name = none := by
      rw [← Option.not_isSome_iff_eq_none, h.capabilities, hchecked.new]
      simp
    refine ⟨fun name d hd => ?_, fun name => ?_, fun name => ?_, ?_, ?_, hchecked.bytes_le,
      fun name d hd => ?_, fun names hnames name hname => ?_⟩
    · simp only [Dict.get?_set] at hd
      split at hd
      · rename_i heq
        cases hd
        exact heq
      · exact h.names name d hd
    · simp only [Dict.get?_set]
      split
      · simp
      · exact h.capabilities name
    · simp only [Dict.get?_set]
      split
      · simp
      · exact h.healthy name
    · exact Dict.size_set_le.trans hchecked.room
    · simp only [Dict.entries_set_of_none hnone, List.map_append, List.sum_append, h.bytes]
      simp
    · simp only [Dict.get?_set] at hd
      split at hd
      · cases hd
        exact hchecked.permitted
      · exact h.permitted name d hd
    · have hold := h.refreshing names hnames name hname
      simp only [Dict.get?_set]
      split
      · simp
      · exact hold

/-- Another health with the same keys. -/
theorem RegistryInv.withHealth (h : RegistryInv s) {healthy : Dict Str Bool} {revision : ℕ}
    {isSealed : Bool} {refreshing : Option (List Str)}
    (hkeys : ∀ name, (healthy.get? name).isSome ↔ (s.tools.get? name).isSome)
    (hrefreshing : ∀ names, refreshing = some names → ∀ name ∈ names, (s.tools.get? name).isSome) :
    RegistryInv { s with
      healthy := healthy, healthRevision := revision, isSealed := isSealed, refreshing := refreshing } :=
  ⟨h.names, h.capabilities, hkeys, h.size_le, h.bytes, h.bytes_le, h.permitted, hrefreshing⟩

theorem isSome_allUnavailable (name : Str) :
    (s.allUnavailable.get? name).isSome ↔ (s.tools.get? name).isSome := by
  rw [ToolRegistry.allUnavailable, Dict.get?_mapValues, Option.isSome_map]

/-- The revision after the health was written. -/
def ToolRegistry.nextRevision (s : ToolRegistry) (healthy : Dict Str Bool) : ℕ :=
  if s.availableToolNames = { s with healthy := healthy }.availableToolNames then s.healthRevision
  else s.healthRevision + 1

theorem updateHealth_eq (s : ToolRegistry) (healthy : Dict Str Bool) :
    (s.updateHealth healthy).1 =
        { s with healthy := healthy, healthRevision := s.nextRevision healthy } ∧
      (s.updateHealth healthy).2.revision = s.nextRevision healthy ∧
      (s.updateHealth healthy).2.availableToolNames =
        { s with healthy := healthy }.availableToolNames := by
  unfold ToolRegistry.updateHealth ToolRegistry.raiseRevision ToolRegistry.nextRevision
  by_cases hsame : s.availableToolNames = { s with healthy := healthy }.availableToolNames
  · simp [hsame, ToolRegistry.buildHealthReport]
  · simp only [hsame, ne_eq, not_false_eq_true, decide_true, if_true, if_false]
    exact ⟨trivial, rfl, rfl⟩

/-- What a step does: it registers a tool, seals the registry, reports its health, begins or cancels
a refresh, or writes the health under the lock. -/
inductive Effect (s : ToolRegistry) : ToolRegistry → List Event → Prop
  | register (definition : ToolDefinition) :
      Effect s (s.register definition).1 [.registered definition (s.register definition).2]
  | sealRegistry : Effect s s.sealRegistry []
  | report : Effect s s [.reported s.isSealed (s.buildHealthReport false)]
  | refreshing {refreshing : Option (List Str)}
      (hnames : ∀ names, refreshing = some names → names = s.sortedNames) :
      Effect s { s with refreshing := refreshing } []
  | update {healthy : Dict Str Bool} {report : ToolHealthReport}
      (hkeys : ∀ name, (healthy.get? name).isSome ↔ (s.tools.get? name).isSome)
      (hrevision : report.revision = s.nextRevision healthy)
      (havailable : report.availableToolNames = { s with healthy := healthy }.availableToolNames) :
      Effect s { s with
          healthy := healthy, healthRevision := s.nextRevision healthy, refreshing := none }
        [.reported s.isSealed report]

theorem effect_of_step (h : RegistryInv s) (hs : step s a = some (s', out)) : Effect s s' out := by
  cases a with
  | register definition =>
    cases hs
    exact .register definition
  | sealRegistry =>
    cases hs
    exact .sealRegistry
  | healthReport =>
    cases hs
    exact .report
  | beginRefresh =>
    simp only [step] at hs
    split at hs
    · cases hs
    · cases hs
      exact .refreshing fun names heq => (Option.some.inj heq).symm
  | endRefresh probe =>
    simp only [step] at hs
    split at hs
    · cases hs
    · rename_i names hnames
      obtain ⟨hstate, hrevision, havailable⟩ := updateHealth_eq s (s.probed names probe)
      rw [hstate] at hs
      cases hs
      refine .update (fun name => ?_) hrevision havailable
      have hprobed : ∀ name ∈ names, (s.healthy.get? name).isSome := fun name hname =>
        (h.healthy name).2 (h.refreshing names hnames name hname)
      rw [isSome_probed hprobed, h.healthy]
  | cancelRefresh =>
    simp only [step] at hs
    split at hs
    · cases hs
    · cases hs
      exact .refreshing fun names heq => by cases heq
  | markAllUnavailable =>
    simp only [step] at hs
    split at hs
    · cases hs
    · rename_i hfree
      obtain ⟨hstate, hrevision, havailable⟩ := updateHealth_eq s s.allUnavailable
      rw [hstate] at hs
      cases hs
      have heffect := Effect.update isSome_allUnavailable hrevision havailable
      rw [← hfree] at heffect
      exact heffect

theorem RegistryInv.effect (h : RegistryInv s) (heff : Effect s s' out) : RegistryInv s' := by
  cases heff with
  | register definition => exact h.register definition
  | sealRegistry =>
    unfold ToolRegistry.sealRegistry
    split
    · exact h
    · exact h.withHealth isSome_allUnavailable h.refreshing
  | report => exact h
  | refreshing hnames =>
    refine h.withHealth h.healthy fun names heq name hname => ?_
    rw [hnames names heq] at hname
    exact mem_sortedNames.1 hname
  | update hkeys => exact h.withHealth hkeys fun names heq => by cases heq

theorem registryInv_of_reaches {confirmToolNames : List Str} {es : List Event}
    (h : Machine.Reaches step Machine.anyStep (ToolRegistry.new confirmToolNames) s es) :
    RegistryInv s := by
  have hnew : RegistryInv (ToolRegistry.new confirmToolNames) := by
    refine ⟨?_, ?_, ?_, Nat.zero_le _, rfl, Nat.zero_le _, ?_, ?_⟩ <;> simp [ToolRegistry.new]
  induction h with
  | start => exact hnew
  | step _ _ hs ih => exact ih.effect (effect_of_step ih hs)

end Maps

/-! ### The reports -/

section Reports

variable {s s' : ToolRegistry} {a : Action} {es out : List Event}

/-- What a step does to a sealed registry. -/
structure SealedStep (s s' : ToolRegistry) (out : List Event) : Prop where
  isSealed : s'.isSealed = true
  tools : s'.tools = s.tools
  revision : s'.healthRevision =
    if s.availableToolNames = s'.availableToolNames then s.healthRevision else s.healthRevision + 1
  reports : ∀ b report, .reported b report ∈ out → report.revision = s'.healthRevision ∧
    report.availableToolNames = s'.availableToolNames

theorem Effect.sealedStep (h : Effect s s' out) (hsealed : s.isSealed = true) :
    SealedStep s s' out := by
  cases h with
  | register definition =>
    -- the first check of `register` fails
    have hregister : s.register definition =
        (s, .error (.runtimeError "tool registry is sealed".toList)) := by
      simp [ToolRegistry.register, ToolRegistry.checkDefinition, hsealed]
    rw [hregister]
    exact ⟨hsealed, rfl, (if_pos rfl).symm, by simp⟩
  | sealRegistry =>
    have hseal : s.sealRegistry = s := if_pos hsealed
    rw [hseal]
    exact ⟨hsealed, rfl, (if_pos rfl).symm, by simp⟩
  | report =>
    refine ⟨hsealed, rfl, (if_pos rfl).symm, fun b report hmem => ?_⟩
    obtain ⟨-, rfl⟩ := Event.reported.inj (List.mem_singleton.1 hmem)
    exact ⟨rfl, rfl⟩
  | refreshing hnames => exact ⟨hsealed, rfl, (if_pos rfl).symm, by simp⟩
  | update hkeys hrevision havailable =>
    refine ⟨hsealed, rfl, rfl, fun b report hmem => ?_⟩
    obtain ⟨-, rfl⟩ := Event.reported.inj (List.mem_singleton.1 hmem)
    exact ⟨hrevision, havailable⟩

theorem Effect.reported_isSealed (h : Effect s s' out) {b : Bool} {report : ToolHealthReport}
    (hmem : .reported b report ∈ out) : b = s.isSealed := by
  cases h with
  | report => exact (Event.reported.inj (List.mem_singleton.1 hmem)).1
  | update => exact (Event.reported.inj (List.mem_singleton.1 hmem)).1
  | _ => simp at hmem

theorem Effect.confirmToolNames (h : Effect s s' out) :
    s'.confirmToolNames = s.confirmToolNames := by
  cases h with
  | register definition =>
    unfold ToolRegistry.register
    split <;> rfl
  | sealRegistry =>
    unfold ToolRegistry.sealRegistry
    split <;> rfl
  | _ => rfl

/-- What the reports since the seal say. -/
structure ReportInv (s : ToolRegistry) (es : List Event) : Prop where
  isSealed : ∀ report, .reported true report ∈ es → s.isSealed = true
  revision_le : ∀ report, .reported true report ∈ es → report.revision ≤ s.healthRevision
  current : ∀ report, .reported true report ∈ es → report.revision = s.healthRevision →
    report.availableToolNames = s.availableToolNames
  same : ∀ report report', .reported true report ∈ es → .reported true report' ∈ es →
    report.revision = report'.revision → report.availableToolNames = report'.availableToolNames

theorem ReportInv.effect (h : ReportInv s es) (heff : Effect s s' out) : ReportInv s' (es ++ out) := by
  cases hsealed : s.isSealed with
  | false =>
    -- there is no report since the seal yet
    have hnone : ∀ report, .reported true report ∉ es ++ out := by
      intro report hmem
      rcases List.mem_append.1 hmem with hmem | hmem
      · rw [h.isSealed report hmem] at hsealed
        cases hsealed
      · rw [← heff.reported_isSealed hmem] at hsealed
        cases hsealed
    exact ⟨fun r hr => absurd hr (hnone r), fun r hr => absurd hr (hnone r),
      fun r hr => absurd hr (hnone r), fun r _ hr => absurd hr (hnone r)⟩
  | true =>
    have hstep := heff.sealedStep hsealed
    have hle : s.healthRevision ≤ s'.healthRevision := by
      rw [hstep.revision]
      split <;> omega
    have hcurrent : ∀ report, .reported true report ∈ es ++ out →
        report.revision ≤ s'.healthRevision ∧ (report.revision = s'.healthRevision →
          report.availableToolNames = s'.availableToolNames) := by
      intro report hmem
      rcases List.mem_append.1 hmem with hmem | hmem
      · have hold := h.revision_le report hmem
        refine ⟨hold.trans hle, fun heq => ?_⟩
        have hrevision := hstep.revision
        split at hrevision
        · rename_i havailable
          rw [h.current report hmem (heq.trans hrevision), havailable]
        · omega
      · obtain ⟨hrevision, havailable⟩ := hstep.reports _ report hmem
        exact ⟨hrevision.le, fun _ => havailable⟩
    refine ⟨fun _ _ => hstep.isSealed, fun r hr => (hcurrent r hr).1,
      fun r hr => (hcurrent r hr).2, fun r r' hr hr' heq => ?_⟩
    rcases List.mem_append.1 hr with hold | hnew <;> rcases List.mem_append.1 hr' with hold' | hnew'
    · exact h.same r r' hold hold' heq
    · obtain ⟨hrevision, havailable⟩ := hstep.reports _ r' hnew'
      rw [havailable, (hcurrent r hr).2 (heq.trans hrevision)]
    · obtain ⟨hrevision, havailable⟩ := hstep.reports _ r hnew
      rw [havailable, (hcurrent r' hr').2 (heq.symm.trans hrevision)]
    · rw [(hstep.reports _ r hnew).2, (hstep.reports _ r' hnew').2]

theorem reportInv_of_reaches {confirmToolNames : List Str}
    (h : Machine.Reaches step Machine.anyStep (ToolRegistry.new confirmToolNames) s es) :
    ReportInv s es := by
  induction h with
  | start => exact ⟨by simp, by simp, by simp, by simp⟩
  | step hreach _ hs ih => exact ih.effect (effect_of_step (registryInv_of_reaches hreach) hs)

/-- The lists of available tools are the same when the sets are. -/
theorem availableToolNames_eq (htools : s'.tools = s.tools)
    (h : ∀ name, name ∈ s.availableToolNames ↔ name ∈ s'.availableToolNames) :
    s.availableToolNames = s'.availableToolNames := by
  have hnames : s'.sortedNames = s.sortedNames := by
    rw [ToolRegistry.sortedNames, htools, ToolRegistry.sortedNames]
  unfold ToolRegistry.availableToolNames at h ⊢
  rw [hnames] at h ⊢
  refine List.filter_congr fun name hname => ?_
  have hiff := h name
  simp only [List.mem_filter, hname, true_and] at hiff
  exact Bool.eq_iff_iff.2 hiff

/-- **The registry keeps its invariants.** In every reachable state the maps agree and are within
their limits, every tool is permitted, and a registration that fails changes nothing. Since the seal
two reports with the same revision list the same tools, and a step raises the revision by one exactly
when it changes the set of available tools. -/
theorem registry_consistent {confirmToolNames : List Str}
    (h : Machine.Reaches step Machine.anyStep (ToolRegistry.new confirmToolNames) s es) :
    RegistryInv s ∧ s.confirmToolNames = confirmToolNames ∧
    (∀ definition error, (s.register definition).2 = .error error →
      (s.register definition).1 = s) ∧
    (∀ report report', .reported true report ∈ es → .reported true report' ∈ es →
      report.revision = report'.revision →
      report.availableToolNames = report'.availableToolNames) ∧
    (s.isSealed = true → ∀ a s' out, step s a = some (s', out) →
      ((∀ name, name ∈ s.availableToolNames ↔ name ∈ s'.availableToolNames) →
        s'.healthRevision = s.healthRevision) ∧
      (¬ (∀ name, name ∈ s.availableToolNames ↔ name ∈ s'.availableToolNames) →
        s'.healthRevision = s.healthRevision + 1)) := by
  have hinv := registryInv_of_reaches h
  refine ⟨hinv, ?_, fun _ _ => register_error, (reportInv_of_reaches h).same,
    fun hsealed a s' out hs => ?_⟩
  · induction h with
    | start => rfl
    | step hreach _ hs ih =>
      have heff := effect_of_step (registryInv_of_reaches hreach) hs
      exact heff.confirmToolNames.trans (ih (registryInv_of_reaches hreach))
  · have hstep := (effect_of_step hinv hs).sealedStep hsealed
    refine ⟨fun hsame => ?_, fun hdiffer => ?_⟩
    · rw [hstep.revision, if_pos (availableToolNames_eq hstep.tools hsame)]
    · rw [hstep.revision, if_neg]
      intro heq
      exact hdiffer fun name => by rw [heq]

/-- What `mac.system_info` is described as. -/
def systemInfoCapability : ToolCapability where
  json :=
    "\x7b\"name\":\"mac.system_info\",\"title\":\"Mac system information\",".toList ++
    "\"description\":\"Read a minimal,".toList ++
    " non-sensitive snapshot of the Hub host.\",".toList ++
    "\"inputSchema\":\x7b\"$schema\":\"https://json-schema.org/draft/2020-12/schema\",".toList ++
    "\"additionalProperties\":false,\"properties\":\x7b\x7d,\"type\":\"object\"\x7d,".toList ++
    "\"outputSchema\":\x7b\"$schema\":\"https://json-schema.org/draft/2020-12/schema\",".toList ++
    "\"additionalProperties\":false,".toList ++
    "\"properties\":\x7b\"architecture\":\x7b\"type\":\"string\"\x7d,".toList ++
    "\"operatingSystem\":\x7b\"type\":\"string\"\x7d,".toList ++
    "\"status\":\x7b\"type\":\"string\"\x7d\x7d,\"required\":[\"status\",".toList ++
    "\"operatingSystem\",\"architecture\"],\"type\":\"object\"\x7d,".toList ++
    "\"annotations\":\x7b\"readOnlyHint\":true,\"destructiveHint\":false,".toList ++
    "\"idempotentHint\":true,\"openWorldHint\":false\x7d,".toList ++
    "\"_meta\":\x7b\"dev.goffy/toolVersion\":\"1.0.0\",".toList ++
    "\"dev.goffy/executionTarget\":\"MAC\",".toList ++
    "\"dev.goffy/permission\":\"SAFE\",\"dev.goffy/timeoutMs\":3000\x7d\x7d".toList

def systemInfoDefinition : ToolDefinition where
  objectId := 1
  name := "mac.system_info".toList
  permission := .safe
  inputModel arguments := if arguments.isEmpty then some (.object []) else none
  healthTimeoutSeconds := .finite 1
  annotations := some safeHints
  describe := .ok systemInfoCapability

/-- The tool is registered, and a second registration of it fails. After the seal the probe finds it
healthy, and later all tools are marked unavailable. -/
def healthRun : List Action :=
  [.register systemInfoDefinition, .register systemInfoDefinition, .sealRegistry, .beginRefresh,
    .healthReport, .endRefresh fun _ => true, .healthReport, .markAllUnavailable]

/-- The reports since the seal. -/
def sealedReports (es : List Event) : List ToolHealthReport :=
  es.filterMap fun
    | .reported true report => some report
    | _ => none

theorem health_run_revisions : ∃ s es,
    Machine.Reaches step Machine.anyStep (ToolRegistry.new []) s es ∧ s.tools.size = 1 ∧
      (sealedReports es).map (fun report => (report.revision, report.availableToolNames)) =
        [(0, []), (1, [systemInfoDefinition.name]), (1, [systemInfoDefinition.name]), (2, [])] ∧
      RegistryInv s := by
  have hrun : (Machine.run step (ToolRegistry.new []) healthRun).map (fun r => (r.1.tools.size,
      (sealedReports r.2).map fun report => (report.revision, report.availableToolNames))) =
      some (1, [(0, []), (1, [systemInfoDefinition.name]), (1, [systemInfoDefinition.name]),
        (2, [])]) := by
    unfold healthRun systemInfoDefinition systemInfoCapability
    repeat rw [String.toList_ofList]
    decide +kernel
  obtain ⟨⟨s, es⟩, hs, hobs⟩ := Option.map_eq_some_iff.1 hrun
  obtain ⟨hsize, hreports⟩ := Prod.mk.inj hobs
  have hreach := Machine.run_reaches hs
  exact ⟨s, es, hreach, hsize, hreports, (registry_consistent hreach).1⟩

/-! ### The registry of the endpoints -/

/-- The registry that the endpoints see. -/
def toToolRegistry (s : ToolRegistry) (h : RegistryInv s) : Registry.ToolRegistry where
  tools := s.tools.mapValues ToolDefinition.toToolDefinition
  healthy := s.isHealthy
  names name definition hget := by
    rw [Dict.get?_mapValues] at hget
    obtain ⟨original, horiginal, rfl⟩ := Option.map_eq_some_iff.1 hget
    exact h.names name original horiginal

/-- Since the seal a step only sets the health of the tools. -/
theorem toToolRegistry_step (h : RegistryInv s) (hsealed : s.isSealed = true)
    (hs : step s a = some (s', out)) (h' : RegistryInv s') :
    toToolRegistry s' h' = (toToolRegistry s h).setHealth s'.isHealthy := by
  have htools := ((effect_of_step h hs).sealedStep hsealed).tools
  simp only [toToolRegistry, Registry.ToolRegistry.setHealth, htools]

end Reports

end GoffyHub.RegistryHealth
