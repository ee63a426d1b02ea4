import GoffyOs.Lib.Dict
import GoffyOs.Python.Json

/-!
# The tool registry (`goffy_hub/registry.py`)

The registry is filled and sealed when the Hub starts. Afterwards only the health of its tools
changes, by a health refresh or when all tools are marked unavailable.

* A tool's input model is the partial function from arguments to parsed input that
  `input_model.model_validate` computes;
* definitions are compared by identity in `invoke_prepared`, for which `objectId` stands.
-/

namespace GoffyHub.Registry

open Python

/-- `PermissionLevel`. -/
inductive PermissionLevel
  | safe
  | confirm
  | sensitive
  | blocked
  deriving DecidableEq

/-- `ToolDefinition`. -/
structure ToolDefinition where
  objectId : ℕ
  name : Str
  permission : PermissionLevel
  inputModel : List (Str × Json) → Option Json

/-- `PreparedToolInvocation`. -/
structure PreparedToolInvocation where
  definition : ToolDefinition
  parsedInput : Json

/-- The registry: `_tools` under the names of the tools, and `_healthy`. -/
structure ToolRegistry where
  tools : Dict Str ToolDefinition
  healthy : Str → Bool
  names : ∀ name definition, tools.get? name = some definition → definition.name = name

/-- The exceptions of `preflight`. `ToolUnavailableError` is a `ToolNotFoundError`. -/
inductive ToolRegistryError
  | notFound
  | unavailable
  | arguments
  deriving DecidableEq

namespace ToolRegistry

/-- `discover`. -/
def discover (registry : ToolRegistry) (name : Str) (permissions : List PermissionLevel) :
    List ToolDefinition :=
  match registry.tools.get? name with
  | none => []
  | some definition =>
    if registry.healthy name ∧ definition.permission ∈ permissions then [definition] else []

/-- `preflight`. -/
def preflight (registry : ToolRegistry) (name : Str) (arguments : List (Str × Json)) :
    Except ToolRegistryError PreparedToolInvocation :=
  match registry.tools.get? name with
  | none => .error .notFound
  | some definition =>
    if registry.healthy name = false then .error .unavailable
    else match definition.inputModel arguments with
      | none => .error .arguments
      | some parsedInput => .ok ⟨definition, parsedInput⟩

/-- The check with which `invoke_prepared` begins. -/
def isRegistered (registry : ToolRegistry) (definition : ToolDefinition) : Bool :=
  match registry.tools.get? definition.name with
  | none => false
  | some registered => registered.objectId = definition.objectId

/-- What `refresh_health` and `mark_all_unavailable` write. -/
def setHealth (registry : ToolRegistry) (healthy : Str → Bool) : ToolRegistry :=
  { registry with healthy := healthy }

/-- A prepared invocation is one of the tool with the name that was asked for, with parsed
arguments. -/
theorem preflight_ok {registry : ToolRegistry} {name : Str} {arguments : List (Str × Json)}
    {prepared : PreparedToolInvocation} (h : registry.preflight name arguments = .ok prepared) :
    prepared.definition.name = name ∧ registry.healthy name = true ∧
      registry.tools.get? name = some prepared.definition ∧
      prepared.definition.inputModel arguments = some prepared.parsedInput := by
  unfold preflight at h
  split at h
  · cases h
  rename_i definition hget
  split at h
  · cases h
  rename_i hhealthy
  split at h
  · cases h
  rename_i parsedInput hparse
  cases h
  exact ⟨registry.names name definition hget, by simpa using hhealthy, hget, hparse⟩

/-- A tool is discovered under its own name. -/
theorem name_of_mem_discover {registry : ToolRegistry} {name : Str}
    {permissions : List PermissionLevel} {tool : ToolDefinition}
    (h : tool ∈ registry.discover name permissions) : tool.name = name := by
  unfold discover at h
  split at h
  · cases h
  rename_i definition hget
  split at h
  · obtain rfl := List.mem_singleton.1 h
    exact registry.names name tool hget
  · cases h

end ToolRegistry

end GoffyHub.Registry
