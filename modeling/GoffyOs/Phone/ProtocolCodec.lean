import GoffyOs.Kotlin.Encoding
import GoffyOs.Phone.IntentRouter
import GoffyOs.Phone.TerminalAuditStore

/-!
# What the codec encodes (`GoffyProtocolCodec` in `protocol/GoffyProtocol.kt`)

The arguments of a call and the payload that a device signs, as JSON, with the canonical text that is
hashed and signed.

* `encodeToolArguments` checks the arguments against the contract of the tool and makes an object of
  them;
* `canonicalJson` sorts the members of objects by their keys and leaves no white space;
* `argumentsCodec` is what the rest of the phone's model takes as a parameter.
-/

namespace GoffyPhone.GoffyProtocolCodec

open Kotlin
open Python (UUID)

/-! ### Canonical text -/

/-- `quoteJsonString`. -/
def quoteJsonString (value : Str) : Str := printQuoted value

/-- `sortedBy { it.key }`, of members whose values are encoded. -/
def sortedByKey (entries : List (Str × Str)) : List (Str × Str) :=
  entries.insertionSort fun a b => ¬ b.1 < a.1

mutual

/-- `canonicalJson`. -/
def canonicalJson : JsonElement → Str
  | .object members =>
    0x7b :: (commaJoin ((sortedByKey (canonicalMembers members)).map fun m =>
      quoteJsonString m.1 ++ 0x3a :: m.2) ++ [0x7d])
  | .array items => 0x5b :: (commaJoin (canonicalItems items) ++ [0x5d])
  | .null => lit "null"
  | .literal content isString => if isString then printQuoted content else content

def canonicalItems : List JsonElement → List Str
  | [] => []
  | item :: items => canonicalJson item :: canonicalItems items

def canonicalMembers : List (Str × JsonElement) → List (Str × Str)
  | [] => []
  | (key, item) :: members => (key, canonicalJson item) :: canonicalMembers members

end

/-- `sha256Hex`. -/
def sha256Hex (value : Str) : Str := ofChars (Python.hex (Python.sha256 (toByteArray value)).val)

/-! ### Members -/

/-- A number as a `JsonPrimitive`. -/
def number (n : ℤ) : JsonElement := .literal (lit (toString n)) false

def flag (b : Bool) : JsonElement := .literal (choose b "true" "false") false

def text (s : Str) : JsonElement := .literal s true

/-! ### Arguments -/

/-- A tool without arguments. -/
def encodeNone (message : String) : ToolArguments → Except String JsonObject
  | .noToolArguments => .ok []
  | _ => .error message

/-- Typed arguments within the contract of their tool; `none` are arguments of another type. -/
def encodeTyped (toolName : String) (arguments : ToolArguments) (encoded : Option JsonObject) :
    Except String JsonObject :=
  match encoded with
  | none => .error (toolName ++ " requires typed arguments")
  | some encoded =>
    if arguments.matchesMacContract then .ok encoded
    else .error (toolName ++ " arguments failed local policy")

def macAppsListObject : ToolArguments → Option JsonObject
  | .macAppsList maxEntries => some [(lit "maxEntries", number maxEntries.toInt)]
  | _ => none

def macAppsOpenObject : ToolArguments → Option JsonObject
  | .macAppsOpen displayName => some [(lit "displayName", text displayName)]
  | _ => none

def macProcessesListObject : ToolArguments → Option JsonObject
  | .macProcessesList maxEntries => some [(lit "maxEntries", number maxEntries.toInt)]
  | _ => none

def macFilesLargestObject : ToolArguments → Option JsonObject
  | .macFilesLargest rootIndex relativePath maxEntries maxDepth includeHidden => some [
      (lit "rootIndex", number rootIndex.toInt),
      (lit "relativePath", text relativePath),
      (lit "maxEntries", number maxEntries.toInt),
      (lit "maxDepth", number maxDepth.toInt),
      (lit "includeHidden", flag includeHidden)]
  | _ => none

def macFilesListObject : ToolArguments → Option JsonObject
  | .macFilesList rootIndex relativePath maxEntries includeHidden => some [
      (lit "rootIndex", number rootIndex.toInt),
      (lit "relativePath", text relativePath),
      (lit "maxEntries", number maxEntries.toInt),
      (lit "includeHidden", flag includeHidden)]
  | _ => none

def gitStatusObject : ToolArguments → Option JsonObject
  | .gitStatus repoIndex maxChanges includeUntracked => some [
      (lit "repoIndex", number repoIndex.toInt),
      (lit "maxChanges", number maxChanges.toInt),
      (lit "includeUntracked", flag includeUntracked)]
  | _ => none

/-- `encodeToolArguments`; an error is the message of the `ProtocolException`. -/
def encodeToolArguments (toolName : Str) (arguments : ToolArguments) : Except String JsonObject :=
  if toolName = lit "goffy.rom.checklist" then
    encodeNone "goffy.rom.checklist does not accept arguments" arguments
  else if toolName = lit "goffy.rom.features" then
    encodeNone "goffy.rom.features does not accept arguments" arguments
  else if toolName = lit "goffy.rom.status" then
    encodeNone "goffy.rom.status does not accept arguments" arguments
  else if toolName = lit "mac.system_info" then
    encodeNone "mac.system_info does not accept arguments" arguments
  else if toolName = lit "mac.clipboard.read" then
    encodeNone "mac.clipboard.read does not accept Android arguments" arguments
  else if toolName = lit "mac.apps.list" then
    encodeTyped "mac.apps.list" arguments (macAppsListObject arguments)
  else if toolName = lit "mac.apps.open" then
    encodeTyped "mac.apps.open" arguments (macAppsOpenObject arguments)
  else if toolName = lit "mac.processes.list" then
    encodeTyped "mac.processes.list" arguments (macProcessesListObject arguments)
  else if toolName = lit "mac.files.largest" then
    encodeTyped "mac.files.largest" arguments (macFilesLargestObject arguments)
  else if toolName = lit "mac.files.list" then
    encodeTyped "mac.files.list" arguments (macFilesListObject arguments)
  else if toolName = lit "git.status" then
    encodeTyped "git.status" arguments (gitStatusObject arguments)
  else .error "unsupported invocation tool"

/-- `sha256Hex(canonicalJson(encodeToolArguments(…)))`. -/
def argumentsCodec : ArgumentsCodec := fun toolName arguments =>
  (encodeToolArguments toolName arguments).map fun encoded =>
    sha256Hex (canonicalJson (.object encoded))

/-! ### The payload that is signed -/

/-- The object that `approvalSigningPayload` builds. -/
def signingObject (request : HubApprovalRequest) (credentialId : UUID) (approved : Bool) :
    JsonObject := [
  (lit "schemaVersion", text (lit "goffy.approval.signed-payload.v1")),
  (lit "approvalId", text (uuidToString request.approvalId)),
  (lit "argumentsSha256", text request.argumentsSha256),
  (lit "approved", flag approved),
  (lit "credentialId", text (uuidToString credentialId)),
  (lit "expiresAtEpochMillis", number request.expiresAtEpochMillis),
  (lit "issuedAtEpochMillis", number request.issuedAtEpochMillis),
  (lit "taskId", text (uuidToString request.taskId)),
  (lit "toolName", text request.toolName)]

/-- `approvalSigningPayload`. -/
def approvalSigningPayload (request : HubApprovalRequest) (credentialId : UUID) (approved : Bool) :
    Except String Python.Bytes := do
  requireToolName request.toolName
  return toByteArray (canonicalJson (.object (signingObject request credentialId approved)))

end GoffyPhone.GoffyProtocolCodec
