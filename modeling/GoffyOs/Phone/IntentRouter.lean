import GoffyOs.Kotlin.Regex
import GoffyOs.Kotlin.Strings
import GoffyOs.Lib.RegexCuts
import GoffyOs.Phone.AuditObserver
import GoffyOs.Phone.HubTools
import GoffyOs.Phone.ViewModel

/-!
# The router of commands (`agent/GoffyIntentRouter.kt`)

A command is a plan where one of the patterns fits it, and is left to the local model where none does.

* What `\s` matches is an argument, as it differs between the JVM and Android;
* `route_never_throws`: the `checkNotNull`, `requireNotNull` and `first` of the source never fail;
* `GoffyExecutionPlan.Fits` is what the registry, the contracts of the tools, the approval and the audit
  ask of a plan.
-/

namespace GoffyPhone

open Kotlin

namespace GoffyIntentRouter

/-! ### Patterns -/

open Regex.Pattern

/-- `Regex(pattern, RegexOption.IGNORE_CASE)`. -/
def routerRegex (isSpace : UInt16 → Bool) : Regex.Engine UInt16 where
  isIn
    | .space, u => isSpace u
    | .notSpace, u => !isSpace u
    | set, u => regexIsIn true set u
  isWord := isWordUnit

/-- `(?:a|b|…)` and `(?:a)?` for texts. -/
def choice (texts : List String) : Regex.Pattern := oneOf (texts.map literal)
def maybe (s : String) : Regex.Pattern := optional (literal s)

/-- `[.!?]?$`. -/
def sentenceEnd : List Regex.Pattern :=
  [optional (.one (.ranges [('.', '.'), ('!', '!'), ('?', '?')])), .finish]

/-- `^…[.!?]?$`. -/
def sentence (parts : List Regex.Pattern) : Regex.Pattern := inTurn (.start :: parts ++ sentenceEnd)

/-- `[0-9]+`. -/
def digits : Regex.Pattern := plus (.one (.ranges [('0', '9')]))

/-- `\s+`. -/
def spaces : Regex.Pattern := plus (.one .space)

def goffyRomStatusCommand : Regex.Pattern :=
  sentence [oneOf [
    inTurn [choice ["show", "check", "explain"], maybe " me", literal " ", maybe "the ",
      oneOf [inTurn [maybe "goffy ", choice ["rom", "rom-0"], literal " status"],
        literal "goffy os status"]],
    inTurn [literal "is ", maybe "the ", maybe "goffy ", literal "rom ready"],
    inTurn [literal "what are we building now", maybe " can you explain"]]]

def goffyRomChecklistCommand : Regex.Pattern :=
  sentence [oneOf [
    inTurn [choice ["show", "check", "list"], maybe " me", literal " ", maybe "the ", maybe "goffy ",
      choice ["rom", "rom-0"], literal " ", maybe "operator ", literal "checklist"],
    inTurn [literal "what", choice ["'s", " is"], literal " left for ", maybe "the ", maybe "goffy ",
      literal "rom"],
    inTurn [literal "what ", choice ["rom", "rom-0"], literal " steps remain"]]]

def goffyRomFeaturesCommand : Regex.Pattern :=
  sentence [oneOf [
    inTurn [choice ["show", "list", "explain"], maybe " me", literal " ", maybe "the ", maybe "goffy ",
      choice ["rom", "rom-0"], literal " ", choice ["features", "payload", "inserted features"]],
    inTurn [literal "what features ", choice ["are", "will be"], literal " ",
      choice ["in", "inside", "inserted into"], literal " ", maybe "the ", maybe "goffy ", literal "rom"],
    inTurn [literal "what ", choice ["are you", "are we"], literal " inserting into ", maybe "the ",
      maybe "goffy ", literal "rom"]]]

def macStatusCommand : Regex.Pattern :=
  sentence [choice ["show", "check"], maybe " me", literal " my mac status"]

def macFilesListCommand : Regex.Pattern :=
  sentence [choice ["show", "list"], maybe " me", literal " my mac files"]

def macFilesLargestCommand : Regex.Pattern :=
  sentence [choice ["find", "show", "list"], maybe " me", literal " ", maybe "the ",
    literal "largest files on my mac"]

def macProcessesListCommand : Regex.Pattern :=
  sentence [oneOf [inTurn [literal "what", choice ["'s", " is"], literal " running on my mac"],
    inTurn [choice ["show", "check", "list"], maybe " me", literal " my mac processes"]]]

def macAppsListCommand : Regex.Pattern :=
  sentence [oneOf [
    inTurn [choice ["show", "list"], maybe " me", literal " my mac ", choice ["apps", "applications"]],
    literal "what apps are approved on my mac"]]

/-- `[A-Za-z0-9][A-Za-z0-9 ._-]{0,79}`. -/
def appName : Regex.Pattern :=
  .seq (.one (.ranges [('A', 'Z'), ('a', 'z'), ('0', '9')]))
    (atMost (.one (.ranges [('A', 'Z'), ('a', 'z'), ('0', '9'), (' ', ' '), ('.', '.'), ('_', '_'),
      ('-', '-')])) 79)

def macAppOpenCommand : Regex.Pattern :=
  sentence [choice ["open", "launch"], literal " ", .group 1 appName, literal " on my mac"]

def gitStatusCommand : Regex.Pattern :=
  sentence [choice ["show", "check"], maybe " me", literal " my git status"]

def macClipboardReadCommands : List Str := [lit "read my mac clipboard", lit "show my mac clipboard"]

def batteryStatusCommand : Regex.Pattern :=
  sentence [oneOf [
    inTurn [choice ["show", "check"], maybe " me", literal " my ", maybe "phone ", literal "battery ",
      choice ["status", "level"]],
    inTurn [literal "what", choice ["'s", " is"], literal " my ", maybe "phone ", literal "battery ",
      choice ["status", "level"]]]]

def deviceInfoCommand : Regex.Pattern :=
  sentence [oneOf [
    inTurn [choice ["show", "check"], maybe " me", literal " my ", choice ["phone", "device"], literal " ",
      choice ["info", "information", "details"]],
    literal "what phone is this"]]

def noteCreatePrefix : Regex.Pattern :=
  inTurn [.start, choice ["create", "make"], maybe " me", literal " a note ",
    choice ["saying", "that says"], spaces]

def memoryRememberPrefix : Regex.Pattern :=
  inTurn [.start, choice ["remember", "save to memory"], literal " ",
    optional (inTurn [literal "that", spaces])]

def memoryListCommands : List Str :=
  [lit "what do you remember", lit "show my memories", lit "list my memories"]

def memoryForgetAllCommands : List Str :=
  [lit "forget all memories", lit "clear all memories", lit "delete all memories"]

def memoryForgetCommand : Regex.Pattern :=
  sentence [choice ["forget", "delete"], literal " ", maybe "local ", literal "memory ", maybe "#",
    .group 1 digits]

def memoryUpdateCommand : Regex.Pattern :=
  sentence [choice ["update", "edit"], literal " ", maybe "local ", literal "memory ", maybe "#",
    .group 1 digits, literal " to", spaces, .group 2 (plus (.one .any))]

def timerCreateCommand : Regex.Pattern :=
  sentence [choice ["set", "start", "create"], maybe " me", literal " a timer for ", .group 1 digits,
    literal " ", .group 2 (choice ["second", "seconds", "minute", "minutes", "hour", "hours"])]

def flashlightSetCommand : Regex.Pattern :=
  sentence [choice ["turn", "switch"], literal " ", oneOf [
    inTurn [maybe "the ", choice ["flashlight", "torch"], literal " ", .group 1 (choice ["on", "off"])],
    inTurn [.group 2 (choice ["on", "off"]), literal " ", maybe "the ", choice ["flashlight", "torch"]]]]

/-! ### Parts of a command -/

/-- The number that ASCII digits write. -/
def digitsValue (s : Str) : ℕ := s.foldl (fun n c => 10 * n + (c.toNat - 0x30)) 0

/-- `toLongOrNull()` of ASCII digits. -/
def toLongOrNull (s : Str) : Option Int64 :=
  if digitsValue s < 2 ^ 63 then some (Int64.ofNat (digitsValue s)) else none

/-- `hasUnsafeControlOrFormatCharacters`. -/
def hasUnsafeControlOrFormatCharacters (s : Str) : Bool := s.any isHiddenCharacter

/-- The words between the runs of white space; `word` is the word that is read, its last unit first. -/
def wordsFrom (isSpace : UInt16 → Bool) : Bool → Str → Str → List Str
  | _, word, [] => [word.reverse]
  | inRun, word, c :: s =>
    if isSpace c then
      if inRun then wordsFrom isSpace true word s else word.reverse :: wordsFrom isSpace true [] s
    else wordsFrom isSpace false (c :: word) s

/-- `split(whitespace)`. -/
def splitWhitespace (isSpace : UInt16 → Bool) (s : Str) : List Str := wordsFrom isSpace false [] s

/-- `phonePermission`; the error is the message of the `IllegalStateException`. -/
def phonePermission (toolName : Str) : Except Str PermissionLevel :=
  match PhoneTool.find toolName with
  | some tool => .ok tool.permission
  | none => .error (lit "Missing compiled PHONE capability: " ++ toolName)

/-! ### Plans -/

/-- A plan for the phone. -/
def phonePlan (command toolName : Str) (arguments : ToolArguments) : Except Str GoffyExecutionPlan := do
  let permission ← phonePermission toolName
  return {
    command
    executionTarget := .phone
    toolName
    permission
    arguments }

/-- A plan for the Mac. -/
def macPlan (command : Str) (toolName : String) (permission : PermissionLevel)
    (arguments : ToolArguments) : GoffyExecutionPlan where
  command := command
  executionTarget := .mac
  toolName := lit toolName
  permission := permission
  arguments := arguments

section Plans

variable (isSpace : UInt16 → Bool) (command : Str)

/-- `trim().replace(whitespace, " ")`. -/
def normalize : Str := replaceRuns isSpace (trim command)

/-- A text after a prefix, where it meets its contract. -/
def textAfter (pattern : Regex.Pattern) (accepts : Str → Bool) : Option Str :=
  match Regex.find (routerRegex isSpace) pattern (trim command) with
  | none => none
  | some y => if accepts (trim y.rest) then some (trim y.rest) else none

def noteCreatePlan : Except Str (Option GoffyExecutionPlan) :=
  match textAfter isSpace command noteCreatePrefix matchesNoteTextContract with
  | none => .ok none
  | some text => some <$> phonePlan (trim command) PhoneTool.noteCreate.name (.phoneNoteCreate text)

def memoryRememberPlan : Except Str (Option GoffyExecutionPlan) :=
  match textAfter isSpace command memoryRememberPrefix matchesMemoryTextContract with
  | none => .ok none
  | some text =>
    some <$> phonePlan (trim command) PhoneTool.memoryRemember.name (.phoneMemoryRemember text)

def memoryListPlan : Except Str GoffyExecutionPlan :=
  phonePlan command PhoneTool.memoryList.name .noToolArguments

def memoryForgetAllPlan : Except Str GoffyExecutionPlan :=
  phonePlan command PhoneTool.memoryForgetAll.name .noToolArguments

/-- The id of a memory in a group. -/
def memoryId (y : Regex.Cursor UInt16) : Option Int64 := (toLongOrNull (y.groupValue 1)).filter (0 < ·)

def memoryForgetPlan : Except Str (Option GoffyExecutionPlan) :=
  if hasUnsafeControlOrFormatCharacters command then .ok none
  else
    let normalized := normalize isSpace command
    match Regex.matchEntire (routerRegex isSpace) memoryForgetCommand normalized with
    | none => .ok none
    | some y =>
      match memoryId y with
      | none => .ok none
      | some id => some <$> phonePlan normalized PhoneTool.memoryForget.name (.phoneMemoryForget id)

def memoryUpdatePlan : Except Str (Option GoffyExecutionPlan) :=
  if hasUnsafeControlOrFormatCharacters command then .ok none
  else
    let normalized := normalize isSpace command
    match Regex.matchEntire (routerRegex isSpace) memoryUpdateCommand normalized with
    | none => .ok none
    | some y =>
      match memoryId y with
      | none => .ok none
      | some id =>
        let text := trim (y.groupValue 2)
        if matchesMemoryTextContract text then
          some <$> phonePlan normalized PhoneTool.memoryUpdate.name (.phoneMemoryUpdate id text)
        else .ok none

/-- The seconds of a unit of time. -/
def unitSeconds (unit : Str) : Option Int64 :=
  if unit = lit "second" ∨ unit = lit "seconds" then some 1
  else if unit = lit "minute" ∨ unit = lit "minutes" then some 60
  else if unit = lit "hour" ∨ unit = lit "hours" then some 3600
  else none

def maxTimerSeconds : Int64 := 86400

/-- The seconds of a timer: `amount * multiplier` in `Long`. -/
def timerSeconds (y : Regex.Cursor UInt16) : Option Int64 := do
  let amount ← toLongOrNull (y.groupValue 1)
  let multiplier ← unitSeconds (lowercase (y.groupValue 2))
  if 1 ≤ amount ∧ amount ≤ maxTimerSeconds / multiplier then some (amount * multiplier) else none

def timerCreatePlan : Except Str (Option GoffyExecutionPlan) :=
  match Regex.matchEntire (routerRegex isSpace) timerCreateCommand command with
  | none => .ok none
  | some y =>
    match timerSeconds y with
    | none => .ok none
    | some seconds =>
      some <$> phonePlan command PhoneTool.timerCreate.name (.phoneTimerCreate seconds.toInt32 true)

/-- `requireNotNull`. -/
def requireNotNull {α : Type} : Option α → Except Str α
  | some a => .ok a
  | none => .error (lit "Required value was null.")

/-- `groupValues.drop(1).first(String::isNotEmpty)`, of two groups. -/
def firstNotEmpty (y : Regex.Cursor UInt16) : Except Str Str :=
  match [y.groupValue 1, y.groupValue 2].find? (· ≠ []) with
  | some value => .ok value
  | none => .error (lit "Collection contains no element matching the predicate.")

def flashlightSetPlan : Except Str GoffyExecutionPlan := do
  let y ← requireNotNull (Regex.matchEntire (routerRegex isSpace) flashlightSetCommand command)
  let requestedState ← firstNotEmpty y
  let enabled := decide (requestedState.map foldUnit = lit "on")
  phonePlan command PhoneTool.flashlightSet.name (.phoneFlashlightSet enabled)

def macStatusPlan : GoffyExecutionPlan := macPlan command "mac.system_info" .safe .noToolArguments
def goffyRomStatusPlan : GoffyExecutionPlan := macPlan command "goffy.rom.status" .safe .noToolArguments
def goffyRomChecklistPlan : GoffyExecutionPlan :=
  macPlan command "goffy.rom.checklist" .safe .noToolArguments
def goffyRomFeaturesPlan : GoffyExecutionPlan :=
  macPlan command "goffy.rom.features" .safe .noToolArguments
def macProcessesListPlan : GoffyExecutionPlan :=
  macPlan command "mac.processes.list" .safe (.macProcessesList 10)
def macAppsListPlan : GoffyExecutionPlan := macPlan command "mac.apps.list" .safe (.macAppsList 10)
def macFilesListPlan : GoffyExecutionPlan :=
  macPlan command "mac.files.list" .safe (.macFilesList 0 [] 25 false)
def macFilesLargestPlan : GoffyExecutionPlan :=
  macPlan command "mac.files.largest" .safe (.macFilesLargest 0 [] 10 4 false)
def gitStatusPlan : GoffyExecutionPlan := macPlan command "git.status" .safe (.gitStatus 0 25 true)
def macClipboardReadPlan : GoffyExecutionPlan :=
  macPlan command "mac.clipboard.read" .safe .noToolArguments

def macAppOpenPlan : Except Str (Option GoffyExecutionPlan) := do
  let y ← requireNotNull (Regex.matchEntire (routerRegex isSpace) macAppOpenCommand command)
  let displayName := trim (y.groupValue 1)
  let words := splitWhitespace isSpace (lowercase displayName)
  if words.any fun word => word = lit "and" || word = lit "then" then return none
  else return some (macPlan command "mac.apps.open" .confirm (.macAppsOpen displayName))

def batteryStatusPlan : Except Str GoffyExecutionPlan :=
  phonePlan command PhoneTool.batteryStatus.name .noToolArguments

def deviceInfoPlan : Except Str GoffyExecutionPlan :=
  phonePlan command PhoneTool.deviceInfo.name .noToolArguments

/-- The `when` of `route`, for a normalized command; `none` is unsupported. -/
def normalizedPlan : Except Str (Option GoffyExecutionPlan) :=
  let fits (p : Regex.Pattern) : Bool := Regex.isMatch (routerRegex isSpace) p command
  if fits goffyRomChecklistCommand then .ok (some (goffyRomChecklistPlan command))
  else if fits goffyRomFeaturesCommand then .ok (some (goffyRomFeaturesPlan command))
  else if fits goffyRomStatusCommand then .ok (some (goffyRomStatusPlan command))
  else if fits macStatusCommand then .ok (some (macStatusPlan command))
  else if fits macProcessesListCommand then .ok (some (macProcessesListPlan command))
  else if fits macAppOpenCommand then macAppOpenPlan isSpace command
  else if fits macAppsListCommand then .ok (some (macAppsListPlan command))
  else if fits macFilesLargestCommand then .ok (some (macFilesLargestPlan command))
  else if fits macFilesListCommand then .ok (some (macFilesListPlan command))
  else if fits gitStatusCommand then .ok (some (gitStatusPlan command))
  else if lowercase command ∈ macClipboardReadCommands then .ok (some (macClipboardReadPlan command))
  else if fits batteryStatusCommand then some <$> batteryStatusPlan command
  else if fits deviceInfoCommand then some <$> deviceInfoPlan command
  else if lowercase command ∈ memoryListCommands then some <$> memoryListPlan command
  else if lowercase command ∈ memoryForgetAllCommands then some <$> memoryForgetAllPlan command
  else if fits flashlightSetCommand then some <$> flashlightSetPlan isSpace command
  else if fits timerCreateCommand then timerCreatePlan isSpace command
  else .ok none

end Plans

/-! ### Routing -/

def maxPromptChars : ℕ := 512

/-- `isSafeLocalModelPrompt`, for the policy by default. -/
def isSafeLocalModelPrompt (command : Str) : Bool :=
  !isBlank command && command.length ≤ maxPromptChars && !command.any isHiddenCharacter

/-- `unsupported`, where the fallback is an argument. -/
def unsupported (observeUnsupportedCommand : Str → LocalModelIntentObservation) (normalized : Str)
    (rawCommandRejected : Bool) : RoutingDecision :=
  .unsupported (some (
    if rawCommandRejected || !isSafeLocalModelPrompt normalized then
      .rejected (lit "Command is outside local model prompt safety bounds.")
    else observeUnsupportedCommand normalized))

/-- The first plan of a list of attempts. -/
def firstPlan : List (Except Str (Option GoffyExecutionPlan)) → Except Str (Option GoffyExecutionPlan)
  | [] => .ok none
  | attempt :: rest => do
    match ← attempt with
    | some plan => return some plan
    | none => firstPlan rest

/-- `GoffyIntentRouter.route`; an error is the message of an exception. -/
def route (observeUnsupportedCommand : Str → LocalModelIntentObservation) (isSpace : UInt16 → Bool)
    (command : Str) : Except Str RoutingDecision := do
  let normalized := normalize isSpace command
  let plan ← firstPlan [memoryRememberPlan isSpace command, noteCreatePlan isSpace command,
    memoryForgetPlan isSpace command, memoryUpdatePlan isSpace command, normalizedPlan isSpace normalized]
  match plan with
  | some plan => return .routed plan
  | none =>
    return unsupported observeUnsupportedCommand normalized (hasUnsafeControlOrFormatCharacters command)

/-! ### What is asked of a plan -/

end GoffyIntentRouter

/-- `matchesToolContract` of arguments for the Mac; where there are none there is no contract. -/
def ToolArguments.matchesMacContract : ToolArguments → Bool
  | .noToolArguments => true
  | .macProcessesList maxEntries => inRange 1 maxMacProcessEntries maxEntries.toInt
  | .macAppsList maxEntries => inRange 1 maxMacAppEntries maxEntries.toInt
  | .macAppsOpen displayName => MacAppsOpenArguments.matchesToolContract ⟨displayName⟩
  | .macFilesList rootIndex relativePath maxEntries _ =>
    inRange 0 maxMacFilesRootIndex rootIndex.toInt && isSafeMacFilesRelativePath relativePath &&
      inRange 1 maxMacFilesListEntries maxEntries.toInt
  | .macFilesLargest rootIndex relativePath maxEntries maxDepth _ =>
    inRange 0 maxMacFilesRootIndex rootIndex.toInt && isSafeMacFilesRelativePath relativePath &&
      inRange 1 maxMacFilesLargestEntries maxEntries.toInt &&
      inRange 0 maxMacFilesLargestDepth maxDepth.toInt
  | .gitStatus repoIndex maxChanges _ =>
    inRange 0 maxGitStatusRepoIndex repoIndex.toInt && inRange 1 maxGitStatusChanges maxChanges.toInt
  | .phoneNoteCreate _ | .phoneMemoryRemember _ | .phoneMemoryForget _ | .phoneMemoryUpdate ..
  | .phoneTimerCreate .. | .phoneFlashlightSet _ => false

namespace GoffyIntentRouter

/-- The seconds of a timer are the product of the number and the unit that its command names, and
between a second and a day. -/
structure TimerFits (isSpace : UInt16 → Bool) (command : Str) (durationSeconds : Int32) : Prop where
  bounds : 1 ≤ durationSeconds.toInt ∧ durationSeconds.toInt ≤ 86400
  product : ∃ y unit, Regex.matchEntire (routerRegex isSpace) timerCreateCommand command = some y ∧
    unitSeconds (lowercase (y.groupValue 2)) = some unit ∧
    durationSeconds.toInt = digitsValue (y.groupValue 1) * unit.toInt

/-- What the registry of the phone, the contracts of the tools, the approval and the audit ask of a
plan. -/
structure Fits (isSpace : UInt16 → Bool) (plan : GoffyExecutionPlan) : Prop where
  target : plan.executionTarget = .phone ∨ plan.executionTarget = .mac
  phone : plan.executionTarget = .phone → ∃ tool, matchCapability plan = some tool
  mac : plan.executionTarget = .mac → plan.arguments.matchesMacContract = true
  confirm : plan.permission = .confirm → approvalDescription plan ≠ none
  audit : ∃ permission, toAuditPermission (some plan.permission) = some permission ∧
    auditContract plan.toolName = some (plan.executionTarget, permission)
  timer : ∀ d skip, plan.arguments = .phoneTimerCreate d skip → TimerFits isSpace plan.command d

section Spec

variable {isSpace : UInt16 → Bool} {command : Str} {plan : GoffyExecutionPlan}

theorem find_name (tool : PhoneTool) : PhoneTool.find tool.name = some tool := by
  unfold PhoneTool.find PhoneTool.all
  cases tool <;> unfold PhoneTool.name <;> (repeat rw [lit_ofList]) <;> decide +kernel

theorem phonePermission_name (tool : PhoneTool) : phonePermission tool.name = .ok tool.permission := by
  rw [phonePermission, find_name]

/-- What is made of a tool of the phone. -/
theorem phonePlan_name (tool : PhoneTool) (arguments : ToolArguments) :
    phonePlan command tool.name arguments = .ok {
      command
      executionTarget := .phone
      toolName := tool.name
      permission := tool.permission
      arguments } := by
  rw [phonePlan, phonePermission_name]
  rfl

/-- The arguments that a tool of the phone with a confirmation accepts can be shown. -/
theorem approvalDescription_ne_none {tool : PhoneTool} (hname : plan.toolName = tool.name)
    (hconfirm : tool.permission = .confirm) (haccepts : tool.acceptsArguments plan.arguments = true) :
    approvalDescription plan ≠ none := by
  unfold approvalDescription
  split
  · exact Option.some_ne_none _
  rename_i hforgetAll
  have htool : tool ≠ .memoryForgetAll := by
    rintro rfl
    exact hforgetAll hname
  clear hname hforgetAll
  -- a tool with a confirmation has arguments of its own, but for the one that is described by its name
  cases tool with
  | batteryStatus | deviceInfo | memoryList | ocrRead | qrRead => exact PermissionLevel.noConfusion hconfirm
  | memoryForgetAll => exact absurd rfl htool
  | flashlightSet | memoryForget | memoryRemember | memoryUpdate | noteCreate | timerCreate =>
    cases harguments : plan.arguments <;> rw [harguments] at haccepts <;>
      first
      | exact Option.some_ne_none _
      | exact Bool.noConfusion haccepts

/-- The tools of the phone have contracts of the audit. -/
theorem auditContract_phone (tool : PhoneTool) :
    ∃ permission, toAuditPermission (some tool.permission) = some permission ∧
      auditContract tool.name = some (.phone, permission) := by
  unfold auditContract auditCapabilityContracts
  cases tool <;> unfold PhoneTool.name <;> (repeat rw [lit_ofList]) <;> exact ⟨_, rfl, by decide +kernel⟩

/-- A plan for the phone fits if its tool accepts the arguments. -/
theorem fits_phonePlan {tool : PhoneTool} {arguments : ToolArguments}
    (h : phonePlan command tool.name arguments = .ok plan)
    (haccepts : tool.acceptsArguments arguments = true)
    (htimer : ∀ d skip, arguments = .phoneTimerCreate d skip → TimerFits isSpace command d) :
    Fits isSpace plan := by
  rw [phonePlan_name] at h
  obtain rfl := Except.ok.inj h
  constructor
  · exact .inl rfl
  · intro _
    refine ⟨tool, ?_⟩
    rw [matchCapability, find_name]
    simp [haccepts]
  · exact fun hmac => ExecutionTarget.noConfusion hmac
  · exact fun hconfirm => approvalDescription_ne_none rfl hconfirm haccepts
  · exact auditContract_phone tool
  · exact htimer

theorem fits_macPlan {toolName : String} {permission : PermissionLevel} {arguments : ToolArguments}
    (hmac : arguments.matchesMacContract = true)
    (hconfirm : permission = .confirm → ∃ displayName, arguments = .macAppsOpen displayName)
    (haudit : ∃ p, toAuditPermission (some permission) = some p ∧
      auditContract (lit toolName) = some (.mac, p)) :
    Fits isSpace (macPlan command toolName permission arguments) := by
  constructor
  · exact .inr rfl
  · exact fun hphone => ExecutionTarget.noConfusion hphone
  · exact fun _ => hmac
  · intro h
    obtain ⟨displayName, rfl⟩ := hconfirm h
    unfold approvalDescription
    split <;> exact Option.some_ne_none _
  · exact haudit
  · rintro d skip rfl
    cases hmac

/-! ### Timers -/

theorem toInt_toLongOrNull {s : Str} {n : Int64} (h : toLongOrNull s = some n) :
    n.toInt = digitsValue s := by
  unfold toLongOrNull at h
  split at h
  · rename_i hlt
    obtain rfl := Option.some.inj h
    exact Int64.toInt_ofNat_of_lt hlt
  · cases h

theorem unitSeconds_cases {s : Str} {unit : Int64} (h : unitSeconds s = some unit) :
    unit = 1 ∨ unit = 60 ∨ unit = 3600 := by
  unfold unitSeconds at h
  split at h
  · exact .inl (Option.some.inj h).symm
  split at h
  · exact .inr (.inl (Option.some.inj h).symm)
  split at h
  · exact .inr (.inr (Option.some.inj h).symm)
  · cases h

/-- Within the bound the product does not overflow, neither as a `Long` nor as an `Int`. -/
theorem toInt_timer {amount unit : Int64} (hunit : unit = 1 ∨ unit = 60 ∨ unit = 3600)
    (hlow : 1 ≤ amount) (hhigh : amount ≤ maxTimerSeconds / unit) :
    (amount * unit).toInt32.toInt = amount.toInt * unit.toInt ∧ 1 ≤ amount.toInt * unit.toInt ∧
      amount.toInt * unit.toInt ≤ 86400 := by
  have hlow' : 1 ≤ amount.toInt := Int64.le_iff_toInt_le.1 hlow
  have hhigh' : amount.toInt * unit.toInt ≤ 86400 ∧ 1 ≤ unit.toInt := by
    have hle := Int64.le_iff_toInt_le.1 hhigh
    rcases hunit with rfl | rfl | rfl
    · rw [show (maxTimerSeconds / 1).toInt = 86400 by decide] at hle
      rw [show (1 : Int64).toInt = 1 by decide]
      omega
    · rw [show (maxTimerSeconds / 60).toInt = 1440 by decide] at hle
      rw [show (60 : Int64).toInt = 60 by decide]
      omega
    · rw [show (maxTimerSeconds / 3600).toInt = 24 by decide] at hle
      rw [show (3600 : Int64).toInt = 3600 by decide]
      omega
  have hpos : 1 ≤ amount.toInt * unit.toInt := Int.mul_le_mul hlow' hhigh'.2 (by omega) (by omega)
  have hlong : (amount.toInt * unit.toInt).bmod (2 ^ 64) = amount.toInt * unit.toInt :=
    Int.bmod_eq_of_le (by omega) (by omega)
  refine ⟨?_, hpos, hhigh'.1⟩
  rw [Int64.toInt_toInt32, Int64.toInt_mul, hlong]
  exact Int.bmod_eq_of_le (by omega) (by omega)

theorem timerSeconds_spec {y : Regex.Cursor UInt16} {seconds : Int64} (h : timerSeconds y = some seconds) :
    ∃ unit, unitSeconds (lowercase (y.groupValue 2)) = some unit ∧
      seconds.toInt32.toInt = digitsValue (y.groupValue 1) * unit.toInt ∧
      1 ≤ seconds.toInt32.toInt ∧ seconds.toInt32.toInt ≤ 86400 := by
  unfold timerSeconds at h
  obtain ⟨amount, hamount, h⟩ := Option.bind_eq_some_iff.1 h
  obtain ⟨unit, hunit, h⟩ := Option.bind_eq_some_iff.1 h
  split at h
  · rename_i hbounds
    obtain rfl := Option.some.inj h
    obtain ⟨hproduct, hlow, hhigh⟩ := toInt_timer (unitSeconds_cases hunit) hbounds.1 hbounds.2
    rw [toInt_toLongOrNull hamount] at hproduct hlow hhigh
    rw [hproduct]
    exact ⟨unit, hunit, rfl, hlow, hhigh⟩
  · cases h

/-! ### Names of apps -/

theorem toNat_foldUnit {u : UInt16} (h : u ≠ 0x130 ∧ u ≠ 0x131 ∧ u ≠ 0x17f ∧ u ≠ 0x212a) :
    (foldUnit u).toNat = if 0x41 ≤ u.toNat ∧ u.toNat ≤ 0x5a then u.toNat + 0x20 else u.toNat := by
  obtain ⟨h₁, h₂, h₃, h₄⟩ := h
  rw [foldUnit]
  simp only [UInt16.le_iff_toNat_le, h₁, h₂, h₃, h₄, or_self, if_false]
  change (if 0x41 ≤ u.toNat ∧ u.toNat ≤ 0x5a then u + 0x20 else u).toNat = _
  split
  · rw [UInt16.toNat_add]
    change (u.toNat + 0x20) % 65536 = _
    omega
  · rfl

theorem toNat_capital (u : UInt16) :
    (capital u).toNat = if 0x61 ≤ u.toNat ∧ u.toNat ≤ 0x7a then u.toNat - 0x20 else u.toNat := by
  rw [capital]
  simp only [UInt16.le_iff_toNat_le]
  change (if 0x61 ≤ u.toNat ∧ u.toNat ≤ 0x7a then u - 0x20 else u).toNat = _
  split
  · have hle : (0x20 : UInt16) ≤ u := UInt16.le_iff_toNat_le.2 (by change 0x20 ≤ u.toNat; omega)
    rw [UInt16.toNat_sub_of_le _ _ hle]
    rfl
  · rfl

/-- What a set of ASCII letters and others takes without regard to case is in it, a letter, or one of
four units that fold to a letter. -/
theorem cases_of_regexIsIn {rs : List (Char × Char)} {u : UInt16}
    (h : regexIsIn true (.ranges rs) u = true) :
    inRanges rs u = true ∨ (0x41 ≤ u.toNat ∧ u.toNat ≤ 0x5a) ∨ (0x61 ≤ u.toNat ∧ u.toNat ≤ 0x7a) ∨
      u = 0x130 ∨ u = 0x131 ∨ u = 0x17f ∨ u = 0x212a := by
  by_cases hspecial : u ≠ 0x130 ∧ u ≠ 0x131 ∧ u ≠ 0x17f ∧ u ≠ 0x212a
  · have hfold := toNat_foldUnit hspecial
    by_cases hletter : (0x41 ≤ u.toNat ∧ u.toNat ≤ 0x5a) ∨ (0x61 ≤ u.toNat ∧ u.toNat ≤ 0x7a)
    · exact .inr (hletter.imp id .inl)
    · have hsame : foldUnit u = u := UInt16.toNat_inj.1 (by rw [hfold, if_neg (by omega)])
      have hcapital : capital u = u := UInt16.toNat_inj.1 (by rw [toNat_capital, if_neg (by omega)])
      left
      simpa [regexIsIn, hsame, hcapital] using h
  · right
    right
    right
    tauto

/-- A unit of the name of an app is shown and is no separator of paths. -/
theorem shown_of_isIn {u : UInt16}
    (h : regexIsIn true (.ranges [('A', 'Z'), ('a', 'z'), ('0', '9'), (' ', ' '), ('.', '.'), ('_', '_'),
      ('-', '-')]) u = true) : isHiddenCharacter u = false ∧ u ≠ slash ∧ u ≠ backslash := by
  have hplain : 0x20 ≤ u.toNat → u.toNat ≤ 0x7a → u.toNat ≠ 0x2f → u.toNat ≠ 0x5c →
      isHiddenCharacter u = false ∧ u ≠ slash ∧ u ≠ backslash := by
    intro hlow hhigh hslash hbackslash
    refine ⟨?_, fun he => hslash (he ▸ rfl), fun he => hbackslash (he ▸ rfl)⟩
    simp only [isHiddenCharacter, isISOControl, isFormat, Bool.or_eq_false_iff, Bool.and_eq_false_iff,
      decide_eq_false_iff_not, beq_eq_false_iff_ne]
    omega
  rcases cases_of_regexIsIn h with h | h | h | rfl | rfl | rfl | rfl
  · simp only [inRanges, List.any_cons, List.any_nil, Bool.or_false, Bool.or_eq_true, Bool.and_eq_true,
      decide_eq_true_eq] at h
    change (0x41 ≤ u.toNat ∧ u.toNat ≤ 0x5a) ∨ (0x61 ≤ u.toNat ∧ u.toNat ≤ 0x7a) ∨
      (0x30 ≤ u.toNat ∧ u.toNat ≤ 0x39) ∨ (0x20 ≤ u.toNat ∧ u.toNat ≤ 0x20) ∨
      (0x2e ≤ u.toNat ∧ u.toNat ≤ 0x2e) ∨ (0x5f ≤ u.toNat ∧ u.toNat ≤ 0x5f) ∨
      (0x2d ≤ u.toNat ∧ u.toNat ≤ 0x2d) at h
    exact hplain (by omega) (by omega) (by omega) (by omega)
  · exact hplain (by omega) (by omega) (by omega) (by omega)
  · exact hplain (by omega) (by omega) (by omega) (by omega)
  all_goals decide

/-- The name of an app begins with a unit that is no white space. -/
theorem notWhitespace_of_isIn {u : UInt16}
    (h : regexIsIn true (.ranges [('A', 'Z'), ('a', 'z'), ('0', '9')]) u = true) :
    isWhitespace u = false := by
  have hplain : 0x30 ≤ u.toNat → u.toNat ≤ 0x7a → isWhitespace u = false := by
    intro hlow hhigh
    simp only [isWhitespace, Bool.or_eq_false_iff, Bool.and_eq_false_iff, decide_eq_false_iff_not,
      beq_eq_false_iff_ne]
    omega
  rcases cases_of_regexIsIn h with h | h | h | rfl | rfl | rfl | rfl
  · simp only [inRanges, List.any_cons, List.any_nil, Bool.or_false, Bool.or_eq_true, Bool.and_eq_true,
      decide_eq_true_eq] at h
    change (0x41 ≤ u.toNat ∧ u.toNat ≤ 0x5a) ∨ (0x61 ≤ u.toNat ∧ u.toNat ≤ 0x7a) ∨
      (0x30 ≤ u.toNat ∧ u.toNat ≤ 0x39) at h
    exact hplain (by omega) (by omega)
  · exact hplain (by omega) (by omega)
  · exact hplain (by omega) (by omega)
  all_goals decide

/-- The trimmed name of an app meets its contract. -/
theorem matchesToolContract_of_lang {name : Str} (h : Regex.Lang (routerRegex isSpace) appName name) :
    MacAppsOpenArguments.matchesToolContract ⟨trim name⟩ = true := by
  obtain ⟨head, rest, rfl, ⟨first, rfl, hfirst⟩, hrest⟩ := h
  obtain ⟨hall, hlength⟩ := Regex.lang_atMost_one hrest
  have hshown : ∀ u ∈ [first] ++ rest, isHiddenCharacter u = false ∧ u ≠ slash ∧ u ≠ backslash := by
    rw [List.singleton_append, List.forall_mem_cons]
    refine ⟨shown_of_isIn ?_, fun u hu => shown_of_isIn (hall u hu)⟩
    have hwider : ∀ v, inRanges [('A', 'Z'), ('a', 'z'), ('0', '9')] v = true →
        inRanges [('A', 'Z'), ('a', 'z'), ('0', '9'), (' ', ' '), ('.', '.'), ('_', '_'), ('-', '-')] v =
          true := fun v hv => by
      simp only [inRanges, List.any_cons, List.any_nil, Bool.or_false, Bool.or_eq_true] at hv ⊢
      tauto
    have hfirst' : regexIsIn true (.ranges [('A', 'Z'), ('a', 'z'), ('0', '9')]) first = true := hfirst
    simp only [regexIsIn, Bool.true_and, Bool.or_eq_true] at hfirst' ⊢
    exact hfirst'.imp (hwider _) (Or.imp (hwider _) (hwider _))
  have hsub : ∀ u ∈ trim ([first] ++ rest),
      isHiddenCharacter u = false ∧ u ≠ slash ∧ u ≠ backslash := fun u hu =>
    hshown u (mem_of_mem_trim hu)
  have hnotBlank : isBlank (trim ([first] ++ rest)) = false := by
    obtain ⟨t, ht⟩ : ∃ t, trim ([first] ++ rest) = first :: t :=
      Trimming.trimmed_cons (notWhitespace_of_isIn hfirst)
    rw [ht, isBlank, List.all_cons, notWhitespace_of_isIn hfirst, Bool.false_and]
  have htrimmed : (trim ([first] ++ rest)).length ≤ maxMacAppDisplayNameLength := by
    have := Trimming.length_trimmed_le isWhitespace ([first] ++ rest)
    rw [List.length_append, List.length_singleton] at this
    change (Trimming.trimmed isWhitespace ([first] ++ rest)).length ≤ 80
    omega
  have hvisible : (trim ([first] ++ rest)).any isHiddenCharacter = false := by
    rw [List.any_eq_false]
    exact fun u hu => by rw [(hsub u hu).1]; exact Bool.false_ne_true
  have hslash : (trim ([first] ++ rest)).contains slash = false := by
    rw [List.contains_eq_mem, decide_eq_false_iff_not]
    exact fun hmem => (hsub _ hmem).2.1 rfl
  have hbackslash : (trim ([first] ++ rest)).contains backslash = false := by
    rw [List.contains_eq_mem, decide_eq_false_iff_not]
    exact fun hmem => (hsub _ hmem).2.2 rfl
  simp only [MacAppsOpenArguments.matchesToolContract, isSafeMacAppDisplayName, isSafeDisplayField,
    hnotBlank, hvisible, hslash, hbackslash, htrimmed, decide_true, Bool.not_false, Bool.and_self]

/-! ### The attempts -/

/-- An attempt returns, and a plan that it returns fits. -/
def Sound (isSpace : UInt16 → Bool) (x : Except Str (Option GoffyExecutionPlan)) : Prop :=
  ∃ r, x = .ok r ∧ ∀ plan, r = some plan → Fits isSpace plan

theorem sound_none : Sound isSpace (.ok none) := ⟨none, rfl, fun _ h => nomatch h⟩

theorem sound_some (h : Fits isSpace plan) : Sound isSpace (.ok (some plan)) :=
  ⟨some plan, rfl, fun _ hplan => Option.some.inj hplan ▸ h⟩

theorem Sound.ite {c : Prop} [Decidable c] {x y : Except Str (Option GoffyExecutionPlan)}
    (hx : c → Sound isSpace x) (hy : Sound isSpace y) : Sound isSpace (if c then x else y) := by
  split
  · rename_i hc
    exact hx hc
  · exact hy

theorem sound_phonePlan {tool : PhoneTool} {arguments : ToolArguments}
    (haccepts : tool.acceptsArguments arguments = true)
    (htimer : ∀ d skip, arguments = .phoneTimerCreate d skip → TimerFits isSpace command d) :
    Sound isSpace (some <$> phonePlan command tool.name arguments) := by
  have hfits := fits_phonePlan (phonePlan_name tool arguments) haccepts htimer
  rw [phonePlan_name]
  exact sound_some hfits

theorem textAfter_accepts {pattern : Regex.Pattern} {accepts : Str → Bool} {text : Str}
    (h : textAfter isSpace command pattern accepts = some text) : accepts text = true := by
  unfold textAfter at h
  split at h
  · cases h
  · split at h
    · rename_i haccepts
      exact Option.some.inj h ▸ haccepts
    · cases h

theorem sound_memoryRememberPlan : Sound isSpace (memoryRememberPlan isSpace command) := by
  unfold memoryRememberPlan
  split
  · exact sound_none
  · rename_i htext
    exact sound_phonePlan (textAfter_accepts htext) (fun _ _ h => nomatch h)

theorem sound_noteCreatePlan : Sound isSpace (noteCreatePlan isSpace command) := by
  unfold noteCreatePlan
  split
  · exact sound_none
  · rename_i htext
    exact sound_phonePlan (textAfter_accepts htext) (fun _ _ h => nomatch h)

theorem memoryId_pos {y : Regex.Cursor UInt16} {id : Int64} (h : memoryId y = some id) :
    decide (0 < id) = true := (Option.filter_eq_some_iff.1 h).2

theorem sound_memoryForgetPlan : Sound isSpace (memoryForgetPlan isSpace command) := by
  unfold memoryForgetPlan
  refine .ite (fun _ => sound_none) ?_
  dsimp only
  split
  · exact sound_none
  split
  · exact sound_none
  · rename_i hid
    exact sound_phonePlan (memoryId_pos hid) (fun _ _ h => nomatch h)

theorem sound_memoryUpdatePlan : Sound isSpace (memoryUpdatePlan isSpace command) := by
  unfold memoryUpdatePlan
  refine .ite (fun _ => sound_none) ?_
  dsimp only
  split
  · exact sound_none
  split
  · exact sound_none
  rename_i hid
  refine .ite (fun htext => ?_) sound_none
  refine sound_phonePlan ?_ (fun _ _ h => nomatch h)
  rw [PhoneTool.acceptsArguments, memoryId_pos hid, htext]
  rfl

theorem sound_timerCreatePlan : Sound isSpace (timerCreatePlan isSpace command) := by
  unfold timerCreatePlan
  split
  · exact sound_none
  rename_i y hmatch
  split
  · exact sound_none
  rename_i seconds hseconds
  obtain ⟨unit, hunit, hproduct, hlow, hhigh⟩ := timerSeconds_spec hseconds
  refine sound_phonePlan ?_ ?_
  · have hlow' : (1 : Int32) ≤ seconds.toInt32 := Int32.le_iff_toInt_le.2 hlow
    have hhigh' : seconds.toInt32 ≤ (86400 : Int32) := Int32.le_iff_toInt_le.2 hhigh
    simp [PhoneTool.acceptsArguments, isTimerDuration, hlow', hhigh']
  · intro d skip hd
    obtain ⟨rfl, -⟩ := ToolArguments.phoneTimerCreate.inj hd
    exact ⟨⟨hlow, hhigh⟩, y, unit, hmatch, hunit, hproduct⟩

theorem exists_cursor_of_isMatch {pattern : Regex.Pattern}
    (h : Regex.isMatch (routerRegex isSpace) pattern command = true) :
    ∃ y, Regex.matchEntire (routerRegex isSpace) pattern command = some y :=
  Option.isSome_iff_exists.1 h

/-- One of the two groups has matched. -/
theorem exists_state {y : Regex.Cursor UInt16}
    (h : Regex.matchEntire (routerRegex isSpace) flashlightSetCommand command = some y) :
    ∃ value, firstNotEmpty y = .ok value := by
  have hnotEmpty : ∀ v, Regex.Lang (routerRegex isSpace) (choice ["on", "off"]) v → v ≠ [] := fun v =>
    Regex.ne_nil_of_lang (by decide)
  have hsome : y.groupValue 1 ≠ [] ∨ y.groupValue 2 ≠ [] := by
    obtain ⟨z₁, -, hy⟩ := Regex.mem_run_inTurn_cons.1 (Regex.mem_run_of_matchEntire h)
    obtain ⟨z₂, -, hy⟩ := Regex.mem_run_inTurn_cons.1 hy
    obtain ⟨z₃, -, hy⟩ := Regex.mem_run_inTurn_cons.1 hy
    obtain ⟨w, hw, hy⟩ := Regex.mem_run_inTurn_cons.1 hy
    -- what comes after the state has no groups
    have hsame : ∀ n, y.groupValue n = w.groupValue n := fun n => by
      rw [Regex.Cursor.groupValue, Regex.lookup_of_mem_run List.not_mem_nil w y hy, Regex.Cursor.groupValue]
    rw [hsame, hsame]
    rcases List.mem_append.1 hw with hw | hw
    · exact .inl (hnotEmpty _ (Regex.lang_groupValue_inTurn [maybe "the ", choice ["flashlight", "torch"],
        .literal " "] List.not_mem_nil hw))
    · exact .inr (hnotEmpty _ (Regex.lang_groupValue_inTurn [] (by decide) hw))
  rw [firstNotEmpty]
  cases hfind : [y.groupValue 1, y.groupValue 2].find? (· ≠ []) with
  | some value => exact ⟨value, rfl⟩
  | none =>
    have hnone := List.find?_eq_none.1 hfind
    simp only [List.forall_mem_cons, decide_eq_true_eq, not_not] at hnone
    exact absurd hsome (by simp [hnone.1, hnone.2.1])

theorem sound_flashlightSetPlan
    (h : Regex.isMatch (routerRegex isSpace) flashlightSetCommand command = true) :
    Sound isSpace (some <$> flashlightSetPlan isSpace command) := by
  obtain ⟨y, hy⟩ := exists_cursor_of_isMatch h
  obtain ⟨value, hvalue⟩ := exists_state hy
  have heq : flashlightSetPlan isSpace command =
      phonePlan command PhoneTool.flashlightSet.name (.phoneFlashlightSet (value.map foldUnit = lit "on")) := by
    rw [flashlightSetPlan, hy, requireNotNull]
    simp only [bind, Except.bind, hvalue]
  rw [heq]
  exact sound_phonePlan rfl (fun _ _ h => nomatch h)

/-- The tools of the Mac that the router plans for. -/
def macCapabilities : List (String × PermissionLevel) :=
  [("mac.system_info", .safe), ("goffy.rom.status", .safe), ("goffy.rom.checklist", .safe),
    ("goffy.rom.features", .safe), ("mac.processes.list", .safe), ("mac.apps.list", .safe),
    ("mac.apps.open", .confirm), ("mac.files.list", .safe), ("mac.files.largest", .safe),
    ("git.status", .safe), ("mac.clipboard.read", .safe)]

theorem auditContract_mac {toolName : String} {permission : PermissionLevel}
    (h : (toolName, permission) ∈ macCapabilities) :
    ∃ p, toAuditPermission (some permission) = some p ∧ auditContract (lit toolName) = some (.mac, p) := by
  simp only [macCapabilities, List.mem_cons, List.not_mem_nil, or_false, Prod.mk.injEq] at h
  unfold auditContract auditCapabilityContracts
  rcases h with ⟨rfl, rfl⟩ | ⟨rfl, rfl⟩ | ⟨rfl, rfl⟩ | ⟨rfl, rfl⟩ | ⟨rfl, rfl⟩ | ⟨rfl, rfl⟩ | ⟨rfl, rfl⟩ |
    ⟨rfl, rfl⟩ | ⟨rfl, rfl⟩ | ⟨rfl, rfl⟩ | ⟨rfl, rfl⟩
  all_goals
    refine ⟨_, rfl, ?_⟩
    repeat rw [lit_ofList]
    decide +kernel

theorem sound_macPlan {toolName : String} {arguments : ToolArguments}
    (h : (toolName, PermissionLevel.safe) ∈ macCapabilities) (hmac : arguments.matchesMacContract = true) :
    Sound isSpace (.ok (some (macPlan command toolName .safe arguments))) :=
  sound_some (fits_macPlan hmac (fun hconfirm => PermissionLevel.noConfusion hconfirm) (auditContract_mac h))

theorem sound_macAppOpenPlan (h : Regex.isMatch (routerRegex isSpace) macAppOpenCommand command = true) :
    Sound isSpace (macAppOpenPlan isSpace command) := by
  obtain ⟨y, hy⟩ := exists_cursor_of_isMatch h
  have hname : Regex.Lang (routerRegex isSpace) appName (y.groupValue 1) :=
    Regex.lang_groupValue_inTurn [.start, choice ["open", "launch"], .literal " "] (by decide)
      (Regex.mem_run_of_matchEntire hy)
  rw [macAppOpenPlan, hy]
  refine .ite (fun _ => sound_none) (sound_some (fits_macPlan (matchesToolContract_of_lang hname)
    (fun _ => ⟨_, rfl⟩) (auditContract_mac (by simp [macCapabilities]))))

/-- The attempts with a normalized command. -/
theorem sound_normalizedPlan : Sound isSpace (normalizedPlan isSpace command) := by
  unfold normalizedPlan
  refine .ite (fun _ => sound_macPlan (by simp [macCapabilities]) rfl) ?_
  refine .ite (fun _ => sound_macPlan (by simp [macCapabilities]) rfl) ?_
  refine .ite (fun _ => sound_macPlan (by simp [macCapabilities]) rfl) ?_
  refine .ite (fun _ => sound_macPlan (by simp [macCapabilities]) rfl) ?_
  refine .ite (fun _ => sound_macPlan (by simp [macCapabilities]) (by decide)) ?_
  refine .ite sound_macAppOpenPlan ?_
  refine .ite (fun _ => sound_macPlan (by simp [macCapabilities]) (by decide)) ?_
  refine .ite (fun _ => sound_macPlan (by simp [macCapabilities]) (by decide +kernel)) ?_
  refine .ite (fun _ => sound_macPlan (by simp [macCapabilities]) (by decide +kernel)) ?_
  refine .ite (fun _ => sound_macPlan (by simp [macCapabilities]) (by decide)) ?_
  refine .ite (fun _ => sound_macPlan (by simp [macCapabilities]) rfl) ?_
  refine .ite (fun _ => sound_phonePlan rfl (fun _ _ h => nomatch h)) ?_
  refine .ite (fun _ => sound_phonePlan rfl (fun _ _ h => nomatch h)) ?_
  refine .ite (fun _ => sound_phonePlan rfl (fun _ _ h => nomatch h)) ?_
  refine .ite (fun _ => sound_phonePlan rfl (fun _ _ h => nomatch h)) ?_
  exact .ite sound_flashlightSetPlan (.ite (fun _ => sound_timerCreatePlan) sound_none)

theorem Sound.firstPlan {attempts : List (Except Str (Option GoffyExecutionPlan))}
    (h : ∀ x ∈ attempts, Sound isSpace x) : Sound isSpace (firstPlan attempts) := by
  induction attempts with
  | nil => exact sound_none
  | cons x attempts ih =>
    obtain ⟨hx, hattempts⟩ := List.forall_mem_cons.1 h
    obtain ⟨r, rfl, hr⟩ := hx
    cases r with
    | none => exact ih hattempts
    | some plan => exact sound_some (hr plan rfl)

theorem sound_attempts : Sound isSpace (firstPlan [memoryRememberPlan isSpace command,
    noteCreatePlan isSpace command, memoryForgetPlan isSpace command, memoryUpdatePlan isSpace command,
    normalizedPlan isSpace (normalize isSpace command)]) := by
  apply Sound.firstPlan
  simp only [List.forall_mem_cons]
  exact ⟨sound_memoryRememberPlan, sound_noteCreatePlan, sound_memoryForgetPlan, sound_memoryUpdatePlan,
    sound_normalizedPlan, fun _ h => nomatch h⟩

end Spec

/-- A plan that the router returns fits what the other parts ask of plans. -/
theorem routed_plan_fits {observe : Str → LocalModelIntentObservation} {isSpace : UInt16 → Bool}
    {command : Str} {plan : GoffyExecutionPlan} (h : route observe isSpace command = .ok (.routed plan)) :
    Fits isSpace plan := by
  obtain ⟨r, hr, hfits⟩ := @sound_attempts isSpace command
  rw [route, hr] at h
  cases r with
  | none => cases h
  | some found =>
    obtain rfl := RoutingDecision.routed.inj (Except.ok.inj h)
    exact hfits _ rfl

def timerCommand : Str := lit "Set a timer for 5 minutes"

def timerPlan : GoffyExecutionPlan where
  command := timerCommand
  executionTarget := .phone
  toolName := lit "phone.timer.create"
  permission := .confirm
  arguments := .phoneTimerCreate 300 true

theorem five_minutes_fit :
    route (fun _ => .disabled []) isWhitespace timerCommand = .ok (.routed timerPlan) ∧
      Fits isWhitespace timerPlan := by
  have h : route (fun _ => .disabled []) isWhitespace timerCommand = .ok (.routed timerPlan) := rfl
  exact ⟨h, routed_plan_fits h⟩

/-- No check of the router fails. -/
theorem route_never_throws (observe : Str → LocalModelIntentObservation) (isSpace : UInt16 → Bool)
    (command : Str) : ∃ decision, route observe isSpace command = .ok decision := by
  obtain ⟨r, hr, -⟩ := @sound_attempts isSpace command
  rw [route, hr]
  cases r <;> exact ⟨_, rfl⟩

end GoffyIntentRouter

end GoffyPhone
