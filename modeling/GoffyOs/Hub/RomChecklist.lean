import GoffyOs.Hub.RomStatus

/-!
# The tool `goffy.rom.checklist`

The Hub reads the operator's checklist and shows the steps that are not done. Whatever is wrong with the
artifact, the answer is the same fixed one: `_invalid_checklist` does not use the summary that it is given.
-/

namespace GoffyHub.Rom

open Python

def maxChecklistSteps : ℕ := 6
def maxChecklistStepCount : ℕ := 100
def maxChecklistStepTitleLength : ℕ := 96
def maxChecklistStepKindLength : ℕ := 48
def maxChecklistStepSummaryLength : ℕ := 192

/-- `CHECKLIST_STATUS_VALUES`. -/
def checklistStatusValues : List String :=
  ["BLOCKED_EVIDENCE", "READY_FOR_ROM0_READINESS_REVIEW", "MISSING", "INVALID"]

/-- `CHECKLIST_STEP_STATUS_VALUES`. -/
def checklistStepStatusValues : List String := ["DONE", "READY", "BLOCKED"]

/-- `CHECKLIST_NEXT_STEP_STATUS_VALUES`. -/
def checklistNextStepStatusValues : List String := checklistStepStatusValues ++ ["MISSING", "INVALID"]

/-- `CHECKLIST_STEP_KIND_VALUES`. -/
def checklistStepKindValues : List String :=
  ["LOCAL_READ_ONLY", "HUMAN_ONLY", "TEMPLATE_ONLY", "HUMAN_DECISION"]

/-! ### Values -/

/-- A text of the artifact that has to be one of certain values. -/
def knownValue (value : Option Json) (maximum : ℕ) (values : List String) (message : String) :
    Except RomError Str := do
  let rawValue ← textValue value "UNKNOWN".toList maximum
  if values.any (·.toList = rawValue) then .ok rawValue else .error (.valueError message)

/-- `_checklist_status_value`. -/
def checklistStatusValue (value : Option Json) : Except RomError Str :=
  knownValue value maxStatusLength checklistStatusValues
    "ROM-0 operator checklist status is unsupported"

/-- `_checklist_step_status_value`. -/
def checklistStepStatusValue (value : Option Json) : Except RomError Str :=
  knownValue value maxStatusLength checklistStepStatusValues
    "ROM-0 operator checklist step status is unsupported"

/-- `_checklist_step_kind_value`. -/
def checklistStepKindValue (value : Option Json) : Except RomError Str :=
  knownValue value maxChecklistStepKindLength checklistStepKindValues
    "ROM-0 operator checklist step kind is unsupported"

/-- A field with certain values that also has a validator. -/
def validWord (value : Str) (values : List String) (maximum : ℕ) : Except RomError Str := do
  validLiteral value values
  boundedText value maximum

/-! ### Steps -/

/-- `GoffyRomChecklistStepOutput`. -/
structure GoffyRomChecklistStepOutput where
  stepIndex : ℕ
  title : Str
  kind : Str
  status : Str
  summary : Str
  blocked : Bool
  blockerCount : ℕ
  deriving DecidableEq

/-- The validation of `GoffyRomChecklistStepOutput(…)`. -/
def GoffyRomChecklistStepOutput.create (s : GoffyRomChecklistStepOutput) :
    Except RomError GoffyRomChecklistStepOutput := do
  if s.stepIndex = 0 then throw .validationError
  validCount s.stepIndex maxChecklistStepCount
  let title ← validText s.title maxChecklistStepTitleLength maxChecklistStepSummaryLength
  let kind ← validWord s.kind checklistStepKindValues maxChecklistStepSummaryLength
  let status ← validWord s.status checklistStepStatusValues maxChecklistStepSummaryLength
  let summary ← validText s.summary maxChecklistStepSummaryLength maxChecklistStepSummaryLength
  validCount s.blockerCount maxChecklistStepCount
  return { s with title, kind, status, summary }

/-- One round of the loop of `_operator_steps`. -/
def operatorStep (index : ℕ) (item : Json) : Except RomError GoffyRomChecklistStepOutput :=
  match item with
  | .object o => do
    let blockers ← (stringItems (get o "blockers")).mapM fun b => boundedText b maxBlockerLength
    let status ← checklistStepStatusValue (get o "status")
    let title ← textValue (get o "title") ("ROM-0 checklist step ".toList ++ natStr index)
      maxChecklistStepTitleLength
    let kind ← checklistStepKindValue (get o "kind")
    let summary ← textValue (get o "summary") "No checklist summary available".toList
      maxChecklistStepSummaryLength
    GoffyRomChecklistStepOutput.create {
      stepIndex := index, title, kind, status, summary
      blocked := status = "BLOCKED".toList || !blockers.isEmpty
      blockerCount := blockers.length }
  | _ => .error (.valueError "operator checklist step must be an object")

/-- The loop of `_operator_steps`, from an index on. -/
def stepsFrom (index : ℕ) : List Json → Except RomError (List GoffyRomChecklistStepOutput)
  | [] => .ok []
  | item :: items => do
    let step ← operatorStep index item
    let steps ← stepsFrom (index + 1) items
    return step :: steps

/-- `_operator_steps`. -/
def operatorSteps (operatorReport : Members) : Except RomError (List GoffyRomChecklistStepOutput) :=
  match get operatorReport "steps" with
  | some (.array rawSteps) =>
    if maxChecklistStepCount < rawSteps.length then
      .error (.valueError "operator checklist contains too many steps")
    else stepsFrom 1 rawSteps
  | _ => .error (.valueError "operator checklist steps must be an array")

section Steps

variable (steps : List GoffyRomChecklistStepOutput)

def doneStepCount : ℕ := steps.countP (·.status = "DONE".toList)

def remainingSteps : List GoffyRomChecklistStepOutput := steps.filter (·.status ≠ "DONE".toList)

/-- The first step that is not blocked, or else the first one. -/
def nextStep : Option GoffyRomChecklistStepOutput :=
  ((remainingSteps steps).find? fun step => !step.blocked && step.status ≠ "BLOCKED".toList).or
    (remainingSteps steps).head?

def nextStepTitle : Str :=
  match nextStep steps with
  | none => "ROM-0 readiness review".toList
  | some step => step.title

def nextStepStatus : Str :=
  match nextStep steps with
  | none => "READY".toList
  | some step => step.status

/-- `next_action` of the checklist. -/
def nextStepAction : Except RomError Str :=
  match nextStep steps with
  | none => .ok "Review ROM-0 readiness manually before any destructive decision".toList
  | some step => boundedText ("Complete ".toList ++ step.title) maxNextActionLength

end Steps

/-! ### The answer -/

/-- `GoffyRomChecklistOutput`. The fields with one value only are left out. -/
structure GoffyRomChecklistOutput where
  status : Str
  generatedAt : Str
  checklistStatus : Str
  totalStepCount : ℕ
  doneStepCount : ℕ
  remainingStepCount : ℕ
  nextSteps : List GoffyRomChecklistStepOutput
  nextStepsTruncated : Bool
  blockerCount : ℕ
  blockers : List Str
  blockersTruncated : Bool
  nextStepTitle : Str
  nextStepStatus : Str
  nextAction : Str
  checkedOperatorChecklist : Bool

/-- The validation of `GoffyRomChecklistOutput(…)`. -/
def GoffyRomChecklistOutput.create (o : GoffyRomChecklistOutput) :
    Except RomError GoffyRomChecklistOutput := do
  validLiteral o.status ["available", "missing", "invalid"]
  let generatedAt ← validText o.generatedAt 64 maxNextActionLength
  let checklistStatus ← validWord o.checklistStatus checklistStatusValues maxNextActionLength
  validCount o.totalStepCount maxChecklistStepCount
  validCount o.doneStepCount maxChecklistStepCount
  validCount o.remainingStepCount maxChecklistStepCount
  validCount o.nextSteps.length maxChecklistSteps
  validCount o.blockerCount maxBlockerCount
  let blockers ← validBlockers o.blockers
  let nextStepTitle ← validText o.nextStepTitle maxChecklistStepTitleLength maxNextActionLength
  let nextStepStatus ← validWord o.nextStepStatus checklistNextStepStatusValues maxNextActionLength
  let nextAction ← validText o.nextAction maxNextActionLength maxNextActionLength
  return { o with generatedAt, checklistStatus, blockers, nextStepTitle, nextStepStatus, nextAction }

/-- The answer without a checklist: `_missing_checklist` and `_invalid_checklist`. -/
def withoutChecklist (status checklistStatus blocker title nextAction : String) :
    GoffyRomChecklistOutput where
  status := status.toList
  generatedAt := "unknown".toList
  checklistStatus := checklistStatus.toList
  totalStepCount := 0
  doneStepCount := 0
  remainingStepCount := 0
  nextSteps := []
  nextStepsTruncated := false
  blockerCount := 1
  blockers := [blocker.toList]
  blockersTruncated := false
  nextStepTitle := title.toList
  nextStepStatus := checklistStatus.toList
  nextAction := nextAction.toList
  checkedOperatorChecklist := false

/-- `_missing_checklist`. -/
def missingChecklist : Except RomError GoffyRomChecklistOutput :=
  (withoutChecklist "missing" "MISSING"
    "run the read-only ROM-0 refresh packet before relying on the checklist" "Refresh ROM-0 evidence"
    "Run the read-only ROM-0 refresh packet on the Mac").create

/-- `_invalid_checklist`. -/
def invalidChecklist (_summary : String) : Except RomError GoffyRomChecklistOutput :=
  (withoutChecklist "invalid" "INVALID"
    "repair ROM-0 checklist artifacts before any ROM readiness decision" "Repair ROM-0 checklist"
    "Regenerate the ROM-0 operator checklist before continuing").create

/-- What the handler has read of the checklist. -/
structure ChecklistEvidence where
  generatedAt : Str
  status : Str
  steps : List GoffyRomChecklistStepOutput
  /-- bounded, each once -/
  blockers : List Str

def checklistEvidence (operatorReport : Members) : Except Stop ChecklistEvidence := do
  if !isText (get operatorReport "schema_version") supportedOperatorSchema then
    throw (.returned "ROM-0 operator checklist schema is unsupported")
  if !isText (get operatorReport "destructive_actions") "withheld" then
    throw (.returned "ROM-0 operator checklist did not withhold destructive actions")
  let generatedAt ← raising (textValue (get operatorReport "generated_at") "unknown".toList 64)
  let status ← raising (checklistStatusValue (get operatorReport "status"))
  let steps ← raising (operatorSteps operatorReport)
  if steps = [] then throw (.returned "ROM-0 operator checklist contains no steps")
  let blockers ← raising ((stringItems (get operatorReport "blocked_by")).mapM fun item =>
    boundedText item maxBlockerLength)
  return { generatedAt, status, steps, blockers := blockers.eraseDups }

/-- The answer before it is validated. -/
def ChecklistEvidence.output (e : ChecklistEvidence) (nextAction : Str) : GoffyRomChecklistOutput where
  status := "available".toList
  generatedAt := e.generatedAt
  checklistStatus := e.status
  totalStepCount := e.steps.length
  doneStepCount := doneStepCount e.steps
  remainingStepCount := (remainingSteps e.steps).length
  nextSteps := (remainingSteps e.steps).take maxChecklistSteps
  nextStepsTruncated :=
    ((remainingSteps e.steps).take maxChecklistSteps).length < (remainingSteps e.steps).length
  blockerCount := e.blockers.length
  blockers := e.blockers.take maxBlockers
  blockersTruncated := maxBlockers < e.blockers.length
  nextStepTitle := nextStepTitle e.steps
  nextStepStatus := nextStepStatus e.steps
  nextAction := nextAction
  checkedOperatorChecklist := true

/-- `goffy_rom_checklist_snapshot`. -/
def goffyRomChecklistSnapshot (directoryIsSymlink : Bool) (operator : Artifact) :
    Except RomError GoffyRomChecklistOutput :=
  if directoryIsSymlink then
    invalidChecklist "ROM-0 validation directory is not a regular local directory"
  else match operator with
    | .missing => missingChecklist
    | .notRegular => invalidChecklist "ROM-0 operator checklist is not a regular local artifact"
    | .unreadable => invalidChecklist "ROM-0 operator checklist is unreadable or malformed"
    | .object operatorReport =>
      match checklistEvidence operatorReport with
      | .error (.returned summary) => invalidChecklist summary
      | .error (.raised _) =>
        invalidChecklist "ROM-0 operator checklist contains unsafe display text"
      | .ok evidence =>
        match nextStepAction evidence.steps >>= fun action => (evidence.output action).create with
        | .ok o => .ok o
        | .error _ => invalidChecklist "ROM-0 operator checklist contains unsafe display text"

end GoffyHub.Rom
