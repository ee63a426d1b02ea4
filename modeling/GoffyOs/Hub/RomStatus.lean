import GoffyOs.Hub.RomText
import GoffyOs.Lib.Checks
import GoffyOs.Lib.Dict

/-!
# The tool `goffy.rom.status`

The Hub reads two JSON artifacts, the report of the last refresh and the operator's checklist, and says
whether ROM-0 is ready for a review. What it takes from them is checked text by text, and the answer is
checked again as a whole; where one of these fails, the answer is a fixed one.

`RomEvidence` is what the handler has read, and `RomEvidence.output` the answer that it builds.
-/

namespace GoffyHub.Rom

open Python

def latestRefreshSchema : Str := "goffy.rom0-refresh-report.v4".toList

def supportedRefreshSchemas : List Str :=
  ["goffy.rom0-refresh-report.v1".toList, "goffy.rom0-refresh-report.v2".toList,
    "goffy.rom0-refresh-report.v3".toList, latestRefreshSchema]

def supportedOperatorSchema : String := "goffy.rom0-operator-checklist.v1"

/-- `READY_FOR_ROM0_REVIEW`. -/
def readyForRom0Review : Str := "READY_FOR_ROM0_READINESS_REVIEW".toList

def unlockNotAcceptedBlocker : Str :=
  "manual OEM or Motorola unlock eligibility evidence is missing or not eligible".toList

/-- A file, as the handler finds it. -/
inductive Artifact
  | missing
  | notRegular
  /-- too large, no UTF-8, no JSON, or no object -/
  | unreadable
  | object (members : Members)

/-- `GoffyRomStatusOutput`. The fields with one value only are left out. -/
structure GoffyRomStatusOutput where
  status : Str
  summary : Str
  generatedAt : Str
  refreshSchemaVersion : Str
  refreshStatus : Str
  packetStatus : Str
  bootloaderVisibilityStatus : Str
  operatorChecklistStatus : Str
  installDecision : Str
  unlockGateStatus : Str
  stockRestoreGateStatus : Str
  gsiCandidateGateStatus : Str
  dsuPreflightGateStatus : Str
  fastbootGateStatus : Str
  romReady : Bool
  blockerCount : ℕ
  blockers : List Str
  blockersTruncated : Bool
  nextAction : Str
  staleReport : Bool
  checkedRefreshReport : Bool
  checkedOperatorChecklist : Bool

/-- The constructor of `GoffyRomStatusOutput`, with its validators. -/
def GoffyRomStatusOutput.create (o : GoffyRomStatusOutput) : Except RomError GoffyRomStatusOutput := do
  validLiteral o.status ["available", "missing", "invalid"]
  let summary ← validText o.summary maxSummaryLength maxSummaryLength
  let generatedAt ← validText o.generatedAt 64 maxSummaryLength
  let refreshSchemaVersion ← validText o.refreshSchemaVersion 64 maxSummaryLength
  let refreshStatus ← validText o.refreshStatus maxStatusLength maxSummaryLength
  let packetStatus ← validText o.packetStatus maxStatusLength maxSummaryLength
  let bootloaderVisibilityStatus ←
    validText o.bootloaderVisibilityStatus maxStatusLength maxSummaryLength
  let operatorChecklistStatus ← validText o.operatorChecklistStatus maxStatusLength maxSummaryLength
  validLiteral o.installDecision ["BLOCKED", "READY_FOR_MANUAL_REVIEW"]
  let unlockGateStatus ← validText o.unlockGateStatus maxStatusLength maxSummaryLength
  let stockRestoreGateStatus ← validText o.stockRestoreGateStatus maxStatusLength maxSummaryLength
  let gsiCandidateGateStatus ← validText o.gsiCandidateGateStatus maxStatusLength maxSummaryLength
  let dsuPreflightGateStatus ← validText o.dsuPreflightGateStatus maxStatusLength maxSummaryLength
  let fastbootGateStatus ← validText o.fastbootGateStatus maxStatusLength maxSummaryLength
  validCount o.blockerCount maxBlockerCount
  let blockers ← validBlockers o.blockers
  let nextAction ← validText o.nextAction maxNextActionLength maxSummaryLength
  return { o with
    summary, generatedAt, refreshSchemaVersion, refreshStatus, packetStatus,
    bootloaderVisibilityStatus, operatorChecklistStatus, unlockGateStatus, stockRestoreGateStatus,
    gsiCandidateGateStatus, dsuPreflightGateStatus, fastbootGateStatus, blockers, nextAction }

/-- The answer without evidence: `_missing_status` and `_invalid_status`. -/
def withoutEvidence (status summary schema gate blocker nextAction : String) : GoffyRomStatusOutput where
  status := status.toList
  summary := summary.toList
  generatedAt := "unknown".toList
  refreshSchemaVersion := schema.toList
  refreshStatus := gate.toList
  packetStatus := gate.toList
  bootloaderVisibilityStatus := gate.toList
  operatorChecklistStatus := gate.toList
  installDecision := "BLOCKED".toList
  unlockGateStatus := gate.toList
  stockRestoreGateStatus := gate.toList
  gsiCandidateGateStatus := gate.toList
  dsuPreflightGateStatus := gate.toList
  fastbootGateStatus := gate.toList
  romReady := false
  blockerCount := 1
  blockers := [blocker.toList]
  blockersTruncated := false
  nextAction := nextAction.toList
  staleReport := true
  checkedRefreshReport := false
  checkedOperatorChecklist := false

/-- `_missing_status`. -/
def missingStatus : Except RomError GoffyRomStatusOutput :=
  (withoutEvidence "missing" "ROM-0 refresh evidence is missing" "missing" "MISSING"
    "run the read-only ROM-0 refresh packet before relying on ROM status"
    "Run the read-only ROM-0 refresh packet on the Mac").create

/-- `_invalid_status`. -/
def invalidStatus (summary : String) : Except RomError GoffyRomStatusOutput :=
  (withoutEvidence "invalid" summary "invalid" "INVALID"
    "repair ROM-0 evidence artifacts before any ROM readiness decision"
    "Regenerate the ROM-0 packet before continuing").create

/-! ### The evidence -/

/-- The value is this text. -/
def isText (value : Option Json) (text : String) : Bool :=
  match value with
  | some (.str s) => s = text.toList
  | _ => false

/-- `value is True`. -/
def isTrue (value : Option Json) : Bool :=
  match value with
  | some (.bool b) => b
  | _ => false

/-- Why the handler stops: it returns an invalid status with this summary, or something is raised. -/
inductive Stop
  | returned (summary : String)
  | raised (e : RomError)

def raising {α : Type} (x : Except RomError α) : Except Stop α := x.mapError .raised

/-- One round of the loop of `_evidence_statuses`. -/
def addEvidence (statuses : Dict Str Str) (item : Json) : Except RomError (Dict Str Str) :=
  match item with
  | .object o =>
    match get o "name", get o "status" with
    | some (.str name), some (.str status) =>
      if name ≠ [] ∧ status ≠ [] then do
        let status ← boundedText status maxStatusLength
        return statuses.set name status
      else .ok statuses
    | _, _ => .ok statuses
  | _ => .ok statuses

/-- `_evidence_statuses`. -/
def evidenceStatuses (refreshReport : Members) : Except RomError (Dict Str Str) :=
  match get refreshReport "evidence_inputs" with
  | some (.array items) => items.foldlM addEvidence Dict.empty
  | _ => .ok Dict.empty

/-- `_gate_status_from_evidence`. -/
def gateStatusFromEvidence (statuses : Dict Str Str) (name : String) : Str :=
  match statuses.get? name.toList with
  | none => "MISSING".toList
  | some status =>
    if status = "LOADED".toList then "READY".toList
    else if status = "INVALID".toList then "INVALID".toList
    else "MISSING".toList

/-- `_unlock_gate_status`. -/
def unlockGateStatus (statuses : Dict Str Str) (refreshBlockers : List Str) : Str :=
  let status := gateStatusFromEvidence statuses "unlock_eligibility"
  if status = "READY".toList ∧ unlockNotAcceptedBlocker ∈ refreshBlockers then "BLOCKED".toList
  else status

/-- `_fastboot_gate_status`. -/
def fastbootGateStatus (statuses : Dict Str Str) (bootloaderStatus : Str) : Str :=
  if bootloaderStatus = "MANUAL_BOOTLOADER_VISIBLE".toList then "READY".toList
  else
    let status := gateStatusFromEvidence statuses "fastboot_evidence"
    if status = "READY".toList then "HOST_READY_ONLY".toList else status

/-- What the handler takes from the operator's checklist. -/
structure OperatorEvidence where
  status : Str
  ok : Bool
  blockers : List Str
  checked : Bool

def operatorEvidence : Artifact → Except Stop OperatorEvidence
  | .missing => .ok ⟨"MISSING".toList, false, [], false⟩
  | .notRegular => .error (.returned "ROM-0 operator checklist is not a regular local artifact")
  | .unreadable => .error (.returned "ROM-0 operator checklist is unreadable or malformed")
  | .object report =>
    if !isText (get report "schema_version") supportedOperatorSchema then
      .error (.returned "ROM-0 operator checklist schema is unsupported")
    else if !isText (get report "destructive_actions") "withheld" then
      .error (.returned "ROM-0 operator checklist did not withhold destructive actions")
    else do
      let status ← raising (stringValue (get report "status") "MISSING".toList)
      return ⟨status, isTrue (get report "ok"), stringItems (get report "blocked_by"), true⟩

/-- What the handler has read. -/
structure RomEvidence where
  schemaVersion : Str
  operator : OperatorEvidence
  refreshStatus : Str
  packetStatus : Str
  bootloaderStatus : Str
  generatedAt : Str
  rawBlockers : List Str
  statuses : Dict Str Str
  /-- the bounded ones, of the report and then of the checklist -/
  blockers : List Str
  refreshClaimsReady : Bool
  refreshSucceeded : Bool

/-- What `goffy_rom_status_snapshot` reads of the artifacts. -/
def romEvidence (refreshReport : Members) (operatorArtifact : Artifact) : Except Stop RomEvidence := do
  let schemaVersion ← raising (stringValue (get refreshReport "schema_version") "unknown".toList)
  if schemaVersion ∉ supportedRefreshSchemas then
    throw (.returned "ROM-0 refresh report schema is unsupported")
  if !isText (get refreshReport "destructive_actions") "withheld" then
    throw (.returned "ROM-0 refresh report did not withhold destructive actions")
  let operator ← operatorEvidence operatorArtifact
  let refreshStatus ← raising (stringValue (get refreshReport "status") "UNKNOWN".toList)
  let packetStatus ← raising (stringValue (get refreshReport "packet_status") "UNKNOWN".toList)
  let bootloaderStatus ←
    raising (stringValue (get refreshReport "bootloader_visibility_status") "MISSING".toList)
  let generatedAt ← raising (stringValue (get refreshReport "generated_at") "unknown".toList)
  let rawBlockers := stringItems (get refreshReport "blocked_by")
  let statuses ← raising (evidenceStatuses refreshReport)
  let blockers ←
    raising ((rawBlockers ++ operator.blockers).mapM fun item => boundedText item maxBlockerLength)
  return {
    schemaVersion, operator, refreshStatus, packetStatus, bootloaderStatus, generatedAt, rawBlockers
    statuses, blockers
    refreshClaimsReady := isTrue (get refreshReport "rom_ready")
    refreshSucceeded := isTrue (get refreshReport "refresh_succeeded") }

/-! ### The answer -/

/-- `_summary`. -/
def summary (romReady staleReport : Bool) (blockerCount : ℕ) (refreshStatus : Str) : Str :=
  if romReady then
    "ROM-0 is ready for a manual readiness review; destructive actions remain withheld".toList
  else if staleReport then "ROM-0 evidence exists but the refresh report is stale".toList
  else "ROM-0 is ".toList ++ refreshStatus ++ "; ".toList ++ natStr blockerCount ++
    " blocker(s) remain".toList

/-- `_next_action`. -/
def nextAction (blockers : List Str) (staleReport romReady : Bool) : Str :=
  if romReady then "Review ROM-0 readiness manually before any destructive decision".toList
  else if staleReport then "Regenerate the read-only ROM-0 action packet on the Mac".toList
  else match blockers with
    | blocker :: _ => blocker
    | [] =>
      "Collect the remaining ROM-0 evidence before any unlock, DSU, or flash decision".toList

namespace RomEvidence

variable (e : RomEvidence)

def staleReport : Bool := e.schemaVersion ≠ latestRefreshSchema

def unlockGate : Str := Rom.unlockGateStatus e.statuses e.rawBlockers
def stockRestoreGate : Str := gateStatusFromEvidence e.statuses "stock_restore"
def gsiCandidateGate : Str := gateStatusFromEvidence e.statuses "gsi_candidate"
def dsuPreflightGate : Str := gateStatusFromEvidence e.statuses "dsu_preflight"
def fastbootGate : Str := Rom.fastbootGateStatus e.statuses e.bootloaderStatus

def gateStatusesReady : Bool :=
  e.unlockGate = "READY".toList && e.stockRestoreGate = "READY".toList &&
    e.gsiCandidateGate = "READY".toList && e.dsuPreflightGate = "READY".toList &&
    e.fastbootGate = "READY".toList

/-- A blocker on a condition. -/
def blockerIf (condition : Bool) (blocker : Str) : List Str := if condition then [blocker] else []

/-- The blockers that the handler adds to those of the artifacts. -/
def addedBlockers : List Str :=
  blockerIf e.staleReport "ROM-0 refresh report is stale; regenerate the operator packet".toList ++
  (if e.refreshClaimsReady then
    blockerIf (!e.refreshSucceeded) "ROM-0 refresh did not complete successfully".toList ++
    blockerIf (e.refreshStatus ≠ readyForRom0Review)
      ("ROM-0 refresh status is ".toList ++ e.refreshStatus) ++
    blockerIf (e.packetStatus ≠ readyForRom0Review)
      ("ROM-0 packet status is ".toList ++ e.packetStatus)
  else []) ++
  (if !e.operator.checked then ["ROM-0 operator checklist evidence is missing".toList]
  else if e.operator.status ≠ readyForRom0Review then
    ["ROM-0 operator checklist status is ".toList ++ e.operator.status]
  else if !e.operator.ok then ["ROM-0 operator checklist readiness is not verified".toList]
  else []) ++
  blockerIf (e.refreshClaimsReady && !e.gateStatusesReady)
    "ROM-0 install gate statuses are incomplete".toList

def romReady : Bool :=
  e.refreshClaimsReady && e.refreshSucceeded && e.gateStatusesReady && !e.staleReport &&
    e.refreshStatus = readyForRom0Review && e.packetStatus = readyForRom0Review &&
    e.operator.checked && e.operator.status = readyForRom0Review && e.operator.ok &&
    (e.blockers ++ e.addedBlockers).isEmpty

def allBlockers : List Str :=
  let blockers := e.blockers ++ e.addedBlockers
  if !e.romReady && blockers.isEmpty then ["ROM-0 readiness evidence is incomplete".toList]
  else blockers

/-- `tuple(dict.fromkeys(blockers))`. -/
def uniqueBlockers : List Str := e.allBlockers.eraseDups

def visibleBlockers : List Str := e.uniqueBlockers.take maxBlockers

/-- The answer before it is validated. -/
def output : GoffyRomStatusOutput where
  status := "available".toList
  summary := summary e.romReady e.staleReport e.uniqueBlockers.length e.refreshStatus
  generatedAt := e.generatedAt
  refreshSchemaVersion := e.schemaVersion
  refreshStatus := e.refreshStatus
  packetStatus := e.packetStatus
  bootloaderVisibilityStatus := e.bootloaderStatus
  operatorChecklistStatus := e.operator.status
  installDecision := if e.romReady then "READY_FOR_MANUAL_REVIEW".toList else "BLOCKED".toList
  unlockGateStatus := e.unlockGate
  stockRestoreGateStatus := e.stockRestoreGate
  gsiCandidateGateStatus := e.gsiCandidateGate
  dsuPreflightGateStatus := e.dsuPreflightGate
  fastbootGateStatus := e.fastbootGate
  romReady := e.romReady
  blockerCount := e.uniqueBlockers.length
  blockers := e.visibleBlockers
  blockersTruncated := e.visibleBlockers.length < e.uniqueBlockers.length
  nextAction := nextAction e.visibleBlockers e.staleReport e.romReady
  staleReport := e.staleReport
  checkedRefreshReport := true
  checkedOperatorChecklist := e.operator.checked

end RomEvidence

/-- `goffy_rom_status_snapshot`. -/
def goffyRomStatusSnapshot (directoryIsSymlink : Bool) (refresh operator : Artifact) :
    Except RomError GoffyRomStatusOutput :=
  if directoryIsSymlink then
    invalidStatus "ROM-0 validation directory is not a regular local directory"
  else match refresh with
    | .missing => missingStatus
    | .notRegular => invalidStatus "ROM-0 refresh report is not a regular local artifact"
    | .unreadable => invalidStatus "ROM-0 refresh report is unreadable or malformed"
    | .object refreshReport =>
      match romEvidence refreshReport operator with
      | .error (.returned summary) => invalidStatus summary
      | .error (.raised _) =>
        invalidStatus "ROM-0 evidence artifacts contain unsafe display text"
      | .ok evidence =>
        match evidence.output.create with
        | .ok o => .ok o
        | .error _ => invalidStatus "ROM-0 evidence artifacts contain invalid status fields"

/-! ### Answers -/

section Answers

variable {o₀ o : GoffyRomStatusOutput} {e : RomEvidence}

/-- An answer and what its validators make of it. -/
structure Created (o₀ o : GoffyRomStatusOutput) : Prop where
  status : o₀.status = o.status
  summary : validText o₀.summary maxSummaryLength maxSummaryLength = .ok o.summary
  generatedAt : validText o₀.generatedAt 64 maxSummaryLength = .ok o.generatedAt
  refreshSchemaVersion :
    validText o₀.refreshSchemaVersion 64 maxSummaryLength = .ok o.refreshSchemaVersion
  refreshStatus : validText o₀.refreshStatus maxStatusLength maxSummaryLength = .ok o.refreshStatus
  packetStatus : validText o₀.packetStatus maxStatusLength maxSummaryLength = .ok o.packetStatus
  bootloaderVisibilityStatus : validText o₀.bootloaderVisibilityStatus maxStatusLength
    maxSummaryLength = .ok o.bootloaderVisibilityStatus
  operatorChecklistStatus : validText o₀.operatorChecklistStatus maxStatusLength maxSummaryLength =
    .ok o.operatorChecklistStatus
  installDecision : o₀.installDecision = o.installDecision
  unlockGateStatus : validText o₀.unlockGateStatus maxStatusLength maxSummaryLength =
    .ok o.unlockGateStatus
  stockRestoreGateStatus : validText o₀.stockRestoreGateStatus maxStatusLength maxSummaryLength =
    .ok o.stockRestoreGateStatus
  gsiCandidateGateStatus : validText o₀.gsiCandidateGateStatus maxStatusLength maxSummaryLength =
    .ok o.gsiCandidateGateStatus
  dsuPreflightGateStatus : validText o₀.dsuPreflightGateStatus maxStatusLength maxSummaryLength =
    .ok o.dsuPreflightGateStatus
  fastbootGateStatus : validText o₀.fastbootGateStatus maxStatusLength maxSummaryLength =
    .ok o.fastbootGateStatus
  romReady : o₀.romReady = o.romReady
  blockerCount : validCount o₀.blockerCount maxBlockerCount = .ok () ∧ o₀.blockerCount = o.blockerCount
  blockers : validBlockers o₀.blockers = .ok o.blockers
  blockersTruncated : o₀.blockersTruncated = o.blockersTruncated
  nextAction : validText o₀.nextAction maxNextActionLength maxSummaryLength = .ok o.nextAction
  staleReport : o₀.staleReport = o.staleReport
  checkedRefreshReport : o₀.checkedRefreshReport = o.checkedRefreshReport
  checkedOperatorChecklist : o₀.checkedOperatorChecklist = o.checkedOperatorChecklist

theorem created_of_create (h : o₀.create = .ok o) : Created o₀ o := by
  unfold GoffyRomStatusOutput.create at h
  simp only [Checks.bind_eq_ok] at h
  obtain ⟨_, -, summary, h1, generatedAt, h2, schema, h3, refreshStatus, h4, packetStatus, h5,
    bootloader, h6, operator, h7, _, -, unlock, h8, stock, h9, gsi, h10, dsu, h11, fastboot, h12,
    ⟨⟩, h13, blockers, h14, nextAction, h15, h⟩ := h
  obtain rfl := Except.ok.inj h
  exact ⟨rfl, h1, h2, h3, h4, h5, h6, h7, rfl, h8, h9, h10, h11, h12, rfl, ⟨h13, rfl⟩, h14, rfl, h15,
    rfl, rfl, rfl⟩

/-- What has to be behind a ready ROM. -/
structure GoffyRomStatusOutput.Ready (o : GoffyRomStatusOutput) : Prop where
  status : o.status = "available".toList
  blockerCount : o.blockerCount = 0
  staleReport : o.staleReport = false
  checkedRefreshReport : o.checkedRefreshReport = true
  checkedOperatorChecklist : o.checkedOperatorChecklist = true
  refreshStatus : o.refreshStatus = readyForRom0Review
  packetStatus : o.packetStatus = readyForRom0Review
  operatorChecklistStatus : o.operatorChecklistStatus = readyForRom0Review
  unlockGateStatus : o.unlockGateStatus = "READY".toList
  stockRestoreGateStatus : o.stockRestoreGateStatus = "READY".toList
  gsiCandidateGateStatus : o.gsiCandidateGateStatus = "READY".toList
  dsuPreflightGateStatus : o.dsuPreflightGateStatus = "READY".toList
  fastbootGateStatus : o.fastbootGateStatus = "READY".toList

/-- How the fields of an answer fit together. -/
structure GoffyRomStatusOutput.Consistent (o : GoffyRomStatusOutput) : Prop where
  status : o.status ∈ ["available".toList, "missing".toList, "invalid".toList]
  installDecision :
    o.installDecision = if o.romReady then "READY_FOR_MANUAL_REVIEW".toList else "BLOCKED".toList
  blockers_length : o.blockers.length ≤ o.blockerCount
  blockersTruncated : o.blockersTruncated = decide (o.blockers.length < o.blockerCount)
  ready : o.romReady = true → o.Ready
  notReady : o.romReady = false → 0 < o.blockerCount

theorem validText_ready : validText readyForRom0Review maxStatusLength maxSummaryLength =
    .ok readyForRom0Review := by decide +kernel

theorem validText_gateReady : validText "READY".toList maxStatusLength maxSummaryLength =
    .ok "READY".toList := by decide +kernel

/-- The validators leave a ready answer as it is. -/
theorem Created.ready (h : Created o₀ o) (hready : o₀.Ready) : o.Ready where
  status := h.status.symm.trans hready.status
  blockerCount := h.blockerCount.2.symm.trans hready.blockerCount
  staleReport := h.staleReport.symm.trans hready.staleReport
  checkedRefreshReport := h.checkedRefreshReport.symm.trans hready.checkedRefreshReport
  checkedOperatorChecklist := h.checkedOperatorChecklist.symm.trans hready.checkedOperatorChecklist
  refreshStatus := by
    have hvalid := h.refreshStatus
    rw [hready.refreshStatus, validText_ready] at hvalid
    exact (Except.ok.inj hvalid).symm
  packetStatus := by
    have hvalid := h.packetStatus
    rw [hready.packetStatus, validText_ready] at hvalid
    exact (Except.ok.inj hvalid).symm
  operatorChecklistStatus := by
    have hvalid := h.operatorChecklistStatus
    rw [hready.operatorChecklistStatus, validText_ready] at hvalid
    exact (Except.ok.inj hvalid).symm
  unlockGateStatus := by
    have hvalid := h.unlockGateStatus
    rw [hready.unlockGateStatus, validText_gateReady] at hvalid
    exact (Except.ok.inj hvalid).symm
  stockRestoreGateStatus := by
    have hvalid := h.stockRestoreGateStatus
    rw [hready.stockRestoreGateStatus, validText_gateReady] at hvalid
    exact (Except.ok.inj hvalid).symm
  gsiCandidateGateStatus := by
    have hvalid := h.gsiCandidateGateStatus
    rw [hready.gsiCandidateGateStatus, validText_gateReady] at hvalid
    exact (Except.ok.inj hvalid).symm
  dsuPreflightGateStatus := by
    have hvalid := h.dsuPreflightGateStatus
    rw [hready.dsuPreflightGateStatus, validText_gateReady] at hvalid
    exact (Except.ok.inj hvalid).symm
  fastbootGateStatus := by
    have hvalid := h.fastbootGateStatus
    rw [hready.fastbootGateStatus, validText_gateReady] at hvalid
    exact (Except.ok.inj hvalid).symm

theorem ready_output (h : e.romReady = true) : e.output.Ready := by
  have hready := h
  simp only [RomEvidence.romReady, RomEvidence.gateStatusesReady, Bool.and_eq_true,
    decide_eq_true_eq, and_assoc, Bool.not_eq_true', List.isEmpty_iff] at hready
  obtain ⟨-, -, hunlock, hstock, hgsi, hdsu, hfastboot, hstale, hrefresh, hpacket, hchecked,
    hoperator, -, hnone⟩ := hready
  have hunique : e.uniqueBlockers = [] := by
    unfold RomEvidence.uniqueBlockers RomEvidence.allBlockers
    dsimp only
    rw [hnone, h]
    rfl
  exact {
    status := rfl
    blockerCount := by
      show e.uniqueBlockers.length = 0
      rw [hunique]
      rfl
    staleReport := hstale
    checkedRefreshReport := rfl
    checkedOperatorChecklist := hchecked
    refreshStatus := hrefresh
    packetStatus := hpacket
    operatorChecklistStatus := hoperator
    unlockGateStatus := hunlock
    stockRestoreGateStatus := hstock
    gsiCandidateGateStatus := hgsi
    dsuPreflightGateStatus := hdsu
    fastbootGateStatus := hfastboot }

theorem consistent_output (e : RomEvidence) : e.output.Consistent where
  status := List.mem_cons_self
  installDecision := rfl
  blockers_length := List.length_take_le' _ _
  blockersTruncated := rfl
  ready := ready_output
  notReady hnot := by
    have hnot' : e.romReady = false := hnot
    show 0 < e.uniqueBlockers.length
    rw [List.length_pos_iff]
    intro hnil
    have hall : e.allBlockers = [] := by
      refine List.eq_nil_iff_forall_not_mem.2 fun b hb => ?_
      have hmem : b ∈ e.uniqueBlockers := List.mem_eraseDups.2 hb
      rw [hnil] at hmem
      exact absurd hmem List.not_mem_nil
    unfold RomEvidence.allBlockers at hall
    dsimp only at hall
    split at hall
    · cases hall
    case isFalse hif =>
      rw [hnot', hall] at hif
      exact hif rfl

end Answers

/-- A refresh report that says that the ROM is ready. -/
def demoRefreshReport : Members := [
  ("schema_version".toList, .str latestRefreshSchema),
  ("destructive_actions".toList, .str "withheld".toList),
  ("status".toList, .str readyForRom0Review),
  ("packet_status".toList, .str readyForRom0Review),
  ("bootloader_visibility_status".toList, .str "MANUAL_BOOTLOADER_VISIBLE".toList),
  ("generated_at".toList, .str "2026-07-22T15:00:01Z".toList),
  ("rom_ready".toList, .bool true),
  ("refresh_succeeded".toList, .bool true),
  ("evidence_inputs".toList, .array (["unlock_eligibility", "stock_restore", "gsi_candidate",
    "dsu_preflight"].map fun name =>
      .object [("name".toList, .str name.toList), ("status".toList, .str "LOADED".toList)]))]

/-- An operator's checklist without blockers. -/
def demoOperatorReport : Members := [
  ("schema_version".toList, .str supportedOperatorSchema.toList),
  ("destructive_actions".toList, .str "withheld".toList),
  ("status".toList, .str readyForRom0Review),
  ("ok".toList, .bool true)]

/-! ### The texts of the evidence -/

/-- The texts of an artifact are of ASCII. -/
def Artifact.IsAscii : Artifact → Prop
  | .object members => MembersAscii members
  | _ => True

/-- The texts of the evidence are of ASCII. -/
structure RomEvidence.IsAscii (e : RomEvidence) : Prop where
  schemaVersion : Ascii e.schemaVersion
  operatorStatus : Ascii e.operator.status
  refreshStatus : Ascii e.refreshStatus
  packetStatus : Ascii e.packetStatus
  bootloaderStatus : Ascii e.bootloaderStatus
  generatedAt : Ascii e.generatedAt
  blockers : ∀ b ∈ e.blockers, Ascii b

section Ascii

variable {α : Type} {e : RomEvidence} {refreshReport : Members} {operator : Artifact}

theorem raising_eq_ok {x : Except RomError α} {a : α} : raising x = .ok a ↔ x = .ok a := by
  cases x with
  | error e =>
    constructor
    · intro h
      cases h
    · intro h
      cases h
  | ok b => exact ⟨fun h => congrArg _ (Except.ok.inj h), fun h => congrArg _ (Except.ok.inj h)⟩

theorem ascii_operatorEvidence (hoperator : operator.IsAscii) {o : OperatorEvidence}
    (h : operatorEvidence operator = .ok o) :
    Ascii o.status ∧ ∀ b ∈ o.blockers, Ascii b := by
  unfold operatorEvidence at h
  split at h
  · obtain rfl := Except.ok.inj h
    exact ⟨by decide, fun b hb => absurd hb List.not_mem_nil⟩
  · cases h
  · cases h
  case h_4 report =>
    split at h
    · cases h
    split at h
    · cases h
    obtain ⟨status, hstatus, h⟩ := Checks.bind_eq_ok.1 h
    obtain rfl := Except.ok.inj h
    exact ⟨ascii_textValue (fun j hj => MembersAscii.get hoperator hj) (by decide)
      (raising_eq_ok.1 hstatus), ascii_stringItems fun j hj => MembersAscii.get hoperator hj⟩

theorem ascii_romEvidence (hrefresh : MembersAscii refreshReport) (hoperator : operator.IsAscii)
    (h : romEvidence refreshReport operator = .ok e) : e.IsAscii := by
  unfold romEvidence at h
  simp only [Checks.bind_eq_ok, Checks.throw_bind_eq_ok, raising_eq_ok] at h
  obtain ⟨schemaVersion, hschema, -, -, o, ho, refreshStatus, hrefreshStatus, packetStatus, hpacket,
    bootloaderStatus, hbootloader, generatedAt, hgenerated, statuses, -, blockers, hblockers, h⟩ := h
  obtain rfl := Except.ok.inj h
  obtain ⟨hstatus, hoperatorBlockers⟩ := ascii_operatorEvidence hoperator ho
  have hget : ∀ key, ∀ j ∈ get refreshReport key, JsonAscii j := fun key j hj => hrefresh.get hj
  exact {
    schemaVersion := ascii_textValue (hget _) (by decide) hschema
    operatorStatus := hstatus
    refreshStatus := ascii_textValue (hget _) (by decide) hrefreshStatus
    packetStatus := ascii_textValue (hget _) (by decide) hpacket
    bootloaderStatus := ascii_textValue (hget _) (by decide) hbootloader
    generatedAt := ascii_textValue (hget _) (by decide) hgenerated
    blockers := fun b hb => by
      obtain ⟨item, hitem, hb⟩ := Checks.exists_of_mem_mapM hblockers hb
      refine ascii_boundedText ?_ hb
      rcases List.mem_append.1 hitem with hitem | hitem
      · exact ascii_stringItems (hget _) item hitem
      · exact hoperatorBlockers item hitem }

end Ascii

end GoffyHub.Rom
