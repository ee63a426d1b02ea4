import GoffyOs.Phone.OcrText
import GoffyOs.Phone.PhoneToolTimeline
import GoffyOs.Phone.QrPayload
import GoffyOs.Phone.ViewModel

/-!
# Foreground reads as tasks (`recordForegroundQrScan`, `recordForegroundOcrRead`)

A scanned QR code and a text that was read are recorded as tasks whose events the view model makes
itself. The events are collected without a pause, and the last one declares the summary verified. It
is the timeline that looks at the summary: one that does not meet its contract fails the task
(`foreground_read_verified_iff`).
-/

namespace GoffyPhone

open Kotlin
open Python (UUID)

/-- A timeline that takes the results of two kinds of tools. -/
instance {γ δ : Type} [ToolResultContent γ] [ToolResultContent δ] : ToolResultContent (γ ⊕ δ) where
  type := Sum.elim ToolResultContent.type ToolResultContent.type
  matchesToolContract :=
    Sum.elim ToolResultContent.matchesToolContract ToolResultContent.matchesToolContract
  summaryText := Sum.elim ToolResultContent.summaryText ToolResultContent.summaryText

namespace GoffyViewModel

variable {γ : Type} [ToolResultContent γ]

/-- The texts of the events of a foreground read. -/
structure ForegroundTexts where
  accepted : Str
  completed : Str
  verification : Str
  checks : List Str

def qrScanTexts : ForegroundTexts where
  accepted := lit "Foreground QR scan accepted on this phone."
  completed := lit "CameraX and ML Kit returned one QR payload summary."
  verification := lit "QR payload summary matched the foreground phone-read contract."
  checks := lits ["foreground camera action", "no image persistence",
    "bounded privacy-preserving summary", "typed QR output"]

def ocrReadTexts : ForegroundTexts where
  accepted := lit "Foreground OCR read accepted on this phone."
  completed := lit "CameraX and ML Kit returned one OCR text summary."
  verification := lit "OCR text summary matched the foreground phone-read contract."
  checks := lits ["foreground camera action", "no image persistence",
    "bounded privacy-preserving text summary", "typed OCR output"]

/-- The progress events. -/
def ForegroundRead.progress (r : ForegroundRead) (stage : String) (sequence : Int32)
    (message : Str) : ToolProgress := ⟨r.toolName, .phone, lit stage, sequence, message⟩

/-- The events of a foreground read. -/
def ForegroundRead.events (r : ForegroundRead) (texts : ForegroundTexts) (content : γ) :
    List (ExecutionEvent γ) := [
  .starting 1,
  .ready,
  .progress (r.progress "accepted" 0 texts.accepted),
  .progress (r.progress "completed" 1 texts.completed),
  .result r.toolName .phone content,
  .verification true texts.verification texts.checks]

/-- The events, each at its reading of the clock. -/
def ForegroundRead.steps (r : ForegroundRead) (texts : ForegroundTexts) (content : γ)
    (clock : ℕ → ℤ) : List (ExecutionEvent γ × ℤ) :=
  (r.events texts content).zipIdx.map fun x => (x.1, clock x.2)

/-- `collectTask`, for events that come without a pause. -/
def collectTask (vm : GoffyViewModel γ) (taskId : UUID) (steps : List (ExecutionEvent γ × ℤ))
    (stoppedAt : ℤ) : GoffyViewModel γ :=
  (steps.foldl (fun vm step => vm.setUi (vm.uiState.applyTaskEvent taskId step.1 step.2))
    vm).executionStopped taskId stoppedAt

/-- A foreground read from its start to its end; `clock` are the readings of the clock, one for each
event. -/
def recordForegroundRead (vm : GoffyViewModel γ) (r : ForegroundRead) (texts : ForegroundTexts)
    (content : γ) (raw : Str) (rejectId taskId : UUID) (now : ℤ) (clock : ℕ → ℤ) :
    Except String (GoffyViewModel γ) := do
  let (next, _) ← vm.recordForeground r raw rejectId taskId now
  if vm.uiState.isBusy ∨ isBlank raw then return next
  else return next.collectTask taskId (r.steps texts content clock) (clock 6)

/-- `recordForegroundQrScan`. -/
def recordForegroundQrScan (isSpace : UInt16 → Bool) (parse : Str → Option Uri)
    (vm : GoffyViewModel (γ ⊕ PhoneQrRead)) (rawPayload : Str) (rejectId taskId : UUID) (now : ℤ)
    (clock : ℕ → ℤ) : Except String (GoffyViewModel (γ ⊕ PhoneQrRead)) :=
  vm.recordForegroundRead qrScan qrScanTexts
    (.inr (QrPayloadSummarizer.summarize isSpace parse rawPayload)) rawPayload rejectId taskId now
    clock

/-- `recordForegroundOcrRead`. -/
def recordForegroundOcrRead (engine : Regex.Engine UInt16) (vm : GoffyViewModel (γ ⊕ PhoneOcrRead))
    (rawText : Str) (rejectId taskId : UUID) (now : ℤ) (clock : ℕ → ℤ) :
    Except String (GoffyViewModel (γ ⊕ PhoneOcrRead)) :=
  vm.recordForegroundRead ocrRead ocrReadTexts (.inr (OcrTextSummarizer.summarize engine rawText))
    rawText rejectId taskId now clock

/-! ### The timeline of a collection -/

omit [ToolResultContent γ] in
theorem timeline_setUi (vm : GoffyViewModel γ) (uiState : GoffyUiState γ) :
    (vm.setUi uiState).uiState = uiState := rfl

theorem timeline_applyTaskEvent (s : GoffyUiState γ) (taskId : UUID) (event : ExecutionEvent γ)
    (now : ℤ) : (s.applyTaskEvent taskId event now).timeline = s.timeline.apply taskId event now := by
  unfold GoffyUiState.applyTaskEvent
  by_cases h : some taskId ≠ s.timeline.activeTaskId
  · rw [if_pos h]
    unfold TaskTimelineState.apply Timeline.onActive
    rw [if_pos h]
  · rw [if_neg h]

theorem timeline_collected (vm : GoffyViewModel γ) (taskId : UUID)
    (steps : List (ExecutionEvent γ × ℤ)) :
    (steps.foldl (fun vm step => vm.setUi (vm.uiState.applyTaskEvent taskId step.1 step.2))
      vm).uiState.timeline = drive vm.uiState.timeline taskId steps := by
  induction steps generalizing vm with
  | nil => rfl
  | cons step steps ih =>
    rw [List.foldl_cons, ih, timeline_setUi, timeline_applyTaskEvent]
    rfl

end GoffyViewModel

open GoffyViewModel

section Reads

variable {γ : Type} [ToolResultContent γ] {r : ForegroundRead} {texts : ForegroundTexts} {content : γ}
  {taskId : UUID}

/-- A task that is over ignores events. -/
theorem Over.apply {s : TaskTimelineState γ} {e : TaskTimelineEntry γ} (h : Over s taskId e)
    (event : ExecutionEvent γ) (now : ℤ) : s.apply taskId event now = s := by
  unfold TaskTimelineState.apply Timeline.onActive
  rw [if_pos (by rw [h.inactive]; simp)]

/-- The core of the entry when the result comes. -/
def completedCore (taskId : UUID) (plan : GoffyExecutionPlan) : Core γ :=
  { readyCore taskId plan with
    phase := .completedUnverified
    lastProgressSequence := some 1
    lastStartAttempt := some 1
    executionReady := true }

/-- The events before the result are in order, whatever follows them. -/
theorem ordered_foreground {phase : TaskPhase} {rest : List (ExecutionEvent γ)}
    (hrest : Ordered phase (completedCore taskId r.plan) rest) :
    Ordered phase (readyCore taskId r.plan) ([.starting 1, .ready,
      .progress (r.progress "accepted" 0 texts.accepted),
      .progress (r.progress "completed" 1 texts.completed)] ++ rest) := by
  refine .next (fun e he => core_starting he) rfl ?_
  refine .next (fun e he => core_ready he) rfl ?_
  refine .next (fun e he => core_progress_accepted he rfl rfl rfl rfl) rfl ?_
  exact .next (fun e he => core_progress_completed he rfl rfl rfl rfl) rfl hrest

/-- A summary of the tool's class is accepted exactly if it meets its contract. -/
def Accepts (r : ForegroundRead) (content : γ) : Prop :=
  ∀ e : TaskTimelineEntry γ, e.toolName = some r.toolName → e.executionTarget = .phone →
    e.permission = some .safe →
      e.acceptsContent content = ToolResultContent.matchesToolContract content

theorem accepts_of_contract {row : ToolContract}
    (hrow : (toolContracts.find? fun row => some row.toolName = some r.toolName) = some row)
    (htarget : row.executionTarget = .phone) (hauthority : row.authority = .safe)
    (hcontent : ToolResultContent.type content = row.content) (hchecked : row.checked = true) :
    Accepts r content := by
  intro e htool htarget' hpermission
  unfold TaskTimelineEntry.acceptsContent
  rw [htool, hrow]
  simp [htarget, htarget', hauthority, TaskTimelineEntry.hasAuthority, hpermission, hcontent, hchecked]

theorem acceptsContent_completed (haccepts : Accepts r content) {e : TaskTimelineEntry γ}
    (he : e.core = completedCore taskId r.plan) :
    e.acceptsContent content = ToolResultContent.matchesToolContract content :=
  haccepts e (congrArg Core.toolName he) (congrArg Core.executionTarget he)
    (congrArg Core.permission he)

theorem ordered_of_matches (haccepts : Accepts r content)
    (h : ToolResultContent.matchesToolContract content = true) :
    Ordered .verified (completedCore taskId r.plan) [.result r.toolName .phone content,
      .verification true texts.verification texts.checks] := by
  have hresult : ∀ e : TaskTimelineEntry γ, e.core = completedCore taskId r.plan →
      (e.applyEvent (.result r.toolName .phone content)).core =
        { (completedCore taskId r.plan : Core γ) with result := some content } := fun e he =>
    core_result he rfl rfl rfl rfl ((acceptsContent_completed haccepts he).trans h)
  refine .next hresult rfl (.last fun e he => ?_)
  exact phase_applyVerification (congrArg Core.phase he) (congrArg Core.result he)

/-- A result that does not meet its contract fails the task. -/
theorem ordered_of_not_matches (haccepts : Accepts r content)
    (h : ToolResultContent.matchesToolContract content = false) :
    Ordered .failed (completedCore taskId r.plan) [.result r.toolName .phone content] := by
  refine .last fun e he => ?_
  have haccepted := (acceptsContent_completed haccepts he).trans h
  simp only [TaskTimelineEntry.applyEvent, TaskTimelineEntry.applyResult]
  rw [if_pos (by simp [haccepted])]
  rfl

/-- The task of a foreground read comes to its end: verified if the summary meets its contract, and
failed else. -/
theorem over_drive_events {s : TaskTimelineState γ} {e : TaskTimelineEntry γ}
    (haccepts : Accepts r content) (h : Current s taskId e) (he : e.core = readyCore taskId r.plan)
    (clock : ℕ → ℤ) :
    ∃ e', Over (drive s taskId (r.steps texts content clock)) taskId e' ∧
      e'.phase =
        if ToolResultContent.matchesToolContract content then TaskPhase.verified else .failed := by
  cases hmatches : ToolResultContent.matchesToolContract content with
  | true =>
    have hevents : (r.steps texts content clock).map Prod.fst = r.events texts content := rfl
    have hordered : Ordered .verified e.core (r.events texts content) :=
      he ▸ ordered_foreground (ordered_of_matches haccepts hmatches)
    obtain ⟨-, pre, event, now, e', -, -, -, hover, hphase⟩ := drive_ordered rfl hevents hordered h
    exact ⟨_, hover, hphase⟩
  | false =>
    have hevents : (r.steps texts content clock).dropLast.map Prod.fst =
        (r.events texts content).dropLast := rfl
    have hordered : Ordered .failed e.core (r.events texts content).dropLast :=
      he ▸ ordered_foreground (ordered_of_not_matches haccepts hmatches)
    obtain ⟨-, pre, event, now, e', -, -, -, hover, hphase⟩ := drive_ordered rfl hevents hordered h
    refine ⟨_, ?_, hphase⟩
    -- the verification finds the task at its end
    have hlast : r.steps texts content clock = (r.steps texts content clock).dropLast ++
        [(.verification true texts.verification texts.checks, clock 5)] := rfl
    rw [hlast, drive, List.foldl_append]
    show Over ((drive s taskId _).apply taskId _ _) taskId _
    rw [hover.apply]
    exact hover

/-- **A foreground read ends verified exactly if its summary meets the contract.** -/
theorem foreground_read_verified_iff {vm : GoffyViewModel γ} {raw : Str}
    (haccepts : Accepts r content) (hidle : vm.uiState.isBusy = false) (hraw : isBlank raw = false)
    (rejectId taskId : UUID) (now : ℤ) (clock : ℕ → ℤ) :
    ∃ vm' e, vm.recordForegroundRead r texts content raw rejectId taskId now clock = .ok vm' ∧
      Over vm'.uiState.timeline taskId e ∧
      (e.phase = .verified ↔ ToolResultContent.matchesToolContract content = true) := by
  have hinactive : vm.uiState.timeline.activeTaskId = none := by
    simpa [GoffyUiState.isBusy] using hidle
  obtain ⟨timeline, hstart⟩ : ∃ timeline, vm.uiState.timeline.start taskId r.plan = .ok timeline := by
    rw [TaskTimelineState.start, if_neg (by simp [hinactive])]
    exact ⟨_, rfl⟩
  have hcurrent := current_start hstart
  obtain ⟨e, hover, hphase⟩ : ∃ e, Over (drive timeline taskId (r.steps texts content clock)) taskId
      e ∧ e.phase = _ := over_drive_events haccepts hcurrent rfl clock
  have hnext : vm.recordForeground r raw rejectId taskId now =
      .ok (vm.setUi { vm.uiState with executionTarget := .phone, timeline := timeline }, []) := by
    rw [recordForeground, hidle, hraw, executeTask, GoffyUiState.startTask, hstart]
    rfl
  have hsplit : ¬ (vm.uiState.isBusy = true ∨ isBlank raw = true) := by simp [hidle, hraw]
  have hrecorded : vm.recordForegroundRead r texts content raw rejectId taskId now clock =
      .ok ((vm.setUi { vm.uiState with executionTarget := .phone, timeline := timeline }).collectTask
        taskId (r.steps texts content clock) (clock 6)) := by
    rw [recordForegroundRead, hnext]
    simp only [bind, Except.bind]
    rw [if_neg hsplit]
    rfl
  refine ⟨_, e, hrecorded, ?_, ?_⟩
  · have htimeline := timeline_collected
      (vm.setUi { vm.uiState with executionTarget := .phone, timeline := timeline }) taskId
      (r.steps texts content clock)
    rw [timeline_setUi] at htimeline
    rw [collectTask, executionStopped, htimeline, if_neg (by rw [hover.inactive]; simp), htimeline]
    exact hover
  · rw [hphase]
    cases ToolResultContent.matchesToolContract content <;> simp

theorem accepts_qrScan (summary : PhoneQrRead) : Accepts qrScan (Sum.inr summary : γ ⊕ PhoneQrRead) :=
  accepts_of_contract (find_contract .qrRead) rfl rfl rfl rfl

theorem accepts_ocrRead (summary : PhoneOcrRead) :
    Accepts ocrRead (Sum.inr summary : γ ⊕ PhoneOcrRead) :=
  accepts_of_contract (find_contract .ocrRead) rfl rfl rfl rfl

/-- A read of a text ends verified exactly if the text can be summarised. -/
theorem ocr_read_verified_iff {engine : Regex.Engine UInt16}
    {vm : GoffyViewModel (γ ⊕ PhoneOcrRead)} {rawText : Str} (hidle : vm.uiState.isBusy = false)
    (hraw : isBlank rawText = false) (rejectId taskId : UUID) (now : ℤ) (clock : ℕ → ℤ) :
    ∃ vm' e, recordForegroundOcrRead engine vm rawText rejectId taskId now clock = .ok vm' ∧
      Over vm'.uiState.timeline taskId e ∧
      (e.phase = .verified ↔ OcrTextSummarizer.Summarizable engine rawText) := by
  obtain ⟨vm', e, hrecorded, hover, hphase⟩ := foreground_read_verified_iff (accepts_ocrRead
    (OcrTextSummarizer.summarize engine rawText)) hidle hraw rejectId taskId now clock
  exact ⟨vm', e, hrecorded, hover,
    hphase.trans OcrTextSummarizer.matchesToolContract_summarize_iff⟩

end Reads

open QrPayloadSummarizer

/-- **A scan ends verified exactly for a payload that can be summarised**: the summary of a payload
that is not blank meets its contract, and the scan ends verified, exactly then. -/
theorem qr_scan_verified_iff {γ : Type} [ToolResultContent γ] {isSpace : UInt16 → Bool}
    {parse : Str → Option Uri} (hparse : UriSyntax parse) {rawPayload : Str}
    (hraw : isBlank rawPayload = false) :
    ((summarize isSpace parse rawPayload).matchesToolContract = true ∧
      ∀ (vm : GoffyViewModel (γ ⊕ PhoneQrRead)) (rejectId taskId : UUID) (now : ℤ) (clock : ℕ → ℤ),
        vm.uiState.isBusy = false → ∃ vm' e,
          recordForegroundQrScan isSpace parse vm rawPayload rejectId taskId now clock = .ok vm' ∧
            Over vm'.uiState.timeline taskId e ∧ e.phase = .verified) ↔
      Summarizable isSpace parse (trim rawPayload) := by
  rw [← matchesToolContract_summarize_iff hparse hraw]
  refine and_iff_left_of_imp fun hmatches vm rejectId taskId now clock hidle => ?_
  obtain ⟨vm', e, hrecorded, hover, hphase⟩ := foreground_read_verified_iff (accepts_qrScan
    (summarize isSpace parse rawPayload)) hidle hraw rejectId taskId now clock
  exact ⟨vm', e, hrecorded, hover, hphase.2 hmatches⟩

/-- The `\s` of the JVM. -/
def jvmSpace : UInt16 → Bool := regexIsIn false .space

/-- A payload with two spaces in a row counts one character more than its preview has. -/
theorem two_spaces_not_verified :
    isBlank (lit "a  b") = false ∧ ∀ parse,
      summarize jvmSpace parse (lit "a  b") = {
          status := lit "available"
          contentType := lit "text"
          characterCount := 4
          characterCountTruncated := false
          preview := some (lit "a b")
          previewTruncated := false
          redacted := false } ∧
        (summarize jvmSpace parse (lit "a  b")).matchesToolContract = false :=
  ⟨by decide, fun _ => ⟨rfl, rfl⟩⟩

/-- A control character of the payload is in its preview. -/
example : ∀ parse, (summarize jvmSpace parse [0x61, 0x01, 0x62]).matchesToolContract = false :=
  fun _ => rfl

/-- A URL with a path and a query. -/
def pairingUrl : Str := lit "HTTPS://hub.goffy.local/pair?code=7"

/-- What `java.net.URI` reads of it. -/
def pairingUri : Uri where
  scheme := some (lit "HTTPS")
  rawUserInfo := none
  host := some (lit "hub.goffy.local")
  rawPath := some (lit "/pair")
  rawQuery := some (lit "code=7")
  rawFragment := none

def parsePairing (s : Str) : Option Uri := if s = pairingUrl then some pairingUri else none

theorem eq_of_parsePairing {s : Str} {uri : Uri} (h : parsePairing s = some uri) :
    s = pairingUrl ∧ uri = pairingUri := by
  unfold parsePairing at h
  split at h
  · next hs => exact ⟨hs, (Option.some.inj h).symm⟩
  · cases h

/-- Its scheme is ASCII and its host printable. -/
theorem pairingUri_ascii : (lit "HTTPS").all (fun c => decide (c < 0x80)) = true ∧
    (lit "hub.goffy.local").all (fun c => decide (0x21 ≤ c.toNat ∧ c.toNat ≤ 0x7e)) = true := by
  decide +kernel

theorem uriSyntax_parsePairing : UriSyntax parsePairing where
  no_space h := by
    obtain ⟨rfl, rfl⟩ := eq_of_parsePairing h
    decide +kernel
  authority h hscheme hhost _ := by
    obtain ⟨rfl, rfl⟩ := eq_of_parsePairing h
    cases hscheme
    cases hhost
    exact ⟨lit "/pair?code=7", rfl⟩
  scheme_ascii h hscheme c hc := by
    obtain ⟨rfl, rfl⟩ := eq_of_parsePairing h
    cases hscheme
    exact of_decide_eq_true (List.all_eq_true.1 pairingUri_ascii.1 c hc)
  host_printable h hhost c hc := by
    obtain ⟨rfl, rfl⟩ := eq_of_parsePairing h
    cases hhost
    exact of_decide_eq_true (List.all_eq_true.1 pairingUri_ascii.2 c hc)

/-- The URL ends verified, with its path and its query hidden. -/
theorem pairing_url_verified :
    (summarize jvmSpace parsePairing pairingUrl).preview =
        some (lit "https://hub.goffy.local/...") ∧
      Summarizable jvmSpace parsePairing (trim pairingUrl) ∧
      (((summarize jvmSpace parsePairing pairingUrl).matchesToolContract = true ∧
        ∀ (vm : GoffyViewModel (ContentType ⊕ PhoneQrRead)) (rejectId taskId : UUID) (now : ℤ)
          (clock : ℕ → ℤ), vm.uiState.isBusy = false → ∃ vm' e,
            recordForegroundQrScan jvmSpace parsePairing vm pairingUrl rejectId taskId now clock =
                .ok vm' ∧
              Over vm'.uiState.timeline taskId e ∧ e.phase = .verified) ↔
        Summarizable jvmSpace parsePairing (trim pairingUrl)) := by
  have hraw : isBlank pairingUrl = false := by decide
  refine ⟨by decide +kernel, ?_, qr_scan_verified_iff uriSyntax_parsePairing hraw⟩
  exact (matchesToolContract_summarize_iff uriSyntax_parsePairing hraw).1 (by decide +kernel)

end GoffyPhone
