import GoffyOs.Phone.PhoneToolGateway
import GoffyOs.Phone.TaskTimelineRuns

/-!
# What the phone's gateway makes of a task

The gateway validates a result with one predicate per tool, and the timeline accepts it with another.
Here the two are put together: the events that a collection has emitted are applied to a timeline in
which its task was started (and approved).

* `Ordered` is a sequence of events that an entry takes in order, without ending before the last one;
* `accepts_of_validate`: what the gateway validates, the timeline accepts;
* `gateway_drives_task`: every collection that ran to its end brings its task to its end, with the
  phase that its outcome asks for.
-/

namespace GoffyPhone

open Kotlin
open Python (UUID)
open Recent (takeLast)

/-! ### Timelines driven by events -/

section Drive

variable {γ : Type} [ToolResultContent γ] {s : TaskTimelineState γ} {taskId : UUID}
  {e : TaskTimelineEntry γ}

/-- An event reaches an entry. -/
def TaskTimelineEntry.receive (e : TaskTimelineEntry γ) (step : ExecutionEvent γ × ℤ) :
    TaskTimelineEntry γ :=
  (e.applyEvent step.1).withTerminalTimestamp step.2

/-- Events are applied to a task, each at its time. -/
def drive (s : TaskTimelineState γ) (taskId : UUID) (steps : List (ExecutionEvent γ × ℤ)) :
    TaskTimelineState γ :=
  steps.foldl (fun s step => s.apply taskId step.1 step.2) s

/-- The task is the active one, with this entry, which has not come to its end. -/
structure Current (s : TaskTimelineState γ) (taskId : UUID) (e : TaskTimelineEntry γ) : Prop where
  active : s.activeTaskId = some taskId
  last : IsLast taskId s.entries e
  running : e.phase.terminal = false

/-- The task has come to its end, with this entry. -/
structure Over (s : TaskTimelineState γ) (taskId : UUID) (e : TaskTimelineEntry γ) : Prop where
  inactive : s.activeTaskId = none
  last : IsLast taskId s.entries e
  terminal : e.phase.terminal = true

omit [ToolResultContent γ] in
/-- A change of the active task's entry. -/
theorem Current.change (h : Current s taskId e) (f : TaskTimelineEntry γ → TaskTimelineEntry γ)
    (hid : (f e).id = e.id) :
    ((f e).phase.terminal = false →
      Current (s.onActive taskId fun current => some (f current)) taskId (f e)) ∧
    ((f e).phase.terminal = true →
      Over (s.onActive taskId fun current => some (f current)) taskId (f e)) := by
  have hactive : ¬ some taskId ≠ s.activeTaskId := by simp [h.active]
  unfold Timeline.onActive
  rw [if_neg hactive]
  rcases onLast_cases s { s with activeTaskId := none } taskId
      (fun index x => (some (f x)).map (s.replaceEntry index)) with
    ⟨hnone, _⟩ | ⟨pre, e₁, post, hentries, htask, hpost, heq⟩
  · exact (hnone e h.last.mem h.last.id).elim
  have he₁ : e₁ = e := IsLast.unique ⟨pre, post, hentries, htask, hpost⟩ h.last
  subst he₁
  have hset : s.entries.set pre.length (f e₁) = pre ++ f e₁ :: post := by
    rw [hentries]
    simp
  have hlast : IsLast taskId (s.entries.set pre.length (f e₁)) (f e₁) :=
    ⟨pre, post, hset, hid.trans htask, hpost⟩
  rw [heq]
  refine ⟨fun hopen => ⟨?_, hlast, hopen⟩, fun hterminal => ⟨?_, hlast, hterminal⟩⟩
  · exact (if_neg (by simp [Entry.entry, hopen])).trans h.active
  · exact if_pos hterminal

theorem id_receive (e : TaskTimelineEntry γ) (step : ExecutionEvent γ × ℤ) :
    (e.receive step).id = e.id := by
  have htime := congrArg Core.id (core_withTerminalTimestamp (e.applyEvent step.1) step.2)
  exact htime.trans (id_applyEvent e step.1)

theorem Current.apply (h : Current s taskId e) (step : ExecutionEvent γ × ℤ) :
    ((e.receive step).phase.terminal = false →
      Current (s.apply taskId step.1 step.2) taskId (e.receive step)) ∧
    ((e.receive step).phase.terminal = true →
      Over (s.apply taskId step.1 step.2) taskId (e.receive step)) :=
  h.change (·.receive step) (id_receive e step)

/-! ### Events in order -/

/-- Every entry with the core `c` takes the events in order, stays open up to the last one and has
this phase after it. -/
inductive Ordered (phase : TaskPhase) : Core γ → List (ExecutionEvent γ) → Prop
  | last {c : Core γ} {event : ExecutionEvent γ}
      (h : ∀ e : TaskTimelineEntry γ, e.core = c → (e.applyEvent event).phase = phase) :
      Ordered phase c [event]
  | next {c c' : Core γ} {event : ExecutionEvent γ} {events : List (ExecutionEvent γ)}
      (h : ∀ e : TaskTimelineEntry γ, e.core = c → (e.applyEvent event).core = c')
      (hopen : c'.phase.terminal = false) (hrest : Ordered phase c' events) :
      Ordered phase c (event :: events)

/-- Events in order drive the task: it is active up to the last event, which ends it. -/
theorem drive_ordered {steps : List (ExecutionEvent γ × ℤ)} {events : List (ExecutionEvent γ)}
    {phase : TaskPhase} (hterminal : phase.terminal = true)
    (hsteps : steps.map Prod.fst = events) (hordered : Ordered phase e.core events)
    (h : Current s taskId e) :
    (∀ pre post, steps = pre ++ post → post ≠ [] → ∃ e', Current (drive s taskId pre) taskId e') ∧
      ∃ pre event now e', steps = pre ++ [(event, now)] ∧ events.getLast? = some event ∧
        Current (drive s taskId pre) taskId e' ∧
        Over (drive s taskId steps) taskId (e'.receive (event, now)) ∧
        (e'.receive (event, now)).phase = phase := by
  generalize hc : e.core = c at hordered
  induction hordered generalizing s e steps with
  | @last c event hlast =>
    obtain ⟨⟨event', now⟩, rfl, hevent⟩ := List.map_eq_singleton_iff.1 hsteps
    cases hevent
    have hphase : (e.receive (event', now)).phase = phase := by
      rw [← hlast e hc]
      exact congrArg Core.phase (core_withTerminalTimestamp (e.applyEvent event') now)
    refine ⟨?_, [], event', now, e, rfl, rfl, h, ?_, hphase⟩
    · intro pre post heq hpost
      cases pre with
      | nil => exact ⟨e, h⟩
      | cons x pre =>
        obtain ⟨-, hnil⟩ := List.cons.inj heq
        exact (hpost (List.append_eq_nil_iff.1 hnil.symm).2).elim
    · refine (h.apply (event', now)).2 ?_
      rw [hphase, hterminal]
  | @next c c' event events hnext hopen hrest ih =>
    cases steps with
    | nil => cases hsteps
    | cons step steps =>
    obtain ⟨hevent, hrest'⟩ := List.cons.inj hsteps
    have hcore : (e.receive step).core = c' := by
      rw [← hnext e hc, ← hevent]
      exact core_withTerminalTimestamp (e.applyEvent step.1) step.2
    have hphase : (e.receive step).phase.terminal = false := by
      rw [show (e.receive step).phase = c'.phase from congrArg Core.phase hcore, hopen]
    have hcurrent : Current (s.apply taskId step.1 step.2) taskId (e.receive step) :=
      (h.apply step).1 hphase
    obtain ⟨hinit, pre, event', now, e', rfl, hlast, hbefore, hover, hend⟩ :=
      ih hrest' hcurrent hcore
    refine ⟨?_, step :: pre, event', now, e', rfl, ?_, hbefore, hover, hend⟩
    · intro pre' post heq hpost
      cases pre' with
      | nil => exact ⟨e, h⟩
      | cons x pre' =>
        obtain ⟨rfl, hrest⟩ := List.cons.inj heq
        exact hinit pre' post hrest hpost
    · rw [List.getLast?_cons, hlast]
      rfl

/-! ### A task that is ready to be executed -/

/-- The task is started and, where its plan asks for it, shown for approval and approved. -/
def prepare (s : TaskTimelineState γ) (taskId : UUID) (plan : GoffyExecutionPlan) (summary : Str)
    (shownAt approvedAt : ℤ) : Except String (TaskTimelineState γ) := do
  let started ← s.start taskId plan
  if plan.permission = .confirm then
    return (started.awaitApproval taskId summary shownAt).grantApproval taskId approvedAt
  else return started

/-- The entry of a task that is ready. -/
def readyCore (taskId : UUID) (plan : GoffyExecutionPlan) : Core γ where
  id := taskId
  executionTarget := plan.executionTarget
  toolName := some plan.toolName
  phase := .routing
  result := none
  lastProgressSequence := none
  lastStartAttempt := none
  executionReady := false
  permission := some plan.permission
  approvalGranted := plan.permission = .confirm

omit [ToolResultContent γ] in
theorem current_start {s' : TaskTimelineState γ} {plan : GoffyExecutionPlan}
    (h : s.start taskId plan = .ok s') :
    Current s' taskId (TaskTimelineEntry.started taskId plan) := by
  unfold TaskTimelineState.start at h
  split at h
  · cases h
  · cases h
    refine ⟨rfl, ?_, rfl⟩
    unfold Timeline.add
    rw [show maxTimelineItems = 49 + 1 from rfl, Recent.takeLast_concat]
    exact isLast_concat.2 (Or.inl ⟨rfl, rfl⟩)

omit [ToolResultContent γ] in
theorem Current.await (h : Current s taskId e) (hphase : e.phase = .routing)
    (hpermission : e.permission = some .confirm) (hgranted : e.approvalGranted = false)
    (summary : Str) (now : ℤ) : ∃ e', Current (s.awaitApproval taskId summary now) taskId e' ∧
      e'.core = { e.core with phase := .awaitingApproval } := by
  have hawaited : (e.awaitedApproval summary).core = { e.core with phase := .awaitingApproval } := by
    unfold TaskTimelineEntry.awaitedApproval
    rw [if_pos ⟨hphase, hpermission, hgranted⟩]
    rfl
  have hcore := (core_withTerminalTimestamp (e.awaitedApproval summary) now).trans hawaited
  refine ⟨_, (h.change (fun current => (current.awaitedApproval summary).withTerminalTimestamp now)
    (congrArg Core.id hcore)).1 ?_, hcore⟩
  rw [show ((e.awaitedApproval summary).withTerminalTimestamp now).phase = .awaitingApproval from
    congrArg Core.phase hcore]
  rfl

omit [ToolResultContent γ] in
theorem Current.grant (h : Current s taskId e) (hphase : e.phase = .awaitingApproval)
    (hpermission : e.permission = some .confirm) (hgranted : e.approvalGranted = false)
    (now : ℤ) : ∃ e', Current (s.grantApproval taskId now) taskId e' ∧
      e'.core = { e.core with phase := .routing, approvalGranted := true } := by
  have hgrant : e.grantedApproval.core =
      { e.core with phase := .routing, approvalGranted := true } := by
    unfold TaskTimelineEntry.grantedApproval
    rw [if_pos ⟨hphase, hpermission, hgranted⟩]
    rfl
  have hcore := (core_withTerminalTimestamp e.grantedApproval now).trans hgrant
  refine ⟨_, (h.change (fun current => current.grantedApproval.withTerminalTimestamp now)
    (congrArg Core.id hcore)).1 ?_, hcore⟩
  rw [show (e.grantedApproval.withTerminalTimestamp now).phase = .routing from
    congrArg Core.phase hcore]
  rfl

omit [ToolResultContent γ] in
theorem current_prepare {s' : TaskTimelineState γ} {plan : GoffyExecutionPlan} {summary : Str}
    {shownAt approvedAt : ℤ} (h : prepare s taskId plan summary shownAt approvedAt = .ok s') :
    ∃ e, Current s' taskId e ∧ e.core = readyCore taskId plan := by
  unfold prepare at h
  obtain ⟨started, hstart, h⟩ := except_bind_eq_ok.1 h
  have hcurrent := current_start hstart
  split at h
  · next hconfirm =>
    cases h
    have hpermission : (TaskTimelineEntry.started (γ := γ) taskId plan).permission =
        some .confirm := congrArg some hconfirm
    obtain ⟨e₁, h₁, hcore₁⟩ := hcurrent.await rfl hpermission rfl summary shownAt
    obtain ⟨e₂, h₂, hcore₂⟩ := h₁.grant (congrArg Core.phase hcore₁)
      ((congrArg Core.permission hcore₁).trans hpermission) (congrArg Core.approvalGranted hcore₁)
      approvedAt
    refine ⟨e₂, h₂, ?_⟩
    rw [hcore₂, hcore₁]
    simp [readyCore, TaskTimelineEntry.core, TaskTimelineEntry.started, hconfirm]
  · next hconfirm =>
    cases h
    refine ⟨_, hcurrent, ?_⟩
    simp [readyCore, TaskTimelineEntry.core, TaskTimelineEntry.started, hconfirm]

/-! ### Events in the order of an execution -/

section Order

variable {plan : GoffyExecutionPlan}

theorem core_starting (he : e.core = readyCore taskId plan) : (e.applyEvent (.starting 1)).core =
    { readyCore taskId plan with phase := .preparing, lastStartAttempt := some 1 } := by
  have hphase : e.phase = .routing := congrArg Core.phase he
  have hstart : e.lastStartAttempt = none := congrArg Core.lastStartAttempt he
  have hprogress : e.lastProgressSequence = none := congrArg Core.lastProgressSequence he
  have hpermission : e.permission = some plan.permission := congrArg Core.permission he
  have hgranted : e.approvalGranted = decide (plan.permission = .confirm) :=
    congrArg Core.approvalGranted he
  simp only [TaskTimelineEntry.applyEvent, TaskTimelineEntry.applyStarting]
  rw [if_neg]
  · rw [← he]
    exact congrArg (fun ready => { e.core with
      phase := .preparing, lastStartAttempt := some 1, executionReady := ready })
      (congrArg Core.executionReady he).symm
  · simp [hphase, hstart, hprogress, hpermission, hgranted]

theorem core_ready
    (he : e.core = { readyCore taskId plan with phase := .preparing, lastStartAttempt := some 1 }) :
    (e.applyEvent .ready).core = { readyCore taskId plan with
      phase := .preparing, lastStartAttempt := some 1, executionReady := true } := by
  have hphase : e.phase = .preparing := congrArg Core.phase he
  have hstart : e.lastStartAttempt = some 1 := congrArg Core.lastStartAttempt he
  have hready : e.executionReady = false := congrArg Core.executionReady he
  simp only [TaskTimelineEntry.applyEvent, TaskTimelineEntry.applyReady]
  rw [if_neg]
  · exact congrArg (fun c : Core γ => { c with executionReady := true }) he
  · simp [hphase, hstart, hready]

/-- A progress event that is in order. -/
theorem core_progress {c : Core γ} {payload : ToolProgress} {phase : TaskPhase} (hc : e.core = c)
    (htool : some payload.toolName = c.toolName)
    (htarget : payload.executionTarget = c.executionTarget)
    (hsequence : payload.sequence = c.lastProgressSequence.getD (-1) + 1)
    (hphase : e.progressPhase payload = some phase) :
    (e.applyEvent (.progress payload)).core =
      { c with phase := phase, lastProgressSequence := some payload.sequence } := by
  subst hc
  have htool' : some payload.toolName = e.toolName := htool
  have htarget' : payload.executionTarget = e.executionTarget := htarget
  have hsequence' : payload.sequence = e.lastProgressSequence.getD (-1) + 1 := hsequence
  simp only [TaskTimelineEntry.applyEvent, TaskTimelineEntry.applyProgress]
  rw [if_neg]
  · simp only [hphase]
    rfl
  · simp [htool', htarget', ← hsequence']

/-- The core of an entry while its tool is executed. -/
theorem core_progress_accepted {payload : ToolProgress}
    (he : e.core = { readyCore taskId plan with
      phase := .preparing, lastStartAttempt := some 1, executionReady := true })
    (htool : payload.toolName = plan.toolName)
    (htarget : payload.executionTarget = plan.executionTarget)
    (hstage : payload.stage = lit "accepted") (hsequence : payload.sequence = 0) :
    (e.applyEvent (.progress payload)).core = { readyCore taskId plan with
      phase := .accepted
      lastProgressSequence := some 0
      lastStartAttempt := some 1
      executionReady := true } := by
  have hphase : e.phase = .preparing := congrArg Core.phase he
  have hready : e.executionReady = true := congrArg Core.executionReady he
  have hnext : e.progressPhase payload = some .accepted := by
    simp [TaskTimelineEntry.progressPhase, hphase, hready, hstage, hsequence]
  rw [core_progress he (congrArg some htool) htarget
    (hsequence.trans (by decide : (0 : Int32) = -1 + 1)) hnext, hsequence]

theorem core_progress_completed {payload : ToolProgress}
    (he : e.core = { readyCore taskId plan with
      phase := .accepted
      lastProgressSequence := some 0
      lastStartAttempt := some 1
      executionReady := true })
    (htool : payload.toolName = plan.toolName)
    (htarget : payload.executionTarget = plan.executionTarget)
    (hstage : payload.stage = lit "completed") (hsequence : payload.sequence = 1) :
    (e.applyEvent (.progress payload)).core = { readyCore taskId plan with
      phase := .completedUnverified
      lastProgressSequence := some 1
      lastStartAttempt := some 1
      executionReady := true } := by
  have hphase : e.phase = .accepted := congrArg Core.phase he
  have hother : lit "completed" ≠ lit "accepted" := by decide
  have hnext : e.progressPhase payload = some .completedUnverified := by
    simp [TaskTimelineEntry.progressPhase, hphase, hstage, hother]
  rw [core_progress he (congrArg some htool) htarget
    (hsequence.trans (by decide : (1 : Int32) = 0 + 1)) hnext, hsequence]

/-- A result after the last progress event is taken exactly if the entry accepts its content. -/
theorem core_result {c : Core γ} {toolName : Str} {target : ExecutionTarget} {content : γ}
    (hc : e.core = c) (hphase : c.phase = .completedUnverified) (htool : c.toolName = some toolName)
    (htarget : c.executionTarget = target) (hresult : c.result = none)
    (haccepts : e.acceptsContent content = true) :
    (e.applyEvent (.result toolName target content)).core = { c with result := some content } := by
  subst hc
  have hphase' : e.phase = .completedUnverified := hphase
  have htool' : e.toolName = some toolName := htool
  have htarget' : e.executionTarget = target := htarget
  have hresult' : e.result = none := hresult
  simp only [TaskTimelineEntry.applyEvent, TaskTimelineEntry.applyResult]
  rw [if_neg]
  · exact congrArg (fun phase => { e.core with phase := phase, result := some content }) hphase'.symm
  · simp [hphase', htool', htarget', hresult', haccepts]

theorem phase_applyVerification {content : γ} {succeeded : Bool} {summary : Str} {checks : List Str}
    (hphase : e.phase = .completedUnverified) (hresult : e.result = some content) :
    (e.applyEvent (.verification succeeded summary checks)).phase =
      if succeeded then .verified else .failed := by
  simp only [TaskTimelineEntry.applyEvent, TaskTimelineEntry.applyVerification]
  rw [if_neg (by simp [hphase, hresult])]
  rfl

end Order

end Drive

/-! ### What the gateway validates, the timeline accepts -/

/-- The row of `acceptsContent` for a tool. -/
def PhoneTool.contract : PhoneTool → ToolContract
  | .batteryStatus => ⟨lit "phone.battery.status", .phone, .unrestricted, .phoneBatteryStatus, true⟩
  | .deviceInfo => ⟨lit "phone.device.info", .phone, .unrestricted, .phoneDeviceInfo, true⟩
  | .flashlightSet =>
    ⟨lit "phone.flashlight.set", .phone, .approved, .phoneFlashlightState, false⟩
  | .memoryForget => ⟨lit "phone.memory.forget", .phone, .approved, .phoneMemoryDeleted, true⟩
  | .memoryForgetAll =>
    ⟨lit "phone.memory.forget_all", .phone, .approved, .phoneMemoryForgotten, true⟩
  | .memoryList => ⟨lit "phone.memory.list", .phone, .safe, .phoneMemoryList, true⟩
  | .memoryRemember =>
    ⟨lit "phone.memory.remember", .phone, .approved, .phoneMemoryRemembered, true⟩
  | .memoryUpdate => ⟨lit "phone.memory.update", .phone, .approved, .phoneMemoryUpdated, true⟩
  | .noteCreate => ⟨lit "phone.note.create", .phone, .approved, .phoneNoteCreated, true⟩
  | .ocrRead => ⟨lit "phone.ocr.read", .phone, .safe, .phoneOcrRead, true⟩
  | .qrRead => ⟨lit "phone.qr.read", .phone, .safe, .phoneQrRead, true⟩
  | .timerCreate => ⟨lit "phone.timer.create", .phone, .approved, .phoneTimerDispatched, true⟩

theorem find_contract (tool : PhoneTool) :
    toolContracts.find? (fun row => some row.toolName = some tool.name) = some tool.contract := by
  cases tool <;> rfl

section Tools

variable {tool : PhoneTool} {arguments : ToolArguments} {op : PhoneToolOperation}
  {content : PhoneContent}

/-- A validated result is one of the tool's class that meets its contract. -/
theorem validate_contract (hop : operation tool arguments = some op)
    (hvalid : op.validate content = true) :
    content.type = tool.contract.content ∧ content.matchesToolContract = true := by
  unfold operation at hop
  split at hop
  · cases hop
    simpa [PhoneTool.contract] using hvalid
  · cases hop
    simpa [PhoneTool.contract] using hvalid
  · cases hop
    cases content with
    | flashlightState _ _ => exact ⟨rfl, rfl⟩
    | _ => cases hvalid
  · cases hop
    cases content with
    | noteCreated _ _ _ => exact ⟨rfl, (Bool.and_eq_true_iff.1 hvalid).2⟩
    | _ => cases hvalid
  · cases hop
    cases content with
    | memoryRemembered _ => exact ⟨rfl, (Bool.and_eq_true_iff.1 hvalid).2⟩
    | _ => cases hvalid
  · cases hop
    simpa [PhoneTool.contract] using hvalid
  · cases hop
    cases content with
    | memoryDeleted _ _ _ => exact ⟨rfl, (Bool.and_eq_true_iff.1 hvalid).2⟩
    | _ => cases hvalid
  · cases hop
    cases content with
    | memoryUpdated _ => exact ⟨rfl, (Bool.and_eq_true_iff.1 hvalid).2⟩
    | _ => cases hvalid
  · cases hop
    simpa [PhoneTool.contract] using hvalid
  · cases hop
    cases content with
    | timerDispatched _ _ _ _ _ _ => exact ⟨rfl, (Bool.and_eq_true_iff.1 hvalid).2⟩
    | _ => cases hvalid
  · cases hop

theorem operation_toolName (hop : operation tool arguments = some op) :
    op.toolName = tool.name := by
  unfold operation at hop
  split at hop <;> cases hop <;> rfl

theorem contract_executionTarget (tool : PhoneTool) : tool.contract.executionTarget = .phone := by
  cases tool <;> rfl

/-- A tool whose row asks for an approval or for a safe entry has that permission. -/
theorem hasAuthority_contract {e : TaskTimelineEntry PhoneContent}
    (hpermission : e.permission = some tool.permission)
    (hgranted : tool.permission = .confirm → e.approvalGranted = true) :
    e.hasAuthority tool.contract.authority = true := by
  cases tool <;> simp_all [TaskTimelineEntry.hasAuthority, PhoneTool.contract, PhoneTool.permission]

/-- **What the gateway validates, the timeline accepts.** -/
theorem accepts_of_validate {e : TaskTimelineEntry PhoneContent}
    (hop : operation tool arguments = some op) (hvalid : op.validate content = true)
    (htool : e.toolName = some tool.name) (htarget : e.executionTarget = .phone)
    (hpermission : e.permission = some tool.permission)
    (hgranted : tool.permission = .confirm → e.approvalGranted = true) :
    e.acceptsContent content = true := by
  obtain ⟨htype, hcontract⟩ := validate_contract hop hvalid
  have hauthority := hasAuthority_contract hpermission hgranted
  have htype' : ToolResultContent.type content = tool.contract.content := htype
  have hcontract' : ToolResultContent.matchesToolContract content = true := hcontract
  unfold TaskTimelineEntry.acceptsContent
  rw [htool, find_contract]
  simp [htarget, contract_executionTarget, hauthority, htype', hcontract']

/-! ### The events of an operation -/

variable {taskId : UUID} {plan : GoffyExecutionPlan} {e : TaskTimelineEntry PhoneContent}

/-- The plan of an operation. -/
theorem matchCapability_some (h : matchCapability plan = some tool) :
    plan.toolName = tool.name ∧ plan.executionTarget = .phone ∧ plan.permission = tool.permission := by
  unfold matchCapability at h
  obtain ⟨hfind, hplan⟩ := Option.filter_eq_some_iff.1 h
  simp only [Bool.and_eq_true, decide_eq_true_eq] at hplan
  have hname := List.find?_some hfind
  exact ⟨(of_decide_eq_true hname).symm, hplan.1.1, hplan.1.2⟩

/-- The entry while the tool is executed. -/
def acceptedCore (taskId : UUID) (plan : GoffyExecutionPlan) : Core PhoneContent :=
  { readyCore taskId plan with
    phase := .accepted
    lastProgressSequence := some 0
    lastStartAttempt := some 1
    executionReady := true }

theorem core_accepted {message : Str} (htool : op.toolName = plan.toolName)
    (htarget : plan.executionTarget = .phone)
    (he : e.core = { readyCore taskId plan with
      phase := .preparing, lastStartAttempt := some 1, executionReady := true }) :
    (e.applyEvent (op.progress "accepted" 0 message)).core = acceptedCore taskId plan :=
  core_progress_accepted he htool htarget.symm rfl rfl

theorem core_completed {message : Str} (htool : op.toolName = plan.toolName)
    (htarget : plan.executionTarget = .phone) (he : e.core = acceptedCore taskId plan) :
    (e.applyEvent (op.progress "completed" 1 message)).core = { acceptedCore taskId plan with
      phase := .completedUnverified, lastProgressSequence := some 1 } :=
  core_progress_completed he htool htarget.symm rfl rfl

theorem core_operation_result (hmatch : matchCapability plan = some tool)
    (hop : operation tool plan.arguments = some op) (hvalid : op.validate content = true)
    (he : e.core = { acceptedCore taskId plan with
      phase := .completedUnverified, lastProgressSequence := some 1 }) :
    (e.applyEvent (.result op.toolName .phone content)).core = { acceptedCore taskId plan with
      phase := .completedUnverified, lastProgressSequence := some 1, result := some content } := by
  obtain ⟨hname, htarget, hpermission⟩ := matchCapability_some hmatch
  have hop' := operation_toolName hop
  have htool : e.toolName = some plan.toolName := congrArg Core.toolName he
  have htarget' : e.executionTarget = .phone := (congrArg Core.executionTarget he).trans htarget
  have haccepts : e.acceptsContent content = true := by
    refine accepts_of_validate hop hvalid (htool.trans (congrArg some hname)) htarget' ?_ ?_
    · exact (congrArg Core.permission he).trans (congrArg some hpermission)
    · intro hconfirm
      refine (congrArg Core.approvalGranted he).trans ?_
      exact decide_eq_true (hpermission.trans hconfirm)
  exact core_result he rfl (congrArg some (hname.trans hop'.symm)) htarget rfl haccepts

/-- The phase that the verification of an operation asks for. -/
def PhoneToolVerification.phase : PhoneToolVerification → TaskPhase
  | .verified _ _ => .verified
  | .unverified _ _ => .unverified

theorem phase_verification {verification : PhoneToolVerification}
    (hphase : e.phase = .completedUnverified) (hresult : e.result = some content) :
    (e.applyEvent verification.toEvent).phase = verification.phase := by
  cases verification with
  | verified summary checks => exact phase_applyVerification hphase hresult
  | unverified summary checks =>
    simp only [PhoneToolVerification.toEvent, TaskTimelineEntry.applyEvent,
      TaskTimelineEntry.applyUnverified]
    rw [if_neg (by simp [hphase, hresult])]
    rfl

/-- The phase to which an outcome leads. -/
def PhoneToolOperation.phase (op : PhoneToolOperation) : SourceOutcome → TaskPhase
  | .value content => if op.validate content then op.verification.phase else .failed
  | .timeout | .exception => .failed

/-- The events after the execution are in order. -/
theorem ordered_conclude (hmatch : matchCapability plan = some tool)
    (hop : operation tool plan.arguments = some op) (outcome : SourceOutcome) :
    Ordered (op.phase outcome) (acceptedCore taskId plan) (op.conclude outcome) := by
  obtain ⟨hname, htarget, -⟩ := matchCapability_some hmatch
  have htool : op.toolName = plan.toolName := (operation_toolName hop).trans hname.symm
  cases outcome with
  | timeout => exact .last fun e _ => rfl
  | exception => exact .last fun e _ => rfl
  | value content =>
    simp only [PhoneToolOperation.conclude, PhoneToolOperation.phase]
    split
    · next hvalid =>
      refine .next (fun e he => core_completed htool htarget he) rfl ?_
      refine .next (fun e he => core_operation_result hmatch hop hvalid he) rfl ?_
      refine .last fun e he => ?_
      exact phase_verification (congrArg Core.phase he) (congrArg Core.result he)
    · exact .last fun e _ => rfl

/-- The events of an operation are in order. -/
theorem ordered_operation (hmatch : matchCapability plan = some tool)
    (hop : operation tool plan.arguments = some op) (outcome : SourceOutcome) :
    Ordered (op.phase outcome) (readyCore taskId plan) (op.announce ++ op.conclude outcome) := by
  obtain ⟨hname, htarget, -⟩ := matchCapability_some hmatch
  have htool : op.toolName = plan.toolName := (operation_toolName hop).trans hname.symm
  refine .next (fun e he => core_starting he) rfl ?_
  refine .next (fun e he => core_ready he) rfl ?_
  refine .next (fun e he => core_accepted htool htarget he) rfl ?_
  exact ordered_conclude hmatch hop outcome

end Tools

/-! ### Collections that ran to their end -/

/-- The source returned a value that the gateway accepted. -/
def FlowStage.accepted : FlowStage → Bool
  | .finished op (.value content) => op.validate content
  | _ => false

/-- The phase to which a collection leads. -/
def FlowStage.phase : FlowStage → TaskPhase
  | .finished op outcome => op.phase outcome
  | _ => .failed

/-- A task ends verified or unverified exactly for an accepted value, else failed. -/
theorem phase_accepted (stage : FlowStage) :
    if stage.accepted then stage.phase = .verified ∨ stage.phase = .unverified
    else stage.phase = .failed := by
  cases stage with
  | finished op outcome =>
    cases outcome with
    | value content =>
      simp only [FlowStage.accepted, FlowStage.phase, PhoneToolOperation.phase]
      split
      · cases op.verification with
        | verified _ _ => exact Or.inl rfl
        | unverified _ _ => exact Or.inr rfl
      · rfl
    | timeout | exception => rfl
  | _ => rfl

theorem phase_terminal (stage : FlowStage) : stage.phase.terminal = true := by
  have h := phase_accepted stage
  split at h
  · rcases h with h | h <;> rw [h] <;> rfl
  · rw [h]
    rfl

section Collections

variable {s : PhoneToolGateway} {es : List (ℕ × Note)} {c : ℕ} {x : Collection}

theorem emittedBy_eq (h : Traced s es) (hx : s.collections[c]? = some x) :
    emittedBy c es = x.stage.notes.filterMap Note.event? := by
  have hclock : (x.clock.toList.map Note.clock).filterMap Note.event? = [] := by
    cases x.clock <;> rfl
  unfold emittedBy
  rw [notesOf_eq h hx, Collection.notes, List.filterMap_append, hclock, List.nil_append]

theorem filterMap_emit (events : List (ExecutionEvent PhoneContent)) :
    (events.map Note.emit).filterMap Note.event? = events := by
  rw [List.filterMap_map]
  exact List.filterMap_some

theorem events_finished (op : PhoneToolOperation) (outcome : SourceOutcome) :
    (FlowStage.finished op outcome).notes.filterMap Note.event? =
      op.announce ++ op.conclude outcome := by
  simp only [FlowStage.notes, List.filterMap_append, filterMap_emit]
  simp [Note.event?]

/-- The events of a collection that ran to its end are in order for its task. -/
theorem ordered_emittedBy (h : Traced s es) (hx : s.collections[c]? = some x)
    (hcompleted : x.stage.completed = true) :
    Ordered x.stage.phase (readyCore x.taskId x.plan) (emittedBy c es) := by
  have hauthorized := h.authorized hx
  rw [emittedBy_eq h hx]
  cases hstage : x.stage with
  | finished op outcome =>
    rw [hstage] at hauthorized
    obtain ⟨tool, hop, hsafe | ⟨object, hcompared⟩⟩ := hauthorized
    · rw [events_finished]
      exact ordered_operation hsafe.1 hop outcome
    · rw [events_finished]
      exact ordered_operation hcompared.1 hop outcome
  | denied => exact .last fun e _ => rfl
  | _ =>
    rw [hstage] at hcompleted
    cases hcompleted

/-- Without an accepted value the last event is an error of the gateway. -/
theorem last_emittedBy (h : Traced s es) (hx : s.collections[c]? = some x)
    (hcompleted : x.stage.completed = true) (hnot : x.stage.accepted = false) :
    ∃ code message, (emittedBy c es).getLast? = some (.error code message false) := by
  rw [emittedBy_eq h hx]
  cases hstage : x.stage with
  | finished op outcome =>
    rw [events_finished]
    cases outcome with
    | timeout => exact ⟨_, _, rfl⟩
    | exception => exact ⟨_, _, rfl⟩
    | value content =>
      have hvalid : op.validate content = false := by
        rw [hstage] at hnot
        exact hnot
      refine ⟨lit "invalid_tool_output", lit "The local phone tool failed output validation", ?_⟩
      simp [PhoneToolOperation.conclude, hvalid]
  | denied => exact ⟨_, _, rfl⟩
  | _ =>
    rw [hstage] at hcompleted
    cases hcompleted

end Collections

/-- An entry of a task at its end, where an error of the gateway is the reason. -/
structure FailedWith (e : TaskTimelineEntry PhoneContent) (code message : Str) : Prop where
  phase : e.phase = .failed
  summary : e.summary = safeText message
  event : e.events.getLast? = some ⟨.error, safeText (code ++ lit ": " ++ message)⟩

theorem failedWith_error (e : TaskTimelineEntry PhoneContent) (code message : Str)
    (retryable : Bool) (now : ℤ) :
    FailedWith (e.receive (.error code message retryable, now)) code message := by
  unfold TaskTimelineEntry.receive TaskTimelineEntry.withTerminalTimestamp
  split
  · refine ⟨rfl, rfl, ?_⟩
    simp only [TaskTimelineEntry.applyEvent, TaskTimelineEntry.withEvent]
    rw [show maxTaskEvents = 15 + 1 from rfl, Recent.takeLast_concat, List.getLast?_concat]
  · refine ⟨rfl, rfl, ?_⟩
    simp only [TaskTimelineEntry.applyEvent, TaskTimelineEntry.withEvent]
    rw [show maxTaskEvents = 15 + 1 from rfl, Recent.takeLast_concat, List.getLast?_concat]

/-- **The gateway drives a task to its end.** The events of a collection that ran to its end, applied
to a timeline in which its task is ready, leave the task active up to the last event. With that the
task is verified or unverified exactly when the source returned a value that the gateway accepted;
else it has failed with the error of the gateway. -/
theorem gateway_drives_task {s₀ s : PhoneToolGateway} {es : List (ℕ × Note)} {c : ℕ}
    {x : Collection} {t t' : TaskTimelineState PhoneContent} {summary : Str}
    {shownAt approvedAt : ℤ} {steps : List (ExecutionEvent PhoneContent × ℤ)}
    (h₀ : s₀.collections = [])
    (h : Machine.Reaches PhoneToolGateway.step Machine.anyStep s₀ s es)
    (hx : s.collections[c]? = some x) (hcompleted : x.stage.completed = true)
    (ht : prepare t x.taskId x.plan summary shownAt approvedAt = .ok t')
    (hsteps : steps.map Prod.fst = emittedBy c es) :
    (∀ pre post, steps = pre ++ post → post ≠ [] →
      ∃ e, Current (drive t' x.taskId pre) x.taskId e) ∧
    ∃ e, Over (drive t' x.taskId steps) x.taskId e ∧
      (x.stage.accepted = true ∧ (e.phase = .verified ∨ e.phase = .unverified) ∨
        x.stage.accepted = false ∧ ∃ code message,
          (emittedBy c es).getLast? = some (.error code message false) ∧
          FailedWith e code message) := by
  have htraced := traced_of_reaches h₀ h
  obtain ⟨e, hcurrent, hcore⟩ := current_prepare ht
  have hordered := ordered_emittedBy htraced hx hcompleted
  rw [← hcore] at hordered
  obtain ⟨hinit, pre, event, now, e', -, hlast, -, hover, hphase⟩ :=
    drive_ordered (phase_terminal x.stage) hsteps hordered hcurrent
  refine ⟨hinit, e'.receive (event, now), hover, ?_⟩
  have haccepted := phase_accepted x.stage
  rw [← hphase] at haccepted
  cases hstage : x.stage.accepted with
  | true =>
    rw [hstage, if_pos rfl] at haccepted
    exact Or.inl ⟨rfl, haccepted⟩
  | false =>
    obtain ⟨code, message, herror⟩ := last_emittedBy htraced hx hcompleted hstage
    rw [herror, Option.some.injEq] at hlast
    refine Or.inr ⟨rfl, code, message, herror, ?_⟩
    rw [← hlast]
    exact failedWith_error e' code message false now

section Example

/-- The battery status is read. -/
def batteryRun : List PhoneGatewayAction :=
  [.collect 1 batteryPlan .safe, .advance 0 0 .timeout, .advance 0 0 .timeout,
    .advance 0 0 .timeout, .advance 0 0 (.value (.batteryStatus 80 true))]

theorem battery_driven : ∃ s es t' e,
    Machine.run PhoneToolGateway.step {} batteryRun = some (s, es) ∧
    prepare ({} : TaskTimelineState PhoneContent) 1 batteryPlan [] 0 0 = .ok t' ∧
    Over (drive t' 1 ((emittedBy 0 es).map (·, 0))) 1 e ∧
    (e.phase = .verified ∨ e.phase = .unverified) := by
  have hrun : Machine.run PhoneToolGateway.step {} batteryRun = some (_, _) := rfl
  have ht : prepare ({} : TaskTimelineState PhoneContent) 1 batteryPlan [] 0 0 = .ok _ := rfl
  have hsteps : ∀ events : List (ExecutionEvent PhoneContent),
      (events.map (·, (0 : ℤ))).map Prod.fst = events := by
    intro events
    simp [Function.comp_def]
  obtain ⟨-, e, hover, ⟨-, hphase⟩ | ⟨hnot, -⟩⟩ :=
    gateway_drives_task (c := 0) rfl (Machine.run_reaches hrun) rfl rfl ht (hsteps _)
  · exact ⟨_, _, _, e, hrun, ht, hover, hphase⟩
  · cases hnot

end Example

end GoffyPhone
