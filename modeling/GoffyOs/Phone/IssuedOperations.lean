import GoffyOs.Phone.AuditObserver
import GoffyOs.Phone.ViewModelRuns

/-!
# The operations that the view model issues

Every action of the view model comes to a few operations of the timeline (`issues_step`), so that its runs
are runs of operations. What the operations are given is not arbitrary: what is restored comes from
records, and a plan that needs a confirmation is of a known capability and is rejected with one of five
texts (`Issued`).
-/

namespace GoffyPhone

open Kotlin
open Python (UUID)

variable {γ : Type}

/-- The texts with which the view model rejects a plan that needs a confirmation. -/
def planRejections : List Str := [
  lit "The confirmation request did not match a typed tool",
  lit "This phone action is blocked in the current security policy",
  lit "Configure a secure GOFFY Hub link before running a Mac task",
  lit "This Mac action is blocked in the current security policy",
  lit "Cloud execution is not available in this build"]

/-- What the view model passes to an operation: what is restored comes from records, and a plan that needs
a confirmation is of a known capability. -/
def Issued : Op γ → Prop
  | .mergeRestoredAudit restored =>
    ∃ records : List ClosedTerminalAuditRecord, restored = records.map (·.toTimelineEntry)
  | .start _ plan => plan.permission = .confirm →
      (plan.executionTarget, some plan.toolName, some plan.permission) ∈ routedCapabilities
  | .reject _ _ summary _ executionTarget toolName permission => permission = some .confirm →
      (executionTarget, toolName, permission) ∈ routedCapabilities ∧ summary ∈ planRejections
  | _ => True

/-- A timeline that comes from another one by such operations. -/
def Issues [ToolResultContent γ] (s s' : TaskTimelineState γ) : Prop :=
  ∃ ops : List (Op γ), (∀ op ∈ ops, Issued op) ∧ s' = ops.foldl step s

section

variable [ToolResultContent γ] {s s' s'' : TaskTimelineState γ}

theorem Issues.refl (s : TaskTimelineState γ) : Issues s s := ⟨[], by rintro op ⟨⟩, rfl⟩

theorem Issues.trans (h : Issues s s') (h' : Issues s' s'') : Issues s s'' := by
  obtain ⟨ops, hops, rfl⟩ := h
  obtain ⟨ops', hops', rfl⟩ := h'
  refine ⟨ops ++ ops', fun op hop => ?_, List.foldl_append.symm⟩
  rcases List.mem_append.1 hop with hop | hop
  · exact hops op hop
  · exact hops' op hop

theorem issues_op (op : Op γ) (h : Issued op) : Issues s (step s op) :=
  ⟨[op], fun _ hop => List.mem_singleton.1 hop ▸ h, rfl⟩

/-! ### What the parts of the view model issue -/

variable {vm vm' : GoffyViewModel γ} {ui : GoffyUiState γ} {taskId : UUID} {now : ℤ}

theorem issues_startTask {ui' : GoffyUiState γ} {plan : GoffyExecutionPlan}
    (h : ui.startTask taskId plan = .ok ui') (hissued : Issued (.start taskId plan : Op γ)) :
    Issues ui.timeline ui'.timeline := by
  have hok : ui.timeline.start taskId plan = .ok ui'.timeline := by
    unfold GoffyUiState.startTask at h
    obtain ⟨timeline, htimeline, h⟩ := except_bind_eq_ok.1 h
    obtain rfl := Except.ok.inj h
    exact htimeline
  have hstep : step ui.timeline (.start taskId plan) = ui'.timeline := by
    rw [step, hok]
    rfl
  exact hstep ▸ issues_op _ hissued

theorem issues_rejectCommand {id : UUID} {command summary : Str} :
    Issues ui.timeline (ui.rejectCommand id command summary now).timeline :=
  issues_op (.reject id command summary now .phone none none) nofun

/-- A plan of a known capability is rejected with one of the five texts, or needs no confirmation. -/
theorem issues_rejectPlan {id : UUID} {plan : GoffyExecutionPlan} {summary : Str}
    (h : plan.permission = .confirm →
      (plan.executionTarget, some plan.toolName, some plan.permission) ∈ routedCapabilities ∧
        summary ∈ planRejections) :
    Issues ui.timeline (ui.rejectPlan id plan summary now).timeline :=
  issues_op (.reject id plan.command summary now plan.executionTarget (some plan.toolName)
    (some plan.permission)) fun hconfirm => h (Option.some.inj hconfirm)

theorem issues_awaitApproval {approval : PendingApproval} :
    Issues ui.timeline (ui.awaitApproval approval now).timeline := by
  unfold GoffyUiState.awaitApproval
  split
  case isTrue => exact .refl _
  case isFalse => exact issues_op (.awaitApproval approval.taskId approval.description now) trivial

theorem issues_grantApproval : Issues ui.timeline (ui.grantApproval taskId now).timeline := by
  unfold GoffyUiState.grantApproval
  split
  case isTrue => exact issues_op (.grantApproval taskId now) trivial
  case isFalse => exact .refl _

theorem issues_denyApproval {summary : Str} :
    Issues ui.timeline (ui.denyApproval taskId summary now).timeline := by
  unfold GoffyUiState.denyApproval
  split
  case isTrue => exact issues_op (.denyApproval taskId summary now) trivial
  case isFalse => exact .refl _

theorem issues_expireApproval : Issues ui.timeline (ui.expireApproval taskId now).timeline := by
  unfold GoffyUiState.expireApproval
  split
  case isTrue => exact issues_op (.expireApproval taskId now) trivial
  case isFalse => exact .refl _

theorem issues_applyTaskEvent {event : ExecutionEvent γ} :
    Issues ui.timeline (ui.applyTaskEvent taskId event now).timeline := by
  unfold GoffyUiState.applyTaskEvent
  split
  case isTrue => exact .refl _
  case isFalse => exact issues_op (.apply taskId event now) trivial

theorem issues_cancelActive : Issues s (s.cancelActive now) :=
  issues_op (.cancelActive now) trivial

/-! ### Submitting -/

theorem issues_executeTask {plan : GoffyExecutionPlan} {calls out : List Call}
    (h : vm.executeTask taskId plan calls = .ok (vm', out))
    (hissued : Issued (.start taskId plan : Op γ)) : Issues vm.uiState.timeline vm'.uiState.timeline := by
  unfold GoffyViewModel.executeTask at h
  obtain ⟨ui, hstart, h⟩ := except_bind_eq_ok.1 h
  obtain ⟨rfl, -⟩ := Prod.mk.inj (Except.ok.inj h)
  exact issues_startTask hstart hissued

/-- The capability of a plan of `GoffyIntentRouter`. -/
def GoffyExecutionPlan.Routed (plan : GoffyExecutionPlan) : Prop :=
  (plan.executionTarget, some plan.toolName, some plan.permission) ∈ routedCapabilities

theorem issues_requestApproval {x : Submission} {plan : GoffyExecutionPlan}
    {hubConfig : Option HubConfig} {out : List Call} (hplan : plan.Routed)
    (h : vm.requestApproval x plan hubConfig = .ok (vm', out)) :
    Issues vm.uiState.timeline vm'.uiState.timeline := by
  unfold GoffyViewModel.requestApproval at h
  split at h
  case h_1 =>
    obtain ⟨rfl, -⟩ := Prod.mk.inj (Except.ok.inj h)
    exact issues_rejectPlan fun _ => ⟨hplan, List.mem_cons_self⟩
  case h_2 =>
    obtain ⟨ui, hstart, h⟩ := except_bind_eq_ok.1 h
    obtain ⟨rfl, -⟩ := Prod.mk.inj (Except.ok.inj h)
    exact (issues_startTask hstart fun _ => hplan).trans issues_awaitApproval

theorem issues_submitPhonePlan {x : Submission} {plan : GoffyExecutionPlan} {out : List Call}
    (hplan : plan.Routed) (h : vm.submitPhonePlan x plan = .ok (vm', out)) :
    Issues vm.uiState.timeline vm'.uiState.timeline := by
  unfold GoffyViewModel.submitPhonePlan at h
  split at h
  case h_1 => exact issues_executeTask h fun _ => hplan
  case h_2 => exact issues_requestApproval hplan h
  all_goals
    obtain ⟨rfl, -⟩ := Prod.mk.inj (Except.ok.inj h)
    exact issues_rejectPlan fun _ => ⟨hplan, by simp [planRejections]⟩

theorem issues_submitMacPlan {codec : ArgumentsCodec} {x : Submission} {plan : GoffyExecutionPlan}
    {out : List Call} (hplan : plan.Routed) (h : vm.submitMacPlan codec x plan = .ok (vm', out)) :
    Issues vm.uiState.timeline vm'.uiState.timeline := by
  unfold GoffyViewModel.submitMacPlan at h
  split at h
  case h_1 =>
    obtain ⟨rfl, -⟩ := Prod.mk.inj (Except.ok.inj h)
    exact issues_rejectPlan fun _ => ⟨hplan, by simp [planRejections]⟩
  case h_2 =>
    split at h
    case h_1 =>
      obtain ⟨request, -, h⟩ := except_bind_eq_ok.1 h
      exact issues_executeTask h fun _ => hplan
    case h_2 => exact issues_requestApproval hplan h
    all_goals
      obtain ⟨rfl, -⟩ := Prod.mk.inj (Except.ok.inj h)
      exact issues_rejectPlan fun _ => ⟨hplan, by simp [planRejections]⟩

theorem issues_startLocalModelObservation {x : Submission}
    {observation : Option LocalModelIntentObservation}
    (h : vm.startLocalModelObservationIfAvailable x observation = .ok (.inl vm')) :
    Issues vm.uiState.timeline vm'.uiState.timeline := by
  unfold GoffyViewModel.startLocalModelObservationIfAvailable at h
  iterate 4
    split at h
    · cases h
  obtain ⟨timeline, htimeline, h⟩ := except_bind_eq_ok.1 h
  obtain rfl := Sum.inl.inj (Except.ok.inj h)
  have hstep : step vm.uiState.timeline
      (.startLocalModelObservation x.taskId x.command x.localModel.summary) = timeline := by
    rw [step, htimeline]
    rfl
  exact hstep ▸ issues_op
    (.startLocalModelObservation x.taskId x.command x.localModel.summary) trivial

theorem issues_submitCommand {codec : ArgumentsCodec} {x : Submission} {out : List Call}
    (hplan : ∀ plan, x.decision = .routed plan → plan.Routed)
    (h : vm.submitCommand codec x = .ok (vm', out)) :
    Issues vm.uiState.timeline vm'.uiState.timeline := by
  unfold GoffyViewModel.submitCommand at h
  split at h
  case isTrue =>
    obtain ⟨rfl, -⟩ := Prod.mk.inj (Except.ok.inj h)
    exact issues_rejectCommand
  case isFalse =>
    split at h
    case h_1 =>
      obtain ⟨started, hstarted, h⟩ := except_bind_eq_ok.1 h
      cases started with
      | inl started =>
        obtain ⟨rfl, -⟩ := Prod.mk.inj (Except.ok.inj h)
        exact issues_startLocalModelObservation hstarted
      | inr rejectionSummary =>
        obtain ⟨rfl, -⟩ := Prod.mk.inj (Except.ok.inj h)
        exact issues_rejectCommand
    case h_2 plan hdecision =>
      split at h
      case h_1 => exact issues_submitPhonePlan (hplan plan hdecision) h
      case h_2 => exact issues_submitMacPlan (hplan plan hdecision) h
      case h_3 =>
        obtain ⟨rfl, -⟩ := Prod.mk.inj (Except.ok.inj h)
        exact issues_rejectPlan fun _ => ⟨hplan plan hdecision, by simp [planRejections]⟩

/-! ### Foreground reads -/

theorem issues_recordForeground {r : GoffyViewModel.ForegroundRead} {raw : Str} {rejectId : UUID}
    {out : List Call} (h : vm.recordForeground r raw rejectId taskId now = .ok (vm', out)) :
    Issues vm.uiState.timeline vm'.uiState.timeline := by
  unfold GoffyViewModel.recordForeground at h
  split at h
  case isTrue =>
    obtain ⟨rfl, -⟩ := Prod.mk.inj (Except.ok.inj h)
    exact issues_rejectCommand
  case isFalse =>
    split at h
    case isTrue =>
      obtain ⟨rfl, -⟩ := Prod.mk.inj (Except.ok.inj h)
      exact issues_rejectCommand
    case isFalse => exact issues_executeTask h nofun

theorem issues_recordForegroundUnavailable {r : GoffyViewModel.ForegroundRead} {summary : Str}
    {rejectId : UUID} : Issues vm.uiState.timeline
      (vm.recordForegroundUnavailable r summary rejectId now).uiState.timeline := by
  unfold GoffyViewModel.recordForegroundUnavailable
  split
  case isTrue => exact issues_rejectCommand
  case isFalse => exact issues_rejectPlan nofun

/-! ### Approvals -/

theorem issues_failApproved {code message : String} :
    Issues vm.uiState.timeline (vm.failApproved taskId now code message).uiState.timeline :=
  issues_applyTaskEvent

theorem issues_expirePendingApproval :
    Issues vm.uiState.timeline (vm.expirePendingApproval taskId now).uiState.timeline := by
  unfold GoffyViewModel.expirePendingApproval
  split
  case h_1 => exact .refl _
  case h_2 =>
    split
    case isTrue => exact .refl _
    case isFalse => exact issues_expireApproval

theorem issues_denyPendingTask :
    Issues vm.uiState.timeline (vm.denyPendingTask taskId now).uiState.timeline := by
  unfold GoffyViewModel.denyPendingTask
  split
  case h_1 => exact .refl _
  case h_2 =>
    split
    case isTrue => exact .refl _
    case isFalse => exact issues_denyApproval

theorem issues_cancelActiveTask :
    Issues vm.uiState.timeline (vm.cancelActiveTask now).uiState.timeline := by
  unfold GoffyViewModel.cancelActiveTask
  split
  case h_1 => exact issues_denyApproval
  case h_2 => exact issues_cancelActive

theorem issues_startApproved {codec : ArgumentsCodec} {pending : PendingExecution}
    {x : GoffyViewModel.ApprovalInput} :
    Issues vm.uiState.timeline (vm.startApproved codec pending x).1.uiState.timeline := by
  unfold GoffyViewModel.startApproved
  split
  case h_1 => exact .refl _
  case h_2 =>
    split
    case h_1 => exact issues_failApproved
    case h_2 =>
      split
      case h_1 => exact issues_failApproved
      case h_2 =>
        dsimp only
        split
        case h_1 => exact .refl _
        case h_2 => exact .refl _
  case h_3 => exact issues_failApproved

theorem issues_approvePendingTask {codec : ArgumentsCodec} {x : GoffyViewModel.ApprovalInput} :
    Issues vm.uiState.timeline (vm.approvePendingTask codec taskId x).1.uiState.timeline := by
  unfold GoffyViewModel.approvePendingTask
  split
  case h_1 => exact .refl _
  case h_2 =>
    split
    case isTrue => exact .refl _
    case isFalse =>
      split
      case isTrue => exact issues_expirePendingApproval
      case isFalse => exact issues_grantApproval.trans issues_startApproved

/-! ### Restored records -/

theorem step_mergeRestoredAudit (s : TaskTimelineState γ) (restored : List (TaskTimelineEntry γ)) :
    step s (.mergeRestoredAudit restored) = (s.mergeRestoredAudit restored).toOption.getD s := rfl

theorem step_markAuditRecorded (s : TaskTimelineState γ) (taskId : UUID) (now : ℤ) :
    step s (.markAuditRecorded taskId now) = (s.markAuditRecorded taskId now).toOption.getD s := rfl

theorem issues_auditLoaded {records : List ClosedTerminalAuditRecord} :
    Issues ui.timeline ((ui.auditLoaded (records.map (·.toTimelineEntry))).toOption.getD ui).timeline := by
  have hstep : Issues ui.timeline _ := issues_op (.mergeRestoredAudit (records.map (·.toTimelineEntry)))
    ⟨records, rfl⟩
  rw [step_mergeRestoredAudit] at hstep
  unfold GoffyUiState.auditLoaded
  cases hmerge : ui.timeline.mergeRestoredAudit (records.map (·.toTimelineEntry)) with
  | error message => exact .refl _
  | ok timeline =>
    rw [hmerge] at hstep
    exact hstep

theorem issues_auditRecorded :
    Issues ui.timeline ((ui.auditRecorded taskId now).toOption.getD ui).timeline := by
  have hstep : Issues ui.timeline _ := issues_op (.markAuditRecorded taskId now) trivial
  rw [step_markAuditRecorded] at hstep
  unfold GoffyUiState.auditRecorded
  cases hmark : ui.timeline.markAuditRecorded taskId now with
  | error message => exact .refl _
  | ok timeline =>
    rw [hmark] at hstep
    exact hstep

/-! ### Actions -/

/-- The router's plans are of known capabilities, and what is restored comes from records. -/
def Action.Routed : Action γ → Prop
  | .submitCommand x => ∀ plan, x.decision = .routed plan → plan.Routed
  | .auditLoaded restored =>
    ∃ records : List ClosedTerminalAuditRecord, restored = records.map (·.toTimelineEntry)
  | _ => True

theorem issues_step {codec : ArgumentsCodec} {a : Action γ} {out : List Call} (ha : a.Routed)
    (h : vm.step codec a = some (vm', out)) : Issues vm.uiState.timeline vm'.uiState.timeline := by
  cases a with
  | submitCommand x => exact issues_submitCommand ha (toOption_eq_some.1 h)
  | recordForeground r raw rejectId taskId now => exact issues_recordForeground (toOption_eq_some.1 h)
  | recordForegroundUnavailable r summary rejectId now =>
    cases h
    exact issues_recordForegroundUnavailable
  | auditLoaded restored =>
    obtain ⟨records, rfl⟩ := ha
    cases h
    exact issues_auditLoaded
  | approvePendingTask taskId x =>
    obtain rfl : (vm.approvePendingTask codec taskId x).1 = vm' :=
      congrArg Prod.fst (Option.some.inj h)
    exact issues_approvePendingTask
  | denyPendingTask taskId now =>
    cases h
    exact issues_denyPendingTask
  | expirePendingApproval taskId now =>
    cases h
    exact issues_expirePendingApproval
  | cancelActiveTask now =>
    cases h
    exact issues_cancelActiveTask
  | taskEvent taskId event now =>
    cases h
    exact issues_applyTaskEvent
  | executionStopped taskId now =>
    cases h
    unfold GoffyViewModel.executionStopped
    split
    case isTrue => exact issues_failApproved
    case isFalse => exact .refl _
  | clientFailure taskId now =>
    cases h
    exact issues_failApproved
  | completeLocalModelObservation taskId observation now =>
    cases h
    exact issues_op (.completeLocalModelObservation taskId observation now) trivial
  | auditRecorded taskId now =>
    cases h
    exact issues_auditRecorded
  | linkHub config credentialId =>
    cases h
    exact .refl _
  | forgetHub now startedAt =>
    cases h
    exact issues_cancelActiveTask.trans issues_cancelActive
  | hubForgotten now =>
    cases h
    exact issues_cancelActive
  | rotateHubCredential now startedAt =>
    cases h
    exact issues_cancelActiveTask.trans issues_cancelActive
  | hubRotationEnded link =>
    cases h
    exact .refl _

/-- **Runs of the view model are runs of operations that it issues.** -/
theorem issues_of_reaches {codec : ArgumentsCodec} {deviceId : Str} {calls : List Call}
    (h : Machine.Reaches (GoffyViewModel.step codec) (fun _ _ a => a.Routed) { deviceId := deviceId } vm
      calls) :
    ∃ ops : List (Op γ), (∀ op ∈ ops, Issued op) ∧ vm.uiState.timeline = runOps ops := by
  refine h.invariant (I := fun vm _ => Issues {} vm.uiState.timeline) (.refl _) ?_
  intro vm calls a vm' out hvm ha hstep
  exact hvm.trans (issues_step ha hstep)

end

end GoffyPhone
