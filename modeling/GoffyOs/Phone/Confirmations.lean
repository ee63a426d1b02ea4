import GoffyOs.Phone.ApprovalDeadlines
import GoffyOs.Phone.HubAuthority
import GoffyOs.Phone.ViewModelRuns

/-!
# Confirmations

A plan that needs a confirmation waits for it in `pendingExecution`, until it is approved, denied,
cancelled or expired. Here the tasks of the view model and its Hub link are put together: the link's
calls cancel tasks, its coroutines end later, and an approved plan for the Mac is sent with the
configuration of its prompt and the credential that is paired at the time of the approval.

* `LinkedPhone` is the view model with both parts. `LinkedPhone.step` runs one part, and what the other
  has to do with it;
* `PhoneEvent` are the prompts, the ways in which a confirmation is settled, and the gateway calls;
* `ProperEvent` is the rule for a call that needs a confirmation, given everything before it, and
  `confirmed_calls` says that the rule is kept in every run where the end of a `forgetHub` does not
  cancel a task that waits for its confirmation: there only the UI state is changed, and
  `cancelled_confirmation_is_called` is what may come of it.
-/

namespace GoffyPhone

open Kotlin
open Python (UUID)
open Machine

variable {γ : Type}

/-! ### The whole view model -/

/-- The view model: its tasks, and its link. -/
structure LinkedPhone (γ : Type) where
  tasks : GoffyViewModel γ
  link : HubLink.GoffyViewModel

inductive PhoneAction (γ : Type)
  | task (a : Action γ)
  | link (a : HubLink.Action) (now startedAt : ℤ)

inductive PhoneEvent
  /-- A confirmation is asked for. -/
  | prompted (pending : PendingExecution)
  /-- It is denied, cancelled or expired. -/
  | settled (taskId : UUID)
  /-- It is given, by `approvePendingTask`. -/
  | approved (taskId : UUID) (now : ℤ)
  /-- A gateway is invoked while this credential is paired. -/
  | called (call : Call) (pairedCredentialId : Option UUID)
  | link (e : HubLink.Event)

/-- The step is one of the link. -/
def Action.isLink : Action γ → Bool
  | .linkHub _ _ | .forgetHub _ _ | .hubForgotten _ | .rotateHubCredential _ _
  | .hubRotationEnded _ => true
  | _ => false

namespace GoffyViewModel

/-- This task waits for its confirmation. -/
def awaits (vm : GoffyViewModel γ) (taskId : UUID) : Bool :=
  vm.pendingExecution.map (·.taskId) = some taskId

/-- The confirmation that `submitCommand` asks for. -/
def prompt (vm : GoffyViewModel γ) (x : Submission) : Option PendingExecution :=
  if vm.uiState.isBusy then none
  else match x.decision with
  | .unsupported _ => none
  | .routed plan =>
    if plan.permission = .confirm ∧ (approvalDescription plan).isSome then
      match plan.executionTarget with
      | .phone => some ⟨x.taskId, plan, x.now + approvalTtlMillis, none⟩
      | .mac => vm.hubConfig.map fun config =>
          ⟨x.taskId, plan, x.now + approvalTtlMillis, some config⟩
      | .cloud => none
    else none

/-- What becomes of confirmations in one action. -/
def confirmations (vm : GoffyViewModel γ) : Action γ → List PhoneEvent
  | .submitCommand x => ((vm.prompt x).map .prompted).toList
  | .approvePendingTask taskId x =>
    match vm.pendingExecution with
    | none => []
    | some p =>
      if p.taskId ≠ taskId then []
      else if p.expiresAtEpochMillis ≤ x.now then [.settled taskId]
      else [.approved taskId x.now]
  | .denyPendingTask taskId _ | .expirePendingApproval taskId _ =>
    if vm.awaits taskId then [.settled taskId] else []
  | .cancelActiveTask _ | .forgetHub _ _ | .rotateHubCredential _ _ =>
    (vm.pendingExecution.map fun p => .settled p.taskId).toList
  | .hubForgotten _ =>
    -- the timeline cancels the active task, and `pendingExecution` stays
    match vm.uiState.timeline.activeTaskId with
    | some taskId => if vm.awaits taskId then [.settled taskId] else []
    | none => []
  | _ => []

end GoffyViewModel

namespace LinkedPhone

/-- The step is the last one of a `forgetHub`, which cancels the active task. -/
def endsForget (link : HubLink.GoffyViewModel) : HubLink.Action → Bool
  | .resume j _ =>
    match link.jobs.get j with
    | some ⟨.forgetHub _ none, .cleared _ _, _⟩ => true
    | some ⟨.forgetHub _ (some _), .revokeSelf _, _⟩ => true
    | _ => false
  | _ => false

/-- The step is the last one of a `rotateHubCredential` that was not too late. -/
def endsRotation (link : HubLink.GoffyViewModel) : HubLink.Action → Bool
  | .resume j outcome =>
    match link.jobs.get j with
    | some ⟨.rotateHubCredential revision _ _, .saved (some _), _⟩ =>
      revision = link.linkRevision ∧ outcome = .returned
    | some ⟨.rotateHubCredential _ _ _, .cleared _ _, _⟩ => true
    | _ => false
  | _ => false

/-- What an action of the link does to the tasks. -/
def onLink (link link' : HubLink.GoffyViewModel) (a : HubLink.Action) (now startedAt : ℤ) :
    Action γ :=
  if endsForget link a then .hubForgotten now
  else if endsRotation link a then .hubRotationEnded none
  else match a with
  | .forgetHub => .forgetHub now startedAt
  | .rotateHubCredential =>
    if !link.uiState.linkOperationInProgress ∧ link.rotation.isSome then
      .rotateHubCredential now startedAt
    else .linkHub link'.hubConfig link'.pairedCredentialId
  | _ => .linkHub link'.hubConfig link'.pairedCredentialId

/-- The tasks read what the link has set. -/
def sync (tasks : GoffyViewModel γ) (link : HubLink.GoffyViewModel) : GoffyViewModel γ :=
  { tasks with
    deviceId := link.deviceId
    hubConfig := link.hubConfig
    pairedCredentialId := link.pairedCredentialId }

/-- One action of the tasks or of the link. -/
def step [ToolResultContent γ] (codec : ArgumentsCodec) (s : LinkedPhone γ) :
    PhoneAction γ → Option (LinkedPhone γ × List PhoneEvent)
  | .task a =>
    if a.isLink then none
    else do
      let (tasks, calls) ← s.tasks.step codec a
      return ({ s with tasks := tasks },
        s.tasks.confirmations a ++ calls.map (.called · s.tasks.pairedCredentialId))
  | .link a now startedAt => do
    let (link, out) ← HubLink.step s.link a
    let onTasks : Action γ := onLink s.link link a now startedAt
    let (tasks, _) ← s.tasks.step codec onTasks
    return (⟨sync tasks link, link⟩, s.tasks.confirmations onTasks ++ out.map .link)

def initial (defaultEndpoint deviceId : Str) (store : Option HubLink.StoredHubCredential)
    (approvalKey : Bool) : LinkedPhone γ where
  tasks := { deviceId := deviceId }
  link := HubLink.GoffyViewModel.initial defaultEndpoint deviceId store approvalKey

end LinkedPhone

/-! ### The rule for a call -/

/-- The call needs a confirmation. -/
def Call.isApproved : Call → Bool
  | .phone _ _ (.approved _ _ _ _) => true
  | .phone _ _ .safe => false
  | .hub _ _ request => request.approvedTaskId.isSome

/-- Nothing is prompted, settled or approved. -/
def PhoneEvent.isQuiet : PhoneEvent → Bool
  | .prompted _ | .settled _ | .approved _ _ => false
  | .called _ _ | .link _ => true

def PhoneEvent.isPrompted : PhoneEvent → Bool
  | .prompted _ => true
  | _ => false

/-- A gateway is invoked for a confirmation. -/
def PhoneEvent.isConfirmedCall : PhoneEvent → Bool
  | .called call _ => call.isApproved
  | _ => false

/-- The events of the link. -/
def linkEvents (es : List PhoneEvent) : List HubLink.Event :=
  es.filterMap fun
    | .link e => some e
    | _ => none

/-- The confirmation was asked for, and neither given, denied, cancelled, expired nor replaced since. -/
def Awaited (es : List PhoneEvent) (p : PendingExecution) : Prop :=
  ∃ pre post, es = pre ++ .prompted p :: post ∧ ∀ e ∈ post, e.isQuiet = true

/-- A call that needs a confirmation has just got it, in time, and is sent to the Hub only with the
configuration of the prompt and the credential that belongs to it. -/
def ProperEvent (pre : List PhoneEvent) : PhoneEvent → Prop
  | .called call current => call.isApproved = true → ∃ before p now,
      pre = before ++ [.approved p.taskId now] ∧ Awaited before p ∧ now < p.expiresAtEpochMillis ∧
        call.taskId = p.taskId ∧
        ∀ taskId config request, call = .hub taskId config request →
          p.hubConfig = some config ∧ ∃ id, current = some id ∧
            request.approvedCredentialId = some id ∧ HubLink.Paired (linkEvents pre) config id
  | _ => True

/-- Nothing is paired anew, and no `forgetHub` ends while the active task waits for its confirmation. -/
def KeepsConfirmations (s : LinkedPhone γ) (_ : List PhoneEvent) : PhoneAction γ → Prop
  | .task _ => True
  | .link a _ _ => a.keepsAuthority = true ∧
      (LinkedPhone.endsForget s.link a = true →
        ∀ taskId, s.tasks.uiState.timeline.activeTaskId = some taskId → s.tasks.awaits taskId = false)

/-! ### What the tasks do about confirmations -/

section Tasks

variable {vm vm' : GoffyViewModel γ} {calls : List Call} {codec : ArgumentsCodec}

/-- The confirmation that is awaited after an event. -/
def awaitedAfter (o : Option PendingExecution) : PhoneEvent → Option PendingExecution
  | .prompted p => some p
  | .settled _ | .approved _ _ => none
  | .called _ _ | .link _ => o

/-- The confirmation `p`, if any, is asked for, and the link is as it was. -/
structure Prompts (vm : GoffyViewModel γ) (p : Option PendingExecution)
    (vm' : GoffyViewModel γ) : Prop where
  pending : vm'.pendingExecution = p.or vm.pendingExecution
  hubConfig : vm'.hubConfig = vm.hubConfig
  credentialId : vm'.pairedCredentialId = vm.pairedCredentialId

theorem prompts_setUi (uiState : GoffyUiState γ) : Prompts vm none (vm.setUi uiState) :=
  ⟨rfl, rfl, rfl⟩

theorem prompts_rejectPlan (x : Submission) (plan : GoffyExecutionPlan) (summary : String) :
    Prompts vm none (vm.rejectPlan x plan summary) := prompts_setUi _

theorem prompts_startLocalModelObservation {x : Submission}
    {observation : Option LocalModelIntentObservation}
    (h : vm.startLocalModelObservationIfAvailable x observation = .ok (.inl vm')) :
    Prompts vm none vm' := by
  unfold GoffyViewModel.startLocalModelObservationIfAvailable at h
  repeat' split at h
  all_goals first
    | cases h
    | skip
  obtain ⟨timeline, -, h⟩ := except_bind_eq_ok.1 h
  cases h
  exact prompts_setUi _

theorem prompts_executeTask {taskId : UUID} {plan : GoffyExecutionPlan} {calls' : List Call}
    (h : vm.executeTask taskId plan calls = .ok (vm', calls')) :
    Prompts vm none vm' ∧ calls' = calls := by
  unfold GoffyViewModel.executeTask at h
  obtain ⟨ui, -, h⟩ := except_bind_eq_ok.1 h
  obtain ⟨rfl, rfl⟩ := Prod.mk.inj (Except.ok.inj h)
  exact ⟨prompts_setUi ui, rfl⟩

theorem prompts_requestApproval {x : Submission} {plan : GoffyExecutionPlan}
    {hubConfig : Option HubConfig} (h : vm.requestApproval x plan hubConfig = .ok (vm', calls)) :
    Prompts vm (if (approvalDescription plan).isSome then
      some ⟨x.taskId, plan, x.now + approvalTtlMillis, hubConfig⟩ else none) vm' ∧ calls = [] := by
  unfold GoffyViewModel.requestApproval at h
  split at h
  case h_1 hnone =>
    obtain ⟨rfl, rfl⟩ := Prod.mk.inj (Except.ok.inj h)
    rw [hnone]
    exact ⟨prompts_setUi _, rfl⟩
  case h_2 description hsome =>
    obtain ⟨ui, -, h⟩ := except_bind_eq_ok.1 h
    obtain ⟨rfl, rfl⟩ := Prod.mk.inj (Except.ok.inj h)
    rw [hsome]
    exact ⟨⟨rfl, rfl, rfl⟩, rfl⟩

/-- A request without a grant asks for no confirmation. -/
theorem isApproved_of_safe {x : Submission} {plan : GoffyExecutionPlan} {config : HubConfig}
    {request : ToolInvocationRequest} (h : createToolInvocation codec x.messageId
      x.discoveryMessageId vm.deviceId plan.toolName plan.arguments none = .ok request) :
    (Call.hub request.messageId config request).isApproved = false := by
  obtain ⟨_, -, -, -, -, rfl⟩ := createToolInvocation_ok h
  rfl

theorem prompts_submitCommand {x : Submission}
    (h : vm.submitCommand codec x = .ok (vm', calls)) :
    Prompts vm (vm.prompt x) vm' ∧ ∀ call ∈ calls, call.isApproved = false := by
  unfold GoffyViewModel.submitCommand at h
  unfold GoffyViewModel.prompt
  split at h
  case isTrue hbusy =>
    obtain ⟨rfl, rfl⟩ := Prod.mk.inj (Except.ok.inj h)
    rw [if_pos hbusy]
    exact ⟨prompts_setUi _, by simp⟩
  case isFalse hbusy =>
    rw [if_neg hbusy]
    cases hdecision : x.decision with
    | unsupported observation =>
      rw [hdecision] at h
      obtain ⟨start, hstart, h⟩ := except_bind_eq_ok.1 h
      cases start with
      | inl started =>
        obtain ⟨rfl, rfl⟩ := Prod.mk.inj (Except.ok.inj h)
        exact ⟨prompts_startLocalModelObservation hstart, by simp⟩
      | inr summary =>
        obtain ⟨rfl, rfl⟩ := Prod.mk.inj (Except.ok.inj h)
        exact ⟨prompts_setUi _, by simp⟩
    | routed plan =>
      rw [hdecision] at h
      dsimp only at h ⊢
      cases htarget : plan.executionTarget with
      | phone =>
        rw [htarget] at h
        dsimp only at h
        unfold GoffyViewModel.submitPhonePlan at h
        cases hpermission : plan.permission with
        | safe =>
          rw [hpermission] at h
          obtain ⟨hprompts, rfl⟩ := prompts_executeTask h
          exact ⟨by simpa using hprompts, by simp [Call.isApproved]⟩
        | confirm =>
          rw [hpermission] at h
          obtain ⟨hprompts, rfl⟩ := prompts_requestApproval h
          exact ⟨by simpa using hprompts, by simp⟩
        | _ =>
          rw [hpermission] at h
          obtain ⟨rfl, rfl⟩ := Prod.mk.inj (Except.ok.inj h)
          exact ⟨by simpa using prompts_rejectPlan x plan _, by simp⟩
      | mac =>
        rw [htarget] at h
        dsimp only at h
        unfold GoffyViewModel.submitMacPlan at h
        cases hconfig : vm.hubConfig with
        | none =>
          rw [hconfig] at h
          obtain ⟨rfl, rfl⟩ := Prod.mk.inj (Except.ok.inj h)
          exact ⟨by simpa using prompts_rejectPlan x plan _, by simp⟩
        | some config =>
          rw [hconfig] at h
          dsimp only at h
          cases hpermission : plan.permission with
          | safe =>
            rw [hpermission] at h
            obtain ⟨request, hrequest, h⟩ := except_bind_eq_ok.1 h
            obtain ⟨hprompts, rfl⟩ := prompts_executeTask h
            refine ⟨by simpa using hprompts, fun call hcall => ?_⟩
            rw [List.mem_singleton.1 hcall]
            exact isApproved_of_safe hrequest
          | confirm =>
            rw [hpermission] at h
            obtain ⟨hprompts, rfl⟩ := prompts_requestApproval h
            exact ⟨by simpa using hprompts, by simp⟩
          | _ =>
            rw [hpermission] at h
            obtain ⟨rfl, rfl⟩ := Prod.mk.inj (Except.ok.inj h)
            exact ⟨by simpa using prompts_rejectPlan x plan _, by simp⟩
      | cloud =>
        rw [htarget] at h
        obtain ⟨rfl, rfl⟩ := Prod.mk.inj (Except.ok.inj h)
        exact ⟨by simpa using prompts_rejectPlan x plan _, by simp⟩

/-- What an approval hands to a gateway for the confirmation `p`. -/
structure ConfirmedBy (vm : GoffyViewModel γ) (p : PendingExecution) (call : Call) : Prop where
  taskId : call.taskId = p.taskId
  hub : ∀ taskId config request, call = .hub taskId config request →
    p.hubConfig = some config ∧ ∃ id, vm.pairedCredentialId = some id ∧
      request.approvedCredentialId = some id

/-- What an action of the tasks does to the confirmation and to the link. -/
structure TaskStep (vm : GoffyViewModel γ) (a : Action γ) (vm' : GoffyViewModel γ)
    (calls : List Call) : Prop where
  pending : vm'.pendingExecution = (vm.confirmations a).foldl awaitedAfter vm.pendingExecution
  hubConfig : vm'.hubConfig = vm.hubConfig
  credentialId : vm'.pairedCredentialId = vm.pairedCredentialId
  captured : ∀ p, vm'.pendingExecution = some p →
    p.hubConfig = none ∨ p.hubConfig = vm.hubConfig ∨ vm.pendingExecution = some p
  confirmed : ∀ call ∈ calls, call.isApproved = true → calls = [call] ∧ ∃ p now,
    vm.pendingExecution = some p ∧ vm.confirmations a = [.approved p.taskId now] ∧
      now < p.expiresAtEpochMillis ∧ ConfirmedBy vm p call

/-- Nothing is prompted, settled, approved or called. -/
theorem taskStep_of_prompts {a : Action γ} (h : Prompts vm none vm')
    (ha : vm.confirmations a = []) : TaskStep vm a vm' [] where
  pending := by
    rw [ha]
    exact h.pending
  hubConfig := h.hubConfig
  credentialId := h.credentialId
  captured p hp := by
    rw [h.pending] at hp
    exact Or.inr (Or.inr hp)
  confirmed call hcall := by cases hcall

/-- A confirmation is settled, if this one is awaited. -/
theorem taskStep_of_settled {a : Action γ} {taskId : UUID}
    (ha : vm.confirmations a = if vm.awaits taskId then [.settled taskId] else [])
    (hpending : vm'.pendingExecution = if vm.awaits taskId then none else vm.pendingExecution)
    (hconfig : vm'.hubConfig = vm.hubConfig)
    (hid : vm'.pairedCredentialId = vm.pairedCredentialId) : TaskStep vm a vm' [] where
  pending := by
    rw [ha, hpending]
    split <;> rfl
  hubConfig := hconfig
  credentialId := hid
  captured p hp := by
    rw [hpending] at hp
    split at hp
    · cases hp
    · exact Or.inr (Or.inr hp)
  confirmed call hcall := by cases hcall

theorem prompts_expirePendingApproval (taskId : UUID) (now : ℤ) :
    (vm.expirePendingApproval taskId now).pendingExecution =
        (if vm.awaits taskId then none else vm.pendingExecution) ∧
      (vm.expirePendingApproval taskId now).hubConfig = vm.hubConfig ∧
      (vm.expirePendingApproval taskId now).pairedCredentialId = vm.pairedCredentialId := by
  unfold GoffyViewModel.expirePendingApproval GoffyViewModel.awaits
  cases hp : vm.pendingExecution with
  | none => simp [hp]
  | some p => by_cases h : p.taskId = taskId <;> simp [hp, h]

theorem prompts_denyPendingTask (taskId : UUID) (now : ℤ) :
    (vm.denyPendingTask taskId now).pendingExecution =
        (if vm.awaits taskId then none else vm.pendingExecution) ∧
      (vm.denyPendingTask taskId now).hubConfig = vm.hubConfig ∧
      (vm.denyPendingTask taskId now).pairedCredentialId = vm.pairedCredentialId := by
  unfold GoffyViewModel.denyPendingTask GoffyViewModel.awaits
  cases hp : vm.pendingExecution with
  | none => simp [hp]
  | some p => by_cases h : p.taskId = taskId <;> simp [hp, h]

/-- Cancelling leaves no confirmation. -/
theorem pending_cancelActiveTask (now : ℤ) :
    (vm.cancelActiveTask now).pendingExecution = none ∧
      (vm.cancelActiveTask now).hubConfig = vm.hubConfig ∧
      (vm.cancelActiveTask now).pairedCredentialId = vm.pairedCredentialId := by
  unfold GoffyViewModel.cancelActiveTask
  split
  · exact ⟨rfl, rfl, rfl⟩
  case h_2 hnone => exact ⟨hnone, rfl, rfl⟩

theorem foldl_settled_eq_none :
    ((vm.pendingExecution.map fun p => PhoneEvent.settled p.taskId).toList).foldl awaitedAfter
      vm.pendingExecution = none := by
  cases vm.pendingExecution <;> rfl

/-- A plan for the Mac is prompted under the configuration in force. -/
theorem hubConfig_of_prompt {x : Submission} {p : PendingExecution} (h : vm.prompt x = some p) :
    p.hubConfig = none ∨ p.hubConfig = vm.hubConfig := by
  unfold GoffyViewModel.prompt at h
  split at h
  · cases h
  split at h
  · cases h
  split at h
  · split at h
    · cases h
      exact Or.inl rfl
    · obtain ⟨config, hconfig, rfl⟩ := Option.map_eq_some_iff.1 h
      exact Or.inr hconfig.symm
    · cases h
  · cases h

theorem prompts_recordForeground {r : GoffyViewModel.ForegroundRead} {raw : Str}
    {rejectId taskId : UUID} {now : ℤ}
    (h : vm.recordForeground r raw rejectId taskId now = .ok (vm', calls)) :
    Prompts vm none vm' ∧ calls = [] := by
  unfold GoffyViewModel.recordForeground at h
  split at h
  · obtain ⟨rfl, rfl⟩ := Prod.mk.inj (Except.ok.inj h)
    exact ⟨prompts_setUi _, rfl⟩
  split at h
  · obtain ⟨rfl, rfl⟩ := Prod.mk.inj (Except.ok.inj h)
    exact ⟨prompts_setUi _, rfl⟩
  · exact prompts_executeTask h

theorem taskStep_submitCommand {x : Submission}
    (h : vm.submitCommand codec x = .ok (vm', calls)) :
    TaskStep vm (.submitCommand x) vm' calls := by
  obtain ⟨hprompts, hcalls⟩ := prompts_submitCommand h
  refine ⟨?_, hprompts.hubConfig, hprompts.credentialId, fun p hp => ?_, fun call hcall hc => ?_⟩
  · rw [hprompts.pending, GoffyViewModel.confirmations]
    cases vm.prompt x <;> rfl
  · rw [hprompts.pending] at hp
    cases hprompt : vm.prompt x with
    | none =>
      rw [hprompt] at hp
      exact Or.inr (Or.inr hp)
    | some q =>
      rw [hprompt] at hp
      cases hp
      exact (hubConfig_of_prompt hprompt).imp_right Or.inl
  · rw [hcalls call hcall] at hc
    cases hc

variable [ToolResultContent γ]

theorem startApproved_spec (p : PendingExecution) (x : GoffyViewModel.ApprovalInput) :
    Prompts vm none (vm.startApproved codec p x).1 ∧
      ((vm.startApproved codec p x).2 = [] ∨
        ∃ call, (vm.startApproved codec p x).2 = [call] ∧ ConfirmedBy vm p call) := by
  unfold GoffyViewModel.startApproved
  split
  · exact ⟨⟨rfl, rfl, rfl⟩, Or.inr ⟨_, rfl, rfl, fun _ _ _ h => by cases h⟩⟩
  · split
    · exact ⟨prompts_setUi _, Or.inl rfl⟩
    case h_2 config hconfig =>
      split
      · exact ⟨prompts_setUi _, Or.inl rfl⟩
      case h_2 id hid =>
        dsimp only
        split
        · exact ⟨⟨rfl, rfl, rfl⟩, Or.inl rfl⟩
        case h_2 request hrequest =>
          refine ⟨⟨rfl, rfl, rfl⟩, Or.inr ⟨_, rfl, rfl, fun taskId config' request' h => ?_⟩⟩
          cases h
          obtain ⟨_, -, -, -, -, rfl⟩ := createToolInvocation_ok hrequest
          exact ⟨hconfig, id, hid, rfl⟩
  · exact ⟨prompts_setUi _, Or.inl rfl⟩

theorem taskStep_approvePendingTask (taskId : UUID) (x : GoffyViewModel.ApprovalInput) :
    TaskStep vm (.approvePendingTask taskId x) (vm.approvePendingTask codec taskId x).1
      (vm.approvePendingTask codec taskId x).2 := by
  unfold GoffyViewModel.approvePendingTask
  cases hp : vm.pendingExecution with
  | none =>
    exact taskStep_of_prompts ⟨rfl, rfl, rfl⟩ (by simp [GoffyViewModel.confirmations, hp])
  | some p =>
    dsimp only
    by_cases htask : p.taskId = taskId
    · subst htask
      rw [if_neg (not_not.2 rfl)]
      split
      case isTrue hlate =>
        obtain ⟨hpending, hconfig, hid⟩ := @prompts_expirePendingApproval γ vm p.taskId x.approvedAt
        refine taskStep_of_settled ?_ hpending hconfig hid
        simp [GoffyViewModel.confirmations, GoffyViewModel.awaits, hp, hlate]
      case isFalse hlate =>
        have hconfirmations : vm.confirmations (.approvePendingTask p.taskId x) =
            [.approved p.taskId x.now] := by
          simp [GoffyViewModel.confirmations, hp, hlate]
        obtain ⟨hprompts, hcalls⟩ := @startApproved_spec γ { vm with
          pendingExecution := none
          uiState := vm.uiState.grantApproval p.taskId x.approvedAt } codec _ p x
        have hnone := hprompts.pending
        refine ⟨?_, hprompts.hubConfig, hprompts.credentialId, fun q hq => ?_, fun call hcall _ => ?_⟩
        · rw [hconfirmations, hnone]
          rfl
        · rw [hnone] at hq
          cases hq
        · rcases hcalls with hcalls | ⟨call', hcalls, hconfirmed⟩
          · rw [hcalls] at hcall
            cases hcall
          · rw [hcalls] at hcall ⊢
            obtain rfl := List.mem_singleton.1 hcall
            exact ⟨rfl, p, x.now, hp, hconfirmations, not_le.1 hlate, hconfirmed.taskId,
              hconfirmed.hub⟩
    · rw [if_pos htask]
      exact taskStep_of_prompts ⟨rfl, rfl, rfl⟩ (by simp [GoffyViewModel.confirmations, hp, htask])

theorem taskStep_of_step {a : Action γ} (ha : a.isLink = false)
    (h : vm.step codec a = some (vm', calls)) : TaskStep vm a vm' calls := by
  cases a with
  | submitCommand x =>
    simp only [GoffyViewModel.step] at h
    exact taskStep_submitCommand (toOption_eq_some.1 h)
  | recordForeground r raw rejectId taskId now =>
    simp only [GoffyViewModel.step] at h
    obtain ⟨hprompts, rfl⟩ := prompts_recordForeground (toOption_eq_some.1 h)
    exact taskStep_of_prompts hprompts rfl
  | recordForegroundUnavailable r summary rejectId now =>
    simp only [GoffyViewModel.step, Option.some.injEq, Prod.mk.injEq] at h
    obtain ⟨rfl, rfl⟩ := h
    unfold GoffyViewModel.recordForegroundUnavailable
    split <;> exact taskStep_of_prompts (prompts_setUi _) rfl
  | approvePendingTask taskId x =>
    simp only [GoffyViewModel.step, Option.some.injEq] at h
    have := @taskStep_approvePendingTask γ vm codec _ taskId x
    rwa [h] at this
  | denyPendingTask taskId now =>
    simp only [GoffyViewModel.step, Option.some.injEq, Prod.mk.injEq] at h
    obtain ⟨rfl, rfl⟩ := h
    obtain ⟨hpending, hconfig, hid⟩ := @prompts_denyPendingTask γ vm taskId now
    exact taskStep_of_settled rfl hpending hconfig hid
  | expirePendingApproval taskId now =>
    simp only [GoffyViewModel.step, Option.some.injEq, Prod.mk.injEq] at h
    obtain ⟨rfl, rfl⟩ := h
    obtain ⟨hpending, hconfig, hid⟩ := @prompts_expirePendingApproval γ vm taskId now
    exact taskStep_of_settled rfl hpending hconfig hid
  | cancelActiveTask now =>
    simp only [GoffyViewModel.step, Option.some.injEq, Prod.mk.injEq] at h
    obtain ⟨rfl, rfl⟩ := h
    obtain ⟨hpending, hconfig, hid⟩ := @pending_cancelActiveTask γ vm now
    refine ⟨?_, hconfig, hid, fun p hp => ?_, fun call hcall => by cases hcall⟩
    · rw [hpending]
      exact foldl_settled_eq_none.symm
    · rw [hpending] at hp
      cases hp
  | linkHub _ _ | forgetHub _ _ | hubForgotten _ | rotateHubCredential _ _ | hubRotationEnded _ =>
    cases ha
  | executionStopped taskId now =>
    simp only [GoffyViewModel.step, Option.some.injEq, Prod.mk.injEq] at h
    obtain ⟨rfl, rfl⟩ := h
    unfold GoffyViewModel.executionStopped
    split <;> exact taskStep_of_prompts ⟨rfl, rfl, rfl⟩ rfl
  | taskEvent _ _ _ | clientFailure _ _ | completeLocalModelObservation _ _ _ | auditLoaded _
  | auditRecorded _ _ =>
    simp only [GoffyViewModel.step, Option.some.injEq, Prod.mk.injEq] at h
    obtain ⟨rfl, rfl⟩ := h
    exact taskStep_of_prompts (prompts_setUi _) rfl

/-- What an action of the link does to the confirmation, when it cancels no task that waits. -/
theorem pending_of_link_step {a : Action γ} (ha : a.isLink = true)
    (hkeeps : ∀ now, a = .hubForgotten now → ∀ taskId,
      vm.uiState.timeline.activeTaskId = some taskId → vm.awaits taskId = false)
    (h : vm.step codec a = some (vm', calls)) :
    vm'.pendingExecution = (vm.confirmations a).foldl awaitedAfter vm.pendingExecution ∧
      (vm'.pendingExecution = none ∨ vm'.pendingExecution = vm.pendingExecution) := by
  cases a with
  | linkHub _ _ | hubRotationEnded _ =>
    simp only [GoffyViewModel.step, Option.some.injEq, Prod.mk.injEq] at h
    obtain ⟨rfl, -⟩ := h
    exact ⟨rfl, Or.inr rfl⟩
  | forgetHub now startedAt | rotateHubCredential now startedAt =>
    simp only [GoffyViewModel.step, Option.some.injEq, Prod.mk.injEq] at h
    obtain ⟨rfl, -⟩ := h
    have hnone := (@pending_cancelActiveTask γ vm now).1
    exact ⟨hnone.trans foldl_settled_eq_none.symm, Or.inl hnone⟩
  | hubForgotten now =>
    simp only [GoffyViewModel.step, Option.some.injEq, Prod.mk.injEq] at h
    obtain ⟨rfl, -⟩ := h
    refine ⟨?_, Or.inr rfl⟩
    have hnone : vm.confirmations (.hubForgotten now) = [] := by
      simp only [GoffyViewModel.confirmations]
      split
      case h_1 taskId hactive => rw [hkeeps now rfl taskId hactive, if_neg (by simp)]
      case h_2 => rfl
    rw [hnone]
    rfl
  | _ => cases ha

end Tasks

/-! ### Whole runs -/

theorem awaited_of_foldl {es : List PhoneEvent} {p : PendingExecution}
    (h : es.foldl awaitedAfter none = some p) : Awaited es p := by
  induction es using List.reverseRecOn with
  | nil => cases h
  | append_singleton es e ih =>
    rw [List.foldl_append] at h
    cases e with
    | prompted q =>
      obtain rfl : q = p := Option.some.inj h
      exact ⟨es, [], rfl, by simp⟩
    | settled _ | approved _ _ => cases h
    | called _ _ | link _ =>
      obtain ⟨pre, post, rfl, hquiet⟩ := ih h
      refine ⟨pre, post ++ [_], by rw [List.append_assoc, List.cons_append], fun e he => ?_⟩
      rcases List.mem_append.1 he with he | he
      · exact hquiet e he
      · rw [List.mem_singleton.1 he]
        rfl

theorem not_quiet_of_mem {vm : GoffyViewModel γ} {a : Action γ} {e : PhoneEvent}
    (he : e ∈ vm.confirmations a) : e.isQuiet = false := by
  unfold GoffyViewModel.confirmations at he
  repeat' split at he
  all_goals first
    | rw [List.mem_singleton.1 he]; rfl
    | obtain ⟨p, -, rfl⟩ := Option.map_eq_some_iff.1 (Option.mem_toList.1 he); rfl
    | cases he

theorem linkEvents_append (es es' : List PhoneEvent) :
    linkEvents (es ++ es') = linkEvents es ++ linkEvents es' := List.filterMap_append

theorem linkEvents_confirmations (vm : GoffyViewModel γ) (a : Action γ) :
    linkEvents (vm.confirmations a) = [] := by
  refine List.filterMap_eq_nil_iff.2 fun e he => ?_
  have hquiet := not_quiet_of_mem he
  cases e <;> first | rfl | cases hquiet

theorem linkEvents_called (calls : List Call) (current : Option UUID) :
    linkEvents (calls.map (.called · current)) = [] := by
  refine List.filterMap_eq_nil_iff.2 fun e he => ?_
  obtain ⟨call, -, rfl⟩ := List.mem_map.1 he
  rfl

theorem linkEvents_link (out : List HubLink.Event) : linkEvents (out.map .link) = out := by
  induction out with
  | nil => rfl
  | cons e out ih =>
    change e :: linkEvents (out.map .link) = e :: out
    rw [ih]

/-- What is only called, or comes from the link, leaves the confirmation. -/
theorem foldl_of_quiet {es : List PhoneEvent} (h : ∀ e ∈ es, e.isQuiet = true)
    (o : Option PendingExecution) : es.foldl awaitedAfter o = o := by
  induction es with
  | nil => rfl
  | cons e es ih =>
    have he := h e List.mem_cons_self
    have : awaitedAfter o e = o := by cases e <;> first | rfl | cases he
    rw [List.foldl_cons, this]
    exact ih fun e' he' => h e' (List.mem_cons_of_mem e he')

/-- What holds of the whole view model and its history. -/
structure ConfirmInv (s : LinkedPhone γ) (es : List PhoneEvent) : Prop where
  pending : s.tasks.pendingExecution = es.foldl awaitedAfter none
  hubConfig : s.tasks.hubConfig = s.link.hubConfig
  credentialId : s.tasks.pairedCredentialId = s.link.pairedCredentialId
  authority : HubLink.Authority s.link (s.tasks.pendingExecution.bind (·.hubConfig)) (linkEvents es)
  proper : AtEach ProperEvent es

namespace ConfirmInv

variable {s s' : LinkedPhone γ} {es out : List PhoneEvent}

/-- The calls of one action are proper. -/
theorem proper_calls {a : Action γ} {vm' : GoffyViewModel γ} {calls : List Call}
    (h : ConfirmInv s es) (ht : TaskStep s.tasks a vm' calls) :
    AtEach (fun pre => ProperEvent (es ++ pre))
      (s.tasks.confirmations a ++ calls.map (.called · s.tasks.pairedCredentialId)) := by
  intro pre e post hsplit
  cases e with
  | called call current =>
    intro hconfirmed
    have hmem : PhoneEvent.called call current ∈
        s.tasks.confirmations a ++ calls.map (.called · s.tasks.pairedCredentialId) := by
      simp [hsplit]
    rcases List.mem_append.1 hmem with hmem | hmem
    · cases not_quiet_of_mem hmem
    obtain ⟨call', hcall, heq⟩ := List.mem_map.1 hmem
    cases heq
    obtain ⟨hone, p, now, hp, happroved, htime, hby⟩ := ht.confirmed call hcall hconfirmed
    -- the approval is all that comes before the call in this step
    have hpre : pre = [.approved p.taskId now] := by
      rw [happroved, hone] at hsplit
      match pre, hsplit with
      | [], hsplit => cases hsplit
      | [x], hsplit =>
        cases hsplit
        rfl
      | x :: y :: pre, hsplit => simp at hsplit
    rw [hpre]
    have hawaited : Awaited es p := awaited_of_foldl (h.pending.symm.trans hp)
    refine ⟨es, p, now, rfl, hawaited, htime, hby.taskId, fun taskId config request heq => ?_⟩
    obtain ⟨hconfig, id, hid, hgrant⟩ := hby.hub taskId config request heq
    refine ⟨hconfig, id, hid, hgrant, ?_⟩
    rw [linkEvents_append, show linkEvents [.approved p.taskId now] = [] from rfl, List.append_nil]
    exact h.authority.kept config id (by rw [hp]; exact hconfig) (h.credentialId.symm.trans hid)
  | prompted _ | settled _ | approved _ _ | link _ => trivial

/-- The tasks go on. -/
theorem task {a : Action γ} {vm' : GoffyViewModel γ} {calls : List Call} (h : ConfirmInv s es)
    (ht : TaskStep s.tasks a vm' calls) : ConfirmInv { s with tasks := vm' }
      (es ++ (s.tasks.confirmations a ++ calls.map (.called · s.tasks.pairedCredentialId))) where
  pending := by
    rw [List.foldl_append, ← h.pending, List.foldl_append, ← ht.pending]
    refine (foldl_of_quiet (fun e he => ?_) _).symm
    obtain ⟨call, -, rfl⟩ := List.mem_map.1 he
    rfl
  hubConfig := ht.hubConfig.trans h.hubConfig
  credentialId := ht.credentialId.trans h.credentialId
  authority := by
    rw [linkEvents_append, linkEvents_append, linkEvents_confirmations, linkEvents_called,
      List.append_nil, List.append_nil]
    refine h.authority.capture ?_
    cases hp : vm'.pendingExecution with
    | none => exact Or.inl rfl
    | some p =>
      rcases ht.captured p hp with hnone | hcurrent | hold
      · exact Or.inl hnone
      · exact Or.inr (Or.inl (hcurrent.trans h.hubConfig))
      · exact Or.inr (Or.inr (by rw [hold]))
  proper := atEach_append h.proper (h.proper_calls ht)

variable [ToolResultContent γ] {codec : ArgumentsCodec}

/-- The link goes on. -/
theorem link {a : HubLink.Action} {now startedAt : ℤ} {vm' : HubLink.GoffyViewModel}
    {tasks' : GoffyViewModel γ} {calls : List Call} {out : List HubLink.Event}
    (h : ConfirmInv s es) (hok : KeepsConfirmations s es (.link a now startedAt))
    (hs : HubLink.step s.link a = some (vm', out))
    (ht : s.tasks.step codec (LinkedPhone.onLink s.link vm' a now startedAt) =
      some (tasks', calls)) :
    ConfirmInv ⟨LinkedPhone.sync tasks' vm', vm'⟩ (es ++
      (s.tasks.confirmations (LinkedPhone.onLink s.link vm' a now startedAt) ++ out.map .link)) := by
  have hlink : (LinkedPhone.onLink (γ := γ) s.link vm' a now startedAt).isLink = true := by
    unfold LinkedPhone.onLink
    repeat' split
    all_goals rfl
  have hkeeps : ∀ now', LinkedPhone.onLink (γ := γ) s.link vm' a now startedAt = .hubForgotten now' →
      ∀ taskId, s.tasks.uiState.timeline.activeTaskId = some taskId →
        s.tasks.awaits taskId = false := by
    intro now' heq
    refine hok.2 ?_
    unfold LinkedPhone.onLink at heq
    repeat' split at heq
    all_goals first | assumption | cases heq
  obtain ⟨hpending, hcaptured⟩ := pending_of_link_step hlink hkeeps ht
  constructor
  · rw [List.foldl_append, ← h.pending, List.foldl_append, ← hpending]
    refine (foldl_of_quiet (fun e he => ?_) _).symm
    obtain ⟨l, -, rfl⟩ := List.mem_map.1 he
    rfl
  · rfl
  · rfl
  · rw [linkEvents_append, linkEvents_append, linkEvents_confirmations, linkEvents_link,
      List.nil_append]
    refine h.authority.step hok.1 hs ?_
    rcases hcaptured with hnone | hsame
    · exact Or.inl (by rw [show (LinkedPhone.sync tasks' vm').pendingExecution =
        tasks'.pendingExecution from rfl, hnone]; rfl)
    · exact Or.inr (by rw [← hsame]; rfl)
  · refine atEach_append h.proper fun pre e post hsplit => ?_
    cases e with
    | called call current =>
      have hmem : PhoneEvent.called call current ∈ s.tasks.confirmations
          (LinkedPhone.onLink s.link vm' a now startedAt) ++ out.map .link := by
        simp [hsplit]
      rcases List.mem_append.1 hmem with hmem | hmem
      · cases not_quiet_of_mem hmem
      · obtain ⟨l, -, heq⟩ := List.mem_map.1 hmem
        cases heq
    | prompted _ | settled _ | approved _ _ | link _ => trivial

theorem step {a : PhoneAction γ} (h : ConfirmInv s es) (hok : KeepsConfirmations s es a)
    (hs : s.step codec a = some (s', out)) : ConfirmInv s' (es ++ out) := by
  cases a with
  | task a =>
    simp only [LinkedPhone.step] at hs
    split at hs
    · cases hs
    case isFalse hlink =>
      simp only [Option.bind_eq_bind, Option.bind_eq_some_iff, Option.pure_def, Option.some.injEq,
        Prod.mk.injEq, Prod.exists] at hs
      obtain ⟨vm', calls, ht, rfl, rfl⟩ := hs
      exact h.task (taskStep_of_step (by simpa using hlink) ht)
  | link a now startedAt =>
    simp only [LinkedPhone.step, Option.bind_eq_bind, Option.bind_eq_some_iff, Option.pure_def,
      Option.some.injEq, Prod.mk.injEq, Prod.exists] at hs
    obtain ⟨vm', out', hlink, tasks', calls, ht, rfl, rfl⟩ := hs
    exact h.link hok hlink ht

end ConfirmInv

theorem foldl_of_awaited {es : List PhoneEvent} {p : PendingExecution} (h : Awaited es p) :
    es.foldl awaitedAfter none = some p := by
  obtain ⟨pre, post, rfl, hquiet⟩ := h
  rw [List.foldl_append, List.foldl_cons]
  exact foldl_of_quiet hquiet _

/-- Where calls are proper, a prompt leads to at most one of them. -/
theorem at_most_one_call {es pre post : List PhoneEvent} {p : PendingExecution}
    (h : AtEach ProperEvent es) (hes : es = pre ++ .prompted p :: post)
    (hlast : ∀ e ∈ post, e.isPrompted = false) :
    (post.filter PhoneEvent.isConfirmedCall).length ≤ 1 := by
  -- after the first call nothing is awaited, so that there is no second one
  have key : ∀ n b, b.length = n → b <+: post →
      (b.filter PhoneEvent.isConfirmedCall).length = 0 ∨
      ((b.filter PhoneEvent.isConfirmedCall).length = 1 ∧
        (pre ++ .prompted p :: b).foldl awaitedAfter none = none) := by
    intro n
    induction n using Nat.strong_induction_on with
    | _ n ih =>
    intro b hn hb
    rcases List.eq_nil_or_concat' b with rfl | ⟨b', e, rfl⟩
    · exact Or.inl rfl
    have hb' : b' <+: post := (List.prefix_append b' [e]).trans hb
    have hlen' : b'.length < n := by
      rw [← hn, List.length_append]
      exact Nat.lt_succ_self _
    rw [List.filter_append, List.length_append, ← List.cons_append, ← List.append_assoc,
      List.foldl_append]
    by_cases hcall : e.isConfirmedCall = true
    · cases e with
      | called call current =>
        obtain ⟨rest, rfl⟩ := hb
        obtain ⟨before, q, now, hbefore, hawaited, -⟩ :=
          h (pre ++ .prompted p :: b') (.called call current) rest (by simp [hes]) hcall
        rcases List.eq_nil_or_concat' b' with rfl | ⟨b'', x, rfl⟩
        · cases (List.cons.inj (List.append_inj' hbefore rfl).2).1
        · rw [← List.cons_append, ← List.append_assoc] at hbefore
          obtain ⟨rfl, hx⟩ := List.append_inj' hbefore rfl
          obtain rfl := (List.cons.inj hx).1
          have hlen : b''.length < n := by
            rw [List.length_append] at hlen'
            omega
          rcases ih _ hlen b'' rfl ((List.prefix_append b'' [_]).trans hb') with
            hzero | ⟨-, hnone⟩
          · refine Or.inr ⟨?_, ?_⟩
            · rw [List.filter_append, List.length_append, hzero]
              simp [PhoneEvent.isConfirmedCall, show call.isApproved = true from hcall]
            · rw [← List.cons_append, ← List.append_assoc, List.foldl_append]
              rfl
          · rw [foldl_of_awaited hawaited] at hnone
            cases hnone
      | prompted _ | settled _ | approved _ _ | link _ => cases hcall
    · have hnot : [e].filter PhoneEvent.isConfirmedCall = [] := by simp [hcall]
      rw [hnot, List.length_nil, Nat.add_zero]
      refine (ih _ hlen' b' rfl hb').imp_right fun ⟨hone, hnone⟩ => ⟨hone, ?_⟩
      rw [hnone]
      have he : e.isPrompted = false := hlast e (hb.subset (by simp))
      cases e <;> first | rfl | cases he
  rcases key _ post rfl List.prefix_rfl with hzero | ⟨hone, -⟩
  · omega
  · omega

/-- **Confirmations.** When nothing is paired anew and no end of a `forgetHub` cancels a task that
waits for its confirmation, every call that needs a confirmation is proper, and no confirmation leads
to more than one call. -/
theorem confirmed_calls [ToolResultContent γ] {codec : ArgumentsCodec}
    {defaultEndpoint deviceId : Str} {store : Option HubLink.StoredHubCredential}
    {approvalKey : Bool} {s : LinkedPhone γ} {es : List PhoneEvent}
    (h : Reaches (LinkedPhone.step codec) KeepsConfirmations
      (LinkedPhone.initial defaultEndpoint deviceId store approvalKey) s es) :
    AtEach ProperEvent es ∧ ∀ pre p post, es = pre ++ .prompted p :: post →
      (∀ e ∈ post, e.isPrompted = false) →
      (post.filter PhoneEvent.isConfirmedCall).length ≤ 1 := by
  have hinv : ConfirmInv s es := h.invariant
    ⟨rfl, rfl, rfl, HubLink.Authority.initial _ _ _ _, atEach_nil⟩
    fun _ _ _ _ _ hinv hok hs => hinv.step hok hs
  exact ⟨hinv.proper, fun pre p post hes hlast => at_most_one_call hinv.proper hes hlast⟩

instance (s : LinkedPhone γ) (es : List PhoneEvent) (a : PhoneAction γ) :
    Decidable (KeepsConfirmations s es a) :=
  match a with
  | .task _ => inferInstanceAs (Decidable True)
  | .link a _ _ => inferInstanceAs (Decidable (a.keepsAuthority = true ∧
      (LinkedPhone.endsForget s.link a = true →
        ∀ taskId ∈ s.tasks.uiState.timeline.activeTaskId, s.tasks.awaits taskId = false)))

/-- The link is restored, and Safari is opened with an approval. -/
def openRun : List (PhoneAction ContentType) :=
  List.replicate 2 (.link (.resume 0 .returned) 500 500) ++
    [.task (.submitCommand openSafari), .task (.approvePendingTask 1 approveFirst)]

/-- The phone that `openRun` starts from. -/
def storedPhone : LinkedPhone ContentType :=
  .initial (lit "wss://") (lit "p") (some HubLink.pairedCredential) true

theorem open_is_confirmed : ∃ s es request,
    Reaches (LinkedPhone.step safariCodec) KeepsConfirmations storedPhone s es ∧
    AtEach ProperEvent es ∧
    .called (.hub 1 HubLink.pairedCredential.toHubConfig request) (some 1) ∈ es ∧
      request.approvedTaskId = some 1 := by
  obtain ⟨s, pending, request, hrun, htask⟩ : ∃ s pending request,
      run (LinkedPhone.step safariCodec) storedPhone openRun =
        some (s, [.link (.restored HubLink.pairedCredential), .prompted pending, .approved 1 2000,
          .called (.hub 1 HubLink.pairedCredential.toHubConfig request) (some 1)]) ∧
      request.approvedTaskId = some 1 :=
    ⟨_, _, _, rfl, rfl⟩
  have hreach : Reaches (LinkedPhone.step safariCodec) KeepsConfirmations storedPhone s _ :=
    reaches_of_run (by decide) hrun
  exact ⟨s, _, request, hreach, (confirmed_calls hreach).1, by simp, htask⟩

/-- The link is removed on a phone that was never paired, and while the coroutine of `forgetHub` waits
for the disk, a command asks for its confirmation. Then the coroutine ends, and the user approves. -/
def forgetMeanwhileRun : List (PhoneAction ContentType) :=
  List.replicate 2 (.link (.resume 0 .returned) 500 500) ++
    [.link .forgetHub 500 500, .task (.submitCommand (flashlightOn 0 1000))] ++
    List.replicate 4 (.link (.resume 1 .returned) 1500 1500) ++
    [.task (.approvePendingTask 1 approveFirst)]

/-- What comes of it. -/
def forgetMeanwhileEvents (pending : PendingExecution) (call : Call) : List PhoneEvent :=
  [.prompted pending, .link (.cleared 1), .link (.keyDeleted 1), .settled 1, .approved 1 2000,
    .called call none]

/-- The task is cancelled, and no tool was invoked, as the timeline says. Its approval still turns on
the flashlight. -/
theorem cancelled_confirmation_is_called : ∃ s pending call,
    Reaches (LinkedPhone.step emptyCodec) anyStep
      (LinkedPhone.initial (γ := ContentType) (lit "wss://") (lit "p") none false) s
      (forgetMeanwhileEvents pending call) ∧
    (s.tasks.uiState.timeline.entries.map fun e => (e.id, e.phase, e.summary)) =
      [(1, .cancelled, lit "Approval cancelled; no tool was invoked")] ∧
    pending.taskId = 1 ∧ call.taskId = 1 ∧
    ¬ AtEach ProperEvent (forgetMeanwhileEvents pending call) := by
  obtain ⟨s, pending, call, hrun, hentries, hpending, hcall, happroved⟩ : ∃ s pending call,
      run (LinkedPhone.step emptyCodec)
          (LinkedPhone.initial (γ := ContentType) (lit "wss://") (lit "p") none false)
          forgetMeanwhileRun = some (s, forgetMeanwhileEvents pending call) ∧
      (s.tasks.uiState.timeline.entries.map fun e => (e.id, e.phase, e.summary)) =
        [(1, .cancelled, lit "Approval cancelled; no tool was invoked")] ∧
      pending.taskId = 1 ∧ call.taskId = 1 ∧ call.isApproved = true :=
    ⟨_, _, _, rfl, rfl, rfl, rfl, rfl⟩
  refine ⟨s, pending, call, run_reaches hrun, hentries, hpending, hcall, fun hproper => ?_⟩
  obtain ⟨before, p, now, hbefore, hawaited, -⟩ :=
    hproper ((forgetMeanwhileEvents pending call).take 5) (.called call none) [] rfl happroved
  replace hbefore : (forgetMeanwhileEvents pending call).take 4 ++ [.approved 1 2000] =
    before ++ [.approved p.taskId now] := hbefore
  -- before the approval, the confirmation was settled
  obtain ⟨rfl, -⟩ := List.append_inj' hbefore rfl
  cases foldl_of_awaited hawaited

end GoffyPhone
