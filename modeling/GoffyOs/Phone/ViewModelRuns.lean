import GoffyOs.Lib.Machine
import GoffyOs.Phone.TaskTimelineRuns
import GoffyOs.Phone.ViewModel

/-!
# The active task of the view model and its entry

The timeline is trimmed to its newest 50 entries without a look at the active task, and the view
model goes on from its own `pendingExecution`. So the active task keeps its entry only as long as
nothing is added while its entry is the oldest of a full timeline.

* `Timely` says of a timeline that the active task has exactly one entry, which has not come to its
  end, and `Changes` what all operations have in common that add no entry;
* `Submitted` says what submitting a command can do;
* `active_task_has_entry` is the result about whole runs, and `trimmed_task_is_invoked` the run in
  which the entry of an active task is trimmed.
-/

namespace GoffyPhone

open Kotlin Timeline
open Python (UUID)
open Recent

variable {γ : Type}

/-! ### Timelines -/

/-- The ids of the entries. -/
def TaskTimelineState.ids (s : TaskTimelineState γ) : List UUID := s.entries.map (·.id)

/-- The active task has exactly one entry, which has not come to its end. -/
structure Timely (s : TaskTimelineState γ) : Prop where
  nodup : s.ids.Nodup
  length_le : s.entries.length ≤ maxTimelineItems
  mem_active : ∀ taskId, s.activeTaskId = some taskId → taskId ∈ s.ids
  activeOpen : ActiveOpen s

section Timelines

variable {s s' : TaskTimelineState γ} {e : TaskTimelineEntry γ} {k taskId : UUID}

theorem timely_empty : Timely ({} : TaskTimelineState γ) where
  nodup := List.nodup_nil
  length_le := Nat.zero_le _
  mem_active _ h := by cases h
  activeOpen := activeOpen_of_none rfl

theorem Timely.entry (hs : Timely s) (hactive : s.activeTaskId = some taskId) :
    ∃ e, s.entries.filter (·.id = taskId) = [e] ∧ e.phase.terminal = false := by
  obtain ⟨e, he, rfl⟩ := List.mem_map.1 (hs.mem_active taskId hactive)
  obtain ⟨pre, post, hentries⟩ := List.append_of_mem he
  have hnodup := hs.nodup
  unfold TaskTimelineState.ids at hnodup
  rw [hentries, List.map_append, List.map_cons, List.nodup_append] at hnodup
  obtain ⟨-, hpost, hpre⟩ := hnodup
  have hpost' : ∀ y ∈ post, y.id ≠ e.id := fun y hy heq =>
    (List.nodup_cons.1 hpost).1 (heq ▸ List.mem_map_of_mem hy)
  have hpre' : ∀ y ∈ pre, y.id ≠ e.id := fun y hy =>
    hpre _ (List.mem_map_of_mem hy) _ List.mem_cons_self
  refine ⟨e, ?_, hs.activeOpen e.id e hactive ⟨pre, post, hentries, rfl, hpost'⟩⟩
  rw [hentries, List.filter_append, List.filter_cons_of_pos (by simp),
    List.filter_eq_nil_iff.2 (by simpa using hpre'), List.filter_eq_nil_iff.2 (by simpa using hpost')]
  rfl

/-! #### Operations that add no entry -/

/-- What the operations have in common that add no entry: the tasks stay in their places, and the
active task keeps its entry. -/
structure Changes (s s' : TaskTimelineState γ) : Prop where
  ids_eq : s'.ids = s.ids
  timely : Timely s → Timely s'

theorem Changes.refl (s : TaskTimelineState γ) : Changes s s := ⟨rfl, fun h => h⟩

theorem Changes.of_eq {s₁ : TaskTimelineState γ} (heq : s = s₁) (h : Changes s₁ s') :
    Changes s s' := heq ▸ h

theorem Changes.trans {s'' : TaskTimelineState γ} (h : Changes s s') (h' : Changes s' s'') :
    Changes s s'' := ⟨h'.ids_eq.trans h.ids_eq, fun hs => h'.timely (h.timely hs)⟩

theorem changes_of_active (hids : s'.ids = s.ids)
    (hactive : s'.activeTaskId = none ∨ s'.activeTaskId = s.activeTaskId)
    (hopen : ActiveOpen s → ActiveOpen s') : Changes s s' where
  ids_eq := hids
  timely hs := {
    nodup := hids ▸ hs.nodup
    length_le := by
      have hlength := congrArg List.length hids
      simp only [TaskTimelineState.ids, List.length_map] at hlength
      rw [hlength]
      exact hs.length_le
    mem_active := by
      intro taskId htask
      rcases hactive with hnone | hsame
      · rw [hnone] at htask
        cases htask
      · exact hids ▸ hs.mem_active taskId (hsame ▸ htask)
    activeOpen := hopen hs.activeOpen }

theorem changes_onActive {f : TaskTimelineEntry γ → Option (TaskTimelineEntry γ)}
    (hf : ∀ e e', f e = some e' → e'.id = e.id) : Changes s (s.onActive taskId f) := by
  have hopen : ActiveOpen s → ActiveOpen (s.onActive taskId f) := fun hs => activeOpen_onActive hs hf
  have hcases := onActive_cases s taskId f
  generalize s.onActive taskId f = s' at hcases hopen
  cases hcases with
  | same => exact .refl s
  | missing => exact changes_of_active rfl (Or.inl rfl) hopen
  | changed hactive hentries _ _ hy =>
    refine changes_of_active ?_ ?_ hopen
    · simp [TaskTimelineState.ids, hentries, hf _ _ hy]
    · dsimp only
      split
      · exact Or.inl rfl
      · exact Or.inr rfl

/-- An operation on the active task adds no entry. -/
theorem changes_step [ToolResultContent γ] {op : Op γ} {input : Input γ}
    {f : TaskTimelineEntry γ → Option (TaskTimelineEntry γ)}
    (hop : op.change s.activeTaskId = some (taskId, input, f)) : Changes s (step s op) := by
  rw [step_eq_onActive hop]
  exact changes_onActive fun e e' he => id_change hop he

theorem changes_cancelActive [ToolResultContent γ] (s : TaskTimelineState γ) (now : ℤ) :
    Changes s (s.cancelActive now) := by
  cases hactive : s.activeTaskId with
  | none =>
    have hsame : s.cancelActive now = s := by
      unfold TaskTimelineState.cancelActive
      rw [hactive]
    rw [hsame]
    exact .refl s
  | some taskId =>
    have hop : (Op.cancelActive now : Op γ).change s.activeTaskId =
        some (taskId, .cancel, fun e => some (e.cancelled.withTerminalTimestamp now)) := by
      simp [Op.change, hactive]
    exact changes_step hop

theorem changes_onLast {f : ℕ → TaskTimelineEntry γ → Option (TaskTimelineState γ)}
    (hf : ∀ pre e post s', s.entries = pre ++ e :: post → f pre.length e = some s' → Changes s s') :
    Changes s (s.onLast taskId s f) := by
  rcases onLast_cases s s taskId f with ⟨-, heq⟩ | ⟨pre, e, post, hentries, -, -, heq⟩
  · rw [heq]
    exact .refl s
  · rw [heq]
    cases h : f pre.length e with
    | none => exact .refl s
    | some s' => exact hf pre e post s' hentries h

theorem changes_markAuditRecorded {now : ℤ} (h : s.markAuditRecorded taskId now = .ok s') :
    Changes s s' := by
  unfold TaskTimelineState.markAuditRecorded at h
  split at h
  · cases h
  obtain rfl := Except.ok.inj h
  refine changes_onLast fun pre e post s'' hentries hmarked => ?_
  split at hmarked
  · obtain rfl := Option.some.inj hmarked
    rw [hentries, set_length_append]
    refine changes_of_active ?_ (Or.inr rfl) fun hs => activeOpen_replace hs hentries rfl rfl
    simp [TaskTimelineState.ids, hentries]
  · cases hmarked

/-! #### New entries -/

/-- A new entry would not push this task out: the timeline is not full, or its oldest entry is of
another task. -/
def TaskTimelineState.Spares (s : TaskTimelineState γ) (k : UUID) : Prop :=
  s.entries.length = maxTimelineItems → s.ids.head? ≠ some k

theorem ids_add (s : TaskTimelineState γ) (e : TaskTimelineEntry γ) :
    TaskTimelineState.ids (s.add e) = takeLast maxTimelineItems (s.ids ++ [e.id]) := by
  simp [TaskTimelineState.ids, Timeline.add, map_takeLast]

theorem mem_ids_add (hlength : s.entries.length ≤ maxTimelineItems) (hk : k ∈ s.ids)
    (hspares : s.Spares k) : k ∈ TaskTimelineState.ids (s.add e) := by
  have hids : s.ids.length = s.entries.length := List.length_map _
  rw [ids_add]
  rcases mem_takeLast_concat (hids.trans_le hlength) hk with hmem | ⟨hfull, hhead⟩
  · exact hmem
  · exact absurd hhead (hspares (hids.symm.trans hfull))

theorem mem_ids_add_self : e.id ∈ TaskTimelineState.ids (s.add e) := by
  rw [ids_add]
  refine mem_takeLast_append ?_ (List.mem_singleton_self _)
  exact Nat.succ_le_of_lt (by decide)

/-- A new entry is that of a new active task, or leaves the active task alone. -/
theorem timely_add {active : Option UUID} (hs : Timely s) (hfresh : e.id ∉ s.ids)
    (hactive : active = some e.id ∧ e.phase.terminal = false ∨
      active = s.activeTaskId ∧ ∀ taskId, s.activeTaskId = some taskId → s.Spares taskId) :
    Timely ({ s with activeTaskId := active }.add e) where
  nodup := by
    rw [ids_add]
    refine List.Nodup.sublist (takeLast_suffix _ _).sublist ?_
    rw [List.nodup_append]
    refine ⟨hs.nodup, List.nodup_singleton _, ?_⟩
    intro a ha b hb
    rw [List.mem_singleton.1 hb]
    rintro rfl
    exact hfresh ha
  length_le := length_takeLast_le _ _
  mem_active := by
    intro taskId htask
    rcases hactive with ⟨rfl, -⟩ | ⟨rfl, hspares⟩
    · obtain rfl := Option.some.inj htask
      exact mem_ids_add_self
    · exact mem_ids_add (s := s) hs.length_le (hs.mem_active taskId htask) (hspares taskId htask)
  activeOpen := by
    refine activeOpen_add ?_
    rcases hactive with ⟨rfl, hopen⟩ | ⟨rfl, -⟩
    · exact Or.inl ⟨rfl, hopen⟩
    · exact Or.inr ⟨fun htask => hfresh (hs.mem_active _ htask), hs.activeOpen⟩

/-! #### Restored entries -/

/-- Restored entries come first, and push out no task of the timeline. -/
theorem mem_ids_merge {restored : List (TaskTimelineEntry γ)} (hnodup : s.ids.Nodup)
    (hlength : s.entries.length ≤ maxTimelineItems) (hk : k ∈ s.ids)
    (hrestored : ∀ e ∈ restored, e.id ≠ k) : k ∈ TaskTimelineState.ids (s.merge restored) := by
  have hids : TaskTimelineState.ids (s.merge restored) =
      takeLast maxTimelineItems ((mergedEntries restored s.entries).map idOf) := map_takeLast _ _ _
  rw [hids, map_idOf_mergedEntries, List.foldl_append, Dict.keys_foldl_set (f := idOf) hnodup]
  refine mem_takeLast_append ?_ (List.mem_filter.2 ⟨hk, ?_⟩)
  · refine (List.length_filter_le _ _).trans ?_
    rw [List.length_map]
    exact hlength
  · rw [decide_eq_true_iff, Dict.mem_keys_iff]
    rintro ⟨x, hx⟩
    rcases get?_foldl_set.1 hx with hlast | ⟨-, hempty⟩
    · exact hrestored x hlast.mem hlast.id
    · cases hempty

theorem timely_merge {restored : List (TaskTimelineEntry γ)} (hs : Timely s)
    (hrestored : ∀ e ∈ restored, s.activeTaskId ≠ some e.id) : Timely (s.merge restored) where
  nodup := List.Nodup.sublist ((takeLast_suffix _ _).sublist.map _)
    (nodup_idOf_mergedEntries restored s.entries)
  length_le := length_takeLast_le _ _
  mem_active := by
    intro taskId htask
    refine mem_ids_merge hs.nodup hs.length_le (hs.mem_active taskId htask) fun e he heq =>
      hrestored e he ?_
    rw [heq]
    exact htask
  activeOpen := activeOpen_merge hs.activeOpen hrestored

end Timelines

/-! ### The view model -/

/-- The active task has its entry, and so has the plan that waits for approval. -/
structure Sound (vm : GoffyViewModel γ) : Prop where
  timely : Timely vm.uiState.timeline
  pending : ∀ p, vm.pendingExecution = some p → p.taskId ∈ vm.uiState.timeline.ids

/-- A new entry would push out neither the active task nor the one that waits for approval. -/
def Room (vm : GoffyViewModel γ) : Prop :=
  (∀ taskId, vm.uiState.timeline.activeTaskId = some taskId →
    vm.uiState.timeline.Spares taskId) ∧
  ∀ p, vm.pendingExecution = some p → vm.uiState.timeline.Spares p.taskId

section ViewModels

variable {vm vm' : GoffyViewModel γ} {fresh : List UUID}

/-- What an action does that adds no entry. -/
structure Continues (vm vm' : GoffyViewModel γ) : Prop where
  changes : Changes vm.uiState.timeline vm'.uiState.timeline
  pending : vm'.pendingExecution = none ∨ vm'.pendingExecution = vm.pendingExecution

theorem Continues.trans {vm'' : GoffyViewModel γ} (h : Continues vm vm') (h' : Continues vm' vm'') :
    Continues vm vm'' where
  changes := h.changes.trans h'.changes
  pending := by
    rcases h'.pending with hnone | hsame
    · exact Or.inl hnone
    · rw [hsame]
      exact h.pending

theorem sound_of_continues (hvm : Sound vm) (h : Continues vm vm') : Sound vm' where
  timely := h.changes.timely hvm.timely
  pending := by
    intro p hp
    rcases h.pending with hnone | hsame
    · rw [hnone] at hp
      cases hp
    · rw [h.changes.ids_eq]
      exact hvm.pending p (hsame ▸ hp)

/-- What submitting a command can do: nothing, a rejected entry, or a new active task, which may be
the one that waits for approval then. -/
inductive Submitted (vm : GoffyViewModel γ) (fresh : List UUID) (vm' : GoffyViewModel γ) : Prop
  | kept (htimeline : vm'.uiState.timeline = vm.uiState.timeline)
      (hpending : vm'.pendingExecution = vm.pendingExecution)
  | rejected {e : TaskTimelineEntry γ} (hid : e.id ∈ fresh)
      (htimeline : vm'.uiState.timeline = vm.uiState.timeline.add e)
      (hpending : vm'.pendingExecution = vm.pendingExecution)
  | started {e : TaskTimelineEntry γ} (hid : e.id ∈ fresh) (hopen : e.phase.terminal = false)
      (hchanges : Changes ({ vm.uiState.timeline with activeTaskId := some e.id }.add e)
        vm'.uiState.timeline)
      (hpending : vm'.pendingExecution = vm.pendingExecution ∨
        vm'.pendingExecution.map (·.taskId) = some e.id)

theorem sound_of_submitted (hvm : Sound vm) (hfresh : ∀ k ∈ fresh, k ∉ vm.uiState.timeline.ids)
    (hroom : Room vm) (h : Submitted vm fresh vm') : Sound vm' := by
  obtain ⟨hactive, hwaiting⟩ := hroom
  cases h with
  | kept htimeline hpending =>
    refine sound_of_continues hvm ⟨?_, Or.inr hpending⟩
    rw [htimeline]
    exact .refl _
  | rejected hid htimeline hpending =>
    constructor
    · rw [htimeline]
      exact timely_add hvm.timely (hfresh _ hid) (Or.inr ⟨rfl, hactive⟩)
    · intro p hp
      rw [hpending] at hp
      rw [htimeline]
      exact mem_ids_add hvm.timely.length_le (hvm.pending p hp) (hwaiting p hp)
  | started hid hopen hchanges hpending =>
    rename_i e
    constructor
    · exact hchanges.timely (timely_add hvm.timely (hfresh _ hid) (Or.inl ⟨rfl, hopen⟩))
    · intro p hp
      rw [hchanges.ids_eq]
      rcases hpending with hsame | hnew
      · rw [hsame] at hp
        exact mem_ids_add (s := { vm.uiState.timeline with activeTaskId := some e.id })
          hvm.timely.length_le (hvm.pending p hp) (hwaiting p hp)
      · rw [hp] at hnew
        have hid' : p.taskId = e.id := Option.some.inj hnew
        rw [hid']
        exact mem_ids_add_self

/-! #### Submitting -/

theorem submitted_reject {ui : GoffyUiState γ} {rejectId : UUID} {command summary : Str} {now : ℤ}
    {executionTarget : ExecutionTarget} {toolName : Option Str} {permission : Option PermissionLevel}
    (htimeline : ui.timeline = vm.uiState.timeline.reject rejectId command summary now
      executionTarget toolName permission) (hid : rejectId ∈ fresh) :
    Submitted vm fresh (vm.setUi ui) := by
  unfold TaskTimelineState.reject at htimeline
  split at htimeline
  · exact .kept htimeline rfl
  · exact .rejected hid htimeline rfl

/-- A task is started only while none is active. -/
theorem startTask_ok {ui ui' : GoffyUiState γ} {taskId : UUID} {plan : GoffyExecutionPlan}
    (h : ui.startTask taskId plan = .ok ui') :
    ui'.timeline = { ui.timeline with activeTaskId := some taskId }.add
      (TaskTimelineEntry.started taskId plan) := by
  unfold GoffyUiState.startTask TaskTimelineState.start at h
  split at h
  · cases h
  · obtain rfl := Except.ok.inj h
    rfl

theorem submitted_executeTask {taskId : UUID} {plan : GoffyExecutionPlan} {calls out : List Call}
    (h : vm.executeTask taskId plan calls = .ok (vm', out)) (hid : taskId ∈ fresh) :
    Submitted vm fresh vm' := by
  unfold GoffyViewModel.executeTask at h
  cases hstart : vm.uiState.startTask taskId plan with
  | error message =>
    rw [hstart] at h
    cases h
  | ok ui =>
    rw [hstart] at h
    obtain ⟨rfl, -⟩ := Prod.mk.inj (Except.ok.inj h)
    refine .started (e := .started taskId plan) hid rfl ?_ (Or.inl rfl)
    rw [show (vm.setUi ui).uiState.timeline = _ from startTask_ok hstart]
    exact .refl _

theorem changes_awaitApproval [ToolResultContent γ] (ui : GoffyUiState γ)
    (approval : PendingApproval) (now : ℤ) :
    Changes ui.timeline (ui.awaitApproval approval now).timeline := by
  unfold GoffyUiState.awaitApproval
  split
  · exact .refl _
  · exact @changes_step γ _ _ _ (.awaitApproval approval.taskId approval.description now) _ _ rfl

theorem submitted_requestApproval [ToolResultContent γ] {x : Submission}
    {plan : GoffyExecutionPlan} {hubConfig : Option HubConfig} {out : List Call}
    (h : vm.requestApproval x plan hubConfig = .ok (vm', out)) (hreject : x.rejectId ∈ fresh)
    (htask : x.taskId ∈ fresh) : Submitted vm fresh vm' := by
  unfold GoffyViewModel.requestApproval at h
  split at h
  · obtain ⟨rfl, -⟩ := Prod.mk.inj (Except.ok.inj h)
    exact submitted_reject rfl hreject
  · cases hstart : vm.uiState.startTask x.taskId plan with
    | error message =>
      rw [hstart] at h
      cases h
    | ok ui =>
      rw [hstart] at h
      obtain ⟨rfl, -⟩ := Prod.mk.inj (Except.ok.inj h)
      refine .started (e := .started x.taskId plan) htask rfl ?_ (Or.inr rfl)
      exact .of_eq (startTask_ok hstart).symm (changes_awaitApproval _ _ _)

theorem submitted_submitPhonePlan [ToolResultContent γ] {x : Submission}
    {plan : GoffyExecutionPlan} {out : List Call} (h : vm.submitPhonePlan x plan = .ok (vm', out))
    (hreject : x.rejectId ∈ fresh) (htask : x.taskId ∈ fresh) : Submitted vm fresh vm' := by
  unfold GoffyViewModel.submitPhonePlan at h
  split at h
  · exact submitted_executeTask h htask
  · exact submitted_requestApproval h hreject htask
  · obtain ⟨rfl, -⟩ := Prod.mk.inj (Except.ok.inj h)
    exact submitted_reject rfl hreject
  · obtain ⟨rfl, -⟩ := Prod.mk.inj (Except.ok.inj h)
    exact submitted_reject rfl hreject

theorem submitted_submitMacPlan [ToolResultContent γ] {codec : ArgumentsCodec} {x : Submission}
    {plan : GoffyExecutionPlan} {out : List Call}
    (h : vm.submitMacPlan codec x plan = .ok (vm', out)) (hreject : x.rejectId ∈ fresh)
    (htask : x.taskId ∈ fresh) (hmessage : x.messageId ∈ fresh) : Submitted vm fresh vm' := by
  unfold GoffyViewModel.submitMacPlan at h
  split at h
  · obtain ⟨rfl, -⟩ := Prod.mk.inj (Except.ok.inj h)
    exact submitted_reject rfl hreject
  split at h
  · cases hrequest : createToolInvocation codec x.messageId x.discoveryMessageId vm.deviceId
        plan.toolName plan.arguments none with
    | error message =>
      rw [hrequest] at h
      cases h
    | ok request =>
      rw [hrequest] at h
      obtain ⟨sha256, -, -, -, -, rfl⟩ := createToolInvocation_ok hrequest
      exact submitted_executeTask h hmessage
  · exact submitted_requestApproval h hreject htask
  · obtain ⟨rfl, -⟩ := Prod.mk.inj (Except.ok.inj h)
    exact submitted_reject rfl hreject
  · obtain ⟨rfl, -⟩ := Prod.mk.inj (Except.ok.inj h)
    exact submitted_reject rfl hreject

/-- An observation of the local model starts a task, or is skipped and changes nothing. -/
theorem submitted_startLocalModelObservation {x : Submission}
    {observation : Option LocalModelIntentObservation}
    (h : vm.startLocalModelObservationIfAvailable x observation = .ok (.inl vm'))
    (htask : x.taskId ∈ fresh) : Submitted vm fresh vm' := by
  unfold GoffyViewModel.startLocalModelObservationIfAvailable at h
  split at h
  · cases h
  split at h
  · cases h
  split at h
  · cases h
  split at h
  · cases h
  unfold TaskTimelineState.startLocalModelObservation at h
  split at h
  · cases h
  split at h
  · obtain rfl := Sum.inl.inj (Except.ok.inj h)
    exact .kept rfl rfl
  · obtain rfl := Sum.inl.inj (Except.ok.inj h)
    exact .started (e := .observing x.taskId (TaskTimelineState.normalize x.command)
      x.localModel.summary) htask rfl (.refl _) (Or.inl rfl)

theorem submitted_submitCommand [ToolResultContent γ] {codec : ArgumentsCodec} {x : Submission}
    {out : List Call} (h : vm.submitCommand codec x = .ok (vm', out)) :
    Submitted vm [x.rejectId, x.taskId, x.messageId] vm' := by
  have hreject : x.rejectId ∈ [x.rejectId, x.taskId, x.messageId] := by simp
  have htask : x.taskId ∈ [x.rejectId, x.taskId, x.messageId] := by simp
  have hmessage : x.messageId ∈ [x.rejectId, x.taskId, x.messageId] := by simp
  unfold GoffyViewModel.submitCommand at h
  split at h
  · obtain ⟨rfl, -⟩ := Prod.mk.inj (Except.ok.inj h)
    exact submitted_reject rfl hreject
  split at h
  · obtain ⟨started, hstarted, h⟩ := except_bind_eq_ok.1 h
    cases started with
    | inl started =>
      obtain ⟨rfl, -⟩ := Prod.mk.inj (Except.ok.inj h)
      exact submitted_startLocalModelObservation hstarted htask
    | inr rejectionSummary =>
      obtain ⟨rfl, -⟩ := Prod.mk.inj (Except.ok.inj h)
      exact submitted_reject rfl hreject
  split at h
  · exact submitted_submitPhonePlan h hreject htask
  · exact submitted_submitMacPlan h hreject htask hmessage
  · obtain ⟨rfl, -⟩ := Prod.mk.inj (Except.ok.inj h)
    exact submitted_reject rfl hreject

theorem submitted_recordForeground {r : GoffyViewModel.ForegroundRead} {raw : Str}
    {rejectId taskId : UUID} {now : ℤ} {out : List Call}
    (h : vm.recordForeground r raw rejectId taskId now = .ok (vm', out)) :
    Submitted vm [rejectId, taskId] vm' := by
  unfold GoffyViewModel.recordForeground at h
  split at h
  · obtain ⟨rfl, -⟩ := Prod.mk.inj (Except.ok.inj h)
    exact submitted_reject rfl (by simp)
  split at h
  · obtain ⟨rfl, -⟩ := Prod.mk.inj (Except.ok.inj h)
    exact submitted_reject rfl (by simp)
  · exact submitted_executeTask h (by simp)

theorem submitted_recordForegroundUnavailable (vm : GoffyViewModel γ)
    (r : GoffyViewModel.ForegroundRead) (summary : Str) (rejectId : UUID) (now : ℤ) :
    Submitted vm [rejectId] (vm.recordForegroundUnavailable r summary rejectId now) := by
  unfold GoffyViewModel.recordForegroundUnavailable
  split
  · exact submitted_reject rfl (by simp)
  · exact submitted_reject rfl (by simp)

/-! #### Everything else -/

theorem continues_auditRecorded (taskId : UUID) (now : ℤ) : Continues vm
    (vm.setUi ((vm.uiState.auditRecorded taskId now).toOption.getD vm.uiState)) := by
  unfold GoffyUiState.auditRecorded
  cases hmarked : vm.uiState.timeline.markAuditRecorded taskId now with
  | error message => exact ⟨.refl _, Or.inr rfl⟩
  | ok timeline => exact ⟨changes_markAuditRecorded hmarked, Or.inr rfl⟩

theorem sound_auditLoaded {restored : List (TaskTimelineEntry γ)} (hvm : Sound vm)
    (hrestored : ∀ e ∈ restored, vm.uiState.timeline.activeTaskId ≠ some e.id ∧
      vm.pendingExecution.map (·.taskId) ≠ some e.id) :
    Sound (vm.setUi ((vm.uiState.auditLoaded restored).toOption.getD vm.uiState)) := by
  unfold GoffyUiState.auditLoaded TaskTimelineState.mergeRestoredAudit
  split
  · constructor
    · exact timely_merge hvm.timely fun e he => (hrestored e he).1
    · intro p hp
      refine mem_ids_merge hvm.timely.nodup hvm.timely.length_le (hvm.pending p hp) fun e he heq =>
        (hrestored e he).2 ?_
      rw [show vm.pendingExecution = some p from hp, heq]
      rfl
  · exact hvm

section Rest

variable [ToolResultContent γ] (ui : GoffyUiState γ) (taskId : UUID) (now : ℤ)

theorem changes_grantApproval : Changes ui.timeline (ui.grantApproval taskId now).timeline := by
  unfold GoffyUiState.grantApproval
  split
  · exact @changes_step γ _ _ _ (.grantApproval taskId now) _ _ rfl
  · exact .refl _

theorem changes_denyApproval (summary : Str) :
    Changes ui.timeline (ui.denyApproval taskId summary now).timeline := by
  unfold GoffyUiState.denyApproval
  split
  · exact @changes_step γ _ _ _ (.denyApproval taskId summary now) _ _ rfl
  · exact .refl _

theorem changes_expireApproval : Changes ui.timeline (ui.expireApproval taskId now).timeline := by
  unfold GoffyUiState.expireApproval
  split
  · exact @changes_step γ _ _ _ (.expireApproval taskId now) _ _ rfl
  · exact .refl _

theorem changes_applyTaskEvent (event : ExecutionEvent γ) :
    Changes ui.timeline (ui.applyTaskEvent taskId event now).timeline := by
  unfold GoffyUiState.applyTaskEvent
  split
  · exact .refl _
  · exact @changes_step γ _ _ _ (.apply taskId event now) _ _ rfl

theorem continues_failApproved (code message : String) :
    Continues vm (vm.failApproved taskId now code message) :=
  ⟨changes_applyTaskEvent _ _ _ _, Or.inr rfl⟩

theorem continues_expirePendingApproval : Continues vm (vm.expirePendingApproval taskId now) := by
  unfold GoffyViewModel.expirePendingApproval
  split
  · exact ⟨.refl _, Or.inr rfl⟩
  split
  · exact ⟨.refl _, Or.inr rfl⟩
  · exact ⟨changes_expireApproval _ _ _, Or.inl rfl⟩

theorem continues_denyPendingTask : Continues vm (vm.denyPendingTask taskId now) := by
  unfold GoffyViewModel.denyPendingTask
  split
  · exact ⟨.refl _, Or.inr rfl⟩
  split
  · exact ⟨.refl _, Or.inr rfl⟩
  · exact ⟨changes_denyApproval _ _ _ _, Or.inl rfl⟩

theorem continues_cancelActiveTask : Continues vm (vm.cancelActiveTask now) := by
  unfold GoffyViewModel.cancelActiveTask
  split
  · exact ⟨changes_denyApproval _ _ _ _, Or.inl rfl⟩
  · exact ⟨changes_cancelActive _ _, Or.inr rfl⟩

theorem continues_startApproved (codec : ArgumentsCodec) (pending : PendingExecution)
    (x : GoffyViewModel.ApprovalInput) : Continues vm (vm.startApproved codec pending x).1 := by
  unfold GoffyViewModel.startApproved
  split
  · exact ⟨.refl _, Or.inr rfl⟩
  · split
    · exact continues_failApproved _ _ _ _
    split
    · exact continues_failApproved _ _ _ _
    dsimp only
    split
    · exact ⟨.refl _, Or.inr rfl⟩
    · exact ⟨.refl _, Or.inr rfl⟩
  · exact continues_failApproved _ _ _ _

theorem continues_approvePendingTask (codec : ArgumentsCodec) (x : GoffyViewModel.ApprovalInput) :
    Continues vm (vm.approvePendingTask codec taskId x).1 := by
  unfold GoffyViewModel.approvePendingTask
  split
  · exact ⟨.refl _, Or.inr rfl⟩
  split
  · exact ⟨.refl _, Or.inr rfl⟩
  split
  · exact continues_expirePendingApproval _ _
  · refine Continues.trans ?_ (continues_startApproved codec _ x)
    exact ⟨changes_grantApproval _ _ _, Or.inl rfl⟩

theorem continues_executionStopped : Continues vm (vm.executionStopped taskId now) := by
  unfold GoffyViewModel.executionStopped
  split
  · exact continues_failApproved _ _ _ _
  · exact ⟨.refl _, Or.inr rfl⟩

theorem continues_hubTasksCancelled {vm : GoffyViewModel γ} (hvm' : vm'.uiState =
    vm.uiState.hubTasksCancelled now) (hpending : vm'.pendingExecution = vm.pendingExecution) :
    Continues vm vm' where
  changes := by
    rw [hvm']
    exact changes_cancelActive _ _
  pending := Or.inr hpending

end Rest

end ViewModels

/-! ### Whole runs -/

/-- What a step asks for: new ids are not in use, what is restored belongs to other tasks than the
active one and the one that waits for approval, and nothing is submitted while the next new entry
would push out one of these two. -/
def Fits (vm : GoffyViewModel γ) (_ : List Call) : Action γ → Prop
  | .submitCommand x =>
    (∀ k ∈ [x.rejectId, x.taskId, x.messageId], k ∉ vm.uiState.timeline.ids) ∧ Room vm
  | .recordForeground _ _ rejectId taskId _ =>
    (∀ k ∈ [rejectId, taskId], k ∉ vm.uiState.timeline.ids) ∧ Room vm
  | .recordForegroundUnavailable _ _ rejectId _ =>
    (∀ k ∈ [rejectId], k ∉ vm.uiState.timeline.ids) ∧ Room vm
  | .auditLoaded restored => ∀ e ∈ restored, vm.uiState.timeline.activeTaskId ≠ some e.id ∧
      vm.pendingExecution.map (·.taskId) ≠ some e.id
  | _ => True

section Runs

variable [ToolResultContent γ] {codec : ArgumentsCodec} {vm vm' : GoffyViewModel γ}
  {calls out : List Call}

theorem sound_step {a : Action γ} (hvm : Sound vm) (ha : Fits vm calls a)
    (h : vm.step codec a = some (vm', out)) : Sound vm' := by
  cases a with
  | submitCommand x =>
    have h : vm.submitCommand codec x = .ok (vm', out) := toOption_eq_some.1 h
    exact sound_of_submitted hvm ha.1 ha.2 (submitted_submitCommand h)
  | recordForeground r raw rejectId taskId now =>
    have h : vm.recordForeground r raw rejectId taskId now = .ok (vm', out) :=
      toOption_eq_some.1 h
    exact sound_of_submitted hvm ha.1 ha.2 (submitted_recordForeground h)
  | recordForegroundUnavailable r summary rejectId now =>
    cases h
    exact sound_of_submitted hvm ha.1 ha.2 (submitted_recordForegroundUnavailable _ _ _ _ _)
  | auditLoaded restored =>
    cases h
    exact sound_auditLoaded hvm ha
  | approvePendingTask taskId x =>
    obtain rfl : (vm.approvePendingTask codec taskId x).1 = vm' :=
      congrArg Prod.fst (Option.some.inj h)
    exact sound_of_continues hvm (continues_approvePendingTask _ _ _)
  | denyPendingTask taskId now =>
    cases h
    exact sound_of_continues hvm (continues_denyPendingTask _ _)
  | expirePendingApproval taskId now =>
    cases h
    exact sound_of_continues hvm (continues_expirePendingApproval _ _)
  | cancelActiveTask now =>
    cases h
    exact sound_of_continues hvm (continues_cancelActiveTask _)
  | taskEvent taskId event now =>
    cases h
    exact sound_of_continues hvm ⟨changes_applyTaskEvent _ _ _ _, Or.inr rfl⟩
  | executionStopped taskId now =>
    cases h
    exact sound_of_continues hvm (continues_executionStopped _ _)
  | clientFailure taskId now =>
    cases h
    exact sound_of_continues hvm (continues_failApproved _ _ _ _)
  | completeLocalModelObservation taskId observation now =>
    cases h
    refine sound_of_continues hvm ⟨?_, Or.inr rfl⟩
    exact @changes_step γ _ _ _ (.completeLocalModelObservation taskId observation now) _ _ rfl
  | auditRecorded taskId now =>
    cases h
    exact sound_of_continues hvm (continues_auditRecorded _ _)
  | linkHub config credentialId =>
    cases h
    exact sound_of_continues hvm ⟨.refl _, Or.inr rfl⟩
  | forgetHub now startedAt =>
    cases h
    exact sound_of_continues hvm ((continues_cancelActiveTask now).trans
      (continues_hubTasksCancelled startedAt rfl rfl))
  | hubForgotten now =>
    cases h
    exact sound_of_continues hvm (continues_hubTasksCancelled now rfl rfl)
  | rotateHubCredential now startedAt =>
    cases h
    exact sound_of_continues hvm ((continues_cancelActiveTask now).trans
      (continues_hubTasksCancelled startedAt rfl rfl))
  | hubRotationEnded link =>
    cases h
    exact sound_of_continues hvm ⟨.refl _, Or.inr rfl⟩

/-- Every reachable view model is sound. -/
theorem sound_of_reaches {deviceId : Str}
    (h : Machine.Reaches (GoffyViewModel.step codec) Fits { deviceId := deviceId } vm calls) :
    Sound vm := by
  refine h.invariant (I := fun vm _ => Sound vm) ?_ ?_
  · exact ⟨timely_empty, fun p hp => by cases hp⟩
  · intro vm calls a vm' out hvm ha hstep
    exact sound_step hvm ha hstep

/-- An approval starts a call only for the plan that waits for it. -/
theorem taskId_of_mem_startApproved {pending : PendingExecution} {x : GoffyViewModel.ApprovalInput}
    {call : Call} (h : call ∈ (vm.startApproved codec pending x).2) :
    call.taskId = pending.taskId := by
  unfold GoffyViewModel.startApproved at h
  split at h
  · rw [List.mem_singleton.1 h]
    rfl
  · split at h
    · cases h
    split at h
    · cases h
    dsimp only at h
    split at h
    · cases h
    · rw [List.mem_singleton.1 h]
      rfl
  · cases h

theorem pending_of_mem_approvePendingTask {taskId : UUID} {x : GoffyViewModel.ApprovalInput}
    {call : Call} (h : call ∈ (vm.approvePendingTask codec taskId x).2) :
    ∃ p, vm.pendingExecution = some p ∧ call.taskId = p.taskId := by
  unfold GoffyViewModel.approvePendingTask at h
  split at h
  · cases h
  rename_i p hp
  split at h
  · cases h
  split at h
  · cases h
  · exact ⟨p, hp, taskId_of_mem_startApproved h⟩

/-- **The active task keeps its entry.** In every run in which nothing is added to a full timeline
whose oldest entry is that of the active task or of the one that waits for approval, an active task
has exactly one entry, which has not come to its end, and an approval starts gateway invocations
only for tasks that have an entry. -/
theorem active_task_has_entry {deviceId : Str}
    (h : Machine.Reaches (GoffyViewModel.step codec) Fits { deviceId := deviceId } vm calls) :
    (∀ taskId, vm.uiState.timeline.activeTaskId = some taskId →
      ∃ e, vm.uiState.timeline.entries.filter (·.id = taskId) = [e] ∧ e.phase.terminal = false) ∧
    (∀ taskId x, ∀ call ∈ (vm.approvePendingTask codec taskId x).2,
      ∃ e ∈ (vm.approvePendingTask codec taskId x).1.uiState.timeline.entries,
        e.id = call.taskId) := by
  have hvm := sound_of_reaches h
  refine ⟨fun taskId hactive => hvm.timely.entry hactive, ?_⟩
  intro taskId x call hcall
  obtain ⟨p, hp, htask⟩ := pending_of_mem_approvePendingTask hcall
  have hids := (@continues_approvePendingTask γ vm _ taskId codec x).changes.ids_eq
  have hmem := hvm.pending p hp
  rw [← hids, ← htask] at hmem
  exact List.mem_map.1 hmem

end Runs

section Example

/-- A codec for calls without a Hub. -/
def emptyCodec : ArgumentsCodec := fun _ _ => .ok []

/-- The command to turn on the flashlight, which needs an approval. -/
def flashlightOn (k : ℕ) (now : ℤ) : Submission where
  command := lit "turn on the flashlight"
  decision := .routed ⟨lit "turn on the flashlight", .phone, lit "phone.flashlight.set", .confirm,
    .phoneFlashlightSet true⟩
  localModel := ⟨false, false, false, []⟩
  rejectId := Fin.ofNat _ (4 * k)
  taskId := Fin.ofNat _ (4 * k + 1)
  messageId := Fin.ofNat _ (4 * k + 2)
  discoveryMessageId := Fin.ofNat _ (4 * k + 3)
  now := now
  awaitedAt := now

theorem flashlight_has_entry : ∃ vm calls,
    Machine.Reaches (GoffyViewModel.step (γ := ContentType) emptyCodec) Fits
      { deviceId := lit "moto" } vm calls ∧
    vm.uiState.timeline.activeTaskId = some 1 ∧
    ∃ e, vm.uiState.timeline.entries.filter (·.id = 1) = [e] ∧ e.phase.terminal = false := by
  have hfits : Fits (γ := ContentType) { deviceId := lit "moto" } []
      (.submitCommand (flashlightOn 0 1000)) := by
    refine ⟨fun k _ => List.not_mem_nil, ?_, ?_⟩
    · intro taskId hactive
      cases hactive
    · intro p hp
      cases hp
  have hreach : Machine.Reaches (GoffyViewModel.step emptyCodec) Fits { deviceId := lit "moto" } _ _ :=
    Machine.Reaches.start.step hfits rfl
  exact ⟨_, _, hreach, rfl, (active_task_has_entry hreach).1 1 rfl⟩

/-- The approval of task 1. -/
def approveFirst : GoffyViewModel.ApprovalInput := ⟨2000, 2000, 2000, 1001, 1002⟩

/-- A command that waits for approval, and 50 more commands. -/
def busyRun : List (Action ContentType) :=
  (List.range 51).map fun k => .submitCommand (flashlightOn k 1000)

/-- The entry of a task that waits for approval is trimmed; the task is still the active one, and an
approval still turns on the flashlight. -/
theorem trimmed_task_is_invoked : ∃ vm calls,
    Machine.run (GoffyViewModel.step emptyCodec) { deviceId := lit "moto" } busyRun =
      some (vm, calls) ∧
    vm.uiState.timeline.activeTaskId = some 1 ∧
    vm.uiState.timeline.entries.filter (·.id = 1) = [] ∧
    (vm.approvePendingTask emptyCodec 1 approveFirst).2.map Call.taskId = [1] ∧
    (vm.approvePendingTask emptyCodec 1 approveFirst).1.uiState.timeline.entries.filter
      (·.id = 1) = [] := by
  have hrun : (Machine.run (GoffyViewModel.step emptyCodec) { deviceId := lit "moto" } busyRun).any
      (fun (vm, _) =>
        decide (vm.uiState.timeline.activeTaskId = some 1) &&
        (vm.uiState.timeline.entries.filter (·.id = 1)).isEmpty &&
        decide ((vm.approvePendingTask emptyCodec 1 approveFirst).2.map Call.taskId = [1]) &&
        ((vm.approvePendingTask emptyCodec 1 approveFirst).1.uiState.timeline.entries.filter
          (·.id = 1)).isEmpty) = true := by
    decide +kernel
  obtain ⟨⟨vm, calls⟩, heq, hvm⟩ := (Option.any_eq_true _ _).1 hrun
  simp only [Bool.and_eq_true, decide_eq_true_eq, List.isEmpty_iff] at hvm
  obtain ⟨⟨⟨hactive, hnone⟩, hcall⟩, hafter⟩ := hvm
  exact ⟨vm, calls, heq, hactive, hnone, hcall, hafter⟩

end Example

end GoffyPhone
