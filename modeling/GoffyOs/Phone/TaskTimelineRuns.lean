import GoffyOs.Phone.TaskTimeline
import Mathlib.Data.List.Induction

/-!
# Histories of timeline entries

The operations of the timeline are run on entries that also remember where they come from and what
has reached them. Forgetting this gives the timeline of the source (`project_track`), so that the
histories describe its runs.

* `Op` is an operation with its arguments, `step` the timeline after it (an operation that throws
  leaves the timeline as it is), `History.step` the same on entries with a history;
* `Origin` says where the entries after a step come from;
* `Stage` relates the phase of an entry to everything that has reached it, and `Stage.change` shows
  that no operation breaks this;
* `entry_histories` is the result about whole runs.
-/

namespace GoffyPhone

open Kotlin
open Python (UUID)
open Recent
open TaskTimelineEntry (isRestorable started rejected observing)

/-! ### Operations -/

/-- The operations of `TaskTimelineState`, with the ids and times they take from outside. -/
inductive Op (γ : Type)
  | mergeRestoredAudit (restored : List (TaskTimelineEntry γ))
  | markAuditRecorded (taskId : UUID) (recordedAtEpochMillis : ℤ)
  | start (taskId : UUID) (plan : GoffyExecutionPlan)
  | reject (id : UUID) (command summary : Str) (now : ℤ) (executionTarget : ExecutionTarget)
      (toolName : Option Str) (permission : Option PermissionLevel)
  | startLocalModelObservation (taskId : UUID) (command statusSummary : Str)
  | completeLocalModelObservation (taskId : UUID) (observation : LocalModelIntentObservation)
      (now : ℤ)
  | apply (taskId : UUID) (event : ExecutionEvent γ) (now : ℤ)
  | awaitApproval (taskId : UUID) (summary : Str) (now : ℤ)
  | grantApproval (taskId : UUID) (now : ℤ)
  | denyApproval (taskId : UUID) (summary : Str) (now : ℤ)
  | expireApproval (taskId : UUID) (now : ℤ)
  | cancelActive (now : ℤ)

variable {γ : Type}

/-- The timeline after an operation. -/
def step [ToolResultContent γ] (s : TaskTimelineState γ) : Op γ → TaskTimelineState γ
  | .mergeRestoredAudit restored => (s.mergeRestoredAudit restored).toOption.getD s
  | .markAuditRecorded taskId now => (s.markAuditRecorded taskId now).toOption.getD s
  | .start taskId plan => (s.start taskId plan).toOption.getD s
  | .reject id command summary now executionTarget toolName permission =>
    s.reject id command summary now executionTarget toolName permission
  | .startLocalModelObservation taskId command statusSummary =>
    (s.startLocalModelObservation taskId command statusSummary).toOption.getD s
  | .completeLocalModelObservation taskId observation now =>
    s.completeLocalModelObservation taskId observation now
  | .apply taskId event now => s.apply taskId event now
  | .awaitApproval taskId summary now => s.awaitApproval taskId summary now
  | .grantApproval taskId now => s.grantApproval taskId now
  | .denyApproval taskId summary now => s.denyApproval taskId summary now
  | .expireApproval taskId now => s.expireApproval taskId now
  | .cancelActive now => s.cancelActive now

/-- The timeline after a list of operations, from the empty one. -/
def runOps [ToolResultContent γ] (ops : List (Op γ)) : TaskTimelineState γ := ops.foldl step {}

/-! ### Entries with a history -/

/-- What can reach an entry. -/
inductive Input (γ : Type)
  | awaitApproval
  | grantApproval
  | denyApproval
  | expireApproval
  | cancel
  | observation
  | event (e : ExecutionEvent γ)

/-- An entry with its serial number, whether it was restored from the audit store, and all that has
reached it. -/
structure Tracked (γ : Type) where
  entry : TaskTimelineEntry γ
  serial : ℕ
  restored : Bool
  inputs : List (Input γ)

instance : Entry γ (Tracked γ) := ⟨Tracked.entry⟩

/-- A timeline of such entries, and the number of entries that were ever made. -/
structure History (γ : Type) where
  timeline : Timeline (Tracked γ) := {}
  made : ℕ := 0

/-- What an operation on the active task does: the task, what reaches its entry, and the change. -/
def Op.change [ToolResultContent γ] (active : Option UUID) :
    Op γ → Option (UUID × Input γ × (TaskTimelineEntry γ → Option (TaskTimelineEntry γ)))
  | .completeLocalModelObservation taskId observation now =>
    some (taskId, .observation, fun e => some (e.observed observation now))
  | .apply taskId event now =>
    some (taskId, .event event, fun e => some ((e.applyEvent event).withTerminalTimestamp now))
  | .awaitApproval taskId summary now =>
    some (taskId, .awaitApproval, fun e =>
      some ((e.awaitedApproval summary).withTerminalTimestamp now))
  | .grantApproval taskId now =>
    some (taskId, .grantApproval, fun e => some (e.grantedApproval.withTerminalTimestamp now))
  | .denyApproval taskId summary now =>
    some (taskId, .denyApproval, fun e =>
      (e.deniedApproval summary).map (·.withTerminalTimestamp now))
  | .expireApproval taskId now =>
    some (taskId, .expireApproval, fun e => e.expiredApproval.map (·.withTerminalTimestamp now))
  | .cancelActive now =>
    active.map fun taskId =>
      (taskId, .cancel, fun e => some (e.cancelled.withTerminalTimestamp now))
  | _ => none

/-- The operations on the active task are `onActive` with their change. -/
theorem step_eq_onActive [ToolResultContent γ] {s : TaskTimelineState γ} {op : Op γ}
    {taskId : UUID} {input : Input γ}
    {f : TaskTimelineEntry γ → Option (TaskTimelineEntry γ)}
    (h : op.change s.activeTaskId = some (taskId, input, f)) : step s op = s.onActive taskId f := by
  cases op with
  | cancelActive now =>
    obtain ⟨t, ht, heq⟩ := Option.map_eq_some_iff.1 h
    cases heq
    simp only [step, TaskTimelineState.cancelActive, ht]
  | mergeRestoredAudit | markAuditRecorded | start | reject | startLocalModelObservation => cases h
  | _ =>
    cases h
    rfl

/-- A change of an entry, remembered. -/
def Tracked.change (input : Input γ) (f : TaskTimelineEntry γ → Option (TaskTimelineEntry γ))
    (x : Tracked γ) : Option (Tracked γ) :=
  (f x.entry).map fun e => { x with entry := e, inputs := x.inputs ++ [input] }

/-- The mark of `markAuditRecorded`. -/
def Tracked.mark (x : Tracked γ) (now : ℤ) : Tracked γ :=
  { x with entry := { x.entry with auditRecordedAtEpochMillis := some now } }

def markTracked (s : Timeline (Tracked γ)) (taskId : UUID) (now : ℤ) : Timeline (Tracked γ) :=
  s.onLast taskId s fun index x =>
    if x.entry.phase.terminal then some { s with entries := s.entries.set index (x.mark now) }
    else none

/-- Add a new entry. -/
def History.add (h : History γ) (active : Option UUID) (e : TaskTimelineEntry γ) : History γ where
  timeline := { h.timeline with activeTaskId := active }.add ⟨e, h.made, false, []⟩
  made := h.made + 1

/-- The restored entries, numbered. -/
def restoredEntries (made : ℕ) (restored : List (TaskTimelineEntry γ)) : List (Tracked γ) :=
  (restored.zipIdx made).map fun (e, serial) => ⟨e, serial, true, []⟩

/-- The history after an operation. -/
def History.step [ToolResultContent γ] (h : History γ) (op : Op γ) : History γ :=
  match op with
  | .mergeRestoredAudit restored =>
    if restored.all isRestorable then
      { timeline := h.timeline.merge (restoredEntries h.made restored)
        made := h.made + restored.length }
    else h
  | .markAuditRecorded taskId now =>
    if now ≤ 0 then h
    else { h with timeline := markTracked h.timeline taskId now }
  | .start taskId plan =>
    if h.timeline.activeTaskId ≠ none then h else h.add (some taskId) (started taskId plan)
  | .reject id command summary now executionTarget toolName permission =>
    if TaskTimelineState.normalize command = [] then h
    else h.add h.timeline.activeTaskId (rejected id (TaskTimelineState.normalize command) summary now
      executionTarget toolName permission)
  | .startLocalModelObservation taskId command statusSummary =>
    if h.timeline.activeTaskId ≠ none then h
    else if TaskTimelineState.normalize command = [] then h
    else h.add (some taskId)
      (observing taskId (TaskTimelineState.normalize command) statusSummary)
  | op =>
    match op.change h.timeline.activeTaskId with
    | none => h
    | some (taskId, input, f) =>
      { h with timeline := h.timeline.onActive taskId (Tracked.change input f) }

/-- As in `step_eq_onActive`. -/
theorem History.step_eq_onActive [ToolResultContent γ] {h : History γ} {op : Op γ} {taskId : UUID}
    {input : Input γ} {f : TaskTimelineEntry γ → Option (TaskTimelineEntry γ)}
    (hop : op.change h.timeline.activeTaskId = some (taskId, input, f)) :
    h.step op = { h with timeline := h.timeline.onActive taskId (Tracked.change input f) } := by
  cases op with
  | mergeRestoredAudit | markAuditRecorded | start | reject | startLocalModelObservation => cases hop
  | cancelActive now => simp only [History.step, hop]
  | _ =>
    cases hop
    rfl

/-- The history of a list of operations. -/
def track [ToolResultContent γ] (ops : List (Op γ)) : History γ := ops.foldl History.step {}

section Projection

open Timeline

variable {ε δ : Type} [Entry γ ε] [Entry γ δ] {π : ε → δ}

theorem idOf_comp (hπ : ∀ x, Entry.entry (π x) = Entry.entry x) (x : ε) :
    idOf (π x) = idOf x := by
  unfold idOf
  rw [hπ]

/-- Forgetting a part of the entries. -/
def Timeline.map (π : ε → δ) (s : Timeline ε) : Timeline δ := ⟨s.activeTaskId, s.entries.map π⟩

theorem Timeline.map_add (s : Timeline ε) (x : ε) : (s.add x).map π = (s.map π).add (π x) := by
  simp [Timeline.map, Timeline.add, map_takeLast]

theorem Timeline.map_onLast (hπ : ∀ x, Entry.entry (π x) = Entry.entry x) {s missing : Timeline ε}
    {taskId : UUID} {f : ℕ → ε → Option (Timeline ε)} {g : ℕ → δ → Option (Timeline δ)}
    (hfg : ∀ i x, (f i x).map (Timeline.map π) = g i (π x)) :
    (s.onLast taskId missing f).map π = (s.map π).onLast taskId (missing.map π) g := by
  have hindex : indexOfLast (fun y => idOf y = taskId) (s.entries.map π) =
      indexOfLast (fun x => idOf x = taskId) s.entries := by
    rw [indexOfLast_map]
    simp only [idOf_comp hπ]
  unfold Timeline.onLast
  rw [show (s.map π).entries = s.entries.map π from rfl, hindex]
  split
  · rfl
  · rename_i i _
    rw [List.getElem?_map]
    cases s.entries[i]? with
    | none => rfl
    | some x =>
      simp only [Option.map_some]
      rw [← hfg]
      cases f i x <;> rfl

theorem Timeline.map_onActive (hπ : ∀ x, Entry.entry (π x) = Entry.entry x) {s : Timeline ε}
    {taskId : UUID} {f : ε → Option ε} {g : δ → Option δ} (hfg : ∀ x, (f x).map π = g (π x)) :
    (s.onActive taskId f).map π = (s.map π).onActive taskId g := by
  unfold Timeline.onActive
  by_cases hactive : some taskId ≠ s.activeTaskId
  · rw [if_pos hactive, if_pos (show some taskId ≠ (s.map π).activeTaskId from hactive)]
  · rw [if_neg hactive, if_neg (show ¬ some taskId ≠ (s.map π).activeTaskId from hactive)]
    refine Timeline.map_onLast hπ fun i x => ?_
    rw [← hfg, Option.map_map, Option.map_map]
    congr 1
    funext y
    simp [Timeline.map, Timeline.replaceEntry, hπ, List.map_set]

theorem Timeline.map_mergedEntries (hπ : ∀ x, Entry.entry (π x) = Entry.entry x)
    (restored entries : List ε) :
    (mergedEntries restored entries).map π = mergedEntries (restored.map π) (entries.map π) := by
  -- the two dictionaries have the same keys in the same order, with the values mapped
  have hfold : ∀ (l : List ε) (d : Dict UUID ε) (d' : Dict UUID δ),
      d'.entries = (d.mapValues π).entries →
      ((l.map π).foldl (fun merged x => merged.set (idOf x) x) d').entries =
        ((l.foldl (fun merged x => merged.set (idOf x) x) d).mapValues π).entries := by
    intro l
    induction l with
    | nil => intro d d' h; exact h
    | cons x l ih =>
      intro d d' h
      refine ih _ _ ?_
      dsimp only
      rw [Dict.entries_mapValues_set, idOf_comp hπ]
      have hd : d' = d.mapValues π := by
        cases d'
        cases h
        rfl
      rw [hd]
  unfold mergedEntries
  rw [← List.map_append, hfold _ Dict.empty Dict.empty rfl]
  simp [Dict.mapValues]

theorem Timeline.map_merge (hπ : ∀ x, Entry.entry (π x) = Entry.entry x) (s : Timeline ε)
    (restored : List ε) : (s.merge restored).map π = (s.map π).merge (restored.map π) := by
  simp [Timeline.map, Timeline.merge, map_takeLast, Timeline.map_mergedEntries hπ]

end Projection

/-- The timeline without the histories. -/
def History.project (h : History γ) : TaskTimelineState γ := h.timeline.map Tracked.entry

theorem entry_tracked (x : Tracked γ) :
    (Entry.entry x.entry : TaskTimelineEntry γ) = Entry.entry x := rfl

/-- The histories follow the timeline. -/
theorem project_step [ToolResultContent γ] (h : History γ) (op : Op γ) :
    (h.step op).project = step h.project op := by
  cases hop : op.change h.timeline.activeTaskId with
  | some c =>
    obtain ⟨taskId, input, f⟩ := c
    rw [History.step_eq_onActive hop, GoffyPhone.step_eq_onActive (s := h.project) hop]
    refine Timeline.map_onActive entry_tracked fun x => ?_
    simp [Tracked.change, Function.comp_def]
  | none =>
    cases op with
    | mergeRestoredAudit restored =>
      unfold History.step GoffyPhone.step TaskTimelineState.mergeRestoredAudit
      dsimp only
      split
      · rw [History.project, Timeline.map_merge entry_tracked]
        congr 1
        simp [restoredEntries, Function.comp_def]
      · rfl
    | markAuditRecorded taskId now =>
      unfold History.step GoffyPhone.step TaskTimelineState.markAuditRecorded
      dsimp only
      split
      · rfl
      · refine Timeline.map_onLast entry_tracked fun i x => ?_
        by_cases hterminal : x.entry.phase.terminal
        · simp [hterminal, Timeline.map, List.map_set, Tracked.mark, History.project]
        · simp [hterminal]
    | start taskId plan =>
      unfold History.step GoffyPhone.step TaskTimelineState.start
      dsimp only
      by_cases hactive : h.timeline.activeTaskId ≠ none
      · rw [if_pos hactive, if_pos (show h.project.activeTaskId ≠ none from hactive)]
        rfl
      · rw [if_neg hactive, if_neg (show ¬ h.project.activeTaskId ≠ none from hactive)]
        exact Timeline.map_add _ _
    | reject rejectId command summary now executionTarget toolName permission =>
      unfold History.step GoffyPhone.step TaskTimelineState.reject
      dsimp only
      split
      · rfl
      · exact Timeline.map_add _ _
    | startLocalModelObservation taskId command statusSummary =>
      unfold History.step GoffyPhone.step TaskTimelineState.startLocalModelObservation
      dsimp only
      by_cases hactive : h.timeline.activeTaskId ≠ none
      · rw [if_pos hactive, if_pos (show h.project.activeTaskId ≠ none from hactive)]
        rfl
      · rw [if_neg hactive, if_neg (show ¬ h.project.activeTaskId ≠ none from hactive)]
        split
        · rfl
        · exact Timeline.map_add _ _
    | cancelActive now =>
      have hactive : h.timeline.activeTaskId = none := by simpa [Op.change] using hop
      rw [show h.step (.cancelActive now) = h by simp only [History.step, hop]]
      simp [GoffyPhone.step, TaskTimelineState.cancelActive, History.project, Timeline.map, hactive]
    | completeLocalModelObservation | apply | awaitApproval | grantApproval | denyApproval
    | expireApproval => cases hop

/-- **Forgetting the histories gives the timeline of the source.** -/
theorem project_track [ToolResultContent γ] (ops : List (Op γ)) :
    (track ops).project = runOps ops := by
  have hfold : ∀ (ops : List (Op γ)) (h : History γ) (s : TaskTimelineState γ), h.project = s →
      (ops.foldl History.step h).project = ops.foldl GoffyPhone.step s := by
    intro ops
    induction ops with
    | nil => intro h s hs; exact hs
    | cons op ops ih =>
      intro h s hs
      refine ih _ _ ?_
      rw [project_step, hs]
  exact hfold ops _ _ rfl

/-! ### What the parts of the operations do -/

section Parts

open Timeline

variable {ε : Type} [Entry γ ε] {s : Timeline ε} {taskId : UUID} {x : ε} {l : List ε}

/-- `x` is the last entry of a task. -/
def IsLast (taskId : UUID) (l : List ε) (x : ε) : Prop :=
  ∃ pre post, l = pre ++ x :: post ∧ idOf x = taskId ∧ ∀ y ∈ post, idOf y ≠ taskId

theorem IsLast.mem (h : IsLast taskId l x) : x ∈ l := by
  obtain ⟨pre, post, rfl, -, -⟩ := h
  simp

theorem IsLast.id (h : IsLast taskId l x) : idOf x = taskId := by
  obtain ⟨pre, post, -, hid, -⟩ := h
  exact hid

/-- The last entry of a list is the last one of what comes before it, unless it is of this task. -/
theorem isLast_concat {y : ε} :
    IsLast taskId (l ++ [y]) x ↔ (idOf y = taskId ∧ x = y) ∨ (idOf y ≠ taskId ∧ IsLast taskId l x) := by
  constructor
  · rintro ⟨pre, post, heq, hid, hpost⟩
    rcases List.eq_nil_or_concat post with rfl | ⟨post, z, rfl⟩
    · obtain ⟨rfl, hy⟩ := List.append_inj' heq rfl
      obtain rfl : y = x := by simpa using hy
      exact Or.inl ⟨hid, rfl⟩
    · have heq' : l ++ [y] = (pre ++ x :: post) ++ [z] := by simpa using heq
      obtain ⟨rfl, hy⟩ := List.append_inj' heq' rfl
      obtain rfl : y = z := by simpa using hy
      refine Or.inr ⟨hpost y (by simp), pre, post, rfl, hid, fun w hw => hpost w ?_⟩
      simp [hw]
  · rintro (⟨hid, rfl⟩ | ⟨hne, pre, post, rfl, hid, hpost⟩)
    · exact ⟨l, [], rfl, hid, by simp⟩
    · refine ⟨pre, post ++ [y], by simp, hid, fun w hw => ?_⟩
      rcases List.mem_append.1 hw with hw | hw
      · exact hpost w hw
      · rw [List.mem_singleton.1 hw]
        exact hne

theorem IsLast.unique {y : ε} (hx : IsLast taskId l x) (hy : IsLast taskId l y) : x = y := by
  induction l using List.reverseRecOn with
  | nil => cases hx.mem
  | append_singleton l z ih =>
    rcases isLast_concat.1 hx with ⟨hz, rfl⟩ | ⟨hz, hx⟩
    · rcases isLast_concat.1 hy with ⟨-, rfl⟩ | ⟨hz', -⟩
      · rfl
      · exact absurd hz hz'
    · rcases isLast_concat.1 hy with ⟨hz', -⟩ | ⟨-, hy⟩
      · exact absurd hz' hz
      · exact ih hx hy

/-- Changing one entry, but not its id. -/
theorem IsLast.of_replace {pre post : List ε} {y z : ε} (hid : idOf y = idOf x)
    (h : IsLast taskId (pre ++ y :: post) z) :
    (z = y ∧ IsLast taskId (pre ++ x :: post) x) ∨ IsLast taskId (pre ++ x :: post) z := by
  induction post using List.reverseRecOn with
  | nil =>
    rcases isLast_concat.1 h with ⟨hy, rfl⟩ | ⟨hy, hpre⟩
    · exact Or.inl ⟨rfl, isLast_concat.2 (Or.inl ⟨hid ▸ hy, rfl⟩)⟩
    · exact Or.inr (isLast_concat.2 (Or.inr ⟨hid ▸ hy, hpre⟩))
  | append_singleton post w ih =>
    rw [← List.cons_append, ← List.append_assoc] at h ⊢
    rw [isLast_concat, isLast_concat]
    rcases isLast_concat.1 h with ⟨hw, rfl⟩ | ⟨hw, hrest⟩
    · exact Or.inr (Or.inl ⟨hw, rfl⟩)
    rcases ih hrest with ⟨rfl, hx⟩ | hz
    · exact Or.inl ⟨rfl, Or.inr ⟨hw, hx⟩⟩
    · exact Or.inr (Or.inr ⟨hw, hz⟩)

theorem IsLast.of_suffix {l' : List ε} (hsuffix : l' <:+ l) (h : IsLast taskId l' x) :
    IsLast taskId l x := by
  obtain ⟨pre₀, rfl⟩ := hsuffix
  obtain ⟨pre, post, rfl, hid, hpost⟩ := h
  exact ⟨pre₀ ++ pre, post, by simp, hid, hpost⟩

/-- `onLast` finds the last entry of the task, or there is none. -/
theorem onLast_cases (s missing : Timeline ε) (taskId : UUID)
    (f : ℕ → ε → Option (Timeline ε)) :
    ((∀ x ∈ s.entries, idOf x ≠ taskId) ∧ s.onLast taskId missing f = missing) ∨
      ∃ pre x post, s.entries = pre ++ x :: post ∧ idOf x = taskId ∧
        (∀ y ∈ post, idOf y ≠ taskId) ∧ s.onLast taskId missing f = (f pre.length x).getD s := by
  unfold Timeline.onLast
  cases hindex : indexOfLast (fun x => idOf x = taskId) s.entries with
  | none =>
    refine Or.inl ⟨fun x hx => ?_, rfl⟩
    simpa using indexOfLast_eq_none_iff.1 hindex x hx
  | some i =>
    obtain ⟨pre, x, post, heq, rfl, hx, hpost⟩ := indexOfLast_eq_some_iff.1 hindex
    refine Or.inr ⟨pre, x, post, heq, by simpa using hx, fun y hy => ?_, ?_⟩
    · simpa using hpost y hy
    · have hget : s.entries[pre.length]? = some x := by rw [heq]; simp
      simp only [hget]

/-- What an operation on the active task does: nothing, for another task or where it changes
nothing; the task ends when it has no entry; or its last entry is changed. -/
inductive ActiveCases (s : Timeline ε) (taskId : UUID) (f : ε → Option ε) : Timeline ε → Prop
  | same : ActiveCases s taskId f s
  | missing (hactive : s.activeTaskId = some taskId) (hnone : ∀ x ∈ s.entries, idOf x ≠ taskId) :
      ActiveCases s taskId f { s with activeTaskId := none }
  | changed {pre post : List ε} {x y : ε} (hactive : s.activeTaskId = some taskId)
      (hentries : s.entries = pre ++ x :: post) (hid : idOf x = taskId)
      (hpost : ∀ z ∈ post, idOf z ≠ taskId) (hy : f x = some y) :
      ActiveCases s taskId f
        ⟨if (Entry.entry y).phase.terminal then none else s.activeTaskId, pre ++ y :: post⟩

theorem onActive_cases (s : Timeline ε) (taskId : UUID) (f : ε → Option ε) :
    ActiveCases s taskId f (s.onActive taskId f) := by
  unfold Timeline.onActive
  split
  · exact .same
  rename_i hne
  have hactive : s.activeTaskId = some taskId := (not_not.1 hne).symm
  rcases onLast_cases s { s with activeTaskId := none } taskId
      (fun index x => (f x).map (s.replaceEntry index)) with
    ⟨hnone, heq⟩ | ⟨pre, x, post, hentries, hid, hpost, heq⟩
  · rw [heq]
    exact .missing hactive hnone
  · rw [heq]
    cases hy : f x with
    | none => exact .same
    | some y =>
      have := ActiveCases.changed hactive hentries hid hpost hy
      simpa [Timeline.replaceEntry, hentries] using this

/-- A merged map holds the last entry of each task. -/
theorem get?_foldl_set {d : Dict UUID ε} :
    (l.foldl (fun merged x => merged.set (idOf x) x) d).get? taskId = some x ↔
      IsLast taskId l x ∨ (∀ y ∈ l, idOf y ≠ taskId) ∧ d.get? taskId = some x := by
  induction l using List.reverseRecOn generalizing x with
  | nil => simp [IsLast]
  | append_singleton l y ih =>
    rw [List.foldl_append, List.foldl_cons, List.foldl_nil, Dict.get?_set, isLast_concat]
    by_cases hy : idOf y = taskId
    · simp only [hy, if_pos, List.mem_append, List.mem_singleton]
      constructor
      · intro hx
        exact Or.inl (Or.inl ⟨trivial, (Option.some.inj hx).symm⟩)
      · rintro ((⟨-, rfl⟩ | ⟨hne, -⟩) | ⟨hall, -⟩)
        · rfl
        · exact absurd rfl hne
        · exact absurd hy (hall y (Or.inr rfl))
    · simp only [hy, if_neg, not_false_eq_true, ih, false_and, false_or, true_and, ne_eq,
        List.mem_append, List.mem_singleton]
      constructor
      · rintro (hlast | ⟨hall, hd⟩)
        · exact Or.inl hlast
        · refine Or.inr ⟨?_, hd⟩
          rintro z (hz | rfl)
          · exact hall z hz
          · exact hy
      · rintro (hlast | ⟨hall, hd⟩)
        · exact Or.inl hlast
        · exact Or.inr ⟨fun z hz => hall z (Or.inl hz), hd⟩

theorem mem_mergedEntries {restored : List ε} :
    x ∈ mergedEntries restored l ↔ IsLast (idOf x) (restored ++ l) x := by
  unfold mergedEntries
  constructor
  · intro hx
    obtain ⟨⟨k, _⟩, hmem, rfl⟩ := List.mem_map.1 hx
    have hlast := get?_foldl_set.1 (Dict.get?_eq_some_iff.2 hmem)
    simp only [Dict.get?_empty, reduceCtorEq, and_false, or_false] at hlast
    rwa [hlast.id]
  · intro hlast
    have hget := get?_foldl_set (d := Dict.empty) |>.2 (Or.inl hlast)
    exact List.mem_map.2 ⟨(idOf x, x), Dict.get?_eq_some_iff.1 hget, rfl⟩

/-- The ids of the merged entries are the keys of the map. -/
theorem map_idOf_mergedEntries (restored l : List ε) : (mergedEntries restored l).map idOf =
    ((restored ++ l).foldl (fun merged x => merged.set (idOf x) x)
      (Dict.empty : Dict UUID ε)).entries.map Prod.fst := by
  unfold mergedEntries
  generalize hd : (restored ++ l).foldl (fun merged x => merged.set (idOf x) x)
    (Dict.empty : Dict UUID ε) = d
  rw [List.map_map]
  refine List.map_congr_left fun kv hkv => ?_
  obtain ⟨k, x⟩ := kv
  have hlast := get?_foldl_set.1 (hd ▸ Dict.get?_eq_some_iff.2 hkv)
  simp only [Dict.get?_empty, reduceCtorEq, and_false, or_false] at hlast
  exact hlast.id

/-- A merged map holds one entry of each task. -/
theorem nodup_idOf_mergedEntries (restored l : List ε) :
    ((mergedEntries restored l).map idOf).Nodup := by
  rw [map_idOf_mergedEntries]
  exact Dict.nodup _

theorem nodup_mergedEntries {restored : List ε} : (mergedEntries restored l).Nodup :=
  (nodup_idOf_mergedEntries restored l).of_map

end Parts

/-! ### What has reached an entry -/

/-- The fields of an entry that decide how it goes on. -/
structure Core (γ : Type) where
  id : UUID
  executionTarget : ExecutionTarget
  toolName : Option Str
  phase : TaskPhase
  result : Option γ
  lastProgressSequence : Option Int32
  lastStartAttempt : Option Int32
  executionReady : Bool
  permission : Option PermissionLevel
  approvalGranted : Bool

def TaskTimelineEntry.core (e : TaskTimelineEntry γ) : Core γ where
  id := e.id
  executionTarget := e.executionTarget
  toolName := e.toolName
  phase := e.phase
  result := e.result
  lastProgressSequence := e.lastProgressSequence
  lastStartAttempt := e.lastStartAttempt
  executionReady := e.executionReady
  permission := e.permission
  approvalGranted := e.approvalGranted

@[simp] theorem core_withTerminalTimestamp (e : TaskTimelineEntry γ) (timestamp : ℤ) :
    (e.withTerminalTimestamp timestamp).core = e.core := by
  unfold TaskTimelineEntry.withTerminalTimestamp
  split <;> rfl

@[simp] theorem core_failSequence (e : TaskTimelineEntry γ) (message : String) :
    (e.failSequence message).core = { e.core with phase := .failed } := rfl

/-- The entry takes a result as that of its tool. -/
def Core.Accepts [ToolResultContent γ] (c : Core γ) (content : γ) : Prop :=
  ∀ e : TaskTimelineEntry γ, e.executionTarget = c.executionTarget → e.toolName = c.toolName →
    e.permission = c.permission → e.approvalGranted = c.approvalGranted →
    e.acceptsContent content = true

/-- Nothing was started yet. -/
structure Core.Idle (c : Core γ) : Prop where
  start : c.lastStartAttempt = none
  progress : c.lastProgressSequence = none
  ready : c.executionReady = false
  result : c.result = none

/-- The progress event of an entry with this number and stage. -/
def Core.IsProgress (c : Core γ) (p : ToolProgress) (sequence : Int32) (stage : String) : Prop :=
  some p.toolName = c.toolName ∧ p.executionTarget = c.executionTarget ∧ p.sequence = sequence ∧
    p.stage = lit stage

/-- A task that needs a confirmation has been shown for approval and approved. -/
def approvals (c : Core γ) : List (Input γ) :=
  if c.permission = some .confirm then [.awaitApproval, .grantApproval] else []

/-- `n` start attempts, numbered from 1 in 32-bit arithmetic, each possibly followed by one `Ready`;
the flag tells whether the last one was. -/
inductive Starts : ℕ → Bool → List (Input γ) → Prop
  | first : Starts 1 false [.event (.starting 1)]
  | again {n : ℕ} {ready : Bool} {l : List (Input γ)} (h : Starts n ready l) :
      Starts (n + 1) false (l ++ [.event (.starting (Int32.ofNat (n + 1)))])
  | ready {n : ℕ} {l : List (Input γ)} (h : Starts n false l) :
      Starts n true (l ++ [.event .ready])

/-- A task up to the end of its execution: approvals, start attempts, `Ready` for the last attempt,
and the two progress events. -/
def Executed (c : Core γ) (l : List (Input γ)) : Prop :=
  ∃ n starts p q, Starts n false starts ∧ c.IsProgress p 0 "accepted" ∧
    c.IsProgress q 1 "completed" ∧
    l = approvals c ++ starts ++ [.event .ready, .event (.progress p), .event (.progress q)]

/-- A task with its result. -/
def Resulted [ToolResultContent γ] (c : Core γ) (l : List (Input γ)) : Prop :=
  ∃ executed toolName content, Executed c executed ∧ c.result = some content ∧
    c.Accepts content ∧ some toolName = c.toolName ∧
    l = executed ++ [.event (.result toolName c.executionTarget content)]

/-- What has reached an entry, by its phase. -/
inductive Stage [ToolResultContent γ] : Core γ → List (Input γ) → Prop
  | routing {c : Core γ} (hphase : c.phase = .routing) (hidle : c.Idle)
      (hgranted : c.approvalGranted = false) : Stage c []
  | awaiting {c : Core γ} (hphase : c.phase = .awaitingApproval) (hidle : c.Idle)
      (hconfirm : c.permission = some .confirm) (hgranted : c.approvalGranted = false) :
      Stage c [.awaitApproval]
  | granted {c : Core γ} (hphase : c.phase = .routing) (hidle : c.Idle)
      (hconfirm : c.permission = some .confirm) (hgranted : c.approvalGranted = true) :
      Stage c [.awaitApproval, .grantApproval]
  | preparing {c : Core γ} {n : ℕ} {starts : List (Input γ)} (hphase : c.phase = .preparing)
      (hstarts : Starts n c.executionReady starts)
      (hstart : c.lastStartAttempt = some (Int32.ofNat n))
      (hprogress : c.lastProgressSequence = none) (hresult : c.result = none) :
      Stage c (approvals c ++ starts)
  | accepted {c : Core γ} {n : ℕ} {starts : List (Input γ)} {p : ToolProgress}
      (hphase : c.phase = .accepted) (hstarts : Starts n false starts)
      (hp : c.IsProgress p 0 "accepted") (hprogress : c.lastProgressSequence = some 0)
      (hresult : c.result = none) :
      Stage c (approvals c ++ starts ++ [.event .ready, .event (.progress p)])
  | completed {c : Core γ} {l : List (Input γ)} (hphase : c.phase = .completedUnverified)
      (hl : Executed c l) (hresult : c.result = none) : Stage c l
  | resulted {c : Core γ} {l : List (Input γ)} (hphase : c.phase = .completedUnverified)
      (hl : Resulted c l) : Stage c l
  | verified {c : Core γ} {l : List (Input γ)} {summary : Str} {checks : List Str}
      (hphase : c.phase = .verified) (hl : Resulted c l) :
      Stage c (l ++ [.event (.verification true summary checks)])
  | unverified {c : Core γ} {l : List (Input γ)} {summary : Str} {checks : List Str}
      (hphase : c.phase = .unverified) (hl : Resulted c l) :
      Stage c (l ++ [.event (.unverified summary checks)])
  | ended {c : Core γ} {l : List (Input γ)} (hphase : c.phase = .failed ∨ c.phase = .cancelled) :
      Stage c l

section Stages

variable [ToolResultContent γ] {e : TaskTimelineEntry γ} {c : Core γ} {l : List (Input γ)}

/-! #### What a phase says about the past -/

theorem Stage.of_routing (h : Stage c l) (hphase : c.phase = .routing) : c.Idle ∧
    ((c.approvalGranted = false ∧ l = []) ∨
      (c.approvalGranted = true ∧ c.permission = some .confirm ∧ l = approvals c)) := by
  cases h with
  | routing _ hidle hgranted => exact ⟨hidle, Or.inl ⟨hgranted, rfl⟩⟩
  | granted _ hidle hconfirm hgranted =>
    exact ⟨hidle, Or.inr ⟨hgranted, hconfirm, (if_pos hconfirm).symm⟩⟩
  | awaiting hp | preparing hp | accepted hp | completed hp | resulted hp | verified hp
  | unverified hp => simp [hp] at hphase
  | ended hp => rcases hp with hp | hp <;> simp [hp] at hphase

theorem Stage.of_awaiting (h : Stage c l) (hphase : c.phase = .awaitingApproval) :
    c.Idle ∧ c.permission = some .confirm ∧ l = [.awaitApproval] := by
  cases h with
  | awaiting _ hidle hconfirm hgranted => exact ⟨hidle, hconfirm, rfl⟩
  | routing hp | granted hp | preparing hp | accepted hp | completed hp | resulted hp | verified hp
  | unverified hp => simp [hp] at hphase
  | ended hp => rcases hp with hp | hp <;> simp [hp] at hphase

theorem Stage.of_preparing (h : Stage c l) (hphase : c.phase = .preparing) :
    ∃ n starts, l = approvals c ++ starts ∧ Starts n c.executionReady starts ∧
      c.lastStartAttempt = some (Int32.ofNat n) ∧ c.lastProgressSequence = none ∧
      c.result = none := by
  cases h with
  | preparing _ hstarts hstart hprogress hresult =>
    exact ⟨_, _, rfl, hstarts, hstart, hprogress, hresult⟩
  | routing hp | awaiting hp | granted hp | accepted hp | completed hp | resulted hp | verified hp
  | unverified hp => simp [hp] at hphase
  | ended hp => rcases hp with hp | hp <;> simp [hp] at hphase

theorem Stage.of_accepted (h : Stage c l) (hphase : c.phase = .accepted) :
    ∃ n starts p, l = approvals c ++ starts ++ [.event .ready, .event (.progress p)] ∧
      Starts n false starts ∧ c.IsProgress p 0 "accepted" ∧ c.lastProgressSequence = some 0 ∧
      c.result = none := by
  cases h with
  | accepted _ hstarts hp hprogress hresult =>
    exact ⟨_, _, _, rfl, hstarts, hp, hprogress, hresult⟩
  | routing hp | awaiting hp | granted hp | preparing hp | completed hp | resulted hp | verified hp
  | unverified hp => simp [hp] at hphase
  | ended hp => rcases hp with hp | hp <;> simp [hp] at hphase

theorem Stage.of_completed (h : Stage c l) (hphase : c.phase = .completedUnverified) :
    (Executed c l ∧ c.result = none) ∨ Resulted c l := by
  cases h with
  | completed _ hl hresult => exact Or.inl ⟨hl, hresult⟩
  | resulted _ hl => exact Or.inr hl
  | routing hp | awaiting hp | granted hp | preparing hp | accepted hp | verified hp
  | unverified hp => simp [hp] at hphase
  | ended hp => rcases hp with hp | hp <;> simp [hp] at hphase

/-! #### Every operation keeps the stage -/

theorem Stage.starting (h : Stage e.core l) (attempt : Int32) :
    Stage (e.applyStarting attempt).core (l ++ [.event (.starting attempt)]) := by
  unfold TaskTimelineEntry.applyStarting
  split
  · exact .ended (Or.inl rfl)
  rename_i hok
  simp only [ne_eq, not_or, not_not, not_and, Bool.not_eq_false] at hok
  obtain ⟨hattempt, hphase, -, happroved⟩ := hok
  by_cases hrouting : e.phase = .routing
  · obtain ⟨hidle, hl⟩ := h.of_routing hrouting
    have hfirst : attempt = 1 := by
      rw [hattempt, show e.lastStartAttempt = none from hidle.start]
      rfl
    -- without an approval the task needs none
    have happrovals : l = approvals e.core := by
      rcases hl with ⟨hgranted, rfl⟩ | ⟨-, -, hl⟩
      · refine (if_neg fun hconfirm => ?_).symm
        have hgranted' := happroved hconfirm
        rw [show e.approvalGranted = false from hgranted] at hgranted'
        cases hgranted'
      · exact hl
    rw [hfirst, happrovals]
    exact .preparing rfl .first rfl hidle.progress hidle.result
  · obtain ⟨n, starts, rfl, hstarts, hstart, hprogress, hresult⟩ :=
      h.of_preparing (hphase hrouting)
    have hnext : attempt = Int32.ofNat (n + 1) := by
      rw [hattempt, show e.lastStartAttempt = some (Int32.ofNat n) from hstart, Int32.ofNat_add]
      rfl
    rw [hnext, List.append_assoc]
    exact .preparing rfl hstarts.again rfl hprogress hresult

theorem Stage.ready (h : Stage e.core l) : Stage e.applyReady.core (l ++ [.event .ready]) := by
  unfold TaskTimelineEntry.applyReady
  split
  · exact .ended (Or.inl rfl)
  rename_i hok
  simp only [ne_eq, not_or, not_not, Bool.not_eq_true] at hok
  obtain ⟨hphase, -, hready⟩ := hok
  obtain ⟨n, starts, rfl, hstarts, hstart, hprogress, hresult⟩ := h.of_preparing hphase
  rw [show e.core.executionReady = false from hready] at hstarts
  rw [List.append_assoc]
  exact .preparing hphase hstarts.ready hstart hprogress hresult

theorem Stage.progress (h : Stage e.core l) (p : ToolProgress) :
    Stage (e.applyProgress p).core (l ++ [.event (.progress p)]) := by
  unfold TaskTimelineEntry.applyProgress
  split
  · exact .ended (Or.inl rfl)
  rename_i hok
  simp only [ne_eq, not_or, not_not] at hok
  obtain ⟨htool, htarget, hsequence⟩ := hok
  split
  · exact .ended (Or.inl rfl)
  rename_i phase hphase
  unfold TaskTimelineEntry.progressPhase at hphase
  split at hphase
  · -- the first event, which needs the last attempt to be ready
    rename_i hcond
    obtain ⟨hstage, hpreparing, hready, hzero⟩ := hcond
    cases hphase
    obtain ⟨n, starts, rfl, hstarts, -, -, hresult⟩ := h.of_preparing hpreparing
    rw [show e.core.executionReady = true from hready] at hstarts
    cases hstarts with
    | ready hstarts =>
      rename_i starts
      have hlist : approvals e.core ++ (starts ++ [.event .ready]) ++ [.event (.progress p)] =
          approvals e.core ++ starts ++ [.event .ready, .event (.progress p)] := by simp
      rw [hlist]
      refine .accepted rfl hstarts ⟨htool, htarget, hzero, hstage⟩ ?_ hresult
      exact congrArg some hzero
  split at hphase
  · rename_i hcond
    obtain ⟨hstage, haccepted⟩ := hcond
    cases hphase
    obtain ⟨n, starts, p₀, rfl, hstarts, hp₀, hprogress, hresult⟩ := h.of_accepted haccepted
    have hone : p.sequence = 1 := by
      rw [hsequence, show e.lastProgressSequence = some 0 from hprogress]
      rfl
    refine .completed rfl ⟨n, starts, p₀, p, hstarts, hp₀,
      ⟨htool, htarget, hone, hstage⟩, ?_⟩ hresult
    rw [List.append_assoc]
    rfl
  · cases hphase

theorem Stage.result (h : Stage e.core l) (toolName : Str) (executionTarget : ExecutionTarget)
    (content : γ) : Stage (e.applyResult toolName executionTarget content).core
      (l ++ [.event (.result toolName executionTarget content)]) := by
  unfold TaskTimelineEntry.applyResult
  split
  · exact .ended (Or.inl rfl)
  rename_i hok
  simp only [ne_eq, not_or, not_not, Bool.not_eq_false, Bool.not_eq_true] at hok
  obtain ⟨hphase, htool, rfl, haccepts, hnone⟩ := hok
  rcases h.of_completed hphase with ⟨hexecuted, -⟩ | ⟨_, _, content', -, hresult, -⟩
  · refine .resulted rfl ⟨l, toolName, content, hexecuted, rfl, ?_, htool, rfl⟩
    intro e' htarget' htool' hpermission' hgranted'
    rw [← haccepts]
    simp only [TaskTimelineEntry.acceptsContent, TaskTimelineEntry.hasAuthority.eq_def, htarget', htool',
      hpermission', hgranted']
    rfl
  · rw [show e.result = some content' from hresult] at hnone
    cases hnone

theorem Stage.verification (h : Stage e.core l) (succeeded : Bool) (summary : Str)
    (checks : List Str) : Stage (e.applyVerification succeeded summary checks).core
      (l ++ [.event (.verification succeeded summary checks)]) := by
  unfold TaskTimelineEntry.applyVerification
  split
  · exact .ended (Or.inl rfl)
  rename_i hok
  simp only [ne_eq, not_or, not_not, Option.isNone_iff_eq_none] at hok
  obtain ⟨hphase, hsome⟩ := hok
  cases succeeded with
  | false => exact .ended (Or.inl rfl)
  | true =>
    rcases h.of_completed hphase with ⟨-, hresult⟩ | hresulted
    · exact absurd hresult hsome
    · exact .verified rfl hresulted

theorem Stage.unverifiedEvent (h : Stage e.core l) (summary : Str) (checks : List Str) :
    Stage (e.applyUnverified summary checks).core (l ++ [.event (.unverified summary checks)]) := by
  unfold TaskTimelineEntry.applyUnverified
  split
  · exact .ended (Or.inl rfl)
  rename_i hok
  simp only [ne_eq, not_or, not_not, Option.isNone_iff_eq_none] at hok
  obtain ⟨hphase, hsome⟩ := hok
  rcases h.of_completed hphase with ⟨-, hresult⟩ | hresulted
  · exact absurd hresult hsome
  · exact .unverified rfl hresulted

theorem Stage.event (h : Stage e.core l) (event : ExecutionEvent γ) :
    Stage (e.applyEvent event).core (l ++ [.event event]) := by
  cases event with
  | starting attempt => exact h.starting attempt
  | ready => exact h.ready
  | progress p => exact h.progress p
  | result toolName executionTarget content => exact h.result toolName executionTarget content
  | verification succeeded summary checks => exact h.verification succeeded summary checks
  | unverified summary checks => exact h.unverifiedEvent summary checks
  | error code message retryable => exact .ended (Or.inl rfl)

theorem Stage.await (h : Stage e.core l) (summary : Str) :
    Stage (e.awaitedApproval summary).core (l ++ [.awaitApproval]) := by
  unfold TaskTimelineEntry.awaitedApproval
  split
  · rename_i hcond
    obtain ⟨hphase, hconfirm, hgranted⟩ := hcond
    obtain ⟨hidle, ⟨-, rfl⟩ | ⟨hgranted', -, -⟩⟩ := h.of_routing hphase
    · exact .awaiting rfl ⟨hidle.1, hidle.2, hidle.3, hidle.4⟩ hconfirm hgranted
    · rw [show e.approvalGranted = true from hgranted'] at hgranted
      cases hgranted
  · exact .ended (Or.inl rfl)

theorem Stage.grant (h : Stage e.core l) :
    Stage e.grantedApproval.core (l ++ [.grantApproval]) := by
  unfold TaskTimelineEntry.grantedApproval
  split
  · rename_i hcond
    obtain ⟨hphase, -, -⟩ := hcond
    obtain ⟨hidle, hconfirm, rfl⟩ := h.of_awaiting hphase
    exact .granted rfl ⟨hidle.1, hidle.2, hidle.3, hidle.4⟩ hconfirm rfl
  · exact .ended (Or.inl rfl)

/-- **No operation on the active task breaks what the phase says about the past.** -/
theorem Stage.change {active : Option UUID} {op : Op γ} {taskId : UUID} {input : Input γ}
    {f : TaskTimelineEntry γ → Option (TaskTimelineEntry γ)} {e' : TaskTimelineEntry γ}
    (h : Stage e.core l) (hop : op.change active = some (taskId, input, f)) (he : f e = some e') :
    Stage e'.core (l ++ [input]) := by
  cases op with
  | mergeRestoredAudit | markAuditRecorded | start | reject | startLocalModelObservation => cases hop
  | completeLocalModelObservation t observation now =>
    cases hop
    cases he
    exact .ended (Or.inl rfl)
  | apply t event now =>
    cases hop
    cases he
    rw [core_withTerminalTimestamp]
    exact h.event event
  | awaitApproval t summary now =>
    cases hop
    cases he
    rw [core_withTerminalTimestamp]
    exact h.await summary
  | grantApproval t now =>
    cases hop
    cases he
    rw [core_withTerminalTimestamp]
    exact h.grant
  | denyApproval t summary now =>
    cases hop
    obtain ⟨e₁, he₁, rfl⟩ := Option.map_eq_some_iff.1 he
    unfold TaskTimelineEntry.deniedApproval at he₁
    split at he₁
    · cases he₁
    · cases he₁
      rw [core_withTerminalTimestamp]
      exact .ended (Or.inr rfl)
  | expireApproval t now =>
    cases hop
    obtain ⟨e₁, he₁, rfl⟩ := Option.map_eq_some_iff.1 he
    unfold TaskTimelineEntry.expiredApproval at he₁
    split at he₁
    · cases he₁
    · cases he₁
      rw [core_withTerminalTimestamp]
      exact .ended (Or.inl rfl)
  | cancelActive now =>
    obtain ⟨t, -, heq⟩ := Option.map_eq_some_iff.1 hop
    cases heq
    cases he
    rw [core_withTerminalTimestamp]
    exact .ended (Or.inr rfl)

end Stages

/-! ### Where entries come from -/

/-- Where an entry `y` after an operation comes from. -/
inductive Origin [ToolResultContent γ] (h : History γ) (op : Op γ) : Tracked γ → Prop
  | kept {x : Tracked γ} (hx : x ∈ h.timeline.entries) : Origin h op x
  | marked {x : Tracked γ} {now : ℤ} (hx : x ∈ h.timeline.entries) : Origin h op (x.mark now)
  | added {y : Tracked γ} (hserial : h.made ≤ y.serial) (hmade : y.serial < (h.step op).made)
      (hstage : y.restored = false → Stage y.entry.core y.inputs) : Origin h op y
  | changed {x : Tracked γ} {taskId : UUID} {input : Input γ}
      {f : TaskTimelineEntry γ → Option (TaskTimelineEntry γ)} {e : TaskTimelineEntry γ}
      (hactive : h.timeline.activeTaskId = some taskId)
      (hlast : IsLast taskId h.timeline.entries x)
      (hop : op.change h.timeline.activeTaskId = some (taskId, input, f))
      (he : f x.entry = some e) :
      Origin h op { x with entry := e, inputs := x.inputs ++ [input] }

theorem mem_restoredEntries {y : Tracked γ} {made : ℕ} {restored : List (TaskTimelineEntry γ)}
    (hy : y ∈ restoredEntries made restored) :
    y.restored = true ∧ y.entry ∈ restored ∧ made ≤ y.serial ∧
      y.serial < made + restored.length := by
  obtain ⟨⟨e, serial⟩, hmem, rfl⟩ := List.mem_map.1 hy
  obtain ⟨hle, hlt, he⟩ := List.mem_zipIdx hmem
  exact ⟨rfl, by rw [he]; exact List.getElem_mem _, hle, hlt⟩

/-! ### Serial numbers -/

section Numbers

variable {h : History γ}

/-- Serial numbers identify entries. -/
structure Numbered (h : History γ) : Prop where
  lt_made : ∀ x ∈ h.timeline.entries, x.serial < h.made
  nodup : (h.timeline.entries.map Tracked.serial).Nodup

theorem Numbered.eq (hh : Numbered h) {x y : Tracked γ} (hx : x ∈ h.timeline.entries)
    (hy : y ∈ h.timeline.entries) (hserial : x.serial = y.serial) : x = y :=
  List.inj_on_of_nodup_map hh.nodup hx hy hserial

theorem nodup_add (hh : Numbered h) (active : Option UUID) (e : TaskTimelineEntry γ) :
    ((h.add active e).timeline.entries.map Tracked.serial).Nodup := by
  refine List.Nodup.sublist ((takeLast_suffix _ _).sublist.map _) ?_
  rw [List.map_append, List.map_singleton, List.nodup_append]
  refine ⟨hh.nodup, List.nodup_singleton _, ?_⟩
  intro n hn m hm
  obtain ⟨x, hx, rfl⟩ := List.mem_map.1 hn
  rw [List.mem_singleton.1 hm]
  exact (hh.lt_made x hx).ne

theorem nodup_merge (hh : Numbered h) (restored : List (TaskTimelineEntry γ)) :
    ((h.timeline.merge (restoredEntries h.made restored)).entries.map Tracked.serial).Nodup := by
  refine List.Nodup.sublist ((takeLast_suffix _ _).sublist.map _) ?_
  have hall : ((restoredEntries h.made restored ++ h.timeline.entries).map Tracked.serial).Nodup := by
    rw [List.map_append, List.nodup_append]
    refine ⟨?_, hh.nodup, ?_⟩
    · have : (restoredEntries h.made restored).map Tracked.serial =
          List.range' h.made restored.length := by
        simp [restoredEntries, Function.comp_def, List.zipIdx_map_snd]
      rw [this]
      exact List.nodup_range'
    · intro n hn m hm
      obtain ⟨x, hx, rfl⟩ := List.mem_map.1 hn
      obtain ⟨y, hy, rfl⟩ := List.mem_map.1 hm
      obtain ⟨-, -, hle, -⟩ := mem_restoredEntries hx
      exact ((hh.lt_made y hy).trans_le hle).ne'
  refine List.Nodup.map_on ?_ nodup_mergedEntries
  intro x hx y hy hserial
  exact List.inj_on_of_nodup_map hall (mem_mergedEntries.1 hx).mem (mem_mergedEntries.1 hy).mem
    hserial

theorem nodup_mark (hh : Numbered h) (taskId : UUID) (now : ℤ) :
    ((markTracked h.timeline taskId now).entries.map Tracked.serial).Nodup := by
  unfold markTracked
  rcases onLast_cases h.timeline h.timeline taskId (fun index x =>
      if x.entry.phase.terminal then
        some { h.timeline with entries := h.timeline.entries.set index (x.mark now) }
      else none) with ⟨-, heq⟩ | ⟨pre, x, post, hentries, -, -, heq⟩
  · rw [heq]
    exact hh.nodup
  rw [heq]
  split
  · have hnodup := hh.nodup
    rw [Option.getD_some]
    dsimp only
    rw [hentries] at hnodup ⊢
    rw [set_length_append]
    simpa [Tracked.mark] using hnodup
  · exact hh.nodup

theorem nodup_onActive (hh : Numbered h) (taskId : UUID) (input : Input γ)
    (f : TaskTimelineEntry γ → Option (TaskTimelineEntry γ)) :
    ((h.timeline.onActive taskId (Tracked.change input f)).entries.map Tracked.serial).Nodup := by
  have hcases := onActive_cases h.timeline taskId (Tracked.change input f)
  generalize h.timeline.onActive taskId (Tracked.change input f) = s at hcases ⊢
  cases hcases with
  | same => exact hh.nodup
  | missing => exact hh.nodup
  | changed hactive hentries hid hpost hy =>
    obtain ⟨e, -, rfl⟩ := Option.map_eq_some_iff.1 hy
    have hnodup := hh.nodup
    rw [hentries] at hnodup
    simpa using hnodup

end Numbers

/-! ### One step -/

section Origins

variable [ToolResultContent γ] {h : History γ} {op : Op γ} {y : Tracked γ}

/-- The entries after `add`. -/
theorem origin_add {active : Option UUID} {e : TaskTimelineEntry γ}
    (hstep : h.step op = h.add active e) (hstage : Stage e.core [])
    (hy : y ∈ (h.step op).timeline.entries) : Origin h op y := by
  have hmade : (h.step op).made = h.made + 1 := by rw [hstep]; rfl
  rw [hstep] at hy
  rcases List.mem_append.1 (mem_of_mem_takeLast hy) with hy | hy
  · exact .kept hy
  · obtain rfl := List.mem_singleton.1 hy
    exact .added le_rfl (by rw [hmade]; exact Nat.lt_succ_self _) fun _ => hstage

/-- The entries after an operation on the active task. -/
theorem origin_onActive {taskId : UUID} {input : Input γ}
    {f : TaskTimelineEntry γ → Option (TaskTimelineEntry γ)}
    (hop : op.change h.timeline.activeTaskId = some (taskId, input, f))
    (hy : y ∈ (h.timeline.onActive taskId (Tracked.change input f)).entries) :
    Origin h op y := by
  have hcases := onActive_cases h.timeline taskId (Tracked.change input f)
  generalize h.timeline.onActive taskId (Tracked.change input f) = s at hy hcases
  cases hcases with
  | same => exact .kept hy
  | missing => exact .kept hy
  | changed hactive hentries hid hpost hz =>
    rename_i pre post x z
    obtain ⟨e, he, rfl⟩ := Option.map_eq_some_iff.1 hz
    rcases List.mem_append.1 hy with hy | hy
    · exact .kept (by rw [hentries]; exact List.mem_append_left _ hy)
    rcases List.mem_cons.1 hy with rfl | hy
    · exact .changed hactive ⟨pre, post, hentries, hid, hpost⟩ hop he
    · exact .kept (by rw [hentries]; simp [hy])

theorem origin_step (hy : y ∈ (h.step op).timeline.entries) : Origin h op y := by
  cases hop : op.change h.timeline.activeTaskId with
  | some c =>
    obtain ⟨taskId, input, f⟩ := c
    rw [History.step_eq_onActive hop] at hy
    exact origin_onActive hop hy
  | none =>
    cases op with
    | mergeRestoredAudit restored =>
      by_cases hall : restored.all isRestorable = true
      · have hstep : h.step (.mergeRestoredAudit restored) =
            { timeline := h.timeline.merge (restoredEntries h.made restored)
              made := h.made + restored.length } := if_pos hall
        have hmade : (h.step (.mergeRestoredAudit restored)).made = h.made + restored.length := by
          rw [hstep]
        rw [hstep] at hy
        rcases List.mem_append.1 (mem_mergedEntries.1 (mem_of_mem_takeLast hy)).mem with hy | hy
        · obtain ⟨hrestored, -, hle, hlt⟩ := mem_restoredEntries hy
          refine .added hle (hmade ▸ hlt) fun hfalse => ?_
          rw [hrestored] at hfalse
          cases hfalse
        · exact .kept hy
      · rw [show h.step (.mergeRestoredAudit restored) = h from if_neg hall] at hy
        exact .kept hy
    | markAuditRecorded taskId now =>
      by_cases hnow : now ≤ 0
      · rw [show h.step (.markAuditRecorded taskId now) = h from if_pos hnow] at hy
        exact .kept hy
      rw [show h.step (.markAuditRecorded taskId now) =
        { h with timeline := markTracked h.timeline taskId now } from if_neg hnow] at hy
      unfold markTracked at hy
      rcases onLast_cases h.timeline h.timeline taskId (fun index x =>
          if x.entry.phase.terminal then
            some { h.timeline with entries := h.timeline.entries.set index (x.mark now) }
          else none) with ⟨-, heq⟩ | ⟨pre, x, post, hentries, -, -, heq⟩
      · rw [heq] at hy
        exact .kept hy
      · rw [heq] at hy
        split at hy
        · rw [Option.getD_some] at hy
          dsimp only at hy
          rw [hentries, set_length_append] at hy
          rcases List.mem_append.1 hy with hy | hy
          · exact .kept (by rw [hentries]; exact List.mem_append_left _ hy)
          rcases List.mem_cons.1 hy with rfl | hy
          · exact .marked (by rw [hentries]; simp)
          · exact .kept (by rw [hentries]; simp [hy])
        · exact .kept hy
    | start taskId plan =>
      by_cases hactive : h.timeline.activeTaskId ≠ none
      · rw [show h.step (.start taskId plan) = h from if_pos hactive] at hy
        exact .kept hy
      · exact origin_add (if_neg hactive) (.routing rfl ⟨rfl, rfl, rfl, rfl⟩ rfl) hy
    | reject rejectId command summary now executionTarget toolName permission =>
      by_cases hempty : TaskTimelineState.normalize command = []
      · rw [show h.step (.reject rejectId command summary now executionTarget toolName permission) = h
          from if_pos hempty] at hy
        exact .kept hy
      · exact origin_add (if_neg hempty) (.ended (Or.inl rfl)) hy
    | startLocalModelObservation taskId command statusSummary =>
      by_cases hactive : h.timeline.activeTaskId ≠ none
      · rw [show h.step (.startLocalModelObservation taskId command statusSummary) = h
          from if_pos hactive] at hy
        exact .kept hy
      by_cases hempty : TaskTimelineState.normalize command = []
      · rw [show h.step (.startLocalModelObservation taskId command statusSummary) = h
          from (if_neg hactive).trans (if_pos hempty)] at hy
        exact .kept hy
      · exact origin_add ((if_neg hactive).trans (if_neg hempty))
          (.routing rfl ⟨rfl, rfl, rfl, rfl⟩ rfl) hy
    | cancelActive now =>
      rw [show h.step (.cancelActive now) = h by simp only [History.step, hop]] at hy
      exact .kept hy
    | completeLocalModelObservation | apply | awaitApproval | grantApproval | denyApproval
    | expireApproval => cases hop

/-- Entries are numbered one after the other. -/
theorem made_le_step : h.made ≤ (h.step op).made := by
  have hadd : ∀ active e, h.made ≤ (h.add active e).made := fun _ _ => Nat.le_succ _
  unfold History.step
  split
  · split
    · exact Nat.le_add_right _ _
    · exact le_rfl
  · split <;> exact le_rfl
  · split
    · exact le_rfl
    · exact hadd _ _
  · split
    · exact le_rfl
    · exact hadd _ _
  · split
    · exact le_rfl
    split
    · exact le_rfl
    · exact hadd _ _
  · split <;> exact le_rfl

theorem id_applyEvent (e : TaskTimelineEntry γ) (event : ExecutionEvent γ) :
    (e.applyEvent event).id = e.id := by
  cases event with
  | starting attempt =>
    simp only [TaskTimelineEntry.applyEvent, TaskTimelineEntry.applyStarting]
    split <;> rfl
  | ready =>
    simp only [TaskTimelineEntry.applyEvent, TaskTimelineEntry.applyReady]
    split <;> rfl
  | progress p =>
    simp only [TaskTimelineEntry.applyEvent, TaskTimelineEntry.applyProgress]
    split
    · rfl
    · split <;> rfl
  | result toolName executionTarget content =>
    simp only [TaskTimelineEntry.applyEvent, TaskTimelineEntry.applyResult]
    split <;> rfl
  | verification succeeded summary checks =>
    simp only [TaskTimelineEntry.applyEvent, TaskTimelineEntry.applyVerification]
    split <;> rfl
  | unverified summary checks =>
    simp only [TaskTimelineEntry.applyEvent, TaskTimelineEntry.applyUnverified]
    split <;> rfl
  | error code message retryable => rfl

/-- The changes leave the id of an entry as it is. -/
theorem id_change {active : Option UUID} {taskId : UUID} {input : Input γ}
    {f : TaskTimelineEntry γ → Option (TaskTimelineEntry γ)} {e e' : TaskTimelineEntry γ}
    (hop : op.change active = some (taskId, input, f)) (he : f e = some e') : e'.id = e.id := by
  have htime : ∀ (e : TaskTimelineEntry γ) now, (e.withTerminalTimestamp now).id = e.id :=
    fun e now => congrArg Core.id (core_withTerminalTimestamp e now)
  cases op with
  | mergeRestoredAudit | markAuditRecorded | start | reject | startLocalModelObservation => cases hop
  | completeLocalModelObservation t observation now =>
    cases hop
    cases he
    rfl
  | apply t event now =>
    cases hop
    cases he
    rw [htime]
    exact id_applyEvent e event
  | awaitApproval t summary now =>
    cases hop
    cases he
    rw [htime]
    unfold TaskTimelineEntry.awaitedApproval
    split <;> rfl
  | grantApproval t now =>
    cases hop
    cases he
    rw [htime]
    unfold TaskTimelineEntry.grantedApproval
    split <;> rfl
  | denyApproval t summary now =>
    cases hop
    obtain ⟨e₁, he₁, rfl⟩ := Option.map_eq_some_iff.1 he
    rw [htime]
    unfold TaskTimelineEntry.deniedApproval at he₁
    split at he₁ <;> cases he₁
    rfl
  | expireApproval t now =>
    cases hop
    obtain ⟨e₁, he₁, rfl⟩ := Option.map_eq_some_iff.1 he
    rw [htime]
    unfold TaskTimelineEntry.expiredApproval at he₁
    split at he₁ <;> cases he₁
    rfl
  | cancelActive now =>
    obtain ⟨t, -, heq⟩ := Option.map_eq_some_iff.1 hop
    cases heq
    cases he
    rw [htime]
    rfl

/-! ### Whole runs -/

/-- Every entry that was made here has a stage. -/
theorem stage_step (hstage : ∀ x ∈ h.timeline.entries, x.restored = false →
      Stage x.entry.core x.inputs)
    (hy : y ∈ (h.step op).timeline.entries) (hmade : y.restored = false) :
    Stage y.entry.core y.inputs := by
  cases origin_step hy with
  | kept hx => exact hstage _ hx hmade
  | marked hx =>
    rename_i x now
    exact hstage x hx hmade
  | added _ _ hadded => exact hadded hmade
  | changed _ hlast hop he => exact (hstage _ hlast.mem hmade).change hop he

theorem lt_made_step (hh : Numbered h) (hy : y ∈ (h.step op).timeline.entries) :
    y.serial < (h.step op).made := by
  cases origin_step hy with
  | kept hx => exact (hh.lt_made _ hx).trans_le made_le_step
  | marked hx =>
    rename_i x now
    exact (hh.lt_made x hx).trans_le made_le_step
  | added _ hmade _ => exact hmade
  | changed _ hlast _ _ =>
    exact (hh.lt_made _ hlast.mem).trans_le made_le_step

theorem track_concat (ops : List (Op γ)) (op : Op γ) : track (ops ++ [op]) = (track ops).step op := by
  simp [track]

theorem stage_track {ops : List (Op γ)} : ∀ x ∈ (track ops).timeline.entries, x.restored = false →
    Stage x.entry.core x.inputs := by
  induction ops using List.reverseRecOn with
  | nil => intro x hx; cases hx
  | append_singleton ops op ih =>
    intro x hx
    rw [track_concat] at hx
    exact stage_step ih hx

theorem numbered_step (hh : Numbered h) : Numbered (h.step op) where
  lt_made _ hy := lt_made_step hh hy
  nodup := by
    unfold History.step
    split
    · split
      · exact nodup_merge hh _
      · exact hh.nodup
    · split
      · exact hh.nodup
      · exact nodup_mark hh _ _
    · split
      · exact hh.nodup
      · exact nodup_add hh _ _
    · split
      · exact hh.nodup
      · exact nodup_add hh _ _
    · split
      · exact hh.nodup
      split
      · exact hh.nodup
      · exact nodup_add hh _ _
    · split
      · exact hh.nodup
      · exact nodup_onActive hh _ _ _

theorem numbered_track (ops : List (Op γ)) : Numbered (track ops) := by
  induction ops using List.reverseRecOn with
  | nil => exact ⟨fun x hx => (List.not_mem_nil hx).elim, List.nodup_nil⟩
  | append_singleton ops op ih =>
    rw [track_concat]
    exact numbered_step ih

end Origins

/-! ### Entries that have come to their end -/

section Active

open Timeline

variable {ε : Type} [Entry γ ε] {s : Timeline ε} {x : ε}

/-- The entry that the active task is changed at has not come to its end. -/
def ActiveOpen (s : Timeline ε) : Prop :=
  ∀ taskId x, s.activeTaskId = some taskId → IsLast taskId s.entries x →
    (Entry.entry x).phase.terminal = false

theorem activeOpen_of_none (hs : s.activeTaskId = none) : ActiveOpen s := by
  intro taskId x hactive
  rw [hs] at hactive
  cases hactive

/-- A new entry is either that of the active task or leaves it alone. -/
theorem activeOpen_add (hx : s.activeTaskId = some (idOf x) ∧ (Entry.entry x).phase.terminal = false ∨
    s.activeTaskId ≠ some (idOf x) ∧ ActiveOpen s) : ActiveOpen (s.add x) := by
  intro taskId y hactive hlast
  have hlast' : IsLast taskId (s.entries ++ [x]) y := hlast.of_suffix (takeLast_suffix _ _)
  rcases isLast_concat.1 hlast' with ⟨hid, rfl⟩ | ⟨hne, hold⟩
  · rcases hx with ⟨-, hopen⟩ | ⟨hne, -⟩
    · exact hopen
    · exact absurd (hid ▸ hactive) hne
  · rcases hx with ⟨hid, -⟩ | ⟨-, hs⟩
    · exact absurd (Option.some.inj (hid.symm.trans hactive)) hne
    · exact hs taskId y hactive hold

theorem activeOpen_merge {restored : List ε} (hs : ActiveOpen s)
    (hrestored : ∀ y ∈ restored, s.activeTaskId ≠ some (idOf y)) :
    ActiveOpen (s.merge restored) := by
  intro taskId x hactive hlast
  have hmerged := mem_mergedEntries.1 (mem_of_mem_takeLast hlast.mem)
  rw [hlast.id] at hmerged
  refine hs taskId x hactive ?_
  -- the last entry of the task is none of the restored ones, which come first
  obtain ⟨pre, post, heq, hid, hpost⟩ := hmerged
  rcases List.append_eq_append_iff.1 heq with ⟨mid, rfl, hmid⟩ | ⟨mid, hmid, hrest⟩
  · exact ⟨mid, post, hmid, hid, hpost⟩
  · cases mid with
    | nil => exact ⟨[], post, by simpa using hrest.symm, hid, hpost⟩
    | cons z mid =>
      obtain ⟨rfl, -⟩ := List.cons.inj hrest
      exact absurd (hid ▸ hactive) (hrestored x (by rw [hmid]; simp))

theorem activeOpen_onActive {taskId : UUID} {f : ε → Option ε} (hs : ActiveOpen s)
    (hf : ∀ y z, f y = some z → idOf z = idOf y) : ActiveOpen (s.onActive taskId f) := by
  have hcases := onActive_cases s taskId f
  generalize s.onActive taskId f = s' at hcases ⊢
  cases hcases with
  | same => exact hs
  | missing => exact activeOpen_of_none rfl
  | changed hactive hentries hid hpost hy =>
    rename_i pre post x y
    intro t z ht hlast
    by_cases hterminal : (Entry.entry y).phase.terminal = true
    · rw [if_pos hterminal] at ht
      cases ht
    rw [if_neg hterminal, hactive] at ht
    obtain rfl := Option.some.inj ht
    -- the changed entry is still the last one of its task
    have hself : IsLast taskId (pre ++ y :: post) y := ⟨pre, post, rfl, (hf x y hy).trans hid, hpost⟩
    rw [hlast.unique hself]
    simpa using hterminal

/-- A change of an entry that leaves its phase as it is. -/
theorem activeOpen_replace {pre post : List ε} {y : ε} (hs : ActiveOpen s)
    (hentries : s.entries = pre ++ x :: post) (hid : idOf y = idOf x)
    (hphase : (Entry.entry y).phase = (Entry.entry x).phase) :
    ActiveOpen { s with entries := pre ++ y :: post } := by
  intro taskId z hactive hlast
  rcases hlast.of_replace hid with ⟨rfl, hx⟩ | hz
  · rw [hphase]
    exact hs taskId x hactive (hentries ▸ hx)
  · exact hs taskId z hactive (hentries ▸ hz)

end Active

theorem activeOpen_mark {s : Timeline (Tracked γ)} (hs : ActiveOpen s) (taskId : UUID) (now : ℤ) :
    ActiveOpen (markTracked s taskId now) := by
  unfold markTracked
  rcases onLast_cases s s taskId (fun index x =>
      if x.entry.phase.terminal then
        some { s with entries := s.entries.set index (x.mark now) }
      else none) with ⟨-, heq⟩ | ⟨pre, x, post, hentries, -, -, heq⟩
  · rw [heq]
    exact hs
  rw [heq]
  split
  · rw [Option.getD_some, hentries, set_length_append]
    exact activeOpen_replace hs hentries rfl rfl
  · exact hs

/-- The operation brings an entry from outside that has the id of the active task. -/
def Op.Disturbs (active : Option UUID) : Op γ → Prop
  | .mergeRestoredAudit restored => ∃ e ∈ restored, active = some e.id
  | .reject id _ _ _ _ _ _ => active = some id
  | _ => False

/-- No entry from outside ever has the id of the task that is active at that time. -/
def Undisturbed [ToolResultContent γ] (ops : List (Op γ)) : Prop :=
  ∀ pre op post, ops = pre ++ op :: post → ¬ op.Disturbs (runOps pre).activeTaskId

section Ended

variable [ToolResultContent γ] {h : History γ} {op : Op γ} {ops : List (Op γ)}

theorem Undisturbed.of_append {post : List (Op γ)} (hops : Undisturbed (ops ++ post)) :
    Undisturbed ops := by
  intro pre op rest heq
  exact hops pre op (rest ++ post) (by simp [heq])

theorem Undisturbed.last (hops : Undisturbed (ops ++ [op])) :
    ¬ op.Disturbs (track ops).timeline.activeTaskId := by
  have hactive : (runOps ops).activeTaskId = (track ops).timeline.activeTaskId := by
    rw [← project_track]
    rfl
  rw [← hactive]
  exact hops ops op [] rfl

theorem activeOpen_step (hs : ActiveOpen h.timeline)
    (hok : ¬ op.Disturbs h.timeline.activeTaskId) : ActiveOpen (h.step op).timeline := by
  cases hop : op.change h.timeline.activeTaskId with
  | some c =>
    obtain ⟨taskId, input, f⟩ := c
    rw [History.step_eq_onActive hop]
    refine activeOpen_onActive hs fun y z hz => ?_
    obtain ⟨e, he, rfl⟩ := Option.map_eq_some_iff.1 hz
    exact id_change hop he
  | none =>
    cases op with
    | mergeRestoredAudit restored =>
      unfold History.step
      dsimp only
      split
      · refine activeOpen_merge hs fun y hy hactive => hok ?_
        obtain ⟨-, hmem, -, -⟩ := mem_restoredEntries hy
        exact ⟨y.entry, hmem, hactive⟩
      · exact hs
    | markAuditRecorded taskId now =>
      unfold History.step
      dsimp only
      split
      · exact hs
      · exact activeOpen_mark hs taskId now
    | start taskId plan =>
      unfold History.step
      dsimp only
      split
      · exact hs
      · exact activeOpen_add (Or.inl ⟨rfl, rfl⟩)
    | reject rejectId command summary now executionTarget toolName permission =>
      unfold History.step
      dsimp only
      split
      · exact hs
      · exact activeOpen_add (Or.inr ⟨hok, hs⟩)
    | startLocalModelObservation taskId command statusSummary =>
      unfold History.step
      dsimp only
      split
      · exact hs
      split
      · exact hs
      · exact activeOpen_add (Or.inl ⟨rfl, rfl⟩)
    | cancelActive now =>
      rw [show h.step (.cancelActive now) = h by simp only [History.step, hop]]
      exact hs
    | completeLocalModelObservation | apply | awaitApproval | grantApproval | denyApproval
    | expireApproval => cases hop

theorem activeOpen_track (hops : Undisturbed ops) : ActiveOpen (track ops).timeline := by
  induction ops using List.reverseRecOn with
  | nil => exact activeOpen_of_none rfl
  | append_singleton ops op ih =>
    rw [track_concat]
    exact activeOpen_step (ih hops.of_append) hops.last

theorem made_le_track (pre post : List (Op γ)) : (track pre).made ≤ (track (pre ++ post)).made := by
  induction post using List.reverseRecOn with
  | nil => rw [List.append_nil]
  | append_singleton post op ih =>
    rw [← List.append_assoc, track_concat]
    exact ih.trans made_le_step

/-- An entry that has come to its end stays as it is. -/
theorem ended_stays {pre post : List (Op γ)} {x y : Tracked γ} (hops : Undisturbed (pre ++ post))
    (hx : x ∈ (track pre).timeline.entries) (hterminal : x.entry.phase.terminal = true)
    (hy : y ∈ (track (pre ++ post)).timeline.entries) (hserial : y.serial = x.serial) :
    y.entry.phase = x.entry.phase ∧ y.entry.result = x.entry.result := by
  induction post using List.reverseRecOn generalizing y with
  | nil =>
    rw [List.append_nil] at hy
    rw [(numbered_track pre).eq hy hx hserial]
    exact ⟨rfl, rfl⟩
  | append_singleton post op ih =>
    rw [← List.append_assoc] at hops hy
    rw [track_concat] at hy
    have ih' := fun z hz hzserial => ih hops.of_append (y := z) hz hzserial
    cases origin_step hy with
    | kept hz => exact ih' _ hz hserial
    | marked hz =>
      rename_i z now
      exact ih' z hz hserial
    | added hle =>
      -- a new entry has a number of its own
      have hlt : x.serial < (track (pre ++ post)).made :=
        ((numbered_track pre).lt_made x hx).trans_le (made_le_track pre post)
      omega
    | changed hactive hlast =>
      rename_i z _ _ _ _ _ _
      -- only an entry that is not at its end is changed
      have hopen := activeOpen_track hops.of_append _ _ hactive hlast
      obtain ⟨hphase, -⟩ := ih' _ hlast.mem hserial
      rw [show (Entry.entry _).phase = x.entry.phase from hphase, hterminal] at hopen
      cases hopen

end Ended

/-- Without a tool name there is no progress. -/
theorem Stage.phase_of_no_tool [ToolResultContent γ] {c : Core γ} {l : List (Input γ)}
    (h : Stage c l) (htool : c.toolName = none) :
    c.phase ∉ [.accepted, .completedUnverified, .unverified, .verified] := by
  have hprogress : ∀ p sequence stage, ¬ c.IsProgress p sequence stage := by
    intro p sequence stage ⟨hname, _⟩
    rw [htool] at hname
    cases hname
  have hexecuted : ∀ l, ¬ Executed c l := fun l ⟨_, _, _, _, _, hp, _⟩ => hprogress _ _ _ hp
  have hresulted : ∀ l, ¬ Resulted c l := fun l ⟨_, _, _, hl, _⟩ => hexecuted _ hl
  cases h with
  | routing hphase | awaiting hphase | granted hphase | preparing hphase => simp [hphase]
  | accepted _ _ hp => exact absurd hp (hprogress _ _ _)
  | completed _ hl => exact absurd hl (hexecuted _)
  | resulted _ hl | verified _ hl | unverified _ hl => exact absurd hl (hresulted _)
  | ended hphase => rcases hphase with hphase | hphase <;> simp [hphase]

theorem Stage.of_verified [ToolResultContent γ] {c : Core γ} {l : List (Input γ)} (h : Stage c l)
    (hphase : c.phase = .verified) : ∃ l' summary checks, Resulted c l' ∧
      l = l' ++ [.event (.verification true summary checks)] := by
  cases h with
  | verified _ hl => exact ⟨_, _, _, hl, rfl⟩
  | routing hp | awaiting hp | granted hp | preparing hp | accepted hp | completed hp | resulted hp
  | unverified hp => simp [hp] at hphase
  | ended hp => rcases hp with hp | hp <;> simp [hp] at hphase

theorem Stage.of_unverified [ToolResultContent γ] {c : Core γ} {l : List (Input γ)} (h : Stage c l)
    (hphase : c.phase = .unverified) : ∃ l' summary checks, Resulted c l' ∧
      l = l' ++ [.event (.unverified summary checks)] := by
  cases h with
  | unverified _ hl => exact ⟨_, _, _, hl, rfl⟩
  | routing hp | awaiting hp | granted hp | preparing hp | accepted hp | completed hp | resulted hp
  | verified hp => simp [hp] at hphase
  | ended hp => rcases hp with hp | hp <;> simp [hp] at hphase

/-- **What the entries of every timeline have been through.** An entry that was not restored from the
audit store is verified or unverified only after its approvals (where its permission asks for them),
its start attempts, `Ready`, the two progress events and an accepted result, in this order; without
a tool name it gets no further than `PREPARING`. As long as no entry from outside has the id of the
active task, an entry at its end keeps its phase and its result. -/
theorem entry_histories [ToolResultContent γ] (ops : List (Op γ)) :
    (track ops).project = runOps ops ∧
    (∀ x ∈ (track ops).timeline.entries, x.restored = false →
      (x.entry.phase = .verified → ∃ l summary checks, Resulted x.entry.core l ∧
        x.inputs = l ++ [.event (.verification true summary checks)]) ∧
      (x.entry.phase = .unverified → ∃ l summary checks, Resulted x.entry.core l ∧
        x.inputs = l ++ [.event (.unverified summary checks)]) ∧
      (x.entry.toolName = none →
        x.entry.phase ∉ [.accepted, .completedUnverified, .unverified, .verified])) ∧
    (Undisturbed ops → ∀ pre post x y, ops = pre ++ post → x ∈ (track pre).timeline.entries →
      x.entry.phase.terminal = true → y ∈ (track ops).timeline.entries → y.serial = x.serial →
      y.entry.phase = x.entry.phase ∧ y.entry.result = x.entry.result) := by
  refine ⟨project_track ops, ?_, ?_⟩
  · intro x hx hmade
    have hstage := stage_track x hx hmade
    exact ⟨hstage.of_verified, hstage.of_unverified, hstage.phase_of_no_tool⟩
  · rintro hops pre post x y rfl hx hterminal hy hserial
    exact ended_stays hops hx hterminal hy hserial

section Example

/-- A task that asks for approval, from its start to its verification. -/
def flashlightRun : List (Op ContentType) :=
  let progress (sequence : Int32) (stage : String) : ExecutionEvent ContentType :=
    .progress ⟨lit "phone.flashlight.set", .phone, lit stage, sequence, lit stage⟩
  [.start 1 ⟨lit "flashlight on", .phone, lit "phone.flashlight.set", .confirm,
      .phoneFlashlightSet true⟩,
    .awaitApproval 1 (lit "Turn on the flashlight") 1000, .grantApproval 1 2000,
    .apply 1 (.starting 1) 2000, .apply 1 .ready 2000, .apply 1 (progress 0 "accepted") 2000,
    .apply 1 (progress 1 "completed") 3000,
    .apply 1 (.result (lit "phone.flashlight.set") .phone .phoneFlashlightState) 3000,
    .apply 1 (.verification true (lit "Flashlight is on") []) 3000]

theorem flashlightRun_verified : ∃ x ∈ (track flashlightRun).timeline.entries,
    x.entry.phase = .verified ∧ ∃ l summary checks, Resulted x.entry.core l ∧
      x.inputs = l ++ [.event (.verification true summary checks)] := by
  obtain ⟨x, hx, hphase, hmade⟩ : ∃ x ∈ (track flashlightRun).timeline.entries,
      x.entry.phase = .verified ∧ x.restored = false := by decide +kernel
  obtain ⟨hverified, -, -⟩ := (entry_histories flashlightRun).2.1 x hx hmade
  exact ⟨x, hx, hphase, hverified hphase⟩

/-- A verified task in the audit store. -/
def batteryAudit (id : UUID) : TaskTimelineEntry ContentType where
  id := id
  command := lit "battery"
  executionTarget := .phone
  toolName := some (lit "phone.battery.status")
  phase := .verified
  summary := lit "Battery read"
  events := []
  permission := some .safe
  terminalAtEpochMillis := some 1000

/-- The active task 1 is trimmed by 50 rejected commands, and then restored. -/
def trimmedRun : List (Op ContentType) :=
  [.start 1 ⟨lit "battery", .phone, lit "phone.battery.status", .safe,
    .noToolArguments⟩] ++
  (List.range 50).map (fun i =>
    .reject (Fin.ofNat _ (i + 2)) (lit "battery") (lit "busy") 2000 .phone none none) ++
  [.mergeRestoredAudit [batteryAudit 2, batteryAudit 1]]

/-- A restored entry is verified though nothing has reached it, and when it has the id of the active
task, an event of that task makes it fail. -/
theorem restored_entry_fails :
    ((track [.mergeRestoredAudit [batteryAudit 1]]).timeline.entries.map fun x =>
      (x.entry.phase, x.inputs.length)) = [(.verified, 0)] ∧
    ((runOps trimmedRun).entries.filter (·.id = 1)).map (·.phase) = [.verified] ∧
    ((runOps (trimmedRun ++ [.apply 1 (.error (lit "client_failure") (lit "offline") false) 3000])
      ).entries.filter (·.id = 1)).map (·.phase) = [.failed] := by
  decide +kernel

end Example

end GoffyPhone
