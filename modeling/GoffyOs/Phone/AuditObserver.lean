import GoffyOs.Phone.PhoneTools
import GoffyOs.Phone.TerminalAudit
import GoffyOs.Phone.ViewModelRuns

/-!
# The observer of the timeline (`observeTerminalAudit` in `GoffyViewModel.kt`)

A coroutine of the view model reads the timeline and hands every entry that has come to its end to
the audit store. It reads a `StateFlow`, which keeps only the newest value, and it waits in the store
for each record, while the timeline goes on and trims its oldest entries.

* `Observer` says where the coroutine stands: it loads the store's records, it waits for the next
  value of the flow, or it waits for the store with a part of the value still to go through
  (`rest`);
* every operation of the timeline may come at any time (`AuditAction.task`), and the store may answer
  at any time or fail; a look at an unchanged timeline changes nothing;
* `Watched` is the invariant: an entry that has ended has been handed over, or it is still in the
  timeline or in the part of the value that the observer goes through;
* `ended_recorded_once` is the result about whole runs. It needs that no new entry pushes one out of
  the timeline that has ended and that the observer does not have yet; in `ended_never_recorded` one
  is lost in this way.

What the view model shows of the state of the store (`auditPersistence`) is left out.
-/

namespace GoffyPhone

open Kotlin Timeline
open Python (UUID)
open Recent

variable {γ : Type}

/-! ### The observer -/

/-- Where the coroutine stands: in `load`, before the next value, or in `upsert`. `attempted` is
`attemptedTaskIds`, and `seen` the last value of the flow that was looked at. -/
inductive Observer (γ : Type)
  | loading
  | collecting (attempted : List UUID) (seen : Option (List (TaskTimelineEntry γ)))
  | writing (attempted : List UUID) (seen rest : List (TaskTimelineEntry γ))

/-- What can be seen from outside: an entry ends, a record is restored, a record is handed over. -/
inductive AuditEvent
  | ended (taskId : UUID)
  | restored (taskId : UUID)
  | upsert (record : ClosedTerminalAuditRecord)
  deriving DecidableEq

/-- The `forEach` over the entries of a value, up to the next call of the store. -/
def Observer.collect (attempted : List UUID) (seen : List (TaskTimelineEntry γ)) :
    List (TaskTimelineEntry γ) → Observer γ × List AuditEvent
  | [] => (.collecting attempted (some seen), [])
  | entry :: rest =>
    if entry.id ∈ attempted then Observer.collect attempted seen rest
    else match entry.terminalAtEpochMillis with
      | none => Observer.collect attempted seen rest
      | some terminalAt =>
        match entry.toClosedTerminalAuditRecord (Int64.ofInt terminalAt) with
        | .ok (some record) => (.writing (attempted ++ [entry.id]) seen rest, [.upsert record])
        -- `checkNotNull` or the record throws, and the next entry has its turn
        | .ok none | .error _ => Observer.collect (attempted ++ [entry.id]) seen rest

structure AuditSystem (γ : Type) where
  timeline : TaskTimelineState γ := {}
  observer : Observer γ := .loading

inductive AuditAction (γ : Type)
  | task (op : Op γ)
  | loaded (records : List ClosedTerminalAuditRecord)
  | loadFailed
  | look
  | stored (stored : ClosedTerminalAuditRecord)
  | storeFailed

/-- The operations that only the observer performs. -/
def Op.isAudit : Op γ → Bool
  | .mergeRestoredAudit _ | .markAuditRecorded _ _ => true
  | _ => false

/-- The tasks that came to their end between two timelines. -/
def newlyEnded (before after : TaskTimelineState γ) : List UUID :=
  (after.entries.filter fun e => e.phase.terminal &&
    !before.entries.any fun x => x.id = e.id && x.phase.terminal).map (·.id)

namespace AuditSystem

/-- Go on with the entries of a value. -/
def goOn (timeline : TaskTimelineState γ) (attempted : List UUID)
    (seen rest : List (TaskTimelineEntry γ)) : AuditSystem γ × List AuditEvent :=
  (⟨timeline, (Observer.collect attempted seen rest).1⟩, (Observer.collect attempted seen rest).2)

def step [ToolResultContent γ] : Machine.Step (AuditSystem γ) (AuditAction γ) AuditEvent
  | s, .task op =>
    if op.isAudit then none
    else
      let timeline := GoffyPhone.step s.timeline op
      some ({ s with timeline := timeline }, (newlyEnded s.timeline timeline).map .ended)
  | ⟨timeline, .loading⟩, .loaded records =>
    some (⟨GoffyPhone.step timeline (.mergeRestoredAudit (records.map (·.toTimelineEntry))),
      .collecting (records.map (·.taskId)) none⟩, records.map fun r => .restored r.taskId)
  | ⟨timeline, .loading⟩, .loadFailed => some (⟨timeline, .collecting [] none⟩, [])
  | ⟨timeline, .collecting attempted _⟩, .look =>
    some (goOn timeline attempted timeline.entries timeline.entries)
  | ⟨timeline, .writing attempted seen rest⟩, .stored stored =>
    some (goOn (GoffyPhone.step timeline (.markAuditRecorded stored.taskId
      stored.recordedAtEpochMillis.toInt)) attempted seen rest)
  | ⟨timeline, .writing attempted seen rest⟩, .storeFailed =>
    some (goOn timeline attempted seen rest)
  | _, _ => none

end AuditSystem

/-! ### What can be recorded -/

/-- The targets, tools and permissions of the view model's entries: those of an unsupported command,
those of the plans of `GoffyIntentRouter`, and those of the foreground reads. -/
def routedCapabilities : List (ExecutionTarget × Option Str × Option PermissionLevel) :=
  (.phone, none, none) ::
  PhoneTool.all.map (fun tool => (.phone, some tool.name, some tool.permission)) ++ [
  (.mac, some (lit "mac.system_info"), some .safe),
  (.mac, some (lit "goffy.rom.status"), some .safe),
  (.mac, some (lit "goffy.rom.checklist"), some .safe),
  (.mac, some (lit "goffy.rom.features"), some .safe),
  (.mac, some (lit "mac.processes.list"), some .safe),
  (.mac, some (lit "mac.apps.list"), some .safe),
  (.mac, some (lit "mac.apps.open"), some .confirm),
  (.mac, some (lit "mac.files.list"), some .safe),
  (.mac, some (lit "mac.files.largest"), some .safe),
  (.mac, some (lit "git.status"), some .safe),
  (.mac, some (lit "mac.clipboard.read"), some .safe)]

/-- A reading of `System.currentTimeMillis()`. -/
def IsClock (t : ℤ) : Prop := 0 < t ∧ t < 2 ^ 63

instance (t : ℤ) : Decidable (IsClock t) := inferInstanceAs (Decidable (_ ∧ _))

/-- An entry that can be recorded once it has ended: it is of a capability of the view model, and it
has a timestamp exactly if it has ended. -/
structure Auditable (e : TaskTimelineEntry γ) : Prop where
  capability : (e.executionTarget, e.toolName, e.permission) ∈ routedCapabilities
  unstamped : e.phase.terminal = false → e.terminalAtEpochMillis = none
  stamped : e.phase.terminal = true → ∃ t, e.terminalAtEpochMillis = some t ∧ IsClock t

/-- The fields of a record that the capability of its entry decides. -/
def capabilityFields (c : ExecutionTarget × Option Str × Option PermissionLevel) : AuditFields where
  taskId := 0
  recordedAtEpochMillis := 1
  protocolVersion := goffyProtocolVersion
  sourceSurface := .terminalTimeline
  executionTarget := c.1
  toolName := c.2.1.filter fun name => name ∈ auditCapabilityContracts.map Prod.fst
  permission := toAuditPermission c.2.2
  phase := .failed
  approvalOutcome := .notRequired
  eventKinds := []

theorem init_capabilityFields : ∀ c ∈ routedCapabilities, (capabilityFields c).init = .ok () := by
  unfold routedCapabilities capabilityFields AuditFields.init AuditFields.contracted auditContract
    auditCapabilityContracts
  repeat rw [lit_ofList]
  decide +kernel

theorem approvalOutcome_of_ne_confirm {e : TaskTimelineEntry γ} (h : e.permission ≠ some .confirm) :
    e.approvalOutcome = .notRequired := if_pos h

theorem toTerminalAuditPhase_of_terminal {p : TaskPhase} (h : p.terminal = true) :
    ∃ q, p.toTerminalAuditPhase = some q := by
  cases p with
  | verified => exact ⟨_, rfl⟩
  | unverified => exact ⟨_, rfl⟩
  | failed => exact ⟨_, rfl⟩
  | cancelled => exact ⟨_, rfl⟩
  | routing | awaitingApproval | preparing | accepted | completedUnverified => cases h

/-- The target, the tool and the permission of an entry. -/
def TaskTimelineEntry.capability (e : TaskTimelineEntry γ) :
    ExecutionTarget × Option Str × Option PermissionLevel :=
  (e.executionTarget, e.toolName, e.permission)

/-- An entry that has ended makes a record, if there are records of its capability. -/
theorem exists_record {e : TaskTimelineEntry γ} {t : Int64}
    (hcapability : (capabilityFields e.capability).init = .ok ()) (hended : e.phase.terminal = true)
    (ht : 0 < t) : ∃ record, e.toClosedTerminalAuditRecord t = .ok (some record) ∧
      record.taskId = e.id ∧ record.approvalOutcome = e.approvalOutcome := by
  obtain ⟨q, hq⟩ := toTerminalAuditPhase_of_terminal hended
  have hadmitted := AuditFields.init_eq_ok_iff.1 hcapability
  have houtcome : toAuditPermission e.permission = some .confirm ∨
      e.approvalOutcome = .notRequired := by
    by_cases hp : e.permission = some .confirm
    · rw [hp]
      exact Or.inl rfl
    · exact Or.inr (approvalOutcome_of_ne_confirm hp)
  let fields : AuditFields := {
    taskId := e.id
    recordedAtEpochMillis := t
    protocolVersion := goffyProtocolVersion
    sourceSurface := .terminalTimeline
    executionTarget := e.executionTarget
    toolName := e.toolName.filter fun name => name ∈ auditCapabilityContracts.map Prod.fst
    permission := toAuditPermission e.permission
    phase := q
    approvalOutcome := e.approvalOutcome
    eventKinds := takeLast maxEventKinds (e.events.map TaskTimelineEvent.kind) }
  have hinit : fields.init = .ok () := AuditFields.init_eq_ok_iff.2 {
    schemaVersion := rfl
    recordedAt := ht
    protocolVersion := hadmitted.protocolVersion
    executionTarget := hadmitted.executionTarget
    contracted := hadmitted.contracted
    outcome := houtcome
    eventKinds := length_takeLast_le _ _ }
  have hnew := ClosedTerminalAuditRecord.new_toAuditFields ⟨fields, hinit⟩
  refine ⟨⟨fields, hinit⟩, ?_, rfl, rfl⟩
  rw [TaskTimelineEntry.toClosedTerminalAuditRecord, hq]
  show (ClosedTerminalAuditRecord.new fields).map some = _
  rw [hnew]
  rfl

theorem Auditable.record {e : TaskTimelineEntry γ} {t : ℤ} (he : Auditable e)
    (hended : e.phase.terminal = true) (ht : e.terminalAtEpochMillis = some t) :
    ∃ record, e.toClosedTerminalAuditRecord (Int64.ofInt t) = .ok (some record) ∧
      record.taskId = e.id := by
  obtain ⟨t', ht', hclock⟩ := he.stamped hended
  obtain rfl : t' = t := Option.some.inj (ht'.symm.trans ht)
  have hpositive : (0 : Int64) < Int64.ofInt t' := by
    rw [Int64.lt_iff_toInt_lt, Int64.toInt_ofInt_of_le (by have := hclock.1; omega) hclock.2]
    exact hclock.1
  obtain ⟨record, hrecord, hid, -⟩ :=
    exists_record (init_capabilityFields _ he.capability) hended hpositive
  exact ⟨record, hrecord, hid⟩

/-- What going through a list of entries leads to: all that have ended were attempted before, or the
first other one is handed over. -/
inductive Collected (attempted : List UUID) (seen l : List (TaskTimelineEntry γ)) :
    Observer γ × List AuditEvent → Prop
  | all (hall : ∀ e ∈ l, e.phase.terminal = true → e.id ∈ attempted) :
      Collected attempted seen l (.collecting attempted (some seen), [])
  | next {pre post : List (TaskTimelineEntry γ)} {e : TaskTimelineEntry γ}
      {record : ClosedTerminalAuditRecord} (hl : l = pre ++ e :: post)
      (hpre : ∀ x ∈ pre, x.phase.terminal = true → x.id ∈ attempted)
      (hended : e.phase.terminal = true) (hnew : e.id ∉ attempted) (hid : record.taskId = e.id) :
      Collected attempted seen l (.writing (attempted ++ [e.id]) seen post, [.upsert record])

/-- An entry that is passed over. -/
theorem Collected.cons {attempted : List UUID} {seen l : List (TaskTimelineEntry γ)}
    {e : TaskTimelineEntry γ} {out : Observer γ × List AuditEvent}
    (he : e.phase.terminal = true → e.id ∈ attempted) (h : Collected attempted seen l out) :
    Collected attempted seen (e :: l) out := by
  cases h with
  | all hall => exact .all (List.forall_mem_cons.2 ⟨he, hall⟩)
  | @next pre post x record hl hpre hended hnew hid =>
    have hl' : e :: l = (e :: pre) ++ x :: post := by rw [hl, List.cons_append]
    exact .next hl' (List.forall_mem_cons.2 ⟨he, hpre⟩) hended hnew hid

theorem collected (attempted : List UUID) (seen : List (TaskTimelineEntry γ))
    {l : List (TaskTimelineEntry γ)} (hl : ∀ e ∈ l, e.id ∉ attempted → Auditable e) :
    Collected attempted seen l (Observer.collect attempted seen l) := by
  induction l with
  | nil => exact .all (by simp)
  | cons e l ih =>
    obtain ⟨he, hrest⟩ := List.forall_mem_cons.1 hl
    have ih := ih hrest
    by_cases hmem : e.id ∈ attempted
    · rw [Observer.collect, if_pos hmem]
      exact ih.cons fun _ => hmem
    have he := he hmem
    cases hterminal : e.phase.terminal with
    | false =>
      rw [Observer.collect, if_neg hmem, he.unstamped hterminal]
      exact ih.cons fun h => absurd (hterminal.symm.trans h) Bool.false_ne_true
    | true =>
      obtain ⟨t, ht, -⟩ := he.stamped hterminal
      obtain ⟨record, hrecord, hid⟩ := he.record hterminal ht
      have hcollect : Observer.collect attempted seen (e :: l) =
          (.writing (attempted ++ [e.id]) seen l, [.upsert record]) := by
        rw [Observer.collect, if_neg hmem, ht]
        simp only [hrecord]
      rw [hcollect]
      exact Collected.next (List.nil_append _).symm (by simp) hterminal hmem hid

/-! ### Operations and entries -/

/-- The entry that an operation adds to a timeline. -/
def Op.added (s : TaskTimelineState γ) : Op γ → Option (TaskTimelineEntry γ)
  | .start taskId plan =>
    if s.activeTaskId = none then some (TaskTimelineEntry.started taskId plan) else none
  | .reject id command summary now executionTarget toolName permission =>
    if TaskTimelineState.normalize command = [] then none
    else some (TaskTimelineEntry.rejected id (TaskTimelineState.normalize command) summary now
      executionTarget toolName permission)
  | .startLocalModelObservation taskId command statusSummary =>
    if s.activeTaskId = none ∧ TaskTimelineState.normalize command ≠ [] then
      some (TaskTimelineEntry.observing taskId (TaskTimelineState.normalize command) statusSummary)
    else none
  | _ => none

/-- The clock that an operation reads. -/
def Op.now : Op γ → Option ℤ
  | .reject _ _ _ now _ _ _ | .completeLocalModelObservation _ _ now | .apply _ _ now
  | .awaitApproval _ _ now | .grantApproval _ now | .denyApproval _ _ now | .expireApproval _ now
  | .cancelActive now => some now
  | .mergeRestoredAudit _ | .markAuditRecorded _ _ | .start _ _
  | .startLocalModelObservation _ _ _ => none

/-- The fields of an entry that no event changes. -/
def TaskTimelineEntry.fixed (e : TaskTimelineEntry γ) :
    UUID × ExecutionTarget × Option Str × Option PermissionLevel × Option ℤ :=
  (e.id, e.executionTarget, e.toolName, e.permission, e.terminalAtEpochMillis)

section Entries

variable [ToolResultContent γ] {e e' : TaskTimelineEntry γ} {op : Op γ} {taskId : UUID}
  {input : Input γ} {f : TaskTimelineEntry γ → Option (TaskTimelineEntry γ)}

theorem fixed_applyEvent (e : TaskTimelineEntry γ) (event : ExecutionEvent γ) :
    (e.applyEvent event).fixed = e.fixed := by
  cases event with
  | starting attempt =>
    simp only [TaskTimelineEntry.applyEvent, TaskTimelineEntry.applyStarting]
    split <;> rfl
  | ready =>
    simp only [TaskTimelineEntry.applyEvent, TaskTimelineEntry.applyReady]
    split <;> rfl
  | progress p =>
    simp only [TaskTimelineEntry.applyEvent, TaskTimelineEntry.applyProgress]
    split
    · rfl
    · split <;> rfl
  | result toolName executionTarget content =>
    simp only [TaskTimelineEntry.applyEvent, TaskTimelineEntry.applyResult]
    split <;> rfl
  | verification succeeded summary checks =>
    simp only [TaskTimelineEntry.applyEvent, TaskTimelineEntry.applyVerification]
    split <;> rfl
  | unverified summary checks =>
    simp only [TaskTimelineEntry.applyEvent, TaskTimelineEntry.applyUnverified]
    split <;> rfl
  | error code message retryable => rfl

/-- What a change makes of an entry: an entry with the same fixed fields, up to the timestamp that it gets
when it ends, or what an observation makes of it. -/
inductive ChangedTo (op : Op γ) (e : TaskTimelineEntry γ) : TaskTimelineEntry γ → Prop
  | stamped {now : ℤ} {e₁ : TaskTimelineEntry γ} (hnow : op.now = some now) (hfixed : e₁.fixed = e.fixed) :
      ChangedTo op e (e₁.withTerminalTimestamp now)
  | observed {now : ℤ} {observation : LocalModelIntentObservation} (hnow : op.now = some now) :
      ChangedTo op e (e.observed observation now)

theorem changedTo_of_change {active : Option UUID} (hop : op.change active = some (taskId, input, f))
    (he : f e = some e') : ChangedTo op e e' := by
  cases op with
  | mergeRestoredAudit | markAuditRecorded | start | reject | startLocalModelObservation => cases hop
  | completeLocalModelObservation t observation now =>
    cases hop
    cases he
    exact .observed rfl
  | apply t event now =>
    cases hop
    cases he
    exact .stamped rfl (fixed_applyEvent e event)
  | awaitApproval t summary now =>
    cases hop
    cases he
    refine .stamped rfl ?_
    unfold TaskTimelineEntry.awaitedApproval
    split <;> rfl
  | grantApproval t now =>
    cases hop
    cases he
    refine .stamped rfl ?_
    unfold TaskTimelineEntry.grantedApproval
    split <;> rfl
  | denyApproval t summary now =>
    cases hop
    obtain ⟨e₁, he₁, rfl⟩ := Option.map_eq_some_iff.1 he
    refine .stamped rfl ?_
    unfold TaskTimelineEntry.deniedApproval at he₁
    split at he₁
    · cases he₁
    · cases he₁
      rfl
  | expireApproval t now =>
    cases hop
    obtain ⟨e₁, he₁, rfl⟩ := Option.map_eq_some_iff.1 he
    refine .stamped rfl ?_
    unfold TaskTimelineEntry.expiredApproval at he₁
    split at he₁
    · cases he₁
    · cases he₁
      rfl
  | cancelActive now =>
    obtain ⟨t, -, heq⟩ := Option.map_eq_some_iff.1 hop
    cases heq
    cases he
    exact .stamped rfl rfl

/-- A change of an entry keeps its fixed fields, up to the timestamp that it gets when it ends. -/
theorem fixed_change {active : Option UUID} (hop : op.change active = some (taskId, input, f))
    (he : f e = some e') (hopen : e.terminalAtEpochMillis = none) :
    ∃ now, ∃ e₁ : TaskTimelineEntry γ, op.now = some now ∧ e₁.fixed = e.fixed ∧
      e' = e₁.withTerminalTimestamp now := by
  cases changedTo_of_change hop he with
  | stamped hnow hfixed => exact ⟨_, _, hnow, hfixed, rfl⟩
  | observed hnow =>
    rename_i now observation
    refine ⟨now, { e.observed observation now with terminalAtEpochMillis := none }, hnow, ?_, ?_⟩
    · simp [TaskTimelineEntry.fixed, TaskTimelineEntry.observed, hopen]
    · simp [TaskTimelineEntry.withTerminalTimestamp, TaskTimelineEntry.observed, TaskPhase.terminal]

/-- A change of an entry that has not ended. -/
theorem auditable_change {active : Option UUID} (hop : op.change active = some (taskId, input, f))
    (he : f e = some e') (hclock : ∀ now, op.now = some now → IsClock now) (haudit : Auditable e)
    (hopen : e.phase.terminal = false) : Auditable e' := by
  obtain ⟨now, e₁, hnow, hfixed, rfl⟩ := fixed_change hop he (haudit.unstamped hopen)
  simp only [TaskTimelineEntry.fixed, Prod.mk.injEq] at hfixed
  obtain ⟨-, htarget, htool, hpermission, hstamp⟩ := hfixed
  have hnone : e₁.terminalAtEpochMillis = none := hstamp.trans (haudit.unstamped hopen)
  have hcapability : (e₁.executionTarget, e₁.toolName, e₁.permission) ∈ routedCapabilities := by
    rw [htarget, htool, hpermission]
    exact haudit.capability
  cases hterminal : e₁.phase.terminal with
  | false =>
    have heq : e₁.withTerminalTimestamp now = e₁ := if_neg (by simp [hterminal])
    rw [heq]
    exact ⟨hcapability, fun _ => hnone, fun h => absurd (hterminal.symm.trans h) Bool.false_ne_true⟩
  | true =>
    have heq : e₁.withTerminalTimestamp now = { e₁ with terminalAtEpochMillis := some now } :=
      if_pos ⟨hterminal, hnone⟩
    rw [heq]
    exact ⟨hcapability, fun h => absurd (h.symm.trans hterminal) Bool.false_ne_true,
      fun _ => ⟨now, rfl, hclock now hnow⟩⟩

omit [ToolResultContent γ] in
/-- A new entry has a timestamp exactly if it is that of a rejected command. -/
theorem auditable_added {s : TaskTimelineState γ} (hadded : op.added s = some e)
    (hclock : ∀ now, op.now = some now → IsClock now)
    (hcapability : (e.executionTarget, e.toolName, e.permission) ∈ routedCapabilities) :
    Auditable e := by
  refine ⟨hcapability, ?_, ?_⟩ <;> intro hphase
  · cases op with
    | start taskId plan =>
      obtain ⟨-, heq⟩ := Option.ite_none_right_eq_some.1 hadded
      cases heq
      rfl
    | reject id command summary now executionTarget toolName permission =>
      obtain ⟨-, heq⟩ := Option.ite_none_left_eq_some.1 hadded
      cases heq
      cases hphase
    | startLocalModelObservation taskId command statusSummary =>
      obtain ⟨-, heq⟩ := Option.ite_none_right_eq_some.1 hadded
      cases heq
      rfl
    | _ => cases hadded
  · cases op with
    | start taskId plan =>
      obtain ⟨-, heq⟩ := Option.ite_none_right_eq_some.1 hadded
      cases heq
      cases hphase
    | reject id command summary now executionTarget toolName permission =>
      obtain ⟨-, heq⟩ := Option.ite_none_left_eq_some.1 hadded
      cases heq
      exact ⟨now, rfl, hclock now rfl⟩
    | startLocalModelObservation taskId command statusSummary =>
      obtain ⟨-, heq⟩ := Option.ite_none_right_eq_some.1 hadded
      cases heq
      cases hphase
    | _ => cases hadded

end Entries

/-- What an operation makes of the entries: nothing, a change of one of them, or a new one at the
end. -/
inductive Reshaped [ToolResultContent γ] (s : TaskTimelineState γ) (op : Op γ) :
    TaskTimelineState γ → Prop
  | same {active : Option UUID} : Reshaped s op ⟨active, s.entries⟩
  | changed {active : Option UUID} {pre post : List (TaskTimelineEntry γ)}
      {e e' : TaskTimelineEntry γ} (hentries : s.entries = pre ++ e :: post) (hid : e'.id = e.id)
      (haudit : Auditable e → Auditable e')
      (hended : e.phase.terminal = true → e'.phase.terminal = true) :
      Reshaped s op ⟨active, pre ++ e' :: post⟩
  | added {active : Option UUID} {e : TaskTimelineEntry γ} (hadded : op.added s = some e) :
      Reshaped s op ⟨active, takeLast maxTimelineItems (s.entries ++ [e])⟩

section Steps

variable [ToolResultContent γ] {s : TaskTimelineState γ} {op : Op γ}

/-- An operation of a task, unless its new entry has the id of the active task. -/
theorem reshaped_step (hopen : ActiveOpen s) (hop : op.isAudit = false)
    (hnew : ∀ e, op.added s = some e → s.activeTaskId ≠ some e.id)
    (hclock : ∀ now, op.now = some now → IsClock now) :
    ActiveOpen (step s op) ∧ Reshaped s op (step s op) := by
  cases hchange : op.change s.activeTaskId with
  | some c =>
    obtain ⟨taskId, input, f⟩ := c
    rw [step_eq_onActive hchange]
    refine ⟨activeOpen_onActive hopen fun y z hz => id_change hchange hz, ?_⟩
    have hcases := onActive_cases s taskId f
    generalize s.onActive taskId f = s' at hcases ⊢
    cases hcases with
    | same => exact .same
    | missing => exact .same
    | @changed pre post x y hactive hentries hid hpost hy =>
      have hx : x.phase.terminal = false := hopen taskId x hactive ⟨pre, post, hentries, hid, hpost⟩
      refine .changed hentries (id_change hchange hy)
        (fun haudit => auditable_change hchange hy hclock haudit hx) fun hended => ?_
      rw [hx] at hended
      cases hended
  | none =>
    cases op with
    | mergeRestoredAudit | markAuditRecorded => cases hop
    | start taskId plan =>
      by_cases hactive : s.activeTaskId = none
      · have hstep : step s (.start taskId plan) =
            { s with activeTaskId := some taskId }.add (TaskTimelineEntry.started taskId plan) := by
          simp [step, TaskTimelineState.start, hactive, Except.toOption]
        rw [hstep]
        exact ⟨activeOpen_add (Or.inl ⟨rfl, rfl⟩), .added (if_pos hactive)⟩
      · have hstep : step s (.start taskId plan) = s := by
          simp [step, TaskTimelineState.start, hactive, Except.toOption]
        rw [hstep]
        exact ⟨hopen, .same⟩
    | reject id command summary now executionTarget toolName permission =>
      by_cases hempty : TaskTimelineState.normalize command = []
      · have hstep : step s (.reject id command summary now executionTarget toolName permission) = s :=
          if_pos hempty
        rw [hstep]
        exact ⟨hopen, .same⟩
      · have hstep : step s (.reject id command summary now executionTarget toolName permission) =
            s.add (TaskTimelineEntry.rejected id (TaskTimelineState.normalize command) summary now
              executionTarget toolName permission) := if_neg hempty
        have hadded : (Op.reject id command summary now executionTarget toolName permission :
            Op γ).added s = some _ := if_neg hempty
        rw [hstep]
        exact ⟨activeOpen_add (Or.inr ⟨hnew _ hadded, hopen⟩), .added hadded⟩
    | startLocalModelObservation taskId command statusSummary =>
      by_cases hadds : s.activeTaskId = none ∧ TaskTimelineState.normalize command ≠ []
      · have hstep : step s (.startLocalModelObservation taskId command statusSummary) =
            { s with activeTaskId := some taskId }.add (TaskTimelineEntry.observing taskId
              (TaskTimelineState.normalize command) statusSummary) := by
          simp [step, TaskTimelineState.startLocalModelObservation, hadds.1, hadds.2,
            Except.toOption]
        rw [hstep]
        exact ⟨activeOpen_add (Or.inl ⟨rfl, rfl⟩), .added (if_pos hadds)⟩
      · have hstep : step s (.startLocalModelObservation taskId command statusSummary) = s := by
          rw [not_and_or, not_not] at hadds
          unfold step TaskTimelineState.startLocalModelObservation
          dsimp only
          split
          · rfl
          rename_i hactive
          rw [if_pos (hadds.resolve_left hactive)]
          rfl
        rw [hstep]
        exact ⟨hopen, .same⟩
    | cancelActive now =>
      have hnone : s.activeTaskId = none := Option.map_eq_none_iff.1 hchange
      have hstep : step s (.cancelActive now) = s := by
        simp only [step, TaskTimelineState.cancelActive, hnone]
      rw [hstep]
      exact ⟨hopen, .same⟩
    | completeLocalModelObservation | apply | awaitApproval | grantApproval | denyApproval
    | expireApproval => cases hchange

/-- The mark of a record in the timeline. -/
theorem reshaped_markAuditRecorded (hopen : ActiveOpen s) (taskId : UUID) (now : ℤ) :
    ActiveOpen (step s (.markAuditRecorded taskId now)) ∧
      Reshaped s (.markAuditRecorded taskId now) (step s (.markAuditRecorded taskId now)) := by
  unfold step TaskTimelineState.markAuditRecorded
  dsimp only
  split
  · exact ⟨hopen, .same⟩
  show ActiveOpen (s.onLast taskId s _) ∧ Reshaped s _ (s.onLast taskId s _)
  rcases onLast_cases s s taskId (fun index e =>
      if e.phase.terminal then
        some { s with
          entries := s.entries.set index { e with auditRecordedAtEpochMillis := some now } }
      else none) with ⟨-, heq⟩ | ⟨pre, e, post, hentries, -, -, heq⟩
  · rw [heq]
    exact ⟨hopen, .same⟩
  rw [heq]
  split
  · rw [Option.getD_some, hentries, set_length_append]
    exact ⟨activeOpen_replace hopen hentries rfl rfl,
      .changed hentries rfl (fun h => ⟨h.capability, h.unstamped, h.stamped⟩) fun h => h⟩
  · exact ⟨hopen, .same⟩

end Steps

/-! ### The invariant -/

namespace Observer

/-- `attemptedTaskIds`. -/
def attempted : Observer γ → List UUID
  | .loading => []
  | .collecting attempted _ | .writing attempted _ _ => attempted

/-- The last value of the flow that was looked at. -/
def seen : Observer γ → Option (List (TaskTimelineEntry γ))
  | .loading => none
  | .collecting _ seen => seen
  | .writing _ seen _ => some seen

/-- What is left of that value. -/
def rest : Observer γ → List (TaskTimelineEntry γ)
  | .loading | .collecting _ _ => []
  | .writing _ _ rest => rest

end Observer

/-- The ids of the records that were handed over. -/
def passedIds (es : List AuditEvent) : List UUID :=
  es.filterMap fun
    | .upsert record => some record.taskId
    | _ => none

/-- What holds in every run: entries that have ended and were not handed over are in the timeline or
in what the observer still goes through. -/
structure Watched (timeline : TaskTimelineState γ) (attempted : List UUID)
    (seen : Option (List (TaskTimelineEntry γ))) (rest : List (TaskTimelineEntry γ))
    (es : List AuditEvent) : Prop where
  nodup : timeline.ids.Nodup
  length_le : timeline.entries.length ≤ maxTimelineItems
  activeOpen : ActiveOpen timeline
  auditable : ∀ e ∈ timeline.entries, e.id ∉ attempted → Auditable e
  restAuditable : ∀ e ∈ rest, e.id ∉ attempted → Auditable e
  unattempted : ∀ e ∈ timeline.entries, e.phase.terminal = false → e.id ∉ attempted
  stable : ∀ x ∈ rest, x.phase.terminal = true → ∀ e ∈ timeline.entries, e.id = x.id →
    e.phase.terminal = true
  passed : ∀ k ∈ passedIds es, k ∈ attempted
  restored : ∀ k, .restored k ∈ es → k ∈ attempted ∧ k ∉ passedIds es
  once : (passedIds es).Nodup
  ended : ∀ k, .ended k ∈ es → k ∈ passedIds es ∨ k ∉ attempted ∧
    ∃ e, (e ∈ timeline.entries ∨ e ∈ rest) ∧ e.id = k ∧ e.phase.terminal = true
  lookedAt : ∀ l, seen = some l → ∀ e ∈ l, e.phase.terminal = true → e.id ∈ attempted ∨ e ∈ rest

section Watching

variable {timeline timeline' : TaskTimelineState γ} {attempted : List UUID}
  {seen : Option (List (TaskTimelineEntry γ))} {rest l : List (TaskTimelineEntry γ)}
  {es : List AuditEvent}

theorem passedIds_append (es out : List AuditEvent) :
    passedIds (es ++ out) = passedIds es ++ passedIds out := List.filterMap_append

theorem passedIds_ended (ks : List UUID) : passedIds (ks.map .ended) = [] := by
  simp [passedIds]

theorem passedIds_restored (records : List ClosedTerminalAuditRecord) :
    passedIds (records.map fun r => .restored r.taskId) = [] := by
  simp [passedIds]

/-- Going on with the rest of a value. -/
theorem Watched.collect (h : Watched timeline attempted (some l) rest es) :
    Watched timeline (Observer.collect attempted l rest).1.attempted
      (Observer.collect attempted l rest).1.seen (Observer.collect attempted l rest).1.rest
      (es ++ (Observer.collect attempted l rest).2) := by
  have hcollected := collected attempted l h.restAuditable
  generalize Observer.collect attempted l rest = out at hcollected ⊢
  cases hcollected with
  | all hall =>
    simp only [Observer.attempted, Observer.seen, Observer.rest, List.append_nil]
    refine { h with
      restAuditable := by simp
      stable := by simp
      ended := fun k hk => ?_
      lookedAt := fun l' hl' e he hended => ?_ }
    · rcases h.ended k hk with hpassed | ⟨hnew, e, he | he, rfl, hended⟩
      · exact Or.inl hpassed
      · exact Or.inr ⟨hnew, e, Or.inl he, rfl, hended⟩
      · exact absurd (hall e he hended) hnew
    · rcases h.lookedAt l' hl' e he hended with hmem | hmem
      · exact Or.inl hmem
      · exact Or.inl (hall e hmem hended)
  | @next pre post x record hl hpre hended hnew hid =>
    have hx : x ∈ rest := by simp [hl]
    have hpost : ∀ e ∈ post, e ∈ rest := fun e he => by simp [hl, he]
    have hids : passedIds (es ++ [.upsert record]) = passedIds es ++ [x.id] := by
      rw [passedIds_append, ← hid]
      rfl
    simp only [Observer.attempted, Observer.seen, Observer.rest]
    refine {
      nodup := h.nodup
      length_le := h.length_le
      activeOpen := h.activeOpen
      auditable := fun e he hne => h.auditable e he fun hmem => hne (List.mem_append_left _ hmem)
      restAuditable := fun e he hne =>
        h.restAuditable e (hpost e he) fun hmem => hne (List.mem_append_left _ hmem)
      unattempted := fun e he hopen hmem => ?_
      stable := fun y hy => h.stable y (hpost y hy)
      passed := fun k hk => ?_
      restored := fun k hk => ?_
      once := ?_
      ended := fun k hk => ?_
      lookedAt := fun l' hl' e he hterminal => ?_ }
    · rcases List.mem_append.1 hmem with hmem | hmem
      · exact h.unattempted e he hopen hmem
      · have hterminal := h.stable x hx hended e he (List.mem_singleton.1 hmem)
        exact Bool.false_ne_true (hopen.symm.trans hterminal)
    · rw [hids] at hk
      exact List.mem_append.2 ((List.mem_append.1 hk).imp_left (h.passed k))
    · have hk' : .restored k ∈ es := by simpa using hk
      obtain ⟨hmem, hnot⟩ := h.restored k hk'
      refine ⟨List.mem_append_left _ hmem, fun hpassed => ?_⟩
      rw [hids] at hpassed
      rcases List.mem_append.1 hpassed with hpassed | hpassed
      · exact hnot hpassed
      · exact hnew (List.mem_singleton.1 hpassed ▸ hmem)
    · rw [hids]
      refine List.nodup_append.2 ⟨h.once, List.nodup_singleton _, fun a ha b hb hab => ?_⟩
      rw [List.mem_singleton.1 hb] at hab
      exact hnew (h.passed _ (hab ▸ ha))
    · have hk' : .ended k ∈ es := by simpa using hk
      rw [hids]
      by_cases hkx : k = x.id
      · exact Or.inl (List.mem_append_right _ (by simp [hkx]))
      rcases h.ended k hk' with hpassed | ⟨hknew, e, he, rfl, hterminal⟩
      · exact Or.inl (List.mem_append_left _ hpassed)
      refine Or.inr ⟨by simp [hknew, hkx], e, ?_, rfl, hterminal⟩
      rcases he with he | he
      · exact Or.inl he
      · rw [hl] at he
        rcases List.mem_append.1 he with he | he
        · exact absurd (hpre e he hterminal) hknew
        · rcases List.mem_cons.1 he with rfl | he
          · exact absurd rfl hkx
          · exact Or.inr he
    · rcases h.lookedAt l' hl' e he hterminal with hmem | hmem
      · exact Or.inl (List.mem_append_left _ hmem)
      · rw [hl] at hmem
        rcases List.mem_append.1 hmem with hmem | hmem
        · exact Or.inl (List.mem_append_left _ (hpre e hmem hterminal))
        · rcases List.mem_cons.1 hmem with rfl | hmem
          · exact Or.inl (List.mem_append_right _ (List.mem_singleton_self _))
          · exact Or.inr hmem

/-- The next value of the flow is the whole timeline. -/
theorem Watched.look (h : Watched timeline attempted seen [] es) :
    Watched timeline attempted (some timeline.entries) timeline.entries es :=
  { h with
    restAuditable := h.auditable
    stable := fun x hx hended e he hid => by
      rw [List.inj_on_of_nodup_map h.nodup he hx hid]
      exact hended
    ended := fun k hk => by
      rcases h.ended k hk with hpassed | ⟨hnew, e, he | he, hid, hended⟩
      · exact Or.inl hpassed
      · exact Or.inr ⟨hnew, e, Or.inl he, hid, hended⟩
      · cases he
    lookedAt := fun l hl e he _ => by
      obtain rfl := Option.some.inj hl
      exact Or.inr he }

end Watching

/-! ### Steps of the timeline -/

/-- An entry that has ended is in the observer's hands. -/
def Observer.Holds (o : Observer γ) (e : TaskTimelineEntry γ) : Prop :=
  e.id ∈ o.attempted ∨ ∃ x ∈ o.rest, x.id = e.id ∧ x.phase.terminal = true

/-- The id is new: it is none of an entry, of the active task or of the observer. -/
structure AuditSystem.Unused (s : AuditSystem γ) (k : UUID) : Prop where
  timeline : k ∉ s.timeline.ids
  active : s.timeline.activeTaskId ≠ some k
  attempted : k ∉ s.observer.attempted
  rest : ∀ x ∈ s.observer.rest, x.id ≠ k

/-- A new entry pushes none out that has ended and that the observer does not have: the timeline is
not full, or its oldest entry has not ended or is in the observer's hands. -/
def AuditSystem.Spares (s : AuditSystem γ) : Prop :=
  s.timeline.entries.length = maxTimelineItems → ∀ e, s.timeline.entries.head? = some e →
    e.phase.terminal = true → s.observer.Holds e

/-- What a new entry asks for. -/
structure AuditSystem.Admits (s : AuditSystem γ) (e : TaskTimelineEntry γ) : Prop where
  unused : s.Unused e.id
  capability : (e.executionTarget, e.toolName, e.permission) ∈ routedCapabilities
  spares : s.Spares

section Watching

variable {s : AuditSystem γ} {timeline' : TaskTimelineState γ}
  {es : List AuditEvent} {op : Op γ} {ends : List UUID}

/-- What the invariant says of a state. -/
def AuditSystem.Inv (s : AuditSystem γ) (es : List AuditEvent) : Prop :=
  Watched s.timeline s.observer.attempted s.observer.seen s.observer.rest es

theorem mem_newlyEnded {before after : TaskTimelineState γ} {k : UUID}
    (h : k ∈ newlyEnded before after) :
    ∃ e ∈ after.entries, e.id = k ∧ e.phase.terminal = true ∧
      ∀ x ∈ before.entries, x.id = k → x.phase.terminal = false := by
  obtain ⟨e, he, rfl⟩ := List.mem_map.1 h
  obtain ⟨hmem, hcond⟩ := List.mem_filter.1 he
  simp only [Bool.and_eq_true, Bool.not_eq_true', List.any_eq_false, decide_eq_true_eq,
    not_and, Bool.not_eq_true] at hcond
  exact ⟨e, hmem, rfl, hcond.1, hcond.2⟩

/-- The events of a step of the timeline are ends of entries. -/
theorem Watched.of_ended {timeline : TaskTimelineState γ} {attempted : List UUID}
    {seen : Option (List (TaskTimelineEntry γ))} {rest : List (TaskTimelineEntry γ)}
    (h : Watched timeline attempted seen rest es)
    (hends : ∀ k ∈ ends, k ∉ attempted ∧ ∃ e ∈ timeline.entries, e.id = k ∧ e.phase.terminal = true) :
    Watched timeline attempted seen rest (es ++ ends.map .ended) := by
  have hids : passedIds (es ++ ends.map .ended) = passedIds es := by
    rw [passedIds_append, passedIds_ended, List.append_nil]
  exact { h with
    passed := by rw [hids]; exact h.passed
    restored := fun k hk => by
      rw [hids]
      exact h.restored k (by simpa using hk)
    once := by rw [hids]; exact h.once
    ended := fun k hk => by
      rw [hids]
      rcases List.mem_append.1 hk with hk | hk
      · exact h.ended k hk
      · obtain ⟨k', hk', heq⟩ := List.mem_map.1 hk
        obtain rfl := AuditEvent.ended.inj heq
        obtain ⟨hnew, e, he, hid, hended⟩ := hends k' hk'
        exact Or.inr ⟨hnew, e, Or.inl he, hid, hended⟩ }

/-- An operation on the entries: those that end with it are not attempted yet. -/
theorem AuditSystem.Inv.reshaped [ToolResultContent γ] (h : s.Inv es) (hopen : ActiveOpen timeline')
    (hreshaped : Reshaped s.timeline op timeline')
    (hclock : ∀ now, op.now = some now → IsClock now)
    (hadmits : ∀ e, op.added s.timeline = some e → s.Admits e)
    (hends : ∀ k ∈ ends, k ∈ newlyEnded s.timeline timeline') :
    AuditSystem.Inv ⟨timeline', s.observer⟩ (es ++ ends.map .ended) := by
  cases hreshaped with
  | same =>
    refine Watched.of_ended { h with activeOpen := hopen } fun k hk => ?_
    obtain ⟨e, he, hid, hended, hall⟩ := mem_newlyEnded (hends k hk)
    exact absurd ((hall e he hid).symm.trans hended) Bool.false_ne_true
  | @changed active pre post e e' hentries hid haudit hterminal =>
    have he : e ∈ s.timeline.entries := by simp [hentries]
    have hmem : ∀ x, x ∈ pre ++ e' :: post ↔ x ∈ pre ++ post ∨ x = e' := by
      intro x
      simp only [List.mem_append, List.mem_cons]
      tauto
    have hold : ∀ x, x ∈ s.timeline.entries ↔ x ∈ pre ++ post ∨ x = e := by
      intro x
      rw [hentries]
      simp only [List.mem_append, List.mem_cons]
      tauto
    have hids : TaskTimelineState.ids ⟨active, pre ++ e' :: post⟩ = s.timeline.ids := by
      simp [TaskTimelineState.ids, hentries, hid]
    have hopen' : e'.phase.terminal = false → e.phase.terminal = false := by
      intro hfalse
      cases hcase : e.phase.terminal with
      | false => rfl
      | true => exact absurd (hfalse.symm.trans (hterminal hcase)) Bool.false_ne_true
    have hwatched : Watched ⟨active, pre ++ e' :: post⟩ s.observer.attempted s.observer.seen
        s.observer.rest es := { h with
      nodup := hids ▸ h.nodup
      length_le := by
        have hlength := congrArg List.length hids
        simp only [TaskTimelineState.ids, List.length_map] at hlength
        exact hlength.trans_le h.length_le
      activeOpen := hopen
      auditable := fun x hx hnew => by
        rcases (hmem x).1 hx with hx | rfl
        · exact h.auditable x ((hold x).2 (Or.inl hx)) hnew
        · exact haudit (h.auditable e he (hid ▸ hnew))
      unattempted := fun x hx hfalse => by
        rcases (hmem x).1 hx with hx | rfl
        · exact h.unattempted x ((hold x).2 (Or.inl hx)) hfalse
        · exact hid ▸ h.unattempted e he (hopen' hfalse)
      stable := fun y hy hended x hx hxy => by
        rcases (hmem x).1 hx with hx | rfl
        · exact h.stable y hy hended x ((hold x).2 (Or.inl hx)) hxy
        · exact hterminal (h.stable y hy hended e he (hid ▸ hxy))
      ended := fun k hk => by
        rcases h.ended k hk with hpassed | ⟨hnew, x, hx | hx, rfl, hended⟩
        · exact Or.inl hpassed
        · rcases (hold x).1 hx with hx | rfl
          · exact Or.inr ⟨hnew, x, Or.inl ((hmem x).2 (Or.inl hx)), rfl, hended⟩
          · exact Or.inr ⟨hnew, e', Or.inl ((hmem e').2 (Or.inr rfl)), hid, hterminal hended⟩
        · exact Or.inr ⟨hnew, x, Or.inr hx, rfl, hended⟩ }
    refine hwatched.of_ended fun k hk => ?_
    obtain ⟨x, hx, hxk, hended, hall⟩ := mem_newlyEnded (hends k hk)
    refine ⟨?_, x, hx, hxk, hended⟩
    rcases (hmem x).1 hx with hx | rfl
    · exact absurd ((hall x ((hold x).2 (Or.inl hx)) hxk).symm.trans hended) Bool.false_ne_true
    · have hfalse := hall e he (hid ▸ hxk)
      exact hxk ▸ hid ▸ h.unattempted e he hfalse
  | @added active e hadded =>
    obtain ⟨hunused, hcapability, hspares⟩ := hadmits e hadded
    have haudit : Auditable e := auditable_added hadded hclock hcapability
    have hmem : ∀ x ∈ takeLast maxTimelineItems (s.timeline.entries ++ [e]),
        x ∈ s.timeline.entries ∨ x = e := fun x hx => by
      simpa using mem_of_mem_takeLast hx
    have hwatched : Watched ⟨active, takeLast maxTimelineItems (s.timeline.entries ++ [e])⟩
        s.observer.attempted s.observer.seen s.observer.rest es := { h with
      nodup := by
        show (TaskTimelineState.ids (s.timeline.add e)).Nodup
        rw [ids_add]
        refine List.Nodup.sublist (takeLast_suffix _ _).sublist ?_
        refine List.nodup_append.2 ⟨h.nodup, List.nodup_singleton _, fun a ha b hb hab => ?_⟩
        rw [List.mem_singleton.1 hb] at hab
        exact hunused.timeline (hab ▸ ha)
      length_le := length_takeLast_le _ _
      activeOpen := hopen
      auditable := fun x hx hnew => by
        rcases hmem x hx with hx | rfl
        · exact h.auditable x hx hnew
        · exact haudit
      unattempted := fun x hx hfalse => by
        rcases hmem x hx with hx | rfl
        · exact h.unattempted x hx hfalse
        · exact hunused.attempted
      stable := fun y hy hended x hx hxy => by
        rcases hmem x hx with hx | rfl
        · exact h.stable y hy hended x hx hxy
        · exact absurd hxy.symm (hunused.rest y hy)
      ended := fun k hk => by
        rcases h.ended k hk with hpassed | ⟨hnew, x, hx | hx, rfl, hended⟩
        · exact Or.inl hpassed
        · -- the entry stays, or it is the oldest one and in the observer's hands
          rcases mem_takeLast_concat h.length_le hx with hstays | ⟨hfull, hhead⟩
          · exact Or.inr ⟨hnew, x, Or.inl hstays, rfl, hended⟩
          · rcases hspares hfull x hhead hended with hattempted | ⟨y, hy, hid, hended'⟩
            · exact absurd hattempted hnew
            · exact Or.inr ⟨hnew, y, Or.inr hy, hid, hended'⟩
        · exact Or.inr ⟨hnew, x, Or.inr hx, rfl, hended⟩ }
    refine hwatched.of_ended fun k hk => ?_
    obtain ⟨x, hx, hxk, hended, hall⟩ := mem_newlyEnded (hends k hk)
    refine ⟨?_, x, hx, hxk, hended⟩
    rcases hmem x hx with hx | rfl
    · exact absurd ((hall x hx hxk).symm.trans hended) Bool.false_ne_true
    · exact hxk ▸ hunused.attempted

end Watching

/-! ### Restored records -/

theorem isRestorable_toTimelineEntry (r : ClosedTerminalAuditRecord) :
    (r.toTimelineEntry : TaskTimelineEntry γ).isRestorable = true := by
  have hphase : ∀ p : TerminalAuditPhase, p.toTaskPhase.terminal = true := by
    intro p
    cases p <;> rfl
  simp [TaskTimelineEntry.isRestorable, ClosedTerminalAuditRecord.toTimelineEntry, hphase]

theorem terminal_toTimelineEntry (r : ClosedTerminalAuditRecord) :
    (r.toTimelineEntry : TaskTimelineEntry γ).phase.terminal = true := by
  have h := isRestorable_toTimelineEntry (γ := γ) r
  simp only [TaskTimelineEntry.isRestorable, Bool.and_eq_true] at h
  exact h.1.1.1.1.1.1

section Restoring

variable {timeline : TaskTimelineState γ} {records : List ClosedTerminalAuditRecord}
  {es : List AuditEvent}

/-- Entries of other tasks than the restored ones stay what they are, and all others are restored. -/
theorem mem_merge {restored : List (TaskTimelineEntry γ)} (hnodup : timeline.ids.Nodup)
    (hlength : timeline.entries.length ≤ maxTimelineItems)
    (hrestored : ∀ x ∈ restored, x.id ∉ timeline.ids) (e : TaskTimelineEntry γ) :
    (e ∈ (timeline.merge restored).entries → e ∈ restored ∨ e ∈ timeline.entries) ∧
      (e ∈ timeline.entries → e ∈ (timeline.merge restored).entries) := by
  constructor
  · intro he
    have hlast := mem_mergedEntries.1 (mem_of_mem_takeLast he)
    exact List.mem_append.1 hlast.mem
  · intro he
    have hid : e.id ∈ timeline.ids := List.mem_map_of_mem he
    have hmem := mem_ids_merge hnodup hlength hid fun x hx heq => hrestored x hx (heq ▸ hid)
    obtain ⟨x, hx, hxe⟩ := List.mem_map.1 hmem
    rcases List.mem_append.1 (mem_mergedEntries.1 (mem_of_mem_takeLast hx)).mem with hx' | hx'
    · exact absurd (hxe ▸ hid) (hrestored x hx')
    · rw [← List.inj_on_of_nodup_map hnodup hx' he hxe]
      exact hx

/-- Restored records count as attempted. -/
theorem Watched.restore [ToolResultContent γ]
    (h : Watched timeline ([] : List UUID) none [] es)
    (hnew : ∀ r ∈ records, r.taskId ∉ timeline.ids ∧ timeline.activeTaskId ≠ some r.taskId) :
    Watched (step timeline (.mergeRestoredAudit (records.map (·.toTimelineEntry))))
      (records.map (·.taskId)) none [] (es ++ records.map fun r => .restored r.taskId) := by
  have hrestorable : (records.map (·.toTimelineEntry : _ → TaskTimelineEntry γ)).all
      TaskTimelineEntry.isRestorable = true := by
    simp [isRestorable_toTimelineEntry]
  have hstep : step timeline (.mergeRestoredAudit (records.map (·.toTimelineEntry))) =
      timeline.merge (records.map (·.toTimelineEntry)) := by
    simp only [step, TaskTimelineState.mergeRestoredAudit, hrestorable, if_true]
    rfl
  have hids : ∀ x ∈ records.map (·.toTimelineEntry : _ → TaskTimelineEntry γ), x.id ∉ timeline.ids := by
    intro x hx
    obtain ⟨r, hr, rfl⟩ := List.mem_map.1 hx
    exact (hnew r hr).1
  have hactive : ∀ x ∈ records.map (·.toTimelineEntry : _ → TaskTimelineEntry γ),
      timeline.activeTaskId ≠ some (idOf x) := by
    intro x hx
    obtain ⟨r, hr, rfl⟩ := List.mem_map.1 hx
    exact (hnew r hr).2
  have hmem := mem_merge h.nodup h.length_le hids
  have hlive : ∀ e ∈ timeline.entries, e.id ∉ records.map (·.taskId) := by
    intro e he hk
    obtain ⟨r, hr, heq⟩ := List.mem_map.1 hk
    exact (hnew r hr).1 (heq ▸ List.mem_map_of_mem he)
  have hrestored : ∀ e ∈ records.map (·.toTimelineEntry : _ → TaskTimelineEntry γ),
      e.id ∈ records.map (·.taskId) ∧ e.phase.terminal = true := by
    intro e he
    obtain ⟨r, hr, rfl⟩ := List.mem_map.1 he
    exact ⟨List.mem_map_of_mem hr, terminal_toTimelineEntry r⟩
  have hpassed : passedIds es = [] := List.eq_nil_iff_forall_not_mem.2 fun k hk => by
    cases h.passed k hk
  have hpassed' : passedIds (es ++ records.map fun r => .restored r.taskId) = [] := by
    rw [passedIds_append, passedIds_restored, hpassed, List.append_nil]
  rw [hstep]
  exact {
    nodup := List.Nodup.sublist ((takeLast_suffix _ _).sublist.map _)
      (nodup_idOf_mergedEntries _ timeline.entries)
    length_le := length_takeLast_le _ _
    activeOpen := activeOpen_merge h.activeOpen hactive
    auditable := fun e he hne => by
      rcases (hmem e).1 he with he | he
      · exact absurd (hrestored e he).1 hne
      · exact h.auditable e he (List.not_mem_nil)
    restAuditable := by simp
    unattempted := fun e he hopen => by
      rcases (hmem e).1 he with he | he
      · exact absurd (hopen.symm.trans (hrestored e he).2) Bool.false_ne_true
      · exact hlive e he
    stable := by simp
    passed := by simp [hpassed']
    restored := fun k hk => by
      rw [hpassed']
      rcases List.mem_append.1 hk with hk | hk
      · cases (h.restored k hk).1
      · obtain ⟨r, hr, heq⟩ := List.mem_map.1 hk
        obtain rfl := AuditEvent.restored.inj heq
        exact ⟨List.mem_map_of_mem hr, List.not_mem_nil⟩
    once := by simp [hpassed']
    ended := fun k hk => by
      have hk' : .ended k ∈ es := by simpa using hk
      rcases h.ended k hk' with hk' | ⟨-, e, he | he, rfl, hended⟩
      · rw [hpassed] at hk'
        cases hk'
      · exact Or.inr ⟨hlive e he, e, Or.inl ((hmem e).2 he), rfl, hended⟩
      · cases he
    lookedAt := by simp }

end Restoring

/-! ### Whole runs -/

/-- What a step asks for. A clock reading is one; a new entry is of a capability of the view model, has
a new id and pushes none out that has ended and that the observer does not have; a restored record is
of none of the tasks of this run. -/
def AuditFits (s : AuditSystem γ) (_ : List AuditEvent) : AuditAction γ → Prop
  | .task op => (∀ now, op.now = some now → IsClock now) ∧
      ∀ e, op.added s.timeline = some e → s.Admits e
  | .loaded records => ∀ r ∈ records, r.taskId ∉ s.timeline.ids ∧
      s.timeline.activeTaskId ≠ some r.taskId
  | _ => True

/-- The observer waits, and the last value that it has gone through is the current one. -/
def AuditSystem.Idle (s : AuditSystem γ) : Prop :=
  ∃ attempted, s.observer = .collecting attempted (some s.timeline.entries)

section Runs

variable [ToolResultContent γ] {s s' : AuditSystem γ} {es out : List AuditEvent}

theorem inv_step {a : AuditAction γ} (h : s.Inv es) (hok : AuditFits s es a)
    (hstep : AuditSystem.step s a = some (s', out)) : s'.Inv (es ++ out) := by
  obtain ⟨timeline, observer⟩ := s
  cases a with
  | task op =>
    unfold AuditSystem.step at hstep
    dsimp only at hstep
    split at hstep
    · cases hstep
    rename_i hop
    cases hstep
    obtain ⟨hopen, hreshaped⟩ := reshaped_step h.activeOpen (by simpa using hop)
      (fun e he => (hok.2 e he).unused.active) hok.1
    exact h.reshaped hopen hreshaped hok.1 hok.2 fun k hk => hk
  | loaded records =>
    cases observer with
    | loading =>
      cases hstep
      exact Watched.restore h hok
    | collecting | writing => cases hstep
  | loadFailed =>
    cases observer with
    | loading =>
      cases hstep
      rw [List.append_nil]
      exact h
    | collecting | writing => cases hstep
  | look =>
    cases observer with
    | collecting attempted seen =>
      cases hstep
      exact (Watched.look h).collect
    | loading | writing => cases hstep
  | stored stored =>
    cases observer with
    | writing attempted seen rest =>
      cases hstep
      have hmark := reshaped_markAuditRecorded h.activeOpen stored.taskId
        stored.recordedAtEpochMillis.toInt
      have hmarked := h.reshaped hmark.1 hmark.2 (fun now hnow => by cases hnow)
        (fun e he => by cases he) (fun k (hk : k ∈ []) => by cases hk)
      rw [List.map_nil, List.append_nil] at hmarked
      exact Watched.collect hmarked
    | loading | collecting => cases hstep
  | storeFailed =>
    cases observer with
    | writing attempted seen rest =>
      cases hstep
      exact Watched.collect h
    | loading | collecting => cases hstep

theorem inv_of_reaches (h : Machine.Reaches AuditSystem.step AuditFits ({} : AuditSystem γ) s es) :
    s.Inv es := by
  refine h.invariant (I := fun s es => s.Inv es) ?_ ?_
  · exact {
      nodup := List.nodup_nil
      length_le := Nat.zero_le _
      activeOpen := activeOpen_of_none rfl
      auditable := by simp
      restAuditable := by simp [Observer.rest]
      unattempted := by simp
      stable := by simp [Observer.rest]
      passed := by simp [passedIds]
      restored := by simp
      once := List.nodup_nil
      ended := by simp
      lookedAt := by simp [Observer.seen] }
  · intro s es a s' out hinv hok hstep
    exact inv_step hinv hok hstep

end Runs

/-! ### The observer comes to rest -/

section Rest

variable [ToolResultContent γ]

/-- The steps of the observer and of the store. -/
def AuditAction.OfObserver : AuditAction γ → Prop
  | .task _ => False
  | _ => True

/-- Only the observer and the store do something. -/
abbrev LeftAlone (_ : AuditSystem γ) (_ : List AuditEvent) (a : AuditAction γ) : Prop := a.OfObserver

theorem leftAlone_step {s s' : AuditSystem γ} {out : List AuditEvent} (a : AuditAction γ)
    (ha : a.OfObserver) (h : AuditSystem.step s a = some (s', out)) :
    Machine.Reaches AuditSystem.step LeftAlone s s' out := by
  simpa using Machine.Reaches.start.step ha h

/-- A store that fails lets the observer come to the end of a value. -/
theorem settles_collect (timeline : TaskTimelineState γ) (seen rest : List (TaskTimelineEntry γ))
    (attempted : List UUID) : ∃ attempted' out,
      Machine.Reaches AuditSystem.step LeftAlone
        ⟨timeline, (Observer.collect attempted seen rest).1⟩
        ⟨timeline, .collecting attempted' (some seen)⟩ out := by
  induction rest generalizing attempted with
  | nil => exact ⟨attempted, [], .start⟩
  | cons e rest ih =>
    rw [Observer.collect]
    split
    · exact ih attempted
    split
    · exact ih attempted
    split
    · obtain ⟨attempted', out, hrest⟩ := ih (attempted ++ [e.id])
      have hfirst : Machine.Reaches AuditSystem.step LeftAlone
          (⟨timeline, .writing (attempted ++ [e.id]) seen rest⟩ : AuditSystem γ)
          ⟨timeline, (Observer.collect (attempted ++ [e.id]) seen rest).1⟩ _ :=
        leftAlone_step .storeFailed trivial rfl
      exact ⟨attempted', _, hfirst.append hrest⟩
    all_goals exact ih (attempted ++ [e.id])

theorem settles_look (timeline : TaskTimelineState γ) (attempted : List UUID)
    (seen : Option (List (TaskTimelineEntry γ))) : ∃ s out,
      Machine.Reaches AuditSystem.step LeftAlone ⟨timeline, .collecting attempted seen⟩ s out ∧
        s.Idle := by
  obtain ⟨attempted', out, hrest⟩ :=
    settles_collect timeline timeline.entries timeline.entries attempted
  have hlook : Machine.Reaches AuditSystem.step LeftAlone
      (⟨timeline, .collecting attempted seen⟩ : AuditSystem γ)
      ⟨timeline, (Observer.collect attempted timeline.entries timeline.entries).1⟩ _ :=
    leftAlone_step .look trivial rfl
  exact ⟨_, _, hlook.append hrest, attempted', rfl⟩

/-- Left alone with a store that answers, the observer comes to rest. -/
theorem observer_settles (s : AuditSystem γ) : ∃ s' out,
    Machine.Reaches AuditSystem.step LeftAlone s s' out ∧ s'.Idle := by
  obtain ⟨timeline, observer⟩ := s
  cases observer with
  | loading =>
    obtain ⟨s', out, hrest, hidle⟩ := settles_look timeline [] none
    have hload : Machine.Reaches AuditSystem.step LeftAlone (⟨timeline, .loading⟩ : AuditSystem γ)
        ⟨timeline, .collecting [] none⟩ _ := leftAlone_step .loadFailed trivial rfl
    exact ⟨s', _, hload.append hrest, hidle⟩
  | collecting attempted seen => exact settles_look timeline attempted seen
  | writing attempted seen rest =>
    obtain ⟨attempted', out, hcollect⟩ := settles_collect timeline seen rest attempted
    obtain ⟨s', out', hlook, hidle⟩ := settles_look timeline attempted' (some seen)
    have hfailed : Machine.Reaches AuditSystem.step LeftAlone
        (⟨timeline, .writing attempted seen rest⟩ : AuditSystem γ)
        ⟨timeline, (Observer.collect attempted seen rest).1⟩ _ :=
      leftAlone_step .storeFailed trivial rfl
    exact ⟨s', _, (hfailed.append hcollect).append hlook, hidle⟩

end Rest

/-- As long as no new entry pushes one out that has ended and that the observer does not have, no
entry is handed to the store twice and no restored one at all; the observer comes to rest when the
store answers, and then every entry that has ended was handed over once. -/
theorem ended_recorded_once [ToolResultContent γ] {s : AuditSystem γ} {es : List AuditEvent}
    (h : Machine.Reaches AuditSystem.step AuditFits {} s es) :
    (passedIds es).Nodup ∧ (∀ k, .restored k ∈ es → k ∉ passedIds es) ∧
      (∃ s' out, Machine.Reaches AuditSystem.step LeftAlone s s' out ∧ s'.Idle) ∧
      (s.Idle → ∀ k, .ended k ∈ es → (passedIds es).count k = 1) := by
  have hinv := inv_of_reaches h
  refine ⟨hinv.once, fun k hk => (hinv.restored k hk).2, observer_settles s, ?_⟩
  rintro ⟨attempted, hidle⟩ k hk
  have hattempted : s.observer.attempted = attempted := by rw [hidle]; rfl
  have hrest : s.observer.rest = [] := by rw [hidle]; rfl
  have hseen : s.observer.seen = some s.timeline.entries := by rw [hidle]; rfl
  apply List.count_eq_one_of_mem hinv.once
  rcases hinv.ended k hk with hpassed | ⟨hnew, e, he | he, rfl, hended⟩
  · exact hpassed
  · rcases hinv.lookedAt _ hseen e he hended with hmem | hmem
    · exact absurd hmem hnew
    · rw [hrest] at hmem
      cases hmem
  · rw [hrest] at he
    cases he

/-! ### Two runs -/

deriving instance DecidableEq for TaskTimelineEntry

/-- A command without a route. -/
def unsupported (k : ℕ) : AuditAction ContentType :=
  .task (.reject (Fin.ofNat _ k) (lit "sing") (lit "No safe deterministic route") (1000 + k) .phone
    none none)

/-- A command fails, and its record is refused. -/
def refusedRun : List (AuditAction ContentType) :=
  [.loaded [], unsupported 1, .look, .storeFailed, .look]

theorem refused_recorded_once : ∃ s es,
    Machine.Reaches AuditSystem.step AuditFits ({} : AuditSystem ContentType) s es ∧
      .ended 1 ∈ es ∧ (passedIds es).count 1 = 1 := by
  have hempty : AuditSystem.Spares (⟨{}, .collecting [] none⟩ : AuditSystem ContentType) := by
    intro hfull
    cases hfull
  have hrejected : AuditFits (⟨{}, .collecting [] none⟩ : AuditSystem ContentType) []
      (unsupported 1) := by
    refine ⟨fun now hnow => ?_, fun e he => ?_⟩
    · cases hnow
      decide
    · unfold Op.added at he
      dsimp only at he
      rw [if_neg (by decide)] at he
      cases he
      exact ⟨⟨by decide, by decide, by decide, by simp [Observer.rest]⟩, by decide, hempty⟩
  have hallowed : Machine.Allowed AuditSystem.step AuditFits ({} : AuditSystem ContentType) []
      refusedRun := by
    refine ⟨fun r hr => absurd hr List.not_mem_nil, fun s out h => ?_⟩
    cases h
    refine ⟨hrejected, fun s out h => ⟨trivial, fun s out h => ⟨trivial, fun s out h =>
      ⟨trivial, fun s out h => trivial⟩⟩⟩⟩
  have hrun : Machine.run AuditSystem.step ({} : AuditSystem ContentType) refusedRun =
      some (_, _) := rfl
  have hreach := Machine.reaches_of_run hallowed hrun
  have hidle := (ended_recorded_once hreach).2.2.2 ⟨_, rfl⟩
  exact ⟨_, _, hreach, by decide, hidle 1 (by decide)⟩

/-- The observer waits for the store with the first record while 51 more commands fail. -/
def overtakenRun : List (AuditAction ContentType) :=
  [.loaded [], unsupported 1, .look] ++ (List.range 51).map (fun k => unsupported (k + 2)) ++
    [.storeFailed, .look] ++ List.replicate 50 .storeFailed

/-- The observer has seen the timeline as it is. -/
def AuditSystem.upToDate (s : AuditSystem ContentType) : Bool :=
  match s.observer with
  | .collecting _ (some seen) => decide (seen = s.timeline.entries)
  | _ => false

theorem AuditSystem.idle_of_upToDate {s : AuditSystem ContentType} (h : s.upToDate = true) :
    s.Idle := by
  unfold AuditSystem.upToDate at h
  split at h
  · rename_i attempted seen hobserver
    exact ⟨attempted, by rw [hobserver, of_decide_eq_true h]⟩
  · cases h

/-- The second entry is pushed out before the observer looks at the timeline again. The observer comes
to rest, and the entry was never handed to the store. -/
theorem ended_never_recorded : ∃ s es,
    Machine.run AuditSystem.step ({} : AuditSystem ContentType) overtakenRun = some (s, es) ∧
      s.Idle ∧ .ended 2 ∈ es ∧ 2 ∉ passedIds es := by
  have hrun : (Machine.run AuditSystem.step ({} : AuditSystem ContentType) overtakenRun).any
      (fun r => r.1.upToDate && decide (AuditEvent.ended 2 ∈ r.2) && decide (2 ∉ passedIds r.2)) =
        true := by
    decide +kernel
  obtain ⟨⟨s, es⟩, heq, hend⟩ := (Option.any_eq_true _ _).1 hrun
  simp only [Bool.and_eq_true, decide_eq_true_eq] at hend
  obtain ⟨⟨hidle, hended⟩, hnever⟩ := hend
  exact ⟨s, es, heq, AuditSystem.idle_of_upToDate hidle, hended, hnever⟩

end GoffyPhone
