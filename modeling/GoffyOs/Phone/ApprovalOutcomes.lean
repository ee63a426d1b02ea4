import GoffyOs.Lib.Trimming
import GoffyOs.Phone.IssuedOperations

/-!
# Approval outcomes (`approvalOutcome` in `audit/ClosedTerminalAudit.kt`)

The record of a task says what became of its approval, and reads it off the entry: its phase, its texts, the
messages of its error events and a flag. Here the outcome is compared with what has happened to the task.

* `Logged` is the log of an entry in a run: each operation that changed it, with the entry before and after;
* `EntryEffect` says what a change can do to what the outcome is read off, `Sane` what follows for a whole log;
* a text from outside can read like an expiry. `outcomeSound_iff` says that nothing else goes wrong.
-/

namespace GoffyPhone

open Kotlin Timeline
open Python (UUID)
open Recent
open TaskTimelineEntry (started rejected observing observationEvents)

variable {γ : Type}

def approvalExpiredErrorCode : Str := lit "approval_expired"
def approvalDeniedSummary : Str := lit "Approval denied; no tool was invoked"
def approvalCancelledSummary : Str := lit "Approval cancelled; no tool was invoked"
def approvalExpiredSummary : Str := lit "Approval expired; no tool was invoked"

/-! ### Changes -/

/-- An operation that changed an entry, with the entry before and after it. -/
structure Change (γ : Type) where
  op : Op γ
  before : TaskTimelineEntry γ
  after : TaskTimelineEntry γ

/-- A text that is read as an expiry, as a summary or as the message of an error. -/
def ReadsExpired (summary message : Str) : Prop :=
  summary = approvalExpiredSummary ∨ (approvalExpiredErrorCode ++ lit ":").isPrefixOf message = true

namespace Change

/-- The approval is granted: `grantApproval` is not refused. -/
def Grants (c : Change γ) : Prop :=
  (∃ taskId now, c.op = .grantApproval taskId now) ∧ c.after.phase = .routing

/-- The execution starts: a `Starting` event is not refused. -/
def Starts (c : Change γ) : Prop :=
  (∃ taskId attempt now, c.op = .apply taskId (.starting attempt) now) ∧ c.after.phase = .preparing

/-- The approval times out, or the error `approval_expired` comes. -/
def Expires (c : Change γ) : Prop :=
  (∃ taskId now, c.op = .expireApproval taskId now) ∨
    ∃ taskId message retryable now,
      c.op = .apply taskId (.error approvalExpiredErrorCode message retryable) now

/-- A failure of another kind whose text is read as an expiry: an error with another code, a verification
that failed, or a rejected observation. -/
def Disguised (c : Change γ) : Prop :=
  match c.op with
  | .apply _ (.error code message _) _ => code ≠ approvalExpiredErrorCode ∧
      ReadsExpired (safeText message) (safeText (code ++ lit ": " ++ message))
  | .apply _ (.verification false summary _) _ => c.before.phase = .completedUnverified ∧
      c.before.result.isSome ∧ ReadsExpired (safeText summary) (safeText summary)
  | .completeLocalModelObservation _ observation _ => ∃ event ∈ observationEvents observation,
      event.kind = .error ∧ (approvalExpiredErrorCode ++ lit ":").isPrefixOf event.message = true
  | _ => False

end Change

/-! ### What an entry shows -/

namespace TaskTimelineEntry

/-- One of its errors has the code of an expiry. -/
def HasCode (e : TaskTimelineEntry γ) : Prop := e.hasErrorCode approvalExpiredErrorCode = true

/-- The entry reads as that of an expired approval. -/
def ShowsExpired (e : TaskTimelineEntry γ) : Prop := e.HasCode ∨ e.summary = approvalExpiredSummary

theorem hasCode_iff {e : TaskTimelineEntry γ} : e.HasCode ↔ ∃ event ∈ e.events, event.kind = .error ∧
    (approvalExpiredErrorCode ++ lit ":").isPrefixOf event.message = true := by
  simp [HasCode, hasErrorCode]

/-- More events are shown only by the new one. -/
theorem hasCode_withEvent {e : TaskTimelineEntry γ} {kind : TaskEventKind} {message : Str}
    (h : (e.withEvent kind message).HasCode) : e.HasCode ∨ kind = .error ∧
      (approvalExpiredErrorCode ++ lit ":").isPrefixOf (safeText message) = true := by
  obtain ⟨event, hmem, hkind, hpre⟩ := hasCode_iff.1 h
  rcases List.mem_append.1 (mem_of_mem_takeLast hmem) with hold | hnew
  · exact Or.inl (hasCode_iff.2 ⟨event, hold, hkind, hpre⟩)
  · obtain rfl := List.mem_singleton.1 hnew
    exact Or.inr ⟨hkind, hpre⟩

/-- The newest event is not trimmed. -/
theorem hasCode_of_newest {e : TaskTimelineEntry γ} {events : List TaskTimelineEvent} {message : Str}
    (h : e.events = takeLast maxTaskEvents (events ++ [⟨.error, message⟩]))
    (hpre : (approvalExpiredErrorCode ++ lit ":").isPrefixOf message = true) : e.HasCode := by
  refine hasCode_iff.2 ⟨⟨.error, message⟩, ?_, rfl, hpre⟩
  rw [h]
  exact mem_takeLast_append (show 1 ≤ maxTaskEvents by decide) List.mem_cons_self

/-- The timestamp is not shown. -/
theorem withTerminalTimestamp_eq (e : TaskTimelineEntry γ) (now : ℤ) :
    ∃ stamp, e.withTerminalTimestamp now = { e with terminalAtEpochMillis := stamp } := by
  unfold withTerminalTimestamp
  split
  case isTrue => exact ⟨_, rfl⟩
  case isFalse => exact ⟨e.terminalAtEpochMillis, rfl⟩

end TaskTimelineEntry

/-! ### What a change does -/

/-- A text of the source that is not read as an expiry. -/
def Harmless (message : Str) : Prop :=
  message ≠ approvalExpiredSummary ∧
    (approvalExpiredErrorCode ++ lit ":").isPrefixOf (safeText message) = false

instance (message : Str) : Decidable (Harmless message) := inferInstanceAs (Decidable (_ ∧ _))

/-- What a change does to the phase, the flag and the texts. -/
inductive EntryEffect (c : Change γ) : Prop
  /-- the task goes on, or is completed -/
  | goes (hfailed : c.after.phase ≠ .failed) (hcancelled : c.after.phase ≠ .cancelled)
      (hgranted : c.after.approvalGranted = c.before.approvalGranted)
      (hawaiting : c.after.phase = .awaitingApproval → c.before.approvalGranted = false)
      (hcode : c.after.HasCode → c.before.HasCode) (hgrants : ¬ c.Grants)
      (hstarts : c.Starts → c.before.permission = some .confirm → c.before.approvalGranted = true)
  | grants (hgrants : c.Grants) (hgranted : c.after.approvalGranted = true)
      (hcode : c.after.HasCode → c.before.HasCode)
  /-- before an approval that has not been answered, or in other words -/
  | cancels (hphase : c.after.phase = .cancelled)
      (hgranted : c.after.approvalGranted = c.before.approvalGranted)
      (hsummary : c.before.phase = .awaitingApproval ∨
        c.after.summary ≠ approvalDeniedSummary ∧ c.after.summary ≠ approvalCancelledSummary)
      (hcode : c.after.HasCode → c.before.HasCode)
  | fails (hphase : c.after.phase = .failed)
      (hgranted : c.after.approvalGranted = c.before.approvalGranted)
      (hshows : c.after.ShowsExpired → c.before.HasCode ∨ c.Expires ∨ c.Disguised)

section Effects

open TaskTimelineEntry

variable {op : Op γ} {e e₁ : TaskTimelineEntry γ}

/-- The timestamp of the end makes no difference. -/
theorem EntryEffect.stamp (h : EntryEffect ⟨op, e, e₁⟩) (now : ℤ) :
    EntryEffect ⟨op, e, e₁.withTerminalTimestamp now⟩ := by
  obtain ⟨stamp, heq⟩ := withTerminalTimestamp_eq e₁ now
  rw [heq]
  cases h with
  | goes hfailed hcancelled hgranted hawaiting hcode hgrants hstarts =>
    exact .goes hfailed hcancelled hgranted hawaiting hcode hgrants hstarts
  | grants hgrants hgranted hcode => exact .grants hgrants hgranted hcode
  | cancels hphase hgranted hsummary hcode => exact .cancels hphase hgranted hsummary hcode
  | fails hphase hgranted hshows => exact .fails hphase hgranted hshows

/-- What the refusals of the timeline say. -/
def sequenceMessages : List String := [
  "Execution start event failed ordering checks",
  "Execution ready event failed ordering checks",
  "Progress event failed task ordering checks",
  "Progress event arrived outside the expected sequence",
  "Tool result arrived outside the expected sequence",
  "Verification arrived before a structured result",
  "Unverified completion arrived before a structured result",
  "Approval request failed task ordering checks",
  "Approval grant failed task ordering checks"]

theorem harmless_sequenceMessages : ∀ message ∈ sequenceMessages, Harmless (lit message) := by
  simp only [sequenceMessages, List.forall_mem_cons, Harmless, approvalExpiredSummary,
    approvalExpiredErrorCode]
  repeat rw [lit_ofList]
  decide +kernel

/-- A refused operation. -/
theorem effect_failSequence {message : String} (hmem : message ∈ sequenceMessages) :
    EntryEffect ⟨op, e, e.failSequence message⟩ := by
  obtain ⟨hne, hharmless⟩ := harmless_sequenceMessages message hmem
  refine .fails rfl rfl fun hshows => Or.inl ?_
  rcases hshows with hcode | hsummary
  · rcases hasCode_withEvent hcode with hbefore | ⟨-, hpre⟩
    · exact hbefore
    · rw [hharmless] at hpre
      cases hpre
  · exact absurd hsummary hne

/-- An entry that goes on with an event that is no error. -/
theorem effect_goes {kind : TaskEventKind} {message : Str} (hkind : kind ≠ .error)
    (hevents : e₁.events = e.events) (hfailed : e₁.phase ≠ .failed) (hcancelled : e₁.phase ≠ .cancelled)
    (hgranted : e₁.approvalGranted = e.approvalGranted)
    (hawaiting : e₁.phase = .awaitingApproval → e.approvalGranted = false)
    (hgrants : ∀ taskId now, op ≠ .grantApproval taskId now)
    (hstarts : (∃ taskId attempt now, op = .apply taskId (.starting attempt) now) →
      e.permission = some .confirm → e.approvalGranted = true) :
    EntryEffect ⟨op, e, e₁.withEvent kind message⟩ := by
  refine .goes hfailed hcancelled hgranted hawaiting (fun hcode => ?_)
    (fun ⟨⟨taskId, now, heq⟩, _⟩ => hgrants taskId now heq) fun h => hstarts h.1
  rcases hasCode_withEvent hcode with hbefore | ⟨herror, -⟩
  · obtain ⟨event, hmem, hevent⟩ := hasCode_iff.1 hbefore
    exact hasCode_iff.2 ⟨event, hevents ▸ hmem, hevent⟩
  · exact absurd herror hkind

/-- An event that is not refused, other than `Starting` and an error. -/
theorem effect_event_goes {taskId : UUID} {event : ExecutionEvent γ} {now : ℤ} {kind : TaskEventKind}
    {message : Str} (phase : TaskPhase) (hevent : ∀ attempt, event ≠ .starting attempt)
    (hkind : kind ≠ .error) (hevents : e₁.events = e.events)
    (hgranted : e₁.approvalGranted = e.approvalGranted) (heq : e₁.phase = phase)
    (hphase : phase ∉ [.failed, .cancelled, .awaitingApproval]) :
    EntryEffect ⟨.apply taskId event now, e, e₁.withEvent kind message⟩ := by
  have hne : ∀ other ∈ [TaskPhase.failed, .cancelled, .awaitingApproval], e₁.phase ≠ other :=
    fun other hmem hother => hphase (heq ▸ hother ▸ hmem)
  refine effect_goes hkind hevents (hne _ (by decide)) (hne _ (by decide)) hgranted
    (fun hawaiting => absurd hawaiting (hne _ (by decide))) nofun ?_
  rintro ⟨_, attempt, _, heq⟩
  cases heq
  exact absurd rfl (hevent attempt)

theorem effect_starting {taskId : UUID} {attempt : Int32} {now : ℤ} :
    EntryEffect ⟨.apply taskId (.starting attempt) now, e, e.applyStarting attempt⟩ := by
  unfold applyStarting
  split
  case isTrue => exact effect_failSequence (List.mem_of_getElem? (i := 0) rfl)
  case isFalse hok =>
    simp only [ne_eq, not_or, not_not, not_and, Bool.not_eq_false] at hok
    exact effect_goes (by decide) rfl TaskPhase.noConfusion TaskPhase.noConfusion rfl TaskPhase.noConfusion
      nofun fun _ => hok.2.2.2

theorem effect_ready {taskId : UUID} {now : ℤ} :
    EntryEffect ⟨.apply taskId .ready now, e, e.applyReady⟩ := by
  unfold applyReady
  split
  case isTrue => exact effect_failSequence (List.mem_of_getElem? (i := 1) rfl)
  case isFalse hok =>
    simp only [ne_eq, not_or, not_not] at hok
    exact effect_event_goes .preparing nofun (by decide) rfl rfl hok.1 (by decide)

theorem effect_progress {taskId : UUID} {progress : ToolProgress} {now : ℤ} :
    EntryEffect ⟨.apply taskId (.progress progress) now, e, e.applyProgress progress⟩ := by
  unfold applyProgress
  split
  case isTrue => exact effect_failSequence (List.mem_of_getElem? (i := 2) rfl)
  case isFalse =>
    split
    case h_1 => exact effect_failSequence (List.mem_of_getElem? (i := 3) rfl)
    case h_2 phase hphase =>
      have hgoes : phase = .accepted ∨ phase = .completedUnverified := by
        unfold progressPhase at hphase
        split at hphase
        · exact Or.inl (Option.some.inj hphase).symm
        · split at hphase
          · exact Or.inr (Option.some.inj hphase).symm
          · cases hphase
      rcases hgoes with rfl | rfl
      · exact effect_event_goes .accepted nofun (by decide) rfl rfl rfl (by decide)
      · exact effect_event_goes .completedUnverified nofun (by decide) rfl rfl rfl (by decide)

theorem effect_result [ToolResultContent γ] {taskId : UUID} {toolName : Str}
    {executionTarget : ExecutionTarget} {content : γ} {now : ℤ} :
    EntryEffect ⟨.apply taskId (.result toolName executionTarget content) now, e,
      e.applyResult toolName executionTarget content⟩ := by
  unfold applyResult
  split
  case isTrue => exact effect_failSequence (List.mem_of_getElem? (i := 4) rfl)
  case isFalse =>
    exact effect_event_goes .completedUnverified nofun (by decide) rfl rfl rfl (by decide)

theorem effect_verification {taskId : UUID} {succeeded : Bool} {summary : Str} {checks : List Str}
    {now : ℤ} : EntryEffect ⟨.apply taskId (.verification succeeded summary checks) now, e,
      e.applyVerification succeeded summary checks⟩ := by
  unfold applyVerification
  split
  case isTrue => exact effect_failSequence (List.mem_of_getElem? (i := 5) rfl)
  case isFalse hok =>
    cases succeeded with
    | true =>
      exact effect_event_goes .verified nofun (by decide) rfl rfl rfl (by decide)
    | false =>
      -- the summary of the verification is that of the entry, and the message of its last error
      obtain ⟨hphase, hresult⟩ := not_or.1 hok
      have hresult' : e.result.isSome := by
        rw [Option.isNone_iff_eq_none] at hresult
        exact Option.isSome_iff_ne_none.2 hresult
      have hdisguised : ∀ after, ReadsExpired (safeText summary) (safeText summary) →
          Change.Disguised ⟨.apply taskId (.verification false summary checks) now, e, after⟩ :=
        fun _ hreads => ⟨not_not.1 hphase, hresult', hreads⟩
      refine .fails rfl rfl fun hshows => ?_
      rcases hshows with hcode | hsummary
      · rcases hasCode_withEvent hcode with hbefore | ⟨-, hpre⟩
        · exact Or.inl hbefore
        · exact Or.inr (Or.inr (hdisguised _ (Or.inr hpre)))
      · exact Or.inr (Or.inr (hdisguised _ (Or.inl hsummary)))

theorem effect_unverified {taskId : UUID} {summary : Str} {checks : List Str} {now : ℤ} :
    EntryEffect ⟨.apply taskId (.unverified summary checks) now, e, e.applyUnverified summary checks⟩ := by
  unfold applyUnverified
  split
  case isTrue => exact effect_failSequence (List.mem_of_getElem? (i := 6) rfl)
  case isFalse =>
    exact effect_event_goes .unverified nofun (by decide) rfl rfl rfl (by decide)

theorem effect_error [ToolResultContent γ] {taskId : UUID} {code message : Str} {retryable : Bool}
    {now : ℤ} : EntryEffect ⟨.apply taskId (.error code message retryable) now, e,
      e.applyEvent (.error code message retryable)⟩ := by
  refine .fails rfl rfl fun hshows => ?_
  by_cases hcode : code = approvalExpiredErrorCode
  · subst hcode
    exact Or.inr (Or.inl (Or.inr ⟨taskId, message, retryable, now, rfl⟩))
  · rcases hshows with hshown | hsummary
    · rcases hasCode_withEvent hshown with hbefore | ⟨-, hpre⟩
      · exact Or.inl hbefore
      · exact Or.inr (Or.inr ⟨hcode, Or.inr hpre⟩)
    · exact Or.inr (Or.inr ⟨hcode, Or.inl hsummary⟩)

theorem effect_event [ToolResultContent γ] {taskId : UUID} {event : ExecutionEvent γ} {now : ℤ} :
    EntryEffect ⟨.apply taskId event now, e, e.applyEvent event⟩ := by
  cases event with
  | starting attempt => exact effect_starting
  | ready => exact effect_ready
  | progress progress => exact effect_progress
  | result toolName executionTarget content => exact effect_result
  | verification succeeded summary checks => exact effect_verification
  | unverified summary checks => exact effect_unverified
  | error code message retryable => exact effect_error

theorem effect_awaited {taskId : UUID} {summary : Str} {now : ℤ} :
    EntryEffect ⟨.awaitApproval taskId summary now, e, e.awaitedApproval summary⟩ := by
  unfold awaitedApproval
  split
  case isTrue hok =>
    exact effect_goes (by decide) rfl TaskPhase.noConfusion TaskPhase.noConfusion rfl (fun _ => hok.2.2)
      nofun fun ⟨_, _, _, heq⟩ => by cases heq
  case isFalse => exact effect_failSequence (List.mem_of_getElem? (i := 7) rfl)

theorem effect_granted {taskId : UUID} {now : ℤ} :
    EntryEffect ⟨.grantApproval taskId now, e, e.grantedApproval⟩ := by
  unfold grantedApproval
  split
  case isTrue =>
    refine .grants ⟨⟨taskId, now, rfl⟩, rfl⟩ rfl fun hcode => ?_
    rcases hasCode_withEvent hcode with hbefore | ⟨herror, -⟩
    · exact hbefore
    · cases herror
  case isFalse => exact effect_failSequence (List.mem_of_getElem? (i := 8) rfl)

theorem effect_denied {taskId : UUID} {summary : Str} {now : ℤ} (h : e.deniedApproval summary = some e₁) :
    EntryEffect ⟨.denyApproval taskId summary now, e, e₁⟩ := by
  unfold deniedApproval at h
  split at h
  case isTrue => cases h
  case isFalse hphase =>
    obtain rfl := Option.some.inj h
    refine .cancels rfl rfl (Or.inl (not_not.1 hphase)) fun hcode => ?_
    rcases hasCode_withEvent hcode with hbefore | ⟨herror, -⟩
    · exact hbefore
    · cases herror

theorem effect_expired {taskId : UUID} {now : ℤ} (h : e.expiredApproval = some e₁) :
    EntryEffect ⟨.expireApproval taskId now, e, e₁⟩ := by
  unfold expiredApproval at h
  split at h
  case isTrue => cases h
  case isFalse =>
    obtain rfl := Option.some.inj h
    exact .fails rfl rfl fun _ => Or.inr (Or.inl (Or.inl ⟨taskId, now, rfl⟩))

/-- The messages of a cancellation. -/
theorem harmless_cancellationEventMessage (e : TaskTimelineEntry γ) :
    (approvalExpiredErrorCode ++ lit ":").isPrefixOf (safeText e.cancellationEventMessage) = false := by
  unfold cancellationEventMessage approvalExpiredErrorCode
  split
  · repeat rw [lit_ofList]
    decide +kernel
  · split
    · repeat rw [lit_ofList]
      decide +kernel
    · cases e.executionTarget <;> (repeat rw [lit_ofList]) <;> decide +kernel

theorem cancellationSummary_ne (e : TaskTimelineEntry γ) (h : e.phase ≠ .awaitingApproval) :
    e.cancellationSummary ≠ approvalDeniedSummary ∧ e.cancellationSummary ≠ approvalCancelledSummary := by
  unfold cancellationSummary approvalDeniedSummary approvalCancelledSummary
  rw [if_neg h]
  split
  · repeat rw [lit_ofList]
    decide +kernel
  · cases e.executionTarget <;> (repeat rw [lit_ofList]) <;> decide +kernel

theorem effect_cancelled {now : ℤ} : EntryEffect ⟨.cancelActive now, e, e.cancelled⟩ := by
  refine .cancels rfl rfl ?_ fun hcode => ?_
  · by_cases hphase : e.phase = .awaitingApproval
    · exact Or.inl hphase
    · exact Or.inr (cancellationSummary_ne e hphase)
  · rcases hasCode_withEvent hcode with hbefore | ⟨-, hpre⟩
    · exact hbefore
    · rw [harmless_cancellationEventMessage] at hpre
      cases hpre

/-- What an observation says of itself. -/
theorem nonExecutableSummary_ne (observation : LocalModelIntentObservation) :
    safeText (nonExecutableSummary observation) ≠ approvalExpiredSummary := by
  have hfirst : ∀ (c : UInt16) (pre s : Str), pre.head? = some c → isWhitespace c = false → c ≠ 65 →
      safeText (pre ++ s) ≠ approvalExpiredSummary := by
    intro c pre s hhead hspace hc heq
    obtain ⟨pre, rfl⟩ := List.head?_eq_some_iff.1 hhead
    obtain ⟨t, ht⟩ : ∃ t, trim (c :: (pre ++ s)) = c :: t := Trimming.trimmed_cons hspace
    unfold safeText at heq
    rw [List.cons_append, ht, List.take_succ_cons, ifEmpty, if_neg (List.cons_ne_nil _ _)] at heq
    have hexpired : approvalExpiredSummary.head? = some 65 := by
      rw [approvalExpiredSummary, lit_ofList]
      decide
    rw [← heq, List.head?_cons] at hexpired
    exact hc (Option.some.inj hexpired)
  cases observation with
  | candidate intentLabel displayConfidence =>
    rw [nonExecutableSummary, List.append_assoc]
    exact hfirst 76 _ _ (by rw [lit_ofList]; decide) (by decide) (by decide)
  | disabled reason => exact hfirst 78 _ _ (by rw [lit_ofList]; decide) (by decide) (by decide)
  | rejected reason => exact hfirst 78 _ _ (by rw [lit_ofList]; decide) (by decide) (by decide)

theorem effect_observed {taskId : UUID} {observation : LocalModelIntentObservation} {now : ℤ} :
    EntryEffect ⟨.completeLocalModelObservation taskId observation now, e, e.observed observation now⟩ := by
  refine .fails rfl rfl fun hshows => ?_
  rcases hshows with hcode | hsummary
  · obtain ⟨event, hmem, hkind, hpre⟩ := hasCode_iff.1 hcode
    rcases List.mem_append.1 (mem_of_mem_takeLast hmem) with hold | hnew
    · exact Or.inl (hasCode_iff.2 ⟨event, hold, hkind, hpre⟩)
    · exact Or.inr (Or.inr ⟨event, hnew, hkind, hpre⟩)
  · exact absurd hsummary (nonExecutableSummary_ne observation)

/-- **What any change does.** -/
theorem effect_change [ToolResultContent γ] {active : Option UUID} {taskId : UUID} {input : Input γ}
    {f : TaskTimelineEntry γ → Option (TaskTimelineEntry γ)} {e' : TaskTimelineEntry γ}
    (hop : op.change active = some (taskId, input, f)) (he : f e = some e') : EntryEffect ⟨op, e, e'⟩ := by
  cases op with
  | mergeRestoredAudit | markAuditRecorded | start | reject | startLocalModelObservation => cases hop
  | completeLocalModelObservation t observation now =>
    cases hop
    cases he
    exact effect_observed
  | apply t event now =>
    cases hop
    cases he
    exact effect_event.stamp now
  | awaitApproval t summary now =>
    cases hop
    cases he
    exact effect_awaited.stamp now
  | grantApproval t now =>
    cases hop
    cases he
    exact effect_granted.stamp now
  | denyApproval t summary now =>
    cases hop
    obtain ⟨e₁, he₁, rfl⟩ := Option.map_eq_some_iff.1 he
    exact (effect_denied he₁).stamp now
  | expireApproval t now =>
    cases hop
    obtain ⟨e₁, he₁, rfl⟩ := Option.map_eq_some_iff.1 he
    exact (effect_expired he₁).stamp now
  | cancelActive now =>
    obtain ⟨t, -, heq⟩ := Option.map_eq_some_iff.1 hop
    cases heq
    cases he
    exact effect_cancelled.stamp now

/-- A change leaves the capability of an entry as it is. -/
theorem capability_change [ToolResultContent γ] {active : Option UUID} {taskId : UUID} {input : Input γ}
    {f : TaskTimelineEntry γ → Option (TaskTimelineEntry γ)} {e' : TaskTimelineEntry γ}
    (hop : op.change active = some (taskId, input, f)) (he : f e = some e') :
    e'.capability = e.capability := by
  cases changedTo_of_change hop he with
  | @stamped now e₁ _ hfixed =>
    obtain ⟨stamp, heq⟩ := withTerminalTimestamp_eq e₁ now
    simp only [fixed, Prod.mk.injEq] at hfixed
    rw [heq]
    simp only [TaskTimelineEntry.capability, hfixed]
  | observed => rfl

end Effects

/-! ### New entries -/

/-- The entries that an operation makes. -/
inductive Made : Op γ → TaskTimelineEntry γ → Prop
  | restored {restored : List (TaskTimelineEntry γ)} {e : TaskTimelineEntry γ} (he : e ∈ restored) :
      Made (.mergeRestoredAudit restored) e
  | started {taskId : UUID} {plan : GoffyExecutionPlan} : Made (.start taskId plan) (started taskId plan)
  | rejected {id : UUID} {command summary : Str} {now : ℤ} {executionTarget : ExecutionTarget}
      {toolName : Option Str} {permission : Option PermissionLevel} :
      Made (.reject id command summary now executionTarget toolName permission)
        (rejected id (TaskTimelineState.normalize command) summary now executionTarget toolName permission)
  | observing {taskId : UUID} {command statusSummary : Str} :
      Made (.startLocalModelObservation taskId command statusSummary)
        (observing taskId (TaskTimelineState.normalize command) statusSummary)

section New

variable [ToolResultContent γ] {h : History γ} {op : Op γ} {y : Tracked γ}

omit [ToolResultContent γ] in
theorem made_of_mem_add (hh : Numbered h) {active : Option UUID} {e : TaskTimelineEntry γ}
    (hy : y ∈ (h.add active e).timeline.entries) (hnew : h.made ≤ y.serial) : y.entry = e := by
  rcases List.mem_append.1 (mem_of_mem_takeLast hy) with hold | hlast
  · exact absurd hnew (not_le.2 (hh.lt_made y hold))
  · rw [List.mem_singleton.1 hlast]

omit [ToolResultContent γ] in
/-- No change makes an entry. -/
theorem serial_lt_of_onActive (hh : Numbered h) {taskId : UUID} {input : Input γ}
    {f : TaskTimelineEntry γ → Option (TaskTimelineEntry γ)}
    (hy : y ∈ (h.timeline.onActive taskId (Tracked.change input f)).entries) : y.serial < h.made := by
  have hcases := onActive_cases h.timeline taskId (Tracked.change input f)
  generalize h.timeline.onActive taskId (Tracked.change input f) = s at hy hcases
  cases hcases with
  | same => exact hh.lt_made y hy
  | missing => exact hh.lt_made y hy
  | @changed pre post x z hactive hentries hid hpost hz =>
    obtain ⟨e, he, rfl⟩ := Option.map_eq_some_iff.1 hz
    have hlt := hh.lt_made
    rw [hentries] at hlt
    rcases List.mem_append.1 hy with hy | hy
    · exact hlt y (List.mem_append_left _ hy)
    rcases List.mem_cons.1 hy with rfl | hy
    · exact hlt x (List.mem_append_right _ List.mem_cons_self)
    · exact hlt y (List.mem_append_right _ (List.mem_cons_of_mem _ hy))

/-- An entry with a new number was made by the operation. -/
theorem made_of_new (hh : Numbered h) (hy : y ∈ (h.step op).timeline.entries) (hnew : h.made ≤ y.serial) :
    Made op y.entry := by
  have hold : ¬ y ∈ h.timeline.entries := fun hmem => absurd hnew (not_le.2 (hh.lt_made y hmem))
  cases hop : op.change h.timeline.activeTaskId with
  | some c =>
    obtain ⟨taskId, input, f⟩ := c
    rw [History.step_eq_onActive hop] at hy
    exact absurd hnew (not_le.2 (serial_lt_of_onActive hh hy))
  | none =>
    cases op with
    | mergeRestoredAudit restored =>
      unfold History.step at hy
      dsimp only at hy
      split at hy
      case isTrue =>
        rcases List.mem_append.1 (mem_mergedEntries.1 (mem_of_mem_takeLast hy)).mem with hmem | hmem
        · exact .restored (mem_restoredEntries hmem).2.1
        · exact absurd hmem hold
      case isFalse => exact absurd hy hold
    | markAuditRecorded taskId now =>
      cases origin_step hy with
      | kept hx => exact absurd hx hold
      | @marked x now hx => exact absurd hnew (not_le.2 (hh.lt_made x hx))
      | added _ hmade =>
        -- a mark makes no number
        have hsame : (h.step (.markAuditRecorded taskId now)).made = h.made := by
          unfold History.step
          dsimp only
          split <;> rfl
        rw [hsame] at hmade
        exact absurd hnew (not_le.2 hmade)
      | changed _ _ hchange => cases hchange
    | start taskId plan =>
      unfold History.step at hy
      dsimp only at hy
      split at hy
      case isTrue => exact absurd hy hold
      case isFalse => exact made_of_mem_add hh hy hnew ▸ .started
    | reject rejectId command summary now executionTarget toolName permission =>
      unfold History.step at hy
      dsimp only at hy
      split at hy
      case isTrue => exact absurd hy hold
      case isFalse => exact made_of_mem_add hh hy hnew ▸ .rejected
    | startLocalModelObservation taskId command statusSummary =>
      unfold History.step at hy
      dsimp only at hy
      split at hy
      case isTrue => exact absurd hy hold
      case isFalse =>
        split at hy
        case isTrue => exact absurd hy hold
        case isFalse => exact made_of_mem_add hh hy hnew ▸ .observing
    | cancelActive now =>
      rw [show h.step (.cancelActive now) = h by simp only [History.step, hop]] at hy
      exact absurd hy hold
    | completeLocalModelObservation | apply | awaitApproval | grantApproval | denyApproval
    | expireApproval => cases hop

end New

/-! ### Logs -/

/-- The log of an entry in a run. -/
inductive Logged [ToolResultContent γ] : List (Op γ) → Tracked γ → List (Change γ) → Prop
  | added {ops : List (Op γ)} {op : Op γ} {x : Tracked γ}
      (hx : x ∈ (track (ops ++ [op])).timeline.entries) (hnew : (track ops).made ≤ x.serial) :
      Logged (ops ++ [op]) x []
  | kept {ops : List (Op γ)} {op : Op γ} {x : Tracked γ} {log : List (Change γ)} (h : Logged ops x log)
      (hx : x ∈ (track (ops ++ [op])).timeline.entries) : Logged (ops ++ [op]) x log
  | marked {ops : List (Op γ)} {op : Op γ} {x : Tracked γ} {log : List (Change γ)} {now : ℤ}
      (h : Logged ops x log) (hx : x.mark now ∈ (track (ops ++ [op])).timeline.entries) :
      Logged (ops ++ [op]) (x.mark now) log
  | changed {ops : List (Op γ)} {op : Op γ} {x : Tracked γ} {log : List (Change γ)} {taskId : UUID}
      {input : Input γ} {f : TaskTimelineEntry γ → Option (TaskTimelineEntry γ)} {e : TaskTimelineEntry γ}
      (h : Logged ops x log) (hactive : (track ops).timeline.activeTaskId = some taskId)
      (hlast : IsLast taskId (track ops).timeline.entries x)
      (hop : op.change (track ops).timeline.activeTaskId = some (taskId, input, f))
      (he : f x.entry = some e) :
      Logged (ops ++ [op]) { x with entry := e, inputs := x.inputs ++ [input] } (log ++ [⟨op, x.entry, e⟩])

section Logs

variable [ToolResultContent γ] {ops : List (Op γ)} {x : Tracked γ} {log : List (Change γ)}

/-- Every entry has a log. -/
theorem exists_logged (ops : List (Op γ)) :
    ∀ x ∈ (track ops).timeline.entries, ∃ log, Logged ops x log := by
  induction ops using List.reverseRecOn with
  | nil => intro x hx; cases hx
  | append_singleton ops op ih =>
    intro x hx
    have hx' := hx
    rw [track_concat] at hx'
    cases origin_step hx' with
    | kept hold =>
      obtain ⟨log, hlog⟩ := ih x hold
      exact ⟨log, .kept hlog hx⟩
    | @marked y now hold =>
      obtain ⟨log, hlog⟩ := ih y hold
      exact ⟨log, .marked hlog hx⟩
    | added hnew => exact ⟨[], .added hx hnew⟩
    | @changed y taskId input f e hactive hlast hop he =>
      obtain ⟨log, hlog⟩ := ih y hlast.mem
      exact ⟨_, .changed hlog hactive hlast hop he⟩

/-- The changes of a log are operations of the run. -/
theorem Logged.op_mem (h : Logged ops x log) : ∀ c ∈ log, c.op ∈ ops := by
  induction h with
  | added => rintro c ⟨⟩
  | kept _ _ ih => exact fun c hc => List.mem_append_left _ (ih c hc)
  | marked _ _ ih => exact fun c hc => List.mem_append_left _ (ih c hc)
  | changed _ _ _ _ _ ih =>
    intro c hc
    rcases List.mem_append.1 hc with hc | hc
    · exact List.mem_append_left _ (ih c hc)
    · rw [List.mem_singleton.1 hc]
      exact List.mem_append_right _ List.mem_cons_self

end Logs

/-! ### What the outcome is read off -/

/-- A record can be made of an entry of this capability. -/
def Recordable (c : ExecutionTarget × Option Str × Option PermissionLevel) : Prop :=
  (capabilityFields c).init = .ok ()

/-- What an entry of a task that needs a confirmation shows of its log. -/
structure Sane (e : TaskTimelineEntry γ) (log : List (Change γ)) : Prop where
  recordable : Recordable e.capability
  granted : e.approvalGranted = true → ∃ c ∈ log, c.Grants
  not_granted : e.approvalGranted = false → ∀ c ∈ log, ¬ c.Grants ∧ ¬ c.Starts
  awaiting : e.phase = .awaitingApproval → e.approvalGranted = false
  cancelled : e.phase = .cancelled →
    e.summary = approvalDeniedSummary ∨ e.summary = approvalCancelledSummary → e.approvalGranted = false
  code : e.HasCode → ∃ c ∈ log, c.Expires ∨ c.Disguised
  expired : e.phase = .failed → e.summary = approvalExpiredSummary → ∃ c ∈ log, c.Expires ∨ c.Disguised

section Sanity

open TaskTimelineEntry

variable {e : TaskTimelineEntry γ} {log : List (Change γ)} {op : Op γ}

/-- A new entry that shows no expiry and no refusal, or has not ended. -/
theorem sane_new (hcapability : Recordable e.capability) (hgranted : e.approvalGranted = false)
    (hcode : ¬ e.HasCode) (hsummary : e.phase = .failed → e.summary ≠ approvalExpiredSummary) :
    Sane e [] where
  recordable := hcapability
  granted h := absurd (h.symm.trans hgranted) (by decide)
  not_granted _ := by rintro c ⟨⟩
  awaiting _ := hgranted
  cancelled _ _ := hgranted
  code h := absurd h hcode
  expired hphase h := absurd h (hsummary hphase)

theorem recordable_of_mem {c : ExecutionTarget × Option Str × Option PermissionLevel}
    (h : c ∈ routedCapabilities) : Recordable c := init_capabilityFields c h

theorem harmless_planRejections : ∀ s ∈ planRejections, Harmless (safeText s) ∧ safeText s = s := by
  unfold planRejections Harmless approvalExpiredSummary approvalExpiredErrorCode
  repeat rw [lit_ofList]
  decide +kernel

/-- A tool with a contract is one that a record may name. -/
theorem filter_toolName_of_contracted {r : AuditFields} (h : r.contracted = true) :
    r.toolName.filter (fun name => name ∈ auditCapabilityContracts.map Prod.fst) = r.toolName := by
  unfold AuditFields.contracted at h
  split at h
  case h_1 hnone => rw [hnone]; rfl
  case h_2 toolName hsome =>
    rw [hsome, Option.filter_some, if_pos]
    have hcontract : (auditContract toolName).isSome := by
      rw [← Option.isSome_map, of_decide_eq_true h]
      rfl
    unfold auditContract at hcontract
    rw [Option.isSome_map, List.find?_isSome] at hcontract
    obtain ⟨row, hrow, hname⟩ := hcontract
    exact decide_eq_true (List.mem_map.2 ⟨row, hrow, of_decide_eq_true hname⟩)

theorem contracted_congr {f g : AuditFields} (htarget : f.executionTarget = g.executionTarget)
    (htool : f.toolName = g.toolName) (hpermission : f.permission = g.permission) :
    f.contracted = g.contracted := by
  cases f
  cases g
  dsimp only at htarget htool hpermission
  subst htarget htool hpermission
  rfl

theorem recordable_toTimelineEntry (r : ClosedTerminalAuditRecord) :
    Recordable (r.toTimelineEntry : TaskTimelineEntry γ).capability := by
  have hadmitted := AuditFields.init_eq_ok_iff.1 r.admitted
  have hpermission : toAuditPermission (toPermissionLevel r.permission) = r.permission := by
    rcases r.permission with _ | p
    · rfl
    · cases p <;> rfl
  have hfilter := filter_toolName_of_contracted hadmitted.contracted
  refine AuditFields.init_eq_ok_iff.2 {
    schemaVersion := rfl
    recordedAt := (by decide : (0 : Int64) < 1)
    protocolVersion := (by decide : goffyProtocolVersion ∈ supportedAuditProtocolVersions)
    executionTarget := hadmitted.executionTarget
    contracted := ?_
    outcome := Or.inr rfl
    eventKinds := Nat.zero_le _ }
  have hsame : AuditFields.contracted (capabilityFields
      (r.toTimelineEntry : TaskTimelineEntry γ).capability) = r.contracted :=
    contracted_congr rfl hfilter hpermission
  exact hsame.trans hadmitted.contracted

/-- What a record says in a timeline is not read as an expiry. -/
theorem not_hasCode_toTimelineEntry (r : ClosedTerminalAuditRecord) :
    ¬ (r.toTimelineEntry : TaskTimelineEntry γ).HasCode := by
  intro hcode
  obtain ⟨event, hmem, hkind, hpre⟩ := hasCode_iff.1 hcode
  obtain ⟨kind, -, rfl⟩ := List.mem_map.1 hmem
  obtain rfl : kind = .error := hkind
  have hharmless : (approvalExpiredErrorCode ++ lit ":").isPrefixOf (lit "Recorded failure step") = false := by
    rw [approvalExpiredErrorCode]
    repeat rw [lit_ofList]
    decide +kernel
  exact absurd (hpre.symm.trans hharmless) (by decide)

theorem displaySummary_ne (phase : TerminalAuditPhase) : phase.displaySummary ≠ approvalExpiredSummary := by
  unfold TerminalAuditPhase.displaySummary approvalExpiredSummary
  cases phase <;> (repeat rw [lit_ofList]) <;> decide +kernel

theorem sane_made (hmade : Made op e) (hissued : Issued op) (hconfirm : e.permission = some .confirm) :
    Sane e [] := by
  cases hmade with
  | restored he =>
    obtain ⟨records, rfl⟩ := hissued
    obtain ⟨r, -, rfl⟩ := List.mem_map.1 he
    exact sane_new (recordable_toTimelineEntry r) rfl (not_hasCode_toTimelineEntry r)
      fun _ => displaySummary_ne r.phase
  | @started taskId plan =>
    refine sane_new (recordable_of_mem (hissued (Option.some.inj hconfirm))) rfl (fun hcode => ?_)
      TaskPhase.noConfusion
    obtain ⟨event, hmem, hkind, -⟩ := hasCode_iff.1 hcode
    rcases List.mem_cons.1 hmem with rfl | hmem
    · cases hkind
    · rw [List.mem_singleton.1 hmem] at hkind
      cases hkind
  | @rejected id command summary now executionTarget toolName permission =>
    obtain ⟨hcapability, hsummary⟩ := hissued hconfirm
    obtain ⟨⟨hne, hpre⟩, hsame⟩ := harmless_planRejections summary hsummary
    refine sane_new (recordable_of_mem hcapability) rfl (fun hcode => ?_) fun _ => hne
    obtain ⟨event, hmem, -, hevent⟩ := hasCode_iff.1 hcode
    obtain rfl := List.mem_singleton.1 hmem
    rw [hsame] at hpre
    rw [hpre] at hevent
    cases hevent
  | observing => cases hconfirm

/-- **A change keeps what the entry shows of its log.** -/
theorem Sane.change {c : Change γ} (h : Sane c.before log) (hc : EntryEffect c)
    (hcapability : c.after.capability = c.before.capability)
    (hconfirm : c.before.permission = some .confirm) : Sane c.after (log ++ [c]) := by
  have hlater : ∀ {p : Change γ → Prop}, (∃ c ∈ log, p c) → ∃ c' ∈ log ++ [c], p c' :=
    fun ⟨c', hmem, hp⟩ => ⟨c', List.mem_append_left _ hmem, hp⟩
  have hnow : ∀ {p : Change γ → Prop}, p c → ∃ c' ∈ log ++ [c], p c' :=
    fun hp => ⟨c, List.mem_append_right _ List.mem_cons_self, hp⟩
  -- an entry without an approval has none in its log, if this change is neither one nor a start
  have hnone : c.before.approvalGranted = false → ¬ c.Grants → ¬ c.Starts →
      ∀ c' ∈ log ++ [c], ¬ c'.Grants ∧ ¬ c'.Starts := by
    intro hgranted hgrants hstarts c' hmem
    rcases List.mem_append.1 hmem with hmem | hmem
    · exact h.not_granted hgranted c' hmem
    · rw [List.mem_singleton.1 hmem]
      exact ⟨hgrants, hstarts⟩
  have hrecordable : Recordable c.after.capability := hcapability ▸ h.recordable
  cases hc with
  | goes hfailed hcancelled hgranted hawaiting hcode hgrants hstarts =>
    exact {
      recordable := hrecordable
      granted := fun hafter => hlater (h.granted (hgranted ▸ hafter))
      not_granted := fun hafter => hnone (hgranted ▸ hafter) hgrants fun hstart =>
        absurd ((hstarts hstart hconfirm).symm.trans (hgranted ▸ hafter)) (by decide)
      awaiting := fun hphase => hgranted.trans (hawaiting hphase)
      cancelled := fun hphase => absurd hphase hcancelled
      code := fun hafter => hlater (h.code (hcode hafter))
      expired := fun hphase => absurd hphase hfailed }
  | grants hgrants hgranted hcode =>
    exact {
      recordable := hrecordable
      granted := fun _ => hnow hgrants
      not_granted := fun hafter => absurd (hgranted.symm.trans hafter) (by decide)
      awaiting := fun hphase => absurd (hgrants.2.symm.trans hphase) (by decide)
      cancelled := fun hphase => absurd (hgrants.2.symm.trans hphase) (by decide)
      code := fun hafter => hlater (h.code (hcode hafter))
      expired := fun hphase => absurd (hgrants.2.symm.trans hphase) (by decide) }
  | cancels hphase hgranted hsummary hcode =>
    exact {
      recordable := hrecordable
      granted := fun hafter => hlater (h.granted (hgranted ▸ hafter))
      not_granted := fun hafter => hnone (hgranted ▸ hafter)
        (fun hgrants => absurd (hphase.symm.trans hgrants.2) (by decide))
        fun hstarts => absurd (hphase.symm.trans hstarts.2) (by decide)
      awaiting := fun hawaiting => absurd (hphase.symm.trans hawaiting) (by decide)
      cancelled := fun _ htext => by
        rcases hsummary with hawaiting | ⟨hdenied, hcancelled⟩
        · exact hgranted.trans (h.awaiting hawaiting)
        · exact absurd htext (not_or.2 ⟨hdenied, hcancelled⟩)
      code := fun hafter => hlater (h.code (hcode hafter))
      expired := fun hfailed => absurd (hphase.symm.trans hfailed) (by decide) }
  | fails hphase hgranted hshows =>
    have hexpired : c.after.ShowsExpired → ∃ c' ∈ log ++ [c], c'.Expires ∨ c'.Disguised := fun hafter =>
      (hshows hafter).elim (fun hcode => hlater (h.code hcode)) fun hthis =>
        ⟨c, List.mem_append_right _ List.mem_cons_self, hthis⟩
    exact {
      recordable := hrecordable
      granted := fun hafter => hlater (h.granted (hgranted ▸ hafter))
      not_granted := fun hafter => hnone (hgranted ▸ hafter)
        (fun hgrants => absurd (hphase.symm.trans hgrants.2) (by decide))
        fun hstarts => absurd (hphase.symm.trans hstarts.2) (by decide)
      awaiting := fun hawaiting => absurd (hphase.symm.trans hawaiting) (by decide)
      cancelled := fun hcancelled => absurd (hphase.symm.trans hcancelled) (by decide)
      code := fun hafter => hexpired (Or.inl hafter)
      expired := fun _ hsummary => hexpired (Or.inr hsummary) }

/-- **Every entry of a task that needs a confirmation is sane.** -/
theorem Logged.sane [ToolResultContent γ] {ops : List (Op γ)} {x : Tracked γ} (h : Logged ops x log)
    (hissued : ∀ op ∈ ops, Issued op) (hconfirm : x.entry.permission = some .confirm) :
    Sane x.entry log := by
  induction h with
  | @added ops op x hx hnew =>
    rw [track_concat] at hx
    exact sane_made (made_of_new (numbered_track ops) hx hnew)
      (hissued op (List.mem_append_right _ List.mem_cons_self)) hconfirm
  | kept _ _ ih => exact ih (fun op hop => hissued op (List.mem_append_left _ hop)) hconfirm
  | marked _ _ ih =>
    have hsane := ih (fun op hop => hissued op (List.mem_append_left _ hop)) hconfirm
    exact ⟨hsane.1, hsane.2, hsane.3, hsane.4, hsane.5, hsane.6, hsane.7⟩
  | @changed ops op x log taskId input f e _ _ _ hop he ih =>
    have hcapability := capability_change hop he
    have hbefore : x.entry.permission = some .confirm :=
      (congrArg (·.2.2) hcapability).symm.trans hconfirm
    exact (ih (fun op hop => hissued op (List.mem_append_left _ hop)) hbefore).change
      (c := ⟨op, x.entry, e⟩) (effect_change hop he) hcapability hbefore

end Sanity

/-! ### The last change -/

section Last

open TaskTimelineEntry

variable [ToolResultContent γ] {ops : List (Op γ)} {x : Tracked γ} {log : List (Change γ)} {op : Op γ}
  {active : Option UUID} {taskId : UUID} {input : Input γ} {before after : TaskTimelineEntry γ}
  {f : TaskTimelineEntry γ → Option (TaskTimelineEntry γ)}

/-- A change of a log is one of its operation. -/
theorem Logged.valid (h : Logged ops x log) : ∀ c ∈ log, ∃ active taskId input f,
    c.op.change active = some (taskId, input, f) ∧ f c.before = some c.after := by
  induction h with
  | added => rintro c ⟨⟩
  | kept _ _ ih => exact ih
  | marked _ _ ih => exact ih
  | changed _ _ _ hop he ih =>
    intro c hc
    rcases List.mem_append.1 hc with hc | hc
    · exact ih c hc
    · rw [List.mem_singleton.1 hc]
      exact ⟨_, _, _, _, hop, he⟩

/-- The change with which an entry ends is its last one, as long as nothing else gets the id of the active
task. -/
theorem Logged.last (h : Logged ops x log) (hops : Undisturbed ops) :
    ∀ c ∈ log, c.after.phase.terminal = true → log.getLast? = some c ∧
      x.entry.phase = c.after.phase ∧ x.entry.summary = c.after.summary ∧
      x.entry.events = c.after.events := by
  induction h with
  | added => rintro c ⟨⟩
  | kept _ _ ih => exact ih hops.of_append
  | marked _ _ ih => exact ih hops.of_append
  | changed _ hactive hlast hop he ih =>
    intro c hc hterminal
    rcases List.mem_append.1 hc with hc | hc
    · -- an entry that has ended is not changed
      have hopen := activeOpen_track hops.of_append _ _ hactive hlast
      obtain ⟨-, hphase, -⟩ := ih hops.of_append c hc hterminal
      exact absurd (hopen.symm.trans ((congrArg TaskPhase.terminal hphase).trans hterminal)) (by decide)
    · rw [List.mem_singleton.1 hc]
      exact ⟨List.getLast?_concat, rfl, rfl, rfl⟩

/-- An expiry ends the task. -/
theorem failed_of_expires (hop : op.change active = some (taskId, input, f)) (he : f before = some after)
    (h : (⟨op, before, after⟩ : Change γ).Expires) : after.phase = .failed := by
  have hstamp : ∀ (e : TaskTimelineEntry γ) now, (e.withTerminalTimestamp now).phase = e.phase :=
    fun e now => congrArg Core.phase (core_withTerminalTimestamp e now)
  rcases h with ⟨t, now, rfl⟩ | ⟨t, message, retryable, now, rfl⟩
  · cases hop
    obtain ⟨e₁, he₁, rfl⟩ := Option.map_eq_some_iff.1 he
    unfold expiredApproval at he₁
    split at he₁
    case isTrue => cases he₁
    case isFalse =>
      obtain rfl := Option.some.inj he₁
      exact hstamp _ _
  · cases hop
    cases he
    exact hstamp _ _

/-- A failure in disguise ends the task, and its entry reads as that of an expired approval. -/
theorem shows_of_disguised (hop : op.change active = some (taskId, input, f)) (he : f before = some after)
    (h : (⟨op, before, after⟩ : Change γ).Disguised) : after.phase = .failed ∧ after.ShowsExpired := by
  cases op with
  | apply t event now =>
    cases hop
    cases he
    obtain ⟨stamp, heq⟩ := withTerminalTimestamp_eq (before.applyEvent event) now
    rw [heq]
    cases event with
    | error code message retryable =>
      refine ⟨rfl, ?_⟩
      rcases h.2 with hsummary | hpre
      · exact Or.inr hsummary
      · exact Or.inl (hasCode_of_newest rfl hpre)
    | verification succeeded summary checks =>
      cases succeeded with
      | true => exact h.elim
      | false =>
        obtain ⟨hphase, hresult, hreads⟩ := h
        have hok : ¬ (before.phase ≠ .completedUnverified ∨ before.result.isNone) := by
          rw [not_or, not_not, Option.isNone_iff_eq_none]
          exact ⟨hphase, Option.isSome_iff_ne_none.1 hresult⟩
        simp only [applyEvent, applyVerification, if_neg hok]
        refine ⟨rfl, ?_⟩
        rcases hreads with hsummary | hpre
        · exact Or.inr hsummary
        · exact Or.inl (hasCode_of_newest rfl hpre)
    | starting | ready | progress | result | unverified => exact h.elim
  | completeLocalModelObservation t observation now =>
    cases hop
    cases he
    obtain ⟨event, hmem, hkind, hpre⟩ := h
    refine ⟨rfl, Or.inl (hasCode_iff.2 ⟨event, ?_, hkind, hpre⟩)⟩
    have hlength : (observationEvents observation).length ≤ maxTaskEvents := by
      cases observation with
      | candidate => exact (by decide : 2 ≤ maxTaskEvents)
      | disabled => exact (by decide : 1 ≤ maxTaskEvents)
      | rejected => exact (by decide : 1 ≤ maxTaskEvents)
    exact mem_takeLast_append hlength hmem
  | mergeRestoredAudit | markAuditRecorded | start | reject | startLocalModelObservation
  | awaitApproval | grantApproval | denyApproval | expireApproval | cancelActive => exact h.elim

end Last

/-! ### Outcomes -/

/-- What the outcome in a record may say of the log of the task. -/
structure OutcomeSound (log : List (Change γ)) (outcome : AuditApprovalOutcome) : Prop where
  refused : outcome = .denied ∨ outcome = .cancelled → ∀ c ∈ log, ¬ c.Grants ∧ ¬ c.Starts
  approved : outcome = .approved → ∃ c ∈ log, c.Grants
  expired : outcome = .expired → ∃ c ∈ log, c.Expires

section Outcomes

open TaskTimelineEntry

variable {e : TaskTimelineEntry γ} {log : List (Change γ)}

/-- How an outcome comes about. -/
inductive OutcomeOf (e : TaskTimelineEntry γ) : AuditApprovalOutcome → Prop
  | expired (hphase : e.phase = .failed) (hshows : e.ShowsExpired) : OutcomeOf e .expired
  | denied (hphase : e.phase = .cancelled) (hsummary : e.summary = approvalDeniedSummary) : OutcomeOf e .denied
  | cancelled (hphase : e.phase = .cancelled) (hsummary : e.summary = approvalCancelledSummary) :
      OutcomeOf e .cancelled
  | approved (hgranted : e.approvalGranted = true) (hshows : ¬ (e.phase = .failed ∧ e.ShowsExpired)) :
      OutcomeOf e .approved
  | unanswered (hgranted : e.approvalGranted = false) (hshows : ¬ (e.phase = .failed ∧ e.ShowsExpired)) :
      OutcomeOf e .cancelled

theorem outcomeOf (hconfirm : e.permission = some .confirm) : OutcomeOf e e.approvalOutcome := by
  unfold approvalOutcome
  rw [if_neg (not_not.2 hconfirm)]
  split
  case isTrue h => exact .expired h.1 (Or.inl h.2)
  case isFalse hcode =>
    split
    case isTrue h => exact .denied h.1 h.2
    case isFalse =>
      split
      case isTrue h => exact .cancelled h.1 h.2
      case isFalse =>
        split
        case isTrue h => exact .expired h.1 (Or.inr h.2)
        case isFalse hsummary =>
          have hshows : ¬ (e.phase = .failed ∧ e.ShowsExpired) := by
            rintro ⟨hphase, hshown | hshown⟩
            · exact hcode ⟨hphase, hshown⟩
            · exact hsummary ⟨hphase, hshown⟩
          cases hgranted : e.approvalGranted with
          | true => exact .approved hgranted hshows
          | false => exact .unanswered hgranted hshows

/-- Without a failure in disguise the outcome is what has happened. -/
theorem Sane.outcomeSound (h : Sane e log) (hconfirm : e.permission = some .confirm)
    (hplain : ∀ c ∈ log, ¬ c.Disguised) : OutcomeSound log e.approvalOutcome := by
  have hexpires : (∃ c ∈ log, c.Expires ∨ c.Disguised) → ∃ c ∈ log, c.Expires := by
    rintro ⟨c, hc, hexpires | hdisguised⟩
    · exact ⟨c, hc, hexpires⟩
    · exact absurd hdisguised (hplain c hc)
  have hrefused : e.approvalGranted = false → ∀ {outcome}, (outcome = .denied ∨ outcome = .cancelled) →
      OutcomeSound log outcome := by
    rintro hgranted outcome houtcome
    refine ⟨fun _ => h.not_granted hgranted, ?_, ?_⟩
    · rintro rfl
      rcases houtcome with houtcome | houtcome <;> cases houtcome
    · rintro rfl
      rcases houtcome with houtcome | houtcome <;> cases houtcome
  have houtcome := outcomeOf hconfirm
  generalize e.approvalOutcome = outcome at houtcome ⊢
  cases houtcome with
  | expired hphase hshows =>
    exact {
      refused := by rintro (h | h) <;> cases h
      approved := nofun
      expired := fun _ => hexpires (hshows.elim h.code (h.expired hphase)) }
  | denied hphase hsummary => exact hrefused (h.cancelled hphase (Or.inl hsummary)) (Or.inl rfl)
  | cancelled hphase hsummary => exact hrefused (h.cancelled hphase (Or.inr hsummary)) (Or.inr rfl)
  | approved hgranted =>
    exact {
      refused := by rintro (h | h) <;> cases h
      approved := fun _ => h.granted hgranted
      expired := nofun }
  | unanswered hgranted => exact hrefused hgranted (Or.inr rfl)

/-- A failure in disguise is recorded as an expiry. -/
theorem Logged.not_disguised [ToolResultContent γ] {ops : List (Op γ)} {x : Tracked γ}
    (h : Logged ops x log) (hops : Undisturbed ops) (hconfirm : x.entry.permission = some .confirm)
    (hsound : OutcomeSound log x.entry.approvalOutcome) : ∀ c ∈ log, ¬ c.Disguised := by
  intro c hc hdisguised
  obtain ⟨_, _, _, _, hop, he⟩ := h.valid c hc
  obtain ⟨hfailed, hshows⟩ := shows_of_disguised hop he hdisguised
  obtain ⟨hlast, hphase, hsummary, hevents⟩ := h.last hops c hc (by rw [hfailed]; rfl)
  have hshown : x.entry.ShowsExpired := by
    rcases hshows with hcode | htext
    · obtain ⟨event, hmem, hevent⟩ := hasCode_iff.1 hcode
      exact Or.inl (hasCode_iff.2 ⟨event, hevents ▸ hmem, hevent⟩)
    · exact Or.inr (hsummary.trans htext)
  have houtcome : x.entry.approvalOutcome = .expired := by
    have hcases := outcomeOf hconfirm
    generalize x.entry.approvalOutcome = outcome at hcases ⊢
    cases hcases with
    | expired => rfl
    | denied hcancelled | cancelled hcancelled =>
      exact absurd (hcancelled.symm.trans (hphase.trans hfailed)) (by decide)
    | approved _ hnot | unanswered _ hnot => exact absurd ⟨hphase.trans hfailed, hshown⟩ hnot
  -- an expiry would be the last change too
  obtain ⟨c', hc', hexpires⟩ := hsound.expired houtcome
  obtain ⟨_, _, _, _, hop', he'⟩ := h.valid c' hc'
  have hlast' := (h.last hops c' hc' (by rw [failed_of_expires hop' he' hexpires]; rfl)).1
  obtain rfl := Option.some.inj (hlast.symm.trans hlast')
  unfold Change.Disguised at hdisguised
  rcases hexpires with ⟨_, _, heq⟩ | ⟨_, _, _, _, heq⟩
  · rw [heq] at hdisguised
    exact hdisguised
  · rw [heq] at hdisguised
    exact hdisguised.1 rfl

/-- **Approval outcomes.** In every run of operations as the view model issues them, a task that needed a
confirmation and has ended makes a record, and the outcome in the record is what has happened to the
approval, if none of the changes of the task is a failure in disguise; and only then. -/
theorem approvalOutcome_sound [ToolResultContent γ] {ops : List (Op γ)} (hissued : ∀ op ∈ ops, Issued op) :
    ∀ e ∈ (runOps ops).entries, e.phase.terminal = true → e.permission = some .confirm →
      ∃ x ∈ (track ops).timeline.entries, x.entry = e ∧ (∃ log, Logged ops x log) ∧
        ∀ log, Logged ops x log → ∀ t : Int64, 0 < t → ∃ record,
          e.toClosedTerminalAuditRecord t = .ok (some record) ∧
          ((∀ c ∈ log, ¬ c.Disguised) → OutcomeSound log record.approvalOutcome) ∧
          (Undisturbed ops → OutcomeSound log record.approvalOutcome → ∀ c ∈ log, ¬ c.Disguised) := by
  intro e he hended hconfirm
  rw [← project_track] at he
  obtain ⟨x, hx, rfl⟩ := List.mem_map.1 he
  refine ⟨x, hx, rfl, exists_logged ops x hx, fun log hlog t ht => ?_⟩
  have hsane := hlog.sane hissued hconfirm
  obtain ⟨record, hrecord, -, houtcome⟩ := exists_record hsane.recordable hended ht
  refine ⟨record, hrecord, fun hplain => ?_, fun hops hsound => ?_⟩
  · rw [houtcome]
    exact hsane.outcomeSound hconfirm hplain
  · exact hlog.not_disguised hops hconfirm (houtcome ▸ hsound)

end Outcomes

section Example

/-- A plan that opens an app. -/
def openAppPlan : GoffyExecutionPlan :=
  ⟨lit "open Notes", .mac, lit "mac.apps.open", .confirm, .macAppsOpen (lit "Notes")⟩

/-- A task that is approved and then fails with an error of the Hub. -/
def openAppRun (code message : String) : List (Op ContentType) :=
  [.start 1 openAppPlan, .awaitApproval 1 (lit "Approve opening Notes") 1000, .grantApproval 1 2000,
    .apply 1 (.starting 1) 2000, .apply 1 .ready 2000,
    .apply 1 (.error (lit code) (lit message) false) 3000]

theorem issued_openAppRun (code message : String) : ∀ op ∈ openAppRun code message, Issued op := by
  intro op hop
  simp only [openAppRun, List.mem_cons, List.not_mem_nil, or_false] at hop
  rcases hop with rfl | rfl | rfl | rfl | rfl | rfl
  · exact fun _ => by decide +kernel
  all_goals trivial

/-- The error `approval_expired` is recorded as what it is. -/
theorem expired_error_is_recorded : ∃ e ∈ (runOps (openAppRun "approval_expired" "Too late")).entries,
    ∃ (x : Tracked ContentType) (log : List (Change ContentType)) (record : ClosedTerminalAuditRecord),
      Logged (openAppRun "approval_expired" "Too late") x log ∧
      e.toClosedTerminalAuditRecord 4000 = .ok (some record) ∧
      OutcomeSound log record.approvalOutcome := by
  obtain ⟨e, he, hended, hconfirm⟩ : ∃ e ∈ (runOps (openAppRun "approval_expired" "Too late")).entries,
      e.phase.terminal = true ∧ e.permission = some .confirm := by decide +kernel
  obtain ⟨x, -, -, ⟨log, hlog⟩, hall⟩ :=
    approvalOutcome_sound (issued_openAppRun "approval_expired" "Too late") e he hended hconfirm
  obtain ⟨record, hrecord, hsound, -⟩ := hall log hlog 4000 (by decide)
  refine ⟨e, he, x, log, record, hlog, hrecord, hsound fun c hc hdisguised => ?_⟩
  have hop := hlog.op_mem c hc
  unfold Change.Disguised at hdisguised
  simp only [openAppRun, List.mem_cons, List.not_mem_nil, or_false] at hop
  rcases hop with hop | hop | hop | hop | hop | hop <;> rw [hop] at hdisguised
  case inr.inr.inr.inr.inr => exact hdisguised.1 rfl
  all_goals exact hdisguised

/-- The Hub sends an error of another kind with the text of an expired approval. -/
theorem error_text_reads_expired : ¬ ∀ ops : List (Op ContentType), (∀ op ∈ ops, Issued op) →
    ∀ x ∈ (track ops).timeline.entries, x.entry.phase.terminal = true →
      x.entry.permission = some .confirm → ∀ log, Logged ops x log → ∀ t : Int64, 0 < t → ∀ record,
        x.entry.toClosedTerminalAuditRecord t = .ok (some record) →
        OutcomeSound log record.approvalOutcome := by
  intro h
  obtain ⟨x, hx, hended, hconfirm, houtcome, hcapability⟩ :
      ∃ x ∈ (track (openAppRun "tool_failed" "Approval expired; no tool was invoked")).timeline.entries,
        x.entry.phase.terminal = true ∧ x.entry.permission = some .confirm ∧
        x.entry.approvalOutcome = .expired ∧ (capabilityFields x.entry.capability).init = .ok () := by
    decide +kernel
  obtain ⟨log, hlog⟩ := exists_logged _ x hx
  obtain ⟨record, hrecord, -, hsame⟩ := exists_record (t := 4000) hcapability hended (by decide)
  have hsound := h _ (issued_openAppRun _ _) x hx hended hconfirm log hlog 4000 (by decide) record hrecord
  obtain ⟨c, hc, hexpires⟩ := hsound.expired (hsame.trans houtcome)
  have hop := hlog.op_mem c hc
  simp only [openAppRun, List.mem_cons, List.not_mem_nil, or_false] at hop
  rcases hexpires with ⟨_, _, hexpires⟩ | ⟨_, _, _, _, hexpires⟩
  · rw [hexpires] at hop
    rcases hop with hop | hop | hop | hop | hop | hop <;> cases hop
  · rw [hexpires] at hop
    rcases hop with hop | hop | hop | hop | hop | hop
    case inr.inr.inr.inr.inr =>
      injection hop with _ hevent
      injection hevent with hcode
      exact absurd hcode (by decide +kernel)
    all_goals cases hop

end Example

end GoffyPhone
