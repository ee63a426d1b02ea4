import GoffyOs.Phone.HubLink
import Mathlib.Data.List.Induction

/-!
# Runs of the Hub link
-/

namespace GoffyPhone.HubLink

open Kotlin
open Python (UUID)
open Machine

/-! ### What a coroutine can do in one step -/

/-- The revision under which a coroutine may establish a link. -/
def LinkTask.revision : LinkTask → Option ℕ
  | .restoreHubCredential r | .pairHub r _ | .rotateHubCredential r _ _ => some r
  | .forgetHub _ _ | .cancelForegroundPairing _ => none

def LinkTask.isForget : LinkTask → Bool
  | .forgetHub _ _ => true
  | _ => false

/-- The job that has changed the store or the keystore. -/
def Event.job : Event → Option ℕ
  | .keyCreated j | .saved j _ | .cleared j | .keyDeleted j => some j
  | .restored _ | .paired _ _ | .rotated _ _ | .forgot _ | .revoked _ => none

/-- The credential that is the link from now on. -/
def Event.credential : Event → Option StoredHubCredential
  | .restored c | .paired _ c | .rotated _ c => some c
  | .keyCreated _ | .saved _ _ | .cleared _ | .keyDeleted _ | .forgot _ | .revoked _ => none

/-- The coroutine of this task establishes its link. -/
def Event.isLinkOf : LinkTask → Event → Bool
  | .restoreHubCredential _, .restored _ => true
  | .pairHub _ _, .paired _ _ => true
  | _, _ => false

namespace GoffyViewModel

/-- Everything that a paired link consists of is there. -/
def Configured (vm : GoffyViewModel) : Prop :=
  vm.hubConfig.isSome ∧ vm.pairedCredentialId.isSome ∧ vm.pairedCredentialCreatedAt.isSome ∧
    vm.pairedHubIdentity.isSome

/-- The link is given by this credential. -/
structure LinkedBy (vm : GoffyViewModel) (c : StoredHubCredential) : Prop where
  hubConfig : vm.hubConfig = some c.toHubConfig
  credentialId : vm.pairedCredentialId = some c.credentialId
  createdAt : vm.pairedCredentialCreatedAt = some c.createdAt
  hubIdentity : vm.pairedHubIdentity = some c.hubIdentity

theorem LinkedBy.configured {vm : GoffyViewModel} {c : StoredHubCredential} (h : vm.LinkedBy c) :
    vm.Configured := by
  unfold Configured
  rw [h.hubConfig, h.credentialId, h.createdAt, h.hubIdentity]
  exact ⟨rfl, rfl, rfl, rfl⟩

/-- The link is as it was before. -/
structure SameLink (vm vm' : GoffyViewModel) : Prop where
  hubConfig : vm'.hubConfig = vm.hubConfig
  credentialId : vm'.pairedCredentialId = vm.pairedCredentialId
  createdAt : vm'.pairedCredentialCreatedAt = vm.pairedCredentialCreatedAt
  hubIdentity : vm'.pairedHubIdentity = vm.pairedHubIdentity

theorem SameLink.configured {vm vm' : GoffyViewModel} (h : SameLink vm vm') (hvm : vm.Configured) :
    vm'.Configured := by
  unfold Configured at hvm ⊢
  rwa [h.hubConfig, h.credentialId, h.createdAt, h.hubIdentity]

/-- What a call to the Hub would use is as it was, or a coroutine with this task has given it up
under the current revision. -/
def GivesUp (vm : GoffyViewModel) (task : LinkTask) (vm' : GoffyViewModel) : Prop :=
  (vm'.hubConfig = vm.hubConfig ∧ vm'.pairedCredentialId = vm.pairedCredentialId) ∨
    (vm'.hubConfig = none ∧ vm'.pairedCredentialId = none ∧ task.revision = some vm.linkRevision)

/-- The notice that is shown, if any, is a warning. -/
def OnlyWarns (ui : GoffyUiState) : Prop := ∀ n, ui.linkNotice = some n → n.warning = true

end GoffyViewModel

open HubLink.GoffyViewModel

variable {vm vm' : GoffyViewModel} {j : ℕ} {task : LinkTask} {point : LinkPoint}
  {outcome : Outcome} {out : List Event}

/-- A coroutine goes on to another point. What happened is its own doing. -/
structure Moved (vm : GoffyViewModel) (j : ℕ) (vm' : GoffyViewModel) (out : List Event) : Prop where
  jobs : ∃ point, vm'.jobs = vm.jobs.move j point
  revision : vm'.linkRevision = vm.linkRevision
  linkJob : vm'.linkJob = vm.linkJob
  ui : vm'.uiState = vm.uiState
  out_local : ∀ e ∈ out, e.job = some j

/-- No link, and nothing in progress. -/
def Unlinked (ui : GoffyUiState) : Prop :=
  ui.hubLinkState = .unpaired ∨ ui.hubLinkState = .degraded

theorem Unlinked.not_paired {ui : GoffyUiState} (h : Unlinked ui) : ui.hubLinkState ≠ .paired := by
  rcases h with h | h <;> simp [h]

/-- What one step of a coroutine does to the jobs, to the UI state and to the link. -/
inductive Resumed (vm : GoffyViewModel) (j : ℕ) (task : LinkTask) :
    GoffyViewModel → List Event → Prop
  /-- The coroutine goes on. It gives up the link only under the current revision. -/
  | moved {vm' : GoffyViewModel} {out : List Event} (moved : Moved vm j vm' out)
      (link : SameLink vm vm' ∨
        vm'.hubConfig = none ∧ vm'.pairedCredentialId = none ∧ task.revision = some vm.linkRevision) :
      Resumed vm j task vm' out
  /-- It ends without a word, being too late if it is one that may establish a link. -/
  | left {vm' : GoffyViewModel} (jobs : vm'.jobs = vm.jobs.finish j)
      (revision : vm'.linkRevision = vm.linkRevision) (ui : vm'.uiState = vm.uiState)
      (link : SameLink vm vm') (stale : task.revision ≠ some vm.linkRevision) :
      Resumed vm j task vm' []
  /-- It ends without a link, and says nothing or warns. -/
  | failed {vm' : GoffyViewModel} (jobs : vm'.jobs = vm.jobs.finish j)
      (revision : vm'.linkRevision = vm.linkRevision) (state : Unlinked vm'.uiState)
      (notice : OnlyWarns vm'.uiState) (link : GivesUp vm task vm') : Resumed vm j task vm' []
  /-- It ends with a new link. -/
  | linked {vm' : GoffyViewModel} {e : Event} {c : StoredHubCredential}
      (jobs : vm'.jobs = vm.jobs.finish j) (revision : vm'.linkRevision = vm.linkRevision)
      (state : vm'.uiState.hubLinkState = .paired) (link : vm'.LinkedBy c)
      (current : task.revision = some vm.linkRevision) (event : e.isLinkOf task = true)
      (credential : e.credential = some c) : Resumed vm j task vm' [e]
  /-- It ends with a new token for the link. -/
  | rotated {vm' : GoffyViewModel} {c : StoredHubCredential} {r : ℕ} {previous : Option ℕ}
      {rotation : Rotation} (jobs : vm'.jobs = vm.jobs.finish j)
      (revision : vm'.linkRevision = vm.linkRevision) (link : vm'.LinkedBy c)
      (isRotation : task = .rotateHubCredential r previous rotation)
      (current : r = vm.linkRevision) : Resumed vm j task vm' [.rotated j c]
  /-- The link is forgotten, and there was nothing to revoke. -/
  | forgotten {vm' : GoffyViewModel} {previous : Option ℕ} (jobs : vm'.jobs = vm.jobs.finish j)
      (revision : vm'.linkRevision = vm.linkRevision) (state : Unlinked vm'.uiState)
      (link : SameLink vm vm') (isForget : task = .forgetHub previous none) :
      Resumed vm j task vm' []
  /-- The link is forgotten and revoked. -/
  | revoked {vm' : GoffyViewModel} {previous : Option ℕ} {config : HubConfig} {id : UUID}
      (jobs : vm'.jobs = vm.jobs.finish j) (revision : vm'.linkRevision = vm.linkRevision)
      (state : Unlinked vm'.uiState) (link : SameLink vm vm')
      (isForget : task = .forgetHub previous (some (config, id))) :
      Resumed vm j task vm' [.revoked id]

theorem moved_clearLocalHubAuthority
    (h : vm.clearLocalHubAuthority j point outcome = some (vm', out)) : Moved vm j vm' out := by
  unfold clearLocalHubAuthority at h
  split at h <;> simp only [Option.some.injEq, Prod.mk.injEq, reduceCtorEq] at h <;>
    obtain ⟨rfl, rfl⟩ := h
  all_goals
    refine ⟨⟨_, rfl⟩, rfl, rfl, rfl, fun e he => ?_⟩
    simp at he
    simp [he, Event.job]

theorem moved_save {candidate : StoredHubCredential}
    (h : vm.save j candidate outcome = some (vm', out)) : Moved vm j vm' out := by
  unfold save at h
  split at h <;> simp only [Option.some.injEq, Prod.mk.injEq, reduceCtorEq] at h <;>
    obtain ⟨rfl, rfl⟩ := h
  · refine ⟨⟨_, rfl⟩, rfl, rfl, rfl, fun e he => ?_⟩
    rw [List.mem_singleton.1 he]
    simp [Event.job]
  · exact ⟨⟨_, rfl⟩, rfl, rfl, rfl, by simp⟩

theorem sameLink_clearLocalHubAuthority
    (h : vm.clearLocalHubAuthority j point outcome = some (vm', out)) : SameLink vm vm' := by
  unfold clearLocalHubAuthority at h
  split at h <;> simp only [Option.some.injEq, Prod.mk.injEq, reduceCtorEq] at h <;>
    obtain ⟨rfl, rfl⟩ := h <;> exact ⟨rfl, rfl, rfl, rfl⟩

theorem sameLink_save {candidate : StoredHubCredential}
    (h : vm.save j candidate outcome = some (vm', out)) : SameLink vm vm' := by
  unfold save at h
  split at h <;> simp only [Option.some.injEq, Prod.mk.injEq, reduceCtorEq] at h <;>
    obtain ⟨rfl, rfl⟩ := h <;> exact ⟨rfl, rfl, rfl, rfl⟩

theorem resumed_clearLocalHubAuthority
    (h : vm.clearLocalHubAuthority j point outcome = some (vm', out)) :
    Resumed vm j task vm' out :=
  .moved (moved_clearLocalHubAuthority h) (Or.inl (sameLink_clearLocalHubAuthority h))

theorem resumed_save {candidate : StoredHubCredential}
    (h : vm.save j candidate outcome = some (vm', out)) : Resumed vm j task vm' out :=
  .moved (moved_save h) (Or.inl (sameLink_save h))

/-- The job goes on on the main thread. -/
theorem resumed_move (vm : GoffyViewModel) (j : ℕ) (task : LinkTask) (point : LinkPoint) :
    Resumed vm j task (vm.move j point) [] :=
  .moved ⟨⟨_, rfl⟩, rfl, rfl, rfl, by simp⟩ (Or.inl ⟨rfl, rfl, rfl, rfl⟩)

theorem resumed_restoreFailed (vm vm₁ : GoffyViewModel) (hjobs : vm₁.jobs = vm.jobs)
    (hrevision : vm₁.linkRevision = vm.linkRevision) (hlink : GivesUp vm task vm₁)
    (message : String) : Resumed vm j task (vm₁.restoreFailed j message) [] := by
  refine .failed ?_ hrevision (Or.inr rfl) ?_ hlink
  · simp only [restoreFailed, setUi, finish, hjobs]
  · intro n hn
    simp [restoreFailed, setUi, finish, GoffyUiState.hubRestoreFailed] at hn

/-- A coroutine that finds another revision than its own ends. -/
theorem resumed_left {revision : ℕ} (htask : task.revision = some revision)
    (hrevision : revision ≠ vm.linkRevision) : Resumed vm j task (vm.finish j) [] :=
  .left rfl rfl rfl ⟨rfl, rfl, rfl, rfl⟩ fun h => hrevision (Option.some.inj (htask.symm.trans h))

theorem resumed_restoreHubCredential {revision : ℕ}
    (h : vm.resumeRestore j revision point outcome = some (vm', out)) :
    Resumed vm j (.restoreHubCredential revision) vm' out := by
  unfold resumeRestore at h
  split at h
  · simp only [Option.some.injEq, Prod.mk.injEq] at h
    obtain ⟨rfl, rfl⟩ := h
    exact resumed_move _ _ _ _
  · split at h <;> simp only [Option.some.injEq, Prod.mk.injEq, reduceCtorEq] at h
    obtain ⟨rfl, rfl⟩ := h
    exact .moved ⟨⟨_, rfl⟩, rfl, rfl, rfl, by simp⟩ (Or.inl ⟨rfl, rfl, rfl, rfl⟩)
  · simp only [Option.some.injEq, Prod.mk.injEq] at h
    obtain ⟨rfl, rfl⟩ := h
    exact resumed_move _ _ _ _
  · split at h
    case isTrue hrevision =>
      simp only [Option.some.injEq, Prod.mk.injEq] at h
      obtain ⟨rfl, rfl⟩ := h
      exact resumed_left rfl hrevision
    case isFalse hrevision =>
      have hcurrent : revision = vm.linkRevision := not_not.1 hrevision
      subst hcurrent
      unfold restoreLoaded at h
      split at h <;> simp only [Option.some.injEq, Prod.mk.injEq, reduceCtorEq] at h <;>
        obtain ⟨rfl, rfl⟩ := h
      · exact resumed_restoreFailed vm vm rfl rfl (Or.inl ⟨rfl, rfl⟩) _
      · exact .failed rfl rfl (Or.inl rfl)
          (fun n hn => by simp [finish, GoffyUiState.hubRestoreEmpty] at hn) (Or.inl ⟨rfl, rfl⟩)
      · exact resumed_restoreFailed vm vm.clearLink rfl rfl (Or.inr ⟨rfl, rfl, rfl⟩) _
      · exact .linked rfl rfl rfl ⟨rfl, rfl, rfl, rfl⟩ rfl rfl rfl
      · exact .moved ⟨⟨_, rfl⟩, rfl, rfl, rfl, by simp⟩ (Or.inr ⟨rfl, rfl, rfl⟩)
  · simp only [Option.some.injEq, Prod.mk.injEq] at h
    obtain ⟨rfl, rfl⟩ := h
    exact resumed_restoreFailed vm vm rfl rfl (Or.inl ⟨rfl, rfl⟩) _
  · exact resumed_clearLocalHubAuthority h

theorem resumed_pairIssued {endpoint : Str} {issued : IssuedHubCredential} :
    Resumed vm j task (vm.pairIssued j endpoint issued) [] := by
  unfold pairIssued
  split <;> exact resumed_move _ _ _ _

theorem resumed_pairSaved {revision : ℕ} {endpoint : Str} {persisted : Option StoredHubCredential}
    (h : vm.pairSaved j revision persisted outcome = some (vm', out)) :
    Resumed vm j (.pairHub revision endpoint) vm' out := by
  unfold pairSaved at h
  split at h
  · simp only [Option.some.injEq, Prod.mk.injEq] at h
    obtain ⟨rfl, rfl⟩ := h
    exact resumed_move _ _ _ _
  · split at h
    case isTrue hrevision =>
      simp only [Option.some.injEq, Prod.mk.injEq] at h
      obtain ⟨rfl, rfl⟩ := h
      exact resumed_left rfl hrevision
    case isFalse hrevision =>
      have hcurrent : revision = vm.linkRevision := not_not.1 hrevision
      subst hcurrent
      split at h <;> simp only [Option.some.injEq, Prod.mk.injEq, reduceCtorEq] at h <;>
        obtain ⟨rfl, rfl⟩ := h
      · exact .linked rfl rfl rfl ⟨rfl, rfl, rfl, rfl⟩ rfl rfl rfl
      · exact resumed_move _ _ _ _
  · cases h

theorem resumed_pairCleared {revision : ℕ} {rejected : Option Str}
    (htask : task.revision = some revision) :
    Resumed vm j task (vm.pairCleared j revision rejected) [] := by
  unfold pairCleared
  split
  case isTrue hrevision => exact resumed_left htask hrevision
  case isFalse hrevision =>
    rw [not_not.1 hrevision] at htask
    split
    · exact .failed rfl rfl (Or.inl rfl)
        (fun n hn => by simp [setUi, finish, GoffyUiState.hubPairingRejected] at hn)
        (Or.inl ⟨rfl, rfl⟩)
    · exact resumed_restoreFailed vm vm.clearLink rfl rfl (Or.inr ⟨rfl, rfl, htask⟩) _

theorem resumed_pairHub {revision : ℕ} {endpoint : Str}
    (h : vm.resumePair j revision endpoint point outcome = some (vm', out)) :
    Resumed vm j (.pairHub revision endpoint) vm' out := by
  unfold resumePair at h
  split at h
  · simp only [Option.some.injEq, Prod.mk.injEq] at h
    obtain ⟨rfl, rfl⟩ := h
    exact .moved ⟨⟨_, rfl⟩, rfl, rfl, rfl, by simp [Event.job]⟩ (Or.inl ⟨rfl, rfl, rfl, rfl⟩)
  · simp only [Option.some.injEq, Prod.mk.injEq] at h
    obtain ⟨rfl, rfl⟩ := h
    refine .moved ⟨⟨_, rfl⟩, rfl, rfl, rfl, fun e he => ?_⟩ (Or.inl ⟨rfl, rfl, rfl, rfl⟩)
    simp at he
    simp [he, Event.job]
  · simp only [Option.some.injEq, Prod.mk.injEq] at h
    obtain ⟨rfl, rfl⟩ := h
    exact resumed_pairIssued
  · simp only [Option.some.injEq, Prod.mk.injEq] at h
    obtain ⟨rfl, rfl⟩ := h
    exact resumed_move _ _ _ _
  · simp only [Option.some.injEq, Prod.mk.injEq] at h
    obtain ⟨rfl, rfl⟩ := h
    exact resumed_move _ _ _ _
  · exact resumed_save h
  · exact resumed_pairSaved h
  · simp only [Option.some.injEq, Prod.mk.injEq] at h
    obtain ⟨rfl, rfl⟩ := h
    exact resumed_pairCleared rfl
  · exact resumed_clearLocalHubAuthority h

theorem unlinked_forgotten (vm : GoffyViewModel) (j : ℕ) (cleared : Bool)
    (verified : Option Bool) : Unlinked (vm.forgotten j cleared verified).uiState := by
  unfold forgotten
  cases cleared <;> rcases verified with _ | _ | _ <;>
    first | exact Or.inl rfl | exact Or.inr rfl

/-- A revocation that failed is never passed over in silence. -/
theorem onlyWarns_forgotten (cleared : Bool) :
    OnlyWarns (vm.forgotten j cleared (some false)).uiState := by
  intro n hn
  cases cleared
  · simp [forgotten, setUi, finish, GoffyUiState.hubForgetVerificationFailed] at hn
  · simp only [forgotten, setUi, finish, GoffyUiState.forgetHub, Option.some.injEq] at hn
    rw [← hn]
    rfl

theorem resumed_forgetHub {previous : Option ℕ} {revocation : Option (HubConfig × UUID)}
    (h : vm.resumeForget j previous revocation point outcome = some (vm', out)) :
    Resumed vm j (.forgetHub previous revocation) vm' out := by
  unfold resumeForget at h
  split at h
  · split at h <;> simp only [Option.some.injEq, Prod.mk.injEq, reduceCtorEq] at h
    obtain ⟨rfl, rfl⟩ := h
    exact resumed_move _ _ _ _
  · split at h <;> simp only [Option.some.injEq, Prod.mk.injEq] at h <;> obtain ⟨rfl, rfl⟩ := h
    · exact .forgotten rfl rfl (unlinked_forgotten _ _ _ _) ⟨rfl, rfl, rfl, rfl⟩ rfl
    · exact resumed_move _ _ _ _
  · split at h <;> simp only [Option.some.injEq, Prod.mk.injEq, reduceCtorEq] at h <;>
      obtain ⟨rfl, rfl⟩ := h
    · exact .revoked rfl rfl (unlinked_forgotten _ _ _ _) ⟨rfl, rfl, rfl, rfl⟩ rfl
    · exact .failed rfl rfl (unlinked_forgotten _ _ _ _) (onlyWarns_forgotten _) (Or.inl ⟨rfl, rfl⟩)
    · exact .failed rfl rfl (unlinked_forgotten _ _ _ _) (onlyWarns_forgotten _) (Or.inl ⟨rfl, rfl⟩)
  · exact resumed_clearLocalHubAuthority h

theorem resumed_rotationFailed {revision : ℕ} (htask : task.revision = some revision) :
    Resumed vm j task (vm.rotationFailed j revision) [] := by
  unfold rotationFailed
  split
  case isTrue hcurrent =>
    subst hcurrent
    exact .moved ⟨⟨_, rfl⟩, rfl, rfl, rfl, by simp⟩ (Or.inr ⟨rfl, rfl, htask⟩)
  case isFalse hrevision => exact resumed_left htask hrevision

theorem resumed_rotateIssued {revision : ℕ} {rotation : Rotation} {rotated : RotatedHubCredential}
    (htask : task.revision = some revision) :
    Resumed vm j task (vm.rotateIssued j revision rotation rotated) [] := by
  unfold rotateIssued
  split
  · exact resumed_move _ _ _ _
  · exact resumed_rotationFailed htask

theorem resumed_rotateSaved {revision : ℕ} {previous : Option ℕ} {rotation : Rotation}
    {persisted : Option StoredHubCredential}
    (h : vm.rotateSaved j revision persisted outcome = some (vm', out)) :
    Resumed vm j (.rotateHubCredential revision previous rotation) vm' out := by
  unfold rotateSaved at h
  split at h
  · simp only [Option.some.injEq, Prod.mk.injEq] at h
    obtain ⟨rfl, rfl⟩ := h
    exact resumed_rotationFailed rfl
  · split at h
    case isTrue hrevision =>
      simp only [Option.some.injEq, Prod.mk.injEq] at h
      obtain ⟨rfl, rfl⟩ := h
      exact resumed_left rfl hrevision
    case isFalse hrevision =>
      split at h <;> simp only [Option.some.injEq, Prod.mk.injEq, reduceCtorEq] at h <;>
        obtain ⟨rfl, rfl⟩ := h
      · exact .rotated rfl rfl ⟨rfl, rfl, rfl, rfl⟩ rfl (not_not.1 hrevision)
      · exact resumed_rotationFailed rfl
  · cases h

theorem resumed_rotateHubCredential {revision : ℕ} {previous : Option ℕ} {rotation : Rotation}
    (h : vm.resumeRotate j revision previous rotation point outcome = some (vm', out)) :
    Resumed vm j (.rotateHubCredential revision previous rotation) vm' out := by
  unfold resumeRotate at h
  split at h
  · split at h <;> simp only [Option.some.injEq, Prod.mk.injEq, reduceCtorEq] at h
    obtain ⟨rfl, rfl⟩ := h
    exact resumed_move _ _ _ _
  · simp only [Option.some.injEq, Prod.mk.injEq] at h
    obtain ⟨rfl, rfl⟩ := h
    exact resumed_rotateIssued rfl
  · simp only [Option.some.injEq, Prod.mk.injEq] at h
    obtain ⟨rfl, rfl⟩ := h
    exact resumed_rotationFailed rfl
  · simp only [Option.some.injEq, Prod.mk.injEq] at h
    obtain ⟨rfl, rfl⟩ := h
    exact resumed_rotationFailed rfl
  · exact resumed_save h
  · exact resumed_rotateSaved h
  · simp only [Option.some.injEq, Prod.mk.injEq] at h
    obtain ⟨rfl, rfl⟩ := h
    exact .failed rfl rfl (Or.inr rfl)
      (fun n hn => by simp [setUi, finish, GoffyUiState.hubRotationFailed] at hn)
      (Or.inl ⟨rfl, rfl⟩)
  · exact resumed_clearLocalHubAuthority h

theorem resumed_cancelForegroundPairing {enrollment : Option ℕ}
    (h : vm.resumeCleanUp j enrollment point outcome = some (vm', out)) :
    Resumed vm j (.cancelForegroundPairing enrollment) vm' out := by
  unfold resumeCleanUp at h
  split at h
  · split at h <;> simp only [Option.some.injEq, Prod.mk.injEq, reduceCtorEq] at h
    obtain ⟨rfl, rfl⟩ := h
    exact resumed_move _ _ _ _
  · simp only [Option.some.injEq, Prod.mk.injEq] at h
    obtain ⟨rfl, rfl⟩ := h
    split
    · exact .left rfl rfl rfl ⟨rfl, rfl, rfl, rfl⟩ (by simp [LinkTask.revision])
    · exact resumed_restoreFailed vm vm rfl rfl (Or.inl ⟨rfl, rfl⟩) _
  · exact resumed_clearLocalHubAuthority h

/-- Every coroutine goes on in one of these ways. -/
theorem resumed_of_resume (h : vm.resume j point outcome task = some (vm', out)) :
    Resumed vm j task vm' out := by
  cases task with
  | restoreHubCredential revision => exact resumed_restoreHubCredential h
  | pairHub revision endpoint => exact resumed_pairHub h
  | forgetHub previous revocation => exact resumed_forgetHub h
  | rotateHubCredential revision previous rotation => exact resumed_rotateHubCredential h
  | cancelForegroundPairing enrollment => exact resumed_cancelForegroundPairing h

/-! ### Which coroutines can run together -/

/-- The revisions of the running coroutines: none is ahead, and each has its own. -/
structure OwnRevisions (jobs : Jobs LinkTask LinkPoint) (n : ℕ) : Prop where
  le : ∀ {i task r}, jobs.task i = some task → task.revision = some r → r ≤ n
  unique : ∀ {i i' task task' r}, jobs.task i = some task → jobs.task i' = some task' →
    task.revision = some r → task'.revision = some r → i = i'

/-- Moreover, a coroutine that may still establish a link has no `forgetHub` beside it. -/
structure Revisions (jobs : Jobs LinkTask LinkPoint) (n : ℕ) : Prop extends
    OwnRevisions jobs n where
  current : ∀ {i i' task task'}, jobs.task i = some task → task.revision = some n →
    jobs.task i' = some task' → task'.isForget = false

theorem LinkTask.isForget_of_revision {r : ℕ} (h : task.revision = some r) :
    task.isForget = false := by
  cases task <;> first | rfl | cases h

namespace OwnRevisions

variable {jobs jobs' : Jobs LinkTask LinkPoint} {n : ℕ}

theorem sub (h : OwnRevisions jobs n)
    (hsub : ∀ i task, jobs'.task i = some task → jobs.task i = some task) :
    OwnRevisions jobs' n where
  le hi := h.le (hsub _ _ hi)
  unique hi hi' := h.unique (hsub _ _ hi) (hsub _ _ hi')

theorem succ (h : OwnRevisions jobs n) : OwnRevisions jobs (n + 1) where
  le hi hr := (h.le hi hr).trans (Nat.le_succ n)
  unique := h.unique

/-- A call raises the revision and launches a coroutine. -/
theorem launch (h : OwnRevisions jobs n) (task : LinkTask) (point : LinkPoint)
    (htask : ∀ r, task.revision = some r → r = n + 1) :
    OwnRevisions (jobs.launch task point) (n + 1) where
  le hi hr := by
    rcases Jobs.task_launch_eq_some_iff.1 hi with ⟨-, rfl⟩ | hold
    · exact (htask _ hr).le
    · exact (h.le hold hr).trans (Nat.le_succ n)
  unique hi hi' hr hr' := by
    rcases Jobs.task_launch_eq_some_iff.1 hi with ⟨rfl, rfl⟩ | hold <;>
      rcases Jobs.task_launch_eq_some_iff.1 hi' with ⟨rfl, rfl⟩ | hold'
    · rfl
    · have := h.le hold' hr'
      have := htask _ hr
      omega
    · have := h.le hold hr
      have := htask _ hr'
      omega
    · exact h.unique hold hold' hr hr'

theorem cancel (h : OwnRevisions jobs n) (o : Option ℕ) : OwnRevisions (jobs.cancel o) n :=
  h.sub fun i task hi => by rwa [Jobs.task_cancel] at hi

end OwnRevisions

namespace Revisions

variable {jobs jobs' : Jobs LinkTask LinkPoint} {n : ℕ}

theorem sub (h : Revisions jobs n)
    (hsub : ∀ i task, jobs'.task i = some task → jobs.task i = some task) : Revisions jobs' n where
  toOwnRevisions := h.toOwnRevisions.sub hsub
  current hi hr hi' := h.current (hsub _ _ hi) hr (hsub _ _ hi')

/-- After another revision, nobody may establish a link. -/
theorem succ (h : Revisions jobs n) : Revisions jobs (n + 1) where
  toOwnRevisions := h.toOwnRevisions.succ
  current hi hr := by
    have := h.le hi hr
    omega

/-- A call raises the revision and launches a coroutine. -/
theorem launch (h : Revisions jobs n) (task : LinkTask) (point : LinkPoint)
    (htask : ∀ r, task.revision = some r → r = n + 1 ∧
      ∀ i task', jobs.task i = some task' → task'.isForget = false) :
    Revisions (jobs.launch task point) (n + 1) where
  toOwnRevisions := h.toOwnRevisions.launch task point fun r hr => (htask r hr).1
  current hi hr hi' := by
    rcases Jobs.task_launch_eq_some_iff.1 hi with ⟨rfl, rfl⟩ | hold
    · rcases Jobs.task_launch_eq_some_iff.1 hi' with ⟨rfl, rfl⟩ | hold'
      · exact LinkTask.isForget_of_revision hr
      · exact (htask _ hr).2 _ _ hold'
    · have := h.le hold hr
      omega

theorem cancel (h : Revisions jobs n) (o : Option ℕ) : Revisions (jobs.cancel o) n :=
  h.sub fun i task hi => by rwa [Jobs.task_cancel] at hi

end Revisions

/-- At the start, the stored credential is being restored. -/
theorem task_initial {defaultEndpoint deviceId : Str} {store : Option StoredHubCredential}
    {approvalKey : Bool} {i : ℕ}
    (hi : (initial defaultEndpoint deviceId store approvalKey).jobs.task i = some task) :
    i = 0 ∧ task = .restoreHubCredential 0 := by
  rcases Jobs.task_launch_eq_some_iff.1 hi with h | h
  · exact h
  · simp [Jobs.task] at h

theorem ownRevisions_initial (defaultEndpoint deviceId : Str) (store : Option StoredHubCredential)
    (approvalKey : Bool) :
    OwnRevisions (initial defaultEndpoint deviceId store approvalKey).jobs 0 where
  le hi hr := by
    rw [(task_initial hi).2] at hr
    cases hr
    exact Nat.le_refl 0
  unique hi hi' _ _ := by rw [(task_initial hi).1, (task_initial hi').1]

/-- Going on launches nothing. -/
theorem Resumed.task_of_task (h : Resumed vm j task vm' out) {i : ℕ} {task' : LinkTask}
    (hi : vm'.jobs.task i = some task') : vm.jobs.task i = some task' := by
  cases h with
  | moved moved =>
    obtain ⟨point, hjobs⟩ := moved.jobs
    rwa [hjobs, Jobs.task_move] at hi
  | left jobs | failed jobs | linked jobs | rotated jobs | forgotten jobs | revoked jobs =>
    rw [jobs] at hi
    exact (Jobs.task_finish_eq_some_iff.1 hi).2

theorem Resumed.linkRevision (h : Resumed vm j task vm' out) :
    vm'.linkRevision = vm.linkRevision := by
  cases h with
  | moved moved => exact moved.revision
  | left _ revision | failed _ revision | linked _ revision | rotated _ revision
  | forgotten _ revision | revoked _ revision => exact revision

/-! ### Revocations that are owed -/

/-- The revocations that are owed after an event: those of forgotten links, until they are revoked or
another link is established. -/
def owedAfter (ids : List UUID) : Event → List UUID
  | .forgot id => id :: ids
  | .restored _ | .paired _ _ => []
  | .revoked id => ids.filter (· ≠ id)
  | .keyCreated _ | .saved _ _ | .cleared _ | .keyDeleted _ | .rotated _ _ => ids

/-- The revocations that are owed. -/
def owed (es : List Event) : List UUID := es.foldl owedAfter []

theorem owed_concat (es : List Event) (e : Event) : owed (es ++ [e]) = owedAfter (owed es) e := by
  rw [owed, List.foldl_append]
  rfl

/-- What is owed, said of the history. -/
theorem mem_owed_iff {es : List Event} {id : UUID} :
    id ∈ owed es ↔ ∃ pre post, es = pre ++ .forgot id :: post ∧
      (∀ e ∈ post, e.isLink = false) ∧ .revoked id ∉ post := by
  induction es using List.reverseRecOn with
  | nil => simp [owed]
  | append_singleton es e ih =>
    have hconcat : (∃ pre post, es ++ [e] = pre ++ .forgot id :: post ∧
        (∀ e ∈ post, e.isLink = false) ∧ .revoked id ∉ post) ↔
        e = .forgot id ∨ id ∈ owed es ∧ e.isLink = false ∧ e ≠ .revoked id := by
      rw [ih]
      constructor
      · rintro ⟨pre, post, heq, hlink, hrevoked⟩
        rcases List.eq_nil_or_concat post with rfl | ⟨post', e', rfl⟩
        · have := (List.append_inj' heq rfl).2
          exact Or.inl (List.cons.inj this).1
        · rw [List.concat_eq_append, ← List.cons_append, ← List.append_assoc] at heq
          obtain ⟨rfl, he⟩ := List.append_inj' heq rfl
          obtain rfl := (List.cons.inj he).1
          simp only [List.concat_eq_append, List.mem_append, List.mem_singleton, not_or] at hlink hrevoked
          exact Or.inr ⟨⟨pre, post', rfl, fun e' he' => hlink e' (Or.inl he'), hrevoked.1⟩,
            hlink e (Or.inr rfl), fun h => hrevoked.2 h.symm⟩
      · rintro (rfl | ⟨⟨pre, post, rfl, hlink, hrevoked⟩, he, hne⟩)
        · exact ⟨es, [], rfl, by simp, by simp⟩
        · refine ⟨pre, post ++ [e], by simp, fun e' he' => ?_, fun h => ?_⟩
          · rcases List.mem_append.1 he' with he' | he'
            · exact hlink e' he'
            · rw [List.mem_singleton.1 he']
              exact he
          · rcases List.mem_append.1 h with h | h
            · exact hrevoked h
            · exact hne (List.mem_singleton.1 h).symm
    rw [hconcat, owed_concat]
    cases e <;> simp [owedAfter, Event.isLink, @eq_comm _ id]

theorem owed_append_of_job {es : List Event} (hout : ∀ e ∈ out, e.job = some j) :
    owed (es ++ out) = owed es := by
  induction out using List.reverseRecOn with
  | nil => rw [List.append_nil]
  | append_singleton out e ih =>
    rw [← List.append_assoc, owed_concat, ih fun e' he' => hout e' (List.mem_append_left _ he')]
    have he := hout e (List.mem_append_right _ (List.mem_singleton_self e))
    cases e <;> first | rfl | cases he

/-! ### Forgetting a link -/

/-- What a running coroutine has to do with a revocation that is owed: a `forgetHub` will ask for it,
and a rotation will not bring the link back. -/
def LinkTask.Owes (id : UUID) (n : ℕ) : LinkTask → Prop
  | .forgetHub _ revocation => ∃ config, revocation = some (config, id)
  | .rotateHubCredential r _ _ => r < n
  | .restoreHubCredential _ | .pairHub _ _ | .cancelForegroundPairing _ => True

/-- `pairHub` gets past its checks and launches a coroutine. -/
def PairHubAccepted (vm : GoffyViewModel) : Action → Bool
  | .pairHub (.ok _) => !vm.uiState.linkOperationInProgress && !vm.uiState.isHubConfigured
  | _ => false

def Action.isForgetHub : Action → Bool
  | .forgetHub => true
  | _ => false

/-- No coroutine of this kind is running. -/
def NoneRuns (kind : LinkTask → Bool) (vm : GoffyViewModel) : Prop :=
  ∀ i task, vm.jobs.task i = some task → kind task = false

theorem noneRuns_iff (kind : LinkTask → Bool) (vm : GoffyViewModel) :
    (∀ i < vm.jobs.next, (vm.jobs.task i).all (fun task => !kind task) = true) ↔
      NoneRuns kind vm := by
  constructor
  · intro h i task hi
    by_cases hlt : i < vm.jobs.next
    · simpa [hi] using h i hlt
    · simp [Jobs.task, vm.jobs.fresh i (by omega)] at hi
  · intro h i _
    cases hi : vm.jobs.task i with
    | none => rfl
    | some task => simp [h i task hi]

instance (kind : LinkTask → Bool) : DecidablePred (NoneRuns kind) := fun vm =>
  decidable_of_iff _ (noneRuns_iff kind vm)

/-- No `forgetHub` follows another that still owes a revocation, and no `pairHub` starts beside a
`forgetHub` that has not ended. -/
def ForgetsOnce (vm : GoffyViewModel) (es : List Event) (a : Action) : Prop :=
  (a.isForgetHub = true → owed es = []) ∧ (PairHubAccepted vm a = true → NoneRuns LinkTask.isForget vm)

instance (vm : GoffyViewModel) (es : List Event) (a : Action) : Decidable (ForgetsOnce vm es a) :=
  inferInstanceAs (Decidable (_ ∧ _))

/-- What holds while revocations may be owed. -/
structure LinkInv (vm : GoffyViewModel) (es : List Event) : Prop where
  revisions : Revisions vm.jobs vm.linkRevision
  configured : vm.uiState.hubLinkState = .paired → vm.Configured
  settled : vm.uiState.hubLinkState = .paired → ∀ i task, vm.jobs.task i = some task →
    task.isForget = false ∧ task.revision ≠ some vm.linkRevision
  unlinked : ∀ {id}, id ∈ owed es → vm.uiState.hubLinkState ≠ .paired
  warns : ∀ {id}, id ∈ owed es → OnlyWarns vm.uiState
  owes : ∀ {id i task}, id ∈ owed es → vm.jobs.task i = some task → task.Owes id vm.linkRevision

namespace LinkInv

variable {es es' : List Event}

/-- The part about revocations is void while none is owed. -/
theorem of_owed_eq_nil (hrevisions : Revisions vm.jobs vm.linkRevision)
    (hconfigured : vm.uiState.hubLinkState = .paired → vm.Configured)
    (hsettled : vm.uiState.hubLinkState = .paired → ∀ i task, vm.jobs.task i = some task →
      task.isForget = false ∧ task.revision ≠ some vm.linkRevision)
    (howed : owed es = []) : LinkInv vm es where
  revisions := hrevisions
  configured := hconfigured
  settled := hsettled
  unlinked hid := by simp [howed] at hid
  warns hid := by simp [howed] at hid
  owes hid := by simp [howed] at hid

/-- Without a link, little has to be shown. -/
theorem of_not_paired (hrevisions : Revisions vm.jobs vm.linkRevision)
    (hstate : vm.uiState.hubLinkState ≠ .paired)
    (hwarns : ∀ id, id ∈ owed es → OnlyWarns vm.uiState)
    (howes : ∀ id i task, id ∈ owed es → vm.jobs.task i = some task →
      task.Owes id vm.linkRevision) : LinkInv vm es where
  revisions := hrevisions
  configured h := (hstate h).elim
  settled h := (hstate h).elim
  unlinked _ := hstate
  warns := hwarns _
  owes := howes _ _ _

theorem initial (defaultEndpoint deviceId : Str) (store : Option StoredHubCredential)
    (approvalKey : Bool) :
    LinkInv (initial defaultEndpoint deviceId store approvalKey) [] := by
  refine of_not_paired ⟨ownRevisions_initial _ _ _ _, fun _ _ hi' => ?_⟩
    (by simp [GoffyViewModel.initial, GoffyViewModel.launch]) (by simp [owed]) (by simp [owed])
  rw [(task_initial hi').2]
  rfl

/-- Whoever establishes a link under the current revision is the last to do so. -/
theorem settled_finish (h : LinkInv vm es) (htask : vm.jobs.task j = some task)
    (hcurrent : task.revision = some vm.linkRevision) {i : ℕ} {task' : LinkTask}
    (hi : (vm.jobs.finish j).task i = some task') :
    task'.isForget = false ∧ task'.revision ≠ some vm.linkRevision := by
  obtain ⟨hne, hi⟩ := Jobs.task_finish_eq_some_iff.1 hi
  exact ⟨h.revisions.current htask hcurrent hi,
    fun hr => hne (h.revisions.unique hi htask hr hcurrent)⟩

/-- Nothing changes but the jobs, of which there is none new. -/
theorem sub (h : LinkInv vm es) (hsub : ∀ i task, vm'.jobs.task i = some task →
      vm.jobs.task i = some task) (hrevision : vm'.linkRevision = vm.linkRevision)
    (hui : vm'.uiState = vm.uiState) (hlink : vm.uiState.hubLinkState = .paired → vm'.Configured)
    (howed : owed es' = owed es) : LinkInv vm' es' where
  revisions := by
    rw [hrevision]
    exact h.revisions.sub hsub
  configured hstate := hlink (by rwa [hui] at hstate)
  settled hstate i task hi := by
    rw [hrevision]
    exact h.settled (by rwa [hui] at hstate) i task (hsub i task hi)
  unlinked hid := by
    rw [hui]
    exact h.unlinked (by rwa [howed] at hid)
  warns hid := by
    rw [hui]
    exact h.warns (by rwa [howed] at hid)
  owes hid hi := by
    rw [hrevision]
    exact h.owes (by rwa [howed] at hid) (hsub _ _ hi)

/-- A coroutine goes on. -/
theorem resumed (h : LinkInv vm es) (htask : vm.jobs.task j = some task)
    (hr : Resumed vm j task vm' out) : LinkInv vm' (es ++ out) := by
  have hsub : ∀ i task', vm'.jobs.task i = some task' → vm.jobs.task i = some task' :=
    fun i task' hi => hr.task_of_task hi
  have hrevisions : Revisions vm'.jobs vm'.linkRevision := by
    rw [hr.linkRevision]
    exact h.revisions.sub hsub
  cases hr with
  | moved moved link =>
    refine h.sub hsub moved.revision moved.ui (fun hpaired => ?_)
      (owed_append_of_job moved.out_local)
    rcases link with hlink | ⟨-, -, hcurrent⟩
    · exact hlink.configured (h.configured hpaired)
    · exact ((h.settled hpaired j task htask).2 hcurrent).elim
  | left jobs revision ui link _ =>
    rw [List.append_nil]
    exact h.sub hsub revision ui (fun hpaired => link.configured (h.configured hpaired)) rfl
  | failed jobs revision state notice _ =>
    rw [List.append_nil]
    refine of_not_paired hrevisions state.not_paired (fun _ _ => notice) fun id i task' hid hi => ?_
    rw [revision]
    exact h.owes hid (hsub i task' hi)
  | @linked e _ jobs revision state link current event _ =>
    refine of_owed_eq_nil hrevisions (fun _ => link.configured) (fun _ i task' hi => ?_) ?_
    · rw [revision]
      exact h.settled_finish htask current (jobs ▸ hi)
    · rw [owed_concat]
      cases e <;> first | rfl | cases task <;> cases event
  | rotated jobs revision link isRotation current =>
    subst isRotation
    refine of_owed_eq_nil hrevisions (fun _ => link.configured) (fun _ i task' hi => ?_) ?_
    · rw [revision]
      exact h.settled_finish htask (congrArg some current) (jobs ▸ hi)
    · -- a rotation under the current revision would have to be behind it
      refine List.eq_nil_iff_forall_not_mem.2 fun id hid => ?_
      rw [owed_concat] at hid
      have : _ < vm.linkRevision := h.owes hid htask
      omega
  | forgotten jobs revision state _ isForget =>
    rw [List.append_nil]
    subst isForget
    have howed : owed es = [] := List.eq_nil_iff_forall_not_mem.2 fun id hid => by
      obtain ⟨config, hconfig⟩ := h.owes hid htask
      cases hconfig
    exact of_owed_eq_nil hrevisions (fun h => (state.not_paired h).elim)
      (fun h => (state.not_paired h).elim) howed
  | revoked jobs revision state _ isForget =>
    subst isForget
    refine of_owed_eq_nil hrevisions (fun h => (state.not_paired h).elim)
      (fun h => (state.not_paired h).elim) ?_
    refine List.eq_nil_iff_forall_not_mem.2 fun id hid => ?_
    rw [owed_concat, owedAfter, List.mem_filter] at hid
    obtain ⟨config, hconfig⟩ := h.owes hid.1 htask
    cases hconfig
    simp at hid

/-- A call that only shows an error. -/
theorem rejected (h : LinkInv vm es) (hjobs : vm'.jobs = vm.jobs)
    (hrevision : vm'.linkRevision = vm.linkRevision)
    (hstate : vm'.uiState.hubLinkState = vm.uiState.hubLinkState)
    (hnotice : vm'.uiState.linkNotice = none)
    (hconfigured : vm.uiState.hubLinkState = .paired → vm'.Configured) : LinkInv vm' es where
  revisions := by
    rw [hjobs, hrevision]
    exact h.revisions
  configured hp := hconfigured (by rwa [hstate] at hp)
  settled hp i task hi := by
    rw [hrevision]
    rw [hjobs] at hi
    exact h.settled (by rwa [hstate] at hp) i task hi
  unlinked hid := by
    rw [hstate]
    exact h.unlinked hid
  warns _ n hn := by
    rw [hnotice] at hn
    cases hn
  owes hid hi := by
    rw [hrevision]
    rw [hjobs] at hi
    exact h.owes hid hi

/-- Another revision makes no coroutine owe less. -/
theorem owes_succ {id : UUID} {n : ℕ} (h : task.Owes id n) : task.Owes id (n + 1) := by
  cases task with
  | rotateHubCredential r previous rotation =>
    have : r < n := h
    exact Nat.lt_succ_of_lt this
  | restoreHubCredential _ | pairHub _ _ | forgetHub _ _ | cancelForegroundPairing _ => exact h

/-- A call that leaves no link and launches a coroutine. -/
theorem launched (h : LinkInv vm es) {o : Option ℕ}
    (hjobs : vm'.jobs = (vm.jobs.cancel o).launch task point)
    (hrevision : vm'.linkRevision = vm.linkRevision + 1)
    (hstate : vm'.uiState.hubLinkState ≠ .paired) (hnotice : vm'.uiState.linkNotice = none)
    (htask : ∀ r, task.revision = some r → r = vm.linkRevision + 1 ∧
      ∀ i task', vm.jobs.task i = some task' → task'.isForget = false)
    (howes : ∀ id, id ∈ owed es → task.Owes id (vm.linkRevision + 1)) : LinkInv vm' es := by
  refine of_not_paired ?_ hstate (fun _ _ n hn => ?_) fun id i task' hid hi => ?_
  · rw [hjobs, hrevision]
    refine (h.revisions.cancel o).launch task point fun r hr => ⟨(htask r hr).1, ?_⟩
    intro i task' hi
    exact (htask r hr).2 i task' (by rwa [Jobs.task_cancel] at hi)
  · rw [hnotice] at hn
    cases hn
  · rw [hjobs] at hi
    rw [hrevision]
    rcases Jobs.task_launch_eq_some_iff.1 hi with ⟨-, rfl⟩ | hold
    · exact howes id hid
    · rw [Jobs.task_cancel] at hold
      exact owes_succ (h.owes hid hold)

theorem pairHub (h : LinkInv vm es) (endpoint : Except Str Str)
    (hok : PairHubAccepted vm (.pairHub endpoint) = true → NoneRuns LinkTask.isForget vm) :
    LinkInv (vm.pairHub endpoint) es := by
  unfold GoffyViewModel.pairHub
  split
  case isTrue => exact h
  case isFalse hprogress =>
    split
    case isTrue => exact h.rejected rfl rfl rfl rfl h.configured
    case isFalse hconfigured =>
      have hunpaired : vm.uiState.hubLinkState ≠ .paired := by
        intro hp
        simp [GoffyUiState.isHubConfigured, hp] at hconfigured
      cases endpoint with
      | error message => exact h.rejected rfl rfl rfl rfl fun hp => (hunpaired hp).elim
      | ok url =>
        have haccepted : PairHubAccepted vm (.pairHub (.ok url)) = true := by
          simp [PairHubAccepted, hprogress, hconfigured]
        refine @launched _ _ _ _ _ h none rfl rfl (by simp [GoffyViewModel.launch,
          GoffyUiState.hubPairingStarted]) rfl (fun r hr => ⟨?_, hok haccepted⟩) fun _ _ => trivial
        exact (Option.some.inj hr).symm

/-- A link that is configured by hand is not a paired one. -/
theorem configureHub (h : LinkInv vm es) (allowed : Bool) (config : Except Str HubConfig) :
    LinkInv (vm.configureHub allowed config) es := by
  have hrevisions : Revisions (vm.jobs.cancel vm.linkJob) (vm.linkRevision + 1) :=
    (h.revisions.cancel _).succ
  unfold GoffyViewModel.configureHub
  split
  · exact h.rejected rfl rfl rfl rfl h.configured
  · cases config with
    | error message =>
      exact {
        revisions := hrevisions
        configured := h.configured
        settled := fun hp i task hi => by
          simp only [GoffyViewModel.setUi, Jobs.task_cancel] at hi
          refine ⟨(h.settled hp i task hi).1, fun hr => ?_⟩
          have : vm.linkRevision + 1 ≤ vm.linkRevision := h.revisions.le hi hr
          omega
        unlinked := h.unlinked
        warns := fun _ n hn => by cases hn
        owes := fun hid hi => by
          simp only [GoffyViewModel.setUi, Jobs.task_cancel] at hi
          exact owes_succ (h.owes hid hi) }
    | ok config =>
      refine of_not_paired hrevisions (by simp [GoffyUiState.hubConfigured]) (fun _ _ n hn => by cases hn) ?_
      intro id i task hid hi
      simp only [GoffyViewModel.clearPaired, Jobs.task_cancel] at hi
      exact owes_succ (h.owes hid hi)

theorem cancelForegroundPairing (h : LinkInv vm es) : LinkInv vm.cancelForegroundPairing es := by
  unfold GoffyViewModel.cancelForegroundPairing
  split
  · exact h
  · exact h.launched rfl rfl (by simp [GoffyViewModel.launch, GoffyUiState.hubPairingRejected]) rfl
      (fun r hr => by cases hr) fun _ _ => trivial

theorem rotateHubCredential (h : LinkInv vm es) : LinkInv vm.rotateHubCredential es := by
  unfold GoffyViewModel.rotateHubCredential
  split
  · exact h
  · split
    · exact h.rejected rfl rfl rfl rfl h.configured
    case h_2 rotation hrotation =>
      have hpaired : vm.uiState.hubLinkState = .paired := by
        unfold GoffyViewModel.rotation at hrotation
        split at hrotation
        · assumption
        · cases hrotation
      refine h.launched rfl rfl (by simp [GoffyViewModel.launch, GoffyUiState.hubRotationStarted])
        rfl (fun r hr => ⟨(Option.some.inj hr).symm, fun i task' hi => (h.settled hpaired i task' hi).1⟩) ?_
      intro id hid
      exact (h.unlinked hid hpaired).elim

/-- Only a paired link is revoked. -/
theorem paired_of_revocation {r : HubConfig × UUID} (h : vm.revocation = some r) :
    vm.uiState.hubLinkState = .paired := by
  unfold GoffyViewModel.revocation at h
  split at h
  · assumption
  · cases h

theorem forgetHub (h : LinkInv vm es) (hok : owed es = []) :
    LinkInv vm.forgetHub.1 (es ++ vm.forgetHub.2) := by
  have htasks : ∀ {i task}, vm.forgetHub.1.jobs.task i = some task →
      task = .forgetHub vm.linkJob vm.revocation ∨ vm.jobs.task i = some task := by
    intro i task hi
    rcases Jobs.task_launch_eq_some_iff.1 hi with ⟨-, rfl⟩ | hold
    · exact Or.inl rfl
    · exact Or.inr (by rwa [Jobs.task_cancel] at hold)
  -- the only revocation that is owed now is the one just asked for
  have howed : ∀ id, id ∈ owed (es ++ vm.forgetHub.2) →
      ∃ config, vm.revocation = some (config, id) := by
    intro id hid
    rw [GoffyViewModel.forgetHub] at hid
    cases hrevocation : vm.revocation with
    | none => simp [hrevocation, hok] at hid
    | some r =>
      obtain ⟨config, id'⟩ := r
      simp only [hrevocation, Option.map_some, Option.toList_some, owed_concat, owedAfter, hok,
        List.mem_singleton] at hid
      exact ⟨config, by rw [hid]⟩
  refine of_not_paired ?_ (by simp [GoffyViewModel.forgetHub, GoffyViewModel.launch,
    GoffyUiState.hubForgetStarted]) (fun _ _ n hn => ?_) fun id i task' hid hi => ?_
  · exact (h.revisions.cancel _).launch _ _ fun r hr => by cases hr
  · simp [GoffyViewModel.forgetHub, GoffyViewModel.launch, GoffyUiState.hubForgetStarted] at hn
  · obtain ⟨config, hrevocation⟩ := howed id hid
    have hpaired := paired_of_revocation hrevocation
    rcases htasks hi with rfl | hold
    · exact ⟨config, hrevocation⟩
    · have hforget := (h.settled hpaired i task' hold).1
      cases task' with
      | rotateHubCredential r previous rotation =>
        have := h.revisions.le hold rfl
        exact Nat.lt_succ_of_le this
      | forgetHub previous revocation => cases hforget
      | restoreHubCredential _ | pairHub _ _ | cancelForegroundPairing _ => trivial

/-- A coroutine that goes on is a running job with its task. -/
theorem step {a : Action} (h : LinkInv vm es) (hok : ForgetsOnce vm es a)
    (hs : step vm a = some (vm', out)) : LinkInv vm' (es ++ out) := by
  cases a with
  | configureHub allowed config =>
    simp only [HubLink.step, Option.some.injEq, Prod.mk.injEq] at hs
    obtain ⟨rfl, rfl⟩ := hs
    rw [List.append_nil]
    exact h.configureHub allowed config
  | pairHub endpoint =>
    simp only [HubLink.step, Option.some.injEq, Prod.mk.injEq] at hs
    obtain ⟨rfl, rfl⟩ := hs
    rw [List.append_nil]
    exact h.pairHub endpoint hok.2
  | forgetHub =>
    simp only [HubLink.step, Option.some.injEq] at hs
    have := h.forgetHub (hok.1 rfl)
    rwa [hs] at this
  | rotateHubCredential =>
    simp only [HubLink.step, Option.some.injEq, Prod.mk.injEq] at hs
    obtain ⟨rfl, rfl⟩ := hs
    rw [List.append_nil]
    exact h.rotateHubCredential
  | cancelForegroundPairing =>
    simp only [HubLink.step, Option.some.injEq, Prod.mk.injEq] at hs
    obtain ⟨rfl, rfl⟩ := hs
    rw [List.append_nil]
    exact h.cancelForegroundPairing
  | resume j outcome =>
    simp only [HubLink.step] at hs
    split at hs
    · cases hs
    case h_2 job hjob =>
      split at hs
      · cases hs
      · exact h.resumed (Jobs.task_eq_some hjob) (resumed_of_resume hs)
  | abort j =>
    simp only [HubLink.step] at hs
    split at hs
    · cases hs
    case h_2 job hjob =>
      split at hs
      · simp only [Option.some.injEq, Prod.mk.injEq] at hs
        obtain ⟨rfl, rfl⟩ := hs
        rw [List.append_nil]
        exact h.sub (fun i task hi => (Jobs.task_finish_eq_some_iff.1 hi).2) rfl rfl h.configured rfl
      · cases hs

end LinkInv

section Runs

variable {defaultEndpoint deviceId : Str} {store : Option StoredHubCredential} {approvalKey : Bool}
  {es : List Event}

theorem linkInv_of_reaches
    (h : Reaches step ForgetsOnce (initial defaultEndpoint deviceId store approvalKey) vm es) :
    LinkInv vm es :=
  h.invariant (LinkInv.initial _ _ _ _) fun _ _ _ _ _ hinv hok hs => hinv.step hok hs

/-- On a paired link `forgetHub` always has a credential to revoke. -/
theorem forgot_of_paired
    (h : Reaches step ForgetsOnce (initial defaultEndpoint deviceId store approvalKey) vm es)
    (hpaired : vm.uiState.hubLinkState = .paired) :
    ∃ id, vm.pairedCredentialId = some id ∧ vm.forgetHub.2 = [.forgot id] := by
  obtain ⟨hconfig, hid, -, -⟩ := (linkInv_of_reaches h).configured hpaired
  obtain ⟨config, hconfig⟩ := Option.isSome_iff_exists.1 hconfig
  obtain ⟨id, hid⟩ := Option.isSome_iff_exists.1 hid
  exact ⟨id, hid, by simp [GoffyViewModel.forgetHub, revocation, hpaired, hconfig, hid]⟩

/-- When a paired link was forgotten and no link was established since, a notice that is no warning
says the truth: the credential is revoked. -/
theorem revoked_of_notice {pre post : List Event} {id : UUID} {notice : HubLinkNotice}
    (h : Reaches step ForgetsOnce (initial defaultEndpoint deviceId store approvalKey) vm
      (pre ++ .forgot id :: post))
    (hlink : ∀ e ∈ post, e.isLink = false) (hnotice : vm.uiState.linkNotice = some notice)
    (hwarning : notice.warning = false) : .revoked id ∈ post := by
  by_contra hrevoked
  have howed : id ∈ owed (pre ++ .forgot id :: post) :=
    mem_owed_iff.2 ⟨pre, post, rfl, hlink, hrevoked⟩
  have hwarns := (linkInv_of_reaches h).warns howed notice hnotice
  rw [hwarning] at hwarns
  cases hwarns

end Runs

/-- A credential of a phone `p`. -/
def pairedCredential : StoredHubCredential where
  endpoint := lit "ws://127.0.0.1:8787"
  credentialId := 1
  deviceId := lit "p"
  accessToken := List.replicate 32 0x61
  createdAt := 0
  tokenIssuedAt := 0
  hubIdentity := ⟨2, lit "sha256:" ++ List.replicate 64 0x61, 0⟩
  deviceId_matches := by decide
  token_length := by decide
  issued_after := by decide

/-- The view model of a phone with a stored credential. -/
def pairedPhone : GoffyViewModel :=
  initial (lit "wss://") (lit "p") (some pairedCredential) true

/-- The link is restored, forgotten, and revoked by the Hub. -/
def forgetRun : List Action :=
  List.replicate 2 (.resume 0 .returned) ++ .forgetHub :: List.replicate 5 (.resume 1 .returned)

theorem forgotten_revoked : ∃ vm post notice,
    Reaches step ForgetsOnce pairedPhone vm ([.restored pairedCredential] ++ .forgot 1 :: post) ∧
      vm.uiState.linkNotice = some notice ∧ notice.warning = false ∧ .revoked 1 ∈ post := by
  obtain ⟨vm, hrun, notice, hnotice, hwarning⟩ : ∃ vm, run step pairedPhone forgetRun =
      some (vm, [.restored pairedCredential] ++ .forgot 1 :: [.cleared 1, .keyDeleted 1, .revoked 1]) ∧
      ∃ notice, vm.uiState.linkNotice = some notice ∧ notice.warning = false :=
    ⟨_, rfl, _, rfl, rfl⟩
  have hreach : Reaches step ForgetsOnce pairedPhone vm _ := reaches_of_run (by decide) hrun
  exact ⟨vm, _, notice, hreach, hnotice, hwarning,
    revoked_of_notice hreach (by decide) hnotice hwarning⟩

/-- The link is restored and forgotten, and `forgetHub` is called again before its coroutine went on. -/
def forgetTwiceRun : List Action :=
  List.replicate 2 (.resume 0 .returned) ++ [.forgetHub, .forgetHub, .abort 1] ++
    List.replicate 4 (.resume 2 .returned)

/-- Nobody revokes the credential, and the phone says that the link was removed. -/
theorem forgotten_unrevoked : ∃ vm post notice,
    Reaches step anyStep pairedPhone vm ([.restored pairedCredential] ++ .forgot 1 :: post) ∧
      (∀ j, vm.jobs.get j = none) ∧ (∀ e ∈ post, e.isLink = false) ∧
      vm.uiState.linkNotice = some notice ∧ notice.warning = false ∧ .revoked 1 ∉ post := by
  obtain ⟨vm, hrun, hidle, notice, hnotice, hwarning⟩ : ∃ vm, run step pairedPhone forgetTwiceRun =
      some (vm, [.restored pairedCredential] ++ .forgot 1 :: [.cleared 2, .keyDeleted 2]) ∧
      (∀ j < vm.jobs.next, vm.jobs.get j = none) ∧
      ∃ notice, vm.uiState.linkNotice = some notice ∧ notice.warning = false :=
    ⟨_, rfl, by decide, _, rfl, rfl⟩
  exact ⟨vm, _, notice, run_reaches hrun, Jobs.get_eq_none_of_below hidle, by decide, hnotice,
    hwarning, by decide⟩

end GoffyPhone.HubLink
