import GoffyOs.Phone.HubPairing

/-!
# What the link shows while a coroutine runs

A restoration, a rotation and a forgetting have a state of their own in the UI, and no other call may
begin in it, except for `configureHub` and `forgetHub`, which cancel. `Showing` is the invariant: such a
coroutine, as long as it is not cancelled, is the last one that was launched, its state is shown, and
nothing that is running has a later revision.

The one step that can break it is the end of a clean-up that could not delete everything, as it shows a
failure whatever else is going on (`FailsAlone`, `failure_shown_while_forgetting`).
-/

namespace GoffyPhone.HubLink

open Kotlin
open Python (UUID)
open Machine
open HubLink.GoffyViewModel

/-- The state that is shown while the coroutine runs, when that is for the coroutine to end. -/
def LinkTask.shows : LinkTask → Option HubLinkState
  | .restoreHubCredential _ => some .loading
  | .forgetHub _ _ => some .forgetting
  | .rotateHubCredential _ _ _ => some .rotating
  | .pairHub _ _ | .cancelForegroundPairing _ => none

/-- The clean-up could not delete everything. -/
def LinkPoint.isPartlyCleared : LinkPoint → Bool
  | .cleared _ false => true
  | _ => false

/-- A clean-up that could not delete everything ends beside no such coroutine. -/
def EndsAlone (vm : GoffyViewModel) (j : ℕ) : Prop :=
  ∀ job ∈ vm.jobs.get j, job.task.isCleanUp = true → job.point.isPartlyCleared = true →
    NoneRuns (fun task => task.shows.isSome) vm

instance (vm : GoffyViewModel) : DecidablePred (EndsAlone vm) := fun j =>
  inferInstanceAs (Decidable (∀ job ∈ vm.jobs.get j, _))

/-- This is what the steps of a run meet. -/
def FailsAlone (vm : GoffyViewModel) (_ : List Event) : Action → Prop
  | .resume j _ => EndsAlone vm j
  | _ => True

instance (vm : GoffyViewModel) (es : List Event) : DecidablePred (FailsAlone vm es) := fun a =>
  match a with
  | .resume j _ => inferInstanceAs (Decidable (EndsAlone vm j))
  | .configureHub _ _ | .pairHub _ | .forgetHub | .rotateHubCredential | .cancelForegroundPairing
  | .abort _ => isTrue trivial

/-- What is shown belongs to the coroutine that is running. -/
structure Showing (vm : GoffyViewModel) : Prop where
  own : OwnRevisions vm.jobs vm.linkRevision
  shown : ∀ {j job state}, vm.jobs.get j = some job → job.cancelled = false →
    job.task.shows = some state → vm.linkJob = some j ∧ vm.uiState.hubLinkState = state ∧
      (∀ r, job.task.revision = some r → r = vm.linkRevision) ∧
      ∀ i task, i ≠ j → vm.jobs.task i = some task → task.revision ≠ some vm.linkRevision

variable {vm vm' : GoffyViewModel} {j : ℕ} {task : LinkTask} {point : LinkPoint}
  {outcome : Outcome} {out : List Event}

/-! ### What a coroutine shows -/

/-- A coroutine goes on, or it ends. When it changes the state that is shown, it is one that has a state
of its own, or the current pairing, or a clean-up that has failed. -/
structure Shows (vm : GoffyViewModel) (j : ℕ) (task : LinkTask) (point : LinkPoint)
    (vm' : GoffyViewModel) : Prop where
  revision : vm'.linkRevision = vm.linkRevision
  linkJob : vm'.linkJob = vm.linkJob
  goes : (∃ p, vm'.jobs = vm.jobs.move j p ∧ vm'.uiState = vm.uiState) ∨
    vm'.jobs = vm.jobs.finish j ∧ point.isBlocking = false ∧
      (vm'.uiState.hubLinkState = vm.uiState.hubLinkState ∨
        task.shows.isSome = true ∨ task.revision = some vm.linkRevision ∨
        task.isCleanUp = true ∧ point.isPartlyCleared = true)

theorem shows_of_moved (h : Moved vm j vm' out) : Shows vm j task point vm' :=
  ⟨h.revision, h.linkJob, Or.inl ⟨h.jobs.choose, h.jobs.choose_spec, h.ui⟩⟩

theorem shows_move (vm : GoffyViewModel) (j : ℕ) (task : LinkTask) (point p : LinkPoint) :
    Shows vm j task point (vm.move j p) := ⟨rfl, rfl, Or.inl ⟨p, rfl, rfl⟩⟩

theorem shows_finish (vm : GoffyViewModel) (j : ℕ) (task : LinkTask)
    (hpoint : point.isBlocking = false) : Shows vm j task point (vm.finish j) :=
  ⟨rfl, rfl, Or.inr ⟨rfl, hpoint, Or.inl rfl⟩⟩

/-- A coroutine with a state of its own may show at its end what it likes. -/
theorem shows_end (hjobs : vm'.jobs = vm.jobs.finish j) (hrevision : vm'.linkRevision = vm.linkRevision)
    (hlinkJob : vm'.linkJob = vm.linkJob) (hpoint : point.isBlocking = false)
    (htask : task.shows.isSome = true ∨ task.revision = some vm.linkRevision) :
    Shows vm j task point vm' :=
  ⟨hrevision, hlinkJob, Or.inr ⟨hjobs, hpoint, Or.inr (htask.imp_right Or.inl)⟩⟩

theorem shows_restoreHubCredential {revision : ℕ}
    (h : vm.resumeRestore j revision point outcome = some (vm', out)) :
    Shows vm j (.restoreHubCredential revision) point vm' := by
  unfold resumeRestore at h
  split at h
  · obtain ⟨rfl, -⟩ := Prod.mk.inj (Option.some.inj h)
    exact shows_move ..
  · split at h
    · obtain ⟨rfl, -⟩ := Prod.mk.inj (Option.some.inj h)
      exact ⟨rfl, rfl, Or.inl ⟨_, rfl, rfl⟩⟩
    · cases h
  · obtain ⟨rfl, -⟩ := Prod.mk.inj (Option.some.inj h)
    exact shows_move ..
  · split at h
    · obtain ⟨rfl, -⟩ := Prod.mk.inj (Option.some.inj h)
      exact shows_finish _ _ _ rfl
    · unfold restoreLoaded at h
      split at h <;> simp only [Option.some.injEq, Prod.mk.injEq, reduceCtorEq] at h <;>
        obtain ⟨rfl, -⟩ := h
      · exact shows_end rfl rfl rfl rfl (Or.inl rfl)
      · exact shows_end rfl rfl rfl rfl (Or.inl rfl)
      · exact shows_end rfl rfl rfl rfl (Or.inl rfl)
      · exact shows_end rfl rfl rfl rfl (Or.inl rfl)
      · exact ⟨rfl, rfl, Or.inl ⟨_, rfl, rfl⟩⟩
  · obtain ⟨rfl, -⟩ := Prod.mk.inj (Option.some.inj h)
    exact shows_end rfl rfl rfl rfl (Or.inl rfl)
  · exact shows_of_moved (moved_clearLocalHubAuthority h)

theorem shows_pairHub {revision : ℕ} {endpoint : Str}
    (h : vm.resumePair j revision endpoint point outcome = some (vm', out)) :
    Shows vm j (.pairHub revision endpoint) point vm' := by
  unfold resumePair at h
  split at h
  · obtain ⟨rfl, -⟩ := Prod.mk.inj (Option.some.inj h)
    exact ⟨rfl, rfl, Or.inl ⟨_, rfl, rfl⟩⟩
  · obtain ⟨rfl, -⟩ := Prod.mk.inj (Option.some.inj h)
    exact ⟨rfl, rfl, Or.inl ⟨_, rfl, rfl⟩⟩
  · obtain ⟨rfl, -⟩ := Prod.mk.inj (Option.some.inj h)
    unfold pairIssued
    split
    · exact shows_move ..
    · exact shows_move ..
  · obtain ⟨rfl, -⟩ := Prod.mk.inj (Option.some.inj h)
    exact shows_move ..
  · obtain ⟨rfl, -⟩ := Prod.mk.inj (Option.some.inj h)
    exact shows_move ..
  · exact shows_of_moved (moved_save h)
  · unfold pairSaved at h
    split at h
    · obtain ⟨rfl, -⟩ := Prod.mk.inj (Option.some.inj h)
      exact shows_move ..
    · split at h
      · obtain ⟨rfl, -⟩ := Prod.mk.inj (Option.some.inj h)
        exact shows_finish _ _ _ rfl
      · rename_i hrevision
        split at h <;> simp only [Option.some.injEq, Prod.mk.injEq, reduceCtorEq] at h <;>
          obtain ⟨rfl, -⟩ := h
        · exact shows_end rfl rfl rfl rfl (Or.inr (congrArg some (not_not.1 hrevision)))
        · exact shows_move ..
    · cases h
  · obtain ⟨rfl, -⟩ := Prod.mk.inj (Option.some.inj h)
    unfold pairCleared
    split
    · exact shows_finish _ _ _ rfl
    · rename_i hrevision
      split
      · exact shows_end rfl rfl rfl rfl (Or.inr (congrArg some (not_not.1 hrevision)))
      · exact shows_end rfl rfl rfl rfl (Or.inr (congrArg some (not_not.1 hrevision)))
  · exact shows_of_moved (moved_clearLocalHubAuthority h)

theorem shows_forgetHub {previous : Option ℕ} {revocation : Option (HubConfig × UUID)}
    (h : vm.resumeForget j previous revocation point outcome = some (vm', out)) :
    Shows vm j (.forgetHub previous revocation) point vm' := by
  unfold resumeForget at h
  split at h
  · split at h
    · obtain ⟨rfl, -⟩ := Prod.mk.inj (Option.some.inj h)
      exact shows_move ..
    · cases h
  · split at h
    · obtain ⟨rfl, -⟩ := Prod.mk.inj (Option.some.inj h)
      exact shows_end rfl rfl rfl rfl (Or.inl rfl)
    · obtain ⟨rfl, -⟩ := Prod.mk.inj (Option.some.inj h)
      exact shows_move ..
  · split at h <;> simp only [Option.some.injEq, Prod.mk.injEq, reduceCtorEq] at h <;>
      obtain ⟨rfl, -⟩ := h <;> exact shows_end rfl rfl rfl rfl (Or.inl rfl)
  · exact shows_of_moved (moved_clearLocalHubAuthority h)

theorem shows_rotationFailed (revision : ℕ) (hpoint : point.isBlocking = false) :
    Shows vm j task point (vm.rotationFailed j revision) := by
  unfold rotationFailed
  split
  · exact ⟨rfl, rfl, Or.inl ⟨_, rfl, rfl⟩⟩
  · exact shows_finish _ _ _ hpoint

theorem shows_rotateHubCredential {revision : ℕ} {previous : Option ℕ} {rotation : Rotation}
    (h : vm.resumeRotate j revision previous rotation point outcome = some (vm', out)) :
    Shows vm j (.rotateHubCredential revision previous rotation) point vm' := by
  unfold resumeRotate at h
  split at h
  · split at h
    · obtain ⟨rfl, -⟩ := Prod.mk.inj (Option.some.inj h)
      exact shows_move ..
    · cases h
  · obtain ⟨rfl, -⟩ := Prod.mk.inj (Option.some.inj h)
    unfold rotateIssued
    split
    · exact shows_move ..
    · exact shows_rotationFailed revision rfl
  · obtain ⟨rfl, -⟩ := Prod.mk.inj (Option.some.inj h)
    exact shows_rotationFailed revision rfl
  · obtain ⟨rfl, -⟩ := Prod.mk.inj (Option.some.inj h)
    exact shows_rotationFailed revision rfl
  · exact shows_of_moved (moved_save h)
  · unfold rotateSaved at h
    split at h
    · obtain ⟨rfl, -⟩ := Prod.mk.inj (Option.some.inj h)
      exact shows_rotationFailed revision rfl
    · split at h
      · obtain ⟨rfl, -⟩ := Prod.mk.inj (Option.some.inj h)
        exact shows_finish _ _ _ rfl
      · split at h <;> simp only [Option.some.injEq, Prod.mk.injEq, reduceCtorEq] at h <;>
          obtain ⟨rfl, -⟩ := h
        · exact shows_end rfl rfl rfl rfl (Or.inl rfl)
        · exact shows_rotationFailed revision rfl
    · cases h
  · obtain ⟨rfl, -⟩ := Prod.mk.inj (Option.some.inj h)
    exact shows_end rfl rfl rfl rfl (Or.inl rfl)
  · exact shows_of_moved (moved_clearLocalHubAuthority h)

theorem shows_cancelForegroundPairing {enrollment : Option ℕ}
    (h : vm.resumeCleanUp j enrollment point outcome = some (vm', out)) :
    Shows vm j (.cancelForegroundPairing enrollment) point vm' := by
  unfold resumeCleanUp at h
  split at h
  · split at h
    · obtain ⟨rfl, -⟩ := Prod.mk.inj (Option.some.inj h)
      exact shows_move ..
    · cases h
  · obtain ⟨rfl, -⟩ := Prod.mk.inj (Option.some.inj h)
    rename_i cleared
    cases cleared with
    | true => exact shows_finish _ _ _ rfl
    | false => exact ⟨rfl, rfl, Or.inr ⟨rfl, rfl, Or.inr (Or.inr (Or.inr ⟨rfl, rfl⟩))⟩⟩
  · exact shows_of_moved (moved_clearLocalHubAuthority h)

theorem shows_of_resume (h : vm.resume j point outcome task = some (vm', out)) :
    Shows vm j task point vm' := by
  cases task with
  | restoreHubCredential revision => exact shows_restoreHubCredential h
  | pairHub revision endpoint => exact shows_pairHub h
  | forgetHub previous revocation => exact shows_forgetHub h
  | rotateHubCredential revision previous rotation => exact shows_rotateHubCredential h
  | cancelForegroundPairing enrollment => exact shows_cancelForegroundPairing h

/-! ### Showing is kept -/

namespace Showing

theorem initial (defaultEndpoint deviceId : Str) (store : Option StoredHubCredential)
    (approvalKey : Bool) : Showing (initial defaultEndpoint deviceId store approvalKey) where
  own := ownRevisions_initial _ _ _ _
  shown {i job state} hi _ hshows := by
    obtain ⟨rfl, htask⟩ := task_initial (Jobs.task_eq_some hi)
    rw [htask] at hshows
    obtain rfl := Option.some.inj hshows
    refine ⟨rfl, rfl, fun r hr => ?_, fun i task hne hi' => (hne (task_initial hi').1).elim⟩
    rw [htask] at hr
    exact (Option.some.inj hr).symm

/-- Cancelling the last coroutine leaves none that shows its state. -/
theorem cancelled (h : Showing vm) {job : Job LinkTask LinkPoint}
    (hget : (vm.jobs.cancel vm.linkJob).get j = some job) (hrunning : job.cancelled = false) :
    job.task.shows = none := by
  obtain ⟨old, hold, hjob⟩ := Jobs.cancel_get_eq_some_iff.1 hget
  by_contra hne
  obtain ⟨state, hstate⟩ := Option.ne_none_iff_exists'.1 hne
  split at hjob
  · subst hjob
    cases hrunning
  · rename_i hlink
    subst hjob
    exact hlink (h.shown hold hrunning hstate).1

/-- While another state is shown, none of these coroutines runs, unless it is cancelled. -/
theorem none_of_state (h : Showing vm) (hstate : vm.uiState.hubLinkState ≠ .loading ∧
      vm.uiState.hubLinkState ≠ .forgetting ∧ vm.uiState.hubLinkState ≠ .rotating)
    {job : Job LinkTask LinkPoint} (hget : vm.jobs.get j = some job) (hrunning : job.cancelled = false) :
    job.task.shows = none := by
  by_contra hne
  obtain ⟨state, hshows⟩ := Option.ne_none_iff_exists'.1 hne
  obtain ⟨-, hui, -⟩ := h.shown hget hrunning hshows
  cases hjob : job.task <;> rw [hjob] at hshows <;> cases hshows
  · exact hstate.1 hui
  · exact hstate.2.1 hui
  · exact hstate.2.2 hui

/-- A call that launches its coroutine when no other one is left to show its state. -/
theorem launch {jobs : Jobs LinkTask LinkPoint} (h : OwnRevisions jobs vm.linkRevision)
    (hnone : ∀ i job, jobs.get i = some job → job.cancelled = false → job.task.shows = none)
    (htask : ∀ r, task.revision = some r → r = vm.linkRevision + 1)
    (hjobs : vm'.jobs = jobs.launch task point) (hrevision : vm'.linkRevision = vm.linkRevision + 1)
    (hlinkJob : vm'.linkJob = some jobs.next)
    (hstate : ∀ state, task.shows = some state → vm'.uiState.hubLinkState = state) : Showing vm' where
  own := by
    rw [hjobs, hrevision]
    exact h.launch task point htask
  shown {i job state} hi hrunning hshows := by
    rw [hjobs] at hi
    rcases Jobs.launch_get_eq_some_iff.1 hi with ⟨rfl, rfl⟩ | hold
    · refine ⟨hlinkJob, hstate state hshows, fun r hr => (htask r hr).trans hrevision.symm,
        fun i task' hne hi' hr => ?_⟩
      rw [hjobs] at hi'
      rw [hrevision] at hr
      rcases Jobs.task_launch_eq_some_iff.1 hi' with ⟨heq, -⟩ | hold
      · exact hne heq
      · have := h.le hold hr
        omega
    · rw [hnone i job hold hrunning] at hshows
      cases hshows

/-- A change that no coroutine with a state of its own is there to notice. -/
theorem of_none (h : OwnRevisions vm.jobs vm.linkRevision) (hnone : ∀ i job, vm.jobs.get i = some job →
    job.cancelled = false → job.task.shows = none) : Showing vm where
  own := h
  shown hi hrunning hshows := by
    rw [hnone _ _ hi hrunning] at hshows
    cases hshows

/-- Texts do not matter. -/
theorem same (h : Showing vm) (hjobs : vm'.jobs = vm.jobs)
    (hrevision : vm'.linkRevision = vm.linkRevision) (hlinkJob : vm'.linkJob = vm.linkJob)
    (hstate : vm'.uiState.hubLinkState = vm.uiState.hubLinkState) : Showing vm' where
  own := by
    rw [hjobs, hrevision]
    exact h.own
  shown := by
    rw [hjobs, hrevision, hlinkJob, hstate]
    exact h.shown

theorem configureHub (h : Showing vm) (allowed : Bool) (config : Except Str HubConfig) :
    Showing (vm.configureHub allowed config) := by
  unfold GoffyViewModel.configureHub
  split
  · exact h.same rfl rfl rfl rfl
  · have hown : OwnRevisions (vm.jobs.cancel vm.linkJob) (vm.linkRevision + 1) :=
      (h.own.cancel _).succ
    have hnone := fun i job (hget : (vm.jobs.cancel vm.linkJob).get i = some job) =>
      h.cancelled hget
    split
    · exact of_none hown hnone
    · exact of_none hown hnone

theorem pairHub (h : Showing vm) (endpoint : Except Str Str) : Showing (vm.pairHub endpoint) := by
  unfold GoffyViewModel.pairHub
  split
  · exact h
  rename_i hprogress
  split
  · exact h.same rfl rfl rfl rfl
  split
  · exact h.same rfl rfl rfl rfl
  · have hstate : vm.uiState.hubLinkState ≠ .loading ∧ vm.uiState.hubLinkState ≠ .forgetting ∧
        vm.uiState.hubLinkState ≠ .rotating := by
      simp only [GoffyUiState.linkOperationInProgress, Bool.or_eq_true, decide_eq_true_eq] at hprogress
      tauto
    refine launch h.own (fun i job hget => h.none_of_state hstate hget) (fun r hr => ?_) rfl rfl rfl
      fun state hs => ?_
    · exact (Option.some.inj hr).symm
    · cases hs

theorem forgetHub (h : Showing vm) : Showing vm.forgetHub.1 := by
  refine launch (h.own.cancel vm.linkJob) (fun i job hget => h.cancelled hget) (fun r hr => ?_) rfl rfl
    rfl fun state hs => ?_
  · cases hr
  · obtain rfl := Option.some.inj hs
    rfl

theorem rotateHubCredential (h : Showing vm) : Showing vm.rotateHubCredential := by
  unfold GoffyViewModel.rotateHubCredential
  split
  · exact h
  split
  · exact h.same rfl rfl rfl rfl
  · refine launch (h.own.cancel vm.linkJob) (fun i job hget => h.cancelled hget) (fun r hr => ?_) rfl
      rfl rfl fun state hs => ?_
    · exact (Option.some.inj hr).symm
    · obtain rfl := Option.some.inj hs
      rfl

theorem cancelForegroundPairing (h : Showing vm) : Showing vm.cancelForegroundPairing := by
  unfold GoffyViewModel.cancelForegroundPairing
  split
  · exact h
  · refine launch (h.own.cancel vm.linkJob) (fun i job hget => h.cancelled hget) (fun r hr => ?_) rfl
      rfl rfl fun state hs => ?_
    · cases hr
    · cases hs

/-- One step of a coroutine. -/
theorem resumed (h : Showing vm) {x : Job LinkTask LinkPoint} (hx : vm.jobs.get j = some x)
    (hblocking : x.cancelled = true → x.point.isBlocking = true)
    (halone : EndsAlone vm j) (hs : Shows vm j x.task x.point vm') : Showing vm' := by
  have hown : OwnRevisions vm'.jobs vm'.linkRevision := by
    rw [hs.revision]
    refine h.own.sub fun i task hi => ?_
    rcases hs.goes with ⟨p, hjobs, -⟩ | ⟨hjobs, -⟩
    · rwa [hjobs, Jobs.task_move] at hi
    · rw [hjobs] at hi
      exact (Jobs.task_finish_eq_some_iff.1 hi).2
  have htasks : ∀ i task, vm'.jobs.task i = some task → vm.jobs.task i = some task := by
    intro i task hi
    rcases hs.goes with ⟨p, hjobs, -⟩ | ⟨hjobs, -⟩
    · rwa [hjobs, Jobs.task_move] at hi
    · rw [hjobs] at hi
      exact (Jobs.task_finish_eq_some_iff.1 hi).2
  refine ⟨hown, fun {i job state} hi hrunning hshows => ?_⟩
  rw [hs.revision, hs.linkJob]
  rcases hs.goes with ⟨p, hjobs, hui⟩ | ⟨hjobs, hpoint, hui⟩
  · -- the coroutine goes on, and shows what was shown
    rw [hjobs] at hi
    obtain ⟨old, hold, htask, hcancelled⟩ : ∃ old, vm.jobs.get i = some old ∧ old.task = job.task ∧
        old.cancelled = job.cancelled := by
      rcases (Jobs.move_get_eq_some_iff hx).1 hi with ⟨rfl, rfl⟩ | ⟨-, hold⟩
      · exact ⟨x, hx, rfl, rfl⟩
      · exact ⟨job, hold, rfl, rfl⟩
    obtain ⟨hlink, hstate, hrevision, hothers⟩ :=
      h.shown hold (hcancelled.trans hrunning) (htask ▸ hshows)
    exact ⟨hlink, hui ▸ hstate, htask ▸ hrevision, fun k task hne hk => hothers k task hne (htasks k task hk)⟩
  · -- it ends, and leaves to another coroutine what that one shows
    rw [hjobs] at hi
    obtain ⟨hne, hold⟩ := Jobs.finish_get_eq_some_iff.1 hi
    obtain ⟨hlink, hstate, hrevision, hothers⟩ := h.shown hold hrunning hshows
    refine ⟨hlink, ?_, hrevision, fun k task hne hk => hothers k task hne (htasks k task hk)⟩
    have hx' : x.cancelled = false := Bool.eq_false_iff.2 fun hcancelled => by
      rw [hblocking hcancelled] at hpoint
      cases hpoint
    rcases hui with hui | hx'' | hcurrent | ⟨hclean, hcleared⟩
    · exact hui.trans hstate
    · obtain ⟨state', hstate'⟩ := Option.isSome_iff_exists.1 hx''
      obtain ⟨hlink', -⟩ := h.shown hx hx' hstate'
      exact (hne (Option.some.inj (hlink.symm.trans hlink'))).elim
    · exact (hothers j x.task hne.symm (Jobs.task_eq_some hx) hcurrent).elim
    · have hnone := halone x hx hclean hcleared i job.task (Jobs.task_eq_some hold)
      simp [hshows] at hnone

theorem step (h : Showing vm) {es : List Event} {a : Action} (halone : FailsAlone vm es a)
    (hs : HubLink.step vm a = some (vm', out)) : Showing vm' := by
  cases a with
  | configureHub allowed config =>
    obtain ⟨rfl, -⟩ := Prod.mk.inj (Option.some.inj hs)
    exact h.configureHub allowed config
  | pairHub endpoint =>
    obtain ⟨rfl, -⟩ := Prod.mk.inj (Option.some.inj hs)
    exact h.pairHub endpoint
  | forgetHub =>
    obtain ⟨rfl, -⟩ := Prod.mk.inj (Option.some.inj hs)
    exact h.forgetHub
  | rotateHubCredential =>
    obtain ⟨rfl, -⟩ := Prod.mk.inj (Option.some.inj hs)
    exact h.rotateHubCredential
  | cancelForegroundPairing =>
    obtain ⟨rfl, -⟩ := Prod.mk.inj (Option.some.inj hs)
    exact h.cancelForegroundPairing
  | resume j outcome =>
    simp only [HubLink.step] at hs
    split at hs
    · cases hs
    · rename_i x hx
      split at hs
      · cases hs
      · rename_i hblocks
        refine h.resumed hx (fun hcancelled => ?_) halone (shows_of_resume hs)
        simpa [hcancelled] using hblocks
  | abort j =>
    simp only [HubLink.step] at hs
    split at hs
    · cases hs
    · split at hs
      · obtain ⟨rfl, -⟩ := Prod.mk.inj (Option.some.inj hs)
        refine ⟨h.own.sub fun i task hi => (Jobs.task_finish_eq_some_iff.1 hi).2,
          fun hi hrunning hshows => ?_⟩
        obtain ⟨hlink, hstate, hrevision, hothers⟩ :=
          h.shown (Jobs.finish_get_eq_some_iff.1 hi).2 hrunning hshows
        exact ⟨hlink, hstate, hrevision, fun k task hne hk =>
          hothers k task hne (Jobs.task_finish_eq_some_iff.1 hk).2⟩
      · cases hs

end Showing

/-! ### Runs -/

section Runs

variable {defaultEndpoint deviceId : Str} {store : Option StoredHubCredential} {approvalKey : Bool}
  {es : List Event}

theorem showing_of_reaches (h : Reaches step FailsAlone
      (initial defaultEndpoint deviceId store approvalKey) vm es) : Showing vm :=
  h.invariant (I := fun vm _ => Showing vm) (Showing.initial _ _ _ _)
    fun _ _ _ _ _ hinv hok hs => hinv.step hok hs

theorem inProgress_of_shows {s : GoffyUiState} (h : task.shows = some s.hubLinkState) :
    s.linkOperationInProgress = true ∧ s.hubLinkState ≠ .pairing := by
  unfold GoffyUiState.linkOperationInProgress
  cases task <;> simp only [LinkTask.shows, Option.some.injEq, reduceCtorEq] at h <;> simp [← h]

/-- A restoration, a rotation or a forgetting that was not cancelled is the last coroutine that was
launched and its state is shown. No pairing, rotation or clean-up begins beside it. -/
theorem shown_while_running (h : Reaches step FailsAlone
      (initial defaultEndpoint deviceId store approvalKey) vm es)
    {job : Job LinkTask LinkPoint} {state : HubLinkState} (hget : vm.jobs.get j = some job)
    (hrunning : job.cancelled = false) (hshows : job.task.shows = some state) :
    vm.linkJob = some j ∧ vm.uiState.hubLinkState = state ∧
      (∀ endpoint, vm.pairHub endpoint = vm) ∧ vm.rotateHubCredential = vm ∧
      vm.cancelForegroundPairing = vm := by
  obtain ⟨hlink, rfl, -⟩ := (showing_of_reaches h).shown hget hrunning hshows
  obtain ⟨hprogress, hpairing⟩ := inProgress_of_shows hshows
  refine ⟨hlink, rfl, fun endpoint => ?_, ?_, ?_⟩
  · unfold GoffyViewModel.pairHub
    rw [if_pos hprogress]
  · unfold GoffyViewModel.rotateHubCredential
    rw [if_pos hprogress]
  · unfold GoffyViewModel.cancelForegroundPairing
    rw [if_pos hpairing]

end Runs

/-- The link is restored, and a rotation waits for the answer of the Hub. -/
def rotateRun : List Action :=
  List.replicate 2 (.resume 0 .returned) ++ [.rotateHubCredential, .resume 1 .returned]

theorem rotation_shown : ∃ vm es, Reaches step FailsAlone pairedPhone vm es ∧ vm.linkJob = some 1 ∧
    vm.uiState.hubLinkState = .rotating ∧ (∀ endpoint, vm.pairHub endpoint = vm) ∧
      vm.rotateHubCredential = vm ∧ vm.cancelForegroundPairing = vm := by
  obtain ⟨vm, es, job, hrun, hget, hrunning, hshows⟩ : ∃ vm es job, run step pairedPhone rotateRun =
      some (vm, es) ∧ vm.jobs.get 1 = some job ∧ job.cancelled = false ∧
      job.task.shows = some .rotating := ⟨_, _, _, rfl, rfl, rfl, rfl⟩
  have hreach : Reaches step FailsAlone pairedPhone vm es := reaches_of_run (by decide) hrun
  exact ⟨vm, es, hreach, shown_while_running hreach hget hrunning hshows⟩

/-- A pairing is stopped and its clean-up cannot clear the store. Before it ends, a second pairing was
started and the link was forgotten. -/
def failBesideRun : List Action :=
  List.replicate 2 (.resume 0 .returned) ++
    [.pairHub (.ok pairedCredential.endpoint), .resume 1 .returned, .cancelForegroundPairing, .abort 1,
      .resume 2 .returned, .resume 2 (.failed false), .resume 2 .returned,
      .pairHub (.ok pairedCredential.endpoint), .forgetHub, .resume 2 .returned]

/-- The failure is shown while the link is being forgotten, and a pairing can begin. -/
theorem failure_shown_while_forgetting : ∃ vm es, Reaches step anyStep newPhone vm es ∧
    (∃ job, vm.jobs.get 4 = some job ∧ job.cancelled = false ∧ job.task.shows = some .forgetting) ∧
      vm.uiState.hubLinkState ≠ .forgetting ∧
      (vm.pairHub (.ok pairedCredential.endpoint)).uiState.hubLinkState = .pairing := by
  obtain ⟨vm, es, hrun, hjob, hstate⟩ : ∃ vm es, run step newPhone failBesideRun = some (vm, es) ∧
      (∃ job, vm.jobs.get 4 = some job ∧ job.cancelled = false ∧
        job.task.shows = some .forgetting) ∧ vm.uiState.hubLinkState ≠ .forgetting ∧
      (vm.pairHub (.ok pairedCredential.endpoint)).uiState.hubLinkState = .pairing :=
    ⟨_, _, rfl, ⟨_, rfl, rfl, rfl⟩, by decide, rfl⟩
  exact ⟨vm, es, run_reaches hrun, hjob, hstate⟩

end GoffyPhone.HubLink
