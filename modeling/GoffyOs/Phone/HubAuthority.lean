import GoffyOs.Phone.HubLinkRuns

/-!
# The credential behind a captured configuration

A plan for the Mac that waits for a confirmation keeps the `HubConfig` of the time when it was
prompted. When it is approved, the grant names the credential that is paired at that time.

* `Paired` says that a configuration and a credential were the link together;
* `Authority` relates the two: as long as nothing is paired anew, the credential of a later time is the
  one that belongs to the captured configuration. A rotation keeps the credential
  (`rotate_goes_on`), and everything else gives it up;
* `Authority.step` is the step lemma. It is used for the whole view model in `Confirmations`.
-/

namespace GoffyPhone.HubLink

open Kotlin
open Python (UUID)
open Machine
open HubLink.GoffyViewModel

variable {vm vm' : GoffyViewModel} {j : ℕ} {task : LinkTask} {point : LinkPoint}
  {outcome : Outcome} {es es' out : List Event} {captured captured' : Option HubConfig}

/-- The configuration and the credential have been the link together. -/
def Paired (es : List Event) (config : HubConfig) (id : UUID) : Prop :=
  ∃ e ∈ es, ∃ c, e.credential = some c ∧ c.toHubConfig = config ∧ c.credentialId = id

theorem Paired.mono {config : HubConfig} {id : UUID} (h : Paired es config id)
    (hsub : es ⊆ es') : Paired es' config id := by
  obtain ⟨e, he, hc⟩ := h
  exact ⟨e, hsub he, hc⟩

theorem paired_of_linkedBy {c : StoredHubCredential} {e : Event} (hlink : vm.LinkedBy c)
    (hc : e.credential = some c) {config : HubConfig} {id : UUID}
    (hconfig : vm.hubConfig = some config) (hid : vm.pairedCredentialId = some id) :
    Paired (es ++ [e]) config id := by
  refine ⟨e, by simp, c, hc, ?_, ?_⟩
  · exact Option.some.inj (hlink.hubConfig.symm.trans hconfig)
  · exact Option.some.inj (hlink.credentialId.symm.trans hid)

theorem Resumed.get_of_ne (h : Resumed vm j task vm' out) {i : ℕ} {x : Job LinkTask LinkPoint}
    (hx : vm'.jobs.get i = some x) (hne : i ≠ j) : vm.jobs.get i = some x := by
  cases h with
  | moved moved =>
    obtain ⟨point, hjobs⟩ := moved.jobs
    rw [hjobs] at hx
    rcases Jobs.modify_get_eq_some_iff.1 hx with ⟨heq, -⟩ | ⟨-, hx⟩
    · exact (hne heq).elim
    · exact hx
  | left jobs | failed jobs | linked jobs | rotated jobs | forgotten jobs | revoked jobs =>
    rw [jobs] at hx
    exact (Jobs.finish_get_eq_some_iff.1 hx).2

/-- What a coroutine does to the link: nothing, or under the current revision it gives it up, or it
ends with a new one. -/
theorem Resumed.link_cases (h : Resumed vm j task vm' out) :
    (vm'.hubConfig = vm.hubConfig ∧ vm'.pairedCredentialId = vm.pairedCredentialId) ∨
      task.revision = some vm.linkRevision ∧
        (vm'.hubConfig = none ∧ vm'.pairedCredentialId = none ∨
          ∃ e c, out = [e] ∧ e.credential = some c ∧ vm'.LinkedBy c ∧
            vm'.jobs = vm.jobs.finish j) := by
  cases h with
  | moved _ link =>
    rcases link with link | ⟨hconfig, hid, hcurrent⟩
    · exact Or.inl ⟨link.hubConfig, link.credentialId⟩
    · exact Or.inr ⟨hcurrent, Or.inl ⟨hconfig, hid⟩⟩
  | left _ _ _ link | forgotten _ _ _ link | revoked _ _ _ link =>
    exact Or.inl ⟨link.hubConfig, link.credentialId⟩
  | failed _ _ _ _ link =>
    rcases link with link | ⟨hconfig, hid, hcurrent⟩
    · exact Or.inl link
    · exact Or.inr ⟨hcurrent, Or.inl ⟨hconfig, hid⟩⟩
  | @linked e c jobs _ _ link current _ credential =>
    exact Or.inr ⟨current, Or.inr ⟨e, c, rfl, credential, link, jobs⟩⟩
  | @rotated c _ _ _ jobs _ link isRotation current =>
    refine Or.inr ⟨?_, Or.inr ⟨_, c, rfl, rfl, link, jobs⟩⟩
    rw [isRotation, current]
    rfl

/-! ### Rotations -/

/-- A rotation works for the credential that is paired, until it fails. -/
def RotationFacts (vm : GoffyViewModel) (rotation : Rotation) : LinkPoint → Prop
  | .join | .rotateSelf => vm.pairedCredentialId = some rotation.credentialId
  | .save c | .saved (some c) =>
    vm.pairedCredentialId = some rotation.credentialId ∧ c.credentialId = rotation.credentialId
  | _ => True

theorem RotationFacts.congr {rotation : Rotation} (h : RotationFacts vm rotation point)
    (hid : vm'.pairedCredentialId = vm.pairedCredentialId) : RotationFacts vm' rotation point := by
  unfold RotationFacts at h ⊢
  rwa [hid]

theorem credentialId_of_create {endpoint deviceId accessToken : Str} {credentialId : UUID}
    {createdAt tokenIssuedAt : Instant} {hubIdentity : HubIdentityPin} {c : StoredHubCredential}
    (h : StoredHubCredential.create endpoint credentialId deviceId accessToken createdAt
      tokenIssuedAt hubIdentity = some c) : c.credentialId = credentialId := by
  unfold StoredHubCredential.create at h
  split at h
  · cases h
    rfl
  · cases h

theorem rotationFailed_goes_on {rotation : Rotation} :
    ∃ p, (vm.rotationFailed j vm.linkRevision).jobs = vm.jobs.move j p ∧
      RotationFacts (vm.rotationFailed j vm.linkRevision) rotation p := by
  unfold rotationFailed
  rw [if_pos rfl]
  exact ⟨_, rfl, trivial⟩

/-- How a rotation goes on under the current revision. -/
theorem rotate_goes_on {previous : Option ℕ} {rotation : Rotation}
    (h : vm.resumeRotate j vm.linkRevision previous rotation point outcome = some (vm', out))
    (hfacts : RotationFacts vm rotation point) :
    (∃ p, vm'.jobs = vm.jobs.move j p ∧ RotationFacts vm' rotation p) ∨
      (vm'.jobs = vm.jobs.finish j ∧ out = []) ∨
      ∃ c, vm'.jobs = vm.jobs.finish j ∧ out = [.rotated j c] ∧
        vm.pairedCredentialId = some c.credentialId := by
  unfold resumeRotate at h
  split at h
  · split at h <;> simp only [Option.some.injEq, Prod.mk.injEq, reduceCtorEq] at h
    obtain ⟨rfl, -⟩ := h
    exact Or.inl ⟨_, rfl, hfacts⟩
  · simp only [Option.some.injEq, Prod.mk.injEq] at h
    obtain ⟨rfl, -⟩ := h
    unfold rotateIssued
    split
    case h_1 c hc => exact Or.inl ⟨_, rfl, hfacts, credentialId_of_create hc⟩
    case h_2 => exact Or.inl rotationFailed_goes_on
  · simp only [Option.some.injEq, Prod.mk.injEq] at h
    obtain ⟨rfl, -⟩ := h
    exact Or.inl rotationFailed_goes_on
  · simp only [Option.some.injEq, Prod.mk.injEq] at h
    obtain ⟨rfl, -⟩ := h
    exact Or.inl rotationFailed_goes_on
  · unfold save at h
    split at h <;> simp only [Option.some.injEq, Prod.mk.injEq, reduceCtorEq] at h <;>
      obtain ⟨rfl, -⟩ := h
    · exact Or.inl ⟨_, rfl, hfacts⟩
    · exact Or.inl ⟨_, rfl, trivial⟩
  · unfold rotateSaved at h
    split at h
    · simp only [Option.some.injEq, Prod.mk.injEq] at h
      obtain ⟨rfl, -⟩ := h
      exact Or.inl rotationFailed_goes_on
    · rw [if_neg (not_not.2 rfl)] at h
      split at h <;> simp only [Option.some.injEq, Prod.mk.injEq, reduceCtorEq] at h <;>
        obtain ⟨rfl, rfl⟩ := h
      · refine Or.inr (Or.inr ⟨_, rfl, rfl, ?_⟩)
        rw [hfacts.2]
        exact hfacts.1
      · exact Or.inl rotationFailed_goes_on
    · cases h
  · simp only [Option.some.injEq, Prod.mk.injEq] at h
    obtain ⟨rfl, rfl⟩ := h
    exact Or.inr (Or.inl ⟨rfl, rfl⟩)
  · unfold clearLocalHubAuthority at h
    split at h <;> simp only [Option.some.injEq, Prod.mk.injEq, reduceCtorEq] at h <;>
      obtain ⟨rfl, -⟩ := h <;> exact Or.inl ⟨_, rfl, trivial⟩

/-! ### Authority -/

/-- Everything but a pairing. -/
def Action.keepsAuthority : Action → Bool
  | .pairHub _ | .cancelForegroundPairing => false
  | .configureHub _ _ | .forgetHub | .rotateHubCredential | .resume _ _ | .abort _ => true

def LinkTask.isPairHub : LinkTask → Bool
  | .pairHub _ _ => true
  | _ => false

/-- The credential that is paired now belongs to the configuration in force, and to the captured one. -/
structure Authority (vm : GoffyViewModel) (captured : Option HubConfig) (es : List Event) : Prop where
  own : OwnRevisions vm.jobs vm.linkRevision
  unpaired : NoneRuns LinkTask.isPairHub vm
  linked : ∀ config id, vm.hubConfig = some config → vm.pairedCredentialId = some id →
    Paired es config id
  kept : ∀ config id, captured = some config → vm.pairedCredentialId = some id →
    Paired es config id
  restoring : ∀ i, vm.jobs.task i = some (.restoreHubCredential vm.linkRevision) →
    vm.hubConfig = none ∧ captured = none
  rotating : ∀ i x previous rotation, vm.jobs.get i = some x →
    x.task = .rotateHubCredential vm.linkRevision previous rotation →
    RotationFacts vm rotation x.point

namespace Authority

/-- Without a paired credential and with another revision, there is nothing to show. -/
theorem of_unpaired (hown : OwnRevisions vm.jobs vm.linkRevision)
    (hunpaired : NoneRuns LinkTask.isPairHub vm) (hid : vm.pairedCredentialId = none)
    (hcurrent : ∀ i task, vm.jobs.task i = some task → task.revision ≠ some vm.linkRevision) :
    Authority vm captured es where
  own := hown
  unpaired := hunpaired
  linked _ _ _ h := by
    rw [hid] at h
    cases h
  kept _ _ _ h := by
    rw [hid] at h
    cases h
  restoring i hi := (hcurrent i _ hi rfl).elim
  rotating i x previous rotation hx htask := by
    refine (hcurrent i x.task (Jobs.task_eq_some hx) ?_).elim
    rw [htask]
    rfl

theorem initial (defaultEndpoint deviceId : Str) (store : Option StoredHubCredential)
    (approvalKey : Bool) :
    Authority (initial defaultEndpoint deviceId store approvalKey) none [] where
  own := ownRevisions_initial _ _ _ _
  unpaired i task hi := by
    rw [(task_initial hi).2]
    rfl
  linked _ _ h := by cases h
  kept _ _ h := by cases h
  restoring _ _ := ⟨rfl, rfl⟩
  rotating i x previous rotation hx htask := by
    have := (task_initial (Jobs.task_eq_some hx)).2
    rw [htask] at this
    cases this

/-- A confirmation is asked for under the configuration in force, or there is none left. -/
theorem capture (h : Authority vm captured es)
    (hcaptured : captured' = none ∨ captured' = vm.hubConfig ∨ captured' = captured) :
    Authority vm captured' es := by
  refine { h with kept := fun config id hconfig hid => ?_, restoring := fun i hi => ?_ }
  · rcases hcaptured with rfl | rfl | rfl
    · cases hconfig
    · exact h.linked config id hconfig hid
    · exact h.kept config id hconfig hid
  · obtain ⟨hnone, hold⟩ := h.restoring i hi
    refine ⟨hnone, ?_⟩
    rcases hcaptured with rfl | rfl | rfl
    · rfl
    · exact hnone
    · exact hold

/-- A job under the current revision is the only one that concerns the link. -/
theorem eq_of_current (h : Authority vm captured es) (htask : vm.jobs.task j = some task)
    (hcurrent : task.revision = some vm.linkRevision) {i : ℕ} {task' : LinkTask}
    (hi : vm.jobs.task i = some task') (hr : task'.revision = some vm.linkRevision) : i = j :=
  h.own.unique hi htask hr hcurrent

theorem rotating_resumed {x : Job LinkTask LinkPoint} (h : Authority vm captured es)
    (hx : vm.jobs.get j = some x) (hs : vm.resume j x.point outcome x.task = some (vm', out))
    {i : ℕ} {y : Job LinkTask LinkPoint} {previous : Option ℕ} {rotation : Rotation}
    (hy : vm'.jobs.get i = some y)
    (htask : y.task = .rotateHubCredential vm.linkRevision previous rotation) :
    RotationFacts vm' rotation y.point := by
  have hr := resumed_of_resume hs
  have hi := hr.task_of_task (Jobs.task_eq_some hy)
  by_cases hij : i = j
  · subst hij
    have hsame : x.task = y.task := by
      rw [Jobs.task_eq_some hx] at hi
      exact Option.some.inj hi
    rw [hsame, htask] at hs
    rcases rotate_goes_on hs (h.rotating i x previous rotation hx (hsame.trans htask)) with
      ⟨p, hjobs, hfacts⟩ | ⟨hjobs, -⟩ | ⟨c, hjobs, -⟩
    · rw [hjobs, Jobs.move_get_eq_some_iff hx] at hy
      obtain ⟨-, rfl⟩ | ⟨hne, -⟩ := hy
      · exact hfacts
      · exact (hne rfl).elim
    · rw [hjobs] at hy
      exact ((Jobs.finish_get_eq_some_iff.1 hy).1 rfl).elim
    · rw [hjobs] at hy
      exact ((Jobs.finish_get_eq_some_iff.1 hy).1 rfl).elim
  · refine (h.rotating i y previous rotation (hr.get_of_ne hy hij) htask).congr ?_
    rcases hr.link_cases with ⟨-, hid⟩ | ⟨hcurrent, -⟩
    · exact hid
    · refine (hij (h.eq_of_current (Jobs.task_eq_some hx) hcurrent hi ?_)).elim
      rw [htask]
      rfl

/-- A coroutine goes on. -/
theorem resumed {x : Job LinkTask LinkPoint} (h : Authority vm captured es)
    (hx : vm.jobs.get j = some x)
    (hs : vm.resume j x.point outcome x.task = some (vm', out)) :
    Authority vm' captured (es ++ out) := by
  have hr := resumed_of_resume hs
  have hrevision := hr.linkRevision
  have hsub : es ⊆ es ++ out := List.subset_append_left es out
  constructor
  · rw [hrevision]
    exact h.own.sub fun i task' hi => hr.task_of_task hi
  · exact fun i task' hi => h.unpaired i task' (hr.task_of_task hi)
  · intro config id hconfig hid
    rcases hr.link_cases with ⟨hconfig', hid'⟩ | ⟨-, ⟨-, hnone⟩ | ⟨e, c, rfl, hc, hlink, hjobs⟩⟩
    · exact (h.linked config id (hconfig' ▸ hconfig) (hid' ▸ hid)).mono hsub
    · rw [hnone] at hid
      cases hid
    · exact paired_of_linkedBy hlink hc hconfig hid
  · intro config id hconfig hid
    rcases hr.link_cases with ⟨-, hid'⟩ | ⟨hcurrent, ⟨-, hnone⟩ | ⟨e, c, rfl, hc, hlink, hjobs⟩⟩
    · exact (h.kept config id hconfig (hid' ▸ hid)).mono hsub
    · rw [hnone] at hid
      cases hid
    · have hid' : id = c.credentialId := Option.some.inj (hid.symm.trans hlink.credentialId)
      have htask := Jobs.task_eq_some hx
      cases htasks : x.task with
      | restoreHubCredential r =>
        rw [htasks] at hcurrent htask
        rw [Option.some.inj hcurrent] at htask
        rw [(h.restoring j htask).2] at hconfig
        cases hconfig
      | pairHub r endpoint =>
        have := h.unpaired j _ htask
        rw [htasks] at this
        cases this
      | rotateHubCredential r previous rotation =>
        rw [htasks] at hcurrent hs
        rw [Option.some.inj hcurrent] at hs htasks
        -- the rotation has worked for the credential that is paired
        rcases rotate_goes_on hs (h.rotating j x previous rotation hx htasks) with
          ⟨p, hmoved, -⟩ | ⟨-, hout⟩ | ⟨c', -, hout, hc'⟩
        · exact (Jobs.move_ne_finish hx (hmoved.symm.trans hjobs)).elim
        · cases hout
        · cases hout
          cases hc
          exact (h.kept config id hconfig (hid' ▸ hc')).mono hsub
      | forgetHub previous revocation | cancelForegroundPairing enrollment =>
        rw [htasks] at hcurrent
        cases hcurrent
  · intro i hi
    rw [hrevision] at hi
    have hold := hr.task_of_task hi
    obtain ⟨hnone, hcaptured⟩ := h.restoring i hold
    refine ⟨?_, hcaptured⟩
    rcases hr.link_cases with ⟨hconfig', -⟩ | ⟨hcurrent, ⟨hconfig', -⟩ | ⟨e, c, rfl, hc, hlink, hjobs⟩⟩
    · rw [hconfig', hnone]
    · exact hconfig'
    · -- who has established the link has ended
      obtain rfl := h.eq_of_current (Jobs.task_eq_some hx) hcurrent hold rfl
      rw [hjobs] at hi
      exact ((Jobs.task_finish_eq_some_iff.1 hi).1 rfl).elim
  · intro i y previous rotation hy htask
    rw [hrevision] at htask
    exact h.rotating_resumed hx hs hy htask

/-- Under a new revision, no running coroutine concerns the link. -/
theorem not_current_of_succ (h : Authority vm captured es) {i : ℕ}
    (hi : vm.jobs.task i = some task) : task.revision ≠ some (vm.linkRevision + 1) := by
  intro hr
  have := h.own.le hi hr
  omega

theorem configureHub (h : Authority vm captured es) (allowed : Bool)
    (config : Except Str HubConfig) : Authority (vm.configureHub allowed config) captured es := by
  have hown : OwnRevisions (vm.jobs.cancel vm.linkJob) (vm.linkRevision + 1) :=
    (h.own.cancel _).succ
  have hunpaired {i : ℕ} {task : LinkTask} (hi : (vm.jobs.cancel vm.linkJob).task i = some task) :
      task.isPairHub = false := h.unpaired i task (by rwa [Jobs.task_cancel] at hi)
  have hcurrent {i : ℕ} {task : LinkTask} (hi : (vm.jobs.cancel vm.linkJob).task i = some task) :
      task.revision ≠ some (vm.linkRevision + 1) :=
    h.not_current_of_succ (by rwa [Jobs.task_cancel] at hi)
  unfold GoffyViewModel.configureHub
  split
  · exact { h with }
  · cases config with
    | error message =>
      exact {
        own := hown
        unpaired := fun i task => hunpaired
        linked := h.linked
        kept := h.kept
        restoring := fun i hi => (hcurrent hi rfl).elim
        rotating := fun i x previous rotation hx htask =>
          (hcurrent (Jobs.task_eq_some hx) (by rw [htask]; rfl)).elim }
    | ok config => exact of_unpaired hown (fun i task => hunpaired) rfl fun i task => hcurrent

theorem forgetHub (h : Authority vm captured es) : Authority vm.forgetHub.1 captured' es' := by
  have htasks {i : ℕ} {task : LinkTask} (hi : vm.forgetHub.1.jobs.task i = some task) :
      task = .forgetHub vm.linkJob vm.revocation ∨ vm.jobs.task i = some task := by
    rcases Jobs.task_launch_eq_some_iff.1 hi with ⟨-, rfl⟩ | hold
    · exact Or.inl rfl
    · exact Or.inr (by rwa [Jobs.task_cancel] at hold)
  refine of_unpaired ((h.own.cancel _).launch _ _ fun r hr => by cases hr) (fun i task hi => ?_) rfl
    fun i task hi => ?_
  · rcases htasks hi with rfl | hold
    · rfl
    · exact h.unpaired i task hold
  · rcases htasks hi with rfl | hold
    · intro hr
      cases hr
    · exact h.not_current_of_succ hold

/-- What can be rotated is the credential that is paired. -/
theorem credentialId_of_rotation {rotation : Rotation} (h : vm.rotation = some rotation) :
    vm.pairedCredentialId = some rotation.credentialId := by
  unfold GoffyViewModel.rotation at h
  split at h
  · split at h
    case h_1 config credentialId createdAt hubIdentity hconfig hid hcreated hidentity =>
      cases h
      exact hid
    case h_2 => cases h
  · cases h

theorem rotateHubCredential (h : Authority vm captured es)
    (hcaptured : captured' = none ∨ captured' = captured) :
    Authority vm.rotateHubCredential captured' es := by
  have h := h.capture (hcaptured.imp_right Or.inr)
  unfold GoffyViewModel.rotateHubCredential
  split
  · exact h
  · split
    · exact { h with }
    case h_2 rotation hrotation =>
      have hcurrent {i : ℕ} {task : LinkTask} (hold : (vm.jobs.cancel vm.linkJob).task i = some task) :
          task.revision ≠ some (vm.linkRevision + 1) :=
        h.not_current_of_succ (by rwa [Jobs.task_cancel] at hold)
      constructor
      · exact (h.own.cancel _).launch _ _ fun r hr => (Option.some.inj hr).symm
      · intro i task hi
        rcases Jobs.task_launch_eq_some_iff.1 hi with ⟨-, rfl⟩ | hold
        · rfl
        · exact h.unpaired i task (by rwa [Jobs.task_cancel] at hold)
      · exact h.linked
      · exact h.kept
      · intro i hi
        rcases Jobs.task_launch_eq_some_iff.1 hi with ⟨-, heq⟩ | hold
        · cases heq
        · exact (hcurrent hold rfl).elim
      · intro i x previous rotation' hx htask
        rcases Jobs.launch_get_eq_some_iff.1 hx with ⟨-, rfl⟩ | hold
        · cases htask
          have hid := credentialId_of_rotation hrotation
          exact hid
        · refine (hcurrent (Jobs.task_eq_some hold) ?_).elim
          rw [htask]
          rfl

/-- The step lemma, for calls that take the captured configuration back or leave it. -/
theorem step {a : Action} (h : Authority vm captured es) (ha : a.keepsAuthority = true)
    (hs : step vm a = some (vm', out)) (hcaptured : captured' = none ∨ captured' = captured) :
    Authority vm' captured' (es ++ out) := by
  have hc := h.capture (hcaptured.imp_right Or.inr)
  cases a with
  | configureHub allowed config =>
    simp only [HubLink.step, Option.some.injEq, Prod.mk.injEq] at hs
    obtain ⟨rfl, rfl⟩ := hs
    rw [List.append_nil]
    exact hc.configureHub allowed config
  | pairHub endpoint | cancelForegroundPairing => cases ha
  | forgetHub =>
    simp only [HubLink.step, Option.some.injEq] at hs
    have : vm.forgetHub.1 = vm' := congrArg Prod.fst hs
    rw [← this]
    exact hc.forgetHub
  | rotateHubCredential =>
    simp only [HubLink.step, Option.some.injEq, Prod.mk.injEq] at hs
    obtain ⟨rfl, rfl⟩ := hs
    rw [List.append_nil]
    exact h.rotateHubCredential hcaptured
  | resume j outcome =>
    simp only [HubLink.step] at hs
    split at hs
    · cases hs
    case h_2 job hjob =>
      split at hs
      · cases hs
      · exact hc.resumed hjob hs
  | abort j =>
    simp only [HubLink.step] at hs
    split at hs
    · cases hs
    split at hs
    · simp only [Option.some.injEq, Prod.mk.injEq] at hs
      obtain ⟨rfl, rfl⟩ := hs
      rw [List.append_nil]
      have hsub {i : ℕ} {task : LinkTask} (hi : (vm.jobs.finish j).task i = some task) :
          vm.jobs.task i = some task := (Jobs.task_finish_eq_some_iff.1 hi).2
      exact { hc with
        own := hc.own.sub fun i task => hsub
        unpaired := fun i task hi => hc.unpaired i task (hsub hi)
        restoring := fun i hi => hc.restoring i (hsub hi)
        rotating := fun i x previous rotation hx htask =>
          hc.rotating i x previous rotation (Jobs.finish_get_eq_some_iff.1 hx).2 htask }
    · cases hs

end Authority

end GoffyPhone.HubLink
