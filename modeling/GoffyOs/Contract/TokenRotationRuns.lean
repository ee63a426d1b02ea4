import GoffyOs.Contract.TokenRotationSteps

/-!
# Rotations over runs

`rotations_settle` says how rotations end: with an empty store or a token that the Hub accepts, and with
the new token if its answer can be stored and nothing interferes (`Stores`, `GoesOn`).

In `rotation_cut_off` a development Hub is configured while the answer is on its way. The rotation is
cancelled, and the phone keeps the old token. In `answer_refused` the clock of the Hub was set back. The
phone refuses the answer and clears its store.
-/

namespace GoffyPhone.HubLink

open Kotlin
open Python (UUID NaiveDateTime DateTime Exn Fault)
open GoffyHub.Credentials (CredentialTable IssueArgs authenticate tokenDigest lastToken generatedTokens
  issuedIds)
open Machine
open LinkedHub
open HubLink.GoffyViewModel

/-! ### Runs -/

section Runs

variable {zone : NaiveDateTime → Except Exn ℤ} {T : Set Python.Str} {s s' s₀ : LinkedHub}
  {es : List LinkEvent} {out : List LinkEvent}

/-- A call sends nothing. -/
theorem LinkedInv.called {vm : GoffyViewModel} {events : List Event}
    (h : LinkedInv T { s with phone := vm } es) (hquiet : ∀ e ∈ events, e.isStore = false) :
    LinkedInv T { s with phone := vm, requests := s.requests ++ [] }
      (es ++ (events.map .link ++ ([] : List Request).map .sent)) := by
  rw [List.append_nil, List.map_nil, List.append_nil]
  refine ⟨h.showing, h.tokens, fun hes => h.settled ?_, fun hes => h.pending ?_⟩ <;>
    rwa [unsettled_append, foldl_link _ _ hquiet] at hes

theorem LinkedInv.step (hinj : Set.InjOn tokenDigest T) (h : LinkedInv T s es) {a : LinkAction}
    (hok : Undisturbed T s es a) (hs : LinkedHub.step zone s a = some (s', out)) :
    LinkedInv T s' (es ++ out) := by
  cases a with
  | phone a =>
    simp only [LinkedHub.step, Option.bind_eq_bind, Option.bind_eq_some_iff] at hs
    obtain ⟨_, hguard, ⟨vm, events⟩, hphone, hs⟩ := hs
    obtain ⟨rfl, rfl⟩ := Prod.mk.inj (Option.some.inj hs)
    cases a with
    | configureHub allowed config =>
      obtain ⟨rfl, rfl⟩ := Prod.mk.inj (Option.some.inj hphone)
      exact (h.configureHub hok).called fun e he => by cases he
    | pairHub endpoint =>
      obtain ⟨rfl, rfl⟩ := Prod.mk.inj (Option.some.inj hphone)
      exact (h.pairHub endpoint).called fun e he => by cases he
    | forgetHub =>
      obtain ⟨rfl, rfl⟩ := Prod.mk.inj (Option.some.inj hphone)
      refine h.forgetHub.called fun e he => ?_
      obtain ⟨r, -, rfl⟩ := Option.map_eq_some_iff.1 (Option.mem_toList.1 he)
      rfl
    | rotateHubCredential =>
      obtain ⟨rfl, rfl⟩ := Prod.mk.inj (Option.some.inj hphone)
      exact h.rotateHubCredential.called fun e he => by cases he
    | cancelForegroundPairing =>
      obtain ⟨rfl, rfl⟩ := Prod.mk.inj (Option.some.inj hphone)
      exact h.cancelForegroundPairing.called fun e he => by cases he
    | resume j outcome =>
      have halone : FailsAlone s.phone [] (.resume j outcome) := hok.2
      have hshowing := h.showing.step halone hphone
      simp only [HubLink.step] at hphone
      split at hphone
      · cases hphone
      · rename_i x hx
        split at hphone
        · cases hphone
        · rename_i hblocks
          have hanswers : s.Answers j outcome = true := by
            simp only [Option.guard_eq_some'] at hguard
            exact hguard
          exact h.resume hshowing hx hanswers (fun hcancelled => by simpa [hcancelled] using hblocks)
            hok.1 hphone
    | abort j =>
      have halone : FailsAlone s.phone [] (.abort j) := trivial
      have hshowing := h.showing.step halone hphone
      simp only [HubLink.step] at hphone
      split at hphone
      · cases hphone
      · rename_i x hx
        split at hphone
        · rename_i hcancelled
          obtain ⟨rfl, rfl⟩ := Prod.mk.inj (Option.some.inj hphone)
          exact (h.abort hx hcancelled.1 hshowing).called fun e he => by cases he
        · cases hphone
  | issues job args accessToken c now fault =>
    simp only [LinkedHub.step, Option.bind_eq_bind, Option.bind_eq_some_iff] at hs
    obtain ⟨_, hguard, hs⟩ := hs
    obtain ⟨rfl, rfl⟩ := Prod.mk.inj (Option.some.inj hs)
    refine h.issues hok fun j hj => ?_
    subst hj
    simp only [Option.guard_eq_some', Option.all_some, Option.any_eq_true] at hguard
    obtain ⟨x, hx, -⟩ := hguard
    exact Jobs.lt_next hx
  | rotates i accessToken now fault =>
    simp only [LinkedHub.step] at hs
    split at hs
    · rename_i j token hrequest
      obtain ⟨c, hprincipal, hs⟩ := Option.map_eq_some_iff.1 hs
      obtain ⟨rfl, rfl⟩ := Prod.mk.inj hs
      exact h.rotates hinj (List.mem_of_getElem? hrequest) hprincipal hok.1 hok.2.1 hok.2.2
    · cases hs
  | revokes i now fault =>
    simp only [LinkedHub.step] at hs
    split at hs
    · rename_i j token hrequest
      obtain ⟨c, hprincipal, hs⟩ := Option.map_eq_some_iff.1 hs
      obtain ⟨rfl, rfl⟩ := Prod.mk.inj hs
      exact h.revokes hinj (List.mem_of_getElem? hrequest) hprincipal
    · cases hs

/-- The generated tokens belong to `T`. -/
theorem mem_of_reaches (hinj : Set.InjOn tokenDigest T) {table : CredentialTable}
    {changes : List GoffyHub.Credentials.Event} (h : Reaches (GoffyHub.Credentials.step zone)
      (GoffyHub.Credentials.Fresh T) CredentialTable.empty table changes) :
    GoffyHub.Credentials.Valid T table changes ∧ ∀ t ∈ generatedTokens changes, t ∈ T := by
  refine h.invariant (I := fun table changes => GoffyHub.Credentials.Valid T table changes ∧
    ∀ t ∈ generatedTokens changes, t ∈ T) ⟨.empty, nofun⟩ fun table changes a table' out hI hok hs => ?_
  refine ⟨hI.1.step hinj hok hs, fun t ht => ?_⟩
  obtain ⟨-, rfl⟩ := Prod.mk.inj (Option.some.inj hs)
  rw [generatedTokens, List.filterMap_append, List.mem_append] at ht
  rcases ht with ht | ht
  · exact hI.2 t ht
  · rcases hI.1.perform_cases zone a with ⟨o, hp, ho⟩ | ⟨_, _, _, _, _, _, rfl, hp, -⟩ |
      ⟨_, _, _, _, rfl, hp, -⟩ | ⟨_, _, _, _, _, _, rfl, hp, -⟩ <;>
      rw [hp] at ht
    · rw [ho] at ht
      cases ht
    · rw [List.mem_singleton.1 ht]
      exact hok.2.2.1
    · cases ht
    · rw [List.mem_singleton.1 ht]
      exact hok.2.2.1

theorem LinkedInv.initial (hinj : Set.InjOn tokenDigest T) (h : Starts zone T s) :
    LinkedInv T s [] := by
  obtain ⟨defaultEndpoint, deviceId, store, approvalKey, hphone⟩ := h.phone
  obtain ⟨hvalid, hmem⟩ := mem_of_reaches hinj h.hub
  have hpoint : ∀ j job, s.phone.jobs.get j = some job →
      job.task = .restoreHubCredential 0 ∧ job.point = .load := by
    intro j job hget
    rw [hphone] at hget
    rcases Jobs.launch_get_eq_some_iff.1 hget with ⟨-, rfl⟩ | hget
    · exact ⟨rfl, rfl⟩
    · cases hget
  -- a phone that was just started has read nothing, and only its store holds a token
  have hexposed : ∀ t, s.Exposed t → ∃ c, s.phone.store = some c ∧ t = bearer c.accessToken := by
    rintro t (⟨u, hu, rfl⟩ | ⟨r, hr, -⟩)
    · cases hu with
      | store hc => exact ⟨_, hc, rfl⟩
      | link hstate =>
        rw [hphone] at hstate
        cases hstate
      | captured htask hconfig =>
        obtain ⟨job, hget, rfl⟩ := Option.map_eq_some_iff.1 htask
        rw [(hpoint _ _ hget).1] at hconfig
        cases hconfig
      | read hget hread =>
        rw [(hpoint _ _ hget).2] at hread
        cases hread
    · rw [h.requests] at hr
      cases hr
  have hunsaved : ∀ j id t, ¬ s.Unsaved j id t := by
    intro j id t ht
    cases ht with
    | candidate hget hc =>
      rw [(hpoint _ _ hget).2] at hc
      cases hc
    | answer _ _ ha =>
      rw [h.answers] at ha
      cases ha
  refine ⟨hphone ▸ .initial _ _ _ _, ⟨hvalid, hmem, fun t ht => ?_, fun j id t ht => ?_,
    fun j id t ht => ?_, fun i j id id' t ht => ?_, ?_, fun j a ha => ?_⟩, fun _ c hc => ?_, nofun⟩
  · obtain ⟨c, hc, rfl⟩ := hexposed t ht
    exact (hvalid.tokens.last_issued _ _ (h.accepted c hc).1).2
  · exact (hunsaved j id t ht).elim
  · exact (hunsaved j id t ht).elim
  · exact (hunsaved i id t ht).elim
  · rw [h.requests]
    exact nofun
  · rw [h.answers] at ha
    cases ha
  · refine ⟨h.accepted c hc, fun hspent => ?_⟩
    generalize bearer c.accessToken = t at hspent
    cases hspent with
    | sent hr =>
      rw [h.requests] at hr
      cases hr
    | forgotten hget htask =>
      rw [(hpoint _ _ hget).1] at htask
      cases htask

theorem linkedInv_of_reaches (hinj : Set.InjOn tokenDigest T) (h₀ : Starts zone T s₀)
    (h : Reaches (LinkedHub.step zone) (Undisturbed T) s₀ s es) : LinkedInv T s es :=
  h.invariant (I := LinkedInv T) (.initial hinj h₀) fun _ _ _ _ _ hinv hok hs => hinv.step hinj hok hs

end Runs

/-! ### The answer of a rotation -/

/-- As long as nothing fails, the coroutine neither writes nor clears the store any more. -/
def LinkPoint.isPastStore : LinkPoint → Bool
  | .load | .loaded _ | .saved (some _) | .deleteKey _ _ | .cleared _ _ | .revokeSelf _ => true
  | _ => false

/-- This holds of a cancelled coroutine that is at no blocking call, too. -/
def SparesStore (x : Job LinkTask LinkPoint) : Prop :=
  x.point.isPastStore = true ∨ x.cancelled = true ∧ x.point.isBlocking = false

/-- The answer can be stored, and no coroutine but the rotation is going to write or clear the store. -/
structure Stores (vm : GoffyViewModel) (j : ℕ) (r : Rotation) (rotated : RotatedHubCredential) :
    Prop where
  job : ∃ x revision previous, vm.jobs.get j = some x ∧ x.point = .rotateSelf ∧
    x.task = .rotateHubCredential revision previous r
  others : ∀ i x, i ≠ j → vm.jobs.get i = some x → SparesStore x
  deviceId : StoredHubCredential.matchesDeviceId vm.deviceId = true
  token : StoredHubCredential.minTokenLength ≤ rotated.accessToken.length ∧
    rotated.accessToken.length ≤ StoredHubCredential.maxTokenLength
  rotatedAt : r.createdAt ≤ rotated.rotatedAt

/-- Nobody calls, and what the coroutines wait for succeeds. -/
def GoesOn : LinkAction → Prop
  | .phone (.resume _ outcome) => outcome = .returned
  | .phone (.abort _) | .issues _ _ _ _ _ _ | .rotates _ _ _ _ | .revokes _ _ _ => True
  | .phone _ => False

section Answer

variable {zone : NaiveDateTime → Except Exn ℤ} {s s' : LinkedHub} {vm vm' : GoffyViewModel} {i j : ℕ}
  {x : Job LinkTask LinkPoint} {task : LinkTask} {point : LinkPoint} {c : StoredHubCredential}
  {out : List Event} {es : List LinkEvent}

theorem pastStore_of_resume (h : vm.resume i point .returned task = some (vm', out))
    (hpoint : point.isPastStore = true) : vm'.store = vm.store ∧
      ((∃ p, vm'.jobs = vm.jobs.move i p ∧ p.isPastStore = true) ∨ vm'.jobs = vm.jobs.finish i) := by
  cases point with
  | load =>
    cases task with
    | restoreHubCredential revision =>
      obtain ⟨rfl, -⟩ := Prod.mk.inj (Option.some.inj h)
      exact ⟨rfl, Or.inl ⟨_, rfl, rfl⟩⟩
    | _ => cases h
  | loaded result =>
    cases task with
    | restoreHubCredential revision =>
      simp only [resume, resumeRestore] at h
      split at h
      · obtain ⟨rfl, -⟩ := Prod.mk.inj (Option.some.inj h)
        exact ⟨rfl, Or.inr rfl⟩
      · cases result with
        | none =>
          obtain ⟨rfl, -⟩ := Prod.mk.inj (Option.some.inj h)
          exact ⟨rfl, Or.inr rfl⟩
        | some loaded =>
          cases loaded <;>
            · obtain ⟨rfl, -⟩ := Prod.mk.inj (Option.some.inj h)
              exact ⟨rfl, Or.inr rfl⟩
    | _ => cases h
  | saved persisted =>
    cases persisted with
    | none => cases hpoint
    | some c =>
      cases task with
      | pairHub revision endpoint =>
        simp only [resume, resumePair, pairSaved] at h
        split at h <;>
          · obtain ⟨rfl, -⟩ := Prod.mk.inj (Option.some.inj h)
            exact ⟨rfl, Or.inr rfl⟩
      | rotateHubCredential revision previous r =>
        simp only [resume, resumeRotate, rotateSaved] at h
        split at h <;>
          · obtain ⟨rfl, -⟩ := Prod.mk.inj (Option.some.inj h)
            exact ⟨rfl, Or.inr rfl⟩
      | _ => cases h
  | deleteKey rejected cleared =>
    cases task <;>
      · obtain ⟨rfl, -⟩ := Prod.mk.inj (Option.some.inj h)
        exact ⟨rfl, Or.inl ⟨_, rfl, rfl⟩⟩
  | cleared rejected cleared =>
    cases task with
    | restoreHubCredential revision =>
      obtain ⟨rfl, -⟩ := Prod.mk.inj (Option.some.inj h)
      exact ⟨rfl, Or.inr rfl⟩
    | pairHub revision endpoint =>
      obtain ⟨rfl, -⟩ := Prod.mk.inj (Option.some.inj h)
      unfold pairCleared
      split
      · exact ⟨rfl, Or.inr rfl⟩
      · split <;> exact ⟨rfl, Or.inr rfl⟩
    | forgetHub previous revocation =>
      cases revocation with
      | none =>
        obtain ⟨rfl, -⟩ := Prod.mk.inj (Option.some.inj h)
        exact ⟨rfl, Or.inr rfl⟩
      | some _ =>
        obtain ⟨rfl, -⟩ := Prod.mk.inj (Option.some.inj h)
        exact ⟨rfl, Or.inl ⟨_, rfl, rfl⟩⟩
    | rotateHubCredential revision previous r =>
      obtain ⟨rfl, -⟩ := Prod.mk.inj (Option.some.inj h)
      exact ⟨rfl, Or.inr rfl⟩
    | cancelForegroundPairing enrollment =>
      obtain ⟨rfl, -⟩ := Prod.mk.inj (Option.some.inj h)
      cases cleared <;> exact ⟨rfl, Or.inr rfl⟩
  | revokeSelf cleared =>
    cases task with
    | forgetHub previous revocation =>
      cases revocation with
      | none => cases h
      | some r =>
        obtain ⟨rfl, -⟩ := Prod.mk.inj (Option.some.inj h)
        exact ⟨rfl, Or.inr rfl⟩
    | _ => cases h
  | _ => cases hpoint

theorem save_of_resume (h : vm.resume i (.save c) .returned task = some (vm', out)) :
    vm'.store = some c ∧ vm'.jobs = vm.jobs.move i (.saved (some c)) := by
  cases task with
  | pairHub revision endpoint =>
    obtain ⟨rfl, -⟩ := Prod.mk.inj (Option.some.inj h)
    exact ⟨rfl, rfl⟩
  | rotateHubCredential revision previous r =>
    obtain ⟨rfl, -⟩ := Prod.mk.inj (Option.some.inj h)
    exact ⟨rfl, rfl⟩
  | _ => cases h

/-- The answer is being stored, or it is and nobody is going to change that. -/
def Storing (vm : GoffyViewModel) (j : ℕ) (c : StoredHubCredential) : Prop :=
  (∃ x, vm.jobs.get j = some x ∧ x.point = .save c ∧ x.cancelled = false ∧
      ∀ i x, i ≠ j → vm.jobs.get i = some x → SparesStore x) ∨
    vm.store = some c ∧ ∀ i x, vm.jobs.get i = some x → SparesStore x

/-- A step of another coroutine, or of one that is past the store. -/
theorem Storing.sub (h : Storing vm j c) (hstore : vm'.store = vm.store)
    (hjobs : ∀ i x, vm'.jobs.get i = some x → vm.jobs.get i = some x ∨ SparesStore x)
    (hj : ∀ x, vm.jobs.get j = some x → x.cancelled = false → x.point.isPastStore = false →
      vm'.jobs.get j = some x) : Storing vm' j c := by
  rcases h with ⟨x, hx, hpoint, hrunning, hothers⟩ | ⟨hc, hall⟩
  · refine Or.inl ⟨x, hj x hx hrunning (by rw [hpoint]; rfl), hpoint, hrunning, fun i y hne hi => ?_⟩
    exact (hjobs i y hi).elim (hothers i y hne) id
  · exact Or.inr ⟨hstore.trans hc, fun i y hi => (hjobs i y hi).elim (hall i y) id⟩

theorem Storing.resume (h : Storing vm j c) (hx : vm.jobs.get i = some x)
    (hblocks : x.cancelled = true → x.point.isBlocking = true)
    (hs : vm.resume i x.point .returned x.task = some (vm', out)) : Storing vm' j c := by
  have hspared (hspares : SparesStore x) : Storing vm' j c := by
    -- a cancelled coroutine goes on only where it blocks
    have hpast : x.point.isPastStore = true := by
      rcases hspares with hpast | ⟨hcancelled, hnot⟩
      · exact hpast
      · rw [hblocks hcancelled] at hnot
        cases hnot
    obtain ⟨hstore, hjobs⟩ := pastStore_of_resume hs hpast
    refine h.sub hstore (fun k y hk => ?_) fun y hy _ hnot => ?_
    · rcases hjobs with ⟨p, hjobs, hp⟩ | hjobs
      · rw [hjobs] at hk
        rcases (Jobs.move_get_eq_some_iff hx).1 hk with ⟨-, rfl⟩ | ⟨-, hold⟩
        · exact Or.inr (Or.inl hp)
        · exact Or.inl hold
      · rw [hjobs] at hk
        exact Or.inl (Jobs.finish_get_eq_some_iff.1 hk).2
    · have hne : j ≠ i := by
        rintro rfl
        obtain rfl := Option.some.inj (hy.symm.trans hx)
        rw [hpast] at hnot
        cases hnot
      rcases hjobs with ⟨p, hjobs, -⟩ | hjobs <;> rw [hjobs]
      · exact (Jobs.move_get_eq_some_iff hx).2 (Or.inr ⟨hne, hy⟩)
      · exact Jobs.finish_get_eq_some_iff.2 ⟨hne, hy⟩
  rcases h with ⟨y, hy, hpoint, -, hothers⟩ | ⟨-, hall⟩
  · by_cases hij : i = j
    · -- the answer is written
      subst hij
      obtain rfl := Option.some.inj (hx.symm.trans hy)
      rw [hpoint] at hs
      obtain ⟨hstore, hjobs⟩ := save_of_resume hs
      refine Or.inr ⟨hstore, fun k z hk => ?_⟩
      rw [hjobs] at hk
      rcases (Jobs.move_get_eq_some_iff hx).1 hk with ⟨-, rfl⟩ | ⟨hne, hold⟩
      · exact Or.inl rfl
      · exact hothers k z hne hold
    · exact hspared (hothers i x hij hx)
  · exact hspared (hall i x hx)

theorem Storing.step (h : Storing s.phone j c) {a : LinkAction} (hok : GoesOn a)
    (hs : LinkedHub.step zone s a = some (s', es)) : Storing s'.phone j c := by
  cases a with
  | phone a =>
    simp only [LinkedHub.step, Option.bind_eq_bind, Option.bind_eq_some_iff] at hs
    obtain ⟨_, -, ⟨vm, events⟩, hphone, hs⟩ := hs
    obtain ⟨rfl, -⟩ := Prod.mk.inj (Option.some.inj hs)
    cases a with
    | resume i outcome =>
      obtain rfl : outcome = .returned := hok
      simp only [HubLink.step] at hphone
      split at hphone
      · cases hphone
      · rename_i x hx
        split at hphone
        · cases hphone
        · rename_i hblocks
          exact h.resume hx (fun hcancelled => by simpa [hcancelled] using hblocks) hphone
    | abort i =>
      simp only [HubLink.step] at hphone
      split at hphone
      · cases hphone
      · rename_i x hx
        split at hphone
        · rename_i hcancelled
          obtain ⟨rfl, -⟩ := Prod.mk.inj (Option.some.inj hphone)
          -- the coroutine that is storing the answer is not cancelled
          refine h.sub rfl (fun k y hk => Or.inl (Jobs.finish_get_eq_some_iff.1 hk).2)
            fun y hy hrunning _ => Jobs.finish_get_eq_some_iff.2 ⟨?_, hy⟩
          rintro rfl
          obtain rfl := Option.some.inj (hy.symm.trans hx)
          rw [hcancelled.1] at hrunning
          cases hrunning
        · cases hphone
    | _ => exact hok.elim
  | issues job args accessToken c now fault =>
    simp only [LinkedHub.step, Option.bind_eq_bind, Option.bind_eq_some_iff] at hs
    obtain ⟨_, -, hs⟩ := hs
    obtain ⟨rfl, -⟩ := Prod.mk.inj (Option.some.inj hs)
    exact h
  | rotates i accessToken now fault =>
    simp only [LinkedHub.step] at hs
    split at hs
    · obtain ⟨_, -, hs⟩ := Option.map_eq_some_iff.1 hs
      obtain ⟨rfl, -⟩ := Prod.mk.inj hs
      exact h
    · cases hs
  | revokes i now fault =>
    simp only [LinkedHub.step] at hs
    split at hs
    · obtain ⟨_, -, hs⟩ := Option.map_eq_some_iff.1 hs
      obtain ⟨rfl, -⟩ := Prod.mk.inj hs
      exact h
    · cases hs

theorem storing_of_answer {r : Rotation} {rotated : RotatedHubCredential}
    (h : Stores s.phone j r rotated)
    (hs : LinkedHub.step zone s (.phone (.resume j (.rotated rotated))) = some (s', es)) :
    ∃ c, Storing s'.phone j c ∧ c.credentialId = r.credentialId ∧
      c.accessToken = rotated.accessToken := by
  obtain ⟨x, revision, previous, hx, hpoint, htask⟩ := h.job
  simp only [LinkedHub.step, Option.bind_eq_bind, Option.bind_eq_some_iff] at hs
  obtain ⟨_, -, ⟨vm, events⟩, hphone, hs⟩ := hs
  obtain ⟨rfl, -⟩ := Prod.mk.inj (Option.some.inj hs)
  simp only [HubLink.step, hx] at hphone
  split at hphone
  · cases hphone
  · rename_i hblocks
    have hrunning : x.cancelled = false := by
      rw [hpoint] at hblocks
      simpa [LinkPoint.isBlocking] using hblocks
    -- all that `create` checks is known
    rw [hpoint, htask] at hphone
    obtain ⟨rfl, -⟩ := Prod.mk.inj (Option.some.inj hphone)
    simp only [rotateIssued, StoredHubCredential.create, dif_pos (⟨h.deviceId, h.token, h.rotatedAt⟩ :
      _ ∧ _ ∧ _)]
    refine ⟨_, Or.inl ⟨_, (Jobs.move_get_eq_some_iff hx).2 (Or.inl ⟨rfl, rfl⟩), rfl, hrunning,
      fun i y hne hi => ?_⟩, rfl, rfl⟩
    rcases (Jobs.move_get_eq_some_iff hx).1 hi with ⟨heq, -⟩ | ⟨-, hold⟩
    · exact (hne heq).elim
    · exact h.others i y hne hold

/-- The new token is stored when all have ended. -/
theorem stored_of_answer {r : Rotation} {rotated : RotatedHubCredential} {s₁ : LinkedHub}
    {es' : List LinkEvent} (h : Stores s.phone j r rotated)
    (hs : LinkedHub.step zone s (.phone (.resume j (.rotated rotated))) = some (s₁, es))
    (hrun : Reaches (LinkedHub.step zone) (fun _ _ a => GoesOn a) s₁ s' es')
    (hdone : ∀ i, s'.phone.jobs.get i = none) :
    ∃ c, s'.phone.store = some c ∧ c.credentialId = r.credentialId ∧
      c.accessToken = rotated.accessToken := by
  obtain ⟨c, hstoring, hid, htoken⟩ := storing_of_answer h hs
  have hend : Storing s'.phone j c := hrun.invariant (I := fun s _ => Storing s.phone j c) hstoring
    fun _ _ _ _ _ hI hok hs => hI.step hok hs
  rcases hend with ⟨x, hx, -⟩ | ⟨hc, -⟩
  · rw [hdone j] at hx
    cases hx
  · exact ⟨c, hc, hid, htoken⟩

end Answer

/-- **Rotations.** When all coroutines of the link have ended, the store is empty or the Hub accepts the
token that is stored. An answer that can be stored is what is stored in the end, when nobody calls and
nothing fails. -/
theorem rotations_settle {zone : NaiveDateTime → Except Exn ℤ} {T : Set Python.Str}
    (hinj : Set.InjOn tokenDigest T) {s₀ s : LinkedHub} {es : List LinkEvent} (h₀ : Starts zone T s₀)
    (h : Reaches (LinkedHub.step zone) (Undisturbed T) s₀ s es) :
    ((∀ j, s.phone.jobs.get j = none) → ∀ c, s.phone.store = some c →
      lastToken s.changes c.credentialId = some (bearer c.accessToken) ∧
        principal zone s.table c.accessToken = some c.credentialId) ∧
      ∀ j r rotated s₁ s₂ es₁ es₂, Stores s.phone j r rotated →
        LinkedHub.step zone s (.phone (.resume j (.rotated rotated))) = some (s₁, es₁) →
        Reaches (LinkedHub.step zone) (fun _ _ a => GoesOn a) s₁ s₂ es₂ →
        (∀ i, s₂.phone.jobs.get i = none) →
        ∃ c, s₂.phone.store = some c ∧ c.credentialId = r.credentialId ∧
          c.accessToken = rotated.accessToken := by
  have hinv := linkedInv_of_reaches hinj h₀ h
  refine ⟨fun hdone c hc => ?_, fun j r rotated s₁ s₂ es₁ es₂ hstores hs hrun hdone =>
    stored_of_answer hstores hs hrun hdone⟩
  -- a coroutine that is going to see to the store would still be running
  have hsettled : unsettled es = false := by
    by_contra hne
    obtain ⟨j, job, hget, -⟩ := hinv.pending (by simpa using hne)
    rw [hdone j] at hget
    cases hget
  obtain ⟨haccepted, -⟩ := hinv.settled hsettled c hc
  have hT : bearer c.accessToken ∈ T :=
    hinv.tokens.mem _ (hinv.tokens.known _ (Or.inl ⟨_, .store hc, rfl⟩))
  exact ⟨haccepted.1, (principal_eq_some_iff hinj hinv.tokens.valid hT).2 haccepted⟩

/-! ### A rotation, and one that is cut off -/

section Sample

open GoffyHub.Credentials (firstToken secondToken sampleNow)

/-- The two tokens of the sample. -/
def sampleTokens : Set Python.Str := {t | t = firstToken ∨ t = secondToken}

instance : DecidablePred (· ∈ sampleTokens) := fun t =>
  inferInstanceAs (Decidable (t = firstToken ∨ t = secondToken))

theorem sampleTokens_injOn : Set.InjOn tokenDigest sampleTokens := by
  have hne : tokenDigest firstToken ≠ tokenDigest secondToken := by decide +kernel
  rintro a (rfl | rfl) b (rfl | rfl) heq
  · rfl
  · exact absurd heq hne
  · exact absurd heq.symm hne
  · rfl

/-- The clock of the Hub has no zone of its own. -/
def sampleZone : NaiveDateTime → Except Exn ℤ := fun _ => .ok 0

/-- The Hub issues the token of `pairedCredential`. -/
def issuePaired : GoffyHub.Credentials.Action :=
  .issue ⟨"p".toList, "Phone".toList, none⟩ firstToken 1 sampleNow .none

/-- `pairedPhone` and its Hub. -/
def pairedHub : LinkedHub where
  phone := pairedPhone
  table := (GoffyHub.Credentials.perform sampleZone CredentialTable.empty issuePaired).1
  changes := (GoffyHub.Credentials.perform sampleZone CredentialTable.empty issuePaired).2.events

theorem starts_pairedHub : Starts sampleZone sampleTokens pairedHub where
  phone := ⟨_, _, _, _, rfl⟩
  hub := by
    have hfresh : GoffyHub.Credentials.Fresh sampleTokens CredentialTable.empty [] issuePaired :=
      ⟨by decide, by decide, Or.inl rfl, by decide⟩
    exact Reaches.start.step hfresh rfl
  accepted c hc := by
    obtain rfl := Option.some.inj (show some pairedCredential = some c from hc)
    decide +kernel
  requests := rfl
  answers _ := rfl

/-- The link is restored, and the Hub carries out a rotation. -/
def rotateActions : List LinkAction :=
  List.replicate 2 (.phone (.resume 0 .returned)) ++
    [.phone .rotateHubCredential, .phone (.resume 1 .returned), .rotates 0 secondToken sampleNow .none]

/-- The phone gets the answer and saves it. -/
def rotatedRun : List LinkAction := rotateActions ++
  .phone (.resume 1 (.rotated ⟨ofChars secondToken, sampleNow.1.micros⟩)) ::
    List.replicate 2 (.phone (.resume 1 .returned))

theorem rotation_settled : ∃ s es, Reaches (LinkedHub.step sampleZone) (Undisturbed sampleTokens)
    pairedHub s es ∧ ∃ c, s.phone.store = some c ∧ c.accessToken = ofChars secondToken ∧
      principal sampleZone s.table c.accessToken = some c.credentialId := by
  have hmap : ((run (LinkedHub.step sampleZone) pairedHub rotatedRun).map fun p =>
      (decide (∀ j < p.1.phone.jobs.next, p.1.phone.jobs.get j = none),
        p.1.phone.store.map StoredHubCredential.accessToken)) = some (true, some (ofChars secondToken)) := by
    decide +kernel
  obtain ⟨⟨s, es⟩, hrun, heq⟩ := Option.map_eq_some_iff.1 hmap
  simp only [Prod.mk.injEq, decide_eq_true_eq, Option.map_eq_some_iff] at heq
  obtain ⟨hdone, c, hc, htoken⟩ := heq
  have hreach : Reaches (LinkedHub.step sampleZone) (Undisturbed sampleTokens) pairedHub s es :=
    reaches_of_run (by decide +kernel) hrun
  exact ⟨s, es, hreach, c, hc, htoken, ((rotations_settle sampleTokens_injOn starts_pairedHub hreach).1
    (Jobs.get_eq_none_of_below hdone) c hc).2⟩

/-- The answer is on its way when the endpoint of a development Hub is entered. -/
def cutOffRun : List LinkAction := rotateActions ++
  [.phone (.configureHub true (.ok ⟨lit "ws://127.0.0.1:8787", List.replicate 32 0x62⟩)),
    .phone (.abort 1)]

/-- The phone keeps a token that the Hub does not take any more. -/
theorem rotation_cut_off : Starts sampleZone sampleTokens pairedHub ∧ ∃ s es,
    Reaches (LinkedHub.step sampleZone) anyStep pairedHub s es ∧ (∀ j, s.phone.jobs.get j = none) ∧
      s.phone.store = some pairedCredential ∧
      lastToken s.changes pairedCredential.credentialId = some secondToken ∧
      principal sampleZone s.table pairedCredential.accessToken = none := by
  have hmap : ((run (LinkedHub.step sampleZone) pairedHub cutOffRun).map fun p =>
      (decide (∀ j < p.1.phone.jobs.next, p.1.phone.jobs.get j = none), p.1.phone.store,
        lastToken p.1.changes pairedCredential.credentialId,
        principal sampleZone p.1.table pairedCredential.accessToken)) =
      some (true, some pairedCredential, some secondToken, none) := by
    decide +kernel
  obtain ⟨⟨s, es⟩, hrun, heq⟩ := Option.map_eq_some_iff.1 hmap
  simp only [Prod.mk.injEq, decide_eq_true_eq] at heq
  obtain ⟨hdone, hstore, hlast, hprincipal⟩ := heq
  exact ⟨starts_pairedHub, s, es, run_reaches hrun, Jobs.get_eq_none_of_below hdone, hstore, hlast,
    hprincipal⟩

/-- A credential that was issued before the clock of the Hub was set back. -/
def lateCredential : StoredHubCredential :=
  { pairedCredential with
    createdAt := 10 ^ 17
    tokenIssuedAt := 10 ^ 17
    issued_after := le_rfl }

/-- The phone gets an answer that is older than its credential. -/
def refusedRun : List LinkAction := rotateActions ++
  .phone (.resume 1 (.rotated ⟨ofChars secondToken, sampleNow.1.micros⟩)) ::
    List.replicate 3 (.phone (.resume 1 .returned))

/-- It clears the store, and the Hub goes on to accept the new token. -/
theorem answer_refused : ∃ s es, Reaches (LinkedHub.step sampleZone) anyStep
    { pairedHub with phone := .initial (lit "wss://") (lit "p") (some lateCredential) true } s es ∧
      (∀ j, s.phone.jobs.get j = none) ∧ s.phone.store = none ∧
      principal sampleZone s.table (ofChars secondToken) = some lateCredential.credentialId := by
  have hmap : ((run (LinkedHub.step sampleZone) { pairedHub with
        phone := .initial (lit "wss://") (lit "p") (some lateCredential) true } refusedRun).map fun p =>
      (decide (∀ j < p.1.phone.jobs.next, p.1.phone.jobs.get j = none), p.1.phone.store,
        principal sampleZone p.1.table (ofChars secondToken))) =
      some (true, none, some lateCredential.credentialId) := by
    decide +kernel
  obtain ⟨⟨s, es⟩, hrun, heq⟩ := Option.map_eq_some_iff.1 hmap
  simp only [Prod.mk.injEq, decide_eq_true_eq] at heq
  obtain ⟨hdone, hstore, hprincipal⟩ := heq
  exact ⟨s, es, run_reaches hrun, Jobs.get_eq_none_of_below hdone, hstore, hprincipal⟩

end Sample

end GoffyPhone.HubLink
