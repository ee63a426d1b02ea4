import GoffyOs.Phone.HubPairing

/-!
# The credential store of the link

What the coroutines of the link do to the stored credential, and where they keep a token while they run.

* a token that the phone uses, or may come to use, is exposed (`Exposes`): it is stored, belongs to the
  link that is shown, was captured by a coroutine, or was just read or written by one;
* a credential that is being saved is a `candidate`. It is not exposed yet, and becomes so by being
  written;
* `Flow` says what one step of a coroutine does to the store, to the candidates and to the link.
-/

namespace GoffyPhone.HubLink

open Kotlin
open Python (UUID)
open HubLink.GoffyViewModel

/-- The credential that is about to be written. -/
def LinkPoint.candidate : LinkPoint → Option StoredHubCredential
  | .save c => some c
  | _ => none

/-- The credential that was read or written just now. -/
def LinkPoint.read : LinkPoint → Option StoredHubCredential
  | .loaded (some (.loaded c)) | .saved (some c) => some c
  | _ => none

/-- The Hub's answer is yet to come. -/
def LinkPoint.awaits : LinkPoint → Bool
  | .join | .publicKey | .redeem | .rotateSelf => true
  | _ => false

/-- The store was cleared. -/
def LinkPoint.isCleared : LinkPoint → Bool
  | .deleteKey _ _ | .cleared _ _ | .revokeSelf _ => true
  | _ => false

/-- The link that a coroutine has captured. -/
def LinkTask.config : LinkTask → Option HubConfig
  | .rotateHubCredential _ _ r => some r.config
  | .forgetHub _ (some (config, _)) => some config
  | _ => none

/-- The credential that a rotation is for. -/
def LinkTask.expects : LinkTask → Option UUID
  | .rotateHubCredential _ _ r => some r.credentialId
  | _ => none

/-- The stored credential was written or deleted. -/
def Event.isStore : Event → Bool
  | .saved _ _ | .cleared _ => true
  | _ => false

/-- The phone uses this token, or may come to use it without asking the Hub. -/
inductive Exposes (vm : GoffyViewModel) : Str → Prop
  | store {c : StoredHubCredential} (h : vm.store = some c) : Exposes vm c.accessToken
  | link {config : HubConfig} (hstate : vm.uiState.hubLinkState = .paired)
      (h : vm.hubConfig = some config) : Exposes vm config.bearerToken
  | captured {j : ℕ} {task : LinkTask} {config : HubConfig} (htask : vm.jobs.task j = some task)
      (h : task.config = some config) : Exposes vm config.bearerToken
  | read {j : ℕ} {job : Job LinkTask LinkPoint} {c : StoredHubCredential}
      (hget : vm.jobs.get j = some job) (h : job.point.read = some c) : Exposes vm c.accessToken

/-- The candidate is what the Hub has answered. -/
def Takes (task : LinkTask) (c : StoredHubCredential) : Outcome → Prop
  | .issued issued => c.credentialId = issued.credentialId ∧ c.accessToken = issued.accessToken
  | .rotated rotated => task.expects = some c.credentialId ∧ c.accessToken = rotated.accessToken
  | _ => False

variable {vm vm' : GoffyViewModel} {j : ℕ} {task : LinkTask} {point : LinkPoint}
  {outcome : Outcome} {out : List Event}

/-- One step of a coroutine. -/
inductive Flow (vm : GoffyViewModel) (j : ℕ) (task : LinkTask) (point : LinkPoint) (outcome : Outcome)
    (vm' : GoffyViewModel) : List Event → Prop
  /-- It goes on. A write that could not be verified, or an unreadable record, was deleted. -/
  | moves {out : List Event} {p : LinkPoint} (jobs : vm'.jobs = vm.jobs.move j p)
      (candidate : p.candidate = none) (awaits : p.awaits = true → point.awaits = true)
      (read : ∀ c, p.read = some c → vm.store = some c)
      (cleared : p.isCleared = true → point.isCleared = true)
      (store : vm'.store = vm.store ∨ vm'.store = none) (ui : vm'.uiState = vm.uiState)
      (config : vm'.hubConfig = vm.hubConfig ∨ vm'.hubConfig = none)
      (quiet : ∀ e ∈ out, e.isStore = false) : Flow vm j task point outcome vm' out
  /-- It has an answer, and is going to save it. -/
  | takes {c : StoredHubCredential} (jobs : vm'.jobs = vm.jobs.move j (.save c))
      (awaits : point.awaits = true) (takes : Takes task c outcome) (store : vm'.store = vm.store)
      (ui : vm'.uiState = vm.uiState) (config : vm'.hubConfig = vm.hubConfig) :
      Flow vm j task point outcome vm' []
  /-- The candidate was written. -/
  | saves {c : StoredHubCredential} (candidate : point.candidate = some c)
      (jobs : vm'.jobs = vm.jobs.move j (.saved (some c))) (store : vm'.store = some c)
      (ui : vm'.uiState = vm.uiState) (config : vm'.hubConfig = vm.hubConfig) :
      Flow vm j task point outcome vm' [.saved j c]
  /-- The store was cleared. -/
  | clears {rejected : Option Str} {cleared : Bool} (clear : point = .clear rejected)
      (jobs : vm'.jobs = vm.jobs.move j (.deleteKey rejected cleared)) (store : vm'.store = none)
      (ui : vm'.uiState = vm.uiState) (config : vm'.hubConfig = vm.hubConfig) :
      Flow vm j task point outcome vm' [.cleared j]
  /-- The store could not be cleared. -/
  | keeps {rejected : Option Str} (clear : point = .clear rejected) (failed : outcome = .failed false)
      (jobs : vm'.jobs = vm.jobs.move j (.deleteKey rejected false)) (store : vm'.store = vm.store)
      (ui : vm'.uiState = vm.uiState) (config : vm'.hubConfig = vm.hubConfig) :
      Flow vm j task point outcome vm' []
  /-- It ends, with the credential that it has read or written as the link if it shows one. -/
  | ends {out : List Event} (jobs : vm'.jobs = vm.jobs.finish j) (store : vm'.store = vm.store)
      (link : vm'.uiState.hubLinkState = .paired →
        (vm.uiState.hubLinkState = .paired ∧ vm'.hubConfig = vm.hubConfig) ∨
          ∃ c, point.read = some c ∧ vm'.hubConfig = some c.toHubConfig)
      (quiet : ∀ e ∈ out, e.isStore = false) : Flow vm j task point outcome vm' out

/-- A move that touches nothing else. -/
theorem flow_move (p : LinkPoint) (hcandidate : p.candidate = none)
    (hawaits : p.awaits = true → point.awaits = true) (hread : p.read = none)
    (hcleared : p.isCleared = true → point.isCleared = true) :
    Flow vm j task point outcome (vm.move j p) [] := by
  refine .moves rfl hcandidate hawaits (fun c hc => ?_) hcleared (Or.inl rfl) rfl (Or.inl rfl) (by simp)
  rw [hread] at hc
  cases hc

/-- An end that touches nothing else. -/
theorem flow_finish : Flow vm j task point outcome (vm.finish j) [] :=
  .ends rfl rfl (fun h => Or.inl ⟨h, rfl⟩) (by simp)

/-- An end that shows no link. -/
theorem flow_end (hjobs : vm'.jobs = vm.jobs.finish j) (hstore : vm'.store = vm.store)
    (hstate : vm'.uiState.hubLinkState ≠ .paired) (hquiet : ∀ e ∈ out, e.isStore = false) :
    Flow vm j task point outcome vm' out :=
  .ends hjobs hstore (fun h => (hstate h).elim) hquiet

theorem flow_clearLocalHubAuthority
    (h : vm.clearLocalHubAuthority j point outcome = some (vm', out)) :
    Flow vm j task point outcome vm' out := by
  unfold clearLocalHubAuthority at h
  split at h
  · obtain ⟨rfl, rfl⟩ := Prod.mk.inj (Option.some.inj h)
    exact .clears rfl rfl rfl rfl rfl
  · obtain ⟨rfl, rfl⟩ := Prod.mk.inj (Option.some.inj h)
    rename_i partly
    -- a call that failed may have cleared the store all the same
    cases partly with
    | true => exact .clears rfl rfl rfl rfl rfl
    | false => exact .keeps rfl rfl rfl rfl rfl rfl
  · obtain ⟨rfl, rfl⟩ := Prod.mk.inj (Option.some.inj h)
    refine .moves rfl rfl (fun h => by cases h) (fun c hc => by cases hc) (fun _ => rfl) (Or.inl rfl)
      rfl (Or.inl rfl) fun e he => ?_
    rw [List.mem_singleton.1 he]
    rfl
  · obtain ⟨rfl, rfl⟩ := Prod.mk.inj (Option.some.inj h)
    refine .moves rfl rfl (fun h => by cases h) (fun c hc => by cases hc) (fun _ => rfl) (Or.inl rfl)
      rfl (Or.inl rfl) fun e he => ?_
    split at he
    · rw [List.mem_singleton.1 he]
      rfl
    · cases he
  · cases h

theorem flow_save {candidate : StoredHubCredential} (hpoint : point.candidate = some candidate)
    (h : vm.save j candidate outcome = some (vm', out)) : Flow vm j task point outcome vm' out := by
  unfold save at h
  split at h
  · obtain ⟨rfl, rfl⟩ := Prod.mk.inj (Option.some.inj h)
    exact .saves hpoint rfl rfl rfl rfl
  · obtain ⟨rfl, rfl⟩ := Prod.mk.inj (Option.some.inj h)
    refine .moves rfl rfl (fun h => by cases h) (fun c hc => by cases hc) (fun h => by cases h) ?_ rfl
      (Or.inl rfl) (by simp)
    split
    · exact Or.inr rfl
    · exact Or.inl rfl
  · cases h

theorem flow_restoreHubCredential {revision : ℕ}
    (h : vm.resumeRestore j revision point outcome = some (vm', out)) :
    Flow vm j task point outcome vm' out := by
  unfold resumeRestore at h
  split at h
  · obtain ⟨rfl, rfl⟩ := Prod.mk.inj (Option.some.inj h)
    refine .moves rfl rfl (fun h => by cases h) (fun c hc => ?_) (fun h => by cases h) (Or.inl rfl) rfl
      (Or.inl rfl) (by simp)
    cases hstore : vm.store with
    | none => rw [hstore] at hc; cases hc
    | some c' =>
      rw [hstore] at hc
      exact hc
  · split at h
    · obtain ⟨rfl, rfl⟩ := Prod.mk.inj (Option.some.inj h)
      exact .moves rfl rfl (fun h => by cases h) (fun c hc => by cases hc) (fun h => by cases h)
        (Or.inr rfl) rfl (Or.inl rfl) (by simp)
    · cases h
  · obtain ⟨rfl, rfl⟩ := Prod.mk.inj (Option.some.inj h)
    exact flow_move _ rfl (fun h => by cases h) rfl fun h => by cases h
  · split at h
    · obtain ⟨rfl, rfl⟩ := Prod.mk.inj (Option.some.inj h)
      exact flow_finish
    · unfold restoreLoaded at h
      split at h <;> simp only [Option.some.injEq, Prod.mk.injEq, reduceCtorEq] at h <;>
        obtain ⟨rfl, rfl⟩ := h
      · exact flow_end rfl rfl (fun h => by cases h) (by simp)
      · exact flow_end rfl rfl (fun h => by cases h) (by simp)
      · exact flow_end rfl rfl (fun h => by cases h) (by simp)
      · rename_i c
        refine .ends rfl rfl (fun _ => Or.inr ⟨c, rfl, rfl⟩) fun e he => ?_
        rw [List.mem_singleton.1 he]
        rfl
      · exact .moves rfl rfl (fun h => by cases h) (fun c hc => by cases hc) (fun h => by cases h)
          (Or.inl rfl) rfl (Or.inr rfl) (by simp)
  · obtain ⟨rfl, rfl⟩ := Prod.mk.inj (Option.some.inj h)
    exact flow_end rfl rfl (fun h => by cases h) (by simp)
  · exact flow_clearLocalHubAuthority h

theorem create_eq_some {endpoint : Str} {credentialId : UUID} {deviceId accessToken : Str}
    {createdAt tokenIssuedAt : Instant} {hubIdentity : HubIdentityPin} {c : StoredHubCredential}
    (h : StoredHubCredential.create endpoint credentialId deviceId accessToken createdAt tokenIssuedAt
      hubIdentity = some c) : c.credentialId = credentialId ∧ c.accessToken = accessToken := by
  unfold StoredHubCredential.create at h
  split at h
  · obtain rfl := Option.some.inj h
    exact ⟨rfl, rfl⟩
  · cases h

theorem flow_pairHub {revision : ℕ} {endpoint : Str}
    (h : vm.resumePair j revision endpoint point outcome = some (vm', out)) :
    Flow vm j task point outcome vm' out := by
  unfold resumePair at h
  split at h
  · obtain ⟨rfl, rfl⟩ := Prod.mk.inj (Option.some.inj h)
    refine .moves rfl rfl (fun _ => rfl) (fun c hc => by cases hc) (fun h => by cases h) (Or.inl rfl)
      rfl (Or.inl rfl) fun e he => ?_
    rw [List.mem_singleton.1 he]
    rfl
  · obtain ⟨rfl, rfl⟩ := Prod.mk.inj (Option.some.inj h)
    refine .moves rfl rfl (fun h => by cases h) (fun c hc => by cases hc) (fun h => by cases h)
      (Or.inl rfl) rfl (Or.inl rfl) fun e he => ?_
    split at he
    · rw [List.mem_singleton.1 he]
      rfl
    · cases he
  · obtain ⟨rfl, rfl⟩ := Prod.mk.inj (Option.some.inj h)
    unfold pairIssued
    split
    · rename_i hcreate
      exact .takes rfl rfl (create_eq_some hcreate) rfl rfl rfl
    · exact flow_move _ rfl (fun h => by cases h) rfl fun h => by cases h
  · obtain ⟨rfl, rfl⟩ := Prod.mk.inj (Option.some.inj h)
    exact flow_move _ rfl (fun h => by cases h) rfl fun h => by cases h
  · obtain ⟨rfl, rfl⟩ := Prod.mk.inj (Option.some.inj h)
    exact flow_move _ rfl (fun h => by cases h) rfl fun h => by cases h
  · exact flow_save rfl h
  · unfold pairSaved at h
    split at h
    · obtain ⟨rfl, rfl⟩ := Prod.mk.inj (Option.some.inj h)
      exact flow_move _ rfl (fun h => by cases h) rfl fun h => by cases h
    · split at h
      · obtain ⟨rfl, rfl⟩ := Prod.mk.inj (Option.some.inj h)
        exact flow_finish
      · split at h <;> simp only [Option.some.injEq, Prod.mk.injEq, reduceCtorEq] at h <;>
          obtain ⟨rfl, rfl⟩ := h
        · refine .ends rfl rfl (fun _ => Or.inr ⟨_, rfl, rfl⟩) fun e he => ?_
          rw [List.mem_singleton.1 he]
          rfl
        · exact flow_move _ rfl (fun h => by cases h) rfl fun h => by cases h
    · cases h
  · obtain ⟨rfl, rfl⟩ := Prod.mk.inj (Option.some.inj h)
    unfold pairCleared
    split
    · exact flow_finish
    · split
      · exact flow_end rfl rfl (fun h => by cases h) (by simp)
      · exact flow_end rfl rfl (fun h => by cases h) (by simp)
  · exact flow_clearLocalHubAuthority h

theorem flow_forgetHub {previous : Option ℕ} {revocation : Option (HubConfig × UUID)}
    (h : vm.resumeForget j previous revocation point outcome = some (vm', out)) :
    Flow vm j task point outcome vm' out := by
  have hforgotten (cleared : Bool) (remote : Option Bool) {events : List Event}
      (hquiet : ∀ e ∈ events, e.isStore = false) :
      Flow vm j task point outcome (vm.forgotten j cleared remote) events := by
    refine flow_end rfl rfl ?_ hquiet
    rcases unlinked_forgotten vm j cleared remote with h | h <;> rw [h] <;> exact fun h => by cases h
  unfold resumeForget at h
  split at h
  · split at h
    · obtain ⟨rfl, rfl⟩ := Prod.mk.inj (Option.some.inj h)
      exact flow_move _ rfl (fun h => by cases h) rfl fun h => by cases h
    · cases h
  · split at h
    · obtain ⟨rfl, rfl⟩ := Prod.mk.inj (Option.some.inj h)
      exact hforgotten _ _ (by simp)
    · obtain ⟨rfl, rfl⟩ := Prod.mk.inj (Option.some.inj h)
      exact flow_move _ rfl (fun h => by cases h) rfl fun _ => rfl
  · split at h <;> simp only [Option.some.injEq, Prod.mk.injEq, reduceCtorEq] at h <;>
      obtain ⟨rfl, rfl⟩ := h
    · refine hforgotten _ _ fun e he => ?_
      rw [List.mem_singleton.1 he]
      rfl
    · exact hforgotten _ _ (by simp)
    · exact hforgotten _ _ (by simp)
  · exact flow_clearLocalHubAuthority h

theorem flow_rotationFailed (revision : ℕ) :
    Flow vm j task point outcome (vm.rotationFailed j revision) [] := by
  unfold rotationFailed
  split
  · exact .moves rfl rfl (fun h => by cases h) (fun c hc => by cases hc) (fun h => by cases h)
      (Or.inl rfl) rfl (Or.inr rfl) (by simp)
  · exact flow_finish

theorem flow_rotateHubCredential {revision : ℕ} {previous : Option ℕ} {rotation : Rotation}
    (h : vm.resumeRotate j revision previous rotation point outcome = some (vm', out)) :
    Flow vm j (.rotateHubCredential revision previous rotation) point outcome vm' out := by
  unfold resumeRotate at h
  split at h
  · split at h
    · obtain ⟨rfl, rfl⟩ := Prod.mk.inj (Option.some.inj h)
      exact flow_move _ rfl (fun _ => rfl) rfl fun h => by cases h
    · cases h
  · obtain ⟨rfl, rfl⟩ := Prod.mk.inj (Option.some.inj h)
    unfold rotateIssued
    split
    · rename_i hcreate
      obtain ⟨hid, htoken⟩ := create_eq_some hcreate
      exact .takes rfl rfl ⟨congrArg some hid.symm, htoken⟩ rfl rfl rfl
    · exact flow_rotationFailed revision
  · obtain ⟨rfl, rfl⟩ := Prod.mk.inj (Option.some.inj h)
    exact flow_rotationFailed revision
  · obtain ⟨rfl, rfl⟩ := Prod.mk.inj (Option.some.inj h)
    exact flow_rotationFailed revision
  · exact flow_save rfl h
  · unfold rotateSaved at h
    split at h
    · obtain ⟨rfl, rfl⟩ := Prod.mk.inj (Option.some.inj h)
      exact flow_rotationFailed revision
    · split at h
      · obtain ⟨rfl, rfl⟩ := Prod.mk.inj (Option.some.inj h)
        exact flow_finish
      · split at h <;> simp only [Option.some.injEq, Prod.mk.injEq, reduceCtorEq] at h <;>
          obtain ⟨rfl, rfl⟩ := h
        · refine .ends rfl rfl (fun _ => Or.inr ⟨_, rfl, rfl⟩) fun e he => ?_
          rw [List.mem_singleton.1 he]
          rfl
        · exact flow_rotationFailed revision
    · cases h
  · obtain ⟨rfl, rfl⟩ := Prod.mk.inj (Option.some.inj h)
    exact flow_end rfl rfl (fun h => by cases h) (by simp)
  · exact flow_clearLocalHubAuthority h

theorem flow_cancelForegroundPairing {enrollment : Option ℕ}
    (h : vm.resumeCleanUp j enrollment point outcome = some (vm', out)) :
    Flow vm j task point outcome vm' out := by
  unfold resumeCleanUp at h
  split at h
  · split at h
    · obtain ⟨rfl, rfl⟩ := Prod.mk.inj (Option.some.inj h)
      exact flow_move _ rfl (fun h => by cases h) rfl fun h => by cases h
    · cases h
  · obtain ⟨rfl, rfl⟩ := Prod.mk.inj (Option.some.inj h)
    split
    · exact flow_finish
    · exact flow_end rfl rfl (fun h => by cases h) (by simp)
  · exact flow_clearLocalHubAuthority h

theorem flow_of_resume (h : vm.resume j point outcome task = some (vm', out)) :
    Flow vm j task point outcome vm' out := by
  cases task with
  | restoreHubCredential revision => exact flow_restoreHubCredential h
  | pairHub revision endpoint => exact flow_pairHub h
  | forgetHub previous revocation => exact flow_forgetHub h
  | rotateHubCredential revision previous rotation => exact flow_rotateHubCredential h
  | cancelForegroundPairing enrollment => exact flow_cancelForegroundPairing h

end GoffyPhone.HubLink
