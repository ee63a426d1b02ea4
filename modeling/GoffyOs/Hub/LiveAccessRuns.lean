import GoffyOs.Hub.CredentialRuns
import GoffyOs.Hub.LiveAccess

/-!
# What a completed revocation or rotation closes

A handler commits its change, takes the registered connections of the credential out of the registry
and closes them. Both theorems about it are about the endpoints that the change must not leave
behind, the *stray* ones:

* `Swept` says that the stray endpoints of a change are among the sockets its handler still has to
  close, and that there are none once the handler is through. It is kept by every step that turns no
  endpoint stray (`Swept.step`), as long as the registry knows the stray ones when it is popped;
* for a revocation the endpoints in the receive loop are stray. No later check lets an endpoint into
  the loop, and an endpoint enters it only after it has registered (`Listed`), so that
  `revocation_closes` holds in every run;
* for a rotation the endpoints that were authenticated before it and may still handle a message are
  stray. The check after the registration lets them pass, so that `rotation_closes` depends on
  whether they have registered in time; `late_registration_survives` is a run where one has not.
-/

namespace GoffyHub.LiveAccess

open Python
open Approval (Crypto)
open Auth (AuthenticatedPrincipal PrincipalKind)
open Credentials (CredentialTable CredentialRow IssueArgs firstToken secondToken samplePhone sampleNow)

/-! ### Inactive credentials -/

section Store

variable {table table' : CredentialTable} {c c' : UUID}

theorem findActive_eq_none_iff : table.findActive c = none ↔
    ∀ row ∈ table.rows, row.credentialId = uuidStr c → row.active = false := by
  simp [CredentialTable.findActive, List.find?_eq_none]

theorem findActive_setRevokedAt_self (d : Str) : (table.setRevokedAt c d).findActive c = none := by
  rw [findActive_eq_none_iff]
  intro row hrow hid
  obtain ⟨old, -, rfl⟩ := List.mem_map.1 hrow
  split at hid <;> rename_i hold
  · rw [if_pos hold]
    rfl
  · exact absurd hid hold

theorem findActive_setRevokedAt (d : Str) (h : table.findActive c = none) :
    (table.setRevokedAt c' d).findActive c = none := by
  rw [findActive_eq_none_iff] at h ⊢
  intro row hrow hid
  obtain ⟨old, hold, rfl⟩ := List.mem_map.1 hrow
  split at hid <;> rename_i hc'
  · rw [if_pos hc']
    rfl
  · rw [if_neg hc']
    exact h old hold hid

theorem findActive_setTokenDigest {current new : Digest}
    (hset : table.setTokenDigest c' current new = some table') (h : table.findActive c = none) :
    table'.findActive c = none := by
  unfold CredentialTable.setTokenDigest at hset
  simp only at hset
  split at hset
  · cases hset
    rw [findActive_eq_none_iff] at h ⊢
    intro row hrow hid
    obtain ⟨old, hold, rfl⟩ := List.mem_map.1 hrow
    rw [CredentialTable.rotateRow_credentialId] at hid
    have hrevoked := h old hold hid
    simp [CredentialTable.rotateRow, hrevoked]
  · cases hset

theorem findActive_issue (args : IssueArgs) (t : Str) (now : DateTime) (fault : Fault)
    (hne : c' ≠ c) (h : table.findActive c = none) :
    (Credentials.issue table args t c' now fault).1.findActive c = none := by
  rcases Credentials.issue_cases table args t c' now fault with
    ⟨e, heq⟩ | ⟨table', credential, heq, hcred, hissues⟩
  · rw [heq]
    exact h
  rw [heq]
  obtain ⟨credential', hcred', hinsert⟩ := hissues.insert
  unfold CredentialTable.insert at hinsert
  split at hinsert
  · cases hinsert
    rw [findActive_eq_none_iff] at h ⊢
    intro row hrow hid
    rcases List.mem_cons.1 hrow with rfl | hrow
    · exact absurd (uuidStr_injective (hcred' ▸ hid)) hne
    · exact h row (Credentials.mem_of_mem_pruneRevoked hrow) hid
  · cases hinsert

theorem findActive_revoke {zone : NaiveDateTime → Except Exn ℤ} (now : DateTime) (fault : Fault)
    (h : table.findActive c = none) :
    (Credentials.revoke zone table c' now fault).1.findActive c = none := by
  unfold Credentials.revoke
  split
  · exact h
  split
  · exact h
  split
  · split <;> exact h
  split
  · exact h
  · exact findActive_setRevokedAt _ h

/-- A `revoke` that returns a credential has found it active and leaves it inactive. -/
theorem findActive_of_revoke {zone : NaiveDateTime → Except Exn ℤ} {now : DateTime} {fault : Fault}
    {credential : Credentials.PairedCredential}
    (h : Credentials.revoke zone table c now fault = (table', .ok (some credential))) :
    table.findActive c ≠ none ∧ table'.findActive c = none := by
  unfold Credentials.revoke at h
  split at h
  · cases h
  split at h
  · cases h
  split at h
  · split at h <;> cases h
  rename_i hfind
  split at h
  · cases h
  · rw [Prod.mk.injEq] at h
    rw [← h.1, hfind]
    exact ⟨by simp, findActive_setRevokedAt_self _⟩

theorem findActive_rotate {zone : NaiveDateTime → Except Exn ℤ} (current new : Str) (now : DateTime)
    (fault : Fault) (h : table.findActive c = none) :
    (Credentials.rotate zone table c' current new now fault).1.findActive c = none := by
  unfold Credentials.rotate
  split
  · exact h
  split
  · exact h
  simp only
  split
  · exact h
  split
  · split <;> exact h
  split
  · exact h
  split
  · exact h
  split
  · exact h
  rename_i hset
  split
  · exact h
  · exact findActive_setTokenDigest hset h

/-- The second check fails for a credential that is not active. -/
theorem isActive_of_findActive_none {authToken : Option Str} {e : Endpoint}
    (hc : e.principal.credentialId = some c) (h : table.findActive c = none) (fault : Fault) :
    Auth.isActive authToken (some table) e.principal fault = false := by
  have hkind := e.paired c hc
  simp only [Auth.isActive, hkind, hc, Credentials.isActive]
  split <;> rename_i hactive
  · split at hactive
    · cases hactive
    · simp_all
  · rfl

end Store

/-! ### What a step can do -/

/-- The cases of a step, with what the endpoint or the handler has found. -/
inductive Effect (authToken : Option Str) (s : System) : Action → System → List Event → Prop
  | refused {i : ℕ} {authorization : Option Str} {fault : Fault} :
      Effect authToken s (.connect i authorization fault) s.tick []
  | connect {i : ℕ} {authorization : Option Str} {fault : Fault} {e : Endpoint}
      (hnew : s.endpoints i = none) (hauth : e.authAt = s.time) (hphase : e.phase = .authenticated) :
      Effect authToken s (.connect i authorization fault) (s.setEndpoint i e).tick []
  | move {i : ℕ} {m : Move} {e e' : Endpoint} (he : s.endpoints i = some e)
      (hmove : e.move authToken s.store m = some e') :
      Effect authToken s (.move i m) (s.setEndpoint i e').tick (m.events i e)
  | register {i : ℕ} {e : Endpoint} {c : UUID} (he : s.endpoints i = some e)
      (hc : e.principal.credentialId = some c) (hphase : e.phase = .accepted) :
      Effect authToken s (.register i)
        ({ s with connections := LiveAccess.register s.connections c i }.setEndpoint i
          { e with phase := .registered }).tick []
  | unregister {i : ℕ} {e e' : Endpoint} (he : s.endpoints i = some e)
      (hafter : e.afterUnregister = some e') :
      Effect authToken s (.unregister i)
        ({ s with connections := match e.principal.credentialId with
            | none => s.connections
            | some c => LiveAccess.unregister s.connections c i }.setEndpoint i e').tick []
  | store {a : Action} {store : CredentialTable}
      (hkeep : ∀ c, s.store.findActive c = none → (∀ args t now fault, a ≠ .issue args t c now fault) →
        store.findActive c = none)
      (hown : ∀ i, a.isOwn i = false) :
      Effect authToken s a { s with store := store }.tick []
  | commit {a : Action} {j : ℕ} {kind : ChangeKind} {c : UUID} {store : CredentialTable}
      (hnew : s.changes j = none)
      (ha : (kind = .revocation ∧ ∃ now fault, a = .revoke j c now fault) ∨
        (kind = .rotation ∧ ∃ current new now fault, a = .rotate j c current new now fault))
      (hkeep : ∀ c, s.store.findActive c = none → store.findActive c = none)
      (hrevoked : kind = .revocation → s.store.findActive c ≠ none ∧ store.findActive c = none) :
      Effect authToken s a
        ({ s with store := store }.setChange j (some (.committed kind c s.time))).tick
        [.committed kind c s.time]
  | pop {j : ℕ} {kind : ChangeKind} {c : UUID} {t : ℕ}
      (hj : s.changes j = some (.committed kind c t)) :
      Effect authToken s (.popConnections j) ({ s with connections := s.connections.pop c }.setChange j
        (some (.closing kind c t (live s.connections c)))).tick []
  | closeSocket {j i : ℕ} {kind : ChangeKind} {c : UUID} {t : ℕ} {sockets : Finset ℕ}
      (hj : s.changes j = some (.closing kind c t sockets)) (hi : i ∈ sockets) :
      Effect authToken s (.closeSocket j i) ((s.closeEndpoint i).setChange j
        (some (.closing kind c t (sockets.erase i)))).tick []
  | complete {j : ℕ} {kind : ChangeKind} {c : UUID} {t : ℕ}
      (hj : s.changes j = some (.closing kind c t ∅)) :
      Effect authToken s (.complete j) (s.setChange j none).tick [.completed kind c t]

theorem effect_of_step {crypto : Crypto} {zone : NaiveDateTime → Except Exn ℤ}
    {authToken : Option Str} {s s' : System} {a : Action} {out : List Event}
    (h : step crypto zone authToken s a = some (s', out)) : Effect authToken s a s' out := by
  unfold step at h
  split at h
  · split at h
    · cases h
    rename_i hnew
    split at h
    · cases h
      exact .refused
    split at h
    · cases h
      exact .refused
    · cases h
      exact .connect hnew rfl rfl
  · split at h
    · cases h
    rename_i he
    split at h
    · cases h
    rename_i hmove
    cases h
    exact .move he hmove
  · split at h
    · cases h
    rename_i he
    split at h
    · cases h
    rename_i hc
    split at h
    · rename_i hphase
      cases h
      exact .register he hc hphase
    · cases h
  · split at h
    · cases h
    rename_i he
    split at h
    · cases h
    rename_i hafter
    cases h
    exact .unregister he hafter
  · rename_i args accessToken credentialId now fault
    cases h
    refine .store ?_ (fun i => rfl)
    intro c hnone hne
    refine findActive_issue args accessToken now fault ?_ hnone
    rintro rfl
    exact hne args accessToken now fault rfl
  · rename_i j c now fault
    split at h
    · cases h
    rename_i hnew
    have hkeep : ∀ c', s.store.findActive c' = none →
        (Credentials.revoke zone s.store c now fault).1.findActive c' = none :=
      fun c' => findActive_revoke now fault
    split at h <;> rename_i hrevoke
    · rw [hrevoke] at hkeep
      simp only [System.commit] at h
      cases h
      exact .commit hnew (Or.inl ⟨rfl, now, fault, rfl⟩) hkeep fun _ => findActive_of_revoke hrevoke
    · rw [hrevoke] at hkeep
      simp only [System.commit] at h
      cases h
      exact .store (fun c' hnone _ => hkeep c' hnone) (fun i => rfl)
  · rename_i j c current new now fault
    split at h
    · cases h
    rename_i hnew
    have hkeep : ∀ c', s.store.findActive c' = none →
        (Credentials.rotate zone s.store c current new now fault).1.findActive c' = none :=
      fun c' => findActive_rotate current new now fault
    split at h <;> rename_i hrotate
    · rw [hrotate] at hkeep
      simp only [System.commit] at h
      cases h
      exact .commit hnew (Or.inr ⟨rfl, current, new, now, fault, rfl⟩) hkeep (by simp)
    · rw [hrotate] at hkeep
      simp only [System.commit] at h
      cases h
      exact .store (fun c' hnone _ => hkeep c' hnone) (fun i => rfl)
  · split at h
    · rename_i hj
      cases h
      exact .pop hj
    · cases h
  · split at h
    · rename_i hj
      split at h
      · rename_i hi
        cases h
        exact .closeSocket hj hi
      · cases h
    · cases h
  · split at h
    · rename_i hj
      split at h
      · rename_i hempty
        cases h
        exact .complete (hempty ▸ hj)
      · cases h
    · cases h

/-- The endpoint may still hand a message to `_handle_message`. -/
@[simp] def Phase.mayHandle : Phase → Bool
  | .authenticated | .accepted | .registered | .receiving | .handling => true
  | _ => false

/-- The endpoint has entered the receive loop and its `finally` block is not through. -/
@[simp] def Phase.inLoop : Phase → Bool
  | .receiving | .handling | .finishing => true
  | _ => false

/-- The steps that an endpoint has left when its check fails. -/
@[simp] def Phase.left : Phase → ℕ
  | .authenticated => 5
  | .accepted => 4
  | .registered => 3
  | .rejected => 2
  | .unregistered => 1
  | _ => 0

/-- What any step of an endpoint, or a step that closes it, keeps: nothing leads back to where
messages are handled, and into the loop leads only having no credential, or the check. -/
structure Advance (authToken : Option Str) (store : CredentialTable) (e e' : Endpoint) : Prop where
  principal : e'.principal = e.principal
  authAt : e'.authAt = e.authAt
  closed : e.closed = true → e'.closed = true
  mayHandle : e'.phase.mayHandle = true → e.phase.mayHandle = true
  inLoop : e'.phase.inLoop = true → e.phase.inLoop = true ∨ e.principal.credentialId = none ∨
    ∃ fault, Auth.isActive authToken (some store) e.principal fault = true
  left : e'.closed = true ∨ e'.phase.inLoop = true ∨
    (e'.phase.left < e.phase.left ∧ 0 < e'.phase.left)

section Advance

variable {authToken : Option Str} {store : CredentialTable} {e e' : Endpoint}

theorem advance_move {m : Move} (h : e.move authToken store m = some e') :
    Advance authToken store e e' := by
  cases m with
  | accept | enter | receive | handled =>
    simp only [Endpoint.move] at h
    split at h
    · rename_i hguard
      cases h
      constructor <;> simp [hguard]
    · cases h
  | check fault =>
    simp only [Endpoint.move] at h
    split at h
    · rename_i hphase
      split at h
      · rename_i hactive
        cases h
        constructor <;> simp [hphase]
        exact Or.inr ⟨fault, hactive⟩
      · cases h
        constructor <;> simp [hphase]
    · cases h
  | close | disconnect | fail =>
    simp only [Endpoint.move] at h
    split at h
    · rename_i hguard
      cases h
      constructor <;> simp [hguard]
    · cases h
  | leave closes =>
    simp only [Endpoint.move] at h
    split at h
    · rename_i hguard
      cases h
      constructor <;> rcases hguard with hphase | hphase <;> simp +contextual [hphase]
    · cases h

theorem advance_register (h : e.phase = .accepted) :
    Advance authToken store e { e with phase := .registered } := by
  constructor <;> simp [h]

theorem advance_unregister (h : e.afterUnregister = some e') : Advance authToken store e e' := by
  unfold Endpoint.afterUnregister at h
  split at h
  · rename_i hphase
    cases h
    constructor <;> simp [hphase]
  split at h
  · cases h
    constructor <;> simp
  · cases h

theorem advance_close : Advance authToken store e { e with closed := true } := by
  constructor <;> simp +contextual

end Advance

/-- An endpoint after a step is the same, new, or one step further. -/
theorem Effect.endpoint {authToken : Option Str} {s s' : System} {a : Action} {out : List Event}
    (h : Effect authToken s a s' out) {i : ℕ} {e' : Endpoint} (he' : s'.endpoints i = some e') :
    s.endpoints i = some e' ∨
      ((∃ authorization fault, a = .connect i authorization fault) ∧ e'.authAt = s.time ∧
        e'.phase = .authenticated) ∨
      ∃ e, s.endpoints i = some e ∧ Advance authToken s.store e e' := by
  cases h with
  | refused | store | commit | pop | complete => exact Or.inl he'
  | connect hnew hauth hphase =>
    rcases setEndpoint_eq_some.1 he' with ⟨rfl, rfl⟩ | ⟨-, hold⟩
    · exact Or.inr (Or.inl ⟨⟨_, _, rfl⟩, hauth, hphase⟩)
    · exact Or.inl hold
  | move he hmove =>
    rcases setEndpoint_eq_some.1 he' with ⟨rfl, rfl⟩ | ⟨-, hold⟩
    · exact Or.inr (Or.inr ⟨_, he, advance_move hmove⟩)
    · exact Or.inl hold
  | register he hc hphase =>
    rcases setEndpoint_eq_some.1 he' with ⟨rfl, rfl⟩ | ⟨-, hold⟩
    · exact Or.inr (Or.inr ⟨_, he, advance_register hphase⟩)
    · exact Or.inl hold
  | unregister he hafter =>
    rcases setEndpoint_eq_some.1 he' with ⟨rfl, rfl⟩ | ⟨-, hold⟩
    · exact Or.inr (Or.inr ⟨_, he, advance_unregister hafter⟩)
    · exact Or.inl hold
  | closeSocket hj hi =>
    rcases closeEndpoint_eq_some.1 he' with ⟨rfl, e, he, rfl⟩ | ⟨-, hold⟩
    · exact Or.inr (Or.inr ⟨e, he, advance_close⟩)
    · exact Or.inl hold

/-! ### Changes on the way -/

/-- The change that a handler is at. -/
@[simp] def Change.what : Change → ChangeKind × UUID × ℕ
  | .committed kind c t => (kind, c, t)
  | .closing kind c t _ => (kind, c, t)

/-- Changes are in the history from their commit on. -/
structure Recorded (s : System) (es : List Event) : Prop where
  change : ∀ j change kind c t, s.changes j = some change → change.what = (kind, c, t) →
    .committed kind c t ∈ es
  completed : ∀ kind c t, .completed kind c t ∈ es → .committed kind c t ∈ es
  time : ∀ kind c t, .committed kind c t ∈ es → t < s.time

section Runs

variable {crypto : Crypto} {zone : NaiveDateTime → Except Exn ℤ} {authToken : Option Str}
  {s s' : System} {es out : List Event} {a : Action}

theorem Effect.time_lt (h : Effect authToken s a s' out) : s.time < s'.time := by
  cases h <;> simp

/-- A change after a step was there before it, or it is new and the others are as before. -/
theorem Effect.change (h : Effect authToken s a s' out) {j : ℕ} {change' : Change}
    (hj : s'.changes j = some change') :
    (∃ change, s.changes j = some change ∧ change.what = change'.what) ∨
      ∃ kind c, change' = .committed kind c s.time ∧ out = [.committed kind c s.time] ∧
        ∀ j', j' ≠ j → s'.changes j' = s.changes j' := by
  cases h with
  | refused | connect | move | register | unregister | store => exact Or.inl ⟨_, hj, rfl⟩
  | commit =>
    rcases setChange_eq_some.1 hj with ⟨rfl, hnew⟩ | ⟨-, hold⟩
    · cases hnew
      exact Or.inr ⟨_, _, rfl, rfl, fun j' hne => Function.update_of_ne hne _ _⟩
    · exact Or.inl ⟨_, hold, rfl⟩
  | pop hold =>
    rcases setChange_eq_some.1 hj with ⟨rfl, hnew⟩ | ⟨-, hold⟩
    · cases hnew
      exact Or.inl ⟨_, hold, rfl⟩
    · exact Or.inl ⟨_, hold, rfl⟩
  | closeSocket hold =>
    rcases setChange_eq_some.1 hj with ⟨rfl, hnew⟩ | ⟨-, hold⟩
    · cases hnew
      exact Or.inl ⟨_, hold, rfl⟩
    · exact Or.inl ⟨_, by simpa using hold, rfl⟩
  | complete =>
    rcases setChange_eq_some.1 hj with ⟨rfl, hnew⟩ | ⟨-, hold⟩
    · cases hnew
    · exact Or.inl ⟨_, hold, rfl⟩

theorem Effect.committed_mem (h : Effect authToken s a s' out) {kind : ChangeKind} {c : UUID} {t : ℕ}
    (hmem : .committed kind c t ∈ out) : t = s.time := by
  cases h with
  | move he hmove =>
    rename_i m _ _
    cases m <;> simp [Move.events] at hmem
  | commit =>
    simp only [List.mem_singleton, Event.committed.injEq] at hmem
    exact hmem.2.2
  | _ => simp at hmem

theorem Effect.completed_mem (h : Effect authToken s a s' out) {kind : ChangeKind} {c : UUID} {t : ℕ}
    (hmem : .completed kind c t ∈ out) : ∃ j, a = .complete j ∧
      s.changes j = some (.closing kind c t ∅) := by
  cases h with
  | move he hmove =>
    rename_i m _ _
    cases m <;> simp [Move.events] at hmem
  | complete hj =>
    simp only [List.mem_singleton, Event.completed.injEq] at hmem
    obtain ⟨rfl, rfl, rfl⟩ := hmem
    exact ⟨_, rfl, hj⟩
  | _ => simp at hmem

theorem Recorded.step (h : Recorded s es) (heff : Effect authToken s a s' out) :
    Recorded s' (es ++ out) where
  change j change kind c t hj hwhat := by
    rcases heff.change hj with ⟨change₀, hold, hsame⟩ | ⟨kind', c', rfl, rfl, -⟩
    · exact List.mem_append_left _ (h.change j change₀ kind c t hold (hsame.trans hwhat))
    · simp only [Change.what, Prod.mk.injEq] at hwhat
      obtain ⟨rfl, rfl, rfl⟩ := hwhat
      simp
  completed kind c t hmem := by
    refine List.mem_append_left _ ?_
    rcases List.mem_append.1 hmem with hold | hnew
    · exact h.completed kind c t hold
    · obtain ⟨j, -, hj⟩ := heff.completed_mem hnew
      exact h.change j _ kind c t hj rfl
  time kind c t hmem := by
    rcases List.mem_append.1 hmem with hold | hnew
    · exact (h.time kind c t hold).trans heff.time_lt
    · rw [heff.committed_mem hnew]
      exact heff.time_lt

theorem recorded_initial (store : CredentialTable) : Recorded (System.initial store) [] := by
  constructor <;> simp [System.initial]

/-! ### Sweeping -/

/-- The stray endpoints are among the sockets that the handler of a change still has to close; when
the change has completed there are none. -/
structure Swept (stray : Endpoint → Prop) (kind : ChangeKind) (c : UUID) (t : ℕ) (s : System)
    (es : List Event) : Prop where
  closing : ∀ j sockets, s.changes j = some (.closing kind c t sockets) →
    ∀ i e, s.endpoints i = some e → stray e → i ∈ sockets
  completed : .completed kind c t ∈ es → ∀ i e, s.endpoints i = some e → ¬ stray e

theorem swept_initial {stray : Endpoint → Prop} {kind : ChangeKind} {c : UUID} {t : ℕ}
    (store : CredentialTable) : Swept stray kind c t (System.initial store) [] := by
  constructor <;> simp [System.initial]

/-- A step keeps the stray endpoints swept when it makes none, and finds them all in the registry if
it is the one that pops it. -/
theorem Swept.step {stray : Endpoint → Prop} {kind : ChangeKind} {c : UUID} {t : ℕ}
    (h : Swept stray kind c t s es) (hrec : Recorded s es) (heff : Effect authToken s a s' out)
    (hopen : ∀ e, stray e → e.closed = false)
    (hback : .committed kind c t ∈ es → ∀ i e', s'.endpoints i = some e' → stray e' →
      ∃ e, s.endpoints i = some e ∧ stray e)
    (hpop : ∀ j, a = .popConnections j → s.changes j = some (.committed kind c t) →
      ∀ i e, s.endpoints i = some e → stray e → i ∈ live s.connections c) :
    Swept stray kind c t s' (es ++ out) where
  closing j sockets hj i e' he' hstray := by
    -- a handler that was already closing sockets had the endpoint among them
    have hkept : ∀ sockets, s.changes j = some (.closing kind c t sockets) → i ∈ sockets := by
      intro sockets hold
      obtain ⟨e, he, hs⟩ := hback (hrec.change j _ kind c t hold rfl) i e' he' hstray
      exact h.closing j sockets hold i e he hs
    cases heff with
    | refused | connect | move | register | unregister | store => exact hkept sockets hj
    | commit =>
      rcases setChange_eq_some.1 hj with ⟨rfl, hnew⟩ | ⟨-, hold⟩
      · cases hnew
      · exact hkept sockets hold
    | pop hold =>
      rcases setChange_eq_some.1 hj with ⟨rfl, hnew⟩ | ⟨-, hold⟩
      · cases hnew
        exact hpop j rfl hold i e' he' hstray
      · exact hkept sockets hold
    | closeSocket hold =>
      rcases setChange_eq_some.1 hj with ⟨rfl, hnew⟩ | ⟨-, hold⟩
      · cases hnew
        refine Finset.mem_erase.2 ⟨?_, hkept _ hold⟩
        rintro rfl
        rcases closeEndpoint_eq_some.1 he' with ⟨-, e, -, rfl⟩ | ⟨hne, -⟩
        · exact absurd (hopen _ hstray) (by simp)
        · exact hne rfl
      · exact hkept sockets (by simpa using hold)
    | complete =>
      rcases setChange_eq_some.1 hj with ⟨rfl, hnew⟩ | ⟨-, hold⟩
      · cases hnew
      · exact hkept sockets hold
  completed hmem i e' he' hstray := by
    rcases List.mem_append.1 hmem with hold | hnew
    · obtain ⟨e, he, hs⟩ := hback (hrec.completed kind c t hold) i e' he' hstray
      exact h.completed hold i e he hs
    · obtain ⟨j, rfl, hj⟩ := heff.completed_mem hnew
      obtain ⟨e, he, hs⟩ := hback (hrec.change j _ kind c t hj rfl) i e' he' hstray
      exact absurd (h.closing j ∅ hj i e he hs) (Finset.notMem_empty i)

/-! ### Registration -/

/-- The endpoint has registered and not unregistered. -/
@[simp] def Phase.isListed : Phase → Bool
  | .registered | .rejected | .receiving | .handling | .finishing => true
  | _ => false

theorem Phase.isListed_of_inLoop {phase : Phase} (h : phase.inLoop = true) :
    phase.isListed = true := by
  cases phase <;> simp_all

theorem isListed_move {store : CredentialTable} {e e' : Endpoint} {m : Move}
    (h : e.move authToken store m = some e') (hlisted : e'.phase.isListed = true) :
    e.phase.isListed = true ∨ e.principal.credentialId = none := by
  cases m <;> simp only [Endpoint.move] at h <;> repeat' split at h
  all_goals cases h <;> simp_all
  rename_i hguard
  rcases hguard with hphase | hphase <;> simp [hphase]

theorem isListed_afterUnregister {e e' : Endpoint} (h : e.afterUnregister = some e') :
    e'.phase.isListed = false := by
  unfold Endpoint.afterUnregister at h
  split at h
  · cases h
    rfl
  split at h
  · cases h
    rfl
  · cases h

/-- A registered endpoint with an open socket is in the registry, or waits to be closed. -/
def Listed (c : UUID) (s : System) : Prop :=
  ∀ i e, s.endpoints i = some e → e.principal.credentialId = some c → e.closed = false →
    e.phase.isListed = true →
      i ∈ live s.connections c ∨
        ∃ j kind t sockets, s.changes j = some (.closing kind c t sockets) ∧ i ∈ sockets

/-- A socket that waits to be closed waits until it is. -/
theorem Effect.waits (heff : Effect authToken s a s' out) {j i : ℕ} {kind : ChangeKind} {c : UUID}
    {t : ℕ} {sockets : Finset ℕ} (hj : s.changes j = some (.closing kind c t sockets))
    (hi : i ∈ sockets) {e' : Endpoint} (he' : s'.endpoints i = some e') (hopen : e'.closed = false) :
    ∃ sockets', s'.changes j = some (.closing kind c t sockets') ∧ i ∈ sockets' := by
  have hother : ∀ (s₀ : System) j₀ change, s₀.changes = s.changes → j ≠ j₀ →
      ∃ sockets', (s₀.setChange j₀ change).tick.changes j = some (.closing kind c t sockets') ∧
        i ∈ sockets' :=
    fun s₀ j₀ change hs₀ hne =>
      ⟨sockets, setChange_eq_some.2 (Or.inr ⟨hne, hs₀ ▸ hj⟩), hi⟩
  cases heff with
  | refused | connect | move | register | unregister | store => exact ⟨sockets, hj, hi⟩
  | commit hnew =>
    refine hother _ _ _ rfl ?_
    rintro rfl
    rw [hj] at hnew
    cases hnew
  | pop hold =>
    refine hother _ _ _ rfl ?_
    rintro rfl
    rw [hj] at hold
    cases hold
  | @closeSocket j₀ i₀ _ _ _ _ hold hi₀ =>
    by_cases hjj : j = j₀
    · subst hjj
      rw [hj] at hold
      cases hold
      refine ⟨_, setChange_eq_some.2 (Or.inl ⟨rfl, rfl⟩), Finset.mem_erase.2 ⟨?_, hi⟩⟩
      rintro rfl
      rcases closeEndpoint_eq_some.1 he' with ⟨-, e, -, rfl⟩ | ⟨hne, -⟩
      · cases hopen
      · exact hne rfl
    · exact hother _ _ _ (closeEndpoint_changes s i₀) hjj
  | complete hold =>
    refine hother _ _ _ rfl ?_
    rintro rfl
    rw [hj] at hold
    cases hold
    exact absurd hi (Finset.notMem_empty i)

theorem Listed.step {c : UUID} (h : Listed c s) (heff : Effect authToken s a s' out) :
    Listed c s' := by
  intro i e' he' hc hopen hlisted
  -- what the endpoint had before the step it keeps, unless the step is about the registry
  have hkeep : ∀ e, s.endpoints i = some e → e.principal.credentialId = some c → e.closed = false →
      e.phase.isListed = true → (i ∈ live s.connections c → i ∈ live s'.connections c ∨
        ∃ j kind t sockets, s'.changes j = some (.closing kind c t sockets) ∧ i ∈ sockets) →
      i ∈ live s'.connections c ∨
        ∃ j kind t sockets, s'.changes j = some (.closing kind c t sockets) ∧ i ∈ sockets := by
    intro e he hce hopene hlistede hlive
    rcases h i e he hce hopene hlistede with hin | ⟨j, kind, t, sockets, hj, hin⟩
    · exact hlive hin
    · obtain ⟨sockets', hj', hin'⟩ := heff.waits hj hin he' hopen
      exact Or.inr ⟨j, kind, t, sockets', hj', hin'⟩
  cases heff with
  | refused | store | commit | complete => exact hkeep e' he' hc hopen hlisted Or.inl
  | connect hnew hauth hphase =>
    rcases setEndpoint_eq_some.1 he' with ⟨rfl, rfl⟩ | ⟨-, hold⟩
    · rw [hphase] at hlisted
      cases hlisted
    · exact hkeep e' hold hc hopen hlisted Or.inl
  | @move _ m e _ he hmove =>
    rcases setEndpoint_eq_some.1 he' with ⟨rfl, rfl⟩ | ⟨-, hold⟩
    · have hadv := advance_move hmove
      have hce : e.principal.credentialId = some c := hadv.principal ▸ hc
      refine hkeep e he hce ?_ ?_ Or.inl
      · by_contra hclosed
        exact absurd (hadv.closed (by simpa using hclosed)) (by simp [hopen])
      · rcases isListed_move hmove hlisted with hl | hnone
        · exact hl
        · rw [hce] at hnone
          cases hnone
    · exact hkeep e' hold hc hopen hlisted Or.inl
  | @register i₀ e c₀ he hc₀ hphase =>
    rcases setEndpoint_eq_some.1 he' with ⟨rfl, rfl⟩ | ⟨-, hold⟩
    · obtain rfl : c₀ = c := by simpa [hc₀] using hc
      exact Or.inl (by simp [live_register])
    · refine hkeep e' hold hc hopen hlisted fun hin => Or.inl ?_
      simp only [tick_connections, setEndpoint_connections, live_register]
      split
      · exact Finset.mem_insert_of_mem hin
      · exact hin
  | @unregister i₀ e _ he hafter =>
    rcases setEndpoint_eq_some.1 he' with ⟨rfl, rfl⟩ | ⟨hne, hold⟩
    · rw [isListed_afterUnregister hafter] at hlisted
      cases hlisted
    · refine hkeep e' hold hc hopen hlisted fun hin => Or.inl ?_
      simp only [tick_connections, setEndpoint_connections]
      split
      · exact hin
      · rw [live_unregister]
        split
        · exact Finset.mem_erase.2 ⟨hne, hin⟩
        · exact hin
  | @pop j kind c₀ t hj =>
    refine hkeep e' he' hc hopen hlisted fun hin => ?_
    by_cases hcc : c₀ = c
    · subst hcc
      exact Or.inr ⟨j, kind, t, _, setChange_eq_some.2 (Or.inl ⟨rfl, rfl⟩), hin⟩
    · refine Or.inl ?_
      simpa [live_pop, hcc] using hin
  | @closeSocket j i₀ _ _ _ _ hj hi₀ =>
    rcases closeEndpoint_eq_some.1 he' with ⟨rfl, e, he, rfl⟩ | ⟨-, hold⟩
    · cases hopen
    · exact hkeep e' hold hc hopen hlisted fun hin => Or.inl (by simpa using hin)

/-! ### A paired phone -/

/-- The store after a phone has been paired. -/
def sampleStore : CredentialTable :=
  (Credentials.issue CredentialTable.empty ⟨"phone-1".toList, "Phone".toList, none⟩ firstToken
    samplePhone sampleNow .none).1

def utcZone : NaiveDateTime → Except Exn ℤ := fun _ => .ok 0

/-- The phone has no approval key, so that no key is ever loaded. -/
def noCrypto : Crypto := ⟨fun _ => .undecodable, fun _ _ _ => false⟩

def connectPhone (i : ℕ) : Action := .connect i (some (Auth.bearerPrefix ++ firstToken)) .none

/-! ### Revocation -/

/-- Connections come and go, credentials are issued and revoked, and all but `c` may be rotated. A
new id is not that of a revoked credential. -/
def RevocationsOf (c : UUID) (_ : System) (es : List Event) : Action → Prop
  | .rotate _ c' _ _ _ _ => c' ≠ c
  | .issue _ _ c' _ _ => c' = c → ∀ t, .committed .revocation c t ∉ es
  | _ => True

/-- Once a revocation of `c` is committed `c` is inactive, so that there is only one. -/
structure Revoked (c : UUID) (s : System) (es : List Event) : Prop where
  recorded : Recorded s es
  inactive : ∀ t, .committed .revocation c t ∈ es → s.store.findActive c = none
  kind : ∀ kind t, .committed kind c t ∈ es → kind = .revocation
  unique : ∀ j j' change change' kind kind' t t', s.changes j = some change →
    s.changes j' = some change' → change.what = (kind, c, t) → change'.what = (kind', c, t') → j = j'

theorem revoked_initial (c : UUID) (store : CredentialTable) :
    Revoked c (System.initial store) [] where
  recorded := recorded_initial store
  inactive := by simp
  kind := by simp
  unique := by simp [System.initial]

/-- A commit of a change of `c` is a revocation, finds `c` active and leaves it inactive. -/
theorem Effect.committed_revocation {c : UUID} (heff : Effect authToken s a s' out)
    (hok : RevocationsOf c s es a) {kind : ChangeKind} {t : ℕ} (hmem : .committed kind c t ∈ out) :
    kind = .revocation ∧ s.store.findActive c ≠ none ∧ s'.store.findActive c = none := by
  cases heff with
  | @move _ m _ _ he hmove => cases m <;> simp [Move.events] at hmem
  | commit hnew ha hkeep hrevoked =>
    simp only [List.mem_singleton, Event.committed.injEq] at hmem
    obtain ⟨rfl, rfl, rfl⟩ := hmem
    rcases ha with ⟨rfl, -⟩ | ⟨-, current, new, now, fault, rfl⟩
    · exact ⟨rfl, hrevoked rfl⟩
    · exact absurd rfl hok
  | _ => simp at hmem

theorem Effect.keeps_inactive {c : UUID} {t : ℕ} (heff : Effect authToken s a s' out)
    (hok : RevocationsOf c s es a) (hmem : .committed .revocation c t ∈ es)
    (h : s.store.findActive c = none) : s'.store.findActive c = none := by
  cases heff with
  | store hkeep hown =>
    refine hkeep c h ?_
    rintro args token now fault rfl
    exact hok rfl t hmem
  | commit hnew ha hkeep hrevoked => exact hkeep c h
  | refused | connect | move | register | unregister | pop | complete => exact h
  | closeSocket => simpa using h

theorem Revoked.step {c : UUID} (h : Revoked c s es) (hok : RevocationsOf c s es a)
    (heff : Effect authToken s a s' out) : Revoked c s' (es ++ out) where
  recorded := h.recorded.step heff
  inactive t hmem := by
    rcases List.mem_append.1 hmem with hold | hnew
    · exact heff.keeps_inactive hok hold (h.inactive t hold)
    · exact (heff.committed_revocation hok hnew).2.2
  kind kind t hmem := by
    rcases List.mem_append.1 hmem with hold | hnew
    · exact h.kind kind t hold
    · exact (heff.committed_revocation hok hnew).1
  unique j j' change change' kind kind' t t' hj hj' hwhat hwhat' := by
    -- a change of `c` that was there before has been committed, so that a new one finds `c` inactive
    have hclash : ∀ {j₀ j₁ change₀ change₁ kind₀ kind₁ t₀ t₁}, s.changes j₀ = some change₀ →
        change₀.what = (kind₀, c, t₀) → s'.changes j₁ = some change₁ →
        change₁.what = (kind₁, c, t₁) → ∃ change, s.changes j₁ = some change ∧
          change.what = (kind₁, c, t₁) := by
      intro j₀ j₁ change₀ change₁ kind₀ kind₁ t₀ t₁ hj₀ hwhat₀ hj₁ hwhat₁
      rcases heff.change hj₁ with ⟨change, hold, hsame⟩ | ⟨kind₂, c', rfl, rfl, -⟩
      · exact ⟨change, hold, hsame.trans hwhat₁⟩
      · simp only [Change.what, Prod.mk.injEq] at hwhat₁
        obtain ⟨rfl, rfl, rfl⟩ := hwhat₁
        have hcom := h.recorded.change j₀ change₀ kind₀ _ t₀ hj₀ hwhat₀
        obtain rfl := h.kind kind₀ t₀ hcom
        exact absurd (h.inactive t₀ hcom)
          (heff.committed_revocation hok (List.mem_singleton_self _)).2.1
    by_contra hne
    rcases heff.change hj with ⟨change₀, hold, hsame⟩ | ⟨-, -, -, -, hothers⟩
    · obtain ⟨change₁, hold₁, hwhat₁⟩ := hclash hold (hsame.trans hwhat) hj' hwhat'
      exact hne (h.unique _ _ _ _ _ _ _ _ hold hold₁ (hsame.trans hwhat) hwhat₁)
    · rw [hothers j' (Ne.symm hne)] at hj'
      obtain ⟨change₁, hold₁, hwhat₁⟩ := hclash hj' hwhat' hj hwhat
      exact hne (h.unique _ _ _ _ _ _ _ _ hold₁ hj' hwhat₁ hwhat')

/-- The endpoints of `c` that a revocation of `c` must close. -/
structure InLoop (c : UUID) (e : Endpoint) : Prop where
  credential : e.principal.credentialId = some c
  opened : e.closed = false
  phase : e.phase.inLoop = true

theorem Revoked.swept_step {c : UUID} {t : ℕ} (h : Revoked c s es) (hlisted : Listed c s)
    (hswept : Swept (InLoop c) .revocation c t s es) (heff : Effect authToken s a s' out) :
    Swept (InLoop c) .revocation c t s' (es ++ out) := by
  refine hswept.step h.recorded heff (fun e he => he.opened) ?_ ?_
  · intro hcom i e' he' hin
    rcases heff.endpoint he' with hold | ⟨-, -, hphase⟩ | ⟨e, he, hadv⟩
    · exact ⟨e', hold, hin⟩
    · have := hin.phase
      rw [hphase] at this
      cases this
    · have hc : e.principal.credentialId = some c := hadv.principal ▸ hin.credential
      rcases hadv.inLoop hin.phase with hphase | hnone | ⟨fault, hactive⟩
      · refine ⟨e, he, hc, ?_, hphase⟩
        by_contra hclosed
        exact absurd (hadv.closed (by simpa using hclosed)) (by simp [hin.opened])
      · rw [hc] at hnone
        cases hnone
      · rw [isActive_of_findActive_none hc (h.inactive t hcom)] at hactive
        cases hactive
  · intro j _ hj i e he hin
    rcases hlisted i e he hin.credential hin.opened (Phase.isListed_of_inLoop hin.phase) with
      hlive | ⟨j', kind, t', sockets, hj', -⟩
    · exact hlive
    · -- the only change of `c` has not popped the registry yet
      obtain rfl := h.unique j j' _ _ _ _ _ _ hj hj' rfl rfl
      rw [hj] at hj'
      cases hj'

/-- An open endpoint is in the loop, or has steps left before it. -/
def Placed (s : System) : Prop :=
  ∀ i e, s.endpoints i = some e → e.closed = false → e.phase.inLoop = true ∨ 0 < e.phase.left

theorem Placed.step (h : Placed s) (heff : Effect authToken s a s' out) : Placed s' := by
  intro i e' he' hopen
  rcases heff.endpoint he' with hold | ⟨-, -, hphase⟩ | ⟨e, he, hadv⟩
  · exact h i e' hold hopen
  · exact Or.inr (by simp [hphase])
  · rcases hadv.left with hclosed | hin | ⟨-, hleft⟩
    · rw [hopen] at hclosed
      cases hclosed
    · exact Or.inl hin
    · exact Or.inr hleft

/-- What holds of the endpoints of `c` in every run. -/
structure RevocationInv (c : UUID) (s : System) (es : List Event) : Prop where
  revoked : Revoked c s es
  listed : Listed c s
  placed : Placed s
  swept : ∀ t, Swept (InLoop c) .revocation c t s es

theorem RevocationInv.step {c : UUID} (h : RevocationInv c s es) (hok : RevocationsOf c s es a)
    (heff : Effect authToken s a s' out) : RevocationInv c s' (es ++ out) where
  revoked := h.revoked.step hok heff
  listed := h.listed.step heff
  placed := h.placed.step heff
  swept t := h.revoked.swept_step h.listed (h.swept t) heff

theorem revocationInv_of_reaches {c : UUID} {store : CredentialTable}
    (h : Machine.Reaches (step crypto zone authToken) (RevocationsOf c) (System.initial store) s es) :
    RevocationInv c s es := by
  refine h.invariant ⟨revoked_initial c store, ?_, ?_, fun t => swept_initial store⟩ ?_
  · intro i e he
    cases he
  · intro i e he
    cases he
  · intro s es a s' out hinv hok hs
    exact hinv.step hok (effect_of_step hs)

theorem next_of_setEndpoint {i i₀ : ℕ} {e e₀ e₁ : Endpoint} {s₀ : System}
    (he : s.endpoints i = some e) (he₀ : s.endpoints i₀ = some e₀)
    (hadv : Advance authToken s.store e₀ e₁) (hs₀ : s₀.endpoints = s.endpoints)
    (hown : i₀ ≠ i → a.isOwn i = false) :
    ∃ e', (s₀.setEndpoint i₀ e₁).tick.endpoints i = some e' ∧
      (Advance authToken s.store e e' ∨ (e' = e ∧ a.isOwn i = false)) := by
  by_cases hi : i₀ = i
  · subst hi
    obtain rfl : e₀ = e := Option.some.inj (he₀.symm.trans he)
    exact ⟨e₁, setEndpoint_eq_some.2 (Or.inl ⟨rfl, rfl⟩), Or.inl hadv⟩
  · exact ⟨e, setEndpoint_eq_some.2 (Or.inr ⟨Ne.symm hi, hs₀ ▸ he⟩), Or.inr ⟨rfl, hown hi⟩⟩

/-- An endpoint goes on when it makes a step; otherwise it stays as it is or is closed. -/
theorem Effect.next (heff : Effect authToken s a s' out) {i : ℕ} {e : Endpoint}
    (he : s.endpoints i = some e) :
    ∃ e', s'.endpoints i = some e' ∧
      (Advance authToken s.store e e' ∨ (e' = e ∧ a.isOwn i = false)) := by
  cases heff with
  | refused | pop | complete => exact ⟨e, he, Or.inr ⟨rfl, rfl⟩⟩
  | store hkeep hown => exact ⟨e, he, Or.inr ⟨rfl, hown i⟩⟩
  | commit hnew ha =>
    refine ⟨e, he, Or.inr ⟨rfl, ?_⟩⟩
    rcases ha with ⟨-, now, fault, rfl⟩ | ⟨-, current, new, now, fault, rfl⟩ <;> rfl
  | connect hnew =>
    refine ⟨e, setEndpoint_eq_some.2 (Or.inr ⟨?_, he⟩), Or.inr ⟨rfl, rfl⟩⟩
    rintro rfl
    rw [he] at hnew
    cases hnew
  | move he₀ hmove =>
    exact next_of_setEndpoint he he₀ (advance_move hmove) rfl (by simp [Action.isOwn])
  | register he₀ hc hphase =>
    exact next_of_setEndpoint he he₀ (advance_register hphase) rfl (by simp [Action.isOwn])
  | unregister he₀ hafter =>
    exact next_of_setEndpoint he he₀ (advance_unregister hafter) rfl (by simp [Action.isOwn])
  | @closeSocket j i₀ =>
    by_cases hi : i = i₀
    · subst hi
      exact ⟨_, closeEndpoint_eq_some.2 (Or.inl ⟨rfl, e, he, rfl⟩), Or.inl advance_close⟩
    · exact ⟨e, closeEndpoint_eq_some.2 (Or.inr ⟨hi, he⟩), Or.inr ⟨rfl, rfl⟩⟩

/-- The endpoint stays out of the receive loop until it is closed: its check fails, it can go on, and
whatever else happens it is closed after at most `e.phase.left` steps of its own. -/
structure TurnedAway (crypto : Crypto) (zone : NaiveDateTime → Except Exn ℤ)
    (authToken : Option Str) (c : UUID) (s : System) (es : List Event) (i : ℕ) (e : Endpoint) :
    Prop where
  outside : e.phase.inLoop = false
  check : ∀ fault, Auth.isActive authToken (some s.store) e.principal fault = false
  goesOn : ∃ a, a.isOwn i = true ∧ RevocationsOf c s es a ∧
    (step crypto zone authToken s a).isSome = true
  closes : ∀ as s' out, Machine.Allowed (step crypto zone authToken) (RevocationsOf c) s es as →
    Machine.run (step crypto zone authToken) s as = some (s', out) →
    ∃ e', s'.endpoints i = some e' ∧
      (e'.closed = true ∨ as.countP (Action.isOwn i) < e.phase.left)

/-- An endpoint with steps left can make one. -/
theorem exists_own_step {c : UUID} {i : ℕ} {e : Endpoint} (he : s.endpoints i = some e)
    (hc : e.principal.credentialId = some c) (hleft : 0 < e.phase.left) :
    ∃ a, a.isOwn i = true ∧ RevocationsOf c s es a ∧
      (step crypto zone authToken s a).isSome = true := by
  cases hphase : e.phase with
  | authenticated =>
    refine ⟨.move i .accept, by simp [Action.isOwn], trivial, ?_⟩
    simp [step, he, Endpoint.move, hphase]
  | accepted =>
    refine ⟨.register i, by simp [Action.isOwn], trivial, ?_⟩
    simp [step, he, hc, hphase]
  | registered =>
    refine ⟨.move i (.check .none), by simp [Action.isOwn], trivial, ?_⟩
    cases hactive : Auth.isActive authToken (some s.store) e.principal .none <;>
      simp [step, he, Endpoint.move, hphase, hactive]
  | rejected =>
    refine ⟨.unregister i, by simp [Action.isOwn], trivial, ?_⟩
    simp [step, he, Endpoint.afterUnregister, hphase]
  | unregistered =>
    refine ⟨.move i .close, by simp [Action.isOwn], trivial, ?_⟩
    simp [step, he, Endpoint.move, hphase]
  | receiving | handling | finishing | exited =>
    rw [hphase] at hleft
    cases hleft

/-- After a completed revocation an open endpoint of `c` is not in the loop. -/
theorem RevocationInv.inLoop_eq_false {c : UUID} {t : ℕ} (h : RevocationInv c s es)
    (hdone : .completed .revocation c t ∈ es) {i : ℕ} {e : Endpoint} (he : s.endpoints i = some e)
    (hc : e.principal.credentialId = some c) (hopen : e.closed = false) :
    e.phase.inLoop = false := by
  by_contra hin
  exact (h.swept t).completed hdone i e he ⟨hc, hopen, by simpa using hin⟩

/-- After a completed revocation every step of an endpoint of `c` uses up one that it had left. -/
theorem RevocationInv.left_step {c : UUID} {t : ℕ} (h : RevocationInv c s' (es ++ out))
    (hdone : .completed .revocation c t ∈ es) (heff : Effect authToken s a s' out) {i : ℕ}
    {e : Endpoint} (he : s.endpoints i = some e) (hc : e.principal.credentialId = some c) :
    ∃ e', s'.endpoints i = some e' ∧ e'.principal.credentialId = some c ∧
      (e.closed = true → e'.closed = true) ∧
      (e'.closed = true ∨ (if a.isOwn i then 1 else 0) + e'.phase.left ≤ e.phase.left) := by
  obtain ⟨e', he', hadv | ⟨rfl, hown⟩⟩ := heff.next he
  · have hc' : e'.principal.credentialId = some c := hadv.principal ▸ hc
    refine ⟨e', he', hc', hadv.closed, ?_⟩
    rcases hadv.left with hclosed | hin | ⟨hleft, -⟩
    · exact Or.inl hclosed
    · refine Or.inl ?_
      by_contra hopen
      have := h.inLoop_eq_false (List.mem_append_left _ hdone) he' hc' (by simpa using hopen)
      rw [hin] at this
      cases this
    · refine Or.inr ?_
      split <;> omega
  · exact ⟨e', he', hc, id, Or.inr (by simp [hown])⟩

theorem RevocationInv.left_run {c : UUID} {t : ℕ} (h : RevocationInv c s es)
    (hdone : .completed .revocation c t ∈ es) {i : ℕ} {e : Endpoint} (he : s.endpoints i = some e)
    (hc : e.principal.credentialId = some c) {as : List Action}
    (hok : Machine.Allowed (LiveAccess.step crypto zone authToken) (RevocationsOf c) s es as)
    (hrun : Machine.run (LiveAccess.step crypto zone authToken) s as = some (s', out)) :
    ∃ e', s'.endpoints i = some e' ∧ e'.principal.credentialId = some c ∧
      (e.closed = true → e'.closed = true) ∧
      (e'.closed = true ∨ as.countP (Action.isOwn i) + e'.phase.left ≤ e.phase.left) := by
  induction as generalizing s es e out with
  | nil =>
    cases hrun
    exact ⟨e, he, hc, id, Or.inr (by simp)⟩
  | cons a as ih =>
    simp only [Machine.run, Option.bind_eq_bind, Option.bind_eq_some_iff, Option.pure_def,
      Option.some.injEq, Prod.mk.injEq, Prod.exists] at hrun
    obtain ⟨s₁, out₁, hs, s₂, es', hrest, rfl, rfl⟩ := hrun
    have heff := effect_of_step hs
    have hinv := h.step hok.1 heff
    obtain ⟨e₁, he₁, hc₁, hstay₁, hleft₁⟩ := hinv.left_step hdone heff he hc
    obtain ⟨e', he', hc', hstay, hleft⟩ :=
      ih hinv (List.mem_append_left _ hdone) he₁ hc₁ (hok.2 _ _ hs) hrest
    refine ⟨e', he', hc', hstay ∘ hstay₁, ?_⟩
    rcases hleft₁ with hclosed | hleft₁
    · exact Or.inl (hstay hclosed)
    rcases hleft with hclosed | hleft
    · exact Or.inl hclosed
    · rw [List.countP_cons]
      exact Or.inr (by omega)

/-- **A completed revocation leaves no connection in the loop.** In every run with any interleaving
of connects, disconnects and revocations of `c`: once a revocation of `c` has completed, each
endpoint of `c` is closed, or it is turned away by its own check before it enters the loop. -/
theorem revocation_closes {store : CredentialTable} {c : UUID} {t i : ℕ} {e : Endpoint}
    (h : Machine.Reaches (step crypto zone authToken) (RevocationsOf c) (System.initial store) s es)
    (hdone : .completed .revocation c t ∈ es) (he : s.endpoints i = some e)
    (hc : e.principal.credentialId = some c) :
    e.closed = true ∨ TurnedAway crypto zone authToken c s es i e := by
  have hinv := revocationInv_of_reaches h
  by_cases hclosed : e.closed = true
  · exact Or.inl hclosed
  have hopen : e.closed = false := by simpa using hclosed
  have houtside := hinv.inLoop_eq_false hdone he hc hopen
  have hleft : 0 < e.phase.left := by
    rcases hinv.placed i e he hopen with hin | hleft
    · rw [houtside] at hin
      cases hin
    · exact hleft
  have hinactive := hinv.revoked.inactive t (hinv.revoked.recorded.completed _ _ _ hdone)
  refine Or.inr ⟨houtside, isActive_of_findActive_none hc hinactive, exists_own_step he hc hleft, ?_⟩
  intro as s' out hok hrun
  obtain ⟨e', he', hc', -, hclosed' | hcount⟩ := hinv.left_run hdone he hc hok hrun
  · exact ⟨e', he', Or.inl hclosed'⟩
  · refine ⟨e', he', ?_⟩
    by_cases hclosed' : e'.closed = true
    · exact Or.inl hclosed'
    have hopen' : e'.closed = false := by simpa using hclosed'
    -- the later state is reachable too, so that the endpoint has steps left there
    have hinv' := revocationInv_of_reaches (h.run hok hrun)
    rcases hinv'.placed i e' he' hopen' with hin | hleft'
    · rw [hinv'.inLoop_eq_false (List.mem_append_left _ hdone) he' hc' hopen'] at hin
      cases hin
    · exact Or.inr (by omega)

/-- Connection 0 is in the receive loop and connection 1 on its way when the phone is revoked. -/
def revocationRun : List Action :=
  [connectPhone 0, .move 0 .accept, .register 0, .move 0 (.check .none),
    connectPhone 1, .move 1 .accept,
    .revoke 0 samplePhone sampleNow .none, .popConnections 0, .closeSocket 0 0, .complete 0]

/-- Connection 0 has been closed, and connection 1 is turned away. -/
theorem revocation_two_connections : ∃ s es e,
    Machine.Reaches (step noCrypto utcZone none) (RevocationsOf samplePhone)
        (System.initial sampleStore) s es ∧
      .completed .revocation samplePhone 6 ∈ es ∧ s.endpoints 1 = some e ∧
      (s.endpoints 0).map Endpoint.closed = some true ∧
      TurnedAway noCrypto utcZone none samplePhone s es 1 e := by
  have hrun : (Machine.run (step noCrypto utcZone none) (System.initial sampleStore)
      revocationRun).map (fun r => (r.2, (r.1.endpoints 0).map Endpoint.closed,
        (r.1.endpoints 1).map fun e => (e.principal.credentialId, e.closed))) =
      some ([.committed .revocation samplePhone 6, .completed .revocation samplePhone 6],
        some true, some (some samplePhone, false)) := by
    decide +kernel
  obtain ⟨⟨s, es⟩, hs, hobs⟩ := Option.map_eq_some_iff.1 hrun
  simp only [Prod.mk.injEq] at hobs
  obtain ⟨rfl, hzero, hone⟩ := hobs
  obtain ⟨e, he, hobs⟩ := Option.map_eq_some_iff.1 hone
  obtain ⟨hc, hopen⟩ := Prod.mk.inj hobs
  have hok : Machine.Allowed (step noCrypto utcZone none) (RevocationsOf samplePhone)
      (System.initial sampleStore) [] revocationRun := by
    repeat' first | exact trivial | refine ⟨trivial, fun _ _ _ => ?_⟩
  have hreach := Machine.reaches_of_run hok hs
  refine ⟨s, _, e, hreach, by simp, he, hzero, ?_⟩
  rcases revocation_closes hreach (t := 6) (by simp) he hc with hclosed | haway
  · rw [hopen] at hclosed
    cases hclosed
  · exact haway

/-! ### Rotation -/

/-- The endpoints of `c` that a rotation of `c` at time `t` must close. -/
structure Outdated (c : UUID) (t : ℕ) (e : Endpoint) : Prop where
  credential : e.principal.credentialId = some c
  opened : e.closed = false
  authAt : e.authAt < t
  phase : e.phase.mayHandle = true

/-- When the registry is popped for a rotation, it holds the endpoints to be closed: none of them is
still on its way to `register`, or was popped for another change that has not closed it yet. -/
def RegisteredInTime (s : System) (_ : List Event) : Action → Prop
  | .popConnections j => ∀ c t, s.changes j = some (.committed .rotation c t) →
      ∀ i e, s.endpoints i = some e → Outdated c t e → i ∈ live s.connections c
  | _ => True

/-- No message of a connection goes to `_handle_message` after a rotation of its credential that
was committed after the connection was authenticated has completed. -/
def NoOutdatedMessage : List Event → Prop :=
  Machine.AtEach fun before event => ∀ i c authAt t, event = .handled i (some c) authAt →
    .completed .rotation c t ∈ before → t ≤ authAt

/-- What holds of the endpoints in every run that registers in time. -/
structure RotationInv (s : System) (es : List Event) : Prop where
  recorded : Recorded s es
  swept : ∀ c t, Swept (Outdated c t) .rotation c t s es
  messages : NoOutdatedMessage es

theorem RotationInv.swept_step {c : UUID} {t : ℕ} (h : RotationInv s es)
    (hok : RegisteredInTime s es a) (heff : Effect authToken s a s' out) :
    Swept (Outdated c t) .rotation c t s' (es ++ out) := by
  refine (h.swept c t).step h.recorded heff (fun e he => he.opened) ?_ ?_
  · intro hcom i e' he' hold'
    rcases heff.endpoint he' with hold | ⟨-, hauth, -⟩ | ⟨e, he, hadv⟩
    · exact ⟨e', hold, hold'⟩
    · have := h.recorded.time _ _ _ hcom
      have := hold'.authAt
      omega
    · refine ⟨e, he, hadv.principal ▸ hold'.credential, ?_, hadv.authAt ▸ hold'.authAt,
        hadv.mayHandle hold'.phase⟩
      by_contra hclosed
      exact absurd (hadv.closed (by simpa using hclosed)) (by simp [hold'.opened])
  · rintro j rfl hj i e he hold
    exact hok c t hj i e he hold

/-- A message is handled by an open endpoint that receives. -/
theorem Effect.handled_mem (heff : Effect authToken s a s' out) {event : Event}
    (hmem : event ∈ out) {i authAt : ℕ} {c : UUID} (hevent : event = .handled i (some c) authAt) :
    out = [event] ∧ ∃ e, s.endpoints i = some e ∧ e.principal.credentialId = some c ∧
      e.authAt = authAt ∧ e.closed = false ∧ e.phase = .receiving := by
  subst hevent
  cases heff with
  | @move _ m e e' he hmove =>
    cases m with
    | receive =>
      simp only [Move.events, List.mem_singleton, Event.handled.injEq] at hmem
      obtain ⟨rfl, hc, rfl⟩ := hmem
      simp only [Endpoint.move] at hmove
      split at hmove
      · rename_i hguard
        exact ⟨by rw [Move.events, ← hc], e, he, hc.symm, rfl, hguard.2, hguard.1⟩
      · cases hmove
    | _ => simp [Move.events] at hmem
  | _ => simp at hmem

theorem RotationInv.messages_step (h : RotationInv s es) (heff : Effect authToken s a s' out) :
    NoOutdatedMessage (es ++ out) := by
  refine Machine.atEach_append h.messages ?_
  intro before event after hout i c authAt t hevent hdone
  have hmem : event ∈ out := by simp [hout]
  obtain ⟨hsingle, e, he, hc, rfl, hopen, hphase⟩ := heff.handled_mem hmem hevent
  obtain rfl : before = [] := by
    rw [hsingle] at hout
    cases before with
    | nil => rfl
    | cons x before => simp at hout
  rw [List.append_nil] at hdone
  by_contra hlt
  exact (h.swept c t).completed hdone i e he ⟨hc, hopen, by omega, by simp [hphase]⟩

/-- **A rotation that finds every earlier connection registered silences them.** In every run whose
rotations pop the registry only when it holds the endpoints they must close, no endpoint that was
authenticated before a rotation of its credential handles a message after the rotation has
completed. -/
theorem rotation_closes {store : CredentialTable}
    (h : Machine.Reaches (step crypto zone authToken) RegisteredInTime (System.initial store) s es) :
    NoOutdatedMessage es := by
  have hinv : RotationInv s es := by
    refine h.invariant
      ⟨recorded_initial store, fun c t => swept_initial store, Machine.atEach_nil⟩ ?_
    intro s es a s' out hinv hok hs
    have heff := effect_of_step hs
    exact ⟨hinv.recorded.step heff, fun c t => hinv.swept_step hok heff, hinv.messages_step heff⟩
  exact hinv.messages

/-- Connection 0 registers after the rotation of the phone has popped the registry. -/
def lateRegistrationRun : List Action :=
  [connectPhone 0, .move 0 .accept,
    .rotate 0 samplePhone firstToken secondToken sampleNow .none, .popConnections 0, .complete 0,
    .register 0, .move 0 (.check .none), .move 0 .receive]

/-- Its check passes and its next message is handled. -/
theorem late_registration_survives : ∃ s es,
    Machine.Reaches (step noCrypto utcZone none) Machine.anyStep (System.initial sampleStore) s es ∧
      ¬ NoOutdatedMessage es := by
  have hrun : (Machine.run (step noCrypto utcZone none) (System.initial sampleStore)
      lateRegistrationRun).map Prod.snd =
      some [.committed .rotation samplePhone 2, .completed .rotation samplePhone 2,
        .handled 0 (some samplePhone) 0] := by
    decide +kernel
  obtain ⟨⟨s, es⟩, hs, rfl⟩ := Option.map_eq_some_iff.1 hrun
  refine ⟨s, _, Machine.run_reaches hs, fun hno => ?_⟩
  have hle := hno [.committed .rotation samplePhone 2, .completed .rotation samplePhone 2]
    (.handled 0 (some samplePhone) 0) [] rfl 0 samplePhone 0 2 rfl (by simp)
  omega

/-- Connection 0 has registered and handled a message when the phone rotates. -/
def beforePop : List Action :=
  [connectPhone 0, .move 0 .accept, .register 0, .move 0 (.check .none), .move 0 .receive,
    .rotate 0 samplePhone firstToken secondToken sampleNow .none]

/-- A run connects no endpoint that it does not name. -/
theorem endpoints_eq_none_of_run {as : List Action} {s s' : System} {out : List Event} {i : ℕ}
    (hrun : Machine.run (step noCrypto utcZone none) s as = some (s', out))
    (hnone : s.endpoints i = none) (has : ∀ authorization fault, .connect i authorization fault ∉ as) :
    s'.endpoints i = none := by
  induction as generalizing s out with
  | nil =>
    cases hrun
    exact hnone
  | cons a as ih =>
    simp only [Machine.run, Option.bind_eq_bind, Option.bind_eq_some_iff, Option.pure_def,
      Option.some.injEq, Prod.mk.injEq, Prod.exists] at hrun
    obtain ⟨s₁, out₁, hs, s₂, es', hrest, rfl, rfl⟩ := hrun
    refine ih hrest ?_ fun authorization fault hmem =>
      has authorization fault (List.mem_cons_of_mem _ hmem)
    by_contra hsome
    obtain ⟨e, he⟩ := Option.ne_none_iff_exists'.1 hsome
    rcases (effect_of_step hs).endpoint he with hold | ⟨⟨authorization, fault, rfl⟩, -⟩ | ⟨e₀, hold, -⟩
    · rw [hnone] at hold
      cases hold
    · exact has authorization fault List.mem_cons_self
    · rw [hnone] at hold
      cases hold

/-- A rotation that closes the only connection of the phone. -/
theorem rotation_one_connection : ∃ s es,
    Machine.Reaches (step noCrypto utcZone none) RegisteredInTime (System.initial sampleStore) s es ∧
      es = [.handled 0 (some samplePhone) 0, .committed .rotation samplePhone 5,
        .completed .rotation samplePhone 5] ∧ NoOutdatedMessage es := by
  have hrun : ((Machine.run (step noCrypto utcZone none) (System.initial sampleStore)
      beforePop).bind fun r₁ => (Machine.run (step noCrypto utcZone none) r₁.1
        [.popConnections 0, .closeSocket 0 0, .complete 0]).map fun r₂ =>
          (r₁.2 ++ r₂.2, (r₁.1.changes 0).map Change.what,
            decide (0 ∈ live r₁.1.connections samplePhone))) =
      some ([.handled 0 (some samplePhone) 0, .committed .rotation samplePhone 5,
        .completed .rotation samplePhone 5], some (.rotation, samplePhone, 5), true) := by
    decide +kernel
  obtain ⟨⟨s₁, es₁⟩, hs₁, hrest⟩ := Option.bind_eq_some_iff.1 hrun
  obtain ⟨⟨s₂, es₂⟩, hs₂, hobs⟩ := Option.map_eq_some_iff.1 hrest
  simp only [Prod.mk.injEq, decide_eq_true_eq] at hobs
  obtain ⟨hes, hchange, hlive⟩ := hobs
  have hpop : RegisteredInTime s₁ es₁ (.popConnections 0) := by
    intro c t hj i e he _
    rw [hj] at hchange
    simp only [Option.map_some, Change.what, Option.some.injEq, Prod.mk.injEq] at hchange
    obtain ⟨-, rfl, -⟩ := hchange
    by_cases hi : i = 0
    · exact hi ▸ hlive
    · rw [endpoints_eq_none_of_run hs₁ rfl (by simp [beforePop, connectPhone, hi])] at he
      cases he
  have hbefore : Machine.Allowed (step noCrypto utcZone none) RegisteredInTime
      (System.initial sampleStore) [] beforePop := by
    repeat' first | exact trivial | refine ⟨trivial, fun _ _ _ => ?_⟩
  have hafter : Machine.Allowed (step noCrypto utcZone none) RegisteredInTime s₁ es₁
      [.popConnections 0, .closeSocket 0 0, .complete 0] :=
    ⟨hpop, fun _ _ _ => ⟨trivial, fun _ _ _ => ⟨trivial, fun _ _ _ => trivial⟩⟩⟩
  have hreach := (Machine.reaches_of_run hbefore hs₁).run hafter hs₂
  exact ⟨s₂, _, hreach, hes, rotation_closes hreach⟩

end Runs

end GoffyHub.LiveAccess
