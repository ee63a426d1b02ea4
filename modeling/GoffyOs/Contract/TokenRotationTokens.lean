import GoffyOs.Contract.TokenRotation
import GoffyOs.Phone.HubLinkShown

/-!
# The tokens of a rotation

A rotation that the Hub has carried out leaves the phone with a token that the Hub no longer takes, until
its coroutine has saved the new one or cleared the store. `LinkedInv` is the invariant of these runs: the
token that is stored is accepted, and no request on its way can change that, unless a coroutine is still
going to write or clear the store.

* `Undisturbed` is what the steps have to meet: a rotation whose request was sent is not cancelled by
  `configureHub`, a rotation or a forgetting can clear the store, and no clean-up fails beside a
  coroutine that is shown;
* `Tokens` says which tokens the Hub accepts. One that was generated for a coroutine is accepted until
  it is written, since nobody can present it (`Unsaved`, `Exposed`);
* the calls keep the invariant.
-/

namespace GoffyPhone.HubLink

open Kotlin
open Python (UUID NaiveDateTime DateTime Exn Fault)
open GoffyHub.Credentials (CredentialTable IssueArgs authenticate tokenDigest lastToken generatedTokens
  issuedIds)
open Machine
open HubLink.GoffyViewModel

/-! ### Requests and their end -/

/-- A rotation was asked for, and the store was neither written nor cleared since. -/
def unsettledAfter (unsettled : Bool) : LinkEvent → Bool
  | .sent request => unsettled || request.kind = .rotateSelf
  | .link e => unsettled && !e.isStore
  | .hub _ => unsettled

def unsettled (es : List LinkEvent) : Bool := es.foldl unsettledAfter false

theorem unsettled_append (es out : List LinkEvent) :
    unsettled (es ++ out) = out.foldl unsettledAfter (unsettled es) := List.foldl_append

theorem foldl_link (b : Bool) (out : List Event) (h : ∀ e ∈ out, e.isStore = false) :
    (out.map LinkEvent.link).foldl unsettledAfter b = b := by
  induction out with
  | nil => rfl
  | cons e out ih =>
    have he := h e List.mem_cons_self
    simp only [List.map_cons, List.foldl_cons, unsettledAfter, he, Bool.not_false, Bool.and_true]
    exact ih fun e' he' => h e' (List.mem_cons_of_mem _ he')

theorem foldl_hub (b : Bool) (out : List GoffyHub.Credentials.Event) :
    (out.map LinkEvent.hub).foldl unsettledAfter b = b := by
  induction out with
  | nil => rfl
  | cons e out ih => exact ih

/-- The coroutine will write the store or clear it. -/
def Closes : LinkTask → LinkPoint → Bool
  | .rotateHubCredential _ _ _, .rotateSelf | .rotateHubCredential _ _ _, .save _
  | .rotateHubCredential _ _ _, .saved none | .rotateHubCredential _ _ _, .clear _
  | .forgetHub _ _, .join | .forgetHub _ _, .clear _ => true
  | _, _ => false

/-! ### The steps -/

def LinkPoint.isClear : LinkPoint → Bool
  | .clear _ => true
  | _ => false

/-- A rotation that fails and a forgetting clear the store of a token that is not accepted any more. -/
def LinkTask.spendsToken : LinkTask → Bool
  | .rotateHubCredential _ _ _ | .forgetHub _ _ => true
  | _ => false

/-- The store can be cleared. -/
def Clears (vm : GoffyViewModel) (j : ℕ) (outcome : Outcome) : Prop :=
  ∀ job ∈ vm.jobs.get j, job.task.spendsToken = true → job.point.isClear = true → outcome ≠ .failed false

instance (vm : GoffyViewModel) (j : ℕ) (outcome : Outcome) : Decidable (Clears vm j outcome) :=
  inferInstanceAs (Decidable (∀ job ∈ vm.jobs.get j, _))

/-- What the steps meet. The tokens that the Hub generates are new and belong to `T`. -/
def Undisturbed (T : Set Python.Str) (s : LinkedHub) (es : List LinkEvent) : LinkAction → Prop
  | .phone (.configureHub allowed _) => allowed = true → unsettled es = false
  | .phone (.resume j outcome) => Clears s.phone j outcome ∧ EndsAlone s.phone j
  | .phone _ => True
  | .issues _ args accessToken credentialId now fault =>
    GoffyHub.Credentials.Fresh T s.table s.changes (.issue args accessToken credentialId now fault)
  | .rotates _ accessToken _ _ =>
    accessToken ∉ generatedTokens s.changes ∧ accessToken ∈ T ∧ accessToken.length ≤ 512
  | .revokes _ _ _ => True

instance (T : Set Python.Str) [DecidablePred (· ∈ T)] (s : LinkedHub) (es : List LinkEvent) :
    DecidablePred (Undisturbed T s es) := fun a =>
  match a with
  | .phone (.configureHub allowed _) =>
    inferInstanceAs (Decidable (allowed = true → unsettled es = false))
  | .phone (.resume j outcome) =>
    inferInstanceAs (Decidable (Clears s.phone j outcome ∧ EndsAlone s.phone j))
  | .phone (.pairHub _) | .phone .forgetHub | .phone .rotateHubCredential
  | .phone .cancelForegroundPairing | .phone (.abort _) | .revokes _ _ _ => isTrue trivial
  | .issues _ _ accessToken credentialId _ _ => inferInstanceAs (Decidable (credentialId ∉
      issuedIds s.changes ∧ accessToken ∉ generatedTokens s.changes ∧ accessToken ∈ T ∧
        accessToken.length ≤ 512))
  | .rotates _ accessToken _ _ => inferInstanceAs (Decidable (accessToken ∉
      generatedTokens s.changes ∧ accessToken ∈ T ∧ accessToken.length ≤ 512))

/-- A phone that is started, and a Hub that accepts the stored token. -/
structure Starts (zone : NaiveDateTime → Except Exn ℤ) (T : Set Python.Str) (s : LinkedHub) : Prop where
  phone : ∃ defaultEndpoint deviceId store approvalKey,
    s.phone = .initial defaultEndpoint deviceId store approvalKey
  hub : Reaches (GoffyHub.Credentials.step zone) (GoffyHub.Credentials.Fresh T) CredentialTable.empty
    s.table s.changes
  accepted : ∀ c, s.phone.store = some c → lastToken s.changes c.credentialId = some (bearer c.accessToken) ∧
    .revoked c.credentialId ∉ s.changes
  requests : s.requests = []
  answers : ∀ j, s.answers j = none

/-! ### The tokens -/

/-- The Hub takes this token for this credential. -/
def Accepted (changes : List GoffyHub.Credentials.Event) (id : UUID) (t : Python.Str) : Prop :=
  lastToken changes id = some t ∧ .revoked id ∉ changes

namespace LinkedHub

/-- The phone has used this token, or may come to use it without asking the Hub. -/
def Exposed (s : LinkedHub) (t : Python.Str) : Prop :=
  (∃ u, Exposes s.phone u ∧ t = bearer u) ∨ ∃ r ∈ s.requests, t = bearer r.token

/-- A token that the Hub has generated for a coroutine which has not written it. -/
inductive Unsaved (s : LinkedHub) (j : ℕ) : UUID → Python.Str → Prop
  | candidate {job : Job LinkTask LinkPoint} {c : StoredHubCredential}
      (hget : s.phone.jobs.get j = some job) (h : job.point.candidate = some c) :
      Unsaved s j c.credentialId (bearer c.accessToken)
  | answer {job : Job LinkTask LinkPoint} {a : Answer} (hget : s.phone.jobs.get j = some job)
      (hawaits : job.point.awaits = true) (h : s.answers j = some a) :
      Unsaved s j a.credentialId a.accessToken

/-- A request on its way, or one that a coroutine is about to send after it has cleared the store, may
rotate or revoke this token. -/
inductive Spent (s : LinkedHub) : Python.Str → Prop
  | sent {r : Request} (h : r ∈ s.requests) : Spent s (bearer r.token)
  | forgotten {j : ℕ} {job : Job LinkTask LinkPoint} {previous : Option ℕ} {config : HubConfig}
      {id : UUID} (hget : s.phone.jobs.get j = some job)
      (htask : job.task = .forgetHub previous (some (config, id)))
      (hpoint : job.point.isCleared = true) : Spent s (bearer config.bearerToken)

theorem Spent.exposed {s : LinkedHub} {t : Python.Str} (h : s.Spent t) : s.Exposed t := by
  cases h with
  | sent h => exact Or.inr ⟨_, h, rfl⟩
  | forgotten hget htask =>
    refine Or.inl ⟨_, .captured (Jobs.task_eq_some hget) ?_, rfl⟩
    rw [htask]
    rfl

/-- What the phone and the Hub know of the tokens. -/
structure Tokens (T : Set Python.Str) (s : LinkedHub) : Prop where
  valid : GoffyHub.Credentials.Valid T s.table s.changes
  mem : ∀ t ∈ generatedTokens s.changes, t ∈ T
  known : ∀ t, s.Exposed t → t ∈ generatedTokens s.changes
  accepted : ∀ j id t, s.Unsaved j id t → Accepted s.changes id t
  apart : ∀ j id t, s.Unsaved j id t → ¬ s.Exposed t
  distinct : ∀ i j id id' t, s.Unsaved i id t → s.Unsaved j id' t → i = j
  requests_lt : ∀ r ∈ s.requests, r.job < s.phone.jobs.next
  answers_lt : ∀ j a, s.answers j = some a → j < s.phone.jobs.next

end LinkedHub

/-- The stored token is accepted and stays so, or a coroutine will see to it. -/
structure LinkedInv (T : Set Python.Str) (s : LinkedHub) (es : List LinkEvent) : Prop where
  showing : Showing s.phone
  tokens : s.Tokens T
  settled : unsettled es = false → ∀ c, s.phone.store = some c →
    Accepted s.changes c.credentialId (bearer c.accessToken) ∧ ¬ s.Spent (bearer c.accessToken)
  pending : unsettled es = true → ∃ j job, s.phone.jobs.get j = some job ∧ job.cancelled = false ∧
    Closes job.task job.point = true

/-! ### A step of the phone and the tokens -/

/-- What a step of the phone may do to the tokens. -/
structure PhoneKeeps (s s' : LinkedHub) : Prop where
  table : s'.table = s.table
  changes : s'.changes = s.changes
  answers : s'.answers = s.answers
  next : s.phone.jobs.next ≤ s'.phone.jobs.next
  requests : ∀ r ∈ s'.requests, r ∈ s.requests ∨ r.job < s'.phone.jobs.next
  unsaved : ∀ j id t, s'.Unsaved j id t → s.Unsaved j id t
  exposed : ∀ t, s'.Exposed t → s.Exposed t ∨ ∃ j id, s.Unsaved j id t ∧ ∀ id', ¬ s'.Unsaved j id' t

open LinkedHub

theorem LinkedHub.Tokens.phone {T : Set Python.Str} {s s' : LinkedHub} (h : s.Tokens T)
    (hk : PhoneKeeps s s') : s'.Tokens T where
  valid := by
    rw [hk.table, hk.changes]
    exact h.valid
  mem := hk.changes ▸ h.mem
  known t ht := by
    rw [hk.changes]
    rcases hk.exposed t ht with ht | ⟨j, id, hj, -⟩
    · exact h.known t ht
    · exact (h.valid.tokens.last_issued _ _ (h.accepted j id t hj).1).2
  accepted j id t hj := by
    rw [hk.changes]
    exact h.accepted j id t (hk.unsaved j id t hj)
  apart j id t hj ht := by
    -- a token that was just exposed belonged to one job, which has it no longer
    rcases hk.exposed t ht with ht | ⟨i, id', hi, hnot⟩
    · exact h.apart j id t (hk.unsaved j id t hj) ht
    · obtain rfl := h.distinct i j id' id t hi (hk.unsaved j id t hj)
      exact hnot id hj
  distinct i j id id' t hi hj := h.distinct i j id id' t (hk.unsaved i id t hi) (hk.unsaved j id' t hj)
  requests_lt r hr := (hk.requests r hr).elim (fun hr => (h.requests_lt r hr).trans_le hk.next) id
  answers_lt j a ha := (h.answers_lt j a (hk.answers ▸ ha)).trans_le hk.next

/-- What a call, or the end of a cancelled coroutine, does to the jobs and to the link. -/
structure Quiet (vm vm' : GoffyViewModel) : Prop where
  next : vm.jobs.next ≤ vm'.jobs.next
  jobs : ∀ i job', vm'.jobs.get i = some job' →
    (∃ job, vm.jobs.get i = some job ∧ job'.task = job.task ∧ job'.point = job.point) ∨
      i = vm.jobs.next ∧ job'.point.candidate = none ∧ job'.point.read = none ∧
        job'.point.isCleared = false ∧ ∀ config, job'.task.config = some config →
          Exposes vm config.bearerToken
  store : vm'.store = vm.store
  link : vm'.uiState.hubLinkState = .paired →
    vm.uiState.hubLinkState = .paired ∧ vm'.hubConfig = vm.hubConfig

section Quiet

variable {vm vm' : GoffyViewModel} {T : Set Python.Str} {s : LinkedHub} {es : List LinkEvent}

theorem Quiet.exposes (h : Quiet vm vm') {u : Str} (hu : Exposes vm' u) : Exposes vm u := by
  cases hu with
  | store hc => exact .store (h.store ▸ hc)
  | link hstate hc =>
    obtain ⟨hpaired, hconfig⟩ := h.link hstate
    exact .link hpaired (hconfig ▸ hc)
  | captured htask hc =>
    obtain ⟨job', hget, rfl⟩ := Option.map_eq_some_iff.1 htask
    rcases h.jobs _ _ hget with ⟨job, hold, htask, -⟩ | ⟨-, -, -, -, hnew⟩
    · exact .captured (Jobs.task_eq_some hold) (htask ▸ hc)
    · exact hnew _ hc
  | read hget hc =>
    rcases h.jobs _ _ hget with ⟨job, hold, -, hpoint⟩ | ⟨-, -, hread, -⟩
    · exact .read hold (hpoint ▸ hc)
    · rw [hread] at hc
      cases hc

/-- Nothing is sent by a call. -/
theorem Quiet.keeps (h : Quiet s.phone vm') (ht : s.Tokens T) : PhoneKeeps s { s with phone := vm' } where
  table := rfl
  changes := rfl
  answers := rfl
  next := h.next
  requests _ hr := Or.inl hr
  unsaved j id t hj := by
    cases hj with
    | candidate hget hc =>
      rcases h.jobs _ _ hget with ⟨job, hold, -, hpoint⟩ | ⟨-, hnew, -⟩
      · exact .candidate hold (hpoint ▸ hc)
      · rw [hnew] at hc
        cases hc
    | answer hget hawaits ha =>
      -- nobody has answered a job that was not there
      rcases h.jobs _ _ hget with ⟨job, hold, -, hpoint⟩ | ⟨rfl, -⟩
      · exact .answer hold (hpoint ▸ hawaits) ha
      · exact absurd (ht.answers_lt _ _ ha) (lt_irrefl _)
  exposed t hexposed := by
    refine Or.inl ?_
    rcases hexposed with ⟨u, hu, rfl⟩ | hr
    · exact Or.inl ⟨u, h.exposes hu, rfl⟩
    · exact Or.inr hr

theorem Quiet.spent (h : Quiet s.phone vm') {t : Python.Str}
    (ht : LinkedHub.Spent { s with phone := vm' } t) : s.Spent t := by
  cases ht with
  | sent hr => exact .sent hr
  | forgotten hget htask hpoint =>
    rcases h.jobs _ _ hget with ⟨job, hold, htask', hpoint'⟩ | ⟨-, -, -, hnew, -⟩
    · exact .forgotten hold (htask' ▸ htask) (hpoint' ▸ hpoint)
    · rw [hnew] at hpoint
      cases hpoint

/-- A call that leaves the store to the coroutine that sees to it, or to another one. -/
theorem LinkedInv.quiet (h : LinkedInv T s es) (hq : Quiet s.phone vm') (hshowing : Showing vm')
    (hpending : unsettled es = true → ∃ j job, vm'.jobs.get j = some job ∧ job.cancelled = false ∧
      Closes job.task job.point = true) : LinkedInv T { s with phone := vm' } es where
  showing := hshowing
  tokens := h.tokens.phone (hq.keeps h.tokens)
  settled hes c hc := by
    obtain ⟨haccepted, hspent⟩ := h.settled hes c (hq.store ▸ hc)
    exact ⟨haccepted, fun ht => hspent (hq.spent ht)⟩
  pending := hpending

theorem quiet_same (hjobs : vm'.jobs = vm.jobs) (hstore : vm'.store = vm.store)
    (hconfig : vm'.hubConfig = vm.hubConfig)
    (hstate : vm'.uiState.hubLinkState = vm.uiState.hubLinkState) : Quiet vm vm' where
  next := hjobs ▸ le_rfl
  jobs _ job' hi := Or.inl ⟨job', hjobs ▸ hi, rfl, rfl⟩
  store := hstore
  link hpaired := ⟨hstate ▸ hpaired, hconfig⟩

theorem quiet_cancel (o : Option ℕ) (hjobs : vm'.jobs = vm.jobs.cancel o) (hstore : vm'.store = vm.store)
    (hlink : vm'.uiState.hubLinkState = .paired →
      vm.uiState.hubLinkState = .paired ∧ vm'.hubConfig = vm.hubConfig) : Quiet vm vm' where
  next := by rw [hjobs, Jobs.cancel_next]
  jobs i job' hi := by
    rw [hjobs] at hi
    obtain ⟨job, hold, rfl⟩ := Jobs.cancel_get_eq_some_iff.1 hi
    refine Or.inl ⟨job, hold, ?_, ?_⟩ <;> split <;> rfl
  store := hstore
  link := hlink

/-- A call that launches a coroutine shows that no link is there. -/
theorem quiet_launch {o : Option ℕ} {task : LinkTask} {point : LinkPoint}
    (hjobs : vm'.jobs = (vm.jobs.cancel o).launch task point) (hstore : vm'.store = vm.store)
    (hstate : vm'.uiState.hubLinkState ≠ .paired) (hcandidate : point.candidate = none)
    (hread : point.read = none) (hcleared : point.isCleared = false)
    (htask : ∀ config, task.config = some config → Exposes vm config.bearerToken) : Quiet vm vm' where
  next := by rw [hjobs, Jobs.launch_next, Jobs.cancel_next]; exact Nat.le_succ _
  jobs i job' hi := by
    rw [hjobs] at hi
    rcases Jobs.launch_get_eq_some_iff.1 hi with ⟨rfl, rfl⟩ | hi
    · exact Or.inr ⟨Jobs.cancel_next o, hcandidate, hread, hcleared, htask⟩
    · obtain ⟨job, hold, rfl⟩ := Jobs.cancel_get_eq_some_iff.1 hi
      refine Or.inl ⟨job, hold, ?_, ?_⟩ <;> split <;> rfl
  store := hstore
  link hpaired := (hstate hpaired).elim

theorem quiet_finish (j : ℕ) : Quiet vm (vm.finish j) where
  next := le_rfl
  jobs _ job' hi := Or.inl ⟨job', (Jobs.finish_get_eq_some_iff.1 hi).2, rfl, rfl⟩
  store := rfl
  link hpaired := ⟨hpaired, rfl⟩

end Quiet

/-! ### The calls -/

section Calls

variable {T : Set Python.Str} {s : LinkedHub} {es : List LinkEvent}

theorem spendsToken_of_closes {task : LinkTask} {point : LinkPoint} (h : Closes task point = true) :
    task.spendsToken = true := by
  cases task <;> first | rfl | (cases point <;> cases h)

theorem shows_of_closes {task : LinkTask} {point : LinkPoint} (h : Closes task point = true) :
    task.shows ≠ none := by
  cases task <;> first | exact Option.some_ne_none _ | (cases point <;> cases h)

/-- Where no operation is in progress, nothing is pending. -/
theorem LinkedInv.settled_of_state (h : LinkedInv T s es)
    (hstate : s.phone.uiState.hubLinkState ≠ .loading ∧ s.phone.uiState.hubLinkState ≠ .forgetting ∧
      s.phone.uiState.hubLinkState ≠ .rotating) : unsettled es = false := by
  by_contra hne
  obtain ⟨j, job, hget, hrunning, hcloses⟩ := h.pending (by simpa using hne)
  exact shows_of_closes hcloses (h.showing.none_of_state hstate hget hrunning)

theorem LinkedInv.configureHub (h : LinkedInv T s es) {allowed : Bool} {config : Except Str HubConfig}
    (hok : allowed = true → unsettled es = false) :
    LinkedInv T { s with phone := s.phone.configureHub allowed config } es := by
  have hshowing := h.showing.configureHub allowed config
  unfold GoffyViewModel.configureHub at hshowing ⊢
  cases allowed with
  | false => exact h.quiet (quiet_same rfl rfl rfl rfl) hshowing h.pending
  | true =>
    -- it cancels the last job, which nothing depends on
    have hpending : unsettled es = true → ∀ p : Prop, p := fun hes => by
      rw [hok rfl] at hes
      cases hes
    cases config with
    | error message =>
      exact h.quiet (quiet_cancel s.phone.linkJob rfl rfl fun hpaired => ⟨hpaired, rfl⟩) hshowing
        fun hes => hpending hes _
    | ok config =>
      exact h.quiet (quiet_cancel s.phone.linkJob rfl rfl fun hpaired => by cases hpaired) hshowing
        fun hes => hpending hes _

theorem LinkedInv.pairHub (h : LinkedInv T s es) (endpoint : Except Str Str) :
    LinkedInv T { s with phone := s.phone.pairHub endpoint } es := by
  have hshowing := h.showing.pairHub endpoint
  unfold GoffyViewModel.pairHub at hshowing ⊢
  split at hshowing
  · rw [if_pos ‹_›]
    exact h
  rename_i hprogress
  rw [if_neg hprogress]
  split at hshowing
  · rw [if_pos ‹_›]
    exact h.quiet (quiet_same rfl rfl rfl rfl) hshowing h.pending
  rename_i hconfigured
  rw [if_neg hconfigured]
  cases endpoint with
  | error message => exact h.quiet (quiet_same rfl rfl rfl rfl) hshowing h.pending
  | ok url =>
    have hsettled := h.settled_of_state (by
      simp only [GoffyUiState.linkOperationInProgress, Bool.or_eq_true, decide_eq_true_eq] at hprogress
      tauto)
    refine h.quiet (quiet_launch (o := none) rfl rfl (fun hpaired => by cases hpaired) rfl rfl rfl
      fun config hconfig => by cases hconfig) hshowing fun hes => ?_
    rw [hsettled] at hes
    cases hes

theorem exposes_of_revocation {vm : GoffyViewModel} {r : HubConfig × UUID}
    (h : vm.revocation = some r) : Exposes vm r.1.bearerToken := by
  unfold GoffyViewModel.revocation at h
  split at h
  · rename_i hstate
    split at h
    · rename_i hconfig _
      obtain rfl := Option.some.inj h
      exact .link hstate hconfig
    · cases h
  · cases h

theorem exposes_of_rotation {vm : GoffyViewModel} {r : Rotation} (h : vm.rotation = some r) :
    vm.uiState.hubLinkState = .paired ∧ Exposes vm r.config.bearerToken := by
  unfold GoffyViewModel.rotation at h
  split at h
  · rename_i hstate
    split at h
    · rename_i hconfig _ _ _
      obtain rfl := Option.some.inj h
      exact ⟨hstate, .link hstate hconfig⟩
    · cases h
  · cases h

theorem LinkedInv.forgetHub (h : LinkedInv T s es) :
    LinkedInv T { s with phone := s.phone.forgetHub.1 } es := by
  refine h.quiet (quiet_launch (o := s.phone.linkJob) rfl rfl (fun hpaired => by cases hpaired) rfl rfl
    rfl fun config hconfig => ?_) h.showing.forgetHub fun _ => ?_
  · cases hrevocation : s.phone.revocation with
    | none => rw [hrevocation] at hconfig; cases hconfig
    | some r =>
      rw [hrevocation] at hconfig
      obtain rfl := Option.some.inj hconfig
      exact exposes_of_revocation hrevocation
  · exact ⟨_, _, Jobs.launch_get_eq_some_iff.2 (Or.inl ⟨rfl, rfl⟩), rfl, rfl⟩

theorem LinkedInv.rotateHubCredential (h : LinkedInv T s es) :
    LinkedInv T { s with phone := s.phone.rotateHubCredential } es := by
  have hshowing := h.showing.rotateHubCredential
  unfold GoffyViewModel.rotateHubCredential at hshowing ⊢
  split at hshowing
  · rw [if_pos ‹_›]
    exact h
  rename_i hprogress
  rw [if_neg hprogress]
  cases hrotation : s.phone.rotation with
  | none =>
    rw [hrotation] at hshowing
    exact h.quiet (quiet_same rfl rfl rfl rfl) hshowing h.pending
  | some r =>
    rw [hrotation] at hshowing
    obtain ⟨hstate, hexposes⟩ := exposes_of_rotation hrotation
    have hsettled := h.settled_of_state (by simp [hstate])
    refine h.quiet (quiet_launch (o := s.phone.linkJob) rfl rfl (fun hpaired => by cases hpaired) rfl rfl
      rfl fun config hconfig => ?_) hshowing fun hes => ?_
    · obtain rfl := Option.some.inj hconfig
      exact hexposes
    · rw [hsettled] at hes
      cases hes

theorem LinkedInv.cancelForegroundPairing (h : LinkedInv T s es) :
    LinkedInv T { s with phone := s.phone.cancelForegroundPairing } es := by
  have hshowing := h.showing.cancelForegroundPairing
  unfold GoffyViewModel.cancelForegroundPairing at hshowing ⊢
  split at hshowing
  · rw [if_pos ‹_›]
    exact h
  rename_i hpairing
  rw [if_neg hpairing]
  have hsettled := h.settled_of_state (by simp [not_not.1 hpairing])
  refine h.quiet (quiet_launch (o := s.phone.linkJob) rfl rfl (fun hpaired => by cases hpaired) rfl rfl
    rfl fun config hconfig => by cases hconfig) hshowing fun hes => ?_
  rw [hsettled] at hes
  cases hes

theorem LinkedInv.abort (h : LinkedInv T s es) {j : ℕ} {x : Job LinkTask LinkPoint}
    (hx : s.phone.jobs.get j = some x) (hcancelled : x.cancelled = true)
    (hshowing : Showing (s.phone.finish j)) : LinkedInv T { s with phone := s.phone.finish j } es := by
  refine h.quiet (quiet_finish j) hshowing fun hes => ?_
  -- the coroutine that sees to the store is not the cancelled one
  obtain ⟨i, job, hget, hrunning, hcloses⟩ := h.pending hes
  refine ⟨i, job, Jobs.finish_get_eq_some_iff.2 ⟨?_, hget⟩, hrunning, hcloses⟩
  rintro rfl
  obtain rfl := Option.some.inj (hget.symm.trans hx)
  rw [hcancelled] at hrunning
  cases hrunning

end Calls

end GoffyPhone.HubLink
