import GoffyOs.Contract.TokenRotationTokens

/-!
# Steps of the coroutines and of the Hub

The two kinds of steps that move tokens, and what they keep of `LinkedInv`.

* A coroutine that goes on may take an answer, write it, or send a request (`PhoneKeeps.resume`). One
  that was going to see to the store does so, or is still going to (`closes_of_resume`).
* The Hub gives a fresh token to one credential or revokes one (`HubKeeps`), and the token that this
  takes from the credential is the one of the request.
-/

namespace GoffyPhone.HubLink

open Kotlin
open Python (UUID NaiveDateTime DateTime Exn Fault)
open GoffyHub.Credentials (CredentialTable IssueArgs authenticate tokenDigest lastToken generatedTokens
  issuedIds)
open Machine
open LinkedHub
open HubLink.GoffyViewModel

/-! ### A coroutine goes on -/

section Resume

variable {T : Set Python.Str} {s : LinkedHub} {es : List LinkEvent} {vm vm' : GoffyViewModel} {j : ℕ}
  {x : Job LinkTask LinkPoint} {task : LinkTask} {point : LinkPoint} {outcome : Outcome}
  {out : List Event} {e : Event}

/-- What was sent just now, and by whom. -/
theorem mem_sends {r : Request} (h : r ∈ sends vm (.resume j outcome)) :
    ∃ job, vm.jobs.get j = some job ∧ r.job = j ∧
      ((∃ revision previous rot, job.task = .rotateHubCredential revision previous rot ∧
          job.point = .rotateSelf ∧ r.kind = .rotateSelf ∧ r.token = rot.config.bearerToken) ∨
        ∃ previous config id, job.task = .forgetHub previous (some (config, id)) ∧
          job.point.isCleared = true ∧ r.kind = .revokeSelf ∧ r.token = config.bearerToken) := by
  simp only [sends] at h
  split at h
  · rename_i hget
    rw [List.mem_singleton] at h
    subst h
    exact ⟨_, hget, rfl, Or.inl ⟨_, _, _, rfl, rfl, rfl, rfl⟩⟩
  · rename_i hget
    rw [List.mem_singleton] at h
    subst h
    exact ⟨_, hget, rfl, Or.inr ⟨_, _, _, rfl, rfl, rfl, rfl⟩⟩
  · cases h

/-- A job that has another point sends nothing. -/
theorem sends_eq_nil (h : ∀ job, vm.jobs.get j = some job →
    job.point.awaits = false ∧ ∀ b, job.point ≠ .revokeSelf b) :
    sends vm (.resume j outcome) = [] := by
  simp only [sends]
  split
  · rename_i hget
    cases (h _ hget).1
  · rename_i hget
    exact ((h _ hget).2 _ rfl).elim
  · rfl

theorem foldl_sent (b : Bool) (rs : List Request) :
    (rs.map LinkEvent.sent).foldl unsettledAfter b = (b || rs.any fun r => r.kind = .rotateSelf) := by
  induction rs generalizing b with
  | nil => simp
  | cons r rs ih => rw [List.map_cons, List.foldl_cons, ih, unsettledAfter, List.any_cons, Bool.or_assoc]

theorem isStore_of_clear {rejected : Option Str}
    (h : vm.clearLocalHubAuthority j (.clear rejected) outcome = some (vm', out))
    (hne : outcome ≠ .failed false) : ∃ e ∈ out, e.isStore = true := by
  cases outcome with
  | returned =>
    obtain ⟨-, rfl⟩ := Prod.mk.inj (Option.some.inj h)
    exact ⟨_, List.mem_singleton_self _, rfl⟩
  | failed partly =>
    cases partly with
    | true =>
      obtain ⟨-, rfl⟩ := Prod.mk.inj (Option.some.inj h)
      exact ⟨_, List.mem_singleton_self _, rfl⟩
    | false => exact (hne rfl).elim
  | _ => cases h

/-- A coroutine that was going to write or clear the store does so, or is still going to. -/
theorem closes_of_resume (h : vm.resume j point outcome task = some (vm', out))
    (hcloses : Closes task point = true) (hcurrent : ∀ r, task.revision = some r → r = vm.linkRevision)
    (hclears : ∀ rejected, point = .clear rejected → outcome ≠ .failed false) :
    (∃ e ∈ out, e.isStore = true) ∨ ∃ p, vm'.jobs = vm.jobs.move j p ∧ Closes task p = true := by
  cases task with
  | rotateHubCredential revision previous r =>
    -- a current rotation clears the store when it fails
    have hfailed : (vm.rotationFailed j revision).jobs = vm.jobs.move j (.clear none) := by
      rw [rotationFailed, if_pos (hcurrent revision rfl)]
      rfl
    cases point with
    | rotateSelf =>
      refine Or.inr ?_
      cases outcome with
      | rotated rotated =>
        obtain ⟨rfl, -⟩ := Prod.mk.inj (Option.some.inj h)
        unfold rotateIssued
        split
        · exact ⟨_, rfl, rfl⟩
        · exact ⟨_, hfailed, rfl⟩
      | rejected message | failed partly =>
        obtain ⟨rfl, -⟩ := Prod.mk.inj (Option.some.inj h)
        exact ⟨_, hfailed, rfl⟩
      | _ => cases h
    | save c =>
      cases outcome with
      | returned =>
        obtain ⟨-, rfl⟩ := Prod.mk.inj (Option.some.inj h)
        exact Or.inl ⟨_, List.mem_singleton_self _, rfl⟩
      | failed partly =>
        obtain ⟨rfl, -⟩ := Prod.mk.inj (Option.some.inj h)
        exact Or.inr ⟨_, rfl, rfl⟩
      | _ => cases h
    | saved persisted =>
      cases persisted with
      | none =>
        cases outcome with
        | returned =>
          obtain ⟨rfl, -⟩ := Prod.mk.inj (Option.some.inj h)
          exact Or.inr ⟨_, hfailed, rfl⟩
        | _ => cases h
      | some c => cases hcloses
    | clear rejected => exact Or.inl (isStore_of_clear h (hclears rejected rfl))
    | _ => cases hcloses
  | forgetHub previous revocation =>
    cases point with
    | join =>
      cases outcome with
      | returned =>
        simp only [resume, resumeForget] at h
        split at h
        · obtain ⟨rfl, -⟩ := Prod.mk.inj (Option.some.inj h)
          exact Or.inr ⟨_, rfl, rfl⟩
        · cases h
      | _ => cases h
    | clear rejected => exact Or.inl (isStore_of_clear h (hclears rejected rfl))
    | _ => cases hcloses
  | _ => cases hcloses

/-- What its new point says of the coroutine that goes on. -/
structure GoesTo (vm : GoffyViewModel) (x : Job LinkTask LinkPoint) (outcome : Outcome)
    (job : Job LinkTask LinkPoint) : Prop where
  task : job.task = x.task
  cancelled : job.cancelled = x.cancelled
  candidate : ∀ c, job.point.candidate = some c → x.point.awaits = true ∧ Takes x.task c outcome
  awaits : job.point.awaits = true → x.point.awaits = true
  read : ∀ c, job.point.read = some c →
    vm.store = some c ∨ x.point.candidate = some c ∧ job.point = .saved (some c)

theorem Flow.jobs_eq (h : Flow vm j task point outcome vm' out) :
    (∃ p, vm'.jobs = vm.jobs.move j p) ∨ vm'.jobs = vm.jobs.finish j := by
  cases h with
  | ends jobs => exact Or.inr jobs
  | moves jobs | takes jobs | saves _ jobs | clears _ jobs | keeps _ _ jobs => exact Or.inl ⟨_, jobs⟩

theorem Flow.next (h : Flow vm j task point outcome vm' out) : vm'.jobs.next = vm.jobs.next := by
  rcases h.jobs_eq with ⟨p, hjobs⟩ | hjobs <;> rw [hjobs] <;> rfl

theorem Flow.task_of (h : Flow vm j task point outcome vm' out) {i : ℕ} {task' : LinkTask}
    (hi : vm'.jobs.task i = some task') : vm.jobs.task i = some task' := by
  rcases h.jobs_eq with ⟨p, hjobs⟩ | hjobs
  · rwa [hjobs, Jobs.task_move] at hi
  · rw [hjobs] at hi
    exact (Jobs.task_finish_eq_some_iff.1 hi).2

/-- The others stay where they are. -/
theorem Flow.get_iff (h : Flow vm j task point outcome vm' out) (hx : vm.jobs.get j = some x) {i : ℕ}
    {job : Job LinkTask LinkPoint} (hne : i ≠ j) :
    vm'.jobs.get i = some job ↔ vm.jobs.get i = some job := by
  rcases h.jobs_eq with ⟨p, hjobs⟩ | hjobs
  · rw [hjobs, Jobs.move_get_eq_some_iff hx]
    simp [hne]
  · rw [hjobs, Jobs.finish_get_eq_some_iff]
    simp [hne]

theorem Flow.goesTo (h : Flow vm j x.task x.point outcome vm' out) (hx : vm.jobs.get j = some x)
    {job : Job LinkTask LinkPoint} (hi : vm'.jobs.get j = some job) : GoesTo vm x outcome job := by
  have hmove {p : LinkPoint} (hjobs : vm'.jobs = vm.jobs.move j p) : job = { x with point := p } := by
    rw [hjobs] at hi
    rcases (Jobs.move_get_eq_some_iff hx).1 hi with ⟨-, hjob⟩ | ⟨hne, -⟩
    · exact hjob
    · exact (hne rfl).elim
  cases h with
  | moves jobs candidate awaits read =>
    obtain rfl := hmove jobs
    refine ⟨rfl, rfl, fun c hc => ?_, awaits, fun c hc => Or.inl (read c hc)⟩
    rw [candidate] at hc
    cases hc
  | takes jobs awaits takes =>
    obtain rfl := hmove jobs
    refine ⟨rfl, rfl, fun c hc => ?_, nofun, nofun⟩
    obtain rfl := Option.some.inj hc
    exact ⟨awaits, takes⟩
  | saves candidate jobs =>
    obtain rfl := hmove jobs
    refine ⟨rfl, rfl, nofun, nofun, fun c hc => ?_⟩
    obtain rfl := Option.some.inj hc
    exact Or.inr ⟨candidate, rfl⟩
  | clears _ jobs | keeps _ _ jobs =>
    obtain rfl := hmove jobs
    exact ⟨rfl, rfl, nofun, nofun, nofun⟩
  | ends jobs =>
    rw [jobs] at hi
    exact ((Jobs.finish_get_eq_some_iff.1 hi).1 rfl).elim

/-- The store holds what it held, nothing, or the candidate. -/
theorem Flow.store_eq (h : Flow vm j task point outcome vm' out) {c : StoredHubCredential}
    (hc : vm'.store = some c) : vm.store = some c ∨ point.candidate = some c ∧
      vm'.jobs = vm.jobs.move j (.saved (some c)) := by
  cases h with
  | moves _ _ _ _ _ store =>
    rcases store with store | store
    · exact Or.inl (store ▸ hc)
    · rw [store] at hc
      cases hc
  | takes _ _ _ store | keeps _ _ _ store | ends _ store => exact Or.inl (store ▸ hc)
  | saves candidate jobs store =>
    rw [store] at hc
    obtain rfl := Option.some.inj hc
    exact Or.inr ⟨candidate, jobs⟩
  | clears _ _ store =>
    rw [store] at hc
    cases hc

theorem Flow.link_eq (h : Flow vm j task point outcome vm' out) {config : HubConfig}
    (hstate : vm'.uiState.hubLinkState = .paired) (hconfig : vm'.hubConfig = some config) :
    vm.uiState.hubLinkState = .paired ∧ vm.hubConfig = some config ∨
      ∃ c, point.read = some c ∧ config = c.toHubConfig := by
  cases h with
  | moves _ _ _ _ _ _ ui config' =>
    rcases config' with config' | config'
    · exact Or.inl ⟨ui ▸ hstate, config' ▸ hconfig⟩
    · rw [config'] at hconfig
      cases hconfig
  | takes _ _ _ _ ui config' | saves _ _ _ ui config' | clears _ _ _ ui config'
  | keeps _ _ _ _ ui config' => exact Or.inl ⟨ui ▸ hstate, config' ▸ hconfig⟩
  | ends _ _ link =>
    rcases link hstate with ⟨hpaired, hsame⟩ | ⟨c, hread, hnew⟩
    · exact Or.inl ⟨hpaired, hsame ▸ hconfig⟩
    · exact Or.inr ⟨c, hread, Option.some.inj (hconfig.symm.trans hnew)⟩

/-- What the coroutine is told is what the Hub has answered to it. -/
theorem unsaved_of_takes (hx : s.phone.jobs.get j = some x) (hawaits : x.point.awaits = true)
    (hanswers : s.Answers j outcome = true) {c : StoredHubCredential} (h : Takes x.task c outcome) :
    s.Unsaved j c.credentialId (bearer c.accessToken) := by
  cases outcome with
  | issued issued =>
    obtain ⟨a, ha, hok⟩ := (Option.any_eq_true _ _).1 hanswers
    simp only [decide_eq_true_eq] at hok
    obtain ⟨hid, htoken⟩ := h
    rw [hid, htoken, hok.1, hok.2.1, bearer, encodedChars_ofChars]
    exact .answer hx hawaits ha
  | rotated rotated =>
    obtain ⟨a, ha, hok⟩ := (Option.any_eq_true _ _).1 hanswers
    simp only [decide_eq_true_eq] at hok
    obtain ⟨hid, htoken⟩ := h
    rw [Jobs.task_eq_some hx, Option.bind_some, hid] at hok
    rw [Option.some.inj hok.2.2, htoken, hok.1, bearer, encodedChars_ofChars]
    exact .answer hx hawaits ha
  | _ => cases h

/-- What a coroutine does to the tokens by going on. -/
theorem PhoneKeeps.resume (hx : s.phone.jobs.get j = some x)
    (hanswers : s.Answers j outcome = true) (hflow : Flow s.phone j x.task x.point outcome vm' out) :
    PhoneKeeps s { s with phone := vm', requests := s.requests ++ sends vm' (.resume j outcome) } where
  table := rfl
  changes := rfl
  answers := rfl
  next := hflow.next.ge
  requests r hr := by
    rcases List.mem_append.1 hr with hr | hr
    · exact Or.inl hr
    · obtain ⟨job, hget, hjob, -⟩ := mem_sends hr
      refine Or.inr ?_
      rw [hjob]
      exact Jobs.lt_next hget
  unsaved i id t hi := by
    cases hi with
    | candidate hget hc =>
      by_cases hij : i = j
      · subst hij
        obtain ⟨hawaits, htakes⟩ := (hflow.goesTo hx hget).candidate _ hc
        exact unsaved_of_takes hx hawaits hanswers htakes
      · exact .candidate ((hflow.get_iff hx hij).1 hget) hc
    | answer hget hawaits ha =>
      by_cases hij : i = j
      · subst hij
        exact .answer hx ((hflow.goesTo hx hget).awaits hawaits) ha
      · exact .answer ((hflow.get_iff hx hij).1 hget) hawaits ha
  exposed t hexposed := by
    -- a candidate that was written is no longer unsaved
    have hsaved {c : StoredHubCredential} (hc : x.point.candidate = some c)
        (hjobs : ∀ job, vm'.jobs.get j = some job → job.point = .saved (some c)) :
        ∃ i id, s.Unsaved i id (bearer c.accessToken) ∧ ∀ id', ¬ LinkedHub.Unsaved { s with
          phone := vm', requests := s.requests ++ sends vm' (.resume j outcome) } i id'
            (bearer c.accessToken) := by
      refine ⟨j, c.credentialId, .candidate hx hc, fun id' hunsaved => ?_⟩
      generalize bearer c.accessToken = u at hunsaved
      cases hunsaved with
      | candidate hget hcandidate => rw [hjobs _ hget] at hcandidate; cases hcandidate
      | answer hget hawaits => rw [hjobs _ hget] at hawaits; cases hawaits
    rcases hexposed with ⟨u, hu, rfl⟩ | ⟨r, hr, rfl⟩
    · cases hu with
      | store hc =>
        rcases hflow.store_eq hc with hc | ⟨hc, hjobs⟩
        · exact Or.inl (Or.inl ⟨_, .store hc, rfl⟩)
        · refine Or.inr (hsaved hc fun job hget => ?_)
          change vm'.jobs.get j = some job at hget
          rw [hjobs] at hget
          rcases (Jobs.move_get_eq_some_iff hx).1 hget with ⟨-, rfl⟩ | ⟨hne, -⟩
          · rfl
          · exact (hne rfl).elim
      | link hstate hconfig =>
        rcases hflow.link_eq hstate hconfig with ⟨hstate, hconfig⟩ | ⟨c, hread, rfl⟩
        · exact Or.inl (Or.inl ⟨_, .link hstate hconfig, rfl⟩)
        · exact Or.inl (Or.inl ⟨_, .read hx hread, rfl⟩)
      | captured htask hconfig => exact Or.inl (Or.inl ⟨_, .captured (hflow.task_of htask) hconfig, rfl⟩)
      | @read i job c hget hread =>
        by_cases hij : i = j
        · subst hij
          rcases (hflow.goesTo hx hget).read _ hread with hc | ⟨hc, hpoint⟩
          · exact Or.inl (Or.inl ⟨_, .store hc, rfl⟩)
          · refine Or.inr (hsaved hc fun job' hget' => ?_)
            obtain rfl := Option.some.inj (hget'.symm.trans hget)
            exact hpoint
        · exact Or.inl (Or.inl ⟨_, .read ((hflow.get_iff hx hij).1 hget) hread, rfl⟩)
    · rcases List.mem_append.1 hr with hr | hr
      · exact Or.inl (Or.inr ⟨r, hr, rfl⟩)
      · obtain ⟨job, hget, -, hsent⟩ := mem_sends hr
        have htask := hflow.task_of (Jobs.task_eq_some hget)
        rcases hsent with ⟨_, _, rot, hjob, -, -, htoken⟩ | ⟨_, config, _, hjob, -, -, htoken⟩ <;>
          rw [htoken] <;> rw [hjob] at htask <;> exact Or.inl (Or.inl ⟨_, .captured htask rfl, rfl⟩)

/-- A token that a coroutine has cleared the store of stays spent, and no other one becomes so. -/
theorem spent_of_resume (hx : s.phone.jobs.get j = some x)
    (hflow : Flow s.phone j x.task x.point outcome vm' out)
    (hsent : ∀ r ∈ sends vm' (.resume j outcome), r.kind = .revokeSelf)
    (hcleared : x.task.spendsToken = true → ∀ job, vm'.jobs.get j = some job →
      job.point.isCleared = true → x.point.isCleared = true) {t : Python.Str}
    (h : LinkedHub.Spent { s with
      phone := vm', requests := s.requests ++ sends vm' (.resume j outcome) } t) : s.Spent t := by
  have hforgotten {i : ℕ} {job : Job LinkTask LinkPoint} {previous : Option ℕ} {config : HubConfig}
      {id : UUID} (hget : vm'.jobs.get i = some job)
      (htask : job.task = .forgetHub previous (some (config, id))) (hpoint : job.point.isCleared = true) :
      s.Spent (bearer config.bearerToken) := by
    by_cases hij : i = j
    · subst hij
      have htask' : x.task = .forgetHub previous (some (config, id)) :=
        (hflow.goesTo hx hget).task ▸ htask
      exact .forgotten hx htask' (hcleared (by rw [htask']; rfl) job hget hpoint)
    · exact .forgotten ((hflow.get_iff hx hij).1 hget) htask hpoint
  cases h with
  | sent hr =>
    rcases List.mem_append.1 hr with hr | hr
    · exact .sent hr
    · obtain ⟨job, hget, -, hkind⟩ := mem_sends hr
      rcases hkind with ⟨_, _, _, -, -, hkind, -⟩ | ⟨previous, config, id, htask, hpoint, -, htoken⟩
      · rw [hsent _ hr] at hkind
        cases hkind
      · rw [htoken]
        exact hforgotten hget htask hpoint
  | forgotten hget htask hpoint => exact hforgotten hget htask hpoint

theorem isBlocking_of_awaits {p : LinkPoint} (h : p.awaits = true) : p.isBlocking = false := by
  cases p <;> first | rfl | cases h

theorem unsettled_resume (es : List LinkEvent) (out : List Event) (rs : List Request)
    (hout : ∀ e ∈ out, e.isStore = false) :
    unsettled (es ++ (out.map .link ++ rs.map .sent)) =
      (unsettled es || rs.any fun r => r.kind = .rotateSelf) := by
  rw [unsettled_append, List.foldl_append, foldl_link _ _ hout, foldl_sent]

/-- Where nothing happened to the store. -/
theorem LinkedInv.resume_same (h : LinkedInv T s es) (hshowing : Showing vm')
    (hx : s.phone.jobs.get j = some x) (hanswers : s.Answers j outcome = true)
    (hblocks : x.cancelled = true → x.point.isBlocking = true)
    (hflow : Flow s.phone j x.task x.point outcome vm' out)
    (hstore : ∀ c, vm'.store = some c → s.phone.store = some c)
    (hquiet : ∀ e ∈ out, e.isStore = false)
    (hcleared : x.task.spendsToken = true → ∀ job, vm'.jobs.get j = some job →
      job.point.isCleared = true → x.point.isCleared = true)
    (hcloses : Closes x.task x.point = true → x.cancelled = false →
      ∃ p, vm'.jobs = s.phone.jobs.move j p ∧ Closes x.task p = true) :
    LinkedInv T { s with phone := vm', requests := s.requests ++ sends vm' (.resume j outcome) }
      (es ++ (out.map .link ++ (sends vm' (.resume j outcome)).map .sent)) where
  showing := hshowing
  tokens := h.tokens.phone (.resume hx hanswers hflow)
  settled hes c hc := by
    rw [unsettled_resume _ _ _ hquiet, Bool.or_eq_false_iff, List.any_eq_false] at hes
    obtain ⟨haccepted, hspent⟩ := h.settled hes.1 c (hstore c hc)
    refine ⟨haccepted, fun ht => hspent (spent_of_resume hx hflow (fun r hr => ?_) hcleared ht)⟩
    have := hes.2 r hr
    cases hkind : r.kind with
    | rotateSelf => simp [hkind] at this
    | revokeSelf => rfl
  pending hes := by
    rw [unsettled_resume _ _ _ hquiet, Bool.or_eq_true, List.any_eq_true] at hes
    rcases hes with hes | ⟨r, hr, hkind⟩
    · obtain ⟨i, job, hget, hrunning, hjob⟩ := h.pending hes
      by_cases hij : i = j
      · subst hij
        obtain rfl := Option.some.inj (hget.symm.trans hx)
        obtain ⟨p, hjobs, hp⟩ := hcloses hjob hrunning
        refine ⟨i, { job with point := p }, ?_, hrunning, hp⟩
        change vm'.jobs.get i = _
        rw [hjobs, Jobs.move_get_eq_some_iff hx]
        exact Or.inl ⟨rfl, rfl⟩
      · exact ⟨i, job, (hflow.get_iff hx hij).2 hget, hrunning, hjob⟩
    · -- the coroutine that has just sent the request waits for its answer
      obtain ⟨job, hget, -, hsent⟩ := mem_sends hr
      rcases hsent with ⟨_, _, _, htask, hpoint, -⟩ | ⟨_, _, _, -, -, hrevoke, -⟩
      · have hgoes := hflow.goesTo hx hget
        have hawaits : x.point.awaits = true := hgoes.awaits (by rw [hpoint]; rfl)
        refine ⟨j, job, hget, ?_, by rw [htask, hpoint]; rfl⟩
        rw [hgoes.cancelled, Bool.eq_false_iff]
        intro hcancelled
        have hblocking := hblocks hcancelled
        rw [isBlocking_of_awaits hawaits] at hblocking
        cases hblocking
      · simp [hrevoke] at hkind

/-- Where the store was written or cleared. -/
theorem LinkedInv.resume_store (h : LinkedInv T s es) (hshowing : Showing vm')
    (hx : s.phone.jobs.get j = some x) (hanswers : s.Answers j outcome = true)
    (hflow : Flow s.phone j x.task x.point outcome vm' [e]) (he : e.isStore = true)
    (hsends : sends vm' (.resume j outcome) = [])
    (hstore : ∀ c, vm'.store = some c → x.point.candidate = some c ∧
      ∀ job, vm'.jobs.get j = some job → job.point.isCleared = false) :
    LinkedInv T { s with phone := vm', requests := s.requests ++ sends vm' (.resume j outcome) }
      (es ++ ([e].map .link ++ (sends vm' (.resume j outcome)).map .sent)) where
  showing := hshowing
  tokens := h.tokens.phone (.resume hx hanswers hflow)
  settled _ c hc := by
    obtain ⟨hcandidate, hnot⟩ := hstore c hc
    -- what is stored now was a candidate, which no request can spend
    have hunsaved : s.Unsaved j c.credentialId (bearer c.accessToken) := .candidate hx hcandidate
    refine ⟨h.tokens.accepted _ _ _ hunsaved, fun ht => h.tokens.apart _ _ _ hunsaved ?_⟩
    refine (spent_of_resume hx hflow (fun r hr => ?_) (fun _ job hget hcleared => ?_) ht).exposed
    · rw [hsends] at hr
      cases hr
    · rw [hnot job hget] at hcleared
      cases hcleared
  pending hes := by
    rw [hsends, unsettled_append] at hes
    simp [unsettledAfter, he] at hes

theorem LinkedInv.resume (h : LinkedInv T s es) (hshowing : Showing vm')
    (hx : s.phone.jobs.get j = some x) (hanswers : s.Answers j outcome = true)
    (hblocks : x.cancelled = true → x.point.isBlocking = true) (hclears : Clears s.phone j outcome)
    (hs : s.phone.resume j x.point outcome x.task = some (vm', out)) :
    LinkedInv T { s with phone := vm', requests := s.requests ++ sends vm' (.resume j outcome) }
      (es ++ (out.map .link ++ (sends vm' (.resume j outcome)).map .sent)) := by
  have hflow := flow_of_resume hs
  -- a coroutine that sees to the store is the current one
  have hcloses : (∀ e ∈ out, e.isStore = false) → Closes x.task x.point = true →
      x.cancelled = false → ∃ p, vm'.jobs = s.phone.jobs.move j p ∧ Closes x.task p = true := by
    intro hquiet hcloses hrunning
    obtain ⟨state, hstate⟩ := Option.ne_none_iff_exists'.1 (shows_of_closes hcloses)
    obtain ⟨-, -, hcurrent, -⟩ := h.showing.shown hx hrunning hstate
    rcases closes_of_resume hs hcloses hcurrent fun rejected hclear =>
        hclears x hx (spendsToken_of_closes hcloses) (by rw [hclear]; rfl) with
      ⟨e, he, hstore⟩ | hgoes
    · rw [hquiet e he] at hstore
      cases hstore
    · exact hgoes
  have hpoint {p : LinkPoint} (hjobs : vm'.jobs = s.phone.jobs.move j p)
      (job : Job LinkTask LinkPoint) (hget : vm'.jobs.get j = some job) : job.point = p := by
    rw [hjobs] at hget
    rcases (Jobs.move_get_eq_some_iff hx).1 hget with ⟨-, rfl⟩ | ⟨hne, -⟩
    · rfl
    · exact (hne rfl).elim
  have hflow' := hflow
  cases hflow' with
  | moves jobs _ _ _ cleared store _ _ quiet =>
    refine h.resume_same hshowing hx hanswers hblocks hflow (fun c hc => ?_) quiet
      (fun _ job hget hjob => cleared (hpoint jobs job hget ▸ hjob)) (hcloses quiet)
    rcases store with store | store
    · exact store ▸ hc
    · rw [store] at hc
      cases hc
  | takes jobs _ _ store =>
    refine h.resume_same hshowing hx hanswers hblocks hflow (fun c hc => store ▸ hc) (by simp)
      (fun _ job hget hjob => ?_) (hcloses (by simp))
    rw [hpoint jobs job hget] at hjob
    cases hjob
  | saves candidate jobs store =>
    refine h.resume_store hshowing hx hanswers hflow rfl (sends_eq_nil fun job hget => ?_) fun c hc =>
      ⟨?_, fun job hget => ?_⟩
    · rw [hpoint jobs job hget]
      exact ⟨rfl, fun b h => by cases h⟩
    · exact candidate.trans (store.symm.trans hc)
    · rw [hpoint jobs job hget]
      rfl
  | clears clear jobs store =>
    refine h.resume_store hshowing hx hanswers hflow rfl (sends_eq_nil fun job hget => ?_) fun c hc => ?_
    · rw [hpoint jobs job hget]
      exact ⟨rfl, fun b h => by cases h⟩
    · rw [store] at hc
      cases hc
  | keeps clear failed _ store =>
    -- a pairing or a restoration, which leave what is stored accepted
    have hnot (hspends : x.task.spendsToken = true) : False :=
      hclears x hx hspends (by rw [clear]; rfl) failed
    exact h.resume_same hshowing hx hanswers hblocks hflow (fun c hc => store ▸ hc) (by simp)
      (fun hspends => (hnot hspends).elim) fun hcloses => (hnot (spendsToken_of_closes hcloses)).elim
  | ends jobs store _ quiet =>
    refine h.resume_same hshowing hx hanswers hblocks hflow (fun c hc => store ▸ hc) quiet
      (fun _ job hget => ?_) (hcloses quiet)
    rw [jobs] at hget
    exact ((Jobs.finish_get_eq_some_iff.1 hget).1 rfl).elim

end Resume

/-! ### The Hub goes on -/

section Hub

open GoffyHub.Credentials (Valid)

variable {zone : NaiveDateTime → Except Exn ℤ} {T : Set Python.Str} {s s' : LinkedHub}
  {es : List LinkEvent} {changes : List GoffyHub.Credentials.Event} {table table' : CredentialTable}
  {token : Str} {t t' : Python.Str} {id c : UUID} {now : DateTime} {fault : Fault}

/-- What an operation of the Hub does to the tokens. -/
structure HubKeeps (T : Set Python.Str) (s s' : LinkedHub) : Prop where
  phone : s'.phone = s.phone
  requests : s'.requests = s.requests
  valid : Valid T s'.table s'.changes
  mem : ∀ t ∈ generatedTokens s'.changes, t ∈ T
  generated : ∀ t ∈ generatedTokens s.changes, t ∈ generatedTokens s'.changes
  accepted : ∀ id t, Accepted s.changes id t → (∀ r ∈ s.requests, t ≠ bearer r.token) →
    Accepted s'.changes id t
  answers : s'.answers = s.answers ∨ ∃ j a, s'.answers = Function.update s.answers j (some a) ∧
    j < s.phone.jobs.next ∧ Accepted s'.changes a.credentialId a.accessToken ∧
      a.accessToken ∉ generatedTokens s.changes

theorem HubKeeps.exposed (h : HubKeeps T s s') (ht : s'.Exposed t) : s.Exposed t := by
  unfold LinkedHub.Exposed at ht ⊢
  rwa [h.phone, h.requests] at ht

theorem HubKeeps.spent (h : HubKeeps T s s') (ht : s'.Spent t) : s.Spent t := by
  cases ht with
  | sent hr => exact .sent (h.requests ▸ hr)
  | forgotten hget htask hpoint => exact .forgotten (h.phone ▸ hget) htask hpoint

/-- Only an answer can bring a new token, and it goes to one job. -/
theorem HubKeeps.unsaved (h : HubKeeps T s s') : ∃ k, ∀ i id t, s'.Unsaved i id t → s.Unsaved i id t ∨
    i = k ∧ Accepted s'.changes id t ∧ t ∉ generatedTokens s.changes := by
  rcases h.answers with hsame | ⟨k, a, hnew, -, haccepted, hfresh⟩
  · refine ⟨0, fun i id t hi => Or.inl ?_⟩
    cases hi with
    | candidate hget hc => exact .candidate (h.phone ▸ hget) hc
    | answer hget hawaits ha => exact .answer (h.phone ▸ hget) hawaits (hsame ▸ ha)
  · refine ⟨k, fun i id t hi => ?_⟩
    cases hi with
    | candidate hget hc => exact Or.inl (.candidate (h.phone ▸ hget) hc)
    | answer hget hawaits ha =>
      rw [hnew] at ha
      by_cases hik : i = k
      · subst hik
        rw [Function.update_self] at ha
        obtain rfl := Option.some.inj ha
        exact Or.inr ⟨rfl, haccepted, hfresh⟩
      · rw [Function.update_of_ne hik] at ha
        exact Or.inl (.answer (h.phone ▸ hget) hawaits ha)

/-- An accepted token was generated. -/
theorem LinkedHub.Tokens.generated_of_accepted (h : s.Tokens T) (ht : Accepted s.changes id t) :
    t ∈ generatedTokens s.changes := (h.valid.tokens.last_issued _ _ ht.1).2

theorem LinkedHub.Tokens.hub (h : s.Tokens T) (hk : HubKeeps T s s') : s'.Tokens T := by
  obtain ⟨k, hunsaved⟩ := hk.unsaved
  refine ⟨hk.valid, hk.mem, fun t ht => hk.generated t (h.known t (hk.exposed ht)),
    fun j id t hj => ?_, fun j id t hj ht => ?_, fun i j id id' t hi hj => ?_, fun r hr => ?_,
    fun j a ha => ?_⟩
  · -- a request spends only what is exposed
    rcases hunsaved j id t hj with hj | ⟨-, haccepted, -⟩
    · refine hk.accepted id t (h.accepted j id t hj) fun r hr heq => ?_
      exact h.apart j id t hj (Or.inr ⟨r, hr, heq⟩)
    · exact haccepted
  · rcases hunsaved j id t hj with hj | ⟨-, -, hfresh⟩
    · exact h.apart j id t hj (hk.exposed ht)
    · exact hfresh (h.known t (hk.exposed ht))
  · rcases hunsaved i id t hi with hi | ⟨rfl, -, hfresh⟩ <;>
      rcases hunsaved j id' t hj with hj | ⟨rfl, -, hfresh'⟩
    · exact h.distinct i j id id' t hi hj
    · exact (hfresh' (h.generated_of_accepted (h.accepted i id t hi))).elim
    · exact (hfresh (h.generated_of_accepted (h.accepted j id' t hj))).elim
    · rfl
  · rw [hk.phone]
    exact h.requests_lt r (hk.requests ▸ hr)
  · rw [hk.phone]
    rcases hk.answers with hsame | ⟨k, b, hnew, hk', -⟩
    · exact h.answers_lt j a (hsame ▸ ha)
    · rw [hnew] at ha
      by_cases hjk : j = k
      · exact hjk ▸ hk'
      · rw [Function.update_of_ne hjk] at ha
        exact h.answers_lt j a ha

theorem LinkedInv.hub (h : LinkedInv T s es) (hk : HubKeeps T s s')
    (out : List GoffyHub.Credentials.Event) : LinkedInv T s' (es ++ out.map .hub) where
  showing := hk.phone ▸ h.showing
  tokens := h.tokens.hub hk
  settled hes c hc := by
    rw [unsettled_append, foldl_hub] at hes
    obtain ⟨haccepted, hspent⟩ := h.settled hes c (hk.phone ▸ hc)
    refine ⟨hk.accepted _ _ haccepted fun r hr heq => hspent ?_, fun ht => hspent (hk.spent ht)⟩
    rw [heq]
    exact .sent hr
  pending hes := by
    rw [unsettled_append, foldl_hub] at hes
    rw [hk.phone]
    exact h.pending hes

/-- A bearer token belongs to a credential exactly as long as it is accepted for it. -/
theorem principal_eq_some_iff (hinj : Set.InjOn tokenDigest T) (hv : Valid T table changes)
    (hT : bearer token ∈ T) :
    principal zone table token = some c ↔ Accepted changes c (bearer token) := by
  have hprincipal : principal zone table token = some c ↔
      ∃ credential, authenticate zone table (bearer token) .none = .ok (some credential) ∧
        credential.credentialId = c := by
    unfold principal
    split
    · rename_i credential heq
      simp [heq]
    · rename_i hne
      simp only [reduceCtorEq, false_iff, not_exists, not_and]
      exact fun credential heq => (hne credential heq).elim
  rw [hprincipal, hv.authenticate_iff hinj hT, hv.findActive_isSome_iff]
  constructor
  · rintro ⟨⟨-, hrevoked⟩, hlast⟩
    exact ⟨hlast, hrevoked⟩
  · rintro ⟨hlast, hrevoked⟩
    exact ⟨⟨(hv.tokens.last_issued _ _ hlast).1, hrevoked⟩, hlast⟩

/-- An operation that reports nothing leaves the Hub as it is. -/
theorem LinkedInv.nothing (h : LinkedInv T s es) {a : GoffyHub.Credentials.Action}
    {o : GoffyHub.Credentials.Outcome} {answer : Option (ℕ × Answer)}
    (hp : GoffyHub.Credentials.perform zone s.table a = (s.table, o)) (ho : o.events = [])
    (hanswer : answer = none) :
    LinkedInv T (s.perform zone a answer).1 (es ++ (s.perform zone a answer).2) := by
  subst hanswer
  simp only [LinkedHub.perform, hp, ho, List.append_nil, List.map_nil, Option.elim]
  exact h

/-- The token of a request that the Hub carries out is accepted. -/
theorem LinkedHub.Tokens.accepted_of_principal (h : s.Tokens T) (hinj : Set.InjOn tokenDigest T)
    {r : Request} (hr : r ∈ s.requests) (hprincipal : principal zone s.table r.token = some c) :
    bearer r.token ∈ T ∧ Accepted s.changes c (bearer r.token) := by
  have hT : bearer r.token ∈ T := h.mem _ (h.known _ (Or.inr ⟨r, hr, rfl⟩))
  exact ⟨hT, (principal_eq_some_iff hinj h.valid hT).1 hprincipal⟩

/-- What an event leaves accepted, if it gives no token to the credential and does not revoke it. -/
theorem Accepted.concat {e : GoffyHub.Credentials.Event} (h : Accepted changes id t)
    (hgives : e.tokenFor id = none) (hrevokes : e ≠ .revoked id) : Accepted (changes ++ [e]) id t := by
  refine ⟨?_, fun hmem => ?_⟩
  · rw [GoffyHub.Credentials.lastToken_concat, hgives, Option.none_or]
    exact h.1
  · rcases List.mem_append.1 hmem with hmem | hmem
    · exact h.2 hmem
    · exact hrevokes (List.mem_singleton.1 hmem).symm

theorem rotate_credentialId (hv : Valid T table changes) {rotated : GoffyHub.Credentials.RotatedCredential}
    (h : GoffyHub.Credentials.rotate zone table c t t' now fault = (table', .ok (some rotated))) :
    rotated.credential.credentialId = c := by
  rw [GoffyHub.Credentials.rotate] at h
  split at h
  · cases (Prod.mk.inj h).2
  cases hutc : GoffyHub.Credentials.asUtc now with
  | error e =>
    rw [hutc] at h
    cases (Prod.mk.inj h).2
  | ok d =>
    simp only [hutc] at h
    split at h
    · cases (Prod.mk.inj h).2
    cases hfind : (table.findActive c).filter (·.tokenDigest = tokenDigest t) with
    | none =>
      simp only [hfind] at h
      split at h <;> cases (Prod.mk.inj h).2
    | some row =>
      obtain ⟨hrow, -⟩ := Option.filter_eq_some_iff.1 hfind
      obtain ⟨hmem, hid, -⟩ := GoffyHub.Credentials.findActive_eq_some_iff.1 hrow
      obtain ⟨t₀, hfor⟩ := hv.rowFor hmem hid
      obtain ⟨credential, hok, hcredential⟩ := GoffyHub.Credentials.rowToCredential_ok zone hfor
      simp only [hfind, hok] at h
      split at h
      · cases (Prod.mk.inj h).2
      split at h
      · cases (Prod.mk.inj h).2
      cases hset : table.setTokenDigest c (tokenDigest t) (tokenDigest t') with
      | none =>
        rw [hset] at h
        cases (Prod.mk.inj h).2
      | some table'' =>
        simp only [hset] at h
        split at h
        · cases (Prod.mk.inj h).2
        · obtain rfl := Option.some.inj (Except.ok.inj (Prod.mk.inj h).2)
          exact hcredential

/-- The tokens of a longer history. -/
theorem generatedTokens_concat (e : GoffyHub.Credentials.Event) :
    generatedTokens (changes ++ [e]) = generatedTokens changes ++ generatedTokens [e] :=
  List.filterMap_append

/-- An operation that changes the table. Its answer holds a new token. -/
theorem LinkedInv.perform (h : LinkedInv T s es) {a : GoffyHub.Credentials.Action}
    {e : GoffyHub.Credentials.Event}
    (hp : GoffyHub.Credentials.perform zone s.table a = (table', .succeeded [e]))
    (answer : Option (ℕ × Answer)) (hvalid : Valid T table' (s.changes ++ [e]))
    (hmem : ∀ t ∈ generatedTokens [e], t ∈ T)
    (haccepted : ∀ id t, Accepted s.changes id t → (∀ r ∈ s.requests, t ≠ bearer r.token) →
      e.tokenFor id = none ∧ e ≠ .revoked id)
    (hanswer : ∀ p, answer = some p → p.1 < s.phone.jobs.next ∧
      Accepted (s.changes ++ [e]) p.2.credentialId p.2.accessToken ∧
        p.2.accessToken ∉ generatedTokens s.changes) :
    LinkedInv T (s.perform zone a answer).1 (es ++ (s.perform zone a answer).2) := by
  have hchanges : (s.perform zone a answer).1.changes = s.changes ++ [e] := by
    simp only [LinkedHub.perform, hp, GoffyHub.Credentials.Outcome.events]
  have htable : (s.perform zone a answer).1.table = table' := by simp only [LinkedHub.perform, hp]
  have hk : HubKeeps T s (s.perform zone a answer).1 := by
    refine ⟨rfl, rfl, ?_, fun t ht => ?_, fun t ht => ?_, fun id t hid hnot => ?_, ?_⟩
    · rw [htable, hchanges]
      exact hvalid
    · rw [hchanges, generatedTokens_concat, List.mem_append] at ht
      exact ht.elim (h.tokens.mem t) (hmem t)
    · rw [hchanges, generatedTokens_concat]
      exact List.mem_append_left _ ht
    · obtain ⟨hgives, hrevokes⟩ := haccepted id t hid hnot
      rw [hchanges]
      exact hid.concat hgives hrevokes
    · rw [hchanges]
      cases answer with
      | none => exact Or.inl rfl
      | some p => exact Or.inr ⟨p.1, p.2, rfl, hanswer p rfl⟩
  exact h.hub hk _

theorem LinkedInv.issues (h : LinkedInv T s es) {job : Option ℕ} {args : IssueArgs}
    {accessToken : Python.Str} (hfresh : GoffyHub.Credentials.Fresh T s.table s.changes
      (.issue args accessToken c now fault))
    (hjob : ∀ j, job = some j → j < s.phone.jobs.next) :
    LinkedInv T (s.perform zone (.issue args accessToken c now fault)
        (job.bind fun j => (issueAnswer s.table args accessToken c now fault).map (j, ·))).1
      (es ++ (s.perform zone (.issue args accessToken c now fault)
        (job.bind fun j => (issueAnswer s.table args accessToken c now fault).map (j, ·))).2) := by
  obtain ⟨hc, ht, hT, hlen⟩ := hfresh
  have hv := h.tokens.valid
  rcases GoffyHub.Credentials.issue_cases s.table args accessToken c now fault with
    ⟨e, he⟩ | ⟨table', credential, hok, hid, hissues⟩
  · have hp : GoffyHub.Credentials.perform zone s.table (.issue args accessToken c now fault) =
        (s.table, .raised e) := by
      simp only [GoffyHub.Credentials.perform, he]
    exact h.nothing hp rfl (by simp [issueAnswer, he])
  · subst hid
    have haccepted : Accepted (s.changes ++ [.issued credential.credentialId accessToken])
        credential.credentialId accessToken := by
      refine ⟨?_, fun hmem => hc (hv.revoked_issued _ (by simpa using hmem))⟩
      rw [GoffyHub.Credentials.lastToken_concat]
      simp [GoffyHub.Credentials.Event.tokenFor]
    refine h.perform (by simp only [GoffyHub.Credentials.perform, hok]) _
      (hv.issue hissues hc ht hT hlen) (fun t hmem => ?_) (fun id t hid _ => ?_) fun p hp => ?_
    · rwa [List.mem_singleton.1 hmem]
    · -- the id is new
      have hne : credential.credentialId ≠ id := by
        rintro rfl
        exact hc (hv.tokens.last_issued _ _ hid.1).1
      exact ⟨by simp [GoffyHub.Credentials.Event.tokenFor, hne], fun heq => by cases heq⟩
    · obtain ⟨j, rfl, hanswer⟩ := Option.bind_eq_some_iff.1 hp
      simp only [issueAnswer, hok, Option.map_some, Option.some.injEq] at hanswer
      subst hanswer
      exact ⟨hjob j rfl, haccepted, ht⟩

theorem LinkedInv.rotates (h : LinkedInv T s es) (hinj : Set.InjOn tokenDigest T) {r : Request}
    (hr : r ∈ s.requests) (hprincipal : principal zone s.table r.token = some c)
    {accessToken : Python.Str} (ht : accessToken ∉ generatedTokens s.changes) (hT : accessToken ∈ T)
    (hlen : accessToken.length ≤ 512) :
    LinkedInv T (s.perform zone (.rotate c (bearer r.token) accessToken now fault)
        ((rotationAnswer zone s.table c (bearer r.token) accessToken now fault).map (r.job, ·))).1
      (es ++ (s.perform zone (.rotate c (bearer r.token) accessToken now fault)
        ((rotationAnswer zone s.table c (bearer r.token) accessToken now fault).map (r.job, ·))).2) := by
  have hv := h.tokens.valid
  obtain ⟨hmemT, hold⟩ := h.tokens.accepted_of_principal hinj hr hprincipal
  rcases hv.rotate_cases zone c (bearer r.token) accessToken now fault with
    ⟨e, he⟩ | hnone | ⟨table', rotated, hok, htoken, hrotates⟩
  · have hp : GoffyHub.Credentials.perform zone s.table
        (.rotate c (bearer r.token) accessToken now fault) = (s.table, .raised e) := by
      simp only [GoffyHub.Credentials.perform, he]
    exact h.nothing hp rfl (by simp [rotationAnswer, he])
  · have hp : GoffyHub.Credentials.perform zone s.table
        (.rotate c (bearer r.token) accessToken now fault) = (s.table, .returnedNone) := by
      simp only [GoffyHub.Credentials.perform, hnone]
    exact h.nothing hp rfl (by simp [rotationAnswer, hnone])
  · subst htoken
    have haccepted : Accepted (s.changes ++ [.rotated c (bearer r.token) rotated.accessToken]) c
        rotated.accessToken := by
      refine ⟨?_, fun hmem => hold.2 (by simpa using hmem)⟩
      rw [GoffyHub.Credentials.lastToken_concat]
      simp [GoffyHub.Credentials.Event.tokenFor]
    refine h.perform (by simp only [GoffyHub.Credentials.perform, hok]) _
      (hv.rotate hinj hrotates hmemT ht hT hlen) (fun t hmem => ?_) (fun id t hid hnot => ?_)
      fun p hp => ?_
    · rwa [List.mem_singleton.1 hmem]
    · -- the token of the credential is the one of the request
      have hne : c ≠ id := by
        rintro rfl
        exact hnot r hr (Option.some.inj (hid.1.symm.trans hold.1))
      exact ⟨by simp [GoffyHub.Credentials.Event.tokenFor, hne], fun heq => by cases heq⟩
    · simp only [rotationAnswer, hok, Option.map_some, Option.some.injEq] at hp
      subst hp
      refine ⟨h.tokens.requests_lt r hr, ?_, ht⟩
      rw [rotate_credentialId hv hok]
      exact haccepted

theorem LinkedInv.revokes (h : LinkedInv T s es) (hinj : Set.InjOn tokenDigest T) {r : Request}
    (hr : r ∈ s.requests) (hprincipal : principal zone s.table r.token = some c) :
    LinkedInv T (s.perform zone (.revoke c now fault) none).1
      (es ++ (s.perform zone (.revoke c now fault) none).2) := by
  have hv := h.tokens.valid
  obtain ⟨-, hold⟩ := h.tokens.accepted_of_principal hinj hr hprincipal
  rcases hv.revoke_cases zone c now fault with ⟨e, he⟩ | hnone | ⟨table', credential, hok, hrevokes⟩
  · have hp : GoffyHub.Credentials.perform zone s.table (.revoke c now fault) =
        (s.table, .raised e) := by
      simp only [GoffyHub.Credentials.perform, he]
    exact h.nothing hp rfl rfl
  · have hp : GoffyHub.Credentials.perform zone s.table (.revoke c now fault) =
        (s.table, .returnedNone) := by
      simp only [GoffyHub.Credentials.perform, hnone]
    exact h.nothing hp rfl rfl
  · refine h.perform (by simp only [GoffyHub.Credentials.perform, hok]) _ (hv.revoke hrevokes)
      (fun t ht => by cases ht) (fun id t hid hnot => ⟨rfl, fun heq => ?_⟩) fun p hp => by cases hp
    -- the revoked credential has no other token than that of the request
    cases heq
    exact hnot r hr (Option.some.inj (hid.1.symm.trans hold.1))

end Hub

end GoffyPhone.HubLink
