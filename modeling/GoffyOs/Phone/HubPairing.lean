import GoffyOs.Phone.HubLinkRuns

/-!
# Pairing, and stopping a pairing

`cancelForegroundPairing` cancels the pairing, shows that the phone is not paired, and leaves the
clean-up to a coroutine. The state it shows lets the next `pairHub` begin at once, and `pairHub` does
not wait for the clean-up.

* `Phase` are the states that the phone goes through when no pairing begins beside a clean-up;
* `clean_up_spares` says of these runs that a clean-up takes nothing from a later pairing, and that a
  pairing that ended well has its credential stored and its key present;
* `paired_without_authority` is a run where the next pairing begins too early.
-/

namespace GoffyPhone.HubLink

open Kotlin
open Python (UUID)
open Machine
open HubLink.GoffyViewModel

variable {vm vm' : GoffyViewModel} {j : ℕ} {task : LinkTask} {point : LinkPoint}
  {outcome : Outcome} {es out : List Event}

/-- The calls that pair, and the coroutines. -/
def Action.isPairing : Action → Bool
  | .configureHub _ _ | .forgetHub | .rotateHubCredential => false
  | .pairHub _ | .cancelForegroundPairing | .resume _ _ | .abort _ => true

def LinkTask.isCleanUp : LinkTask → Bool
  | .cancelForegroundPairing _ => true
  | _ => false

/-- Only pairings take place, and none begins before the clean-up after the last one has ended. -/
def PairsAfterCleanUp (vm : GoffyViewModel) (_ : List Event) (a : Action) : Prop :=
  a.isPairing = true ∧ (PairHubAccepted vm a = true → NoneRuns LinkTask.isCleanUp vm)

instance (vm : GoffyViewModel) (es : List Event) (a : Action) :
    Decidable (PairsAfterCleanUp vm es a) :=
  inferInstanceAs (Decidable (_ ∧ _))

/-- The job that has created the approval key or stored a credential. -/
def Event.provider : Event → Option ℕ
  | .keyCreated j | .saved j _ => some j
  | _ => none

def Event.isPaired : Event → Bool
  | .paired _ _ => true
  | _ => false

/-- What is cleared or deleted comes from no later call: the numbers of jobs grow. -/
def SparesLater (pre : List Event) : Event → Prop
  | .cleared j | .keyDeleted j => ∀ e ∈ pre, ∀ i, e.provider = some i → i ≤ j
  | _ => True

theorem Event.job_of_provider {e : Event} {i : ℕ} (h : e.provider = some i) : e.job = some i := by
  cases e <;> first | exact h | cases h

theorem Event.job_of_isPaired {e : Event} {i : ℕ} (h : e.job = some i) : e.isPaired = false := by
  cases e <;> first | rfl | cases h

/-! ### What a pairing has achieved -/

/-- The key is there while the Hub is asked, and the credential once it was saved. -/
def PairFacts (vm : GoffyViewModel) : LinkPoint → Prop
  | .redeem | .save _ => vm.approvalKey = true
  | .saved (some c) => vm.approvalKey = true ∧ vm.store = some c
  | _ => True

/-- How a pairing goes on under the current revision. -/
theorem pairHub_goes_on {endpoint : Str}
    (h : vm.resumePair j vm.linkRevision endpoint point outcome = some (vm', out))
    (hfacts : PairFacts vm point) :
    (∃ p, vm'.jobs = vm.jobs.move j p ∧ PairFacts vm' p) ∨
      (vm'.jobs = vm.jobs.finish j ∧ out = []) ∨
      ∃ c, vm'.jobs = vm.jobs.finish j ∧ out = [.paired j c] ∧ vm'.store = some c ∧
        vm'.approvalKey = true := by
  unfold resumePair at h
  split at h
  · simp only [Option.some.injEq, Prod.mk.injEq] at h
    obtain ⟨rfl, -⟩ := h
    exact Or.inl ⟨_, rfl, rfl⟩
  · simp only [Option.some.injEq, Prod.mk.injEq] at h
    obtain ⟨rfl, -⟩ := h
    exact Or.inl ⟨_, rfl, trivial⟩
  · simp only [Option.some.injEq, Prod.mk.injEq] at h
    obtain ⟨rfl, -⟩ := h
    unfold pairIssued
    split
    · exact Or.inl ⟨_, rfl, hfacts⟩
    · exact Or.inl ⟨_, rfl, trivial⟩
  · simp only [Option.some.injEq, Prod.mk.injEq] at h
    obtain ⟨rfl, -⟩ := h
    exact Or.inl ⟨_, rfl, trivial⟩
  · simp only [Option.some.injEq, Prod.mk.injEq] at h
    obtain ⟨rfl, -⟩ := h
    exact Or.inl ⟨_, rfl, trivial⟩
  · unfold save at h
    split at h <;> simp only [Option.some.injEq, Prod.mk.injEq, reduceCtorEq] at h <;>
      obtain ⟨rfl, -⟩ := h
    · exact Or.inl ⟨_, rfl, hfacts, rfl⟩
    · exact Or.inl ⟨_, rfl, trivial⟩
  · unfold pairSaved at h
    split at h
    · simp only [Option.some.injEq, Prod.mk.injEq] at h
      obtain ⟨rfl, -⟩ := h
      exact Or.inl ⟨_, rfl, trivial⟩
    · rw [if_neg (not_not.2 rfl)] at h
      split at h <;> simp only [Option.some.injEq, Prod.mk.injEq, reduceCtorEq] at h <;>
        obtain ⟨rfl, rfl⟩ := h
      · exact Or.inr (Or.inr ⟨_, rfl, rfl, hfacts.2, hfacts.1⟩)
      · exact Or.inl ⟨_, rfl, trivial⟩
    · cases h
  · simp only [Option.some.injEq, Prod.mk.injEq] at h
    obtain ⟨rfl, rfl⟩ := h
    refine Or.inr (Or.inl ⟨?_, rfl⟩)
    unfold pairCleared
    rw [if_neg (not_not.2 rfl)]
    split <;> rfl
  · unfold clearLocalHubAuthority at h
    split at h <;> simp only [Option.some.injEq, Prod.mk.injEq, reduceCtorEq] at h <;>
      obtain ⟨rfl, -⟩ := h <;> exact Or.inl ⟨_, rfl, trivial⟩

/-! ### Phases -/

/-- The states of a phone where no pairing begins beside a clean-up. -/
inductive Phase (vm : GoffyViewModel) (es : List Event) : Prop
  /-- The stored credential is being restored. -/
  | restoring (j : ℕ) (job : Job LinkTask LinkPoint) (only : vm.jobs.Only j job)
      (task : job.task = .restoreHubCredential vm.linkRevision) (cancelled : job.cancelled = false)
      (state : vm.uiState.hubLinkState = .loading) (unpaired : ∀ e ∈ es, e.isPaired = false)
  /-- A pairing is under way. -/
  | pairing (j : ℕ) (job : Job LinkTask LinkPoint) (endpoint : Str) (only : vm.jobs.Only j job)
      (task : job.task = .pairHub vm.linkRevision endpoint) (cancelled : job.cancelled = false)
      (linkJob : vm.linkJob = some j) (state : vm.uiState.hubLinkState = .pairing)
      (facts : PairFacts vm job.point) (unpaired : ∀ e ∈ es, e.isPaired = false)
  /-- A pairing was stopped. The clean-up waits for it. -/
  | stopping (k : ℕ) (job : Job LinkTask LinkPoint) (enrollment : Option ℕ)
      (get : vm.jobs.get k = some job) (task : job.task = .cancelForegroundPairing enrollment)
      (cancelled : job.cancelled = false) (state : vm.uiState.hubLinkState = .unpaired)
      (others : ∀ i x, vm.jobs.get i = some x → i ≠ k → enrollment = some i ∧ i < k ∧
        job.point = .join ∧ x.cancelled = true ∧ ∃ r e, x.task = .pairHub r e)
      (unpaired : ∀ e ∈ es, e.isPaired = false)
  /-- Nothing is going on, and no pairing has succeeded. -/
  | idle (none_runs : ∀ i, vm.jobs.get i = none)
      (state : Unlinked vm.uiState ∨ vm.uiState.hubLinkState = .paired)
      (unpaired : ∀ e ∈ es, e.isPaired = false)
  /-- A pairing has succeeded. -/
  | paired (c : StoredHubCredential) (none_runs : ∀ i, vm.jobs.get i = none)
      (state : vm.uiState.hubLinkState = .paired) (store : vm.store = some c)
      (approvalKey : vm.approvalKey = true) (last : ∀ j c', .paired j c' ∈ es → c' = c)

namespace Phase

theorem not_isPaired_append (h : ∀ e ∈ es, e.isPaired = false) (hout : ∀ e ∈ out, e.job = some j) :
    ∀ e ∈ es ++ out, e.isPaired = false := by
  intro e he
  rcases List.mem_append.1 he with he | he
  · exact h e he
  · exact Event.job_of_isPaired (hout e he)

/-- The texts that are shown do not matter. -/
theorem shown (h : Phase vm es) (hjobs : vm'.jobs = vm.jobs)
    (hrevision : vm'.linkRevision = vm.linkRevision) (hlinkJob : vm'.linkJob = vm.linkJob)
    (hstate : vm'.uiState.hubLinkState = vm.uiState.hubLinkState) (hstore : vm'.store = vm.store)
    (hkey : vm'.approvalKey = vm.approvalKey) : Phase vm' es := by
  cases h with
  | restoring j job only task cancelled state unpaired =>
    exact .restoring j job (hjobs ▸ only) (hrevision ▸ task) cancelled (hstate ▸ state) unpaired
  | pairing j job endpoint only task cancelled linkJob state facts unpaired =>
    refine .pairing j job endpoint (hjobs ▸ only) (hrevision ▸ task) cancelled (hlinkJob ▸ linkJob)
      (hstate ▸ state) ?_ unpaired
    unfold PairFacts
    rwa [hkey, hstore]
  | stopping k job enrollment get task cancelled state others unpaired =>
    exact .stopping k job enrollment (hjobs ▸ get) task cancelled (hstate ▸ state) (hjobs ▸ others)
      unpaired
  | idle none_runs state unpaired =>
    refine .idle (hjobs ▸ none_runs) ?_ unpaired
    unfold Unlinked
    rwa [hstate]
  | paired c none_runs state store approvalKey last =>
    exact .paired c (hjobs ▸ none_runs) (hstate ▸ state) (hstore ▸ store) (hkey ▸ approvalKey) last

theorem restoring_resumed {job : Job LinkTask LinkPoint} (only : vm.jobs.Only j job)
    (task : job.task = .restoreHubCredential vm.linkRevision) (cancelled : job.cancelled = false)
    (state : vm.uiState.hubLinkState = .loading) (unpaired : ∀ e ∈ es, e.isPaired = false)
    (hr : Resumed vm j job.task vm' out) : Phase vm' (es ++ out) := by
  rw [task] at hr
  cases hr with
  | moved moved =>
    obtain ⟨point, hjobs⟩ := moved.jobs
    refine .restoring j { job with point := point } (hjobs ▸ only.move point) ?_ cancelled
      (moved.ui ▸ state) (not_isPaired_append unpaired moved.out_local)
    rw [moved.revision]
    exact task
  | left _ _ _ _ stale => exact (stale rfl).elim
  | failed jobs _ state _ =>
    rw [List.append_nil]
    exact .idle (jobs ▸ only.finish) (Or.inl state) unpaired
  | @linked link _ jobs _ state _ _ event =>
    refine .idle (jobs ▸ only.finish) (Or.inr state) fun e he => ?_
    rcases List.mem_append.1 he with he | he
    · exact unpaired e he
    · rw [List.mem_singleton.1 he]
      cases link <;> first | rfl | cases event
  | rotated _ _ _ isRotation => cases isRotation
  | forgotten _ _ _ _ isForget | revoked _ _ _ _ isForget => cases isForget

theorem pairing_resumed {job : Job LinkTask LinkPoint} {endpoint : Str}
    (only : vm.jobs.Only j job) (task : job.task = .pairHub vm.linkRevision endpoint)
    (cancelled : job.cancelled = false) (linkJob : vm.linkJob = some j)
    (state : vm.uiState.hubLinkState = .pairing) (facts : PairFacts vm job.point)
    (unpaired : ∀ e ∈ es, e.isPaired = false)
    (h : vm.resumePair j vm.linkRevision endpoint job.point outcome = some (vm', out)) :
    Phase vm' (es ++ out) := by
  have hgo := pairHub_goes_on h facts
  have hr := resumed_pairHub h
  cases hr with
  | moved moved =>
    obtain ⟨p, hjobs⟩ := moved.jobs
    rcases hgo with ⟨p', hjobs', hfacts⟩ | ⟨hjobs', -⟩ | ⟨c, hjobs', -⟩
    · refine .pairing j { job with point := p' } endpoint (hjobs' ▸ only.move p') ?_ cancelled
        (moved.linkJob ▸ linkJob) (moved.ui ▸ state) hfacts
        (not_isPaired_append unpaired moved.out_local)
      rw [moved.revision]
      exact task
    · exact (Jobs.move_ne_finish only.get (hjobs.symm.trans hjobs')).elim
    · exact (Jobs.move_ne_finish only.get (hjobs.symm.trans hjobs')).elim
  | left _ _ _ _ stale => exact (stale rfl).elim
  | failed jobs _ state _ =>
    rw [List.append_nil]
    exact .idle (jobs ▸ only.finish) (Or.inl state) unpaired
  | linked jobs _ state _ _ event =>
    rcases hgo with ⟨p', hjobs', -⟩ | ⟨-, hout⟩ | ⟨c, -, hout, hstore, hkey⟩
    · exact (Jobs.move_ne_finish only.get (hjobs'.symm.trans jobs)).elim
    · cases hout
    · obtain rfl := (List.cons.inj hout).1
      refine .paired c (jobs ▸ only.finish) state hstore hkey fun i c' hmem => ?_
      rcases List.mem_append.1 hmem with hmem | hmem
      · cases unpaired _ hmem
      · cases List.mem_singleton.1 hmem
        rfl
  | rotated _ _ _ isRotation => cases isRotation
  | forgotten _ _ _ _ isForget | revoked _ _ _ _ isForget => cases isForget

/-- What is going on at the credential dispatcher only moves. -/
theorem moved_of_isBlocking {r : ℕ} {endpoint : Str} (hblocking : point.isBlocking = true)
    (h : vm.resumePair j r endpoint point outcome = some (vm', out)) : Moved vm j vm' out := by
  unfold resumePair at h
  split at h
  · cases hblocking
  · cases hblocking
  · cases hblocking
  · cases hblocking
  · cases hblocking
  · exact moved_save h
  · cases hblocking
  · cases hblocking
  · exact moved_clearLocalHubAuthority h

/-- The clean-up goes on only when the pairing has ended. -/
theorem only_of_resumeCleanUp {k : ℕ} {job : Job LinkTask LinkPoint} {enrollment : Option ℕ}
    (get : vm.jobs.get k = some job)
    (others : ∀ i x, vm.jobs.get i = some x → i ≠ k → enrollment = some i ∧ job.point = .join)
    (h : vm.resumeCleanUp k enrollment job.point outcome = some (vm', out)) :
    vm.jobs.Only k job := by
  have hdone : job.point = .join → vm.jobs.isDone enrollment = true := by
    intro hjoin
    rw [hjoin] at h
    cases outcome <;> simp only [resumeCleanUp, clearLocalHubAuthority, reduceCtorEq] at h
    split at h
    · assumption
    · cases h
  intro i x
  constructor
  · intro hx
    by_cases hik : i = k
    · subst hik
      exact ⟨rfl, Option.some.inj (hx.symm.trans get)⟩
    · obtain ⟨hi, hjoin⟩ := others i x hx hik
      rw [Jobs.isDone_eq_true_iff.1 (hdone hjoin) i hi] at hx
      cases hx
  · rintro ⟨rfl, rfl⟩
    exact get

theorem stopping_resumed {job : Job LinkTask LinkPoint} {enrollment : Option ℕ}
    (only : vm.jobs.Only j job) (task : job.task = .cancelForegroundPairing enrollment)
    (cancelled : job.cancelled = false) (state : vm.uiState.hubLinkState = .unpaired)
    (unpaired : ∀ e ∈ es, e.isPaired = false) (hr : Resumed vm j job.task vm' out) :
    Phase vm' (es ++ out) := by
  rw [task] at hr
  cases hr with
  | moved moved =>
    obtain ⟨point, hjobs⟩ := moved.jobs
    have honly := only.move point
    refine .stopping j { job with point := point } enrollment (hjobs ▸ honly.get) task cancelled
      (moved.ui ▸ state) (fun i x hx hij => ?_) (not_isPaired_append unpaired moved.out_local)
    rw [hjobs] at hx
    exact (hij ((honly i x).1 hx).1).elim
  | left jobs _ ui =>
    rw [List.append_nil]
    exact .idle (jobs ▸ only.finish) (Or.inl (Or.inl (ui ▸ state))) unpaired
  | failed jobs _ state _ =>
    rw [List.append_nil]
    exact .idle (jobs ▸ only.finish) (Or.inl state) unpaired
  | linked _ _ _ _ current => cases current
  | rotated _ _ _ isRotation => cases isRotation
  | forgotten _ _ _ _ isForget | revoked _ _ _ _ isForget => cases isForget

/-- One step of a coroutine. It is the oldest one that is running. -/
theorem resumed {x : Job LinkTask LinkPoint} (h : Phase vm es) (hx : vm.jobs.get j = some x)
    (hblocking : x.cancelled = true → x.point.isBlocking = true)
    (hs : vm.resume j x.point outcome x.task = some (vm', out)) :
    Phase vm' (es ++ out) ∧ ∀ i y, vm.jobs.get i = some y → j ≤ i := by
  have hleast {job : Job LinkTask LinkPoint} (only : vm.jobs.Only j job) :
      ∀ i y, vm.jobs.get i = some y → j ≤ i := fun i y hy => ((only i y).1 hy).1.ge
  cases h with
  | restoring j' job only task cancelled state unpaired =>
    obtain ⟨rfl, rfl⟩ := (only j x).1 hx
    exact ⟨restoring_resumed only task cancelled state unpaired (resumed_of_resume hs), hleast only⟩
  | pairing j' job endpoint only task cancelled linkJob state facts unpaired =>
    obtain ⟨rfl, rfl⟩ := (only j x).1 hx
    rw [task] at hs
    exact ⟨pairing_resumed only task cancelled linkJob state facts unpaired hs, hleast only⟩
  | stopping k job enrollment get task cancelled state others unpaired =>
    by_cases hjk : j = k
    · subst hjk
      obtain rfl : x = job := Option.some.inj (hx.symm.trans get)
      have hr := resumed_of_resume hs
      rw [task] at hs
      have only := only_of_resumeCleanUp get
        (fun i y hy hij => ⟨(others i y hy hij).1, (others i y hy hij).2.2.1⟩) hs
      exact ⟨stopping_resumed only task cancelled state unpaired hr, hleast only⟩
    · -- the pairing that was stopped is still at the store
      obtain ⟨henrollment, hlt, hjoin, hcancelled, r, e, htask⟩ := others j x hx hjk
      rw [htask] at hs
      have moved := moved_of_isBlocking (hblocking hcancelled) hs
      obtain ⟨point, hjobs⟩ := moved.jobs
      constructor
      · refine .stopping k job enrollment ?_ task cancelled (moved.ui ▸ state) (fun i y hy hik => ?_)
          (not_isPaired_append unpaired moved.out_local)
        · rw [hjobs, Jobs.move_get_eq_some_iff hx]
          exact Or.inr ⟨Ne.symm hjk, get⟩
        · rw [hjobs, Jobs.move_get_eq_some_iff hx] at hy
          rcases hy with ⟨rfl, rfl⟩ | ⟨-, hy⟩
          · exact ⟨henrollment, hlt, hjoin, hcancelled, r, e, htask⟩
          · exact others i y hy hik
      · intro i y hy
        by_cases hik : i = k
        · omega
        · have : some i = some j := (others i y hy hik).1.symm.trans henrollment
          exact (Option.some.inj this).ge
  | idle none_runs | paired _ none_runs =>
    rw [none_runs j] at hx
    cases hx

/-- A cancelled job ends. -/
theorem aborted {x : Job LinkTask LinkPoint} (h : Phase vm es) (hx : vm.jobs.get j = some x)
    (hcancelled : x.cancelled = true) : Phase (vm.finish j) es := by
  cases h with
  | restoring j' job only task cancelled | pairing j' job endpoint only task cancelled =>
    obtain ⟨rfl, rfl⟩ := (only j x).1 hx
    rw [hcancelled] at cancelled
    cases cancelled
  | stopping k job enrollment get task cancelled state others unpaired =>
    have hkj : k ≠ j := by
      rintro rfl
      obtain rfl : x = job := Option.some.inj (hx.symm.trans get)
      rw [hcancelled] at cancelled
      cases cancelled
    exact .stopping k job enrollment (Jobs.finish_get_eq_some_iff.2 ⟨hkj, get⟩) task cancelled state
      (fun i y hy => others i y (Jobs.finish_get_eq_some_iff.1 hy).2) unpaired
  | idle none_runs | paired _ none_runs =>
    rw [none_runs j] at hx
    cases hx

/-- A pairing begins only when nothing is going on. -/
theorem pairHub (h : Phase vm es) (endpoint : Except Str Str)
    (hok : PairHubAccepted vm (.pairHub endpoint) = true → NoneRuns LinkTask.isCleanUp vm) :
    Phase (vm.pairHub endpoint) es := by
  unfold GoffyViewModel.pairHub
  split
  case isTrue => exact h
  case isFalse hprogress =>
    split
    case isTrue => exact h.shown rfl rfl rfl rfl rfl rfl
    case isFalse hconfigured =>
      cases endpoint with
      | error message => exact h.shown rfl rfl rfl rfl rfl rfl
      | ok url =>
        have haccepted : PairHubAccepted vm (.pairHub (.ok url)) = true := by
          simp [PairHubAccepted, hprogress, hconfigured]
        cases h with
        | restoring _ _ _ _ _ state | pairing _ _ _ _ _ _ _ state =>
          simp [GoffyUiState.linkOperationInProgress, state] at hprogress
        | stopping k job enrollment get task =>
          have := hok haccepted k job.task (Jobs.task_eq_some get)
          rw [task] at this
          cases this
        | idle none_runs state unpaired =>
          exact .pairing _ _ url (Jobs.only_launch none_runs _ _) rfl rfl rfl rfl trivial unpaired
        | paired c none_runs state =>
          simp [GoffyUiState.isHubConfigured, state] at hconfigured

/-- Only a pairing can be stopped. -/
theorem cancelForegroundPairing (h : Phase vm es) : Phase vm.cancelForegroundPairing es := by
  unfold GoffyViewModel.cancelForegroundPairing
  split
  case isTrue => exact h
  case isFalse hpairing =>
    have hstate := not_not.1 hpairing
    cases h with
    | pairing j job endpoint only task cancelled linkJob state facts unpaired =>
      refine .stopping vm.jobs.next ⟨.cancelForegroundPairing vm.linkJob, .join, false⟩ vm.linkJob
        (Jobs.launch_get_eq_some_iff.2 (Or.inl ?_)) rfl rfl rfl (fun i x hx hne => ?_) unpaired
      · exact ⟨(Jobs.cancel_next _).symm, rfl⟩
      · rcases Jobs.launch_get_eq_some_iff.1 hx with ⟨rfl, -⟩ | hx
        · exact (hne (Jobs.cancel_next _)).elim
        · obtain ⟨y, hy, rfl⟩ := Jobs.cancel_get_eq_some_iff.1 hx
          obtain ⟨rfl, rfl⟩ := (only i y).1 hy
          rw [if_pos linkJob]
          exact ⟨linkJob, Jobs.lt_next hy, rfl, rfl, _, _, task⟩
    | restoring _ _ _ _ _ state | stopping _ _ _ _ _ _ state | paired _ _ state =>
      rw [state] at hstate
      cases hstate
    | idle none_runs state =>
      rcases state with (state | state) | state <;> rw [state] at hstate <;> cases hstate

end Phase

/-! ### Runs -/

/-- A phone where pairings follow each other properly. -/
structure PairInv (vm : GoffyViewModel) (es : List Event) : Prop where
  phase : Phase vm es
  later : ∀ e ∈ es, ∀ i, e.provider = some i →
    i < vm.jobs.next ∧ ∀ k x, vm.jobs.get k = some x → i ≤ k
  spares : AtEach SparesLater es

theorem Resumed.job_of_mem (h : Resumed vm j task vm' out) {e : Event} (he : e ∈ out) :
    e.job = some j ∨ e.job = none := by
  cases h with
  | moved moved => exact Or.inl (moved.out_local e he)
  | @linked link _ _ _ _ _ _ event =>
    rw [List.mem_singleton.1 he]
    cases link <;> first | exact Or.inr rfl | (cases task <;> cases event)
  | rotated | revoked => exact Or.inr (by rw [List.mem_singleton.1 he]; rfl)
  | left | failed | forgotten => cases he

theorem Resumed.get_of_get (h : Resumed vm j task vm' out) {i : ℕ} {x : Job LinkTask LinkPoint}
    (hx : vm'.jobs.get i = some x) : ∃ y, vm.jobs.get i = some y := by
  have htask := h.task_of_task (Jobs.task_eq_some hx)
  obtain ⟨y, hy, -⟩ := Option.map_eq_some_iff.1 htask
  exact ⟨y, hy⟩

theorem Resumed.next_eq (h : Resumed vm j task vm' out) : vm'.jobs.next = vm.jobs.next := by
  cases h with
  | moved moved =>
    obtain ⟨point, hjobs⟩ := moved.jobs
    rw [hjobs, Jobs.move_next]
  | left jobs | failed jobs | linked jobs | rotated jobs | forgotten jobs | revoked jobs =>
    rw [jobs, Jobs.finish_next]

namespace PairInv

/-- The oldest coroutine goes on: what it clears is not of a later one. -/
theorem resumed {x : Job LinkTask LinkPoint} (h : PairInv vm es) (hx : vm.jobs.get j = some x)
    (hblocking : x.cancelled = true → x.point.isBlocking = true)
    (hs : vm.resume j x.point outcome x.task = some (vm', out)) : PairInv vm' (es ++ out) := by
  obtain ⟨hphase, hleast⟩ := h.phase.resumed hx hblocking hs
  have hr := resumed_of_resume hs
  have hown {e : Event} (he : e ∈ out) {i : ℕ} (hi : e.job = some i) : i = j := by
    rcases hr.job_of_mem he with hj | hj
    · exact Option.some.inj (hi.symm.trans hj)
    · cases hi.symm.trans hj
  refine ⟨hphase, fun e he i hi => ?_, atEach_append h.spares fun pre e post hsplit => ?_⟩
  · rw [hr.next_eq]
    rcases List.mem_append.1 he with he | he
    · refine ⟨(h.later e he i hi).1, fun k y hy => ?_⟩
      obtain ⟨z, hz⟩ := hr.get_of_get hy
      exact (h.later e he i hi).2 k z hz
    · obtain rfl := hown he (Event.job_of_provider hi)
      refine ⟨Jobs.lt_next hx, fun k y hy => ?_⟩
      obtain ⟨z, hz⟩ := hr.get_of_get hy
      exact hleast k z hz
  · have he : e ∈ out := by simp [hsplit]
    have hbefore {i : ℕ} (hi : e.job = some i) :
        ∀ e' ∈ es ++ pre, ∀ k, e'.provider = some k → k ≤ i := by
      obtain rfl := hown he hi
      intro e' he' k hk
      rcases List.mem_append.1 he' with he' | he'
      · exact (h.later e' he' k hk).2 i x hx
      · exact (hown (by simp [hsplit, he']) (Event.job_of_provider hk)).le
    cases e with
    | cleared i => exact hbefore rfl
    | keyDeleted i => exact hbefore rfl
    | keyCreated _ | saved _ _ | restored _ | paired _ _ | rotated _ _ | forgot _ | revoked _ =>
      trivial

/-- A call launches a coroutine that is newer than all that was provided. -/
theorem called (h : PairInv vm es) (hphase : Phase vm' es) (hnext : vm.jobs.next ≤ vm'.jobs.next)
    (hget : ∀ i x, vm'.jobs.get i = some x → i = vm.jobs.next ∨ ∃ y, vm.jobs.get i = some y) :
    PairInv vm' es := by
  refine ⟨hphase, fun e he i hi => ⟨(h.later e he i hi).1.trans_le hnext, fun k x hx => ?_⟩,
    h.spares⟩
  rcases hget k x hx with rfl | ⟨y, hy⟩
  · exact (h.later e he i hi).1.le
  · exact (h.later e he i hi).2 k y hy

theorem pairHub (h : PairInv vm es) (endpoint : Except Str Str)
    (hok : PairHubAccepted vm (.pairHub endpoint) = true → NoneRuns LinkTask.isCleanUp vm) :
    PairInv (vm.pairHub endpoint) es := by
  have hphase := h.phase.pairHub endpoint hok
  unfold GoffyViewModel.pairHub at hphase ⊢
  split
  · exact h
  · rename_i hprogress
    rw [if_neg hprogress] at hphase
    split
    · rename_i hconfigured
      rw [if_pos hconfigured] at hphase
      exact h.called hphase le_rfl fun i x hx => Or.inr ⟨x, hx⟩
    · rename_i hconfigured
      rw [if_neg hconfigured] at hphase
      cases endpoint with
      | error message => exact h.called hphase le_rfl fun i x hx => Or.inr ⟨x, hx⟩
      | ok url =>
        refine h.called hphase (Nat.le_succ _) fun i x hx => ?_
        rcases Jobs.launch_get_eq_some_iff.1 hx with ⟨rfl, -⟩ | hx
        · exact Or.inl rfl
        · exact Or.inr ⟨x, hx⟩

theorem cancelForegroundPairing (h : PairInv vm es) : PairInv vm.cancelForegroundPairing es := by
  have hphase := h.phase.cancelForegroundPairing
  unfold GoffyViewModel.cancelForegroundPairing at hphase ⊢
  split
  · exact h
  · rename_i hpairing
    rw [if_neg hpairing] at hphase
    refine h.called hphase ?_ fun i x hx => ?_
    · simp [GoffyViewModel.launch]
    · rcases Jobs.launch_get_eq_some_iff.1 hx with ⟨rfl, -⟩ | hx
      · exact Or.inl (Jobs.cancel_next _)
      · obtain ⟨y, hy, -⟩ := Jobs.cancel_get_eq_some_iff.1 hx
        exact Or.inr ⟨y, hy⟩

theorem step {a : Action} (h : PairInv vm es) (hok : PairsAfterCleanUp vm es a)
    (hs : step vm a = some (vm', out)) : PairInv vm' (es ++ out) := by
  cases a with
  | pairHub endpoint =>
    simp only [HubLink.step, Option.some.injEq, Prod.mk.injEq] at hs
    obtain ⟨rfl, rfl⟩ := hs
    rw [List.append_nil]
    exact h.pairHub endpoint hok.2
  | configureHub _ _ | forgetHub | rotateHubCredential => cases hok.1
  | cancelForegroundPairing =>
    simp only [HubLink.step, Option.some.injEq, Prod.mk.injEq] at hs
    obtain ⟨rfl, rfl⟩ := hs
    rw [List.append_nil]
    exact h.cancelForegroundPairing
  | resume j outcome =>
    simp only [HubLink.step] at hs
    split at hs
    · cases hs
    case h_2 job hjob =>
      split at hs
      · cases hs
      case isFalse hgo => exact h.resumed hjob (fun hcancelled => by simpa [hcancelled] using hgo) hs
  | abort j =>
    simp only [HubLink.step] at hs
    split at hs
    · cases hs
    case h_2 job hjob =>
      split at hs
      case isTrue habort =>
        simp only [Option.some.injEq, Prod.mk.injEq] at hs
        obtain ⟨rfl, rfl⟩ := hs
        rw [List.append_nil]
        exact h.called (h.phase.aborted hjob habort.1) le_rfl fun i x hx =>
          Or.inr ⟨x, (Jobs.finish_get_eq_some_iff.1 hx).2⟩
      case isFalse => cases hs

theorem initial (defaultEndpoint deviceId : Str) (store : Option StoredHubCredential)
    (approvalKey : Bool) :
    PairInv (initial defaultEndpoint deviceId store approvalKey) [] := by
  refine ⟨?_, by simp, atEach_nil⟩
  exact .restoring 0 _ (Jobs.only_launch Jobs.empty_get _ _) rfl rfl rfl (by simp)

end PairInv

section Runs

variable {defaultEndpoint deviceId : Str} {store : Option StoredHubCredential} {approvalKey : Bool}

theorem pairInv_of_reaches (h : Reaches step PairsAfterCleanUp
      (initial defaultEndpoint deviceId store approvalKey) vm es) : PairInv vm es :=
  h.invariant (PairInv.initial _ _ _ _) fun _ _ _ _ _ hinv hok hs => hinv.step hok hs

/-- No clean-up takes anything from a later pairing, and a pairing that ended well has its credential
stored and its key present. -/
theorem clean_up_spares (h : Reaches step PairsAfterCleanUp
      (initial defaultEndpoint deviceId store approvalKey) vm es) :
    AtEach SparesLater es ∧ ∀ j c, .paired j c ∈ es →
      vm.uiState.hubLinkState = .paired ∧ vm.store = some c ∧ vm.approvalKey = true := by
  have hinv := pairInv_of_reaches h
  refine ⟨hinv.spares, fun j c hc => ?_⟩
  cases hinv.phase with
  | restoring _ _ _ _ _ _ unpaired | pairing _ _ _ _ _ _ _ _ _ unpaired
  | stopping _ _ _ _ _ _ _ _ unpaired | idle _ _ unpaired =>
    cases unpaired _ hc
  | paired c' _ state store approvalKey last =>
    obtain rfl := last j c hc
    exact ⟨state, store, approvalKey⟩

end Runs

/-- A phone that was never paired. -/
def newPhone : GoffyViewModel := initial (lit "wss://") (lit "p") none false

/-- What the Hub issues for `pairedCredential`. -/
def issuedCredential : IssuedHubCredential where
  credentialId := pairedCredential.credentialId
  accessToken := pairedCredential.accessToken
  createdAt := pairedCredential.createdAt
  hubIdentity := pairedCredential.hubIdentity

/-- A pairing from its key to its stored credential. -/
def pairActions (job : ℕ) : List Action :=
  [.resume job .returned, .resume job (.issued issuedCredential), .resume job .returned]

/-- A pairing is stopped, cleaned up, and a second one succeeds. -/
def pairAgainRun : List Action :=
  List.replicate 2 (.resume 0 .returned) ++
    [.pairHub (.ok pairedCredential.endpoint), .resume 1 .returned, .cancelForegroundPairing,
      .abort 1] ++
    List.replicate 4 (.resume 2 .returned) ++
    .pairHub (.ok pairedCredential.endpoint) :: pairActions 3 ++ [.resume 3 .returned]

theorem paired_after_clean_up : ∃ vm es, Reaches step PairsAfterCleanUp newPhone vm es ∧
    AtEach SparesLater es ∧ .cleared 2 ∈ es ∧ .paired 3 pairedCredential ∈ es ∧
      vm.uiState.hubLinkState = .paired ∧ vm.store = some pairedCredential ∧
      vm.approvalKey = true := by
  obtain ⟨vm, es, hrun, hcleared, hpaired⟩ : ∃ vm es, run step newPhone pairAgainRun =
      some (vm, es) ∧ .cleared 2 ∈ es ∧ .paired 3 pairedCredential ∈ es :=
    ⟨_, _, rfl, by decide, by decide⟩
  have hreach : Reaches step PairsAfterCleanUp newPhone vm es := reaches_of_run (by decide) hrun
  obtain ⟨hspares, hauthority⟩ := clean_up_spares hreach
  exact ⟨vm, es, hreach, hspares, hcleared, hpaired, hauthority 3 _ hpaired⟩

/-- The second pairing begins as soon as the first was stopped. Its credential is stored when the
clean-up goes on. -/
def pairTooEarlyRun : List Action :=
  List.replicate 2 (.resume 0 .returned) ++
    [.pairHub (.ok pairedCredential.endpoint), .resume 1 .returned, .cancelForegroundPairing,
      .abort 1, .pairHub (.ok pairedCredential.endpoint)] ++
    pairActions 3 ++ List.replicate 4 (.resume 2 .returned) ++ [.resume 3 .returned]

/-- The clean-up clears the store and deletes the key of the later pairing, and the phone shows a link
that has neither. -/
theorem paired_without_authority : ∃ vm es, Reaches step anyStep newPhone vm es ∧
    (∀ a ∈ pairTooEarlyRun, a.isPairing = true) ∧ ¬ AtEach SparesLater es ∧
      .paired 3 pairedCredential ∈ es ∧ vm.uiState.hubLinkState = .paired ∧ vm.store = none ∧
      vm.approvalKey = false := by
  obtain ⟨vm, hrun, hstate, hstore, hkey⟩ : ∃ vm, run step newPhone pairTooEarlyRun =
      some (vm, [.keyCreated 1, .keyCreated 3, .saved 3 pairedCredential] ++ .cleared 2 ::
        [.keyDeleted 2, .paired 3 pairedCredential]) ∧
      vm.uiState.hubLinkState = .paired ∧ vm.store = none ∧ vm.approvalKey = false :=
    ⟨_, rfl, rfl, rfl, rfl⟩
  refine ⟨vm, _, run_reaches hrun, by decide, fun hspares => ?_, by decide, hstate, hstore, hkey⟩
  have : 3 ≤ 2 := hspares _ _ _ rfl (.keyCreated 3) (by simp) 3 rfl
  omega

end GoffyPhone.HubLink
