import GoffyOs.Lib.Machine
import GoffyOs.Phone.HubGateway

/-!
# Invocations of the Hub over all orders of callbacks

* `Handled` says what one callback can do to the flags of its attempt; both results are read off it;
* `invocation_enqueued_at_most_once`: as long as `send` refuses no approval response of an attempt that
  may still be repeated (and takes no invocation on a socket that was closed for a retry), the
  invocation goes out at most once. `refused_response_repeats` is the run in which a refused approval
  response makes the gateway try again after the invocation went out;
* `final_failure_stands`: as long as only harmless messages come after it, the first final failure of
  an attempt is its outcome and the last word of the invocation. `verification_hides_failure` is a run
  in which it is not.
-/

namespace GoffyPhone

open Kotlin
open Python (UUID)

variable {γ : Type}

/-! ### One callback -/

/-- The invocation was enqueued. -/
def Effect.isInvocation : Effect γ → Bool
  | .send .invocation true => true
  | _ => false

/-- How often the invocation was enqueued. -/
def invocations (es : List (Effect γ)) : ℕ := es.countP Effect.isInvocation

@[simp] theorem invocations_append (es out : List (Effect γ)) :
    invocations (es ++ out) = invocations es + invocations out := List.countP_append

/-- What `send` returns, in a callback that may send. -/
def Callback.sent : Callback γ → Option Bool
  | .onOpen _ sent _ | .onText _ _ _ sent _ => some sent
  | _ => none

/-- The callbacks other than those of a closing or failed socket. -/
def Callback.isMessage : Callback γ → Bool
  | .onOpen _ _ _ | .onText _ _ _ _ _ | .onBytes _ => true
  | _ => false

/-- What a callback can do: nothing that counts, send the invocation, close the socket for some
outcome, pass on the last event, or end the attempt. -/
inductive Handled (callback : Callback γ) (s : Attempt) (next : Attempt × List (Effect γ)) : Prop
  | kept (hsent : next.1.invocationSent = s.invocationSent)
      (hclosing : next.1.closingOutcome = s.closingOutcome) (houtcome : next.1.outcome = s.outcome)
      (hout : invocations next.2 = 0)
  | enqueued (hcallback : callback.sent = some true) (hold : s.invocationSent = false)
      (hsent : next.1.invocationSent = true) (hclosing : next.1.closingOutcome = s.closingOutcome)
      (houtcome : next.1.outcome = s.outcome) (hout : invocations next.2 = 1)
  | closing (o : AttemptOutcome) (hcallback : callback.isMessage = true)
      (hretry : ∀ e, o = .retryableFailure e → callback.sent = some false)
      (hsent : next.1.invocationSent = s.invocationSent) (hclosing : next.1.closingOutcome = some o)
      (houtcome : next.1.outcome = s.outcome ∨ next.1.outcome = some (s.outcome.getD o))
      (hout : invocations next.2 = 0)
  | completed (hcallback : callback.isMessage = true)
      (hsent : next.1.invocationSent = s.invocationSent)
      (hclosing : next.1.closingOutcome = s.closingOutcome)
      (houtcome : next.1.outcome = some (s.outcome.getD .completed))
      (hout : invocations next.2 = 0)
  | ended (o : AttemptOutcome) (hsent : next.1.invocationSent = s.invocationSent)
      (hclosing : next.1.closingOutcome = s.closingOutcome)
      (houtcome : next.1.outcome = some (s.outcome.getD o))
      (ho : s.closingOutcome = some o ∨ s.closingOutcome = none ∧
        ∀ e, o = .retryableFailure e → s.invocationSent = false)
      (hout : invocations next.2 = 0)

section Callbacks

variable {request : ToolInvocationRequest} {signer : Option ApprovalProofSigner} {s : Attempt}
  {callback : Callback γ}

@[simp] theorem finish_invocationSent (s : Attempt) (o : AttemptOutcome) :
    (s.finish o).invocationSent = s.invocationSent := by
  unfold Attempt.finish
  split <;> rfl

@[simp] theorem finish_closingOutcome (s : Attempt) (o : AttemptOutcome) :
    (s.finish o).closingOutcome = s.closingOutcome := by
  unfold Attempt.finish
  split <;> rfl

@[simp] theorem finish_outcome (s : Attempt) (o : AttemptOutcome) :
    (s.finish o).outcome = some (s.outcome.getD o) := by
  unfold Attempt.finish
  cases h : s.outcome with
  | none => simp
  | some o' => simp [h]

/-- A close, after messages that are not the invocation. The flags of the discovery may have changed
before it. -/
theorem handled_closeWithOutcome {s' : Attempt} {status : ℕ} {o : AttemptOutcome} {closed : Bool}
    {done : List (Effect γ)} (hcallback : callback.isMessage = true)
    (hretry : ∀ e, o = .retryableFailure e → callback.sent = some false)
    (hsent : s'.invocationSent = s.invocationSent) (houtcome : s'.outcome = s.outcome)
    (hdone : invocations done = 0) :
    Handled callback s (Attempt.andThen done (s'.closeWithOutcome status o closed)) := by
  have hout : invocations (done ++ [.close status] : List (Effect γ)) = 0 := by
    rw [invocations_append, hdone]
    rfl
  cases closed with
  | true => exact .closing o hcallback hretry hsent rfl (Or.inl houtcome) hout
  | false =>
    refine .closing o hcallback hretry ?_ ?_ (Or.inr ?_) hout
    · exact (finish_invocationSent _ o).trans hsent
    · exact finish_closingOutcome _ o
    · rw [← houtcome]
      exact finish_outcome _ o

/-- A close for a final failure. -/
theorem handled_final {status : ℕ} {e : HubError} {closed : Bool}
    (hcallback : callback.isMessage = true) :
    Handled callback s (s.closeWithOutcome status (.finalFailure e) closed) :=
  handled_closeWithOutcome hcallback (fun _ h => by cases h) rfl rfl (by rfl : invocations [] = 0)

theorem handled_onOpen {now : ℤ} {sent closed : Bool} :
    Handled (.onOpen now sent closed : Callback γ) s (s.onOpen request now sent closed) := by
  unfold Attempt.onOpen
  split
  · exact handled_final rfl
  cases sent with
  | true => exact .kept rfl rfl rfl rfl
  | false => exact handled_closeWithOutcome rfl (fun _ _ => rfl) rfl rfl rfl

theorem handled_onDiscovery {text : Except String (HubText γ)} {now later : ℤ}
    {sent closed : Bool} (hold : s.invocationSent = false) :
    Handled (.onText text now later sent closed) s
      (s.onDiscovery request text now sent closed) := by
  unfold Attempt.onDiscovery
  split
  · exact handled_final rfl
  · exact handled_final rfl
  · exact handled_final rfl
  split
  · exact handled_final rfl
  cases sent with
  | true => exact .enqueued rfl hold rfl rfl rfl rfl
  | false => exact handled_closeWithOutcome rfl (fun _ _ => rfl) hold.symm rfl rfl

theorem handled_onApprovalRequest {text : Except String (HubText γ)} {approval : HubApprovalRequest}
    {now later : ℤ} {sent closed : Bool} :
    Handled (.onText text now later sent closed) s
      (s.onApprovalRequest request signer approval now later sent closed) := by
  unfold Attempt.onApprovalRequest
  split
  · exact handled_final rfl
  split
  · exact handled_final rfl
  split
  · exact handled_final rfl
  split
  · split
    · exact handled_final rfl
    split
    · exact handled_final rfl
    cases sent with
    | true => exact .kept rfl rfl rfl rfl
    | false => exact handled_closeWithOutcome rfl (fun _ _ => rfl) rfl rfl rfl
  · exact handled_final rfl

theorem handled_onEvent {event : ExecutionEvent γ} {closed : Bool}
    (hcallback : callback.isMessage = true) : Handled callback s (s.onEvent event closed) := by
  unfold Attempt.onEvent
  split
  · cases closed with
    | true => exact .kept rfl rfl rfl rfl
    | false =>
      refine .completed hcallback ?_ ?_ ?_ rfl
      · exact finish_invocationSent _ _
      · exact finish_closingOutcome _ _
      · exact finish_outcome _ _
  · exact .kept rfl rfl rfl rfl

/-- The end of an attempt. -/
theorem handled_finish {o : AttemptOutcome}
    (ho : s.closingOutcome = some o ∨ s.closingOutcome = none ∧
      ∀ e, o = .retryableFailure e → s.invocationSent = false) :
    Handled callback s (s.finish o, []) := by
  refine .ended o ?_ ?_ ?_ ho rfl
  · exact finish_invocationSent s o
  · exact finish_closingOutcome s o
  · exact finish_outcome s o

theorem handled_onClosed : Handled callback s (s.onClosed, []) := by
  unfold Attempt.onClosed
  cases hclosing : s.closingOutcome with
  | some o => exact handled_finish (Or.inl hclosing)
  | none =>
    dsimp only
    split
    · exact handled_finish (Or.inr ⟨hclosing, fun _ h => by cases h⟩)
    split
    · next hsent => exact handled_finish (Or.inr ⟨hclosing, fun _ _ => by simpa using hsent⟩)
    · exact handled_finish (Or.inr ⟨hclosing, fun _ h => by cases h⟩)

theorem handled_onFailure {response : Option ℕ} : Handled callback s (s.onFailure response, []) := by
  unfold Attempt.onFailure
  cases hclosing : s.closingOutcome with
  | some o => exact handled_finish (Or.inl hclosing)
  | none =>
    dsimp only
    split
    · exact handled_finish (Or.inr ⟨hclosing, fun _ h => by cases h⟩)
    split
    · split
      · exact handled_finish (Or.inr ⟨hclosing, fun _ h => by cases h⟩)
      · exact handled_finish (Or.inr ⟨hclosing, fun _ h => by cases h⟩)
    split
    · next hsent => exact handled_finish (Or.inr ⟨hclosing, fun _ _ => by simpa using hsent⟩)
    · exact handled_finish (Or.inr ⟨hclosing, fun _ h => by cases h⟩)

/-- **What one callback can do.** -/
theorem handled_handle : Handled callback s (s.handle request signer callback) := by
  cases callback with
  | onOpen now sent closed => exact handled_onOpen
  | onText text now later sent closed =>
    simp only [Attempt.handle, Attempt.onText]
    split
    · next hold => exact handled_onDiscovery (by simpa using hold)
    split
    · exact handled_final rfl
    · exact handled_onApprovalRequest
    split
    · exact handled_final rfl
    · exact handled_onEvent rfl
  | onBytes closed => exact handled_final rfl
  | onClosing code => exact .kept rfl rfl rfl rfl
  | onClosed => exact handled_onClosed
  | onFailure response => exact handled_onFailure

end Callbacks

/-! ### One step of an invocation -/

/-- What `runInvocation` emits for the outcome of its last attempt. -/
def AttemptOutcome.emission : AttemptOutcome → List (Effect γ)
  | .completed => []
  | .retryableFailure error | .finalFailure error => [.emit error.event]

@[simp] theorem invocations_emission (o : AttemptOutcome) :
    invocations (o.emission : List (Effect γ)) = 0 := by
  cases o <;> rfl

/-- What a step can do. -/
inductive Stepped (request : ToolInvocationRequest) (signer : Option ApprovalProofSigner)
    (s : Invocation) : GatewayAction γ → Invocation → List (Effect γ) → Prop
  | refused {gatewayClosed : Bool} {now : ℤ} {connection : Connection} {out : List (Effect γ)}
      (hended : s.ended = false) (hhead : s.atLoopHead = true) (hout : invocations out = 0) :
      Stepped request signer s (.start gatewayClosed now connection) { s with ended := true } out
  | started {gatewayClosed : Bool} {now : ℤ} {connection : Connection} {n : Int32}
      (hended : s.ended = false) (hhead : s.atLoopHead = true) :
      Stepped request signer s (.start gatewayClosed now connection)
        { s with attempts := s.attempts ++ [Attempt.connect connection] } [.emit (.starting n)]
  | callback {socket : ℕ} {c : Callback γ} {a : Attempt} (ha : s.attempts[socket]? = some a) :
      Stepped request signer s (.callback socket c)
        { s with attempts := s.attempts.set socket (a.handle request signer c).1 }
        (a.handle request signer c).2
  | timedOut (hended : s.ended = false) : Stepped request signer s .timeout
      { s with ended := true } [.emit Invocation.timeoutError.event]
  | passedOn {o : AttemptOutcome} (hended : s.ended = false) (ho : s.outcome = some o) :
      Stepped request signer s .resume { s with ended := true } o.emission
  | cancelled : Stepped request signer s .cancel { s with ended := true } []

section Invocations

variable {request : ToolInvocationRequest} {signer : Option ApprovalProofSigner} {s s' : Invocation}
  {es out : List (Effect γ)} {action : GatewayAction γ}

theorem stepped_of_step (h : s.step request signer action = some (s', out)) :
    Stepped request signer s action s' out := by
  cases action with
  | start gatewayClosed now connection =>
    simp only [Invocation.step] at h
    split at h
    · cases h
    next hguard =>
    simp only [Bool.or_eq_true, Bool.not_eq_true', not_or, Bool.not_eq_true,
      Bool.not_eq_false] at hguard
    obtain ⟨hended, hhead⟩ := hguard
    split at h
    · cases h
      exact .refused hended hhead rfl
    split at h
    · cases h
      exact .refused hended hhead rfl
    · cases h
      exact .started hended hhead
  | callback socket callback =>
    simp only [Invocation.step] at h
    split at h
    · cases h
    · next a ha =>
      cases h
      exact .callback ha
  | timeout =>
    simp only [Invocation.step] at h
    split at h
    · cases h
    next hguard =>
    simp only [Bool.or_eq_true, not_or, Bool.not_eq_true] at hguard
    cases h
    exact .timedOut hguard.1
  | resume =>
    simp only [Invocation.step] at h
    split at h
    · cases h
    next hended =>
    rw [Bool.not_eq_true] at hended
    split at h
    · cases h
    · next ho =>
      cases h
      exact .passedOn hended ho
    · next e ho =>
      cases h
      exact .passedOn hended ho
    · next e ho =>
      split at h
      · cases h
        exact .passedOn hended ho
      · cases h
  | cancel =>
    cases h
    exact .cancelled

/-- The last attempt after one attempt was written. -/
theorem getLast?_set {l : List Attempt} {i : ℕ} {a b : Attempt} (ha : l[i]? = some a) :
    (l.set i b).getLast? = if i + 1 = l.length then some b else l.getLast? := by
  have hi : i < l.length := (List.getElem?_eq_some_iff.1 ha).1
  rw [List.getLast?_eq_getElem?, List.getLast?_eq_getElem?, List.length_set, List.getElem?_set]
  by_cases h : i + 1 = l.length
  · have hi' : i = l.length - 1 := by omega
    rw [if_pos h, if_pos hi', if_pos hi]
  · have hi' : i ≠ l.length - 1 := by omega
    rw [if_neg h, if_neg hi']

/-- At the head of the loop the last attempt may be repeated. -/
theorem atLoopHead_last {a : Attempt} (h : s.atLoopHead = true)
    (ha : s.attempts.getLast? = some a) :
    s.attempts.length < maxAttempts ∧ ∃ e, a.outcome = some (.retryableFailure e) := by
  unfold Invocation.atLoopHead at h
  rw [ha] at h
  dsimp only at h
  split at h
  · next e he => exact ⟨by simpa using h, e, he⟩
  · cases h

/-! ### The invocation goes out at most once -/

/-- The attempt was, or will be, ended by a failure after which the gateway tries again. -/
def Attempt.mayRepeat (a : Attempt) : Bool :=
  match a.outcome <|> a.closingOutcome with
  | some (.retryableFailure _) => true
  | _ => false

/-- The results of `send` that do no harm. A socket that was closed for a retry takes no invocation
any more, and an approval response is refused only when no further attempt can follow. -/
def FitsSend (s : Invocation) (_ : List (Effect γ)) : GatewayAction γ → Prop
  | .callback socket callback => ∀ a ∈ s.attempts[socket]?,
      (a.invocationSent = false → a.mayRepeat = true → callback.sent ≠ some true) ∧
      (a.invocationSent = true → a.outcome = none → s.ended = false →
        s.attempts.length < maxAttempts → callback.sent ≠ some false)
  | _ => True

instance (s : Invocation) (es : List (Effect γ)) (action : GatewayAction γ) :
    Decidable (FitsSend s es action) :=
  match action with
  | .callback _ _ => inferInstanceAs (Decidable (∀ a ∈ _, _))
  | .start _ _ _ | .timeout | .resume | .cancel => isTrue trivial

theorem mayRepeat_eq_false_iff {a : Attempt} :
    a.mayRepeat = false ↔ ∀ e, (a.outcome <|> a.closingOutcome) ≠ some (.retryableFailure e) := by
  unfold Attempt.mayRepeat
  split
  · next e he => simp [he]
  · next hne => simp only [true_iff]; exact hne

theorem mayRepeat_of_outcome {a : Attempt} {e : HubError}
    (h : a.outcome = some (.retryableFailure e)) : a.mayRepeat = true := by
  simp [Attempt.mayRepeat, h]

/-- An outcome is not changed. -/
theorem outcome_of_handled {c : Callback γ} {a : Attempt} {next : Attempt × List (Effect γ)}
    {o : AttemptOutcome} (h : Handled c a next) (ho : a.outcome = some o) :
    next.1.outcome = some o := by
  cases h with
  | kept _ _ houtcome _ => rw [houtcome, ho]
  | enqueued _ _ _ _ houtcome _ => rw [houtcome, ho]
  | closing _ _ _ _ _ houtcome _ =>
    rcases houtcome with h | h
    · rw [h, ho]
    · rw [h, ho, Option.getD_some]
  | completed _ _ _ houtcome _ => rw [houtcome, ho, Option.getD_some]
  | ended _ _ _ houtcome _ _ => rw [houtcome, ho, Option.getD_some]

/-- A callback enqueues the invocation and sets the flag, or does neither. -/
theorem sent_of_handled {c : Callback γ} {a : Attempt} {next : Attempt × List (Effect γ)}
    (h : Handled c a next) :
    (next.1.invocationSent = a.invocationSent ∧ invocations next.2 = 0) ∨
    (a.invocationSent = false ∧ c.sent = some true ∧ next.1.invocationSent = true ∧
      invocations next.2 = 1) := by
  cases h with
  | kept hsent _ _ hout => exact Or.inl ⟨hsent, hout⟩
  | enqueued hcallback hold hsent _ _ hout => exact Or.inr ⟨hold, hcallback, hsent, hout⟩
  | closing _ _ _ hsent _ _ hout => exact Or.inl ⟨hsent, hout⟩
  | completed _ hsent _ _ hout => exact Or.inl ⟨hsent, hout⟩
  | ended _ hsent _ _ _ hout => exact Or.inl ⟨hsent, hout⟩

/-- An attempt that sent the invocation does not become one that is repeated. -/
theorem mayRepeat_of_handled {c : Callback γ} {a : Attempt} {next : Attempt × List (Effect γ)}
    (h : Handled c a next) (hsent : next.1.invocationSent = true)
    (hold : a.invocationSent = true → a.mayRepeat = false)
    (hfree : a.invocationSent = false → a.mayRepeat = true → c.sent ≠ some true)
    (hanswer : a.invocationSent = true → a.outcome = none → c.sent ≠ some false) :
    next.1.mayRepeat = false := by
  cases h with
  | kept hsent' hclosing houtcome _ =>
    rw [hsent'] at hsent
    have := hold hsent
    simpa only [Attempt.mayRepeat, hclosing, houtcome] using this
  | enqueued hcallback hnot _ hclosing houtcome _ =>
    have : a.mayRepeat = false := by
      rw [← Bool.not_eq_true]
      exact fun hrepeat => hfree hnot hrepeat hcallback
    simpa only [Attempt.mayRepeat, hclosing, houtcome] using this
  | closing o _ hretry hsent' hclosing houtcome _ =>
    rw [hsent'] at hsent
    rw [mayRepeat_eq_false_iff]
    intro e he
    cases hbefore : a.outcome with
    | some o' =>
      have hafter : next.1.outcome = some o' := by simpa [hbefore] using houtcome
      refine mayRepeat_eq_false_iff.1 (hold hsent) e ?_
      simpa [hbefore, hafter] using he
    | none =>
      -- the verdict is the new one, and a failure to send is not allowed here
      have ho : o = .retryableFailure e := by
        rcases houtcome with h | h
        · simpa [h, hbefore, hclosing] using he
        · simpa [h, hbefore] using he
      exact hanswer hsent hbefore (hretry e ho)
  | completed _ hsent' hclosing houtcome _ =>
    rw [hsent'] at hsent
    rw [mayRepeat_eq_false_iff]
    intro e he
    refine mayRepeat_eq_false_iff.1 (hold hsent) e ?_
    cases hbefore : a.outcome with
    | some o' => simpa [houtcome, hbefore] using he
    | none => simp [houtcome, hbefore] at he
  | ended o hsent' hclosing houtcome ho _ =>
    rw [hsent'] at hsent
    rw [mayRepeat_eq_false_iff]
    intro e he
    refine mayRepeat_eq_false_iff.1 (hold hsent) e ?_
    cases hbefore : a.outcome with
    | some o' => simpa [houtcome, hbefore] using he
    | none =>
      have hretry : o = .retryableFailure e := by simpa [houtcome, hbefore] using he
      rcases ho with ho | ⟨_, ho⟩
      · simp [ho, hretry]
      · rw [ho e hretry] at hsent
        cases hsent

/-- Only the last attempt has sent the invocation, as often as it was enqueued, and an attempt that
has sent it is not repeated. -/
structure SentOnce (s : Invocation) (es : List (Effect γ)) : Prop where
  count : invocations es = (s.attempts.getLast?.any (·.invocationSent)).toNat
  older : ∀ i a, s.attempts[i]? = some a → i + 1 < s.attempts.length →
    a.invocationSent = false ∧ ∃ e, a.outcome = some (.retryableFailure e)
  last : s.ended = false → s.attempts.length < maxAttempts → ∀ a, s.attempts.getLast? = some a →
    a.invocationSent = true → a.mayRepeat = false

theorem sentOnce_end (h : SentOnce s es) (hout : invocations out = 0) :
    SentOnce { s with ended := true } (es ++ out) where
  count := by
    rw [invocations_append, hout, Nat.add_zero]
    exact h.count
  older := h.older
  last := fun hended => by cases hended

theorem sentOnce_start {n : Int32} {connection : Connection} (h : SentOnce s es)
    (hended : s.ended = false) (hhead : s.atLoopHead = true) :
    SentOnce { s with attempts := s.attempts ++ [Attempt.connect connection] }
      (es ++ [.emit (.starting n)]) := by
  have hnew : (Attempt.connect connection).invocationSent = false := by
    cases connection <;> rfl
  -- the attempt that is repeated has not sent the invocation
  have hlast : ∀ a, s.attempts.getLast? = some a → a.invocationSent = false ∧
      ∃ e, a.outcome = some (.retryableFailure e) := by
    intro a ha
    obtain ⟨hlength, e, he⟩ := atLoopHead_last hhead ha
    refine ⟨?_, e, he⟩
    rw [← Bool.not_eq_true]
    intro hsent
    have := h.last hended hlength a ha hsent
    rw [mayRepeat_of_outcome he] at this
    cases this
  refine ⟨?_, ?_, ?_⟩
  · have hzero : invocations es = 0 := by
      rw [h.count]
      cases ha : s.attempts.getLast? with
      | none => rfl
      | some a => simp [(hlast a ha).1]
    rw [invocations_append, hzero]
    simp only [List.getLast?_append, List.getLast?_singleton, Option.some_or, Option.any_some, hnew]
    rfl
  · intro i a ha hi
    rw [List.length_append, List.length_singleton] at hi
    have hlt : i < s.attempts.length := by omega
    replace ha : s.attempts[i]? = some a := by
      rwa [List.getElem?_append_left hlt] at ha
    by_cases hi' : i + 1 < s.attempts.length
    · exact h.older i a ha hi'
    · have : i = s.attempts.length - 1 := by omega
      refine hlast a ?_
      rw [List.getLast?_eq_getElem?, ← this]
      exact ha
  · intro _ _ a ha hsent
    simp only [List.getLast?_append, List.getLast?_singleton, Option.some_or,
      Option.some.injEq] at ha
    rw [← ha, hnew] at hsent
    cases hsent

/-- A callback of a socket whose attempt is over. -/
theorem sentOnce_late {socket : ℕ} {c : Callback γ} {a : Attempt} {next : Attempt × List (Effect γ)}
    (h : SentOnce s es) (ha : s.attempts[socket]? = some a) (hlt : socket + 1 < s.attempts.length)
    (hfits : FitsSend s es (.callback socket c)) (hhandled : Handled c a next) :
    SentOnce { s with attempts := s.attempts.set socket next.1 } (es ++ next.2) := by
  obtain ⟨hsent, e, he⟩ := h.older socket a ha hlt
  have hnext : next.1.invocationSent = false ∧ invocations next.2 = 0 := by
    rcases sent_of_handled hhandled with ⟨hsame, hout⟩ | ⟨_, hcallback, _, _⟩
    · exact ⟨hsame.trans hsent, hout⟩
    · exact ((hfits a ha).1 hsent (mayRepeat_of_outcome he) hcallback).elim
  have hlast : (s.attempts.set socket next.1).getLast? = s.attempts.getLast? := by
    rw [getLast?_set ha, if_neg (by omega)]
  refine ⟨?_, ?_, ?_⟩
  · rw [invocations_append, hnext.2, h.count]
    simp only [hlast, Nat.add_zero]
  · intro i b hb hi
    simp only [List.length_set] at hi
    rw [List.getElem?_set] at hb
    by_cases hsocket : socket = i
    · rw [if_pos hsocket, if_pos (by omega)] at hb
      cases hb
      exact ⟨hnext.1, e, outcome_of_handled hhandled he⟩
    · rw [if_neg hsocket] at hb
      exact h.older i b hb hi
  · intro hended hlength b hb
    simp only [List.length_set] at hlength
    rw [hlast] at hb
    exact h.last hended hlength b hb

/-- A callback of the current socket. -/
theorem sentOnce_current {socket : ℕ} {c : Callback γ} {a : Attempt}
    {next : Attempt × List (Effect γ)} (h : SentOnce s es) (ha : s.attempts[socket]? = some a)
    (hlt : socket + 1 = s.attempts.length) (hfits : FitsSend s es (.callback socket c))
    (hhandled : Handled c a next) :
    SentOnce { s with attempts := s.attempts.set socket next.1 } (es ++ next.2) := by
  obtain ⟨hfree, hanswer⟩ := hfits a ha
  have hbefore : s.attempts.getLast? = some a := by
    rw [List.getLast?_eq_getElem?, ← hlt, Nat.add_sub_cancel]
    exact ha
  have hlast : (s.attempts.set socket next.1).getLast? = some next.1 := by
    rw [getLast?_set ha, if_pos hlt]
  refine ⟨?_, ?_, ?_⟩
  · rw [invocations_append, h.count, hbefore]
    simp only [hlast, Option.any_some]
    rcases sent_of_handled hhandled with ⟨hsame, hout⟩ | ⟨hold, _, hsent, hout⟩
    · rw [hsame, hout, Nat.add_zero]
    · rw [hold, hsent, hout]
      rfl
  · intro i b hb hi
    simp only [List.length_set] at hi
    rw [List.getElem?_set, if_neg (by omega)] at hb
    exact h.older i b hb hi
  · intro hended hlength b hb hsent
    simp only [List.length_set] at hlength
    rw [hlast] at hb
    cases hb
    exact mayRepeat_of_handled hhandled hsent (h.last hended hlength a hbefore) hfree
      fun hold hnone => hanswer hold hnone hended hlength

theorem sentOnce_step (h : SentOnce s es) (hfits : FitsSend s es action)
    (hs : s.step request signer action = some (s', out)) : SentOnce s' (es ++ out) := by
  cases stepped_of_step hs with
  | refused _ _ hout => exact sentOnce_end h hout
  | started hended hhead => exact sentOnce_start h hended hhead
  | @callback socket c a ha =>
    have hlt : socket < s.attempts.length := (List.getElem?_eq_some_iff.1 ha).1
    by_cases hlast : socket + 1 = s.attempts.length
    · exact sentOnce_current h ha hlast hfits handled_handle
    · exact sentOnce_late h ha (by omega) hfits handled_handle
  | timedOut _ => exact sentOnce_end h rfl
  | @passedOn o _ _ => exact sentOnce_end h (invocations_emission o)
  | cancelled => exact sentOnce_end h rfl

/-- **The invocation is enqueued at most once**, in every run whose `send`s fit. -/
theorem invocation_enqueued_at_most_once
    (h : Machine.Reaches (Invocation.step request signer) FitsSend {} s es) :
    invocations es ≤ 1 := by
  have hinv : SentOnce s es := by
    refine h.invariant ⟨rfl, ?_, ?_⟩ ?_
    · intro i a ha
      simp at ha
    · intro _ _ a ha
      cases ha
    · intro s es action s' out hs hfits hstep
      exact sentOnce_step hs hfits hstep
  rw [hinv.count]
  exact Bool.toNat_le _

section Example

/-- An approved invocation. -/
def approvedRequest : ToolInvocationRequest where
  messageId := 5
  toolName := lit "mac.apps.open"
  discoveryMessageId := 6
  expiresAtEpochMillis := some 61000
  deviceId := lit "moto"
  approvedTaskId := some 1
  approvedCredentialId := some 7
  approvedArgumentsSha256 := some (List.replicate 64 0x61)

/-- The Hub's request to approve it. -/
def approvalOfRequest : HubApprovalRequest where
  approvalId := 9
  taskId := 1
  toolName := lit "mac.apps.open"
  argumentsSha256 := List.replicate 64 0x61
  issuedAtEpochMillis := 1000
  expiresAtEpochMillis := 61000

def deviceSigner : ApprovalProofSigner := fun _ =>
  some ⟨lit "ECDSA_P256_SHA256", List.replicate 64 0x61, List.replicate 64 0x41⟩

/-- An attempt up to the invocation. -/
def invokedOn (socket : ℕ) : List (GatewayAction ContentType) :=
  [.start false 1000 .opened,
    .callback socket (.onOpen 1000 true true),
    .callback socket (.onText (.ok ⟨6, .capabilityDiscoveryResponse
      (some (lit "mac.apps.open", true))⟩) 1000 1000 true true)]

/-- The first attempt fails before its discovery is answered. The second one sends the invocation,
answers the approval request and passes the result on. -/
def retriedRun : List (GatewayAction ContentType) :=
  [.start false 1000 .opened, .callback 0 (.onOpen 1000 true true), .callback 0 (.onFailure none)] ++
    invokedOn 1 ++
  [.callback 1 (.onText (.ok ⟨5, .approvalRequest approvalOfRequest⟩) 1000 1000 true true),
    .callback 1 (.onText (.ok ⟨5, .toolEvent none (.verification true (lit "done") [])⟩)
      1000 1000 true true),
    .callback 1 .onClosed, .resume]

def Effect.isApprovalResponse : Effect γ → Bool
  | .send (.approvalResponse _) true => true
  | _ => false

theorem approved_enqueued_once : ∃ s es,
    Machine.Reaches (Invocation.step approvedRequest (some deviceSigner)) FitsSend {} s es ∧
    s.ended = true ∧ s.attempts.length = 2 ∧
    (es : List (Effect ContentType)).countP Effect.isApprovalResponse = 1 ∧
    invocations es = 1 ∧ invocations es ≤ 1 := by
  have hrun : Machine.run (Invocation.step approvedRequest (some deviceSigner)) {} retriedRun =
      some (_, _) := rfl
  have hok : Machine.Allowed (Invocation.step approvedRequest (some deviceSigner)) FitsSend {} []
      retriedRun := by decide +kernel
  have hreach := Machine.reaches_of_run hok hrun
  exact ⟨_, _, hreach, rfl, rfl, rfl, rfl, invocation_enqueued_at_most_once hreach⟩

/-- The socket fails while the approval request is answered: `send` and `close` refuse, the attempt
counts as one that may be repeated, and the next one sends the invocation again. -/
def refusedResponse : List (GatewayAction ContentType) :=
  invokedOn 0 ++ .callback 0 (.onText (.ok ⟨5, .approvalRequest approvalOfRequest⟩)
    1000 1000 false false) :: invokedOn 1

theorem refused_response_repeats : ∃ s es,
    Machine.Reaches (Invocation.step approvedRequest (some deviceSigner)) Machine.anyStep {} s es ∧
    invocations (es : List (Effect ContentType)) = 2 := by
  have hrun : Machine.run (Invocation.step approvedRequest (some deviceSigner)) {}
      refusedResponse = some (_, _) := rfl
  exact ⟨_, _, Machine.run_reaches hrun, rfl⟩

end Example

/-! ### A final failure stands -/

/-- The final failure for which the socket was closed. -/
def Attempt.failure (a : Attempt) : Option HubError :=
  match a.closingOutcome with
  | some (.finalFailure e) => some e
  | _ => none

/-- The message is not one that the protocol allows here. -/
def Attempt.malformed (request : ToolInvocationRequest) (a : Attempt) : Callback γ → Bool
  | .onBytes _ => true
  | .onText text _ _ _ _ =>
    if !a.invocationSent then
      (decodeCapabilityDiscovery text request.discoveryMessageId request.toolName).toOption.isNone
    else match decodeApprovalRequestOrNull text request with
      | .error _ => true
      | .ok (some _) => false
      | .ok none => (decodeEvent text request.messageId request.toolName).toOption.isNone
  | _ => false

/-- The message brings an event of the tool, and the last one only with a `close` that is taken. -/
def Attempt.passesEvent (request : ToolInvocationRequest) (a : Attempt) : Callback γ → Bool
  | .onText text _ _ _ closed =>
    a.invocationSent && match decodeApprovalRequestOrNull text request with
      | .ok none =>
        match decodeEvent text request.messageId request.toolName with
        | .ok event => !endsTool event || closed
        | .error _ => false
      | _ => false
  | _ => false

/-- The steps that leave a final failure alone. A message comes while nothing is decided yet, or it
passes on an event, or it repeats the protocol failure; and the invocation is not cut off between a
final failure and its report. -/
def FitsClosing (request : ToolInvocationRequest) (s : Invocation) : GatewayAction γ → Prop
  | .callback socket callback => ∀ a ∈ s.attempts[socket]?, callback.isMessage = true →
      (s.ended = false ∧ a.outcome = none ∧ a.failure = none) ∨
      a.passesEvent request callback = true ∨
      (a.failure = some protocolError ∧ a.malformed request callback = true)
  | .timeout | .cancel => s.ended = false → ∀ a ∈ s.attempts, a.failure = none
  | _ => True

instance (s : Invocation) (action : GatewayAction γ) :
    Decidable (FitsClosing request s action) :=
  match action with
  | .callback _ _ => inferInstanceAs (Decidable (∀ a ∈ _, _))
  | .timeout | .cancel => inferInstanceAs (Decidable (_ → ∀ a ∈ _, _))
  | .start _ _ _ | .resume => isTrue trivial

theorem failure_eq_some_iff {a : Attempt} {e : HubError} :
    a.failure = some e ↔ a.closingOutcome = some (.finalFailure e) := by
  unfold Attempt.failure
  split
  · next e' he => simp [he]
  · next hne =>
    constructor
    · intro h
      cases h
    · intro h
      exact (hne e h).elim

theorem failure_congr {a b : Attempt} (h : b.closingOutcome = a.closingOutcome) :
    b.failure = a.failure := by
  unfold Attempt.failure
  rw [h]

/-- A malformed message closes the socket for a protocol failure. -/
theorem handle_malformed (signer : Option ApprovalProofSigner) {a : Attempt} {c : Callback γ}
    (h : a.malformed request c = true) :
    ∃ closed, a.handle request signer c = a.closeWithProtocolFailure closed := by
  cases c with
  | onBytes closed => exact ⟨closed, rfl⟩
  | onText text now later sent closed =>
    refine ⟨closed, ?_⟩
    simp only [Attempt.malformed] at h
    simp only [Attempt.handle, Attempt.onText]
    split at h
    · next hsent =>
      rw [if_pos hsent]
      unfold Attempt.onDiscovery
      cases hdecode : decodeCapabilityDiscovery text request.discoveryMessageId
        request.toolName with
      | error _ => rfl
      | ok _ => simp [hdecode, Except.toOption] at h
    · next hsent =>
      rw [if_neg hsent]
      cases happroval : decodeApprovalRequestOrNull text request with
      | error _ => rfl
      | ok approval =>
        rw [happroval] at h
        cases approval with
        | some _ => cases h
        | none =>
          cases hevent : decodeEvent text request.messageId request.toolName with
          | error _ => simp only
          | ok _ => simp [hevent, Except.toOption] at h
  | onOpen _ _ _ => cases h
  | onClosing _ => cases h
  | onClosed => cases h
  | onFailure _ => cases h

/-- An event that is passed on decides nothing. -/
theorem handle_passesEvent (signer : Option ApprovalProofSigner) {a : Attempt} {c : Callback γ}
    (h : a.passesEvent request c = true) :
    (a.handle request signer c).1.closingOutcome = a.closingOutcome ∧
      (a.handle request signer c).1.outcome = a.outcome := by
  cases c with
  | onText text now later sent closed =>
    simp only [Attempt.passesEvent, Bool.and_eq_true] at h
    obtain ⟨hsent, h⟩ := h
    split at h
    · next happroval =>
      split at h
      · next event hevent =>
        simp only [Attempt.handle, Attempt.onText, hsent, Bool.not_true, Bool.false_eq_true,
          if_false, happroval, hevent, Attempt.onEvent]
        split
        · next hends =>
          rw [hends] at h
          have hclosed : closed = true := by simpa using h
          rw [if_pos hclosed]
          exact ⟨rfl, rfl⟩
        · exact ⟨rfl, rfl⟩
      · cases h
    · cases h
  | onOpen _ _ _ => cases h
  | onBytes _ => cases h
  | onClosing _ => cases h
  | onClosed => cases h
  | onFailure _ => cases h

/-- The attempt has no other outcome than the final failure for which its socket was closed. -/
def Attempt.Decided (a : Attempt) : Prop :=
  ∀ e, a.failure = some e → a.outcome = none ∨ a.outcome = some (.finalFailure e)

/-- What a fitting callback does to the final failure of its attempt: it stands, and a new one comes
only while the attempt is undecided. -/
structure Keeps (s : Invocation) (a b : Attempt) : Prop where
  keeps : ∀ e, a.failure = some e → b.failure = some e
  decided : a.Decided → b.Decided
  fresh : a.failure = none → b.failure ≠ none → s.ended = false ∧ a.outcome = none

theorem keeps_of_eq {a b : Attempt} (hclosing : b.closingOutcome = a.closingOutcome)
    (houtcome : b.outcome = a.outcome) : Keeps s a b where
  keeps e he := by rwa [failure_congr hclosing]
  decided ha e he := by
    rw [failure_congr hclosing] at he
    rw [houtcome]
    exact ha e he
  fresh hnone hsome := by
    rw [failure_congr hclosing] at hsome
    exact (hsome hnone).elim

/-- The socket is closed. -/
theorem keeps_over {a b : Attempt} {o : AttemptOutcome}
    (hclosing : b.closingOutcome = a.closingOutcome)
    (houtcome : b.outcome = some (a.outcome.getD o))
    (ho : a.closingOutcome = some o ∨ a.closingOutcome = none) : Keeps s a b where
  keeps e he := by rwa [failure_congr hclosing]
  decided ha e he := by
    rw [failure_congr hclosing] at he
    right
    rcases ha e he with hnone | hsome
    · rw [failure_eq_some_iff] at he
      rcases ho with ho | ho
      · rw [houtcome, hnone, Option.getD_none, ← ho, he]
      · rw [ho] at he
        cases he
    · rw [houtcome, hsome, Option.getD_some]
  fresh hnone hsome := by
    rw [failure_congr hclosing] at hsome
    exact (hsome hnone).elim

/-- A message while nothing is decided. -/
theorem keeps_fresh {a : Attempt} {c : Callback γ} {next : Attempt × List (Effect γ)}
    (h : Handled c a next) (hended : s.ended = false) (houtcome : a.outcome = none)
    (hfailure : a.failure = none) : Keeps s a next.1 where
  keeps e he := by
    rw [hfailure] at he
    cases he
  decided _ e he := by
    have hnew : next.1.closingOutcome = a.closingOutcome → False := by
      intro hsame
      rw [failure_congr hsame, hfailure] at he
      cases he
    cases h with
    | kept _ hclosing _ _ => exact (hnew hclosing).elim
    | enqueued _ _ _ hclosing _ _ => exact (hnew hclosing).elim
    | closing o _ _ _ hclosing hnext _ =>
      rw [failure_eq_some_iff, hclosing, Option.some.injEq] at he
      rw [houtcome, he] at hnext
      exact hnext
    | completed _ _ hclosing _ _ => exact (hnew hclosing).elim
    | ended _ _ hclosing _ _ _ => exact (hnew hclosing).elim
  fresh _ _ := ⟨hended, houtcome⟩

/-- The protocol failure is repeated. -/
theorem keeps_repeated {a : Attempt} {closed : Bool} (hfailure : a.failure = some protocolError) :
    Keeps s a (a.closeWithProtocolFailure (γ := γ) closed).1 := by
  have hclosing : (a.closeWithProtocolFailure (γ := γ) closed).1.closingOutcome =
      some (.finalFailure protocolError) := by
    cases closed with
    | true => rfl
    | false => exact finish_closingOutcome _ _
  have hsame := hclosing.trans (failure_eq_some_iff.1 hfailure).symm
  cases closed with
  | true => exact keeps_of_eq hsame rfl
  | false => exact keeps_over hsame (finish_outcome _ _) (Or.inl (failure_eq_some_iff.1 hfailure))

theorem sent_isMessage {c : Callback γ} {sent : Bool} (h : c.sent = some sent) :
    c.isMessage = true := by
  cases c with
  | onOpen _ _ _ => rfl
  | onText _ _ _ _ _ => rfl
  | onBytes _ => rfl
  | onClosing _ => cases h
  | onClosed => cases h
  | onFailure _ => cases h

/-- **What a fitting callback does to a final failure.** -/
theorem keeps_handle {socket : ℕ} {c : Callback γ} {a : Attempt}
    (ha : s.attempts[socket]? = some a) (hfits : FitsClosing request s (.callback socket c)) :
    Keeps s a (a.handle request signer c).1 := by
  by_cases hmessage : c.isMessage = true
  · rcases hfits a ha hmessage with ⟨hended, houtcome, hfailure⟩ | hevent | ⟨hfailure, hmalformed⟩
    · exact keeps_fresh handled_handle hended houtcome hfailure
    · obtain ⟨hclosing, houtcome⟩ := handle_passesEvent signer hevent
      exact keeps_of_eq hclosing houtcome
    · obtain ⟨closed, hclosed⟩ := handle_malformed signer hmalformed
      rw [hclosed]
      exact keeps_repeated hfailure
  · cases (handled_handle : Handled c a (a.handle request signer c)) with
    | kept _ hclosing houtcome _ => exact keeps_of_eq hclosing houtcome
    | enqueued hcallback _ _ _ _ _ => exact (hmessage (sent_isMessage hcallback)).elim
    | closing _ hcallback _ _ _ _ _ => exact (hmessage hcallback).elim
    | completed hcallback _ _ _ _ => exact (hmessage hcallback).elim
    | ended o _ hclosing houtcome ho _ =>
      exact keeps_over hclosing houtcome (ho.imp id And.left)

/-- Every attempt is decided, only the last one can have failed for good, and the failure of an
invocation that is over was emitted. -/
structure FailureHeld (s : Invocation) (es : List (Effect γ)) : Prop where
  decided : ∀ a ∈ s.attempts, a.Decided
  older : ∀ i a, s.attempts[i]? = some a → i + 1 < s.attempts.length →
    a.outcome ≠ none ∧ a.failure = none
  emitted : s.ended = true → ∀ a ∈ s.attempts, ∀ e, a.failure = some e → .emit e.event ∈ es

theorem failureHeld_end (h : FailureHeld s es)
    (hout : s.ended = false → ∀ a ∈ s.attempts, ∀ e, a.failure = some e → .emit e.event ∈ out) :
    FailureHeld { s with ended := true } (es ++ out) where
  decided := h.decided
  older := h.older
  emitted _ a ha e he := by
    rw [List.mem_append]
    cases hended : s.ended with
    | true => exact Or.inl (h.emitted hended a ha e he)
    | false => exact Or.inr (hout hended a ha e he)

/-- An attempt that has failed for good is the last one. -/
theorem failed_is_last (h : FailureHeld s es) {i : ℕ} {a : Attempt} {e : HubError}
    (ha : s.attempts[i]? = some a) (he : a.failure = some e) :
    s.attempts.length = i + 1 ∧ s.attempts.getLast? = some a := by
  have hi : i < s.attempts.length := (List.getElem?_eq_some_iff.1 ha).1
  have hlength : s.attempts.length = i + 1 := by
    by_contra hne
    have := (h.older i a ha (by omega)).2
    rw [he] at this
    cases this
  refine ⟨hlength, ?_⟩
  rw [List.getLast?_eq_getElem?, hlength, Nat.add_sub_cancel]
  exact ha

/-- After a final failure there is no further attempt. -/
theorem not_atLoopHead (h : FailureHeld s es) {a : Attempt} {e : HubError} (ha : a ∈ s.attempts)
    (he : a.failure = some e) : s.atLoopHead = false := by
  obtain ⟨i, ha'⟩ := List.mem_iff_getElem?.1 ha
  rw [← Bool.not_eq_true]
  intro hhead
  obtain ⟨_, e', he'⟩ := atLoopHead_last hhead (failed_is_last h ha' he).2
  rcases h.decided a ha e he with hnone | hsome
  · rw [hnone] at he'
    cases he'
  · rw [hsome] at he'
    cases he'

theorem failureHeld_start {n : Int32} {connection : Connection} (h : FailureHeld s es)
    (hended : s.ended = false) (hhead : s.atLoopHead = true) :
    FailureHeld { s with attempts := s.attempts ++ [Attempt.connect connection] }
      (es ++ [.emit (.starting n)]) := by
  have hnew : (Attempt.connect connection).failure = none := by
    cases connection <;> rfl
  refine ⟨?_, ?_, ?_⟩
  · intro a ha e he
    rcases List.mem_append.1 ha with ha | ha
    · exact h.decided a ha e he
    · rw [List.mem_singleton.1 ha, hnew] at he
      cases he
  · intro i a ha hi
    rw [List.length_append, List.length_singleton] at hi
    have hlt : i < s.attempts.length := by omega
    replace ha : s.attempts[i]? = some a := by
      rwa [List.getElem?_append_left hlt] at ha
    by_cases hi' : i + 1 < s.attempts.length
    · exact h.older i a ha hi'
    · have hlast : s.attempts.getLast? = some a := by
        rw [List.getLast?_eq_getElem?, show s.attempts.length - 1 = i by omega]
        exact ha
      obtain ⟨_, e, he⟩ := atLoopHead_last hhead hlast
      refine ⟨by simp [he], ?_⟩
      cases hfailure : a.failure with
      | none => rfl
      | some e' =>
        have := not_atLoopHead h (List.mem_of_getElem? ha) hfailure
        rw [hhead] at this
        cases this
  · intro hended'
    rw [hended] at hended'
    cases hended'

theorem failureHeld_callback {socket : ℕ} {c : Callback γ} {a : Attempt} (h : FailureHeld s es)
    (ha : s.attempts[socket]? = some a) (hfits : FitsClosing request s (.callback socket c)) :
    FailureHeld { s with attempts := s.attempts.set socket (a.handle request signer c).1 }
      (es ++ (a.handle request signer c).2) := by
  have hmem : a ∈ s.attempts := List.mem_of_getElem? ha
  have hkeeps : Keeps s a (a.handle request signer c).1 := keeps_handle ha hfits
  have houtcome : a.outcome ≠ none → (a.handle request signer c).1.outcome ≠ none := by
    intro hne
    obtain ⟨o, ho⟩ := Option.ne_none_iff_exists'.1 hne
    rw [outcome_of_handled handled_handle ho]
    simp
  generalize a.handle request signer c = next at hkeeps houtcome
  refine ⟨?_, ?_, ?_⟩
  · intro b hb
    rcases List.mem_or_eq_of_mem_set hb with hb | rfl
    · exact h.decided b hb
    · exact hkeeps.decided (h.decided a hmem)
  · intro i b hb hi
    simp only [List.length_set] at hi
    rw [List.getElem?_set] at hb
    by_cases hsocket : socket = i
    · rw [if_pos hsocket, if_pos (by omega)] at hb
      cases hb
      obtain ⟨hover, hnone⟩ := h.older socket a ha (by omega)
      refine ⟨houtcome hover, ?_⟩
      -- a new failure would need an undecided attempt
      by_contra hne
      exact hover (hkeeps.fresh hnone hne).2
    · rw [if_neg hsocket] at hb
      exact h.older i b hb hi
  · intro hended b hb e he
    rw [List.mem_append]
    left
    rcases List.mem_or_eq_of_mem_set hb with hb | rfl
    · exact h.emitted hended b hb e he
    · cases hbefore : a.failure with
      | none =>
        have := (hkeeps.fresh hbefore (by simp [he])).1
        rw [hended] at this
        cases this
      | some e' =>
        have := hkeeps.keeps e' hbefore
        rw [he, Option.some.injEq] at this
        rw [this]
        exact h.emitted hended a hmem e' hbefore

theorem failureHeld_step (h : FailureHeld s es) (hfits : FitsClosing request s action)
    (hs : s.step request signer action = some (s', out)) : FailureHeld s' (es ++ out) := by
  cases stepped_of_step hs with
  | refused _ hhead _ =>
    refine failureHeld_end h fun _ a ha e he => ?_
    rw [not_atLoopHead h ha he] at hhead
    cases hhead
  | started hended hhead => exact failureHeld_start h hended hhead
  | callback ha => exact failureHeld_callback h ha hfits
  | timedOut _ =>
    refine failureHeld_end h fun hended a ha e he => ?_
    rw [hfits hended a ha] at he
    cases he
  | @passedOn o _ ho =>
    refine failureHeld_end h fun _ a ha e he => ?_
    obtain ⟨i, ha'⟩ := List.mem_iff_getElem?.1 ha
    have houtcome : a.outcome = some o := by
      simpa [Invocation.outcome, (failed_is_last h ha' he).2] using ho
    rcases h.decided a ha e he with hnone | hsome
    · rw [hnone] at houtcome
      cases houtcome
    · rw [hsome, Option.some.injEq] at houtcome
      rw [← houtcome]
      exact List.mem_singleton.2 rfl
  | cancelled =>
    refine failureHeld_end h fun hended a ha e he => ?_
    rw [hfits hended a ha] at he
    cases he

/-- The final failure `e` of attempt `i` is its only possible outcome and the last word of the
invocation. -/
structure FailureStands (request : ToolInvocationRequest) (signer : Option ApprovalProofSigner)
    (s : Invocation) (es : List (Effect γ)) (i : ℕ) (e : HubError) : Prop where
  attempt : ∃ a, s.attempts[i]? = some a ∧ a.closingOutcome = some (.finalFailure e) ∧
    (a.outcome = none ∨ a.outcome = some (.finalFailure e)) ∧
    a.onClosed.outcome = some (.finalFailure e) ∧
    ∀ response, (a.onFailure response).outcome = some (.finalFailure e)
  last : s.attempts.length = i + 1
  noFurther : ∀ gatewayClosed now connection,
    s.step (γ := γ) request signer (.start gatewayClosed now connection) = none
  passedOn : s.ended = false → s.outcome ≠ none →
    s.step (γ := γ) request signer .resume = some ({ s with ended := true }, [.emit e.event])
  emitted : s.ended = true → .emit e.event ∈ es

/-- When the socket is closed, the attempt ends with the failure for which it was closed. -/
theorem closed_outcome {a : Attempt} {e : HubError} (hclosing : a.closingOutcome = some (.finalFailure e))
    (houtcome : a.outcome = none ∨ a.outcome = some (.finalFailure e)) :
    a.onClosed.outcome = some (.finalFailure e) ∧
      ∀ response, (a.onFailure response).outcome = some (.finalFailure e) := by
  have hfinish : (a.finish (.finalFailure e)).outcome = some (.finalFailure e) := by
    rw [finish_outcome]
    rcases houtcome with h | h
    · rw [h, Option.getD_none]
    · rw [h, Option.getD_some]
  refine ⟨?_, fun response => ?_⟩
  · simp only [Attempt.onClosed, hclosing, hfinish]
  · simp only [Attempt.onFailure, hclosing, hfinish]

theorem failureStands_of_held (h : FailureHeld s es) {i : ℕ} {a : Attempt} {e : HubError}
    (ha : s.attempts[i]? = some a) (he : a.failure = some e) :
    FailureStands request signer s es i e := by
  have hmem : a ∈ s.attempts := List.mem_of_getElem? ha
  have hclosing := failure_eq_some_iff.1 he
  have houtcome := h.decided a hmem e he
  obtain ⟨hlength, hlast⟩ := failed_is_last h ha he
  refine ⟨⟨a, ha, hclosing, houtcome, closed_outcome hclosing houtcome⟩, hlength, ?_, ?_,
    fun hended => h.emitted hended a hmem e he⟩
  · intro gatewayClosed now connection
    simp [Invocation.step, not_atLoopHead h hmem he]
  · intro hended hne
    have hs : s.outcome = a.outcome := by
      simp [Invocation.outcome, hlast]
    have hfinal : s.outcome = some (.finalFailure e) := by
      rw [hs] at hne ⊢
      exact houtcome.resolve_left hne
    simp [Invocation.step, hended, hfinal]

theorem failureHeld_of_reaches
    (h : Machine.Reaches (Invocation.step request signer) (fun s _ a => FitsClosing request s a)
      {} s es) : FailureHeld s es := by
  refine h.invariant ⟨?_, ?_, ?_⟩ ?_
  · intro a ha
    cases ha
  · intro i a ha
    simp at ha
  · intro hended
    cases hended
  · intro s es action s' out hs hfits hstep
    exact failureHeld_step hs hfits hstep

/-- A fitting step keeps a final failure. -/
theorem failure_of_step {i : ℕ} {a : Attempt} {e : HubError} (ha : s.attempts[i]? = some a)
    (he : a.failure = some e) (hfits : FitsClosing request s action)
    (hs : s.step request signer action = some (s', out)) :
    ∃ b, s'.attempts[i]? = some b ∧ b.failure = some e := by
  have hi := (List.getElem?_eq_some_iff.1 ha).1
  cases stepped_of_step hs with
  | refused _ _ _ => exact ⟨a, ha, he⟩
  | started _ _ => exact ⟨a, by rwa [List.getElem?_append_left hi], he⟩
  | @callback socket c b hb =>
    by_cases hsocket : socket = i
    · have hab : b = a := Option.some.inj (hb.symm.trans (hsocket ▸ ha))
      refine ⟨(b.handle request signer c).1, ?_, ?_⟩
      · rw [hsocket]
        exact List.getElem?_set_self hi
      · rw [← hab] at he
        exact (keeps_handle hb hfits).keeps e he
    · exact ⟨a, by rwa [List.getElem?_set_ne hsocket], he⟩
  | timedOut _ => exact ⟨a, ha, he⟩
  | passedOn _ _ => exact ⟨a, ha, he⟩
  | cancelled => exact ⟨a, ha, he⟩

/-- **A final failure stands**, whatever fitting steps come after it. -/
theorem final_failure_stands {i : ℕ} {a : Attempt} {e : HubError} {es' : List (Effect γ)}
    (h : Machine.Reaches (Invocation.step request signer) (fun s _ a => FitsClosing request s a)
      {} s es)
    (ha : s.attempts[i]? = some a) (he : a.closingOutcome = some (.finalFailure e))
    (h' : Machine.Reaches (Invocation.step request signer) (fun s _ a => FitsClosing request s a)
      s s' es') :
    FailureStands request signer s' (es ++ es') i e := by
  have hlater : ∃ b, s'.attempts[i]? = some b ∧ b.failure = some e := by
    refine h'.invariant (I := fun s _ => ∃ b, s.attempts[i]? = some b ∧ b.failure = some e)
      ⟨a, ha, failure_eq_some_iff.2 he⟩ ?_
    rintro s es action s' out ⟨b, hb, hfailure⟩ hfits hs
    exact failure_of_step hb hfailure hfits hs
  obtain ⟨b, hb, hfailure⟩ := hlater
  exact failureStands_of_held (failureHeld_of_reaches (h.append h')) hb hfailure

section Example

/-- The invocation goes out, and a binary message comes back, for which the socket is closed. -/
def failedRun : List (GatewayAction ContentType) :=
  invokedOn 0 ++ [.callback 0 (.onBytes true)]

def failedInvocation : Invocation where
  attempts := [{
    discoverySent := true
    invocationSent := true
    closingOutcome := some (.finalFailure protocolError) }]

theorem failedRun_reaches {ok : Invocation → List (Effect ContentType) →
      GatewayAction ContentType → Prop}
    (hok : Machine.Allowed (Invocation.step approvedRequest (some deviceSigner)) ok {} [] failedRun) :
    Machine.Reaches (Invocation.step approvedRequest (some deviceSigner)) ok {} failedInvocation
      [.emit (.starting 1), .send .discovery true, .send .invocation true, .emit .ready,
        .close 1002] :=
  Machine.reaches_of_run hok rfl

/-- A second binary message, then the failure is passed on. -/
theorem binary_failure_stands : ∃ s es,
    Machine.Reaches (Invocation.step approvedRequest (some deviceSigner))
      (fun s _ a => FitsClosing approvedRequest s a) failedInvocation s es ∧
    (s.ended = true ∧ FailureStands approvedRequest (some deviceSigner) s
      ([.emit (.starting 1), .send .discovery true, .send .invocation true, .emit .ready,
        .close 1002] ++ es : List (Effect ContentType)) 0 protocolError) := by
  have hok : Machine.Allowed (Invocation.step approvedRequest (some deviceSigner))
      (fun s _ a => FitsClosing approvedRequest s a) {} [] failedRun := by decide +kernel
  have hbefore := failedRun_reaches hok
  have hrun : Machine.run (Invocation.step (γ := ContentType) approvedRequest (some deviceSigner))
      failedInvocation [.callback 0 (.onBytes false), .resume] = some (_, _) := rfl
  have hafter := Machine.reaches_of_run
    (show Machine.Allowed _ (fun s _ a => FitsClosing approvedRequest s a) _ _ _ by decide +kernel)
    hrun
  exact ⟨_, _, hafter, rfl, final_failure_stands hbefore rfl rfl hafter⟩

def Effect.isError : Effect γ → Bool
  | .emit (.error _ _ _) => true
  | _ => false

/-- A result after the binary message: `close` was called before, so it now returns `false`, and the
attempt counts as completed. The failure is not reported. -/
theorem verification_hides_failure : ∃ s es s' es',
    Machine.Reaches (Invocation.step approvedRequest (some deviceSigner)) Machine.anyStep {} s es ∧
    Machine.Reaches (Invocation.step approvedRequest (some deviceSigner)) Machine.anyStep s s' es' ∧
    (∃ a, s.attempts[0]? = some a ∧ a.closingOutcome = some (.finalFailure protocolError)) ∧
    (∃ a, s'.attempts[0]? = some a ∧ a.outcome = some .completed) ∧ s'.ended = true ∧
    .emit protocolError.event ∉ (es ++ es' : List (Effect ContentType)) := by
  have hrun : Machine.run (Invocation.step (γ := ContentType) approvedRequest (some deviceSigner))
      failedInvocation [.callback 0 (.onText (.ok ⟨5, .toolEvent none (.verification true
        (lit "done") [])⟩) 1000 1000 true false), .resume] = some (_, _) := rfl
  refine ⟨_, _, _, _, failedRun_reaches (Machine.allowed_anyStep _), Machine.run_reaches hrun,
    ⟨_, rfl, rfl⟩, ⟨_, rfl, rfl⟩, rfl, ?_⟩
  intro h
  have herror : List.any _ Effect.isError = true := List.any_eq_true.2 ⟨_, h, rfl⟩
  cases herror

end Example

end Invocations

end GoffyPhone
