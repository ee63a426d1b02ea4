import GoffyOs.Hub.LiveAccessRuns
import GoffyOs.Hub.PairingApi

/-!
# Audit records and credential changes over runs

The handlers of `goffy_hub/pairing_api.py` record a request before they change the credential store
and the change afterwards. The first record decides whether the change is made; a failure of the last
one must not turn a committed change into an error, since the answer carries the only copy of the new
token.

* `Moves` lists what a request can do, with its events; `step_moves` shows that every step of the
  system is one of these;
* `PhaseOk` is what the events of a request say about the phase it is in, and `Moves.phaseOk` that a
  move keeps it;
* `mutations_are_requested_first` is the result about whole runs.
-/

namespace GoffyHub.PairingApi

open Python
open Auth (AuthenticatedPrincipal)
open Credentials (CredentialTable CredentialStoreError IssueArgs firstToken secondToken samplePhone
  sampleNow)
open LiveAccess (sampleStore utcZone noCrypto)
open OperatorAudit (RecordArgs)
open Pairing (PendingChallenge)

/-- After a change the failures of the store are ignored. -/
theorem audit_bestEffort {result : AuditResult} (h : IsStoreFailure result) :
    audit false result = .ok () := by
  match result with
  | .ok () => rfl
  | .error (.store _) => rfl
  | .error (.exn e) => exact absurd rfl (h e)

/-! ### What a request can do -/

/-- The request has not asked the audit log yet. -/
def Early : Option Phase → Prop
  | none | some (.readingBody _) | some (.authenticating _ _) | some (.authenticated _ _ _) => True
  | _ => False

/-- The event is a commit of the store or an answer. -/
def Event.isOutcome : Event → Bool
  | .committed _ _ _ | .answered _ _ => true
  | _ => false

/-- The request that an event belongs to. -/
def Event.request : Event → ℕ
  | .checked i _ | .recorded i _ _ | .committed i _ _ | .closed i _ | .answered i _ => i

/-- Events of request `i` without a commit or an answer. -/
def Quiet (i : ℕ) (es : List Event) : Prop := ∀ e ∈ es, e.request = i ∧ e.isOutcome = false

/-- The answer is not due to the audit log, and it is the success of the change unless the store call
or `on_revoke` raised. -/
structure Answered (op : Operation) (result : Except CredentialStoreError (Option Body))
    (raised : Prop) (answer : Answer) : Prop where
  notAudit : ¬ answer.DueToAudit
  success : ∀ body, result = .ok (some body) → ¬ raised → answer = op.success body

/-- The steps of request `i`: the phase before, the events and the phase after. -/
inductive Moves (i : ℕ) : Option Phase → List Event → Phase → Prop
  | prepare {old : Option Phase} {new : Phase} (h : Early old) (h' : Early (some new)) :
      Moves i old [] new
  | refuse {old : Option Phase} {out : List Event} {answer : Answer} (h : Early old)
      (hout : Quiet i out) : Moves i old (out ++ [.answered i answer]) .finished
  | redeem {old : Option Phase} {redemption : PairingRedemptionRequest} {key : Bytes}
      (h : Early old) :
      Moves i old [.checked i (.ok ()), .recorded i redeemRequested (.ok ())]
        (.completing redemption key)
  | change {old : Option Phase} {op : Operation} (h : Early old) :
      Moves i old [.checked i (.ok ()), .recorded i op.requested (.ok ())] (.storing op)
  | unmatched {redemption : PairingRedemptionRequest} {key : Bytes} {answer : Answer} :
      Moves i (some (.completing redemption key)) [.answered i answer] .finished
  | matched {redemption : PairingRedemptionRequest} {key : Bytes} {args : IssueArgs} :
      Moves i (some (.completing redemption key)) [] (.storing (.redeem args))
  | store {op : Operation} {result : Except CredentialStoreError (Option Body)}
      {out : List Event} (hout : out = [] ∨ out = [.committed i op result]) :
      Moves i (some (.storing op)) out (.stored op result)
  | storeAbandoned {op : Operation} {result : Except CredentialStoreError (Option Body)}
      {out : List Event} (hout : out = [] ∨ out = [.committed i op result]) :
      Moves i (some (.abandoned op)) out .finished
  | close {op : Operation} {body : Body} :
      Moves i (some (.stored op (.ok (some body)))) [] (.closingAccess op body)
  | answerStored {op : Operation} {result : Except CredentialStoreError (Option Body)}
      {out : List Event} {answer : Answer} (hout : Quiet i out)
      (hanswer : Answered op result False answer) :
      Moves i (some (.stored op result)) (out ++ [.answered i answer]) .finished
  | answerClosed {op : Operation} {body : Body} {out : List Event} {answer : Answer}
      (hout : Quiet i out)
      (hanswer : Answered op (.ok (some body)) (.closed i true ∈ out) answer) :
      Moves i (some (.closingAccess op body)) (out ++ [.answered i answer]) .finished
  | abandon {op : Operation} : Moves i (some (.storing op)) [] (.abandoned op)
  | cancel {old : Phase} : Moves i (some old) [] .finished

section Moves

variable {env : Env} {s s' : System} {i : ℕ} {op : Operation} {body : Body}
  {out : List Event} {recorded checked : AuditResult}

theorem success_notAudit (op : Operation) (body : Body) : ¬ (op.success body).DueToAudit := by
  cases op <;> simp [Answer.DueToAudit, Operation.success]

theorem storeError_notAudit (op : Operation) (e : CredentialStoreError) :
    ¬ (op.storeError e).DueToAudit := by
  cases op <;> cases e <;>
    simp [Answer.DueToAudit, Operation.storeError, credentialStoreUnavailable,
      operatorAuditUnavailable]

theorem missing_notAudit (op : Operation) : ¬ op.missing.DueToAudit := by
  cases op <;> simp [Answer.DueToAudit, Operation.missing, revokeOwnPairedCredential,
    rotateOwnPairedCredential, revokePairedCredential, operatorAuditUnavailable]

theorem quiet_singleton {e : Event} (hi : e.request = i) (h : e.isOutcome = false) :
    Quiet i [e] := by
  intro x hx
  rw [List.mem_singleton.1 hx]
  exact ⟨hi, h⟩

theorem quiet_cons {e : Event} (hi : e.request = i) (h : e.isOutcome = false) (hout : Quiet i out) :
    Quiet i (e :: out) := by
  intro x hx
  rcases List.mem_cons.1 hx with rfl | hx
  · exact ⟨hi, h⟩
  · exact hout x hx

/-- The announcement ends with its record, or with an answer and nothing changed. -/
theorem announce_cases (i : ℕ) (args : RecordArgs) (checked recorded : AuditResult) :
    announce i args checked recorded =
        ([.checked i (.ok ()), .recorded i args (.ok ())], .ok ()) ∨
      ∃ out answer, announce i args checked recorded = (out, .error answer) ∧ Quiet i out := by
  unfold announce
  match checked, recorded with
  | .error (.store m), _ | .error (.exn m), _ =>
    exact Or.inr ⟨_, _, rfl, quiet_singleton rfl rfl⟩
  | .ok (), .error (.store m) | .ok (), .error (.exn m) =>
    exact Or.inr ⟨_, _, rfl, quiet_cons rfl rfl (quiet_singleton rfl rfl)⟩
  | .ok (), .ok () => exact Or.inl rfl

/-- What a step does: request `i` moves and the other requests stay, or no request is concerned. -/
def Step (s : System) (r : System × List Event) : Prop :=
  (r.1.requests = s.requests ∧ r.2 = []) ∨
    ∃ i new, r.1.requests = Function.update s.requests i (some new) ∧ Moves i (s.requests i) r.2 new

/-- A handler that has not asked the audit log refuses the request. -/
theorem Step.answer (h : Early (s.requests i)) (hs : s'.requests = s.requests) (answer : Answer) :
    Step s (s'.answer i answer) :=
  Or.inr ⟨i, .finished, by rw [← hs]; rfl, Moves.refuse h (by intro e he; cases he)⟩

theorem admitRedemption_moves (h : Early (s.requests i)) (request : Request) :
    Step s (s.admitRedemption env i request checked recorded) := by
  unfold System.admitRedemption
  split
  · exact Step.answer h rfl _
  rename_i redemption _
  rcases announce_cases i redeemRequested checked recorded with heq | ⟨out, answer, heq, hout⟩
  · rw [heq]
    simp only
    split
    · refine Or.inr ⟨i, .finished, rfl, Moves.refuse h ?_⟩
      exact quiet_cons rfl rfl (quiet_singleton rfl rfl)
    · exact Or.inr ⟨i, _, rfl, Moves.redeem h⟩
  · rw [heq]
    exact Or.inr ⟨i, .finished, rfl, Moves.refuse h hout⟩

theorem admitChange_moves (h : Early (s.requests i)) (operation : Except ApiError Operation) :
    Step s (s.admitChange i operation checked recorded) := by
  unfold System.admitChange
  split
  · exact Step.answer h rfl _
  rename_i op
  rcases announce_cases i op.requested checked recorded with heq | ⟨out, answer, heq, hout⟩
  · rw [heq]
    exact Or.inr ⟨i, _, rfl, Moves.change h⟩
  · rw [heq]
    exact Or.inr ⟨i, .finished, rfl, Moves.refuse h hout⟩

theorem complete_moves {redemption : PairingRedemptionRequest} {key : Bytes}
    (h : s.requests i = some (.completing redemption key)) (reading : DateTime) :
    Step s (s.complete i redemption key reading) := by
  have hunmatched : ∀ (pending : Dict UUID PendingChallenge) (answer : Answer),
      Step s (({ s with pending := pending } : System).answer i answer) := by
    intro pending answer
    refine Or.inr ⟨i, .finished, rfl, ?_⟩
    rw [h]
    exact Moves.unmatched
  unfold System.complete
  split
  · exact hunmatched s.pending _
  dsimp only
  split
  · exact hunmatched _ _
  · refine Or.inr ⟨i, _, rfl, ?_⟩
    rw [h]
    exact Moves.matched

/-- A thread commits its own operation or nothing. -/
theorem runStore_out (newToken : Str) (newId : UUID) (now : DateTime) (fault : Fault)
    (next : Except CredentialStoreError (Option Body) → Phase) :
    ∃ result, (s.runStore env i op newToken newId now fault next).1.requests =
        Function.update s.requests i (some (next result)) ∧
      ((s.runStore env i op newToken newId now fault next).2 = [] ∨
        (s.runStore env i op newToken newId now fault next).2 = [.committed i op result]) := by
  refine ⟨(op.store env s.store newToken newId now fault).2, rfl, ?_⟩
  unfold System.runStore
  dsimp only
  split
  · exact Or.inl rfl
  · exact Or.inr rfl

/-- The best-effort record never spoils the answer. -/
theorem finish_eq (hrecorded : IsStoreFailure recorded) :
    s.finish i op body recorded = s.answerAfter i [.recorded i (op.succeeded body) recorded]
      (op.success body) := by
  unfold System.finish
  rw [audit_bestEffort hrecorded]

theorem resume_moves {result : Except CredentialStoreError (Option Body)}
    (h : s.requests i = some (.stored op result)) (hrecorded : IsStoreFailure recorded) :
    Step s (s.resume i op result recorded) := by
  have hanswer : ∀ out answer, Quiet i out → Answered op result False answer →
      Step s (s.answerAfter i out answer) := by
    intro out answer hout hanswer
    refine Or.inr ⟨i, .finished, rfl, ?_⟩
    rw [h]
    exact Moves.answerStored hout hanswer
  have hempty : Quiet i [] := by
    intro e he
    cases he
  unfold System.resume
  match result with
  | .error e => exact hanswer [] _ hempty ⟨storeError_notAudit op e, by simp⟩
  | .ok none => exact hanswer [] _ hempty ⟨missing_notAudit op, by simp⟩
  | .ok (some body) =>
    simp only
    split
    · refine Or.inr ⟨i, _, rfl, ?_⟩
      rw [h]
      exact Moves.close
    · rw [finish_eq hrecorded]
      refine hanswer _ _ (quiet_singleton rfl rfl) ⟨success_notAudit op body, ?_⟩
      intro body' hbody' _
      cases hbody'
      rfl

theorem accessClosed_moves (h : s.requests i = some (.closingAccess op body)) (raised : Bool)
    (hrecorded : IsStoreFailure recorded) :
    Step s (s.accessClosed i op body raised recorded) := by
  have hanswer : ∀ out answer, Quiet i out →
      Answered op (.ok (some body)) (.closed i true ∈ out) answer →
      Step s (s.answerAfter i out answer) := by
    intro out answer hout hanswer
    refine Or.inr ⟨i, .finished, rfl, ?_⟩
    rw [h]
    exact Moves.answerClosed hout hanswer
  unfold System.accessClosed
  split
  · refine hanswer _ _ (quiet_singleton rfl rfl) ⟨by simp [Answer.DueToAudit], ?_⟩
    intro body' _ hraised
    exact absurd (List.mem_singleton.2 rfl) hraised
  · rw [finish_eq hrecorded]
    refine hanswer [.closed i false, .recorded i (op.succeeded body) recorded] _
      (quiet_cons rfl rfl (quiet_singleton rfl rfl)) ⟨success_notAudit op body, ?_⟩
    intro body' hbody' _
    cases hbody'
    rfl

/-- The audit log fails with nothing but `OperatorAuditStoreError` in this step. -/
def Action.StoreFailuresOnly : Action → Prop
  | .accept _ checked recorded => IsStoreFailure checked ∧ IsStoreFailure recorded
  | .returned _ recorded | .closed _ _ recorded => IsStoreFailure recorded
  | _ => True

/-- **Every step is one move of one request.** -/
theorem step_moves {a : Action} (ha : a.StoreFailuresOnly) (h : step env s a = some (s', out)) :
    Step s (s', out) := by
  have hof : ∀ {r : System × List Event}, some r = some (s', out) → Step s r → Step s (s', out) := by
    intro r hr hstep
    cases hr
    exact hstep
  cases a with
  | beginChallenge pairingToken challengeId reading ttl =>
    simp only [step] at h
    split at h <;> exact hof h (Or.inl ⟨rfl, rfl⟩)
  | redeem i request =>
    simp only [step] at h
    split at h
    · cases h
    rename_i hnone
    have hearly : Early (s.requests i) := by rw [hnone]; trivial
    split at h
    · exact hof h (Step.answer hearly rfl _)
    · exact hof h (Step.answer hearly rfl _)
    · exact hof h (Or.inr ⟨i, _, rfl, Moves.prepare hearly trivial⟩)
  | receive i route request =>
    simp only [step] at h
    split at h
    · cases h
    rename_i hnone
    have hearly : Early (s.requests i) := by rw [hnone]; trivial
    split at h
    · exact hof h (Step.answer hearly rfl _)
    · exact hof h (Or.inr ⟨i, _, rfl, Moves.prepare hearly trivial⟩)
  | authenticate i fault =>
    simp only [step] at h
    split at h
    · rename_i hphase
      exact hof h (Or.inr ⟨i, _, rfl, Moves.prepare (by rw [hphase]; trivial) trivial⟩)
    · cases h
  | accept i checked recorded =>
    simp only [step] at h
    split at h
    · rename_i hphase
      exact hof h (admitRedemption_moves (by rw [hphase]; trivial) _)
    · rename_i hphase
      exact hof h (admitChange_moves (by rw [hphase]; trivial) _)
    · cases h
  | complete i reading =>
    simp only [step] at h
    split at h
    · rename_i hphase
      exact hof h (complete_moves hphase reading)
    · cases h
  | store i newToken newId now fault =>
    simp only [step] at h
    split at h
    · rename_i op hphase
      obtain ⟨result, hrequests, hout⟩ := runStore_out newToken newId now fault (.stored op)
      exact hof h (Or.inr ⟨i, _, hrequests, by rw [hphase]; exact Moves.store hout⟩)
    · rename_i op hphase
      obtain ⟨result, hrequests, hout⟩ := runStore_out newToken newId now fault fun _ => .finished
      exact hof h (Or.inr ⟨i, _, hrequests, by rw [hphase]; exact Moves.storeAbandoned hout⟩)
    · cases h
  | returned i recorded =>
    simp only [step] at h
    split at h
    · rename_i hphase
      exact hof h (resume_moves hphase ha)
    · cases h
  | closed i raised recorded =>
    simp only [step] at h
    split at h
    · rename_i hphase
      exact hof h (accessClosed_moves hphase raised ha)
    · cases h
  | cancel i =>
    simp only [step] at h
    split at h
    · rename_i hphase
      exact hof h (Or.inr ⟨i, _, rfl, by rw [hphase]; exact Moves.abandon⟩)
    · cases h
    · cases h
    · rename_i old _ _ hphase
      exact hof h (Or.inr ⟨i, _, rfl, by rw [hphase]; exact Moves.cancel⟩)

/-! #### The store changes through commits only -/

theorem finish_store : (s.finish i op body recorded).1.store = s.store := by
  unfold System.finish
  dsimp only
  split <;> rfl

theorem admitRedemption_store (request : Request) :
    (s.admitRedemption env i request checked recorded).1.store = s.store := by
  unfold System.admitRedemption
  split
  · rfl
  split
  · rfl
  split <;> rfl

theorem admitChange_store (operation : Except ApiError Operation) :
    (s.admitChange i operation checked recorded).1.store = s.store := by
  unfold System.admitChange
  split
  · rfl
  split <;> rfl

theorem complete_store (redemption : PairingRedemptionRequest) (key : Bytes) (reading : DateTime) :
    (s.complete i redemption key reading).1.store = s.store := by
  unfold System.complete
  split
  · rfl
  dsimp only
  split <;> rfl

theorem resume_store (result : Except CredentialStoreError (Option Body)) :
    (s.resume i op result recorded).1.store = s.store := by
  unfold System.resume
  split
  · rfl
  · rfl
  split
  · rfl
  · exact finish_store

theorem accessClosed_store (raised : Bool) :
    (s.accessClosed i op body raised recorded).1.store = s.store := by
  unfold System.accessClosed
  split
  · rfl
  · exact finish_store

theorem runStore_committed {newToken : Str} {newId : UUID} {now : DateTime} {fault : Fault}
    {next : Except CredentialStoreError (Option Body) → Phase}
    (h : some (s.runStore env i op newToken newId now fault next) = some (s', out))
    (hne : s'.store.rows ≠ s.store.rows) : ∃ i op result, out = [.committed i op result] := by
  cases h
  exact ⟨i, op, _, if_neg hne⟩

/-- Every change of the rows shows in the history. -/
theorem step_committed {a : Action} (h : step env s a = some (s', out))
    (hne : s'.store.rows ≠ s.store.rows) : ∃ i op result, out = [.committed i op result] := by
  have hkeeps : ∀ {r : System × List Event}, some r = some (s', out) → r.1.store = s.store →
      ∃ i op result, out = [.committed i op result] := by
    intro r hr hstore
    cases hr
    exact absurd (congrArg CredentialTable.rows hstore) hne
  cases a with
  | beginChallenge pairingToken challengeId reading ttl =>
    simp only [step] at h
    split at h <;> exact hkeeps h rfl
  | redeem i request =>
    simp only [step] at h
    split at h
    · cases h
    split at h <;> exact hkeeps h rfl
  | receive i route request =>
    simp only [step] at h
    split at h
    · cases h
    split at h <;> exact hkeeps h rfl
  | authenticate i fault =>
    simp only [step] at h
    split at h
    · exact hkeeps h rfl
    · cases h
  | accept i checked recorded =>
    simp only [step] at h
    split at h
    · exact hkeeps h (admitRedemption_store _)
    · exact hkeeps h (admitChange_store _)
    · cases h
  | complete i reading =>
    simp only [step] at h
    split at h
    · exact hkeeps h (complete_store _ _ _)
    · cases h
  | store i newToken newId now fault =>
    simp only [step] at h
    split at h
    · exact runStore_committed h hne
    · exact runStore_committed h hne
    · cases h
  | returned i recorded =>
    simp only [step] at h
    split at h
    · exact hkeeps h (resume_store _)
    · cases h
  | closed i raised recorded =>
    simp only [step] at h
    split at h
    · exact hkeeps h (accessClosed_store raised)
    · cases h
  | cancel i =>
    simp only [step] at h
    split at h
    · exact hkeeps h rfl
    · cases h
    · cases h
    · exact hkeeps h rfl

end Moves

/-! ### Runs -/

/-- The events of a request. -/
def trail (i : ℕ) (es : List Event) : List Event := es.filter fun e => e.request = i

/-- The store call of request `i` is the only one it may have committed, and it is not answered. -/
structure Waiting (i : ℕ) (es : List Event) (op : Operation)
    (result : Except CredentialStoreError (Option Body)) : Prop where
  committed : ∀ op' result', .committed i op' result' ∈ es → op' = op ∧ result' = result
  unanswered : ∀ answer, .answered i answer ∉ es

/-- What the events of request `i` say about the phase it is in. -/
def PhaseOk (i : ℕ) (es : List Event) : Option Phase → Prop
  | none | some (.readingBody _) | some (.authenticating _ _) | some (.authenticated _ _ _) =>
    Quiet i es
  | some (.completing _ _) => Quiet i es ∧ .recorded i redeemRequested (.ok ()) ∈ es
  | some (.storing op) | some (.abandoned op) =>
    Quiet i es ∧ .recorded i op.requested (.ok ()) ∈ es
  | some (.stored op result) => Waiting i es op result
  | some (.closingAccess op body) => Waiting i es op (.ok (some body))
  | some .finished => ∀ op result answer, .committed i op result ∈ es → .answered i answer ∈ es →
      Answered op result (.closed i true ∈ es) answer

section Runs

variable {env : Env} {i : ℕ} {es out : List Event} {op : Operation} {old : Option Phase}
  {new : Phase} {result : Except CredentialStoreError (Option Body)} {answer : Answer}

theorem mem_trail {e : Event} : e ∈ trail i es ↔ e ∈ es ∧ e.request = i := by
  simp [trail]

/-- The events of a step belong to the request that moves. -/
theorem Moves.request (h : Moves i old out new) : ∀ e ∈ out, e.request = i := by
  have hconcat : ∀ {out : List Event} {answer : Answer}, Quiet i out →
      ∀ e ∈ out ++ [.answered i answer], e.request = i := by
    intro out answer hout e he
    rcases List.mem_append.1 he with he | he
    · exact (hout e he).1
    · rw [List.mem_singleton.1 he]
      rfl
  cases h with
  | prepare | matched | close | abandon | cancel => simp
  | redeem | change | unmatched => simp [Event.request]
  | refuse _ hout => exact hconcat hout
  | answerStored hout => exact hconcat hout
  | answerClosed hout => exact hconcat hout
  | store hout | storeAbandoned hout =>
    rcases hout with rfl | rfl <;> simp [Event.request]

theorem Quiet.not_committed (h : Quiet i es) {j : ℕ} : .committed j op result ∉ es :=
  fun hmem => absurd (h _ hmem).2 (by simp [Event.isOutcome])

theorem Quiet.not_answered (h : Quiet i es) {j : ℕ} : .answered j answer ∉ es :=
  fun hmem => absurd (h _ hmem).2 (by simp [Event.isOutcome])

theorem Quiet.append (h : Quiet i es) (hout : Quiet i out) : Quiet i (es ++ out) := by
  intro e he
  exact (List.mem_append.1 he).elim (h e) (hout e)

theorem PhaseOk.quiet (h : PhaseOk i es old) (hearly : Early old) : Quiet i es := by
  unfold Early at hearly
  split at hearly
  · exact h
  · exact h
  · exact h
  · exact h
  · exact hearly.elim

/-- A commit of a request whose history is quiet. -/
theorem Quiet.waiting (h : Quiet i es) (hout : out = [] ∨ out = [.committed i op result]) :
    Waiting i (es ++ out) op result := by
  constructor
  · intro op' result' hmem
    rcases List.mem_append.1 hmem with hmem | hmem
    · exact absurd hmem h.not_committed
    · rcases hout with rfl | rfl
      · cases hmem
      · simpa using hmem
  · intro answer hmem
    rcases List.mem_append.1 hmem with hmem | hmem
    · exact h.not_answered hmem
    · rcases hout with rfl | rfl <;> simp at hmem

/-- The answer to a request that waits for it. -/
theorem Waiting.phaseOk (h : Waiting i es op result) (hout : Quiet i out)
    (hanswer : Answered op result (.closed i true ∈ out) answer) :
    PhaseOk i (es ++ (out ++ [.answered i answer])) (some .finished) := by
  intro op' result' answer' hcommitted hanswered
  have hcommitted : .committed i op' result' ∈ es := by
    simpa [hout.not_committed] using hcommitted
  obtain ⟨rfl, rfl⟩ := h.committed op' result' hcommitted
  obtain rfl : answer' = answer := by
    simpa [hout.not_answered, h.unanswered] using hanswered
  refine ⟨hanswer.notAudit, fun body hbody hraised => hanswer.success body hbody fun hmem => ?_⟩
  exact hraised (by simp [hmem])

/-- Without a commit there is nothing to say about the answer. -/
theorem phaseOk_finished (h : ∀ op result, .committed i op result ∉ es) :
    PhaseOk i es (some .finished) :=
  fun op result _ hcommitted _ => absurd hcommitted (h op result)

/-- Without an answer neither. -/
theorem Waiting.finished (h : Waiting i es op result) : PhaseOk i es (some .finished) :=
  fun _ _ answer _ hanswered => absurd hanswered (h.unanswered answer)

/-- An answer to a request with a commit is as it should be, in whichever phase. -/
theorem PhaseOk.answered (h : PhaseOk i es old) (hc : .committed i op result ∈ es)
    (ha : .answered i answer ∈ es) : Answered op result (.closed i true ∈ es) answer := by
  cases old with
  | none => exact absurd hc (Quiet.not_committed h)
  | some phase =>
    cases phase with
    | readingBody | authenticating | authenticated => exact absurd hc (Quiet.not_committed h)
    | completing | storing | abandoned => exact absurd hc h.1.not_committed
    | stored | closingAccess => exact absurd ha (Waiting.unanswered h answer)
    | finished => exact h op result answer hc ha

/-- **One move keeps what is known about the request.** -/
theorem Moves.phaseOk (h : Moves i old out new) (hold : PhaseOk i es old) :
    PhaseOk i (es ++ out) (some new) := by
  cases h with
  | prepare hearly hnew =>
    have hquiet := hold.quiet hearly
    rw [List.append_nil]
    unfold Early at hnew
    split at hnew
    · rename_i heq
      cases heq
    · rename_i heq
      rw [heq]
      exact hquiet
    · rename_i heq
      rw [heq]
      exact hquiet
    · rename_i heq
      rw [heq]
      exact hquiet
    · exact hnew.elim
  | refuse hearly hout =>
    have hquiet := hold.quiet hearly
    refine phaseOk_finished fun op result hmem => ?_
    simp [hquiet.not_committed, hout.not_committed] at hmem
  | redeem hearly =>
    refine ⟨(hold.quiet hearly).append ?_, by simp⟩
    exact quiet_cons rfl rfl (quiet_singleton rfl rfl)
  | change hearly =>
    refine ⟨(hold.quiet hearly).append ?_, by simp⟩
    exact quiet_cons rfl rfl (quiet_singleton rfl rfl)
  | unmatched =>
    refine phaseOk_finished fun op result hmem => ?_
    simp [hold.1.not_committed] at hmem
  | matched =>
    rw [List.append_nil]
    exact hold
  | store hout => exact hold.1.waiting hout
  | storeAbandoned hout => exact (hold.1.waiting hout).finished
  | close =>
    rw [List.append_nil]
    exact hold
  | answerStored hout hanswer =>
    refine Waiting.phaseOk hold hout ⟨hanswer.notAudit, fun body hbody _ => ?_⟩
    exact hanswer.success body hbody not_false
  | answerClosed hout hanswer => exact Waiting.phaseOk hold hout hanswer
  | abandon =>
    rw [List.append_nil]
    exact hold
  | cancel =>
    rw [List.append_nil]
    rename_i old
    cases old with
    | readingBody | authenticating | authenticated =>
      exact phaseOk_finished fun _ _ => Quiet.not_committed hold
    | completing | storing | abandoned => exact phaseOk_finished fun _ _ => hold.1.not_committed
    | stored op result => exact Waiting.finished hold
    | closingAccess op body => exact Waiting.finished hold
    | finished => exact hold

/-- Only a thread commits, after the record of its request. -/
theorem Moves.requested (h : Moves i old out new) (hold : PhaseOk i es old) {j : ℕ}
    (hmem : .committed j op result ∈ out) : .recorded j op.requested (.ok ()) ∈ es := by
  cases h with
  | prepare | matched | close | abandon | cancel => cases hmem
  | redeem | change | unmatched => simp at hmem
  | refuse _ hout => simp [hout.not_committed] at hmem
  | answerStored hout => simp [hout.not_committed] at hmem
  | answerClosed hout => simp [hout.not_committed] at hmem
  | store hout | storeAbandoned hout =>
    rcases hout with rfl | rfl
    · cases hmem
    · obtain ⟨rfl, rfl, -⟩ : j = i ∧ op = _ ∧ result = _ := by simpa using hmem
      exact hold.2

/-- A commit is preceded by the record that announced it. -/
def RequestedBefore (before : List Event) (e : Event) : Prop :=
  ∀ i op result, e = .committed i op result → .recorded i op.requested (.ok ()) ∈ before

/-- The invariant of a run. -/
structure Inv (s : System) (es : List Event) : Prop where
  phases : ∀ i, PhaseOk i (trail i es) (s.requests i)
  requested : Machine.AtEach RequestedBefore es

theorem Inv.initial (store : CredentialTable) : Inv (System.initial store) [] where
  phases := by
    intro i e he
    cases he
  requested := Machine.atEach_nil

theorem trail_append_self (hout : ∀ e ∈ out, e.request = i) :
    trail i (es ++ out) = trail i es ++ out := by
  have hall : out.filter (fun e => e.request = i) = out := by
    simpa [List.filter_eq_self] using hout
  rw [trail, List.filter_append, hall]
  rfl

theorem trail_append_other {j : ℕ} (hout : ∀ e ∈ out, e.request = i) (hj : j ≠ i) :
    trail j (es ++ out) = trail j es := by
  have hnone : out.filter (fun e => e.request = j) = [] := by
    refine List.filter_eq_nil_iff.2 fun e he => ?_
    rw [hout e he]
    simpa using hj.symm
  rw [trail, List.filter_append, hnone, List.append_nil]
  rfl

theorem Inv.step {s s' : System} (h : Inv s es) (hstep : Step s (s', out)) :
    Inv s' (es ++ out) := by
  rcases hstep with ⟨hrequests, hnil⟩ | ⟨i, new, hrequests, hmoves⟩
  · dsimp only at hrequests hnil
    rw [hnil, List.append_nil]
    exact ⟨fun i => hrequests ▸ h.phases i, h.requested⟩
  · dsimp only at hrequests hmoves
    refine ⟨?_, Machine.atEach_append h.requested ?_⟩
    · intro j
      rw [hrequests]
      by_cases hj : j = i
      · subst hj
        rw [Function.update_self, trail_append_self hmoves.request]
        exact hmoves.phaseOk (h.phases j)
      · rw [Function.update_of_ne hj, trail_append_other hmoves.request hj]
        exact h.phases j
    · rintro pre e post rfl j op result rfl
      have hmem : .recorded j op.requested (.ok ()) ∈ trail i es :=
        hmoves.requested (h.phases i) (List.mem_append_right pre List.mem_cons_self)
      exact List.mem_append_left _ (mem_trail.1 hmem).1

/-- The actions announced in the audit log are named so. -/
theorem requested_action (op : Operation) : "_requested".toList <:+ op.requested.action := by
  have hsuffix : ∀ action ∈ ["challenge.redeem_requested", "credential.self_revoke_requested",
      "credential.rotate_requested", "credential.admin_revoke_requested"],
      "_requested".toList <:+ action.toList := by decide
  cases op <;> exact hsuffix _ (by decide)

/-- **Nothing is changed unannounced, and no audit failure hides a change.** In every run in which the
audit log fails at any points, a step that changes the credential store commits for a request, and a
commit comes after the successful `*_requested` record of the same request. A request whose change was committed does not answer with
an error of the audit log: if the store and `on_revoke` returned, it answers with the success that
carries the new token. -/
theorem mutations_are_requested_first {table : CredentialTable} {s : System}
    (h : Machine.Reaches (step env) (fun _ _ a => a.StoreFailuresOnly) (System.initial table) s
      es) :
    (∀ a s' out, step env s a = some (s', out) → s'.store.rows ≠ s.store.rows →
        ∃ i op result, out = [.committed i op result]) ∧
      Machine.AtEach (fun before e => ∀ i op result, e = .committed i op result →
        .recorded i op.requested (.ok ()) ∈ before ∧
          "_requested".toList <:+ op.requested.action) es ∧
      ∀ i op result answer, .committed i op result ∈ es → .answered i answer ∈ es →
        ¬ answer.DueToAudit ∧
          ∀ body, result = .ok (some body) → .closed i true ∉ es → answer = op.success body := by
  have hinv : Inv s es := h.invariant (Inv.initial table)
    fun _ _ _ _ _ hinv hok hs => hinv.step (step_moves hok hs)
  refine ⟨fun a s' out => step_committed, ?_, ?_⟩
  · intro before e post heq i op result he
    exact ⟨hinv.requested before e post heq i op result he, requested_action op⟩
  · intro i op result answer hcommitted hanswered
    -- an answered request is finished, in every other phase an answer is excluded
    have hphase := hinv.phases i
    have hc : .committed i op result ∈ trail i es := mem_trail.2 ⟨hcommitted, rfl⟩
    have ha : .answered i answer ∈ trail i es := mem_trail.2 ⟨hanswered, rfl⟩
    have hanswer := hphase.answered hc ha
    refine ⟨hanswer.notAudit, fun body hbody hraised => hanswer.success body hbody fun hmem => ?_⟩
    exact hraised (mem_trail.1 hmem).1

end Runs

/-! ### An example -/

/-- The Hub with one paired phone, reached over `127.0.0.1`. -/
def sampleEnv : Env where
  crypto := noCrypto
  zone := utcZone
  authToken := none
  hubIdentity := ⟨1, "sha256:".toList ++ List.replicate 64 '0', sampleNow.wall⟩
  isLoopback host := some (host = "127.0.0.1".toList)
  validateRedemption _ := none

/-- The phone's request to rotate its token. -/
def rotateRequest : Request where
  client := some "127.0.0.1".toList
  authorization := some (Auth.bearerPrefix ++ firstToken)

/-- The phone's principal. -/
def phonePrincipal : AuthenticatedPrincipal :=
  Auth.pairedPrincipal noCrypto
    ⟨samplePhone, "phone-1".toList, "Phone".toList, sampleNow.wall, none, none⟩

/-- The audit log can record the request and is out of order afterwards. -/
def rotateActions : List Action :=
  [.receive 0 .rotateOwn rotateRequest, .authenticate 0 .none, .accept 0 (.ok ()) (.ok ()),
    .store 0 secondToken samplePhone sampleNow .none, .returned 0 (.ok ()),
    .closed 0 false (.error OperatorAudit.operationFailed)]

def rotateOperation : Operation := .rotateOwn phonePrincipal samplePhone firstToken
def rotateBody : Body := .rotation samplePhone secondToken sampleNow.wall

theorem rotate_survives_audit_failure : ∃ s es,
    Machine.Reaches (step sampleEnv) (fun _ _ a => a.StoreFailuresOnly)
        (System.initial sampleStore) s es ∧
      .recorded 0 (rotateOperation.succeeded rotateBody) (.error OperatorAudit.operationFailed) ∈
        es ∧
      .committed 0 rotateOperation (.ok (some rotateBody)) ∈ es ∧
      .recorded 0 rotateOperation.requested (.ok ()) ∈ es ∧
      ∃ answer, .answered 0 answer ∈ es ∧ ¬ answer.DueToAudit ∧
        answer = .success 200 noStore (.rotation samplePhone secondToken sampleNow.wall) := by
  have hrun : (Machine.run (step sampleEnv) (System.initial sampleStore) rotateActions).map
      Prod.snd = some [.checked 0 (.ok ()), .recorded 0 rotateOperation.requested (.ok ()),
        .committed 0 rotateOperation (.ok (some rotateBody)), .closed 0 false,
        .recorded 0 (rotateOperation.succeeded rotateBody) (.error OperatorAudit.operationFailed),
        .answered 0 (rotateOperation.success rotateBody)] := by decide +kernel
  obtain ⟨⟨s, es⟩, hrun, rfl⟩ := Option.map_eq_some_iff.1 hrun
  have hok : ∀ a ∈ rotateActions, a.StoreFailuresOnly := by
    simp [rotateActions, Action.StoreFailuresOnly, IsStoreFailure, OperatorAudit.operationFailed]
  have hreaches := Machine.reaches_of_run (Machine.allowed_of_forall hok) hrun
  obtain ⟨-, hrequested, hanswers⟩ := mutations_are_requested_first hreaches
  obtain ⟨hnotAudit, -⟩ := hanswers 0 rotateOperation (.ok (some rotateBody))
    (rotateOperation.success rotateBody) (by simp) (by simp)
  refine ⟨s, _, hreaches, by simp, by simp, ?_, _, by simp, hnotAudit, rfl⟩
  have hbefore := (hrequested [.checked 0 (.ok ()), .recorded 0 rotateOperation.requested (.ok ())]
    _ _ rfl 0 rotateOperation (.ok (some rotateBody)) rfl).1
  exact List.mem_append_left _ hbefore

end GoffyHub.PairingApi
