import GoffyOs.Hub.Credentials
import GoffyOs.Lib.Dict
import GoffyOs.Lib.Machine

/-!
# Pairing challenges (`goffy_hub/pairing.py`)

A device is paired by presenting the token of a pending challenge before it expires; the service
then issues a credential. Calls of `begin` and `complete` overlap: each reads the clock, later enters
a section under the service's lock, and a matching `complete` then calls `CredentialStore.issue` in a
worker thread. A step of the system is one of these parts, for any call.

* `lockedBegin` and `lockedComplete` are the two locked sections;
* a challenge is named in histories by its `serial`, the number of challenges begun before it, since
  nothing here depends on the generated ids being distinct;
* `Proper` says what each event needs of the events before it, `Inv` is the invariant behind it.
-/

namespace GoffyHub.Pairing

open Python
open Credentials (CredentialTable IssueArgs)

/-- `CHALLENGE_DIGEST_DOMAIN`. -/
def challengeDigestDomain : Bytes := utf8 "goffy-pairing-challenge-v1".toList ++ [0]

def pairingChallengeTtlSeconds : ℕ := 120
def maxPendingChallenges : ℕ := 3
def maxChallengeFailures : ℕ := 5
def minGeneratedPairingTokenLength : ℕ := 32

/-- `PairingError` and its subclasses, and the built-in exceptions. -/
inductive PairingError
  | base (message : String)
  | busy (message : String)
  | invalidChallenge (message : String)
  | attemptLimit (message : String)
  | exn (e : Exn)
  deriving DecidableEq, Repr

/-- `PairingChallenge`. -/
structure PairingChallenge where
  challengeId : UUID
  pairingToken : Str
  expiresAt : NaiveDateTime

/-- `_PendingChallenge`, with its `serial` for histories. -/
structure PendingChallenge where
  tokenDigest : Digest
  expiresAt : NaiveDateTime
  failedAttempts : ℕ := 0
  serial : ℕ

/-- `_challenge_digest`. -/
def challengeDigest (token : Str) : Digest := sha256 (challengeDigestDomain ++ utf8 token)

/-- `_as_utc`, which refuses naive readings. -/
def asUtc (d : DateTime) : Except PairingError NaiveDateTime :=
  match d.offset with
  | none => .error (.base "pairing timestamps must be timezone-aware")
  | some _ => (astimezoneUtc (fun _ => .ok 0) d).mapError .exn

/-- `_prune_expired`. -/
def pruneExpired (now : NaiveDateTime) (pending : Dict UUID PendingChallenge) :
    Dict UUID PendingChallenge := pending.filter fun _ p => now.before p.expiresAt

/-- The part of `begin` before its lock: the length check and the clock. -/
def prepareBegin (pairingToken : Str) (reading : DateTime) : Except PairingError NaiveDateTime :=
  if pairingToken.length < minGeneratedPairingTokenLength then
    .error (.base "generated pairing token is too short")
  else asUtc reading

/-- The locked section of `begin`. -/
def lockedBegin (ttl : ℕ) (pending : Dict UUID PendingChallenge) (now : NaiveDateTime)
    (pairingToken : Str) (challengeId : UUID) (serial : ℕ) :
    Dict UUID PendingChallenge × Except PairingError PairingChallenge :=
  let pending := pruneExpired now pending
  if maxPendingChallenges ≤ pending.size then
    (pending, .error (.busy "pending pairing challenge limit reached"))
  else match now.addSeconds ttl with
    | none => (pending, .error (.exn .overflowError))
    | some expiresAt =>
      (pending.set challengeId
        { tokenDigest := challengeDigest pairingToken, expiresAt := expiresAt, serial := serial },
        .ok ⟨challengeId, pairingToken, expiresAt⟩)

/-- How the locked section of `complete` ends, with the challenge it found. -/
inductive Verdict
  | unknown
  | expired (p : PendingChallenge)
  | wrong (p : PendingChallenge)
  | limit (p : PendingChallenge)
  | matched (p : PendingChallenge)

/-- What `complete` raises; `none` when it goes on to issue a credential. -/
def Verdict.error : Verdict → Option PairingError
  | .unknown | .expired _ | .wrong _ => some (.invalidChallenge "pairing challenge is invalid")
  | .limit _ => some (.attemptLimit "pairing attempt limit reached")
  | .matched _ => none

/-- The locked section of `complete`. -/
def lockedComplete (pending : Dict UUID PendingChallenge) (now : NaiveDateTime) (challengeId : UUID)
    (pairingToken : Str) : Dict UUID PendingChallenge × Verdict :=
  match pending.get? challengeId with
  | none => (pending.pop challengeId, .unknown)
  | some p =>
    if now.before p.expiresAt = false then (pending.pop challengeId, .expired p)
    else if challengeDigest pairingToken ≠ p.tokenDigest then
      let p' := { p with failedAttempts := p.failedAttempts + 1 }
      if maxChallengeFailures ≤ p'.failedAttempts then (pending.pop challengeId, .limit p)
      else (pending.set challengeId p', .wrong p)
    else (pending.pop challengeId, .matched p)

/-! ### Overlapping calls -/

/-- A call that has not returned: before its locked section, or about to issue. -/
inductive Call
  | beginning (now : NaiveDateTime) (pairingToken : Str)
  | completing (now : NaiveDateTime) (challengeId : UUID) (pairingToken : Str) (args : IssueArgs)
  | issuing (serial : ℕ) (args : IssueArgs)

/-- The service, the calls in progress and the store. `begun` counts the challenges. -/
structure System where
  pending : Dict UUID PendingChallenge
  begun : ℕ
  calls : ℕ → Option Call
  store : CredentialTable

/-- The parts of the calls, with what they read from outside. -/
inductive Action
  | startBegin (i : ℕ) (pairingToken : Str) (reading : DateTime)
  | enterBegin (i : ℕ) (challengeId : UUID)
  | startComplete (i : ℕ) (challengeId : UUID) (pairingToken : Str) (args : IssueArgs)
      (reading : DateTime)
  | enterComplete (i : ℕ)
  | issue (i : ℕ) (accessToken : Str) (credentialId : UUID) (now : DateTime) (fault : Fault)
  | cancel (i : ℕ)

/-- What happens to challenges. -/
inductive Event
  | begun (serial : ℕ) (tokenDigest : Digest) (expiresAt : NaiveDateTime)
  | expired (serial : ℕ)
  | wrong (serial : ℕ)
  | matched (i serial : ℕ) (presented : Digest) (now : NaiveDateTime)
  | issueCalled (i serial : ℕ)
  deriving DecidableEq

def System.initial (store : CredentialTable) : System := ⟨Dict.empty, 0, fun _ => none, store⟩

def System.setCall (s : System) (i : ℕ) (call : Option Call) : System :=
  { s with calls := Function.update s.calls i call }

/-- What a locked `complete` of call `i` means for its challenge. -/
def Verdict.events (i : ℕ) (presented : Digest) (now : NaiveDateTime) : Verdict → List Event
  | .unknown => []
  | .expired p => [.expired p.serial]
  | .wrong p | .limit p => [.wrong p.serial]
  | .matched p => [.matched i p.serial presented now]

/-- A part of a call, or the cancellation of its task. -/
def step (ttl : ℕ) : Machine.Step System Action Event
  | s, .startBegin i pairingToken reading =>
    match s.calls i, prepareBegin pairingToken reading with
    | none, .ok now => some (s.setCall i (some (.beginning now pairingToken)), [])
    | none, .error _ => some (s, [])
    | some _, _ => none
  | s, .enterBegin i challengeId =>
    match s.calls i with
    | some (.beginning now pairingToken) =>
      match lockedBegin ttl s.pending now pairingToken challengeId s.begun with
      | (pending, .error _) => some ({ s with pending := pending }.setCall i none, [])
      | (pending, .ok challenge) =>
        some ({ s with pending := pending, begun := s.begun + 1 }.setCall i none,
          [.begun s.begun (challengeDigest pairingToken) challenge.expiresAt])
    | _ => none
  | s, .startComplete i challengeId pairingToken args reading =>
    match s.calls i, asUtc reading with
    | none, .ok now => some (s.setCall i (some (.completing now challengeId pairingToken args)), [])
    | none, .error _ => some (s, [])
    | some _, _ => none
  | s, .enterComplete i =>
    match s.calls i with
    | some (.completing now challengeId pairingToken args) =>
      let (pending, verdict) := lockedComplete s.pending now challengeId pairingToken
      let call := match verdict with
        | .matched p => some (.issuing p.serial args)
        | _ => none
      some ({ s with pending := pending }.setCall i call,
        verdict.events i (challengeDigest pairingToken) now)
    | _ => none
  | s, .issue i accessToken credentialId now fault =>
    match s.calls i with
    | some (.issuing serial args) =>
      let (store, _) := Credentials.issue s.store args accessToken credentialId now fault
      some ({ s with store := store }.setCall i none, [.issueCalled i serial])
    | _ => none
  | s, .cancel i => some (s.setCall i none, [])

/-! ### Histories -/

/-- How many wrong tokens were presented for a challenge. -/
def wrongCount (es : List Event) (n : ℕ) : ℕ := es.count (.wrong n)

/-- A `complete` has matched the challenge. -/
def Matched (es : List Event) (n : ℕ) : Prop := ∃ i presented now, Event.matched i n presented now ∈ es

/-- `CredentialStore.issue` was called for the challenge. -/
def IssueCalled (es : List Event) (n : ℕ) : Prop := ∃ i, Event.issueCalled i n ∈ es

/-- **What an event needs of the events before it.** A challenge begins once. A `complete` matches
with the digest that the challenge began with, before its expiry, after fewer than five wrong tokens,
and neither after another match nor after an expired attempt. `issue` is called by the `complete`
that has matched, and once. -/
def Proper (before : List Event) : Event → Prop
  | .begun n _ _ => ∀ d t, Event.begun n d t ∉ before
  | .matched _ n presented now =>
    (∃ expiresAt, Event.begun n presented expiresAt ∈ before ∧ now.before expiresAt = true) ∧
      wrongCount before n < maxChallengeFailures ∧ ¬ Matched before n ∧ Event.expired n ∉ before
  | .issueCalled i n =>
    (∃ presented now, Event.matched i n presented now ∈ before) ∧ ¬ IssueCalled before n
  | .wrong _ | .expired _ => True

/-- The challenge that an event is about. -/
def Event.serial : Event → ℕ
  | .begun n _ _ | .expired n | .wrong n | .matched _ n _ _ | .issueCalled _ n => n

/-- A pending challenge may still be matched. -/
structure Open (es : List Event) (p : PendingChallenge) : Prop where
  begun : Event.begun p.serial p.tokenDigest p.expiresAt ∈ es
  failures : wrongCount es p.serial = p.failedAttempts
  failures_lt : p.failedAttempts < maxChallengeFailures
  unmatched : ¬ Matched es p.serial
  unexpired : Event.expired p.serial ∉ es

/-- The invariant of a run. -/
structure Inv (s : System) (es : List Event) : Prop where
  size_le : s.pending.size ≤ maxPendingChallenges
  isOpen : ∀ id p, s.pending.get? id = some p → Open es p
  distinct : ∀ id id' p p', s.pending.get? id = some p → s.pending.get? id' = some p' →
    p.serial = p'.serial → id = id'
  serial_lt : ∀ e ∈ es, e.serial < s.begun
  issuing : ∀ i n args, s.calls i = some (.issuing n args) →
    (∃ presented now, Event.matched i n presented now ∈ es) ∧ ¬ IssueCalled es n
  issuing_inj : ∀ i j n args args', s.calls i = some (.issuing n args) →
    s.calls j = some (.issuing n args') → i = j
  proper : Machine.AtEach Proper es

section Proofs

variable {s s' : System} {es : List Event} {p : PendingChallenge}

theorem Inv.initial (store : CredentialTable) : Inv (System.initial store) [] where
  size_le := Nat.zero_le _
  isOpen := by simp [System.initial]
  distinct := by simp [System.initial]
  serial_lt := by simp
  issuing := by simp [System.initial]
  issuing_inj := by simp [System.initial]
  proper := Machine.atEach_nil

/-- `issue` was only called for matched challenges. -/
theorem Inv.matched_of_issueCalled (h : Inv s es) {n : ℕ} (hn : IssueCalled es n) :
    Matched es n := by
  obtain ⟨i, hi⟩ := hn
  obtain ⟨pre, post, rfl⟩ := List.append_of_mem hi
  obtain ⟨⟨presented, now, hmem⟩, -⟩ := h.proper pre _ post rfl
  exact ⟨i, presented, now, List.mem_append_left _ hmem⟩

/-- Events of other challenges do not concern a pending one. -/
theorem Open.append (h : Open es p) {out : List Event} (hout : ∀ e ∈ out, e.serial ≠ p.serial) :
    Open (es ++ out) p := by
  refine ⟨List.mem_append_left _ h.begun, ?_, h.failures_lt, ?_, ?_⟩
  · have hnone : out.count (.wrong p.serial) = 0 :=
      List.count_eq_zero.2 fun hmem => hout _ hmem rfl
    rw [wrongCount, List.count_append, hnone]
    exact h.failures
  · rintro ⟨i, d, now, hmem⟩
    rcases List.mem_append.1 hmem with hmem | hmem
    · exact h.unmatched ⟨i, d, now, hmem⟩
    · exact hout _ hmem rfl
  · intro hmem
    rcases List.mem_append.1 hmem with hmem | hmem
    · exact h.unexpired hmem
    · exact hout _ hmem rfl

/-- A change of the calls that starts no `issue` keeps the invariant. -/
theorem Inv.setCall (h : Inv s es) (i : ℕ) {call : Option Call}
    (hcall : ∀ n args, call ≠ some (.issuing n args)) : Inv (s.setCall i call) es := by
  have hcalls : ∀ j n args, (s.setCall i call).calls j = some (.issuing n args) →
      s.calls j = some (.issuing n args) := by
    intro j n args hj
    by_cases hij : j = i
    · subst hij
      simp only [System.setCall, Function.update_self] at hj
      exact absurd hj (hcall n args)
    · simpa [System.setCall, hij] using hj
  exact ⟨h.size_le, h.isOpen, h.distinct, h.serial_lt, fun j n args hj => h.issuing j n args
    (hcalls j n args hj), fun j k n args args' hj hk => h.issuing_inj j k n args args'
    (hcalls j n args hj) (hcalls k n args' hk), h.proper⟩

/-- Dropping pending challenges keeps the invariant. -/
theorem Inv.shrink (h : Inv s es) {pending : Dict UUID PendingChallenge}
    (hsize : pending.size ≤ s.pending.size)
    (hsub : ∀ id p, pending.get? id = some p → s.pending.get? id = some p) :
    Inv { s with pending := pending } es :=
  ⟨hsize.trans h.size_le, fun id p hp => h.isOpen id p (hsub id p hp),
    fun id id' p p' hp hp' => h.distinct id id' p p' (hsub id p hp) (hsub id' p' hp'),
    h.serial_lt, h.issuing, h.issuing_inj, h.proper⟩

theorem issueCalled_concat {e : Event} (he : ∀ i n, e ≠ .issueCalled i n) {n : ℕ} :
    IssueCalled (es ++ [e]) n ↔ IssueCalled es n := by
  constructor
  · rintro ⟨i, hi⟩
    rcases List.mem_append.1 hi with hi | hi
    · exact ⟨i, hi⟩
    · exact absurd (List.mem_singleton.1 hi).symm (he i n)
  · rintro ⟨i, hi⟩
    exact ⟨i, List.mem_append_left _ hi⟩

/-- Calls about to issue are not concerned by an event that is no `issue`. -/
theorem Inv.issuing_concat (h : Inv s es) {e : Event} (he : ∀ i n, e ≠ .issueCalled i n) :
    ∀ i n args, s.calls i = some (.issuing n args) →
      (∃ presented now, Event.matched i n presented now ∈ es ++ [e]) ∧
        ¬ IssueCalled (es ++ [e]) n := by
  intro i n args hi
  obtain ⟨⟨presented, now, hmem⟩, hnot⟩ := h.issuing i n args hi
  exact ⟨⟨presented, now, List.mem_append_left _ hmem⟩, by rwa [issueCalled_concat he]⟩

theorem Inv.proper_concat (h : Inv s es) {e : Event} (he : Proper es e) :
    Machine.AtEach Proper (es ++ [e]) :=
  Machine.atEach_append h.proper (Machine.atEach_cons (by simpa using he) Machine.atEach_nil)

theorem Inv.serial_lt_concat (h : Inv s es) {e : Event} (he : e.serial < s.begun) :
    ∀ x ∈ es ++ [e], x.serial < s.begun := by
  intro x hx
  rcases List.mem_append.1 hx with hx | hx
  · exact h.serial_lt x hx
  · rw [List.mem_singleton.1 hx]
    exact he

/-- A new challenge. -/
theorem Inv.begin (h : Inv s es) (hsize : s.pending.size < maxPendingChallenges) (id : UUID)
    (d : Digest) (t : NaiveDateTime) :
    Inv { s with
        pending := s.pending.set id { tokenDigest := d, expiresAt := t, serial := s.begun }
        begun := s.begun + 1 }
      (es ++ [.begun s.begun d t]) := by
  have hold : ∀ id p, s.pending.get? id = some p → p.serial < s.begun := fun id p hp =>
    h.serial_lt _ (h.isOpen id p hp).begun
  have hnew : ∀ e ∈ es, e.serial ≠ s.begun := fun e he => (h.serial_lt e he).ne
  refine ⟨?_, ?_, ?_, ?_, h.issuing_concat (by simp), h.issuing_inj, h.proper_concat ?_⟩
  · exact Dict.size_set_le.trans hsize
  · intro id' p hp
    simp only [Dict.get?_set] at hp
    split at hp
    · cases hp
      refine ⟨by simp, ?_, Nat.zero_lt_succ _, ?_, ?_⟩
      · refine List.count_eq_zero.2 fun hmem => ?_
        exact hnew (.wrong s.begun) (by simpa using hmem) rfl
      · rintro ⟨i, d', now, hmem⟩
        exact hnew _ (by simpa using hmem) rfl
      · intro hmem
        exact hnew _ (by simpa using hmem) rfl
    · refine (h.isOpen id' p hp).append fun e he => ?_
      rw [List.mem_singleton.1 he]
      exact (hold id' p hp).ne'
  · intro id₁ id₂ p₁ p₂ h₁ h₂ heq
    simp only [Dict.get?_set] at h₁ h₂
    split at h₁ <;> split at h₂
    · simp_all
    · cases h₁
      exact absurd heq (hold _ _ h₂).ne'
    · cases h₂
      exact absurd heq (hold _ _ h₁).ne
    · exact h.distinct id₁ id₂ p₁ p₂ h₁ h₂ heq
  · intro e he
    rcases List.mem_append.1 he with he | he
    · exact Nat.lt_succ_of_lt (h.serial_lt e he)
    · rw [List.mem_singleton.1 he]
      exact Nat.lt_succ_self _
  · intro d' t' hmem
    exact hnew _ hmem rfl

/-- An event that ends a pending challenge. -/
theorem Inv.close (h : Inv s es) {id : UUID} (hp : s.pending.get? id = some p) {e : Event}
    (hserial : e.serial = p.serial) (he : ∀ i n, e ≠ .issueCalled i n) (hproper : Proper es e) :
    Inv { s with pending := s.pending.pop id } (es ++ [e]) := by
  have hbegun := h.serial_lt _ (h.isOpen id p hp).begun
  refine ⟨Dict.size_pop_le.trans h.size_le, ?_, ?_, h.serial_lt_concat (hserial ▸ hbegun),
    h.issuing_concat he, h.issuing_inj, h.proper_concat hproper⟩
  · intro id' p' hp'
    simp only [Dict.get?_pop] at hp'
    split at hp'
    · cases hp'
    · rename_i hne
      refine (h.isOpen id' p' hp').append fun x hx heq => hne ?_
      rw [List.mem_singleton.1 hx, hserial] at heq
      exact h.distinct id id' p p' hp hp' heq
  · intro id₁ id₂ p₁ p₂ h₁ h₂
    simp only [Dict.get?_pop] at h₁ h₂
    split at h₁
    · cases h₁
    · split at h₂
      · cases h₂
      · exact h.distinct id₁ id₂ p₁ p₂ h₁ h₂

/-- A wrong token that is not the last one allowed. -/
theorem Inv.wrong (h : Inv s es) {id : UUID} (hp : s.pending.get? id = some p)
    (hlt : p.failedAttempts + 1 < maxChallengeFailures) :
    Inv { s with pending := s.pending.set id { p with failedAttempts := p.failedAttempts + 1 } }
      (es ++ [.wrong p.serial]) := by
  have hopen := h.isOpen id p hp
  have hbegun := h.serial_lt _ hopen.begun
  have hget : ∀ id' p', (s.pending.set id { p with failedAttempts := p.failedAttempts + 1 }).get? id'
      = some p' → ∃ old, s.pending.get? id' = some old ∧ old.serial = p'.serial := by
    intro id' p' hp'
    rw [Dict.get?_set] at hp'
    split at hp'
    · rename_i heq
      cases hp'
      exact ⟨p, heq ▸ hp, rfl⟩
    · exact ⟨p', hp', rfl⟩
  refine ⟨?_, ?_, ?_, h.serial_lt_concat hbegun, h.issuing_concat (by simp), h.issuing_inj,
    h.proper_concat trivial⟩
  · exact (Dict.size_set_of_some hp).le.trans h.size_le
  · intro id' p' hp'
    simp only [Dict.get?_set] at hp'
    split at hp'
    · cases hp'
      refine ⟨List.mem_append_left _ hopen.begun, ?_, hlt, ?_, ?_⟩
      · have hcount := hopen.failures
        unfold wrongCount at hcount ⊢
        rw [List.count_append, hcount]
        simp
      · rintro ⟨i, d, now, hmem⟩
        exact hopen.unmatched ⟨i, d, now, by simpa using hmem⟩
      · intro hmem
        exact hopen.unexpired (by simpa using hmem)
    · rename_i hne
      refine (h.isOpen id' p' hp').append fun x hx heq => hne ?_
      rw [List.mem_singleton.1 hx] at heq
      exact h.distinct id id' p p' hp hp' heq
  · intro id₁ id₂ p₁ p₂ h₁ h₂ heq
    obtain ⟨old₁, ho₁, hs₁⟩ := hget id₁ p₁ h₁
    obtain ⟨old₂, ho₂, hs₂⟩ := hget id₂ p₂ h₂
    exact h.distinct id₁ id₂ old₁ old₂ ho₁ ho₂ (hs₁.trans (heq.trans hs₂.symm))

/-- A match, after which the call is about to issue. -/
theorem Inv.matchCall (h : Inv s es) {id : UUID} (hp : s.pending.get? id = some p) (i : ℕ)
    {now : NaiveDateTime} (hnow : now.before p.expiresAt = true) (args : IssueArgs) :
    Inv ({ s with pending := s.pending.pop id }.setCall i (some (.issuing p.serial args)))
      (es ++ [.matched i p.serial p.tokenDigest now]) := by
  have hopen := h.isOpen id p hp
  have hclose := h.close hp (e := .matched i p.serial p.tokenDigest now) rfl (by simp)
    ⟨⟨p.expiresAt, hopen.begun, hnow⟩, hopen.failures ▸ hopen.failures_lt, hopen.unmatched,
      hopen.unexpired⟩
  have hother : ∀ j args', s.calls j ≠ some (.issuing p.serial args') := by
    intro j args' hj
    obtain ⟨⟨d, t, hmem⟩, -⟩ := h.issuing j p.serial args' hj
    exact hopen.unmatched ⟨j, d, t, hmem⟩
  have hcalls : ∀ j n args',
      (({ s with pending := s.pending.pop id } : System).setCall i
        (some (.issuing p.serial args))).calls j = some (.issuing n args') →
      j = i ∧ n = p.serial ∨ j ≠ i ∧ s.calls j = some (.issuing n args') := by
    intro j n args' hj
    by_cases hij : j = i
    · subst hij
      simp only [System.setCall, Function.update_self, Option.some.injEq, Call.issuing.injEq] at hj
      exact Or.inl ⟨rfl, hj.1.symm⟩
    · exact Or.inr ⟨hij, by simpa [System.setCall, hij] using hj⟩
  refine ⟨hclose.size_le, hclose.isOpen, hclose.distinct, hclose.serial_lt, ?_, ?_, hclose.proper⟩
  · intro j n args' hj
    rcases hcalls j n args' hj with ⟨rfl, rfl⟩ | ⟨-, hj⟩
    · refine ⟨⟨p.tokenDigest, now, by simp⟩, ?_⟩
      rw [issueCalled_concat (by simp)]
      exact fun hcalled => hopen.unmatched (h.matched_of_issueCalled hcalled)
    · exact hclose.issuing j n args' hj
  · intro j k n args₁ args₂ hj hk
    rcases hcalls j n args₁ hj with ⟨hji, hn⟩ | ⟨-, hj'⟩ <;>
      rcases hcalls k n args₂ hk with ⟨hki, hn'⟩ | ⟨-, hk'⟩
    · rw [hji, hki]
    · exact absurd (hn ▸ hk') (hother k args₂)
    · exact absurd (hn' ▸ hj') (hother j args₁)
    · exact h.issuing_inj j k n args₁ args₂ hj' hk'

/-- The call of `issue` after a match. -/
theorem Inv.issue (h : Inv s es) {i n : ℕ} {args : IssueArgs}
    (hi : s.calls i = some (.issuing n args)) (store : CredentialTable) :
    Inv ({ s with store := store }.setCall i none) (es ++ [.issueCalled i n]) := by
  obtain ⟨⟨presented, now, hmatched⟩, hnot⟩ := h.issuing i n args hi
  have hcalls : ∀ j m args', (({ s with store := store } : System).setCall i none).calls j =
      some (.issuing m args') → j ≠ i ∧ s.calls j = some (.issuing m args') := by
    intro j m args' hj
    by_cases hij : j = i
    · subst hij
      simp [System.setCall] at hj
    · exact ⟨hij, by simpa [System.setCall, hij] using hj⟩
  have hserial : Event.serial (.issueCalled i n) < s.begun :=
    h.serial_lt (.matched i n presented now) hmatched
  refine ⟨h.size_le, ?_, h.distinct, h.serial_lt_concat hserial, ?_, ?_,
    h.proper_concat ⟨⟨presented, now, hmatched⟩, hnot⟩⟩
  · intro id p hp
    have hopen := h.isOpen id p hp
    refine hopen.append fun x hx heq => hopen.unmatched ?_
    rw [List.mem_singleton.1 hx] at heq
    exact ⟨i, presented, now, heq ▸ hmatched⟩
  · intro j m args' hj
    obtain ⟨hij, hj⟩ := hcalls j m args' hj
    obtain ⟨⟨presented', now', hmem⟩, hnot'⟩ := h.issuing j m args' hj
    refine ⟨⟨presented', now', List.mem_append_left _ hmem⟩, ?_⟩
    rintro ⟨k, hk⟩
    rcases List.mem_append.1 hk with hk | hk
    · exact hnot' ⟨k, hk⟩
    · cases List.mem_singleton.1 hk
      exact hij (h.issuing_inj j i n args' args hj hi)
  · intro j k m args₁ args₂ hj hk
    exact h.issuing_inj j k m args₁ args₂ (hcalls j m args₁ hj).2 (hcalls k m args₂ hk).2

theorem Inv.lockedBegin (h : Inv s es) {ttl i : ℕ} {id : UUID} {out : List Event}
    (hs : step ttl s (.enterBegin i id) = some (s', out)) : Inv s' (es ++ out) := by
  simp only [step] at hs
  split at hs
  · rename_i now pairingToken hi
    have hpruned : Inv { s with pending := pruneExpired now s.pending } es := by
      refine h.shrink Dict.size_filter_le fun id p hp => ?_
      rw [pruneExpired, Dict.get?_filter, Option.filter_eq_some_iff] at hp
      exact hp.1
    unfold Pairing.lockedBegin at hs
    simp only at hs
    by_cases hsize : maxPendingChallenges ≤ (pruneExpired now s.pending).size
    · simp only [if_pos hsize] at hs
      cases hs
      rw [List.append_nil]
      exact hpruned.setCall i (by simp)
    · simp only [if_neg hsize] at hs
      cases hexp : now.addSeconds ttl with
      | none =>
        simp only [hexp] at hs
        cases hs
        rw [List.append_nil]
        exact hpruned.setCall i (by simp)
      | some expiresAt =>
        simp only [hexp] at hs
        cases hs
        exact (hpruned.begin (Nat.lt_of_not_le hsize) id _ _).setCall i (by simp)
  · cases hs

theorem Inv.lockedComplete (h : Inv s es) {ttl i : ℕ} {out : List Event}
    (hs : step ttl s (.enterComplete i) = some (s', out)) : Inv s' (es ++ out) := by
  simp only [step] at hs
  split at hs
  · rename_i now id pairingToken args hi
    unfold Pairing.lockedComplete at hs
    cases hp : s.pending.get? id with
    | none =>
      simp only [hp] at hs
      cases hs
      rw [Verdict.events, List.append_nil]
      refine (h.shrink Dict.size_pop_le fun id' p hp' => ?_).setCall i (by simp)
      rw [Dict.get?_pop] at hp'
      split at hp'
      · cases hp'
      · exact hp'
    | some p =>
      have hopen := h.isOpen id p hp
      simp only [hp] at hs
      by_cases hnow : now.before p.expiresAt = false
      · simp only [if_pos hnow] at hs
        cases hs
        exact (h.close hp (e := .expired p.serial) rfl (by simp) trivial).setCall i (by simp)
      · simp only [if_neg hnow] at hs
        by_cases hdigest : challengeDigest pairingToken ≠ p.tokenDigest
        · simp only [if_pos hdigest] at hs
          by_cases hlimit : maxChallengeFailures ≤ p.failedAttempts + 1
          · simp only [if_pos hlimit] at hs
            cases hs
            exact (h.close hp (e := .wrong p.serial) rfl (by simp) trivial).setCall i (by simp)
          · simp only [if_neg hlimit] at hs
            cases hs
            exact (h.wrong hp (Nat.lt_of_not_le hlimit)).setCall i (by simp)
        · simp only [if_neg hdigest] at hs
          cases hs
          rw [Verdict.events, not_not.1 hdigest]
          exact h.matchCall hp i (Bool.eq_true_of_not_eq_false hnow) args
  · cases hs

/-- Every part of every call keeps the invariant. -/
theorem Inv.step {ttl : ℕ} {a : Action} {out : List Event} (h : Inv s es)
    (hs : Pairing.step ttl s a = some (s', out)) : Inv s' (es ++ out) := by
  cases a with
  | startBegin i pairingToken reading =>
    simp only [Pairing.step] at hs
    split at hs
    · cases hs
      rw [List.append_nil]
      exact h.setCall i (by simp)
    · cases hs
      rw [List.append_nil]
      exact h
    · cases hs
  | enterBegin i id => exact h.lockedBegin hs
  | startComplete i id pairingToken args reading =>
    simp only [Pairing.step] at hs
    split at hs
    · cases hs
      rw [List.append_nil]
      exact h.setCall i (by simp)
    · cases hs
      rw [List.append_nil]
      exact h
    · cases hs
  | enterComplete i => exact h.lockedComplete hs
  | issue i accessToken credentialId now fault =>
    simp only [Pairing.step] at hs
    split at hs
    · rename_i n args hi
      cases hs
      exact h.issue hi _
    · cases hs
  | cancel i =>
    cases hs
    rw [List.append_nil]
    exact h.setCall i (by simp)

end Proofs

/-- **Runs of the pairing service.** Whatever calls overlap, with whatever clock readings and tokens:
at most three challenges are pending, and every event is `Proper`. So each challenge leads to at most
one `issue` call, from a `complete` with the right token before the expiry and after fewer than five
wrong ones; and a match, a fifth wrong token or an expired attempt is the last chance. -/
theorem pairing_over_runs {ttl : ℕ} {store : CredentialTable} {s : System} {es : List Event}
    (h : Machine.Reaches (step ttl) Machine.anyStep (System.initial store) s es) :
    s.pending.size ≤ 3 ∧ Machine.AtEach Proper es := by
  have hinv : Inv s es :=
    h.invariant (I := Inv) (Inv.initial store) fun _ _ _ _ _ hI _ hs => hI.step hs
  exact ⟨hinv.size_le, hinv.proper⟩

theorem pairedAt_valid : (⟨2026, 7, 20, 12, 0, 0, 0⟩ : Fields).Valid := by decide

/-- One challenge: a wrong token, the right one, and the `issue` call. -/
def onePairing : List Action :=
  let noon : DateTime := ⟨⟨⟨2026, 7, 20, 12, 0, 0, 0⟩, pairedAt_valid⟩, some 0⟩
  let token := List.replicate 32 'p'
  [.startBegin 0 token noon, .enterBegin 0 1,
   .startComplete 1 1 "guess".toList ⟨"phone-1".toList, "Phone".toList, none⟩ noon,
   .enterComplete 1,
   .startComplete 2 1 token ⟨"phone-1".toList, "Phone".toList, none⟩ noon,
   .enterComplete 2, .issue 2 (List.replicate 32 'a') 7 noon .none]

theorem pairing_one : ∃ s es,
    Machine.run (step pairingChallengeTtlSeconds) (System.initial CredentialTable.empty) onePairing =
        some (s, es) ∧
      wrongCount es 0 = 1 ∧ Event.issueCalled 2 0 ∈ es ∧ s.pending.size ≤ 3 ∧
      Machine.AtEach Proper es := by
  have hrun : (Machine.run (step pairingChallengeTtlSeconds) (System.initial CredentialTable.empty)
      onePairing).map (fun r => (wrongCount r.2 0, decide (Event.issueCalled 2 0 ∈ r.2))) =
        some (1, true) := by
    decide +kernel
  obtain ⟨⟨s, es⟩, hs, hes⟩ := Option.map_eq_some_iff.1 hrun
  obtain ⟨hwrong, hissued⟩ := Prod.mk.inj hes
  exact ⟨s, es, hs, hwrong, of_decide_eq_true hissued, pairing_over_runs (Machine.run_reaches hs)⟩

end GoffyHub.Pairing
