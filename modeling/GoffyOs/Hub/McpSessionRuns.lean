import GoffyOs.Hub.LiveAccessRuns
import GoffyOs.Hub.McpSessions

/-!
# MCP sessions and credential changes

Two questions about `terminate_client`, over every interleaving of `initialize` requests with
revocations and rotations.

* Which sessions does a change leave in the manager? `changes_leave_no_stale_session`: when the
  change and the requests authenticated before it have completed, only sessions whose token was
  accepted after the change. A session that is opened after `terminate_client` has gone through the
  dictionaries belongs to a request that has its second authentication still before it (`Settled`);
* which sessions keep a slot in the middleware? The callback gives back the slots of the sessions
  that were recorded by then. `terminated_sessions_hold_no_slot` says so for the runs where a
  callback finds every removed session recorded, or its request failed; in `dead_session_slot` the
  request of the session records it afterwards.
-/

namespace GoffyHub.McpSessions

open Python
open Approval (Crypto)
open Credentials (CredentialTable CredentialRow IssueArgs firstToken secondToken samplePhone
  sampleNow)
open LiveAccess (ChangeKind)

/-! ### Tokens that stay valid -/

section Store

variable {crypto : Crypto} {zone : NaiveDateTime → Except Exn ℤ} {authToken : Option Str}
  {table table' : CredentialTable} {token : Str} {c c' : UUID}

/-- The token is that of the active credential `c`. -/
def Holds (zone : NaiveDateTime → Except Exn ℤ) (table : CredentialTable) (token : Str)
    (c : UUID) : Prop :=
  ∃ credential, Credentials.authenticate zone table token .none = .ok (some credential) ∧
    credential.credentialId = c

theorem credentialId_of_rowToCredential {row : CredentialRow}
    {credential : Credentials.PairedCredential}
    (h : Credentials.rowToCredential zone row = .ok credential)
    (hid : row.credentialId = uuidStr c') : c' = credential.credentialId := by
  have hparse : Credentials.parseCredentialId row.credentialId = .ok c' := by
    simp [Credentials.parseCredentialId, hid, parseUuid_uuidStr]
  unfold Credentials.rowToCredential at h
  rw [hparse] at h
  cases hcreated : parseDatetime zone row.createdAt with
  | error e =>
    rw [hcreated] at h
    cases h
  | ok createdAt =>
    rw [hcreated] at h
    simp only [bind, Except.bind] at h
    split at h
    · cases h
      rfl
    · rename_i text _
      cases hrevoked : parseDatetime zone text with
      | error e =>
        rw [hrevoked] at h
        cases h
      | ok revokedAt =>
        rw [hrevoked] at h
        cases h
        rfl

theorem holds_iff : Holds zone table token c ↔ Credentials.presentable token = true ∧
    ∃ row ∈ table.rows, row.active = true ∧ row.tokenDigest = Credentials.tokenDigest token ∧
      ∃ credential, Credentials.rowToCredential zone row = .ok credential ∧
        credential.credentialId = c := by
  constructor
  · rintro ⟨credential, hok, hc⟩
    obtain ⟨hpres, row, hrow, hactive, hdigest, hcred⟩ := Credentials.authenticate_eq_ok_iff.1 hok
    exact ⟨hpres, row, hrow, hactive, hdigest, credential, hcred, hc⟩
  · rintro ⟨hpres, row, hrow, hactive, hdigest, credential, hcred, hc⟩
    exact ⟨credential, Credentials.authenticate_eq_ok_iff.2
      ⟨hpres, row, hrow, hactive, hdigest, hcred⟩, hc⟩

theorem holds_issue (args : IssueArgs) (t : Str) (now : DateTime) (fault : Fault)
    (h : Holds zone table token c) :
    Holds zone (Credentials.issue table args t c' now fault).1 token c := by
  rcases Credentials.issue_cases table args t c' now fault with
    ⟨e, heq⟩ | ⟨table', credential, heq, hcred, hissues⟩
  · rw [heq]
    exact h
  rw [heq]
  obtain ⟨credential', hcred', hinsert⟩ := hissues.insert
  unfold CredentialTable.insert at hinsert
  split at hinsert
  · cases hinsert
    obtain ⟨hpres, row, hrow, hactive, hrest⟩ := holds_iff.1 h
    exact holds_iff.2 ⟨hpres, row,
      List.mem_cons_of_mem _ (Credentials.mem_pruneRevoked_of_active hrow hactive), hactive, hrest⟩
  · cases hinsert

/-- Only a revocation of the credential takes its token, and it says so. -/
theorem holds_revoke (now : DateTime) (fault : Fault) (h : Holds zone table token c) :
    Holds zone (Credentials.revoke zone table c' now fault).1 token c ∨
      (c' = c ∧ ∃ credential,
        (Credentials.revoke zone table c' now fault).2 = .ok (some credential)) := by
  unfold Credentials.revoke
  split
  · exact Or.inl h
  split
  · exact Or.inl h
  split
  · split <;> exact Or.inl h
  rename_i found hfind
  split
  · exact Or.inl h
  · obtain ⟨hpres, row, hrow, hactive, hdigest, credential, hcred, rfl⟩ := holds_iff.1 h
    by_cases hid : row.credentialId = uuidStr c'
    · -- the row of the token is the one that was found, so that it is readable
      obtain ⟨hmem, hid', -⟩ := Credentials.findActive_eq_some_iff.1 hfind
      obtain rfl := Credentials.row_eq_of_id hrow hmem (hid.trans hid'.symm)
      refine Or.inr ⟨credentialId_of_rowToCredential hcred hid, ?_⟩
      rw [hcred]
      exact ⟨_, rfl⟩
    · refine Or.inl (holds_iff.2 ⟨hpres, row, List.mem_map.2 ⟨row, hrow, if_neg hid⟩, hactive,
        hdigest, credential, hcred, rfl⟩)

/-- Only a rotation of the credential takes its token, and it says so. -/
theorem holds_rotate (current new : Str) (now : DateTime) (fault : Fault)
    (h : Holds zone table token c) :
    Holds zone (Credentials.rotate zone table c' current new now fault).1 token c ∨
      (c' = c ∧ ∃ rotated,
        (Credentials.rotate zone table c' current new now fault).2 = .ok (some rotated)) := by
  unfold Credentials.rotate
  split
  · exact Or.inl h
  split
  · exact Or.inl h
  simp only
  split
  · exact Or.inl h
  split
  · split <;> exact Or.inl h
  rename_i found hfind
  split
  · exact Or.inl h
  split
  · exact Or.inl h
  split
  · exact Or.inl h
  rename_i table' hset
  split
  · exact Or.inl h
  unfold CredentialTable.setTokenDigest at hset
  simp only at hset
  split at hset
  · cases hset
    obtain ⟨hpres, row, hrow, hactive, hdigest, credential, hcred, rfl⟩ := holds_iff.1 h
    by_cases hid : row.credentialId = uuidStr c'
    · obtain ⟨hmem, hid', -⟩ :=
        Credentials.findActive_eq_some_iff.1 (Option.filter_eq_some_iff.1 hfind).1
      obtain rfl := Credentials.row_eq_of_id hrow hmem (hid.trans hid'.symm)
      refine Or.inr ⟨credentialId_of_rowToCredential hcred hid, ?_⟩
      rw [hcred]
      exact ⟨_, rfl⟩
    · have hsame : row ∈ table.rows.map (CredentialTable.rotateRow c'
          (Credentials.tokenDigest current) (Credentials.tokenDigest new)) :=
        List.mem_map.2 ⟨row, hrow, if_neg fun hrot => hid hrot.1⟩
      exact Or.inl (holds_iff.2 ⟨hpres, row, hsame, hactive, hdigest, credential, hcred, rfl⟩)
  · cases hset

/-- No token is found when the store fails. -/
theorem fault_of_authenticate {fault : Fault} {credential : Credentials.PairedCredential}
    (h : Credentials.authenticate zone table token fault = .ok (some credential)) :
    fault = .none := by
  unfold Credentials.authenticate at h
  split at h
  · cases h
  split at h
  · cases h
  · rename_i hfault
    exact not_not.1 hfault

theorem accepts_of_fault {clientId : Str} {fault : Fault}
    (h : accepts crypto zone authToken table token clientId fault = true) :
    accepts crypto zone authToken table token clientId .none = true := by
  unfold accepts at h
  split at h
  · cases h
  rename_i current hcurrent
  rcases Auth.authenticateToken_cases hcurrent with ⟨hboot, rfl⟩ | ⟨credential, hauth, -⟩
  · unfold accepts
    unfold Auth.authenticateToken at hcurrent ⊢
    split at hcurrent
    · cases hcurrent
    · rename_i hlen
      rw [if_neg hlen, if_pos hboot]
      exact h
  · obtain rfl := fault_of_authenticate hauth
    unfold accepts
    rw [hcurrent]
    exact h

/-- `accepts` asks for the credential of a token that is not the bootstrap token. -/
theorem accepts_iff {fault : Fault} :
    accepts crypto zone authToken table token (Auth.pairedClientId c) fault = true ↔
      ¬ (token = [] ∨ Auth.maxBearerLength < token.length) ∧ authToken ≠ some token ∧
        fault = .none ∧ Holds zone table token c := by
  unfold accepts Auth.authenticateToken
  split_ifs with hlen hboot
  · simp [hlen]
  · simp [hboot, Auth.bootstrap_ne_pairedClientId]
  simp only [hlen, not_false_eq_true, ne_eq, hboot, true_and]
  cases hauth : Credentials.authenticate zone table token fault with
  | error e =>
    simp only [Bool.false_eq_true, false_iff, not_and]
    rintro rfl ⟨credential, hok, -⟩
    rw [hok] at hauth
    cases hauth
  | ok found =>
    cases found with
    | none =>
      simp only [Bool.false_eq_true, false_iff, not_and]
      rintro rfl ⟨credential, hok, -⟩
      rw [hok] at hauth
      cases hauth
    | some credential =>
      obtain rfl := fault_of_authenticate hauth
      simp only [Auth.pairedPrincipal, decide_eq_true_eq, Auth.pairedClientId_injective.eq_iff,
        true_and]
      constructor
      · exact fun hc => ⟨credential, hauth, hc⟩
      · rintro ⟨credential', hok, hc⟩
        rw [hok] at hauth
        cases hauth
        exact hc

end Store

/-! ### What a step can do -/

/-- The second authentication is behind the request. -/
@[simp] def Phase.settled : Phase → Bool
  | .checked _ | .completed => true
  | _ => false

/-- The request may still record its session in the middleware. -/
@[simp] def Phase.mayRecord : Phase → Bool
  | .authenticated | .reserved | .opened | .responded true | .stale true | .terminating true _
  | .checked true => true
  | _ => false

/-- The request may have a session in the manager. -/
@[simp] def Phase.hasSession : Phase → Bool
  | .authenticated | .rejected | .reserved | .terminating _ _ => false
  | _ => true

/-- The request has an answer. -/
@[simp] def Phase.isCompleted : Phase → Bool
  | .completed | .rejected => true
  | _ => false

/-- What any step of a request keeps. It is settled by having its token accepted, or after it has
terminated its client. -/
structure Advance (accepted : Str → Str → Prop) (time : ℕ) (r r' : Request) : Prop where
  token : r'.token = r.token
  clientId : r'.clientId = r.clientId
  authAt : r'.authAt = r.authAt
  acceptedAt : r'.acceptedAt = r.acceptedAt ∨ (r'.acceptedAt = time ∧ accepted r.token r.clientId)
  settled : r'.phase.settled = true → r.phase.settled = true ∨ r'.acceptedAt = time ∨
    ∃ accepted sessionIds, r.phase = .terminating accepted sessionIds
  mayRecord : r'.phase.mayRecord = true → r.phase.mayRecord = true

/-- A step gives no slot to a session that its request does not record any more. -/
def SlotsKept (s : System) (middleware : Middleware) : Prop :=
  ∀ id, s.middleware.activeSessions.get? id = none →
    (∀ r, s.requests id = some r → r.phase.mayRecord = false) →
      middleware.activeSessions.get? id = none

/-- The cases of a step. -/
inductive Effect (accepted : CredentialTable → Str → Str → Prop) (s : System) :
    Action → System → List Event → Prop
  | authenticate {i : ℕ} {token : Str} {fault : Fault} {r : Request} (hnew : s.requests i = none)
      (hclient : ∃ c, r.clientId = Auth.pairedClientId c) (hphase : r.phase = .authenticated)
      (hauth : r.authAt = s.time) (haccepted : r.acceptedAt = s.time ∧ accepted s.store r.token r.clientId) :
      Effect accepted s (.authenticate i token fault) (s.setRequest i r).tick []
  | request {a : Action} {i : ℕ} {r r' : Request} {middleware : Middleware}
      (hr : s.requests i = some r) (hadv : Advance (accepted s.store) s.time r r')
      (hsession : r.phase.hasSession = true → r'.phase.hasSession = true)
      (hslots : SlotsKept s middleware) :
      Effect accepted s a ({ s with middleware := middleware }.setRequest i r').tick []
  | openSession {i : ℕ} {r : Request} (hr : s.requests i = some r) (hphase : r.phase = .reserved) :
      Effect accepted s (.openSession i)
        ({ s with manager := s.manager.openSession i r.clientId }.setRequest i
          { r with phase := .opened }).tick []
  | terminateStale {i : ℕ} {r : Request} {b : Bool} (hr : s.requests i = some r)
      (hphase : r.phase = .stale b) :
      Effect accepted s (.terminateStale i)
        ({ s with manager := s.manager.removeClient r.clientId }.setRequest i
          { r with phase := .terminating b (s.manager.sessionsOf r.clientId) }).tick []
  | callbackStale {i : ℕ} {r : Request} {b : Bool} {ids : List ℕ} (hr : s.requests i = some r)
      (hphase : r.phase = .terminating b ids) :
      Effect accepted s (.callbackStale i)
        ({ s with middleware := s.middleware.removeSessions ids }.setRequest i
          { r with phase := .checked b }).tick [.terminated ids]
  | store {a : Action} {store : CredentialTable}
      (hkeep : ∀ token c, accepted s.store token (Auth.pairedClientId c) →
        accepted store token (Auth.pairedClientId c)) :
      Effect accepted s a { s with store := store }.tick []
  | commit {a : Action} {j : ℕ} {kind : ChangeKind} {c : UUID} {store : CredentialTable}
      (hkeep : ∀ token c', c' ≠ c → accepted s.store token (Auth.pairedClientId c') →
        accepted store token (Auth.pairedClientId c')) :
      Effect accepted s a
        ({ s with store := store }.setChange j (some (.committed kind c s.time))).tick
        [.committed kind c s.time]
  | terminateClient {j : ℕ} {kind : ChangeKind} {c : UUID} {t : ℕ}
      (hj : s.changes j = some (.committed kind c t)) :
      Effect accepted s (.terminateClient j)
        ({ s with manager := s.manager.removeClient (Auth.pairedClientId c) }.setChange j
          (some (.terminating kind c t (s.manager.sessionsOf (Auth.pairedClientId c))))).tick []
  | callbackClient {j : ℕ} {kind : ChangeKind} {c : UUID} {t : ℕ} {ids : List ℕ}
      (hj : s.changes j = some (.terminating kind c t ids)) :
      Effect accepted s (.callbackClient j)
        ({ s with middleware := s.middleware.removeSessions ids }.setChange j none).tick
        [.terminated ids, .completed kind c t]
  | failClient {j : ℕ} : Effect accepted s (.failClient j) (s.setChange j none).tick []
  | endSession {sessionId : ℕ} :
      Effect accepted s (.endSession sessionId)
        { s with manager := s.manager.endSession sessionId }.tick []
  | middleware {a : Action} {middleware : Middleware} (hslots : SlotsKept s middleware) :
      Effect accepted s a { s with middleware := middleware }.tick []

section Runs

variable {crypto : Crypto} {zone : NaiveDateTime → Except Exn ℤ} {authToken : Option Str}
  {settings : Settings} {s s' : System} {es out : List Event} {a : Action}

/-- The token is that of the client. -/
def Accepted (crypto : Crypto) (zone : NaiveDateTime → Except Exn ℤ) (authToken : Option Str)
    (store : CredentialTable) (token clientId : Str) : Prop :=
  accepts crypto zone authToken store token clientId .none = true

theorem Accepted.of_holds {table table' : CredentialTable} {token : Str} {c : UUID}
    (h : Accepted crypto zone authToken table token (Auth.pairedClientId c))
    (hkeep : Holds zone table token c → Holds zone table' token c) :
    Accepted crypto zone authToken table' token (Auth.pairedClientId c) := by
  unfold Accepted at h ⊢
  rw [accepts_iff] at h ⊢
  exact ⟨h.1, h.2.1, h.2.2.1, hkeep h.2.2.2⟩

variable (crypto zone authToken) in
theorem advance_reauthenticate {r : Request} {b : Bool} (hphase : r.phase = .responded b)
    (store : CredentialTable) (time : ℕ) (fault : Fault) :
    Advance (Accepted crypto zone authToken store) time r
        (r.reauthenticate crypto zone authToken store time fault b) ∧
      (r.reauthenticate crypto zone authToken store time fault b).phase.hasSession = true := by
  unfold Request.reauthenticate
  split
  · rename_i haccepts
    refine ⟨⟨rfl, rfl, rfl, Or.inr ⟨rfl, accepts_of_fault haccepts⟩, fun _ => Or.inr (Or.inl rfl), ?_⟩,
      by simp⟩
    cases b <;> simp [hphase]
  · refine ⟨⟨rfl, rfl, rfl, Or.inl rfl, by simp, ?_⟩, by simp⟩
    cases b <;> simp [hphase]

/-- A step that moves a request to another phase. -/
theorem advance_phase {accepted : Str → Str → Prop} {time : ℕ} {r : Request} {phase : Phase}
    (hsettled : phase.settled = true → r.phase.settled = true ∨
      ∃ accepted sessionIds, r.phase = .terminating accepted sessionIds)
    (hrecord : phase.mayRecord = true → r.phase.mayRecord = true) :
    Advance accepted time r { r with phase := phase } := by
  refine ⟨rfl, rfl, rfl, Or.inl rfl, fun h => ?_, hrecord⟩
  rcases hsettled h with hs | ht
  · exact Or.inl hs
  · exact Or.inr (Or.inr ht)

theorem effect_of_step (h : step crypto zone authToken settings s a = some (s', out)) :
    Effect (Accepted crypto zone authToken) s a s' out := by
  cases a with
  | authenticate i token fault =>
    simp only [step] at h
    split at h
    · rename_i principal hnew hauth
      split at h
      · rename_i hscope
        cases h
        obtain ⟨credential, hok, rfl⟩ := Auth.paired_of_hasScope hauth hscope
        have haccepts : accepts crypto zone authToken s.store token
            (Auth.pairedPrincipal crypto credential).clientId fault = true := by
          simp [accepts, hauth]
        exact .authenticate hnew ⟨_, rfl⟩ rfl rfl ⟨rfl, accepts_of_fault haccepts⟩
      · cases h
    · cases h
  | reserve i now =>
    simp only [step] at h
    split at h
    · rename_i r hr
      split at h
      · rename_i hphase
        cases h
        refine .request hr (advance_phase ?_ ?_) (by simp [hphase]) fun id hnone _ =>
          Middleware.get?_reserveSessionSlot hnone
        all_goals split <;> simp [hphase]
      · cases h
    · cases h
  | openSession i =>
    simp only [step] at h
    split at h
    · rename_i r hr
      split at h
      · rename_i hphase
        cases h
        exact .openSession hr hphase
      · cases h
    · cases h
  | respond i accepted =>
    simp only [step] at h
    split at h
    · rename_i r hr
      split at h
      · rename_i hphase
        cases h
        refine .request hr (advance_phase (by simp) ?_) (by simp) fun id hnone _ => hnone
        rcases hphase with hphase | ⟨hphase, -⟩ <;> simp [hphase]
      · cases h
    · cases h
  | reauthenticate i fault =>
    simp only [step] at h
    split at h
    · rename_i r hr
      split at h
      · rename_i b hphase
        cases h
        obtain ⟨hadv, hsession⟩ := advance_reauthenticate crypto zone authToken hphase s.store s.time
          fault
        exact .request hr hadv (fun _ => hsession) fun id hnone _ => hnone
      · cases h
    · cases h
  | terminateStale i =>
    simp only [step] at h
    split at h
    · rename_i r hr
      split at h
      · rename_i b hphase
        cases h
        exact .terminateStale hr hphase
      · cases h
    · cases h
  | callbackStale i =>
    simp only [step] at h
    split at h
    · rename_i r hr
      split at h
      · rename_i b ids hphase
        cases h
        exact .callbackStale hr hphase
      · cases h
    · cases h
  | complete i now =>
    simp only [step] at h
    split at h
    · rename_i r hr
      split at h
      · rename_i b hphase
        cases h
        refine .request hr (advance_phase (by simp [hphase]) (by simp)) (by simp) fun id hnone hr' =>
          Middleware.get?_completeSessionReservation hnone ?_
        split
        · rename_i haccepted
          rintro heq
          cases heq
          exact absurd (hr' r hr) (by simp [hphase, haccepted])
        · simp
      · cases h
    · cases h
  | abort i =>
    simp only [step] at h
    split at h
    · rename_i r hr
      split at h
      all_goals first
        | cases h
          exact .request hr (advance_phase (by simp) (by simp)) (by simp) fun id hnone _ => hnone
        | cases h
    · cases h
  | release i =>
    simp only [step] at h
    split at h
    · rename_i r hr
      split at h
      · cases h
        exact .request hr (advance_phase (by simp) (by simp)) (by simp) fun id hnone _ => hnone
      · cases h
    · cases h
  | cancel i =>
    simp only [step] at h
    split at h
    · rename_i r hr
      split at h
      all_goals first
        | cases h
          exact .request hr (advance_phase (by simp) (by simp)) (by simp) fun id hnone _ => hnone
        | cases h
    · cases h
  | issue args accessToken credentialId now fault =>
    cases h
    exact .store fun token c haccepted =>
      haccepted.of_holds (holds_issue args accessToken now fault)
  | revoke j c now fault =>
    simp only [step] at h
    split at h
    · cases h
    have hkeep : ∀ token c', Holds zone s.store token c' →
        Holds zone (Credentials.revoke zone s.store c now fault).1 token c' ∨
          (c = c' ∧ ∃ credential,
            (Credentials.revoke zone s.store c now fault).2 = .ok (some credential)) :=
      fun token c' => holds_revoke now fault
    split at h <;> rename_i hrevoke
    · cases h
      refine .commit fun token c' hne haccepted => haccepted.of_holds fun hholds => ?_
      rcases hkeep _ _ hholds with hstill | ⟨rfl, -⟩
      · rwa [hrevoke] at hstill
      · exact absurd rfl hne
    · rename_i store result hnone
      cases h
      refine .store fun token c' haccepted => haccepted.of_holds fun hholds => ?_
      rcases hkeep _ _ hholds with hstill | ⟨rfl, credential, hok⟩
      · rwa [hrevoke] at hstill
      · rw [hrevoke] at hok
        exact absurd hok (hnone _)
  | rotate j c current new now fault =>
    simp only [step] at h
    split at h
    · cases h
    have hkeep : ∀ token c', Holds zone s.store token c' →
        Holds zone (Credentials.rotate zone s.store c current new now fault).1 token c' ∨
          (c = c' ∧ ∃ rotated,
            (Credentials.rotate zone s.store c current new now fault).2 = .ok (some rotated)) :=
      fun token c' => holds_rotate current new now fault
    split at h <;> rename_i hrotate
    · cases h
      refine .commit fun token c' hne haccepted => haccepted.of_holds fun hholds => ?_
      rcases hkeep _ _ hholds with hstill | ⟨rfl, -⟩
      · rwa [hrotate] at hstill
      · exact absurd rfl hne
    · rename_i store result hnone
      cases h
      refine .store fun token c' haccepted => haccepted.of_holds fun hholds => ?_
      rcases hkeep _ _ hholds with hstill | ⟨rfl, rotated, hok⟩
      · rwa [hrotate] at hstill
      · rw [hrotate] at hok
        exact absurd hok (hnone _)
  | terminateClient j =>
    simp only [step] at h
    split at h
    · rename_i hj
      cases h
      exact .terminateClient hj
    · cases h
  | callbackClient j =>
    simp only [step] at h
    split at h
    · rename_i hj
      cases h
      exact .callbackClient hj
    · cases h
  | failClient j =>
    simp only [step] at h
    split at h
    · cases h
      exact .failClient
    · cases h
  | endSession sessionId =>
    cases h
    exact .endSession
  | removeSession sessionId =>
    simp only [step] at h
    split at h
    · cases h
      refine .middleware fun id hnone _ => ?_
      rw [Middleware.get?_removeSession, hnone, ite_self]
    · cases h
  | touchSession sessionId now =>
    cases h
    exact .middleware fun id hnone _ => Middleware.get?_touchSession hnone
  | markSessionStreaming sessionId increment =>
    cases h
    exact .middleware fun id hnone _ => hnone

/-! ### Sessions and their requests -/

/-- A session belongs to the client of the request that opened it, which has not terminated it. -/
def Owned (s : System) : Prop :=
  ∀ i ∈ s.manager.serverInstances, ∃ r, s.requests i = some r ∧
    s.manager.sessionOwners.get? i = some r.clientId ∧ r.phase.hasSession = true

/-- A session after a step: it has just been opened, or it was there and its request has gone on. -/
structure SessionAfter (accepted : CredentialTable → Str → Str → Prop) (s s' : System) (i : ℕ)
    (r' : Request) : Prop where
  request : s'.requests i = some r'
  owner : s'.manager.sessionOwners.get? i = some r'.clientId
  hasSession : r'.phase.hasSession = true
  before : r'.phase = .opened ∨ ∃ r, i ∈ s.manager.serverInstances ∧ s.requests i = some r ∧
    (r' = r ∨ Advance (accepted s.store) s.time r r')

theorem Effect.session {accepted : CredentialTable → Str → Str → Prop}
    (heff : Effect accepted s a s' out) (howned : Owned s) {i : ℕ}
    (hi : i ∈ s'.manager.serverInstances) : ∃ r', SessionAfter accepted s s' i r' := by
  -- a session that the step does not touch
  have hsame : i ∈ s.manager.serverInstances → s'.requests i = s.requests i →
      s'.manager.sessionOwners.get? i = s.manager.sessionOwners.get? i →
      ∃ r', SessionAfter accepted s s' i r' := by
    intro hi hreq howner
    obtain ⟨r, hr, hclient, hsession⟩ := howned i hi
    exact ⟨r, hreq.trans hr, howner.trans hclient, hsession, Or.inr ⟨r, hi, hr, Or.inl rfl⟩⟩
  cases heff with
  | store | commit | callbackClient | failClient | middleware => exact hsame hi rfl rfl
  | authenticate hnew =>
    refine hsame hi (Function.update_of_ne ?_ _ _) rfl
    rintro rfl
    obtain ⟨r, hr, -⟩ := howned i hi
    rw [hr] at hnew
    cases hnew
  | @request _ i₀ r r' _ hr hadv hsession =>
    by_cases hii : i = i₀
    · subst hii
      obtain ⟨r₀, hr₀, hclient, hhas⟩ := howned i hi
      obtain rfl : r₀ = r := Option.some.inj (hr₀.symm.trans hr)
      refine ⟨r', System.setRequest_eq_some.2 (Or.inl ⟨rfl, rfl⟩), ?_, hsession hhas,
        Or.inr ⟨r₀, hi, hr, Or.inr hadv⟩⟩
      rw [hadv.clientId]
      exact hclient
    · exact hsame hi (Function.update_of_ne hii _ _) rfl
  | @openSession i₀ r hr hphase =>
    by_cases hii : i = i₀
    · subst hii
      refine ⟨_, System.setRequest_eq_some.2 (Or.inl ⟨rfl, rfl⟩), ?_, by simp, Or.inl rfl⟩
      exact Dict.get?_set.trans (if_pos rfl)
    · have hold : i ∈ s.manager.serverInstances := (Finset.mem_insert.1 hi).resolve_left hii
      exact hsame hold (Function.update_of_ne hii _ _) (Dict.get?_set.trans (if_neg (Ne.symm hii)))
  | @callbackStale i₀ r b ids hr hphase =>
    refine hsame hi (Function.update_of_ne ?_ _ _) rfl
    rintro rfl
    obtain ⟨r₀, hr₀, -, hhas⟩ := howned i hi
    obtain rfl : r₀ = r := Option.some.inj (hr₀.symm.trans hr)
    rw [hphase] at hhas
    cases hhas
  | @terminateStale i₀ r b hr hphase =>
    obtain ⟨hold, hne⟩ := Manager.mem_removeClient.1 hi
    refine hsame hold (Function.update_of_ne ?_ _ _) (Manager.get?_removeClient hne)
    rintro rfl
    obtain ⟨r₀, hr₀, hclient, -⟩ := howned i hold
    obtain rfl : r₀ = r := Option.some.inj (hr₀.symm.trans hr)
    exact hne hclient
  | terminateClient hj =>
    obtain ⟨hold, hne⟩ := Manager.mem_removeClient.1 hi
    exact hsame hold rfl (Manager.get?_removeClient hne)
  | @endSession sessionId =>
    obtain ⟨hne, hold⟩ := Finset.mem_erase.1 hi
    exact hsame hold rfl (Dict.get?_pop.trans (if_neg (Ne.symm hne)))

/-- `terminate_client` has gone through the dictionaries for this change. -/
def Popped (kind : ChangeKind) (c : UUID) (t : ℕ) (s : System) (es : List Event) : Prop :=
  (∃ j ids, s.changes j = some (.terminating kind c t ids)) ∨ .completed kind c t ∈ es

/-- The change that a handler is at. -/
@[simp] def Change.what : Change → ChangeKind × UUID × ℕ
  | .committed kind c t => (kind, c, t)
  | .terminating kind c t _ => (kind, c, t)

/-- Changes are in the history from their commit on. -/
structure Recorded (s : System) (es : List Event) : Prop where
  change : ∀ j change kind c t, s.changes j = some change → change.what = (kind, c, t) →
    .committed kind c t ∈ es
  completed : ∀ kind c t, .completed kind c t ∈ es → .committed kind c t ∈ es
  time : ∀ kind c t, .committed kind c t ∈ es → t < s.time

/-- After a change has gone through the dictionaries, the sessions of its client either had their
token accepted later, or belong to requests that are not settled. -/
structure SessionInv (accepted : CredentialTable → Str → Str → Prop) (s : System)
    (es : List Event) : Prop where
  recorded : Recorded s es
  owned : Owned s
  request : ∀ i r, s.requests i = some r → (∃ c, r.clientId = Auth.pairedClientId c) ∧
    r.authAt ≤ r.acceptedAt ∧ r.acceptedAt < s.time
  valid : ∀ i r c, s.requests i = some r → r.clientId = Auth.pairedClientId c →
    accepted s.store r.token r.clientId ∨ ∃ kind t, r.acceptedAt < t ∧ .committed kind c t ∈ es
  settled : ∀ kind c t, Popped kind c t s es → ∀ i ∈ s.manager.serverInstances, ∀ r,
    s.requests i = some r → r.clientId = Auth.pairedClientId c →
      t ≤ r.acceptedAt ∨ r.phase.settled = false

variable {accepted : CredentialTable → Str → Str → Prop}

theorem Effect.time_eq (heff : Effect accepted s a s' out) : s'.time = s.time + 1 := by
  cases heff <;> rfl

/-- A change after a step was there before it, or it is new. -/
theorem Effect.change (heff : Effect accepted s a s' out) {j : ℕ} {change' : Change}
    (hj : s'.changes j = some change') :
    (∃ change, s.changes j = some change ∧ change.what = change'.what) ∨
      ∃ kind c, change' = .committed kind c s.time ∧ out = [.committed kind c s.time] := by
  cases heff with
  | authenticate | request | openSession | terminateStale | callbackStale | store | endSession
  | middleware => exact Or.inl ⟨_, hj, rfl⟩
  | commit =>
    rcases System.setChange_eq_some.1 hj with ⟨rfl, hnew⟩ | ⟨-, hold⟩
    · cases hnew
      exact Or.inr ⟨_, _, rfl, rfl⟩
    · exact Or.inl ⟨_, hold, rfl⟩
  | terminateClient hold =>
    rcases System.setChange_eq_some.1 hj with ⟨rfl, hnew⟩ | ⟨-, hold⟩
    · cases hnew
      exact Or.inl ⟨_, hold, rfl⟩
    · exact Or.inl ⟨_, hold, rfl⟩
  | callbackClient | failClient =>
    rcases System.setChange_eq_some.1 hj with ⟨rfl, hnew⟩ | ⟨-, hold⟩
    · cases hnew
    · exact Or.inl ⟨_, hold, rfl⟩

/-- A change is committed now, and completed by a handler that is terminating sessions. -/
theorem Effect.event (heff : Effect accepted s a s' out) {kind : ChangeKind} {c : UUID} {t : ℕ} :
    (.committed kind c t ∈ out → t = s.time) ∧
      (.completed kind c t ∈ out → ∃ j ids, s.changes j = some (.terminating kind c t ids)) := by
  cases heff with
  | callbackClient hj =>
    refine ⟨by simp, fun hmem => ?_⟩
    obtain ⟨rfl, rfl, rfl⟩ : kind = _ ∧ c = _ ∧ t = _ := by simpa using hmem
    exact ⟨_, _, hj⟩
  | _ => simp

theorem Recorded.step (h : Recorded s es) (heff : Effect accepted s a s' out) :
    Recorded s' (es ++ out) where
  change j change kind c t hj hwhat := by
    rcases heff.change hj with ⟨change₀, hold, hsame⟩ | ⟨kind', c', rfl, rfl⟩
    · exact List.mem_append_left _ (h.change j change₀ kind c t hold (hsame.trans hwhat))
    · simp only [Change.what, Prod.mk.injEq] at hwhat
      obtain ⟨rfl, rfl, rfl⟩ := hwhat
      simp
  completed kind c t hmem := by
    refine List.mem_append_left _ ?_
    rcases List.mem_append.1 hmem with hold | hnew
    · exact h.completed kind c t hold
    · obtain ⟨j, ids, hj⟩ := heff.event.2 hnew
      exact h.change j _ kind c t hj rfl
  time kind c t hmem := by
    rw [heff.time_eq]
    rcases List.mem_append.1 hmem with hold | hnew
    · have := h.time kind c t hold
      omega
    · have := heff.event.1 hnew
      omega

/-- The dictionaries were gone through before the step, or the step does it and leaves no session of
the client. -/
theorem Effect.popped (heff : Effect accepted s a s' out) {kind : ChangeKind} {c : UUID} {t : ℕ}
    (h : Popped kind c t s' (es ++ out)) :
    Popped kind c t s es ∨ ∀ i ∈ s'.manager.serverInstances,
      s.manager.sessionOwners.get? i ≠ some (Auth.pairedClientId c) := by
  rcases h with ⟨j, ids, hj⟩ | hmem
  · cases heff with
    | authenticate | request | openSession | terminateStale | callbackStale | store | endSession
    | middleware => exact Or.inl (Or.inl ⟨j, ids, hj⟩)
    | commit =>
      rcases System.setChange_eq_some.1 hj with ⟨rfl, hnew⟩ | ⟨-, hold⟩
      · cases hnew
      · exact Or.inl (Or.inl ⟨j, ids, hold⟩)
    | terminateClient =>
      rcases System.setChange_eq_some.1 hj with ⟨rfl, hnew⟩ | ⟨-, hold⟩
      · cases hnew
        exact Or.inr fun i hi => (Manager.mem_removeClient.1 hi).2
      · exact Or.inl (Or.inl ⟨j, ids, hold⟩)
    | callbackClient | failClient =>
      rcases System.setChange_eq_some.1 hj with ⟨rfl, hnew⟩ | ⟨-, hold⟩
      · cases hnew
      · exact Or.inl (Or.inl ⟨j, ids, hold⟩)
  · rcases List.mem_append.1 hmem with hold | hnew
    · exact Or.inl (Or.inr hold)
    · exact Or.inl (Or.inl (heff.event.2 hnew))

/-- A request after a step is the same, new, or one step further. -/
theorem Effect.request_cases (heff : Effect accepted s a s' out) {i : ℕ} {r' : Request}
    (hr' : s'.requests i = some r') :
    s.requests i = some r' ∨
      ((∃ c, r'.clientId = Auth.pairedClientId c) ∧ r'.authAt = s.time ∧ r'.acceptedAt = s.time ∧
        accepted s.store r'.token r'.clientId ∧ s'.store = s.store ∧ r'.phase = .authenticated ∧
        s.requests i = none) ∨
      ∃ r, s.requests i = some r ∧ Advance (accepted s.store) s.time r r' ∧ s'.store = s.store := by
  cases heff with
  | store | commit | terminateClient | callbackClient | failClient | endSession | middleware =>
    exact Or.inl hr'
  | authenticate hnew hclient hphase hauth haccepted =>
    rcases System.setRequest_eq_some.1 hr' with ⟨rfl, rfl⟩ | ⟨-, hold⟩
    · exact Or.inr (Or.inl ⟨hclient, hauth, haccepted.1, haccepted.2, rfl, hphase, hnew⟩)
    · exact Or.inl hold
  | request hr hadv =>
    rcases System.setRequest_eq_some.1 hr' with ⟨rfl, rfl⟩ | ⟨-, hold⟩
    · exact Or.inr (Or.inr ⟨_, hr, hadv, rfl⟩)
    · exact Or.inl hold
  | openSession hr hphase =>
    rcases System.setRequest_eq_some.1 hr' with ⟨rfl, rfl⟩ | ⟨-, hold⟩
    · exact Or.inr (Or.inr ⟨_, hr, advance_phase (by simp) (by simp [hphase]), rfl⟩)
    · exact Or.inl hold
  | @callbackStale _ _ b ids hr hphase =>
    rcases System.setRequest_eq_some.1 hr' with ⟨rfl, rfl⟩ | ⟨-, hold⟩
    · refine Or.inr (Or.inr ⟨_, hr, advance_phase (fun _ => Or.inr ⟨b, ids, hphase⟩) ?_, rfl⟩)
      cases b <;> simp [hphase]
    · exact Or.inl hold
  | @terminateStale _ _ b hr hphase =>
    rcases System.setRequest_eq_some.1 hr' with ⟨rfl, rfl⟩ | ⟨-, hold⟩
    · refine Or.inr (Or.inr ⟨_, hr, advance_phase (by simp) ?_, rfl⟩)
      cases b <;> simp [hphase]
    · exact Or.inl hold

/-- Tokens stay valid, unless a change of their credential is committed. -/
theorem Effect.keeps_accepted (heff : Effect accepted s a s' out) {token : Str} {c : UUID}
    (h : accepted s.store token (Auth.pairedClientId c)) :
    accepted s'.store token (Auth.pairedClientId c) ∨ ∃ kind, .committed kind c s.time ∈ out := by
  cases heff with
  | store hkeep => exact Or.inl (hkeep token c h)
  | @commit _ _ kind c' _ hkeep =>
    by_cases hc : c = c'
    · subst hc
      exact Or.inr ⟨kind, by simp⟩
    · exact Or.inl (hkeep token c hc h)
  | _ => exact Or.inl h

theorem sessionInv_initial (store : CredentialTable) :
    SessionInv accepted (System.initial store) [] where
  recorded := by constructor <;> simp [System.initial]
  owned := by simp [Owned, System.initial, Manager.empty]
  request := by simp [System.initial]
  valid := by simp [System.initial]
  settled := by simp [System.initial, Manager.empty]

theorem SessionInv.step (h : SessionInv accepted s es) (heff : Effect accepted s a s' out) :
    SessionInv accepted s' (es ++ out) where
  recorded := h.recorded.step heff
  owned i hi := by
    obtain ⟨r', hsession⟩ := heff.session h.owned hi
    exact ⟨r', hsession.request, hsession.owner, hsession.hasSession⟩
  request i r' hr' := by
    rw [heff.time_eq]
    rcases heff.request_cases hr' with hold | ⟨hclient, hauth, haccepted, -⟩ | ⟨r, hr, hadv, -⟩
    · obtain ⟨hclient, hle, hlt⟩ := h.request i r' hold
      exact ⟨hclient, hle, by omega⟩
    · exact ⟨hclient, by omega, by omega⟩
    · obtain ⟨hclient, hle, hlt⟩ := h.request i r hr
      rw [hadv.clientId, hadv.authAt]
      rcases hadv.acceptedAt with heq | ⟨heq, -⟩
      · exact ⟨hclient, by omega, by omega⟩
      · exact ⟨hclient, by omega, by omega⟩
  valid i r' c hr' hc := by
    rcases heff.request_cases hr' with hold | ⟨-, -, -, haccepted, hstore, -⟩ | ⟨r, hr, hadv, hstore⟩
    · rcases h.valid i r' c hold hc with hvalid | ⟨kind, t, hlt, hmem⟩
      · rw [hc] at hvalid ⊢
        rcases heff.keeps_accepted hvalid with hkept | ⟨kind, hmem⟩
        · exact Or.inl hkept
        · exact Or.inr ⟨kind, s.time, (h.request i r' hold).2.2, List.mem_append_right _ hmem⟩
      · exact Or.inr ⟨kind, t, hlt, List.mem_append_left _ hmem⟩
    · exact Or.inl (hstore ▸ haccepted)
    · rw [hadv.token, hadv.clientId, hstore]
      rcases hadv.acceptedAt with heq | ⟨-, haccepted⟩
      · rcases h.valid i r c hr (hadv.clientId ▸ hc) with hvalid | ⟨kind, t, hlt, hmem⟩
        · exact Or.inl hvalid
        · exact Or.inr ⟨kind, t, by omega, List.mem_append_left _ hmem⟩
      · exact Or.inl haccepted
  settled kind c t hpopped i hi r' hr' hc := by
    obtain ⟨r'', hsession⟩ := heff.session h.owned hi
    obtain rfl : r'' = r' := Option.some.inj (hsession.request.symm.trans hr')
    rcases hsession.before with hopened | ⟨r, hi₀, hr, hnext⟩
    · exact Or.inr (by simp [hopened])
    have hclient : r.clientId = Auth.pairedClientId c := by
      rcases hnext with rfl | hadv
      · exact hc
      · exact hadv.clientId ▸ hc
    obtain ⟨r₀, hr₀, howner, hhas⟩ := h.owned i hi₀
    obtain rfl : r₀ = r := Option.some.inj (hr₀.symm.trans hr)
    rcases heff.popped hpopped with hold | hnone
    · have htime : t < s.time := by
        rcases hold with ⟨j, ids, hj⟩ | hmem
        · exact h.recorded.time _ _ _ (h.recorded.change j _ kind c t hj rfl)
        · exact h.recorded.time _ _ _ (h.recorded.completed _ _ _ hmem)
      rcases hnext with rfl | hadv
      · exact h.settled kind c t hold i hi₀ _ hr hclient
      · rcases h.settled kind c t hold i hi₀ _ hr hclient with hle | hunsettled
        · rcases hadv.acceptedAt with heq | ⟨heq, -⟩ <;> exact Or.inl (by omega)
        · by_cases hsettled : r''.phase.settled = true
          · rcases hadv.settled hsettled with hs | hacc | ⟨b, ids, hterm⟩
            · rw [hunsettled] at hs
              cases hs
            · exact Or.inl (by omega)
            · rw [hterm] at hhas
              cases hhas
          · exact Or.inr (by simpa using hsettled)
    · exact absurd (howner.trans (congrArg some hclient)) (hnone i hi)

theorem sessionInv_of_reaches {ok : System → List Event → Action → Prop} {store : CredentialTable}
    (h : Machine.Reaches (step crypto zone authToken settings) ok (System.initial store) s es) :
    SessionInv (Accepted crypto zone authToken) s es := by
  refine h.invariant (sessionInv_initial store) ?_
  intro s es a s' out hinv _ hs
  exact hinv.step (effect_of_step hs)

/-- **A completed change leaves no session with a token of the time before it.** In every run: when a
revocation or rotation of `c` and every `initialize` request of its client that was authenticated
before it have completed, each session of the client that the manager holds was opened with a token
that was accepted after the change. That token is valid, unless a later change of `c` was committed
since. A request that an exception or a cancellation has ended does not count as completed. -/
theorem changes_leave_no_stale_session {store : CredentialTable} {kind : ChangeKind} {c : UUID}
    {t i : ℕ} (h : Machine.Reaches (step crypto zone authToken settings) Machine.anyStep
      (System.initial store) s es)
    (hdone : .completed kind c t ∈ es)
    (hrequests : ∀ i r, s.requests i = some r → r.clientId = Auth.pairedClientId c →
      r.authAt < t → i ∈ s.manager.serverInstances → r.phase.isCompleted = true)
    (hi : i ∈ s.manager.serverInstances)
    (howner : s.manager.sessionOwners.get? i = some (Auth.pairedClientId c)) :
    ∃ r, s.requests i = some r ∧ t ≤ r.acceptedAt ∧
      (accepts crypto zone authToken s.store r.token (Auth.pairedClientId c) .none = true ∨
        ∃ kind' t', r.acceptedAt < t' ∧ .committed kind' c t' ∈ es) := by
  have hinv := sessionInv_of_reaches h
  obtain ⟨r, hr, hclient, hhas⟩ := hinv.owned i hi
  have hc : r.clientId = Auth.pairedClientId c := Option.some.inj (hclient.symm.trans howner)
  have hvalid := hinv.valid i r c hr hc
  rw [hc] at hvalid
  refine ⟨r, hr, ?_, hvalid⟩
  by_cases hauth : r.authAt < t
  · rcases hinv.settled kind c t (Or.inr hdone) i hi r hr hc with hle | hunsettled
    · exact hle
    · have hcompleted := hrequests i r hr hc hauth hi
      cases hphase : r.phase <;> simp_all
  · have := (hinv.request i r hr).2.1
    omega

/-- Two sessions, for a minute without activity. -/
def sampleSettings : Settings := ⟨2, 60⟩

/-- Request 0 is authenticated before the phone rotates its token and opens its session while the
handler is at work; request 1 comes with the new token. -/
def rotationRun : List Action :=
  [.authenticate 0 firstToken .none, .reserve 0 0,
    .rotate 0 samplePhone firstToken secondToken sampleNow .none, .terminateClient 0,
    .openSession 0, .respond 0 true, .callbackClient 0,
    .reauthenticate 0 .none, .terminateStale 0, .callbackStale 0, .complete 0 0,
    .authenticate 1 secondToken .none, .reserve 1 1, .openSession 1, .respond 1 true,
    .reauthenticate 1 .none, .complete 1 2]

/-- Only the session of the new token is left. -/
theorem rotation_leaves_new_session : ∃ s es,
    Machine.Reaches (step LiveAccess.noCrypto LiveAccess.utcZone none sampleSettings)
        Machine.anyStep (System.initial LiveAccess.sampleStore) s es ∧
      .completed .rotation samplePhone 2 ∈ es ∧ s.manager.serverInstances = {1} ∧
      ∃ r, s.requests 1 = some r ∧ 2 ≤ r.acceptedAt ∧
        (accepts LiveAccess.noCrypto LiveAccess.utcZone none s.store r.token
            (Auth.pairedClientId samplePhone) .none = true ∨
          ∃ kind' t', r.acceptedAt < t' ∧ .committed kind' samplePhone t' ∈ es) := by
  have hrun : (Machine.run (step LiveAccess.noCrypto LiveAccess.utcZone none sampleSettings)
      (System.initial LiveAccess.sampleStore) rotationRun).map (fun r => (r.2,
        r.1.manager.serverInstances, r.1.manager.sessionOwners.get? 1,
        (r.1.requests 1).map Request.phase)) =
      some ([.committed .rotation samplePhone 2, .terminated [], .completed .rotation samplePhone 2,
        .terminated [0]], {1}, some (Auth.pairedClientId samplePhone), some .completed) := by
    decide +kernel
  obtain ⟨⟨s, es⟩, hs, hobs⟩ := Option.map_eq_some_iff.1 hrun
  simp only [Prod.mk.injEq] at hobs
  obtain ⟨rfl, hsessions, howner, hphase⟩ := hobs
  have hreach := Machine.run_reaches hs
  have hrequests : ∀ i r, s.requests i = some r → r.clientId = Auth.pairedClientId samplePhone →
      r.authAt < 2 → i ∈ s.manager.serverInstances → r.phase.isCompleted = true := by
    intro i r hr _ _ hi
    rw [hsessions, Finset.mem_singleton] at hi
    subst hi
    rw [hr, Option.map_some, Option.some.injEq] at hphase
    simp [hphase]
  have hi : 1 ∈ s.manager.serverInstances := by simp [hsessions]
  have hdone : .completed .rotation samplePhone 2 ∈ [.committed .rotation samplePhone 2,
      .terminated [], .completed .rotation samplePhone 2, Event.terminated [0]] := by simp
  exact ⟨s, _, hreach, hdone, hsessions,
    changes_leave_no_stale_session hreach hdone hrequests hi howner⟩

/-! ### Slots of terminated sessions -/

/-- A call of `terminate_client` calls back only when the requests of the sessions that it has removed
have recorded them or have failed. -/
def CallbackAfterRecord (s : System) (_ : List Event) : Action → Prop
  | .callbackStale i => ∀ r b ids, s.requests i = some r → r.phase = .terminating b ids →
      ∀ id ∈ ids, ∃ r', s.requests id = some r' ∧ r'.phase.mayRecord = false
  | .callbackClient j => ∀ kind c t ids, s.changes j = some (.terminating kind c t ids) →
      ∀ id ∈ ids, ∃ r', s.requests id = some r' ∧ r'.phase.mayRecord = false
  | _ => True

/-- A session that a call of `terminate_client` has removed holds no slot once the call and the
request that opened the session have finished. -/
def NoDeadSlot (s : System) (es : List Event) : Prop :=
  ∀ ids id r, .terminated ids ∈ es → id ∈ ids → s.requests id = some r →
    r.phase.isCompleted = true ∨ r.phase = .aborted → s.middleware.activeSessions.get? id = none

/-- The sessions of a finished call of `terminate_client` are out of the reach of their requests, and
without a slot. -/
def Released (s : System) (es : List Event) : Prop :=
  ∀ ids id, .terminated ids ∈ es → id ∈ ids →
    (∃ r, s.requests id = some r ∧ r.phase.mayRecord = false) ∧
      s.middleware.activeSessions.get? id = none

theorem Effect.exists_request (heff : Effect accepted s a s' out) {i : ℕ} {r : Request}
    (hr : s.requests i = some r) : ∃ r', s'.requests i = some r' := by
  have hset : ∀ i₀ r₀, ∃ r', Function.update s.requests i₀ (some r₀) i = some r' := by
    intro i₀ r₀
    by_cases hi : i = i₀
    · exact ⟨r₀, by simp [hi]⟩
    · exact ⟨r, by simp [hi, hr]⟩
  cases heff with
  | authenticate | request | openSession | terminateStale | callbackStale => exact hset _ _
  | _ => exact ⟨r, hr⟩

/-- A request that does not record its session any more stays so. -/
theorem Effect.keeps_mayRecord (heff : Effect accepted s a s' out) {i : ℕ}
    (h : ∃ r, s.requests i = some r ∧ r.phase.mayRecord = false) :
    ∃ r', s'.requests i = some r' ∧ r'.phase.mayRecord = false := by
  obtain ⟨r, hr, hrecord⟩ := h
  obtain ⟨r', hr'⟩ := heff.exists_request hr
  refine ⟨r', hr', ?_⟩
  rcases heff.request_cases hr' with hold | ⟨-, -, -, -, -, -, hnew⟩ | ⟨r₀, hr₀, hadv, -⟩
  · obtain rfl : r = r' := Option.some.inj (hr.symm.trans hold)
    exact hrecord
  · rw [hr] at hnew
    cases hnew
  · obtain rfl : r = r₀ := Option.some.inj (hr.symm.trans hr₀)
    by_contra hmay
    have hbefore := hadv.mayRecord (Bool.eq_true_of_not_eq_false hmay)
    rw [hrecord] at hbefore
    cases hbefore

/-- The sessions of a call that returns now. -/
theorem Effect.terminated (heff : Effect accepted s a s' out) (hok : CallbackAfterRecord s es a)
    {ids : List ℕ} (hmem : .terminated ids ∈ out) {id : ℕ} (hid : id ∈ ids) :
    (∃ r, s.requests id = some r ∧ r.phase.mayRecord = false) ∧
      s'.middleware.activeSessions.get? id = none := by
  cases heff with
  | @callbackStale i r b ids' hr hphase =>
    obtain rfl : ids = ids' := by simpa using hmem
    exact ⟨hok r b ids hr hphase id hid, Middleware.get?_removeSessions.trans (if_pos hid)⟩
  | @callbackClient j kind c t ids' hj =>
    obtain rfl : ids = ids' := by simpa using hmem
    exact ⟨hok kind c t ids hj id hid, Middleware.get?_removeSessions.trans (if_pos hid)⟩
  | _ => simp at hmem

/-- No step gives a slot back to a session that its request does not record any more. -/
theorem Effect.slotsKept (heff : Effect accepted s a s' out) : SlotsKept s s'.middleware := by
  intro id hnone hrecord
  cases heff with
  | request hr hadv hsession hslots => exact hslots id hnone hrecord
  | middleware hslots => exact hslots id hnone hrecord
  | callbackStale | callbackClient =>
    refine Middleware.get?_removeSessions.trans ?_
    rw [hnone, ite_self]
  | _ => exact hnone

theorem Released.step (h : Released s es) (hok : CallbackAfterRecord s es a)
    (heff : Effect accepted s a s' out) : Released s' (es ++ out) := by
  intro ids id hmem hid
  rcases List.mem_append.1 hmem with hold | hnew
  · obtain ⟨⟨r, hr, hrecord⟩, hnone⟩ := h ids id hold hid
    refine ⟨heff.keeps_mayRecord ⟨r, hr, hrecord⟩, heff.slotsKept id hnone ?_⟩
    intro r' hr'
    obtain rfl : r = r' := Option.some.inj (hr.symm.trans hr')
    exact hrecord
  · obtain ⟨hrequest, hnone⟩ := heff.terminated hok hnew hid
    exact ⟨heff.keeps_mayRecord hrequest, hnone⟩

/-- **Terminated sessions hold no slot, if the callback comes after the record.** In every run where
`terminate_client` calls back only when the requests of the removed sessions have recorded them or
failed, no removed session holds a slot once the call and its request have finished. -/
theorem terminated_sessions_hold_no_slot {store : CredentialTable}
    (h : Machine.Reaches (step crypto zone authToken settings) CallbackAfterRecord
      (System.initial store) s es) : NoDeadSlot s es := by
  have hreleased : Released s es := by
    refine h.invariant (fun ids id hmem => absurd hmem (by simp)) ?_
    intro s es a s' out hinv hok hs
    exact hinv.step hok (effect_of_step hs)
  intro ids id r hmem hid _ _
  exact (hreleased ids id hmem hid).2

/-- Request 0 has completed when the phone is revoked. -/
def revocationRun : List Action :=
  [.authenticate 0 firstToken .none, .reserve 0 0, .openSession 0, .respond 0 true,
    .reauthenticate 0 .none, .complete 0 0, .revoke 0 samplePhone sampleNow .none,
    .terminateClient 0]

/-- Its slot is given back. -/
theorem revocation_releases_slot : ∃ s es,
    Machine.Reaches (step LiveAccess.noCrypto LiveAccess.utcZone none sampleSettings)
        CallbackAfterRecord (System.initial LiveAccess.sampleStore) s es ∧
      es = [.committed .revocation samplePhone 6, .terminated [0],
        .completed .revocation samplePhone 6] ∧ NoDeadSlot s es := by
  have hrun : ((Machine.run (step LiveAccess.noCrypto LiveAccess.utcZone none sampleSettings)
      (System.initial LiveAccess.sampleStore) revocationRun).bind fun r₁ =>
        (Machine.run (step LiveAccess.noCrypto LiveAccess.utcZone none sampleSettings) r₁.1
          [.callbackClient 0]).map fun r₂ =>
            (r₁.2 ++ r₂.2, r₁.1.changes 0, (r₁.1.requests 0).map Request.phase)) =
      some ([.committed .revocation samplePhone 6, .terminated [0],
        .completed .revocation samplePhone 6], some (.terminating .revocation samplePhone 6 [0]),
        some .completed) := by
    decide +kernel
  obtain ⟨⟨s₁, es₁⟩, hs₁, hrest⟩ := Option.bind_eq_some_iff.1 hrun
  obtain ⟨⟨s₂, es₂⟩, hs₂, hobs⟩ := Option.map_eq_some_iff.1 hrest
  simp only [Prod.mk.injEq] at hobs
  obtain ⟨hes, hchange, hphase⟩ := hobs
  obtain ⟨r, hr, hphase⟩ := Option.map_eq_some_iff.1 hphase
  have hcallback : CallbackAfterRecord s₁ es₁ (.callbackClient 0) := by
    intro kind c t ids hj id hid
    rw [hchange] at hj
    cases hj
    obtain rfl := List.mem_singleton.1 hid
    exact ⟨r, hr, by simp [hphase]⟩
  have hbefore : Machine.Allowed (step LiveAccess.noCrypto LiveAccess.utcZone none sampleSettings)
      CallbackAfterRecord (System.initial LiveAccess.sampleStore) [] revocationRun := by
    repeat' first | exact trivial | refine ⟨trivial, fun _ _ _ => ?_⟩
  have hafter : Machine.Allowed (step LiveAccess.noCrypto LiveAccess.utcZone none sampleSettings)
      CallbackAfterRecord s₁ es₁ [.callbackClient 0] := ⟨hcallback, fun _ _ _ => trivial⟩
  have hreach := (Machine.reaches_of_run hbefore hs₁).run hafter hs₂
  exact ⟨s₂, _, hreach, hes, terminated_sessions_hold_no_slot hreach⟩

/-- The phone's credential is revoked while request 0 opens its session; the request terminates its
client itself and then records the session. -/
def staleRun : List Action :=
  [.authenticate 0 firstToken .none, .reserve 0 0, .openSession 0, .respond 0 true,
    .revoke 0 samplePhone sampleNow .none, .reauthenticate 0 .none, .terminateStale 0,
    .callbackStale 0, .complete 0 0]

/-- The session is gone and keeps its slot. -/
theorem dead_session_slot : ∃ s es,
    Machine.Reaches (step LiveAccess.noCrypto LiveAccess.utcZone none sampleSettings)
      Machine.anyStep (System.initial LiveAccess.sampleStore) s es ∧ ¬ NoDeadSlot s es := by
  have hrun : (Machine.run (step LiveAccess.noCrypto LiveAccess.utcZone none sampleSettings)
      (System.initial LiveAccess.sampleStore) staleRun).map (fun r => (r.2,
        (r.1.requests 0).map Request.phase, r.1.middleware.activeSessions.get? 0)) =
      some ([.committed .revocation samplePhone 4, .terminated [0]], some .completed, some 0) := by
    decide +kernel
  obtain ⟨⟨s, es⟩, hs, hobs⟩ := Option.map_eq_some_iff.1 hrun
  simp only [Prod.mk.injEq] at hobs
  obtain ⟨rfl, hphase, hslot⟩ := hobs
  obtain ⟨r, hr, hphase⟩ := Option.map_eq_some_iff.1 hphase
  refine ⟨s, _, Machine.run_reaches hs, fun hno => ?_⟩
  have hnone := hno [0] 0 r (by simp) (by simp) hr (Or.inl (by simp [hphase]))
  rw [hslot] at hnone
  cases hnone

end Runs

end GoffyHub.McpSessions
