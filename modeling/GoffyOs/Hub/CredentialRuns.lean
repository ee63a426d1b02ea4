import GoffyOs.Hub.Credentials
import GoffyOs.Lib.Machine
import Mathlib.Data.List.Perm.Subperm

/-!
# Runs of the credential store

Operations of one or more processes on one credential table, in any order, with any clock reading
and SQLite failure. The history of a run keeps what was issued, revoked and rotated, and with it the
token that each credential was last given (`lastToken`).

* `Fresh T` is what is assumed of the generated ids and tokens: they are new, tokens have at most 512
  characters, and they belong to a set `T` of tokens on which the digest is injective.
* `step_cases` says what an operation can do to the table; `Valid` is the invariant that ties the
  table to the history.
-/

namespace GoffyHub.Credentials

open Python

/-- The operations with everything they read from outside. -/
inductive Action
  | issue (args : IssueArgs) (accessToken : Str) (credentialId : UUID) (now : DateTime)
      (fault : Fault)
  | authenticate (accessToken : Str) (fault : Fault)
  | revoke (credentialId : UUID) (now : DateTime) (fault : Fault)
  | rotate (credentialId : UUID) (currentAccessToken newAccessToken : Str) (now : DateTime)
      (fault : Fault)

/-- The changes that operations report to their callers. -/
inductive Event
  | issued (credentialId : UUID) (accessToken : Str)
  | revoked (credentialId : UUID)
  | rotated (credentialId : UUID) (currentAccessToken newAccessToken : Str)
  deriving DecidableEq

/-- How an operation ends: it raises, returns `None`, or succeeds. -/
inductive Outcome
  | raised (e : CredentialStoreError)
  | returnedNone
  | succeeded (events : List Event)

/-- An operation as a change of the table. -/
def perform (zone : NaiveDateTime → Except Exn ℤ) (table : CredentialTable) :
    Action → CredentialTable × Outcome
  | .issue args accessToken credentialId now fault =>
    match issue table args accessToken credentialId now fault with
    | (table', .error e) => (table', .raised e)
    | (table', .ok issued) =>
      (table', .succeeded [.issued issued.credential.credentialId issued.accessToken])
  | .authenticate accessToken fault =>
    match authenticate zone table accessToken fault with
    | .error e => (table, .raised e)
    | .ok none => (table, .returnedNone)
    | .ok (some _) => (table, .succeeded [])
  | .revoke credentialId now fault =>
    match revoke zone table credentialId now fault with
    | (table', .error e) => (table', .raised e)
    | (table', .ok none) => (table', .returnedNone)
    | (table', .ok (some _)) => (table', .succeeded [.revoked credentialId])
  | .rotate credentialId current new now fault =>
    match rotate zone table credentialId current new now fault with
    | (table', .error e) => (table', .raised e)
    | (table', .ok none) => (table', .returnedNone)
    | (table', .ok (some rotated)) =>
      (table', .succeeded [.rotated credentialId current rotated.accessToken])

def Outcome.events : Outcome → List Event
  | .succeeded events => events
  | _ => []

/-- A step of a run. -/
def step (zone : NaiveDateTime → Except Exn ℤ) : Machine.Step CredentialTable Action Event :=
  fun table a => some ((perform zone table a).1, (perform zone table a).2.events)

/-! ### Histories -/

/-- The credentials that were issued. -/
def issuedIds (es : List Event) : List UUID :=
  es.filterMap fun
    | .issued c _ => some c
    | _ => none

/-- The tokens that were given to credentials. -/
def generatedTokens (es : List Event) : List Str :=
  es.filterMap fun
    | .issued _ t => some t
    | .rotated _ _ t => some t
    | .revoked _ => none

/-- The tokens that were presented to a successful rotation. -/
def presentedTokens (es : List Event) : List Str :=
  es.filterMap fun
    | .rotated _ t _ => some t
    | _ => none

/-- The token that an event gives to a credential. -/
def Event.tokenFor (c : UUID) : Event → Option Str
  | .issued c' t => if c' = c then some t else none
  | .rotated c' _ t => if c' = c then some t else none
  | .revoked _ => none

/-- The token that a credential was last issued or rotated to. -/
def lastToken (es : List Event) (c : UUID) : Option Str := (es.filterMap (Event.tokenFor c)).getLast?

section Histories

variable (es : List Event) (e : Event) (c : UUID)

theorem lastToken_concat :
    lastToken (es ++ [e]) c = (e.tokenFor c).or (lastToken es c) := by
  unfold lastToken
  rw [List.filterMap_append]
  cases h : e.tokenFor c <;> simp [h]

@[simp] theorem mem_issuedIds : c ∈ issuedIds es ↔ ∃ t, Event.issued c t ∈ es := by
  simp only [issuedIds, List.mem_filterMap]
  constructor
  · rintro ⟨e, he, heq⟩
    cases e with
    | issued c' t =>
      cases heq
      exact ⟨t, he⟩
    | revoked c' => cases heq
    | rotated c' t t' => cases heq
  · rintro ⟨t, ht⟩
    exact ⟨_, ht, rfl⟩

end Histories

/-- What is assumed of the steps: ids and tokens are generated fresh, tokens are short enough to be
presented again, and all tokens belong to `T`. -/
def Fresh (T : Set Str) (_ : CredentialTable) (es : List Event) : Action → Prop
  | .issue _ accessToken credentialId _ _ =>
    credentialId ∉ issuedIds es ∧ accessToken ∉ generatedTokens es ∧ accessToken ∈ T ∧
      accessToken.length ≤ 512
  | .rotate _ current new _ _ =>
    current ∈ T ∧ new ∉ generatedTokens es ∧ new ∈ T ∧ new.length ≤ 512
  | _ => True

/-! ### The invariant -/

/-- The row of a credential: it holds the digest of the last token, and it is active exactly as long
as the credential was not revoked. -/
structure RowFor (T : Set Str) (es : List Event) (row : CredentialRow) (c : UUID) (t : Str) :
    Prop where
  credentialId : row.credentialId = uuidStr c
  lastToken : lastToken es c = some t
  tokenDigest : row.tokenDigest = Credentials.tokenDigest t
  mem : t ∈ T
  presentable : presentable t = true
  createdAt : ∃ d, row.createdAt = serializeDatetime d
  revokedAt : ∀ text ∈ row.revokedAt, ∃ d, text = serializeDatetime d
  active : row.active = true ↔ Event.revoked c ∉ es

/-- The tokens of a history: none is the last one of two credentials, and a token that was presented
to a rotation is no longer the last one of any. -/
structure TokenHistory (es : List Event) : Prop where
  last_issued : ∀ c t, lastToken es c = some t → c ∈ issuedIds es ∧ t ∈ generatedTokens es
  owner : ∀ c c' t, lastToken es c = some t → lastToken es c' = some t → c = c'
  presented_nodup : (presentedTokens es).Nodup
  presented_old : ∀ t ∈ presentedTokens es, t ∈ generatedTokens es ∧ ∀ c, lastToken es c ≠ some t

/-- The table agrees with the history. -/
structure Valid (T : Set Str) (table : CredentialTable) (es : List Event) : Prop where
  active_le : table.activeRows.length ≤ maxActiveCredentials
  rows_le : table.rows.length ≤ maxRetainedCredentials
  rows : ∀ row ∈ table.rows, ∃ c t, RowFor T es row c t
  present : ∀ c ∈ issuedIds es, Event.revoked c ∉ es →
    ∃ row ∈ table.rows, row.credentialId = uuidStr c
  revoked_issued : ∀ c, Event.revoked c ∈ es → c ∈ issuedIds es
  tokens : TokenHistory es

section Rows

variable {zone : NaiveDateTime → Except Exn ℤ} {T : Set Str} {es : List Event}
  {table : CredentialTable} {row : CredentialRow} {c : UUID} {t : Str}

variable (zone) in
/-- Rows that the store has written are parsed without an exception. -/
theorem rowToCredential_ok (h : RowFor T es row c t) :
    ∃ credential, rowToCredential zone row = .ok credential ∧ credential.credentialId = c := by
  obtain ⟨d, hd⟩ := h.createdAt
  have hid : parseCredentialId row.credentialId = .ok c := by
    rw [parseCredentialId, h.credentialId, parseUuid_uuidStr]
  have hcreated : parseDatetime zone row.createdAt = .ok d := by
    rw [hd, parseDatetime_serializeDatetime]
  cases hrev : row.revokedAt with
  | none =>
    simp only [rowToCredential, hid, hcreated, hrev]
    exact ⟨_, rfl, rfl⟩
  | some text =>
    obtain ⟨d', hd'⟩ := h.revokedAt text hrev
    have hrevoked : parseDatetime zone text = .ok d' := by
      rw [hd', parseDatetime_serializeDatetime]
    simp only [rowToCredential, hid, hcreated, hrev, hrevoked]
    exact ⟨_, rfl, rfl⟩

/-- A row is determined by its id. -/
theorem row_eq_of_id {r r' : CredentialRow} (hr : r ∈ table.rows) (hr' : r' ∈ table.rows)
    (h : r.credentialId = r'.credentialId) : r = r' :=
  List.inj_on_of_nodup_map table.ids hr hr' h

theorem findActive_eq_some_iff :
    table.findActive c = some row ↔
      row ∈ table.rows ∧ row.credentialId = uuidStr c ∧ row.active = true := by
  constructor
  · intro h
    have hp := List.find?_some h
    simp only [Bool.and_eq_true, decide_eq_true_eq] at hp
    exact ⟨List.mem_of_find?_eq_some h, hp.1, hp.2⟩
  · rintro ⟨hmem, hid, hactive⟩
    cases hfind : table.findActive c with
    | none =>
      have := List.find?_eq_none.1 hfind row hmem
      simp [hid, hactive] at this
    | some row' =>
      have hp := List.find?_some hfind
      simp only [Bool.and_eq_true, decide_eq_true_eq] at hp
      rw [row_eq_of_id (List.mem_of_find?_eq_some hfind) hmem (hp.1.trans hid.symm)]

/-- `authenticate` finds the active row with the digest of the token. -/
theorem authenticate_eq_ok_iff {zone : NaiveDateTime → Except Exn ℤ} {t : Str}
    {credential : PairedCredential} :
    authenticate zone table t .none = .ok (some credential) ↔
      presentable t = true ∧ ∃ row ∈ table.rows, row.active = true ∧
        row.tokenDigest = tokenDigest t ∧ rowToCredential zone row = .ok credential := by
  set sorted := sortBy CredentialRow.createdAt CredentialRow.credentialId table.activeRows
    with hsorted
  have hmem : ∀ row, row ∈ sorted ↔ row ∈ table.rows ∧ row.active = true := by
    intro row
    rw [hsorted, (sortBy_perm _ _ _).mem_iff, CredentialTable.activeRows, List.mem_filter]
  rw [authenticate, if_neg (not_not.2 rfl)]
  split
  · rename_i hpresentable
    simp [hpresentable]
  rename_i hpresentable
  simp only [← hsorted]
  cases hfind : sorted.find? fun row => tokenDigest t = row.tokenDigest with
  | none =>
    simp only [reduceCtorEq, Except.ok.injEq, false_iff, not_and, not_exists]
    intro _ row hrow hactive hdigest
    have := List.find?_eq_none.1 hfind row ((hmem row).2 ⟨hrow, hactive⟩)
    simp [hdigest] at this
  | some row =>
    have hdigest : tokenDigest t = row.tokenDigest := by simpa using List.find?_some hfind
    obtain ⟨hrow, hactive⟩ := (hmem row).1 (List.mem_of_find?_eq_some hfind)
    simp only
    constructor
    · intro hauth
      refine ⟨by simpa using hpresentable, row, hrow, hactive, hdigest.symm, ?_⟩
      cases hcred : rowToCredential zone row with
      | error e =>
        rw [hcred] at hauth
        cases hauth
      | ok credential' =>
        rw [hcred] at hauth
        cases hauth
        rfl
    · rintro ⟨-, row', hrow', -, hdigest', hcred⟩
      obtain rfl : row = row' := List.inj_on_of_nodup_map table.digests hrow hrow'
        (hdigest.symm.trans hdigest'.symm)
      rw [hcred]
      rfl

/-- The row of a credential that has one. -/
theorem Valid.rowFor (h : Valid T table es) (hrow : row ∈ table.rows)
    (hid : row.credentialId = uuidStr c) : ∃ t, RowFor T es row c t := by
  obtain ⟨c', t, hr⟩ := h.rows row hrow
  obtain rfl : c' = c := uuidStr_injective (hr.credentialId.symm.trans hid)
  exact ⟨t, hr⟩

end Rows

/-! ### What the operations do to the table -/

section Pruning

variable {table : CredentialTable} {row : CredentialRow}

/-- The rows that `pruneRevoked` deletes. -/
def victims (table : CredentialTable) : List CredentialRow :=
  (sortBy (fun row => row.revokedAt.getD []) CredentialRow.credentialId
    (table.rows.filter fun row => !row.active)).take (table.rows.length + 1 - maxRetainedCredentials)

theorem rows_pruneRevoked : (pruneRevoked table).rows =
    table.rows.filter fun row => row.credentialId ∉ (victims table).map CredentialRow.credentialId := by
  unfold pruneRevoked victims
  dsimp only
  split
  case isTrue hzero =>
    rw [hzero, List.take_zero]
    exact (List.filter_eq_self.2 fun row _ => by simp).symm
  case isFalse => rfl

theorem mem_of_mem_victims (h : row ∈ victims table) : row ∈ table.rows ∧ row.active = false := by
  have hmem := List.mem_filter.1 ((sortBy_perm _ _ _).mem_iff.1 (List.mem_of_mem_take h))
  exact ⟨hmem.1, by simpa using hmem.2⟩

theorem mem_pruneRevoked_iff :
    row ∈ (pruneRevoked table).rows ↔ row ∈ table.rows ∧ row ∉ victims table := by
  rw [rows_pruneRevoked, List.mem_filter, decide_eq_true_eq]
  refine and_congr_right fun hrow => not_congr ⟨fun hid => ?_, List.mem_map_of_mem⟩
  obtain ⟨victim, hvictim, heq⟩ := List.mem_map.1 hid
  obtain rfl := row_eq_of_id (mem_of_mem_victims hvictim).1 hrow heq
  exact hvictim

theorem mem_of_mem_pruneRevoked (h : row ∈ (pruneRevoked table).rows) : row ∈ table.rows :=
  (mem_pruneRevoked_iff.1 h).1

/-- Pruning keeps every active row. -/
theorem mem_pruneRevoked_of_active (h : row ∈ table.rows) (hactive : row.active = true) :
    row ∈ (pruneRevoked table).rows := by
  refine mem_pruneRevoked_iff.2 ⟨h, fun hvictim => ?_⟩
  rw [(mem_of_mem_victims hvictim).2] at hactive
  cases hactive

theorem pruneRevoked_activeRows_le (table : CredentialTable) :
    (pruneRevoked table).activeRows.length ≤ table.activeRows.length := by
  unfold CredentialTable.activeRows
  rw [rows_pruneRevoked]
  exact (List.filter_sublist.filter _).length_le

theorem length_victims : (victims table).length =
    min (table.rows.length + 1 - maxRetainedCredentials) (table.rows.countP fun row => !row.active) := by
  rw [victims, List.length_take, (sortBy_perm _ _ _).length_eq, List.countP_eq_length_filter]

/-- Every victim is one row of the table. -/
theorem length_pruneRevoked (table : CredentialTable) : (pruneRevoked table).rows.length + (victims table).length =
    table.rows.length := by
  have hids : ((victims table).map CredentialRow.credentialId).Nodup := by
    have hperm := sortBy_perm (fun row : CredentialRow => row.revokedAt.getD [])
      CredentialRow.credentialId (table.rows.filter fun row => !row.active)
    have hsorted := (hperm.map CredentialRow.credentialId).nodup_iff.2
      (table.ids.sublist (List.filter_sublist.map _))
    exact hsorted.sublist ((List.take_sublist _ _).map _)
  have hperm : (table.rows.filter fun row =>
      row.credentialId ∈ (victims table).map CredentialRow.credentialId).Perm (victims table) := by
    refine (List.perm_ext_iff_of_nodup ((List.Nodup.of_map _ table.ids).filter _)
      (List.Nodup.of_map _ hids)).2 fun row => ?_
    rw [List.mem_filter, decide_eq_true_eq]
    constructor
    · rintro ⟨hrow, hid⟩
      obtain ⟨victim, hvictim, heq⟩ := List.mem_map.1 hid
      obtain rfl := row_eq_of_id (mem_of_mem_victims hvictim).1 hrow heq
      exact hvictim
    · exact fun hvictim => ⟨(mem_of_mem_victims hvictim).1, List.mem_map_of_mem hvictim⟩
  have hsplit := List.length_eq_length_filter_add (l := table.rows)
    (fun row => decide (row.credentialId ∈ (victims table).map CredentialRow.credentialId))
  rw [hperm.length_eq] at hsplit
  rw [rows_pruneRevoked, hsplit, add_comm]
  simp only [decide_not]

/-- Below the limit of active rows, pruning makes room for one more row. -/
theorem pruneRevoked_length_lt (hactive : table.activeRows.length < maxActiveCredentials) :
    (pruneRevoked table).rows.length < maxRetainedCredentials := by
  -- there are more revoked rows than have to go
  have hcounts : table.rows.length =
      table.activeRows.length + table.rows.countP fun row => !row.active := by
    rw [List.countP_eq_length_filter]
    exact List.length_eq_length_filter_add CredentialRow.active
  have hle : maxActiveCredentials ≤ maxRetainedCredentials := by decide
  have hlength := length_pruneRevoked table
  rw [length_victims] at hlength
  omega

end Pruning

section Operations

variable {zone : NaiveDateTime → Except Exn ℤ} {T : Set Str} {es : List Event}
  {table table' : CredentialTable}

/-- A successful `issue`. -/
structure Issues (table table' : CredentialTable) (c : UUID) (t : Str) : Prop where
  room : table.activeRows.length < maxActiveCredentials
  length : minGeneratedTokenLength ≤ t.length
  insert : ∃ credential : PairedCredential, credential.credentialId = c ∧
    (pruneRevoked table).insert (newRow credential t) = some table'

/-- A successful `revoke`. -/
structure Revokes (table table' : CredentialTable) (c : UUID) : Prop where
  found : ∃ row, table.findActive c = some row
  update : ∃ d, table' = table.setRevokedAt c (serializeDatetime d)

/-- A successful `rotate`. -/
structure Rotates (table table' : CredentialTable) (c : UUID) (t t' : Str) : Prop where
  length : minGeneratedTokenLength ≤ t'.length
  found : ∃ row, table.findActive c = some row ∧ row.tokenDigest = tokenDigest t
  update : table.setTokenDigest c (tokenDigest t) (tokenDigest t') = some table'

theorem issue_cases (table : CredentialTable) (args : IssueArgs) (t : Str) (c : UUID) (now : DateTime) (fault : Fault) :
    (∃ e, issue table args t c now fault = (table, .error e)) ∨
      ∃ table' credential, issue table args t c now fault = (table', .ok ⟨credential, t⟩) ∧
        credential.credentialId = c ∧ Issues table table' c t := by
  rw [issue]
  cases hnew : newCredential args t c now with
  | error e => exact Or.inl ⟨e, rfl⟩
  | ok credential =>
    have hcred : credential.credentialId = c ∧ minGeneratedTokenLength ≤ t.length := by
      unfold newCredential at hnew
      repeat (split at hnew; · cases hnew)
      cases hutc : asUtc now with
      | error e =>
        rw [hutc] at hnew
        cases hnew
      | ok d =>
        rw [hutc] at hnew
        cases hnew
        exact ⟨rfl, by omega⟩
    simp only
    split
    · exact Or.inl ⟨_, rfl⟩
    split
    · exact Or.inl ⟨_, rfl⟩
    rename_i hroom
    cases hinsert : (pruneRevoked table).insert (newRow credential t) with
    | none => exact Or.inl ⟨_, rfl⟩
    | some table' =>
      simp only
      split
      · exact Or.inr ⟨table', credential, rfl, hcred.1, by omega, hcred.2, credential, hcred.1,
          hinsert⟩
      · exact Or.inl ⟨_, rfl⟩

variable (zone) in
/-- The three ways a call of `revoke` ends on rows the store has written. -/
theorem Valid.revoke_cases (h : Valid T table es) (c : UUID) (now : DateTime) (fault : Fault) :
    (∃ e, revoke zone table c now fault = (table, .error e)) ∨
      revoke zone table c now fault = (table, .ok none) ∨
      ∃ table' credential, revoke zone table c now fault = (table', .ok (some credential)) ∧
        Revokes table table' c := by
  rw [revoke]
  cases asUtc now with
  | error e => exact Or.inl ⟨e, rfl⟩
  | ok d =>
    simp only
    split
    · exact Or.inl ⟨_, rfl⟩
    cases hfind : table.findActive c with
    | none =>
      simp only
      split
      · exact Or.inl ⟨_, rfl⟩
      · exact Or.inr (Or.inl rfl)
    | some row =>
      obtain ⟨hmem, hid, -⟩ := findActive_eq_some_iff.1 hfind
      obtain ⟨t, hrow⟩ := h.rowFor hmem hid
      obtain ⟨credential, hok, -⟩ := rowToCredential_ok zone hrow
      simp only [hok]
      split
      · exact Or.inl ⟨_, rfl⟩
      · exact Or.inr (Or.inr ⟨_, _, rfl, ⟨row, hfind⟩, d, rfl⟩)

variable (zone) in
/-- The three ways a call of `rotate` ends on rows the store has written. -/
theorem Valid.rotate_cases (h : Valid T table es) (c : UUID) (t t' : Str) (now : DateTime)
    (fault : Fault) :
    (∃ e, rotate zone table c t t' now fault = (table, .error e)) ∨
      rotate zone table c t t' now fault = (table, .ok none) ∨
      ∃ table' rotated, rotate zone table c t t' now fault = (table', .ok (some rotated)) ∧
        rotated.accessToken = t' ∧ Rotates table table' c t t' := by
  rw [rotate]
  split
  · exact Or.inr (Or.inl rfl)
  cases asUtc now with
  | error e => exact Or.inl ⟨e, rfl⟩
  | ok d =>
    simp only
    split
    · exact Or.inl ⟨_, rfl⟩
    cases hfind : (table.findActive c).filter (·.tokenDigest = tokenDigest t) with
    | none =>
      simp only
      split
      · exact Or.inl ⟨_, rfl⟩
      · exact Or.inr (Or.inl rfl)
    | some row =>
      obtain ⟨hrow, hdigest⟩ := Option.filter_eq_some_iff.1 hfind
      obtain ⟨hmem, hid, -⟩ := findActive_eq_some_iff.1 hrow
      obtain ⟨t₀, hfor⟩ := h.rowFor hmem hid
      obtain ⟨credential, hok, -⟩ := rowToCredential_ok zone hfor
      simp only [hok]
      split
      · exact Or.inl ⟨_, rfl⟩
      rename_i hlen
      split
      · exact Or.inl ⟨_, rfl⟩
      cases hset : table.setTokenDigest c (tokenDigest t) (tokenDigest t') with
      | none => exact Or.inl ⟨_, rfl⟩
      | some table' =>
        simp only
        split
        · exact Or.inl ⟨_, rfl⟩
        · exact Or.inr (Or.inr ⟨table', _, rfl, rfl, by omega, ⟨row, hrow, by simpa using hdigest⟩,
            hset⟩)

variable (zone) in
/-- **What a step can do.** A step without an event leaves the table as it is; the others issue,
revoke or rotate one credential. -/
theorem Valid.perform_cases (h : Valid T table es) (a : Action) :
    (∃ o, perform zone table a = (table, o) ∧ o.events = []) ∨
      (∃ args t c now fault table', a = .issue args t c now fault ∧
        perform zone table a = (table', .succeeded [.issued c t]) ∧ Issues table table' c t) ∨
      (∃ c now fault table', a = .revoke c now fault ∧
        perform zone table a = (table', .succeeded [.revoked c]) ∧ Revokes table table' c) ∨
      ∃ c t t' now fault table', a = .rotate c t t' now fault ∧
        perform zone table a = (table', .succeeded [.rotated c t t']) ∧
        Rotates table table' c t t' := by
  cases a with
  | issue args t c now fault =>
    rcases issue_cases table args t c now fault with
      ⟨e, he⟩ | ⟨table', credential, hok, rfl, hissues⟩
    · exact Or.inl ⟨_, by simp only [perform, he]; rfl, rfl⟩
    · exact Or.inr (Or.inl ⟨args, t, _, now, fault, table', rfl, by simp only [perform, hok],
        hissues⟩)
  | authenticate t fault =>
    refine Or.inl ?_
    simp only [perform]
    split <;> exact ⟨_, rfl, rfl⟩
  | revoke c now fault =>
    rcases h.revoke_cases zone c now fault with
      ⟨e, he⟩ | hnone | ⟨table', credential, hok, hrevokes⟩
    · exact Or.inl ⟨_, by simp only [perform, he]; rfl, rfl⟩
    · exact Or.inl ⟨_, by simp only [perform, hnone]; rfl, rfl⟩
    · exact Or.inr (Or.inr (Or.inl ⟨c, now, fault, table', rfl, by simp only [perform, hok],
        hrevokes⟩))
  | rotate c t t' now fault =>
    rcases h.rotate_cases zone c t t' now fault with
      ⟨e, he⟩ | hnone | ⟨table', rotated, hok, rfl, hrotates⟩
    · exact Or.inl ⟨_, by simp only [perform, he]; rfl, rfl⟩
    · exact Or.inl ⟨_, by simp only [perform, hnone]; rfl, rfl⟩
    · exact Or.inr (Or.inr (Or.inr ⟨c, t, _, now, fault, table', rfl, by simp only [perform, hok],
        hrotates⟩))

end Operations

/-! ### The operations keep the invariant -/

section Preservation

variable {T : Set Str} {es : List Event} {table table' : CredentialTable} {row : CredentialRow}
  {c : UUID} {t t' : Str}

theorem Valid.empty : Valid T CredentialTable.empty [] where
  active_le := Nat.zero_le _
  rows_le := Nat.zero_le _
  rows := by simp [CredentialTable.empty]
  present := by simp
  revoked_issued := by simp
  tokens := ⟨by simp [lastToken], by simp [lastToken], List.nodup_nil, by simp [presentedTokens]⟩

/-- Giving a fresh token to a credential, possibly in exchange for its last one. -/
theorem TokenHistory.give (h : TokenHistory es) {e : Event}
    (hlast : ∀ c', lastToken (es ++ [e]) c' = if c = c' then some t else lastToken es c')
    (hids : ∀ c', c' ∈ issuedIds (es ++ [e]) ↔ c' ∈ issuedIds es ∨ c' = c)
    (htokens : generatedTokens (es ++ [e]) = generatedTokens es ++ [t])
    (ht : t ∉ generatedTokens es)
    (hpresented : presentedTokens (es ++ [e]) = presentedTokens es ∨
      ∃ t₀, presentedTokens (es ++ [e]) = presentedTokens es ++ [t₀] ∧
        lastToken es c = some t₀) : TokenHistory (es ++ [e]) := by
  have hkeep : ∀ t₀ ∈ presentedTokens es, t₀ ∈ generatedTokens es ++ [t] ∧
      ∀ c', lastToken (es ++ [e]) c' ≠ some t₀ := by
    intro t₀ ht₀
    obtain ⟨hgen, hold⟩ := h.presented_old t₀ ht₀
    refine ⟨List.mem_append_left _ hgen, fun c' hl => ?_⟩
    rw [hlast] at hl
    split at hl
    · cases hl
      exact ht hgen
    · exact hold c' hl
  refine ⟨?_, ?_, ?_, ?_⟩
  · intro c' t₀ hl
    rw [hlast] at hl
    rw [hids, htokens]
    split at hl
    · rename_i heq
      cases hl
      simp [heq]
    · obtain ⟨h₁, h₂⟩ := h.last_issued c' t₀ hl
      exact ⟨Or.inl h₁, List.mem_append_left _ h₂⟩
  · intro c₁ c₂ t₀ h₁ h₂
    rw [hlast] at h₁ h₂
    split at h₁
    · split at h₂
      · simp_all
      · cases h₁
        exact absurd (h.last_issued c₂ _ h₂).2 ht
    · split at h₂
      · cases h₂
        exact absurd (h.last_issued c₁ _ h₁).2 ht
      · exact h.owner c₁ c₂ t₀ h₁ h₂
  · rcases hpresented with heq | ⟨t₀, heq, hcurrent⟩
    · rw [heq]
      exact h.presented_nodup
    · rw [heq]
      refine List.nodup_append.2 ⟨h.presented_nodup, List.nodup_singleton _, ?_⟩
      rintro t₁ ht₁ _ hmem rfl
      rw [List.mem_singleton.1 hmem] at ht₁
      exact (h.presented_old t₀ ht₁).2 c hcurrent
  · rw [htokens]
    rcases hpresented with heq | ⟨t₀, heq, hcurrent⟩
    · rw [heq]
      exact hkeep
    · rw [heq]
      intro t₁ ht₁
      rcases List.mem_append.1 ht₁ with ht₁ | ht₁
      · exact hkeep t₁ ht₁
      · obtain rfl := List.mem_singleton.1 ht₁
        have hgen := (h.last_issued c _ hcurrent).2
        refine ⟨List.mem_append_left _ hgen, fun c' hl => ?_⟩
        rw [hlast] at hl
        split at hl
        · cases hl
          exact ht hgen
        · rename_i hne
          exact hne (h.owner c c' _ hcurrent hl)

/-- Events about other credentials do not concern a row. -/
theorem RowFor.concat (h : RowFor T es row c t) {e : Event} (htoken : e.tokenFor c = none)
    (hrevoked : e ≠ .revoked c) : RowFor T (es ++ [e]) row c t := by
  refine { h with lastToken := ?_, active := ?_ }
  · rw [lastToken_concat, htoken, Option.none_or]
    exact h.lastToken
  · rw [h.active, List.mem_append, List.mem_singleton]
    tauto

theorem presentable_of_length (hmin : minGeneratedTokenLength ≤ t.length)
    (hmax : t.length ≤ 512) : presentable t = true := by
  have hne : t ≠ [] := by
    rintro rfl
    exact absurd hmin (by decide)
  simp [presentable, hne, hmax]

theorem Valid.issue (h : Valid T table es) (hi : Issues table table' c t)
    (hc : c ∉ issuedIds es) (ht : t ∉ generatedTokens es) (hT : t ∈ T) (hlen : t.length ≤ 512) :
    Valid T table' (es ++ [.issued c t]) := by
  obtain ⟨credential, rfl, hinsert⟩ := hi.insert
  have hrows : table'.rows = newRow credential t :: (pruneRevoked table).rows := by
    unfold CredentialTable.insert at hinsert
    split at hinsert
    · cases hinsert
      rfl
    · cases hinsert
  have hlast : ∀ c', lastToken (es ++ [.issued credential.credentialId t]) c' =
      if credential.credentialId = c' then some t else lastToken es c' := by
    intro c'
    rw [lastToken_concat, Event.tokenFor]
    split <;> simp
  have hids : ∀ c', c' ∈ issuedIds (es ++ [.issued credential.credentialId t]) ↔
      c' ∈ issuedIds es ∨ c' = credential.credentialId := by
    intro c'
    simp [issuedIds]
  have hnot : Event.revoked credential.credentialId ∉ es := fun hmem =>
    hc (h.revoked_issued _ hmem)
  refine ⟨?_, ?_, ?_, ?_, ?_, ?_⟩
  · have hle := pruneRevoked_activeRows_le table
    have hactive : (newRow credential t).active = true := rfl
    rw [CredentialTable.activeRows, hrows, List.filter_cons_of_pos hactive, List.length_cons]
    exact Nat.succ_le_of_lt (lt_of_le_of_lt hle hi.room)
  · rw [hrows, List.length_cons]
    exact Nat.succ_le_of_lt (pruneRevoked_length_lt hi.room)
  · intro row hrow
    rw [hrows] at hrow
    rcases List.mem_cons.1 hrow with rfl | hrow
    · refine ⟨credential.credentialId, t, rfl, ?_, rfl, hT, presentable_of_length hi.length hlen,
        ⟨_, rfl⟩, by simp [newRow], iff_of_true rfl ?_⟩
      · rw [hlast, if_pos rfl]
      · simpa using hnot
    · obtain ⟨c', t₀, hfor⟩ := h.rows row (mem_of_mem_pruneRevoked hrow)
      have hne : credential.credentialId ≠ c' := by
        rintro rfl
        exact hc (h.tokens.last_issued _ _ hfor.lastToken).1
      exact ⟨c', t₀, hfor.concat (by simp [Event.tokenFor, hne]) (by simp)⟩
  · intro c' hc' hnot
    rw [hrows]
    rcases (hids c').1 hc' with hc' | rfl
    · have hnot' : Event.revoked c' ∉ es := fun hmem => hnot (List.mem_append_left _ hmem)
      obtain ⟨row, hrow, hid⟩ := h.present c' hc' hnot'
      obtain ⟨t₀, hfor⟩ := h.rowFor hrow hid
      exact ⟨row, List.mem_cons_of_mem _ (mem_pruneRevoked_of_active hrow (hfor.active.2 hnot')),
        hid⟩
    · exact ⟨_, List.mem_cons_self, rfl⟩
  · intro c' hmem
    refine (hids c').2 (Or.inl (h.revoked_issued c' ?_))
    simpa using hmem
  · refine h.tokens.give hlast hids (List.filterMap_append) ht (Or.inl ?_)
    simp [presentedTokens]

theorem Valid.revoke (h : Valid T table es) (hr : Revokes table table' c) :
    Valid T table' (es ++ [.revoked c]) := by
  obtain ⟨row₀, hfound⟩ := hr.found
  obtain ⟨d, rfl⟩ := hr.update
  obtain ⟨hmem₀, hid₀, -⟩ := findActive_eq_some_iff.1 hfound
  obtain ⟨t₀, hfor₀⟩ := h.rowFor hmem₀ hid₀
  have hlast : ∀ c', lastToken (es ++ [.revoked c]) c' = lastToken es c' := by
    intro c'
    rw [lastToken_concat, Event.tokenFor, Option.none_or]
  have hids : issuedIds (es ++ [.revoked c]) = issuedIds es := by simp [issuedIds]
  have htokens : generatedTokens (es ++ [.revoked c]) = generatedTokens es := by
    simp [generatedTokens]
  have hpresented : presentedTokens (es ++ [.revoked c]) = presentedTokens es := by
    simp [presentedTokens]
  refine ⟨?_, ?_, ?_, ?_, ?_, ?_⟩
  · refine le_trans ?_ h.active_le
    simp only [CredentialTable.activeRows, CredentialTable.setRevokedAt,
      ← List.countP_eq_length_filter, List.countP_map]
    refine List.countP_mono_left fun row _ hrow => ?_
    simp only [Function.comp_apply] at hrow
    split at hrow
    · cases hrow
    · exact hrow
  · simpa [CredentialTable.setRevokedAt] using h.rows_le
  · intro row hrow
    obtain ⟨old, hold, rfl⟩ := List.mem_map.1 hrow
    obtain ⟨c', t, hfor⟩ := h.rows old hold
    by_cases hid : old.credentialId = uuidStr c
    · obtain rfl : c' = c := uuidStr_injective (hfor.credentialId.symm.trans hid)
      rw [if_pos hid]
      refine ⟨c', t, { hfor with
        lastToken := (hlast c').trans hfor.lastToken
        revokedAt := ?_
        active := ?_ }⟩
      · rintro text htext
        exact ⟨d, (Option.mem_some.1 htext).symm⟩
      · exact iff_of_false (by simp [CredentialRow.active]) (by simp)
    · have hne : c ≠ c' := by
        rintro rfl
        exact hid hfor.credentialId
      rw [if_neg hid]
      exact ⟨c', t, hfor.concat rfl (by simpa using hne)⟩
  · intro c' hc' hnot
    rw [hids] at hc'
    obtain ⟨row, hrow, hid⟩ := h.present c' hc' fun hmem => hnot (List.mem_append_left _ hmem)
    refine ⟨_, List.mem_map_of_mem hrow, ?_⟩
    split <;> exact hid
  · intro c' hmem
    rw [hids]
    rcases List.mem_append.1 hmem with hmem | hmem
    · exact h.revoked_issued c' hmem
    · cases List.mem_singleton.1 hmem
      exact (h.tokens.last_issued _ _ hfor₀.lastToken).1
  · have htok := h.tokens
    refine ⟨?_, ?_, ?_, ?_⟩
    · simpa only [hlast, hids, htokens] using htok.last_issued
    · simpa only [hlast] using htok.owner
    · simpa only [hpresented] using htok.presented_nodup
    · simpa only [hlast, htokens, hpresented] using htok.presented_old

theorem Valid.rotate (h : Valid T table es) (hinj : Set.InjOn tokenDigest T)
    (hr : Rotates table table' c t t') (htT : t ∈ T) (ht' : t' ∉ generatedTokens es)
    (hT : t' ∈ T) (hlen : t'.length ≤ 512) : Valid T table' (es ++ [.rotated c t t']) := by
  obtain ⟨row₀, hfound, hdigest₀⟩ := hr.found
  obtain ⟨hmem₀, hid₀, hactive₀⟩ := findActive_eq_some_iff.1 hfound
  obtain ⟨t₀, hfor₀⟩ := h.rowFor hmem₀ hid₀
  -- the presented token is the last one of the credential
  obtain rfl : t₀ = t := hinj hfor₀.mem htT (hfor₀.tokenDigest.symm.trans hdigest₀)
  have hrows : table'.rows = table.rows.map
      (CredentialTable.rotateRow c (tokenDigest t₀) (tokenDigest t')) := by
    have hupdate := hr.update
    unfold CredentialTable.setTokenDigest at hupdate
    simp only at hupdate
    split at hupdate
    · cases hupdate
      rfl
    · cases hupdate
  have hactive : ∀ row, (CredentialTable.rotateRow c (tokenDigest t₀) (tokenDigest t') row).active =
      row.active := by
    intro row
    unfold CredentialTable.rotateRow
    split <;> rfl
  have hlast : ∀ c', lastToken (es ++ [.rotated c t₀ t']) c' =
      if c = c' then some t' else lastToken es c' := by
    intro c'
    rw [lastToken_concat, Event.tokenFor]
    split <;> simp
  have hids : issuedIds (es ++ [.rotated c t₀ t']) = issuedIds es := by simp [issuedIds]
  have hissued := (h.tokens.last_issued _ _ hfor₀.lastToken).1
  refine ⟨?_, ?_, ?_, ?_, ?_, ?_⟩
  · refine le_of_eq_of_le ?_ h.active_le
    simp only [CredentialTable.activeRows, hrows, ← List.countP_eq_length_filter, List.countP_map]
    exact List.countP_congr fun row _ => by simp [hactive]
  · rw [hrows, List.length_map]
    exact h.rows_le
  · intro row hrow
    rw [hrows] at hrow
    obtain ⟨old, hold, rfl⟩ := List.mem_map.1 hrow
    obtain ⟨c', t₁, hfor⟩ := h.rows old hold
    by_cases hid : old.credentialId = uuidStr c
    · obtain rfl : c' = c := uuidStr_injective (hfor.credentialId.symm.trans hid)
      obtain rfl : old = row₀ := row_eq_of_id hold hmem₀ (hid.trans hid₀.symm)
      rw [CredentialTable.rotateRow, if_pos ⟨hid, hactive₀, hdigest₀⟩]
      refine ⟨c', t', { hfor with
        lastToken := by rw [hlast, if_pos rfl]
        tokenDigest := rfl
        mem := hT
        presentable := presentable_of_length hr.length hlen
        active := ?_ }⟩
      have hkeep : Event.revoked c' ∈ es ++ [.rotated c' t₀ t'] ↔ Event.revoked c' ∈ es := by simp
      rw [hkeep]
      exact hfor.active
    · have hne : c ≠ c' := by
        rintro rfl
        exact hid hfor.credentialId
      rw [CredentialTable.rotateRow, if_neg fun hall => hid hall.1]
      exact ⟨c', t₁, hfor.concat (by simp [Event.tokenFor, hne]) (by simp)⟩
  · intro c' hc' hnot
    rw [hids] at hc'
    obtain ⟨row, hrow, hid⟩ := h.present c' hc' fun hmem => hnot (List.mem_append_left _ hmem)
    rw [hrows]
    exact ⟨_, List.mem_map_of_mem hrow, (CredentialTable.rotateRow_credentialId _ _ _ _).trans hid⟩
  · intro c' hmem
    rw [hids]
    exact h.revoked_issued c' (by simpa using hmem)
  · refine h.tokens.give hlast ?_ (List.filterMap_append) ht'
      (Or.inr ⟨t₀, List.filterMap_append, hfor₀.lastToken⟩)
    intro c'
    rw [hids]
    constructor
    · exact Or.inl
    · rintro (hc' | rfl)
      · exact hc'
      · exact hissued

/-- Every step keeps the invariant. -/
theorem Valid.step {zone : NaiveDateTime → Except Exn ℤ} (hinj : Set.InjOn tokenDigest T)
    (h : Valid T table es) {a : Action} {out : List Event} (hfresh : Fresh T table es a)
    (hs : Credentials.step zone table a = some (table', out)) : Valid T table' (es ++ out) := by
  simp only [Credentials.step, Option.some.injEq, Prod.mk.injEq] at hs
  obtain ⟨rfl, rfl⟩ := hs
  rcases h.perform_cases zone a with ⟨o, hp, ho⟩ |
    ⟨args, t, c, now, fault, table', rfl, hp, hissues⟩ | ⟨c, now, fault, table', rfl, hp, hrevokes⟩ |
    ⟨c, t, t', now, fault, table', rfl, hp, hrotates⟩
  · rw [hp, ho, List.append_nil]
    exact h
  · rw [hp]
    obtain ⟨hc, ht, hT, hlen⟩ := hfresh
    exact h.issue hissues hc ht hT hlen
  · rw [hp]
    exact h.revoke hrevokes
  · rw [hp]
    obtain ⟨htT, ht', hT, hlen⟩ := hfresh
    exact h.rotate hinj hrotates htT ht' hT hlen

theorem Valid.of_reaches {zone : NaiveDateTime → Except Exn ℤ} (hinj : Set.InjOn tokenDigest T)
    (h : Machine.Reaches (Credentials.step zone) (Fresh T) CredentialTable.empty table es) :
    Valid T table es :=
  h.invariant (I := Valid T) Valid.empty fun _ _ _ _ _ hI hok hs => hI.step hinj hok hs

/-- `authenticate` finds the active credential whose last token is presented, and no other. -/
theorem Valid.authenticate_iff {zone : NaiveDateTime → Except Exn ℤ}
    (hinj : Set.InjOn tokenDigest T) (h : Valid T table es) (ht : t ∈ T) :
    (∃ credential, authenticate zone table t .none = .ok (some credential) ∧
        credential.credentialId = c) ↔
      (table.findActive c).isSome ∧ lastToken es c = some t := by
  constructor
  · rintro ⟨credential, hauth, rfl⟩
    obtain ⟨-, row, hrow, hactive, hdigest, hcred⟩ := authenticate_eq_ok_iff.1 hauth
    obtain ⟨c, t', hfor⟩ := h.rows row hrow
    obtain rfl : t = t' := hinj ht hfor.mem (hdigest.symm.trans hfor.tokenDigest)
    obtain ⟨credential', hok, rfl⟩ := rowToCredential_ok zone hfor
    rw [hok] at hcred
    cases hcred
    refine ⟨?_, hfor.lastToken⟩
    rw [findActive_eq_some_iff.2 ⟨hrow, hfor.credentialId, hactive⟩]
    rfl
  · rintro ⟨hsome, hlast⟩
    obtain ⟨row, hfound⟩ := Option.isSome_iff_exists.1 hsome
    obtain ⟨hrow, hid, hactive⟩ := findActive_eq_some_iff.1 hfound
    obtain ⟨t', hfor⟩ := h.rowFor hrow hid
    obtain rfl : t = t' := Option.some.inj (hlast.symm.trans hfor.lastToken)
    obtain ⟨credential, hok, hcred⟩ := rowToCredential_ok zone hfor
    exact ⟨credential, authenticate_eq_ok_iff.2
      ⟨hfor.presentable, row, hrow, hactive, hfor.tokenDigest, hok⟩, hcred⟩

theorem Valid.findActive_isSome_iff (h : Valid T table es) :
    (table.findActive c).isSome ↔ c ∈ issuedIds es ∧ Event.revoked c ∉ es := by
  constructor
  · intro hsome
    obtain ⟨row, hfound⟩ := Option.isSome_iff_exists.1 hsome
    obtain ⟨hrow, hid, hactive⟩ := findActive_eq_some_iff.1 hfound
    obtain ⟨t, hfor⟩ := h.rowFor hrow hid
    exact ⟨(h.tokens.last_issued _ _ hfor.lastToken).1, hfor.active.1 hactive⟩
  · rintro ⟨hissued, hnot⟩
    obtain ⟨row, hrow, hid⟩ := h.present c hissued hnot
    obtain ⟨t, hfor⟩ := h.rowFor hrow hid
    rw [findActive_eq_some_iff.2 ⟨hrow, hid, hfor.active.2 hnot⟩]
    rfl

end Preservation

/-- **Runs of the credential store.** In every reachable state at most 32 credentials are active and
at most 64 rows exist; a token authenticates exactly the active credential that it was last given to;
a credential is active exactly from its issue to its revocation, so that no revoked credential
becomes active again and no other row is ever deleted; no token was presented to two successful
rotations; and an operation that raises or returns `None` leaves the table unchanged. -/
theorem credentials_over_runs {zone : NaiveDateTime → Except Exn ℤ} {T : Set Str}
    (hinj : Set.InjOn tokenDigest T) {table : CredentialTable} {es : List Event}
    (h : Machine.Reaches (step zone) (Fresh T) CredentialTable.empty table es) :
    table.activeRows.length ≤ 32 ∧ table.rows.length ≤ 64 ∧
      (∀ t ∈ T, ∀ c, (∃ credential, authenticate zone table t .none = .ok (some credential) ∧
          credential.credentialId = c) ↔
        (table.findActive c).isSome ∧ lastToken es c = some t) ∧
      (∀ c, Event.revoked c ∈ es → table.findActive c = none) ∧
      (∀ c ∈ issuedIds es, Event.revoked c ∉ es → (table.findActive c).isSome) ∧
      (presentedTokens es).Nodup ∧
      ∀ a, (∀ events, (perform zone table a).2 ≠ .succeeded events) →
        (perform zone table a).1 = table := by
  have hv := Valid.of_reaches hinj h
  refine ⟨hv.active_le, hv.rows_le, fun t ht c => hv.authenticate_iff hinj ht, ?_, ?_,
    hv.tokens.presented_nodup, ?_⟩
  · intro c hrevoked
    cases hfind : table.findActive c with
    | none => rfl
    | some row =>
      have hsome := hv.findActive_isSome_iff.1 (show (table.findActive c).isSome by rw [hfind]; rfl)
      exact absurd hrevoked hsome.2
  · intro c hissued hnot
    exact hv.findActive_isSome_iff.2 ⟨hissued, hnot⟩
  · intro a hfail
    rcases hv.perform_cases zone a with ⟨o, hp, -⟩ | ⟨_, _, _, _, _, _, -, hp, -⟩ |
      ⟨_, _, _, _, -, hp, -⟩ | ⟨_, _, _, _, _, _, -, hp, -⟩
    · rw [hp]
    · exact absurd (by rw [hp]) (hfail _)
    · exact absurd (by rw [hp]) (hfail _)
    · exact absurd (by rw [hp]) (hfail _)

section Sample

/-- Two tokens of the length that the store demands. -/
def firstToken : Str := List.replicate 32 'a'
def secondToken : Str := List.replicate 32 'b'

def samplePhone : UUID := ⟨7, by decide⟩

def sampleNow : DateTime := ⟨⟨⟨2026, 7, 20, 12, 0, 0, 0⟩, by decide⟩, some 0⟩

/-- A phone is paired and then rotates its token. -/
def issuePhone : Action :=
  .issue ⟨"phone-1".toList, "Phone".toList, none⟩ firstToken samplePhone sampleNow .none
def rotatePhone : Action := .rotate samplePhone firstToken secondToken sampleNow .none

/-- The phone is authenticated by its second token. -/
theorem credentials_issue_rotate : ∃ table,
    Machine.run (step fun _ => .ok 0) CredentialTable.empty [issuePhone, rotatePhone] =
        some (table, [.issued samplePhone firstToken,
          .rotated samplePhone firstToken secondToken]) ∧
      ∃ credential, authenticate (fun _ => .ok 0) table secondToken .none = .ok (some credential) ∧
        credential.credentialId = samplePhone := by
  have hne : tokenDigest firstToken ≠ tokenDigest secondToken := by decide +kernel
  have hinj : Set.InjOn tokenDigest {firstToken, secondToken} := by
    rintro a ha b hb heq
    rcases ha with rfl | rfl <;> rcases hb with rfl | rfl
    · rfl
    · exact absurd heq hne
    · exact absurd heq.symm hne
    · rfl
  have hrun : (Machine.run (step fun _ => .ok 0) CredentialTable.empty
      [issuePhone, rotatePhone]).map Prod.snd =
        some [.issued samplePhone firstToken, .rotated samplePhone firstToken secondToken] := by
    decide +kernel
  have hfirst : (perform (fun _ => .ok 0) CredentialTable.empty issuePhone).2.events =
      [.issued samplePhone firstToken] := by
    decide +kernel
  have hok : Machine.Allowed (step fun _ => .ok 0) (Fresh {firstToken, secondToken})
      CredentialTable.empty [] [issuePhone, rotatePhone] := by
    refine ⟨⟨by decide, by decide, Or.inl rfl, by decide⟩, fun table out hs => ⟨?_, by simp [Machine.Allowed]⟩⟩
    obtain rfl : out = [.issued samplePhone firstToken] := by
      rw [← hfirst]
      exact (Prod.mk.inj (Option.some.inj hs)).2.symm
    exact ⟨Or.inl rfl, by decide, Or.inr rfl, by decide⟩
  obtain ⟨⟨table, es⟩, hs, rfl⟩ := Option.map_eq_some_iff.1 hrun
  have hclaim := credentials_over_runs hinj (Machine.reaches_of_run hok hs)
  have hactive : (table.findActive samplePhone).isSome :=
    hclaim.2.2.2.2.1 samplePhone (by decide) (by decide)
  exact ⟨table, hs, (hclaim.2.2.1 secondToken (Or.inr rfl) samplePhone).2 ⟨hactive, by decide⟩⟩

end Sample

end GoffyHub.Credentials
