import GoffyOs.Python.DateTime
import GoffyOs.Python.Sqlite
import GoffyOs.Python.Uuid
import Mathlib.Data.List.Nodup

/-!
# The credential store (`goffy_hub/credentials.py`)

Paired devices authenticate with bearer tokens of which the Hub stores only digests. The store is
one SQLite table; this module embeds the table with its uniqueness constraints and the operations
`issue`, `authenticate`, `revoke`, `rotate` and `is_active`.

* `CredentialTable` carries the `PRIMARY KEY` and the `UNIQUE` constraint, so that a violating
  `INSERT` or `UPDATE` has no result and is an `IntegrityError` of the operation.
* Generated tokens and ids and clock readings are arguments; a `Fault` says where SQLite fails. Every
  operation is one transaction and returns the table after it together with its outcome.
* After their transaction `revoke` and `rotate` parse the row they have read. Its exceptions would
  come too late to undo the change; `rowToCredential_ok` shows that rows the store has written never
  raise any.
-/

namespace GoffyHub.Credentials

open Python

/-- `TOKEN_DIGEST_DOMAIN`. -/
def tokenDigestDomain : Bytes := utf8 "goffy-paired-credential-v1".toList ++ [0]

def maxActiveCredentials : ℕ := 32
def maxRetainedCredentials : ℕ := 64
def minGeneratedTokenLength : ℕ := 32
def minApprovalPublicKeyBytes : ℕ := 64
def maxApprovalPublicKeyBytes : ℕ := 512

/-- `CredentialStoreError` and its subclasses, and the built-in exceptions. -/
inductive CredentialStoreError
  | base (message : String)
  | unavailable (message : String)
  | invalidMetadata (message : String)
  | capacity (message : String)
  | exn (e : Exn)
  deriving DecidableEq, Repr

def operationFailed : CredentialStoreError := .unavailable "credential database operation failed"

/-- `PairedCredential`. -/
structure PairedCredential where
  credentialId : UUID
  deviceId : Str
  displayName : Str
  createdAt : NaiveDateTime
  revokedAt : Option NaiveDateTime
  approvalPublicKeySpkiDer : Option Bytes
  deriving DecidableEq

/-- `IssuedCredential`. -/
structure IssuedCredential where
  credential : PairedCredential
  accessToken : Str

/-- `RotatedCredential`. -/
structure RotatedCredential where
  credential : PairedCredential
  accessToken : Str
  rotatedAt : NaiveDateTime

/-- `_token_digest`. -/
def tokenDigest (token : Str) : Digest := sha256 (tokenDigestDomain ++ utf8 token)

/-! ### The table -/

/-- A row of `paired_credentials`. -/
structure CredentialRow where
  credentialId : Str
  deviceId : Str
  displayName : Str
  tokenDigest : Digest
  createdAt : Str
  revokedAt : Option Str
  approvalPublicKeySpkiDer : Option Bytes

/-- `revoked_at IS NULL`. -/
def CredentialRow.active (row : CredentialRow) : Bool := row.revokedAt.isNone

/-- The table `paired_credentials` with its primary key and its unique column. -/
structure CredentialTable where
  rows : List CredentialRow
  ids : (rows.map CredentialRow.credentialId).Nodup
  digests : (rows.map CredentialRow.tokenDigest).Nodup

def CredentialTable.empty : CredentialTable := ⟨[], List.nodup_nil, List.nodup_nil⟩

namespace CredentialTable

def activeRows (table : CredentialTable) : List CredentialRow :=
  table.rows.filter CredentialRow.active

/-- The active row with an id. -/
def findActive (table : CredentialTable) (credentialId : UUID) : Option CredentialRow :=
  table.rows.find? fun row => row.credentialId = uuidStr credentialId && row.active

/-- `INSERT`; `none` is `IntegrityError`. -/
def insert (table : CredentialTable) (row : CredentialRow) : Option CredentialTable :=
  if h : row.credentialId ∉ table.rows.map CredentialRow.credentialId ∧
      row.tokenDigest ∉ table.rows.map CredentialRow.tokenDigest then
    some {
      rows := row :: table.rows
      ids := List.nodup_cons.2 ⟨h.1, table.ids⟩
      digests := List.nodup_cons.2 ⟨h.2, table.digests⟩ }
  else none

/-- `DELETE` of the rows with these ids. -/
def delete (table : CredentialTable) (ids : List Str) : CredentialTable where
  rows := table.rows.filter fun row => row.credentialId ∉ ids
  ids := table.ids.sublist (List.filter_sublist.map _)
  digests := table.digests.sublist (List.filter_sublist.map _)

/-- `UPDATE` of `revoked_at`. -/
def setRevokedAt (table : CredentialTable) (credentialId : UUID) (revokedAt : Str) :
    CredentialTable where
  rows := table.rows.map fun row =>
    if row.credentialId = uuidStr credentialId then { row with revokedAt := some revokedAt } else row
  ids := by
    rw [List.map_map]
    convert table.ids using 2
    funext row
    simp only [Function.comp_apply]
    split <;> rfl
  digests := by
    rw [List.map_map]
    convert table.digests using 2
    funext row
    simp only [Function.comp_apply]
    split <;> rfl

/-- The `UPDATE` of `rotate` on one row. -/
def rotateRow (credentialId : UUID) (current new : Digest) (row : CredentialRow) : CredentialRow :=
  if row.credentialId = uuidStr credentialId ∧ row.active = true ∧ row.tokenDigest = current then
    { row with tokenDigest := new }
  else row

theorem rotateRow_credentialId (credentialId : UUID) (current new : Digest) (row : CredentialRow) :
    (rotateRow credentialId current new row).credentialId = row.credentialId := by
  unfold rotateRow
  split <;> rfl

/-- The `UPDATE` of `rotate`; `none` is `IntegrityError`. -/
def setTokenDigest (table : CredentialTable) (credentialId : UUID) (current new : Digest) :
    Option CredentialTable :=
  let rows := table.rows.map (rotateRow credentialId current new)
  if h : (rows.map CredentialRow.tokenDigest).Nodup then
    some {
      rows := rows
      ids := by
        rw [List.map_map]
        convert table.ids using 2
        exact funext (rotateRow_credentialId credentialId current new)
      digests := h }
  else none

end CredentialTable

/-! ### Helpers of the operations -/

/-- `DEVICE_ID_PATTERN.fullmatch`. -/
def isDeviceId (s : Str) : Bool :=
  1 ≤ s.length && s.length ≤ 64 && s.all fun c =>
    ('A' ≤ c && c ≤ 'Z') || ('a' ≤ c && c ≤ 'z') || ('0' ≤ c && c ≤ '9') ||
      c == '.' || c == '_' || c == ':' || c == '-'

/-- The display names that `issue` accepts. -/
def isDisplayName (s : Str) : Bool :=
  1 ≤ s.length && s.length ≤ 80 && s.all fun c => !(c.toNat < 32 || c.toNat == 127)

/-- The public keys that `issue` accepts. -/
def isApprovalPublicKey (key : Option Bytes) : Bool :=
  key.all fun b => minApprovalPublicKeyBytes ≤ b.length && b.length ≤ maxApprovalPublicKeyBytes

/-- `_as_utc`, which refuses naive readings. -/
def asUtc (d : DateTime) : Except CredentialStoreError NaiveDateTime :=
  match d.offset with
  | none => .error (.base "credential timestamps must be timezone-aware")
  | some _ => (astimezoneUtc (fun _ => .ok 0) d).mapError .exn

/-- `UUID(text)`. -/
def parseCredentialId (text : Str) : Except Exn UUID :=
  match parseUuid text with
  | some u => .ok u
  | none => .error .valueError

/-- `_row_to_credential`. -/
def rowToCredential (zone : NaiveDateTime → Except Exn ℤ) (row : CredentialRow) :
    Except Exn PairedCredential := do
  let credentialId ← parseCredentialId row.credentialId
  let createdAt ← parseDatetime zone row.createdAt
  let revokedAt ← match row.revokedAt with
    | none => .ok none
    | some text => (parseDatetime zone text).map some
  return { credentialId, deviceId := row.deviceId, displayName := row.displayName, createdAt
           revokedAt, approvalPublicKeySpkiDer := row.approvalPublicKeySpkiDer }

/-- `_prune_revoked`: make room for one row by deleting the longest revoked ones. -/
def pruneRevoked (table : CredentialTable) : CredentialTable :=
  let deleteCount := table.rows.length + 1 - maxRetainedCredentials
  if deleteCount = 0 then table
  else
    let revoked := table.rows.filter fun row => !row.active
    let oldest := sortBy (fun row => row.revokedAt.getD []) CredentialRow.credentialId revoked
    table.delete ((oldest.take deleteCount).map CredentialRow.credentialId)

/-! ### The operations -/

/-- The arguments of `issue`. -/
structure IssueArgs where
  deviceId : Str
  displayName : Str
  approvalPublicKeySpkiDer : Option Bytes := none

/-- The checks of `issue` before its transaction, and the credential it is going to store. -/
def newCredential (args : IssueArgs) (accessToken : Str) (credentialId : UUID) (now : DateTime) :
    Except CredentialStoreError PairedCredential :=
  if isDeviceId args.deviceId = false then
    .error (.invalidMetadata "device observation ID is invalid")
  else if isDisplayName args.displayName = false then
    .error (.invalidMetadata "device display name is invalid")
  else if isApprovalPublicKey args.approvalPublicKeySpkiDer = false then
    .error (.invalidMetadata "approval public key is invalid")
  else if accessToken.length < minGeneratedTokenLength then
    .error (.base "generated credential token is too short")
  else do
    let createdAt ← asUtc now
    return { credentialId, deviceId := args.deviceId, displayName := args.displayName, createdAt
             revokedAt := none, approvalPublicKeySpkiDer := args.approvalPublicKeySpkiDer }

/-- The row that `issue` inserts. -/
def newRow (credential : PairedCredential) (accessToken : Str) : CredentialRow where
  credentialId := uuidStr credential.credentialId
  deviceId := credential.deviceId
  displayName := credential.displayName
  tokenDigest := tokenDigest accessToken
  createdAt := serializeDatetime credential.createdAt
  revokedAt := none
  approvalPublicKeySpkiDer := credential.approvalPublicKeySpkiDer

/-- `issue`. -/
def issue (table : CredentialTable) (args : IssueArgs) (accessToken : Str) (credentialId : UUID)
    (now : DateTime) (fault : Fault) :
    CredentialTable × Except CredentialStoreError IssuedCredential :=
  match newCredential args accessToken credentialId now with
  | .error e => (table, .error e)
  | .ok credential =>
    if fault = .opening then (table, .error operationFailed)
    else if maxActiveCredentials ≤ table.activeRows.length then
      (table, .error (.capacity "active credential limit reached"))
    else match (pruneRevoked table).insert (newRow credential accessToken) with
      | none => (table, .error operationFailed)
      | some table' =>
        if fault = .none then (table', .ok ⟨credential, accessToken⟩)
        else (table, .error operationFailed)

/-- Whether `authenticate` and `rotate` look at a presented token at all. -/
def presentable (token : Str) : Bool := token ≠ [] && token.length ≤ 512

/-- `authenticate`. -/
def authenticate (zone : NaiveDateTime → Except Exn ℤ) (table : CredentialTable)
    (accessToken : Str) (fault : Fault) : Except CredentialStoreError (Option PairedCredential) :=
  if presentable accessToken = false then .ok none
  else if fault ≠ .none then .error operationFailed
  else
    let rows := sortBy CredentialRow.createdAt CredentialRow.credentialId table.activeRows
    match rows.find? fun row => tokenDigest accessToken = row.tokenDigest with
    | none => .ok none
    | some row => ((rowToCredential zone row).mapError .exn).map some

/-- `list_credentials`. -/
def listCredentials (zone : NaiveDateTime → Except Exn ℤ) (table : CredentialTable) (fault : Fault) :
    Except CredentialStoreError (List PairedCredential) :=
  if fault ≠ .none then .error operationFailed
  else
    let rows := sortByDesc CredentialRow.createdAt CredentialRow.credentialId table.rows
    ((rows.take maxRetainedCredentials).mapM (rowToCredential zone)).mapError .exn

/-- `is_active`. -/
def isActive (table : CredentialTable) (credentialId : UUID) (fault : Fault) :
    Except CredentialStoreError Bool :=
  if fault ≠ .none then .error operationFailed
  else .ok (table.findActive credentialId).isSome

/-- `revoke`. -/
def revoke (zone : NaiveDateTime → Except Exn ℤ) (table : CredentialTable) (credentialId : UUID)
    (now : DateTime) (fault : Fault) :
    CredentialTable × Except CredentialStoreError (Option PairedCredential) :=
  match asUtc now with
  | .error e => (table, .error e)
  | .ok revokedAt =>
    if fault = .opening then (table, .error operationFailed)
    else match table.findActive credentialId with
      | none => if fault = .committing then (table, .error operationFailed) else (table, .ok none)
      | some row =>
        if fault ≠ .none then (table, .error operationFailed)
        else
          (table.setRevokedAt credentialId (serializeDatetime revokedAt),
            ((rowToCredential zone row).mapError .exn).map fun credential =>
              some { credential with revokedAt := some revokedAt })

/-- `rotate`. -/
def rotate (zone : NaiveDateTime → Except Exn ℤ) (table : CredentialTable) (credentialId : UUID)
    (currentAccessToken newAccessToken : Str) (now : DateTime) (fault : Fault) :
    CredentialTable × Except CredentialStoreError (Option RotatedCredential) :=
  if presentable currentAccessToken = false then (table, .ok none)
  else match asUtc now with
    | .error e => (table, .error e)
    | .ok rotatedAt =>
      let currentDigest := tokenDigest currentAccessToken
      if fault = .opening then (table, .error operationFailed)
      else match (table.findActive credentialId).filter (·.tokenDigest = currentDigest) with
        | none => if fault = .committing then (table, .error operationFailed) else (table, .ok none)
        | some row =>
          let newDigest := tokenDigest newAccessToken
          if newAccessToken.length < minGeneratedTokenLength then
            (table, .error (.base "generated credential token is too short"))
          else if currentDigest = newDigest then
            (table, .error (.base "generated credential token did not rotate"))
          else match table.setTokenDigest credentialId currentDigest newDigest with
            | none => (table, .error operationFailed)
            | some table' =>
              if fault ≠ .none then (table, .error operationFailed)
              else
                (table', ((rowToCredential zone row).mapError .exn).map fun credential =>
                  some ⟨credential, newAccessToken, rotatedAt⟩)

end GoffyHub.Credentials
