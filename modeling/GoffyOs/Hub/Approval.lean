import GoffyOs.Lib.Dict
import GoffyOs.Python.Json
import GoffyOs.Python.Uuid

/-!
# Approval artifacts (`goffy_hub/approval.py`)

A CONFIRM tool runs only with an approval that the Hub has issued for one invocation and that the
paired device has signed. This module embeds `ApprovalArtifactStore` with its validation, the
canonical hash of arguments, the signing payload and the verification of a response's proof.

* The `cryptography` package is the parameter `crypto`: which bytes load as a P-256 key or another
  elliptic-curve key, and which signatures verify. Nothing is assumed of it.
* Operations take the clock reading and the generated id as arguments and return the store after them
  together with their outcome.

`consume_ok` says what a successful `consume` proves, and `consume_error` what it leaves behind when
it raises.
-/

namespace GoffyHub.Approval

open Python

def hubApprovalTtlMillis : ℕ := 60000
def maxPendingApprovals : ℕ := 1024
def minApprovalPublicKeyDerBytes : ℕ := 64
def maxApprovalPublicKeyDerBytes : ℕ := 256
def maxApprovalSignatureBytes : ℕ := 256

/-- What `load_der_public_key` makes of some bytes. -/
inductive LoadedKey
  | undecodable
  | p256
  | otherCurve
  | notElliptic
  deriving DecidableEq

/-- The parts of the `cryptography` package that approvals use. -/
structure Crypto where
  load : Bytes → LoadedKey
  /-- `public_key.verify(signature, payload, ec.ECDSA(hashes.SHA256()))` for the key's bytes. -/
  verify : Bytes → Bytes → Bytes → Bool

/-- `ApprovalValidationError`. -/
structure ApprovalValidationError where
  code : String
  message : String
  deriving DecidableEq, Repr

/-- `ToolInvocationPayload`. -/
structure ToolInvocationPayload where
  toolName : Str
  arguments : List (Str × Json)
  taskId : Option UUID := none

/-- `ApprovalProofPayload`. -/
structure ApprovalProofPayload where
  schemaVersion : Str
  algorithm : Str
  publicKeySha256 : Str
  signatureBase64 : Str

/-- `ApprovalResponsePayload`. -/
structure ApprovalResponsePayload where
  approvalId : UUID
  taskId : UUID
  approved : Bool
  proof : Option ApprovalProofPayload := none

/-- `IssuedApprovalRecord`. -/
structure IssuedApprovalRecord where
  approvalId : UUID
  principalKey : Str
  taskId : UUID
  toolName : Str
  argumentsSha256 : Str
  issuedAtEpochMillis : ℤ
  expiresAtEpochMillis : ℤ
  deriving DecidableEq

/-- `_pending_approvals`. -/
abbrev PendingApprovals := Dict UUID IssuedApprovalRecord

/-- `canonical_arguments_sha256`. -/
def canonicalArgumentsSha256 (arguments : List (Str × Json)) : Str :=
  hex (sha256 (utf8 (Json.object arguments).dumps)).val

/-- `approval_signing_payload`. -/
def approvalSigningPayload (record : IssuedApprovalRecord) (credentialId : UUID) (approved : Bool) :
    Bytes :=
  utf8 (Json.object [
    ("schemaVersion".toList, .str "goffy.approval.signed-payload.v1".toList),
    ("approvalId".toList, .str (uuidStr record.approvalId)),
    ("taskId".toList, .str (uuidStr record.taskId)),
    ("credentialId".toList, .str (uuidStr credentialId)),
    ("toolName".toList, .str record.toolName),
    ("argumentsSha256".toList, .str record.argumentsSha256),
    ("issuedAtEpochMillis".toList, .int record.issuedAtEpochMillis),
    ("expiresAtEpochMillis".toList, .int record.expiresAtEpochMillis),
    ("approved".toList, .bool approved)]).dumps

/-! ### Keys and proofs -/

/-- `validate_approval_public_key_spki_der`. -/
def validateApprovalPublicKeySpkiDer (crypto : Crypto) (key : Bytes) :
    Except ApprovalValidationError Unit :=
  if ¬ (minApprovalPublicKeyDerBytes ≤ key.length ∧ key.length ≤ maxApprovalPublicKeyDerBytes) then
    .error ⟨"approval_public_key_invalid", "Approval public key is outside the supported size range."⟩
  else match crypto.load key with
    | .undecodable =>
      .error ⟨"approval_public_key_invalid", "Approval public key could not be decoded."⟩
    | .p256 => .ok ()
    | .otherCurve | .notElliptic =>
      .error ⟨"approval_public_key_invalid", "Approval public key must be an ECDSA P-256 key."⟩

/-- `approval_public_key_sha256`. -/
def approvalPublicKeySha256 (crypto : Crypto) (key : Bytes) : Except ApprovalValidationError Str := do
  validateApprovalPublicKeySpkiDer crypto key
  return hex (sha256 key).val

def proofInvalid (message : String) : ApprovalValidationError := ⟨"approval_proof_invalid", message⟩

/-- `verify_approval_response_proof`. The key was loaded successfully while its hash was computed. -/
def verifyApprovalResponseProof (crypto : Crypto) (record : IssuedApprovalRecord)
    (response : ApprovalResponsePayload) (credentialId : Option UUID) (publicKey : Option Bytes) :
    Except ApprovalValidationError Unit :=
  match credentialId, publicKey with
  | some credentialId, some publicKey =>
    match response.proof with
    | none =>
      .error ⟨"approval_proof_required",
        "A device-bound Android approval proof is required for this action."⟩
    | some proof =>
      if proof.schemaVersion ≠ "goffy.approval.proof.v1".toList ∨
          proof.algorithm ≠ "ECDSA_P256_SHA256".toList then
        .error (proofInvalid "Approval proof metadata is invalid.")
      else do
        let expectedKeyHash ← approvalPublicKeySha256 crypto publicKey
        if proof.publicKeySha256 ≠ expectedKeyHash then
          .error (proofInvalid "Approval proof key does not match this paired credential.")
        else match b64decode proof.signatureBase64 with
          | none => .error (proofInvalid "Approval proof signature is invalid.")
          | some signature =>
            if ¬ (1 ≤ signature.length ∧ signature.length ≤ maxApprovalSignatureBytes) then
              .error (proofInvalid "Approval proof signature is outside the supported size range.")
            else if crypto.load publicKey = .notElliptic then
              .error ⟨"approval_public_key_invalid", "Approval public key must be an ECDSA key."⟩
            else if crypto.verify publicKey signature
                (approvalSigningPayload record credentialId response.approved) = false then
              .error (proofInvalid "Approval proof signature did not verify.")
            else .ok ()
  | _, _ =>
    .error ⟨"approval_proof_required",
      "A paired Android approval public key is required for this action."⟩

/-! ### The store -/

/-- `_prune_expired`. -/
def pruneExpired (pending : PendingApprovals) (now : ℤ) : PendingApprovals :=
  pending.filter fun _ record => now < record.expiresAtEpochMillis

/-- `issue`. The clock is read once for pruning and once for the record. -/
def issue (pending : PendingApprovals) (principalKey : Str) (invocation : ToolInvocationPayload)
    (approvalId : UUID) (pruneAt issuedAt : ℤ) :
    PendingApprovals × Except ApprovalValidationError IssuedApprovalRecord :=
  match invocation.taskId with
  | none =>
    (pending, .error ⟨"approval_required", "A Hub-issued approval request requires a task ID."⟩)
  | some taskId =>
    let pending := pruneExpired pending pruneAt
    if maxPendingApprovals ≤ pending.size then
      (pending, .error ⟨"approval_capacity_exceeded", "Too many approval requests are pending."⟩)
    else
      let record : IssuedApprovalRecord := {
        approvalId, principalKey, taskId
        toolName := invocation.toolName
        argumentsSha256 := canonicalArgumentsSha256 invocation.arguments
        issuedAtEpochMillis := issuedAt
        expiresAtEpochMillis := issuedAt + hubApprovalTtlMillis }
      (pending.set approvalId record, .ok record)

/-- An approval is issued for the tool of the invocation. -/
theorem issue_toolName {pending pending' : PendingApprovals} {principalKey : Str}
    {invocation : ToolInvocationPayload} {approvalId : UUID} {pruneAt issuedAt : ℤ}
    {record : IssuedApprovalRecord}
    (h : issue pending principalKey invocation approvalId pruneAt issuedAt = (pending', .ok record)) :
    record.toolName = invocation.toolName := by
  unfold issue at h
  split at h
  · cases h
  simp only at h
  split at h
  · cases h
  · cases h
    rfl

/-- The store does not grow over its capacity. -/
theorem issue_size {pending : PendingApprovals} (principalKey : Str)
    (invocation : ToolInvocationPayload) (approvalId : UUID) (pruneAt issuedAt : ℤ)
    (hsize : pending.size ≤ maxPendingApprovals) :
    (issue pending principalKey invocation approvalId pruneAt issuedAt).1.size ≤
      maxPendingApprovals := by
  unfold issue
  split
  · exact hsize
  · simp only
    split
    · exact Dict.size_filter_le.trans hsize
    · rename_i hroom
      exact Dict.size_set_le.trans (Nat.lt_of_not_le hroom)

def approvalInvalid (message : String) : ApprovalValidationError := ⟨"approval_invalid", message⟩

/-- `_validate`. -/
def validate (record : IssuedApprovalRecord) (principalKey : Str) (response : ApprovalResponsePayload)
    (invocation : ToolInvocationPayload) (now : ℤ) : Except ApprovalValidationError Unit :=
  if record.principalKey ≠ principalKey then
    .error (approvalInvalid "Approval request does not match this principal.")
  else if record.taskId ≠ response.taskId ∨ some record.taskId ≠ invocation.taskId then
    .error (approvalInvalid "Approval request does not match this task.")
  else if record.toolName ≠ invocation.toolName then
    .error (approvalInvalid "Approval request does not match this tool.")
  else if record.argumentsSha256 ≠ canonicalArgumentsSha256 invocation.arguments then
    .error (approvalInvalid "Approval request does not match these arguments.")
  else if record.expiresAtEpochMillis ≤ now then
    .error ⟨"approval_expired", "Approval request has expired."⟩
  else .ok ()

/-- `consume`. -/
def consume (crypto : Crypto) (pending : PendingApprovals) (principalKey : Str)
    (response : ApprovalResponsePayload) (invocation : ToolInvocationPayload)
    (credentialId : Option UUID) (publicKey : Option Bytes) (now : ℤ) :
    PendingApprovals × Except ApprovalValidationError IssuedApprovalRecord :=
  match pending.get? response.approvalId with
  | none => (pending, .error (approvalInvalid "Approval request is unknown or already consumed."))
  | some record =>
    if response.approved = false then
      (pending.pop response.approvalId,
        .error ⟨"approval_denied", "Approval was denied; no tool was invoked."⟩)
    else match validate record principalKey response invocation now with
      | .error e => (pending, .error e)
      | .ok () =>
        match verifyApprovalResponseProof crypto record response credentialId publicKey with
        | .error e => (pending, .error e)
        | .ok () => (pending.pop response.approvalId, .ok record)

/-- `discard`. -/
def discard (pending : PendingApprovals) (approvalId : UUID) : PendingApprovals :=
  pending.pop approvalId

/-! ### What a consumed approval proves -/

/-- An approval record fits a response and an invocation at a moment. -/
structure Fits (record : IssuedApprovalRecord) (principalKey : Str)
    (response : ApprovalResponsePayload) (invocation : ToolInvocationPayload) (now : ℤ) : Prop where
  principalKey : record.principalKey = principalKey
  responseTask : record.taskId = response.taskId
  taskId : some record.taskId = invocation.taskId
  toolName : record.toolName = invocation.toolName
  arguments : record.argumentsSha256 = canonicalArgumentsSha256 invocation.arguments
  unexpired : now < record.expiresAtEpochMillis

theorem validate_ok_iff {record : IssuedApprovalRecord} {principalKey : Str}
    {response : ApprovalResponsePayload} {invocation : ToolInvocationPayload} {now : ℤ} :
    validate record principalKey response invocation now = .ok () ↔
      Fits record principalKey response invocation now := by
  unfold validate
  constructor
  · intro h
    repeat (split at h; · cases h)
    rename_i h₁ h₂ h₃ h₄ h₅
    push Not at h₁ h₂ h₃ h₄ h₅
    exact ⟨h₁, h₂.1, h₂.2, h₃, h₄, h₅⟩
  · rintro ⟨h₁, h₂, h₃, h₄, h₅, h₆⟩
    rw [if_neg (by simpa using h₁), if_neg (by tauto), if_neg (by simpa using h₄),
      if_neg (by simpa using h₅), if_neg (by omega)]

/-- The response carries a signature of the approval by the device's key. -/
def SignatureVerifies (crypto : Crypto) (record : IssuedApprovalRecord)
    (response : ApprovalResponsePayload) (credentialId : UUID) (publicKey : Bytes) : Prop :=
  ∃ proof signature, response.proof = some proof ∧
    proof.publicKeySha256 = hex (sha256 publicKey).val ∧
    b64decode proof.signatureBase64 = some signature ∧
    crypto.verify publicKey signature
      (approvalSigningPayload record credentialId response.approved) = true

theorem signatureVerifies_of_proof {crypto : Crypto} {record : IssuedApprovalRecord}
    {response : ApprovalResponsePayload} {credentialId : Option UUID} {publicKey : Option Bytes}
    (h : verifyApprovalResponseProof crypto record response credentialId publicKey = .ok ()) :
    ∃ c key, credentialId = some c ∧ publicKey = some key ∧
      SignatureVerifies crypto record response c key := by
  unfold verifyApprovalResponseProof at h
  split at h
  · rename_i c key
    split at h
    · cases h
    rename_i proof hproof
    split at h
    · cases h
    cases hhash : approvalPublicKeySha256 crypto key with
    | error e =>
      rw [hhash] at h
      cases h
    | ok expected =>
      have hexpected : expected = hex (sha256 key).val := by
        unfold approvalPublicKeySha256 at hhash
        cases hvalid : validateApprovalPublicKeySpkiDer crypto key with
        | error e =>
          rw [hvalid] at hhash
          cases hhash
        | ok u =>
          rw [hvalid] at hhash
          cases hhash
          rfl
      rw [hhash] at h
      simp only [bind, Except.bind] at h
      split at h
      · cases h
      rename_i hkey
      split at h
      · cases h
      rename_i signature hsignature
      repeat (split at h; · cases h)
      rename_i hverify
      exact ⟨c, key, rfl, rfl, proof, signature, hproof, (not_not.1 hkey).trans hexpected,
        hsignature, by simpa using hverify⟩
  · cases h

/-- **What a successful `consume` proves.** The approval was pending and is not any more, it fits the
invocation, and the device has signed it as approved. -/
theorem consume_ok {crypto : Crypto} {pending pending' : PendingApprovals} {principalKey : Str}
    {response : ApprovalResponsePayload} {invocation : ToolInvocationPayload}
    {credentialId : Option UUID} {publicKey : Option Bytes} {now : ℤ} {record : IssuedApprovalRecord}
    (h : consume crypto pending principalKey response invocation credentialId publicKey now =
      (pending', .ok record)) :
    pending.get? response.approvalId = some record ∧
      pending' = pending.pop response.approvalId ∧ response.approved = true ∧
      Fits record principalKey response invocation now ∧
      ∃ c key, credentialId = some c ∧ publicKey = some key ∧
        SignatureVerifies crypto record response c key := by
  unfold consume at h
  split at h
  · cases h
  rename_i record' hget
  split at h
  · cases h
  rename_i happroved
  split at h
  · cases h
  rename_i hvalid
  split at h
  · cases h
  rename_i hproof
  cases h
  exact ⟨hget, rfl, by simpa using happroved, validate_ok_iff.1 hvalid,
    signatureVerifies_of_proof hproof⟩

/-- A `consume` that raises removes the approval when it was denied, and otherwise nothing. -/
theorem consume_error {crypto : Crypto} {pending pending' : PendingApprovals} {principalKey : Str}
    {response : ApprovalResponsePayload} {invocation : ToolInvocationPayload}
    {credentialId : Option UUID} {publicKey : Option Bytes} {now : ℤ} {e : ApprovalValidationError}
    (h : consume crypto pending principalKey response invocation credentialId publicKey now =
      (pending', .error e)) :
    pending' = pending ∨ pending' = pending.pop response.approvalId := by
  unfold consume at h
  split at h
  · cases h
    exact Or.inl rfl
  split at h
  · cases h
    exact Or.inr rfl
  split at h
  · cases h
    exact Or.inl rfl
  split at h
  · cases h
    exact Or.inl rfl
  · cases h

theorem validate_code_ne {record : IssuedApprovalRecord} {principalKey : Str}
    {response : ApprovalResponsePayload} {invocation : ToolInvocationPayload} {now : ℤ}
    {e : ApprovalValidationError}
    (h : validate record principalKey response invocation now = .error e) :
    e.code ≠ "approval_denied" := by
  unfold validate at h
  repeat' split at h
  all_goals
    cases h
    try simp [approvalInvalid]

theorem validateApprovalPublicKeySpkiDer_code_ne {crypto : Crypto} {key : Bytes}
    {e : ApprovalValidationError} (h : validateApprovalPublicKeySpkiDer crypto key = .error e) :
    e.code ≠ "approval_denied" := by
  unfold validateApprovalPublicKeySpkiDer at h
  repeat' split at h
  all_goals
    cases h
    try simp

theorem verifyApprovalResponseProof_code_ne {crypto : Crypto} {record : IssuedApprovalRecord}
    {response : ApprovalResponsePayload} {credentialId : Option UUID} {publicKey : Option Bytes}
    {e : ApprovalValidationError}
    (h : verifyApprovalResponseProof crypto record response credentialId publicKey = .error e) :
    e.code ≠ "approval_denied" := by
  unfold verifyApprovalResponseProof at h
  split at h
  · rename_i c key
    split at h
    · cases h
      simp
    split at h
    · cases h
      simp [proofInvalid]
    unfold approvalPublicKeySha256 at h
    cases hvalid : validateApprovalPublicKeySpkiDer crypto key with
    | error e' =>
      rw [hvalid] at h
      cases h
      exact validateApprovalPublicKeySpkiDer_code_ne hvalid
    | ok u =>
      rw [hvalid] at h
      simp only [bind, Except.bind, pure, Except.pure] at h
      repeat' split at h
      all_goals
        cases h
        try simp [proofInvalid]
  · cases h
    simp

/-- After a denial the approval is not pending any more. -/
theorem consume_denied {crypto : Crypto} {pending pending' : PendingApprovals} {principalKey : Str}
    {response : ApprovalResponsePayload} {invocation : ToolInvocationPayload}
    {credentialId : Option UUID} {publicKey : Option Bytes} {now : ℤ} {e : ApprovalValidationError}
    (h : consume crypto pending principalKey response invocation credentialId publicKey now =
      (pending', .error e)) (hcode : e.code = "approval_denied") :
    pending'.get? response.approvalId = none := by
  unfold consume at h
  split at h
  · rename_i hnone
    cases h
    exact hnone
  split at h
  · cases h
    rw [Dict.get?_pop, if_pos rfl]
  split at h
  · rename_i hvalid
    cases h
    exact absurd hcode (validate_code_ne hvalid)
  split at h
  · rename_i hproof
    cases h
    exact absurd hcode (verifyApprovalResponseProof_code_ne hproof)
  · cases h

/-! ### Responses to other approvals -/

section Mismatch

variable {crypto : Crypto} {pending : PendingApprovals} {principalKey : Str}
  {response : ApprovalResponsePayload} {invocation : ToolInvocationPayload} {credentialId : Option UUID}
  {publicKey : Option Bytes} {now : ℤ} {record : IssuedApprovalRecord}

/-- The record is about another principal, task, tool or arguments than the call. -/
def Mismatched (record : IssuedApprovalRecord) (principalKey : Str) (response : ApprovalResponsePayload)
    (invocation : ToolInvocationPayload) : Prop :=
  record.principalKey ≠ principalKey ∨ record.taskId ≠ response.taskId ∨
    some record.taskId ≠ invocation.taskId ∨ record.toolName ≠ invocation.toolName ∨
    record.argumentsSha256 ≠ canonicalArgumentsSha256 invocation.arguments

theorem validate_of_mismatched (h : Mismatched record principalKey response invocation) :
    ∃ e, validate record principalKey response invocation now = .error e := by
  cases hvalid : validate record principalKey response invocation now with
  | error e => exact ⟨e, rfl⟩
  | ok u =>
    have hfits := validate_ok_iff.1 hvalid
    rcases h with h | h | h | h | h
    · exact absurd hfits.principalKey h
    · exact absurd hfits.responseTask h
    · exact absurd hfits.taskId h
    · exact absurd hfits.toolName h
    · exact absurd hfits.arguments h

/-- A denial is not validated: it removes the approval, whoever sends it. -/
theorem consume_of_denied (hget : pending.get? response.approvalId = some record)
    (hdenied : response.approved = false) :
    consume crypto pending principalKey response invocation credentialId publicKey now =
      (pending.pop response.approvalId,
        .error ⟨"approval_denied", "Approval was denied; no tool was invoked."⟩) := by
  unfold consume
  rw [hget]
  exact if_pos hdenied

/-- An approval that does not match is refused and stays pending. -/
theorem consume_of_mismatched (hget : pending.get? response.approvalId = some record)
    (happroved : response.approved = true)
    (hmismatch : Mismatched record principalKey response invocation) :
    ∃ e, consume crypto pending principalKey response invocation credentialId publicKey now =
      (pending, .error e) := by
  obtain ⟨e, he⟩ := @validate_of_mismatched _ _ _ now _ hmismatch
  have hnot : response.approved ≠ false := by
    rw [happroved]
    decide
  refine ⟨e, ?_⟩
  unfold consume
  rw [hget]
  dsimp only
  rw [if_neg hnot, he]

/-- **Mismatches.** A call that does not match the stored record raises and leaves the pending set as it
was exactly when it approves. -/
theorem consume_mismatched_iff (crypto : Crypto) (pending : PendingApprovals) (principalKey : Str)
    (response : ApprovalResponsePayload) (invocation : ToolInvocationPayload)
    (credentialId : Option UUID) (publicKey : Option Bytes) (now : ℤ) (record : IssuedApprovalRecord)
    (hget : pending.get? response.approvalId = some record)
    (hmismatch : Mismatched record principalKey response invocation) :
    (∃ e, consume crypto pending principalKey response invocation credentialId publicKey now =
      (pending, .error e)) ↔ response.approved = true := by
  constructor
  · rintro ⟨e, h⟩
    by_contra hnot
    have hdenied := Bool.eq_false_iff.2 hnot
    rw [consume_of_denied hget hdenied] at h
    have hpending : pending.pop response.approvalId = pending := congrArg Prod.fst h
    have hnone : (pending.pop response.approvalId).get? response.approvalId = none := by
      rw [Dict.get?_pop, if_pos rfl]
    rw [hpending, hget] at hnone
    cases hnone
  · exact fun happroved => consume_of_mismatched hget happroved hmismatch

end Mismatch

/-- No key loads and no signature verifies. -/
def noCrypto : Crypto where
  load _ := .undecodable
  verify _ _ _ := false

/-- An approval of the phone `a`. -/
def demoRecord : IssuedApprovalRecord where
  approvalId := 7
  principalKey := "token:phone-a".toList
  taskId := 1
  toolName := "mac.apps.open".toList
  argumentsSha256 := []
  issuedAtEpochMillis := 0
  expiresAtEpochMillis := 60000

def demoPending : PendingApprovals := Dict.empty.set 7 demoRecord

def demoInvocation : ToolInvocationPayload where
  toolName := "mac.apps.open".toList
  arguments := []
  taskId := some 1

/-- An answer of the phone `b` to it. -/
def demoResponse (approved : Bool) : ApprovalResponsePayload where
  approvalId := 7
  taskId := 1
  approved := approved

theorem demo_mismatched (approved : Bool) :
    Mismatched demoRecord "token:phone-b".toList (demoResponse approved) demoInvocation :=
  Or.inl (by decide)

/-- The phone `b` cannot approve what the phone `a` was asked. -/
theorem consume_by_other_phone : ∃ e, consume noCrypto demoPending "token:phone-b".toList
    (demoResponse true) demoInvocation none none 0 = (demoPending, .error e) :=
  (consume_mismatched_iff noCrypto demoPending "token:phone-b".toList (demoResponse true)
    demoInvocation none none 0 demoRecord rfl (demo_mismatched true)).2 rfl

/-- The phone `b` can deny it: the approval is not pending any more. -/
theorem denial_by_other_phone :
    demoPending.get? (demoResponse false).approvalId = some demoRecord ∧
      Mismatched demoRecord "token:phone-b".toList (demoResponse false) demoInvocation ∧
      ¬ ∃ e, consume noCrypto demoPending "token:phone-b".toList (demoResponse false) demoInvocation
        none none 0 = (demoPending, .error e) := by
  have hget : demoPending.get? (demoResponse false).approvalId = some demoRecord := rfl
  refine ⟨hget, demo_mismatched false, ?_⟩
  rintro ⟨e, h⟩
  rw [consume_of_denied hget rfl] at h
  have hpending : demoPending.pop 7 = demoPending := congrArg Prod.fst h
  have hsize : (demoPending.pop 7).size = 0 := rfl
  rw [hpending] at hsize
  cases hsize

end GoffyHub.Approval
