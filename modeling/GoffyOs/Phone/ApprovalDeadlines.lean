import GoffyOs.Hub.Approval
import GoffyOs.Phone.HubGateway
import GoffyOs.Phone.ViewModel
import Mathlib.Tactic.IntervalCases

/-!
# The two deadlines of an approved Mac action

A plan that needs a confirmation expires 60 seconds after the phone has shown it. The Hub issues an
approval request of its own for the invocation, which expires 60 seconds after it was issued, and the
gateway of the phone refuses a request that expires after the phone's deadline.

* `approved_request` follows the deadline from the prompt through the approval to the invocation;
* `Carries` says that the Hub has read the invocation as the phone has written it;
* `approval_answered_iff` compares the two deadlines: the request is answered only when the Hub issued
  it at the very time of the prompt.
-/

namespace GoffyPhone

open Kotlin
open Python (UUID)
open GoffyHub.Approval

variable {γ : Type}

/-! ### Hashes -/

theorem units_digitChar {d : ℕ} (hd : d < 16) :
    ∃ c, units (Positional.digitChar d) = [c] ∧
      ((0x61 ≤ c && c ≤ 0x66) || (0x30 ≤ c && c ≤ 0x39)) = true := by
  interval_cases d <;> exact ⟨_, rfl, by decide⟩

/-- A text of hexadecimal digits has one code unit for each of them. -/
theorem ofChars_digits {ds : List ℕ} (hds : ∀ d ∈ ds, d < 16) :
    (ofChars (ds.map Positional.digitChar)).length = ds.length ∧
      ∀ c ∈ ofChars (ds.map Positional.digitChar),
        ((0x61 ≤ c && c ≤ 0x66) || (0x30 ≤ c && c ≤ 0x39)) = true := by
  induction ds with
  | nil => exact ⟨rfl, fun c hc => (List.not_mem_nil hc).elim⟩
  | cons d ds ih =>
    obtain ⟨hlength, hall⟩ := ih fun d' hd' => hds d' (List.mem_cons_of_mem d hd')
    obtain ⟨c, hc, hhex⟩ := units_digitChar (hds d List.mem_cons_self)
    have hcons : ofChars ((d :: ds).map Positional.digitChar) =
        c :: ofChars (ds.map Positional.digitChar) := by
      simp [ofChars, hc]
    rw [hcons]
    refine ⟨by rw [List.length_cons, hlength, List.length_cons], fun c' hc' => ?_⟩
    rcases List.mem_cons.1 hc' with rfl | hc'
    · exact hhex
    · exact hall c' hc'

/-- The digits of the bytes of a digest. -/
theorem hex_eq_digits (b : Python.Bytes) : ∃ ds : List ℕ, Python.hex b =
    ds.map Positional.digitChar ∧ ds.length = 2 * b.length ∧ ∀ d ∈ ds, d < 16 := by
  induction b with
  | nil => exact ⟨[], rfl, rfl, fun d hd => (List.not_mem_nil hd).elim⟩
  | cons x b ih =>
    obtain ⟨ds, hds, hlength, hlt⟩ := ih
    refine ⟨Positional.digits 16 2 x.toNat ++ ds, ?_, ?_, ?_⟩
    · rw [List.map_append, ← hds]
      rfl
    · rw [List.length_append, hlength, List.length_cons]
      simp [Positional.digits]
      omega
    · intro d hd
      rcases List.mem_append.1 hd with hd | hd
      · exact Positional.digits_lt (by decide) 2 x.toNat d hd
      · exact hlt d hd

/-- The Hub's hash of the arguments has the form that the phone asks for. -/
theorem matchesSha256Hex_canonicalArgumentsSha256 (arguments : List (Python.Str × Python.Json)) :
    matchesSha256Hex (ofChars (canonicalArgumentsSha256 arguments)) = true := by
  unfold canonicalArgumentsSha256
  generalize Python.sha256 _ = digest
  obtain ⟨ds, hds, hlength, hlt⟩ := hex_eq_digits digest.val
  obtain ⟨hunits, hall⟩ := ofChars_digits hlt
  rw [hds]
  unfold matchesSha256Hex
  rw [hunits, hlength, digest.property, List.all_eq_true.2 hall]
  rfl

/-! ### From the prompt to the request -/

/-- A prompt that is shown waits with the deadline of the prompt. -/
theorem requestApproval_pending {vm vm' : GoffyViewModel γ} {y : Submission}
    {plan : GoffyExecutionPlan} {hubConfig : Option HubConfig} {out : List Call}
    {description : Str} (hdescription : approvalDescription plan = some description)
    (h : vm.requestApproval y plan hubConfig = .ok (vm', out)) :
    vm'.pendingExecution = some ⟨y.taskId, plan, y.now + approvalTtlMillis, hubConfig⟩ := by
  unfold GoffyViewModel.requestApproval at h
  rw [hdescription] at h
  obtain ⟨ui, -, h⟩ := except_bind_eq_ok.1 h
  obtain ⟨rfl, -⟩ := Prod.mk.inj (Except.ok.inj h)
  rfl

/-- What an approval sends to the Hub. -/
theorem approved_request [ToolResultContent γ] {codec : ArgumentsCodec} {vm : GoffyViewModel γ}
    {pending : PendingExecution} {taskId : UUID} {x : GoffyViewModel.ApprovalInput}
    {config : HubConfig} {request : ToolInvocationRequest}
    (hpending : vm.pendingExecution = some pending)
    (h : Call.hub taskId config request ∈ (vm.approvePendingTask codec taskId x).2) :
    request.expiresAtEpochMillis = some pending.expiresAtEpochMillis ∧
      0 < pending.expiresAtEpochMillis ∧
      (∃ credentialId, request.approvedCredentialId = some credentialId) ∧
      requireBounded "deviceId" request.deviceId 1 128 = .ok () ∧
      requireToolName request.toolName = .ok () := by
  unfold GoffyViewModel.approvePendingTask at h
  rw [hpending] at h
  dsimp only at h
  split at h
  · cases h
  split at h
  · cases h
  unfold GoffyViewModel.startApproved at h
  split at h
  · cases List.mem_singleton.1 h
  · split at h
    · cases h
    split at h
    · cases h
    dsimp only at h
    split at h
    · cases h
    · rename_i hrequest
      cases List.mem_singleton.1 h
      obtain ⟨sha256, -, hdevice, htool, hdeadline, rfl⟩ := createToolInvocation_ok hrequest
      refine ⟨rfl, ?_, ⟨_, rfl⟩, hdevice, htool⟩
      by_contra hpast
      simp [requireDeadline, not_lt.1 hpast] at hdeadline
  · cases h

/-! ### The Hub's request -/

/-- The Hub has read the invocation as the phone has written it. -/
structure Carries (request : ToolInvocationRequest) (invocation : ToolInvocationPayload) : Prop where
  taskId : invocation.taskId = request.approvedTaskId
  toolName : ofChars invocation.toolName = request.toolName
  argumentsSha256 : request.approvedArgumentsSha256 =
    some (ofChars (canonicalArgumentsSha256 invocation.arguments))

/-- The payload of the Hub's `ApprovalRequest`. -/
def approvalRequestOf (record : IssuedApprovalRecord) : HubApprovalRequest where
  approvalId := record.approvalId
  taskId := record.taskId
  toolName := ofChars record.toolName
  argumentsSha256 := ofChars record.argumentsSha256
  issuedAtEpochMillis := record.issuedAtEpochMillis
  expiresAtEpochMillis := record.expiresAtEpochMillis

/-- A signer that signs everything, in the form that the codec asks for. -/
def Working (signer : ApprovalProofSigner) : Prop :=
  ∀ payload, ∃ proof, signer payload = some proof ∧ requireApprovalResponseProof proof = .ok ()

/-- The gateway sends a signed approval, and goes on. -/
def Answers (signer : ApprovalProofSigner) (request : ToolInvocationRequest)
    (record : IssuedApprovalRecord) (s : Attempt) (result : Attempt × List (Effect γ)) : Prop :=
  ∃ credentialId response, request.approvedCredentialId = some credentialId ∧
    signer ⟨approvalRequestOf record, credentialId, true⟩ = some response.proof ∧
    response.approvalId = record.approvalId ∧ response.approved = true ∧
    result = (s, [.send (.approvalResponse response) true])

section Requests

variable {request : ToolInvocationRequest} {invocation : ToolInvocationPayload}
  {record : IssuedApprovalRecord} {signer : ApprovalProofSigner} {s : Attempt}

/-- The request of the Hub is about the invocation, and expires 60 seconds after it was issued. -/
theorem issue_record {store store' : PendingApprovals} {principalKey : Python.Str}
    {approvalId : UUID} {pruneAt t : ℤ}
    (h : issue store principalKey invocation approvalId pruneAt t = (store', .ok record)) :
    invocation.taskId = some record.taskId ∧ record.toolName = invocation.toolName ∧
      record.argumentsSha256 = canonicalArgumentsSha256 invocation.arguments ∧
      record.issuedAtEpochMillis = t ∧ record.expiresAtEpochMillis = t + hubApprovalTtlMillis := by
  unfold issue at h
  split at h
  · cases h
  rename_i taskId htask
  dsimp only at h
  split at h
  · cases h
  · obtain ⟨-, h⟩ := Prod.mk.inj h
    obtain rfl := Except.ok.inj h
    exact ⟨htask, rfl, rfl, rfl, rfl⟩

/-- The phone reads the Hub's request as one for its invocation. -/
theorem decode_approvalRequest (hcarries : Carries request invocation)
    (htool : requireToolName request.toolName = .ok ())
    (htask : invocation.taskId = some record.taskId) (hname : record.toolName = invocation.toolName)
    (hsha : record.argumentsSha256 = canonicalArgumentsSha256 invocation.arguments)
    (hpositive : 0 < record.expiresAtEpochMillis)
    (horder : record.issuedAtEpochMillis < record.expiresAtEpochMillis) :
    decodeApprovalRequestOrNull (γ := γ)
      (.ok ⟨request.messageId, .approvalRequest (approvalRequestOf record)⟩) request =
      .ok (some (approvalRequestOf record)) := by
  have htaskId : request.approvedTaskId = some record.taskId := by rw [← hcarries.taskId, htask]
  have hhash : ofChars (canonicalArgumentsSha256 invocation.arguments) =
      (approvalRequestOf record).argumentsSha256 := congrArg ofChars hsha.symm
  have hchecks : requireApprovalRequest (approvalRequestOf record) request.toolName record.taskId
      (approvalRequestOf record).argumentsSha256 = .ok (approvalRequestOf record) := by
    refine requireApprovalRequest_ok htool ?_ ?_ hpositive horder
    · rw [← hcarries.toolName, ← hname]
      rfl
    · rw [← hhash]
      exact matchesSha256Hex_canonicalArgumentsSha256 _
  unfold decodeApprovalRequestOrNull decodeInboundEnvelope
  rw [htaskId, hcarries.argumentsSha256, hhash]
  simp only [htool, bind, Except.bind, if_pos, pure, Except.pure, hchecks]

/-- A request that expires after the phone's deadline ends the attempt. -/
theorem onApprovalRequest_late {approval : HubApprovalRequest} {deadline now later : ℤ}
    {sent closed : Bool} (hdeadline : request.expiresAtEpochMillis = some deadline)
    (hlater : later < deadline) (hnow : now < approval.expiresAtEpochMillis)
    (hlate : deadline < approval.expiresAtEpochMillis) :
    s.onApprovalRequest (γ := γ) request (some signer) approval now later sent closed =
      s.closeWithProtocolFailure closed := by
  unfold Attempt.onApprovalRequest ToolInvocationRequest.isExpired
  rw [hdeadline, if_neg, if_pos]
  · simpa using hlate
  · simp [hlater, hnow]

/-- A request that the phone's deadline covers is answered. -/
theorem onApprovalRequest_answers {deadline now later : ℤ} {closed : Bool}
    (hdeadline : request.expiresAtEpochMillis = some deadline) (hlater : later < deadline)
    (hnow : now < record.expiresAtEpochMillis) (hcovered : record.expiresAtEpochMillis ≤ deadline)
    (hskew : record.issuedAtEpochMillis ≤ now)
    (hcredential : ∃ credentialId, request.approvedCredentialId = some credentialId)
    (hdevice : requireBounded "deviceId" request.deviceId 1 128 = .ok ())
    (htool : requireToolName (ofChars record.toolName) = .ok ()) (hsigner : Working signer) :
    Answers signer request record s (s.onApprovalRequest (γ := γ) request (some signer)
      (approvalRequestOf record) now later true closed) := by
  obtain ⟨credentialId, hcredential⟩ := hcredential
  obtain ⟨proof, hproof, hform⟩ := hsigner ⟨approvalRequestOf record, credentialId, true⟩
  have hexpired : ¬ (request.isExpired later = true ∨
      (approvalRequestOf record).expiresAtEpochMillis ≤ now) := by
    rintro (h | h)
    · simp [ToolInvocationRequest.isExpired, hdeadline, hlater.not_ge] at h
    · exact absurd h hnow.not_ge
  have hlate : ¬ request.expiresAtEpochMillis.any
      (· < (approvalRequestOf record).expiresAtEpochMillis) = true := by
    have hle : (approvalRequestOf record).expiresAtEpochMillis ≤ deadline := hcovered
    simp [hdeadline, hle]
  have hfuture : ¬ now + approvalClockSkewMillis <
      (approvalRequestOf record).issuedAtEpochMillis := by
    have hissued : (approvalRequestOf record).issuedAtEpochMillis ≤ now := hskew
    simp only [approvalClockSkewMillis]
    omega
  have hsigned : Attempt.approvalProof signer (approvalRequestOf record) credentialId =
      some proof := by
    unfold Attempt.approvalProof
    rw [show (approvalRequestOf record).toolName = ofChars record.toolName from rfl, htool]
    exact hproof
  have hresponse : createApprovalResponse request.deviceId request.messageId
      (approvalRequestOf record) proof = .ok ⟨request.deviceId, request.messageId,
        record.approvalId, record.taskId, true, proof⟩ := by
    unfold createApprovalResponse
    rw [show (approvalRequestOf record).toolName = ofChars record.toolName from rfl, hdevice, htool,
      hform]
    rfl
  refine ⟨credentialId, ⟨request.deviceId, request.messageId, record.approvalId, record.taskId, true,
    proof⟩, hcredential, hproof, rfl, rfl, ?_⟩
  unfold Attempt.onApprovalRequest
  rw [if_neg hexpired, if_neg hlate, if_neg hfuture, hcredential]
  simp only [hsigned, hresponse, if_true]

/-- **When the Hub's request for an approved action is answered.** The prompt was shown at `p`, the
user approved at `a`, the Hub issued its request at `t`, and it reaches the gateway before both
deadlines: it is answered exactly when `t = p`. -/
theorem approval_answered_iff [ToolResultContent γ] {codec : ArgumentsCodec}
    {vm vm₁ vm₂ : GoffyViewModel γ} {y : Submission} {plan : GoffyExecutionPlan}
    {config : HubConfig} {description : Str} {out : List Call} {x : GoffyViewModel.ApprovalInput}
    {store store' : PendingApprovals} {principalKey : Python.Str} {approvalId : UUID}
    {p a t pruneAt now later : ℤ} {closed : Bool}
    (hdescription : approvalDescription plan = some description) (hp : y.now = p)
    (hprompt : vm.requestApproval y plan (some config) = .ok (vm₁, out))
    (hpending : vm₂.pendingExecution = vm₁.pendingExecution) (hpa : p ≤ a)
    (hx : x.now = a ∧ x.approvedAt = a)
    (hcall : .hub y.taskId config request ∈ (vm₂.approvePendingTask codec y.taskId x).2)
    (hcarries : Carries request invocation) (hat : a ≤ t)
    (hissue : issue store principalKey invocation approvalId pruneAt t = (store', .ok record))
    (hsigner : Working signer) (hsent : s.invocationSent = true) (htnow : t ≤ now)
    (hnowlater : now ≤ later) (hdeadline : later < p + 60000) :
    Answers signer request record s (s.onText (γ := γ) request (some signer)
      (.ok ⟨request.messageId, .approvalRequest (approvalRequestOf record)⟩) now later true closed) ↔
      t = p := by
  have hwaiting := requestApproval_pending hdescription hprompt
  obtain ⟨hexpires, hpositive, hcredential, hdevice, htool⟩ :=
    approved_request (hpending.trans hwaiting) hcall
  rw [hp, show approvalTtlMillis = 60000 from rfl] at hexpires hpositive
  obtain ⟨htask, hname, hsha, hissued, hrecord⟩ := issue_record hissue
  rw [show (hubApprovalTtlMillis : ℤ) = 60000 from rfl] at hrecord
  dsimp only at hexpires hpositive
  -- the Hub's request is one for this invocation, so that only its times count
  have hdecode := decode_approvalRequest (γ := γ) hcarries htool htask hname hsha
    (by omega) (by omega)
  have htext : s.onText (γ := γ) request (some signer)
      (.ok ⟨request.messageId, .approvalRequest (approvalRequestOf record)⟩) now later true closed =
      s.onApprovalRequest request (some signer) (approvalRequestOf record) now later true closed := by
    unfold Attempt.onText
    rw [hsent, hdecode]
    rfl
  have hnow : now < record.expiresAtEpochMillis := by omega
  rw [htext]
  constructor
  · intro hanswers
    by_contra hne
    obtain ⟨_, response, -, -, -, -, heq⟩ := hanswers
    have hlate : p + 60000 < (approvalRequestOf record).expiresAtEpochMillis := by
      rw [show (approvalRequestOf record).expiresAtEpochMillis = t + 60000 from hrecord]
      omega
    rw [onApprovalRequest_late hexpires hdeadline hnow hlate] at heq
    cases (Prod.mk.inj heq).2
  · rintro rfl
    refine onApprovalRequest_answers hexpires hdeadline hnow (by omega) (by omega) hcredential
      hdevice ?_ hsigner
    rw [hname, hcarries.toolName]
    exact htool

end Requests

section Example

/-- The invocation of `mac.apps.open` as the Hub reads it. -/
def safariInvocation : ToolInvocationPayload where
  toolName := "mac.apps.open".toList
  arguments := [("displayName".toList, .str "Safari".toList)]
  taskId := some 1

def safariPlan : GoffyExecutionPlan :=
  ⟨lit "open Safari", .mac, lit "mac.apps.open", .confirm, .macAppsOpen (lit "Safari")⟩

/-- The command, submitted at the time 1000. -/
def openSafari : Submission where
  command := lit "open Safari"
  decision := .routed safariPlan
  localModel := ⟨false, false, false, []⟩
  rejectId := 2
  taskId := 1
  messageId := 3
  discoveryMessageId := 4
  now := 1000
  awaitedAt := 1000

def macHub : HubConfig := ⟨lit "ws://127.0.0.1:8787/ws/v1", lit "token"⟩

/-- A paired phone. -/
def pairedPhone : GoffyViewModel ContentType where
  deviceId := lit "moto"
  hubConfig := some macHub
  pairedCredentialId := some 7

/-- The phone while the prompt is shown. -/
def promptedPhone : GoffyViewModel ContentType :=
  ((pairedPhone.requestApproval openSafari safariPlan (some macHub)).toOption.getD
    (pairedPhone, [])).1

/-- A codec that agrees with the Hub on the arguments of `safariInvocation`. -/
def safariCodec : ArgumentsCodec :=
  fun _ _ => .ok (ofChars (canonicalArgumentsSha256 safariInvocation.arguments))

def safariRequest : ToolInvocationRequest where
  messageId := 5
  toolName := lit "mac.apps.open"
  discoveryMessageId := 6
  expiresAtEpochMillis := some 61000
  deviceId := lit "moto"
  approvedTaskId := some 1
  approvedCredentialId := some 7
  approvedArgumentsSha256 := some (ofChars (canonicalArgumentsSha256 safariInvocation.arguments))

/-- The record of the Hub, issued at `t`. -/
def safariRecord (t : ℤ) : IssuedApprovalRecord where
  approvalId := 9
  principalKey := "phone".toList
  taskId := 1
  toolName := "mac.apps.open".toList
  argumentsSha256 := canonicalArgumentsSha256 safariInvocation.arguments
  issuedAtEpochMillis := t
  expiresAtEpochMillis := t + 60000

def sampleSigner : ApprovalProofSigner := fun _ =>
  some ⟨lit "ECDSA_P256_SHA256", List.replicate 64 0x61, List.replicate 64 0x41⟩

theorem working_sampleSigner : Working sampleSigner := fun _ => ⟨_, rfl, by decide⟩

theorem carries_safari : Carries safariRequest safariInvocation := ⟨rfl, rfl, rfl⟩

theorem safari_prompted :
    pairedPhone.requestApproval openSafari safariPlan (some macHub) = .ok (promptedPhone, []) := rfl

theorem safari_issued (t : ℤ) : issue Dict.empty "phone".toList safariInvocation 9 t t =
    ((pruneExpired Dict.empty t).set 9 (safariRecord t), .ok (safariRecord t)) := rfl

/-- Prompt, approval and request in the same millisecond: the request is answered. -/
theorem immediate_approval_answered : Answers sampleSigner safariRequest (safariRecord 1000)
    { invocationSent := true }
    (Attempt.onText (γ := ContentType) safariRequest (some sampleSigner) { invocationSent := true }
      (.ok ⟨5, .approvalRequest (approvalRequestOf (safariRecord 1000))⟩) 1000 1000 true true) := by
  have hcall : .hub openSafari.taskId macHub safariRequest ∈ (promptedPhone.approvePendingTask
      safariCodec openSafari.taskId ⟨1000, 1000, 1000, 5, 6⟩).2 := List.mem_singleton.2 rfl
  exact (approval_answered_iff rfl rfl safari_prompted rfl le_rfl ⟨rfl, rfl⟩ hcall carries_safari
    le_rfl (safari_issued 1000) working_sampleSigner rfl le_rfl le_rfl (by decide)).2 rfl

/-- Prompt, approval, request and its arrival one second after the other: the attempt ends with a
protocol failure. -/
theorem later_approval_refused :
    pairedPhone.requestApproval openSafari safariPlan (some macHub) = .ok (promptedPhone, []) ∧
    (promptedPhone.approvePendingTask safariCodec 1 ⟨2000, 2000, 2000, 5, 6⟩).2 =
      [.hub 1 macHub safariRequest] ∧
    (issue Dict.empty "phone".toList safariInvocation 9 3000 3000).2 = .ok (safariRecord 3000) ∧
    Carries safariRequest safariInvocation ∧ Working sampleSigner ∧
    Attempt.onText (γ := ContentType) safariRequest (some sampleSigner) { invocationSent := true }
      (.ok ⟨5, .approvalRequest (approvalRequestOf (safariRecord 3000))⟩) 4000 4000 true true =
      ({ invocationSent := true, closingOutcome := some (.finalFailure protocolError) },
        [.close 1002]) := by
  refine ⟨rfl, rfl, rfl, carries_safari, working_sampleSigner, ?_⟩
  have hdecode : decodeApprovalRequestOrNull (γ := ContentType)
      (.ok ⟨safariRequest.messageId, .approvalRequest (approvalRequestOf (safariRecord 3000))⟩)
      safariRequest = .ok (some (approvalRequestOf (safariRecord 3000))) :=
    decode_approvalRequest carries_safari rfl rfl rfl rfl (by decide) (by decide)
  have hlate : Attempt.onApprovalRequest (γ := ContentType) safariRequest (some sampleSigner)
      { invocationSent := true } (approvalRequestOf (safariRecord 3000)) 4000 4000 true true =
        Attempt.closeWithProtocolFailure { invocationSent := true } true :=
    onApprovalRequest_late rfl (by decide) (by decide) (by decide)
  unfold Attempt.onText
  rw [show (5 : UUID) = safariRequest.messageId from rfl, hdecode]
  exact hlate

end Example

end GoffyPhone
