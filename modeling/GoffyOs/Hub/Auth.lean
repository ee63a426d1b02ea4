import GoffyOs.Hub.Approval
import GoffyOs.Hub.Credentials

/-!
# Principals (`goffy_hub/auth.py`)

A bearer token is the bootstrap token of the settings or the token of a paired credential. Both
endpoints of the Hub authenticate through `authenticateToken` and ask `isActive` again later.
-/

namespace GoffyHub.Auth

open Python
open Approval (Crypto validateApprovalPublicKeySpkiDer)
open Credentials (CredentialTable PairedCredential)

def bearerPrefix : Str := "Bearer ".toList
def maxBearerLength : ℕ := 512
def safeToolScope : Str := "goffy.tools.safe".toList
def pairingAdminScope : Str := "goffy.pairing.admin".toList

/-- `PrincipalKind`. -/
inductive PrincipalKind
  | bootstrap
  | paired
  deriving DecidableEq

/-- The value of a `PrincipalKind`. -/
def PrincipalKind.value : PrincipalKind → Str
  | .bootstrap => "bootstrap".toList
  | .paired => "paired".toList

/-- `AuthenticatedPrincipal`. -/
structure AuthenticatedPrincipal where
  kind : PrincipalKind
  clientId : Str
  subject : Str
  scopes : List Str
  credentialId : Option UUID := none
  approvalPublicKeySpkiDer : Option Bytes := none
  deriving DecidableEq

/-- `has_scope`. -/
def AuthenticatedPrincipal.hasScope (principal : AuthenticatedPrincipal) (scope : Str) : Bool :=
  scope ∈ principal.scopes

/-- `paired_client_id`. -/
def pairedClientId (credentialId : UUID) : Str := "goffy-paired:".toList ++ uuidStr credentialId

/-- `_paired_principal`: a key that does not validate is dropped. -/
def pairedPrincipal (crypto : Crypto) (credential : PairedCredential) : AuthenticatedPrincipal where
  kind := .paired
  clientId := pairedClientId credential.credentialId
  subject := pairedClientId credential.credentialId
  scopes := [safeToolScope]
  credentialId := some credential.credentialId
  approvalPublicKeySpkiDer := credential.approvalPublicKeySpkiDer.filter fun key =>
    (validateApprovalPublicKeySpkiDer crypto key).toOption.isSome

/-- The principal of the bootstrap token. -/
def bootstrapPrincipal (pairingEnabled : Bool) : AuthenticatedPrincipal where
  kind := .bootstrap
  clientId := "goffy-bootstrap".toList
  subject := "bootstrap-operator".toList
  scopes := if pairingEnabled then [pairingAdminScope] else [safeToolScope]

/-- `authenticate_token`. Without a credential store pairing is disabled. -/
def authenticateToken (crypto : Crypto) (zone : NaiveDateTime → Except Exn ℤ)
    (authToken : Option Str) (store : Option CredentialTable) (token : Str) (fault : Fault) :
    Option AuthenticatedPrincipal :=
  if token = [] ∨ maxBearerLength < token.length then none
  else if authToken = some token then some (bootstrapPrincipal store.isSome)
  else match store with
    | none => none
    | some table =>
      match Credentials.authenticate zone table token fault with
      | .ok (some credential) => some (pairedPrincipal crypto credential)
      | _ => none

/-- `authenticate_header`. -/
def authenticateHeader (crypto : Crypto) (zone : NaiveDateTime → Except Exn ℤ)
    (authToken : Option Str) (store : Option CredentialTable) (authorization : Option Str)
    (fault : Fault) : Option AuthenticatedPrincipal :=
  match authorization with
  | none => none
  | some header =>
    if bearerPrefix.isPrefixOf header then
      authenticateToken crypto zone authToken store (header.drop bearerPrefix.length) fault
    else none

/-- `is_active`. -/
def isActive (authToken : Option Str) (store : Option CredentialTable)
    (principal : AuthenticatedPrincipal) (fault : Fault) : Bool :=
  match principal.kind, store, principal.credentialId with
  | .bootstrap, _, _ => authToken.isSome
  | .paired, some table, some credentialId =>
    match Credentials.isActive table credentialId fault with
    | .ok active => active
    | .error _ => false
  | .paired, _, _ => false

theorem pairedClientId_injective : Function.Injective pairedClientId := by
  intro c c' h
  unfold pairedClientId at h
  exact uuidStr_injective (List.append_cancel_left h)

theorem bootstrap_ne_pairedClientId (pairingEnabled : Bool) (c : UUID) :
    (bootstrapPrincipal pairingEnabled).clientId ≠ pairedClientId c := by
  unfold bootstrapPrincipal pairedClientId
  dsimp only
  intro h
  -- the texts differ after their common start
  have hchar : "goffy-bootstrap".toList[6]? = ("goffy-paired:".toList ++ uuidStr c)[6]? := by rw [h]
  rw [List.getElem?_append_left (by decide)] at hchar
  revert hchar
  decide

/-- The principal of a token is the bootstrap principal or that of the credential it belongs to. -/
theorem authenticateToken_cases {crypto : Crypto} {zone : NaiveDateTime → Except Exn ℤ}
    {authToken : Option Str} {table : CredentialTable} {token : Str} {fault : Fault}
    {principal : AuthenticatedPrincipal}
    (h : authenticateToken crypto zone authToken (some table) token fault = some principal) :
    (authToken = some token ∧ principal = bootstrapPrincipal true) ∨
      ∃ credential, Credentials.authenticate zone table token fault = .ok (some credential) ∧
        principal = pairedPrincipal crypto credential := by
  unfold authenticateToken at h
  split at h
  · cases h
  split at h
  · rename_i hboot
    cases h
    exact Or.inl ⟨hboot, rfl⟩
  · simp only at h
    split at h
    · rename_i credential hauth
      cases h
      exact Or.inr ⟨credential, hauth, rfl⟩
    · cases h

/-- A principal that may use tools while pairing is enabled is a paired one. -/
theorem paired_of_hasScope {crypto : Crypto} {zone : NaiveDateTime → Except Exn ℤ}
    {authToken : Option Str} {table : CredentialTable} {token : Str} {fault : Fault}
    {principal : AuthenticatedPrincipal}
    (h : authenticateToken crypto zone authToken (some table) token fault = some principal)
    (hscope : principal.hasScope safeToolScope = true) :
    ∃ credential, Credentials.authenticate zone table token fault = .ok (some credential) ∧
      principal = pairedPrincipal crypto credential := by
  rcases authenticateToken_cases h with ⟨-, rfl⟩ | hpaired
  · exact absurd hscope (by decide)
  · exact hpaired

end GoffyHub.Auth
