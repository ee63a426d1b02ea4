import GoffyOs.Hub.CredentialRuns
import GoffyOs.Kotlin.Encoding
import GoffyOs.Phone.HubLinkStore

/-!
# The token of the phone and the token of the Hub

A paired phone keeps its bearer token in a credential store, and the Hub keeps a digest of it. A
rotation replaces both: the Hub first, when it handles the request, and the phone when it has saved the
answer. Here the coroutines of the link (`HubLink`) run against the credential table of a Hub.

* a request is on its way from the moment when its coroutine waits for the answer (`sends`), and it may
  be handled at any later time, also when nobody waits any more;
* `Answer` is what the Hub has answered to a job. A coroutine that gets an answer gets this one
  (`Answers`), and it may always be told of a failure instead;
* the Hub handles a request in one step: it looks up the credential of the bearer token, and rotates or
  revokes it (`POST /pairing/v1/rotate`, `DELETE /pairing/v1/self`). It issues credentials to this phone
  and to others at any time; what it demands for that is left to `PairingApi`;
* an `Instant` counts microseconds on the clock of the Hub.
-/

namespace GoffyPhone.HubLink

open Kotlin
open Python (UUID NaiveDateTime DateTime Exn Fault)
open GoffyHub.Credentials (CredentialTable IssueArgs authenticate)

/-- The token as the Hub reads it from the header. -/
def bearer (token : Str) : Python.Str := encodedChars token

inductive RequestKind
  | rotateSelf
  | revokeSelf
  deriving DecidableEq

/-- A request that a coroutine has sent. -/
structure Request where
  job : ℕ
  kind : RequestKind
  token : Str
  deriving DecidableEq

/-- A credential with a new token, as the Hub answers it. -/
structure Answer where
  credentialId : UUID
  accessToken : Python.Str
  instant : Instant

/-- The phone, the Hub with what it has done so far, and what is on its way between them. -/
structure LinkedHub where
  phone : GoffyViewModel
  table : CredentialTable
  changes : List GoffyHub.Credentials.Event
  requests : List Request := []
  answers : ℕ → Option Answer := fun _ => none

inductive LinkEvent
  | link (e : Event)
  | sent (request : Request)
  | hub (e : GoffyHub.Credentials.Event)

inductive LinkAction
  | phone (a : Action)
  | issues (job : Option ℕ) (args : IssueArgs) (accessToken : Python.Str) (credentialId : UUID)
      (now : DateTime) (fault : Fault)
  | rotates (i : ℕ) (accessToken : Python.Str) (now : DateTime) (fault : Fault)
  | revokes (i : ℕ) (now : DateTime) (fault : Fault)

namespace LinkedHub

/-! ### The phone -/

/-- The request that the coroutine of a job sends when it comes to the point where it waits. -/
def sends (vm : GoffyViewModel) : Action → List Request
  | .resume j _ =>
    match vm.jobs.get j with
    | some ⟨.rotateHubCredential _ _ r, .rotateSelf, _⟩ => [⟨j, .rotateSelf, r.config.bearerToken⟩]
    | some ⟨.forgetHub _ (some (config, _)), .revokeSelf _, _⟩ =>
      [⟨j, .revokeSelf, config.bearerToken⟩]
    | _ => []
  | _ => []

/-- What a coroutine is told comes from the Hub when it is a success. -/
def Answers (s : LinkedHub) (j : ℕ) : Outcome → Bool
  | .issued issued =>
    (s.answers j).any fun a => issued.credentialId = a.credentialId ∧
      issued.accessToken = ofChars a.accessToken ∧ issued.createdAt = a.instant
  | .rotated rotated =>
    (s.answers j).any fun a => rotated.accessToken = ofChars a.accessToken ∧
      rotated.rotatedAt = a.instant ∧ (s.phone.jobs.task j).bind LinkTask.expects = some a.credentialId
  | _ => true

def answered (s : LinkedHub) : Action → Bool
  | .resume j outcome => s.Answers j outcome
  | _ => true

/-! ### The Hub -/

/-- An operation of the credential store. -/
def perform (zone : NaiveDateTime → Except Exn ℤ) (s : LinkedHub) (a : GoffyHub.Credentials.Action)
    (answer : Option (ℕ × Answer)) : LinkedHub × List LinkEvent :=
  let done := GoffyHub.Credentials.perform zone s.table a
  ({ s with
      table := done.1
      changes := s.changes ++ done.2.events
      answers := answer.elim s.answers fun p => Function.update s.answers p.1 (some p.2) },
    done.2.events.map .hub)

/-- The credential that a bearer token authenticates. -/
def principal (zone : NaiveDateTime → Except Exn ℤ) (table : CredentialTable) (token : Str) :
    Option UUID :=
  match authenticate zone table (bearer token) .none with
  | .ok (some credential) => some credential.credentialId
  | _ => none

/-- The answer of `rotate_own_paired_credential`. -/
def rotationAnswer (zone : NaiveDateTime → Except Exn ℤ) (table : CredentialTable)
    (credentialId : UUID) (token accessToken : Python.Str) (now : DateTime) (fault : Fault) :
    Option Answer :=
  match (GoffyHub.Credentials.rotate zone table credentialId token accessToken now fault).2 with
  | .ok (some rotated) =>
    some ⟨rotated.credential.credentialId, rotated.accessToken, rotated.rotatedAt.micros⟩
  | _ => none

/-- The answer of a redemption. -/
def issueAnswer (table : CredentialTable) (args : IssueArgs) (accessToken : Python.Str)
    (credentialId : UUID) (now : DateTime) (fault : Fault) : Option Answer :=
  match (GoffyHub.Credentials.issue table args accessToken credentialId now fault).2 with
  | .ok issued =>
    some ⟨issued.credential.credentialId, issued.accessToken, issued.credential.createdAt.micros⟩
  | _ => none

/-! ### Runs -/

def step (zone : NaiveDateTime → Except Exn ℤ) (s : LinkedHub) :
    LinkAction → Option (LinkedHub × List LinkEvent)
  | .phone a => do
    guard (s.answered a = true)
    let (vm, out) ← HubLink.step s.phone a
    return ({ s with phone := vm, requests := s.requests ++ sends vm a },
      out.map .link ++ (sends vm a).map .sent)
  | .issues job args accessToken credentialId now fault => do
    -- it answers a coroutine that waits for it, or another phone
    guard (job.all fun j => (s.phone.jobs.get j).any fun x => x.point = .redeem)
    return s.perform zone (.issue args accessToken credentialId now fault)
      (job.bind fun j => (issueAnswer s.table args accessToken credentialId now fault).map (j, ·))
  | .rotates i accessToken now fault =>
    match s.requests[i]? with
    | some ⟨j, .rotateSelf, token⟩ =>
      (principal zone s.table token).map fun credentialId =>
        s.perform zone (.rotate credentialId (bearer token) accessToken now fault)
          ((rotationAnswer zone s.table credentialId (bearer token) accessToken now fault).map (j, ·))
    | _ => none
  | .revokes i now fault =>
    match s.requests[i]? with
    | some ⟨_, .revokeSelf, token⟩ =>
      (principal zone s.table token).map fun credentialId =>
        s.perform zone (.revoke credentialId now fault) none
    | _ => none

end LinkedHub

end GoffyPhone.HubLink
