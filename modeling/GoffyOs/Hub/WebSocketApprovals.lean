import GoffyOs.Hub.WebSocket

/-!
# CONFIRM tools run only with an approval

The handler of a CONFIRM tool is started by a connection that has consumed an approval for it. The
approval lives in two places: as a record in the store that all connections share, and as a pending
invocation in the connection on which it was issued.

* `Effect` says what a step can do to these two places: nothing but forget, issue an approval,
  consume one, accept a SAFE invocation, or start a handler;
* `ApprovalInv` ties the two places to the history. The store and the pending invocations hold only
  approvals that were issued, and an approval is issued once, so that the record which `consume`
  finds is that of the pending invocation;
* `confirm_needs_approval` is the result over runs.
-/

namespace GoffyHub.WebSocket

open Python
open Approval
open Auth (AuthenticatedPrincipal)
open Registry

/-! ### What a step can do -/

/-- Events that are not about approvals or handlers. -/
def Event.isQuiet : Event → Bool
  | .received _ _ | .processed _ _ | .discovered _ _ => true
  | _ => false

/-- Pending invocations and approvals are at most forgotten. -/
structure Kept (conn conn' : Connection) (approvals approvals' : PendingApprovals) : Prop where
  principal : conn'.principal = conn.principal
  pending : ∀ id p, conn'.pending.get? id = some p → conn.pending.get? id = some p
  approvals : ∀ id record, approvals'.get? id = some record → approvals.get? id = some record

/-- The prepared invocation is what `preflight` makes of an invocation. -/
structure Prepares (invocation : ToolInvocationPayload) (prepared : PreparedToolInvocation) :
    Prop where
  name : prepared.definition.name = invocation.toolName
  input : prepared.definition.inputModel invocation.arguments = some prepared.parsedInput

/-- The cases of a step of connection `i`; `fresh` is the id that `uuid4` gives in it. -/
inductive Effect (crypto : Crypto) (fresh : Option UUID) (i : ℕ) (conn : Connection)
    (approvals : PendingApprovals) : Connection → PendingApprovals → List Event → Prop
  | quiet {conn' : Connection} {approvals' : PendingApprovals} {out : List Event}
      (hkept : Kept conn conn' approvals approvals')
      (htask : ∀ execution, conn'.task ≠ .sendingAccepted execution)
      (hout : ∀ e ∈ out, e.isQuiet = true) : Effect crypto fresh i conn approvals conn' approvals' out
  | accept {conn' : Connection} {approvals' : PendingApprovals} {out : List Event}
      {execution : Execution} (hkept : Kept conn conn' approvals approvals')
      (htask : conn'.task = .sendingAccepted execution) (hsource : execution.source = .message)
      (hpermission : execution.prepared.definition.permission ≠ .confirm)
      (hprepares : Prepares execution.invocation execution.prepared)
      (hout : ∀ e ∈ out, e.isQuiet = true) : Effect crypto fresh i conn approvals conn' approvals' out
  | issue {conn' : Connection} {approvals' : PendingApprovals} {out : List Event}
      {record : IssuedApprovalRecord} {p : PendingConfirmInvocation}
      (hfresh : fresh = some record.approvalId) (hprincipal : conn'.principal = conn.principal)
      (hpending : conn'.pending = conn.pending.set record.approvalId p)
      (happrovals : ∀ id r, approvals'.get? id = some r →
        (id = record.approvalId ∧ r = record) ∨ approvals.get? id = some r)
      (hkey : p.principalKey = principalKey conn.principal)
      (hcredential : conn.principal.credentialId = some p.credentialId)
      (hpublic : conn.principal.approvalPublicKeySpkiDer = some p.approvalPublicKeySpkiDer)
      (hprepares : Prepares p.invocation p.prepared)
      (htask : ∀ execution, conn'.task ≠ .sendingAccepted execution)
      (hmem : .issued i record ∈ out)
      (hout : ∀ e ∈ out, e.isQuiet = true ∨ e = .issued i record) :
      Effect crypto fresh i conn approvals conn' approvals' out
  | consume {conn' : Connection} {approvals' : PendingApprovals} {out : List Event}
      {record : IssuedApprovalRecord} {p : PendingConfirmInvocation}
      {response : ApprovalResponsePayload} {now : ℤ}
      (hkept : Kept conn conn' approvals approvals')
      (hpending : conn.pending.get? response.approvalId = some p)
      (hget : approvals.get? response.approvalId = some record)
      (hgone : approvals'.get? response.approvalId = none)
      (happroved : response.approved = true)
      (hfits : Fits record (principalKey conn.principal) response p.invocation now)
      (hsigned : SignatureVerifies crypto record response p.credentialId p.approvalPublicKeySpkiDer)
      (htask : conn'.task = .sendingAccepted ⟨p.invocation, p.prepared, p.originalMessageId,
        .approvalResponse response.approvalId⟩)
      (hmem : .consumed i record response p.invocation now ∈ out)
      (hout : ∀ e ∈ out, e.isQuiet = true ∨ e = .consumed i record response p.invocation now) :
      Effect crypto fresh i conn approvals conn' approvals' out
  | start {conn' : Connection} {approvals' : PendingApprovals} {execution : Execution}
      {healthy : Bool} (hkept : Kept conn conn' approvals approvals')
      (hbefore : conn.task = .sendingAccepted execution)
      (htask : ∀ execution, conn'.task ≠ .sendingAccepted execution) :
      Effect crypto fresh i conn approvals conn' approvals' [.started i execution healthy]

section Effects

variable {crypto : Crypto} {fresh : Option UUID} {i : ℕ} {conn conn₀ conn' : Connection}
  {approvals approvals' : PendingApprovals} {out : List Event}

theorem Kept.refl (h : conn'.principal = conn.principal) (hpending : conn'.pending = conn.pending) :
    Kept conn conn' approvals approvals :=
  ⟨h, fun _ _ hp => hpending ▸ hp, fun _ _ hr => hr⟩

/-- What is done to a connection depends on its principal, its pending invocations and its task. -/
theorem Effect.of_same (h : Effect crypto fresh i conn₀ approvals conn' approvals' out)
    (hprincipal : conn₀.principal = conn.principal) (hpending : conn₀.pending = conn.pending)
    (htask : conn₀.task = conn.task) : Effect crypto fresh i conn approvals conn' approvals' out := by
  cases conn₀
  cases conn
  simp only at hprincipal hpending htask
  subst hprincipal hpending htask
  cases h with
  | quiet hkept htask hout => exact .quiet ⟨hkept.1, hkept.2, hkept.3⟩ htask hout
  | accept hkept htask hsource hpermission hprepares hout =>
    exact .accept ⟨hkept.1, hkept.2, hkept.3⟩ htask hsource hpermission hprepares hout
  | issue hfresh hprincipal hpending happrovals hkey hcredential hpublic hprepares htask hmem hout =>
    exact .issue hfresh hprincipal hpending happrovals hkey hcredential hpublic hprepares htask hmem
      hout
  | consume hkept hpending hget hgone happroved hfits hsigned htask hmem hout =>
    exact .consume ⟨hkept.1, hkept.2, hkept.3⟩ hpending hget hgone happroved hfits hsigned htask
      hmem hout
  | start hkept hbefore htask => exact .start ⟨hkept.1, hkept.2, hkept.3⟩ hbefore htask

/-- Events of the loop around a handler. -/
theorem Effect.cons (h : Effect crypto fresh i conn approvals conn' approvals' out) {e : Event}
    (he : e.isQuiet = true) (hstart : ∀ execution healthy, .started i execution healthy ∉ out) :
    Effect crypto fresh i conn approvals conn' approvals' (e :: out) := by
  cases h with
  | quiet hkept htask hout => exact .quiet hkept htask (List.forall_mem_cons.2 ⟨he, hout⟩)
  | accept hkept htask hsource hpermission hprepares hout =>
    exact .accept hkept htask hsource hpermission hprepares (List.forall_mem_cons.2 ⟨he, hout⟩)
  | issue hfresh hprincipal hpending happrovals hkey hcredential hpublic hprepares htask hmem hout =>
    exact .issue hfresh hprincipal hpending happrovals hkey hcredential hpublic hprepares htask
      (List.mem_cons_of_mem _ hmem) (List.forall_mem_cons.2 ⟨Or.inl he, hout⟩)
  | consume hkept hpending hget hgone happroved hfits hsigned htask hmem hout =>
    exact .consume hkept hpending hget hgone happroved hfits hsigned htask
      (List.mem_cons_of_mem _ hmem) (List.forall_mem_cons.2 ⟨Or.inl he, hout⟩)
  | start => exact absurd (List.mem_singleton_self _) (hstart _ _)

/-- An error is sent. -/
theorem effect_sendError (code message : String) (correlationId : Option UUID) :
    Effect crypto fresh i conn approvals (conn.sendError code message correlationId) approvals [] :=
  .quiet (.refl rfl rfl) (by simp [Connection.sendError]) (by simp)

theorem get?_foldl_discard {ids : List UUID} {id : UUID} {record : IssuedApprovalRecord}
    (h : (ids.foldl discard approvals).get? id = some record) :
    approvals.get? id = some record := by
  induction ids generalizing approvals with
  | nil => exact h
  | cons id' ids ih =>
    exact Dict.get?_of_get?_pop (ih h)

theorem effect_exit (hprincipal : conn'.principal = conn.principal)
    (happrovals : ∀ id record, approvals'.get? id = some record →
      approvals.get? id = some record) :
    Effect crypto fresh i conn approvals (exit conn' approvals').1 (exit conn' approvals').2.1
      (exit conn' approvals').2.2 := by
  refine .quiet ⟨hprincipal, ?_, ?_⟩ (by simp [exit]) (by simp [exit])
  · intro id p hp
    simp [exit] at hp
  · intro id record hr
    exact happrovals id record (get?_foldl_discard hr)

/-- `_handle_message` is done, and has at most forgotten something. -/
theorem effect_finish (hkept : Kept conn conn' approvals approvals') :
    Effect crypto fresh i conn approvals (finish conn' approvals').1 (finish conn' approvals').2.1
      (finish conn' approvals').2.2 := by
  unfold finish
  split
  · exact effect_exit hkept.principal hkept.approvals
  · exact .quiet ⟨hkept.1, hkept.2, hkept.3⟩ (by simp) (by simp)

theorem effect_handleApprovalResponse (response : ApprovalResponsePayload)
    (fallbackCorrelationId : UUID) (now : ℤ) {outcome : Outcome}
    (h : handleApprovalResponse crypto i conn approvals response fallbackCorrelationId now =
      outcome) :
    Effect crypto fresh i conn approvals outcome.1 outcome.2.1 outcome.2.2 ∧
      ∀ execution healthy, .started i execution healthy ∉ outcome.2.2 := by
  unfold handleApprovalResponse at h
  split at h
  · subst h
    exact ⟨effect_sendError _ _ _, by simp⟩
  rename_i p hpending
  simp only at h
  split at h
  · subst h
    exact ⟨effect_sendError _ _ _, by simp⟩
  split at h
  · rename_i approvals' error hconsume
    subst h
    have happrovals : ∀ id record, approvals'.get? id = some record →
        approvals.get? id = some record := by
      intro id record hr
      rcases consume_error hconsume with rfl | rfl
      · exact hr
      · exact Dict.get?_of_get?_pop hr
    exact ⟨.quiet ⟨rfl, fun _ _ hp => hp, happrovals⟩ (by simp) (by simp), by simp⟩
  · rename_i approvals' record hconsume
    subst h
    obtain ⟨hget, rfl, happroved, hfits, c, key, hc, hkey, hsigned⟩ := consume_ok hconsume
    obtain rfl := Option.some.inj hc
    obtain rfl := Option.some.inj hkey
    refine ⟨.consume ⟨rfl, fun _ _ => Dict.get?_of_get?_pop, fun _ _ => Dict.get?_of_get?_pop⟩
      hpending hget ?_ happroved hfits hsigned rfl (by simp) (by simp), by simp⟩
    simp [Dict.get?_pop]

theorem effect_handleApprovalMessage (protocol : Protocol) (envelope : MessageEnvelope)
    (readings : Readings) {outcome : Outcome}
    (h : handleApprovalMessage protocol crypto i conn approvals envelope readings = outcome) :
    Effect crypto fresh i conn approvals outcome.1 outcome.2.1 outcome.2.2 ∧
      ∀ execution healthy, .started i execution healthy ∉ outcome.2.2 := by
  unfold handleApprovalMessage at h
  simp only at h
  split at h
  · subst h
    exact ⟨(effect_sendError _ _ _).of_same rfl rfl rfl, by simp⟩
  split at h
  · subst h
    exact ⟨(effect_sendError _ _ _).of_same rfl rfl rfl, by simp⟩
  · obtain ⟨heff, hstart⟩ := effect_handleApprovalResponse _ _ _ h
    exact ⟨heff.of_same rfl rfl rfl, hstart⟩

theorem effect_handleDiscovery (protocol : Protocol) (registry : ToolRegistry)
    (envelope : MessageEnvelope) {outcome : Outcome}
    (h : handleDiscovery protocol registry i conn approvals envelope = outcome) :
    Effect crypto fresh i conn approvals outcome.1 outcome.2.1 outcome.2.2 ∧
      ∀ execution healthy, .started i execution healthy ∉ outcome.2.2 := by
  unfold handleDiscovery at h
  simp only at h
  split at h
  · subst h
    exact ⟨(effect_sendError _ _ _).of_same rfl rfl rfl, by simp⟩
  split at h
  · subst h
    exact ⟨.quiet (.refl rfl rfl) (by simp) (by simp), by simp⟩
  · subst h
    exact ⟨.quiet (.refl rfl rfl) (by simp) (by simp [Event.isQuiet]), by simp⟩

/-- What `issue` does to the store. -/
theorem issue_ok {key : Str} {invocation : ToolInvocationPayload} {approvalId : UUID}
    {pruneAt issuedAt : ℤ} {record : IssuedApprovalRecord}
    (h : issue approvals key invocation approvalId pruneAt issuedAt = (approvals', .ok record)) :
    record.approvalId = approvalId ∧ ∀ id r, approvals'.get? id = some r →
      (id = approvalId ∧ r = record) ∨ approvals.get? id = some r := by
  unfold issue at h
  split at h
  · cases h
  simp only at h
  split at h
  · cases h
  · cases h
    refine ⟨rfl, fun id r hr => ?_⟩
    rw [Dict.get?_set] at hr
    split at hr
    · rename_i hid
      exact Or.inl ⟨hid.symm, (Option.some.inj hr).symm⟩
    · rw [pruneExpired, Dict.get?_filter] at hr
      exact Or.inr (Option.filter_eq_some_iff.1 hr).1

theorem issue_error {key : Str} {invocation : ToolInvocationPayload} {approvalId : UUID}
    {pruneAt issuedAt : ℤ} {e : ApprovalValidationError}
    (h : issue approvals key invocation approvalId pruneAt issuedAt = (approvals', .error e))
    {id : UUID} {r : IssuedApprovalRecord} (hr : approvals'.get? id = some r) :
    approvals.get? id = some r := by
  unfold issue at h
  split at h
  · cases h
    exact hr
  simp only at h
  split at h
  · cases h
    rw [pruneExpired, Dict.get?_filter] at hr
    exact (Option.filter_eq_some_iff.1 hr).1
  · cases h

theorem effect_handleConfirm (envelope : MessageEnvelope) {invocation : ToolInvocationPayload}
    {prepared : PreparedToolInvocation} (hprepares : Prepares invocation prepared)
    (readings : Readings) {outcome : Outcome}
    (h : handleConfirm i conn approvals envelope invocation prepared readings = outcome) :
    Effect crypto (some readings.approvalId) i conn approvals outcome.1 outcome.2.1 outcome.2.2 ∧
      ∀ execution healthy, .started i execution healthy ∉ outcome.2.2 := by
  unfold handleConfirm at h
  split at h
  · rename_i credentialId publicKey _ hcredential hpublic
    split at h
    · rename_i approvals' error hissue
      subst h
      exact ⟨.quiet ⟨rfl, fun _ _ hp => hp, fun _ _ => issue_error hissue⟩
        (by simp [Connection.sendError]) (by simp), by simp⟩
    · rename_i approvals' record hissue
      subst h
      obtain ⟨hid, happrovals⟩ := issue_ok hissue
      exact ⟨.issue (hid ▸ rfl) rfl rfl (hid ▸ happrovals) rfl hcredential hpublic hprepares (by simp) (by simp)
        (by simp), by simp⟩
  · subst h
    exact ⟨effect_sendError _ _ _, by simp⟩

theorem effect_handleInvocation (protocol : Protocol) (registry : ToolRegistry)
    (envelope : MessageEnvelope) (readings : Readings) {outcome : Outcome}
    (h : handleInvocation protocol registry i conn approvals envelope readings = outcome) :
    Effect crypto (some readings.approvalId) i conn approvals outcome.1 outcome.2.1 outcome.2.2 ∧
      ∀ execution healthy, .started i execution healthy ∉ outcome.2.2 := by
  unfold handleInvocation at h
  simp only at h
  split at h
  · subst h
    exact ⟨(effect_sendError _ _ _).of_same rfl rfl rfl, by simp⟩
  split at h
  · subst h
    exact ⟨(effect_sendError _ _ _).of_same rfl rfl rfl, by simp⟩
  split at h
  · subst h
    exact ⟨(effect_sendError _ _ _).of_same rfl rfl rfl, by simp⟩
  · subst h
    exact ⟨(effect_sendError _ _ _).of_same rfl rfl rfl, by simp⟩
  rename_i prepared hpreflight
  obtain ⟨hname, -, -, hinput⟩ := ToolRegistry.preflight_ok hpreflight
  split at h
  · subst h
    exact ⟨(effect_sendError _ _ _).of_same rfl rfl rfl, by simp⟩
  split at h
  · obtain ⟨heff, hstart⟩ := effect_handleConfirm envelope ⟨hname, hinput⟩ readings h
    exact ⟨heff.of_same rfl rfl rfl, hstart⟩
  rename_i hconfirm
  split at h
  · subst h
    exact ⟨(effect_sendError _ _ _).of_same rfl rfl rfl, by simp⟩
  · subst h
    exact ⟨.accept (.refl rfl rfl) rfl rfl hconfirm ⟨hname, hinput⟩ (by simp), by simp⟩

theorem effect_dispatch (protocol : Protocol) (registry : ToolRegistry)
    (envelope : MessageEnvelope) (readings : Readings) {outcome : Outcome}
    (h : dispatch protocol crypto registry i conn approvals envelope readings = outcome) :
    Effect crypto (some readings.approvalId) i conn approvals outcome.1 outcome.2.1 outcome.2.2 ∧
      ∀ execution healthy, .started i execution healthy ∉ outcome.2.2 := by
  unfold dispatch at h
  split at h
  · exact effect_handleApprovalMessage protocol envelope readings h
  · exact effect_handleDiscovery protocol registry envelope h
  · exact effect_handleInvocation protocol registry envelope readings h
  · subst h
    exact ⟨(effect_sendError _ _ _).of_same rfl rfl rfl, by simp⟩

theorem effect_handleMessage (protocol : Protocol) (registry : ToolRegistry) (raw : Str)
    (readings : Readings) {outcome : Outcome}
    (h : handleMessage protocol crypto registry i conn approvals raw readings = outcome) :
    Effect crypto (some readings.approvalId) i conn approvals outcome.1 outcome.2.1 outcome.2.2 ∧
      ∀ execution healthy, .started i execution healthy ∉ outcome.2.2 := by
  unfold handleMessage at h
  split at h
  · subst h
    exact ⟨(effect_sendError _ _ _).of_same rfl rfl rfl, by simp⟩
  rename_i envelope henvelope
  split at h
  · subst h
    exact ⟨(effect_sendError _ _ _).of_same rfl rfl rfl, by simp⟩
  split at h
  · subst h
    exact ⟨(effect_sendError _ _ _).of_same rfl rfl rfl, by simp⟩
  simp only at h
  generalize hinner : dispatch protocol crypto registry i _ approvals envelope readings = inner at h
  obtain ⟨heff, hstart⟩ := effect_dispatch protocol registry envelope readings hinner
  have hconn : Effect crypto (some readings.approvalId) i conn approvals inner.1 inner.2.1
      inner.2.2 :=
    heff.of_same rfl rfl rfl
  subst h
  exact ⟨hconn.cons rfl hstart, by simpa using hstart⟩

theorem Kept.of_same {conn₁ : Connection} (h : Kept conn conn₁ approvals approvals')
    (hprincipal : conn₁.principal = conn'.principal) (hpending : conn₁.pending = conn'.pending) :
    Kept conn conn' approvals approvals' :=
  ⟨hprincipal.symm.trans h.principal, fun id p hp => h.pending id p (hpending ▸ hp), h.approvals⟩

theorem effect_invokePrepared (registry : ToolRegistry) {execution : Execution}
    (hprincipal : conn'.principal = conn.principal) (hpending : conn'.pending = conn.pending)
    (hbefore : conn.task = .sendingAccepted execution) {outcome : Outcome}
    (h : invokePrepared registry i conn' approvals execution = outcome) :
    Effect crypto fresh i conn approvals outcome.1 outcome.2.1 outcome.2.2 := by
  unfold invokePrepared at h
  split at h
  · subst h
    exact .start (.refl hprincipal hpending) hbefore (by simp)
  · subst h
    exact effect_exit hprincipal fun _ _ hr => hr

theorem effect_afterSend (registry : ToolRegistry) (sent : Bool) {outcome : Outcome}
    (h : afterSend registry i conn approvals sent = some outcome) :
    Effect crypto fresh i conn approvals outcome.1 outcome.2.1 outcome.2.2 := by
  unfold afterSend at h
  simp only at h
  generalize hconn' : (if sent = true then conn else { conn with outboundClosed := true }) = conn'
    at h
  have hprincipal : conn'.principal = conn.principal := by
    subst hconn'
    split <;> rfl
  have hpending : conn'.pending = conn.pending := by
    subst hconn'
    split <;> rfl
  have htask : conn'.task = conn.task := by
    subst hconn'
    split <;> rfl
  have hkept : Kept conn conn' approvals approvals := .refl hprincipal hpending
  -- a pending invocation is dropped, and its approval perhaps with it
  have hpop : ∀ id {approvals'}, (∀ id' record, approvals'.get? id' = some record →
      approvals.get? id' = some record) →
      Kept conn { conn' with pending := conn'.pending.pop id } approvals approvals' :=
    fun id approvals' happrovals =>
      ⟨hprincipal, fun _ _ hp => hpending ▸ Dict.get?_of_get?_pop hp, happrovals⟩
  split at h
  · cases h
    exact effect_finish hkept
  · cases h
    exact effect_finish (hpop _ fun _ _ hr => hr)
  · cases h
    exact effect_exit hprincipal fun _ _ hr => hr
  · cases h
    exact effect_finish hkept
  · split at h
    · cases h
      exact effect_finish hkept
    · cases h
      exact effect_finish (hpop _ fun _ _ => Dict.get?_of_get?_pop)
  · rename_i execution hexecution
    split at h
    · cases h
      exact effect_invokePrepared registry hprincipal hpending (htask ▸ hexecution) rfl
    · cases h
      exact effect_finish hkept
  · split at h
    · cases h
      exact .quiet (hkept.of_same rfl rfl) (by simp) (by simp)
    · cases h
      exact effect_finish hkept
  · split at h
    · cases h
      exact .quiet (hkept.of_same rfl rfl) (by simp) (by simp)
    · cases h
      exact effect_finish hkept
  · cases h
    exact effect_finish hkept
  all_goals cases h

theorem effect_afterInvoke (succeeded : Bool) {outcome : Outcome}
    (h : afterInvoke conn approvals succeeded = some outcome) :
    Effect crypto fresh i conn approvals outcome.1 outcome.2.1 outcome.2.2 := by
  unfold afterInvoke at h
  split at h
  · split at h
    · cases h
      exact .quiet (.refl rfl rfl) (by simp) (by simp)
    · cases h
      exact effect_sendError _ _ _
  · cases h

/-- What `uuid4` gives in an action. -/
def Action.approvalId? : Action → Option UUID
  | .receive _ _ readings => some readings.approvalId
  | _ => none

variable {protocol : Protocol} {maxMessageBytes : ℕ} {s : System}

theorem effect_react {a : Action} {outcome : Outcome} (hi : a.connection? = some i)
    (h : react protocol crypto maxMessageBytes s conn a = some outcome) :
    Effect crypto a.approvalId? i conn s.approvals outcome.1 outcome.2.1 outcome.2.2 := by
  cases a with
  | connect => cases hi
  | setHealth => cases hi
  | receive j raw readings =>
    obtain rfl := Option.some.inj hi
    simp only [react] at h
    split at h
    · split at h
      · cases h
        exact .quiet (.refl rfl rfl) (by simp) (by simp [Event.isQuiet])
      · generalize hinner : handleMessage protocol crypto s.registry j conn s.approvals raw readings =
          inner at h
        obtain ⟨heff, hstart⟩ := effect_handleMessage protocol s.registry raw readings hinner
        cases h
        exact heff.cons rfl hstart
    · cases h
  | send j sent =>
    obtain rfl := Option.some.inj hi
    exact effect_afterSend s.registry sent h
  | invoke j succeeded => exact effect_afterInvoke succeeded h
  | interrupt j =>
    simp only [react] at h
    split at h
    · cases h
    · cases h
      exact effect_exit rfl fun _ _ hr => hr

end Effects

/-! ### The invariant -/

/-- Connection `i` has consumed an approval of its own for an invocation: the approval was issued on
it, was unexpired, and is signed with the key of its principal. -/
structure Consumed (crypto : Crypto) (es : List Event) (i : ℕ) (principal : AuthenticatedPrincipal)
    (record : IssuedApprovalRecord) (response : ApprovalResponsePayload)
    (invocation : ToolInvocationPayload) (now : ℤ) : Prop where
  connected : .connected i principal ∈ es
  issued : .issued i record ∈ es
  consumed : .consumed i record response invocation now ∈ es
  approvalId : record.approvalId = response.approvalId
  approved : response.approved = true
  fits : Fits record (principalKey principal) response invocation now
  signed : ∃ credentialId publicKey, principal.credentialId = some credentialId ∧
    principal.approvalPublicKeySpkiDer = some publicKey ∧
    SignatureVerifies crypto record response credentialId publicKey

/-- An execution may start: a response to an approval has accepted it, or it needs none. -/
def Authorised (crypto : Crypto) (es : List Event) (i : ℕ) (execution : Execution) : Prop :=
  match execution.source with
  | .message => execution.prepared.definition.permission ≠ .confirm
  | .approvalResponse approvalId => ∃ principal record response now, record.approvalId = approvalId ∧
    Consumed crypto es i principal record response execution.invocation now

/-- No handler was started with this approval. -/
def Unused (es : List Event) (approvalId : UUID) : Prop :=
  ∀ i execution healthy, .started i execution healthy ∈ es →
    execution.source ≠ .approvalResponse approvalId

/-- A pending invocation of connection `i`. -/
structure PendingOk (es : List Event) (i : ℕ) (principal : AuthenticatedPrincipal) (id : UUID)
    (p : PendingConfirmInvocation) : Prop where
  issued : ∃ record, record.approvalId = id ∧ .issued i record ∈ es
  credentialId : principal.credentialId = some p.credentialId
  publicKey : principal.approvalPublicKeySpkiDer = some p.approvalPublicKeySpkiDer
  prepares : Prepares p.invocation p.prepared

/-- What the history says about a connection. -/
structure ConnectionInv (crypto : Crypto) (es : List Event) (i : ℕ) (conn : Connection) : Prop where
  connected : .connected i conn.principal ∈ es
  pending : ∀ id p, conn.pending.get? id = some p → PendingOk es i conn.principal id p
  accepted : ∀ execution, conn.task = .sendingAccepted execution →
    Authorised crypto es i execution ∧ Prepares execution.invocation execution.prepared ∧
      ∀ id, execution.source = .approvalResponse id → Unused es id

/-- What the history says about the store. -/
structure StoreInv (approvals : PendingApprovals) (es : List Event) : Prop where
  stored : ∀ id record, approvals.get? id = some record →
    record.approvalId = id ∧ ∃ i, .issued i record ∈ es
  issuedOnce : ∀ i j record record', .issued i record ∈ es → .issued j record' ∈ es →
    record.approvalId = record'.approvalId → i = j ∧ record = record'
  consumedGone : ∀ i record response invocation now,
    .consumed i record response invocation now ∈ es →
      approvals.get? record.approvalId = none ∧ ∃ j, .issued j record ∈ es
  started : ∀ i execution healthy id, .started i execution healthy ∈ es →
    execution.source = .approvalResponse id → ∃ i record response invocation now,
      record.approvalId = id ∧ .consumed i record response invocation now ∈ es

structure ApprovalInv (crypto : Crypto) (s : System) (es : List Event) : Prop where
  store : StoreInv s.approvals es
  connections : ∀ i conn, s.connections i = some conn → ConnectionInv crypto es i conn

/-- `uuid4` gives an id that no approval has yet. -/
def FreshApprovalIds (_ : System) (es : List Event) (a : Action) : Prop :=
  ∀ id ∈ a.approvalId?, ∀ i record, .issued i record ∈ es → record.approvalId ≠ id

section Invariant

variable {crypto : Crypto} {fresh : Option UUID} {i : ℕ} {conn conn' : Connection}
  {approvals approvals' : PendingApprovals} {es out : List Event} {execution : Execution}

theorem Consumed.mono {principal : AuthenticatedPrincipal} {record : IssuedApprovalRecord}
    {response : ApprovalResponsePayload} {invocation : ToolInvocationPayload} {now : ℤ}
    (h : Consumed crypto es i principal record response invocation now) :
    Consumed crypto (es ++ out) i principal record response invocation now where
  connected := List.mem_append_left _ h.connected
  issued := List.mem_append_left _ h.issued
  consumed := List.mem_append_left _ h.consumed
  approvalId := h.approvalId
  approved := h.approved
  fits := h.fits
  signed := h.signed

theorem Authorised.mono (h : Authorised crypto es i execution) :
    Authorised crypto (es ++ out) i execution := by
  unfold Authorised at *
  split
  · rename_i hsource
    rw [hsource] at h
    exact h
  · rename_i id hsource
    rw [hsource] at h
    obtain ⟨principal, record, response, now, hid, hconsumed⟩ := h
    exact ⟨principal, record, response, now, hid, hconsumed.mono⟩

theorem PendingOk.mono {principal : AuthenticatedPrincipal} {id : UUID}
    {p : PendingConfirmInvocation} (h : PendingOk es i principal id p) :
    PendingOk (es ++ out) i principal id p where
  issued :=
    let ⟨record, hid, hissued⟩ := h.issued
    ⟨record, hid, List.mem_append_left _ hissued⟩
  credentialId := h.credentialId
  publicKey := h.publicKey
  prepares := h.prepares

theorem Unused.append {id : UUID} (h : Unused es id) (hout : Unused out id) :
    Unused (es ++ out) id := by
  intro i execution healthy hmem
  rcases List.mem_append.1 hmem with hmem | hmem
  · exact h i execution healthy hmem
  · exact hout i execution healthy hmem

/-- A connection that does not take a step. -/
theorem ConnectionInv.mono (h : ConnectionInv crypto es i conn)
    (hout : ∀ execution id, conn.task = .sendingAccepted execution →
      execution.source = .approvalResponse id → Unused out id) :
    ConnectionInv crypto (es ++ out) i conn where
  connected := List.mem_append_left _ h.connected
  pending := fun id p hp => (h.pending id p hp).mono
  accepted := fun execution htask =>
    let ⟨hauthorised, hprepares, hunused⟩ := h.accepted execution htask
    ⟨hauthorised.mono, hprepares, fun id hid => (hunused id hid).append (hout execution id htask hid)⟩

/-- The connection of a step that has at most forgotten something. -/
theorem ConnectionInv.kept (h : ConnectionInv crypto es i conn)
    (hkept : Kept conn conn' approvals approvals')
    (haccepted : ∀ execution, conn'.task = .sendingAccepted execution →
      Authorised crypto (es ++ out) i execution ∧ Prepares execution.invocation execution.prepared ∧
        ∀ id, execution.source = .approvalResponse id → Unused (es ++ out) id) :
    ConnectionInv crypto (es ++ out) i conn' where
  connected := List.mem_append_left _ (hkept.principal ▸ h.connected)
  pending := fun id p hp => hkept.principal ▸ (h.pending id p (hkept.pending id p hp)).mono
  accepted := haccepted

/-- The store after a step that has issued nothing. -/
theorem StoreInv.kept (h : StoreInv approvals es)
    (happrovals : ∀ id record, approvals'.get? id = some record → approvals.get? id = some record)
    (hissued : ∀ i record, .issued i record ∉ out)
    (hconsumed : ∀ i record response invocation now,
      .consumed i record response invocation now ∈ out →
        approvals'.get? record.approvalId = none ∧ ∃ j, .issued j record ∈ es)
    (hstarted : ∀ i execution healthy id, .started i execution healthy ∈ out →
      execution.source = .approvalResponse id → ∃ i record response invocation now,
        record.approvalId = id ∧ .consumed i record response invocation now ∈ es) :
    StoreInv approvals' (es ++ out) := by
  have hold : ∀ {i record}, .issued i record ∈ es ++ out → .issued i record ∈ es := by
    intro i record hmem
    exact (List.mem_append.1 hmem).resolve_right (hissued i record)
  constructor
  · intro id record hr
    obtain ⟨hid, j, hj⟩ := h.stored id record (happrovals id record hr)
    exact ⟨hid, j, List.mem_append_left _ hj⟩
  · intro i j record record' hi hj heq
    exact h.issuedOnce i j record record' (hold hi) (hold hj) heq
  · intro i record response invocation now hmem
    rcases List.mem_append.1 hmem with hmem | hmem
    · obtain ⟨hgone, j, hj⟩ := h.consumedGone i record response invocation now hmem
      refine ⟨?_, j, List.mem_append_left _ hj⟩
      -- what is not in the store does not come back
      by_contra hne
      obtain ⟨record', hr⟩ := Option.ne_none_iff_exists'.1 hne
      rw [happrovals _ _ hr] at hgone
      cases hgone
    · obtain ⟨hgone, j, hj⟩ := hconsumed i record response invocation now hmem
      exact ⟨hgone, j, List.mem_append_left _ hj⟩
  · intro i execution healthy id hmem hsource
    rcases List.mem_append.1 hmem with hmem | hmem
    · obtain ⟨j, record, response, invocation, now, hid, hc⟩ :=
        h.started i execution healthy id hmem hsource
      exact ⟨j, record, response, invocation, now, hid, List.mem_append_left _ hc⟩
    · obtain ⟨j, record, response, invocation, now, hid, hc⟩ :=
        hstarted i execution healthy id hmem hsource
      exact ⟨j, record, response, invocation, now, hid, List.mem_append_left _ hc⟩

theorem StoreInv.kept_quiet (h : StoreInv approvals es)
    (happrovals : ∀ id record, approvals'.get? id = some record → approvals.get? id = some record)
    (hout : ∀ e ∈ out, e.isQuiet = true) : StoreInv approvals' (es ++ out) := by
  refine h.kept happrovals ?_ ?_ ?_
  · intro i record hmem
    simpa [Event.isQuiet] using hout _ hmem
  · intro i record response invocation now hmem
    simpa [Event.isQuiet] using hout _ hmem
  · intro i execution healthy id hmem
    simpa [Event.isQuiet] using hout _ hmem

/-- The store after an approval was issued. -/
theorem StoreInv.issue (h : StoreInv approvals es) {record : IssuedApprovalRecord}
    (hnew : ∀ j record', .issued j record' ∈ es → record'.approvalId ≠ record.approvalId)
    (happrovals : ∀ id r, approvals'.get? id = some r →
      (id = record.approvalId ∧ r = record) ∨ approvals.get? id = some r)
    (hmem : .issued i record ∈ out)
    (hout : ∀ e ∈ out, e.isQuiet = true ∨ e = .issued i record) :
    StoreInv approvals' (es ++ out) := by
  have hissued : ∀ {j record'}, .issued j record' ∈ es ++ out →
      .issued j record' ∈ es ∨ (j = i ∧ record' = record) := by
    intro j record' hj
    refine (List.mem_append.1 hj).imp_right fun hj => ?_
    simpa [Event.isQuiet] using hout _ hj
  constructor
  · intro id r hr
    rcases happrovals id r hr with ⟨rfl, rfl⟩ | hr
    · exact ⟨rfl, i, List.mem_append_right _ hmem⟩
    · obtain ⟨hid, j, hj⟩ := h.stored id r hr
      exact ⟨hid, j, List.mem_append_left _ hj⟩
  · intro j j' r r' hj hj' heq
    rcases hissued hj with hj | ⟨rfl, rfl⟩ <;> rcases hissued hj' with hj' | ⟨rfl, rfl⟩
    · exact h.issuedOnce j j' r r' hj hj' heq
    · exact absurd heq (hnew j r hj)
    · exact absurd heq.symm (hnew j' r' hj')
    · exact ⟨rfl, rfl⟩
  · intro j r response invocation now hj
    rcases List.mem_append.1 hj with hj | hj
    · obtain ⟨hgone, j', hj'⟩ := h.consumedGone j r response invocation now hj
      refine ⟨?_, j', List.mem_append_left _ hj'⟩
      by_contra hne
      obtain ⟨r', hr⟩ := Option.ne_none_iff_exists'.1 hne
      rcases happrovals _ _ hr with ⟨hid, -⟩ | hr
      · exact hnew j' r hj' hid
      · rw [hr] at hgone
        cases hgone
    · simpa [Event.isQuiet] using hout _ hj
  · intro j execution healthy id hj hsource
    rcases List.mem_append.1 hj with hj | hj
    · obtain ⟨j', r, response, invocation, now, hid, hc⟩ := h.started j execution healthy id hj hsource
      exact ⟨j', r, response, invocation, now, hid, List.mem_append_left _ hc⟩
    · simpa [Event.isQuiet] using hout _ hj

/-- An approval in the store has not been used. -/
theorem StoreInv.unused (h : StoreInv approvals es) {id : UUID} {record : IssuedApprovalRecord}
    (hget : approvals.get? id = some record) : Unused es id := by
  intro j execution healthy hstarted hsource
  obtain ⟨j', r, response, invocation, now, rfl, hconsumed⟩ :=
    h.started j execution healthy id hstarted hsource
  rw [(h.consumedGone j' r response invocation now hconsumed).1] at hget
  cases hget

/-- Two connections do not have the same approval. -/
theorem Authorised.connection_eq (h : StoreInv approvals es) {j : ℕ} {execution' : Execution}
    {id : UUID} (hi : Authorised crypto es i execution) (hj : Authorised crypto es j execution')
    (hsource : execution.source = .approvalResponse id)
    (hsource' : execution'.source = .approvalResponse id) : i = j := by
  simp only [Authorised, hsource] at hi
  simp only [Authorised, hsource'] at hj
  obtain ⟨principal, record, response, now, hid, hc⟩ := hi
  obtain ⟨principal', record', response', now', hid', hc'⟩ := hj
  exact (h.issuedOnce i j record record' hc.issued hc'.issued (hid.trans hid'.symm)).1

/-- What a consumed approval gives the connection that has consumed it. -/
theorem consumed_of_pending (hstore : StoreInv approvals es) (hconn : ConnectionInv crypto es i conn)
    {response : ApprovalResponsePayload} {p : PendingConfirmInvocation}
    {record : IssuedApprovalRecord} {now : ℤ}
    (hpending : conn.pending.get? response.approvalId = some p)
    (hget : approvals.get? response.approvalId = some record)
    (happroved : response.approved = true)
    (hfits : Fits record (principalKey conn.principal) response p.invocation now)
    (hsigned : SignatureVerifies crypto record response p.credentialId p.approvalPublicKeySpkiDer)
    (hmem : .consumed i record response p.invocation now ∈ out) :
    Consumed crypto (es ++ out) i conn.principal record response p.invocation now := by
  obtain ⟨hid, j, hj⟩ := hstore.stored _ _ hget
  have hp := hconn.pending _ _ hpending
  -- the record in the store is the one that was issued with the pending invocation
  obtain ⟨record', hid', hissued⟩ := hp.issued
  obtain ⟨rfl, rfl⟩ := hstore.issuedOnce i j record' record hissued hj (hid'.trans hid.symm)
  exact ⟨List.mem_append_left _ hconn.connected, List.mem_append_left _ hissued,
    List.mem_append_right _ hmem, hid, happroved, hfits, _, _, hp.credentialId, hp.publicKey, hsigned⟩

/-- A handler is started by the connection that takes the step, and nothing else happens then. -/
theorem Effect.started (h : Effect crypto fresh i conn approvals conn' approvals' out) {j : ℕ}
    {healthy : Bool} (hmem : .started j execution healthy ∈ out) :
    j = i ∧ conn.task = .sendingAccepted execution ∧ out = [.started i execution healthy] := by
  cases h with
  | quiet _ _ hout => simpa [Event.isQuiet] using hout _ hmem
  | accept _ _ _ _ _ hout => simpa [Event.isQuiet] using hout _ hmem
  | issue _ _ _ _ _ _ _ _ _ _ hout => simpa [Event.isQuiet] using hout _ hmem
  | consume _ _ _ _ _ _ _ _ _ hout => simpa [Event.isQuiet] using hout _ hmem
  | start _ hbefore _ =>
    simp only [List.mem_singleton, Event.started.injEq] at hmem
    obtain ⟨rfl, rfl, rfl⟩ := hmem
    exact ⟨rfl, hbefore, rfl⟩

/-- The store after a step. -/
theorem StoreInv.effect (h : StoreInv approvals es) (hconn : ConnectionInv crypto es i conn)
    (hfresh : ∀ id ∈ fresh, ∀ j record, .issued j record ∈ es → record.approvalId ≠ id)
    (heff : Effect crypto fresh i conn approvals conn' approvals' out) :
    StoreInv approvals' (es ++ out) := by
  cases heff with
  | quiet hkept _ hout => exact h.kept_quiet hkept.approvals hout
  | accept hkept _ _ _ _ hout => exact h.kept_quiet hkept.approvals hout
  | issue hnew _ _ happrovals _ _ _ _ _ hmem hout =>
    exact h.issue (hfresh _ hnew) happrovals hmem hout
  | consume hkept _ hget hgone _ _ _ _ hmem hout =>
    obtain ⟨hid, hissued⟩ := h.stored _ _ hget
    refine h.kept hkept.approvals ?_ ?_ ?_
    · intro j record hj
      simpa [Event.isQuiet] using hout _ hj
    · intro j record response invocation now hj
      have heq := (hout _ hj).resolve_left (by simp [Event.isQuiet])
      cases heq
      exact ⟨hid ▸ hgone, hissued⟩
    · intro j execution healthy id hj
      simpa [Event.isQuiet] using hout _ hj
  | start hkept hbefore _ =>
    refine h.kept hkept.approvals (by simp) (by simp) ?_
    intro j execution healthy id hj hsource
    simp only [List.mem_singleton, Event.started.injEq] at hj
    obtain ⟨rfl, rfl, rfl⟩ := hj
    have hauthorised := (hconn.accepted _ hbefore).1
    simp only [Authorised, hsource] at hauthorised
    obtain ⟨principal, record, response, now, hid, hc⟩ := hauthorised
    exact ⟨_, record, response, _, now, hid, hc.consumed⟩

/-- The connection that takes a step. -/
theorem ConnectionInv.effect (h : ConnectionInv crypto es i conn) (hstore : StoreInv approvals es)
    (heff : Effect crypto fresh i conn approvals conn' approvals' out) :
    ConnectionInv crypto (es ++ out) i conn' := by
  cases heff with
  | quiet hkept htask _ => exact h.kept hkept fun execution hexecution => absurd hexecution (htask _)
  | start hkept _ htask => exact h.kept hkept fun execution hexecution => absurd hexecution (htask _)
  | accept hkept htask hsource hpermission hprepares _ =>
    refine h.kept hkept fun execution hexecution => ?_
    obtain rfl := Task.sendingAccepted.inj (htask.symm.trans hexecution)
    refine ⟨?_, hprepares, fun id hid => ?_⟩
    · simpa only [Authorised, hsource] using hpermission
    · rw [hsource] at hid
      cases hid
  | issue _ hprincipal hpending _ _ hcredential hpublic hprepares htask hmem _ =>
    refine ⟨List.mem_append_left _ (hprincipal ▸ h.connected), fun id p hp => ?_,
      fun execution hexecution => absurd hexecution (htask _)⟩
    rw [hprincipal]
    rw [hpending, Dict.get?_set] at hp
    split at hp
    · rename_i hid
      obtain rfl := Option.some.inj hp
      exact ⟨⟨_, hid, List.mem_append_right _ hmem⟩, hcredential, hpublic, hprepares⟩
    · exact (h.pending id p hp).mono
  | consume hkept hpending hget _ happroved hfits hsigned htask hmem hout =>
    refine h.kept hkept fun execution hexecution => ?_
    obtain rfl := Task.sendingAccepted.inj (htask.symm.trans hexecution)
    have hconsumed := consumed_of_pending hstore h hpending hget happroved hfits hsigned hmem
    refine ⟨⟨_, _, _, _, hconsumed.approvalId, hconsumed⟩, (h.pending _ _ hpending).prepares, ?_⟩
    rintro id hid
    obtain rfl := Source.approvalResponse.inj hid
    refine (hstore.unused hget).append fun j execution healthy hmem => ?_
    simpa [Event.isQuiet] using hout _ hmem

end Invariant

section Runs

variable {protocol : Protocol} {crypto : Crypto} {maxMessageBytes : ℕ} {s s' : System}
  {es out : List Event} {a : Action}

/-- What an action can do. -/
theorem step_cases (h : step protocol crypto maxMessageBytes s a = some (s', out)) :
    (∃ i principal, s.connections i = none ∧ out = [.connected i principal] ∧
      s' = { s with
        connections := Function.update s.connections i (some (.opened principal)) }) ∨
    (∃ registry, out = [] ∧ s' = { s with registry }) ∨
    ∃ i conn conn' approvals', s.connections i = some conn ∧
      Effect crypto a.approvalId? i conn s.approvals conn' approvals' out ∧
      s' = { s with
        approvals := approvals', connections := Function.update s.connections i (some conn') } := by
  rcases step_eq_some h with hopened | ⟨healthy, hout, hs⟩ |
    ⟨i, conn, outcome, hi, hconn, hreact, happly⟩
  · exact Or.inl hopened
  · exact Or.inr (Or.inl ⟨_, hout, hs⟩)
  · cases happly
    exact Or.inr (Or.inr ⟨i, conn, _, _, hconn, effect_react hi hreact, rfl⟩)

/-- A step keeps the invariant. -/
theorem ApprovalInv.step (h : ApprovalInv crypto s es) (hfresh : FreshApprovalIds s es a)
    (hs : WebSocket.step protocol crypto maxMessageBytes s a = some (s', out)) :
    ApprovalInv crypto s' (es ++ out) := by
  rcases step_cases hs with ⟨i, principal, hnone, rfl, rfl⟩ | ⟨registry, rfl, rfl⟩ |
    ⟨i, conn, conn', approvals', hconn, heff, rfl⟩
  · refine ⟨h.store.kept (fun _ _ hr => hr) (by simp) (by simp) (by simp), fun j other hj => ?_⟩
    rcases Machine.update_eq_some_iff.1 hj with ⟨rfl, heq⟩ | ⟨-, hj⟩
    · obtain rfl := Option.some.inj heq
      exact ⟨by simp [Connection.opened], by simp [Connection.opened], by simp [Connection.opened]⟩
    · exact (h.connections j other hj).mono fun _ _ _ _ => by simp [Unused]
  · simpa using (⟨h.store, h.connections⟩ : ApprovalInv crypto { s with registry } es)
  · have hinv := h.connections i conn hconn
    refine ⟨h.store.effect hinv hfresh heff, fun j other hj => ?_⟩
    rcases Machine.update_eq_some_iff.1 hj with ⟨rfl, heq⟩ | ⟨hne, hj⟩
    · obtain rfl := Option.some.inj heq
      exact hinv.effect h.store heff
    · -- the handler that connection `i` starts is not for an approval of connection `j`
      have hother := h.connections j other hj
      refine hother.mono fun execution id htask hsource k execution' healthy hmem hsource' => ?_
      obtain ⟨-, hbefore, -⟩ := heff.started hmem
      exact hne (Authorised.connection_eq h.store (hother.accepted _ htask).1
        (hinv.accepted _ hbefore).1 hsource hsource')

variable {registry : ToolRegistry}

theorem approvalInv_initial : ApprovalInv crypto (System.initial registry) [] := by
  refine ⟨⟨?_, ?_, ?_, ?_⟩, ?_⟩ <;> simp [System.initial]

theorem reaches_approvalInv
    (h : Machine.Reaches (step protocol crypto maxMessageBytes) FreshApprovalIds
      (System.initial registry) s es) : ApprovalInv crypto s es :=
  h.invariant approvalInv_initial fun _ _ _ _ _ hinv hfresh hs => hinv.step hfresh hs

/-- What holds when a handler is started. -/
structure StartOk (crypto : Crypto) (pre : List Event) (i : ℕ) (execution : Execution) : Prop where
  /-- a CONFIRM tool is started from an approval response -/
  source : execution.prepared.definition.permission = .confirm →
    ∃ approvalId, execution.source = .approvalResponse approvalId
  /-- which has consumed an approval for the invocation -/
  consumed : ∀ approvalId, execution.source = .approvalResponse approvalId →
    ∃ principal record response now, record.approvalId = approvalId ∧
      Consumed crypto pre i principal record response execution.invocation now
  /-- with which no other handler was started -/
  unused : ∀ approvalId, execution.source = .approvalResponse approvalId → Unused pre approvalId
  /-- and the tool and its input are those of the invocation -/
  prepares : Prepares execution.invocation execution.prepared

theorem Effect.startOk {fresh : Option UUID} {i j : ℕ} {conn conn' : Connection}
    {approvals approvals' : PendingApprovals} (hconn : ConnectionInv crypto es i conn)
    (heff : Effect crypto fresh i conn approvals conn' approvals' out) {execution : Execution}
    {healthy : Bool} (hmem : .started j execution healthy ∈ out) : StartOk crypto es j execution := by
  obtain ⟨rfl, hbefore, -⟩ := heff.started hmem
  obtain ⟨hauthorised, hprepares, hunused⟩ := hconn.accepted _ hbefore
  refine ⟨fun hconfirm => ?_, fun id hid => ?_, hunused, hprepares⟩
  · unfold Authorised at hauthorised
    split at hauthorised
    · exact absurd hconfirm hauthorised
    · rename_i id hid
      exact ⟨id, hid⟩
  · simpa only [Authorised, hid] using hauthorised

/-- **CONFIRM tools run only with an approval.** In every run of any number of connections, whatever
they receive and however they interleave, the handler of a CONFIRM tool is started from an approval
response. The connection has consumed an approval that was issued on it for its principal, the task,
the tool and the arguments, that was unexpired, and that is signed with the key of its principal's
credential. No approval leads to a second start. -/
theorem confirm_needs_approval
    (h : Machine.Reaches (step protocol crypto maxMessageBytes) FreshApprovalIds
      (System.initial registry) s es) :
    Machine.AtEach (fun pre e => ∀ i execution healthy, e = .started i execution healthy →
      StartOk crypto pre i execution) es := by
  induction h with
  | start => exact Machine.atEach_nil
  | step h hok hs ih =>
    refine Machine.atEach_append ih ?_
    have hinv := reaches_approvalInv h
    intro pre e post hout i execution healthy he
    subst he
    have hmem : .started i execution healthy ∈ pre ++ .started i execution healthy :: post := by simp
    rw [← hout] at hmem
    rcases step_cases hs with ⟨_, _, _, rfl, _⟩ | ⟨_, rfl, _⟩ |
      ⟨j, conn, conn', approvals', hconn, heff, _⟩
    · simp at hmem
    · simp at hmem
    · -- the start is the only event of its step
      obtain ⟨-, -, rfl⟩ := heff.started hmem
      have hpre : pre = [] := by
        have hlength := congrArg List.length hout
        simp only [List.length_cons, List.length_nil, List.length_append] at hlength
        exact List.length_eq_zero_iff.1 (by omega)
      subst hpre
      rw [List.append_nil]
      exact heff.startOk (hinv.connections j conn hconn) hmem

/-! ### A run -/

theorem step_issued (hs : step protocol crypto maxMessageBytes s a = some (s', out)) {i : ℕ}
    {record : IssuedApprovalRecord} (hmem : .issued i record ∈ out) :
    a.approvalId? = some record.approvalId := by
  rcases step_cases hs with ⟨_, _, _, rfl, _⟩ | ⟨_, rfl, _⟩ | ⟨_, _, _, _, _, heff, _⟩
  · simp at hmem
  · simp at hmem
  · cases heff with
    | quiet _ _ hout => simpa [Event.isQuiet] using hout _ hmem
    | accept _ _ _ _ _ hout => simpa [Event.isQuiet] using hout _ hmem
    | consume _ _ _ _ _ _ _ _ _ hout => simpa [Event.isQuiet] using hout _ hmem
    | start => simp at hmem
    | issue hfresh _ _ _ _ _ _ _ _ _ hout =>
      have heq := (hout _ hmem).resolve_left (by simp [Event.isQuiet])
      cases heq
      exact hfresh

/-- Distinct ids are fresh. -/
theorem allowed_of_nodup {as : List Action} (h : (as.filterMap Action.approvalId?).Nodup)
    (hes : ∀ i record, .issued i record ∈ es →
      record.approvalId ∉ as.filterMap Action.approvalId?) :
    Machine.Allowed (step protocol crypto maxMessageBytes) FreshApprovalIds s es as := by
  induction as generalizing s es with
  | nil => trivial
  | cons a as ih =>
    rw [List.filterMap_cons] at h hes
    refine ⟨fun id hid i record hmem heq => ?_, fun s' out hs => ih ?_ fun i record hmem hid => ?_⟩
    · rw [Option.mem_def.1 hid] at hes
      exact hes i record hmem (by simp [heq])
    · cases ha : a.approvalId? with
      | none => simpa only [ha] using h
      | some id =>
        rw [ha] at h
        exact (List.nodup_cons.1 h).2
    · rcases List.mem_append.1 hmem with hmem | hmem
      · refine hes i record hmem ?_
        cases ha : a.approvalId? with
        | none => simpa using hid
        | some id => simp [hid]
      · rw [step_issued hs hmem] at h
        exact (List.nodup_cons.1 h).1 hid

/-- The key of a phone, with which it has signed that Calendar may be opened. -/
def deviceKey : Bytes :=
  (b64decode ("MFkwEwYHKoZIzj0CAQYIKoZIzj0DAQcDQgAE".toList ++
    "TpUyZNPUPzPoNhbHKJs93bv6yyjCIMIp/HE63mfAHL".toList ++
    "UDbQISawwK5GsK6ul+KgqqUAwIPxcc/MPP6LXPCC/GVA==".toList)).getD []

def deviceSignature : Str :=
  "MEQCIBdVKpFkLDU+J8+VC838hMhTpp8PL2YJcWYt/Hzw".toList ++
    "8rvtAiAWKNHpwFCqgC7O8QDnrR0lmV+opzWAA5bkyowGBWGnQA==".toList

/-- ECDSA on the one signature of the run, which is over a digest. -/
def deviceCrypto : Crypto where
  load key := if key = deviceKey then .p256 else .undecodable
  verify key signature payload := key = deviceKey ∧ some signature = b64decode deviceSignature ∧
    hex (sha256 payload).val = "9ba9f71fa152c1d011f93799aa0c0a62df942121748f83d2c50f886cce0821c0".toList

def devicePrincipal : AuthenticatedPrincipal where
  kind := .paired
  clientId := Auth.pairedClientId 7
  subject := Auth.pairedClientId 7
  scopes := [Auth.safeToolScope]
  credentialId := some 7
  approvalPublicKeySpkiDer := some deviceKey

def openTool : ToolDefinition where
  objectId := 0
  name := "mac.apps.open".toList
  permission := .confirm
  inputModel
    | [(key, .str name)] =>
      if key = "displayName".toList ∧ name ≠ [] then some (.object [(key, .str name)]) else none
    | _ => none

def openRegistry : ToolRegistry where
  tools := Dict.empty.set openTool.name openTool
  healthy _ := true
  names name definition h := by
    rw [Dict.get?_set] at h
    split at h
    · cases h
      assumption
    · simp at h

def openArguments : List (Str × Json) := [("displayName".toList, .str "Calendar".toList)]

def openResponse : ApprovalResponsePayload where
  approvalId := 100
  taskId := 50
  approved := true
  proof := some ⟨"goffy.approval.proof.v1".toList, "ECDSA_P256_SHA256".toList,
    "7f81f663eb30b2a19692c1a84e799c805eec5533178afb202f1e069d4350cf51".toList, deviceSignature⟩

/-- The payloads of a discovery, an invocation and a response. -/
def discoveryPayload : List (Str × Json) := [("toolName".toList, .str openTool.name)]

def invocationPayload : List (Str × Json) :=
  [("toolName".toList, .str openTool.name), ("arguments".toList, .object openArguments),
    ("taskId".toList, .str (uuidStr 50))]

def responsePayload : List (Str × Json) :=
  [("schemaVersion".toList, .str "goffy.approval.v1".toList),
    ("approvalId".toList, .str (uuidStr 100)), ("taskId".toList, .str (uuidStr 50)),
    ("approved".toList, .bool true),
    ("proof".toList, .object [("schemaVersion".toList, .str "goffy.approval.proof.v1".toList),
      ("algorithm".toList, .str "ECDSA_P256_SHA256".toList),
      ("publicKeySha256".toList, .str
        "7f81f663eb30b2a19692c1a84e799c805eec5533178afb202f1e069d4350cf51".toList),
      ("signatureBase64".toList, .str deviceSignature)])]

/-- The text of a message. -/
def messageText (messageId : UUID) (messageType : String) (payload : List (Str × Json)) : Str :=
  (Json.object [("protocolVersion".toList, .str "0.2.0".toList),
    ("messageId".toList, .str (uuidStr messageId)),
    ("timestamp".toList, .str "2026-07-20T12:00:00Z".toList),
    ("deviceId".toList, .str "phone-1".toList), ("messageType".toList, .str messageType.toList),
    ("payload".toList, .object payload)]).dumps

def discoveryText : Str := messageText 1 "CapabilityDiscoveryRequest" discoveryPayload
def invocationText : Str := messageText 2 "ToolInvocation" invocationPayload
def responseText : Str := messageText 3 "ApprovalResponse" responsePayload

/-- The protocol models on these messages. -/
def openProtocol : Protocol where
  messageEnvelope raw :=
    if raw = discoveryText then some ⟨1, .capabilityDiscoveryRequest, discoveryPayload⟩
    else if raw = invocationText then some ⟨2, .toolInvocation, invocationPayload⟩
    else if raw = responseText then some ⟨3, .approvalResponse, responsePayload⟩
    else none
  capabilityDiscoveryRequestPayload payload :=
    if (Json.object payload).dumps = (Json.object discoveryPayload).dumps then some openTool.name
    else none
  toolInvocationPayload payload :=
    if (Json.object payload).dumps = (Json.object invocationPayload).dumps then
      some ⟨openTool.name, openArguments, some 50⟩
    else none
  approvalResponsePayload payload :=
    if (Json.object payload).dumps = (Json.object responsePayload).dumps then some openResponse
    else none

def openRun : List Action :=
  [.connect 0 devicePrincipal, .receive 0 discoveryText ⟨98, 0, 0, 0⟩, .send 0 true,
    .receive 0 invocationText ⟨100, 1000, 1000, 1000⟩, .send 0 true,
    .receive 0 responseText ⟨102, 2000, 2000, 2000⟩, .send 0 true]

/-- The handlers that were started: by which connection, from where, for which kind of tool. -/
def starts (es : List Event) : List (ℕ × Source × PermissionLevel) :=
  es.filterMap fun
    | .started i execution _ => some (i, execution.source, execution.prepared.definition.permission)
    | _ => none

theorem started_of_mem_starts {i : ℕ} {source : Source} {permission : PermissionLevel}
    (h : (i, source, permission) ∈ starts es) : ∃ pre execution healthy post,
      es = pre ++ .started i execution healthy :: post ∧ execution.source = source ∧
        execution.prepared.definition.permission = permission := by
  obtain ⟨e, he, hproj⟩ := List.mem_filterMap.1 h
  cases e with
  | started j execution healthy =>
    simp only [Option.some.injEq, Prod.mk.injEq] at hproj
    obtain ⟨rfl, hsource, hpermission⟩ := hproj
    obtain ⟨pre, post, rfl⟩ := List.append_of_mem he
    exact ⟨pre, execution, healthy, post, rfl, hsource, hpermission⟩
  | _ => cases hproj

/-- The connections and their principals. -/
def connectedAs : Event → Option (ℕ × AuthenticatedPrincipal)
  | .connected i principal => some (i, principal)
  | _ => none

/-- The approvals that are issued. -/
def issuedOn : Event → Option (ℕ × IssuedApprovalRecord)
  | .issued i record => some (i, record)
  | _ => none

/-- The approval of `openRun`. -/
def openRecord : IssuedApprovalRecord where
  approvalId := 100
  principalKey := principalKey devicePrincipal
  taskId := 50
  toolName := "mac.apps.open".toList
  argumentsSha256 := canonicalArgumentsSha256 openArguments
  issuedAtEpochMillis := 1000
  expiresAtEpochMillis := 61000

/-- On the one connection there is, the one approval is issued, and Calendar is opened with it. -/
def OpensCalendar (es : List Event) : Prop :=
  starts es = [(0, .approvalResponse 100, .confirm)] ∧
    es.filterMap connectedAs = [(0, devicePrincipal)] ∧ es.filterMap issuedOn = [(0, openRecord)]

instance (es : List Event) : Decidable (OpensCalendar es) := inferInstanceAs (Decidable (_ ∧ _ ∧ _))

theorem openRun_opens : (Machine.run (step openProtocol deviceCrypto 65536) (System.initial openRegistry)
    openRun).any (fun r => decide (OpensCalendar r.2)) = true := by
  unfold openRun discoveryText invocationText responseText messageText openProtocol openRegistry
    discoveryText invocationText responseText messageText
    openTool discoveryPayload invocationPayload responsePayload openArguments openResponse
    deviceSignature
  repeat rw [String.toList_ofList]
  decide +kernel

theorem openRun_reaches : ∃ s es, Machine.Reaches (step openProtocol deviceCrypto 65536)
    FreshApprovalIds (System.initial openRegistry) s es ∧ OpensCalendar es := by
  obtain ⟨⟨s, es⟩, hrun, hopens⟩ := (Option.any_eq_true _ _).1 openRun_opens
  have hfresh : Machine.Allowed (step openProtocol deviceCrypto 65536) FreshApprovalIds
      (System.initial openRegistry) [] openRun := allowed_of_nodup (by decide) (by simp)
  exact ⟨s, es, Machine.reaches_of_run hfresh hrun, of_decide_eq_true hopens⟩

/-- The phone discovers the tool, invokes it and approves it, and Calendar is opened. -/
theorem approved_open_starts : ∃ s es pre execution healthy post,
    Machine.Reaches (step openProtocol deviceCrypto 65536) FreshApprovalIds
        (System.initial openRegistry) s es ∧
      es = pre ++ .started 0 execution healthy :: post ∧
      execution.prepared.definition.permission = .confirm ∧
      StartOk deviceCrypto pre 0 execution := by
  obtain ⟨s, es, hreach, hstarts, -, -⟩ := openRun_reaches
  have hmem : (0, Source.approvalResponse 100, PermissionLevel.confirm) ∈ starts es := by
    rw [hstarts]
    exact List.mem_singleton_self _
  obtain ⟨pre, execution, healthy, post, rfl, -, hconfirm⟩ := started_of_mem_starts hmem
  exact ⟨s, _, pre, execution, healthy, post, hreach, rfl, hconfirm,
    confirm_needs_approval hreach pre _ post rfl 0 execution healthy rfl⟩

end Runs

end GoffyHub.WebSocket
