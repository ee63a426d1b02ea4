import GoffyOs.Hub.WebSocketApprovals

/-!
# Approvals do not outlive their connection

All connections share the capacity of the approval store. An approval is recorded twice: in the store
and among the pending invocations of the connection on which it was issued. A step may remove it from
the store alone (an expired approval is pruned by whichever connection issues the next one), but
never from the connection alone.

* `Held` says this of a step of one connection;
* `CapacityInv` is the invariant of the whole Hub, beside `ApprovalInv`, from which the connection of
  an approval is known to be unique;
* `approvals_belong_to_live_connections` is the result over runs.
-/

namespace GoffyHub.WebSocket

open Python
open Approval
open Registry

/-! ### What a step can do -/

/-- An approval in the store after a step is pending on the connection, or was in the store before
and not the connection's. -/
structure Stored (conn : Connection) (approvals : PendingApprovals) (conn' : Connection)
    (approvals' : PendingApprovals) : Prop where
  owned : ∀ id record, approvals'.get? id = some record →
    (∃ p, conn'.pending.get? id = some p) ∨
      approvals.get? id = some record ∧ conn.pending.get? id = none
  size : approvals.size ≤ maxPendingApprovals → approvals'.size ≤ maxPendingApprovals

/-- A connection whose approval was denied still has it, while it sends the error. -/
def DeniedGone (conn : Connection) (approvals : PendingApprovals) : Prop :=
  ∀ error correlationId id, conn.task = .sendingError error correlationId (some id) →
    approvals.get? id = none

/-- A step of a connection, with the tasks it may end in. -/
structure Held (conn : Connection) (approvals : PendingApprovals) (conn' : Connection)
    (approvals' : PendingApprovals) : Prop where
  stored : Stored conn approvals conn' approvals'
  exited : conn'.task = .exited → conn'.pending = Dict.empty
  denied : DeniedGone conn' approvals'
  deniedPending : ∀ error correlationId id,
    conn'.task = .sendingError error correlationId (some id) → ∃ p, conn.pending.get? id = some p

section Steps

variable {protocol : Protocol} {crypto : Crypto} {registry : ToolRegistry} {maxMessageBytes i : ℕ}
  {conn conn₀ conn' : Connection} {approvals approvals₀ approvals' : PendingApprovals}
  {outcome : Outcome}

/-- The store has at most lost approvals, and the connection has not. -/
theorem Stored.of_pending_eq (hpending : conn'.pending = conn.pending)
    (hsub : ∀ id record, approvals'.get? id = some record → approvals.get? id = some record)
    (hsize : approvals'.size ≤ approvals.size) : Stored conn approvals conn' approvals' where
  owned id record hr := by
    cases hp : conn.pending.get? id with
    | none => exact Or.inr ⟨hsub id record hr, rfl⟩
    | some p => exact Or.inl ⟨p, hpending ▸ hp⟩
  size h := hsize.trans h

theorem Stored.refl (hpending : conn'.pending = conn.pending) :
    Stored conn approvals conn' approvals :=
  .of_pending_eq hpending (fun _ _ hr => hr) le_rfl

/-- An approval is removed from the connection that is not in the store. -/
theorem Stored.pop {id : UUID} (hgone : approvals'.get? id = none)
    (hpending : conn'.pending = conn.pending.pop id)
    (hsub : ∀ id record, approvals'.get? id = some record → approvals.get? id = some record)
    (hsize : approvals'.size ≤ approvals.size) : Stored conn approvals conn' approvals' where
  owned id' record hr := by
    have hne : id ≠ id' := by
      rintro rfl
      rw [hgone] at hr
      cases hr
    cases hp : conn.pending.get? id' with
    | none => exact Or.inr ⟨hsub id' record hr, rfl⟩
    | some p =>
      refine Or.inl ⟨p, ?_⟩
      rw [hpending, Dict.get?_pop, if_neg hne, hp]
  size h := hsize.trans h

theorem get?_pop_none (id : UUID) : (approvals.pop id).get? id = none := by
  rw [Dict.get?_pop, if_pos rfl]

/-- A task that is neither the end nor the error for a denied approval. -/
theorem Stored.toHeld (h : Stored conn approvals conn' approvals') (hexited : conn'.task ≠ .exited)
    (herror : ∀ error correlationId id, conn'.task ≠ .sendingError error correlationId (some id)) :
    Held conn approvals conn' approvals' :=
  ⟨h, fun heq => absurd heq hexited, fun _ _ _ heq => absurd heq (herror _ _ _),
    fun _ _ _ heq => absurd heq (herror _ _ _)⟩

/-- Only other parts of the connection change. -/
theorem held_of_pending_eq (hpending : conn'.pending = conn.pending) (hexited : conn'.task ≠ .exited)
    (herror : ∀ error correlationId id, conn'.task ≠ .sendingError error correlationId (some id)) :
    Held conn approvals conn' approvals := (Stored.refl hpending).toHeld hexited herror

/-- `discard` for all ids of a list. -/
theorem get?_discard_all {ids : List UUID} {id : UUID} {record : IssuedApprovalRecord}
    (h : (ids.foldl discard approvals).get? id = some record) : id ∉ ids := by
  induction ids generalizing approvals with
  | nil => exact List.not_mem_nil
  | cons id' ids ih =>
    intro hmem
    rcases List.mem_cons.1 hmem with rfl | hmem
    · have hget : (approvals.pop id).get? id = some record := get?_foldl_discard h
      rw [get?_pop_none] at hget
      cases hget
    · exact ih h hmem

theorem size_discard_all (ids : List UUID) (approvals : PendingApprovals) :
    (ids.foldl discard approvals).size ≤ approvals.size := by
  induction ids generalizing approvals with
  | nil => exact le_rfl
  | cons id ids ih => exact (ih _).trans Dict.size_pop_le

/-- The `finally` block leaves nothing of the connection in the store. -/
theorem Stored.exit (h : Stored conn approvals conn₀ approvals₀) :
    Held conn approvals (WebSocket.exit conn₀ approvals₀).1 (WebSocket.exit conn₀ approvals₀).2.1 where
  stored :=
    { owned := fun id record hr => by
        refine Or.inr ((h.owned id record (get?_foldl_discard hr)).resolve_left ?_)
        rintro ⟨p, hp⟩
        exact get?_discard_all hr (Dict.mem_keys_iff.2 ⟨p, hp⟩)
      size := fun hsize => (size_discard_all _ _).trans (h.size hsize) }
  exited _ := rfl
  denied := by simp [DeniedGone, WebSocket.exit]
  deniedPending := by simp [WebSocket.exit]

theorem Stored.finish (h : Stored conn approvals conn₀ approvals₀) :
    Held conn approvals (WebSocket.finish conn₀ approvals₀).1
      (WebSocket.finish conn₀ approvals₀).2.1 := by
  unfold WebSocket.finish
  split
  · exact h.exit
  · exact Stored.toHeld ⟨h.owned, h.size⟩ (by simp) (by simp)

theorem held_sendError (code message : String) (correlationId : Option UUID)
    (hpending : conn₀.pending = conn.pending) :
    Held conn approvals (conn₀.sendError code message correlationId) approvals :=
  held_of_pending_eq hpending (by simp [Connection.sendError]) (by simp [Connection.sendError])

theorem held_handleApprovalMessage {envelope : MessageEnvelope} {readings : Readings}
    (h : handleApprovalMessage protocol crypto i conn approvals envelope readings = outcome) :
    Held conn approvals outcome.1 outcome.2.1 := by
  unfold handleApprovalMessage at h
  simp only at h
  split at h
  · subst h
    exact held_sendError _ _ _ rfl
  split at h
  · subst h
    exact held_sendError _ _ _ rfl
  rename_i response _
  unfold handleApprovalResponse at h
  split at h
  · subst h
    exact held_sendError _ _ _ rfl
  rename_i p hp
  simp only at h
  split at h
  · subst h
    exact held_sendError _ _ _ rfl
  split at h
  · rename_i approvals' error hconsume
    subst h
    have hstored : ∀ {conn' : Connection}, conn'.pending = conn.pending →
        Stored conn approvals conn' approvals' := by
      intro conn' hpending
      rcases consume_error hconsume with rfl | rfl
      · exact .refl hpending
      · exact .of_pending_eq hpending (fun _ _ => Dict.get?_of_get?_pop) Dict.size_pop_le
    -- only a denial leaves the approval to be dropped after the send
    refine ⟨hstored rfl, by simp, fun e correlationId id htask => ?_,
      fun e correlationId id htask => ?_⟩
    · simp only [Task.sendingError.injEq] at htask
      obtain ⟨-, -, hdenied⟩ := htask
      split at hdenied
      · rename_i hcode
        obtain rfl := Option.some.inj hdenied
        exact consume_denied hconsume hcode
      · cases hdenied
    · simp only [Task.sendingError.injEq] at htask
      obtain ⟨-, -, hdenied⟩ := htask
      split at hdenied
      · obtain rfl := Option.some.inj hdenied
        exact ⟨p, hp⟩
      · cases hdenied
  · rename_i approvals' record hconsume
    subst h
    obtain ⟨-, rfl, -⟩ := consume_ok hconsume
    have hstored : Stored conn approvals
        { conn with pending := conn.pending.pop response.approvalId } (approvals.pop response.approvalId) :=
      .pop (get?_pop_none _) rfl (fun _ _ => Dict.get?_of_get?_pop) Dict.size_pop_le
    exact Stored.toHeld ⟨hstored.owned, hstored.size⟩ (by simp) (by simp)

theorem held_handleDiscovery {envelope : MessageEnvelope}
    (h : handleDiscovery protocol registry i conn approvals envelope = outcome) :
    Held conn approvals outcome.1 outcome.2.1 := by
  unfold handleDiscovery at h
  simp only at h
  split at h
  · subst h
    exact held_sendError _ _ _ rfl
  split at h
  · subst h
    exact held_of_pending_eq rfl (by simp) (by simp)
  · subst h
    exact held_of_pending_eq rfl (by simp) (by simp)

theorem held_handleConfirm {envelope : MessageEnvelope} {invocation : ToolInvocationPayload}
    {prepared : PreparedToolInvocation} {readings : Readings}
    (hpending : conn₀.pending = conn.pending)
    (h : handleConfirm i conn₀ approvals envelope invocation prepared readings = outcome) :
    Held conn approvals outcome.1 outcome.2.1 := by
  unfold handleConfirm at h
  split at h
  · have hsize : approvals.size ≤ maxPendingApprovals → _ := issue_size (principalKey conn₀.principal)
      invocation readings.approvalId readings.pruneAt readings.issuedAt
    split at h
    · rename_i approvals' error hissue
      subst h
      rw [hissue] at hsize
      refine Stored.toHeld ⟨fun id record hr => ?_, hsize⟩ (by simp [Connection.sendError])
        (by simp [Connection.sendError])
      cases hp : conn.pending.get? id with
      | none => exact Or.inr ⟨issue_error hissue hr, rfl⟩
      | some p => exact Or.inl ⟨p, hpending ▸ hp⟩
    · rename_i approvals' record hissue
      subst h
      rw [hissue] at hsize
      obtain ⟨hid, hstore⟩ := issue_ok hissue
      refine Stored.toHeld ⟨fun id r hr => ?_, hsize⟩ (by simp) (by simp)
      simp only [Dict.get?_set, hpending]
      split
      · exact Or.inl ⟨_, rfl⟩
      · rename_i hne
        have hold := (hstore id r hr).resolve_left fun hnew => hne (hid.trans hnew.1.symm)
        cases hp : conn.pending.get? id with
        | none => exact Or.inr ⟨hold, rfl⟩
        | some p => exact Or.inl ⟨p, rfl⟩
  · subst h
    exact held_sendError _ _ _ hpending

theorem held_handleInvocation {envelope : MessageEnvelope} {readings : Readings}
    (h : handleInvocation protocol registry i conn approvals envelope readings = outcome) :
    Held conn approvals outcome.1 outcome.2.1 := by
  unfold handleInvocation at h
  simp only at h
  split at h
  · subst h
    exact held_sendError _ _ _ rfl
  split at h
  · subst h
    exact held_sendError _ _ _ rfl
  split at h
  · subst h
    exact held_sendError _ _ _ rfl
  · subst h
    exact held_sendError _ _ _ rfl
  split at h
  · subst h
    exact held_sendError _ _ _ rfl
  split at h
  · exact held_handleConfirm (by exact rfl) h
  split at h
  · subst h
    exact held_sendError _ _ _ rfl
  · subst h
    exact held_of_pending_eq rfl (by simp) (by simp)

theorem held_dispatch {envelope : MessageEnvelope} {readings : Readings}
    (h : dispatch protocol crypto registry i conn approvals envelope readings = outcome) :
    Held conn approvals outcome.1 outcome.2.1 := by
  unfold dispatch at h
  split at h
  · exact held_handleApprovalMessage h
  · exact held_handleDiscovery h
  · exact held_handleInvocation h
  · subst h
    exact held_sendError _ _ _ rfl

theorem held_handleMessage {raw : Str} {readings : Readings}
    (h : handleMessage protocol crypto registry i conn approvals raw readings = outcome) :
    Held conn approvals outcome.1 outcome.2.1 := by
  unfold handleMessage at h
  split at h
  · subst h
    exact held_sendError _ _ _ rfl
  split at h
  · subst h
    exact held_sendError _ _ _ rfl
  split at h
  · subst h
    exact held_sendError _ _ _ rfl
  rename_i envelope _ _ _
  simp only at h
  generalize hinner : dispatch protocol crypto registry i _ approvals envelope readings = inner at h
  obtain ⟨hstored, hexited, hdenied, hpending⟩ := held_dispatch hinner
  subst h
  exact ⟨⟨hstored.owned, hstored.size⟩, hexited, hdenied, hpending⟩

theorem held_afterSend (sent : Bool) (hdenied : DeniedGone conn approvals)
    (h : afterSend registry i conn approvals sent = some outcome) :
    Held conn approvals outcome.1 outcome.2.1 := by
  unfold afterSend at h
  simp only at h
  generalize hconn₀ : (if sent = true then conn else { conn with outboundClosed := true }) = conn₀
    at h
  have hpending : conn₀.pending = conn.pending := by
    subst hconn₀
    split <;> rfl
  have htask : conn₀.task = conn.task := by
    subst hconn₀
    split <;> rfl
  have hsame : Stored conn approvals conn₀ approvals := .refl hpending
  split at h
  · cases h
    exact hsame.finish
  · rename_i id heq
    cases h
    refine Stored.finish (.pop (hdenied _ _ id (htask ▸ heq)) ?_ (fun _ _ hr => hr) le_rfl)
    rw [hpending]
  · cases h
    exact hsame.exit
  · cases h
    exact hsame.finish
  · rename_i record _ _
    split at h
    · cases h
      exact hsame.finish
    · cases h
      refine Stored.finish (.pop (get?_pop_none record.approvalId) ?_
        (fun _ _ => Dict.get?_of_get?_pop) Dict.size_pop_le)
      rw [hpending]
  · split at h
    · cases h
      unfold invokePrepared
      split
      · exact held_of_pending_eq hpending (by simp) (by simp)
      · exact hsame.exit
    · cases h
      exact hsame.finish
  · split at h
    · cases h
      exact held_of_pending_eq hpending (by simp) (by simp)
    · cases h
      exact hsame.finish
  · split at h
    · cases h
      exact held_of_pending_eq hpending (by simp) (by simp)
    · cases h
      exact hsame.finish
  · cases h
    exact hsame.finish
  all_goals cases h

theorem held_afterInvoke (succeeded : Bool)
    (h : afterInvoke conn approvals succeeded = some outcome) :
    Held conn approvals outcome.1 outcome.2.1 := by
  unfold afterInvoke at h
  split at h
  · split at h
    · cases h
      exact held_of_pending_eq rfl (by simp) (by simp)
    · cases h
      exact held_sendError _ _ _ rfl
  · cases h

theorem held_react {s : System} {a : Action} (hdenied : DeniedGone conn s.approvals)
    (h : react protocol crypto maxMessageBytes s conn a = some outcome) :
    Held conn s.approvals outcome.1 outcome.2.1 := by
  cases a with
  | connect => cases h
  | setHealth => cases h
  | receive j raw readings =>
    simp only [react] at h
    split at h
    · split at h
      · cases h
        exact held_of_pending_eq rfl (by simp) (by simp)
      · generalize hinner : handleMessage protocol crypto s.registry j conn s.approvals raw readings =
          inner at h
        have hheld := held_handleMessage hinner
        cases h
        exact hheld
    · cases h
  | send j sent => exact held_afterSend sent hdenied h
  | invoke j succeeded => exact held_afterInvoke succeeded h
  | interrupt j =>
    simp only [react] at h
    split at h
    · cases h
    · cases h
      exact (Stored.refl rfl).exit

end Steps

/-! ### The invariant -/

/-- What holds of the store and the connections, beside `ApprovalInv`. -/
structure CapacityInv (s : System) (es : List Event) : Prop where
  owner : ∀ id record, s.approvals.get? id = some record →
    ∃ i conn p, s.connections i = some conn ∧ conn.pending.get? id = some p
  size : s.approvals.size ≤ maxPendingApprovals
  exited : ∀ i conn, s.connections i = some conn → conn.task = .exited → conn.pending = Dict.empty
  denied : ∀ i conn, s.connections i = some conn → DeniedGone conn s.approvals
  deniedIssued : ∀ i conn error correlationId id, s.connections i = some conn →
    conn.task = .sendingError error correlationId (some id) →
    ∃ record, record.approvalId = id ∧ .issued i record ∈ es

section Runs

variable {protocol : Protocol} {crypto : Crypto} {maxMessageBytes : ℕ} {s s' : System}
  {es out : List Event} {a : Action} {registry : ToolRegistry}

/-- An approval that a step adds to the store has a new id. -/
theorem Effect.stored_or_fresh {fresh : Option UUID} {i : ℕ} {conn conn' : Connection}
    {approvals approvals' : PendingApprovals}
    (h : Effect crypto fresh i conn approvals conn' approvals' out) {id : UUID}
    {record : IssuedApprovalRecord} (hr : approvals'.get? id = some record) :
    approvals.get? id = some record ∨ fresh = some id := by
  cases h with
  | quiet hkept => exact Or.inl (hkept.approvals id record hr)
  | accept hkept => exact Or.inl (hkept.approvals id record hr)
  | issue hfresh _ _ happrovals =>
    rcases happrovals id record hr with ⟨rfl, -⟩ | hold
    · exact Or.inr hfresh
    · exact Or.inl hold
  | consume hkept => exact Or.inl (hkept.approvals id record hr)
  | start hkept => exact Or.inl (hkept.approvals id record hr)

theorem CapacityInv.step (h : CapacityInv s es) (hinv : ApprovalInv crypto s es)
    (hfresh : FreshApprovalIds s es a)
    (hs : WebSocket.step protocol crypto maxMessageBytes s a = some (s', out)) :
    CapacityInv s' (es ++ out) := by
  rcases step_eq_some hs with ⟨i, principal, hnone, rfl, rfl⟩ | ⟨healthy, rfl, rfl⟩ |
    ⟨i, conn, outcome, hi, hconn, hreact, happly⟩
  · refine ⟨fun id record hr => ?_, h.size, fun j other hj => ?_, fun j other hj => ?_,
      fun j other error correlationId id hj htask => ?_⟩
    · obtain ⟨j, other, p, hj, hp⟩ := h.owner id record hr
      have hne : j ≠ i := by
        rintro rfl
        rw [hnone] at hj
        cases hj
      exact ⟨j, other, p, (Function.update_of_ne hne ..).trans hj, hp⟩
    · rcases Machine.update_eq_some_iff.1 hj with ⟨rfl, heq⟩ | ⟨-, hj⟩
      · obtain rfl := Option.some.inj heq
        exact fun _ => rfl
      · exact h.exited j other hj
    · rcases Machine.update_eq_some_iff.1 hj with ⟨rfl, heq⟩ | ⟨-, hj⟩
      · obtain rfl := Option.some.inj heq
        simp [DeniedGone, Connection.opened]
      · exact h.denied j other hj
    · rcases Machine.update_eq_some_iff.1 hj with ⟨rfl, heq⟩ | ⟨-, hj⟩
      · obtain rfl := Option.some.inj heq
        simp [Connection.opened] at htask
      · obtain ⟨record, hid, hissued⟩ := h.deniedIssued j other error correlationId id hj htask
        exact ⟨record, hid, List.mem_append_left _ hissued⟩
  · rw [List.append_nil]
    exact ⟨h.owner, h.size, h.exited, h.denied, h.deniedIssued⟩
  · cases happly
    have hheld := held_react (h.denied i conn hconn) hreact
    have heff := effect_react hi hreact
    refine ⟨fun id record hr => ?_, hheld.stored.size h.size, fun j other hj => ?_,
      fun j other hj => ?_, fun j other error correlationId id hj htask => ?_⟩
    · rcases hheld.stored.owned id record hr with ⟨p, hp⟩ | ⟨hold, hmine⟩
      · exact ⟨i, outcome.1, p, Function.update_self .., hp⟩
      · obtain ⟨j, other, p, hj, hp⟩ := h.owner id record hold
        have hne : j ≠ i := by
          rintro rfl
          obtain rfl := Option.some.inj (hconn.symm.trans hj)
          rw [hmine] at hp
          cases hp
        exact ⟨j, other, p, (Function.update_of_ne hne ..).trans hj, hp⟩
    · rcases Machine.update_eq_some_iff.1 hj with ⟨rfl, heq⟩ | ⟨-, hj⟩
      · obtain rfl := Option.some.inj heq
        exact hheld.exited
      · exact h.exited j other hj
    · rcases Machine.update_eq_some_iff.1 hj with ⟨rfl, heq⟩ | ⟨-, hj⟩
      · obtain rfl := Option.some.inj heq
        exact hheld.denied
      · -- the id of the denied approval was issued, so no other connection brings it back
        intro error correlationId id htask
        obtain ⟨record, hid, hissued⟩ := h.deniedIssued j other error correlationId id hj htask
        refine Option.eq_none_iff_forall_ne_some.2 fun record' hr => ?_
        rcases heff.stored_or_fresh hr with hold | hnew
        · rw [h.denied j other hj error correlationId id htask] at hold
          cases hold
        · exact hfresh id hnew j record hissued hid
    · rcases Machine.update_eq_some_iff.1 hj with ⟨rfl, heq⟩ | ⟨-, hj⟩
      · obtain rfl := Option.some.inj heq
        obtain ⟨p, hp⟩ := hheld.deniedPending error correlationId id htask
        obtain ⟨record, hid, hissued⟩ := ((hinv.connections j conn hconn).pending id p hp).issued
        exact ⟨record, hid, List.mem_append_left _ hissued⟩
      · obtain ⟨record, hid, hissued⟩ := h.deniedIssued j other error correlationId id hj htask
        exact ⟨record, hid, List.mem_append_left _ hissued⟩

theorem reaches_capacityInv
    (h : Machine.Reaches (step protocol crypto maxMessageBytes) FreshApprovalIds
      (System.initial registry) s es) : ApprovalInv crypto s es ∧ CapacityInv s es := by
  have hcap₀ : CapacityInv (System.initial registry) [] := by
    refine ⟨?_, Nat.zero_le _, ?_, ?_, ?_⟩ <;> simp [System.initial]
  induction h with
  | start => exact ⟨approvalInv_initial, hcap₀⟩
  | step _ hfresh hs ih => exact ⟨ih.1.step hfresh hs, ih.2.step ih.1 hfresh hs⟩

/-- Connection `i` is in its loop, with a pending invocation for an approval. -/
def PendingOn (s : System) (id : UUID) (i : ℕ) : Prop :=
  ∃ conn p, s.connections i = some conn ∧ conn.task ≠ .exited ∧ conn.pending.get? id = some p

/-- An approval pending on two connections is pending on one. -/
theorem ApprovalInv.pendingOn_unique (h : ApprovalInv crypto s es) {id : UUID} {i j : ℕ}
    (hi : PendingOn s id i) (hj : PendingOn s id j) : i = j := by
  obtain ⟨conn, p, hconn, -, hp⟩ := hi
  obtain ⟨conn', p', hconn', -, hp'⟩ := hj
  obtain ⟨record, hid, hissued⟩ := ((h.connections i conn hconn).pending id p hp).issued
  obtain ⟨record', hid', hissued'⟩ := ((h.connections j conn' hconn').pending id p' hp').issued
  exact (h.store.issuedOnce i j record record' hissued hissued' (hid.trans hid'.symm)).1

/-- **Approvals do not outlive their connection.** Every approval in the store is pending on exactly
one connection that is in its loop, the store is within its capacity, and no approval of a connection
that has left its loop is in the store. -/
theorem approvals_belong_to_live_connections
    (h : Machine.Reaches (step protocol crypto maxMessageBytes) FreshApprovalIds
      (System.initial registry) s es) :
    (∀ id record, s.approvals.get? id = some record → ∃! i, PendingOn s id i) ∧
    s.approvals.size ≤ maxPendingApprovals ∧
    ∀ i conn, s.connections i = some conn → conn.task = .exited →
      ∀ record, .issued i record ∈ es → s.approvals.get? record.approvalId = none := by
  obtain ⟨hinv, hcap⟩ := reaches_capacityInv h
  have howner : ∀ id record, s.approvals.get? id = some record → ∃ i, PendingOn s id i := by
    intro id record hr
    obtain ⟨i, conn, p, hconn, hp⟩ := hcap.owner id record hr
    refine ⟨i, conn, p, hconn, fun hexited => ?_, hp⟩
    rw [hcap.exited i conn hconn hexited] at hp
    cases hp
  refine ⟨fun id record hr => ?_, hcap.size, fun i conn hconn hexited record hissued => ?_⟩
  · obtain ⟨i, hi⟩ := howner id record hr
    exact ⟨i, hi, fun j hj => hinv.pendingOn_unique hj hi⟩
  · refine Option.eq_none_iff_forall_ne_some.2 fun record' hr => ?_
    obtain ⟨j, other, p, hother, hlive, hp⟩ := howner _ record' hr
    obtain ⟨record₀, hid, hissued₀⟩ := ((hinv.connections j other hother).pending _ p hp).issued
    -- the approval was issued on one connection only, and that one has left its loop
    obtain ⟨rfl, -⟩ := hinv.store.issuedOnce j i record₀ record hissued₀ hissued hid
    obtain rfl := Option.some.inj (hconn.symm.trans hother)
    exact hlive hexited

/-- Two phones invoke the tool, and the second disconnects before it has approved. -/
def disconnectRun : List Action :=
  [.connect 0 devicePrincipal, .receive 0 discoveryText ⟨98, 0, 0, 0⟩, .send 0 true,
    .receive 0 invocationText ⟨100, 1000, 1000, 1000⟩, .connect 1 devicePrincipal,
    .receive 1 discoveryText ⟨198, 0, 0, 0⟩, .send 1 true,
    .receive 1 invocationText ⟨200, 1500, 1500, 1500⟩, .interrupt 1]

/-- The approvals that were issued. -/
def issuedApprovals (es : List Event) : List (ℕ × UUID) :=
  es.filterMap fun
    | .issued i record => some (i, record.approvalId)
    | _ => none

/-- The endpoint has returned. -/
def Connection.hasExited (conn : Connection) : Bool :=
  match conn.task with
  | .exited => true
  | _ => false

theorem Connection.task_of_hasExited {conn : Connection} (h : conn.hasExited = true) :
    conn.task = .exited := by
  unfold Connection.hasExited at h
  split at h
  · assumption
  · cases h

/-- The approval of the first phone is in the store and that of the second is not. -/
theorem disconnected_approval_discarded : ∃ s es,
    Machine.Reaches (step openProtocol deviceCrypto 65536) FreshApprovalIds
        (System.initial openRegistry) s es ∧
      issuedApprovals es = [(0, 100), (1, 200)] ∧
      (s.approvals.get? 100).isSome ∧ (∃! i, PendingOn s 100 i) ∧ s.approvals.get? 200 = none := by
  have hrun : (Machine.run (step openProtocol deviceCrypto 65536) (System.initial openRegistry)
      disconnectRun).map (fun r => (issuedApprovals r.2, (r.1.approvals.get? 100).isSome,
        (r.1.connections 1).map Connection.hasExited)) =
          some ([(0, 100), (1, 200)], true, some true) := by
    decide +kernel
  obtain ⟨⟨s, es⟩, hs, hproj⟩ := Option.map_eq_some_iff.1 hrun
  simp only [Prod.mk.injEq] at hproj
  obtain ⟨hissued, hstored, hexited⟩ := hproj
  have hfresh : Machine.Allowed (step openProtocol deviceCrypto 65536) FreshApprovalIds
      (System.initial openRegistry) [] disconnectRun := allowed_of_nodup (by decide) (by simp)
  have hreach := Machine.reaches_of_run hfresh hs
  obtain ⟨howner, -, hgone⟩ := approvals_belong_to_live_connections hreach
  obtain ⟨record, hrecord⟩ := Option.isSome_iff_exists.1 hstored
  refine ⟨s, es, hreach, hissued, hstored, howner 100 record hrecord, ?_⟩
  obtain ⟨conn, hconn, htask⟩ := Option.map_eq_some_iff.1 hexited
  have hmem : (1, 200) ∈ issuedApprovals es := by
    rw [hissued]
    simp
  obtain ⟨e, he, hid⟩ := List.mem_filterMap.1 hmem
  cases e with
  | issued j r =>
    obtain ⟨rfl, hr⟩ := Prod.mk.inj (Option.some.inj hid)
    rw [← hr]
    exact hgone 1 conn hconn (Connection.task_of_hasExited htask) r he
  | _ => cases hid

end Runs

end GoffyHub.WebSocket
