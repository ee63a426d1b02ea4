import GoffyOs.Hub.McpSessionRuns
import Mathlib.Data.Set.Card

/-!
# The slots of MCP sessions are counted

`_BoundedHttpMessageMiddleware` counts the `initialize` requests that have reserved a slot in
`_pending_sessions`, and gives the slot back on whichever way a request leaves: with an exception or
a cancellation, with a refusal, or with a session that takes the slot over. In between sessions are
deleted, revoked and pruned by others.

* `HoldsSlot` says which requests have a reservation;
* `SlotInv` counts them. A step keeps their set, adds a request to it or takes one out;
* `pending_sessions_counted` is the result over runs.
-/

namespace GoffyHub.McpSessions

open Python
open Approval (Crypto)
open Credentials (CredentialTable firstToken)

/-- The phases between `_reserve_session_slot` and the end of the reservation. -/
def Phase.holdsSlot : Phase → Bool
  | .reserved | .opened | .responded _ | .stale _ | .terminating _ _ | .checked _ | .releasing => true
  | .authenticated | .rejected | .completed | .aborted => false

/-- The request has reserved a slot and has not finished. -/
def HoldsSlot (s : System) (i : ℕ) : Prop :=
  ∃ r, s.requests i = some r ∧ r.phase.holdsSlot = true

theorem holdsSlot_setRequest {s : System} {i j : ℕ} {r : Request} :
    HoldsSlot (s.setRequest i r).tick j ↔
      (j = i ∧ r.phase.holdsSlot = true) ∨ (j ≠ i ∧ HoldsSlot s j) := by
  unfold HoldsSlot
  constructor
  · rintro ⟨r', hr', hholds⟩
    rcases System.setRequest_eq_some.1 hr' with ⟨hj, rfl⟩ | ⟨hj, hr⟩
    · exact Or.inl ⟨hj, hholds⟩
    · exact Or.inr ⟨hj, r', hr, hholds⟩
  · rintro (⟨hj, hholds⟩ | ⟨hj, r', hr, hholds⟩)
    · exact ⟨r, System.setRequest_eq_some.2 (Or.inl ⟨hj, rfl⟩), hholds⟩
    · exact ⟨r', System.setRequest_eq_some.2 (Or.inr ⟨hj, hr⟩), hholds⟩

/-! ### The methods of the middleware -/

namespace Middleware

variable {settings : Settings} {now : ℚ} {mw : Middleware}

theorem size_pruneIdleSessions_le :
    (mw.pruneIdleSessions settings now).activeSessions.size ≤ mw.activeSessions.size :=
  Dict.size_filter_le

/-- A refused reservation has pruned sessions at most. -/
theorem reserveSessionSlot_false (h : (mw.reserveSessionSlot settings now).2 = false) :
    (mw.reserveSessionSlot settings now).1 = mw.pruneIdleSessions settings now := by
  unfold reserveSessionSlot at h ⊢
  simp only at h ⊢
  split
  · rfl
  · rename_i hroom
    simp [hroom] at h

/-- A reservation keeps the sum within the limit. -/
theorem reserveSessionSlot_true (h : (mw.reserveSessionSlot settings now).2 = true) :
    (mw.reserveSessionSlot settings now).1.pendingSessions = mw.pendingSessions + 1 ∧
      (mw.reserveSessionSlot settings now).1.activeSessions.size +
        (mw.reserveSessionSlot settings now).1.pendingSessions ≤ settings.maxActiveSessions := by
  unfold reserveSessionSlot at h ⊢
  simp only at h ⊢
  split
  · rename_i hfull
    simp [hfull] at h
  · rename_i hroom
    refine ⟨rfl, ?_⟩
    simp only [ge_iff_le, not_le] at hroom ⊢
    omega

theorem size_completeSessionReservation_le {sessionId : Option ℕ} :
    (mw.completeSessionReservation now sessionId).activeSessions.size ≤
      mw.activeSessions.size + 1 := by
  unfold completeSessionReservation
  cases sessionId with
  | none => exact Nat.le_succ _
  | some sessionId => exact Dict.size_set_le

theorem pendingSessions_completeSessionReservation {sessionId : Option ℕ} :
    (mw.completeSessionReservation now sessionId).pendingSessions = mw.pendingSessions - 1 := by
  cases sessionId <;> rfl

theorem size_touchSession (now : ℚ) (sessionId : ℕ) (mw : Middleware) :
    (mw.touchSession now sessionId).activeSessions.size = mw.activeSessions.size ∧
      (mw.touchSession now sessionId).pendingSessions = mw.pendingSessions := by
  unfold touchSession
  split
  · rename_i hsome
    obtain ⟨last, hlast⟩ := Option.isSome_iff_exists.1 hsome
    exact ⟨Dict.size_set_of_some hlast, rfl⟩
  · exact ⟨rfl, rfl⟩

theorem size_removeSessions (ids : List ℕ) (mw : Middleware) :
    (mw.removeSessions ids).activeSessions.size ≤ mw.activeSessions.size ∧
      (mw.removeSessions ids).pendingSessions = mw.pendingSessions := by
  unfold removeSessions
  induction ids generalizing mw with
  | nil => exact ⟨le_rfl, rfl⟩
  | cons id ids ih =>
    obtain ⟨hsize, hpending⟩ := ih (mw.removeSession id)
    exact ⟨hsize.trans Dict.size_pop_le, hpending⟩

end Middleware

/-! ### The invariant -/

/-- The requests that hold a slot are counted, and there is room for them. -/
structure SlotInv (settings : Settings) (s : System) (holders : Finset ℕ) : Prop where
  mem : ∀ i, i ∈ holders ↔ HoldsSlot s i
  pending : s.middleware.pendingSessions = holders.card
  room : s.middleware.activeSessions.size + s.middleware.pendingSessions ≤ settings.maxActiveSessions

section Steps

variable {settings : Settings} {s s' : System} {holders : Finset ℕ}

/-- No reservation begins or ends. -/
theorem SlotInv.keep (h : SlotInv settings s holders) (hholds : ∀ i, HoldsSlot s' i ↔ HoldsSlot s i)
    (hpending : s'.middleware.pendingSessions = s.middleware.pendingSessions)
    (hsize : s'.middleware.activeSessions.size ≤ s.middleware.activeSessions.size) :
    SlotInv settings s' holders where
  mem i := (h.mem i).trans (hholds i).symm
  pending := hpending.trans h.pending
  room := by
    have := h.room
    omega

/-- A request goes on, and holds a slot if it did. -/
theorem SlotInv.request (h : SlotInv settings s holders) {s₀ : System} {i : ℕ} {r r' : Request}
    (hr : s.requests i = some r) (hs₀ : s₀.requests = s.requests)
    (hphase : r'.phase.holdsSlot = r.phase.holdsSlot)
    (hpending : s₀.middleware.pendingSessions = s.middleware.pendingSessions)
    (hsize : s₀.middleware.activeSessions.size ≤ s.middleware.activeSessions.size) :
    SlotInv settings (s₀.setRequest i r').tick holders := by
  refine h.keep (fun j => ?_) hpending hsize
  have hsame : HoldsSlot s₀ j ↔ HoldsSlot s j := by rw [HoldsSlot, hs₀, HoldsSlot]
  rw [holdsSlot_setRequest, hsame, hphase]
  by_cases hj : j = i
  · subst hj
    simp [HoldsSlot, hr]
  · simp [hj]

/-- A slot is reserved. -/
theorem SlotInv.reserve (h : SlotInv settings s holders) {s₀ : System} {i : ℕ} {r r' : Request}
    (hr : s.requests i = some r) (hs₀ : s₀.requests = s.requests)
    (hbefore : r.phase.holdsSlot = false) (hafter : r'.phase.holdsSlot = true)
    (hpending : s₀.middleware.pendingSessions = s.middleware.pendingSessions + 1)
    (hroom : s₀.middleware.activeSessions.size + s₀.middleware.pendingSessions ≤
      settings.maxActiveSessions) :
    SlotInv settings (s₀.setRequest i r').tick (insert i holders) := by
  have hnew : i ∉ holders := by
    rw [h.mem]
    rintro ⟨r₀, hr₀, hholds⟩
    obtain rfl := Option.some.inj (hr.symm.trans hr₀)
    rw [hbefore] at hholds
    cases hholds
  refine ⟨fun j => ?_, ?_, hroom⟩
  · have hsame : HoldsSlot s₀ j ↔ HoldsSlot s j := by rw [HoldsSlot, hs₀, HoldsSlot]
    rw [holdsSlot_setRequest, Finset.mem_insert, h.mem, hsame]
    by_cases hj : j = i <;> simp [hj, hafter]
  · rw [Finset.card_insert_of_notMem hnew]
    have := h.pending
    push_cast
    exact hpending.trans (by omega)

/-- A reservation ends, perhaps with a session in its place. -/
theorem SlotInv.release (h : SlotInv settings s holders) {s₀ : System} {i : ℕ} {r r' : Request}
    (hr : s.requests i = some r) (hs₀ : s₀.requests = s.requests)
    (hbefore : r.phase.holdsSlot = true) (hafter : r'.phase.holdsSlot = false)
    (hpending : s₀.middleware.pendingSessions = s.middleware.pendingSessions - 1)
    (hsize : s₀.middleware.activeSessions.size ≤ s.middleware.activeSessions.size + 1) :
    SlotInv settings (s₀.setRequest i r').tick (holders.erase i) := by
  have hmem : i ∈ holders := (h.mem i).2 ⟨r, hr, hbefore⟩
  have hcard := Finset.card_erase_add_one hmem
  have hcount := h.pending
  have hroom := h.room
  refine ⟨fun j => ?_, hpending.trans (by omega), ?_⟩
  · have hsame : HoldsSlot s₀ j ↔ HoldsSlot s j := by rw [HoldsSlot, hs₀, HoldsSlot]
    rw [holdsSlot_setRequest, Finset.mem_erase, h.mem, hsame]
    by_cases hj : j = i <;> simp [hj, hafter]
  · have hadd : s₀.middleware.activeSessions.size + s₀.middleware.pendingSessions ≤
        settings.maxActiveSessions := by omega
    exact hadd

/-- A step that no request makes. -/
theorem SlotInv.outside (h : SlotInv settings s holders) (hrequests : s'.requests = s.requests)
    (hpending : s'.middleware.pendingSessions = s.middleware.pendingSessions)
    (hsize : s'.middleware.activeSessions.size ≤ s.middleware.activeSessions.size) :
    SlotInv settings s' holders :=
  h.keep (fun i => by rw [HoldsSlot, hrequests, HoldsSlot]) hpending hsize

variable {crypto : Crypto} {zone : NaiveDateTime → Except Exn ℤ} {authToken : Option Str}
  {es out : List Event} {a : Action}

/-- A step keeps the count. -/
theorem SlotInv.step (h : SlotInv settings s holders)
    (hs : McpSessions.step crypto zone authToken settings s a = some (s', out)) :
    ∃ holders', SlotInv settings s' holders' := by
  cases a with
  | authenticate i token fault =>
    simp only [McpSessions.step] at hs
    split at hs
    · rename_i hnone _
      split at hs
      · cases hs
        refine ⟨holders, h.keep (fun j => ?_) rfl le_rfl⟩
        rw [holdsSlot_setRequest]
        by_cases hj : j = i
        · subst hj
          simp [HoldsSlot, hnone, Phase.holdsSlot]
        · simp [hj]
      · cases hs
    · cases hs
  | reserve i now =>
    simp only [McpSessions.step] at hs
    split at hs
    · rename_i r hr
      split at hs
      · rename_i hphase
        cases hs
        have hbefore : r.phase.holdsSlot = false := by simp [hphase, Phase.holdsSlot]
        cases hreserved : (s.middleware.reserveSessionSlot settings now).2 with
        | false =>
          refine ⟨holders, h.request hr rfl (by simp [hphase, Phase.holdsSlot]) ?_ ?_⟩
          · simp only [Middleware.reserveSessionSlot_false hreserved]
            rfl
          · simp only [Middleware.reserveSessionSlot_false hreserved]
            exact Middleware.size_pruneIdleSessions_le
        | true =>
          obtain ⟨hpending, hroom⟩ := Middleware.reserveSessionSlot_true hreserved
          exact ⟨insert i holders, h.reserve hr rfl hbefore (by simp [Phase.holdsSlot]) hpending
            hroom⟩
      · cases hs
    · cases hs
  | openSession i =>
    simp only [McpSessions.step] at hs
    split at hs
    · rename_i r hr
      split at hs
      · rename_i hphase
        cases hs
        exact ⟨holders, h.request hr rfl (by simp [hphase, Phase.holdsSlot]) rfl le_rfl⟩
      · cases hs
    · cases hs
  | respond i accepted =>
    simp only [McpSessions.step] at hs
    split at hs
    · rename_i r hr
      split at hs
      · rename_i hphase
        cases hs
        refine ⟨holders, h.request hr rfl ?_ rfl le_rfl⟩
        rcases hphase with hphase | ⟨hphase, -⟩ <;> simp [hphase, Phase.holdsSlot]
      · cases hs
    · cases hs
  | reauthenticate i fault =>
    simp only [McpSessions.step] at hs
    split at hs
    · rename_i r hr
      split at hs
      · rename_i hphase
        cases hs
        refine ⟨holders, h.request hr rfl ?_ rfl le_rfl⟩
        unfold Request.reauthenticate
        split <;> simp [hphase, Phase.holdsSlot]
      · cases hs
    · cases hs
  | terminateStale i =>
    simp only [McpSessions.step] at hs
    split at hs
    · rename_i r hr
      split at hs
      · rename_i hphase
        cases hs
        exact ⟨holders, h.request hr rfl (by simp [hphase, Phase.holdsSlot]) rfl le_rfl⟩
      · cases hs
    · cases hs
  | callbackStale i =>
    simp only [McpSessions.step] at hs
    split at hs
    · rename_i r hr
      split at hs
      · rename_i ids hphase
        cases hs
        obtain ⟨hsize, hpending⟩ := Middleware.size_removeSessions ids s.middleware
        exact ⟨holders, h.request hr rfl (by simp [hphase, Phase.holdsSlot]) hpending hsize⟩
      · cases hs
    · cases hs
  | complete i now =>
    simp only [McpSessions.step] at hs
    split at hs
    · rename_i r hr
      split at hs
      · rename_i hphase
        cases hs
        exact ⟨holders.erase i, h.release hr rfl (by simp [hphase, Phase.holdsSlot])
          (by simp [Phase.holdsSlot]) Middleware.pendingSessions_completeSessionReservation
          Middleware.size_completeSessionReservation_le⟩
      · cases hs
    · cases hs
  | abort i =>
    simp only [McpSessions.step] at hs
    split at hs
    · rename_i r hr
      split at hs
      all_goals first
        | cases hs
          rename_i hphase
          exact ⟨holders, h.request hr rfl (by simp [hphase, Phase.holdsSlot]) rfl le_rfl⟩
        | cases hs
    · cases hs
  | release i =>
    simp only [McpSessions.step] at hs
    split at hs
    · rename_i r hr
      split at hs
      · rename_i hphase
        cases hs
        exact ⟨holders.erase i, h.release hr rfl (by simp [hphase, Phase.holdsSlot])
          (by simp [Phase.holdsSlot]) rfl (Nat.le_succ _)⟩
      · cases hs
    · cases hs
  | cancel i =>
    simp only [McpSessions.step] at hs
    split at hs
    · rename_i r hr
      split at hs
      · rename_i hphase
        cases hs
        exact ⟨holders, h.request hr rfl (by simp [hphase, Phase.holdsSlot]) rfl le_rfl⟩
      · cases hs
    · cases hs
  | issue args accessToken credentialId now fault =>
    cases hs
    exact ⟨holders, h.outside rfl rfl le_rfl⟩
  | revoke j c now fault =>
    simp only [McpSessions.step] at hs
    split at hs
    · cases hs
    split at hs <;>
    · cases hs
      exact ⟨holders, h.outside rfl rfl le_rfl⟩
  | rotate j c current new now fault =>
    simp only [McpSessions.step] at hs
    split at hs
    · cases hs
    split at hs <;>
    · cases hs
      exact ⟨holders, h.outside rfl rfl le_rfl⟩
  | terminateClient j =>
    simp only [McpSessions.step] at hs
    split at hs
    · cases hs
      exact ⟨holders, h.outside rfl rfl le_rfl⟩
    · cases hs
  | callbackClient j =>
    simp only [McpSessions.step] at hs
    split at hs
    · rename_i ids _
      cases hs
      obtain ⟨hsize, hpending⟩ := Middleware.size_removeSessions ids s.middleware
      exact ⟨holders, h.outside rfl hpending hsize⟩
    · cases hs
  | failClient j =>
    simp only [McpSessions.step] at hs
    split at hs
    · cases hs
      exact ⟨holders, h.outside rfl rfl le_rfl⟩
    · cases hs
  | endSession sessionId =>
    cases hs
    exact ⟨holders, h.outside rfl rfl le_rfl⟩
  | removeSession sessionId =>
    simp only [McpSessions.step] at hs
    split at hs
    · cases hs
      exact ⟨holders, h.outside rfl rfl Dict.size_pop_le⟩
    · cases hs
  | touchSession sessionId now =>
    cases hs
    obtain ⟨hsize, hpending⟩ := Middleware.size_touchSession now sessionId s.middleware
    exact ⟨holders, h.outside rfl hpending hsize.le⟩
  | markSessionStreaming sessionId increment =>
    cases hs
    exact ⟨holders, h.outside rfl rfl le_rfl⟩

/-- **The slots are counted.** In every reachable state `_pending_sessions` is the number of the
requests that have reserved a slot and have not finished, and the sessions and these requests
together do not exceed the limit. -/
theorem pending_sessions_counted {store : CredentialTable}
    (h : Machine.Reaches (McpSessions.step crypto zone authToken settings) Machine.anyStep
      (System.initial store) s es) :
    {i | HoldsSlot s i}.Finite ∧
    s.middleware.pendingSessions = {i | HoldsSlot s i}.ncard ∧
    0 ≤ s.middleware.pendingSessions ∧
    s.middleware.activeSessions.size + s.middleware.pendingSessions ≤ settings.maxActiveSessions := by
  have hinv : ∃ holders, SlotInv settings s holders := by
    induction h with
    | start =>
      refine ⟨∅, ⟨?_, rfl, ?_⟩⟩
      · simp [HoldsSlot, System.initial]
      · simp [System.initial, Middleware.empty, Dict.size, Dict.empty]
    | step _ _ hs ih =>
      obtain ⟨holders, hinv⟩ := ih
      exact hinv.step hs
  obtain ⟨holders, hinv⟩ := hinv
  have hset : {i | HoldsSlot s i} = holders := by
    ext i
    exact (hinv.mem i).symm
  rw [hset]
  refine ⟨holders.finite_toSet, ?_, ?_, hinv.room⟩
  · rw [Set.ncard_coe_finset]
    exact hinv.pending
  · rw [hinv.pending]
    exact Int.natCast_nonneg _

/-- Three requests for the two slots: the third is refused, and the second has opened its session. -/
def slotRun : List Action :=
  [.authenticate 0 firstToken .none, .reserve 0 0, .authenticate 1 firstToken .none, .reserve 1 0,
    .openSession 1, .authenticate 2 firstToken .none, .reserve 2 0, .respond 1 true,
    .reauthenticate 1 .none, .complete 1 1]

theorem one_slot_pending : ∃ s es,
    Machine.Reaches (McpSessions.step LiveAccess.noCrypto LiveAccess.utcZone none sampleSettings)
        Machine.anyStep (System.initial LiveAccess.sampleStore) s es ∧
      (s.requests 2).map Request.phase = some .rejected ∧ s.middleware.activeSessions.size = 1 ∧
      {i | HoldsSlot s i}.ncard = 1 := by
  have hrun : (Machine.run (McpSessions.step LiveAccess.noCrypto LiveAccess.utcZone none
      sampleSettings) (System.initial LiveAccess.sampleStore) slotRun).map (fun r =>
        ((r.1.requests 2).map Request.phase, r.1.middleware.activeSessions.size,
          r.1.middleware.pendingSessions)) = some (some .rejected, 1, 1) := by
    decide +kernel
  obtain ⟨⟨s, es⟩, hs, hobs⟩ := Option.map_eq_some_iff.1 hrun
  simp only [Prod.mk.injEq] at hobs
  obtain ⟨hphase, hsize, hpending⟩ := hobs
  have hreach := Machine.run_reaches hs
  obtain ⟨-, hcount, -⟩ := pending_sessions_counted hreach
  rw [hpending] at hcount
  exact ⟨s, es, hreach, hphase, hsize, by exact_mod_cast hcount.symm⟩

end Steps

end GoffyHub.McpSessions
