import GoffyOs.Hub.LiveAccessRuns

/-!
# Finished connections in the registry

`websocket_endpoint` registers its connection before the `try` whose `finally` takes it out again. An
exception between the two (the check that the credential is still active, the audit record of a
rejection) ends the endpoint and leaves its socket in the registry, unless a revocation or rotation has
taken it out before.
-/

namespace GoffyHub.LiveAccess

open Python
open Approval (Crypto)
open Credentials (samplePhone)

section

variable {crypto : Crypto} {zone : NaiveDateTime → Except Exn ℤ} {authToken : Option Str}
  {s s' : System} {a : Action} {es out : List Event}

/-- Every connection in the registry belongs to an endpoint that is going to unregister it. -/
def OwnedConnections (s : System) : Prop :=
  ∀ c i, i ∈ live s.connections c →
    ∃ e, s.endpoints i = some e ∧ e.principal.credentialId = some c ∧ e.phase.isListed = true

/-- No exception ends an endpoint between its registration and the receive loop while its connection is
in the registry. -/
def EndsInLoop (s : System) (_ : List Event) : Action → Prop
  | .move i .fail => ∀ e c, s.endpoints i = some e → e.phase = .registered ∨ e.phase = .rejected →
    e.principal.credentialId = some c → i ∉ live s.connections c
  | _ => True

/-- A listed endpoint stays listed, unless it fails before the loop. -/
theorem isListed_of_move {store : Credentials.CredentialTable} {e e' : Endpoint} {m : Move}
    (h : e.move authToken store m = some e') (hlisted : e.phase.isListed = true) :
    e'.phase.isListed = true ∨ m = .fail ∧ (e.phase = .registered ∨ e.phase = .rejected) := by
  cases m with
  | fail =>
    refine Or.inr ⟨rfl, ?_⟩
    simp only [Endpoint.move] at h
    split at h
    case isFalse => cases h
    case isTrue hphase =>
      simp only [List.mem_cons, List.not_mem_nil, or_false] at hphase
      rcases hphase with hp | hp | hp | hp | hp
      · rw [hp] at hlisted
        cases hlisted
      · rw [hp] at hlisted
        cases hlisted
      · exact Or.inl hp
      · exact Or.inr hp
      · rw [hp] at hlisted
        cases hlisted
  | close =>
    simp only [Endpoint.move] at h
    split at h
    case isFalse => cases h
    case isTrue hphase =>
      rw [hphase] at hlisted
      cases hlisted
  | accept =>
    simp only [Endpoint.move] at h
    split at h
    case isFalse => cases h
    case isTrue hphase =>
      rw [hphase] at hlisted
      cases hlisted
  | enter | check | receive | disconnect | handled | leave =>
    refine Or.inl ?_
    simp only [Endpoint.move] at h
    repeat' split at h
    all_goals cases h <;> rfl

theorem OwnedConnections.step (h : OwnedConnections s) (hok : EndsInLoop s es a)
    (heff : Effect authToken s a s' out) : OwnedConnections s' := by
  intro c i hin
  -- a connection that was there has its endpoint, unless this step is about the endpoint
  have hold : i ∈ live s.connections c → (∀ e, s.endpoints i = some e →
      e.principal.credentialId = some c → e.phase.isListed = true →
      ∃ e', s'.endpoints i = some e' ∧ e'.principal.credentialId = some c ∧
        e'.phase.isListed = true) →
      ∃ e, s'.endpoints i = some e ∧ e.principal.credentialId = some c ∧ e.phase.isListed = true := by
    intro hlive hkeep
    obtain ⟨e, he, hc, hlisted⟩ := h c i hlive
    exact hkeep e he hc hlisted
  cases heff with
  | refused | store | commit | complete =>
    exact hold hin fun e he hc hlisted => ⟨e, he, hc, hlisted⟩
  | @connect i₀ _ _ e₀ hnew =>
    refine hold hin fun e he hc hlisted => ⟨e, setEndpoint_eq_some.2 (Or.inr ⟨?_, he⟩), hc, hlisted⟩
    rintro rfl
    rw [hnew] at he
    cases he
  | @move i₀ m e₀ e₁ he₀ hmove =>
    refine hold hin fun e he hc hlisted => ?_
    by_cases hi : i = i₀
    · subst hi
      obtain rfl := Option.some.inj (he₀.symm.trans he)
      refine ⟨e₁, setEndpoint_eq_some.2 (Or.inl ⟨rfl, rfl⟩),
        (advance_move hmove).principal ▸ hc, ?_⟩
      refine (isListed_of_move hmove hlisted).resolve_right ?_
      rintro ⟨rfl, hphase⟩
      exact hok e₀ c he₀ hphase hc hin
    · exact ⟨e, setEndpoint_eq_some.2 (Or.inr ⟨hi, he⟩), hc, hlisted⟩
  | @register i₀ e₀ c₀ he₀ hc₀ hphase =>
    simp only [tick_connections, setEndpoint_connections, live_register] at hin
    by_cases hi : i = i₀
    · subst hi
      have hc : e₀.principal.credentialId = some c := by
        split at hin
        case isTrue heq => exact heq ▸ hc₀
        case isFalse =>
          obtain ⟨e, he, hc, -⟩ := h c i hin
          obtain rfl := Option.some.inj (he₀.symm.trans he)
          exact hc
      exact ⟨_, setEndpoint_eq_some.2 (Or.inl ⟨rfl, rfl⟩), hc, rfl⟩
    · have hlive : i ∈ live s.connections c := by
        split at hin
        · exact (Finset.mem_insert.1 hin).resolve_left hi
        · exact hin
      exact hold hlive fun e he hc hlisted =>
        ⟨e, setEndpoint_eq_some.2 (Or.inr ⟨hi, he⟩), hc, hlisted⟩
  | @unregister i₀ e₀ e₁ he₀ hafter =>
    simp only [tick_connections, setEndpoint_connections] at hin
    have hlive : i ∈ live s.connections c ∧ (i = i₀ → e₀.principal.credentialId ≠ some c) := by
      split at hin
      case h_1 hnone =>
        refine ⟨hin, fun _ hc => ?_⟩
        rw [hnone] at hc
        cases hc
      case h_2 c₀ hc₀ =>
        rw [live_unregister] at hin
        split at hin
        case isTrue heq =>
          obtain ⟨hne, hmem⟩ := Finset.mem_erase.1 hin
          exact ⟨hmem, fun hi => absurd hi hne⟩
        case isFalse hne =>
          refine ⟨hin, fun _ hc => hne ?_⟩
          exact Option.some.inj (hc₀.symm.trans hc)
    refine hold hlive.1 fun e he hc hlisted => ⟨e, setEndpoint_eq_some.2 (Or.inr ⟨?_, he⟩), hc, hlisted⟩
    rintro rfl
    obtain rfl := Option.some.inj (he₀.symm.trans he)
    exact hlive.2 rfl hc
  | @pop j kind c₀ t hj =>
    simp only [tick_connections, setChange_connections, live_pop] at hin
    split at hin
    · exact absurd hin (Finset.notMem_empty i)
    · exact hold hin fun e he hc hlisted => ⟨e, he, hc, hlisted⟩
  | @closeSocket j i₀ _ _ _ _ hj hi₀ =>
    have hlive : i ∈ live s.connections c := by simpa using hin
    refine hold hlive fun e he hc hlisted => ?_
    by_cases hi : i = i₀
    · subst hi
      exact ⟨_, closeEndpoint_eq_some.2 (Or.inl ⟨rfl, e, he, rfl⟩), hc, hlisted⟩
    · exact ⟨e, closeEndpoint_eq_some.2 (Or.inr ⟨hi, he⟩), hc, hlisted⟩

/-- **Finished connections.** In every run with any interleaving of connections and changes of
credentials in which no exception ends a registered endpoint before its loop, a finished endpoint is not
in the registry. -/
theorem finished_not_registered {store : Credentials.CredentialTable} {i : ℕ} {e : Endpoint} {c : UUID}
    (h : Machine.Reaches (step crypto zone authToken) EndsInLoop (System.initial store) s es)
    (he : s.endpoints i = some e) (hexited : e.phase = .exited) : i ∉ live s.connections c := by
  have howned : OwnedConnections s := by
    refine h.invariant (I := fun s _ => OwnedConnections s) ?_ ?_
    · intro c i hin
      exact absurd hin (Finset.notMem_empty i)
    · intro s es a s' out hinv hok hstep
      exact hinv.step hok (effect_of_step hstep)
  intro hin
  obtain ⟨e', he', -, hlisted⟩ := howned c i hin
  obtain rfl := Option.some.inj (he.symm.trans he')
  rw [hexited] at hlisted
  cases hlisted

end

/-- A connection is made and lost again. -/
def shortRun : List Action :=
  [connectPhone 0, .move 0 .accept, .register 0, .move 0 (.check .none), .move 0 .disconnect,
    .unregister 0]

/-- It is not in the registry afterwards. -/
theorem disconnected_phone : ∃ s es e,
    Machine.run (step noCrypto utcZone none) (System.initial sampleStore) shortRun = some (s, es) ∧
      s.endpoints 0 = some e ∧ e.phase = .exited ∧ 0 ∉ live s.connections samplePhone := by
  have hrun : (Machine.run (step noCrypto utcZone none) (System.initial sampleStore) shortRun).map
      (fun r => (r.1.endpoints 0).map Endpoint.phase) = some (some .exited) := by
    decide +kernel
  obtain ⟨⟨s, es⟩, hs, hobs⟩ := Option.map_eq_some_iff.1 hrun
  obtain ⟨e, he, hphase⟩ := Option.map_eq_some_iff.1 hobs
  have hok : Machine.Allowed (step noCrypto utcZone none) EndsInLoop (System.initial sampleStore) []
      shortRun := by
    repeat' first | exact trivial | refine ⟨trivial, fun _ _ _ => ?_⟩
  exact ⟨s, es, e, hs, he, hphase, finished_not_registered (Machine.reaches_of_run hok hs) he hphase⟩

/-- The second check raises: the endpoint has finished, and its socket is in the registry. -/
theorem failed_check_stays_registered : ∃ s es e,
    Machine.run (step noCrypto utcZone none) (System.initial sampleStore)
        [connectPhone 0, .move 0 .accept, .register 0, .move 0 .fail] = some (s, es) ∧
      s.endpoints 0 = some e ∧ e.phase = .exited ∧ 0 ∈ live s.connections samplePhone := by
  have hrun : (Machine.run (step noCrypto utcZone none) (System.initial sampleStore)
      [connectPhone 0, .move 0 .accept, .register 0, .move 0 .fail]).map
      (fun r => ((r.1.endpoints 0).map Endpoint.phase, decide (0 ∈ live r.1.connections samplePhone))) =
        some (some .exited, true) := by
    decide +kernel
  obtain ⟨⟨s, es⟩, hs, hobs⟩ := Option.map_eq_some_iff.1 hrun
  obtain ⟨hphase, hin⟩ := Prod.mk.inj hobs
  obtain ⟨e, he, hphase⟩ := Option.map_eq_some_iff.1 hphase
  exact ⟨s, es, e, hs, he, hphase, of_decide_eq_true hin⟩

end GoffyHub.LiveAccess
