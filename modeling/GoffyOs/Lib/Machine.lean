import Mathlib.Data.List.Basic
import Mathlib.Logic.Function.Basic

/-!
# Machines with observable events

A component is a partial step function: in a state, an action (which also carries every outside
choice, such as a clock reading or a failing write) is either impossible or leads to a next state
and a list of observable events. `run` executes a list of actions, `Reaches` is the relation
"reachable with this history of events", for which properties of whole runs are proved:

* `Reaches.invariant`: what holds at the start and is kept by every step holds of every reachable
  state together with its history;
* `AtEach P es`: each event of the history `es` satisfies `P` with respect to the events before it.
  `atEach_append` reduces a run to its steps;
* `update_eq_some_iff`: processes live in tables `ℕ → Option β`, and a step writes one entry.

`Reaches` is relative to a condition `ok` on the steps taken, which may speak of the state and the
history before the step; `run_reaches` turns an executed list of actions into a reachable state.
-/

namespace Machine

variable {σ α ε : Type*}

/-- A step function: the next state and the events of the step, or `none` when the action is not
possible in this state. -/
abbrev Step (σ α ε : Type*) := σ → α → Option (σ × List ε)

/-- Execute a list of actions, collecting the events. -/
def run (step : Step σ α ε) : σ → List α → Option (σ × List ε)
  | s, [] => some (s, [])
  | s, a :: as => do
    let (s₁, out) ← step s a
    let (s₂, es) ← run step s₁ as
    return (s₂, out ++ es)

/-- `s` is reachable from `s₀` with history `es`, by steps that all meet `ok`. -/
inductive Reaches (step : Step σ α ε) (ok : σ → List ε → α → Prop) (s₀ : σ) : σ → List ε → Prop
  | start : Reaches step ok s₀ s₀ []
  | step {s : σ} {es : List ε} {a : α} {s' : σ} {out : List ε} (h : Reaches step ok s₀ s es)
      (hok : ok s es a) (hs : step s a = some (s', out)) : Reaches step ok s₀ s' (es ++ out)

/-- Every step is allowed. -/
def anyStep : σ → List ε → α → Prop := fun _ _ _ => True

variable {step : Step σ α ε} {ok : σ → List ε → α → Prop} {s₀ s : σ} {es : List ε}

/-- **Invariant rule.** -/
theorem Reaches.invariant {I : σ → List ε → Prop} (h : Reaches step ok s₀ s es) (h₀ : I s₀ [])
    (hstep : ∀ s es a s' out, I s es → ok s es a → step s a = some (s', out) →
      I s' (es ++ out)) :
    I s es := by
  induction h with
  | start => exact h₀
  | step _ hok hs ih => exact hstep _ _ _ _ _ ih hok hs

/-- The steps of a list of actions meet `ok`, from a state with history `es` on. -/
def Allowed (step : Step σ α ε) (ok : σ → List ε → α → Prop) : σ → List ε → List α → Prop
  | _, _, [] => True
  | s, es, a :: as => ok s es a ∧ ∀ s' out, step s a = some (s', out) →
      Allowed step ok s' (es ++ out) as

/-- Whether a list of actions is allowed can be found out by running it. -/
instance decidableAllowed [∀ s es a, Decidable (ok s es a)] :
    (s : σ) → (es : List ε) → (as : List α) → Decidable (Allowed step ok s es as)
  | _, _, [] => isTrue trivial
  | s, es, a :: as =>
    match h : step s a with
    | none => decidable_of_iff (ok s es a) (by simp [Allowed, h])
    | some (s', out) =>
      have := decidableAllowed s' (es ++ out) as
      decidable_of_iff (ok s es a ∧ Allowed step ok s' (es ++ out) as) (by simp [Allowed, h])

/-- Continuing a run by a list of actions. -/
theorem Reaches.run {as : List α} {s' : σ} {out : List ε} (h : Reaches step ok s₀ s es)
    (hok : Allowed step ok s es as) (hrun : run step s as = some (s', out)) :
    Reaches step ok s₀ s' (es ++ out) := by
  induction as generalizing s es out with
  | nil =>
    simp only [Machine.run, Option.some.injEq, Prod.mk.injEq] at hrun
    obtain ⟨rfl, rfl⟩ := hrun
    simpa using h
  | cons a as ih =>
    simp only [Machine.run, Option.bind_eq_bind, Option.bind_eq_some_iff, Option.pure_def,
      Option.some.injEq, Prod.mk.injEq, Prod.exists] at hrun
    obtain ⟨s₁, out₁, hs, s₂, es', hrest, rfl, rfl⟩ := hrun
    rw [← List.append_assoc]
    exact ih (h.step hok.1 hs) (hok.2 s₁ out₁ hs) hrest

/-- A run of allowed actions is a reachable state. -/
theorem reaches_of_run {as : List α} (hok : Allowed step ok s₀ [] as)
    (h : run step s₀ as = some (s, es)) : Reaches step ok s₀ s es := by
  simpa using Reaches.start.run hok h

/-- A condition on the actions alone. -/
theorem allowed_of_forall {p : α → Prop} {as : List α} (h : ∀ a ∈ as, p a) :
    Allowed step (fun _ _ a => p a) s es as := by
  induction as generalizing s es with
  | nil => trivial
  | cons a as ih =>
    exact ⟨h a List.mem_cons_self, fun _ _ _ => ih fun b hb => h b (List.mem_cons_of_mem a hb)⟩

theorem allowed_anyStep (as : List α) : Allowed step anyStep s es as :=
  allowed_of_forall fun _ _ => trivial

/-- A run of actions is a reachable state. -/
theorem run_reaches {as : List α} (h : run step s₀ as = some (s, es)) :
    Reaches step anyStep s₀ s es := reaches_of_run (allowed_anyStep as) h

/-- A run followed by a run, when the condition on the steps does not look at the history. -/
theorem Reaches.append {p : σ → α → Prop} {s' : σ} {es' : List ε}
    (h : Reaches step (fun s _ a => p s a) s₀ s es)
    (h' : Reaches step (fun s _ a => p s a) s s' es') :
    Reaches step (fun s _ a => p s a) s₀ s' (es ++ es') := by
  induction h' with
  | start => simpa using h
  | step _ hok hs ih =>
    rw [← List.append_assoc]
    exact ih.step hok hs

/-! ### Histories -/

/-- Each event of `es` satisfies `P` with respect to the events before it. -/
def AtEach (P : List ε → ε → Prop) (es : List ε) : Prop :=
  ∀ pre e post, es = pre ++ e :: post → P pre e

variable {P : List ε → ε → Prop}

theorem atEach_nil : AtEach P [] := by
  intro pre e post h
  simp at h

/-- A longer history is checked from where the shorter one ends. -/
theorem atEach_append {out : List ε} (h : AtEach P es)
    (hout : AtEach (fun pre => P (es ++ pre)) out) : AtEach P (es ++ out) := by
  intro pre e post heq
  rcases List.append_eq_append_iff.1 heq with ⟨mid, rfl, hmid⟩ | ⟨mid, rfl, hmid⟩
  · exact hout mid e post hmid
  · cases mid with
    | nil =>
      have := hout [] e post (by simpa using hmid.symm)
      simpa using this
    | cons x mid =>
      obtain ⟨rfl, hpost⟩ := List.cons.inj hmid
      exact h pre e mid rfl

/-- The first event, and those after it. -/
theorem atEach_cons {e : ε} (h : P [] e) (hes : AtEach (fun pre => P (e :: pre)) es) :
    AtEach P (e :: es) := by
  intro pre x post heq
  cases pre with
  | nil =>
    obtain ⟨rfl, -⟩ := List.cons.inj heq
    exact h
  | cons y pre =>
    obtain ⟨rfl, hrest⟩ := List.cons.inj heq
    exact hes pre x post hrest

/-! ### Tables of processes -/

/-- What stands in a table after one entry was written. -/
theorem update_eq_some_iff {β : Type*} {f : ℕ → Option β} {i i' : ℕ} {o : Option β} {v : β} :
    Function.update f i o i' = some v ↔ (i' = i ∧ o = some v) ∨ (i' ≠ i ∧ f i' = some v) := by
  by_cases h : i' = i <;> simp [h]

end Machine
