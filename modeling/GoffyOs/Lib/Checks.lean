import Mathlib.Init

/-!
# Computations that may fail

Inversion of `Except` computations: what holds of each step when the whole succeeds.
-/

namespace Checks

variable {ε α β : Type}

theorem ok_bind (a : α) (f : α → Except ε β) : Except.ok a >>= f = f a := rfl

theorem bind_eq_ok {x : Except ε α} {f : α → Except ε β} {b : β} :
    x >>= f = .ok b ↔ ∃ a, x = .ok a ∧ f a = .ok b := by
  cases x with
  | error e => simp [bind, Except.bind]
  | ok a => simp [bind, Except.bind]

/-- A computation fails at its first step or after it. -/
theorem bind_eq_error {x : Except ε α} {f : α → Except ε β} {e : ε} :
    x >>= f = .error e ↔ x = .error e ∨ ∃ a, x = .ok a ∧ f a = .error e := by
  cases x with
  | error e => simp [bind, Except.bind]
  | ok a => simp [bind, Except.bind]

/-- A check before the rest. -/
theorem throw_bind_eq_ok {p : Prop} [Decidable p] {e : ε} {rest : Except ε α} {a : α} :
    ((do if p then throw e
         rest) = Except.ok a) ↔ ¬ p ∧ rest = .ok a := by
  by_cases hp : p
  · simp [hp, bind, Except.bind, throw, throwThe, MonadExceptOf.throw]
  · simp [hp]

theorem throw_bind_eq_error {p : Prop} [Decidable p] {e e' : ε} {rest : Except ε α} :
    ((do if p then throw e
         rest) = Except.error e') ↔ p ∧ e = e' ∨ ¬ p ∧ rest = .error e' := by
  by_cases hp : p
  · simp [hp, bind, Except.bind, throw, throwThe, MonadExceptOf.throw]
  · simp [hp]

/-- A check at the end. -/
theorem ite_error_eq_ok {p : Prop} [Decidable p] {e : ε} {a b : α} :
    (if p then .ok a else .error e : Except ε α) = .ok b ↔ p ∧ a = b := by
  by_cases hp : p
  · simp [hp]
  · simp [hp]

theorem mapM_cons_eq_ok {f : α → Except ε β} {a : α} {as : List α} {bs : List β} :
    (a :: as).mapM f = .ok bs ↔ ∃ b bs', f a = .ok b ∧ as.mapM f = .ok bs' ∧ bs = b :: bs' := by
  rw [List.mapM_cons, bind_eq_ok]
  constructor
  · rintro ⟨b, hb, h⟩
    obtain ⟨bs', hbs', h⟩ := bind_eq_ok.1 h
    exact ⟨b, bs', hb, hbs', (Except.ok.inj h).symm⟩
  · rintro ⟨b, bs', hb, hbs', rfl⟩
    exact ⟨b, hb, bind_eq_ok.2 ⟨bs', hbs', rfl⟩⟩

/-- Where every step succeeds, so does the list of them. -/
theorem mapM_eq_ok_map {γ : Type} {f : α → Except ε β} {g : γ → α} {k : γ → β}
    {cs : List γ} (h : ∀ c ∈ cs, f (g c) = .ok (k c)) : (cs.map g).mapM f = .ok (cs.map k) := by
  induction cs with
  | nil => rfl
  | cons c cs ih =>
    have hrest := ih fun d hd => h d (List.mem_cons_of_mem _ hd)
    exact mapM_cons_eq_ok.2 ⟨k c, cs.map k, h c List.mem_cons_self, hrest, rfl⟩

/-- The results of steps come from their inputs. -/
theorem exists_of_mem_mapM {f : α → Except ε β} {as : List α} {bs : List β} (h : as.mapM f = .ok bs)
    {b : β} (hb : b ∈ bs) : ∃ a ∈ as, f a = .ok b := by
  induction as generalizing bs with
  | nil =>
    obtain rfl := Except.ok.inj h
    exact absurd hb List.not_mem_nil
  | cons a as ih =>
    obtain ⟨c, cs, hc, hcs, rfl⟩ := mapM_cons_eq_ok.1 h
    rcases List.mem_cons.1 hb with rfl | hb
    · exact ⟨a, List.mem_cons_self, hc⟩
    · obtain ⟨a', ha', hb'⟩ := ih hcs hb
      exact ⟨a', List.mem_cons_of_mem _ ha', hb'⟩

/-- Every input has its result. -/
theorem exists_mem_of_mapM {f : α → Except ε β} {as : List α} {bs : List β} (h : as.mapM f = .ok bs)
    {a : α} (ha : a ∈ as) : ∃ b ∈ bs, f a = .ok b := by
  induction as generalizing bs with
  | nil => exact absurd ha List.not_mem_nil
  | cons a' as ih =>
    obtain ⟨c, cs, hc, hcs, rfl⟩ := mapM_cons_eq_ok.1 h
    rcases List.mem_cons.1 ha with rfl | ha
    · exact ⟨c, List.mem_cons_self, hc⟩
    · obtain ⟨b, hb, hab⟩ := ih hcs ha
      exact ⟨b, List.mem_cons_of_mem _ hb, hab⟩

/-- The results are in the order of their inputs. -/
theorem pairwise_mapM_iff {f : α → Except ε β} {r : β → β → Prop} {as : List α} {bs : List β}
    (h : as.mapM f = .ok bs) :
    bs.Pairwise r ↔ as.Pairwise fun a a' => ∀ b b', f a = .ok b → f a' = .ok b' → r b b' := by
  induction as generalizing bs with
  | nil =>
    obtain rfl := Except.ok.inj h
    exact iff_of_true List.Pairwise.nil List.Pairwise.nil
  | cons a as ih =>
    obtain ⟨b, bs', hb, hbs', rfl⟩ := mapM_cons_eq_ok.1 h
    rw [List.pairwise_cons, List.pairwise_cons, ih hbs']
    refine and_congr_left fun _ => ⟨fun hr a' ha' c c' hc hc' => ?_, fun hr b' hb' => ?_⟩
    · obtain rfl := Except.ok.inj (hb.symm.trans hc)
      obtain ⟨d, hd, had⟩ := exists_mem_of_mapM hbs' ha'
      obtain rfl := Except.ok.inj (had.symm.trans hc')
      exact hr _ hd
    · obtain ⟨a', ha', hab'⟩ := exists_of_mem_mapM hbs' hb'
      exact hr a' ha' b b' hb hab'

theorem length_of_mapM {f : α → Except ε β} {as : List α} {bs : List β} (h : as.mapM f = .ok bs) :
    bs.length = as.length := by
  induction as generalizing bs with
  | nil =>
    obtain rfl := Except.ok.inj h
    rfl
  | cons a as ih =>
    obtain ⟨c, cs, -, hcs, rfl⟩ := mapM_cons_eq_ok.1 h
    exact congrArg (· + 1) (ih hcs)

/-- Steps that succeed on some inputs, each with its result. -/
theorem mapM_map_eq_ok_iff {γ : Type} {f : α → Except ε β} {g : γ → α} {k : γ → β} {P : γ → Prop}
    {cs : List γ} (h : ∀ c ∈ cs, ∀ b, f (g c) = .ok b ↔ b = k c ∧ P c) (bs : List β) :
    (cs.map g).mapM f = .ok bs ↔ bs = cs.map k ∧ ∀ c ∈ cs, P c := by
  induction cs generalizing bs with
  | nil =>
    constructor
    · intro hbs
      exact ⟨(Except.ok.inj hbs).symm, by simp⟩
    · rintro ⟨rfl, -⟩
      rfl
  | cons c cs ih =>
    have hrest := ih fun d hd => h d (List.mem_cons_of_mem _ hd)
    rw [List.map_cons, mapM_cons_eq_ok, List.forall_mem_cons]
    constructor
    · rintro ⟨b, bs', hb, hbs', rfl⟩
      obtain ⟨rfl, hc⟩ := (h c List.mem_cons_self b).1 hb
      obtain ⟨rfl, hcs⟩ := (hrest bs').1 hbs'
      exact ⟨rfl, hc, hcs⟩
    · rintro ⟨rfl, hc, hcs⟩
      exact ⟨k c, cs.map k, (h c List.mem_cons_self _).2 ⟨rfl, hc⟩, (hrest _).2 ⟨rfl, hcs⟩, rfl⟩

end Checks
