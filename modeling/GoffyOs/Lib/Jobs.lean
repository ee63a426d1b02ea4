import Mathlib.Data.List.Basic
import Mathlib.Logic.Function.Basic

/-!
# Jobs

The coroutines that a component has launched and that have not ended. A job consists of what it was
launched for (its task, which never changes), the point of its code where it stands, and whether it
was cancelled. A cancelled job stays in the table until it has ended; what it may still do is for the
component to say.

* `launch` gives a job a number that was never used before (`fresh`);
* `move`, `cancel` and `finish` change one entry, and `task_move`, `task_cancel` and
  `task_finish_eq_some_iff` say that the tasks of the others stay;
* `isDone` is what `join` waits for;
* `Only` says that nothing else runs.
-/

/-- A coroutine that has not ended. -/
structure Job (τ π : Type*) where
  task : τ
  point : π
  cancelled : Bool
  deriving DecidableEq

/-- The running jobs by number. -/
structure Jobs (τ π : Type*) where
  get : ℕ → Option (Job τ π)
  next : ℕ
  fresh : ∀ j, next ≤ j → get j = none

namespace Jobs

variable {τ π : Type*} {t : Jobs τ π} {i j : ℕ} {job x : Job τ π}

/-- No job is running. -/
def empty : Jobs τ π := ⟨fun _ => none, 0, fun _ _ => rfl⟩

/-- Start a job, under the number `t.next`. -/
def launch (t : Jobs τ π) (task : τ) (point : π) : Jobs τ π where
  get := Function.update t.get t.next (some ⟨task, point, false⟩)
  next := t.next + 1
  fresh j hj := by
    rw [Function.update_of_ne (by omega)]
    exact t.fresh j (by omega)

/-- Change the entry of a job that is running. -/
def modify (t : Jobs τ π) (j : ℕ) (f : Job τ π → Option (Job τ π)) : Jobs τ π where
  get := Function.update t.get j ((t.get j).bind f)
  next := t.next
  fresh i hi := by
    by_cases h : i = j
    · subst h
      simp [t.fresh i hi]
    · rw [Function.update_of_ne h]
      exact t.fresh i hi

/-- The job has come to another point. -/
def move (t : Jobs τ π) (j : ℕ) (point : π) : Jobs τ π :=
  t.modify j fun job => some { job with point := point }

/-- Cancel a job, if there is one. -/
def cancel (t : Jobs τ π) : Option ℕ → Jobs τ π
  | none => t
  | some j => t.modify j fun job => some { job with cancelled := true }

/-- The job has ended. -/
def finish (t : Jobs τ π) (j : ℕ) : Jobs τ π := t.modify j fun _ => none

/-- Joining this job does not wait. -/
def isDone (t : Jobs τ π) : Option ℕ → Bool
  | none => true
  | some j => (t.get j).isNone

/-- What a running job was launched for. -/
def task (t : Jobs τ π) (j : ℕ) : Option τ := (t.get j).map Job.task

theorem lt_next (h : t.get j = some job) : j < t.next := by
  by_contra hj
  rw [t.fresh j (by omega)] at h
  cases h

theorem task_eq_some (h : t.get j = some job) : t.task j = some job.task := by
  rw [task, h, Option.map_some]

@[simp] theorem empty_get (j : ℕ) : (empty : Jobs τ π).get j = none := rfl

theorem modify_get (f : Job τ π → Option (Job τ π)) :
    (t.modify j f).get = Function.update t.get j ((t.get j).bind f) := rfl

@[simp] theorem launch_next (task : τ) (point : π) : (t.launch task point).next = t.next + 1 := rfl

@[simp] theorem move_next (point : π) : (t.move j point).next = t.next := rfl

@[simp] theorem finish_next : (t.finish j).next = t.next := rfl

@[simp] theorem cancel_next (o : Option ℕ) : (t.cancel o).next = t.next := by
  cases o <;> rfl

theorem launch_get_eq_some_iff {task : τ} {point : π} :
    (t.launch task point).get i = some x ↔
      i = t.next ∧ x = ⟨task, point, false⟩ ∨ t.get i = some x := by
  rw [launch]
  by_cases h : i = t.next
  · subst h
    simp [t.fresh t.next (Nat.le_refl _), eq_comm]
  · simp [h]

theorem modify_get_eq_some_iff {f : Job τ π → Option (Job τ π)} :
    (t.modify j f).get i = some x ↔
      (i = j ∧ ∃ job, t.get j = some job ∧ f job = some x) ∨ (i ≠ j ∧ t.get i = some x) := by
  rw [modify]
  by_cases h : i = j
  · subst h
    simp [Option.bind_eq_some_iff]
  · simp [h]

theorem move_get_eq_some_iff {point : π} (h : t.get j = some job) :
    (t.move j point).get i = some x ↔
      (i = j ∧ x = { job with point := point }) ∨ (i ≠ j ∧ t.get i = some x) := by
  rw [move, modify_get_eq_some_iff]
  simp [h, eq_comm]

theorem finish_get_eq_some_iff : (t.finish j).get i = some x ↔ i ≠ j ∧ t.get i = some x := by
  rw [finish, modify_get_eq_some_iff]
  simp

/-- A job that goes on has not ended. -/
theorem move_ne_finish {point : π} (h : t.get j = some job) : t.move j point ≠ t.finish j := by
  intro heq
  have hmove : (t.move j point).get j = some { job with point := point } :=
    (move_get_eq_some_iff h).2 (Or.inl ⟨rfl, rfl⟩)
  rw [heq] at hmove
  exact (finish_get_eq_some_iff.1 hmove).1 rfl

theorem cancel_get_eq_some_iff {o : Option ℕ} :
    (t.cancel o).get i = some x ↔ ∃ job, t.get i = some job ∧
      x = if o = some i then { job with cancelled := true } else job := by
  cases o with
  | none => simp [cancel]
  | some j =>
    rw [cancel, modify_get_eq_some_iff]
    by_cases h : i = j
    · subst h
      simp [eq_comm]
    · simp [h, Ne.symm h]

theorem task_launch_eq_some_iff {task task' : τ} {point : π} :
    (t.launch task point).task i = some task' ↔
      i = t.next ∧ task' = task ∨ t.task i = some task' := by
  simp only [Jobs.task, Option.map_eq_some_iff, launch_get_eq_some_iff]
  constructor
  · rintro ⟨x, ⟨rfl, rfl⟩ | hx, rfl⟩
    · exact Or.inl ⟨rfl, rfl⟩
    · exact Or.inr ⟨x, hx, rfl⟩
  · rintro (⟨rfl, rfl⟩ | ⟨x, hx, rfl⟩)
    · exact ⟨_, Or.inl ⟨rfl, rfl⟩, rfl⟩
    · exact ⟨x, Or.inr hx, rfl⟩

/-- A change that keeps every job keeps the tasks. -/
theorem task_modify {f : Job τ π → Job τ π} (hf : ∀ job, (f job).task = job.task) :
    (t.modify j fun job => some (f job)).task i = t.task i := by
  rw [task, task, modify_get]
  by_cases h : i = j
  · subst h
    rw [Function.update_self]
    cases t.get i with
    | none => rfl
    | some job => simp [hf]
  · rw [Function.update_of_ne h]

@[simp] theorem task_move (point : π) : (t.move j point).task i = t.task i :=
  task_modify fun _ => rfl

@[simp] theorem task_cancel (o : Option ℕ) : (t.cancel o).task i = t.task i := by
  cases o with
  | none => rfl
  | some j => exact task_modify fun _ => rfl

theorem task_finish_eq_some_iff {task : τ} :
    (t.finish j).task i = some task ↔ i ≠ j ∧ t.task i = some task := by
  simp only [Jobs.task, Option.map_eq_some_iff, finish_get_eq_some_iff]
  constructor
  · rintro ⟨x, ⟨hi, hx⟩, rfl⟩
    exact ⟨hi, x, hx, rfl⟩
  · rintro ⟨hi, x, hx, rfl⟩
    exact ⟨x, ⟨hi, hx⟩, rfl⟩

theorem isDone_eq_true_iff {o : Option ℕ} :
    t.isDone o = true ↔ ∀ j, o = some j → t.get j = none := by
  cases o <;> simp [isDone]

/-- One job is running. -/
def Only (t : Jobs τ π) (j : ℕ) (job : Job τ π) : Prop :=
  ∀ i x, t.get i = some x ↔ i = j ∧ x = job

theorem Only.get (h : t.Only j job) : t.get j = some job := (h j job).2 ⟨rfl, rfl⟩

theorem Only.move (h : t.Only j job) (point : π) :
    (t.move j point).Only j { job with point := point } := by
  intro i x
  rw [move_get_eq_some_iff h.get, h i x]
  constructor
  · rintro (hx | ⟨hne, heq, -⟩)
    · exact hx
    · exact (hne heq).elim
  · exact Or.inl

theorem Only.finish (h : t.Only j job) (i : ℕ) : (t.finish j).get i = none := by
  by_contra hi
  obtain ⟨x, hx⟩ := Option.ne_none_iff_exists'.1 hi
  obtain ⟨hne, hold⟩ := finish_get_eq_some_iff.1 hx
  exact hne ((h i x).1 hold).1

theorem only_launch (h : ∀ i, t.get i = none) (task : τ) (point : π) :
    (t.launch task point).Only t.next ⟨task, point, false⟩ := by
  intro i x
  rw [launch_get_eq_some_iff]
  simp [h i]

/-- Whether no job is running can be found out by looking at the numbers that were used. -/
theorem get_eq_none_of_below (h : ∀ j < t.next, t.get j = none) (j : ℕ) : t.get j = none := by
  by_cases hj : j < t.next
  · exact h j hj
  · exact t.fresh j (by omega)

end Jobs
