import Mathlib.Data.List.Basic

/-!
# File trees with symbolic links

A tree has entries in its directories: directories, files, and symbolic links to a target. A location is
the list of the names that lead to it from the root.

* `Walks` is the resolution of a path: from a location, by steps, to another location. A link on the way
  is replaced by its target, and `up` leads to the parent. A path with a missing entry, or with links in a
  circle, walks nowhere.
* `DirectoryTree.resolve?` finds such a walk by following the steps (`walks_of_resolve?`).
* `Real` are the locations without a link on the way, and every path leads to one of them (`Walks.real`).
-/

namespace FileTree

/-- A step of a path. -/
inductive Step (Name : Type)
  | up
  | down (name : Name)

/-- What a name in a directory stands for. -/
inductive Node (Name : Type)
  | directory
  | file
  | link (isAbsolute : Bool) (target : List (Step Name))

/-- The entries, by the location of their directory and by their name. -/
structure DirectoryTree (Name : Type) where
  entry : List Name → Name → Option (Node Name)

variable {Name : Type}

/-- There is no link of this name. -/
def DirectoryTree.NoLink (t : DirectoryTree Name) (at' : List Name) (name : Name) : Prop :=
  ∀ isAbsolute target, t.entry at' name ≠ some (.link isAbsolute target)

/-- The steps of a path lead from a location to another one. -/
inductive Walks (t : DirectoryTree Name) : List Name → List (Step Name) → List Name → Prop
  | here (at' : List Name) : Walks t at' [] at'
  | up {at' : List Name} {steps : List (Step Name)} {r : List Name} :
      Walks t at'.dropLast steps r → Walks t at' (.up :: steps) r
  | enter {at' : List Name} {name : Name} {node : Node Name} {steps : List (Step Name)}
      {r : List Name} : t.entry at' name = some node → t.NoLink at' name →
      Walks t (at' ++ [name]) steps r → Walks t at' (.down name :: steps) r
  | follow {at' : List Name} {name : Name} {isAbsolute : Bool} {target steps : List (Step Name)}
      {r : List Name} : t.entry at' name = some (.link isAbsolute target) →
      Walks t (if isAbsolute then [] else at') (target ++ steps) r → Walks t at' (.down name :: steps) r

/-- A location without a link on the way. -/
inductive Real (t : DirectoryTree Name) : List Name → Prop
  | root : Real t []
  | enter {at' : List Name} {name : Name} {node : Node Name} : Real t at' →
      t.entry at' name = some node → t.NoLink at' name → Real t (at' ++ [name])

variable {t : DirectoryTree Name} {at' m r r' : List Name} {steps : List (Step Name)}

/-! ### Paths -/

/-- A path leads to one location. -/
theorem Walks.unique (h : Walks t at' steps r) (h' : Walks t at' steps r') : r = r' := by
  induction h with
  | here at' =>
    cases h' with
    | here => rfl
  | up _ ih =>
    cases h' with
    | up h' => exact ih h'
  | enter hentry hlink _ ih =>
    cases h' with
    | enter _ _ h' => exact ih h'
    | follow hentry' _ => exact absurd hentry' (hlink _ _)
  | follow hentry _ ih =>
    cases h' with
    | enter _ hlink _ => exact absurd hentry (hlink _ _)
    | follow hentry' h' =>
      obtain ⟨rfl, rfl⟩ := Node.link.inj (Option.some.inj (hentry.symm.trans hentry'))
      exact ih h'

theorem Walks.append {before : List (Step Name)} (h : Walks t at' before m)
    (hrest : Walks t m steps r) : Walks t at' (before ++ steps) r := by
  induction h with
  | here => exact hrest
  | up _ ih => exact .up (ih hrest)
  | enter hentry hlink _ ih => exact .enter hentry hlink (ih hrest)
  | follow hentry _ ih =>
    refine .follow hentry ?_
    have hwalk := ih hrest
    rwa [List.append_assoc] at hwalk

/-- A path in two parts. -/
theorem Walks.exists_of_append {before after : List (Step Name)} (h : Walks t at' (before ++ after) r) :
    ∃ m, Walks t at' before m ∧ Walks t m after r := by
  generalize hsteps : before ++ after = steps at h
  induction h generalizing before with
  | here at' =>
    obtain ⟨rfl, rfl⟩ := List.append_eq_nil_iff.1 hsteps
    exact ⟨at', .here at', .here at'⟩
  | @up at' steps r hwalk ih =>
    cases before with
    | nil =>
      obtain rfl : after = .up :: steps := hsteps
      exact ⟨at', .here at', .up hwalk⟩
    | cons step before =>
      obtain ⟨rfl, hrest⟩ := List.cons.inj hsteps
      obtain ⟨m, hbefore, hafter⟩ := ih hrest
      exact ⟨m, .up hbefore, hafter⟩
  | @enter at' name node steps r hentry hlink hwalk ih =>
    cases before with
    | nil =>
      obtain rfl : after = .down name :: steps := hsteps
      exact ⟨at', .here at', .enter hentry hlink hwalk⟩
    | cons step before =>
      obtain ⟨rfl, hrest⟩ := List.cons.inj hsteps
      obtain ⟨m, hbefore, hafter⟩ := ih hrest
      exact ⟨m, .enter hentry hlink hbefore, hafter⟩
  | @follow at' name isAbsolute target steps r hentry hwalk ih =>
    cases before with
    | nil =>
      obtain rfl : after = .down name :: steps := hsteps
      exact ⟨at', .here at', .follow hentry hwalk⟩
    | cons step before =>
      obtain ⟨rfl, rfl⟩ := List.cons.inj hsteps
      obtain ⟨m, hbefore, hafter⟩ := @ih (target ++ before) (List.append_assoc _ _ _)
      exact ⟨m, .follow hentry hbefore, hafter⟩

/-! ### Real locations -/

theorem Real.dropLast (h : Real t at') : Real t at'.dropLast := by
  cases h with
  | root => exact .root
  | enter h _ _ =>
    rw [List.dropLast_concat]
    exact h

/-- A path from a real location leads to a real location. -/
theorem Walks.real (h : Walks t at' steps r) (hat : Real t at') : Real t r := by
  induction h with
  | here => exact hat
  | up _ ih => exact ih hat.dropLast
  | enter hentry hlink _ ih => exact ih (hat.enter hentry hlink)
  | @follow at' name isAbsolute target steps r hentry _ ih =>
    refine ih ?_
    cases isAbsolute with
    | true => exact .root
    | false => exact hat

/-- A real location is where its names lead. -/
theorem Real.walks (h : Real t r) : Walks t [] (r.map .down) r := by
  induction h with
  | root => exact .here []
  | enter _ hentry hlink ih =>
    rw [List.map_append]
    exact ih.append (.enter hentry hlink (.here _))

theorem Real.entry_of_mem {name : Name} (h : Real t r) (hname : name ∈ r) :
    ∃ at' node, t.entry at' name = some node := by
  induction h with
  | root => exact absurd hname List.not_mem_nil
  | @enter at' last node _ hentry _ ih =>
    rcases List.mem_append.1 hname with hname | hname
    · exact ih hname
    · rw [List.mem_singleton.1 hname]
      exact ⟨at', node, hentry⟩

/-! ### Finding a walk -/

/-- The location that a path leads to, by at most so many steps, those of the links included. -/
def DirectoryTree.resolve? (t : DirectoryTree Name) : ℕ → List Name → List (Step Name) →
    Option (List Name)
  | _, at', [] => some at'
  | 0, _, _ :: _ => none
  | fuel + 1, at', .up :: steps => t.resolve? fuel at'.dropLast steps
  | fuel + 1, at', .down name :: steps =>
    match t.entry at' name with
    | none => none
    | some (.link isAbsolute target) =>
      t.resolve? fuel (if isAbsolute then [] else at') (target ++ steps)
    | some _ => t.resolve? fuel (at' ++ [name]) steps

theorem walks_of_resolve? {fuel : ℕ} (h : t.resolve? fuel at' steps = some r) :
    Walks t at' steps r := by
  fun_induction DirectoryTree.resolve? t fuel at' steps with
  | case1 =>
    obtain rfl := Option.some.inj h
    exact .here _
  | case2 => cases h
  | case3 _ _ _ ih => exact .up (ih h)
  | case4 => cases h
  | case5 _ _ _ _ _ _ hentry ih => exact .follow hentry (ih h)
  | case6 _ _ _ _ _ hlink hentry ih =>
    refine .enter hentry (fun isAbsolute target heq => ?_) (ih h)
    exact hlink isAbsolute target (Option.some.inj (hentry.symm.trans heq))

end FileTree
