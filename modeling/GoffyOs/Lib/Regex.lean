import Mathlib.Data.List.Basic

/-!
# Regular expressions with backtracking

A `Pattern` is the syntax that two engines read; an `Engine` says which characters are in a set and which
are letters of a word. `run` lists the ways in which a pattern matches at a cursor, in the order in which
a backtracking engine tries them, so that the first one is the match that it reports.

* `find`, `matchEntire` and `remove` are what programs ask for;
* `run_map`: two engines that agree on the characters of a text match it in the same way;
* `Lang` is the language of a pattern, and `lang_of_mem_run` says that a match is a word of it.
-/

namespace Regex

/-- A set of characters, as a pattern writes it. -/
inductive CharSet
  | char (c : Char)
  | ranges (rs : List (Char × Char))
  /-- `.` -/
  | any
  /-- `\s` -/
  | space
  /-- `\S` -/
  | notSpace
  deriving DecidableEq

structure Engine (α : Type) where
  isIn : CharSet → α → Bool
  /-- `\w` -/
  isWord : α → Bool

inductive Pattern
  | empty
  | one (set : CharSet)
  /-- `\b` -/
  | boundary
  /-- `^` -/
  | start
  /-- `$`, in a pattern that has to match a whole text. -/
  | finish
  | seq (p q : Pattern)
  | alt (p q : Pattern)
  /-- `*` -/
  | star (p : Pattern)
  | group (n : ℕ) (p : Pattern)
  deriving DecidableEq

namespace Pattern

/-- A text. -/
def text : List Char → Pattern
  | [] => empty
  | [c] => one (.char c)
  | c :: s => seq (one (.char c)) (text s)

def literal (s : String) : Pattern := text s.toList

/-- `p|q|...`. -/
def oneOf : List Pattern → Pattern
  | [] => one (.ranges [])
  | [p] => p
  | p :: ps => alt p (oneOf ps)

/-- `pq...`. -/
def inTurn : List Pattern → Pattern
  | [] => empty
  | [p] => p
  | p :: ps => seq p (inTurn ps)

/-- `p?`. -/
def optional (p : Pattern) : Pattern := alt p empty

/-- `p+`. -/
def plus (p : Pattern) : Pattern := seq p (star p)

/-- `p{0,n}`. -/
def atMost (p : Pattern) : ℕ → Pattern
  | 0 => empty
  | n + 1 => optional (seq p (atMost p n))

/-- `p{n}`. -/
def times (p : Pattern) : ℕ → Pattern
  | 0 => empty
  | n + 1 => seq p (times p n)

/-- `p{m,n}`. -/
def between (p : Pattern) (m n : ℕ) : Pattern := seq (times p m) (atMost p (n - m))

end Pattern

/-- A place in a text, and what the groups have matched. -/
structure Cursor (α : Type) where
  /-- the characters before the place, the last one first -/
  before : List α
  rest : List α
  groups : List (ℕ × List α)

def Cursor.step {α : Type} (x : Cursor α) (a : α) (s : List α) : Cursor α :=
  { x with before := a :: x.before, rest := s }

/-- The text of a group, at the end of a match. -/
def Cursor.groupValue {α : Type} (x : Cursor α) (n : ℕ) : List α := (x.groups.lookup n).getD []

def start {α : Type} (s : List α) : Cursor α := ⟨[], s, []⟩

section

variable {α : Type} (e : Engine α)

/-- A word begins or ends at the cursor. -/
def Engine.atBoundary (x : Cursor α) : Bool := x.before.head?.any e.isWord != x.rest.head?.any e.isWord

/-- A greedy loop. A round that takes no character ends it, so that there are no more rounds than
characters. -/
def loop (round : Cursor α → List (Cursor α)) : ℕ → Cursor α → List (Cursor α)
  | 0, x => [x]
  | fuel + 1, x =>
    ((round x).filter fun y => y.rest.length < x.rest.length).flatMap (loop round fuel) ++ [x]

/-- The matches of a pattern at a cursor, by the cursors after them. -/
def run : Pattern → Cursor α → List (Cursor α)
  | .empty, x => [x]
  | .one set, x =>
    match x.rest with
    | [] => []
    | a :: s => if e.isIn set a then [x.step a s] else []
  | .boundary, x => if e.atBoundary x then [x] else []
  | .start, x => if x.before.isEmpty then [x] else []
  | .finish, x => if x.rest.isEmpty then [x] else []
  | .seq p q, x => (run p x).flatMap (run q)
  | .alt p q, x => run p x ++ run q x
  | .star p, x => loop (run p) x.rest.length x
  | .group n p, x => (run p x).map fun y =>
      { y with groups := (n, x.rest.take (x.rest.length - y.rest.length)) :: y.groups }

/-- The match of the whole text. -/
def matchEntire (p : Pattern) (s : List α) : Option (Cursor α) :=
  (run e p (start s)).find? (·.rest.isEmpty)

def isMatch (p : Pattern) (s : List α) : Bool := (matchEntire e p s).isSome

/-- The first match from a place on, that has these characters before it. -/
def findFrom (p : Pattern) (before : List α) : List α → Option (Cursor α)
  | [] => (run e p ⟨before, [], []⟩).head?
  | a :: s =>
    match (run e p ⟨before, a :: s, []⟩).head? with
    | some y => some y
    | none => findFrom p (a :: before) s

/-- The first match in a text. -/
def find (p : Pattern) (s : List α) : Option (Cursor α) := findFrom e p [] s

/-- There is a match in the text. -/
def search (p : Pattern) (s : List α) : Bool := (find e p s).isSome

/-- The text from a cursor on without the matches in it. -/
def removeFrom (p : Pattern) : ℕ → Cursor α → List α
  | 0, x => x.rest
  | fuel + 1, x =>
    match x.rest with
    | [] => []
    | a :: s =>
      match (run e p x).head? with
      | none => a :: removeFrom p fuel ⟨a :: x.before, s, []⟩
      | some y =>
        if y.rest.length < x.rest.length then removeFrom p fuel ⟨y.before, y.rest, []⟩
        else a :: removeFrom p fuel ⟨a :: x.before, s, []⟩

/-- The text without the matches in it: each round takes a character at least. -/
def remove (p : Pattern) (s : List α) : List α := removeFrom e p s.length (start s)

end

/-! ### Languages -/

section Lang

variable {α : Type} {e : Engine α} {p q : Pattern} {w : List α}

/-- The words that a pattern matches. -/
def Lang (e : Engine α) : Pattern → List α → Prop
  | .empty, w => w = []
  | .one set, w => ∃ a, w = [a] ∧ e.isIn set a = true
  | .boundary, w => w = []
  | .start, w => w = []
  | .finish, w => w = []
  | .seq p q, w => ∃ u v, w = u ++ v ∧ Lang e p u ∧ Lang e q v
  | .alt p q, w => Lang e p w ∨ Lang e q w
  | .star p, w => ∃ us : List (List α), w = us.flatten ∧ ∀ u ∈ us, Lang e p u
  | .group _ p, w => Lang e p w

/-- The cursor moved over a word. -/
def Moved (w : List α) (x y : Cursor α) : Prop :=
  x.rest = w ++ y.rest ∧ y.before = w.reverse ++ x.before

theorem Moved.refl (x : Cursor α) : Moved [] x x := ⟨rfl, rfl⟩

theorem Moved.trans {u v : List α} {x y z : Cursor α} (h : Moved u x y) (h' : Moved v y z) :
    Moved (u ++ v) x z := by
  obtain ⟨hrest, hbefore⟩ := h
  obtain ⟨hrest', hbefore'⟩ := h'
  refine ⟨?_, ?_⟩
  · rw [hrest, hrest', List.append_assoc]
  · rw [hbefore', hbefore, List.reverse_append, List.append_assoc]

theorem lang_of_mem_loop {round : Cursor α → List (Cursor α)}
    (hround : ∀ x y, y ∈ round x → ∃ w, Lang e p w ∧ Moved w x y) (fuel : ℕ) :
    ∀ x y, y ∈ loop round fuel x → ∃ w, Lang e (.star p) w ∧ Moved w x y := by
  induction fuel with
  | zero =>
    intro x y hy
    rw [List.mem_singleton.1 hy]
    exact ⟨[], ⟨[], rfl, fun u hu => absurd hu List.not_mem_nil⟩, Moved.refl x⟩
  | succ fuel ih =>
    intro x y hy
    rcases List.mem_append.1 hy with hy | hy
    · obtain ⟨z, hz, hy⟩ := List.mem_flatMap.1 hy
      obtain ⟨u, hu, hxz⟩ := hround x z (List.mem_of_mem_filter hz)
      obtain ⟨v, ⟨us, rfl, hus⟩, hzy⟩ := ih z y hy
      exact ⟨u ++ us.flatten, ⟨u :: us, rfl, List.forall_mem_cons.2 ⟨hu, hus⟩⟩, hxz.trans hzy⟩
    · rw [List.mem_singleton.1 hy]
      exact ⟨[], ⟨[], rfl, fun u hu => absurd hu List.not_mem_nil⟩, Moved.refl x⟩

/-- A match takes a word of the language. -/
theorem lang_of_mem_run (p : Pattern) :
    ∀ x y : Cursor α, y ∈ run e p x → ∃ w, Lang e p w ∧ Moved w x y := by
  induction p with
  | empty =>
    intro x y hy
    rw [List.mem_singleton.1 hy]
    exact ⟨[], rfl, Moved.refl x⟩
  | one set =>
    intro x y hy
    unfold run at hy
    split at hy
    · exact absurd hy List.not_mem_nil
    case h_2 a s hrest =>
      split at hy
      case isTrue hin =>
        rw [List.mem_singleton.1 hy]
        exact ⟨[a], ⟨a, rfl, hin⟩, hrest, rfl⟩
      · exact absurd hy List.not_mem_nil
  | boundary | start | finish =>
    intro x y hy
    unfold run at hy
    split at hy
    · rw [List.mem_singleton.1 hy]
      exact ⟨[], rfl, Moved.refl x⟩
    · exact absurd hy List.not_mem_nil
  | seq p q ihp ihq =>
    intro x y hy
    obtain ⟨z, hz, hy⟩ := List.mem_flatMap.1 hy
    obtain ⟨u, hu, hxz⟩ := ihp x z hz
    obtain ⟨v, hv, hzy⟩ := ihq z y hy
    exact ⟨u ++ v, ⟨u, v, rfl, hu, hv⟩, hxz.trans hzy⟩
  | alt p q ihp ihq =>
    intro x y hy
    rcases List.mem_append.1 hy with hy | hy
    · obtain ⟨w, hw, hxy⟩ := ihp x y hy
      exact ⟨w, Or.inl hw, hxy⟩
    · obtain ⟨w, hw, hxy⟩ := ihq x y hy
      exact ⟨w, Or.inr hw, hxy⟩
  | star p ih => exact fun x y hy => lang_of_mem_loop ih x.rest.length x y hy
  | group n p ih =>
    intro x y hy
    obtain ⟨z, hz, rfl⟩ := List.mem_map.1 hy
    obtain ⟨w, hw, hxz⟩ := ih x z hz
    exact ⟨w, hw, hxz⟩

/-- Removing matches leaves characters of the text. -/
theorem mem_of_mem_removeFrom (p : Pattern) {a : α} (fuel : ℕ) :
    ∀ x : Cursor α, a ∈ removeFrom e p fuel x → a ∈ x.rest := by
  induction fuel with
  | zero => exact fun x ha => ha
  | succ fuel ih =>
    intro x ha
    rw [removeFrom] at ha
    cases hrest : x.rest with
    | nil =>
      rw [hrest] at ha
      exact ha
    | cons b s =>
      have hkeep : a ∈ b :: removeFrom e p fuel ⟨b :: x.before, s, []⟩ → a ∈ b :: s := by
        intro ha
        rcases List.mem_cons.1 ha with rfl | ha
        · exact List.mem_cons_self
        · exact List.mem_cons_of_mem _ (ih ⟨b :: x.before, s, []⟩ ha)
      rw [hrest] at ha
      dsimp only at ha
      cases hfirst : (run e p x).head? with
      | none =>
        rw [hfirst] at ha
        exact hkeep ha
      | some y =>
        rw [hfirst] at ha
        dsimp only at ha
        split at ha
        · obtain ⟨w, -, hmoved, -⟩ := lang_of_mem_run p x y (List.mem_of_mem_head? hfirst)
          rw [← hrest, hmoved]
          exact List.mem_append_right _ (ih ⟨y.before, y.rest, []⟩ ha)
        · exact hkeep ha

theorem mem_of_mem_remove {a : α} {s : List α} (ha : a ∈ remove e p s) : a ∈ s :=
  mem_of_mem_removeFrom p s.length (start s) ha

/-- The characters of a word are in the set. -/
def AllIn (e : Engine α) (set : CharSet) (w : List α) : Prop := ∀ a ∈ w, e.isIn set a = true

theorem AllIn.append {set : CharSet} {u v : List α} (hu : AllIn e set u) (hv : AllIn e set v) :
    AllIn e set (u ++ v) := by
  intro a ha
  rcases List.mem_append.1 ha with ha | ha
  · exact hu a ha
  · exact hv a ha

theorem allIn_singleton {set : CharSet} {a : α} (ha : e.isIn set a = true) : AllIn e set [a] := by
  intro b hb
  rw [List.mem_singleton.1 hb]
  exact ha

theorem lang_times_one {set : CharSet} {n : ℕ} (h : Lang e (.times (.one set) n) w) :
    AllIn e set w ∧ w.length = n := by
  induction n generalizing w with
  | zero =>
    obtain rfl : w = [] := h
    exact ⟨fun a ha => absurd ha List.not_mem_nil, rfl⟩
  | succ n ih =>
    obtain ⟨_, v, rfl, ⟨a, rfl, ha⟩, hv⟩ := h
    obtain ⟨hall, hlength⟩ := ih hv
    refine ⟨(allIn_singleton ha).append hall, ?_⟩
    rw [List.length_append, List.length_singleton, hlength, Nat.add_comm]

theorem lang_atMost_one {set : CharSet} {n : ℕ} (h : Lang e (.atMost (.one set) n) w) :
    AllIn e set w ∧ w.length ≤ n := by
  induction n generalizing w with
  | zero =>
    obtain rfl : w = [] := h
    exact ⟨fun a ha => absurd ha List.not_mem_nil, Nat.le_refl 0⟩
  | succ n ih =>
    rcases h with ⟨_, v, rfl, ⟨a, rfl, ha⟩, hv⟩ | hnil
    · obtain ⟨hall, hlength⟩ := ih hv
      refine ⟨(allIn_singleton ha).append hall, ?_⟩
      rw [List.length_append, List.length_singleton]
      omega
    · obtain rfl : w = [] := hnil
      exact ⟨fun a ha => absurd ha List.not_mem_nil, Nat.zero_le _⟩

/-- A match of the whole text makes it a word. -/
theorem lang_of_isMatch {s : List α} (h : isMatch e p s = true) : Lang e p s := by
  obtain ⟨y, hy⟩ := Option.isSome_iff_exists.1 h
  rw [matchEntire] at hy
  have hwhole : y.rest.isEmpty = true := List.find?_some (p := fun x : Cursor α => x.rest.isEmpty) hy
  have hend : y.rest = [] := List.isEmpty_iff.1 hwhole
  obtain ⟨w, hw, hmoved, -⟩ := lang_of_mem_run p _ _ (List.mem_of_find?_eq_some hy)
  rw [hend, List.append_nil] at hmoved
  have heq : s = w := hmoved
  rwa [heq]

/-- The sets that a pattern takes characters of. -/
def Pattern.sets : Pattern → List CharSet
  | .one set => [set]
  | .seq p q | .alt p q => p.sets ++ q.sets
  | .star p | .group _ p => p.sets
  | .empty | .boundary | .start | .finish => []

/-- A character of a word is in one of the sets of the pattern. -/
theorem exists_set_of_lang (h : Lang e p w) : ∀ a ∈ w, ∃ set ∈ p.sets, e.isIn set a = true := by
  induction p generalizing w with
  | empty | boundary | start | finish =>
    obtain rfl : w = [] := h
    exact fun a ha => absurd ha List.not_mem_nil
  | one set =>
    obtain ⟨b, rfl, hb⟩ := h
    intro a ha
    obtain rfl := List.mem_singleton.1 ha
    exact ⟨set, List.mem_cons_self, hb⟩
  | seq p q ihp ihq =>
    obtain ⟨u, v, rfl, hu, hv⟩ := h
    intro a ha
    rcases List.mem_append.1 ha with ha | ha
    · obtain ⟨set, hset, hin⟩ := ihp hu a ha
      exact ⟨set, List.mem_append_left _ hset, hin⟩
    · obtain ⟨set, hset, hin⟩ := ihq hv a ha
      exact ⟨set, List.mem_append_right _ hset, hin⟩
  | alt p q ihp ihq =>
    intro a ha
    rcases h with h | h
    · obtain ⟨set, hset, hin⟩ := ihp h a ha
      exact ⟨set, List.mem_append_left _ hset, hin⟩
    · obtain ⟨set, hset, hin⟩ := ihq h a ha
      exact ⟨set, List.mem_append_right _ hset, hin⟩
  | star p ih =>
    obtain ⟨us, rfl, hus⟩ := h
    intro a ha
    obtain ⟨u, hu, hau⟩ := List.mem_flatten.1 ha
    exact ih (hus u hu) a hau
  | group n p ih => exact ih h

/-- A word of a bounded repetition. -/
theorem lang_between_one {set : CharSet} {m n : ℕ} (hmn : m ≤ n)
    (h : Lang e (.between (.one set) m n) w) : AllIn e set w ∧ m ≤ w.length ∧ w.length ≤ n := by
  obtain ⟨u, v, rfl, hu, hv⟩ := h
  obtain ⟨hallu, hlengthu⟩ := lang_times_one hu
  obtain ⟨hallv, hlengthv⟩ := lang_atMost_one hv
  rw [List.length_append]
  exact ⟨hallu.append hallv, by omega, by omega⟩

end Lang

/-! ### Two engines -/

section Map

variable {α β : Type} {e : Engine α} {e' : Engine β} {f : α → β} {P : α → Prop}

/-- The engines agree on the characters of a kind. -/
structure Agree (e : Engine α) (e' : Engine β) (f : α → β) (P : α → Prop) : Prop where
  isIn : ∀ a, P a → ∀ set, e'.isIn set (f a) = e.isIn set a
  isWord : ∀ a, P a → e'.isWord (f a) = e.isWord a

def Cursor.map (f : α → β) (x : Cursor α) : Cursor β :=
  ⟨x.before.map f, x.rest.map f, x.groups.map fun g => (g.1, g.2.map f)⟩

/-- The text around the cursor has characters of a kind only. -/
structure Cursor.All (P : α → Prop) (x : Cursor α) : Prop where
  before : ∀ a ∈ x.before, P a
  rest : ∀ a ∈ x.rest, P a

theorem Cursor.All.of_moved {x y : Cursor α} {w : List α} (hx : x.All P) (h : Moved w x y) :
    y.All P where
  before a ha := by
    rw [h.2] at ha
    rcases List.mem_append.1 ha with ha | ha
    · refine hx.rest a ?_
      rw [h.1]
      exact List.mem_append_left _ (List.mem_reverse.1 ha)
    · exact hx.before a ha
  rest a ha := by
    refine hx.rest a ?_
    rw [h.1]
    exact List.mem_append_right _ ha

theorem Cursor.All.of_mem_run {p : Pattern} {x y : Cursor α} (hx : x.All P) (hy : y ∈ run e p x) :
    y.All P := by
  obtain ⟨w, -, hmoved⟩ := lang_of_mem_run p x y hy
  exact hx.of_moved hmoved

theorem any_head?_map (hagree : Agree e e' f P) {s : List α} (hs : ∀ a ∈ s, P a) :
    (s.map f).head?.any e'.isWord = s.head?.any e.isWord := by
  cases s with
  | nil => rfl
  | cons a s => exact hagree.isWord a (hs a List.mem_cons_self)

theorem loop_map {round : Cursor α → List (Cursor α)} {round' : Cursor β → List (Cursor β)}
    (hround : ∀ x : Cursor α, x.All P →
      round' (x.map f) = (round x).map (Cursor.map f) ∧ ∀ y ∈ round x, y.All P) (fuel : ℕ) :
    ∀ x : Cursor α, x.All P → loop round' fuel (x.map f) = (loop round fuel x).map (Cursor.map f) := by
  induction fuel with
  | zero => exact fun x _ => rfl
  | succ fuel ih =>
    intro x hx
    obtain ⟨hmap, hall⟩ := hround x hx
    have hfilter : ((round x).map (Cursor.map f)).filter
        (fun y => decide (y.rest.length < (x.map f).rest.length)) =
        ((round x).filter fun y => decide (y.rest.length < x.rest.length)).map (Cursor.map f) := by
      rw [List.filter_map]
      congr 1
      refine List.filter_congr fun y _ => ?_
      simp only [Function.comp_apply, Cursor.map, List.length_map]
    have hrest : ∀ y ∈ (round x).filter fun y => decide (y.rest.length < x.rest.length),
        loop round' fuel (y.map f) = (loop round fuel y).map (Cursor.map f) := fun y hy =>
      ih y (hall y (List.mem_of_mem_filter hy))
    rw [loop, loop, hmap, hfilter, List.map_append, List.flatMap_map, List.map_flatMap,
      List.flatMap_congr hrest]
    rfl

/-- Engines that agree on the characters of a text match it in the same way. -/
theorem run_map (hagree : Agree e e' f P) (p : Pattern) :
    ∀ x : Cursor α, x.All P → run e' p (x.map f) = (run e p x).map (Cursor.map f) := by
  induction p with
  | empty => exact fun x _ => rfl
  | one set =>
    intro x hx
    unfold run
    cases hrest : x.rest with
    | nil =>
      have hmap : (x.map f).rest = [] := by rw [Cursor.map, hrest]; rfl
      rw [hmap]
      rfl
    | cons a s =>
      have hmap : (x.map f).rest = f a :: s.map f := by rw [Cursor.map, hrest]; rfl
      have ha : P a := hx.rest a (by rw [hrest]; exact List.mem_cons_self)
      rw [hmap]
      dsimp only
      rw [hagree.isIn a ha]
      split
      · rfl
      · rfl
  | boundary =>
    intro x hx
    have hboundary : e'.atBoundary (x.map f) = e.atBoundary x := by
      unfold Engine.atBoundary
      rw [← any_head?_map hagree hx.before, ← any_head?_map hagree hx.rest]
      rfl
    unfold run
    rw [hboundary]
    split
    · rfl
    · rfl
  | start =>
    intro x _
    unfold run
    rw [Cursor.map, List.isEmpty_map]
    split
    · rfl
    · rfl
  | finish =>
    intro x _
    unfold run
    rw [Cursor.map, List.isEmpty_map]
    split
    · rfl
    · rfl
  | seq p q ihp ihq =>
    intro x hx
    have hrest : ∀ y ∈ run e p x, run e' q (y.map f) = (run e q y).map (Cursor.map f) :=
      fun y hy => ihq y (hx.of_mem_run hy)
    rw [run, run, ihp x hx, List.flatMap_map, List.map_flatMap, List.flatMap_congr hrest]
  | alt p q ihp ihq =>
    intro x hx
    rw [run, run, ihp x hx, ihq x hx, List.map_append]
  | star p ih =>
    intro x hx
    have hlength : (x.map f).rest.length = x.rest.length := List.length_map _
    rw [run, run, hlength]
    exact loop_map (fun y hy => ⟨ih y hy, fun z hz => hy.of_mem_run hz⟩) x.rest.length x hx
  | group n p ih =>
    intro x hx
    rw [run, run, ih x hx, List.map_map, List.map_map]
    refine List.map_congr_left fun y _ => ?_
    simp only [Function.comp_apply, Cursor.map, List.length_map, List.map_cons, List.map_take]

theorem findFrom_map (hagree : Agree e e' f P) (p : Pattern) {s : List α} :
    ∀ before : List α, (∀ a ∈ before, P a) → (∀ a ∈ s, P a) →
      findFrom e' p (before.map f) (s.map f) = (findFrom e p before s).map (Cursor.map f) := by
  induction s with
  | nil =>
    intro before hbefore hs
    have hrun := run_map hagree p ⟨before, [], []⟩ ⟨hbefore, hs⟩
    have hhead := congrArg List.head? hrun
    rw [List.head?_map] at hhead
    exact hhead
  | cons a s ih =>
    intro before hbefore hs
    have hrun := run_map hagree p ⟨before, a :: s, []⟩ ⟨hbefore, hs⟩
    have hhead : (run e' p ⟨before.map f, f a :: s.map f, []⟩).head? =
        (run e p ⟨before, a :: s, []⟩).head?.map (Cursor.map f) :=
      (congrArg List.head? hrun).trans List.head?_map
    have hrest := ih (a :: before)
      (List.forall_mem_cons.2 ⟨hs a List.mem_cons_self, hbefore⟩)
      fun b hb => hs b (List.mem_cons_of_mem _ hb)
    rw [List.map_cons, findFrom, findFrom, hhead]
    cases (run e p ⟨before, a :: s, []⟩).head? with
    | none => exact hrest
    | some y => rfl

theorem search_map (hagree : Agree e e' f P) (p : Pattern) {s : List α} (hs : ∀ a ∈ s, P a) :
    search e' p (s.map f) = search e p s := by
  have hfind := findFrom_map hagree p [] (fun a ha => absurd ha List.not_mem_nil) hs
  rw [List.map_nil] at hfind
  rw [search, search, find, find, hfind, Option.isSome_map]

theorem isMatch_map (hagree : Agree e e' f P) (p : Pattern) {s : List α} (hs : ∀ a ∈ s, P a) :
    isMatch e' p (s.map f) = isMatch e p s := by
  have hall : (start s).All P := ⟨fun a ha => absurd ha List.not_mem_nil, hs⟩
  have hrun : run e' p (start (s.map f)) = (run e p (start s)).map (Cursor.map f) :=
    run_map hagree p (start s) hall
  rw [isMatch, isMatch, matchEntire, matchEntire, hrun, List.find?_map, Option.isSome_map]
  have hempty : ((fun x : Cursor β => x.rest.isEmpty) ∘ Cursor.map f) = fun x => x.rest.isEmpty := by
    funext x
    exact List.isEmpty_map
  rw [hempty]

theorem removeFrom_map (hagree : Agree e e' f P) (p : Pattern) (fuel : ℕ) :
    ∀ x : Cursor α, x.All P → removeFrom e' p fuel (x.map f) = (removeFrom e p fuel x).map f := by
  induction fuel with
  | zero => exact fun x _ => rfl
  | succ fuel ih =>
    intro x hx
    have hrun := run_map hagree p x hx
    have hhead : (run e' p (x.map f)).head? = (run e p x).head?.map (Cursor.map f) :=
      (congrArg List.head? hrun).trans List.head?_map
    rw [removeFrom, removeFrom, hhead]
    cases hrest : x.rest with
    | nil =>
      have hmap : (x.map f).rest = [] := by rw [Cursor.map, hrest]; rfl
      rw [hmap]
      rfl
    | cons a s =>
      have hmap : (x.map f).rest = f a :: s.map f := by rw [Cursor.map, hrest]; rfl
      have hall : ∀ b ∈ a :: s, P b := by
        rw [← hrest]
        exact hx.rest
      have hkeep := ih ⟨a :: x.before, s, []⟩
        ⟨List.forall_mem_cons.2 ⟨hall a List.mem_cons_self, hx.before⟩,
          fun b hb => hall b (List.mem_cons_of_mem _ hb)⟩
      rw [hmap]
      cases hfirst : (run e p x).head? with
      | none => exact congrArg (f a :: ·) hkeep
      | some y =>
        have hy : y.All P := hx.of_mem_run (List.mem_of_mem_head? hfirst)
        have hskip := ih ⟨y.before, y.rest, []⟩ ⟨hy.before, hy.rest⟩
        have hlength : (y.map f).rest.length = y.rest.length := List.length_map _
        have hlength' : (f a :: s.map f).length = (a :: s).length :=
          @List.length_map _ _ (a :: s) f
        rw [Option.map_some]
        dsimp only
        rw [hlength, hlength']
        split
        · exact hskip
        · exact congrArg (f a :: ·) hkeep

theorem remove_map (hagree : Agree e e' f P) (p : Pattern) {s : List α} (hs : ∀ a ∈ s, P a) :
    remove e' p (s.map f) = (remove e p s).map f := by
  rw [remove, remove, List.length_map]
  exact removeFrom_map hagree p s.length (start s) ⟨fun a ha => absurd ha List.not_mem_nil, hs⟩

end Map

/-! ### Longer texts -/

section Longer

variable {α : Type} {e : Engine α}

/-- A pattern that does not look at what is around a match. -/
def Pattern.plain : Pattern → Bool
  | .boundary | .start | .finish => false
  | .seq p q | .alt p q => p.plain && q.plain
  | .star p | .group _ p => p.plain
  | .empty | .one _ => true

/-- The cursor in a text that goes on. -/
def Cursor.extend (x : Cursor α) (t : List α) : Cursor α := { x with rest := x.rest ++ t }

theorem length_extend (x : Cursor α) (t : List α) :
    (x.extend t).rest.length = x.rest.length + t.length := List.length_append

theorem extend_mem_loop {round round' : Cursor α → List (Cursor α)} {t : List α}
    (hround : ∀ x y, y ∈ round x → y.extend t ∈ round' (x.extend t)) (fuel : ℕ) :
    ∀ fuel', fuel ≤ fuel' → ∀ x y, y ∈ loop round fuel x →
      y.extend t ∈ loop round' fuel' (x.extend t) := by
  have hlast : ∀ fuel' (x : Cursor α), x ∈ loop round' fuel' x := by
    intro fuel' x
    cases fuel' with
    | zero => exact List.mem_singleton_self x
    | succ fuel' => exact List.mem_append_right _ (List.mem_singleton_self x)
  induction fuel with
  | zero =>
    intro fuel' _ x y hy
    rw [List.mem_singleton.1 hy]
    exact hlast fuel' _
  | succ fuel ih =>
    intro fuel' hfuel x y hy
    obtain ⟨fuel', rfl⟩ := Nat.exists_eq_add_of_lt (Nat.lt_of_lt_of_le (Nat.succ_pos fuel) hfuel)
    rcases List.mem_append.1 hy with hy | hy
    · obtain ⟨z, hz, hy⟩ := List.mem_flatMap.1 hy
      obtain ⟨hz, hless⟩ := List.mem_filter.1 hz
      refine List.mem_append_left _ (List.mem_flatMap.2 ⟨z.extend t, ?_, ih _ (by omega) z y hy⟩)
      rw [List.mem_filter]
      refine ⟨hround x z hz, ?_⟩
      simpa [length_extend] using hless
    · rw [List.mem_singleton.1 hy]
      exact List.mem_append_right _ (List.mem_singleton_self _)

/-- A match is one of the longer text too. -/
theorem extend_mem_run {p : Pattern} (hp : p.plain = true) (t : List α) :
    ∀ x y : Cursor α, y ∈ run e p x → y.extend t ∈ run e p (x.extend t) := by
  induction p with
  | empty =>
    intro x y hy
    rw [List.mem_singleton.1 hy]
    exact List.mem_singleton_self _
  | one set =>
    intro x y hy
    unfold run at hy
    split at hy
    · exact absurd hy List.not_mem_nil
    case h_2 a s hrest =>
      split at hy
      case isTrue hin =>
        rw [List.mem_singleton.1 hy, run, Cursor.extend, hrest, List.cons_append]
        dsimp only
        rw [if_pos hin]
        exact List.mem_singleton_self _
      · exact absurd hy List.not_mem_nil
  | boundary | start | finish => cases hp
  | seq p q ihp ihq =>
    obtain ⟨hp, hq⟩ := Bool.and_eq_true_iff.1 hp
    intro x y hy
    obtain ⟨z, hz, hy⟩ := List.mem_flatMap.1 hy
    exact List.mem_flatMap.2 ⟨z.extend t, ihp hp x z hz, ihq hq z y hy⟩
  | alt p q ihp ihq =>
    obtain ⟨hp, hq⟩ := Bool.and_eq_true_iff.1 hp
    intro x y hy
    rcases List.mem_append.1 hy with hy | hy
    · exact List.mem_append_left _ (ihp hp x y hy)
    · exact List.mem_append_right _ (ihq hq x y hy)
  | star p ih =>
    intro x y hy
    refine extend_mem_loop (ih hp) _ _ ?_ x y hy
    rw [length_extend]
    exact Nat.le_add_right _ _
  | group n p ih =>
    intro x y hy
    obtain ⟨z, hz, rfl⟩ := List.mem_map.1 hy
    obtain ⟨w, -, hmoved⟩ := lang_of_mem_run p x z hz
    refine List.mem_map.2 ⟨z.extend t, ih hp x z hz, ?_⟩
    -- the group takes the same word
    have hword : ∀ s, (w ++ s).take ((w ++ s).length - s.length) = w := by simp
    have hextend : (x.extend t).rest = w ++ (z.extend t).rest := by
      rw [Cursor.extend, Cursor.extend, hmoved.1, List.append_assoc]
    rw [hextend, hmoved.1, hword, hword]
    rfl

theorem findFrom_isSome_append {p : Pattern} (hp : p.plain = true) (t : List α) :
    ∀ (before s : List α), (findFrom e p before s).isSome = true →
      (findFrom e p before (s ++ t)).isSome = true := by
  have hhere : ∀ before s : List α, (run e p ⟨before, s, []⟩).head?.isSome = true →
      (run e p ⟨before, s ++ t, []⟩).head?.isSome = true := by
    intro before s h
    obtain ⟨y, hy⟩ := Option.isSome_iff_exists.1 h
    have hmem := extend_mem_run hp t _ y (List.mem_of_mem_head? hy)
    rw [List.isSome_head?]
    exact List.ne_nil_of_mem hmem
  intro before s
  induction s generalizing before with
  | nil =>
    intro h
    have hrun := hhere before [] h
    cases t with
    | nil => exact h
    | cons a t =>
      obtain ⟨y, hy⟩ := Option.isSome_iff_exists.1 hrun
      rw [List.nil_append] at hy ⊢
      rw [findFrom, hy]
      rfl
  | cons a s ih =>
    intro h
    rw [findFrom] at h
    rw [List.cons_append, findFrom]
    cases hfirst : (run e p ⟨before, a :: (s ++ t), []⟩).head? with
    | some y => rfl
    | none =>
      have hnone : (run e p ⟨before, a :: s, []⟩).head? = none := by
        by_contra hne
        have hsome := hhere before (a :: s) (Option.isSome_iff_ne_none.2 hne)
        rw [List.cons_append, hfirst] at hsome
        cases hsome
      rw [hnone] at h
      exact ih (a :: before) h

/-- What is found in a text is found in a longer one. -/
theorem search_append {p : Pattern} (hp : p.plain = true) {s : List α} (h : search e p s = true)
    (t : List α) : search e p (s ++ t) = true := findFrom_isSome_append hp t [] s h

end Longer

/-! ### Groups -/

section Groups

variable {α : Type} {e : Engine α} {p q : Pattern} {n : ℕ}

/-- The numbers of the groups of a pattern. -/
def Pattern.groupNumbers : Pattern → List ℕ
  | .group n p => n :: p.groupNumbers
  | .seq p q | .alt p q => p.groupNumbers ++ q.groupNumbers
  | .star p => p.groupNumbers
  | .empty | .one _ | .boundary | .start | .finish => []

theorem lookup_of_mem_loop {round : Cursor α → List (Cursor α)}
    (hround : ∀ x y, y ∈ round x → y.groups.lookup n = x.groups.lookup n) (fuel : ℕ) :
    ∀ x y, y ∈ loop round fuel x → y.groups.lookup n = x.groups.lookup n := by
  induction fuel with
  | zero =>
    intro x y hy
    rw [List.mem_singleton.1 hy]
  | succ fuel ih =>
    intro x y hy
    rcases List.mem_append.1 hy with hy | hy
    · obtain ⟨z, hz, hy⟩ := List.mem_flatMap.1 hy
      exact (ih z y hy).trans (hround x z (List.mem_of_mem_filter hz))
    · rw [List.mem_singleton.1 hy]

/-- A pattern leaves the groups that it has not. -/
theorem lookup_of_mem_run (hn : n ∉ p.groupNumbers) :
    ∀ x y : Cursor α, y ∈ run e p x → y.groups.lookup n = x.groups.lookup n := by
  induction p with
  | empty =>
    intro x y hy
    rw [List.mem_singleton.1 hy]
  | one set =>
    intro x y hy
    unfold run at hy
    split at hy
    · exact absurd hy List.not_mem_nil
    · split at hy
      · rw [List.mem_singleton.1 hy]
        rfl
      · exact absurd hy List.not_mem_nil
  | boundary | start | finish =>
    intro x y hy
    unfold run at hy
    split at hy
    · rw [List.mem_singleton.1 hy]
    · exact absurd hy List.not_mem_nil
  | seq p q ihp ihq =>
    intro x y hy
    obtain ⟨z, hz, hy⟩ := List.mem_flatMap.1 hy
    rw [ihq (fun h => hn (List.mem_append_right _ h)) z y hy,
      ihp (fun h => hn (List.mem_append_left _ h)) x z hz]
  | alt p q ihp ihq =>
    intro x y hy
    rcases List.mem_append.1 hy with hy | hy
    · exact ihp (fun h => hn (List.mem_append_left _ h)) x y hy
    · exact ihq (fun h => hn (List.mem_append_right _ h)) x y hy
  | star p ih => exact fun x y hy => lookup_of_mem_loop (ih hn) x.rest.length x y hy
  | group m p ih =>
    intro x y hy
    obtain ⟨z, hz, rfl⟩ := List.mem_map.1 hy
    have hne : n ≠ m := fun h => hn (h ▸ List.mem_cons_self)
    rw [List.lookup_cons, beq_false_of_ne hne]
    exact ih (fun h => hn (List.mem_cons_of_mem _ h)) x z hz

/-- What a group has matched is a word of its pattern. -/
theorem lang_groupValue {x y : Cursor α} (hn : n ∉ q.groupNumbers)
    (hy : y ∈ run e (.seq (.group n p) q) x) : Lang e p (y.groupValue n) := by
  obtain ⟨z', hz', hy⟩ := List.mem_flatMap.1 hy
  obtain ⟨z, hz, rfl⟩ := List.mem_map.1 hz'
  obtain ⟨w, hw, hmoved⟩ := lang_of_mem_run p x z hz
  have hword : x.rest.take (x.rest.length - z.rest.length) = w := by
    rw [hmoved.1, List.length_append, Nat.add_sub_cancel, List.take_left]
  rwa [Cursor.groupValue, lookup_of_mem_run hn _ y hy, List.lookup_cons_self, Option.getD_some,
    hword]

/-- The first of several in turn, and the others after it. -/
theorem mem_run_inTurn_cons {qs : List Pattern} {x y : Cursor α} :
    y ∈ run e (.inTurn (q :: qs)) x ↔ ∃ z ∈ run e q x, y ∈ run e (.inTurn qs) z := by
  cases qs with
  | nil =>
    constructor
    · exact fun hy => ⟨y, hy, List.mem_singleton.2 rfl⟩
    · rintro ⟨z, hz, hy⟩
      obtain rfl := List.mem_singleton.1 hy
      exact hz
  | cons r qs => exact List.mem_flatMap

/-- What a group has matched that is a part of several in turn. -/
theorem lang_groupValue_inTurn (ps : List Pattern) {qs : List Pattern} {x y : Cursor α}
    (hn : n ∉ (Pattern.inTurn qs).groupNumbers)
    (hy : y ∈ run e (.inTurn (ps ++ .group n p :: qs)) x) : Lang e p (y.groupValue n) := by
  induction ps generalizing x with
  | nil =>
    obtain ⟨z, hz, hy⟩ := mem_run_inTurn_cons.1 hy
    exact lang_groupValue hn (List.mem_flatMap.2 ⟨z, hz, hy⟩)
  | cons a ps ih =>
    obtain ⟨z, -, hy⟩ := mem_run_inTurn_cons.1 hy
    exact ih hy

/-- The match of a whole text is one of the matches from its start. -/
theorem mem_run_of_matchEntire {s : List α} {y : Cursor α} (h : matchEntire e p s = some y) :
    y ∈ run e p (start s) := List.mem_of_find?_eq_some h

end Groups

end Regex
