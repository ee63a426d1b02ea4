import Mathlib.Data.List.Flatten
import Mathlib.Data.Rat.Defs
import GoffyOs.Python.Text

/-!
# Syntax trees (`ast`)

The nodes that a check of the sources tells apart, each with the fields such a check reads. A node of any
other kind stands as the nodes below it. Whether a name is read or written is not kept.

* `Node.walk` is the node with all the nodes below it;
* `Node.byChildren` is the induction over a tree, from the nodes right under a node to the node.
-/

namespace Python.Ast

/-- The value of a `Constant`. A number that is no integer is an exact fraction, or nothing where the
literal is out of range; an imaginary literal has no real part. -/
inductive Constant where
  | none
  | ellipsis
  | bool (b : Bool)
  | int (n : ℤ)
  | float (value : Option ℚ)
  | imaginary (value : Option ℚ)
  | str (s : Str)
  | bytes (b : List UInt8)
  deriving DecidableEq

namespace Constant

/-- `value == b` for a Boolean `b`: the numbers 0 and 1 are equal to `False` and `True`. -/
def equalsBool (b : Bool) : Constant → Bool
  | .bool c => c = b
  | .int n => n = if b then 1 else 0
  | .float value => value = some (if b then 1 else 0)
  | .imaginary value => !b && value = some 0
  | _ => false

/-- `value == s` for a text `s`. -/
def equalsStr (s : Str) : Constant → Bool
  | .str t => t = s
  | _ => false

/-- A literal of a number. -/
def isNumber : Constant → Bool
  | .int _ | .float _ | .imaginary _ => true
  | _ => false

theorem equalsStr_iff {s : Str} {c : Constant} : c.equalsStr s ↔ c = .str s := by
  cases c <;> simp [equalsStr]

/-- What equals a Boolean is that Boolean, or a number. -/
theorem equalsBool_cases {b : Bool} {c : Constant} (h : c.equalsBool b) :
    c = .bool b ∨ c.isNumber := by
  cases c with
  | bool d => exact .inl (by simpa [equalsBool] using h)
  | int | float | imaginary => exact .inr rfl
  | none | ellipsis | str | bytes => simp [equalsBool] at h

@[simp] theorem equalsBool_bool {b c : Bool} : (Constant.bool c).equalsBool b = decide (c = b) := rfl

end Constant

/-- `name as asname` of an import. -/
structure Alias where
  name : Str
  asname : Option Str := none
  deriving DecidableEq

inductive Node where
  | name (id : Str)
  | constant (value : Constant)
  /-- `Attribute`. -/
  | attr (value : Node) (attr : Str)
  /-- A keyword without a name is a `**` argument. -/
  | call (func : Node) (args : List Node) (keywords : List (Option Str × Node))
  | list (elts : List Node)
  /-- An entry without a key is a `**` entry. -/
  | dict (entries : List (Option Node × Node))
  | joinedStr (values : List Node)
  | formattedValue (value : Node) (conversion : ℤ) (formatSpec : Option Node)
  | assign (targets : List Node) (value : Node)
  | annAssign (target annotation : Node) (value : Option Node)
  | namedExpr (target value : Node)
  | importNames (names : List Alias)
  | importFrom (module : Option Str) (names : List Alias)
  | other (children : List Node)

/-! ### All nodes of a tree -/

mutual

/-- `ast.walk`, up to the order of the nodes. -/
def Node.walk : Node → List Node
  | .name id => [.name id]
  | .constant value => [.constant value]
  | .attr value attr => .attr value attr :: value.walk
  | .call func args keywords =>
    .call func args keywords :: (func.walk ++ walkAll args ++ walkKeywords keywords)
  | .list elts => .list elts :: walkAll elts
  | .dict entries => .dict entries :: walkEntries entries
  | .joinedStr values => .joinedStr values :: walkAll values
  | .formattedValue value conversion formatSpec =>
    .formattedValue value conversion formatSpec :: (value.walk ++ walkOption formatSpec)
  | .assign targets value => .assign targets value :: (walkAll targets ++ value.walk)
  | .annAssign target annotation value =>
    .annAssign target annotation value :: (target.walk ++ annotation.walk ++ walkOption value)
  | .namedExpr target value => .namedExpr target value :: (target.walk ++ value.walk)
  | .importNames names => [.importNames names]
  | .importFrom module names => [.importFrom module names]
  | .other children => .other children :: walkAll children

def walkAll : List Node → List Node
  | [] => []
  | n :: ns => n.walk ++ walkAll ns

def walkOption : Option Node → List Node
  | none => []
  | some n => n.walk

def walkKeywords : List (Option Str × Node) → List Node
  | [] => []
  | (_, value) :: keywords => value.walk ++ walkKeywords keywords

def walkEntries : List (Option Node × Node) → List Node
  | [] => []
  | (key, value) :: entries => walkOption key ++ value.walk ++ walkEntries entries

end

/-- `ast.iter_child_nodes`, where the keywords of a call stand for their values. -/
def Node.children : Node → List Node
  | .name _ | .constant _ | .importNames _ | .importFrom _ _ => []
  | .attr value _ => [value]
  | .call func args keywords => func :: (args ++ keywords.map Prod.snd)
  | .list elts => elts
  | .dict entries => entries.flatMap fun e => e.1.toList ++ [e.2]
  | .joinedStr values => values
  | .formattedValue value _ formatSpec => value :: formatSpec.toList
  | .assign targets value => targets ++ [value]
  | .annAssign target annotation value => target :: annotation :: value.toList
  | .namedExpr target value => [target, value]
  | .other children => children

theorem walkAll_eq (ns : List Node) : walkAll ns = ns.flatMap Node.walk := by
  induction ns with
  | nil => rfl
  | cons n ns ih => rw [walkAll, ih, List.flatMap_cons]

theorem walkOption_eq (n : Option Node) : walkOption n = n.toList.flatMap Node.walk := by
  cases n <;> simp [walkOption]

theorem walkKeywords_eq (keywords : List (Option Str × Node)) :
    walkKeywords keywords = (keywords.map Prod.snd).flatMap Node.walk := by
  induction keywords with
  | nil => rfl
  | cons k keywords ih => rw [walkKeywords, ih, List.map_cons, List.flatMap_cons]

theorem walkEntries_eq (entries : List (Option Node × Node)) :
    walkEntries entries = (entries.flatMap fun e => e.1.toList ++ [e.2]).flatMap Node.walk := by
  induction entries with
  | nil => rfl
  | cons e entries ih =>
    rw [walkEntries, ih, walkOption_eq, List.flatMap_cons]
    simp

/-- A node and the walks of the nodes right under it. -/
theorem Node.walk_eq (n : Node) : n.walk = n :: n.children.flatMap Node.walk := by
  cases n <;> simp [Node.walk, Node.children, walkAll_eq, walkOption_eq, walkKeywords_eq, walkEntries_eq]

theorem Node.self_mem_walk (n : Node) : n ∈ n.walk := by
  rw [n.walk_eq]
  exact List.mem_cons_self

theorem Node.mem_walk_of_child {n c m : Node} (hc : c ∈ n.children) (hm : m ∈ c.walk) : m ∈ n.walk := by
  rw [n.walk_eq]
  exact List.mem_cons_of_mem _ (List.mem_flatMap.2 ⟨c, hc, hm⟩)

/-- What passes from the nodes right under a node to the node holds of every tree. -/
theorem Node.byChildren {P : Node → Prop} (step : ∀ n : Node, (∀ c ∈ n.children, P c) → P n) (n : Node) :
    P n := by
  refine @Node.rec P (fun ns => ∀ c ∈ ns, P c) (fun keywords => ∀ k ∈ keywords, P k.2)
    (fun entries => ∀ e ∈ entries, (∀ c ∈ e.1.toList, P c) ∧ P e.2) (fun n => ∀ c ∈ n.toList, P c)
    (fun k => P k.2) (fun e => (∀ c ∈ e.1.toList, P c) ∧ P e.2)
    ?name ?constant ?attr ?call ?list ?dict ?joinedStr ?formattedValue ?assign ?annAssign ?namedExpr
    ?importNames ?importFrom ?other ?nil ?cons ?nilKeywords ?consKeywords ?nilEntries ?consEntries
    ?none ?some ?keyword ?entry n
  case name | constant | importNames | importFrom => intros; exact step _ (by simp [Node.children])
  case attr =>
    intro value attr hvalue
    exact step _ (by simpa [Node.children] using hvalue)
  case call =>
    intro func args keywords hfunc hargs hkeywords
    refine step _ fun c hc => ?_
    rcases List.mem_cons.1 hc with rfl | hc
    · exact hfunc
    rcases List.mem_append.1 hc with hc | hc
    · exact hargs c hc
    obtain ⟨k, hk, rfl⟩ := List.mem_map.1 hc
    exact hkeywords k hk
  case list | joinedStr | other =>
    intro ns hns
    exact step _ hns
  case dict =>
    intro entries hentries
    refine step _ fun c hc => ?_
    obtain ⟨e, he, hc⟩ := List.mem_flatMap.1 hc
    rcases List.mem_append.1 hc with hc | hc
    · exact (hentries e he).1 c hc
    · obtain rfl := List.mem_singleton.1 hc
      exact (hentries e he).2
  case formattedValue =>
    intro value conversion formatSpec hvalue hspec
    exact step _ (List.forall_mem_cons.2 ⟨hvalue, hspec⟩)
  case assign =>
    intro targets value htargets hvalue
    exact step _ (List.forall_mem_append.2 ⟨htargets, by simpa using hvalue⟩)
  case annAssign =>
    intro target annotation value htarget hann hvalue
    exact step _ (List.forall_mem_cons.2 ⟨htarget, List.forall_mem_cons.2 ⟨hann, hvalue⟩⟩)
  case namedExpr =>
    intro target value htarget hvalue
    exact step _ (by simpa [Node.children] using ⟨htarget, hvalue⟩)
  case nil | nilKeywords | nilEntries | none => simp
  case cons | consKeywords | consEntries =>
    intro head tail hhead htail
    exact List.forall_mem_cons.2 ⟨hhead, htail⟩
  case some =>
    intro c hc
    simpa using hc
  case keyword => exact fun _ _ hvalue => hvalue
  case entry => exact fun _ _ hkey hvalue => ⟨hkey, hvalue⟩

/-- The nodes of a tree have their own nodes in it. -/
theorem Node.mem_walk_trans {n m k : Node} (hm : m ∈ n.walk) (hk : k ∈ m.walk) : k ∈ n.walk := by
  induction n using Node.byChildren with
  | step n ih =>
    rw [n.walk_eq, List.mem_cons, List.mem_flatMap] at hm
    rcases hm with rfl | ⟨c, hc, hm⟩
    · exact hk
    · exact n.mem_walk_of_child hc (ih c hc hm)

theorem mem_walkAll_trans {ns : List Node} {m k : Node} (hm : m ∈ walkAll ns) (hk : k ∈ m.walk) :
    k ∈ walkAll ns := by
  rw [walkAll_eq, List.mem_flatMap] at hm ⊢
  obtain ⟨n, hn, hm⟩ := hm
  exact ⟨n, hn, n.mem_walk_trans hm hk⟩

end Python.Ast
