import Mathlib.Data.List.Dedup
import Mathlib.Data.List.Perm.Basic
import Mathlib.Data.List.Sort
import GoffyOs.Lib.Dict
import GoffyOs.Python.Ast

/-!
# The scan for `subprocess` (`scripts/security_scan.py`)

The check of the two sources that may run a program, `validate_allowed_subprocess_usage`, over the syntax
tree of a source.

* `Use` is a place of a source where the module `subprocess` is named, and how it is held there;
  `Use.Allowed` is what the policy leaves: the plain import, `TimeoutExpired`, and calls of `run` with
  exactly one of three lists of arguments;
* `exists_node_of_mem_uses` finds the node of each use among the nodes that the scan looks at.
-/

namespace GoffyScripts.SecurityScan

open Python Python.Ast

/-! ### Names and constants -/

def subprocess : Str := "subprocess".toList

/-- A name, a text and a Boolean of a source. -/
def nameOf (s : String) : Node := .name s.toList

def text (s : String) : Node := .constant (.str s.toList)

def bool (b : Bool) : Node := .constant (.bool b)

/-- `_is_name`. -/
def isName (value : Str) : Node → Bool
  | .name id => id = value
  | _ => false

/-- `_is_constant` with a text. -/
def isConstantStr (value : Str) : Node → Bool
  | .constant c => c.equalsStr value
  | _ => false

/-- `_is_constant` with a Boolean. -/
def isConstantBool (value : Bool) : Node → Bool
  | .constant c => c.equalsBool value
  | _ => false

/-- `_is_str_call`. -/
def isStrCall (argumentName : Str) : Node → Bool
  | .call func [argument] [] => isName "str".toList func && isName argumentName argument
  | _ => false

/-- `_module_string_constants`. -/
def moduleStringConstants (body : List Node) : Dict Str Str :=
  body.foldl (fun constants statement =>
    match statement with
    | .assign targets (.constant (.str value)) =>
      targets.foldl (fun constants target =>
        match target with
        | .name id => constants.set id value
        | _ => constants) constants
    | .annAssign (.name id) _ (some (.constant (.str value))) => constants.set id value
    | _ => constants) Dict.empty

/-- `_subprocess_import_names`. -/
def subprocessImportNames (nodes : List Node) : List Str :=
  subprocess :: nodes.flatMap fun node =>
    match node with
    | .importNames names =>
      names.filterMap fun imported => if imported.name = subprocess then imported.asname else none
    | _ => []

/-! ### Calls of `subprocess.run` -/

/-- `_is_subprocess_run_call`. -/
def isSubprocessRunCall : Node → Bool
  | .call (.attr value attr) _ _ => isName subprocess value && attr = "run".toList
  | _ => false

/-- The keywords with a name, as the dictionary that the checks make of them. -/
def namedKeywords (keywords : List (Option Str × Node)) : Dict Str Node :=
  .ofList (keywords.filterMap fun k => k.1.map (·, k.2))

/-- The named keywords are these and no others, and each value passes its check. -/
def keywordsPass (wanted : List (Str × (Node → Bool))) (keywords : List (Option Str × Node)) : Bool :=
  let named := namedKeywords keywords
  (wanted.all fun w => w.1 ∈ named.entries.map Prod.fst) &&
    ((named.entries.map Prod.fst).all (· ∈ wanted.map Prod.fst)) &&
    wanted.all fun w => (named.get? w.1).any w.2

/-- The environment of the Git command. -/
def gitEnvironment : List (Str × Str) :=
  [("GIT_CONFIG_NOSYSTEM".toList, "1".toList), ("GIT_OPTIONAL_LOCKS".toList, "0".toList),
    ("GIT_PAGER".toList, "cat".toList), ("GIT_TERMINAL_PROMPT".toList, "0".toList),
    ("LC_ALL".toList, "C".toList)]

/-- The entry of a dictionary that is a pair of texts. -/
def textEntry : Option Node × Node → Option (Str × Str)
  | (some (.constant (.str key)), .constant (.str value)) => some (key, value)
  | _ => none

/-- `env_values == {…}`, for the entries that are pairs of texts. -/
def isGitEnvironment : Node → Bool
  | .dict entries =>
    let values : Dict Str Str := .ofList (entries.filterMap textEntry)
    values.size = gitEnvironment.length && values.entries.all (· ∈ gitEnvironment)
  | _ => false

/-- The positional argument of the Git command. -/
def isGitCommand : List Node → Bool
  | [.list [executable, status, porcelain, branch, renames, untracked]] =>
    isStrCall "git_executable".toList executable && isConstantStr "status".toList status &&
      isConstantStr "--porcelain=v2".toList porcelain && isConstantStr "--branch".toList branch &&
      isConstantStr "--no-renames".toList renames && isName "untracked_mode".toList untracked
  | _ => false

/-- The keywords of the Git command, and the checks of their values. -/
def gitKeywordChecks : List (Str × (Node → Bool)) :=
  [("cwd".toList, isName "repo_path".toList), ("check".toList, isConstantBool false),
    ("capture_output".toList, isConstantBool true), ("text".toList, isConstantBool true),
    ("encoding".toList, isConstantStr "utf-8".toList), ("errors".toList, isConstantStr "replace".toList),
    ("timeout".toList, isName "timeout_seconds".toList), ("env".toList, isGitEnvironment)]

/-- `_is_allowed_git_status_run_call`. -/
def isAllowedGitStatusRunCall : Node → Bool
  | .call _ args keywords => isGitCommand args && keywordsPass gitKeywordChecks keywords
  | _ => false

/-- `_is_running_check_script`. -/
def isRunningCheckScript : Node → Bool
  | .joinedStr [before, .formattedValue value conversion none, after] =>
    isConstantStr "application id \"".toList before && conversion = -1 &&
      isName "bundle_id".toList value && isConstantStr "\" is running".toList after
  | _ => false

/-- The request to open an app. -/
def isLaunchRequest : List Node → Bool
  | [first, second, .attr value attr] =>
    isName "OPEN_EXECUTABLE".toList first && isConstantStr "-b".toList second &&
      isName "app".toList value && attr = "bundle_id".toList
  | _ => false

/-- The question whether an app is running. -/
def isRunningCheck : List Node → Bool
  | [first, second, third] =>
    isName "OSASCRIPT_EXECUTABLE".toList first && isConstantStr "-e".toList second &&
      isRunningCheckScript third
  | _ => false

/-- The two paths that the commands about an app need. -/
def MacExecutables (stringConstants : Dict Str Str) : Prop :=
  stringConstants.get? "OPEN_EXECUTABLE".toList = some "/usr/bin/open".toList ∧
    stringConstants.get? "OSASCRIPT_EXECUTABLE".toList = some "/usr/bin/osascript".toList

instance (stringConstants : Dict Str Str) : Decidable (MacExecutables stringConstants) :=
  inferInstanceAs (Decidable (_ ∧ _))

/-- The keywords of the commands about an app, and the checks of their values. -/
def macKeywordChecks : List (Str × (Node → Bool)) :=
  [("check".toList, isConstantBool false), ("capture_output".toList, isConstantBool true),
    ("text".toList, isConstantBool true), ("timeout".toList, isName "timeout_seconds".toList)]

/-- `_is_allowed_mac_app_run_call`. -/
def isAllowedMacAppRunCall (stringConstants : Dict Str Str) : Node → Bool
  | .call _ [.list command] keywords =>
    MacExecutables stringConstants && (isLaunchRequest command || isRunningCheck command) &&
      keywordsPass macKeywordChecks keywords
  | _ => false

/-! ### Bindings and indirect calls -/

/-- The attribute of a name among these. -/
def isAttributeOf (names : List Str) : Node → Bool
  | .attr (.name id) _ => id ∈ names
  | _ => false

/-- `_contains_subprocess_target`. -/
def containsSubprocessTarget (names : List Str) (node : Node) : Bool :=
  node.walk.any (isAttributeOf names)

/-- `_contains_subprocess_reference`. -/
def containsSubprocessReference (node : Node) : Bool :=
  node.walk.any fun child =>
    match child with
    | .name id => id = subprocess
    | .attr value _ => isName subprocess value
    | _ => false

/-- The targets and the value of a node that binds names. -/
def binding : Node → Option (List Node × Option Node)
  | .assign targets value => some (targets, some value)
  | .annAssign target _ value => some ([target], value)
  | .namedExpr target value => some ([target], some value)
  | _ => none

/-- `_targets_subprocess_binding`. -/
def targetsSubprocessBinding (names : List Str) (targets : List Node) : Bool :=
  targets.any (containsSubprocessTarget names)

/-- A call of an attribute of `subprocess`. -/
def isSubprocessAttributeCall : Node → Bool
  | .call (.attr value _) _ _ => isName subprocess value
  | _ => false

/-- `_binds_subprocess`. -/
def bindsSubprocess : Option Node → Bool
  | none => false
  | some value =>
    if isSubprocessRunCall value then false
    else if isSubprocessAttributeCall value then false
    else containsSubprocessReference value

/-- `_call_uses_indirect_subprocess`. -/
def callUsesIndirectSubprocess (names : List Str) : Node → Bool
  | .call (.attr (.name id) _) _ _ => id ≠ subprocess && id ∈ names
  | .call (.attr _ _) _ _ => false
  | .call func _ _ => func.walk.any fun child =>
    match child with
    | .name id => id ∈ names
    | _ => false
  | _ => false

/-! ### The findings -/

section Findings

variable (location : Str)

/-- `f"{location}: …"`. -/
def finding (s : Str) : Str := location ++ ": ".toList ++ s

def importFinding (imported : Alias) : List Str :=
  if imported.name = subprocess ∧ imported.asname ≠ none then
    [finding location "subprocess import aliases are not allowed".toList]
  else if "subprocess.".toList.isPrefixOf imported.name then
    [finding location "subprocess submodule imports are not allowed".toList]
  else []

/-- A module of this name, or one inside it. -/
def isSubprocessModule (module : Str) : Bool :=
  module = subprocess || "subprocess.".toList.isPrefixOf module

def importFindings : Node → List Str
  | .importNames names => names.flatMap (importFinding location)
  | .importFrom (some module) _ =>
    if isSubprocessModule module then [finding location "subprocess from-import is not allowed".toList]
    else []
  | _ => []

def attributeFindings (names : List Str) : Node → List Str
  | .attr (.name id) attr =>
    if id ∈ names ∧ attr ≠ "run".toList ∧ attr ≠ "TimeoutExpired".toList then
      [finding location ("unsupported subprocess API ".toList ++ id ++ ".".toList ++ attr)]
    else []
  | _ => []

def bindingFindings (names : List Str) (node : Node) : List Str :=
  match binding node with
  | some (targets, value) =>
    if targetsSubprocessBinding names targets || bindsSubprocess value then
      [finding location "subprocess binding is not allowed".toList]
    else []
  | none => []

def callFindings (stringConstants : Dict Str Str) (names : List Str) (node : Node) : List Str :=
  (if !isSubprocessRunCall node && callUsesIndirectSubprocess names node then
    [finding location "indirect subprocess call is not allowed".toList] else []) ++
  (if isSubprocessRunCall node && !isAllowedGitStatusRunCall node &&
      !isAllowedMacAppRunCall stringConstants node then
    [finding location "subprocess.run shape does not match allowlisted policy".toList] else [])

/-- The findings at one node. -/
def nodeFindings (stringConstants : Dict Str Str) (names : List Str) (node : Node) : List Str :=
  importFindings location node ++ attributeFindings location names node ++
    bindingFindings location names node ++ callFindings location stringConstants names node

/-- `sorted(set(findings))`. -/
def sortedSet (findings : List Str) : List Str := findings.dedup.insertionSort fun a b => ¬ b < a

/-- The findings of a tree. -/
def treeFindings (body : List Node) : List Str :=
  let nodes := walkAll body
  sortedSet (nodes.flatMap
    (nodeFindings location (moduleStringConstants body) (subprocessImportNames nodes)))

/-- `validate_allowed_subprocess_usage`, where `parse` gives the body of the module or the message of the
`SyntaxError`. -/
def validateAllowedSubprocessUsage (parse : Str → Except Str (List Node)) (source : Str) : List Str :=
  match parse source with
  | .error message => [finding location ("cannot validate subprocess usage (".toList ++ message ++ ")".toList)]
  | .ok body => treeFindings location body

end Findings

/-! ### The places where `subprocess` is named -/

/-- A place where the module is named: an import of it or from it, the name alone, an attribute of it, or
the call of an attribute. What another module has under that name is not counted
(`from M import subprocess`, `M.subprocess`). -/
inductive Use where
  | imported (name : Alias)
  | fromImport (module : Str)
  | alone
  | member (attr : Str)
  | callee (attr : Str) (args : List Node) (keywords : List (Option Str × Node))

mutual

/-- The uses in a tree. The argument of an attribute and the function of a call decide how the name under
them is used. -/
def uses : Node → List Use
  | .name id => if id = subprocess then [.alone] else []
  | .constant _ => []
  | .attr (.name id) attr => if id = subprocess then [.member attr] else []
  | .attr value _ => uses value
  | .call (.attr (.name id) attr) args keywords =>
    (if id = subprocess then [.callee attr args keywords] else []) ++ usesAll args ++ usesKeywords keywords
  | .call func args keywords => uses func ++ usesAll args ++ usesKeywords keywords
  | .list elts => usesAll elts
  | .dict entries => usesEntries entries
  | .joinedStr values => usesAll values
  | .formattedValue value _ formatSpec => uses value ++ usesOption formatSpec
  | .assign targets value => usesAll targets ++ uses value
  | .annAssign target annotation value => uses target ++ uses annotation ++ usesOption value
  | .namedExpr target value => uses target ++ uses value
  | .importNames names => (names.filter fun imported => isSubprocessModule imported.name).map .imported
  | .importFrom none _ => []
  | .importFrom (some module) _ => if isSubprocessModule module then [.fromImport module] else []
  | .other children => usesAll children

def usesAll : List Node → List Use
  | [] => []
  | n :: ns => uses n ++ usesAll ns

def usesOption : Option Node → List Use
  | none => []
  | some n => uses n

def usesKeywords : List (Option Str × Node) → List Use
  | [] => []
  | (_, value) :: keywords => uses value ++ usesKeywords keywords

def usesEntries : List (Option Node × Node) → List Use
  | [] => []
  | (key, value) :: entries => usesOption key ++ uses value ++ usesEntries entries

end

theorem usesAll_eq (ns : List Node) : usesAll ns = ns.flatMap uses := by
  induction ns with
  | nil => rfl
  | cons n ns ih => rw [usesAll, ih, List.flatMap_cons]

theorem usesOption_eq (n : Option Node) : usesOption n = n.toList.flatMap uses := by
  cases n <;> simp [usesOption]

theorem usesKeywords_eq (keywords : List (Option Str × Node)) :
    usesKeywords keywords = (keywords.map Prod.snd).flatMap uses := by
  induction keywords with
  | nil => rfl
  | cons k keywords ih => rw [usesKeywords, ih, List.map_cons, List.flatMap_cons]

theorem usesEntries_eq (entries : List (Option Node × Node)) :
    usesEntries entries = (entries.flatMap fun e => e.1.toList ++ [e.2]).flatMap uses := by
  induction entries with
  | nil => rfl
  | cons e entries ih =>
    rw [usesEntries, ih, usesOption_eq, List.flatMap_cons]
    simp

/-- How the uses of a tree come from the nodes right under its root. -/
inductive UsesOf : Node → List Use → Prop where
  | alone : UsesOf (.name subprocess) [.alone]
  | member (attr : Str) : UsesOf (.attr (.name subprocess) attr) [.member attr]
  | callee (attr : Str) (args : List Node) (keywords : List (Option Str × Node)) :
    UsesOf (.call (.attr (.name subprocess) attr) args keywords)
      (.callee attr args keywords :: (args ++ keywords.map Prod.snd).flatMap uses)
  | imported (names : List Alias) :
    UsesOf (.importNames names)
      ((names.filter fun imported => isSubprocessModule imported.name).map .imported)
  | fromImport (module : Str) (names : List Alias) (hmodule : isSubprocessModule module) :
    UsesOf (.importFrom (some module) names) [.fromImport module]
  | parts (n : Node) (hname : n ≠ .name subprocess) : UsesOf n (n.children.flatMap uses)

theorem usesOf_attr (value : Node) (attr : Str) : UsesOf (.attr value attr) (uses (.attr value attr)) := by
  have hparts : uses (.attr value attr) = uses value →
      UsesOf (.attr value attr) (uses (.attr value attr)) := by
    intro h
    have : (Node.attr value attr).children.flatMap uses = uses value := by simp [Node.children]
    rw [h, ← this]
    exact .parts _ (by simp)
  cases value with
  | name id =>
    by_cases hid : id = subprocess
    · subst hid
      have : uses (.attr (.name subprocess) attr) = [.member attr] := by simp [uses]
      rw [this]
      exact .member attr
    · exact hparts (by simp [uses, hid])
  | _ => exact hparts (by simp only [uses])

theorem usesOf_call (func : Node) (args : List Node) (keywords : List (Option Str × Node)) :
    UsesOf (.call func args keywords) (uses (.call func args keywords)) := by
  have hparts : uses (.call func args keywords) = uses func ++ usesAll args ++ usesKeywords keywords →
      UsesOf (.call func args keywords) (uses (.call func args keywords)) := by
    intro h
    have : (Node.call func args keywords).children.flatMap uses =
        uses func ++ usesAll args ++ usesKeywords keywords := by
      simp [Node.children, usesAll_eq, usesKeywords_eq]
    rw [h, ← this]
    exact .parts _ (by simp)
  cases func with
  | attr value attr =>
    cases value with
    | name id =>
      by_cases hid : id = subprocess
      · subst hid
        have : uses (.call (.attr (.name subprocess) attr) args keywords) =
            .callee attr args keywords :: (args ++ keywords.map Prod.snd).flatMap uses := by
          simp [uses, usesAll_eq, usesKeywords_eq]
        rw [this]
        exact .callee attr args keywords
      · exact hparts (by simp [uses, hid])
    | _ => exact hparts (by simp only [uses])
  | _ => exact hparts (by simp only [uses])

theorem usesOf_uses (n : Node) : UsesOf n (uses n) := by
  have hparts : n ≠ .name subprocess → uses n = n.children.flatMap uses → UsesOf n (uses n) := by
    intro hname h
    rw [h]
    exact .parts n hname
  cases n with
  | name id =>
    by_cases hid : id = subprocess
    · subst hid
      have : uses (.name subprocess) = [.alone] := by simp [uses]
      rw [this]
      exact .alone
    · exact hparts (by simpa using hid) (by simp [uses, hid, Node.children])
  | attr value attr => exact usesOf_attr value attr
  | call func args keywords => exact usesOf_call func args keywords
  | importNames names => exact .imported names
  | importFrom module names =>
    cases module with
    | none => exact hparts (by simp) rfl
    | some module =>
      cases hmodule : isSubprocessModule module with
      | false => exact hparts (by simp) (by simp [uses, hmodule, Node.children])
      | true =>
        have : uses (.importFrom (some module) names) = [.fromImport module] := by simp [uses, hmodule]
        rw [this]
        exact .fromImport module names hmodule
  | _ =>
    exact hparts (by simp) (by simp [uses, Node.children, usesAll_eq, usesOption_eq, usesEntries_eq])

/-- The node of a use. -/
def Use.At : Use → Node → Prop
  | imported name, n => (∃ names, n = .importNames names ∧ name ∈ names) ∧ isSubprocessModule name.name
  | fromImport module, n => isSubprocessModule module ∧ ∃ names, n = .importFrom (some module) names
  | alone, n => n = .name subprocess
  | member attr, n => n = .attr (.name subprocess) attr
  | callee attr args keywords, n => n = .call (.attr (.name subprocess) attr) args keywords

/-- Each use in a tree is at one of its nodes. -/
theorem exists_node_of_mem_uses {n : Node} {u : Use} (hu : u ∈ uses n) : ∃ m ∈ n.walk, u.At m := by
  induction n using Node.byChildren generalizing u with
  | step n ih =>
    have hbelow : ∀ c ∈ n.children, u ∈ uses c → ∃ m ∈ n.walk, u.At m := by
      intro c hc hu
      obtain ⟨m, hm, hat⟩ := ih c hc hu
      exact ⟨m, n.mem_walk_of_child hc hm, hat⟩
    have hspec := usesOf_uses n
    generalize uses n = l at hspec hu
    cases hspec with
    | alone | member =>
      obtain rfl := List.mem_singleton.1 hu
      exact ⟨_, Node.self_mem_walk _, rfl⟩
    | callee attr args keywords =>
      rcases List.mem_cons.1 hu with rfl | hu
      · exact ⟨_, Node.self_mem_walk _, rfl⟩
      · obtain ⟨c, hc, hu⟩ := List.mem_flatMap.1 hu
        exact hbelow c (List.mem_cons_of_mem _ hc) hu
    | imported names =>
      obtain ⟨imported, himported, rfl⟩ := List.mem_map.1 hu
      obtain ⟨himported, hmodule⟩ := List.mem_filter.1 himported
      exact ⟨_, Node.self_mem_walk _, ⟨names, rfl, himported⟩, hmodule⟩
    | fromImport module names hmodule =>
      obtain rfl := List.mem_singleton.1 hu
      exact ⟨_, Node.self_mem_walk _, hmodule, names, rfl⟩
    | parts =>
      obtain ⟨c, hc, hu⟩ := List.mem_flatMap.1 hu
      exact hbelow c hc hu

/-- A use that is made of the name. -/
def Use.isNamed : Use → Bool
  | .imported _ | .fromImport _ => false
  | .alone | .member _ | .callee .. => true

/-- Each place of the name is one use. -/
theorem countP_uses (n : Node) : (uses n).countP Use.isNamed = n.walk.countP (isName subprocess) := by
  induction n using Node.byChildren with
  | step n ih =>
    have hsum : ∀ l ⊆ n.children, (l.flatMap uses).countP Use.isNamed =
        (l.flatMap Node.walk).countP (isName subprocess) := by
      intro l hl
      rw [List.countP_flatMap, List.countP_flatMap]
      exact congrArg List.sum (List.map_congr_left fun c hc => ih c (hl hc))
    have hspec := usesOf_uses n
    generalize uses n = l at hspec
    cases hspec with
    | alone => rfl
    | member => rfl
    | callee attr args keywords =>
      have hargs := hsum (args ++ keywords.map Prod.snd) (List.subset_cons_self _ _)
      rw [List.countP_cons, hargs, Node.walk_eq]
      simp [Node.children, Node.walk, isName, Use.isNamed]
    | imported names => simp [Node.walk, isName, Use.isNamed]
    | fromImport module names => rfl
    | parts _ hname =>
      rw [hsum _ (List.Subset.refl _), n.walk_eq, List.countP_cons]
      have : isName subprocess n = false := by
        cases n <;> simp_all [isName]
      simp [this]

/-! ### The policy -/

/-- The keywords of a call are exactly these, in any order, with these values. -/
structure HasKeywords (wanted : List (Str × (Node → Prop))) (keywords : List (Option Str × Node)) :
    Prop where
  names : (keywords.map Prod.fst).Perm (wanted.map fun w => some w.1)
  values : ∀ w ∈ wanted, ∀ value, (some w.1, value) ∈ keywords → w.2 value

/-- A pair of texts as the entry of a dictionary. -/
def pairEntry (e : Str × Str) : Option Node × Node := (some (.constant (.str e.1)), .constant (.str e.2))

/-- A dictionary with exactly the entries of the environment of Git. -/
def GitEnvironment (node : Node) : Prop :=
  ∃ entries, node = .dict entries ∧ entries.Perm (gitEnvironment.map pairEntry)

def gitKeywords : List (Str × (Node → Prop)) :=
  [("cwd".toList, (· = nameOf "repo_path")), ("check".toList, (· = bool false)),
    ("capture_output".toList, (· = bool true)), ("text".toList, (· = bool true)),
    ("encoding".toList, (· = text "utf-8")), ("errors".toList, (· = text "replace")),
    ("timeout".toList, (· = nameOf "timeout_seconds")), ("env".toList, GitEnvironment)]

def macKeywords : List (Str × (Node → Prop)) :=
  [("check".toList, (· = bool false)), ("capture_output".toList, (· = bool true)),
    ("text".toList, (· = bool true)), ("timeout".toList, (· = nameOf "timeout_seconds"))]

/-- `[str(git_executable), "status", …, untracked_mode]`. -/
def gitCommand : Node :=
  .list [.call (nameOf "str") [nameOf "git_executable"] [], text "status", text "--porcelain=v2",
    text "--branch", text "--no-renames", nameOf "untracked_mode"]

/-- `[OPEN_EXECUTABLE, "-b", app.bundle_id]`. -/
def openCommand : Node :=
  .list [nameOf "OPEN_EXECUTABLE", text "-b", .attr (nameOf "app") "bundle_id".toList]

/-- `[OSASCRIPT_EXECUTABLE, "-e", f'application id "{bundle_id}" is running']`. -/
def runningCommand : Node :=
  .list [nameOf "OSASCRIPT_EXECUTABLE", text "-e",
    .joinedStr [text "application id \"", .formattedValue (nameOf "bundle_id") (-1) none,
      text "\" is running"]]

/-- The arguments that `subprocess.run` may have. -/
inductive AllowedRun (stringConstants : Dict Str Str) (args : List Node)
    (keywords : List (Option Str × Node)) : Prop where
  | gitStatus (hargs : args = [gitCommand]) (hkeywords : HasKeywords gitKeywords keywords)
  | openApp (hpaths : MacExecutables stringConstants) (hargs : args = [openCommand])
    (hkeywords : HasKeywords macKeywords keywords)
  | runningCheck (hpaths : MacExecutables stringConstants) (hargs : args = [runningCommand])
    (hkeywords : HasKeywords macKeywords keywords)

/-- The uses that the policy leaves. -/
def Use.Allowed (stringConstants : Dict Str Str) : Use → Prop
  | imported name => name = { name := subprocess, asname := none }
  | fromImport _ | alone => False
  | member attr => attr = "TimeoutExpired".toList
  | callee attr args keywords =>
    attr = "TimeoutExpired".toList ∨ attr = "run".toList ∧ AllowedRun stringConstants args keywords

/-- Every use of the module is one that the policy leaves. -/
def Safe (body : List Node) : Prop :=
  ∀ u ∈ usesAll body, u.Allowed (moduleStringConstants body)

/-! ### What the scan does not look at -/

/-- Keywords that the scan reads as they are: no `**` argument, no keyword twice, no number that may
stand for a Boolean, and only pairs of texts in the environment, no key twice. -/
structure PlainKeywords (keywords : List (Option Str × Node)) : Prop where
  named : ∀ k ∈ keywords, k.1 ≠ none
  nodup : (keywords.map Prod.fst).Nodup
  noNumber : ∀ k ∈ keywords, ∀ c, k.2 = .constant c → c.isNumber = false
  environment : ∀ entries, (some "env".toList, Node.dict entries) ∈ keywords →
    ∃ pairs : List (Str × Str), (pairs.map Prod.fst).Nodup ∧ entries = pairs.map pairEntry

/-- The module does not stand alone, `run` is only called, and its keywords are plain. -/
def Use.Plain : Use → Prop
  | imported _ | fromImport _ => True
  | alone => False
  | member attr => attr ≠ "run".toList
  | callee attr _ keywords => attr = "run".toList → PlainKeywords keywords

/-- Every use of the module is plain. -/
def Plain (body : List Node) : Prop := ∀ u ∈ usesAll body, u.Plain

/-! ### Keywords -/

theorem isName_iff {value : Str} {node : Node} : isName value node ↔ node = .name value := by
  cases node <;> simp [isName]

theorem isConstantStr_iff {value : Str} {node : Node} :
    isConstantStr value node ↔ node = .constant (.str value) := by
  cases node with
  | constant c => simp [isConstantStr, Constant.equalsStr_iff]
  | _ => simp [isConstantStr]

theorem eq_of_isConstantBool {value : Bool} {node : Node} (h : isConstantBool value node)
    (hnumber : ∀ c, node = .constant c → c.isNumber = false) : node = .constant (.bool value) := by
  cases node with
  | constant c =>
    rcases Constant.equalsBool_cases h with rfl | hc
    · rfl
    · rw [hnumber c rfl] at hc
      cases hc
  | _ => simp [isConstantBool] at h

theorem filterMap_textEntry (pairs : List (Str × Str)) :
    (pairs.map pairEntry).filterMap textEntry = pairs := by
  rw [List.filterMap_map]
  exact List.filterMap_some

/-- An environment of pairs of texts passes only as the environment of Git. -/
theorem gitEnvironment_of_isGitEnvironment {node : Node} (h : isGitEnvironment node)
    (hpairs : ∀ entries, node = .dict entries →
      ∃ pairs : List (Str × Str), (pairs.map Prod.fst).Nodup ∧ entries = pairs.map pairEntry) :
    GitEnvironment node := by
  cases node with
  | dict entries =>
    obtain ⟨pairs, hnodup, rfl⟩ := hpairs entries rfl
    refine ⟨_, rfl, List.Perm.map _ ?_⟩
    rw [isGitEnvironment, filterMap_textEntry, Dict.size, Dict.entries_ofList hnodup] at h
    simp only [Bool.and_eq_true, decide_eq_true_eq, List.all_eq_true] at h
    obtain ⟨hlength, hmem⟩ := h
    exact (List.subperm_of_subset hnodup.of_map hmem).perm_of_length_le hlength.ge
  | _ => simp [isGitEnvironment] at h

/-- Keywords with names are the entries of a dictionary. -/
theorem PlainKeywords.exists_pairs {keywords : List (Option Str × Node)} (h : PlainKeywords keywords) :
    ∃ pairs : List (Str × Node), keywords = pairs.map (fun p => (some p.1, p.2)) ∧
      (pairs.map Prod.fst).Nodup := by
  have hpairs : ∃ pairs : List (Str × Node), keywords = pairs.map fun p => (some p.1, p.2) := by
    have hnamed := h.named
    clear h
    induction keywords with
    | nil => exact ⟨[], rfl⟩
    | cons k keywords ih =>
      obtain ⟨pairs, rfl⟩ := ih fun k hk => hnamed k (List.mem_cons_of_mem _ hk)
      obtain ⟨name, value⟩ := k
      cases name with
      | none => exact absurd rfl (hnamed _ List.mem_cons_self)
      | some name => exact ⟨(name, value) :: pairs, rfl⟩
  obtain ⟨pairs, rfl⟩ := hpairs
  refine ⟨pairs, rfl, ?_⟩
  have hnodup := h.nodup
  rw [List.map_map] at hnodup
  exact List.Nodup.of_map some (by rwa [List.map_map])

theorem namedKeywords_pairs {pairs : List (Str × Node)} (hnodup : (pairs.map Prod.fst).Nodup) :
    (namedKeywords (pairs.map fun p => (some p.1, p.2))).entries = pairs := by
  have : (pairs.map fun p => (some p.1, p.2)).filterMap
      (fun k : Option Str × Node => k.1.map (·, k.2)) = pairs := by
    rw [List.filterMap_map]
    exact List.filterMap_some
  rw [namedKeywords, this, Dict.entries_ofList hnodup]

/-- Plain keywords that pass the checks are exactly the wanted ones. -/
theorem hasKeywords_of_keywordsPass {wanted : List (Str × (Node → Bool))}
    {keywords : List (Option Str × Node)} (hplain : PlainKeywords keywords)
    (hwanted : (wanted.map Prod.fst).Nodup) (h : keywordsPass wanted keywords) :
    HasKeywords (wanted.map fun w => (w.1, fun value => w.2 value)) keywords := by
  obtain ⟨pairs, rfl, hnodup⟩ := hplain.exists_pairs
  simp only [keywordsPass, namedKeywords_pairs hnodup, Bool.and_eq_true, List.all_eq_true,
    decide_eq_true_eq] at h
  obtain ⟨⟨hall, honly⟩, hvalues⟩ := h
  constructor
  · have hperm : (pairs.map Prod.fst).Perm (wanted.map Prod.fst) := by
      refine (List.perm_ext_iff_of_nodup hnodup hwanted).2 fun name => ⟨honly name, fun hname => ?_⟩
      obtain ⟨w, hw, rfl⟩ := List.mem_map.1 hname
      exact hall w hw
    simpa [Function.comp_def] using hperm.map some
  · intro v hv value hvalue
    obtain ⟨w, hw, rfl⟩ := List.mem_map.1 hv
    have hpair : (w.1, value) ∈ pairs := by simpa using hvalue
    have hget : (namedKeywords (pairs.map fun p => (some p.1, p.2))).get? w.1 = some value := by
      rwa [Dict.get?_eq_some_iff, namedKeywords_pairs hnodup]
    have := hvalues w hw
    rwa [hget, Option.any_some] at this

/-- Another description of the same values. -/
theorem HasKeywords.imp {wanted wanted' : List (Str × (Node → Prop))}
    {keywords : List (Option Str × Node)} (h : HasKeywords wanted keywords)
    (himp : List.Forall₂ (fun w w' => w.1 = w'.1 ∧
      ∀ value, (some w.1, value) ∈ keywords → w.2 value → w'.2 value) wanted wanted') :
    HasKeywords wanted' keywords := by
  constructor
  · have : (wanted.map fun w => some w.1) = wanted'.map fun w => some w.1 := by
      clear h
      induction himp with
      | nil => rfl
      | cons hw _ ih => rw [List.map_cons, List.map_cons, hw.1, ih]
    rw [← this]
    exact h.names
  · intro w' hw' value hvalue
    obtain ⟨i, hi, rfl⟩ := List.mem_iff_getElem.1 hw'
    have hi' : i < wanted.length := himp.length_eq ▸ hi
    obtain ⟨hname, hstep⟩ := himp.get hi' hi
    simp only [List.get_eq_getElem] at hname hstep
    rw [← hname] at hvalue
    exact hstep value hvalue (h.values _ (List.getElem_mem hi') value hvalue)

section Accepted

variable {stringConstants : Dict Str Str} {node : Node} {args : List Node}
  {keywords : List (Option Str × Node)}

theorem PlainKeywords.eq_bool (hplain : PlainKeywords keywords) {name : Str} {b : Bool} (value : Node)
    (hvalue : (some name, value) ∈ keywords) (h : isConstantBool b value) : value = bool b :=
  eq_of_isConstantBool h (hplain.noNumber _ hvalue)

theorem gitKeywords_of_pass (hplain : PlainKeywords keywords)
    (h : keywordsPass gitKeywordChecks keywords) : HasKeywords gitKeywords keywords := by
  refine (hasKeywords_of_keywordsPass hplain (by decide) h).imp ?_
  refine .cons ⟨rfl, fun _ _ => isName_iff.1⟩ <| .cons ⟨rfl, hplain.eq_bool⟩ <|
    .cons ⟨rfl, hplain.eq_bool⟩ <| .cons ⟨rfl, hplain.eq_bool⟩ <|
    .cons ⟨rfl, fun _ _ => isConstantStr_iff.1⟩ <| .cons ⟨rfl, fun _ _ => isConstantStr_iff.1⟩ <|
    .cons ⟨rfl, fun _ _ => isName_iff.1⟩ <| .cons ⟨rfl, fun value hvalue henv => ?_⟩ .nil
  refine gitEnvironment_of_isGitEnvironment henv ?_
  rintro entries rfl
  exact hplain.environment entries hvalue

theorem macKeywords_of_pass (hplain : PlainKeywords keywords)
    (h : keywordsPass macKeywordChecks keywords) : HasKeywords macKeywords keywords := by
  refine (hasKeywords_of_keywordsPass hplain (by decide) h).imp ?_
  exact .cons ⟨rfl, hplain.eq_bool⟩ <| .cons ⟨rfl, hplain.eq_bool⟩ <| .cons ⟨rfl, hplain.eq_bool⟩ <|
    .cons ⟨rfl, fun _ _ => isName_iff.1⟩ .nil

theorem isStrCall_iff {argumentName : Str} :
    isStrCall argumentName node ↔ node = .call (nameOf "str") [.name argumentName] [] := by
  constructor
  · intro h
    unfold isStrCall at h
    split at h
    · rw [Bool.and_eq_true, isName_iff, isName_iff] at h
      rw [h.1, h.2]
      rfl
    · cases h
  · rintro rfl
    simp [isStrCall, isName, nameOf]

/-- The positional argument that passes is the Git command. -/
theorem isGitCommand_iff : isGitCommand args ↔ args = [gitCommand] := by
  constructor
  · intro h
    unfold isGitCommand at h
    split at h
    · simp only [Bool.and_eq_true, isStrCall_iff, isConstantStr_iff, isName_iff] at h
      obtain ⟨⟨⟨⟨⟨rfl, rfl⟩, rfl⟩, rfl⟩, rfl⟩, rfl⟩ := h
      rfl
    · cases h
  · rintro rfl
    decide

theorem isRunningCheckScript_iff : isRunningCheckScript node ↔
    node = .joinedStr [text "application id \"", .formattedValue (nameOf "bundle_id") (-1) none,
      text "\" is running"] := by
  constructor
  · intro h
    unfold isRunningCheckScript at h
    split at h
    · simp only [Bool.and_eq_true, isConstantStr_iff, isName_iff, decide_eq_true_eq] at h
      obtain ⟨⟨⟨rfl, rfl⟩, rfl⟩, rfl⟩ := h
      rfl
    · cases h
  · rintro rfl
    decide

theorem isLaunchRequest_iff : isLaunchRequest args ↔ .list args = openCommand := by
  constructor
  · intro h
    unfold isLaunchRequest at h
    split at h
    · simp only [Bool.and_eq_true, isConstantStr_iff, isName_iff, decide_eq_true_eq] at h
      obtain ⟨⟨⟨rfl, rfl⟩, rfl⟩, rfl⟩ := h
      rfl
    · cases h
  · intro h
    obtain rfl := Node.list.inj h
    decide

theorem isRunningCheck_iff : isRunningCheck args ↔ .list args = runningCommand := by
  constructor
  · intro h
    unfold isRunningCheck at h
    split at h
    · simp only [Bool.and_eq_true, isConstantStr_iff, isName_iff, isRunningCheckScript_iff] at h
      obtain ⟨⟨rfl, rfl⟩, rfl⟩ := h
      rfl
    · cases h
  · intro h
    obtain rfl := Node.list.inj h
    decide

/-- A call with plain keywords that passes has exactly the arguments of one of the three commands. -/
theorem allowedRun_of_pass (hplain : PlainKeywords keywords)
    (h : isAllowedGitStatusRunCall (.call node args keywords) ∨
      isAllowedMacAppRunCall stringConstants (.call node args keywords)) :
    AllowedRun stringConstants args keywords := by
  rcases h with h | h
  · rw [isAllowedGitStatusRunCall, Bool.and_eq_true, isGitCommand_iff] at h
    exact .gitStatus h.1 (gitKeywords_of_pass hplain h.2)
  · unfold isAllowedMacAppRunCall at h
    split at h
    case h_2 => cases h
    case h_1 command _ heq =>
      obtain ⟨rfl, rfl, rfl⟩ := Node.call.inj heq
      simp only [Bool.and_eq_true, Bool.or_eq_true, decide_eq_true_eq, isLaunchRequest_iff,
        isRunningCheck_iff] at h
      obtain ⟨⟨hpaths, hcommand | hcommand⟩, hkeywords⟩ := h
      · exact .openApp hpaths (by rw [hcommand]) (macKeywords_of_pass hplain hkeywords)
      · exact .runningCheck hpaths (by rw [hcommand]) (macKeywords_of_pass hplain hkeywords)

/-- Keywords that are exactly the wanted ones are plain, where no wanted value may be a number and only
the environment is a dictionary. -/
theorem HasKeywords.plain {wanted : List (Str × (Node → Prop))} (h : HasKeywords wanted keywords)
    (hwanted : (wanted.map Prod.fst).Nodup)
    (hnumber : ∀ w ∈ wanted, ∀ c, w.2 (.constant c) → c.isNumber = false)
    (hdict : ∀ w ∈ wanted, ∀ entries, w.2 (.dict entries) → GitEnvironment (.dict entries)) :
    PlainKeywords keywords := by
  have hkey : ∀ k ∈ keywords, ∃ w ∈ wanted, k.1 = some w.1 ∧ w.2 k.2 := by
    intro k hk
    obtain ⟨w, hw, hname⟩ := List.mem_map.1 (h.names.subset (List.mem_map_of_mem hk))
    refine ⟨w, hw, hname.symm, h.values w hw k.2 ?_⟩
    rw [hname]
    exact hk
  constructor
  · intro k hk hnone
    obtain ⟨w, -, hname, -⟩ := hkey k hk
    rw [hname] at hnone
    cases hnone
  · refine h.names.nodup_iff.2 ?_
    simpa [Function.comp_def] using hwanted.map (Option.some_injective _)
  · intro k hk c hc
    obtain ⟨w, hw, -, hvalue⟩ := hkey k hk
    rw [hc] at hvalue
    exact hnumber w hw c hvalue
  · intro entries hk
    obtain ⟨w, hw, -, hvalue⟩ := hkey _ hk
    obtain ⟨_, heq, hperm⟩ := hdict w hw entries hvalue
    obtain rfl := Node.dict.inj heq
    have hcomp : Relation.Comp (· = List.map pairEntry ·) List.Perm entries gitEnvironment := by
      rw [List.eq_map_comp_perm]
      exact hperm
    obtain ⟨pairs, rfl, hpairs⟩ := hcomp
    exact ⟨pairs, (hpairs.map Prod.fst).nodup_iff.2 (by decide), rfl⟩

/-- The arguments of one of the three commands have plain keywords. -/
theorem AllowedRun.plain (h : AllowedRun stringConstants args keywords) : PlainKeywords keywords := by
  cases h with
  | gitStatus _ hkeywords =>
    refine hkeywords.plain (by decide) ?_ ?_
    · simp [gitKeywords, nameOf, bool, text, GitEnvironment, Constant.isNumber]
    · simp [gitKeywords, nameOf, bool, text]
  | openApp _ _ hkeywords | runningCheck _ _ hkeywords =>
    refine hkeywords.plain (by decide) ?_ ?_
    · simp [macKeywords, nameOf, bool, Constant.isNumber]
    · simp [macKeywords, nameOf, bool]

end Accepted

/-! ### Trees without findings -/

section Clean

variable {location : Str} {stringConstants : Dict Str Str} {names : List Str}

theorem sortedSet_eq_nil {findings : List Str} : sortedSet findings = [] ↔ findings = [] := by
  have hmem : ∀ s, s ∈ sortedSet findings ↔ s ∈ findings := fun s =>
    (List.mem_insertionSort _).trans List.mem_dedup
  simp only [List.eq_nil_iff_forall_not_mem, hmem]

theorem subprocess_mem_names (nodes : List Node) : subprocess ∈ subprocessImportNames nodes :=
  List.mem_cons_self

/-- Without findings there is none at any node. -/
theorem nodeFindings_of_treeFindings {body : List Node} (h : treeFindings location body = []) {n : Node}
    (hn : n ∈ walkAll body) :
    nodeFindings location (moduleStringConstants body) (subprocessImportNames (walkAll body)) n = [] :=
  List.flatMap_eq_nil_iff.1 (sortedSet_eq_nil.1 h) n hn

theorem isSubprocessModule_iff {module : Str} : isSubprocessModule module ↔
    module = subprocess ∨ "subprocess.".toList.isPrefixOf module := by
  simp [isSubprocessModule]

/-- An import without findings is plain. -/
theorem importFinding_eq_nil {imported : Alias} (h : importFinding location imported = [])
    (hmodule : isSubprocessModule imported.name) : imported = { name := subprocess, asname := none } := by
  unfold importFinding at h
  split at h
  · cases h
  split at h
  · cases h
  rename_i hasname hpre
  have hname : imported.name = subprocess := (isSubprocessModule_iff.1 hmodule).resolve_right hpre
  have hnone : imported.asname = none := by simpa [hname] using hasname
  rw [← hname, ← hnone]

/-- Without findings the attribute of the module is one of two. -/
theorem attr_cases {attr : Str} (hnames : subprocess ∈ names)
    (h : attributeFindings location names (.attr (.name subprocess) attr) = []) :
    attr = "run".toList ∨ attr = "TimeoutExpired".toList := by
  by_contra hattr
  rw [attributeFindings, if_pos ⟨hnames, not_or.1 hattr⟩] at h
  exact List.cons_ne_nil _ _ h

/-- Without findings a call of `run` has passed. -/
theorem pass_of_callFindings {args : List Node} {keywords : List (Option Str × Node)}
    (h : callFindings location stringConstants names
      (.call (.attr (.name subprocess) "run".toList) args keywords) = []) :
    isAllowedGitStatusRunCall (.call (.attr (.name subprocess) "run".toList) args keywords) ∨
      isAllowedMacAppRunCall stringConstants
        (.call (.attr (.name subprocess) "run".toList) args keywords) := by
  rw [callFindings, List.append_eq_nil_iff] at h
  have hrun : isSubprocessRunCall (.call (.attr (.name subprocess) "run".toList) args keywords) = true := by
    simp [isSubprocessRunCall, isName]
  by_contra hpass
  rw [not_or, Bool.not_eq_true, Bool.not_eq_true] at hpass
  have hcond : (isSubprocessRunCall (.call (.attr (.name subprocess) "run".toList) args keywords) &&
      !isAllowedGitStatusRunCall (.call (.attr (.name subprocess) "run".toList) args keywords) &&
      !isAllowedMacAppRunCall stringConstants
        (.call (.attr (.name subprocess) "run".toList) args keywords)) = true := by
    rw [hrun, hpass.1, hpass.2]
    rfl
  rw [if_pos hcond] at h
  exact List.cons_ne_nil _ _ h.2

/-- Every use at a node without findings is allowed exactly when it is plain. -/
theorem allowed_iff_plain {n : Node} {u : Use} (hat : u.At n) (hnames : subprocess ∈ names)
    (h : ∀ m ∈ n.walk, nodeFindings location stringConstants names m = []) :
    u.Allowed stringConstants ↔ u.Plain := by
  have hparts : ∀ m ∈ n.walk, importFindings location m = [] ∧ attributeFindings location names m = [] ∧
      callFindings location stringConstants names m = [] := by
    intro m hm
    have hm := h m hm
    simp only [nodeFindings, List.append_eq_nil_iff] at hm
    exact ⟨hm.1.1.1, hm.1.1.2, hm.2⟩
  obtain ⟨himport, hattribute, hcall⟩ := hparts n n.self_mem_walk
  cases u with
  | imported name =>
    obtain ⟨⟨imports, rfl, hname⟩, hmodule⟩ := hat
    have hfinding := List.flatMap_eq_nil_iff.1 himport name hname
    exact iff_of_true (importFinding_eq_nil hfinding hmodule) trivial
  | fromImport module =>
    obtain ⟨hmodule, imports, rfl⟩ := hat
    simp [importFindings, hmodule] at himport
  | alone => exact Iff.rfl
  | member attr =>
    obtain rfl := hat
    rcases attr_cases hnames hattribute with rfl | rfl
    · exact iff_of_false (show "run".toList ≠ "TimeoutExpired".toList by decide) fun hne => hne rfl
    · exact iff_of_true rfl (show "TimeoutExpired".toList ≠ "run".toList by decide)
  | callee attr args keywords =>
    obtain rfl := hat
    have hfunc : Node.attr (.name subprocess) attr ∈
        (Node.call (.attr (.name subprocess) attr) args keywords).walk :=
      Node.mem_walk_of_child List.mem_cons_self (Node.self_mem_walk _)
    rcases attr_cases hnames (hparts _ hfunc).2.1 with rfl | rfl
    · have hne : "run".toList ≠ "TimeoutExpired".toList := by decide
      simp only [Use.Allowed, Use.Plain, hne, false_or, true_and, true_implies]
      exact ⟨AllowedRun.plain, fun hplain => allowedRun_of_pass hplain (pass_of_callFindings hcall)⟩
    · exact iff_of_true (.inl rfl) fun hrun => absurd hrun (by decide)

theorem exists_node_of_mem_usesAll {body : List Node} {u : Use} (hu : u ∈ usesAll body) :
    ∃ m ∈ walkAll body, u.At m := by
  rw [usesAll_eq, List.mem_flatMap] at hu
  obtain ⟨n, hn, hu⟩ := hu
  obtain ⟨m, hm, hat⟩ := exists_node_of_mem_uses hu
  rw [walkAll_eq]
  exact ⟨m, List.mem_flatMap.2 ⟨n, hn, hm⟩, hat⟩

/-- The uses of a source without findings are the allowed ones exactly when they are all plain. -/
theorem no_findings_safe_iff {parse : Str → Except Str (List Node)} {source : Str}
    (h : validateAllowedSubprocessUsage location parse source = []) :
    ∃ body, parse source = .ok body ∧ (Safe body ↔ Plain body) := by
  cases hparse : parse source with
  | error message => simp [validateAllowedSubprocessUsage, hparse] at h
  | ok body =>
    refine ⟨body, rfl, forall₂_congr fun u hu => ?_⟩
    have htree : treeFindings location body = [] := by
      rwa [validateAllowedSubprocessUsage, hparse] at h
    obtain ⟨m, hm, hat⟩ := exists_node_of_mem_usesAll hu
    exact allowed_iff_plain hat (subprocess_mem_names _) fun k hk =>
      nodeFindings_of_treeFindings htree (mem_walkAll_trans hm hk)

end Clean

/-! ### Sources -/

def importSubprocess : Node := .importNames [{ name := subprocess }]

def runAttribute : Node := .attr (.name subprocess) "run".toList

/-- A source that hands `subprocess.run` on: `f(subprocess.run)`. -/
def passedOn : List Node := [importSubprocess, .other [.call (nameOf "f") [runAttribute] []]]

def openKeywords : List (Option Str × Node) :=
  [(some "check".toList, bool false), (some "capture_output".toList, bool true),
    (some "text".toList, bool true), (some "timeout".toList, nameOf "timeout_seconds")]

/-- A source that asks for an app to be opened, with these keywords. -/
def openSource (keywords : List (Option Str × Node)) : List Node :=
  [importSubprocess, .assign [nameOf "OPEN_EXECUTABLE"] (text "/usr/bin/open"),
    .assign [nameOf "OSASCRIPT_EXECUTABLE"] (text "/usr/bin/osascript"),
    .other [.call runAttribute [openCommand] keywords]]

/-- `subprocess.run` may be handed to any function, and may have any `**` argument, without a finding. -/
theorem scan_passes_unsafe_sources :
    (validateAllowedSubprocessUsage [] (fun _ => .ok passedOn) [] = [] ∧ ¬ Safe passedOn) ∧
      (validateAllowedSubprocessUsage []
          (fun _ => .ok (openSource (openKeywords ++ [(none, nameOf "extra")]))) [] = [] ∧
        ¬ Safe (openSource (openKeywords ++ [(none, nameOf "extra")]))) := by
  refine ⟨⟨by decide +kernel, fun hsafe => ?_⟩, ⟨by decide +kernel, fun hsafe => ?_⟩⟩
  · have hrun := hsafe (.member "run".toList) (by simp [usesAll, uses, passedOn, runAttribute, nameOf])
    exact absurd hrun (show "run".toList ≠ "TimeoutExpired".toList by decide)
  · have hcall := hsafe (.callee "run".toList [openCommand] (openKeywords ++ [(none, nameOf "extra")]))
      (by simp [usesAll, uses, openSource, runAttribute])
    rcases hcall with hrun | ⟨-, hallowed⟩
    · exact absurd hrun (show "run".toList ≠ "TimeoutExpired".toList by decide)
    · exact hallowed.plain.named (none, nameOf "extra") (by simp) rfl

theorem open_source_safe_iff :
    ∃ body, Except.ok (ε := Str) (openSource openKeywords) = .ok body ∧ (Safe body ↔ Plain body) :=
  @no_findings_safe_iff [] (fun _ => .ok (openSource openKeywords)) [] (by decide +kernel)

end GoffyScripts.SecurityScan
