import GoffyOs.Hub.MacFiles
import GoffyOs.Lib.FileTree

/-!
# The answers of a file tree

A file tree with symbolic links stands behind the answers of the file system (`Follows`): `resolve` is
POSIX's `realpath`, `is_symlink` asks for the entry itself, and an open directory has a location.

`treeSystem` is the file system that answers from a given tree, and `follows_treeSystem` says so. Its
descriptors are the locations of the directories.
-/

namespace GoffyHub.MacFiles

open Python FileTree

/-! ### Answers of a tree -/

/-- The steps of a path. -/
def steps (p : Path) : List (Step Str) :=
  p.parts.map fun part => if part = ['.', '.'] then .up else .down part

/-- The directory at the end of a path, with the links that it goes through followed. -/
def LeadsTo (tree : DirectoryTree Str) (p : Path) (r : List Str) : Prop := Walks tree [] (steps p) r

/-- The answers are those of a tree; any of them may be an error as well. -/
structure Follows {Fd : Type} (tree : DirectoryTree Str) (location : Fd → List Str) (fs : FileSystem Fd) :
    Prop where
  /-- no entry is called `..` -/
  name : ∀ {at' : List Str} {name : Str} {node : Node Str}, tree.entry at' name = some node →
    name ≠ ['.', '.']
  resolve : ∀ {p q : Path}, fs.resolve p = some q → LeadsTo tree p q.parts
  isSymlink : ∀ {p : Path} {name : Str} {r : List Str},
    fs.isSymlink ⟨p.parts ++ [name]⟩ = some false → name ≠ ['.', '.'] → LeadsTo tree p r →
    tree.NoLink r name
  openDirectory : ∀ {p : Path} {directory : Fd}, fs.openDirectory p = some directory →
    LeadsTo tree p (location directory)
  /-- the flags of `_open_directory_no_follow` -/
  openAt : ∀ {directory child : Fd} {name : Str}, fs.openAt directory name = some child →
    tree.entry (location directory) name = some .directory ∧
      location child = location directory ++ [name]

/-! ### The file system of a tree -/

/-- An entry of a tree: where it is, what it is, and the size of a file. -/
structure TreeEntry where
  at' : List Str
  name : Str
  node : Node Str
  size : ℕ := 0

/-- A tree by the list of its entries; none of them is called `..`. -/
structure TreeEntries where
  entries : List TreeEntry
  name_ne : ∀ entry ∈ entries, entry.name ≠ ['.', '.']

namespace TreeEntries

variable (t : TreeEntries)

def find (at' : List Str) (name : Str) : Option TreeEntry :=
  t.entries.find? fun entry => entry.at' = at' ∧ entry.name = name

def tree : DirectoryTree Str where
  entry at' name := (t.find at' name).map TreeEntry.node

/-- `realpath`, by at most 64 steps. -/
def locate (p : Path) : Option (List Str) := t.tree.resolve? 64 [] (steps p)

def names (at' : List Str) : List Str :=
  (t.entries.filter fun entry => entry.at' = at').map TreeEntry.name

def isDirectory (r : List Str) : Bool :=
  match r.getLast? with
  | none => true
  | some name => match t.tree.entry r.dropLast name with
    | some .directory => true
    | _ => false

end TreeEntries

/-- `lstat` of an entry. -/
def TreeEntry.stat (entry : TreeEntry) : StatResult where
  mode := match entry.node with
    | .directory => .directory
    | .file => .file
    | .link _ _ => .symlink
  size := entry.size
  mtime := 1752422400

/-- The file system with these entries. -/
def treeSystem (t : TreeEntries) : FileSystem (List Str) where
  resolve p := (t.locate p).map Python.Path.mk
  isDir p := (t.locate p).any t.isDirectory
  isSymlink p := do
    let parent ← t.locate ⟨p.parts.dropLast⟩
    match t.tree.entry parent p.name with
    | some (.link _ _) => some true
    | _ => some false
  iterdir p := ((t.locate p).filter t.isDirectory).map t.names
  stat p := do
    let parent ← t.locate ⟨p.parts.dropLast⟩
    (t.find parent p.name).map TreeEntry.stat
  openDirectory p :=
    match p.parts.getLast? with
    | none => some []
    | some name => do
      let parent ← t.locate ⟨p.parts.dropLast⟩
      match t.tree.entry parent name with
      | some .directory => some (parent ++ [name])
      | _ => none
  openAt directory name :=
    match t.tree.entry directory name with
    | some .directory => some (directory ++ [name])
    | _ => none
  scandir directory := some (t.names directory)
  statAt directory name := (t.find directory name).map TreeEntry.stat

section TreeSystem

variable {t : TreeEntries} {p : Path} {r : List Str}

theorem TreeEntries.leadsTo_of_locate (h : t.locate p = some r) : LeadsTo t.tree p r :=
  walks_of_resolve? h

theorem TreeEntries.of_find {name : Str} {entry : TreeEntry} (h : t.find r name = some entry) :
    entry ∈ t.entries ∧ entry.name = name := by
  unfold TreeEntries.find at h
  have hname := List.find?_some h
  rw [decide_eq_true_eq] at hname
  exact ⟨List.mem_of_find?_eq_some h, hname.2⟩

theorem TreeEntries.name_ne_of_entry {name : Str} {node : Node Str} (h : t.tree.entry r name = some node) :
    name ≠ ['.', '.'] := by
  obtain ⟨entry, hfind, -⟩ := Option.map_eq_some_iff.1 h
  obtain ⟨hmem, hname⟩ := TreeEntries.of_find hfind
  exact hname ▸ t.name_ne entry hmem

/-- A directory behind a path. -/
theorem LeadsTo.enter {tree : DirectoryTree Str} {name : Str} (h : LeadsTo tree p r)
    (hname : name ≠ ['.', '.']) (hentry : tree.entry r name = some .directory) :
    LeadsTo tree ⟨p.parts ++ [name]⟩ (r ++ [name]) := by
  have hsteps : steps ⟨p.parts ++ [name]⟩ = steps p ++ [.down name] := by
    rw [steps, List.map_append, List.map_singleton, if_neg hname]
    rfl
  rw [LeadsTo, hsteps]
  refine Walks.append h (.enter hentry (fun _ _ hlink => ?_) (.here _))
  exact nomatch Option.some.inj (hentry.symm.trans hlink)

/-- **The file system of a tree** gives the answers of the tree. -/
theorem follows_treeSystem (t : TreeEntries) : Follows t.tree id (treeSystem t) where
  name := TreeEntries.name_ne_of_entry
  resolve := by
    intro p q h
    obtain ⟨r, hr, rfl⟩ := Option.map_eq_some_iff.1 h
    exact TreeEntries.leadsTo_of_locate hr
  isSymlink := by
    intro p name r h _ hr isAbsolute target hentry
    obtain ⟨parent, hparent, h⟩ := Option.bind_eq_some_iff.1 h
    have hname : Path.name ⟨p.parts ++ [name]⟩ = name := List.getLastD_concat
    rw [List.dropLast_concat] at hparent
    obtain rfl := Walks.unique hr (TreeEntries.leadsTo_of_locate hparent)
    rw [hname, hentry] at h
    cases h
  openDirectory := by
    intro p directory h
    simp only [treeSystem] at h
    split at h
    case h_1 hnil =>
      obtain rfl := Option.some.inj h
      have hp : p = ⟨[]⟩ := congrArg Python.Path.mk (List.getLast?_eq_none_iff.1 hnil)
      rw [hp]
      exact .here []
    case h_2 name hlast =>
      obtain ⟨parent, hparent, h⟩ := Option.bind_eq_some_iff.1 h
      split at h
      case h_1 hentry =>
        obtain rfl := Option.some.inj h
        have hparts : p.parts.dropLast ++ [name] = p.parts := List.dropLast_append_getLast? name hlast
        have hleads := (TreeEntries.leadsTo_of_locate hparent).enter
          (TreeEntries.name_ne_of_entry hentry) hentry
        rwa [hparts] at hleads
      case h_2 => cases h
  openAt := by
    intro directory child name h
    simp only [treeSystem] at h
    split at h
    case h_1 hentry =>
      obtain rfl := Option.some.inj h
      exact ⟨hentry, rfl⟩
    case h_2 => cases h

end TreeSystem

/-! ### Movies, with an archive and links -/

/-- `Movies` has a file, a subdirectory, a link to the subdirectory and a link to `/etc`. -/
def archive : TreeEntries where
  entries := [
    { at' := [], name := "Movies".toList, node := .directory },
    { at' := [], name := "etc".toList, node := .directory },
    { at' := ["etc".toList], name := "passwd".toList, node := .file, size := 999 },
    { at' := ["Movies".toList], name := "trailer.mov".toList, node := .file, size := 10 },
    { at' := ["Movies".toList], name := "Archive".toList, node := .directory },
    { at' := ["Movies".toList], name := "latest".toList
      node := .link false [.down "Archive".toList] },
    { at' := ["Movies".toList], name := "settings".toList
      node := .link true [.down "etc".toList] },
    { at' := ["Movies".toList, "Archive".toList], name := "clip.mov".toList, node := .file, size := 20 },
    { at' := ["Movies".toList, "Archive".toList], name := "movie.mov".toList, node := .file
      size := 30 }]
  name_ne := by decide

end GoffyHub.MacFiles
