import GoffyOs.Hub.BoundedText
import GoffyOs.Lib.Checks
import GoffyOs.Python.Json
import GoffyOs.Python.Paths

/-!
# The tools `mac.files.list` and `mac.files.largest`

The Hub lists a directory below an approved root, or walks through it for its largest files.

* `FileSystem` are the answers of the file system: for paths, and for the open directories of the walk;
  `none` is an `OSError`. A mode is the kind of file that the `stat` module reads from it, a modification
  time what `int` makes of it.
* `casefold` orders the names and paths; nothing depends on the order that it gives, and it is a
  parameter.
* `listMacFiles` and `findLargestMacFiles` are the handlers.
-/

namespace GoffyHub.MacFiles

open Python

def maxApprovedRoots : ℕ := 8
def maxListEntries : ℕ := 32
def maxLargestEntries : ℕ := 25
def maxLargestDepth : ℕ := 8
def maxLargestScanEntries : ℕ := 5000
def maxRelativePathChars : ℕ := 512
def maxEntryNameChars : ℕ := 96
def maxLargestRelativePathChars : ℕ := 192
def maxRootNameChars : ℕ := 64

/-- The exceptions that end the tool's call. -/
inductive MacFilesError
  | valueError (message : String)
  | validationError
  | osError

/-- `_bounded_text`. -/
def boundedText (value : Str) (limit : ℕ) : Str :=
  GoffyHub.boundedText isControl "unnamed".toList value limit

/-! ### The file system -/

/-- The kinds of files that `_entry_kind` distinguishes. -/
inductive FileKind
  | symlink
  | directory
  | file
  | other
  deriving DecidableEq

/-- `os.stat_result`. -/
structure StatResult where
  mode : FileKind
  size : ℕ
  /-- `int(st_mtime)` -/
  mtime : ℤ

/-- The answers of the file system, with the open directories `Fd` of the walk. A walk opens each name of a
directory at most once, so that an `openAt` that fails stands for any reason, such as a process that has
run out of descriptors. -/
structure FileSystem (Fd : Type) where
  /-- `resolve(strict=True)` -/
  resolve : Path → Option Path
  isDir : Path → Bool
  isSymlink : Path → Option Bool
  /-- the names of `iterdir()` -/
  iterdir : Path → Option (List Str)
  /-- `stat(follow_symlinks=False)` -/
  stat : Path → Option StatResult
  /-- `_open_directory_no_follow(path)` -/
  openDirectory : Path → Option Fd
  /-- `_open_directory_no_follow(name, dir_fd=fd)` -/
  openAt : Fd → Str → Option Fd
  /-- the names of `os.scandir(fd)` -/
  scandir : Fd → Option (List Str)
  /-- `os.stat(name, dir_fd=fd, follow_symlinks=False)` -/
  statAt : Fd → Str → Option StatResult

def ofOption {α : Type} (o : Option α) (e : MacFilesError) : Except MacFilesError α :=
  match o with
  | some a => .ok a
  | none => .error e

/-! ### Approved roots -/

structure ApprovedMacFilesRoot where
  index : ℕ
  name : Str
  path : Path

/-- A configured path, as the file system knows it. -/
structure RootDirectory where
  path : Path
  isAbsolute : Bool
  isDir : Bool
  /-- `resolve(strict=True)` -/
  resolved : Path

def approvedRoot (index : ℕ) (root : RootDirectory) : Except MacFilesError ApprovedMacFilesRoot :=
  if !root.isAbsolute || !root.isDir then
    .error (.valueError "approved roots must be existing absolute directories")
  else
    .ok {
      index := index
      name := boundedText (if root.path.name = [] then "root".toList else root.path.name)
        maxRootNameChars
      path := root.resolved }

/-- The loop of `_approved_roots_for_tool`. -/
def approvedRootsFrom (index : ℕ) :
    List RootDirectory → Except MacFilesError (List ApprovedMacFilesRoot)
  | [] => .ok []
  | root :: roots => do
    let approved ← approvedRoot index root
    let rest ← approvedRootsFrom (index + 1) roots
    return approved :: rest

/-- `_approved_roots_for_tool`. -/
def approvedRoots (toolName : String) (paths : List RootDirectory) :
    Except MacFilesError (List ApprovedMacFilesRoot) :=
  if paths = [] ∨ maxApprovedRoots < paths.length then
    .error (.valueError (toolName ++ " requires 1..8 approved roots"))
  else do
    let roots ← approvedRootsFrom 0 paths
    if (roots.map (·.path)).Nodup then return roots
    else throw (.valueError "approved roots must be unique")

/-- `_root_for_index`. -/
def rootForIndex (rootIndex : ℕ) (roots : List ApprovedMacFilesRoot) :
    Except MacFilesError ApprovedMacFilesRoot :=
  match roots.find? (·.index = rootIndex) with
  | some root => .ok root
  | none => .error (.valueError "root_index is not configured")

/-! ### Relative paths -/

/-- `validate_relative_path`. -/
def validateRelativePath (value : Str) : Except MacFilesError Str :=
  if value.any (fun c => c.toNat = 0) || value.any (fun c => isSpace c && c ≠ ' ') then
    .error (.valueError "relative_path contains unsupported control characters")
  else if value.head? = some '/' ∨ "..".toList ∈ pathParts value then
    .error (.valueError "relative_path must stay inside an approved root")
  else .ok (if value = [] ∨ value = ['.'] then [] else stripChars ['/'] value)

/-- The validated `relative_path` of a request. -/
structure RelativePath where
  val : Str
  valid : ∃ value : Str, value.length ≤ maxRelativePathChars ∧ validateRelativePath value = .ok val

section

variable {Fd : Type} (fs : FileSystem Fd)

/-- `_safe_target`. -/
def safeTarget (root : Path) (relativePath : Str) : Except MacFilesError Path := do
  let target ← ofOption (fs.resolve (root.join relativePath)) .osError
  if !target.isRelativeTo root then throw (.valueError "relative_path escapes the approved root")
  return target

/-- The loop of `_reject_symlink_components`. -/
def rejectSymlinksFrom (current : Path) : List Str → Except MacFilesError Unit
  | [] => .ok ()
  | part :: parts =>
    match fs.isSymlink ⟨current.parts ++ [part]⟩ with
    | some true => .error (.valueError "relative_path must not traverse symlinks")
    | some false => rejectSymlinksFrom ⟨current.parts ++ [part]⟩ parts
    | none => .error (.valueError "relative_path cannot be inspected safely")

/-- `_reject_symlink_components`. -/
def rejectSymlinkComponents (root : Path) (relativePath : Str) : Except MacFilesError Unit :=
  if relativePath = [] then .ok () else rejectSymlinksFrom fs root (pathParts relativePath)

end

/-! ### `mac.files.list` -/

structure MacFilesListInput where
  rootIndex : ℕ
  relativePath : RelativePath
  maxEntries : ℕ
  includeHidden : Bool
  rootIndex_lt : rootIndex < maxApprovedRoots
  maxEntries_pos : 1 ≤ maxEntries
  maxEntries_le : maxEntries ≤ maxListEntries

structure MacFilesApprovedRootOutput where
  rootIndex : ℕ
  name : Str

structure MacFilesListEntryOutput where
  name : Str
  nameTruncated : Bool
  kind : FileKind
  sizeBytes : Option ℤ
  modifiedEpochSeconds : Option ℤ

structure MacFilesListOutput where
  status : Str
  rootIndex : ℕ
  rootName : Str
  relativePath : Str
  truncated : Bool
  approvedRoots : List MacFilesApprovedRootOutput
  entries : List MacFilesListEntryOutput

/-- The constructor of `MacFilesListOutput`. -/
def MacFilesListOutput.create (o : MacFilesListOutput) : Except MacFilesError MacFilesListOutput :=
  if o.approvedRoots.length ≤ maxApprovedRoots ∧ o.entries.length ≤ maxListEntries then .ok o
  else .error .validationError

def FileKind.value : FileKind → Str
  | .symlink => "symlink".toList
  | .directory => "directory".toList
  | .file => "file".toList
  | .other => "other".toList

/-- A number that may be `None`. -/
def jsonInt (o : Option ℤ) : Json := o.elim .null .int

def MacFilesApprovedRootOutput.modelDump (o : MacFilesApprovedRootOutput) : List (Str × Json) :=
  [("rootIndex".toList, .int o.rootIndex), ("name".toList, .str o.name)]

def MacFilesListEntryOutput.modelDump (o : MacFilesListEntryOutput) : List (Str × Json) :=
  [("name".toList, .str o.name),
    ("nameTruncated".toList, .bool o.nameTruncated),
    ("kind".toList, .str o.kind.value),
    ("sizeBytes".toList, jsonInt o.sizeBytes),
    ("modifiedEpochSeconds".toList, jsonInt o.modifiedEpochSeconds)]

/-- `model_dump(mode="json", by_alias=True)`. -/
def MacFilesListOutput.modelDump (o : MacFilesListOutput) : List (Str × Json) :=
  [("status".toList, .str o.status),
    ("rootIndex".toList, .int o.rootIndex),
    ("rootName".toList, .str o.rootName),
    ("relativePath".toList, .str o.relativePath),
    ("truncated".toList, .bool o.truncated),
    ("approvedRoots".toList, .array (o.approvedRoots.map fun root => .object root.modelDump)),
    ("entries".toList, .array (o.entries.map fun entry => .object entry.modelDump))]

/-- The entry of `_entry_output`, of what the file system says about it. -/
def listEntry (name : Str) (stat : StatResult) : MacFilesListEntryOutput where
  name := boundedText name maxEntryNameChars
  nameTruncated := boundedText name maxEntryNameChars ≠ name
  kind := stat.mode
  sizeBytes := if stat.mode = .file then some (stat.size : ℤ) else none
  modifiedEpochSeconds := some stat.mtime

section

variable {Fd : Type} (fs : FileSystem Fd) (casefold : Str → Str)

/-- `_entry_output`. -/
def entryOutput (target : Path) (name : Str) : Except MacFilesError MacFilesListEntryOutput := do
  let stat ← ofOption (fs.stat ⟨target.parts ++ [name]⟩) .osError
  return listEntry name stat

/-- The names that `_directory_entries` may show, in their order. -/
def visibleNames (includeHidden : Bool) (names : List Str) : List Str :=
  (names.insertionSort fun a b => ¬ casefold b < casefold a).filter fun name =>
    includeHidden || name.head? ≠ some '.'

/-- `_EntryCollection`. -/
structure EntryCollection where
  entries : List MacFilesListEntryOutput
  truncated : Bool

/-- `_directory_entries`. -/
def directoryEntries (target : Path) (maxEntries : ℕ) (includeHidden : Bool) :
    Except MacFilesError EntryCollection := do
  let names ← ofOption (fs.iterdir target) .osError
  let visible := visibleNames casefold includeHidden names
  let entries ← (visible.take maxEntries).mapM (entryOutput fs target)
  return { entries, truncated := (visible.take maxEntries).length < visible.length }

/-- `list_mac_files`. -/
def listMacFiles (request : MacFilesListInput) (roots : List ApprovedMacFilesRoot) :
    Except MacFilesError (List (Str × Json)) := do
  let root ← rootForIndex request.rootIndex roots
  let target ← safeTarget fs root.path request.relativePath.val
  if !fs.isDir target then throw (.valueError "relative_path must point to a directory")
  let entries ← directoryEntries fs casefold target request.maxEntries request.includeHidden
  let output ← MacFilesListOutput.create {
    status := "available".toList
    rootIndex := root.index
    rootName := root.name
    relativePath := request.relativePath.val
    truncated := entries.truncated
    approvedRoots := roots.map fun item => ⟨item.index, item.name⟩
    entries := entries.entries }
  return output.modelDump

end

/-! ### Relative paths stay inside -/

theorem RelativePath.inside (p : RelativePath) :
    p.val.head? ≠ some '/' ∧ "..".toList ∉ p.val.splitOn '/' := by
  obtain ⟨value, -, hvalid⟩ := p.valid
  unfold validateRelativePath at hvalid
  split at hvalid
  · exact absurd hvalid (by simp)
  split at hvalid
  · exact absurd hvalid (by simp)
  case isFalse hpath =>
    obtain ⟨hhead, hparts⟩ := not_or.1 hpath
    rw [← Except.ok.inj hvalid]
    split
    · exact ⟨by decide, by decide⟩
    · refine ⟨head?_stripChars_slash value, fun hmem => hparts ?_⟩
      exact List.mem_filter.2 ⟨mem_splitOn_of_mem_stripChars hmem, by decide⟩

/-! ### Approved roots -/

section Roots

variable {paths : List RootDirectory} {roots : List ApprovedMacFilesRoot} {index : ℕ}

/-- The name of an approved root is a bounded text. -/
def IsBounded (limit : ℕ) (s : Str) : Prop := ∃ value, s = boundedText value limit

theorem approvedRootsFrom_ok (h : approvedRootsFrom index paths = .ok roots) :
    roots.length = paths.length ∧
      ∀ root ∈ roots, root.index < index + paths.length ∧ IsBounded maxRootNameChars root.name := by
  induction paths generalizing index roots with
  | nil =>
    obtain rfl := Except.ok.inj h
    exact ⟨rfl, fun root hroot => by simp at hroot⟩
  | cons path paths ih =>
    obtain ⟨first, hfirst, h⟩ := Checks.bind_eq_ok.1 h
    obtain ⟨rest, hrest, h⟩ := Checks.bind_eq_ok.1 h
    obtain rfl := Except.ok.inj h
    obtain ⟨hlength, hroots⟩ := ih hrest
    refine ⟨congrArg (· + 1) hlength, List.forall_mem_cons.2 ⟨?_, fun root hroot => ?_⟩⟩
    · unfold approvedRoot at hfirst
      split at hfirst
      · exact absurd hfirst (by simp)
      · obtain rfl := Except.ok.inj hfirst
        refine ⟨?_, _, rfl⟩
        show index < index + (paths.length + 1)
        omega
    · obtain ⟨hindex, hname⟩ := hroots root hroot
      refine ⟨?_, hname⟩
      rw [List.length_cons]
      omega

/-- What a tool was built with. -/
structure Approved (roots : List ApprovedMacFilesRoot) : Prop where
  length_le : roots.length ≤ maxApprovedRoots
  index_lt : ∀ root ∈ roots, root.index < maxApprovedRoots
  name : ∀ root ∈ roots, IsBounded maxRootNameChars root.name

theorem approvedRoots_ok {toolName : String} (h : approvedRoots toolName paths = .ok roots) :
    Approved roots := by
  unfold approvedRoots at h
  split at h
  · exact absurd h (by simp)
  case isFalse hpaths =>
    obtain ⟨roots', hroots', h⟩ := Checks.bind_eq_ok.1 h
    split at h
    case isFalse => exact absurd h (by simp [throw, throwThe, MonadExceptOf.throw])
    case isTrue =>
      obtain rfl := Except.ok.inj h
      obtain ⟨hlength, hroots⟩ := approvedRootsFrom_ok hroots'
      have hle : paths.length ≤ maxApprovedRoots := not_lt.1 fun hlt => hpaths (Or.inr hlt)
      refine ⟨hlength.trans_le hle, fun root hroot => ?_, fun root hroot => (hroots root hroot).2⟩
      have hindex := (hroots root hroot).1
      omega

theorem mem_of_rootForIndex {rootIndex : ℕ} {root : ApprovedMacFilesRoot}
    (h : rootForIndex rootIndex roots = .ok root) : root ∈ roots := by
  unfold rootForIndex at h
  split at h
  case h_1 root' hfind =>
    obtain rfl := Except.ok.inj h
    exact List.mem_of_find?_eq_some hfind
  case h_2 => exact absurd h (by simp)

end Roots

theorem ofOption_eq_ok {α : Type} {o : Option α} {e : MacFilesError} {a : α} :
    ofOption o e = .ok a ↔ o = some a := by
  cases o <;> simp [ofOption]

/-! ### Listings -/

section Listing

variable {Fd : Type} {fs : FileSystem Fd} {casefold : Str → Str} {target : Path}

/-- The names that are shown. -/
def shownNames (casefold : Str → Str) (request : MacFilesListInput) (names : List Str) : List Str :=
  (visibleNames casefold request.includeHidden names).take request.maxEntries

theorem mem_of_mem_shownNames {request : MacFilesListInput} {names : List Str} {name : Str}
    (h : name ∈ shownNames casefold request names) : name ∈ names :=
  (List.mem_insertionSort _).1 (List.mem_filter.1 (List.mem_of_mem_take h)).1

/-- The output for the shown names, of what the file system says about them. -/
def listOutput (casefold : Str → Str) (request : MacFilesListInput) (root : ApprovedMacFilesRoot)
    (roots : List ApprovedMacFilesRoot) (names : List Str) (shown : List (Str × StatResult)) :
    MacFilesListOutput where
  status := "available".toList
  rootIndex := root.index
  rootName := root.name
  relativePath := request.relativePath.val
  truncated := (shownNames casefold request names).length <
    (visibleNames casefold request.includeHidden names).length
  approvedRoots := roots.map fun item => ⟨item.index, item.name⟩
  entries := shown.map fun item => listEntry item.1 item.2

/-- Every shown name has been looked up. -/
theorem mapM_entryOutput {names : List Str} {entries : List MacFilesListEntryOutput}
    (h : names.mapM (entryOutput fs target) = .ok entries) : ∃ shown : List (Str × StatResult),
      shown.map (·.1) = names ∧ entries = shown.map (fun item => listEntry item.1 item.2) ∧
      ∀ item ∈ shown, fs.stat ⟨target.parts ++ [item.1]⟩ = some item.2 := by
  induction names generalizing entries with
  | nil =>
    obtain rfl := Except.ok.inj h
    exact ⟨[], rfl, rfl, by simp⟩
  | cons name names ih =>
    obtain ⟨entry, rest, hentry, hrest, rfl⟩ := Checks.mapM_cons_eq_ok.1 h
    obtain ⟨stat, hstat, hentry⟩ := Checks.bind_eq_ok.1 hentry
    obtain rfl := Except.ok.inj hentry
    obtain ⟨shown, hshown, rfl, hstats⟩ := ih hrest
    refine ⟨(name, stat) :: shown, congrArg (name :: ·) hshown, rfl, ?_⟩
    exact List.forall_mem_cons.2 ⟨ofOption_eq_ok.1 hstat, hstats⟩

/-- **Listings.** What a successful answer says. -/
theorem listMacFiles_ok {request : MacFilesListInput} {roots : List ApprovedMacFilesRoot}
    {output : List (Str × Json)} (h : listMacFiles fs casefold request roots = .ok output) :
    ∃ root target names shown, rootForIndex request.rootIndex roots = .ok root ∧
      safeTarget fs root.path request.relativePath.val = .ok target ∧
      fs.isDir target = true ∧ fs.iterdir target = some names ∧
      shown.map (·.1) = shownNames casefold request names ∧
      (∀ item ∈ shown, fs.stat ⟨target.parts ++ [item.1]⟩ = some item.2) ∧
      output = (listOutput casefold request root roots names shown).modelDump := by
  unfold listMacFiles at h
  obtain ⟨root, hroot, h⟩ := Checks.bind_eq_ok.1 h
  obtain ⟨target, htarget, h⟩ := Checks.bind_eq_ok.1 h
  obtain ⟨hdir, h⟩ := Checks.throw_bind_eq_ok.1 h
  obtain ⟨collection, hcollection, h⟩ := Checks.bind_eq_ok.1 h
  obtain ⟨created, hcreated, h⟩ := Checks.bind_eq_ok.1 h
  obtain ⟨-, rfl⟩ := Checks.ite_error_eq_ok.1 hcreated
  obtain rfl := Except.ok.inj h
  unfold directoryEntries at hcollection
  obtain ⟨names, hnames, hcollection⟩ := Checks.bind_eq_ok.1 hcollection
  obtain ⟨entries, hentries, hcollection⟩ := Checks.bind_eq_ok.1 hcollection
  obtain rfl := Except.ok.inj hcollection
  obtain ⟨shown, hshown, rfl, hstats⟩ := mapM_entryOutput hentries
  have hdir : fs.isDir target = true := by simpa using hdir
  exact ⟨root, target, names, shown, hroot, htarget, hdir, ofOption_eq_ok.1 hnames, hshown, hstats,
    rfl⟩

theorem mapM_entryOutput_eq {shown : List (Str × StatResult)}
    (h : ∀ item ∈ shown, fs.stat ⟨target.parts ++ [item.1]⟩ = some item.2) :
    (shown.map (·.1)).mapM (entryOutput fs target) =
      .ok (shown.map fun item => listEntry item.1 item.2) := by
  refine (Checks.mapM_map_eq_ok_iff (k := fun item => listEntry item.1 item.2) (P := fun _ => True)
    (fun item hitem b => ?_) _).2 ⟨rfl, fun _ _ => trivial⟩
  unfold entryOutput
  rw [h item hitem]
  show Except.ok (listEntry item.1 item.2) = .ok b ↔ _
  rw [and_true, Except.ok.injEq, eq_comm]

/-- A listing that succeeds, from what the file system says. -/
theorem listMacFiles_eq {request : MacFilesListInput} {roots : List ApprovedMacFilesRoot}
    {root : ApprovedMacFilesRoot} {names : List Str}
    {shown : List (Str × StatResult)} (hroots : roots.length ≤ maxApprovedRoots)
    (hroot : rootForIndex request.rootIndex roots = .ok root)
    (htarget : safeTarget fs root.path request.relativePath.val = .ok target)
    (hdir : fs.isDir target = true) (hnames : fs.iterdir target = some names)
    (hshown : shown.map (·.1) = shownNames casefold request names)
    (hstats : ∀ item ∈ shown, fs.stat ⟨target.parts ++ [item.1]⟩ = some item.2) :
    listMacFiles fs casefold request roots =
      .ok (listOutput casefold request root roots names shown).modelDump := by
  have hentries : (shownNames casefold request names).mapM (entryOutput fs target) =
      .ok (shown.map fun item => listEntry item.1 item.2) := by
    rw [← hshown]
    exact mapM_entryOutput_eq hstats
  have hcollection : directoryEntries fs casefold target request.maxEntries request.includeHidden =
      .ok ⟨shown.map fun item => listEntry item.1 item.2, (shownNames casefold request names).length <
        (visibleNames casefold request.includeHidden names).length⟩ := by
    unfold directoryEntries
    rw [hnames]
    refine Checks.bind_eq_ok.2 ⟨names, rfl, ?_⟩
    exact Checks.bind_eq_ok.2 ⟨_, hentries, rfl⟩
  have hlength : shown.length ≤ maxListEntries := by
    have heq := congrArg List.length hshown
    rw [List.length_map, shownNames, List.length_take] at heq
    have hle := request.maxEntries_le
    omega
  have hcreate : (listOutput casefold request root roots names shown).create =
      .ok (listOutput casefold request root roots names shown) := by
    have hrootsLength : (listOutput casefold request root roots names shown).approvedRoots.length =
        roots.length := List.length_map _
    have hshownLength : (listOutput casefold request root roots names shown).entries.length =
        shown.length := List.length_map _
    exact if_pos ⟨hrootsLength.trans_le hroots, hshownLength.trans_le hlength⟩
  unfold listMacFiles
  refine Checks.bind_eq_ok.2 ⟨root, hroot, Checks.bind_eq_ok.2 ⟨target, htarget, ?_⟩⟩
  refine Checks.throw_bind_eq_ok.2 ⟨by rw [hdir]; exact Bool.false_ne_true, ?_⟩
  exact Checks.bind_eq_ok.2 ⟨_, hcollection, Checks.bind_eq_ok.2 ⟨_, hcreate, rfl⟩⟩

end Listing

/-! ### A directory with one file -/

def demoDirectory : RootDirectory := ⟨⟨["Movies".toList]⟩, true, true, ⟨["Movies".toList]⟩⟩

def demoRoot : ApprovedMacFilesRoot := ⟨0, "Movies".toList, ⟨["Movies".toList]⟩⟩

/-- A directory with one file of this size. -/
def demoSystem (size : ℕ) : FileSystem Unit where
  resolve p := some p
  isDir _ := true
  isSymlink _ := some false
  iterdir _ := some ["movie.mov".toList]
  stat _ := some ⟨.file, size, 1752422400⟩
  openDirectory _ := some ()
  openAt _ _ := none
  scandir _ := some ["movie.mov".toList]
  statAt _ _ := some ⟨.file, size, 1752422400⟩

def demoPath : RelativePath := ⟨[], [], by decide, rfl⟩

theorem maxApprovedRoots_pos : 0 < maxApprovedRoots := by decide

def demoListing : MacFilesListInput :=
  ⟨0, demoPath, 25, false, maxApprovedRoots_pos, by decide, by decide⟩

/-- The answer of the Hub about it. -/
def demoListOutput (size : ℕ) : MacFilesListOutput :=
  listOutput id demoListing demoRoot [demoRoot] ["movie.mov".toList]
    [("movie.mov".toList, ⟨.file, size, 1752422400⟩)]

theorem listMacFiles_demo (size : ℕ) : listMacFiles (demoSystem size) id demoListing [demoRoot] =
    .ok (demoListOutput size).modelDump := rfl

end GoffyHub.MacFiles
