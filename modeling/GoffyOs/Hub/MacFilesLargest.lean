import GoffyOs.Hub.MacFiles
import GoffyOs.Lib.Ranking

/-!
# The tool `mac.files.largest`

The Hub walks through a directory with a stack of open directories, looks at no more than 5000 entries,
and answers with the largest regular files. What it cannot read is counted as skipped.

The walk takes what it keeps of a file as a parameter, `entry`: the handler keeps the entries of its
answer (`largestEntry`), and `foundFiles` is the same walk with the files themselves.
-/

namespace GoffyHub.MacFiles

open Python

structure MacFilesLargestInput where
  rootIndex : ℕ
  relativePath : RelativePath
  maxEntries : ℕ
  maxDepth : ℕ
  includeHidden : Bool
  rootIndex_lt : rootIndex < maxApprovedRoots
  maxEntries_pos : 1 ≤ maxEntries
  maxEntries_le : maxEntries ≤ maxLargestEntries
  maxDepth_le : maxDepth ≤ maxLargestDepth

structure MacFilesLargestEntryOutput where
  relativePath : Str
  pathTruncated : Bool
  name : Str
  nameTruncated : Bool
  sizeBytes : ℕ
  modifiedEpochSeconds : Option ℤ

structure MacFilesLargestOutput where
  status : Str
  rootIndex : ℕ
  rootName : Str
  relativePath : Str
  maxDepth : ℕ
  scannedEntries : ℕ
  skippedEntries : ℕ
  truncated : Bool
  approvedRoots : List MacFilesApprovedRootOutput
  entries : List MacFilesLargestEntryOutput

/-- The constructor of `MacFilesLargestOutput`. -/
def MacFilesLargestOutput.create (o : MacFilesLargestOutput) :
    Except MacFilesError MacFilesLargestOutput :=
  if o.approvedRoots.length ≤ maxApprovedRoots ∧ o.entries.length ≤ maxLargestEntries then .ok o
  else .error .validationError

def MacFilesLargestEntryOutput.modelDump (o : MacFilesLargestEntryOutput) : List (Str × Json) :=
  [("relativePath".toList, .str o.relativePath),
    ("pathTruncated".toList, .bool o.pathTruncated),
    ("name".toList, .str o.name),
    ("nameTruncated".toList, .bool o.nameTruncated),
    ("sizeBytes".toList, .int o.sizeBytes),
    ("modifiedEpochSeconds".toList, jsonInt o.modifiedEpochSeconds)]

/-- `model_dump(mode="json", by_alias=True)`. -/
def MacFilesLargestOutput.modelDump (o : MacFilesLargestOutput) : List (Str × Json) :=
  [("status".toList, .str o.status),
    ("rootIndex".toList, .int o.rootIndex),
    ("rootName".toList, .str o.rootName),
    ("relativePath".toList, .str o.relativePath),
    ("maxDepth".toList, .int o.maxDepth),
    ("scannedEntries".toList, .int o.scannedEntries),
    ("skippedEntries".toList, .int o.skippedEntries),
    ("truncated".toList, .bool o.truncated),
    ("approvedRoots".toList, .array (o.approvedRoots.map fun root => .object root.modelDump)),
    ("entries".toList, .array (o.entries.map fun entry => .object entry.modelDump))]

theorem demoDepth_le : 4 ≤ maxLargestDepth := by decide

/-- A request for the largest files below the first root. -/
def demoLargest : MacFilesLargestInput :=
  ⟨0, demoPath, 10, 4, false, maxApprovedRoots_pos, by decide, by decide, demoDepth_le⟩

/-! ### Output paths -/

/-- `_is_safe_relative_output_path`. -/
def isSafeRelativeOutputPath (value : Str) : Bool :=
  value ≠ [] && value.length ≤ maxLargestRelativePathChars && value.head? ≠ some '/' &&
    (value.splitOn '/').all fun part =>
      part ≠ [] && part ≠ ['.'] && part ≠ ['.', '.'] &&
        !part.any fun c => c.toNat < 0x20 || c.toNat = 0x7f

/-- `_join_relative_path`. -/
def joinRelativePath (directory name : Str) : Str :=
  if directory = [] then name else directory ++ '/' :: name

/-- `_bounded_relative_path`. -/
def boundedRelativePath (name relativePath : Str) : Str × Bool :=
  let candidate := boundedText relativePath maxLargestRelativePathChars
  if isSafeRelativeOutputPath candidate then (candidate, candidate ≠ relativePath)
  else
    let fallback := "truncated/".toList ++ boundedText name maxEntryNameChars
    if isSafeRelativeOutputPath fallback then (fallback, true)
    else ("truncated/unnamed".toList, true)

/-- A regular file that the walk came to. -/
structure FoundFile where
  relativePath : Str
  name : Str
  size : ℕ
  mtime : ℤ

/-- `_largest_entry_output`. -/
def largestEntry (file : FoundFile) : MacFilesLargestEntryOutput where
  relativePath := (boundedRelativePath file.name file.relativePath).1
  pathTruncated := (boundedRelativePath file.name file.relativePath).2
  name := boundedText file.name maxEntryNameChars
  nameTruncated := boundedText file.name maxEntryNameChars ≠ file.name
  sizeBytes := file.size
  modifiedEpochSeconds := some file.mtime

/-! ### The walk -/

/-- The variables of `_largest_file_entries`; the top of the stack is its head. -/
structure Scan (Fd α : Type) where
  stack : List (Fd × Str × ℕ)
  candidates : List α
  scannedEntries : ℕ
  skippedEntries : ℕ
  scanTruncated : Bool

section

variable {Fd α : Type} (fs : FileSystem Fd) (casefold : Str → Str) (entry : FoundFile → α)
  (request : MacFilesLargestInput)

/-- One round of the loop over the names of a directory, for a name that is counted. -/
def scanChild (directory : Fd) (relativePath : Str) (depth : ℕ) (name : Str) (s : Scan Fd α) :
    Scan Fd α :=
  let path := joinRelativePath relativePath name
  match fs.statAt directory name with
  | none => { s with skippedEntries := s.skippedEntries + 1 }
  | some stat =>
    match stat.mode with
    | .symlink => { s with skippedEntries := s.skippedEntries + 1 }
    | .file => { s with candidates := s.candidates ++ [entry ⟨path, name, stat.size, stat.mtime⟩] }
    | .directory =>
      if depth < request.maxDepth then
        match fs.openAt directory name with
        | none => { s with skippedEntries := s.skippedEntries + 1 }
        | some child => { s with stack := (child, path, depth + 1) :: s.stack }
      else { s with skippedEntries := s.skippedEntries + 1 }
    | .other => s

/-- The loop over the names of a directory. -/
def scanChildren (directory : Fd) (relativePath : Str) (depth : ℕ) :
    List Str → Scan Fd α → Scan Fd α
  | [], s => s
  | name :: names, s =>
    if !request.includeHidden && name.head? = some '.' then
      scanChildren directory relativePath depth names s
    else if maxLargestScanEntries ≤ s.scannedEntries then { s with scanTruncated := true }
    else
      scanChildren directory relativePath depth names
        (scanChild fs entry request directory relativePath depth name
          { s with scannedEntries := s.scannedEntries + 1 })

/-- One round of the loop over the stack, for the directory that is taken from it. -/
def scanDirectory (directory : Fd) (relativePath : Str) (depth : ℕ) (s : Scan Fd α) : Scan Fd α :=
  match fs.scandir directory with
  | none => { s with skippedEntries := s.skippedEntries + 1 }
  | some names =>
    scanChildren fs entry request directory relativePath depth
      (names.insertionSort fun a b => ¬ casefold a < casefold b) s

/-- The loop over the stack. Each directory on it was counted when it was put there, so that there are
no more rounds than entries that are counted, and one for the target. -/
def scanDirectories : ℕ → Scan Fd α → Scan Fd α
  | 0, s => s
  | fuel + 1, s =>
    match s.stack with
    | [] => s
    | (directory, relativePath, depth) :: stack =>
      if s.scanTruncated then s
      else
        scanDirectories fuel
          (scanDirectory fs casefold entry request directory relativePath depth
            { s with stack := stack })

/-- The walk from an open directory. -/
def scan (target : Fd) : Scan Fd α :=
  scanDirectories fs casefold entry request (maxLargestScanEntries + 1)
    ⟨[(target, [], 0)], [], 0, 0, false⟩

end

section

variable {Fd : Type} (fs : FileSystem Fd) (casefold : Str → Str)

/-- The key of the candidates: by size, the largest first, and then by path. -/
def comesFirst (a b : MacFilesLargestEntryOutput) : Prop :=
  b.sizeBytes < a.sizeBytes ∨
    a.sizeBytes = b.sizeBytes ∧ ¬ casefold b.relativePath < casefold a.relativePath

instance (a b : MacFilesLargestEntryOutput) : Decidable (comesFirst casefold a b) :=
  inferInstanceAs (Decidable (_ ∨ _))

/-- `find_largest_mac_files`. -/
def findLargestMacFiles (request : MacFilesLargestInput) (roots : List ApprovedMacFilesRoot) :
    Except MacFilesError (List (Str × Json)) := do
  let root ← rootForIndex request.rootIndex roots
  rejectSymlinkComponents fs root.path request.relativePath.val
  let target ← safeTarget fs root.path request.relativePath.val
  if !fs.isDir target then throw (.valueError "relative_path must point to a directory")
  let directory ← ofOption (fs.openDirectory target)
    (.valueError "directory cannot be opened without following symlinks")
  let walk := scan fs casefold largestEntry request directory
  let candidates := walk.candidates.insertionSort (comesFirst casefold)
  let selected := candidates.take request.maxEntries
  let output ← MacFilesLargestOutput.create {
    status := "available".toList
    rootIndex := root.index
    rootName := root.name
    relativePath := request.relativePath.val
    maxDepth := request.maxDepth
    scannedEntries := walk.scannedEntries
    skippedEntries := walk.skippedEntries
    truncated := walk.scanTruncated || selected.length < candidates.length
    approvedRoots := roots.map fun item => ⟨item.index, item.name⟩
    entries := selected }
  return output.modelDump

end

/-! ### What the walk finds -/

section Walk

variable {Fd α β : Type} {fs : FileSystem Fd} {casefold : Str → Str} {entry : FoundFile → α}
  {request : MacFilesLargestInput} {directory : Fd} {relativePath : Str} {depth : ℕ}

/-- The same walk, that keeps something else of its files. -/
def Scan.map (f : α → β) (s : Scan Fd α) : Scan Fd β :=
  { s with candidates := s.candidates.map f }

theorem scanChild_map (f : α → β) (name : Str) (s : Scan Fd α) :
    scanChild fs (f ∘ entry) request directory relativePath depth name (s.map f) =
      (scanChild fs entry request directory relativePath depth name s).map f := by
  unfold scanChild
  dsimp only
  cases fs.statAt directory name with
  | none => rfl
  | some stat =>
    dsimp only
    cases stat.mode with
    | symlink => rfl
    | file => simp [Scan.map]
    | directory =>
      dsimp only
      by_cases hdepth : depth < request.maxDepth
      · rw [if_pos hdepth, if_pos hdepth]
        cases fs.openAt directory name <;> rfl
      · rw [if_neg hdepth, if_neg hdepth]
        rfl
    | other => rfl

theorem scanChildren_map (f : α → β) (names : List Str) (s : Scan Fd α) :
    scanChildren fs (f ∘ entry) request directory relativePath depth names (s.map f) =
      (scanChildren fs entry request directory relativePath depth names s).map f := by
  induction names generalizing s with
  | nil => rfl
  | cons name names ih =>
    unfold scanChildren
    by_cases hhidden : (!request.includeHidden && name.head? = some '.') = true
    · rw [if_pos hhidden, if_pos hhidden, ih]
    rw [if_neg hhidden, if_neg hhidden]
    by_cases hlimit : maxLargestScanEntries ≤ s.scannedEntries
    · have hlimit' : maxLargestScanEntries ≤ (s.map f).scannedEntries := hlimit
      rw [if_pos hlimit, if_pos hlimit']
      rfl
    · have hlimit' : ¬ maxLargestScanEntries ≤ (s.map f).scannedEntries := hlimit
      rw [if_neg hlimit, if_neg hlimit', ← ih, ← scanChild_map]
      rfl

theorem scanDirectory_map (f : α → β) (s : Scan Fd α) :
    scanDirectory fs casefold (f ∘ entry) request directory relativePath depth (s.map f) =
      (scanDirectory fs casefold entry request directory relativePath depth s).map f := by
  unfold scanDirectory
  cases fs.scandir directory with
  | none => rfl
  | some names => exact scanChildren_map f _ s

theorem scanDirectories_map (f : α → β) (fuel : ℕ) (s : Scan Fd α) :
    scanDirectories fs casefold (f ∘ entry) request fuel (s.map f) =
      (scanDirectories fs casefold entry request fuel s).map f := by
  induction fuel generalizing s with
  | zero => rfl
  | succ fuel ih =>
    have hstack : (s.map f).stack = s.stack := rfl
    have htruncated : (s.map f).scanTruncated = s.scanTruncated := rfl
    unfold scanDirectories
    rw [hstack, htruncated]
    cases s.stack with
    | nil => rfl
    | cons top stack =>
      obtain ⟨directory, relativePath, depth⟩ := top
      dsimp only
      cases s.scanTruncated with
      | true => rfl
      | false =>
        simp only [Bool.false_eq_true, if_false]
        rw [← ih, ← scanDirectory_map]
        rfl

/-- What is kept of the files has no effect on the walk. -/
theorem scan_map (f : α → β) (target : Fd) : scan fs casefold (f ∘ entry) request target =
    (scan fs casefold entry request target).map f := by
  rw [scan, scan, ← scanDirectories_map]
  rfl

/-! ### Counters -/

/-- Every directory on the stack, and every entry that was skipped, was counted when the walk came to it;
the target was not. -/
structure Scan.Counted (s : Scan Fd α) : Prop where
  scanned_le : s.scannedEntries ≤ maxLargestScanEntries
  skipped_le : s.skippedEntries + s.stack.length ≤ max 1 s.scannedEntries

/-- The entries below a directory. -/
structure Scan.CountedBelow (s : Scan Fd α) : Prop where
  scanned_le : s.scannedEntries ≤ maxLargestScanEntries
  skipped_le : s.skippedEntries + s.stack.length ≤ s.scannedEntries

theorem Scan.CountedBelow.counted {s : Scan Fd α} (h : s.CountedBelow) : s.Counted where
  scanned_le := h.scanned_le
  skipped_le := h.skipped_le.trans (le_max_right _ _)

theorem scanChild_countedBelow {name : Str} {s : Scan Fd α} (h : s.CountedBelow)
    (hlimit : ¬ maxLargestScanEntries ≤ s.scannedEntries) :
    (scanChild fs entry request directory relativePath depth name
      { s with scannedEntries := s.scannedEntries + 1 }).CountedBelow := by
  have hle : s.scannedEntries + 1 ≤ maxLargestScanEntries := by omega
  have hskipped := h.skipped_le
  have hskip : s.skippedEntries + 1 + s.stack.length ≤ s.scannedEntries + 1 := by omega
  have hkeep : s.skippedEntries + s.stack.length ≤ s.scannedEntries + 1 := by omega
  unfold scanChild
  dsimp only
  cases fs.statAt directory name with
  | none => exact ⟨hle, hskip⟩
  | some stat =>
    dsimp only
    cases stat.mode with
    | symlink => exact ⟨hle, hskip⟩
    | file => exact ⟨hle, hkeep⟩
    | directory =>
      dsimp only
      by_cases hdepth : depth < request.maxDepth
      · rw [if_pos hdepth]
        cases fs.openAt directory name with
        | none => exact ⟨hle, hskip⟩
        | some child =>
          refine ⟨hle, ?_⟩
          show s.skippedEntries + (s.stack.length + 1) ≤ s.scannedEntries + 1
          omega
      · rw [if_neg hdepth]
        exact ⟨hle, hskip⟩
    | other => exact ⟨hle, hkeep⟩

theorem scanChildren_countedBelow {names : List Str} {s : Scan Fd α} (h : s.CountedBelow) :
    (scanChildren fs entry request directory relativePath depth names s).CountedBelow := by
  induction names generalizing s with
  | nil => exact h
  | cons name names ih =>
    unfold scanChildren
    split
    · exact ih h
    split
    · exact ⟨h.scanned_le, h.skipped_le⟩
    case isFalse hlimit => exact ih (scanChild_countedBelow h hlimit)

theorem scanDirectory_counted {s : Scan Fd α} {stack : List (Fd × Str × ℕ)} {top : Fd × Str × ℕ}
    (h : s.Counted) (hstack : s.stack = top :: stack) :
    (scanDirectory fs casefold entry request directory relativePath depth
      { s with stack := stack }).Counted := by
  have hle := h.skipped_le
  rw [hstack, List.length_cons] at hle
  unfold scanDirectory
  cases fs.scandir directory with
  | none =>
    refine ⟨h.scanned_le, ?_⟩
    show s.skippedEntries + 1 + stack.length ≤ max 1 s.scannedEntries
    omega
  | some names =>
    have hbelow : ({ s with stack := stack } : Scan Fd α).CountedBelow := by
      refine ⟨h.scanned_le, ?_⟩
      show s.skippedEntries + stack.length ≤ s.scannedEntries
      omega
    exact (scanChildren_countedBelow hbelow).counted

theorem scanDirectories_counted {fuel : ℕ} {s : Scan Fd α} (h : s.Counted) :
    (scanDirectories fs casefold entry request fuel s).Counted := by
  induction fuel generalizing s with
  | zero => exact h
  | succ fuel ih =>
    unfold scanDirectories
    split
    · exact h
    case h_2 directory relativePath depth stack hstack =>
      split
      · exact h
      · exact ih (scanDirectory_counted h hstack)

/-- No more entries are skipped than looked at, unless the target itself cannot be read. -/
theorem scan_counted (target : Fd) : (scan fs casefold entry request target).Counted :=
  scanDirectories_counted ⟨Nat.zero_le _, le_rfl⟩

/-! ### The rounds -/

/-- The rounds that are still to come are no more than this. -/
def Scan.rounds (s : Scan Fd α) : ℕ := s.stack.length + (maxLargestScanEntries - s.scannedEntries)

theorem scanChild_rounds {name : Str} {s : Scan Fd α}
    (hlimit : ¬ maxLargestScanEntries ≤ s.scannedEntries) :
    (scanChild fs entry request directory relativePath depth name
      { s with scannedEntries := s.scannedEntries + 1 }).rounds ≤ s.rounds := by
  have hkeep : s.stack.length + (maxLargestScanEntries - (s.scannedEntries + 1)) ≤ s.rounds := by
    rw [Scan.rounds]
    omega
  unfold scanChild
  dsimp only
  cases fs.statAt directory name with
  | none => exact hkeep
  | some stat =>
    dsimp only
    cases stat.mode with
    | symlink => exact hkeep
    | file => exact hkeep
    | directory =>
      dsimp only
      by_cases hdepth : depth < request.maxDepth
      · rw [if_pos hdepth]
        cases fs.openAt directory name with
        | none => exact hkeep
        | some child =>
          show s.stack.length + 1 + (maxLargestScanEntries - (s.scannedEntries + 1)) ≤ s.rounds
          rw [Scan.rounds]
          omega
      · rw [if_neg hdepth]
        exact hkeep
    | other => exact hkeep

theorem scanChildren_rounds (names : List Str) (s : Scan Fd α) :
    (scanChildren fs entry request directory relativePath depth names s).rounds ≤ s.rounds := by
  induction names generalizing s with
  | nil => exact le_rfl
  | cons name names ih =>
    unfold scanChildren
    split
    · exact ih s
    split
    · exact le_rfl
    case isFalse hlimit => exact (ih _).trans (scanChild_rounds hlimit)

theorem scanDirectory_rounds (s : Scan Fd α) :
    (scanDirectory fs casefold entry request directory relativePath depth s).rounds ≤ s.rounds := by
  unfold scanDirectory
  cases fs.scandir directory with
  | none => exact le_rfl
  | some names => exact scanChildren_rounds _ s

end Walk

/-! ### The largest files -/

section Largest

variable {Fd : Type} {fs : FileSystem Fd} {casefold : Str → Str} {request : MacFilesLargestInput}

/-- The regular files that the walk comes to. -/
def foundFiles (fs : FileSystem Fd) (casefold : Str → Str) (request : MacFilesLargestInput)
    (directory : Fd) : List FoundFile :=
  (scan fs casefold id request directory).candidates

/-- The files that are shown: the first ones in the order of the candidates. -/
def shownFiles (fs : FileSystem Fd) (casefold : Str → Str) (request : MacFilesLargestInput)
    (directory : Fd) : List FoundFile :=
  ((foundFiles fs casefold request directory).insertionSort fun a b =>
    comesFirst casefold (largestEntry a) (largestEntry b)).take request.maxEntries

theorem selected_eq (directory : Fd) :
    ((scan fs casefold largestEntry request directory).candidates.insertionSort
      (comesFirst casefold)).take request.maxEntries =
      (shownFiles fs casefold request directory).map largestEntry := by
  have hscan : (scan fs casefold largestEntry request directory).candidates =
      (foundFiles fs casefold request directory).map largestEntry :=
    congrArg Scan.candidates (@scan_map _ _ _ _ _ id _ largestEntry directory)
  have hsort := List.map_insertionSort
    (r := fun a b => comesFirst casefold (largestEntry a) (largestEntry b))
    (s := comesFirst casefold) largestEntry (foundFiles fs casefold request directory)
    fun a _ b _ => Iff.rfl
  rw [hscan, shownFiles, List.map_take, hsort]

/-- Sorting by `comesFirst` puts the largest files first. -/
theorem pairwise_insertionSort (entries : List MacFilesLargestEntryOutput) :
    (entries.insertionSort (comesFirst casefold)).Pairwise fun a b => b.sizeBytes ≤ a.sizeBytes := by
  refine Ranking.pairwise_insertionSort (fun a b c hab hbc => hbc.trans hab) (fun a b hfirst => ?_)
    (fun a b hlater => not_lt.1 fun hlt => hlater (Or.inl hlt)) entries
  rcases hfirst with hlt | heq
  · exact hlt.le
  · exact heq.1.ge

/-- The output about the shown files. -/
def largestOutput (fs : FileSystem Fd) (casefold : Str → Str) (request : MacFilesLargestInput)
    (root : ApprovedMacFilesRoot) (roots : List ApprovedMacFilesRoot) (directory : Fd) :
    MacFilesLargestOutput :=
  let walk := scan fs casefold largestEntry request directory
  let candidates := walk.candidates.insertionSort (comesFirst casefold)
  let selected := candidates.take request.maxEntries
  { status := "available".toList
    rootIndex := root.index
    rootName := root.name
    relativePath := request.relativePath.val
    maxDepth := request.maxDepth
    scannedEntries := walk.scannedEntries
    skippedEntries := walk.skippedEntries
    truncated := walk.scanTruncated || selected.length < candidates.length
    approvedRoots := roots.map fun item => ⟨item.index, item.name⟩
    entries := selected }

/-- **Largest files.** What a successful answer says. -/
theorem findLargestMacFiles_ok {roots : List ApprovedMacFilesRoot} {output : List (Str × Json)}
    (h : findLargestMacFiles fs casefold request roots = .ok output) : ∃ root target directory,
      rootForIndex request.rootIndex roots = .ok root ∧
      rejectSymlinkComponents fs root.path request.relativePath.val = .ok () ∧
      safeTarget fs root.path request.relativePath.val = .ok target ∧ fs.isDir target = true ∧
      fs.openDirectory target = some directory ∧
      output = (largestOutput fs casefold request root roots directory).modelDump := by
  unfold findLargestMacFiles at h
  obtain ⟨root, hroot, h⟩ := Checks.bind_eq_ok.1 h
  obtain ⟨_, hlinks, h⟩ := Checks.bind_eq_ok.1 h
  obtain ⟨target, htarget, h⟩ := Checks.bind_eq_ok.1 h
  obtain ⟨hdir, h⟩ := Checks.throw_bind_eq_ok.1 h
  obtain ⟨directory, hdirectory, h⟩ := Checks.bind_eq_ok.1 h
  obtain ⟨created, hcreated, h⟩ := Checks.bind_eq_ok.1 h
  obtain ⟨-, rfl⟩ := Checks.ite_error_eq_ok.1 hcreated
  obtain rfl := Except.ok.inj h
  have hdir : fs.isDir target = true := by simpa using hdir
  exact ⟨root, target, directory, hroot, hlinks, htarget, hdir, ofOption_eq_ok.1 hdirectory, rfl⟩

/-- An answer that succeeds, from what the file system says. -/
theorem findLargestMacFiles_eq {roots : List ApprovedMacFilesRoot} {root : ApprovedMacFilesRoot}
    {target : Path} {directory : Fd} (hroots : roots.length ≤ maxApprovedRoots)
    (hroot : rootForIndex request.rootIndex roots = .ok root)
    (hlinks : rejectSymlinkComponents fs root.path request.relativePath.val = .ok ())
    (htarget : safeTarget fs root.path request.relativePath.val = .ok target)
    (hdir : fs.isDir target = true) (hdirectory : fs.openDirectory target = some directory) :
    findLargestMacFiles fs casefold request roots =
      .ok (largestOutput fs casefold request root roots directory).modelDump := by
  have hrootsLength : (largestOutput fs casefold request root roots directory).approvedRoots.length =
      roots.length := List.length_map _
  have hentriesLength : (largestOutput fs casefold request root roots directory).entries.length ≤
      request.maxEntries := List.length_take_le _ _
  have hcreate : (largestOutput fs casefold request root roots directory).create =
      .ok (largestOutput fs casefold request root roots directory) :=
    if_pos ⟨hrootsLength.trans_le hroots, hentriesLength.trans request.maxEntries_le⟩
  unfold findLargestMacFiles
  refine Checks.bind_eq_ok.2 ⟨root, hroot, Checks.bind_eq_ok.2 ⟨(), hlinks, ?_⟩⟩
  refine Checks.bind_eq_ok.2 ⟨target, htarget, ?_⟩
  refine Checks.throw_bind_eq_ok.2 ⟨by rw [hdir]; exact Bool.false_ne_true, ?_⟩
  refine Checks.bind_eq_ok.2 ⟨directory, ofOption_eq_ok.2 hdirectory, ?_⟩
  exact Checks.bind_eq_ok.2 ⟨_, hcreate, rfl⟩

/-- The paths that are sent are safe for the Hub. -/
theorem isSafeRelativeOutputPath_bounded (name relativePath : Str) :
    isSafeRelativeOutputPath (boundedRelativePath name relativePath).1 = true := by
  unfold boundedRelativePath
  dsimp only
  split
  · assumption
  split
  · assumption
  · decide

end Largest

end GoffyHub.MacFiles
