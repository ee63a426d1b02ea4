import GoffyOs.Hub.MacFilesTree
import GoffyOs.Hub.MacFilesWalk
import Mathlib.Data.Char
import Mathlib.Data.List.Lex

/-!
# The open directories of `mac.files.largest`

`_largest_file_entries` once more, with its descriptors and its exceptions: any call that it makes may
raise, and the `finally` clauses run on every exit. A descriptor is numbered by the open that made it.

* `largestFileEntries_closed`: every descriptor that was opened is closed exactly once, on every exit;
* `largestFileEntries_result`: where the calls only raise what the walk handles, the result is that of
  `scan`;
* `largestFileEntries_spec`: the result, by the traversal of the file tree.
-/

namespace GoffyHub.MacFiles

open Python

/-- An exception: the one that the caller handles (`OSError`, and the `ValueError` of
`_open_directory_no_follow`), or another one. -/
inductive Failure
  | handled
  | other

/-- The calls of the walk, each with what it returns or raises. -/
structure Calls (Fd : Type) where
  /-- `_open_directory_no_follow(target)` -/
  openTarget : Except Failure Fd
  /-- `_open_directory_no_follow(name, dir_fd=directory_fd)` -/
  openAt : Fd → Str → Except Failure Fd
  /-- the names of `os.scandir(directory_fd)` -/
  scandir : Fd → Except Failure (List Str)
  /-- `os.stat(name, dir_fd=directory_fd, follow_symlinks=False)` -/
  statAt : Fd → Str → Except Failure StatResult
  /-- the constructor of `MacFilesLargestEntryOutput` -/
  entryOutput : FoundFile → Except Failure Unit
  /-- `os.close`, that raises nothing but `OSError` -/
  closes : Fd → Bool

/-- An open directory, and the entry that it was opened at. -/
structure Opened (Fd : Type) where
  directory : Fd
  entry : Option (Fd × Str)

/-- `_LargestEntryCollection`. -/
structure LargestEntryCollection where
  entries : List MacFilesLargestEntryOutput
  scannedEntries : ℕ
  skippedEntries : ℕ
  truncated : Bool

/-- The variables of the walk, with its descriptors. -/
structure Walk (Fd : Type) where
  scan : Scan (ℕ × Fd) MacFilesLargestEntryOutput
  /-- the opened descriptors, in the order of their numbers -/
  opened : List (Opened Fd)
  /-- the numbers of the closed ones -/
  closed : List ℕ

/-- A call of the function, at its end. -/
structure Run (Fd : Type) where
  opened : List (Opened Fd)
  closed : List ℕ
  result : Except Failure LargestEntryCollection

/-- `skipped_entries += 1`. -/
def Walk.skip {Fd : Type} (w : Walk Fd) : Walk Fd :=
  { w with scan := { w.scan with skippedEntries := w.scan.skippedEntries + 1 } }

def Walk.push {Fd : Type} (w : Walk Fd) (opened : Opened Fd) (path : Str) (depth : ℕ) : Walk Fd where
  scan := { w.scan with stack := ((w.opened.length, opened.directory), path, depth) :: w.scan.stack }
  opened := w.opened ++ [opened]
  closed := w.closed

section

variable {Fd : Type} (calls : Calls Fd) (casefold : Str → Str) (request : MacFilesLargestInput)

/-- One round of the loop over the names of a directory, for a name that is counted. -/
def walkChild (directory : ℕ × Fd) (relativePath : Str) (depth : ℕ) (name : Str) (w : Walk Fd) :
    Walk Fd × Except Failure Unit :=
  let path := joinRelativePath relativePath name
  match calls.statAt directory.2 name with
  | .error .handled => (w.skip, .ok ())
  | .error .other => (w, .error .other)
  | .ok stat =>
    match stat.mode with
    | .symlink => (w.skip, .ok ())
    | .file =>
      let file : FoundFile := ⟨path, name, stat.size, stat.mtime⟩
      match calls.entryOutput file with
      | .ok () =>
        ({ w with scan := { w.scan with candidates := w.scan.candidates ++ [largestEntry file] } }, .ok ())
      | .error e => (w, .error e)
    | .directory =>
      if depth < request.maxDepth then
        match calls.openAt directory.2 name with
        | .error .handled => (w.skip, .ok ())
        | .error .other => (w, .error .other)
        | .ok child => (w.push ⟨child, some (directory.2, name)⟩ path (depth + 1), .ok ())
      else (w.skip, .ok ())
    | .other => (w, .ok ())

/-- The loop over the names of a directory. -/
def walkChildren (directory : ℕ × Fd) (relativePath : Str) (depth : ℕ) :
    List Str → Walk Fd → Walk Fd × Except Failure Unit
  | [], w => (w, .ok ())
  | name :: names, w =>
    if !request.includeHidden && name.head? = some '.' then
      walkChildren directory relativePath depth names w
    else if maxLargestScanEntries ≤ w.scan.scannedEntries then
      ({ w with scan := { w.scan with scanTruncated := true } }, .ok ())
    else
      match walkChild calls request directory relativePath depth name
        { w with scan := { w.scan with scannedEntries := w.scan.scannedEntries + 1 } } with
      | (w', .ok ()) => walkChildren directory relativePath depth names w'
      | (w', .error e) => (w', .error e)

/-- One round of the loop over the stack, up to its `finally`. -/
def walkDirectory (directory : ℕ × Fd) (relativePath : Str) (depth : ℕ) (w : Walk Fd) :
    Walk Fd × Except Failure Unit :=
  match calls.scandir directory.2 with
  | .error .handled => (w.skip, .ok ())
  | .error .other => (w, .error .other)
  | .ok names =>
    walkChildren calls request directory relativePath depth
      (names.insertionSort fun a b => ¬ casefold a < casefold b) w

/-- `os.close(directory_fd)`, after the round that ended so. An exception of it comes in the place of the
other one. -/
def closeDirectory (directory : ℕ × Fd) (round : Walk Fd × Except Failure Unit) :
    Walk Fd × Except Failure Unit :=
  ({ round.1 with closed := round.1.closed ++ [directory.1] },
    if calls.closes directory.2 then round.2 else .error .other)

/-- The loop over the stack. -/
def walkDirectories : ℕ → Walk Fd → Walk Fd × Except Failure Unit
  | 0, w => (w, .ok ())
  | fuel + 1, w =>
    match w.scan.stack with
    | [] => (w, .ok ())
    | (directory, relativePath, depth) :: stack =>
      if w.scan.scanTruncated then (w, .ok ())
      else
        match closeDirectory calls directory (walkDirectory calls casefold request directory relativePath
          depth { w with scan := { w.scan with stack := stack } }) with
        | (w', .ok ()) => walkDirectories fuel w'
        | (w', .error e) => (w', .error e)

/-- The result of the walk: the candidates are sorted, and the first ones selected. -/
def collection {Fd : Type} (s : Scan Fd MacFilesLargestEntryOutput) : LargestEntryCollection :=
  let candidates := s.candidates.insertionSort (comesFirst casefold)
  let selected := candidates.take request.maxEntries
  { entries := selected
    scannedEntries := s.scannedEntries
    skippedEntries := s.skippedEntries
    truncated := s.scanTruncated || selected.length < candidates.length }

/-- `_largest_file_entries`. -/
def largestFileEntries : Run Fd :=
  match calls.openTarget with
  | .error e => ⟨[], [], .error e⟩
  | .ok target =>
    let walk := walkDirectories calls casefold request (maxLargestScanEntries + 1)
      ⟨⟨[((0, target), [], 0)], [], 0, 0, false⟩, [⟨target, none⟩], []⟩
    -- the pending ones are closed from the bottom of the stack, and `OSError` is suppressed
    ⟨walk.1.opened, walk.1.closed ++ walk.1.scan.stack.reverse.map (·.1.1),
      walk.2.map fun _ => collection casefold request walk.1.scan⟩

end

/-! ### Descriptors -/

section Descriptors

variable {Fd : Type} {calls : Calls Fd} {casefold : Str → Str} {request : MacFilesLargestInput}
  {directory : ℕ × Fd} {relativePath : Str} {depth : ℕ} {w : Walk Fd}

/-- A directory was opened as the target, or at an entry of an open directory that is a directory itself,
and no symbolic link. -/
def Opened.NoLink (calls : Calls Fd) (o : Opened Fd) : Prop :=
  match o.entry with
  | none => calls.openTarget = .ok o.directory
  | some (directory, name) => calls.openAt directory name = .ok o.directory ∧
      ∃ stat, calls.statAt directory name = .ok stat ∧ stat.mode = .directory

/-- Every opened descriptor was closed once, is the one in use, or is on the stack. -/
structure Accounted (calls : Calls Fd) (inUse : List ℕ) (w : Walk Fd) : Prop where
  descriptors : (w.closed ++ inUse ++ w.scan.stack.map (·.1.1)).Perm (List.range w.opened.length)
  noLink : ∀ o ∈ w.opened, o.NoLink calls

theorem Accounted.skip {inUse : List ℕ} (h : Accounted calls inUse w) : Accounted calls inUse w.skip :=
  ⟨h.descriptors, h.noLink⟩

theorem Accounted.push {inUse : List ℕ} (h : Accounted calls inUse w) {o : Opened Fd}
    (ho : o.NoLink calls) (path : Str) (depth : ℕ) : Accounted calls inUse (w.push o path depth) where
  descriptors := by
    have hstack : (w.push o path depth).scan.stack.map (·.1.1) =
        w.opened.length :: w.scan.stack.map (·.1.1) := rfl
    have hlength : (w.push o path depth).opened.length = w.opened.length + 1 :=
      List.length_append
    rw [hstack, hlength, List.range_succ]
    refine List.perm_middle.trans ?_
    exact (h.descriptors.cons w.opened.length).trans (List.perm_append_singleton _ _).symm
  noLink o' ho' := by
    rcases List.mem_append.1 ho' with ho' | ho'
    · exact h.noLink o' ho'
    · rw [List.mem_singleton.1 ho']
      exact ho

theorem walkChild_accounted {inUse : List ℕ} (h : Accounted calls inUse w) (name : Str) :
    Accounted calls inUse (walkChild calls request directory relativePath depth name w).1 := by
  unfold walkChild
  dsimp only
  split
  · exact h.skip
  · exact h
  case h_3 stat hstat =>
    split
    · exact h.skip
    · split
      · exact ⟨h.descriptors, h.noLink⟩
      · exact h
    case h_3 hmode =>
      split
      · split
        · exact h.skip
        · exact h
        case h_3 child hchild =>
          have hlink : (Opened.mk child (some (directory.2, name))).NoLink calls :=
            ⟨hchild, stat, hstat, hmode⟩
          exact h.push hlink _ _
      · exact h.skip
    · exact h

theorem walkChildren_accounted {inUse : List ℕ} (names : List Str) (h : Accounted calls inUse w) :
    Accounted calls inUse (walkChildren calls request directory relativePath depth names w).1 := by
  induction names generalizing w with
  | nil => exact h
  | cons name names ih =>
    unfold walkChildren
    split
    · exact ih h
    split
    · exact ⟨h.descriptors, h.noLink⟩
    have hcounted : Accounted calls inUse
        { w with scan := { w.scan with scannedEntries := w.scan.scannedEntries + 1 } } :=
      ⟨h.descriptors, h.noLink⟩
    have hchild : Accounted calls inUse (walkChild calls request directory relativePath depth name
        { w with scan := { w.scan with scannedEntries := w.scan.scannedEntries + 1 } }).1 :=
      walkChild_accounted hcounted name
    split
    case h_1 w' hw =>
      rw [hw] at hchild
      exact ih hchild
    case h_2 w' e hw =>
      rw [hw] at hchild
      exact hchild

theorem walkDirectory_accounted {inUse : List ℕ} (h : Accounted calls inUse w) :
    Accounted calls inUse (walkDirectory calls casefold request directory relativePath depth w).1 := by
  unfold walkDirectory
  split
  · exact h.skip
  · exact h
  · exact walkChildren_accounted _ h

/-- The directory in use is closed, whatever happened. -/
theorem closeDirectory_accounted {round : Walk Fd × Except Failure Unit}
    (h : Accounted calls [directory.1] round.1) :
    Accounted calls [] (closeDirectory calls directory round).1 := by
  refine ⟨?_, h.noLink⟩
  have hdescriptors := h.descriptors
  rw [closeDirectory, List.append_nil]
  exact hdescriptors

theorem walkDirectories_accounted (fuel : ℕ) (h : Accounted calls [] w) :
    Accounted calls [] (walkDirectories calls casefold request fuel w).1 := by
  induction fuel generalizing w with
  | zero => exact h
  | succ fuel ih =>
    unfold walkDirectories
    split
    · exact h
    case h_2 directory relativePath depth stack hstack =>
      split
      · exact h
      have hpopped : Accounted calls [directory.1] { w with scan := { w.scan with stack := stack } } := by
        refine ⟨?_, h.noLink⟩
        have hdescriptors := h.descriptors
        rw [hstack, List.append_nil, List.map_cons] at hdescriptors
        rw [List.append_assoc]
        exact hdescriptors
      have hwalked : Accounted calls [directory.1] (walkDirectory calls casefold request directory
          relativePath depth { w with scan := { w.scan with stack := stack } }).1 :=
        walkDirectory_accounted hpopped
      have hround := closeDirectory_accounted hwalked
      split
      case h_1 w' hw =>
        rw [hw] at hround
        exact ih hround
      case h_2 w' e hw =>
        rw [hw] at hround
        exact hround

/-- **Descriptors.** On every exit, every descriptor that was opened has been closed exactly once, and no
symbolic link was opened. -/
theorem largestFileEntries_closed (calls : Calls Fd) (casefold : Str → Str)
    (request : MacFilesLargestInput) :
    (largestFileEntries calls casefold request).closed.Perm
        (List.range (largestFileEntries calls casefold request).opened.length) ∧
      ∀ o ∈ (largestFileEntries calls casefold request).opened, o.NoLink calls := by
  unfold largestFileEntries
  split
  · exact ⟨List.Perm.refl _, fun o ho => absurd ho List.not_mem_nil⟩
  case h_2 target htarget =>
    have hstart : Accounted calls []
        ⟨⟨[((0, target), [], 0)], [], 0, 0, false⟩, [⟨target, none⟩], []⟩ :=
      ⟨List.Perm.refl _, fun o ho => by rw [List.mem_singleton.1 ho]; exact htarget⟩
    have h : Accounted calls [] (walkDirectories calls casefold request (maxLargestScanEntries + 1)
        ⟨⟨[((0, target), [], 0)], [], 0, 0, false⟩, [⟨target, none⟩], []⟩).1 :=
      walkDirectories_accounted _ hstart
    refine ⟨?_, h.noLink⟩
    have hdescriptors := h.descriptors
    rw [List.append_nil] at hdescriptors
    refine (List.Perm.append_left _ ?_).trans hdescriptors
    exact (List.reverse_perm _).map _

end Descriptors

/-! ### The result -/

section Result

variable {Fd : Type} {fs : FileSystem Fd} {casefold : Str → Str} {request : MacFilesLargestInput}
  {target : Path}

/-- The answer of a file system: `none` is the exception that the caller handles. -/
def answer {α : Type} : Option α → Except Failure α
  | some a => .ok a
  | none => .error .handled

/-- The calls to a file tree that does not change. -/
def Calls.ofFileSystem (fs : FileSystem Fd) (target : Path) : Calls Fd where
  openTarget := answer (fs.openDirectory target)
  openAt directory name := answer (fs.openAt directory name)
  scandir directory := answer (fs.scandir directory)
  statAt directory name := answer (fs.statAt directory name)
  entryOutput _ := .ok ()
  closes _ := true

/-- The walk without its descriptors. -/
def Walk.forget (w : Walk Fd) : Scan Fd MacFilesLargestEntryOutput :=
  { w.scan with stack := w.scan.stack.map fun top => (top.1.2, top.2.1, top.2.2) }

theorem walkChild_forget (directory : ℕ × Fd) (relativePath : Str) (depth : ℕ) (name : Str)
    (w : Walk Fd) : ∃ w', walkChild (.ofFileSystem fs target) request directory relativePath depth name w =
        (w', .ok ()) ∧
      w'.forget = scanChild fs largestEntry request directory.2 relativePath depth name w.forget := by
  unfold walkChild scanChild
  dsimp only [Calls.ofFileSystem]
  cases fs.statAt directory.2 name with
  | none => exact ⟨_, rfl, rfl⟩
  | some stat =>
    obtain ⟨mode, size, mtime⟩ := stat
    dsimp only [answer]
    cases mode with
    | symlink => exact ⟨_, rfl, rfl⟩
    | file => exact ⟨_, rfl, rfl⟩
    | directory =>
      dsimp only
      split
      · cases fs.openAt directory.2 name with
        | none => exact ⟨_, rfl, rfl⟩
        | some child => exact ⟨_, rfl, rfl⟩
      · exact ⟨_, rfl, rfl⟩
    | other => exact ⟨_, rfl, rfl⟩

theorem walkChildren_forget (directory : ℕ × Fd) (relativePath : Str) (depth : ℕ) (names : List Str)
    (w : Walk Fd) : ∃ w', walkChildren (.ofFileSystem fs target) request directory relativePath depth names
        w = (w', .ok ()) ∧
      w'.forget = scanChildren fs largestEntry request directory.2 relativePath depth names w.forget := by
  induction names generalizing w with
  | nil => exact ⟨w, rfl, rfl⟩
  | cons name names ih =>
    unfold walkChildren scanChildren
    split
    · exact ih w
    have hscanned : w.forget.scannedEntries = w.scan.scannedEntries := rfl
    rw [hscanned]
    split
    · exact ⟨_, rfl, rfl⟩
    · obtain ⟨w', hw, hforget⟩ := @walkChild_forget _ fs request target directory relativePath depth
        name
        { w with scan := { w.scan with scannedEntries := w.scan.scannedEntries + 1 } }
      rw [hw]
      obtain ⟨w'', hw', hforget'⟩ := ih w'
      refine ⟨w'', hw', ?_⟩
      rw [hforget', hforget]
      rfl

theorem walkDirectory_forget (directory : ℕ × Fd) (relativePath : Str) (depth : ℕ) (w : Walk Fd) :
    ∃ w', walkDirectory (.ofFileSystem fs target) casefold request directory relativePath depth w =
        (w', .ok ()) ∧
      w'.forget =
        scanDirectory fs casefold largestEntry request directory.2 relativePath depth w.forget := by
  unfold walkDirectory scanDirectory
  dsimp only [Calls.ofFileSystem]
  cases fs.scandir directory.2 with
  | none => exact ⟨_, rfl, rfl⟩
  | some names => exact walkChildren_forget _ _ _ _ w

theorem walkDirectories_forget (fuel : ℕ) (w : Walk Fd) :
    ∃ w', walkDirectories (.ofFileSystem fs target) casefold request fuel w = (w', .ok ()) ∧
      w'.forget = scanDirectories fs casefold largestEntry request fuel w.forget := by
  induction fuel generalizing w with
  | zero => exact ⟨w, rfl, rfl⟩
  | succ fuel ih =>
    have hstack : w.forget.stack = w.scan.stack.map fun top => (top.1.2, top.2.1, top.2.2) := rfl
    have htruncated : w.forget.scanTruncated = w.scan.scanTruncated := rfl
    unfold walkDirectories scanDirectories
    rw [hstack, htruncated]
    cases w.scan.stack with
    | nil => exact ⟨w, rfl, rfl⟩
    | cons top stack =>
      obtain ⟨directory, path, depth⟩ := top
      dsimp only [List.map_cons]
      split
      · exact ⟨w, rfl, rfl⟩
      · obtain ⟨w', hw, hforget⟩ := @walkDirectory_forget _ fs casefold request target directory
          path depth
          { w with scan := { w.scan with stack := stack } }
        rw [hw]
        obtain ⟨w'', hw', hforget'⟩ := ih { w' with closed := w'.closed ++ [directory.1] }
        refine ⟨w'', hw', ?_⟩
        have hclosed : ({ w' with closed := w'.closed ++ [directory.1] } : Walk Fd).forget = w'.forget := rfl
        rw [hforget', hclosed, hforget]
        rfl

/-- The collection takes nothing from the stack. -/
theorem collection_forget (w : Walk Fd) : collection casefold request w.scan =
    collection casefold request w.forget := rfl

theorem largestFileEntries_result {directory : Fd} (h : fs.openDirectory target = some directory) :
    (largestFileEntries (.ofFileSystem fs target) casefold request).result =
      .ok (collection casefold request (scan fs casefold largestEntry request directory)) := by
  have htarget : (Calls.ofFileSystem fs target).openTarget = .ok directory := by
    rw [Calls.ofFileSystem, h]
    rfl
  unfold largestFileEntries
  rw [htarget]
  dsimp only
  obtain ⟨w, hw, hforget⟩ := @walkDirectories_forget _ fs casefold request target
    (maxLargestScanEntries + 1)
    ⟨⟨[((0, directory), [], 0)], [], 0, 0, false⟩, [⟨directory, none⟩], []⟩
  rw [hw, collection_forget, hforget]
  rfl

/-- The answer of the handler about a collection. -/
def largestAnswer (request : MacFilesLargestInput) (root : ApprovedMacFilesRoot)
    (roots : List ApprovedMacFilesRoot) (c : LargestEntryCollection) : MacFilesLargestOutput where
  status := "available".toList
  rootIndex := root.index
  rootName := root.name
  relativePath := request.relativePath.val
  maxDepth := request.maxDepth
  scannedEntries := c.scannedEntries
  skippedEntries := c.skippedEntries
  truncated := c.truncated
  approvedRoots := roots.map fun item => ⟨item.index, item.name⟩
  entries := c.entries

/-- The handler answers with this collection. -/
theorem largestOutput_collection (fs : FileSystem Fd) (casefold : Str → Str)
    (request : MacFilesLargestInput) (root : ApprovedMacFilesRoot) (roots : List ApprovedMacFilesRoot)
    (directory : Fd) : largestOutput fs casefold request root roots directory =
      largestAnswer request root roots
        (collection casefold request (scan fs casefold largestEntry request directory)) := rfl

/-! ### The largest files of the traversal -/

/-- The order of the candidates: the larger one is first, and among files of one size the one whose path
comes first. -/
theorem pairwise_comesFirst (entries : List MacFilesLargestEntryOutput) :
    (entries.insertionSort (comesFirst casefold)).Pairwise (comesFirst casefold) := by
  have htotal : Std.Total (comesFirst casefold) := by
    refine ⟨fun a b => ?_⟩
    unfold comesFirst
    rcases Nat.lt_trichotomy a.sizeBytes b.sizeBytes with hlt | heq | hgt
    · exact Or.inr (Or.inl hlt)
    · rcases le_total (casefold a.relativePath) (casefold b.relativePath) with hle | hle
      · exact Or.inl (Or.inr ⟨heq, not_lt.2 hle⟩)
      · exact Or.inr (Or.inr ⟨heq.symm, not_lt.2 hle⟩)
    · exact Or.inl (Or.inl hgt)
  have htrans : IsTrans _ (comesFirst casefold) := by
    refine ⟨fun a b c hab hbc => ?_⟩
    unfold comesFirst at hab hbc ⊢
    rcases hab with hab | ⟨hab, hpath⟩
    · rcases hbc with hbc | ⟨hbc, -⟩
      · exact Or.inl (hbc.trans hab)
      · exact Or.inl (hbc ▸ hab)
    · rcases hbc with hbc | ⟨hbc, hpath'⟩
      · exact Or.inl (hab ▸ hbc)
      · exact Or.inr ⟨hab.trans hbc, not_lt.2 ((not_lt.1 hpath).trans (not_lt.1 hpath'))⟩
  exact List.pairwise_insertionSort _ _

/-- The visible entries of the traversal, in its order. -/
def visibleEntries (fs : FileSystem Fd) (casefold : Str → Str) (request : MacFilesLargestInput)
    (directory : Fd) : List (Option FoundFile) :=
  entriesOf (traversal fs casefold request.includeHidden request.maxDepth directory [])

/-- The regular files among the entries that are looked at. -/
def candidateFiles (fs : FileSystem Fd) (casefold : Str → Str) (request : MacFilesLargestInput)
    (directory : Fd) : List FoundFile :=
  ((visibleEntries fs casefold request directory).take maxLargestScanEntries).filterMap id

/-- What the function has to return for a file tree. -/
structure IsLargest (fs : FileSystem Fd) (casefold : Str → Str) (request : MacFilesLargestInput)
    (directory : Fd) (c : LargestEntryCollection) : Prop where
  scannedEntries : c.scannedEntries =
    min maxLargestScanEntries (visibleEntries fs casefold request directory).length
  /-- the entries come before the other candidates -/
  entries : ∃ others, (c.entries ++ others).Perm
      ((candidateFiles fs casefold request directory).map largestEntry) ∧
    (c.entries ++ others).Pairwise (comesFirst casefold)
  length : c.entries.length =
    min request.maxEntries (candidateFiles fs casefold request directory).length
  truncated : c.truncated = true ↔
    maxLargestScanEntries < (visibleEntries fs casefold request directory).length ∨
      request.maxEntries < (candidateFiles fs casefold request directory).length

theorem isLargest_collection (fs : FileSystem Fd) (casefold : Str → Str)
    (request : MacFilesLargestInput) (directory : Fd) : IsLargest fs casefold request directory
      (collection casefold request (scan fs casefold largestEntry request directory)) := by
  have htally := @scan_tally _ _ fs casefold largestEntry request directory
  generalize scan fs casefold largestEntry request directory = s at htally
  obtain ⟨stack, candidates, scanned, skipped, truncated⟩ := s
  simp only [Scan.tally, Tally.mk.injEq] at htally
  obtain ⟨rfl, rfl, -, rfl⟩ := htally
  have hfiles : filesOf (reached maxLargestScanEntries (traversal fs casefold request.includeHidden
      request.maxDepth directory [])) = candidateFiles fs casefold request directory := by
    rw [filesOf, entriesOf_reached]
    rfl
  have hscanned : entriesOf (reached maxLargestScanEntries (traversal fs casefold
      request.includeHidden request.maxDepth directory [])) =
      (visibleEntries fs casefold request directory).take maxLargestScanEntries :=
    entriesOf_reached _ _
  have hvisible : entriesOf (traversal fs casefold request.includeHidden request.maxDepth directory []) =
      visibleEntries fs casefold request directory := rfl
  rw [hfiles, hscanned, hvisible]
  have hsorted : (((candidateFiles fs casefold request directory).map largestEntry).insertionSort
      (comesFirst casefold)).length = (candidateFiles fs casefold request directory).length := by
    rw [List.length_insertionSort, List.length_map]
  refine ⟨List.length_take, ⟨(((candidateFiles fs casefold request directory).map
    largestEntry).insertionSort (comesFirst casefold)).drop request.maxEntries, ?_, ?_⟩, ?_, ?_⟩
  · rw [collection, List.take_append_drop]
    exact List.perm_insertionSort _ _
  · rw [collection, List.take_append_drop]
    exact pairwise_comesFirst _
  · rw [collection, List.length_take, hsorted]
  · rw [collection]
    dsimp only
    rw [Bool.or_eq_true, decide_eq_true_eq, decide_eq_true_eq, List.length_take, hsorted]
    omega

/-- **The largest files.** For every file tree that does not change, the call returns the largest files
of the entries that it looks at; and whatever the calls of the operating system return or raise, every
descriptor that was opened is closed exactly once, and no symbolic link is followed. -/
theorem largestFileEntries_spec (casefold : Str → Str) (request : MacFilesLargestInput) :
    (∀ (fs : FileSystem Fd) (target : Path) (directory : Fd), fs.openDirectory target = some directory →
      ∃ c, (largestFileEntries (.ofFileSystem fs target) casefold request).result = .ok c ∧
        IsLargest fs casefold request directory c) ∧
    ∀ calls : Calls Fd,
      (largestFileEntries calls casefold request).closed.Perm
        (List.range (largestFileEntries calls casefold request).opened.length) ∧
      ∀ o ∈ (largestFileEntries calls casefold request).opened, o.NoLink calls :=
  ⟨fun fs _ directory h =>
      ⟨_, largestFileEntries_result h, isLargest_collection fs casefold request directory⟩,
    fun calls => largestFileEntries_closed calls casefold request⟩

end Result

/-- The two largest files below `Movies`. -/
def archiveLargest : MacFilesLargestInput :=
  ⟨0, demoPath, 2, 4, false, maxApprovedRoots_pos, by decide, by decide, demoDepth_le⟩

/-- The two files of the subdirectory are larger than the one beside it, and the links are skipped. -/
theorem archived_files_are_largest : ∃ c,
    (largestFileEntries (.ofFileSystem (treeSystem archive) demoRoot.path) id archiveLargest).result =
        .ok c ∧
      IsLargest (treeSystem archive) id archiveLargest demoRoot.path.parts c ∧
      c.entries.map (·.relativePath) = ["Archive/movie.mov".toList, "Archive/clip.mov".toList] ∧
      c.truncated = true ∧ c.skippedEntries = 2 := by
  have hopen : (treeSystem archive).openDirectory demoRoot.path = some demoRoot.path.parts := by
    decide +kernel
  obtain ⟨c, hc, hlargest⟩ := (largestFileEntries_spec id archiveLargest).1 (treeSystem archive)
    demoRoot.path demoRoot.path.parts hopen
  have hrun : (match (largestFileEntries (.ofFileSystem (treeSystem archive) demoRoot.path) id
      archiveLargest).result with
      | .ok c => some (c.entries.map (·.relativePath), c.truncated, c.skippedEntries)
      | .error _ => none) =
      some (["Archive/movie.mov".toList, "Archive/clip.mov".toList], true, 2) := by
    decide +kernel
  rw [hc] at hrun
  simp only [Option.some.injEq, Prod.mk.injEq] at hrun
  exact ⟨c, hc, hlargest, hrun⟩

end GoffyHub.MacFiles
