import GoffyOs.Hub.MacFilesDescriptors

/-!
# The directories that `mac.files` reads

What the two handlers read, whatever symbolic links the file system has (`Follows`).

* `listTarget` and `largestTarget` are the handlers up to the directory that they read, and the handlers
  are these and the reading (`listMacFiles_eq_listTarget`, `findLargestMacFiles_eq_run`);
* `SameAt P`: two file systems that give the same answers about paths, and the same contents of the
  directories at the locations in `P`. A handler reads no other directory when it answers the same on both;
* `mac_files_stay_inside`: the directories are inside the approved root, `mac.files.largest` comes to its
  own without a link, and the paths of its entries are relative ones without empty parts and dots.
-/

namespace GoffyHub.MacFiles

open Python FileTree

/-! ### The handlers up to their directory -/

section Targets

variable {Fd : Type} (fs : FileSystem Fd)

/-- The directory that `list_mac_files` reads, and its root. -/
def listTarget (request : MacFilesListInput) (roots : List ApprovedMacFilesRoot) :
    Except MacFilesError (ApprovedMacFilesRoot × Path) := do
  let root ← rootForIndex request.rootIndex roots
  let target ← safeTarget fs root.path request.relativePath.val
  if !fs.isDir target then throw (.valueError "relative_path must point to a directory")
  return (root, target)

/-- The directory that `find_largest_mac_files` walks through, and its root. -/
def largestTarget (request : MacFilesLargestInput) (roots : List ApprovedMacFilesRoot) :
    Except MacFilesError (ApprovedMacFilesRoot × Path) := do
  let root ← rootForIndex request.rootIndex roots
  rejectSymlinkComponents fs root.path request.relativePath.val
  let target ← safeTarget fs root.path request.relativePath.val
  if !fs.isDir target then throw (.valueError "relative_path must point to a directory")
  return (root, target)

/-- `list_mac_files` reads no other directory. -/
theorem listMacFiles_eq_listTarget (casefold : Str → Str) (request : MacFilesListInput)
    (roots : List ApprovedMacFilesRoot) : listMacFiles fs casefold request roots = (do
      let (root, target) ← listTarget fs request roots
      let entries ← directoryEntries fs casefold target request.maxEntries request.includeHidden
      let output ← MacFilesListOutput.create {
        status := "available".toList
        rootIndex := root.index
        rootName := root.name
        relativePath := request.relativePath.val
        truncated := entries.truncated
        approvedRoots := roots.map fun item => ⟨item.index, item.name⟩
        entries := entries.entries }
      return output.modelDump) := by
  unfold listMacFiles listTarget
  cases rootForIndex request.rootIndex roots with
  | error e => rfl
  | ok root =>
    rw [Checks.ok_bind, Checks.ok_bind]
    cases safeTarget fs root.path request.relativePath.val with
    | error e => rfl
    | ok target =>
      rw [Checks.ok_bind, Checks.ok_bind]
      cases fs.isDir target <;> rfl

/-- `find_largest_mac_files` opens no other directory by its path, and answers with what the walk through
it collects. -/
theorem findLargestMacFiles_eq_run (casefold : Str → Str) (request : MacFilesLargestInput)
    (roots : List ApprovedMacFilesRoot) : findLargestMacFiles fs casefold request roots = (do
      let (root, target) ← largestTarget fs request roots
      match (largestFileEntries (.ofFileSystem fs target) casefold request).result with
      | .error _ => throw (.valueError "directory cannot be opened without following symlinks")
      | .ok c =>
        let output ← (largestAnswer request root roots c).create
        return output.modelDump) := by
  have hread : ∀ root target, (do
      let directory ← ofOption (fs.openDirectory target)
        (.valueError "directory cannot be opened without following symlinks")
      let output ← (largestOutput fs casefold request root roots directory).create
      return output.modelDump) =
        (match (largestFileEntries (.ofFileSystem fs target) casefold request).result with
        | .error _ => throw (.valueError "directory cannot be opened without following symlinks")
        | .ok c => do
          let output ← (largestAnswer request root roots c).create
          return output.modelDump : Except MacFilesError (List (Str × Json))) := by
    intro root target
    cases hopen : fs.openDirectory target with
    | none =>
      have hfails : (Calls.ofFileSystem fs target).openTarget = .error .handled := by
        rw [Calls.ofFileSystem, hopen]
        rfl
      rw [largestFileEntries, hfails]
      rfl
    | some directory =>
      rw [largestFileEntries_result hopen]
      simp only [largestOutput_collection]
      rfl
  unfold findLargestMacFiles largestTarget
  cases rootForIndex request.rootIndex roots with
  | error e => rfl
  | ok root =>
    rw [Checks.ok_bind, Checks.ok_bind]
    cases rejectSymlinkComponents fs root.path request.relativePath.val with
    | error e => rfl
    | ok =>
      rw [Checks.ok_bind, Checks.ok_bind]
      cases safeTarget fs root.path request.relativePath.val with
      | error e => rfl
      | ok target =>
        rw [Checks.ok_bind, Checks.ok_bind]
        cases fs.isDir target with
        | false => rfl
        | true => exact hread root target

end Targets

/-! ### Targets -/

section Inside

variable {Fd : Type} {tree : DirectoryTree Str} {location : Fd → List Str} {fs : FileSystem Fd}
  {root target : Path} {relativePath : Str} {r : List Str}

theorem steps_of_names {parts : List Str} (h : ∀ part ∈ parts, part ≠ ['.', '.']) :
    steps ⟨parts⟩ = parts.map .down :=
  List.map_congr_left fun part hpart => if_neg (h part hpart)

theorem Follows.steps_real (h : Follows tree location fs) (hr : Real tree r) :
    steps ⟨r⟩ = r.map .down := by
  refine steps_of_names fun name hname => ?_
  obtain ⟨at', node, hentry⟩ := hr.entry_of_mem hname
  exact h.name hentry

/-- The path of a real location leads to it. -/
theorem Follows.leadsTo_iff (h : Follows tree location fs) (hr : Real tree r) {r' : List Str} :
    LeadsTo tree ⟨r⟩ r' ↔ r' = r := by
  have hwalks : LeadsTo tree ⟨r⟩ r := by
    rw [LeadsTo, h.steps_real hr]
    exact hr.walks
  constructor
  · exact fun hr' => Walks.unique hr' hwalks
  · rintro rfl
    exact hwalks

/-- **Targets.** The target is a real location inside the root. -/
theorem Follows.safeTarget (h : Follows tree location fs)
    (htarget : safeTarget fs root relativePath = .ok target) :
    LeadsTo tree (root.join relativePath) target.parts ∧ Real tree target.parts ∧
      root.parts <+: target.parts := by
  unfold MacFiles.safeTarget at htarget
  obtain ⟨resolved, hresolve, htarget⟩ := Checks.bind_eq_ok.1 htarget
  obtain ⟨hrelative, htarget⟩ := Checks.throw_bind_eq_ok.1 htarget
  obtain rfl := Except.ok.inj htarget
  have hleads := h.resolve (ofOption_eq_ok.1 hresolve)
  have hpre : resolved.isRelativeTo root = true := by simpa using hrelative
  exact ⟨hleads, hleads.real .root, List.isPrefixOf_iff_prefix.1 hpre⟩

/-! ### Components -/

theorem Follows.rejectSymlinksFrom (h : Follows tree location fs) {parts current : List Str}
    (hparts : ∀ part ∈ parts, part ≠ ['.', '.']) (hcurrent : LeadsTo tree ⟨current⟩ current)
    (hr : Walks tree current (parts.map .down) r)
    (hlinks : rejectSymlinksFrom fs ⟨current⟩ parts = .ok ()) :
    ∀ before part after, parts = before ++ part :: after → tree.NoLink (current ++ before) part := by
  induction parts generalizing current with
  | nil => exact fun before part after heq => absurd heq (by simp)
  | cons first parts ih =>
    obtain ⟨hfirst, hparts⟩ := List.forall_mem_cons.1 hparts
    unfold MacFiles.rejectSymlinksFrom at hlinks
    split at hlinks
    case h_1 => exact absurd hlinks (by simp)
    case h_3 => exact absurd hlinks (by simp)
    case h_2 hlink =>
      have hno : tree.NoLink current first := h.isSymlink hlink hfirst hcurrent
      cases hr with
      | follow hentry _ => exact absurd hentry (hno _ _)
      | enter hentry _ hr =>
        have hnext : LeadsTo tree ⟨current ++ [first]⟩ (current ++ [first]) := by
          have hsteps : steps ⟨current ++ [first]⟩ = steps ⟨current⟩ ++ [.down first] := by
            rw [steps, List.map_append, List.map_singleton, if_neg hfirst]
            rfl
          rw [LeadsTo, hsteps]
          exact Walks.append hcurrent (.enter hentry hno (.here _))
        intro before part after heq
        cases before with
        | nil =>
          obtain ⟨rfl, -⟩ := List.cons.inj heq
          rw [List.append_nil]
          exact hno
        | cons a before =>
          obtain ⟨rfl, htail⟩ := List.cons.inj heq
          have hrest := ih hparts hnext hr hlinks before part after htail
          rwa [List.append_assoc] at hrest

/-- No component of the request is a link. -/
theorem Follows.rejectSymlinkComponents (h : Follows tree location fs) (hroot : Real tree root.parts)
    (hparts : ['.', '.'] ∉ pathParts relativePath)
    (hlinks : rejectSymlinkComponents fs root relativePath = .ok ())
    (htarget : MacFiles.safeTarget fs root relativePath = .ok target) :
    ∀ before part after, pathParts relativePath = before ++ part :: after →
      tree.NoLink (root.parts ++ before) part := by
  have hne : ∀ part ∈ pathParts relativePath, part ≠ ['.', '.'] :=
    fun part hpart heq => hparts (heq ▸ hpart)
  unfold MacFiles.rejectSymlinkComponents at hlinks
  split at hlinks
  case isTrue hempty =>
    subst hempty
    exact fun before part after heq => absurd heq (by simp [pathParts])
  case isFalse =>
    have hleads := (h.safeTarget htarget).1
    have hsteps : steps (root.join relativePath) = steps root ++ (pathParts relativePath).map .down := by
      rw [Path.join, steps, List.map_append]
      exact congrArg _ (List.map_congr_left fun part hpart => if_neg (hne part hpart))
    rw [LeadsTo, hsteps] at hleads
    obtain ⟨m, hfirst, hrest⟩ := Walks.exists_of_append hleads
    obtain rfl := (h.leadsTo_iff hroot).1 hfirst
    exact h.rejectSymlinksFrom hne hfirst hrest hlinks

end Inside

/-! ### Open directories -/

section Opened

variable {Fd : Type} {calls : Calls Fd} {casefold : Str → Str} {request : MacFilesLargestInput}
  {directory : ℕ × Fd} {relativePath : Str} {depth : ℕ} {w : Walk Fd} {P : Fd → Prop}

/-- All the directories of the walk satisfy `P`. -/
structure Walk.All (P : Fd → Prop) (w : Walk Fd) : Prop where
  opened : ∀ o ∈ w.opened, P o.directory
  stack : ∀ top ∈ w.scan.stack, P top.1.2

/-- What is opened in a directory that satisfies `P` satisfies it as well. -/
def Calls.Keep (P : Fd → Prop) (calls : Calls Fd) : Prop :=
  ∀ directory name child, P directory → calls.openAt directory name = .ok child → P child

theorem walkChild_all (hcalls : calls.Keep P) (hdirectory : P directory.2) (h : w.All P) (name : Str) :
    (walkChild calls request directory relativePath depth name w).1.All P := by
  unfold walkChild
  dsimp only
  split
  · exact ⟨h.opened, h.stack⟩
  · exact h
  case h_3 stat _ =>
    split
    · exact ⟨h.opened, h.stack⟩
    · split
      · exact ⟨h.opened, h.stack⟩
      · exact h
    · split
      · split
        · exact ⟨h.opened, h.stack⟩
        · exact h
        case h_3 child hchild =>
          have hP : P child := hcalls _ _ _ hdirectory hchild
          exact ⟨List.forall_mem_append.2 ⟨h.opened, List.forall_mem_singleton.2 hP⟩,
            List.forall_mem_cons.2 ⟨hP, h.stack⟩⟩
      · exact ⟨h.opened, h.stack⟩
    · exact h

theorem walkChildren_all (hcalls : calls.Keep P) (hdirectory : P directory.2) (names : List Str)
    (h : w.All P) : (walkChildren calls request directory relativePath depth names w).1.All P := by
  induction names generalizing w with
  | nil => exact h
  | cons name names ih =>
    unfold walkChildren
    split
    · exact ih h
    split
    · exact ⟨h.opened, h.stack⟩
    have hcounted : Walk.All P
        { w with scan := { w.scan with scannedEntries := w.scan.scannedEntries + 1 } } :=
      ⟨h.opened, h.stack⟩
    have hchild : (walkChild calls request directory relativePath depth name
        { w with scan := { w.scan with scannedEntries := w.scan.scannedEntries + 1 } }).1.All P :=
      walkChild_all hcalls hdirectory hcounted name
    split
    case h_1 w' hw =>
      rw [hw] at hchild
      exact ih hchild
    case h_2 w' e hw =>
      rw [hw] at hchild
      exact hchild

theorem walkDirectory_all (hcalls : calls.Keep P) (hdirectory : P directory.2) (h : w.All P) :
    (walkDirectory calls casefold request directory relativePath depth w).1.All P := by
  unfold walkDirectory
  split
  · exact ⟨h.opened, h.stack⟩
  · exact h
  · exact walkChildren_all hcalls hdirectory _ h

theorem walkDirectories_all (hcalls : calls.Keep P) (fuel : ℕ) (h : w.All P) :
    (walkDirectories calls casefold request fuel w).1.All P := by
  induction fuel generalizing w with
  | zero => exact h
  | succ fuel ih =>
    unfold walkDirectories
    split
    · exact h
    case h_2 directory relativePath depth stack hstack =>
      split
      · exact h
      have htop := h.stack
      rw [hstack] at htop
      obtain ⟨hdirectory, hrest⟩ := List.forall_mem_cons.1 htop
      have hpopped : Walk.All P { w with scan := { w.scan with stack := stack } } :=
        ⟨h.opened, hrest⟩
      have hwalked := @walkDirectory_all _ _ casefold request _ relativePath depth _ _ hcalls
        hdirectory hpopped
      have hround : (closeDirectory calls directory (walkDirectory calls casefold request directory
          relativePath depth { w with scan := { w.scan with stack := stack } })).1.All P :=
        ⟨hwalked.opened, hwalked.stack⟩
      split
      case h_1 w' hw =>
        rw [hw] at hround
        exact ih hround
      case h_2 w' e hw =>
        rw [hw] at hround
        exact hround

/-- All the directories that the walk opens satisfy `P`. -/
theorem largestFileEntries_all (hcalls : calls.Keep P)
    (htarget : ∀ directory, calls.openTarget = .ok directory → P directory) :
    ∀ o ∈ (largestFileEntries calls casefold request).opened, P o.directory := by
  unfold largestFileEntries
  split
  · exact fun o ho => absurd ho List.not_mem_nil
  case h_2 target hopen =>
    have hP := htarget target hopen
    have hstart : Walk.All P ⟨⟨[((0, target), [], 0)], [], 0, 0, false⟩, [⟨target, none⟩], []⟩ :=
      ⟨List.forall_mem_singleton.2 hP, List.forall_mem_singleton.2 hP⟩
    exact (walkDirectories_all hcalls _ hstart).opened

end Opened

/-! ### Walks that read the same -/

section Congruence

variable {Fd : Type} {calls calls' : Calls Fd} {casefold : Str → Str} {request : MacFilesLargestInput}
  {directory : ℕ × Fd} {relativePath : Str} {depth : ℕ} {P : Fd → Prop}

/-- The calls answer the same about the target and in the directories that satisfy `P`. -/
structure Calls.AgreeAt (P : Fd → Prop) (calls calls' : Calls Fd) : Prop where
  openTarget : calls'.openTarget = calls.openTarget
  openAt : ∀ directory name, P directory → calls'.openAt directory name = calls.openAt directory name
  scandir : ∀ directory, P directory → calls'.scandir directory = calls.scandir directory
  statAt : ∀ directory name, P directory → calls'.statAt directory name = calls.statAt directory name
  entryOutput : calls'.entryOutput = calls.entryOutput
  closes : calls'.closes = calls.closes

theorem walkChild_congr (h : calls.AgreeAt P calls') (hdirectory : P directory.2) (name : Str)
    (w : Walk Fd) : walkChild calls' request directory relativePath depth name w =
      walkChild calls request directory relativePath depth name w := by
  unfold walkChild
  rw [h.statAt _ _ hdirectory, h.openAt _ _ hdirectory, h.entryOutput]

theorem walkChildren_congr (h : calls.AgreeAt P calls') (hdirectory : P directory.2)
    (names : List Str) (w : Walk Fd) :
    walkChildren calls' request directory relativePath depth names w =
      walkChildren calls request directory relativePath depth names w := by
  induction names generalizing w with
  | nil => rfl
  | cons name names ih =>
    unfold walkChildren
    simp only [walkChild_congr h hdirectory, ih]

theorem walkDirectory_congr (h : calls.AgreeAt P calls') (hdirectory : P directory.2) (w : Walk Fd) :
    walkDirectory calls' casefold request directory relativePath depth w =
      walkDirectory calls casefold request directory relativePath depth w := by
  unfold walkDirectory
  rw [h.scandir _ hdirectory]
  simp only [walkChildren_congr h hdirectory]

theorem walkDirectories_congr (h : calls.AgreeAt P calls') (hcalls : calls.Keep P) (fuel : ℕ)
    {w : Walk Fd} (hw : w.All P) : walkDirectories calls' casefold request fuel w =
      walkDirectories calls casefold request fuel w := by
  induction fuel generalizing w with
  | zero => rfl
  | succ fuel ih =>
    unfold walkDirectories
    cases hstack : w.scan.stack with
    | nil => rfl
    | cons top stack =>
      obtain ⟨directory, relativePath, depth⟩ := top
      have htop := hw.stack
      rw [hstack] at htop
      obtain ⟨hdirectory, hrest⟩ := List.forall_mem_cons.1 htop
      have hpopped : Walk.All P { w with scan := { w.scan with stack := stack } } :=
        ⟨hw.opened, hrest⟩
      have hwalked := @walkDirectory_all _ _ casefold request _ relativePath depth _ _ hcalls
        hdirectory hpopped
      have hclose : ∀ round, closeDirectory calls' directory round =
          closeDirectory calls directory round := fun round => by
        unfold closeDirectory
        rw [h.closes]
      simp only [walkDirectory_congr h hdirectory, hclose]
      split
      · rfl
      · split
        case h_1 w' hround =>
          have hclosed : (closeDirectory calls directory (walkDirectory calls casefold request directory
              relativePath depth { w with scan := { w.scan with stack := stack } })).1.All P :=
            ⟨hwalked.opened, hwalked.stack⟩
          rw [hround] at hclosed
          exact ih hclosed
        case h_2 => rfl

/-- A walk is determined by the directories that it comes to. -/
theorem largestFileEntries_congr (h : calls.AgreeAt P calls') (hcalls : calls.Keep P)
    (htarget : ∀ directory, calls.openTarget = .ok directory → P directory) :
    largestFileEntries calls' casefold request = largestFileEntries calls casefold request := by
  unfold largestFileEntries
  rw [h.openTarget]
  cases hopen : calls.openTarget with
  | error e => rfl
  | ok target =>
    have hP := htarget target hopen
    have hstart : Walk.All P ⟨⟨[((0, target), [], 0)], [], 0, 0, false⟩, [⟨target, none⟩], []⟩ :=
      ⟨List.forall_mem_singleton.2 hP, List.forall_mem_singleton.2 hP⟩
    simp only [walkDirectories_congr h hcalls _ hstart]

end Congruence

/-! ### Paths of entries -/

/-- A relative path without empty parts and dots. -/
structure IsOutputPath (s : Str) : Prop where
  ne_nil : s ≠ []
  length_le : s.length ≤ maxLargestRelativePathChars
  relative : s.head? ≠ some '/'
  part : ∀ part ∈ s.splitOn '/', part ≠ [] ∧ part ≠ ['.'] ∧ part ≠ ['.', '.']

theorem isOutputPath_of_safe {s : Str} (h : isSafeRelativeOutputPath s = true) : IsOutputPath s := by
  simp only [isSafeRelativeOutputPath, Bool.and_eq_true, decide_eq_true_eq, List.all_eq_true] at h
  obtain ⟨⟨⟨hne, hlength⟩, hrelative⟩, hparts⟩ := h
  refine ⟨hne, hlength, hrelative, fun part hpart => ?_⟩
  obtain ⟨⟨⟨hempty, hdot⟩, hup⟩, -⟩ := hparts part hpart
  exact ⟨hempty, hdot, hup⟩

theorem isOutputPath_largestEntry (file : FoundFile) : IsOutputPath (largestEntry file).relativePath :=
  isOutputPath_of_safe (isSafeRelativeOutputPath_bounded file.name file.relativePath)

/-! ### Reads stay inside -/

section Reads

variable {Fd : Type} {tree : DirectoryTree Str} {location : Fd → List Str} {fs : FileSystem Fd}
  {paths : List RootDirectory} {roots : List ApprovedMacFilesRoot}

/-- The path of an approved root is a resolved one. -/
theorem exists_resolved_of_approvedRootsFrom {index : ℕ} (h : approvedRootsFrom index paths = .ok roots)
    {root : ApprovedMacFilesRoot} (hroot : root ∈ roots) : ∃ p ∈ paths, root.path = p.resolved := by
  induction paths generalizing index roots with
  | nil =>
    obtain rfl := Except.ok.inj h
    exact absurd hroot List.not_mem_nil
  | cons path paths ih =>
    obtain ⟨first, hfirst, h⟩ := Checks.bind_eq_ok.1 h
    obtain ⟨rest, hrest, h⟩ := Checks.bind_eq_ok.1 h
    obtain rfl := Except.ok.inj h
    rcases List.mem_cons.1 hroot with rfl | hroot
    · unfold approvedRoot at hfirst
      split at hfirst
      · exact absurd hfirst (by simp)
      · obtain rfl := Except.ok.inj hfirst
        exact ⟨path, List.mem_cons_self, rfl⟩
    · obtain ⟨p, hp, heq⟩ := ih hrest hroot
      exact ⟨p, List.mem_cons_of_mem path hp, heq⟩

theorem exists_resolved {toolName : String} (h : approvedRoots toolName paths = .ok roots)
    {root : ApprovedMacFilesRoot} (hroot : root ∈ roots) : ∃ p ∈ paths, root.path = p.resolved := by
  unfold approvedRoots at h
  split at h
  · exact absurd h (by simp)
  · obtain ⟨roots', hroots', h⟩ := Checks.bind_eq_ok.1 h
    split at h
    case isFalse => exact absurd h (by simp [throw, throwThe, MonadExceptOf.throw])
    case isTrue =>
      obtain rfl := Except.ok.inj h
      exact exists_resolved_of_approvedRootsFrom hroots' hroot

theorem listTarget_ok {request : MacFilesListInput} {root : ApprovedMacFilesRoot} {target : Path}
    (h : listTarget fs request roots = .ok (root, target)) :
    rootForIndex request.rootIndex roots = .ok root ∧
      safeTarget fs root.path request.relativePath.val = .ok target := by
  unfold listTarget at h
  obtain ⟨root', hroot, h⟩ := Checks.bind_eq_ok.1 h
  obtain ⟨target', htarget, h⟩ := Checks.bind_eq_ok.1 h
  obtain ⟨-, h⟩ := Checks.throw_bind_eq_ok.1 h
  obtain ⟨rfl, rfl⟩ := Prod.mk.inj (Except.ok.inj h)
  exact ⟨hroot, htarget⟩

theorem largestTarget_ok {request : MacFilesLargestInput} {root : ApprovedMacFilesRoot} {target : Path}
    (h : largestTarget fs request roots = .ok (root, target)) :
    rootForIndex request.rootIndex roots = .ok root ∧
      rejectSymlinkComponents fs root.path request.relativePath.val = .ok () ∧
      safeTarget fs root.path request.relativePath.val = .ok target := by
  unfold largestTarget at h
  obtain ⟨root', hroot, h⟩ := Checks.bind_eq_ok.1 h
  obtain ⟨_, hlinks, h⟩ := Checks.bind_eq_ok.1 h
  obtain ⟨target', htarget, h⟩ := Checks.bind_eq_ok.1 h
  obtain ⟨-, h⟩ := Checks.throw_bind_eq_ok.1 h
  obtain ⟨rfl, rfl⟩ := Prod.mk.inj (Except.ok.inj h)
  exact ⟨hroot, hlinks, htarget⟩

theorem answer_eq_ok {α : Type} {o : Option α} {a : α} (h : answer o = .ok a) : o = some a := by
  cases o with
  | none => cases h
  | some b => exact congrArg some (Except.ok.inj h)

/-- The file systems answer the same about paths, and show the same contents of the directories at the
locations in `P`. -/
structure SameAt (tree : DirectoryTree Str) (location : Fd → List Str) (P : List Str → Prop)
    (fs fs' : FileSystem Fd) : Prop where
  resolve : fs'.resolve = fs.resolve
  isDir : fs'.isDir = fs.isDir
  isSymlink : fs'.isSymlink = fs.isSymlink
  iterdir : ∀ p r, LeadsTo tree p r → P r → fs'.iterdir p = fs.iterdir p
  stat : ∀ p name r, LeadsTo tree p r → P r →
    fs'.stat ⟨p.parts ++ [name]⟩ = fs.stat ⟨p.parts ++ [name]⟩
  openDirectory : ∀ p r, LeadsTo tree p r → P r → fs'.openDirectory p = fs.openDirectory p
  openAt : ∀ directory name, P (location directory) → fs'.openAt directory name = fs.openAt directory name
  scandir : ∀ directory, P (location directory) → fs'.scandir directory = fs.scandir directory
  statAt : ∀ directory name, P (location directory) → fs'.statAt directory name = fs.statAt directory name

section Same

variable {fs' : FileSystem Fd} {P : List Str → Prop} {root target : Path} {relativePath : Str}

theorem SameAt.safeTarget (h : SameAt tree location P fs fs') (root : Path) (relativePath : Str) :
    MacFiles.safeTarget fs' root relativePath = MacFiles.safeTarget fs root relativePath := by
  unfold MacFiles.safeTarget
  rw [h.resolve]

theorem SameAt.rejectSymlinksFrom (h : SameAt tree location P fs fs') (parts : List Str)
    (current : Path) :
    MacFiles.rejectSymlinksFrom fs' current parts = MacFiles.rejectSymlinksFrom fs current parts := by
  induction parts generalizing current with
  | nil => rfl
  | cons part parts ih =>
    unfold MacFiles.rejectSymlinksFrom
    simp only [h.isSymlink, ih]

theorem SameAt.listTarget (h : SameAt tree location P fs fs') (request : MacFilesListInput) :
    MacFiles.listTarget fs' request roots = MacFiles.listTarget fs request roots := by
  unfold MacFiles.listTarget
  simp only [h.safeTarget, h.isDir]

theorem SameAt.largestTarget (h : SameAt tree location P fs fs') (request : MacFilesLargestInput) :
    MacFiles.largestTarget fs' request roots = MacFiles.largestTarget fs request roots := by
  unfold MacFiles.largestTarget MacFiles.rejectSymlinkComponents
  simp only [h.safeTarget, h.isDir, h.rejectSymlinksFrom]

/-- The entries of a directory in `P`. -/
theorem SameAt.directoryEntries (h : SameAt tree location P fs fs') {r : List Str}
    (hr : LeadsTo tree target r) (hP : P r) (casefold : Str → Str) (maxEntries : ℕ)
    (includeHidden : Bool) :
    MacFiles.directoryEntries fs' casefold target maxEntries includeHidden =
      MacFiles.directoryEntries fs casefold target maxEntries includeHidden := by
  have hentry : entryOutput fs' target = entryOutput fs target := funext fun name => by
    rw [entryOutput, entryOutput, h.stat _ _ _ hr hP]
  unfold MacFiles.directoryEntries
  rw [h.iterdir _ _ hr hP, hentry]

/-- The target of a request as the file tree has it. -/
theorem Follows.leadsTo_target (h : Follows tree location fs)
    (htarget : MacFiles.safeTarget fs root relativePath = .ok target) :
    LeadsTo tree target target.parts :=
  (h.leadsTo_iff (h.safeTarget htarget).2.1).2 rfl

/-- What opens below an open directory stays where `P` holds, if `P` holds below. -/
theorem Follows.keep (h : Follows tree location fs) (hbelow : ∀ r name, P r → P (r ++ [name])) :
    (Calls.ofFileSystem fs target).Keep fun directory => P (location directory) := by
  intro directory name child hdirectory hchild
  rw [(h.openAt (answer_eq_ok hchild)).2]
  exact hbelow _ _ hdirectory

theorem Follows.target_of_open (h : Follows tree location fs)
    (htarget : MacFiles.safeTarget fs root relativePath = .ok target) (hP : P target.parts) :
    ∀ directory, (Calls.ofFileSystem fs target).openTarget = .ok directory →
      P (location directory) := by
  intro directory hopen
  rwa [(h.leadsTo_iff (h.safeTarget htarget).2.1).1 (h.openDirectory (answer_eq_ok hopen))]

theorem SameAt.agreeAt (h : SameAt tree location P fs fs') {r : List Str}
    (hr : LeadsTo tree target r) (hP : P r) :
    (Calls.ofFileSystem fs target).AgreeAt (fun directory => P (location directory))
      (.ofFileSystem fs' target) where
  openTarget := congrArg answer (h.openDirectory _ _ hr hP)
  openAt directory name hdirectory := congrArg answer (h.openAt directory name hdirectory)
  scandir directory hdirectory := congrArg answer (h.scandir directory hdirectory)
  statAt directory name hdirectory := congrArg answer (h.statAt directory name hdirectory)
  entryOutput := rfl
  closes := rfl

end Same

/-- No component of the request is a link. -/
def NoLinkOnPath (tree : DirectoryTree Str) (root : Path) (relativePath : Str) : Prop :=
  ∀ before part after, pathParts relativePath = before ++ part :: after →
    tree.NoLink (root.parts ++ before) part

/-- The directories that `mac.files.largest` may read for a request. -/
def LargestReads (tree : DirectoryTree Str) (root : Path) (relativePath : Str) (r : List Str) : Prop :=
  root.parts <+: r ∧ NoLinkOnPath tree root relativePath

/-- **Listings stay inside.** The answer depends on no directory outside the root, and lists one inside. -/
theorem Follows.list (h : Follows tree location fs) (casefold : Str → Str)
    {request : MacFilesListInput} {root : ApprovedMacFilesRoot}
    (hroot : rootForIndex request.rootIndex roots = .ok root) :
    (∀ fs', SameAt tree location (root.path.parts <+: ·) fs fs' →
      listMacFiles fs' casefold request roots = listMacFiles fs casefold request roots) ∧
    ∀ output, listMacFiles fs casefold request roots = .ok output → ∃ target names shown,
      LeadsTo tree (root.path.join request.relativePath.val) target.parts ∧
      root.path.parts <+: target.parts ∧ fs.iterdir target = some names ∧
      output = (listOutput casefold request root roots names shown).modelDump := by
  refine ⟨fun fs' hsame => ?_, fun output houtput => ?_⟩
  · rw [listMacFiles_eq_listTarget, listMacFiles_eq_listTarget, hsame.listTarget]
    cases htarget : listTarget fs request roots with
    | error e => rfl
    | ok read =>
      obtain ⟨root', target⟩ := read
      obtain ⟨hroot', hsafe⟩ := listTarget_ok htarget
      obtain rfl := Except.ok.inj (hroot.symm.trans hroot')
      rw [Checks.ok_bind, Checks.ok_bind]
      simp only [hsame.directoryEntries (h.leadsTo_target hsafe) (h.safeTarget hsafe).2.2]
  · obtain ⟨root', target, names, shown, hroot', hsafe, -, hnames, -, -, rfl⟩ := listMacFiles_ok houtput
    obtain rfl := Except.ok.inj (hroot.symm.trans hroot')
    obtain ⟨hleads, -, hinside⟩ := h.safeTarget hsafe
    exact ⟨target, names, shown, hleads, hinside, hnames, rfl⟩

/-- **Walks stay inside.** The answer depends on no directory outside the root, nor on any directory
when a component of the request is a link; it is about the walk through a directory inside. -/
theorem Follows.largest (h : Follows tree location fs) (casefold : Str → Str)
    {request : MacFilesLargestInput} {root : ApprovedMacFilesRoot}
    (hroot : rootForIndex request.rootIndex roots = .ok root) (hreal : Real tree root.path.parts) :
    (∀ fs', SameAt tree location (LargestReads tree root.path request.relativePath.val) fs fs' →
      findLargestMacFiles fs' casefold request roots = findLargestMacFiles fs casefold request roots) ∧
    ∀ output, findLargestMacFiles fs casefold request roots = .ok output → ∃ target c,
      LeadsTo tree (root.path.join request.relativePath.val) target.parts ∧
      root.path.parts <+: target.parts ∧ NoLinkOnPath tree root.path request.relativePath.val ∧
      (largestFileEntries (.ofFileSystem fs target) casefold request).result = .ok c ∧
      (∀ o ∈ (largestFileEntries (.ofFileSystem fs target) casefold request).opened,
        root.path.parts <+: location o.directory) ∧
      output = (largestAnswer request root roots c).modelDump ∧
      ∀ entry ∈ c.entries, IsOutputPath entry.relativePath := by
  have hparts : ['.', '.'] ∉ pathParts request.relativePath.val :=
    fun hmem => request.relativePath.inside.2 (List.mem_of_mem_filter hmem)
  refine ⟨fun fs' hsame => ?_, fun output houtput => ?_⟩
  · rw [findLargestMacFiles_eq_run, findLargestMacFiles_eq_run, hsame.largestTarget]
    cases htarget : largestTarget fs request roots with
    | error e => rfl
    | ok read =>
      obtain ⟨root', target⟩ := read
      obtain ⟨hroot', hlinks, hsafe⟩ := largestTarget_ok htarget
      obtain rfl := Except.ok.inj (hroot.symm.trans hroot')
      have hreads : LargestReads tree root.path request.relativePath.val target.parts :=
        ⟨(h.safeTarget hsafe).2.2, h.rejectSymlinkComponents hreal hparts hlinks hsafe⟩
      have hwalk : largestFileEntries (.ofFileSystem fs' target) casefold request =
          largestFileEntries (.ofFileSystem fs target) casefold request :=
        largestFileEntries_congr (hsame.agreeAt (h.leadsTo_target hsafe) hreads)
          (h.keep fun r name hr => ⟨hr.1.trans (List.prefix_append _ _), hr.2⟩)
          (h.target_of_open hsafe hreads)
      rw [Checks.ok_bind, Checks.ok_bind]
      simp only [hwalk]
  · rw [findLargestMacFiles_eq_run] at houtput
    obtain ⟨⟨root', target⟩, htarget, houtput⟩ := Checks.bind_eq_ok.1 houtput
    obtain ⟨hroot', hlinks, hsafe⟩ := largestTarget_ok htarget
    obtain rfl := Except.ok.inj (hroot.symm.trans hroot')
    obtain ⟨hleads, -, hinside⟩ := h.safeTarget hsafe
    dsimp only at houtput
    cases hresult : (largestFileEntries (.ofFileSystem fs target) casefold request).result with
    | error e =>
      rw [hresult] at houtput
      cases houtput
    | ok c =>
      rw [hresult] at houtput
      obtain ⟨created, hcreated, houtput⟩ := Checks.bind_eq_ok.1 houtput
      obtain ⟨-, rfl⟩ := Checks.ite_error_eq_ok.1 hcreated
      obtain rfl := Except.ok.inj houtput
      refine ⟨target, c, hleads, hinside, h.rejectSymlinkComponents hreal hparts hlinks hsafe, hresult, ?_,
        rfl, ?_⟩
      · exact largestFileEntries_all (P := fun directory => root.path.parts <+: location directory)
          (h.keep fun r name hr => hr.trans (List.prefix_append _ _)) (h.target_of_open hsafe hinside)
      · intro entry hentry
        obtain ⟨directory, hopen⟩ : ∃ directory, fs.openDirectory target = some directory := by
          cases hopen : fs.openDirectory target with
          | none =>
            have hfails : (Calls.ofFileSystem fs target).openTarget = .error .handled := by
              rw [Calls.ofFileSystem, hopen]
              rfl
            rw [largestFileEntries, hfails] at hresult
            cases hresult
          | some directory => exact ⟨directory, rfl⟩
        rw [largestFileEntries_result hopen] at hresult
        obtain rfl := Except.ok.inj hresult
        have hselected : (collection casefold request
            (scan fs casefold largestEntry request directory)).entries =
            (shownFiles fs casefold request directory).map largestEntry := selected_eq directory
        rw [hselected] at hentry
        obtain ⟨file, -, rfl⟩ := List.mem_map.1 hentry
        exact isOutputPath_largestEntry file

/-- **Reads stay inside.** Whatever links there are, and whether a call succeeds or not: the answers of the
two handlers depend on no directory outside the approved root, and that of `mac.files.largest` on none at
all when a component of the request is a link. A successful answer is about a directory inside the root
that the path of the request leads to, with every directory of the walk below it, and the paths of the
entries are relative ones without empty parts and dots. -/
theorem mac_files_stay_inside (h : Follows tree location fs) {toolName : String}
    (hroots : approvedRoots toolName paths = .ok roots)
    (hresolved : ∀ p ∈ paths, LeadsTo tree p.path p.resolved.parts) (casefold : Str → Str) :
    (∀ request root, rootForIndex request.rootIndex roots = .ok root →
      (∀ fs', SameAt tree location (root.path.parts <+: ·) fs fs' →
        listMacFiles fs' casefold request roots = listMacFiles fs casefold request roots) ∧
      ∀ output, listMacFiles fs casefold request roots = .ok output → ∃ target names shown,
        LeadsTo tree (root.path.join request.relativePath.val) target.parts ∧
        root.path.parts <+: target.parts ∧ fs.iterdir target = some names ∧
        output = (listOutput casefold request root roots names shown).modelDump) ∧
    ∀ request root, rootForIndex request.rootIndex roots = .ok root →
      (∀ fs', SameAt tree location (LargestReads tree root.path request.relativePath.val) fs fs' →
        findLargestMacFiles fs' casefold request roots =
          findLargestMacFiles fs casefold request roots) ∧
      ∀ output, findLargestMacFiles fs casefold request roots = .ok output → ∃ target c,
        LeadsTo tree (root.path.join request.relativePath.val) target.parts ∧
        root.path.parts <+: target.parts ∧ NoLinkOnPath tree root.path request.relativePath.val ∧
        (largestFileEntries (.ofFileSystem fs target) casefold request).result = .ok c ∧
        (∀ o ∈ (largestFileEntries (.ofFileSystem fs target) casefold request).opened,
          root.path.parts <+: location o.directory) ∧
        output = (largestAnswer request root roots c).modelDump ∧
        ∀ entry ∈ c.entries, IsOutputPath entry.relativePath := by
  refine ⟨fun request root hroot => h.list casefold hroot, fun request root hroot => ?_⟩
  obtain ⟨p, hp, hpath⟩ := exists_resolved hroots (mem_of_rootForIndex hroot)
  refine h.largest casefold hroot ?_
  rw [hpath]
  exact (hresolved p hp).real .root

end Reads

/-! ### A directory behind a link -/

/-- The path of a link to the subdirectory of `Movies`. -/
def latestPath : RelativePath := ⟨"latest".toList, "latest".toList, by decide, rfl⟩

/-- The path of the subdirectory itself. -/
def archivePath : RelativePath := ⟨"Archive".toList, "Archive".toList, by decide, rfl⟩

def latestListing : MacFilesListInput :=
  { demoListing with relativePath := latestPath }

def archivePathLargest : MacFilesLargestInput :=
  { demoLargest with relativePath := archivePath }

/-- A listing through the link, and a walk through the subdirectory, stay below `Movies`. -/
theorem archive_reads_stay_inside :
    (∃ output, ∃ target : Path, listMacFiles (treeSystem archive) id latestListing [demoRoot] = .ok output ∧
      LeadsTo archive.tree (demoRoot.path.join "latest".toList) target.parts ∧
      demoRoot.path.parts <+: target.parts) ∧
    ∃ output, ∃ target : Path, findLargestMacFiles (treeSystem archive) id archivePathLargest [demoRoot] =
        .ok output ∧
      LeadsTo archive.tree (demoRoot.path.join "Archive".toList) target.parts ∧
      demoRoot.path.parts <+: target.parts ∧ NoLinkOnPath archive.tree demoRoot.path "Archive".toList := by
  have hroots : approvedRoots "mac.files.list" [demoDirectory] = .ok [demoRoot] := rfl
  have hlocate : archive.locate demoRoot.path = some demoRoot.path.parts := by decide +kernel
  have hresolved : ∀ p ∈ [demoDirectory], LeadsTo archive.tree p.path p.resolved.parts :=
    List.forall_mem_singleton.2 (TreeEntries.leadsTo_of_locate hlocate)
  obtain ⟨hlist, hlargest⟩ := mac_files_stay_inside (follows_treeSystem archive) hroots hresolved id
  have hlisted : (listMacFiles (treeSystem archive) id latestListing [demoRoot]).isOk = true := by
    decide +kernel
  have hwalked : (findLargestMacFiles (treeSystem archive) id archivePathLargest [demoRoot]).isOk =
      true := by
    decide +kernel
  constructor
  · cases houtput : listMacFiles (treeSystem archive) id latestListing [demoRoot] with
    | error e => simp [houtput, Except.isOk, Except.toBool] at hlisted
    | ok output =>
      obtain ⟨target, -, -, hleads, hinside, -⟩ := (hlist latestListing demoRoot rfl).2 output houtput
      exact ⟨output, target, rfl, hleads, hinside⟩
  · cases houtput : findLargestMacFiles (treeSystem archive) id archivePathLargest [demoRoot] with
    | error e => simp [houtput, Except.isOk, Except.toBool] at hwalked
    | ok output =>
      obtain ⟨target, -, hleads, hinside, hlinks, -⟩ :=
        (hlargest archivePathLargest demoRoot rfl).2 output houtput
      exact ⟨output, target, rfl, hleads, hinside, hlinks⟩

/-- The path that the answer repeats from the request is empty where the root itself is walked through. -/
theorem root_path_is_empty : ∃ o : MacFilesLargestOutput,
    findLargestMacFiles (treeSystem archive) id demoLargest [demoRoot] = .ok o.modelDump ∧
      ¬ IsOutputPath o.relativePath := by
  have htarget : safeTarget (treeSystem archive) demoRoot.path [] = .ok demoRoot.path := by
    have hresolve : (treeSystem archive).resolve (demoRoot.path.join []) = some demoRoot.path := by
      decide +kernel
    rw [safeTarget, hresolve]
    rfl
  have hdir : (treeSystem archive).isDir demoRoot.path = true := by decide +kernel
  have hopen : (treeSystem archive).openDirectory demoRoot.path = some demoRoot.path.parts := by
    decide +kernel
  refine ⟨_, findLargestMacFiles_eq (by decide) rfl rfl htarget hdir hopen, fun h => ?_⟩
  exact absurd h.ne_nil (by decide)

end GoffyHub.MacFiles
