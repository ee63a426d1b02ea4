import GoffyOs.Hub.MacFilesLargest

/-!
# The walk of `mac.files.largest` as a traversal

What the walk comes to in a file tree that does not change is a list, by recursion on the depth that is
left: the visible entries of a directory, the last ones by name first, and then its directories, the first
one by name first (`traversal`). The walk takes this list from the front until it has looked at 5000
entries and comes to another one (`reached`), and keeps the regular files (`scan_tally`).
-/

namespace GoffyHub.MacFiles

open Python

/-- What the walk comes to. -/
inductive Visit
  /-- a directory that cannot be read -/
  | unreadable
  /-- a visible entry: the file that it is, and whether it counts as skipped -/
  | entry (file : Option FoundFile) (skipped : Bool)

def isVisible (includeHidden : Bool) (name : Str) : Bool := includeHidden || name.head? ≠ some '.'

section

variable {Fd : Type} (fs : FileSystem Fd) (casefold : Str → Str) (includeHidden : Bool)

/-- The visible names in a directory, in the order in which the walk looks at them. -/
def walkNames (names : List Str) : List Str :=
  (names.insertionSort fun a b => ¬ casefold a < casefold b).filter (isVisible includeHidden)

/-- The directory that the walk opens at an entry, with so many levels left. An entry that is a symbolic
link is none. -/
def enters (levels : ℕ) (directory : Fd) (name : Str) : Option Fd :=
  match fs.statAt directory name with
  | some stat => if stat.mode = .directory ∧ 0 < levels then fs.openAt directory name else none
  | none => none

def visit (levels : ℕ) (directory : Fd) (path name : Str) : Visit :=
  match fs.statAt directory name with
  | none => .entry none true
  | some stat =>
    match stat.mode with
    | .symlink => .entry none true
    | .file => .entry (some ⟨joinRelativePath path name, name, stat.size, stat.mtime⟩) false
    | .directory => .entry none (enters fs levels directory name).isNone
    | .other => .entry none false

/-- What is in a directory. -/
def directoryVisits (levels : ℕ) (directory : Fd) (path : Str) : List Visit :=
  match fs.scandir directory with
  | none => [.unreadable]
  | some names => (walkNames casefold includeHidden names).map (visit fs levels directory path)

/-- The directories in a directory that are opened, with their paths, in the order in which the walk goes
on with them. -/
def subdirectories (levels : ℕ) (directory : Fd) (path : Str) : List (Fd × Str) :=
  match fs.scandir directory with
  | none => []
  | some names =>
    ((walkNames casefold includeHidden names).filterMap fun name =>
      (enters fs levels directory name).map fun child => (child, joinRelativePath path name)).reverse

/-- The traversal of a directory, with so many levels below it. -/
def traversal : ℕ → Fd → Str → List Visit
  | 0, directory, path => directoryVisits fs casefold includeHidden 0 directory path
  | levels + 1, directory, path =>
    directoryVisits fs casefold includeHidden (levels + 1) directory path ++
      (subdirectories fs casefold includeHidden (levels + 1) directory path).flatMap fun child =>
        traversal levels child.1 child.2

end

/-! ### What is reached -/

/-- The visits before the walk would look at more than so many entries. -/
def reached : ℕ → List Visit → List Visit
  | _, [] => []
  | n, .unreadable :: visits => .unreadable :: reached n visits
  | 0, .entry _ _ :: _ => []
  | n + 1, .entry file skipped :: visits => .entry file skipped :: reached n visits

/-- The entries among the visits, by the files that they are. -/
def entriesOf (visits : List Visit) : List (Option FoundFile) :=
  visits.filterMap fun
    | .unreadable => none
    | .entry file _ => some file

def filesOf (visits : List Visit) : List FoundFile := (entriesOf visits).filterMap id

def Visit.isSkipped : Visit → Bool
  | .unreadable => true
  | .entry _ skipped => skipped

/-- The first entries are reached. -/
theorem entriesOf_reached (n : ℕ) (visits : List Visit) :
    entriesOf (reached n visits) = (entriesOf visits).take n := by
  induction visits generalizing n with
  | nil =>
    rw [reached]
    exact List.take_nil.symm
  | cons v visits ih =>
    cases v with
    | unreadable =>
      rw [reached]
      exact ih n
    | entry file skipped =>
      cases n with
      | zero => rfl
      | succ n =>
        rw [reached]
        exact congrArg (file :: ·) (ih n)

/-! ### Tallies -/

section Tally

variable {α : Type}

/-- The variables of the walk but its stack. -/
structure Tally (α : Type) where
  candidates : List α
  scannedEntries : ℕ
  skippedEntries : ℕ
  scanTruncated : Bool

def Scan.tally {Fd : Type} (s : Scan Fd α) : Tally α :=
  ⟨s.candidates, s.scannedEntries, s.skippedEntries, s.scanTruncated⟩

/-- What a visit changes. -/
def Tally.add (entry : FoundFile → α) (t : Tally α) (v : Visit) : Tally α :=
  if t.scanTruncated then t
  else match v with
    | .unreadable => { t with skippedEntries := t.skippedEntries + 1 }
    | .entry file skipped =>
      if maxLargestScanEntries ≤ t.scannedEntries then { t with scanTruncated := true }
      else
        { t with
          candidates := t.candidates ++ file.toList.map entry
          scannedEntries := t.scannedEntries + 1
          skippedEntries := t.skippedEntries + if skipped then 1 else 0 }

variable {entry : FoundFile → α} {t : Tally α}

theorem add_unreadable (ht : t.scanTruncated = false) :
    t.add entry .unreadable = { t with skippedEntries := t.skippedEntries + 1 } :=
  if_neg (by rw [ht]; exact Bool.false_ne_true)

theorem add_entry_of_full (ht : t.scanTruncated = false)
    (hfull : maxLargestScanEntries ≤ t.scannedEntries) (file : Option FoundFile) (skipped : Bool) :
    t.add entry (.entry file skipped) = { t with scanTruncated := true } := by
  rw [Tally.add, if_neg (by rw [ht]; exact Bool.false_ne_true)]
  exact if_pos hfull

theorem add_entry (ht : t.scanTruncated = false) (hroom : ¬ maxLargestScanEntries ≤ t.scannedEntries)
    (file : Option FoundFile) (skipped : Bool) : t.add entry (.entry file skipped) =
      { t with
        candidates := t.candidates ++ file.toList.map entry
        scannedEntries := t.scannedEntries + 1
        skippedEntries := t.skippedEntries + if skipped then 1 else 0 } := by
  rw [Tally.add, if_neg (by rw [ht]; exact Bool.false_ne_true)]
  exact if_neg hroom

theorem add_scanTruncated (ht : t.scanTruncated = false)
    (hroom : ¬ maxLargestScanEntries ≤ t.scannedEntries) (v : Visit) :
    (t.add entry v).scanTruncated = false := by
  cases v with
  | unreadable =>
    rw [add_unreadable ht]
    exact ht
  | entry file skipped =>
    rw [add_entry ht hroom]
    exact ht

theorem foldl_add_of_truncated (ht : t.scanTruncated = true) (visits : List Visit) :
    visits.foldl (Tally.add entry) t = t := by
  induction visits with
  | nil => rfl
  | cons v visits ih =>
    have hadd : t.add entry v = t := if_pos ht
    rw [List.foldl_cons, hadd]
    exact ih

/-- The walk over a list of visits, in closed form. -/
theorem foldl_add (ht : t.scanTruncated = false) (hscanned : t.scannedEntries ≤ maxLargestScanEntries)
    (visits : List Visit) : visits.foldl (Tally.add entry) t =
      let seen := reached (maxLargestScanEntries - t.scannedEntries) visits
      { candidates := t.candidates ++ (filesOf seen).map entry
        scannedEntries := t.scannedEntries + (entriesOf seen).length
        skippedEntries := t.skippedEntries + seen.countP Visit.isSkipped
        scanTruncated := maxLargestScanEntries < t.scannedEntries + (entriesOf visits).length } := by
  induction visits generalizing t with
  | nil =>
    obtain ⟨candidates, scanned, skipped, truncated⟩ := t
    obtain rfl : truncated = false := ht
    have hle : decide (maxLargestScanEntries < scanned) = false :=
      decide_eq_false (Nat.not_lt.2 hscanned)
    simp only [List.foldl_nil, reached, filesOf, entriesOf, List.filterMap_nil, List.map_nil,
      List.append_nil, List.length_nil, List.countP_nil, Nat.add_zero, Tally.mk.injEq, true_and]
    exact hle.symm
  | cons v visits ih =>
    rw [List.foldl_cons]
    cases v with
    | unreadable =>
      have hrest := ih (t := { t with skippedEntries := t.skippedEntries + 1 }) ht hscanned
      rw [add_unreadable ht, hrest, reached]
      dsimp only
      rw [List.countP_cons_of_pos (show Visit.isSkipped .unreadable = true from rfl)]
      simp only [Tally.mk.injEq]
      exact ⟨rfl, rfl, by omega, rfl⟩
    | entry file skipped =>
      by_cases hlimit : maxLargestScanEntries ≤ t.scannedEntries
      · have hzero : maxLargestScanEntries - t.scannedEntries = 0 := by omega
        have hmore : maxLargestScanEntries <
            t.scannedEntries + (entriesOf (.entry file skipped :: visits)).length := by
          show _ < t.scannedEntries + ((entriesOf visits).length + 1)
          omega
        rw [add_entry_of_full ht hlimit, foldl_add_of_truncated rfl, hzero, decide_eq_true hmore, reached]
        simp only [filesOf, entriesOf, List.filterMap_nil, List.map_nil, List.append_nil,
          List.length_nil, List.countP_nil, Nat.add_zero]
      · have hsucc : maxLargestScanEntries - t.scannedEntries =
            (maxLargestScanEntries - (t.scannedEntries + 1)) + 1 := by omega
        have hrest := ih
          (t := { t with
            candidates := t.candidates ++ file.toList.map entry
            scannedEntries := t.scannedEntries + 1
            skippedEntries := t.skippedEntries + if skipped then 1 else 0 }) ht (by dsimp only; omega)
        rw [add_entry ht hlimit, hrest, hsucc, reached]
        dsimp only
        generalize reached (maxLargestScanEntries - (t.scannedEntries + 1)) visits = seen
        have hfiles : filesOf (.entry file skipped :: seen) = file.toList ++ filesOf seen := by
          unfold filesOf entriesOf
          cases file <;> rfl
        have hentries (visits : List Visit) :
            (entriesOf (.entry file skipped :: visits)).length = (entriesOf visits).length + 1 := rfl
        rw [hfiles, hentries, hentries, List.map_append, List.append_assoc, List.countP_cons]
        simp only [Tally.mk.injEq, true_and, decide_eq_decide]
        exact ⟨by omega, by rw [Visit.isSkipped]; omega, by omega⟩

end Tally

/-! ### The walk is the traversal -/

section Walk

variable {Fd α : Type} {fs : FileSystem Fd} {casefold : Str → Str} {entry : FoundFile → α}
  {request : MacFilesLargestInput} {directory : Fd} {relativePath : Str} {depth : ℕ}

/-- A directory on the stack, with the levels below it. -/
def stackTraversal (fs : FileSystem Fd) (casefold : Str → Str) (request : MacFilesLargestInput)
    (top : Fd × Str × ℕ) : List Visit :=
  traversal fs casefold request.includeHidden (request.maxDepth - top.2.2) top.1 top.2.1

/-- The directory that a name puts on the stack. -/
def pushed (fs : FileSystem Fd) (request : MacFilesLargestInput) (directory : Fd) (relativePath : Str)
    (depth : ℕ) (name : Str) : Option (Fd × Str × ℕ) :=
  (enters fs (request.maxDepth - depth) directory name).map fun child =>
    (child, joinRelativePath relativePath name, depth + 1)

/-- A name that is counted. -/
theorem scanChild_spec {s : Scan Fd α} {name : Str} (hs : s.scanTruncated = false)
    (hlimit : ¬ maxLargestScanEntries ≤ s.scannedEntries) :
    (scanChild fs entry request directory relativePath depth name
        { s with scannedEntries := s.scannedEntries + 1 }).tally =
      s.tally.add entry (visit fs (request.maxDepth - depth) directory relativePath name) ∧
    (scanChild fs entry request directory relativePath depth name
        { s with scannedEntries := s.scannedEntries + 1 }).stack =
      (pushed fs request directory relativePath depth name).toList ++ s.stack := by
  have hadd (file : Option FoundFile) (skipped : Bool) := @add_entry _ entry s.tally hs hlimit file
    skipped
  have hskip : s.tally.add entry (.entry none true) =
      ⟨s.candidates, s.scannedEntries + 1, s.skippedEntries + 1, s.scanTruncated⟩ := by
    rw [hadd, Option.toList_none, List.map_nil, List.append_nil]
    rfl
  have hkeep : s.tally.add entry (.entry none false) =
      ⟨s.candidates, s.scannedEntries + 1, s.skippedEntries, s.scanTruncated⟩ := by
    rw [hadd, Option.toList_none, List.map_nil, List.append_nil]
    rfl
  unfold scanChild visit pushed enters
  dsimp only
  cases fs.statAt directory name with
  | none => exact ⟨hskip.symm, rfl⟩
  | some stat =>
    obtain ⟨mode, size, mtime⟩ := stat
    cases mode with
    | symlink => exact ⟨hskip.symm, rfl⟩
    | file =>
      refine ⟨?_, rfl⟩
      rw [hadd]
      rfl
    | directory =>
      dsimp only
      by_cases hdepth : depth < request.maxDepth
      · rw [if_pos hdepth, if_pos ⟨rfl, Nat.sub_pos_of_lt hdepth⟩]
        cases fs.openAt directory name with
        | none => exact ⟨hskip.symm, rfl⟩
        | some child => exact ⟨hkeep.symm, rfl⟩
      · have hnot : ¬ (FileKind.directory = .directory ∧ 0 < request.maxDepth - depth) := by omega
        rw [if_neg hdepth, if_neg hnot]
        exact ⟨hskip.symm, rfl⟩
    | other => exact ⟨hkeep.symm, rfl⟩

/-- The loop over the names of a directory. -/
theorem scanChildren_spec (names : List Str) {s : Scan Fd α} (hs : s.scanTruncated = false) :
    let visible := names.filter (isVisible request.includeHidden)
    let after := scanChildren fs entry request directory relativePath depth names s
    after.tally = (visible.map
      (visit fs (request.maxDepth - depth) directory relativePath)).foldl (Tally.add entry) s.tally ∧
    (after.scanTruncated = false → after.stack =
      (visible.filterMap (pushed fs request directory relativePath depth)).reverse ++ s.stack) := by
  induction names generalizing s with
  | nil => exact ⟨rfl, fun _ => rfl⟩
  | cons name names ih =>
    dsimp only
    unfold scanChildren
    by_cases hhidden : (!request.includeHidden && name.head? = some '.') = true
    · have hfilter : ¬ isVisible request.includeHidden name = true := by
        simpa [isVisible] using hhidden
      rw [if_pos hhidden, List.filter_cons_of_neg hfilter]
      exact ih hs
    have hfilter : isVisible request.includeHidden name = true := by
      cases hinclude : request.includeHidden with
      | true => rfl
      | false =>
        rw [hinclude] at hhidden
        simpa [isVisible] using hhidden
    rw [if_neg hhidden, List.filter_cons_of_pos hfilter, List.map_cons, List.foldl_cons]
    by_cases hlimit : maxLargestScanEntries ≤ s.scannedEntries
    · have hvisit : ∃ file skipped, visit fs (request.maxDepth - depth) directory relativePath name =
          .entry file skipped := by
        unfold visit
        cases fs.statAt directory name with
        | none => exact ⟨_, _, rfl⟩
        | some stat =>
          obtain ⟨mode, size, mtime⟩ := stat
          cases mode <;> exact ⟨_, _, rfl⟩
      obtain ⟨file, skipped, hvisit⟩ := hvisit
      rw [if_pos hlimit, hvisit, add_entry_of_full hs hlimit, foldl_add_of_truncated rfl]
      exact ⟨rfl, fun hafter => Bool.noConfusion hafter⟩
    · obtain ⟨htally, hstack⟩ := @scanChild_spec _ _ fs entry request directory relativePath depth _
        name hs hlimit
      rw [if_neg hlimit, ← htally]
      have huntouched : (scanChild fs entry request directory relativePath depth name
          { s with scannedEntries := s.scannedEntries + 1 }).scanTruncated = false := by
        exact (congrArg Tally.scanTruncated htally).trans (add_scanTruncated hs hlimit _)
      obtain ⟨hrest, hreststack⟩ := ih huntouched
      refine ⟨hrest, fun hafter => ?_⟩
      rw [hreststack hafter, hstack, List.filterMap_cons]
      cases pushed fs request directory relativePath depth name with
      | none => rfl
      | some top =>
        rw [List.reverse_cons, List.append_assoc]
        rfl

/-- The directory of a round. -/
theorem scanDirectory_spec {s : Scan Fd α} (hs : s.scanTruncated = false) :
    let levels := request.maxDepth - depth
    let after := scanDirectory fs casefold entry request directory relativePath depth s
    after.tally = (directoryVisits fs casefold request.includeHidden levels directory
      relativePath).foldl (Tally.add entry) s.tally ∧
    (after.scanTruncated = false → after.stack =
      (subdirectories fs casefold request.includeHidden levels directory relativePath).map
        (fun child => (child.1, child.2, depth + 1)) ++ s.stack) := by
  dsimp only
  unfold scanDirectory directoryVisits subdirectories
  cases fs.scandir directory with
  | none =>
    refine ⟨?_, fun _ => rfl⟩
    show _ = s.tally.add entry .unreadable
    rw [add_unreadable hs]
    rfl
  | some names =>
    obtain ⟨htally, hstack⟩ := @scanChildren_spec _ _ fs entry request directory relativePath depth
      (names.insertionSort fun a b => ¬ casefold a < casefold b) _ hs
    refine ⟨htally, fun hafter => ?_⟩
    have hmap : pushed fs request directory relativePath depth = fun name =>
        ((enters fs (request.maxDepth - depth) directory name).map fun child =>
          (child, joinRelativePath relativePath name)).map fun child =>
            (child.1, child.2, depth + 1) := by
      funext name
      rw [pushed, Option.map_map]
      rfl
    rw [hstack hafter, List.map_reverse, List.map_filterMap, hmap]
    rfl

/-- The traversal of a directory goes on with its directories. -/
theorem stackTraversal_eq (top : Fd × Str × ℕ) : stackTraversal fs casefold request top =
    directoryVisits fs casefold request.includeHidden (request.maxDepth - top.2.2) top.1 top.2.1 ++
      ((subdirectories fs casefold request.includeHidden (request.maxDepth - top.2.2) top.1
        top.2.1).map fun child => (child.1, child.2, top.2.2 + 1)).flatMap
          (stackTraversal fs casefold request) := by
  obtain ⟨directory, path, depth⟩ := top
  have hlevels : request.maxDepth - (depth + 1) = request.maxDepth - depth - 1 := by omega
  unfold stackTraversal
  dsimp only
  rw [List.flatMap_map]
  dsimp only
  rw [hlevels]
  cases request.maxDepth - depth with
  | zero =>
    have hnone : subdirectories fs casefold request.includeHidden 0 directory path = [] := by
      unfold subdirectories enters
      cases fs.scandir directory with
      | none => rfl
      | some names =>
        dsimp only
        rw [List.reverse_eq_nil_iff, List.filterMap_eq_nil_iff]
        intro name _
        cases fs.statAt directory name with
        | none => rfl
        | some stat =>
          dsimp only
          rw [if_neg fun h => absurd h.2 (Nat.lt_irrefl 0)]
          rfl
    rw [traversal, hnone]
    exact (List.append_nil _).symm
  | succ levels => rfl

theorem scanDirectories_spec {fuel : ℕ} {s : Scan Fd α} (hfuel : s.rounds ≤ fuel) :
    (scanDirectories fs casefold entry request fuel s).tally =
      (s.stack.flatMap (stackTraversal fs casefold request)).foldl (Tally.add entry) s.tally := by
  induction fuel generalizing s with
  | zero =>
    have hnil : s.stack = [] := by
      rw [Scan.rounds] at hfuel
      exact List.length_eq_zero_iff.1 (by omega)
    rw [hnil]
    rfl
  | succ fuel ih =>
    unfold scanDirectories
    split
    case h_1 hstack =>
      rw [hstack]
      rfl
    case h_2 directory path depth stack hstack =>
      split
      case isTrue htruncated =>
        have htally : s.tally.scanTruncated = true := htruncated
        exact (foldl_add_of_truncated htally _).symm
      case isFalse hnot =>
        have hs : ({ s with stack := stack } : Scan Fd α).scanTruncated = false :=
          Bool.eq_false_iff.2 hnot
        obtain ⟨htally, hnext⟩ := @scanDirectory_spec _ _ fs casefold entry request directory path
          depth _ hs
        have hrounds : (scanDirectory fs casefold entry request directory path depth
            { s with stack := stack }).rounds ≤ fuel := by
          refine (scanDirectory_rounds _).trans ?_
          rw [Scan.rounds, hstack, List.length_cons] at hfuel
          show stack.length + (maxLargestScanEntries - s.scannedEntries) ≤ fuel
          omega
        have hstart : s.tally = ({ s with stack := stack } : Scan Fd α).tally := rfl
        rw [ih hrounds, hstack, List.flatMap_cons, stackTraversal_eq, List.append_assoc,
          List.foldl_append, hstart, ← htally]
        cases hafter : (scanDirectory fs casefold entry request directory path depth
            { s with stack := stack }).scanTruncated with
        | true =>
          have htruncated : (scanDirectory fs casefold entry request directory path depth
            { s with stack := stack }).tally.scanTruncated = true := hafter
          rw [foldl_add_of_truncated htruncated, foldl_add_of_truncated htruncated]
        | false => rw [hnext hafter, List.flatMap_append]

/-- **The walk.** What it counts and keeps, by the traversal of the target. -/
theorem scan_tally (target : Fd) :
    let visits := traversal fs casefold request.includeHidden request.maxDepth target []
    let seen := reached maxLargestScanEntries visits
    (scan fs casefold entry request target).tally =
      { candidates := (filesOf seen).map entry
        scannedEntries := (entriesOf seen).length
        skippedEntries := seen.countP Visit.isSkipped
        scanTruncated := maxLargestScanEntries < (entriesOf visits).length } := by
  dsimp only
  unfold scan
  rw [scanDirectories_spec (by show 1 + (maxLargestScanEntries - 0) ≤ maxLargestScanEntries + 1; omega)]
  dsimp only
  rw [List.flatMap_cons, List.flatMap_nil, List.append_nil]
  refine (foldl_add rfl (Nat.zero_le _) _).trans ?_
  simp only [Scan.tally, stackTraversal, Nat.sub_zero, List.nil_append, Nat.zero_add]

end Walk

end GoffyHub.MacFiles
