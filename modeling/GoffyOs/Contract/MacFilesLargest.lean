import GoffyOs.Contract.MacFiles
import GoffyOs.Hub.MacFilesLargest

/-!
# `mac.files.largest` across the two sides

The Hub's walk keeps its counters in range and its files in order for every file tree. What the phone may
refuse are single files: by the characters of their names and paths, by the length of these in code
units, and by their times.
-/

namespace GoffyHub.MacFiles

open GoffyPhone Kotlin Kotlin.JsonObject

/-! ### Paths -/

/-- A part of a path that the phone does not find blank. -/
def IsVisiblePart (part : Python.Str) : Prop := ∃ c ∈ part, basic isWhitespace c = false

instance (part : Python.Str) : Decidable (IsVisiblePart part) :=
  List.decidableBEx _ part

theorem isBlank_eq_false_iff {s : Python.Str} : isBlank (ofChars s) = false ↔ IsVisiblePart s := by
  simp only [isBlank_ofChars, List.all_eq_false, Bool.not_eq_true, IsVisiblePart]

/-- What the phone requires of a path that is safe for the Hub. -/
theorem isSafeMacFilesOutputPath_iff {path : Python.Str}
    (h : isSafeRelativeOutputPath path = true) :
    isSafeMacFilesOutputPath (ofChars path) maxMacFilesLargestPathLength = true ↔
      IsShowable maxMacFilesLargestPathLength path ∧ ∀ part ∈ path.splitOn '/', IsVisiblePart part := by
  simp only [isSafeRelativeOutputPath, Bool.and_eq_true, decide_eq_true_eq, List.all_eq_true,
    and_assoc] at h
  obtain ⟨-, -, hhead, hparts⟩ := h
  have hrefused : (∀ part ∈ path.splitOn '/', (isBlank (ofChars part) || ofChars part = lit "." ||
      ofChars part = lit "..") = false) ↔ ∀ part ∈ path.splitOn '/', IsVisiblePart part := by
    refine forall₂_congr fun part hpart => ?_
    obtain ⟨-, hdot, hdots, -⟩ := hparts part hpart
    have hdot' : ofChars part ≠ lit "." := fun heq => hdot (ofChars_injective heq)
    have hdots' : ofChars part ≠ lit ".." := fun heq => hdots (ofChars_injective heq)
    rw [← isBlank_eq_false_iff, decide_eq_false hdot', decide_eq_false hdots', Bool.or_false,
      Bool.or_false]
  have hvisible : (∀ part ∈ path.splitOn '/', IsVisiblePart part) → isBlank (ofChars path) = false := by
    intro hall
    obtain ⟨first, rest, hsplit⟩ := List.exists_cons_of_ne_nil (List.splitOn_ne_nil '/' path)
    have hfirst : first ∈ path.splitOn '/' := by rw [hsplit]; exact List.mem_cons_self
    obtain ⟨c, hc, hspace⟩ := hall first hfirst
    exact isBlank_eq_false_iff.2 ⟨c, (Python.mem_of_mem_splitOn hfirst hc).1, hspace⟩
  rw [isSafeMacFilesOutputPath, Bool.and_eq_true, Bool.and_eq_true, isSafePath_ofChars, hrefused]
  constructor
  · rintro ⟨⟨-, hlength⟩, -, hhidden, hall⟩
    exact ⟨⟨of_decide_eq_true hlength, hhidden⟩, hall⟩
  · rintro ⟨⟨hlength, hhidden⟩, hall⟩
    exact ⟨⟨by rw [hvisible hall]; rfl, decide_eq_true hlength⟩, hhead, hhidden, hall⟩

/-! ### Entries -/

def MacFilesLargestEntryOutput.onPhone (o : MacFilesLargestEntryOutput) : MacFilesLargestEntry where
  relativePath := ofChars o.relativePath
  pathTruncated := o.pathTruncated
  name := ofChars o.name
  nameTruncated := o.nameTruncated
  sizeBytes := o.sizeBytes
  modifiedEpochSeconds := o.modifiedEpochSeconds

def MacFilesLargestOutput.onPhone (o : MacFilesLargestOutput) : MacFilesLargest where
  status := ofChars o.status
  rootIndex := o.rootIndex
  rootName := ofChars o.rootName
  relativePath := ofChars o.relativePath
  maxDepth := o.maxDepth
  scannedEntries := o.scannedEntries
  skippedEntries := o.skippedEntries
  truncated := o.truncated
  approvedRoots := o.approvedRoots.map (·.onPhone)
  entries := o.entries.map (·.onPhone)

/-- The phone shows the file. -/
structure FoundFile.Showable (file : FoundFile) : Prop where
  path : IsShowable maxMacFilesLargestPathLength (boundedRelativePath file.name file.relativePath).1
  parts : ∀ part ∈ (boundedRelativePath file.name file.relativePath).1.splitOn '/', IsVisiblePart part
  name : IsShowable maxMacFilesEntryNameLength (boundedText file.name maxEntryNameChars)
  size : (file.size : ℤ) ≤ 9223372036854775807
  mtime : 0 ≤ file.mtime ∧ file.mtime ≤ 9223372036854775807

theorem largestEntry_matchesToolContract_iff (file : FoundFile)
    (hmtime : file.mtime ≤ 9223372036854775807) :
    (largestEntry file).onPhone.matchesToolContract = true ↔ file.Showable := by
  have hname : IsBounded maxEntryNameChars (boundedText file.name maxEntryNameChars) :=
    ⟨file.name, rfl⟩
  have hpath := isSafeMacFilesOutputPath_iff
    (isSafeRelativeOutputPath_bounded file.name file.relativePath)
  simp only [MacFilesLargestEntry.matchesToolContract, Bool.and_eq_true, and_assoc]
  constructor
  · rintro ⟨hpath', hname', hsize, htime⟩
    obtain ⟨hshowable, hparts⟩ := hpath.1 hpath'
    exact ⟨hshowable, hparts, hname.isSafeDisplayField_iff.1 hname', (inRange_iff.1 hsize).2,
      of_decide_eq_true htime, hmtime⟩
  · rintro ⟨hshowable, hparts, hname', hsize, htime, -⟩
    exact ⟨hpath.2 ⟨hshowable, hparts⟩, hname.isSafeDisplayField_iff.2 hname',
      inRange_iff.2 ⟨Int.natCast_nonneg _, hsize⟩, decide_eq_true htime⟩

/-- The phone reads the entry of a file. -/
def FoundFile.Readable (file : FoundFile) : Prop :=
  (ofChars (boundedRelativePath file.name file.relativePath).1).length ≤
      maxMacFilesLargestPathLength ∧
    (ofChars (boundedText file.name maxEntryNameChars)).length ≤ maxMacFilesEntryNameLength ∧
    (file.size : ℤ) ≤ 9223372036854775807 ∧ 0 ≤ file.mtime ∧ file.mtime ≤ 9223372036854775807

theorem FoundFile.Showable.readable {file : FoundFile} (h : file.Showable) : file.Readable :=
  ⟨h.path.1, h.name.1, h.size, h.mtime⟩

theorem decodeMacFilesLargestEntry_iff (file : FoundFile) (e : MacFilesLargestEntry) :
    decodeMacFilesLargestEntry (ofPythonMembers (largestEntry file).modelDump) = .ok e ↔
      e = (largestEntry file).onPhone ∧ file.Readable := by
  have hpathPos : 1 ≤ (ofChars (largestEntry file).relativePath).length := by
    have hsafe := isSafeRelativeOutputPath_bounded file.name file.relativePath
    simp only [isSafeRelativeOutputPath, Bool.and_eq_true, decide_eq_true_eq, and_assoc] at hsafe
    rw [Nat.one_le_iff_ne_zero, ne_eq, List.length_eq_zero_iff, ofChars_eq_nil]
    exact hsafe.1
  have hnamePos : 1 ≤ (ofChars (largestEntry file).name).length :=
    IsBounded.length_pos ⟨file.name, rfl⟩
  have hkeys : requireKeys (ofPythonMembers (largestEntry file).modelDump)
      ["relativePath", "pathTruncated", "name", "nameTruncated", "sizeBytes", "modifiedEpochSeconds"]
      [] = .ok () :=
    requireKeys_ofPython
      ["relativePath", "pathTruncated", "name", "nameTruncated", "sizeBytes", "modifiedEpochSeconds"]
      rfl (by decide) (by decide)
  have hpath : ∀ v, requireBoundedString (ofPythonMembers (largestEntry file).modelDump)
      (lit "relativePath") 1 maxMacFilesLargestPathLength = .ok v ↔ _ :=
    requireBoundedString_iff (s := (largestEntry file).relativePath) rfl
  have hpathTruncated : requireBoolean (ofPythonMembers (largestEntry file).modelDump)
      (lit "pathTruncated") = .ok (largestEntry file).pathTruncated := requireBoolean_ofPython rfl
  have hname : ∀ v, requireBoundedString (ofPythonMembers (largestEntry file).modelDump)
      (lit "name") 1 maxMacFilesEntryNameLength = .ok v ↔ _ :=
    requireBoundedString_iff (s := (largestEntry file).name) rfl
  have hnameTruncated : requireBoolean (ofPythonMembers (largestEntry file).modelDump)
      (lit "nameTruncated") = .ok (largestEntry file).nameTruncated := requireBoolean_ofPython rfl
  have hsize : ∀ v, requireBoundedLong (ofPythonMembers (largestEntry file).modelDump)
      (lit "sizeBytes") 0 maxMacFilesLargestFileSizeBytes = .ok v ↔ _ :=
    requireBoundedLong_iff (n := (file.size : ℤ)) rfl (by decide)
  have hmodified : ∀ v, requireNullableLong (ofPythonMembers (largestEntry file).modelDump)
      (lit "modifiedEpochSeconds") = .ok v ↔ _ :=
    requireNullableLong_iff (o := some file.mtime) rfl
  unfold decodeMacFilesLargestEntry
  simp only [hkeys, hpathTruncated, hnameTruncated, Checks.ok_bind, Checks.bind_eq_ok, hpath, hname,
    hsize, hmodified, requireNotNegative_eq_ok, hpathPos, hnamePos, Int.natCast_nonneg, true_and,
    and_assoc, exists_eq_left, exists_const]
  constructor
  · rintro ⟨hpath, hname, hsize, hbits, htime, heq⟩
    exact ⟨(Except.ok.inj heq).symm, hpath, hname, hsize, htime _ rfl, (hbits _ rfl).2⟩
  · rintro ⟨rfl, hpath, hname, hsize, hlow, hhigh⟩
    refine ⟨hpath, hname, hsize, fun n hn => ?_, fun n hn => ?_, rfl⟩
    · obtain rfl := Option.some.inj hn
      omega
    · obtain rfl := Option.some.inj hn
      exact hlow

/-! ### Answers -/

section Answers

variable {Fd : Type} {fs : FileSystem Fd} {casefold : Python.Str → Python.Str}
  {request : MacFilesLargestInput} {root : ApprovedMacFilesRoot}
  {roots : List ApprovedMacFilesRoot} {directory : Fd}

/-- What the Hub sends about any file tree is in the phone's ranges. -/
structure LargestSent (request : MacFilesLargestInput) (o : MacFilesLargestOutput) : Prop where
  status : o.status = "available".toList
  rootIndex : o.rootIndex < maxApprovedRoots
  rootName : IsBounded maxRootNameChars o.rootName
  relativePath : o.relativePath = request.relativePath.val
  maxDepth : o.maxDepth ≤ maxLargestDepth
  scannedEntries : o.scannedEntries ≤ maxLargestScanEntries
  skippedEntries : o.skippedEntries ≤ maxLargestScanEntries
  approvedRoots_length : o.approvedRoots.length ≤ maxApprovedRoots
  approvedRoots : ∀ r ∈ o.approvedRoots, r.rootIndex < maxApprovedRoots ∧
    IsBounded maxRootNameChars r.name
  approved : ∃ r ∈ o.approvedRoots, r.rootIndex = o.rootIndex ∧ r.name = o.rootName
  entries_length : o.entries.length ≤ maxLargestEntries
  sorted : o.entries.Pairwise fun a b => b.sizeBytes ≤ a.sizeBytes

theorem largestSent (happroved : Approved roots) (hroot : root ∈ roots) :
    LargestSent request (largestOutput fs casefold request root roots directory) where
  status := rfl
  rootIndex := happroved.index_lt root hroot
  rootName := happroved.name root hroot
  relativePath := rfl
  maxDepth := request.maxDepth_le
  scannedEntries := (scan_counted directory).scanned_le
  skippedEntries := by
    have hcounted : (scan fs casefold largestEntry request directory).Counted :=
      scan_counted directory
    obtain ⟨hscanned, hskipped⟩ := hcounted
    show (scan fs casefold largestEntry request directory).skippedEntries ≤ maxLargestScanEntries
    have hmax : max 1 (scan fs casefold largestEntry request directory).scannedEntries ≤
        maxLargestScanEntries := max_le (by decide) hscanned
    omega
  approvedRoots_length := (List.length_map _).trans_le happroved.length_le
  approvedRoots := by
    rintro _ hr
    obtain ⟨item, hitem, rfl⟩ := List.mem_map.1 hr
    exact ⟨happroved.index_lt item hitem, happroved.name item hitem⟩
  approved := ⟨⟨root.index, root.name⟩, List.mem_map.2 ⟨root, hroot, rfl⟩, rfl, rfl⟩
  entries_length := (List.length_take_le _ _).trans request.maxEntries_le
  sorted := (pairwise_insertionSort _).sublist (List.take_sublist _ _)

/-- The largest files come first. -/
theorem zip_tail_of_pairwise {entries : List MacFilesLargestEntryOutput}
    (h : entries.Pairwise fun a b => b.sizeBytes ≤ a.sizeBytes) :
    ((entries.map (·.onPhone)).zip (entries.map (·.onPhone)).tail).all
      (fun (first, second) => decide (second.sizeBytes ≤ first.sizeBytes)) = true := by
  have hmap : (entries.map (·.onPhone)).Pairwise fun a b => b.sizeBytes ≤ a.sizeBytes := by
    refine List.pairwise_map.2 (h.imp fun {a b} hab => ?_)
    exact Int.ofNat_le.2 hab
  exact List.all_eq_true.2 fun p hp => decide_eq_true (Ranking.of_mem_zip_tail hmap p hp)

theorem largest_matchesToolContract_iff {o : MacFilesLargestOutput} (h : LargestSent request o) :
    o.onPhone.matchesToolContract = true ↔
      (∀ e ∈ o.entries, e.onPhone.matchesToolContract = true) ∧
      (∀ r ∈ o.approvedRoots, IsShowable maxMacFilesRootNameLength r.name) ∧
      IsShowable maxMacFilesRootNameLength o.rootName ∧
      IsShowable maxMacFilesRelativePathLength request.relativePath.val := by
  have hnat : ∀ {n bound : ℕ}, n ≤ bound → inRange 0 bound n = true := fun hn =>
    inRange_iff.2 ⟨Int.natCast_nonneg _, Int.ofNat_le.2 hn⟩
  have hstatus : isSafeDisplayField (ofChars o.status) 64 = true := by
    rw [h.status]
    decide
  have hindex : inRange 0 maxMacFilesRootIndex o.rootIndex = true :=
    inRange_iff.2 ⟨Int.natCast_nonneg _, Int.ofNat_le.2 (Nat.le_of_lt_succ h.rootIndex)⟩
  have hroots : (∀ r ∈ o.onPhone.approvedRoots, r.matchesToolContract = true) ↔
      ∀ r ∈ o.approvedRoots, IsShowable maxMacFilesRootNameLength r.name := by
    rw [MacFilesLargestOutput.onPhone, List.forall_mem_map]
    exact forall₂_congr fun r hr =>
      root_matchesToolContract_iff (h.approvedRoots r hr).1 (h.approvedRoots r hr).2
  have happroved : o.onPhone.approvedRoots.any (fun root => root.rootIndex = o.onPhone.rootIndex &&
      root.name = o.onPhone.rootName) = true := by
    obtain ⟨r, hr, hrindex, hrname⟩ := h.approved
    refine List.any_eq_true.2 ⟨r.onPhone, List.mem_map_of_mem hr, ?_⟩
    rw [Bool.and_eq_true, decide_eq_true_iff, decide_eq_true_iff]
    exact ⟨congrArg Nat.cast hrindex, congrArg ofChars hrname⟩
  have hpath : isSafeMacFilesRelativePath (ofChars o.relativePath) = true ↔
      IsShowable maxMacFilesRelativePathLength request.relativePath.val := by
    rw [h.relativePath]
    exact isSafeMacFilesRelativePath_iff request.relativePath
  have hrootsLength : o.onPhone.approvedRoots.length ≤ maxMacFilesApprovedRoots := by
    rw [MacFilesLargestOutput.onPhone, List.length_map]
    exact h.approvedRoots_length
  have hentriesLength : o.onPhone.entries.length ≤ maxMacFilesLargestEntries := by
    rw [MacFilesLargestOutput.onPhone, List.length_map]
    exact h.entries_length
  have hentries : (∀ e ∈ o.onPhone.entries, e.matchesToolContract = true) ↔
      ∀ e ∈ o.entries, e.onPhone.matchesToolContract = true := by
    rw [MacFilesLargestOutput.onPhone, List.forall_mem_map]
  have hsorted := zip_tail_of_pairwise h.sorted
  unfold MacFilesLargest.matchesToolContract
  simp only [Bool.and_eq_true, decide_eq_true_eq, List.all_eq_true (l := o.onPhone.approvedRoots),
    List.all_eq_true (l := o.onPhone.entries), hroots, hentries, and_assoc]
  constructor
  · rintro ⟨-, -, hname, hpath', -, -, -, -, -, hroots, -, hentries, -⟩
    exact ⟨hentries, hroots, h.rootName.isSafeDisplayField_iff.1 hname, hpath.1 hpath'⟩
  · rintro ⟨hentries, hroots, hname, hpath'⟩
    exact ⟨hstatus, hindex, h.rootName.isSafeDisplayField_iff.2 hname, hpath.2 hpath',
      hnat h.maxDepth, hnat h.scannedEntries, hnat h.skippedEntries, hrootsLength, happroved, hroots,
      hentriesLength, hentries, hsorted⟩

/-- What a listing of files has to be for the phone to read it. -/
theorem decodeMacFilesLargest_iff {o : MacFilesLargestOutput} (h : LargestSent request o)
    {files : List FoundFile} (hfiles : o.entries = files.map largestEntry) (l : MacFilesLargest) :
    decodeMacFilesLargest (ofPythonMembers o.modelDump) = .ok l ↔ l = o.onPhone ∧
      (∀ file ∈ files, file.Readable) ∧
      (∀ r ∈ o.approvedRoots, (ofChars r.name).length ≤ maxMacFilesRootNameLength) ∧
      (ofChars o.rootName).length ≤ maxMacFilesRootNameLength ∧
      (ofChars o.relativePath).length ≤ maxMacFilesRelativePathLength ∧
      o.onPhone.matchesToolContract = true := by
  have hkeys : requireKeys (ofPythonMembers o.modelDump)
      ["status", "rootIndex", "rootName", "relativePath", "maxDepth", "scannedEntries",
        "skippedEntries", "truncated", "approvedRoots", "entries"] [] = .ok () :=
    requireKeys_ofPython
      ["status", "rootIndex", "rootName", "relativePath", "maxDepth", "scannedEntries",
        "skippedEntries", "truncated", "approvedRoots", "entries"] rfl (by decide) (by decide)
  have hrootsArray : requireArray (ofPythonMembers o.modelDump) (lit "approvedRoots") =
      .ok (ofPythonItems (o.approvedRoots.map fun root => .object root.modelDump)) :=
    requireArray_ofPython rfl
  have hroots : ∀ v, boundedObjects (ofPythonItems (o.approvedRoots.map fun root =>
      .object root.modelDump)) maxMacFilesApprovedRoots (lit "approvedRoots")
      decodeMacFilesApprovedRoot = .ok v ↔ _ :=
    boundedObjects_iff h.approvedRoots_length fun r hr =>
      decodeMacFilesApprovedRoot_iff (h.approvedRoots r hr).1 (h.approvedRoots r hr).2.length_pos
  have hentriesArray : requireArray (ofPythonMembers o.modelDump) (lit "entries") =
      .ok (ofPythonItems (files.map fun file => .object (largestEntry file).modelDump)) := by
    refine requireArray_ofPython ?_
    show some (Python.Json.array (o.entries.map fun entry => .object entry.modelDump)) = _
    rw [hfiles, List.map_map]
    rfl
  have hentries : ∀ v, boundedObjects (ofPythonItems (files.map fun file =>
      .object (largestEntry file).modelDump)) maxMacFilesLargestEntries (lit "entries")
      decodeMacFilesLargestEntry = .ok v ↔
        v = files.map (fun file => (largestEntry file).onPhone) ∧ ∀ file ∈ files, file.Readable := by
    have hlength := h.entries_length
    rw [hfiles, List.length_map] at hlength
    exact boundedObjects_iff hlength fun file _ => decodeMacFilesLargestEntry_iff file
  have hstatus : requireBoundedString (ofPythonMembers o.modelDump) (lit "status") 1 64 =
      .ok (ofChars o.status) :=
    requireBoundedString_ofPython rfl (by rw [h.status]; decide)
  have hnat : ∀ {n bound : ℕ}, n ≤ bound → (0 : ℤ) ≤ n ∧ (n : ℤ) ≤ bound := fun hn =>
    ⟨Int.natCast_nonneg _, Int.ofNat_le.2 hn⟩
  have hindex : requireBoundedInt (ofPythonMembers o.modelDump) (lit "rootIndex") 0
      maxMacFilesRootIndex = .ok o.rootIndex :=
    requireBoundedInt_ofPython rfl (hnat (Nat.le_of_lt_succ h.rootIndex)) (by decide)
  have hname : ∀ v, requireBoundedString (ofPythonMembers o.modelDump) (lit "rootName") 1
      maxMacFilesRootNameLength = .ok v ↔ _ := requireBoundedString_iff (s := o.rootName) rfl
  have hpath : ∀ v, requireBoundedString (ofPythonMembers o.modelDump) (lit "relativePath") 0
      maxMacFilesRelativePathLength = .ok v ↔ _ :=
    requireBoundedString_iff (s := o.relativePath) rfl
  have hdepth : requireBoundedInt (ofPythonMembers o.modelDump) (lit "maxDepth") 0
      maxMacFilesLargestDepth = .ok o.maxDepth :=
    requireBoundedInt_ofPython rfl (hnat h.maxDepth) (by decide)
  have hscanned : requireBoundedInt (ofPythonMembers o.modelDump) (lit "scannedEntries") 0
      maxMacFilesLargestScannedEntries = .ok o.scannedEntries :=
    requireBoundedInt_ofPython rfl (hnat h.scannedEntries) (by decide)
  have hskipped : requireBoundedInt (ofPythonMembers o.modelDump) (lit "skippedEntries") 0
      maxMacFilesLargestScannedEntries = .ok o.skippedEntries :=
    requireBoundedInt_ofPython rfl (hnat h.skippedEntries) (by decide)
  have htruncated : requireBoolean (ofPythonMembers o.modelDump) (lit "truncated") =
      .ok o.truncated := requireBoolean_ofPython rfl
  have honPhone : ({
      status := ofChars o.status, rootIndex := o.rootIndex, rootName := ofChars o.rootName,
      relativePath := ofChars o.relativePath, maxDepth := o.maxDepth,
      scannedEntries := o.scannedEntries, skippedEntries := o.skippedEntries,
      truncated := o.truncated, approvedRoots := o.approvedRoots.map (·.onPhone),
      entries := files.map fun file => (largestEntry file).onPhone } : MacFilesLargest) =
      o.onPhone := by
    rw [MacFilesLargestOutput.onPhone, hfiles, List.map_map]
    rfl
  unfold decodeMacFilesLargest
  simp only [hkeys, hrootsArray, hentriesArray, hstatus, hindex, hdepth, hscanned, hskipped,
    htruncated, Checks.ok_bind, Checks.bind_eq_ok, Checks.throw_bind_eq_ok, hroots, hentries, hname,
    hpath, h.rootName.length_pos, true_and, and_assoc, exists_eq_left, Nat.zero_le, honPhone,
    Bool.not_eq_true', Bool.not_eq_false]
  constructor
  · rintro ⟨hroots, hentries, hname, hpath, hmatches, heq⟩
    exact ⟨(Except.ok.inj heq).symm, hentries, hroots, hname, hpath, hmatches⟩
  · rintro ⟨rfl, hentries, hroots, hname, hpath, hmatches⟩
    exact ⟨hroots, hentries, hname, hpath, hmatches, rfl⟩

/-- The phone decodes the answer, and it matches the tool's contract. -/
def LargestAcceptedByPhone (output : List (Python.Str × Python.Json)) : Prop :=
  ∃ largest, decodeMacFilesLargest (ofPythonMembers output) = .ok largest ∧
    largest.matchesToolContract = true

theorem largestAcceptedByPhone_output (happroved : Approved roots) (hroot : root ∈ roots) :
    LargestAcceptedByPhone (largestOutput fs casefold request root roots directory).modelDump ↔
      (∀ file ∈ shownFiles fs casefold request directory, file.Showable) ∧
      (∀ r ∈ roots, IsShowable maxMacFilesRootNameLength r.name) ∧
      IsShowable maxMacFilesRelativePathLength request.relativePath.val := by
  have hsent : LargestSent request (largestOutput fs casefold request root roots directory) :=
    largestSent happroved hroot
  have hfiles : (largestOutput fs casefold request root roots directory).entries =
      (shownFiles fs casefold request directory).map largestEntry := selected_eq directory
  have hcontract := largest_matchesToolContract_iff hsent
  rw [hfiles, List.forall_mem_map] at hcontract
  have hroots : (∀ r ∈ (largestOutput fs casefold request root roots directory).approvedRoots,
      IsShowable maxMacFilesRootNameLength r.name) ↔
      ∀ r ∈ roots, IsShowable maxMacFilesRootNameLength r.name := List.forall_mem_map
  rw [hroots] at hcontract
  constructor
  · rintro ⟨largest, hdecode, hmatches⟩
    obtain ⟨rfl, hreadable, -⟩ := (decodeMacFilesLargest_iff hsent hfiles largest).1 hdecode
    obtain ⟨hentries, hshowable, -, hpath⟩ := hcontract.1 hmatches
    refine ⟨fun file hfile => ?_, hshowable, hpath⟩
    exact (largestEntry_matchesToolContract_iff file (hreadable file hfile).2.2.2.2).1
      (hentries file hfile)
  · rintro ⟨hentries, hshowable, hpath⟩
    have hmatches := hcontract.2 ⟨fun file hfile =>
      (largestEntry_matchesToolContract_iff file (hentries file hfile).mtime.2).2
        (hentries file hfile), hshowable, hshowable root hroot, hpath⟩
    refine ⟨_, (decodeMacFilesLargest_iff hsent hfiles _).2 ⟨rfl,
      fun file hfile => (hentries file hfile).readable, fun r hr => ?_, (hshowable root hroot).1,
      hpath.1, hmatches⟩, hmatches⟩
    exact (hroots.2 hshowable r hr).1

/-- **File trees.** The phone takes an answer when it shows each of its files, and when the names of the
roots and the path of the request are showable. -/
theorem largestAcceptedByPhone_tree {paths : List RootDirectory} {target : Python.Path}
    {output : List (Python.Str × Python.Json)}
    (hroots : approvedRoots "mac.files.largest" paths = .ok roots)
    (hroot : rootForIndex request.rootIndex roots = .ok root)
    (htarget : safeTarget fs root.path request.relativePath.val = .ok target)
    (hdirectory : fs.openDirectory target = some directory)
    (houtput : findLargestMacFiles fs casefold request roots = .ok output) :
    LargestAcceptedByPhone output ↔
      (∀ file ∈ shownFiles fs casefold request directory, file.Showable) ∧
      (∀ r ∈ roots, IsShowable maxMacFilesRootNameLength r.name) ∧
      IsShowable maxMacFilesRelativePathLength request.relativePath.val := by
  obtain ⟨root', target', directory', hroot', -, htarget', -, hdirectory', rfl⟩ :=
    findLargestMacFiles_ok houtput
  obtain rfl : root = root' := Except.ok.inj (hroot.symm.trans hroot')
  obtain rfl : target = target' := Except.ok.inj (htarget.symm.trans htarget')
  obtain rfl : directory = directory' := Option.some.inj (hdirectory.symm.trans hdirectory')
  exact largestAcceptedByPhone_output (approvedRoots_ok hroots) (mem_of_rootForIndex hroot)

end Answers

/-! ### A name with a joiner -/

/-- A directory with one file of this name. -/
def oneFile (name : Python.Str) : FileSystem Unit :=
  { demoSystem 1000 with
    iterdir := fun _ => some [name]
    scandir := fun _ => some [name] }

theorem shownFiles_oneFile : shownFiles (oneFile "movie.mov".toList) id demoLargest () =
    [⟨"movie.mov".toList, "movie.mov".toList, 1000, 1752422400⟩] := rfl

theorem plain_name_is_accepted : LargestAcceptedByPhone
    (largestOutput (oneFile "movie.mov".toList) id demoLargest demoRoot [demoRoot] ()).modelDump := by
  have hroots : approvedRoots "mac.files.largest" [demoDirectory] = .ok [demoRoot] := rfl
  have hroot : rootForIndex demoLargest.rootIndex [demoRoot] = .ok demoRoot := rfl
  have htarget : safeTarget (oneFile "movie.mov".toList) demoRoot.path demoLargest.relativePath.val =
      .ok demoRoot.path := rfl
  have hdirectory : (oneFile "movie.mov".toList).openDirectory demoRoot.path = some () := rfl
  have houtput : findLargestMacFiles (oneFile "movie.mov".toList) id demoLargest [demoRoot] = .ok
      (largestOutput (oneFile "movie.mov".toList) id demoLargest demoRoot [demoRoot] ()).modelDump :=
    rfl
  refine (largestAcceptedByPhone_tree hroots hroot htarget hdirectory houtput).2
    ⟨fun file hfile => ?_, by decide, by decide⟩
  rw [shownFiles_oneFile] at hfile
  rw [List.mem_singleton.1 hfile]
  exact ⟨by decide, by decide, by decide, by decide, by decide⟩

/-- The name of an emoji of two characters, with the joiner between them. -/
def joinedName : Python.Str :=
  Char.ofNat 0x1f9d1 :: Char.ofNat 0x200d :: Char.ofNat 0x1f4bb :: ".png".toList

/-- **A joiner.** It is a format character, and the phone refuses the answer. -/
theorem joined_name_is_rejected :
    findLargestMacFiles (oneFile joinedName) id demoLargest [demoRoot] =
      .ok (largestOutput (oneFile joinedName) id demoLargest demoRoot [demoRoot] ()).modelDump ∧
    ¬ LargestAcceptedByPhone
      (largestOutput (oneFile joinedName) id demoLargest demoRoot [demoRoot] ()).modelDump := by
  have hroots : approvedRoots "mac.files.largest" [demoDirectory] = .ok [demoRoot] := rfl
  refine ⟨rfl, fun haccepted => ?_⟩
  obtain ⟨hfiles, -, -⟩ := (largestAcceptedByPhone_output (approvedRoots_ok hroots)
    List.mem_cons_self).1 haccepted
  have hshown : shownFiles (oneFile joinedName) id demoLargest () =
      [⟨joinedName, joinedName, 1000, 1752422400⟩] := rfl
  have hfile := hfiles ⟨joinedName, joinedName, 1000, 1752422400⟩
    (by rw [hshown]; exact List.mem_cons_self)
  exact absurd hfile.name (by decide)

end GoffyHub.MacFiles
