import GoffyOs.Hub.MacFilesDescriptors
import GoffyOs.Python.JsonSize

/-!
# The size of the answers of `mac.files.list` and `mac.files.largest`

The registry refuses an answer whose JSON text is longer than `maxToolOutputBytes`. The handlers bound
their texts by characters and their entries by number, but not the bytes of an answer: `listBytes` and
`largestBytes` are the bytes of the answers about a directory, and `mac_files_fit_iff` says that an answer
fits exactly if these do.
-/

namespace GoffyHub.MacFiles

open Python

-- `decide` looks at the members of a list one by one
attribute [local instance (high)] List.decidableBAll

/-- of the registry -/
def maxToolOutputBytes : ℕ := 8192

/-- The registry takes the answer: `output_bytes <= MAX_TOOL_OUTPUT_BYTES`. It sorts the keys first, which
leaves the number of bytes as it is. -/
def Fits (output : List (Str × Json)) : Prop := (Json.object output).size ≤ maxToolOutputBytes

instance (output : List (Str × Json)) : Decidable (Fits output) := Nat.decLe _ _

/-! ### Bytes -/

def flagBytes (b : Bool) : ℕ := if b then 4 else 5

/-- The bytes of a list of members without its brackets, with the commas between them. -/
def itemsBytes (items : List ℕ) : ℕ := items.sum + (items.length - 1)

def rootBytes (root : ApprovedMacFilesRoot) : ℕ :=
  24 + (natStr root.index).length + escapedBytes root.name

/-- The bytes of an entry of a listing. -/
def listEntryBytes (name : Str) (stat : StatResult) : ℕ :=
  75 + escapedBytes (boundedText name maxEntryNameChars) +
    flagBytes (boundedText name maxEntryNameChars ≠ name) + stat.mode.value.length +
    (if stat.mode = .file then (natStr stat.size).length else 4) + (intStr stat.mtime).length

/-- The bytes of an entry about a file. -/
def largestEntryBytes (file : FoundFile) : ℕ :=
  100 + escapedBytes (boundedRelativePath file.name file.relativePath).1 +
    flagBytes (boundedRelativePath file.name file.relativePath).2 +
    escapedBytes (boundedText file.name maxEntryNameChars) +
    flagBytes (boundedText file.name maxEntryNameChars ≠ file.name) + (natStr file.size).length +
    (intStr file.mtime).length

/-- The bytes of a listing of these names. -/
def listBytes (casefold : Str → Str) (request : MacFilesListInput) (root : ApprovedMacFilesRoot)
    (roots : List ApprovedMacFilesRoot) (names : List Str) (shown : List (Str × StatResult)) : ℕ :=
  112 + (natStr root.index).length + escapedBytes root.name + escapedBytes request.relativePath.val +
    flagBytes (request.maxEntries < (visibleNames casefold request.includeHidden names).length) +
    itemsBytes (roots.map rootBytes) + itemsBytes (shown.map fun item => listEntryBytes item.1 item.2)

section Size

variable {casefold : Str → Str} {Fd : Type}

theorem size_int (n : ℤ) : (Json.int n).size = (intStr n).length := by
  rw [Json.size, Json.dumps]
  cases n with
  | ofNat n => exact byteLength_natStr n
  | negSucc n =>
    rw [intStr, byteLength_cons_ascii (by decide), byteLength_natStr, List.length_cons]

theorem size_flag (b : Bool) : (Json.bool b).size = flagBytes b := size_bool b

theorem size_objects {α : Type} (items : List α) (dump : α → List (Str × Json)) (bytes : α → ℕ)
    (h : ∀ item ∈ items, (Json.object (dump item)).size = bytes item) :
    (Json.array (items.map fun item => .object (dump item))).size = 2 + itemsBytes (items.map bytes) := by
  have hsizes : (items.map fun item => Json.object (dump item)).map Json.size = items.map bytes := by
    rw [List.map_map]
    exact List.map_congr_left h
  rw [size_array, hsizes, List.length_map, itemsBytes, List.length_map]
  omega

theorem size_root (root : ApprovedMacFilesRoot) :
    (Json.object (MacFilesApprovedRootOutput.mk root.index root.name).modelDump).size = rootBytes root := by
  have hindex : byteLength (quote "rootIndex".toList) = 11 := by decide
  have hname : byteLength (quote "name".toList) = 6 := by decide
  rw [MacFilesApprovedRootOutput.modelDump, size_object]
  simp only [List.map_cons, List.map_nil, List.sum_cons, List.sum_nil, List.length_cons,
    List.length_nil]
  rw [hindex, hname, size_nat, size_str, rootBytes]
  omega

theorem size_roots (roots : List ApprovedMacFilesRoot) :
    (Json.array ((roots.map fun item => MacFilesApprovedRootOutput.mk item.index item.name).map
      fun root => .object root.modelDump)).size = 2 + itemsBytes (roots.map rootBytes) := by
  rw [List.map_map]
  exact size_objects roots (fun item => (MacFilesApprovedRootOutput.mk item.index item.name).modelDump)
    rootBytes fun root _ => size_root root

theorem escapedBytes_kind (kind : FileKind) : escapedBytes kind.value = kind.value.length := by
  cases kind <;> decide

theorem size_listEntry (name : Str) (stat : StatResult) :
    (Json.object (listEntry name stat).modelDump).size = listEntryBytes name stat := by
  have hname : byteLength (quote "name".toList) = 6 := by decide
  have htruncated : byteLength (quote "nameTruncated".toList) = 15 := by decide
  have hkind : byteLength (quote "kind".toList) = 6 := by decide
  have hsize : byteLength (quote "sizeBytes".toList) = 11 := by decide
  have hmodified : byteLength (quote "modifiedEpochSeconds".toList) = 22 := by decide
  have hsizeBytes : (jsonInt (listEntry name stat).sizeBytes).size =
      if stat.mode = .file then (natStr stat.size).length else 4 := by
    unfold listEntry
    dsimp only
    split
    · exact size_nat _
    · exact byteLength_of_ascii (s := "null".toList) (by decide)
  have hmtime : (jsonInt (listEntry name stat).modifiedEpochSeconds).size = (intStr stat.mtime).length :=
    size_int _
  rw [MacFilesListEntryOutput.modelDump, size_object]
  simp only [List.map_cons, List.map_nil, List.sum_cons, List.sum_nil, List.length_cons,
    List.length_nil]
  rw [hname, htruncated, hkind, hsize, hmodified, hsizeBytes, hmtime, size_str, size_str, size_flag,
    listEntryBytes]
  show 2 + (6 + 1 + (2 + escapedBytes (boundedText name maxEntryNameChars)) + (15 + 1 +
    flagBytes (boundedText name maxEntryNameChars ≠ name) + (6 + 1 + (2 +
      escapedBytes stat.mode.value) + _))) + _ = _
  rw [escapedBytes_kind]
  omega

theorem size_largestEntry (file : FoundFile) :
    (Json.object (largestEntry file).modelDump).size = largestEntryBytes file := by
  have hpath : byteLength (quote "relativePath".toList) = 14 := by decide
  have hpathTruncated : byteLength (quote "pathTruncated".toList) = 15 := by decide
  have hname : byteLength (quote "name".toList) = 6 := by decide
  have htruncated : byteLength (quote "nameTruncated".toList) = 15 := by decide
  have hsize : byteLength (quote "sizeBytes".toList) = 11 := by decide
  have hmodified : byteLength (quote "modifiedEpochSeconds".toList) = 22 := by decide
  have hmtime : (jsonInt (largestEntry file).modifiedEpochSeconds).size = (intStr file.mtime).length :=
    size_int _
  rw [MacFilesLargestEntryOutput.modelDump, size_object]
  simp only [List.map_cons, List.map_nil, List.sum_cons, List.sum_nil, List.length_cons,
    List.length_nil]
  rw [hpath, hpathTruncated, hname, htruncated, hsize, hmodified, hmtime, size_str, size_str, size_flag,
    size_flag, size_nat, largestEntryBytes]
  simp only [largestEntry]
  omega

theorem size_listOutput (request : MacFilesListInput) (root : ApprovedMacFilesRoot)
    (roots : List ApprovedMacFilesRoot) (names : List Str) (shown : List (Str × StatResult)) :
    (Json.object (listOutput casefold request root roots names shown).modelDump).size =
      listBytes casefold request root roots names shown := by
  have hstatus : byteLength (quote "status".toList) = 8 := by decide
  have hvalue : escapedBytes "available".toList = 9 := by decide
  have hindex : byteLength (quote "rootIndex".toList) = 11 := by decide
  have hname : byteLength (quote "rootName".toList) = 10 := by decide
  have hpath : byteLength (quote "relativePath".toList) = 14 := by decide
  have htruncated : byteLength (quote "truncated".toList) = 11 := by decide
  have hroots : byteLength (quote "approvedRoots".toList) = 15 := by decide
  have hentries : byteLength (quote "entries".toList) = 9 := by decide
  have hflag : decide ((shownNames casefold request names).length <
      (visibleNames casefold request.includeHidden names).length) =
      decide (request.maxEntries < (visibleNames casefold request.includeHidden names).length) := by
    rw [shownNames, List.length_take, decide_eq_decide]
    omega
  have hentriesSize : (Json.array ((shown.map fun item => listEntry item.1 item.2).map
      fun entry => .object entry.modelDump)).size =
      2 + itemsBytes (shown.map fun item => listEntryBytes item.1 item.2) := by
    rw [List.map_map]
    exact size_objects shown (fun item => (listEntry item.1 item.2).modelDump) _
      fun item _ => size_listEntry item.1 item.2
  rw [MacFilesListOutput.modelDump, size_object]
  simp only [List.map_cons, List.map_nil, List.sum_cons, List.sum_nil, List.length_cons,
    List.length_nil]
  unfold listOutput
  dsimp only
  rw [hstatus, hindex, hname, hpath, htruncated, hroots, hentries, size_str, size_str, size_str, hvalue,
    size_nat, size_flag, size_roots, hentriesSize, hflag, listBytes]
  omega

/-! ### Listings -/

/-- The listing of every directory that the request may name fits. -/
def ListFits (fs : FileSystem Fd) (casefold : Str → Str) (request : MacFilesListInput)
    (roots : List ApprovedMacFilesRoot) : Prop :=
  ∀ root target names shown, rootForIndex request.rootIndex roots = .ok root →
    safeTarget fs root.path request.relativePath.val = .ok target → fs.isDir target = true →
    fs.iterdir target = some names → shown.map (·.1) = shownNames casefold request names →
    (∀ item ∈ shown, fs.stat ⟨target.parts ++ [item.1]⟩ = some item.2) →
    listBytes casefold request root roots names shown ≤ maxToolOutputBytes

/-- An answer is a listing of a directory that the request names. -/
theorem listMacFiles_fits_iff {fs : FileSystem Fd} {request : MacFilesListInput}
    {roots : List ApprovedMacFilesRoot} (hroots : roots.length ≤ maxApprovedRoots) :
    (∀ output, listMacFiles fs casefold request roots = .ok output → Fits output) ↔
      ListFits fs casefold request roots := by
  constructor
  · intro h root target names shown hroot htarget hdir hnames hshown hstats
    have hfits := h _ (listMacFiles_eq hroots hroot htarget hdir hnames hshown hstats)
    rw [Fits, size_listOutput] at hfits
    exact hfits
  · intro h output houtput
    obtain ⟨root, target, names, shown, hroot, htarget, hdir, hnames, hshown, hstats, rfl⟩ :=
      listMacFiles_ok houtput
    rw [Fits, size_listOutput]
    exact h root target names shown hroot htarget hdir hnames hshown hstats

/-! ### Largest files -/

/-- The files that the answer shows: the largest ones of those that are looked at. -/
def largestFiles (fs : FileSystem Fd) (casefold : Str → Str) (request : MacFilesLargestInput)
    (directory : Fd) : List FoundFile :=
  ((candidateFiles fs casefold request directory).insertionSort fun a b =>
    comesFirst casefold (largestEntry a) (largestEntry b)).take request.maxEntries

/-- The visits of the walk: it stops before it would look at too many entries. -/
def reachedVisits (fs : FileSystem Fd) (casefold : Str → Str) (request : MacFilesLargestInput)
    (directory : Fd) : List Visit :=
  reached maxLargestScanEntries
    (traversal fs casefold request.includeHidden request.maxDepth directory [])

/-- The bytes of an answer about the largest files of a directory. -/
def largestBytes (fs : FileSystem Fd) (casefold : Str → Str) (request : MacFilesLargestInput)
    (root : ApprovedMacFilesRoot) (roots : List ApprovedMacFilesRoot) (directory : Fd) : ℕ :=
  160 + (natStr root.index).length + escapedBytes root.name + escapedBytes request.relativePath.val +
    (natStr request.maxDepth).length +
    (natStr (entriesOf (reachedVisits fs casefold request directory)).length).length +
    (natStr ((reachedVisits fs casefold request directory).countP Visit.isSkipped)).length +
    flagBytes (maxLargestScanEntries < (visibleEntries fs casefold request directory).length ∨
      request.maxEntries < (candidateFiles fs casefold request directory).length) +
    itemsBytes (roots.map rootBytes) +
    itemsBytes ((largestFiles fs casefold request directory).map largestEntryBytes)

theorem foundFiles_eq (fs : FileSystem Fd) (casefold : Str → Str) (request : MacFilesLargestInput)
    (directory : Fd) : foundFiles fs casefold request directory =
      candidateFiles fs casefold request directory := by
  have htally := congrArg Tally.candidates
    (@scan_tally _ _ fs casefold id request directory)
  refine htally.trans ?_
  dsimp only
  rw [List.map_id, filesOf, entriesOf_reached]
  rfl

theorem size_largestOutput (request : MacFilesLargestInput) (root : ApprovedMacFilesRoot)
    (roots : List ApprovedMacFilesRoot) (fs : FileSystem Fd) (directory : Fd) :
    (Json.object (largestOutput fs casefold request root roots directory).modelDump).size =
      largestBytes fs casefold request root roots directory := by
  have hstatus : byteLength (quote "status".toList) = 8 := by decide
  have hvalue : escapedBytes "available".toList = 9 := by decide
  have hindex : byteLength (quote "rootIndex".toList) = 11 := by decide
  have hname : byteLength (quote "rootName".toList) = 10 := by decide
  have hpath : byteLength (quote "relativePath".toList) = 14 := by decide
  have hdepth : byteLength (quote "maxDepth".toList) = 10 := by decide
  have hscanned : byteLength (quote "scannedEntries".toList) = 16 := by decide
  have hskipped : byteLength (quote "skippedEntries".toList) = 16 := by decide
  have htruncated : byteLength (quote "truncated".toList) = 11 := by decide
  have hroots : byteLength (quote "approvedRoots".toList) = 15 := by decide
  have hentries : byteLength (quote "entries".toList) = 9 := by decide
  have hsize : (Json.array (((largestFiles fs casefold request directory).map largestEntry).map
      fun entry => .object entry.modelDump)).size =
      2 + itemsBytes ((largestFiles fs casefold request directory).map largestEntryBytes) := by
    rw [List.map_map]
    exact size_objects _ (fun file => (largestEntry file).modelDump) _
      fun file _ => size_largestEntry file
  have hselected : (largestOutput fs casefold request root roots directory).entries =
      (largestFiles fs casefold request directory).map largestEntry := by
    refine (selected_eq directory).trans ?_
    rw [shownFiles, foundFiles_eq]
    rfl
  have hwalk := @scan_tally _ _ fs casefold largestEntry request directory
  have hscannedEntries : (largestOutput fs casefold request root roots directory).scannedEntries =
      (entriesOf (reachedVisits fs casefold request directory)).length :=
    congrArg Tally.scannedEntries hwalk
  have hskippedEntries : (largestOutput fs casefold request root roots directory).skippedEntries =
      (reachedVisits fs casefold request directory).countP Visit.isSkipped :=
    congrArg Tally.skippedEntries hwalk
  have hflag : (largestOutput fs casefold request root roots directory).truncated =
      decide (maxLargestScanEntries < (visibleEntries fs casefold request directory).length ∨
        request.maxEntries < (candidateFiles fs casefold request directory).length) := by
    rw [Bool.eq_iff_iff, decide_eq_true_eq]
    exact (isLargest_collection fs casefold request directory).truncated
  rw [MacFilesLargestOutput.modelDump, size_object]
  simp only [List.map_cons, List.map_nil, List.sum_cons, List.sum_nil, List.length_cons,
    List.length_nil]
  rw [hstatus, hindex, hname, hpath, hdepth, hscanned, hskipped, htruncated, hroots, hentries, hflag,
    hselected, hsize, hscannedEntries, hskippedEntries]
  unfold largestOutput
  dsimp only
  rw [size_str, size_str, size_str, hvalue, size_nat, size_nat, size_nat, size_nat, size_flag,
    size_roots, largestBytes]
  omega

/-- Every directory that the request may name has an answer that fits. -/
def LargestFits (fs : FileSystem Fd) (casefold : Str → Str) (request : MacFilesLargestInput)
    (roots : List ApprovedMacFilesRoot) : Prop :=
  ∀ root target directory, rootForIndex request.rootIndex roots = .ok root →
    rejectSymlinkComponents fs root.path request.relativePath.val = .ok () →
    safeTarget fs root.path request.relativePath.val = .ok target → fs.isDir target = true →
    fs.openDirectory target = some directory →
    largestBytes fs casefold request root roots directory ≤ maxToolOutputBytes

theorem findLargestMacFiles_fits_iff {fs : FileSystem Fd} {request : MacFilesLargestInput}
    {roots : List ApprovedMacFilesRoot} (hroots : roots.length ≤ maxApprovedRoots) :
    (∀ output, findLargestMacFiles fs casefold request roots = .ok output → Fits output) ↔
      LargestFits fs casefold request roots := by
  constructor
  · intro h root target directory hroot hlinks htarget hdir hdirectory
    have hfits := h _ (findLargestMacFiles_eq hroots hroot hlinks htarget hdir hdirectory)
    rw [Fits, size_largestOutput] at hfits
    exact hfits
  · intro h output houtput
    obtain ⟨root, target, directory, hroot, hlinks, htarget, hdir, hdirectory, rfl⟩ :=
      findLargestMacFiles_ok houtput
    rw [Fits, size_largestOutput]
    exact h root target directory hroot hlinks htarget hdir hdirectory

/-- **Sizes of answers.** An answer fits exactly if its names, paths and numbers take no more than the
bytes that the registry allows, and nothing shortens one that does not. -/
theorem mac_files_fit_iff {toolName : String} {paths : List RootDirectory}
    {roots : List ApprovedMacFilesRoot} (h : approvedRoots toolName paths = .ok roots)
    (fs : FileSystem Fd) (casefold : Str → Str) :
    (∀ request, (∀ output, listMacFiles fs casefold request roots = .ok output → Fits output) ↔
      ListFits fs casefold request roots) ∧
    ∀ request, (∀ output, findLargestMacFiles fs casefold request roots = .ok output → Fits output) ↔
      LargestFits fs casefold request roots :=
  ⟨fun _ => listMacFiles_fits_iff (approvedRoots_ok h).length_le,
    fun _ => findLargestMacFiles_fits_iff (approvedRoots_ok h).length_le⟩

end Size

/-! ### Names that take more bytes than characters -/

theorem demo_listing_fits : ListFits (demoSystem 1000) id demoListing [demoRoot] := by
  have hroots : approvedRoots "mac.files.list" [demoDirectory] = .ok [demoRoot] := rfl
  refine ((mac_files_fit_iff hroots (demoSystem 1000) id).1 demoListing).1 fun output houtput => ?_
  obtain rfl := Except.ok.inj ((listMacFiles_demo 1000).symm.trans houtput)
  decide +kernel

/-- Names of 64 characters, and 188 bytes. -/
def wideNames : List Str := (List.range 32).map fun i => natStr (10 + i) ++ List.replicate 62 '中'

def wideSystem : FileSystem Unit :=
  { demoSystem 1000 with
    iterdir := fun _ => some wideNames
    scandir := fun _ => some wideNames }

def wideListing : MacFilesListInput :=
  ⟨0, demoPath, 32, false, maxApprovedRoots_pos, by decide, by decide⟩

def wideLargest : MacFilesLargestInput :=
  ⟨0, demoPath, 25, 4, false, maxApprovedRoots_pos, demoListing.maxEntries_pos, by decide,
    demoDepth_le⟩

/-- Neither tool shortens its answer about these names. -/
theorem wide_names_do_not_fit :
    (∃ output, listMacFiles wideSystem id wideListing [demoRoot] = .ok output ∧ ¬ Fits output) ∧
      ∃ output, findLargestMacFiles wideSystem id wideLargest [demoRoot] = .ok output ∧
        ¬ Fits output := by
  constructor
  · have hshown : (wideNames.map fun name => (name, StatResult.mk .file 1000 1752422400)).map (·.1) =
        shownNames id wideListing wideNames := by decide +kernel
    have hstats : ∀ item ∈ wideNames.map fun name => (name, StatResult.mk .file 1000 1752422400),
        wideSystem.stat ⟨demoRoot.path.parts ++ [item.1]⟩ = some item.2 := by
      intro item hitem
      obtain ⟨name, -, rfl⟩ := List.mem_map.1 hitem
      rfl
    refine ⟨_, listMacFiles_eq (by decide) rfl rfl rfl rfl hshown hstats, ?_⟩
    rw [Fits, size_listOutput]
    decide +kernel
  · refine ⟨_, findLargestMacFiles_eq (by decide) rfl rfl rfl rfl rfl, ?_⟩
    rw [Fits, size_largestOutput]
    decide +kernel

end GoffyHub.MacFiles
