import GoffyOs.Hub.MacFiles
import GoffyOs.Phone.HubTools

/-!
# `mac.files.list` and `mac.files.largest` across the two sides

`onPhone` is what the phone reads of an answer of the Hub. For each tool, the last theorem says exactly
when the phone takes an answer.
-/

namespace GoffyHub.MacFiles

open GoffyPhone Kotlin Kotlin.JsonObject

/-! ### Bounded names -/

section Bounded

variable {limit n : ℕ} {s : Python.Str}

theorem IsBounded.ne_nil (h : IsBounded limit s) : s ≠ [] := by
  obtain ⟨value, rfl⟩ := h
  exact boundedText_ne_nil (by decide)

theorem IsBounded.length_pos (h : IsBounded limit s) : 1 ≤ (ofChars s).length := by
  rw [Nat.one_le_iff_ne_zero, ne_eq, List.length_eq_zero_iff, ofChars_eq_nil]
  exact h.ne_nil

theorem unnamed_head (c : Char) (hc : "unnamed".toList.head? = some c) :
    Python.isSpace c = false := by
  obtain rfl := Option.some.inj hc
  decide

theorem IsBounded.isSafeDisplayField_iff (h : IsBounded limit s) :
    isSafeDisplayField (ofChars s) n = true ↔ IsShowable n s := by
  obtain ⟨value, rfl⟩ := h
  exact isSafeDisplayField_boundedText (by decide) unnamed_head

end Bounded

theorem isSafeMacFilesRelativePath_iff (p : RelativePath) :
    isSafeMacFilesRelativePath (ofChars p.val) = true ↔ IsShowable maxMacFilesRelativePathLength p.val := by
  have hparts : ∀ part ∈ p.val.splitOn '/', decide (ofChars part = lit "..") = false := by
    intro part hpart
    rw [decide_eq_false_iff_not]
    intro heq
    rw [ofChars_injective heq] at hpart
    exact p.inside.2 hpart
  rw [isSafeMacFilesRelativePath, Bool.and_eq_true, decide_eq_true_iff, isSafePath_ofChars]
  constructor
  · rintro ⟨hlength, -, hhidden, -⟩
    exact ⟨hlength, hhidden⟩
  · rintro ⟨hlength, hhidden⟩
    exact ⟨hlength, p.inside.1, hhidden, hparts⟩

/-! ### Listings -/

def MacFilesApprovedRootOutput.onPhone (o : MacFilesApprovedRootOutput) : MacFilesApprovedRoot where
  rootIndex := o.rootIndex
  name := ofChars o.name

def MacFilesListEntryOutput.onPhone (o : MacFilesListEntryOutput) : MacFilesListEntry where
  name := ofChars o.name
  nameTruncated := o.nameTruncated
  kind := ofChars o.kind.value
  sizeBytes := o.sizeBytes
  modifiedEpochSeconds := o.modifiedEpochSeconds

def MacFilesListOutput.onPhone (o : MacFilesListOutput) : MacFilesList where
  status := ofChars o.status
  rootIndex := o.rootIndex
  rootName := ofChars o.rootName
  relativePath := ofChars o.relativePath
  truncated := o.truncated
  approvedRoots := o.approvedRoots.map (·.onPhone)
  entries := o.entries.map (·.onPhone)

theorem decodeMacFilesApprovedRoot_iff {o : MacFilesApprovedRootOutput}
    (hindex : o.rootIndex < maxApprovedRoots) (hname : 1 ≤ (ofChars o.name).length)
    (r : MacFilesApprovedRoot) :
    decodeMacFilesApprovedRoot (ofPythonMembers o.modelDump) = .ok r ↔
      r = o.onPhone ∧ (ofChars o.name).length ≤ maxMacFilesRootNameLength := by
  have hkeys : requireKeys (ofPythonMembers o.modelDump) ["rootIndex", "name"] [] = .ok () :=
    requireKeys_ofPython ["rootIndex", "name"] rfl (by decide) (by decide)
  have hrootIndex : requireBoundedInt (ofPythonMembers o.modelDump) (lit "rootIndex") 0
      maxMacFilesRootIndex = .ok o.rootIndex := by
    have hle : (o.rootIndex : ℤ) ≤ 7 := by exact_mod_cast Nat.le_of_lt_succ hindex
    exact requireBoundedInt_ofPython rfl ⟨Int.natCast_nonneg _, hle⟩ (by decide)
  have hbounded : ∀ v, requireBoundedString (ofPythonMembers o.modelDump) (lit "name") 1
      maxMacFilesRootNameLength = .ok v ↔ _ := requireBoundedString_iff (s := o.name) rfl
  unfold decodeMacFilesApprovedRoot
  rw [hkeys, Checks.ok_bind, hrootIndex, Checks.ok_bind, Checks.bind_eq_ok]
  simp only [hbounded, hname, true_and, and_assoc, exists_eq_left]
  constructor
  · rintro ⟨hlength, h⟩
    exact ⟨(Except.ok.inj h).symm, hlength⟩
  · rintro ⟨rfl, hlength⟩
    exact ⟨hlength, rfl⟩

theorem kind_mem (kind : FileKind) : ofChars kind.value ∈ macFilesEntryKinds := by
  cases kind <;> decide

/-- The numbers of an entry are those that the phone reads. -/
def MacFilesListEntryOutput.Readable (o : MacFilesListEntryOutput) : Prop :=
  (∀ n ∈ o.sizeBytes, 0 ≤ n ∧ n ≤ 2147483647) ∧
    ∀ n ∈ o.modifiedEpochSeconds, 0 ≤ n ∧ n ≤ 9223372036854775807

theorem requireNotNegative_eq_ok {message : String} {n : Option ℤ} {u : Unit} :
    requireNotNegative message n = .ok u ↔ ∀ m ∈ n, 0 ≤ m :=
  Checks.ite_error_eq_ok.trans (and_iff_left rfl)

theorem decodeMacFilesListEntry_iff {o : MacFilesListEntryOutput}
    (hname : 1 ≤ (ofChars o.name).length) (e : MacFilesListEntry) :
    decodeMacFilesListEntry (ofPythonMembers o.modelDump) = .ok e ↔
      e = o.onPhone ∧ (ofChars o.name).length ≤ maxMacFilesEntryNameLength ∧ o.Readable := by
  have hkeys : requireKeys (ofPythonMembers o.modelDump)
      ["name", "nameTruncated", "kind", "sizeBytes", "modifiedEpochSeconds"] [] = .ok () :=
    requireKeys_ofPython ["name", "nameTruncated", "kind", "sizeBytes", "modifiedEpochSeconds"] rfl
      (by decide) (by decide)
  have hbounded : ∀ v, requireBoundedString (ofPythonMembers o.modelDump) (lit "name") 1
      maxMacFilesEntryNameLength = .ok v ↔ _ := requireBoundedString_iff (s := o.name) rfl
  have htruncated : requireBoolean (ofPythonMembers o.modelDump) (lit "nameTruncated") =
      .ok o.nameTruncated := requireBoolean_ofPython rfl
  have hkind : requireString (ofPythonMembers o.modelDump) (lit "kind") =
      .ok (ofChars o.kind.value) := requireString_ofPython rfl
  have hsize : ∀ v, requireNullableInt (ofPythonMembers o.modelDump) (lit "sizeBytes") = .ok v ↔ _ :=
    requireNullableInt_iff (o := o.sizeBytes) rfl
  have hmodified : ∀ v, requireNullableLong (ofPythonMembers o.modelDump)
      (lit "modifiedEpochSeconds") = .ok v ↔ _ :=
    requireNullableLong_iff (o := o.modifiedEpochSeconds) rfl
  unfold decodeMacFilesListEntry
  simp only [hkeys, htruncated, hkind, Checks.ok_bind, Checks.bind_eq_ok, hbounded, hsize, hmodified,
    requireNotNegative_eq_ok, kind_mem, not_true_eq_false, if_false, hname, true_and, and_assoc,
    exists_eq_left, exists_const]
  constructor
  · rintro ⟨hlength, hbits, hpos, hbits', hpos', h⟩
    exact ⟨(Except.ok.inj h).symm, hlength, fun n hn => ⟨hpos n hn, (hbits n hn).2⟩,
      fun n hn => ⟨hpos' n hn, (hbits' n hn).2⟩⟩
  · rintro ⟨rfl, hlength, hsize, hmodified⟩
    refine ⟨hlength, fun n hn => ?_, fun n hn => (hsize n hn).1, fun n hn => ?_,
      fun n hn => (hmodified n hn).1, rfl⟩
    · have := hsize n hn
      omega
    · have := hmodified n hn
      omega

/-- The output is about bounded names. -/
structure MacFilesListOutput.Sent (o : MacFilesListOutput) : Prop where
  status : o.status = "available".toList
  rootIndex : o.rootIndex < maxApprovedRoots
  rootName : IsBounded maxRootNameChars o.rootName
  approvedRoots_length : o.approvedRoots.length ≤ maxApprovedRoots
  approvedRoots : ∀ r ∈ o.approvedRoots, r.rootIndex < maxApprovedRoots ∧
    IsBounded maxRootNameChars r.name
  entries_length : o.entries.length ≤ maxListEntries
  entries : ∀ e ∈ o.entries, IsDisplayText maxEntryNameChars e.name

theorem decodeMacFilesList_iff {o : MacFilesListOutput} (h : o.Sent) (l : MacFilesList) :
    decodeMacFilesList (ofPythonMembers o.modelDump) = .ok l ↔ l = o.onPhone ∧
      (∀ r ∈ o.approvedRoots, (ofChars r.name).length ≤ maxMacFilesRootNameLength) ∧
      (∀ e ∈ o.entries, (ofChars e.name).length ≤ maxMacFilesEntryNameLength ∧ e.Readable) ∧
      (ofChars o.rootName).length ≤ maxMacFilesRootNameLength ∧
      (ofChars o.relativePath).length ≤ maxMacFilesRelativePathLength := by
  have hkeys : requireKeys (ofPythonMembers o.modelDump)
      ["status", "rootIndex", "rootName", "relativePath", "truncated", "approvedRoots", "entries"] [] =
      .ok () :=
    requireKeys_ofPython
      ["status", "rootIndex", "rootName", "relativePath", "truncated", "approvedRoots", "entries"] rfl
      (by decide) (by decide)
  have hrootsArray : requireArray (ofPythonMembers o.modelDump) (lit "approvedRoots") =
      .ok (ofPythonItems (o.approvedRoots.map fun root => .object root.modelDump)) :=
    requireArray_ofPython rfl
  have hroots : ∀ v, boundedObjects (ofPythonItems (o.approvedRoots.map fun root =>
      .object root.modelDump)) maxMacFilesApprovedRoots (lit "approvedRoots")
      decodeMacFilesApprovedRoot = .ok v ↔ _ :=
    boundedObjects_iff h.approvedRoots_length fun r hr =>
      decodeMacFilesApprovedRoot_iff (h.approvedRoots r hr).1 (h.approvedRoots r hr).2.length_pos
  have hentriesArray : requireArray (ofPythonMembers o.modelDump) (lit "entries") =
      .ok (ofPythonItems (o.entries.map fun entry => .object entry.modelDump)) :=
    requireArray_ofPython rfl
  have hentries : ∀ v, boundedObjects (ofPythonItems (o.entries.map fun entry =>
      .object entry.modelDump)) maxMacFilesListEntries (lit "entries") decodeMacFilesListEntry =
      .ok v ↔ _ :=
    boundedObjects_iff h.entries_length fun e he =>
      decodeMacFilesListEntry_iff (h.entries e he).length_ofChars.1
  have hstatus : requireBoundedString (ofPythonMembers o.modelDump) (lit "status") 1 64 =
      .ok (ofChars o.status) :=
    requireBoundedString_ofPython rfl (by rw [h.status]; decide)
  have hindex : requireBoundedInt (ofPythonMembers o.modelDump) (lit "rootIndex") 0
      maxMacFilesRootIndex = .ok o.rootIndex := by
    have hle : (o.rootIndex : ℤ) ≤ 7 := by exact_mod_cast Nat.le_of_lt_succ h.rootIndex
    exact requireBoundedInt_ofPython rfl ⟨Int.natCast_nonneg _, hle⟩ (by decide)
  have hname : ∀ v, requireBoundedString (ofPythonMembers o.modelDump) (lit "rootName") 1
      maxMacFilesRootNameLength = .ok v ↔ _ := requireBoundedString_iff (s := o.rootName) rfl
  have hpath : ∀ v, requireBoundedString (ofPythonMembers o.modelDump) (lit "relativePath") 0
      maxMacFilesRelativePathLength = .ok v ↔ _ :=
    requireBoundedString_iff (s := o.relativePath) rfl
  have htruncated : requireBoolean (ofPythonMembers o.modelDump) (lit "truncated") =
      .ok o.truncated := requireBoolean_ofPython rfl
  unfold decodeMacFilesList
  simp only [hkeys, hrootsArray, hentriesArray, hstatus, hindex, htruncated, Checks.ok_bind,
    Checks.bind_eq_ok, hroots, hentries, hname, hpath, h.rootName.length_pos, true_and, and_assoc,
    exists_eq_left, Nat.zero_le]
  constructor
  · rintro ⟨hroots, hentries, hname, hpath, heq⟩
    exact ⟨(Except.ok.inj heq).symm, hroots, hentries, hname, hpath⟩
  · rintro ⟨rfl, hroots, hentries, hname, hpath⟩
    exact ⟨hroots, hentries, hname, hpath, rfl⟩

theorem root_matchesToolContract_iff {r : MacFilesApprovedRootOutput}
    (hindex : r.rootIndex < maxApprovedRoots) (hname : IsBounded maxRootNameChars r.name) :
    r.onPhone.matchesToolContract = true ↔ IsShowable maxMacFilesRootNameLength r.name := by
  have hle : (r.rootIndex : ℤ) ≤ 7 := by exact_mod_cast Nat.le_of_lt_succ hindex
  rw [MacFilesApprovedRoot.matchesToolContract, Bool.and_eq_true]
  exact (and_iff_right (inRange_iff.2 ⟨Int.natCast_nonneg _, hle⟩)).trans
    hname.isSafeDisplayField_iff

theorem entry_matchesToolContract {e : MacFilesListEntryOutput}
    (hname : IsDisplayText maxEntryNameChars e.name) (hreadable : e.Readable) :
    e.onPhone.matchesToolContract = true := by
  have hall : ∀ {n : Option ℤ} {bound : ℤ}, (∀ m ∈ n, 0 ≤ m ∧ m ≤ bound) →
      n.all (fun m => decide (0 ≤ m)) = true := by
    intro n bound hn
    cases n with
    | none => rfl
    | some m => exact decide_eq_true (hn m rfl).1
  simp only [MacFilesListEntry.matchesToolContract, Bool.and_eq_true, decide_eq_true_eq]
  exact ⟨⟨⟨hname.isSafeDisplayField, kind_mem _⟩, hall hreadable.1⟩, hall hreadable.2⟩

/-- The phone decodes the listing, and it matches the tool's contract. -/
def ListAcceptedByPhone (output : List (Python.Str × Python.Json)) : Prop :=
  ∃ listing, decodeMacFilesList (ofPythonMembers output) = .ok listing ∧
    listing.matchesToolContract = true

theorem listAcceptedByPhone_iff {o : MacFilesListOutput} (h : o.Sent) {p : RelativePath}
    (hp : o.relativePath = p.val) : ListAcceptedByPhone o.modelDump ↔
      (∀ e ∈ o.entries, e.Readable) ∧
      (∀ r ∈ o.approvedRoots, IsShowable maxMacFilesRootNameLength r.name) ∧
      IsShowable maxMacFilesRootNameLength o.rootName ∧
      IsShowable maxMacFilesRelativePathLength o.relativePath := by
  have hstatus : isSafeDisplayField (ofChars o.status) 64 = true := by
    rw [h.status]
    decide
  have hindex : inRange 0 maxMacFilesRootIndex o.rootIndex = true := by
    have hle : (o.rootIndex : ℤ) ≤ 7 := by exact_mod_cast Nat.le_of_lt_succ h.rootIndex
    exact inRange_iff.2 ⟨Int.natCast_nonneg _, hle⟩
  have hroots : (∀ r ∈ o.onPhone.approvedRoots, r.matchesToolContract = true) ↔
      ∀ r ∈ o.approvedRoots, IsShowable maxMacFilesRootNameLength r.name := by
    rw [MacFilesListOutput.onPhone, List.forall_mem_map]
    exact forall₂_congr fun r hr =>
      root_matchesToolContract_iff (h.approvedRoots r hr).1 (h.approvedRoots r hr).2
  have hcontract : o.onPhone.matchesToolContract = true ↔
      isSafeDisplayField (ofChars o.rootName) maxMacFilesRootNameLength = true ∧
      (ofChars o.relativePath).length ≤ maxMacFilesRelativePathLength ∧
      isSafeMacFilesRelativePath (ofChars o.relativePath) = true ∧
      (∀ r ∈ o.approvedRoots, IsShowable maxMacFilesRootNameLength r.name) ∧
      ∀ e ∈ o.onPhone.entries, e.matchesToolContract = true := by
    have hrootsLength : o.onPhone.approvedRoots.length ≤ maxMacFilesApprovedRoots := by
      rw [MacFilesListOutput.onPhone, List.length_map]
      exact h.approvedRoots_length
    have hentriesLength : o.onPhone.entries.length ≤ maxMacFilesListEntries := by
      rw [MacFilesListOutput.onPhone, List.length_map]
      exact h.entries_length
    unfold MacFilesList.matchesToolContract
    simp only [Bool.and_eq_true, decide_eq_true_eq, List.all_eq_true, hroots, and_assoc]
    constructor
    · rintro ⟨-, -, hname, hlength, hpath, -, hroots, -, hentries⟩
      exact ⟨hname, hlength, hpath, hroots, hentries⟩
    · rintro ⟨hname, hlength, hpath, hroots, hentries⟩
      exact ⟨hstatus, hindex, hname, hlength, hpath, hrootsLength, hroots, hentriesLength, hentries⟩
  rw [h.rootName.isSafeDisplayField_iff, hp, isSafeMacFilesRelativePath_iff, ← hp] at hcontract
  constructor
  · rintro ⟨listing, hdecode, hmatches⟩
    obtain ⟨rfl, -, hentries, -, -⟩ := (decodeMacFilesList_iff h listing).1 hdecode
    obtain ⟨hname, -, hpath, hroots, -⟩ := hcontract.1 hmatches
    exact ⟨fun e he => (hentries e he).2, hroots, hname, hpath⟩
  · rintro ⟨hentries, hroots, hname, hpath⟩
    refine ⟨o.onPhone, (decodeMacFilesList_iff h _).2 ⟨rfl, fun r hr => (hroots r hr).1,
      fun e he => ⟨(h.entries e he).length_ofChars.2, hentries e he⟩, hname.1, hpath.1⟩,
      hcontract.2 ⟨hname, hpath.1, hpath, hroots, ?_⟩⟩
    rw [MacFilesListOutput.onPhone, List.forall_mem_map]
    exact fun e he => entry_matchesToolContract (h.entries e he) (hentries e he)

theorem listEntry_readable_iff {name : Python.Str} {stat : StatResult} :
    (listEntry name stat).Readable ↔ (stat.mode = .file → stat.size ≤ 2147483647) ∧
      0 ≤ stat.mtime ∧ stat.mtime ≤ 9223372036854775807 := by
  have hmtime : (∀ n ∈ some stat.mtime, 0 ≤ n ∧ n ≤ 9223372036854775807) ↔
      0 ≤ stat.mtime ∧ stat.mtime ≤ 9223372036854775807 := by simp
  refine and_congr ?_ hmtime
  by_cases hfile : stat.mode = .file
  · have hsize : (listEntry name stat).sizeBytes = some (stat.size : ℤ) := if_pos hfile
    rw [hsize]
    constructor
    · intro h _
      exact_mod_cast (h _ rfl).2
    · intro h n hn
      obtain rfl := Option.some.inj hn
      exact ⟨Int.natCast_nonneg _, by exact_mod_cast h hfile⟩
  · have hsize : (listEntry name stat).sizeBytes = none := if_neg hfile
    rw [hsize]
    exact ⟨fun _ h => absurd h hfile, fun _ n hn => absurd hn.symm (Option.some_ne_none n)⟩

theorem isDisplayText_unnamed {limit : ℕ} (h : 7 ≤ limit) :
    IsDisplayText limit "unnamed".toList where
  printable := by decide
  ne_nil := by decide
  head := unnamed_head
  length_le := h

/-- **Listings of printable names.** The phone takes a listing when it has the sizes and times that it
reads, and when the names of the roots and the path of the request are showable. -/
theorem listAcceptedByPhone_listing {Fd : Type} {fs : FileSystem Fd}
    {casefold : Python.Str → Python.Str} {paths : List RootDirectory}
    {roots : List ApprovedMacFilesRoot} {request : MacFilesListInput} {root : ApprovedMacFilesRoot}
    {target : Python.Path} {names : List Python.Str} {output : List (Python.Str × Python.Json)}
    (hroots : approvedRoots "mac.files.list" paths = .ok roots)
    (hroot : rootForIndex request.rootIndex roots = .ok root)
    (htarget : safeTarget fs root.path request.relativePath.val = .ok target)
    (hiterdir : fs.iterdir target = some names) (hnames : ∀ name ∈ names, Printable name)
    (hmtime : ∀ name ∈ names, ∀ stat, fs.stat ⟨target.parts ++ [name]⟩ = some stat → 0 ≤ stat.mtime)
    (houtput : listMacFiles fs casefold request roots = .ok output) :
    ListAcceptedByPhone output ↔
      (∀ name ∈ shownNames casefold request names, ∀ stat,
        fs.stat ⟨target.parts ++ [name]⟩ = some stat →
          (stat.mode = .file → stat.size ≤ 2147483647) ∧ stat.mtime ≤ 9223372036854775807) ∧
      (∀ r ∈ roots, IsShowable maxMacFilesRootNameLength r.name) ∧
      IsShowable maxMacFilesRelativePathLength request.relativePath.val := by
  obtain ⟨root', target', names', shown, hroot', htarget', -, hiterdir', hshown, hstat, rfl⟩ :=
    listMacFiles_ok houtput
  obtain rfl : root = root' := Except.ok.inj (hroot.symm.trans hroot')
  obtain rfl : target = target' := Except.ok.inj (htarget.symm.trans htarget')
  obtain rfl : names = names' := Option.some.inj (hiterdir.symm.trans hiterdir')
  have happroved := approvedRoots_ok hroots
  have hmem := mem_of_rootForIndex hroot
  have hlisted : ∀ item ∈ shown, item.1 ∈ names := by
    intro item hitem
    have hname : item.1 ∈ shownNames casefold request names := by
      rw [← hshown]
      exact List.mem_map_of_mem hitem
    exact mem_of_mem_shownNames hname
  have hsent : (listOutput casefold request root roots names shown).Sent := by
    constructor
    case status => rfl
    case rootIndex => exact happroved.index_lt root hmem
    case rootName => exact happroved.name root hmem
    case approvedRoots_length => exact (List.length_map _).trans_le happroved.length_le
    case approvedRoots =>
      rintro _ hr
      obtain ⟨item, hitem, rfl⟩ := List.mem_map.1 hr
      exact ⟨happroved.index_lt item hitem, happroved.name item hitem⟩
    case entries_length =>
      have hlength : (listOutput casefold request root roots names shown).entries.length =
          (shownNames casefold request names).length := by
        rw [← hshown, List.length_map]
        exact List.length_map _
      rw [hlength]
      exact (List.length_take_le _ _).trans request.maxEntries_le
    case entries =>
      rintro _ he
      obtain ⟨item, hitem, rfl⟩ := List.mem_map.1 he
      exact isDisplayText_boundedText (isDisplayText_unnamed (by decide)) (hnames _ (hlisted item hitem))
  rw [listAcceptedByPhone_iff hsent (p := request.relativePath) rfl]
  have hentries : (∀ e ∈ (listOutput casefold request root roots names shown).entries, e.Readable) ↔
      ∀ name ∈ shownNames casefold request names, ∀ stat,
        fs.stat ⟨target.parts ++ [name]⟩ = some stat →
          (stat.mode = .file → stat.size ≤ 2147483647) ∧ stat.mtime ≤ 9223372036854775807 := by
    constructor
    · intro h name hname stat hfound
      rw [← hshown] at hname
      obtain ⟨item, hitem, rfl⟩ := List.mem_map.1 hname
      obtain rfl : item.2 = stat := Option.some.inj ((hstat item hitem).symm.trans hfound)
      obtain ⟨hsize, -, hmax⟩ := listEntry_readable_iff.1 (h _ (List.mem_map_of_mem hitem))
      exact ⟨hsize, hmax⟩
    · rintro h _ he
      obtain ⟨item, hitem, rfl⟩ := List.mem_map.1 he
      have hname : item.1 ∈ shownNames casefold request names := by
        rw [← hshown]
        exact List.mem_map_of_mem hitem
      obtain ⟨hsize, hmax⟩ := h item.1 hname item.2 (hstat item hitem)
      exact listEntry_readable_iff.2
        ⟨hsize, hmtime item.1 (hlisted item hitem) item.2 (hstat item hitem), hmax⟩
  have hnamesOfRoots : (∀ r ∈ (listOutput casefold request root roots names shown).approvedRoots,
      IsShowable maxMacFilesRootNameLength r.name) ↔
      ∀ r ∈ roots, IsShowable maxMacFilesRootNameLength r.name :=
    List.forall_mem_map
  rw [hentries, hnamesOfRoots]
  constructor
  · rintro ⟨hread, hshowable, -, hpath⟩
    exact ⟨hread, hshowable, hpath⟩
  · rintro ⟨hread, hshowable, hpath⟩
    exact ⟨hread, hshowable, hshowable root hmem, hpath⟩

/-! ### A large file -/

theorem small_file_is_accepted : ListAcceptedByPhone (demoListOutput 1000).modelDump := by
  have hroots : approvedRoots "mac.files.list" [demoDirectory] = .ok [demoRoot] := rfl
  have hroot : rootForIndex demoListing.rootIndex [demoRoot] = .ok demoRoot := rfl
  have htarget : safeTarget (demoSystem 1000) demoRoot.path demoListing.relativePath.val =
      .ok demoRoot.path := rfl
  have hiterdir : (demoSystem 1000).iterdir demoRoot.path = some ["movie.mov".toList] := rfl
  have hstat : ∀ name stat, (demoSystem 1000).stat ⟨demoRoot.path.parts ++ [name]⟩ = some stat →
      stat = ⟨.file, 1000, 1752422400⟩ := fun name stat h => (Option.some.inj h).symm
  refine (listAcceptedByPhone_listing hroots hroot htarget hiterdir (by decide)
    (fun name _ stat h => by rw [hstat name stat h]; decide) (listMacFiles_demo 1000)).2
    ⟨fun name _ stat h => by rw [hstat name stat h]; decide, by decide, by decide⟩

/-- **A file of 3 GiB.** The phone reads sizes as numbers of 32 bits, and refuses the listing. -/
theorem large_file_is_rejected :
    listMacFiles (demoSystem 3221225472) id demoListing [demoRoot] =
      .ok (demoListOutput 3221225472).modelDump ∧
    ¬ ListAcceptedByPhone (demoListOutput 3221225472).modelDump := by
  refine ⟨listMacFiles_demo _, ?_⟩
  rintro ⟨listing, hdecode, -⟩
  have herror : decodeMacFilesList (ofPythonMembers (demoListOutput 3221225472).modelDump) =
      .error (lit "sizeBytes must be an integer or null") := rfl
  rw [herror] at hdecode
  exact absurd hdecode (by simp)

end GoffyHub.MacFiles
