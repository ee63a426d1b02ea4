import GoffyOs.Hub.GitStatus

/-!
# What `git status --porcelain=v2 --branch` prints

A `StatusReport` is what Git prints about a repository whose names are printable ASCII: header lines that
start with `#`, and one line for each changed, unmerged or untracked path. The texts in it are those that
Git prints, where a name that holds a quote or a backslash is quoted.

`parsePorcelainV2_text` is what the Hub's parser makes of every report.
-/

namespace GoffyHub.GitTool

open Python

-- `decide` looks at the members of a list one by one
attribute [local instance (high)] List.decidableBAll

/-! ### Texts -/

/-- A text of printable ASCII. -/
structure AsciiText where
  val : Str
  printable : Printable val

/-- A word of printable ASCII. -/
structure AsciiWord where
  val : Str
  ne_nil : val ≠ []
  printable : ∀ c ∈ val, isPrintable c = true ∧ c ≠ ' '

section Printable

variable {c : Char}

theorem isLineBreak_of_isPrintable (hc : isPrintable c = true) : isLineBreak c = false := by
  rw [isPrintable_iff] at hc
  simp only [isLineBreak, Bool.or_eq_false_iff, Bool.and_eq_false_iff, decide_eq_false_iff_not,
    beq_eq_false_iff_ne]
  omega

theorem isControl_of_isPrintable (hc : isPrintable c = true) : isControl c = false := by
  rw [isPrintable_iff] at hc
  simp only [isControl, decide_eq_false_iff_not]
  omega

theorem AsciiWord.isWord (w : AsciiWord) : IsWord w.val := by
  refine ⟨w.ne_nil, fun c hc => ?_⟩
  obtain ⟨hprintable, hne⟩ := w.printable c hc
  by_contra h
  exact hne ((isSpace_of_isPrintable hprintable).1 (by simpa using h))

end Printable

/-! ### Entries -/

/-- The codes of a changed path. -/
def changedCodes : List Char := ".MTADRC".toList

/-- The codes of an unmerged path. -/
def unmergedCodes : List Char := "DAU".toList

/-- `1 <XY> <sub> <mH> <mI> <mW> <hH> <hI> <path>`. -/
structure ChangedEntry where
  x : Char
  y : Char
  fields : List AsciiWord
  path : AsciiText
  x_mem : x ∈ changedCodes
  y_mem : y ∈ changedCodes
  changed : x ≠ '.' ∨ y ≠ '.'
  length_fields : fields.length = 6

/-- `u <XY> <sub> <m1> <m2> <m3> <mW> <h1> <h2> <h3> <path>`. -/
structure UnmergedEntry where
  x : Char
  y : Char
  fields : List AsciiWord
  path : AsciiText
  x_mem : x ∈ unmergedCodes
  y_mem : y ∈ unmergedCodes
  length_fields : fields.length = 8

inductive StatusEntry
  | changed (e : ChangedEntry)
  | unmerged (e : UnmergedEntry)
  | untracked (path : AsciiText)

/-- The line of an entry with these words and this path. -/
def entryLine (words : List Str) (path : AsciiText) : Str := unwords words ++ path.val

def ChangedEntry.words (e : ChangedEntry) : List Str :=
  ['1'] :: [e.x, e.y] :: e.fields.map (·.val)

def UnmergedEntry.words (e : UnmergedEntry) : List Str :=
  ['u'] :: [e.x, e.y] :: e.fields.map (·.val)

def StatusEntry.line : StatusEntry → Str
  | .changed e => entryLine e.words e.path
  | .unmerged e => entryLine e.words e.path
  | .untracked path => entryLine [['?']] path

/-- A path of spaces only is lost, and the spaces before another one are. -/
def changeAt (path : AsciiText) (x y : Char) (kind : GitStatusKind) : Option GitChange :=
  if path.val.dropWhile isSpace = [] then none
  else some ⟨path.val.dropWhile isSpace, x, y, kind⟩

/-- What the Hub reads of an entry. -/
def StatusEntry.change? : StatusEntry → Option GitChange
  | .changed e => changeAt e.path e.x e.y .tracked
  | .unmerged e => changeAt e.path e.x e.y .conflict
  | .untracked path => some ⟨path.val, '?', '?', .untracked⟩

/-! ### Reports -/

/-- The commits that the branch is ahead of its upstream and behind it. -/
structure AheadBehind where
  ahead : ℕ
  behind : ℕ

structure StatusReport where
  oid : AsciiText
  head : AsciiText
  upstream : Option AsciiText
  aheadBehind : Option AheadBehind
  /-- the number of entries of the stash, which is printed when `status.showStash` is set -/
  stash : Option ℕ
  entries : List StatusEntry

def AheadBehind.line (ab : AheadBehind) : Str :=
  aheadBehindPrefix ++ '+' :: natStr ab.ahead ++ ' ' :: '-' :: natStr ab.behind

def stashLine (n : ℕ) : Str := "# stash ".toList ++ natStr n

def StatusReport.lines (r : StatusReport) : List Str :=
  [oidPrefix ++ r.oid.val, headPrefix ++ r.head.val] ++
    (r.upstream.map fun u => upstreamPrefix ++ u.val).toList ++
    (r.aheadBehind.map (·.line)).toList ++ (r.stash.map stashLine).toList ++
    r.entries.map (·.line)

/-- What Git prints. -/
def StatusReport.text (r : StatusReport) : Str := unlines r.lines

/-- Python reads no more digits. -/
def AheadBehind.readable (ab : AheadBehind) : Prop :=
  (natStr ab.ahead).length ≤ 4300 ∧ (natStr ab.behind).length ≤ 4300

instance (ab : AheadBehind) : Decidable ab.readable := inferInstanceAs (Decidable (_ ∧ _))

/-- What the Hub reads of a report. -/
def StatusReport.status (r : StatusReport) : GitStatus where
  headOidShort := shortOid (strip r.oid.val)
  branch := headBranch (strip r.head.val)
  upstream := r.upstream.map fun u => boundedRequiredText (strip u.val) maxUpstreamNameChars
  ahead := (r.aheadBehind.filter (·.readable)).map fun ab => (ab.ahead : ℤ)
  behind := (r.aheadBehind.filter (·.readable)).map fun ab => (ab.behind : ℤ)
  changes := r.entries.filterMap (·.change?)

/-! ### The lines of a report -/

section Lines

variable {t : Str} {c : Char}

theorem printable_unwords {words : List Str} (h : ∀ w ∈ words, Printable w) :
    Printable (unwords words) := by
  intro c hc
  obtain ⟨w, hw, hc⟩ := List.mem_flatMap.1 hc
  exact (h w hw).append (by decide) c hc

/-- The words of an entry's line. -/
theorem isWord_of_mem {x y tag : Char} {fields : List AsciiWord} {w : Str}
    (htag : IsWord [tag] ∧ Printable [tag]) (hcode : IsWord [x, y] ∧ Printable [x, y])
    (hw : w ∈ [tag] :: [x, y] :: fields.map (·.val)) : IsWord w ∧ Printable w := by
  rcases List.mem_cons.1 hw with rfl | hw
  · exact htag
  rcases List.mem_cons.1 hw with rfl | hw
  · exact hcode
  · obtain ⟨field, -, rfl⟩ := List.mem_map.1 hw
    exact ⟨field.isWord, fun c hc => (field.printable c hc).1⟩

theorem code_of_mem {codes : List Char} (hcodes : ∀ c ∈ codes, ∀ d ∈ codes,
    IsWord [c, d] ∧ Printable [c, d]) {x y : Char} (hx : x ∈ codes) (hy : y ∈ codes) :
    IsWord [x, y] ∧ Printable [x, y] := hcodes x hx y hy

theorem ChangedEntry.isWord (e : ChangedEntry) {w : Str} (hw : w ∈ e.words) :
    IsWord w ∧ Printable w :=
  isWord_of_mem (by decide) (code_of_mem (by decide) e.x_mem e.y_mem) hw

theorem UnmergedEntry.isWord (e : UnmergedEntry) {w : Str} (hw : w ∈ e.words) :
    IsWord w ∧ Printable w :=
  isWord_of_mem (by decide) (code_of_mem (by decide) e.x_mem e.y_mem) hw

theorem StatusEntry.printable_line (e : StatusEntry) : Printable e.line := by
  cases e with
  | changed e =>
    exact (printable_unwords fun w hw => (e.isWord hw).2).append e.path.printable
  | unmerged e =>
    exact (printable_unwords fun w hw => (e.isWord hw).2).append e.path.printable
  | untracked path =>
    have htag : ∀ w ∈ [['?']], Printable w := by decide
    exact (printable_unwords htag).append path.printable

theorem AheadBehind.printable_line (ab : AheadBehind) : Printable ab.line := by
  have hahead : Printable ('+' :: natStr ab.ahead) :=
    Printable.append (s := ['+']) (by decide) (printable_natStr _)
  have hbehind : Printable (' ' :: '-' :: natStr ab.behind) :=
    Printable.append (s := [' ', '-']) (by decide) (printable_natStr _)
  have hline : ab.line =
      aheadBehindPrefix ++ (('+' :: natStr ab.ahead) ++ (' ' :: '-' :: natStr ab.behind)) := rfl
  rw [hline]
  exact Printable.append (by decide) (hahead.append hbehind)

theorem StatusReport.printable_lines (r : StatusReport) : ∀ line ∈ r.lines, Printable line := by
  intro line hline
  simp only [StatusReport.lines, List.cons_append, List.nil_append, List.mem_cons, List.mem_append,
    Option.mem_toList, Option.map_eq_some_iff, List.mem_map] at hline
  rcases hline with rfl | rfl | ((⟨u, -, rfl⟩ | ⟨ab, -, rfl⟩) | ⟨n, -, rfl⟩) | ⟨e, -, rfl⟩
  · exact Printable.append (by decide) r.oid.printable
  · exact Printable.append (by decide) r.head.printable
  · exact Printable.append (by decide) u.printable
  · exact ab.printable_line
  · exact Printable.append (by decide) (printable_natStr n)
  · exact e.printable_line

theorem splitlines_text (r : StatusReport) : splitlines r.text = r.lines :=
  splitlines_unlines fun line hline c hc =>
    isLineBreak_of_isPrintable (r.printable_lines line hline c hc)

end Lines

/-! ### What the parser makes of them -/

section Parse

variable {status : GitStatus}

/-- The words of a line with a path after them. -/
theorem splitMax_words {words : List Str} (hwords : ∀ w ∈ words, IsWord w) {k : ℕ}
    (hlength : words.length = k) (path : Str) : splitMax k (unwords words ++ path) =
      words ++ if path.dropWhile isSpace = [] then [] else [path.dropWhile isSpace] := by
  have h := splitMax_unwords hwords 0 path
  rw [hlength, Nat.add_zero] at h
  exact h

/-- The change on such a line. -/
theorem changeOfParts_words {tag : Str} {x y : Char} {fields : List AsciiWord} {count : ℕ}
    (hcount : fields.length + 3 = count) (path : Str) (kind : GitStatusKind) :
    changeOfParts count kind (tag :: [x, y] :: fields.map (·.val) ++
      if path.dropWhile isSpace = [] then [] else [path.dropWhile isSpace]) =
      if path.dropWhile isSpace = [] then none
      else some ⟨path.dropWhile isSpace, x, y, kind⟩ := by
  unfold changeOfParts
  by_cases hblank : path.dropWhile isSpace = []
  · have hlength : (tag :: [x, y] :: fields.map (·.val)).length ≠ count := by
      simp only [List.length_cons, List.length_map]
      omega
    rw [if_pos hblank, if_pos hblank, List.append_nil, if_pos hlength]
  · have hlength : ¬ (tag :: [x, y] :: fields.map (·.val) ++
        [path.dropWhile isSpace]).length ≠ count := by
      simp only [List.length_append, List.length_cons, List.length_map, List.length_nil]
      omega
    rw [if_neg hblank, if_neg hblank, if_neg hlength, List.getLast?_concat]
    rfl

theorem parseChangeLine_line (e : StatusEntry) : parseChangeLine e.line = e.change? := by
  cases e with
  | changed e =>
    have hlength : e.words.length = 8 := by simp [ChangedEntry.words, e.length_fields]
    have hline : parseChangeLine (entryLine e.words e.path) =
        changeOfParts 9 .tracked (splitMax 8 (entryLine e.words e.path)) := rfl
    rw [StatusEntry.line, hline, entryLine, splitMax_words (fun w hw => (e.isWord hw).1) hlength]
    exact changeOfParts_words (by rw [e.length_fields]) e.path.val .tracked
  | unmerged e =>
    have hlength : e.words.length = 10 := by simp [UnmergedEntry.words, e.length_fields]
    have hline : parseChangeLine (entryLine e.words e.path) =
        changeOfParts 11 .conflict (splitMax 10 (entryLine e.words e.path)) := rfl
    rw [StatusEntry.line, hline, entryLine, splitMax_words (fun w hw => (e.isWord hw).1) hlength]
    exact changeOfParts_words (by rw [e.length_fields]) e.path.val .conflict
  | untracked path => rfl

/-- A line that is no header is read as a change. -/
theorem parseLine_change {c : Char} (hc : c ≠ '#') (t : Str) : parseLine status (c :: t) =
    { status with changes := status.changes ++ (parseChangeLine (c :: t)).toList } := by
  have hheader : ∀ p : Str, startswith (c :: t) ('#' :: p) = false := by
    intro p
    show ('#' == c && p.isPrefixOf t) = false
    rw [beq_eq_false_iff_ne.2 hc.symm, Bool.false_and]
  have hoid : startswith (c :: t) oidPrefix = false := hheader _
  have hhead : startswith (c :: t) headPrefix = false := hheader _
  have hupstream : startswith (c :: t) upstreamPrefix = false := hheader _
  have hahead : startswith (c :: t) aheadBehindPrefix = false := hheader _
  have hother : ¬ (c :: t = [] ∨ startswith (c :: t) ['#'] = true) := by simp [hheader]
  unfold parseLine
  rw [hoid, hhead, hupstream, hahead, if_neg hother]
  cases parseChangeLine (c :: t) with
  | none => simp
  | some change => rfl

/-- A line that is no header adds its change. -/
theorem parseLine_entry (e : StatusEntry) : parseLine status e.line =
    { status with changes := status.changes ++ e.change?.toList } := by
  have hline : parseLine status e.line =
      { status with changes := status.changes ++ (parseChangeLine e.line).toList } := by
    cases e <;> exact parseLine_change (by decide) _
  rw [hline, parseChangeLine_line]

theorem foldl_entries (entries : List StatusEntry) : (entries.map (·.line)).foldl parseLine status =
    { status with changes := status.changes ++ entries.filterMap (·.change?) } := by
  induction entries generalizing status with
  | nil => simp
  | cons e entries ih =>
    rw [List.map_cons, List.foldl_cons, parseLine_entry, ih]
    cases h : e.change? with
    | none => simp [h]
    | some change => simp [h]

theorem parseLine_oid (t : Str) : parseLine status (oidPrefix ++ t) =
    { status with headOidShort := shortOid (strip t) } := by
  rw [parseLine, if_pos (startswith_append _ _), removeprefix_append]

theorem parseLine_head (t : Str) : parseLine status (headPrefix ++ t) =
    { status with branch := headBranch (strip t) } := by
  have hoid : startswith (headPrefix ++ t) oidPrefix = false := rfl
  rw [parseLine, hoid, if_neg Bool.false_ne_true, if_pos (startswith_append _ _),
    removeprefix_append]

theorem parseLine_upstream (t : Str) : parseLine status (upstreamPrefix ++ t) =
    { status with upstream := some (boundedRequiredText (strip t) maxUpstreamNameChars) } := by
  have hoid : startswith (upstreamPrefix ++ t) oidPrefix = false := rfl
  have hhead : startswith (upstreamPrefix ++ t) headPrefix = false := rfl
  rw [parseLine, hoid, if_neg Bool.false_ne_true, hhead, if_neg Bool.false_ne_true,
    if_pos (startswith_append _ _), removeprefix_append]

theorem parseLine_stash (n : ℕ) : parseLine status (stashLine n) = status := rfl

theorem isWord_natStr (n : ℕ) : IsWord (natStr n) := by
  refine ⟨fun h => ?_, fun c hc => ?_⟩
  · have hdigits : (Nat.toDigits 10 n).length ≠ 0 := by simp
    exact hdigits (by rw [show Nat.toDigits 10 n = [] from h]; rfl)
  · have h48 := toNat_of_mem_natStr hc
    simp only [isSpace, Bool.or_eq_false_iff, Bool.and_eq_false_iff, decide_eq_false_iff_not,
      beq_eq_false_iff_ne]
    omega

theorem isWord_cons {c : Char} {w : Str} (hc : isSpace c = false) (hw : IsWord w) :
    IsWord (c :: w) := by
  refine ⟨List.cons_ne_nil c w, fun d hd => ?_⟩
  rcases List.mem_cons.1 hd with rfl | hd
  · exact hc
  · exact hw.2 d hd

theorem split_line (ab : AheadBehind) : split ab.line =
    [['#'], "branch.ab".toList, '+' :: natStr ab.ahead, '-' :: natStr ab.behind] := by
  have hahead : IsWord ('+' :: natStr ab.ahead) := isWord_cons (by decide) (isWord_natStr _)
  have hbehind : IsWord ('-' :: natStr ab.behind) := isWord_cons (by decide) (isWord_natStr _)
  have hwords : ∀ w ∈ [['#'], "branch.ab".toList, '+' :: natStr ab.ahead], IsWord w := by
    intro w hw
    rcases List.mem_cons.1 hw with rfl | hw
    · decide
    rcases List.mem_cons.1 hw with rfl | hw
    · decide
    · rw [List.mem_singleton.1 hw]
      exact hahead
  have hline : ab.line = unwords [['#'], "branch.ab".toList, '+' :: natStr ab.ahead] ++
      ('-' :: natStr ab.behind) := by
    have hpre : aheadBehindPrefix = unwords [['#'], "branch.ab".toList] := by decide
    rw [AheadBehind.line, hpre]
    simp only [unwords, List.flatMap_cons, List.flatMap_nil, List.append_assoc, List.cons_append,
      List.nil_append, List.append_nil]
  have hlength : 3 ≤ ab.line.length := by
    simp only [AheadBehind.line, List.length_append, List.length_cons]
    omega
  obtain ⟨k, hk⟩ := Nat.exists_eq_add_of_le hlength
  rw [split, hk, hline]
  exact (splitMax_unwords hwords k _).trans (by rw [splitMax_last hbehind]; rfl)

theorem parseAheadBehind_line (ab : AheadBehind) : parseAheadBehind ab.line =
    if ab.readable then (some (ab.ahead : ℤ), some (ab.behind : ℤ)) else (none, none) := by
  have hplus : removePrefix ('+' :: natStr ab.ahead) ['+'] = natStr ab.ahead := rfl
  have hminus : removePrefix ('-' :: natStr ab.behind) ['-'] = natStr ab.behind := rfl
  rw [parseAheadBehind, split_line]
  dsimp only
  rw [hplus, hminus, parseInt_natStr_eq, parseInt_natStr_eq]
  by_cases hahead : 4300 < (natStr ab.ahead).length
  · have hnot : ¬ ab.readable := fun h => not_le.2 hahead h.1
    rw [if_neg hnot, if_pos hahead]
  · by_cases hbehind : 4300 < (natStr ab.behind).length
    · have hnot : ¬ ab.readable := fun h => not_le.2 hbehind h.2
      rw [if_neg hnot, if_neg hahead, if_pos hbehind]
    · have hreadable : ab.readable := ⟨not_lt.1 hahead, not_lt.1 hbehind⟩
      rw [if_pos hreadable, if_neg hahead, if_neg hbehind]
      simp

theorem parseLine_aheadBehind (ab : AheadBehind) : parseLine status ab.line =
    { status with
      ahead := if ab.readable then some (ab.ahead : ℤ) else none
      behind := if ab.readable then some (ab.behind : ℤ) else none } := by
  have hline : parseLine status ab.line =
      { status with ahead := (parseAheadBehind ab.line).1, behind := (parseAheadBehind ab.line).2 } :=
    rfl
  rw [hline, parseAheadBehind_line]
  split <;> rfl

end Parse

/-- **Reports read back.** -/
theorem parsePorcelainV2_text (r : StatusReport) : parsePorcelainV2 r.text = r.status := by
  rw [parsePorcelainV2, splitlines_text, StatusReport.lines]
  simp only [List.foldl_append, List.foldl_cons, List.foldl_nil, parseLine_oid, parseLine_head,
    foldl_entries]
  unfold StatusReport.status
  cases hupstream : r.upstream with
  | none =>
    cases hab : r.aheadBehind with
    | none => cases r.stash <;> simp [parseLine_stash]
    | some ab =>
      by_cases hreadable : ab.readable <;> cases r.stash <;>
        simp [parseLine_stash, parseLine_aheadBehind, hreadable, Option.filter]
  | some u =>
    cases hab : r.aheadBehind with
    | none => cases r.stash <;> simp [parseLine_stash, parseLine_upstream]
    | some ab =>
      by_cases hreadable : ab.readable <;> cases r.stash <;>
        simp [parseLine_stash, parseLine_upstream, parseLine_aheadBehind, hreadable, Option.filter]

/-! ### The changes of a report -/

/-- The codes of a change are those of its kind. -/
def GitChange.HasCodes (c : GitChange) : Prop :=
  match c.kind with
  | .tracked => c.indexStatus ∈ changedCodes ∧ c.workingTreeStatus ∈ changedCodes ∧
      (c.indexStatus ≠ '.' ∨ c.workingTreeStatus ≠ '.')
  | .untracked => c.indexStatus = '?' ∧ c.workingTreeStatus = '?'
  | .conflict => c.indexStatus ∈ unmergedCodes ∧ c.workingTreeStatus ∈ unmergedCodes

theorem changeAt_eq_some {path : AsciiText} {x y : Char} {kind : GitStatusKind} {c : GitChange}
    (h : changeAt path x y kind = some c) : c = ⟨path.val.dropWhile isSpace, x, y, kind⟩ := by
  unfold changeAt at h
  split at h
  · exact absurd h.symm (Option.some_ne_none c)
  · exact (Option.some.inj h).symm

theorem StatusEntry.hasCodes {e : StatusEntry} {c : GitChange} (h : e.change? = some c) :
    c.HasCodes ∧ Printable c.path := by
  have hdrop : ∀ path : AsciiText, Printable (path.val.dropWhile isSpace) := fun path d hd =>
    path.printable d ((List.dropWhile_sublist isSpace).subset hd)
  cases e with
  | changed e =>
    rw [changeAt_eq_some h]
    exact ⟨⟨e.x_mem, e.y_mem, e.changed⟩, hdrop e.path⟩
  | unmerged e =>
    rw [changeAt_eq_some h]
    exact ⟨⟨e.x_mem, e.y_mem⟩, hdrop e.path⟩
  | untracked path =>
    rw [← Option.some.inj h]
    exact ⟨⟨rfl, rfl⟩, path.printable⟩

theorem StatusReport.hasCodes (r : StatusReport) {c : GitChange} (hc : c ∈ r.status.changes) :
    c.HasCodes ∧ Printable c.path := by
  obtain ⟨e, -, he⟩ := List.mem_filterMap.1 hc
  exact e.hasCodes he

theorem printable_strip {s : Str} (h : Printable s) : Printable (strip s) :=
  fun c hc => h c (mem_of_mem_trim hc)

/-- The texts that the Hub reads are printable, and its numbers natural. -/
structure GitStatus.IsPrintable (status : GitStatus) : Prop where
  branch : ∀ s ∈ status.branch, Printable s
  headOidShort : ∀ s ∈ status.headOidShort, Printable s
  upstream : ∀ s ∈ status.upstream, Printable s
  ahead : ∀ n ∈ status.ahead, 0 ≤ n
  behind : ∀ n ∈ status.behind, 0 ≤ n

theorem StatusReport.printable_status (r : StatusReport) : r.status.IsPrintable := by
  have hbounded : ∀ (s : Str) (limit : ℕ), Printable s → Printable (boundedRequiredText s limit) :=
    fun s limit hs => printable_boundedText (by decide) hs
  constructor
  case branch =>
    intro s hs
    change headBranch _ = some s at hs
    unfold headBranch at hs
    split at hs
    · exact absurd hs.symm (Option.some_ne_none s)
    · rw [← Option.some.inj hs]
      exact hbounded _ _ (printable_strip r.head.printable)
  case headOidShort =>
    intro s hs
    change shortOid _ = some s at hs
    unfold shortOid at hs
    split at hs
    · exact absurd hs.symm (Option.some_ne_none s)
    · rw [← Option.some.inj hs]
      exact fun c hc => printable_strip r.oid.printable c (List.mem_of_mem_take hc)
  case upstream =>
    intro s hs
    obtain ⟨u, -, rfl⟩ := Option.map_eq_some_iff.1 hs
    exact hbounded _ _ (printable_strip u.printable)
  case ahead =>
    intro n hn
    obtain ⟨ab, -, rfl⟩ := Option.map_eq_some_iff.1 hn
    exact Int.natCast_nonneg _
  case behind =>
    intro n hn
    obtain ⟨ab, -, rfl⟩ := Option.map_eq_some_iff.1 hn
    exact Int.natCast_nonneg _

/-- Each change takes a line of the report. -/
theorem StatusReport.length_changes_le (r : StatusReport) :
    3 * r.status.changes.length ≤ r.text.length := by
  have hline : ∀ e : StatusEntry, 3 ≤ (e.line ++ ['\n']).length := by
    intro e
    rw [List.length_append, List.length_singleton]
    cases e <;>
      simp [StatusEntry.line, entryLine, ChangedEntry.words, UnmergedEntry.words, unwords]
  have hentries : ∀ entries : List StatusEntry,
      3 * entries.length ≤ (unlines (entries.map (·.line))).length := by
    intro entries
    induction entries with
    | nil => rfl
    | cons e entries ih =>
      rw [List.map_cons, unlines, List.flatMap_cons, List.length_append, List.length_cons]
      have := hline e
      unfold unlines at ih
      omega
  have hchanges : r.status.changes.length ≤ r.entries.length := List.length_filterMap_le _ _
  have htext := hentries r.entries
  rw [StatusReport.text, StatusReport.lines, unlines, List.flatMap_append, List.length_append]
  unfold unlines at htext
  omega

/-! ### A repository -/

def demoRoot : RepoRoot := ⟨true, true, ⟨["goffy-os".toList]⟩, true⟩

def demoRepo : ApprovedGitRepo := ⟨0, "goffy-os".toList, demoRoot.resolved⟩

theorem demoChanges_pos : 1 ≤ 25 := by decide

def demoRequest : GitStatusInput := ⟨0, 25, true, by decide, demoChanges_pos, by decide⟩

def demoReport (entries : List StatusEntry) : StatusReport where
  oid := ⟨"0123456789abcdef0123456789abcdef01234567".toList, by decide⟩
  head := ⟨"main".toList, by decide⟩
  upstream := none
  aheadBehind := none
  stash := none
  entries := entries

def demoWord (s : String) (h : s.toList ≠ [] ∧ ∀ c ∈ s.toList, isPrintable c = true ∧ c ≠ ' ') :
    AsciiWord := ⟨s.toList, h.1, h.2⟩

/-- The words of a tracked file that is no submodule. -/
def unchangedModule : AsciiWord := demoWord "N..." (by decide)
def regularFile : AsciiWord := demoWord "100644" (by decide)
def objectName : AsciiWord := demoWord "0123456" (by decide)

def demoGit (r : StatusReport) : Git := fun _ _ => .ok ⟨0, r.text⟩

theorem runGitStatus_demo {r : StatusReport} (htext : (Python.utf8 r.text).length ≤ 16384)
    (path : Path) (includeUntracked : Bool) :
    runGitStatus (demoGit r) path includeUntracked = .ok r.text := by
  rw [runGitStatus, demoGit, Checks.ok_bind]
  exact Checks.throw_bind_eq_ok.2 ⟨by simp, Checks.throw_bind_eq_ok.2 ⟨not_lt.2 htext, rfl⟩⟩

/-- The Hub's answer about a report whose changes all fit. -/
def demoAnswer (entries : List StatusEntry) : GitStatusOutput :=
  answer demoRepo [demoRepo] (demoReport entries).status (demoReport entries).status.changes.length

theorem readGitStatus_demo {request : GitStatusInput} {entries : List StatusEntry} {k : ℕ}
    (hindex : request.repoIndex = 0) (htext : (Python.utf8 (demoReport entries).text).length ≤ 16384)
    (hvalid : (statusOutput demoRepo [demoRepo] (demoReport entries).status request.maxChanges).valid = true)
    (hfits : Fits demoRepo [demoRepo] (demoReport entries).status request.maxChanges k)
    (hall : min request.maxChanges (demoReport entries).status.changes.length ≤ k) :
    readGitStatus request [demoRepo] (demoGit (demoReport entries)) =
      .ok (answer demoRepo [demoRepo] (demoReport entries).status k).modelDump := by
  have hraw := runGitStatus_demo htext demoRepo.path request.includeUntracked
  have hrepo : repoForIndex request.repoIndex [demoRepo] = .ok demoRepo := by
    rw [hindex]
    rfl
  exact readGitStatus_of_fits hrepo hraw (parsePorcelainV2_text _) hvalid hfits hall

/-! ### A list that is cut -/

/-- The request for one change. -/
def firstRequest : GitStatusInput := ⟨0, 1, true, by decide, le_rfl, by decide⟩

def editedEntry : ChangedEntry where
  x := '.'
  y := 'M'
  fields := [unchangedModule, regularFile, regularFile, regularFile, objectName, objectName]
  path := ⟨"README.md".toList, by decide⟩
  x_mem := by decide
  y_mem := by decide
  changed := by decide
  length_fields := rfl

/-- A file that was changed, and two that are not tracked. -/
def editedReport : StatusReport :=
  demoReport [.changed editedEntry, .untracked ⟨"a.txt".toList, by decide⟩,
    .untracked ⟨"b.txt".toList, by decide⟩]

/-- The Hub's answer, which shows the first of the three. -/
def editedAnswer : GitStatusOutput := answer demoRepo [demoRepo] editedReport.status 1

theorem editedReport_fits : (Python.utf8 editedReport.text).length ≤ 16384 := by decide +kernel

theorem edited_output : readGitStatus firstRequest [demoRepo] (demoGit editedReport) =
    .ok editedAnswer.modelDump := by
  have hbytes : outputBytes editedAnswer ≤ 8192 := by decide +kernel
  exact readGitStatus_demo rfl editedReport_fits (by decide) ⟨le_rfl, by decide, hbytes⟩ (by decide)

end GoffyHub.GitTool
