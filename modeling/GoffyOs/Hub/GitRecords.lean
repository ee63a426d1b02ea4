import GoffyOs.Hub.GitPorcelain

/-!
# Records of `git status` read back

With the arguments of the Hub, Git prints headers, and records of changed, unmerged and untracked paths,
a line each. It quotes a path that has a control character, a quote or a backslash in it, and prints any
other path as it is, blanks and Unicode's line separators included.

`readBack_iff` says which records the Hub reads back: Python's `splitlines` ends a line at such a
separator, and `split` drops the blanks before the path of a changed or unmerged file.
`readGitStatus_shows` is what the answer says about the records that were read.
-/

namespace GoffyHub.GitTool

open Python

-- `decide` looks at the members of a list one by one
attribute [local instance (high)] List.decidableBAll

/-! ### Records -/

/-- A path with such a character is quoted. -/
def isQuoted (c : Char) : Bool := c.toNat < 0x20 || c.toNat == 0x7f || c == '"' || c == '\\'

/-- A path that is printed as it is. -/
structure UnquotedPath where
  val : Str
  ne_nil : val ≠ []
  unquoted : ∀ c ∈ val, isQuoted c = false

/-- The name of a reference has no blank and no control character of ASCII; `(detached)` is printed in
its place where there is none. -/
structure RefName where
  val : Str
  plain : ∀ c ∈ val, 0x20 < c.toNat

def statusCodes : List Char := ".MTADRCU".toList

/-- What stands before a path: the two codes, and so many other fields. -/
structure Fields (n : ℕ) where
  x : Char
  y : Char
  words : List AsciiWord
  x_mem : x ∈ statusCodes
  y_mem : y ∈ statusCodes
  length_words : words.length = n

inductive ChangeRecord
  /-- `1 <XY> <sub> <mH> <mI> <mW> <hH> <hI> <path>` -/
  | tracked (fields : Fields 6) (path : UnquotedPath)
  /-- `u <XY> <sub> <m1> <m2> <m3> <mW> <h1> <h2> <h3> <path>` -/
  | conflict (fields : Fields 8) (path : UnquotedPath)
  /-- `? <path>` -/
  | untracked (path : UnquotedPath)

/-- A line that Git prints. -/
inductive PorcelainRecord
  | oid (oid : AsciiWord)
  | head (name : RefName)
  | upstream (name : RefName)
  | aheadBehind (ab : AheadBehind)
  | stash (n : ℕ)
  | change (change : ChangeRecord)

/-- The words before the path. -/
def Fields.line {n : ℕ} (f : Fields n) (tag : Char) : List Str :=
  [tag] :: [f.x, f.y] :: f.words.map (·.val)

def ChangeRecord.line : ChangeRecord → Str
  | .tracked fields path => unwords (fields.line '1') ++ path.val
  | .conflict fields path => unwords (fields.line 'u') ++ path.val
  | .untracked path => '?' :: ' ' :: path.val

def PorcelainRecord.line : PorcelainRecord → Str
  | .oid commit => oidPrefix ++ commit.val
  | .head name => headPrefix ++ name.val
  | .upstream name => upstreamPrefix ++ name.val
  | .aheadBehind ab => ab.line
  | .stash n => stashLine n
  | .change r => r.line

/-- What Git prints. -/
def printRecords (records : List PorcelainRecord) : Str := unlines (records.map (·.line))

/-! ### What they say -/

def ChangeRecord.change : ChangeRecord → GitChange
  | .tracked fields path => ⟨path.val, fields.x, fields.y, .tracked⟩
  | .conflict fields path => ⟨path.val, fields.x, fields.y, .conflict⟩
  | .untracked path => ⟨path.val, '?', '?', .untracked⟩

def PorcelainRecord.oid? : PorcelainRecord → Option AsciiWord
  | .oid commit => some commit
  | _ => none

def PorcelainRecord.head? : PorcelainRecord → Option RefName
  | .head name => some name
  | _ => none

def PorcelainRecord.upstream? : PorcelainRecord → Option RefName
  | .upstream name => some name
  | _ => none

def PorcelainRecord.aheadBehind? : PorcelainRecord → Option AheadBehind
  | .aheadBehind ab => some ab
  | _ => none

def PorcelainRecord.change? : PorcelainRecord → Option GitChange
  | .change r => some r.change
  | _ => none

/-- The last record of a kind. -/
def last {α : Type} (kind : PorcelainRecord → Option α) (records : List PorcelainRecord) : Option α :=
  (records.filterMap kind).getLast?

/-- The records, with the names of the headers bounded: the last header of each kind, and every change in
its place. -/
def recorded (records : List PorcelainRecord) : GitStatus where
  headOidShort := (last (·.oid?) records).bind fun oid => shortOid oid.val
  branch := (last (·.head?) records).bind fun name => headBranch name.val
  upstream := (last (·.upstream?) records).map fun name =>
    boundedRequiredText name.val maxUpstreamNameChars
  ahead := (last (·.aheadBehind?) records).map fun ab => (ab.ahead : ℤ)
  behind := (last (·.aheadBehind?) records).map fun ab => (ab.behind : ℤ)
  changes := records.filterMap (·.change?)

/-- The Hub reads the records back, and where it says that a path is not truncated, it shows the path of
the record. -/
structure ReadBack (records : List PorcelainRecord) : Prop where
  status : parsePorcelainV2 (printRecords records) = recorded records
  shown : ∀ (i : ℕ) (c r : GitChange), (parsePorcelainV2 (printRecords records)).changes[i]? = some c →
    (recorded records).changes[i]? = some r → (changeOutput c).pathTruncated = false →
    (changeOutput c).path = r.path

/-! ### What the Hub can read -/

/-- The text before the first line break. -/
def firstLine (s : Str) : Str := s.takeWhile (!isLineBreak ·)

/-- No line separator, and no blank before the path of a tracked file. -/
def GitChange.ReadablePath (c : GitChange) : Prop :=
  (∀ d ∈ c.path, isLineBreak d = false) ∧ (c.kind ≠ .untracked → c.path.dropWhile isSpace = c.path)

/-- The paths have no line separators, and those of tracked files no blanks before them; the names of the
headers are shown as what stands before their first line separator is; Python reads the numbers. -/
structure Readable (records : List PorcelainRecord) : Prop where
  path : ∀ c ∈ records.filterMap (·.change?), c.ReadablePath
  head : ∀ name, last (·.head?) records = some name →
    headBranch (strip (firstLine name.val)) = headBranch name.val
  upstream : ∀ name, last (·.upstream?) records = some name →
    boundedRequiredText (strip (firstLine name.val)) maxUpstreamNameChars =
      boundedRequiredText name.val maxUpstreamNameChars
  aheadBehind : ∀ ab, last (·.aheadBehind?) records = some ab → ab.readable

section Read

variable {status : GitStatus} {line : Str}

/-! ### What the Hub reads -/

theorem readablePath_parseChangeLine {c : GitChange} (hline : ∀ d ∈ line, isLineBreak d = false)
    (h : parseChangeLine line = some c) : c.ReadablePath := by
  have hparts : ∀ (count k : ℕ) (kind : GitStatusKind),
      changeOfParts count kind (splitMax k line) = some c → c.ReadablePath := by
    intro count k kind hc
    unfold changeOfParts at hc
    split at hc
    · exact absurd hc.symm (Option.some_ne_none c)
    split at hc
    case h_2 => exact absurd hc.symm (Option.some_ne_none c)
    case h_1 x y path _ hlast =>
      obtain rfl := Option.some.inj hc
      have hpath : path ∈ splitMax k line := List.mem_of_mem_getLast? hlast
      exact ⟨fun d hd => hline d (mem_of_mem_splitMax hpath d hd),
        fun _ => dropWhile_of_mem_splitMax hpath⟩
  unfold parseChangeLine at h
  split at h
  · obtain rfl := Option.some.inj h
    exact ⟨fun d hd => hline d (List.mem_of_mem_drop hd), fun hkind => absurd rfl hkind⟩
  split at h
  · exact hparts _ _ _ h
  split at h
  · exact hparts _ _ _ h
  · exact absurd h.symm (Option.some_ne_none c)

/-- A line adds the change that it is, if any. -/
theorem changes_parseLine (status : GitStatus) (line : Str) :
    (parseLine status line).changes = status.changes ∨
      ∃ c, parseChangeLine line = some c ∧ (parseLine status line).changes = status.changes ++ [c] := by
  unfold parseLine
  split
  · exact Or.inl rfl
  split
  · exact Or.inl rfl
  split
  · exact Or.inl rfl
  split
  · exact Or.inl rfl
  split
  · exact Or.inl rfl
  split
  case h_1 c hc => exact Or.inr ⟨c, hc, rfl⟩
  case h_2 => exact Or.inl rfl

/-- **What is read.** No path that the Hub reads has a line break in it, or blanks before it where the
file is tracked. -/
theorem readablePath_of_mem {raw : Str} {c : GitChange} (hc : c ∈ (parsePorcelainV2 raw).changes) :
    c.ReadablePath := by
  have hfold : ∀ (lines : List Str) (status : GitStatus),
      (∀ line ∈ lines, ∀ d ∈ line, isLineBreak d = false) → (∀ c ∈ status.changes, c.ReadablePath) →
      ∀ c ∈ (lines.foldl parseLine status).changes, c.ReadablePath := by
    intro lines
    induction lines with
    | nil => exact fun _ _ hstatus => hstatus
    | cons line lines ih =>
      intro status hlines hstatus
      obtain ⟨hline, hlines⟩ := List.forall_mem_cons.1 hlines
      refine ih _ hlines fun c hc => ?_
      rcases changes_parseLine status line with heq | ⟨new, hnew, heq⟩
      · exact hstatus c (heq ▸ hc)
      · rw [heq] at hc
        rcases List.mem_append.1 hc with hc | hc
        · exact hstatus c hc
        · rw [List.mem_singleton.1 hc]
          exact readablePath_parseChangeLine hline hnew
  exact hfold (splitlines raw) {} (fun line hline => isLineBreak_of_mem_splitlines hline)
    (fun c hc => absurd hc List.not_mem_nil) c hc

/-! ### What the Hub makes of a record -/

/-- A line without blanks says nothing. -/
theorem parseLine_of_no_blank (hline : ∀ c ∈ line, c ≠ ' ') : parseLine status line = status := by
  have hstart : ∀ pre : Str, ' ' ∈ pre → startswith line pre = false := by
    intro pre hpre
    rw [Bool.eq_false_iff]
    intro h
    have hstart : pre <+: line := List.isPrefixOf_iff_prefix.1 h
    exact hline ' ' (hstart.subset hpre) rfl
  have hchange : parseChangeLine line = none := by
    unfold parseChangeLine
    rw [hstart ['?', ' '] (by decide), hstart ['1', ' '] (by decide), hstart ['u', ' '] (by decide)]
    rfl
  unfold parseLine
  rw [hstart oidPrefix (by decide), hstart headPrefix (by decide), hstart upstreamPrefix (by decide),
    hstart aheadBehindPrefix (by decide), hchange]
  simp only [Bool.false_eq_true, if_false, ite_self]

theorem Fields.isWord {n : ℕ} (f : Fields n) {tag : Char} (htag : IsWord [tag]) :
    ∀ w ∈ f.line tag, IsWord w := by
  have hcodes : ∀ x ∈ statusCodes, ∀ y ∈ statusCodes, IsWord [x, y] := by decide
  intro w hw
  rcases List.mem_cons.1 hw with rfl | hw
  · exact htag
  rcases List.mem_cons.1 hw with rfl | hw
  · exact hcodes _ f.x_mem _ f.y_mem
  · obtain ⟨word, -, rfl⟩ := List.mem_map.1 hw
    exact word.isWord

theorem parseChangeLine_record {r : ChangeRecord} (h : r.change.ReadablePath) :
    parseChangeLine r.line = some r.change := by
  have hfields : ∀ {n : ℕ} (f : Fields n) {tag : Char} (htag : IsWord [tag]) (path : UnquotedPath)
      (kind : GitStatusKind), path.val.dropWhile isSpace = path.val →
      changeOfParts (n + 3) kind (splitMax (n + 2) (unwords (f.line tag) ++ path.val)) =
        some ⟨path.val, f.x, f.y, kind⟩ := by
    intro n f tag htag path kind hpath
    have hlength : (f.line tag).length = n + 2 := by simp [Fields.line, f.length_words]
    have hcount : f.words.length + 3 = n + 3 := by rw [f.length_words]
    have hparts := @changeOfParts_words [tag] f.x f.y _ _ hcount path.val kind
    rw [splitMax_words (f.isWord htag) hlength]
    refine hparts.trans ?_
    rw [hpath, if_neg path.ne_nil]
  cases r with
  | tracked fields path => exact hfields fields (by decide) path .tracked (h.2 nofun)
  | conflict fields path => exact hfields fields (by decide) path .conflict (h.2 nofun)
  | untracked path => rfl

/-! ### What the Hub makes of all of them -/

/-- A record as the Hub reads it. -/
def readRecord (status : GitStatus) : PorcelainRecord → GitStatus
  | .oid commit => { status with headOidShort := shortOid commit.val }
  | .head name => { status with branch := headBranch (strip (firstLine name.val)) }
  | .upstream name =>
    { status with
      upstream := some (boundedRequiredText (strip (firstLine name.val)) maxUpstreamNameChars) }
  | .aheadBehind ab =>
    { status with
      ahead := if ab.readable then some (ab.ahead : ℤ) else none
      behind := if ab.readable then some (ab.behind : ℤ) else none }
  | .stash _ => status
  | .change r => { status with changes := status.changes ++ [r.change] }

theorem isLineBreak_of_printable (h : Printable line) : ∀ c ∈ line, isLineBreak c = false :=
  fun c hc => isLineBreak_of_isPrintable (h c hc)

theorem foldl_of_no_blank {lines : List Str} (h : ∀ line ∈ lines, ∀ c ∈ line, c ≠ ' ') :
    lines.foldl parseLine status = status := by
  induction lines with
  | nil => rfl
  | cons line lines ih =>
    obtain ⟨hline, hlines⟩ := List.forall_mem_cons.1 h
    rw [List.foldl_cons, parseLine_of_no_blank hline]
    exact ih hlines

/-- Of a header, what stands after the first line break of its name is not read. -/
theorem foldl_header {pre : Str} (hpre : ∀ c ∈ pre, isLineBreak c = false) (name : RefName) (s : Str) :
    (splitlines (pre ++ name.val ++ '\n' :: s)).foldl parseLine status =
      (splitlines s).foldl parseLine (parseLine status (pre ++ firstLine name.val)) := by
  have hgo : ∀ c ∈ pre, (!isLineBreak c) = true := fun c hc => by rw [hpre c hc]; rfl
  have hcr : ∀ c ∈ pre ++ name.val, c ≠ '\r' := by
    rintro c hc rfl
    rcases List.mem_append.1 hc with hc | hc
    · exact absurd (hpre _ hc) (by decide)
    · exact absurd (name.plain _ hc) (by decide)
  obtain ⟨rest, hlines, hrest⟩ := exists_splitlines hcr
  rw [List.takeWhile_append_of_pos hgo] at hlines
  rw [List.dropWhile_append_of_pos hgo] at hrest
  have hblank : ∀ line ∈ rest, ∀ c ∈ line, c ≠ ' ' := by
    rintro line hline c hc rfl
    have hmem := (List.dropWhile_sublist _).subset (hrest line hline ' ' hc)
    exact absurd (name.plain _ hmem) (by decide)
  rw [hlines, List.foldl_cons, List.foldl_append, foldl_of_no_blank hblank]
  rfl

theorem isLineBreak_line {r : ChangeRecord} (h : r.change.ReadablePath) :
    ∀ c ∈ r.line, isLineBreak c = false := by
  have hwords : ∀ {n : ℕ} (f : Fields n) {tag : Char}, isPrintable tag = true →
      ∀ c ∈ unwords (f.line tag), isLineBreak c = false := by
    intro n f tag htag
    have hcodes : ∀ x ∈ statusCodes, isPrintable x = true := by decide
    refine isLineBreak_of_printable (printable_unwords fun w hw => ?_)
    rcases List.mem_cons.1 hw with rfl | hw
    · exact List.forall_mem_singleton.2 htag
    rcases List.mem_cons.1 hw with rfl | hw
    · exact List.forall_mem_cons.2
        ⟨hcodes _ f.x_mem, List.forall_mem_singleton.2 (hcodes _ f.y_mem)⟩
    · obtain ⟨word, -, rfl⟩ := List.mem_map.1 hw
      exact fun c hc => (word.printable c hc).1
  cases r with
  | tracked fields path =>
    exact List.forall_mem_append.2 ⟨hwords fields (by decide), h.1⟩
  | conflict fields path =>
    exact List.forall_mem_append.2 ⟨hwords fields (by decide), h.1⟩
  | untracked path =>
    exact List.forall_mem_cons.2 ⟨by decide, List.forall_mem_cons.2 ⟨by decide, h.1⟩⟩

/-- A line of one record. -/
theorem foldl_record {r : PorcelainRecord} (h : ∀ c, r.change? = some c → c.ReadablePath) (s : Str) :
    (splitlines (r.line ++ '\n' :: s)).foldl parseLine status =
      (splitlines s).foldl parseLine (readRecord status r) := by
  have hline : (∀ c ∈ r.line, isLineBreak c = false) → parseLine status r.line = readRecord status r →
      (splitlines (r.line ++ '\n' :: s)).foldl parseLine status =
        (splitlines s).foldl parseLine (readRecord status r) := by
    intro hbreak hread
    rw [splitlines_append hbreak, List.foldl_cons, hread]
  cases r with
  | oid commit =>
    have hstrip : strip commit.val = commit.val :=
      strip_joinWords (List.forall_mem_singleton.2 commit.isWord)
    have hprintable : Printable (oidPrefix ++ commit.val) :=
      Printable.append (by decide) fun c hc => (commit.printable c hc).1
    refine hline (isLineBreak_of_printable hprintable) ?_
    rw [PorcelainRecord.line, parseLine_oid, hstrip]
    rfl
  | head name =>
    rw [PorcelainRecord.line, foldl_header (by decide), parseLine_head]
    rfl
  | upstream name =>
    rw [PorcelainRecord.line, foldl_header (by decide), parseLine_upstream]
    rfl
  | aheadBehind ab => exact hline (isLineBreak_of_printable ab.printable_line) (parseLine_aheadBehind ab)
  | stash n =>
    have hprintable : Printable (stashLine n) := Printable.append (by decide) (printable_natStr n)
    exact hline (isLineBreak_of_printable hprintable) (parseLine_stash n)
  | change r =>
    have hreadable : r.change.ReadablePath := h r.change rfl
    refine hline (isLineBreak_line hreadable) ?_
    have hparse : parseLine status r.line =
        { status with changes := status.changes ++ (parseChangeLine r.line).toList } := by
      cases r <;> exact parseLine_change (by decide) _
    rw [PorcelainRecord.line, hparse, parseChangeLine_record hreadable]
    rfl

/-- All the lines. -/
theorem parsePorcelainV2_printRecords {records : List PorcelainRecord}
    (h : ∀ c ∈ records.filterMap (·.change?), c.ReadablePath) :
    parsePorcelainV2 (printRecords records) = records.foldl readRecord {} := by
  have hrun : ∀ status, (splitlines (printRecords records)).foldl parseLine status =
      records.foldl readRecord status := by
    induction records with
    | nil => exact fun _ => rfl
    | cons r records ih =>
      intro status
      have hr : ∀ c, r.change? = some c → c.ReadablePath :=
        fun c hc => h c (List.mem_filterMap.2 ⟨r, List.mem_cons_self, hc⟩)
      have hrest : ∀ c ∈ records.filterMap (·.change?), c.ReadablePath := by
        intro c hc
        obtain ⟨r', hr', hc⟩ := List.mem_filterMap.1 hc
        exact h c (List.mem_filterMap.2 ⟨r', List.mem_cons_of_mem r hr', hc⟩)
      have hprint : printRecords (r :: records) = r.line ++ '\n' :: printRecords records := by
        rw [printRecords, List.map_cons, unlines, List.flatMap_cons, List.append_assoc,
          List.singleton_append]
        rfl
      rw [hprint, foldl_record hr, List.foldl_cons]
      exact ih hrest _
  exact hrun {}

/-- The last header of each kind counts. -/
theorem foldl_readRecord (records : List PorcelainRecord) : records.foldl readRecord {} =
    { headOidShort := (last (·.oid?) records).bind fun commit => shortOid commit.val
      branch := (last (·.head?) records).bind fun name => headBranch (strip (firstLine name.val))
      upstream := (last (·.upstream?) records).map fun name =>
        boundedRequiredText (strip (firstLine name.val)) maxUpstreamNameChars
      ahead := (last (·.aheadBehind?) records).bind fun ab =>
        if ab.readable then some (ab.ahead : ℤ) else none
      behind := (last (·.aheadBehind?) records).bind fun ab =>
        if ab.readable then some (ab.behind : ℤ) else none
      changes := records.filterMap (·.change?) } := by
  have hlast : ∀ {α : Type} (kind : PorcelainRecord → Option α) (records : List PorcelainRecord)
      (r : PorcelainRecord), last kind (records ++ [r]) = (kind r).or (last kind records) := by
    intro α kind records r
    rw [last, List.filterMap_append, List.getLast?_append, last]
    cases hr : kind r with
    | none => rw [List.filterMap_cons_none hr]; rfl
    | some a => rw [List.filterMap_cons_some hr]; rfl
  induction records using List.reverseRecOn with
  | nil => rfl
  | append_singleton records r ih =>
    rw [List.foldl_append, ih, List.foldl_cons, List.foldl_nil]
    simp only [hlast, List.filterMap_append]
    cases r <;> simp [readRecord, PorcelainRecord.oid?, PorcelainRecord.head?,
      PorcelainRecord.upstream?, PorcelainRecord.aheadBehind?, PorcelainRecord.change?]

end Read

/-- **Records read back.** The Hub reads the records of Git back exactly if the paths have no line
separators in them, those of tracked and unmerged files no blanks before them, and the headers nothing
that is lost. -/
theorem readBack_iff (records : List PorcelainRecord) : ReadBack records ↔ Readable records := by
  constructor
  · intro h
    have hpath : ∀ c ∈ records.filterMap (·.change?), c.ReadablePath := by
      intro c hc
      have hchanges : (recorded records).changes = records.filterMap (·.change?) := rfl
      rw [← hchanges, ← h.status] at hc
      exact readablePath_of_mem hc
    have hstatus := h.status
    rw [parsePorcelainV2_printRecords hpath, foldl_readRecord, recorded, GitStatus.mk.injEq] at hstatus
    obtain ⟨hhead, -, hupstream, hahead, -, -⟩ := hstatus
    refine ⟨hpath, fun name hname => ?_, fun name hname => ?_, fun ab hab => ?_⟩
    · rw [hname] at hhead
      exact hhead
    · rw [hname] at hupstream
      exact Option.some.inj hupstream
    · rw [hab] at hahead
      by_contra hnot
      change (if ab.readable then some (ab.ahead : ℤ) else none) = some _ at hahead
      rw [if_neg hnot] at hahead
      exact absurd hahead.symm (Option.some_ne_none _)
  · intro h
    have hstatus : parsePorcelainV2 (printRecords records) = recorded records := by
      rw [parsePorcelainV2_printRecords h.path, foldl_readRecord, recorded, GitStatus.mk.injEq]
      refine ⟨?_, rfl, ?_, ?_, ?_, rfl⟩
      · cases hname : last (·.head?) records with
        | none => rfl
        | some name => exact h.head name hname
      · cases hname : last (·.upstream?) records with
        | none => rfl
        | some name => exact congrArg some (h.upstream name hname)
      · cases hab : last (·.aheadBehind?) records with
        | none => rfl
        | some ab => exact if_pos (h.aheadBehind ab hab)
      · cases hab : last (·.aheadBehind?) records with
        | none => rfl
        | some ab => exact if_pos (h.aheadBehind ab hab)
    refine ⟨hstatus, fun i c r hc hr hflag => ?_⟩
    rw [hstatus, hr] at hc
    obtain rfl := Option.some.inj hc
    exact of_not_not (of_decide_eq_false hflag)

/-! ### Paths that are lost -/

def demoFields : Fields 6 where
  x := '.'
  y := 'M'
  words := [unchangedModule, regularFile, regularFile, regularFile, objectName, objectName]
  x_mem := by decide
  y_mem := by decide
  length_words := editedEntry.length_fields

/-- A tracked file with a blank before its name. -/
def blankRecord : PorcelainRecord := .change (.tracked demoFields ⟨" a".toList, by decide, by decide⟩)

/-- An untracked file with a line separator of Unicode in its name. -/
def separatorRecord : PorcelainRecord :=
  .change (.untracked ⟨['a', '\u2028', 'b'], by decide, by decide⟩)

/-- The blank is lost, and the answer shows the rest as the whole path; of the other name a part is
lost. -/
theorem paths_are_lost : ¬ ReadBack [blankRecord] ∧ ¬ ReadBack [separatorRecord] := by
  constructor
  · intro h
    have hread : (parsePorcelainV2 (printRecords [blankRecord])).changes =
        [⟨['a'], '.', 'M', .tracked⟩] := by decide +kernel
    have hpath := h.shown 0 ⟨['a'], '.', 'M', .tracked⟩ ⟨[' ', 'a'], '.', 'M', .tracked⟩
      (by rw [hread]; rfl) rfl (by decide)
    exact absurd hpath (by decide)
  · intro h
    have hread : (parsePorcelainV2 (printRecords [separatorRecord])).changes =
        [⟨['a'], '?', '?', .untracked⟩] := by decide +kernel
    have hchanges := congrArg GitStatus.changes h.status
    rw [hread] at hchanges
    exact absurd hchanges (by decide)

/-! ### Answers -/

/-- **Answers.** Whatever Git prints and whatever was asked for, an answer has no more bytes than a tool's
output may have; it shows the first changes that were read, no more than asked for; it says that it is
truncated exactly if it shows fewer than were read; and it counts all that were read. -/
theorem readGitStatus_shows {request : GitStatusInput} {repos : List ApprovedGitRepo} {git : Git}
    {output : List (Str × Json)} (h : readGitStatus request repos git = .ok output) :
    ∃ (repo : ApprovedGitRepo) (raw : Str) (o : GitStatusOutput),
      runGitStatus git repo.path request.includeUntracked = .ok raw ∧ output = o.modelDump ∧
      outputBytes o ≤ maxToolOutputBytes ∧
      o.changes <+: (parsePorcelainV2 raw).changes.map changeOutput ∧
      o.changes.length ≤ request.maxChanges ∧
      (o.truncated = true ↔ o.changes.length < (parsePorcelainV2 raw).changes.length) ∧
      o.stagedCount = (parsePorcelainV2 raw).changes.countP (·.isStaged) ∧
      o.unstagedCount = (parsePorcelainV2 raw).changes.countP (·.isUnstaged) ∧
      o.untrackedCount = (parsePorcelainV2 raw).changes.countP (·.kind = .untracked) ∧
      o.conflictCount = (parsePorcelainV2 raw).changes.countP (·.kind = .conflict) ∧
      (o.clean = true ↔ (parsePorcelainV2 raw).changes = []) := by
  obtain ⟨repo, raw, k, -, hraw, -, rfl, hfits, -⟩ := readGitStatus_ok h
  have hlength := @length_changes_answer repo repos _ _ hfits.le_length
  refine ⟨repo, raw, answer repo repos (parsePorcelainV2 raw) k, hraw, rfl, hfits.bytes, ?_, ?_, ?_,
    rfl, rfl, rfl, rfl, ?_⟩
  · exact (List.take_prefix k _).map changeOutput
  · rw [hlength]
    exact hfits.le_max
  · rw [hlength]
    have htake : ((parsePorcelainV2 raw).changes.take k).length = k := by
      rw [List.length_take, min_eq_left hfits.le_length]
    show decide (((parsePorcelainV2 raw).changes.take k).length < _) = true ↔ _
    rw [htake, decide_eq_true_eq]
  · show decide ((parsePorcelainV2 raw).changes = []) = true ↔ _
    rw [decide_eq_true_eq]

/-- The answer that shows the first of three changes. -/
theorem edited_answer_is_cut : ∃ o : GitStatusOutput,
    editedAnswer.modelDump = o.modelDump ∧ outputBytes o ≤ maxToolOutputBytes ∧ o.changes.length ≤ 1 ∧
      o.truncated = true ∧ o.stagedCount = 0 ∧ o.unstagedCount = 1 ∧ o.untrackedCount = 2 ∧
      o.conflictCount = 0 ∧ o.clean = false := by
  obtain ⟨repo, raw, o, hraw, houtput, hbytes, -, hlength, htruncated, hstaged, hunstaged, huntracked,
    hconflict, hclean⟩ := readGitStatus_shows edited_output
  have htext : raw = editedReport.text :=
    Except.ok.inj (hraw.symm.trans (runGitStatus_demo editedReport_fits repo.path true))
  rw [htext, parsePorcelainV2_text] at htruncated hstaged hunstaged huntracked hconflict hclean
  have hchanges : editedReport.status.changes.length = 3 := by decide
  refine ⟨o, houtput, hbytes, hlength, htruncated.2 ?_, hstaged.trans (by decide),
    hunstaged.trans (by decide), huntracked.trans (by decide), hconflict.trans (by decide), ?_⟩
  · rw [hchanges]
    exact hlength.trans_lt (by decide)
  · rw [Bool.eq_false_iff, ne_eq, hclean]
    decide

end GoffyHub.GitTool
