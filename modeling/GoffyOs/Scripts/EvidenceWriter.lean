import GoffyOs.Python.Paths
import GoffyOs.Python.Utf8
import Mathlib.Data.List.Nodup

/-!
# The writer of evidence (`scripts/create_rom_stock_restore_evidence.py`)

`write_output` writes evidence below `.goffy-validation`. It goes down to the directory of the file by
descriptors, truncates the file and gives the text to one call of `os.write`. What the system answers to
each call is data; a call of `os.write` takes any positive number of the bytes that it is given.

* `descent_descend`: how the way down can end;
* `writeOutput_iff`: when all is well, by what the system answers.
-/

namespace GoffyScripts.EvidenceWriter

open Python

/-! ### Allowed paths -/

/-- A `Path`: absolute, or relative to something. -/
structure PurePath where
  isAbsolute : Bool
  parts : List Str

/-- `root / ".goffy-validation"`. -/
def validationRoot (root : Path) : Path := ⟨root.parts ++ [".goffy-validation".toList]⟩

/-- `expanded if expanded.is_absolute() else root / expanded`. -/
def candidate (root : Path) (expanded : PurePath) : Path :=
  if expanded.isAbsolute then ⟨expanded.parts⟩ else ⟨root.parts ++ expanded.parts⟩

/-- `Path.parents`. -/
def parents (path : Path) : List Path := path.parts.dropLast.inits.map fun parts => ⟨parts⟩

/-- `candidate.relative_to(validation_root).parts`; `none` is `ValueError`. -/
def relativeParts (root path : Path) : Option (List Str) :=
  if path.isRelativeTo (validationRoot root) then
    some (path.parts.drop (validationRoot root).parts.length)
  else none

/-- `output_path_allowed`, of the path after `expanduser`. -/
def outputPathAllowed (isSymlink : Path → Bool) (root : Path) (expanded : PurePath) : Bool :=
  match relativeParts root (candidate root expanded) with
  | none => false
  | some relative =>
    !relative.contains "..".toList && !isSymlink (validationRoot root) &&
      !isSymlink (candidate root expanded) && !(parents (candidate root expanded)).any isSymlink

/-- The exceptions. -/
inductive WriteError
  | valueError (message : String)
  | osError
  deriving DecidableEq

/-- `confined_output_path`. -/
def confinedOutputPath (isSymlink : Path → Bool) (root : Path) (expanded : PurePath) :
    Except WriteError (Path × List Str) :=
  if outputPathAllowed isSymlink root expanded = false then
    .error (.valueError "output path must be under .goffy-validation")
  else
    match relativeParts root (candidate root expanded) with
    | none => .error (.valueError "output path must be under .goffy-validation")
    | some relative =>
      if relative = [] then
        .error (.valueError "output path must be a file under .goffy-validation")
      else .ok (candidate root expanded, relative)

/-! ### Descriptors -/

/-- What the system answers to the calls, in the order in which they are made. `os.write` is given `size`
bytes; it takes some of them, and all of them if there are none, or raises. -/
structure Answers (size : ℕ) where
  /-- `mkdir(parents=True, exist_ok=True)` returns. -/
  mkdir : Bool
  openRoot : Bool
  /-- the open of the `n`-th directory on the way down, and the close of the one before it -/
  openAt : ℕ → Bool
  closeAt : ℕ → Bool
  openFile : Bool
  write : Option {n : ℕ // n ≤ size ∧ (0 < size → 0 < n)}
  closeFile : Bool
  closeDirectory : Bool

/-- An open that returned a descriptor: the number of the directory that it was asked of, and a name. -/
structure Opened where
  directory : Option ℕ
  name : Str

/-- The descriptors, numbered in the order in which they were opened, and the bytes of the file. -/
structure Writer where
  opened : List Opened
  closed : List ℕ
  content : Bytes

/-- The end of a run. -/
structure Run where
  writer : Writer
  result : Except WriteError Unit

/-- `os.open`. -/
def Writer.open (w : Writer) (directory : Option ℕ) (name : Str) : Writer :=
  { w with opened := w.opened ++ [⟨directory, name⟩] }

/-- `os.close`. -/
def Writer.close (w : Writer) (descriptor : ℕ) : Writer :=
  { w with closed := w.closed ++ [descriptor] }

section Calls

variable {size : ℕ} (answers : Answers size)

/-- The loop over the directories on the way down, with the descriptor `dir_fd` at its end, and whether it
got there without an exception. -/
def descend : List Str → ℕ → ℕ → Writer → Writer × ℕ × Bool
  | [], _, dirFd, w => (w, dirFd, true)
  | part :: parts, n, dirFd, w =>
    if answers.openAt n = false then (w, dirFd, false)
    else
      let nextDirFd := w.opened.length
      let w := (w.open (some dirFd) part).close dirFd
      if answers.closeAt n = false then (w, dirFd, false)
      else descend parts (n + 1) nextDirFd w

/-- The inner `try`: the file is opened, written and closed. -/
def writeFile (name : Str) (encoding : Bytes) (dirFd : ℕ) (w : Writer) : Writer × Bool :=
  if answers.openFile = false then (w, false)
  else
    let fileFd := w.opened.length
    let w := { w.open (some dirFd) name with content := [] }
    let (w, written) := match answers.write with
      | none => (w, false)
      | some n => ({ w with content := encoding.take n.val }, true)
    (w.close fileFd, written && answers.closeFile)

/-- `write_text_no_follow`. -/
def writeTextNoFollow (validationRoot : Path) (relative : List Str) (encoding : Bytes) (w : Writer) :
    Writer × Bool :=
  if answers.openRoot = false then (w, false)
  else
    let (w, dirFd, descended) := descend answers relative.dropLast 0 0 (w.open none validationRoot.name)
    let (w, written) :=
      if descended then writeFile answers (relative.getLastD []) encoding dirFd w else (w, false)
    (w.close dirFd, written && answers.closeDirectory)

end Calls

/-- `write_output`. The file has the bytes `before`. -/
def writeOutput (isSymlink : Path → Bool) (root : Path) (expanded : PurePath) (text : Str)
    (answers : Answers (utf8 text).length) (before : Bytes) : Run :=
  match confinedOutputPath isSymlink root expanded with
  | .error e => ⟨⟨[], [], before⟩, .error e⟩
  | .ok (_, relative) =>
    if answers.mkdir = false then ⟨⟨[], [], before⟩, .error .osError⟩
    else
      let (w, returned) :=
        writeTextNoFollow answers (validationRoot root) relative (utf8 text) ⟨[], [], before⟩
      ⟨w, if returned then .ok () else .error .osError⟩

/-! ### The way down -/

section Descents

variable {size : ℕ} {answers : Answers size} {before : Bytes}

/-- The first `n` directories were opened, and those before them closed. -/
def Reaches (answers : Answers size) (n : ℕ) : Prop :=
  ∀ i < n, answers.openAt i = true ∧ answers.closeAt i = true

theorem reaches_succ {n : ℕ} : Reaches answers (n + 1) ↔
    Reaches answers n ∧ answers.openAt n = true ∧ answers.closeAt n = true := by
  constructor
  · exact fun h => ⟨fun i hi => h i (Nat.lt_succ_of_lt hi), h n (Nat.lt_succ_self n)⟩
  · rintro ⟨h, hn⟩ i hi
    rcases Nat.lt_succ_iff_lt_or_eq.1 hi with hi | rfl
    · exact h i hi
    · exact hn

/-- Only the directory number `n` is open, and the file is as before. -/
structure At (before : Bytes) (n : ℕ) (w : Writer) : Prop where
  opened : w.opened.length = n + 1
  closed : w.closed = List.range n
  content : w.content = before

/-- How the way down ends: at its end; where a directory cannot be opened; or where a directory cannot be
closed, and the next one is lost. -/
inductive Descent (answers : Answers size) (before : Bytes) (depth : ℕ) : Writer × ℕ × Bool → Prop
  | arrived {w : Writer} (hreaches : Reaches answers depth) (h : At before depth w) :
      Descent answers before depth (w, depth, true)
  | stopped {w : Writer} {n : ℕ} (hn : n < depth) (hreaches : Reaches answers n)
      (hopen : answers.openAt n = false) (h : At before n w) :
      Descent answers before depth (w, n, false)
  | lost {w : Writer} {n : ℕ} (hn : n < depth) (hreaches : Reaches answers n)
      (hopen : answers.openAt n = true) (hclose : answers.closeAt n = false)
      (hopened : w.opened.length = n + 2) (hclosed : w.closed = List.range (n + 1)) :
      Descent answers before depth (w, n, false)

/-- A directory further down. -/
theorem At.down {n : ℕ} {w : Writer} (h : At before n w) (part : Str) :
    At before (n + 1) ((w.open (some n) part).close n) where
  opened := by simp [Writer.open, Writer.close, h.opened]
  closed := by simp [Writer.open, Writer.close, h.closed, List.range_succ]
  content := h.content

theorem descent_descend : ∀ (parts : List Str) (n : ℕ) (w : Writer), Reaches answers n →
    At before n w → Descent answers before (n + parts.length) (descend answers parts n n w)
  | [], n, w, hreaches, h => .arrived hreaches h
  | part :: parts, n, w, hreaches, h => by
    have hn : n < n + (part :: parts).length := by simp
    have hdown := h.down part
    rw [descend]
    split
    case isTrue hopen => exact .stopped hn hreaches hopen h
    case isFalse hopen =>
      rw [Bool.not_eq_false] at hopen
      dsimp only
      split
      case isTrue hclose => exact .lost hn hreaches hopen hclose hdown.opened hdown.closed
      case isFalse hclose =>
        rw [Bool.not_eq_false] at hclose
        have ih := descent_descend parts (n + 1) _ (reaches_succ.2 ⟨hreaches, hopen, hclose⟩) hdown
        rw [h.opened]
        rw [List.length_cons, ← Nat.add_assoc, Nat.add_right_comm]
        exact ih

end Descents

/-! ### The exits -/

/-- Each descriptor that was opened is closed exactly once. -/
def Writer.ClosedOnce (w : Writer) : Prop := ∀ n < w.opened.length, w.closed.count n = 1

section Exits

variable {size : ℕ} {answers : Answers size} {before : Bytes} {w : Writer} {n : ℕ}

theorem count_range_of_lt {m n : ℕ} (h : m < n) : (List.range n).count m = 1 :=
  List.count_eq_one_of_mem List.nodup_range (List.mem_range.2 h)

theorem count_range_of_le {m n : ℕ} (h : n ≤ m) : (List.range n).count m = 0 :=
  List.count_eq_zero.2 fun hmem => absurd (List.mem_range.1 hmem) (Nat.not_lt.2 h)

theorem At.closedOnce (h : At before n w) : (w.close n).ClosedOnce := by
  intro m hm
  have hm' : m < n + 1 := h.opened ▸ hm
  rw [Writer.close, h.closed, ← List.range_succ]
  exact count_range_of_lt hm'

/-- A directory that was lost stays open. -/
theorem not_closedOnce_of_lost (hopened : w.opened.length = n + 2)
    (hclosed : w.closed = List.range (n + 1)) : ¬ (w.close n).ClosedOnce := by
  intro h
  have hlost := h (n + 1) (by rw [Writer.close, hopened]; omega)
  rw [Writer.close, hclosed, List.count_append, count_range_of_le (Nat.le_refl _),
    List.count_eq_zero.2 (by simp)] at hlost
  cases hlost

/-- The inner `try` leaves nothing open but the directory. -/
theorem writeFile_closedOnce (h : At before n w) (name : Str) (encoding : Bytes) :
    ((writeFile answers name encoding n w).1.close n).ClosedOnce := by
  unfold writeFile
  split
  case isTrue => exact h.closedOnce
  case isFalse =>
    intro m hm
    have hclosed : List.range n ++ [n + 1] ++ [n] = (List.range n ++ ([n + 1] ++ [n])) :=
      List.append_assoc _ _ _
    have hperm : (List.range n ++ [n + 1] ++ [n]).Perm (List.range (n + 2)) := by
      rw [hclosed, List.range_succ, List.range_succ, List.append_assoc]
      exact (List.Perm.swap _ _ _).append_left _
    cases hwrite : answers.write with
    | none =>
      rw [hwrite] at hm
      simp only [Writer.open, Writer.close, h.opened, h.closed, List.length_append,
        List.length_singleton] at hm ⊢
      rw [hperm.count_eq]
      exact count_range_of_lt hm
    | some k =>
      rw [hwrite] at hm
      simp only [Writer.open, Writer.close, h.opened, h.closed, List.length_append,
        List.length_singleton] at hm ⊢
      rw [hperm.count_eq]
      exact count_range_of_lt hm

/-- The inner `try` returns when each of its calls does. -/
theorem writeFile_returns (name : Str) (encoding : Bytes) :
    (writeFile answers name encoding n w).2 = true ↔
      answers.openFile = true ∧ answers.closeFile = true ∧ answers.write.isSome = true := by
  unfold writeFile
  split
  case isTrue hopen => simp [hopen]
  case isFalse hopen =>
    rw [Bool.not_eq_false] at hopen
    cases hwrite : answers.write with
    | none => simp
    | some k => simp [hopen]

/-- The file has the bytes that the one call of `os.write` took. -/
theorem writeFile_content (name : Str) (encoding : Bytes) {k : {n : ℕ // n ≤ size ∧ (0 < size → 0 < n)}}
    (hopen : answers.openFile = true) (hwrite : answers.write = some k) :
    (writeFile answers name encoding n w).1.content = encoding.take k.val := by
  rw [writeFile, if_neg (by rw [hopen]; nofun), hwrite]
  rfl

end Exits

/-! ### When all is well -/

/-- A directory on the way down cannot be closed. -/
def Lost {size : ℕ} (answers : Answers size) (depth : ℕ) : Prop :=
  ∃ n < depth, Reaches answers n ∧ answers.openAt n = true ∧ answers.closeAt n = false

/-- Everything returns, and `os.write` has taken fewer bytes than it was given. -/
def CutShort {size : ℕ} (answers : Answers size) (depth : ℕ) : Prop :=
  Reaches answers depth ∧ answers.openFile = true ∧ answers.closeFile = true ∧
    answers.closeDirectory = true ∧ ∃ n, answers.write = some n ∧ n.val < size

/-- When the writer returns, the file has the bytes of the text; and every descriptor is closed exactly
once, however the writer ends. -/
structure Written (text : Str) (run : Run) : Prop where
  content : run.result = .ok () → run.writer.content = utf8 text
  closed : run.writer.ClosedOnce

section Main

variable {text : Str} {answers : Answers (utf8 text).length} {before : Bytes}

/-- A way down that ends without a lost directory loses none. -/
theorem not_lost_of_stopped {size : ℕ} {answers : Answers size} {depth n : ℕ} (hn : n ≤ depth)
    (hreaches : Reaches answers n) (hend : n < depth → answers.openAt n = false) :
    ¬ Lost answers depth := by
  rintro ⟨m, hm, hreaches', hopen, hclose⟩
  rcases Nat.lt_trichotomy m n with hlt | rfl | hlt
  · rw [(hreaches m hlt).2] at hclose
    cases hclose
  · rw [hend hm] at hopen
    cases hopen
  · rw [(hreaches' n hlt).1] at hend
    cases hend (hlt.trans hm)

/-- The outer `try`, by how the way down ended. -/
theorem written_iff_of_descent {depth : ℕ} {result : Writer × ℕ × Bool} (name : Str)
    (h : Descent answers before depth result) :
    Written text ⟨(if result.2.2 then writeFile answers name (utf8 text) result.2.1 result.1
        else (result.1, false)).1.close result.2.1,
      if (if result.2.2 then writeFile answers name (utf8 text) result.2.1 result.1
        else (result.1, false)).2 && answers.closeDirectory then .ok () else .error .osError⟩ ↔
      ¬ Lost answers depth ∧ ¬ CutShort answers depth := by
  cases h with
  | @arrived w hreaches h =>
    dsimp only
    rw [if_pos rfl]
    have hlost := not_lost_of_stopped (Nat.le_refl depth) hreaches fun h => absurd h (Nat.lt_irrefl _)
    have hclosed := @writeFile_closedOnce _ answers _ _ _ h name (utf8 text)
    refine ⟨fun hwritten => ⟨hlost, ?_⟩, fun hfine => ⟨fun hok => ?_, hclosed⟩⟩
    · rintro ⟨-, hopen, hclose, hdirectory, k, hwrite, hlt⟩
      have hreturns := (@writeFile_returns _ answers w depth name (utf8 text)).2
        ⟨hopen, hclose, by rw [hwrite]; rfl⟩
      have hcontent := hwritten.content (if_pos (by rw [hreturns, hdirectory]; rfl))
      have htake := (@writeFile_content _ answers w depth name (utf8 text) _ hopen hwrite).symm.trans
        hcontent
      have hlength := congrArg List.length htake
      rw [List.length_take] at hlength
      omega
    · have hreturns : (writeFile answers name (utf8 text) depth w).2 = true ∧
          answers.closeDirectory = true := by
        by_contra hfails
        rw [← Bool.and_eq_true] at hfails
        rw [if_neg hfails] at hok
        cases hok
      obtain ⟨hopen, hclose, hsome⟩ := (writeFile_returns name _).1 hreturns.1
      obtain ⟨k, hwrite⟩ := Option.isSome_iff_exists.1 hsome
      have hall : ¬ k.val < (utf8 text).length :=
        fun hlt => hfine.2 ⟨hreaches, hopen, hclose, hreturns.2, k, hwrite, hlt⟩
      exact (writeFile_content name _ hopen hwrite).trans (List.take_of_length_le (Nat.not_lt.1 hall))
  | stopped hn hreaches hopen h =>
    refine ⟨fun _ => ⟨not_lost_of_stopped hn.le hreaches fun _ => hopen, fun hcut => ?_⟩,
      fun _ => ⟨nofun, h.closedOnce⟩⟩
    rw [(hcut.1 _ hn).1] at hopen
    cases hopen
  | lost hn hreaches hopen hclose hopened hclosed =>
    refine ⟨fun hwritten => absurd hwritten.closed (not_closedOnce_of_lost hopened hclosed),
      fun hfine => absurd ⟨_, hn, hreaches, hopen, hclose⟩ hfine.1⟩

end Main

/-- **Writing evidence.** On an allowed path the file has the text when the writer returns, and all
descriptors are closed exactly once on every exit, if and only if no directory on the way down fails to be
closed, and the one call of `os.write` takes all bytes wherever the other calls return. -/
theorem writeOutput_iff {isSymlink : Path → Bool} {root : Path} {expanded : PurePath} {output : Path}
    {relative : List Str} (hpath : confinedOutputPath isSymlink root expanded = .ok (output, relative))
    (text : Str) (answers : Answers (utf8 text).length) (before : Bytes) :
    Written text (writeOutput isSymlink root expanded text answers before) ↔
      (answers.mkdir = true → answers.openRoot = true →
        ¬ Lost answers (relative.length - 1) ∧ ¬ CutShort answers (relative.length - 1)) := by
  have hnothing : ∀ e, Written text ⟨⟨[], [], before⟩, .error e⟩ := fun e => ⟨nofun, nofun⟩
  rw [writeOutput, hpath]
  dsimp only
  split
  case isTrue hmkdir =>
    rw [hmkdir]
    exact ⟨fun _ h => absurd h (by decide), fun _ => hnothing _⟩
  case isFalse hmkdir =>
    rw [Bool.not_eq_false] at hmkdir
    rw [writeTextNoFollow]
    split
    case isTrue hopen =>
      rw [hopen]
      exact ⟨fun _ _ h => absurd h (by decide), fun _ => hnothing _⟩
    case isFalse hopen =>
      rw [Bool.not_eq_false] at hopen
      have hstart : At before 0 (Writer.open ⟨[], [], before⟩ none (validationRoot root).name) :=
        ⟨rfl, rfl, rfl⟩
      have hdescent := @descent_descend _ answers before relative.dropLast 0 _
        (fun i hi => absurd hi (Nat.not_lt_zero i)) hstart
      rw [Nat.zero_add, List.length_dropLast] at hdescent
      have h := @written_iff_of_descent text answers before _ _ (relative.getLastD []) hdescent
      exact ⟨fun hwritten _ _ => h.1 hwritten, fun hfine => h.2 (hfine hmkdir hopen)⟩

/-! ### Two runs -/

def demoRoot : Path := ⟨["repo".toList]⟩

/-- `.goffy-validation/rom/evidence.json`. -/
def demoPath : PurePath := ⟨false, [".goffy-validation".toList, "rom".toList, "evidence.json".toList]⟩

/-- All calls return, and `os.write` takes `n` of two bytes. -/
def demoAnswers (n : ℕ) (h : 0 < n ∧ n ≤ 2) : Answers (utf8 "ok".toList).length where
  mkdir := true
  openRoot := true
  openAt _ := true
  closeAt _ := true
  openFile := true
  write := some ⟨n, h.2, fun _ => h.1⟩
  closeFile := true
  closeDirectory := true

theorem whole_write_is_written :
    Written "ok".toList (writeOutput (fun _ => false) demoRoot demoPath "ok".toList
      (demoAnswers 2 (by decide)) []) := by
  have hpath : confinedOutputPath (fun _ => false) demoRoot demoPath =
      .ok (candidate demoRoot demoPath, ["rom".toList, "evidence.json".toList]) := rfl
  refine (writeOutput_iff hpath "ok".toList (demoAnswers 2 (by decide)) []).2 fun _ _ => ⟨?_, ?_⟩
  · rintro ⟨n, -, -, -, hclose⟩
    cases hclose
  · rintro ⟨-, -, -, -, n, hwrite, hlt⟩
    cases hwrite
    exact absurd hlt (by decide)

/-- `os.write` takes the first of two bytes, and the writer returns. -/
theorem partial_write_is_lost :
    ¬ Written "ok".toList (writeOutput (fun _ => false) demoRoot demoPath "ok".toList
      (demoAnswers 1 (by decide)) []) := by
  intro h
  have hcontent := h.content rfl
  exact absurd hcontent (by decide)

end GoffyScripts.EvidenceWriter
