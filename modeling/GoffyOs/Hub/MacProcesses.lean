import GoffyOs.Hub.BoundedText
import GoffyOs.Lib.Ranking
import GoffyOs.Python.Paths

/-!
# The tool `mac.processes.list`

The Hub goes through the processes of the machine, counts those that it cannot read, and answers with the
ones that use the most memory. What the system says about a process is a parameter: its numbers may be
missing or out of range, and its name is any text.
-/

namespace GoffyHub.MacProcesses

open Python

def maxProcessEntries : ℕ := 25
def maxProcessCount : ℕ := 100000
def maxProcessNameChars : ℕ := 96
def maxProcessStatusChars : ℕ := 32
def maxProcessPid : ℤ := 2147483647
def maxProcessRssBytes : ℤ := 9223372036854775807

structure MacProcessesListInput where
  maxEntries : ℕ
  maxEntries_pos : 1 ≤ maxEntries
  maxEntries_le : maxEntries ≤ maxProcessEntries

structure MacProcessEntryOutput where
  pid : ℤ
  name : Str
  status : Str
  rssBytes : ℤ
  createTimeEpochSeconds : Option ℤ

structure MacProcessesListOutput where
  status : Str
  processCount : ℕ
  skippedCount : ℕ
  truncated : Bool
  entries : List MacProcessEntryOutput

/-- `process.info`. A number is there if it is an `int` or a `float`, and of a `float` it is the integral
part. -/
structure ProcessInfo where
  pid : Option ℤ
  name : Option Str
  status : Option Str
  /-- of `memory_info` -/
  rss : Option ℤ
  createTime : Option ℤ

/-- `_bounded_int`. -/
def boundedInt (value : Option ℤ) (maximum : ℤ) : ℤ :=
  match value with
  | none => 0
  | some n => if n < 0 then 0 else min n maximum

/-- The characters that `_bounded_text` replaces: controls, and marks of the writing direction. -/
def isReplaced (c : Char) : Bool :=
  c.toNat < 0x20 || c.toNat = 0x7f || (0x202a ≤ c.toNat && c.toNat ≤ 0x202e) ||
    (0x2066 ≤ c.toNat && c.toNat ≤ 0x2069)

def unknown : Str := "unknown".toList

/-- `str(value or "unknown")`. -/
def textOrUnknown (value : Option Str) : Str :=
  match value with
  | none => unknown
  | some s => if s = [] then unknown else s

/-- The name of a process, without the directories of a path. -/
def baseName (value : Str) : Str :=
  if '/' ∈ value ∨ '\\' ∈ value then pathName (value.map fun c => if c = '\\' then '/' else c)
  else value

/-- `_bounded_process_name`. -/
def boundedProcessName (value : Str) : Str :=
  boundedText isReplaced unknown (baseName value) maxProcessNameChars

/-- `_process_entry`. -/
def processEntry (info : ProcessInfo) : MacProcessEntryOutput where
  pid := boundedInt info.pid maxProcessPid
  name := boundedProcessName (textOrUnknown info.name)
  status := boundedText isReplaced unknown (textOrUnknown info.status) maxProcessStatusChars
  rssBytes := boundedInt info.rss maxProcessRssBytes
  createTimeEpochSeconds := info.createTime.map fun time => boundedInt (some time) maxProcessRssBytes

section

variable {α : Type} (casefold : Str → Str) (entry : ProcessInfo → α)

/-- The key of the candidates: by memory, the largest first, then by name, and then by number. -/
def comesFirst (a b : MacProcessEntryOutput) : Prop :=
  b.rssBytes < a.rssBytes ∨ a.rssBytes = b.rssBytes ∧
    (casefold a.name < casefold b.name ∨ casefold a.name = casefold b.name ∧ a.pid ≤ b.pid)

instance (a b : MacProcessEntryOutput) : Decidable (comesFirst casefold a b) :=
  inferInstanceAs (Decidable (_ ∨ _))

/-- The variables of `_process_snapshot`. -/
structure Scan (α : Type) where
  candidates : List α
  processCount : ℕ
  skippedCount : ℕ
  scanTruncated : Bool

/-- The loop over the processes; one that cannot be read is `none`. -/
def scan : List (Option ProcessInfo) → Scan α → Scan α
  | [], s => s
  | process :: processes, s =>
    if maxProcessCount ≤ s.processCount then { s with scanTruncated := true }
    else
      match process with
      | none =>
        scan processes
          { s with processCount := s.processCount + 1, skippedCount := s.skippedCount + 1 }
      | some info =>
        scan processes
          { s with
            processCount := s.processCount + 1, candidates := s.candidates ++ [entry info] }

/-- `_process_snapshot`, in the output that `list_mac_processes` makes of it. -/
def processSnapshot (maxEntries : ℕ) (processes : List (Option ProcessInfo)) :
    MacProcessesListOutput :=
  let walk := scan processEntry processes ⟨[], 0, 0, false⟩
  let candidates := walk.candidates.insertionSort (comesFirst casefold)
  let selected := candidates.take maxEntries
  { status := "available".toList
    processCount := walk.processCount
    skippedCount := walk.skippedCount
    truncated := walk.scanTruncated || selected.length < candidates.length
    entries := selected }

end

/-! ### Numbers and texts -/

section Entries

variable {value : Str}

theorem boundedInt_mem (value : Option ℤ) {maximum : ℤ} (hmaximum : 0 ≤ maximum) :
    0 ≤ boundedInt value maximum ∧ boundedInt value maximum ≤ maximum := by
  unfold boundedInt
  split
  · exact ⟨le_rfl, hmaximum⟩
  · split
    · exact ⟨le_rfl, hmaximum⟩
    · exact ⟨le_min (not_lt.1 ‹_›) hmaximum, min_le_right _ _⟩

/-- A base name has no separators. -/
theorem separator_notMem_baseName {c : Char} (hc : c = '/' ∨ c = '\\') : c ∉ baseName value := by
  unfold baseName
  split
  case isTrue =>
    intro hmem
    obtain ⟨hmap, hslash⟩ := mem_of_mem_pathName hmem
    obtain ⟨d, -, hd⟩ := List.mem_map.1 hmap
    rcases hc with rfl | rfl
    · exact hslash rfl
    · split at hd
      · exact absurd hd (by decide)
      · exact absurd hd ‹_›
  case isFalse hnone =>
    rintro hmem
    rcases hc with rfl | rfl
    · exact hnone (Or.inl hmem)
    · exact hnone (Or.inr hmem)

theorem separator_notMem_boundedProcessName {c : Char} (hc : c = '/' ∨ c = '\\') :
    c ∉ boundedProcessName value := by
  intro hmem
  rcases mem_boundedText hmem with hdefault | hspace | ⟨hbase, -⟩
  · rcases hc with rfl | rfl
    · exact absurd hdefault (by decide)
    · exact absurd hdefault (by decide)
  · rcases hc with rfl | rfl
    · exact absurd hspace (by decide)
    · exact absurd hspace (by decide)
  · exact separator_notMem_baseName hc hbase

end Entries

/-! ### The loop -/

section Loop

variable {α β : Type} {casefold : Str → Str} {entry : ProcessInfo → α}

/-- A process is counted when the loop comes to it; then it is a candidate, or it is skipped. -/
structure Scan.Counted (s : Scan α) : Prop where
  processCount_le : s.processCount ≤ maxProcessCount
  candidates_add : s.candidates.length + s.skippedCount = s.processCount

theorem scan_counted (processes : List (Option ProcessInfo)) {s : Scan α} (h : s.Counted) :
    (scan entry processes s).Counted := by
  induction processes generalizing s with
  | nil => exact h
  | cons process processes ih =>
    have hadd := h.candidates_add
    unfold scan
    split
    · exact ⟨h.processCount_le, hadd⟩
    case isFalse hlimit =>
      have hle : s.processCount + 1 ≤ maxProcessCount := by omega
      cases process with
      | none =>
        apply ih
        refine ⟨hle, ?_⟩
        show s.candidates.length + (s.skippedCount + 1) = s.processCount + 1
        omega
      | some info =>
        apply ih
        refine ⟨hle, ?_⟩
        show (s.candidates ++ [entry info]).length + s.skippedCount = s.processCount + 1
        rw [List.length_append, List.length_singleton]
        omega

/-- The same scan, that keeps something else of its processes. -/
def Scan.map (f : α → β) (s : Scan α) : Scan β := { s with candidates := s.candidates.map f }

theorem scan_map (f : α → β) (processes : List (Option ProcessInfo)) (s : Scan α) :
    scan (f ∘ entry) processes (s.map f) = (scan entry processes s).map f := by
  induction processes generalizing s with
  | nil => rfl
  | cons process processes ih =>
    unfold scan
    by_cases hlimit : maxProcessCount ≤ s.processCount
    · have hlimit' : maxProcessCount ≤ (s.map f).processCount := hlimit
      rw [if_pos hlimit, if_pos hlimit']
      rfl
    · have hlimit' : ¬ maxProcessCount ≤ (s.map f).processCount := hlimit
      rw [if_neg hlimit, if_neg hlimit']
      cases process with
      | none =>
        dsimp only
        rw [← ih]
        rfl
      | some info =>
        dsimp only
        rw [← ih]
        simp [Scan.map]

/-- The processes that the loop reads. -/
def readProcesses (processes : List (Option ProcessInfo)) : List ProcessInfo :=
  (scan id processes ⟨[], 0, 0, false⟩).candidates

/-- The processes that are shown: the first ones in the order of the candidates. -/
def shownProcesses (casefold : Str → Str) (maxEntries : ℕ) (processes : List (Option ProcessInfo)) :
    List ProcessInfo :=
  ((readProcesses processes).insertionSort fun a b =>
    comesFirst casefold (processEntry a) (processEntry b)).take maxEntries

theorem entries_processSnapshot (maxEntries : ℕ) (processes : List (Option ProcessInfo)) :
    (processSnapshot casefold maxEntries processes).entries =
      (shownProcesses casefold maxEntries processes).map processEntry := by
  have hscan : (scan processEntry processes ⟨[], 0, 0, false⟩).candidates =
      (readProcesses processes).map processEntry :=
    congrArg Scan.candidates (@scan_map _ _ id processEntry processes ⟨[], 0, 0, false⟩)
  have hsort := List.map_insertionSort
    (r := fun a b => comesFirst casefold (processEntry a) (processEntry b))
    (s := comesFirst casefold) processEntry (readProcesses processes) fun a _ b _ => Iff.rfl
  unfold processSnapshot
  dsimp only
  rw [hscan, shownProcesses, List.map_take, hsort]

/-- What the counters of an output say about its entries. -/
structure MacProcessesListOutput.Counted (o : MacProcessesListOutput) : Prop where
  processCount_le : o.processCount ≤ maxProcessCount
  shown_le : o.entries.length + o.skippedCount ≤ o.processCount
  shown_eq : o.truncated = false → o.entries.length + o.skippedCount = o.processCount

theorem counted_processSnapshot (maxEntries : ℕ) (processes : List (Option ProcessInfo)) :
    (processSnapshot casefold maxEntries processes).Counted := by
  have hstart : Scan.Counted (⟨[], 0, 0, false⟩ : Scan MacProcessEntryOutput) := ⟨Nat.zero_le _, rfl⟩
  have hcounted := @scan_counted _ processEntry processes _ hstart
  have hadd := hcounted.candidates_add
  have hsort := List.length_insertionSort (comesFirst casefold)
    (scan processEntry processes ⟨[], 0, 0, false⟩).candidates
  unfold processSnapshot
  refine ⟨hcounted.processCount_le, ?_, fun htruncated => ?_⟩
  · dsimp only
    rw [List.length_take, hsort]
    omega
  · dsimp only at htruncated ⊢
    rw [Bool.or_eq_false_iff, decide_eq_false_iff_not, List.length_take, hsort] at htruncated
    rw [List.length_take, hsort]
    omega

/-- The processes with the most memory come first. -/
theorem pairwise_entries (maxEntries : ℕ) (processes : List (Option ProcessInfo)) :
    (processSnapshot casefold maxEntries processes).entries.Pairwise
      fun a b => b.rssBytes ≤ a.rssBytes := by
  refine List.Pairwise.sublist (List.take_sublist _ _) ?_
  refine Ranking.pairwise_insertionSort (fun a b c hab hbc => hbc.trans hab) (fun a b hfirst => ?_)
    (fun a b hlater => not_lt.1 fun hlt => hlater (Or.inl hlt)) _
  rcases hfirst with hlt | heq
  · exact hlt.le
  · exact heq.1.ge

end Loop

end GoffyHub.MacProcesses
