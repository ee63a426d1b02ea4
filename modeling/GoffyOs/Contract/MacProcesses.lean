import GoffyOs.Hub.MacProcesses
import GoffyOs.Phone.HubTools

/-!
# `mac.processes.list` across the two sides

For every list of processes the counters of the answer fit together and its entries are in order. The
phone refuses the answer for a name or a status only: the Hub cleans a text of the controls of ASCII and
of some marks, and the phone looks for controls and format characters of every kind.
-/

namespace GoffyHub.MacProcesses

open GoffyPhone Kotlin

def MacProcessEntryOutput.onPhone (o : MacProcessEntryOutput) : MacProcessEntry where
  pid := o.pid
  name := ofChars o.name
  status := ofChars o.status
  rssBytes := o.rssBytes
  createTimeEpochSeconds := o.createTimeEpochSeconds

def MacProcessesListOutput.onPhone (o : MacProcessesListOutput) : MacProcessesList where
  status := ofChars o.status
  processCount := o.processCount
  skippedCount := o.skippedCount
  truncated := o.truncated
  entries := o.entries.map (·.onPhone)

/-- The phone shows the process: its name and its status, as they are after they were cut. -/
structure ProcessInfo.Showable (info : ProcessInfo) : Prop where
  name : IsShowable maxMacProcessNameLength (boundedProcessName (textOrUnknown info.name))
  status : IsShowable maxMacProcessStatusLength
    (boundedText isReplaced unknown (textOrUnknown info.status) maxProcessStatusChars)

theorem isSafeDisplayField_bounded {value : Python.Str} {limit n : ℕ} :
    isSafeDisplayField (ofChars (boundedText isReplaced unknown value limit)) n = true ↔
      IsShowable n (boundedText isReplaced unknown value limit) := by
  refine isSafeDisplayField_boundedText (by decide) fun c hc => ?_
  obtain rfl : 'u' = c := Option.some.inj hc
  decide

/-- A separator is no character of a process name. -/
theorem contains_ofChars_boundedProcessName {value : Python.Str} {c : Char} (hc : c = '/' ∨ c = '\\') :
    (ofChars (boundedProcessName value)).contains c.toNat.toUInt16 = false := by
  have hbmp : c.toNat < 0xd800 := by
    rcases hc with rfl | rfl
    · decide
    · decide
  rw [← Bool.not_eq_true, List.contains_iff_mem, toUInt16_mem_ofChars hbmp]
  exact separator_notMem_boundedProcessName hc

theorem processEntry_matchesToolContract_iff (info : ProcessInfo) :
    (processEntry info).onPhone.matchesToolContract = true ↔ info.Showable := by
  have hpid : inRange 0 maxMacProcessPid (processEntry info).pid = true :=
    inRange_iff.2 (boundedInt_mem info.pid (by decide))
  have hrss : inRange 0 maxMacProcessRssBytes (processEntry info).rssBytes = true :=
    inRange_iff.2 (boundedInt_mem info.rss (by decide))
  have hcreate : (processEntry info).createTimeEpochSeconds.all (0 ≤ ·) = true := by
    unfold processEntry
    cases info.createTime with
    | none => rfl
    | some time => exact decide_eq_true (boundedInt_mem (some time) (by decide)).1
  have hslash : (ofChars (processEntry info).name).contains slash = false :=
    contains_ofChars_boundedProcessName (Or.inl rfl)
  have hbackslash : (ofChars (processEntry info).name).contains backslash = false :=
    contains_ofChars_boundedProcessName (Or.inr rfl)
  have hname : isSafeDisplayField (ofChars (processEntry info).name) maxMacProcessNameLength = true ↔
      IsShowable maxMacProcessNameLength (boundedProcessName (textOrUnknown info.name)) :=
    isSafeDisplayField_bounded
  have hstatus : isSafeDisplayField (ofChars (processEntry info).status) maxMacProcessStatusLength =
      true ↔ IsShowable maxMacProcessStatusLength
        (boundedText isReplaced unknown (textOrUnknown info.status) maxProcessStatusChars) :=
    isSafeDisplayField_bounded
  simp only [MacProcessEntry.matchesToolContract, MacProcessEntryOutput.onPhone, hpid, hrss, hcreate,
    hslash, hbackslash, Bool.and_eq_true, Bool.not_false, true_and, and_true, hname, hstatus]
  exact ⟨fun h => ⟨h.1, h.2⟩, fun h => ⟨h.name, h.status⟩⟩

/-- **Lists of processes.** The answer matches the phone's contract if and only if the phone shows the
name and the status of every process in it. -/
theorem processSnapshot_matchesToolContract_iff (casefold : Python.Str → Python.Str)
    (request : MacProcessesListInput) (processes : List (Option ProcessInfo)) :
    (processSnapshot casefold request.maxEntries processes).onPhone.matchesToolContract = true ↔
      ∀ info ∈ shownProcesses casefold request.maxEntries processes, info.Showable := by
  have hcounted := @counted_processSnapshot casefold request.maxEntries processes
  have hsorted := @pairwise_entries casefold request.maxEntries processes
  have hentries := @entries_processSnapshot casefold request.maxEntries processes
  have hstatus : (processSnapshot casefold request.maxEntries processes).status =
      "available".toList := rfl
  generalize processSnapshot casefold request.maxEntries processes = o
    at hcounted hsorted hentries hstatus
  have hshown := hcounted.shown_le
  have hcount := hcounted.processCount_le
  have hlength : o.onPhone.entries.length = o.entries.length := List.length_map _
  have hlimit : o.entries.length ≤ maxProcessEntries := by
    rw [hentries, List.length_map]
    exact (List.length_take_le _ _).trans request.maxEntries_le
  have hstatusField : isSafeDisplayField o.onPhone.status maxMacProcessStatusTextLength = true := by
    show isSafeDisplayField (ofChars o.status) maxMacProcessStatusTextLength = true
    rw [hstatus]
    decide
  have hprocessCount : inRange 0 maxMacProcessCount o.onPhone.processCount = true :=
    inRange_iff.2 ⟨Int.natCast_nonneg _, Int.ofNat_le.2 hcount⟩
  have hskippedLe : o.skippedCount ≤ o.processCount := by omega
  have hskippedCount : inRange 0 maxMacProcessCount o.onPhone.skippedCount = true :=
    inRange_iff.2 ⟨Int.natCast_nonneg _, Int.ofNat_le.2 (hskippedLe.trans hcount)⟩
  have hskipped : o.onPhone.skippedCount ≤ o.onPhone.processCount := Int.ofNat_le.2 hskippedLe
  have hshownCount : (o.onPhone.entries.length : ℤ) ≤ o.onPhone.processCount := by
    rw [hlength]
    exact Int.ofNat_le.2 (by omega)
  have htruncated : (if o.onPhone.truncated then
      decide ((o.onPhone.entries.length : ℤ) ≤ o.onPhone.processCount - o.onPhone.skippedCount)
      else decide ((o.onPhone.entries.length : ℤ) = o.onPhone.processCount - o.onPhone.skippedCount)) =
      true := by
    rw [hlength]
    show (if o.truncated then decide ((o.entries.length : ℤ) ≤ o.processCount - o.skippedCount)
      else decide ((o.entries.length : ℤ) = o.processCount - o.skippedCount)) = true
    split
    · exact decide_eq_true (by omega)
    case isFalse hwhole =>
      have heq := hcounted.shown_eq (Bool.eq_false_iff.2 hwhole)
      exact decide_eq_true (by omega)
  have hordered : ∀ p ∈ o.onPhone.entries.zip o.onPhone.entries.tail,
      decide (p.2.rssBytes ≤ p.1.rssBytes) = true := by
    have hmap : o.onPhone.entries.Pairwise fun a b => b.rssBytes ≤ a.rssBytes :=
      List.pairwise_map.2 hsorted
    exact fun p hp => decide_eq_true (Ranking.of_mem_zip_tail hmap p hp)
  have hall : (∀ e ∈ o.onPhone.entries, e.matchesToolContract = true) ↔
      ∀ info ∈ shownProcesses casefold request.maxEntries processes, info.Showable := by
    rw [MacProcessesListOutput.onPhone, hentries, List.forall_mem_map, List.forall_mem_map]
    exact forall₂_congr fun info _ => processEntry_matchesToolContract_iff info
  have hmaximum : o.onPhone.entries.length ≤ maxMacProcessEntries := hlength.trans_le hlimit
  simp only [MacProcessesList.matchesToolContract, hstatusField, hprocessCount, hskippedCount, hskipped,
    hmaximum, hshownCount, htruncated, decide_true, Bool.true_and, Bool.and_eq_true, List.all_eq_true]
  exact (and_iff_left hordered).trans hall

/-! ### A name with a joiner -/

/-- The family emoji as a name, that is two characters with a joiner between them. -/
def familyName : Python.Str := [Char.ofNat 0x1f468, Char.ofNat 0x200d, Char.ofNat 0x1f469]

def demoProcess (name : Python.Str) : ProcessInfo :=
  ⟨some 501, some name, some "running".toList, some 4096, some 1752422400⟩

theorem demoEntries_pos : 1 ≤ 10 := by decide

def demoRequest : MacProcessesListInput := ⟨10, demoEntries_pos, by decide⟩

/-- **A joiner.** One process with such a name, and the phone refuses the list with the other one. -/
theorem family_name_is_rejected :
    (processSnapshot id demoRequest.maxEntries [some (demoProcess "Finder".toList),
      some (demoProcess familyName)]).onPhone.matchesToolContract = false ∧
    (processSnapshot id demoRequest.maxEntries
      [some (demoProcess "Finder".toList)]).onPhone.matchesToolContract = true := by
  decide +kernel

end GoffyHub.MacProcesses
