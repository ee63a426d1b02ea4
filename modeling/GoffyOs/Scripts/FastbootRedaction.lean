import GoffyOs.Scripts.FastbootText

/-!
# Output that has been redacted

What the checks of a redacted output say about the output that it was made from. A line is shown with its
device or without its paths, but not both: what stands after a device is not redacted, and a line that is
cut may become one with a device.

* `Redactable` is what an output needs so that nothing in it is left to be redacted;
* `showsDevice` says which lines are counted as devices after the redaction.
-/

namespace GoffyScripts.Fastboot

open Python Substitution

-- `decide` looks at the members of a list one by one
attribute [local instance (high)] List.decidableBAll

section

variable (beyond : Char → Bool)

/-- There is an absolute path in the text. -/
def namesPath (s : Str) : Bool := search (absolutePosixPath beyond) s || search (absoluteWindowsPath beyond) s

/-- Nothing is left to be redacted: no path stands after a device, and no line without a device becomes
one with a serial when it is cut. -/
structure Redactable (text : Str) : Prop where
  devices : ∀ line ∈ strippedLines text, ∀ serial, deviceSerial line = some serial →
    namesPath beyond (line.drop serial.length) = false
  cut : ∀ line ∈ strippedLines text, deviceSerial line = none →
    validSerial (line.take maxOutputLine) = none

/-- The line has a device, or the mark of one where it is cut. -/
def showsDevice (line : Str) : Bool :=
  (deviceSerial line).isSome || deviceSerial (line.take maxOutputLine) = some serialMark

end

/-! ### Parts of a text -/

section Divides

variable {beyond : Char → Bool} {s t w : Str} {c : Char}

theorem prefix_of_prefix_append (hc : c ∉ w) : w <+: s ++ c :: t ↔ w <+: s := by
  constructor
  · intro h
    obtain ⟨z, hz⟩ := h
    rcases List.append_eq_append_iff.1 hz with ⟨y, rfl, -⟩ | ⟨y, rfl, hy⟩
    · exact List.prefix_append _ _
    · cases y with
      | nil => exact ⟨[], by simp⟩
      | cons d y =>
        obtain ⟨rfl, -⟩ := List.cons.inj hy
        exact absurd (List.mem_append_right _ List.mem_cons_self) hc
  · exact fun h => h.trans (List.prefix_append _ _)

theorem divides_posix : Divides (absolutePosixPath beyond) '\n' where
  nil _ := rfl
  before p s t := by
    rw [posix_ne_zero_iff, posix_ne_zero_iff]
    refine and_congr_right fun _ => exists_congr fun c => ?_
    have hword : ∀ u : Str, (∃ v, u = '/' :: c :: v ∧ isTail c = true) ↔
        isTail c = true ∧ ['/', c] <+: u := fun u =>
      ⟨fun ⟨v, hv, hc⟩ => ⟨hc, v, hv.symm⟩, fun ⟨hc, v, hv⟩ => ⟨v, hv.symm, hc⟩⟩
    rw [hword, hword]
    refine and_congr_right fun hc => prefix_of_prefix_append ?_
    intro hmem
    rcases List.mem_cons.1 hmem with h | hmem
    · exact absurd h (by decide)
    · rw [← List.mem_singleton.1 hmem] at hc
      exact absurd hc (by decide)
  after s := by
    rw [posix_ne_zero_iff, posix_ne_zero_iff]
    exact and_congr_left fun _ => by simp [isWord, isWordChar, isAlnum]

theorem divides_windows : Divides (absoluteWindowsPath beyond) '\n' where
  nil _ := rfl
  before p s t := by
    rw [windows_ne_zero_iff, windows_ne_zero_iff, drive_ne_zero_iff, drive_ne_zero_iff,
      unc_ne_zero_iff, unc_ne_zero_iff]
    refine or_congr ?_ ?_
    · refine exists_congr fun a => exists_congr fun d => ?_
      have hword : ∀ u : Str, (∃ v, u = a :: ':' :: '\\' :: d :: v ∧
          p.any (isWord beyond) ≠ isWord beyond a ∧ isDriveLetter a = true ∧ isTail d = true) ↔
          (p.any (isWord beyond) ≠ isWord beyond a ∧ isDriveLetter a = true ∧ isTail d = true) ∧
            [a, ':', '\\', d] <+: u := fun u =>
        ⟨fun ⟨v, hv, h⟩ => ⟨h, v, hv.symm⟩, fun ⟨h, v, hv⟩ => ⟨v, hv.symm, h⟩⟩
      rw [hword, hword]
      refine and_congr_right fun h => prefix_of_prefix_append ?_
      obtain ⟨-, hletter, hd⟩ := h
      intro hmem
      simp only [List.mem_cons, List.not_mem_nil, or_false] at hmem
      rcases hmem with rfl | hcolon | hbackslash | rfl
      · exact absurd hletter (by decide)
      · exact absurd hcolon (by decide)
      · exact absurd hbackslash (by decide)
      · exact absurd hd (by decide)
    · refine exists_congr fun host => exists_congr fun d => ?_
      have hword : ∀ u : Str, (∃ v, u = '\\' :: '\\' :: (host ++ '\\' :: d :: v) ∧ host ≠ [] ∧
          (∀ c ∈ host, isHostChar c = true) ∧ isTail d = true) ↔
          (host ≠ [] ∧ (∀ c ∈ host, isHostChar c = true) ∧ isTail d = true) ∧
            ('\\' :: '\\' :: (host ++ ['\\', d])) <+: u := by
        intro u
        constructor
        · rintro ⟨v, rfl, h⟩
          exact ⟨h, v, by simp⟩
        · rintro ⟨h, v, rfl⟩
          exact ⟨v, by simp, h⟩
      rw [hword, hword]
      refine and_congr_right fun h => prefix_of_prefix_append ?_
      obtain ⟨-, hhost, hd⟩ := h
      intro hmem
      simp only [List.mem_cons, List.mem_append, List.not_mem_nil, or_false] at hmem
      rcases hmem with hbackslash | hbackslash | hmem | hbackslash | rfl
      · exact absurd hbackslash (by decide)
      · exact absurd hbackslash (by decide)
      · exact absurd (hhost _ hmem) (by decide)
      · exact absurd hbackslash (by decide)
      · exact absurd hd (by decide)
  after s := by
    rw [windows_ne_zero_iff, windows_ne_zero_iff, drive_ne_zero_iff, drive_ne_zero_iff]
    have hword : (some '\n').any (isWord beyond) = (none : Option Char).any (isWord beyond) := by
      simp [isWord, isWordChar, isAlnum]
    rw [hword]

theorem search_joinLines {m : Matcher Char} (hm : Divides m '\n') (lines : List Str) :
    search m (joinLines lines) = lines.any (search m) := by
  induction lines with
  | nil => rfl
  | cons line lines ih =>
    cases lines with
    | nil => rw [joinLines, List.any_cons, List.any_nil, Bool.or_false]
    | cons next lines =>
      rw [joinLines, List.any_cons, ← ih]
      exact searchFrom_append_sep hm line _

theorem namesPath_joinLines (lines : List Str) :
    namesPath beyond (joinLines lines) = lines.any (namesPath beyond) := by
  rw [namesPath, search_joinLines divides_posix, search_joinLines divides_windows, Bool.eq_iff_iff]
  simp only [Bool.or_eq_true, List.any_eq_true, namesPath, and_or_left, exists_or]

end Divides

/-! ### A line -/

section Line

variable {beyond : Char → Bool} {line serial s : Str}

/-- A text that starts with no white space loses white space at its end only. -/
theorem strip_spec (hs : ∀ c, s.head? = some c → isSpace c = false) :
    ∃ tail, s = strip s ++ tail ∧ (∀ c ∈ tail, isSpace c = true) := by
  have hdrop : s.dropWhile isSpace = s := by
    cases s with
    | nil => rfl
    | cons c s => exact List.dropWhile_cons_of_neg (by simp [hs c rfl])
  refine ⟨(s.reverse.takeWhile isSpace).reverse, ?_, ?_⟩
  · rw [strip, trim, hdrop, ← List.reverse_append, List.takeWhile_append_dropWhile, List.reverse_reverse]
  · exact fun c hc => List.mem_takeWhile_imp (List.mem_reverse.1 hc)

/-- Stripping keeps the device of a line. -/
theorem deviceSerial_strip (hs : ∀ c, s.head? = some c → isSpace c = false) :
    deviceSerial (strip s) = deviceSerial s := by
  obtain ⟨tail, hsplit, htail⟩ := strip_spec hs
  refine Option.ext fun serial => ?_
  rw [deviceSerial_eq_some_iff, deviceSerial_eq_some_iff]
  constructor
  · rintro ⟨gap, rest, h, hstrip⟩
    refine ⟨gap, rest ++ tail, { h with rest_head := ?_ }, ?_⟩
    · intro c hc
      cases rest with
      | nil => exact htail c (List.mem_of_mem_head? hc)
      | cons d rest => exact h.rest_head c hc
    · rw [hsplit, hstrip]
      simp only [List.append_assoc]
  · rintro ⟨gap, rest, h, hwhole⟩
    -- the last character of the word is in what is left
    have heq : (serial ++ (gap ++ fastbootWord)) ++ rest = strip s ++ tail := by
      rw [← hsplit, hwhole]
      simp only [List.append_assoc]
    rcases List.append_eq_append_iff.1 heq with ⟨z, hstrip, hrest⟩ | ⟨z, hword, -⟩
    · refine ⟨gap, z, { h with rest_head := ?_ }, ?_⟩
      · intro c hc
        refine h.rest_head c ?_
        rw [hrest, List.head?_append, hc]
        rfl
      · rw [hstrip]
        simp only [List.append_assoc]
    · have hz : z = [] := by
        by_contra hne
        have hlast : (serial ++ (gap ++ fastbootWord)).getLast? = some 't' := by
          rw [← List.append_assoc, List.getLast?_append]
          rfl
        rw [hword, List.getLast?_append_of_ne_nil _ hne] at hlast
        have hmem : 't' ∈ tail := by
          rcases List.append_eq_append_iff.1 heq with ⟨y, hy, -⟩ | ⟨y, hy, htailEq⟩
          · exfalso
            rw [hy] at hword
            have hlength := congrArg List.length hword
            simp only [List.length_append] at hlength
            exact hne (List.length_eq_zero_iff.1 (by omega))
          · have hyz : y = z := List.append_cancel_left (hy.symm.trans hword)
            rw [htailEq, hyz]
            exact List.mem_append_left _ (List.mem_of_mem_getLast? hlast)
        exact absurd (htail 't' hmem) (by decide)
      subst hz
      rw [List.append_nil] at hword
      exact ⟨gap, [], { h with rest_head := fun c hc => by cases hc }, by rw [List.append_nil, ← hword]⟩

theorem isRedactedDeviceLine_iff : isRedactedDeviceLine line = true ↔ deviceSerial line = some serialMark := by
  rw [deviceSerial_eq_some_iff, isRedactedDeviceLine, Bool.and_eq_true, Bool.and_eq_true, startswith,
    List.isPrefixOf_iff_prefix, startsWithFastboot_iff]
  constructor
  · rintro ⟨⟨⟨gapRest, rfl⟩, hspace⟩, rest, hrest, hhead⟩
    rw [List.drop_left] at hspace hrest
    refine ⟨gapRest.takeWhile isSpace, rest, ⟨by decide, by decide, ?_, fun c hc =>
      List.mem_takeWhile_imp hc, hhead⟩, ?_⟩
    · cases gapRest with
      | nil => cases hspace
      | cons c gapRest =>
        have hc : isSpace c = true := hspace
        rw [List.takeWhile_cons_of_pos hc]
        exact List.cons_ne_nil _ _
    · rw [← hrest, List.takeWhile_append_dropWhile]
  · rintro ⟨gap, rest, h, rfl⟩
    rw [List.drop_left, List.dropWhile_append_of_pos h.gap_space]
    obtain ⟨c, gap', hgap⟩ := List.exists_cons_of_ne_nil h.gap_ne
    refine ⟨⟨List.prefix_append _ _, ?_⟩, rest, List.dropWhile_cons_of_neg (by decide), h.rest_head⟩
    rw [hgap]
    exact h.gap_space c (hgap ▸ List.mem_cons_self)

/-- A line with a device has its serial replaced. -/
theorem redactLine_of_device (h : deviceSerial line = some serial) :
    redactLine beyond line = serialMark ++ line.drop serial.length := by
  obtain ⟨gap, rest, hline, rfl⟩ := deviceSerial_eq_some_iff.1 h
  obtain ⟨c, serial', rfl⟩ := List.exists_cons_of_ne_nil hline.serial_ne
  have hpre : (c :: serial').isPrefixOf (c :: (serial' ++ (gap ++ (fastbootWord ++ rest)))) = true :=
    List.isPrefixOf_iff_prefix.2 (List.prefix_append (c :: serial') _)
  rw [redactLine, h]
  dsimp only
  rw [List.cons_append, replaceFirst, if_pos hpre]

theorem redactLine_of_none (h : deviceSerial line = none) :
    redactLine beyond line = redactPaths beyond (line.take maxOutputLine) := by
  rw [redactLine, h]

theorem deviceSerial_mark (h : deviceSerial line = some serial) :
    deviceSerial (serialMark ++ line.drop serial.length) = some serialMark := by
  obtain ⟨gap, rest, hline, rfl⟩ := deviceSerial_eq_some_iff.1 h
  rw [List.drop_left]
  exact deviceSerial_eq_some_iff.2
    ⟨gap, rest, { hline with serial_ne := by decide, serial_visible := by decide }, rfl⟩

theorem head_sub {m : Matcher Char} {t : Str} {c : Char} (h : (sub m pathMark t).head? = some c) :
    c = '<' ∨ t.head? = some c := by
  obtain ⟨u, hu⟩ := List.head?_eq_some_iff.1 h
  rcases head_subFrom pathMark_ne_nil hu with ⟨s', rfl, -⟩ | ⟨-, hmark⟩
  · exact Or.inr rfl
  · exact Or.inl (Option.some.inj hmark).symm

/-- A redacted line starts with no white space. -/
theorem head_redactLine (hline : ∀ c, line.head? = some c → isSpace c = false) {c : Char}
    (h : (redactLine beyond line).head? = some c) : isSpace c = false := by
  cases hdevice : deviceSerial line with
  | some serial =>
    rw [redactLine_of_device hdevice] at h
    obtain rfl : '<' = c := Option.some.inj h
    decide
  | none =>
    rw [redactLine_of_none hdevice, redactPaths] at h
    rcases head_sub h with rfl | h
    · decide
    · rcases head_sub h with rfl | h
      · decide
      · refine hline c ?_
        cases line with
        | nil => cases h
        | cons d line => exact h

/-- The device of a redacted line. -/
theorem deviceSerial_redactLine (hline : ∀ c, line.head? = some c → isSpace c = false)
    (hkept : IsKept serial) : deviceSerial (strip (redactLine beyond line)) = some serial ↔
      (deviceSerial line).isSome = true ∧ serial = serialMark ∨
        deviceSerial line = none ∧ deviceSerial (line.take maxOutputLine) = some serial := by
  rw [deviceSerial_strip fun c => head_redactLine hline]
  cases hdevice : deviceSerial line with
  | some serial' =>
    rw [redactLine_of_device hdevice, deviceSerial_mark hdevice]
    simp [eq_comm]
  | none =>
    rw [redactLine_of_none hdevice, deviceSerial_redactPaths_iff hkept]
    simp

theorem validSerial_eq_some_iff : validSerial line = some serial ↔
    deviceSerial line = some serial ∧ isSerial serial = true := by
  rw [validSerial, Option.filter_eq_some_iff]

/-- A redacted line shows a serial if and only if it has been cut to one. -/
theorem validSerial_redactLine (hline : ∀ c, line.head? = some c → isSpace c = false) :
    validSerial (strip (redactLine beyond line)) = none ↔
      (deviceSerial line = none → validSerial (line.take maxOutputLine) = none) := by
  have hmark : isSerial serialMark = false := by decide
  constructor
  · intro hnone hdevice
    by_contra hcut
    obtain ⟨serial, hserial⟩ := Option.ne_none_iff_exists'.1 hcut
    obtain ⟨hcutDevice, hvalid⟩ := validSerial_eq_some_iff.1 hserial
    have hredacted := (@deviceSerial_redactLine beyond _ _ hline
      (isKept_of_isSerial hvalid)).2 (Or.inr ⟨hdevice, hcutDevice⟩)
    rw [validSerial_eq_some_iff.2 ⟨hredacted, hvalid⟩] at hnone
    cases hnone
  · intro hcut
    by_contra hsome
    obtain ⟨serial, hserial⟩ := Option.ne_none_iff_exists'.1 hsome
    obtain ⟨hredacted, hvalid⟩ := validSerial_eq_some_iff.1 hserial
    rcases (deviceSerial_redactLine hline (isKept_of_isSerial hvalid)).1 hredacted with
      ⟨-, rfl⟩ | ⟨hdevice, hcutDevice⟩
    · rw [hmark] at hvalid
      cases hvalid
    · rw [validSerial_eq_some_iff.2 ⟨hcutDevice, hvalid⟩] at hcut
      cases hcut hdevice

theorem isRedactedDeviceLine_redactLine (hline : ∀ c, line.head? = some c → isSpace c = false) :
    isRedactedDeviceLine (strip (redactLine beyond line)) = showsDevice line := by
  rw [Bool.eq_iff_iff, isRedactedDeviceLine_iff, deviceSerial_redactLine hline isKept_serialMark,
    showsDevice, Bool.or_eq_true, decide_eq_true_eq]
  cases hdevice : deviceSerial line with
  | some serial => simp
  | none => simp

end Line

/-! ### The whole output -/

section Output

variable {beyond : Char → Bool} {line serial text : Str}

/-- The mark of a serial has no part in a path. -/
theorem search_serialMark {m : Matcher Char} (hm : IsPathMatcher m)
    (hstart : ∀ p c s, m p (c :: s) ≠ 0 → isTail c = true) (h : deviceSerial line = some serial) :
    search m (serialMark ++ line.drop serial.length) = search m (line.drop serial.length) := by
  obtain ⟨gap, rest, hline, rfl⟩ := deviceSerial_eq_some_iff.1 h
  rw [List.drop_left]
  have hmarked : IsDeviceLine serialMark gap rest :=
    { hline with serial_ne := by decide, serial_visible := by decide }
  obtain ⟨q, hq⟩ := @searchFrom_append _ m none serialMark
    (gap ++ (fastbootWord ++ rest)) fun p v a v' hv => by
      have hwhole : serialMark ++ (gap ++ fastbootWord) = v ++ a :: (v' ++ (gap ++ fastbootWord)) := by
        rw [hv]
        simp only [List.append_assoc, List.cons_append]
      have hnone := hmarked.no_path (p := p) isKept_serialMark hm hwhole
      simpa only [List.append_assoc] using hnone
  rw [search, hq]
  -- no path begins at the gap, whatever stands before it
  obtain ⟨c, gap', rfl⟩ := List.exists_cons_of_ne_nil hline.gap_ne
  have hzero : ∀ p s, m p (c :: s) = 0 := by
    intro p s
    by_contra hmatch
    have htail := hstart p c s hmatch
    simp [isTail, hline.gap_space c List.mem_cons_self] at htail
  rw [search, List.cons_append, searchFrom_cons, searchFrom_cons, hzero, hzero]

/-- Without a separator there is no path. -/
theorem searchFrom_of_no_separator {m : Matcher Char} (hm : IsPathMatcher m) {s : Str}
    (hs : '/' ∉ s ∧ '\\' ∉ s) (p : Option Char) : searchFrom m p s = false := by
  induction s generalizing p with
  | nil => rfl
  | cons a s ih =>
    have hnone : ¬ m p (a :: s) ≠ 0 := by
      intro hmatch
      obtain ⟨u, c, v, hsplit, -, hc⟩ := hm p _ hmatch
      have hmem : c ∈ a :: s := hsplit ▸ List.mem_append_right _ List.mem_cons_self
      rcases hc with rfl | rfl
      · exact hs.1 hmem
      · exact hs.2 hmem
    rw [searchFrom_cons, decide_eq_false hnone, Bool.false_or]
    exact ih ⟨fun h => hs.1 (List.mem_cons_of_mem _ h), fun h => hs.2 (List.mem_cons_of_mem _ h)⟩ _

theorem namesPath_redactLine : namesPath beyond (redactLine beyond line) = false ↔
    ∀ serial, deviceSerial line = some serial → namesPath beyond (line.drop serial.length) = false := by
  cases hdevice : deviceSerial line with
  | some serial =>
    have hposix := search_serialMark isPathMatcher_posix
      (fun p c s h => @isTail_of_path beyond _ _ _ (Or.inl h)) hdevice
    have hwindows := search_serialMark isPathMatcher_windows
      (fun p c s h => @isTail_of_path beyond _ _ _ (Or.inr h)) hdevice
    rw [redactLine_of_device hdevice, namesPath, hposix, hwindows]
    constructor
    · rintro h _ heq
      rw [← Option.some.inj heq]
      exact h
    · exact fun h => h serial rfl
  | none =>
    rw [redactLine_of_none hdevice, namesPath, search_posix_redactPaths, search_windows_redactPaths]
    exact iff_of_true rfl fun serial heq => by cases heq

theorem mem_strippedLines (h : line ∈ strippedLines text) :
    (∀ c, line.head? = some c → isSpace c = false) ∧ ∀ c ∈ line, isLineBreak c = false := by
  obtain ⟨raw, hraw, rfl⟩ := List.mem_map.1 h
  refine ⟨fun c hc => Trimming.head?_trimmed (s := raw) hc, fun c hc => ?_⟩
  exact isLineBreak_of_mem_splitlines hraw c (mem_of_mem_trim hc)

theorem isLineBreak_redactLine (hline : ∀ c ∈ line, isLineBreak c = false) :
    ∀ c ∈ redactLine beyond line, isLineBreak c = false := by
  intro c hc
  have hmarks : ∀ c ∈ serialMark ++ pathMark, isLineBreak c = false := by decide
  cases hdevice : deviceSerial line with
  | some serial =>
    rw [redactLine_of_device hdevice] at hc
    rcases List.mem_append.1 hc with hc | hc
    · exact hmarks c (List.mem_append_left _ hc)
    · exact hline c (List.mem_of_mem_drop hc)
  | none =>
    rw [redactLine_of_none hdevice, redactPaths] at hc
    rcases mem_of_mem_subFrom hc with hc | hc
    · exact hmarks c (List.mem_append_right _ hc)
    · rcases mem_of_mem_subFrom hc with hc | hc
      · exact hmarks c (List.mem_append_right _ hc)
      · exact hline c (List.mem_of_mem_take hc)

/-- Reading the lines of a redacted output is reading the redacted lines. -/
theorem filterMap_strippedLines_redact {β : Type} {f : Str → Option β} (hf : f [] = none) (text : Str) :
    (strippedLines (redactFastbootOutput beyond text)).filterMap f =
      (strippedLines text).filterMap fun line => f (strip (redactLine beyond line)) := by
  rw [strippedLines, redactFastbootOutput, List.filterMap_map,
    filterMap_splitlines_joinLines (f := f ∘ strip) hf, List.filterMap_map]
  · rfl
  · intro line hline
    obtain ⟨raw, hraw, rfl⟩ := List.mem_map.1 hline
    exact isLineBreak_redactLine (mem_strippedLines hraw).2

/-- What shows a serial after the redaction are the lines that have been cut to one. -/
theorem parseFastbootDevices_redact_iff :
    parseFastbootDevices (redactFastbootOutput beyond text) = [] ↔
      ∀ line ∈ strippedLines text, deviceSerial line = none →
        validSerial (line.take maxOutputLine) = none := by
  rw [parseFastbootDevices, filterMap_strippedLines_redact rfl, List.filterMap_eq_nil_iff]
  exact forall₂_congr fun line hline => validSerial_redactLine (mem_strippedLines hline).1

/-- What names a path after the redaction are the lines with a device and a path after it. -/
theorem namesPath_redact_iff : namesPath beyond (redactFastbootOutput beyond text) = false ↔
    ∀ line ∈ strippedLines text, ∀ serial, deviceSerial line = some serial →
      namesPath beyond (line.drop serial.length) = false := by
  rw [redactFastbootOutput, namesPath_joinLines, List.any_eq_false, List.forall_mem_map]
  refine forall₂_congr fun line _ => ?_
  rw [Bool.not_eq_true]
  exact namesPath_redactLine

theorem containsUnredacted_eq_false_iff : containsUnredactedFastbootOutput beyond text = false ↔
    parseFastbootDevices text = [] ∧ namesPath beyond text = false := by
  rw [containsUnredactedFastbootOutput, Bool.or_assoc, Bool.or_eq_false_iff, Bool.not_eq_false',
    List.isEmpty_iff, namesPath]

theorem containsUnredacted_redact_iff :
    containsUnredactedFastbootOutput beyond (redactFastbootOutput beyond text) = false ↔
      Redactable beyond text := by
  rw [containsUnredacted_eq_false_iff, parseFastbootDevices_redact_iff, namesPath_redact_iff]
  exact ⟨fun h => ⟨h.2, h.1⟩, fun h => ⟨h.cut, h.devices⟩⟩

/-- The devices that are counted after the redaction. -/
theorem countRedacted_redact : countRedactedFastbootDevices (redactFastbootOutput beyond text) =
    (strippedLines text).countP showsDevice := by
  have hguard : Option.guard isRedactedDeviceLine [] = none := by decide
  have hlines := @filterMap_strippedLines_redact beyond _ _ hguard text
  rw [countRedactedFastbootDevices, List.countP_eq_length_filter, ← List.filterMap_eq_filter, hlines,
    List.length_filterMap_eq_countP]
  refine List.countP_congr fun line hline => ?_
  rw [← @isRedactedDeviceLine_redactLine beyond _ (mem_strippedLines hline).1,
    Option.isSome_guard]

/-- **Redaction.** A redacted output shows no serial and names no path if and only if no path stands after
a device and no line is cut to one with a device, and just then its check finds nothing to redact in it. -/
theorem redacted_output_is_clean_iff :
    (containsUnredactedFastbootOutput beyond (redactFastbootOutput beyond text) = false ↔
        Redactable beyond text) ∧
      (parseFastbootDevices (redactFastbootOutput beyond text) = [] ∧
          search (absolutePosixPath beyond) (redactFastbootOutput beyond text) = false ∧
          search (absoluteWindowsPath beyond) (redactFastbootOutput beyond text) = false ↔
        Redactable beyond text) := by
  refine ⟨containsUnredacted_redact_iff, ?_⟩
  rw [← containsUnredacted_redact_iff, containsUnredacted_eq_false_iff, namesPath,
    Bool.or_eq_false_iff]

def pathOutput : Str := "0123456789ABCDEF\tfastboot usb:/dev/bus".toList

/-- A line of 241 characters. -/
def longOutput : Str :=
  "0123456789ABCDEF".toList ++ (List.replicate 216 ' ' ++ "fastboot2".toList)

/-- A path after a device, and a line that is cut to one with a device, are not redacted. -/
theorem redaction_leaves_path_and_serial :
    (search (absolutePosixPath fun _ => false) (redactFastbootOutput (fun _ => false) pathOutput) =
        true ∧
      containsUnredactedFastbootOutput (fun _ => false)
        (redactFastbootOutput (fun _ => false) pathOutput) = true) ∧
    parseFastbootDevices (redactFastbootOutput (fun _ => false) longOutput) =
        ["0123456789ABCDEF".toList] ∧
      containsUnredactedFastbootOutput (fun _ => false)
        (redactFastbootOutput (fun _ => false) longOutput) = true := by
  decide +kernel

end Output

end GoffyScripts.Fastboot
