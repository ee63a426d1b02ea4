import GoffyOs.Lib.Substitution
import GoffyOs.Lib.Trimming
import GoffyOs.Python.Re
import GoffyOs.Python.Words

/-!
# The output of fastboot (`scripts/create_rom_fastboot_evidence.py`)

What the scripts read in the output of fastboot, and what they take out of it: the serials of the devices
and the absolute paths. The patterns are written as functions of the place in a text; `\w` is exact for
ASCII, and beyond it is a parameter.

* `deviceSerial_eq_some_iff` says what a line with a device is;
* `search_posix_redactPaths` and `search_windows_redactPaths`: no path is left when the paths have been
  replaced;
* `deviceSerial_redactPaths_iff`: replacing paths makes no devices, and keeps them.
-/

namespace GoffyScripts.Fastboot

open Python Substitution

/-! ### Patterns -/

/-- `SERIAL_PATTERN.fullmatch`: `^[A-Za-z0-9._:-]{4,128}$`. -/
def isSerial (s : Str) : Bool :=
  4 ≤ s.length && s.length ≤ 128 &&
    s.all (inRanges [('A', 'Z'), ('a', 'z'), ('0', '9'), ('.', '.'), ('_', '_'), (':', ':'), ('-', '-')])

def fastbootWord : Str := "fastboot".toList

/-- `fastboot(?:\s|$)` at the beginning of a text. -/
def startsWithFastboot (s : Str) : Bool :=
  startswith s fastbootWord && (s.drop fastbootWord.length).head?.all isSpace

/-- The serial of `FASTBOOT_DEVICE_LINE_PATTERN.match`: `^(?P<serial>\S+)\s+fastboot(?:\s|$)`. -/
def deviceSerial (line : Str) : Option Str :=
  let serial := line.takeWhile (!isSpace ·)
  let rest := line.dropWhile (!isSpace ·)
  if serial ≠ [] ∧ rest ≠ [] ∧ startsWithFastboot (rest.dropWhile isSpace) = true then some serial
  else none

section

variable (beyond : Char → Bool)

/-- `\w`. -/
def isWord (c : Char) : Bool := if c.toNat < 0x80 then isWordChar c else beyond c

/-- `[;\n\r,)]`. -/
def isStop (c : Char) : Bool := c = ';' || c = '\n' || c = '\r' || c = ',' || c = ')'

/-- `[^\s;\n\r,)]`. -/
def isTail (c : Char) : Bool := !isSpace c && !isStop c

/-- `ABSOLUTE_POSIX_PATH`: `(?<![>\w])/(?!\s)(?:[^;\n\r,)]+)`. -/
def absolutePosixPath : Matcher Char
  | p, a :: c :: s =>
    if a = '/' ∧ p.all (fun d => d ≠ '>' && !isWord beyond d) ∧ isTail c then
      1 + ((c :: s).takeWhile (!isStop ·)).length
    else 0
  | _, _ => 0

/-- `[A-Z]`, with `(?i)`. -/
def isDriveLetter : Char → Bool := reIsIn true (.ranges [('A', 'Z')])

/-- `[A-Za-z0-9._$-]`, with `(?i)`. -/
def isHostChar : Char → Bool :=
  reIsIn true
    (.ranges [('A', 'Z'), ('a', 'z'), ('0', '9'), ('.', '.'), ('_', '_'), ('$', '$'), ('-', '-')])

/-- `\b[A-Z]:\\[^\s;\n\r,)]+`. -/
def drivePath : Matcher Char
  | p, a :: b :: c :: d :: s =>
    if p.any (isWord beyond) ≠ isWord beyond a ∧ isDriveLetter a ∧ b = ':' ∧ c = '\\' ∧ isTail d then
      3 + ((d :: s).takeWhile isTail).length
    else 0
  | _, _ => 0

/-- `\\\\[A-Za-z0-9._$-]+\\[^\s;\n\r,)]+`. -/
def uncPath : Str → ℕ
  | a :: b :: s =>
    match s.dropWhile isHostChar with
    | c :: d :: t =>
      if a = '\\' ∧ b = '\\' ∧ s.takeWhile isHostChar ≠ [] ∧ c = '\\' ∧ isTail d then
        2 + (s.takeWhile isHostChar).length + 1 + ((d :: t).takeWhile isTail).length
      else 0
    | _ => 0
  | _ => 0

/-- `ABSOLUTE_WINDOWS_PATH`: the one or the other. -/
def absoluteWindowsPath : Matcher Char := fun p s =>
  if drivePath beyond p s ≠ 0 then drivePath beyond p s else uncPath s

/-! ### Redaction -/

def pathMark : Str := "<path>".toList

def serialMark : Str := "<device-serial>".toList

/-- `redact_paths`. -/
def redactPaths (text : Str) : Str :=
  sub (absolutePosixPath beyond) pathMark (sub (absoluteWindowsPath beyond) pathMark text)

def maxOutputLine : ℕ := 240

/-- A line of `redact_fastboot_output`. -/
def redactLine (line : Str) : Str :=
  match deviceSerial line with
  | some serial => replaceFirst serial serialMark line
  | none => redactPaths beyond (line.take maxOutputLine)

/-- The lines of a text, stripped. -/
def strippedLines (text : Str) : List Str := (splitlines text).map strip

/-- `redact_fastboot_output`. -/
def redactFastbootOutput (text : Str) : Str :=
  joinLines ((strippedLines text).map (redactLine beyond))

/-- The serial of a line, where it is one of `SERIAL_PATTERN`. -/
def validSerial (line : Str) : Option Str := (deviceSerial line).filter isSerial

/-- `parse_fastboot_devices`. -/
def parseFastbootDevices (text : Str) : List Str := (strippedLines text).filterMap validSerial

/-- `contains_unredacted_fastboot_output`. -/
def containsUnredactedFastbootOutput (text : Str) : Bool :=
  !(parseFastbootDevices text).isEmpty || search (absolutePosixPath beyond) text ||
    search (absoluteWindowsPath beyond) text

/-- `REDACTED_FASTBOOT_DEVICE_LINE_PATTERN.match`: `^<device-serial>\s+fastboot(?:\s|$)`. -/
def isRedactedDeviceLine (line : Str) : Bool :=
  let rest := line.drop serialMark.length
  startswith line serialMark && rest.head?.any isSpace && startsWithFastboot (rest.dropWhile isSpace)

/-- `count_redacted_fastboot_devices`. -/
def countRedactedFastbootDevices (text : Str) : ℕ := (strippedLines text).countP isRedactedDeviceLine

end

/-! ### Lines with a device -/

section Devices

variable {serial line : Str}

/-- The line has this serial, a gap, and the word after it. -/
structure IsDeviceLine (serial gap rest : Str) : Prop where
  serial_ne : serial ≠ []
  serial_visible : ∀ c ∈ serial, isSpace c = false
  gap_ne : gap ≠ []
  gap_space : ∀ c ∈ gap, isSpace c = true
  rest_head : ∀ c, rest.head? = some c → isSpace c = true

theorem startsWithFastboot_iff {s : Str} : startsWithFastboot s = true ↔
    ∃ rest, s = fastbootWord ++ rest ∧ ∀ c, rest.head? = some c → isSpace c = true := by
  rw [startsWithFastboot, Bool.and_eq_true, startswith, List.isPrefixOf_iff_prefix]
  constructor
  · rintro ⟨⟨rest, rfl⟩, hhead⟩
    rw [List.drop_left] at hhead
    exact ⟨rest, rfl, fun c hc => by rw [hc] at hhead; exact hhead⟩
  · rintro ⟨rest, rfl, hhead⟩
    refine ⟨List.prefix_append _ _, ?_⟩
    rw [List.drop_left]
    cases hc : rest.head? with
    | none => rfl
    | some c => exact hhead c hc

theorem IsDeviceLine.takeWhile_eq {gap rest : Str} (h : IsDeviceLine serial gap rest) (t : Str) :
    (serial ++ (gap ++ t)).takeWhile (!isSpace ·) = serial ∧
      (serial ++ (gap ++ t)).dropWhile (!isSpace ·) = gap ++ t := by
  have hserial : ∀ c ∈ serial, (!isSpace c) = true := fun c hc => by rw [h.serial_visible c hc]; rfl
  obtain ⟨c, gap', rfl⟩ := List.exists_cons_of_ne_nil h.gap_ne
  have hc : (!isSpace c) = false := by rw [h.gap_space c List.mem_cons_self]; rfl
  rw [List.takeWhile_append_of_pos hserial, List.dropWhile_append_of_pos hserial, List.cons_append,
    List.takeWhile_cons_of_neg (by simp [hc]), List.dropWhile_cons_of_neg (by simp [hc]),
    List.append_nil]
  exact ⟨rfl, rfl⟩

theorem deviceSerial_eq_some_iff : deviceSerial line = some serial ↔
    ∃ gap rest, IsDeviceLine serial gap rest ∧ line = serial ++ (gap ++ (fastbootWord ++ rest)) := by
  constructor
  · intro h
    rw [deviceSerial] at h
    split at h
    case isFalse => cases h
    case isTrue hline =>
      obtain ⟨hserial, hrest, hword⟩ := hline
      obtain rfl := Option.some.inj h
      obtain ⟨rest, hdrop, hhead⟩ := startsWithFastboot_iff.1 hword
      refine ⟨(line.dropWhile (!isSpace ·)).takeWhile isSpace, rest, ⟨hserial, ?_, ?_, ?_, hhead⟩, ?_⟩
      · intro c hc
        simpa using List.mem_takeWhile_imp hc
      · obtain ⟨c, t, hct⟩ := List.exists_cons_of_ne_nil hrest
        have hspace := List.head?_dropWhile_not (!isSpace ·) line
        rw [hct] at hspace ⊢
        rw [List.takeWhile_cons_of_pos (by simpa using hspace)]
        exact List.cons_ne_nil _ _
      · exact fun c hc => List.mem_takeWhile_imp hc
      · rw [← hdrop, List.takeWhile_append_dropWhile, List.takeWhile_append_dropWhile]
  · rintro ⟨gap, rest, h, rfl⟩
    obtain ⟨htake, hdrop⟩ := h.takeWhile_eq (fastbootWord ++ rest)
    have hgap : (gap ++ (fastbootWord ++ rest)).dropWhile isSpace = fastbootWord ++ rest := by
      rw [List.dropWhile_append_of_pos h.gap_space]
      exact List.dropWhile_cons_of_neg (by decide)
    rw [deviceSerial, htake, hdrop, hgap]
    refine if_pos ⟨h.serial_ne, ?_, startsWithFastboot_iff.2 ⟨rest, rfl, h.rest_head⟩⟩
    exact List.append_ne_nil_of_left_ne_nil h.gap_ne _

end Devices

/-! ### Paths -/

section Paths

variable {beyond : Char → Bool} {p : Option Char} {a c : Char} {s : Str}

theorem drop_takeWhile {q : Char → Bool} (l : Str) : l.drop (l.takeWhile q).length = l.dropWhile q := by
  have h := List.takeWhile_append_dropWhile (p := q) (l := l)
  calc l.drop (l.takeWhile q).length
      = (l.takeWhile q ++ l.dropWhile q).drop (l.takeWhile q).length := by rw [h]
    _ = l.dropWhile q := List.drop_left

theorem posix_ne_zero_iff : absolutePosixPath beyond p s ≠ 0 ↔
    p.all (fun d => d ≠ '>' && !isWord beyond d) = true ∧
      ∃ c t, s = '/' :: c :: t ∧ isTail c = true := by
  unfold absolutePosixPath
  split
  case h_1 a c t =>
    split
    case isTrue h =>
      obtain ⟨rfl, hp, hc⟩ := h
      exact iff_of_true (by omega) ⟨hp, c, t, rfl, hc⟩
    case isFalse h =>
      refine iff_of_false (by simp) ?_
      rintro ⟨hp, c', t', heq, hc⟩
      obtain ⟨rfl, htail⟩ := List.cons.inj heq
      obtain ⟨rfl, -⟩ := List.cons.inj htail
      exact h ⟨rfl, hp, hc⟩
  case h_2 hshort =>
    refine iff_of_false (by simp) ?_
    rintro ⟨-, c, t, rfl, -⟩
    exact hshort _ _ _ rfl

theorem drive_ne_zero_iff : drivePath beyond p s ≠ 0 ↔
    ∃ a d t, s = a :: ':' :: '\\' :: d :: t ∧ p.any (isWord beyond) ≠ isWord beyond a ∧
      isDriveLetter a = true ∧ isTail d = true := by
  unfold drivePath
  split
  case h_1 a b c d t =>
    split
    case isTrue h =>
      obtain ⟨hword, ha, rfl, rfl, hd⟩ := h
      exact iff_of_true (by omega) ⟨a, d, t, rfl, hword, ha, hd⟩
    case isFalse h =>
      refine iff_of_false (by simp) ?_
      rintro ⟨a', d', t', heq, hword, ha, hd⟩
      cases heq
      exact h ⟨hword, ha, rfl, rfl, hd⟩
  case h_2 hshort =>
    refine iff_of_false (by simp) ?_
    rintro ⟨a, d, t, rfl, -⟩
    exact hshort _ _ _ _ _ rfl

theorem takeWhile_host {host t : Str} (hhost : ∀ c ∈ host, isHostChar c = true) :
    (host ++ '\\' :: t).takeWhile isHostChar = host ∧
      (host ++ '\\' :: t).dropWhile isHostChar = '\\' :: t := by
  have hbackslash : ¬ isHostChar '\\' = true := by decide
  rw [List.takeWhile_append_of_pos hhost, List.dropWhile_append_of_pos hhost,
    List.takeWhile_cons_of_neg hbackslash, List.dropWhile_cons_of_neg hbackslash, List.append_nil]
  exact ⟨rfl, rfl⟩

theorem unc_ne_zero_iff : uncPath s ≠ 0 ↔
    ∃ host d t, s = '\\' :: '\\' :: (host ++ '\\' :: d :: t) ∧ host ≠ [] ∧
      (∀ c ∈ host, isHostChar c = true) ∧ isTail d = true := by
  constructor
  · intro h
    unfold uncPath at h
    split at h
    case h_1 a b t =>
      split at h
      case h_1 c d t' hdrop =>
        split at h
        case isTrue hmatch =>
          obtain ⟨rfl, rfl, hhost, rfl, hd⟩ := hmatch
          refine ⟨t.takeWhile isHostChar, d, t', ?_, hhost, fun c hc => List.mem_takeWhile_imp hc, hd⟩
          rw [← hdrop, List.takeWhile_append_dropWhile]
        · exact absurd rfl h
      · exact absurd rfl h
    · exact absurd rfl h
  · rintro ⟨host, d, t, rfl, hne, hhost, hd⟩
    obtain ⟨htake, hdrop⟩ := takeWhile_host (t := d :: t) hhost
    unfold uncPath
    dsimp only
    rw [hdrop, htake]
    dsimp only
    rw [if_pos ⟨rfl, rfl, hne, rfl, hd⟩]
    omega

theorem windows_ne_zero_iff : absoluteWindowsPath beyond p s ≠ 0 ↔
    drivePath beyond p s ≠ 0 ∨ uncPath s ≠ 0 := by
  unfold absoluteWindowsPath
  split
  case isTrue h => exact iff_of_true h (Or.inl h)
  case isFalse h => exact (or_iff_right h).symm

/-- No white space and no stop is a letter of a drive. -/
theorem isTail_of_isDriveLetter (h : isDriveLetter a = true) : isTail a = true := by
  rw [isTail, Bool.and_eq_true, Bool.not_eq_true', Bool.not_eq_true', ← Bool.not_eq_true,
    ← Bool.not_eq_true]
  have hnone : ∀ n m, (∀ k < m, isDriveLetter (Char.ofNat (k + n)) = false) →
      ¬ (n ≤ a.toNat ∧ a.toNat < n + m) := by
    rintro n m hall ⟨hlow, hhigh⟩
    have hk := hall (a.toNat - n) (by omega)
    rw [Nat.sub_add_cancel hlow, Char.ofNat_toNat, h] at hk
    cases hk
  constructor
  · intro hspace
    have h1 := hnone 0x09 5 (by decide)
    have h2 := hnone 0x1c 5 (by decide)
    have h3 := hnone 0x85 1 (by decide)
    have h4 := hnone 0xa0 1 (by decide)
    have h5 := hnone 0x1680 1 (by decide)
    have h6 := hnone 0x2000 11 (by decide)
    have h7 := hnone 0x2028 2 (by decide)
    have h8 := hnone 0x202f 1 (by decide)
    have h9 := hnone 0x205f 1 (by decide)
    have h10 := hnone 0x3000 1 (by decide)
    simp only [isSpace, Bool.or_eq_true, Bool.and_eq_true, decide_eq_true_eq, beq_iff_eq] at hspace
    omega
  · intro hstop
    simp only [isStop, Bool.or_eq_true, decide_eq_true_eq] at hstop
    rcases hstop with (((rfl | rfl) | rfl) | rfl) | rfl
    all_goals exact absurd h (by decide)

/-- What a path of either kind begins with. -/
theorem isTail_of_path (h : absolutePosixPath beyond p (a :: s) ≠ 0 ∨
    absoluteWindowsPath beyond p (a :: s) ≠ 0) : isTail a = true := by
  rcases h with h | h
  · obtain ⟨-, c, t, heq, -⟩ := posix_ne_zero_iff.1 h
    obtain ⟨rfl, -⟩ := List.cons.inj heq
    decide
  · rcases windows_ne_zero_iff.1 h with hdrive | hunc
    · obtain ⟨b, d, t, heq, -, hletter, -⟩ := drive_ne_zero_iff.1 hdrive
      obtain ⟨rfl, -⟩ := List.cons.inj heq
      exact isTail_of_isDriveLetter hletter
    · obtain ⟨host, d, t, heq, -⟩ := unc_ne_zero_iff.1 hunc
      obtain ⟨rfl, -⟩ := List.cons.inj heq
      decide

end Paths

/-! ### No path is left -/

section Cleared

variable {beyond : Char → Bool} {p : Option Char} {a c : Char} {s t : Str} {m : Matcher Char}

theorem pathMark_ne_nil : pathMark ≠ [] := by decide

/-- What stands after a path of the first kind. -/
theorem posix_ends (h : absolutePosixPath beyond p s ≠ 0) {a : Char}
    (ha : (s.drop (absolutePosixPath beyond p s)).head? = some a) : isStop a = true := by
  obtain ⟨hp, c, t, rfl, hc⟩ := posix_ne_zero_iff.1 h
  have hlength : absolutePosixPath beyond p ('/' :: c :: t) =
      1 + ((c :: t).takeWhile (!isStop ·)).length := if_pos ⟨rfl, hp, hc⟩
  rw [hlength, Nat.add_comm, List.drop_succ_cons, drop_takeWhile] at ha
  have hhead := List.head?_dropWhile_not (!isStop ·) (c :: t)
  rw [ha] at hhead
  simpa using hhead

/-- What stands after a path of the second kind. -/
theorem windows_ends (h : absoluteWindowsPath beyond p s ≠ 0) {a : Char}
    (ha : (s.drop (absoluteWindowsPath beyond p s)).head? = some a) : isTail a = false := by
  -- both kinds of path go on as long as there are characters of a tail
  have hend : ∀ l : Str, (l.dropWhile isTail).head? = some a → isTail a = false := by
    intro l hl
    have hhead := List.head?_dropWhile_not isTail l
    rw [hl] at hhead
    simpa using hhead
  by_cases hdrive : drivePath beyond p s ≠ 0
  · have hsame : absoluteWindowsPath beyond p s = drivePath beyond p s := if_pos hdrive
    obtain ⟨b, d, t, rfl, hword, hletter, hd⟩ := drive_ne_zero_iff.1 hdrive
    have hlength : drivePath beyond p (b :: ':' :: '\\' :: d :: t) =
        3 + ((d :: t).takeWhile isTail).length := if_pos ⟨hword, hletter, rfl, rfl, hd⟩
    rw [hsame, hlength, Nat.add_comm] at ha
    refine hend (d :: t) ?_
    rw [← drop_takeWhile]
    exact ha
  · have hsame : absoluteWindowsPath beyond p s = uncPath s := if_neg hdrive
    have hunc : uncPath s ≠ 0 := hsame ▸ h
    obtain ⟨host, d, t, rfl, hne, hhost, hd⟩ := unc_ne_zero_iff.1 hunc
    obtain ⟨htake, hdrop⟩ := takeWhile_host (t := d :: t) hhost
    have hlength : uncPath ('\\' :: '\\' :: (host ++ '\\' :: d :: t)) =
        ((d :: t).takeWhile isTail).length + (host.length + 1) + 2 := by
      unfold uncPath
      dsimp only
      rw [hdrop, htake]
      dsimp only
      rw [if_pos ⟨rfl, rfl, hne, rfl, hd⟩]
      omega
    rw [hsame, hlength, List.drop_succ_cons, List.drop_succ_cons] at ha
    refine hend (d :: t) ?_
    rw [← drop_takeWhile]
    have hsplit : (host ++ '\\' :: d :: t).drop
        (((d :: t).takeWhile isTail).length + (host.length + 1)) =
        (d :: t).drop ((d :: t).takeWhile isTail).length := by
      rw [Nat.add_comm, ← List.drop_drop]
      congr 1
      rw [← List.drop_drop, List.drop_left]
      rfl
    rw [hsplit] at ha
    exact ha

/-- What stands in a text where a character of a path's tail stands after the replacements. -/
theorem tail_of_subFrom (hstart : ∀ p c s, m p (c :: s) ≠ 0 → isTail c = true) (hc : isTail c = true)
    (h : subFrom m pathMark 0 p s = c :: t) : ∃ d u, s = d :: u ∧ isTail d = true := by
  rcases head_subFrom pathMark_ne_nil h with ⟨u, rfl, -⟩ | ⟨hmatch, -⟩
  · exact ⟨c, u, rfl, hc⟩
  · cases s with
    | nil => cases h
    | cons d u => exact ⟨d, u, rfl, hstart p d u hmatch⟩

/-- A host's name and the character after it have been copied. -/
theorem host_of_subFrom {host : Str} (hhost : ∀ c ∈ host, isHostChar c = true)
    (h : subFrom m pathMark 0 p s = host ++ '\\' :: t) :
    ∃ u q, s = host ++ '\\' :: u ∧ t = subFrom m pathMark 0 q u := by
  induction host generalizing p s with
  | nil =>
    obtain ⟨u, rfl, ht⟩ := copied_of_subFrom pathMark_ne_nil (by decide) h
    exact ⟨u, _, rfl, ht⟩
  | cons c host ih =>
    obtain ⟨hc, hhost⟩ := List.forall_mem_cons.1 hhost
    have hne : pathMark.head? ≠ some c := by
      intro heq
      obtain rfl : '<' = c := Option.some.inj heq
      exact absurd hc (by decide)
    obtain ⟨s', rfl, hs'⟩ := copied_of_subFrom pathMark_ne_nil hne h
    obtain ⟨u, q, rfl, ht⟩ := ih hhost hs'.symm
    exact ⟨u, q, rfl, ht⟩

/-- Where replacements are made, no path of the first kind begins at a copied character. -/
theorem posix_copied (hstart : ∀ p c s, m p (c :: s) ≠ 0 → isTail c = true)
    (h : absolutePosixPath beyond p (a :: s) = 0) :
    absolutePosixPath beyond p (a :: subFrom m pathMark 0 (some a) s) = 0 := by
  by_contra hpath
  obtain ⟨hp, c, t, heq, hc⟩ := posix_ne_zero_iff.1 hpath
  obtain ⟨rfl, hsub⟩ := List.cons.inj heq
  obtain ⟨d, u, rfl, hd⟩ := tail_of_subFrom hstart hc hsub
  exact absurd h (posix_ne_zero_iff.2 ⟨hp, d, u, rfl, hd⟩)

theorem windows_copied (hstart : ∀ p c s, m p (c :: s) ≠ 0 → isTail c = true)
    (h : absoluteWindowsPath beyond p (a :: s) = 0) :
    absoluteWindowsPath beyond p (a :: subFrom m pathMark 0 (some a) s) = 0 := by
  by_contra hpath
  refine absurd h (windows_ne_zero_iff.2 ?_)
  rcases windows_ne_zero_iff.1 hpath with hdrive | hunc
  · obtain ⟨b, d, t, heq, hword, hletter, hd⟩ := drive_ne_zero_iff.1 hdrive
    obtain ⟨rfl, hsub⟩ := List.cons.inj heq
    obtain ⟨s1, rfl, hs1⟩ := copied_of_subFrom pathMark_ne_nil (by decide) hsub
    obtain ⟨s2, rfl, hs2⟩ := copied_of_subFrom pathMark_ne_nil (by decide) hs1.symm
    obtain ⟨e, u, rfl, he⟩ := tail_of_subFrom hstart hd hs2.symm
    exact Or.inl (drive_ne_zero_iff.2 ⟨a, e, u, rfl, hword, hletter, he⟩)
  · obtain ⟨host, d, t, heq, hne, hhost, hd⟩ := unc_ne_zero_iff.1 hunc
    obtain ⟨rfl, hsub⟩ := List.cons.inj heq
    obtain ⟨s1, rfl, hs1⟩ := copied_of_subFrom pathMark_ne_nil (by decide) hsub
    obtain ⟨s2, q, rfl, hs2⟩ := host_of_subFrom hhost hs1.symm
    obtain ⟨e, u, rfl, he⟩ := tail_of_subFrom hstart hd hs2.symm
    exact Or.inr (unc_ne_zero_iff.2 ⟨host, e, u, rfl, hne, hhost, he⟩)

/-- No path begins within a mark. -/
theorem posix_mark {u v : Str} (w : Str) (h : pathMark = u ++ a :: v) :
    absolutePosixPath beyond p (a :: (v ++ w)) = 0 := by
  by_contra hpath
  obtain ⟨-, c, t, heq, -⟩ := posix_ne_zero_iff.1 hpath
  obtain ⟨rfl, -⟩ := List.cons.inj heq
  have hmem : '/' ∈ pathMark := h ▸ List.mem_append_right _ List.mem_cons_self
  exact absurd hmem (by decide)

theorem windows_mark {u v : Str} (w : Str) (h : pathMark = u ++ a :: v) :
    absoluteWindowsPath beyond p (a :: (v ++ w)) = 0 := by
  by_contra hpath
  rcases windows_ne_zero_iff.1 hpath with hdrive | hunc
  · obtain ⟨b, d, t, heq, -, hletter, -⟩ := drive_ne_zero_iff.1 hdrive
    obtain ⟨rfl, hrest⟩ := List.cons.inj heq
    cases v with
    | nil =>
      -- the last character of the mark is no letter
      have hlast : pathMark.getLast? = some a := by rw [h, List.getLast?_append]; rfl
      obtain rfl : '>' = a := Option.some.inj hlast
      exact absurd hletter (by decide)
    | cons c v =>
      obtain ⟨rfl, -⟩ := List.cons.inj hrest
      have hmem : ':' ∈ pathMark :=
        h ▸ List.mem_append_right _ (List.mem_cons_of_mem _ List.mem_cons_self)
      exact absurd hmem (by decide)
  · obtain ⟨host, d, t, heq, -⟩ := unc_ne_zero_iff.1 hunc
    obtain ⟨rfl, -⟩ := List.cons.inj heq
    have hmem : '\\' ∈ pathMark := h ▸ List.mem_append_right _ List.mem_cons_self
    exact absurd hmem (by decide)

theorem posix_clears_posix :
    Clears (absolutePosixPath beyond) (absolutePosixPath beyond) pathMark isStop where
  ends p s h a ha := posix_ends h ha
  inner p u a v w h := posix_mark w h
  atStop p a s ha := by
    by_contra hpath
    have htail := isTail_of_path (Or.inl hpath)
    simp [isTail, ha] at htail
  copied p a s h := posix_copied (fun p c s hmatch => isTail_of_path (Or.inl hmatch)) h

theorem posix_clears_windows :
    Clears (absolutePosixPath beyond) (absoluteWindowsPath beyond) pathMark isStop where
  ends p s h a ha := posix_ends h ha
  inner p u a v w h := windows_mark w h
  atStop p a s ha := by
    by_contra hpath
    have htail := isTail_of_path (Or.inr hpath)
    simp [isTail, ha] at htail
  copied p a s h := windows_copied (fun p c s hmatch => isTail_of_path (Or.inl hmatch)) h

theorem windows_clears_windows :
    Clears (absoluteWindowsPath beyond) (absoluteWindowsPath beyond) pathMark fun c => !isTail c where
  ends p s h a ha := by rw [windows_ends h ha]; rfl
  inner p u a v w h := windows_mark w h
  atStop p a s ha := by
    by_contra hpath
    have htail := isTail_of_path (Or.inr hpath)
    simp [htail] at ha
  copied p a s h := windows_copied (fun p c s hmatch => isTail_of_path (Or.inr hmatch)) h

theorem search_posix_redactPaths (text : Str) :
    search (absolutePosixPath beyond) (redactPaths beyond text) = false :=
  search_sub posix_clears_posix (Or.inl rfl)

theorem search_windows_redactPaths (text : Str) :
    search (absoluteWindowsPath beyond) (redactPaths beyond text) = false :=
  search_sub posix_clears_windows (Or.inr (search_sub windows_clears_windows (Or.inl rfl)))

end Cleared

/-! ### Devices after the redaction -/

section Redacted

variable {beyond : Char → Bool} {p : Option Char} {serial line s t : Str} {m : Matcher Char}

/-- What the two kinds of paths have in common: a separator, with no white space before it. -/
def IsPathMatcher (m : Matcher Char) : Prop :=
  ∀ p s, m p s ≠ 0 → ∃ u c v, s = u ++ c :: v ∧ (∀ d ∈ u, isSpace d = false) ∧ (c = '/' ∨ c = '\\')

theorem isPathMatcher_posix : IsPathMatcher (absolutePosixPath beyond) := by
  intro p s h
  obtain ⟨-, c, t, rfl, -⟩ := posix_ne_zero_iff.1 h
  exact ⟨[], '/', c :: t, rfl, fun d hd => absurd hd List.not_mem_nil, Or.inl rfl⟩

theorem isPathMatcher_windows : IsPathMatcher (absoluteWindowsPath beyond) := by
  intro p s h
  rcases windows_ne_zero_iff.1 h with hdrive | hunc
  · obtain ⟨a, d, t, rfl, -, hletter, -⟩ := drive_ne_zero_iff.1 hdrive
    have htail := isTail_of_isDriveLetter hletter
    rw [isTail, Bool.and_eq_true, Bool.not_eq_true'] at htail
    refine ⟨[a, ':'], '\\', d :: t, rfl, ?_, Or.inr rfl⟩
    exact List.forall_mem_cons.2 ⟨htail.1, List.forall_mem_cons.2 ⟨by decide, by simp⟩⟩
  · obtain ⟨host, d, t, rfl, -⟩ := unc_ne_zero_iff.1 hunc
    exact ⟨[], '\\', _, rfl, fun d hd => absurd hd List.not_mem_nil, Or.inr rfl⟩

/-- A serial that a redaction neither changes nor makes. -/
structure IsKept (serial : Str) : Prop where
  no_slash : '/' ∉ serial
  no_backslash : '\\' ∉ serial
  no_mark : ∀ v v', serial = v ++ '<' :: v' → v' ≠ [] ∧ v'.head? ≠ some 'p'

theorem isKept_serialMark : IsKept serialMark where
  no_slash := by decide
  no_backslash := by decide
  no_mark v v' h := by
    have hmark : serialMark = '<' :: "device-serial>".toList := by decide
    rw [hmark] at h
    cases v with
    | nil =>
      have htail : "device-serial>".toList = v' := (List.cons.inj h).2
      rw [← htail]
      decide
    | cons c v =>
      have htail : "device-serial>".toList = v ++ '<' :: v' := (List.cons.inj h).2
      have hmem : '<' ∈ "device-serial>".toList := by
        rw [htail]
        exact List.mem_append_right _ List.mem_cons_self
      exact absurd hmem (by decide)

theorem isKept_of_isSerial (h : isSerial serial = true) : IsKept serial := by
  rw [isSerial, Bool.and_eq_true, List.all_eq_true] at h
  have hnot : ∀ c : Char, inRanges [('A', 'Z'), ('a', 'z'), ('0', '9'), ('.', '.'), ('_', '_'),
      (':', ':'), ('-', '-')] c = false → c ∉ serial := by
    intro c hc hmem
    rw [h.2 c hmem] at hc
    cases hc
  refine ⟨hnot '/' (by decide), hnot '\\' (by decide), fun v v' hv => ?_⟩
  exact absurd (hv ▸ List.mem_append_right _ List.mem_cons_self) (hnot '<' (by decide))

/-- No replacement starts within a line's serial, its gap and the word after it. -/
theorem IsDeviceLine.not_mark {gap rest : Str} (h : IsDeviceLine serial gap rest)
    (hkept : IsKept serial) (w : Str) {v v' : Str}
    (heq : serial ++ (gap ++ fastbootWord) = v ++ v') (hne : v' ≠ []) : ¬ pathMark <+: v' ++ w := by
  intro hpre
  obtain ⟨c, v', rfl⟩ := List.exists_cons_of_ne_nil hne
  have hhead : '<' = c := by
    obtain ⟨z, hz⟩ := hpre
    exact (List.cons.inj hz).1
  subst hhead
  have hgap : ∀ z : Str, gap ++ fastbootWord ≠ z ++ '<' :: v' := by
    intro z hz
    have hmem : '<' ∈ gap ++ fastbootWord := hz ▸ List.mem_append_right _ List.mem_cons_self
    rcases List.mem_append.1 hmem with hmem | hmem
    · exact absurd (h.gap_space _ hmem) (by decide)
    · exact absurd hmem (by decide)
  rcases List.append_eq_append_iff.1 heq with ⟨z, -, hz⟩ | ⟨z, hserial, hz⟩
  · exact hgap z hz
  · cases z with
    | nil => exact hgap [] hz.symm
    | cons d z =>
      obtain ⟨rfl, rfl⟩ := List.cons.inj hz
      obtain ⟨hnonempty, hp⟩ := hkept.no_mark v z hserial
      obtain ⟨e, z, rfl⟩ := List.exists_cons_of_ne_nil hnonempty
      obtain ⟨y, hy⟩ := hpre
      have hsecond : 'p' = e := (List.cons.inj (List.cons.inj hy).2).1
      exact hp (by rw [← hsecond]; rfl)

/-- No path begins within them. -/
theorem IsDeviceLine.no_path {gap rest : Str} (h : IsDeviceLine serial gap rest)
    (hkept : IsKept serial) (hm : IsPathMatcher m) {v v' : Str} {a : Char}
    (heq : serial ++ (gap ++ fastbootWord) = v ++ a :: v') : m p (a :: (v' ++ rest)) = 0 := by
  by_contra hmatch
  obtain ⟨u, c, w, hsplit, hvisible, hc⟩ := hm p _ hmatch
  have hsep : c ∉ serial ++ (gap ++ fastbootWord) := by
    intro hmem
    rcases List.mem_append.1 hmem with hmem | hmem
    · rcases hc with rfl | rfl
      · exact hkept.no_slash hmem
      · exact hkept.no_backslash hmem
    · rcases List.mem_append.1 hmem with hmem | hmem
      · have hspace := h.gap_space c hmem
        rcases hc with rfl | rfl
        · exact absurd hspace (by decide)
        · exact absurd hspace (by decide)
      · rcases hc with rfl | rfl
        · exact absurd hmem (by decide)
        · exact absurd hmem (by decide)
  have hnotSpace : isSpace c = false := by
    rcases hc with rfl | rfl
    · decide
    · decide
  -- the separator is not in the line's beginning, and white space stands right after that
  have happ : (a :: v') ++ rest = u ++ c :: w := hsplit
  rcases List.append_eq_append_iff.1 happ with ⟨z, hu, hrest⟩ | ⟨z, hleft, hz⟩
  · cases z with
    | nil =>
      have hspace := h.rest_head c (by rw [hrest]; rfl)
      rw [hnotSpace] at hspace
      cases hspace
    | cons d z =>
      have hspace := h.rest_head d (by rw [hrest]; rfl)
      rw [hvisible d (by rw [hu]; exact List.mem_append_right _ List.mem_cons_self)] at hspace
      cases hspace
  · cases z with
    | nil =>
      have hspace := h.rest_head c (by rw [← List.nil_append rest, ← hz]; rfl)
      rw [hnotSpace] at hspace
      cases hspace
    | cons d z =>
      obtain ⟨rfl, -⟩ := List.cons.inj hz
      refine hsep ?_
      rw [heq, hleft]
      exact List.mem_append_right _ (List.mem_append_right _ List.mem_cons_self)

/-- Replacing paths makes no lines with such a serial, and keeps them. -/
theorem deviceSerial_sub_iff (hm : IsPathMatcher m) (hstart : ∀ p c s, m p (c :: s) ≠ 0 → isTail c = true)
    (hkept : IsKept serial) :
    deviceSerial (sub m pathMark t) = some serial ↔ deviceSerial t = some serial := by
  rw [deviceSerial_eq_some_iff, deviceSerial_eq_some_iff]
  constructor
  · rintro ⟨gap, rest, h, hsub⟩
    have hwhole : subFrom m pathMark 0 none t = (serial ++ (gap ++ fastbootWord)) ++ rest := by
      rw [List.append_assoc, List.append_assoc]
      exact hsub
    obtain ⟨q, rest', rfl, hrest⟩ :=
      prefix_of_subFrom (fun v v' hv hne => h.not_mark hkept rest hv hne) hwhole
    refine ⟨gap, rest', { h with rest_head := ?_ }, by rw [List.append_assoc, List.append_assoc]⟩
    intro c hc
    cases hr : rest with
    | nil =>
      rw [hr] at hrest
      rw [(subFrom_eq_nil_iff pathMark_ne_nil).1 hrest.symm] at hc
      cases hc
    | cons d rest =>
      have hspace := h.rest_head d (by rw [hr]; rfl)
      have hd : pathMark.head? ≠ some d := by
        intro heq
        obtain rfl : '<' = d := Option.some.inj heq
        exact absurd hspace (by decide)
      rw [hr] at hrest
      obtain ⟨u, rfl, -⟩ := copied_of_subFrom pathMark_ne_nil hd hrest.symm
      obtain rfl : d = c := Option.some.inj hc
      exact hspace
  · rintro ⟨gap, rest, h, rfl⟩
    have happ := subFrom_append (m := m) (r := pathMark) (p := none) (s := rest)
      fun p v a v' hv => h.no_path (p := p) hkept hm hv
    obtain ⟨q, hq⟩ := happ
    refine ⟨gap, subFrom m pathMark 0 q rest, { h with rest_head := ?_ }, ?_⟩
    · intro c hc
      cases rest with
      | nil => cases hc
      | cons d rest =>
        have hspace := h.rest_head d rfl
        have hzero : m q (d :: rest) = 0 := by
          by_contra hmatch
          have htail := hstart q d rest hmatch
          simp [isTail, hspace] at htail
        rw [subFrom_cons_of_none hzero] at hc
        obtain rfl : d = c := Option.some.inj hc
        exact hspace
    · rw [List.append_assoc, List.append_assoc] at hq
      rw [sub, hq, List.append_assoc]
      simp only [List.append_assoc]

theorem deviceSerial_redactPaths_iff (hkept : IsKept serial) :
    deviceSerial (redactPaths beyond t) = some serial ↔ deviceSerial t = some serial := by
  rw [redactPaths,
    deviceSerial_sub_iff isPathMatcher_posix (fun p c s h => isTail_of_path (Or.inl h)) hkept,
    deviceSerial_sub_iff isPathMatcher_windows (fun p c s h => isTail_of_path (Or.inr h)) hkept]

end Redacted

end GoffyScripts.Fastboot
