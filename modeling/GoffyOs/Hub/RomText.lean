import GoffyOs.Hub.BoundedText
import GoffyOs.Python.Json
import GoffyOs.Python.Re
import GoffyOs.Python.Words
import Mathlib.Data.List.DropRight

/-!
# The texts of `goffy.rom.status` and `goffy.rom.checklist`

The tools read JSON artifacts that they did not write. A text of an artifact is shown when it names no
path and no command and has no control characters; otherwise the reader raises a `ValueError`.
-/

namespace GoffyHub.Rom

open Python Regex

def maxBlockers : ℕ := 8
def maxBlockerLength : ℕ := 160
def maxStatusLength : ℕ := 96
def maxSummaryLength : ℕ := 192
def maxNextActionLength : ℕ := 192
def maxBlockerCount : ℕ := 10000

/-- A `ValueError` by its message, or a `ValidationError`. -/
inductive RomError
  | valueError (message : String)
  | validationError
  deriving DecidableEq

/-- The members of a JSON object. -/
abbrev Members := List (Str × Json)

/-- `.get(key)`. -/
def get (o : Members) (key : String) : Option Json := o.lookup key.toList

/-- `COMMAND_TEXT_PATTERNS`. -/
def commandTextPatterns : List Pattern := [
  .inTurn [.boundary, .oneOf [.literal "adb", .literal "fastboot"], .plus (.one .space),
    .oneOf [.literal "reboot", .literal "shell", .literal "sideload", .literal "push", .literal "install",
      .literal "uninstall", .literal "root", .literal "remount", .literal "disable-verity",
      .literal "enable-verity", .literal "flash", .literal "flashing", .literal "oem", .literal "erase",
      .literal "wipe", .literal "boot", .literal "getvar", .literal "devices"], .boundary],
  .inTurn [.boundary, .oneOf [.literal "avbctl", .literal "magisk"], .boundary],
  .inTurn [.boundary, .oneOf [.literal "sh", .literal "su", .literal "pm", .literal "cmd", .literal "am",
    .literal "rm", .literal "dd", .literal "mkfs"], .plus (.one .space)],
  .inTurn [.boundary, .literal "reboot", .plus (.one .space),
    .oneOf [.literal "bootloader", .literal "fastboot", .literal "recovery"], .boundary],
  .inTurn [.boundary, .literal "flash", .plus (.one .space),
    .oneOf [.literal "boot", .literal "system", .literal "vendor", .literal "vbmeta", .literal "image"],
    .boundary],
  .inTurn [.boundary, .literal "boot", .plus (.one .space), .plus (.one .notSpace), .literal ".img",
    .boundary],
  .inTurn [.boundary, .literal "shell", .boundary]]

/-- `[A-Z0-9]`. -/
def acronymSet : CharSet := .ranges [('A', 'Z'), ('0', '9')]

/-- `[A-Z0-9]{2,8}(?:/[A-Z0-9]{2,8})+`. -/
def acronyms : Pattern :=
  .seq (.between (.one acronymSet) 2 8)
    (.plus (.seq (.one (.char '/')) (.between (.one acronymSet) 2 8)))

/-- `SAFE_SLASH_TOKEN`. -/
def safeSlashToken : Pattern := .inTurn [.boundary, acronyms, .boundary]

/-- `_contains_path_like_text`. -/
def containsPathLikeText (value : Str) : Bool :=
  contains (casefold value) "file://".toList || value.contains '\\' ||
    (remove (re false) safeSlashToken value).contains '/'

/-- `unicodedata.category(c) in {"Cc", "Cf"}`. -/
def isControlOrFormat (c : Char) : Bool :=
  let n := c.toNat
  n ≤ 0x1f || (0x7f ≤ n && n ≤ 0x9f) || n == 0xad || (0x600 ≤ n && n ≤ 0x605) || n == 0x61c ||
    n == 0x6dd || n == 0x70f || n == 0x890 || n == 0x891 || n == 0x8e2 || n == 0x180e ||
    (0x200b ≤ n && n ≤ 0x200f) || (0x202a ≤ n && n ≤ 0x202e) || (0x2060 ≤ n && n ≤ 0x2064) ||
    (0x2066 ≤ n && n ≤ 0x206f) || n == 0xfeff || (0xfff9 ≤ n && n ≤ 0xfffb) || n == 0x110bd ||
    n == 0x110cd || (0x13430 ≤ n && n ≤ 0x1343f) || (0x1bca0 ≤ n && n ≤ 0x1bca3) ||
    (0x1d173 ≤ n && n ≤ 0x1d17a) || n == 0xe0001 || (0xe0020 ≤ n && n ≤ 0xe007f)

/-- `str.rstrip()`. -/
def rstrip (s : Str) : Str := s.rdropWhile isSpace

def normalize (value : Str) : Str := joinWords (split (strip value))

/-- `_bounded_text`. -/
def boundedText (value : Str) (maximum : ℕ) : Except RomError Str :=
  let normalized := normalize value
  if normalized.any isControlOrFormat then
    .error (.valueError "text contains unsupported control characters")
  else if containsPathLikeText normalized then
    .error (.valueError "text contains unsupported path-like content")
  else if commandTextPatterns.any fun pattern => search (re true) pattern normalized then
    .error (.valueError "text contains unsupported command-like content")
  else if maximum < normalized.length then
    .ok (rstrip (normalized.take (maximum - 3)) ++ "...".toList)
  else .ok (if normalized = [] then "unknown".toList else normalized)

/-- The function that the tools share, by what each takes for a path. -/
def shownText (isPathLike : Str → Bool) (value : Str) (maximum : ℕ) : Except RomError Str :=
  let normalized := normalize value
  if normalized.any isControlOrFormat then
    .error (.valueError "text contains unsupported control characters")
  else if isPathLike normalized then
    .error (.valueError "text contains unsupported path-like content")
  else if commandTextPatterns.any fun pattern => search (re true) pattern normalized then
    .error (.valueError "text contains unsupported command-like content")
  else if maximum < normalized.length then
    .ok (rstrip (normalized.take (maximum - 3)) ++ "...".toList)
  else .ok (if normalized = [] then "unknown".toList else normalized)

theorem boundedText_eq : boundedText = shownText containsPathLikeText := rfl

/-- `_text_value`. -/
def textValue (value : Option Json) (default : Str) (maximum : ℕ) : Except RomError Str :=
  match value with
  | some (.str s) => if strip s = [] then .ok default else boundedText s maximum
  | _ => .ok default

/-- `_string_value`. -/
def stringValue (value : Option Json) (default : Str) : Except RomError Str :=
  textValue value default maxStatusLength

/-- `_string_items`. -/
def stringItems (value : Option Json) : List Str :=
  match value with
  | some (.array items) =>
    items.filterMap fun
      | .str s => if strip s = [] then none else some s
      | _ => none
  | _ => []

/-- A field of an output: the bounds of its length, and then its validator. -/
def validText (value : Str) (maxLength maximum : ℕ) : Except RomError Str :=
  if 1 ≤ value.length ∧ value.length ≤ maxLength then boundedText value maximum
  else .error .validationError

/-- A field with certain values. -/
def validLiteral (value : Str) (values : List String) : Except RomError Unit :=
  if values.any (·.toList = value) then .ok () else .error .validationError

/-- A count. -/
def validCount (value maximum : ℕ) : Except RomError Unit :=
  if value ≤ maximum then .ok () else .error .validationError

/-- `blockers`. -/
def validBlockers (blockers : List Str) : Except RomError (List Str) :=
  if blockers.length ≤ maxBlockers then
    blockers.mapM fun blocker => validText blocker maxBlockerLength maxBlockerLength
  else .error .validationError

/-! ### Texts of ASCII -/

/-- A text of ASCII. -/
def Ascii (s : Str) : Prop := ∀ c ∈ s, c.toNat < 0x80

instance (s : Str) : Decidable (Ascii s) := List.decidableBAll _ s

theorem Ascii.append {s t : Str} (hs : Ascii s) (ht : Ascii t) : Ascii (s ++ t) := by
  intro c hc
  rcases List.mem_append.1 hc with hc | hc
  · exact hs c hc
  · exact ht c hc

/-- A literal is decoded by this lemma, and not by evaluation. -/
theorem ascii_ofList {l : List Char} (h : Ascii l) : Ascii (String.ofList l).toList := by
  rw [String.toList_ofList]
  exact h

theorem validText_ofList {l : List Char} {n maximum : ℕ} (h : validText l n maximum = .ok l) :
    validText (String.ofList l).toList n maximum = .ok (String.ofList l).toList := by
  rw [String.toList_ofList]
  exact h

theorem Ascii.subset {s t : Str} (hs : Ascii s) (h : ∀ c ∈ t, c ∈ s) : Ascii t :=
  fun c hc => hs c (h c hc)

mutual

/-- The texts of a JSON value are of ASCII; its keys may be any. -/
def JsonAscii : Json → Prop
  | .str s => Ascii s
  | .array items => ItemsAscii items
  | .object members => MembersAscii members
  | .null | .bool _ | .int _ | .float _ => True

def ItemsAscii : List Json → Prop
  | [] => True
  | item :: items => JsonAscii item ∧ ItemsAscii items

def MembersAscii : List (Str × Json) → Prop
  | [] => True
  | (_, value) :: members => JsonAscii value ∧ MembersAscii members

end

theorem ItemsAscii.of_mem {items : List Json} (h : ItemsAscii items) {item : Json}
    (hitem : item ∈ items) : JsonAscii item := by
  induction items with
  | nil => exact absurd hitem List.not_mem_nil
  | cons first items ih =>
    rw [ItemsAscii] at h
    rcases List.mem_cons.1 hitem with rfl | hitem
    · exact h.1
    · exact ih h.2 hitem

theorem MembersAscii.get {o : Members} (h : MembersAscii o) {key : String} {value : Json}
    (hvalue : get o key = some value) : JsonAscii value := by
  unfold Rom.get at hvalue
  induction o with
  | nil => cases hvalue
  | cons m o ih =>
    obtain ⟨k, v⟩ := m
    rw [MembersAscii] at h
    rw [List.lookup_cons] at hvalue
    split at hvalue
    · obtain rfl := Option.some.inj hvalue
      exact h.1
    · exact ih h.2 hvalue

section Bounded

variable {value v default : Str} {maximum n : ℕ}

theorem mem_normalize {c : Char} (hc : c ∈ normalize value) : c = ' ' ∨ c ∈ value := by
  refine (mem_joinWords hc).imp_right ?_
  rintro ⟨w, hw, hcw⟩
  exact mem_of_mem_trim (mem_of_mem_splitMax hw c hcw)

theorem length_normalize : (normalize value).length ≤ value.length := by
  have hstrip : (strip value).length ≤ value.length := by
    rw [strip, trim, List.length_reverse]
    refine (List.dropWhile_sublist _).length_le.trans ?_
    rw [List.length_reverse]
    exact (List.dropWhile_sublist _).length_le
  exact (length_joinWords_splitMax.trans (List.dropWhile_sublist _).length_le).trans hstrip

/-- A normalized text starts with no space. -/
theorem head_normalize {c : Char} (hc : (normalize value).head? = some c) : isSpace c = false :=
  head?_joinWords (fun _ hw => isWord_of_mem_splitMax le_rfl hw) hc

theorem Ascii.normalize (h : Ascii value) : Ascii (normalize value) := by
  intro c hc
  rcases mem_normalize hc with rfl | hc
  · decide
  · exact h c hc

/-- What is shown of a text that is taken. -/
theorem shownText_ok {isPathLike : Str → Bool} (h : shownText isPathLike value maximum = .ok v) :
    (normalize value).any isControlOrFormat = false ∧ isPathLike (normalize value) = false ∧
      (commandTextPatterns.any fun pattern => search (re true) pattern (normalize value)) = false ∧
      v = if maximum < (normalize value).length then
        rstrip ((normalize value).take (maximum - 3)) ++ "...".toList
        else if normalize value = [] then "unknown".toList else normalize value := by
  unfold shownText at h
  dsimp only at h
  split at h
  · cases h
  case isFalse hcontrol =>
    split at h
    · cases h
    case isFalse hpath =>
      split at h
      · cases h
      case isFalse hcommand =>
        refine ⟨Bool.eq_false_iff.2 hcontrol, Bool.eq_false_iff.2 hpath,
          Bool.eq_false_iff.2 hcommand, ?_⟩
        split at h
        case isTrue hlong =>
          rw [if_pos hlong]
          exact (Except.ok.inj h).symm
        case isFalse hshort =>
          rw [if_neg hshort]
          exact (Except.ok.inj h).symm

theorem ascii_shownText {isPathLike : Str → Bool} (hvalue : Ascii value)
    (h : shownText isPathLike value maximum = .ok v) : Ascii v := by
  obtain ⟨-, -, -, rfl⟩ := shownText_ok h
  split
  · refine Ascii.append (hvalue.normalize.subset fun c hc => ?_) (by decide)
    exact List.mem_of_mem_take ((List.rdropWhile_prefix _ _).subset hc)
  · split
    · decide
    · exact hvalue.normalize

/-- What `_bounded_text` makes of a text that it takes. -/
theorem boundedText_ok (h : boundedText value maximum = .ok v) :
    (normalize value).any isControlOrFormat = false ∧ containsPathLikeText (normalize value) = false ∧
      (commandTextPatterns.any fun pattern => search (re true) pattern (normalize value)) = false ∧
      v = if maximum < (normalize value).length then
        rstrip ((normalize value).take (maximum - 3)) ++ "...".toList
        else if normalize value = [] then "unknown".toList else normalize value :=
  shownText_ok (boundedText_eq ▸ h)

theorem ascii_boundedText (hvalue : Ascii value) (h : boundedText value maximum = .ok v) : Ascii v :=
  ascii_shownText hvalue (boundedText_eq ▸ h)

theorem ascii_textValue {json : Option Json} (hjson : ∀ j ∈ json, JsonAscii j)
    (hdefault : Ascii default) (h : textValue json default maximum = .ok v) : Ascii v := by
  unfold textValue at h
  split at h
  case h_1 s =>
    split at h
    · obtain rfl := Except.ok.inj h
      exact hdefault
    · have hs := hjson _ rfl
      rw [JsonAscii] at hs
      exact ascii_boundedText hs h
  · obtain rfl := Except.ok.inj h
    exact hdefault

theorem ascii_stringItems {json : Option Json} (hjson : ∀ j ∈ json, JsonAscii j) :
    ∀ s ∈ stringItems json, Ascii s := by
  intro s hs
  unfold stringItems at hs
  split at hs
  case h_1 items =>
    have hitems := hjson _ rfl
    rw [JsonAscii] at hitems
    obtain ⟨item, hitem, hsome⟩ := List.mem_filterMap.1 hs
    split at hsome
    · split at hsome
      · cases hsome
      · obtain rfl := Option.some.inj hsome
        have hascii := hitems.of_mem hitem
        rw [JsonAscii] at hascii
        exact hascii
    · cases hsome
  · exact absurd hs List.not_mem_nil

/-- A text that both sides show. -/
structure IsSafe (n : ℕ) (s : Str) : Prop where
  display : IsDisplayText n s
  noPath : containsPathLikeText s = false
  noCommand : ∀ pattern ∈ commandTextPatterns, search (re true) pattern s = false

theorem isPrintable_of_ascii {c : Char} (hc : c.toNat < 0x80) (hcontrol : isControlOrFormat c = false) :
    isPrintable c = true := by
  rw [isPrintable_iff]
  simp only [isControlOrFormat, Bool.or_eq_false_iff, Bool.and_eq_false_iff, decide_eq_false_iff_not,
    beq_eq_false_iff_ne] at hcontrol
  omega

/-- A text that is shown again, when it is short enough to be shown as it is. -/
theorem shownText_safe {isPathLike : Str → Bool} (hunknown : isPathLike "unknown".toList = false)
    (hvalue : Ascii value) (hn : 7 ≤ n) (hlength : value.length ≤ n) (hmaximum : n ≤ maximum)
    (h : shownText isPathLike value maximum = .ok v) :
    IsDisplayText n v ∧ isPathLike v = false ∧
      ∀ pattern ∈ commandTextPatterns, search (re true) pattern v = false := by
  obtain ⟨hcontrol, hpath, hcommand, rfl⟩ := shownText_ok h
  have hnormalized : (normalize value).length ≤ n := length_normalize.trans hlength
  rw [if_neg (not_lt.2 (hnormalized.trans hmaximum))]
  split
  · exact ⟨⟨by decide, by decide, by simp; decide, hn⟩, hunknown, by decide +kernel⟩
  case isFalse hne =>
    refine ⟨⟨fun c hc => ?_, hne, fun c hc => head_normalize hc, hnormalized⟩, hpath, ?_⟩
    · have hc' := List.any_eq_false.1 hcontrol c hc
      exact isPrintable_of_ascii (hvalue.normalize c hc) (by simpa using hc')
    · intro pattern hpattern
      simpa using List.any_eq_false.1 hcommand pattern hpattern

/-- A field that is taken is safe: the validator normalizes the text and looks at what it shows. -/
theorem isSafe_of_validText (hvalue : Ascii value) (hn : 7 ≤ n) (hmaximum : n ≤ maximum)
    (h : validText value n maximum = .ok v) : IsSafe n v := by
  unfold validText at h
  split at h
  case isFalse => cases h
  case isTrue hlength =>
    obtain ⟨hdisplay, hpath, hcommand⟩ :=
      shownText_safe (by decide +kernel) hvalue hn hlength.2 hmaximum (boundedText_eq ▸ h)
    exact ⟨hdisplay, hpath, hcommand⟩

end Bounded

end GoffyHub.Rom
