import GoffyOs.Kotlin.Regex
import GoffyOs.Kotlin.Strings
import GoffyOs.Phone.Protocol

/-!
# Texts that were read (`ocr/OcrTextSummarizer.kt`)

Of a text that was read with the camera the phone keeps a summary: how long it is and the beginning of
it, or no preview where the text looks sensitive. The summary has to meet the contract of the tool
`phone.ocr.read` (`PhoneOcrRead.matchesToolContract`).

Sensitive texts are recognised in the whole text, and the preview is its beginning, so that a preview
has no marker and no digits of a card (`preview_not_sensitive`). The contract refuses control
characters, which the summary only looks for in part (`matchesToolContract_summarize_iff`).

The engine of the regular expressions is an argument: `\s` and `\d` are sets of ASCII on the JVM, and of
Unicode on Android.
-/

namespace GoffyPhone

open Kotlin

def maxOcrPreviewLength : ℕ := 600
def maxOcrCharacterCount : ℕ := 20000
def maxOcrLineCount : ℕ := 128
def phoneOcrStatusAvailable : Str := lit "available"
def phoneOcrScripts : List Str := [lit "latin"]

structure PhoneOcrRead where
  status : Str
  script : Str
  characterCount : ℕ
  characterCountTruncated : Bool
  lineCount : ℕ
  lineCountTruncated : Bool
  preview : Option Str
  previewTruncated : Bool
  redacted : Bool
  deriving DecidableEq

/-- `isSafeOcrPreview`. -/
def isSafeOcrPreview (s : Str) : Bool :=
  !isBlank s && s.length ≤ maxOcrPreviewLength && !s.any fun c => isISOControl c || isFormat c

namespace PhoneOcrRead

def matchesToolContract (r : PhoneOcrRead) : Bool :=
  r.status = phoneOcrStatusAvailable && r.script ∈ phoneOcrScripts &&
    (1 ≤ r.characterCount && r.characterCount ≤ maxOcrCharacterCount) &&
    (1 ≤ r.lineCount && r.lineCount ≤ maxOcrLineCount) &&
    if r.redacted then r.preview.isNone && !r.previewTruncated
    else match r.preview with
      | none => false
      | some preview => isSafeOcrPreview preview && preview.length ≤ r.characterCount

/-- `ocrReadSummary`. -/
def ocrReadSummary (r : PhoneOcrRead) : Str :=
  lit "OCR read " ++ lit (toString r.lineCount) ++
    if r.redacted then
      lit " lines; text hidden from timeline (" ++ lit (toString r.characterCount) ++ lit " chars)"
    else
      lit " lines: " ++ r.preview.getD (lit "no preview") ++
        if r.previewTruncated || r.characterCountTruncated || r.lineCountTruncated then lit "..."
        else []

instance : ToolResultContent PhoneOcrRead := ⟨fun _ => .phoneOcrRead, matchesToolContract, ocrReadSummary⟩

end PhoneOcrRead

namespace OcrTextSummarizer

/-! ### The summary -/

def sensitiveMarkers : List Str := [lit "password", lit "passwd", lit "secret", lit "token",
  lit "bearer ", lit "api key", lit "api_key", lit "apikey", lit "private key", lit "private_key",
  lit "client secret", lit "client_secret", lit "otp", lit "recovery code"]

/-- `(?:\d[ -]?){13,19}`. -/
def paymentCardLikeDigits : Regex.Pattern :=
  .between (.seq (.one (.ranges [('0', '9')])) (.optional (.one (.ranges [(' ', ' '), ('-', '-')]))))
    13 19

def containsUnsafeDisplayCharacter (value : Str) : Bool := value.any fun c => c = 0 || isFormat c

variable (e : Regex.Engine UInt16)

def looksSensitive (value : Str) : Bool :=
  sensitiveMarkers.any (contains (lowercase value)) || Regex.search e paymentCardLikeDigits value

/-- The lines of a text that have something in them. -/
def visibleLines (rawText : Str) : List Str :=
  ((lineSequence rawText).map trim).filter (· ≠ [])

/-- `collapsed`: the text in one line. -/
def collapse (rawText : Str) : Str :=
  trim (replaceRuns (e.isIn .space) ([space].intercalate (visibleLines rawText)))

def redacted (characterCount : ℕ) (characterCountTruncated : Bool) (lineCount : ℕ)
    (lineCountTruncated : Bool) : PhoneOcrRead where
  status := phoneOcrStatusAvailable
  script := lit "latin"
  characterCount := characterCount
  characterCountTruncated := characterCountTruncated
  lineCount := lineCount
  lineCountTruncated := lineCountTruncated
  preview := none
  previewTruncated := false
  redacted := true

def summarize (rawText : Str) : PhoneOcrRead :=
  let lines := visibleLines rawText
  let collapsed := collapse e rawText
  let characterCount := coerceIn collapsed.length 1 maxOcrCharacterCount
  let lineCount := coerceIn lines.length 1 maxOcrLineCount
  let characterCountTruncated := decide (maxOcrCharacterCount < collapsed.length)
  let lineCountTruncated := decide (maxOcrLineCount < lines.length)
  if collapsed = [] ∨ containsUnsafeDisplayCharacter collapsed = true ∨
      looksSensitive e collapsed = true then
    redacted characterCount characterCountTruncated lineCount lineCountTruncated
  else {
    status := phoneOcrStatusAvailable
    script := lit "latin"
    characterCount := characterCount
    characterCountTruncated := characterCountTruncated
    lineCount := lineCount
    lineCountTruncated := lineCountTruncated
    preview := some (collapsed.take maxOcrPreviewLength)
    previewTruncated := decide (maxOcrPreviewLength < collapsed.length) ||
      characterCountTruncated || lineCountTruncated
    redacted := false }

/-! ### Texts that meet the contract -/

variable {e} {rawText : Str}

/-- The text can be summarised: it is redacted, or what a preview shows of it has no control
character. -/
def Summarizable (e : Regex.Engine UInt16) (rawText : Str) : Prop :=
  let collapsed := collapse e rawText
  containsUnsafeDisplayCharacter collapsed = false → looksSensitive e collapsed = false →
    ∀ c ∈ collapsed.take maxOcrPreviewLength, isISOControl c = false

/-- The beginning of a text that is not blank is not blank. -/
theorem isBlank_take_trim {s : Str} (hne : trim s ≠ []) {n : ℕ} (hn : 0 < n) :
    isBlank ((trim s).take n) = false := by
  obtain ⟨c, t, htrim⟩ := List.exists_cons_of_ne_nil hne
  have hvisible : isWhitespace c = false := head?_trim (by rw [htrim]; rfl)
  obtain ⟨m, rfl⟩ := Nat.exists_eq_succ_of_ne_zero hn.ne'
  rw [htrim, List.take_succ_cons, isBlank, List.all_cons, hvisible, Bool.false_and]

/-- A text without format characters has a safe preview exactly if it has no control character. -/
theorem isSafeOcrPreview_take_iff {s : Str} (hne : trim s ≠ [])
    (hsafe : containsUnsafeDisplayCharacter (trim s) = false) :
    isSafeOcrPreview ((trim s).take maxOcrPreviewLength) = true ↔
      ∀ c ∈ (trim s).take maxOcrPreviewLength, isISOControl c = false := by
  have hformat : ∀ c ∈ (trim s).take maxOcrPreviewLength, isFormat c = false := by
    intro c hc
    rw [containsUnsafeDisplayCharacter, List.any_eq_false] at hsafe
    have h := hsafe c (List.mem_of_mem_take hc)
    simp only [Bool.or_eq_true, not_or, Bool.not_eq_true] at h
    exact h.2
  have hvisible := isBlank_take_trim hne (by decide : 0 < maxOcrPreviewLength)
  have hlength : ((trim s).take maxOcrPreviewLength).length ≤ maxOcrPreviewLength :=
    List.length_take_le _ _
  rw [isSafeOcrPreview, hvisible, Bool.not_false, Bool.true_and, decide_eq_true hlength,
    Bool.true_and, Bool.not_eq_true', List.any_eq_false]
  refine forall₂_congr fun c hc => ?_
  rw [hformat c hc, Bool.or_false, Bool.not_eq_true]

/-- **The summary of a text meets its contract exactly if the text can be summarised.** -/
theorem matchesToolContract_summarize_iff :
    (summarize e rawText).matchesToolContract = true ↔ Summarizable e rawText := by
  have hcharacters : ∀ n, 1 ≤ coerceIn n 1 maxOcrCharacterCount ∧
      coerceIn n 1 maxOcrCharacterCount ≤ maxOcrCharacterCount := by
    intro n
    rw [coerceIn, maxOcrCharacterCount]
    omega
  have hlines : ∀ n, 1 ≤ coerceIn n 1 maxOcrLineCount ∧
      coerceIn n 1 maxOcrLineCount ≤ maxOcrLineCount := by
    intro n
    rw [coerceIn, maxOcrLineCount]
    omega
  have hscript : lit "latin" ∈ phoneOcrScripts := List.mem_cons_self
  unfold summarize Summarizable
  dsimp only
  split
  case isTrue hredacted =>
    have hcontract : ∀ n m b b', (redacted (coerceIn n 1 maxOcrCharacterCount) b
        (coerceIn m 1 maxOcrLineCount) b').matchesToolContract = true := by
      intro n m b b'
      simp [PhoneOcrRead.matchesToolContract, redacted, hscript, hcharacters n, hlines m]
    refine iff_of_true (hcontract _ _ _ _) fun hsafe hinnocent c hc => ?_
    rcases hredacted with hnil | hdanger | hsensitive
    · rw [hnil] at hc
      exact absurd hc List.not_mem_nil
    · rw [hdanger] at hsafe
      cases hsafe
    · rw [hsensitive] at hinnocent
      cases hinnocent
  case isFalse hshown =>
    simp only [not_or, Bool.not_eq_true] at hshown
    obtain ⟨hne, hsafe, hinnocent⟩ := hshown
    rw [forall_prop_of_true hsafe, forall_prop_of_true hinnocent]
    have hpreview := isSafeOcrPreview_take_iff hne hsafe
    have hfits : ((collapse e rawText).take maxOcrPreviewLength).length ≤
        coerceIn (collapse e rawText).length 1 maxOcrCharacterCount := by
      rw [List.length_take, coerceIn, maxOcrPreviewLength, maxOcrCharacterCount]
      omega
    simp only [PhoneOcrRead.matchesToolContract, hscript, hcharacters, hlines, decide_true,
      Bool.true_and, Bool.false_eq_true, if_false, decide_eq_true hfits, Bool.and_true]
    exact hpreview

/-- **A preview is not sensitive**: it has no marker, and no digits of a card. -/
theorem preview_not_sensitive {preview : Str}
    (h : (summarize e rawText).preview = some preview) : looksSensitive e preview = false := by
  unfold summarize at h
  dsimp only at h
  split at h
  · cases h
  case isFalse hnot =>
    cases h
    simp only [not_or, Bool.not_eq_true] at hnot
    obtain ⟨-, -, hinnocent⟩ := hnot
    rw [looksSensitive, Bool.or_eq_false_iff, List.any_eq_false] at hinnocent ⊢
    obtain ⟨hmarkers, hcard⟩ := hinnocent
    refine ⟨fun marker hmarker hcontains => ?_, ?_⟩
    · exact hmarkers marker hmarker (contains_lowercase_of_take hcontains)
    · by_contra hfound
      have hplain : paymentCardLikeDigits.plain = true := by decide
      have hlonger := Regex.search_append hplain (Bool.eq_true_of_not_eq_false hfound)
        ((collapse e rawText).drop maxOcrPreviewLength)
      rw [List.take_append_drop, hcard] at hlonger
      cases hlonger

/-- **The summary of a text.** It meets its contract, and its preview has no marker and no digits of a
card, exactly if the text can be summarised. -/
theorem ocr_summary_conforms_iff (e : Regex.Engine UInt16) (rawText : Str) :
    ((summarize e rawText).matchesToolContract = true ∧
      ((summarize e rawText).redacted = false → ∀ preview,
        (summarize e rawText).preview = some preview →
          (∀ marker ∈ sensitiveMarkers, contains (lowercase preview) marker = false) ∧
            Regex.search e paymentCardLikeDigits preview = false)) ↔
      Summarizable e rawText := by
  rw [← matchesToolContract_summarize_iff]
  refine and_iff_left_of_imp fun _ _ preview hpreview => ?_
  have hinnocent := preview_not_sensitive hpreview
  rw [looksSensitive, Bool.or_eq_false_iff, List.any_eq_false] at hinnocent
  exact ⟨fun marker hmarker => by simpa using hinnocent.1 marker hmarker, hinnocent.2⟩

/-- A control character of the text is in its preview. -/
theorem control_character_not_conforming :
    isBlank [0x61, 0x01, 0x62] = false ∧
      (summarize (regex false) [0x61, 0x01, 0x62]).redacted = false ∧
      (summarize (regex false) [0x61, 0x01, 0x62]).preview = some [0x61, 0x01, 0x62] ∧
      (summarize (regex false) [0x61, 0x01, 0x62]).matchesToolContract = false := by
  decide

example : looksSensitive (regex false) (lit "card 4111-1111 1111-1111") = true := by decide +kernel

end OcrTextSummarizer

end GoffyPhone
