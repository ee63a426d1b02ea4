import GoffyOs.Python.Text

/-!
# The tool `mac.clipboard.read`

The Hub reads the text of the clipboard, refuses it when it names a file, replaces its control
characters, and answers with its first characters and with how many there are. The reader is a parameter:
what it returned.
-/

namespace GoffyHub.MacClipboard

open Python

def maxClipboardTextChars : ℕ := 2000
def maxClipboardObservedChars : ℕ := 100000

structure MacClipboardReadInput where
  maxChars : ℕ
  maxChars_pos : 1 ≤ maxChars
  maxChars_le : maxChars ≤ maxClipboardTextChars

inductive ClipboardStatus
  | available
  | empty
  | unsupported
  deriving DecidableEq

/-- `content_type` has one value only. -/
structure MacClipboardReadOutput where
  status : ClipboardStatus
  text : Option Str
  textTruncated : Bool
  characterCount : ℕ
  characterCountTruncated : Bool

/-- `ValidationError`. -/
structure ValidationError where

/-- The constructor of `MacClipboardReadOutput`. -/
def MacClipboardReadOutput.create (o : MacClipboardReadOutput) :
    Except ValidationError MacClipboardReadOutput :=
  if (∀ text ∈ o.text, text.length ≤ maxClipboardTextChars) ∧
      o.characterCount ≤ maxClipboardObservedChars then .ok o
  else .error {}

/-- `_empty_output`. -/
def emptyOutput : MacClipboardReadOutput := ⟨.empty, none, false, 0, false⟩

/-- `_unsupported_output`. -/
def unsupportedOutput : MacClipboardReadOutput := ⟨.unsupported, none, false, 0, false⟩

/-- `_contains_file_url`. -/
def containsFileUrl (value : Str) : Bool := contains (casefold value) "file://".toList

/-- What `_sanitize_clipboard_text` keeps. -/
def isKept (c : Char) : Bool :=
  c = '\n' || c = '\r' || c = '\t' || (0x20 ≤ c.toNat && c.toNat ≠ 0x7f)

/-- `_sanitize_clipboard_text`. -/
def sanitizeClipboardText (value : Str) : Str := value.map fun c => if isKept c then c else ' '

/-- `read_mac_clipboard`. -/
def readMacClipboard (request : MacClipboardReadInput) (rawText : Option Str) :
    Except ValidationError MacClipboardReadOutput :=
  match rawText with
  | none => emptyOutput.create
  | some rawText =>
    let observedSample := rawText.take (maxClipboardObservedChars + 1)
    if containsFileUrl observedSample then unsupportedOutput.create
    else
      let characterCountTruncated : Bool := maxClipboardObservedChars < observedSample.length
      let sanitizedText := sanitizeClipboardText (observedSample.take maxClipboardObservedChars)
      if sanitizedText = [] then emptyOutput.create
      else
        let boundedText := sanitizedText.take request.maxChars
        MacClipboardReadOutput.create {
          status := .available
          text := some boundedText
          textTruncated := characterCountTruncated || boundedText.length < sanitizedText.length
          characterCount := sanitizedText.length
          characterCountTruncated := characterCountTruncated }

/-! ### What is shown -/

section

variable {request : MacClipboardReadInput} {text : Str}

/-- The characters that are looked at. -/
def observed (text : Str) : Str := text.take maxClipboardObservedChars

/-- The text that is shown. -/
def shown (request : MacClipboardReadInput) (text : Str) : Str :=
  (sanitizeClipboardText (observed text)).take request.maxChars

/-- Some of the text is not shown. -/
def isCut (request : MacClipboardReadInput) (text : Str) : Bool :=
  maxClipboardObservedChars < text.length || request.maxChars < (observed text).length

theorem length_sanitizeClipboardText (s : Str) : (sanitizeClipboardText s).length = s.length :=
  List.length_map _

theorem length_observed_le (text : Str) : (observed text).length ≤ maxClipboardObservedChars :=
  List.length_take_le _ _

/-- **Answers.** The Hub always answers: with nothing, or with the first characters. -/
theorem readMacClipboard_ok (request : MacClipboardReadInput) (rawText : Option Str) :
    readMacClipboard request rawText = .ok (match rawText with
      | none => emptyOutput
      | some text =>
        if containsFileUrl (text.take (maxClipboardObservedChars + 1)) then unsupportedOutput
        else if text = [] then emptyOutput
        else ⟨.available, some (shown request text), isCut request text, (observed text).length,
          maxClipboardObservedChars < text.length⟩) := by
  cases rawText with
  | none => rfl
  | some text =>
    unfold readMacClipboard
    dsimp only
    split
    · rfl
    have htake : (text.take (maxClipboardObservedChars + 1)).take maxClipboardObservedChars =
        observed text := by
      rw [List.take_take, observed, min_eq_left (Nat.le_succ _)]
    have hmore : decide (maxClipboardObservedChars <
        (text.take (maxClipboardObservedChars + 1)).length) =
        decide (maxClipboardObservedChars < text.length) := by
      rw [List.length_take, decide_eq_decide]
      omega
    have hempty : sanitizeClipboardText (observed text) = [] ↔ text = [] := by
      rw [sanitizeClipboardText, List.map_eq_nil_iff, observed, List.take_eq_nil_iff]
      exact or_iff_right (by decide)
    rw [htake, hmore]
    by_cases hnil : text = []
    · rw [if_pos (hempty.2 hnil), if_pos hnil]
      rfl
    · have hcut : decide (((sanitizeClipboardText (observed text)).take request.maxChars).length <
          (sanitizeClipboardText (observed text)).length) =
          decide (request.maxChars < (observed text).length) := by
        rw [List.length_take, length_sanitizeClipboardText, decide_eq_decide]
        omega
      rw [if_neg (fun h => hnil (hempty.1 h)), if_neg hnil, hcut, length_sanitizeClipboardText]
      refine if_pos ⟨fun t ht => ?_, length_observed_le text⟩
      obtain rfl := Option.some.inj ht
      exact (List.length_take_le _ _).trans request.maxChars_le

end

end GoffyHub.MacClipboard
