import GoffyOs.Hub.MacClipboard
import GoffyOs.Phone.HubTools

/-!
# `mac.clipboard.read` across the two sides

The Hub counts and cuts characters, the phone code units, and each looks for the URL of a file in its own
way. `Showable` is what the phone requires of the text that is shown.
-/

namespace GoffyHub.MacClipboard

open GoffyPhone Kotlin

def ClipboardStatus.value : ClipboardStatus → Python.Str
  | .available => "available".toList
  | .empty => "empty".toList
  | .unsupported => "unsupported".toList

/-- What the phone reads of an answer. -/
def MacClipboardReadOutput.onPhone (o : MacClipboardReadOutput) : MacClipboardRead where
  status := ofChars o.status.value
  contentType := lit "text"
  text := o.text.map ofChars
  textTruncated := o.textTruncated
  characterCount := o.characterCount
  characterCountTruncated := o.characterCountTruncated

variable {request : MacClipboardReadInput} {text : Python.Str}

/-- The phone takes the text that is shown: its code units are in the bound, and as many as are counted,
or no more where it was cut; it has no format character, and no URL of a file in the phone's reading. -/
structure Showable (request : MacClipboardReadInput) (text : Python.Str) : Prop where
  length : (ofChars (shown request text)).length ≤ maxMacClipboardTextLength
  count : if isCut request text then (ofChars (shown request text)).length ≤ (observed text).length
    else (observed text).length = (ofChars (shown request text)).length
  format : ∀ c ∈ shown request text, basic isFormat c = false
  url : containsIgnoreCase (ofChars (shown request text)) (lit "file://") = false

/-- Nothing that is shown is a control character, apart from line breaks and tabs. -/
theorem isKept_of_mem_shown {c : Char} (hc : c ∈ shown request text) : isKept c = true := by
  obtain ⟨d, -, rfl⟩ := List.mem_map.1 (List.mem_of_mem_take hc)
  by_cases hd : isKept d = true
  · rw [if_pos hd]
    exact hd
  · rw [if_neg hd]
    decide

theorem isSafeClipboardText_iff (hne : text ≠ []) :
    isSafeClipboardText (ofChars (shown request text)) = true ↔
      (ofChars (shown request text)).length ≤ maxMacClipboardTextLength ∧
        ∀ c ∈ shown request text, basic isFormat c = false := by
  have hshown : ofChars (shown request text) ≠ [] := by
    have hpos := request.maxChars_pos
    rw [ne_eq, ofChars_eq_nil, shown, List.take_eq_nil_iff, sanitizeClipboardText,
      List.map_eq_nil_iff, observed, List.take_eq_nil_iff]
    rintro (h | h | h)
    · omega
    · exact absurd h (by decide)
    · exact hne h
  have hsurrogate : ∀ u : UInt16, 0xd800 ≤ u.toNat → u.toNat ≤ 0xdfff →
      (decide (u = 0) || isFormat u) = false := by
    intro u hlow hhigh
    have hzero : u ≠ 0 := by
      rintro rfl
      exact absurd hlow (by decide)
    have hformat := isHiddenCharacter_surrogate u hlow hhigh
    rw [isHiddenCharacter, Bool.or_eq_false_iff] at hformat
    rw [decide_eq_false hzero, hformat.2]
    rfl
  have hbasic : ∀ c ∈ shown request text,
      basic (fun u => decide (u = 0) || isFormat u) c = basic isFormat c := by
    intro c hc
    have hkept := isKept_of_mem_shown hc
    unfold basic
    by_cases hlt : c.toNat < 0x10000
    · have hzero : c.toNat.toUInt16 ≠ 0 := by
        intro h
        have hnat := congrArg UInt16.toNat h
        rw [toNat_toUInt16 hlt] at hnat
        rw [show c = '\x00' from Char.toNat_inj.1 hnat] at hkept
        exact absurd hkept (by decide)
      dsimp only
      rw [decide_eq_false hzero, Bool.false_or]
    · rw [decide_eq_false hlt, Bool.false_and, Bool.false_and]
  rw [isSafeClipboardText, any_ofChars hsurrogate, Bool.and_eq_true, Bool.and_eq_true,
    decide_eq_true_iff, decide_eq_true_iff, Bool.not_eq_true', List.any_eq_false]
  constructor
  · rintro ⟨⟨-, hlength⟩, hformat⟩
    refine ⟨hlength, fun c hc => ?_⟩
    rw [← hbasic c hc]
    simpa using hformat c hc
  · rintro ⟨hlength, hformat⟩
    refine ⟨⟨hshown, hlength⟩, fun c hc => ?_⟩
    rw [hbasic c hc, hformat c hc]
    exact Bool.false_ne_true

/-- The answer with the first characters. -/
def availableOutput (request : MacClipboardReadInput) (text : Python.Str) : MacClipboardReadOutput :=
  ⟨.available, some (shown request text), isCut request text, (observed text).length,
    maxClipboardObservedChars < text.length⟩

theorem available_matchesToolContract_iff (hne : text ≠ []) :
    (availableOutput request text).onPhone.matchesToolContract = true ↔ Showable request text := by
  have hcount : inRange 0 maxMacClipboardCharacterCount (observed text).length = true :=
    inRange_iff.2 ⟨Int.natCast_nonneg _, Int.ofNat_le.2 (length_observed_le text)⟩
  have hcut : (isCut request text || decide (maxClipboardObservedChars < text.length)) =
      isCut request text := by
    unfold isCut
    cases decide (maxClipboardObservedChars < text.length) <;> simp
  have hstate : (availableOutput request text).onPhone.textMatchesClipboardState =
      (isSafeClipboardText (ofChars (shown request text)) &&
        if isCut request text || decide (maxClipboardObservedChars < text.length) then
          isCut request text &&
            decide (((ofChars (shown request text)).length : ℤ) ≤ (observed text).length)
        else decide (((observed text).length : ℤ) = (ofChars (shown request text)).length)) :=
    if_pos rfl
  have hmatch : ((if isCut request text then isCut request text &&
        decide (((ofChars (shown request text)).length : ℤ) ≤ (observed text).length)
      else decide (((observed text).length : ℤ) = (ofChars (shown request text)).length)) = true) ↔
      if isCut request text then (ofChars (shown request text)).length ≤ (observed text).length
      else (observed text).length = (ofChars (shown request text)).length := by
    cases isCut request text with
    | true => simp only [if_true, Bool.true_and, decide_eq_true_eq, Int.ofNat_le]
    | false => simp only [Bool.false_eq_true, if_false, decide_eq_true_eq, Int.natCast_inj]
  have hurl : doesNotContainFileUrl (some (ofChars (shown request text))) = true ↔
      containsIgnoreCase (ofChars (shown request text)) (lit "file://") = false :=
    Bool.not_eq_true' _ ▸ Iff.rfl
  unfold MacClipboardRead.matchesToolContract
  rw [hstate, hcut]
  simp only [Bool.and_eq_true, hmatch, isSafeClipboardText_iff hne, and_assoc]
  constructor
  · rintro ⟨-, -, -, hlength, hformat, hcount, hurl'⟩
    exact ⟨hlength, hcount, hformat, hurl.1 hurl'⟩
  · rintro ⟨hlength, hcount', hformat, hurl'⟩
    exact ⟨decide_eq_true List.mem_cons_self, decide_eq_true rfl, hcount, hlength, hformat, hcount',
      hurl.2 hurl'⟩

/-- **Clipboards.** The Hub always answers, and the phone takes the answer, unless it does not take the
text that is shown. -/
theorem readMacClipboard_matchesToolContract_iff (request : MacClipboardReadInput)
    (rawText : Option Python.Str) : ∃ o, readMacClipboard request rawText = .ok o ∧
      (o.onPhone.matchesToolContract = true ↔ ∀ text ∈ rawText, text ≠ [] →
        containsFileUrl (text.take (maxClipboardObservedChars + 1)) = false →
        Showable request text) := by
  refine ⟨_, readMacClipboard_ok request rawText, ?_⟩
  have hempty : emptyOutput.onPhone.matchesToolContract = true := by decide
  have hunsupported : unsupportedOutput.onPhone.matchesToolContract = true := by decide
  cases rawText with
  | none => simp [hempty]
  | some text =>
    have hsome : (∀ t ∈ some text, t ≠ [] →
        containsFileUrl (t.take (maxClipboardObservedChars + 1)) = false → Showable request t) ↔
        (text ≠ [] → containsFileUrl (text.take (maxClipboardObservedChars + 1)) = false →
          Showable request text) := by
      simp
    rw [hsome]
    dsimp only
    by_cases hurl : containsFileUrl (text.take (maxClipboardObservedChars + 1)) = true
    · rw [if_pos hurl]
      simp [hunsupported, hurl]
    rw [if_neg hurl]
    by_cases hne : text = []
    · rw [if_pos hne]
      simp [hempty, hne]
    rw [if_neg hne]
    have hnot : containsFileUrl (text.take (maxClipboardObservedChars + 1)) = false := by
      simpa using hurl
    exact (available_matchesToolContract_iff hne).trans ⟨fun h _ _ => h, fun h => h hne hnot⟩

/-- A text of one emoji, which is one character and two code units. -/
def emoji : Python.Str := [Char.ofNat 0x1f600]

def demoRequest : MacClipboardReadInput := ⟨1000, by decide, by decide⟩

/-- **An emoji.** The Hub counts one character, and the phone two code units. -/
theorem emoji_is_rejected :
    readMacClipboard demoRequest (some emoji) = .ok (availableOutput demoRequest emoji) ∧
      (availableOutput demoRequest emoji).onPhone.matchesToolContract = false := by
  refine ⟨readMacClipboard_ok demoRequest (some emoji), ?_⟩
  decide

end GoffyHub.MacClipboard
