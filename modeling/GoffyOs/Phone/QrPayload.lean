import GoffyOs.Kotlin.Regex
import GoffyOs.Kotlin.Strings
import GoffyOs.Phone.Protocol

/-!
# QR codes (`qr/QrPayloadSummarizer.kt`)

Of the payload of a QR code the phone keeps a summary: its kind, its length and a short preview, or no
preview where the payload may be sensitive. The summary has to meet the contract of the tool
`phone.qr.read` (`PhoneQrRead.matchesToolContract`).

The length is that of the trimmed payload, and the preview shows the payload with its runs of white
space replaced. `matchesToolContract_summarize_iff` says for which payloads the contract still holds.

* What `\s` matches is an argument, as it differs between the JVM (white space of ASCII) and Android
  (white space of Unicode);
* `java.net.URI` is an argument too, and `UriSyntax` is what is used of its documentation.
-/

namespace GoffyPhone

open Kotlin

-- `decide` looks at the members of a list one by one
attribute [local instance (high)] List.decidableBAll

def maxQrPreviewLength : ℕ := 96
def maxQrPayloadCharacterCount : ℕ := 10000
def phoneQrStatusAvailable : Str := lit "available"
def phoneQrContentTypes : List Str :=
  [lit "text", lit "url", lit "wifi", lit "sensitive", lit "unknown"]

structure PhoneQrRead where
  status : Str
  contentType : Str
  characterCount : ℕ
  characterCountTruncated : Bool
  preview : Option Str
  previewTruncated : Bool
  redacted : Bool
  deriving DecidableEq

/-- `isSafeQrPreview`. -/
def isSafeQrPreview (s : Str) : Bool :=
  !isBlank s && s.length ≤ maxQrPreviewLength && !s.any fun c => isISOControl c || isFormat c

namespace PhoneQrRead

def matchesToolContract (r : PhoneQrRead) : Bool :=
  r.status = phoneQrStatusAvailable && r.contentType ∈ phoneQrContentTypes &&
    (1 ≤ r.characterCount && r.characterCount ≤ maxQrPayloadCharacterCount) &&
    if r.redacted then r.preview.isNone && !r.previewTruncated
    else match r.preview with
      | none => false
      | some preview => isSafeQrPreview preview &&
        if r.contentType = lit "url" || r.previewTruncated || r.characterCountTruncated then
          preview.length ≤ r.characterCount
        else r.characterCount = preview.length

/-- `qrReadSummary`. -/
def qrReadSummary (r : PhoneQrRead) : Str :=
  if r.redacted then
    lit "QR code read as " ++ r.contentType ++ lit "; content hidden from audit (" ++
      lit (toString r.characterCount) ++ lit " chars)"
  else
    lit "QR code read as " ++ r.contentType ++ lit ": " ++ r.preview.getD (lit "no preview") ++
      if r.previewTruncated || r.characterCountTruncated then lit "..." else []

instance : ToolResultContent PhoneQrRead := ⟨fun _ => .phoneQrRead, matchesToolContract, qrReadSummary⟩

end PhoneQrRead

/-! ### URIs -/

/-- A `java.net.URI`: the components that are read, as they were written. -/
structure Uri where
  scheme : Option Str
  rawUserInfo : Option Str
  host : Option Str
  rawPath : Option Str
  rawQuery : Option Str
  rawFragment : Option Str

/-- What is used of the syntax that `URI(_)` accepts: there is no space in it, an authority without
user information begins with the host, and scheme and host are printable ASCII. -/
structure UriSyntax (parse : Str → Option Uri) : Prop where
  no_space {s : Str} {uri : Uri} : parse s = some uri → space ∉ s
  authority {s scheme host : Str} {uri : Uri} : parse s = some uri → uri.scheme = some scheme →
    uri.host = some host → uri.rawUserInfo = none →
    ∃ rest, s = scheme ++ lit "://" ++ host ++ rest
  scheme_ascii {s scheme : Str} {uri : Uri} : parse s = some uri → uri.scheme = some scheme →
    ∀ c ∈ scheme, c < 0x80
  host_printable {s host : Str} {uri : Uri} : parse s = some uri → uri.host = some host →
    ∀ c ∈ host, 0x21 ≤ c.toNat ∧ c.toNat ≤ 0x7e

namespace QrPayloadSummarizer

/-! ### The summary -/

def redactedContentTypes : List Str := [lit "wifi", lit "sensitive"]

def sensitiveMarkers : List Str := [lit "password", lit "passwd", lit "secret", lit "token",
  lit "bearer ", lit "api_key", lit "apikey", lit "private_key", lit "client_secret"]

def containsUnsafeDisplayCharacter (value : Str) : Bool := value.any fun c => c = 0 || isFormat c

def containsSensitiveMarker (value : Str) : Bool :=
  sensitiveMarkers.any (contains (lowercase value))

def classify (payload : Str) : Str :=
  let lower := lowercase payload
  if startsWith lower (lit "wifi:") then lit "wifi"
  else if startsWith lower (lit "otpauth://") then lit "sensitive"
  else if startsWith lower (lit "http://") || startsWith lower (lit "https://") then lit "url"
  else if isBlank lower then lit "unknown"
  else lit "text"

/-- The scheme and the host that `safeUrlPreview` shows. -/
def shownParts (uri : Uri) : Option (Str × Str) :=
  match uri.scheme.map lowercase, uri.host with
  | some scheme, some host =>
    if scheme ∉ [lit "http", lit "https"] then none
    else if uri.rawUserInfo ≠ none then none
    else if isBlank host then none
    else some (scheme, host)
  | _, _ => none

def hasHiddenTail (uri : Uri) : Bool :=
  !isBlank (uri.rawPath.getD []) || uri.rawQuery.isSome || uri.rawFragment.isSome

def safeUrlPreview (parse : Str → Option Uri) (payload : Str) : Option Str := do
  let uri ← parse payload
  let (scheme, host) ← shownParts uri
  return scheme ++ lit "://" ++ host ++ if hasHiddenTail uri then lit "/..." else []

def redacted (contentType : Str) (characterCount : ℕ) (characterCountTruncated : Bool) :
    PhoneQrRead where
  status := phoneQrStatusAvailable
  contentType := contentType
  characterCount := characterCount
  characterCountTruncated := characterCountTruncated
  preview := none
  previewTruncated := false
  redacted := true

/-- What is shown of a payload of this kind; `none` where the summary is redacted. -/
def previewSource (parse : Str → Option Uri) (contentType displayPayload : Str) : Option Str :=
  if contentType ∈ redactedContentTypes ∨
      contentType ≠ lit "url" ∧ containsSensitiveMarker displayPayload = true then none
  else if contentType = lit "url" then safeUrlPreview parse displayPayload
  else some displayPayload

def summarize (isSpace : UInt16 → Bool) (parse : Str → Option Uri) (rawPayload : Str) :
    PhoneQrRead :=
  let normalized := trim rawPayload
  let characterCount := coerceIn normalized.length 1 maxQrPayloadCharacterCount
  let characterCountTruncated := decide (maxQrPayloadCharacterCount < normalized.length)
  let displayPayload := replaceRuns isSpace normalized
  if normalized = [] ∨ containsUnsafeDisplayCharacter normalized = true then
    redacted (lit "unknown") characterCount characterCountTruncated
  else
    let contentType := classify displayPayload
    match previewSource parse contentType displayPayload with
    | none => redacted contentType characterCount characterCountTruncated
    | some source => {
        status := phoneQrStatusAvailable
        contentType := contentType
        characterCount := characterCount
        characterCountTruncated := characterCountTruncated
        preview := some (source.take maxQrPreviewLength)
        previewTruncated :=
          decide (maxQrPreviewLength < source.length) || characterCountTruncated
        redacted := false }

/-! ### Payloads that meet the contract -/

variable {isSpace : UInt16 → Bool} {parse : Str → Option Uri} {rawPayload : Str}

/-- A payload that is shown as a URL: where the rest of the URL is replaced by `/...`, it is at least
as long as its replacement, or the payload as long as a preview can be. -/
def UrlFits (parse : Str → Option Uri) (payload : Str) : Prop :=
  ∀ uri scheme host, parse payload = some uri → shownParts uri = some (scheme, host) →
    hasHiddenTail uri = true →
    scheme.length + 3 + host.length + 4 ≤ payload.length ∨ maxQrPreviewLength ≤ payload.length

/-- A payload that is shown as text: what a preview shows of it is not blank and has no control
character; and it has no run of white space, unless it is too long to be shown or counted. -/
structure TextFits (isSpace : UInt16 → Bool) (payload : Str) : Prop where
  visible : isBlank ((replaceRuns isSpace payload).take maxQrPreviewLength) = false
  no_control : ∀ c ∈ (replaceRuns isSpace payload).take maxQrPreviewLength, isISOControl c = false
  length : NoRuns isSpace payload ∨ maxQrPreviewLength < (replaceRuns isSpace payload).length ∨
    maxQrPayloadCharacterCount < payload.length

/-- The payload can be summarised: it is redacted, or its preview fits its length. -/
def Summarizable (isSpace : UInt16 → Bool) (parse : Str → Option Uri) (payload : Str) : Prop :=
  containsUnsafeDisplayCharacter payload = false →
    let displayPayload := replaceRuns isSpace payload
    let contentType := classify displayPayload
    (contentType = lit "url" → UrlFits parse displayPayload) ∧
      (contentType = lit "text" ∨ contentType = lit "unknown" →
        containsSensitiveMarker displayPayload = false → TextFits isSpace payload)

theorem classify_cases (payload : Str) : classify payload ∈ redactedContentTypes ∨
    classify payload = lit "url" ∨ classify payload = lit "unknown" ∨
      classify payload = lit "text" := by
  have hcases : ∀ t, classify payload = t → t ∈ redactedContentTypes ∨ t = lit "url" ∨
      t = lit "unknown" ∨ t = lit "text" := by
    intro t ht
    simp only [classify] at ht
    split at ht
    · exact Or.inl (ht ▸ List.mem_cons_self)
    split at ht
    · exact Or.inl (ht ▸ List.mem_cons_of_mem _ List.mem_cons_self)
    split at ht
    · exact Or.inr (Or.inl ht.symm)
    split at ht
    · exact Or.inr (Or.inr (Or.inl ht.symm))
    · exact Or.inr (Or.inr (Or.inr ht.symm))
  exact hcases _ rfl

theorem classify_mem (payload : Str) : classify payload ∈ phoneQrContentTypes := by
  have hredacted : ∀ t ∈ redactedContentTypes, t ∈ phoneQrContentTypes := by decide
  rcases classify_cases payload with h | h | h | h
  · exact hredacted _ h
  · rw [h]
    decide
  · rw [h]
    decide
  · rw [h]
    decide

theorem coerceIn_count (n : ℕ) : 1 ≤ coerceIn n 1 maxQrPayloadCharacterCount ∧
    coerceIn n 1 maxQrPayloadCharacterCount ≤ maxQrPayloadCharacterCount := by
  rw [coerceIn, maxQrPayloadCharacterCount]
  omega

/-- A redacted summary meets the contract. -/
theorem matchesToolContract_redacted {contentType : Str} (h : contentType ∈ phoneQrContentTypes)
    (n : ℕ) (truncated : Bool) :
    (redacted contentType (coerceIn n 1 maxQrPayloadCharacterCount)
      truncated).matchesToolContract = true := by
  have hcount := coerceIn_count n
  simp [PhoneQrRead.matchesToolContract, redacted, h, hcount]

/-- A summary with a preview meets the contract if the preview is safe and fits the count. -/
theorem matchesToolContract_shown_iff {contentType source : Str} {n : ℕ} (hn : 1 ≤ n)
    (h : contentType ∈ phoneQrContentTypes) :
    (PhoneQrRead.matchesToolContract {
        status := phoneQrStatusAvailable
        contentType := contentType
        characterCount := coerceIn n 1 maxQrPayloadCharacterCount
        characterCountTruncated := decide (maxQrPayloadCharacterCount < n)
        preview := some (source.take maxQrPreviewLength)
        previewTruncated := decide (maxQrPreviewLength < source.length) ||
          decide (maxQrPayloadCharacterCount < n)
        redacted := false } = true) ↔
      isSafeQrPreview (source.take maxQrPreviewLength) = true ∧
        if contentType = lit "url" ∨ maxQrPreviewLength < source.length ∨
            maxQrPayloadCharacterCount < n then
          min maxQrPreviewLength source.length ≤ n
        else n = source.length := by
  have hcount := coerceIn_count n
  simp only [PhoneQrRead.matchesToolContract, h, hcount, decide_true, Bool.true_and,
    Bool.false_eq_true, if_false, Bool.and_eq_true, List.length_take]
  refine and_congr_right fun _ => ?_
  by_cases hcut : contentType = lit "url" ∨ maxQrPreviewLength < source.length ∨
      maxQrPayloadCharacterCount < n
  · have hcut' : (decide (contentType = lit "url") || (decide (maxQrPreviewLength < source.length) ||
        decide (maxQrPayloadCharacterCount < n)) || decide (maxQrPayloadCharacterCount < n)) =
          true := by
      simp only [Bool.or_eq_true, decide_eq_true_eq]
      tauto
    rw [if_pos hcut, if_pos hcut', decide_eq_true_eq, coerceIn, maxQrPreviewLength,
      maxQrPayloadCharacterCount]
    omega
  · have hcut' : ¬ (decide (contentType = lit "url") ||
        (decide (maxQrPreviewLength < source.length) || decide (maxQrPayloadCharacterCount < n)) ||
          decide (maxQrPayloadCharacterCount < n)) = true := by
      simp only [Bool.or_eq_true, decide_eq_true_eq]
      tauto
    rw [if_neg hcut, if_neg hcut', decide_eq_true_eq, coerceIn]
    simp only [maxQrPreviewLength, maxQrPayloadCharacterCount, not_or, not_lt] at hcut ⊢
    omega

/-- What is shown of a URL: its scheme and host, which are printable. -/
theorem safeUrlPreview_eq_some_iff {payload source : Str} :
    safeUrlPreview parse payload = some source ↔ ∃ uri scheme host, parse payload = some uri ∧
      shownParts uri = some (scheme, host) ∧
      source = scheme ++ lit "://" ++ host ++ if hasHiddenTail uri then lit "/..." else [] := by
  simp only [safeUrlPreview, Option.bind_eq_bind, Option.bind_eq_some_iff, Option.pure_def,
    Option.some.injEq, Prod.exists]
  constructor
  · rintro ⟨uri, hparse, scheme, host, hparts, rfl⟩
    exact ⟨uri, scheme, host, hparse, hparts, rfl⟩
  · rintro ⟨uri, scheme, host, hparse, hparts, rfl⟩
    exact ⟨uri, hparse, scheme, host, hparts, rfl⟩

theorem shownParts_eq_some {uri : Uri} {scheme host : Str}
    (h : shownParts uri = some (scheme, host)) :
    (∃ written, uri.scheme = some written ∧ scheme = lowercase written) ∧
      scheme ∈ [lit "http", lit "https"] ∧ uri.rawUserInfo = none ∧ uri.host = some host ∧
      isBlank host = false := by
  unfold shownParts at h
  split at h
  case h_1 scheme' host' hscheme hhost =>
    split at h
    · cases h
    case isFalse hmem =>
      split at h
      · cases h
      case isFalse huser =>
        split at h
        · cases h
        case isFalse hblank =>
          cases h
          obtain ⟨written, hwritten, rfl⟩ := Option.map_eq_some_iff.1 hscheme
          exact ⟨⟨written, hwritten, rfl⟩, not_not.1 hmem, not_not.1 huser, hhost, by simpa using hblank⟩
  case h_2 => cases h

/-- The preview of a URL is safe. -/
theorem isSafeQrPreview_url (hparse : UriSyntax parse) {payload source : Str}
    (h : safeUrlPreview parse payload = some source) :
    isSafeQrPreview (source.take maxQrPreviewLength) = true := by
  obtain ⟨uri, scheme, host, huri, hparts, rfl⟩ := safeUrlPreview_eq_some_iff.1 h
  obtain ⟨-, hscheme, -, hhost, -⟩ := shownParts_eq_some hparts
  have hprintable : ∀ c : UInt16, 0x21 ≤ c.toNat ∧ c.toNat ≤ 0x7e →
      isISOControl c = false ∧ isFormat c = false := by
    intro c hc
    simp only [isISOControl, isFormat, Bool.or_eq_false_iff, Bool.and_eq_false_iff,
      decide_eq_false_iff_not, beq_eq_false_iff_ne]
    omega
  have hall : ∀ c ∈ scheme ++ lit "://" ++ host ++ (if hasHiddenTail uri then lit "/..." else []),
      0x21 ≤ c.toNat ∧ c.toNat ≤ 0x7e := by
    intro c hc
    rw [List.mem_append, List.mem_append, List.mem_append] at hc
    rcases hc with ((hc | hc) | hc) | hc
    · have hschemes : ∀ t ∈ [lit "http", lit "https"], ∀ c ∈ t, 0x21 ≤ c.toNat ∧ c.toNat ≤ 0x7e := by
        decide
      exact hschemes scheme hscheme c hc
    · revert c
      decide
    · exact hparse.host_printable huri hhost c hc
    · split at hc
      · revert c
        decide
      · exact absurd hc List.not_mem_nil
  -- the scheme begins the preview, and is not blank
  have hvisible : isBlank ((scheme ++ lit "://" ++ host ++
      (if hasHiddenTail uri then lit "/..." else [])).take maxQrPreviewLength) = false := by
    simp only [List.mem_cons, List.not_mem_nil, or_false] at hscheme
    rcases hscheme with rfl | rfl <;> rfl
  rw [isSafeQrPreview, hvisible, Bool.not_false, Bool.true_and, Bool.and_eq_true, decide_eq_true_eq,
    Bool.not_eq_true', List.any_eq_false]
  refine ⟨List.length_take_le _ _, fun c hc => ?_⟩
  obtain ⟨hcontrol, hformat⟩ := hprintable c (hall c (List.mem_of_mem_take hc))
  simp [hcontrol, hformat]

/-- A payload that is a URI has no space, so that nothing in it was replaced. -/
theorem replaceRuns_of_parse (hparse : UriSyntax parse) {payload : Str} {uri : Uri}
    (h : parse (replaceRuns isSpace payload) = some uri) : replaceRuns isSpace payload = payload := by
  apply replaceRuns_of_no_space
  intro c hc
  by_contra hspace
  exact hparse.no_space h (space_mem_replaceRuns ⟨c, hc, by simpa using hspace⟩)

/-- The preview of a URL fits the count exactly if what it hides is long enough. -/
theorem length_url_iff (hparse : UriSyntax parse) {payload source : Str}
    (h : safeUrlPreview parse (replaceRuns isSpace payload) = some source) :
    min maxQrPreviewLength source.length ≤ payload.length ↔
      UrlFits parse (replaceRuns isSpace payload) := by
  obtain ⟨uri, scheme, host, huri, hparts, rfl⟩ := safeUrlPreview_eq_some_iff.1 h
  obtain ⟨⟨written, hwritten, rfl⟩, -, huser, hhost, -⟩ := shownParts_eq_some hparts
  obtain ⟨rest, hpayload⟩ := hparse.authority huri hwritten hhost huser
  have hwrittenLength := length_lowercase (hparse.scheme_ascii huri hwritten)
  have hsame := replaceRuns_of_parse hparse huri
  rw [hsame] at hpayload huri ⊢
  have hlength : payload.length = written.length + 3 + host.length + rest.length := by
    rw [hpayload]
    simp only [List.length_append]
    rfl
  have hfits : UrlFits parse payload ↔ (hasHiddenTail uri = true →
      (lowercase written).length + 3 + host.length + 4 ≤ payload.length ∨
        maxQrPreviewLength ≤ payload.length) := by
    constructor
    · exact fun hall => hall uri _ host huri hparts
    · intro hone uri' scheme' host' huri' hparts'
      obtain rfl := Option.some.inj (huri.symm.trans huri')
      obtain ⟨rfl, rfl⟩ := Prod.mk.inj (Option.some.inj (hparts.symm.trans hparts'))
      exact hone
  rw [hfits]
  cases htail : hasHiddenTail uri with
  | false =>
    simp only [Bool.false_eq_true, if_false, List.append_nil, false_imp_iff, iff_true,
      List.length_append, hwrittenLength]
    show min maxQrPreviewLength (written.length + 3 + host.length) ≤ _
    omega
  | true =>
    simp only [if_true, true_imp_iff, List.length_append, hwrittenLength]
    show min maxQrPreviewLength (written.length + 3 + host.length + 4) ≤ _ ↔ _
    omega

/-- The preview of a text is safe exactly if what is shown is not blank and has no control
character: the payload has no format character then. -/
theorem isSafeQrPreview_text_iff {payload : Str}
    (hsafe : containsUnsafeDisplayCharacter payload = false) :
    isSafeQrPreview ((replaceRuns isSpace payload).take maxQrPreviewLength) = true ↔
      isBlank ((replaceRuns isSpace payload).take maxQrPreviewLength) = false ∧
        ∀ c ∈ (replaceRuns isSpace payload).take maxQrPreviewLength, isISOControl c = false := by
  have hformat : ∀ c ∈ (replaceRuns isSpace payload).take maxQrPreviewLength, isFormat c = false := by
    intro c hc
    rcases mem_of_mem_replaceRuns (List.mem_of_mem_take hc) with hmem | rfl
    · rw [containsUnsafeDisplayCharacter, List.any_eq_false] at hsafe
      have h := hsafe c hmem
      simp only [Bool.or_eq_true, not_or, Bool.not_eq_true] at h
      exact h.2
    · decide
  rw [isSafeQrPreview, Bool.and_eq_true, Bool.and_eq_true, Bool.not_eq_true', Bool.not_eq_true',
    List.any_eq_false, decide_eq_true_eq]
  constructor
  · rintro ⟨⟨hvisible, -⟩, hall⟩
    refine ⟨hvisible, fun c hc => ?_⟩
    have h := hall c hc
    rw [hformat c hc, Bool.or_false] at h
    simpa using h
  · rintro ⟨hvisible, hall⟩
    refine ⟨⟨hvisible, List.length_take_le _ _⟩, fun c hc => ?_⟩
    rw [hall c hc, hformat c hc]
    simp

/-- The summary of a payload that is shown as text. -/
theorem matchesToolContract_text_iff {payload contentType : Str} (hlength : 1 ≤ payload.length)
    (hsafe : containsUnsafeDisplayCharacter payload = false)
    (htype : contentType ∈ phoneQrContentTypes) (hurl : contentType ≠ lit "url") :
    (PhoneQrRead.matchesToolContract {
        status := phoneQrStatusAvailable
        contentType := contentType
        characterCount := coerceIn payload.length 1 maxQrPayloadCharacterCount
        characterCountTruncated := decide (maxQrPayloadCharacterCount < payload.length)
        preview := some ((replaceRuns isSpace payload).take maxQrPreviewLength)
        previewTruncated := decide (maxQrPreviewLength < (replaceRuns isSpace payload).length) ||
          decide (maxQrPayloadCharacterCount < payload.length)
        redacted := false } = true) ↔ TextFits isSpace payload := by
  have hle := @length_replaceRuns_le isSpace payload
  rw [matchesToolContract_shown_iff hlength htype, isSafeQrPreview_text_iff hsafe]
  have hcount : (if contentType = lit "url" ∨
        maxQrPreviewLength < (replaceRuns isSpace payload).length ∨
        maxQrPayloadCharacterCount < payload.length then
      min maxQrPreviewLength (replaceRuns isSpace payload).length ≤ payload.length
      else payload.length = (replaceRuns isSpace payload).length) ↔
      NoRuns isSpace payload ∨ maxQrPreviewLength < (replaceRuns isSpace payload).length ∨
        maxQrPayloadCharacterCount < payload.length := by
    rw [← length_replaceRuns_eq_iff]
    split
    case isTrue hcut =>
      refine iff_of_true ?_ (Or.inr (hcut.resolve_left hurl))
      omega
    case isFalse hcut =>
      obtain ⟨-, hcut⟩ := not_or.1 hcut
      rw [or_iff_left hcut, eq_comm]
  rw [hcount]
  exact ⟨fun ⟨⟨hvisible, hcontrol⟩, hlength⟩ => ⟨hvisible, hcontrol, hlength⟩,
    fun ⟨hvisible, hcontrol, hlength⟩ => ⟨⟨hvisible, hcontrol⟩, hlength⟩⟩

/-- The summary of a payload that is shown as a URL. -/
theorem matchesToolContract_url_iff (hparse : UriSyntax parse) {payload source : Str}
    (hlength : 1 ≤ payload.length)
    (h : safeUrlPreview parse (replaceRuns isSpace payload) = some source) :
    (PhoneQrRead.matchesToolContract {
        status := phoneQrStatusAvailable
        contentType := lit "url"
        characterCount := coerceIn payload.length 1 maxQrPayloadCharacterCount
        characterCountTruncated := decide (maxQrPayloadCharacterCount < payload.length)
        preview := some (source.take maxQrPreviewLength)
        previewTruncated := decide (maxQrPreviewLength < source.length) ||
          decide (maxQrPayloadCharacterCount < payload.length)
        redacted := false } = true) ↔ UrlFits parse (replaceRuns isSpace payload) := by
  rw [matchesToolContract_shown_iff hlength (by decide), if_pos (Or.inl rfl),
    length_url_iff hparse h]
  exact and_iff_right (isSafeQrPreview_url hparse h)

/-! What is shown of a payload of each kind. -/

theorem previewSource_redacted {contentType payload : Str}
    (h : contentType ∈ redactedContentTypes) : previewSource parse contentType payload = none := by
  rw [previewSource, if_pos (Or.inl h)]

theorem previewSource_url (payload : Str) :
    previewSource parse (lit "url") payload = safeUrlPreview parse payload := by
  have hurl : lit "url" ∉ redactedContentTypes := by decide
  rw [previewSource, if_neg (by simp [hurl]), if_pos rfl]

theorem previewSource_text {contentType payload : Str} (hshown : contentType ∉ redactedContentTypes)
    (hurl : contentType ≠ lit "url") : previewSource parse contentType payload =
      if containsSensitiveMarker payload then none else some payload := by
  rw [previewSource]
  by_cases h : containsSensitiveMarker payload = true
  · rw [if_pos (Or.inr ⟨hurl, h⟩), if_pos h]
  · rw [if_neg (by simp [hshown, h]), if_neg hurl, if_neg h]

/-- **The summary of a payload meets its contract exactly if the payload can be summarised.** -/
theorem matchesToolContract_summarize_iff (hparse : UriSyntax parse)
    (hraw : isBlank rawPayload = false) :
    (summarize isSpace parse rawPayload).matchesToolContract = true ↔
      Summarizable isSpace parse (trim rawPayload) := by
  have hne : trim rawPayload ≠ [] := by
    rw [Ne, trim_eq_nil_iff, hraw]
    simp
  have hlength : 1 ≤ (trim rawPayload).length := List.length_pos_iff.2 hne
  unfold summarize Summarizable
  generalize trim rawPayload = payload at hne hlength ⊢
  dsimp only
  by_cases hdanger : containsUnsafeDisplayCharacter payload = true
  · rw [if_pos (Or.inr hdanger), matchesToolContract_redacted (by decide), hdanger]
    simp
  have hsafe : containsUnsafeDisplayCharacter payload = false := by simpa using hdanger
  rw [if_neg (by simp [hne, hdanger]), forall_prop_of_true hsafe]
  have hmem := classify_mem (replaceRuns isSpace payload)
  rcases classify_cases (replaceRuns isSpace payload) with hredacted | hurl | htext
  · -- a kind that is never shown
    have hother : ∀ t ∈ redactedContentTypes, t ≠ lit "url" ∧ t ≠ lit "text" ∧ t ≠ lit "unknown" := by
      decide
    obtain ⟨hurl, htext, hunknown⟩ := hother _ hredacted
    rw [previewSource_redacted hredacted]
    refine iff_of_true (matchesToolContract_redacted hmem _ _) ⟨fun h => absurd h hurl, ?_⟩
    rintro (h | h)
    · exact absurd h htext
    · exact absurd h hunknown
  · have hother : ¬ (lit "url" = lit "text" ∨ lit "url" = lit "unknown") := by decide
    rw [hurl, previewSource_url, forall_prop_of_true rfl, forall_prop_of_false hother, and_true]
    cases hsource : safeUrlPreview parse (replaceRuns isSpace payload) with
    | none =>
      refine iff_of_true (matchesToolContract_redacted (by decide) _ _) ?_
      intro uri scheme host huri hparts
      have hsome := safeUrlPreview_eq_some_iff.2 ⟨uri, scheme, host, huri, hparts, rfl⟩
      rw [hsource] at hsome
      cases hsome
    | some source => exact matchesToolContract_url_iff hparse hlength hsource
  · generalize classify (replaceRuns isSpace payload) = contentType at hmem htext
    have hkind : contentType ∉ redactedContentTypes ∧ contentType ≠ lit "url" := by
      rcases htext with rfl | rfl <;> exact ⟨by decide, by decide⟩
    rw [previewSource_text hkind.1 hkind.2, forall_prop_of_false hkind.2, true_and,
      forall_prop_of_true htext.symm]
    cases hmarker : containsSensitiveMarker (replaceRuns isSpace payload) with
    | true =>
      rw [if_pos rfl]
      exact iff_of_true (matchesToolContract_redacted hmem _ _) fun h => by cases h
    | false =>
      rw [if_neg Bool.false_ne_true, forall_prop_of_true rfl]
      exact matchesToolContract_text_iff hlength hsafe hmem hkind.2

end QrPayloadSummarizer

end GoffyPhone
