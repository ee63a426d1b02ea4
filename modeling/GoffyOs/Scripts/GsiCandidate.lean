import GoffyOs.Python.Digits
import GoffyOs.Python.UrlSplit
import GoffyOs.Scripts.EvidenceFiles

/-!
# GSI candidates (`scripts/create_rom_gsi_candidate_evidence.py`, `scripts/verify_rom0_readiness.py`)

The names and the URLs of a GSI artifact, and the check of the evidence about one. The check reads a text
as a number, two texts as URLs and a part of a name as the key of a table, and each of these may raise.

* `GsiReadable` is what a payload needs so that none of them does;
* `validateGsiPayload_returns_iff` says that this is exact.
-/

namespace GoffyScripts

open Python Regex Substitution
open GoffyHub.Rom (Members get isTrue)

-- `decide` looks at the members of a list one by one
attribute [local instance (high)] List.decidableBAll

/-- What the scripts take from the library of the language: `str` of a container, the normal form NFKC,
the check of an IP literal in brackets, and the texts of the `ValueError`s of `int` and of `urlsplit`. -/
structure Library where
  containerStr : Json → Str
  nfkc : Str → Str
  bracketsFit : Str → Bool
  intError : Str → Str
  urlError : Str → Str

namespace Gsi

/-! ### Names -/

/-- A text of this many characters of a set. -/
def isOfClass (low high : ℕ) (ranges : List (Char × Char)) (s : Str) : Bool :=
  low ≤ s.length && s.length ≤ high && s.all (inRanges ranges)

/-- `CANDIDATE_NAME_PATTERN.fullmatch`: `^[A-Za-z0-9 ._+@-]{1,120}$`. -/
def isCandidateName (s : Str) : Bool :=
  isOfClass 1 120 [('A', 'Z'), ('a', 'z'), ('0', '9'), (' ', ' '), ('.', '.'), ('_', '_'), ('+', '+'),
    ('@', '@'), ('-', '-')] s

/-- `ARCHIVE_NAME_PATTERN.fullmatch`: `^[A-Za-z0-9._+@-]{1,180}$`. -/
def isArchiveName (s : Str) : Bool :=
  isOfClass 1 180 [('A', 'Z'), ('a', 'z'), ('0', '9'), ('.', '.'), ('_', '_'), ('+', '+'), ('@', '@'),
    ('-', '-')] s

/-- `SHA256_PATTERN.fullmatch`: `^[a-fA-F0-9]{64}$`. -/
def isSha256 (s : Str) : Bool := isOfClass 64 64 [('a', 'f'), ('A', 'F'), ('0', '9')] s

/-- `FORBIDDEN_CANDIDATE_NAME_TERMS`. -/
def forbiddenCandidateNameTerms : List String :=
  ["approve", "approved", "approves", "approving", "approval", "approvals", "authorize",
    "authorized", "authorizes", "authorizing", "authorization", "authorizations", "bootloader",
    "dsu", "erase", "erased", "erases", "erasing", "fastboot", "flash", "flashed", "flashes",
    "flashing", "install", "installed", "installing", "installs", "reboot", "rebooted",
    "rebooting", "reboots", "root", "rooted", "rooting", "roots", "unlock", "unlocked",
    "unlocking", "unlocks", "wipe", "wiped", "wipes", "wiping"]

/-- `[A-Za-z0-9]`, with `re.I`. -/
def isNameChar : Char → Bool := reIsIn true (.ranges [('A', 'Z'), ('a', 'z'), ('0', '9')])

/-- `(?<![A-Za-z0-9])term(?![A-Za-z0-9])`, with `re.I`. -/
def standingAlone (term : Str) : Matcher Char := fun p s =>
  if (s.take term.length).map reFold = term.map reFold ∧ p.any isNameChar = false ∧
      (s.drop term.length).head?.any isNameChar = false then term.length
  else 0

/-- `candidate_name_contains_action_word`. -/
def candidateNameContainsActionWord (name : Str) : Bool :=
  forbiddenCandidateNameTerms.any fun term => search (standingAlone term.toList) name

/-- `ARTIFACT_FAMILY_ARCHITECTURES`. -/
def artifactFamilyArchitectures : List (Str × Str) :=
  [("aosp_arm64".toList, "arm64".toList), ("gsi_gms_arm64".toList, "arm64+gms".toList),
    ("aosp_x86_64".toList, "x86_64".toList), ("gsi_gms_x86_64".toList, "x86_64+gms".toList)]

/-- `aosp_arm64|gsi_gms_arm64|aosp_x86_64|gsi_gms_x86_64`. -/
def familyPattern : Pattern :=
  .oneOf [.literal "aosp_arm64", .literal "gsi_gms_arm64", .literal "aosp_x86_64",
    .literal "gsi_gms_x86_64"]

/-- What follows the family in `GSI_ARTIFACT_NAME_PATTERN`. -/
def artifactRestPattern : Pattern :=
  .inTurn [.literal "-exp-", .group 2 (.plus (.one (.ranges [('A', 'Z'), ('0', '9'), ('.', '.')]))),
    .literal "-", .group 3 (.plus (.one (.ranges [('0', '9')]))),
    .literal "-", .group 4 (.times (.one (.ranges [('a', 'f'), ('0', '9')])) 8), .literal ".zip", .finish]

/-- `GSI_ARTIFACT_NAME_PATTERN`; its flag is `re.IGNORECASE`. -/
def gsiArtifactNamePattern : Pattern :=
  .seq .start (.seq (.group 1 familyPattern) artifactRestPattern)

/-- The groups of the pattern. -/
structure GsiArtifactName where
  family : Str
  build : Str
  buildNumber : Str
  shaPrefix : Str

/-- `parse_gsi_artifact_name`. -/
def parseGsiArtifactName (name : Str) : Option GsiArtifactName :=
  (matchEntire (re true) gsiArtifactNamePattern name).map fun m =>
    ⟨m.groupValue 1, m.groupValue 2, m.groupValue 3, m.groupValue 4⟩

/-- `str.upper` of one character of a build; every other one stays outside of ASCII. -/
def upperChar (c : Char) : Char :=
  if c = '\u017f' then 'S' else if c = '\u0131' then 'I' else c.toUpper

/-- `ANDROID_RELEASE_BUILD_PREFIXES`. -/
def androidReleaseBuildPrefixes : List (Str × List Str) :=
  [("16".toList, ["BP".toList, "CP11.".toList]),
    ("17".toList, ["CP2".toList, "CP3".toList, "CP4".toList])]

/-- `build_matches_android_release`. -/
def buildMatchesAndroidRelease (buildId androidRelease : Str) : Bool :=
  match androidReleaseBuildPrefixes.lookup androidRelease with
  | some prefixes => prefixes.any fun pre => startswith (buildId.map upperChar) pre
  | none => false

/-! ### URLs -/

/-- `OFFICIAL_GSI_RELEASES_URL`. -/
def officialGsiReleasesUrl : Str :=
  "https://developer.android.com/topic/generic-system-image/releases".toList

/-- `OFFICIAL_GSI_DOWNLOAD_HOST`. -/
def officialGsiDownloadHost : Str := "dl.google.com".toList

/-- `OFFICIAL_GSI_RELEASE_DIRECTORIES`. -/
def officialGsiReleaseDirectories : List Str := ["baklava".toList, "cinnamonbun".toList]

/-- `official_gsi_download_path`. -/
def officialGsiDownloadPath (path expectedName : Str) : Bool :=
  match (path.splitOn '/').filter (· ≠ []) with
  | [developers, android, release, images, gsi, filename] =>
    developers = "developers".toList && android = "android".toList &&
      officialGsiReleaseDirectories.contains release && images = "images".toList &&
      gsi = "gsi".toList && filename = expectedName
  | _ => false

/-- `parsed.username or parsed.password or "@" in parsed.netloc`. -/
def hasCredentials (parsed : SplitResult) : Bool :=
  parsed.username.any (· ≠ []) || parsed.password.any (· ≠ []) || parsed.netloc.contains '@'

section

variable (lib : Library)

/-- `urlsplit`, which may raise a `ValueError`. -/
def splitUrl (url : Str) : Except Raised SplitResult :=
  match urlsplit lib.nfkc lib.bracketsFit url with
  | some parsed => .ok parsed
  | none => .error (.valueError (lib.urlError url))

/-- `validate_official_source_url`. -/
def validateOfficialSourceUrl (sourceUrl : Str) : Except Raised (List Str) := do
  let parsed ← splitUrl lib sourceUrl
  return if parsed.scheme ≠ "https".toList ∨ parsed.netloc = [] then
      ["source URL must be https".toList]
    else if hasCredentials parsed then ["source URL must not include credentials".toList]
    else if parsed.query ≠ [] ∨ parsed.fragment ≠ [] then
      ["source URL must not include query or fragment".toList]
    else blockIf (sourceUrl ≠ officialGsiReleasesUrl)
      "source URL must be the official Android GSI releases page".toList

/-- `validate_official_download_url`. -/
def validateOfficialDownloadUrl (downloadUrl expectedName : Str) : Except Raised (List Str) := do
  let parsed ← splitUrl lib downloadUrl
  return if parsed.scheme ≠ "https".toList ∨ parsed.netloc = [] then
      ["download URL must be https".toList]
    else if hasCredentials parsed then ["download URL must not include credentials".toList]
    else if parsed.query ≠ [] ∨ parsed.fragment ≠ [] then
      ["download URL must not include query or fragment".toList]
    else if parsed.netloc ≠ officialGsiDownloadHost then
      ["download URL must use the official Google download host".toList]
    else blockIf (officialGsiDownloadPath parsed.path expectedName = false)
      "download URL must be under the official Android GSI downloads path".toList

/-! ### The check -/

/-- `GSI_CANDIDATE_SCHEMA_VERSION`. -/
def schemaVersion : Str := "goffy.rom-gsi-candidate-evidence.v1".toList

/-- `GsiCandidateStatus.ARTIFACT_CHECKSUM_VERIFIED`. -/
def artifactChecksumVerified : Str := "ARTIFACT_CHECKSUM_VERIFIED".toList

/-- `GSI_TOP_LEVEL_KEYS`. -/
def topLevelKeys : List String :=
  ["schema_version", "generated_at", "ok", "status", "candidate", "artifact", "source", "safety"]

/-- `GSI_CANDIDATE_KEYS`. -/
def candidateKeys : List String :=
  ["name", "android_release", "architecture", "image_kind", "license_note_code"]

/-- `GSI_ARTIFACT_KEYS`. -/
def artifactKeys : List String := ["artifact_name", "byte_count", "sha256", "expected_sha256"]

/-- `GSI_SOURCE_KEYS`. -/
def sourceKeys : List String := ["source_url", "download_url"]

/-- `GSI_SAFETY_KEYS`. -/
def safetyKeys : List String :=
  ["execution_authority", "device_mutation", "authorization", "destructive_actions",
    "local_path_redacted"]

/-- What `mapping_value` makes of a value. -/
abbrev Texts := List (Str × Str)

/-- `validate_gsi_candidate`. -/
def validateGsiCandidate (candidate : Texts) : List Str :=
  let name := textOf candidate "name"
  let architecture := candidate.lookup "architecture".toList
  unsupportedKeyBlockers lib.containerStr (candidate.map (·.1)) candidateKeys "GSI candidate".toList ++
  blockIf (candidate.lookup "android_release".toList ≠ some "16".toList)
    "GSI candidate Android release must be 16 for the Moto G ROM-0 target".toList ++
  blockIf (architecture ≠ some "arm64".toList ∧ architecture ≠ some "arm64+gms".toList)
    "GSI candidate architecture must be arm64 or arm64+gms".toList ++
  blockIf (candidate.lookup "image_kind".toList ≠ some "archive".toList)
    "GSI candidate image_kind must be archive".toList ++
  blockIf (candidate.lookup "license_note_code".toList ≠ some "official_google_gsi_terms".toList)
    "GSI candidate license_note_code must acknowledge official Google GSI terms".toList ++
  if name = [] then ["GSI candidate name is required".toList]
  else if isCandidateName name = false then
    ["GSI candidate name contains unsupported characters".toList]
  else blockIf (candidateNameContainsActionWord name = true)
    "GSI candidate name must not contain approval or device-action wording".toList

/-- `not byte_count.isdigit() or int(byte_count) <= 0`. -/
def byteCountFails (byteCount : Str) : Except Raised Bool :=
  if isdigit byteCount then
    match parseInt 10 byteCount with
    | some n => .ok (n ≤ 0)
    | none => .error (.valueError (lib.intError byteCount))
  else .ok true

/-- `validate_gsi_artifact`. -/
def validateGsiArtifact (artifact : Texts) : Except Raised (List Str) := do
  let sha256 := lower (textOf artifact "sha256")
  let expectedSha256 := lower (textOf artifact "expected_sha256")
  let fails ← byteCountFails lib (textOf artifact "byte_count")
  return unsupportedKeyBlockers lib.containerStr (artifact.map (·.1)) artifactKeys
      "GSI artifact".toList ++
    blockIf (isArchiveName (textOf artifact "artifact_name") = false)
      "GSI artifact artifact_name must be a filename, not a path".toList ++
    blockIf (isSha256 sha256 = false) "GSI artifact sha256 must be 64 hex characters".toList ++
    blockIf (isSha256 expectedSha256 = false)
      "GSI artifact expected_sha256 must be 64 hex characters".toList ++
    blockIf (sha256 ≠ [] ∧ expectedSha256 ≠ [] ∧ sha256 ≠ expectedSha256)
      "GSI artifact sha256 must match expected_sha256".toList ++
    blockIf (fails = true) "GSI artifact byte_count must be a positive integer".toList

/-- `ARTIFACT_FAMILY_ARCHITECTURES[family.lower()]`. -/
def architectureOf (family : Str) : Except Raised Str :=
  match artifactFamilyArchitectures.lookup (lower family) with
  | some architecture => .ok architecture
  | none => .error (.keyError (lower family))

/-- `validate_gsi_artifact_binding`. -/
def validateGsiArtifactBinding (candidate artifact : Texts) : Except Raised (List Str) :=
  match parseGsiArtifactName (textOf artifact "artifact_name") with
  | none =>
    .ok ["GSI artifact artifact_name must match the official Google GSI naming pattern".toList]
  | some metadata => do
    let architecture ← architectureOf metadata.family
    let sha256 := lower (textOf artifact "sha256")
    return blockIf (architecture ≠ textOf candidate "architecture")
        "GSI artifact architecture must match GSI candidate architecture".toList ++
      blockIf (buildMatchesAndroidRelease metadata.build (textOf candidate "android_release") = false)
        "GSI artifact build must match GSI candidate Android release".toList ++
      blockIf (sha256 ≠ [] ∧ startswith sha256 (lower metadata.shaPrefix) = false)
        "GSI artifact checksum prefix must match GSI artifact sha256".toList

/-- `validate_gsi_source`. -/
def validateGsiSource (source : Texts) (artifactName : Str) : Except Raised (List Str) := do
  let sourceFindings ← validateOfficialSourceUrl lib (textOf source "source_url")
  let downloadFindings ← validateOfficialDownloadUrl lib (textOf source "download_url") artifactName
  return unsupportedKeyBlockers lib.containerStr (source.map (·.1)) sourceKeys "GSI source".toList ++
    sourceFindings ++ downloadFindings

/-- `validate_gsi_safety`. -/
def validateGsiSafety (safetyPayload : Option Json) (safety : Texts) : List Str :=
  let redacted := match safetyPayload with
    | some (.object members) => isTrue (get members "local_path_redacted")
    | _ => false
  unsupportedKeyBlockers lib.containerStr (safety.map (·.1)) safetyKeys "GSI safety".toList ++
  blockIf (safety.lookup "execution_authority".toList ≠ some "OFFLINE_HASH_ONLY".toList)
    "GSI safety execution_authority must be OFFLINE_HASH_ONLY".toList ++
  blockIf (safety.lookup "device_mutation".toList ≠ some "NONE".toList)
    "GSI safety device_mutation must be NONE".toList ++
  blockIf (safety.lookup "authorization".toList ≠ some "NON_AUTHORIZING_EVIDENCE".toList)
    "GSI safety authorization must be NON_AUTHORIZING_EVIDENCE".toList ++
  blockIf (safety.lookup "destructive_actions".toList ≠ some "WITHHELD".toList)
    "GSI safety destructive_actions must be WITHHELD".toList ++
  blockIf (redacted = false) "GSI safety local_path_redacted must be true".toList

/-- `mapping_value(payload.get(key))`. -/
def part (payload : Members) (key : String) : Texts := mappingValue lib.containerStr (get payload key)

/-- `validate_gsi_candidate_evidence`, of a file that has been read. -/
def validateGsiPayload (payload : Members) : Except Raised ReadinessSection := do
  let candidate := part lib payload "candidate"
  let artifact := part lib payload "artifact"
  let source := part lib payload "source"
  let safety := part lib payload "safety"
  let artifactBlockers ← validateGsiArtifact lib artifact
  let bindingBlockers ← validateGsiArtifactBinding candidate artifact
  let sourceBlockers ← validateGsiSource lib source (textOf artifact "artifact_name")
  let blockers :=
    unsupportedKeyBlockers lib.containerStr (payload.map (·.1)) topLevelKeys
      "GSI candidate evidence".toList ++
    blockIf (isStr (get payload "schema_version") schemaVersion = false)
      "ROM GSI candidate evidence schema_version mismatch".toList ++
    blockIf (isTrue (get payload "ok") = false) "ROM GSI candidate evidence is not OK".toList ++
    blockIf (isStr (get payload "status") artifactChecksumVerified = false)
      "ROM GSI candidate evidence status is not ARTIFACT_CHECKSUM_VERIFIED".toList ++
    validateGsiCandidate lib candidate ++ artifactBlockers ++ bindingBlockers ++ sourceBlockers ++
    validateGsiSafety lib (get payload "safety") safety
  return {
    name := "gsi_candidate".toList
    ok := blockers.isEmpty
    blockers := blockers.eraseDups
    warnings := []
    evidence := some
      [("status".toList, getStr lib.containerStr payload "status" []),
        ("candidate_name".toList, textOf candidate "name"),
        ("android_release".toList, textOf candidate "android_release"),
        ("architecture".toList, textOf candidate "architecture"),
        ("artifact_name".toList, textOf artifact "artifact_name"),
        ("sha256".toList, lower (textOf artifact "sha256")),
        ("source_url".toList, textOf source "source_url"),
        ("authorization".toList, textOf safety "authorization")] }

/-- `validate_gsi_candidate_evidence`. -/
def validateGsiCandidateEvidence : EvidenceFile → Except Raised ReadinessSection :=
  validateFile "gsi_candidate".toList "ROM GSI candidate evidence JSON was not supplied".toList
    (validateGsiPayload lib)

end

/-! ### The family of an artifact -/

section Family

variable {family name w : Str} {metadata : GsiArtifactName}

theorem map_reFold_of_lang_text {f : List Char} :
    ∀ {w : Str}, Lang (re true) (Pattern.text f) w → w.map reFold = f.map reFold := by
  have hone : ∀ {c : Char} {w : Str}, Lang (re true) (.one (.char c)) w → w.map reFold = [reFold c] := by
    rintro c _ ⟨a, rfl, ha⟩
    have hfold : reFold a = reFold c := by simpa [re, reIsIn] using ha
    rw [List.map_singleton, hfold]
  induction f using Pattern.text.induct with
  | case1 =>
    rintro w (rfl : w = [])
    rfl
  | case2 c => exact fun h => hone h
  | case3 c s hne ih =>
    intro w h
    rw [Pattern.text.eq_3 _ _ hne] at h
    obtain ⟨u, v, rfl, hu, hv⟩ := h
    rw [List.map_append, hone hu, ih hv]
    rfl

/-- The family of an artifact is a key of the table but for the case of its letters. -/
theorem exists_key_of_parse (h : parseGsiArtifactName name = some metadata) :
    ∃ key ∈ artifactFamilyArchitectures.map (·.1), metadata.family.map reFold = key := by
  obtain ⟨y, hy, rfl⟩ := Option.map_eq_some_iff.1 h
  rw [matchEntire] at hy
  obtain ⟨x, hx, hy⟩ := List.mem_flatMap.1 (List.mem_of_find?_eq_some hy)
  have hlang : Lang (re true) familyPattern (y.groupValue 1) :=
    lang_groupValue (by decide) hy
  have hkey : ∀ {s : String}, Lang (re true) (.literal s) (y.groupValue 1) →
      (y.groupValue 1).map reFold = s.toList.map reFold := fun h => map_reFold_of_lang_text h
  rcases hlang with h | h | h | h
  · exact ⟨"aosp_arm64".toList, by decide, by rw [hkey h]; decide⟩
  · exact ⟨"gsi_gms_arm64".toList, by decide, by rw [hkey h]; decide⟩
  · exact ⟨"aosp_x86_64".toList, by decide, by rw [hkey h]; decide⟩
  · exact ⟨"gsi_gms_x86_64".toList, by decide, by rw [hkey h]; decide⟩

theorem lowerChar_of_ascii {c : Char} (h : c.toNat < 0x80) : lowerChar c = reFold c := by
  have hkelvin : c ≠ '\u212a' := by
    rintro rfl
    revert h
    decide
  rw [lowerChar, if_neg hkelvin, reFold]
  split
  case h_5 => rfl
  all_goals omega

/-- Beyond ASCII, only the Kelvin sign has a small letter of ASCII. -/
theorem ascii_of_lowerChar {c : Char} (h : (lowerChar c).toNat < 0x80) (hkelvin : c ≠ '\u212a') :
    c.toNat < 0x80 := by
  rw [lowerChar, if_neg hkelvin] at h
  by_contra hbeyond
  delta Char.toLower at h
  split at h
  case isTrue hupper =>
    have : c.toNat ≤ 90 := by simpa [UInt32.le_iff_toNat_le] using hupper.2
    omega
  case isFalse => exact hbeyond h

/-- The part of a name that has to be a key of the table. -/
def FamilyInOrder (name : Str) : Prop :=
  ∀ metadata, parseGsiArtifactName name = some metadata → ∀ c ∈ metadata.family, c.toNat < 0x80

/-- A family has an architecture if and only if it is written in ASCII. -/
theorem architectureOf_returns_iff (h : parseGsiArtifactName name = some metadata) :
    (∃ architecture, architectureOf metadata.family = .ok architecture) ↔
      ∀ c ∈ metadata.family, c.toNat < 0x80 := by
  obtain ⟨key, hkey, hfold⟩ := exists_key_of_parse h
  have hplain : ∀ key ∈ artifactFamilyArchitectures.map (·.1), ∀ c ∈ key, c.toNat < 0x80 ∧ c ≠ 'k' := by
    decide +kernel
  rw [architectureOf]
  constructor
  · rintro ⟨architecture, hok⟩
    cases hlookup : artifactFamilyArchitectures.lookup (lower metadata.family) with
    | none =>
      rw [hlookup] at hok
      cases hok
    | some architecture' =>
      intro c hc
      have hlower : lower metadata.family ∈ artifactFamilyArchitectures.map (·.1) := by
        obtain ⟨before, after, htable, -⟩ := List.lookup_eq_some_iff.1 hlookup
        rw [htable, List.map_append]
        exact List.mem_append_right _ List.mem_cons_self
      refine ascii_of_lowerChar (hplain _ hlower _ (List.mem_map_of_mem hc)).1 ?_
      rintro rfl
      exact (hplain key hkey _ (hfold ▸ List.mem_map_of_mem hc)).2 rfl
  · intro hascii
    have hlower : lower metadata.family = key := by
      rw [← hfold]
      exact List.map_congr_left fun c hc => lowerChar_of_ascii (hascii c hc)
    have hsome : ∀ key ∈ artifactFamilyArchitectures.map (·.1),
        (artifactFamilyArchitectures.lookup key).isSome = true := by decide +kernel
    obtain ⟨architecture, harchitecture⟩ := Option.isSome_iff_exists.1 (hsome key hkey)
    exact ⟨architecture, by rw [hlower, harchitecture]⟩

end Family

/-! ### What raises nothing -/

section Returns

variable {lib : Library} {payload : Members}

/-- The texts that a check reads as numbers. -/
def ByteCountInOrder (byteCount : Str) : Prop :=
  isdigit byteCount = true → (∀ c ∈ byteCount, isDecimal c = true) ∧ byteCount.length ≤ 4300

/-- A payload whose texts can be read. -/
structure GsiReadable (lib : Library) (payload : Members) : Prop where
  byte_count : ByteCountInOrder (textOf (part lib payload "artifact") "byte_count")
  family : FamilyInOrder (textOf (part lib payload "artifact") "artifact_name")
  source_url : NetlocInOrder lib.nfkc lib.bracketsFit
    (netlocOf (textOf (part lib payload "source") "source_url"))
  download_url : NetlocInOrder lib.nfkc lib.bracketsFit
    (netlocOf (textOf (part lib payload "source") "download_url"))

theorem byteCountFails_returns_iff {byteCount : Str} :
    (∃ fails, byteCountFails lib byteCount = .ok fails) ↔ ByteCountInOrder byteCount := by
  rw [byteCountFails]
  by_cases hdigit : isdigit byteCount = true
  · rw [if_pos hdigit, ByteCountInOrder, ← parseInt_isdigit_iff hdigit]
    cases parseInt 10 byteCount with
    | none => exact iff_of_false (by rintro ⟨_, h⟩; cases h) fun h => Bool.false_ne_true (h hdigit)
    | some n => exact iff_of_true ⟨_, rfl⟩ fun _ => rfl
  · rw [if_neg hdigit]
    exact iff_of_true ⟨_, rfl⟩ fun h => absurd h hdigit

theorem byteCountFails_caught {byteCount : Str} {e : Raised} (h : byteCountFails lib byteCount = .error e) :
    e.caught.isSome = true := by
  rw [byteCountFails] at h
  split at h
  · split at h
    · cases h
    · cases h
      rfl
  · cases h

theorem splitUrl_returns_iff {url : Str} : (∃ parsed, splitUrl lib url = .ok parsed) ↔
    NetlocInOrder lib.nfkc lib.bracketsFit (netlocOf url) := by
  rw [← urlsplit_isSome_iff, splitUrl]
  cases urlsplit lib.nfkc lib.bracketsFit url with
  | none => exact iff_of_false (by rintro ⟨_, h⟩; cases h) Bool.false_ne_true
  | some parsed => exact iff_of_true ⟨_, rfl⟩ rfl

theorem splitUrl_caught {url : Str} {e : Raised} (h : splitUrl lib url = .error e) :
    e.caught.isSome = true := by
  rw [splitUrl] at h
  split at h
  · cases h
  · cases h
    rfl

end Returns

/-! ### The check, step by step -/

section Steps

variable {lib : Library} {payload : Members} {candidate artifact source : Texts} {artifactName url : Str}
  {metadata : GsiArtifactName} {e : Raised}

theorem validateGsiArtifact_returns_iff : (∃ found, validateGsiArtifact lib artifact = .ok found) ↔
    ByteCountInOrder (textOf artifact "byte_count") := by
  rw [← @byteCountFails_returns_iff lib, validateGsiArtifact]
  constructor
  · rintro ⟨found, h⟩
    obtain ⟨fails, hfails, -⟩ := Checks.bind_eq_ok.1 h
    exact ⟨fails, hfails⟩
  · rintro ⟨fails, hfails⟩
    exact ⟨_, Checks.bind_eq_ok.2 ⟨fails, hfails, rfl⟩⟩

theorem validateGsiArtifactBinding_returns_iff :
    (∃ found, validateGsiArtifactBinding candidate artifact = .ok found) ↔
      FamilyInOrder (textOf artifact "artifact_name") := by
  rw [validateGsiArtifactBinding]
  cases hparse : parseGsiArtifactName (textOf artifact "artifact_name") with
  | none =>
    refine iff_of_true ⟨_, rfl⟩ fun metadata h => ?_
    rw [hparse] at h
    cases h
  | some metadata =>
    have horder : FamilyInOrder (textOf artifact "artifact_name") ↔
        ∃ architecture, architectureOf metadata.family = .ok architecture := by
      rw [architectureOf_returns_iff hparse]
      constructor
      · exact fun h => h metadata hparse
      · intro h metadata' hparse'
        rw [hparse] at hparse'
        exact Option.some.inj hparse' ▸ h
    rw [horder]
    constructor
    · rintro ⟨found, h⟩
      obtain ⟨architecture, harchitecture, -⟩ := Checks.bind_eq_ok.1 h
      exact ⟨architecture, harchitecture⟩
    · rintro ⟨architecture, harchitecture⟩
      exact ⟨_, Checks.bind_eq_ok.2 ⟨architecture, harchitecture, rfl⟩⟩

/-- A family that is no key of the table is not caught. -/
theorem validateGsiArtifactBinding_caught (h : validateGsiArtifactBinding candidate artifact = .error e) :
    e.caught = none := by
  rw [validateGsiArtifactBinding] at h
  split at h
  · cases h
  · rcases Checks.bind_eq_error.1 h with h | ⟨_, -, h⟩
    · rw [architectureOf] at h
      split at h
      · cases h
      · cases h
        rfl
    · cases h

theorem validateGsiSource_returns_iff :
    (∃ found, validateGsiSource lib source artifactName = .ok found) ↔
      NetlocInOrder lib.nfkc lib.bracketsFit (netlocOf (textOf source "source_url")) ∧
        NetlocInOrder lib.nfkc lib.bracketsFit (netlocOf (textOf source "download_url")) := by
  have hsource : ∀ {url : Str}, (∃ found, validateOfficialSourceUrl lib url = .ok found) ↔
      NetlocInOrder lib.nfkc lib.bracketsFit (netlocOf url) := by
    intro url
    rw [← splitUrl_returns_iff, validateOfficialSourceUrl]
    constructor
    · rintro ⟨found, h⟩
      obtain ⟨parsed, hparsed, -⟩ := Checks.bind_eq_ok.1 h
      exact ⟨parsed, hparsed⟩
    · rintro ⟨parsed, hparsed⟩
      exact ⟨_, Checks.bind_eq_ok.2 ⟨parsed, hparsed, rfl⟩⟩
  have hdownload : ∀ {url : Str}, (∃ found, validateOfficialDownloadUrl lib url artifactName = .ok found) ↔
      NetlocInOrder lib.nfkc lib.bracketsFit (netlocOf url) := by
    intro url
    rw [← splitUrl_returns_iff, validateOfficialDownloadUrl]
    constructor
    · rintro ⟨found, h⟩
      obtain ⟨parsed, hparsed, -⟩ := Checks.bind_eq_ok.1 h
      exact ⟨parsed, hparsed⟩
    · rintro ⟨parsed, hparsed⟩
      exact ⟨_, Checks.bind_eq_ok.2 ⟨parsed, hparsed, rfl⟩⟩
  rw [← hsource, ← hdownload, validateGsiSource]
  constructor
  · rintro ⟨found, h⟩
    obtain ⟨sourceFindings, hs, h⟩ := Checks.bind_eq_ok.1 h
    obtain ⟨downloadFindings, hd, -⟩ := Checks.bind_eq_ok.1 h
    exact ⟨⟨sourceFindings, hs⟩, downloadFindings, hd⟩
  · rintro ⟨⟨sourceFindings, hs⟩, downloadFindings, hd⟩
    exact ⟨_, Checks.bind_eq_ok.2 ⟨sourceFindings, hs, Checks.bind_eq_ok.2 ⟨downloadFindings, hd, rfl⟩⟩⟩

theorem validateGsiSource_caught (h : validateGsiSource lib source artifactName = .error e) :
    e.caught.isSome = true := by
  rcases Checks.bind_eq_error.1 h with h | ⟨_, -, h⟩
  · rcases Checks.bind_eq_error.1 h with h | ⟨_, -, h⟩
    · exact splitUrl_caught h
    · cases h
  · rcases Checks.bind_eq_error.1 h with h | ⟨_, -, h⟩
    · rcases Checks.bind_eq_error.1 h with h | ⟨_, -, h⟩
      · exact splitUrl_caught h
      · cases h
    · cases h

/-- **The check of a GSI candidate.** It returns a section if and only if the number, the family and the
URLs of the payload can be read. -/
theorem validateGsiPayload_returns_iff :
    (∃ s, validateGsiPayload lib payload = .ok s) ↔ GsiReadable lib payload := by
  rw [validateGsiPayload]
  constructor
  · rintro ⟨s, h⟩
    obtain ⟨artifactBlockers, hartifact, h⟩ := Checks.bind_eq_ok.1 h
    obtain ⟨bindingBlockers, hbinding, h⟩ := Checks.bind_eq_ok.1 h
    obtain ⟨sourceBlockers, hsource, -⟩ := Checks.bind_eq_ok.1 h
    obtain ⟨hs, hd⟩ := validateGsiSource_returns_iff.1 ⟨_, hsource⟩
    exact ⟨validateGsiArtifact_returns_iff.1 ⟨_, hartifact⟩,
      validateGsiArtifactBinding_returns_iff.1 ⟨_, hbinding⟩, hs, hd⟩
  · intro h
    obtain ⟨artifactBlockers, hartifact⟩ := (@validateGsiArtifact_returns_iff lib _).2 h.byte_count
    obtain ⟨bindingBlockers, hbinding⟩ :=
      (@validateGsiArtifactBinding_returns_iff (part lib payload "candidate") _).2 h.family
    obtain ⟨sourceBlockers, hsource⟩ := (@validateGsiSource_returns_iff lib _
      (textOf (part lib payload "artifact") "artifact_name")).2 ⟨h.source_url, h.download_url⟩
    exact ⟨_, Checks.bind_eq_ok.2 ⟨artifactBlockers, hartifact, Checks.bind_eq_ok.2
      ⟨bindingBlockers, hbinding, Checks.bind_eq_ok.2 ⟨sourceBlockers, hsource, rfl⟩⟩⟩⟩

/-- What the check raises is not caught if and only if the number can be read, and the family not. -/
theorem validateGsiPayload_uncaught_iff :
    (∃ e, validateGsiPayload lib payload = .error e ∧ e.caught = none) ↔
      ByteCountInOrder (textOf (part lib payload "artifact") "byte_count") ∧
        ¬ FamilyInOrder (textOf (part lib payload "artifact") "artifact_name") := by
  rw [validateGsiPayload]
  constructor
  · rintro ⟨e, h, hcaught⟩
    have hnot : ¬ e.caught.isSome = true := by simp [hcaught]
    rcases Checks.bind_eq_error.1 h with h | ⟨artifactBlockers, hartifact, h⟩
    · rcases Checks.bind_eq_error.1 h with h | ⟨_, -, h⟩
      · exact absurd (byteCountFails_caught h) hnot
      · cases h
    refine ⟨validateGsiArtifact_returns_iff.1 ⟨_, hartifact⟩, fun hfamily => ?_⟩
    obtain ⟨bindingBlockers, hbinding⟩ :=
      (@validateGsiArtifactBinding_returns_iff (part lib payload "candidate") _).2 hfamily
    rw [hbinding] at h
    rcases Checks.bind_eq_error.1 h with h | ⟨_, -, h⟩
    · cases h
    · rcases Checks.bind_eq_error.1 h with h | ⟨_, -, h⟩
      · exact hnot (validateGsiSource_caught h)
      · cases h
  · rintro ⟨hcount, hfamily⟩
    obtain ⟨artifactBlockers, hartifact⟩ := (@validateGsiArtifact_returns_iff lib _).2 hcount
    cases hbinding : validateGsiArtifactBinding (part lib payload "candidate")
        (part lib payload "artifact") with
    | ok bindingBlockers =>
      exact absurd (validateGsiArtifactBinding_returns_iff.1 ⟨_, hbinding⟩) hfamily
    | error e =>
      exact ⟨e, Checks.bind_eq_error.2 (Or.inr ⟨artifactBlockers, hartifact, Checks.bind_eq_error.2
        (Or.inl rfl)⟩), validateGsiArtifactBinding_caught hbinding⟩

/-- A section is in order if and only if it has no blockers. -/
theorem ok_validateGsiPayload {s : ReadinessSection} (h : validateGsiPayload lib payload = .ok s) :
    s.ok = true ↔ s.blockers = [] := by
  obtain ⟨_, -, h⟩ := Checks.bind_eq_ok.1 h
  obtain ⟨_, -, h⟩ := Checks.bind_eq_ok.1 h
  obtain ⟨_, -, h⟩ := Checks.bind_eq_ok.1 h
  cases h
  rw [Fastboot.eraseDups_eq_nil_iff, List.isEmpty_iff]

end Steps

end Gsi

end GoffyScripts
