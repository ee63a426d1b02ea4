import GoffyOs.Kotlin.Json
import GoffyOs.Kotlin.Regex
import GoffyOs.Kotlin.Strings
import GoffyOs.Phone.SafeText
import Mathlib.Data.List.Dedup

/-!
# The tools of the Hub, on the phone (`protocol/GoffyProtocol.kt`, `protocol/GoffyToolContracts.kt`)

What the phone makes of an answer of the Hub: the decoder reads the fields of its JSON object, and the
result has to match the tool's contract before it is shown.
-/

namespace GoffyPhone

open Kotlin Kotlin.JsonObject

/-! ### `git.status` -/

def maxGitStatusRepos : ℕ := 8
def maxGitStatusRepoIndex : ℤ := 7
def maxGitStatusChanges : ℕ := 32
def maxGitStatusRepoNameLength : ℕ := 64
def maxGitStatusPathLength : ℕ := 160
def maxGitStatusBranchLength : ℕ := 96
def maxGitStatusUpstreamLength : ℕ := 128
def maxGitStatusOidLength : ℕ := 16
def maxGitStatusStatusLength : ℕ := 64
def maxGitStatusCount : ℤ := 10000
def gitStatusChangeKinds : List Str := [lit "tracked", lit "untracked", lit "conflict"]
def gitStatusCodeValues : List Str :=
  [lit ".", lit "M", lit "T", lit "A", lit "D", lit "R", lit "C", lit "U", lit "?", lit "!"]

structure GitStatusApprovedRepo where
  repoIndex : ℤ
  name : Str

structure GitStatusChange where
  path : Str
  pathTruncated : Bool
  indexStatus : Str
  workingTreeStatus : Str
  kind : Str

structure GitStatus where
  status : Str
  repoIndex : ℤ
  repoName : Str
  branch : Option Str
  headOidShort : Option Str
  upstream : Option Str
  ahead : Option ℤ
  behind : Option ℤ
  clean : Bool
  stagedCount : ℤ
  unstagedCount : ℤ
  untrackedCount : ℤ
  conflictCount : ℤ
  truncated : Bool
  approvedRepos : List GitStatusApprovedRepo
  changes : List GitStatusChange

/-- A number lies between the bounds. -/
def inRange (minimum maximum n : ℤ) : Bool := minimum ≤ n && n ≤ maximum

theorem inRange_iff {minimum maximum n : ℤ} :
    inRange minimum maximum n = true ↔ minimum ≤ n ∧ n ≤ maximum := by
  simp [inRange]

/-- `requireNullableNonNegativeInt`. -/
def requireNullableNonNegativeInt (o : JsonObject) (key : Str) : Checked (Option ℤ) := do
  let value ← o.requireNullableInt key
  if let some value := value then requireRange key value 0 maxGitStatusCount
  return value

def decodeGitStatusApprovedRepo (repo : JsonObject) : Checked GitStatusApprovedRepo := do
  repo.requireKeys ["repoIndex", "name"] []
  let repoIndex ← repo.requireBoundedInt (lit "repoIndex") 0 maxGitStatusRepoIndex
  let name ← repo.requireBoundedString (lit "name") 1 maxGitStatusRepoNameLength
  return { repoIndex, name }

def decodeGitStatusChange (change : JsonObject) : Checked GitStatusChange := do
  change.requireKeys ["path", "pathTruncated", "indexStatus", "workingTreeStatus", "kind"] []
  let path ← change.requireBoundedString (lit "path") 1 maxGitStatusPathLength
  let pathTruncated ← change.requireBoolean (lit "pathTruncated")
  let indexStatus ← change.requireBoundedString (lit "indexStatus") 1 1
  let workingTreeStatus ← change.requireBoundedString (lit "workingTreeStatus") 1 1
  let kind ← change.requireString (lit "kind")
  if kind ∉ gitStatusChangeKinds then throw (lit "unsupported Git status change kind")
  return { path, pathTruncated, indexStatus, workingTreeStatus, kind }

def decodeGitStatus (content : JsonObject) : Checked GitStatus := do
  content.requireKeys
    ["status", "repoIndex", "repoName", "clean", "stagedCount", "unstagedCount", "untrackedCount",
      "conflictCount", "truncated", "approvedRepos", "changes"]
    ["branch", "headOidShort", "upstream", "ahead", "behind"]
  let approvedRepos ← content.requireArray (lit "approvedRepos")
  let approvedRepos ← boundedObjects approvedRepos maxGitStatusRepos (lit "approvedRepos")
    decodeGitStatusApprovedRepo
  let changes ← content.requireArray (lit "changes")
  let changes ← boundedObjects changes maxGitStatusChanges (lit "changes") decodeGitStatusChange
  let status ← content.requireBoundedString (lit "status") 1 maxGitStatusStatusLength
  let repoIndex ← content.requireBoundedInt (lit "repoIndex") 0 maxGitStatusRepoIndex
  let repoName ← content.requireBoundedString (lit "repoName") 1 maxGitStatusRepoNameLength
  let branch ← content.requireNullableBoundedString (lit "branch") maxGitStatusBranchLength
  let headOidShort ← content.requireNullableBoundedString (lit "headOidShort") maxGitStatusOidLength
  let upstream ← content.requireNullableBoundedString (lit "upstream") maxGitStatusUpstreamLength
  let ahead ← requireNullableNonNegativeInt content (lit "ahead")
  let behind ← requireNullableNonNegativeInt content (lit "behind")
  let clean ← content.requireBoolean (lit "clean")
  let stagedCount ← content.requireBoundedInt (lit "stagedCount") 0 maxGitStatusCount
  let unstagedCount ← content.requireBoundedInt (lit "unstagedCount") 0 maxGitStatusCount
  let untrackedCount ← content.requireBoundedInt (lit "untrackedCount") 0 maxGitStatusCount
  let conflictCount ← content.requireBoundedInt (lit "conflictCount") 0 maxGitStatusCount
  let truncated ← content.requireBoolean (lit "truncated")
  return {
    status, repoIndex, repoName, branch, headOidShort, upstream, ahead, behind, clean, stagedCount,
    unstagedCount, untrackedCount, conflictCount, truncated, approvedRepos, changes }

/-- `isNullOrSafeDisplayField`. -/
def isNullOrSafeDisplayField (s : Option Str) (maximum : ℕ) : Bool :=
  s.all (isSafeDisplayField · maximum)

/-- `isSafeGitStatusPath`. -/
def isSafeGitStatusPath (s : Str) : Bool :=
  !isBlank s && s.length ≤ maxGitStatusPathLength && isSafePath s (· = lit "..")

/-- `GitStatusChange.matchesToolContract`. -/
def GitStatusChange.matchesToolContract (c : GitStatusChange) : Bool :=
  isSafeGitStatusPath c.path && c.indexStatus ∈ gitStatusCodeValues &&
    c.workingTreeStatus ∈ gitStatusCodeValues && c.kind ∈ gitStatusChangeKinds

/-- `gitStatusCountsMatchState`. The counts are at most `maxGitStatusCount`, so that their sum is one of
an `Int`. -/
def GitStatus.gitStatusCountsMatchState (s : GitStatus) : Bool :=
  let totalCount := s.stagedCount + s.unstagedCount + s.untrackedCount + s.conflictCount
  let minimumShownCount : ℤ := s.changes.length
  let nonCleanStateMatchesCounts :=
    !s.clean || (totalCount = 0 && s.changes.isEmpty && !s.truncated)
  let shownChangesMatchCounts : Bool :=
    if s.truncated then minimumShownCount ≤ totalCount else minimumShownCount = totalCount
  nonCleanStateMatchesCounts && shownChangesMatchCounts

def GitStatusApprovedRepo.matchesToolContract (r : GitStatusApprovedRepo) : Bool :=
  inRange 0 maxGitStatusRepoIndex r.repoIndex && isSafeDisplayField r.name maxGitStatusRepoNameLength

/-- `GitStatus.matchesToolContract`. -/
def GitStatus.matchesToolContract (s : GitStatus) : Bool :=
  isSafeDisplayField s.status maxGitStatusStatusLength &&
    inRange 0 maxGitStatusRepoIndex s.repoIndex &&
    isSafeDisplayField s.repoName maxGitStatusRepoNameLength &&
    isNullOrSafeDisplayField s.branch maxGitStatusBranchLength &&
    isNullOrSafeDisplayField s.headOidShort maxGitStatusOidLength &&
    isNullOrSafeDisplayField s.upstream maxGitStatusUpstreamLength &&
    s.ahead.all (inRange 0 maxGitStatusCount) &&
    s.behind.all (inRange 0 maxGitStatusCount) &&
    inRange 0 maxGitStatusCount s.stagedCount &&
    inRange 0 maxGitStatusCount s.unstagedCount &&
    inRange 0 maxGitStatusCount s.untrackedCount &&
    inRange 0 maxGitStatusCount s.conflictCount &&
    s.gitStatusCountsMatchState &&
    s.approvedRepos.length ≤ maxGitStatusRepos &&
    s.approvedRepos.any (fun repo => repo.repoIndex = s.repoIndex && repo.name = s.repoName) &&
    s.approvedRepos.all GitStatusApprovedRepo.matchesToolContract &&
    s.changes.length ≤ maxGitStatusChanges &&
    s.changes.all GitStatusChange.matchesToolContract

/-! ### `mac.files.list` and `mac.files.largest` -/

def maxMacFilesApprovedRoots : ℕ := 8
def maxMacFilesRootIndex : ℤ := 7
def maxMacFilesListEntries : ℕ := 32
def maxMacFilesLargestEntries : ℕ := 25
def maxMacFilesLargestDepth : ℤ := 8
def maxMacFilesLargestScannedEntries : ℤ := 5000
/-- `Long.MAX_VALUE` -/
def maxMacFilesLargestFileSizeBytes : ℤ := 9223372036854775807
def maxMacFilesRelativePathLength : ℕ := 512
def maxMacFilesLargestPathLength : ℕ := 192
def maxMacFilesRootNameLength : ℕ := 64
def maxMacFilesEntryNameLength : ℕ := 96
def macFilesEntryKinds : List Str := [lit "file", lit "directory", lit "symlink", lit "other"]

structure MacFilesApprovedRoot where
  rootIndex : ℤ
  name : Str

structure MacFilesListEntry where
  name : Str
  nameTruncated : Bool
  kind : Str
  /-- an `Int` -/
  sizeBytes : Option ℤ
  modifiedEpochSeconds : Option ℤ

structure MacFilesList where
  status : Str
  rootIndex : ℤ
  rootName : Str
  relativePath : Str
  truncated : Bool
  approvedRoots : List MacFilesApprovedRoot
  entries : List MacFilesListEntry

structure MacFilesLargestEntry where
  relativePath : Str
  pathTruncated : Bool
  name : Str
  nameTruncated : Bool
  /-- a `Long` -/
  sizeBytes : ℤ
  modifiedEpochSeconds : Option ℤ

structure MacFilesLargest where
  status : Str
  rootIndex : ℤ
  rootName : Str
  relativePath : Str
  maxDepth : ℤ
  scannedEntries : ℤ
  skippedEntries : ℤ
  truncated : Bool
  approvedRoots : List MacFilesApprovedRoot
  entries : List MacFilesLargestEntry

def decodeMacFilesApprovedRoot (root : JsonObject) : Checked MacFilesApprovedRoot := do
  root.requireKeys ["rootIndex", "name"] []
  let rootIndex ← root.requireBoundedInt (lit "rootIndex") 0 maxMacFilesRootIndex
  let name ← root.requireBoundedString (lit "name") 1 maxMacFilesRootNameLength
  return { rootIndex, name }

/-- A number that is there is not negative. -/
def requireNotNegative (message : String) (value : Option ℤ) : Checked Unit :=
  if ∀ n ∈ value, 0 ≤ n then .ok () else protocolException (lit message)

def decodeMacFilesListEntry (entry : JsonObject) : Checked MacFilesListEntry := do
  entry.requireKeys ["name", "nameTruncated", "kind", "sizeBytes", "modifiedEpochSeconds"] []
  let name ← entry.requireBoundedString (lit "name") 1 maxMacFilesEntryNameLength
  let nameTruncated ← entry.requireBoolean (lit "nameTruncated")
  let kind ← entry.requireString (lit "kind")
  if kind ∉ macFilesEntryKinds then throw (lit "unsupported Mac file entry kind")
  let sizeBytes ← entry.requireNullableInt (lit "sizeBytes")
  requireNotNegative "sizeBytes cannot be negative" sizeBytes
  let modifiedEpochSeconds ← entry.requireNullableLong (lit "modifiedEpochSeconds")
  requireNotNegative "modifiedEpochSeconds cannot be negative" modifiedEpochSeconds
  return { name, nameTruncated, kind, sizeBytes, modifiedEpochSeconds }

def decodeMacFilesList (content : JsonObject) : Checked MacFilesList := do
  content.requireKeys
    ["status", "rootIndex", "rootName", "relativePath", "truncated", "approvedRoots", "entries"] []
  let approvedRoots ← content.requireArray (lit "approvedRoots")
  let approvedRoots ← boundedObjects approvedRoots maxMacFilesApprovedRoots (lit "approvedRoots")
    decodeMacFilesApprovedRoot
  let entries ← content.requireArray (lit "entries")
  let entries ← boundedObjects entries maxMacFilesListEntries (lit "entries") decodeMacFilesListEntry
  let status ← content.requireBoundedString (lit "status") 1 64
  let rootIndex ← content.requireBoundedInt (lit "rootIndex") 0 maxMacFilesRootIndex
  let rootName ← content.requireBoundedString (lit "rootName") 1 maxMacFilesRootNameLength
  let relativePath ←
    content.requireBoundedString (lit "relativePath") 0 maxMacFilesRelativePathLength
  let truncated ← content.requireBoolean (lit "truncated")
  return { status, rootIndex, rootName, relativePath, truncated, approvedRoots, entries }

/-- `isSafeMacFilesRelativePath`. -/
def isSafeMacFilesRelativePath (s : Str) : Bool :=
  s.length ≤ maxMacFilesRelativePathLength && isSafePath s (· = lit "..")

/-- `isSafeMacFilesOutputPath`. -/
def isSafeMacFilesOutputPath (s : Str) (maximum : ℕ) : Bool :=
  !isBlank s && s.length ≤ maximum &&
    isSafePath s fun part => isBlank part || part = lit "." || part = lit ".."

def MacFilesApprovedRoot.matchesToolContract (r : MacFilesApprovedRoot) : Bool :=
  inRange 0 maxMacFilesRootIndex r.rootIndex && isSafeDisplayField r.name maxMacFilesRootNameLength

/-- `MacFilesListEntry.matchesToolContract`. -/
def MacFilesListEntry.matchesToolContract (e : MacFilesListEntry) : Bool :=
  isSafeDisplayField e.name maxMacFilesEntryNameLength && e.kind ∈ macFilesEntryKinds &&
    e.sizeBytes.all (0 ≤ ·) && e.modifiedEpochSeconds.all (0 ≤ ·)

/-- `MacFilesList.matchesToolContract`. -/
def MacFilesList.matchesToolContract (l : MacFilesList) : Bool :=
  isSafeDisplayField l.status 64 && inRange 0 maxMacFilesRootIndex l.rootIndex &&
    isSafeDisplayField l.rootName maxMacFilesRootNameLength &&
    l.relativePath.length ≤ maxMacFilesRelativePathLength &&
    isSafeMacFilesRelativePath l.relativePath &&
    l.approvedRoots.length ≤ maxMacFilesApprovedRoots &&
    l.approvedRoots.all MacFilesApprovedRoot.matchesToolContract &&
    l.entries.length ≤ maxMacFilesListEntries &&
    l.entries.all MacFilesListEntry.matchesToolContract

/-- `MacFilesLargestEntry.matchesToolContract`. -/
def MacFilesLargestEntry.matchesToolContract (e : MacFilesLargestEntry) : Bool :=
  isSafeMacFilesOutputPath e.relativePath maxMacFilesLargestPathLength &&
    isSafeDisplayField e.name maxMacFilesEntryNameLength &&
    inRange 0 maxMacFilesLargestFileSizeBytes e.sizeBytes &&
    e.modifiedEpochSeconds.all (0 ≤ ·)

/-- `MacFilesLargest.matchesToolContract`. -/
def MacFilesLargest.matchesToolContract (l : MacFilesLargest) : Bool :=
  isSafeDisplayField l.status 64 && inRange 0 maxMacFilesRootIndex l.rootIndex &&
    isSafeDisplayField l.rootName maxMacFilesRootNameLength &&
    isSafeMacFilesRelativePath l.relativePath &&
    inRange 0 maxMacFilesLargestDepth l.maxDepth &&
    inRange 0 maxMacFilesLargestScannedEntries l.scannedEntries &&
    inRange 0 maxMacFilesLargestScannedEntries l.skippedEntries &&
    l.approvedRoots.length ≤ maxMacFilesApprovedRoots &&
    l.approvedRoots.any (fun root => root.rootIndex = l.rootIndex && root.name = l.rootName) &&
    l.approvedRoots.all MacFilesApprovedRoot.matchesToolContract &&
    l.entries.length ≤ maxMacFilesLargestEntries &&
    l.entries.all MacFilesLargestEntry.matchesToolContract &&
    (l.entries.zip l.entries.tail).all fun (first, second) => second.sizeBytes ≤ first.sizeBytes

def decodeMacFilesLargestEntry (entry : JsonObject) : Checked MacFilesLargestEntry := do
  entry.requireKeys
    ["relativePath", "pathTruncated", "name", "nameTruncated", "sizeBytes", "modifiedEpochSeconds"] []
  let relativePath ← entry.requireBoundedString (lit "relativePath") 1 maxMacFilesLargestPathLength
  let pathTruncated ← entry.requireBoolean (lit "pathTruncated")
  let name ← entry.requireBoundedString (lit "name") 1 maxMacFilesEntryNameLength
  let nameTruncated ← entry.requireBoolean (lit "nameTruncated")
  let sizeBytes ← entry.requireBoundedLong (lit "sizeBytes") 0 maxMacFilesLargestFileSizeBytes
  let modifiedEpochSeconds ← entry.requireNullableLong (lit "modifiedEpochSeconds")
  requireNotNegative "modifiedEpochSeconds cannot be negative" modifiedEpochSeconds
  return { relativePath, pathTruncated, name, nameTruncated, sizeBytes, modifiedEpochSeconds }

def decodeMacFilesLargest (content : JsonObject) : Checked MacFilesLargest := do
  content.requireKeys
    ["status", "rootIndex", "rootName", "relativePath", "maxDepth", "scannedEntries", "skippedEntries",
      "truncated", "approvedRoots", "entries"] []
  let approvedRoots ← content.requireArray (lit "approvedRoots")
  let approvedRoots ← boundedObjects approvedRoots maxMacFilesApprovedRoots (lit "approvedRoots")
    decodeMacFilesApprovedRoot
  let entries ← content.requireArray (lit "entries")
  let entries ← boundedObjects entries maxMacFilesLargestEntries (lit "entries")
    decodeMacFilesLargestEntry
  let status ← content.requireBoundedString (lit "status") 1 64
  let rootIndex ← content.requireBoundedInt (lit "rootIndex") 0 maxMacFilesRootIndex
  let rootName ← content.requireBoundedString (lit "rootName") 1 maxMacFilesRootNameLength
  let relativePath ←
    content.requireBoundedString (lit "relativePath") 0 maxMacFilesRelativePathLength
  let maxDepth ← content.requireBoundedInt (lit "maxDepth") 0 maxMacFilesLargestDepth
  let scannedEntries ←
    content.requireBoundedInt (lit "scannedEntries") 0 maxMacFilesLargestScannedEntries
  let skippedEntries ←
    content.requireBoundedInt (lit "skippedEntries") 0 maxMacFilesLargestScannedEntries
  let truncated ← content.requireBoolean (lit "truncated")
  let result : MacFilesLargest := {
    status, rootIndex, rootName, relativePath, maxDepth, scannedEntries, skippedEntries, truncated,
    approvedRoots, entries }
  if !result.matchesToolContract then throw (lit "largest files result failed local policy")
  return result

/-! ### `mac.clipboard.read` -/

def maxMacClipboardTextLength : ℕ := 2000
def maxMacClipboardCharacterCount : ℤ := 100000
def macClipboardStatusValues : List Str := [lit "available", lit "empty", lit "unsupported"]

structure MacClipboardRead where
  status : Str
  contentType : Str
  text : Option Str
  textTruncated : Bool
  characterCount : ℤ
  characterCountTruncated : Bool

/-- `isSafeClipboardText`. -/
def isSafeClipboardText (s : Str) : Bool :=
  s ≠ [] && s.length ≤ maxMacClipboardTextLength && !s.any fun c => c = 0 || isFormat c

/-- `doesNotContainFileUrl`. -/
def doesNotContainFileUrl (s : Option Str) : Bool :=
  s.all fun s => !containsIgnoreCase s (lit "file://")

/-- `textMatchesClipboardState`. -/
def MacClipboardRead.textMatchesClipboardState (r : MacClipboardRead) : Bool :=
  if r.status = lit "available" then
    match r.text with
    | none => false
    | some text =>
      isSafeClipboardText text &&
        if r.textTruncated || r.characterCountTruncated then
          r.textTruncated && (text.length : ℤ) ≤ r.characterCount
        else r.characterCount = text.length
  else if r.status = lit "empty" ∨ r.status = lit "unsupported" then
    r.text.isNone && !r.textTruncated && r.characterCount = 0 && !r.characterCountTruncated
  else false

/-- `MacClipboardRead.matchesToolContract`. -/
def MacClipboardRead.matchesToolContract (r : MacClipboardRead) : Bool :=
  r.status ∈ macClipboardStatusValues && r.contentType = lit "text" &&
    inRange 0 maxMacClipboardCharacterCount r.characterCount && r.textMatchesClipboardState &&
    doesNotContainFileUrl r.text

/-! ### `mac.processes.list` -/

def maxMacProcessEntries : ℕ := 25
def maxMacProcessCount : ℤ := 100000
/-- `Int.MAX_VALUE` -/
def maxMacProcessPid : ℤ := 2147483647
def maxMacProcessNameLength : ℕ := 96
def maxMacProcessStatusLength : ℕ := 32
def maxMacProcessStatusTextLength : ℕ := 64
/-- `Long.MAX_VALUE` -/
def maxMacProcessRssBytes : ℤ := 9223372036854775807

structure MacProcessEntry where
  pid : ℤ
  name : Str
  status : Str
  rssBytes : ℤ
  createTimeEpochSeconds : Option ℤ

structure MacProcessesList where
  status : Str
  processCount : ℤ
  skippedCount : ℤ
  truncated : Bool
  entries : List MacProcessEntry

def backslash : UInt16 := 0x5c

/-- `MacProcessEntry.matchesToolContract`. -/
def MacProcessEntry.matchesToolContract (e : MacProcessEntry) : Bool :=
  inRange 0 maxMacProcessPid e.pid && isSafeDisplayField e.name maxMacProcessNameLength &&
    !e.name.contains slash && !e.name.contains backslash &&
    isSafeDisplayField e.status maxMacProcessStatusLength &&
    inRange 0 maxMacProcessRssBytes e.rssBytes && e.createTimeEpochSeconds.all (0 ≤ ·)

/-- `MacProcessesList.matchesToolContract`. -/
def MacProcessesList.matchesToolContract (l : MacProcessesList) : Bool :=
  isSafeDisplayField l.status maxMacProcessStatusTextLength &&
    inRange 0 maxMacProcessCount l.processCount && inRange 0 maxMacProcessCount l.skippedCount &&
    l.skippedCount ≤ l.processCount && l.entries.length ≤ maxMacProcessEntries &&
    (l.entries.length : ℤ) ≤ l.processCount &&
    (if l.truncated then (l.entries.length : ℤ) ≤ l.processCount - l.skippedCount
      else (l.entries.length : ℤ) = l.processCount - l.skippedCount) &&
    l.entries.all MacProcessEntry.matchesToolContract &&
    (l.entries.zip l.entries.tail).all fun (first, second) => second.rssBytes ≤ first.rssBytes

/-! ### `mac.apps.list`, `mac.apps.open` -/

def maxMacAppEntries : ℕ := 25
def maxMacAppCount : ℤ := 25
def maxMacAppIndex : ℤ := 24
def maxMacAppDisplayNameLength : ℕ := 80
def maxMacAppBundleIdLength : ℕ := 160
def maxMacAppStatusLength : ℕ := 64

/-- `MAC_APP_BUNDLE_ID`. -/
def macAppBundleId : Regex.Pattern :=
  let alphanumerics := Regex.CharSet.ranges [('A', 'Z'), ('a', 'z'), ('0', '9')]
  let inner := Regex.CharSet.ranges [('A', 'Z'), ('a', 'z'), ('0', '9'), ('.', '.'), ('-', '-')]
  .inTurn [.start, .one alphanumerics, .atMost (.one inner) 158, .one alphanumerics, .finish]

structure MacAppCatalogEntry where
  appIndex : ℤ
  displayName : Str
  bundleId : Str

structure MacAppsList where
  status : Str
  appCount : ℤ
  truncated : Bool
  entries : List MacAppCatalogEntry

structure MacAppsOpenArguments where
  displayName : Str

/-- `isSafeMacAppDisplayName`. -/
def isSafeMacAppDisplayName (s : Str) : Bool :=
  isSafeDisplayField s maxMacAppDisplayNameLength && !s.contains slash && !s.contains backslash

/-- `isSafeMacBundleId`. -/
def isSafeMacBundleId (s : Str) : Bool :=
  !isBlank s && s.length ≤ maxMacAppBundleIdLength && Kotlin.contains s (lit ".") &&
    !Kotlin.contains s (lit "..") && Regex.isMatch (regex false) macAppBundleId s

/-- `MacAppsOpenArguments.matchesToolContract`. -/
def MacAppsOpenArguments.matchesToolContract (a : MacAppsOpenArguments) : Bool :=
  isSafeMacAppDisplayName a.displayName

/-- `MacAppCatalogEntry.matchesToolContract`. -/
def MacAppCatalogEntry.matchesToolContract (e : MacAppCatalogEntry) : Bool :=
  inRange 0 maxMacAppIndex e.appIndex && isSafeMacAppDisplayName e.displayName &&
    isSafeMacBundleId e.bundleId

/-- `MacAppsList.matchesToolContract`; `lowercase` is `lowercase(Locale.US)`. -/
def MacAppsList.matchesToolContract (lowercase : Str → Str) (l : MacAppsList) : Bool :=
  isSafeDisplayField l.status maxMacAppStatusLength && inRange 0 maxMacAppCount l.appCount &&
    l.entries.length ≤ maxMacAppEntries && (l.entries.length : ℤ) ≤ l.appCount &&
    (if l.truncated then (l.entries.length : ℤ) < l.appCount else (l.entries.length : ℤ) = l.appCount) &&
    l.entries.all MacAppCatalogEntry.matchesToolContract &&
    (l.entries.map (·.appIndex)).dedup.length = l.entries.length &&
    (l.entries.map fun e => lowercase e.displayName).dedup.length = l.entries.length &&
    (l.entries.map fun e => lowercase e.bundleId).dedup.length = l.entries.length

end GoffyPhone
