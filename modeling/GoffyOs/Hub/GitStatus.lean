import GoffyOs.Hub.BoundedText
import GoffyOs.Lib.Checks
import GoffyOs.Python.Json
import GoffyOs.Python.Paths
import GoffyOs.Python.Words

/-!
# The tool `git.status`

The Hub runs `git status --porcelain=v2` in an approved repository, reads what it prints line by line,
and answers with counts and with the first changes, as many as were asked for and as fit into the size
of a tool's output.

* `Git` is the program: what it prints for its arguments and its directory is a parameter;
* `parsePorcelainV2` reads its output, `readGitStatus` is the tool's handler;
* `approvedRepos` is what the tool is built with; the file system's answers are part of a `RepoRoot`.

`readGitStatus_ok` says what a successful answer is: `answer` with as many changes as the size allows.
-/

namespace GoffyHub.GitTool

open Python

def maxApprovedRepos : ℕ := 8
def maxStatusChanges : ℕ := 32
def maxRepoNameChars : ℕ := 64
def maxGitPathChars : ℕ := 160
def maxBranchNameChars : ℕ := 96
def maxUpstreamNameChars : ℕ := 128
def maxGitOidShortChars : ℕ := 16
def maxToolOutputBytes : ℕ := 8192

/-- The exceptions that end the tool's call. -/
inductive GitStatusError
  | valueError (message : String)
  | validationError
  | timeoutExpired
  | osError

/-- `_bounded_required_text`. -/
def boundedRequiredText (value : Str) (limit : ℕ) : Str :=
  boundedText isControl "unnamed".toList value limit

/-! ### Approved repositories -/

structure ApprovedGitRepo where
  index : ℕ
  name : Str
  path : Path

/-- A configured path, as the file system knows it. -/
structure RepoRoot where
  isAbsolute : Bool
  isDir : Bool
  /-- `resolve(strict=True)` -/
  resolved : Path
  /-- `_git_marker(resolved).exists()` -/
  hasGitMarker : Bool

def approvedRepo (index : ℕ) (root : RepoRoot) : Except GitStatusError ApprovedGitRepo :=
  if !root.isAbsolute || !root.isDir then
    .error (.valueError "approved Git repos must be existing absolute directories")
  else if !root.hasGitMarker then
    .error (.valueError "approved Git repos must be Git worktree roots")
  else
    .ok {
      index := index
      name := boundedRequiredText
        (if root.resolved.name = [] then "repo".toList else root.resolved.name) maxRepoNameChars
      path := root.resolved }

/-- The loop of `_approved_repos`. -/
def approvedReposFrom (index : ℕ) : List RepoRoot → Except GitStatusError (List ApprovedGitRepo)
  | [] => .ok []
  | root :: roots => do
    let repo ← approvedRepo index root
    let repos ← approvedReposFrom (index + 1) roots
    return repo :: repos

/-- `_approved_repos`. -/
def approvedRepos (paths : List RepoRoot) : Except GitStatusError (List ApprovedGitRepo) :=
  if paths = [] ∨ maxApprovedRepos < paths.length then
    .error (.valueError "git.status requires 1..8 approved repos")
  else do
    let repos ← approvedReposFrom 0 paths
    if (repos.map (·.path)).Nodup then return repos
    else throw (.valueError "approved Git repos must be unique")

/-- `_repo_for_index`. -/
def repoForIndex (repoIndex : ℕ) (repos : List ApprovedGitRepo) :
    Except GitStatusError ApprovedGitRepo :=
  match repos.find? (·.index = repoIndex) with
  | some repo => .ok repo
  | none => .error (.valueError "repo_index is not configured")

/-! ### The program -/

structure CompletedProcess where
  returncode : ℤ
  stdout : Str

/-- The program, by its arguments and its directory. -/
abbrev Git := List String → Path → Except GitStatusError CompletedProcess

def gitArguments (includeUntracked : Bool) : List String :=
  ["status", "--porcelain=v2", "--branch", "--no-renames",
    if includeUntracked then "--untracked-files=all" else "--untracked-files=no"]

/-- `_run_git_status`. -/
def runGitStatus (git : Git) (repoPath : Path) (includeUntracked : Bool) :
    Except GitStatusError Str := do
  let completed ← git (gitArguments includeUntracked) repoPath
  if completed.returncode ≠ 0 then throw (.valueError "git.status command failed")
  if 16384 < (utf8 completed.stdout).length then
    throw (.valueError "git.status output exceeds the supported size")
  return completed.stdout

/-! ### Its output -/

inductive GitStatusKind
  | tracked
  | untracked
  | conflict
  deriving DecidableEq

/-- `_GitChange`. -/
structure GitChange where
  path : Str
  indexStatus : Char
  workingTreeStatus : Char
  kind : GitStatusKind
  deriving DecidableEq

/-- `_GitStatus`. -/
structure GitStatus where
  branch : Option Str := none
  headOidShort : Option Str := none
  upstream : Option Str := none
  ahead : Option ℤ := none
  behind : Option ℤ := none
  changes : List GitChange := []

/-- `_parse_ahead_behind`. -/
def parseAheadBehind (line : Str) : Option ℤ × Option ℤ :=
  match split line with
  | [_, _, ahead, behind] =>
    match parseInt 10 (removePrefix ahead ['+']), parseInt 10 (removePrefix behind ['-']) with
    | some ahead, some behind => (some (max ahead 0), some (max behind 0))
    | _, _ => (none, none)
  | _ => (none, none)

/-- The change on a line of so many parts, with the codes in the second and the path in the last. -/
def changeOfParts (count : ℕ) (kind : GitStatusKind) (parts : List Str) : Option GitChange :=
  if parts.length ≠ count then none
  else match parts[1]?, parts.getLast? with
    | some [x, y], some path => some ⟨path, x, y, kind⟩
    | _, _ => none

/-- `_parse_change_line`. -/
def parseChangeLine (line : Str) : Option GitChange :=
  if startswith line ['?', ' '] then some ⟨line.drop 2, '?', '?', .untracked⟩
  else if startswith line ['1', ' '] then changeOfParts 9 .tracked (splitMax 8 line)
  else if startswith line ['u', ' '] then changeOfParts 11 .conflict (splitMax 10 line)
  else none

def oidPrefix : Str := "# branch.oid ".toList
def headPrefix : Str := "# branch.head ".toList
def upstreamPrefix : Str := "# branch.upstream ".toList
def aheadBehindPrefix : Str := "# branch.ab ".toList

/-- The object id of `# branch.oid`, shortened. -/
def shortOid (oid : Str) : Option Str :=
  if oid = "(initial)".toList then none else some (oid.take maxGitOidShortChars)

/-- The branch of `# branch.head`. -/
def headBranch (value : Str) : Option Str :=
  if value = "(detached)".toList then none else some (boundedRequiredText value maxBranchNameChars)

/-- One line of the loop of `_parse_porcelain_v2`. -/
def parseLine (status : GitStatus) (line : Str) : GitStatus :=
  if startswith line oidPrefix then
    { status with headOidShort := shortOid (strip (removePrefix line oidPrefix)) }
  else if startswith line headPrefix then
    { status with branch := headBranch (strip (removePrefix line headPrefix)) }
  else if startswith line upstreamPrefix then
    let value := strip (removePrefix line upstreamPrefix)
    { status with upstream := some (boundedRequiredText value maxUpstreamNameChars) }
  else if startswith line aheadBehindPrefix then
    let (ahead, behind) := parseAheadBehind line
    { status with ahead := ahead, behind := behind }
  else if line = [] ∨ startswith line ['#'] then status
  else match parseChangeLine line with
    | some change => { status with changes := status.changes ++ [change] }
    | none => status

/-- `_parse_porcelain_v2`. -/
def parsePorcelainV2 (rawStatus : Str) : GitStatus := (splitlines rawStatus).foldl parseLine {}

/-! ### The answer -/

structure GitStatusInput where
  repoIndex : ℕ
  maxChanges : ℕ
  includeUntracked : Bool
  repoIndex_lt : repoIndex < maxApprovedRepos
  maxChanges_pos : 1 ≤ maxChanges
  maxChanges_le : maxChanges ≤ maxStatusChanges

structure GitStatusApprovedRepoOutput where
  repoIndex : ℕ
  name : Str

structure GitStatusChangeOutput where
  path : Str
  pathTruncated : Bool
  indexStatus : Char
  workingTreeStatus : Char
  kind : GitStatusKind

structure GitStatusOutput where
  status : Str
  repoIndex : ℕ
  repoName : Str
  branch : Option Str
  headOidShort : Option Str
  upstream : Option Str
  ahead : Option ℤ
  behind : Option ℤ
  clean : Bool
  stagedCount : ℕ
  unstagedCount : ℕ
  untrackedCount : ℕ
  conflictCount : ℕ
  truncated : Bool
  approvedRepos : List GitStatusApprovedRepoOutput
  changes : List GitStatusChangeOutput

/-- `_change_output`. The bounds of its fields hold by `length_boundedText`. -/
def changeOutput (change : GitChange) : GitStatusChangeOutput where
  path := boundedRequiredText change.path maxGitPathChars
  pathTruncated := boundedRequiredText change.path maxGitPathChars ≠ change.path
  indexStatus := change.indexStatus
  workingTreeStatus := change.workingTreeStatus
  kind := change.kind

/-- A text has a length between the bounds. -/
def inBounds (minimum maximum : ℕ) (s : Str) : Bool :=
  minimum ≤ s.length && s.length ≤ maximum

/-- The constraints of the fields of `GitStatusApprovedRepoOutput`. -/
def GitStatusApprovedRepoOutput.valid (o : GitStatusApprovedRepoOutput) : Bool :=
  o.repoIndex < maxApprovedRepos && inBounds 1 maxRepoNameChars o.name

/-- The constraints of the fields of `GitStatusOutput`. -/
def GitStatusOutput.valid (o : GitStatusOutput) : Bool :=
  inBounds 1 64 o.status && o.repoIndex < maxApprovedRepos &&
    inBounds 1 maxRepoNameChars o.repoName && o.branch.all (inBounds 0 maxBranchNameChars) &&
    o.headOidShort.all (inBounds 0 maxGitOidShortChars) &&
    o.upstream.all (inBounds 0 maxUpstreamNameChars) && o.ahead.all (0 ≤ ·) &&
    o.behind.all (0 ≤ ·) && o.approvedRepos.length ≤ maxApprovedRepos &&
    o.approvedRepos.all GitStatusApprovedRepoOutput.valid && o.changes.length ≤ maxStatusChanges

/-- The constructor of `GitStatusOutput`, with its field validators. -/
def GitStatusOutput.create (o : GitStatusOutput) : Except GitStatusError GitStatusOutput :=
  if o.valid then
    .ok { o with
      repoName := boundedRequiredText o.repoName maxRepoNameChars
      branch := o.branch.map (boundedRequiredText · maxBranchNameChars)
      headOidShort := o.headOidShort.map (boundedRequiredText · maxGitOidShortChars)
      upstream := o.upstream.map (boundedRequiredText · maxUpstreamNameChars) }
  else .error .validationError

def GitStatusKind.value : GitStatusKind → Str
  | .tracked => "tracked".toList
  | .untracked => "untracked".toList
  | .conflict => "conflict".toList

/-- A field that may be `None`. -/
def jsonOption {α : Type} (f : α → Json) (o : Option α) : Json := o.elim .null f

def GitStatusApprovedRepoOutput.modelDump (o : GitStatusApprovedRepoOutput) : List (Str × Json) :=
  [("repoIndex".toList, .int o.repoIndex), ("name".toList, .str o.name)]

def GitStatusChangeOutput.modelDump (o : GitStatusChangeOutput) : List (Str × Json) :=
  [("path".toList, .str o.path),
    ("pathTruncated".toList, .bool o.pathTruncated),
    ("indexStatus".toList, .str [o.indexStatus]),
    ("workingTreeStatus".toList, .str [o.workingTreeStatus]),
    ("kind".toList, .str o.kind.value)]

/-- `model_dump(mode="json", by_alias=True)`. -/
def GitStatusOutput.modelDump (o : GitStatusOutput) : List (Str × Json) :=
  [("status".toList, .str o.status),
    ("repoIndex".toList, .int o.repoIndex),
    ("repoName".toList, .str o.repoName),
    ("branch".toList, jsonOption .str o.branch),
    ("headOidShort".toList, jsonOption .str o.headOidShort),
    ("upstream".toList, jsonOption .str o.upstream),
    ("ahead".toList, jsonOption .int o.ahead),
    ("behind".toList, jsonOption .int o.behind),
    ("clean".toList, .bool o.clean),
    ("stagedCount".toList, .int o.stagedCount),
    ("unstagedCount".toList, .int o.unstagedCount),
    ("untrackedCount".toList, .int o.untrackedCount),
    ("conflictCount".toList, .int o.conflictCount),
    ("truncated".toList, .bool o.truncated),
    ("approvedRepos".toList, .array (o.approvedRepos.map fun item => .object item.modelDump)),
    ("changes".toList, .array (o.changes.map fun change => .object change.modelDump))]

/-- `_output_bytes`. -/
def outputBytes (o : GitStatusOutput) : ℕ := (utf8 (Json.object o.modelDump).dumps).length

/-- The loop that drops changes until the output fits; each round drops one. -/
def dropChanges : ℕ → GitStatusOutput → GitStatusOutput
  | 0, o => o
  | n + 1, o =>
    if maxToolOutputBytes < outputBytes o ∧ o.changes ≠ [] then
      dropChanges n { o with changes := o.changes.dropLast, truncated := true }
    else o

/-- The change is counted as staged. -/
def GitChange.isStaged (change : GitChange) : Bool :=
  change.kind ≠ .untracked && change.indexStatus ≠ '.'

/-- The change is counted as unstaged. -/
def GitChange.isUnstaged (change : GitChange) : Bool :=
  change.kind ≠ .untracked && change.workingTreeStatus ≠ '.'

/-- What `read_git_status` passes to the constructor, with the first `k` changes. -/
def statusOutput (repo : ApprovedGitRepo) (repos : List ApprovedGitRepo) (status : GitStatus)
    (k : ℕ) : GitStatusOutput where
  status := "available".toList
  repoIndex := repo.index
  repoName := repo.name
  branch := status.branch
  headOidShort := status.headOidShort
  upstream := status.upstream
  ahead := status.ahead
  behind := status.behind
  clean := status.changes = []
  stagedCount := status.changes.countP (·.isStaged)
  unstagedCount := status.changes.countP (·.isUnstaged)
  untrackedCount := status.changes.countP (·.kind = .untracked)
  conflictCount := status.changes.countP (·.kind = .conflict)
  truncated := (status.changes.take k).length < status.changes.length
  approvedRepos := repos.map fun item => ⟨item.index, item.name⟩
  changes := (status.changes.take k).map changeOutput

/-- `read_git_status`. -/
def readGitStatus (request : GitStatusInput) (repos : List ApprovedGitRepo) (git : Git) :
    Except GitStatusError (List (Str × Json)) := do
  let repo ← repoForIndex request.repoIndex repos
  let rawStatus ← runGitStatus git repo.path request.includeUntracked
  let status := parsePorcelainV2 rawStatus
  let output ← (statusOutput repo repos status request.maxChanges).create
  let output := dropChanges output.changes.length output
  if maxToolOutputBytes < outputBytes output then
    throw (.valueError "git.status output exceeds the supported size")
  return output.modelDump

/-! ### Successful answers -/

section Answers

variable {repo : ApprovedGitRepo} {repos : List ApprovedGitRepo} {status : GitStatus}

/-- The answer with the first `k` changes. -/
def answer (repo : ApprovedGitRepo) (repos : List ApprovedGitRepo) (status : GitStatus) (k : ℕ) :
    GitStatusOutput :=
  { statusOutput repo repos status k with
    repoName := boundedRequiredText repo.name maxRepoNameChars
    branch := status.branch.map (boundedRequiredText · maxBranchNameChars)
    headOidShort := status.headOidShort.map (boundedRequiredText · maxGitOidShortChars)
    upstream := status.upstream.map (boundedRequiredText · maxUpstreamNameChars) }

/-- The first `k` changes were asked for and fit. -/
structure Fits (repo : ApprovedGitRepo) (repos : List ApprovedGitRepo) (status : GitStatus)
    (maxChanges k : ℕ) : Prop where
  le_max : k ≤ maxChanges
  le_length : k ≤ status.changes.length
  bytes : outputBytes (answer repo repos status k) ≤ maxToolOutputBytes

theorem answer_congr {j k : ℕ} (h : status.changes.take j = status.changes.take k) :
    answer repo repos status j = answer repo repos status k := by
  unfold answer statusOutput
  rw [h]

theorem length_changes_answer {k : ℕ} (hk : k ≤ status.changes.length) :
    (answer repo repos status k).changes.length = k := by
  show ((status.changes.take k).map changeOutput).length = k
  rw [List.length_map, List.length_take, min_eq_left hk]

/-- One change less. -/
theorem answer_dropLast {k : ℕ} (hk : k + 1 ≤ status.changes.length) :
    { answer repo repos status (k + 1) with
      changes := (answer repo repos status (k + 1)).changes.dropLast, truncated := true } =
      answer repo repos status k := by
  have hdrop : ((status.changes.take (k + 1)).map changeOutput).dropLast =
      (status.changes.take k).map changeOutput := by
    rw [← List.map_dropLast, List.dropLast_eq_take, List.take_take, List.length_take,
      show min (min (k + 1) status.changes.length - 1) (k + 1) = k by omega]
  have hlt : decide ((status.changes.take k).length < status.changes.length) = true := by
    rw [decide_eq_true_iff, List.length_take]
    omega
  unfold answer statusOutput
  rw [hlt]
  dsimp only
  rw [hdrop]

/-- The loop ends with the most changes that fit. -/
theorem dropChanges_answer {k : ℕ} (hk : k ≤ status.changes.length) : ∃ j ≤ k,
    dropChanges k (answer repo repos status k) = answer repo repos status j ∧
    ∀ i, j < i → i ≤ k → maxToolOutputBytes < outputBytes (answer repo repos status i) := by
  induction k with
  | zero => exact ⟨0, le_rfl, rfl, fun i hi hi' => by omega⟩
  | succ k ih =>
    rw [dropChanges]
    by_cases hlarge : maxToolOutputBytes < outputBytes (answer repo repos status (k + 1))
    · have hne : (answer repo repos status (k + 1)).changes ≠ [] := by
        rw [← List.length_pos_iff, length_changes_answer hk]
        omega
      obtain ⟨j, hj, heq, hlater⟩ := ih (by omega)
      refine ⟨j, by omega, ?_, fun i hi hi' => ?_⟩
      · rw [if_pos ⟨hlarge, hne⟩, answer_dropLast hk, heq]
      · rcases Nat.lt_or_ge k i with h | h
        · rw [show i = k + 1 by omega]
          exact hlarge
        · exact hlater i hi h
    · rw [if_neg fun h => hlarge h.1]
      exact ⟨k + 1, le_rfl, rfl, fun i hi hi' => by omega⟩

/-- **Answers.** A successful answer shows as many of the first changes as fit. -/
theorem readGitStatus_ok {request : GitStatusInput} {git : Git} {output : List (Str × Json)}
    (h : readGitStatus request repos git = .ok output) : ∃ repo raw k,
      repoForIndex request.repoIndex repos = .ok repo ∧
      runGitStatus git repo.path request.includeUntracked = .ok raw ∧
      (statusOutput repo repos (parsePorcelainV2 raw) request.maxChanges).valid = true ∧
      output = (answer repo repos (parsePorcelainV2 raw) k).modelDump ∧
      Fits repo repos (parsePorcelainV2 raw) request.maxChanges k ∧
      ∀ j, Fits repo repos (parsePorcelainV2 raw) request.maxChanges j → j ≤ k := by
  unfold readGitStatus at h
  obtain ⟨repo, hrepo, h⟩ := Checks.bind_eq_ok.1 h
  obtain ⟨raw, hraw, h⟩ := Checks.bind_eq_ok.1 h
  obtain ⟨created, hcreated, h⟩ := Checks.bind_eq_ok.1 h
  obtain ⟨hvalid, rfl⟩ := Checks.ite_error_eq_ok.1 hcreated
  obtain ⟨hbytes, h⟩ := Checks.throw_bind_eq_ok.1 h
  have houtput : output = _ := (Except.ok.inj h).symm
  refine ⟨repo, raw, ?_⟩
  generalize parsePorcelainV2 raw = status at hvalid hbytes houtput ⊢
  -- the constructor's result is the answer with as many changes as were asked for
  have hcreated : answer repo repos status request.maxChanges =
      answer repo repos status (min request.maxChanges status.changes.length) :=
    answer_congr (by rw [← List.take_take, List.take_length])
  obtain ⟨k, hk, hdrop, hlater⟩ := @dropChanges_answer repo repos status _
    (min_le_right request.maxChanges status.changes.length)
  have hfinal : dropChanges (answer repo repos status request.maxChanges).changes.length
      (answer repo repos status request.maxChanges) = answer repo repos status k := by
    rw [hcreated, length_changes_answer (min_le_right _ _), hdrop]
  have hfits : Fits repo repos status request.maxChanges k := by
    refine ⟨by omega, by omega, ?_⟩
    rw [← hfinal]
    exact not_lt.1 hbytes
  refine ⟨k, hrepo, hraw, hvalid, houtput.trans (congrArg _ hfinal), hfits, fun j hj => ?_⟩
  by_contra hlt
  have hlarge := hlater j (by omega) (le_min hj.le_max hj.le_length)
  exact absurd hj.bytes (not_le.2 hlarge)

/-- Where the changes that were asked for fit, the answer shows them. -/
theorem readGitStatus_of_fits {request : GitStatusInput} {git : Git} {raw : Str} {k : ℕ}
    (hrepo : repoForIndex request.repoIndex repos = .ok repo)
    (hraw : runGitStatus git repo.path request.includeUntracked = .ok raw)
    (hstatus : parsePorcelainV2 raw = status)
    (hvalid : (statusOutput repo repos status request.maxChanges).valid = true)
    (hfits : Fits repo repos status request.maxChanges k)
    (hall : min request.maxChanges status.changes.length ≤ k) :
    readGitStatus request repos git = .ok (answer repo repos status k).modelDump := by
  have hk : k = min request.maxChanges status.changes.length :=
    le_antisymm (le_min hfits.le_max hfits.le_length) hall
  have hcreate : (statusOutput repo repos status request.maxChanges).create =
      .ok (answer repo repos status k) := by
    have hshown : answer repo repos status request.maxChanges = answer repo repos status k :=
      answer_congr (by rw [hk, ← List.take_take, List.take_length])
    rw [GitStatusOutput.create, if_pos hvalid, ← hshown]
    rfl
  have hdrop : dropChanges (answer repo repos status k).changes.length (answer repo repos status k) =
      answer repo repos status k := by
    rw [length_changes_answer hfits.le_length]
    cases k with
    | zero => rfl
    | succ k =>
      rw [dropChanges, if_neg]
      rintro ⟨hlarge, -⟩
      exact absurd hfits.bytes (not_le.2 hlarge)
  unfold readGitStatus
  rw [hrepo, Checks.ok_bind, hraw, Checks.ok_bind, hstatus]
  dsimp only
  rw [hcreate, Checks.ok_bind, hdrop, if_neg (not_lt.2 hfits.bytes)]
  rfl

end Answers

end GoffyHub.GitTool
