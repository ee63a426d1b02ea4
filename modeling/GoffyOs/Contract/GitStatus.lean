import GoffyOs.Hub.GitPorcelain
import GoffyOs.Phone.HubTools

/-!
# `git.status` across the two sides

`onPhone` is what the phone's decoder reads of an answer of the Hub, and `Sent` what every answer about
printable names keeps. Where the Hub's counts and the phone's agree, and where not, is the last theorem.
-/

namespace GoffyHub.GitTool

open GoffyPhone Kotlin Kotlin.JsonObject

-- `decide` looks at the members of a list one by one
attribute [local instance (high)] List.decidableBAll

def GitStatusApprovedRepoOutput.onPhone (o : GitStatusApprovedRepoOutput) : GitStatusApprovedRepo where
  repoIndex := o.repoIndex
  name := ofChars o.name

def GitStatusChangeOutput.onPhone (o : GitStatusChangeOutput) : GitStatusChange where
  path := ofChars o.path
  pathTruncated := o.pathTruncated
  indexStatus := ofChars [o.indexStatus]
  workingTreeStatus := ofChars [o.workingTreeStatus]
  kind := ofChars o.kind.value

/-- What the phone reads of an answer. -/
def GitStatusOutput.onPhone (o : GitStatusOutput) : GoffyPhone.GitStatus where
  status := ofChars o.status
  repoIndex := o.repoIndex
  repoName := ofChars o.repoName
  branch := o.branch.map ofChars
  headOidShort := o.headOidShort.map ofChars
  upstream := o.upstream.map ofChars
  ahead := o.ahead
  behind := o.behind
  clean := o.clean
  stagedCount := o.stagedCount
  unstagedCount := o.unstagedCount
  untrackedCount := o.untrackedCount
  conflictCount := o.conflictCount
  truncated := o.truncated
  approvedRepos := o.approvedRepos.map (·.onPhone)
  changes := o.changes.map (·.onPhone)

/-! ### What the Hub sends -/

/-- The codes that Git prints, and those of an untracked path. -/
def sentCodes : List Char := ".MTADRCU?".toList

structure GitStatusApprovedRepoOutput.Sent (o : GitStatusApprovedRepoOutput) : Prop where
  repoIndex : o.repoIndex < maxApprovedRepos
  name : IsDisplayText maxRepoNameChars o.name

structure GitStatusChangeOutput.Sent (o : GitStatusChangeOutput) : Prop where
  path : IsDisplayText maxGitPathChars o.path
  indexStatus : o.indexStatus ∈ sentCodes
  workingTreeStatus : o.workingTreeStatus ∈ sentCodes

/-- The texts are to be displayed, and the numbers in their ranges. -/
structure GitStatusOutput.Sent (o : GitStatusOutput) : Prop where
  status : o.status = "available".toList
  repoIndex : o.repoIndex < maxApprovedRepos
  repoName : IsDisplayText maxRepoNameChars o.repoName
  branch : ∀ s ∈ o.branch, IsDisplayText maxBranchNameChars s
  headOidShort : ∀ s ∈ o.headOidShort, IsDisplayText maxGitOidShortChars s
  upstream : ∀ s ∈ o.upstream, IsDisplayText maxUpstreamNameChars s
  ahead : ∀ n ∈ o.ahead, 0 ≤ n
  behind : ∀ n ∈ o.behind, 0 ≤ n
  stagedCount : o.stagedCount ≤ 10000
  unstagedCount : o.unstagedCount ≤ 10000
  untrackedCount : o.untrackedCount ≤ 10000
  conflictCount : o.conflictCount ≤ 10000
  approvedRepos_length : o.approvedRepos.length ≤ maxApprovedRepos
  approvedRepos : ∀ r ∈ o.approvedRepos, r.Sent
  changes_length : o.changes.length ≤ maxStatusChanges
  changes : ∀ c ∈ o.changes, c.Sent

/-- The commits ahead and behind are no more than the phone takes. -/
def GitStatusOutput.CommitsInRange (o : GitStatusOutput) : Prop :=
  (∀ n ∈ o.ahead, n ≤ maxGitStatusCount) ∧ ∀ n ∈ o.behind, n ≤ maxGitStatusCount

/-! ### Decoding -/

theorem decodeGitStatusApprovedRepo_modelDump {o : GitStatusApprovedRepoOutput} (h : o.Sent) :
    decodeGitStatusApprovedRepo (ofPythonMembers o.modelDump) = .ok o.onPhone := by
  have hkeys : requireKeys (ofPythonMembers o.modelDump) ["repoIndex", "name"] [] = .ok () :=
    requireKeys_ofPython ["repoIndex", "name"] rfl (by decide) (by decide)
  have hindex : requireBoundedInt (ofPythonMembers o.modelDump) (lit "repoIndex") 0
      maxGitStatusRepoIndex = .ok o.repoIndex := by
    have hle : (o.repoIndex : ℤ) ≤ 7 := by exact_mod_cast Nat.le_of_lt_succ h.repoIndex
    exact requireBoundedInt_ofPython rfl ⟨Int.natCast_nonneg _, hle⟩ (by decide)
  have hname : requireBoundedString (ofPythonMembers o.modelDump) (lit "name") 1
      maxGitStatusRepoNameLength = .ok (ofChars o.name) :=
    requireBoundedString_ofPython rfl h.name.length_ofChars
  simp only [decodeGitStatusApprovedRepo, hkeys, hindex, hname, Checks.ok_bind]
  rfl

theorem kind_mem (kind : GitStatusKind) : ofChars kind.value ∈ gitStatusChangeKinds := by
  cases kind <;> decide

theorem decodeGitStatusChange_modelDump {o : GitStatusChangeOutput} (h : o.Sent) :
    decodeGitStatusChange (ofPythonMembers o.modelDump) = .ok o.onPhone := by
  have hcode : ∀ c ∈ sentCodes, 1 ≤ (ofChars [c]).length ∧ (ofChars [c]).length ≤ 1 := by decide
  have hkeys : requireKeys (ofPythonMembers o.modelDump)
      ["path", "pathTruncated", "indexStatus", "workingTreeStatus", "kind"] [] = .ok () :=
    requireKeys_ofPython ["path", "pathTruncated", "indexStatus", "workingTreeStatus", "kind"] rfl
      (by decide) (by decide)
  have hpath : requireBoundedString (ofPythonMembers o.modelDump) (lit "path") 1
      maxGitStatusPathLength = .ok (ofChars o.path) :=
    requireBoundedString_ofPython rfl h.path.length_ofChars
  have htruncated : requireBoolean (ofPythonMembers o.modelDump) (lit "pathTruncated") =
      .ok o.pathTruncated := requireBoolean_ofPython rfl
  have hindex : requireBoundedString (ofPythonMembers o.modelDump) (lit "indexStatus") 1 1 =
      .ok (ofChars [o.indexStatus]) :=
    requireBoundedString_ofPython rfl (hcode _ h.indexStatus)
  have htree : requireBoundedString (ofPythonMembers o.modelDump) (lit "workingTreeStatus") 1 1 =
      .ok (ofChars [o.workingTreeStatus]) :=
    requireBoundedString_ofPython rfl (hcode _ h.workingTreeStatus)
  have hkind : requireString (ofPythonMembers o.modelDump) (lit "kind") =
      .ok (ofChars o.kind.value) := requireString_ofPython rfl
  simp only [decodeGitStatusChange, hkeys, hpath, htruncated, hindex, htree, hkind, Checks.ok_bind,
    kind_mem, not_true_eq_false, if_false]
  rfl

section Answer

variable {o : GitStatusOutput}

/-- Commits are read when they are no more than the phone takes. -/
theorem requireNullableNonNegativeInt_ofPython {members : List (Python.Str × Python.Json)}
    {key : String} {n : Option ℤ} (h : members.lookup key.toList = some (n.elim .null .int))
    (hn : ∀ m ∈ n, 0 ≤ m) (a : Option ℤ) :
    requireNullableNonNegativeInt (ofPythonMembers members) (lit key) = .ok a ↔
      a = n ∧ ∀ m ∈ n, m ≤ maxGitStatusCount := by
  unfold requireNullableNonNegativeInt
  rw [Checks.bind_eq_ok]
  constructor
  · rintro ⟨b, hb, ha⟩
    obtain ⟨rfl, -⟩ := (requireNullableInt_iff h b).1 hb
    cases b with
    | none => exact ⟨(Except.ok.inj ha).symm, by simp⟩
    | some m =>
      obtain ⟨_, hrange, ha⟩ := Checks.bind_eq_ok.1 ha
      refine ⟨(Except.ok.inj ha).symm, fun m' hm' => ?_⟩
      rw [← Option.some.inj hm']
      exact (requireRange_eq_ok.1 hrange).2
  · rintro ⟨rfl, hle⟩
    refine ⟨a, (requireNullableInt_iff h a).2 ⟨rfl, fun m hm => ?_⟩, ?_⟩
    · have hlow := hn m hm
      have hhigh := hle m hm
      rw [maxGitStatusCount] at hhigh
      omega
    · cases a with
      | none => rfl
      | some m =>
        exact Checks.bind_eq_ok.2 ⟨(), requireRange_eq_ok.2 ⟨hn m rfl, hle m rfl⟩, rfl⟩

theorem GitStatusOutput.Sent.decode (h : o.Sent) (hrange : o.CommitsInRange) :
    decodeGitStatus (ofPythonMembers o.modelDump) = .ok o.onPhone := by
  have hcount : ∀ n : ℕ, n ≤ 10000 → (0 : ℤ) ≤ n ∧ (n : ℤ) ≤ maxGitStatusCount := by
    intro n hn
    exact ⟨Int.natCast_nonneg n, Int.ofNat_le.2 hn⟩
  have hkeys : requireKeys (ofPythonMembers o.modelDump)
      ["status", "repoIndex", "repoName", "clean", "stagedCount", "unstagedCount", "untrackedCount",
        "conflictCount", "truncated", "approvedRepos", "changes"]
      ["branch", "headOidShort", "upstream", "ahead", "behind"] = .ok () :=
    requireKeys_ofPython ["status", "repoIndex", "repoName", "branch", "headOidShort", "upstream",
      "ahead", "behind", "clean", "stagedCount", "unstagedCount", "untrackedCount", "conflictCount",
      "truncated", "approvedRepos", "changes"] rfl (by decide) (by decide)
  have hreposArray : requireArray (ofPythonMembers o.modelDump) (lit "approvedRepos") =
      .ok (ofPythonItems (o.approvedRepos.map fun item => .object item.modelDump)) :=
    requireArray_ofPython rfl
  have hrepos : boundedObjects (ofPythonItems (o.approvedRepos.map fun item =>
      .object item.modelDump)) maxGitStatusRepos (lit "approvedRepos") decodeGitStatusApprovedRepo =
      .ok (o.approvedRepos.map (·.onPhone)) :=
    boundedObjects_ofPython h.approvedRepos_length fun r hr =>
      decodeGitStatusApprovedRepo_modelDump (h.approvedRepos r hr)
  have hchangesArray : requireArray (ofPythonMembers o.modelDump) (lit "changes") =
      .ok (ofPythonItems (o.changes.map fun change => .object change.modelDump)) :=
    requireArray_ofPython rfl
  have hchanges : boundedObjects (ofPythonItems (o.changes.map fun change =>
      .object change.modelDump)) maxGitStatusChanges (lit "changes") decodeGitStatusChange =
      .ok (o.changes.map (·.onPhone)) :=
    boundedObjects_ofPython h.changes_length fun c hc =>
      decodeGitStatusChange_modelDump (h.changes c hc)
  have hstatus : requireBoundedString (ofPythonMembers o.modelDump) (lit "status") 1
      maxGitStatusStatusLength = .ok (ofChars o.status) :=
    requireBoundedString_ofPython rfl (by rw [h.status]; decide)
  have hindex : requireBoundedInt (ofPythonMembers o.modelDump) (lit "repoIndex") 0
      maxGitStatusRepoIndex = .ok o.repoIndex := by
    have hle : (o.repoIndex : ℤ) ≤ 7 := by exact_mod_cast Nat.le_of_lt_succ h.repoIndex
    exact requireBoundedInt_ofPython rfl ⟨Int.natCast_nonneg _, hle⟩ (by decide)
  have hname : requireBoundedString (ofPythonMembers o.modelDump) (lit "repoName") 1
      maxGitStatusRepoNameLength = .ok (ofChars o.repoName) :=
    requireBoundedString_ofPython rfl h.repoName.length_ofChars
  have hbranch : requireNullableBoundedString (ofPythonMembers o.modelDump) (lit "branch")
      maxGitStatusBranchLength = .ok (o.branch.map ofChars) :=
    requireNullableBoundedString_ofPython rfl fun s hs => (h.branch s hs).length_ofChars
  have hoid : requireNullableBoundedString (ofPythonMembers o.modelDump) (lit "headOidShort")
      maxGitStatusOidLength = .ok (o.headOidShort.map ofChars) :=
    requireNullableBoundedString_ofPython rfl fun s hs => (h.headOidShort s hs).length_ofChars
  have hupstream : requireNullableBoundedString (ofPythonMembers o.modelDump) (lit "upstream")
      maxGitStatusUpstreamLength = .ok (o.upstream.map ofChars) :=
    requireNullableBoundedString_ofPython rfl fun s hs => (h.upstream s hs).length_ofChars
  have hahead : requireNullableNonNegativeInt (ofPythonMembers o.modelDump) (lit "ahead") =
      .ok o.ahead :=
    (requireNullableNonNegativeInt_ofPython rfl h.ahead _).2 ⟨rfl, hrange.1⟩
  have hbehind : requireNullableNonNegativeInt (ofPythonMembers o.modelDump) (lit "behind") =
      .ok o.behind :=
    (requireNullableNonNegativeInt_ofPython rfl h.behind _).2 ⟨rfl, hrange.2⟩
  have hclean : requireBoolean (ofPythonMembers o.modelDump) (lit "clean") = .ok o.clean :=
    requireBoolean_ofPython rfl
  have hstaged : requireBoundedInt (ofPythonMembers o.modelDump) (lit "stagedCount") 0
      maxGitStatusCount = .ok o.stagedCount :=
    requireBoundedInt_ofPython rfl (hcount _ h.stagedCount) (by decide)
  have hunstaged : requireBoundedInt (ofPythonMembers o.modelDump) (lit "unstagedCount") 0
      maxGitStatusCount = .ok o.unstagedCount :=
    requireBoundedInt_ofPython rfl (hcount _ h.unstagedCount) (by decide)
  have huntracked : requireBoundedInt (ofPythonMembers o.modelDump) (lit "untrackedCount") 0
      maxGitStatusCount = .ok o.untrackedCount :=
    requireBoundedInt_ofPython rfl (hcount _ h.untrackedCount) (by decide)
  have hconflict : requireBoundedInt (ofPythonMembers o.modelDump) (lit "conflictCount") 0
      maxGitStatusCount = .ok o.conflictCount :=
    requireBoundedInt_ofPython rfl (hcount _ h.conflictCount) (by decide)
  have htruncated : requireBoolean (ofPythonMembers o.modelDump) (lit "truncated") =
      .ok o.truncated := requireBoolean_ofPython rfl
  simp only [decodeGitStatus, hkeys, hreposArray, hrepos, hchangesArray, hchanges, hstatus, hindex,
    hname, hbranch, hoid, hupstream, hahead, hbehind, hclean, hstaged, hunstaged, huntracked,
    hconflict, htruncated, Checks.ok_bind]
  rfl

/-- What the phone decodes has its commits in range. -/
theorem GitStatusOutput.Sent.commitsInRange (h : o.Sent) {s : GoffyPhone.GitStatus}
    (hs : decodeGitStatus (ofPythonMembers o.modelDump) = .ok s) : o.CommitsInRange := by
  unfold decodeGitStatus at hs
  -- the fields before the commits
  iterate 11 obtain ⟨_, -, hs⟩ := Checks.bind_eq_ok.1 hs
  obtain ⟨ahead, hahead, hs⟩ := Checks.bind_eq_ok.1 hs
  obtain ⟨behind, hbehind, hs⟩ := Checks.bind_eq_ok.1 hs
  exact ⟨((requireNullableNonNegativeInt_ofPython rfl h.ahead _).1 hahead).2,
    ((requireNullableNonNegativeInt_ofPython rfl h.behind _).1 hbehind).2⟩

/-! ### The contract -/

/-- The chosen repository is an approved one, by its name too. -/
def GitStatusOutput.IsApproved (o : GitStatusOutput) : Prop :=
  ∃ r ∈ o.approvedRepos, r.repoIndex = o.repoIndex ∧ r.name = o.repoName

/-- The counts are those of the changes. -/
def GitStatusOutput.CountsMatch (o : GitStatusOutput) : Prop :=
  let total := o.stagedCount + o.unstagedCount + o.untrackedCount + o.conflictCount
  (o.clean = true → total = 0 ∧ o.changes = [] ∧ o.truncated = false) ∧
    if o.truncated then o.changes.length ≤ total else o.changes.length = total

/-- A relative path that stays inside the repository. -/
def IsInside (path : Python.Str) : Prop :=
  path.head? ≠ some '/' ∧ "..".toList ∉ path.splitOn '/'

theorem isSafeGitStatusPath_iff {path : Python.Str} (h : IsDisplayText maxGitPathChars path) :
    isSafeGitStatusPath (ofChars path) = true ↔ IsInside path := by
  have hlength : (ofChars path).length ≤ maxGitStatusPathLength := h.length_ofChars.2
  have hpart : (∀ part ∈ path.splitOn '/', decide (ofChars part = lit "..") = false) ↔
      "..".toList ∉ path.splitOn '/' := by
    constructor
    · intro hnone hmem
      exact absurd (hnone _ hmem) (by simp [lit])
    · intro hnot part hpart
      rw [decide_eq_false_iff_not]
      intro heq
      rw [ofChars_injective heq] at hpart
      exact hnot hpart
  rw [isSafeGitStatusPath, h.isBlank_eq_false, Bool.and_eq_true, Bool.and_eq_true,
    isSafePath_ofChars, IsInside, hpart]
  constructor
  · rintro ⟨-, hhead, -, hparts⟩
    exact ⟨hhead, hparts⟩
  · rintro ⟨hhead, hparts⟩
    exact ⟨⟨by decide, by simpa using hlength⟩, hhead, h.hidden_eq_false, hparts⟩

theorem change_matchesToolContract_iff {c : GitStatusChangeOutput} (h : c.Sent) :
    c.onPhone.matchesToolContract = true ↔ IsInside c.path := by
  have hcode : ∀ d ∈ sentCodes, ofChars [d] ∈ gitStatusCodeValues := by decide
  have hindex := hcode _ h.indexStatus
  have htree := hcode _ h.workingTreeStatus
  rw [← isSafeGitStatusPath_iff h.path]
  simp [GitStatusChange.matchesToolContract, GitStatusChangeOutput.onPhone, hindex, htree, kind_mem]

theorem repo_matchesToolContract {r : GitStatusApprovedRepoOutput} (h : r.Sent) :
    r.onPhone.matchesToolContract = true := by
  have hindex : (r.repoIndex : ℤ) ≤ 7 := by exact_mod_cast Nat.le_of_lt_succ h.repoIndex
  rw [GitStatusApprovedRepo.matchesToolContract, Bool.and_eq_true]
  exact ⟨inRange_iff.2 ⟨Int.natCast_nonneg _, hindex⟩, h.name.isSafeDisplayField⟩

theorem gitStatusCountsMatchState_iff :
    o.onPhone.gitStatusCountsMatchState = true ↔ o.CountsMatch := by
  have hlength : o.onPhone.changes.length = o.changes.length := List.length_map _
  have hempty : o.onPhone.changes.isEmpty = true ↔ o.changes = [] := by
    rw [List.isEmpty_iff]
    exact List.map_eq_nil_iff
  have htotal : o.onPhone.stagedCount + o.onPhone.unstagedCount + o.onPhone.untrackedCount +
      o.onPhone.conflictCount =
      ((o.stagedCount + o.unstagedCount + o.untrackedCount + o.conflictCount : ℕ) : ℤ) := by
    push_cast
    rfl
  have hclean : o.onPhone.clean = o.clean := rfl
  have htruncated : o.onPhone.truncated = o.truncated := rfl
  unfold GitStatus.gitStatusCountsMatchState GitStatusOutput.CountsMatch
  dsimp only
  rw [htotal, hlength, hclean, htruncated, Bool.and_eq_true]
  refine and_congr ?_ ?_
  · cases o.clean
    · simp
    · simp only [Bool.not_true, Bool.false_or, Bool.and_eq_true, decide_eq_true_eq, hempty,
        Bool.not_eq_true', forall_const, and_assoc, Int.natCast_eq_zero]
  · cases o.truncated
    · simp only [Bool.false_eq_true, if_false, decide_eq_true_eq, Int.natCast_inj]
    · simp only [if_true, decide_eq_true_eq, Int.ofNat_le]

theorem isApproved_iff : o.onPhone.approvedRepos.any (fun repo =>
    repo.repoIndex = o.onPhone.repoIndex && repo.name = o.onPhone.repoName) = true ↔
      o.IsApproved := by
  simp only [GitStatusOutput.onPhone, List.any_map, List.any_eq_true, Function.comp_apply,
    GitStatusApprovedRepoOutput.onPhone, Bool.and_eq_true, decide_eq_true_eq, Int.natCast_inj,
    ofChars_injective.eq_iff, GitStatusOutput.IsApproved]

theorem isNullOrSafeDisplayField_map {s : Option Python.Str} {limit : ℕ}
    (h : ∀ t ∈ s, IsDisplayText limit t) : isNullOrSafeDisplayField (s.map ofChars) limit = true := by
  cases s with
  | none => rfl
  | some t => exact (h t rfl).isSafeDisplayField

theorem all_inRange_iff {n : Option ℤ} (hn : ∀ m ∈ n, 0 ≤ m) :
    n.all (inRange 0 maxGitStatusCount) = true ↔ ∀ m ∈ n, m ≤ maxGitStatusCount := by
  cases n with
  | none => simp
  | some m =>
    have hm := hn m rfl
    simp [inRange_iff, hm]

/-- The contract of an answer, as far as it may fail. -/
theorem GitStatusOutput.Sent.matchesToolContract_iff (h : o.Sent) :
    o.onPhone.matchesToolContract = true ↔
      o.CommitsInRange ∧ o.IsApproved ∧ o.CountsMatch ∧ ∀ c ∈ o.changes, IsInside c.path := by
  have hcount : ∀ n : ℕ, n ≤ 10000 → inRange 0 maxGitStatusCount n = true := fun n hn =>
    inRange_iff.2 ⟨Int.natCast_nonneg n, Int.ofNat_le.2 hn⟩
  have hstatus : isSafeDisplayField (ofChars o.status) maxGitStatusStatusLength = true := by
    rw [h.status]
    decide
  have hindex : inRange 0 maxGitStatusRepoIndex o.repoIndex = true := by
    have hle : (o.repoIndex : ℤ) ≤ 7 := by exact_mod_cast Nat.le_of_lt_succ h.repoIndex
    exact inRange_iff.2 ⟨Int.natCast_nonneg _, hle⟩
  have hrepos : ∀ r ∈ o.onPhone.approvedRepos, r.matchesToolContract = true := by
    intro r hr
    obtain ⟨r', hr', rfl⟩ := List.mem_map.1 hr
    exact repo_matchesToolContract (h.approvedRepos r' hr')
  have hchanges : (∀ c ∈ o.onPhone.changes, c.matchesToolContract = true) ↔
      ∀ c ∈ o.changes, IsInside c.path := by
    rw [GitStatusOutput.onPhone, List.forall_mem_map]
    exact forall₂_congr fun c hc => change_matchesToolContract_iff (h.changes c hc)
  have hreposLength : o.onPhone.approvedRepos.length ≤ maxGitStatusRepos := by
    rw [GitStatusOutput.onPhone, List.length_map]
    exact h.approvedRepos_length
  have hchangesLength : o.onPhone.changes.length ≤ maxGitStatusChanges := by
    rw [GitStatusOutput.onPhone, List.length_map]
    exact h.changes_length
  unfold GitStatus.matchesToolContract
  simp only [Bool.and_eq_true, decide_eq_true_eq, gitStatusCountsMatchState_iff, isApproved_iff,
    List.all_eq_true, hchanges, and_assoc]
  constructor
  · rintro ⟨-, -, -, -, -, -, hahead, hbehind, -, -, -, -, hcounts, -, happroved, -, -, hinside⟩
    exact ⟨⟨(all_inRange_iff h.ahead).1 hahead, (all_inRange_iff h.behind).1 hbehind⟩, happroved,
      hcounts, hinside⟩
  · rintro ⟨⟨hahead, hbehind⟩, happroved, hcounts, hinside⟩
    exact ⟨hstatus, hindex, h.repoName.isSafeDisplayField, isNullOrSafeDisplayField_map h.branch,
      isNullOrSafeDisplayField_map h.headOidShort, isNullOrSafeDisplayField_map h.upstream,
      (all_inRange_iff h.ahead).2 hahead, (all_inRange_iff h.behind).2 hbehind,
      hcount _ h.stagedCount, hcount _ h.unstagedCount, hcount _ h.untrackedCount,
      hcount _ h.conflictCount, hcounts, hreposLength, happroved, hrepos, hchangesLength, hinside⟩

end Answer

/-! ### Approved repositories -/

section Repos

variable {roots : List RepoRoot} {repos : List ApprovedGitRepo} {index : ℕ}

/-- The repositories are numbered in their order, and named after their directories. -/
theorem approvedReposFrom_ok (h : approvedReposFrom index roots = .ok repos) :
    repos.length = roots.length ∧ (∀ i repo, repos[i]? = some repo → repo.index = index + i) ∧
      ∀ repo ∈ repos, ∃ root ∈ roots, repo.name = boundedRequiredText
        (if root.resolved.name = [] then "repo".toList else root.resolved.name) maxRepoNameChars := by
  induction roots generalizing index repos with
  | nil =>
    obtain rfl := Except.ok.inj h
    exact ⟨rfl, fun i repo hi => by simp at hi, fun repo hrepo => by simp at hrepo⟩
  | cons root roots ih =>
    obtain ⟨repo, hrepo, h⟩ := Checks.bind_eq_ok.1 h
    obtain ⟨rest, hrest, h⟩ := Checks.bind_eq_ok.1 h
    obtain rfl := Except.ok.inj h
    obtain ⟨hlength, hindex, hname⟩ := ih hrest
    have hfirst : repo.index = index ∧ repo.name = boundedRequiredText
        (if root.resolved.name = [] then "repo".toList else root.resolved.name)
        maxRepoNameChars := by
      unfold approvedRepo at hrepo
      split at hrepo
      · exact absurd hrepo (by simp)
      split at hrepo
      · exact absurd hrepo (by simp)
      · obtain rfl := Except.ok.inj hrepo
        exact ⟨rfl, rfl⟩
    refine ⟨congrArg (· + 1) hlength, fun i repo' hi => ?_, fun repo' hrepo' => ?_⟩
    · cases i with
      | zero =>
        obtain rfl := Option.some.inj hi
        exact hfirst.1
      | succ i =>
        rw [hindex i repo' hi]
        omega
    · rcases List.mem_cons.1 hrepo' with rfl | hrepo'
      · exact ⟨root, List.mem_cons_self, hfirst.2⟩
      · obtain ⟨root', hroot', heq⟩ := hname repo' hrepo'
        exact ⟨root', List.mem_cons_of_mem _ hroot', heq⟩

/-- What the Hub was built with, for printable names. -/
structure Approved (repos : List ApprovedGitRepo) : Prop where
  length_le : repos.length ≤ maxApprovedRepos
  index : ∀ (i : ℕ) (repo : ApprovedGitRepo), repos[i]? = some repo → repo.index = i
  name : ∀ repo ∈ repos, IsDisplayText maxRepoNameChars repo.name

theorem isDisplayText_unnamed {limit : ℕ} (h : 7 ≤ limit) :
    IsDisplayText limit "unnamed".toList where
  printable := by decide
  ne_nil := by decide
  head c hc := by
    obtain rfl := Option.some.inj hc
    decide
  length_le := h

theorem approved_of_printable (h : approvedRepos roots = .ok repos)
    (hnames : ∀ root ∈ roots, Printable root.resolved.name) : Approved repos := by
  unfold approvedRepos at h
  split at h
  · exact absurd h (by simp)
  case isFalse hroots =>
    obtain ⟨repos', hrepos', h⟩ := Checks.bind_eq_ok.1 h
    split at h
    case isFalse => exact absurd h (by simp [throw, throwThe, MonadExceptOf.throw])
    case isTrue =>
      obtain rfl := Except.ok.inj h
      obtain ⟨hlength, hindex, hname⟩ := approvedReposFrom_ok hrepos'
      refine ⟨?_, fun i repo hi => ?_, fun repo hrepo => ?_⟩
      · rw [hlength]
        exact not_lt.1 fun hlt => hroots (Or.inr hlt)
      · rw [hindex i repo hi, Nat.zero_add]
      · obtain ⟨root, hroot, heq⟩ := hname repo hrepo
        have hprintable : Printable
            (if root.resolved.name = [] then "repo".toList else root.resolved.name) := by
          split
          · decide
          · exact hnames root hroot
        rw [heq]
        exact isDisplayText_boundedText (isDisplayText_unnamed (by decide)) hprintable

theorem Approved.index_lt (h : Approved repos) {repo : ApprovedGitRepo} (hrepo : repo ∈ repos) :
    repo.index < maxApprovedRepos := by
  obtain ⟨i, hi, rfl⟩ := List.mem_iff_getElem.1 hrepo
  rw [h.index i _ (List.getElem?_eq_getElem hi)]
  exact hi.trans_le h.length_le

/-- No two repositories have one number. -/
theorem Approved.eq_of_index (h : Approved repos) {a b : ApprovedGitRepo} (ha : a ∈ repos)
    (hb : b ∈ repos) (heq : a.index = b.index) : a = b := by
  obtain ⟨i, hi, rfl⟩ := List.mem_iff_getElem.1 ha
  obtain ⟨j, hj, rfl⟩ := List.mem_iff_getElem.1 hb
  rw [h.index i _ (List.getElem?_eq_getElem hi), h.index j _ (List.getElem?_eq_getElem hj)] at heq
  subst heq
  rfl

end Repos

/-! ### Answers -/

/-- The change is counted once: in the index or in the working tree, or as untracked. -/
def GitChange.CountedOnce (c : GitChange) : Prop :=
  c.kind = .untracked ∨ c.kind = .tracked ∧ (c.indexStatus = '.' ∨ c.workingTreeStatus = '.')

/-- In how many of the counts a change is. -/
def GitChange.counted (c : GitChange) : ℕ :=
  c.isStaged.toNat + c.isUnstaged.toNat + (decide (c.kind = .untracked)).toNat +
    (decide (c.kind = .conflict)).toNat

section Counts

variable {c : GitChange} {changes : List GitChange}

theorem counted_pos (h : c.HasCodes) : 1 ≤ c.counted ∧ (c.counted = 1 ↔ c.CountedOnce) := by
  obtain ⟨path, x, y, kind⟩ := c
  cases kind with
  | tracked =>
    obtain ⟨-, -, hchanged⟩ := h
    by_cases hx : x = '.' <;> by_cases hy : y = '.' <;>
      simp_all [GitChange.counted, GitChange.isStaged, GitChange.isUnstaged, GitChange.CountedOnce]
  | untracked =>
    simp [GitChange.counted, GitChange.isStaged, GitChange.isUnstaged, GitChange.CountedOnce]
  | conflict =>
    have hcode : ∀ d ∈ unmergedCodes, d ≠ '.' := by decide
    simp [GitChange.counted, GitChange.isStaged, GitChange.isUnstaged, GitChange.CountedOnce,
      hcode x h.1, hcode y h.2]

/-- The sum of the counts. -/
theorem total_eq_sum (changes : List GitChange) :
    changes.countP (·.isStaged) + changes.countP (·.isUnstaged) +
      changes.countP (·.kind = .untracked) + changes.countP (·.kind = .conflict) =
      (changes.map (·.counted)).sum := by
  induction changes with
  | nil => rfl
  | cons c changes ih =>
    rw [List.map_cons, List.sum_cons, ← ih]
    simp only [List.countP_cons, GitChange.counted, Bool.toNat, Bool.cond_eq_ite]
    omega

theorem length_le_total (h : ∀ c ∈ changes, c.HasCodes) :
    changes.length ≤ (changes.map (·.counted)).sum ∧
      (changes.length = (changes.map (·.counted)).sum ↔ ∀ c ∈ changes, c.CountedOnce) := by
  induction changes with
  | nil => simp
  | cons c changes ih =>
    obtain ⟨hle, hiff⟩ := ih fun d hd => h d (List.mem_cons_of_mem _ hd)
    obtain ⟨hpos, hone⟩ := counted_pos (h c List.mem_cons_self)
    rw [List.map_cons, List.sum_cons, List.length_cons, List.forall_mem_cons, ← hone, ← hiff]
    omega

end Counts

section Answers

variable {repo : ApprovedGitRepo} {repos : List ApprovedGitRepo} {r : StatusReport} {k : ℕ}

theorem length_le_utf8 (s : Python.Str) : s.length ≤ (Python.utf8 s).length := by
  induction s with
  | nil => rfl
  | cons c s ih =>
    have hpos := c.utf8Size_pos
    rw [Python.utf8, List.flatMap_cons, List.length_append, String.length_utf8EncodeChar,
      List.length_cons]
    unfold Python.utf8 at ih
    omega

/-- A code of a change is one that is sent. -/
theorem sentCodes_of_hasCodes {c : GitChange} (h : c.HasCodes) :
    c.indexStatus ∈ sentCodes ∧ c.workingTreeStatus ∈ sentCodes := by
  have hchanged : ∀ d ∈ changedCodes, d ∈ sentCodes := by decide
  have hunmerged : ∀ d ∈ unmergedCodes, d ∈ sentCodes := by decide
  obtain ⟨path, x, y, kind⟩ := c
  cases kind with
  | tracked => exact ⟨hchanged _ h.1, hchanged _ h.2.1⟩
  | untracked =>
    have huntracked : '?' ∈ sentCodes := by decide
    obtain ⟨rfl, rfl⟩ := h
    exact ⟨huntracked, huntracked⟩
  | conflict => exact ⟨hunmerged _ h.1, hunmerged _ h.2⟩

/-- **Answers.** What the Hub says about printable names is as it should be sent. -/
theorem sent_answer (hrepos : Approved repos) (hrepo : repo ∈ repos)
    (hbytes : (Python.utf8 r.text).length ≤ 16384) (hk : k ≤ maxStatusChanges) :
    (answer repo repos r.status k).Sent := by
  have hchanges : r.status.changes.length ≤ 10000 := by
    have hlines := r.length_changes_le
    have htext := length_le_utf8 r.text
    omega
  have hcount : ∀ p : GitChange → Bool, r.status.changes.countP p ≤ 10000 := fun p =>
    List.countP_le_length.trans hchanges
  have hbounded : ∀ (s : Python.Str) (limit : ℕ), 7 ≤ limit → Printable s →
      IsDisplayText limit (boundedRequiredText s limit) := fun s limit hlimit hs =>
    isDisplayText_boundedText (isDisplayText_unnamed hlimit) hs
  constructor
  case status => rfl
  case repoIndex => exact hrepos.index_lt hrepo
  case repoName => exact hbounded _ _ (by decide) (hrepos.name repo hrepo).printable
  case branch =>
    rintro _ ho
    obtain ⟨s, hs, rfl⟩ := Option.map_eq_some_iff.1 ho
    exact hbounded _ _ (by decide) (r.printable_status.branch s hs)
  case headOidShort =>
    rintro _ ho
    obtain ⟨s, hs, rfl⟩ := Option.map_eq_some_iff.1 ho
    exact hbounded _ _ (by decide) (r.printable_status.headOidShort s hs)
  case upstream =>
    rintro _ ho
    obtain ⟨s, hs, rfl⟩ := Option.map_eq_some_iff.1 ho
    exact hbounded _ _ (by decide) (r.printable_status.upstream s hs)
  case ahead => exact r.printable_status.ahead
  case behind => exact r.printable_status.behind
  case stagedCount => exact hcount _
  case unstagedCount => exact hcount _
  case untrackedCount => exact hcount _
  case conflictCount => exact hcount _
  case approvedRepos_length => exact (List.length_map _).trans_le hrepos.length_le
  case approvedRepos =>
    rintro _ ho
    obtain ⟨item, hitem, rfl⟩ := List.mem_map.1 ho
    exact ⟨hrepos.index_lt hitem, hrepos.name item hitem⟩
  case changes_length =>
    have hlength : (answer repo repos r.status k).changes.length =
        (r.status.changes.take k).length := List.length_map _
    rw [hlength]
    exact (List.length_take_le k _).trans hk
  case changes =>
    rintro _ ho
    obtain ⟨c, hc, rfl⟩ := List.mem_map.1 ho
    obtain ⟨hcodes, hpath⟩ := r.hasCodes (List.mem_of_mem_take hc)
    obtain ⟨hindex, htree⟩ := sentCodes_of_hasCodes hcodes
    exact ⟨hbounded _ _ (by decide) hpath, hindex, htree⟩

/-- The name sent with the list of repositories is the one sent with the answer, unless it was cut at a
space. -/
theorem isApproved_answer (hrepos : Approved repos) (hrepo : repo ∈ repos) :
    (answer repo repos r.status k).IsApproved ↔ repo.name.getLast? ≠ some ' ' := by
  have hself : boundedRequiredText repo.name maxRepoNameChars = repo.name ↔
      repo.name.getLast? ≠ some ' ' :=
    boundedText_eq_self_iff (fun c hc => isControl_of_isPrintable hc) (hrepos.name repo hrepo)
  rw [← hself]
  constructor
  · rintro ⟨o, ho, hindex, hname⟩
    obtain ⟨item, hitem, rfl⟩ := List.mem_map.1 ho
    have heq : item = repo := hrepos.eq_of_index hitem hrepo hindex
    rw [heq] at hname
    exact hname.symm
  · intro hname
    exact ⟨⟨repo.index, repo.name⟩, List.mem_map.2 ⟨repo, hrepo, rfl⟩, rfl, hname.symm⟩

/-- The phone's sum is the number of changes that it is shown, or some of them are not shown. -/
theorem countsMatch_answer (hk : k ≤ r.status.changes.length) :
    (answer repo repos r.status k).CountsMatch ↔
      (r.status.changes.length ≤ k → ∀ c ∈ r.status.changes, c.CountedOnce) := by
  have hcodes : ∀ c ∈ r.status.changes, c.HasCodes := fun c hc => (r.hasCodes hc).1
  obtain ⟨hle, honce⟩ := length_le_total hcodes
  have htotal : (answer repo repos r.status k).stagedCount +
      (answer repo repos r.status k).unstagedCount +
      (answer repo repos r.status k).untrackedCount +
      (answer repo repos r.status k).conflictCount = (r.status.changes.map (·.counted)).sum :=
    total_eq_sum r.status.changes
  have hlength : (answer repo repos r.status k).changes.length = k := length_changes_answer hk
  have htruncated : (answer repo repos r.status k).truncated =
      decide (k < r.status.changes.length) := by
    show decide ((r.status.changes.take k).length < _) = _
    rw [List.length_take, min_eq_left hk]
  have hclean : (answer repo repos r.status k).clean = decide (r.status.changes = []) := rfl
  unfold GitStatusOutput.CountsMatch
  dsimp only
  rw [htotal, hlength, htruncated, hclean]
  have hempty : decide (r.status.changes = []) = true →
      (r.status.changes.map (·.counted)).sum = 0 ∧ (answer repo repos r.status k).changes = [] ∧
        decide (k < r.status.changes.length) = false := by
    intro h
    have hnil := of_decide_eq_true h
    rw [hnil, List.length_nil] at hk
    rw [← List.length_eq_zero_iff, hlength, hnil]
    exact ⟨rfl, by omega, by simp⟩
  rw [and_iff_right hempty, ← honce]
  by_cases hlt : k < r.status.changes.length
  · rw [decide_eq_true hlt, if_pos rfl]
    constructor
    · intro _ hle
      omega
    · intro _
      omega
  · rw [decide_eq_false hlt, if_neg Bool.false_ne_true]
    constructor
    · intro h _
      omega
    · intro h
      rw [← h (by omega)]
      omega

/-- The phone decodes the answer, and it matches the tool's contract. -/
def AcceptedByPhone (output : List (Python.Str × Python.Json)) : Prop :=
  ∃ status, decodeGitStatus (ofPythonMembers output) = .ok status ∧
    status.matchesToolContract = true

theorem acceptedByPhone_iff {o : GitStatusOutput} (h : o.Sent) : AcceptedByPhone o.modelDump ↔
    o.CommitsInRange ∧ o.IsApproved ∧ o.CountsMatch ∧ ∀ c ∈ o.changes, IsInside c.path := by
  rw [← h.matchesToolContract_iff]
  constructor
  · rintro ⟨status, hdecode, hmatches⟩
    rw [h.decode (h.commitsInRange hdecode)] at hdecode
    rw [Except.ok.inj hdecode]
    exact hmatches
  · intro hmatches
    exact ⟨o.onPhone, h.decode (h.matchesToolContract_iff.1 hmatches).1, hmatches⟩

/-- What the phone requires of a report and of the name of its repository. The paths are those that are
shown, shortened. -/
structure Acceptable (repo : ApprovedGitRepo) (repos : List ApprovedGitRepo) (status : GitStatus)
    (maxChanges : ℕ) : Prop where
  ahead : ∀ n ∈ status.ahead, n ≤ maxGitStatusCount
  behind : ∀ n ∈ status.behind, n ≤ maxGitStatusCount
  name : repo.name.getLast? ≠ some ' '
  inside : ∀ k, Fits repo repos status maxChanges k → ∀ c ∈ status.changes.take k,
    IsInside (boundedRequiredText c.path maxGitPathChars)
  countedOnce : Fits repo repos status maxChanges status.changes.length →
    ∀ c ∈ status.changes, c.CountedOnce

/-- Answers with the first `k` changes. -/
theorem acceptedByPhone_answer (hrepos : Approved repos) (hrepo : repo ∈ repos)
    (hbytes : (Python.utf8 r.text).length ≤ 16384) (hmax : k ≤ maxStatusChanges)
    (hk : k ≤ r.status.changes.length) :
    AcceptedByPhone (answer repo repos r.status k).modelDump ↔
      (answer repo repos r.status k).CommitsInRange ∧ repo.name.getLast? ≠ some ' ' ∧
        (r.status.changes.length ≤ k → ∀ c ∈ r.status.changes, c.CountedOnce) ∧
        ∀ c ∈ r.status.changes.take k, IsInside (boundedRequiredText c.path maxGitPathChars) := by
  rw [acceptedByPhone_iff (sent_answer hrepos hrepo hbytes hmax), isApproved_answer hrepos hrepo,
    countsMatch_answer hk]
  exact and_congr_right' (and_congr_right' (and_congr_right' List.forall_mem_map))

theorem mem_of_repoForIndex {repoIndex : ℕ} (h : repoForIndex repoIndex repos = .ok repo) :
    repo ∈ repos := by
  unfold repoForIndex at h
  split at h
  case h_1 repo' hfind =>
    obtain rfl := Except.ok.inj h
    exact List.mem_of_find?_eq_some hfind
  case h_2 => exact absurd h (by simp)

/-- **Answers about printable names.** The phone takes an answer of the Hub when the report and the name
of the repository are acceptable. -/
theorem acceptedByPhone_report {roots : List RepoRoot} {request : GitStatusInput} {git : Git}
    {output : List (Python.Str × Python.Json)}
    (hnames : ∀ root ∈ roots, Printable root.resolved.name) (hrepos : approvedRepos roots = .ok repos)
    (hrepo : repoForIndex request.repoIndex repos = .ok repo)
    (hgit : git (gitArguments request.includeUntracked) repo.path = .ok ⟨0, r.text⟩)
    (houtput : readGitStatus request repos git = .ok output) :
    AcceptedByPhone output ↔ Acceptable repo repos r.status request.maxChanges := by
  obtain ⟨repo', raw, k, hrepo', hraw, -, rfl, hfits, hmax⟩ := readGitStatus_ok houtput
  obtain rfl : repo = repo' := Except.ok.inj (hrepo.symm.trans hrepo')
  obtain ⟨rfl, hbytes⟩ : raw = r.text ∧ (Python.utf8 raw).length ≤ 16384 := by
    unfold runGitStatus at hraw
    rw [hgit, Checks.ok_bind] at hraw
    obtain ⟨-, hraw⟩ := Checks.throw_bind_eq_ok.1 hraw
    obtain ⟨hbytes, hraw⟩ := Checks.throw_bind_eq_ok.1 hraw
    obtain rfl := Except.ok.inj hraw
    exact ⟨rfl, not_lt.1 hbytes⟩
  rw [parsePorcelainV2_text] at hfits hmax ⊢
  rw [acceptedByPhone_answer (approved_of_printable hrepos hnames) (mem_of_repoForIndex hrepo) hbytes
    (hfits.le_max.trans request.maxChanges_le) hfits.le_length]
  constructor
  · rintro ⟨⟨hahead, hbehind⟩, hname, hcounts, hinside⟩
    refine ⟨hahead, hbehind, hname, fun j hj c hc => ?_, fun hall => hcounts (hmax _ hall)⟩
    exact hinside c (List.take_subset_take_left r.status.changes (hmax j hj) hc)
  · rintro ⟨hahead, hbehind, hname, hinside, hcounts⟩
    refine ⟨⟨hahead, hbehind⟩, hname, fun hle => hcounts ?_, hinside k hfits⟩
    rw [le_antisymm hle hfits.le_length]
    exact hfits

end Answers

/-- The phone takes the answer that shows the first of three changes. -/
theorem edited_report_is_accepted : AcceptedByPhone editedAnswer.modelDump := by
  have hroots : ∀ root ∈ [demoRoot], Printable root.resolved.name := by decide
  have hrepos : approvedRepos [demoRoot] = .ok [demoRepo] := rfl
  have hrepo : repoForIndex firstRequest.repoIndex [demoRepo] = .ok demoRepo := rfl
  have hgit : demoGit editedReport (gitArguments true) demoRepo.path = .ok ⟨0, editedReport.text⟩ := rfl
  have hinside : ∀ c ∈ editedReport.status.changes,
      (boundedRequiredText c.path maxGitPathChars).head? ≠ some '/' ∧
        "..".toList ∉ (boundedRequiredText c.path maxGitPathChars).splitOn '/' := by decide +kernel
  refine (acceptedByPhone_report hroots hrepos hrepo hgit edited_output).2 ?_
  exact {
    ahead := by decide
    behind := by decide
    name := by decide
    inside := fun k _ c hc => hinside c (List.mem_of_mem_take hc)
    -- three changes are more than were asked for
    countedOnce := fun hfits => absurd hfits.le_max (by decide) }

/-! ### A file that was changed again after it was staged -/

/-- Staged, and then changed again. -/
def mmEntry : ChangedEntry where
  x := 'M'
  y := 'M'
  fields := [unchangedModule, regularFile, regularFile, regularFile, objectName,
    demoWord "789abcd" (by decide)]
  path := editedEntry.path
  x_mem := editedEntry.y_mem
  y_mem := editedEntry.y_mem
  changed := by decide
  length_fields := rfl

/-- **A file in both counts.** The Hub counts it among the staged files and among the unstaged ones, and
the phone refuses the answer. -/
theorem partly_staged_file_is_rejected :
    readGitStatus demoRequest [demoRepo] (demoGit (demoReport [.changed mmEntry])) =
      .ok (demoAnswer [.changed mmEntry]).modelDump ∧
    ¬ AcceptedByPhone (demoAnswer [.changed mmEntry]).modelDump := by
  have hbytes : outputBytes (demoAnswer [.changed mmEntry]) = 420 := by decide +kernel
  have htext : (Python.utf8 (demoReport [.changed mmEntry]).text).length ≤ 16384 := by
    have heq : (Python.utf8 (demoReport [.changed mmEntry]).text).length = 130 := by
      decide +kernel
    rw [heq]
    decide
  refine ⟨readGitStatus_demo rfl htext (by decide) ⟨by decide, le_rfl, by rw [← demoAnswer, hbytes]; decide⟩
    (by decide), ?_⟩
  have hrepos : approvedRepos [demoRoot] = .ok [demoRepo] := rfl
  have happroved : Approved [demoRepo] := approved_of_printable hrepos (by decide)
  intro haccepted
  obtain ⟨-, -, honce, -⟩ := (acceptedByPhone_answer happroved List.mem_cons_self htext (by decide)
    le_rfl).1 haccepted
  have hmem : (⟨"README.md".toList, 'M', 'M', .tracked⟩ : GitChange) ∈
      (demoReport [.changed mmEntry]).status.changes := by decide
  rcases honce le_rfl _ hmem with h | ⟨-, h | h⟩
  · exact absurd h (by decide)
  · exact absurd h (by decide)
  · exact absurd h (by decide)

end GoffyHub.GitTool
