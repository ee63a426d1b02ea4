import GoffyOs.Lib.Checks
import GoffyOs.Lib.Trimming
import GoffyOs.Python.JsonSize
import GoffyOs.Python.Re
import GoffyOs.Python.Words
import Mathlib.Algebra.Order.BigOperators.Group.List

/-!
# The tools `mac.apps.list` and `mac.apps.open`

The Hub is set up with a list of applications, each by the name that it is shown under and by its bundle
identifier. `mac.apps.list` answers with the first ones, and `mac.apps.open` looks an application up by
its name. Names are compared by `str.casefold`, which is a parameter.

* `Listed` is what the set-up has checked of an application;
* `outputBytes` is the size of an answer, by the lengths of its texts.
-/

namespace GoffyHub.MacApps

open Python

def maxApprovedMacApps : ℕ := 25
def maxAppDisplayNameChars : ℕ := 80
def maxAppBundleIdChars : ℕ := 160
/-- of the registry -/
def maxToolOutputBytes : ℕ := 8192

inductive MacAppsError
  | valueError (message : String)
  | validationError
  deriving DecidableEq

structure ApprovedMacApp where
  index : ℕ
  displayName : Str
  bundleId : Str
  deriving DecidableEq

structure MacAppsListInput where
  maxEntries : ℕ
  maxEntries_pos : 1 ≤ maxEntries
  maxEntries_le : maxEntries ≤ maxApprovedMacApps

structure MacAppCatalogEntryOutput where
  appIndex : ℕ
  displayName : Str
  bundleId : Str

structure MacAppsListOutput where
  status : Str
  appCount : ℕ
  truncated : Bool
  entries : List MacAppCatalogEntryOutput

/-- The constructor of `MacAppCatalogEntryOutput`. -/
def MacAppCatalogEntryOutput.create (o : MacAppCatalogEntryOutput) :
    Except MacAppsError MacAppCatalogEntryOutput :=
  if o.appIndex < maxApprovedMacApps ∧
      (1 ≤ o.displayName.length ∧ o.displayName.length ≤ maxAppDisplayNameChars) ∧
      1 ≤ o.bundleId.length ∧ o.bundleId.length ≤ maxAppBundleIdChars then .ok o
  else .error .validationError

/-- The constructor of `MacAppsListOutput`. -/
def MacAppsListOutput.create (o : MacAppsListOutput) : Except MacAppsError MacAppsListOutput :=
  if o.appCount ≤ maxApprovedMacApps ∧ o.entries.length ≤ maxApprovedMacApps then .ok o
  else .error .validationError

def MacAppCatalogEntryOutput.modelDump (o : MacAppCatalogEntryOutput) : List (Str × Json) :=
  [("appIndex".toList, .int o.appIndex), ("displayName".toList, .str o.displayName),
    ("bundleId".toList, .str o.bundleId)]

/-- `model_dump(mode="json", by_alias=True)`. -/
def MacAppsListOutput.modelDump (o : MacAppsListOutput) : List (Str × Json) :=
  [("status".toList, .str o.status), ("appCount".toList, .int o.appCount),
    ("truncated".toList, .bool o.truncated),
    ("entries".toList, .array (o.entries.map fun entry => .object entry.modelDump))]

/-! ### Names and identifiers -/

/-- `_is_unsafe_display_character`. -/
def isUnsafeDisplayCharacter (c : Char) : Bool :=
  c.toNat < 0x20 || c.toNat = 0x7f || (0x202a ≤ c.toNat && c.toNat ≤ 0x202e) ||
    (0x2066 ≤ c.toNat && c.toNat ≤ 0x2069)

/-- `_validate_display_name`. -/
def validateDisplayName (value : Str) : Except MacAppsError Unit := do
  if value = [] ∨ maxAppDisplayNameChars < value.length then
    throw (.valueError "GOFFY_MAC_APP_ALLOWLIST display names must be bounded")
  if '/' ∈ value ∨ '\\' ∈ value then
    throw (.valueError "GOFFY_MAC_APP_ALLOWLIST display names must not contain paths")
  if value.any isUnsafeDisplayCharacter then
    throw (.valueError "GOFFY_MAC_APP_ALLOWLIST display names contain unsupported characters")
  return ()

def alphanumerics : Regex.CharSet := .ranges [('A', 'Z'), ('a', 'z'), ('0', '9')]

/-- `[A-Za-z0-9.-]`. -/
def bundleIdSet : Regex.CharSet := .ranges [('A', 'Z'), ('a', 'z'), ('0', '9'), ('.', '.'), ('-', '-')]

/-- `_BUNDLE_ID`. -/
def bundleIdPattern : Regex.Pattern :=
  .inTurn [.start, .one alphanumerics, .atMost (.one bundleIdSet) 158, .one alphanumerics, .finish]

/-- `_validate_bundle_id`. -/
def validateBundleId (value : Str) : Except MacAppsError Unit := do
  if value = [] ∨ maxAppBundleIdChars < value.length ∨ '.' ∉ value ∨ contains value "..".toList = true ∨
      ¬ Regex.isMatch (re false) bundleIdPattern value = true then
    throw (.valueError "GOFFY_MAC_APP_ALLOWLIST bundle identifiers must be reverse-DNS values")
  return ()

/-- `MacAppsOpenInput`, by its field. -/
def openInput (displayName : Str) : Except MacAppsError Str := do
  if displayName = [] ∨ maxAppDisplayNameChars < displayName.length then throw .validationError
  validateDisplayName (strip displayName)
  return strip displayName

/-! ### The applications -/

/-- One entry of the list, before it is compared with the others. -/
def approvedApp (index : ℕ) (entry : Str) : Except MacAppsError ApprovedMacApp := do
  let (displayName, separator, bundleId) := partition entry '='
  if separator ≠ ['='] then
    throw (.valueError "GOFFY_MAC_APP_ALLOWLIST entries must use Display Name=bundle.id")
  validateDisplayName (strip displayName)
  validateBundleId (strip bundleId)
  return { index, displayName := strip displayName, bundleId := strip bundleId }

section

variable (casefold : Str → Str)

/-- The loop of `_approved_apps`, with the keys that it has seen. -/
def approvedAppsFrom : ℕ → List Str → List Str → List Str → Except MacAppsError (List ApprovedMacApp)
  | _, _, _, [] => .ok []
  | index, displayNames, bundleIds, entry :: entries => do
    let app ← approvedApp index entry
    if casefold app.displayName ∈ displayNames ∨ casefold app.bundleId ∈ bundleIds then
      throw (.valueError "GOFFY_MAC_APP_ALLOWLIST entries must be unique")
    let apps ← approvedAppsFrom (index + 1) (casefold app.displayName :: displayNames)
      (casefold app.bundleId :: bundleIds) entries
    return app :: apps

/-- `_approved_apps`. -/
def approvedApps (entries : List Str) : Except MacAppsError (List ApprovedMacApp) := do
  if ¬ (1 ≤ entries.length ∧ entries.length ≤ maxApprovedMacApps) then
    throw (.valueError "mac.apps.list requires 1..25 approved apps")
  approvedAppsFrom casefold 0 [] [] entries

/-- `_find_approved_app`. -/
def findApprovedApp (displayName : Str) (apps : List ApprovedMacApp) : Option ApprovedMacApp :=
  apps.find? fun app => casefold app.displayName = casefold displayName

end

/-- `list_mac_apps`; the system is macOS (`isMacAppsSupported`) or not. -/
def listMacApps (isMacAppsSupported : Bool) (request : MacAppsListInput) (apps : List ApprovedMacApp) :
    Except MacAppsError MacAppsListOutput := do
  if isMacAppsSupported = false then throw (.valueError "mac.apps.list requires macOS")
  let selected := apps.take request.maxEntries
  let entries ← selected.mapM fun app =>
    MacAppCatalogEntryOutput.create ⟨app.index, app.displayName, app.bundleId⟩
  MacAppsListOutput.create
    { status := "available".toList, appCount := apps.length,
      truncated := selected.length < apps.length, entries }

/-! ### What the set-up checks -/

section Setup

variable {casefold : Str → Str} {s : Str} {app : ApprovedMacApp} {apps : List ApprovedMacApp}

/-- A name that has been stripped and validated. -/
structure IsAppName (s : Str) : Prop where
  ne_nil : s ≠ []
  length_le : s.length ≤ maxAppDisplayNameChars
  no_slash : '/' ∉ s
  no_backslash : '\\' ∉ s
  safe : ∀ c ∈ s, isUnsafeDisplayCharacter c = false
  strip_eq : strip s = s

structure IsBundleId (s : Str) : Prop where
  ne_nil : s ≠ []
  length_le : s.length ≤ maxAppBundleIdChars
  dot : '.' ∈ s
  no_dots : contains s "..".toList = false
  isMatch : Regex.isMatch (re false) bundleIdPattern s = true

theorem strip_strip (s : Str) : strip (strip s) = strip s :=
  Trimming.trimmed_of_ends (fun _ => Trimming.head?_trimmed) fun _ => Trimming.getLast?_trimmed

theorem validateDisplayName_eq_ok : validateDisplayName s = .ok () ↔
    (s ≠ [] ∧ s.length ≤ maxAppDisplayNameChars) ∧ ('/' ∉ s ∧ '\\' ∉ s) ∧
      ∀ c ∈ s, isUnsafeDisplayCharacter c = false := by
  rw [validateDisplayName, Checks.throw_bind_eq_ok, Checks.throw_bind_eq_ok, Checks.throw_bind_eq_ok]
  simp only [not_or, not_lt, List.any_eq_true, not_exists, not_and, Bool.not_eq_true, ne_eq,
    pure, Except.pure, and_true]

theorem isAppName_strip (h : validateDisplayName (strip s) = .ok ()) : IsAppName (strip s) := by
  obtain ⟨⟨hne, hlength⟩, ⟨hslash, hbackslash⟩, hsafe⟩ := validateDisplayName_eq_ok.1 h
  exact ⟨hne, hlength, hslash, hbackslash, hsafe, strip_strip s⟩

theorem isBundleId_of_validate (h : validateBundleId s = .ok ()) : IsBundleId s := by
  rw [validateBundleId, Checks.throw_bind_eq_ok] at h
  simp only [not_or, not_lt, not_not, Bool.not_eq_true, Bool.not_eq_false] at h
  obtain ⟨⟨hne, hlength, hdot, hdots, hmatch⟩, -⟩ := h
  exact ⟨hne, hlength, hdot, hdots, hmatch⟩

/-- A listed name is an argument of `mac.apps.open`. -/
theorem IsAppName.openInput_eq (h : IsAppName s) : openInput s = .ok s := by
  have hvalid : validateDisplayName s = .ok () :=
    validateDisplayName_eq_ok.2 ⟨⟨h.ne_nil, h.length_le⟩, ⟨h.no_slash, h.no_backslash⟩, h.safe⟩
  rw [openInput, Checks.throw_bind_eq_ok, h.strip_eq, hvalid]
  refine ⟨?_, rfl⟩
  rw [not_or, not_lt]
  exact ⟨h.ne_nil, h.length_le⟩

/-- What is known of an entry of the list. -/
structure ApprovedMacApp.Valid (app : ApprovedMacApp) : Prop where
  name : IsAppName app.displayName
  bundleId : IsBundleId app.bundleId

theorem valid_of_approvedApp {index : ℕ} {entry : Str} (h : approvedApp index entry = .ok app) :
    app.index = index ∧ app.Valid := by
  rw [approvedApp, Checks.throw_bind_eq_ok] at h
  obtain ⟨-, h⟩ := h
  obtain ⟨_, hname, h⟩ := Checks.bind_eq_ok.1 h
  obtain ⟨_, hbundleId, h⟩ := Checks.bind_eq_ok.1 h
  obtain rfl := Except.ok.inj h
  exact ⟨rfl, isAppName_strip hname, isBundleId_of_validate hbundleId⟩

/-- Two applications are told apart by both of their keys. -/
def Distinct (casefold : Str → Str) (a b : ApprovedMacApp) : Prop :=
  casefold a.displayName ≠ casefold b.displayName ∧ casefold a.bundleId ≠ casefold b.bundleId

/-- What the set-up has checked of the list. -/
structure Listed (casefold : Str → Str) (apps : List ApprovedMacApp) : Prop where
  length_le : apps.length ≤ maxApprovedMacApps
  index : apps.map (·.index) = List.range apps.length
  valid : ∀ app ∈ apps, app.Valid
  distinct : apps.Pairwise (Distinct casefold)

theorem approvedAppsFrom_ok {index : ℕ} {displayNames bundleIds entries : List Str}
    (h : approvedAppsFrom casefold index displayNames bundleIds entries = .ok apps) :
    apps.length = entries.length ∧ apps.map (·.index) = List.range' index apps.length ∧
      (∀ app ∈ apps, app.Valid ∧ casefold app.displayName ∉ displayNames ∧
        casefold app.bundleId ∉ bundleIds) ∧ apps.Pairwise (Distinct casefold) := by
  induction entries generalizing index displayNames bundleIds apps with
  | nil =>
    obtain rfl := Except.ok.inj h
    exact ⟨rfl, rfl, fun app happ => absurd happ List.not_mem_nil, List.Pairwise.nil⟩
  | cons entry entries ih =>
    rw [approvedAppsFrom] at h
    obtain ⟨app, happ, h⟩ := Checks.bind_eq_ok.1 h
    rw [Checks.throw_bind_eq_ok, not_or] at h
    obtain ⟨⟨hname, hbundleId⟩, h⟩ := h
    obtain ⟨rest, hrest, h⟩ := Checks.bind_eq_ok.1 h
    obtain rfl := Except.ok.inj h
    obtain ⟨hindex, hvalid⟩ := valid_of_approvedApp happ
    obtain ⟨hlength, hindices, hkeys, hdistinct⟩ := ih hrest
    refine ⟨congrArg (· + 1) hlength, ?_, List.forall_mem_cons.2 ⟨⟨hvalid, hname, hbundleId⟩, ?_⟩,
      List.pairwise_cons.2 ⟨?_, hdistinct⟩⟩
    · rw [List.map_cons, hindex, hindices, List.length_cons, List.range'_succ]
    · -- the keys that the rest has not are these and one more
      intro other hother
      obtain ⟨hotherValid, hotherName, hotherId⟩ := hkeys other hother
      exact ⟨hotherValid, fun hmem => hotherName (List.mem_cons_of_mem _ hmem),
        fun hmem => hotherId (List.mem_cons_of_mem _ hmem)⟩
    · intro other hother
      obtain ⟨-, hotherName, hotherId⟩ := hkeys other hother
      exact ⟨fun heq => hotherName (heq ▸ List.mem_cons_self),
        fun heq => hotherId (heq ▸ List.mem_cons_self)⟩

theorem listed_of_approvedApps {entries : List Str} (h : approvedApps casefold entries = .ok apps) :
    Listed casefold apps := by
  rw [approvedApps, Checks.throw_bind_eq_ok, not_not] at h
  obtain ⟨⟨-, hle⟩, h⟩ := h
  obtain ⟨hlength, hindices, hkeys, hdistinct⟩ := approvedAppsFrom_ok h
  refine ⟨hlength ▸ hle, ?_, fun app happ => (hkeys app happ).1, hdistinct⟩
  rw [hindices, List.range_eq_range']

theorem Listed.index_lt (h : Listed casefold apps) (happ : app ∈ apps) :
    app.index < maxApprovedMacApps := by
  have hmem : app.index ∈ List.range apps.length := h.index ▸ List.mem_map_of_mem happ
  exact (List.mem_range.1 hmem).trans_le h.length_le

/-- An application is found by its name. -/
theorem Listed.findApprovedApp_eq (h : Listed casefold apps) (happ : app ∈ apps) :
    findApprovedApp casefold app.displayName apps = some app := by
  have hdistinct := h.distinct
  clear h
  induction apps with
  | nil => exact absurd happ List.not_mem_nil
  | cons first apps ih =>
    obtain ⟨hfirst, hrest⟩ := List.pairwise_cons.1 hdistinct
    rw [findApprovedApp]
    rcases List.mem_cons.1 happ with rfl | happ
    · exact List.find?_cons_of_pos (decide_eq_true rfl)
    · rw [List.find?_cons_of_neg (by simpa using (hfirst app happ).1)]
      exact ih happ hrest

end Setup

/-! ### The answer -/

section Answer

variable {casefold : Str → Str} {app : ApprovedMacApp} {apps : List ApprovedMacApp}

def ApprovedMacApp.output (app : ApprovedMacApp) : MacAppCatalogEntryOutput :=
  ⟨app.index, app.displayName, app.bundleId⟩

/-- The answer to a request for so many entries. -/
def answer (apps : List ApprovedMacApp) (maxEntries : ℕ) : MacAppsListOutput where
  status := "available".toList
  appCount := apps.length
  truncated := (apps.take maxEntries).length < apps.length
  entries := (apps.take maxEntries).map (·.output)

theorem Listed.create_output (h : Listed casefold apps) (happ : app ∈ apps) :
    MacAppCatalogEntryOutput.create ⟨app.index, app.displayName, app.bundleId⟩ = .ok app.output := by
  obtain ⟨hname, hbundleId⟩ := h.valid app happ
  exact if_pos ⟨h.index_lt happ, ⟨List.length_pos_iff.2 hname.ne_nil, hname.length_le⟩,
    List.length_pos_iff.2 hbundleId.ne_nil, hbundleId.length_le⟩

theorem Listed.listMacApps_eq (h : Listed casefold apps) (request : MacAppsListInput) :
    listMacApps true request apps = .ok (answer apps request.maxEntries) := by
  have hentries : ((apps.take request.maxEntries).mapM fun app =>
      MacAppCatalogEntryOutput.create ⟨app.index, app.displayName, app.bundleId⟩) =
      .ok ((apps.take request.maxEntries).map (·.output)) := by
    have hmap := @Checks.mapM_eq_ok_map _ _ _ _
      (fun app => MacAppCatalogEntryOutput.create ⟨app.index, app.displayName, app.bundleId⟩) id _
      (apps.take request.maxEntries)
      fun app happ => h.create_output (List.mem_of_mem_take happ)
    rwa [List.map_id] at hmap
  rw [listMacApps, Checks.throw_bind_eq_ok]
  refine ⟨by decide, ?_⟩
  rw [hentries, Checks.ok_bind]
  refine if_pos ⟨h.length_le, ?_⟩
  rw [List.length_map]
  exact (List.length_take_le _ _).trans request.maxEntries_le

theorem listMacApps_eq_answer (h : Listed casefold apps) {supported : Bool}
    {request : MacAppsListInput} {o : MacAppsListOutput}
    (ho : listMacApps supported request apps = .ok o) : o = answer apps request.maxEntries := by
  cases supported with
  | false => cases ho
  | true =>
    rw [h.listMacApps_eq] at ho
    exact (Except.ok.inj ho).symm

end Answer

/-! ### Its size -/

section Size

variable {casefold : Str → Str} {app : ApprovedMacApp} {apps : List ApprovedMacApp}

/-- The bytes of an entry. A bundle identifier is of ASCII, and has nothing to be escaped. -/
def entryBytes (app : ApprovedMacApp) : ℕ :=
  44 + (natStr app.index).length + escapedBytes app.displayName + app.bundleId.length

/-- The bytes of an answer with so many entries, with the commas between them. -/
def outputBytes (apps : List ApprovedMacApp) (maxEntries : ℕ) : ℕ :=
  60 + (natStr apps.length).length + (if (apps.take maxEntries).length < apps.length then 4 else 5) +
    ((apps.take maxEntries).map entryBytes).sum + ((apps.take maxEntries).length - 1)

/-- The characters of a bundle identifier. -/
theorem IsBundleId.mem_set {s : Str} (h : IsBundleId s) :
    Regex.AllIn (re false) bundleIdSet s := by
  have hsub : ∀ c, (re false).isIn alphanumerics c = true → (re false).isIn bundleIdSet c = true := by
    intro c hc
    simp only [re, reIsIn, alphanumerics, bundleIdSet, inRanges, List.any_cons, List.any_nil,
      Bool.or_eq_true, Bool.false_and, Bool.or_false] at hc ⊢
    rcases hc with hc | hc | hc
    · exact Or.inl hc
    · exact Or.inr (Or.inl hc)
    · exact Or.inr (Or.inr (Or.inl hc))
  obtain ⟨_, _, rfl, rfl, _, _, rfl, ⟨first, rfl, hfirst⟩, _, _, rfl, hmiddle, _, _, rfl,
    ⟨last, rfl, hlast⟩, rfl⟩ := Regex.lang_of_isMatch h.isMatch
  rw [List.nil_append, List.append_nil]
  exact (Regex.allIn_singleton (hsub first hfirst)).append
    ((Regex.lang_atMost_one hmiddle).1.append (Regex.allIn_singleton (hsub last hlast)))

theorem isPlain_of_mem_bundleIdSet {c : Char} (hc : (re false).isIn bundleIdSet c = true) :
    isPlain c = true ∧ c.toNat < 0x80 := by
  have hquote : (re false).isIn bundleIdSet '"' = false := by decide
  have hbackslash : (re false).isIn bundleIdSet '\\' = false := by decide
  have hquoteNe : c ≠ '"' := by
    rintro rfl
    exact absurd hc (by rw [hquote]; decide)
  have hbackslashNe : c ≠ '\\' := by
    rintro rfl
    exact absurd hc (by rw [hbackslash]; decide)
  have hbounds : 0x20 ≤ c.toNat ∧ c.toNat < 0x80 := by
    simp only [re, reIsIn, bundleIdSet, inRanges, List.any_cons, List.any_nil, Bool.or_eq_true,
      Bool.and_eq_true, decide_eq_true_eq, Bool.false_and, Bool.or_false] at hc
    rcases hc with hc | hc | hc | hc | hc
    all_goals
      obtain ⟨hlow, hhigh⟩ := hc
      exact ⟨le_trans (by decide) hlow, lt_of_le_of_lt hhigh (by decide)⟩
  simp only [isPlain, Bool.and_eq_true, decide_eq_true_eq]
  exact ⟨⟨⟨hbounds.1, hquoteNe⟩, hbackslashNe⟩, hbounds.2⟩

theorem IsBundleId.escapedBytes_eq {s : Str} (h : IsBundleId s) : escapedBytes s = s.length := by
  rw [escapedBytes_of_isPlain fun c hc => (isPlain_of_mem_bundleIdSet (h.mem_set c hc)).1]
  exact byteLength_of_ascii fun c hc => (isPlain_of_mem_bundleIdSet (h.mem_set c hc)).2

theorem size_output (h : app.Valid) : (Json.object app.output.modelDump).size = entryBytes app := by
  have hindex : byteLength (quote "appIndex".toList) = 10 := by decide
  have hname : byteLength (quote "displayName".toList) = 13 := by decide
  have hbundleId : byteLength (quote "bundleId".toList) = 10 := by decide
  rw [size_object]
  simp only [MacAppCatalogEntryOutput.modelDump, ApprovedMacApp.output, List.map_cons, List.map_nil,
    List.sum_cons, List.sum_nil, List.length_cons, List.length_nil]
  rw [hindex, hname, hbundleId, size_nat, size_str, size_str, h.bundleId.escapedBytes_eq, entryBytes]
  omega

/-- The size of an answer depends on its names by their lengths only. -/
theorem size_answer (h : Listed casefold apps) (maxEntries : ℕ) :
    (Json.object (answer apps maxEntries).modelDump).size = outputBytes apps maxEntries := by
  have hstatus : byteLength (quote "status".toList) = 8 := by decide
  have hvalue : escapedBytes "available".toList = 9 := by decide
  have hcount : byteLength (quote "appCount".toList) = 10 := by decide
  have htruncated : byteLength (quote "truncated".toList) = 11 := by decide
  have hentries : byteLength (quote "entries".toList) = 9 := by decide
  have hsizes : (((apps.take maxEntries).map (·.output)).map
      fun entry => Json.object entry.modelDump).map Json.size =
      (apps.take maxEntries).map entryBytes := by
    rw [List.map_map, List.map_map]
    refine List.map_congr_left fun app happ => ?_
    exact size_output (h.valid app (List.mem_of_mem_take happ))
  have hdump : (answer apps maxEntries).modelDump =
      [("status".toList, .str "available".toList), ("appCount".toList, .int apps.length),
        ("truncated".toList, .bool ((apps.take maxEntries).length < apps.length)),
        ("entries".toList, .array (((apps.take maxEntries).map (·.output)).map
          fun entry => .object entry.modelDump))] := rfl
  rw [hdump, size_object, List.map_cons, List.map_cons, List.map_cons, List.map_cons, List.map_nil,
    List.sum_cons, List.sum_cons, List.sum_cons, List.sum_cons, List.sum_nil, hstatus, hcount,
    htruncated, hentries, size_str, hvalue, size_nat, size_bool, size_array, hsizes, List.length_map,
    List.length_map, outputBytes]
  simp only [decide_eq_true_eq, List.length_cons, List.length_nil]
  omega

end Size

end GoffyHub.MacApps
