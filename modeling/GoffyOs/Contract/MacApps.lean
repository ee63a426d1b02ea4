import GoffyOs.Contract.RomText
import GoffyOs.Hub.MacApps

/-!
# `mac.apps.list` and `mac.apps.open` across the two sides

The Hub checks the names of its applications by code points, and the phone by code units and by Unicode
categories. An answer is of use to the phone if and only if the phone shows every name in it and it is
within the size of an answer; then every name opens its own entry.

The two sides also compare names in their own ways, `str.casefold` and `lowercase(Locale.US)`. Both are
parameters; `CaseFolding` is what Unicode says of them.
-/

namespace GoffyHub.MacApps

open GoffyPhone Kotlin Python

/-- Texts with one lower case have one folding. -/
structure CaseFolding (casefold : Python.Str → Python.Str) (lowercase : Kotlin.Str → Kotlin.Str) :
    Prop where
  casefold_eq : ∀ s t, lowercase (ofChars s) = lowercase (ofChars t) → casefold s = casefold t

def MacAppCatalogEntryOutput.onPhone (o : MacAppCatalogEntryOutput) : MacAppCatalogEntry where
  appIndex := o.appIndex
  displayName := ofChars o.displayName
  bundleId := ofChars o.bundleId

def MacAppsListOutput.onPhone (o : MacAppsListOutput) : MacAppsList where
  status := ofChars o.status
  appCount := o.appCount
  truncated := o.truncated
  entries := o.entries.map (·.onPhone)

/-- The phone may ask for an entry by its name, and the Hub finds that entry. -/
def Opens (casefold : Python.Str → Python.Str) (apps : List ApprovedMacApp)
    (e : MacAppCatalogEntryOutput) : Prop :=
  let arguments : MacAppsOpenArguments := ⟨e.onPhone.displayName⟩
  arguments.matchesToolContract = true ∧
    ∃ name app, openInput (toChars arguments.displayName) = .ok name ∧
      findApprovedApp casefold name apps = some app ∧ app.output = e

/-- What the phone needs of an answer. -/
structure Usable (casefold : Python.Str → Python.Str) (lowercase : Kotlin.Str → Kotlin.Str)
    (apps : List ApprovedMacApp) (o : MacAppsListOutput) : Prop where
  fits : (Json.object o.modelDump).size ≤ maxToolOutputBytes
  matchesToolContract : o.onPhone.matchesToolContract lowercase = true
  opens : ∀ e ∈ o.entries, Opens casefold apps e

/-! ### Names -/

section Names

variable {s t : Python.Str}

/-- The phone takes a name of the list if and only if it shows it. -/
theorem IsAppName.isSafe_iff (h : IsAppName s) :
    isSafeMacAppDisplayName (ofChars s) = true ↔ IsShowable maxMacAppDisplayNameLength s := by
  have hslash : (ofChars s).contains slash = false := by
    rw [← Bool.not_eq_true, List.contains_iff_mem]
    exact fun hmem => h.no_slash ((toUInt16_mem_ofChars (d := '/') (by decide)).1 hmem)
  have hbackslash : (ofChars s).contains backslash = false := by
    rw [← Bool.not_eq_true, List.contains_iff_mem]
    exact fun hmem => h.no_backslash ((toUInt16_mem_ofChars (d := '\\') (by decide)).1 hmem)
  -- a name has been stripped, and starts with a character that is no white space
  have hvisible : ∃ c ∈ s, basic isWhitespace c = false := by
    obtain ⟨c, rest, hs⟩ := List.exists_cons_of_ne_nil h.ne_nil
    have hhead : isSpace c = false := by
      refine Trimming.head?_trimmed (s := s) ?_
      have hstrip : Trimming.trimmed isSpace s = s := h.strip_eq
      rw [hstrip, hs, List.head?_cons]
    refine ⟨c, hs ▸ List.mem_cons_self, Bool.eq_false_iff.2 fun hblank => ?_⟩
    rw [isSpace_of_basic_isWhitespace hblank] at hhead
    exact absurd hhead (by decide)
  simp only [isSafeMacAppDisplayName, hslash, hbackslash, Bool.not_false, Bool.and_true,
    isSafeDisplayField_ofChars]
  exact and_iff_right hvisible

theorem contains_ofChars (hs : ∀ c ∈ s, c.toNat < 0x10000) :
    Kotlin.contains (ofChars s) (ofChars t) = Python.contains s t := by
  rw [Bool.eq_iff_iff, ofChars_eq_map hs, Kotlin.contains, Python.contains, List.map_tails,
    List.any_map, List.any_eq_true, List.any_eq_true]
  refine exists_congr fun r => and_congr_right fun hr => ?_
  have hsub : ∀ c ∈ r, c.toNat < 0x10000 := fun c hc => hs c (((List.mem_tails _ _).1 hr).subset hc)
  rw [Function.comp_apply, List.isPrefixOf_iff_prefix, List.isPrefixOf_iff_prefix,
    ← ofChars_eq_map hsub, prefix_ofChars hsub]

theorem IsBundleId.printable (h : IsBundleId s) : Printable s := by
  intro c hc
  obtain ⟨hplain, hlt⟩ := isPlain_of_mem_bundleIdSet (h.mem_set c hc)
  have hne : c ≠ Char.ofNat 0x7f := by
    rintro rfl
    exact absurd (h.mem_set _ hc) (by decide)
  have hne' : c.toNat ≠ 0x7f := fun heq => hne (by rw [← heq, Char.ofNat_toNat])
  simp only [isPlain, Bool.and_eq_true, decide_eq_true_eq] at hplain
  rw [isPrintable_iff]
  omega

/-- The phone takes every bundle identifier of the list. -/
theorem IsBundleId.isSafe (h : IsBundleId s) : isSafeMacBundleId (ofChars s) = true := by
  have hbasic : ∀ c ∈ s, c.toNat < 0x10000 := fun c hc => lt_of_isPrintable (h.printable c hc)
  have hblank : isBlank (ofChars s) = false := by
    rw [isBlank_ofChars, List.all_eq_false]
    exact ⟨'.', h.dot, by decide⟩
  have hlength : (ofChars s).length ≤ maxMacAppBundleIdLength := by
    rw [length_ofChars hbasic]
    exact h.length_le
  have hdot : Kotlin.contains (ofChars s) (lit ".") = true := by
    obtain ⟨u, v, rfl⟩ := List.append_of_mem h.dot
    rw [Kotlin.contains_iff, ofChars_append, ofChars_cons]
    exact ⟨ofChars u, ofChars v, List.append_assoc _ _ _⟩
  have hdots : Kotlin.contains (ofChars s) (lit "..") = false :=
    (contains_ofChars hbasic).trans h.no_dots
  have hmatch : Regex.isMatch (regex false) macAppBundleId (ofChars s) = true := by
    rw [ofChars_eq_map hbasic, Regex.isMatch_map (Rom.agree_printable false) macAppBundleId h.printable]
    exact h.isMatch
  simp only [isSafeMacBundleId, hblank, hlength, hdot, hdots, hmatch, decide_true, Bool.not_false,
    Bool.and_true]

end Names

/-! ### Lists -/

section Lists

variable {casefold : Python.Str → Python.Str} {lowercase : Kotlin.Str → Kotlin.Str}
  {app : ApprovedMacApp} {apps : List ApprovedMacApp}

theorem length_dedup_of_pairwise {α β : Type} [DecidableEq β] {f : α → β} {l : List α}
    (h : l.Pairwise fun a b => f a ≠ f b) : (l.map f).dedup.length = l.length := by
  have hnodup : (l.map f).Nodup := List.pairwise_map.2 h
  rw [List.dedup_eq_self.2 hnodup, List.length_map]

/-- The phone takes an entry of the list if and only if it shows its name. -/
theorem Listed.entry_matchesToolContract_iff (h : Listed casefold apps) (happ : app ∈ apps) :
    app.output.onPhone.matchesToolContract = true ↔
      IsShowable maxMacAppDisplayNameLength app.displayName := by
  obtain ⟨hname, hbundleId⟩ := h.valid app happ
  have hlt : app.index < 25 := h.index_lt happ
  have hindex : inRange 0 maxMacAppIndex app.output.onPhone.appIndex = true :=
    inRange_iff.2 ⟨Int.natCast_nonneg _, Int.ofNat_le.2 (Nat.le_of_lt_succ hlt)⟩
  have hid : isSafeMacBundleId app.output.onPhone.bundleId = true := hbundleId.isSafe
  rw [MacAppCatalogEntry.matchesToolContract, hindex, hid, Bool.true_and, Bool.and_true]
  exact hname.isSafe_iff

/-- A listed name opens its own entry if and only if the phone shows it. -/
theorem Listed.opens_iff (h : Listed casefold apps) (happ : app ∈ apps) :
    Opens casefold apps app.output ↔ IsShowable maxMacAppDisplayNameLength app.displayName := by
  obtain ⟨hname, -⟩ := h.valid app happ
  have hopen : openInput (toChars (ofChars app.displayName)) = .ok app.displayName := by
    rw [toChars_ofChars]
    exact hname.openInput_eq
  refine Iff.trans (and_iff_left ?_) hname.isSafe_iff
  exact ⟨app.displayName, app, hopen, h.findApprovedApp_eq happ, rfl⟩

/-- The answer matches the phone's contract if and only if the phone shows every name in it. -/
theorem Listed.answer_matchesToolContract_iff (hfold : CaseFolding casefold lowercase)
    (h : Listed casefold apps) (maxEntries : ℕ) :
    (answer apps maxEntries).onPhone.matchesToolContract lowercase = true ↔
      ∀ app ∈ apps.take maxEntries, IsShowable maxMacAppDisplayNameLength app.displayName := by
  have hsub : (apps.take maxEntries).Sublist apps := List.take_sublist _ _
  have hlengthLe : (apps.take maxEntries).length ≤ apps.length := hsub.length_le
  have hentries : (answer apps maxEntries).onPhone.entries =
      (apps.take maxEntries).map fun app => app.output.onPhone := List.map_map
  have hlength : (answer apps maxEntries).onPhone.entries.length = (apps.take maxEntries).length := by
    rw [hentries, List.length_map]
  have hstatus : isSafeDisplayField (answer apps maxEntries).onPhone.status maxMacAppStatusLength =
      true := by
    show isSafeDisplayField (ofChars "available".toList) maxMacAppStatusLength = true
    decide
  have hcount : inRange 0 maxMacAppCount (answer apps maxEntries).onPhone.appCount = true :=
    inRange_iff.2 ⟨Int.natCast_nonneg _, Int.ofNat_le.2 h.length_le⟩
  have hmaximum : (answer apps maxEntries).onPhone.entries.length ≤ maxMacAppEntries :=
    hlength.trans_le (hlengthLe.trans h.length_le)
  have hshown : ((answer apps maxEntries).onPhone.entries.length : ℤ) ≤
      (answer apps maxEntries).onPhone.appCount := by
    rw [hlength]
    exact Int.ofNat_le.2 hlengthLe
  have htruncated : (if (answer apps maxEntries).onPhone.truncated then
      decide (((answer apps maxEntries).onPhone.entries.length : ℤ) <
        (answer apps maxEntries).onPhone.appCount)
      else decide (((answer apps maxEntries).onPhone.entries.length : ℤ) =
        (answer apps maxEntries).onPhone.appCount)) = true := by
    rw [hlength]
    show (if decide ((apps.take maxEntries).length < apps.length) = true then
      decide (((apps.take maxEntries).length : ℤ) < apps.length)
      else decide (((apps.take maxEntries).length : ℤ) = apps.length)) = true
    split
    case isTrue hless => exact decide_eq_true (Int.ofNat_lt.2 (of_decide_eq_true hless))
    case isFalse hless =>
      have hwhole : ¬ (apps.take maxEntries).length < apps.length := fun hlt =>
        hless (decide_eq_true hlt)
      exact decide_eq_true (by omega)
  -- the keys of the Hub tell the entries apart, and so do those of the phone
  have hdistinct : (apps.take maxEntries).Pairwise (Distinct casefold) := h.distinct.sublist hsub
  have hindices : (apps.take maxEntries).Pairwise fun a b => a.index ≠ b.index := by
    have hrange : (apps.map (·.index)).Nodup := h.index ▸ List.nodup_range
    exact (List.pairwise_map.1 hrange).sublist hsub
  have hindexKeys : ((answer apps maxEntries).onPhone.entries.map (·.appIndex)).dedup.length =
      (answer apps maxEntries).onPhone.entries.length := by
    rw [hlength, hentries, List.map_map]
    exact length_dedup_of_pairwise
      (hindices.imp fun {a b} hne heq => hne (Int.ofNat_inj.1 heq))
  have hnameKeys : ((answer apps maxEntries).onPhone.entries.map
      fun e => lowercase e.displayName).dedup.length =
      (answer apps maxEntries).onPhone.entries.length := by
    rw [hlength, hentries, List.map_map]
    exact length_dedup_of_pairwise
      (hdistinct.imp fun {a b} hne heq => hne.1 (hfold.casefold_eq _ _ heq))
  have hidKeys : ((answer apps maxEntries).onPhone.entries.map
      fun e => lowercase e.bundleId).dedup.length =
      (answer apps maxEntries).onPhone.entries.length := by
    rw [hlength, hentries, List.map_map]
    exact length_dedup_of_pairwise
      (hdistinct.imp fun {a b} hne heq => hne.2 (hfold.casefold_eq _ _ heq))
  have hall : (∀ e ∈ (answer apps maxEntries).onPhone.entries, e.matchesToolContract = true) ↔
      ∀ app ∈ apps.take maxEntries, IsShowable maxMacAppDisplayNameLength app.displayName := by
    rw [hentries, List.forall_mem_map]
    exact forall₂_congr fun app happ => h.entry_matchesToolContract_iff (hsub.subset happ)
  simp only [MacAppsList.matchesToolContract, hstatus, hcount, hmaximum, hshown, htruncated, hindexKeys,
    hnameKeys, hidKeys, decide_true, Bool.true_and, Bool.and_true, List.all_eq_true, hall]

/-- **Catalogs.** For every list of applications that the Hub accepts and every request, the answer fits,
matches the phone's contract and has entries that open themselves if and only if the phone shows every
name in it and its bytes are within the size of an answer. -/
theorem mac_apps_usable_iff (hfold : CaseFolding casefold lowercase) {entries : List Python.Str}
    (happs : approvedApps casefold entries = .ok apps) {supported : Bool} {request : MacAppsListInput}
    {o : MacAppsListOutput} (ho : listMacApps supported request apps = .ok o) :
    Usable casefold lowercase apps o ↔
      (∀ app ∈ apps.take request.maxEntries, IsShowable maxMacAppDisplayNameLength app.displayName) ∧
        outputBytes apps request.maxEntries ≤ maxToolOutputBytes := by
  have hlisted := listed_of_approvedApps happs
  obtain rfl := listMacApps_eq_answer hlisted ho
  have hsize := size_answer hlisted request.maxEntries
  have hcontract := hlisted.answer_matchesToolContract_iff hfold request.maxEntries
  constructor
  · intro husable
    exact ⟨hcontract.1 husable.matchesToolContract, hsize ▸ husable.fits⟩
  · rintro ⟨hshown, hbytes⟩
    refine ⟨hsize.trans_le hbytes, hcontract.2 hshown, fun e he => ?_⟩
    obtain ⟨app, happ, rfl⟩ := List.mem_map.1 he
    exact (hlisted.opens_iff (List.mem_of_mem_take happ)).2 (hshown app happ)

end Lists

/-! ### Lower case and folding, as far as ASCII can tell -/

section Folding

/-- The lower case of a character, by `lowerUnit`. -/
def lowerCharacters (c : Char) : Python.Str :=
  if 0x41 ≤ c.toNat ∧ c.toNat ≤ 0x5a then [Char.ofNat (c.toNat + 0x20)]
  else if c.toNat = 0x130 then ['i', '\u0307']
  else if c.toNat = 0x212a then ['k']
  else [c]

theorem lowercase_units (c : Char) : (units c).flatMap lowerUnit = ofChars (lowerCharacters c) := by
  by_cases hbasic : c.toNat < 0x10000
  · have hunit := toNat_toUInt16 hbasic
    have hiff : ∀ n, n < 0x10000 → (c.toNat.toUInt16 = n.toUInt16 ↔ c.toNat = n) := by
      intro n hn
      rw [← UInt16.toNat_inj, hunit, toNat_toUInt16 hn]
    have hcapital : (0x41 ≤ c.toNat.toUInt16 ∧ c.toNat.toUInt16 ≤ 0x5a) ↔
        (0x41 ≤ c.toNat ∧ c.toNat ≤ 0x5a) := by
      rw [UInt16.le_iff_toNat_le, UInt16.le_iff_toNat_le, hunit]
      rfl
    rw [units_of_lt hbasic, List.flatMap_singleton, lowerUnit, lowerCharacters]
    simp only [hcapital, show c.toNat.toUInt16 = 0x130 ↔ c.toNat = 0x130 from hiff 0x130 (by decide),
      show c.toNat.toUInt16 = 0x212a ↔ c.toNat = 0x212a from hiff 0x212a (by decide)]
    split
    case isTrue hc =>
      have hall : ∀ n < 26, units (Char.ofNat (n + 0x41 + 0x20)) = [(n + 0x41).toUInt16 + 0x20] := by
        decide
      have hn := hall (c.toNat - 0x41) (by omega)
      rw [Nat.sub_add_cancel hc.1] at hn
      rw [ofChars, List.flatMap_singleton, hn]
    · split
      · rfl
      · split
        · rfl
        · rw [ofChars, List.flatMap_singleton, units_of_lt hbasic]
  · -- the two units of a pair have no lower case
    have hpair : ∀ u ∈ units c, lowerUnit u = [u] := by
      intro u hu
      obtain ⟨hlow, hhigh⟩ := surrogate_of_mem_units (Nat.le_of_not_lt hbasic) hu
      have hne : ∀ v : UInt16, v.toNat < 0xd800 → u ≠ v := by
        rintro v hv rfl
        omega
      have hcapital : ¬ (0x41 ≤ u ∧ u ≤ 0x5a) := by
        rw [UInt16.le_iff_toNat_le, UInt16.le_iff_toNat_le]
        intro h
        have hle : u.toNat ≤ 0x5a := h.2
        omega
      rw [lowerUnit, if_neg hcapital, if_neg (hne _ (by decide)), if_neg (hne _ (by decide))]
    have hself : (units c).flatMap lowerUnit = units c := by
      rw [List.flatMap_congr hpair, List.flatMap_singleton']
    rw [hself, lowerCharacters, if_neg (by omega), if_neg (by omega), if_neg (by omega), ofChars,
      List.flatMap_singleton]

/-- A text and its lower case fold in the same way. -/
theorem casefold_lowerCharacters (c : Char) : (lowerCharacters c).flatMap casefoldChar = casefoldChar c := by
  unfold lowerCharacters
  split
  case isTrue hc =>
    have hall : ∀ n < 26, ([Char.ofNat (n + 0x41 + 0x20)] : Python.Str).flatMap casefoldChar =
        casefoldChar (Char.ofNat (n + 0x41)) := by decide
    have hn := hall (c.toNat - 0x41) (by omega)
    rwa [Nat.sub_add_cancel hc.1, Char.ofNat_toNat] at hn
  · split
    case isTrue hc =>
      obtain rfl : c = Char.ofNat 0x130 := by rw [← hc, Char.ofNat_toNat]
      decide
    · split
      case isTrue hc =>
        obtain rfl : c = Char.ofNat 0x212a := by rw [← hc, Char.ofNat_toNat]
        decide
      · exact List.flatMap_singleton _ _

theorem caseFolding : CaseFolding Python.casefold Kotlin.lowercase where
  casefold_eq s t h := by
    have hlower : ∀ s : Python.Str, Kotlin.lowercase (ofChars s) = ofChars (s.flatMap lowerCharacters) := by
      intro s
      rw [Kotlin.lowercase, ofChars, ofChars, List.flatMap_assoc, List.flatMap_assoc]
      exact List.flatMap_congr fun c _ => lowercase_units c
    have hfold : ∀ s : Python.Str, (s.flatMap lowerCharacters).flatMap casefoldChar = Python.casefold s := by
      intro s
      rw [List.flatMap_assoc]
      exact List.flatMap_congr fun c _ => casefold_lowerCharacters c
    rw [hlower, hlower] at h
    rw [← hfold s, ← hfold t, ofChars_injective h]

end Folding

/-! ### Three catalogs -/

theorem demoEntries_pos : 1 ≤ 25 := by decide

def demoRequest : MacAppsListInput := ⟨25, demoEntries_pos, by decide⟩

def demoApps : List ApprovedMacApp :=
  [⟨0, "Notes".toList, "com.apple.Notes".toList⟩, ⟨1, "App Store".toList, "com.apple.AppStore".toList⟩]

theorem demo_apps_usable : Usable Python.casefold Kotlin.lowercase demoApps (answer demoApps 25) := by
  have happs : approvedApps Python.casefold [" Notes = com.apple.Notes".toList,
      "App Store=com.apple.AppStore".toList] = .ok demoApps := by decide +kernel
  have hlist : listMacApps true demoRequest demoApps = .ok (answer demoApps 25) := rfl
  exact (mac_apps_usable_iff caseFolding happs hlist).2 (by decide +kernel)

/-- The family emoji, with a joiner in it. -/
def family : Python.Str := [Char.ofNat 0x1f468, Char.ofNat 0x200d, Char.ofNat 0x1f469]

def familyApps : List ApprovedMacApp := [⟨0, family, "com.example.family".toList⟩]

/-- A name of 80 characters, of three bytes each but for the first one. -/
def longName (i : ℕ) : Python.Str := Char.ofNat (0x41 + i) :: List.replicate 79 (Char.ofNat 0x4e2d)

def longBundleId (i : ℕ) : Python.Str :=
  "com.example.applications.with.long.names.".toList ++ [Char.ofNat (0x41 + i)]

def longApps : List ApprovedMacApp := (List.range 25).map fun i => ⟨i, longName i, longBundleId i⟩

/-- **A joiner, and long names.** The Hub accepts both lists. The phone refuses its answer for the first
one, and for the second one the answer is too large. -/
theorem family_and_long_names :
    (approvedApps Python.casefold [family ++ "=com.example.family".toList] = .ok familyApps ∧
      listMacApps true demoRequest familyApps = .ok (answer familyApps 25) ∧
      (answer familyApps 25).onPhone.matchesToolContract Kotlin.lowercase = false) ∧
    approvedApps Python.casefold ((List.range 25).map fun i => longName i ++ '=' :: longBundleId i) =
        .ok longApps ∧
      listMacApps true demoRequest longApps = .ok (answer longApps 25) ∧
      maxToolOutputBytes < (Json.object (answer longApps 25).modelDump).size := by
  have hfamily : approvedApps Python.casefold [family ++ "=com.example.family".toList] =
      .ok familyApps := by decide +kernel
  have hlong : approvedApps Python.casefold
      ((List.range 25).map fun i => longName i ++ '=' :: longBundleId i) = .ok longApps := by
    decide +kernel
  have hlisted := listed_of_approvedApps hlong
  refine ⟨⟨hfamily, (listed_of_approvedApps hfamily).listMacApps_eq demoRequest, by decide +kernel⟩,
    hlong, hlisted.listMacApps_eq demoRequest, ?_⟩
  rw [size_answer hlisted]
  decide +kernel

end GoffyHub.MacApps
