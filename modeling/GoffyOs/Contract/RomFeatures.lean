import GoffyOs.Contract.RomChecklist
import GoffyOs.Hub.RomFeatures

/-!
# `goffy.rom.features` across the two sides

Whatever the payload says, as long as its texts are of ASCII, and whatever else is in the repository: the
Hub answers, and the phone takes the answer. That the flag of the destructive tools fits the features that
are shown is the work of the script, which lets a payload pass only with its eight features.
-/

namespace GoffyHub.RomFeatures

open GoffyPhone Kotlin Regex GoffyScripts.RomFeatures
open Rom hiding containsPathLikeText textValue
open Python (Json)

/-- What the phone reads of a feature. -/
def GoffyRomFeatureOutput.onPhone (f : GoffyRomFeatureOutput) : GoffyRomFeature where
  featureIndex := f.featureIndex
  title := ofChars f.title
  executionTargets := f.executionTargets.map ofChars
  mcpTools := f.mcpTools.map ofChars
  mcpToolCount := f.mcpToolCount
  androidPermissionCount := f.androidPermissionCount
  runtimePolicy := ofChars f.runtimePolicy
  foregroundOnly := true
  backgroundAccess := false
  privilegedRequired := false
  romDestructiveAction := false
  appPrivateDestructiveToolCount := f.appPrivateDestructiveToolCount

/-- What the phone reads of an answer. -/
def GoffyRomFeaturesOutput.onPhone (o : GoffyRomFeaturesOutput) : GoffyRomFeatures where
  status := ofChars o.status
  payloadName := ofChars o.payloadName
  targetStage := lit "ROM-0"
  defaultPerformanceMode := lit "GOFFY LITE"
  rom0Flashable := false
  privileged := false
  platformSigned := false
  romDestructiveActionsIncluded := false
  appPrivateDestructiveToolsIncluded := o.appPrivateDestructiveToolsIncluded
  requiresUserSelectedHome := true
  localModelPolicy := lit "disabled_by_default_observe_only"
  featureCount := o.featureCount
  features := o.features.map (·.onPhone)
  featuresTruncated := o.featuresTruncated
  mcpToolCount := o.mcpToolCount
  androidPermissionCount := o.androidPermissionCount
  blockedRomActionCount := o.blockedRomActionCount
  blockedRomActions := o.blockedRomActions.map ofChars
  blockedRomActionsTruncated := o.blockedRomActionsTruncated
  notes := o.notes.map ofChars
  notesTruncated := o.notesTruncated
  destructiveActions := lit "withheld"
  checkedFeaturePayload := o.checkedFeaturePayload

/-! ### Texts and names -/

section Names

variable {value v s : Python.Str} {n maximum maxItems maxLength : ℕ} {p : Pattern}

/-- A text that the validator of a field takes is shown by the phone. -/
theorem isSafeRomStatusField_of_validDisplay (hvalue : Ascii value) (hn : 7 ≤ n) (hmaximum : n ≤ maximum)
    (h : validDisplay value n maximum = .ok v) : isSafeRomStatusField (ofChars v) n = true := by
  unfold validDisplay at h
  split at h
  case isFalse => cases h
  case isTrue hlength =>
    obtain ⟨hdisplay, hpath, hcommand⟩ :=
      shownText_safe (by decide +kernel) hvalue hn hlength.2 hmaximum h
    refine isSafeRomStatusField_of_display hdisplay ?_ hcommand
    simp only [containsPathLikeText, Bool.or_eq_false_iff] at hpath
    obtain ⟨⟨hurl, hbackslash⟩, hslash⟩ := hpath
    -- the exceptions for a slash are the same on both sides
    have htoken : goffyRomSafeSlashToken = safeTextSlashToken := rfl
    exact containsGoffyRomPathLikeText_of_remove hdisplay.printable hurl (by simpa using hbackslash)
      (htoken ▸ hslash)

/-- A set of printable characters. -/
def IsPrintableSet : CharSet → Prop
  | .char c => isPrintable c = true
  | .ranges rs => ∀ r ∈ rs, 0x20 ≤ r.1.toNat ∧ r.2.toNat < 0x7f
  | _ => False

theorem isPrintable_of_isIn {set : CharSet} {c : Char} (hset : IsPrintableSet set)
    (hc : (Python.re false).isIn set c = true) : isPrintable c = true := by
  cases set with
  | char d =>
    obtain rfl : c = d := of_decide_eq_true hc
    exact hset
  | ranges rs =>
    have hin : Python.inRanges rs c = true := by
      simpa [Python.re, Python.reIsIn] using hc
    obtain ⟨r, hr, hbounds⟩ := List.any_eq_true.1 hin
    simp only [Bool.and_eq_true, decide_eq_true_eq] at hbounds
    have hrange := hset r hr
    rw [isPrintable_iff]
    omega
  | _ => exact hset.elim

/-- A name that the Hub's pattern matches is matched by the phone. -/
theorem isMatch_ofChars (hsets : ∀ set ∈ p.sets, IsPrintableSet set)
    (h : isMatch (Python.re false) p s = true) : isMatch (regex false) p (ofChars s) = true := by
  have hprintable : Printable s := by
    intro c hc
    obtain ⟨set, hset, hin⟩ := exists_set_of_lang (lang_of_isMatch h) c hc
    exact isPrintable_of_isIn (hsets set hset) hin
  rw [ofChars_eq_map fun c hc => lt_of_isPrintable (hprintable c hc),
    isMatch_map (agree_printable false) p hprintable]
  exact h

theorem isPrintableSet_letters : IsPrintableSet (.ranges [('a', 'z')]) := by
  show ∀ r ∈ [('a', 'z')], _
  decide

theorem isPrintableSet_names : IsPrintableSet nameSet := by
  show ∀ r ∈ [('a', 'z'), ('0', '9'), ('_', '_')], _
  decide

theorem isMatch_of_safeIdentifier (h : safeIdentifier value = .ok v) :
    isMatch (regex false) goffyRomSafeIdentifier (ofChars v) = true := by
  obtain ⟨hmatch, rfl⟩ := Checks.ite_error_eq_ok.1 h
  have hsame : goffyRomSafeIdentifier = identifierPattern := rfl
  have hsets : ∀ set ∈ identifierPattern.sets, set = .ranges [('a', 'z')] ∨ set = nameSet := by decide
  rw [hsame]
  refine isMatch_ofChars (fun set hset => ?_) hmatch
  rcases hsets set hset with rfl | rfl
  · exact isPrintableSet_letters
  · exact isPrintableSet_names

theorem isMatch_of_safeToolId (h : safeToolId value = .ok v) :
    isMatch (regex false) goffyRomSafeToolId (ofChars v) = true := by
  obtain ⟨⟨-, hmatch⟩, rfl⟩ := Checks.ite_error_eq_ok.1 h
  have hsame : goffyRomSafeToolId = toolIdPattern := rfl
  have hsets : ∀ set ∈ toolIdPattern.sets,
      set = .ranges [('a', 'z')] ∨ set = nameSet ∨ set = .char '.' := by decide
  rw [hsame]
  refine isMatch_ofChars (fun set hset => ?_) hmatch
  rcases hsets set hset with rfl | rfl | rfl
  · exact isPrintableSet_letters
  · exact isPrintableSet_names
  · show isPrintable '.' = true
    decide

/-- The validator of a list looks at each of its items. -/
theorem validNames_eq_ok {values vs : List Python.Str} {validator : Python.Str → Except RomError Python.Str}
    (h : validNames values maxItems maxLength validator = .ok vs) :
    vs.length = values.length ∧ values.length ≤ maxItems ∧
      ∀ v ∈ vs, ∃ value ∈ values, (1 ≤ value.length ∧ value.length ≤ maxLength) ∧
        validator value = .ok v := by
  unfold validNames at h
  rw [Checks.throw_bind_eq_ok] at h
  obtain ⟨hbounds, h⟩ := h
  push Not at hbounds
  refine ⟨Checks.length_of_mapM h, hbounds.1, fun v hv => ?_⟩
  obtain ⟨value, hvalue, hok⟩ := Checks.exists_of_mem_mapM h hv
  exact ⟨value, hvalue, hbounds.2 value hvalue, hok⟩

theorem ascii_rom_textValue {json : Option Python.Json} {default : Python.Str}
    (hjson : ∀ j ∈ json, JsonAscii j) (hdefault : Ascii default) : Ascii (textValue json default) := by
  unfold textValue
  split
  case h_1 s =>
    have hs := hjson _ rfl
    rw [JsonAscii] at hs
    split
    · exact hdefault
    · exact hs
  · exact hdefault

theorem ascii_safeDisplayText (hvalue : Ascii value) (h : safeDisplayText value maximum = .ok v) : Ascii v :=
  ascii_shownText hvalue h

end Names

/-! ### Features -/

section Features

variable {f f' : GoffyRomFeatureOutput} {item : Members} {items : List Members} {index : ℕ}
  {outputs : List GoffyRomFeatureOutput}

theorem executionTargets_eq_ok {json : Option Python.Json} {targets : List Python.Str}
    (h : executionTargets json = .ok targets) :
    targets ≠ [] ∧ ∀ t ∈ targets, t ∈ ["PHONE".toList, "MAC".toList, "CLOUD".toList] := by
  unfold executionTargets at h
  rw [Checks.throw_bind_eq_ok] at h
  obtain ⟨hne, h⟩ := h
  constructor
  · rintro rfl
    exact hne (List.length_eq_zero_iff.1 (Checks.length_of_mapM h).symm)
  · intro t ht
    obtain ⟨target, -, hok⟩ := Checks.exists_of_mem_mapM h ht
    obtain ⟨hmem, rfl⟩ := Checks.ite_error_eq_ok.1 hok
    exact hmem

/-- A feature that the validators take, with texts of ASCII. -/
theorem matchesToolContract_of_create (h : f.create = .ok f') (htitle : Ascii f.title)
    (hpolicy : Ascii f.runtimePolicy) (hne : f.executionTargets ≠ [])
    (htargets : ∀ t ∈ f.executionTargets, t ∈ ["PHONE".toList, "MAC".toList, "CLOUD".toList])
    (hcount : f.mcpTools.length ≤ f.mcpToolCount) :
    f'.featureIndex = f.featureIndex ∧
      f'.appPrivateDestructiveToolCount = f.appPrivateDestructiveToolCount ∧
      f'.onPhone.matchesToolContract = true := by
  unfold GoffyRomFeatureOutput.create at h
  simp only [Checks.bind_eq_ok, Checks.throw_bind_eq_ok] at h
  obtain ⟨hindex, ⟨⟩, hindexMax, title, htitle', ⟨⟩, hthree, tools, htools, ⟨⟩, htoolCount, ⟨⟩,
    hpermissions, policy, hpolicy', ⟨⟩, hdestructive, h⟩ := h
  obtain rfl := Except.ok.inj h
  refine ⟨rfl, rfl, ?_⟩
  obtain ⟨hlength, hmax, hnames⟩ := validNames_eq_ok htools
  have htitleSafe := isSafeRomStatusField_of_validDisplay htitle (by decide) (by decide) htitle'
  have hpolicySafe := isSafeRomStatusField_of_validDisplay hpolicy (by decide) le_rfl hpolicy'
  have hempty : (f.executionTargets.map ofChars).isEmpty = false := by
    rw [List.isEmpty_map]
    exact Bool.eq_false_iff.2 fun hempty => hne (List.isEmpty_iff.1 hempty)
  have htargetsAll : (f.executionTargets.map ofChars).all
      (· ∈ goffyRomFeatureExecutionTargetValues) = true := by
    refine List.all_eq_true.2 fun u hu => ?_
    obtain ⟨t, ht, rfl⟩ := List.mem_map.1 hu
    have hword : ∀ w ∈ ["PHONE".toList, "MAC".toList, "CLOUD".toList],
        ofChars w ∈ goffyRomFeatureExecutionTargetValues := by decide
    exact decide_eq_true (hword t (htargets t ht))
  have htoolsAll : (tools.map ofChars).all (isMatch (regex false) goffyRomSafeToolId ·) = true := by
    refine List.all_eq_true.2 fun u hu => ?_
    obtain ⟨t, ht, rfl⟩ := List.mem_map.1 hu
    obtain ⟨value, -, -, hok⟩ := hnames t ht
    exact isMatch_of_safeToolId hok
  have hinRange : ∀ n : ℕ, validCount n maxFeatureCount = .ok () →
      inRange 0 maxGoffyRomFeatureCount n = true := fun n hn =>
    inRange_iff.2 ⟨Int.natCast_nonneg _, Int.ofNat_le.2 (validCount_eq_ok.1 hn)⟩
  have hindexRange : inRange 1 maxGoffyRomFeatureCount f.featureIndex = true :=
    inRange_iff.2 ⟨Int.ofNat_le.2 (Nat.pos_of_ne_zero hindex),
      Int.ofNat_le.2 (validCount_eq_ok.1 hindexMax)⟩
  have hthree' : (f.executionTargets.map ofChars).length ≤ 3 := by
    rw [List.length_map]
    exact validCount_eq_ok.1 hthree
  have htoolsMax : (tools.map ofChars).length ≤ maxGoffyRomToolsPerFeature := by
    rw [List.length_map, hlength]
    exact hmax
  have htoolsCount : ((tools.map ofChars).length : ℤ) ≤ f.mcpToolCount := by
    rw [List.length_map, hlength]
    exact Int.ofNat_le.2 hcount
  simp only [GoffyRomFeature.matchesToolContract, GoffyRomFeatureOutput.onPhone, Bool.and_eq_true,
    Bool.not_eq_true', Bool.not_false, and_true]
  exact ⟨⟨⟨⟨⟨⟨⟨⟨⟨⟨⟨hindexRange, htitleSafe⟩, hempty⟩, decide_eq_true hthree'⟩, htargetsAll⟩,
    decide_eq_true htoolsMax⟩, decide_eq_true htoolsCount⟩, htoolsAll⟩, hinRange _ htoolCount⟩,
    hinRange _ hpermissions⟩, hpolicySafe⟩, hinRange _ hdestructive⟩

/-- One round of the loop, for a feature of ROM-0. -/
theorem featureOutput_ok {output : Option GoffyRomFeatureOutput} (hitem : MembersAscii item)
    (hincluded : isTrue (get item "included_in_rom0") = true) (h : featureOutput index item = .ok output) :
    ∃ f, output = some f ∧ f.featureIndex = index ∧ f.appPrivateDestructiveToolCount =
      (stringItems (get item "app_private_destructive_tools")).length ∧
      f.onPhone.matchesToolContract = true := by
  have hget : ∀ key, ∀ j ∈ get item key, JsonAscii j := fun key j hj => hitem.get hj
  unfold featureOutput at h
  rw [hincluded, if_neg Bool.false_ne_true.symm] at h
  simp only [Checks.bind_eq_ok, Checks.throw_bind_eq_ok] at h
  obtain ⟨-, -, -, -, title, htitle, targets, htargets, tools, htools, policy, hpolicy, f, hf, h⟩ := h
  obtain rfl := Except.ok.inj h
  have htitleDefault : Ascii ("GOFFY ROM feature ".toList ++ Python.natStr index) :=
    Ascii.append (ascii_ofList (by decide)) (ascii_natStr index)
  have htitleAscii := ascii_safeDisplayText (ascii_rom_textValue (hget _) htitleDefault) htitle
  have hpolicyAscii :=
    ascii_safeDisplayText (ascii_rom_textValue (hget _) (ascii_ofList (by decide))) hpolicy
  obtain ⟨hne, hwords⟩ := executionTargets_eq_ok htargets
  obtain ⟨hindex, hdestructive, hmatches⟩ := matchesToolContract_of_create hf htitleAscii hpolicyAscii hne
    hwords (List.length_take_le' _ _)
  exact ⟨f, rfl, hindex, hdestructive, hmatches⟩

/-- The loop over features of ROM-0. -/
theorem featureOutputsFrom_ok : ∀ (items : List Members) (index : ℕ) (outputs : List GoffyRomFeatureOutput),
    (∀ item ∈ items, MembersAscii item) →
    (∀ item ∈ items, isTrue (get item "included_in_rom0") = true) →
    featureOutputsFrom index items = .ok outputs →
    outputs.map (·.featureIndex) = List.range' index items.length ∧
      outputs.map (·.appPrivateDestructiveToolCount) =
        items.map (fun item => (stringItems (get item "app_private_destructive_tools")).length) ∧
      ∀ f ∈ outputs, f.onPhone.matchesToolContract = true
  | [], index, outputs, _, _, h => by
    obtain rfl := Except.ok.inj h
    exact ⟨rfl, rfl, fun f hf => absurd hf List.not_mem_nil⟩
  | item :: items, index, outputs, hascii, hincluded, h => by
    obtain ⟨output, houtput, h⟩ := Checks.bind_eq_ok.1 h
    obtain ⟨rest, hrest, h⟩ := Checks.bind_eq_ok.1 h
    obtain rfl := Except.ok.inj h
    rw [List.forall_mem_cons] at hascii hincluded
    obtain ⟨f, rfl, hindex, hdestructive, hmatches⟩ := featureOutput_ok hascii.1 hincluded.1 houtput
    obtain ⟨hindices, hcounts, hrestMatches⟩ :=
      featureOutputsFrom_ok items (index + 1) rest hascii.2 hincluded.2 hrest
    refine ⟨?_, ?_, List.forall_mem_cons.2 ⟨hmatches, hrestMatches⟩⟩
    · rw [List.length_cons, List.range'_succ, ← hindices, ← hindex]
      rfl
    · rw [List.map_cons, ← hcounts, ← hdestructive]
      rfl

end Features

/-! ### Answers -/

section Answers

variable {o₀ o : GoffyRomFeaturesOutput} {descriptor : Members} {root : Root}
  {containerStr : Python.Json → Python.Str}

/-- How the parts of an answer fit together, before it is validated. -/
structure GoffyRomFeaturesOutput.Consistent (o : GoffyRomFeaturesOutput) : Prop where
  status : o.status ∈ ["available".toList, "missing".toList, "invalid".toList]
  payloadName : Ascii o.payloadName
  features_length : o.features.length ≤ o.featureCount
  featuresTruncated : o.featuresTruncated = decide (o.features.length < o.featureCount)
  features : ∀ f ∈ o.features, f.onPhone.matchesToolContract = true
  nodup : (o.features.map (·.featureIndex)).Nodup
  destructive : o.appPrivateDestructiveToolsIncluded =
    o.features.any fun f => 0 < f.appPrivateDestructiveToolCount
  blockedRomActions_length : o.blockedRomActions.length ≤ o.blockedRomActionCount
  blockedRomActionsTruncated :
    o.blockedRomActionsTruncated = decide (o.blockedRomActions.length < o.blockedRomActionCount)
  notes : ∀ note ∈ o.notes, Ascii note
  checked : o.checkedFeaturePayload = decide (o.status = "available".toList)
  featureCount : o.status = "available".toList → 0 < o.featureCount

/-- What the phone asks of a list that is shown in part, by its length there. -/
theorem truncated_matches {n shown count : ℕ} {truncated : Bool} (hn : n = shown)
    (hlength : shown ≤ count) (h : truncated = decide (shown < count)) :
    (if truncated then decide ((n : ℤ) < count) else decide ((n : ℤ) = count)) = true := by
  subst h hn
  by_cases hlt : n < count
  · rw [decide_eq_true hlt, if_pos rfl]
    exact decide_eq_true (Int.ofNat_lt.2 hlt)
  · rw [decide_eq_false hlt, if_neg Bool.false_ne_true]
    exact decide_eq_true (congrArg Int.ofNat (le_antisymm hlength (not_lt.1 hlt)))

/-- The phone takes an answer that is consistent and that the validators take. -/
theorem GoffyRomFeaturesOutput.Consistent.matchesToolContract (h : o₀.Consistent)
    (ho : o₀.create = .ok o) : o.onPhone.matchesToolContract = true := by
  unfold GoffyRomFeaturesOutput.create at ho
  simp only [Checks.bind_eq_ok] at ho
  obtain ⟨⟨⟩, -, name, hname, ⟨⟩, hfeatureCount, ⟨⟩, hfeatures, ⟨⟩, htoolCount, ⟨⟩, hpermissions, ⟨⟩,
    hblockedCount, actions, hactions, notes, hnotes, ho⟩ := ho
  obtain rfl := Except.ok.inj ho
  have hinRange : ∀ n : ℕ, validCount n maxFeatureCount = .ok () →
      inRange 0 maxGoffyRomFeatureCount n = true := fun n hn =>
    inRange_iff.2 ⟨Int.natCast_nonneg _, Int.ofNat_le.2 (validCount_eq_ok.1 hn)⟩
  have hstatus : ofChars o₀.status ∈ goffyRomStatusValues :=
    List.mem_map_of_mem (f := ofChars) h.status
  have hnameSafe := isSafeRomStatusField_of_validDisplay h.payloadName (by decide) le_rfl hname
  obtain ⟨hactionsLength, hactionsMax, hactionsOk⟩ := validNames_eq_ok hactions
  obtain ⟨hnotesLength, hnotesMax, hnotesOk⟩ := validNames_eq_ok hnotes
  have hfeaturesMax : (o₀.features.map (·.onPhone)).length ≤ maxGoffyRomFeatures := by
    rw [List.length_map]
    exact validCount_eq_ok.1 hfeatures
  have hfeaturesCount : ((o₀.features.map (·.onPhone)).length : ℤ) ≤ o₀.featureCount := by
    rw [List.length_map]
    exact Int.ofNat_le.2 h.features_length
  have hfeaturesAll : (o₀.features.map (·.onPhone)).all GoffyRomFeature.matchesToolContract = true := by
    rw [List.all_map, List.all_eq_true]
    exact h.features
  have hindices : ((o₀.features.map (·.onPhone)).map (·.featureIndex)).dedup.length =
      (o₀.features.map (·.onPhone)).length := by
    have hmap : (o₀.features.map (·.onPhone)).map (·.featureIndex) =
        (o₀.features.map (·.featureIndex)).map Int.ofNat := by
      rw [List.map_map, List.map_map]
      rfl
    rw [hmap, (h.nodup.map fun _ _ hab => Int.ofNat.inj hab).dedup]
    simp only [List.length_map]
  have hdestructive : o₀.appPrivateDestructiveToolsIncluded =
      (o₀.features.map (·.onPhone)).any fun feature => 0 < feature.appPrivateDestructiveToolCount := by
    rw [h.destructive, List.any_map]
    exact List.any_congr rfl fun f => decide_eq_decide.2 Int.natCast_pos.symm
  have hactionsMax' : (actions.map ofChars).length ≤ maxGoffyRomBlockedActions := by
    rw [List.length_map, hactionsLength]
    exact hactionsMax
  have hactionsCount : ((actions.map ofChars).length : ℤ) ≤ o₀.blockedRomActionCount := by
    rw [List.length_map, hactionsLength]
    exact Int.ofNat_le.2 h.blockedRomActions_length
  have hactionsAll : (actions.map ofChars).all (isMatch (regex false) goffyRomSafeIdentifier ·) = true := by
    refine List.all_eq_true.2 fun u hu => ?_
    obtain ⟨action, haction, rfl⟩ := List.mem_map.1 hu
    obtain ⟨value, -, -, hok⟩ := hactionsOk action haction
    exact isMatch_of_safeIdentifier hok
  have hnotesMax' : (notes.map ofChars).length ≤ maxGoffyRomNotes := by
    rw [List.length_map, hnotesLength]
    exact hnotesMax
  have hnotesAll : (notes.map ofChars).all (isSafeRomStatusField · maxGoffyRomNoteLength) = true := by
    refine List.all_eq_true.2 fun u hu => ?_
    obtain ⟨note, hnote, rfl⟩ := List.mem_map.1 hu
    obtain ⟨value, hvalue, hbounds, hok⟩ := hnotesOk note hnote
    exact isSafeRomStatusField_of_validDisplay (h.notes value hvalue) (by decide) le_rfl
      ((if_pos hbounds).trans hok)
  have hnotesTruncated : (if o₀.notesTruncated then
      decide (((notes.map ofChars).length : ℤ) < maxGoffyRomFeatureCount) else true) = true := by
    split
    · exact decide_eq_true ((Int.ofNat_le.2 hnotesMax').trans_lt (by decide))
    · rfl
  have hword : ∀ w ∈ ["available".toList, "missing".toList, "invalid".toList],
      decide (ofChars w = lit "available") = decide (w = "available".toList) := by decide
  have havailable : (decide (ofChars o₀.status ≠ lit "available") || o₀.checkedFeaturePayload) = true ∧
      (decide (ofChars o₀.status = lit "available") || !o₀.checkedFeaturePayload) = true ∧
      (decide (ofChars o₀.status ≠ lit "available") || decide (0 < (o₀.featureCount : ℤ))) = true := by
    rw [h.checked, decide_not, hword o₀.status h.status]
    by_cases hstatus : o₀.status = "available".toList
    · rw [decide_eq_true hstatus]
      exact ⟨rfl, rfl, decide_eq_true (Int.natCast_pos.2 (h.featureCount hstatus))⟩
    · rw [decide_eq_false hstatus]
      exact ⟨rfl, rfl, rfl⟩
  simp only [GoffyRomFeatures.matchesToolContract, GoffyRomFeaturesOutput.onPhone, Bool.and_eq_true,
    Bool.not_false, and_true, and_assoc]
  obtain ⟨hchecked, hnotChecked, hpositive⟩ := havailable
  refine ⟨decide_eq_true hstatus, hnameSafe, decide_eq_true rfl, decide_eq_true trivial,
    decide_eq_true rfl, decide_eq_true trivial, hinRange _ hfeatureCount, decide_eq_true hfeaturesMax,
    decide_eq_true hfeaturesCount, ?_, hfeaturesAll, decide_eq_true hindices,
    decide_eq_true hdestructive, hinRange _ htoolCount, hinRange _ hpermissions,
    hinRange _ hblockedCount, decide_eq_true hactionsMax', decide_eq_true hactionsCount, ?_,
    hactionsAll, decide_eq_true hnotesMax', hnotesAll, hnotesTruncated, hchecked, hnotChecked, hpositive⟩
  · exact truncated_matches (List.length_map _) h.features_length h.featuresTruncated
  · exact truncated_matches ((List.length_map _).trans hactionsLength) h.blockedRomActions_length
      h.blockedRomActionsTruncated

/-- The loop passes on what it reads; so do the checks around it. -/
theorem featureOutputs_ok {rawFeatures : List Members} {outputs : List GoffyRomFeatureOutput}
    (h : featureOutputs rawFeatures = .ok outputs) :
    featureOutputsFrom 1 rawFeatures = .ok outputs ∧ 0 < outputs.length := by
  unfold featureOutputs at h
  rw [Checks.throw_bind_eq_ok] at h
  obtain ⟨-, h⟩ := h
  simp only [Checks.bind_eq_ok, Checks.throw_bind_eq_ok] at h
  obtain ⟨outputs', houtputs, hne, h⟩ := h
  obtain rfl := Except.ok.inj h
  exact ⟨houtputs, List.length_pos_of_ne_nil fun hnil => hne (List.isEmpty_iff.2 hnil)⟩

/-- One of the features that are shown deletes memories of the user. -/
theorem any_destructive {objects : List Members} {outputs : List GoffyRomFeatureOutput}
    (hcovered : Covered objects)
    (hcounts : outputs.map (·.appPrivateDestructiveToolCount) =
      objects.map (fun item => (stringItems (get item "app_private_destructive_tools")).length)) :
    (outputs.any fun f => 0 < f.appPrivateDestructiveToolCount) = true := by
  obtain ⟨feature, hfeature, htool⟩ := hcovered.destructive
  -- a tool that the script finds is no blank text, so that the Hub counts it
  have hitem : "phone.memory.forget".toList ∈ stringItems (get feature "app_private_destructive_tools") := by
    unfold stringList listValue at htool
    split at htool
    case h_1 items hitems =>
      rw [hitems]
      obtain ⟨item, hmem, hsome⟩ := List.mem_filterMap.1 htool
      refine List.mem_filterMap.2 ⟨item, hmem, ?_⟩
      split at hsome
      · obtain rfl := Option.some.inj hsome
        decide
      · cases hsome
    · exact absurd htool List.not_mem_nil
  have hmem : (stringItems (get feature "app_private_destructive_tools")).length ∈
      outputs.map (·.appPrivateDestructiveToolCount) := by
    rw [hcounts]
    exact List.mem_map.2 ⟨feature, hfeature, rfl⟩
  obtain ⟨f, hf, hcount⟩ := List.mem_map.1 hmem
  refine List.any_eq_true.2 ⟨f, hf, decide_eq_true ?_⟩
  rw [hcount]
  exact List.length_pos_of_mem hitem

/-- An answer about a payload of texts of ASCII. -/
theorem matchesToolContract_of_availableFeatures (hdescriptor : MembersAscii descriptor)
    (h : availableFeatures containerStr root descriptor = .ok o) :
    o.onPhone.matchesToolContract = true := by
  have hget : ∀ key, ∀ j ∈ get descriptor key, JsonAscii j := fun key j hj => hdescriptor.get hj
  unfold availableFeatures at h
  simp only [Checks.bind_eq_ok] at h
  obtain ⟨⟨⟩, hcontract, ⟨⟩, -, outputs, houtputs, actions, hactions, notes, hnotes, name, hname, ho⟩ := h
  have hfindings : validateRomFeaturePayload containerStr root.repository descriptor = some [] := by
    unfold validateFullFeaturePayloadContract at hcontract
    split at hcontract
    · cases hcontract
    · split at hcontract
      · assumption
      · cases hcontract
  obtain ⟨hflag, objects, hfeatures, hcovered⟩ := payload_of_no_findings hfindings
  have hobjects : featureObjects (listValue (get descriptor "features")) = objects := by
    rw [hfeatures]
    unfold featureObjects
    rw [List.filterMap_map]
    exact List.filterMap_some
  have hascii : ∀ item ∈ objects, MembersAscii item := by
    intro item hitem
    have hmem : Python.Json.object item ∈ listValue (get descriptor "features") := by
      rw [hfeatures]
      exact List.mem_map_of_mem hitem
    unfold listValue at hmem
    split at hmem
    case h_1 items hitems =>
      have hitems' := hget _ _ hitems
      rw [JsonAscii] at hitems'
      have hjson := hitems'.of_mem hmem
      rwa [JsonAscii] at hjson
    · exact absurd hmem List.not_mem_nil
  rw [hobjects] at houtputs
  obtain ⟨hloop, hpositive⟩ := featureOutputs_ok houtputs
  obtain ⟨hindices, hcounts, hmatches⟩ :=
    featureOutputsFrom_ok objects 1 outputs hascii hcovered.included hloop
  have hlength : outputs.length = 8 := by
    have hlengths := congrArg List.length hindices
    rw [List.length_map, List.length_range', hcovered.length_eq] at hlengths
    exact hlengths
  -- all features are shown
  have htake : outputs.take maxFeatures = outputs := List.take_of_length_le hlength.le
  refine GoffyRomFeaturesOutput.Consistent.matchesToolContract ?_ ho
  exact {
    status := List.mem_cons_self
    payloadName := ascii_safeDisplayText
      (ascii_rom_textValue (hget _) (ascii_ofList (by decide))) hname
    features_length := List.length_take_le' _ _
    featuresTruncated := by
      show decide (maxFeatures < outputs.length) = decide ((outputs.take maxFeatures).length < outputs.length)
      rw [htake, hlength]
      rfl
    features := fun f hf => hmatches f (List.mem_of_mem_take hf)
    nodup := by
      show ((outputs.take maxFeatures).map (·.featureIndex)).Nodup
      rw [htake, hindices]
      exact List.nodup_range'
    destructive := by
      show Rom.isTrue _ = (outputs.take maxFeatures).any _
      rw [htake, hflag, any_destructive hcovered hcounts]
    blockedRomActions_length := List.length_take_le' _ _
    blockedRomActionsTruncated := by
      show decide (maxBlockedActions < actions.eraseDups.length) =
        decide ((actions.eraseDups.take maxBlockedActions).length < actions.eraseDups.length)
      rw [List.length_take]
      exact decide_eq_decide.2 ⟨fun hlt => (min_le_left _ _).trans_lt hlt, fun hlt => by omega⟩
    notes := by
      intro note hnote
      have hmem := List.mem_eraseDups.1 (List.mem_of_mem_take hnote)
      obtain ⟨value, hvalue, hok⟩ := Checks.exists_of_mem_mapM hnotes hmem
      exact ascii_safeDisplayText (ascii_stringItems (hget _) value hvalue) hok
    checked := rfl
    featureCount := fun _ => hpositive }

end Answers

/-! ### The tool -/

/-- The Hub answers, and the phone takes the answer. -/
def FeaturesAccepted (x : Except RomError GoffyRomFeaturesOutput) : Prop :=
  ∃ o, x = .ok o ∧ o.onPhone.matchesToolContract = true

theorem withoutFeatures_accepted {status note : String} (hstatus : status ∈ ["missing", "invalid"])
    (hnote : validNames [note.toList] maxNotes maxNoteLength
      (fun note => safeDisplayText note maxNoteLength) = .ok [note.toList])
    (hascii : Ascii note.toList) : FeaturesAccepted (withoutFeatures status note).create := by
  have hword : ∀ w ∈ ["missing", "invalid"], w.toList ≠ "available".toList ∧
      w.toList ∈ ["available".toList, "missing".toList, "invalid".toList] := by decide
  obtain ⟨hne, hmem⟩ := hword status hstatus
  have hconsistent : (withoutFeatures status note).Consistent := {
    status := hmem
    payloadName := ascii_ofList (by decide)
    features_length := le_rfl
    featuresTruncated := rfl
    features := fun f hf => absurd hf List.not_mem_nil
    nodup := List.nodup_nil
    destructive := rfl
    blockedRomActions_length := le_rfl
    blockedRomActionsTruncated := rfl
    notes := List.forall_mem_singleton.2 hascii
    checked := (decide_eq_false hne).symm
    featureCount := fun h => absurd h hne }
  have hname : validDisplay "GOFFY ROM-0 Payload".toList maxPayloadNameLength maxPayloadNameLength =
      .ok "GOFFY ROM-0 Payload".toList := by
    rw [String.toList_ofList]
    decide +kernel
  have hliteral : validLiteral status.toList ["available", "missing", "invalid"] = .ok () :=
    validLiteral_eq_ok.2 hmem
  have hcreate : (withoutFeatures status note).create = .ok (withoutFeatures status note) := by
    unfold GoffyRomFeaturesOutput.create
    simp only [withoutFeatures, hliteral, hname, hnote, Checks.ok_bind]
    rfl
  exact ⟨_, hcreate, hconsistent.matchesToolContract hcreate⟩

/-- A note that the validator leaves as it is. -/
theorem validNote_ofList {l : List Char} (hlength : 1 ≤ l.length ∧ l.length ≤ maxNoteLength)
    (h : safeDisplayText l maxNoteLength = .ok l) :
    validNames [(String.ofList l).toList] maxNotes maxNoteLength
      (fun note => safeDisplayText note maxNoteLength) = .ok [(String.ofList l).toList] := by
  rw [String.toList_ofList]
  have hbounds : ¬ (maxNotes < [l].length ∨
      ∃ value ∈ [l], ¬ (1 ≤ value.length ∧ value.length ≤ maxNoteLength)) := by
    rintro (hcount | ⟨value, hvalue, hnot⟩)
    · exact absurd (List.length_singleton ▸ hcount) (by decide)
    · exact hnot (List.mem_singleton.1 hvalue ▸ hlength)
  rw [validNames, if_neg hbounds]
  simp only [List.mapM_cons, List.mapM_nil, h]
  rfl

theorem missingFeatures_accepted : FeaturesAccepted missingFeatures :=
  withoutFeatures_accepted (by decide) (validNote_ofList (by decide) (by decide +kernel))
    (ascii_ofList (by decide))

/-- The notes of the three invalid answers. -/
theorem invalidFeatures_accepted {note : String}
    (hnote : note ∈ ["GOFFY ROM feature directory is not a regular local directory",
      "GOFFY ROM feature payload is not a regular local artifact",
      "GOFFY ROM feature payload contains unsafe or unsupported fields"]) :
    FeaturesAccepted (invalidFeatures note) := by
  simp only [List.mem_cons, List.not_mem_nil, or_false] at hnote
  rcases hnote with rfl | rfl | rfl
  all_goals
    exact withoutFeatures_accepted (by decide) (validNote_ofList (by decide) (by decide +kernel))
      (ascii_ofList (by decide))

/-- **The features of ROM-0.** Where the texts of the payload are of ASCII, the Hub answers, and the phone
takes the answer, whatever else is in the repository. -/
theorem goffyRomFeaturesSnapshot_accepted (containerStr : Python.Json → Python.Str) (root : Root)
    (hdescriptor : root.descriptor.IsAscii) :
    FeaturesAccepted (goffyRomFeaturesSnapshot containerStr root) := by
  unfold goffyRomFeaturesSnapshot
  split
  · exact invalidFeatures_accepted (by decide)
  · generalize root.descriptor = descriptor at hdescriptor
    cases descriptor with
    | missing => exact missingFeatures_accepted
    | notRegular => exact invalidFeatures_accepted (by decide)
    | unreadable => exact invalidFeatures_accepted (by decide)
    | object descriptor =>
      dsimp only
      split
      case h_1 o ho => exact ⟨o, rfl, matchesToolContract_of_availableFeatures hdescriptor ho⟩
      · exact invalidFeatures_accepted (by decide)

/-! ### A payload -/

/-- A list of texts. -/
def texts (ts : List String) : Json := .array (ts.map fun t => .str t.toList)

/-- A feature of the payload. -/
def demoFeature (id : String) (targets permissions tools destructiveTools : List String) : Json := .object [
  ("id".toList, .str id.toList), ("title".toList, .str "Feature".toList),
  ("included_in_rom0".toList, .bool true), ("execution_targets".toList, texts targets),
  ("android_permissions".toList, texts permissions), ("mcp_tools".toList, texts tools),
  ("app_private_destructive_tools".toList, texts destructiveTools),
  ("privileged_required".toList, .bool false), ("background_access".toList, .bool false),
  ("rom_destructive_action".toList, .bool false), ("foreground_only".toList, .bool true),
  ("source_module".toList, .str "a".toList), ("runtime_policy".toList, .str "foreground".toList),
  ("audit_policy".toList, .str "audited".toList)]

def demoFeatures : List Json := [
  demoFeature "agent_loop_timeline" ["PHONE", "MAC", "CLOUD"] [] [] [],
  demoFeature "charging_dock_awake" ["PHONE"] [] [] [],
  demoFeature "foreground_voice_camera" ["PHONE"]
    ["android.permission.CAMERA", "android.permission.RECORD_AUDIO"] ["phone.ocr.read", "phone.qr.read"] [],
  demoFeature "home_surface" ["PHONE"] [] ["phone.device.info"] [],
  demoFeature "local_intent_fallback" ["PHONE"] [] [] [],
  demoFeature "phone_tools" ["PHONE"]
    ["android.permission.CAMERA", "com.android.alarm.permission.SET_ALARM"] phoneTools
    ["phone.memory.forget", "phone.memory.forget_all"],
  demoFeature "rom_status" ["MAC"] [] romTools [],
  demoFeature "secure_mac_hub" ["MAC"] ["android.permission.INTERNET"] (romTools ++ ["mac.system_info"]) []]

def demoPayload : Members := [
  ("schema_version".toList, .str supportedSchema), ("payload_name".toList, .str "Payload".toList),
  ("target_stage".toList, .str "ROM-0".toList),
  ("default_performance_mode".toList, .str "GOFFY LITE".toList),
  ("rom0_flashable".toList, .bool false), ("privileged".toList, .bool false),
  ("platform_signed".toList, .bool false), ("rom_destructive_actions_included".toList, .bool false),
  ("app_private_destructive_tools_included".toList, .bool true),
  ("requires_user_selected_home".toList, .bool true),
  ("local_model_policy".toList, .str "disabled_by_default_observe_only".toList),
  ("source_basis".toList, texts requiredSourceBasisMarkers),
  ("blocked_rom_actions".toList, texts ["background_camera", "background_microphone", "disable_verity",
    "flash_image", "platform_signing", "privileged_permission_grants", "reboot_bootloader", "root_or_su",
    "unlock_bootloader", "unrestricted_shell", "wipe_data"]),
  ("notes".toList, texts ["A note"]),
  ("system_app_descriptor".toList, .str "b".toList), ("product_overlay_descriptor".toList, .str "c".toList),
  ("features".toList, .array demoFeatures)]

def demoSystemApp : Members := [
  ("schema_version".toList, .str systemAppSchemaVersion), ("module_name".toList, .str "GoffyOS".toList),
  ("privileged".toList, .bool false), ("platform_signed".toList, .bool false),
  ("privileged_permission_allowlist".toList, .array []),
  ("home_surface".toList, .object [("policy".toList, .str "user_selectable_default_home".toList)])]

def demoProductOverlay : Members := [
  ("schema_version".toList, .str productOverlaySchemaVersion),
  ("required_module".toList, .str "GoffyOS".toList), ("flashable".toList, .bool false),
  ("destructive_actions_included".toList, .bool false)]

def demoRepository : Repository where
  entry path :=
    if path = ["a".toList] then .directory
    else if path = ["b".toList] then .file (some (.object demoSystemApp))
    else if path = ["c".toList] then .file (some (.object demoProductOverlay))
    else .missing
  androidToolNames := some (phoneTools.flatMap fun tool =>
    "const val PHONE_A_TOOL = \"".toList ++ tool.toList ++ "\"\n".toList)

def demoRoot : Root := ⟨false, .object demoPayload, true, demoRepository⟩

theorem ascii_texts {ts : List String} (h : ∀ t ∈ ts, Ascii t.toList) : JsonAscii (texts ts) := by
  rw [texts, JsonAscii]
  induction ts with
  | nil => exact trivial
  | cons t ts ih =>
    rw [List.forall_mem_cons] at h
    rw [List.map_cons, ItemsAscii, JsonAscii]
    exact ⟨h.1, ih h.2⟩

theorem ascii_demoFeature {id : String} {targets permissions tools destructiveTools : List String}
    (h : ∀ t ∈ id :: targets ++ permissions ++ tools ++ destructiveTools, Ascii t.toList) :
    JsonAscii (demoFeature id targets permissions tools destructiveTools) := by
  simp only [List.mem_append, List.mem_cons, or_imp, forall_and, forall_eq] at h
  obtain ⟨⟨⟨⟨hid, htargets⟩, hpermissions⟩, htools⟩, hdestructive⟩ := h
  have hword : ∀ t ∈ ["Feature", "a", "foreground", "audited"], Ascii t.toList := by decide
  simp only [demoFeature, JsonAscii, MembersAscii]
  exact ⟨hid, hword _ (by decide), trivial, ascii_texts htargets, ascii_texts hpermissions,
    ascii_texts htools, ascii_texts hdestructive, trivial, trivial, trivial, trivial,
    hword _ (by decide), hword _ (by decide), hword _ (by decide), trivial⟩

theorem forall_ascii_cons {l : List Char} {ts : List String} (hl : Ascii l)
    (hts : ∀ t ∈ ts, Ascii t.toList) : ∀ t ∈ String.ofList l :: ts, Ascii t.toList :=
  List.forall_mem_cons.2 ⟨ascii_ofList hl, hts⟩

theorem isAscii_demoRoot : demoRoot.descriptor.IsAscii := by
  have hfeatures : JsonAscii (.array demoFeatures) := by
    rw [JsonAscii]
    simp only [demoFeatures, ItemsAscii]
    refine ⟨ascii_demoFeature ?_, ascii_demoFeature ?_, ascii_demoFeature ?_, ascii_demoFeature ?_,
      ascii_demoFeature ?_, ascii_demoFeature ?_, ascii_demoFeature ?_, ascii_demoFeature ?_, trivial⟩
    all_goals
      repeat refine forall_ascii_cons (by decide +kernel) ?_
      exact List.forall_mem_nil _
  have hword : ∀ t ∈ ["goffy.rom-feature-payload.v1", "Payload", "ROM-0", "GOFFY LITE",
      "disabled_by_default_observe_only", "b", "c"], JsonAscii (.str t.toList) := by
    simp only [JsonAscii]
    repeat refine forall_ascii_cons (by decide +kernel) ?_
    exact List.forall_mem_nil _
  simp only [demoRoot, Artifact.IsAscii, demoPayload, MembersAscii]
  refine ⟨hword _ ?_, hword _ ?_, hword _ ?_, hword _ ?_, ?_, ?_, ?_, ?_, ?_, ?_, hword _ ?_, ascii_texts ?_,
    ascii_texts ?_, ascii_texts ?_, hword _ ?_, hword _ ?_, hfeatures, trivial⟩
  case refine_5 | refine_6 | refine_7 | refine_8 | refine_9 | refine_10 =>
    rw [JsonAscii]
    trivial
  case refine_12 | refine_13 | refine_14 =>
    repeat refine forall_ascii_cons (by decide +kernel) ?_
    exact List.forall_mem_nil _
  all_goals decide +kernel

/-- The phone takes the answer about this payload. -/
theorem demo_payload_is_accepted : demoRoot.descriptor.IsAscii ∧
    FeaturesAccepted (goffyRomFeaturesSnapshot (fun _ => []) demoRoot) :=
  ⟨isAscii_demoRoot, goffyRomFeaturesSnapshot_accepted (fun _ => []) demoRoot isAscii_demoRoot⟩

end GoffyHub.RomFeatures
