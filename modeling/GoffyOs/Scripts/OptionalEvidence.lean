import GoffyOs.Scripts.EvidenceInOrder

/-!
# Optional evidence (`scripts/refresh_rom0_action_packet.py`)

A refresh loads the evidence that it finds. What the check of a file refuses is an invalid input of the
packet, and so is a file whose check raises an `OSError` or a `ValueError`; any other exception ends the
refresh.
-/

namespace GoffyScripts

open Python
open GoffyHub.Rom (Members get isTrue)

/-- `EvidenceStatus`. -/
inductive EvidenceStatus
  | loaded
  | missing
  | invalid
  deriving DecidableEq

structure EvidenceInput where
  name : Str
  path : Str
  status : EvidenceStatus
  detail : Str
  deriving DecidableEq

/-- The answer of `confined_existing_evidence_path`: the text of its `ValueError`, no path, or one. -/
inductive EvidencePath
  | refused (message : Str)
  | absent
  | found (file : EvidenceFile)

/-- The evidence of a section, or a `ValueError` with its blockers. -/
def acceptedEvidence (noEvidence : Str) (section? : Except Raised ReadinessSection) :
    Except Raised (List (Str × Str)) := do
  let s ← section?
  if s.ok = false then throw (.valueError ("; ".toList.intercalate s.blockers))
  match s.evidence with
  | some evidence => return evidence
  | none => throw (.valueError noEvidence)

section

variable (beyond : Char → Bool) (lib : Library)

/-- `load_gsi_candidate_evidence`. -/
def loadGsiCandidateEvidence (file : EvidenceFile) : Except Raised (List (Str × Str)) :=
  acceptedEvidence "GSI candidate evidence did not include accepted evidence".toList
    (Gsi.validateGsiCandidateEvidence lib file)

/-- `load_fastboot_evidence`. -/
def loadFastbootEvidence (file : EvidenceFile) : Except Raised (List (Str × Str)) :=
  acceptedEvidence "fastboot evidence did not include accepted evidence".toList
    (validateFastbootFile beyond lib.containerStr false file)

theorem loadGsiCandidateEvidence_eq : loadGsiCandidateEvidence lib = fun file =>
    acceptedEvidence "GSI candidate evidence did not include accepted evidence".toList
      (Gsi.validateGsiCandidateEvidence lib file) := rfl

theorem loadFastbootEvidence_eq : loadFastbootEvidence beyond lib = fun file =>
    acceptedEvidence "fastboot evidence did not include accepted evidence".toList
      (validateFastbootFile beyond lib.containerStr false file) := rfl

/-- `load_optional_evidence`. -/
def loadOptionalEvidence (name display : Str) (path : EvidencePath)
    (loader : EvidenceFile → Except Raised (List (Str × Str))) :
    Except Raised (Option (List (Str × Str)) × EvidenceInput) :=
  match path with
  | .refused message => .ok (none, ⟨name, display, .invalid, Fastboot.redactPaths beyond message⟩)
  | .absent => .ok (none, ⟨name, display, .missing, "not present".toList⟩)
  | .found file =>
    match loader file with
    | .ok evidence => .ok (some evidence, ⟨name, display, .loaded, "validated and consumed".toList⟩)
    | .error e =>
      match e.caught with
      | some message => .ok (none, ⟨name, display, .invalid, Fastboot.redactPaths beyond message⟩)
      | none => .error e

end

/-- The file holds evidence in order: it is there, it is read as an object, and nothing in it is malformed. -/
def Holds (InOrder : Members → Prop) (file : EvidenceFile) : Prop :=
  ∃ payload, file = some (.ok payload) ∧ InOrder payload

/-- The section of a file: it is in order if and only if the evidence is, and has blockers otherwise. -/
structure Reports (InOrder : Members → Prop) (file : EvidenceFile) (s : ReadinessSection) : Prop where
  ok_iff : s.ok = true ↔ Holds InOrder file
  blockers_iff : s.blockers = [] ↔ Holds InOrder file

/-- The file is classified: it is loaded if its evidence is in order, and an invalid input otherwise. -/
def Classifies (answer : Except Raised (Option (List (Str × Str)) × EvidenceInput))
    (InOrder : Members → Prop) (file : EvidenceFile) : Prop :=
  ∃ evidence input, answer = .ok (evidence, input) ∧ (input.status = .loaded ↔ Holds InOrder file) ∧
    (input.status = .invalid ↔ ¬ Holds InOrder file)

/-- The check accepts the file. -/
def Accepted (section? : Except Raised ReadinessSection) : Prop := ∃ s, section? = .ok s ∧ s.ok = true

theorem accepted_ok_iff {s : ReadinessSection} : Accepted (.ok s) ↔ s.ok = true := by
  constructor
  · rintro ⟨s', h, hok⟩
    cases h
    exact hok
  · exact fun hok => ⟨s, rfl, hok⟩

section Classifies

variable {beyond : Char → Bool} {lib : Library} {name display : Str} {file : EvidenceFile}

/-- A file is classified if and only if what its check raises is caught. -/
theorem classifies_iff {noEvidence : Str} {check : EvidenceFile → Except Raised ReadinessSection}
    {InOrder : Members → Prop} (haccepted : Accepted (check file) ↔ Holds InOrder file)
    (hevidence : ∀ s, check file = .ok s → s.ok = true → s.evidence.isSome = true) :
    Classifies (loadOptionalEvidence beyond name display (.found file)
        fun file => acceptedEvidence noEvidence (check file)) InOrder file ↔
      ¬ ∃ e, check file = .error e ∧ e.caught = none := by
  rw [Classifies, loadOptionalEvidence, ← haccepted]
  cases hcheck : check file with
  | error e =>
    have hloader : acceptedEvidence noEvidence (.error e) = .error e := rfl
    have hrefused : ¬ Accepted (.error e) := by
      rintro ⟨s, h, -⟩
      cases h
    rw [hloader]
    dsimp only
    cases hcaught : e.caught with
    | some message =>
      refine iff_of_true ⟨_, _, rfl, iff_of_false (fun h => nomatch h) hrefused, iff_of_true rfl hrefused⟩ ?_
      rintro ⟨e', he', hnone⟩
      cases he'
      rw [hcaught] at hnone
      cases hnone
    | none =>
      refine iff_of_false ?_ fun h => h ⟨e, rfl, hcaught⟩
      rintro ⟨_, _, h, -⟩
      cases h
  | ok s =>
    refine iff_of_true ?_ (by rintro ⟨_, h, -⟩; cases h)
    cases hok : s.ok with
    | false =>
      have hloader : acceptedEvidence noEvidence (.ok s) =
          .error (.valueError ("; ".toList.intercalate s.blockers)) := by
        rw [acceptedEvidence, Checks.ok_bind, if_pos hok]
        rfl
      have hrefused : ¬ Accepted (.ok s) := by
        rw [accepted_ok_iff, hok]
        decide
      rw [hloader]
      exact ⟨_, _, rfl, iff_of_false (fun h => nomatch h) hrefused, iff_of_true rfl hrefused⟩
    | true =>
      obtain ⟨evidence, hsome⟩ := Option.isSome_iff_exists.1 (hevidence s hcheck hok)
      have hloader : acceptedEvidence noEvidence (.ok s) = .ok evidence := by
        rw [acceptedEvidence, Checks.ok_bind, if_neg (by rw [hok]; decide), hsome]
        rfl
      have haccepted : Accepted (.ok s) := accepted_ok_iff.2 hok
      rw [hloader]
      exact ⟨_, _, rfl, iff_of_true rfl haccepted, iff_of_false (fun h => nomatch h) fun h => h haccepted⟩

/-- The section of a file that is not read into a payload is not in order. -/
theorem validateFile_cases {n missing : Str} {validate : Members → Except Raised ReadinessSection}
    {s : ReadinessSection} (h : validateFile n missing validate file = .ok s) :
    (s.ok = false ∧ s.blockers ≠ []) ∨ ∃ payload, file = some (.ok payload) ∧ validate payload = .ok s := by
  match file with
  | none =>
    cases h
    exact Or.inl ⟨rfl, List.cons_ne_nil _ _⟩
  | some (.ok payload) => exact Or.inr ⟨payload, rfl, h⟩
  | some (.error e) =>
    rw [validateFile] at h
    split at h
    · cases h
      exact Or.inl ⟨rfl, List.cons_ne_nil _ _⟩
    · cases h

/-- A file is accepted if and only if its evidence is in order, when that holds of every payload. -/
theorem accepted_validateFile_iff {n missing : Str} {validate : Members → Except Raised ReadinessSection}
    {InOrder : Members → Prop} (hpayload : ∀ payload, Accepted (validate payload) ↔ InOrder payload) :
    Accepted (validateFile n missing validate file) ↔ Holds InOrder file := by
  constructor
  · rintro ⟨s, h, hok⟩
    rcases validateFile_cases h with ⟨hfalse, -⟩ | ⟨payload, hfile, hvalidate⟩
    · rw [hfalse] at hok
      cases hok
    · exact ⟨payload, hfile, (hpayload payload).1 ⟨s, hvalidate, hok⟩⟩
  · rintro ⟨payload, rfl, h⟩
    exact (hpayload payload).2 h

/-- What is raised, by the reading or by the check. -/
theorem validateFile_raises_iff {n missing : Str} {validate : Members → Except Raised ReadinessSection} :
    (∃ e, validateFile n missing validate file = .error e ∧ e.caught = none) ↔
      ¬ Readable file ∨
        ∃ payload, file = some (.ok payload) ∧ ∃ e, validate payload = .error e ∧ e.caught = none := by
  match file with
  | none =>
    refine iff_of_false (by rintro ⟨_, h, -⟩; cases h) ?_
    rintro (h | ⟨_, h, -⟩)
    · exact h fun _ h => nomatch h
    · cases h
  | some (.ok payload) =>
    constructor
    · exact fun h => Or.inr ⟨payload, rfl, h⟩
    · rintro (h | ⟨_, h, hraises⟩)
      · exact absurd (fun _ h => nomatch h) h
      · cases h
        exact hraises
  | some (.error e) =>
    rw [validateFile]
    cases hcaught : e.caught with
    | some message =>
      refine iff_of_false (by rintro ⟨_, h, -⟩; cases h) ?_
      rintro (h | ⟨_, h, -⟩)
      · refine h fun e' heq => ?_
        cases heq
        rw [hcaught]
        rfl
      · cases h
    | none =>
      refine iff_of_true ⟨e, rfl, hcaught⟩ (Or.inl fun h => ?_)
      have := h e rfl
      rw [hcaught] at this
      cases this

end Classifies

/-! ### The checks of a file -/

/-- What the checks of an evidence file are for: each of them returns a section, with blockers unless the
evidence is in order, and a refresh classifies the file. -/
structure ChecksReturn (beyond : Char → Bool) (lib : Library) (file : EvidenceFile) : Prop where
  probe : ∃ s, validateProbeEvidence lib.containerStr file = .ok s ∧
    Reports (Probe.InOrder lib.containerStr) file s
  fastboot : ∀ required, ∃ s, validateFastbootFile beyond lib.containerStr required file = .ok s ∧
    Reports (Fastboot.PayloadInOrder beyond lib.containerStr · required) file s
  gsi : ∃ s, Gsi.validateGsiCandidateEvidence lib file = .ok s ∧ Reports (Gsi.InOrder lib) file s
  fastboot_classified : ∀ name display,
    Classifies (loadOptionalEvidence beyond name display (.found file) (loadFastbootEvidence beyond lib))
      (Fastboot.PayloadInOrder beyond lib.containerStr · false) file
  gsi_classified : ∀ name display,
    Classifies (loadOptionalEvidence beyond name display (.found file) (loadGsiCandidateEvidence lib))
      (Gsi.InOrder lib) file

section Checks

variable {beyond : Char → Bool} {lib : Library} {name display : Str} {file : EvidenceFile}
  {payload : Members}

/-- The artifact of a payload. -/
abbrev artifactOf (lib : Library) (payload : Members) : Gsi.Texts := Gsi.part lib payload "artifact"

theorem probe_accepted_iff :
    Accepted (validateProbeEvidence lib.containerStr file) ↔ Holds (Probe.InOrder lib.containerStr) file := by
  rw [validateProbeEvidence]
  refine accepted_validateFile_iff fun payload => ?_
  rw [accepted_ok_iff, ← Probe.blockers_eq_nil_iff]
  exact List.isEmpty_iff

theorem fastboot_accepted_iff {required : Bool} :
    Accepted (validateFastbootFile beyond lib.containerStr required file) ↔
      Holds (Fastboot.PayloadInOrder beyond lib.containerStr · required) file := by
  rw [validateFastbootFile]
  refine accepted_validateFile_iff fun payload => ?_
  rw [accepted_ok_iff, ok_validateFastbootEvidence, List.isEmpty_iff, Fastboot.blockers_eq_nil_iff]

theorem gsi_accepted_iff :
    Accepted (Gsi.validateGsiCandidateEvidence lib file) ↔ Holds (Gsi.InOrder lib) file :=
  accepted_validateFile_iff fun _ => Gsi.validateGsiPayload_ok_iff

/-- A section is in order if and only if it has no blockers, when that holds of a payload's. -/
theorem ok_iff_of_validateFile {n missing : Str} {validate : Members → Except Raised ReadinessSection}
    (hpayload : ∀ payload s, validate payload = .ok s → (s.ok = true ↔ s.blockers = []))
    {s : ReadinessSection} (h : validateFile n missing validate file = .ok s) :
    s.ok = true ↔ s.blockers = [] := by
  rcases validateFile_cases h with ⟨hok, hblockers⟩ | ⟨payload, -, hvalidate⟩
  · exact iff_of_false (by rw [hok]; decide) hblockers
  · exact hpayload payload s hvalidate

/-- The section that a check returns. -/
theorem reports_of_accepted {InOrder : Members → Prop} {section? : Except Raised ReadinessSection}
    {s : ReadinessSection} (haccepted : Accepted section? ↔ Holds InOrder file) (h : section? = .ok s)
    (hblockers : s.ok = true ↔ s.blockers = []) : Reports InOrder file s := by
  have hok : s.ok = true ↔ Holds InOrder file := by
    rw [← haccepted, h, accepted_ok_iff]
  exact ⟨hok, hblockers.symm.trans hok⟩

theorem probe_returns_iff :
    (∃ s, validateProbeEvidence lib.containerStr file = .ok s ∧
      Reports (Probe.InOrder lib.containerStr) file s) ↔ Readable file := by
  have hok : ∀ s, validateProbeEvidence lib.containerStr file = .ok s →
      (s.ok = true ↔ s.blockers = []) := by
    intro s h
    rw [validateProbeEvidence] at h
    refine ok_iff_of_validateFile ?_ h
    intro payload s h
    have hs : Probe.validatePayload lib.containerStr payload = s := Except.ok.inj h
    rw [← hs]
    exact List.isEmpty_iff
  constructor
  · rintro ⟨s, h, -⟩
    exact (validateFile_returns_iff.1 ⟨s, h⟩).1
  · intro h
    obtain ⟨s, hs⟩ := validateFile_returns_iff.2 ⟨h, fun _ _ => ⟨_, rfl⟩⟩
    exact ⟨s, hs, reports_of_accepted probe_accepted_iff hs (hok s hs)⟩

theorem fastboot_returns_iff {required : Bool} :
    (∃ s, validateFastbootFile beyond lib.containerStr required file = .ok s ∧
      Reports (Fastboot.PayloadInOrder beyond lib.containerStr · required) file s) ↔ Readable file := by
  have hok : ∀ s, validateFastbootFile beyond lib.containerStr required file = .ok s →
      (s.ok = true ↔ s.blockers = []) := by
    intro s h
    rw [validateFastbootFile] at h
    refine ok_iff_of_validateFile ?_ h
    intro payload s h
    have hs : Fastboot.validateFastbootEvidence beyond lib.containerStr (some (.ok payload)) required = s :=
      Except.ok.inj h
    rw [← hs, Fastboot.blockers_validateFastbootEvidence, Fastboot.eraseDups_eq_nil_iff,
      ok_validateFastbootEvidence, List.isEmpty_iff]
  constructor
  · rintro ⟨s, h, -⟩
    exact (validateFile_returns_iff.1 ⟨s, h⟩).1
  · intro h
    obtain ⟨s, hs⟩ := validateFile_returns_iff.2 ⟨h, fun _ _ => ⟨_, rfl⟩⟩
    exact ⟨s, hs, reports_of_accepted fastboot_accepted_iff hs (hok s hs)⟩

theorem gsi_returns_iff :
    (∃ s, Gsi.validateGsiCandidateEvidence lib file = .ok s ∧ Reports (Gsi.InOrder lib) file s) ↔
      Readable file ∧ ∀ payload, file = some (.ok payload) → Gsi.GsiReadable lib payload := by
  simp only [← Gsi.validateGsiPayload_returns_iff]
  constructor
  · rintro ⟨s, h, -⟩
    exact validateFile_returns_iff.1 ⟨s, h⟩
  · intro h
    obtain ⟨s, hs⟩ := validateFile_returns_iff.2 h
    exact ⟨s, hs, reports_of_accepted gsi_accepted_iff hs
      (ok_iff_of_validateFile (fun payload s => Gsi.ok_validateGsiPayload) hs)⟩

theorem fastboot_classified_iff :
    Classifies (loadOptionalEvidence beyond name display (.found file) (loadFastbootEvidence beyond lib))
      (Fastboot.PayloadInOrder beyond lib.containerStr · false) file ↔ Readable file := by
  have hevidence : ∀ s, validateFastbootFile beyond lib.containerStr false file = .ok s → s.ok = true →
      s.evidence.isSome = true := by
    intro s h hok
    rcases validateFile_cases h with ⟨hfalse, -⟩ | ⟨payload, -, hvalidate⟩
    · rw [hfalse] at hok
      cases hok
    · cases hvalidate
      rfl
  rw [loadFastbootEvidence_eq, classifies_iff fastboot_accepted_iff hevidence, validateFastbootFile,
    validateFile_raises_iff, not_or, not_not]
  refine and_iff_left ?_
  rintro ⟨_, -, _, h, -⟩
  cases h

theorem gsi_classified_iff :
    Classifies (loadOptionalEvidence beyond name display (.found file) (loadGsiCandidateEvidence lib))
      (Gsi.InOrder lib) file ↔
    Readable file ∧ ∀ payload, file = some (.ok payload) →
      Gsi.ByteCountInOrder (textOf (artifactOf lib payload) "byte_count") →
        Gsi.FamilyInOrder (textOf (artifactOf lib payload) "artifact_name") := by
  have hevidence : ∀ s, Gsi.validateGsiCandidateEvidence lib file = .ok s → s.ok = true →
      s.evidence.isSome = true := by
    intro s h hok
    rcases validateFile_cases h with ⟨hfalse, -⟩ | ⟨payload, -, hvalidate⟩
    · rw [hfalse] at hok
      cases hok
    · obtain ⟨_, -, hvalidate⟩ := Checks.bind_eq_ok.1 hvalidate
      obtain ⟨_, -, hvalidate⟩ := Checks.bind_eq_ok.1 hvalidate
      obtain ⟨_, -, hvalidate⟩ := Checks.bind_eq_ok.1 hvalidate
      cases hvalidate
      rfl
  rw [loadGsiCandidateEvidence_eq, classifies_iff gsi_accepted_iff hevidence,
    Gsi.validateGsiCandidateEvidence, validateFile_raises_iff, not_or, not_not]
  simp only [Gsi.validateGsiPayload_uncaught_iff, not_exists, not_and, not_not]

/-- **The checks of evidence.** They return a section for every file, with blockers unless its evidence is
in order, and a refresh classifies the file, if and only if the file can be read and the number, the family
and the URLs of a GSI candidate can. The refresh alone needs less: it catches what the number and the URLs
raise. -/
theorem evidence_checks_return_iff (file : EvidenceFile) :
    (ChecksReturn beyond lib file ↔
      Readable file ∧ ∀ payload, file = some (.ok payload) → Gsi.GsiReadable lib payload) ∧
    ((∀ name display,
        Classifies (loadOptionalEvidence beyond name display (.found file) (loadGsiCandidateEvidence lib))
          (Gsi.InOrder lib) file) ↔
      Readable file ∧ ∀ payload, file = some (.ok payload) →
        Gsi.ByteCountInOrder (textOf (artifactOf lib payload) "byte_count") →
          Gsi.FamilyInOrder (textOf (artifactOf lib payload) "artifact_name")) := by
  refine ⟨⟨fun h => gsi_returns_iff.1 h.gsi, fun h => ?_⟩, ?_⟩
  · exact {
      probe := probe_returns_iff.2 h.1
      fastboot := fun required => fastboot_returns_iff.2 h.1
      gsi := gsi_returns_iff.2 h
      fastboot_classified := fun _ _ => fastboot_classified_iff.2 h.1
      gsi_classified := fun _ _ => gsi_classified_iff.2 ⟨h.1, fun payload hp _ => (h.2 payload hp).family⟩ }
  · exact ⟨fun h => gsi_classified_iff.1 (h [] []), fun h _ _ => gsi_classified_iff.2 h⟩

/-- The library where nothing is written in brackets and every text is in normal form. -/
def demoLibrary : Library := ⟨fun _ => [], id, fun _ => false, id, id⟩

/-- Evidence of an archive for the device. -/
def archivePayload : Members :=
  [("schema_version".toList, .str Gsi.schemaVersion), ("ok".toList, .bool true),
    ("status".toList, .str Gsi.artifactChecksumVerified),
    ("candidate".toList, .object [("name".toList, .str "Android 16".toList),
      ("android_release".toList, .int 16), ("architecture".toList, .str "arm64".toList),
      ("image_kind".toList, .str "archive".toList),
      ("license_note_code".toList, .str "official_google_gsi_terms".toList)]),
    ("artifact".toList, .object [
      ("artifact_name".toList, .str "aosp_arm64-exp-BP4A.251205.006-14401865-59a822d9.zip".toList),
      ("byte_count".toList, .int 1073741824),
      ("sha256".toList, .str ("59a822d9".toList ++ List.replicate 56 '0')),
      ("expected_sha256".toList, .str ("59A822D9".toList ++ List.replicate 56 '0'))]),
    ("source".toList, .object [("source_url".toList, .str Gsi.officialGsiReleasesUrl),
      ("download_url".toList, .str ("https://dl.google.com/developers/android/baklava/images/gsi/".toList ++
        "aosp_arm64-exp-BP4A.251205.006-14401865-59a822d9.zip".toList))]),
    ("safety".toList, .object [("execution_authority".toList, .str "OFFLINE_HASH_ONLY".toList),
      ("device_mutation".toList, .str "NONE".toList),
      ("authorization".toList, .str "NON_AUTHORIZING_EVIDENCE".toList),
      ("destructive_actions".toList, .str "WITHHELD".toList), ("local_path_redacted".toList, .bool true)])]

-- it is loaded
example : (loadOptionalEvidence (fun _ => false) [] [] (.found (some (.ok archivePayload)))
    (loadGsiCandidateEvidence demoLibrary)).toOption.map (·.2.status) = some .loaded := by
  unfold archivePayload
  repeat rw [String.toList_ofList]
  decide +kernel

/-- A payload of these texts. -/
def demoPayload (artifactName byteCount sourceUrl : String) : Members :=
  [("artifact".toList, .object [("artifact_name".toList, .str artifactName.toList),
      ("byte_count".toList, .str byteCount.toList)]),
    ("source".toList, .object [("source_url".toList, .str sourceUrl.toList)])]

/-- What is raised. -/
def raisedOf {α : Type} : Except Raised α → Option Raised
  | .ok _ => none
  | .error e => some e

/-- A superscript, an open bracket and a long s raise, and the long s ends the refresh. -/
theorem gsi_checks_raise :
    raisedOf (Gsi.validateGsiCandidateEvidence demoLibrary (some (.ok (demoPayload "" "\u00b2" "")))) =
        some (.valueError ['\u00b2']) ∧
      raisedOf (Gsi.validateGsiCandidateEvidence demoLibrary
        (some (.ok (demoPayload "" "1" "https://[")))) = some (.valueError "https://[".toList) ∧
      raisedOf (Gsi.validateGsiCandidateEvidence demoLibrary (some (.ok
        (demoPayload "ao\u017fp_arm64-exp-CP11.1-1-59a822d9.zip" "1" "")))) =
          some (.keyError "ao\u017fp_arm64".toList) ∧
      raisedOf (loadOptionalEvidence (fun _ => false) [] [] (.found (some (.ok
        (demoPayload "ao\u017fp_arm64-exp-CP11.1-1-59a822d9.zip" "1" ""))))
          (loadGsiCandidateEvidence demoLibrary)) = some (.keyError "ao\u017fp_arm64".toList) := by
  decide +kernel

end Checks

end GoffyScripts
