import GoffyOs.Contract.RomText
import GoffyOs.Hub.RomStatus

/-!
# `goffy.rom.status` across the two sides

Whatever the artifacts say, as long as their texts are of ASCII: the Hub answers, and the phone takes the
answer. The validators of the answer make its texts safe for both sides; what the phone asks of a ready
ROM is what the handler has looked at before it said so.
-/

namespace GoffyHub.Rom

open GoffyPhone Kotlin

/-- What the phone reads of an answer. -/
def GoffyRomStatusOutput.onPhone (o : GoffyRomStatusOutput) : GoffyRomStatus where
  status := ofChars o.status
  milestone := lit "ROM-0"
  summary := ofChars o.summary
  generatedAt := ofChars o.generatedAt
  refreshSchemaVersion := ofChars o.refreshSchemaVersion
  refreshStatus := ofChars o.refreshStatus
  packetStatus := ofChars o.packetStatus
  bootloaderVisibilityStatus := ofChars o.bootloaderVisibilityStatus
  operatorChecklistStatus := ofChars o.operatorChecklistStatus
  installDecision := ofChars o.installDecision
  unlockGateStatus := ofChars o.unlockGateStatus
  stockRestoreGateStatus := ofChars o.stockRestoreGateStatus
  gsiCandidateGateStatus := ofChars o.gsiCandidateGateStatus
  dsuPreflightGateStatus := ofChars o.dsuPreflightGateStatus
  fastbootGateStatus := ofChars o.fastbootGateStatus
  destructiveApprovalStatus := lit "WITHHELD"
  romReady := o.romReady
  destructiveActions := lit "withheld"
  blockerCount := o.blockerCount
  blockers := o.blockers.map ofChars
  blockersTruncated := o.blockersTruncated
  nextAction := ofChars o.nextAction
  staleReport := o.staleReport
  checkedRefreshReport := o.checkedRefreshReport
  checkedOperatorChecklist := o.checkedOperatorChecklist

/-! ### Fields -/

section Fields

variable {value v : Python.Str} {n maximum : ℕ}

/-- A field that the Hub's validator takes. -/
theorem isSafeRomStatusField_of_validText (h : validText value n maximum = .ok v)
    (hvalue : Ascii value) (hn : 7 ≤ n) (hmaximum : n ≤ maximum) :
    isSafeRomStatusField (ofChars v) n = true :=
  isSafeRomStatusField_of_isSafe (isSafe_of_validText hvalue hn hmaximum h)

/-- The blockers that the validators take, by the count of all of them. -/
theorem blockersMatchCount_of_validBlockers {blockers shown : List Python.Str} {count : ℕ}
    {truncated : Bool} (h : validBlockers blockers = .ok shown) (hascii : ∀ b ∈ blockers, Ascii b)
    (hcount : validCount count maxBlockerCount = .ok ()) (hlength : blockers.length ≤ count)
    (htruncated : truncated = decide (blockers.length < count)) :
    blockersMatchCount (shown.map ofChars) count truncated = true := by
  unfold validBlockers at h
  split at h
  case isFalse => cases h
  case isTrue hmaximum =>
    have hshown : (shown.map ofChars).length = blockers.length := by
      rw [List.length_map, Checks.length_of_mapM h]
    have hcount' : count ≤ maxBlockerCount := by
      unfold validCount at hcount
      split at hcount
      · assumption
      · cases hcount
    have hrange : inRange 0 maxGoffyRomBlockerCount count = true :=
      inRange_iff.2 ⟨Int.natCast_nonneg _, Int.ofNat_le.2 hcount'⟩
    have hfields : (shown.map ofChars).all (isSafeRomStatusField · maxGoffyRomBlockerLength) = true := by
      rw [List.all_eq_true]
      intro s hs
      obtain ⟨b, hb, rfl⟩ := List.mem_map.1 hs
      obtain ⟨value, hvalue, hvalid⟩ := Checks.exists_of_mem_mapM h hb
      exact isSafeRomStatusField_of_validText hvalid (hascii value hvalue) (by decide) le_rfl
    have hle : ((shown.map ofChars).length : ℤ) ≤ count := by
      rw [hshown]
      exact Int.ofNat_le.2 hlength
    have hflag : (if truncated then decide (((shown.map ofChars).length : ℤ) < count)
        else decide (((shown.map ofChars).length : ℤ) = count)) = true := by
      rw [hshown, htruncated]
      by_cases hlt : blockers.length < count
      · rw [decide_eq_true hlt, if_pos rfl]
        exact decide_eq_true (Int.ofNat_lt.2 hlt)
      · rw [decide_eq_false hlt, if_neg Bool.false_ne_true]
        exact decide_eq_true (by omega)
    have hmaximum' : (shown.map ofChars).length ≤ maxGoffyRomBlockers := hshown.trans_le hmaximum
    rw [blockersMatchCount, hrange, hfields, hflag, decide_eq_true hle, decide_eq_true hmaximum']
    rfl

end Fields

/-! ### Answers -/

section Answers

variable {o₀ o : GoffyRomStatusOutput} {e : RomEvidence}

/-- The texts of an answer are of ASCII. -/
structure GoffyRomStatusOutput.IsAscii (o : GoffyRomStatusOutput) : Prop where
  summary : Ascii o.summary
  generatedAt : Ascii o.generatedAt
  refreshSchemaVersion : Ascii o.refreshSchemaVersion
  refreshStatus : Ascii o.refreshStatus
  packetStatus : Ascii o.packetStatus
  bootloaderVisibilityStatus : Ascii o.bootloaderVisibilityStatus
  operatorChecklistStatus : Ascii o.operatorChecklistStatus
  unlockGateStatus : Ascii o.unlockGateStatus
  stockRestoreGateStatus : Ascii o.stockRestoreGateStatus
  gsiCandidateGateStatus : Ascii o.gsiCandidateGateStatus
  dsuPreflightGateStatus : Ascii o.dsuPreflightGateStatus
  fastbootGateStatus : Ascii o.fastbootGateStatus
  blockers : ∀ b ∈ o.blockers, Ascii b
  nextAction : Ascii o.nextAction

/-- The phone takes an answer that is consistent and of ASCII. -/
theorem Created.matchesToolContract (h : Created o₀ o) (hascii : o₀.IsAscii)
    (hconsistent : o₀.Consistent) : o.onPhone.matchesToolContract = true := by
  have hstatus : o.onPhone.status ∈ goffyRomStatusValues := by
    have hmem := hconsistent.status
    rw [h.status] at hmem
    exact List.mem_map_of_mem (f := ofChars) hmem
  have hdecision : o.installDecision =
      if o.romReady then "READY_FOR_MANUAL_REVIEW".toList else "BLOCKED".toList := by
    rw [← h.installDecision, hconsistent.installDecision, h.romReady]
  have hblockers : blockersMatchCount o.onPhone.blockers o.onPhone.blockerCount
      o.onPhone.blockersTruncated = true := by
    have hcount := hconsistent.blockersTruncated
    rw [h.blockersTruncated] at hcount
    have hmatch := blockersMatchCount_of_validBlockers h.blockers hascii.blockers h.blockerCount.1
      hconsistent.blockers_length hcount
    rw [h.blockerCount.2] at hmatch
    exact hmatch
  have h1 : isSafeRomStatusField o.onPhone.summary maxGoffyRomSummaryLength = true :=
    isSafeRomStatusField_of_validText h.summary hascii.summary (by decide) (by decide)
  have h2 : isSafeRomStatusField o.onPhone.generatedAt maxGoffyRomTimestampLength = true :=
    isSafeRomStatusField_of_validText h.generatedAt hascii.generatedAt (by decide) (by decide)
  have h3 : isSafeRomStatusField o.onPhone.refreshSchemaVersion maxGoffyRomSchemaLength = true :=
    isSafeRomStatusField_of_validText h.refreshSchemaVersion hascii.refreshSchemaVersion (by decide)
      (by decide)
  have h4 : isSafeRomStatusField o.onPhone.refreshStatus maxGoffyRomStatusLength = true :=
    isSafeRomStatusField_of_validText h.refreshStatus hascii.refreshStatus (by decide) (by decide)
  have h5 : isSafeRomStatusField o.onPhone.packetStatus maxGoffyRomStatusLength = true :=
    isSafeRomStatusField_of_validText h.packetStatus hascii.packetStatus (by decide) (by decide)
  have h6 : isSafeRomStatusField o.onPhone.bootloaderVisibilityStatus maxGoffyRomStatusLength = true :=
    isSafeRomStatusField_of_validText h.bootloaderVisibilityStatus hascii.bootloaderVisibilityStatus
      (by decide) (by decide)
  have h7 : isSafeRomStatusField o.onPhone.operatorChecklistStatus maxGoffyRomStatusLength = true :=
    isSafeRomStatusField_of_validText h.operatorChecklistStatus hascii.operatorChecklistStatus
      (by decide) (by decide)
  have h8 : isSafeRomStatusField o.onPhone.unlockGateStatus maxGoffyRomStatusLength = true :=
    isSafeRomStatusField_of_validText h.unlockGateStatus hascii.unlockGateStatus (by decide)
      (by decide)
  have h9 : isSafeRomStatusField o.onPhone.stockRestoreGateStatus maxGoffyRomStatusLength = true :=
    isSafeRomStatusField_of_validText h.stockRestoreGateStatus hascii.stockRestoreGateStatus
      (by decide) (by decide)
  have h10 : isSafeRomStatusField o.onPhone.gsiCandidateGateStatus maxGoffyRomStatusLength = true :=
    isSafeRomStatusField_of_validText h.gsiCandidateGateStatus hascii.gsiCandidateGateStatus
      (by decide) (by decide)
  have h11 : isSafeRomStatusField o.onPhone.dsuPreflightGateStatus maxGoffyRomStatusLength = true :=
    isSafeRomStatusField_of_validText h.dsuPreflightGateStatus hascii.dsuPreflightGateStatus
      (by decide) (by decide)
  have h12 : isSafeRomStatusField o.onPhone.fastbootGateStatus maxGoffyRomStatusLength = true :=
    isSafeRomStatusField_of_validText h.fastbootGateStatus hascii.fastbootGateStatus (by decide)
      (by decide)
  have h13 : isSafeRomStatusField o.onPhone.nextAction maxGoffyRomNextActionLength = true :=
    isSafeRomStatusField_of_validText h.nextAction hascii.nextAction (by decide) (by decide)
  have hmilestone : o.onPhone.milestone = goffyRomMilestone := rfl
  have happroval : o.onPhone.destructiveApprovalStatus = lit "WITHHELD" := rfl
  have hactions : o.onPhone.destructiveActions = lit "withheld" := rfl
  have hready₀ := hconsistent.ready
  have hnotReady := hconsistent.notReady
  rw [h.romReady] at hready₀ hnotReady
  unfold GoffyRomStatus.matchesToolContract
  simp only [hstatus, hblockers, h1, h2, h3, h4, h5, h6, h7, h8, h9, h10, h11, h12, h13, hmilestone,
    happroval, hactions, decide_true, Bool.true_and]
  cases hrom : o.romReady with
  | true =>
    have hready := h.ready (hready₀ hrom)
    rw [hrom, if_pos rfl] at hdecision
    simp only [GoffyRomStatusOutput.onPhone, hrom, hready.status, hready.blockerCount,
      hready.staleReport, hready.checkedRefreshReport, hready.checkedOperatorChecklist,
      hready.refreshStatus, hready.packetStatus, hready.operatorChecklistStatus,
      hready.unlockGateStatus, hready.stockRestoreGateStatus, hready.gsiCandidateGateStatus,
      hready.dsuPreflightGateStatus, hready.fastbootGateStatus, hdecision]
    decide
  | false =>
    rw [hrom, if_neg Bool.false_ne_true] at hdecision
    have hpos := hnotReady hrom
    rw [h.blockerCount.2] at hpos
    have hcount : decide ((0 : ℤ) < o.blockerCount) = true := decide_eq_true (Int.natCast_pos.2 hpos)
    simp only [GoffyRomStatusOutput.onPhone, hrom, hdecision, hcount, Bool.not_false, Bool.true_or,
      Bool.false_or, Bool.and_true]
    decide

/-! ### The answer to the evidence -/

theorem ascii_gateStatus (statuses : Dict Python.Str Python.Str) (name : String) :
    Ascii (gateStatusFromEvidence statuses name) := by
  unfold gateStatusFromEvidence
  split
  · decide
  · split
    · decide
    · split
      · decide
      · decide

theorem ascii_natStr (n : ℕ) : Ascii (Python.natStr n) := by
  intro c hc
  have hprintable := printable_natStr n c hc
  rw [isPrintable_iff] at hprintable
  omega

theorem ascii_blockerIf {condition : Bool} {b : Python.Str} (hb : Ascii b) :
    ∀ c ∈ RomEvidence.blockerIf condition b, Ascii c := by
  intro c hc
  unfold RomEvidence.blockerIf at hc
  split at hc
  · rw [List.mem_singleton.1 hc]
    exact hb
  · exact absurd hc List.not_mem_nil

theorem forall_mem_append_ascii {l m : List Python.Str} (hl : ∀ b ∈ l, Ascii b)
    (hm : ∀ b ∈ m, Ascii b) : ∀ b ∈ l ++ m, Ascii b := by
  intro b hb
  rcases List.mem_append.1 hb with hb | hb
  · exact hl b hb
  · exact hm b hb

theorem ascii_addedBlockers (he : e.IsAscii) : ∀ b ∈ e.addedBlockers, Ascii b := by
  unfold RomEvidence.addedBlockers
  refine forall_mem_append_ascii (forall_mem_append_ascii (forall_mem_append_ascii
    (ascii_blockerIf (ascii_ofList (by decide))) ?_) ?_) (ascii_blockerIf (ascii_ofList (by decide)))
  · split
    · refine forall_mem_append_ascii (forall_mem_append_ascii (ascii_blockerIf (ascii_ofList (by decide)))
        (ascii_blockerIf ?_)) (ascii_blockerIf ?_)
      · exact Ascii.append (ascii_ofList (by decide)) he.refreshStatus
      · exact Ascii.append (ascii_ofList (by decide)) he.packetStatus
    · exact fun b hb => absurd hb List.not_mem_nil
  · split
    · exact List.forall_mem_singleton.2 (ascii_ofList (by decide))
    split
    · exact List.forall_mem_singleton.2 (Ascii.append (ascii_ofList (by decide)) he.operatorStatus)
    split
    · exact List.forall_mem_singleton.2 (ascii_ofList (by decide))
    · exact fun b hb => absurd hb List.not_mem_nil

theorem ascii_visibleBlockers (he : e.IsAscii) : ∀ b ∈ e.visibleBlockers, Ascii b := by
  intro b hb
  have hmem : b ∈ e.allBlockers := List.mem_eraseDups.1 (List.mem_of_mem_take hb)
  unfold RomEvidence.allBlockers at hmem
  dsimp only at hmem
  split at hmem
  · rw [List.mem_singleton.1 hmem]
    exact ascii_ofList (by decide)
  · exact forall_mem_append_ascii he.blockers (ascii_addedBlockers he) b hmem

theorem ascii_output (he : e.IsAscii) : e.output.IsAscii where
  summary := by
    show Ascii (summary _ _ _ _)
    unfold summary
    split
    · exact ascii_ofList (by decide)
    split
    · exact ascii_ofList (by decide)
    · have hhead : Ascii ("ROM-0 is ".toList ++ e.refreshStatus) :=
        Ascii.append (ascii_ofList (by decide)) he.refreshStatus
      exact ((hhead.append (ascii_ofList (by decide))).append (ascii_natStr _)).append
        (ascii_ofList (by decide))
  generatedAt := he.generatedAt
  refreshSchemaVersion := he.schemaVersion
  refreshStatus := he.refreshStatus
  packetStatus := he.packetStatus
  bootloaderVisibilityStatus := he.bootloaderStatus
  operatorChecklistStatus := he.operatorStatus
  unlockGateStatus := by
    show Ascii (unlockGateStatus _ _)
    unfold unlockGateStatus
    dsimp only
    split
    · exact ascii_ofList (by decide)
    · exact ascii_gateStatus _ _
  stockRestoreGateStatus := ascii_gateStatus _ _
  gsiCandidateGateStatus := ascii_gateStatus _ _
  dsuPreflightGateStatus := ascii_gateStatus _ _
  fastbootGateStatus := by
    show Ascii (fastbootGateStatus _ _)
    unfold fastbootGateStatus
    dsimp only
    split
    · exact ascii_ofList (by decide)
    split
    · exact ascii_ofList (by decide)
    · exact ascii_gateStatus _ _
  blockers := ascii_visibleBlockers he
  nextAction := by
    show Ascii (nextAction _ _ _)
    unfold nextAction
    split
    · exact ascii_ofList (by decide)
    split
    · exact ascii_ofList (by decide)
    split
    case h_1 blocker blockers hvisible =>
      exact ascii_visibleBlockers he blocker (by rw [hvisible]; exact List.mem_cons_self)
    · exact ascii_ofList (by decide)

end Answers

/-! ### The tool -/

/-- The Hub answers, and the answer matches the phone's contract. -/
def StatusAccepted (x : Except RomError GoffyRomStatusOutput) : Prop :=
  ∃ o, x = .ok o ∧ o.onPhone.matchesToolContract = true

/-- The summaries of invalid artifacts. -/
def invalidSummaries : List String := [
  "ROM-0 validation directory is not a regular local directory",
  "ROM-0 refresh report is not a regular local artifact",
  "ROM-0 refresh report is unreadable or malformed",
  "ROM-0 refresh report schema is unsupported",
  "ROM-0 refresh report did not withhold destructive actions",
  "ROM-0 operator checklist is not a regular local artifact",
  "ROM-0 operator checklist is unreadable or malformed",
  "ROM-0 operator checklist schema is unsupported",
  "ROM-0 operator checklist did not withhold destructive actions",
  "ROM-0 evidence artifacts contain unsafe display text",
  "ROM-0 evidence artifacts contain invalid status fields"]

/-- An answer without evidence is taken, where the validators take its texts. -/
theorem withoutEvidence_accepted {status summary schema gate blocker nextAction : String}
    (hstatus : status.toList ∈ ["available".toList, "missing".toList, "invalid".toList])
    (hsummary : validText summary.toList maxSummaryLength maxSummaryLength = .ok summary.toList)
    (hschema : validText schema.toList 64 maxSummaryLength = .ok schema.toList)
    (hgate : validText gate.toList maxStatusLength maxSummaryLength = .ok gate.toList)
    (hblocker : validText blocker.toList maxBlockerLength maxBlockerLength = .ok blocker.toList)
    (hnextAction : validText nextAction.toList maxNextActionLength maxSummaryLength =
      .ok nextAction.toList)
    (hascii : ∀ text ∈ [summary, schema, gate, blocker, nextAction], Ascii text.toList) :
    StatusAccepted (withoutEvidence status summary schema gate blocker nextAction).create := by
  have hliteral : validLiteral status.toList ["available", "missing", "invalid"] = .ok () := by
    refine if_pos (List.any_eq_true.2 ?_)
    obtain ⟨value, hvalue, heq⟩ : ∃ value ∈ ["available", "missing", "invalid"],
        value.toList = status.toList := List.mem_map.1 hstatus
    exact ⟨value, hvalue, decide_eq_true heq⟩
  have hgenerated : validText "unknown".toList 64 maxSummaryLength = .ok "unknown".toList := by
    decide +kernel
  have hblockers : validBlockers [blocker.toList] = .ok [blocker.toList] :=
    (if_pos (show 1 ≤ maxBlockers by decide)).trans
      (Checks.mapM_cons_eq_ok.2 ⟨blocker.toList, [], hblocker, rfl, rfl⟩)
  have hunknown : Ascii "unknown".toList := by decide
  have hdecision : validLiteral "BLOCKED".toList ["BLOCKED", "READY_FOR_MANUAL_REVIEW"] = .ok () := rfl
  have hcount : validCount 1 maxBlockerCount = .ok () := rfl
  have hcreate : (withoutEvidence status summary schema gate blocker nextAction).create =
      .ok (withoutEvidence status summary schema gate blocker nextAction) := by
    unfold GoffyRomStatusOutput.create withoutEvidence
    simp only [hliteral, hsummary, hgenerated, hschema, hgate, hdecision, hcount, hblockers,
      hnextAction, Checks.ok_bind]
    rfl
  have htext : ∀ text ∈ [summary, schema, gate, blocker, nextAction], Ascii text.toList := hascii
  simp only [List.forall_mem_cons, List.not_mem_nil, IsEmpty.forall_iff, implies_true, and_true]
    at htext
  obtain ⟨hs, hsc, hg, hb, hn⟩ := htext
  refine ⟨_, hcreate, (created_of_create hcreate).matchesToolContract
    ⟨hs, hunknown, hsc, hg, hg, hg, hg, hg, hg, hg, hg, hg, List.forall_mem_singleton.2 hb, hn⟩
    ⟨hstatus, rfl, le_rfl, rfl, fun h => absurd h Bool.false_ne_true, fun _ => Nat.one_pos⟩⟩

theorem invalidStatus_accepted {text : String} (htext : text ∈ invalidSummaries) :
    StatusAccepted (invalidStatus text) := by
  have hvalid : ∀ text ∈ invalidSummaries,
      validText text.toList maxSummaryLength maxSummaryLength = .ok text.toList := by
    simp only [invalidSummaries, List.forall_mem_cons]
    refine ⟨validText_ofList ?_, validText_ofList ?_, validText_ofList ?_, validText_ofList ?_,
      validText_ofList ?_, validText_ofList ?_, validText_ofList ?_, validText_ofList ?_,
      validText_ofList ?_, validText_ofList ?_, validText_ofList ?_, List.forall_mem_nil _⟩ <;>
    decide +kernel
  have hascii : ∀ text ∈ invalidSummaries, Ascii text.toList := by
    simp only [invalidSummaries, List.forall_mem_cons]
    refine ⟨ascii_ofList ?_, ascii_ofList ?_, ascii_ofList ?_, ascii_ofList ?_, ascii_ofList ?_,
      ascii_ofList ?_, ascii_ofList ?_, ascii_ofList ?_, ascii_ofList ?_, ascii_ofList ?_,
      ascii_ofList ?_, List.forall_mem_nil _⟩ <;>
    decide
  have hblocker : validText
      "repair ROM-0 evidence artifacts before any ROM readiness decision".toList maxBlockerLength
      maxBlockerLength = .ok _ := validText_ofList (by decide +kernel)
  have hnextAction : validText "Regenerate the ROM-0 packet before continuing".toList
      maxNextActionLength maxSummaryLength = .ok _ := validText_ofList (by decide +kernel)
  have hschema : validText "invalid".toList 64 maxSummaryLength = .ok _ :=
    validText_ofList (by decide +kernel)
  have hgate : validText "INVALID".toList maxStatusLength maxSummaryLength = .ok _ :=
    validText_ofList (by decide +kernel)
  refine withoutEvidence_accepted (by decide) (hvalid text htext) hschema hgate hblocker hnextAction ?_
  simp only [List.forall_mem_cons]
  exact ⟨hascii text htext, ascii_ofList (by decide), ascii_ofList (by decide),
    ascii_ofList (by decide), ascii_ofList (by decide), List.forall_mem_nil _⟩

theorem missingStatus_accepted : StatusAccepted missingStatus := by
  have hsummary : validText "ROM-0 refresh evidence is missing".toList maxSummaryLength
      maxSummaryLength = .ok _ := validText_ofList (by decide +kernel)
  have hblocker : validText
      "run the read-only ROM-0 refresh packet before relying on ROM status".toList maxBlockerLength
      maxBlockerLength = .ok _ := validText_ofList (by decide +kernel)
  have hnextAction : validText "Run the read-only ROM-0 refresh packet on the Mac".toList
      maxNextActionLength maxSummaryLength = .ok _ := validText_ofList (by decide +kernel)
  have hschema : validText "missing".toList 64 maxSummaryLength = .ok _ :=
    validText_ofList (by decide +kernel)
  have hgate : validText "MISSING".toList maxStatusLength maxSummaryLength = .ok _ :=
    validText_ofList (by decide +kernel)
  refine withoutEvidence_accepted (by decide) hsummary hschema hgate hblocker hnextAction ?_
  simp only [List.forall_mem_cons]
  exact ⟨ascii_ofList (by decide), ascii_ofList (by decide), ascii_ofList (by decide),
    ascii_ofList (by decide), ascii_ofList (by decide), List.forall_mem_nil _⟩

theorem raising_ne_returned {α : Type} {x : Except RomError α} {summary : String} :
    raising x ≠ .error (.returned summary) := by
  cases x with
  | error e =>
    intro h
    cases Except.error.inj h
  | ok a =>
    intro h
    cases h

theorem returned_of_operatorEvidence {operator : Artifact} {summary : String}
    (h : operatorEvidence operator = .error (.returned summary)) : summary ∈ invalidSummaries := by
  unfold operatorEvidence at h
  split at h
  · cases h
  · cases h
    decide
  · cases h
    decide
  · split at h
    · cases h
      decide
    split at h
    · cases h
      decide
    · rcases Checks.bind_eq_error.1 h with h | ⟨_, -, h⟩
      · exact absurd h raising_ne_returned
      · cases h

/-- Why a summary is returned while the artifacts are read. -/
theorem returned_of_romEvidence {refreshReport : Members} {operator : Artifact} {summary : String}
    (h : romEvidence refreshReport operator = .error (.returned summary)) :
    summary ∈ invalidSummaries := by
  unfold romEvidence at h
  simp only [Checks.bind_eq_error, Checks.throw_bind_eq_error, raising_ne_returned, false_or] at h
  obtain ⟨schemaVersion, -, ⟨-, h⟩ | ⟨-, ⟨-, h⟩ | ⟨-, h⟩⟩⟩ := h
  · cases h
    decide
  · cases h
    decide
  · rcases h with h | ⟨_, -, _, -, _, -, _, -, _, -, _, -, _, -, h⟩
    · exact returned_of_operatorEvidence h
    · cases h

/-- **The status of the ROM.** For every two artifacts whose texts are of ASCII, the Hub answers, and the
phone takes the answer. -/
theorem goffyRomStatusSnapshot_accepted (directoryIsSymlink : Bool) (refresh operator : Artifact)
    (hrefresh : refresh.IsAscii) (hoperator : operator.IsAscii) :
    StatusAccepted (goffyRomStatusSnapshot directoryIsSymlink refresh operator) := by
  unfold goffyRomStatusSnapshot
  cases directoryIsSymlink with
  | true => exact invalidStatus_accepted (by decide)
  | false =>
    rw [if_neg Bool.false_ne_true]
    cases refresh with
    | missing => exact missingStatus_accepted
    | notRegular => exact invalidStatus_accepted (by decide)
    | unreadable => exact invalidStatus_accepted (by decide)
    | object refreshReport =>
      dsimp only
      split
      case h_1 summary h => exact invalidStatus_accepted (returned_of_romEvidence h)
      · exact invalidStatus_accepted (by decide)
      case h_3 evidence h =>
        have hascii := ascii_romEvidence hrefresh hoperator h
        split
        case h_1 o ho =>
          exact ⟨o, rfl, (created_of_create ho).matchesToolContract (ascii_output hascii)
            (consistent_output evidence)⟩
        · exact invalidStatus_accepted (by decide)

/-- The phone takes the answer about a ready ROM. -/
theorem ready_rom_is_accepted : StatusAccepted
    (goffyRomStatusSnapshot false (.object demoRefreshReport) (.object demoOperatorReport)) := by
  refine goffyRomStatusSnapshot_accepted false (.object demoRefreshReport)
    (.object demoOperatorReport) ?_ ?_
  · simp only [Artifact.IsAscii, demoRefreshReport, MembersAscii, JsonAscii, ItemsAscii, List.map]
    decide
  · simp only [Artifact.IsAscii, demoOperatorReport, MembersAscii, JsonAscii]
    decide

end GoffyHub.Rom
