import GoffyOs.Hub.RomStatus
import GoffyOs.Hub.RomTextCuts

/-!
# When `goffy.rom.status` says that the ROM is ready

`Complete` lists what the two artifacts have to say for a ready answer (`romReady_iff`). The handler reads
them tolerantly: of the entries about one gate only the last one that it can read counts, and of the
blockers only the texts. So a complete report stands for what it says exactly if its entries agree and its
blockers are texts (`vouched_iff_wellFormed`).
-/

namespace GoffyHub.Rom

open Python

variable {r op : Members} {refresh operator : Artifact} {e : RomEvidence} {o : GoffyRomStatusOutput}

/-! ### Fixed texts -/

section Constants

variable {s c default : Str} {json : Option Json} {m : ℕ}

/-- The text of the value, with its white space normalized. -/
def ShowsAs (json : Option Json) (text : Str) : Prop := ∃ s, json = some (.str s) ∧ normalize s = text

/-- A text that is shown as it is, and that no other text is cut to. -/
structure IsConstant (c : Str) (m : ℕ) : Prop where
  shown : boundedText c m = .ok c
  normal : normalize c = c
  noDots : c.getLast? ≠ some '.'
  notUnknown : c ≠ "unknown".toList

theorem IsConstant.ne_nil (hc : IsConstant c m) : c ≠ [] := by
  rintro rfl
  have h := hc.shown
  have hnil : boundedText [] m = .ok "unknown".toList := rfl
  rw [hnil] at h
  exact absurd (Except.ok.inj h) (by decide)

theorem boundedText_normalize : boundedText (normalize s) m = boundedText s m := by
  unfold boundedText
  rw [normalize_normalize]

theorem IsConstant.boundedText_iff (hc : IsConstant c m) : boundedText s m = .ok c ↔ normalize s = c := by
  constructor
  · intro h
    obtain ⟨-, -, -, hv⟩ := boundedText_ok h
    split at hv
    · refine absurd ?_ hc.noDots
      rw [hv, List.getLast?_append]
      rfl
    · split at hv
      · exact absurd hv hc.notUnknown
      · exact hv.symm
  · rintro rfl
    rw [← boundedText_normalize]
    exact hc.shown

theorem IsConstant.textValue_iff (hc : IsConstant c m) (hdefault : c ≠ default) :
    textValue json default m = .ok c ↔ ShowsAs json c := by
  unfold textValue ShowsAs
  split
  case h_1 s =>
    split
    case isTrue hblank =>
      refine iff_of_false (fun h => hdefault (Except.ok.inj h).symm) ?_
      rintro ⟨s', hs, hnormal⟩
      obtain rfl : s = s' := by
        injection Option.some.inj hs
      rw [normalize, hblank] at hnormal
      exact hc.ne_nil hnormal.symm
    case isFalse =>
      rw [hc.boundedText_iff]
      constructor
      · exact fun h => ⟨s, rfl, h⟩
      · rintro ⟨s', hs, hnormal⟩
        obtain rfl : s = s' := by
          injection Option.some.inj hs
        exact hnormal
  case h_2 hnot =>
    refine iff_of_false (fun h => hdefault (Except.ok.inj h).symm) ?_
    rintro ⟨s, hs, -⟩
    exact hnot s hs

theorem isConstant_latest : IsConstant latestRefreshSchema maxStatusLength :=
  ⟨by decide +kernel, by decide +kernel, by decide +kernel, by decide +kernel⟩

theorem isConstant_ready : IsConstant readyForRom0Review maxStatusLength :=
  ⟨by decide +kernel, by decide +kernel, by decide +kernel, by decide +kernel⟩

theorem isConstant_bootloader : IsConstant "MANUAL_BOOTLOADER_VISIBLE".toList maxStatusLength :=
  ⟨by decide +kernel, by decide +kernel, by decide +kernel, by decide +kernel⟩

theorem isConstant_loaded : IsConstant "LOADED".toList maxStatusLength :=
  ⟨by decide +kernel, by decide +kernel, by decide +kernel, by decide +kernel⟩

end Constants

/-! ### Entries -/

section Entries

variable {items : List Json} {item : Json} {d d' : Dict Str Str} {name status : Str}

/-- The gates that evidence opens. -/
def evidenceGates : List String :=
  ["unlock_eligibility", "stock_restore", "gsi_candidate", "dsu_preflight"]

def evidenceInputs (report : Members) : List Json :=
  match get report "evidence_inputs" with
  | some (.array items) => items
  | _ => []

/-- A text of an entry. -/
def entryText (key : String) : Json → Option Str
  | .object o =>
    match get o key with
    | some (.str s) => some s
    | _ => none
  | _ => none

/-- The name and the status of an entry that is read. -/
def reading (item : Json) : Option (Str × Str) :=
  match entryText "name" item, entryText "status" item with
  | some name, some status => if name ≠ [] ∧ status ≠ [] then some (name, status) else none
  | _, _ => none

/-- The status of the last entry of a name that is read. -/
def lastReading (items : List Json) (name : Str) : Option Str :=
  ((items.filterMap reading).filter (·.1 = name)).getLast?.map (·.2)

theorem reading_eq_some (h : reading item = some (name, status)) :
    entryText "name" item = some name ∧ entryText "status" item = some status := by
  unfold reading at h
  split at h
  case h_1 name' status' hname hstatus =>
    split at h
    · obtain ⟨rfl, rfl⟩ := Prod.mk.inj (Option.some.inj h)
      exact ⟨hname, hstatus⟩
    · cases h
  · cases h

theorem addEvidence_eq : addEvidence d item = match reading item with
    | some (name, status) => boundedText status maxStatusLength >>= fun v => .ok (d.set name v)
    | none => .ok d := by
  cases item with
  | object o =>
    unfold addEvidence reading entryText
    dsimp only
    generalize get o "name" = n
    generalize get o "status" = s
    rcases n with _ | (_ | _ | _ | _ | name | _ | _)
    all_goals try rfl
    rcases s with _ | (_ | _ | _ | _ | status | _ | _)
    all_goals try rfl
    dsimp only
    split
    · rfl
    · rfl
  | null | bool | int | float | str | array => rfl

theorem lastReading_concat : lastReading (items ++ [item]) name = match reading item with
    | some (n, status) => if n = name then some status else lastReading items name
    | none => lastReading items name := by
  unfold lastReading
  rw [List.filterMap_append]
  cases hreading : reading item with
  | none =>
    rw [List.filterMap_cons_none hreading, List.filterMap_nil, List.append_nil]
  | some x =>
    rw [List.filterMap_cons_some hreading, List.filterMap_nil, List.filter_append]
    dsimp only
    split
    case isTrue hname =>
      have hkept : [x].filter (fun y => decide (y.1 = name)) = [x] :=
        List.filter_cons_of_pos (decide_eq_true hname)
      rw [hkept, List.getLast?_concat]
      rfl
    case isFalse hname =>
      have hleft : [x].filter (fun y => decide (y.1 = name)) = [] :=
        List.filter_cons_of_neg fun h => hname (of_decide_eq_true h)
      rw [hleft, List.append_nil]

theorem exists_of_lastReading (h : lastReading items name = some status) :
    ∃ item ∈ items, reading item = some (name, status) := by
  obtain ⟨⟨n, s⟩, hlast, rfl⟩ := Option.map_eq_some_iff.1 h
  obtain ⟨hmem, hname⟩ := List.mem_filter.1 (List.mem_of_mem_getLast? hlast)
  obtain rfl : n = name := of_decide_eq_true hname
  exact List.mem_filterMap.1 hmem

/-- The entries are read if each of them is. -/
theorem exists_foldlM_iff : (∃ d', items.foldlM addEvidence d = .ok d') ↔
    ∀ item ∈ items, ∀ name status, reading item = some (name, status) →
      ∃ v, boundedText status maxStatusLength = .ok v := by
  induction items generalizing d with
  | nil => exact iff_of_true ⟨d, rfl⟩ fun item hitem => absurd hitem List.not_mem_nil
  | cons item items ih =>
    simp only [List.foldlM_cons, Checks.bind_eq_ok, List.forall_mem_cons, addEvidence_eq]
    cases hreading : reading item with
    | none =>
      constructor
      · rintro ⟨d', d₁, hd, h⟩
        obtain rfl := Except.ok.inj hd
        exact ⟨fun _ _ hnone => absurd hnone.symm (Option.some_ne_none _), ih.1 ⟨d', h⟩⟩
      · rintro ⟨-, h⟩
        obtain ⟨d', hd⟩ := ih.2 h
        exact ⟨d', d, rfl, hd⟩
    | some x =>
      obtain ⟨name, status⟩ := x
      simp only [Checks.bind_eq_ok]
      constructor
      · rintro ⟨d', d₁, ⟨v, hv, -⟩, h⟩
        refine ⟨fun n s hsome => ?_, ih.1 ⟨d', h⟩⟩
        obtain ⟨rfl, rfl⟩ := Prod.mk.inj (Option.some.inj hsome)
        exact ⟨v, hv⟩
      · rintro ⟨hfirst, h⟩
        obtain ⟨v, hv⟩ := hfirst name status rfl
        obtain ⟨d', hd⟩ := ih.2 h
        exact ⟨d', d.set name v, ⟨v, hv, rfl⟩, hd⟩

/-- A later entry of the same name wins. -/
theorem get?_of_foldlM (h : items.foldlM addEvidence d = .ok d') :
    d'.get? name = match lastReading items name with
      | some status => (boundedText status maxStatusLength).toOption
      | none => d.get? name := by
  induction items using List.reverseRecOn generalizing d' with
  | nil =>
    obtain rfl := Except.ok.inj h
    rfl
  | append_singleton items item ih =>
    rw [List.foldlM_append] at h
    obtain ⟨d₁, hd₁, h⟩ := Checks.bind_eq_ok.1 h
    have hprevious := ih hd₁
    rw [List.foldlM_cons, addEvidence_eq] at h
    obtain ⟨d₂, hd₂, h⟩ := Checks.bind_eq_ok.1 h
    obtain rfl : d₂ = d' := Except.ok.inj h
    rw [lastReading_concat]
    cases hreading : reading item with
    | none =>
      rw [hreading] at hd₂
      obtain rfl := Except.ok.inj hd₂
      exact hprevious
    | some x =>
      obtain ⟨n, status⟩ := x
      rw [hreading] at hd₂
      obtain ⟨v, hv, hd₂⟩ := Checks.bind_eq_ok.1 hd₂
      obtain rfl := Except.ok.inj hd₂
      rw [Dict.get?_set]
      dsimp only
      by_cases hname : n = name
      · rw [if_pos hname, if_pos hname]
        dsimp only
        rw [hv]
        rfl
      · rw [if_neg hname, if_neg hname]
        exact hprevious

theorem evidenceStatuses_eq : evidenceStatuses r = (evidenceInputs r).foldlM addEvidence Dict.empty := by
  unfold evidenceStatuses evidenceInputs
  rcases get r "evidence_inputs" with _ | (_ | _ | _ | _ | _ | items | _)
  all_goals rfl

theorem gateStatus_ready_iff {gate : String} : gateStatusFromEvidence d gate = "READY".toList ↔
    d.get? gate.toList = some "LOADED".toList := by
  have hne : "READY".toList ≠ "MISSING".toList ∧ "READY".toList ≠ "INVALID".toList := by decide
  unfold gateStatusFromEvidence
  cases hget : d.get? gate.toList with
  | none => exact iff_of_false (Ne.symm hne.1) (Option.some_ne_none _).symm
  | some status =>
    dsimp only
    by_cases hloaded : status = "LOADED".toList
    · rw [if_pos hloaded, hloaded]
      exact iff_of_true rfl rfl
    · rw [if_neg hloaded]
      refine iff_of_false ?_ fun h => hloaded (Option.some.inj h)
      split
      · exact Ne.symm hne.2
      · exact Ne.symm hne.1

/-- A gate is ready where the last entry that is read says so. -/
theorem gateStatus_ready_of_entries (h : evidenceStatuses r = .ok d) {gate : String} :
    gateStatusFromEvidence d gate = "READY".toList ↔
      ∃ status, lastReading (evidenceInputs r) gate.toList = some status ∧
        normalize status = "LOADED".toList := by
  rw [evidenceStatuses_eq] at h
  rw [gateStatus_ready_iff, get?_of_foldlM h]
  cases lastReading (evidenceInputs r) gate.toList with
  | none =>
    refine iff_of_false (Option.some_ne_none _).symm ?_
    rintro ⟨status, hnone, -⟩
    cases hnone
  | some status =>
    dsimp only
    have hbounded : (boundedText status maxStatusLength).toOption = some "LOADED".toList ↔
        boundedText status maxStatusLength = .ok "LOADED".toList := by
      cases boundedText status maxStatusLength with
      | error e => exact iff_of_false (Option.some_ne_none _).symm nofun
      | ok v => exact ⟨fun h => congrArg _ (Option.some.inj h), fun h => congrArg _ (Except.ok.inj h)⟩
    rw [hbounded, isConstant_loaded.boundedText_iff]
    constructor
    · exact fun h => ⟨status, rfl, h⟩
    · rintro ⟨status', hstatus, h⟩
      rwa [Option.some.inj hstatus]

end Entries

/-! ### Complete reports -/

/-- The checklist says that everything is ready. -/
structure OperatorComplete (op : Members) : Prop where
  schema : isText (get op "schema_version") supportedOperatorSchema = true
  withheld : isText (get op "destructive_actions") "withheld" = true
  status : ShowsAs (get op "status") readyForRom0Review
  ok : isTrue (get op "ok") = true
  noBlockers : stringItems (get op "blocked_by") = []

/-- The report says that everything is ready, as far as it is read. -/
structure RefreshComplete (r : Members) : Prop where
  schema : ShowsAs (get r "schema_version") latestRefreshSchema
  withheld : isText (get r "destructive_actions") "withheld" = true
  status : ShowsAs (get r "status") readyForRom0Review
  packetStatus : ShowsAs (get r "packet_status") readyForRom0Review
  bootloader : ShowsAs (get r "bootloader_visibility_status") "MANUAL_BOOTLOADER_VISIBLE".toList
  generatedAt : ∀ s, get r "generated_at" = some (.str s) → strip s ≠ [] →
    (normalize s).length ≤ 64 ∧ ∃ v, boundedText s maxStatusLength = .ok v
  romReady : isTrue (get r "rom_ready") = true
  refreshSucceeded : isTrue (get r "refresh_succeeded") = true
  noBlockers : stringItems (get r "blocked_by") = []
  readable : ∀ item ∈ evidenceInputs r, ∀ name status, reading item = some (name, status) →
    ∃ v, boundedText status maxStatusLength = .ok v
  loaded : ∀ gate ∈ evidenceGates, ∃ status,
    lastReading (evidenceInputs r) gate.toList = some status ∧ normalize status = "LOADED".toList

theorem operatorEvidence_object {x : OperatorEvidence} : operatorEvidence (.object op) = .ok x ↔
    isText (get op "schema_version") supportedOperatorSchema = true ∧
      isText (get op "destructive_actions") "withheld" = true ∧
      ∃ status, stringValue (get op "status") "MISSING".toList = .ok status ∧
        x = ⟨status, isTrue (get op "ok"), stringItems (get op "blocked_by"), true⟩ := by
  unfold operatorEvidence
  dsimp only
  cases isText (get op "schema_version") supportedOperatorSchema with
  | false => exact iff_of_false nofun fun h => Bool.false_ne_true h.1
  | true =>
    cases isText (get op "destructive_actions") "withheld" with
    | false => exact iff_of_false nofun fun h => Bool.false_ne_true h.2.1
    | true =>
      show (raising _ >>= fun status => _) = _ ↔ _
      rw [Checks.bind_eq_ok]
      constructor
      · rintro ⟨status, hstatus, h⟩
        exact ⟨rfl, rfl, status, raising_eq_ok.1 hstatus, (Except.ok.inj h).symm⟩
      · rintro ⟨-, -, status, hstatus, rfl⟩
        exact ⟨status, raising_eq_ok.2 hstatus, rfl⟩

/-- What the evidence has to be for a ready answer. -/
theorem romReady_eq_true_iff : e.romReady = true ↔
    e.refreshClaimsReady = true ∧ e.refreshSucceeded = true ∧ e.gateStatusesReady = true ∧
      e.schemaVersion = latestRefreshSchema ∧ e.refreshStatus = readyForRom0Review ∧
      e.packetStatus = readyForRom0Review ∧ e.operator.checked = true ∧
      e.operator.status = readyForRom0Review ∧ e.operator.ok = true ∧ e.blockers = [] := by
  simp only [RomEvidence.romReady, RomEvidence.staleReport, Bool.and_eq_true, decide_eq_true_eq,
    and_assoc, Bool.not_eq_true', List.isEmpty_iff, decide_eq_false_iff_not, not_not,
    List.append_eq_nil_iff]
  constructor
  · rintro ⟨h1, h2, h3, h4, h5, h6, h7, h8, h9, h10, -⟩
    exact ⟨h1, h2, h3, h4, h5, h6, h7, h8, h9, h10⟩
  · rintro ⟨h1, h2, h3, h4, h5, h6, h7, h8, h9, h10⟩
    have hadded : e.addedBlockers = [] := by
      simp [RomEvidence.addedBlockers, RomEvidence.blockerIf, RomEvidence.staleReport, h1, h2, h3, h4,
        h5, h6, h7, h8, h9]
    exact ⟨h1, h2, h3, h4, h5, h6, h7, h8, h9, h10, hadded⟩

theorem gateStatusesReady_iff : e.gateStatusesReady = true ↔
    e.unlockGate = "READY".toList ∧ e.stockRestoreGate = "READY".toList ∧
      e.gsiCandidateGate = "READY".toList ∧ e.dsuPreflightGate = "READY".toList ∧
      e.fastbootGate = "READY".toList := by
  simp only [RomEvidence.gateStatusesReady, Bool.and_eq_true, decide_eq_true_eq, and_assoc]

theorem unlockGateStatus_ready {statuses : Dict Str Str} :
    unlockGateStatus statuses [] = "READY".toList ↔
      gateStatusFromEvidence statuses "unlock_eligibility" = "READY".toList := by
  unfold unlockGateStatus
  dsimp only
  rw [if_neg fun h => absurd h.2 List.not_mem_nil]

/-- Evidence makes the fastboot gate ready for the host only. -/
theorem fastbootGateStatus_ready {statuses : Dict Str Str} {bootloaderStatus : Str} :
    fastbootGateStatus statuses bootloaderStatus = "READY".toList ↔
      bootloaderStatus = "MANUAL_BOOTLOADER_VISIBLE".toList := by
  unfold fastbootGateStatus
  split
  case isTrue h => exact iff_of_true rfl h
  case isFalse hne =>
    refine iff_of_false ?_ hne
    dsimp only
    split
    · decide
    · assumption

/-- The time of the report is shown, and the validator takes it. -/
theorem generatedAt_iff {json : Option Json} :
    (∃ g v, stringValue json "unknown".toList = .ok g ∧ validText g 64 maxSummaryLength = .ok v) ↔
      ∀ s, json = some (.str s) → strip s ≠ [] →
        (normalize s).length ≤ 64 ∧ ∃ v, boundedText s maxStatusLength = .ok v := by
  have hunknown : validText "unknown".toList 64 maxSummaryLength = .ok "unknown".toList := by
    decide +kernel
  unfold stringValue textValue
  split
  case h_1 s =>
    split
    case isTrue hblank =>
      refine iff_of_true ⟨_, _, rfl, hunknown⟩ fun s' hs hne => ?_
      injection Option.some.inj hs with heq
      exact absurd (heq ▸ hblank) hne
    case isFalse hne =>
      have honly : (∀ s', some (Json.str s) = some (.str s') → strip s' ≠ [] →
          (normalize s').length ≤ 64 ∧ ∃ v, boundedText s' maxStatusLength = .ok v) ↔
          (normalize s).length ≤ 64 ∧ ∃ v, boundedText s maxStatusLength = .ok v := by
        refine ⟨fun h => h s rfl hne, fun h s' hs _ => ?_⟩
        injection Option.some.inj hs with heq
        exact heq ▸ h
      rw [honly]
      constructor
      · rintro ⟨g, v, hg, hv⟩
        refine ⟨?_, g, hg⟩
        unfold validText at hv
        split at hv
        case isFalse => cases hv
        case isTrue hlength =>
          obtain ⟨-, -, -, rfl⟩ := boundedText_ok hg
          -- a text that was cut is longer than the field
          by_contra hlong
          have hcut : ¬ maxStatusLength < (normalize s).length := fun hcut => by
            have hkept := le_length_kept hcut
            rw [if_pos hcut, List.length_append] at hlength
            have hmaximum : maxStatusLength - 3 = 93 := rfl
            have hlength' : (kept s maxStatusLength).length + _ ≤ 64 := hlength.2
            omega
          have hne : normalize s ≠ [] := fun hnil => hlong (by rw [hnil]; exact Nat.zero_le _)
          rw [if_neg hcut, if_neg hne] at hlength
          exact hlong hlength.2
      · rintro ⟨hlength, g, hg⟩
        have hcut : ¬ maxStatusLength < (normalize s).length :=
          Nat.not_lt.2 (hlength.trans (by decide))
        have hagain := (boundedText_again_iff (by decide) hg).2
          ⟨fun _ => by decide, fun h => absurd h hcut, fun h => absurd h hcut⟩
        refine ⟨g, g, hg, ?_⟩
        have hbounds : 1 ≤ g.length ∧ g.length ≤ 64 := by
          obtain ⟨-, -, -, rfl⟩ := boundedText_ok hg
          rw [if_neg hcut]
          split
          · decide
          case isFalse hne => exact ⟨List.length_pos_iff.2 hne, hlength⟩
        rw [validText, if_pos hbounds]
        exact hagain maxSummaryLength (by decide)
  case h_2 hnot =>
    exact iff_of_true ⟨_, _, rfl, hunknown⟩ fun s hs _ => absurd hs (hnot s)

/-- The report is read, and it is ready. -/
theorem romEvidence_ready_iff : (∃ e v, romEvidence r operator = .ok e ∧ e.romReady = true ∧
      validText e.generatedAt 64 maxSummaryLength = .ok v) ↔
    RefreshComplete r ∧ ∃ op, operator = .object op ∧ OperatorComplete op := by
  unfold romEvidence
  simp only [Checks.bind_eq_ok, Checks.throw_bind_eq_ok, raising_eq_ok, romReady_eq_true_iff,
    Bool.not_eq_true', Bool.not_eq_false]
  constructor
  · rintro ⟨e, v, ⟨schemaVersion, hschema, hsupported, hwithheld, x, hx, refreshStatus, hrefresh,
      packetStatus, hpacket, bootloaderStatus, hbootloader, generatedAt, hgenerated, statuses,
      hstatuses, blockers, hblockers, he⟩, hready, hv⟩
    obtain rfl := Except.ok.inj he
    obtain ⟨hclaims, hsucceeded, hgates, rfl, rfl, rfl, hchecked, hstatus, hok, rfl⟩ := hready
    dsimp only at hclaims hsucceeded hchecked hstatus hok hv
    have hnone : stringItems (get r "blocked_by") ++ x.blockers = [] :=
      List.length_eq_zero_iff.1 (Checks.length_of_mapM hblockers).symm
    obtain ⟨hraw, hoperator⟩ := List.append_eq_nil_iff.1 hnone
    obtain ⟨hunlock, hstock, hgsi, hdsu, hfastboot⟩ := gateStatusesReady_iff.1 hgates
    simp only [RomEvidence.unlockGate, hraw, unlockGateStatus_ready] at hunlock
    obtain rfl : bootloaderStatus = _ := fastbootGateStatus_ready.1 hfastboot
    have hentries {gate : String} := @gateStatus_ready_of_entries _ _ hstatuses gate
    constructor
    · exact {
        schema := (isConstant_latest.textValue_iff (by decide)).1 hschema
        withheld := hwithheld
        status := (isConstant_ready.textValue_iff (by decide)).1 hrefresh
        packetStatus := (isConstant_ready.textValue_iff (by decide)).1 hpacket
        bootloader := (isConstant_bootloader.textValue_iff (by decide)).1 hbootloader
        generatedAt := generatedAt_iff.1 ⟨generatedAt, v, hgenerated, hv⟩
        romReady := hclaims
        refreshSucceeded := hsucceeded
        noBlockers := hraw
        readable := exists_foldlM_iff.1 ⟨statuses, evidenceStatuses_eq ▸ hstatuses⟩
        loaded := List.forall_mem_cons.2 ⟨hentries.1 hunlock, List.forall_mem_cons.2 ⟨hentries.1 hstock,
          List.forall_mem_cons.2 ⟨hentries.1 hgsi, List.forall_mem_singleton.2 (hentries.1 hdsu)⟩⟩⟩ }
    · cases operator with
      | missing =>
        obtain rfl := Except.ok.inj hx
        cases hchecked
      | notRegular => cases hx
      | unreadable => cases hx
      | object op =>
        obtain ⟨hoschema, howithheld, status, hostatus, rfl⟩ := operatorEvidence_object.1 hx
        obtain rfl : status = readyForRom0Review := hstatus
        exact ⟨op, rfl, hoschema, howithheld,
          (isConstant_ready.textValue_iff (by decide)).1 hostatus, hok, hoperator⟩
  · rintro ⟨hr, op, rfl, hop⟩
    obtain ⟨g, v, hg, hv⟩ := generatedAt_iff.2 hr.generatedAt
    obtain ⟨statuses, hstatuses⟩ := exists_foldlM_iff.2 hr.readable
    rw [← evidenceStatuses_eq] at hstatuses
    have hx : operatorEvidence (.object op) = .ok ⟨readyForRom0Review, true, [], true⟩ := by
      refine operatorEvidence_object.2 ⟨hop.schema, hop.withheld, readyForRom0Review,
        (isConstant_ready.textValue_iff (by decide)).2 hop.status, ?_⟩
      rw [hop.ok, hop.noBlockers]
    have hgate (gate : String) (hgate : gate ∈ evidenceGates) :
        gateStatusFromEvidence statuses gate = "READY".toList :=
      (gateStatus_ready_of_entries hstatuses).2 (hr.loaded gate hgate)
    refine ⟨_, v, ⟨_, (isConstant_latest.textValue_iff (by decide)).2 hr.schema, by decide, hr.withheld,
      _, hx, _, (isConstant_ready.textValue_iff (by decide)).2 hr.status, _,
      (isConstant_ready.textValue_iff (by decide)).2 hr.packetStatus, _,
      (isConstant_bootloader.textValue_iff (by decide)).2 hr.bootloader, g, hg, statuses, hstatuses,
      [], ?_, rfl⟩, ⟨hr.romReady, hr.refreshSucceeded, ?_, rfl, rfl, rfl, rfl, rfl, rfl, rfl⟩, hv⟩
    · rw [hr.noBlockers]
      rfl
    · have hunlock : unlockGateStatus statuses (stringItems (get r "blocked_by")) = "READY".toList := by
        rw [hr.noBlockers]
        exact unlockGateStatus_ready.2 (hgate _ (by decide))
      exact gateStatusesReady_iff.2 ⟨hunlock, hgate "stock_restore" (by decide),
        hgate "gsi_candidate" (by decide), hgate "dsu_preflight" (by decide),
        fastbootGateStatus_ready.2 rfl⟩

/-! ### Ready answers -/

/-- The validators take a ready answer, where they take its time. -/
theorem create_ready_iff (h : e.romReady = true) : (∃ o, e.output.create = .ok o) ↔
    ∃ v, validText e.generatedAt 64 maxSummaryLength = .ok v := by
  constructor
  · rintro ⟨o, ho⟩
    exact ⟨_, (created_of_create ho).generatedAt⟩
  · rintro ⟨v, hv⟩
    have hready := ready_output h
    obtain ⟨-, -, hgates, hschema, -⟩ := romReady_eq_true_iff.1 h
    have hbootloader : e.bootloaderStatus = "MANUAL_BOOTLOADER_VISIBLE".toList :=
      fastbootGateStatus_ready.1 (gateStatusesReady_iff.1 hgates).2.2.2.2
    have hvisible : e.visibleBlockers = [] := by
      have hnone : e.uniqueBlockers = [] := List.length_eq_zero_iff.1 hready.blockerCount
      rw [RomEvidence.visibleBlockers, hnone]
      rfl
    have hstatus : validLiteral e.output.status ["available", "missing", "invalid"] = .ok () := rfl
    have hsummary : e.output.summary =
        "ROM-0 is ready for a manual readiness review; destructive actions remain withheld".toList :=
      if_pos h
    have hnext : e.output.nextAction =
        "Review ROM-0 readiness manually before any destructive decision".toList := if_pos h
    have hdecision : validLiteral e.output.installDecision ["BLOCKED", "READY_FOR_MANUAL_REVIEW"] =
        .ok () := by
      have hready : e.output.installDecision = "READY_FOR_MANUAL_REVIEW".toList := if_pos h
      rw [hready]
      decide
    have hgenerated : validText e.output.generatedAt 64 maxSummaryLength = .ok v := hv
    have hversion : e.output.refreshSchemaVersion = latestRefreshSchema := hschema
    have hboot : e.output.bootloaderVisibilityStatus = "MANUAL_BOOTLOADER_VISIBLE".toList := hbootloader
    have hblockers : e.output.blockers = [] := hvisible
    have h1 : validText "ROM-0 is ready for a manual readiness review; destructive actions remain withheld".toList
      maxSummaryLength maxSummaryLength = .ok _ := validText_ofList (by decide +kernel)
    have h2 : validText latestRefreshSchema 64 maxSummaryLength = .ok latestRefreshSchema := by
      decide +kernel
    have h3 : validText "MANUAL_BOOTLOADER_VISIBLE".toList maxStatusLength maxSummaryLength = .ok _ :=
      validText_ofList (by decide +kernel)
    have h4 : validText "Review ROM-0 readiness manually before any destructive decision".toList
      maxNextActionLength maxSummaryLength = .ok _ := validText_ofList (by decide +kernel)
    have h5 : validCount 0 maxBlockerCount = .ok () := rfl
    have h6 : validBlockers [] = .ok [] := rfl
    unfold GoffyRomStatusOutput.create
    simp only [hstatus, hsummary, h1, hgenerated, hversion, h2, hready.refreshStatus,
      hready.packetStatus, validText_ready, hboot, h3, hready.operatorChecklistStatus, hdecision,
      hready.unlockGateStatus, hready.stockRestoreGateStatus, hready.gsiCandidateGateStatus,
      hready.dsuPreflightGateStatus, hready.fastbootGateStatus, validText_gateReady,
      hready.blockerCount, h5, hblockers, h6, hnext, h4, Checks.ok_bind]
    exact ⟨_, rfl⟩

theorem not_ready_invalidStatus (summary : String) :
    ¬ ∃ o, invalidStatus summary = .ok o ∧ o.romReady = true := by
  rintro ⟨o, ho, hready⟩
  rw [← (created_of_create ho).romReady] at hready
  exact Bool.false_ne_true hready

theorem snapshot_object_ready_iff :
    (∃ o, goffyRomStatusSnapshot false (.object r) operator = .ok o ∧ o.romReady = true) ↔
      ∃ e v, romEvidence r operator = .ok e ∧ e.romReady = true ∧
        validText e.generatedAt 64 maxSummaryLength = .ok v := by
  unfold goffyRomStatusSnapshot
  rw [if_neg Bool.false_ne_true]
  dsimp only
  cases hevidence : romEvidence r operator with
  | error stop =>
    cases stop with
    | returned summary => exact iff_of_false (not_ready_invalidStatus _) nofun
    | raised e => exact iff_of_false (not_ready_invalidStatus _) nofun
  | ok e =>
    dsimp only
    constructor
    · rintro ⟨o, ho, hready⟩
      cases hcreate : e.output.create with
      | error e' =>
        rw [hcreate] at ho
        exact absurd ⟨o, ho, hready⟩ (not_ready_invalidStatus _)
      | ok o' =>
        rw [hcreate] at ho
        obtain rfl := Except.ok.inj ho
        have hready' : e.romReady = true := (created_of_create hcreate).romReady.trans hready
        obtain ⟨v, hv⟩ := (create_ready_iff hready').1 ⟨o', hcreate⟩
        exact ⟨e, v, rfl, hready', hv⟩
    · rintro ⟨e', v, he, hready, hv⟩
      obtain rfl := Except.ok.inj he
      obtain ⟨o, ho⟩ := (create_ready_iff hready).2 ⟨v, hv⟩
      refine ⟨o, by rw [ho], ?_⟩
      rw [← (created_of_create ho).romReady]
      exact hready

/-- **Readiness.** The answer says that the ROM is ready exactly if both artifacts are complete. -/
theorem romReady_iff {directoryIsSymlink : Bool} :
    (∃ o, goffyRomStatusSnapshot directoryIsSymlink refresh operator = .ok o ∧ o.romReady = true) ↔
      directoryIsSymlink = false ∧ ∃ r op, refresh = .object r ∧ operator = .object op ∧
        RefreshComplete r ∧ OperatorComplete op := by
  cases directoryIsSymlink with
  | true => exact iff_of_false (not_ready_invalidStatus _) nofun
  | false =>
    cases refresh with
    | missing =>
      refine iff_of_false ?_ nofun
      rintro ⟨o, ho, hready⟩
      rw [← (created_of_create ho).romReady] at hready
      exact Bool.false_ne_true hready
    | notRegular => exact iff_of_false (not_ready_invalidStatus _) nofun
    | unreadable => exact iff_of_false (not_ready_invalidStatus _) nofun
    | object r =>
      rw [snapshot_object_ready_iff, romEvidence_ready_iff]
      constructor
      · rintro ⟨hr, op, rfl, hop⟩
        exact ⟨rfl, r, op, rfl, rfl, hr, hop⟩
      · rintro ⟨-, r', op, hr', rfl, hr, hop⟩
        obtain rfl : r = r' := by
          injection hr'
        exact ⟨hr, op, rfl, hop⟩

/-! ### What a ready answer stands for -/

/-- There is no blocker, and nothing else in its place. -/
def NoBlockers (json : Option Json) : Prop := json = none ∨ json = some (.array [])

/-- Every entry about a gate says that its evidence is loaded, and no artifact has a blocker. -/
structure Vouched (r op : Members) : Prop where
  evidence : ∀ gate ∈ evidenceGates, ∀ item ∈ evidenceInputs r,
    entryText "name" item = some gate.toList → entryText "status" item = some "LOADED".toList
  refreshBlockers : NoBlockers (get r "blocked_by")
  operatorBlockers : NoBlockers (get op "blocked_by")

/-- The blockers are texts that are not blank. -/
def BlockersWellFormed (json : Option Json) : Prop :=
  ∀ value, json = some value →
    ∃ items, value = .array items ∧ ∀ item ∈ items, ∃ s, item = .str s ∧ strip s ≠ []

/-- The entries about a gate have one status text, without white space to be normalized, and the blockers
are texts. -/
structure WellFormed (r op : Members) : Prop where
  evidence : ∀ gate ∈ evidenceGates, ∃ status, normalize status = status ∧
    ∀ item ∈ evidenceInputs r, entryText "name" item = some gate.toList →
      entryText "status" item = some status
  refreshBlockers : BlockersWellFormed (get r "blocked_by")
  operatorBlockers : BlockersWellFormed (get op "blocked_by")

theorem noBlockers_iff {json : Option Json} (h : stringItems json = []) :
    NoBlockers json ↔ BlockersWellFormed json := by
  constructor
  · rintro (rfl | rfl)
    · exact nofun
    · intro value hvalue
      exact ⟨[], (Option.some.inj hvalue).symm, fun item hitem => absurd hitem List.not_mem_nil⟩
  · intro hwell
    cases json with
    | none => exact Or.inl rfl
    | some value =>
      obtain ⟨items, rfl, hitems⟩ := hwell value rfl
      cases items with
      | nil => exact Or.inr rfl
      | cons item items =>
        obtain ⟨s, rfl, hs⟩ := hitems item List.mem_cons_self
        have hfirst : s ∈ stringItems (some (.array (.str s :: items))) :=
          List.mem_filterMap.2 ⟨.str s, List.mem_cons_self, if_neg hs⟩
        rw [h] at hfirst
        exact absurd hfirst List.not_mem_nil

/-- Complete artifacts stand for what the claim of readiness says exactly if they are well formed. -/
theorem vouched_iff_wellFormed (hr : RefreshComplete r) (hop : OperatorComplete op) :
    Vouched r op ↔ WellFormed r op := by
  have hloaded : normalize "LOADED".toList = "LOADED".toList := isConstant_loaded.normal
  constructor
  · intro h
    exact ⟨fun gate hgate => ⟨_, hloaded, h.evidence gate hgate⟩,
      (noBlockers_iff hr.noBlockers).1 h.refreshBlockers,
      (noBlockers_iff hop.noBlockers).1 h.operatorBlockers⟩
  · intro h
    refine ⟨fun gate hgate item hitem hname => ?_, (noBlockers_iff hr.noBlockers).2 h.refreshBlockers,
      (noBlockers_iff hop.noBlockers).2 h.operatorBlockers⟩
    obtain ⟨status, hnormal, hall⟩ := h.evidence gate hgate
    -- the entry that is read last has the status of all of them
    obtain ⟨last, hlast, hshown⟩ := hr.loaded gate hgate
    obtain ⟨item', hitem', hreading⟩ := exists_of_lastReading hlast
    obtain ⟨hname', hstatus'⟩ := reading_eq_some hreading
    obtain rfl : status = last := Option.some.inj ((hall item' hitem' hname').symm.trans hstatus')
    rw [hall item hitem hname, ← hshown, hnormal]

/-- A ready answer about these artifacts says the truth. -/
def ReadyMeansVouched (directoryIsSymlink : Bool) (refresh operator : Artifact) : Prop :=
  ∀ o, goffyRomStatusSnapshot directoryIsSymlink refresh operator = .ok o → o.romReady = true →
    ∃ r op, refresh = .object r ∧ operator = .object op ∧ Vouched r op

/-- **Readiness is vouched for** exactly if artifacts that are complete are well formed too. -/
theorem readyMeansVouched_iff (directoryIsSymlink : Bool) (refresh operator : Artifact) :
    ReadyMeansVouched directoryIsSymlink refresh operator ↔
      ∀ r op, directoryIsSymlink = false → refresh = .object r → operator = .object op →
        RefreshComplete r → OperatorComplete op → WellFormed r op := by
  constructor
  · rintro h r op hd rfl rfl hr hop
    obtain ⟨o, ho, hready⟩ := romReady_iff.2 ⟨hd, r, op, rfl, rfl, hr, hop⟩
    obtain ⟨r', op', hr', hop', hvouched⟩ := h o ho hready
    injection hr' with hr'
    injection hop' with hop'
    subst hr' hop'
    exact (vouched_iff_wellFormed hr hop).1 hvouched
  · intro h o ho hready
    obtain ⟨hd, r, op, hr, hop, hrc, hopc⟩ := romReady_iff.1 ⟨o, ho, hready⟩
    exact ⟨r, op, hr, hop, (vouched_iff_wellFormed hrc hopc).2 (h r op hd hr hop hrc hopc)⟩

/-- A report with two entries about the stock firmware: the first one says that it is missing. -/
def duplicatedReport : Members :=
  demoRefreshReport.map fun m =>
    if m.1 = "evidence_inputs".toList then
      (m.1, .array (.object [("name".toList, .str "stock_restore".toList),
        ("status".toList, .str "MISSING".toList)] :: evidenceInputs demoRefreshReport))
    else m

theorem duplicatedReport_complete : RefreshComplete duplicatedReport where
  schema := ⟨_, rfl, isConstant_latest.normal⟩
  withheld := by decide
  status := ⟨_, rfl, isConstant_ready.normal⟩
  packetStatus := ⟨_, rfl, isConstant_ready.normal⟩
  bootloader := ⟨_, rfl, isConstant_bootloader.normal⟩
  generatedAt s hs _ := by
    obtain rfl : "2026-07-22T15:00:01Z".toList = s := by
      injection Option.some.inj hs
    have hshown : boundedText "2026-07-22T15:00:01Z".toList maxStatusLength =
        .ok "2026-07-22T15:00:01Z".toList := by decide +kernel
    exact ⟨by decide +kernel, _, hshown⟩
  romReady := by decide
  refreshSucceeded := by decide
  noBlockers := by decide
  readable item hitem name status hreading := by
    have hstatus : status ∈ ["MISSING".toList, "LOADED".toList] := by
      have hall : ((evidenceInputs duplicatedReport).filterMap reading).map (·.2) ⊆
          ["MISSING".toList, "LOADED".toList] := by decide +kernel
      exact hall (List.mem_map.2 ⟨_, List.mem_filterMap.2 ⟨item, hitem, hreading⟩, rfl⟩)
    have hshown : ∀ status ∈ ["MISSING".toList, "LOADED".toList],
        boundedText status maxStatusLength = .ok status := by decide +kernel
    exact ⟨status, hshown status hstatus⟩
  loaded gate hgate := by
    have hlast : ∀ gate ∈ evidenceGates,
        lastReading (evidenceInputs duplicatedReport) gate.toList = some "LOADED".toList := by
      decide +kernel
    exact ⟨_, hlast gate hgate, isConstant_loaded.normal⟩

theorem demoOperatorReport_complete : OperatorComplete demoOperatorReport where
  schema := by decide
  withheld := by decide
  status := ⟨_, rfl, isConstant_ready.normal⟩
  ok := by decide
  noBlockers := by decide

/-- The second entry hides the first one. -/
theorem duplicate_makes_ready :
    ¬ ReadyMeansVouched false (.object duplicatedReport) (.object demoOperatorReport) := by
  intro h
  obtain ⟨o, ho, hready⟩ := romReady_iff.2
    ⟨rfl, _, _, rfl, rfl, duplicatedReport_complete, demoOperatorReport_complete⟩
  obtain ⟨r, op, hr, -, hvouched⟩ := h o ho hready
  injection hr with hr
  subst hr
  have hloaded := hvouched.evidence "stock_restore" (by decide)
    (.object [("name".toList, .str "stock_restore".toList), ("status".toList, .str "MISSING".toList)])
    List.mem_cons_self (by decide)
  exact absurd hloaded (by decide)

end GoffyHub.Rom
