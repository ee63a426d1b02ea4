import GoffyOs.Contract.RomStatus
import GoffyOs.Hub.RomChecklist
import Mathlib.Data.List.Dedup

/-!
# `goffy.rom.checklist` across the two sides

The Hub lets a checklist say of itself that it is `MISSING` or `INVALID`, and shows it as an available
one. The phone does not take such an answer; it takes every other one.
-/

namespace GoffyHub.Rom

open GoffyPhone Kotlin

/-- What the phone reads of a step. -/
def GoffyRomChecklistStepOutput.onPhone (s : GoffyRomChecklistStepOutput) : GoffyRomChecklistStep where
  stepIndex := s.stepIndex
  title := ofChars s.title
  kind := ofChars s.kind
  status := ofChars s.status
  summary := ofChars s.summary
  blocked := s.blocked
  blockerCount := s.blockerCount

/-- What the phone reads of an answer. -/
def GoffyRomChecklistOutput.onPhone (o : GoffyRomChecklistOutput) : GoffyRomChecklist where
  status := ofChars o.status
  milestone := lit "ROM-0"
  generatedAt := ofChars o.generatedAt
  checklistStatus := ofChars o.checklistStatus
  destructiveActions := lit "withheld"
  totalStepCount := o.totalStepCount
  doneStepCount := o.doneStepCount
  remainingStepCount := o.remainingStepCount
  nextSteps := o.nextSteps.map (·.onPhone)
  nextStepsTruncated := o.nextStepsTruncated
  blockerCount := o.blockerCount
  blockers := o.blockers.map ofChars
  blockersTruncated := o.blockersTruncated
  nextStepTitle := ofChars o.nextStepTitle
  nextStepStatus := ofChars o.nextStepStatus
  nextAction := ofChars o.nextAction
  checkedOperatorChecklist := o.checkedOperatorChecklist

/-! ### Words -/

section Words

variable {value v : Python.Str} {values : List String} {maximum n : ℕ} {json : Option Python.Json}
  {message : String}

theorem mem_of_any {values : List String} (h : (values.any (·.toList = value)) = true) :
    value ∈ values.map String.toList := by
  obtain ⟨w, hw, heq⟩ := List.any_eq_true.1 h
  exact List.mem_map.2 ⟨w, hw, of_decide_eq_true heq⟩

theorem any_of_mem {values : List String} (h : value ∈ values.map String.toList) :
    (values.any (·.toList = value)) = true := by
  obtain ⟨w, hw, heq⟩ := List.mem_map.1 h
  exact List.any_eq_true.2 ⟨w, hw, decide_eq_true heq⟩

theorem validLiteral_eq_ok : validLiteral value values = .ok () ↔ value ∈ values.map String.toList := by
  unfold validLiteral
  constructor
  · intro h
    split at h
    · exact mem_of_any ‹_›
    · cases h
  · exact fun h => if_pos (any_of_mem h)

theorem mem_of_knownValue (h : knownValue json maximum values message = .ok v) :
    v ∈ values.map String.toList := by
  obtain ⟨rawValue, -, h⟩ := Checks.bind_eq_ok.1 h
  obtain ⟨hany, rfl⟩ := Checks.ite_error_eq_ok.1 h
  exact mem_of_any hany

theorem boundedText_ofList {l : List Char} (h : boundedText l maximum = .ok l) :
    boundedText (String.ofList l).toList maximum = .ok (String.ofList l).toList := by
  rw [String.toList_ofList]
  exact h

/-- The words of the tool, as its validators see them. -/
def IsFixed (value : Python.Str) : Prop := boundedText value 192 = .ok value

theorem isFixed_ofList {l : List Char} (h : boundedText l 192 = .ok l) :
    IsFixed (String.ofList l).toList := boundedText_ofList h

theorem isFixed_stepKind : ∀ w ∈ checklistStepKindValues, IsFixed w.toList := by
  simp only [checklistStepKindValues, List.forall_mem_cons]
  refine ⟨isFixed_ofList ?_, isFixed_ofList ?_, isFixed_ofList ?_, isFixed_ofList ?_,
    List.forall_mem_nil _⟩ <;> decide +kernel

theorem isFixed_nextStepStatus : ∀ w ∈ checklistNextStepStatusValues, IsFixed w.toList := by
  simp only [checklistNextStepStatusValues, checklistStepStatusValues, List.cons_append,
    List.nil_append, List.forall_mem_cons]
  refine ⟨isFixed_ofList ?_, isFixed_ofList ?_, isFixed_ofList ?_, isFixed_ofList ?_,
    isFixed_ofList ?_, List.forall_mem_nil _⟩ <;> decide +kernel

theorem isFixed_stepStatus : ∀ w ∈ checklistStepStatusValues, IsFixed w.toList :=
  fun w hw => isFixed_nextStepStatus w (List.mem_append_left _ hw)

theorem isFixed_status : ∀ w ∈ checklistStatusValues, IsFixed w.toList := by
  simp only [checklistStatusValues, List.forall_mem_cons]
  refine ⟨isFixed_ofList ?_, isFixed_ofList ?_,
    isFixed_nextStepStatus "MISSING" (by decide), isFixed_nextStepStatus "INVALID" (by decide),
    List.forall_mem_nil _⟩ <;> decide +kernel

/-- Where the validator leaves the words as they are, it only looks whether it has one. -/
theorem validWord_eq_ok (hfixed : ∀ w ∈ values, IsFixed w.toList) :
    validWord value values 192 = .ok v ↔ v = value ∧ value ∈ values.map String.toList := by
  unfold validWord
  rw [Checks.bind_eq_ok]
  constructor
  · rintro ⟨⟨⟩, hliteral, hbounded⟩
    have hmem := validLiteral_eq_ok.1 hliteral
    obtain ⟨w, hw, rfl⟩ := List.mem_map.1 hmem
    rw [hfixed w hw] at hbounded
    exact ⟨(Except.ok.inj hbounded).symm, hmem⟩
  · rintro ⟨rfl, hmem⟩
    obtain ⟨w, hw, rfl⟩ := List.mem_map.1 hmem
    exact ⟨(), validLiteral_eq_ok.2 hmem, hfixed w hw⟩

theorem validCount_eq_ok : validCount n maximum = .ok () ↔ n ≤ maximum := by
  unfold validCount
  constructor
  · intro h
    split at h
    · assumption
    · cases h
  · exact fun h => if_pos h

end Words

/-! ### Steps -/

section Steps

variable {s : GoffyRomChecklistStepOutput} {steps : List GoffyRomChecklistStepOutput}
  {item : Python.Json} {items : List Python.Json} {index : ℕ}

/-- What the Hub has checked of a step. -/
structure GoffyRomChecklistStepOutput.Valid (s : GoffyRomChecklistStepOutput) : Prop where
  stepIndex : 1 ≤ s.stepIndex ∧ s.stepIndex ≤ maxChecklistStepCount
  title : IsSafe maxChecklistStepTitleLength s.title
  kind : s.kind ∈ checklistStepKindValues.map String.toList
  status : s.status ∈ checklistStepStatusValues.map String.toList
  summary : IsSafe maxChecklistStepSummaryLength s.summary
  blockerCount : s.blockerCount ≤ maxChecklistStepCount
  blocked : s.blocked = (decide (s.status = "BLOCKED".toList) || decide (0 < s.blockerCount))

theorem valid_of_operatorStep (hitem : JsonAscii item) (h : operatorStep index item = .ok s) :
    s.stepIndex = index ∧ s.Valid := by
  unfold operatorStep at h
  split at h
  case h_2 => cases h
  case h_1 o =>
    rw [JsonAscii] at hitem
    have hget : ∀ key, ∀ j ∈ get o key, JsonAscii j := fun key j hj => hitem.get hj
    unfold GoffyRomChecklistStepOutput.create at h
    simp only [Checks.bind_eq_ok, Checks.throw_bind_eq_ok] at h
    obtain ⟨blockers, hblockers, status, hstatus, title, htitle, kind, hkind, summary, hsummary,
      hindex, ⟨⟩, hcount, title', htitle', kind', hkind', status', hstatus', summary', hsummary', ⟨⟩,
      hblockerCount, h⟩ := h
    obtain rfl := Except.ok.inj h
    obtain ⟨rfl, hkindMem⟩ := (validWord_eq_ok isFixed_stepKind).1 hkind'
    obtain ⟨rfl, hstatusMem⟩ := (validWord_eq_ok isFixed_stepStatus).1 hstatus'
    have hdefault : Ascii ("ROM-0 checklist step ".toList ++ Python.natStr index) :=
      Ascii.append (ascii_ofList (by decide)) (ascii_natStr index)
    have htitleAscii : Ascii title := ascii_textValue (hget _) hdefault htitle
    have hsummaryAscii : Ascii summary :=
      ascii_textValue (hget _) (ascii_ofList (by decide)) hsummary
    refine ⟨rfl, ⟨⟨Nat.pos_of_ne_zero hindex, validCount_eq_ok.1 hcount⟩,
      isSafe_of_validText htitleAscii (by decide) (by decide) htitle', hkindMem, hstatusMem,
      isSafe_of_validText hsummaryAscii (by decide) le_rfl hsummary',
      validCount_eq_ok.1 hblockerCount, ?_⟩⟩
    cases blockers with
    | nil => rfl
    | cons b bs => rfl

theorem valid_of_stepsFrom : ∀ (items : List Python.Json) (index : ℕ)
    (steps : List GoffyRomChecklistStepOutput), ItemsAscii items → stepsFrom index items = .ok steps →
    steps.map (·.stepIndex) = List.range' index items.length ∧ ∀ s ∈ steps, s.Valid
  | [], index, steps, _, h => by
    obtain rfl := Except.ok.inj h
    exact ⟨rfl, fun s hs => absurd hs List.not_mem_nil⟩
  | item :: items, index, steps, hascii, h => by
    rw [ItemsAscii] at hascii
    obtain ⟨step, hstep, h⟩ := Checks.bind_eq_ok.1 h
    obtain ⟨rest, hrest, h⟩ := Checks.bind_eq_ok.1 h
    obtain rfl := Except.ok.inj h
    obtain ⟨hindex, hvalid⟩ := valid_of_operatorStep hascii.1 hstep
    obtain ⟨hindices, hvalids⟩ := valid_of_stepsFrom items (index + 1) rest hascii.2 hrest
    refine ⟨?_, List.forall_mem_cons.2 ⟨hvalid, hvalids⟩⟩
    rw [List.map_cons, hindex, hindices, List.length_cons, List.range'_succ]

theorem valid_of_operatorSteps {report : Members} (hreport : MembersAscii report)
    (h : operatorSteps report = .ok steps) :
    (steps.map (·.stepIndex)).Nodup ∧ steps.length ≤ maxChecklistStepCount ∧ ∀ s ∈ steps, s.Valid := by
  unfold operatorSteps at h
  split at h
  case h_2 => cases h
  case h_1 rawSteps hraw =>
    split at h
    case isTrue => cases h
    case isFalse hlength =>
      have hascii := hreport.get hraw
      rw [JsonAscii] at hascii
      obtain ⟨hindices, hvalid⟩ := valid_of_stepsFrom _ _ _ hascii h
      have hlen := congrArg List.length hindices
      rw [List.length_map, List.length_range'] at hlen
      exact ⟨hindices ▸ List.nodup_range', hlen.trans_le (not_lt.1 hlength), hvalid⟩

/-- The phone takes such a step. -/
theorem GoffyRomChecklistStepOutput.Valid.matchesToolContract (h : s.Valid) :
    s.onPhone.matchesToolContract = true := by
  have hindex : inRange 1 maxGoffyRomChecklistStepCount s.onPhone.stepIndex = true :=
    inRange_iff.2 ⟨Int.ofNat_le.2 h.stepIndex.1, Int.ofNat_le.2 h.stepIndex.2⟩
  have hcount : inRange 0 maxGoffyRomChecklistStepCount s.onPhone.blockerCount = true :=
    inRange_iff.2 ⟨Int.natCast_nonneg _, Int.ofNat_le.2 h.blockerCount⟩
  have htitle : isSafeRomStatusField s.onPhone.title maxGoffyRomChecklistTitleLength = true :=
    isSafeRomStatusField_of_isSafe h.title
  have hsummary : isSafeRomStatusField s.onPhone.summary maxGoffyRomChecklistSummaryLength = true :=
    isSafeRomStatusField_of_isSafe h.summary
  have hkind : s.onPhone.kind ∈ goffyRomChecklistStepKindValues :=
    List.mem_map_of_mem (f := ofChars) h.kind
  have hstatus : s.onPhone.status ∈ goffyRomChecklistStepStatusValues :=
    List.mem_map_of_mem (f := ofChars) h.status
  have hblocked : s.onPhone.blocked =
      (decide (s.onPhone.status = lit "BLOCKED") || decide (0 < s.onPhone.blockerCount)) := by
    show s.blocked = (decide (ofChars s.status = lit "BLOCKED") || decide ((0 : ℤ) < s.blockerCount))
    rw [h.blocked]
    congr 1
    · have hword : ∀ w ∈ checklistStepStatusValues.map String.toList,
          decide (w = "BLOCKED".toList) = decide (ofChars w = lit "BLOCKED") := by decide
      exact hword s.status h.status
    · exact decide_eq_decide.2 Int.natCast_pos.symm
  rw [GoffyRomChecklistStep.matchesToolContract, hindex, hcount, htitle, hsummary, hblocked,
    decide_eq_true hkind, decide_eq_true hstatus, decide_eq_true rfl]
  rfl

theorem mem_of_nextStep (h : nextStep steps = some s) : s ∈ steps := by
  unfold nextStep at h
  rcases Option.or_eq_some_iff.1 h with h | ⟨-, h⟩
  · exact List.mem_of_mem_filter (List.mem_of_find?_eq_some h)
  · exact List.mem_of_mem_filter (List.mem_of_mem_head? h)

theorem doneStepCount_add_remaining : doneStepCount steps + (remainingSteps steps).length =
    steps.length := by
  unfold doneStepCount remainingSteps
  rw [← List.countP_eq_length_filter, List.length_eq_countP_add_countP (l := steps)
    (fun s => decide (s.status = "DONE".toList))]
  congr 1
  refine List.countP_congr fun s _ => ?_
  simp only [decide_eq_true_eq, ne_eq]

theorem nextStepStatus_mem (hsteps : ∀ s ∈ steps, s.Valid) :
    nextStepStatus steps ∈ checklistNextStepStatusValues.map String.toList := by
  unfold nextStepStatus
  split
  · decide
  case h_2 step hstep =>
    have hstatus := (hsteps step (mem_of_nextStep hstep)).status
    rw [checklistNextStepStatusValues, List.map_append]
    exact List.mem_append_left _ hstatus

theorem ascii_of_isSafe {n : ℕ} {t : Python.Str} (h : IsSafe n t) : Ascii t := by
  intro c hc
  have hprintable := h.display.printable c hc
  rw [isPrintable_iff] at hprintable
  omega

theorem ascii_nextStepTitle (hsteps : ∀ s ∈ steps, s.Valid) : Ascii (nextStepTitle steps) := by
  unfold nextStepTitle
  split
  · exact ascii_ofList (by decide)
  · exact ascii_of_isSafe (hsteps _ (mem_of_nextStep ‹_›)).title

theorem ascii_nextStepAction (hsteps : ∀ s ∈ steps, s.Valid) {action : Python.Str}
    (h : nextStepAction steps = .ok action) : Ascii action := by
  unfold nextStepAction at h
  split at h
  · obtain rfl := Except.ok.inj h
    exact ascii_ofList (by decide)
  · refine ascii_boundedText (Ascii.append (ascii_ofList (by decide)) ?_) h
    exact ascii_of_isSafe (hsteps _ (mem_of_nextStep ‹_›)).title

end Steps

/-! ### Answers -/

section Answers

variable {report : Members} {status : Python.Str} {o₀ o : GoffyRomChecklistOutput}
  {e : ChecklistEvidence}

/-- An answer and what its validators make of it. -/
structure ChecklistCreated (o₀ o : GoffyRomChecklistOutput) : Prop where
  generatedAt : validText o₀.generatedAt 64 maxNextActionLength = .ok o.generatedAt
  checklistStatus : o₀.checklistStatus ∈ checklistStatusValues.map String.toList
  blockerCount : validCount o₀.blockerCount maxBlockerCount = .ok ()
  blockers : validBlockers o₀.blockers = .ok o.blockers
  nextStepTitle : validText o₀.nextStepTitle maxChecklistStepTitleLength maxNextActionLength =
    .ok o.nextStepTitle
  nextStepStatus : o₀.nextStepStatus ∈ checklistNextStepStatusValues.map String.toList
  nextAction : validText o₀.nextAction maxNextActionLength maxNextActionLength = .ok o.nextAction
  kept : o = { o₀ with
    generatedAt := o.generatedAt, blockers := o.blockers, nextStepTitle := o.nextStepTitle
    nextAction := o.nextAction }

/-- How the counts of an answer fit together. -/
structure GoffyRomChecklistOutput.Counted (o : GoffyRomChecklistOutput) : Prop where
  status : o.status ∈ ["available", "missing", "invalid"].map String.toList
  total : o.totalStepCount ≤ maxChecklistStepCount
  done : o.doneStepCount + o.remainingStepCount = o.totalStepCount
  nextSteps_length : o.nextSteps.length ≤ maxChecklistSteps ∧ o.nextSteps.length ≤ o.remainingStepCount
  nextStepsTruncated : o.nextStepsTruncated = decide (o.nextSteps.length < o.remainingStepCount)
  nextSteps : ∀ s ∈ o.nextSteps, s.Valid
  nodup : (o.nextSteps.map (·.stepIndex)).Nodup
  blockers_length : o.blockers.length ≤ o.blockerCount
  blockersTruncated : o.blockersTruncated = decide (o.blockers.length < o.blockerCount)
  checked : o.checkedOperatorChecklist = decide (o.status = "available".toList)
  steps : o.status = "available".toList → 0 < o.totalStepCount

theorem create_eq_ok (hcounted : o₀.Counted) : o₀.create = .ok o ↔ ChecklistCreated o₀ o := by
  have htotal := hcounted.total
  have hdone := hcounted.done
  have hliteral := validLiteral_eq_ok.2 hcounted.status
  have hstatus := @validWord_eq_ok o₀.checklistStatus o.checklistStatus _ isFixed_status
  have hcount := validCount_eq_ok.2 htotal
  have hcount₁ : validCount o₀.doneStepCount maxChecklistStepCount = .ok () :=
    validCount_eq_ok.2 (by omega)
  have hcount₂ : validCount o₀.remainingStepCount maxChecklistStepCount = .ok () :=
    validCount_eq_ok.2 (by omega)
  have hcount₃ := validCount_eq_ok.2 hcounted.nextSteps_length.1
  unfold GoffyRomChecklistOutput.create
  simp only [hliteral, hcount, hcount₁, hcount₂, hcount₃, Checks.ok_bind, Checks.bind_eq_ok]
  constructor
  · rintro ⟨generatedAt, h1, checklistStatus, h2, ⟨⟩, h3, blockers, h4, title, h5, nextStatus, h6,
      nextAction, h7, h⟩
    obtain rfl := Except.ok.inj h
    obtain ⟨rfl, hmem⟩ := (validWord_eq_ok isFixed_status).1 h2
    obtain ⟨rfl, hmem'⟩ := (validWord_eq_ok isFixed_nextStepStatus).1 h6
    exact ⟨h1, hmem, h3, h4, h5, hmem', h7, rfl⟩
  · intro h
    refine ⟨o.generatedAt, h.generatedAt, o₀.checklistStatus,
      (validWord_eq_ok isFixed_status).2 ⟨rfl, h.checklistStatus⟩, (), h.blockerCount, o.blockers,
      h.blockers, o.nextStepTitle, h.nextStepTitle, o₀.nextStepStatus,
      (validWord_eq_ok isFixed_nextStepStatus).2 ⟨rfl, h.nextStepStatus⟩, o.nextAction, h.nextAction, ?_⟩
    exact congrArg Except.ok h.kept.symm

/-- The texts of an answer are of ASCII. -/
structure GoffyRomChecklistOutput.IsAscii (o : GoffyRomChecklistOutput) : Prop where
  generatedAt : Ascii o.generatedAt
  blockers : ∀ b ∈ o.blockers, Ascii b
  nextStepTitle : Ascii o.nextStepTitle
  nextAction : Ascii o.nextAction

/-- The statuses of a checklist that the phone takes as available. -/
def availableStatuses : List Python.Str := ["BLOCKED_EVIDENCE".toList, readyForRom0Review]

/-- What decides about an answer that the validators let through. -/
theorem ChecklistCreated.matchesToolContract_iff (h : ChecklistCreated o₀ o) (hcounted : o₀.Counted)
    (hascii : o₀.IsAscii) : o.onPhone.matchesToolContract = true ↔
      (o₀.status = "available".toList ↔ o₀.checklistStatus ∈ availableStatuses) := by
  have hstatus : o.status = o₀.status := by rw [h.kept]
  have hchecklistStatus : o.checklistStatus = o₀.checklistStatus := by rw [h.kept]
  have htotal : o.totalStepCount = o₀.totalStepCount := by rw [h.kept]
  have hdone : o.doneStepCount = o₀.doneStepCount := by rw [h.kept]
  have hremaining : o.remainingStepCount = o₀.remainingStepCount := by rw [h.kept]
  have hnextSteps : o.nextSteps = o₀.nextSteps := by rw [h.kept]
  have hnextStepsTruncated : o.nextStepsTruncated = o₀.nextStepsTruncated := by rw [h.kept]
  have hblockerCount : o.blockerCount = o₀.blockerCount := by rw [h.kept]
  have hblockersTruncated : o.blockersTruncated = o₀.blockersTruncated := by rw [h.kept]
  have hnextStepStatus : o.nextStepStatus = o₀.nextStepStatus := by rw [h.kept]
  have hchecked : o.checkedOperatorChecklist = o₀.checkedOperatorChecklist := by rw [h.kept]
  have hsum := hcounted.done
  have hlength := hcounted.nextSteps_length
  have h1 : o.onPhone.status ∈ goffyRomStatusValues := by
    have hmem := hcounted.status
    rw [← hstatus] at hmem
    exact List.mem_map_of_mem (f := ofChars) hmem
  have h2 : isSafeRomStatusField o.onPhone.generatedAt maxGoffyRomTimestampLength = true :=
    isSafeRomStatusField_of_validText h.generatedAt hascii.generatedAt (by decide) (by decide)
  have h3 : o.onPhone.checklistStatus ∈ goffyRomChecklistStatusValues := by
    have hmem := h.checklistStatus
    rw [← hchecklistStatus] at hmem
    exact List.mem_map_of_mem (f := ofChars) hmem
  have h4 : inRange 0 maxGoffyRomChecklistStepCount o.onPhone.totalStepCount = true := by
    refine inRange_iff.2 ⟨Int.natCast_nonneg _, Int.ofNat_le.2 ?_⟩
    rw [htotal]
    exact hcounted.total
  have h5 : inRange 0 o.onPhone.totalStepCount o.onPhone.doneStepCount = true := by
    refine inRange_iff.2 ⟨Int.natCast_nonneg _, Int.ofNat_le.2 ?_⟩
    omega
  have h6 : o.onPhone.remainingStepCount = o.onPhone.totalStepCount - o.onPhone.doneStepCount := by
    show (o.remainingStepCount : ℤ) = o.totalStepCount - o.doneStepCount
    omega
  have hsize : o.onPhone.nextSteps.length = o₀.nextSteps.length := by
    rw [← hnextSteps]
    exact List.length_map _
  have h7 : o.onPhone.nextSteps.length ≤ maxGoffyRomChecklistSteps := hsize.trans_le hlength.1
  have h8 : (o.onPhone.nextSteps.length : ℤ) ≤ o.onPhone.remainingStepCount := by
    show _ ≤ (o.remainingStepCount : ℤ)
    omega
  have h9 : (if o.onPhone.nextStepsTruncated
      then decide ((o.onPhone.nextSteps.length : ℤ) < o.onPhone.remainingStepCount)
      else decide ((o.onPhone.nextSteps.length : ℤ) = o.onPhone.remainingStepCount)) = true := by
    show (if o.nextStepsTruncated
      then decide ((o.onPhone.nextSteps.length : ℤ) < (o.remainingStepCount : ℤ))
      else decide ((o.onPhone.nextSteps.length : ℤ) = (o.remainingStepCount : ℤ))) = true
    rw [hnextStepsTruncated, hcounted.nextStepsTruncated]
    by_cases hlt : o₀.nextSteps.length < o₀.remainingStepCount
    · rw [decide_eq_true hlt, if_pos rfl]
      exact decide_eq_true (by omega)
    · rw [decide_eq_false hlt, if_neg Bool.false_ne_true]
      exact decide_eq_true (by omega)
  have h10 : o.onPhone.nextSteps.all GoffyRomChecklistStep.matchesToolContract = true := by
    refine List.all_eq_true.2 fun s hs => ?_
    obtain ⟨step, hstep, rfl⟩ := List.mem_map.1 hs
    rw [hnextSteps] at hstep
    exact (hcounted.nextSteps step hstep).matchesToolContract
  have h11 : (o.onPhone.nextSteps.map (·.stepIndex)).dedup.length = o.onPhone.nextSteps.length := by
    have hindices : o.onPhone.nextSteps.map (·.stepIndex) =
        (o₀.nextSteps.map (·.stepIndex)).map Int.ofNat := by
      rw [← hnextSteps, List.map_map]
      exact List.map_map
    rw [hindices, List.Nodup.dedup (hcounted.nodup.map Int.ofNat_injective), List.length_map,
      List.length_map, hsize]
  have h12 : blockersMatchCount o.onPhone.blockers o.onPhone.blockerCount
      o.onPhone.blockersTruncated = true := by
    show blockersMatchCount (o.blockers.map ofChars) o.blockerCount o.blockersTruncated = true
    rw [hblockerCount, hblockersTruncated]
    exact blockersMatchCount_of_validBlockers h.blockers hascii.blockers h.blockerCount
      hcounted.blockers_length hcounted.blockersTruncated
  have h13 : isSafeRomStatusField o.onPhone.nextStepTitle maxGoffyRomChecklistTitleLength = true :=
    isSafeRomStatusField_of_validText h.nextStepTitle hascii.nextStepTitle (by decide) (by decide)
  have h14 : o.onPhone.nextStepStatus ∈ goffyRomChecklistNextStepStatusValues := by
    have hmem := h.nextStepStatus
    rw [← hnextStepStatus] at hmem
    exact List.mem_map_of_mem (f := ofChars) hmem
  have h15 : isSafeRomStatusField o.onPhone.nextAction maxGoffyRomNextActionLength = true :=
    isSafeRomStatusField_of_validText h.nextAction hascii.nextAction (by decide) (by decide)
  have havailable : o.onPhone.status = lit "available" ↔ o₀.status = "available".toList := by
    show ofChars o.status = lit "available" ↔ _
    rw [hstatus]
    have hword : ∀ w ∈ ["available", "missing", "invalid"].map String.toList,
        (ofChars w = lit "available" ↔ w = "available".toList) := by decide
    exact hword _ hcounted.status
  have hstatuses : o.onPhone.checklistStatus ∈ goffyRomChecklistAvailableStatusValues ↔
      o₀.checklistStatus ∈ availableStatuses := by
    show ofChars o.checklistStatus ∈ _ ↔ _
    rw [hchecklistStatus]
    have hword : ∀ w ∈ checklistStatusValues.map String.toList,
        (ofChars w ∈ goffyRomChecklistAvailableStatusValues ↔ w ∈ availableStatuses) := by decide
    exact hword _ h.checklistStatus
  have h16 : o.onPhone.checkedOperatorChecklist = decide (o₀.status = "available".toList) := by
    show o.checkedOperatorChecklist = _
    rw [hchecked, hcounted.checked]
  have h17 : o₀.status = "available".toList → 0 < o.onPhone.totalStepCount := by
    intro hav
    have hpos := hcounted.steps hav
    show (0 : ℤ) < o.totalStepCount
    omega
  rw [GoffyRomChecklist.matchesToolContract, h4, h5, h9, h10, h12, h13, h15, h2]
  simp only [Bool.and_eq_true, Bool.or_eq_true, decide_eq_true_eq, h1, h3, h6, h7, h11, h14,
    havailable, hstatuses, h16, ne_eq, Bool.not_eq_true', decide_eq_false_iff_not, and_true, true_and]
  constructor
  · rintro ⟨⟨-, hav⟩, hnot⟩
    constructor
    · exact fun h => hav.resolve_left (not_not_intro h)
    · exact fun h => hnot.resolve_right (not_not_intro h)
  · intro hiff
    have h8' := h6 ▸ h8
    refine ⟨⟨⟨⟨⟨⟨⟨rfl, rfl⟩, h8'⟩, ?_⟩, ?_⟩, ?_⟩, ?_⟩, ?_⟩
    · exact (em _).symm
    · exact em _
    · exact not_or_of_imp h17
    · exact not_or_of_imp hiff.1
    · by_cases hav : o₀.status = "available".toList
      · exact Or.inl hav
      · exact Or.inr (mt hiff.2 hav)

theorem ascii_output_checklist (hreport : MembersAscii report) (h : checklistEvidence report = .ok e)
    {action : Python.Str} (haction : nextStepAction e.steps = .ok action) :
    (e.output action).IsAscii ∧ (e.output action).Counted := by
  unfold checklistEvidence at h
  simp only [Checks.bind_eq_ok, Checks.throw_bind_eq_ok, raising_eq_ok] at h
  obtain ⟨-, -, generatedAt, hgenerated, status, -, steps, hsteps, hne, blockers, hblockers, h⟩ := h
  obtain rfl := Except.ok.inj h
  obtain ⟨hnodup, hlength, hvalid⟩ := valid_of_operatorSteps hreport hsteps
  have hget : ∀ key, ∀ j ∈ get report key, JsonAscii j := fun key j hj => hreport.get hj
  have hsub : ∀ s ∈ (remainingSteps steps).take maxChecklistSteps, s ∈ steps := fun s hs =>
    List.mem_of_mem_filter (List.mem_of_mem_take hs)
  constructor
  · exact {
      generatedAt := ascii_textValue (hget _) (ascii_ofList (by decide)) hgenerated
      blockers := fun b hb => by
        have hmem : b ∈ blockers := List.mem_eraseDups.1 (List.mem_of_mem_take hb)
        obtain ⟨item, hitem, hbounded⟩ := Checks.exists_of_mem_mapM hblockers hmem
        exact ascii_boundedText (ascii_stringItems (hget _) item hitem) hbounded
      nextStepTitle := ascii_nextStepTitle hvalid
      nextAction := ascii_nextStepAction hvalid haction }
  · exact {
      status := List.mem_map_of_mem List.mem_cons_self
      total := hlength
      done := doneStepCount_add_remaining
      nextSteps_length := ⟨List.length_take_le _ _, List.length_take_le' _ _⟩
      nextStepsTruncated := rfl
      nextSteps := fun s hs => hvalid s (hsub s hs)
      nodup := ((((List.take_sublist _ _).trans List.filter_sublist).map _).nodup hnodup)
      blockers_length := List.length_take_le' _ _
      blockersTruncated := by
        show decide (maxBlockers < blockers.eraseDups.length) =
          decide ((blockers.eraseDups.take maxBlockers).length < blockers.eraseDups.length)
        rw [List.length_take]
        exact decide_eq_decide.2 ⟨fun hlt => (min_le_left _ _).trans_lt hlt, fun hlt => by omega⟩
      checked := (decide_eq_true rfl).symm
      steps := fun _ => List.length_pos_of_ne_nil hne }

/-- The Hub shows the report: its texts, steps and counts pass the checks, and this is its status. -/
structure Shown (report : Members) (status : Python.Str) : Prop where
  schemaVersion : isText (get report "schema_version") supportedOperatorSchema = true
  destructiveActions : isText (get report "destructive_actions") "withheld" = true
  status : checklistStatusValue (get report "status") = .ok status
  generatedAt : ∃ t v, textValue (get report "generated_at") "unknown".toList 64 = .ok t ∧
    validText t 64 maxNextActionLength = .ok v
  steps : ∃ steps title action v, operatorSteps report = .ok steps ∧ steps ≠ [] ∧
    validText (nextStepTitle steps) maxChecklistStepTitleLength maxNextActionLength = .ok title ∧
    nextStepAction steps = .ok action ∧
    validText action maxNextActionLength maxNextActionLength = .ok v
  blockers : ∃ blockers vs, ((stringItems (get report "blocked_by")).mapM fun item =>
      boundedText item maxBlockerLength) = .ok blockers ∧
    validCount blockers.eraseDups.length maxBlockerCount = .ok () ∧
    validBlockers (blockers.eraseDups.take maxBlockers) = .ok vs

/-- What the Hub shows passes all checks, and the other way round. -/
theorem shown_iff (hreport : MembersAscii report) : Shown report status ↔
    ∃ e action o, checklistEvidence report = .ok e ∧ e.status = status ∧
      nextStepAction e.steps = .ok action ∧ (e.output action).create = .ok o := by
  constructor
  · intro h
    obtain ⟨t, generatedAt, hgenerated, hgenerated'⟩ := h.generatedAt
    obtain ⟨steps, title, action, nextAction, hsteps, hne, htitle, haction, hnextAction⟩ := h.steps
    obtain ⟨blockers, vs, hblockers, hcount, hvs⟩ := h.blockers
    have hevidence : checklistEvidence report = .ok ⟨t, status, steps, blockers.eraseDups⟩ := by
      unfold checklistEvidence
      rw [h.schemaVersion, h.destructiveActions, hgenerated, h.status, hsteps, hblockers]
      simp only [Bool.not_true, Bool.false_eq_true, if_false, raising, Except.mapError, hne,
        Checks.ok_bind]
      rfl
    obtain ⟨-, hcounted⟩ := ascii_output_checklist hreport hevidence haction
    have hvalid := (valid_of_operatorSteps hreport hsteps).2.2
    refine ⟨_, action, { (ChecklistEvidence.output ⟨t, status, steps, blockers.eraseDups⟩ action) with
      generatedAt, blockers := vs, nextStepTitle := title, nextAction }, hevidence, rfl, haction,
      (create_eq_ok hcounted).2 ⟨hgenerated', mem_of_knownValue h.status, hcount, hvs, htitle,
        nextStepStatus_mem hvalid, hnextAction, rfl⟩⟩
  · rintro ⟨e, action, o, hevidence, rfl, haction, ho⟩
    have hcreated := (create_eq_ok (ascii_output_checklist hreport hevidence haction).2).1 ho
    unfold checklistEvidence at hevidence
    simp only [Checks.bind_eq_ok, Checks.throw_bind_eq_ok, raising_eq_ok, Bool.not_eq_true,
      Bool.not_eq_false'] at hevidence
    obtain ⟨hschema, hdestructive, generatedAt, hgenerated, status, hstatus, steps, hsteps, hne,
      blockers, hblockers, h⟩ := hevidence
    obtain rfl := Except.ok.inj h
    exact {
      schemaVersion := hschema
      destructiveActions := hdestructive
      status := hstatus
      generatedAt := ⟨generatedAt, o.generatedAt, hgenerated, hcreated.generatedAt⟩
      steps := ⟨steps, o.nextStepTitle, action, o.nextAction, hsteps, hne, hcreated.nextStepTitle,
        haction, hcreated.nextAction⟩
      blockers := ⟨blockers, o.blockers, hblockers, hcreated.blockerCount, hcreated.blockers⟩ }

end Answers

/-! ### The tool -/

/-- The Hub answers, and the answer matches the phone's contract. -/
def ChecklistAccepted (x : Except RomError GoffyRomChecklistOutput) : Prop :=
  ∃ o, x = .ok o ∧ o.onPhone.matchesToolContract = true

/-- An answer without a checklist is taken, where the validators take its texts. -/
theorem withoutChecklist_accepted {status checklistStatus blocker title nextAction : String}
    (hstatus : status ∈ ["missing", "invalid"]) (hchecklist : checklistStatus ∈ ["MISSING", "INVALID"])
    (hblocker : validText blocker.toList maxBlockerLength maxBlockerLength = .ok blocker.toList)
    (htitle : validText title.toList maxChecklistStepTitleLength maxNextActionLength =
      .ok title.toList)
    (hnextAction : validText nextAction.toList maxNextActionLength maxNextActionLength =
      .ok nextAction.toList)
    (hascii : ∀ text ∈ [blocker, title, nextAction], Ascii text.toList) :
    ChecklistAccepted (withoutChecklist status checklistStatus blocker title nextAction).create := by
  set o := withoutChecklist status checklistStatus blocker title nextAction with ho
  have hgenerated : validText "unknown".toList 64 maxNextActionLength = .ok "unknown".toList :=
    validText_ofList (by decide +kernel)
  have hnotAvailable : o.status ≠ "available".toList := by
    have hword : ∀ w ∈ ["missing", "invalid"], w.toList ≠ "available".toList := by decide
    exact hword status hstatus
  have hnotStatus : o.checklistStatus ∉ availableStatuses := by
    have hword : ∀ w ∈ ["MISSING", "INVALID"], w.toList ∉ availableStatuses := by decide
    exact hword checklistStatus hchecklist
  have hcounted : o.Counted := {
    status := List.mem_map_of_mem (List.mem_cons_of_mem _ hstatus)
    total := Nat.zero_le _
    done := rfl
    nextSteps_length := ⟨Nat.zero_le _, Nat.zero_le _⟩
    nextStepsTruncated := rfl
    nextSteps := fun s hs => absurd hs List.not_mem_nil
    nodup := List.nodup_nil
    blockers_length := le_rfl
    blockersTruncated := rfl
    checked := (decide_eq_false hnotAvailable).symm
    steps := fun h => absurd h hnotAvailable }
  have hblockers : validBlockers o.blockers = .ok o.blockers :=
    (if_pos (show 1 ≤ maxBlockers by decide)).trans
      (Checks.mapM_cons_eq_ok.2 ⟨blocker.toList, [], hblocker, rfl, rfl⟩)
  have hchecklistMem : o.checklistStatus ∈ checklistStatusValues.map String.toList :=
    List.mem_map_of_mem (List.mem_cons_of_mem _ (List.mem_cons_of_mem _ hchecklist))
  have hnextMem : o.nextStepStatus ∈ checklistNextStepStatusValues.map String.toList :=
    List.mem_map_of_mem (List.mem_append_right _ hchecklist)
  have hcreated : ChecklistCreated o o :=
    ⟨hgenerated, hchecklistMem, rfl, hblockers, htitle, hnextMem, hnextAction, rfl⟩
  simp only [List.forall_mem_cons] at hascii
  obtain ⟨hb, ht, hn, -⟩ := hascii
  exact ⟨o, (create_eq_ok hcounted).2 hcreated, (hcreated.matchesToolContract_iff hcounted
    ⟨ascii_ofList (by decide), List.forall_mem_singleton.2 hb, ht, hn⟩).2
      (iff_of_false hnotAvailable hnotStatus)⟩

theorem invalidChecklist_accepted (summary : String) : ChecklistAccepted (invalidChecklist summary) := by
  refine withoutChecklist_accepted (by decide) (by decide) (validText_ofList (by decide +kernel))
    (validText_ofList (by decide +kernel)) (validText_ofList (by decide +kernel)) ?_
  simp only [List.forall_mem_cons]
  exact ⟨ascii_ofList (by decide), ascii_ofList (by decide), ascii_ofList (by decide),
    List.forall_mem_nil _⟩

theorem missingChecklist_accepted : ChecklistAccepted missingChecklist := by
  refine withoutChecklist_accepted (by decide) (by decide) (validText_ofList (by decide +kernel))
    (validText_ofList (by decide +kernel)) (validText_ofList (by decide +kernel)) ?_
  simp only [List.forall_mem_cons]
  exact ⟨ascii_ofList (by decide), ascii_ofList (by decide), ascii_ofList (by decide),
    List.forall_mem_nil _⟩

section Snapshot

variable {report : Members} {status : Python.Str}

/-- The answer to a checklist that the Hub shows. -/
theorem snapshot_of_shown (hreport : MembersAscii report) (h : Shown report status) :
    ChecklistAccepted (goffyRomChecklistSnapshot false (.object report)) ↔
      status ∈ availableStatuses := by
  obtain ⟨e, action, o, hevidence, rfl, haction, ho⟩ := (shown_iff hreport).1 h
  obtain ⟨hascii, hcounted⟩ := ascii_output_checklist hreport hevidence haction
  have hiff := ((create_eq_ok hcounted).1 ho).matchesToolContract_iff hcounted hascii
  have hsnapshot : goffyRomChecklistSnapshot false (.object report) = .ok o := by
    unfold goffyRomChecklistSnapshot
    rw [if_neg Bool.false_ne_true]
    dsimp only
    rw [hevidence]
    dsimp only
    rw [haction, Checks.ok_bind, ho]
  rw [hsnapshot]
  constructor
  · rintro ⟨o', ho', hmatches⟩
    obtain rfl := Except.ok.inj ho'
    exact (hiff.1 hmatches).1 rfl
  · intro hmem
    exact ⟨o, rfl, hiff.2 ⟨fun _ => hmem, fun _ => rfl⟩⟩

/-- Everything that the Hub does not show has the same answer. -/
theorem snapshot_of_not_shown (hreport : MembersAscii report) (h : ∀ status, ¬ Shown report status) :
    ChecklistAccepted (goffyRomChecklistSnapshot false (.object report)) := by
  unfold goffyRomChecklistSnapshot
  rw [if_neg Bool.false_ne_true]
  dsimp only
  split
  · exact invalidChecklist_accepted _
  · exact invalidChecklist_accepted _
  case h_3 e hevidence =>
    split
    case h_1 o ho =>
      obtain ⟨action, haction, ho⟩ := Checks.bind_eq_ok.1 ho
      exact absurd ((shown_iff hreport).2 ⟨e, action, o, hevidence, rfl, haction, ho⟩) (h e.status)
    · exact invalidChecklist_accepted _

theorem Shown.status_mem (h : Shown report status) :
    status ∈ availableStatuses ∨ status ∈ ["MISSING".toList, "INVALID".toList] := by
  have hword : ∀ w ∈ checklistStatusValues.map String.toList,
      w ∈ availableStatuses ∨ w ∈ ["MISSING".toList, "INVALID".toList] := by decide
  exact hword status (mem_of_knownValue h.status)

end Snapshot

/-- **The checklist of the operator.** Where the texts of the artifact are of ASCII, the phone takes the
answer, unless the Hub shows a checklist that says of itself that it is missing or invalid. -/
theorem goffyRomChecklistSnapshot_accepted_iff (directoryIsSymlink : Bool) (operator : Artifact)
    (hoperator : operator.IsAscii) :
    ChecklistAccepted (goffyRomChecklistSnapshot directoryIsSymlink operator) ↔
      ¬ (directoryIsSymlink = false ∧ ∃ report status, operator = .object report ∧
        Shown report status ∧ status ∈ ["MISSING".toList, "INVALID".toList]) := by
  cases directoryIsSymlink with
  | true =>
    refine iff_of_true (invalidChecklist_accepted
      "ROM-0 validation directory is not a regular local directory") ?_
    rintro ⟨h, -⟩
    cases h
  | false =>
    cases operator with
    | missing =>
      refine iff_of_true missingChecklist_accepted ?_
      rintro ⟨-, _, _, h, -⟩
      cases h
    | notRegular =>
      refine iff_of_true (invalidChecklist_accepted
        "ROM-0 operator checklist is not a regular local artifact") ?_
      rintro ⟨-, _, _, h, -⟩
      cases h
    | unreadable =>
      refine iff_of_true (invalidChecklist_accepted
        "ROM-0 operator checklist is unreadable or malformed") ?_
      rintro ⟨-, _, _, h, -⟩
      cases h
    | object report =>
      by_cases hshown : ∃ status, Shown report status
      · obtain ⟨status, hstatus⟩ := hshown
        rw [snapshot_of_shown hoperator hstatus]
        constructor
        · rintro hmem ⟨-, _, status', h, hstatus', hmem'⟩
          cases h
          obtain rfl := Except.ok.inj (hstatus.status.symm.trans hstatus'.status)
          have hdisjoint : ∀ w ∈ availableStatuses, w ∉ ["MISSING".toList, "INVALID".toList] := by
            decide
          exact hdisjoint status hmem hmem'
        · intro hnot
          exact hstatus.status_mem.resolve_right fun hmem =>
            hnot ⟨rfl, report, status, rfl, hstatus, hmem⟩
      · push Not at hshown
        refine iff_of_true (snapshot_of_not_shown hoperator hshown) ?_
        rintro ⟨-, _, status, h, hstatus, -⟩
        cases h
        exact hshown status hstatus

/-- A checklist of one step, with a status. -/
def checklistOfStatus (status : String) : Members := [
  ("schema_version".toList, .str supportedOperatorSchema.toList),
  ("destructive_actions".toList, .str "withheld".toList),
  ("status".toList, .str status.toList),
  ("steps".toList, .array [.object [
    ("title".toList, .str "Check".toList), ("kind".toList, .str "HUMAN_ONLY".toList),
    ("status".toList, .str "READY".toList), ("summary".toList, .str "Check".toList)]])]

/-- Its step, as the Hub reads it. -/
def readyStep : GoffyRomChecklistStepOutput where
  stepIndex := 1
  title := "Check".toList
  kind := "HUMAN_ONLY".toList
  status := "READY".toList
  summary := "Check".toList
  blocked := false
  blockerCount := 0

theorem isAscii_checklistOfStatus : ∀ status ∈ ["BLOCKED_EVIDENCE", "MISSING"],
    (Artifact.object (checklistOfStatus status)).IsAscii := by
  simp only [List.forall_mem_cons, Artifact.IsAscii, checklistOfStatus, MembersAscii, JsonAscii,
    ItemsAscii, supportedOperatorSchema]
  decide

/-- The phone takes the answer about a blocked checklist. -/
theorem blocked_checklist_is_accepted : ChecklistAccepted
    (goffyRomChecklistSnapshot false (.object (checklistOfStatus "BLOCKED_EVIDENCE"))) := by
  refine (goffyRomChecklistSnapshot_accepted_iff false _
    (isAscii_checklistOfStatus _ (by decide))).2 ?_
  rintro ⟨-, _, status, h, hshown, hmem⟩
  cases h
  have hvalue : checklistStatusValue (get (checklistOfStatus "BLOCKED_EVIDENCE") "status") =
      .ok "BLOCKED_EVIDENCE".toList := by decide +kernel
  obtain rfl := Except.ok.inj (hvalue.symm.trans hshown.status)
  revert hmem
  decide

/-- A checklist that says of itself that it is missing is shown, and the phone does not take it. -/
theorem missing_checklist_is_rejected : (Artifact.object (checklistOfStatus "MISSING")).IsAscii ∧
    ¬ ChecklistAccepted (goffyRomChecklistSnapshot false (.object (checklistOfStatus "MISSING"))) := by
  have hascii := isAscii_checklistOfStatus "MISSING" (by decide)
  refine ⟨hascii, ?_⟩
  have hsteps : operatorSteps (checklistOfStatus "MISSING") = .ok [readyStep] := by decide +kernel
  have hshown : Shown (checklistOfStatus "MISSING") "MISSING".toList := {
    schemaVersion := by decide
    destructiveActions := by decide
    status := by decide +kernel
    generatedAt := ⟨"unknown".toList, "unknown".toList, by decide +kernel, by decide +kernel⟩
    steps := ⟨[readyStep], "Check".toList, "Complete Check".toList, "Complete Check".toList, hsteps,
      List.cons_ne_nil _ _, by decide +kernel, by decide +kernel, by decide +kernel⟩
    blockers := ⟨[], [], rfl, rfl, rfl⟩ }
  rw [snapshot_of_shown hascii hshown]
  decide

end GoffyHub.Rom
