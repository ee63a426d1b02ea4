import GoffyOs.Hub.CanonicalJson
import GoffyOs.Phone.ApprovalDeadlines
import GoffyOs.Phone.ProtocolCodec
import Mathlib.Tactic.Ring

/-!
# Two encoders of canonical JSON

The phone hashes the arguments of a call and signs the answer to an approval; the Hub hashes the arguments
that it has read and verifies the signature. Each side writes canonical JSON with its own code.

* `Field` is a member of a flat object, as the phone sends it and as the Hub reads it;
* `encodedChars_canonicalJson` and `encodedChars_text`: the phone's canonical text is the Hub's, and the
  text that goes over the wire is one of its members in the order of the phone;
* `signed_bytes_agree` is the result for the approvals that the phone accepts.
-/

namespace GoffyPhone

open Kotlin
open Python (UUID Json Readable memberText)
open GoffyHub.Approval (IssuedApprovalRecord canonicalArgumentsSha256)
open GoffyHub.ToolSchema (Members sortKeys)
open GoffyProtocolCodec (canonicalJson sortedByKey)

/-! ### Flat objects -/

/-- A member of an object: its key, the value that is sent and the value that is read. -/
structure Field where
  key : Python.Str
  sent : JsonElement
  read : Json

def isAsciiKey (key : Python.Str) : Bool := key.all fun c => c.toNat < 0x80

/-- A value that is written alike on both sides. -/
structure Field.Agrees (f : Field) : Prop where
  ascii : isAsciiKey f.key = true
  text : encodedChars f.sent.text = f.read.dumps
  canonical : canonicalJson f.sent = f.sent.text

def sentMembers (fields : List Field) : JsonObject := fields.map fun f => (ofChars f.key, f.sent)
def readMembers (fields : List Field) : Members := fields.map fun f => (f.key, f.read)

section Fields

variable {fields : List Field}

/-- Strings of ASCII are in the order of their characters. -/
theorem ofChars_lt_iff {s t : Python.Str} (hs : isAsciiKey s = true) (ht : isAsciiKey t = true) :
    ofChars s < ofChars t ↔ s < t := by
  simp only [isAsciiKey, List.all_eq_true, decide_eq_true_eq] at hs ht
  induction s generalizing t with
  | nil =>
    cases t with
    | nil => simp [ofChars]
    | cons d t =>
      have hd := (List.forall_mem_cons.1 ht).1
      rw [ofChars_cons, units_of_lt (by omega)]
      simp [ofChars]
  | cons c s ih =>
    obtain ⟨hc, hs⟩ := List.forall_mem_cons.1 hs
    cases t with
    | nil => simp [ofChars]
    | cons d t =>
      obtain ⟨hd, ht⟩ := List.forall_mem_cons.1 ht
      have hunit : unit c < unit d ↔ c < d := by
        rw [UInt16.lt_iff_toNat_lt, toNat_unit (by omega), toNat_unit (by omega)]
        exact Iff.rfl
      have heq : unit c = unit d ↔ c = d := unit_inj (by omega) (by omega)
      rw [ofChars_cons, ofChars_cons, units_of_lt (by omega), units_of_lt (by omega),
        List.singleton_append, List.singleton_append, List.cons_lt_cons_iff, List.cons_lt_cons_iff,
        ih hs ht]
      exact or_congr hunit (and_congr heq Iff.rfl)

theorem canonicalMembers_sent (h : ∀ f ∈ fields, f.Agrees) :
    GoffyProtocolCodec.canonicalMembers (sentMembers fields) =
      fields.map fun f => (ofChars f.key, f.sent.text) := by
  induction fields with
  | nil => rfl
  | cons f fields ih =>
    obtain ⟨hf, hfields⟩ := List.forall_mem_cons.1 h
    rw [sentMembers, List.map_cons, GoffyProtocolCodec.canonicalMembers, hf.canonical, List.map_cons]
    exact congrArg (_ :: ·) (ih hfields)

/-- A member with its quotes and its colon. -/
theorem encodedChars_member {f : Field} (hf : f.Agrees) :
    encodedChars (printQuoted (ofChars f.key) ++ 0x3a :: f.sent.text) =
      memberText (f.key, f.read) := by
  obtain ⟨hhigh, hlow⟩ := not_surrogate_of_lt (c := 0x3a) (by decide)
  rw [encodedChars_append_of_not_surrogate hlow, encodedChars_printQuoted,
    encodedChars_ofChars, encodedChars_cons_of_not_surrogate hhigh hlow, hf.text]
  rfl

/-- An object of encoded members. -/
theorem encodedChars_braces (parts : List Str) :
    encodedChars (0x7b :: (commaJoin parts ++ [0x7d])) =
      '{' :: (Python.commaJoin (parts.map encodedChars) ++ ['}']) := by
  obtain ⟨hopen, hopen'⟩ := not_surrogate_of_lt (c := 0x7b) (by decide)
  obtain ⟨hclose, hclose'⟩ := not_surrogate_of_lt (c := 0x7d) (by decide)
  rw [encodedChars_cons_of_not_surrogate hopen hopen', encodedChars_append_of_not_surrogate hclose',
    encodedChars_commaJoin]
  rfl

/-- **The canonical text of the phone is that of the Hub.** -/
theorem encodedChars_canonicalJson (h : ∀ f ∈ fields, f.Agrees) :
    encodedChars (canonicalJson (.object (sentMembers fields))) =
      (Json.object (readMembers fields)).dumps := by
  let sorted := fields.insertionSort fun f g => ¬ g.key < f.key
  have hmem : ∀ f ∈ sorted, f.Agrees := fun f hf =>
    h f ((List.perm_insertionSort _ _).mem_iff.1 hf)
  have hsent : sortedByKey (fields.map fun f => (ofChars f.key, f.sent.text)) =
      sorted.map fun f => (ofChars f.key, f.sent.text) := by
    refine (List.map_insertionSort (fun f g : Field => ¬ g.key < f.key)
      (fun a b : Str × Str => ¬ b.1 < a.1) (fun f => (ofChars f.key, f.sent.text)) fields
      fun f hf g hg => ?_).symm
    rw [ofChars_lt_iff (h g hg).ascii (h f hf).ascii]
  have hread : sortKeys (readMembers fields) = sorted.map fun f => (f.key, f.read) :=
    (List.map_insertionSort (fun f g : Field => ¬ g.key < f.key)
      (fun a b : Python.Str × Json => ¬ b.1 < a.1) (fun f => (f.key, f.read)) fields
      fun _ _ _ _ => Iff.rfl).symm
  rw [canonicalJson, canonicalMembers_sent h, hsent, encodedChars_braces, Python.dumps_object, hread,
    List.map_map, List.map_map, List.map_map]
  refine congrArg (fun l => '{' :: (Python.commaJoin l ++ ['}'])) ?_
  exact List.map_congr_left fun f hf => encodedChars_member (hmem f hf)

theorem textMembers_sent (fields : List Field) : textMembers (sentMembers fields) =
    fields.map fun f => printQuoted (ofChars f.key) ++ 0x3a :: f.sent.text := by
  induction fields with
  | nil => rfl
  | cons f fields ih =>
    rw [sentMembers, List.map_cons, textMembers, List.map_cons]
    exact congrArg (_ :: ·) ih

/-- The text of an object on the wire. -/
theorem encodedChars_text (h : ∀ f ∈ fields, f.Agrees) :
    encodedChars (JsonElement.object (sentMembers fields)).text =
      '{' :: (Python.commaJoin ((readMembers fields).map memberText) ++ ['}']) := by
  rw [JsonElement.text, textMembers_sent, encodedChars_braces, readMembers, List.map_map, List.map_map]
  refine congrArg (fun l => '{' :: (Python.commaJoin l ++ ['}'])) ?_
  exact List.map_congr_left fun f hf => encodedChars_member (h f hf)

end Fields

/-! ### Values -/

section Values

variable {key : Python.Str}

theorem agrees_text (hkey : isAsciiKey key = true) (s : Str) :
    (Field.mk key (GoffyProtocolCodec.text s) (.str (encodedChars s))).Agrees := by
  refine ⟨hkey, ?_, rfl⟩
  rw [Json.dumps]
  exact encodedChars_printQuoted s

theorem toString_eq_intStr (n : ℤ) : (toString n).toList = Python.intStr n := by
  cases n with
  | ofNat n => exact Nat.toList_repr
  | negSucc n =>
    show ("-" ++ Nat.repr (n + 1)).toList = _
    rw [String.toList_append, Nat.toList_repr]
    rfl

theorem agrees_number (hkey : isAsciiKey key = true) (n : ℤ) :
    (Field.mk key (GoffyProtocolCodec.number n) (.int n)).Agrees := by
  refine ⟨hkey, ?_, rfl⟩
  rw [Json.dumps, ← toString_eq_intStr]
  exact encodedChars_ofChars _

theorem agrees_flag (hkey : isAsciiKey key = true) (b : Bool) :
    (Field.mk key (GoffyProtocolCodec.flag b) (.bool b)).Agrees := by
  refine ⟨hkey, ?_, rfl⟩
  cases b with
  | true =>
    rw [Json.dumps]
    exact encodedChars_ofChars _
  | false =>
    rw [Json.dumps]
    exact encodedChars_ofChars _

end Values

def Field.ofText (key : String) (s : Str) : Field :=
  ⟨key.toList, GoffyProtocolCodec.text s, .str (encodedChars s)⟩

def Field.ofNumber (key : String) (n : ℤ) : Field := ⟨key.toList, GoffyProtocolCodec.number n, .int n⟩

def Field.ofFlag (key : String) (b : Bool) : Field := ⟨key.toList, GoffyProtocolCodec.flag b, .bool b⟩

/-! ### The payload that is signed -/

/-- The members of the payload, in the order of the phone. -/
def signingFields (request : HubApprovalRequest) (credentialId : UUID) (approved : Bool) :
    List Field := [
  .ofText "schemaVersion" (lit "goffy.approval.signed-payload.v1"),
  .ofText "approvalId" (uuidToString request.approvalId),
  .ofText "argumentsSha256" request.argumentsSha256,
  .ofFlag "approved" approved,
  .ofText "credentialId" (uuidToString credentialId),
  .ofNumber "expiresAtEpochMillis" request.expiresAtEpochMillis,
  .ofNumber "issuedAtEpochMillis" request.issuedAtEpochMillis,
  .ofText "taskId" (uuidToString request.taskId),
  .ofText "toolName" request.toolName]

theorem signingFields_agree (request : HubApprovalRequest) (credentialId : UUID) (approved : Bool) :
    ∀ f ∈ signingFields request credentialId approved, f.Agrees := by
  simp only [signingFields, List.forall_mem_cons, List.not_mem_nil, false_imp_iff, implies_true,
    and_true]
  exact ⟨agrees_text rfl _, agrees_text rfl _, agrees_text rfl _,
    agrees_flag rfl _, agrees_text rfl _, agrees_number rfl _,
    agrees_number rfl _, agrees_text rfl _, agrees_text rfl _⟩

/-- The order of the Hub, from that of the phone. -/
theorem perm_members {α : Type} (a b c d e f g h i : α) :
    [a, b, c, d, e, f, g, h, i].Perm [a, b, h, e, i, c, g, f, d] := by
  classical
  refine List.perm_iff_count.2 fun x => ?_
  simp only [List.count_cons, List.count_nil]
  ring

/-- The members that the Hub reads, in the order of the Hub. -/
theorem perm_signingFields (record : IssuedApprovalRecord) (credentialId : UUID) (approved : Bool) :
    (readMembers (signingFields (approvalRequestOf record) credentialId approved)).Perm [
      ("schemaVersion".toList, .str "goffy.approval.signed-payload.v1".toList),
      ("approvalId".toList, .str (Python.uuidStr record.approvalId)),
      ("taskId".toList, .str (Python.uuidStr record.taskId)),
      ("credentialId".toList, .str (Python.uuidStr credentialId)),
      ("toolName".toList, .str record.toolName),
      ("argumentsSha256".toList, .str record.argumentsSha256),
      ("issuedAtEpochMillis".toList, .int record.issuedAtEpochMillis),
      ("expiresAtEpochMillis".toList, .int record.expiresAtEpochMillis),
      ("approved".toList, .bool approved)] := by
  have hread : ∀ s, encodedChars (ofChars s) = s := encodedChars_ofChars
  simp only [readMembers, signingFields, Field.ofText, Field.ofNumber, Field.ofFlag, List.map_cons,
    List.map_nil, approvalRequestOf, uuidToString, lit, hread]
  exact perm_members ..

/-- **Phone and Hub sign the same bytes.** -/
theorem approvalSigningPayload_agrees (record : IssuedApprovalRecord) (credentialId : UUID)
    (approved : Bool) :
    toByteArray (canonicalJson (.object
      (GoffyProtocolCodec.signingObject (approvalRequestOf record) credentialId approved))) =
      GoffyHub.Approval.approvalSigningPayload record credentialId approved := by
  have hsent : GoffyProtocolCodec.signingObject (approvalRequestOf record) credentialId approved =
      sentMembers (signingFields (approvalRequestOf record) credentialId approved) := rfl
  have hkeys : ((readMembers (signingFields (approvalRequestOf record) credentialId approved)).map
      Prod.fst).Nodup := by
    rw [readMembers, List.map_map]
    exact (by decide : ["schemaVersion".toList, "approvalId".toList, "argumentsSha256".toList,
      "approved".toList, "credentialId".toList, "expiresAtEpochMillis".toList,
      "issuedAtEpochMillis".toList, "taskId".toList, "toolName".toList].Nodup)
  rw [toByteArray, hsent, encodedChars_canonicalJson (signingFields_agree _ _ _),
    GoffyHub.Approval.approvalSigningPayload, Python.dumps_object, Python.dumps_object,
    Python.sortKeys_of_perm hkeys (perm_signingFields record credentialId approved)]

/-! ### Arguments -/

/-- The members of the arguments of a call. -/
def argumentFields : ToolArguments → List Field
  | .macProcessesList maxEntries | .macAppsList maxEntries => [.ofNumber "maxEntries" maxEntries.toInt]
  | .macAppsOpen displayName => [.ofText "displayName" displayName]
  | .macFilesList rootIndex relativePath maxEntries includeHidden => [
      .ofNumber "rootIndex" rootIndex.toInt, .ofText "relativePath" relativePath,
      .ofNumber "maxEntries" maxEntries.toInt, .ofFlag "includeHidden" includeHidden]
  | .macFilesLargest rootIndex relativePath maxEntries maxDepth includeHidden => [
      .ofNumber "rootIndex" rootIndex.toInt, .ofText "relativePath" relativePath,
      .ofNumber "maxEntries" maxEntries.toInt, .ofNumber "maxDepth" maxDepth.toInt,
      .ofFlag "includeHidden" includeHidden]
  | .gitStatus repoIndex maxChanges includeUntracked => [
      .ofNumber "repoIndex" repoIndex.toInt, .ofNumber "maxChanges" maxChanges.toInt,
      .ofFlag "includeUntracked" includeUntracked]
  | _ => []

/-- What the decoder of the Hub makes of the text of a field. -/
structure Field.Reads (f : Field) : Prop where
  readable : ∀ float, Readable float f.read
  sorted : GoffyHub.ToolSchema.sortJsonKeys f.read = f.read

theorem length_natStr_int32 (n : Int32) : (Python.natStr n.toInt.natAbs).length ≤ 4300 := by
  have hlt := n.toInt_lt
  have hge := n.le_toInt
  have hlength : (Python.natStr n.toInt.natAbs).length ≤ 10 :=
    (Nat.length_toDigits_le_iff (by decide) (by decide)).2 (by omega)
  omega

theorem reads_text (key : String) (s : Str) : (Field.ofText key s).Reads :=
  ⟨fun _ => .str _, rfl⟩

theorem reads_number (key : String) (n : Int32) : (Field.ofNumber key n.toInt).Reads :=
  ⟨fun _ => .int (length_natStr_int32 n), rfl⟩

theorem reads_flag (key : String) (b : Bool) : (Field.ofFlag key b).Reads := ⟨fun _ => .bool b, rfl⟩

theorem argumentFields_agree (arguments : ToolArguments) :
    ∀ f ∈ argumentFields arguments, f.Agrees ∧ f.Reads := by
  have hnumber : ∀ {key : String} (n : Int32), isAsciiKey key.toList = true →
      (Field.ofNumber key n.toInt).Agrees ∧ (Field.ofNumber key n.toInt).Reads :=
    fun n hkey => ⟨agrees_number hkey _, reads_number _ n⟩
  have htext : ∀ {key : String} (s : Str), isAsciiKey key.toList = true →
      (Field.ofText key s).Agrees ∧ (Field.ofText key s).Reads :=
    fun s hkey => ⟨agrees_text hkey s, reads_text _ s⟩
  have hflag : ∀ {key : String} (b : Bool), isAsciiKey key.toList = true →
      (Field.ofFlag key b).Agrees ∧ (Field.ofFlag key b).Reads :=
    fun b hkey => ⟨agrees_flag hkey b, reads_flag _ b⟩
  cases arguments <;>
    simp only [argumentFields, List.forall_mem_cons, List.not_mem_nil, false_imp_iff, implies_true,
      and_true]
  case macProcessesList n => exact hnumber n rfl
  case macAppsList n => exact hnumber n rfl
  case macAppsOpen name => exact htext name rfl
  case macFilesList root path entries hidden =>
    exact ⟨hnumber root rfl, htext path rfl, hnumber entries rfl,
      hflag hidden rfl⟩
  case macFilesLargest root path entries depth hidden =>
    exact ⟨hnumber root rfl, htext path rfl, hnumber entries rfl,
      hnumber depth rfl, hflag hidden rfl⟩
  case gitStatus repo changes untracked =>
    exact ⟨hnumber repo rfl, hnumber changes rfl, hflag untracked rfl⟩

theorem nodup_argumentFields (arguments : ToolArguments) :
    ((readMembers (argumentFields arguments)).map Prod.fst).Nodup := by
  rw [readMembers, List.map_map]
  cases arguments
  case macFilesList => exact (by decide : ["rootIndex".toList, "relativePath".toList,
    "maxEntries".toList, "includeHidden".toList].Nodup)
  case macFilesLargest => exact (by decide : ["rootIndex".toList, "relativePath".toList,
    "maxEntries".toList, "maxDepth".toList, "includeHidden".toList].Nodup)
  case gitStatus => exact (by decide : ["repoIndex".toList, "maxChanges".toList,
    "includeUntracked".toList].Nodup)
  all_goals first | exact List.nodup_nil | exact List.nodup_singleton _

theorem readable_argumentFields (arguments : ToolArguments) (float : Python.Str → Python.Str) :
    Readable float (.object (readMembers (argumentFields arguments))) := by
  refine .object (nodup_argumentFields arguments) fun m hm => ?_
  obtain ⟨f, hf, rfl⟩ := List.mem_map.1 hm
  exact (argumentFields_agree arguments f hf).2.readable float

section Encoded

open GoffyProtocolCodec

variable {toolName : Str} {arguments : ToolArguments} {encoded : JsonObject}

theorem encodeNone_ok {message : String} (h : encodeNone message arguments = .ok encoded) :
    encoded = sentMembers (argumentFields arguments) := by
  cases arguments
  case noToolArguments => exact (Except.ok.inj h).symm
  all_goals cases h

theorem encodeTyped_ok {name : String} {object : Option JsonObject}
    (hobject : ∀ e, object = some e → e = sentMembers (argumentFields arguments))
    (h : encodeTyped name arguments object = .ok encoded) :
    encoded = sentMembers (argumentFields arguments) := by
  cases object with
  | none => cases h
  | some e =>
    simp only [encodeTyped] at h
    split at h
    · obtain rfl := Except.ok.inj h
      exact hobject e rfl
    · cases h

theorem ok_ite {c : Prop} [Decidable c] {a b : Except String JsonObject} {p : JsonObject → Prop}
    (ha : ∀ e, a = .ok e → p e) (hb : ∀ e, b = .ok e → p e) :
    ∀ e, (if c then a else b) = .ok e → p e := by
  split
  · exact ha
  · exact hb

/-- What is encoded are the fields of the arguments, whatever the tool. -/
theorem encodeToolArguments_ok : ∀ encoded, encodeToolArguments toolName arguments = .ok encoded →
    encoded = sentMembers (argumentFields arguments) := by
  have hnone := fun message e => @encodeNone_ok arguments e message
  have hentries : ∀ e, macAppsListObject arguments = some e →
      e = sentMembers (argumentFields arguments) := by
    intro e he
    cases arguments <;> cases he
    rfl
  have hname : ∀ e, macAppsOpenObject arguments = some e →
      e = sentMembers (argumentFields arguments) := by
    intro e he
    cases arguments <;> cases he
    rfl
  have hprocesses : ∀ e, macProcessesListObject arguments = some e →
      e = sentMembers (argumentFields arguments) := by
    intro e he
    cases arguments <;> cases he
    rfl
  have hlargest : ∀ e, macFilesLargestObject arguments = some e →
      e = sentMembers (argumentFields arguments) := by
    intro e he
    cases arguments <;> cases he
    rfl
  have hfiles : ∀ e, macFilesListObject arguments = some e →
      e = sentMembers (argumentFields arguments) := by
    intro e he
    cases arguments <;> cases he
    rfl
  have hstatus : ∀ e, gitStatusObject arguments = some e →
      e = sentMembers (argumentFields arguments) := by
    intro e he
    cases arguments <;> cases he
    rfl
  unfold encodeToolArguments
  refine ok_ite (hnone _) <| ok_ite (hnone _) <| ok_ite (hnone _) <| ok_ite (hnone _) <|
    ok_ite (hnone _) <| ok_ite (fun e => encodeTyped_ok hentries) <|
    ok_ite (fun e => encodeTyped_ok hname) <| ok_ite (fun e => encodeTyped_ok hprocesses) <|
    ok_ite (fun e => encodeTyped_ok hlargest) <| ok_ite (fun e => encodeTyped_ok hfiles) <|
    ok_ite (fun e => encodeTyped_ok hstatus) fun e he => ?_
  cases he

/-- **The Hub hashes the bytes that the phone has hashed.** The text of the arguments goes over the wire
and is read again. -/
theorem canonicalArguments_agree (h : encodeToolArguments toolName arguments = .ok encoded)
    (float : Python.Str → Python.Str) :
    Python.loads float (encodedChars (JsonElement.object encoded).text) =
        .ok (.object (readMembers (argumentFields arguments))) ∧
      toByteArray (canonicalJson (.object encoded)) =
        Python.utf8 (Json.object (readMembers (argumentFields arguments))).dumps := by
  have hagree := argumentFields_agree arguments
  obtain rfl := encodeToolArguments_ok _ h
  constructor
  · rw [encodedChars_text fun f hf => (hagree f hf).1, Python.loads_members _
      (nodup_argumentFields arguments)]
    · refine congrArg (fun m => Except.ok (Json.object m)) ?_
      rw [readMembers, List.map_map]
      exact List.map_congr_left fun f hf => congrArg (Prod.mk f.key) (hagree f hf).2.sorted
    · cases readable_argumentFields arguments float with
      | object _ hmembers => exact hmembers
  · rw [toByteArray, encodedChars_canonicalJson fun f hf => (hagree f hf).1]

end Encoded

/-! ### The approvals of the phone -/

/-- The record of the Hub that an approval request is about. -/
def recordOf (approval : HubApprovalRequest) (principalKey : Python.Str) : IssuedApprovalRecord where
  approvalId := approval.approvalId
  principalKey := principalKey
  taskId := approval.taskId
  toolName := toChars approval.toolName
  argumentsSha256 := toChars approval.argumentsSha256
  issuedAtEpochMillis := approval.issuedAtEpochMillis
  expiresAtEpochMillis := approval.expiresAtEpochMillis

section Approvals

variable {γ : Type} {text : Except String (HubText γ)} {request : ToolInvocationRequest}
  {approval : HubApprovalRequest}

theorem lt_of_le_z {c : UInt16} (h : c ≤ 0x7a) : c < 0x80 := by
  rw [UInt16.lt_iff_toNat_lt]
  exact Nat.lt_of_le_of_lt (UInt16.le_iff_toNat_le.1 h) (by decide)

theorem ascii_of_requireToolName {name : Str} (h : requireToolName name = .ok ()) : Ascii name := by
  have hmatches : matchesToolName name = true := by
    unfold requireToolName at h
    obtain ⟨_, -, h⟩ := except_bind_eq_ok.1 h
    split at h
    · assumption
    · cases h
  intro c hc
  have hclass : (0x61 ≤ c ∧ c ≤ 0x7a) ∨ (0x30 ≤ c ∧ c ≤ 0x39) ∨ c = 0x5f ∨ c = 0x2e := by
    cases name with
    | nil => cases hc
    | cons d ds =>
      simp only [matchesToolName, Bool.and_eq_true, Bool.or_eq_true, decide_eq_true_eq, beq_iff_eq,
        List.all_eq_true] at hmatches
      rcases List.mem_cons.1 hc with rfl | hc
      · exact Or.inl hmatches.1
      · have := hmatches.2 c hc
        tauto
  rcases hclass with ⟨-, h⟩ | ⟨-, h⟩ | rfl | rfl
  · exact lt_of_le_z h
  · exact lt_of_le_z (UInt16.le_trans h (by decide))
  · decide
  · decide

theorem ascii_of_matchesSha256Hex {value : Str} (h : matchesSha256Hex value = true) : Ascii value := by
  intro c hc
  simp only [matchesSha256Hex, Bool.and_eq_true, Bool.or_eq_true, decide_eq_true_eq,
    List.all_eq_true] at h
  rcases h.2 c hc with ⟨-, hle⟩ | ⟨-, hle⟩
  · exact lt_of_le_z (UInt16.le_trans hle (by decide))
  · exact lt_of_le_z (UInt16.le_trans hle (by decide))

/-- What the phone has checked of a request that it accepts. -/
theorem accepted_texts (h : decodeApprovalRequestOrNull text request = .ok (some approval)) :
    requireToolName approval.toolName = .ok () ∧ matchesSha256Hex approval.argumentsSha256 = true := by
  unfold decodeApprovalRequestOrNull at h
  split at h
  · obtain ⟨_, -, h⟩ := except_bind_eq_ok.1 h
    obtain ⟨inbound, -, h⟩ := except_bind_eq_ok.1 h
    cases inbound with
    | approvalRequest payload =>
      obtain ⟨checked, hchecked, h⟩ := except_bind_eq_ok.1 h
      obtain rfl := Option.some.inj (Except.ok.inj h)
      unfold requireApprovalRequest at hchecked
      split at hchecked
      · cases hchecked
      obtain ⟨_, hexpected, hchecked⟩ := except_bind_eq_ok.1 hchecked
      split at hchecked
      · cases hchecked
      rename_i hhex
      split at hchecked
      · cases hchecked
      split at hchecked
      · cases hchecked
      split at hchecked
      · cases hchecked
      obtain rfl := Except.ok.inj hchecked
      obtain ⟨_, htool, -⟩ := except_bind_eq_ok.1 hexpected
      exact ⟨htool, by simpa using hhex⟩
    | _ => cases Except.ok.inj h
  · cases Except.ok.inj h

/-- The record says what the request says. -/
theorem approvalRequestOf_recordOf (principalKey : Python.Str)
    (h : decodeApprovalRequestOrNull text request = .ok (some approval)) :
    approvalRequestOf (recordOf approval principalKey) = approval := by
  obtain ⟨htool, hhex⟩ := accepted_texts h
  obtain ⟨⟩ := approval
  have hname := (ascii_of_requireToolName htool).whole
  have hhash := (ascii_of_matchesSha256Hex hhex).whole
  simp only [Whole] at hname hhash
  simp only [approvalRequestOf, recordOf, hname, hhash]

/-- **The signature and the hash are about the same bytes on both sides**: for every approval request
that the phone accepts, and for every application that may be opened. -/
theorem signed_bytes_agree {displayName : Str} (principalKey : Python.Str) (credentialId : UUID)
    (float : Python.Str → Python.Str)
    (haccepted : decodeApprovalRequestOrNull text request = .ok (some approval))
    (hname : MacAppsOpenArguments.matchesToolContract ⟨displayName⟩ = true) :
    approvalRequestOf (recordOf approval principalKey) = approval ∧
      GoffyProtocolCodec.approvalSigningPayload approval credentialId true =
        .ok (GoffyHub.Approval.approvalSigningPayload (recordOf approval principalKey) credentialId
          true) ∧
      ∃ encoded decoded,
        GoffyProtocolCodec.encodeToolArguments (lit "mac.apps.open") (.macAppsOpen displayName) =
          .ok encoded ∧
        Python.loads float (encodedChars (JsonElement.object encoded).text) =
          .ok (.object decoded) ∧
        toByteArray (canonicalJson (.object encoded)) = Python.utf8 (Json.object decoded).dumps ∧
        GoffyProtocolCodec.argumentsCodec (lit "mac.apps.open") (.macAppsOpen displayName) =
          .ok (ofChars (canonicalArgumentsSha256 decoded)) := by
  have hrecord := approvalRequestOf_recordOf principalKey haccepted
  obtain ⟨htool, -⟩ := accepted_texts haccepted
  refine ⟨hrecord, ?_, ?_⟩
  · rw [GoffyProtocolCodec.approvalSigningPayload, htool,
      ← approvalSigningPayload_agrees, hrecord]
    rfl
  · have hencoded : GoffyProtocolCodec.encodeToolArguments (lit "mac.apps.open")
        (.macAppsOpen displayName) = .ok [(lit "displayName", GoffyProtocolCodec.text displayName)] :=
      if_pos hname
    obtain ⟨hread, hbytes⟩ := canonicalArguments_agree hencoded float
    refine ⟨_, _, hencoded, hread, hbytes, ?_⟩
    rw [GoffyProtocolCodec.argumentsCodec, hencoded, canonicalArgumentsSha256, ← hbytes]
    rfl

/-- The approval that opens Safari. -/
theorem safari_bytes_agree :
    GoffyProtocolCodec.approvalSigningPayload (approvalRequestOf (safariRecord 1000)) 7 true =
      .ok (GoffyHub.Approval.approvalSigningPayload
        (recordOf (approvalRequestOf (safariRecord 1000)) "phone".toList) 7 true) ∧
    ∃ encoded decoded,
      GoffyProtocolCodec.encodeToolArguments (lit "mac.apps.open") (.macAppsOpen (lit "Safari")) =
        .ok encoded ∧
      Python.loads id (encodedChars (JsonElement.object encoded).text) = .ok (.object decoded) ∧
      toByteArray (canonicalJson (.object encoded)) = Python.utf8 (Json.object decoded).dumps ∧
      GoffyProtocolCodec.argumentsCodec (lit "mac.apps.open") (.macAppsOpen (lit "Safari")) =
        .ok (ofChars (canonicalArgumentsSha256 decoded)) :=
  (@signed_bytes_agree ContentType _ safariRequest (approvalRequestOf (safariRecord 1000))
    (lit "Safari") "phone".toList 7 id
    (decode_approvalRequest carries_safari rfl rfl rfl rfl (by decide) (by decide)) (by decide)).2

/-- **Every tool**: the hash that the phone computes is the one that the Hub computes of what it reads. -/
theorem argumentsCodec_agrees (float : Python.Str → Python.Str) {toolName sha256 : Str}
    {arguments : ToolArguments}
    (h : GoffyProtocolCodec.argumentsCodec toolName arguments = .ok sha256) :
    ∃ encoded decoded, GoffyProtocolCodec.encodeToolArguments toolName arguments = .ok encoded ∧
      Python.loads float (encodedChars (JsonElement.object encoded).text) = .ok (.object decoded) ∧
      sha256 = ofChars (canonicalArgumentsSha256 decoded) := by
  unfold GoffyProtocolCodec.argumentsCodec at h
  cases hencoded : GoffyProtocolCodec.encodeToolArguments toolName arguments with
  | error => rw [hencoded] at h; cases h
  | ok encoded =>
    rw [hencoded] at h
    obtain rfl := Except.ok.inj h
    obtain ⟨hread, hbytes⟩ := canonicalArguments_agree hencoded float
    refine ⟨_, _, rfl, hread, ?_⟩
    rw [canonicalArgumentsSha256, ← hbytes]
    rfl

/-- The arguments that open Safari. -/
theorem safari_arguments_agree : ∃ sha256 encoded decoded,
    GoffyProtocolCodec.encodeToolArguments (lit "mac.apps.open") (.macAppsOpen (lit "Safari")) =
      .ok encoded ∧
    Python.loads id (encodedChars (JsonElement.object encoded).text) = .ok (.object decoded) ∧
    sha256 = ofChars (canonicalArgumentsSha256 decoded) :=
  ⟨_, @argumentsCodec_agrees id (lit "mac.apps.open") _ (.macAppsOpen (lit "Safari")) rfl⟩

end Approvals

end GoffyPhone
