import GoffyOs.Hub.Approval
import GoffyOs.Hub.CanonicalJson

/-!
# What a signature is about

The Hub verifies a signature over the text that `approval_signing_payload` makes of a record, a
credential and an answer, and compares hashes of the text that `canonical_arguments_sha256` makes of
arguments. Both texts say everything that went into them.

* `memberText_prefix`: in flat objects with the same keys and values of the same kinds, what follows a
  member begins where the member ends; `dumps_injective` is the result for whole objects;
* `approvalSigningPayload_injective`: two payloads with the same bytes are about the same approval, the
  same credential and the same answer;
* `canonicalArguments_injective`: two objects of arguments with the same bytes are the same up to the
  order of their members.
-/

namespace Python

open GoffyHub.ToolSchema (Members sortKeys mem_sortKeys)

/-! ### Flat objects -/

/-- Two texts, two integers or two booleans. -/
inductive SameKind : Json → Json → Prop
  | str (s t : Str) : SameKind (.str s) (.str t)
  | int (m n : ℤ) : SameKind (.int m) (.int n)
  | bool (b c : Bool) : SameKind (.bool b) (.bool c)

variable {rest rest' : Str}

theorem ends_comma : Ends (',' :: rest) := by
  rintro c hc
  exact Or.inl (Option.some.inj hc).symm

theorem ends_brace : Ends ('}' :: rest) := by
  rintro c hc
  exact Or.inr (Or.inr (Option.some.inj hc).symm)

theorem quote_prefix {s t : Str} (h : quote s ++ rest = quote t ++ rest') : s = t ∧ rest = rest' := by
  rw [quote, quote, List.cons_append, List.cons_append, List.append_assoc, List.append_assoc,
    List.singleton_append, List.singleton_append] at h
  have hread := scanString_escaped s rest
  rw [List.tail_eq_of_cons_eq h, scanString_escaped t rest'] at hread
  obtain ⟨rfl, rfl⟩ := Prod.mk.inj (Except.ok.inj hread)
  exact ⟨rfl, rfl⟩

theorem natStr_prefix {m n : ℕ} (hrest : Ends rest) (hrest' : Ends rest')
    (h : natStr m ++ rest = natStr n ++ rest') : m = n ∧ rest = rest' := by
  have hm := takeWhile_digits (fun c hc => @isJsonDigit_of_mem_natStr m c hc) hrest.not_digit
  have hn := takeWhile_digits (fun c hc => @isJsonDigit_of_mem_natStr n c hc) hrest'.not_digit
  have heq : natStr m = natStr n := by rw [← hm, h, hn]
  exact ⟨natStr_injective heq, List.append_cancel_left (by rwa [heq] at h)⟩

theorem intStr_prefix {m n : ℤ} (hrest : Ends rest) (hrest' : Ends rest')
    (h : intStr m ++ rest = intStr n ++ rest') : m = n ∧ rest = rest' := by
  have hsign : ∀ {k l : ℕ} {r r' : Str}, natStr k ++ r = '-' :: (natStr l ++ r') → False := by
    intro k l r r' heq
    cases hk : natStr k with
    | nil => exact Nat.toDigits_ne_nil hk
    | cons c cs =>
      rw [hk, List.cons_append] at heq
      have hc := @isJsonDigit_of_mem_natStr k c (by rw [hk]; exact List.mem_cons_self)
      rw [(List.cons.inj heq).1] at hc
      exact absurd hc (by decide)
  cases m with
  | ofNat m =>
    cases n with
    | ofNat n =>
      obtain ⟨rfl, hrest⟩ := natStr_prefix hrest hrest' h
      exact ⟨rfl, hrest⟩
    | negSucc n => exact (hsign h).elim
  | negSucc m =>
    cases n with
    | ofNat n => exact (hsign h.symm).elim
    | negSucc n =>
      obtain ⟨heq, hrest⟩ := natStr_prefix hrest hrest' (List.cons.inj h).2
      obtain rfl := Nat.succ_injective heq
      exact ⟨rfl, hrest⟩

/-- A value ends where another one of its kind does. -/
theorem dumps_prefix {v w : Json} (hkind : SameKind v w) (hrest : Ends rest) (hrest' : Ends rest')
    (h : v.dumps ++ rest = w.dumps ++ rest') : v = w ∧ rest = rest' := by
  cases hkind with
  | str s t =>
    rw [Json.dumps, Json.dumps] at h
    obtain ⟨rfl, hrest⟩ := quote_prefix h
    exact ⟨rfl, hrest⟩
  | int m n =>
    rw [Json.dumps, Json.dumps] at h
    obtain ⟨rfl, hrest⟩ := intStr_prefix hrest hrest' h
    exact ⟨rfl, hrest⟩
  | bool b c =>
    cases b <;> cases c <;> simp only [Json.dumps] at h
    · exact ⟨rfl, List.append_cancel_left h⟩
    · exact absurd (List.cons.inj h).1 (by decide)
    · exact absurd (List.cons.inj h).1 (by decide)
    · exact ⟨rfl, List.append_cancel_left h⟩

theorem memberText_prefix {key : Str} {v w : Json} (hkind : SameKind v w) (hrest : Ends rest)
    (hrest' : Ends rest') (h : memberText (key, v) ++ rest = memberText (key, w) ++ rest') :
    v = w ∧ rest = rest' := by
  rw [memberText, memberText, List.append_assoc, List.append_assoc] at h
  exact dumps_prefix hkind hrest hrest' (List.cons.inj (List.append_cancel_left h)).2

/-- Keys with the values of two objects. -/
abbrev MemberPairs := List (Str × Json × Json)

def firstMembers (pairs : MemberPairs) : Members := pairs.map fun p => (p.1, p.2.1)
def secondMembers (pairs : MemberPairs) : Members := pairs.map fun p => (p.1, p.2.2)

theorem members_prefix : ∀ pairs : MemberPairs, (∀ p ∈ pairs, SameKind p.2.1 p.2.2) →
    commaJoin ((firstMembers pairs).map memberText) ++ ['}'] =
      commaJoin ((secondMembers pairs).map memberText) ++ ['}'] → ∀ p ∈ pairs, p.2.1 = p.2.2
  | [], _, _ => fun _ hp => absurd hp List.not_mem_nil
  | [p], hkinds, h => by
    obtain ⟨heq, -⟩ := memberText_prefix (hkinds p List.mem_cons_self) ends_brace ends_brace h
    exact fun q hq => List.mem_singleton.1 hq ▸ heq
  | p :: q :: pairs, hkinds, h => by
    obtain ⟨hkind, hkinds⟩ := List.forall_mem_cons.1 hkinds
    have hsplit : memberText (p.1, p.2.1) ++
          ',' :: (commaJoin ((firstMembers (q :: pairs)).map memberText) ++ ['}']) =
        memberText (p.1, p.2.2) ++
          ',' :: (commaJoin ((secondMembers (q :: pairs)).map memberText) ++ ['}']) := by
      simpa [firstMembers, secondMembers, commaJoin] using h
    obtain ⟨heq, hrest⟩ := memberText_prefix hkind ends_comma ends_comma hsplit
    exact List.forall_mem_cons.2 ⟨heq, members_prefix (q :: pairs) hkinds (List.cons.inj hrest).2⟩

/-- **Flat objects.** With the same keys and values of the same kinds, the text says the values. -/
theorem dumps_injective {pairs : MemberPairs} (hkinds : ∀ p ∈ pairs, SameKind p.2.1 p.2.2)
    (h : (Json.object (firstMembers pairs)).dumps = (Json.object (secondMembers pairs)).dumps) :
    ∀ p ∈ pairs, p.2.1 = p.2.2 := by
  let sorted := pairs.insertionSort fun p q => ¬ q.1 < p.1
  have hfirst : sortKeys (firstMembers pairs) = firstMembers sorted :=
    (List.map_insertionSort (fun p q : Str × Json × Json => ¬ q.1 < p.1)
      (fun a b : Str × Json => ¬ b.1 < a.1) (fun p => (p.1, p.2.1)) pairs
      fun _ _ _ _ => Iff.rfl).symm
  have hsecond : sortKeys (secondMembers pairs) = secondMembers sorted :=
    (List.map_insertionSort (fun p q : Str × Json × Json => ¬ q.1 < p.1)
      (fun a b : Str × Json => ¬ b.1 < a.1) (fun p => (p.1, p.2.2)) pairs
      fun _ _ _ _ => Iff.rfl).symm
  rw [dumps_object, dumps_object, hfirst, hsecond] at h
  have hmem : ∀ p, p ∈ sorted ↔ p ∈ pairs := fun p => (List.perm_insertionSort _ pairs).mem_iff
  have heq := members_prefix sorted (fun p hp => hkinds p ((hmem p).1 hp)) (List.cons.inj h).2
  exact fun p hp => heq p ((hmem p).2 hp)

end Python

namespace GoffyHub.Approval

open Python
open ToolSchema (sortJsonKeys)

/-! ### The payload of a signature -/

/-- The members of two payloads. -/
def payloadPairs (r r' : IssuedApprovalRecord) (c c' : UUID) (a a' : Bool) : MemberPairs := [
  ("schemaVersion".toList, .str "goffy.approval.signed-payload.v1".toList,
    .str "goffy.approval.signed-payload.v1".toList),
  ("approvalId".toList, .str (uuidStr r.approvalId), .str (uuidStr r'.approvalId)),
  ("taskId".toList, .str (uuidStr r.taskId), .str (uuidStr r'.taskId)),
  ("credentialId".toList, .str (uuidStr c), .str (uuidStr c')),
  ("toolName".toList, .str r.toolName, .str r'.toolName),
  ("argumentsSha256".toList, .str r.argumentsSha256, .str r'.argumentsSha256),
  ("issuedAtEpochMillis".toList, .int r.issuedAtEpochMillis, .int r'.issuedAtEpochMillis),
  ("expiresAtEpochMillis".toList, .int r.expiresAtEpochMillis, .int r'.expiresAtEpochMillis),
  ("approved".toList, .bool a, .bool a')]

/-- Two records that differ in the principal at most, which no payload contains. -/
structure SameApproval (r r' : IssuedApprovalRecord) : Prop where
  approvalId : r.approvalId = r'.approvalId
  taskId : r.taskId = r'.taskId
  toolName : r.toolName = r'.toolName
  argumentsSha256 : r.argumentsSha256 = r'.argumentsSha256
  issuedAtEpochMillis : r.issuedAtEpochMillis = r'.issuedAtEpochMillis
  expiresAtEpochMillis : r.expiresAtEpochMillis = r'.expiresAtEpochMillis

theorem sameApproval_of_payload_eq {r r' : IssuedApprovalRecord} {c c' : UUID} {a a' : Bool}
    (h : approvalSigningPayload r c a = approvalSigningPayload r' c' a') :
    SameApproval r r' ∧ c = c' ∧ a = a' := by
  have hkinds : ∀ p ∈ payloadPairs r r' c c' a a', SameKind p.2.1 p.2.2 := by
    simp only [payloadPairs, List.forall_mem_cons, List.not_mem_nil, false_imp_iff, implies_true,
      and_true]
    exact ⟨.str _ _, .str _ _, .str _ _, .str _ _, .str _ _, .str _ _, .int _ _, .int _ _,
      .bool _ _⟩
  have hall := dumps_injective hkinds (utf8_injective h)
  simp only [payloadPairs, List.forall_mem_cons, Json.str.injEq, Json.int.injEq, Json.bool.injEq,
    uuidStr_injective.eq_iff] at hall
  obtain ⟨-, hid, htask, hc, htool, hsha, hissued, hexpires, ha, -⟩ := hall
  exact ⟨⟨hid, htask, htool, hsha, hissued, hexpires⟩, hc, ha⟩

/-- **One payload, one approval.** A signature of one payload is a signature of no other. -/
theorem approvalSigningPayload_eq_iff (r r' : IssuedApprovalRecord) (c c' : UUID) (a a' : Bool) :
    approvalSigningPayload r c a = approvalSigningPayload r' c' a' ↔
      SameApproval r r' ∧ c = c' ∧ a = a' := by
  constructor
  · exact sameApproval_of_payload_eq
  · rintro ⟨h, rfl, rfl⟩
    unfold approvalSigningPayload
    rw [h.approvalId, h.taskId, h.toolName, h.argumentsSha256, h.issuedAtEpochMillis,
      h.expiresAtEpochMillis]

/-! ### The preimage of a hash -/

/-- **One preimage, one object of arguments**, up to the order of members. -/
theorem canonicalArguments_eq_iff {float : Str → Str} {arguments arguments' : List (Str × Json)}
    (h : Readable float (.object arguments)) (h' : Readable float (.object arguments')) :
    utf8 (Json.object arguments).dumps = utf8 (Json.object arguments').dumps ↔
      sortJsonKeys (.object arguments) = sortJsonKeys (.object arguments') :=
  (utf8_injective.eq_iff).trans (dumps_eq_iff h h')

/-- The arguments of a search, and the same in another order. -/
def searchArguments : List (Str × Json) := [("root".toList, .str "home".toList), ("limit".toList, .int 5)]

def searchArguments' : List (Str × Json) := [("limit".toList, .int 5), ("root".toList, .str "home".toList)]

theorem search_same_preimage :
    utf8 (Json.object searchArguments).dumps = utf8 (Json.object searchArguments').dumps := by
  have hlimit : Readable id (.int 5) := .int (by decide)
  have hroot : Readable id (.str "home".toList) := .str _
  have h : Readable id (.object searchArguments) := by
    refine .object (by decide) fun m hm => ?_
    rcases List.mem_cons.1 hm with rfl | hm
    · exact hroot
    · exact List.mem_singleton.1 hm ▸ hlimit
  have h' : Readable id (.object searchArguments') := by
    refine .object (by decide) fun m hm => ?_
    rcases List.mem_cons.1 hm with rfl | hm
    · exact hlimit
    · exact List.mem_singleton.1 hm ▸ hroot
  exact (canonicalArguments_eq_iff h h').2 rfl

end GoffyHub.Approval
