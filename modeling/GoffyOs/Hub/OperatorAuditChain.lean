import GoffyOs.Hub.OperatorAudit
import GoffyOs.Lib.HashChain

/-!
# The audit trail as a hash chain

What the stored form of an event determines, and what verification makes of an honest chain.

* `auditPreimage_injective`: the bytes that are hashed determine the event and its predecessor, so a
  collision-free hash separates rows (`eq_of_eventHash_eq`). A missing optional field shares its
  encoding with an empty text, but no token and no UUID text is empty.
* `fetchStoredRows_map`: a row that was written by the log is parsed back as it was.
* `HonestChain` is what `record` builds; `verifyStoredRows_drop` evaluates the verifier on what
  retention leaves of it, and `linked_of_verify` reads off what acceptance says about any rows.
-/

namespace GoffyHub.OperatorAudit

open Python

/-! ### The preimage determines the event -/

theorem length_utf8_le (s : Str) : (utf8 s).length ≤ 4 * s.length := by
  induction s with
  | nil => simp [utf8]
  | cons c s ih =>
    have hc : (String.utf8EncodeChar c).length ≤ 4 := by
      rw [String.length_utf8EncodeChar]
      exact Char.utf8Size_le_four c
    have hcons : utf8 (c :: s) = String.utf8EncodeChar c ++ utf8 s := rfl
    rw [hcons, List.length_append, List.length_cons]
    omega

/-- Two short fields and what follows them can be told apart. -/
theorem lengthPrefixed_append_inj {f g : Str} {a b : Bytes} (hf : f.length < 2 ^ 30)
    (hg : g.length < 2 ^ 30) (h : lengthPrefixed f ++ a = lengthPrefixed g ++ b) :
    f = g ∧ a = b := by
  have hfl := length_utf8_le f
  have hgl := length_utf8_le g
  rw [lengthPrefixed, lengthPrefixed, List.append_assoc, List.append_assoc] at h
  obtain ⟨hlen, hrest⟩ := List.append_inj h (by simp)
  have hdigits : Positional.digits 256 4 (utf8 f).length =
      Positional.digits 256 4 (utf8 g).length := by
    have hbyte : ∀ n, ∀ d ∈ Positional.digits 256 4 n, (UInt8.ofNat d).toNat = d := by
      intro n d hd
      have := Positional.digits_lt (by decide) 4 n d hd
      simpa using this
    have hback : ∀ n, ((Positional.digits 256 4 n).map UInt8.ofNat).map UInt8.toNat =
        Positional.digits 256 4 n := by
      intro n
      rw [List.map_map]
      exact (List.map_congr_left (g := id) (hbyte n)).trans (List.map_id _)
    rw [← hback, hlen, hback]
  have hn : (utf8 f).length = (utf8 g).length :=
    Positional.digits_inj (b := 256) (w := 4) (by omega) (by omega) hdigits
  obtain ⟨hfg, hab⟩ := List.append_inj hrest hn
  exact ⟨utf8_injective hfg, hab⟩

theorem flatMap_lengthPrefixed_inj {fs gs : List Str} (hlen : fs.length = gs.length)
    (hfs : ∀ f ∈ fs, f.length < 2 ^ 30) (hgs : ∀ g ∈ gs, g.length < 2 ^ 30)
    (h : fs.flatMap lengthPrefixed = gs.flatMap lengthPrefixed) : fs = gs := by
  induction fs generalizing gs with
  | nil => exact (List.length_eq_zero_iff.1 hlen.symm).symm
  | cons f fs ih =>
    cases gs with
    | nil => simp at hlen
    | cons g gs =>
      rw [List.flatMap_cons, List.flatMap_cons] at h
      obtain ⟨rfl, hrest⟩ :=
        lengthPrefixed_append_inj (hfs f (by simp)) (hgs g (by simp)) h
      rw [ih (by simpa using hlen) (fun x hx => hfs x (by simp [hx]))
        (fun x hx => hgs x (by simp [hx])) hrest]

theorem length_natStr_le {n : ℕ} (h : n < 2 ^ 63) : (natStr n).length ≤ 19 :=
  (Nat.length_toDigits_le_iff (by decide) (by decide)).2 (by omega)

theorem AuditToken.ne_nil (t : AuditToken) : t.val ≠ [] := by
  intro h
  have ht := t.property
  rw [h] at ht
  exact absurd ht (by decide)

/-- Every hashed field of a row is short. -/
theorem length_hashedFields_lt {event : OperatorAuditEvent} (hseq : event.sequence < 2 ^ 63) :
    ∀ f ∈ hashedFields event, f.length < 2 ^ 30 := by
  have hnum := length_natStr_le hseq
  have htime : (serializeDatetime event.recordedAt).length ≤ 27 := by
    rw [serializeDatetime_eq]
    simp only [isoDate, isoTime, List.length_append, List.length_cons, Positional.length_write,
      List.length_nil]
    split <;> simp
  have huuid : ((event.credentialId.map uuidStr).getD []).length ≤ 36 := by
    cases event.credentialId with
    | none => simp
    | some u => simp [uuidStr, length_uuidHex]
  have hdetail : ((event.detailCode.map Subtype.val).getD []).length ≤ 80 := by
    cases event.detailCode with
    | none => simp
    | some t => simpa using AuditToken.length_le t
  have htoken := AuditToken.length_le
  intro f hf
  simp only [hashedFields, List.mem_cons, List.not_mem_nil, or_false] at hf
  rcases hf with rfl | rfl | rfl | rfl | rfl | rfl | rfl | rfl
  · omega
  · omega
  · have := htoken event.source; omega
  · have := htoken event.action; omega
  · have := htoken event.outcome; omega
  · have := htoken event.principalKind; omega
  · omega
  · omega

/-- An optional field is determined by its text when no present value has the empty text. -/
theorem getD_map_inj {α : Type} {f : α → Str} (hf : Function.Injective f) (hne : ∀ a, f a ≠ [])
    {x y : Option α} (h : (x.map f).getD [] = (y.map f).getD []) : x = y := by
  cases x with
  | none =>
    cases y with
    | none => rfl
    | some b => exact absurd h.symm (hne b)
  | some a =>
    cases y with
    | none => exact absurd h (hne a)
    | some b => exact congrArg some (hf h)

/-- The hashed fields determine an event up to the two hashes it repeats. -/
theorem eq_of_hashedFields_eq {a b : OperatorAuditEvent} (h : hashedFields a = hashedFields b)
    (hprev : a.previousHash = b.previousHash) (hhash : a.eventHash = b.eventHash) : a = b := by
  simp only [hashedFields, List.cons.injEq, and_true] at h
  obtain ⟨hseq, htime, hsource, haction, houtcome, hkind, hid, hdetail⟩ := h
  have hid' := getD_map_inj uuidStr_injective uuidStr_ne_nil hid
  have hdetail' := getD_map_inj Subtype.val_injective AuditToken.ne_nil hdetail
  cases a
  cases b
  simp only [OperatorAuditEvent.mk.injEq]
  exact ⟨natStr_injective hseq, serializeDatetime_injective htime, Subtype.val_injective hsource,
    Subtype.val_injective haction, Subtype.val_injective houtcome, Subtype.val_injective hkind,
    hid', hdetail', hprev, hhash⟩

/-- The preimage that seals a row. -/
def StoredAuditRow.preimage (row : StoredAuditRow) : Bytes := auditPreimage row.event row.previousHash

/-- **The preimage determines the row**, except for the hash it is stored with. -/
theorem eq_of_preimage_eq {r c : StoredAuditRow} (h : r.preimage = c.preimage)
    (hhash : r.eventHash = c.eventHash) : r = c := by
  obtain ⟨-, h⟩ := List.append_inj h rfl
  obtain ⟨hprev, hfields⟩ := List.append_inj h (r.previousHash.property.trans
    c.previousHash.property.symm)
  have hprev' : r.previousHash = c.previousHash := Subtype.val_injective hprev
  have hfields' := flatMap_lengthPrefixed_inj (by simp [hashedFields])
    (length_hashedFields_lt r.fits) (length_hashedFields_lt c.fits) hfields
  have hevent : r.event = c.event :=
    eq_of_hashedFields_eq hfields' (by rw [r.previousHex, c.previousHex, hprev'])
      (by rw [r.eventHex, c.eventHex, hhash])
  cases r
  cases c
  simp only [StoredAuditRow.mk.injEq]
  exact ⟨hevent, hprev', hhash⟩

/-! ### Stored rows are parsed back -/

/-- Neither `strip` nor `lower` changes a character of the token alphabet. -/
theorem isTokenChar_normal {c : Char} (h : isTokenChar c = true) :
    isSpace c = false ∧ lowerChar c = c := by
  have hn : c.toNat < 123 := by
    simp only [isTokenChar, Bool.or_eq_true, Bool.and_eq_true, decide_eq_true_eq, beq_iff_eq,
      Char.le_def, UInt32.le_iff_toNat_le] at h
    rcases h with ((((⟨-, h⟩ | ⟨-, h⟩) | rfl) | rfl) | rfl) | rfl
    · exact Nat.lt_succ_of_le h
    · exact lt_of_le_of_lt h (by decide)
    all_goals decide
  have hall : ∀ n < 123, isTokenChar (Char.ofNat n) = true →
      isSpace (Char.ofNat n) = false ∧ lowerChar (Char.ofNat n) = Char.ofNat n := by decide
  simpa using hall c.toNat hn (by simpa using h)

/-- A token is its own normal form. -/
theorem auditToken_val (t : AuditToken) : auditToken t.val = some t := by
  have hall : ∀ c ∈ t.val, isTokenChar c = true := by
    have ht := t.property
    simp only [matchesTokenPattern, Bool.and_eq_true, List.all_eq_true] at ht
    exact ht.2
  have hnorm : lower (strip t.val) = t.val := by
    rw [strip, trim_eq_self fun c hc => (isTokenChar_normal (hall c hc)).1]
    exact (List.map_congr_left fun c hc => (isTokenChar_normal (hall c hc)).2).trans
      (List.map_id _)
  have htake : t.val.take maxAuditTextLength = t.val :=
    List.take_of_length_le (AuditToken.length_le t)
  simp only [auditToken, hnorm, t.property, dif_pos, htake]

/-- The texts of a row that the log has written. -/
def storedTexts (row : StoredAuditRow) : AuditRow Str where
  sequence := row.event.sequence
  recordedAt := serializeDatetime row.event.recordedAt
  source := row.event.source.val
  action := row.event.action.val
  outcome := row.event.outcome.val
  principalKind := row.event.principalKind.val
  credentialId := row.event.credentialId.map uuidStr
  detailCode := row.event.detailCode.map Subtype.val
  previousHash := row.previousHash
  eventHash := row.eventHash
  positive := row.positive
  fits := row.fits

theorem decode_toAuditRow (row : StoredAuditRow) :
    (toAuditRow row).decode = some (storedTexts row) := by
  simp only [AuditRow.decode, toAuditRow, storedTexts]
  cases row.event.credentialId <;> cases row.event.detailCode <;> rfl

variable (zone : NaiveDateTime → Except Exn ℤ)

theorem rowToStoredEvent_storedTexts (row : StoredAuditRow) :
    rowToStoredEvent zone (storedTexts row) = .ok row := by
  have hid : parseOptional parseUuid (row.event.credentialId.map uuidStr) =
      .ok row.event.credentialId := by
    cases row.event.credentialId with
    | none => rfl
    | some u => simp [parseOptional, parseUuid_uuidStr, orValueError, Except.map]
  have hdetail : parseOptional auditToken (row.event.detailCode.map Subtype.val) =
      .ok row.event.detailCode := by
    cases row.event.detailCode with
    | none => rfl
    | some t => simp [parseOptional, auditToken_val, orValueError, Except.map]
  have hbind : ∀ {α β : Type} (a : α) (f : α → Except Exn β), (Except.ok a >>= f) = f a :=
    fun _ _ => rfl
  have hprev := row.previousHex
  have hhash := row.eventHex
  simp only [rowToStoredEvent, storedTexts, parseDatetime_serializeDatetime, auditToken_val,
    orValueError, hid, hdetail, hbind, ← hprev, ← hhash]
  rfl

/-- **Round trip.** What the log has written is read back as it was. -/
theorem fetchStoredRows_map {events : AuditTable} {rows : List StoredAuditRow}
    (h : events.val = rows.map toAuditRow) : fetchStoredRows zone events = .ok rows := by
  have hdecode : (rows.map toAuditRow).mapM AuditRow.decode = some (rows.map storedTexts) := by
    have hfun : AuditRow.decode ∘ toAuditRow = fun row => pure (storedTexts row) :=
      funext decode_toAuditRow
    rw [List.mapM_map, hfun, List.mapM_pure]
    rfl
  have hparse : (rows.map storedTexts).mapM (rowToStoredEvent zone) = .ok rows := by
    have hfun : rowToStoredEvent zone ∘ storedTexts = fun row => pure (id row) :=
      funext (rowToStoredEvent_storedTexts zone)
    rw [List.mapM_map, hfun, List.mapM_pure, List.map_id]
    rfl
  rw [fetchStoredRows, h, hdecode]
  simp only [hparse]
  rfl

/-! ### Honest chains and the verifier -/

/-- The rows are hashed correctly. -/
def Sealed (rows : List StoredAuditRow) : Prop :=
  ∀ row ∈ rows, auditEventHash row.event row.previousHash = row.eventHash

/-- Each row names the hash of its predecessor, the first one `start`. -/
abbrev Chained (start : Digest) (rows : List StoredAuditRow) : Prop :=
  HashChain.Linked StoredAuditRow.previousHash StoredAuditRow.eventHash start rows

/-- The hash that a list of rows ends with. -/
abbrev tipHash (start : Digest) (rows : List StoredAuditRow) : Digest :=
  HashChain.tip StoredAuditRow.eventHash start rows

/-- What `record` builds: sealed rows, chained from the genesis hash and numbered from one. -/
structure HonestChain (history : List StoredAuditRow) : Prop where
  chained : Chained genesisAuditHash history
  isSealed : Sealed history
  numbered : history.map (·.event.sequence) = List.range' 1 history.length

theorem rowsLinked_iff {start : Digest} {rows : List StoredAuditRow} :
    rowsLinked start rows = true ↔ Chained start rows ∧ Sealed rows := by
  induction rows generalizing start with
  | nil => simp [rowsLinked, HashChain.Linked, Sealed]
  | cons row rows ih =>
    simp only [rowsLinked, Bool.and_eq_true, decide_eq_true_eq, ih, HashChain.Linked, Sealed,
      List.forall_mem_cons]
    tauto

/-- The tip of the honest chain as the metadata records it. -/
def chainTipOf (history : List StoredAuditRow) : AuditChainTip :=
  ⟨history.length, tipHash genesisAuditHash history⟩

theorem honestChain_nil : HonestChain [] where
  chained := trivial
  isSealed := by simp [Sealed]
  numbered := rfl

section Verifier

variable {history rows : List StoredAuditRow}

/-- The row of index `k` has sequence number `k + 1`. -/
theorem HonestChain.sequence_eq (h : HonestChain history) {k : ℕ} {row : StoredAuditRow}
    (hk : history[k]? = some row) : row.event.sequence = k + 1 := by
  have hmap := congrArg (·[k]?) h.numbered
  obtain ⟨hlt, -⟩ := List.getElem?_eq_some_iff.1 hk
  simp only [List.getElem?_map, hk, Option.map_some, List.getElem?_range' hlt,
    Option.some.injEq] at hmap
  omega

/-- The hash that the verifier expects the first row to name. -/
def startHash (first : StoredAuditRow) : Digest :=
  if first.event.sequence = 1 then genesisAuditHash else first.previousHash

/-- What the verifier demands of a non-empty table. -/
structure Accepts (first : StoredAuditRow) (rest : List StoredAuditRow)
    (tip mark : AuditChainTip) : Prop where
  chained : Chained (startHash first) (first :: rest)
  isSealed : Sealed (first :: rest)
  tip_sequence : tip.sequence = ((first :: rest).getLast (List.cons_ne_nil _ _)).event.sequence
  tip_hash : tip.eventHash = tipHash (startHash first) (first :: rest)
  mark_eq : mark = tip

theorem verifyStoredRows_cons (first : StoredAuditRow) (rest : List StoredAuditRow)
    (tip mark : AuditChainTip) :
    Accepts first rest tip mark ∧ verifyStoredRows (first :: rest) (some tip) (some mark) =
        (if first.event.sequence = 1 then .verified else .retentionGap) ∨
      ¬ Accepts first rest tip mark ∧
        verifyStoredRows (first :: rest) (some tip) (some mark) = .tamperDetected := by
  have hlast := HashChain.tip_eq_getLast StoredAuditRow.eventHash (startHash first)
    (List.cons_ne_nil first rest)
  have hbranch : verifyStoredRows (first :: rest) (some tip) (some mark) =
      if rowsLinked (startHash first) (first :: rest) = false then .tamperDetected
      else if tip.sequence ≠ ((first :: rest).getLast (List.cons_ne_nil _ _)).event.sequence ∨
        tip.eventHash ≠ ((first :: rest).getLast (List.cons_ne_nil _ _)).eventHash then
        .tamperDetected
      else if mark.sequence ≠ tip.sequence ∨ mark.eventHash ≠ tip.eventHash then .tamperDetected
      else if first.event.sequence = 1 then .verified else .retentionGap := rfl
  by_cases hlinked : rowsLinked (startHash first) (first :: rest) = true
  · obtain ⟨hchained, hsealed⟩ := rowsLinked_iff.1 hlinked
    rw [hbranch, if_neg (by simp [hlinked])]
    by_cases htip : tip.sequence ≠ ((first :: rest).getLast (List.cons_ne_nil _ _)).event.sequence ∨
        tip.eventHash ≠ ((first :: rest).getLast (List.cons_ne_nil _ _)).eventHash
    · refine Or.inr ⟨fun h => ?_, if_pos htip⟩
      exact htip.elim (· h.tip_sequence) (· (h.tip_hash.trans hlast))
    · rw [if_neg htip]
      push Not at htip
      by_cases hmark : mark.sequence ≠ tip.sequence ∨ mark.eventHash ≠ tip.eventHash
      · refine Or.inr ⟨fun h => ?_, if_pos hmark⟩
        rw [h.mark_eq] at hmark
        simp at hmark
      · rw [if_neg hmark]
        push Not at hmark
        refine Or.inl ⟨⟨hchained, hsealed, htip.1, htip.2.trans hlast.symm, ?_⟩, rfl⟩
        cases mark
        cases tip
        simpa using hmark
  · refine Or.inr ⟨fun h => hlinked (rowsLinked_iff.2 ⟨h.chained, h.isSealed⟩), ?_⟩
    rw [hbranch, if_pos (by simpa using hlinked)]

/-- The first of the rows that retention leaves has the number behind the pruned ones. -/
theorem HonestChain.sequence_of_drop (h : HonestChain history) {k : ℕ} {first : StoredAuditRow}
    {rest : List StoredAuditRow} (hrows : history.drop k = first :: rest) :
    first.event.sequence = k + 1 := by
  apply h.sequence_eq
  rw [← List.head?_drop, hrows, List.head?_cons]

/-- The verifier accepts what retention leaves of an honest chain. -/
theorem HonestChain.accepts_drop (h : HonestChain history) {k : ℕ} {first : StoredAuditRow}
    {rest : List StoredAuditRow} (hrows : history.drop k = first :: rest) :
    Accepts first rest (chainTipOf history) (chainTipOf history) := by
  have hfirst := h.sequence_of_drop hrows
  have hsplit : history = history.take k ++ first :: rest := by
    rw [← hrows, List.take_append_drop]
  -- the remaining rows are linked from the hash of the last pruned row
  obtain ⟨-, hrest⟩ := HashChain.linked_append.1 (hsplit ▸ h.chained)
  have hstart : startHash first = tipHash genesisAuditHash (history.take k) := by
    by_cases hk0 : k = 0
    · simp [startHash, hfirst, hk0, HashChain.tip]
    · rw [startHash, hfirst, if_neg (by omega)]
      exact hrest.1
  have hlast : history.getLast? = some ((first :: rest).getLast (List.cons_ne_nil _ _)) := by
    rw [hsplit, List.getLast?_append_of_ne_nil _ (List.cons_ne_nil _ _),
      List.getLast?_eq_some_getLast]
  exact {
    chained := hstart ▸ hrest
    isSealed := fun row hrow => h.isSealed row (by rw [hsplit]; exact List.mem_append_right _ hrow)
    tip_sequence := by
      rw [List.getLast?_eq_getElem?] at hlast
      have hpos : 0 < history.length := by rw [hsplit]; simp
      have := h.sequence_eq hlast
      simp only [chainTipOf]
      omega
    tip_hash := by
      rw [hstart, tipHash, ← HashChain.tip_append, ← hsplit]
      rfl
    mark_eq := rfl }

/-- **What retention leaves of an honest chain is accepted**, and the answer says whether anything
is missing. -/
theorem verifyStoredRows_drop (h : HonestChain history) {k : ℕ}
    (hk : k < history.length ∨ k = 0) :
    verifyStoredRows (history.drop k) (some (chainTipOf history)) (some (chainTipOf history)) =
      if k = 0 then .verified else .retentionGap := by
  cases hrows : history.drop k with
  | nil =>
    have hle : history.length ≤ k := List.drop_eq_nil_iff.1 hrows
    obtain rfl : k = 0 := by omega
    obtain rfl : history = [] := List.length_eq_zero_iff.1 (by omega)
    rfl
  | cons first rest =>
    rcases verifyStoredRows_cons first rest (chainTipOf history) (chainTipOf history) with
      ⟨-, hanswer⟩ | ⟨hnot, -⟩
    · simpa [h.sequence_of_drop hrows] using hanswer
    · exact absurd (h.accepts_drop hrows) hnot

/-- Metadata that name another tip are reported as tampered. -/
theorem verifyStoredRows_stale (h : HonestChain history) {k : ℕ}
    (hk : k < history.length ∨ k = 0) {tip : AuditChainTip} (hne : tip ≠ chainTipOf history) :
    verifyStoredRows (history.drop k) (some tip) (some tip) = .tamperDetected := by
  cases hrows : history.drop k with
  | nil =>
    have hle : history.length ≤ k := List.drop_eq_nil_iff.1 hrows
    obtain rfl : history = [] := List.length_eq_zero_iff.1 (by omega)
    refine if_neg fun hgenesis => hne ?_
    cases tip
    simp only at hgenesis
    rw [hgenesis.1, hgenesis.2.1]
    rfl
  | cons first rest =>
    rcases verifyStoredRows_cons first rest tip tip with ⟨hacc, -⟩ | ⟨-, hanswer⟩
    · have hhonest := h.accepts_drop hrows
      refine absurd ?_ hne
      cases tip
      rw [AuditChainTip.mk.injEq]
      exact ⟨hacc.tip_sequence.trans hhonest.tip_sequence.symm,
        hacc.tip_hash.trans hhonest.tip_hash.symm⟩
    · exact hanswer

/-- The last row of an honest chain is what its tip records. -/
theorem HonestChain.tip_eq (h : HonestChain history) :
    (history.getLast?.map fun row => (⟨row.event.sequence, row.eventHash⟩ : AuditChainTip)).getD
      ⟨0, genesisAuditHash⟩ = chainTipOf history := by
  rcases List.eq_nil_or_concat' history with rfl | ⟨front, last, rfl⟩
  · rfl
  · have hlast : (front ++ [last])[front.length]? = some last := by simp
    have hseq := h.sequence_eq hlast
    simp [chainTipOf, hseq]

end Verifier

end GoffyHub.OperatorAudit
